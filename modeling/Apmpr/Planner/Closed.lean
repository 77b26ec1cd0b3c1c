import Apmpr.Planner.Outputs

/-!
# Closed Compose projects

A Compose project is closed if everything its services refer to is defined in it: the
services they depend on, the service whose network they share, the networks they join and
the named volumes they mount. The planner writes one project for every device, and names a
dependency by the instance and service it is on, wherever that instance is placed.

## What is proved

* `compose_closed_iff`: the projects of a plan are all closed exactly where every service
  that a project keeps depends only on instances placed on the same device, or on names that
  some service there has.
* `cross_device_dependency`: a service that depends on one of another device is in a project
  that does not define it.

## Honest scope

Two services of one device can be given the same name, and then the project keeps the later
one. The condition is about the services that are kept.
-/

namespace Apmpr.Planner

/-! ### What a Compose project refers to -/

/-- The named volume a mount in the short form is of. A source that is a path is mounted as
it is, and a mount without source is anonymous. -/
def namedVolume (mount : String) : Option String :=
  match Text.splitOnce ':' mount with
  | none => none
  | some (source, _) =>
    if ['/', '.', '~'].any fun c => source.toList.head? = some c then none else some source

/-- The names under an object's field. -/
def namesUnder (field : String) (value : Json) : List String :=
  (((value.field field).bind Json.asObject).getD []).map Prod.fst

/-- The networks a service joins. -/
def joinedNetworks (service : Json) : List String :=
  match service.field "networks" with
  | some (.array items) => items.filterMap Json.asStr
  | _ => namesUnder "networks" service

/-- The service whose network a service shares. -/
def sharedNamespace (service : Json) : Option String :=
  ((service.field "network_mode").bind Json.asStr).bind (Text.afterStart "service:")

/-- The named volumes a service mounts. -/
def mountedVolumes (service : Json) : List String :=
  match service.field "volumes" with
  | some (.array items) => (items.filterMap Json.asStr).filterMap namedVolume
  | _ => []

/-- The services of a project. -/
def composeServices (compose : Json) : List (String × Json) :=
  ((compose.field "services").bind Json.asObject).getD []

/-- What a service refers to beside the services it depends on is defined. -/
structure ServiceClosed (compose service : Json) : Prop where
  namespaces : ∀ name, sharedNamespace service = some name → name ∈ namesUnder "services" compose
  networks : ∀ name ∈ joinedNetworks service, name ∈ namesUnder "networks" compose
  volumes : ∀ name ∈ mountedVolumes service, name ∈ namesUnder "volumes" compose

/-- Everything the services of a project refer to is defined in it. -/
structure Closed (compose : Json) : Prop where
  services : ∀ entry ∈ composeServices compose, ServiceClosed compose entry.2
  dependencies : ∀ entry ∈ composeServices compose, ∀ name ∈ namesUnder "depends_on" entry.2,
    name ∈ namesUnder "services" compose

/-! ### Mounts -/

/-- A mount of an absolute path is not one of a named volume. -/
theorem namedVolume_mountText_of_isAbsolute {source : PathBuf} (h : source.isAbsolute = true) (target : PathBuf)
    (writable : Bool) : namedVolume (mountText source target writable) = none := by
  obtain ⟨rest, hrest⟩ := (PathBuf.isAbsolute_iff source).mp h
  have hhead : (mountText source target writable).toList.head? = some '/' := by
    simp [mountText, hrest]
  unfold namedVolume
  split
  · rfl
  · rename_i part after hsplit
    rw [Text.splitOnce, Option.map_eq_some_iff] at hsplit
    obtain ⟨⟨before, after'⟩, hchars, heq⟩ := hsplit
    obtain ⟨rfl, -⟩ := Prod.mk.inj heq
    have hfirst := Text.splitOnceChars_head hchars hhead (by decide)
    simp [hfirst]

/-- A mount of a name without a separator is one of that volume. -/
theorem namedVolume_mountText {name : String} (hcolon : ':' ∉ name.toList)
    (hhead : ∀ c ∈ ['/', '.', '~'], name.toList.head? ≠ some c) (target : PathBuf) (writable : Bool) :
    namedVolume (mountText ⟨name⟩ target writable) = some name := by
  have hsplit : Text.splitOnce ':' (mountText ⟨name⟩ target writable) =
      some (name, target.text ++ if writable then "" else ":ro") := by
    have htext : (mountText ⟨name⟩ target writable).toList =
        name.toList ++ ':' :: (target.text ++ if writable then "" else ":ro").toList := by
      simp [mountText]
    rw [Text.splitOnce, htext, Text.splitOnceChars_append hcolon]
    simp
  rw [namedVolume, hsplit]
  dsimp only
  rw [if_neg]
  intro hany
  obtain ⟨c, hc, heq⟩ := List.any_eq_true.mp hany
  exact hhead c hc (of_decide_eq_true heq)

/-! ### Names of volumes -/

theorem isNameChar_of_validName {name : String} (h : validName name = true) {c : Char} (hc : c ∈ name.toList) :
    isNameChar c = true := by
  simp only [validName, Bool.and_eq_true, List.all_eq_true] at h
  obtain ⟨index, hindex⟩ := List.mem_iff_getElem?.mp hc
  have hchar := h.1.2 (c, index) (List.mem_zipIdx_iff_getElem?.mpr hindex)
  simp only [Bool.or_eq_true, Bool.and_eq_true, decide_eq_true_eq] at hchar
  simp only [isNameChar, Bool.or_eq_true, decide_eq_true_eq]
  tauto

theorem mem_takeBytes {n : ℕ} {l : List Char} {c : Char} (h : c ∈ takeBytes n l) : c ∈ l := by
  induction l generalizing n with
  | nil => cases h
  | cons a rest ih =>
    rw [takeBytes] at h
    split_ifs at h
    · rcases List.mem_cons.mp h with rfl | h
      · exact List.mem_cons_self ..
      · exact List.mem_cons_of_mem _ (ih h)
    · cases h

/-- A name generated of valid names has only characters of names. -/
theorem isNameChar_resourceName (platform : Platform) {a b d : String} (ha : validName a = true)
    (hb : validName b = true) (hd : validName d = true) {c : Char}
    (hc : c ∈ (resourceName platform [a, b, d]).toList) : isNameChar c = true := by
  have hjoined : ∀ c ∈ ("--".intercalate [a, b, d]).toList, isNameChar c = true := by
    intro c hc
    rw [show "--".intercalate [a, b, d] = a ++ "--" ++ b ++ "--" ++ d from rfl] at hc
    simp only [String.toList_append, List.mem_append] at hc
    have hdash : ∀ c ∈ "--".toList, isNameChar c = true := List.all_eq_true.mp (by decide)
    rcases hc with (((hc | hc) | hc) | hc) | hc
    · exact isNameChar_of_validName ha hc
    · exact hdash c hc
    · exact isNameChar_of_validName hb hc
    · exact hdash c hc
    · exact isNameChar_of_validName hd hc
  unfold resourceName at hc
  dsimp only at hc
  split_ifs at hc
  · exact hjoined c hc
  · simp only [String.toList_append, String.toList_ofList, List.mem_append] at hc
    rcases hc with (hc | hc) | hc
    · exact hjoined c (mem_takeBytes hc)
    · have hdash : ∀ c ∈ "-".toList, isNameChar c = true := List.all_eq_true.mp (by decide)
      exact hdash c hc
    · exact isNameChar_hexDigest (List.mem_of_mem_take hc)

/-- The mount of a volume of an instance is one of the volume that is generated for it. -/
theorem namedVolume_resourceName (platform : Platform) {a b d : String} (ha : validName a = true)
    (hb : validName b = true) (hd : validName d = true) (target : PathBuf) (writable : Bool) :
    namedVolume (mountText ⟨resourceName platform [a, b, d]⟩ target writable) =
      some (resourceName platform [a, b, d]) := by
  refine namedVolume_mountText (fun hcolon => ?_) (fun c hc hhead => ?_) target writable
  · exact absurd (isNameChar_resourceName platform ha hb hd hcolon) (by decide)
  · have hmem : c ∈ (resourceName platform [a, b, d]).toList := List.mem_of_mem_head? (Option.mem_def.mpr hhead)
    have hchar := isNameChar_resourceName platform ha hb hd hmem
    simp only [List.mem_cons, List.not_mem_nil, or_false] at hc
    rcases hc with rfl | rfl | rfl <;> exact absurd hchar (by decide)

/-! ### Fields of generated services -/

section Fields

variable (platform : Platform) (document : Document) (block : Block) (inst : Instance)

/-- The fields an execution writes. -/
def executionFieldNames : List String := ["image", "build", "command", "working_dir", "environment", "volumes"]

theorem get?_executionFields {name : String} (h : name ∉ executionFieldNames) (source : PathBuf) (execution : Execution)
    (value : SortedMap String Json) :
    (executionFields document block inst source execution value).get? name = value.get? name := by
  simp only [executionFieldNames, List.mem_cons, List.not_mem_nil, or_false, not_or] at h
  obtain ⟨himage, hbuild, hcommand, hdirectory, henvironment, hvolumes⟩ := h
  have hruntime : ∀ (command : List String) (directory : Option PathBuf) (environment : SortedMap String String)
      (value : SortedMap String Json),
      (addRuntimeFields document block inst command directory environment value).get? name = value.get? name := by
    intro command directory environment value
    unfold addRuntimeFields
    rw [SortedMap.get?_insert, if_neg henvironment]
    cases directory <;> split_ifs <;> simp only [SortedMap.get?_insert, if_neg hdirectory, if_neg hcommand]
  cases execution with
  | container image build command runtime =>
    unfold executionFields
    cases image <;> cases build <;> dsimp only <;> split_ifs <;>
      simp only [SortedMap.get?_insert, hruntime, if_neg himage, if_neg hbuild, if_neg hvolumes]
  | script image command lifecycle runtime =>
    simp only [executionFields, SortedMap.get?_insert, hruntime, if_neg himage, if_neg hvolumes]
  | processCompose image file runtime =>
    simp only [executionFields, SortedMap.get?_insert, hruntime, if_neg himage, if_neg hvolumes]

/-- The mounts of an execution: its source, unless it runs on a device. -/
theorem mountsOf_executionFields (source : PathBuf) (execution : Execution) {value : SortedMap String Json}
    (hvalue : value.get? "volumes" = none) :
    mountsOf (executionFields document block inst source execution value) = [] ∨
      mountsOf (executionFields document block inst source execution value) =
        [.string (mountText source execution.runtime.sourceMount execution.runtime.writable)] := by
  have hruntime : ∀ (command : List String) (directory : Option PathBuf) (environment : SortedMap String String)
      (value : SortedMap String Json),
      (addRuntimeFields document block inst command directory environment value).get? "volumes" = value.get? "volumes" := by
    intro command directory environment value
    unfold addRuntimeFields
    rw [SortedMap.get?_insert, if_neg (by decide)]
    cases directory <;> split_ifs <;> simp [SortedMap.get?_insert]
  cases execution with
  | container image build command runtime =>
    unfold executionFields mountsOf
    cases image <;> cases build <;> dsimp only <;> split_ifs <;>
      simp [SortedMap.get?_insert, hruntime, hvalue, Json.strings]
  | script image command lifecycle runtime =>
    simp [executionFields, mountsOf, SortedMap.get?_insert, Json.strings]
  | processCompose image file runtime =>
    simp [executionFields, mountsOf, SortedMap.get?_insert, Json.strings]

theorem get?_composeApplication {name : String} (h : name ∉ executionFieldNames) (hvolumes : name ≠ "volumes")
    (h' : name ∉ ["labels", "restart", "ports", "healthcheck"]) (service : Service) (source : PathBuf) (network : String)
    (labels : SortedMap String String) :
    (composeApplication platform document block inst service source network labels).get? name =
      if name = "networks" then some (.strings [network]) else none := by
  simp only [List.mem_cons, List.not_mem_nil, or_false, not_or] at h'
  obtain ⟨hlabels, hrestart, hports, hcheck⟩ := h'
  have hbase : (SortedMap.ofList [("labels", Json.ofTexts labels), ("networks", .strings [network])]).get? name =
      if name = "networks" then some (.strings [network]) else none := by
    simp only [SortedMap.ofList, SortedMap.insertAll_cons, SortedMap.insertAll_nil, SortedMap.get?_insert,
      if_neg hlabels, SortedMap.get?_empty]
  unfold composeApplication
  cases service.probe <;> dsimp only <;> split_ifs <;>
    simp only [SortedMap.get?_insert, if_neg hports, if_neg hcheck, if_neg hrestart,
      get?_addMounts _ _ hvolumes, get?_executionFields document block inst h, hbase] <;>
    split_ifs <;> simp_all

theorem volumes_addMounts (mounts : List String) (value : SortedMap String Json) :
    (addMounts mounts value).get? "volumes" = some (.array (mountsOf value ++ mounts.map .string)) := by
  rw [addMounts, SortedMap.get?_insert, if_pos rfl]

theorem mountsOf_addMounts (mounts : List String) (value : SortedMap String Json) :
    mountsOf (addMounts mounts value) = mountsOf value ++ mounts.map .string := by
  rw [mountsOf, volumes_addMounts]

/-- What an application has before its execution. -/
def applicationBase (service : Service) (network : String) (labels : SortedMap String String) : SortedMap String Json :=
  let value := SortedMap.ofList [("labels", .ofTexts labels), ("networks", .strings [network])]
  if service.isTask then value else value.insert "restart" (.string "unless-stopped")

theorem volumes_applicationBase (service : Service) (network : String) (labels : SortedMap String String) :
    (applicationBase service network labels).get? "volumes" = none := by
  unfold applicationBase
  split_ifs <;> simp [SortedMap.ofList]

/-- The mounts of an application's volumes. -/
def volumeMounts (service : Service) : List String :=
  service.volumes.map fun volume =>
    mountText ⟨resourceName platform [document.metadata.name, inst.name, volume.name]⟩ volume.target (!volume.readOnly)

/-- The mounts of an application: those of its execution, and its volumes. -/
theorem volumes_composeApplication (service : Service) (source : PathBuf) (network : String)
    (labels : SortedMap String String) :
    ∃ mounts, (mounts = [] ∨
        mounts = [mountText source service.execution.runtime.sourceMount service.execution.runtime.writable]) ∧
      (composeApplication platform document block inst service source network labels).get? "volumes" =
        some (.strings (mounts ++ volumeMounts platform document inst service)) := by
  have hports : "volumes" ≠ "ports" := by decide
  have hcheck : "volumes" ≠ "healthcheck" := by decide
  have happlication : (composeApplication platform document block inst service source network labels).get? "volumes" =
      some (.array (mountsOf (executionFields document block inst source service.execution
        (applicationBase service network labels)) ++ (volumeMounts platform document inst service).map .string)) := by
    rw [← volumes_addMounts]
    unfold composeApplication
    cases service.probe with
    | none =>
      dsimp only
      by_cases hempty : service.publish.isEmpty = true
      · rw [if_pos hempty]
        rfl
      · rw [if_neg hempty, SortedMap.get?_insert, if_neg hports]
        rfl
    | some probe =>
      dsimp only
      rw [SortedMap.get?_insert, if_neg hcheck]
      by_cases hempty : service.publish.isEmpty = true
      · rw [if_pos hempty]
        rfl
      · rw [if_neg hempty, SortedMap.get?_insert, if_neg hports]
        rfl
  rcases mountsOf_executionFields document block inst source service.execution
    (volumes_applicationBase service network labels) with hnone | hsome
  · exact ⟨[], Or.inl rfl, by rw [happlication, hnone]; rfl⟩
  · exact ⟨_, Or.inr rfl, by rw [happlication, hsome]; rfl⟩

variable (bundle : Bundle) (groups : ResolvedGroups) (overlay : Option OverlayResolution) (resourceHash : String)

/-- The fields of an application that refer to something, before its dependencies are added. -/
theorem get?_overlaidApplication {name : String} (h : name ∉ executionFieldNames)
    (h' : name ∉ ["labels", "restart", "ports", "healthcheck"]) (source : PathBuf) (network : String)
    (entry : String × Service) :
    (overlaidApplication platform bundle overlay resourceHash block inst source network entry).get? name =
      if name = "networks" then some (.strings [network]) else none := by
  have hnames : name ≠ "volumes" ∧ name ≠ "environment" := by
    simp only [executionFieldNames, List.mem_cons, List.not_mem_nil, or_false, not_or] at h
    exact ⟨h.2.2.2.2.2, h.2.2.2.2.1⟩
  have hmounts : ∀ value : SortedMap String Json, (addInjectedMounts overlay inst.name
      (bundle.workspaceRoot.join (artifactDir bundle.document.metadata.name)) value).get? name = value.get? name := by
    intro value
    unfold addInjectedMounts
    split
    · rfl
    · exact get?_addMounts _ _ hnames.1
  have henvironment : ∀ value : SortedMap String Json,
      (applyOverlayEnvironment platform overlay inst value).get? name = value.get? name := by
    intro value
    unfold applyOverlayEnvironment
    split
    · dsimp only
      rw [SortedMap.get?_insert, if_neg hnames.2]
    · rfl
  unfold overlaidApplication
  dsimp only
  rw [henvironment, hmounts, get?_composeApplication platform bundle.document block inst h hnames.1 h']

/-- Every mount of an application is of a path, or of a volume of the service. -/
theorem volumes_overlaidApplication {source : PathBuf} (hsource : source.isAbsolute = true) (network : String)
    (entry : String × Service) :
    ∃ mounts, (overlaidApplication platform bundle overlay resourceHash block inst source network entry).get? "volumes" =
        some (.strings mounts) ∧
      ∀ mount ∈ mounts, namedVolume mount = none ∨ mount ∈ volumeMounts platform bundle.document inst entry.2 := by
  have hname : "volumes" ≠ "environment" := by decide
  have henvironment : ∀ value : SortedMap String Json,
      (applyOverlayEnvironment platform overlay inst value).get? "volumes" = value.get? "volumes" := by
    intro value
    unfold applyOverlayEnvironment
    split
    · dsimp only
      rw [SortedMap.get?_insert, if_neg hname]
    · rfl
  obtain ⟨mounts, hmounts, hvolumes⟩ := volumes_composeApplication platform bundle.document block inst entry.2 source
    network (serviceLabels resourceHash bundle.document.metadata.name inst entry.1)
  have hpath : ∀ mount ∈ mounts, namedVolume mount = none := by
    rcases hmounts with rfl | rfl
    · simp
    · simpa using namedVolume_mountText_of_isAbsolute hsource _ _
  unfold overlaidApplication
  dsimp only
  rw [henvironment]
  unfold addInjectedMounts
  split
  · refine ⟨_, hvolumes, fun mount hmount => ?_⟩
    exact (List.mem_append.mp hmount).imp (hpath mount) id
  · rename_i resolution
    have habsolute : ∀ file : InjectedFilePlan, (((bundle.workspaceRoot.join
        (artifactDir bundle.document.metadata.name)).join file.relativePath)).isAbsolute = true :=
      fun file => PathBuf.isAbsolute_join (PathBuf.isAbsolute_join bundle.workspaceRoot_absolute _) _
    rw [volumes_addMounts, mountsOf, hvolumes]
    refine ⟨_, congrArg (some ∘ Json.array) (List.map_append ..).symm, fun mount hmount => ?_⟩
    rcases List.mem_append.mp hmount with hmount | hmount
    · exact (List.mem_append.mp hmount).imp (hpath mount) id
    · obtain ⟨file, -, rfl⟩ := List.mem_map.mp hmount
      exact Or.inl (namedVolume_mountText_of_isAbsolute (habsolute file) _ _)

end Fields

/-! ### What a generated service refers to -/

section References

/-- What a service refers to: the networks it joins, the service whose network it shares, the
services it depends on, and at most the volumes it mounts. -/
structure Refers (service : Json) (networks : List String) (shared : Option String)
    (dependencies volumes : List String) : Prop where
  networks : joinedNetworks service = networks
  shared : sharedNamespace service = shared
  dependencies : ∀ name, name ∈ namesUnder "depends_on" service ↔ name ∈ dependencies
  volumes : ∀ name ∈ mountedVolumes service, name ∈ volumes

theorem namesUnder_ofMap {name : String} {m fields : SortedMap String Json} (h : m.get? name = some (.ofMap fields)) :
    namesUnder name (.ofMap m) = fields.keys := by
  rw [namesUnder, Json.field_ofMap, h]
  rfl

theorem namesUnder_of_get?_eq_none {name : String} {m : SortedMap String Json} (h : m.get? name = none) :
    namesUnder name (.ofMap m) = [] := by
  rw [namesUnder, Json.field_ofMap, h]
  rfl

theorem mountedVolumes_strings {m : SortedMap String Json} {mounts : List String}
    (h : m.get? "volumes" = some (.strings mounts)) : mountedVolumes (.ofMap m) = mounts.filterMap namedVolume := by
  rw [mountedVolumes, Json.field_ofMap, h, Json.strings]
  dsimp only
  rw [List.filterMap_map]
  refine congrArg (List.filterMap namedVolume) ?_
  exact List.filterMap_some

variable (platform : Platform) (bundle : Bundle) (groups : ResolvedGroups) (overlay : Option OverlayResolution)
  (resourceHash : String) (block : Block) (inst : Instance)

/-- The services a service depends on, by their Compose names. -/
def dependencyNames (document : Document) (routed : List String) (service : Service) : List String :=
  service.dependsOn.keys.map (dependencyService platform document routed inst.name)

/-- The volumes of a service, by their generated names. -/
def volumeNames (deployment : String) (service : Service) : List String :=
  service.volumes.map fun volume => resourceName platform [deployment, inst.name, volume.name]

/-- The names of a deployment, an instance and its volumes are valid. -/
structure ValidNames (deployment : String) (block : Block) (inst : Instance) : Prop where
  deployment : validName deployment = true
  inst : validName inst.name = true
  volumes : ∀ entry ∈ block.services.entries, ∀ volume ∈ entry.2.volumes, validName volume.name = true

variable {platform bundle block inst}

theorem mem_volumeNames_of_mem_mountedVolumes (hvalid : ValidNames bundle.document.metadata.name block inst)
    {source : PathBuf} (hsource : source.isAbsolute = true) (network : String) {entry : String × Service}
    (hentry : entry ∈ block.services.entries) {m : SortedMap String Json}
    (hm : m.get? "volumes" =
      (overlaidApplication platform bundle overlay resourceHash block inst source network entry).get? "volumes")
    {name : String} (hname : name ∈ mountedVolumes (.ofMap m)) :
    name ∈ volumeNames platform inst bundle.document.metadata.name entry.2 := by
  obtain ⟨mounts, hmounts, hall⟩ :=
    volumes_overlaidApplication platform block inst bundle overlay resourceHash hsource network entry
  rw [mountedVolumes_strings (hm.trans hmounts)] at hname
  obtain ⟨mount, hmount, hnamed⟩ := List.mem_filterMap.mp hname
  rcases hall mount hmount with hnone | hmem
  · rw [hnone] at hnamed
    cases hnamed
  · obtain ⟨volume, hvolume, rfl⟩ := List.mem_map.mp hmem
    rw [namedVolume_resourceName platform hvalid.deployment hvalid.inst (hvalid.volumes entry hentry volume hvolume)]
      at hnamed
    rw [← Option.some.inj hnamed]
    exact List.mem_map.mpr ⟨volume, hvolume, rfl⟩

/-- The dependencies of a service, as its Compose service has them. -/
def dependencyFields (platform : Platform) (inst : Instance) (document : Document) (routed : List String)
    (service : Service) : SortedMap String Json :=
  .ofList (service.dependsOn.entries.map fun (reference, condition) =>
    (dependencyService platform document routed inst.name reference, .obj [("condition", .string condition.compose)]))

theorem mem_keys_dependencyFields (document : Document) (routed : List String) (service : Service) {name : String} :
    name ∈ (dependencyFields platform inst document routed service).keys ↔
      name ∈ dependencyNames platform inst document routed service := by
  rw [dependencyFields, mem_keys_ofList, dependencyNames, SortedMap.keys, List.map_map, List.map_map]
  rfl

theorem dependencyFields_eq_empty (document : Document) (routed : List String) {service : Service}
    (h : service.dependsOn.entries.isEmpty = true) :
    dependencyFields platform inst document routed service = ∅ := by
  rw [dependencyFields, List.isEmpty_iff.mp h]
  rfl

/-- The dependencies that are added to a service without any. -/
theorem depends_on_addComposeDependencies (document : Document) (routed : List String) (service : Service)
    {value : SortedMap String Json} (hvalue : value.get? "depends_on" = none) :
    (((addComposeDependencies platform document routed inst service value).get? "depends_on").bind
      Json.asObject).getD [] = (dependencyFields platform inst document routed service).entries := by
  unfold addComposeDependencies
  split_ifs with hempty
  · rw [hvalue, dependencyFields_eq_empty document routed hempty]
    rfl
  · rw [SortedMap.get?_insert, if_pos rfl]
    rfl

/-- What a service that joins the network of its project refers to. -/
theorem refers_of_network {network : String} {source : PathBuf} (hsource : source.isAbsolute = true)
    (hvalid : ValidNames bundle.document.metadata.name block inst) {entry : String × Service}
    (hentry : entry ∈ block.services.entries) (routed : List String) {value : SortedMap String Json}
    (hvalue : ∀ name, name ≠ "ports" → value.get? name =
      (overlaidApplication platform bundle overlay resourceHash block inst source network entry).get? name) :
    Refers (.ofMap (addComposeDependencies platform bundle.document routed inst entry.2 value)) [network] none
      (dependencyNames platform inst bundle.document routed entry.2)
      (volumeNames platform inst bundle.document.metadata.name entry.2) where
  networks := by
    rw [joinedNetworks, Json.field_ofMap, get?_addComposeDependencies _ _ _ _ _ _ (by decide), hvalue _ (by decide),
      get?_overlaidApplication _ _ _ _ _ _ (by decide) (by decide), if_pos rfl]
    rfl
  shared := by
    rw [sharedNamespace, Json.field_ofMap, get?_addComposeDependencies _ _ _ _ _ _ (by decide), hvalue _ (by decide),
      get?_overlaidApplication _ _ _ _ _ _ (by decide) (by decide), if_neg (by decide)]
    rfl
  dependencies := by
    intro name
    have hnone : value.get? "depends_on" = none := by
      rw [hvalue _ (by decide), get?_overlaidApplication _ _ _ _ _ _ (by decide) (by decide), if_neg (by decide)]
    rw [namesUnder, Json.field_ofMap, depends_on_addComposeDependencies _ _ _ hnone]
    exact mem_keys_dependencyFields ..
  volumes := by
    intro name hname
    refine mem_volumeNames_of_mem_mountedVolumes overlay resourceHash hvalid hsource network hentry ?_ hname
    rw [get?_addComposeDependencies _ _ _ _ _ _ (by decide), hvalue _ (by decide)]

/-- What a service behind a sidecar refers to. -/
theorem refers_behindSidecar (namespaceService sidecar : String) {network : String} {source : PathBuf}
    (hsource : source.isAbsolute = true) (hvalid : ValidNames bundle.document.metadata.name block inst)
    {entry : String × Service} (hentry : entry ∈ block.services.entries) (routed : List String) :
    Refers (.ofMap (behindSidecar namespaceService sidecar (addComposeDependencies platform bundle.document routed inst
        entry.2 (overlaidApplication platform bundle overlay resourceHash block inst source network entry))))
      [] (some namespaceService) (sidecar :: dependencyNames platform inst bundle.document routed entry.2)
      (volumeNames platform inst bundle.document.metadata.name entry.2) where
  networks := by
    have hnone : (behindSidecar namespaceService sidecar (addComposeDependencies platform bundle.document routed inst
        entry.2 (overlaidApplication platform bundle overlay resourceHash block inst source network entry))).get?
          "networks" = none := by
      simp [behindSidecar]
    rw [joinedNetworks, Json.field_ofMap, hnone]
    exact namesUnder_of_get?_eq_none hnone
  shared := by
    have hmode : (behindSidecar namespaceService sidecar (addComposeDependencies platform bundle.document routed inst
        entry.2 (overlaidApplication platform bundle overlay resourceHash block inst source network entry))).get?
          "network_mode" = some (.string s!"service:{namespaceService}") := by
      simp [behindSidecar]
    rw [sharedNamespace, Json.field_ofMap, hmode]
    exact Text.afterStart_append "service:" namespaceService
  dependencies := by
    intro name
    have hnone : (overlaidApplication platform bundle overlay resourceHash block inst source network entry).get?
        "depends_on" = none := by
      rw [get?_overlaidApplication _ _ _ _ _ _ (by decide) (by decide), if_neg (by decide)]
    have hdependencies : (behindSidecar namespaceService sidecar (addComposeDependencies platform bundle.document routed
        inst entry.2 (overlaidApplication platform bundle overlay resourceHash block inst source network entry))).get?
          "depends_on" = some (.ofMap ((dependencyFields platform inst bundle.document routed entry.2).insert sidecar
            (.obj [("condition", .string "service_healthy")]))) := by
      unfold behindSidecar
      dsimp only
      rw [SortedMap.get?_insert, if_pos rfl, SortedMap.get?_insert, if_neg (by decide), SortedMap.get?_erase,
        if_neg (by decide), SortedMap.get?_erase, if_neg (by decide), depends_on_addComposeDependencies _ _ _ hnone,
        ofList_entries]
    rw [namesUnder_ofMap hdependencies, mem_keys_insert, mem_keys_dependencyFields, List.mem_cons]
  volumes := by
    intro name hname
    refine mem_volumeNames_of_mem_mountedVolumes overlay resourceHash hvalid hsource network hentry ?_ hname
    unfold behindSidecar
    dsimp only
    rw [SortedMap.get?_insert, if_neg (by decide), SortedMap.get?_insert, if_neg (by decide), SortedMap.get?_erase,
      if_neg (by decide), SortedMap.get?_erase, if_neg (by decide), get?_addComposeDependencies _ _ _ _ _ _ (by decide)]

/-- What the namespace of an instance refers to. -/
theorem refers_composeNamespace (network : String) (labels : SortedMap String String) (ports : List U16)
    (aliases : List String) : Refers (composeNamespace network labels ports aliases) [network] none [] [] := by
  have hfields : ∀ name : String, name ∉ ["image", "command", "restart", "labels", "ports"] →
      (composeNamespace network labels ports aliases).field name =
        if name = "networks" then some (.obj [(network, .obj [("aliases", .strings aliases)])]) else none := by
    intro name hname
    simp only [List.mem_cons, List.not_mem_nil, or_false, not_or] at hname
    obtain ⟨himage, hcommand, hrestart, hlabels, hports⟩ := hname
    unfold composeNamespace
    dsimp only
    rw [Json.field_ofMap]
    split_ifs <;>
      simp_all [SortedMap.ofList]
  refine ⟨?_, ?_, fun name => ?_, fun name hname => ?_⟩
  · rw [joinedNetworks, namesUnder, hfields "networks" (by decide), if_pos rfl]
    rfl
  · rw [sharedNamespace, hfields "network_mode" (by decide), if_neg (by decide)]
    rfl
  · rw [namesUnder, hfields "depends_on" (by decide), if_neg (by decide)]
    rfl
  · rw [mountedVolumes, hfields "volumes" (by decide), if_neg (by decide)] at hname
    exact hname

/-- What a sidecar refers to. -/
theorem refers_composeSidecar (image namespaceService sidecar : String) {configPath : PathBuf}
    (hpath : configPath.isAbsolute = true) (labels : SortedMap String String) (transparent : Bool) :
    Refers (composeSidecar image namespaceService sidecar configPath labels transparent) []
      (some namespaceService) [namespaceService] [] := by
  have hnetworks : (composeSidecar image namespaceService sidecar configPath labels transparent).field "networks" =
      none := by
    unfold composeSidecar
    dsimp only
    rw [Json.field_ofMap]
    split_ifs <;> simp [SortedMap.ofList]
  have hmode : (composeSidecar image namespaceService sidecar configPath labels transparent).field "network_mode" =
      some (.string s!"service:{namespaceService}") := by
    unfold composeSidecar
    dsimp only
    rw [Json.field_ofMap]
    split_ifs <;> simp [SortedMap.ofList]
  have hdepends : (composeSidecar image namespaceService sidecar configPath labels transparent).field "depends_on" =
      some (.obj [(namespaceService, .obj [("condition", .string "service_started")])]) := by
    unfold composeSidecar
    dsimp only
    rw [Json.field_ofMap]
    split_ifs <;> simp [SortedMap.ofList]
  obtain ⟨target, hvolumes⟩ : ∃ target,
      (composeSidecar image namespaceService sidecar configPath labels transparent).field "volumes" =
        some (.strings [mountText configPath target false]) := by
    unfold composeSidecar
    dsimp only
    rw [Json.field_ofMap]
    split_ifs <;> simp [SortedMap.ofList] <;> exact ⟨_, rfl⟩
  refine ⟨?_, ?_, fun name => ?_, fun name hname => ?_⟩
  · rw [joinedNetworks, namesUnder, hnetworks]
    rfl
  · rw [sharedNamespace, hmode]
    exact Text.afterStart_append "service:" namespaceService
  · rw [namesUnder, hdepends]
    rfl
  · rw [mountedVolumes, hvolumes] at hname
    have hnone := namedVolume_mountText_of_isAbsolute hpath target false
    simp [Json.strings, Json.asStr, hnone] at hname

end References

/-! ### Services by device -/

/-- A service of a Compose project: the namespace of a routed instance, a service of its
block, or its sidecar. -/
inductive PlacedService where
  | namespaceService (inst : String)
  | application (inst : String) (routed : Bool) (service : String) (definition : Service)
  | sidecar (inst : String)

section Placement

variable (platform : Platform) (document : Document)

/-- The routed instances of a document. -/
def routedOf (spec : DeploymentSpec) : List String := routedInstances spec (resolveGroups spec).1

/-- The name a service has in its project. -/
def PlacedService.composeName : PlacedService → String
  | .namespaceService inst => resourceName platform [document.metadata.name, inst, "namespace"]
  | .application inst routed service _ =>
    let base := serviceNameFor platform document.metadata.name inst service
    if routed then resourceName platform [base, "app"] else base
  | .sidecar inst => resourceName platform [document.metadata.name, inst, "router"]

/-- The services of an instance, in order. -/
def instancePlaced (spec : DeploymentSpec) (inst : Instance) : List PlacedService :=
  (spec.blocks.get? inst.block).toList.flatMap fun block =>
    let routed := inst.remoteDevice.isNone && (routedOf spec).contains inst.name
    let applications := block.services.entries.map fun (service, definition) =>
      PlacedService.application inst.name routed service definition
    if routed then .namespaceService inst.name :: applications ++ [.sidecar inst.name] else applications

/-- The services of the project of a device, in order; `none` is the local one. -/
def placedServices (spec : DeploymentSpec) (device : Option String) : List PlacedService :=
  (spec.instances.filter fun inst => !inst.isExternal && inst.remoteDevice = device).flatMap (instancePlaced spec)

/-- The instance a dependency of an instance's service is on. -/
def dependencyInstance (inst reference : String) : String := ((Text.splitOnce '/' reference).getD (inst, reference)).1

/-- A dependency stays on a device: its instance is placed there, or some service there has
the name it is looked up by. -/
def StaysOn (device : Option String) (inst reference : String) : Prop :=
  (∃ target ∈ document.spec.instances, target.name = dependencyInstance inst reference ∧ target.isExternal = false ∧
      target.remoteDevice = device) ∨
    ∃ placed ∈ placedServices document.spec device, placed.composeName platform document =
      dependencyService platform document (routedOf document.spec) inst reference

/-- The services that the project of a device keeps depend only on services of the device. A
project keeps the last service of each name. -/
def StayOn (device : Option String) : Prop :=
  ∀ (before after : List PlacedService) (inst : String) (routed : Bool) (service : String) (definition : Service),
    placedServices document.spec device = before ++ .application inst routed service definition :: after →
    (∀ later ∈ after, later.composeName platform document ≠
      (PlacedService.application inst routed service definition).composeName platform document) →
    ∀ reference ∈ definition.dependsOn.keys, StaysOn platform document device inst reference

/-- **Every service that a project keeps depends only on services of its device.** -/
def DependenciesStay : Prop := ∀ device, StayOn platform document device

variable {document} {effective : Document}

theorem routedOf_of_keepsSpec (h : KeepsSpec document effective) : routedOf effective.spec = routedOf document.spec := by
  rw [routedOf, routedOf, resolveGroups_of_keepsSpec h, routedInstances_of_keepsSpec h]

theorem instancePlaced_of_keepsSpec (h : KeepsSpec document effective) :
    instancePlaced effective.spec = instancePlaced document.spec := by
  funext inst
  unfold instancePlaced
  rw [h.blocks, routedOf_of_keepsSpec h]

theorem placedServices_of_keepsSpec (h : KeepsSpec document effective) (device : Option String) :
    placedServices effective.spec device = placedServices document.spec device := by
  have hstripped : ∀ spec : DeploymentSpec, placedServices spec device =
      ((spec.instances.map strippedInstance).filter fun inst =>
        !inst.isExternal && inst.remoteDevice = device).flatMap (instancePlaced spec) := by
    intro spec
    rw [List.filter_map, List.flatMap_map]
    rfl
  rw [hstripped, hstripped, h.instances, instancePlaced_of_keepsSpec h]

/-- A document under another name. -/
def Document.named (document : Document) (name : String) : Document :=
  { document with metadata := { document.metadata with name := name } }

theorem composeName_congr {document' : Document} (h : document'.metadata.name = document.metadata.name) :
    PlacedService.composeName platform document' = PlacedService.composeName platform document := by
  funext placed
  cases placed <;> simp only [PlacedService.composeName, h]

theorem staysOn_of_keepsSpec (h : KeepsSpec document effective) (device : Option String) (inst reference : String) :
    StaysOn platform effective device inst reference ↔
      StaysOn platform (document.named effective.metadata.name) device inst reference := by
  have hname : effective.metadata.name = (document.named effective.metadata.name).metadata.name := rfl
  have hinstances : ∀ spec : DeploymentSpec, (∃ target ∈ spec.instances, target.name = dependencyInstance inst reference ∧
      target.isExternal = false ∧ target.remoteDevice = device) ↔
      ∃ target ∈ spec.instances.map strippedInstance, target.name = dependencyInstance inst reference ∧
        target.isExternal = false ∧ target.remoteDevice = device := by
    intro spec
    constructor
    · rintro ⟨target, hmem, htarget⟩
      exact ⟨strippedInstance target, List.mem_map.mpr ⟨target, hmem, rfl⟩, htarget⟩
    · rintro ⟨stripped, hmem, htarget⟩
      obtain ⟨target, hauthored, rfl⟩ := List.mem_map.mp hmem
      exact ⟨target, hauthored, htarget⟩
  have hdependency : dependencyService platform effective =
      dependencyService platform (document.named effective.metadata.name) := rfl
  unfold StaysOn
  rw [hinstances, hinstances, h.instances, placedServices_of_keepsSpec h, composeName_congr platform hname,
    routedOf_of_keepsSpec h, hdependency]
  rfl

theorem dependenciesStay_of_keepsSpec (h : KeepsSpec document effective) :
    DependenciesStay platform effective ↔ DependenciesStay platform (document.named effective.metadata.name) := by
  have hname : effective.metadata.name = (document.named effective.metadata.name).metadata.name := rfl
  unfold DependenciesStay StayOn
  simp only [placedServices_of_keepsSpec h, composeName_congr platform hname, staysOn_of_keepsSpec platform h]
  rfl

end Placement

/-! ### The services of a project -/

section Project

variable {platform : Platform} {bundle : Bundle} {groups : ResolvedGroups} {overlay : Option OverlayResolution}
  {devices : Devices} {resourceHash : String}

/-- The network of the project of a device. -/
def projectNetwork (platform : Platform) (deployment : String) : Option String → String
  | none => networkName platform deployment
  | some device => remoteNetworkName platform deployment device

/-- The volumes of the instances of a device. -/
def placedVolumes (platform : Platform) (document : Document) (device : Option String) : List String :=
  (document.spec.instances.filter fun inst => !inst.isExternal && inst.remoteDevice = device).flatMap fun inst =>
    (document.spec.blocks.get? inst.block).toList.flatMap fun block =>
      block.services.entries.flatMap fun entry => volumeNames platform inst document.metadata.name entry.2

/-- A generated service is the one that is placed: it has its name, and refers to nothing
else. -/
structure IsPlaced (platform : Platform) (document : Document) (device : Option String) (placed : PlacedService)
    (entry : String × Json) : Prop where
  name : entry.1 = placed.composeName platform document
  networks : ∀ network ∈ joinedNetworks entry.2, network = projectNetwork platform document.metadata.name device
  shared : ∀ name, sharedNamespace entry.2 = some name → ∃ inst,
    name = resourceName platform [document.metadata.name, inst, "namespace"] ∧
      .namespaceService inst ∈ placedServices document.spec device
  volumes : ∀ name ∈ mountedVolumes entry.2, name ∈ placedVolumes platform document device
  generated : ∀ name ∈ namesUnder "depends_on" entry.2,
    (∃ other ∈ placedServices document.spec device, name = other.composeName platform document) ∨
      ∃ inst routed service definition, placed = .application inst routed service definition ∧
        ∃ reference ∈ definition.dependsOn.keys,
          name = dependencyService platform document (routedOf document.spec) inst reference
  authored : ∀ inst routed service definition, placed = .application inst routed service definition →
    ∀ reference ∈ definition.dependsOn.keys,
      dependencyService platform document (routedOf document.spec) inst reference ∈ namesUnder "depends_on" entry.2

/-- The namespace of a routed instance. -/
theorem isPlaced_namespaceService {document : Document} {device : Option String} (inst : String) {value : Json}
    (hrefers : Refers value [projectNetwork platform document.metadata.name device] none [] []) :
    IsPlaced platform document device (.namespaceService inst)
      (resourceName platform [document.metadata.name, inst, "namespace"], value) where
  name := rfl
  networks network hnetwork := by
    rw [hrefers.networks, List.mem_singleton] at hnetwork
    exact hnetwork
  shared name hname := by
    rw [hrefers.shared] at hname
    cases hname
  volumes name hname := absurd (hrefers.volumes name hname) List.not_mem_nil
  generated name hname := absurd ((hrefers.dependencies name).mp hname) List.not_mem_nil
  authored i routed service definition heq := by cases heq

/-- The sidecar of a routed instance. -/
theorem isPlaced_sidecar {document : Document} {device : Option String} {inst : String}
    (hmem : .namespaceService inst ∈ placedServices document.spec device) {value : Json}
    (hrefers : Refers value [] (some (resourceName platform [document.metadata.name, inst, "namespace"]))
      [resourceName platform [document.metadata.name, inst, "namespace"]] []) :
    IsPlaced platform document device (.sidecar inst)
      (resourceName platform [document.metadata.name, inst, "router"], value) where
  name := rfl
  networks network hnetwork := by
    rw [hrefers.networks] at hnetwork
    cases hnetwork
  shared name hname := by
    rw [hrefers.shared] at hname
    exact ⟨inst, (Option.some.inj hname).symm, hmem⟩
  volumes name hname := absurd (hrefers.volumes name hname) List.not_mem_nil
  generated name hname := Or.inl ⟨_, hmem, List.mem_singleton.mp ((hrefers.dependencies name).mp hname)⟩
  authored i routed service definition heq := by cases heq

section Instance

variable {inst : Instance} {block : Block} {source : PathBuf} {device : Option String}
  (hinst : inst ∈ bundle.document.spec.instances) (hmanaged : inst.isExternal = false)
  (hdevice : inst.remoteDevice = device) (hblock : bundle.document.spec.blocks.get? inst.block = some block)
include hinst hmanaged hdevice hblock

omit hblock in
theorem instancePlaced_subset {placed : PlacedService} (h : placed ∈ instancePlaced bundle.document.spec inst) :
    placed ∈ placedServices bundle.document.spec device :=
  List.mem_flatMap.mpr ⟨inst, List.mem_filter.mpr ⟨hinst, by simp [hmanaged, hdevice]⟩, h⟩

theorem volumeNames_subset {entry : String × Service} (hentry : entry ∈ block.services.entries) {name : String}
    (h : name ∈ volumeNames platform inst bundle.document.metadata.name entry.2) :
    name ∈ placedVolumes platform bundle.document device := by
  refine List.mem_flatMap.mpr ⟨inst, List.mem_filter.mpr ⟨hinst, by simp [hmanaged, hdevice]⟩, ?_⟩
  rw [hblock]
  exact List.mem_flatMap.mpr ⟨block, by simp, List.mem_flatMap.mpr ⟨entry, hentry, h⟩⟩

/-- A service of an instance that is not routed. -/
theorem isPlaced_of_refers {entry : String × Service} (hentry : entry ∈ block.services.entries) {value : Json}
    (hrefers : Refers value [projectNetwork platform bundle.document.metadata.name device] none
      (dependencyNames platform inst bundle.document (routedOf bundle.document.spec) entry.2)
      (volumeNames platform inst bundle.document.metadata.name entry.2)) :
    IsPlaced platform bundle.document device (.application inst.name false entry.1 entry.2)
      (serviceNameFor platform bundle.document.metadata.name inst.name entry.1, value) where
  name := rfl
  networks network hnetwork := by
    rw [hrefers.networks, List.mem_singleton] at hnetwork
    exact hnetwork
  shared name hname := by
    rw [hrefers.shared] at hname
    cases hname
  volumes name hname :=
    volumeNames_subset hinst hmanaged hdevice hblock hentry (hrefers.volumes name hname)
  generated name hname := by
    obtain ⟨reference, hreference, rfl⟩ := List.mem_map.mp ((hrefers.dependencies name).mp hname)
    exact Or.inr ⟨_, _, _, _, rfl, reference, hreference, rfl⟩
  authored i routed service definition heq reference hreference := by
    cases heq
    exact (hrefers.dependencies _).mpr (List.mem_map.mpr ⟨reference, hreference, rfl⟩)

/-- A service of a routed instance. -/
theorem isPlaced_of_refers_routed {entry : String × Service} (hentry : entry ∈ block.services.entries) {value : Json}
    (hmem : ∀ placed, placed = .namespaceService inst.name ∨ placed = .sidecar inst.name →
      placed ∈ placedServices bundle.document.spec device)
    (hrefers : Refers value [] (some (resourceName platform [bundle.document.metadata.name, inst.name, "namespace"]))
      (resourceName platform [bundle.document.metadata.name, inst.name, "router"] ::
        dependencyNames platform inst bundle.document (routedOf bundle.document.spec) entry.2)
      (volumeNames platform inst bundle.document.metadata.name entry.2)) :
    IsPlaced platform bundle.document device (.application inst.name true entry.1 entry.2)
      (resourceName platform [serviceNameFor platform bundle.document.metadata.name inst.name entry.1, "app"], value) where
  name := by simp only [PlacedService.composeName, if_true]
  networks network hnetwork := by
    rw [hrefers.networks] at hnetwork
    cases hnetwork
  shared name hname := by
    rw [hrefers.shared] at hname
    exact ⟨inst.name, (Option.some.inj hname).symm, hmem _ (Or.inl rfl)⟩
  volumes name hname :=
    volumeNames_subset hinst hmanaged hdevice hblock hentry (hrefers.volumes name hname)
  generated name hname := by
    rcases List.mem_cons.mp ((hrefers.dependencies name).mp hname) with rfl | hname
    · exact Or.inl ⟨.sidecar inst.name, hmem _ (Or.inr rfl), rfl⟩
    · obtain ⟨reference, hreference, rfl⟩ := List.mem_map.mp hname
      exact Or.inr ⟨_, _, _, _, rfl, reference, hreference, rfl⟩
  authored i routed service definition heq reference hreference := by
    cases heq
    exact (hrefers.dependencies _).mpr (List.mem_cons_of_mem _ (List.mem_map.mpr ⟨reference, hreference, rfl⟩))

variable (hgroups : groups = (resolveGroups bundle.document.spec).1) (hsource : source.isAbsolute = true)
  (hvalid : ValidNames bundle.document.metadata.name block inst)
include hgroups hsource hvalid

/-- **The services generated for an instance are the ones that are placed.** -/
theorem isPlaced_instanceServices :
    List.Forall₂ (IsPlaced platform bundle.document device) (instancePlaced bundle.document.spec inst)
      (instanceServices platform bundle groups overlay resourceHash block inst source) := by
  have hrouted : routedInstances bundle.document.spec groups = routedOf bundle.document.spec := by
    rw [hgroups, routedOf]
  have hnetworked : ∀ entry ∈ block.services.entries, ∀ value : SortedMap String Json,
      (∀ name, name ≠ "ports" → value.get? name = (overlaidApplication platform bundle overlay resourceHash block inst
        source (projectNetwork platform bundle.document.metadata.name device) entry).get? name) →
      IsPlaced platform bundle.document device (.application inst.name false entry.1 entry.2)
        (serviceNameFor platform bundle.document.metadata.name inst.name entry.1,
          .ofMap (addComposeDependencies platform bundle.document (routedOf bundle.document.spec) inst entry.2 value)) :=
    fun entry hentry value hvalue => isPlaced_of_refers hinst hmanaged hdevice hblock hentry
      (refers_of_network overlay resourceHash hsource hvalid hentry (routedOf bundle.document.spec) hvalue)
  unfold instancePlaced instanceServices
  rw [hblock]
  simp only [Option.toList_some, List.flatMap_cons, List.flatMap_nil, List.append_nil]
  cases hremote : inst.remoteDevice with
  | some name =>
    have hnetwork : projectNetwork platform bundle.document.metadata.name device =
        remoteNetworkName platform bundle.document.metadata.name name := by
      rw [← hdevice, hremote]
      rfl
    simp only [Option.isNone_some, Bool.false_and, Bool.false_eq_true, if_false]
    refine List.forall₂_map_left_iff.mpr (List.forall₂_map_right_iff.mpr (List.forall₂_same.mpr fun entry hentry => ?_))
    unfold remoteService
    dsimp only
    rw [hrouted]
    refine hnetworked entry hentry _ fun field hfield => ?_
    rw [SortedMap.get?_insert, if_neg hfield, hnetwork]
  | none =>
    have hnetwork : projectNetwork platform bundle.document.metadata.name device =
        networkName platform bundle.document.metadata.name := by
      rw [← hdevice, hremote]
      rfl
    simp only [Option.isNone_none, Bool.true_and]
    rw [hrouted]
    by_cases hcontains : (routedOf bundle.document.spec).contains inst.name = true
    · have hmem : ∀ placed, placed = .namespaceService inst.name ∨ placed = .sidecar inst.name →
          placed ∈ placedServices bundle.document.spec device := by
        intro placed hplaced
        refine instancePlaced_subset hinst hmanaged hdevice ?_
        rw [instancePlaced, hblock]
        rcases hplaced with rfl | rfl <;> simp [hremote, List.contains_iff_mem.mp hcontains]
      rw [if_pos hcontains, if_pos hcontains]
      refine List.rel_append (List.Forall₂.cons ?_ ?_) (List.Forall₂.cons ?_ .nil)
      · refine isPlaced_namespaceService inst.name ?_
        rw [hnetwork]
        exact refers_composeNamespace ..
      · refine List.forall₂_map_left_iff.mpr
          (List.forall₂_map_right_iff.mpr (List.forall₂_same.mpr fun entry hentry => ?_))
        unfold localService
        dsimp only
        rw [hrouted, hcontains, if_pos rfl]
        exact isPlaced_of_refers_routed hinst hmanaged hdevice hblock hentry hmem
          (refers_behindSidecar overlay resourceHash _ _ hsource hvalid hentry (routedOf bundle.document.spec))
      · exact isPlaced_sidecar (hmem _ (Or.inl rfl)) (refers_composeSidecar _ _ _ (PathBuf.isAbsolute_join
          (PathBuf.isAbsolute_join (PathBuf.isAbsolute_join bundle.workspaceRoot_absolute _) _) _) _ _)
    · rw [if_neg hcontains, if_neg hcontains]
      refine List.forall₂_map_left_iff.mpr (List.forall₂_map_right_iff.mpr (List.forall₂_same.mpr fun entry hentry => ?_))
      unfold localService
      dsimp only
      rw [Bool.eq_false_iff.mpr hcontains, hrouted, if_neg hcontains, ← hnetwork]
      exact hnetworked entry hentry _ fun _ _ => rfl

end Instance

/-! ### One project -/

theorem field_composeFile (project network : String) (labels : SortedMap String String) (outputs : List InstanceOutput) :
    (composeFile project network labels outputs).field "services" = some (.obj (outputs.flatMap (·.services))) ∧
      (composeFile project network labels outputs).field "volumes" = some (.obj (outputs.flatMap (·.volumes))) ∧
      network ∈ namesUnder "networks" (composeFile project network labels outputs) := by
  refine ⟨?_, ?_, ?_⟩
  · simp [composeFile, Json.obj, Json.field_ofMap, SortedMap.ofList]
  · simp [composeFile, Json.obj, Json.field_ofMap, SortedMap.ofList]
  · obtain ⟨value, hvalue⟩ : ∃ value, (composeFile project network labels outputs).field "networks" =
        some (.ofMap (SortedMap.insert ∅ network value)) := by
      simp [composeFile, Json.obj, Json.field_ofMap, SortedMap.ofList]
      exact ⟨_, rfl⟩
    rw [namesUnder, hvalue]
    exact (mem_keys_insert _ _ _ _).mpr (Or.inl rfl)

variable {document : Document} {device : Option String} {outputs : List InstanceOutput}

/-- The outputs of a project are the services that are placed on its device, with their
volumes. -/
structure Outputs (platform : Platform) (document : Document) (device : Option String)
    (outputs : List InstanceOutput) : Prop where
  services : List.Forall₂ (IsPlaced platform document device) (placedServices document.spec device)
    (outputs.flatMap (·.services))
  volumes : ∀ name ∈ placedVolumes platform document device, name ∈ (outputs.flatMap (·.volumes)).map Prod.fst

theorem mem_services_composeFile (h : Outputs platform document device outputs) {project : String}
    {labels : SortedMap String String} {name : String} :
    name ∈ namesUnder "services"
        (composeFile project (projectNetwork platform document.metadata.name device) labels outputs) ↔
      ∃ placed ∈ placedServices document.spec device, placed.composeName platform document = name := by
  obtain ⟨hservices, -, -⟩ :=
    field_composeFile project (projectNetwork platform document.metadata.name device) labels outputs
  rw [namesUnder, hservices]
  refine Iff.trans mem_keys_ofList ?_
  constructor
  · intro hname
    obtain ⟨entry, hentry, rfl⟩ := List.mem_map.mp hname
    obtain ⟨placed, hplaced, his⟩ := exists_of_mem_forall₂ h.services.flip hentry
    exact ⟨placed, hplaced, his.name.symm⟩
  · rintro ⟨placed, hplaced, rfl⟩
    obtain ⟨entry, hentry, his⟩ := exists_of_mem_forall₂ h.services hplaced
    exact List.mem_map.mpr ⟨entry, hentry, his.name⟩

/-- Every dependency of a placed service on an instance of the device is on a service there. -/
def Resolves (platform : Platform) (document : Document) (device : Option String) : Prop :=
  ∀ inst routed service definition, .application inst routed service definition ∈ placedServices document.spec device →
    ∀ reference ∈ definition.dependsOn.keys, StaysOn platform document device inst reference →
      ∃ placed ∈ placedServices document.spec device, placed.composeName platform document =
        dependencyService platform document (routedOf document.spec) inst reference

/-- The services that a project keeps. -/
theorem mem_composeServices_composeFile {project network : String} {labels : SortedMap String String}
    {entry : String × Json} :
    entry ∈ composeServices (composeFile project network labels outputs) ↔
      ∃ before after, outputs.flatMap (·.services) = before ++ entry :: after ∧
        ∀ later ∈ after, later.1 ≠ entry.1 := by
  rw [composeServices, (field_composeFile project network labels outputs).1]
  exact mem_entries_ofList

/-- **The project of a device is closed exactly where the dependencies of the services it
keeps stay on the device.** -/
theorem closed_composeFile_iff (h : Outputs platform document device outputs) (hresolves : Resolves platform document device)
    (project : String) (labels : SortedMap String String) :
    Closed (composeFile project (projectNetwork platform document.metadata.name device) labels outputs) ↔
      StayOn platform document device := by
  obtain ⟨-, hvolumes, hnetwork⟩ :=
    field_composeFile project (projectNetwork platform document.metadata.name device) labels outputs
  have hvolume : ∀ name ∈ placedVolumes platform document device, name ∈ namesUnder "volumes"
      (composeFile project (projectNetwork platform document.metadata.name device) labels outputs) := by
    intro name hname
    rw [namesUnder, hvolumes]
    exact mem_keys_ofList.mpr (h.volumes name hname)
  constructor
  · intro hclosed before after inst routed service definition hsplit hlast reference hreference
    obtain ⟨before', entry, after', hservices, his, hafter⟩ := exists_of_forall₂_append_cons (hsplit ▸ h.services)
    have hkept : entry ∈ composeServices
        (composeFile project (projectNetwork platform document.metadata.name device) labels outputs) := by
      refine mem_composeServices_composeFile.mpr ⟨before', after', hservices, fun later hlater heq => ?_⟩
      obtain ⟨placed, hplaced, hlaterIs⟩ := exists_of_mem_forall₂ hafter.flip hlater
      exact hlast placed hplaced (hlaterIs.name.symm.trans (heq.trans his.name))
    have hdefined := hclosed.dependencies entry hkept _ (his.authored inst routed service definition rfl reference hreference)
    exact Or.inr ((mem_services_composeFile h).mp hdefined)
  · intro hstay
    have hentries : ∀ entry ∈ composeServices
        (composeFile project (projectNetwork platform document.metadata.name device) labels outputs),
        ∃ before placed after, placedServices document.spec device = before ++ placed :: after ∧
          IsPlaced platform document device placed entry ∧
          ∀ later ∈ after, later.composeName platform document ≠ placed.composeName platform document := by
      intro entry hentry
      obtain ⟨before, after, hservices, hlast⟩ := mem_composeServices_composeFile.mp hentry
      obtain ⟨before', placed, after', hsplit, his, hafter⟩ := exists_of_forall₂_append_cons (hservices ▸ h.services).flip
      refine ⟨before', placed, after', hsplit, his, fun later hlater heq => ?_⟩
      obtain ⟨laterEntry, hmem, hlaterIs⟩ := exists_of_mem_forall₂ hafter.flip hlater
      exact hlast laterEntry hmem (hlaterIs.name.trans (heq.trans his.name.symm))
    refine ⟨fun entry hentry => ?_, fun entry hentry name hname => ?_⟩
    · obtain ⟨before, placed, after, -, his, -⟩ := hentries entry hentry
      refine ⟨fun name hname => ?_, fun name hname => ?_, fun name hname => hvolume name (his.volumes name hname)⟩
      · obtain ⟨inst, rfl, hmem⟩ := his.shared name hname
        exact (mem_services_composeFile h).mpr ⟨_, hmem, rfl⟩
      · rw [his.networks name hname]
        exact hnetwork
    · obtain ⟨before, placed, after, hsplit, his, hlast⟩ := hentries entry hentry
      refine (mem_services_composeFile h).mpr ?_
      rcases his.generated name hname with ⟨other, hother, rfl⟩ | ⟨inst, routed, service, definition, rfl, reference,
        hreference, rfl⟩
      · exact ⟨other, hother, rfl⟩
      · refine hresolves inst routed service definition ?_ reference hreference
          (hstay before after inst routed service definition hsplit hlast reference hreference)
        rw [hsplit]
        simp

end Project

/-! ### Valid bundles -/

section Valid

variable {platform : Platform} {bundle : Bundle} {devices : Devices} {groups : ResolvedGroups}
  {overlay : Option OverlayResolution} {resourceHash : String} {spec : DeploymentSpec}

/-- The names of a valid bundle are valid. -/
theorem validNames_of_validate (h : validate platform bundle devices = .ok groups) {inst : Instance}
    (hinst : inst ∈ bundle.document.spec.instances) {block : Block}
    (hblock : bundle.document.spec.blocks.get? inst.block = some block) :
    ValidNames bundle.document.metadata.name block inst where
  deployment := (header_of_validate h).2
  inst := by
    obtain ⟨-, hresources, -⟩ := validate_ok_iff.mp h
    obtain ⟨before, herrors⟩ := exists_instanceErrors_eq_nil (List.append_eq_nil_iff.mp hresources).2 hinst
    rw [instanceErrors, List.append_eq_nil_iff, List.append_eq_nil_iff] at herrors
    exact validName_of_validateName herrors.1.1
  volumes entry hentry volume hvolume := by
    have herrors := blockErrors_of_validate h hblock
    rw [blockErrors, List.append_eq_nil_iff, List.append_eq_nil_iff] at herrors
    have hservice := List.flatMap_eq_nil_iff.mp herrors.1.2 entry hentry
    rw [serviceErrors, List.append_eq_nil_iff] at hservice
    have hvolumes := List.flatMap_eq_nil_iff.mp hservice.2 volume hvolume
    rw [volumeErrors, List.append_eq_nil_iff] at hvolumes
    exact validName_of_validateName hvolumes.1

/-- The instances of a device are run one after the other. -/
theorem forall₂_run_on {outputs : List InstanceOutput}
    (houtputs : instanceOutputs platform bundle groups overlay devices resourceHash = .ok outputs)
    (device : Option String) :
    List.Forall₂ (fun inst output =>
        inst ∈ (bundle.document.spec.instances.filter fun inst => !inst.isExternal && inst.remoteDevice = device) ∧
          instanceOutput platform bundle groups overlay devices resourceHash inst = .ok output)
      (bundle.document.spec.instances.filter fun inst => !inst.isExternal && inst.remoteDevice = device)
      (outputs.filter fun output => output.inst.remoteDevice = device) := by
  have hrun := (forall₂_of_mapM_ok houtputs).imp fun _ _ hrun => hrun.2
  have hfilter := List.rel_filter (p := fun inst : Instance => decide (inst.remoteDevice = device))
    (q := fun output : InstanceOutput => decide (output.inst.remoteDevice = device))
    (fun inst output houtput => by dsimp only; rw [inst_of_instanceOutput houtput]) hrun
  have hsame : ((bundle.document.spec.instances.filter fun inst => !inst.isExternal).filter fun inst =>
        decide (inst.remoteDevice = device)) =
      bundle.document.spec.instances.filter fun inst => !inst.isExternal && inst.remoteDevice = device := by
    rw [List.filter_filter]
    exact List.filter_congr fun inst _ => Bool.and_comm ..
  rw [hsame] at hfilter
  exact (List.forall₂_and_left _ _).mpr ⟨fun _ hinst => hinst, hfilter⟩

/-- The outputs of a valid bundle on a device are the services that are placed there. -/
theorem outputs_of_validate (h : validate platform bundle devices = .ok groups) {outputs : List InstanceOutput}
    (houtputs : instanceOutputs platform bundle groups overlay devices resourceHash = .ok outputs)
    (device : Option String) :
    Outputs platform bundle.document device (outputs.filter fun output => output.inst.remoteDevice = device) where
  services := by
    refine List.rel_flatMap (forall₂_run_on houtputs device) fun inst output hrun => ?_
    obtain ⟨hmem, hplace⟩ := List.mem_filter.mp hrun.1
    simp only [Bool.and_eq_true, Bool.not_eq_true', decide_eq_true_eq] at hplace
    have houtput := hrun.2
    unfold instanceOutput at houtput
    split at houtput
    · rename_i block source hblock hsource
      cases houtput
      exact isPlaced_instanceServices hmem hplace.1 hplace.2 hblock (validate_ok_iff.mp h).2.2.2.symm
        (isAbsolute_resolvePath bundle.definitionDir_absolute _) (validNames_of_validate h hmem hblock)
    · cases houtput
    · cases houtput
  volumes name hname := by
    obtain ⟨inst, hinst, hname⟩ := List.mem_flatMap.mp hname
    obtain ⟨block, hblock, hname⟩ := List.mem_flatMap.mp hname
    obtain ⟨entry, hentry, hname⟩ := List.mem_flatMap.mp hname
    obtain ⟨volume, hvolume, rfl⟩ := List.mem_map.mp hname
    obtain ⟨output, hmem, -, houtput⟩ := exists_of_mem_forall₂ (forall₂_run_on houtputs device) hinst
    rw [Option.mem_toList] at hblock
    unfold instanceOutput at houtput
    rw [hblock] at houtput
    dsimp only at houtput
    split at houtput
    · rename_i block' source heq _
      cases heq
      cases houtput
      refine List.mem_map.mpr ⟨_, List.mem_flatMap.mpr ⟨_, hmem, List.mem_flatMap.mpr ⟨entry, hentry,
        List.mem_map.mpr ⟨volume, hvolume, rfl⟩⟩⟩, rfl⟩
    · rename_i heq
      cases heq
    · cases houtput

/-- The node of a dependency. -/
theorem dependencyTarget_eq (inst reference : String) : dependencyTarget inst reference =
    ((Text.splitOnce '/' reference).getD (inst, reference)).1 ++ "/" ++
      ((Text.splitOnce '/' reference).getD (inst, reference)).2 := by
  unfold dependencyTarget
  cases Text.splitOnce '/' reference <;> rfl

/-- A name has no slash. -/
theorem slash_not_mem_of_validName {name : String} (h : validName name = true) : '/' ∉ name.toList := fun hmem =>
  absurd (isNameChar_of_validName h hmem) (by decide)

/-- An instance on a device is not routed. -/
theorem not_mem_routedOf (hnodup : (instanceNames spec.instances).Nodup) {inst : Instance} (hinst : inst ∈ spec.instances)
    {device : String} (hdevice : inst.remoteDevice = some device) : inst.name ∉ routedOf spec := by
  intro hmem
  obtain ⟨other, hother, hname⟩ := List.mem_map.mp hmem
  obtain ⟨hother, hrouted⟩ := List.mem_filter.mp hother
  rw [List.inj_on_of_nodup_map hnodup hother hinst hname, hdevice] at hrouted
  simp at hrouted

/-- A service of an instance is placed on its device, by the name its dependents use. -/
theorem exists_placed_of_service {document : Document} (hnodup : (instanceNames document.spec.instances).Nodup)
    {inst : Instance} (hinst : inst ∈ document.spec.instances) (hmanaged : inst.isExternal = false) {block : Block}
    (hblock : document.spec.blocks.get? inst.block = some block) {service : String}
    (hservice : block.services.contains service = true) :
    ∃ placed ∈ placedServices document.spec inst.remoteDevice, placed.composeName platform document =
      if (routedOf document.spec).contains inst.name then
        resourceName platform [serviceNameFor platform document.metadata.name inst.name service, "app"]
      else serviceNameFor platform document.metadata.name inst.name service := by
  obtain ⟨definition, hdefinition⟩ := (SortedMap.contains_iff _ _).mp hservice
  have hrouted : (inst.remoteDevice.isNone && (routedOf document.spec).contains inst.name) =
      (routedOf document.spec).contains inst.name := by
    cases hdevice : inst.remoteDevice with
    | none => rfl
    | some device =>
      have hnot := not_mem_routedOf hnodup hinst hdevice
      simp [hnot]
  have hmem : .application inst.name ((routedOf document.spec).contains inst.name) service definition ∈
      instancePlaced document.spec inst := by
    have hentry := (SortedMap.mem_entries_iff _).mpr hdefinition
    rw [instancePlaced, hblock]
    dsimp only
    rw [hrouted]
    refine List.mem_flatMap.mpr ⟨block, by simp, ?_⟩
    have happlication : PlacedService.application inst.name ((routedOf document.spec).contains inst.name) service
        definition ∈ block.services.entries.map fun (service, definition) =>
          PlacedService.application inst.name ((routedOf document.spec).contains inst.name) service definition :=
      List.mem_map.mpr ⟨_, hentry, rfl⟩
    split_ifs
    · exact List.mem_append_left _ (List.mem_cons_of_mem _ happlication)
    · exact happlication
  refine ⟨_, List.mem_flatMap.mpr ⟨inst, List.mem_filter.mpr ⟨hinst, ?_⟩, hmem⟩, rfl⟩
  simp [hmanaged]

/-- A service of a block is placed for an instance of it. -/
theorem exists_of_application_mem {name service : String} {routed : Bool} {definition : Service} {device : Option String}
    (h : .application name routed service definition ∈ placedServices spec device) :
    ∃ inst ∈ spec.instances, (inst.isExternal = false ∧ inst.remoteDevice = device) ∧ inst.name = name ∧
      ∃ block, spec.blocks.get? inst.block = some block ∧ (service, definition) ∈ block.services.entries := by
  obtain ⟨inst, hinst, hplaced⟩ := List.mem_flatMap.mp h
  obtain ⟨hinst, hplace⟩ := List.mem_filter.mp hinst
  obtain ⟨block, hblock, hplaced⟩ := List.mem_flatMap.mp hplaced
  refine ⟨inst, hinst, by simpa using hplace, ?_⟩
  dsimp only at hplaced
  split_ifs at hplaced <;> simp only [List.mem_append, List.mem_cons, List.mem_map, List.not_mem_nil, or_false,
    PlacedService.application.injEq, reduceCtorEq, false_or] at hplaced
  · obtain ⟨entry, hentry, rfl, -, rfl, rfl⟩ := hplaced
    exact ⟨rfl, block, Option.mem_toList.mp hblock, hentry⟩
  · obtain ⟨entry, hentry, rfl, -, rfl, rfl⟩ := hplaced
    exact ⟨rfl, block, Option.mem_toList.mp hblock, hentry⟩

/-- The dependencies of a valid bundle's services are on services there are. -/
theorem isServiceNode_of_validate (h : validate platform bundle devices = .ok groups) {inst : Instance}
    (hinst : inst ∈ bundle.document.spec.instances) (hmanaged : inst.isExternal = false) {block : Block}
    (hblock : bundle.document.spec.blocks.get? inst.block = some block) {entry : String × Service}
    (hentry : entry ∈ block.services.entries) {reference : String} (hreference : reference ∈ entry.2.dependsOn.keys) :
    isServiceNode bundle.document.spec (dependencyTarget inst.name reference) = true := by
  have hnodup := nodup_of_validate h
  obtain ⟨-, -, hdocument, -⟩ := validate_ok_iff.mp h
  simp only [documentErrors, List.append_eq_nil_iff] at hdocument
  obtain ⟨⟨⟨⟨⟨-, hexpanded⟩, -⟩, -⟩, -⟩, -⟩ := hdocument
  have hnode : (inst, entry.1, entry.2) ∈ serviceNodes bundle.document.spec := by
    have hvalue : inst ∈ (instanceMap bundle.document.spec).values :=
      List.mem_map.mpr ⟨(inst.name, inst),
        (SortedMap.mem_entries_iff _).mpr ((get?_instanceMap_iff hnodup).mpr ⟨hinst, rfl⟩), rfl⟩
    refine List.mem_flatMap.mpr ⟨inst, List.mem_filter.mpr ⟨hvalue, by simp [hmanaged]⟩, ?_⟩
    rw [hblock]
    exact List.mem_map.mpr ⟨entry, by simpa using hentry, rfl⟩
  have hunknown := List.flatMap_eq_nil_iff.mp (List.append_eq_nil_iff.mp hexpanded).1 _ hnode
  have hkept := List.filter_eq_nil_iff.mp (List.map_eq_nil_iff.mp hunknown) reference hreference
  rw [Bool.and_eq_true, not_and, dependencyTarget_eq] at hkept
  rw [dependencyTarget_eq]
  simpa using hkept (Text.contains_slash _ _)

/-- Of a valid bundle, a dependency on an instance of the same device is on a service there. -/
theorem resolves_of_validate (h : validate platform bundle devices = .ok groups) (device : Option String) :
    Resolves platform bundle.document device := by
  intro name routed service definition hplaced reference hreference hstays
  have hnodup := nodup_of_validate h
  rcases hstays with ⟨target, htarget, hname, hmanagedTarget, hdevice⟩ | hdefined
  · obtain ⟨inst, hinst, hplace, rfl, block, hblock, hentry⟩ := exists_of_application_mem hplaced
    have hnode := isServiceNode_of_validate h hinst hplace.1 hblock hentry hreference
    have hslash : '/' ∉ ((Text.splitOnce '/' reference).getD (inst.name, reference)).1.toList := by
      cases hsplit : Text.splitOnce '/' reference with
      | none => exact slash_not_mem_of_validName (validNames_of_validate h hinst hblock).inst
      | some parts => exact Text.not_mem_of_splitOnce hsplit
    rw [dependencyTarget_eq, isServiceNode, Text.splitOnce_slash hslash] at hnode
    obtain ⟨candidate, hcandidate, hnode⟩ := Option.any_eq_true _ _ |>.mp hnode
    obtain ⟨hcandidate, hcandidateName⟩ := (get?_instanceMap_iff hnodup).mp hcandidate
    obtain rfl : target = candidate :=
      List.inj_on_of_nodup_map hnodup htarget hcandidate (hname.trans hcandidateName.symm)
    obtain ⟨hmanaged, hnode⟩ := Bool.and_eq_true_iff.mp hnode
    obtain ⟨targetBlock, htargetBlock, hservice⟩ := Option.any_eq_true _ _ |>.mp hnode
    obtain ⟨placed, hmem, hcompose⟩ :=
      @exists_placed_of_service platform _ hnodup _ htarget hmanagedTarget _ htargetBlock _ hservice
    refine ⟨placed, hdevice ▸ hmem, ?_⟩
    rw [hcompose, hcandidateName]
    rfl
  · exact hdefined

end Valid

/-! ### Plans -/

section Plans

variable {host : Host} {bundle : Bundle} {options : OverlayOptions} {devices : Devices} {e : Effective}

/-- The name a bundle is planned under. -/
theorem name_effective (h : effective host bundle options = .ok e) :
    variationName bundle.document.metadata.name options.variation = .ok e.bundle.document.metadata.name := by
  cases hplain : isPlain bundle options with
  | true =>
    rw [effective, if_pos hplain] at h
    obtain ⟨_, _, hdocument⟩ := spec_of_withDerivedHostRouting (madeEffective_of_plain h).1
    rw [isPlain, Bool.and_eq_true, Bool.and_eq_true, Option.isNone_iff_eq_none] at hplain
    rw [hdocument, hplain.1.2]
    rfl
  | false =>
    obtain ⟨resolved, resolution, hoverlaid⟩ := exists_overlaid hplain h
    obtain ⟨_, _, hdocument⟩ := spec_of_withDerivedHostRouting hoverlaid.derived
    obtain ⟨name, _, hname, -, hresolved⟩ := resolve_document hoverlaid.resolves
    rw [hdocument, hresolved, hname]
    rfl

section Remotes

variable {platform : Platform} {deployment hash : String} {outputs : List InstanceOutput}

/-- The project of a device. -/
theorem remoteProject_ok {device : String} {entry : String × RemoteComposePlan}
    (h : remoteProject platform deployment hash devices outputs device = .ok entry) :
    entry.1 = device ∧ ∃ project labels, entry.2.compose = composeFile project
      (projectNetwork platform deployment (some device)) labels
      (outputs.filter fun output => output.inst.remoteDevice = some device) := by
  unfold remoteProject at h
  split at h
  · cases h
  · cases h
    exact ⟨rfl, _, _, rfl⟩

/-- The projects are those of the devices that are given a service. -/
theorem mem_remoteProjects {remotes : SortedMap String RemoteComposePlan}
    (h : remoteProjects platform deployment hash devices outputs = .ok remotes) (entry : String × RemoteComposePlan) :
    entry ∈ remotes.entries ↔ ∃ device ∈ usedDevices outputs,
      remoteProject platform deployment hash devices outputs device = .ok entry := by
  obtain ⟨projects, hprojects, h⟩ := bind_eq_ok_iff.mp h
  obtain rfl := Except.ok.inj h
  rw [show entry = (entry.1, entry.2) from rfl, SortedMap.mem_entries_iff, SortedMap.get?_ofList_iff,
    mem_of_mapM_ok hprojects]
  intro device x y hx hy
  obtain ⟨device₁, -, hx⟩ := (mem_of_mapM_ok hprojects).mp hx
  obtain ⟨device₂, -, hy⟩ := (mem_of_mapM_ok hprojects).mp hy
  obtain rfl : device = device₁ := (remoteProject_ok hx).1
  obtain rfl : device = device₂ := (remoteProject_ok hy).1
  exact congrArg Prod.snd (Except.ok.inj (hx.symm.trans hy))

/-- A device that services are placed on is given a service. -/
theorem mem_usedDevices {document : Document} {device : String}
    (h : Outputs platform document (some device) (outputs.filter fun output => output.inst.remoteDevice = some device))
    (hplaced : placedServices document.spec (some device) ≠ []) : device ∈ usedDevices outputs := by
  obtain ⟨placed, hplaced⟩ := List.exists_mem_of_ne_nil _ hplaced
  obtain ⟨service, hservice, -⟩ := exists_of_mem_forall₂ h.services hplaced
  obtain ⟨output, houtput, hservice⟩ := List.mem_flatMap.mp hservice
  obtain ⟨houtput, hdevice⟩ := List.mem_filter.mp houtput
  refine mem_keys_ofList.mpr (List.mem_map.mpr ⟨(device, ()), List.mem_filterMap.mpr ⟨output, houtput, ?_⟩, rfl⟩)
  rw [of_decide_eq_true hdevice, if_neg]
  · rfl
  · rw [List.isEmpty_iff]
    exact List.ne_nil_of_mem hservice

end Remotes

/-- **The projects of a plan are closed exactly where every service they keep depends only on
services of its device.** The names are those of the deployment as it is planned, which is
the bundle's under the name of its variation. -/
theorem compose_closed_iff (host : Host) (bundle : Bundle) (options : OverlayOptions) (devices : Devices) (plan : Plan)
    (hplan : planWithOverlaysAndDevices host bundle options devices = .ok plan) :
    ∃ name, variationName bundle.document.metadata.name options.variation = .ok name ∧
      ((Closed plan.compose ∧ ∀ entry ∈ plan.remoteProjects.entries, Closed entry.2.compose) ↔
        DependenciesStay host.toPlatform (bundle.document.named name)) := by
  obtain ⟨e, groups, he, hvalid, hgenerate⟩ := planWithOverlaysAndDevices_ok hplan
  obtain ⟨profiles, config, probes, outputs, remotes, -, -, -, houtputs, hremotes, rfl⟩ := generate_ok_iff.mp hgenerate
  refine ⟨e.bundle.document.metadata.name, name_effective he, ?_⟩
  rw [← dependenciesStay_of_keepsSpec host.toPlatform (keepsSpec he)]
  have hdevice : ∀ device, Outputs host.toPlatform e.bundle.document device
      (outputs.filter fun output => output.inst.remoteDevice = device) := outputs_of_validate hvalid houtputs
  have hclosed : ∀ device project labels, Closed (composeFile project
      (projectNetwork host.toPlatform e.bundle.document.metadata.name device) labels
      (outputs.filter fun output => output.inst.remoteDevice = device)) ↔
        StayOn host.toPlatform e.bundle.document device := fun device project labels =>
    closed_composeFile_iff (hdevice device) (resolves_of_validate hvalid device) project labels
  have hlocal : localOutputs outputs = outputs.filter fun output => output.inst.remoteDevice = none := by
    refine List.filter_congr fun output _ => ?_
    cases output.inst.remoteDevice <;> rfl
  have hcompose : Closed (assemblePlan host.toPlatform e.bundle e.overlay devices profiles config probes outputs
      remotes).compose ↔ StayOn host.toPlatform e.bundle.document none := by
    rw [← hclosed none, ← hlocal]
    rfl
  rw [hcompose]
  constructor
  · rintro ⟨hnone, hentries⟩ device
    cases device with
    | none => exact hnone
    | some device =>
      intro before after inst routed service definition hsplit
      have hused : device ∈ usedDevices outputs := by
        refine mem_usedDevices (hdevice (some device)) ?_
        rw [hsplit]
        simp
      obtain ⟨projects, hprojects, -⟩ := bind_eq_ok_iff.mp hremotes
      obtain ⟨entry, hentry⟩ := exists_ok_of_mapM_ok hprojects hused
      have hmem := (mem_remoteProjects hremotes entry).mpr ⟨device, hused, hentry⟩
      obtain ⟨-, project, labels, hproject⟩ := remoteProject_ok hentry
      have hentryClosed := hentries entry hmem
      rw [hproject, hclosed] at hentryClosed
      exact hentryClosed before after inst routed service definition hsplit
  · intro hstay
    refine ⟨hstay none, fun entry hentry => ?_⟩
    obtain ⟨device, -, hentry⟩ := (mem_remoteProjects hremotes entry).mp hentry
    obtain ⟨-, project, labels, hproject⟩ := remoteProject_ok hentry
    rw [hproject, hclosed]
    exact hstay (some device)

end Plans

/-- Where every dependency is on an instance of the same device, dependencies stay. -/
theorem dependenciesStay_of_placed (platform : Platform) {document : Document}
    (h : ∀ inst ∈ document.spec.instances, inst.isExternal = false → ∀ block ∈ document.spec.blocks.get? inst.block,
      ∀ entry ∈ block.services.entries, ∀ reference ∈ entry.2.dependsOn.keys, ∃ target ∈ document.spec.instances,
        target.name = dependencyInstance inst.name reference ∧ target.isExternal = false ∧
          target.remoteDevice = inst.remoteDevice) : DependenciesStay platform document := by
  intro device before after name routed service definition hsplit _ reference hreference
  have hmem : .application name routed service definition ∈ placedServices document.spec device := by
    rw [hsplit]
    simp
  obtain ⟨inst, hinst, ⟨hmanaged, rfl⟩, rfl, block, hblock, hentry⟩ := exists_of_application_mem hmem
  exact Or.inl (h inst hinst hmanaged block hblock _ hentry reference hreference)

/-- Two web servers, the first of which waits for the second one, on some device. -/
def waitingBundle (device : Option String) : Bundle :=
  shopBundle.withDocument (shopBundle.document.withSpec { shopBundle.document.spec with
    blocks := .ofList [("web", webBlock), ("client", { webBlock with
      services := webBlock.services.mapValues fun _ service =>
        { service with dependsOn := .ofList [("back/ui", .started)] } })]
    instances := [{ webInstance "front" none with block := "client" }, { webInstance "back" none with device := device }]
    groups := ∅ })

/-- The machine beside the workspace's own. -/
def boardDevices : Devices := .ofList [("board", ⟨"dev", "10.0.0.7", 22, none⟩)]

/-- The second server is run on another device; the first one's project does not define it. -/
theorem cross_device_dependency :
    ∃ plan, planWithOverlaysAndDevices shopHost (waitingBundle (some "board")) OverlayOptions.none boardDevices = .ok plan ∧
      ¬(Closed plan.compose ∧ ∀ entry ∈ plan.remoteProjects.entries, Closed entry.2.compose) := by
  have hrun : (planWithOverlaysAndDevices shopHost (waitingBundle (some "board")) OverlayOptions.none
      boardDevices).toOption.map (fun plan => ((composeServices plan.compose).map fun entry =>
        namesUnder "depends_on" entry.2, namesUnder "services" plan.compose)) =
      some ([["shop--back--ui"]], ["shop--front--ui"]) := by decide +kernel
  obtain ⟨plan, hplan, hvalues⟩ := exists_ok_of_toOption hrun
  obtain ⟨hdependencies, hservices⟩ := Prod.mk.inj hvalues
  refine ⟨plan, hplan, fun hclosed => ?_⟩
  have hmem : ["shop--back--ui"] ∈ (composeServices plan.compose).map fun entry => namesUnder "depends_on" entry.2 := by
    rw [hdependencies]
    exact List.mem_singleton_self _
  obtain ⟨entry, hentry, hnames⟩ := List.mem_map.mp hmem
  have hdefined := hclosed.1.dependencies entry hentry "shop--back--ui" (by rw [hnames]; exact List.mem_singleton_self _)
  rw [hservices] at hdefined
  exact absurd hdefined (by decide)

/-- Both servers are run here. -/
theorem local_dependency_closed :
    ∃ plan, planWithOverlaysAndDevices shopHost (waitingBundle none) OverlayOptions.none boardDevices = .ok plan ∧
      Closed plan.compose ∧ ∀ entry ∈ plan.remoteProjects.entries, Closed entry.2.compose := by
  have hrun : (planWithOverlaysAndDevices shopHost (waitingBundle none) OverlayOptions.none boardDevices).toOption.map
      (·.deployment) = some "shop" := by decide +kernel
  obtain ⟨plan, hplan, -⟩ := exists_ok_of_toOption hrun
  obtain ⟨name, hname, hiff⟩ := compose_closed_iff shopHost (waitingBundle none) OverlayOptions.none boardDevices plan hplan
  obtain rfl : "shop" = name := Except.ok.inj hname
  exact ⟨plan, hplan, hiff.mpr (dependenciesStay_of_placed _ (by decide +kernel))⟩

end Apmpr.Planner
