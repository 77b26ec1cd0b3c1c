import Apmpr.Planner.Closed

/-!
# The form of a generated service

A service is written field by field, and most of what writes it reads only few of the fields
that are there. A field that is not read can as well be written at the end (`Passes`). So a
service that is run here is three parts: fields that know neither the resource hash nor the
secrets, the labels, which know the hash, and the environment, which knows the secrets.

## What is proved

* `localService_eq`: a service that is run here in this form.
* `composeNamespace_eq`, `composeSidecar_eq`: the labels of the services beside it.
-/

namespace Apmpr.Planner

/-! ### Fields written apart -/

section Fields

variable {κ ν : Type} [LinearOrder κ]

theorem insert_comm_of_ne (m : SortedMap κ ν) {a b : κ} (h : a ≠ b) (x y : ν) :
    (m.insert a x).insert b y = (m.insert b y).insert a x := by
  refine SortedMap.ext_get? fun k => ?_
  by_cases ha : k = a
  · subst ha
    simp [h]
  · simp [ha]

theorem insert_insert (m : SortedMap κ ν) (a : κ) (x y : ν) : (m.insert a x).insert a y = m.insert a y := by
  refine SortedMap.ext_get? fun k => ?_
  by_cases ha : k = a <;> simp [ha]

theorem erase_insert_of_ne (m : SortedMap κ ν) {a b : κ} (h : a ≠ b) (x : ν) :
    (m.insert a x).erase b = (m.erase b).insert a x := by
  refine SortedMap.ext_get? fun k => ?_
  by_cases hb : k = b
  · subst hb
    simp [h.symm]
  · simp [hb]

end Fields

/-- A field is passed through: it can as well be written after the others. -/
def Passes (name : String) (f : SortedMap String Json → SortedMap String Json) : Prop :=
  ∀ value json, f (value.insert name json) = (f value).insert name json

namespace Passes

variable {name : String} {f g : SortedMap String Json → SortedMap String Json}

theorem comp (hf : Passes name f) (hg : Passes name g) : Passes name fun value => f (g value) := by
  intro value json
  dsimp only
  rw [hg, hf]

theorem insert {other : String} (h : name ≠ other) (json : Json) : Passes name fun value => value.insert other json :=
  fun value json' => insert_comm_of_ne value h json' json

theorem erase {other : String} (h : name ≠ other) : Passes name fun value => value.erase other :=
  fun value json => erase_insert_of_ne value h json

theorem id : Passes name fun value => value := fun _ _ => rfl

theorem ite {c : Prop} [Decidable c] (hf : Passes name f) (hg : Passes name g) :
    Passes name fun value => if c then f value else g value := by
  split_ifs
  · exact hf
  · exact hg

end Passes

section Application

variable (platform : Platform) (document : Document) (block : Block) (inst : Instance) {name : String}

theorem passes_addMounts (h : name ≠ "volumes") (mounts : List String) : Passes name (addMounts mounts) := by
  intro value json
  have hmounts : mountsOf (value.insert name json) = mountsOf value := by
    rw [mountsOf, mountsOf, SortedMap.get?_insert, if_neg h.symm]
  rw [addMounts, addMounts, hmounts, insert_comm_of_ne _ h]

theorem passes_addRuntimeFields (h : name ∉ executionFieldNames) (command : List String) (directory : Option PathBuf)
    (environment : SortedMap String String) : Passes name (addRuntimeFields document block inst command directory environment) := by
  simp only [executionFieldNames, List.mem_cons, List.not_mem_nil, or_false, not_or] at h
  obtain ⟨-, -, hcommand, hdirectory, henvironment, -⟩ := h
  refine (Passes.insert henvironment _).comp ?_
  cases directory with
  | none => exact Passes.ite .id (.insert hcommand _)
  | some directory => exact (Passes.insert hdirectory _).comp (Passes.ite .id (.insert hcommand _))

theorem passes_executionFields (h : name ∉ executionFieldNames) (source : PathBuf) (execution : Execution) :
    Passes name (executionFields document block inst source execution) := by
  have hruntime := @passes_addRuntimeFields document block inst name h
  simp only [executionFieldNames, List.mem_cons, List.not_mem_nil, or_false, not_or] at h
  obtain ⟨himage, hbuild, -, -, -, hvolumes⟩ := h
  cases execution with
  | container image build command runtime =>
    have hmount : Passes name fun value => if inst.remoteDevice.isNone
        then SortedMap.insert value "volumes" (.strings [mountText source runtime.sourceMount runtime.writable]) else value :=
      Passes.ite (.insert hvolumes _) .id
    have hrest := hmount.comp (hruntime command (runtime.workingDirectory.or
      (if inst.remoteDevice.isNone && !command.isEmpty then some runtime.sourceMount else none)) runtime.environment)
    cases image with
    | none =>
      cases build with
      | none => exact hrest
      | some build => exact hrest.comp (.insert hbuild _)
    | some image =>
      cases build with
      | none => exact hrest.comp (.insert himage _)
      | some build => exact hrest.comp ((Passes.insert hbuild _).comp (.insert himage _))
  | script image command lifecycle runtime =>
    exact (Passes.insert hvolumes _).comp ((hruntime _ _ _).comp (.insert himage _))
  | processCompose image file runtime =>
    exact (Passes.insert hvolumes _).comp ((hruntime _ _ _).comp (.insert himage _))

/-- What `compose_application` writes after the labels and the network. -/
def applicationRest (service : Service) (source : PathBuf) (value : SortedMap String Json) : SortedMap String Json :=
  let value := if service.isTask then value else value.insert "restart" (.string "unless-stopped")
  let value := executionFields document block inst source service.execution value
  let value := addMounts (volumeMounts platform document inst service) value
  let value := if service.publish.isEmpty then value else value.insert "ports" (composePorts service.publish)
  match service.probe with
  | some probe => value.insert "healthcheck" (composeProbe probe)
  | none => value

theorem passes_applicationRest (h : name ∉ executionFieldNames) (h' : name ∉ ["restart", "ports", "healthcheck"])
    (service : Service) (source : PathBuf) : Passes name (applicationRest platform document block inst service source) := by
  have hvolumes : name ≠ "volumes" := fun heq => h (by simp [executionFieldNames, heq])
  simp only [List.mem_cons, List.not_mem_nil, or_false, not_or] at h'
  obtain ⟨hrestart, hports, hcheck⟩ := h'
  have hfirst : Passes name fun value => if service.isTask then value else value.insert "restart" (.string "unless-stopped") :=
    Passes.ite .id (.insert hrestart _)
  have hpublished : Passes name fun value =>
      if service.publish.isEmpty then value else value.insert "ports" (composePorts service.publish) :=
    Passes.ite .id (.insert hports _)
  have hall := hpublished.comp ((passes_addMounts hvolumes (volumeMounts platform document inst service)).comp
    ((passes_executionFields document block inst h source service.execution).comp hfirst))
  intro value json
  unfold applicationRest
  cases service.probe with
  | none => exact hall value json
  | some probe => exact ((Passes.insert hcheck (composeProbe probe)).comp hall) value json

/-- The labels of an application are written apart. -/
theorem composeApplication_labels (service : Service) (source : PathBuf) (network : String) (labels : SortedMap String String) :
    composeApplication platform document block inst service source network labels =
      (composeApplication platform document block inst service source network ∅).insert "labels" (.ofTexts labels) := by
  have hform : ∀ labels, composeApplication platform document block inst service source network labels =
      (applicationRest platform document block inst service source
        (SortedMap.insert ∅ "networks" (.strings [network]))).insert "labels" (.ofTexts labels) := by
    intro labels
    rw [← passes_applicationRest platform document block inst (by decide) (by decide) service source,
      insert_comm_of_ne _ (by decide)]
    rfl
  rw [hform labels, hform ∅, insert_insert]

end Application

/-! ### A service of an instance that is run here -/

section Local

variable (platform : Platform) (bundle : Bundle) (groups : ResolvedGroups) (overlay : Option OverlayResolution)
  (resourceHash : String) (block : Block) (inst : Instance) (source : PathBuf) (entry : String × Service)

/-- An application without labels and without the environment of its overlay. -/
def bareApplication : SortedMap String Json :=
  addInjectedMounts overlay inst.name (bundle.workspaceRoot.join (artifactDir bundle.document.metadata.name))
    (composeApplication platform bundle.document block inst entry.2 source (networkName platform bundle.document.metadata.name) ∅)

/-- An application among the services that are run here. -/
def placeLocal (value : SortedMap String Json) : SortedMap String Json :=
  let routed := routedInstances bundle.document.spec groups
  let value := addComposeDependencies platform bundle.document routed inst entry.2 value
  if routed.contains inst.name then
    behindSidecar (resourceName platform [bundle.document.metadata.name, inst.name, "namespace"])
      (resourceName platform [bundle.document.metadata.name, inst.name, "router"]) value
  else value

theorem passes_addInjectedMounts {name : String} (h : name ≠ "volumes") (target : String) (dir : PathBuf) :
    Passes name (addInjectedMounts overlay target dir) := by
  unfold addInjectedMounts
  cases overlay with
  | none => exact .id
  | some resolution => exact passes_addMounts h _

theorem passes_addComposeDependencies {name : String} (h : name ≠ "depends_on") (document : Document) (routed : List String)
    (service : Service) : Passes name (addComposeDependencies platform document routed inst service) := by
  unfold addComposeDependencies
  exact Passes.ite .id (.insert h _)

theorem passes_behindSidecar {name : String} (h : name ∉ ["networks", "ports", "network_mode", "depends_on"])
    (namespaceService sidecar : String) : Passes name (behindSidecar namespaceService sidecar) := by
  simp only [List.mem_cons, List.not_mem_nil, or_false, not_or] at h
  obtain ⟨hnetworks, hports, hmode, hdepends⟩ := h
  have hfirst : Passes name fun value => ((SortedMap.erase value "networks").erase "ports").insert "network_mode"
      (.string s!"service:{namespaceService}") :=
    (Passes.insert hmode _).comp ((Passes.erase hports).comp (.erase hnetworks))
  intro value json
  have hvalue : ((((value.insert name json).erase "networks").erase "ports").insert "network_mode"
      (.string s!"service:{namespaceService}")) = (((value.erase "networks").erase "ports").insert "network_mode"
      (.string s!"service:{namespaceService}")).insert name json := hfirst value json
  unfold behindSidecar
  dsimp only
  rw [hvalue, SortedMap.get?_insert _ name, if_neg (Ne.symm hdepends), insert_comm_of_ne _ hdepends]

theorem passes_placeLocal {name : String} (h : name ∉ ["networks", "ports", "network_mode", "depends_on"]) :
    Passes name (placeLocal platform bundle groups inst entry) := by
  have hdepends : name ≠ "depends_on" := fun heq => h (by simp [heq])
  have hadd := passes_addComposeDependencies platform inst hdepends bundle.document
    (routedInstances bundle.document.spec groups) entry.2
  exact Passes.ite ((passes_behindSidecar h _ _).comp hadd) hadd

/-- The name of a service that is run here. -/
def localName : String :=
  let base := serviceNameFor platform bundle.document.metadata.name inst.name entry.1
  if (routedInstances bundle.document.spec groups).contains inst.name then resourceName platform [base, "app"] else base

/-- **A service is its fields, its labels and its environment.** -/
theorem localService_eq : localService platform bundle groups overlay resourceHash block inst source entry =
    (localName platform bundle groups inst entry, .ofMap
      (((placeLocal platform bundle groups inst entry (bareApplication platform bundle overlay block inst source entry)).insert
        "labels" (.ofTexts (serviceLabels resourceHash bundle.document.metadata.name inst entry.1))).insert
        "environment" (.ofMap (generatedEnvironment bundle.document block inst platform overlay entry.2)))) := by
  have happlication : overlaidApplication platform bundle overlay resourceHash block inst source
      (networkName platform bundle.document.metadata.name) entry =
      ((bareApplication platform bundle overlay block inst source entry).insert "labels"
        (.ofTexts (serviceLabels resourceHash bundle.document.metadata.name inst entry.1))).insert
        "environment" (.ofMap (generatedEnvironment bundle.document block inst platform overlay entry.2)) := by
    rw [bareApplication, ← passes_addInjectedMounts overlay (by decide), ← composeApplication_labels]
    unfold overlaidApplication
    dsimp only
    have henvironment : (addInjectedMounts overlay inst.name
        (bundle.workspaceRoot.join (artifactDir bundle.document.metadata.name))
        (composeApplication platform bundle.document block inst entry.2 source
          (networkName platform bundle.document.metadata.name)
          (serviceLabels resourceHash bundle.document.metadata.name inst entry.1))).get? "environment" =
        some (.ofTexts (serviceEnvironment bundle.document block inst entry.2.execution.runtime.environment)) := by
      unfold addInjectedMounts
      split
      · exact environment_composeApplication ..
      · rw [get?_addMounts _ _ (by decide)]
        exact environment_composeApplication ..
    rw [applyOverlayEnvironment, henvironment]
    rfl
  rw [← passes_placeLocal platform bundle groups inst entry (by decide),
    ← passes_placeLocal platform bundle groups inst entry (by decide), ← happlication]
  unfold localService placeLocal localName
  dsimp only
  split_ifs <;> rfl

/-! ### Its source -/

/-- An execution that is run here mounts its source. -/
theorem mountsOf_executionFields_local (document : Document) (hlocal : inst.remoteDevice = none) (execution : Execution)
    (value : SortedMap String Json) : mountsOf (executionFields document block inst source execution value) =
      [.string (mountText source execution.runtime.sourceMount execution.runtime.writable)] := by
  cases execution with
  | container image build command runtime =>
    unfold executionFields mountsOf
    dsimp only
    rw [hlocal, Option.isNone_none, if_pos rfl, SortedMap.get?_insert, if_pos rfl]
    rfl
  | script image command lifecycle runtime => simp [executionFields, mountsOf, SortedMap.get?_insert, Json.strings]
  | processCompose image file runtime => simp [executionFields, mountsOf, SortedMap.get?_insert, Json.strings]

/-- The first mount of a value. -/
def firstMount (value : Json) : Option Json :=
  match value.field "volumes" with
  | some (.array mounts) => mounts.head?
  | _ => none

theorem firstMount_ofMap {value : SortedMap String Json} {mount : Json} {rest : List Json}
    (h : value.get? "volumes" = some (.array (mount :: rest))) : firstMount (.ofMap value) = some mount := by
  rw [firstMount, Json.field_ofMap, h]
  rfl

theorem get?_placeLocal (value : SortedMap String Json) :
    (placeLocal platform bundle groups inst entry value).get? "volumes" = value.get? "volumes" := by
  unfold placeLocal behindSidecar
  dsimp only
  split_ifs
  · simp only [SortedMap.get?_insert, SortedMap.get?_erase, if_neg (show "volumes" ≠ "depends_on" by decide),
      if_neg (show "volumes" ≠ "network_mode" by decide), if_neg (show "volumes" ≠ "ports" by decide),
      if_neg (show "volumes" ≠ "networks" by decide)]
    exact get?_addComposeDependencies _ _ _ _ _ _ (by decide)
  · exact get?_addComposeDependencies _ _ _ _ _ _ (by decide)

/-- **The source of a service that is run here is its first mount.** -/
theorem firstMount_placeLocal (hlocal : inst.remoteDevice = none) (labels environment : Json) :
    firstMount (.ofMap (((placeLocal platform bundle groups inst entry
        (bareApplication platform bundle overlay block inst source entry)).insert "labels" labels).insert "environment" environment)) =
      some (.string (mountText source entry.2.execution.runtime.sourceMount entry.2.execution.runtime.writable)) := by
  have happlication : ∃ rest, (composeApplication platform bundle.document block inst entry.2 source
      (networkName platform bundle.document.metadata.name) ∅).get? "volumes" = some (.array
        (.string (mountText source entry.2.execution.runtime.sourceMount entry.2.execution.runtime.writable) :: rest)) := by
    refine ⟨(volumeMounts platform bundle.document inst entry.2).map .string, ?_⟩
    have hmounts := fun value => mountsOf_executionFields_local block inst source bundle.document hlocal entry.2.execution value
    unfold composeApplication
    cases entry.2.probe <;> dsimp only <;> split_ifs <;>
      simp only [SortedMap.get?_insert, if_neg (show "volumes" ≠ "ports" by decide),
        if_neg (show "volumes" ≠ "healthcheck" by decide), volumes_addMounts, hmounts] <;> rfl
  obtain ⟨rest, hrest⟩ := happlication
  obtain ⟨rest', hrest'⟩ : ∃ rest', (bareApplication platform bundle overlay block inst source entry).get? "volumes" =
      some (.array (.string (mountText source entry.2.execution.runtime.sourceMount entry.2.execution.runtime.writable) :: rest')) := by
    unfold bareApplication addInjectedMounts
    split
    · exact ⟨rest, hrest⟩
    · rw [volumes_addMounts, mountsOf, hrest]
      exact ⟨_, rfl⟩
  refine @firstMount_ofMap _ _ rest' ?_
  rw [SortedMap.get?_insert, if_neg (by decide), SortedMap.get?_insert, if_neg (by decide), get?_placeLocal, hrest']

end Local

/-! ### The services beside it -/

/-- The labels of a namespace are written apart. -/
theorem composeNamespace_eq (network : String) (ports : List U16) (aliases : List String) :
    ∃ value : SortedMap String Json, ∀ labels, composeNamespace network labels ports aliases =
      .ofMap (value.insert "labels" (.ofTexts labels)) := by
  let base := SortedMap.ofList [("image", Json.string "alpine:3.22"), ("command", .strings ["sleep", "infinity"]),
    ("restart", .string "unless-stopped"), ("networks", .obj [(network, .obj [("aliases", .strings aliases)])])]
  refine ⟨if ports.isEmpty then base else base.insert "ports" (composePorts ports), fun labels => ?_⟩
  unfold composeNamespace
  dsimp only
  split_ifs
  · rfl
  · rw [← insert_comm_of_ne _ (show "labels" ≠ "ports" by decide)]
    rfl

/-- The labels of a sidecar are written apart. -/
theorem composeSidecar_eq (image namespaceService sidecar : String) (configPath : PathBuf) (transparent : Bool) :
    ∃ value : SortedMap String Json, ∀ labels, composeSidecar image namespaceService sidecar configPath labels transparent =
      .ofMap (value.insert "labels" (.ofTexts labels)) := by
  have hrest : Passes "labels" fun value =>
      if transparent then (value.insert "container_name" (.string sidecar)).insertAll [("user", .string "0:0"),
        ("cap_drop", .strings ["ALL"]), ("cap_add", .strings ["NET_ADMIN"]), ("security_opt", .strings ["no-new-privileges:true"])]
      else value.insert "container_name" (.string sidecar) :=
    Passes.ite ((Passes.insert (by decide) _).comp ((Passes.insert (by decide) _).comp ((Passes.insert (by decide) _).comp
      ((Passes.insert (by decide) _).comp (.insert (by decide) _))))) (.insert (by decide) _)
  exact ⟨_, fun labels => congrArg Json.ofMap (hrest _ (.ofTexts labels))⟩

end Apmpr.Planner
