import Mathlib.Data.Finset.Card
import Apmpr.Planner.Closed

/-!
# Names of generated resources

What a plan generates is named by `resource_name`: labels are joined by `--`, and a text of
more than 63 bytes is cut and followed by the start of its digest. A label may itself have
`--` in it, so that different labels can be joined to one text, and a text of 63 bytes can
be what another, longer one is cut to. A project keeps one resource of each name.

## What is proved

`nothing_overwritten_iff` — where digests tell the long texts apart, a plan keeps everything
it generates exactly where the texts of different resources are apart.
-/

namespace Apmpr.Planner

/-! ### Texts and names -/

section Texts

variable (platform : Platform)

/-- Labels joined to a text. -/
def joinedText (labels : List String) : String := "--".intercalate labels

/-- The start of a text's digest. -/
def digestText (text : String) : String := String.ofList ((hexDigest (platform.sha256 text)).toList.take 8)

/-- What a text that is too long is cut to. -/
def abbreviation (text : String) : String :=
  String.ofList (takeBytes 54 text.toList) ++ "-" ++ digestText platform text

/-- The name a text is kept under. -/
def nameOfText (text : String) : String := if byteLength text ≤ 63 then text else abbreviation platform text

theorem resourceName_eq (labels : List String) : resourceName platform labels = nameOfText platform (joinedText labels) :=
  rfl

/-- Two texts are apart: they differ, and neither is what the other one is cut to. -/
def Apart (first second : String) : Prop :=
  first ≠ second ∧ (byteLength first ≤ 63 → 63 < byteLength second → first ≠ abbreviation platform second) ∧
    (byteLength second ≤ 63 → 63 < byteLength first → second ≠ abbreviation platform first)

instance (first second : String) : Decidable (Apart platform first second) := by
  unfold Apart
  infer_instance

/-- The starts of the digests tell the long ones of some texts apart. -/
def DigestsDiffer (texts : List String) : Prop :=
  ∀ first ∈ texts, ∀ second ∈ texts, 63 < byteLength first → 63 < byteLength second →
    digestText platform first = digestText platform second → first = second

theorem length_digestText (text : String) : (digestText platform text).toList.length = 8 := by
  have hbytes : ∀ bytes : List (Fin 256), (bytes.flatMap hexByte).length = 2 * bytes.length := by
    intro bytes
    induction bytes with
    | nil => rfl
    | cons byte rest ih =>
      rw [List.flatMap_cons, List.length_append, ih, List.length_cons]
      simp only [hexByte, List.length_cons, List.length_nil]
      omega
  rw [digestText, hexDigest, String.toList_ofList, String.toList_ofList, List.length_take, hbytes,
    Vector.length_toList]
  rfl

theorem digestText_of_abbreviation {first second : String}
    (h : abbreviation platform first = abbreviation platform second) :
    digestText platform first = digestText platform second := by
  have hlists := congrArg String.toList h
  rw [abbreviation, abbreviation, String.toList_append, String.toList_append, String.toList_append,
    String.toList_append] at hlists
  have hdigest := List.append_inj_right' hlists (by rw [length_digestText, length_digestText])
  exact String.toList_inj.mp hdigest

variable {platform}

/-- **Names differ exactly where the texts are apart.** -/
theorem nameOfText_ne_iff {texts : List String} (h : DigestsDiffer platform texts) {first second : String}
    (hfirst : first ∈ texts) (hsecond : second ∈ texts) :
    nameOfText platform first ≠ nameOfText platform second ↔ Apart platform first second := by
  unfold nameOfText Apart
  split_ifs with hshort hshort' hshort'
  · refine ⟨fun hne => ⟨hne, fun _ hlong => ?_, fun _ hlong => ?_⟩, fun hapart => hapart.1⟩
    · exact absurd hshort' (Nat.not_le.mpr hlong)
    · exact absurd hshort (Nat.not_le.mpr hlong)
  · have hlong := Nat.not_le.mp hshort'
    refine ⟨fun hne => ⟨?_, fun _ _ => hne, fun hle => absurd hle hshort'⟩, fun hapart => hapart.2.1 hshort hlong⟩
    rintro rfl
    exact hshort' hshort
  · have hlong := Nat.not_le.mp hshort
    refine ⟨fun hne => ⟨?_, fun hle => absurd hle hshort, fun _ _ => hne.symm⟩,
      fun hapart => (hapart.2.2 hshort' hlong).symm⟩
    rintro rfl
    exact hshort hshort'
  · refine ⟨fun hne => ⟨?_, fun hle => absurd hle hshort, fun hle => absurd hle hshort'⟩, fun hapart heq => ?_⟩
    · rintro rfl
      exact hne rfl
    · exact hapart.1 (h first hfirst second hsecond (Nat.not_le.mp hshort) (Nat.not_le.mp hshort')
        (digestText_of_abbreviation platform heq))

end Texts

/-- Pairs of labels, the first of which do not end in `-`, are joined to one text exactly
where they are the same, or one continues the other's first label by `--` and a part that
the other one's second label starts with. -/
theorem joined_eq_iff {first first' : List Char} (hfirst : first.getLast? ≠ some '-')
    (hfirst' : first'.getLast? ≠ some '-') (second second' : List Char) :
    first ++ ['-', '-'] ++ second = first' ++ ['-', '-'] ++ second' ↔
      (first = first' ∧ second = second') ∨
      (∃ part, first' = first ++ ['-', '-'] ++ part ∧ second = part ++ ['-', '-'] ++ second') ∨
      ∃ part, first = first' ++ ['-', '-'] ++ part ∧ second' = part ++ ['-', '-'] ++ second := by
  have hextend : ∀ {a b c d : List Char}, b.getLast? ≠ some '-' → (∃ part, b = a ++ part ∧
      ['-', '-'] ++ c = part ++ (['-', '-'] ++ d)) →
      (a = b ∧ c = d) ∨ ∃ part, b = a ++ ['-', '-'] ++ part ∧ c = part ++ ['-', '-'] ++ d := by
    rintro a b c d hb ⟨part, rfl, hrest⟩
    match part, hb, hrest with
    | [], _, hrest => exact .inl ⟨(List.append_nil a).symm, by simpa using hrest⟩
    | [x], hb, hrest =>
      have hx : x = '-' := by simpa using (List.cons.inj hrest).1.symm
      exact absurd (by rw [hx, List.getLast?_append]; rfl) hb
    | x :: y :: rest, hb, hrest =>
      obtain ⟨hx, htail⟩ := List.cons.inj hrest
      obtain ⟨hy, hc⟩ := List.cons.inj htail
      subst hx hy
      exact .inr ⟨rest, by simp, by simpa using hc⟩
  constructor
  · intro h
    rw [List.append_assoc, List.append_assoc, List.append_eq_append_iff] at h
    rcases h with hlong | hlong
    · rcases hextend hfirst' hlong with heq | hpart
      · exact .inl heq
      · exact .inr (.inl hpart)
    · rcases hextend hfirst hlong with heq | hpart
      · exact .inl ⟨heq.1.symm, heq.2.symm⟩
      · exact .inr (.inr hpart)
  · rintro (⟨rfl, rfl⟩ | ⟨part, rfl, rfl⟩ | ⟨part, rfl, rfl⟩) <;> simp

/-- A pair of labels continues the first label of another pair by what the other's second
label starts with. -/
def Overlaps (pair other : String × String) : Prop :=
  ∃ part, other.1 = pair.1 ++ "--" ++ part ∧ pair.2 = part ++ "--" ++ other.2

theorem overlaps_iff (pair other : String × String) :
    Overlaps pair other ↔ ∃ part : List Char, other.1.toList = pair.1.toList ++ ['-', '-'] ++ part ∧
      pair.2.toList = part ++ ['-', '-'] ++ other.2.toList := by
  have htexts : ∀ text first second : String, text = first ++ "--" ++ second ↔
      text.toList = first.toList ++ ['-', '-'] ++ second.toList := by
    intro text first second
    rw [← String.toList_inj, String.toList_append, String.toList_append]
    rfl
  unfold Overlaps
  simp only [htexts]
  constructor
  · rintro ⟨part, hpart⟩
    exact ⟨part.toList, hpart⟩
  · rintro ⟨part, hpart⟩
    exact ⟨String.ofList part, by simpa only [String.toList_ofList] using hpart⟩

theorem getLast?_of_validName {name : String} (h : validName name = true) : name.toList.getLast? ≠ some '-' := by
  intro hlast
  obtain ⟨before, hbefore⟩ := List.getLast?_eq_some_iff.mp hlast
  have hends : Text.endsWith name "-" = true := by
    rw [Text.endsWith, hbefore, List.isSuffixOf_iff_suffix]
    exact List.suffix_append before ['-']
  simp only [validName, hends, Bool.not_true, Bool.and_false, Bool.false_eq_true] at h

/-- **What it takes for two texts to be the same**: with valid first labels, the pairs are
the same, or one overlaps the other. -/
theorem joinedText_eq_iff (deployment : String) {pair other : String × String} (hpair : validName pair.1 = true)
    (hother : validName other.1 = true) :
    joinedText [deployment, pair.1, pair.2] = joinedText [deployment, other.1, other.2] ↔
      pair = other ∨ Overlaps pair other ∨ Overlaps other pair := by
  have hjoined : ∀ p : String × String, joinedText [deployment, p.1, p.2] =
      deployment ++ "--" ++ (p.1 ++ "--" ++ p.2) := by
    intro p
    have hfold : joinedText [deployment, p.1, p.2] = deployment ++ "--" ++ p.1 ++ "--" ++ p.2 := rfl
    simp only [hfold, String.append_assoc]
  rw [hjoined, hjoined, String.append_right_inj, overlaps_iff, overlaps_iff, Prod.ext_iff, ← String.toList_inj,
    ← String.toList_inj, ← String.toList_inj, String.toList_append, String.toList_append, String.toList_append,
    String.toList_append]
  exact joined_eq_iff (getLast?_of_validName hpair) (getLast?_of_validName hother) pair.2.toList other.2.toList

/-! ### What is generated -/

section Items

variable (platform : Platform) (document : Document)

/-- The text that the name of a service is made of. The name of an application behind a
sidecar is made of the name it is reached by. -/
def PlacedService.text : PlacedService → String
  | .namespaceService inst => joinedText [document.metadata.name, inst, "namespace"]
  | .application inst routed service _ =>
    if routed then joinedText [serviceNameFor platform document.metadata.name inst service, "app"]
    else joinedText [document.metadata.name, inst, service]
  | .sidecar inst => joinedText [document.metadata.name, inst, "router"]

theorem composeName_eq (placed : PlacedService) :
    placed.composeName platform document = nameOfText platform (placed.text platform document) := by
  unfold PlacedService.composeName PlacedService.text
  cases placed with
  | namespaceService inst => exact resourceName_eq platform _
  | sidecar inst => exact resourceName_eq platform _
  | application inst routed service definition =>
    dsimp only
    split_ifs
    · rw [resourceName_eq]
    · rw [serviceNameFor, resourceName_eq]

/-- The instance and the service of an application. -/
def PlacedService.pair : PlacedService → Option (String × String)
  | .application inst _ service _ => some (inst, service)
  | _ => none

/-- The instances that are run. -/
def runInstances (spec : DeploymentSpec) : List Instance := spec.instances.filter fun inst => !inst.isExternal

/-- The services of all projects. -/
def allPlaced (spec : DeploymentSpec) : List PlacedService := (runInstances spec).flatMap (instancePlaced spec)

/-- The named volumes of an instance. -/
def instanceVolumes (spec : DeploymentSpec) (inst : Instance) : List (String × String) :=
  (spec.blocks.get? inst.block).toList.flatMap fun block => block.services.entries.flatMap fun entry =>
    entry.2.volumes.map fun volume => (inst.name, volume.name)

/-- The named volumes of the project of a device, once for every mount. -/
def volumeItems (spec : DeploymentSpec) (device : Option String) : List (String × String) :=
  ((runInstances spec).filter fun inst => inst.remoteDevice = device).flatMap (instanceVolumes spec)

/-- The text of an instance and one of its labels. -/
def pairText (pair : String × String) : String := joinedText [document.metadata.name, pair.1, pair.2]

/-- What a service is reached by, where its instance has a namespace. -/
def aliasPairs (spec : DeploymentSpec) : List (String × String) :=
  ((runInstances spec).filter fun inst => inst.remoteDevice.isNone && (routedOf spec).contains inst.name).flatMap
    fun inst => (spec.blocks.get? inst.block).toList.flatMap fun block =>
      block.services.keys.map fun service => (inst.name, service)

/-- The texts that the names of a deployment are made of. -/
def nameTexts : List String :=
  (allPlaced document.spec).map (PlacedService.text platform document) ++
    ((aliasPairs document.spec).map (pairText document) ++
      ((runInstances document.spec).flatMap (instanceVolumes document.spec)).map (pairText document))

/-- **Nothing that a plan generates is overwritten**: a project has as many services as it
is given and as many volumes as its instances have, and neither a network alias nor the name
that the manifest has of a service is shared by two instances or services. -/
structure NothingOverwritten (plan : Plan) : Prop where
  services : (namesUnder "services" plan.compose).length = (placedServices document.spec none).length
  volumes : (namesUnder "volumes" plan.compose).length = (volumeItems document.spec none).dedup.length
  remoteServices : ∀ entry ∈ plan.remoteProjects.entries,
    (namesUnder "services" entry.2.compose).length = (placedServices document.spec (some entry.1)).length
  remoteVolumes : ∀ entry ∈ plan.remoteProjects.entries,
    (namesUnder "volumes" entry.2.compose).length = (volumeItems document.spec (some entry.1)).dedup.length
  aliases : ∀ x ∈ aliasPairs document.spec, ∀ y ∈ aliasPairs document.spec, x ≠ y →
    serviceNameFor platform document.metadata.name x.1 x.2 ≠ serviceNameFor platform document.metadata.name y.1 y.2
  manifest : ∀ x ∈ allPlaced document.spec, ∀ y ∈ allPlaced document.spec, x.pair.isSome = true → y.pair.isSome = true →
    x.pair ≠ y.pair → x.composeName platform document ≠ y.composeName platform document

/-- The texts of different resources are apart. -/
structure TextsApart : Prop where
  services : ∀ device, (placedServices document.spec device).Pairwise fun x y =>
    Apart platform (x.text platform document) (y.text platform document)
  volumes : ∀ device, ∀ x ∈ volumeItems document.spec device, ∀ y ∈ volumeItems document.spec device, x ≠ y →
    Apart platform (pairText document x) (pairText document y)
  aliases : ∀ x ∈ aliasPairs document.spec, ∀ y ∈ aliasPairs document.spec, x ≠ y →
    Apart platform (pairText document x) (pairText document y)
  manifest : ∀ x ∈ allPlaced document.spec, ∀ y ∈ allPlaced document.spec, x.pair.isSome = true → y.pair.isSome = true →
    x.pair ≠ y.pair → Apart platform (x.text platform document) (y.text platform document)

section Kept

variable {document} {effective : Document} (h : KeepsSpec document effective)
include h

/-- What is read off the instances that are run, but not off their parameters and
environment, is as in the document itself. -/
theorem flatMap_runInstances_of_keepsSpec {α : Type} {f g : Instance → List α}
    (hf : ∀ inst, f inst = f (strippedInstance inst)) (hg : ∀ inst, g inst = g (strippedInstance inst)) (hfg : f = g) :
    (runInstances effective.spec).flatMap f = (runInstances document.spec).flatMap g := by
  have hstripped : ∀ (spec : DeploymentSpec) (f : Instance → List α), (∀ inst, f inst = f (strippedInstance inst)) →
      (runInstances spec).flatMap f =
        ((spec.instances.map strippedInstance).filter fun inst => !inst.isExternal).flatMap f := by
    intro spec f hf
    rw [List.filter_map, List.flatMap_map]
    exact List.flatMap_congr fun inst _ => hf inst
  rw [hstripped _ f hf, hstripped _ g hg, h.instances, hfg]

theorem allPlaced_of_keepsSpec : allPlaced effective.spec = allPlaced document.spec :=
  flatMap_runInstances_of_keepsSpec h (fun _ => rfl) (fun _ => rfl) (instancePlaced_of_keepsSpec h)

theorem instanceVolumes_of_keepsSpec : instanceVolumes effective.spec = instanceVolumes document.spec := by
  funext inst
  unfold instanceVolumes
  rw [h.blocks]

theorem volumes_of_keepsSpec : (runInstances effective.spec).flatMap (instanceVolumes effective.spec) =
    (runInstances document.spec).flatMap (instanceVolumes document.spec) :=
  flatMap_runInstances_of_keepsSpec h (fun _ => rfl) (fun _ => rfl) (instanceVolumes_of_keepsSpec h)

omit h in
theorem filter_flatMap_eq {α β : Type} (p : α → Bool) (f : α → List β) (l : List α) :
    (l.filter p).flatMap f = l.flatMap fun a => if p a then f a else [] := by
  induction l with
  | nil => rfl
  | cons a rest ih => cases hp : p a <;> simp [hp, ih]

theorem volumeItems_of_keepsSpec (device : Option String) :
    volumeItems effective.spec device = volumeItems document.spec device := by
  rw [volumeItems, volumeItems, filter_flatMap_eq, filter_flatMap_eq]
  refine flatMap_runInstances_of_keepsSpec h (fun _ => rfl) (fun _ => rfl) ?_
  rw [instanceVolumes_of_keepsSpec h]

theorem aliasPairs_of_keepsSpec : aliasPairs effective.spec = aliasPairs document.spec := by
  rw [aliasPairs, aliasPairs, filter_flatMap_eq, filter_flatMap_eq]
  refine flatMap_runInstances_of_keepsSpec h (fun _ => rfl) (fun _ => rfl) ?_
  rw [h.blocks, routedOf_of_keepsSpec h]

end Kept

theorem text_congr {document' : Document} (h : document'.metadata.name = document.metadata.name) :
    PlacedService.text platform document' = PlacedService.text platform document := by
  funext placed
  cases placed <;> simp only [PlacedService.text, h]

theorem pairText_congr {document' : Document} (h : document'.metadata.name = document.metadata.name) :
    pairText document' = pairText document := by
  funext pair
  rw [pairText, pairText, h]

section Named

variable {document} {effective : Document} (h : KeepsSpec document effective)
include h

theorem nameTexts_of_keepsSpec :
    nameTexts platform effective = nameTexts platform (document.named effective.metadata.name) := by
  have hname : effective.metadata.name = (document.named effective.metadata.name).metadata.name := rfl
  unfold nameTexts
  rw [allPlaced_of_keepsSpec h, aliasPairs_of_keepsSpec h, volumes_of_keepsSpec h, text_congr platform _ hname,
    pairText_congr _ hname]
  rfl

theorem textsApart_of_keepsSpec :
    TextsApart platform effective ↔ TextsApart platform (document.named effective.metadata.name) := by
  have hname : effective.metadata.name = (document.named effective.metadata.name).metadata.name := rfl
  have hplaced := placedServices_of_keepsSpec h
  have hvolumes := volumeItems_of_keepsSpec h
  have haliases := aliasPairs_of_keepsSpec h
  have hall := allPlaced_of_keepsSpec h
  constructor <;> rintro ⟨services, volumes, aliases, manifest⟩
  · rw [hall, text_congr platform _ hname] at manifest
    rw [haliases, pairText_congr _ hname] at aliases
    simp only [hplaced, text_congr platform _ hname] at services
    simp only [hvolumes, pairText_congr _ hname] at volumes
    exact ⟨services, volumes, aliases, manifest⟩
  · refine ⟨?_, ?_, ?_, ?_⟩
    · simp only [hplaced, text_congr platform _ hname]
      exact services
    · simp only [hvolumes, pairText_congr _ hname]
      exact volumes
    · rw [haliases, pairText_congr _ hname]
      exact aliases
    · rw [hall, text_congr platform _ hname]
      exact manifest

theorem nothingOverwritten_of_keepsSpec (plan : Plan) :
    NothingOverwritten platform effective plan ↔
      NothingOverwritten platform (document.named effective.metadata.name) plan := by
  have hname : effective.metadata.name = (document.named effective.metadata.name).metadata.name := rfl
  have hplaced := placedServices_of_keepsSpec h
  have hvolumes := volumeItems_of_keepsSpec h
  have haliases := aliasPairs_of_keepsSpec h
  have hall := allPlaced_of_keepsSpec h
  constructor <;> rintro ⟨services, volumes, remoteServices, remoteVolumes, aliases, manifest⟩
  · rw [hplaced] at services
    rw [hvolumes] at volumes
    simp only [hplaced] at remoteServices
    simp only [hvolumes] at remoteVolumes
    rw [haliases] at aliases
    rw [hall, composeName_congr platform hname] at manifest
    exact ⟨services, volumes, remoteServices, remoteVolumes, aliases, manifest⟩
  · refine ⟨?_, ?_, ?_, ?_, ?_, ?_⟩
    · rw [hplaced]
      exact services
    · rw [hvolumes]
      exact volumes
    · simp only [hplaced]
      exact remoteServices
    · simp only [hvolumes]
      exact remoteVolumes
    · rw [haliases]
      exact aliases
    · rw [hall, composeName_congr platform hname]
      exact manifest

end Named

end Items

/-! ### Projects -/

section Projects

variable {platform : Platform} {bundle : Bundle} {devices : Devices} {groups : ResolvedGroups}
  {overlay : Option OverlayResolution} {resourceHash : String} {outputs : List InstanceOutput}

/-- A list has as many different names as entries exactly where the names differ. -/
theorem length_dedup_map_eq_iff {α : Type} (f : α → String) (l : List α) :
    (l.map f).dedup.length = l.length ↔ l.Pairwise fun x y => f x ≠ f y := by
  rw [← List.length_map f, (List.dedup_sublist _).length_eq, List.dedup_eq_self, List.Nodup, List.pairwise_map]

/-- A list has as many different names as different entries exactly where different entries
have different names. -/
theorem length_dedup_map_eq_dedup_iff {α : Type} [DecidableEq α] (f : α → String) (l : List α) :
    (l.map f).dedup.length = l.dedup.length ↔ ∀ x ∈ l, ∀ y ∈ l, x ≠ y → f x ≠ f y := by
  have himage : (l.map f).toFinset = l.toFinset.image f := by
    ext name
    simp
  rw [← List.card_toFinset, ← List.card_toFinset, himage, Finset.card_image_iff]
  simp only [Set.InjOn, Finset.mem_coe, List.mem_toFinset, ne_eq, not_imp_not]

theorem volumes_of_validate (houtputs : instanceOutputs platform bundle groups overlay devices resourceHash = .ok outputs)
    (device : Option String) :
    ((outputs.filter fun output => output.inst.remoteDevice = device).flatMap (·.volumes)).map Prod.fst =
      (volumeItems bundle.document.spec device).map fun pair => nameOfText platform (pairText bundle.document pair) := by
  have hfilter : ((runInstances bundle.document.spec).filter fun inst => decide (inst.remoteDevice = device)) =
      bundle.document.spec.instances.filter fun inst => !inst.isExternal && inst.remoteDevice = device := by
    rw [runInstances, List.filter_filter]
    exact List.filter_congr fun inst _ => Bool.and_comm ..
  rw [volumeItems, hfilter, List.map_flatMap, List.map_flatMap, List.flatMap_def, List.flatMap_def]
  refine congrArg List.flatten (map_eq_of_forall₂ (forall₂_run_on houtputs device).flip fun output inst hrun => ?_)
  have houtput := hrun.2
  unfold instanceOutput at houtput
  split at houtput
  · rename_i block source hblock _
    cases houtput
    rw [instanceVolumes, hblock, Option.toList_some, List.flatMap_cons, List.flatMap_nil, List.append_nil,
      List.map_flatMap, List.map_flatMap]
    refine List.flatMap_congr fun entry _ => ?_
    rw [serviceVolumes, List.map_map, List.map_map]
    exact List.map_congr_left fun volume _ => resourceName_eq platform _
  · cases houtput
  · cases houtput

/-- The services of the project of a device, kept where their texts are apart. -/
theorem services_kept_iff (hdigests : DigestsDiffer platform (nameTexts platform bundle.document)) {device : Option String}
    (h : Outputs platform bundle.document device outputs) (project network : String) (labels : SortedMap String String) :
    (namesUnder "services" (composeFile project network labels outputs)).length =
        (placedServices bundle.document.spec device).length ↔
      (placedServices bundle.document.spec device).Pairwise fun x y =>
        Apart platform (x.text platform bundle.document) (y.text platform bundle.document) := by
  have hnames : (outputs.flatMap (·.services)).map Prod.fst =
      (placedServices bundle.document.spec device).map (PlacedService.composeName platform bundle.document) :=
    (map_eq_of_forall₂ h.services fun placed entry his => his.name.symm).symm
  have htext : ∀ placed ∈ placedServices bundle.document.spec device,
      placed.text platform bundle.document ∈ nameTexts platform bundle.document := by
    intro placed hplaced
    obtain ⟨inst, hinst, hplaced⟩ := List.mem_flatMap.mp hplaced
    obtain ⟨hmem, hrun⟩ := List.mem_filter.mp hinst
    refine List.mem_append_left _ (List.mem_map.mpr ⟨placed, List.mem_flatMap.mpr ⟨inst, ?_, hplaced⟩, rfl⟩)
    exact List.mem_filter.mpr ⟨hmem, (Bool.and_eq_true_iff.mp hrun).1⟩
  rw [namesUnder, (field_composeFile project network labels outputs).1]
  refine Iff.trans ?_ ((length_dedup_map_eq_iff (PlacedService.composeName platform bundle.document) _).trans
    (List.Pairwise.iff_of_mem fun {x y} hx hy => ?_))
  · rw [← hnames, ← length_keys_ofList]
    rfl
  · rw [composeName_eq, composeName_eq, nameOfText_ne_iff hdigests (htext x hx) (htext y hy)]

/-- The volumes of the project of a device, kept where their texts are apart. -/
theorem volumes_kept_iff (hdigests : DigestsDiffer platform (nameTexts platform bundle.document)) (device : Option String)
    (houtputs : instanceOutputs platform bundle groups overlay devices resourceHash = .ok outputs)
    (project network : String) (labels : SortedMap String String) :
    (namesUnder "volumes" (composeFile project network labels
        (outputs.filter fun output => output.inst.remoteDevice = device))).length =
        (volumeItems bundle.document.spec device).dedup.length ↔
      ∀ x ∈ volumeItems bundle.document.spec device, ∀ y ∈ volumeItems bundle.document.spec device, x ≠ y →
        Apart platform (pairText bundle.document x) (pairText bundle.document y) := by
  have htext : ∀ pair ∈ volumeItems bundle.document.spec device,
      pairText bundle.document pair ∈ nameTexts platform bundle.document := by
    intro pair hpair
    obtain ⟨inst, hinst, hpair⟩ := List.mem_flatMap.mp hpair
    refine List.mem_append_right _ (List.mem_append_right _ (List.mem_map.mpr ⟨pair, ?_, rfl⟩))
    exact List.mem_flatMap.mpr ⟨inst, (List.mem_filter.mp hinst).1, hpair⟩
  rw [namesUnder, (field_composeFile project network labels _).2.1]
  refine Iff.trans ?_ ((length_dedup_map_eq_dedup_iff (fun pair => nameOfText platform (pairText bundle.document pair))
    (volumeItems bundle.document.spec device)).trans ?_)
  · rw [← volumes_of_validate houtputs device, ← length_keys_ofList]
    rfl
  · refine forall₂_congr fun x hx => forall₂_congr fun y hy => imp_congr_right fun _ => ?_
    exact nameOfText_ne_iff hdigests (htext x hx) (htext y hy)

/-- A device with a volume has a service. -/
theorem placed_of_volume {spec : DeploymentSpec} {device : Option String} {pair : String × String}
    (h : pair ∈ volumeItems spec device) : placedServices spec device ≠ [] := by
  obtain ⟨inst, hinst, hpair⟩ := List.mem_flatMap.mp h
  obtain ⟨hrun, hdevice⟩ := List.mem_filter.mp hinst
  obtain ⟨hmem, hmanaged⟩ := List.mem_filter.mp hrun
  obtain ⟨block, hblock, hpair⟩ := List.mem_flatMap.mp hpair
  obtain ⟨entry, hentry, -⟩ := List.mem_flatMap.mp hpair
  have happlication : PlacedService.application inst.name
      (inst.remoteDevice.isNone && (routedOf spec).contains inst.name) entry.1 entry.2 ∈ instancePlaced spec inst := by
    refine List.mem_flatMap.mpr ⟨block, hblock, ?_⟩
    dsimp only
    split_ifs with hrouted
    · exact List.mem_append_left _ (List.mem_cons_of_mem _ (List.mem_map.mpr ⟨entry, hentry, rfl⟩))
    · exact List.mem_map.mpr ⟨entry, hentry, rfl⟩
  refine List.ne_nil_of_mem (List.mem_flatMap.mpr ⟨inst, List.mem_filter.mpr ⟨hmem, ?_⟩, happlication⟩)
  rw [hmanaged, hdevice]
  rfl

end Projects

/-! ### Plans -/

/-- **When nothing is overwritten.** Where the starts of digests tell the long texts of a
deployment apart, a plan keeps everything that it generates exactly where the texts of
different resources are apart. -/
theorem nothing_overwritten_iff (host : Host) (bundle : Bundle) (options : OverlayOptions) (devices : Devices) (plan : Plan)
    (hplan : planWithOverlaysAndDevices host bundle options devices = .ok plan) (name : String)
    (hname : variationName bundle.document.metadata.name options.variation = .ok name)
    (hdigests : DigestsDiffer host.toPlatform (nameTexts host.toPlatform (bundle.document.named name))) :
    NothingOverwritten host.toPlatform (bundle.document.named name) plan ↔
      TextsApart host.toPlatform (bundle.document.named name) := by
  obtain ⟨e, groups, he, hvalid, hgenerate⟩ := planWithOverlaysAndDevices_ok hplan
  obtain rfl := Except.ok.inj ((name_effective he).symm.trans hname)
  have hkeeps := keepsSpec he
  rw [← nameTexts_of_keepsSpec host.toPlatform hkeeps] at hdigests
  rw [← nothingOverwritten_of_keepsSpec host.toPlatform hkeeps, ← textsApart_of_keepsSpec host.toPlatform hkeeps]
  obtain ⟨profiles, config, probes, outputs, remotes, -, -, -, houtputs, hremotes, rfl⟩ := generate_ok_iff.mp hgenerate
  have hlocal : localOutputs outputs = outputs.filter fun output => output.inst.remoteDevice = none := by
    refine List.filter_congr fun output _ => ?_
    cases output.inst.remoteDevice <;> rfl
  have hservices := fun device => services_kept_iff hdigests (outputs_of_validate hvalid houtputs device)
  have hvolumes := fun device => volumes_kept_iff hdigests device houtputs
  have hremote : ∀ entry ∈ remotes.entries, ∃ project network labels, entry.2.compose =
      composeFile project network labels (outputs.filter fun output => output.inst.remoteDevice = some entry.1) := by
    intro entry hentry
    obtain ⟨device, -, hproject⟩ := (mem_remoteProjects hremotes entry).mp hentry
    obtain ⟨rfl, project, labels, hcompose⟩ := remoteProject_ok hproject
    exact ⟨project, _, labels, hcompose⟩
  -- a device whose services or volumes could be overwritten is given a project
  have hproject : ∀ device, placedServices e.bundle.document.spec (some device) ≠ [] →
      ∃ entry ∈ remotes.entries, entry.1 = device := by
    intro device hplaced
    have hused := mem_usedDevices (outputs_of_validate hvalid houtputs (some device)) hplaced
    obtain ⟨projects, hprojects, -⟩ := bind_eq_ok_iff.mp hremotes
    obtain ⟨entry, hentry⟩ := exists_ok_of_mapM_ok hprojects hused
    exact ⟨entry, (mem_remoteProjects hremotes entry).mpr ⟨device, hused, hentry⟩, (remoteProject_ok hentry).1⟩
  have haliasText : ∀ pair ∈ aliasPairs e.bundle.document.spec,
      pairText e.bundle.document pair ∈ nameTexts host.toPlatform e.bundle.document := fun pair hpair =>
    List.mem_append_right _ (List.mem_append_left _ (List.mem_map.mpr ⟨pair, hpair, rfl⟩))
  have hplacedText : ∀ placed ∈ allPlaced e.bundle.document.spec,
      placed.text host.toPlatform e.bundle.document ∈ nameTexts host.toPlatform e.bundle.document := fun placed hplaced =>
    List.mem_append_left _ (List.mem_map.mpr ⟨placed, hplaced, rfl⟩)
  have haliases : ∀ x ∈ aliasPairs e.bundle.document.spec, ∀ y ∈ aliasPairs e.bundle.document.spec,
      (serviceNameFor host.toPlatform e.bundle.document.metadata.name x.1 x.2 ≠
        serviceNameFor host.toPlatform e.bundle.document.metadata.name y.1 y.2 ↔
      Apart host.toPlatform (pairText e.bundle.document x) (pairText e.bundle.document y)) := by
    intro x hx y hy
    rw [serviceNameFor, serviceNameFor, resourceName_eq, resourceName_eq]
    exact nameOfText_ne_iff hdigests (haliasText x hx) (haliasText y hy)
  have hmanifest : ∀ x ∈ allPlaced e.bundle.document.spec, ∀ y ∈ allPlaced e.bundle.document.spec,
      (x.composeName host.toPlatform e.bundle.document ≠ y.composeName host.toPlatform e.bundle.document ↔
        Apart host.toPlatform (x.text host.toPlatform e.bundle.document) (y.text host.toPlatform e.bundle.document)) := by
    intro x hx y hy
    rw [composeName_eq, composeName_eq]
    exact nameOfText_ne_iff hdigests (hplacedText x hx) (hplacedText y hy)
  have hcompose : (assemblePlan host.toPlatform e.bundle e.overlay devices profiles config probes outputs remotes).compose =
      composeFile (projectName host.toPlatform e.bundle.document.metadata.name)
        (networkName host.toPlatform e.bundle.document.metadata.name)
        (ownershipLabels e.bundle.document.metadata.name (resourceHashOf host.toPlatform e.bundle.document e.overlay devices))
        (outputs.filter fun output => output.inst.remoteDevice = none) := by
    rw [← hlocal]
    rfl
  constructor
  · intro h
    refine ⟨fun device => ?_, fun device => ?_, fun x hx y hy hne => ?_, fun x hx y hy hxs hys hne => ?_⟩
    · cases device with
      | none => exact (hservices none _ _ _).mp (hcompose ▸ h.services)
      | some device =>
        by_cases hplaced : placedServices e.bundle.document.spec (some device) = []
        · rw [hplaced]
          exact List.Pairwise.nil
        · obtain ⟨entry, hentry, rfl⟩ := hproject device hplaced
          obtain ⟨project, network, labels, hfile⟩ := hremote entry hentry
          exact (hservices (some entry.1) project network labels).mp (hfile ▸ h.remoteServices entry hentry)
    · cases device with
      | none => exact (hvolumes none _ _ _).mp (hcompose ▸ h.volumes)
      | some device =>
        by_cases hplaced : placedServices e.bundle.document.spec (some device) = []
        · intro x hx
          exact absurd hplaced (placed_of_volume hx)
        · obtain ⟨entry, hentry, rfl⟩ := hproject device hplaced
          obtain ⟨project, network, labels, hfile⟩ := hremote entry hentry
          exact (hvolumes (some entry.1) project network labels).mp (hfile ▸ h.remoteVolumes entry hentry)
    · exact (haliases x hx y hy).mp (h.aliases x hx y hy hne)
    · exact (hmanifest x hx y hy).mp (h.manifest x hx y hy hxs hys hne)
  · intro h
    refine ⟨?_, ?_, fun entry hentry => ?_, fun entry hentry => ?_, fun x hx y hy hne => ?_,
      fun x hx y hy hxs hys hne => ?_⟩
    · rw [hcompose]
      exact (hservices none _ _ _).mpr (h.services none)
    · rw [hcompose]
      exact (hvolumes none _ _ _).mpr (h.volumes none)
    · obtain ⟨project, network, labels, hfile⟩ := hremote entry hentry
      rw [hfile]
      exact (hservices (some entry.1) project network labels).mpr (h.services (some entry.1))
    · obtain ⟨project, network, labels, hfile⟩ := hremote entry hentry
      rw [hfile]
      exact (hvolumes (some entry.1) project network labels).mpr (h.volumes (some entry.1))
    · exact (haliases x hx y hy).mpr (h.aliases x hx y hy hne)
    · exact (hmanifest x hx y hy).mpr (h.manifest x hx y hy hxs hys hne)

/-- Two web servers of different blocks, whose instances and services have these names. -/
def namedBundle (first second firstService secondService : String) : Bundle :=
  shopBundle.withDocument (shopBundle.document.withSpec { shopBundle.document.spec with
    blocks := .ofList [("one", ⟨∅, .ofList ((webBlock.services.get? "ui").toList.map (firstService, ·))⟩),
      ("two", ⟨∅, .ofList ((webBlock.services.get? "ui").toList.map (secondService, ·))⟩)]
    instances := [{ webInstance first none with block := "one" }, { webInstance second none with block := "two" }]
    groups := ∅ })

/-- The service `b--c` of `a` and the service `c` of `a--b` are given one name, and the plan
has one service. -/
theorem joined_names_overwrite :
    ∃ plan, planWithOverlaysAndDevices shopHost (namedBundle "a" "a--b" "b--c" "c") OverlayOptions.none ∅ = .ok plan ∧
      namesUnder "services" plan.compose = ["shop--a--b--c"] ∧
      (placedServices (namedBundle "a" "a--b" "b--c" "c").document.spec none).length = 2 ∧
      ¬NothingOverwritten shopHost.toPlatform ((namedBundle "a" "a--b" "b--c" "c").document.named "shop") plan := by
  have hrun : (planWithOverlaysAndDevices shopHost (namedBundle "a" "a--b" "b--c" "c") OverlayOptions.none ∅).toOption.map
      (fun plan => namesUnder "services" plan.compose) = some ["shop--a--b--c"] := by decide +kernel
  obtain ⟨plan, hplan, hservices⟩ := exists_ok_of_toOption hrun
  have hplaced : (placedServices (namedBundle "a" "a--b" "b--c" "c").document.spec none).length = 2 := by decide +kernel
  refine ⟨plan, hplan, hservices, hplaced, fun h => ?_⟩
  have hlength := h.services
  rw [hservices] at hlength
  exact absurd (hlength.trans hplaced) (by decide)

/-- Services of instances whose names are apart are all kept. -/
theorem plain_names_kept :
    ∃ plan, planWithOverlaysAndDevices shopHost (namedBundle "a" "b" "web" "api") OverlayOptions.none ∅ = .ok plan ∧
      namesUnder "services" plan.compose = ["shop--a--web", "shop--b--api"] ∧
      NothingOverwritten shopHost.toPlatform ((namedBundle "a" "b" "web" "api").document.named "shop") plan := by
  have hrun : (planWithOverlaysAndDevices shopHost (namedBundle "a" "b" "web" "api") OverlayOptions.none ∅).toOption.map
      (fun plan => namesUnder "services" plan.compose) = some ["shop--a--web", "shop--b--api"] := by decide +kernel
  obtain ⟨plan, hplan, hservices⟩ := exists_ok_of_toOption hrun
  refine ⟨plan, hplan, hservices, (nothing_overwritten_iff shopHost (namedBundle "a" "b" "web" "api") OverlayOptions.none ∅
    plan hplan "shop" rfl ?_).mpr ?_⟩
  · have hshort : ∀ text ∈ nameTexts shopHost.toPlatform ((namedBundle "a" "b" "web" "api").document.named "shop"),
        byteLength text ≤ 63 := by decide +kernel
    intro text htext _ _ hlong
    exact absurd (hshort text htext) (Nat.not_le.mpr hlong)
  · refine ⟨fun device => ?_, fun device => ?_, by decide +kernel, by decide +kernel⟩
    · cases device with
      | none => decide +kernel
      | some device => exact List.Pairwise.nil
    · have hnone : volumeItems ((namedBundle "a" "b" "web" "api").document.named "shop").spec device = [] := by
        cases device with
        | none => decide +kernel
        | some device => rfl
      intro x hx
      rw [hnone] at hx
      cases hx

end Apmpr.Planner
