import Apmpr.Planner.Layers

/-!
# What a plan is generated from

The outputs of the instances that are run, and the Compose projects that are made of them
(`GeneratedFrom`). Whatever options a bundle is planned with, its effective document keeps
the blocks, the sources, the groups, and of every instance all but its parameters and
environment (`KeepsSpec`), so groups are resolved and instances are routed as in the bundle
itself.
-/

namespace Apmpr.Planner

/-! ### Valid instances -/

section Valid

variable {platform : Platform} {bundle : Bundle} {devices : Devices} {groups : ResolvedGroups}

theorem nodup_of_allInstanceErrors {earlier instances : List Instance}
    (h : allInstanceErrors platform bundle devices earlier instances = []) :
    (instanceNames instances).Nodup ∧ ∀ inst ∈ instances, inst.name ∉ instanceNames earlier := by
  induction instances generalizing earlier with
  | nil => exact ⟨List.nodup_nil, fun _ hinst => absurd hinst List.not_mem_nil⟩
  | cons first rest ih =>
    obtain ⟨hfirst, hrest⟩ := List.append_eq_nil_iff.mp h
    obtain ⟨hnodup, hfresh⟩ := ih hrest
    rw [instanceErrors, List.append_eq_nil_iff, List.append_eq_nil_iff, reportIf_eq_nil] at hfirst
    have hnew : first.name ∉ instanceNames earlier := by
      intro hmem
      obtain ⟨other, hother, hname⟩ := List.mem_map.mp hmem
      exact absurd hfirst.1.2 (by simpa using ⟨other, hother, hname⟩)
    have hsplit : ∀ inst ∈ rest, inst.name ∉ instanceNames earlier ∧ inst.name ≠ first.name := by
      intro inst hinst
      have := hfresh inst hinst
      simpa [instanceNames] using this
    refine ⟨nodup_instanceNames_cons.mpr ⟨fun hmem => ?_, hnodup⟩, fun inst hinst => ?_⟩
    · obtain ⟨inst, hinst, hname⟩ := List.mem_map.mp hmem
      exact (hsplit inst hinst).2 hname
    · rcases List.mem_cons.mp hinst with rfl | hinst
      · exact hnew
      · exact (hsplit inst hinst).1

/-- The instances of a valid bundle have different names. -/
theorem nodup_of_validate (h : validate platform bundle devices = .ok groups) :
    (instanceNames bundle.document.spec.instances).Nodup :=
  (nodup_of_allInstanceErrors (List.append_eq_nil_iff.mp (validate_ok_iff.mp h).2.1).2).1

theorem validName_of_validateName {name path : String} (h : validateName name path = []) : validName name = true := by
  rw [validateName] at h
  split_ifs at h with hvalid
  exact hvalid

/-- The blocks of a valid bundle pass their checks. -/
theorem blockErrors_of_validate (h : validate platform bundle devices = .ok groups) {name : String} {block : Block}
    (hblock : bundle.document.spec.blocks.get? name = some block) : blockErrors platform (name, block) = [] := by
  obtain ⟨-, hresources, -⟩ := validate_ok_iff.mp h
  obtain ⟨hblocks, -⟩ := List.append_eq_nil_iff.mp hresources
  exact List.flatMap_eq_nil_iff.mp (List.append_eq_nil_iff.mp hblocks).2 (name, block)
    ((SortedMap.mem_entries_iff _).mpr hblock)

/-- Looking an instance of a valid bundle up by its name finds it. -/
theorem get?_instanceMap_iff {spec : DeploymentSpec} (hnodup : (instanceNames spec.instances).Nodup) {name : String} {inst : Instance} :
    (instanceMap spec).get? name = some inst ↔ inst ∈ spec.instances ∧ inst.name = name := by
  have hinj := List.inj_on_of_nodup_map hnodup
  rw [instanceMap, SortedMap.get?_ofList_iff]
  · constructor
    · intro hmem
      obtain ⟨other, hother, heq⟩ := List.mem_map.mp hmem
      obtain ⟨hname, rfl⟩ := Prod.mk.inj heq
      exact ⟨hother, hname⟩
    · rintro ⟨hmem, rfl⟩
      exact List.mem_map.mpr ⟨inst, hmem, rfl⟩
  · intro k x y hx hy
    obtain ⟨i, hi, heq⟩ := List.mem_map.mp hx
    obtain ⟨rfl, rfl⟩ := Prod.mk.inj heq
    obtain ⟨j, hj, heq⟩ := List.mem_map.mp hy
    obtain ⟨hname, rfl⟩ := Prod.mk.inj heq
    exact hinj hi hj hname.symm

end Valid

/-! ### Effective documents -/

section Effective

variable {host : Host} {bundle : Bundle} {options : OverlayOptions} {e : Effective}

/-- What overlays, variations and host routing leave of a document. -/
structure KeepsSpec (document effective : Document) : Prop where
  blocks : effective.spec.blocks = document.spec.blocks
  sources : effective.spec.sources = document.spec.sources
  groups : effective.spec.groups = document.spec.groups
  routerImage : effective.spec.routerImage = document.spec.routerImage
  instances : effective.spec.instances.map strippedInstance = document.spec.instances.map strippedInstance

theorem resolve_document {platform : Platform} {document resolved : Document} {overlays : List Overlay}
    {resolution : OverlayResolution} (h : resolve platform document overlays options = .ok (resolved, resolution)) :
    ∃ name hostRouter, variationName document.metadata.name options.variation = .ok name ∧
      resolution.files = (foldLayers platform document overlays options).files ∧
      resolved = { document with
        metadata := { document.metadata with name := name }
        spec := { document.spec with
          overlays := []
          resolvedOverlayFiles := resolvedOverlayFiles resolution.files
          instances := (foldLayers platform document overlays options).instances
          hostRouter := hostRouter } } := by
  unfold resolve at h
  dsimp only at h
  cases hname : variationName document.metadata.name options.variation with
  | error d =>
    rw [hname] at h
    cases h
  | ok name =>
    rw [hname] at h
    dsimp only at h
    split_ifs at h <;>
      obtain ⟨rfl, rfl⟩ := Prod.mk.inj (Except.ok.inj h) <;>
      exact ⟨name, _, rfl, rfl, rfl⟩

/-- What planning with overlays, a variation or values of the command line resolves. -/
structure Overlaid (host : Host) (bundle : Bundle) (options : OverlayOptions) (e : Effective) (resolved : Document)
    (resolution : OverlayResolution) : Prop where
  loaded : (loadOverlays host bundle options).2 = []
  resolves : resolve host.toPlatform bundle.document (loadOverlays host bundle options).1 options
    = .ok (resolved, resolution)
  derived : withDerivedHostRouting host.toPlatform resolved = .ok e.bundle.document
  overlay : e.overlay = some { resolution with origins := resolution.origins.mergeSort originBefore }

theorem exists_overlaid (hplain : isPlain bundle options = false) (h : effective host bundle options = .ok e) :
    ∃ resolved resolution, Overlaid host bundle options e resolved resolution := by
  rw [effective, hplain, if_neg Bool.false_ne_true, effectiveOverlaid] at h
  split_ifs at h with hloaded
  split at h
  · cases h
  · rename_i resolved resolution hresolve
    obtain ⟨derived, hderived, h⟩ := bind_eq_ok_iff.mp h
    cases h
    exact ⟨resolved, resolution, by simpa using hloaded, hresolve, hderived, rfl⟩

theorem keepsSpec (h : effective host bundle options = .ok e) : KeepsSpec bundle.document e.bundle.document := by
  cases hplain : isPlain bundle options with
  | true =>
    rw [effective, if_pos hplain] at h
    obtain ⟨_, _, hspec⟩ := spec_of_withDerivedHostRouting (madeEffective_of_plain h).1
    rw [hspec]
    exact ⟨rfl, rfl, rfl, rfl, rfl⟩
  | false =>
    obtain ⟨resolved, resolution, hoverlaid⟩ := exists_overlaid hplain h
    obtain ⟨_, _, hspec⟩ := spec_of_withDerivedHostRouting hoverlaid.derived
    obtain ⟨_, _, -, -, hresolved⟩ := resolve_document hoverlaid.resolves
    rw [hspec, hresolved]
    exact ⟨rfl, rfl, rfl, rfl, stripped_foldLayers ..⟩

theorem workspaceRoot_effective (h : effective host bundle options = .ok e) :
    e.bundle.workspaceRoot = bundle.workspaceRoot ∧ e.bundle.definitionDir = bundle.definitionDir := by
  obtain ⟨document, hmade⟩ := madeEffective h
  rw [hmade.bundle_eq]
  exact ⟨rfl, rfl⟩

end Effective

/-! ### Groups -/

section Groups

variable {document effective : Document}

theorem get?_instanceMap_stripped (spec : DeploymentSpec) (name : String) :
    ((instanceMap spec).get? name).map strippedInstance =
      (atKey name ((spec.instances.map strippedInstance).map fun inst => (inst.name, inst))).getLast? := by
  rw [instanceMap, SortedMap.ofList, get?_insertAll, SortedMap.get?_empty, Option.or_none, ← List.getLast?_map,
    ← atKey_map, List.map_map, List.map_map]
  rfl

theorem get?_instanceMap_of_keepsSpec (h : KeepsSpec document effective) (name : String) :
    ((instanceMap effective.spec).get? name).map strippedInstance =
      ((instanceMap document.spec).get? name).map strippedInstance := by
  rw [get?_instanceMap_stripped, get?_instanceMap_stripped, h.instances]

theorem scanMember_of_keepsSpec (h : KeepsSpec document effective) (group : String) (scan : GroupScan)
    (entry : String × ℕ) : scanMember effective.spec group scan entry = scanMember document.spec group scan entry := by
  have hget := get?_instanceMap_of_keepsSpec h (memberInstance entry.1)
  unfold scanMember
  dsimp only
  cases hold : (instanceMap document.spec).get? (memberInstance entry.1) with
  | none =>
    rw [hold, Option.map_none, Option.map_eq_none_iff] at hget
    rw [hget]
  | some inst =>
    rw [hold, Option.map_some, Option.map_eq_some_iff] at hget
    obtain ⟨inst', hnew, hsame⟩ := hget
    have hexternal : (strippedInstance inst').isExternal = (strippedInstance inst).isExternal := by rw [hsame]
    have hblock : (strippedInstance inst').block = (strippedInstance inst).block := by rw [hsame]
    rw [hnew]
    dsimp only
    rw [show inst'.isExternal = inst.isExternal from hexternal, show inst'.block = inst.block from hblock, h.blocks]

/-- Groups are resolved as in the bundle itself. -/
theorem resolveGroups_of_keepsSpec (h : KeepsSpec document effective) :
    resolveGroups effective.spec = resolveGroups document.spec := by
  have hmember : scanMember effective.spec = scanMember document.spec := by
    funext group scan entry
    exact scanMember_of_keepsSpec h group scan entry
  have hgroup : scanGroup effective.spec = scanGroup document.spec := by
    funext state entry
    unfold scanGroup
    rw [hmember]
  unfold resolveGroups
  rw [hgroup, h.groups]

theorem routedInstances_of_keepsSpec (h : KeepsSpec document effective) (groups : ResolvedGroups) :
    routedInstances effective.spec groups = routedInstances document.spec groups := by
  have hstripped : ∀ spec : DeploymentSpec, routedInstances spec groups =
      ((spec.instances.map strippedInstance).filter fun inst =>
        !inst.isExternal && inst.remoteDevice.isNone && isTransparent groups inst.name).map (·.name) := by
    intro spec
    rw [List.filter_map, List.map_map]
    rfl
  rw [hstripped, hstripped, h.instances]

end Groups

/-! ### Outputs -/

section Outputs

variable {host : Host} {bundle : Bundle} {options : OverlayOptions} {devices : Devices} {plan : Plan}

/-- The outputs of the instances, as planning generates them. -/
def plannedOutputs (host : Host) (bundle : Bundle) (options : OverlayOptions) (devices : Devices) :
    Except Failure (List InstanceOutput) := do
  let e ← effective host bundle options
  let groups ← validate host.toPlatform e.bundle devices
  instanceOutputs host.toPlatform e.bundle groups e.overlay devices
    (resourceHashOf host.toPlatform e.bundle.document e.overlay devices)

/-- The Compose projects of a plan are made of these outputs. -/
structure GeneratedFrom (host : Host) (bundle : Bundle) (options : OverlayOptions) (devices : Devices) (plan : Plan)
    (outputs : List InstanceOutput) : Prop where
  planned : plannedOutputs host bundle options devices = .ok outputs
  compose : plan.compose = localCompose host.toPlatform plan.deployment plan.resourceHash outputs
  remotes : remoteProjects host.toPlatform plan.deployment plan.resourceHash devices outputs
    = .ok plan.remoteProjects

theorem plannedOutputs_ok {outputs : List InstanceOutput}
    (h : plannedOutputs host bundle options devices = .ok outputs) :
    ∃ e groups, effective host bundle options = .ok e ∧ validate host.toPlatform e.bundle devices = .ok groups ∧
      instanceOutputs host.toPlatform e.bundle groups e.overlay devices
        (resourceHashOf host.toPlatform e.bundle.document e.overlay devices) = .ok outputs := by
  obtain ⟨e, he, h⟩ := bind_eq_ok_iff.mp h
  obtain ⟨groups, hgroups, h⟩ := bind_eq_ok_iff.mp h
  exact ⟨e, groups, he, hgroups, h⟩

/-- Every plan is generated from outputs. -/
theorem exists_generatedFrom (h : planWithOverlaysAndDevices host bundle options devices = .ok plan) :
    ∃ outputs, GeneratedFrom host bundle options devices plan outputs := by
  obtain ⟨e, groups, he, hgroups, hgenerate⟩ := planWithOverlaysAndDevices_ok h
  obtain ⟨profiles, config, probes, outputs, remotes, -, -, -, houtputs, hremotes, rfl⟩ := generate_ok_iff.mp hgenerate
  exact ⟨outputs, bind_eq_ok_iff.mpr ⟨e, he, bind_eq_ok_iff.mpr ⟨groups, hgroups, houtputs⟩⟩, rfl, hremotes⟩

/-- Planning without options is planning with none. -/
theorem planWithDevices_eq (host : Host) (bundle : Bundle) (devices : Devices) :
    planWithDevices host bundle devices = planWithOverlaysAndDevices host bundle OverlayOptions.none devices := by
  rw [planWithOverlaysAndDevices]
  split_ifs with hplain
  · rfl
  · rw [planWithDevices, if_neg]
    intro hempty
    refine hplain (Bool.and_eq_true_iff.mpr ⟨Bool.and_eq_true_iff.mpr ⟨?_, rfl⟩, rfl⟩)
    simpa [overlayPaths, OverlayOptions.none] using hempty

end Outputs

end Apmpr.Planner
