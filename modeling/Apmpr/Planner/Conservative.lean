import Apmpr.Planner.Outputs

/-!
# What overlays leave alone

Overlays, a variation and values of the command line are folded into the instances of a
deployment on a path of their own: the values of every instance are taken away, and put back
from a copy after the overlays. The unset list of an instance is taken away with them, and
nothing puts it back.

## What is proved

* `overlays_conservative_iff`: where no overlay has a value for an instance and the command
  line has none, the plan keeps the instance's parameters and environment, and its services
  are given the environment they have without options, exactly where nothing is folded in or
  the instance unsets no key.
* `variation_forgets_unset`: a variation alone brings back a key that the instance unsets.
-/

namespace Apmpr.Planner

/-! ### Environments of outputs -/

/-- The environments of the services of an instance, in order. -/
def InstanceOutput.environments (output : InstanceOutput) : List (Option Json) :=
  output.services.map fun service => service.2.field "environment"

/-- An environment with the name of another deployment. -/
def renamed (name : String) : Json → Json
  | .object fields => .object (fields.map fun (key, value) =>
      (key, if key = "APMPR_DEPLOYMENT" then .string name else value))
  | value => value

theorem renamed_ofMap (name : String) (m : SortedMap String Json) : renamed name (.ofMap m) =
    .ofMap (m.mapValues fun key value => if key = "APMPR_DEPLOYMENT" then .string name else value) := rfl

/-- The environment of a sidecar. -/
def sidecarEnvironment : Json :=
  .obj [("APMPR_ROUTER_TOKEN", .string "$\x7bAPMPR_ROUTER_TOKEN:?set APMPR_ROUTER_TOKEN\x7d")]

theorem renamed_sidecarEnvironment (name : String) : renamed name sidecarEnvironment = sidecarEnvironment := by
  rw [sidecarEnvironment, Json.obj, renamed_ofMap]
  rfl

theorem environment_composeNamespace (network : String) (labels : SortedMap String String) (ports : List U16)
    (aliases : List String) : (composeNamespace network labels ports aliases).field "environment" = none := by
  unfold composeNamespace
  dsimp only
  rw [Json.field_ofMap]
  split_ifs <;> simp [SortedMap.ofList]

theorem environment_composeSidecar (image namespaceService sidecar : String) (configPath : PathBuf)
    (labels : SortedMap String String) (transparent : Bool) :
    (composeSidecar image namespaceService sidecar configPath labels transparent).field "environment" =
      some sidecarEnvironment := by
  unfold composeSidecar
  dsimp only
  rw [Json.field_ofMap]
  split_ifs <;> simp [SortedMap.ofList, sidecarEnvironment]

section Services

variable (platform : Platform) (bundle : Bundle) (groups : ResolvedGroups) (overlay : Option OverlayResolution)
  (resourceHash : String) (block : Block) (inst : Instance) (source : PathBuf)

/-- Whether an instance is run here behind a router. -/
def runsRouted : Bool := inst.remoteDevice.isNone && (routedInstances bundle.document.spec groups).contains inst.name

/-- The environments of an instance's services: between a namespace and a sidecar where it is
routed. -/
theorem environments_instanceServices :
    (instanceServices platform bundle groups overlay resourceHash block inst source).map
        (fun service => service.2.field "environment") =
      let environments := block.services.entries.map fun entry =>
        some (Json.ofMap (generatedEnvironment bundle.document block inst platform overlay entry.2))
      if runsRouted bundle groups inst then none :: environments ++ [some sidecarEnvironment] else environments := by
  have hlocal : (block.services.entries.map
      (localService platform bundle groups overlay resourceHash block inst source)).map
        (fun service => service.2.field "environment") = block.services.entries.map fun entry =>
          some (Json.ofMap (generatedEnvironment bundle.document block inst platform overlay entry.2)) := by
    rw [List.map_map]
    refine List.map_congr_left fun entry _ => ?_
    exact environment_localService ..
  unfold instanceServices runsRouted
  cases inst.remoteDevice with
  | some device =>
    simp only [Option.isNone_some, Bool.false_and, Bool.false_eq_true, if_false, List.map_map]
    refine List.map_congr_left fun entry _ => ?_
    exact environment_remoteService ..
  | none =>
    simp only [Option.isNone_none, Bool.true_and]
    split_ifs
    · rw [List.map_append, List.map_cons, hlocal]
      congr 2
      · exact environment_composeNamespace ..
      · exact congrArg (fun environment => [environment]) (environment_composeSidecar ..)
    · exact hlocal

end Services

section Renamed

variable {platform : Platform} {document document' : Document} {overlay overlay' : Option OverlayResolution}

/-- Instances with the same values and without secrets are given the same environment, up to
the name of the deployment. -/
theorem generatedEnvironment_renamed {inst inst' : Instance} (hname : inst.name = inst'.name)
    (hparameters : inst.parameters = inst'.parameters) (henvironment : inst.environment = inst'.environment)
    (hunset : inst.environmentUnset = inst'.environmentUnset) (hsecret : ∀ key, isSecret overlay inst.name key = false)
    (hsecret' : ∀ key, isSecret overlay' inst.name key = false) (block : Block) (service : Service) :
    Json.ofMap (generatedEnvironment document block inst platform overlay service) =
      renamed document.metadata.name (.ofMap (generatedEnvironment document' block inst' platform overlay' service)) := by
  rw [renamed_ofMap]
  refine congrArg Json.ofMap (SortedMap.ext_get? fun key => ?_)
  rw [SortedMap.get?_mapValues, get?_generatedEnvironment, get?_generatedEnvironment, ← hname, hsecret, hsecret', hunset]
  simp only [Bool.false_eq_true, if_false]
  by_cases hcontains : inst'.environmentUnset.contains key = true
  · rw [if_pos hcontains, if_pos hcontains]
    rfl
  · rw [if_neg hcontains, if_neg hcontains]
    simp only [serviceEnvironment, SortedMap.get?_insert, hparameters, henvironment, hname]
    by_cases hkey : key = "APMPR_DEPLOYMENT"
    · have hinstance : ¬key = "APMPR_INSTANCE" := by
        rw [hkey]
        decide
      simp only [if_pos hkey, if_neg hinstance, Option.map_some]
    · simp only [if_neg hkey, Option.map_id']

end Renamed

/-! ### Overlays that say nothing of an instance -/

theorem Instance.eq_of_stripped {i j : Instance} (h : strippedInstance i = strippedInstance j)
    (hparameters : i.parameters = j.parameters) (henvironment : i.environment = j.environment)
    (hunset : i.environmentUnset = j.environmentUnset) : i = j := by
  have hrebuild : ∀ k : Instance, k = { strippedInstance k with
    parameters := k.parameters, environment := k.environment, environmentUnset := k.environmentUnset } := fun _ => rfl
  rw [hrebuild i, hrebuild j, h, hparameters, henvironment, hunset]

section Silent

/-- An overlay gives an instance nothing: it does not match it, or has no values for it. -/
def givesNothing (platform : Platform) (document : Document) (inst : Instance) (overlay : Overlay) : Prop :=
  (matchingInstances document overlay).contains inst.name = true →
    (loadEnvFiles platform overlay).1 = ∅ ∧ overlay.environment.unset = [] ∧ overlay.environment.set = ∅ ∧
      overlay.parameters = ∅

variable {platform : Platform} {document resolved : Document} {overlays : List Overlay} {options : OverlayOptions}
  {resolution : OverlayResolution} {index : ℕ} {inst : Instance}

/-- Where nothing else is said of an instance, it keeps its parameters and its environment,
and loses its unset list. -/
theorem resolve_of_givesNothing (hnodup : (instanceNames document.spec.instances).Nodup)
    (h : resolve platform document overlays options = .ok (resolved, resolution))
    (hinst : document.spec.instances[index]? = some inst)
    (hsilent : ∀ overlay ∈ overlays, givesNothing platform document inst overlay) (hset : options.set = ∅) :
    resolved.spec.instances[index]? = some { inst with environmentUnset := [] } ∧
      ∀ key, resolution.secretEnvironment.contains (toLex (inst.name, key)) = false := by
  obtain ⟨i, hi, hsame⟩ := exists_resolved h hinst
  have hmatched : ∀ overlay ∈ matchingOverlays document overlays inst.name, (loadEnvFiles platform overlay).1 = ∅ ∧
      overlay.environment.unset = [] ∧ overlay.environment.set = ∅ ∧ overlay.parameters = ∅ := by
    intro overlay hoverlay
    obtain ⟨hmem, hmatch⟩ := List.mem_filter.mp hoverlay
    exact hsilent overlay hmem hmatch
  have hlast : ∀ key, lastLayer platform document overlays options inst key =
      (inst.environment.get? key).map fun value => .set (.literal value) s!"deployment instance {inst.name}" := by
    intro key
    have hnone : (matchingOverlays document overlays inst.name).flatMap (overlayTouches platform) = [] := by
      refine List.flatMap_eq_nil_iff.mpr fun overlay hoverlay => ?_
      obtain ⟨hfiles, hunset, hsets, -⟩ := hmatched overlay hoverlay
      rw [overlayTouches, hfiles, hunset, hsets]
      rfl
    rw [← getLast?_of_resolve hnodup h hinst key, instanceTouches, hnone, List.nil_append, commandLineTouches, hset,
      show (∅ : SortedMap String String).entries = [] from rfl, List.map_nil, List.append_nil, authoredTouches,
      atKey_map key fun value => Touch.set (.literal value) s!"deployment instance {inst.name}", List.getLast?_map,
      atKey_entries]
    cases inst.environment.get? key <;> rfl
  have hparameters : (matchingOverlays document overlays inst.name).flatMap (·.parameters.entries) = [] := by
    refine List.flatMap_eq_nil_iff.mpr fun overlay hoverlay => ?_
    rw [(hmatched overlay hoverlay).2.2.2]
    rfl
  have hkeys := resolve_at_key hnodup h hinst hi
  refine ⟨?_, fun key => ?_⟩
  · rw [hi, Instance.eq_of_stripped (j := { inst with environmentUnset := [] }) hsame]
    · refine SortedMap.ext_get? fun key => ?_
      rw [(hkeys key).2.2.2, parameterLayers, hparameters, List.nil_append, atKey_entries]
      cases inst.parameters.get? key <;> rfl
    · refine SortedMap.ext_get? fun key => ?_
      rw [(hkeys key).1, hlast]
      cases inst.environment.get? key <;> rfl
    · refine List.eq_nil_iff_forall_not_mem.mpr fun key hmem => ?_
      have hcontains := (hkeys key).2.1
      rw [hlast, List.contains_iff_mem.mpr hmem] at hcontains
      cases hget : inst.environment.get? key <;> rw [hget] at hcontains <;> cases hcontains
  · rw [SortedMap.contains, (hkeys key).2.2.1, hlast]
    cases inst.environment.get? key <;> rfl

end Silent

/-! ### Plans -/

section Plans

variable {host : Host} {bundle : Bundle} {options : OverlayOptions} {devices : Devices} {plan : Plan} {e : Effective}
  {groups : ResolvedGroups} {index : ℕ} {inst : Instance}

theorem mem_loadOverlays_of_none (options : OverlayOptions) {overlay : Overlay}
    (h : overlay ∈ (loadOverlays host bundle OverlayOptions.none).1) : overlay ∈ (loadOverlays host bundle options).1 := by
  unfold loadOverlays overlayPaths at h ⊢
  simp only [OverlayOptions.none, List.map_nil, List.append_nil, List.map_append, List.filterMap_append,
    List.mem_append] at h ⊢
  exact Or.inl h

/-- The effective instance, where no overlay says anything of it. -/
theorem effective_of_givesNothing (he : effective host bundle options = .ok e)
    (hvalid : validate host.toPlatform e.bundle devices = .ok groups)
    (hinst : bundle.document.spec.instances[index]? = some inst)
    (hsilent : ∀ overlay ∈ (loadOverlays host bundle options).1,
      givesNothing host.toPlatform bundle.document inst overlay) (hset : options.set = ∅) :
    e.bundle.document.spec.instances[index]? =
        some (if isPlain bundle options then inst else { inst with environmentUnset := [] }) ∧
      ∀ key, isSecret e.overlay inst.name key = false := by
  cases hplain : isPlain bundle options with
  | true =>
    rw [effective, if_pos hplain] at he
    obtain ⟨hderived, -, hoverlay⟩ := madeEffective_of_plain he
    obtain ⟨_, _, hspec⟩ := spec_of_withDerivedHostRouting hderived
    rw [hspec, hoverlay]
    exact ⟨hinst, fun _ => rfl⟩
  | false =>
    have hnodup : (instanceNames bundle.document.spec.instances).Nodup := by
      rw [← instanceNames_of_stripped (keepsSpec he).instances]
      exact nodup_of_validate hvalid
    obtain ⟨resolved, resolution, hoverlaid⟩ := exists_overlaid hplain he
    obtain ⟨hkept, hsecret⟩ := resolve_of_givesNothing hnodup hoverlaid.resolves hinst hsilent hset
    obtain ⟨_, _, hspec⟩ := spec_of_withDerivedHostRouting hoverlaid.derived
    rw [hspec, hoverlaid.overlay]
    exact ⟨hkept, hsecret⟩

/-- The environments of an output of a plan. -/
theorem environments_of_mem {outputs : List InstanceOutput} {i : Instance}
    (hvalid : validate host.toPlatform e.bundle devices = .ok groups) {hash : String}
    (houtputs : instanceOutputs host.toPlatform e.bundle groups e.overlay devices hash = .ok outputs)
    (hi : e.bundle.document.spec.instances[index]? = some i) {output : InstanceOutput} (houtput : output ∈ outputs)
    (hname : output.inst.name = i.name) :
    ∃ block, e.bundle.document.spec.blocks.get? i.block = some block ∧ output.environments =
      let environments := block.services.entries.map fun entry =>
        some (Json.ofMap (generatedEnvironment e.bundle.document block i host.toPlatform e.overlay entry.2))
      if runsRouted e.bundle groups i then none :: environments ++ [some sidecarEnvironment] else environments := by
  obtain ⟨run, hrun, houtput⟩ := (mem_of_mapM_ok houtputs).mp houtput
  obtain rfl : run = i := by
    have hnodup := nodup_of_validate hvalid
    obtain ⟨place, hplace⟩ := List.mem_iff_getElem?.mp (List.mem_filter.mp hrun).1
    have hfound := instanceNamed_of_getElem? hnodup hplace
    rw [← inst_of_instanceOutput houtput, hname, instanceNamed_of_getElem? hnodup hi] at hfound
    rw [inst_of_instanceOutput houtput] at hfound
    exact (Option.some.inj hfound).symm
  unfold instanceOutput at houtput
  split at houtput
  · rename_i block source hblock _
    cases houtput
    exact ⟨block, hblock, environments_instanceServices ..⟩
  · cases houtput
  · cases houtput

/-- A plan keeps an instance: it has the parameters, the environment and the unset list it
was authored with, and its services are given the environment they have without options, up
to the deployment's name. -/
structure KeepsInstance (host : Host) (bundle : Bundle) (options : OverlayOptions) (devices : Devices) (plan : Plan)
    (index : ℕ) (inst : Instance) : Prop where
  values : ∃ i, plan.resolvedDeployment.spec.instances[index]? = some i ∧ i.parameters = inst.parameters ∧
    i.environment = inst.environment ∧ i.environmentUnset = inst.environmentUnset
  environments : ∀ plain outputs plainOutputs, planWithDevices host bundle devices = .ok plain →
    GeneratedFrom host bundle options devices plan outputs →
    GeneratedFrom host bundle OverlayOptions.none devices plain plainOutputs →
    ∀ output ∈ outputs, ∀ plainOutput ∈ plainOutputs, output.inst.name = inst.name →
      plainOutput.inst.name = inst.name →
      output.environments = plainOutput.environments.map (Option.map (renamed plan.deployment))

/-- The services of two plans of an instance that has the same values in both. -/
theorem environments_renamed {e' : Effective} {groups' : ResolvedGroups} {outputs outputs' : List InstanceOutput}
    {i i' : Instance} {hash hash' : String}
    (hkeeps : KeepsSpec bundle.document e.bundle.document) (hkeeps' : KeepsSpec bundle.document e'.bundle.document)
    (hvalid : validate host.toPlatform e.bundle devices = .ok groups)
    (hvalid' : validate host.toPlatform e'.bundle devices = .ok groups')
    (houtputs : instanceOutputs host.toPlatform e.bundle groups e.overlay devices hash = .ok outputs)
    (houtputs' : instanceOutputs host.toPlatform e'.bundle groups' e'.overlay devices hash' = .ok outputs')
    (hi : e.bundle.document.spec.instances[index]? = some i) (hi' : e'.bundle.document.spec.instances[index]? = some i')
    (hsame : i = i') (hsecret : ∀ key, isSecret e.overlay i.name key = false)
    (hsecret' : ∀ key, isSecret e'.overlay i.name key = false) {output output' : InstanceOutput}
    (houtput : output ∈ outputs) (houtput' : output' ∈ outputs') (hname : output.inst.name = i.name)
    (hname' : output'.inst.name = i.name) :
    output.environments = output'.environments.map (Option.map (renamed e.bundle.document.metadata.name)) := by
  subst hsame
  obtain ⟨block, hblock, henvironments⟩ := environments_of_mem hvalid houtputs hi houtput hname
  obtain ⟨block', hblock', henvironments'⟩ := environments_of_mem hvalid' houtputs' hi' houtput' hname'
  obtain rfl : block = block' := by
    rw [hkeeps.blocks] at hblock
    rw [hkeeps'.blocks] at hblock'
    exact Option.some.inj (hblock.symm.trans hblock')
  have hrouted : runsRouted e.bundle groups i = runsRouted e'.bundle groups' i := by
    rw [runsRouted, runsRouted, ← (validate_ok_iff.mp hvalid).2.2.2, ← (validate_ok_iff.mp hvalid').2.2.2,
      resolveGroups_of_keepsSpec hkeeps, resolveGroups_of_keepsSpec hkeeps', routedInstances_of_keepsSpec hkeeps,
      routedInstances_of_keepsSpec hkeeps']
  have hservices : (block.services.entries.map fun entry =>
      some (Json.ofMap (generatedEnvironment e.bundle.document block i host.toPlatform e.overlay entry.2))) =
      (block.services.entries.map fun entry =>
        some (Json.ofMap (generatedEnvironment e'.bundle.document block i host.toPlatform e'.overlay entry.2))).map
          (Option.map (renamed e.bundle.document.metadata.name)) := by
    rw [List.map_map]
    refine List.map_congr_left fun entry _ => ?_
    exact congrArg some (generatedEnvironment_renamed rfl rfl rfl rfl hsecret hsecret' block entry.2)
  rw [henvironments, henvironments', hrouted, hservices]
  split_ifs
  · rw [List.map_append, List.map_cons, List.map_cons, List.map_nil, Option.map_none, Option.map_some,
      renamed_sidecarEnvironment]
  · rfl

/-- **Where nothing is said of an instance, a plan keeps it exactly if nothing is folded in at
all or the instance unsets no key.** -/
theorem overlays_conservative_iff (host : Host) (bundle : Bundle) (options : OverlayOptions) (devices : Devices)
    (plan : Plan) (hplan : planWithOverlaysAndDevices host bundle options devices = .ok plan)
    (hset : options.set = ∅) (index : ℕ) (inst : Instance)
    (hinst : bundle.document.spec.instances[index]? = some inst)
    (hsilent : ∀ overlay ∈ (loadOverlays host bundle options).1,
      givesNothing host.toPlatform bundle.document inst overlay) :
    KeepsInstance host bundle options devices plan index inst ↔
      isPlain bundle options = true ∨ inst.environmentUnset = [] := by
  obtain ⟨e, groups, he, hvalid, hgenerate⟩ := planWithOverlaysAndDevices_ok hplan
  obtain ⟨profiles, config, probes, outputs, remotes, -, -, -, -, -, rfl⟩ := generate_ok_iff.mp hgenerate
  obtain ⟨hi, hsecret⟩ := effective_of_givesNothing he hvalid hinst hsilent hset
  constructor
  · rintro ⟨⟨i, hresolved, -, -, hunset⟩, -⟩
    cases hplain : isPlain bundle options with
    | true => exact Or.inl rfl
    | false =>
      rw [hplain] at hi
      obtain rfl := Option.some.inj (hi.symm.trans hresolved)
      exact Or.inr hunset.symm
  · intro hcondition
    have hsame : (if isPlain bundle options then inst else { inst with environmentUnset := [] }) = inst := by
      split_ifs with hplain
      · rfl
      · rw [← hcondition.resolve_left hplain]
    rw [hsame] at hi
    refine ⟨⟨inst, hi, rfl, rfl, rfl⟩, ?_⟩
    intro plain outputs plainOutputs hplainPlan hfrom hplainFrom output houtput plainOutput hplainOutput hname hplainName
    obtain ⟨e₁, groups₁, he₁, hvalid₁, houtputs⟩ := plannedOutputs_ok hfrom.planned
    obtain rfl : e = e₁ := Except.ok.inj (he.symm.trans he₁)
    obtain ⟨e', groups', he', hvalid', houtputs'⟩ := plannedOutputs_ok hplainFrom.planned
    obtain ⟨hi', hsecret'⟩ := effective_of_givesNothing he' hvalid' hinst
      (fun overlay hoverlay => hsilent overlay (mem_loadOverlays_of_none options hoverlay)) rfl
    have hsame' : (if isPlain bundle OverlayOptions.none then inst else { inst with environmentUnset := [] }) = inst := by
      split_ifs with hplain
      · rfl
      · rcases hcondition with hoptions | hunset
        · refine absurd ?_ hplain
          simp [isPlain, overlayPaths, overlays_of_isPlain hoptions, OverlayOptions.none]
          rfl
        · rw [← hunset]
    rw [hsame'] at hi'
    exact environments_renamed (keepsSpec he) (keepsSpec he') hvalid₁ hvalid' houtputs houtputs' hi hi' rfl hsecret
      hsecret' houtput hplainOutput hname hplainName

end Plans

/-- One web server that unsets keys of its environment. -/
def unsettingBundle (unset : List String) : Bundle :=
  shopBundle.withDocument (shopBundle.document.withSpec { shopBundle.document.spec with
    instances := [{ webInstance "front" none with environmentUnset := unset }]
    groups := ∅ })

/-- A variation, and nothing else. -/
def blueVariation : OverlayOptions := ⟨[], some "blue", ∅⟩

/-- The instance unsets `MODE`; in its variation it does not. -/
theorem variation_forgets_unset :
    ∃ plan, planWithOverlaysAndDevices shopHost (unsettingBundle ["MODE"]) blueVariation ∅ = .ok plan ∧
      (loadOverlays shopHost (unsettingBundle ["MODE"]) blueVariation).1 = [] ∧
      ¬KeepsInstance shopHost (unsettingBundle ["MODE"]) blueVariation ∅ plan 0
        { webInstance "front" none with environmentUnset := ["MODE"] } := by
  have hrun : (planWithOverlaysAndDevices shopHost (unsettingBundle ["MODE"]) blueVariation ∅).toOption.map
      (fun plan => plan.resolvedDeployment.spec.instances.map (·.environmentUnset)) = some [[]] := by decide +kernel
  obtain ⟨plan, hplan, hunset⟩ := exists_ok_of_toOption hrun
  refine ⟨plan, hplan, rfl, ?_⟩
  rintro ⟨⟨i, hi, -, -, hkept⟩, -⟩
  have hfirst : (plan.resolvedDeployment.spec.instances.map (·.environmentUnset))[0]? = some i.environmentUnset := by
    rw [List.getElem?_map, hi, Option.map_some]
  rw [hunset, hkept] at hfirst
  cases hfirst

/-- An instance that unsets nothing is the same in its variation. -/
theorem variation_keeps_front :
    ∃ plan, planWithOverlaysAndDevices shopHost (unsettingBundle []) blueVariation ∅ = .ok plan ∧
      plan.deployment = "shop--blue" ∧
      KeepsInstance shopHost (unsettingBundle []) blueVariation ∅ plan 0 (webInstance "front" none) := by
  have hrun : (planWithOverlaysAndDevices shopHost (unsettingBundle []) blueVariation ∅).toOption.map
      (·.deployment) = some "shop--blue" := by decide +kernel
  obtain ⟨plan, hplan, hname⟩ := exists_ok_of_toOption hrun
  refine ⟨plan, hplan, hname, (overlays_conservative_iff shopHost (unsettingBundle []) blueVariation ∅ plan hplan rfl 0
    (webInstance "front" none) rfl ?_).mpr (Or.inr rfl)⟩
  intro overlay hoverlay
  exact absurd hoverlay List.not_mem_nil

end Apmpr.Planner
