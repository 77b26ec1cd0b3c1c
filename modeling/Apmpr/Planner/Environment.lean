import Apmpr.Lib.Keyed
import Apmpr.Planner.Generate

/-!
# Environments of generated services

What the Compose service of a block's service says under `environment`. The fields a service
is given one after another (its execution, mounts, ports, probe and dependencies) leave the
environment that `add_runtime_fields` puts there and `apply_overlay_environment` changes, so
it is one map (`environment_localService`, `environment_remoteService`), and the map is known
key by key (`get?_generatedEnvironment`).
-/

namespace Apmpr

/-- The value of a field. -/
def Json.field (name : String) (value : Json) : Option Json := value.asObject.bind (SortedMap.lookup name)

theorem Json.field_ofMap (name : String) (m : SortedMap String Json) : (Json.ofMap m).field name = m.get? name := rfl

namespace Planner

section Fields

variable (document : Document) (block : Block) (inst : Instance)

theorem get?_addRuntimeFields (command : List String) (workingDirectory : Option PathBuf)
    (environment : SortedMap String String) (value : SortedMap String Json) :
    (addRuntimeFields document block inst command workingDirectory environment value).get? "environment" =
      some (.ofTexts (serviceEnvironment document block inst environment)) := by
  unfold addRuntimeFields
  rw [SortedMap.get?_insert, if_pos rfl]

theorem get?_addMounts (mounts : List String) (value : SortedMap String Json) {name : String} (h : name ≠ "volumes") :
    (addMounts mounts value).get? name = value.get? name := by
  rw [addMounts, SortedMap.get?_insert, if_neg h]

theorem environment_executionFields (source : PathBuf) (execution : Execution) (value : SortedMap String Json) :
    (executionFields document block inst source execution value).get? "environment" =
      some (.ofTexts (serviceEnvironment document block inst execution.runtime.environment)) := by
  have hvolumes : "environment" ≠ "volumes" := by decide
  cases execution with
  | container image build command runtime =>
    unfold executionFields
    dsimp only
    split_ifs <;> simp only [SortedMap.get?_insert, if_neg hvolumes, get?_addRuntimeFields]
  | script image command lifecycle runtime =>
    rw [executionFields, SortedMap.get?_insert, if_neg hvolumes, get?_addRuntimeFields]
  | processCompose image file runtime =>
    rw [executionFields, SortedMap.get?_insert, if_neg hvolumes, get?_addRuntimeFields]

variable (platform : Platform)

theorem environment_composeApplication (service : Service) (source : PathBuf) (network : String)
    (labels : SortedMap String String) :
    (composeApplication platform document block inst service source network labels).get? "environment" =
      some (.ofTexts (serviceEnvironment document block inst service.execution.runtime.environment)) := by
  have hports : "environment" ≠ "ports" := by decide
  have hcheck : "environment" ≠ "healthcheck" := by decide
  have hmounted := fun mounts value =>
    (get?_addMounts mounts (executionFields document block inst source service.execution value)
      (by decide : "environment" ≠ "volumes")).trans
      (environment_executionFields document block inst source service.execution value)
  unfold composeApplication
  dsimp only
  cases service.probe with
  | none =>
    dsimp only
    split_ifs <;> simp only [SortedMap.get?_insert, if_neg hports, hmounted]
  | some probe =>
    dsimp only
    rw [SortedMap.get?_insert, if_neg hcheck]
    split_ifs <;> simp only [SortedMap.get?_insert, if_neg hports, hmounted]

/-- The environment of a generated service. -/
def generatedEnvironment (overlay : Option OverlayResolution) (service : Service) : SortedMap String Json :=
  (SortedMap.ofList (((serviceEnvironment document block inst service.execution.runtime.environment).entries.map
    fun (key, value) => (key, Json.string value)).filter fun field => !inst.environmentUnset.contains field.1)).insertAll
      (secretFields platform overlay inst.name)

theorem environment_applyOverlayEnvironment {overlay : Option OverlayResolution} {service : Service}
    {value : SortedMap String Json} (h : value.get? "environment" =
      some (.ofTexts (serviceEnvironment document block inst service.execution.runtime.environment))) :
    (applyOverlayEnvironment platform overlay inst value).get? "environment" =
      some (.ofMap (generatedEnvironment document block inst platform overlay service)) := by
  rw [applyOverlayEnvironment, h, Json.ofTexts]
  dsimp only
  rw [SortedMap.get?_insert, if_pos rfl]
  rfl

variable (bundle : Bundle) (groups : ResolvedGroups) (overlay : Option OverlayResolution) (resourceHash : String)

theorem environment_overlaidApplication (source : PathBuf) (network : String) (entry : String × Service) :
    (overlaidApplication platform bundle overlay resourceHash block inst source network entry).get? "environment" =
      some (.ofMap (generatedEnvironment bundle.document block inst platform overlay entry.2)) := by
  refine environment_applyOverlayEnvironment bundle.document block inst platform ?_
  unfold addInjectedMounts
  split
  · exact environment_composeApplication ..
  · rw [get?_addMounts _ _ (by decide)]
    exact environment_composeApplication ..

theorem get?_addComposeDependencies (routed : List String) (service : Service) (value : SortedMap String Json)
    {name : String} (h : name ≠ "depends_on") :
    (addComposeDependencies platform document routed inst service value).get? name = value.get? name := by
  unfold addComposeDependencies
  split_ifs
  · rfl
  · rw [SortedMap.get?_insert, if_neg h]

theorem environment_behindSidecar (namespaceService sidecar : String) (value : SortedMap String Json) :
    (behindSidecar namespaceService sidecar value).get? "environment" = value.get? "environment" := by
  unfold behindSidecar
  dsimp only
  rw [SortedMap.get?_insert, if_neg (by decide), SortedMap.get?_insert, if_neg (by decide), SortedMap.get?_erase,
    if_neg (by decide), SortedMap.get?_erase, if_neg (by decide)]

/-- The environment of a service that is run here. -/
theorem environment_localService (source : PathBuf) (entry : String × Service) :
    (localService platform bundle groups overlay resourceHash block inst source entry).2.field "environment" =
      some (.ofMap (generatedEnvironment bundle.document block inst platform overlay entry.2)) := by
  unfold localService
  dsimp only
  split_ifs
  · rw [Json.field_ofMap, environment_behindSidecar, get?_addComposeDependencies _ _ _ _ _ _ (by decide)]
    exact environment_overlaidApplication ..
  · rw [Json.field_ofMap, get?_addComposeDependencies _ _ _ _ _ _ (by decide)]
    exact environment_overlaidApplication ..

/-- The environment of a service on a device. -/
theorem environment_remoteService (source : PathBuf) (device : String) (entry : String × Service) :
    (remoteService platform bundle groups overlay resourceHash block inst source device entry).2.field "environment" =
      some (.ofMap (generatedEnvironment bundle.document block inst platform overlay entry.2)) := by
  unfold remoteService
  dsimp only
  rw [Json.field_ofMap, get?_addComposeDependencies _ _ _ _ _ _ (by decide), SortedMap.get?_insert,
    if_neg (by decide)]
  exact environment_overlaidApplication ..

end Fields

/-! ### Key by key -/

section Keys

variable (platform : Platform) (document : Document) (block : Block) (inst : Instance)

/-- What stands for the secret of a key until the deployment is run. -/
def secretPlaceholder (inst key : String) : Json :=
  .string ("$\x7b" ++ overlaySecretVariable platform inst key ++ ":?overlay secret is required\x7d")

/-- Whether a key of an instance is a secret. -/
def isSecret (overlay : Option OverlayResolution) (inst key : String) : Bool :=
  overlay.any fun resolution => resolution.secretEnvironment.contains (toLex (inst, key))

theorem mem_secretFields {overlay : Option OverlayResolution} {key : String} {value : Json} {inst : String} :
    (key, value) ∈ secretFields platform overlay inst ↔
      isSecret overlay inst key = true ∧ value = secretPlaceholder platform inst key := by
  cases overlay with
  | none => simp [secretFields, isSecret]
  | some resolution =>
    simp only [secretFields, isSecret, Option.toList_some, List.flatMap_cons, List.flatMap_nil, List.append_nil,
      List.mem_map, List.mem_filter, Option.any_some, SortedMap.contains_iff, SortedMap.mem_keys_iff,
      decide_eq_true_eq, Prod.mk.injEq]
    constructor
    · rintro ⟨id, ⟨hid, rfl⟩, rfl, rfl⟩
      exact ⟨hid, rfl⟩
    · rintro ⟨hid, rfl⟩
      exact ⟨toLex (inst, key), ⟨hid, rfl⟩, rfl, rfl⟩

/-- **A generated environment, key by key**: a secret has its placeholder, a key that is
unset is absent, and every other key has what the service's layers give it. -/
theorem get?_generatedEnvironment (overlay : Option OverlayResolution) (service : Service) (key : String) :
    (generatedEnvironment document block inst platform overlay service).get? key =
      if isSecret overlay inst.name key then some (secretPlaceholder platform inst.name key)
      else if inst.environmentUnset.contains key then none
      else ((serviceEnvironment document block inst service.execution.runtime.environment).get? key).map .string := by
  unfold generatedEnvironment
  generalize serviceEnvironment document block inst service.execution.runtime.environment = values
  have hkept : ∀ value, (SortedMap.ofList ((values.entries.map fun (key, value) => (key, Json.string value)).filter
      fun field => !inst.environmentUnset.contains field.1)).get? key = some value ↔
      (values.get? key).map .string = some value ∧ inst.environmentUnset.contains key = false := by
    intro value
    rw [SortedMap.get?_ofList_iff, List.mem_filter, List.mem_map, Bool.not_eq_true', Option.map_eq_some_iff]
    · refine and_congr_left fun _ => ⟨?_, ?_⟩
      · rintro ⟨⟨k, text⟩, hmem, heq⟩
        obtain ⟨rfl, rfl⟩ := Prod.mk.injEq .. ▸ heq
        exact ⟨text, (SortedMap.mem_entries_iff _).mp hmem, rfl⟩
      · rintro ⟨text, hget, rfl⟩
        exact ⟨(key, text), (SortedMap.mem_entries_iff _).mpr hget, rfl⟩
    · intro k x y hx hy
      obtain ⟨⟨k₁, x₁⟩, hx₁, hxeq⟩ := List.mem_map.mp (List.mem_filter.mp hx).1
      obtain ⟨⟨k₂, y₁⟩, hy₁, hyeq⟩ := List.mem_map.mp (List.mem_filter.mp hy).1
      obtain ⟨rfl, rfl⟩ := Prod.mk.injEq .. ▸ hxeq
      obtain ⟨rfl, rfl⟩ := Prod.mk.injEq .. ▸ hyeq
      rw [SortedMap.mem_entries_iff] at hx₁ hy₁
      rw [Option.some.inj (hx₁.symm.trans hy₁)]
  have hother : isSecret overlay inst.name key ≠ true → ∀ e ∈ secretFields platform overlay inst.name, e.1 ≠ key := by
    rintro hsecret ⟨k, value⟩ he rfl
    exact hsecret ((mem_secretFields platform).mp he).1
  split_ifs with hsecret hunset
  · refine SortedMap.get?_insertAll_of_mem ((mem_secretFields platform).mpr ⟨hsecret, rfl⟩) fun y hy => ?_
    exact ((mem_secretFields platform).mp hy).2
  all_goals
    rw [SortedMap.get?_insertAll_of_forall_ne (hother hsecret)]
    refine Option.ext fun value => (hkept value).trans ?_
    simp only [hunset, Bool.true_eq_false, and_false, and_true, reduceCtorEq]

end Keys

end Planner

end Apmpr
