import Apmpr.Planner.Outputs

/-!
# Origins of environment values

A plan lists, for the environment keys of its instances, the value of a key, the layer it is
of, and the values it shadows. `resolve` keeps these traces beside the values: a layer that
sets a key adds to its trace, and one that unsets it adds the text `«unset»`, but only where
an overlay, the deployment or the command line had set the key before. The values of a
block's own services are traced first, and are not what such a layer removes.

What a key's trace comes to is a list of its layers (`recorded`); what a service is given,
and by which layers, is read off the order of the inserts of `add_runtime_fields` and
`apply_overlay_environment` (`suppliedEntry`, `suppliers`).

## What is proved

`origins_truthful_iff` — when the trace of a key says what the services of the instance are
given.
-/

namespace Apmpr.Planner

/-! ### Histories -/

/-- The trace of a key after its history: the last entry, and the ones it shadows. -/
def traceOf (inst key : String) (history : List ShadowedOrigin) : Option OriginTrace :=
  history.getLast?.map fun last => ⟨inst, "environment", key, last.value, last.layer, history.dropLast⟩

/-- All that a trace lists, in order. -/
def OriginTrace.history (trace : OriginTrace) : List ShadowedOrigin := trace.shadowed ++ [⟨trace.value, trace.layer⟩]

/-- What a layer that sets the key is listed as. -/
def Touch.origin : Touch → Option ShadowedOrigin
  | .set value layer => some ⟨overlayValue value, layer⟩
  | .unset _ => none

/-- What the traces keep of touches, from whether the key has a value: a layer that unsets
a key without a value is not listed. -/
def recorded : Bool → List Touch → List ShadowedOrigin
  | _, [] => []
  | _, .set value layer :: rest => ⟨overlayValue value, layer⟩ :: recorded true rest
  | true, .unset layer :: rest => ⟨"«unset»", layer⟩ :: recorded false rest
  | false, .unset _ :: rest => recorded false rest

section Histories

variable (inst key : String) (history : List ShadowedOrigin)

theorem traceOf_concat (value layer : String) :
    traceOf inst key (history ++ [⟨value, layer⟩]) =
      some ⟨inst, "environment", key, value, layer, history⟩ := by
  rw [traceOf, List.getLast?_concat, List.dropLast_concat, Option.map_some]

theorem traceOf_eq_none_iff : traceOf inst key history = none ↔ history = [] := by
  rw [traceOf, Option.map_eq_none_iff, List.getLast?_eq_none_iff]

theorem history_of_traceOf {trace : OriginTrace} (h : traceOf inst key history = some trace) :
    trace.history = history := by
  obtain ⟨last, hlast, rfl⟩ := Option.map_eq_some_iff.mp h
  obtain ⟨before, rfl⟩ := List.getLast?_eq_some_iff.mp hlast
  rw [OriginTrace.history, List.dropLast_concat]

/-- A value set after a history is the next entry of it. -/
theorem nextTrace_traceOf (value layer : String) :
    some (nextTrace inst "environment" key (traceOf inst key history) value layer) =
      traceOf inst key (history ++ [⟨value, layer⟩]) := by
  rw [traceOf_concat]
  rcases List.eq_nil_or_concat history with rfl | ⟨before, last, rfl⟩
  · rfl
  · rw [List.concat_eq_append, traceOf_concat]
    rfl

/-- The values of a block's services, traced. -/
theorem traceValues_traceOf (values : List (String × String)) :
    traceValues inst "environment" key (traceOf inst key history) values =
      traceOf inst key (history ++ values.map fun v => ⟨v.1, v.2⟩) := by
  induction values generalizing history with
  | nil => rw [List.map_nil, List.append_nil, traceValues, List.foldl_nil]
  | cons v rest ih =>
    rw [List.map_cons, List.append_cons, ← ih, ← nextTrace_traceOf]
    rfl

theorem removedTrace_concat (previous value layer : String) (h : history ≠ []) :
    removedTrace ⟨inst, "environment", key, value, layer, history⟩ previous =
      ⟨inst, "environment", key, value, layer, history⟩ := by
  rw [removedTrace, if_neg]
  simpa using h

/-- **The trace of a key after touches** is that of its history and what is kept of them. -/
theorem trace_foldl_touch (touches : List Touch) {view : EnvironmentView} (htrace : view.trace = traceOf inst key history)
    (hvalue : view.value.isSome = true → history ≠ []) :
    (touches.foldl (EnvironmentView.touch inst key) view).trace =
      traceOf inst key (history ++ recorded view.value.isSome touches) := by
  induction touches generalizing view history with
  | nil => rw [recorded, List.append_nil, List.foldl_nil, htrace]
  | cons touch rest ih =>
    obtain ⟨value, unset, secret, trace⟩ := view
    obtain rfl : trace = traceOf inst key history := htrace
    rw [List.foldl_cons]
    cases touch with
    | set text layer =>
      rw [recorded, List.append_cons]
      refine ih _ ?_ fun _ => List.concat_ne_nil _ _
      exact nextTrace_traceOf inst key history (overlayValue text) layer
    | unset layer =>
      cases value with
      | none => exact ih history rfl fun h => absurd h Bool.false_ne_true
      | some previous =>
        rw [Option.isSome_some, recorded, List.append_cons]
        refine ih _ ?_ fun h => absurd h Bool.false_ne_true
        have hnext := nextTrace_traceOf inst key history "«unset»" layer
        rw [traceOf_concat] at hnext ⊢
        -- the key has a value, so that its trace shadows it already
        rw [EnvironmentView.touch, Option.some.inj hnext]
        exact congrArg some (removedTrace_concat inst key history previous _ _ (hvalue rfl))

end Histories

/-! ### What is kept of touches -/

section Recorded

theorem recorded_append (present : Bool) (first second : List Touch) :
    recorded present (first ++ second) =
      recorded present first ++ recorded (first.getLast?.elim present fun touch => !touch.isUnset) second := by
  induction first generalizing present with
  | nil => rfl
  | cons touch rest ih =>
    have hlast : (touch :: rest).getLast?.elim present (fun touch => !touch.isUnset) =
        rest.getLast?.elim (!touch.isUnset) fun touch => !touch.isUnset := by
      rw [List.getLast?_cons]
      cases rest.getLast? <;> rfl
    rw [hlast, List.cons_append]
    cases touch with
    | set value layer => rw [recorded, recorded, ih, List.cons_append]; rfl
    | unset layer =>
      cases present with
      | true => rw [recorded, recorded, ih, List.cons_append]; rfl
      | false => rw [recorded, recorded, ih]; rfl

/-- No layer that sets the key is directly followed by one that unsets it. -/
def NothingRemoved (touches : List Touch) : Prop :=
  touches.IsChain fun first second => second.isUnset = true → first.isUnset = true

theorem origins_sublist_recorded (present : Bool) (touches : List Touch) :
    (touches.filterMap Touch.origin).Sublist (recorded present touches) := by
  induction touches generalizing present with
  | nil => exact List.Sublist.refl _
  | cons touch rest ih =>
    cases touch with
    | set value layer => exact (ih true).cons_cons _
    | unset layer =>
      cases present with
      | true => exact (ih false).cons _
      | false => exact ih false

/-- The traces list the layers that set the key, and no other, exactly where nothing is
removed. -/
theorem recorded_eq_origins_iff (touches : List Touch) :
    recorded false touches = touches.filterMap Touch.origin ↔ NothingRemoved touches := by
  unfold NothingRemoved
  induction touches with
  | nil => exact ⟨fun _ => .nil, fun _ => rfl⟩
  | cons touch rest ih =>
    cases touch with
    | unset layer =>
      refine Iff.trans ih ?_
      cases rest with
      | nil => exact ⟨fun _ => .singleton _, fun _ => .nil⟩
      | cons next rest => rw [List.isChain_cons_cons]; simp [Touch.isUnset]
    | set value layer =>
      cases rest with
      | nil => exact ⟨fun _ => .singleton _, fun _ => rfl⟩
      | cons next rest =>
        have horigins : (Touch.set value layer :: next :: rest).filterMap Touch.origin =
            ⟨overlayValue value, layer⟩ :: (next :: rest).filterMap Touch.origin := rfl
        rw [List.isChain_cons_cons, recorded, horigins]
        cases next with
        | set value' layer' =>
          rw [← ih]
          simp [recorded, Touch.origin, Touch.isUnset]
        | unset layer' =>
          have hlonger : recorded true (.unset layer' :: rest) ≠ (Touch.unset layer' :: rest).filterMap Touch.origin := by
            intro heq
            have hlength := (origins_sublist_recorded false rest).length_le
            have hsame := congrArg List.length heq
            rw [recorded, List.length_cons, List.filterMap_cons_none rfl] at hsame
            omega
          simp [hlonger, Touch.isUnset]

/-- The traces keep nothing of touches that only unset. -/
theorem recorded_of_forall_unset {touches : List Touch} (h : ∀ touch ∈ touches, touch.isUnset = true) :
    recorded false touches = [] := by
  induction touches with
  | nil => rfl
  | cons touch rest ih =>
    cases touch with
    | set value layer => exact absurd (h _ (List.mem_cons_self ..)) Bool.false_ne_true
    | unset layer => exact ih fun touch htouch => h touch (List.mem_cons_of_mem _ htouch)

/-- After a layer that sets the key, touches that end in one that unsets it are listed up to
the first that does. -/
theorem getLast?_recorded_of_unset {touches : List Touch} (hset : ∃ touch ∈ touches, touch.isUnset = false)
    {layer : String} (hlast : touches.getLast? = some (.unset layer)) :
    ∃ last, (recorded false touches).getLast? = some last ∧ last.value = "«unset»" := by
  obtain ⟨before, rfl⟩ := List.getLast?_eq_some_iff.mp hlast
  clear hlast
  induction before using List.reverseRecOn generalizing layer with
  | nil => simp [Touch.isUnset] at hset
  | append_singleton before touch ih =>
    rw [recorded_append, List.getLast?_concat]
    cases touch with
    | set value layer' => exact ⟨⟨"«unset»", layer⟩, List.getLast?_concat, rfl⟩
    | unset layer' =>
      have hset' : ∃ touch ∈ before ++ [.unset layer'], touch.isUnset = false := by
        obtain ⟨touch, htouch, hnot⟩ := hset
        rcases List.mem_append.mp htouch with htouch | htouch
        · exact ⟨touch, htouch, hnot⟩
        · rw [List.mem_singleton.mp htouch] at hnot
          cases hnot
      obtain ⟨last, hlast, hvalue⟩ := ih hset'
      exact ⟨last, by rw [show recorded _ [Touch.unset layer] = [] from rfl, List.append_nil]; exact hlast, hvalue⟩

end Recorded

/-! ### What a service is given -/

/-- Where a service has the value of an environment key from: from a parameter or the
default of one, from the block's own definition of the service, from a layer that sets the
key, from the planner, or from a secret that a layer refers to. -/
inductive EnvironmentSource where
  | parameter
  | blockDefault
  | layers
  | planner
  | secret
  deriving DecidableEq

section Supplied

variable (platform : Platform) (document : Document) (block : Block) (inst : Instance)
  (overlay : Option OverlayResolution) (service : Service) (key : String)

/-- The source of a key of a service, and its value: the inserts of `add_runtime_fields` and
`apply_overlay_environment`, the last one first. -/
def suppliedEntry : Option (EnvironmentSource × Json) :=
  if isSecret overlay inst.name key then some (.secret, secretPlaceholder platform inst.name key)
  else if inst.environmentUnset.contains key then none
  else if key = "APMPR_INSTANCE" then some (.planner, .string inst.name)
  else if key = "APMPR_DEPLOYMENT" then some (.planner, .string document.metadata.name)
  else ((inst.environment.get? key).map fun value => (.layers, .string value)).or
    (((inst.parameters.get? key).map fun value => (.parameter, .string value)).or
      (((service.execution.runtime.environment.get? key).map fun value => (.blockDefault, .string value)).or
        (((SortedMap.ofList (parameterDefaults block)).get? key).map fun value => (.parameter, .string value))))

/-- A generated service has the value that it is supplied with. -/
theorem get?_generatedEnvironment_eq :
    (generatedEnvironment document block inst platform overlay service).get? key =
      (suppliedEntry platform document block inst overlay service key).map Prod.snd := by
  rw [get?_generatedEnvironment, suppliedEntry]
  split_ifs with hsecret hunset hinst hdeployment
  · rfl
  · rfl
  · rw [hinst, serviceEnvironment, SortedMap.get?_insert, if_pos rfl]
    rfl
  · rw [hdeployment, serviceEnvironment, SortedMap.get?_insert, if_neg (by decide), SortedMap.get?_insert, if_pos rfl]
    rfl
  · rw [serviceEnvironment, SortedMap.get?_insert, if_neg hinst, SortedMap.get?_insert, if_neg hdeployment,
      get?_insertAll_entries, get?_insertAll_entries, get?_insertAll_entries]
    cases inst.environment.get? key with
    | some value => rfl
    | none =>
      cases inst.parameters.get? key with
      | some value => rfl
      | none =>
        cases service.execution.runtime.environment.get? key with
        | some value => rfl
        | none => cases (SortedMap.ofList (parameterDefaults block)).get? key <;> rfl

/-- What a key is supplied with is what the services that are run here and on devices have. -/
theorem field_environment_service (bundle : Bundle) (groups : ResolvedGroups) (hash : String) (source : PathBuf)
    (device : String) (entry : String × Service) :
    ((localService platform bundle groups overlay hash block inst source entry).2.field "environment").bind
        (Json.field key) = (suppliedEntry platform bundle.document block inst overlay entry.2 key).map Prod.snd ∧
      ((remoteService platform bundle groups overlay hash block inst source device entry).2.field "environment").bind
        (Json.field key) = (suppliedEntry platform bundle.document block inst overlay entry.2 key).map Prod.snd := by
  rw [environment_localService, environment_remoteService, Option.bind_some, Json.field_ofMap,
    get?_generatedEnvironment_eq]
  exact ⟨rfl, rfl⟩

end Supplied

/-! ### Truthful origins -/

section Truthful

variable (host : Host) (bundle : Bundle) (options : OverlayOptions)

/-- The values of a key in a block's own services, in the order they are traced in. -/
def defaultOrigins (inst : Instance) (key : String) : List ShadowedOrigin :=
  (atKey key (environmentDefaults bundle.document.spec inst)).map fun v => ⟨v.1, v.2⟩

/-- What the layers after the block do to a key, in order. -/
def keyTouches (inst : Instance) (key : String) : List Touch :=
  atKey key (instanceTouches host.toPlatform bundle.document (loadOverlays host bundle options).1 options inst)

/-- The layers that set a key of an instance, in order. -/
def settings (inst : Instance) (key : String) : List ShadowedOrigin :=
  defaultOrigins bundle inst key ++ (keyTouches host bundle options inst key).filterMap Touch.origin

/-- The layers that set a key of a service, the last of which supplies its value. A service
that is given its block's default has it of its own definition alone. -/
def suppliers (e : Effective) (block : Block) (inst : Instance) (key : String) (entry : String × Service) :
    List ShadowedOrigin :=
  match (suppliedEntry host.toPlatform e.bundle.document block inst e.overlay entry.2 key).map Prod.fst with
  | some .secret | some .layers => settings host bundle options
      ((instanceNamed bundle.document.spec.instances inst.name).getD inst) key
  | some .blockDefault => (entry.2.execution.runtime.environment.get? key).toList.map fun value =>
      ⟨value, s!"block default {inst.block}/{entry.1}"⟩
  | _ => []

/-- The layers that supply a key, for every service that an instance is generated with. -/
def suppliedBy (name key : String) : List (List ShadowedOrigin) :=
  match effective host bundle options with
  | .error _ => []
  | .ok e =>
    (e.bundle.document.spec.instances.filter fun inst => !inst.isExternal && inst.name = name).flatMap fun inst =>
      (e.bundle.document.spec.blocks.get? inst.block).toList.flatMap fun block =>
        block.services.entries.map (suppliers host bundle options e block inst key)

/-- A trace of an environment key of an instance. -/
def OriginTrace.IsOf (name key : String) (trace : OriginTrace) : Prop :=
  trace.inst = name ∧ trace.category = "environment" ∧ trace.key = key

/-- **Origins tell the truth** about a key of an instance: it has a trace exactly when a
layer supplies some service with it, and whatever a trace lists, the value and the layer
last, are the layers that set the key of every service that is supplied with it. -/
def Truthful (plan : Plan) (name key : String) : Prop :=
  ((∃ trace ∈ plan.origins, trace.IsOf name key) ↔ ∃ supply ∈ suppliedBy host bundle options name key, supply ≠ []) ∧
    ∀ trace ∈ plan.origins, trace.IsOf name key →
      ∀ supply ∈ suppliedBy host bundle options name key, supply ≠ [] → trace.history = supply

/-- A key that the planner itself sets. -/
def isReserved (key : String) : Bool := key = "APMPR_DEPLOYMENT" || key = "APMPR_INSTANCE"

/-- The condition on the layers of a key under which its origins tell the truth.

Where the last layer sets the key, no layer that unsets it may directly follow one that sets
it, and the value may not be the text `«unset»`; a literal value of a key of the planner's
own is never what a service is given, so that it may be nothing else. Where the last layer
unsets the key, another one must have set it, or the block's services must not. Where no
layer does anything to the key, at most one service of the block may set it, or none if a
parameter or the planner does. -/
def Traceable (inst : Instance) (key : String) : Prop :=
  match (keyTouches host bundle options inst key).getLast? with
  | some (.set value _) =>
    if isReserved key = true ∧ value.reference = none then overlayValue value = "«unset»"
    else overlayValue value ≠ "«unset»" ∧ NothingRemoved (keyTouches host bundle options inst key)
  | some (.unset _) =>
    (∃ touch ∈ keyTouches host bundle options inst key, touch.isUnset = false) ∨
      ∀ last, (defaultOrigins bundle inst key).getLast? = some last → last.value = "«unset»"
  | none =>
    if isReserved key = true ∨ atKey key (parameterLayers bundle.document (loadOverlays host bundle options).1 inst) ≠ [] then
      ∀ last, (defaultOrigins bundle inst key).getLast? = some last → last.value = "«unset»"
    else defaultOrigins bundle inst key = [] ∨
      ∃ origin, defaultOrigins bundle inst key = [origin] ∧ origin.value ≠ "«unset»"

end Truthful

/-! ### What is listed -/

section Listed

variable {host : Host} {bundle : Bundle} {options : OverlayOptions} {devices : Devices} {plan : Plan}

/-- A history whose last entry is not a removal is listed. -/
def Listed (history : List ShadowedOrigin) : Prop :=
  ∃ last, history.getLast? = some last ∧ last.value ≠ "«unset»"

theorem listed_concat (history : List ShadowedOrigin) (last : ShadowedOrigin) :
    Listed (history ++ [last]) ↔ last.value ≠ "«unset»" := by
  simp [Listed]

theorem not_listed_iff (history : List ShadowedOrigin) :
    ¬Listed history ↔ ∀ last, history.getLast? = some last → last.value = "«unset»" := by
  simp [Listed]

/-- The trace of a key of a declared instance, before removals are left out. -/
theorem get?_traces (hnodup : (instanceNames bundle.document.spec.instances).Nodup) {resolved : Document}
    {resolution : OverlayResolution}
    (h : resolve host.toPlatform bundle.document (loadOverlays host bundle options).1 options = .ok (resolved, resolution))
    {index : ℕ} {inst : Instance} (hinst : bundle.document.spec.instances[index]? = some inst) (key : String) :
    (foldLayers host.toPlatform bundle.document (loadOverlays host bundle options).1 options).traces.get?
        (toLex (inst.name, toLex ("environment", key))) =
      traceOf inst.name key (defaultOrigins bundle inst key ++ recorded false (keyTouches host bundle options inst key)) := by
  have hview := (view_foldLayers hnodup (resolve_ok h).1 hinst key).2.1
  refine (congrArg EnvironmentView.trace hview).trans (trace_foldl_touch inst.name key _ _ ?_ fun h => ?_)
  · exact traceValues_traceOf inst.name key [] _
  · exact absurd h Bool.false_ne_true

/-- The origins of a plan list a key of a declared instance with its history. -/
theorem mem_origins_iff (hplain : isPlain bundle options = false)
    (h : planWithOverlaysAndDevices host bundle options devices = .ok plan) {inst : Instance}
    (hinst : inst ∈ bundle.document.spec.instances) (key : String) (trace : OriginTrace) :
    trace ∈ plan.origins ∧ trace.IsOf inst.name key ↔
      trace.value ≠ "«unset»" ∧
        traceOf inst.name key (defaultOrigins bundle inst key ++ recorded false (keyTouches host bundle options inst key))
          = some trace := by
  obtain ⟨e, groups, he, hvalid, hgenerate⟩ := planWithOverlaysAndDevices_ok h
  obtain ⟨resolved, resolution, hoverlaid⟩ := exists_overlaid hplain he
  have hnodup : (instanceNames bundle.document.spec.instances).Nodup := by
    rw [← instanceNames_of_stripped (keepsSpec he).instances]
    exact nodup_of_validate hvalid
  have horigins : plan.origins = resolution.origins.mergeSort originBefore := by
    obtain ⟨_, _, _, _, _, -, -, -, -, -, rfl⟩ := generate_ok_iff.mp hgenerate
    rw [assemblePlan, hoverlaid.overlay]
    rfl
  obtain ⟨index, hindex⟩ := List.mem_iff_getElem?.mp hinst
  have hkeyed := wellKeyed_foldLayers host.toPlatform bundle.document (loadOverlays host bundle options).1 options
  rw [horigins, List.mem_mergeSort, (resolve_ok hoverlaid.resolves).2.2.2, List.mem_filter, decide_eq_true_eq,
    ← get?_traces hnodup hoverlaid.resolves hindex, SortedMap.values, List.mem_map]
  constructor
  · rintro ⟨⟨⟨⟨id, trace⟩, hmem, rfl⟩, hvalue⟩, hname, hcategory, hkey⟩
    refine ⟨hvalue, ?_⟩
    have hget := (SortedMap.mem_entries_iff _).mp hmem
    rw [← hname, ← hcategory, ← hkey, ← (hkeyed.traces id trace hget).1]
    exact hget
  · rintro ⟨hvalue, hget⟩
    have hid := (hkeyed.traces _ trace hget).1
    simp only [toLex_inj, Prod.mk.injEq] at hid
    exact ⟨⟨⟨_, (SortedMap.mem_entries_iff _).mpr hget, rfl⟩, hvalue⟩, hid.1.symm, hid.2.1.symm, hid.2.2.symm⟩

/-- **Truth of the origins, in terms of a key's history.** -/
theorem truthful_iff (hplain : isPlain bundle options = false)
    (h : planWithOverlaysAndDevices host bundle options devices = .ok plan) {inst : Instance}
    (hinst : inst ∈ bundle.document.spec.instances) (key : String) {history : List ShadowedOrigin}
    (hhistory : defaultOrigins bundle inst key ++ recorded false (keyTouches host bundle options inst key) = history) :
    Truthful host bundle options plan inst.name key ↔
      (Listed history ↔ ∃ supply ∈ suppliedBy host bundle options inst.name key, supply ≠ []) ∧
        (Listed history → ∀ supply ∈ suppliedBy host bundle options inst.name key, supply ≠ [] → history = supply) := by
  have hmem := mem_origins_iff hplain h hinst key
  rw [hhistory] at hmem
  have hlisted : Listed history ↔ ∃ trace ∈ plan.origins, trace.IsOf inst.name key := by
    simp only [hmem]
    constructor
    · rintro ⟨last, hlast, hvalue⟩
      exact ⟨_, hvalue, by rw [traceOf, hlast, Option.map_some]⟩
    · rintro ⟨trace, hvalue, htrace⟩
      obtain ⟨last, hlast, rfl⟩ := Option.map_eq_some_iff.mp htrace
      exact ⟨last, hlast, hvalue⟩
  unfold Truthful
  rw [← hlisted]
  refine and_congr_right fun _ => ⟨fun hall hlist => ?_, fun hall trace htrace hof => ?_⟩
  · obtain ⟨trace, htrace, hof⟩ := hlisted.mp hlist
    rw [← history_of_traceOf inst.name key history ((hmem trace).mp ⟨htrace, hof⟩).2]
    exact hall trace htrace hof
  · rw [history_of_traceOf inst.name key history ((hmem trace).mp ⟨htrace, hof⟩).2]
    exact hall (hlisted.mpr ⟨trace, htrace, hof⟩)

end Listed

/-! ### What is supplied -/

section SuppliedBy

variable {host : Host} {bundle : Bundle} {options : OverlayOptions} {devices : Devices} {groups : ResolvedGroups}
  {e : Effective}

/-- What a service's own definition says of a key. -/
def ownDefault (block key : String) (entry : String × Service) : List ShadowedOrigin :=
  (entry.2.execution.runtime.environment.get? key).toList.map fun value => ⟨value, s!"block default {block}/{entry.1}"⟩

theorem defaultOrigins_eq {inst : Instance} {block : Block} (h : bundle.document.spec.blocks.get? inst.block = some block)
    (key : String) : defaultOrigins bundle inst key = block.services.entries.flatMap (ownDefault inst.block key) := by
  rw [defaultOrigins, environmentDefaults, h, Option.toList_some, List.flatMap_cons, List.flatMap_nil, List.append_nil]
  induction block.services.entries with
  | nil => rfl
  | cons entry rest ih =>
    obtain ⟨service, definition⟩ := entry
    rw [List.flatMap_cons, List.flatMap_cons, atKey_append, List.map_append, ih, ownDefault]
    refine congrArg (· ++ _) ?_
    rw [atKey_map key (fun value => (value, s!"block default {inst.block}/{service}")), atKey_entries, List.map_map]
    rfl

/-- What the services of an instance are supplied with, in terms of the last layer. -/
def supplyOf (host : Host) (bundle : Bundle) (options : OverlayOptions) (inst : Instance) (key : String)
    (entry : String × Service) : List ShadowedOrigin :=
  match (keyTouches host bundle options inst key).getLast? with
  | some (.set value _) =>
    if isReserved key = true ∧ value.reference = none then [] else settings host bundle options inst key
  | some (.unset _) => []
  | none =>
    if isReserved key = true ∨ atKey key (parameterLayers bundle.document (loadOverlays host bundle options).1 inst) ≠ [] then []
    else ownDefault inst.block key entry

theorem suppliers_eq (hnodup : (instanceNames bundle.document.spec.instances).Nodup) {resolved : Document}
    {resolution : OverlayResolution} (hoverlaid : Overlaid host bundle options e resolved resolution) {index : ℕ}
    {inst i : Instance} (hinst : bundle.document.spec.instances[index]? = some inst)
    (hi : resolved.spec.instances[index]? = some i) (block : Block) (key : String) (entry : String × Service) :
    suppliers host bundle options e block i key entry = supplyOf host bundle options inst key entry := by
  obtain ⟨i', hi', hsame⟩ := exists_resolved hoverlaid.resolves hinst
  obtain rfl := Option.some.inj (hi'.symm.trans hi)
  have hname : (strippedInstance i').name = (strippedInstance inst).name := by rw [hsame]
  have hblock : (strippedInstance i').block = (strippedInstance inst).block := by rw [hsame]
  change i'.name = inst.name at hname
  change i'.block = inst.block at hblock
  obtain ⟨hvalue, hunset, hsecret, hparameter⟩ := resolve_at_key hnodup hoverlaid.resolves hinst hi key
  rw [← getLast?_of_resolve hnodup hoverlaid.resolves hinst key] at hvalue hunset hsecret
  have hisSecret : isSecret e.overlay i'.name key = ((keyTouches host bundle options inst key).getLast?.bind
      Touch.secret).isSome := by
    rw [hoverlaid.overlay, isSecret, Option.any_some, hname, SortedMap.contains, hsecret]
    rfl
  have hnamed : (instanceNamed bundle.document.spec.instances i'.name).getD i' = inst := by
    rw [hname, instanceNamed_of_getElem? hnodup hinst, Option.getD_some]
  change i'.environment.get? key = (keyTouches host bundle options inst key).getLast?.bind Touch.value at hvalue
  change i'.environmentUnset.contains key = (keyTouches host bundle options inst key).getLast?.any Touch.isUnset at hunset
  rw [suppliers, suppliedEntry, supplyOf, hnamed, hisSecret, hunset, hvalue, hparameter, hblock]
  cases (keyTouches host bundle options inst key).getLast? with
  | none =>
    simp only [Option.bind_none, Option.isSome_none, Option.any_none, Bool.false_eq_true, if_false, Option.map_none,
      Option.none_or, isReserved, Bool.or_eq_true, decide_eq_true_eq]
    by_cases hinstance : key = "APMPR_INSTANCE"
    · simp [hinstance]
    by_cases hdeployment : key = "APMPR_DEPLOYMENT"
    · simp [hdeployment]
    simp only [hinstance, hdeployment, if_false, or_self, false_or]
    cases hlayers : (atKey key (parameterLayers bundle.document (loadOverlays host bundle options).1 inst)).getLast? with
    | some value =>
      rw [if_pos (List.ne_nil_of_mem (List.mem_of_getLast? hlayers))]
      rfl
    | none =>
      rw [List.getLast?_eq_none_iff.mp hlayers, if_neg (not_not.mpr rfl), ownDefault]
      cases entry.2.execution.runtime.environment.get? key with
      | some value => rfl
      | none => cases (SortedMap.ofList (parameterDefaults block)).get? key <;> rfl
  | some touch =>
    cases touch with
    | unset layer => rfl
    | set value layer =>
      cases value with
      | secret reference =>
        have hreference : ¬(isReserved key = true ∧ (OverlayValue.secret reference).reference = none) :=
          fun h => Option.some_ne_none reference h.2
        refine Eq.trans ?_ (if_neg hreference).symm
        rfl
      | literal text =>
        simp only [Option.bind_some, Touch.secret, OverlayValue.reference, Option.isSome_none, Option.any_some,
          Touch.isUnset, Bool.false_eq_true, if_false, Touch.value, Option.map_some, Option.some_or, isReserved,
          Bool.or_eq_true, decide_eq_true_eq, and_true]
        by_cases hinstance : key = "APMPR_INSTANCE"
        · simp [hinstance]
        by_cases hdeployment : key = "APMPR_DEPLOYMENT"
        · simp [hdeployment]
        simp only [hinstance, hdeployment, if_false, or_self]
        rfl

/-- The services of an instance that is run are supplied as its last layers say; an external
instance has none. -/
theorem mem_suppliedBy_iff (hplain : isPlain bundle options = false) (he : effective host bundle options = .ok e)
    (hvalid : validate host.toPlatform e.bundle devices = .ok groups) {inst : Instance}
    (hinst : inst ∈ bundle.document.spec.instances) (key : String) (supply : List ShadowedOrigin) :
    supply ∈ suppliedBy host bundle options inst.name key ↔
      inst.isExternal = false ∧ ∃ block, bundle.document.spec.blocks.get? inst.block = some block ∧
        ∃ entry ∈ block.services.entries, supplyOf host bundle options inst key entry = supply := by
  obtain ⟨resolved, resolution, hoverlaid⟩ := exists_overlaid hplain he
  have hkeeps := keepsSpec he
  have hnodup : (instanceNames bundle.document.spec.instances).Nodup := by
    rw [← instanceNames_of_stripped hkeeps.instances]
    exact nodup_of_validate hvalid
  obtain ⟨index, hindex⟩ := List.mem_iff_getElem?.mp hinst
  obtain ⟨i, hi, hsame⟩ := exists_resolved hoverlaid.resolves hindex
  have hname : (strippedInstance i).name = (strippedInstance inst).name := by rw [hsame]
  have hblock : (strippedInstance i).block = (strippedInstance inst).block := by rw [hsame]
  have hexternal : (strippedInstance i).isExternal = (strippedInstance inst).isExternal := by rw [hsame]
  change i.name = inst.name at hname
  change i.block = inst.block at hblock
  change i.isExternal = inst.isExternal at hexternal
  have hinstances : e.bundle.document.spec.instances = resolved.spec.instances := by
    obtain ⟨_, _, hspec⟩ := spec_of_withDerivedHostRouting hoverlaid.derived
    rw [hspec]
    rfl
  have hmem : i ∈ e.bundle.document.spec.instances := hinstances ▸ List.mem_of_getElem? hi
  have honly : ∀ other ∈ e.bundle.document.spec.instances, other.name = inst.name → other = i := by
    intro other hother hsameName
    exact List.inj_on_of_nodup_map (nodup_of_validate hvalid) hother hmem (hsameName.trans hname.symm)
  have hsuppliers := suppliers_eq hnodup hoverlaid hindex hi
  unfold suppliedBy
  rw [he]
  simp only [List.mem_flatMap, List.mem_filter, Bool.and_eq_true, Bool.not_eq_true', decide_eq_true_eq,
    Option.mem_toList, List.mem_map, hkeeps.blocks]
  constructor
  · rintro ⟨other, ⟨hother, hrun, hsameName⟩, block, hget, entry, hentry, rfl⟩
    obtain rfl := honly other hother hsameName
    exact ⟨hexternal ▸ hrun, block, hblock ▸ hget, entry, hentry, (hsuppliers block key entry).symm⟩
  · rintro ⟨hrun, block, hget, entry, hentry, rfl⟩
    exact ⟨i, ⟨hmem, hexternal ▸ hrun, hname⟩, block, hblock ▸ hget, entry, hentry, hsuppliers block key entry⟩

end SuppliedBy

/-! ### When origins tell the truth -/

section Truth

variable {host : Host} {bundle : Bundle} {options : OverlayOptions} {devices : Devices} {groups : ResolvedGroups}
  {e : Effective}

/-- The services of a valid instance that is run. -/
theorem exists_service (hvalid : validate host.toPlatform e.bundle devices = .ok groups) {inst : Instance}
    (hinst : inst ∈ e.bundle.document.spec.instances) (hrun : inst.isExternal = false) :
    ∃ block, e.bundle.document.spec.blocks.get? inst.block = some block ∧ ∃ entry, entry ∈ block.services.entries := by
  obtain ⟨block, hblock⟩ := (managedInstance_of_validate hvalid hinst hrun).block
  have herrors := blockErrors_of_validate hvalid hblock
  simp only [blockErrors, List.append_eq_nil_iff, reportIf_eq_nil] at herrors
  refine ⟨block, hblock, List.exists_mem_of_ne_nil _ fun hnil => ?_⟩
  rw [hnil] at herrors
  exact absurd herrors.1.1.2 Bool.false_ne_true.symm

/-- Nothing is said of a key of a valid external instance. -/
theorem external_says_nothing (hplain : isPlain bundle options = false) (he : effective host bundle options = .ok e)
    (hvalid : validate host.toPlatform e.bundle devices = .ok groups) {inst : Instance}
    (hinst : inst ∈ bundle.document.spec.instances) (hexternal : inst.isExternal = true) (key : String) :
    keyTouches host bundle options inst key = [] ∧ defaultOrigins bundle inst key = [] := by
  obtain ⟨resolved, resolution, hoverlaid⟩ := exists_overlaid hplain he
  have hkeeps := keepsSpec he
  have hnodup : (instanceNames bundle.document.spec.instances).Nodup := by
    rw [← instanceNames_of_stripped hkeeps.instances]
    exact nodup_of_validate hvalid
  obtain ⟨index, hindex⟩ := List.mem_iff_getElem?.mp hinst
  obtain ⟨i, hi, hsame⟩ := exists_resolved hoverlaid.resolves hindex
  have hblock : (strippedInstance i).block = (strippedInstance inst).block := by rw [hsame]
  have hexternal' : (strippedInstance i).isExternal = (strippedInstance inst).isExternal := by rw [hsame]
  change i.block = inst.block at hblock
  change i.isExternal = inst.isExternal at hexternal'
  have hmem : i ∈ e.bundle.document.spec.instances := by
    obtain ⟨_, _, hspec⟩ := spec_of_withDerivedHostRouting hoverlaid.derived
    rw [hspec]
    exact List.mem_of_getElem? hi
  -- an external instance has neither a block nor an environment
  obtain ⟨-, hresources, -⟩ := validate_ok_iff.mp hvalid
  obtain ⟨before, herrors⟩ := exists_instanceErrors_eq_nil (List.append_eq_nil_iff.mp hresources).2 hmem
  rw [instanceErrors, hexternal', hexternal, if_pos rfl] at herrors
  have hexternalErrors := (List.append_eq_nil_iff.mp herrors).2
  simp only [externalInstanceErrors, List.append_eq_nil_iff, reportIf_eq_nil, Bool.or_eq_false_iff,
    decide_eq_false_iff_not, not_not, Bool.not_eq_false', List.isEmpty_iff] at hexternalErrors
  obtain ⟨⟨⟨⟨⟨-, ⟨⟨⟨⟨⟨hnoBlock, -⟩, -⟩, -⟩, -⟩, hnoEnvironment⟩, hnoUnset⟩, -⟩, -⟩, -⟩, -⟩ := hexternalErrors
  obtain ⟨hvalue, hunset, -, -⟩ := resolve_at_key hnodup hoverlaid.resolves hindex hi key
  rw [← getLast?_of_resolve hnodup hoverlaid.resolves hindex key] at hvalue hunset
  change i.environment.get? key = (keyTouches host bundle options inst key).getLast?.bind Touch.value at hvalue
  change i.environmentUnset.contains key = (keyTouches host bundle options inst key).getLast?.any Touch.isUnset at hunset
  constructor
  · rw [SortedMap.get?, hnoEnvironment] at hvalue
    rw [hnoUnset] at hunset
    cases hlast : (keyTouches host bundle options inst key).getLast? with
    | none => exact List.getLast?_eq_none_iff.mp hlast
    | some touch =>
      rw [hlast] at hvalue hunset
      cases touch with
      | set value layer => cases hvalue
      | unset layer => cases hunset
  · have hnone : bundle.document.spec.blocks.get? inst.block = none := by
      rw [← hblock, hnoBlock, ← hkeeps.blocks]
      refine Option.eq_none_iff_forall_ne_some.mpr fun block hget => ?_
      have herrors := blockErrors_of_validate hvalid hget
      simp only [blockErrors, List.append_eq_nil_iff] at herrors
      exact absurd (validName_of_validateName herrors.1.1.1) (by decide)
    rw [defaultOrigins, environmentDefaults, hnone]
    rfl

/-- Nothing is supplied: the origins tell the truth where they list nothing. -/
theorem truth_of_nothing {history : List ShadowedOrigin} {supplies : List (List ShadowedOrigin)}
    (h : ∀ supply ∈ supplies, supply = []) :
    ((Listed history ↔ ∃ supply ∈ supplies, supply ≠ []) ∧
        (Listed history → ∀ supply ∈ supplies, supply ≠ [] → history = supply)) ↔ ¬Listed history := by
  have hnone : ¬∃ supply ∈ supplies, supply ≠ [] := fun ⟨supply, hsupply, hne⟩ => hne (h supply hsupply)
  constructor
  · exact fun htruth hlisted => hnone (htruth.1.mp hlisted)
  · intro hnot
    exact ⟨iff_of_false hnot hnone, fun hlisted => absurd hlisted hnot⟩

/-- All services are supplied alike: the origins tell the truth where they list just that. -/
theorem truth_of_same {history settings : List ShadowedOrigin} {supplies : List (List ShadowedOrigin)}
    (hne : settings ≠ []) (h : ∀ supply, supply ∈ supplies ↔ supply = settings) :
    ((Listed history ↔ ∃ supply ∈ supplies, supply ≠ []) ∧
        (Listed history → ∀ supply ∈ supplies, supply ≠ [] → history = supply)) ↔
      Listed history ∧ history = settings := by
  have hsome : ∃ supply ∈ supplies, supply ≠ [] := ⟨settings, (h settings).mpr rfl, hne⟩
  constructor
  · intro htruth
    have hlisted := htruth.1.mpr hsome
    exact ⟨hlisted, htruth.2 hlisted settings ((h settings).mpr rfl) hne⟩
  · rintro ⟨hlisted, rfl⟩
    exact ⟨iff_of_true hlisted hsome, fun _ supply hsupply _ => ((h supply).mp hsupply).symm⟩

/-- Services are supplied with defaults of their own: the origins, which list all of them,
tell the truth where there is at most one. -/
theorem truth_of_own {α : Type} {own : α → List ShadowedOrigin} {services : List α}
    (hown : ∀ a ∈ services, (own a).length ≤ 1) {supplies : List (List ShadowedOrigin)}
    (h : ∀ supply, supply ∈ supplies ↔ ∃ a ∈ services, own a = supply) :
    ((Listed (services.flatMap own) ↔ ∃ supply ∈ supplies, supply ≠ []) ∧
        (Listed (services.flatMap own) → ∀ supply ∈ supplies, supply ≠ [] → services.flatMap own = supply)) ↔
      services.flatMap own = [] ∨ ∃ origin, services.flatMap own = [origin] ∧ origin.value ≠ "«unset»" := by
  have hsupplied : (∃ supply ∈ supplies, supply ≠ []) ↔ services.flatMap own ≠ [] := by
    rw [Ne, List.flatMap_eq_nil_iff]
    push Not
    constructor
    · rintro ⟨supply, hsupply, hne⟩
      obtain ⟨a, ha, rfl⟩ := (h supply).mp hsupply
      exact ⟨a, ha, hne⟩
    · rintro ⟨a, ha, hne⟩
      exact ⟨own a, (h _).mpr ⟨a, ha, rfl⟩, hne⟩
  rw [hsupplied]
  constructor
  · rintro ⟨hlisted, hall⟩
    refine or_iff_not_imp_left.mpr fun hne => ?_
    obtain ⟨last, hlast, hvalue⟩ := hlisted.mpr hne
    obtain ⟨supply, hsupply, hsupplyNe⟩ := hsupplied.mpr hne
    have heq := hall ⟨last, hlast, hvalue⟩ supply hsupply hsupplyNe
    obtain ⟨a, ha, rfl⟩ := (h supply).mp hsupply
    obtain ⟨origin, horigin⟩ := List.length_eq_one_iff.mp
      (le_antisymm (hown a ha) (List.length_pos_iff.mpr hsupplyNe))
    refine ⟨origin, heq.trans horigin, ?_⟩
    rw [heq, horigin, List.getLast?_singleton, Option.some_inj] at hlast
    rwa [hlast]
  · rintro (hnil | ⟨origin, hone, hvalue⟩)
    · rw [hnil]
      refine ⟨iff_of_false ?_ (not_not.mpr rfl), ?_⟩ <;> rintro ⟨last, hlast, -⟩ <;> cases hlast
    · rw [hone]
      have hlisted : Listed [origin] := ⟨origin, rfl, hvalue⟩
      refine ⟨iff_of_true hlisted (List.cons_ne_nil _ _), fun _ supply hsupply hne => ?_⟩
      obtain ⟨a, ha, rfl⟩ := (h supply).mp hsupply
      -- the defaults of a service are among those of all services
      have hsub : own a ⊆ [origin] := by
        rw [← hone]
        exact fun x hx => List.mem_flatMap.mpr ⟨a, ha, hx⟩
      obtain ⟨found, hfound⟩ := List.length_eq_one_iff.mp (le_antisymm (hown a ha) (List.length_pos_iff.mpr hne))
      rw [hfound] at hsub ⊢
      rw [List.mem_singleton.mp (hsub (List.mem_singleton_self found))]

/-- **When origins tell the truth.** In a plan with overlays, a variation or values of the
command line, the origins of a key of an instance tell the truth exactly where its layers
can be traced. -/
theorem origins_truthful_iff (host : Host) (bundle : Bundle) (options : OverlayOptions) (devices : Devices) (plan : Plan)
    (hplain : isPlain bundle options = false) (h : planWithOverlaysAndDevices host bundle options devices = .ok plan)
    (inst : Instance) (hinst : inst ∈ bundle.document.spec.instances) (key : String) :
    Truthful host bundle options plan inst.name key ↔ Traceable host bundle options inst key := by
  obtain ⟨e, groups, he, hvalid, -⟩ := planWithOverlaysAndDevices_ok h
  have hmem := mem_suppliedBy_iff hplain he hvalid hinst key
  rw [truthful_iff hplain h hinst key rfl]
  cases hexternal : inst.isExternal with
  | true =>
    obtain ⟨htouches, hdefaults⟩ := external_says_nothing hplain he hvalid hinst hexternal key
    rw [truth_of_nothing fun supply hsupply => absurd ((hmem supply).mp hsupply).1 (by rw [hexternal]; decide)]
    rw [Traceable, htouches, hdefaults]
    refine iff_of_true ?_ ?_
    · rintro ⟨last, hlast, -⟩
      cases hlast
    · dsimp only [List.getLast?_nil]
      split_ifs
      · exact fun last hlast => absurd hlast (by simp)
      · exact .inl rfl
  | false =>
    obtain ⟨block, hblock, entry, hentry⟩ : ∃ block, bundle.document.spec.blocks.get? inst.block = some block ∧
        ∃ entry, entry ∈ block.services.entries := by
      have hkeeps := keepsSpec he
      obtain ⟨i, hi, hsame⟩ := List.mem_map.mp (hkeeps.instances ▸ List.mem_map.mpr ⟨inst, hinst, rfl⟩)
      have hrun : (strippedInstance i).isExternal = (strippedInstance inst).isExternal := by rw [hsame]
      have hname : (strippedInstance i).block = (strippedInstance inst).block := by rw [hsame]
      obtain ⟨block, hblock, hservice⟩ := exists_service hvalid hi (hrun.trans hexternal)
      rw [hkeeps.blocks, show i.block = inst.block from hname] at hblock
      exact ⟨block, hblock, hservice⟩
    have hsupplies : ∀ supply, supply ∈ suppliedBy host bundle options inst.name key ↔
        ∃ entry ∈ block.services.entries, supplyOf host bundle options inst key entry = supply := by
      intro supply
      rw [hmem, hexternal, hblock]
      simp
    have hsame : ∀ {same : List ShadowedOrigin}, (∀ entry, supplyOf host bundle options inst key entry = same) →
        ∀ supply, supply ∈ suppliedBy host bundle options inst.name key ↔ supply = same := by
      intro same hall supply
      rw [hsupplies]
      constructor
      · rintro ⟨entry, -, rfl⟩
        exact hall entry
      · rintro rfl
        exact ⟨entry, hentry, hall entry⟩
    unfold Traceable
    unfold supplyOf at hsame hsupplies
    cases hlast : (keyTouches host bundle options inst key).getLast? with
    | some touch =>
      rw [hlast] at hsame
      obtain ⟨before, htouches⟩ := List.getLast?_eq_some_iff.mp hlast
      cases touch with
      | set value layer =>
        have hhistory : defaultOrigins bundle inst key ++ recorded false (keyTouches host bundle options inst key) =
            (defaultOrigins bundle inst key ++ recorded false before) ++ [⟨overlayValue value, layer⟩] := by
          rw [htouches, recorded_append, recorded, recorded, List.append_assoc]
        by_cases hreserved : isReserved key = true ∧ value.reference = none
        · simp only [if_pos hreserved] at hsame ⊢
          rw [truth_of_nothing fun supply hsupply => (hsame (fun _ => rfl) supply).mp hsupply, hhistory, listed_concat,
            not_not]
        · simp only [if_neg hreserved] at hsame ⊢
          have hne : settings host bundle options inst key ≠ [] := by
            rw [settings, htouches, List.filterMap_append]
            simp [Touch.origin]
          rw [truth_of_same hne (hsame fun _ => rfl), ← recorded_eq_origins_iff]
          refine and_congr ?_ ?_
          · rw [hhistory, listed_concat]
          · rw [settings, List.append_cancel_left_eq]
      | unset layer =>
        rw [truth_of_nothing fun supply hsupply => (hsame (fun _ => rfl) supply).mp hsupply]
        by_cases hset : ∃ touch ∈ keyTouches host bundle options inst key, touch.isUnset = false
        · obtain ⟨last, hrecorded, hvalue⟩ := getLast?_recorded_of_unset hset hlast
          refine iff_of_true (fun hlisted => ?_) (.inl hset)
          obtain ⟨last', hlast', hvalue'⟩ := hlisted
          rw [List.getLast?_append, hrecorded, Option.some_or, Option.some_inj] at hlast'
          exact hvalue' (hlast' ▸ hvalue)
        · have hunsets : ∀ touch ∈ keyTouches host bundle options inst key, touch.isUnset = true := by
            simpa using hset
          rw [recorded_of_forall_unset hunsets, List.append_nil, not_listed_iff]
          exact ⟨.inr, fun hor => hor.resolve_left hset⟩
    | none =>
      rw [hlast] at hsame hsupplies
      rw [List.getLast?_eq_none_iff.mp hlast, recorded, List.append_nil]
      by_cases hgiven : isReserved key = true ∨
          atKey key (parameterLayers bundle.document (loadOverlays host bundle options).1 inst) ≠ []
      · simp only [if_pos hgiven] at hsame ⊢
        rw [truth_of_nothing fun supply hsupply => (hsame (fun _ => rfl) supply).mp hsupply, not_listed_iff]
      · simp only [if_neg hgiven] at hsupplies ⊢
        rw [defaultOrigins_eq hblock]
        refine truth_of_own (fun entry _ => ?_) hsupplies
        rw [ownDefault, List.length_map]
        cases entry.2.execution.runtime.environment.get? key <;> simp

end Truth

/-- The web server, with a level of logging of its own. -/
def loggingBlock : Block where
  parameters := ∅
  services := .ofList [("ui", {
    execution := .container (some "nginx:1.27") none [] ⟨none, ⟨"/workspace"⟩, false, .ofList [("LOG_LEVEL", "info")]⟩
    publish := [3000]
    volumes := []
    dependsOn := ∅
    probe := some (.http "/" 3000 false) })]

/-- The shop, with web servers that log, and an overlay. -/
def loggingBundle : Bundle :=
  shopBundle.withDocument (shopBundle.document.withSpec { shopBundle.document.spec with
    overlays := [⟨"dev.yaml"⟩]
    blocks := .ofList [("web", loggingBlock)] })

/-- The level of logging of `front` is unset, and its service has none. The origins still
say that it is `info`. -/
theorem unset_default_listed :
    ∃ plan, planWithOverlaysAndDevices (overlaidHost (frontOverlay ∅ ["LOG_LEVEL"])) loggingBundle OverlayOptions.none ∅
        = .ok plan ∧
      (⟨"front", "environment", "LOG_LEVEL", "info", "block default web/ui", []⟩ : OriginTrace) ∈ plan.origins ∧
      (∀ supply ∈ suppliedBy (overlaidHost (frontOverlay ∅ ["LOG_LEVEL"])) loggingBundle OverlayOptions.none "front"
        "LOG_LEVEL", supply = []) ∧
      ¬Truthful (overlaidHost (frontOverlay ∅ ["LOG_LEVEL"])) loggingBundle OverlayOptions.none plan "front"
        "LOG_LEVEL" := by
  have hrun : (planWithOverlaysAndDevices (overlaidHost (frontOverlay ∅ ["LOG_LEVEL"])) loggingBundle
      OverlayOptions.none ∅).toOption.map (fun _ => ()) = some () := by decide +kernel
  obtain ⟨plan, hplan, -⟩ := exists_ok_of_toOption hrun
  have hsupplied : suppliedBy (overlaidHost (frontOverlay ∅ ["LOG_LEVEL"])) loggingBundle OverlayOptions.none "front"
      "LOG_LEVEL" = [[]] := by decide +kernel
  have hinst : webInstance "front" (some "front.localhost") ∈ loggingBundle.document.spec.instances :=
    List.mem_cons_self ..
  have hmem : (⟨"front", "environment", "LOG_LEVEL", "info", "block default web/ui", []⟩ : OriginTrace) ∈ plan.origins :=
    ((mem_origins_iff (by decide) hplan hinst "LOG_LEVEL" _).mpr ⟨by decide, by decide +kernel⟩).1
  refine ⟨plan, hplan, hmem, ?_, ?_⟩
  · rw [hsupplied]
    simp
  · rintro ⟨hlisted, -⟩
    obtain ⟨supply, hsupply, hne⟩ := hlisted.mp ⟨_, hmem, rfl, rfl, rfl⟩
    rw [hsupplied] at hsupply
    exact hne (List.mem_singleton.mp hsupply)

/-- The level of logging of `front` is set by an overlay, and its origins tell the truth. -/
theorem set_level_truthful :
    ∃ plan, planWithOverlaysAndDevices (overlaidHost (frontOverlay (.ofList [("LOG_LEVEL", .literal "debug")]) []))
        loggingBundle OverlayOptions.none ∅ = .ok plan ∧
      suppliedBy (overlaidHost (frontOverlay (.ofList [("LOG_LEVEL", .literal "debug")]) [])) loggingBundle
        OverlayOptions.none "front" "LOG_LEVEL" =
          [[⟨"info", "block default web/ui"⟩, ⟨"debug", "/srv/shop/dev.yaml"⟩]] ∧
      Truthful (overlaidHost (frontOverlay (.ofList [("LOG_LEVEL", .literal "debug")]) [])) loggingBundle
        OverlayOptions.none plan "front" "LOG_LEVEL" := by
  have hrun : (planWithOverlaysAndDevices (overlaidHost (frontOverlay (.ofList [("LOG_LEVEL", .literal "debug")]) []))
      loggingBundle OverlayOptions.none ∅).toOption.map (fun _ => ()) = some () := by decide +kernel
  obtain ⟨plan, hplan, -⟩ := exists_ok_of_toOption hrun
  have htouches : keyTouches (overlaidHost (frontOverlay (.ofList [("LOG_LEVEL", .literal "debug")]) [])) loggingBundle
      OverlayOptions.none (webInstance "front" (some "front.localhost")) "LOG_LEVEL" =
        [.set (.literal "debug") "/srv/shop/dev.yaml"] := by decide +kernel
  refine ⟨plan, hplan, by decide +kernel, ?_⟩
  refine (origins_truthful_iff _ loggingBundle OverlayOptions.none ∅ plan (by decide) hplan
    (webInstance "front" (some "front.localhost")) (List.mem_cons_self ..) "LOG_LEVEL").mpr ?_
  rw [Traceable, htouches]
  exact ⟨by decide, List.IsChain.singleton _⟩

end Apmpr.Planner
