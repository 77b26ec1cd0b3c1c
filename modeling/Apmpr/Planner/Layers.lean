import Apmpr.Planner.Environment
import Apmpr.Planner.Replan

/-!
# Layers of a deployment

What `resolve` folds into an instance, seen at one environment key: the layers touch the
key one after another, and `EnvironmentView` is what the three collections of the fold (the
values, the unset list and the secrets) and the traces say of it. Every loop of `resolve`
is a fold of touches through this view (`view_foldLayers`), whatever it does to other keys
and other instances.

## What is proved

`parseDotenv_ok` — a file of environment values gives what its `KEY=VALUE` lines say.
`layer_precedence` — the resolved environment, unset list, secrets and parameters of an
instance are what the last layer that touches a key says, and a generated service has the
placeholder for every secret.
-/

namespace Apmpr.Planner

/-! ### Instances by name -/

/-- The first instance of a name. -/
def instanceNamed (instances : List Instance) (name : String) : Option Instance :=
  instances.find? fun inst => inst.name = name

/-- The names of instances. -/
def instanceNames (instances : List Instance) : List String := instances.map (·.name)

theorem instanceNamed_cons (inst : Instance) (rest : List Instance) (name : String) :
    instanceNamed (inst :: rest) name = if inst.name = name then some inst else instanceNamed rest name := by
  rw [instanceNamed, List.find?_cons]
  by_cases h : inst.name = name <;> simp [h, instanceNamed]

theorem nodup_instanceNames_cons {inst : Instance} {rest : List Instance} :
    (instanceNames (inst :: rest)).Nodup ↔ inst.name ∉ instanceNames rest ∧ (instanceNames rest).Nodup :=
  List.nodup_cons

theorem instanceNamed_of_getElem? {instances : List Instance} (hnames : (instanceNames instances).Nodup) {index : ℕ}
    {inst : Instance} (h : instances[index]? = some inst) : instanceNamed instances inst.name = some inst := by
  induction instances generalizing index with
  | nil => cases h
  | cons first rest ih =>
    obtain ⟨hfirst, hrest⟩ := nodup_instanceNames_cons.mp hnames
    rw [instanceNamed_cons]
    cases index with
    | zero =>
      obtain rfl := Option.some.inj h
      rw [if_pos rfl]
    | succ index =>
      have hmem : inst.name ∈ instanceNames rest := List.mem_map.mpr ⟨inst, List.mem_of_getElem? h, rfl⟩
      rw [if_neg fun heq : first.name = inst.name => hfirst (heq ▸ hmem)]
      exact ih hrest h

section Update

variable {f : Instance → Instance} (hf : ∀ inst, (f inst).name = inst.name)
include hf

/-- A change of the first instance of a name, seen by name. -/
theorem instanceNamed_updateInstance (r : Resolving) (target name : String) :
    instanceNamed (r.updateInstance target f).instances name =
      if target = name then (instanceNamed r.instances name).map f else instanceNamed r.instances name := by
  unfold Resolving.updateInstance
  obtain ⟨instances, _, _, _, _⟩ := r
  dsimp only
  induction instances with
  | nil => simp [instanceNamed]
  | cons first rest ih =>
    rw [List.findIdx?_cons]
    by_cases hfirst : first.name = target
    · simp only [hfirst, decide_true, if_true, List.modify_zero_cons]
      rw [instanceNamed_cons, instanceNamed_cons, hf, hfirst]
      by_cases hname : target = name <;> simp [hname]
    · cases hindex : rest.findIdx? fun inst => inst.name = target with
      | none =>
        rw [hindex] at ih
        simp only [hfirst, decide_false, Bool.false_eq_true, if_false, Option.map_none]
        rw [instanceNamed_cons]
        by_cases hname : first.name = name
        · have hne : target ≠ name := fun heq => hfirst (hname.trans heq.symm)
          simp [hname, hne]
        · simpa [hname] using ih
      | some index =>
        rw [hindex] at ih
        simp only [hfirst, decide_false, Bool.false_eq_true, if_false, Option.map_some, List.modify_succ_cons]
        rw [instanceNamed_cons, instanceNamed_cons]
        by_cases hname : first.name = name
        · have hne : target ≠ name := fun heq => hfirst (hname.trans heq.symm)
          simp [hname, hne]
        · simpa [hname] using ih

end Update

section Frame

variable {f : Instance → Instance} (hf : ∀ inst, strippedInstance (f inst) = strippedInstance inst)
include hf

theorem name_of_stripped (inst : Instance) : (f inst).name = inst.name := by
  have hname : (strippedInstance (f inst)).name = (strippedInstance inst).name := by rw [hf]
  exact hname

theorem stripped_modify (instances : List Instance) (index : ℕ) :
    (instances.modify index f).map strippedInstance = instances.map strippedInstance := by
  induction instances generalizing index with
  | nil => cases index <;> rfl
  | cons first rest ih =>
    cases index with
    | zero => rw [List.modify_zero_cons, List.map_cons, List.map_cons, hf]
    | succ index => rw [List.modify_succ_cons, List.map_cons, List.map_cons, ih]

theorem stripped_updateInstance (r : Resolving) (target : String) :
    (r.updateInstance target f).instances.map strippedInstance = r.instances.map strippedInstance := by
  unfold Resolving.updateInstance
  split
  · exact stripped_modify hf _ _
  · rfl

end Frame

theorem instanceNames_of_stripped {instances others : List Instance}
    (h : instances.map strippedInstance = others.map strippedInstance) : instanceNames instances = instanceNames others := by
  have hnames := congrArg (List.map Instance.name) h
  rwa [List.map_map, List.map_map] at hnames

/-! ### Touches -/

/-- What a layer does to an environment key of an instance. -/
inductive Touch where
  | set (value : OverlayValue) (layer : String)
  | unset (layer : String)
  deriving DecidableEq

/-- The reference a value is. -/
def OverlayValue.reference : OverlayValue → Option OverlaySecretReference
  | .literal _ => none
  | .secret reference => some reference

/-- The value a touch leaves. -/
def Touch.value : Touch → Option String
  | .set value _ => some (overlayValue value)
  | .unset _ => none

/-- The secret a touch leaves. -/
def Touch.secret : Touch → Option OverlaySecretReference
  | .set value _ => value.reference
  | .unset _ => none

/-- Whether a touch takes the key away. -/
def Touch.isUnset : Touch → Bool
  | .set _ _ => false
  | .unset _ => true

/-- A trace with another value: the value before becomes shadowed. -/
def nextTrace (inst category key : String) (trace : Option OriginTrace) (value layer : String) : OriginTrace :=
  match trace with
  | some trace => { trace with
      value := value
      layer := layer
      shadowed := trace.shadowed ++ [⟨trace.value, trace.layer⟩] }
  | none => ⟨inst, category, key, value, layer, []⟩

/-- A trace that shows the removed value, if it shows nothing else. -/
def removedTrace (trace : OriginTrace) (previous : String) : OriginTrace :=
  if trace.shadowed.isEmpty then { trace with shadowed := [⟨previous, "earlier overlay"⟩] } else trace

/-- What the fold says of an environment key of an instance. -/
structure EnvironmentView where
  value : Option String
  unset : Bool
  secret : Option OverlaySecretReference
  trace : Option OriginTrace
  deriving DecidableEq

/-- A touch of the key. -/
def EnvironmentView.touch (inst key : String) (view : EnvironmentView) : Touch → EnvironmentView
  | .set value layer =>
    ⟨some (overlayValue value), false, value.reference,
      some (nextTrace inst "environment" key view.trace (overlayValue value) layer)⟩
  | .unset layer =>
    ⟨none, true, none, match view.value with
      | none => view.trace
      | some previous =>
        some (removedTrace (nextTrace inst "environment" key view.trace "«unset»" layer) previous)⟩

/-- The view of a key of an instance. -/
def Resolving.view (inst key : String) (r : Resolving) : EnvironmentView where
  value := (instanceNamed r.instances inst).bind (·.environment.get? key)
  unset := (instanceNamed r.instances inst).any (·.environmentUnset.contains key)
  secret := r.secrets.get? (toLex (inst, key))
  trace := r.traces.get? (toLex (inst, toLex ("environment", key)))

theorem get?_setTrace (traces : SortedMap (String ×ₗ String ×ₗ String) OriginTrace)
    (inst category key value layer : String) (id : String ×ₗ String ×ₗ String) :
    (setTrace traces inst category key value layer).get? id =
      if id = toLex (inst, toLex (category, key)) then
        some (nextTrace inst category key (traces.get? id) value layer)
      else traces.get? id := by
  unfold setTrace nextTrace
  dsimp only
  cases h : traces.get? (toLex (inst, toLex (category, key))) with
  | none =>
    dsimp only
    rw [SortedMap.get?_insert]
    split_ifs with hid
    · rw [hid, h]
    · rfl
  | some trace =>
    dsimp only
    rw [SortedMap.get?_insert]
    split_ifs with hid
    · rw [hid, h]
    · rfl

theorem get?_markRemoved (traces : SortedMap (String ×ₗ String ×ₗ String) OriginTrace)
    (inst key previous : String) (id : String ×ₗ String ×ₗ String) :
    (markRemoved traces inst key previous).get? id =
      if id = toLex (inst, toLex ("environment", key)) then (traces.get? id).map (removedTrace · previous)
      else traces.get? id := by
  unfold markRemoved removedTrace
  dsimp only
  cases h : traces.get? (toLex (inst, toLex ("environment", key))) with
  | none =>
    dsimp only
    split_ifs with hid
    · rw [hid, h]
      rfl
    · rfl
  | some trace =>
    dsimp only
    by_cases hempty : trace.shadowed.isEmpty = true
    · rw [if_pos hempty, SortedMap.get?_insert]
      split_ifs with hid
      · rw [hid, h, Option.map_some, if_pos hempty]
      · rfl
    · rw [if_neg hempty]
      split_ifs with hid
      · rw [hid, h, Option.map_some, if_neg hempty]
      · rfl

theorem exists_instanceNamed {instances : List Instance} {name : String} (h : name ∈ instanceNames instances) :
    ∃ inst, instanceNamed instances name = some inst := by
  obtain ⟨inst, hinst, rfl⟩ := List.mem_map.mp h
  cases hfind : instanceNamed instances inst.name with
  | some found => exact ⟨found, rfl⟩
  | none => exact absurd (decide_eq_true rfl) (List.find?_eq_none.mp hfind inst hinst)

/-! ### The operations of the fold, at one key -/

section Operations

variable (r : Resolving) (inst key target other value layer : String)

theorem view_trace_of_ne (category : String) (h : category ≠ "environment") :
    (r.trace target category other value layer).view inst key = r.view inst key := by
  have hid : toLex (inst, toLex ("environment", key)) ≠ toLex (target, toLex (category, other)) := by
    intro heq
    exact h (congrArg (fun id => (ofLex (ofLex id).2).1) heq).symm
  simp only [Resolving.view, Resolving.trace, get?_setTrace, if_neg hid]

theorem environmentId_eq_iff :
    toLex (inst, toLex ("environment", key)) = toLex (target, toLex ("environment", other)) ↔
      target = inst ∧ other = key := by
  simp only [toLex_inj, Prod.mk.injEq, true_and]
  exact ⟨fun h => ⟨h.1.symm, h.2.symm⟩, fun h => ⟨h.1.symm, h.2.symm⟩⟩

theorem secretId_eq_iff : toLex (inst, key) = toLex (target, other) ↔ target = inst ∧ other = key := by
  simp only [toLex_inj, Prod.mk.injEq]
  exact ⟨fun h => ⟨h.1.symm, h.2.symm⟩, fun h => ⟨h.1.symm, h.2.symm⟩⟩

theorem name_setEnvironment (i : Instance) : (i.setEnvironment other value).name = i.name := rfl

/-- A literal value, at one key. -/
theorem view_setLiteral (h : inst ∈ instanceNames r.instances) :
    (r.setLiteral target other value layer).view inst key =
      if target = inst ∧ other = key then (r.view inst key).touch inst key (.set (.literal value) layer)
      else r.view inst key := by
  obtain ⟨i, hi⟩ := exists_instanceNamed h
  have hinstances : instanceNamed (r.setLiteral target other value layer).instances inst =
      if target = inst then some (i.setEnvironment other value) else some i := by
    simp only [Resolving.setLiteral, instanceNamed_updateInstance (name_setEnvironment other value)]
    simp [Resolving.trace, hi]
  have hsecrets : (r.setLiteral target other value layer).secrets = r.secrets.erase (toLex (target, other)) := by
    unfold Resolving.setLiteral Resolving.updateInstance Resolving.trace
    dsimp only
    split <;> rfl
  have htraces : (r.setLiteral target other value layer).traces =
      setTrace r.traces target "environment" other value layer := by
    unfold Resolving.setLiteral Resolving.updateInstance Resolving.trace
    dsimp only
    split <;> rfl
  simp only [Resolving.view, hinstances, hsecrets, htraces, SortedMap.get?_erase, get?_setTrace,
    environmentId_eq_iff, secretId_eq_iff, hi]
  by_cases htarget : target = inst
  · by_cases hother : other = key
    · simp [htarget, hother, Instance.setEnvironment, EnvironmentView.touch, overlayValue, OverlayValue.reference]
    · have hother' : key ≠ other := fun h => hother h.symm
      simp [htarget, hother, hother', Instance.setEnvironment]
  · simp [htarget]

/-- A value of an overlay, at one key. -/
theorem view_setValue (v : OverlayValue) (h : inst ∈ instanceNames r.instances) :
    (r.setValue target layer other v).view inst key =
      if target = inst ∧ other = key then (r.view inst key).touch inst key (.set v layer) else r.view inst key := by
  cases v with
  | literal value => exact view_setLiteral r inst key target other value layer h
  | secret reference =>
    have hlit := view_setLiteral r inst key target other (overlayValue (.secret reference)) layer h
    have hview : (r.setValue target layer other (.secret reference)).view inst key =
        { (r.setLiteral target other (overlayValue (.secret reference)) layer).view inst key with
          secret := if target = inst ∧ other = key then some reference
            else ((r.setLiteral target other (overlayValue (.secret reference)) layer).view inst key).secret } := by
      simp only [Resolving.setValue, Resolving.view, SortedMap.get?_insert, secretId_eq_iff]
    rw [hview, hlit]
    split_ifs <;> rfl

/-- An environment key of an instance taken away. -/
def Instance.unsetEnvironment (i : Instance) (key : String) : Instance :=
  { i with
    environment := i.environment.erase key
    environmentUnset := if i.environmentUnset.contains key then i.environmentUnset else i.environmentUnset ++ [key] }

theorem instances_unset :
    (r.unset target layer other).instances = (r.updateInstance target (·.unsetEnvironment other)).instances := by
  unfold Resolving.unset
  dsimp only
  split <;> rfl

theorem mem_environmentUnset_unsetEnvironment (i : Instance) :
    key ∈ (i.unsetEnvironment other).environmentUnset ↔ key = other ∨ key ∈ i.environmentUnset := by
  unfold Instance.unsetEnvironment
  dsimp only
  split_ifs with h
  · refine ⟨.inr, ?_⟩
    rintro (rfl | hmem)
    · simpa using h
    · exact hmem
  · rw [List.mem_append, List.mem_singleton, or_comm]

/-- A key an overlay unsets, at one key. -/
theorem view_unset (h : inst ∈ instanceNames r.instances) :
    (r.unset target layer other).view inst key =
      if target = inst ∧ other = key then (r.view inst key).touch inst key (.unset layer) else r.view inst key := by
  obtain ⟨i, hi⟩ := exists_instanceNamed h
  have hinstances : instanceNamed (r.unset target layer other).instances inst =
      if target = inst then some (i.unsetEnvironment other) else some i := by
    rw [instances_unset, instanceNamed_updateInstance (f := (·.unsetEnvironment other)) fun _ => rfl, hi]
    rfl
  have hsecrets : (r.unset target layer other).secrets = r.secrets.erase (toLex (target, other)) := by
    unfold Resolving.unset Resolving.updateInstance Resolving.trace
    dsimp only
    split <;> split <;> rfl
  have htraces : (r.unset target layer other).traces =
      match (instanceNamed r.instances target).bind (·.environment.get? other) with
      | none => r.traces
      | some previous => markRemoved (setTrace r.traces target "environment" other "«unset»" layer) target other previous := by
    cases hprevious : (instanceNamed r.instances target).bind (·.environment.get? other) <;>
      unfold instanceNamed at hprevious <;>
      simp only [Resolving.unset, hprevious, Resolving.updateInstance, Resolving.trace] <;> split <;> rfl
  have hget : (i.unsetEnvironment other).environment.get? key =
      if key = other then none else i.environment.get? key := SortedMap.get?_erase ..
  simp only [Resolving.view, hinstances, hsecrets, htraces, SortedMap.get?_erase, secretId_eq_iff, hi]
  by_cases htarget : target = inst
  · subst htarget
    rw [hi]
    by_cases hother : other = key
    · subst hother
      cases hvalue : i.environment.get? other <;>
        simp [EnvironmentView.touch, hvalue, hget, mem_environmentUnset_unsetEnvironment, get?_markRemoved,
          get?_setTrace]
    · have hother' : key ≠ other := fun h => hother h.symm
      have hid : toLex (target, toLex ("environment", key)) ≠ toLex (target, toLex ("environment", other)) :=
        fun heq => hother ((environmentId_eq_iff ..).mp heq).2
      cases hvalue : i.environment.get? other <;>
        simp [hother, hother', hvalue, hget, mem_environmentUnset_unsetEnvironment, get?_markRemoved, get?_setTrace,
          hid]
  · have hid : toLex (inst, toLex ("environment", key)) ≠ toLex (target, toLex ("environment", other)) :=
      fun heq => htarget ((environmentId_eq_iff ..).mp heq).1
    cases (instanceNamed r.instances target).bind (·.environment.get? other) with
    | none => simp [htarget]
    | some previous => simp [htarget, get?_markRemoved, get?_setTrace, hid]

/-- A parameter says nothing of an environment key. -/
theorem view_setParameter (h : inst ∈ instanceNames r.instances) :
    (r.setParameter target layer other value).view inst key = r.view inst key := by
  obtain ⟨i, hi⟩ := exists_instanceNamed h
  have htrace := view_trace_of_ne r inst key target other value layer "parameter" (by decide)
  have hinstances : instanceNamed (r.setParameter target layer other value).instances inst =
      if target = inst then some { i with parameters := i.parameters.insert other value } else some i := by
    rw [Resolving.setParameter, instanceNamed_updateInstance (f := fun i => { i with
      parameters := i.parameters.insert other value }) fun _ => rfl]
    simp [Resolving.trace, hi]
  have hrest : (r.setParameter target layer other value).secrets = r.secrets ∧
      (r.setParameter target layer other value).traces = setTrace r.traces target "parameter" other value layer := by
    unfold Resolving.setParameter Resolving.updateInstance Resolving.trace
    split <;> exact ⟨rfl, rfl⟩
  rw [← htrace]
  simp only [Resolving.view, hinstances, hrest.1, hrest.2, Resolving.trace, hi]
  by_cases htarget : target = inst <;> simp [htarget]

/-- What the fold says of a parameter of an instance. -/
def Resolving.parameter (r : Resolving) (inst key : String) : Option String :=
  (instanceNamed r.instances inst).bind (·.parameters.get? key)

theorem parameter_setParameter (h : inst ∈ instanceNames r.instances) :
    (r.setParameter target layer other value).parameter inst key =
      if target = inst ∧ other = key then some value else r.parameter inst key := by
  obtain ⟨i, hi⟩ := exists_instanceNamed h
  rw [Resolving.parameter, Resolving.setParameter, instanceNamed_updateInstance (f := fun i => { i with
    parameters := i.parameters.insert other value }) fun _ => rfl]
  simp only [Resolving.parameter, Resolving.trace, hi]
  by_cases htarget : target = inst
  · by_cases hother : other = key
    · simp [htarget, hother]
    · have hother' : key ≠ other := fun h => hother h.symm
      simp [htarget, hother, hother']
  · simp [htarget]

/-- A change of an instance that leaves its parameters. -/
theorem parameter_updateInstance {f : Instance → Instance} (hname : ∀ i, (f i).name = i.name)
    (hparameters : ∀ i, (f i).parameters = i.parameters) :
    (r.updateInstance target f).parameter inst key = r.parameter inst key := by
  rw [Resolving.parameter, instanceNamed_updateInstance hname, Resolving.parameter]
  split_ifs
  · cases instanceNamed r.instances inst with
    | none => rfl
    | some i => exact congrArg (SortedMap.get? · key) (hparameters i)
  · rfl

end Operations

/-! ### Touches one after another -/

/-- A touch of a key of an instance. -/
def Resolving.applyTouch (target : String) (r : Resolving) (e : String × Touch) : Resolving :=
  match e.2 with
  | .set value layer => r.setValue target layer e.1 value
  | .unset layer => r.unset target layer e.1

/-- A parameter of an instance, with its layer. -/
def Resolving.applyParameter (target layer : String) (r : Resolving) (e : String × String) : Resolving :=
  r.setParameter target layer e.1 e.2

section Fold

variable (r : Resolving) (inst key target layer : String)

theorem instances_setLiteral (other value : String) :
    (r.setLiteral target other value layer).instances =
      (r.updateInstance target (·.setEnvironment other value)).instances := by
  simp only [Resolving.setLiteral, Resolving.updateInstance, Resolving.trace]
  split <;> rfl

theorem instances_applyTouch (e : String × Touch) : ∃ f : Instance → Instance,
    (∀ i, strippedInstance (f i) = strippedInstance i) ∧ (∀ i, (f i).parameters = i.parameters) ∧
      (r.applyTouch target e).instances = (r.updateInstance target f).instances := by
  obtain ⟨key, touch⟩ := e
  cases touch with
  | unset layer => exact ⟨(·.unsetEnvironment key), fun _ => rfl, fun _ => rfl, instances_unset r target key layer⟩
  | set value layer =>
    refine ⟨(·.setEnvironment key (overlayValue value)), fun _ => rfl, fun _ => rfl, ?_⟩
    rw [← instances_setLiteral r target layer key]
    cases value <;> rfl

theorem stripped_applyTouch (e : String × Touch) :
    (r.applyTouch target e).instances.map strippedInstance = r.instances.map strippedInstance := by
  obtain ⟨f, hf, -, h⟩ := instances_applyTouch r target e
  rw [h, stripped_updateInstance hf]

theorem stripped_applyParameter (e : String × String) :
    (r.applyParameter target layer e).instances.map strippedInstance = r.instances.map strippedInstance :=
  stripped_updateInstance (f := fun i => { i with parameters := i.parameters.insert e.1 e.2 }) (fun _ => rfl) _ _

theorem names_applyTouch (e : String × Touch) :
    instanceNames (r.applyTouch target e).instances = instanceNames r.instances :=
  instanceNames_of_stripped (stripped_applyTouch r target e)

theorem names_applyParameter (e : String × String) :
    instanceNames (r.applyParameter target layer e).instances = instanceNames r.instances :=
  instanceNames_of_stripped (stripped_applyParameter r target layer e)

theorem view_applyTouch (e : String × Touch) (h : inst ∈ instanceNames r.instances) :
    (r.applyTouch target e).view inst key =
      if target = inst ∧ e.1 = key then (r.view inst key).touch inst key e.2 else r.view inst key := by
  obtain ⟨other, touch⟩ := e
  cases touch with
  | unset layer => exact view_unset r inst key target other layer h
  | set value layer => exact view_setValue r inst key target other layer value h

theorem parameter_applyTouch (e : String × Touch) :
    (r.applyTouch target e).parameter inst key = r.parameter inst key := by
  obtain ⟨f, hf, hparameters, h⟩ := instances_applyTouch r target e
  rw [Resolving.parameter, h]
  exact parameter_updateInstance r inst key target (name_of_stripped hf) hparameters

/-- Touches of an instance: the names stay, its keys are touched in order, and neither the
other instances nor the parameters change. -/
theorem foldl_applyTouch (l : List (String × Touch)) {names : List String} (hnames : instanceNames r.instances = names)
    (hinst : inst ∈ names) :
    instanceNames (l.foldl (·.applyTouch target) r).instances = names ∧
      (l.foldl (·.applyTouch target) r).view inst key =
        (if target = inst then (atKey key l).foldl (·.touch inst key) (r.view inst key) else r.view inst key) ∧
      (l.foldl (·.applyTouch target) r).parameter inst key = r.parameter inst key := by
  have hkeep : ∀ e ∈ l, ∀ s : Resolving, instanceNames s.instances = names →
      instanceNames (s.applyTouch target e).instances = names := fun e _ s hs => (names_applyTouch s target e).trans hs
  have hparameter := view_foldl (·.parameter inst key) (g := fun p _ => p) hkeep
    (fun e _ s _ => parameter_applyTouch s inst key target e) hnames
  refine ⟨hparameter.1, ?_, hparameter.2.trans (List.foldl_fixed l)⟩
  by_cases htarget : target = inst
  · rw [if_pos htarget]
    refine (view_foldl_writes (·.view inst key) hkeep (fun e _ s hs => ?_) hnames).2
    rw [view_applyTouch s inst key target e (by rw [hs]; exact hinst)]
    simp [htarget]
  · rw [if_neg htarget]
    refine (view_foldl (·.view inst key) (g := fun v _ => v) hkeep (fun e _ s hs => ?_) hnames).2.trans (List.foldl_fixed l)
    rw [view_applyTouch s inst key target e (by rw [hs]; exact hinst), if_neg fun h => htarget h.1]

/-- Parameters of an instance: the names stay, the last one at a key counts, and neither the
other instances nor the environment change. -/
theorem foldl_applyParameter (l : List (String × String)) {names : List String}
    (hnames : instanceNames r.instances = names) (hinst : inst ∈ names) :
    instanceNames (l.foldl (·.applyParameter target layer) r).instances = names ∧
      (l.foldl (·.applyParameter target layer) r).view inst key = r.view inst key ∧
      (l.foldl (·.applyParameter target layer) r).parameter inst key =
        if target = inst then (atKey key l).foldl (fun _ value => some value) (r.parameter inst key)
        else r.parameter inst key := by
  have hkeep : ∀ e ∈ l, ∀ s : Resolving, instanceNames s.instances = names →
      instanceNames (s.applyParameter target layer e).instances = names :=
    fun e _ s hs => (names_applyParameter s target layer e).trans hs
  have hview := view_foldl (·.view inst key) (g := fun v _ => v) hkeep
    (fun e _ s hs => view_setParameter s inst key target e.1 e.2 layer (by rw [hs]; exact hinst)) hnames
  refine ⟨hview.1, hview.2.trans (List.foldl_fixed l), ?_⟩
  by_cases htarget : target = inst
  · rw [if_pos htarget]
    refine (view_foldl_writes (·.parameter inst key) hkeep (fun e _ s hs => ?_) hnames).2
    rw [Resolving.applyParameter, parameter_setParameter s inst key target e.1 e.2 layer (by rw [hs]; exact hinst)]
    simp [htarget]
  · rw [if_neg htarget]
    refine (view_foldl (·.parameter inst key) (g := fun v _ => v) hkeep (fun e _ s hs => ?_) hnames).2.trans
      (List.foldl_fixed l)
    rw [Resolving.applyParameter, parameter_setParameter s inst key target e.1 e.2 layer (by rw [hs]; exact hinst),
      if_neg fun h => htarget h.1]

end Fold

/-! ### Overlays -/

section Overlays

variable (platform : Platform) (document : Document)

/-- The touches of an overlay: its files of environment values, then its unset list, then
its set map. -/
def overlayTouches (overlay : Overlay) : List (String × Touch) :=
  (loadEnvFiles platform overlay).1.entries.map (fun e => (e.1, .set (.literal e.2) (overlayLayer overlay))) ++
    overlay.environment.unset.map (fun key => (key, .unset (overlayLayer overlay))) ++
    overlay.environment.set.entries.map (fun e => (e.1, .set e.2 (overlayLayer overlay)))

/-- The injected files change neither the instances nor the traces of environment values. -/
theorem resolveFile_frame (overlay : Overlay) (layer : String) (target : Instance) (r : Resolving)
    (entry : OverlayFile × ℕ) (inst key : String) :
    (resolveFile platform document overlay layer target r entry).instances = r.instances ∧
      (resolveFile platform document overlay layer target r entry).view inst key = r.view inst key := by
  have hfail : ∀ (d : Diagnostic), ({ r with errors := r.errors ++ [d] } : Resolving).instances = r.instances ∧
      ({ r with errors := r.errors ++ [d] } : Resolving).view inst key = r.view inst key := fun d => ⟨rfl, rfl⟩
  unfold resolveFile
  dsimp only
  split_ifs
  · exact hfail _
  · exact hfail _
  · cases rawContent platform overlay entry.1 with
    | error d => exact hfail d
    | ok raw =>
      cases raw with
      | none => exact ⟨rfl, rfl⟩
      | some raw =>
        dsimp only
        cases renderedContent document overlay target entry.1 entry.2 raw with
        | error d => exact hfail d
        | ok content =>
          have hview := view_trace_of_ne r inst key target.name entry.1.target.text
            (injectedFile platform layer target entry.1 content).contentHash layer "file" (by decide)
          dsimp only
          split
          · exact ⟨rfl, hview⟩
          · exact ⟨rfl, hview⟩

theorem foldl_resolveFile_frame (overlay : Overlay) (layer : String) (target : Instance) (files : List (OverlayFile × ℕ))
    (r : Resolving) (inst key : String) :
    (files.foldl (resolveFile platform document overlay layer target) r).instances = r.instances ∧
      (files.foldl (resolveFile platform document overlay layer target) r).view inst key = r.view inst key := by
  induction files generalizing r with
  | nil => exact ⟨rfl, rfl⟩
  | cons entry rest ih =>
    have hstep := resolveFile_frame platform document overlay layer target r entry inst key
    have hrest := ih (resolveFile platform document overlay layer target r entry)
    exact ⟨hrest.1.trans hstep.1, hrest.2.trans hstep.2⟩

/-- The environment and the parameters of an overlay, given to an instance. -/
def applyValues (overlay : Overlay) (r : Resolving) (target : String) : Resolving :=
  overlay.parameters.entries.foldl (·.applyParameter target (overlayLayer overlay))
    ((overlayTouches platform overlay).foldl (·.applyTouch target)
      { r with errors := r.errors ++ (loadEnvFiles platform overlay).2 })

theorem applyValues_eq (overlay : Overlay) (r : Resolving) (target : String) :
    applyValues platform overlay r target =
      overlay.parameters.entries.foldl (fun r (key, value) => r.setParameter target (overlayLayer overlay) key value)
        (overlay.environment.set.entries.foldl
          (fun r (key, value) => r.setValue target (overlayLayer overlay) key value)
          (overlay.environment.unset.foldl (fun r key => r.unset target (overlayLayer overlay) key)
            ((loadEnvFiles platform overlay).1.entries.foldl
              (fun r (key, value) => r.setLiteral target key value (overlayLayer overlay))
              { r with errors := r.errors ++ (loadEnvFiles platform overlay).2 }))) := by
  rw [applyValues, overlayTouches, List.foldl_append, List.foldl_append, List.foldl_map, List.foldl_map, List.foldl_map]
  rfl

/-- An overlay is its values, then its files. -/
theorem applyOverlay_eq (overlay : Overlay) (r : Resolving) (target : String) :
    applyOverlay platform document overlay r target =
      match instanceNamed (applyValues platform overlay r target).instances target with
      | none => applyValues platform overlay r target
      | some inst => overlay.files.zipIdx.foldl (resolveFile platform document overlay (overlayLayer overlay) inst)
          (applyValues platform overlay r target) := by
  rw [applyOverlay]
  dsimp only
  rw [← applyValues_eq]
  rfl

variable (key : String) {inst : String} {names : List String} (hinst : inst ∈ names)
include hinst

/-- One overlay, given to one instance. -/
theorem applyOverlay_spec (overlay : Overlay) {r : Resolving} (hnames : instanceNames r.instances = names)
    (target : String) :
    instanceNames (applyOverlay platform document overlay r target).instances = names ∧
      (applyOverlay platform document overlay r target).view inst key =
        (if target = inst then (atKey key (overlayTouches platform overlay)).foldl (·.touch inst key) (r.view inst key)
          else r.view inst key) ∧
      (applyOverlay platform document overlay r target).parameter inst key =
        if target = inst then (atKey key overlay.parameters.entries).foldl (fun _ value => some value)
          (r.parameter inst key)
        else r.parameter inst key := by
  have htouches := foldl_applyTouch { r with errors := r.errors ++ (loadEnvFiles platform overlay).2 } inst key target
    (overlayTouches platform overlay) hnames hinst
  have hvalues := foldl_applyParameter _ inst key target (overlayLayer overlay) overlay.parameters.entries htouches.1
    hinst
  rw [htouches.2.1, htouches.2.2] at hvalues
  rw [applyOverlay_eq]
  split
  · exact hvalues
  · rename_i found _
    have hfiles := foldl_resolveFile_frame platform document overlay (overlayLayer overlay) found overlay.files.zipIdx
      (applyValues platform overlay r target) inst key
    refine ⟨(congrArg instanceNames hfiles.1).trans hvalues.1, hfiles.2.trans hvalues.2.1, ?_⟩
    rw [Resolving.parameter, hfiles.1]
    exact hvalues.2.2

omit hinst in
theorem nodup_matchingInstances (hnodup : (instanceNames document.spec.instances).Nodup) (overlay : Overlay) :
    (matchingInstances document overlay).Nodup := by
  unfold matchingInstances
  split_ifs
  · exact hnodup.sublist (List.filter_sublist.map _)
  · exact List.nodup_nil

/-- One overlay: the instances it matches are given it once. -/
theorem resolveOverlay_spec (hnodup : (instanceNames document.spec.instances).Nodup) (overlay : Overlay)
    {r : Resolving} (hnames : instanceNames r.instances = names) :
    instanceNames (resolveOverlay platform document r overlay).instances = names ∧
      (resolveOverlay platform document r overlay).view inst key =
        (if (matchingInstances document overlay).contains inst then
          (atKey key (overlayTouches platform overlay)).foldl (·.touch inst key) (r.view inst key)
        else r.view inst key) ∧
      (resolveOverlay platform document r overlay).parameter inst key =
        if (matchingInstances document overlay).contains inst then
          (atKey key overlay.parameters.entries).foldl (fun _ value => some value) (r.parameter inst key)
        else r.parameter inst key := by
  unfold resolveOverlay
  dsimp only
  by_cases hempty : ((matchingInstances document overlay).isEmpty && !overlay.selectors.optional) = true
  · have hnil : matchingInstances document overlay = [] := by
      simpa using (Bool.and_eq_true_iff.mp hempty).1
    rw [if_pos hempty, hnil]
    exact ⟨hnames, rfl, rfl⟩
  · rw [if_neg hempty]
    have hnames' : instanceNames
        ({ r with errors := r.errors ++ overlayErrors platform overlay } : Resolving).instances = names := hnames
    have hkeep : ∀ target ∈ matchingInstances document overlay, ∀ s : Resolving, instanceNames s.instances = names →
        instanceNames (applyOverlay platform document overlay s target).instances = names :=
      fun target _ s hs => (applyOverlay_spec platform document key hinst overlay hs target).1
    have hmatched := nodup_matchingInstances document hnodup overlay
    have hview := view_foldl_mem (·.view inst key) hmatched
      (g := fun v => (atKey key (overlayTouches platform overlay)).foldl (·.touch inst key) v) hkeep
      (fun target _ s hs => (applyOverlay_spec platform document key hinst overlay hs target).2.1) hnames'
    have hparameter := view_foldl_mem (·.parameter inst key) hmatched
      (g := fun v => (atKey key overlay.parameters.entries).foldl (fun _ value => some value) v) hkeep
      (fun target _ s hs => (applyOverlay_spec platform document key hinst overlay hs target).2.2) hnames'
    exact ⟨hview.1, hview.2, hparameter.2⟩

/-- The overlays that match an instance. -/
def matchingOverlays (overlays : List Overlay) (inst : String) : List Overlay :=
  overlays.filter fun overlay => (matchingInstances document overlay).contains inst

/-- The overlays, one after another. -/
theorem foldl_resolveOverlay (hnodup : (instanceNames document.spec.instances).Nodup) (overlays : List Overlay)
    {r : Resolving} (hnames : instanceNames r.instances = names) :
    instanceNames (overlays.foldl (resolveOverlay platform document) r).instances = names ∧
      (overlays.foldl (resolveOverlay platform document) r).view inst key =
        (atKey key ((matchingOverlays document overlays inst).flatMap (overlayTouches platform))).foldl
          (·.touch inst key) (r.view inst key) ∧
      (overlays.foldl (resolveOverlay platform document) r).parameter inst key =
        (atKey key ((matchingOverlays document overlays inst).flatMap (·.parameters.entries))).foldl
          (fun _ value => some value) (r.parameter inst key) := by
  induction overlays generalizing r with
  | nil => exact ⟨hnames, rfl, rfl⟩
  | cons overlay rest ih =>
    obtain ⟨hstep, hview, hparameter⟩ := resolveOverlay_spec platform document key hinst hnodup overlay hnames
    obtain ⟨hrest, hviews, hparameters⟩ := ih hstep
    refine ⟨hrest, ?_, ?_⟩
    · rw [List.foldl_cons, hviews, hview, matchingOverlays, matchingOverlays, List.filter_cons]
      split_ifs
      · rw [List.flatMap_cons, atKey_append, List.foldl_append]
      · rfl
    · rw [List.foldl_cons, hparameters, hparameter, matchingOverlays, matchingOverlays, List.filter_cons]
      split_ifs
      · rw [List.flatMap_cons, atKey_append, List.foldl_append]
      · rfl

end Overlays

/-! ### Defaults -/

section Defaults

variable (document : Document)

/-- The environment of an instance's block, with the layer every value is of. -/
def environmentDefaults (spec : DeploymentSpec) (inst : Instance) : List (String × String × String) :=
  (spec.blocks.get? inst.block).toList.flatMap fun block => block.services.entries.flatMap fun (service, definition) =>
    definition.execution.runtime.environment.entries.map fun (key, value) =>
      (key, value, s!"block default {inst.block}/{service}")

/-- The trace of a key whose values are only set. -/
def traceValues (inst category key : String) (trace : Option OriginTrace) (values : List (String × String)) :
    Option OriginTrace :=
  values.foldl (fun trace (value, layer) => some (nextTrace inst category key trace value layer)) trace

/-- An environment value traced, at one key. -/
theorem view_trace_environment (r : Resolving) (inst key target other value layer : String) :
    (r.trace target "environment" other value layer).view inst key =
      if target = inst ∧ other = key then
        { r.view inst key with
          trace := some (nextTrace inst "environment" key (r.view inst key).trace value layer) }
      else r.view inst key := by
  simp only [Resolving.view, Resolving.trace, get?_setTrace, environmentId_eq_iff]
  by_cases h : target = inst ∧ other = key
  · obtain ⟨rfl, rfl⟩ := h
    simp only [and_self, if_true]
  · simp only [if_neg h]

theorem traceDefaults_eq (spec : DeploymentSpec) (r : Resolving) (inst : Instance) :
    traceDefaults spec r inst =
      (environmentDefaults spec inst).foldl (fun r e => r.trace inst.name "environment" e.1 e.2.1 e.2.2)
        (((spec.blocks.get? inst.block).toList.flatMap parameterDefaults).foldl
          (fun r e => r.trace inst.name "parameter" e.1 e.2 s!"block default {inst.block}") r) := by
  unfold traceDefaults environmentDefaults
  cases spec.blocks.get? inst.block with
  | none => rfl
  | some block =>
    simp only [Option.toList_some, List.flatMap_cons, List.flatMap_nil, List.append_nil, List.foldl_flatMap,
      List.foldl_map]

/-- The defaults of one instance: only the traces of its keys change. -/
theorem traceDefaults_spec (spec : DeploymentSpec) (r : Resolving) (target : Instance) (inst key : String) :
    (traceDefaults spec r target).instances = r.instances ∧
      (traceDefaults spec r target).view inst key =
        if target.name = inst then
          { r.view inst key with
            trace := traceValues inst "environment" key (r.view inst key).trace
              (atKey key (environmentDefaults spec target)) }
        else r.view inst key := by
  rw [traceDefaults_eq]
  generalize (spec.blocks.get? target.block).toList.flatMap parameterDefaults = parameters
  generalize environmentDefaults spec target = values
  have hparameters : ∀ r : Resolving,
      (parameters.foldl (fun r e => r.trace target.name "parameter" e.1 e.2 s!"block default {target.block}")
          r).instances = r.instances ∧
        (parameters.foldl (fun r e => r.trace target.name "parameter" e.1 e.2 s!"block default {target.block}")
          r).view inst key = r.view inst key := by
    induction parameters with
    | nil => exact fun r => ⟨rfl, rfl⟩
    | cons e rest ih =>
      intro r
      obtain ⟨hinstances, hview⟩ := ih (r.trace target.name "parameter" e.1 e.2 s!"block default {target.block}")
      exact ⟨hinstances, hview.trans (view_trace_of_ne r inst key target.name e.1 e.2 _ "parameter" (by decide))⟩
  rw [← (hparameters r).1, ← (hparameters r).2]
  generalize parameters.foldl _ r = s
  clear hparameters
  induction values generalizing s with
  | nil =>
    refine ⟨rfl, ?_⟩
    split_ifs <;> rfl
  | cons e rest ih =>
    obtain ⟨hinstances, hview⟩ := ih (s.trace target.name "environment" e.1 e.2.1 e.2.2)
    refine ⟨hinstances, ?_⟩
    rw [List.foldl_cons, hview, view_trace_environment, atKey_cons]
    by_cases htarget : target.name = inst
    · by_cases hkey : e.1 = key
      · simp only [htarget, hkey, and_self, if_true]
        rfl
      · simp only [htarget, hkey, and_false, if_true, if_false]
    · simp only [htarget, false_and, if_false]

/-- The defaults of all instances. -/
theorem foldl_traceDefaults (hnodup : (instanceNames document.spec.instances).Nodup) (r : Resolving)
    {inst : Instance} (hinst : inst ∈ document.spec.instances) (key : String) :
    (document.spec.instances.foldl (traceDefaults document.spec) r).instances = r.instances ∧
      (document.spec.instances.foldl (traceDefaults document.spec) r).view inst.name key =
        { r.view inst.name key with
          trace := traceValues inst.name "environment" key (r.view inst.name key).trace
            (atKey key (environmentDefaults document.spec inst)) } := by
  obtain ⟨index, hindex⟩ := List.mem_iff_getElem?.mp hinst
  have hfold := view_foldl_once (·.view inst.name key) (·.name) hnodup (P := fun s => s.instances = r.instances)
    (f := traceDefaults document.spec) (k := inst.name)
    (g := fun target v => { v with
      trace := traceValues inst.name "environment" key v.trace (atKey key (environmentDefaults document.spec target)) })
    (fun target _ s hs => (traceDefaults_spec document.spec s target inst.name key).1.trans hs)
    (fun target _ s _ => (traceDefaults_spec document.spec s target inst.name key).2) (s := r) rfl
  refine ⟨hfold.1, hfold.2.trans ?_⟩
  have hfind : document.spec.instances.find? (fun a => a.name = inst.name) = some inst :=
    instanceNamed_of_getElem? hnodup hindex
  rw [hfind]

end Defaults

/-! ### Authored values and the command line -/

section Authored

variable (document : Document) (options : OverlayOptions)

/-- The touches of the deployment's own instance. -/
def authoredTouches (inst : Instance) : List (String × Touch) :=
  inst.environment.entries.map fun e => (e.1, .set (.literal e.2) s!"deployment instance {inst.name}")

/-- The touches of the command line. -/
def commandLineTouches : List (String × Touch) :=
  options.set.entries.map fun e => (e.1, .set (.literal e.2) "ephemeral CLI --set")

/-- One value of the command line. -/
def Resolving.applyCommandLine (target : String) (r : Resolving) (e : String × String) : Resolving :=
  if validEnvironmentName e.1 then r.setLiteral target e.1 e.2 "ephemeral CLI --set"
  else { r with errors := r.errors ++ [⟨.invalidOverlay, "--set", s!"invalid environment key `{e.1}`"⟩] }

theorem findIdx?_name {instances : List Instance} (hnodup : (instanceNames instances).Nodup) {index : ℕ} {name : String}
    (h : (instanceNames instances)[index]? = some name) :
    instances.findIdx? (fun inst => inst.name = name) = some index := by
  induction instances generalizing index with
  | nil => cases h
  | cons first rest ih =>
    obtain ⟨hfirst, hrest⟩ := nodup_instanceNames_cons.mp hnodup
    rw [List.findIdx?_cons]
    cases index with
    | zero =>
      have hname : first.name = name := Option.some.inj h
      simp [hname]
    | succ index =>
      have hmem : name ∈ instanceNames rest := List.mem_of_getElem? h
      have hname : first.name ≠ name := fun heq => hfirst (heq ▸ hmem)
      simp [hname, ih hrest h]

/-- A change by position is one by name. -/
theorem modify_eq_updateInstance {r : Resolving} {names : List String} (hnodup : names.Nodup)
    (hnames : instanceNames r.instances = names) {index : ℕ} {name : String} (h : names[index]? = some name)
    (f : Instance → Instance) :
    ({ r with instances := r.instances.modify index f } : Resolving) = r.updateInstance name f := by
  subst hnames
  rw [Resolving.updateInstance, findIdx?_name hnodup h]

theorem find?_reverse_name {instances : List Instance} (hnodup : (instanceNames instances).Nodup) {index : ℕ}
    {inst : Instance} (h : instances[index]? = some inst) :
    instances.reverse.find? (fun candidate => candidate.name = inst.name) = some inst := by
  have hreverse : (instanceNames instances.reverse).Nodup := by
    rw [instanceNames, List.map_reverse]
    exact List.nodup_reverse.mpr hnodup
  obtain ⟨index', h'⟩ := List.mem_iff_getElem?.mp (List.mem_reverse.mpr (List.mem_of_getElem? h))
  exact instanceNamed_of_getElem? hreverse h'

/-- What the deployment's own instance and the command line say, in terms of names. -/
theorem applyAuthored_eq (hnodup : (instanceNames document.spec.instances).Nodup) {r : Resolving}
    (hnames : instanceNames r.instances = instanceNames document.spec.instances) {index : ℕ} {inst : Instance}
    (hinst : document.spec.instances[index]? = some inst) :
    applyAuthored document options r index =
      options.set.entries.foldl (·.applyCommandLine inst.name)
        ((authoredTouches inst).foldl (·.applyTouch inst.name)
          (inst.parameters.entries.foldl (·.applyParameter inst.name s!"deployment instance {inst.name}") r)) := by
  have hindex : (instanceNames document.spec.instances)[index]? = some inst.name := by
    rw [instanceNames, List.getElem?_map, hinst, Option.map_some]
  obtain ⟨i, hi, hname⟩ : ∃ i, r.instances[index]? = some i ∧ i.name = inst.name := by
    rw [← hnames, instanceNames, List.getElem?_map] at hindex
    exact Option.map_eq_some_iff.mp hindex
  have hchange : ∀ {s : Resolving}, instanceNames s.instances = instanceNames document.spec.instances →
      ∀ f : Instance → Instance,
        ({ s with instances := s.instances.modify index f } : Resolving) = s.updateInstance inst.name f :=
    fun hs f => modify_eq_updateInstance hnodup hs hindex f
  have hset : ∀ {s : Resolving}, instanceNames s.instances = instanceNames document.spec.instances →
      ∀ key value layer, s.setLiteral inst.name key value layer =
        ({ s with
          instances := s.instances.modify index fun i => i.setEnvironment key value
          traces := setTrace s.traces inst.name "environment" key value layer
          secrets := s.secrets.erase (toLex (inst.name, key)) } : Resolving) := by
    intro s hs key value layer
    have hs' : instanceNames (s.trace inst.name "environment" key value layer).instances
        = instanceNames document.spec.instances := hs
    rw [Resolving.setLiteral, ← hchange hs']
    rfl
  rw [applyAuthored, hi]
  dsimp only
  rw [hname, find?_reverse_name hnodup hinst]
  simp only [Option.toList_some, List.flatMap_cons, List.flatMap_nil, List.append_nil]
  have hparameters := foldl_applyParameter r inst.name "" inst.name s!"deployment instance {inst.name}"
    inst.parameters.entries hnames (List.mem_of_getElem? hindex)
  have htouches := foldl_applyTouch _ inst.name "" inst.name (authoredTouches inst) hparameters.1
    (List.mem_of_getElem? hindex)
  have hfirst := foldl_eq_of_invariant (g := (·.applyParameter inst.name s!"deployment instance {inst.name}"))
    (P := fun s => instanceNames s.instances = instanceNames document.spec.instances) (s := r)
    (l := inst.parameters.entries) hnames (fun e _ s hs => (names_applyParameter s _ _ e).trans hs)
    fun e _ s hs => hchange (s := s.trace inst.name "parameter" e.1 e.2 s!"deployment instance {inst.name}") hs _
  rw [hfirst]
  refine (congrArg (List.foldl _ · options.set.entries) (foldl_eq_of_invariant
    (g := fun s e => s.applyTouch inst.name (e.1, .set (.literal e.2) s!"deployment instance {inst.name}"))
    (P := fun s => instanceNames s.instances = instanceNames document.spec.instances) hparameters.1
    (fun e _ s hs => (names_applyTouch s _ _).trans hs) fun e _ s hs => (hset hs _ _ _).symm)).trans ?_
  rw [authoredTouches, List.foldl_map] at htouches ⊢
  refine foldl_eq_of_invariant (P := fun s => instanceNames s.instances = instanceNames document.spec.instances)
    htouches.1 (fun e _ s hs => ?_) fun e _ s hs => ?_
  · rw [Resolving.applyCommandLine]
    split_ifs
    · exact (names_applyTouch s inst.name (e.1, .set (.literal e.2) "ephemeral CLI --set")).trans hs
    · exact hs
  · rw [Resolving.applyCommandLine]
    split_ifs
    · exact (hset hs _ _ _).symm
    · rfl

/-- What is wrong with the values of the command line. -/
def commandLineErrors : List Diagnostic :=
  (options.set.entries.filter fun e => !validEnvironmentName e.1).map fun e =>
    ⟨.invalidOverlay, "--set", s!"invalid environment key `{e.1}`"⟩

theorem errors_applyTouch (target : String) (r : Resolving) (e : String × Touch) :
    (r.applyTouch target e).errors = r.errors := by
  obtain ⟨key, touch⟩ := e
  cases touch with
  | set value layer =>
    cases value <;>
      simp only [Resolving.applyTouch, Resolving.setValue, Resolving.setLiteral, Resolving.updateInstance,
        Resolving.trace] <;> split <;> rfl
  | unset layer =>
    simp only [Resolving.applyTouch, Resolving.unset, Resolving.updateInstance, Resolving.trace]
    split <;> split <;> rfl

theorem errors_applyParameter (target layer : String) (r : Resolving) (e : String × String) :
    (r.applyParameter target layer e).errors = r.errors := by
  simp only [Resolving.applyParameter, Resolving.setParameter, Resolving.updateInstance, Resolving.trace]
  split <;> rfl

theorem errors_applyAuthored (hnodup : (instanceNames document.spec.instances).Nodup) {r : Resolving}
    (hnames : instanceNames r.instances = instanceNames document.spec.instances) {index : ℕ} {inst : Instance}
    (hinst : document.spec.instances[index]? = some inst) :
    (applyAuthored document options r index).errors = r.errors ++ commandLineErrors options := by
  have hparameters := (view_foldl (·.errors) (g := fun es _ => es) (P := fun _ => True)
    (l := inst.parameters.entries) (fun _ _ _ _ => trivial)
    (fun e _ s _ => errors_applyParameter inst.name s!"deployment instance {inst.name}" s e) (s := r) trivial).2
  have htouches := (view_foldl (·.errors) (g := fun es _ => es) (P := fun _ => True)
    (l := authoredTouches inst) (fun _ _ _ _ => trivial) (fun e _ s _ => errors_applyTouch inst.name s e)
    (s := inst.parameters.entries.foldl (·.applyParameter inst.name s!"deployment instance {inst.name}") r) trivial).2
  rw [List.foldl_fixed] at hparameters htouches
  rw [applyAuthored_eq document options hnodup hnames hinst, commandLineErrors, ← hparameters, ← htouches]
  generalize (authoredTouches inst).foldl _ _ = s
  induction options.set.entries generalizing s with
  | nil => rw [List.filter_nil, List.map_nil, List.append_nil, List.foldl_nil]
  | cons e rest ih =>
    rw [List.foldl_cons, ih, Resolving.applyCommandLine, List.filter_cons]
    by_cases hvalid : validEnvironmentName e.1 = true
    · simp only [hvalid, if_true, Bool.not_true, Bool.false_eq_true, if_false]
      rw [← errors_applyTouch inst.name s (e.1, .set (.literal e.2) "ephemeral CLI --set")]
      rfl
    · simp only [hvalid, Bool.not_false, if_true, Bool.false_eq_true, if_false, List.map_cons, List.append_assoc,
        List.singleton_append]

/-- What the deployment's own instance and the command line say of a key. -/
theorem applyAuthored_spec (hnodup : (instanceNames document.spec.instances).Nodup)
    (hvalid : commandLineErrors options = []) {r : Resolving}
    (hnames : instanceNames r.instances = instanceNames document.spec.instances) {index : ℕ} {target : Instance}
    (htarget : document.spec.instances[index]? = some target) (key : String) {inst : String}
    (hinst : inst ∈ instanceNames document.spec.instances) :
    instanceNames (applyAuthored document options r index).instances = instanceNames document.spec.instances ∧
      (applyAuthored document options r index).view inst key =
        (if target.name = inst then
          (atKey key (authoredTouches target ++ commandLineTouches options)).foldl (·.touch inst key) (r.view inst key)
        else r.view inst key) ∧
      (applyAuthored document options r index).parameter inst key =
        if target.name = inst then (atKey key target.parameters.entries).foldl (fun _ value => some value)
          (r.parameter inst key)
        else r.parameter inst key := by
  have hall : ∀ e ∈ options.set.entries, validEnvironmentName e.1 = true := by
    intro e he
    by_contra hinvalid
    have hmem : e ∈ options.set.entries.filter fun e => !validEnvironmentName e.1 :=
      List.mem_filter.mpr ⟨he, by simpa using hinvalid⟩
    rw [List.map_eq_nil_iff.mp hvalid] at hmem
    cases hmem
  have hline : ∀ s : Resolving, options.set.entries.foldl (·.applyCommandLine target.name) s =
      (commandLineTouches options).foldl (·.applyTouch target.name) s := by
    intro s
    rw [commandLineTouches, List.foldl_map]
    refine foldl_eq_of_invariant (P := fun _ => True) trivial (fun _ _ _ _ => trivial) fun e he s _ => ?_
    rw [Resolving.applyCommandLine, if_pos (hall e he)]
    rfl
  have hparameters := foldl_applyParameter r inst key target.name s!"deployment instance {target.name}"
    target.parameters.entries hnames hinst
  have htouches := foldl_applyTouch _ inst key target.name (authoredTouches target ++ commandLineTouches options)
    hparameters.1 hinst
  rw [hparameters.2.1, hparameters.2.2] at htouches
  rw [applyAuthored_eq document options hnodup hnames htarget, hline, ← List.foldl_append]
  exact htouches

/-- The authored values of all instances: an instance is given its own. -/
theorem foldl_applyAuthored (hnodup : (instanceNames document.spec.instances).Nodup)
    (hvalid : commandLineErrors options = []) {r : Resolving}
    (hnames : instanceNames r.instances = instanceNames document.spec.instances) {index : ℕ} {inst : Instance}
    (hinst : document.spec.instances[index]? = some inst) (key : String) :
    let final := (List.range document.spec.instances.length).foldl (applyAuthored document options) r
    instanceNames final.instances = instanceNames document.spec.instances ∧
      final.view inst.name key = (atKey key (authoredTouches inst ++ commandLineTouches options)).foldl
        (·.touch inst.name key) (r.view inst.name key) ∧
      final.parameter inst.name key = (atKey key inst.parameters.entries).foldl (fun _ value => some value)
        (r.parameter inst.name key) := by
  have hlength : index < document.spec.instances.length := List.getElem?_eq_some_iff.mp hinst |>.1
  have hmem : inst.name ∈ instanceNames document.spec.instances :=
    List.mem_map.mpr ⟨inst, List.mem_of_getElem? hinst, rfl⟩
  have hrange : ((List.range document.spec.instances.length).map
      fun i => (document.spec.instances[i]?).map (·.name)).Nodup := by
    have heq : ((List.range document.spec.instances.length).map fun i => (document.spec.instances[i]?).map (·.name))
        = (instanceNames document.spec.instances).map some := by
      refine List.ext_getElem? fun i => ?_
      rw [List.getElem?_map, List.getElem?_map, instanceNames, List.getElem?_map]
      rcases lt_or_ge i document.spec.instances.length with hi | hi
      · simp [hi]
      · simp [hi]
    rw [heq]
    exact hnodup.map (Option.some_injective _)
  -- the position that counts is that of the instance, since its name is there only once
  obtain ⟨found, hfind⟩ : ∃ found, (List.range document.spec.instances.length).find?
      (fun i => (document.spec.instances[i]?).map (·.name) = some inst.name) = some found := by
    refine Option.isSome_iff_exists.mp (List.find?_isSome.mpr ⟨index, List.mem_range.mpr hlength, ?_⟩)
    simp [hinst]
  have hfound : document.spec.instances[found]? = some inst := by
    have hmap := List.find?_some hfind
    rw [decide_eq_true_eq] at hmap
    obtain ⟨target, htarget, hname⟩ := Option.map_eq_some_iff.mp hmap
    have hsame := instanceNamed_of_getElem? hnodup htarget
    rw [hname, instanceNamed_of_getElem? hnodup hinst] at hsame
    rw [htarget, hsame]
  have hkeep : ∀ i ∈ List.range document.spec.instances.length, ∀ s : Resolving,
      instanceNames s.instances = instanceNames document.spec.instances →
        instanceNames (applyAuthored document options s i).instances = instanceNames document.spec.instances :=
    fun i hi s hs => (applyAuthored_spec document options hnodup hvalid hs
      (List.getElem?_eq_getElem (List.mem_range.mp hi)) key hmem).1
  have hview := view_foldl_once (·.view inst.name key) (fun i => (document.spec.instances[i]?).map (·.name)) hrange
    (k := some inst.name) (g := fun i v => (atKey key ((document.spec.instances[i]?).toList.flatMap
      (authoredTouches ·) ++ commandLineTouches options)).foldl (·.touch inst.name key) v) hkeep
    (fun i hi s hs => by
      rw [(applyAuthored_spec document options hnodup hvalid hs
        (List.getElem?_eq_getElem (List.mem_range.mp hi)) key hmem).2.1]
      simp [List.getElem?_eq_getElem (List.mem_range.mp hi)]) hnames
  have hparameter := view_foldl_once (·.parameter inst.name key)
    (fun i => (document.spec.instances[i]?).map (·.name)) hrange (k := some inst.name)
    (g := fun i v => (atKey key ((document.spec.instances[i]?).toList.flatMap (·.parameters.entries))).foldl
      (fun _ value => some value) v) hkeep
    (fun i hi s hs => by
      rw [(applyAuthored_spec document options hnodup hvalid hs
        (List.getElem?_eq_getElem (List.mem_range.mp hi)) key hmem).2.2]
      simp [List.getElem?_eq_getElem (List.mem_range.mp hi)]) hnames
  rw [hfind] at hview hparameter
  simp only [hfound, Option.toList_some, List.flatMap_cons, List.flatMap_nil, List.append_nil] at hview hparameter
  exact ⟨hview.1, hview.2, hparameter.2⟩

theorem names_applyAuthored (hnodup : (instanceNames document.spec.instances).Nodup) {r : Resolving}
    (hnames : instanceNames r.instances = instanceNames document.spec.instances) {index : ℕ} {inst : Instance}
    (hinst : document.spec.instances[index]? = some inst) :
    instanceNames (applyAuthored document options r index).instances = instanceNames document.spec.instances := by
  have hmem : inst.name ∈ instanceNames document.spec.instances :=
    List.mem_map.mpr ⟨inst, List.mem_of_getElem? hinst, rfl⟩
  have hparameters := foldl_applyParameter r inst.name "" inst.name s!"deployment instance {inst.name}"
    inst.parameters.entries hnames hmem
  have htouches := foldl_applyTouch _ inst.name "" inst.name (authoredTouches inst) hparameters.1 hmem
  rw [applyAuthored_eq document options hnodup hnames hinst]
  refine (view_foldl (P := fun s : Resolving => instanceNames s.instances = instanceNames document.spec.instances) (fun _ => ())
    (g := fun u _ => u) (fun e _ s hs => ?_) (fun _ _ _ _ => rfl) htouches.1).1
  rw [Resolving.applyCommandLine]
  split_ifs
  · exact (names_applyTouch s inst.name (e.1, .set (.literal e.2) "ephemeral CLI --set")).trans hs
  · exact hs

/-- A resolution without errors has a valid command line. -/
theorem commandLineErrors_eq_nil (hnodup : (instanceNames document.spec.instances).Nodup) {r : Resolving}
    (hnames : instanceNames r.instances = instanceNames document.spec.instances) {index : ℕ} {inst : Instance}
    (hinst : document.spec.instances[index]? = some inst)
    (herrors : ((List.range document.spec.instances.length).foldl (applyAuthored document options) r).errors = []) :
    commandLineErrors options = [] := by
  have hfold := (view_foldl Resolving.errors (g := fun es _ => es ++ commandLineErrors options)
    (P := fun s => instanceNames s.instances = instanceNames document.spec.instances)
    (fun i hi s hs => names_applyAuthored document options hnodup hs (List.getElem?_eq_getElem (List.mem_range.mp hi)))
    (fun i hi s hs => errors_applyAuthored document options hnodup hs
      (List.getElem?_eq_getElem (List.mem_range.mp hi))) hnames).2
  rw [herrors] at hfold
  have hpositive : document.spec.instances.length ≠ 0 :=
    Nat.ne_of_gt (Nat.zero_lt_of_lt (List.getElem?_eq_some_iff.mp hinst).1)
  obtain ⟨n, hn⟩ := Nat.exists_eq_succ_of_ne_zero hpositive
  rw [hn, List.range_succ, List.foldl_append, List.foldl_cons, List.foldl_nil] at hfold
  exact (List.append_eq_nil_iff.mp hfold.symm).2

end Authored

/-! ### What the layers leave -/

section Kept

variable (platform : Platform) (document : Document) (overlays : List Overlay) (options : OverlayOptions)

theorem stripped_foldl {α : Type} {step : Resolving → α → Resolving} (l : List α)
    (hstep : ∀ a ∈ l, ∀ s : Resolving, (step s a).instances.map strippedInstance = s.instances.map strippedInstance)
    (r : Resolving) : (l.foldl step r).instances.map strippedInstance = r.instances.map strippedInstance :=
  (view_foldl (fun s : Resolving => s.instances.map strippedInstance) (g := fun v _ => v) (P := fun _ => True)
    (fun _ _ _ _ => trivial) (fun a ha s _ => hstep a ha s) trivial).2.trans (List.foldl_fixed l)

theorem stripped_resolveOverlay (r : Resolving) (overlay : Overlay) :
    (resolveOverlay platform document r overlay).instances.map strippedInstance = r.instances.map strippedInstance := by
  have hvalues : ∀ (s : Resolving) (target : String),
      (applyValues platform overlay s target).instances.map strippedInstance = s.instances.map strippedInstance := by
    intro s target
    rw [applyValues, stripped_foldl _ fun e _ s => stripped_applyParameter s target _ e,
      stripped_foldl _ fun e _ s => stripped_applyTouch s target e]
  unfold resolveOverlay
  dsimp only
  split_ifs
  · rfl
  · refine stripped_foldl _ (fun target _ s => ?_) _
    rw [applyOverlay_eq]
    split
    · exact hvalues s target
    · rw [(foldl_resolveFile_frame platform document overlay _ _ _ _ "" "").1]
      exact hvalues s target

theorem stripped_applyAuthored (r : Resolving) (index : ℕ) :
    (applyAuthored document options r index).instances.map strippedInstance = r.instances.map strippedInstance := by
  unfold applyAuthored
  split
  · rfl
  · dsimp only
    rw [stripped_foldl options.set.entries fun e _ s => ?_, stripped_foldl _ fun e _ s => ?_,
      stripped_foldl _ fun e _ s => ?_]
    · exact stripped_modify (f := fun i => { i with parameters := i.parameters.insert e.1 e.2 }) (fun _ => rfl) _ _
    · exact stripped_modify (f := (·.setEnvironment e.1 e.2)) (fun _ => rfl) _ _
    · split_ifs
      · exact stripped_modify (f := (·.setEnvironment e.1 e.2)) (fun _ => rfl) _ _
      · rfl

/-- The layers change only the parameters and the environment of an instance. -/
theorem stripped_foldLayers : (foldLayers platform document overlays options).instances.map strippedInstance =
    document.spec.instances.map strippedInstance := by
  unfold foldLayers
  dsimp only
  rw [stripped_foldl _ fun index _ s => stripped_applyAuthored document options s index,
    stripped_foldl _ fun overlay _ s => stripped_resolveOverlay platform document s overlay,
    stripped_foldl _ fun inst _ s => congrArg (List.map strippedInstance)
      (traceDefaults_spec document.spec s inst "" "").1, List.map_map]
  rfl

end Kept

/-! ### Whose secrets and traces there are -/

section Declared

/-- The secrets and the traces are of instances with these names, and every trace is kept
under what it says it is of. -/
structure Resolving.WellKeyed (names : List String) (r : Resolving) : Prop where
  secrets : ∀ id reference, r.secrets.get? id = some reference → (ofLex id).1 ∈ names
  traces : ∀ id trace, r.traces.get? id = some trace →
    id = toLex (trace.inst, toLex (trace.category, trace.key)) ∧ trace.inst ∈ names

variable {names : List String} {r : Resolving}

theorem wellKeyed_trace (h : r.WellKeyed names) {inst : String} (hinst : inst ∈ names)
    (category key value layer : String) : (r.trace inst category key value layer).WellKeyed names := by
  refine ⟨h.secrets, fun id trace htrace => ?_⟩
  rw [Resolving.trace, get?_setTrace] at htrace
  split_ifs at htrace with hid
  · obtain rfl := Option.some.inj htrace
    unfold nextTrace
    cases hbefore : r.traces.get? id with
    | none => exact ⟨hid, hinst⟩
    | some before => exact h.traces id before hbefore
  · exact h.traces id trace htrace

theorem wellKeyed_updateInstance (h : r.WellKeyed names) (target : String) (f : Instance → Instance) :
    (r.updateInstance target f).WellKeyed names := by
  unfold Resolving.updateInstance
  split
  · exact ⟨h.secrets, h.traces⟩
  · exact h

theorem wellKeyed_eraseSecret (h : r.WellKeyed names) (id : String ×ₗ String) :
    ({ r with secrets := r.secrets.erase id } : Resolving).WellKeyed names := by
  refine ⟨fun other reference hget => ?_, h.traces⟩
  rw [SortedMap.get?_erase] at hget
  split_ifs at hget
  exact h.secrets other reference hget

theorem wellKeyed_setLiteral (h : r.WellKeyed names) {target : String} (htarget : target ∈ names)
    (key value layer : String) : (r.setLiteral target key value layer).WellKeyed names :=
  wellKeyed_eraseSecret (wellKeyed_updateInstance (wellKeyed_trace h htarget ..) ..) _

theorem wellKeyed_applyTouch (h : r.WellKeyed names) {target : String} (htarget : target ∈ names)
    (e : String × Touch) : (r.applyTouch target e).WellKeyed names := by
  obtain ⟨key, touch⟩ := e
  cases touch with
  | set value layer =>
    have hliteral := wellKeyed_setLiteral h htarget key (overlayValue value) layer
    cases value with
    | literal text => exact hliteral
    | secret reference =>
      refine ⟨fun id found hget => ?_, hliteral.traces⟩
      unfold Resolving.applyTouch Resolving.setValue at hget
      dsimp only at hget
      rw [SortedMap.get?_insert] at hget
      split_ifs at hget with hid
      · rw [hid]
        exact htarget
      · exact hliteral.secrets id found hget
  | unset layer =>
    unfold Resolving.applyTouch Resolving.unset
    dsimp only
    split
    · exact wellKeyed_eraseSecret (wellKeyed_updateInstance h ..) _
    · have hremoved := wellKeyed_trace (wellKeyed_eraseSecret (wellKeyed_updateInstance h target
        fun inst => { inst with
          environment := inst.environment.erase key
          environmentUnset := if inst.environmentUnset.contains key then inst.environmentUnset
            else inst.environmentUnset ++ [key] }) (toLex (target, key))) htarget "environment" key "«unset»" layer
      refine ⟨hremoved.secrets, fun id trace htrace => ?_⟩
      rw [get?_markRemoved] at htrace
      split_ifs at htrace
      · obtain ⟨before, hbefore, rfl⟩ := Option.map_eq_some_iff.mp htrace
        have hkept := hremoved.traces id before hbefore
        unfold removedTrace
        split_ifs <;> exact hkept
      · exact hremoved.traces id trace htrace

theorem wellKeyed_applyParameter (h : r.WellKeyed names) {target : String} (htarget : target ∈ names) (layer : String)
    (e : String × String) : (r.applyParameter target layer e).WellKeyed names :=
  wellKeyed_updateInstance (wellKeyed_trace h htarget ..) ..

variable (platform : Platform) (document : Document) (overlays : List Overlay) (options : OverlayOptions)

theorem wellKeyed_resolveFile (h : r.WellKeyed names) (overlay : Overlay) (layer : String) {target : Instance}
    (htarget : target.name ∈ names) (entry : OverlayFile × ℕ) :
    (resolveFile platform document overlay layer target r entry).WellKeyed names := by
  unfold resolveFile
  dsimp only
  split_ifs
  · exact ⟨h.secrets, h.traces⟩
  · exact ⟨h.secrets, h.traces⟩
  · split
    · exact ⟨h.secrets, h.traces⟩
    · exact h
    · split
      · exact ⟨h.secrets, h.traces⟩
      · rename_i content _
        have htrace := wellKeyed_trace h htarget "file" entry.1.target.text
          (injectedFile platform layer target entry.1 content).contentHash layer
        split <;> exact ⟨htrace.secrets, htrace.traces⟩

theorem wellKeyed_applyOverlay (h : r.WellKeyed names) (overlay : Overlay) {target : String} (htarget : target ∈ names) :
    (applyOverlay platform document overlay r target).WellKeyed names := by
  have hstart : ({ r with errors := r.errors ++ (loadEnvFiles platform overlay).2 } : Resolving).WellKeyed names :=
    ⟨h.secrets, h.traces⟩
  have hvalues : (applyValues platform overlay r target).WellKeyed names :=
    List.foldlRecOn _ _ (List.foldlRecOn _ _ hstart fun _ hs e _ => wellKeyed_applyTouch hs htarget e)
      fun _ hs e _ => wellKeyed_applyParameter hs htarget _ e
  rw [applyOverlay_eq]
  split
  · exact hvalues
  · rename_i found hfound
    have hmatch := List.find?_some hfound
    have hname : found.name = target := of_decide_eq_true hmatch
    exact List.foldlRecOn _ _ hvalues fun _ hs entry _ =>
      wellKeyed_resolveFile platform document hs overlay _ (by rw [hname]; exact htarget) entry

theorem mem_instanceNames_of_mem_matchingInstances {overlay : Overlay} {target : String}
    (h : target ∈ matchingInstances document overlay) : target ∈ instanceNames document.spec.instances := by
  unfold matchingInstances at h
  split_ifs at h
  · obtain ⟨inst, hinst, rfl⟩ := List.mem_map.mp h
    exact List.mem_map.mpr ⟨inst, (List.mem_filter.mp hinst).1, rfl⟩
  · cases h

theorem wellKeyed_applyAuthored (h : r.WellKeyed names) (hnames : instanceNames r.instances = names) (index : ℕ) :
    (applyAuthored document options r index).WellKeyed names := by
  unfold applyAuthored
  split
  · exact h
  · rename_i inst hinst
    have hname : inst.name ∈ names := by
      rw [← hnames]
      exact List.mem_map.mpr ⟨inst, List.mem_of_getElem? hinst, rfl⟩
    have hset : ∀ {s : Resolving}, s.WellKeyed names → ∀ (layer : String) (e : String × String),
        ({ s with
          instances := s.instances.modify index fun i => i.setEnvironment e.1 e.2
          traces := setTrace s.traces inst.name "environment" e.1 e.2 layer
          secrets := s.secrets.erase (toLex (inst.name, e.1)) } : Resolving).WellKeyed names := by
      intro s hs layer e
      have herased := wellKeyed_eraseSecret (wellKeyed_trace hs hname "environment" e.1 e.2 layer) (toLex (inst.name, e.1))
      exact ⟨herased.secrets, herased.traces⟩
    refine List.foldlRecOn _ _ (List.foldlRecOn _ _ (List.foldlRecOn _ _ h fun s hs e _ => ?_)
      fun s hs e _ => hset hs _ e) fun s hs e _ => ?_
    · have htrace := wellKeyed_trace hs hname "parameter" e.1 e.2 s!"deployment instance {inst.name}"
      exact ⟨htrace.secrets, htrace.traces⟩
    · dsimp only
      split_ifs
      · exact hset hs _ e
      · exact ⟨hs.secrets, hs.traces⟩

/-- **The secrets and traces of a resolution are of declared instances.** -/
theorem wellKeyed_foldLayers :
    (foldLayers platform document overlays options).WellKeyed (instanceNames document.spec.instances) := by
  have hdefaults : ∀ {s : Resolving}, s.WellKeyed (instanceNames document.spec.instances) →
      ∀ inst ∈ document.spec.instances, (traceDefaults document.spec s inst).WellKeyed
        (instanceNames document.spec.instances) := by
    intro s hs inst hinst
    have hname : inst.name ∈ instanceNames document.spec.instances := List.mem_map.mpr ⟨inst, hinst, rfl⟩
    rw [traceDefaults_eq]
    exact List.foldlRecOn _ _ (List.foldlRecOn _ _ hs fun _ hs e _ => wellKeyed_trace hs hname ..)
      fun _ hs e _ => wellKeyed_trace hs hname ..
  have hoverlay : ∀ {s : Resolving}, s.WellKeyed (instanceNames document.spec.instances) → ∀ overlay,
      (resolveOverlay platform document s overlay).WellKeyed (instanceNames document.spec.instances) := by
    intro s hs overlay
    unfold resolveOverlay
    dsimp only
    split_ifs
    · exact ⟨hs.secrets, hs.traces⟩
    · exact List.foldlRecOn _ _ ⟨hs.secrets, hs.traces⟩ fun _ hs target htarget =>
        wellKeyed_applyOverlay platform document hs overlay (mem_instanceNames_of_mem_matchingInstances document htarget)
  have hstart : (⟨document.spec.instances.map strippedInstance, [], ∅, ∅, []⟩ : Resolving).WellKeyed
      (instanceNames document.spec.instances) := by
    refine ⟨fun _ _ hget => ?_, fun _ _ hget => ?_⟩ <;> cases hget
  -- the names stay, so that an authored value is one of a declared instance
  let Kept (s : Resolving) : Prop := s.WellKeyed (instanceNames document.spec.instances) ∧
    instanceNames s.instances = instanceNames document.spec.instances
  have hfirst := List.foldlRecOn (motive := Kept) document.spec.instances
    (traceDefaults document.spec) ⟨hstart, by simp [instanceNames, strippedInstance]⟩ fun s hs inst hinst =>
      ⟨hdefaults hs.1 inst hinst, by rw [(traceDefaults_spec document.spec s inst "" "").1]; exact hs.2⟩
  have hsecond := List.foldlRecOn (motive := Kept) overlays (resolveOverlay platform document) hfirst
    fun s hs overlay _ => ⟨hoverlay hs.1 overlay,
      (instanceNames_of_stripped (stripped_resolveOverlay platform document s overlay)).trans hs.2⟩
  exact (List.foldlRecOn (motive := Kept) (List.range document.spec.instances.length) (applyAuthored document options)
    hsecond fun s hs index _ => ⟨wellKeyed_applyAuthored document options hs.1 hs.2 index,
      (instanceNames_of_stripped (stripped_applyAuthored document options s index)).trans hs.2⟩).1

end Declared

/-! ### What goes wrong stays -/

section Errors

variable (platform : Platform) (document : Document)

/-- A diagnostic is not taken back by a file. -/
theorem mem_errors_resolveFile (overlay : Overlay) (layer : String) (target : Instance) {r : Resolving}
    (entry : OverlayFile × ℕ) {d : Diagnostic} (h : d ∈ r.errors) :
    d ∈ (resolveFile platform document overlay layer target r entry).errors := by
  have hfail : ∀ other : Diagnostic, d ∈ ({ r with errors := r.errors ++ [other] } : Resolving).errors :=
    fun other => List.mem_append_left _ h
  unfold resolveFile
  dsimp only
  split_ifs
  · exact hfail _
  · exact hfail _
  · cases rawContent platform overlay entry.1 with
    | error other => exact hfail other
    | ok raw =>
      cases raw with
      | none => exact h
      | some raw =>
        dsimp only
        cases renderedContent document overlay target entry.1 entry.2 raw with
        | error other => exact hfail other
        | ok content =>
          dsimp only
          split <;> exact h

/-- The values of an overlay leave what is wrong with its files of environment values. -/
theorem errors_applyValues (overlay : Overlay) (r : Resolving) (target : String) :
    (applyValues platform overlay r target).errors = r.errors ++ (loadEnvFiles platform overlay).2 := by
  have htouches := List.foldlRecOn
    (motive := fun s : Resolving => s.errors = r.errors ++ (loadEnvFiles platform overlay).2)
    (overlayTouches platform overlay) (·.applyTouch target)
    (b := { r with errors := r.errors ++ (loadEnvFiles platform overlay).2 }) rfl
    fun s hs e _ => (errors_applyTouch target s e).trans hs
  exact List.foldlRecOn (motive := fun s : Resolving => s.errors = r.errors ++ (loadEnvFiles platform overlay).2)
    overlay.parameters.entries (·.applyParameter target (overlayLayer overlay)) htouches
    fun s hs e _ => (errors_applyParameter target _ s e).trans hs

theorem mem_errors_applyOverlay (overlay : Overlay) {r : Resolving} (target : String) {d : Diagnostic}
    (h : d ∈ r.errors ∨ d ∈ (loadEnvFiles platform overlay).2) :
    d ∈ (applyOverlay platform document overlay r target).errors := by
  have hvalues : d ∈ (applyValues platform overlay r target).errors := by
    rw [errors_applyValues]
    exact List.mem_append.mpr h
  rw [applyOverlay_eq]
  split
  · exact hvalues
  · exact List.foldlRecOn (motive := fun s : Resolving => d ∈ s.errors) _ _ hvalues
      fun s hs entry _ => mem_errors_resolveFile platform document overlay _ _ entry hs

theorem mem_errors_foldl_applyOverlay (overlay : Overlay) (targets : List String) {r : Resolving} {d : Diagnostic}
    (h : d ∈ r.errors) : d ∈ (targets.foldl (applyOverlay platform document overlay) r).errors :=
  List.foldlRecOn (motive := fun s : Resolving => d ∈ s.errors) _ _ h
    fun _ hs target _ => mem_errors_applyOverlay platform document overlay target (.inl hs)

/-- What is wrong with the files of an overlay that matches an instance is told. -/
theorem mem_errors_resolveOverlay (overlay : Overlay) {r : Resolving} {d : Diagnostic}
    (h : d ∈ r.errors ∨ matchingInstances document overlay ≠ [] ∧ d ∈ (loadEnvFiles platform overlay).2) :
    d ∈ (resolveOverlay platform document r overlay).errors := by
  unfold resolveOverlay
  dsimp only
  split_ifs with hempty
  · rcases h with h | ⟨hne, -⟩
    · exact List.mem_append_left _ (List.mem_append_left _ h)
    · exact absurd (List.isEmpty_iff.mp (Bool.and_eq_true_iff.mp hempty).1) hne
  · rcases h with h | ⟨hne, h⟩
    · exact mem_errors_foldl_applyOverlay platform document overlay _ (List.mem_append_left _ h)
    · obtain ⟨target, rest, hmatched⟩ := List.exists_cons_of_ne_nil hne
      rw [hmatched, List.foldl_cons]
      exact mem_errors_foldl_applyOverlay platform document overlay rest
        (mem_errors_applyOverlay platform document overlay target (.inr h))

theorem mem_errors_foldl_resolveOverlay (overlays : List Overlay) {r : Resolving} {d : Diagnostic}
    (h : d ∈ r.errors ∨ ∃ overlay ∈ overlays, matchingInstances document overlay ≠ [] ∧
      d ∈ (loadEnvFiles platform overlay).2) :
    d ∈ (overlays.foldl (resolveOverlay platform document) r).errors := by
  induction overlays generalizing r with
  | nil =>
    rcases h with h | ⟨overlay, hmem, -⟩
    · exact h
    · cases hmem
  | cons overlay rest ih =>
    rw [List.foldl_cons]
    rcases h with h | ⟨other, hmem, hother⟩
    · exact ih (.inl (mem_errors_resolveOverlay platform document overlay (.inl h)))
    · rcases List.mem_cons.mp hmem with rfl | hrest
      · exact ih (.inl (mem_errors_resolveOverlay platform document other (.inr hother)))
      · exact ih (.inr ⟨other, hrest, hother⟩)

variable {platform document}

/-- Where the folds end without a diagnostic, the files of environment values of every overlay that
matches an instance were read. -/
theorem loadEnvFiles_errors {overlays : List Overlay} {options : OverlayOptions}
    (hnodup : (instanceNames document.spec.instances).Nodup)
    (herrors : (foldLayers platform document overlays options).errors = []) {index : ℕ} {inst : Instance}
    (hinst : document.spec.instances[index]? = some inst) {overlay : Overlay}
    (hoverlay : overlay ∈ matchingOverlays document overlays inst.name) : (loadEnvFiles platform overlay).2 = [] := by
  have hname : inst.name ∈ instanceNames document.spec.instances :=
    List.mem_map.mpr ⟨inst, List.mem_of_getElem? hinst, rfl⟩
  obtain ⟨hmem, hmatch⟩ := List.mem_filter.mp hoverlay
  let start : Resolving := ⟨document.spec.instances.map strippedInstance, [], ∅, ∅, []⟩
  have hstart : instanceNames start.instances = instanceNames document.spec.instances := by
    simp [start, instanceNames, strippedInstance]
  obtain ⟨hdefaults, -⟩ := foldl_traceDefaults document hnodup start (List.mem_of_getElem? hinst) ""
  obtain ⟨hnames, -⟩ := foldl_resolveOverlay platform document "" hname hnodup overlays
    ((congrArg instanceNames hdefaults).trans hstart)
  have hfold := (view_foldl Resolving.errors (g := fun es _ => es ++ commandLineErrors options)
    (P := fun s => instanceNames s.instances = instanceNames document.spec.instances)
    (fun i hi s hs => names_applyAuthored document options hnodup hs (List.getElem?_eq_getElem (List.mem_range.mp hi)))
    (fun i hi s hs => errors_applyAuthored document options hnodup hs
      (List.getElem?_eq_getElem (List.mem_range.mp hi))) hnames).2
  refine List.eq_nil_iff_forall_not_mem.mpr fun d hd => ?_
  have htold := mem_errors_foldl_resolveOverlay platform document overlays (d := d)
    (r := document.spec.instances.foldl (traceDefaults document.spec) start)
    (.inr ⟨overlay, hmem, List.ne_nil_of_mem (List.contains_iff_mem.mp hmatch), hd⟩)
  have hfinal : d ∈ (foldLayers platform document overlays options).errors := by
    refine hfold.symm ▸ ?_
    exact List.foldlRecOn (motive := fun es : List Diagnostic => d ∈ es) _ _ htold
      fun es hes _ _ => List.mem_append_left _ hes
  rw [herrors] at hfinal
  cases hfinal

end Errors

/-! ### Files of environment values -/

/-- What a line of a file of environment values says: nothing where it is blank or a comment, and
otherwise what is before its first equals sign and what is after it. -/
def keyValue (line : String) : Option (String × String) :=
  if Text.isBlank line || Text.startsWith (trimStart line) "#" then none else Text.splitOnce '=' line

/-- The `KEY=VALUE` lines of a text, in order. -/
def keyValueLines (input : String) : List (String × String) := (textLines input).filterMap keyValue

theorem parseDotenvLines_ok {index : ℕ} {lines : List String} {values result : SortedMap String String}
    (h : parseDotenvLines index lines values = .ok result) : result = values.insertAll (lines.filterMap keyValue) := by
  induction lines generalizing index values with
  | nil => exact (Except.ok.inj h).symm
  | cons line rest ih =>
    rw [parseDotenvLines] at h
    by_cases hblank : (Text.isBlank line || Text.startsWith (trimStart line) "#") = true
    · have hnone : keyValue line = none := by rw [keyValue, if_pos hblank]
      rw [if_pos hblank] at h
      rw [List.filterMap_cons, hnone]
      exact ih h
    · have hsplit : keyValue line = Text.splitOnce '=' line := by rw [keyValue, if_neg hblank]
      rw [if_neg hblank] at h
      rw [List.filterMap_cons, hsplit]
      cases hentry : Text.splitOnce '=' line with
      | none =>
        rw [hentry] at h
        cases h
      | some entry =>
        obtain ⟨key, value⟩ := entry
        rw [hentry] at h
        dsimp only at h
        split_ifs at h
        exact ih h

/-- **A file of environment values** that is accepted gives what its `KEY=VALUE` lines say. -/
theorem parseDotenv_ok {input : String} {values : SortedMap String String} (h : parseDotenv input = .ok values) :
    values = .ofList (keyValueLines input) := parseDotenvLines_ok h

/-! ### All layers -/

section Layers

variable (platform : Platform) (document : Document) (overlays : List Overlay) (options : OverlayOptions)

/-- The layers of an instance's environment, in order: for every overlay that matches it the
files of environment values, the unset list and the set map; what the deployment's own
instance says; and the command line. -/
def instanceTouches (inst : Instance) : List (String × Touch) :=
  (matchingOverlays document overlays inst.name).flatMap (overlayTouches platform) ++
    (authoredTouches inst ++ commandLineTouches options)

/-- The layers of an instance's parameters, in order. -/
def parameterLayers (inst : Instance) : List (String × String) :=
  (matchingOverlays document overlays inst.name).flatMap (·.parameters.entries) ++ inst.parameters.entries

/-- A key that nothing has touched, with the trace of its defaults. -/
def defaultView (inst : Instance) (key : String) : EnvironmentView :=
  ⟨none, false, none, traceValues inst.name "environment" key none (atKey key (environmentDefaults document.spec inst))⟩

theorem foldl_some_eq (values : List String) (value : Option String) :
    values.foldl (fun _ v => some v) value = values.getLast?.or value := by
  induction values generalizing value with
  | nil => rfl
  | cons first rest ih =>
    rw [List.foldl_cons, ih, List.getLast?_cons]
    cases rest.getLast? <;> rfl

variable {platform document overlays options} {index : ℕ} {inst : Instance}

/-- **The folds of `resolve`, at one key**: the touches of the layers, one after another. -/
theorem view_foldLayers (hnodup : (instanceNames document.spec.instances).Nodup)
    (herrors : (foldLayers platform document overlays options).errors = [])
    (hinst : document.spec.instances[index]? = some inst) (key : String) :
    instanceNames (foldLayers platform document overlays options).instances = instanceNames document.spec.instances ∧
      (foldLayers platform document overlays options).view inst.name key =
        (atKey key (instanceTouches platform document overlays options inst)).foldl (·.touch inst.name key)
          (defaultView document inst key) ∧
      (foldLayers platform document overlays options).parameter inst.name key =
        (atKey key (parameterLayers document overlays inst)).getLast? := by
  have hmem := List.mem_of_getElem? hinst
  have hname : inst.name ∈ instanceNames document.spec.instances := List.mem_map.mpr ⟨inst, hmem, rfl⟩
  let start : Resolving := ⟨document.spec.instances.map strippedInstance, [], ∅, ∅, []⟩
  have hstart : instanceNames start.instances = instanceNames document.spec.instances := by
    simp [start, instanceNames, strippedInstance]
  obtain ⟨stripped, hstripped, hempty⟩ : ∃ i, instanceNamed start.instances inst.name = some i ∧
      i.environment = ∅ ∧ i.environmentUnset = [] ∧ i.parameters = ∅ := by
    obtain ⟨i, hi⟩ := exists_instanceNamed (hstart ▸ hname)
    obtain ⟨authored, -, rfl⟩ := List.mem_map.mp (List.mem_of_find?_eq_some hi)
    exact ⟨_, hi, rfl, rfl, rfl⟩
  have hview : start.view inst.name key = ⟨none, false, none, none⟩ := by
    simp only [Resolving.view, hstripped, Option.bind_some, Option.any_some, hempty]
    rfl
  have hparameter : start.parameter inst.name key = none := by
    simp only [Resolving.parameter, hstripped, Option.bind_some, hempty]
    rfl
  obtain ⟨hdefaults, hdefaultView⟩ := foldl_traceDefaults document hnodup start hmem key
  obtain ⟨hnames, hviews, hparameters⟩ := foldl_resolveOverlay platform document key hname hnodup overlays
    ((congrArg instanceNames hdefaults).trans hstart)
  have hvalid := commandLineErrors_eq_nil document options hnodup hnames hinst herrors
  obtain ⟨hfinal, hfinalView, hfinalParameter⟩ := foldl_applyAuthored document options hnodup hvalid hnames hinst key
  refine ⟨hfinal, ?_, ?_⟩
  · rw [instanceTouches, atKey_append, List.foldl_append, defaultView]
    rw [hview] at hdefaultView
    exact hfinalView.trans (by rw [hviews, hdefaultView])
  · rw [parameterLayers, atKey_append, List.getLast?_append]
    refine hfinalParameter.trans ?_
    rw [hparameters, foldl_some_eq, foldl_some_eq]
    have hfirst : (document.spec.instances.foldl (traceDefaults document.spec) start).parameter inst.name key = none := by
      rw [Resolving.parameter, hdefaults]
      exact hparameter
    rw [hfirst, Option.or_none]

end Layers

/-! ### The last layer -/

section Precedence

variable (platform : Platform) (document : Document) (overlays : List Overlay) (options : OverlayOptions)

/-- The values of one file of environment values: its `KEY=VALUE` lines. -/
def envFileValues (overlay : Overlay) (file : PathBuf) : List (String × String) :=
  match platform.readFile (overlayPath overlay file) with
  | .error _ => []
  | .ok input => keyValueLines input

/-- The layers of an overlay: its files of environment values, one after another, then its
unset list, then its set map. -/
def overlayLayers (overlay : Overlay) : List (String × Touch) :=
  (overlay.environment.envFiles.flatMap (envFileValues platform overlay)).map
      (fun e => (e.1, .set (.literal e.2) (overlayLayer overlay))) ++
    overlay.environment.unset.map (fun key => (key, .unset (overlayLayer overlay))) ++
    overlay.environment.set.entries.map (fun e => (e.1, .set e.2 (overlayLayer overlay)))

/-- The layers of an instance's environment, in order. -/
def layers (inst : Instance) : List (String × Touch) :=
  (matchingOverlays document overlays inst.name).flatMap (overlayLayers platform) ++
    (authoredTouches inst ++ commandLineTouches options)

/-- What the last layer that touches a key does to it. -/
def lastLayer (inst : Instance) (key : String) : Option Touch :=
  (atKey key (layers platform document overlays options inst)).getLast?

/-- The step of `load_env_files` for one file. -/
def loadEnvFile (overlay : Overlay) (state : SortedMap String String × List Diagnostic) (file : PathBuf) :
    SortedMap String String × List Diagnostic :=
  match platform.readFile (overlayPath overlay file) with
  | .ok input =>
    match parseDotenv input with
    | .ok values => (state.1.insertAll values.entries, state.2)
    | .error message => (state.1, state.2 ++ [⟨.invalidOverlay, (overlayPath overlay file).text, message⟩])
  | .error error => (state.1, state.2 ++ [⟨.invalidPath, (overlayPath overlay file).text, error⟩])

theorem loadEnvFiles_eq (overlay : Overlay) :
    loadEnvFiles platform overlay = overlay.environment.envFiles.foldl (loadEnvFile platform overlay) (∅, []) := rfl

/-- A file that cannot be read or parsed leaves a diagnostic; the others insert their lines. -/
theorem get?_loadEnvFile {overlay : Overlay} {state : SortedMap String String × List Diagnostic} {file : PathBuf} (key : String)
    (h : (loadEnvFile platform overlay state file).2 = []) :
    state.2 = [] ∧ (loadEnvFile platform overlay state file).1.get? key =
      (atKey key (envFileValues platform overlay file)).getLast?.or (state.1.get? key) := by
  rw [loadEnvFile] at h ⊢
  rw [envFileValues]
  cases hread : platform.readFile (overlayPath overlay file) with
  | error error => simp [hread] at h
  | ok input =>
    rw [hread] at h
    dsimp only at h ⊢
    cases hparse : parseDotenv input with
    | error message => simp [hparse] at h
    | ok values =>
      rw [hparse] at h
      refine ⟨h, ?_⟩
      obtain rfl := parseDotenv_ok hparse
      rw [get?_insertAll, atKey_entries, SortedMap.ofList, get?_insertAll]
      cases (atKey key (keyValueLines input)).getLast? <;> rfl

/-- The same of one file after another. -/
theorem get?_foldl_loadEnvFile {overlay : Overlay} {files : List PathBuf} {state : SortedMap String String × List Diagnostic}
    (key : String) (h : (files.foldl (loadEnvFile platform overlay) state).2 = []) :
    state.2 = [] ∧ (files.foldl (loadEnvFile platform overlay) state).1.get? key =
      (atKey key (files.flatMap (envFileValues platform overlay))).getLast?.or (state.1.get? key) := by
  induction files generalizing state with
  | nil => exact ⟨h, rfl⟩
  | cons file rest ih =>
    rw [List.foldl_cons] at h ⊢
    obtain ⟨hnone, hrest⟩ := ih h
    obtain ⟨hstate, hvalue⟩ := get?_loadEnvFile platform key hnone
    refine ⟨hstate, ?_⟩
    rw [hrest, hvalue, List.flatMap_cons, atKey_append, List.getLast?_append, Option.or_assoc]

/-- What is loaded where nothing is wrong with the files: the last value that one of them has. -/
theorem get?_loadEnvFiles (overlay : Overlay) (key : String) (herrors : (loadEnvFiles platform overlay).2 = []) :
    (loadEnvFiles platform overlay).1.get? key =
      (atKey key (overlay.environment.envFiles.flatMap (envFileValues platform overlay))).getLast? := by
  rw [loadEnvFiles_eq] at herrors ⊢
  exact (get?_foldl_loadEnvFile platform key herrors).2.trans (Option.or_none ..)

/-- The last layer is the last touch of the fold. -/
theorem getLast?_instanceTouches (inst : Instance) (key : String)
    (herrors : ∀ overlay ∈ matchingOverlays document overlays inst.name, (loadEnvFiles platform overlay).2 = []) :
    (atKey key (instanceTouches platform document overlays options inst)).getLast? =
      lastLayer platform document overlays options inst key := by
  rw [lastLayer, layers, instanceTouches, atKey_append, List.getLast?_append, atKey_append key (List.flatMap (overlayLayers _) _),
    List.getLast?_append]
  refine congrArg (Option.or _) (getLast?_atKey_flatMap_congr (k := key) fun overlay hoverlay => ?_)
  have hfiles : (atKey key ((loadEnvFiles platform overlay).1.entries.map
      fun e => (e.1, Touch.set (.literal e.2) (overlayLayer overlay)))).getLast? =
      (atKey key ((overlay.environment.envFiles.flatMap (envFileValues platform overlay)).map
        fun e => (e.1, Touch.set (.literal e.2) (overlayLayer overlay)))).getLast? := by
    rw [atKey_map key (fun value => Touch.set (.literal value) (overlayLayer overlay)), atKey_map key
      (fun value => Touch.set (.literal value) (overlayLayer overlay)), List.getLast?_map, List.getLast?_map,
      atKey_entries, ← get?_loadEnvFiles platform overlay key (herrors overlay hoverlay)]
    cases (loadEnvFiles platform overlay).1.get? key <;> rfl
  rw [overlayTouches, overlayLayers, atKey_append, atKey_append, atKey_append, atKey_append, List.getLast?_append,
    List.getLast?_append, List.getLast?_append, List.getLast?_append, hfiles]

/-- A key after its touches is as the last one leaves it. -/
theorem foldl_touch (inst key : String) (touches : List Touch) (trace : Option OriginTrace) :
    let view : EnvironmentView := touches.foldl (EnvironmentView.touch inst key) ⟨none, false, none, trace⟩
    view.value = touches.getLast?.bind Touch.value ∧ view.unset = touches.getLast?.any Touch.isUnset ∧
      view.secret = touches.getLast?.bind Touch.secret := by
  rcases List.eq_nil_or_concat touches with rfl | ⟨before, last, rfl⟩
  · exact ⟨rfl, rfl, rfl⟩
  · rw [List.concat_eq_append, List.foldl_append, List.getLast?_concat]
    cases last <;> exact ⟨rfl, rfl, rfl⟩

variable {platform document overlays options}

/-- What `resolve` returns is what its folds come to. -/
theorem resolve_ok {resolved : Document} {resolution : OverlayResolution}
    (h : resolve platform document overlays options = .ok (resolved, resolution)) :
    (foldLayers platform document overlays options).errors = [] ∧
      resolved.spec.instances = (foldLayers platform document overlays options).instances ∧
      resolution.secretEnvironment = (foldLayers platform document overlays options).secrets ∧
      resolution.origins = (foldLayers platform document overlays options).traces.values.filter
        fun trace => trace.value ≠ "«unset»" := by
  unfold resolve at h
  dsimp only at h
  cases hname : variationName document.metadata.name options.variation with
  | error d =>
    rw [hname] at h
    cases h
  | ok name =>
    rw [hname] at h
    dsimp only at h
    split_ifs at h with herrors hvariation <;>
      obtain ⟨rfl, rfl⟩ := Prod.mk.inj (Except.ok.inj h) <;>
      exact ⟨by simpa using herrors, rfl, rfl, rfl⟩

/-- A resolved instance is the authored one with other parameters and another environment. -/
theorem exists_resolved {resolved : Document} {resolution : OverlayResolution}
    (h : resolve platform document overlays options = .ok (resolved, resolution)) {index : ℕ} {inst : Instance}
    (hinst : document.spec.instances[index]? = some inst) :
    ∃ i, resolved.spec.instances[index]? = some i ∧ strippedInstance i = strippedInstance inst := by
  have hstripped : (resolved.spec.instances.map strippedInstance)[index]? = some (strippedInstance inst) := by
    rw [(resolve_ok h).2.1, stripped_foldLayers, List.getElem?_map, hinst, Option.map_some]
  rw [List.getElem?_map] at hstripped
  exact Option.map_eq_some_iff.mp hstripped

/-- Where resolution succeeds, the last touch of the folds is that of the layers. -/
theorem getLast?_of_resolve (hnodup : (instanceNames document.spec.instances).Nodup) {resolved : Document}
    {resolution : OverlayResolution} (h : resolve platform document overlays options = .ok (resolved, resolution))
    {index : ℕ} {inst : Instance} (hinst : document.spec.instances[index]? = some inst) (key : String) :
    (atKey key (instanceTouches platform document overlays options inst)).getLast? =
      lastLayer platform document overlays options inst key :=
  getLast?_instanceTouches platform document overlays options inst key
    fun _ hoverlay => loadEnvFiles_errors hnodup (resolve_ok h).1 hinst hoverlay

/-- A resolved instance and its secrets, at one key. -/
theorem resolve_at_key (hnodup : (instanceNames document.spec.instances).Nodup) {resolved : Document}
    {resolution : OverlayResolution} (h : resolve platform document overlays options = .ok (resolved, resolution))
    {index : ℕ} {inst i : Instance} (hinst : document.spec.instances[index]? = some inst)
    (hi : resolved.spec.instances[index]? = some i) (key : String) :
    i.environment.get? key = (lastLayer platform document overlays options inst key).bind Touch.value ∧
      i.environmentUnset.contains key = (lastLayer platform document overlays options inst key).any Touch.isUnset ∧
      resolution.secretEnvironment.get? (toLex (inst.name, key)) =
        (lastLayer platform document overlays options inst key).bind Touch.secret ∧
      i.parameters.get? key = (atKey key (parameterLayers document overlays inst)).getLast? := by
  obtain ⟨herrors, hinstances, hsecrets, -⟩ := resolve_ok h
  obtain ⟨hnames, hview, hparameter⟩ := view_foldLayers hnodup herrors hinst key
  obtain ⟨hvalue, hunset, hsecret⟩ := foldl_touch inst.name key
    (atKey key (instanceTouches platform document overlays options inst)) (defaultView document inst key).trace
  rw [getLast?_of_resolve hnodup h hinst key] at hvalue hunset hsecret
  have hnamed : instanceNamed (foldLayers platform document overlays options).instances inst.name = some i := by
    obtain ⟨i', hi', hsame⟩ := exists_resolved h hinst
    obtain rfl := Option.some.inj (hi'.symm.trans hi)
    have hname : (strippedInstance i').name = (strippedInstance inst).name := by rw [hsame]
    rw [hinstances] at hi
    have hfound := instanceNamed_of_getElem? (hnames ▸ hnodup) hi
    rwa [show i'.name = inst.name from hname] at hfound
  refine ⟨?_, ?_, ?_, ?_⟩
  · rw [← hvalue]
    refine Eq.trans ?_ (congrArg EnvironmentView.value hview)
    rw [Resolving.view, hnamed, Option.bind_some]
  · rw [← hunset]
    refine Eq.trans ?_ (congrArg EnvironmentView.unset hview)
    rw [Resolving.view, hnamed, Option.any_some]
  · rw [hsecrets, ← hsecret]
    exact congrArg EnvironmentView.secret hview
  · rw [← hparameter, Resolving.parameter, hnamed, Option.bind_some]

/-- **The layers in order.** Where resolution succeeds, every environment key of an instance
is as the last layer that touches it leaves it, in the values, in the unset list and in the
secrets; every parameter is as the last layer says; and the generated services of the
instance have the placeholder for every secret. -/
theorem layer_precedence (hnodup : (instanceNames document.spec.instances).Nodup) {resolved : Document}
    {resolution : OverlayResolution} (h : resolve platform document overlays options = .ok (resolved, resolution))
    {index : ℕ} {inst : Instance} (hinst : document.spec.instances[index]? = some inst) (key : String) :
    ∃ i, resolved.spec.instances[index]? = some i ∧ i.name = inst.name ∧
      i.environment.get? key = (lastLayer platform document overlays options inst key).bind Touch.value ∧
      (key ∈ i.environmentUnset ↔
        ∃ layer, lastLayer platform document overlays options inst key = some (.unset layer)) ∧
      resolution.secretEnvironment.get? (toLex (inst.name, key)) =
        (lastLayer platform document overlays options inst key).bind Touch.secret ∧
      i.parameters.get? key = (atKey key (parameterLayers document overlays inst)).getLast? ∧
      ∀ (bundle : Bundle) (groups : ResolvedGroups) (overlay : OverlayResolution) (hash : String) (block : Block)
        (source : PathBuf) (device : String) (entry : String × Service),
        overlay.secretEnvironment = resolution.secretEnvironment →
        resolution.secretEnvironment.contains (toLex (inst.name, key)) = true →
          (((localService platform bundle groups (some overlay) hash block i source entry).2.field
              "environment").bind (Json.field key) = some (secretPlaceholder platform inst.name key)) ∧
            (((remoteService platform bundle groups (some overlay) hash block i source device entry).2.field
              "environment").bind (Json.field key) = some (secretPlaceholder platform inst.name key)) := by
  obtain ⟨i, hi, hsame⟩ := exists_resolved h hinst
  have hname : (strippedInstance i).name = (strippedInstance inst).name := by rw [hsame]
  obtain ⟨hvalue, hunset, hsecret, hparameter⟩ := resolve_at_key hnodup h hinst hi key
  refine ⟨i, hi, hname, hvalue, ?_, hsecret, hparameter, ?_⟩
  · rw [← List.contains_iff_mem, hunset]
    cases lastLayer platform document overlays options inst key with
    | none => simp
    | some touch => cases touch <;> simp [Touch.isUnset]
  · intro bundle groups overlay hash block source device entry hoverlay hcontains
    have hisSecret : isSecret (some overlay) i.name key = true := by
      rw [isSecret, Option.any_some, hoverlay, show i.name = inst.name from hname]
      exact hcontains
    rw [environment_localService, environment_remoteService, Option.bind_some, Json.field_ofMap,
      get?_generatedEnvironment, if_pos hisSecret, show i.name = inst.name from hname]
    exact ⟨rfl, rfl⟩

end Precedence

/-- The machine of the shop with an overlay in every overlay file. The other digest is that
of the variable for the secret `TOKEN` of `front`. -/
def overlaidHost (overlay : Overlay) : Host :=
  { shopHost with
    sha256 := fun text => if text = "front\x00TOKEN" then
      #v[19, 157, 130, 163, 30, 98, 143, 114, 236, 129, 62, 118, 29, 5, 26, 71, 105, 184, 33, 178, 234, 182, 5, 211,
      61, 49, 150, 6, 157, 89, 61, 18]
      else shopHost.sha256 text
    loadOverlay := fun _ => .ok overlay }

/-- An overlay for `front`, with the environment it sets and unsets. -/
def frontOverlay (set : SortedMap String OverlayValue) (unset : List String) : Overlay where
  apiVersion := "apmpr.dev/v1alpha1"
  kind := "Overlay"
  name := "dev"
  selectors := ⟨false, ∅, ∅, ["front"]⟩
  environment := ⟨[], set, unset⟩
  files := []
  parameters := ∅
  vars := ∅
  replace := false
  sourcePath := ⟨"/srv/shop/dev.yaml"⟩

/-- An overlay that takes `TOKEN` from the caller's environment. -/
def tokenOverlay : Overlay := frontOverlay (.ofList [("TOKEN", .secret ⟨some "SHOP_TOKEN", none⟩)]) []

/-- The overlay of every machine: two files of environment values, a secret, and values that later
layers change. -/
def baseOverlay : Overlay :=
  { frontOverlay ∅ [] with
    name := "base"
    environment := ⟨[⟨"base.env"⟩, ⟨"team.env"⟩], .ofList [("MODE", .literal "base"), ("REGION", .literal "us"),
      ("TOKEN", .secret ⟨some "SHOP_TOKEN", none⟩)], ["PROXY"]⟩
    parameters := .ofList [("size", "small")]
    sourcePath := ⟨"/srv/shop/base.yaml"⟩ }

/-- An overlay after it. -/
def devOverlay : Overlay := frontOverlay (.ofList [("MODE", .literal "dev")]) ["LEVEL"]

/-- The machine with the two files. -/
def envFileHost : Host :=
  { overlaidHost tokenOverlay with
    readFile := fun path =>
      if path.text = "/srv/shop/base.env" then
        .ok "# of every machine\nHOST=db.local\nLEVEL=info\r\n\nPROXY=http://proxy\nTOKEN=plain\n"
      else if path.text = "/srv/shop/team.env" then .ok "HOST=db?sslmode=off"
      else .error "No such file or directory (os error 2)" }

/-- `front` with a region and a size of its own. -/
def envFileInstance : Instance :=
  { webInstance "front" (some "front.localhost") with
    parameters := .ofList [("size", "large")]
    environment := .ofList [("REGION", "eu")] }

/-- The shop with it. -/
def envFileDocument : Document :=
  { shopBundle.document with
    spec := { shopBundle.document.spec with instances := [envFileInstance, webInstance "back" none] } }

/-- Values for one run. -/
def envFileOptions : OverlayOptions := { OverlayOptions.none with set := .ofList [("DEBUG", "1"), ("MODE", "cli")] }

/-- Seven keys of `front`, each with another last layer: a file and the file after it, an unset after a
file, in the same overlay and in a later one, a secret over a file, the instance's own value over
an overlay's, and the command line over two overlays and over nothing. -/
theorem layer_precedence_token :
    ∃ resolved resolution i, resolve envFileHost.toPlatform envFileDocument [baseOverlay, devOverlay] envFileOptions =
        .ok (resolved, resolution) ∧ resolved.spec.instances[0]? = some i ∧
      i.environment.get? "HOST" = some "db?sslmode=off" ∧
      (i.environment.get? "LEVEL" = none ∧ "LEVEL" ∈ i.environmentUnset) ∧
      (i.environment.get? "PROXY" = none ∧ "PROXY" ∈ i.environmentUnset) ∧
      i.environment.get? "REGION" = some "eu" ∧
      (i.environment.get? "MODE" = some "cli" ∧ "MODE" ∉ i.environmentUnset) ∧ i.environment.get? "DEBUG" = some "1" ∧
      resolution.secretEnvironment.get? (toLex ("front", "TOKEN")) = some ⟨some "SHOP_TOKEN", none⟩ ∧
      resolution.secretEnvironment.get? (toLex ("front", "MODE")) = none ∧ i.parameters.get? "size" = some "large" ∧
      ∀ entry ∈ webBlock.services.entries,
        ((localService envFileHost.toPlatform shopBundle ⟨∅, ∅⟩ (some resolution) "" webBlock i
            ⟨"/srv/shop/worktrees/app"⟩ entry).2.field "environment").bind (Json.field "TOKEN") =
          some (.string "$\x7bAPMPR_OVERLAY_SECRET_139D82A31E628F72:?overlay secret is required\x7d") := by
  have hrun : (resolve envFileHost.toPlatform envFileDocument [baseOverlay, devOverlay]
      envFileOptions).toOption.map (fun _ => ()) = some () := by decide +kernel
  obtain ⟨⟨resolved, resolution⟩, hresolve, -⟩ := exists_ok_of_toOption hrun
  obtain ⟨i, hi, -, -, -, -, -, hplaceholder⟩ := @layer_precedence _ envFileDocument _ _ (by decide) resolved
    resolution hresolve 0 envFileInstance rfl "TOKEN"
  obtain ⟨i', hi', -, -, -, -, hsize, -⟩ := @layer_precedence _ envFileDocument _ _ (by decide) resolved
    resolution hresolve 0 envFileInstance rfl "size"
  obtain rfl := Option.some.inj (hi.symm.trans hi')
  have hkey (key : String) (touch : Option Touch) (h : lastLayer envFileHost.toPlatform envFileDocument
      [baseOverlay, devOverlay] envFileOptions envFileInstance key = touch) :
      i.environment.get? key = touch.bind Touch.value ∧ (key ∈ i.environmentUnset ↔ ∃ layer, touch = some (.unset layer)) ∧
        resolution.secretEnvironment.get? (toLex ("front", key)) = touch.bind Touch.secret := by
    obtain ⟨j, hj, -, hvalue, hunset, hsecret, -⟩ := @layer_precedence _ envFileDocument _ _ (by decide) resolved
      resolution hresolve 0 envFileInstance rfl key
    obtain rfl := Option.some.inj (hi.symm.trans hj)
    rw [h] at hvalue hunset hsecret
    exact ⟨hvalue, hunset, hsecret⟩
  have hlast : ∀ entry ∈ [("HOST", some (Touch.set (.literal "db?sslmode=off") "/srv/shop/base.yaml")),
      ("LEVEL", some (.unset "/srv/shop/dev.yaml")), ("PROXY", some (.unset "/srv/shop/base.yaml")),
      ("REGION", some (.set (.literal "eu") "deployment instance front")),
      ("MODE", some (.set (.literal "cli") "ephemeral CLI --set")),
      ("DEBUG", some (.set (.literal "1") "ephemeral CLI --set")),
      ("TOKEN", some (.set (.secret ⟨some "SHOP_TOKEN", none⟩) "/srv/shop/base.yaml"))],
      lastLayer envFileHost.toPlatform envFileDocument [baseOverlay, devOverlay] envFileOptions envFileInstance entry.1 =
        entry.2 := by decide +kernel
  simp only [List.forall_mem_cons] at hlast
  have hhost := hkey "HOST" _ hlast.1
  have hlevel := hkey "LEVEL" _ hlast.2.1
  have hproxy := hkey "PROXY" _ hlast.2.2.1
  have hregion := hkey "REGION" _ hlast.2.2.2.1
  have hmode := hkey "MODE" _ hlast.2.2.2.2.1
  have hdebug := hkey "DEBUG" _ hlast.2.2.2.2.2.1
  have htoken := hkey "TOKEN" _ hlast.2.2.2.2.2.2.1
  have hcontains : resolution.secretEnvironment.contains (toLex ("front", "TOKEN")) = true :=
    (SortedMap.contains_iff ..).mpr ⟨_, htoken.2.2⟩
  refine ⟨resolved, resolution, i, hresolve, hi, hhost.1, ⟨hlevel.1, hlevel.2.1.mpr ⟨_, rfl⟩⟩,
    ⟨hproxy.1, hproxy.2.1.mpr ⟨_, rfl⟩⟩, hregion.1, ⟨hmode.1, fun hunset => ?_⟩, hdebug.1, htoken.2.2, hmode.2.2,
    hsize.trans (by decide +kernel), fun entry _ => ?_⟩
  · obtain ⟨layer, hlayer⟩ := hmode.2.1.mp hunset
    cases hlayer
  · rw [(hplaceholder shopBundle ⟨∅, ∅⟩ resolution "" webBlock ⟨"/srv/shop/worktrees/app"⟩ "" entry rfl hcontains).1]
    exact congrArg (some ∘ Json.string) (by decide +kernel)

end Apmpr.Planner
