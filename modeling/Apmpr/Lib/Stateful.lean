import Mathlib.Control.Monad.Basic

/-!
# Computations that fail with a state

A computation reads and changes a state, and gives a value or fails; when it fails, the state
it has come to stays. `Ensures` is a triple with two postconditions, one for the value and one
for the error; `Wp` is what has to hold of the state before.

## What is proved

One rule for each way to put computations together: `Ensures.bind`, `Ensures.ite`,
`Ensures.forM` with an invariant over the items done so far, and `Ensures.mono`; and the same
for an invariant that nothing breaks, `Keeps.bind` and `Keeps.forM`. The rules of `Wp` are
equivalences, so that they compute exactly when a computation meets its postconditions.
-/

namespace Apmpr

/-- A computation over a state that may fail. -/
abbrev Stateful (σ ε α : Type) := ExceptT ε (StateM σ) α

namespace Stateful

variable {σ ε α β : Type}

/-- What a computation gives from a state, and the state it leaves. -/
def exec (m : Stateful σ ε α) (state : σ) : Except ε α × σ := StateT.run (ExceptT.run m) state

/-- A computation from what it gives. -/
def ofFun (f : σ → Except ε α × σ) : Stateful σ ε α := ExceptT.mk fun state => f state

@[simp]
theorem exec_ofFun (f : σ → Except ε α × σ) (state : σ) : (ofFun f).exec state = f state := rfl

@[simp]
theorem exec_pure (value : α) (state : σ) : (pure value : Stateful σ ε α).exec state = (.ok value, state) := rfl

/-- After a value the rest goes on from the state that is left; after an error nothing does. -/
theorem exec_bind (m : Stateful σ ε α) (next : α → Stateful σ ε β) (state : σ) :
    (m >>= next).exec state =
      match m.exec state with
      | (.ok value, after) => (next value).exec after
      | (.error error, after) => (.error error, after) := by
  simp only [exec, ExceptT.run_bind, StateT.run_bind]
  rcases StateT.run (ExceptT.run m) state with ⟨_ | _, _⟩ <;> rfl

theorem exec_throw (error : ε) (state : σ) : (throw error : Stateful σ ε α).exec state = (.error error, state) := rfl

/-- A result that does not depend on the state. -/
def ofExcept (result : Except ε α) : Stateful σ ε α := ofFun fun state => (result, state)

/-- After an error the handler goes on from the state that is left. -/
theorem exec_tryCatch (m : Stateful σ ε α) (handler : ε → Stateful σ ε α) (state : σ) :
    (tryCatch m handler).exec state =
      match m.exec state with
      | (.ok value, after) => (.ok value, after)
      | (.error error, after) => (handler error).exec after := by
  change StateT.run (ExceptT.run (ExceptT.tryCatch m handler)) state = _
  simp only [exec, ExceptT.tryCatch, ExceptT.run, ExceptT.mk, StateT.run_bind]
  rcases StateT.run m state with ⟨_ | _, _⟩ <;> rfl

/-- A computation whose result is of no interest. -/
def ignore (m : Stateful σ ε α) : Stateful σ ε Unit := ofFun fun state => (.ok (), (m.exec state).2)

/-- From a state where `before` holds, a computation that gives a value leaves a state where
`after` holds of the value, and one that fails a state where `failed` holds of the error. -/
def Ensures (before : σ → Prop) (m : Stateful σ ε α) (after : α → σ → Prop) (failed : ε → σ → Prop) : Prop :=
  ∀ state, before state →
    (∀ value state', m.exec state = (.ok value, state') → after value state') ∧
      ∀ error state', m.exec state = (.error error, state') → failed error state'

namespace Ensures

variable {before before' : σ → Prop} {after after' : α → σ → Prop} {failed failed' : ε → σ → Prop}
  {m : Stateful σ ε α}

theorem mono (h : Ensures before m after failed) (hbefore : ∀ state, before' state → before state)
    (hafter : ∀ value state, after value state → after' value state)
    (hfailed : ∀ error state, failed error state → failed' error state) : Ensures before' m after' failed' := by
  intro state hstate
  obtain ⟨hvalue, herror⟩ := h state (hbefore state hstate)
  exact ⟨fun value state' hrun => hafter _ _ (hvalue value state' hrun),
    fun error state' hrun => hfailed _ _ (herror error state' hrun)⟩

theorem pure {value : α} (h : ∀ state, before state → after value state) :
    Ensures before (Pure.pure value : Stateful σ ε α) after failed := by
  intro state hstate
  constructor
  · intro value' state' hrun
    cases hrun
    exact h state hstate
  · intro error state' hrun
    cases hrun

/-- The rule for one computation after another. -/
theorem bind {middle : β → σ → Prop} {m : Stateful σ ε β} {next : β → Stateful σ ε α}
    (hfirst : Ensures before m middle failed) (hnext : ∀ value, Ensures (middle value) (next value) after failed) :
    Ensures before (m >>= next) after failed := by
  intro state hstate
  obtain ⟨hvalue, herror⟩ := hfirst state hstate
  rw [exec_bind]
  rcases hrun : m.exec state with ⟨error | value, state₁⟩
  · constructor
    · intro value state' heq
      cases heq
    · intro error' state' heq
      cases heq
      exact herror error state₁ hrun
  · exact hnext value state₁ (hvalue value state₁ hrun)

theorem ite {c : Prop} [Decidable c] {m' : Stateful σ ε α} (hthen : c → Ensures before m after failed)
    (helse : ¬c → Ensures before m' after failed) : Ensures before (if c then m else m') after failed := by
  by_cases hc : c
  · rw [if_pos hc]
    exact hthen hc
  · rw [if_neg hc]
    exact helse hc

/-- What does not depend on the state may be assumed. -/
theorem assume {fact : Prop} (h : fact → Ensures before m after failed) :
    Ensures (fun state => fact ∧ before state) m after failed := fun state hstate => h hstate.1 state hstate.2

/-- The rule for a loop: the invariant speaks of the items done so far. -/
theorem forM {invariant : List β → σ → Prop} {items : List β} {body : β → Stateful σ ε PUnit}
    (hbody : ∀ done item rest, items = done ++ item :: rest →
      Ensures (invariant done) (body item) (fun _ => invariant (done ++ [item])) failed) :
    Ensures (invariant []) (items.forM body) (fun _ => invariant items) failed := by
  suffices h : ∀ done rest, items = done ++ rest →
      Ensures (invariant done) (rest.forM body) (fun _ => invariant items) failed from h [] items rfl
  intro done rest hsplit
  induction rest generalizing done with
  | nil =>
    refine pure fun state hstate => ?_
    rwa [hsplit, List.append_nil]
  | cons item rest ih =>
    refine bind (hbody done item rest hsplit) fun _ => ih (done ++ [item]) ?_
    rw [hsplit, List.append_assoc]
    rfl

end Ensures

/-! ### Exactly when -/

/-- A computation from a state leaves a state where `after` holds if it gives a value, and one where
`failed` holds if it fails. -/
def Wp (m : Stateful σ ε α) (after : α → σ → Prop) (failed : ε → σ → Prop) (state : σ) : Prop :=
  (∀ value state', m.exec state = (.ok value, state') → after value state') ∧
    ∀ error state', m.exec state = (.error error, state') → failed error state'

section Wp

variable {after : α → σ → Prop} {failed : ε → σ → Prop} {m : Stateful σ ε α} {state : σ}

theorem wp_of_ok {value : α} {state' : σ} (h : m.exec state = (.ok value, state')) :
    Wp m after failed state ↔ after value state' := by
  simp only [Wp, h, Prod.mk.injEq, Except.ok.injEq, reduceCtorEq, false_and, false_implies, implies_true, and_true]
  constructor
  · intro hafter
    exact hafter value state' ⟨rfl, rfl⟩
  · rintro hafter _ _ ⟨rfl, rfl⟩
    exact hafter

theorem wp_of_error {error : ε} {state' : σ} (h : m.exec state = (.error error, state')) :
    Wp m after failed state ↔ failed error state' := by
  simp only [Wp, h, Prod.mk.injEq, Except.error.injEq, reduceCtorEq, false_and, false_implies, implies_true, true_and]
  constructor
  · intro hfailed
    exact hfailed error state' ⟨rfl, rfl⟩
  · rintro hfailed _ _ ⟨rfl, rfl⟩
    exact hfailed

theorem wp_pure {value : α} : Wp (pure value) after failed state ↔ after value state := wp_of_ok (exec_pure value state)

theorem wp_throw {error : ε} : Wp (throw error : Stateful σ ε α) after failed state ↔ failed error state :=
  wp_of_error (exec_throw error state)

theorem wp_ofFun {f : σ → Except ε α × σ} :
    Wp (ofFun f) after failed state ↔ (∀ value, (f state).1 = .ok value → after value (f state).2) ∧
      ∀ error, (f state).1 = .error error → failed error (f state).2 := by
  rcases hrun : f state with ⟨error | value, state'⟩
  · rw [wp_of_error (by rw [exec_ofFun, hrun])]
    simp
  · rw [wp_of_ok (by rw [exec_ofFun, hrun])]
    simp

theorem wp_ofExcept {result : Except ε α} :
    Wp (ofExcept result) after failed state ↔ (∀ value, result = .ok value → after value state) ∧
      ∀ error, result = .error error → failed error state := wp_ofFun

theorem wp_bind {m : Stateful σ ε β} {next : β → Stateful σ ε α} :
    Wp (m >>= next) after failed state ↔ Wp m (fun value state' => Wp (next value) after failed state') failed state := by
  rcases hrun : m.exec state with ⟨error | value, state'⟩
  · rw [wp_of_error hrun, wp_of_error (by rw [exec_bind, hrun])]
  · rw [wp_of_ok hrun]
    have hnext : (m >>= next).exec state = (next value).exec state' := by rw [exec_bind, hrun]
    simp only [Wp, hnext]

theorem wp_tryCatch {handler : ε → Stateful σ ε α} :
    Wp (tryCatch m handler) after failed state ↔
      Wp m after (fun error state' => Wp (handler error) after failed state') state := by
  rcases hrun : m.exec state with ⟨error | value, state'⟩
  · rw [wp_of_error hrun]
    have hhandler : (tryCatch m handler).exec state = (handler error).exec state' := by rw [exec_tryCatch, hrun]
    simp only [Wp, hhandler]
  · rw [wp_of_ok hrun, wp_of_ok (by rw [exec_tryCatch, hrun])]

theorem wp_ignore {after : Unit → σ → Prop} :
    Wp (ignore m) after failed state ↔ after () (m.exec state).2 := wp_of_ok rfl

end Wp

/-- A computation keeps an invariant, whether it gives a value or fails. -/
def Keeps (invariant : σ → Prop) (m : Stateful σ ε α) : Prop :=
  ∀ state, invariant state → invariant (m.exec state).2

namespace Keeps

variable {invariant : σ → Prop} {m : Stateful σ ε α}

theorem ofFun {f : σ → Except ε α × σ} (h : ∀ state, invariant state → invariant (f state).2) :
    Keeps invariant (Stateful.ofFun f) := h

theorem pure {value : α} : Keeps invariant (Pure.pure value : Stateful σ ε α) := fun _ hstate => hstate

theorem bind {m : Stateful σ ε β} {next : β → Stateful σ ε α} (hfirst : Keeps invariant m)
    (hnext : ∀ value, Keeps invariant (next value)) : Keeps invariant (m >>= next) := by
  intro state hstate
  have hmiddle := hfirst state hstate
  rw [exec_bind]
  rcases hrun : m.exec state with ⟨error | value, state₁⟩
  · rw [hrun] at hmiddle
    exact hmiddle
  · rw [hrun] at hmiddle
    exact hnext value state₁ hmiddle

theorem forM {items : List β} {body : β → Stateful σ ε PUnit} (hbody : ∀ item ∈ items, Keeps invariant (body item)) :
    Keeps invariant (items.forM body) := by
  induction items with
  | nil => exact pure
  | cons item items ih =>
    refine bind (hbody item (List.mem_cons_self ..)) fun _ => ih fun other hother => ?_
    exact hbody other (List.mem_cons_of_mem _ hother)

/-- What is kept is there after a value and after an error. -/
theorem wp {after : α → σ → Prop} {failed : ε → σ → Prop} {state : σ} (h : Keeps invariant m)
    (hstate : invariant state) (hafter : ∀ value state', invariant state' → after value state')
    (hfailed : ∀ error state', invariant state' → failed error state') : Wp m after failed state := by
  have hkept := h state hstate
  constructor
  · intro value state' hrun
    rw [hrun] at hkept
    exact hafter value state' hkept
  · intro error state' hrun
    rw [hrun] at hkept
    exact hfailed error state' hkept

end Keeps

end Stateful

end Apmpr
