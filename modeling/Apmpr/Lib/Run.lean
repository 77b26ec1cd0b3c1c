import Mathlib.Data.List.Basic
import Mathlib.Logic.Relation

/-!
# Runs of a machine

A machine takes inputs one at a time; an input moves its state and is answered.
`after` is the state a list of inputs leads to. A property that every input keeps
holds after every run (`after_invariant`); a run none of whose inputs moves the
state leads nowhere (`after_of_quiet`).

A system of several parties takes an event only where it is enabled. `Reaches` is
what it can come to when every event meets a condition on the state it is taken in;
a property that every such event keeps holds in everything reached
(`Reaches.invariant`). `exec` runs a list of events, whatever they meet, and `execWhere`
only those that pass a test.
-/

namespace Apmpr

universe u v w

variable {σ : Type u} {ι : Type v} {ο : Type w} (step : σ → ι → σ × ο)

/-- The state after a list of inputs. -/
def after (s : σ) (inputs : List ι) : σ := inputs.foldl (fun s i => (step s i).1) s

variable {step} {s : σ}

@[simp] theorem after_nil : after step s [] = s := rfl

@[simp] theorem after_cons (i : ι) (inputs : List ι) :
    after step s (i :: inputs) = after step (step s i).1 inputs := rfl

theorem after_append (xs ys : List ι) : after step s (xs ++ ys) = after step (after step s xs) ys :=
  List.foldl_append ..

theorem after_concat (xs : List ι) (i : ι) : after step s (xs ++ [i]) = (step (after step s xs) i).1 :=
  after_append xs [i]

/-- **The invariant rule**: what every input keeps holds after every run. -/
theorem after_invariant {P : σ → Prop} (hstep : ∀ s i, P s → P (step s i).1) (h : P s) (inputs : List ι) :
    P (after step s inputs) := by
  induction inputs generalizing s with
  | nil => exact h
  | cons i rest ih => exact ih (hstep s i h)

/-- A run none of whose inputs moves the state leads nowhere. -/
theorem after_of_quiet {inputs : List ι}
    (h : ∀ pre i post, inputs = pre ++ i :: post → (step (after step s pre) i).1 = after step s pre) :
    after step s inputs = s := by
  induction inputs with
  | nil => rfl
  | cons i rest ih =>
    have hi : (step s i).1 = s := h [] i rest rfl
    rw [after_cons, hi]
    refine ih fun pre j post hrest => ?_
    have hj := h (i :: pre) j post (by rw [hrest]; rfl)
    rwa [after_cons, hi] at hj

/-! ### Events that may be disabled -/

section

variable {ε : Type v} (next : σ → ε → Option σ)

/-- What the system can come to by enabled events that meet a condition. -/
def Reaches (ok : σ → ε → Prop) : σ → σ → Prop :=
  Relation.ReflTransGen fun s s' => ∃ e, ok s e ∧ next s e = some s'

/-- Run a list of events. -/
def exec (s : σ) (events : List ε) : Option σ := events.foldlM next s

/-- Run a list of events, each of which passes a test on the state it is taken in. -/
def execWhere (check : σ → ε → Bool) (s : σ) (events : List ε) : Option σ :=
  exec (fun s e => if check s e then next s e else none) s events

variable {next} {ok : σ → ε → Prop} {s' : σ}

theorem exec_cons {e : ε} {events : List ε} :
    exec next s (e :: events) = some s' ↔ ∃ t, next s e = some t ∧ exec next t events = some s' := by
  rw [exec, List.foldlM_cons]
  exact Option.bind_eq_some_iff

theorem exec_append {xs ys : List ε} :
    exec next s (xs ++ ys) = some s' ↔ ∃ t, exec next s xs = some t ∧ exec next t ys = some s' := by
  rw [exec, List.foldlM_append]
  exact Option.bind_eq_some_iff

/-- **The invariant rule** for a run: what every event keeps holds after it. -/
theorem exec_invariant {P : σ → Prop} (hnext : ∀ s e s', next s e = some s' → P s → P s') {events : List ε}
    (h : exec next s events = some s') (hs : P s) : P s' := by
  induction events generalizing s with
  | nil =>
    obtain rfl := Option.some.inj h
    exact hs
  | cons e rest ih =>
    obtain ⟨t, ht, hrest⟩ := exec_cons.mp h
    exact ih hrest (hnext s e t ht hs)

/-- **The invariant rule**: what every event that meets the condition keeps holds in
everything reached. -/
theorem Reaches.invariant {P : σ → Prop} (hnext : ∀ s e s', ok s e → next s e = some s' → P s → P s')
    (h : Reaches next ok s s') (hs : P s) : P s' := by
  induction h with
  | refl => exact hs
  | tail _ hstep ih =>
    obtain ⟨e, hok, he⟩ := hstep
    exact hnext _ e _ hok he ih

/-- What is reached under a condition is reached under a weaker one. -/
theorem Reaches.mono {ok' : σ → ε → Prop} (h : Reaches next ok s s') (hok : ∀ s e, ok s e → ok' s e) :
    Reaches next ok' s s' := by
  induction h with
  | refl => exact Relation.ReflTransGen.refl
  | tail _ hstep ih =>
    obtain ⟨e, he, hstep⟩ := hstep
    exact ih.tail ⟨e, hok _ e he, hstep⟩

theorem Reaches.of_exec {events : List ε} (h : exec next s events = some s') :
    Reaches next (fun _ _ => True) s s' := by
  induction events generalizing s with
  | nil =>
    obtain rfl := Option.some.inj h
    exact Relation.ReflTransGen.refl
  | cons e rest ih =>
    obtain ⟨t, ht, hrest⟩ := exec_cons.mp h
    exact Relation.ReflTransGen.head ⟨e, trivial, ht⟩ (ih hrest)

/-- A state that a list of events leads to is reached. -/
theorem exists_reaches_of_exec (next : σ → ε → Option σ) (s : σ) (p : σ → Bool) (events : List ε)
    (h : (exec next s events).any p = true) :
    ∃ s', Reaches next (fun _ _ => True) s s' ∧ p s' = true := by
  cases hexec : exec next s events with
  | none =>
    rw [hexec] at h
    cases h
  | some s' =>
    rw [hexec, Option.any_some] at h
    exact ⟨s', .of_exec hexec, h⟩

theorem Reaches.of_execWhere {check : σ → ε → Bool} (hcheck : ∀ s e, check s e = true → ok s e) {events : List ε}
    (h : execWhere next check s events = some s') : Reaches next ok s s' := by
  induction events generalizing s with
  | nil =>
    obtain rfl := Option.some.inj h
    exact Relation.ReflTransGen.refl
  | cons e rest ih =>
    obtain ⟨t, ht, hrest⟩ := exec_cons.mp h
    obtain ⟨htest, hstep⟩ := Option.ite_none_right_eq_some.mp ht
    exact Relation.ReflTransGen.head ⟨e, hcheck s e htest, hstep⟩ (ih hrest)

/-- A state that a list of tested events leads to is reached under the condition. -/
theorem exists_reaches_of_execWhere (next : σ → ε → Option σ) (check : σ → ε → Bool)
    (hcheck : ∀ s e, check s e = true → ok s e) (s : σ) (p : σ → Bool) (events : List ε)
    (h : (execWhere next check s events).any p = true) :
    ∃ s', Reaches next ok s s' ∧ p s' = true := by
  cases hexec : execWhere next check s events with
  | none =>
    rw [hexec] at h
    cases h
  | some s' =>
    rw [hexec, Option.any_some] at h
    exact ⟨s', .of_execWhere hcheck hexec, h⟩

end

end Apmpr
