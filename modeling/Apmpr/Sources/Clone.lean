import Apmpr.Lib.Run
import Mathlib.Logic.Function.Basic

/-!
# Cloning a repository

`clone_repository` and `clone_repository_browser` of the crate `apmpr-sources`: a call checks
that its target does not exist, runs `git clone`, removes the target where that fails, and
registers the clone where it succeeds. The two differ in how they run Git. Calls for one name
have the same target; an event below is one step of one of them, with the outcome of what it
calls.

The clean-up asks nothing: it removes whatever is at the target. `clone_destroyed` gives a run in
which a second call, whose `git clone` fails because the first one's clone is there, removes that
clone after it was registered.

## What is proved

`clones_kept` — in every run in which no `git clone` is started while another call is between its
check and its clean-up, a registered clone stays; and in every run one call succeeds at most.
-/

namespace Apmpr.Sources.Clone

/-- Who made a directory or a registration: somebody before, or a call. -/
inductive Maker where
  | earlier
  | call (id : ℕ)
  deriving DecidableEq

/-- What is at the target. -/
inductive Target where
  | absent
  | empty
  /-- A directory that is not empty. -/
  | content (maker : Maker)
  deriving DecidableEq

/-- The errors of a call, by their codes. -/
inductive SourceError where
  | sourceOutsideManagedRoot
  | sourceTargetExists
  | cloneCreateFailed
  | io
  | sourceAlreadyRegistered
  deriving DecidableEq

/-- How `git clone` goes on a target it accepts. One that fails leaves the target as it was, or
something in it. -/
inductive GitOutcome where
  | cloned
  | failed
  | interrupted
  deriving DecidableEq

/-- `guard_mutation` for a target that is to be created; `contained` is whether it is beneath the
root. -/
def guardMutation (contained : Bool) (target : Target) : Except SourceError Unit :=
  if !contained then .error .sourceOutsideManagedRoot
  else if target ≠ .absent then .error .sourceTargetExists
  else .ok ()

/-- `git clone`: a target that is not empty is refused and left alone. -/
def gitClone (id : ℕ) (outcome : GitOutcome) : Target → Target × Bool
  | .content maker => (.content maker, false)
  | target =>
    match outcome with
    | .cloned => (.content (.call id), true)
    | .failed => (target, false)
    | .interrupted => (.content (.call id), false)

/-- `remove_failed_clone_target`, which may fail. -/
def removeFailedCloneTarget (removes : Bool) (target : Target) : Target := if removes then .absent else target

/-- `register_clone`: the registration of the name after it, and the result. `ok` is whether the
path is resolved beneath the root and the clock is read. -/
def registerClone (id : ℕ) (ok : Bool) (target : Target) (registered : Option Maker) :
    Option Maker × Except SourceError Unit :=
  if target = .absent then (registered, .error .io)
  else if !ok then (registered, .error .io)
  else if registered.isSome then (registered, .error .sourceAlreadyRegistered)
  else (some (.call id), .ok ())

/-- Where a call is. -/
inductive Phase where
  | checked
  | cloned
  | failed
  | ended (result : Except SourceError Unit)
  deriving DecidableEq

/-- The target, the registration of the name, and the calls. -/
structure State where
  target : Target
  registered : Option Maker
  calls : ℕ → Option Phase

/-- What there is before the calls. -/
inductive Before where
  | absent
  | empty
  | content

/-- No calls yet. -/
def State.initial (before : Before) (registered : Bool) : State where
  target := match before with
    | .absent => .absent
    | .empty => .empty
    | .content => .content .earlier
  registered := if registered then some .earlier else none
  calls _ := none

/-- A step of a call, with the outcome of what it calls. -/
inductive Event where
  | check (id : ℕ) (contained : Bool)
  | clone (id : ℕ) (outcome : GitOutcome)
  | cleanUp (id : ℕ) (removes : Bool)
  | register (id : ℕ) (ok : Bool)

/-- Move a call to a phase. -/
def State.move (s : State) (id : ℕ) (phase : Phase) : State :=
  { s with calls := Function.update s.calls id (some phase) }

/-- One step; a call that checks is a new one. -/
def step (s : State) : Event → Option State
  | .check id contained =>
    if s.calls id = none then
      match guardMutation contained s.target with
      | .error error => some (s.move id (.ended (.error error)))
      | .ok () => some (s.move id .checked)
    else none
  | .clone id outcome =>
    if s.calls id = some .checked then
      let (target, ok) := gitClone id outcome s.target
      some ({ s with target }.move id (if ok then .cloned else .failed))
    else none
  | .cleanUp id removes =>
    if s.calls id = some .failed then
      some ({ s with target := removeFailedCloneTarget removes s.target }.move id (.ended (.error .cloneCreateFailed)))
    else none
  | .register id ok =>
    if s.calls id = some .cloned then
      let (registered, result) := registerClone id ok s.target s.registered
      some ({ s with registered }.move id (.ended result))
    else none

/-- A clone that a call has registered is there. -/
def Intact (s : State) : Prop := ∀ id, s.registered = some (.call id) → s.target = .content (.call id)

/-- One call succeeds at most. -/
def OneSuccess (s : State) : Prop :=
  ∀ id id', s.calls id = some (.ended (.ok ())) → s.calls id' = some (.ended (.ok ())) → id = id'

/-- `git clone` is started while no other call is between its check and its clean-up. -/
def Alone (s : State) : Event → Prop
  | .clone id _ => ∀ id', id' ≠ id → s.calls id' ≠ some .checked ∧ s.calls id' ≠ some .failed
  | _ => True

/-- What is known of a run in which every `git clone` is alone. -/
structure Kept (s : State) : Prop where
  /-- While what a call made is at the target, no other call is about to clone or to clean up. -/
  made : ∀ id, s.target = .content (.call id) →
    ∀ id', id' ≠ id → s.calls id' ≠ some .checked ∧ s.calls id' ≠ some .failed
  cloned : ∀ id, s.calls id = some .cloned → s.target = .content (.call id)
  registered : ∀ id, s.registered = some (.call id) →
    s.target = .content (.call id) ∧ s.calls id = some (.ended (.ok ()))

section

variable {s s' : State} {id : ℕ}

@[simp] theorem target_move (phase : Phase) : (s.move id phase).target = s.target := rfl

@[simp] theorem registered_move (phase : Phase) : (s.move id phase).registered = s.registered := rfl

@[simp] theorem calls_move_self (phase : Phase) : (s.move id phase).calls id = some phase := Function.update_self ..

theorem calls_move_of_ne {id' : ℕ} (h : id' ≠ id) (phase : Phase) : (s.move id phase).calls id' = s.calls id' :=
  Function.update_of_ne h ..

/-- `git clone` leaves a target that is not empty, or it finds none or an empty one. -/
theorem gitClone_cases (id : ℕ) (outcome : GitOutcome) (target : Target) :
    (∃ maker, target = .content maker ∧ gitClone id outcome target = (target, false)) ∨
    (∀ maker, target ≠ .content maker) ∧
      (gitClone id outcome target = (.content (.call id), true) ∨ gitClone id outcome target = (target, false) ∨
        gitClone id outcome target = (.content (.call id), false)) := by
  cases target with
  | content maker => exact .inl ⟨maker, rfl, rfl⟩
  | absent => cases outcome <;> simp [gitClone]
  | empty => cases outcome <;> simp [gitClone]

namespace Kept

theorem initial (before : Before) (registered : Bool) : Kept (.initial before registered) where
  made id h := by
    cases before <;> cases h
  cloned id h := by cases h
  registered id h := by
    cases registered <;> cases h

/-- Where nothing a call made is at the target, no clone is pending or registered. -/
theorem nothing (h : Kept s) (htarget : ∀ maker, s.target ≠ .content maker) (id : ℕ) :
    s.calls id ≠ some .cloned ∧ s.registered ≠ some (.call id) :=
  ⟨fun hcloned => htarget _ (h.cloned id hcloned), fun hregistered => htarget _ (h.registered id hregistered).1⟩

/-- A pending clone was pending before another call's step. -/
theorem pending_of_move {phase : Phase} (hphase : phase ≠ .cloned) {id' : ℕ}
    (h : (s.move id phase).calls id' = some .cloned) : id' ≠ id ∧ s.calls id' = some .cloned := by
  by_cases heq : id' = id
  · subst heq
    rw [calls_move_self] at h
    exact absurd (Option.some.inj h) hphase
  · rw [calls_move_of_ne heq] at h
    exact ⟨heq, h⟩

/-- A call that has succeeded is not moved. -/
theorem success_move (hid : s.calls id ≠ some (.ended (.ok ()))) {id' : ℕ} (h : s.calls id' = some (.ended (.ok ())))
    (phase : Phase) : (s.move id phase).calls id' = some (.ended (.ok ())) := by
  have hne : id' ≠ id := by
    rintro rfl
    exact hid h
  rw [calls_move_of_ne hne]
  exact h

/-- A call that comes to an end, or never began. -/
theorem away_of_move {phase : Phase} (hphase : phase ≠ .checked ∧ phase ≠ .failed) {id' : ℕ}
    (h : s.calls id' ≠ some .checked ∧ s.calls id' ≠ some .failed) :
    (s.move id phase).calls id' ≠ some .checked ∧ (s.move id phase).calls id' ≠ some .failed := by
  by_cases heq : id' = id
  · subst heq
    rw [calls_move_self]
    simpa using hphase
  · rw [calls_move_of_ne heq]
    exact h

/-- A call passes its check. -/
theorem checked (h : Kept s) (hid : s.calls id = none) (habsent : s.target = .absent) : Kept (s.move id .checked) where
  made := by
    intro owner howner
    rw [target_move, habsent] at howner
    cases howner
  cloned := by
    intro id' hcloned
    exact h.cloned id' (pending_of_move (by simp) hcloned).2
  registered := by
    intro id' hregistered
    obtain ⟨htarget, hended⟩ := h.registered id' hregistered
    exact ⟨htarget, success_move (by simp [hid]) hended _⟩

/-- A call fails, and leaves the target. -/
theorem ended (h : Kept s) (hid : s.calls id ≠ some (.ended (.ok ()))) (error : SourceError) :
    Kept (s.move id (.ended (.error error))) where
  made := by
    intro owner howner id' hne
    exact away_of_move (by simp) (h.made owner howner id' hne)
  cloned := by
    intro id' hcloned
    exact h.cloned id' (pending_of_move (by simp) hcloned).2
  registered := by
    intro id' hregistered
    obtain ⟨htarget, hended⟩ := h.registered id' hregistered
    exact ⟨htarget, success_move hid hended _⟩

/-- `git clone` refuses the target. -/
theorem refused (h : Kept s) (hid : s.calls id = some .checked) : Kept (s.move id .failed) where
  made := by
    intro owner howner id' hne
    by_cases heq : id' = id
    · subst heq
      exact absurd hid (h.made owner howner id' hne).1
    · rw [calls_move_of_ne heq]
      exact h.made owner howner id' hne
  cloned := by
    intro id' hcloned
    exact h.cloned id' (pending_of_move (by simp) hcloned).2
  registered := by
    intro id' hregistered
    obtain ⟨htarget, hended⟩ := h.registered id' hregistered
    exact ⟨htarget, success_move (by simp [hid]) hended _⟩

/-- `git clone` runs alone on a target it accepts. -/
theorem clone (h : Kept s) (htarget : ∀ maker, s.target ≠ .content maker)
    (halone : ∀ id', id' ≠ id → s.calls id' ≠ some .checked ∧ s.calls id' ≠ some .failed) {target : Target} {phase : Phase}
    (hphase : target = .content (.call id) ∧ (phase = .cloned ∨ phase = .failed) ∨ target = s.target ∧ phase = .failed) :
    Kept ({ s with target }.move id phase) where
  made := by
    intro owner howner id' hne
    rw [target_move] at howner
    rcases hphase with ⟨rfl, -⟩ | ⟨rfl, -⟩
    · obtain rfl : id = owner := by simpa using howner
      rw [calls_move_of_ne hne]
      exact halone id' hne
    · exact absurd howner (htarget _)
  cloned := by
    intro id' hcloned
    by_cases heq : id' = id
    · subst heq
      rw [calls_move_self] at hcloned
      rcases hphase with ⟨rfl, -⟩ | ⟨-, rfl⟩
      · rfl
      · cases hcloned
    · rw [calls_move_of_ne heq] at hcloned
      exact absurd hcloned (h.nothing htarget id').1
  registered := by
    intro id' hregistered
    exact absurd hregistered (h.nothing htarget id').2

/-- A clean-up removes nothing of another call. -/
theorem cleanUp (h : Kept s) (hid : s.calls id = some .failed) (error : SourceError) :
    Kept ({ s with target := .absent }.move id (.ended (.error error))) where
  made := by
    rintro owner ⟨⟩
  cloned := by
    intro id' hcloned
    obtain ⟨hne, hcloned⟩ := pending_of_move (by simp) hcloned
    exact absurd hid (h.made id' (h.cloned id' hcloned) id (Ne.symm hne)).2
  registered := by
    intro id' hregistered
    obtain ⟨hown, hended⟩ := h.registered id' hregistered
    have hne : id ≠ id' := by
      rintro rfl
      rw [hid] at hended
      cases hended
    exact absurd hid (h.made id' hown id hne).2

/-- A clone that is registered is there. -/
theorem register (h : Kept s) (hid : s.calls id = some .cloned) :
    Kept ({ s with registered := some (.call id) }.move id (.ended (.ok ()))) where
  made := by
    intro owner howner id' hne
    exact away_of_move (by simp) (h.made owner howner id' hne)
  cloned := by
    intro id' hcloned
    exact h.cloned id' (pending_of_move (by simp) hcloned).2
  registered := by
    intro id' hregistered
    obtain rfl : id = id' := by simpa using hregistered
    exact ⟨h.cloned id hid, calls_move_self _⟩

/-- Every step keeps it. -/
theorem step (h : Kept s) {event : Event} (hok : Alone s event) (hstep : Clone.step s event = some s') : Kept s' := by
  cases event with
  | check id contained =>
    simp only [Clone.step, Option.ite_none_right_eq_some] at hstep
    obtain ⟨hid, hstep⟩ := hstep
    unfold guardMutation at hstep
    split_ifs at hstep with hcontained htarget
    · obtain rfl := Option.some.inj hstep
      exact h.ended (by simp [hid]) _
    · obtain rfl := Option.some.inj hstep
      exact h.ended (by simp [hid]) _
    · obtain rfl := Option.some.inj hstep
      exact h.checked hid (not_not.mp htarget)
  | clone id outcome =>
    simp only [Clone.step, Option.ite_none_right_eq_some, Option.some.injEq] at hstep
    obtain ⟨hid, rfl⟩ := hstep
    rcases gitClone_cases id outcome s.target with ⟨maker, -, hgit⟩ | ⟨htarget, hgit | hgit | hgit⟩
    · rw [hgit]
      exact h.refused hid
    · rw [hgit]
      exact h.clone htarget hok (.inl ⟨rfl, .inl rfl⟩)
    · rw [hgit]
      exact h.clone htarget hok (.inr ⟨rfl, rfl⟩)
    · rw [hgit]
      exact h.clone htarget hok (.inl ⟨rfl, .inr rfl⟩)
  | cleanUp id removes =>
    simp only [Clone.step, Option.ite_none_right_eq_some, Option.some.injEq] at hstep
    obtain ⟨hid, rfl⟩ := hstep
    cases removes
    · exact h.ended (by simp [hid]) _
    · exact h.cleanUp hid _
  | register id ok =>
    simp only [Clone.step, Option.ite_none_right_eq_some, Option.some.injEq] at hstep
    obtain ⟨hid, rfl⟩ := hstep
    unfold registerClone
    split_ifs
    · exact h.ended (by simp [hid]) _
    · exact h.ended (by simp [hid]) _
    · exact h.ended (by simp [hid]) _
    · exact h.register hid

end Kept

/-- A call that has succeeded is the one registered. -/
def Claimed (s : State) : Prop := ∀ id, s.calls id = some (.ended (.ok ())) → s.registered = some (.call id)

theorem Claimed.oneSuccess (h : Claimed s) : OneSuccess s := by
  intro id id' hid hid'
  have hsame := (h id hid).symm.trans (h id' hid')
  simpa using hsame

theorem Claimed.move (h : Claimed s) {phase : Phase} (hphase : phase ≠ .ended (.ok ())) : Claimed (s.move id phase) := by
  intro id' hid'
  by_cases heq : id' = id
  · subst heq
    rw [calls_move_self] at hid'
    exact absurd (Option.some.inj hid') hphase
  · rw [calls_move_of_ne heq] at hid'
    exact h id' hid'

theorem Claimed.step (h : Claimed s) {event : Event} (hstep : Clone.step s event = some s') : Claimed s' := by
  cases event with
  | check id contained =>
    simp only [Clone.step, Option.ite_none_right_eq_some] at hstep
    obtain ⟨-, hstep⟩ := hstep
    cases hguard : guardMutation contained s.target with
    | error error =>
      rw [hguard] at hstep
      obtain rfl := Option.some.inj hstep
      exact h.move (by simp)
    | ok u =>
      rw [hguard] at hstep
      obtain rfl := Option.some.inj hstep
      exact h.move (by simp)
  | clone id outcome =>
    simp only [Clone.step, Option.ite_none_right_eq_some, Option.some.injEq] at hstep
    obtain ⟨-, rfl⟩ := hstep
    have hsame : Claimed { s with target := (gitClone id outcome s.target).1 } := h
    refine hsame.move ?_
    split_ifs <;> simp
  | cleanUp id removes =>
    simp only [Clone.step, Option.ite_none_right_eq_some, Option.some.injEq] at hstep
    obtain ⟨-, rfl⟩ := hstep
    have hsame : Claimed { s with target := removeFailedCloneTarget removes s.target } := h
    exact hsame.move (by simp)
  | register id ok =>
    simp only [Clone.step, Option.ite_none_right_eq_some, Option.some.injEq] at hstep
    obtain ⟨hid, rfl⟩ := hstep
    unfold registerClone
    split_ifs with habsent hfailed htaken
    · exact h.move (by simp)
    · exact h.move (by simp)
    · exact h.move (by simp)
    · intro id' hid'
      by_cases heq : id' = id
      · subst heq
        rfl
      · rw [calls_move_of_ne heq] at hid'
        rw [h id' hid'] at htaken
        exact absurd rfl htaken

/-- A registered clone stays in every run in which `git clone` is started while no other call is
between its check and its clean-up; one call succeeds at most in every run. -/
theorem clones_kept {before : Before} {registered : Bool} :
    (Reaches Clone.step Alone (.initial before registered) s → Intact s) ∧
    (Reaches Clone.step (fun _ _ => True) (.initial before registered) s → OneSuccess s) := by
  constructor
  · intro hrun id hid
    have hkept : Kept s := Reaches.invariant (fun _ _ _ hok hstep h => h.step hok hstep) hrun (.initial before registered)
    exact (hkept.registered id hid).1
  · intro hrun
    have hclaimed : Claimed s := Reaches.invariant (fun _ _ _ _ hstep h => h.step hstep) hrun (by rintro id ⟨⟩)
    exact hclaimed.oneSuccess

end

/-- Where the calls from a number on have not begun, those below it are to be looked at. -/
theorem alone_of_forall_lt {s : State} {n id : ℕ} {outcome : GitOutcome} (hnone : ∀ id', n ≤ id' → s.calls id' = none)
    (h : ∀ id' < n, id' ≠ id → s.calls id' ≠ some .checked ∧ s.calls id' ≠ some .failed) : Alone s (.clone id outcome) := by
  intro id' hne
  by_cases hlt : id' < n
  · exact h id' hlt hne
  · rw [hnone id' (Nat.le_of_not_lt hlt)]
    exact ⟨by simp, by simp⟩

/-- The calls have not begun from a number on. -/
theorem move_calls_of_le {s : State} {n id : ℕ} {phase : Phase} (hnone : ∀ id', n ≤ id' → s.calls id' = none) (hid : id < n) :
    ∀ id', n ≤ id' → (s.move id phase).calls id' = none := by
  intro id' hle
  rw [calls_move_of_ne (by omega)]
  exact hnone id' hle

/-- The first call is interrupted and cleans up; the second one checks after it and clones; the third
one and the fourth find its clone, before and after it is registered. -/
theorem clones_kept_four :
    ∃ s, Reaches step Alone (.initial .absent false) s ∧
      (List.range 4).map s.calls = [some (.ended (.error .cloneCreateFailed)), some (.ended (.ok ())),
        some (.ended (.error .sourceTargetExists)), some (.ended (.error .sourceTargetExists))] ∧
      s.registered = some (.call 1) ∧ Intact s ∧ OneSuccess s := by
  have hnone : ∀ id', 4 ≤ id' → (State.initial .absent false).calls id' = none := fun _ _ => rfl
  obtain ⟨s, hrun, hcalls, hregistered⟩ : ∃ s, Reaches step Alone (.initial .absent false) s ∧
      (List.range 4).map s.calls = [some (.ended (.error .cloneCreateFailed)), some (.ended (.ok ())),
        some (.ended (.error .sourceTargetExists)), some (.ended (.error .sourceTargetExists))] ∧
      s.registered = some (.call 1) := by
    refine ⟨_, .head ⟨.check 0 true, trivial, rfl⟩ (.head ⟨.clone 0 .interrupted, ?first, rfl⟩
      (.head ⟨.cleanUp 0 true, trivial, rfl⟩ (.head ⟨.check 1 true, trivial, rfl⟩ (.head ⟨.clone 1 .cloned, ?second, rfl⟩
      (.head ⟨.check 2 true, trivial, rfl⟩ (.head ⟨.register 1 true, trivial, rfl⟩
      (.head ⟨.check 3 true, trivial, rfl⟩ .refl))))))), rfl, rfl⟩
    case first =>
      exact alone_of_forall_lt (move_calls_of_le hnone (by decide)) (by decide)
    case second =>
      refine alone_of_forall_lt (n := 4) ?_ (by decide)
      exact move_calls_of_le (move_calls_of_le (move_calls_of_le (move_calls_of_le hnone (by decide)) (by decide))
        (by decide)) (by decide)
  exact ⟨s, hrun, hcalls, hregistered, clones_kept.1 hrun,
    clones_kept.2 (hrun.mono fun _ _ _ => trivial)⟩

/-- Both calls pass the check before either one clones; the second one's `git clone` fails because
the first one's clone is there, and its clean-up removes the clone that is registered by then. -/
theorem clone_destroyed :
    ∃ s, Reaches step (fun _ _ => True) (.initial .absent false) s ∧ s.registered = some (.call 0) ∧
      s.calls 0 = some (.ended (.ok ())) ∧ s.target = .absent ∧ ¬ Intact s := by
  obtain ⟨s, hs, hend⟩ := exists_reaches_of_exec step (.initial .absent false)
    (fun s => decide (s.registered = some (.call 0) ∧ s.calls 0 = some (.ended (.ok ())) ∧ s.target = .absent))
    [.check 0 true, .check 1 true, .clone 0 .cloned, .register 0 true, .clone 1 .cloned, .cleanUp 1 true] (by decide)
  obtain ⟨hregistered, hended, htarget⟩ := of_decide_eq_true hend
  refine ⟨s, hs, hregistered, hended, htarget, fun hintact => ?_⟩
  have hthere := hintact 0 hregistered
  rw [htarget] at hthere
  cases hthere

end Apmpr.Sources.Clone
