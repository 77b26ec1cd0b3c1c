import Apmpr.Lib.MachineInt
import Apmpr.Lib.Run
import Mathlib.Data.List.Range
import Mathlib.Order.Basic

/-!
# The event log of an operation

`EventLog`: `emit` draws an identifier under one lock and pushes its event under
another, `finish` sets the terminal flag under a third, and `next_after` looks into the
queue and then at the flag. The system has any number of emits at once, one `finish`
and one subscriber that asks for what follows the event it received last. An event of
the model is one of their steps with one lock; a wake-up of the waiters is a step of
its own, after the lock is given back.

A `Notified` that exists when the waiters are woken is woken, polled or not; so the
subscriber misses no wake-up. It does miss events: `events_lost` gives two runs, one in
which a larger identifier is pushed first, and one in which an event and the end come
between its look into the queue and its look at the flag.

## What is proved

`delivery` — in every run whose emits push in the order of their identifiers, whose
`finish` comes when no emit is under way and not between the two looks of a subscriber
that has an event waiting, and which emits nothing afterwards and no more than the log
holds: the subscriber has received a first part of the events, in order, and is told
that there are no more only when it has received them all; it never waits while there
is something for it; and when everything else has come to its end it comes to the end
of the events by itself.
-/

namespace Apmpr.Daemon.EventLog

/-- `EVENT_CAPACITY`. -/
def EVENT_CAPACITY : ℕ := 2048

/-- The next identifier; a 64-bit counter that stays at its largest value. -/
def saturatingSucc (n : ℕ) : ℕ := min (n + 1) (2 ^ 64 - 1)

/-- Where the subscriber is in `next_after`. -/
inductive Phase where
  /-- About to make its `Notified`. -/
  | entering
  /-- About to look into the queue. -/
  | checkingQueue
  /-- About to look at the terminal flag. -/
  | checkingTerminal
  /-- Waiting for a wake-up. -/
  | waiting
  /-- Told that there are no more events. -/
  | ended
  deriving DecidableEq, Repr

variable {α : Type}

/-- The log, the emits under way and the subscriber. An event is its identifier and what was
emitted. -/
structure System (α : Type) where
  nextId : ℕ
  /-- The emits that have drawn an identifier and not pushed. -/
  emitting : List (ℕ × α)
  events : List (ℕ × α)
  terminal : Bool
  /-- The calls of `notify_waiters` still to be made. -/
  wakeups : ℕ
  phase : Phase
  /-- The subscriber's `Notified` was woken. -/
  notified : Bool
  /-- The identifier of the event received last. -/
  cursor : ℕ
  received : List (ℕ × α)
  deriving DecidableEq

/-- Nothing has happened. -/
def System.initial : System α := ⟨1, [], [], false, 0, .entering, false, 0, []⟩

/-- A step with one lock, a wake-up, or a step of the subscriber. -/
inductive Event (α : Type) where
  /-- An emit draws its identifier. -/
  | draw (data : α)
  /-- The emit with a given index among those under way pushes its event. -/
  | push (index : ℕ)
  | finish
  | notifyWaiters
  | subscriber

/-- Push to the queue, dropping its oldest event when it is full. -/
def pushBack (events : List (ℕ × α)) (event : ℕ × α) : List (ℕ × α) :=
  (if events.length = EVENT_CAPACITY then events.tail else events) ++ [event]

/-- One step of `next_after`, and of the call that follows it. -/
def subscriberStep (s : System α) : Option (System α) :=
  match s.phase with
  | .entering => some { s with phase := .checkingQueue, notified := false }
  | .checkingQueue =>
    match s.events.find? fun event => s.cursor < event.1 with
    | some event =>
      some { s with phase := .entering, cursor := event.1, received := s.received ++ [event] }
    | none => some { s with phase := .checkingTerminal }
  | .checkingTerminal => some { s with phase := if s.terminal then .ended else .waiting }
  | .waiting => if s.notified then some { s with phase := .entering } else none
  | .ended => none

/-- One event, where it is enabled. -/
def step (s : System α) : Event α → Option (System α)
  | .draw data =>
    some { s with nextId := saturatingSucc s.nextId, emitting := s.emitting ++ [(s.nextId, data)] }
  | .push index =>
    match s.emitting[index]? with
    | none => none
    | some event => some { s with
        emitting := s.emitting.eraseIdx index, events := pushBack s.events event, wakeups := s.wakeups + 1 }
  | .finish => if s.terminal then none else some { s with terminal := true, wakeups := s.wakeups + 1 }
  | .notifyWaiters => if 0 < s.wakeups then some { s with wakeups := s.wakeups - 1, notified := true } else none
  | .subscriber => subscriberStep s

/-- The events are emitted in order, and the end comes after them, not between the two looks of
a subscriber that has an event waiting. -/
def InOrder (s : System α) : Event α → Prop
  | .draw _ => s.terminal = false ∧ s.nextId ≤ EVENT_CAPACITY
  | .push index => index = 0
  | .finish => s.emitting = [] ∧ ¬ (s.phase = .checkingTerminal ∧ ∃ event ∈ s.events, s.cursor < event.1)
  | .notifyWaiters | .subscriber => True

/-- The subscriber alone, for a number of steps. -/
def subscriberRun : ℕ → System α → System α
  | 0, s => s
  | n + 1, s => ((subscriberStep s).map (subscriberRun n)).getD s

/-- What the log promises its subscriber. -/
structure Delivers (s : System α) : Prop where
  /-- Every event emitted is in the queue, in the order of the identifiers, or under way. -/
  emitted : (s.events ++ s.emitting).map Prod.fst = List.range' 1 (s.nextId - 1)
  /-- What was received is a first part of what was pushed: nothing twice, nothing left out. -/
  received : ∃ rest, s.events = s.received ++ rest
  /-- The identifiers increase. -/
  increasing : (s.received.map Prod.fst).Pairwise (· < ·)
  /-- The subscriber is told of the end when it has everything. -/
  complete : s.phase = .ended → s.terminal = true ∧ s.emitting = [] ∧ s.received = s.events
  /-- It does not wait while there is something for it. -/
  wakeful : s.phase = .waiting → s.notified = false → s.wakeups = 0 →
    s.terminal = false ∧ s.received = s.events
  /-- After the end and the last wake-up, it receives what is left and ends. -/
  ends : s.terminal = true → s.wakeups = 0 →
    ∃ n, (subscriberRun n s).phase = .ended ∧ (subscriberRun n s).received = s.events

/-! ### The invariant -/

/-- What holds along the runs that are in order: the identifiers drawn are `1, 2, …`, in the
order of the queue and of the emits under way; the cursor counts what was received. -/
structure Ordered (s : System α) : Prop where
  positive : 0 < s.nextId
  bound : s.nextId ≤ EVENT_CAPACITY + 1
  ids : (s.events ++ s.emitting).map Prod.fst = List.range' 1 (s.nextId - 1)
  received : s.received = s.events.take s.cursor
  cursor : s.cursor ≤ s.events.length
  final : s.terminal = true → s.emitting = []
  /-- A subscriber that will find the flag set has received everything. -/
  looked : s.phase = .checkingTerminal → s.terminal = true → s.cursor = s.events.length
  ended : s.phase = .ended → s.terminal = true ∧ s.cursor = s.events.length
  /-- Whatever came after the look into the queue has woken the subscriber, or is about to. -/
  unwoken : s.phase = .checkingTerminal ∨ s.phase = .waiting → s.notified = false → s.wakeups = 0 →
    s.cursor = s.events.length
  unfinished : s.phase = .waiting → s.notified = false → s.wakeups = 0 → s.terminal = false

variable {s s' : System α}

namespace Ordered

theorem length_add (h : Ordered s) : s.events.length + s.emitting.length = s.nextId - 1 := by
  have := congrArg List.length h.ids
  simpa using this

/-- The event at a place has the next number for its identifier. -/
theorem id_of_getElem? (h : Ordered s) {i : ℕ} {event : ℕ × α} (hi : s.events[i]? = some event) :
    event.1 = i + 1 := by
  obtain ⟨hlt, rfl⟩ := List.getElem?_eq_some_iff.mp hi
  have hids := congrArg (fun l => l[i]?) h.ids
  have hlen := h.length_add
  simp only [List.map_append, List.getElem?_append_left (show i < (s.events.map Prod.fst).length by simpa),
    List.getElem?_map, List.getElem?_eq_getElem hlt, Option.map_some] at hids
  rw [List.getElem?_range' (by omega)] at hids
  simp only [Option.some.injEq] at hids
  omega

/-- The look into the queue finds the event that follows. -/
theorem find?_eq (h : Ordered s) : (s.events.find? fun event => s.cursor < event.1) = s.events[s.cursor]? := by
  cases hc : s.events[s.cursor]? with
  | some event =>
    obtain ⟨hlt, rfl⟩ := List.getElem?_eq_some_iff.mp hc
    refine List.find?_eq_some_iff_getElem.mpr ⟨?_, s.cursor, hlt, rfl, fun j hj => ?_⟩
    · have := h.id_of_getElem? hc
      simp only [decide_eq_true_eq]
      omega
    · have := h.id_of_getElem? (List.getElem?_eq_getElem (show j < s.events.length by omega))
      simp only [Bool.not_eq_true', decide_eq_false_iff_not]
      omega
  | none =>
    rw [List.getElem?_eq_none_iff] at hc
    refine List.find?_eq_none.mpr fun event hevent => ?_
    obtain ⟨i, hi, rfl⟩ := List.getElem_of_mem hevent
    have := h.id_of_getElem? (List.getElem?_eq_getElem hi)
    have hcursor := h.cursor
    simp only [decide_eq_true_eq]
    omega

/-- Where something is left, its identifier is past the cursor. -/
theorem exists_later (h : Ordered s) (hlt : s.cursor < s.events.length) : ∃ event ∈ s.events, s.cursor < event.1 := by
  have hid := h.id_of_getElem? (List.getElem?_eq_getElem hlt)
  exact ⟨s.events[s.cursor], List.getElem_mem hlt, by omega⟩

/-! ### One step -/

theorem draw (h : Ordered s) (data : α) (hlive : s.terminal = false) (hroom : s.nextId ≤ EVENT_CAPACITY) :
    Ordered { s with nextId := saturatingSucc s.nextId, emitting := s.emitting ++ [(s.nextId, data)] } := by
  have hcap : EVENT_CAPACITY = 2048 := rfl
  have hsucc : saturatingSucc s.nextId = s.nextId + 1 := by
    unfold saturatingSucc
    omega
  have hpos := h.positive
  refine { h with positive := ?_, bound := ?_, ids := ?_, final := ?_ }
  · simp only [hsucc]
    omega
  · simp only [hsucc]
    omega
  · simp only [hsucc, ← List.append_assoc, List.map_append, List.map_cons, List.map_nil]
    rw [← List.map_append, h.ids, show s.nextId + 1 - 1 = (s.nextId - 1) + 1 by omega, List.range'_1_concat]
    congr 2
    omega
  · intro hterminal
    rw [hlive] at hterminal
    cases hterminal

/-- The emit with the smallest identifier pushes: the log is not full, and the flag not set. -/
theorem push (h : Ordered s) {event : ℕ × α} (hevent : s.emitting[0]? = some event) :
    Ordered { s with
      emitting := s.emitting.eraseIdx 0, events := pushBack s.events event, wakeups := s.wakeups + 1 } := by
  obtain ⟨rest, hrest⟩ : ∃ rest, s.emitting = event :: rest := by
    cases he : s.emitting with
    | nil => simp [he] at hevent
    | cons e rest =>
      rw [he, List.getElem?_cons_zero, Option.some.injEq] at hevent
      exact ⟨rest, by rw [hevent]⟩
  have hlive : s.terminal = false := by
    by_contra hterminal
    have := h.final (by simpa using hterminal)
    rw [hrest] at this
    cases this
  have hpush : pushBack s.events event = s.events ++ [event] := by
    have hlen := h.length_add
    have hbound := h.bound
    rw [hrest, List.length_cons] at hlen
    rw [pushBack, if_neg (by omega)]
  have hcursor := h.cursor
  refine {
    positive := h.positive
    bound := h.bound
    ids := ?_
    received := ?_
    cursor := ?_
    final := ?_
    looked := ?_
    ended := ?_
    unwoken := ?_
    unfinished := ?_ }
  · have := h.ids
    rw [hrest] at this
    simpa [hpush, hrest] using this
  · simp only [hpush, List.take_append_of_le_length hcursor, h.received]
  · simp only [hpush, List.length_append, List.length_singleton]
    omega
  · simp [hlive]
  · simp [hlive]
  · intro hended
    have := (h.ended hended).1
    rw [hlive] at this
    cases this
  · intro _ _ hwakeups
    simp at hwakeups
  · intro _ _ hwakeups
    simp at hwakeups

theorem finish (h : Ordered s) (hidle : s.emitting = [])
    (hlooking : ¬ (s.phase = .checkingTerminal ∧ ∃ event ∈ s.events, s.cursor < event.1)) :
    Ordered { s with terminal := true, wakeups := s.wakeups + 1 } := by
  refine { h with final := fun _ => hidle, looked := ?_, ended := ?_, unwoken := ?_, unfinished := ?_ }
  · intro hphase _
    by_contra hne
    exact hlooking ⟨hphase, h.exists_later (lt_of_le_of_ne h.cursor hne)⟩
  · intro hended
    exact ⟨rfl, (h.ended hended).2⟩
  · intro _ _ hwakeups
    simp at hwakeups
  · intro _ _ hwakeups
    simp at hwakeups

theorem notifyWaiters (h : Ordered s) : Ordered { s with wakeups := s.wakeups - 1, notified := true } := by
  refine { h with unwoken := ?_, unfinished := ?_ }
  · intro _ hnotified
    cases hnotified
  · intro _ hnotified
    cases hnotified

theorem subscriber (h : Ordered s) (hstep : subscriberStep s = some s') : Ordered s' := by
  unfold subscriberStep at hstep
  split at hstep
  · obtain rfl := Option.some.inj hstep
    exact { h with
      looked := fun hp => by cases hp
      ended := fun hp => by cases hp
      unwoken := fun hp => by rcases hp with hp | hp <;> cases hp
      unfinished := fun hp => by cases hp }
  · rw [h.find?_eq] at hstep
    have hcursor := h.cursor
    split at hstep
    · rename_i event hfound
      obtain rfl := Option.some.inj hstep
      obtain ⟨hlt, rfl⟩ := List.getElem?_eq_some_iff.mp hfound
      have hid := h.id_of_getElem? hfound
      refine { h with
        received := ?_
        cursor := ?_
        looked := fun hp => by cases hp
        ended := fun hp => by cases hp
        unwoken := fun hp => by rcases hp with hp | hp <;> cases hp
        unfinished := fun hp => by cases hp }
      · simp only [hid, h.received, List.take_succ_eq_append_getElem hlt]
      · simp only [hid]
        omega
    · rename_i hnone
      obtain rfl := Option.some.inj hstep
      rw [List.getElem?_eq_none_iff] at hnone
      exact { h with
        looked := fun _ _ => by simp only; omega
        ended := fun hp => by cases hp
        unwoken := fun _ _ _ => by simp only; omega
        unfinished := fun hp => by cases hp }
  · rename_i hphase
    obtain rfl := Option.some.inj hstep
    refine { h with looked := ?_, ended := ?_, unwoken := fun _ => h.unwoken (Or.inl hphase), unfinished := ?_ }
    · intro hp
      dsimp only at hp
      split at hp <;> cases hp
    · intro hp
      dsimp only at hp
      split at hp
      · rename_i hterminal
        exact ⟨hterminal, h.looked hphase hterminal⟩
      · cases hp
    · intro hp
      dsimp only at hp
      split at hp
      · cases hp
      · rename_i hterminal
        exact fun _ _ => by simpa using hterminal
  · split at hstep
    · obtain rfl := Option.some.inj hstep
      exact { h with
        looked := fun hp => by cases hp
        ended := fun hp => by cases hp
        unwoken := fun hp => by rcases hp with hp | hp <;> cases hp
        unfinished := fun hp => by cases hp }
    · cases hstep
  · cases hstep

/-- **Every event that is in order keeps the invariant.** -/
theorem step {e : Event α} (h : Ordered s) (hok : InOrder s e) (hstep : step s e = some s') : Ordered s' := by
  cases e with
  | draw data =>
    obtain rfl := Option.some.inj hstep
    exact h.draw data hok.1 hok.2
  | push index =>
    obtain rfl : index = 0 := hok
    simp only [EventLog.step] at hstep
    split at hstep
    · cases hstep
    · rename_i event hevent
      obtain rfl := Option.some.inj hstep
      exact h.push hevent
  | finish =>
    simp only [EventLog.step] at hstep
    split at hstep
    · cases hstep
    · obtain rfl := Option.some.inj hstep
      exact h.finish hok.1 hok.2
  | notifyWaiters =>
    simp only [EventLog.step] at hstep
    split at hstep
    · obtain rfl := Option.some.inj hstep
      exact h.notifyWaiters
    · cases hstep
  | subscriber => exact h.subscriber hstep

theorem initial : Ordered (System.initial : System α) where
  positive := Nat.one_pos
  bound := Nat.le_add_left ..
  ids := rfl
  received := rfl
  cursor := le_rfl
  final := fun _ => rfl
  looked := fun hp => by cases hp
  ended := fun hp => by cases hp
  unwoken := fun hp => by rcases hp with hp | hp <;> cases hp
  unfinished := fun hp => by cases hp

/-! ### The subscriber comes to the end -/

/-- How far a phase is from the look at the flag. -/
def distance : Phase → ℕ
  | .waiting => 4
  | .entering => 3
  | .checkingQueue => 2
  | .checkingTerminal => 1
  | .ended => 0

/-- How far the subscriber is from the end: what is left to receive, then the phase. -/
def remaining (s : System α) : ℕ := 5 * (s.events.length - s.cursor) + distance s.phase

/-- After the end a step of the subscriber is always there, and brings it nearer. -/
theorem progress (h : Ordered s) (hterminal : s.terminal = true) (hwakeups : s.wakeups = 0)
    (hphase : s.phase ≠ .ended) :
    ∃ s', subscriberStep s = some s' ∧ remaining s' < remaining s ∧
      s'.terminal = true ∧ s'.wakeups = 0 ∧ s'.events = s.events := by
  unfold subscriberStep
  split
  · rename_i hp
    exact ⟨_, rfl, by simp [remaining, distance, hp], hterminal, hwakeups, rfl⟩
  · rename_i hp
    rw [h.find?_eq]
    split
    · rename_i event hfound
      have hid := h.id_of_getElem? hfound
      obtain ⟨hlt, -⟩ := List.getElem?_eq_some_iff.mp hfound
      refine ⟨_, rfl, ?_, hterminal, hwakeups, rfl⟩
      simp only [remaining, distance, hp, hid]
      omega
    · exact ⟨_, rfl, by simp [remaining, distance, hp], hterminal, hwakeups, rfl⟩
  · rename_i hp
    exact ⟨_, rfl, by simp [remaining, distance, hp, hterminal], hterminal, hwakeups, rfl⟩
  · rename_i hp
    split
    · exact ⟨_, rfl, by simp [remaining, distance, hp], hterminal, hwakeups, rfl⟩
    · rename_i hnotified
      have := h.unfinished hp (by simpa using hnotified) hwakeups
      rw [hterminal] at this
      cases this
  · rename_i hp
    exact absurd hp hphase

theorem received_of_cursor (h : Ordered s) (hcursor : s.cursor = s.events.length) : s.received = s.events := by
  rw [h.received, hcursor, List.take_length]

theorem subscriberRun_ends {s : System α} (h : Ordered s) (hterminal : s.terminal = true) (hwakeups : s.wakeups = 0) :
    ∃ n, (subscriberRun n s).phase = .ended ∧ (subscriberRun n s).received = s.events := by
  by_cases hphase : s.phase = .ended
  · exact ⟨0, hphase, h.received_of_cursor (h.ended hphase).2⟩
  · obtain ⟨s', hstep, hlt, hterminal', hwakeups', hevents⟩ := h.progress hterminal hwakeups hphase
    obtain ⟨n, hended, hreceived⟩ := subscriberRun_ends (h.subscriber hstep) hterminal' hwakeups'
    refine ⟨n + 1, ?_, ?_⟩
    · simpa only [subscriberRun, hstep, Option.map_some, Option.getD_some] using hended
    · simpa only [subscriberRun, hstep, Option.map_some, Option.getD_some, ← hevents] using hreceived
termination_by remaining s

/-- The invariant gives the promise. -/
theorem delivers (h : Ordered s) : Delivers s where
  emitted := h.ids
  received := ⟨s.events.drop s.cursor, by rw [h.received, List.take_append_drop]⟩
  increasing := by
    have hsub : (s.received.map Prod.fst).Sublist (List.range' 1 (s.nextId - 1)) := by
      rw [← h.ids, h.received]
      exact ((List.take_sublist ..).trans (List.sublist_append_left ..)).map _
    exact List.Pairwise.sublist hsub (List.pairwise_lt_range' ..)
  complete := by
    intro hphase
    obtain ⟨hterminal, hcursor⟩ := h.ended hphase
    exact ⟨hterminal, h.final hterminal, h.received_of_cursor hcursor⟩
  wakeful := by
    intro hphase hnotified hwakeups
    exact ⟨h.unfinished hphase hnotified hwakeups,
      h.received_of_cursor (h.unwoken (Or.inr hphase) hnotified hwakeups)⟩
  ends := h.subscriberRun_ends

end Ordered

/-- **Event delivery**: whatever a run that is in order comes to, the log keeps what it promises. -/
theorem delivery (s : System α) (h : Reaches step InOrder (System.initial : System α) s) : Delivers s :=
  (h.invariant (P := Ordered) (fun _ _ _ hok hstep hs => hs.step hok hstep) .initial).delivers

instance (s : System α) (e : Event α) : Decidable (InOrder s e) := by
  cases e <;> unfold InOrder <;> infer_instance

/-- Two emits at once, one of them while the subscriber is between its two looks; a third one when
it has been woken; then the end. -/
theorem delivery_overlapping :
    ∃ s : System String, Reaches step InOrder .initial s ∧ s.phase = .ended ∧
      s.received = [(1, "pull"), (2, "start"), (3, "done")] ∧ Delivers s := by
  obtain ⟨s, hs, hend⟩ := exists_reaches_of_execWhere step (fun s e => decide (InOrder s e))
    (fun _ _ => of_decide_eq_true) (.initial : System String)
    (fun s => decide (s.phase = .ended ∧ s.received = [(1, "pull"), (2, "start"), (3, "done")])) [
      .draw "pull", .draw "start", .subscriber, .push 0, .notifyWaiters, .subscriber, .subscriber, .subscriber, .push 0,
      .subscriber, .notifyWaiters, .subscriber, .draw "done", .subscriber, .subscriber, .push 0, .subscriber, .finish,
      .notifyWaiters, .subscriber, .subscriber, .subscriber, .subscriber, .notifyWaiters] (by decide)
  obtain ⟨hphase, hreceived⟩ := of_decide_eq_true hend
  exact ⟨s, hs, hphase, hreceived, delivery s hs⟩

/-! ### Where events are lost -/

/-- The subscriber was told of the end, and an event in the queue did not reach it. -/
def lostEvent (event : ℕ × String) (s : System String) : Bool :=
  decide (s.phase = .ended) && decide (event ∈ s.events) && decide (event ∉ s.received)

theorem not_delivers_of_lostEvent {s : System String} {event : ℕ × String} (h : lostEvent event s = true) :
    ¬ Delivers s := by
  simp only [lostEvent, Bool.and_eq_true, decide_eq_true_eq] at h
  intro hd
  rw [(hd.complete h.1.1).2.2] at h
  exact h.2 h.1.2

/-- **Events are lost**: the smaller identifier is pushed after the larger one was received; the
last event and the end come between the two looks of the subscriber. -/
theorem events_lost :
    (∃ s : System String, Reaches step (fun _ _ => True) .initial s ∧ lostEvent (1, "first") s = true ∧
      ¬ Delivers s) ∧
    ∃ s : System String, Reaches step (fun _ _ => True) .initial s ∧ lostEvent (1, "last") s = true ∧
      ¬ Delivers s := by
  constructor
  · obtain ⟨s, hs, hlost⟩ := exists_reaches_of_exec step (.initial : System String) (lostEvent (1, "first")) [
      .draw "first", .draw "second", .push 1, .notifyWaiters, .subscriber, .subscriber, .push 0, .notifyWaiters,
      .finish, .notifyWaiters, .subscriber, .subscriber, .subscriber] (by decide)
    exact ⟨s, hs, hlost, not_delivers_of_lostEvent hlost⟩
  · obtain ⟨s, hs, hlost⟩ := exists_reaches_of_exec step (.initial : System String) (lostEvent (1, "last")) [
      .subscriber, .subscriber, .draw "last", .push 0, .notifyWaiters, .finish, .notifyWaiters, .subscriber]
      (by decide)
    exact ⟨s, hs, hlost, not_delivers_of_lostEvent hlost⟩

end Apmpr.Daemon.EventLog
