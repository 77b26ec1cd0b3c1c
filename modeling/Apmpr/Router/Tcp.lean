import Apmpr.Lib.MachineInt
import Apmpr.Lib.Run
import Mathlib.Data.List.Basic

/-!
# A TCP listener

`TcpProxy` of the crate `router-tcp`: the listener accepts connections and hands each to a
task of its own with the target of the moment; `reload` replaces the target, takes the list
of waiting connections and tells each of them its transition policy. The target and the
list are under one lock, so an event of the model is one of: the accept section under the
lock, the reload section under the lock, one upgrade or one send of a `reload` after it, or
one step of a connection's task. Any number of reloads may be in their loops at once.

A connection is known by its place in the order of acceptance, a call of `reload` by its
place in the order of the sections under the lock. The channel of a connection is the list
of the values sent on it, each with the call that sent it; `watch` shows the last.

## Honest scope

The counters and the shutdown of the listener are left out; a task that the shutdown aborts
is an event `abort`. Whether a connect or a transfer ends, and when a drain runs out, is
for the events to say.
-/

namespace Apmpr.Router.Tcp

/-- `TcpTarget`. -/
structure TcpTarget where
  host : String
  port : U16
  deriving DecidableEq

/-- `TransitionPolicy`; a duration in nanoseconds. -/
inductive TransitionPolicy where
  | close
  | drain (duration : ℕ)
  | pin
  deriving DecidableEq

/-- Where the task of a connection is. -/
inductive Phase where
  /-- In `TcpStream::connect`. -/
  | connecting
  /-- Forwarding, and looking at the channel. -/
  | forwarding
  /-- Forwarding until the duration is over; the channel is not looked at again. -/
  | draining (duration : ℕ)
  /-- Forwarding; the channel is not looked at again. -/
  | pinned
  /-- Returned: the task's sender is dropped. -/
  | ended
  deriving DecidableEq

/-- An accepted connection: the target and the channel of its `proxy_connection`. -/
structure Connection where
  target : TcpTarget
  phase : Phase
  sent : List (ℕ × TransitionPolicy)
  policy : Option TransitionPolicy
  deriving DecidableEq

/-- Whether the task still runs, and so still holds its sender. -/
def Connection.alive (c : Connection) : Bool := c.phase ≠ .ended

/-- A call of `reload` after its section under the lock: the handles it has still to try,
and the one it has upgraded. -/
structure Call where
  policy : TransitionPolicy
  remaining : List ℕ
  held : Option ℕ
  deriving DecidableEq

/-- Whether a call is through its loop. -/
def Call.finished (call : Call) : Bool := call.remaining.isEmpty && call.held.isNone

/-- The listener: `RouteState` (the target and the waiting list), every connection it has
accepted and every call of `reload`, each in its order. -/
structure State where
  target : TcpTarget
  waiting : List ℕ
  connections : List Connection
  calls : List Call
  deriving DecidableEq

/-- A listener that has just been bound. -/
def init (target : TcpTarget) : State := ⟨target, [], [], []⟩

/-- What may happen. -/
inductive Event where
  | accept
  | reload (target : TcpTarget) (policy : TransitionPolicy)
  | upgrade (call : ℕ)
  | send (call : ℕ)
  | connected (connection : ℕ)
  | refused (connection : ℕ)
  | changed (connection : ℕ)
  | forwarded (connection : ℕ)
  | expired (connection : ℕ)
  | abort (connection : ℕ)
  deriving DecidableEq

/-- Whether the task of a connection runs. -/
def State.alive (s : State) (c : ℕ) : Bool := s.connections[c]?.any Connection.alive

/-- `strong_count` of a connection's sender: its task, and the calls that have upgraded it. -/
def State.strongCount (s : State) (c : ℕ) : ℕ :=
  (if s.alive c then 1 else 0) + s.calls.countP fun call => call.held = some c

/-- A connection's task moves on. -/
def State.advance (s : State) (c : ℕ) (f : Connection → Option Connection) : Option State := do
  let connection ← s.connections[c]?
  let connection ← f connection
  return { s with connections := s.connections.set c connection }

/-- The section of `run_listener` under the lock, and the spawn of the connection's task. -/
def State.accept (s : State) : State :=
  { s with
    waiting := (s.waiting.filter fun c => s.strongCount c ≠ 0) ++ [s.connections.length]
    connections := s.connections ++ [⟨s.target, .connecting, [], none⟩] }

/-- The section of `reload` under the lock. -/
def State.reload (s : State) (target : TcpTarget) (policy : TransitionPolicy) : State :=
  { s with
    target := target
    waiting := []
    calls := s.calls ++ [⟨policy, s.waiting, none⟩] }

/-- The next handle of a call is tried: a sender that is dropped is passed over. -/
def State.upgrade (s : State) (index : ℕ) : Option State :=
  match s.calls[index]? with
  | some ⟨policy, c :: rest, none⟩ =>
    some { s with calls := s.calls.set index ⟨policy, rest, if s.strongCount c = 0 then none else some c⟩ }
  | _ => none

/-- `send_replace` on the sender a call has upgraded, which is then dropped. -/
def State.send (s : State) (index : ℕ) : Option State :=
  match s.calls[index]? with
  | some ⟨policy, rest, some c⟩ =>
    some { s with
      connections := s.connections.modify c fun connection =>
        { connection with sent := connection.sent ++ [(index, policy)] }
      calls := s.calls.set index ⟨policy, rest, none⟩ }
  | _ => none

/-- The connect of `proxy_connection` succeeds. -/
def Connection.connected (c : Connection) : Option Connection :=
  if c.phase = .connecting then some { c with phase := .forwarding } else none

/-- The connect of `proxy_connection` fails or times out. -/
def Connection.refused (c : Connection) : Option Connection :=
  if c.phase = .connecting then some { c with phase := .ended } else none

/-- What a task does with its policy. -/
def TransitionPolicy.phase : TransitionPolicy → Phase
  | .close => .ended
  | .drain duration => .draining duration
  | .pin => .pinned

/-- `transition.changed()` while forwarding: the channel has a value not seen. The task
holds a sender itself, so the channel is not closed. -/
def Connection.changed (c : Connection) : Option Connection :=
  if c.phase = .forwarding then
    c.sent.getLast?.map fun sent => { c with phase := sent.2.phase, policy := some sent.2 }
  else none

/-- The forwarding ends. -/
def Connection.forwarded (c : Connection) : Option Connection :=
  match c.phase with
  | .forwarding | .draining _ | .pinned => some { c with phase := .ended }
  | _ => none

/-- The duration of a drain is over. -/
def Connection.expired (c : Connection) : Option Connection :=
  match c.phase with
  | .draining _ => some { c with phase := .ended }
  | _ => none

/-- The task is aborted. -/
def Connection.abort (c : Connection) : Option Connection :=
  if c.alive then some { c with phase := .ended } else none

/-- What an event does, where it can happen. -/
def step (s : State) : Event → Option State
  | .accept => some s.accept
  | .reload target policy => some (s.reload target policy)
  | .upgrade call => s.upgrade call
  | .send call => s.send call
  | .connected c => s.advance c Connection.connected
  | .refused c => s.advance c Connection.refused
  | .changed c => s.advance c Connection.changed
  | .forwarded c => s.advance c Connection.forwarded
  | .expired c => s.advance c Connection.expired
  | .abort c => s.advance c Connection.abort

/-! ### What a step can do -/

/-- What the task of a connection may do by itself: it keeps its target and its channel, it
does not come back, and a policy it takes is one that was sent. -/
structure Connection.Moves (c c' : Connection) : Prop where
  target : c'.target = c.target
  sent : c'.sent = c.sent
  alive : c'.alive = true → c.alive = true
  policy : c'.policy = c.policy ∨ ∃ e ∈ c.sent, c'.policy = some e.2

theorem Connection.moves_phase {c : Connection} {phase : Phase} (h : c.alive = true) :
    c.Moves { c with phase := phase } :=
  ⟨rfl, rfl, fun _ => h, .inl rfl⟩

theorem Connection.moves_of_connected {c c' : Connection} (h : c.connected = some c') : c.Moves c' := by
  unfold connected at h
  split at h
  · rename_i hphase
    obtain rfl := Option.some.inj h
    exact moves_phase (by simp [alive, hphase])
  · cases h

theorem Connection.moves_of_refused {c c' : Connection} (h : c.refused = some c') : c.Moves c' := by
  unfold refused at h
  split at h
  · rename_i hphase
    obtain rfl := Option.some.inj h
    exact moves_phase (by simp [alive, hphase])
  · cases h

theorem Connection.moves_of_changed {c c' : Connection} (h : c.changed = some c') : c.Moves c' := by
  unfold changed at h
  split at h
  · rename_i hphase
    obtain ⟨e, he, rfl⟩ := Option.map_eq_some_iff.mp h
    exact ⟨rfl, rfl, fun _ => by simp [alive, hphase], .inr ⟨e, List.mem_of_getLast? he, rfl⟩⟩
  · cases h

theorem Connection.moves_of_forwarded {c c' : Connection} (h : c.forwarded = some c') : c.Moves c' := by
  unfold forwarded at h
  split at h
  case h_4 => cases h
  all_goals
    rename_i hphase
    obtain rfl := Option.some.inj h
    exact moves_phase (by simp [alive, hphase])

theorem Connection.moves_of_expired {c c' : Connection} (h : c.expired = some c') : c.Moves c' := by
  unfold expired at h
  split at h
  · rename_i hphase
    obtain rfl := Option.some.inj h
    exact moves_phase (by simp [alive, hphase])
  · cases h

theorem Connection.moves_of_abort {c c' : Connection} (h : c.abort = some c') : c.Moves c' := by
  unfold abort at h
  split at h
  · rename_i halive
    obtain rfl := Option.some.inj h
    exact moves_phase halive
  · cases h

/-- What an event did: it accepted, it reloaded, or it is a step of a call or of a task. -/
inductive Effect (s : State) : Event → State → Prop where
  | accept : Effect s .accept s.accept
  | reload (target : TcpTarget) (policy : TransitionPolicy) :
      Effect s (.reload target policy) (s.reload target policy)
  | upgrade {index : ℕ} {policy : TransitionPolicy} {c : ℕ} {rest : List ℕ}
      (call : s.calls[index]? = some ⟨policy, c :: rest, none⟩) :
      Effect s (.upgrade index) { s with
        calls := s.calls.set index ⟨policy, rest, if s.strongCount c = 0 then none else some c⟩ }
  | send {index : ℕ} {policy : TransitionPolicy} {c : ℕ} {rest : List ℕ}
      (call : s.calls[index]? = some ⟨policy, rest, some c⟩) :
      Effect s (.send index) { s with
        connections := s.connections.modify c fun connection =>
          { connection with sent := connection.sent ++ [(index, policy)] }
        calls := s.calls.set index ⟨policy, rest, none⟩ }
  | task {e : Event} {c : ℕ} {connection connection' : Connection} (haccept : e ≠ .accept)
      (hreload : ∀ target policy, e ≠ .reload target policy) (known : s.connections[c]? = some connection)
      (moves : connection.Moves connection') :
      Effect s e { s with connections := s.connections.set c connection' }

theorem Effect.of_advance {s s' : State} {e : Event} {c : ℕ} {f : Connection → Option Connection}
    (haccept : e ≠ .accept) (hreload : ∀ target policy, e ≠ .reload target policy)
    (hf : ∀ {a b}, f a = some b → a.Moves b) (h : s.advance c f = some s') : Effect s e s' := by
  unfold State.advance at h
  obtain ⟨connection, hknown, h⟩ := Option.bind_eq_some_iff.mp h
  obtain ⟨connection', hmove, h⟩ := Option.bind_eq_some_iff.mp h
  obtain rfl := Option.some.inj h
  exact .task haccept hreload hknown (hf hmove)

theorem effect_of_step {s s' : State} {e : Event} (h : step s e = some s') : Effect s e s' := by
  cases e with
  | accept =>
    obtain rfl := Option.some.inj h
    exact .accept
  | reload target policy =>
    obtain rfl := Option.some.inj h
    exact .reload target policy
  | upgrade index =>
    simp only [step, State.upgrade] at h
    split at h
    · rename_i hcall
      obtain rfl := Option.some.inj h
      exact .upgrade hcall
    · cases h
  | send index =>
    simp only [step, State.send] at h
    split at h
    · rename_i hcall
      obtain rfl := Option.some.inj h
      exact .send hcall
    · cases h
  | connected c => exact .of_advance nofun nofun Connection.moves_of_connected h
  | refused c => exact .of_advance nofun nofun Connection.moves_of_refused h
  | changed c => exact .of_advance nofun nofun Connection.moves_of_changed h
  | forwarded c => exact .of_advance nofun nofun Connection.moves_of_forwarded h
  | expired c => exact .of_advance nofun nofun Connection.moves_of_expired h
  | abort c => exact .of_advance nofun nofun Connection.moves_of_abort h

/-! ### Handles -/

/-- How many handles of a connection a call has still to deal with. -/
def Call.tickets (call : Call) (c : ℕ) : ℕ := call.remaining.count c + if call.held = some c then 1 else 0

theorem tickets_new (policy : TransitionPolicy) (waiting : List ℕ) (c : ℕ) :
    (Call.mk policy waiting none).tickets c = waiting.count c := by
  simp [Call.tickets]

/-- An upgrade moves the handle it tries, or drops it. -/
theorem tickets_upgraded (policy : TransitionPolicy) (d : ℕ) (rest : List ℕ) (n c : ℕ) :
    (Call.mk policy rest (if n = 0 then none else some d)).tickets c =
      (Call.mk policy (d :: rest) none).tickets c - if n = 0 ∧ d = c then 1 else 0 := by
  simp only [Call.tickets, List.count_cons, beq_iff_eq]
  by_cases hn : n = 0
  · by_cases hd : d = c <;> simp [hn, hd]
  · by_cases hd : d = c <;> simp [hn, hd]

/-- A send gives the handle it holds away. -/
theorem tickets_sent (policy : TransitionPolicy) (d : ℕ) (rest : List ℕ) (c : ℕ) :
    (Call.mk policy rest none).tickets c =
      (Call.mk policy rest (some d)).tickets c - if d = c then 1 else 0 := by
  by_cases hd : d = c <;> simp [Call.tickets, hd]

theorem tickets_held {policy : TransitionPolicy} {rest : List ℕ} {c d : ℕ}
    (h : (Call.mk policy rest (some d)).tickets c = 0) : d ≠ c := by
  rintro rfl
  simp [Call.tickets] at h

theorem tickets_of_finished {call : Call} (h : call.finished = true) (c : ℕ) : call.tickets c = 0 := by
  obtain ⟨policy, remaining, held⟩ := call
  simp only [Call.finished, Bool.and_eq_true, List.isEmpty_iff, Option.isNone_iff_eq_none] at h
  obtain ⟨rfl, rfl⟩ := h
  rfl

/-- A sender that its task holds is not dropped. -/
theorem strongCount_ne_zero {s : State} {c : ℕ} {connection : Connection} (h : s.connections[c]? = some connection)
    (halive : connection.alive = true) : s.strongCount c ≠ 0 := by
  have : s.alive c = true := by rw [State.alive, h, Option.any_some, halive]
  rw [State.strongCount, this]
  simp

/-- Every handle is one of a connection that was accepted. -/
structure Known (s : State) : Prop where
  waiting : ∀ c ∈ s.waiting, c < s.connections.length
  calls : ∀ call ∈ s.calls, ∀ c, s.connections.length ≤ c → call.tickets c = 0

theorem known_init (target : TcpTarget) : Known (init target) := ⟨nofun, nofun⟩

theorem Known.step {s s' : State} {e : Event} (h : Known s) (he : Effect s e s') : Known s' := by
  cases he with
  | accept =>
    constructor
    · intro c hc
      simp only [State.accept, List.length_append, List.length_singleton] at hc ⊢
      rcases List.mem_append.mp hc with hc | hc
      · have := h.waiting c (List.mem_of_mem_filter hc)
        omega
      · have := List.mem_singleton.mp hc
        omega
    · intro call hcall c hc
      simp only [State.accept, List.length_append, List.length_singleton] at hc
      exact h.calls call hcall c (by omega)
  | reload target policy =>
    refine ⟨nofun, fun call hcall c hc => ?_⟩
    rcases List.mem_append.mp hcall with hcall | hcall
    · exact h.calls call hcall c hc
    · obtain rfl := List.mem_singleton.mp hcall
      rw [tickets_new]
      exact List.count_eq_zero.mpr fun hmem => absurd (h.waiting c hmem) (by simp only [State.reload] at hc; omega)
  | upgrade hcall =>
    refine ⟨h.waiting, fun call hmem c hc => ?_⟩
    rcases List.mem_or_eq_of_mem_set hmem with hmem | rfl
    · exact h.calls call hmem c hc
    · have := h.calls _ (List.mem_of_getElem? hcall) c hc
      rw [tickets_upgraded]
      omega
  | send hcall =>
    refine ⟨fun c hc => ?_, fun call hmem c hc => ?_⟩
    · rw [List.length_modify]
      exact h.waiting c hc
    · rw [List.length_modify] at hc
      rcases List.mem_or_eq_of_mem_set hmem with hmem | rfl
      · exact h.calls call hmem c hc
      · rw [tickets_sent, h.calls _ (List.mem_of_getElem? hcall) c hc, Nat.zero_sub]
  | task _ _ hknown _ =>
    refine ⟨fun c hc => ?_, fun call hmem c hc => ?_⟩
    · rw [List.length_set]
      exact h.waiting c hc
    · rw [List.length_set] at hc
      exact h.calls call hmem c hc

/-! ### A connection before the first reload -/

/-- The connection has not been told anything: it is in the waiting list, if it is alive,
and no call has a handle of it. -/
structure Waits (s : State) (c : ℕ) (target : TcpTarget) (connection : Connection) : Prop where
  known : s.connections[c]? = some connection
  target : connection.target = target
  sent : connection.sent = []
  policy : connection.policy = none
  alive : connection.alive = true → c ∈ s.waiting
  once : s.waiting.count c ≤ 1
  calls : ∀ call ∈ s.calls, call.tickets c = 0

theorem Waits.of_accept {s : State} (h : Known s) :
    Waits s.accept s.connections.length s.target ⟨s.target, .connecting, [], none⟩ where
  known := by simp [State.accept]
  target := rfl
  sent := rfl
  policy := rfl
  alive _ := by simp [State.accept]
  once := by
    have hnew : s.connections.length ∉ s.waiting.filter fun c => s.strongCount c ≠ 0 := fun hmem =>
      lt_irrefl _ (h.waiting _ (List.mem_of_mem_filter hmem))
    simp only [State.accept, List.count_append, List.count_eq_zero.mpr hnew, List.count_singleton_self]
    omega
  calls call hcall := h.calls call hcall _ le_rfl

variable {s s' : State} {c : ℕ} {target : TcpTarget} {connection : Connection}

theorem lt_length_of_known (h : s.connections[c]? = some connection) : c < s.connections.length :=
  (List.getElem?_eq_some_iff.mp h).1

/-- Until a reload, a connection waits. -/
theorem Waits.step {e : Event} (h : Waits s c target connection) (he : Effect s e s')
    (hreload : ∀ target policy, e ≠ .reload target policy) : ∃ connection', Waits s' c target connection' := by
  cases he with
  | accept =>
    refine ⟨connection, { h with known := ?_, alive := ?_, once := ?_ }⟩
    · rw [State.accept, List.getElem?_append_left (lt_length_of_known h.known), h.known]
    · intro halive
      have hkept : decide (s.strongCount c ≠ 0) = true := decide_eq_true (strongCount_ne_zero h.known halive)
      exact List.mem_append_left _ (List.mem_filter.mpr ⟨h.alive halive, hkept⟩)
    · have hne : s.connections.length ≠ c := (lt_length_of_known h.known).ne'
      have hfilter := (List.filter_sublist (p := fun d => decide (s.strongCount d ≠ 0)) (l := s.waiting)).count_le c
      have := h.once
      simp only [State.accept, List.count_append, List.count_singleton, beq_iff_eq, hne, if_false]
      omega
  | reload target policy => exact absurd rfl (hreload target policy)
  | upgrade hcall =>
    refine ⟨connection, { h with calls := fun call hmem => ?_ }⟩
    rcases List.mem_or_eq_of_mem_set hmem with hmem | rfl
    · exact h.calls call hmem
    · rw [tickets_upgraded, h.calls _ (List.mem_of_getElem? hcall), Nat.zero_sub]
  | send hcall =>
    have hzero := h.calls _ (List.mem_of_getElem? hcall)
    refine ⟨connection, { h with known := ?_, calls := fun call hmem => ?_ }⟩
    · exact (List.getElem?_modify_ne _ _ (tickets_held hzero)).trans h.known
    · rcases List.mem_or_eq_of_mem_set hmem with hmem | rfl
      · exact h.calls call hmem
      · rw [tickets_sent, hzero, Nat.zero_sub]
  | @task _ d moved moved' _ _ hknown hmoves =>
    by_cases hd : d = c
    · subst hd
      obtain rfl : connection = moved := Option.some.inj (h.known.symm.trans hknown)
      refine ⟨moved', { h with known := ?_, target := ?_, sent := ?_, policy := ?_, alive := ?_ }⟩
      · exact List.getElem?_set_self (lt_length_of_known hknown)
      · rw [hmoves.target, h.target]
      · rw [hmoves.sent, h.sent]
      · rcases hmoves.policy with hpolicy | ⟨sent, hmem, -⟩
        · rw [hpolicy, h.policy]
        · rw [h.sent] at hmem
          cases hmem
      · exact fun halive => h.alive (hmoves.alive halive)
    · exact ⟨connection, { h with known := by rw [List.getElem?_set_ne hd, h.known] }⟩

/-! ### A connection after the first reload -/

/-- The first reload after the connection's acceptance, the `k`-th one with policy `p`, has
taken the connection: no other call has a handle of it, and the call's own handle or the
value the call has sent is there, at most once, and unless the connection has ended. -/
structure Called (s : State) (c : ℕ) (target : TcpTarget) (k : ℕ) (p : TransitionPolicy)
    (connection : Connection) (call : Call) : Prop where
  known : s.connections[c]? = some connection
  target : connection.target = target
  found : s.calls[k]? = some call
  policy : call.policy = p
  waiting : c ∉ s.waiting
  others : ∀ j other, j ≠ k → s.calls[j]? = some other → other.tickets c = 0
  once : call.tickets c + connection.sent.length ≤ 1
  alive : connection.alive = true → 1 ≤ call.tickets c + connection.sent.length
  sent : ∀ e ∈ connection.sent, e = (k, p)
  taken : ∀ q, connection.policy = some q → (k, q) ∈ connection.sent

/-- The first reload takes the connection. -/
theorem Waits.reload (h : Waits s c target connection) (newTarget : TcpTarget) (p : TransitionPolicy) :
    Called (s.reload newTarget p) c target s.calls.length p connection ⟨p, s.waiting, none⟩ where
  known := h.known
  target := h.target
  found := by simp [State.reload]
  policy := rfl
  waiting := List.not_mem_nil
  others j other hj hother := by
    rw [State.reload, List.getElem?_append] at hother
    split at hother
    · exact h.calls other (List.mem_of_getElem? hother)
    · rename_i hlt
      obtain ⟨hzero, -⟩ := List.getElem?_eq_some_iff.mp hother
      simp only [List.length_singleton] at hzero
      omega
  once := by
    rw [tickets_new, h.sent]
    exact h.once
  alive halive := by
    rw [tickets_new, h.sent]
    exact List.count_pos_iff.mpr (h.alive halive)
  sent e he := by
    rw [h.sent] at he
    cases he
  taken q hq := by
    rw [h.policy] at hq
    cases hq

variable {k : ℕ} {p : TransitionPolicy} {call : Call}

theorem lt_length_of_call (h : s.calls[k]? = some call) : k < s.calls.length := (List.getElem?_eq_some_iff.mp h).1

theorem Called.upgrade {index : ℕ} {policy : TransitionPolicy} {d : ℕ} {rest : List ℕ}
    (h : Called s c target k p connection call) (hcall : s.calls[index]? = some ⟨policy, d :: rest, none⟩) :
    ∃ call', Called { s with
      calls := s.calls.set index ⟨policy, rest, if s.strongCount d = 0 then none else some d⟩ }
      c target k p connection call' := by
  by_cases hindex : index = k
  · subst hindex
    obtain rfl : call = ⟨policy, d :: rest, none⟩ := Option.some.inj (h.found.symm.trans hcall)
    refine ⟨_, { h with
      found := List.getElem?_set_self (lt_length_of_call h.found)
      policy := h.policy
      others := fun j other hj hother => ?_
      once := ?_
      alive := fun halive => ?_ }⟩
    · rw [List.getElem?_set_ne hj.symm] at hother
      exact h.others j other hj hother
    · have := h.once
      rw [tickets_upgraded]
      omega
    · -- the handle is dropped only where the task, which holds the sender, has ended
      have hdropped : ¬ (s.strongCount d = 0 ∧ d = c) := by
        rintro ⟨hzero, rfl⟩
        exact strongCount_ne_zero h.known halive hzero
      rw [tickets_upgraded, if_neg hdropped, Nat.sub_zero]
      exact h.alive halive
  · refine ⟨call, { h with found := ?_, others := fun j other hj hother => ?_ }⟩
    · rw [List.getElem?_set_ne hindex, h.found]
    · by_cases hj' : index = j
      · subst hj'
        rw [List.getElem?_set_self (lt_length_of_call hcall)] at hother
        obtain rfl := Option.some.inj hother
        rw [tickets_upgraded, h.others index _ hj hcall, Nat.zero_sub]
      · rw [List.getElem?_set_ne hj'] at hother
        exact h.others j other hj hother

theorem Called.send {index : ℕ} {policy : TransitionPolicy} {d : ℕ} {rest : List ℕ}
    (h : Called s c target k p connection call) (hcall : s.calls[index]? = some ⟨policy, rest, some d⟩) :
    ∃ connection' call', Called { s with
      connections := s.connections.modify d fun connection =>
        { connection with sent := connection.sent ++ [(index, policy)] }
      calls := s.calls.set index ⟨policy, rest, none⟩ } c target k p connection' call' := by
  by_cases hindex : index = k
  · subst hindex
    obtain rfl : call = ⟨policy, rest, some d⟩ := Option.some.inj (h.found.symm.trans hcall)
    obtain rfl : policy = p := h.policy
    have hothers : ∀ j other, j ≠ index → (s.calls.set index ⟨policy, rest, none⟩)[j]? = some other →
        other.tickets c = 0 := by
      intro j other hj hother
      rw [List.getElem?_set_ne hj.symm] at hother
      exact h.others j other hj hother
    have hcall' : (s.calls.set index ⟨policy, rest, none⟩)[index]? = some ⟨policy, rest, none⟩ :=
      List.getElem?_set_self (lt_length_of_call hcall)
    by_cases hd : d = c
    · subst hd
      have hone : (Call.mk policy rest (some d)).tickets d = rest.count d + 1 := by simp [Call.tickets]
      have honce := h.once
      rw [hone] at honce
      have hsent : connection.sent = [] := List.eq_nil_of_length_eq_zero (by omega)
      have hrest : (Call.mk policy rest none).tickets d = 0 := by
        rw [tickets_new]
        omega
      refine ⟨{ connection with sent := connection.sent ++ [(index, policy)] }, _, {
        known := ?_, target := h.target, found := hcall', policy := rfl, waiting := h.waiting, others := hothers
        once := ?_, alive := fun _ => ?_, sent := fun e he => ?_, taken := fun q hq => ?_ }⟩
      · rw [List.getElem?_modify_eq, h.known]
        rfl
      · simp [hsent, hrest]
      · simp [hsent, hrest]
      · simpa [hsent] using he
      · exact List.mem_append_left _ (h.taken q hq)
    · refine ⟨connection, _, { h with
        known := (List.getElem?_modify_ne _ _ hd).trans h.known, found := hcall', policy := rfl, others := hothers
        once := ?_, alive := fun halive => ?_ }⟩
      · rw [tickets_sent policy d, if_neg hd, Nat.sub_zero]
        exact h.once
      · rw [tickets_sent policy d, if_neg hd, Nat.sub_zero]
        exact h.alive halive
  · have hzero := h.others index _ hindex hcall
    refine ⟨connection, call, { h with
      known := (List.getElem?_modify_ne _ _ (tickets_held hzero)).trans h.known
      found := (List.getElem?_set_ne hindex).trans h.found
      others := fun j other hj hother => ?_ }⟩
    by_cases hj' : index = j
    · subst hj'
      rw [List.getElem?_set_self (lt_length_of_call hcall)] at hother
      obtain rfl := Option.some.inj hother
      rw [tickets_sent policy d, hzero, Nat.zero_sub]
    · rw [List.getElem?_set_ne hj'] at hother
      exact h.others j other hj hother

theorem Called.task {d : ℕ} {moved moved' : Connection} (h : Called s c target k p connection call)
    (hknown : s.connections[d]? = some moved) (hmoves : moved.Moves moved') :
    ∃ connection', Called { s with connections := s.connections.set d moved' } c target k p connection' call := by
  by_cases hd : d = c
  · subst hd
    obtain rfl : connection = moved := Option.some.inj (h.known.symm.trans hknown)
    refine ⟨moved', { h with
      known := List.getElem?_set_self (lt_length_of_known hknown)
      target := hmoves.target.trans h.target
      once := ?_, alive := fun halive => ?_, sent := ?_, taken := fun q hq => ?_ }⟩
    · rw [hmoves.sent]
      exact h.once
    · rw [hmoves.sent]
      exact h.alive (hmoves.alive halive)
    · rw [hmoves.sent]
      exact h.sent
    · rw [hmoves.sent]
      rcases hmoves.policy with hpolicy | ⟨e, he, hpolicy⟩
      · exact h.taken q (hpolicy ▸ hq)
      · obtain rfl : e.2 = q := Option.some.inj (hpolicy.symm.trans hq)
        have := h.sent e he
        rwa [this] at he ⊢
  · exact ⟨connection, { h with known := (List.getElem?_set_ne hd).trans h.known }⟩

/-- Once a reload has taken a connection, it stays so. -/
theorem Called.step {e : Event} (h : Called s c target k p connection call) (he : Effect s e s') :
    ∃ connection' call', Called s' c target k p connection' call' := by
  cases he with
  | accept =>
    refine ⟨connection, call, { h with known := ?_, waiting := fun hmem => ?_ }⟩
    · exact (List.getElem?_append_left (lt_length_of_known h.known)).trans h.known
    · rcases List.mem_append.mp hmem with hmem | hmem
      · exact h.waiting (List.mem_of_mem_filter hmem)
      · exact (lt_length_of_known h.known).ne (List.mem_singleton.mp hmem)
  | reload newTarget policy =>
    refine ⟨connection, call, { h with
      found := (List.getElem?_append_left (lt_length_of_call h.found)).trans h.found
      waiting := List.not_mem_nil
      others := fun j other hj hother => ?_ }⟩
    rw [State.reload, List.getElem?_append] at hother
    split at hother
    · exact h.others j other hj hother
    · obtain rfl := List.mem_singleton.mp (List.mem_of_getElem? hother)
      rw [tickets_new]
      exact List.count_eq_zero.mpr h.waiting
  | upgrade hcall =>
    obtain ⟨call', h'⟩ := h.upgrade hcall
    exact ⟨connection, call', h'⟩
  | send hcall => exact h.send hcall
  | task _ _ hknown hmoves =>
    obtain ⟨connection', h'⟩ := h.task hknown hmoves
    exact ⟨connection', call, h'⟩

/-! ### Runs -/

/-- What a reload is given. -/
def Event.reloaded : Event → Option (TcpTarget × TransitionPolicy)
  | .reload target policy => some (target, policy)
  | _ => none

/-- The reloads of a run, in order. -/
def reloads (events : List Event) : List (TcpTarget × TransitionPolicy) := events.filterMap Event.reloaded

/-- The target after a run: the last reload's, or the one the listener was bound with. -/
def targetInForce (target : TcpTarget) (events : List Event) : TcpTarget :=
  ((reloads events).getLast?.map Prod.fst).getD target

theorem reloads_of_ne {e : Event} (h : ∀ target policy, e ≠ .reload target policy) (events : List Event) :
    reloads (e :: events) = reloads events := by
  cases e with
  | reload target policy => exact absurd rfl (h target policy)
  | _ => rfl

theorem targetInForce_reload (target newTarget : TcpTarget) (policy : TransitionPolicy) (events : List Event) :
    targetInForce target (.reload newTarget policy :: events) = targetInForce newTarget events := by
  have : reloads (.reload newTarget policy :: events) = (newTarget, policy) :: reloads events := rfl
  rw [targetInForce, targetInForce, this]
  cases hlast : reloads events with
  | nil => rfl
  | cons first rest =>
    rw [List.getLast?_cons_cons, List.getLast?_eq_some_getLast (List.cons_ne_nil first rest)]
    rfl

/-- What a run adds to the state: connections, calls, and the target of its last reload. -/
theorem exec_counts {events : List Event} (h : exec step s events = some s') :
    s'.target = targetInForce s.target events ∧
      s'.connections.length = s.connections.length + events.count .accept ∧
      s'.calls.length = s.calls.length + (reloads events).length := by
  induction events generalizing s with
  | nil =>
    obtain rfl := Option.some.inj h
    exact ⟨rfl, rfl, rfl⟩
  | cons e rest ih =>
    obtain ⟨t, ht, hrest⟩ := exec_cons.mp h
    obtain ⟨htarget, hconnections, hcalls⟩ := ih hrest
    rw [htarget, hconnections, hcalls]
    cases effect_of_step ht with
    | accept =>
      refine ⟨rfl, ?_, rfl⟩
      simp only [State.accept, List.length_append, List.length_singleton, List.count_cons_self]
      omega
    | reload newTarget policy =>
      refine ⟨(targetInForce_reload _ _ _ _).symm, ?_, ?_⟩
      · simp [State.reload]
      · have : reloads (.reload newTarget policy :: rest) = (newTarget, policy) :: reloads rest := rfl
        simp only [this, State.reload, List.length_append, List.length_cons, List.length_nil]
        omega
    | upgrade _ =>
      refine ⟨rfl, ?_, ?_⟩
      · simp
      · rw [List.length_set]
        rfl
    | send _ =>
      refine ⟨rfl, ?_, ?_⟩
      · simp
      · rw [List.length_set]
        rfl
    | task haccept hreload _ _ =>
      refine ⟨by rw [targetInForce, targetInForce, reloads_of_ne hreload], ?_, ?_⟩
      · rw [List.length_set, List.count_cons_of_ne haccept]
      · rw [reloads_of_ne hreload]

/-- A connection waits until the first reload of a run, which takes it. -/
theorem waits_exec {events : List Event} (h : Waits s c target connection) (hrun : exec step s events = some s') :
    (reloads events = [] → ∃ connection', Waits s' c target connection') ∧
      ∀ newTarget p rest, reloads events = (newTarget, p) :: rest →
        ∃ connection' call, Called s' c target s.calls.length p connection' call := by
  induction events generalizing s connection with
  | nil =>
    obtain rfl := Option.some.inj hrun
    exact ⟨fun _ => ⟨connection, h⟩, nofun⟩
  | cons e rest ih =>
    obtain ⟨t, ht, hrest⟩ := exec_cons.mp hrun
    have heffect := effect_of_step ht
    by_cases hreload : ∃ newTarget policy, e = .reload newTarget policy
    · obtain ⟨newTarget, policy, rfl⟩ := hreload
      cases heffect with
      | reload =>
        refine ⟨nofun, fun newTarget' p more hmore => ?_⟩
        obtain ⟨⟨rfl, rfl⟩, -⟩ : (newTarget = newTarget' ∧ policy = p) ∧ reloads rest = more := by
          simpa [reloads, Event.reloaded] using hmore
        refine exec_invariant (P := fun t => ∃ connection' call, Called t c target s.calls.length policy connection' call)
          (fun t e t' ht' hcalled => ?_) hrest ⟨_, _, h.reload newTarget policy⟩
        obtain ⟨connection', call, hcalled⟩ := hcalled
        exact hcalled.step (effect_of_step ht')
      | task _ hne _ _ => exact absurd rfl (hne newTarget policy)
    · have hne : ∀ newTarget policy, e ≠ .reload newTarget policy := fun newTarget policy he =>
        hreload ⟨newTarget, policy, he⟩
      obtain ⟨connection', h'⟩ := h.step heffect hne
      have hlength : t.calls.length = s.calls.length := by
        have hone : exec step s [e] = some t := exec_cons.mpr ⟨t, ht, rfl⟩
        have := (exec_counts hone).2.2
        rwa [reloads_of_ne hne, reloads, List.filterMap_nil, List.length_nil, Nat.add_zero] at this
      rw [reloads_of_ne hne, ← hlength]
      exact ih h' hrest

/-! ### The loop of a reload -/

theorem exists_step_upgrade {policy : TransitionPolicy} {rest : List ℕ}
    (h : s.calls[k]? = some ⟨policy, c :: rest, none⟩) :
    ∃ t held, step s (.upgrade k) = some t ∧ t.calls[k]? = some ⟨policy, rest, held⟩ := by
  rw [step, State.upgrade, h]
  exact ⟨_, _, rfl, List.getElem?_set_self (lt_length_of_call h)⟩

theorem exists_step_send {policy : TransitionPolicy} {rest : List ℕ}
    (h : s.calls[k]? = some ⟨policy, rest, some c⟩) :
    ∃ t, step s (.send k) = some t ∧ t.calls[k]? = some ⟨policy, rest, none⟩ := by
  rw [step, State.send, h]
  exact ⟨_, rfl, List.getElem?_set_self (lt_length_of_call h)⟩

/-- **A reload returns**: whatever the state, the steps of a call by itself lead to its end. -/
theorem exists_finished (h : s.calls[k]? = some call) :
    ∃ events s' call', (∀ e ∈ events, e = .upgrade k ∨ e = .send k) ∧ exec step s events = some s' ∧
      s'.calls[k]? = some call' ∧ call'.finished = true := by
  obtain ⟨policy, remaining, held⟩ := call
  induction remaining generalizing s held with
  | nil =>
    cases held with
    | none => exact ⟨[], s, _, nofun, rfl, h, rfl⟩
    | some c =>
      obtain ⟨t, hstep, hcall⟩ := exists_step_send h
      exact ⟨[.send k], t, _, by simp, exec_cons.mpr ⟨t, hstep, rfl⟩, hcall, rfl⟩
  | cons c rest ih =>
    -- the handle held is sent to first, then the next one is tried
    have hupgrade : ∀ t : State, t.calls[k]? = some ⟨policy, c :: rest, none⟩ →
        ∃ events s' call', (∀ e ∈ events, e = .upgrade k ∨ e = .send k) ∧ exec step t events = some s' ∧
          s'.calls[k]? = some call' ∧ call'.finished = true := by
      intro t ht
      obtain ⟨u, held', hstep, hcall⟩ := exists_step_upgrade ht
      obtain ⟨events, s', call', hown, hrun, hcall', hfinished⟩ := ih held' hcall
      exact ⟨.upgrade k :: events, s', call', List.forall_mem_cons.mpr ⟨.inl rfl, hown⟩, exec_cons.mpr ⟨u, hstep, hrun⟩,
        hcall', hfinished⟩
    cases held with
    | none => exact hupgrade s h
    | some d =>
      obtain ⟨t, hstep, hcall⟩ := exists_step_send h
      obtain ⟨events, s', call', hown, hrun, hcall', hfinished⟩ := hupgrade t hcall
      exact ⟨.send k :: events, s', call', List.forall_mem_cons.mpr ⟨.inr rfl, hown⟩, exec_cons.mpr ⟨t, hstep, hrun⟩,
        hcall', hfinished⟩

/-- The steps of a call leave every task where it is. -/
theorem phase_of_own {events : List Event} (hown : ∀ e ∈ events, e = .upgrade k ∨ e = .send k)
    (h : exec step s events = some s') (c : ℕ) :
    s'.connections[c]?.map Connection.phase = s.connections[c]?.map Connection.phase := by
  induction events generalizing s with
  | nil =>
    obtain rfl := Option.some.inj h
    rfl
  | cons e rest ih =>
    obtain ⟨t, ht, hrest⟩ := exec_cons.mp h
    obtain ⟨he, hothers⟩ := List.forall_mem_cons.mp hown
    rw [ih hothers hrest]
    rcases he with rfl | rfl
    · simp only [step, State.upgrade] at ht
      split at ht
      · obtain rfl := Option.some.inj ht
        rfl
      · cases ht
    · simp only [step, State.send] at ht
      split at ht
      · obtain rfl := Option.some.inj ht
        cases hknown : s.connections[c]? with
        | none => simp only [List.getElem?_modify, hknown, Option.map_eq_map, Option.map_none]
        | some connection =>
          simp only [List.getElem?_modify, hknown, Option.map_eq_map, Option.map_some]
          split <;> rfl
      · cases ht

/-! ### What a connection is told -/

/-- **A connection and the first reload.** It is forwarded to the target in force where it was
accepted. Until a reload it is told nothing. After one, the values sent on its channel are at most
one, from the first reload after its acceptance; the policy its task took is that one; and when
that reload has returned and the connection is alive, it was sent. -/
theorem told_by_first_reload {initial : TcpTarget} {before later : List Event}
    (h : exec step (init initial) (before ++ .accept :: later) = some s) :
    ∃ connection, s.connections[before.count .accept]? = some connection ∧
      connection.target = targetInForce initial before ∧
      match reloads later with
      | [] => connection.sent = [] ∧ connection.policy = none
      | (_, p) :: _ =>
        (connection.sent = [] ∨ connection.sent = [((reloads before).length, p)]) ∧
        (∀ q, connection.policy = some q → connection.sent = [((reloads before).length, q)]) ∧
        ∃ call, s.calls[(reloads before).length]? = some call ∧
          (connection.alive = true → call.finished = true →
            connection.sent = [((reloads before).length, p)]) := by
  obtain ⟨t, hbefore, hrest⟩ := exec_append.mp h
  obtain ⟨u, haccept, hlater⟩ := exec_cons.mp hrest
  obtain rfl : t.accept = u := Option.some.inj haccept
  obtain ⟨htarget, hconnections, hcalls⟩ := exec_counts hbefore
  have hknown : Known t := exec_invariant (fun _ _ _ hstep hk => hk.step (effect_of_step hstep)) hbefore (known_init initial)
  have hc : t.connections.length = before.count .accept := by rw [hconnections]; exact Nat.zero_add _
  have hk : t.accept.calls.length = (reloads before).length := by
    rw [State.accept, hcalls]
    exact Nat.zero_add _
  have hwaits := Waits.of_accept hknown
  rw [hc, htarget] at hwaits
  obtain ⟨hnone, hsome⟩ := waits_exec hwaits hlater
  rw [hk] at hsome
  cases hreloads : reloads later with
  | nil =>
    obtain ⟨connection, hw⟩ := hnone hreloads
    exact ⟨connection, hw.known, hw.target, hw.sent, hw.policy⟩
  | cons first rest =>
    obtain ⟨newTarget, p⟩ := first
    obtain ⟨connection, call, hcalled⟩ := hsome newTarget p rest hreloads
    have hone : ∀ q, (((reloads before).length, q) ∈ connection.sent → connection.sent = [((reloads before).length, q)]) := by
      intro q hq
      have hlen : connection.sent.length = 1 := by
        have := hcalled.once
        have := List.length_pos_of_mem hq
        omega
      obtain ⟨e, he⟩ := List.length_eq_one_iff.mp hlen
      rw [he] at hq ⊢
      rw [List.mem_singleton.mp hq]
    refine ⟨connection, hcalled.known, hcalled.target, ?_, fun q hq => hone q (hcalled.taken q hq), call, hcalled.found,
      fun halive hfinished => ?_⟩
    · cases hsent : connection.sent with
      | nil => exact .inl rfl
      | cons e more =>
        have he : e ∈ connection.sent := by simp [hsent]
        rw [← hsent]
        exact .inr (hone p (hcalled.sent e he ▸ he))
    · have hlen := hcalled.alive halive
      rw [tickets_of_finished hfinished, Nat.zero_add] at hlen
      obtain ⟨e, he⟩ := List.exists_mem_of_length_pos hlen
      exact hone p (hcalled.sent e he ▸ he)

/-- **Transitions of connections.** In every run, a connection is forwarded to the target in
force where it was accepted. Until a reload it is told nothing. After one, the values sent
on its channel are at most one, from the first reload after its acceptance; the policy its
task took is that one; and when that reload has returned and the connection is alive, it was
sent. Wherever the reload stands it is not stuck: its own steps lead to its return, and if the
connection is alive here, it has been sent by then. -/
theorem transition_of_first_reload {initial : TcpTarget} {before later : List Event}
    (h : exec step (init initial) (before ++ .accept :: later) = some s) :
    ∃ connection, s.connections[before.count .accept]? = some connection ∧
      connection.target = targetInForce initial before ∧
      match reloads later with
      | [] => connection.sent = [] ∧ connection.policy = none
      | (_, p) :: _ =>
        (connection.sent = [] ∨ connection.sent = [((reloads before).length, p)]) ∧
        (∀ q, connection.policy = some q → connection.sent = [((reloads before).length, q)]) ∧
        (∃ call, s.calls[(reloads before).length]? = some call ∧
          (connection.alive = true → call.finished = true →
            connection.sent = [((reloads before).length, p)])) ∧
        ∃ own s' call' connection', (∀ e ∈ own, e = .upgrade (reloads before).length ∨ e = .send (reloads before).length) ∧
          exec step s own = some s' ∧ s'.calls[(reloads before).length]? = some call' ∧ call'.finished = true ∧
          s'.connections[before.count .accept]? = some connection' ∧ connection'.phase = connection.phase ∧
          (connection.alive = true → connection'.sent = [((reloads before).length, p)]) := by
  obtain ⟨connection, hknown, htarget, htold⟩ := told_by_first_reload h
  refine ⟨connection, hknown, htarget, ?_⟩
  cases hreloads : reloads later with
  | nil =>
    rw [hreloads] at htold
    exact htold
  | cons first rest =>
    rw [hreloads] at htold
    obtain ⟨hsent, htaken, call, hcall, halive⟩ := htold
    refine ⟨hsent, htaken, ⟨call, hcall, halive⟩, ?_⟩
    obtain ⟨own, s', call', hown, hrun, hcall', hfinished⟩ := exists_finished hcall
    have hphases := phase_of_own hown hrun (before.count .accept)
    rw [hknown, Option.map_some] at hphases
    obtain ⟨connection', hknown', hphase⟩ := Option.map_eq_some_iff.mp hphases
    refine ⟨own, s', call', connection', hown, hrun, hcall', hfinished, hknown', hphase, fun hlive => ?_⟩
    -- the run that goes on by the steps of the reload alone has the same first reload
    have hlonger : exec step (init initial) (before ++ .accept :: (later ++ own)) = some s' := by
      have hsplit : before ++ .accept :: (later ++ own) = (before ++ .accept :: later) ++ own := by simp
      rw [hsplit]
      exact exec_append.mpr ⟨s, h, hrun⟩
    obtain ⟨connection'', hknown'', -, htold''⟩ := told_by_first_reload hlonger
    obtain rfl := Option.some.inj (hknown'.symm.trans hknown'')
    have hfirst : reloads (later ++ own) = first :: (rest ++ reloads own) := by
      rw [reloads, List.filterMap_append, ← reloads, ← reloads, hreloads, List.cons_append]
    rw [hfirst] at htold''
    obtain ⟨-, -, call'', hcall'', halive''⟩ := htold''
    obtain rfl := Option.some.inj (hcall'.symm.trans hcall'')
    refine halive'' ?_ hfinished
    rwa [Connection.alive, hphase]

/-- A connection accepted between two reloads, while the first one still holds an earlier one, is told
what the second says. -/
theorem transition_of_second_reload :
    ∃ s connection, exec step (init ⟨"old", 80⟩)
        ([.accept, .connected 0, .reload ⟨"new", 80⟩ .pin, .upgrade 0] ++
          .accept :: [.connected 1, .reload ⟨"newer", 80⟩ (.drain 5), .upgrade 1, .send 0, .send 1, .changed 1]) = some s ∧
      s.connections[1]? = some connection ∧ connection.target = ⟨"new", 80⟩ ∧ connection.phase = .draining 5 ∧
      connection.sent = [(1, .drain 5)] := by
  obtain ⟨s, hrun, hend⟩ := (Option.any_eq_true ..).mp (show (exec step (init ⟨"old", 80⟩)
    ([.accept, .connected 0, .reload ⟨"new", 80⟩ .pin, .upgrade 0] ++
      .accept :: [.connected 1, .reload ⟨"newer", 80⟩ (.drain 5), .upgrade 1, .send 0, .send 1, .changed 1])).any
    (fun s => decide (s.connections[1]?.map Connection.phase = some (.draining 5) ∧
      s.calls[1]?.map Call.finished = some true)) = true by decide)
  obtain ⟨hphase, hfinished⟩ := of_decide_eq_true hend
  obtain ⟨connection, hknown, htarget, -, -, ⟨call, hcall, hsent⟩, -⟩ := transition_of_first_reload hrun
  have hdraining : connection.phase = .draining 5 := by
    have hknown : s.connections[1]? = some connection := hknown
    simpa only [hknown, Option.map_some, Option.some.injEq] using hphase
  have hreturned : call.finished = true := by
    have hcall : s.calls[1]? = some call := hcall
    simpa only [hcall, Option.map_some, Option.some.injEq] using hfinished
  have halive : connection.alive = true := by
    rw [Connection.alive, hdraining]
    rfl
  exact ⟨s, connection, hrun, hknown, htarget, hdraining, hsent halive hreturned⟩

end Apmpr.Router.Tcp
