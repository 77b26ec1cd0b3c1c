import Apmpr.State.Lock

/-!
# Mutating operations

How the daemon runs an operation: `begin_operation` and `begin_clone_operation` take a
lease of fifteen seconds, `execute_operation` and `execute_clone_operation` wait for a
heavy permit, start the backend's work, and release the lease when it is done. An
event below is one of their steps with the store or the semaphore; the waits between
them are what the other operations' steps interleave with.

The lease is renewed by heartbeats, and only by the executor of operations, and only
while the work is running: neither executor renews it while it waits for a permit, and
the executor of clones never does. Work goes on after a heartbeat has found the lease
lost. So the lease alone does not exclude: `overlapping_work` gives two runs in which
two works of one deployment, and of one source, are running.

## What is proved

`works_exclude` — in every run in which no request comes to a lease that has run out
while the operation holding it is unfinished, no two works of a deployment, or of a
source, are running at the same time.

## Honest scope

Tokens and identifiers of operations are random in the source; here a new one is
different from those in use. One daemon runs on the store, from any table left by an
earlier one.
-/

namespace Apmpr.Daemon.Operations

open Apmpr.State

/-- `LOCK_TTL_MILLIS`. -/
def LOCK_TTL_MILLIS : I64 := ⟨15000, by decide, by decide⟩

/-- A command of the daemon's interface. -/
inductive CommandKind where
  | validate
  | plan
  | apply
  | membership
  | status
  | routes
  | logs
  | open
  | down
  | cleanup
  | runAction
  | clone
  deriving DecidableEq, Repr

/-- Whether a command changes deployment state. -/
def CommandKind.mutating : CommandKind → Bool
  | .apply | .membership | .open | .down | .cleanup | .clone => true
  | _ => false

/-- Whether a command takes a heavy permit. -/
def CommandKind.heavy : CommandKind → Bool
  | .apply | .clone => true
  | _ => false

/-- A structured run action. -/
inductive StructuredCommand where
  | up
  | down
  | plan
  | status
  deriving DecidableEq, Repr

/-- What an operation runs. -/
inductive OperationInvocation where
  | command (kind : CommandKind)
  | structuredAction (action : StructuredCommand)
  | shellAction
  | membershipAction
  deriving DecidableEq, Repr

/-- Whether an operation takes the lease of its deployment. -/
def OperationInvocation.mutating : OperationInvocation → Bool
  | .command kind => kind.mutating
  | .structuredAction action => action = .up || action = .down
  | .shellAction | .membershipAction => false

/-- Whether an operation waits for a heavy permit. -/
def OperationInvocation.heavy : OperationInvocation → Bool
  | .command kind => kind.heavy
  | .structuredAction action => action = .up
  | .shellAction | .membershipAction => false

/-- A request: an operation on a deployment, or a clone into a source. -/
inductive Request where
  | operation (deployment : String) (invocation : OperationInvocation)
  | clone (source : String)
  deriving DecidableEq, Repr

/-- What a request locks. -/
def Request.lockName : Request → String
  | .operation deployment _ => deployment
  | .clone source => "source:" ++ source

/-- Whether a request takes a lease. -/
def Request.mutating : Request → Bool
  | .operation _ invocation => invocation.mutating
  | .clone _ => true

/-- Whether a request waits for a heavy permit. -/
def Request.heavy : Request → Bool
  | .operation _ invocation => invocation.heavy
  | .clone _ => true

/-- Whether the executor of a request sends heartbeats. -/
def Request.renews : Request → Bool
  | .operation _ _ => true
  | .clone _ => false

/-- Where an executor is: before its work, at it, at it with the lease lost, after it, done. -/
inductive Phase where
  | waiting
  | running
  | lost
  | finishing
  | finished
  deriving DecidableEq, Repr

/-- The backend's work is running. -/
def Phase.working : Phase → Bool
  | .running | .lost => true
  | _ => false

/-- The backend's work is not over. -/
def Phase.unfinished : Phase → Bool
  | .waiting | .running | .lost => true
  | _ => false

/-- An operation the daemon has taken on. -/
structure Task where
  request : Request
  lock : Option OperationLock
  phase : Phase
  deriving DecidableEq

/-- The daemon's state, as far as exclusion is concerned: the last clock reading, the leases,
the free heavy permits, the operations by identifier, and the tokens drawn so far. -/
structure Inner where
  clock : I64
  table : LockTable
  heavy : ℕ
  operations : String → Option Task
  tokens : List String

/-- A step of a request or of an executor. -/
inductive Event where
  /-- A request, with the identifier and the token drawn for it. -/
  | request (id token : String) (request : Request) (now : I64)
  /-- An operation ends before its work: its record is not written, or it is cancelled. -/
  | abandon (id : String)
  /-- The permit is there, if one is needed, and the work starts. -/
  | start (id : String)
  | heartbeat (id : String) (now : I64)
  /-- The work is over. -/
  | complete (id : String)
  /-- `finish_operation`. -/
  | finish (id : String)

/-- Give a lease back, if there is one, whatever the store answers. -/
def release (table : LockTable) : Option OperationLock → LockTable
  | none => table
  | some lock => (releaseLock table lock).1

/-- Replace an operation. -/
def Inner.set (s : Inner) (id : String) (task : Task) : Inner :=
  { s with operations := Function.update s.operations id (some task) }

section

variable (instanceId : String) (pid : ℕ)

/-- The lease a request asks for. -/
def lockRequest (token : String) (request : Request) (now : I64) : LockRequest :=
  ⟨request.lockName, instanceId, pid, now, token, now, LOCK_TTL_MILLIS⟩

/-- `begin_operation` and `begin_clone_operation`: take the lease, if one is needed, and then
the operation on. A request that is refused leaves nothing behind. -/
def begin (s : Inner) (id token : String) (request : Request) (now : I64) : Inner :=
  if request.mutating then
    match acquireLock s.table (lockRequest instanceId pid token request now) with
    | (_, .error _) => s
    | (table, .ok lock) => { s with table }.set id ⟨request, some lock, .waiting⟩
  else s.set id ⟨request, none, .waiting⟩

/-- The work of an operation starts. -/
def start (s : Inner) (id : String) (task : Task) : Option Inner :=
  if task.phase = .waiting ∧ (task.request.heavy → 0 < s.heavy) then
    some ({ s with heavy := if task.request.heavy then s.heavy - 1 else s.heavy }.set id
      { task with phase := .running })
  else none

/-- A heartbeat of the executor of operations. -/
def heartbeat (s : Inner) (id : String) (task : Task) (now : I64) : Option Inner :=
  match task.lock with
  | none => none
  | some lock =>
    if task.phase = .running ∧ task.request.renews ∧ s.clock ≤ now then
      match heartbeatLock s.table lock now LOCK_TTL_MILLIS with
      | ((table, lock'), .ok ()) => some ({ s with clock := now, table }.set id { task with lock := some lock' })
      -- the work is told to stop, and waited for
      | (_, .error _) => some ({ s with clock := now }.set id { task with phase := .lost })
    else none

/-- The work of an operation is over: its permit is free again. -/
def complete (s : Inner) (id : String) (task : Task) : Option Inner :=
  if task.phase.working then
    some ({ s with heavy := if task.request.heavy then s.heavy + 1 else s.heavy }.set id
      { task with phase := .finishing })
  else none

/-- An operation in a given phase gives its lease back and is done. -/
def leave (phase : Phase) (s : Inner) (id : String) (task : Task) : Option Inner :=
  if task.phase = phase then
    some ({ s with table := release s.table task.lock }.set id { task with phase := .finished })
  else none

/-- One event, where it is enabled. -/
def step (s : Inner) : Event → Option Inner
  | .request id token request now =>
    if s.operations id = none ∧ token ∉ s.tokens ∧ s.clock ≤ now then
      some (begin instanceId pid { s with clock := now, tokens := token :: s.tokens } id token request now)
    else none
  | .abandon id => (s.operations id).bind (leave .waiting s id)
  | .start id => (s.operations id).bind (start s id)
  | .heartbeat id now => (s.operations id).bind fun task => heartbeat s id task now
  | .complete id => (s.operations id).bind (complete s id)
  | .finish id => (s.operations id).bind (leave .finishing s id)

end

/-- The daemon when it starts, on any table. -/
def Inner.initial (clock : I64) (table : LockTable) (heavy : ℕ) : Inner := ⟨clock, table, heavy, fun _ => none, []⟩

/-! ### Exclusion -/

/-- Two works under one lock are never running together. -/
def Exclusive (s : Inner) : Prop :=
  ∀ id id' task task', s.operations id = some task → s.operations id' = some task' →
    task.request.mutating = true → task'.request.mutating = true →
    task.request.lockName = task'.request.lockName → task.phase.working = true → task'.phase.working = true →
    id = id'

/-- A request comes to a lease that has run out while the operation holding it is unfinished. -/
def ComesLate (s : Inner) : Event → Prop
  | .request _ _ request now => request.mutating = true ∧ ∃ id task lock row, s.operations id = some task ∧
      task.phase.unfinished = true ∧ task.lock = some lock ∧ lock.deployment = request.lockName ∧
      s.table.held lock = some row ∧ row.expiresAt ≤ now
  | _ => False

/-! ### What the leases guarantee -/

/-- An operation stands under its own lock. -/
def Task.LockedAs (task : Task) (s : Inner) : Prop :=
  (task.request.mutating = true → task.lock.isSome) ∧
    ∀ lock, task.lock = some lock → lock.deployment = task.request.lockName ∧ lock.token ∈ s.tokens ∧
      (task.phase.unfinished = true → ∃ row, s.table.held lock = some row)

/-- The invariant of the runs in which no request comes late: the lease of an unfinished
operation is still in the table, and no lock name has two unfinished operations. -/
structure Guarded (s : Inner) : Prop where
  locked : ∀ id task, s.operations id = some task → task.LockedAs s
  tokens : ∀ id id' task task' lock lock', s.operations id = some task → s.operations id' = some task' →
    task.lock = some lock → task'.lock = some lock' → lock.token = lock'.token → id = id'
  unique : ∀ id id' task task', s.operations id = some task → s.operations id' = some task' →
    task.request.mutating = true → task'.request.mutating = true →
    task.request.lockName = task'.request.lockName → task.phase.unfinished = true →
    task'.phase.unfinished = true → id = id'

theorem Phase.unfinished_of_working {phase : Phase} (h : phase.working = true) : phase.unfinished = true := by
  cases phase <;> simp_all [Phase.working, Phase.unfinished]

theorem Guarded.exclusive {s : Inner} (h : Guarded s) : Exclusive s :=
  fun id id' task task' hid hid' hm hm' hname hw hw' => h.unique id id' task task' hid hid' hm hm' hname
    (Phase.unfinished_of_working hw) (Phase.unfinished_of_working hw')

/-- What the two names a lease is found by are. -/
def lockKey (lock : OperationLock) : String × String := (lock.deployment, lock.token)

section

variable {s s' : Inner} {id : String} {task task' : Task}

/-- Moving one operation on keeps the invariant, where the leases of the unfinished stay. -/
theorem Guarded.replace (h : Guarded s) (hid : s.operations id = some task)
    (hops : s'.operations = Function.update s.operations id (some task')) (htokens : s'.tokens = s.tokens)
    (hrequest : task'.request = task.request) (hlock : task'.lock.map lockKey = task.lock.map lockKey)
    (hphase : task'.phase.unfinished = true → task.phase.unfinished = true)
    (hown : task'.phase.unfinished = true → ∀ lock, task'.lock = some lock → ∃ row, s'.table.held lock = some row)
    (hothers : ∀ id' t lock, id' ≠ id → s.operations id' = some t → t.phase.unfinished = true →
      t.lock = some lock → ∃ row, s'.table.held lock = some row) : Guarded s' := by
  -- every operation after the step was there before it, under the same names
  have hbefore : ∀ id' t, s'.operations id' = some t → ∃ t₀, s.operations id' = some t₀ ∧
      t.request = t₀.request ∧ t.lock.map lockKey = t₀.lock.map lockKey ∧
      (t.phase.unfinished = true → t₀.phase.unfinished = true) := by
    intro id' t ht
    rw [hops] at ht
    by_cases heq : id' = id
    · subst heq
      rw [Function.update_self] at ht
      obtain rfl := Option.some.inj ht
      exact ⟨task, hid, hrequest, hlock, hphase⟩
    · rw [Function.update_of_ne heq] at ht
      exact ⟨t, ht, rfl, rfl, fun hu => hu⟩
  have hsameLock : ∀ {t t₀ : Task} {lock}, t.lock.map lockKey = t₀.lock.map lockKey → t.lock = some lock →
      ∃ lock₀, t₀.lock = some lock₀ ∧ lock₀.deployment = lock.deployment ∧ lock₀.token = lock.token := by
    intro t t₀ lock hmap hl
    rw [hl, Option.map_some, eq_comm, Option.map_eq_some_iff] at hmap
    obtain ⟨lock₀, hl₀, hkey⟩ := hmap
    exact ⟨lock₀, hl₀, (Prod.mk.inj hkey).1, (Prod.mk.inj hkey).2⟩
  refine ⟨fun id' t ht => ⟨fun hm => ?_, fun lock hl => ⟨?_, ?_, fun hu => ?_⟩⟩, ?_, ?_⟩
  · obtain ⟨t₀, ht₀, hreq, hmap, -⟩ := hbefore id' t ht
    have := (h.locked id' t₀ ht₀).1 (by rw [← hreq]; exact hm)
    rwa [← Option.isSome_map, hmap, Option.isSome_map]
  · obtain ⟨t₀, ht₀, hreq, hmap, -⟩ := hbefore id' t ht
    obtain ⟨lock₀, hl₀, hdep, -⟩ := hsameLock hmap hl
    rw [← hdep, hreq]
    exact ((h.locked id' t₀ ht₀).2 lock₀ hl₀).1
  · obtain ⟨t₀, ht₀, -, hmap, -⟩ := hbefore id' t ht
    obtain ⟨lock₀, hl₀, -, htok⟩ := hsameLock hmap hl
    rw [htokens, ← htok]
    exact ((h.locked id' t₀ ht₀).2 lock₀ hl₀).2.1
  · rw [hops] at ht
    by_cases heq : id' = id
    · subst heq
      rw [Function.update_self] at ht
      obtain rfl := Option.some.inj ht
      exact hown hu lock hl
    · rw [Function.update_of_ne heq] at ht
      exact hothers id' t lock heq ht hu hl
  · intro i j t u lock lock' hi hj hl hl' htok
    obtain ⟨t₀, ht₀, -, hmap, -⟩ := hbefore i t hi
    obtain ⟨u₀, hu₀, -, hmap', -⟩ := hbefore j u hj
    obtain ⟨lock₀, hl₀, -, htok₀⟩ := hsameLock hmap hl
    obtain ⟨lock₀', hl₀', -, htok₀'⟩ := hsameLock hmap' hl'
    exact h.tokens i j t₀ u₀ lock₀ lock₀' ht₀ hu₀ hl₀ hl₀' (by rw [htok₀, htok₀', htok])
  · intro i j t u hi hj hm hm' hname hu hu'
    obtain ⟨t₀, ht₀, hreq, -, hun⟩ := hbefore i t hi
    obtain ⟨u₀, hu₀, hreq', -, hun'⟩ := hbefore j u hj
    refine h.unique i j t₀ u₀ ht₀ hu₀ ?_ ?_ ?_ (hun hu) (hun' hu')
    · rw [← hreq]
      exact hm
    · rw [← hreq']
      exact hm'
    · rw [← hreq, ← hreq']
      exact hname

/-- Moving an operation on without touching the table. -/
theorem Guarded.move (h : Guarded s) (hid : s.operations id = some task)
    (hops : s'.operations = Function.update s.operations id (some task')) (htokens : s'.tokens = s.tokens)
    (htable : s'.table = s.table) (hrequest : task'.request = task.request) (hlock : task'.lock = task.lock)
    (hphase : task'.phase.unfinished = true → task.phase.unfinished = true) : Guarded s' := by
  refine h.replace hid hops htokens hrequest (by rw [hlock]) hphase (fun hu lock hl => ?_) ?_
  · rw [htable]
    rw [hlock] at hl
    exact ((h.locked id task hid).2 lock hl).2.2 (hphase hu)
  · intro id' t lock _ ht hu hl
    rw [htable]
    exact ((h.locked id' t ht).2 lock hl).2.2 hu

/-- An operation that gives its lease back takes no other's. -/
theorem Guarded.leave (h : Guarded s) (hid : s.operations id = some task) :
    Guarded ({ s with table := release s.table task.lock }.set id { task with phase := .finished }) := by
  refine h.replace hid rfl rfl rfl rfl (fun hu => by cases hu) (fun hu => by cases hu) ?_
  intro id' t lock hne ht hu hl
  obtain ⟨row, hrow⟩ := ((h.locked id' t ht).2 lock hl).2.2 hu
  change ∃ row, LockTable.held (release s.table task.lock) lock = some row
  cases hlock : task.lock with
  | none => exact ⟨row, hrow⟩
  | some lock' =>
    exact ⟨row, held_releaseLock hrow fun htok => hne (h.tokens id' id t task lock lock' ht hid hl hlock htok)⟩

/-- A heartbeat, whether it succeeds or not. -/
theorem Guarded.heartbeat {now : I64} (h : Guarded s) (hid : s.operations id = some task)
    (hstep : heartbeat s id task now = some s') : Guarded s' := by
  unfold Operations.heartbeat at hstep
  cases hlock : task.lock with
  | none => simp [hlock] at hstep
  | some lock =>
    rw [hlock] at hstep
    dsimp only at hstep
    split at hstep
    · rename_i hrunning
      have hunfinished : task.phase.unfinished = true := by
        rw [hrunning.1]
        rfl
      rcases heartbeatLock_cases s.table lock now LOCK_TTL_MILLIS with ⟨e, heq⟩ | ⟨row, expiresAt, hheld, -, -, -, heq⟩
      · rw [heq] at hstep
        obtain rfl := Option.some.inj hstep
        exact h.move hid rfl rfl rfl rfl hlock.symm fun _ => hunfinished
      · have hkeep : ∀ {lock' row'}, s.table.held lock' = some row' →
            ∃ row', LockTable.held (heartbeatLock s.table lock now LOCK_TTL_MILLIS).1.1 lock' = some row' :=
          fun hrow => held_heartbeatLock hrow
        rw [heq] at hstep hkeep
        obtain rfl := Option.some.inj hstep
        refine h.replace hid rfl rfl rfl (by rw [hlock]; rfl) (fun _ => hunfinished) (fun _ lock' hl => ?_) ?_
        · obtain rfl := Option.some.inj hl
          exact hkeep hheld
        · intro id' t lock' _ ht hu hl
          obtain ⟨row', hrow'⟩ := ((h.locked id' t ht).2 lock' hl).2.2 hu
          exact hkeep hrow'
    · cases hstep

/-- Taking an operation on keeps the invariant, where no unfinished one stands under its lock. -/
theorem Guarded.add {token : String} (h : Guarded s) (hid : s.operations id = none) (htoken : token ∉ s.tokens)
    (hops : s'.operations = Function.update s.operations id (some task)) (htokens : s'.tokens = token :: s.tokens)
    (hlocked : task.LockedAs s') (hown : ∀ lock, task.lock = some lock → lock.token = token)
    (hothers : ∀ id' t lock, s.operations id' = some t → t.phase.unfinished = true → t.lock = some lock →
      ∃ row, s'.table.held lock = some row)
    (hunique : task.request.mutating = true → ∀ id' t, s.operations id' = some t → t.request.mutating = true →
      t.request.lockName = task.request.lockName → t.phase.unfinished ≠ true) : Guarded s' := by
  have hcases : ∀ id' t, s'.operations id' = some t → (id' = id ∧ t = task) ∨ s.operations id' = some t := by
    intro id' t ht
    rw [hops] at ht
    by_cases heq : id' = id
    · subst heq
      rw [Function.update_self] at ht
      exact Or.inl ⟨rfl, (Option.some.inj ht).symm⟩
    · rw [Function.update_of_ne heq] at ht
      exact Or.inr ht
  have hdrawn : ∀ {id' t lock}, s.operations id' = some t → t.lock = some lock → lock.token ≠ token := by
    rintro id' t lock ht hl rfl
    exact htoken ((h.locked id' t ht).2 lock hl).2.1
  refine ⟨fun id' t ht => ?_, ?_, ?_⟩
  · rcases hcases id' t ht with ⟨rfl, rfl⟩ | ht
    · exact hlocked
    · obtain ⟨hsome, hl⟩ := h.locked id' t ht
      refine ⟨hsome, fun lock hlock => ⟨(hl lock hlock).1, ?_, fun hu => hothers id' t lock ht hu hlock⟩⟩
      rw [htokens]
      exact List.mem_cons_of_mem _ (hl lock hlock).2.1
  · intro i j t u lock lock' hi hj hl hl' heq
    rcases hcases i t hi with ⟨rfl, rfl⟩ | hi <;> rcases hcases j u hj with ⟨rfl, rfl⟩ | hj
    · rfl
    · exact absurd (heq.symm.trans (hown lock hl)) (hdrawn hj hl')
    · exact absurd (heq.trans (hown lock' hl')) (hdrawn hi hl)
    · exact h.tokens i j t u lock lock' hi hj hl hl' heq
  · intro i j t u hi hj hm hm' hname hu hu'
    rcases hcases i t hi with ⟨rfl, rfl⟩ | hi <;> rcases hcases j u hj with ⟨rfl, rfl⟩ | hj
    · rfl
    · exact absurd hu' (hunique hm j u hj hm' hname.symm)
    · exact absurd hu (hunique hm' i t hi hm hname)
    · exact h.unique i j t u hi hj hm hm' hname hu hu'

/-- More tokens and a later clock change nothing. -/
theorem Guarded.draw {now : I64} {token : String} (h : Guarded s) :
    Guarded { s with clock := now, tokens := token :: s.tokens } := by
  refine ⟨fun id' t ht => ?_, h.tokens, h.unique⟩
  obtain ⟨hsome, hl⟩ := h.locked id' t ht
  exact ⟨hsome, fun lock hlock => ⟨(hl lock hlock).1, List.mem_cons_of_mem _ (hl lock hlock).2.1, (hl lock hlock).2.2⟩⟩

variable {instanceId : String} {pid : ℕ}

/-- A request that does not come late. -/
theorem Guarded.begin {token : String} {request : Request} {now : I64} (h : Guarded s)
    (hlate : ¬ ComesLate s (.request id token request now)) (hid : s.operations id = none)
    (htoken : token ∉ s.tokens) :
    Guarded (begin instanceId pid { s with clock := now, tokens := token :: s.tokens } id token request now) := by
  unfold Operations.begin
  split
  · rename_i hm
    cases hacq : acquireLock s.table (lockRequest instanceId pid token request now) with
    | mk table answer =>
      cases answer with
      | error e => exact h.draw
      | ok lock =>
        have hfree := (acquireLock_ok_iff.mp ⟨lock, by rw [hacq]⟩).2
        obtain ⟨⟨hdep, -, htok⟩, hheld⟩ := held_of_acquireLock hacq
        -- an unfinished operation under the name asked for would still have its lease, run out
        have hother : ∀ id' t lock', s.operations id' = some t → t.phase.unfinished = true →
            t.lock = some lock' → lock'.deployment ≠ request.lockName := by
          intro id' t lock' ht hu hl hd
          obtain ⟨row, hrow⟩ := ((h.locked id' t ht).2 lock' hl).2.2 hu
          have hrow' := (LockTable.held_eq_some_iff.mp hrow).1
          rw [hd] at hrow'
          exact hlate ⟨hm, id', t, lock', row, ht, hu, hl, hd, hrow, hfree row hrow'⟩
        refine h.add hid htoken rfl rfl ⟨fun _ => rfl, fun lock' hl => ?_⟩ (fun lock' hl => ?_) ?_ ?_
        · obtain rfl := Option.some.inj hl
          refine ⟨hdep, ?_, fun _ => hheld⟩
          rw [htok]
          exact List.mem_cons_self ..
        · obtain rfl := Option.some.inj hl
          exact htok
        · intro id' t lock' ht hu hl
          obtain ⟨row, hrow⟩ := ((h.locked id' t ht).2 lock' hl).2.2 hu
          have hkept := held_acquireLock (t := s.table) (r := lockRequest instanceId pid token request now)
            (hother id' t lock' ht hu hl)
          rw [hacq] at hkept
          exact ⟨row, hkept.trans hrow⟩
        · intro _ id' t ht hmut hname hu
          obtain ⟨hsome, hl⟩ := h.locked id' t ht
          obtain ⟨lock', hlock'⟩ := Option.isSome_iff_exists.mp (hsome hmut)
          exact hother id' t lock' ht hu hlock' ((hl lock' hlock').1.trans hname)
  · rename_i hm
    refine h.add hid htoken rfl rfl ⟨fun hmut => absurd hmut hm, fun lock hl => by cases hl⟩
      (fun lock hl => by cases hl) (fun id' t lock ht hu hl => ?_) (fun hmut => absurd hmut hm)
    exact ((h.locked id' t ht).2 lock hl).2.2 hu

/-- **Every event that is not a late request keeps the invariant.** -/
theorem Guarded.step {e : Event} (h : Guarded s) (hlate : ¬ ComesLate s e)
    (hstep : step instanceId pid s e = some s') : Guarded s' := by
  cases e with
  | request id token request now =>
    rw [Operations.step] at hstep
    split at hstep
    · rename_i hguard
      obtain rfl := Option.some.inj hstep
      exact h.begin hlate hguard.1 hguard.2.1
    · cases hstep
  | abandon id =>
    obtain ⟨task, hid, hleave⟩ := Option.bind_eq_some_iff.mp hstep
    unfold Operations.leave at hleave
    split at hleave
    · obtain rfl := Option.some.inj hleave
      exact h.leave hid
    · cases hleave
  | start id =>
    obtain ⟨task, hid, hstart⟩ := Option.bind_eq_some_iff.mp hstep
    unfold Operations.start at hstart
    split at hstart
    · rename_i hguard
      obtain rfl := Option.some.inj hstart
      exact h.move hid rfl rfl rfl rfl rfl fun _ => by rw [hguard.1]; rfl
    · cases hstart
  | heartbeat id now =>
    obtain ⟨task, hid, hbeat⟩ := Option.bind_eq_some_iff.mp hstep
    exact h.heartbeat hid hbeat
  | complete id =>
    obtain ⟨task, hid, hcomplete⟩ := Option.bind_eq_some_iff.mp hstep
    unfold Operations.complete at hcomplete
    split at hcomplete
    · obtain rfl := Option.some.inj hcomplete
      exact h.move hid rfl rfl rfl rfl rfl fun hu => by cases hu
    · cases hcomplete
  | finish id =>
    obtain ⟨task, hid, hleave⟩ := Option.bind_eq_some_iff.mp hstep
    unfold Operations.leave at hleave
    split at hleave
    · obtain rfl := Option.some.inj hleave
      exact h.leave hid
    · cases hleave

theorem Guarded.initial (clock : I64) (table : LockTable) (heavy : ℕ) : Guarded (.initial clock table heavy) where
  locked := by
    intro id task ht
    cases ht
  tokens := by
    intro id id' task task' lock lock' ht
    cases ht
  unique := by
    intro id id' task task' ht
    cases ht

end

/-- **Works exclude each other**: in every run in which no request comes to a lease that has
run out while the operation holding it is unfinished, no two works of a deployment, or of a
source, are running at the same time. -/
theorem works_exclude (instanceId : String) (pid : ℕ) (clock : I64) (table : LockTable) (heavy : ℕ) (s : Inner)
    (h : Reaches (step instanceId pid) (fun s e => ¬ ComesLate s e) (.initial clock table heavy) s) :
    Exclusive s :=
  (h.invariant (P := Guarded) (fun _ _ _ hlate hstep hs => hs.step hlate hstep)
    (.initial clock table heavy)).exclusive

/-- No lease under the name a request asks for has run out. -/
def live (s : Inner) : Event → Bool
  | .request _ _ request now => (s.table request.lockName).all fun row => !decide (row.expiresAt ≤ now)
  | _ => true

theorem not_comesLate_of_live {s : Inner} {e : Event} (h : live s e = true) : ¬ ComesLate s e := by
  cases e with
  | request id token request now =>
    rintro ⟨-, id', task, lock, row, -, -, -, hname, hheld, hexpired⟩
    have hrow := (LockTable.held_eq_some_iff.mp hheld).1
    rw [hname] at hrow
    simp only [live, hrow, Option.all_some, Bool.not_eq_true', decide_eq_false_iff_not] at h
    exact h hexpired
  | _ => exact id

/-- Less than a minute, in milliseconds. -/
def millis (n : Fin 60000) : I64 := ⟨n.val, by omega, by omega⟩

/-- An apply renews its lease, and two teardowns of its deployment are refused meanwhile; the third
one comes after it. Of three clones of a source the second is refused and the third comes after
the first, beside the teardown. -/
theorem works_exclude_comparison :
    ∃ s, Reaches (step "daemon" 1) (fun s e => ¬ ComesLate s e) (.initial 0 (fun _ => none) 2) s ∧
      ["apply", "down-1", "down-2", "down-3", "clone-1", "clone-2", "clone-3"].map (fun id =>
          (s.operations id).map Task.phase) =
        [some .finished, none, none, some .running, some .finished, none, some .running] ∧ Exclusive s := by
  obtain ⟨s, hs, hend⟩ := exists_reaches_of_execWhere (step "daemon" 1) live (fun _ _ => not_comesLate_of_live)
    (.initial 0 (fun _ => none) 2)
    (fun s => decide (["apply", "down-1", "down-2", "down-3", "clone-1", "clone-2", "clone-3"].map (fun id =>
        (s.operations id).map Task.phase) =
      [some .finished, none, none, some .running, some .finished, none, some .running])) [
      .request "apply" "t1" (.operation "comparison" (.command .apply)) 0, .start "apply",
      .request "down-1" "t2" (.operation "comparison" (.command .down)) (millis 5000),
      .heartbeat "apply" (millis 10000),
      .request "clone-1" "t3" (.clone "catalog") (millis 16000), .start "clone-1",
      .request "down-2" "t4" (.operation "comparison" (.command .down)) (millis 20000),
      .request "clone-2" "t5" (.clone "catalog") (millis 20000),
      .complete "apply", .finish "apply",
      .request "down-3" "t6" (.operation "comparison" (.command .down)) (millis 21000), .start "down-3",
      .complete "clone-1", .heartbeat "down-3" (millis 26000), .finish "clone-1",
      .request "clone-3" "t7" (.clone "catalog") (millis 27000), .start "clone-3"] (by decide +kernel)
  exact ⟨s, hs, of_decide_eq_true hend, works_exclude "daemon" 1 0 (fun _ => none) 2 s hs⟩

/-! ### Where the leases do not exclude -/

/-- Two works under one lock are running. -/
def bothWorking (id id' : String) (s : Inner) : Bool :=
  match s.operations id, s.operations id' with
  | some task, some task' => task.request.mutating && task'.request.mutating &&
      decide (task.request.lockName = task'.request.lockName) && task.phase.working && task'.phase.working
  | _, _ => false

theorem not_exclusive_of_bothWorking {s : Inner} {id id' : String} (hne : id ≠ id')
    (h : bothWorking id id' s = true) : ¬ Exclusive s := by
  intro hex
  unfold bothWorking at h
  split at h
  · rename_i task task' ht ht'
    simp only [Bool.and_eq_true, decide_eq_true_eq] at h
    exact hne (hex id id' task task' ht ht' h.1.1.1.1 h.1.1.1.2 h.1.1.2 h.1.2 h.2)
  · cases h

/-- **The leases alone do not exclude.** A clone that takes longer than the lease overlaps with
the next clone of its source; an apply that waits for a permit longer than the lease overlaps
with the next apply of its deployment. -/
theorem overlapping_work :
    (∃ s, Reaches (step "daemon" 1) (fun _ _ => True) (.initial 0 (fun _ => none) 2) s ∧
      bothWorking "op-1" "op-2" s = true ∧ ¬ Exclusive s) ∧
    ∃ s, Reaches (step "daemon" 1) (fun _ _ => True) (.initial 0 (fun _ => none) 2) s ∧
      bothWorking "op-3" "op-4" s = true ∧ ¬ Exclusive s := by
  constructor
  · obtain ⟨s, hs, hboth⟩ := exists_reaches_of_exec (step "daemon" 1) (.initial 0 (fun _ => none) 2)
      (bothWorking "op-1" "op-2") [
        .request "op-1" "token-1" (.clone "catalog") 0, .start "op-1",
        .request "op-2" "token-2" (.clone "catalog") (millis 15000), .start "op-2"] (by decide)
    exact ⟨s, hs, hboth, not_exclusive_of_bothWorking (by decide) hboth⟩
  · obtain ⟨s, hs, hboth⟩ := exists_reaches_of_exec (step "daemon" 1) (.initial 0 (fun _ => none) 2)
      (bothWorking "op-3" "op-4") [
        .request "op-1" "token-1" (.operation "one" (.command .apply)) 0, .start "op-1",
        .request "op-2" "token-2" (.operation "two" (.command .apply)) 0, .start "op-2",
        .request "op-3" "token-3" (.operation "comparison" (.command .apply)) 0,
        .request "op-4" "token-4" (.operation "comparison" (.command .apply)) (millis 15000),
        .complete "op-1", .complete "op-2", .start "op-3", .start "op-4"] (by decide)
    exact ⟨s, hs, hboth, not_exclusive_of_bothWorking (by decide) hboth⟩

end Apmpr.Daemon.Operations
