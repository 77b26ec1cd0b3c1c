import Apmpr.State.Context
import Apmpr.Lib.Run
import Apmpr.Lib.Text
import Mathlib.Logic.Function.Basic

/-!
# Operation locks

The mutation leases of the crate `apmpr-state`: `acquire_lock`, `heartbeat_lock` and
`release_lock` over the table `operation_locks`, which has one row for each
deployment. Each call is one transaction or one statement, so an interleaving of calls
is a run of the machine `LockSystem.step`; SQLite executes what it is given. The
clock is an argument of every call, and nothing is assumed about it.

A call hands a lock out, changes it or takes it back; the locks that are out are part
of the machine, so that what their holders can still do is a statement about its
states.

## What is proved

`acquireLock_ok_iff`, `heartbeatLock_ok_iff`, `releaseLock_ok_iff` — when each call
succeeds, and `acquireLock_error`, `heartbeatLock_error`, `releaseLock_error` — that
it changes nothing otherwise. `live_same_holder` — the locks of a deployment that can
be renewed all carry the row's owner and token; `live_unique` — so there is one of
them at most when every acquisition brings a token of its own.
-/

namespace Apmpr.State

/-- A row of `operation_locks`. -/
structure LockRow where
  ownerInstance : String
  ownerPid : ℕ
  ownerStartedAt : I64
  token : String
  heartbeatAt : I64
  expiresAt : I64
  deriving DecidableEq

/-- The table, by deployment. -/
abbrev LockTable := String → Option LockRow

/-- A request for a lease. -/
structure LockRequest where
  deployment : String
  owner : String
  pid : ℕ
  processStartedAt : I64
  token : String
  now : I64
  ttlMillis : I64

/-- An acquired lease. -/
structure OperationLock where
  deployment : String
  owner : String
  token : String
  expiresAt : I64
  recovered : Bool
  deriving DecidableEq

/-- The error of a time to live that is not positive. -/
def ttlNotPositive : StateError := .invalidInput "invalid_lock_ttl" "lock TTL must be positive"

/-- The error of an expiry out of range. -/
def expiryOverflow : StateError := .invalidInput "invalid_lock_ttl" "lock expiry overflow"

/-- `validate_id`. -/
def validateId (name value : String) : Except StateError Unit :=
  if Text.isBlank value then .error (.invalidInput "invalid_identifier" s!"{name} cannot be empty") else .ok ()

/-- The checks of a request that do not look at the table; the expiry on success. -/
def LockRequest.check (r : LockRequest) : Except StateError I64 := do
  if r.ttlMillis ≤ 0 then throw ttlNotPositive
  validateId "deployment" r.deployment
  validateId "owner" r.owner
  validateId "token" r.token
  match r.now.checkedAdd r.ttlMillis with
  | none => throw expiryOverflow
  | some expiresAt => return expiresAt

/-- The row a request writes. -/
def LockRequest.row (r : LockRequest) (expiresAt : I64) : LockRow :=
  ⟨r.owner, r.pid, r.processStartedAt, r.token, r.now, expiresAt⟩

/-- The error a row that has not expired makes. -/
def contention (r : LockRequest) : Option LockRow → Option StateError
  | none => none
  | some row =>
    if r.now < row.expiresAt then some (.lockContended r.deployment row.ownerInstance row.expiresAt) else none

/-- `acquire_lock`. -/
def acquireLock (t : LockTable) (r : LockRequest) : LockTable × Except StateError OperationLock :=
  match r.check with
  | .error e => (t, .error e)
  | .ok expiresAt =>
    match contention r (t r.deployment) with
    | some e => (t, .error e)
    | none => (Function.update t r.deployment (some (r.row expiresAt)),
        .ok ⟨r.deployment, r.owner, r.token, expiresAt, (t r.deployment).isSome⟩)

/-- The row of a lock's deployment, where it carries the lock's owner and token. -/
def LockTable.held (t : LockTable) (lock : OperationLock) : Option LockRow :=
  (t lock.deployment).filter fun row => row.ownerInstance = lock.owner && row.token = lock.token

/-- The row a heartbeat updates: the lock's, not expired. -/
def LockTable.renewable (t : LockTable) (lock : OperationLock) (now : I64) : Option LockRow :=
  (t.held lock).filter fun row => now < row.expiresAt

/-- `heartbeat_lock`, with the lock it leaves behind. -/
def heartbeatLock (t : LockTable) (lock : OperationLock) (now ttlMillis : I64) :
    (LockTable × OperationLock) × Except StateError Unit :=
  if ttlMillis ≤ 0 then ((t, lock), .error ttlNotPositive)
  else
    match now.checkedAdd ttlMillis with
    | none => ((t, lock), .error expiryOverflow)
    | some expiresAt =>
      match t.renewable lock now with
      | none => ((t, lock), .error (.lockLost lock.deployment))
      | some row => ((Function.update t lock.deployment (some { row with heartbeatAt := now, expiresAt }),
          { lock with expiresAt }), .ok ())

/-- `release_lock`. -/
def releaseLock (t : LockTable) (lock : OperationLock) : LockTable × Except StateError Unit :=
  match t.held lock with
  | none => (t, .error (.lockLost lock.deployment))
  | some _ => (Function.update t lock.deployment none, .ok ())

/-! ### When a call succeeds -/

variable {t : LockTable} {r : LockRequest} {lock : OperationLock} {now ttlMillis expiresAt : I64} {row : LockRow}

theorem LockTable.held_eq_some_iff :
    t.held lock = some row ↔
      t lock.deployment = some row ∧ row.ownerInstance = lock.owner ∧ row.token = lock.token := by
  simp [LockTable.held, Option.filter_eq_some_iff]

theorem LockTable.renewable_eq_some_iff :
    t.renewable lock now = some row ↔ t.held lock = some row ∧ now < row.expiresAt := by
  simp [LockTable.renewable, Option.filter_eq_some_iff]

/-- A request is in order: a positive time to live, nothing blank, and an expiry in range. -/
def LockRequest.WellFormed (r : LockRequest) : Prop :=
  0 < r.ttlMillis ∧ Text.isBlank r.deployment = false ∧ Text.isBlank r.owner = false ∧
    Text.isBlank r.token = false ∧ ∃ expiresAt, r.now.checkedAdd r.ttlMillis = some expiresAt

theorem validateId_ok_iff {name value : String} : validateId name value = .ok () ↔ Text.isBlank value = false := by
  unfold validateId
  cases Text.isBlank value <;> simp

theorem LockRequest.check_ok_iff : r.check = .ok expiresAt ↔
    0 < r.ttlMillis ∧ Text.isBlank r.deployment = false ∧ Text.isBlank r.owner = false ∧
      Text.isBlank r.token = false ∧ r.now.checkedAdd r.ttlMillis = some expiresAt := by
  by_cases httl : r.ttlMillis ≤ 0
  · have : ¬ 0 < r.ttlMillis := by
      rw [I64.lt_def]
      rw [I64.le_def] at httl
      omega
    simp only [LockRequest.check, httl, this, if_true, false_and, iff_false]
    intro h
    cases h
  · have : 0 < r.ttlMillis := by
      rw [I64.lt_def]
      rw [I64.le_def] at httl
      omega
    simp only [LockRequest.check, httl, this, if_false, true_and, validateId]
    cases Text.isBlank r.deployment <;> cases Text.isBlank r.owner <;> cases Text.isBlank r.token <;>
      cases r.now.checkedAdd r.ttlMillis <;> simp [bind, Except.bind, pure, Except.pure, throw, throwThe, MonadExceptOf.throw]

theorem contention_eq_none_iff :
    contention r (t r.deployment) = none ↔ ∀ row, t r.deployment = some row → row.expiresAt ≤ r.now := by
  cases t r.deployment with
  | none => simp [contention]
  | some row => simp [contention, I64.not_lt]

/-- **All an acquisition can do**: fail and change nothing, or write its row. -/
theorem acquireLock_cases (t : LockTable) (r : LockRequest) :
    (∃ e, acquireLock t r = (t, .error e)) ∨
    ∃ expiresAt, r.now.checkedAdd r.ttlMillis = some expiresAt ∧
      acquireLock t r = (Function.update t r.deployment (some (r.row expiresAt)),
        .ok ⟨r.deployment, r.owner, r.token, expiresAt, (t r.deployment).isSome⟩) := by
  unfold acquireLock
  cases hc : r.check with
  | error e => exact Or.inl ⟨e, rfl⟩
  | ok expiresAt =>
    cases hrow : contention r (t r.deployment) with
    | some e => exact Or.inl ⟨e, rfl⟩
    | none => exact Or.inr ⟨expiresAt, (LockRequest.check_ok_iff.mp hc).2.2.2.2, rfl⟩

/-- **An acquisition succeeds** exactly when it is in order and no lease is in its way. -/
theorem acquireLock_ok_iff : (∃ lock, (acquireLock t r).2 = .ok lock) ↔
    r.WellFormed ∧ ∀ row, t r.deployment = some row → row.expiresAt ≤ r.now := by
  unfold acquireLock
  rw [← contention_eq_none_iff]
  cases hc : r.check with
  | error e =>
    simp only [reduceCtorEq, exists_false, false_iff]
    rintro ⟨⟨httl, hd, ho, ht, expiresAt, hadd⟩, -⟩
    rw [LockRequest.check_ok_iff.mpr ⟨httl, hd, ho, ht, hadd⟩] at hc
    cases hc
  | ok expiresAt =>
    obtain ⟨httl, hd, ho, ht, hadd⟩ := LockRequest.check_ok_iff.mp hc
    have hwf : r.WellFormed := ⟨httl, hd, ho, ht, expiresAt, hadd⟩
    cases contention r (t r.deployment) <;> simp [hwf]

theorem acquireLock_error {e : StateError} (h : (acquireLock t r).2 = .error e) : (acquireLock t r).1 = t := by
  rcases acquireLock_cases t r with ⟨e', heq⟩ | ⟨expiresAt, -, heq⟩
  · rw [heq]
  · rw [heq] at h
    cases h

/-- **All a heartbeat can do**: fail and change nothing, or move the expiry of its own row. -/
theorem heartbeatLock_cases (t : LockTable) (lock : OperationLock) (now ttlMillis : I64) :
    (∃ e, heartbeatLock t lock now ttlMillis = ((t, lock), .error e)) ∨
    ∃ row expiresAt, t.held lock = some row ∧ now < row.expiresAt ∧ 0 < ttlMillis ∧
      now.checkedAdd ttlMillis = some expiresAt ∧
      heartbeatLock t lock now ttlMillis =
        ((Function.update t lock.deployment (some { row with heartbeatAt := now, expiresAt }),
          { lock with expiresAt }), .ok ()) := by
  unfold heartbeatLock
  split
  · exact Or.inl ⟨_, rfl⟩
  · rename_i httl
    cases hadd : now.checkedAdd ttlMillis with
    | none => exact Or.inl ⟨_, rfl⟩
    | some expiresAt =>
      cases hrow : t.renewable lock now with
      | none => exact Or.inl ⟨_, rfl⟩
      | some row =>
        obtain ⟨hheld, hlt⟩ := LockTable.renewable_eq_some_iff.mp hrow
        refine Or.inr ⟨row, expiresAt, hheld, hlt, ?_, rfl, rfl⟩
        rw [I64.lt_def]
        rw [I64.le_def] at httl
        omega

/-- A heartbeat that succeeds finds its own row, not expired. -/
theorem held_of_heartbeatLock_ok (h : (heartbeatLock t lock now ttlMillis).2 = .ok ()) :
    ∃ row, t.held lock = some row ∧ now < row.expiresAt := by
  rcases heartbeatLock_cases t lock now ttlMillis with ⟨e, heq⟩ | ⟨row, expiresAt, hheld, hlt, -, -, -⟩
  · rw [heq] at h
    cases h
  · exact ⟨row, hheld, hlt⟩

theorem heartbeatLock_error {e : StateError} (h : (heartbeatLock t lock now ttlMillis).2 = .error e) :
    (heartbeatLock t lock now ttlMillis).1 = (t, lock) := by
  rcases heartbeatLock_cases t lock now ttlMillis with ⟨e', heq⟩ | ⟨row, expiresAt, -, -, -, -, heq⟩
  · rw [heq]
  · rw [heq] at h
    cases h

/-- **All a release can do**: fail and change nothing, or delete its own row. -/
theorem releaseLock_cases (t : LockTable) (lock : OperationLock) :
    (t.held lock = none ∧ ∃ e, releaseLock t lock = (t, .error e)) ∨
    ((t.held lock).isSome ∧ releaseLock t lock = (Function.update t lock.deployment none, .ok ())) := by
  unfold releaseLock
  cases hheld : t.held lock with
  | none => exact Or.inl ⟨rfl, _, rfl⟩
  | some row => exact Or.inr ⟨rfl, rfl⟩

theorem releaseLock_error {e : StateError} (h : (releaseLock t lock).2 = .error e) :
    (releaseLock t lock).1 = t := by
  rcases releaseLock_cases t lock with ⟨-, e', heq⟩ | ⟨-, heq⟩
  · rw [heq]
  · rw [heq] at h
    cases h

/-! ### What a call does to the leases of others -/

theorem LockTable.held_update_of_ne {d : String} (h : lock.deployment ≠ d) (x : Option LockRow) :
    LockTable.held (Function.update t d x) lock = t.held lock := by
  simp only [LockTable.held, Function.update_of_ne h]

/-- A lease that was acquired is held. -/
theorem held_of_acquireLock {t' : LockTable} (h : acquireLock t r = (t', .ok lock)) :
    (lock.deployment = r.deployment ∧ lock.owner = r.owner ∧ lock.token = r.token) ∧
      ∃ row, t'.held lock = some row := by
  rcases acquireLock_cases t r with ⟨e, heq⟩ | ⟨expiresAt, -, heq⟩
  · rw [heq, Prod.mk.injEq] at h
    cases h.2
  · rw [heq, Prod.mk.injEq] at h
    obtain ⟨rfl, hlock⟩ := h
    obtain rfl := Except.ok.inj hlock
    exact ⟨⟨rfl, rfl, rfl⟩, r.row expiresAt, LockTable.held_eq_some_iff.mpr ⟨Function.update_self .., rfl, rfl⟩⟩

/-- An acquisition touches its own deployment only. -/
theorem held_acquireLock (h : lock.deployment ≠ r.deployment) : (acquireLock t r).1.held lock = t.held lock := by
  rcases acquireLock_cases t r with ⟨e, heq⟩ | ⟨expiresAt, -, heq⟩
  · rw [heq]
  · simp only [heq, LockTable.held_update_of_ne h]

/-- A heartbeat takes no lease from anyone. -/
theorem held_heartbeatLock {lock' : OperationLock} (h : t.held lock = some row) :
    ∃ row', (heartbeatLock t lock' now ttlMillis).1.1.held lock = some row' := by
  rcases heartbeatLock_cases t lock' now ttlMillis with ⟨e, heq⟩ | ⟨row', expiresAt, hheld, -, -, -, heq⟩
  · rw [heq]
    exact ⟨row, h⟩
  · by_cases hd : lock.deployment = lock'.deployment
    · -- one row for both: its owner and its token stay
      obtain ⟨hrow, howner, htoken⟩ := LockTable.held_eq_some_iff.mp h
      rw [hd, (LockTable.held_eq_some_iff.mp hheld).1] at hrow
      obtain rfl := Option.some.inj hrow
      refine ⟨{ row' with heartbeatAt := now, expiresAt }, LockTable.held_eq_some_iff.mpr ⟨?_, howner, htoken⟩⟩
      rw [heq, hd]
      exact Function.update_self ..
    · refine ⟨row, ?_⟩
      simp only [heq, LockTable.held_update_of_ne hd]
      exact h

/-- A release takes no lease from the holder of another token. -/
theorem held_releaseLock {lock' : OperationLock} (h : t.held lock = some row) (hne : lock.token ≠ lock'.token) :
    (releaseLock t lock').1.held lock = some row := by
  rcases releaseLock_cases t lock' with ⟨-, e, heq⟩ | ⟨hsome, heq⟩
  · rwa [heq]
  · have hd : lock.deployment ≠ lock'.deployment := by
      intro hd
      obtain ⟨row', hheld⟩ := Option.isSome_iff_exists.mp hsome
      obtain ⟨hrow, -, htoken⟩ := LockTable.held_eq_some_iff.mp h
      obtain ⟨hrow', -, htoken'⟩ := LockTable.held_eq_some_iff.mp hheld
      rw [hd, hrow'] at hrow
      obtain rfl := Option.some.inj hrow
      exact hne (htoken.symm.trans htoken')
    simp only [heq, LockTable.held_update_of_ne hd]
    exact h

/-! ### The locks that are out -/

/-- The table and the locks that are out, in the order they were handed out. -/
structure LockSystem where
  table : LockTable
  locks : List OperationLock

/-- No rows and no locks. -/
def LockSystem.empty : LockSystem := ⟨fun _ => none, []⟩

/-- One call; the holder of the lock with a given index renews it or gives it back. -/
inductive LockCall where
  | acquire (request : LockRequest)
  | heartbeat (index : ℕ) (now ttlMillis : I64)
  | release (index : ℕ)

/-- One call on the system, and how it is answered; `none` where no such lock is out. -/
def LockSystem.step (s : LockSystem) : LockCall → LockSystem × Option (Except StateError Unit)
  | .acquire r =>
    match acquireLock s.table r with
    | (table, .ok lock) => (⟨table, s.locks ++ [lock]⟩, some (.ok ()))
    | (table, .error e) => (⟨table, s.locks⟩, some (.error e))
  | .heartbeat index now ttlMillis =>
    match s.locks[index]? with
    | none => (s, none)
    | some lock =>
      match heartbeatLock s.table lock now ttlMillis with
      | ((table, lock'), answer) => (⟨table, s.locks.set index lock'⟩, some answer)
  | .release index =>
    match s.locks[index]? with
    | none => (s, none)
    | some lock =>
      match releaseLock s.table lock with
      | (table, answer) => (⟨table, s.locks.eraseIdx index⟩, some answer)

/-- What a lock's holder proves itself with. -/
def OperationLock.holder (lock : OperationLock) : String × String := (lock.owner, lock.token)

/-- Some heartbeat of the lock could succeed. -/
def OperationLock.Live (t : LockTable) (lock : OperationLock) : Prop :=
  ∃ now ttlMillis, (heartbeatLock t lock now ttlMillis).2 = .ok ()

/-- A lock that is live carries the owner and the token of the row. -/
theorem OperationLock.Live.held (h : lock.Live t) :
    ∃ row, t lock.deployment = some row ∧ lock.holder = (row.ownerInstance, row.token) := by
  obtain ⟨now, ttlMillis, hok⟩ := h
  obtain ⟨row, hheld, -⟩ := held_of_heartbeatLock_ok hok
  obtain ⟨hrow, howner, htoken⟩ := LockTable.held_eq_some_iff.mp hheld
  exact ⟨row, hrow, by rw [OperationLock.holder, howner, htoken]⟩

/-- **The live locks of a deployment have one holder.** -/
theorem live_same_holder {lock' : OperationLock} (hd : lock.deployment = lock'.deployment)
    (h : lock.Live t) (h' : lock'.Live t) : lock.holder = lock'.holder := by
  obtain ⟨row, hrow, hholder⟩ := h.held
  obtain ⟨row', hrow', hholder'⟩ := h'.held
  rw [hd, hrow'] at hrow
  obtain rfl := Option.some.inj hrow
  rw [hholder, hholder']

/-- What the acquisitions of a run prove themselves with. -/
def acquisitions (calls : List LockCall) : List (String × String) :=
  calls.filterMap fun c =>
    match c with
    | .acquire r => some (r.owner, r.token)
    | _ => none

/-- One call hands out a lock of the acquisition's own, or none; it never changes a holder. -/
theorem holders_step (s : LockSystem) (c : LockCall) :
    ((s.step c).1.locks.map OperationLock.holder).Sublist
      (s.locks.map OperationLock.holder ++ acquisitions [c]) := by
  cases c with
  | acquire r =>
    rcases acquireLock_cases s.table r with ⟨e, heq⟩ | ⟨expiresAt, -, heq⟩
    · simp [LockSystem.step, heq]
    · simp [LockSystem.step, heq, acquisitions, OperationLock.holder]
  | heartbeat index now ttlMillis =>
    simp only [LockSystem.step, acquisitions, List.filterMap_cons, List.filterMap_nil, List.append_nil]
    cases hlock : s.locks[index]? with
    | none => simp
    | some lock =>
      have hholder : (heartbeatLock s.table lock now ttlMillis).1.2.holder = lock.holder := by
        rcases heartbeatLock_cases s.table lock now ttlMillis with ⟨e, heq⟩ | ⟨row, expiresAt, -, -, -, -, heq⟩
        · rw [heq]
        · rw [heq]
          rfl
      obtain ⟨hi, rfl⟩ := List.getElem?_eq_some_iff.mp hlock
      have hsame : (s.locks.map OperationLock.holder).set index s.locks[index].holder =
          s.locks.map OperationLock.holder := by
        rw [← List.getElem_map OperationLock.holder (h := by simpa using hi), List.set_getElem_self]
      simp only [List.map_set, hholder, hsame, List.Sublist.refl]
  | release index =>
    simp only [LockSystem.step, acquisitions, List.filterMap_cons, List.filterMap_nil, List.append_nil]
    cases hlock : s.locks[index]? with
    | none => simp
    | some lock => exact (List.eraseIdx_sublist ..).map _

/-- The locks that are out are the acquisitions' own, in order. -/
theorem holders_sublist (calls : List LockCall) :
    ((after LockSystem.step .empty calls).locks.map OperationLock.holder).Sublist (acquisitions calls) := by
  induction calls using List.reverseRecOn with
  | nil => exact List.Sublist.refl _
  | append_singleton calls c ih =>
    rw [after_concat, acquisitions, List.filterMap_append]
    exact (holders_step _ c).trans (ih.append (List.Sublist.refl _))

/-- **One live lock**: where every acquisition brings an owner and a token of its own, at most
one of a deployment's locks that are out is live. -/
theorem live_unique {calls : List LockCall} (hdistinct : (acquisitions calls).Nodup) {i j : ℕ}
    {lock lock' : OperationLock} (hi : (after LockSystem.step .empty calls).locks[i]? = some lock)
    (hj : (after LockSystem.step .empty calls).locks[j]? = some lock')
    (hd : lock.deployment = lock'.deployment) (h : lock.Live (after LockSystem.step .empty calls).table)
    (h' : lock'.Live (after LockSystem.step .empty calls).table) : i = j := by
  have hnodup := (holders_sublist calls).nodup hdistinct
  have hsame := live_same_holder hd h h'
  have hi' : ((after LockSystem.step .empty calls).locks.map OperationLock.holder)[i]? = some lock.holder := by
    rw [List.getElem?_map, hi, Option.map_some]
  have hj' : ((after LockSystem.step .empty calls).locks.map OperationLock.holder)[j]? = some lock.holder := by
    rw [List.getElem?_map, hj, Option.map_some, hsame]
  obtain ⟨hlen, -⟩ := List.getElem?_eq_some_iff.mp hi'
  exact (List.getElem?_inj hlen hnodup).mp (hi'.trans hj'.symm)

/-- **The lease protocol is safe**, for any interleaving of calls and any clocks. -/
theorem lease_protocol (calls : List LockCall) :
    let s := after LockSystem.step .empty calls
    -- an acquisition that is in order succeeds exactly when no lease is in its way
    (∀ r, (∃ lock, (acquireLock s.table r).2 = .ok lock) ↔
      r.WellFormed ∧ ∀ row, s.table r.deployment = some row → row.expiresAt ≤ r.now) ∧
    -- a holder whose owner and token are not the row's fails and changes nothing
    (∀ lock, s.table.held lock = none →
      (∀ now ttlMillis, (∃ e, (heartbeatLock s.table lock now ttlMillis).2 = .error e) ∧
        (heartbeatLock s.table lock now ttlMillis).1 = (s.table, lock)) ∧
      (∃ e, (releaseLock s.table lock).2 = .error e) ∧ (releaseLock s.table lock).1 = s.table) ∧
    -- so does a heartbeat at or after the expiry
    (∀ lock row now ttlMillis, s.table lock.deployment = some row → row.expiresAt ≤ now →
      (∃ e, (heartbeatLock s.table lock now ttlMillis).2 = .error e) ∧
        (heartbeatLock s.table lock now ttlMillis).1 = (s.table, lock)) ∧
    -- a call that fails changes no row
    (∀ r e, (acquireLock s.table r).2 = .error e → (acquireLock s.table r).1 = s.table) ∧
    (∀ lock now ttlMillis e, (heartbeatLock s.table lock now ttlMillis).2 = .error e →
      (heartbeatLock s.table lock now ttlMillis).1.1 = s.table) ∧
    (∀ lock e, (releaseLock s.table lock).2 = .error e → (releaseLock s.table lock).1 = s.table) ∧
    -- the live locks of a deployment have one holder, and are one where the holders are distinct
    (∀ lock ∈ s.locks, ∀ lock' ∈ s.locks, lock.deployment = lock'.deployment → lock.Live s.table →
      lock'.Live s.table → lock.holder = lock'.holder) ∧
    ((acquisitions calls).Nodup → ∀ (i j : ℕ) (lock lock' : OperationLock), s.locks[i]? = some lock → s.locks[j]? = some lock' →
      lock.deployment = lock'.deployment → lock.Live s.table → lock'.Live s.table → i = j) := by
  intro s
  have hfails : ∀ lock now ttlMillis,
      (∀ row, s.table.held lock = some row → row.expiresAt ≤ now) →
      (∃ e, (heartbeatLock s.table lock now ttlMillis).2 = .error e) ∧
        (heartbeatLock s.table lock now ttlMillis).1 = (s.table, lock) := by
    intro lock now ttlMillis hnone
    rcases heartbeatLock_cases s.table lock now ttlMillis with ⟨e, heq⟩ | ⟨row, expiresAt, hheld, hlt, -, -, -⟩
    · rw [heq]
      exact ⟨⟨e, rfl⟩, rfl⟩
    · exact absurd (hnone row hheld) (by rw [I64.le_def]; rw [I64.lt_def] at hlt; omega)
  refine ⟨fun r => acquireLock_ok_iff, fun lock hnone => ⟨fun now ttlMillis => ?_, ?_⟩, ?_, ?_, ?_, ?_, ?_, ?_⟩
  · exact hfails lock now ttlMillis fun row hrow => by rw [hnone] at hrow; cases hrow
  · rcases releaseLock_cases s.table lock with ⟨-, e, heq⟩ | ⟨hsome, -⟩
    · rw [heq]
      exact ⟨⟨e, rfl⟩, rfl⟩
    · rw [hnone] at hsome
      cases hsome
  · intro lock row now ttlMillis hrow hle
    refine hfails lock now ttlMillis fun row' hheld => ?_
    have hrow' := (LockTable.held_eq_some_iff.mp hheld).1
    rw [hrow] at hrow'
    rwa [← Option.some.inj hrow']
  · exact fun r e => acquireLock_error
  · intro lock now ttlMillis e herror
    rw [heartbeatLock_error herror]
  · exact fun lock e => releaseLock_error
  · exact fun lock _ lock' _ hd h h' => live_same_holder hd h h'
  · exact fun hdistinct i j lock lock' hi hj hd h h' => live_unique hdistinct hi hj hd h h'

/-- Without a row an acquisition may still fail: by its time to live. -/
theorem acquire_fails_without_row :
    ¬ ∀ (calls : List LockCall) (r : LockRequest),
      (∃ lock, (acquireLock (after LockSystem.step .empty calls).table r).2 = .ok lock) ↔
        ((after LockSystem.step .empty calls).table r.deployment = none ∨
          ∃ row, (after LockSystem.step .empty calls).table r.deployment = some row ∧ row.expiresAt ≤ r.now) := by
  intro h
  obtain ⟨lock, hlock⟩ := (h [] ⟨"comparison", "cli", 42, 0, "token", 0, 0⟩).mpr (Or.inl rfl)
  cases hlock

end Apmpr.State
