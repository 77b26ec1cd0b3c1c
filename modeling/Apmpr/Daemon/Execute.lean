import Apmpr.Daemon.Operations
import Apmpr.State.History
import Apmpr.State.RouterApply

/-!
# Recording the attempts of a live binding

`execute_operation` of the crate `apmpr-daemon`, from the permit to `finish_operation`: the
backend's work is waited for while heartbeats renew the lease, a successful work has its
bundle recorded as applied, and the attempts of a live binding are written to the router
tables, one `record_router_apply` after another.

When the attempts are stored the routers have already moved. What happens after the work
still decides whether they are stored: a failing `persist_applied_snapshot` replaces the
outcome, and the attempts with it, and the first record that fails ends the loop. A lost
lease does neither.

What the backend answers, the heartbeat that finds the lease lost, the answer of
`persist_applied_snapshot` (which writes other tables) and the transactions that fail are
the surroundings of a call.

## What is proved

`recordAttempts_iff` — the loop stores every attempt that would be accepted exactly
where none of them comes after one that is rejected.
`attemptsRecorded_iff` — an operation stores them exactly where, in addition, the applied
bundle is recorded when it has to be.
-/

namespace Apmpr.Daemon.Execute

open LiveBinding (ApiErrorV1 CommandResultV1 RouterApplyRecord)
open Operations (CommandKind OperationInvocation StructuredCommand)
open State

/-- `BackendOutcome`. -/
inductive BackendOutcome where
  | completed (result : CommandResultV1)
  | cancelled (result : CommandResultV1)
  | liveBinding (result : CommandResultV1) (attempts : List RouterApplyRecord)

/-- What an operation meets: whether it is given its permit before it is cancelled, what the
backend answers, the error of the heartbeat that fails while the work is running, what
`persist_applied_snapshot` answers, and the attempts whose transaction SQLite fails. -/
structure Surroundings where
  permit : Bool
  work : Except ApiErrorV1 BackendOutcome
  heartbeat : Option StateError
  persistAppliedSnapshot : Except ApiErrorV1 Unit
  recordFails : ℕ → Bool
  sqlite : ApplyError → String

/-- What `finish_operation` is called with. -/
structure Finish where
  status : OperationStatus
  result : Option CommandResultV1
  error : Option ApiErrorV1

/-- `ApiErrorV1::new(error.code(), error.to_string())`. -/
def stateError (error : StateError) : ApiErrorV1 := ⟨error.code, error.display⟩

/-- The same of a rejected record; the database's own text is a part of it. -/
def applyError (sqlite : ApplyError → String) : ApplyError → ApiErrorV1
  | .invalid error => stateError error
  | error => ⟨"state_sqlite", s!"SQLite state error: {sqlite error}"⟩

/-- Whether an operation has a `persistence_bundle`. -/
def persists : OperationInvocation → Bool
  | .command kind => kind = .apply || kind = .membership
  | .structuredAction command => command = .up
  | .shellAction | .membershipAction => false

/-- Whether an outcome is one of a work that ended with exit code 0. -/
def succeeded : Except ApiErrorV1 BackendOutcome → Bool
  | .ok (.completed result) => result.exitCode = 0
  | .ok (.liveBinding result _) => result.exitCode = 0
  | .ok (.cancelled _) | .error _ => false

/-- The heartbeats are sent by an operation that holds a lease. -/
def lockLost (env : Surroundings) (invocation : OperationInvocation) : Option ApiErrorV1 :=
  if invocation.mutating then env.heartbeat.map stateError else none

/-- The outcome after `persist_applied_snapshot`, which is called for a successful work. -/
def persisted (env : Surroundings) (invocation : OperationInvocation) : Except ApiErrorV1 BackendOutcome :=
  let successfulApply := (lockLost env invocation).isNone && succeeded env.work
  if successfulApply && persists invocation then
    match env.persistAppliedSnapshot with
    | .error error => .error error
    | .ok () => env.work
  else env.work

/-- `attempts.iter().try_for_each(|attempt| store.record_router_apply(attempt))`. -/
def recordAttempts (store : RouterStore) : List (RouterApplyRecord × Bool) → RouterStore × Except ApplyError Unit
  | [] => (store, .ok ())
  | call :: rest =>
    match applyStep store call with
    | (store, .ok ()) => recordAttempts store rest
    | (store, .error error) => (store, .error error)

/-- The calls of `record_router_apply` for a list of attempts. -/
def recordCalls (env : Surroundings) (attempts : List RouterApplyRecord) : List (RouterApplyRecord × Bool) :=
  attempts.zipIdx.map fun attempt => (attempt.1, env.recordFails attempt.2)

/-- How an operation ends that was cancelled before its permit. -/
def operationCancelled : ApiErrorV1 := ⟨"operation_cancelled", "operation was cancelled"⟩

/-- The end of an operation whose attempts have been recorded. -/
def finishBinding (lost persistence : Option ApiErrorV1) (result : CommandResultV1) : Finish :=
  match lost.or persistence with
  | some error => ⟨.failed, some result, some error⟩
  | none =>
    if result.exitCode = 0 then ⟨.succeeded, some result, none⟩
    else ⟨.failed, some result, some ⟨"router_apply_failed", "live binding change failed"⟩⟩

/-- `execute_operation`: the router tables it leaves, and how it finishes. -/
def executeOperation (env : Surroundings) (invocation : OperationInvocation) (store : RouterStore) :
    RouterStore × Finish :=
  if invocation.heavy && !env.permit then (store, ⟨.cancelled, none, some operationCancelled⟩)
  else
    let lost := lockLost env invocation
    match persisted env invocation with
    | .ok (.liveBinding result attempts) =>
      match recordAttempts store (recordCalls env attempts) with
      | (store, .ok ()) => (store, finishBinding lost none result)
      | (store, .error error) => (store, finishBinding lost (some (applyError env.sqlite error)) result)
    | .ok (.completed result) =>
      if result.exitCode = 0 && lost.isNone then (store, ⟨.succeeded, some result, none⟩)
      else (store, ⟨.failed, some result, lost.or (some ⟨"command_failed", "apmpr command failed"⟩)⟩)
    | .ok (.cancelled result) =>
      if lost.isNone then (store, ⟨.cancelled, some result, some operationCancelled⟩)
      else (store, ⟨.failed, some result, lost⟩)
    | .error error => (store, ⟨.failed, none, some error⟩)

/-! ### What the tables are to hold -/

/-- The row of a binding after records for it have been stored, in order. -/
def rowAfter (row : Option BindingRow) (records : List RouterApplyRecord) : Option BindingRow :=
  records.foldl (fun row record => some (upsertRow row record)) row

/-- The row of a binding says which version its router runs: that of the last record that
activated one, or still the one it had. -/
structure Reflects (records : List RouterApplyRecord) (old row : Option BindingRow) : Prop where
  activated : ∀ before record later, records = before ++ record :: later → activates record = true →
    (∀ r ∈ later, activates r = false) →
    ∃ stored, row = some stored ∧ stored.currentVersion = some record.version ∧
      stored.currentChecksum = some record.checksum
  kept : (∀ r ∈ records, activates r = false) → ∀ earlier, old = some earlier →
    ∃ stored, row = some stored ∧
      (earlier.currentVersion.isSome = true → stored.currentVersion = earlier.currentVersion) ∧
      (earlier.currentChecksum.isSome = true → stored.currentChecksum = earlier.currentChecksum)

/-- Every attempt whose own record would be accepted has been recorded, in order, and the
current version of every binding reflects them. -/
structure AttemptsRecorded (store final : RouterStore) (calls : List (RouterApplyRecord × Bool)) : Prop where
  history : final.history = store.history ++ (acceptedRecords store calls).map snapshotRow
  current : ∀ key, Reflects (recordsOf key (acceptedRecords store calls)) (store.bindings.get? key)
    (final.bindings.get? key)

/-- The tables reject the call. -/
def Rejects (store : RouterStore) (call : RouterApplyRecord × Bool) : Prop := ∃ error, (applyStep store call).2 = .error error

/-- No attempt that is accepted comes after one that is rejected. -/
def NoneAfterRejected (store : RouterStore) (calls : List (RouterApplyRecord × Bool)) : Prop :=
  ∀ before call later, calls = before ++ call :: later → Rejects (after applyStep store before) call →
    acceptedRecords (after applyStep store before) later = []

/-- `persist_applied_snapshot` is called, and fails. -/
def PersistFails (env : Surroundings) (invocation : OperationInvocation) (result : CommandResultV1) : Prop :=
  lockLost env invocation = none ∧ result.exitCode = 0 ∧ persists invocation = true ∧
    ∃ error, env.persistAppliedSnapshot = .error error

/-! ### The records of a run -/

section
variable {store : RouterStore} {call : RouterApplyRecord × Bool} {calls : List (RouterApplyRecord × Bool)}

/-- A call is rejected and changes nothing, or is accepted and stored. -/
theorem applyStep_cases (store : RouterStore) (call : RouterApplyRecord × Bool) :
    (∃ error, applyStep store call = (store, .error error)) ∨
      applyStep store call =
        (⟨store.bindings.insert (recordKey call.1) (upsertRow (store.bindings.get? (recordKey call.1)) call.1),
          store.history ++ [snapshotRow call.1]⟩, .ok ()) :=
  recordRouterApply_cases store call.1 call.2

theorem acceptedRecords_append (before later : List (RouterApplyRecord × Bool)) :
    acceptedRecords store (before ++ later) =
      acceptedRecords store before ++ acceptedRecords (after applyStep store before) later := by
  induction before generalizing store with
  | nil => rfl
  | cons call rest ih =>
    rw [List.cons_append, acceptedRecords, acceptedRecords, after_cons]
    cases (applyStep store call).2 with
    | ok _ => exact congrArg (call.1 :: ·) ih
    | error _ => exact ih

theorem history_after : (after applyStep store calls).history = store.history ++ (acceptedRecords store calls).map snapshotRow := by
  induction calls generalizing store with
  | nil => exact (List.append_nil _).symm
  | cons call rest ih =>
    rw [after_cons, acceptedRecords, ih]
    rcases applyStep_cases store call with ⟨error, hstep⟩ | hstep
    · rw [hstep]
    · rw [hstep]
      exact List.append_assoc ..

theorem rowAfter_append (row : Option BindingRow) (before later : List RouterApplyRecord) :
    rowAfter row (before ++ later) = rowAfter (rowAfter row before) later :=
  List.foldl_append ..

/-- Every binding's row is the one its accepted records make. -/
theorem get?_after (key : BindingKey) :
    (after applyStep store calls).bindings.get? key =
      rowAfter (store.bindings.get? key) (recordsOf key (acceptedRecords store calls)) := by
  induction calls generalizing store with
  | nil => rfl
  | cons call rest ih =>
    rw [after_cons, acceptedRecords, ih]
    rcases applyStep_cases store call with ⟨error, hstep⟩ | hstep
    · rw [hstep]
    · rw [hstep]
      by_cases hkey : recordKey call.1 = key
      · subst hkey
        simp [recordsOf, rowAfter, SortedMap.get?_insert]
      · simp [recordsOf, SortedMap.get?_insert, hkey, Ne.symm hkey]

/-- Records that do not activate leave what is current. -/
theorem rowAfter_of_not_activates {records : List RouterApplyRecord} (h : ∀ r ∈ records, activates r = false)
    (row : BindingRow) :
    ∃ stored, rowAfter (some row) records = some stored ∧
      (row.currentVersion.isSome = true → stored.currentVersion = row.currentVersion) ∧
      (row.currentChecksum.isSome = true → stored.currentChecksum = row.currentChecksum) := by
  induction records generalizing row with
  | nil => exact ⟨row, rfl, fun _ => rfl, fun _ => rfl⟩
  | cons record rest ih =>
    obtain ⟨hrecord, hrest⟩ := List.forall_mem_cons.mp h
    obtain ⟨stored, hstored, hversion, hchecksum⟩ := ih hrest (upsertRow (some row) record)
    refine ⟨stored, hstored, fun hset => ?_, fun hset => ?_⟩
    · obtain ⟨version, hsome⟩ := Option.isSome_iff_exists.mp hset
      have hcurrent : (upsertRow (some row) record).currentVersion = some version := by
        simp [upsertRow, hrecord, hsome]
      rw [hversion (by rw [hcurrent]; rfl), hcurrent, hsome]
    · obtain ⟨checksum, hsome⟩ := Option.isSome_iff_exists.mp hset
      have hcurrent : (upsertRow (some row) record).currentChecksum = some checksum := by
        simp [upsertRow, hrecord, hsome]
      rw [hchecksum (by rw [hcurrent]; rfl), hcurrent, hsome]

theorem reflects_rowAfter (records : List RouterApplyRecord) (old : Option BindingRow) :
    Reflects records old (rowAfter old records) where
  activated := by
    rintro before record later rfl hact hlater
    rw [rowAfter_append]
    obtain ⟨stored, hstored, hversion, hchecksum⟩ :=
      rowAfter_of_not_activates hlater (upsertRow (rowAfter old before) record)
    have hcurrent : (upsertRow (rowAfter old before) record).currentVersion = some record.version := by
      simp [upsertRow, hact]
    have hsum : (upsertRow (rowAfter old before) record).currentChecksum = some record.checksum := by
      simp [upsertRow, hact]
    refine ⟨stored, hstored, ?_, ?_⟩
    · rw [hversion (by rw [hcurrent]; rfl), hcurrent]
    · rw [hchecksum (by rw [hsum]; rfl), hsum]
  kept := by
    rintro hnone earlier rfl
    exact rowAfter_of_not_activates hnone earlier

/-- A run of all the calls stores what would be accepted. -/
theorem attemptsRecorded_after (store : RouterStore) (calls : List (RouterApplyRecord × Bool)) :
    AttemptsRecorded store (after applyStep store calls) calls where
  history := history_after
  current key := by
    rw [get?_after]
    exact reflects_rowAfter _ _

/-! ### The loop -/

theorem recordAttempts_cons_error {error : ApplyError} (h : applyStep store call = (store, .error error)) :
    recordAttempts store (call :: calls) = (store, .error error) := by
  rw [recordAttempts, h]

theorem recordAttempts_cons_ok {next : RouterStore} (h : applyStep store call = (next, .ok ())) :
    recordAttempts store (call :: calls) = recordAttempts next calls := by
  rw [recordAttempts, h]

/-- Nothing is accepted after a run none of whose calls is. -/
theorem acceptedRecords_later {before later : List (RouterApplyRecord × Bool)}
    (h : acceptedRecords store (before ++ later) = []) :
    acceptedRecords (after applyStep store before) later = [] := by
  rw [acceptedRecords_append] at h
  exact (List.append_eq_nil_iff.mp h).2

theorem acceptedRecords_eq_nil_iff : acceptedRecords store calls = [] ↔ ∀ call ∈ calls, Rejects store call := by
  induction calls with
  | nil => simp [acceptedRecords]
  | cons call rest ih =>
    rw [List.forall_mem_cons, acceptedRecords]
    rcases applyStep_cases store call with ⟨error, hstep⟩ | hstep
    · have hrejects : Rejects store call := ⟨error, by rw [hstep]⟩
      rw [hstep]
      simpa only [hrejects, true_and] using ih
    · have haccepts : ¬Rejects store call := by
        rintro ⟨error, herror⟩
        rw [hstep] at herror
        cases herror
      rw [hstep]
      simp [haccepts]

theorem after_of_nil (h : acceptedRecords store calls = []) : after applyStep store calls = store := by
  refine after_of_quiet ?_
  rintro before call later rfl
  rcases applyStep_cases (after applyStep store before) call with ⟨error, hstep⟩ | hstep
  · rw [hstep]
  · have hlater := acceptedRecords_later h
    rw [acceptedRecords, hstep] at hlater
    cases hlater

theorem noneAfterRejected_of_nil (h : acceptedRecords store calls = []) : NoneAfterRejected store calls := by
  rintro before call later rfl ⟨error, hrejected⟩
  have hlater := acceptedRecords_later h
  rw [acceptedRecords, hrejected] at hlater
  rcases applyStep_cases (after applyStep store before) call with ⟨_, hstep⟩ | hstep
  · rwa [hstep] at hlater
  · rw [hstep] at hrejected
    cases hrejected

/-- A rejected call at the head: nothing may be accepted behind it. -/
theorem noneAfterRejected_cons_error {error : ApplyError} (h : applyStep store call = (store, .error error)) :
    NoneAfterRejected store (call :: calls) ↔ acceptedRecords store calls = [] := by
  constructor
  · intro hnone
    exact hnone [] call calls rfl ⟨error, by rw [after_nil, h]⟩
  · intro hnil
    refine noneAfterRejected_of_nil ?_
    rw [acceptedRecords, h]
    exact hnil

/-- An accepted call at the head. -/
theorem noneAfterRejected_cons_ok {next : RouterStore} (h : applyStep store call = (next, .ok ())) :
    NoneAfterRejected store (call :: calls) ↔ NoneAfterRejected next calls := by
  have hnext : ∀ before, after applyStep store (call :: before) = after applyStep next before := by
    intro before
    rw [after_cons, h]
  constructor
  · rintro hnone before other later rfl hrejects
    rw [← hnext] at hrejects ⊢
    exact hnone (call :: before) other later rfl hrejects
  · rintro hnone before other later hsplit hrejects
    cases before with
    | nil =>
      obtain ⟨rfl, rfl⟩ := List.cons.inj hsplit
      obtain ⟨error, herror⟩ := hrejects
      rw [after_nil, h] at herror
      cases herror
    | cons first before =>
      obtain ⟨rfl, rfl⟩ := List.cons.inj hsplit
      rw [hnext] at hrejects ⊢
      exact hnone before other later rfl hrejects

/-- Where nothing that would be accepted comes after a rejected record, the loop is the whole
run. -/
theorem recordAttempts_eq_after (h : NoneAfterRejected store calls) :
    (recordAttempts store calls).1 = after applyStep store calls := by
  induction calls generalizing store with
  | nil => rfl
  | cons call rest ih =>
    rcases applyStep_cases store call with ⟨error, hstep⟩ | hstep
    · have hnil := (noneAfterRejected_cons_error hstep).mp h
      rw [recordAttempts_cons_error hstep, after_cons, hstep]
      exact (after_of_nil hnil).symm
    · rw [recordAttempts_cons_ok hstep, after_cons, hstep]
      exact ih ((noneAfterRejected_cons_ok hstep).mp h)

/-- A loop whose history is the whole run's has left nothing out. -/
theorem noneAfterRejected_of_history
    (h : (recordAttempts store calls).1.history = store.history ++ (acceptedRecords store calls).map snapshotRow) :
    NoneAfterRejected store calls := by
  induction calls generalizing store with
  | nil => exact noneAfterRejected_of_nil rfl
  | cons call rest ih =>
    rcases applyStep_cases store call with ⟨error, hstep⟩ | hstep
    · rw [noneAfterRejected_cons_error hstep]
      rw [recordAttempts_cons_error hstep, acceptedRecords, hstep] at h
      have hrows : (acceptedRecords store rest).map snapshotRow = [] := List.self_eq_append_right.mp h
      exact List.map_eq_nil_iff.mp hrows
    · rw [noneAfterRejected_cons_ok hstep]
      rw [recordAttempts_cons_ok hstep, acceptedRecords, hstep] at h
      exact ih (h.trans (List.append_cons ..))

/-- **The loop** stores what would be accepted exactly where nothing that would be comes after
a record that is rejected. -/
theorem recordAttempts_iff :
    AttemptsRecorded store (recordAttempts store calls).1 calls ↔ NoneAfterRejected store calls := by
  constructor
  · intro h
    exact noneAfterRejected_of_history h.history
  · intro h
    rw [recordAttempts_eq_after h]
    exact attemptsRecorded_after store calls

/-- Tables that stay as they are hold what would be accepted where nothing would be. -/
theorem attemptsRecorded_self_iff : AttemptsRecorded store store calls ↔ acceptedRecords store calls = [] := by
  constructor
  · intro h
    exact List.map_eq_nil_iff.mp (List.self_eq_append_right.mp h.history)
  · intro h
    have hrun := attemptsRecorded_after store calls
    rwa [after_of_nil h] at hrun
end

/-! ### The operation -/

section
variable {env : Surroundings} {invocation : OperationInvocation} {result : CommandResultV1}
  {attempts : List RouterApplyRecord}

theorem persisted_of_persistFails (hwork : env.work = .ok (.liveBinding result attempts))
    (h : PersistFails env invocation result) : ∃ error, persisted env invocation = .error error := by
  obtain ⟨hlost, hexit, hpersists, error, herror⟩ := h
  refine ⟨error, ?_⟩
  unfold persisted
  simp [hlost, hwork, succeeded, hexit, hpersists, herror]

theorem persisted_of_not_persistFails (hwork : env.work = .ok (.liveBinding result attempts))
    (h : ¬PersistFails env invocation result) : persisted env invocation = .ok (.liveBinding result attempts) := by
  unfold persisted
  by_cases hcalled : ((lockLost env invocation).isNone && succeeded env.work && persists invocation) = true
  · simp only [hcalled, if_true]
    cases hanswer : env.persistAppliedSnapshot with
    | ok _ => exact hwork
    | error error =>
      rw [hwork] at hcalled
      simp only [succeeded, Bool.and_eq_true, Option.isNone_iff_eq_none, decide_eq_true_eq] at hcalled
      exact absurd ⟨hcalled.1.1, hcalled.1.2, hcalled.2, error, hanswer⟩ h
  · simp only [hcalled, Bool.false_eq_true, if_false]
    exact hwork

/-- The tables an operation leaves whose backend made a live binding. -/
theorem executeOperation_store (store : RouterStore) (hran : invocation.heavy = true → env.permit = true)
    (hwork : env.work = .ok (.liveBinding result attempts)) :
    (PersistFails env invocation result → (executeOperation env invocation store).1 = store) ∧
      (¬PersistFails env invocation result →
        (executeOperation env invocation store).1 = (recordAttempts store (recordCalls env attempts)).1) := by
  have hpermit : (invocation.heavy && !env.permit) = false := by
    cases hheavy : invocation.heavy with
    | false => rfl
    | true => rw [hran hheavy]; rfl
  refine ⟨fun hfails => ?_, fun hfails => ?_⟩
  · obtain ⟨error, hpersisted⟩ := persisted_of_persistFails hwork hfails
    simp only [executeOperation, hpermit, Bool.false_eq_true, if_false, hpersisted]
  · simp only [executeOperation, hpermit, Bool.false_eq_true, if_false, persisted_of_not_persistFails hwork hfails]
    rcases recordAttempts store (recordCalls env attempts) with ⟨final, _ | _⟩ <;> rfl

/-- **Recorded attempts.** An operation whose backend made a live binding leaves every attempt
whose own record would be accepted recorded, in order, and with them the current version of
every binding, exactly where the bundle is recorded as applied if it has to be, or no attempt
would be accepted, and no attempt that would be comes after one that is rejected. -/
theorem attemptsRecorded_iff (store : RouterStore) (hran : invocation.heavy = true → env.permit = true)
    (hwork : env.work = .ok (.liveBinding result attempts)) :
    AttemptsRecorded store (executeOperation env invocation store).1 (recordCalls env attempts) ↔
      (PersistFails env invocation result → ∀ call ∈ recordCalls env attempts, Rejects store call) ∧
        NoneAfterRejected store (recordCalls env attempts) := by
  obtain ⟨hdropped, hstored⟩ := executeOperation_store store hran hwork
  by_cases hfails : PersistFails env invocation result
  · rw [hdropped hfails, attemptsRecorded_self_iff, acceptedRecords_eq_nil_iff]
    constructor
    · intro hreject
      exact ⟨fun _ => hreject, noneAfterRejected_of_nil (acceptedRecords_eq_nil_iff.mpr hreject)⟩
    · intro h
      exact h.1 hfails
  · rw [hstored hfails, recordAttempts_iff]
    exact ⟨fun h => ⟨fun hfails' => absurd hfails' hfails, h⟩, And.right⟩

end

/-- Two attempts that have moved the router of `web`, one after the other. -/
def webAttempts : List RouterApplyRecord := [webRecord 0 0 "b" "a" .active, webRecord 0 0 "c" "b" .active]

/-- What `persist_applied_snapshot` answers while another process holds the database. -/
def databaseLocked : ApiErrorV1 := ⟨"state_sqlite", "SQLite state error: database is locked"⟩

/-- A membership move with the two attempts, whose bundle may not be recorded as applied, and the
first of whose records may fail. -/
def webMove (persist : Except ApiErrorV1 Unit) (firstFails : Bool) : Surroundings where
  permit := true
  work := .ok (.liveBinding ⟨0, "", ""⟩ webAttempts)
  heartbeat := none
  persistAppliedSnapshot := persist
  recordFails index := firstFails && index = 0
  sqlite _ := "database is locked"

theorem attemptsRecorded_iff_web :
    AttemptsRecorded .empty (executeOperation (webMove (.ok ()) false) (.command .membership) .empty).1
      (recordCalls (webMove (.ok ()) false) webAttempts) := by
  have hnone : NoneAfterRejected .empty (recordCalls (webMove (.ok ()) false) webAttempts) :=
    (noneAfterRejected_cons_ok rfl).mpr ((noneAfterRejected_cons_ok rfl).mpr (noneAfterRejected_of_nil rfl))
  refine (attemptsRecorded_iff .empty (fun _ => rfl) rfl).mpr ⟨?_, hnone⟩
  rintro ⟨-, -, -, error, herror⟩
  cases herror

/-- Two moves that have happened and of which nothing is recorded: the bundle cannot be
recorded as applied; the first record fails. -/
theorem attempts_dropped :
    ¬AttemptsRecorded .empty
        (executeOperation (webMove (.error databaseLocked) false) (.command .membership) .empty).1
        (recordCalls (webMove (.error databaseLocked) false) webAttempts) ∧
      ¬AttemptsRecorded .empty (executeOperation (webMove (.ok ()) true) (.command .membership) .empty).1
        (recordCalls (webMove (.ok ()) true) webAttempts) := by
  constructor
  · intro h
    have hlength := congrArg List.length h.history
    revert hlength
    decide +kernel
  · intro h
    have hlength := congrArg List.length h.history
    revert hlength
    decide +kernel

end Apmpr.Daemon.Execute
