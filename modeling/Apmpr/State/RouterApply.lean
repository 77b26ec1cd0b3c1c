import Apmpr.Daemon.LiveBinding
import Apmpr.State.Lock
import Mathlib.Data.Prod.Lex

/-!
# Router versions

`record_router_apply` of the crate `apmpr-state`: one transaction reads the current version
of a binding, upserts its row in `router_bindings` and appends a row to `route_snapshots`.
The columns of a row are nullable each by itself, and each is written by its own chain of
fallbacks; what is proved is that they stay together.

A call is a record and whether SQLite fails in its transaction (it is busy, the disk is
full). The table `route_snapshots` has a unique key too, so a call may also be rejected
because of what is in it.

## What is proved

`recordRouterApply_cases` — a call appends one row of history, or changes nothing.
`router_versions` — after every run, the pairs of a binding are what `currentPair`,
`previousPair` and `observedPair` say of the records that were accepted for it.
-/

namespace Apmpr.State

open Daemon.LiveBinding (RouterApplyRecord RouterApplyStatus)

/-- `history_status`. -/
def historyStatus : RouterApplyStatus → String
  | .pending => "pending"
  | .active => "active"
  | .failed => "rejected"
  | .rolledBack => "rolled_back"

/-- A row of `router_bindings`, without its key. -/
structure BindingRow where
  desiredVersion : Option I64
  desiredChecksum : Option String
  currentVersion : Option I64
  currentChecksum : Option String
  previousVersion : Option I64
  previousChecksum : Option String
  observedVersion : Option I64
  observedChecksum : Option String
  applyStatus : RouterApplyStatus
  transition : StructuredContext
  lastErrorCode : Option String
  updatedAt : I64

/-- A row of `route_snapshots`. -/
structure SnapshotRow where
  deployment : String
  version : I64
  checksum : String
  activationStatus : String
  recordedAt : I64
  context : StructuredContext
  router : Option String
  binding : Option String
  operationId : Option String

/-- The primary key of `router_bindings`: deployment, router and binding. -/
abbrev BindingKey := String ×ₗ String ×ₗ String

/-- The two tables; the history in the order of its `sequence`. -/
structure RouterStore where
  bindings : SortedMap BindingKey BindingRow
  history : List SnapshotRow

/-- The tables of a new store. -/
def RouterStore.empty : RouterStore := ⟨∅, []⟩

/-- Why a call is rejected. -/
inductive ApplyError where
  | invalid (error : StateError)
  /-- `UNIQUE(deployment_id, version, checksum, activation_status, recorded_at)`. -/
  | unique
  | database
  deriving DecidableEq

/-- The row a record is about. -/
def recordKey (record : RouterApplyRecord) : BindingKey :=
  toLex (record.deployment, toLex (record.router, record.binding))

/-- Whether a record makes its version the current one. -/
def activates (record : RouterApplyRecord) : Bool :=
  record.status = .active || (record.status = .rolledBack && record.errorCode.isNone)

/-- The checks of a record before the transaction. -/
def checkRecord (record : RouterApplyRecord) : Except StateError Unit := do
  validateId "deployment" record.deployment
  validateId "router" record.router
  validateId "binding" record.binding
  validateId "checksum" record.checksum

/-- The columns `record_router_apply` computes, from the current version and checksum it has
read; on a conflict the row that is there keeps its previous version unless the record
activates. -/
def upsertRow (existing : Option BindingRow) (record : RouterApplyRecord) : BindingRow :=
  let oldVersion := existing.bind (·.currentVersion)
  let oldChecksum := existing.bind (·.currentChecksum)
  let currentVersion := ((if activates record then some record.version else none).or oldVersion).or record.observedVersion
  let currentChecksum :=
    if activates record then some record.checksum else oldChecksum.or record.observedChecksum
  let previousVersion := if activates record then oldVersion.or record.observedVersion else none
  let previousChecksum := if activates record then oldChecksum.or record.observedChecksum else none
  { desiredVersion := some record.desiredVersion
    desiredChecksum := some record.desiredChecksum
    currentVersion := currentVersion
    currentChecksum := currentChecksum
    previousVersion := match existing with
      | none => previousVersion
      | some row => if activates record then previousVersion else row.previousVersion
    previousChecksum := match existing with
      | none => previousChecksum
      | some row => if activates record then previousChecksum else row.previousChecksum
    observedVersion := if activates record then currentVersion else record.observedVersion.or currentVersion
    observedChecksum := if activates record then currentChecksum else record.observedChecksum.or currentChecksum
    applyStatus := record.status
    transition := record.transition
    lastErrorCode := record.errorCode
    updatedAt := record.recordedAt }

/-- The row of history a record makes. -/
def snapshotRow (record : RouterApplyRecord) : SnapshotRow where
  deployment := record.deployment
  version := record.version
  checksum := record.checksum
  activationStatus := historyStatus record.status
  recordedAt := record.recordedAt
  context := record.context
  router := some record.router
  binding := some record.binding
  operationId := some record.operationId

/-- Whether two rows of history agree on the unique key. -/
def SnapshotRow.sameKey (a b : SnapshotRow) : Bool :=
  a.deployment = b.deployment && a.version = b.version && a.checksum = b.checksum &&
    a.activationStatus = b.activationStatus && a.recordedAt = b.recordedAt

/-- `record_router_apply`. -/
def recordRouterApply (store : RouterStore) (record : RouterApplyRecord) (fails : Bool) :
    RouterStore × Except ApplyError Unit :=
  match checkRecord record with
  | .error error => (store, .error (.invalid error))
  | .ok () =>
    if fails then (store, .error .database)
    else if store.history.any (snapshotRow record).sameKey then (store, .error .unique)
    else
      let row := upsertRow (store.bindings.get? (recordKey record)) record
      ({ bindings := store.bindings.insert (recordKey record) row
         history := store.history ++ [snapshotRow record] }, .ok ())

/-- The machine of the calls. -/
def applyStep (store : RouterStore) (call : RouterApplyRecord × Bool) : RouterStore × Except ApplyError Unit :=
  recordRouterApply store call.1 call.2

/-- The records of the calls that are accepted, in order. -/
def acceptedRecords : RouterStore → List (RouterApplyRecord × Bool) → List RouterApplyRecord
  | _, [] => []
  | store, call :: rest =>
    match (applyStep store call).2 with
    | .ok () => call.1 :: acceptedRecords (applyStep store call).1 rest
    | .error _ => acceptedRecords (applyStep store call).1 rest

/-! ### What the pairs are -/

/-- The version and checksum of one record. -/
abbrev VersionPair := I64 × String

/-- The pair a record was made for. -/
def appliedPair (record : RouterApplyRecord) : VersionPair := (record.version, record.checksum)

/-- The pair a record observed. -/
def observedPair (record : RouterApplyRecord) : Option VersionPair :=
  match record.observedVersion, record.observedChecksum with
  | some version, some checksum => some (version, checksum)
  | _, _ => none

/-- Whether a record has an observed version and checksum both or neither. -/
def Paired (record : RouterApplyRecord) : Prop :=
  record.observedVersion.isSome = record.observedChecksum.isSome

/-- The current pair: the latest activating record's, or the first one observed. -/
def currentPair (records : List RouterApplyRecord) : Option VersionPair :=
  ((records.filter activates).getLast?.map appliedPair).or (records.filterMap observedPair).head?

/-- Two columns hold a pair, or both nothing. -/
def Holds (version : Option I64) (checksum : Option String) (pair : Option VersionPair) : Prop :=
  version = pair.map Prod.fst ∧ checksum = pair.map Prod.snd

theorem Holds.or {v w : Option I64} {c d : Option String} {p q : Option VersionPair} (hp : Holds v c p)
    (hq : Holds w d q) : Holds (v.or w) (c.or d) (p.or q) := by
  obtain ⟨rfl, rfl⟩ := hp
  obtain ⟨rfl, rfl⟩ := hq
  cases p <;> exact ⟨rfl, rfl⟩

theorem holds_none : Holds none none none := ⟨rfl, rfl⟩

theorem holds_some (version : I64) (checksum : String) : Holds (some version) (some checksum) (some (version, checksum)) :=
  ⟨rfl, rfl⟩

theorem holds_observedPair {record : RouterApplyRecord} (h : Paired record) :
    Holds record.observedVersion record.observedChecksum (observedPair record) := by
  unfold Paired at h
  unfold observedPair Holds
  cases hv : record.observedVersion <;> cases hc : record.observedChecksum <;> simp_all

theorem currentPair_append (records : List RouterApplyRecord) (record : RouterApplyRecord) :
    currentPair (records ++ [record]) =
      if activates record then some (appliedPair record) else (currentPair records).or (observedPair record) := by
  unfold currentPair
  rw [List.filter_append, List.filterMap_append]
  cases hact : activates record with
  | true => simp [hact]
  | false =>
    have hnone : [record].filter activates = [] := by simp [hact]
    have hone : ([record].filterMap observedPair).head? = observedPair record := by
      cases hobserved : observedPair record <;> simp [hobserved]
    rw [hnone, List.append_nil, List.head?_append, hone, Option.or_assoc]
    rfl

/-- The previous pair after the records in reverse: at the latest activating one, the
current pair before it, or what it observed. -/
def previousOf : List RouterApplyRecord → Option VersionPair
  | [] => none
  | record :: earlier =>
    if activates record then (currentPair earlier.reverse).or (observedPair record) else previousOf earlier

/-- The previous pair. -/
def previousPair (records : List RouterApplyRecord) : Option VersionPair := previousOf records.reverse

theorem previousPair_append (records : List RouterApplyRecord) (record : RouterApplyRecord) :
    previousPair (records ++ [record]) =
      if activates record then (currentPair records).or (observedPair record) else previousPair records := by
  rw [previousPair, List.reverse_append, List.reverse_singleton, List.singleton_append, previousOf,
    List.reverse_reverse]
  rfl

theorem previousOf_append {xs ys : List RouterApplyRecord} (h : ∀ record ∈ xs, activates record = false) :
    previousOf (xs ++ ys) = previousOf ys := by
  induction xs with
  | nil => rfl
  | cons record rest ih =>
    obtain ⟨hrecord, hrest⟩ := List.forall_mem_cons.mp h
    rw [List.cons_append, previousOf, hrecord, if_neg Bool.false_ne_true]
    exact ih hrest

/-- The previous pair in terms of the last activating record. -/
theorem previousPair_eq {before later : List RouterApplyRecord} {record : RouterApplyRecord}
    (h : activates record = true) (hlater : ∀ r ∈ later, activates r = false) :
    previousPair (before ++ record :: later) = (currentPair before).or (observedPair record) := by
  have hlater' : ∀ r ∈ later.reverse, activates r = false := fun r hr => hlater r (List.mem_reverse.mp hr)
  rw [previousPair, List.reverse_append, List.reverse_cons, List.append_assoc, previousOf_append hlater',
    List.singleton_append, previousOf, if_pos h, List.reverse_reverse]

theorem previousPair_of_none {records : List RouterApplyRecord} (h : ∀ r ∈ records, activates r = false) :
    previousPair records = none := by
  have h' : ∀ r ∈ records.reverse, activates r = false := fun r hr => h r (List.mem_reverse.mp hr)
  rw [previousPair, ← List.append_nil records.reverse, previousOf_append h']
  rfl

/-- What the row says of the routers' observation after its last record. -/
def lastObserved (records : List RouterApplyRecord) : Option VersionPair :=
  records.getLast?.bind fun record =>
    if activates record then some (appliedPair record) else (observedPair record).or (currentPair records)

/-- What a row says of the records accepted for it. -/
structure RowOf (records : List RouterApplyRecord) (row : BindingRow) : Prop where
  current : Holds row.currentVersion row.currentChecksum (currentPair records)
  previous : Holds row.previousVersion row.previousChecksum (previousPair records)
  observed : Holds row.observedVersion row.observedChecksum (lastObserved records)

/-! ### One call -/

/-- **What a call does**: it is accepted and appends one row of history, or nothing changes. -/
theorem recordRouterApply_cases (store : RouterStore) (record : RouterApplyRecord) (fails : Bool) :
    (∃ error, recordRouterApply store record fails = (store, .error error)) ∨
      recordRouterApply store record fails =
        (⟨store.bindings.insert (recordKey record) (upsertRow (store.bindings.get? (recordKey record)) record),
          store.history ++ [snapshotRow record]⟩, .ok ()) := by
  unfold recordRouterApply
  cases checkRecord record with
  | error error => exact .inl ⟨_, rfl⟩
  | ok _ =>
    by_cases hfails : fails = true
    · exact .inl ⟨_, if_pos hfails⟩
    · by_cases hunique : store.history.any (snapshotRow record).sameKey = true
      · exact .inl ⟨.unique, by simp only [hfails, hunique, if_true, Bool.false_eq_true, if_false]⟩
      · exact .inr (by simp only [hfails, hunique, Bool.false_eq_true, if_false])

/-- The first record of a row. -/
theorem RowOf.first {record : RouterApplyRecord} (h : Paired record) : RowOf [record] (upsertRow none record) := by
  have hobserved := holds_observedPair h
  have hcurrent := currentPair_append [] record
  have hprevious := previousPair_append [] record
  rw [List.nil_append, show currentPair [] = none from rfl, Option.none_or] at hcurrent hprevious
  cases hact : activates record with
  | true =>
    simp only [hact, if_true] at hcurrent hprevious
    refine ⟨?_, ?_, ?_⟩
    · rw [hcurrent]
      simp only [upsertRow, hact, if_true]
      exact holds_some _ _
    · rw [hprevious]
      simpa only [upsertRow, hact, if_true, Option.bind_none, Option.none_or] using hobserved
    · simp only [lastObserved, upsertRow, hact, if_true, List.getLast?_singleton, Option.bind_some]
      exact holds_some _ _
  | false =>
    simp only [hact, Bool.false_eq_true, if_false] at hcurrent hprevious
    refine ⟨?_, ?_, ?_⟩
    · rw [hcurrent]
      simpa only [upsertRow, hact, Bool.false_eq_true, if_false, Option.bind_none, Option.none_or] using hobserved
    · rw [hprevious]
      simp only [upsertRow, hact, Bool.false_eq_true, if_false]
      exact holds_none
    · simp only [lastObserved, upsertRow, hact, Bool.false_eq_true, if_false, List.getLast?_singleton,
        Option.bind_some, hcurrent]
      exact hobserved.or hobserved

/-- A further record of a row. -/
theorem RowOf.next {records : List RouterApplyRecord} {row : BindingRow} {record : RouterApplyRecord}
    (hrow : RowOf records row) (h : Paired record) : RowOf (records ++ [record]) (upsertRow (some row) record) := by
  have hobserved := holds_observedPair h
  have hor := hrow.current.or hobserved
  cases hact : activates record with
  | true =>
    refine ⟨?_, ?_, ?_⟩
    · rw [currentPair_append]
      simp only [upsertRow, hact, if_true]
      exact holds_some _ _
    · rw [previousPair_append]
      simpa only [upsertRow, hact, if_true, Option.bind_some] using hor
    · simp only [lastObserved, upsertRow, hact, if_true, List.getLast?_append, List.getLast?_singleton,
        Option.some_or, Option.bind_some]
      exact holds_some _ _
  | false =>
    have hcurrent : currentPair (records ++ [record]) = (currentPair records).or (observedPair record) := by
      rw [currentPair_append, hact, if_neg Bool.false_ne_true]
    refine ⟨?_, ?_, ?_⟩
    · rw [hcurrent]
      simpa only [upsertRow, hact, Bool.false_eq_true, if_false, Option.bind_some, Option.none_or] using hor
    · rw [previousPair_append]
      simpa only [upsertRow, hact, Bool.false_eq_true, if_false] using hrow.previous
    · simp only [lastObserved, upsertRow, hact, Bool.false_eq_true, if_false, List.getLast?_append,
        List.getLast?_singleton, Option.some_or, Option.bind_some, hcurrent]
      exact hobserved.or hor

/-- A record that does not activate leaves the pairs that are set. -/
theorem upsertRow_of_not_activates {records : List RouterApplyRecord} {row : BindingRow} {record : RouterApplyRecord}
    (hrow : RowOf records row) (h : activates record = false) :
    (row.currentVersion.isSome = true → (upsertRow (some row) record).currentVersion = row.currentVersion ∧
        (upsertRow (some row) record).currentChecksum = row.currentChecksum) ∧
      (upsertRow (some row) record).previousVersion = row.previousVersion ∧
      (upsertRow (some row) record).previousChecksum = row.previousChecksum := by
  obtain ⟨hversion, hchecksum⟩ := hrow.current
  refine ⟨fun hset => ?_, ?_, ?_⟩
  · rw [hversion, Option.isSome_map] at hset
    obtain ⟨pair, hpair⟩ := Option.isSome_iff_exists.mp hset
    rw [hpair] at hversion hchecksum
    simp [upsertRow, h, hversion, hchecksum]
  · simp [upsertRow, h]
  · simp [upsertRow, h]

/-! ### Runs -/

/-- The records for one row. -/
def recordsOf (key : BindingKey) (records : List RouterApplyRecord) : List RouterApplyRecord :=
  records.filter fun record => recordKey record = key

/-- The tables say of every binding what the accepted records for it say. -/
def Faithful (records : List RouterApplyRecord) (store : RouterStore) : Prop :=
  store.history = records.map snapshotRow ∧ ∀ key,
    match store.bindings.get? key with
    | none => recordsOf key records = []
    | some row => RowOf (recordsOf key records) row

theorem Faithful.accept {records : List RouterApplyRecord} {store : RouterStore} {record : RouterApplyRecord}
    (hstore : Faithful records store) (h : Paired record) :
    Faithful (records ++ [record])
      ⟨store.bindings.insert (recordKey record) (upsertRow (store.bindings.get? (recordKey record)) record),
        store.history ++ [snapshotRow record]⟩ := by
  refine ⟨by rw [hstore.1, List.map_append]; rfl, fun key => ?_⟩
  have hkey := hstore.2 key
  rw [SortedMap.get?_insert]
  by_cases hsame : key = recordKey record
  · subst hsame
    have hrecords : recordsOf (recordKey record) (records ++ [record]) =
        recordsOf (recordKey record) records ++ [record] := by
      simp [recordsOf, List.filter_append]
    rw [if_pos rfl, hrecords]
    cases hrow : store.bindings.get? (recordKey record) with
    | none =>
      rw [hrow] at hkey
      have hnone : recordsOf (recordKey record) records = [] := hkey
      rw [hnone]
      exact RowOf.first h
    | some row =>
      rw [hrow] at hkey
      exact RowOf.next hkey h
  · have hrecords : recordsOf key (records ++ [record]) = recordsOf key records := by
      simp [recordsOf, List.filter_append, Ne.symm hsame]
    rw [if_neg hsame, hrecords]
    exact hkey

theorem faithful_after {records : List RouterApplyRecord} {store : RouterStore}
    {calls : List (RouterApplyRecord × Bool)} (hstore : Faithful records store) (h : ∀ call ∈ calls, Paired call.1) :
    Faithful (records ++ acceptedRecords store calls) (after applyStep store calls) := by
  induction calls generalizing records store with
  | nil => simpa [acceptedRecords] using hstore
  | cons call rest ih =>
    obtain ⟨hcall, hrest⟩ := List.forall_mem_cons.mp h
    rw [after_cons, acceptedRecords]
    rcases recordRouterApply_cases store call.1 call.2 with ⟨error, hstep⟩ | hstep
    · have hstep' : applyStep store call = (store, .error error) := hstep
      rw [hstep']
      exact ih hstore hrest
    · have hstep' : applyStep store call = _ := hstep
      rw [hstep']
      have := ih (hstore.accept hcall) hrest
      rwa [List.append_assoc] at this

theorem faithful_empty : Faithful [] .empty := ⟨rfl, fun _ => rfl⟩

/-- **Router versions.** After every run of calls whose records have an observed version and
checksum both or neither, a binding's row holds, each as version and checksum of one record,
the current pair, the previous pair and the observed pair of the records accepted for it. A
further record that does not activate changes no current or previous pair that is set, and a
further call appends one row of history or changes nothing. -/
theorem router_versions {calls : List (RouterApplyRecord × Bool)} (h : ∀ call ∈ calls, Paired call.1)
    (key : BindingKey) :
    let store := after applyStep .empty calls
    let records := recordsOf key (acceptedRecords .empty calls)
    (store.bindings.get? key = none → records = []) ∧
    (∀ row, store.bindings.get? key = some row →
      Holds row.currentVersion row.currentChecksum (currentPair records) ∧
      (∀ before record later, records = before ++ record :: later → activates record = true →
        (∀ r ∈ later, activates r = false) →
        Holds row.previousVersion row.previousChecksum ((currentPair before).or (observedPair record))) ∧
      ((∀ r ∈ records, activates r = false) → Holds row.previousVersion row.previousChecksum none) ∧
      Holds row.observedVersion row.observedChecksum (lastObserved records) ∧
      ∀ record fails, activates record = false →
        ∃ row', (recordRouterApply store record fails).1.bindings.get? key = some row' ∧
          (row.currentVersion.isSome = true →
            row'.currentVersion = row.currentVersion ∧ row'.currentChecksum = row.currentChecksum) ∧
          row'.previousVersion = row.previousVersion ∧ row'.previousChecksum = row.previousChecksum) ∧
    ∀ record fails,
      ((recordRouterApply store record fails).2 = .ok () ∧
        (recordRouterApply store record fails).1.history = store.history ++ [snapshotRow record]) ∨
      ∃ error, recordRouterApply store record fails = (store, .error error) := by
  intro store records
  have hfaithful := (faithful_after faithful_empty h).2 key
  rw [List.nil_append] at hfaithful
  refine ⟨fun hnone => ?_, fun row hsome => ?_, fun record fails => ?_⟩
  · rwa [hnone] at hfaithful
  · rw [hsome] at hfaithful
    have hrow : RowOf records row := hfaithful
    refine ⟨hrow.current, fun before record later hsplit hact hlater => ?_, fun hnone => ?_, hrow.observed,
      fun record fails hact => ?_⟩
    · rw [← previousPair_eq hact hlater, ← hsplit]
      exact hrow.previous
    · rw [← previousPair_of_none hnone]
      exact hrow.previous
    · rcases recordRouterApply_cases store record fails with ⟨error, hstep⟩ | hstep
      · rw [hstep]
        exact ⟨row, hsome, fun _ => ⟨rfl, rfl⟩, rfl, rfl⟩
      · rw [hstep]
        simp only [SortedMap.get?_insert]
        by_cases hkey : key = recordKey record
        · subst hkey
          rw [if_pos rfl, hsome]
          exact ⟨_, rfl, upsertRow_of_not_activates hrow hact⟩
        · rw [if_neg hkey]
          exact ⟨row, hsome, fun _ => ⟨rfl, rfl⟩, rfl, rfl⟩
  · rcases recordRouterApply_cases store record fails with hstep | hstep
    · exact .inr hstep
    · rw [hstep]
      exact .inl ⟨rfl, rfl⟩

/-- An attempt on the router of `web`. -/
def webRecord (version observed : I64) (checksum observedChecksum : String) (status : RouterApplyStatus) :
    RouterApplyRecord where
  deployment := "shop"
  router := "router"
  binding := "web"
  operationId := "op"
  desiredVersion := version
  desiredChecksum := checksum
  version := version
  checksum := checksum
  status := status
  observedVersion := some observed
  observedChecksum := some observedChecksum
  transition := Daemon.LiveBinding.emptyContext
  errorCode := none
  recordedAt := version
  context := Daemon.LiveBinding.emptyContext

/-- A failed attempt that observed version 0, and then one that activates version 1. -/
def webCalls : List (RouterApplyRecord × Bool) :=
  [(webRecord ⟨2, by decide, by decide⟩ 0 "c" "a" .failed, false),
    (webRecord ⟨1, by decide, by decide⟩ ⟨2, by decide, by decide⟩ "b" "c" .active, false)]

theorem router_versions_web :
    ∃ row, (after applyStep .empty webCalls).bindings.get? (toLex ("shop", toLex ("router", "web"))) = some row ∧
      Holds row.currentVersion row.currentChecksum (some (⟨1, by decide, by decide⟩, "b")) := by
  have hpaired : ∀ call ∈ webCalls, Paired call.1 := by
    intro call hcall
    rcases List.mem_cons.mp hcall with rfl | hcall
    · exact rfl
    · obtain rfl := List.mem_singleton.mp hcall
      exact rfl
  have hrow := (router_versions hpaired (toLex ("shop", toLex ("router", "web")))).2.1
  have hsome : ((after applyStep .empty webCalls).bindings.get?
      (toLex ("shop", toLex ("router", "web")))).isSome = true := by decide +kernel
  have hpair : currentPair (recordsOf (toLex ("shop", toLex ("router", "web")))
      (acceptedRecords .empty webCalls)) = some (⟨1, by decide, by decide⟩, "b") := by decide +kernel
  obtain ⟨row, hget⟩ := Option.isSome_iff_exists.mp hsome
  refine ⟨row, hget, ?_⟩
  rw [← hpair]
  exact (hrow row hget).1

end Apmpr.State
