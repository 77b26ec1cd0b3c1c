import Apmpr.Lib.Keyset
import Apmpr.Lib.Run
import Apmpr.State.Lock
import Mathlib.Data.Prod.Lex
import Mathlib.Data.String.Basic

/-!
# The history of operations

The table `operations` of the crate `apmpr-state`: `start_operation` writes a row,
`update_operation` and `recover_abandoned_operations` change how an operation goes on and
nothing else of it, and `operations` lists rows page by page, newest first. A context is kept
as the JSON it is the text of. Rows are never deleted.

## What is proved

`Historic.act` — rows keep identifiers of their own, and kinds and states that are known.
`selected_of_goesOn` — whatever is written, the rows a query selects up to a key stay the same,
if new rows are above the key and no status it asks for changes.
-/

namespace Apmpr.State

/-- `OperationKind`. -/
inductive OperationKind where
  | build
  | start
  | stop
  | membership
  | apply
  | cleanup
  | other (value : String)
  deriving DecidableEq

/-- The text of a kind. -/
def OperationKind.asStr : OperationKind → String
  | .build => "build"
  | .start => "start"
  | .stop => "stop"
  | .membership => "membership"
  | .apply => "apply"
  | .cleanup => "cleanup"
  | .other value => value

/-- `OperationStatus`. -/
inductive OperationStatus where
  | pending
  | running
  | succeeded
  | failed
  | cancelled
  deriving DecidableEq

/-- The text of a status. -/
def OperationStatus.asStr : OperationStatus → String
  | .pending => "pending"
  | .running => "running"
  | .succeeded => "succeeded"
  | .failed => "failed"
  | .cancelled => "cancelled"

/-- `OperationError`. -/
structure OperationError where
  code : String
  context : StructuredContext

/-- `OperationRecord`. -/
structure OperationRecord where
  id : String
  deployment : String
  inst : Option String
  kind : OperationKind
  status : OperationStatus
  startedAt : I64
  finishedAt : Option I64
  error : Option OperationError

/-- `StoredOperation`: a row of `operations`. -/
structure StoredOperation where
  id : String
  deployment : String
  inst : Option String
  kind : String
  status : String
  startedAt : I64
  finishedAt : Option I64
  errorCode : Option String
  errorContext : Option Json

/-- `OperationQuery`. -/
structure OperationQuery where
  deployment : Option String
  inst : Option String
  kind : Option String
  status : Option String
  cursor : Option String
  limit : ℕ

/-- The row of an operation. -/
def OperationRecord.row (operation : OperationRecord) : StoredOperation :=
  ⟨operation.id, operation.deployment, operation.inst, operation.kind.asStr, operation.status.asStr, operation.startedAt,
    operation.finishedAt, operation.error.map OperationError.code, operation.error.map fun error => error.context.value⟩

/-- The checks of a record. -/
def OperationRecord.check (operation : OperationRecord) : Except StateError Unit := do
  validateId "operation id" operation.id
  validateId "deployment" operation.deployment
  match operation.inst with
  | some inst => validateId "operation instance" inst
  | none => .ok ()

/-- `start_operation`: the rows after it, and whether it succeeds. An identifier that is taken is
refused by the table. -/
def startOperation (rows : List StoredOperation) (operation : OperationRecord) : List StoredOperation × Bool :=
  match operation.check with
  | .error _ => (rows, false)
  | .ok () => if rows.any (·.id = operation.id) then (rows, false) else (rows ++ [operation.row], true)

/-- `update_operation`. -/
def updateOperation (rows : List StoredOperation) (id : String) (status : OperationStatus) (finishedAt : Option I64)
    (error : Option OperationError) : List StoredOperation × Except StateError Unit :=
  if rows.any (·.id = id) then
    (rows.map fun row => if row.id = id then { row with
        status := status.asStr, finishedAt, errorCode := error.map OperationError.code,
        errorContext := error.map fun error => error.context.value } else row, .ok ())
  else (rows, .error (.invalidInput "operation_not_found" s!"operation `{id}` does not exist"))

/-- `recover_abandoned_operations`: the rows after it, and how many it changed. -/
def recoverAbandonedOperations (rows : List StoredOperation) (finishedAt : I64) : List StoredOperation × ℕ :=
  let abandoned := fun row : StoredOperation => row.status = "pending" || row.status = "running"
  (rows.map fun row => if abandoned row then { row with
      status := "failed", finishedAt := some finishedAt, errorCode := some "daemon_restarted",
      errorContext := some (.object []) } else row, (rows.filter abandoned).length)

/-- What the rows are listed by: when they started, then their identifier. -/
abbrev OperationKey := ℤ ×ₗ String

/-- The key of a row. -/
def StoredOperation.key (row : StoredOperation) : OperationKey := toLex (row.startedAt.val, row.id)

/-- The filters of a query. -/
def OperationQuery.selects (query : OperationQuery) (row : StoredOperation) : Bool :=
  query.deployment.all (row.deployment = ·) && query.inst.all (fun inst => row.inst = some inst) &&
    query.kind.all (fun kind => row.kind = kind || (kind = "apply" && row.kind = "start")) &&
    query.status.all (row.status = ·)

/-- The key of a cursor. -/
def cursorKey (rows : List StoredOperation) : Option String → Except StateError (Option OperationKey)
  | none => .ok none
  | some id =>
    match rows.find? (·.id = id) with
    | some row => .ok (some row.key)
    | none => .error (.invalidInput "operation_cursor_not_found" s!"operation cursor `{id}` does not exist")

/-- `operations`. -/
def operations (rows : List StoredOperation) (query : OperationQuery) : Except StateError (List StoredOperation) :=
  if query.limit = 0 then
    .error (.invalidInput "invalid_operation_limit" "operation query limit must be greater than zero")
  else if 2 ^ 63 ≤ query.limit then
    .error (.invalidInput "invalid_operation_limit" "operation query limit exceeds SQLite range")
  else (cursorKey rows query.cursor).map fun cursor =>
    (Keyset.newest StoredOperation.key (Keyset.below StoredOperation.key cursor (rows.filter query.selects))).take
      query.limit

/-! ### What is written -/

/-- What is written to the table. -/
inductive HistoryEvent where
  | start (operation : OperationRecord)
  | update (id : String) (status : OperationStatus) (finishedAt : Option I64) (error : Option OperationError)
  | recover (finishedAt : I64)

/-- The rows after an event. -/
def act (rows : List StoredOperation) : HistoryEvent → List StoredOperation
  | .start operation => (startOperation rows operation).1
  | .update id status finishedAt error => (updateOperation rows id status finishedAt error).1
  | .recover finishedAt => (recoverAbandonedOperations rows finishedAt).1

/-- Rows have identifiers of their own, and kinds and states that are known. -/
structure Historic (kinds : String → Prop) (rows : List StoredOperation) : Prop where
  ids : (rows.map StoredOperation.id).Nodup
  kind : ∀ row ∈ rows, kinds row.kind
  status : ∀ row ∈ rows, ∃ status : OperationStatus, row.status = status.asStr

/-- What is never changed of a row. -/
structure Lasting (row row' : StoredOperation) : Prop where
  id : row'.id = row.id
  deployment : row'.deployment = row.deployment
  inst : row'.inst = row.inst
  kind : row'.kind = row.kind
  startedAt : row'.startedAt = row.startedAt

theorem Lasting.refl (row : StoredOperation) : Lasting row row := ⟨rfl, rfl, rfl, rfl, rfl⟩

theorem Lasting.key {row row' : StoredOperation} (h : Lasting row row') : row'.key = row.key := by
  rw [StoredOperation.key, StoredOperation.key, h.id, h.startedAt]

/-- What an event does: it adds a row with an identifier of its own, or it changes how some
operations go on. -/
theorem act_cases (rows : List StoredOperation) (event : HistoryEvent) :
    (∃ operation, event = .start operation ∧ (∀ row ∈ rows, row.id ≠ operation.id) ∧
      act rows event = rows ++ [operation.row]) ∨
    ∃ f : StoredOperation → StoredOperation, act rows event = rows.map f ∧
      ∀ row, Lasting row (f row) ∧ ((f row).status = row.status ∨ ∃ status : OperationStatus, (f row).status = status.asStr) := by
  have hsame : ∃ f : StoredOperation → StoredOperation, rows = rows.map f ∧
      ∀ row, Lasting row (f row) ∧ ((f row).status = row.status ∨ ∃ status : OperationStatus, (f row).status = status.asStr) :=
    ⟨id, by simp, fun row => ⟨.refl row, .inl rfl⟩⟩
  cases event with
  | start operation =>
    simp only [act, startOperation]
    cases operation.check with
    | error e => exact .inr hsame
    | ok u =>
      by_cases htaken : rows.any (·.id = operation.id) = true
      · simp only [htaken, if_true]
        exact .inr hsame
      · simp only [htaken, if_false, Bool.false_eq_true]
        refine .inl ⟨operation, rfl, fun row hmem hid => htaken ?_, rfl⟩
        exact List.any_eq_true.mpr ⟨row, hmem, by simp [hid]⟩
  | update id status finishedAt error =>
    simp only [act, updateOperation]
    by_cases hfound : rows.any (·.id = id) = true
    · simp only [hfound, if_true]
      refine .inr ⟨_, rfl, fun row => ?_⟩
      by_cases hid : row.id = id
      · rw [if_pos hid]
        exact ⟨⟨rfl, rfl, rfl, rfl, rfl⟩, .inr ⟨status, rfl⟩⟩
      · rw [if_neg hid]
        exact ⟨.refl row, .inl rfl⟩
    · simp only [hfound, if_false, Bool.false_eq_true]
      exact .inr hsame
  | recover finishedAt =>
    refine .inr ⟨_, rfl, fun row => ?_⟩
    dsimp only
    split_ifs
    · exact ⟨⟨rfl, rfl, rfl, rfl, rfl⟩, .inr ⟨.failed, rfl⟩⟩
    · exact ⟨.refl row, .inl rfl⟩

/-- The rows stay historic, if new ones are of a known kind. -/
theorem Historic.act {kinds : String → Prop} {rows : List StoredOperation} (h : Historic kinds rows)
    {event : HistoryEvent} (hkind : ∀ operation, event = .start operation → kinds operation.kind.asStr) :
    Historic kinds (act rows event) := by
  rcases act_cases rows event with ⟨operation, hevent, hfresh, hact⟩ | ⟨f, hact, hf⟩
  · rw [hact]
    constructor
    · rw [List.map_append, List.nodup_append]
      refine ⟨h.ids, List.nodup_singleton _, ?_⟩
      rintro id hid _ hnew rfl
      obtain ⟨row, hmem, rfl⟩ := List.mem_map.mp hid
      exact hfresh row hmem (List.mem_singleton.mp hnew)
    · intro row hmem
      rcases List.mem_append.mp hmem with hmem | hmem
      · exact h.kind row hmem
      · obtain rfl := List.mem_singleton.mp hmem
        exact hkind operation hevent
    · intro row hmem
      rcases List.mem_append.mp hmem with hmem | hmem
      · exact h.status row hmem
      · obtain rfl := List.mem_singleton.mp hmem
        exact ⟨operation.status, rfl⟩
  · rw [hact]
    constructor
    · have hids : (rows.map f).map StoredOperation.id = rows.map StoredOperation.id := by
        rw [List.map_map]
        exact List.map_congr_left fun row _ => (hf row).1.id
      rw [hids]
      exact h.ids
    · intro row' hmem
      obtain ⟨row, hrow, rfl⟩ := List.mem_map.mp hmem
      rw [(hf row).1.kind]
      exact h.kind row hrow
    · intro row' hmem
      obtain ⟨row, hrow, rfl⟩ := List.mem_map.mp hmem
      rcases (hf row).2 with hstatus | hstatus
      · rw [hstatus]
        exact h.status row hrow
      · exact hstatus

/-- An event that does not disturb a query: a new row is above a key, and no status changes
where the query asks for one. -/
structure Undisturbed (kinds : String → Prop) (query : OperationQuery) (head : Option OperationKey)
    (rows : List StoredOperation) (event : HistoryEvent) : Prop where
  kind : ∀ operation, event = .start operation → kinds operation.kind.asStr
  above : ∀ operation, event = .start operation → ∀ key ∈ head, key < operation.row.key
  status : query.status = none ∨
    ∀ row ∈ rows, ∀ row' ∈ act rows event, row'.id = row.id → row'.status = row.status

/-- The rows go on by events that do not disturb a query. -/
abbrev GoesOn (kinds : String → Prop) (query : OperationQuery) (head : Option OperationKey) :
    List StoredOperation → List StoredOperation → Prop :=
  Reaches (fun rows event => some (act rows event)) (Undisturbed kinds query head)

variable {kinds : String → Prop} {query : OperationQuery} {head : Option OperationKey} {rows rows' : List StoredOperation}

theorem selects_of_lasting {row row' : StoredOperation} (h : Lasting row row')
    (hstatus : query.status = none ∨ row'.status = row.status) : query.selects row' = query.selects row := by
  unfold OperationQuery.selects
  rw [h.deployment, h.inst, h.kind]
  rcases hstatus with hnone | hsame
  · rw [hnone]
    rfl
  · rw [hsame]

/-- Rows stay, as far as they are never changed. -/
theorem lasting_of_goesOn (h : GoesOn kinds query head rows rows') :
    ∀ row ∈ rows, ∃ row' ∈ rows', Lasting row row' := by
  intro row hmem
  refine Reaches.invariant (P := fun rows => ∃ row' ∈ rows, Lasting row row') ?_ h ⟨row, hmem, .refl row⟩
  rintro rows event rows' - hact ⟨row', hmem', hlasting⟩
  obtain rfl := Option.some.inj hact
  rcases act_cases rows event with ⟨operation, -, -, hact⟩ | ⟨f, hact, hf⟩
  · rw [hact]
    exact ⟨row', List.mem_append_left _ hmem', hlasting⟩
  · rw [hact]
    have hnext := (hf row').1
    exact ⟨f row', List.mem_map_of_mem hmem', hnext.id.trans hlasting.id, hnext.deployment.trans hlasting.deployment,
      hnext.inst.trans hlasting.inst, hnext.kind.trans hlasting.kind, hnext.startedAt.trans hlasting.startedAt⟩

theorem Historic.goesOn (h : Historic kinds rows) (hgoes : GoesOn kinds query head rows rows') : Historic kinds rows' := by
  refine Reaches.invariant (P := Historic kinds) ?_ hgoes h
  intro rows event rows' hok hact hrows
  obtain rfl := Option.some.inj hact
  exact hrows.act hok.kind

/-- One event does not change what a query selects up to a key. -/
theorem selected_of_undisturbed {β : Type} {view : StoredOperation → β}
    (hview : ∀ row row', Lasting row row' → view row' = view row) {v : β}
    (hbelow : ∀ row, view row = v → ∃ key ∈ head, row.key ≤ key) {event : HistoryEvent}
    (h : Undisturbed kinds query head rows event) :
    v ∈ ((act rows event).filter query.selects).map view ↔ v ∈ (rows.filter query.selects).map view := by
  rcases act_cases rows event with ⟨operation, hevent, -, hact⟩ | ⟨f, hact, hf⟩
  · have hnew : view operation.row ≠ v := by
      intro hv
      obtain ⟨key, hkey, hle⟩ := hbelow operation.row hv
      exact absurd hle (not_le_of_gt (h.above operation hevent key hkey))
    rw [hact, List.filter_append, List.map_append, List.mem_append]
    constructor
    · rintro (hmem | hmem)
      · exact hmem
      · obtain ⟨row, hrow, rfl⟩ := List.mem_map.mp hmem
        obtain rfl := List.mem_singleton.mp (List.mem_of_mem_filter hrow)
        exact absurd rfl hnew
    · exact .inl
  · have hselects : ∀ row ∈ rows, query.selects (f row) = query.selects row := by
      intro row hmem
      refine selects_of_lasting (hf row).1 ?_
      rcases h.status with hnone | hsame
      · exact .inl hnone
      · exact .inr (hsame row hmem (f row) (hact ▸ List.mem_map_of_mem hmem) (hf row).1.id)
    have hmap : ((act rows event).filter query.selects).map view = (rows.filter query.selects).map view := by
      have hfilter : rows.filter (query.selects ∘ f) = rows.filter query.selects := List.filter_congr hselects
      rw [hact, List.filter_map, List.map_map, hfilter]
      exact List.map_congr_left fun row _ => hview row (f row) (hf row).1
    rw [hmap]

/-- What a query selects up to a key stays the same. -/
theorem selected_of_goesOn {β : Type} {view : StoredOperation → β}
    (hview : ∀ row row', Lasting row row' → view row' = view row) {v : β}
    (hbelow : ∀ row, view row = v → ∃ key ∈ head, row.key ≤ key) (h : GoesOn kinds query head rows rows') :
    v ∈ (rows'.filter query.selects).map view ↔ v ∈ (rows.filter query.selects).map view := by
  refine Reaches.invariant
    (P := fun later => v ∈ (later.filter query.selects).map view ↔ v ∈ (rows.filter query.selects).map view) ?_ h Iff.rfl
  intro later event next hok hact hlater
  obtain rfl := Option.some.inj hact
  exact (selected_of_undisturbed hview hbelow hok).trans hlater

end Apmpr.State
