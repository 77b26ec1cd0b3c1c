import Apmpr.Daemon.Operations
import Apmpr.Lib.Registry
import Apmpr.State.History

/-!
# Listing operations

The handler `list_operations` of the crate `apmpr-daemon`: one page of the history of operations,
filtered, newest first, and the cursor of the next page. A client walks the history by following
the cursors, while the daemon goes on writing to it.

## What is proved

`listOperations_page` — a page is one of keyset pagination over the rows the filter matches.
`pages_complete` — where the kinds are the daemon's own, following the cursors ends and yields every
operation that matched at the first request exactly once, newest first.
`build_not_listed` — the column takes any text; a page with another kind on it is an error.
-/

namespace Apmpr.Daemon.Listing

open Apmpr.State Operations

/-- `OPERATION_PAGE_SIZE`. -/
def OPERATION_PAGE_SIZE : ℕ := 50

/-- `API_VERSION`. -/
def API_VERSION : String := "v1"

/-- `CommandKind::segment`. -/
def segment : CommandKind → String
  | .validate => "validate"
  | .plan => "plan"
  | .apply => "apply"
  | .membership => "membership"
  | .status => "status"
  | .routes => "routes"
  | .logs => "logs"
  | .open => "open"
  | .down => "down"
  | .cleanup => "cleanup"
  | .runAction => "run-action"
  | .clone => "clone"

/-- `parse_kind`. -/
def parseKind (value : String) : Option CommandKind :=
  [.validate, .plan, .apply, .membership, .status, .routes, .logs, .open, .down, .cleanup, .runAction, .clone].find?
    fun kind => segment kind = value

/-- `parse_operation_status`. -/
def parseOperationStatus (value : String) : Option OperationStatus :=
  [.pending, .running, .succeeded, .failed, .cancelled].find? fun status => status.asStr = value

/-- `operation_is_destructive`. -/
def operationIsDestructive : CommandKind → Bool
  | .down | .cleanup => true
  | _ => false

/-- `stored_operation_kind`. -/
def storedOperationKind : CommandKind → String
  | .down => "stop"
  | kind => segment kind

/-- `state_kind`. -/
def stateKind : CommandKind → OperationKind
  | .apply => .apply
  | .membership => .membership
  | .down => .stop
  | .cleanup => .cleanup
  | kind => .other (segment kind)

/-- `ApiErrorV1`. -/
structure ApiErrorV1 where
  code : String
  message : String
  context : Option Json

/-- `OperationV1`; a listed operation has no result. -/
structure OperationV1 where
  apiVersion : String
  id : String
  deployment : String
  inst : Option String
  kind : CommandKind
  destructive : Bool
  status : OperationStatus
  startedAt : I64
  finishedAt : Option I64
  error : Option ApiErrorV1

/-- `OperationsV1`. -/
structure OperationsV1 where
  apiVersion : String
  operations : List OperationV1
  nextCursor : Option String

/-- `OperationsQuery`: the parameters of a request. -/
structure OperationsQuery where
  deployment : Option String
  inst : Option String
  kind : Option String
  status : Option String
  cursor : Option String

/-- The command of a stored kind. -/
def commandKind (kind : String) : Option CommandKind :=
  parseKind (if kind = "start" then "apply" else if kind = "stop" then "down" else kind)

/-- `operation_from_stored`. -/
def operationFromStored (stored : StoredOperation) : Except ApiErrorV1 OperationV1 :=
  match commandKind stored.kind with
  | none => .error ⟨"stored_operation_invalid", "unknown stored operation kind", none⟩
  | some kind =>
    match parseOperationStatus stored.status with
    | none => .error ⟨"stored_operation_invalid", "unknown stored operation status", none⟩
    | some status => .ok {
        apiVersion := API_VERSION
        id := stored.id
        deployment := stored.deployment
        inst := stored.inst
        kind
        destructive := operationIsDestructive kind
        status
        startedAt := stored.startedAt
        finishedAt := stored.finishedAt
        error := stored.errorCode.map fun code => ⟨code, "operation recorded a terminal error", stored.errorContext⟩ }

/-- `list_operations`: a page, or a status and an error. -/
def listOperations (rows : List StoredOperation) (query : OperationsQuery) : Except (ℕ × ApiErrorV1) OperationsV1 :=
  let kind := query.kind.map parseKind
  if kind = some none then
    .error (400, ⟨"invalid_operation_kind", "unknown operation kind filter", none⟩)
  else if query.status.any fun status => (parseOperationStatus status).isNone then
    .error (400, ⟨"invalid_operation_status", "unknown operation status filter", none⟩)
  else
    match operations rows ⟨query.deployment, query.inst, kind.join.map storedOperationKind, query.status, query.cursor,
        OPERATION_PAGE_SIZE + 1⟩ with
    | .error error =>
      .error (if error.code = "operation_cursor_not_found" then 400 else 500, ⟨error.code, error.display, none⟩)
    | .ok stored =>
      let hasMore := OPERATION_PAGE_SIZE < stored.length
      let shown := stored.take OPERATION_PAGE_SIZE
      match shown.mapM operationFromStored with
      | .error error => .error (500, error)
      | .ok operations =>
        .ok ⟨API_VERSION, operations, if hasMore then shown.getLast?.map StoredOperation.id else none⟩

/-! ### A walk over the pages -/

/-- What a client asks for, from page to page. -/
structure Filter where
  deployment : Option String
  inst : Option String
  kind : Option CommandKind
  status : Option OperationStatus

/-- The request of a page. -/
def Filter.request (filter : Filter) (cursor : Option String) : OperationsQuery :=
  ⟨filter.deployment, filter.inst, filter.kind.map segment, filter.status.map OperationStatus.asStr, cursor⟩

/-- The operations a client comes to, by following the cursors: what is stored may be different
for each request. -/
inductive Walk (filter : Filter) : (ℕ → List StoredOperation) → Option String → List OperationV1 → Prop where
  | last {stored : ℕ → List StoredOperation} {cursor : Option String} {page : OperationsV1}
      (h : listOperations (stored 0) (filter.request cursor) = .ok page) (hlast : page.nextCursor = none) :
      Walk filter stored cursor page.operations
  | next {stored : ℕ → List StoredOperation} {cursor : Option String} {page : OperationsV1} {next : String}
      {rest : List OperationV1} (h : listOperations (stored 0) (filter.request cursor) = .ok page)
      (hnext : page.nextCursor = some next) (hrest : Walk filter (fun i => stored (i + 1)) (some next) rest) :
      Walk filter stored cursor (page.operations ++ rest)

/-- A client comes to one list of operations only. -/
theorem Walk.unique {filter : Filter} {stored : ℕ → List StoredOperation} {cursor : Option String}
    {operations operations' : List OperationV1} (h : Walk filter stored cursor operations)
    (h' : Walk filter stored cursor operations') : operations = operations' := by
  induction h generalizing operations' with
  | last hpage hlast =>
    cases h' with
    | last hpage' _ => rw [Except.ok.inj (hpage.symm.trans hpage')]
    | next hpage' hnext' _ =>
      rw [Except.ok.inj (hpage'.symm.trans hpage), hlast] at hnext'
      cases hnext'
  | next hpage hnext _ ih =>
    cases h' with
    | last hpage' hlast' =>
      rw [Except.ok.inj (hpage'.symm.trans hpage), hnext] at hlast'
      cases hlast'
    | next hpage' hnext' hrest' =>
      obtain rfl := Except.ok.inj (hpage.symm.trans hpage')
      rw [hnext] at hnext'
      obtain rfl := Option.some.inj hnext'
      rw [ih hrest']

/-! ### Kinds and states -/

/-- The kinds the daemon writes, and the one an earlier version wrote. -/
def DaemonKind (kind : String) : Prop := kind = "start" ∨ ∃ command, kind = (stateKind command).asStr

theorem asStr_stateKind (kind : CommandKind) : (stateKind kind).asStr = storedOperationKind kind := by
  cases kind <;> rfl

theorem parseKind_segment (kind : CommandKind) : parseKind (segment kind) = some kind := by
  cases kind <;> decide

theorem commandKind_stored (kind : CommandKind) : commandKind (storedOperationKind kind) = some kind := by
  cases kind <;> decide

theorem stored_ne_start (kind : CommandKind) : storedOperationKind kind ≠ "start" := by
  cases kind <;> decide

theorem parseOperationStatus_asStr (status : OperationStatus) : parseOperationStatus status.asStr = some status := by
  cases status <;> decide

/-- The command of a kind the daemon writes is known. -/
theorem commandKind_of_daemonKind {kind : String} (h : DaemonKind kind) : ∃ command, commandKind kind = some command := by
  rcases h with rfl | ⟨command, rfl⟩
  · exact ⟨.apply, by decide⟩
  · exact ⟨command, by rw [asStr_stateKind, commandKind_stored]⟩

/-- The table's filter on the kind is one on the command. -/
theorem selectsKind_iff {kind : String} (h : DaemonKind kind) (command : CommandKind) :
    kind = storedOperationKind command ∨ (storedOperationKind command = "apply" ∧ kind = "start") ↔
      commandKind kind = some command := by
  rcases h with rfl | ⟨written, rfl⟩
  · have hstart : commandKind "start" = some .apply := by decide
    have happly : commandKind "apply" = some .apply := by decide
    rw [hstart]
    constructor
    · rintro (hkind | ⟨hkind, -⟩)
      · exact absurd hkind.symm (stored_ne_start command)
      · rw [← happly, ← hkind, commandKind_stored]
    · rintro ⟨⟩
      exact .inr ⟨rfl, rfl⟩
  · rw [asStr_stateKind, commandKind_stored]
    constructor
    · rintro (hkind | ⟨-, hkind⟩)
      · rw [← commandKind_stored written, hkind, commandKind_stored]
      · exact absurd hkind (stored_ne_start written)
    · rintro ⟨⟩
      exact .inl rfl

/-! ### Pages -/

/-- What is never changed of an operation, as it is listed. -/
structure OperationView where
  id : String
  deployment : String
  inst : Option String
  kind : Option CommandKind
  startedAt : I64

/-- What is listed of a row. -/
def viewOf (row : StoredOperation) : OperationView :=
  ⟨row.id, row.deployment, row.inst, commandKind row.kind, row.startedAt⟩

/-- What is never changed of a listed operation. -/
def OperationV1.view (operation : OperationV1) : OperationView :=
  ⟨operation.id, operation.deployment, operation.inst, some operation.kind, operation.startedAt⟩

/-- What operations are listed by. -/
def OperationView.key (view : OperationView) : OperationKey := toLex (view.startedAt.val, view.id)

/-- An operation is one a client asks for. -/
structure Filter.Matches (filter : Filter) (row : StoredOperation) : Prop where
  deployment : ∀ deployment ∈ filter.deployment, row.deployment = deployment
  inst : ∀ inst ∈ filter.inst, row.inst = some inst
  kind : ∀ kind ∈ filter.kind, commandKind row.kind = some kind
  status : ∀ status ∈ filter.status, row.status = status.asStr

/-- The query a filter makes. -/
def Filter.query (filter : Filter) (cursor : Option String) : OperationQuery :=
  ⟨filter.deployment, filter.inst, filter.kind.map storedOperationKind, filter.status.map OperationStatus.asStr, cursor,
    OPERATION_PAGE_SIZE + 1⟩

/-- What a filter selects of some rows, from the newest down, below a key. -/
def Filter.listed (filter : Filter) (key : Option OperationKey) (rows : List StoredOperation) : List StoredOperation :=
  Keyset.newest StoredOperation.key (Keyset.below StoredOperation.key key (rows.filter (filter.query none).selects))

variable {filter : Filter} {rows : List StoredOperation} {cursor : Option String} {key : Option OperationKey}

theorem selects_iff {row : StoredOperation} (hkind : DaemonKind row.kind) :
    (filter.query none).selects row = true ↔ filter.Matches row := by
  have hkinds : (filter.kind.map storedOperationKind).all
        (fun kind => row.kind = kind || (kind = "apply" && row.kind = "start")) = true ↔
      ∀ kind ∈ filter.kind, commandKind row.kind = some kind := by
    cases filter.kind with
    | none => simp
    | some kind => simp [← selectsKind_iff hkind kind]
  simp only [OperationQuery.selects, Filter.query, Bool.and_eq_true, hkinds]
  constructor
  · rintro ⟨⟨⟨hdeployment, hinst⟩, hkind⟩, hstatus⟩
    refine ⟨?_, ?_, hkind, ?_⟩
    · rintro deployment hfilter
      rw [hfilter] at hdeployment
      simpa using hdeployment
    · rintro inst hfilter
      rw [hfilter] at hinst
      simpa using hinst
    · rintro status hfilter
      rw [hfilter] at hstatus
      simpa using hstatus
  · rintro ⟨hdeployment, hinst, hkind, hstatus⟩
    refine ⟨⟨⟨?_, ?_⟩, hkind⟩, ?_⟩
    · cases hfilter : filter.deployment with
      | none => rfl
      | some deployment => simpa using hdeployment deployment hfilter
    · cases hfilter : filter.inst with
      | none => rfl
      | some inst => simpa using hinst inst hfilter
    · cases hfilter : filter.status with
      | none => rfl
      | some status => simpa using hstatus status hfilter

/-- A row the daemon wrote is listed. -/
theorem operationFromStored_ok {row : StoredOperation} (hrows : Historic DaemonKind rows) (hmem : row ∈ rows) :
    ∃ operation, operationFromStored row = .ok operation ∧ operation.view = viewOf row := by
  obtain ⟨command, hcommand⟩ := commandKind_of_daemonKind (hrows.kind row hmem)
  obtain ⟨status, hstatus⟩ := hrows.status row hmem
  simp only [operationFromStored, hcommand, hstatus, parseOperationStatus_asStr, Except.ok.injEq, exists_eq_left']
  simp only [OperationV1.view, viewOf, hcommand]

theorem mem_listed {row : StoredOperation} :
    row ∈ filter.listed key rows → row ∈ rows := by
  intro hmem
  exact List.mem_of_mem_filter (Keyset.mem_below.mp (Keyset.mem_newest.mp hmem)).1

/-- Rows the daemon wrote are listed, all of them. -/
theorem exists_mapM_operationFromStored (shown : List StoredOperation) (hrows : Historic DaemonKind rows)
    (hmem : ∀ row ∈ shown, row ∈ rows) :
    ∃ operations, shown.mapM operationFromStored = .ok operations ∧
      operations.map OperationV1.view = shown.map viewOf := by
  obtain ⟨operations, hoperations⟩ := exists_mapM_ok fun row hrow =>
    (operationFromStored_ok hrows (hmem row hrow)).imp fun _ h => h.1
  refine ⟨operations, hoperations, (map_eq_of_forall₂ (forall₂_of_mapM_ok hoperations) ?_).symm⟩
  rintro row operation ⟨hrow, hread⟩
  obtain ⟨operation', hread', hview⟩ := operationFromStored_ok hrows (hmem row hrow)
  rw [Except.ok.inj (hread.symm.trans hread'), hview]

/-- A page shows the first of the rows that are listed below its cursor; where there are more, the
last one shown is the next cursor. -/
theorem listOperations_page (filter : Filter) (hrows : Historic DaemonKind rows) (hcursor : cursorKey rows cursor = .ok key) :
    ∃ operations, listOperations rows (filter.request cursor) = .ok ⟨API_VERSION, operations,
        if OPERATION_PAGE_SIZE < (filter.listed key rows).length then
          ((filter.listed key rows).take OPERATION_PAGE_SIZE).getLast?.map StoredOperation.id
        else none⟩ ∧
      operations.map OperationV1.view = ((filter.listed key rows).take OPERATION_PAGE_SIZE).map viewOf := by
  have hkind : (filter.kind.map segment).map parseKind = filter.kind.map some := by
    cases filter.kind with
    | none => rfl
    | some kind => simp [parseKind_segment]
  have hkinds : filter.kind.map (some : CommandKind → Option CommandKind) ≠ some none := by
    cases filter.kind <;> simp
  have hjoin : (filter.kind.map some).join = filter.kind := by
    cases filter.kind <;> rfl
  have hstatus : ¬ ((filter.status.map OperationStatus.asStr).any fun status => (parseOperationStatus status).isNone) = true := by
    cases filter.status with
    | none => simp
    | some status => simp [parseOperationStatus_asStr]
  have hoperations : operations rows (filter.query cursor) = .ok ((filter.listed key rows).take (OPERATION_PAGE_SIZE + 1)) := by
    unfold operations
    rw [if_neg (by simp [Filter.query]), if_neg (by simp [Filter.query, OPERATION_PAGE_SIZE])]
    simp only [Filter.query, hcursor, Except.map]
    rfl
  obtain ⟨listed, hlisted, hviews⟩ := exists_mapM_operationFromStored
    ((filter.listed key rows).take OPERATION_PAGE_SIZE) hrows
    fun row hrow => mem_listed (List.mem_of_mem_take hrow)
  refine ⟨listed, ?_, hviews⟩
  have hmore : OPERATION_PAGE_SIZE < ((filter.listed key rows).take (OPERATION_PAGE_SIZE + 1)).length ↔
      OPERATION_PAGE_SIZE < (filter.listed key rows).length := by
    rw [List.length_take]
    omega
  have hshown : ((filter.listed key rows).take (OPERATION_PAGE_SIZE + 1)).take OPERATION_PAGE_SIZE =
      (filter.listed key rows).take OPERATION_PAGE_SIZE := by
    rw [List.take_take, Nat.min_eq_left (Nat.le_succ _)]
  unfold listOperations
  simp only [Filter.request, hkind]
  rw [if_neg hkinds, if_neg hstatus, hjoin]
  rw [show operations rows ⟨_, _, _, _, _, _⟩ = _ from hoperations]
  simp only [hshown, hlisted, hmore]

/-! ### Following the cursors -/

/-- What is seen of the rows a filter selects. -/
def Filter.views (filter : Filter) (rows : List StoredOperation) : List OperationView :=
  (rows.filter (filter.query none).selects).map viewOf

theorem map_listed (filter : Filter) (key : Option OperationKey) (rows : List StoredOperation) :
    (filter.listed key rows).map viewOf =
      Keyset.newest OperationView.key (Keyset.below OperationView.key key (filter.views rows)) := by
  have hkey : ∀ row, OperationView.key (viewOf row) = StoredOperation.key row := fun _ => rfl
  exact Keyset.map_newest_below hkey key _

/-- The key of a row that was stored before is found by its identifier. -/
theorem cursorKey_of_lasting {later : List StoredOperation} {row row' : StoredOperation}
    (hrows : Historic DaemonKind later) (hmem : row' ∈ later) (hlasting : Lasting row row') :
    cursorKey later (some row.id) = .ok (some row.key) := by
  simp only [cursorKey]
  cases hfind : later.find? (·.id = row.id) with
  | none =>
    have hnot := List.find?_eq_none.mp hfind row' hmem
    simp [hlasting.id] at hnot
  | some found =>
    have hid : found.id = row'.id := by
      rw [hlasting.id]
      simpa using List.find?_some hfind
    obtain rfl := List.inj_on_of_nodup_map hrows.ids (List.mem_of_find?_eq_some hfind) hmem hid
    simp only [hlasting.key]

/-- The daemon's pages are those of keyset pagination. -/
theorem walk_of_keyset {views : ℕ → List OperationView} {key : Option OperationKey} {pages : List (List OperationView)}
    (hwalk : Keyset.Walk OperationView.key OPERATION_PAGE_SIZE views key pages) {stored : ℕ → List StoredOperation}
    {cursor : Option String} (hviews : ∀ i, views i = filter.views (stored i))
    (hrows : ∀ i, Historic DaemonKind (stored i))
    (hlasting : ∀ i, ∀ row ∈ stored i, ∃ row' ∈ stored (i + 1), Lasting row row')
    (hcursor : cursorKey (stored 0) cursor = .ok key) :
    ∃ operations, Walk filter stored cursor operations ∧ operations.map OperationV1.view = pages.flatten := by
  induction hwalk generalizing stored cursor with
  | last hlength =>
    obtain ⟨operations, hpage, hoperations⟩ := listOperations_page filter (hrows 0) hcursor
    rw [hviews 0, ← map_listed] at hlength ⊢
    rw [List.length_map] at hlength
    rw [if_neg (by omega)] at hpage
    refine ⟨operations, .last hpage rfl, ?_⟩
    rw [hoperations, List.take_of_length_le hlength]
    simp
  | next hmore hshown hnext ih =>
    rename_i key shown view pages
    obtain ⟨operations, hpage, hoperations⟩ := listOperations_page filter (hrows 0) hcursor
    rw [hviews 0, ← map_listed] at hmore hshown
    rw [List.length_map] at hmore
    rw [← List.map_take] at hshown
    have hlast : (((filter.listed key (stored 0)).take OPERATION_PAGE_SIZE).getLast?).map viewOf = some view := by
      rw [← List.getLast?_map, hshown, List.getLast?_append, List.getLast?_singleton]
      rfl
    obtain ⟨row, hrow, rfl⟩ := Option.map_eq_some_iff.mp hlast
    rw [if_pos hmore, hrow] at hpage
    have hmem : row ∈ stored 0 := mem_listed (List.mem_of_mem_take (List.mem_of_mem_getLast? hrow))
    obtain ⟨row', hmem', hrow'⟩ := hlasting 0 row hmem
    obtain ⟨rest, hrest, hmap⟩ := @ih (fun i => stored (i + 1)) (some row.id) (fun i => hviews (i + 1))
      (fun i => hrows (i + 1)) (fun i => hlasting (i + 1)) (cursorKey_of_lasting (hrows 1) hmem' hrow')
    refine ⟨operations ++ rest, .next hpage rfl hrest, ?_⟩
    rw [List.map_append, hoperations, hshown, hmap, List.flatten_cons]

/-- The key of the first operation on the first page. -/
def firstKey (filter : Filter) (rows : List StoredOperation) : Option OperationKey :=
  match listOperations rows (filter.request none) with
  | .ok page => page.operations.head?.map fun operation => operation.view.key
  | .error _ => none

theorem firstKey_eq (filter : Filter) (hrows : Historic DaemonKind rows) :
    firstKey filter rows = ((filter.listed none rows).map viewOf).head?.map OperationView.key := by
  obtain ⟨operations, hpage, hoperations⟩ := listOperations_page filter hrows (show cursorKey rows none = .ok none from rfl)
  rw [firstKey, hpage]
  dsimp only
  have hhead : (operations.map OperationV1.view).head? = ((filter.listed none rows).map viewOf).head? := by
    rw [hoperations, List.map_take, List.head?_take, if_neg (by decide)]
  rw [← hhead, List.head?_map, Option.map_map]
  rfl

/-- **Every operation once**: following the cursors from the first page ends, and yields the
operations that matched the filter at the first request, each once and newest first, whatever
newer ones are started and however operations go on; where the filter asks for a status, if the
statuses stay. -/
theorem pages_complete {filter : Filter} {stored : ℕ → List StoredOperation} (hrows : Historic DaemonKind (stored 0))
    (hgoes : ∀ i, GoesOn DaemonKind (filter.query none) (firstKey filter (stored 0)) (stored i) (stored (i + 1))) :
    ∃ operations, Walk filter stored none operations ∧
      (∀ operations', Walk filter stored none operations' → operations' = operations) ∧
      (operations.map fun operation => operation.view.key).Pairwise (· > ·) ∧
      ∀ view, view ∈ operations.map OperationV1.view ↔ ∃ row ∈ stored 0, filter.Matches row ∧ viewOf row = view := by
  have hhistoric : ∀ i, Historic DaemonKind (stored i) := by
    intro i
    induction i with
    | zero => exact hrows
    | succ i ih => exact ih.goesOn (hgoes i)
  have hnodup : ∀ i, ((filter.views (stored i)).map OperationView.key).Nodup := by
    intro i
    have hids : ((stored i).map StoredOperation.key).Nodup := by
      apply List.Nodup.of_map (fun key : OperationKey => (ofLex key).2)
      rw [List.map_map]
      exact (hhistoric i).ids
    rw [Filter.views, List.map_map]
    exact hids.sublist (List.filter_sublist.map _)
  have hlisted := map_listed filter none (stored 0)
  have hdescending : Keyset.Descending OperationView.key ((filter.listed none (stored 0)).map viewOf) := by
    rw [hlisted]
    exact Keyset.descending_newest (Keyset.nodup_below (hnodup 0))
  have hfirst : ∀ view, view ∈ Keyset.below OperationView.key none (filter.views (stored 0)) ↔
      view ∈ (filter.listed none (stored 0)).map viewOf := by
    intro view
    rw [hlisted, Keyset.mem_newest]
  have hselected : ∀ i, ∀ a ∈ (filter.listed none (stored 0)).map viewOf, ∀ view : OperationView, view.key < a.key →
      (view ∈ filter.views (stored i) ↔ view ∈ filter.views (stored 0)) := by
    intro i a ha view hlt
    have hbelow : ∀ row, viewOf row = view → ∃ key ∈ firstKey filter (stored 0), row.key ≤ key := by
      rintro row rfl
      rw [firstKey_eq filter hrows]
      cases hviews : (filter.listed none (stored 0)).map viewOf with
      | nil => simp [hviews] at ha
      | cons first rest =>
        refine ⟨first.key, by simp, hlt.le.trans ?_⟩
        rw [hviews] at ha hdescending
        rcases List.mem_cons.mp ha with rfl | hrest
        · exact le_rfl
        · exact ((List.pairwise_cons.mp hdescending).1 a hrest).le
    induction i with
    | zero => exact Iff.rfl
    | succ i ih =>
      have hview : ∀ row row', Lasting row row' → viewOf row' = viewOf row := by
        intro row row' hlasting
        rw [viewOf, viewOf, hlasting.id, hlasting.deployment, hlasting.inst, hlasting.kind, hlasting.startedAt]
      exact (selected_of_goesOn hview hbelow (hgoes i)).trans ih
  obtain ⟨pages, hwalk, hpages⟩ := Keyset.walk_complete (by decide : 0 < OPERATION_PAGE_SIZE) hnodup hdescending hfirst (by
    intro i a ha view hlt
    rw [hselected (i + 1) a ha view hlt, ← hfirst, Keyset.mem_below]
    simp)
  obtain ⟨operations, hoperations, hviews⟩ := walk_of_keyset hwalk (fun _ => rfl) hhistoric
    (fun i => lasting_of_goesOn (hgoes i)) (show cursorKey (stored 0) none = .ok none from rfl)
  refine ⟨operations, hoperations, fun operations' h => h.unique hoperations, ?_, fun view => ?_⟩
  · have hkeys : operations.map (fun operation => operation.view.key) =
        (operations.map OperationV1.view).map OperationView.key := by
      rw [List.map_map]
      rfl
    rw [hkeys, hviews, hpages, List.pairwise_map]
    exact hdescending
  · rw [hviews, hpages, ← hfirst, Keyset.mem_below, Filter.views, List.mem_map]
    constructor
    · rintro ⟨⟨row, hmem, hview⟩, -⟩
      obtain ⟨hmem, hselects⟩ := List.mem_filter.mp hmem
      exact ⟨row, hmem, (selects_iff (hrows.kind row hmem)).mp hselects, hview⟩
    · rintro ⟨row, hmem, hmatches, hview⟩
      refine ⟨⟨row, List.mem_filter.mpr ⟨hmem, (selects_iff (hrows.kind row hmem)).mpr hmatches⟩, hview⟩, ?_⟩
      rintro _ ⟨⟩

/-- One of the operations on a deployment: two are started at a time. -/
def shopRow (n : ℕ) : StoredOperation where
  id := "op-" ++ toString (1000 + n)
  deployment := "shop"
  inst := none
  kind := if n % 2 = 0 then "start" else "stop"
  status := if n = 50 then "running" else "succeeded"
  startedAt := millis (Fin.ofNat _ (1000 + n / 2))
  finishedAt := none
  errorCode := none
  errorContext := none

/-- One operation more than a page shows. -/
def shopHistory : List StoredOperation := (List.range 51).map shopRow

/-- One that starts while a client lists them. -/
def nextOperation : OperationRecord :=
  ⟨"op-0", "shop", none, stateKind .apply, .pending, millis 2000, none, none⟩

/-- The history while a client lists it: an operation starts after the first page, and another one
comes to its end. -/
def shopStored : ℕ → List StoredOperation
  | 0 => shopHistory
  | _ + 1 => act (act shopHistory (.start nextOperation)) (.update "op-1050" .failed (some (millis 2500)) none)

/-- The first page ends between two operations that were started together; the walk goes on from its
cursor and has all fifty-one, and not the one started meanwhile. -/
theorem pages_complete_shop :
    Historic DaemonKind shopHistory ∧
      (∃ page, listOperations shopHistory (Filter.request ⟨some "shop", none, none, none⟩ none) = .ok page ∧
        page.nextCursor = some "op-1001") ∧
      ∃ operations, Walk ⟨some "shop", none, none, none⟩ shopStored none operations ∧
        operations.map OperationV1.id = (List.range 51).reverse.map fun n => "op-" ++ toString (1000 + n) := by
  have hids : (shopHistory.map StoredOperation.id).Nodup := by decide +kernel
  have hrows : Historic DaemonKind shopHistory := by
    refine ⟨hids, ?_, ?_⟩
    · intro row hmem
      obtain ⟨n, -, rfl⟩ := List.mem_map.mp hmem
      dsimp only [shopRow]
      split_ifs
      · exact .inl rfl
      · exact .inr ⟨.down, rfl⟩
    · intro row hmem
      obtain ⟨n, -, rfl⟩ := List.mem_map.mp hmem
      dsimp only [shopRow]
      split_ifs
      · exact ⟨.running, rfl⟩
      · exact ⟨.succeeded, rfl⟩
  have hfirst : firstKey ⟨some "shop", none, none, none⟩ shopHistory = some (toLex (1025, "op-1050")) := by decide +kernel
  have hcursor : (listOperations shopHistory (Filter.request ⟨some "shop", none, none, none⟩ none)).toOption.bind
      OperationsV1.nextCursor = some "op-1001" := by decide +kernel
  have hstart : Undisturbed DaemonKind (Filter.query ⟨some "shop", none, none, none⟩ none)
      (firstKey ⟨some "shop", none, none, none⟩ shopHistory) shopHistory (.start nextOperation) := by
    refine ⟨?_, ?_, .inl rfl⟩
    · rintro _ ⟨⟩
      exact .inr ⟨.apply, rfl⟩
    · rintro _ ⟨⟩ key hkey
      rw [hfirst] at hkey
      obtain rfl := Option.some.inj hkey
      decide
  have hend (rows : List StoredOperation) : Undisturbed DaemonKind (Filter.query ⟨some "shop", none, none, none⟩ none)
      (firstKey ⟨some "shop", none, none, none⟩ shopHistory) rows (.update "op-1050" .failed (some (millis 2500)) none) := by
    refine ⟨?_, ?_, .inl rfl⟩
    · rintro _ ⟨⟩
    · rintro _ ⟨⟩
  obtain ⟨operations, hwalk, -, hdescending, hviews⟩ :=
    @pages_complete ⟨some "shop", none, none, none⟩ shopStored hrows fun i => by
      cases i with
      | zero => exact .head ⟨_, hstart, rfl⟩ (.single ⟨_, hend _, rfl⟩)
      | succ i => exact .refl
  have hnewest : Keyset.Descending OperationView.key ((List.range 51).reverse.map fun n => viewOf (shopRow n)) := by
    unfold Keyset.Descending
    decide +kernel
  have hshown : operations.map OperationV1.view = (List.range 51).reverse.map fun n => viewOf (shopRow n) := by
    refine Keyset.Descending.eq (List.pairwise_map.mpr (List.pairwise_map.mp hdescending)) hnewest fun view => ?_
    rw [hviews]
    constructor
    · rintro ⟨row, hmem, -, rfl⟩
      obtain ⟨n, hn, rfl⟩ := List.mem_map.mp hmem
      exact List.mem_map.mpr ⟨n, List.mem_reverse.mpr hn, rfl⟩
    · intro hmem
      obtain ⟨n, hn, rfl⟩ := List.mem_map.mp hmem
      refine ⟨shopRow n, List.mem_map_of_mem (List.mem_reverse.mp hn), ⟨?_, nofun, nofun, nofun⟩, rfl⟩
      rintro _ ⟨⟩
      rfl
  refine ⟨hrows, ?_, operations, hwalk, ?_⟩
  · obtain ⟨page, hpage, hnext⟩ := Option.bind_eq_some_iff.mp hcursor
    refine ⟨page, ?_, hnext⟩
    cases hlisted : listOperations shopHistory (Filter.request ⟨some "shop", none, none, none⟩ none) with
    | error error =>
      rw [hlisted] at hpage
      cases hpage
    | ok listed =>
      rw [hlisted] at hpage
      exact congrArg Except.ok (Option.some.inj hpage)
  · have hids := congrArg (List.map OperationView.id) hshown
    rwa [List.map_map, List.map_map] at hids

/-- **A kind that is not the daemon's** ends a walk at its page: the column takes any text, and an
operation that was stored as a build is an error of the server. -/
theorem build_not_listed :
    ∃ rows : List StoredOperation, (rows.map StoredOperation.id).Nodup ∧
      (∀ row ∈ rows, ∃ status : OperationStatus, row.status = status.asStr) ∧
      rows.map StoredOperation.kind = [OperationKind.build.asStr] ∧
      ¬ ∃ operations, Walk ⟨none, none, none, none⟩ (fun _ => rows) none operations := by
  refine ⟨[⟨"op-1", "shop", none, "build", "succeeded", millis 1000, none, none, none⟩], List.nodup_singleton _, ?_, rfl, ?_⟩
  · intro row hmem
    obtain rfl := List.mem_singleton.mp hmem
    exact ⟨.succeeded, rfl⟩
  · have hfails : (listOperations [⟨"op-1", "shop", none, "build", "succeeded", millis 1000, none, none, none⟩]
        (Filter.request ⟨none, none, none, none⟩ none)).toOption.isNone = true := by decide +kernel
    rintro ⟨operations, hwalk⟩
    cases hwalk with
    | last hpage _ => simp [hpage, Except.toOption] at hfails
    | next hpage _ _ => simp [hpage, Except.toOption] at hfails

end Apmpr.Daemon.Listing
