import Apmpr.Daemon.EventClient
import Apmpr.Daemon.Execute
import Apmpr.Daemon.Listing

/-!
# From a request to its answer

How an operation goes through the daemon and what a client is told of it. `begin_operation` writes
a row and puts the operation into the memory of the daemon; its task marks it as running
(`set_running`) and ends it (`finish_operation`), each time first in memory, then in the table,
then by an event. An operation that has ended is kept in memory until sixty-four others have ended
after it (`retain_terminal_operation`). The client, `execute_if_running`, waits for the last event
and then asks for the operation; where waiting fails it asks until the operation has ended. It
is answered from memory, or else from the table (`get_operation`).

An event of the model is what is done under one lock. Any number of operations and clients go on
at once. What a backend emits is never of the kind `operation`. That the log is closed after the
last event is a matter of `EventLog`.

## What is proved

`answers_agree` — in every run in which SQLite does not fail to store the end of an operation,
every client that has an answer has that of an operation that has ended, with the status and
the time its task has ended it with; an operation that was put into memory and has not ended is
there, as it is; the events of an operation tell its statuses once each, in order; and of the
operations whose task has queued them after their end, memory holds no more than the sixty-four of
the queue and those that are about to be dropped. One that has ended and is not in the queue yet
is in memory beside them.
-/

namespace Apmpr.Daemon.Lifecycle

open EventClient (EventKind)
open Execute (Finish)
open LiveBinding (CommandResultV1)
open Listing Operations State

/-- `TERMINAL_OPERATION_RETENTION`. -/
def TERMINAL_OPERATION_RETENTION : ℕ := 64

/-- `OperationStatusV1::terminal`. -/
def terminal : OperationStatus → Bool
  | .succeeded | .failed | .cancelled => true
  | .pending | .running => false

/-- What `finish_operation` is called with, and the time it reads. -/
structure Ending where
  status : OperationStatus
  finishedAt : I64
  result : Option CommandResultV1
  error : Option ApiErrorV1
  terminal : terminal status = true

/-- What `begin_operation` knows of an operation. -/
structure Begun where
  deployment : String
  inst : Option String
  kind : CommandKind
  startedAt : I64

/-- An `OperationV1` in memory, with its result. -/
structure Runtime where
  operation : OperationV1
  result : Option CommandResultV1

/-- The operation that `begin_operation` puts into memory. -/
def Begun.runtime (begun : Begun) (id : String) : Runtime where
  operation := {
    apiVersion := API_VERSION
    id
    deployment := begun.deployment
    inst := begun.inst
    kind := begun.kind
    destructive := operationIsDestructive begun.kind
    status := .pending
    startedAt := begun.startedAt
    finishedAt := none
    error := none }
  result := none

/-- The record that `begin_operation` gives to the store. -/
def Begun.record (begun : Begun) (id : String) : OperationRecord :=
  ⟨id, begun.deployment, begun.inst, stateKind begun.kind, .pending, begun.startedAt, none, none⟩

/-- Where the task of an operation is: what it has done last. -/
inductive Stage where
  /-- The row is written. -/
  | starting (begun : Begun)
  /-- The operation is in memory. -/
  | pending
  /-- `set_running` has changed it in memory, … -/
  | marked
  /-- … has written it, … -/
  | recorded
  /-- … and has emitted the event. -/
  | running
  /-- `finish_operation` has changed it in memory, … -/
  | finished (ending : Ending)
  /-- … has written it, … -/
  | stored (ending : Ending)
  /-- … has emitted the event, … -/
  | announced (ending : Ending)
  /-- … and has put it into the queue; another one may have to go. -/
  | retained (ending : Ending) (evicted : Option String)
  | done (ending : Ending)

/-- What an operation has ended with. -/
def Stage.ending : Stage → Option Ending
  | .finished ending | .stored ending | .announced ending | .retained ending _ | .done ending => some ending
  | .starting _ | .pending | .marked | .recorded | .running => none

/-- The status of an operation in memory. -/
def Stage.status : Stage → OperationStatus
  | .starting _ | .pending => .pending
  | .marked | .recorded | .running => .running
  | .finished ending | .stored ending | .announced ending | .retained ending _ | .done ending => ending.status

/-- Whether an operation has been in memory. -/
def Stage.published : Stage → Bool
  | .starting _ => false
  | _ => true

/-- Whether the end of an operation has been written. -/
def Stage.durable : Stage → Bool
  | .stored _ | .announced _ | .retained _ _ | .done _ => true
  | _ => false

/-- Whether an operation has been put into the queue. -/
def Stage.queued : Stage → Bool
  | .retained _ _ | .done _ => true
  | _ => false

/-- Where a client is in `execute_if_running`, after its request was answered. -/
inductive ClientPhase where
  | waiting
  /-- It is given the events. -/
  | subscribed
  /-- It asks for the operation; it may have seen the last event. -/
  | asking (ended : Bool)
  /-- The operation is not in memory. -/
  | askingStore (ended : Bool)
  | completed (runtime : Runtime)
  | failed

structure System where
  rows : List StoredOperation
  operations : String → Option Runtime
  events : String → List (EventKind × Json)
  terminalOperations : List String
  tasks : String → Option Stage
  clients : ℕ → Option (String × ClientPhase)

/-- The daemon when it starts, on any rows. -/
def System.initial (rows : List StoredOperation) : System :=
  ⟨rows, fun _ => none, fun _ => [], [], fun _ => none, fun _ => none⟩

/-- What the task of an operation does. -/
inductive TaskEvent where
  /-- Whatever is next; SQLite may fail. -/
  | advance (fails : Bool)
  | emit (kind : EventKind) (data : Json)
  | finish (ending : Ending)

/-- What a client does. -/
inductive ClientEvent where
  | subscribe
  /-- `wait_for_terminal_event` has succeeded, … -/
  | receive
  /-- … or not. -/
  | lose
  | look
  | lookStore
  | giveUp

inductive Event where
  | begin (id : String) (begun : Begun)
  | task (id : String) (event : TaskEvent)
  /-- The request of a client is answered with an operation. -/
  | request (client : ℕ) (id : String)
  | client (client : ℕ) (event : ClientEvent)

/-! ### The task of an operation -/

def System.goesOn (s : System) (id : String) (stage : Stage) : System :=
  { s with tasks := Function.update s.tasks id (some stage) }

def System.emit (s : System) (id : String) (kind : EventKind) (data : Json) : System :=
  { s with events := Function.update s.events id (s.events id ++ [(kind, data)]) }

/-- Change an operation in memory, if it is there. -/
def System.modify (s : System) (id : String) (f : Runtime → Runtime) : System :=
  { s with operations := Function.update s.operations id ((s.operations id).map f) }

/-- `let _ = store.update_operation(..)`. -/
def System.update (s : System) (id : String) (status : OperationStatus) (finishedAt : Option I64)
    (error : Option OperationError) (fails : Bool) : System :=
  if fails then s else { s with rows := (updateOperation s.rows id status finishedAt error).1 }

/-- The data of an event of a status. -/
def statusData (status : OperationStatus) : Json := .object [("status", .string status.asStr)]

/-- The JSON of an error. -/
def errorData : Option ApiErrorV1 → Json
  | none => .null
  | some error =>
    .object ([("code", .string error.code), ("message", .string error.message)] ++
      (error.context.map fun context => ("context", context)).toList)

/-- The data of the last event. -/
def endingData (ending : Ending) : Json :=
  .object [("status", .string ending.status.asStr), ("error", errorData ending.error)]

/-- The error that is stored, unless its context holds a secret. -/
def stateError (error : ApiErrorV1) : Option OperationError :=
  match StructuredContext.new (error.context.getD (.object [])) with
  | .ok context => some ⟨error.code, context⟩
  | .error _ => none

/-- An operation with its end. -/
def Runtime.finish (ending : Ending) (runtime : Runtime) : Runtime :=
  ⟨{ runtime.operation with status := ending.status, finishedAt := some ending.finishedAt, error := ending.error },
    ending.result⟩

/-- The queue with an operation more, and the one that has to go. -/
def retainTerminal (queue : List String) (id : String) : List String × Option String :=
  if TERMINAL_OPERATION_RETENTION < (queue ++ [id]).length then ((queue ++ [id]).tail, (queue ++ [id]).head?)
  else (queue ++ [id], none)

/-- The next step of a task. -/
def advance (s : System) (id : String) (fails : Bool) : Stage → Option System
  | .starting begun =>
    some (({ s with operations := Function.update s.operations id (some (begun.runtime id)) }.emit id .operation
      (statusData .pending)).goesOn id .pending)
  | .pending =>
    some ((s.modify id fun runtime => { runtime with operation := { runtime.operation with status := .running } }).goesOn id
      .marked)
  | .marked => some ((s.update id .running none none fails).goesOn id .recorded)
  | .recorded => some ((s.emit id .operation (statusData .running)).goesOn id .running)
  | .running => none
  | .finished ending =>
    some ((s.update id ending.status (some ending.finishedAt) (ending.error.bind stateError) fails).goesOn id
      (.stored ending))
  | .stored ending => some ((s.emit id .operation (endingData ending)).goesOn id (.announced ending))
  | .announced ending =>
    some ({ s with terminalOperations := (retainTerminal s.terminalOperations id).1 }.goesOn id
      (.retained ending (retainTerminal s.terminalOperations id).2))
  | .retained ending none => some (s.goesOn id (.done ending))
  | .retained ending (some evicted) =>
    some ({ s with operations := Function.update s.operations evicted none }.goesOn id (.done ending))
  | .done _ => none

/-- A task ends its operation after its work, or before it when it is cancelled. -/
def finish (s : System) (id : String) (ending : Ending) : Stage → Option System
  | .pending | .running => some ((s.modify id (Runtime.finish ending)).goesOn id (.finished ending))
  | _ => none

def taskStep (s : System) (id : String) (stage : Stage) : TaskEvent → Option System
  | .advance fails => advance s id fails stage
  | .emit kind data => if kind = .operation then none else some (s.emit id kind data)
  | .finish ending => finish s id ending stage

/-! ### A client -/

/-- An event after which an operation does not go on. -/
def ends (event : EventKind × Json) : Bool :=
  event.1 = .operation && EventClient.terminalStatus (.object [("data", event.2)])

/-- It is what `wait_for_terminal_event` looks for. -/
theorem ends_eq (event : EventClient.Event) : event.ends = ends (event.kind, event.data) := rfl

/-- The client has an answer, or asks again. -/
def answered (ended : Bool) (runtime : Runtime) : ClientPhase :=
  if ended || terminal runtime.operation.status then .completed runtime else .asking false

/-- The answer of `get_operation` from the table. -/
def storedAnswer (ended : Bool) (rows : List StoredOperation) (id : String) : ClientPhase :=
  match rows.find? fun row => row.id = id with
  | none => .failed
  | some row =>
    match operationFromStored row with
    | .error _ => .failed
    | .ok operation => answered ended ⟨operation, none⟩

def clientStep (s : System) (id : String) (phase : ClientPhase) : ClientEvent → Option ClientPhase
  | .subscribe =>
    match phase with
    | .waiting => some (if (s.operations id).isSome then .subscribed else .asking false)
    | _ => none
  | .receive =>
    match phase with
    | .subscribed => if (s.events id).any ends then some (.asking true) else none
    | _ => none
  | .lose =>
    match phase with
    | .waiting | .subscribed => some (.asking false)
    | _ => none
  | .look =>
    match phase with
    | .asking ended =>
      match s.operations id with
      | some runtime => some (answered ended runtime)
      | none => some (.askingStore ended)
    | _ => none
  | .lookStore =>
    match phase with
    | .askingStore ended => some (storedAnswer ended s.rows id)
    | _ => none
  | .giveUp =>
    match phase with
    | .completed _ => none
    | _ => some .failed

/-- One event, where it is enabled. -/
def step (s : System) : Event → Option System
  | .begin id begun =>
    if s.tasks id = none ∧ (startOperation s.rows (begun.record id)).2 = true then
      some ({ s with rows := (startOperation s.rows (begun.record id)).1 }.goesOn id (.starting begun))
    else none
  | .task id event => (s.tasks id).bind fun stage => taskStep s id stage event
  | .request client id =>
    if s.clients client = none ∧ ((s.tasks id).any Stage.published) = true then
      some { s with clients := Function.update s.clients client (some (id, .waiting)) }
    else none
  | .client client event =>
    (s.clients client).bind fun (id, phase) => (clientStep s id phase event).map fun phase =>
      { s with clients := Function.update s.clients client (some (id, phase)) }

/-! ### What holds of an operation -/

/-- An operation in memory is as its task has left it, and it is there from its publication to its
eviction. -/
def MemoryAgrees (stage : Stage) : Option Runtime → Prop
  | none => stage.published = false ∨ stage.queued = true
  | some runtime => stage.published = true ∧ runtime.operation.status = stage.status ∧
      runtime.operation.finishedAt = stage.ending.map Ending.finishedAt

/-- The row of an operation can be read, and it tells the end once that is written. -/
def RowAgrees (stage : Stage) (row : Option StoredOperation) : Prop :=
  ∃ found, row = some found ∧ (∃ command, commandKind found.kind = some command) ∧
    ∀ ending, stage.ending = some ending → stage.durable = true →
      found.status = ending.status.asStr ∧ found.finishedAt = some ending.finishedAt

/-- What the events of an operation tell, where it has run and where it has not. -/
def Stage.told (ran : Bool) : Stage → List Json
  | .starting _ => []
  | .pending | .marked | .recorded => [statusData .pending]
  | .running => [statusData .pending, statusData .running]
  | .finished _ | .stored _ => statusData .pending :: if ran then [statusData .running] else []
  | .announced ending | .retained ending _ | .done ending =>
    statusData .pending :: (if ran then [statusData .running] else []) ++ [endingData ending]

/-- The data of the events of the kind `operation`. -/
def operationData (events : List (EventKind × Json)) : List Json :=
  (events.filter fun event => event.1 = .operation).map Prod.snd

/-- What a client may rely on. -/
def ClientAgrees (stage : Stage) : ClientPhase → Prop
  | .waiting | .subscribed | .asking false => stage.published = true
  | .asking true => stage.durable = true
  | .askingStore _ => stage.queued = true
  | .completed runtime => ∃ ending, stage.ending = some ending ∧ runtime.operation.status = ending.status ∧
      runtime.operation.finishedAt = some ending.finishedAt
  | .failed => True

/-- The row of an operation. -/
def System.row (s : System) (id : String) : Option StoredOperation := s.rows.find? fun row => row.id = id

/-- Memory, the table, the events and what the clients know agree with the tasks. -/
structure Coherent (s : System) : Prop where
  memory : ∀ id stage, s.tasks id = some stage → MemoryAgrees stage (s.operations id)
  row : ∀ id stage, s.tasks id = some stage → RowAgrees stage (s.row id)
  told : ∀ id stage, s.tasks id = some stage → ∃ ran, operationData (s.events id) = stage.told ran
  absent : ∀ id, s.tasks id = none → s.operations id = none ∧ operationData (s.events id) = []
  clients : ∀ client id phase, s.clients client = some (id, phase) → ∃ stage, s.tasks id = some stage ∧ ClientAgrees stage phase

/-- What is kept in memory of the operations that have ended. -/
structure Retains (s : System) : Prop where
  queue : ∀ id ∈ s.terminalOperations, ∃ stage, s.tasks id = some stage ∧ stage.queued = true
  evicted : ∀ id ending victim, s.tasks id = some (.retained ending (some victim)) →
    ∃ stage, s.tasks victim = some stage ∧ stage.queued = true
  room : s.terminalOperations.length ≤ TERMINAL_OPERATION_RETENTION
  kept : ∀ id stage, s.tasks id = some stage → stage.queued = true → s.operations id ≠ none →
    id ∈ s.terminalOperations ∨ ∃ other ending, s.tasks other = some (.retained ending (some id))

/-- A stage that a task comes to later. -/
structure Later (stage stage' : Stage) : Prop where
  published : stage.published = true → stage'.published = true
  durable : stage.durable = true → stage'.durable = true
  queued : stage.queued = true → stage'.queued = true
  ending : ∀ ending, stage.ending = some ending → stage'.ending = some ending

section Rules

variable {s s' : System} {id : String} {stage stage' : Stage}

theorem Later.refl (stage : Stage) : Later stage stage := ⟨id, id, id, fun _ => id⟩

theorem exists_ending_of_durable (h : stage.durable = true) : ∃ ending, stage.ending = some ending := by
  cases stage with
  | stored ending | announced ending | retained ending _ | done ending => exact ⟨ending, rfl⟩
  | starting _ | pending | marked | recorded | running | finished _ => cases h

theorem durable_of_queued (h : stage.queued = true) : stage.durable = true := by
  cases stage with
  | retained _ _ | done _ => rfl
  | starting _ | pending | marked | recorded | running | finished _ | stored _ | announced _ => cases h

theorem published_of_durable (h : stage.durable = true) : stage.published = true := by
  cases stage with
  | stored _ | announced _ | retained _ _ | done _ => rfl
  | starting _ | pending | marked | recorded | running | finished _ => cases h

theorem published_of_ending {ending : Ending} (h : stage.ending = some ending) : stage.published = true := by
  cases stage with
  | finished _ | stored _ | announced _ | retained _ _ | done _ => rfl
  | starting _ | pending | marked | recorded | running => cases h

/-- A task before the end of its operation goes on. -/
theorem Later.unfinished (hending : stage.ending = none) (hpublished : stage'.published = true) : Later stage stage' := by
  have hdurable : ¬ stage.durable = true := by
    intro hdurable
    obtain ⟨ending, hsome⟩ := exists_ending_of_durable hdurable
    rw [hending] at hsome
    cases hsome
  exact ⟨fun _ => hpublished, fun h => absurd h hdurable, fun h => absurd (durable_of_queued h) hdurable,
    fun ending h => by rw [hending] at h; cases h⟩

/-- A task after the end of its operation goes on. -/
theorem Later.finished {ending : Ending} (h : stage.ending = some ending) (h' : stage'.ending = some ending)
    (hdurable : stage.durable = true → stage'.durable = true) (hqueued : stage.queued = true → stage'.queued = true) :
    Later stage stage' :=
  ⟨fun _ => published_of_ending h', hdurable, hqueued, fun _ hsome => h'.trans (h.symm.trans hsome)⟩

theorem status_of_ending {ending : Ending} (h : stage.ending = some ending) : stage.status = ending.status := by
  cases stage with
  | finished _ | stored _ | announced _ | retained _ _ | done _ =>
    obtain rfl := Option.some.inj h
    rfl
  | starting _ | pending | marked | recorded | running => cases h

/-- An operation that is at an end in memory has ended. -/
theorem exists_ending_of_terminal (h : terminal stage.status = true) : ∃ ending, stage.ending = some ending := by
  cases stage with
  | finished ending | stored ending | announced ending | retained ending _ | done ending => exact ⟨ending, rfl⟩
  | starting _ | pending | marked | recorded | running => cases h

theorem ClientAgrees.later {phase : ClientPhase} (h : ClientAgrees stage phase) (hlater : Later stage stage') :
    ClientAgrees stage' phase := by
  cases phase with
  | waiting | subscribed => exact hlater.published h
  | asking ended =>
    cases ended with
    | false => exact hlater.published h
    | true => exact hlater.durable h
  | askingStore ended => exact hlater.queued h
  | completed runtime =>
    obtain ⟨ending, hending, hruntime⟩ := h
    exact ⟨ending, hlater.ending ending hending, hruntime⟩
  | failed => trivial

/-! ### The table -/

/-- A row is found where it was, if no identifier changes. -/
theorem find?_map_rows {f : StoredOperation → StoredOperation} (hf : ∀ row, (f row).id = row.id) (rows : List StoredOperation)
    (id : String) : (rows.map f).find? (fun row => row.id = id) = (rows.find? fun row => row.id = id).map f := by
  have hsame : ∀ row ∈ rows, ((fun row : StoredOperation => decide (row.id = id)) ∘ f) row = decide (row.id = id) :=
    fun row _ => by rw [Function.comp, hf]
  rw [List.find?_map, List.find?_congr hsame]

/-- What `update_operation` does to a row that is found. -/
theorem find?_update {rows : List StoredOperation} {other : String} {found : StoredOperation}
    (hfound : rows.find? (fun row => row.id = other) = some found) (status : OperationStatus) (finishedAt : Option I64)
    (error : Option OperationError) :
    ∃ updated, (updateOperation rows id status finishedAt error).1.find? (fun row => row.id = other) = some updated ∧
      updated.kind = found.kind ∧ (other = id → updated.status = status.asStr ∧ updated.finishedAt = finishedAt) ∧
      (other ≠ id → updated = found) := by
  have hid : found.id = other := by simpa using List.find?_some hfound
  unfold updateOperation
  split_ifs with hany
  · dsimp only
    rw [find?_map_rows (fun row => by split_ifs <;> rfl), hfound]
    refine ⟨_, rfl, ?_, fun heq => ?_, fun hne => ?_⟩ <;> dsimp only
    · split_ifs <;> rfl
    · rw [if_pos (hid.trans heq)]
      exact ⟨rfl, rfl⟩
    · rw [if_neg (hid ▸ hne)]
  · refine ⟨found, hfound, rfl, fun heq => absurd ?_ hany, fun _ => rfl⟩
    exact List.any_eq_true.mpr ⟨found, List.mem_of_find?_eq_some hfound, decide_eq_true (hid.trans heq)⟩

/-- A row that can be read stays one, and so does a written end, if it is not written over. -/
theorem RowAgrees.update {row : Option StoredOperation} (h : RowAgrees stage row) (hending : ∀ ending, stage'.ending = some ending →
    stage'.durable = true → stage.ending = some ending ∧ stage.durable = true) : RowAgrees stage' row := by
  obtain ⟨found, hfound, hcommand, hend⟩ := h
  refine ⟨found, hfound, hcommand, fun ending hstage hdurable => ?_⟩
  obtain ⟨hstage, hdurable⟩ := hending ending hstage hdurable
  exact hend ending hstage hdurable

/-- The answer from the table once the end is written. -/
theorem storedAnswer_of_rowAgrees (h : RowAgrees stage (s.row id)) (hdurable : stage.durable = true) (ended : Bool) :
    ∃ runtime, storedAnswer ended s.rows id = .completed runtime ∧ ClientAgrees stage (.completed runtime) := by
  obtain ⟨found, hfound, ⟨command, hcommand⟩, hend⟩ := h
  obtain ⟨ending, hending⟩ := exists_ending_of_durable hdurable
  obtain ⟨hstatus, hfinished⟩ := hend ending hending hdurable
  rw [System.row] at hfound
  have hoperation : ∃ operation, operationFromStored found = .ok operation ∧ operation.status = ending.status ∧
      operation.finishedAt = some ending.finishedAt := by
    rw [operationFromStored, hcommand, hstatus, parseOperationStatus_asStr]
    exact ⟨_, rfl, rfl, hfinished⟩
  obtain ⟨operation, hread, hstatus, hfinished⟩ := hoperation
  rw [storedAnswer, hfound]
  dsimp only
  rw [hread]
  dsimp only
  rw [answered, hstatus, ending.terminal, Bool.or_true, if_pos rfl]
  exact ⟨_, rfl, ending, hending, hstatus, hfinished⟩

/-- The answer from memory. -/
theorem answered_of_memoryAgrees {runtime : Runtime} (h : MemoryAgrees stage (some runtime)) {ended : Bool}
    (hended : ended = true → stage.durable = true) : ClientAgrees stage (answered ended runtime) := by
  obtain ⟨hpublished, hstatus, hfinished⟩ := h
  unfold answered
  split_ifs with hanswer
  · obtain ⟨ending, hending⟩ : ∃ ending, stage.ending = some ending := by
      rcases Bool.or_eq_true_iff.mp hanswer with hended' | hterminal
      · exact exists_ending_of_durable (hended hended')
      · exact exists_ending_of_terminal (hstatus ▸ hterminal)
    refine ⟨ending, hending, hstatus.trans (status_of_ending hending), ?_⟩
    rw [hfinished, hending]
    rfl
  · exact hpublished

/-- Where an event says that an operation has ended, its end is written. -/
theorem durable_of_ends {ran : Bool} {events : List (EventKind × Json)} (h : operationData events = stage.told ran)
    (hends : events.any ends = true) : stage.durable = true := by
  obtain ⟨event, hmem, hevent⟩ := List.any_eq_true.mp hends
  obtain ⟨hkind, hterminal⟩ := Bool.and_eq_true_iff.mp hevent
  have hdata : event.2 ∈ stage.told ran :=
    h ▸ List.mem_map_of_mem (List.mem_filter.mpr ⟨hmem, hkind⟩)
  have hpending : event.2 ≠ statusData .pending := by
    intro heq
    rw [heq] at hterminal
    exact absurd hterminal (by decide)
  have hrunning : event.2 ≠ statusData .running := by
    intro heq
    rw [heq] at hterminal
    exact absurd hterminal (by decide)
  cases stage with
  | stored _ | announced _ | retained _ _ | done _ => rfl
  | starting _ => cases hdata
  | pending | marked | recorded => exact absurd (List.mem_singleton.mp hdata) hpending
  | running =>
    rcases List.mem_cons.mp hdata with heq | hdata
    · exact absurd heq hpending
    · exact absurd (List.mem_singleton.mp hdata) hrunning
  | finished _ =>
    rcases List.mem_cons.mp hdata with heq | hdata
    · exact absurd heq hpending
    · cases ran with
      | false => cases hdata
      | true => exact absurd (List.mem_singleton.mp hdata) hrunning

/-- One task goes on, and the others find what they left. -/
theorem Coherent.move (h : Coherent s) (hid : s.tasks id = some stage) (hlater : Later stage stage')
    (htasks : s'.tasks = Function.update s.tasks id (some stage')) (hclients : s'.clients = s.clients)
    (hmemory : MemoryAgrees stage' (s'.operations id)) (hrow : RowAgrees stage' (s'.row id))
    (htold : ∃ ran, operationData (s'.events id) = stage'.told ran)
    (hoperations : ∀ other, other ≠ id → s'.operations other = s.operations other ∨
      s'.operations other = none ∧ ∃ stage, s.tasks other = some stage ∧ stage.queued = true)
    (hrows : ∀ other stage, other ≠ id → RowAgrees stage (s.row other) → RowAgrees stage (s'.row other))
    (hevents : ∀ other, other ≠ id → s'.events other = s.events other) : Coherent s' := by
  have hself : s'.tasks id = some stage' := by rw [htasks, Function.update_self]
  have hother (other : String) (hne : other ≠ id) : s'.tasks other = s.tasks other := by
    rw [htasks, Function.update_of_ne hne]
  constructor
  · intro other found hfound
    by_cases heq : other = id
    · subst heq
      obtain rfl := Option.some.inj (hself.symm.trans hfound)
      exact hmemory
    · rw [hother other heq] at hfound
      rcases hoperations other heq with hsame | ⟨hnone, queued, hqueued, hq⟩
      · rw [hsame]
        exact h.memory other found hfound
      · obtain rfl := Option.some.inj (hfound.symm.trans hqueued)
        rw [hnone]
        exact .inr hq
  · intro other found hfound
    by_cases heq : other = id
    · subst heq
      obtain rfl := Option.some.inj (hself.symm.trans hfound)
      exact hrow
    · rw [hother other heq] at hfound
      exact hrows other found heq (h.row other found hfound)
  · intro other found hfound
    by_cases heq : other = id
    · subst heq
      obtain rfl := Option.some.inj (hself.symm.trans hfound)
      exact htold
    · rw [hother other heq] at hfound
      rw [hevents other heq]
      exact h.told other found hfound
  · intro other habsent
    by_cases heq : other = id
    · subst heq
      rw [hself] at habsent
      cases habsent
    · rw [hother other heq] at habsent
      rcases hoperations other heq with hsame | ⟨-, queued, hqueued, -⟩
      · rw [hsame, hevents other heq]
        exact h.absent other habsent
      · rw [habsent] at hqueued
        cases hqueued
  · intro client other phase hclient
    rw [hclients] at hclient
    obtain ⟨found, hfound, hagrees⟩ := h.clients client other phase hclient
    by_cases heq : other = id
    · subst heq
      obtain rfl := Option.some.inj (hid.symm.trans hfound)
      exact ⟨stage', hself, hagrees.later hlater⟩
    · exact ⟨found, (hother other heq).trans hfound, hagrees⟩

/-- One task goes on that has nothing to do with the queue yet. -/
theorem Retains.move (h : Retains s) (hid : s.tasks id = some stage) (hlater : Later stage stage')
    (hqueued : stage'.queued = false) (htasks : s'.tasks = Function.update s.tasks id (some stage'))
    (hqueue : s'.terminalOperations = s.terminalOperations)
    (hoperations : ∀ other, other ≠ id → s'.operations other = s.operations other) : Retains s' := by
  have hother (other : String) (found : Stage) (hfound : s.tasks other = some found) (hq : found.queued = true) :
      s'.tasks other = some found := by
    have hne : other ≠ id := by
      rintro rfl
      obtain rfl := Option.some.inj (hid.symm.trans hfound)
      rw [hlater.queued hq] at hqueued
      cases hqueued
    rw [htasks, Function.update_of_ne hne, hfound]
  have hback (other : String) (found : Stage) (hfound : s'.tasks other = some found) (hq : found.queued = true) :
      other ≠ id ∧ s.tasks other = some found := by
    have hne : other ≠ id := by
      rintro rfl
      rw [htasks, Function.update_self] at hfound
      obtain rfl := Option.some.inj hfound
      rw [hq] at hqueued
      cases hqueued
    rw [htasks, Function.update_of_ne hne] at hfound
    exact ⟨hne, hfound⟩
  constructor
  · intro other hmem
    rw [hqueue] at hmem
    obtain ⟨found, hfound, hq⟩ := h.queue other hmem
    exact ⟨found, hother other found hfound hq, hq⟩
  · intro other ending victim hfound
    obtain ⟨-, hfound⟩ := hback other _ hfound rfl
    obtain ⟨found, hvictim, hq⟩ := h.evicted other ending victim hfound
    exact ⟨found, hother victim found hvictim hq, hq⟩
  · rw [hqueue]
    exact h.room
  · intro other found hfound hq hpresent
    obtain ⟨hne, hfound⟩ := hback other found hfound hq
    rw [hoperations other hne] at hpresent
    rw [hqueue]
    rcases h.kept other found hfound hq hpresent with hmem | ⟨keeper, ending, hkeeper⟩
    · exact .inl hmem
    · exact .inr ⟨keeper, ending, hother keeper _ hkeeper rfl⟩

/-! ### The queue -/

theorem retainTerminal_length {queue : List String} (h : queue.length ≤ TERMINAL_OPERATION_RETENTION) (id : String) :
    (retainTerminal queue id).1.length ≤ TERMINAL_OPERATION_RETENTION := by
  unfold retainTerminal
  split_ifs with hlength
  · simp only [List.length_tail, List.length_append, List.length_singleton]
    omega
  · exact not_lt.mp hlength

/-- An operation of the queue, or the new one, is in the queue or has to go. -/
theorem mem_retainTerminal {queue : List String} {id other : String} :
    (other ∈ (retainTerminal queue id).1 ∨ (retainTerminal queue id).2 = some other) ↔ other ∈ queue ∨ other = id := by
  have hcons : other ∈ queue ++ [id] ↔ other ∈ (queue ++ [id]).tail ∨ (queue ++ [id]).head? = some other := by
    cases queue ++ [id] with
    | nil => simp
    | cons first rest =>
      rw [List.mem_cons, List.tail_cons, List.head?_cons, Option.some.injEq, or_comm, eq_comm]
  have hnew : other ∈ queue ∨ other = id ↔ other ∈ queue ++ [id] := by rw [List.mem_append, List.mem_singleton]
  rw [hnew]
  unfold retainTerminal
  split_ifs
  · exact hcons.symm
  · simp

/-! ### Steps -/

theorem operationData_emit (events : List (EventKind × Json)) (data : Json) :
    operationData (events ++ [(.operation, data)]) = operationData events ++ [data] := by
  simp [operationData]

theorem operationData_other {kind : EventKind} (hkind : kind ≠ .operation) (events : List (EventKind × Json)) (data : Json) :
    operationData (events ++ [(kind, data)]) = operationData events := by
  simp [operationData, hkind]

/-- Memory changes of the operation alone. -/
theorem operations_modify_ne (f : Runtime → Runtime) {other : String} (hne : other ≠ id) :
    (s.modify id f).operations other = s.operations other := by
  rw [System.modify]
  exact Function.update_of_ne hne ..

theorem memoryAgrees_modify {f : Runtime → Runtime} (hmemory : MemoryAgrees stage (s.operations id))
    (hf : ∀ runtime, MemoryAgrees stage (some runtime) → MemoryAgrees stage' (some (f runtime)))
    (hpresent : stage.published = true ∧ stage.queued = false) : MemoryAgrees stage' ((s.modify id f).operations id) := by
  rw [System.modify]
  dsimp only
  rw [Function.update_self]
  cases hoperation : s.operations id with
  | none =>
    rw [hoperation] at hmemory
    obtain ⟨hpublished, hqueued⟩ := hpresent
    rcases hmemory with hmemory | hmemory
    · rw [hmemory] at hpublished
      cases hpublished
    · rw [hmemory] at hqueued
      cases hqueued
  | some runtime =>
    rw [hoperation] at hmemory
    exact hf runtime hmemory

/-- The row of an operation after the end, or another status, is written. -/
theorem rowAgrees_update (h : RowAgrees stage (s.row id)) (status : OperationStatus) (finishedAt : Option I64)
    (error : Option OperationError) {fails : Bool}
    (hending : ∀ ending, stage'.ending = some ending → stage'.durable = true →
      fails = false ∧ status = ending.status ∧ finishedAt = some ending.finishedAt) :
    RowAgrees stage' ((s.update id status finishedAt error fails).row id) := by
  obtain ⟨found, hfound, hcommand, -⟩ := h
  unfold System.update
  split_ifs with hfails
  · refine ⟨found, hfound, hcommand, fun ending hstage hdurable => ?_⟩
    rw [(hending ending hstage hdurable).1] at hfails
    cases hfails
  · obtain ⟨updated, hupdated, hkind, hsame, -⟩ := @find?_update id _ _ _ hfound status finishedAt error
    refine ⟨updated, hupdated, hkind ▸ hcommand, fun ending hstage hdurable => ?_⟩
    obtain ⟨-, rfl, rfl⟩ := hending ending hstage hdurable
    exact hsame rfl

theorem rowAgrees_update_ne {other : String} {found : Stage} (hne : other ≠ id) (h : RowAgrees found (s.row other))
    (status : OperationStatus) (finishedAt : Option I64) (error : Option OperationError) (fails : Bool) :
    RowAgrees found ((s.update id status finishedAt error fails).row other) := by
  obtain ⟨row, hrow, hagrees⟩ := h
  unfold System.update
  split_ifs
  · exact ⟨row, hrow, hagrees⟩
  · obtain ⟨updated, hupdated, -, -, hsame⟩ := @find?_update id _ _ _ hrow status finishedAt error
    rw [hsame hne] at hupdated
    exact ⟨row, hupdated, hagrees⟩

theorem events_emit_self (kind : EventKind) (data : Json) : (s.emit id kind data).events id = s.events id ++ [(kind, data)] :=
  Function.update_self ..

theorem events_emit_ne {other : String} (hne : other ≠ id) (kind : EventKind) (data : Json) :
    (s.emit id kind data).events other = s.events other := Function.update_of_ne hne ..

/-- What is written of an operation is not undone before its end. -/
theorem RowAgrees.unfinished {row : Option StoredOperation} (h : RowAgrees stage row) (hending : stage'.ending = none) :
    RowAgrees stage' row := by
  refine h.update fun ending hsome => ?_
  rw [hending] at hsome
  cases hsome

/-- An operation that is put into memory. -/
theorem memoryAgrees_runtime (begun : Begun) : MemoryAgrees .pending (some (begun.runtime id)) := ⟨rfl, rfl, rfl⟩

/-- The events of an operation tell one status more. -/
theorem told_emit {data : Json} {ran : Bool} (htold : operationData (s.events id) = stage.told ran)
    (hdata : stage.told ran ++ [data] = stage'.told ran) :
    ∃ ran, operationData ((s.emit id .operation data).events id) = stage'.told ran :=
  ⟨ran, by rw [events_emit_self, operationData_emit, htold, hdata]⟩

theorem tasks_update (status : OperationStatus) (finishedAt : Option I64) (error : Option OperationError) (fails : Bool) :
    (s.update id status finishedAt error fails).tasks = s.tasks ∧ (s.update id status finishedAt error fails).clients = s.clients ∧
      (s.update id status finishedAt error fails).operations = s.operations ∧
      (s.update id status finishedAt error fails).events = s.events ∧
      (s.update id status finishedAt error fails).terminalOperations = s.terminalOperations := by
  unfold System.update
  split_ifs <;> exact ⟨rfl, rfl, rfl, rfl, rfl⟩

/-- Memory that agrees stays so while the end of an operation is handed on. -/
theorem MemoryAgrees.later {memory : Option Runtime} (h : MemoryAgrees stage memory) (hlater : Later stage stage')
    (hpublished : stage.published = true) (hstatus : stage'.status = stage.status) (hending : stage'.ending = stage.ending) :
    MemoryAgrees stage' memory := by
  cases memory with
  | none =>
    rcases h with hfalse | hqueued
    · rw [hpublished] at hfalse
      cases hfalse
    · exact .inr (hlater.queued hqueued)
  | some runtime =>
    obtain ⟨-, hsame, hfinished⟩ := h
    exact ⟨hlater.published hpublished, hsame.trans hstatus.symm, by rw [hfinished, hending]⟩

/-- A task writes a status into the table. -/
theorem Coherent.record {fails : Bool} (h : Coherent s) (hid : s.tasks id = some stage) (hlater : Later stage stage')
    (hpublished : stage.published = true) (hstatus : stage'.status = stage.status)
    (hfinished : stage'.ending = stage.ending) (htold : ∀ ran, stage'.told ran = stage.told ran) (status : OperationStatus) (finishedAt : Option I64)
    (error : Option OperationError)
    (hending : ∀ ending, stage'.ending = some ending → stage'.durable = true →
      fails = false ∧ status = ending.status ∧ finishedAt = some ending.finishedAt) :
    Coherent ((s.update id status finishedAt error fails).goesOn id stage') := by
  obtain ⟨htasks, hclients, hoperations, hevents, -⟩ := @tasks_update s id status finishedAt error fails
  obtain ⟨ran, hran⟩ := h.told id stage hid
  refine h.move hid hlater ?_ hclients ?_ (rowAgrees_update (h.row id stage hid) status finishedAt error hending) ⟨ran, ?_⟩ ?_ ?_ ?_
  · rw [System.goesOn, htasks]
  · show MemoryAgrees stage' ((s.update id status finishedAt error fails).operations id)
    rw [hoperations]
    exact (h.memory id stage hid).later hlater hpublished hstatus hfinished
  · show operationData ((s.update id status finishedAt error fails).events id) = _
    rw [hevents, hran, htold]
  · intro other _
    exact .inl (congrFun hoperations other)
  · exact fun other found hne hrow => rowAgrees_update_ne hne hrow status finishedAt error fails
  · exact fun other _ => congrFun hevents other

theorem Retains.record {fails : Bool} (h : Retains s) (hid : s.tasks id = some stage) (hlater : Later stage stage')
    (hqueued : stage'.queued = false) (status : OperationStatus) (finishedAt : Option I64) (error : Option OperationError) :
    Retains ((s.update id status finishedAt error fails).goesOn id stage') := by
  obtain ⟨htasks, -, hoperations, -, hqueue⟩ := @tasks_update s id status finishedAt error fails
  refine h.move hid hlater hqueued ?_ hqueue fun other _ => congrFun hoperations other
  rw [System.goesOn, htasks]

/-- An operation is put into the queue. -/
theorem Retains.retain {ending : Ending} (h : Retains s) (hid : s.tasks id = some (.announced ending)) :
    Retains ({ s with terminalOperations := (retainTerminal s.terminalOperations id).1 }.goesOn id
      (.retained ending (retainTerminal s.terminalOperations id).2)) := by
  have hself : Function.update s.tasks id (some (.retained ending (retainTerminal s.terminalOperations id).2)) id =
      some (.retained ending (retainTerminal s.terminalOperations id).2) := Function.update_self ..
  -- what is in the queue is there already, or has just come
  have hqueued (other : String) (hmem : other ∈ s.terminalOperations ∨ other = id) : ∃ stage,
      Function.update s.tasks id (some (.retained ending (retainTerminal s.terminalOperations id).2)) other = some stage ∧
        stage.queued = true := by
    by_cases heq : other = id
    · subst heq
      exact ⟨_, hself, rfl⟩
    · rw [Function.update_of_ne heq]
      exact h.queue other (hmem.resolve_right heq)
  constructor
  · exact fun other hmem => hqueued other (mem_retainTerminal.mp (.inl hmem))
  · intro other ended victim hfound
    by_cases heq : other = id
    · subst heq
      have hvictim := Option.some.inj (hself.symm.trans hfound)
      injection hvictim with _ hvictim
      exact hqueued victim (mem_retainTerminal.mp (.inr hvictim))
    · obtain ⟨stage, hstage, hq⟩ := h.evicted other ended victim ((Function.update_of_ne heq ..).symm.trans hfound)
      by_cases heq : victim = id
      · subst heq
        exact ⟨_, hself, rfl⟩
      · exact ⟨stage, (Function.update_of_ne heq ..).trans hstage, hq⟩
  · exact retainTerminal_length h.room id
  · intro other stage hfound hq hpresent
    have hmem : other ∈ s.terminalOperations ∨ other = id ∨ ∃ keeper ended, s.tasks keeper = some (.retained ended (some other)) := by
      by_cases heq : other = id
      · exact .inr (.inl heq)
      · have hfound := (Function.update_of_ne heq ..).symm.trans hfound
        rcases h.kept other stage hfound hq hpresent with hmem | hkeeper
        · exact .inl hmem
        · exact .inr (.inr hkeeper)
    rcases or_assoc.mpr hmem with hmem | ⟨keeper, ended, hkeeper⟩
    · rcases mem_retainTerminal.mpr hmem with hmem | hvictim
      · exact .inl hmem
      · exact .inr ⟨id, ending, hvictim ▸ hself⟩
    · have hne : keeper ≠ id := by
        rintro rfl
        rw [hid] at hkeeper
        cases hkeeper
      exact .inr ⟨keeper, ended, (Function.update_of_ne hne ..).trans hkeeper⟩

/-- The operation that has to go is dropped, if there is one. -/
theorem Retains.evict {ending : Ending} {evicted : Option String} {fails : Bool} (h : Retains s)
    (hid : s.tasks id = some (.retained ending evicted)) (hstep : advance s id fails (.retained ending evicted) = some s') :
    Retains s' := by
  have hparts : s'.tasks = Function.update s.tasks id (some (.done ending)) ∧ s'.terminalOperations = s.terminalOperations ∧
      ∀ other, s'.operations other ≠ none → evicted ≠ some other ∧ s.operations other ≠ none := by
    cases evicted with
    | none =>
      obtain rfl := Option.some.inj hstep
      exact ⟨rfl, rfl, fun other hpresent => ⟨Option.some_ne_none other ∘ Eq.symm, hpresent⟩⟩
    | some victim =>
      obtain rfl := Option.some.inj hstep
      refine ⟨rfl, rfl, fun other hpresent => ?_⟩
      have hne : other ≠ victim := by
        rintro rfl
        exact hpresent (Function.update_self ..)
      exact ⟨fun heq => hne (Option.some.inj heq).symm, fun hnone => hpresent ((Function.update_of_ne hne ..).trans hnone)⟩
  obtain ⟨htasks, hqueue, hoperations⟩ := hparts
  have hself : s'.tasks id = some (.done ending) := by rw [htasks, Function.update_self]
  have hother (other : String) (hne : other ≠ id) : s'.tasks other = s.tasks other := by
    rw [htasks, Function.update_of_ne hne]
  have hqueued (other : String) (hexists : ∃ stage, s.tasks other = some stage ∧ stage.queued = true) :
      ∃ stage, s'.tasks other = some stage ∧ stage.queued = true := by
    by_cases heq : other = id
    · exact heq ▸ ⟨_, hself, rfl⟩
    · rwa [hother other heq]
  constructor
  · rw [hqueue]
    exact fun other hmem => hqueued other (h.queue other hmem)
  · intro other ended victim hfound
    have hne : other ≠ id := by
      rintro rfl
      rw [hself] at hfound
      cases hfound
    exact hqueued victim (h.evicted other ended victim ((hother other hne).symm.trans hfound))
  · rw [hqueue]
    exact h.room
  · intro other stage hfound hq hpresent
    obtain ⟨hnot, hpresent⟩ := hoperations other hpresent
    obtain ⟨before, hbefore, hbq⟩ : ∃ before, s.tasks other = some before ∧ before.queued = true := by
      by_cases heq : other = id
      · exact heq ▸ ⟨_, hid, rfl⟩
      · exact ⟨stage, (hother other heq).symm.trans hfound, hq⟩
    rw [hqueue]
    rcases h.kept other before hbefore hbq hpresent with hmem | ⟨keeper, ended, hkeeper⟩
    · exact .inl hmem
    · have hne : keeper ≠ id := by
        rintro rfl
        rw [hid] at hkeeper
        injection hkeeper with hstage
        injection hstage with _ heq
        exact hnot heq
      exact .inr ⟨keeper, ended, (hother keeper hne).trans hkeeper⟩

/-- The next step of a task keeps what holds, where the end of an operation is stored. -/
theorem Coherent.advance {fails : Bool} (h : Coherent s) (hretains : Retains s) (hid : s.tasks id = some stage)
    (hstep : advance s id fails stage = some s') (hdurable : ∀ ending, stage = .finished ending → fails = false) :
    Coherent s' := by
  have hmemory := h.memory id stage hid
  have hrow := h.row id stage hid
  obtain ⟨ran, htold⟩ := h.told id stage hid
  cases stage with
  | starting begun =>
    obtain rfl := Option.some.inj hstep
    have hlater : Later (.starting begun) .pending := .unfinished rfl rfl
    refine h.move hid hlater rfl rfl ?_ (hrow.unfinished rfl) (told_emit htold rfl) ?_ ?_ ?_
    · show MemoryAgrees .pending (Function.update s.operations id (some (begun.runtime id)) id)
      rw [Function.update_self]
      exact memoryAgrees_runtime begun
    · exact fun other hne => .inl (Function.update_of_ne hne ..)
    · exact fun _ _ _ hagrees => hagrees
    · exact fun other hne => events_emit_ne hne ..
  | pending =>
    obtain rfl := Option.some.inj hstep
    have hlater : Later .pending .marked := .unfinished rfl rfl
    refine h.move hid hlater rfl rfl ?_ (hrow.unfinished rfl) ⟨ran, htold⟩ ?_ ?_ fun _ _ => rfl
    · exact memoryAgrees_modify hmemory (fun runtime hruntime => ⟨rfl, rfl, hruntime.2.2⟩) ⟨rfl, rfl⟩
    · exact fun other hne => .inl (operations_modify_ne _ hne)
    · exact fun _ _ _ hagrees => hagrees
  | marked =>
    obtain rfl := Option.some.inj hstep
    have hlater : Later .marked .recorded := .unfinished rfl rfl
    refine h.record hid hlater rfl rfl rfl (fun _ => rfl) _ _ _ fun ending hsome => ?_
    cases hsome
  | recorded =>
    obtain rfl := Option.some.inj hstep
    have hlater : Later .recorded .running := .unfinished rfl rfl
    refine h.move hid hlater rfl rfl ?_ (hrow.unfinished rfl) (told_emit htold rfl) ?_ ?_ ?_
    · exact hmemory
    · exact fun other _ => .inl rfl
    · exact fun _ _ _ hagrees => hagrees
    · exact fun other hne => events_emit_ne hne ..
  | running => cases hstep
  | finished ending =>
    obtain rfl := Option.some.inj hstep
    obtain rfl := hdurable ending rfl
    have hlater : Later (.finished ending) (.stored ending) := .finished rfl rfl (fun _ => rfl) fun hq => by cases hq
    refine h.record hid hlater rfl rfl rfl (fun _ => rfl) _ _ _ fun found hsome _ => ?_
    obtain rfl := Option.some.inj hsome
    exact ⟨rfl, rfl, rfl⟩
  | stored ending =>
    obtain rfl := Option.some.inj hstep
    have hlater : Later (.stored ending) (.announced ending) := .finished rfl rfl (fun _ => rfl) fun hq => by cases hq
    refine h.move hid hlater rfl rfl ?_ (hrow.update fun _ hsome _ => ⟨hsome, rfl⟩) (told_emit htold rfl) ?_ ?_ ?_
    · exact hmemory
    · exact fun other _ => .inl rfl
    · exact fun _ _ _ hagrees => hagrees
    · exact fun other hne => events_emit_ne hne ..
  | announced ending =>
    obtain rfl := Option.some.inj hstep
    have hlater : Later (.announced ending) (.retained ending (retainTerminal s.terminalOperations id).2) :=
      .finished rfl rfl (fun _ => rfl) fun _ => rfl
    refine h.move hid hlater rfl rfl ?_ (hrow.update fun _ hsome _ => ⟨hsome, rfl⟩) ⟨ran, htold⟩ ?_ ?_ fun _ _ => rfl
    · exact hmemory.later hlater rfl rfl rfl
    · exact fun other _ => .inl rfl
    · exact fun _ _ _ hagrees => hagrees
  | retained ending evicted =>
    have hlater : Later (.retained ending evicted) (.done ending) := .finished rfl rfl (fun _ => rfl) fun _ => rfl
    cases evicted with
    | none =>
      obtain rfl := Option.some.inj hstep
      refine h.move hid hlater rfl rfl ?_ (hrow.update fun _ hsome _ => ⟨hsome, rfl⟩) ⟨ran, htold⟩ ?_ ?_ fun _ _ => rfl
      · exact hmemory.later hlater rfl rfl rfl
      · exact fun other _ => .inl rfl
      · exact fun _ _ _ hagrees => hagrees
    | some victim =>
      obtain rfl := Option.some.inj hstep
      obtain ⟨found, hvictim, hq⟩ := hretains.evicted id ending victim hid
      refine h.move hid hlater rfl rfl ?_ (hrow.update fun _ hsome _ => ⟨hsome, rfl⟩) ⟨ran, htold⟩ ?_ ?_ fun _ _ => rfl
      · show MemoryAgrees (.done ending) (Function.update s.operations victim none id)
        by_cases heq : id = victim
        · rw [heq, Function.update_self]
          exact .inr rfl
        · rw [Function.update_of_ne heq]
          exact hmemory.later hlater rfl rfl rfl
      · intro other hne
        show Function.update s.operations victim none other = _ ∨ Function.update s.operations victim none other = none ∧ _
        by_cases heq : other = victim
        · rw [heq, Function.update_self]
          exact .inr ⟨rfl, found, hvictim, hq⟩
        · exact .inl (Function.update_of_ne heq ..)
      · exact fun _ _ _ hagrees => hagrees
  | done ending => cases hstep

/-- The next step of a task keeps the queue. -/
theorem Retains.advance {fails : Bool} (h : Retains s) (hid : s.tasks id = some stage)
    (hstep : advance s id fails stage = some s') : Retains s' := by
  cases stage with
  | starting begun =>
    obtain rfl := Option.some.inj hstep
    have hlater : Later (.starting begun) .pending := .unfinished rfl rfl
    exact h.move hid hlater rfl rfl rfl fun other hne => Function.update_of_ne hne ..
  | pending =>
    obtain rfl := Option.some.inj hstep
    have hlater : Later .pending .marked := .unfinished rfl rfl
    exact h.move hid hlater rfl rfl rfl fun other hne => operations_modify_ne _ hne
  | marked =>
    obtain rfl := Option.some.inj hstep
    have hlater : Later .marked .recorded := .unfinished rfl rfl
    exact h.record hid hlater rfl ..
  | recorded =>
    obtain rfl := Option.some.inj hstep
    have hlater : Later .recorded .running := .unfinished rfl rfl
    exact h.move hid hlater rfl rfl rfl fun _ _ => rfl
  | running => cases hstep
  | finished ending =>
    obtain rfl := Option.some.inj hstep
    have hlater : Later (.finished ending) (.stored ending) := .finished rfl rfl (fun _ => rfl) fun hq => by cases hq
    exact h.record hid hlater rfl ..
  | stored ending =>
    obtain rfl := Option.some.inj hstep
    have hlater : Later (.stored ending) (.announced ending) := .finished rfl rfl (fun _ => rfl) fun hq => by cases hq
    exact h.move hid hlater rfl rfl rfl fun _ _ => rfl
  | announced ending =>
    obtain rfl := Option.some.inj hstep
    exact h.retain hid
  | retained ending evicted =>
    exact h.evict hid hstep
  | done ending => cases hstep

/-- A task ends its operation. -/
theorem Coherent.finish {ending : Ending} (h : Coherent s) (hid : s.tasks id = some stage)
    (hstep : finish s id ending stage = some s') : Coherent s' := by
  have hmemory := h.memory id stage hid
  have hrow := h.row id stage hid
  obtain ⟨ran, htold⟩ := h.told id stage hid
  have hend (hpresent : stage.published = true ∧ stage.queued = false) :
      MemoryAgrees (.finished ending) ((s.modify id (Runtime.finish ending)).operations id) :=
    memoryAgrees_modify hmemory (fun _ _ => ⟨rfl, rfl, rfl⟩) hpresent
  have hwritten : ∀ found, (Stage.finished ending).ending = some found → (Stage.finished ending).durable = true →
      stage.ending = some found ∧ stage.durable = true := by
    intro found _ hdurable
    cases hdurable
  have hstage : (stage = .pending ∨ stage = .running) ∧
      s' = (s.modify id (Runtime.finish ending)).goesOn id (.finished ending) := by
    cases stage with
    | pending => exact ⟨.inl rfl, (Option.some.inj hstep).symm⟩
    | running => exact ⟨.inr rfl, (Option.some.inj hstep).symm⟩
    | starting _ | marked | recorded | finished _ | stored _ | announced _ | retained _ _ | done _ => cases hstep
  obtain ⟨rfl | rfl, rfl⟩ := hstage
  · have hlater : Later .pending (.finished ending) := .unfinished rfl rfl
    exact h.move hid hlater rfl rfl (hend ⟨rfl, rfl⟩) (hrow.update hwritten) ⟨false, htold⟩
      (fun other hne => .inl (operations_modify_ne _ hne)) (fun _ _ _ hagrees => hagrees) fun _ _ => rfl
  · have hlater : Later .running (.finished ending) := .unfinished rfl rfl
    exact h.move hid hlater rfl rfl (hend ⟨rfl, rfl⟩) (hrow.update hwritten) ⟨true, htold⟩
      (fun other hne => .inl (operations_modify_ne _ hne)) (fun _ _ _ hagrees => hagrees) fun _ _ => rfl

theorem Retains.finish {ending : Ending} (h : Retains s) (hid : s.tasks id = some stage)
    (hstep : finish s id ending stage = some s') : Retains s' := by
  cases stage with
  | pending =>
    obtain rfl := Option.some.inj hstep
    have hlater : Later .pending (.finished ending) := .unfinished rfl rfl
    exact h.move hid hlater rfl rfl rfl fun other hne => operations_modify_ne _ hne
  | running =>
    obtain rfl := Option.some.inj hstep
    have hlater : Later .running (.finished ending) := .unfinished rfl rfl
    exact h.move hid hlater rfl rfl rfl fun other hne => operations_modify_ne _ hne
  | starting _ | marked | recorded | finished _ | stored _ | announced _ | retained _ _ | done _ => cases hstep

/-- A backend emits an event. -/
theorem Coherent.emit {kind : EventKind} (h : Coherent s) (hkind : kind ≠ .operation) (data : Json) :
    Coherent (s.emit id kind data) := by
  have hsame (other : String) : operationData ((s.emit id kind data).events other) = operationData (s.events other) := by
    by_cases heq : other = id
    · rw [heq, events_emit_self, operationData_other hkind]
    · rw [events_emit_ne heq]
  refine ⟨h.memory, h.row, fun other stage hstage => ?_, fun other hnone => ?_, h.clients⟩
  · rw [hsame]
    exact h.told other stage hstage
  · rw [hsame]
    exact h.absent other hnone

/-- What `begin_operation` has written. -/
theorem startOperation_cases {rows : List StoredOperation} {record : OperationRecord} (h : (startOperation rows record).2 = true) :
    rows.any (·.id = record.id) = false ∧ (startOperation rows record).1 = rows ++ [record.row] := by
  unfold startOperation at h ⊢
  split at h
  · cases h
  · split_ifs at h ⊢ with htaken
    exact ⟨Bool.eq_false_iff.mpr htaken, rfl⟩

/-- A request begins. -/
theorem Coherent.begin {begun : Begun} (h : Coherent s) (hid : s.tasks id = none)
    (hstart : (startOperation s.rows (begun.record id)).2 = true) :
    Coherent ({ s with rows := (startOperation s.rows (begun.record id)).1 }.goesOn id (.starting begun)) := by
  obtain ⟨hfresh, hrows⟩ := startOperation_cases hstart
  have hself : Function.update s.tasks id (some (.starting begun)) id = some (.starting begun) := Function.update_self ..
  have hother {other : String} {found : Stage} (hfound : s.tasks other = some found) :
      Function.update s.tasks id (some (.starting begun)) other = some found := by
    have hne : other ≠ id := by
      rintro rfl
      rw [hid] at hfound
      cases hfound
    rwa [Function.update_of_ne hne]
  have hback {other : String} {found : Stage}
      (hfound : Function.update s.tasks id (some (.starting begun)) other = some found) :
      other = id ∧ found = .starting begun ∨ s.tasks other = some found := by
    by_cases heq : other = id
    · subst heq
      exact .inl ⟨rfl, (Option.some.inj (hself.symm.trans hfound)).symm⟩
    · exact .inr ((Function.update_of_ne heq ..).symm.trans hfound)
  obtain ⟨hnone, hsilent⟩ := h.absent id hid
  constructor
  · intro other found hfound
    rcases hback hfound with ⟨rfl, rfl⟩ | hfound
    · show MemoryAgrees _ (s.operations other)
      rw [hnone]
      exact .inl rfl
    · exact h.memory other found hfound
  · intro other found hfound
    show RowAgrees found (List.find? _ (startOperation s.rows (begun.record id)).1)
    rw [hrows, List.find?_append]
    rcases hback hfound with ⟨rfl, rfl⟩ | hfound
    · have hmissing : s.rows.find? (fun row => row.id = other) = none := by
        rw [List.find?_eq_none]
        exact fun row hrow htaken => Bool.eq_false_iff.mp hfresh (List.any_eq_true.mpr ⟨row, hrow, htaken⟩)
      have hnew : [(begun.record other).row].find? (fun row => row.id = other) = some (begun.record other).row :=
        List.find?_cons_of_pos (decide_eq_true rfl)
      rw [hmissing, hnew, Option.none_or]
      refine ⟨_, rfl, ⟨begun.kind, ?_⟩, fun ending hending => by cases hending⟩
      exact (congrArg commandKind (asStr_stateKind begun.kind)).trans (commandKind_stored begun.kind)
    · obtain ⟨row, hrow, hagrees⟩ := h.row other found hfound
      rw [System.row] at hrow
      rw [hrow, Option.some_or]
      exact ⟨row, rfl, hagrees⟩
  · intro other found hfound
    rcases hback hfound with ⟨rfl, rfl⟩ | hfound
    · exact ⟨false, hsilent⟩
    · exact h.told other found hfound
  · intro other habsent
    refine h.absent other ?_
    by_contra hsome
    obtain ⟨found, hfound⟩ := Option.ne_none_iff_exists'.mp hsome
    have habsent : Function.update s.tasks id (some (.starting begun)) other = none := habsent
    rw [hother hfound] at habsent
    cases habsent
  · intro client other phase hclient
    obtain ⟨found, hfound, hagrees⟩ := h.clients client other phase hclient
    exact ⟨found, hother hfound, hagrees⟩

theorem Retains.begin {begun : Begun} {rows : List StoredOperation} (h : Retains s) (hid : s.tasks id = none) :
    Retains ({ s with rows }.goesOn id (.starting begun)) := by
  have hother {other : String} {found : Stage} (hfound : s.tasks other = some found) :
      Function.update s.tasks id (some (.starting begun)) other = some found := by
    have hne : other ≠ id := by
      rintro rfl
      rw [hid] at hfound
      cases hfound
    rwa [Function.update_of_ne hne]
  have hback {other : String} {found : Stage}
      (hfound : Function.update s.tasks id (some (.starting begun)) other = some found) (hq : found.queued = true) :
      s.tasks other = some found := by
    by_cases heq : other = id
    · rw [heq, Function.update_self] at hfound
      obtain rfl := Option.some.inj hfound
      cases hq
    · exact (Function.update_of_ne heq ..).symm.trans hfound
  constructor
  · intro other hmem
    obtain ⟨found, hfound, hq⟩ := h.queue other hmem
    exact ⟨found, hother hfound, hq⟩
  · intro other ending victim hfound
    obtain ⟨found, hvictim, hq⟩ := h.evicted other ending victim (hback hfound rfl)
    exact ⟨found, hother hvictim, hq⟩
  · exact h.room
  · intro other found hfound hq hpresent
    rcases h.kept other found (hback hfound hq) hq hpresent with hmem | ⟨keeper, ending, hkeeper⟩
    · exact .inl hmem
    · exact .inr ⟨keeper, ending, hother hkeeper⟩

/-- A client learns nothing wrong. -/
theorem clientStep_agrees {phase phase' : ClientPhase} {event : ClientEvent} (h : Coherent s) (hid : s.tasks id = some stage)
    (hagrees : ClientAgrees stage phase) (hstep : clientStep s id phase event = some phase') : ClientAgrees stage phase' := by
  obtain ⟨ran, htold⟩ := h.told id stage hid
  cases event with
  | subscribe =>
    cases phase with
    | waiting =>
      obtain rfl := Option.some.inj hstep
      split_ifs <;> exact hagrees
    | subscribed | asking _ | askingStore _ | completed _ | failed => cases hstep
  | receive =>
    cases phase with
    | subscribed =>
      simp only [clientStep] at hstep
      split_ifs at hstep with hends
      obtain rfl := Option.some.inj hstep
      exact durable_of_ends htold hends
    | waiting | asking _ | askingStore _ | completed _ | failed => cases hstep
  | lose =>
    cases phase with
    | waiting | subscribed =>
      obtain rfl := Option.some.inj hstep
      exact hagrees
    | asking _ | askingStore _ | completed _ | failed => cases hstep
  | look =>
    cases phase with
    | asking ended =>
      have hpublished : stage.published = true := by
        cases ended with
        | false => exact hagrees
        | true => exact published_of_durable hagrees
      have hmemory := h.memory id stage hid
      simp only [clientStep] at hstep
      cases hoperation : s.operations id with
      | none =>
        rw [hoperation] at hstep hmemory
        obtain rfl := Option.some.inj hstep
        rcases hmemory with hfalse | hqueued
        · rw [hpublished] at hfalse
          cases hfalse
        · exact hqueued
      | some runtime =>
        rw [hoperation] at hstep hmemory
        obtain rfl := Option.some.inj hstep
        exact answered_of_memoryAgrees hmemory fun hended => by rw [hended] at hagrees; exact hagrees
    | waiting | subscribed | askingStore _ | completed _ | failed => cases hstep
  | lookStore =>
    cases phase with
    | askingStore ended =>
      obtain rfl := Option.some.inj hstep
      obtain ⟨runtime, hanswer, hruntime⟩ := storedAnswer_of_rowAgrees (h.row id stage hid) (durable_of_queued hagrees) ended
      rw [hanswer]
      exact hruntime
    | waiting | subscribed | asking _ | completed _ | failed => cases hstep
  | giveUp =>
    cases phase with
    | completed _ => cases hstep
    | waiting | subscribed | asking _ | askingStore _ | failed =>
      obtain rfl := Option.some.inj hstep
      trivial

end Rules

/-! ### Runs -/

/-- SQLite does not fail to store the end of an operation. -/
def EndStored (s : System) (event : Event) : Prop :=
  ∀ id ending, event = .task id (.advance true) → s.tasks id ≠ some (.finished ending)

/-- What a run keeps. -/
structure Kept (s : System) : Prop where
  coherent : Coherent s
  retains : Retains s

theorem Kept.initial (rows : List StoredOperation) : Kept (.initial rows) where
  coherent := {
    memory := fun _ _ h => by cases h
    row := fun _ _ h => by cases h
    told := fun _ _ h => by cases h
    absent := fun _ _ => ⟨rfl, rfl⟩
    clients := fun _ _ _ h => by cases h }
  retains := {
    queue := fun _ h => by cases h
    evicted := fun _ _ _ h => by cases h
    room := Nat.zero_le _
    kept := fun _ _ h => by cases h }

/-- A client goes on. -/
theorem Kept.client {s : System} {client : ℕ} {id : String} {stage : Stage} {phase : ClientPhase} (h : Kept s)
    (hid : s.tasks id = some stage) (hagrees : ClientAgrees stage phase) :
    Kept { s with clients := Function.update s.clients client (some (id, phase)) } := by
  refine ⟨⟨h.coherent.memory, h.coherent.row, h.coherent.told, h.coherent.absent, fun other found phase' hother => ?_⟩,
    h.retains.queue, h.retains.evicted, h.retains.room, h.retains.kept⟩
  dsimp only at hother
  by_cases heq : other = client
  · rw [heq, Function.update_self] at hother
    obtain ⟨rfl, rfl⟩ := Prod.mk.inj (Option.some.inj hother)
    exact ⟨stage, hid, hagrees⟩
  · rw [Function.update_of_ne heq] at hother
    exact h.coherent.clients other found phase' hother

theorem Kept.step {s s' : System} {event : Event} (h : Kept s) (hok : EndStored s event) (hstep : step s event = some s') :
    Kept s' := by
  cases event with
  | begin id begun =>
    simp only [Lifecycle.step] at hstep
    split_ifs at hstep with hbegin
    obtain rfl := Option.some.inj hstep
    exact ⟨h.coherent.begin hbegin.1 hbegin.2, h.retains.begin hbegin.1⟩
  | task id event =>
    obtain ⟨stage, hid, hstep⟩ := Option.bind_eq_some_iff.mp hstep
    cases event with
    | advance fails =>
      refine ⟨h.coherent.advance h.retains hid hstep fun ending hstage => ?_, h.retains.advance hid hstep⟩
      rw [Bool.eq_false_iff]
      rintro rfl
      exact hok id ending rfl (hstage ▸ hid)
    | emit kind data =>
      simp only [taskStep] at hstep
      split_ifs at hstep with hkind
      obtain rfl := Option.some.inj hstep
      exact ⟨h.coherent.emit hkind data, h.retains.queue, h.retains.evicted, h.retains.room, h.retains.kept⟩
    | finish ending => exact ⟨h.coherent.finish hid hstep, h.retains.finish hid hstep⟩
  | request client id =>
    simp only [Lifecycle.step] at hstep
    split_ifs at hstep with hrequest
    obtain rfl := Option.some.inj hstep
    obtain ⟨stage, hid, hpublished⟩ := (Option.any_eq_true _ _).mp hrequest.2
    exact h.client hid hpublished
  | client client event =>
    obtain ⟨⟨id, phase⟩, hclient, hstep⟩ := Option.bind_eq_some_iff.mp hstep
    obtain ⟨phase', hphase, rfl⟩ := Option.map_eq_some_iff.mp hstep
    obtain ⟨stage, hid, hagrees⟩ := h.coherent.clients client id phase hclient
    exact h.client hid (clientStep_agrees h.coherent hid hagrees hphase)

/-- What is told of an operation is how it is. -/
structure Agrees (s : System) : Prop where
  /-- An answer is that of an operation that has ended, with its end. -/
  answers : ∀ client id runtime, s.clients client = some (id, .completed runtime) →
    ∃ stage ending, s.tasks id = some stage ∧ stage.ending = some ending ∧
      runtime.operation.status = ending.status ∧ runtime.operation.finishedAt = some ending.finishedAt
  /-- A client that asks once the end is stored is answered, from memory or from the table. -/
  asked : ∀ id stage ended, s.tasks id = some stage → stage.durable = true →
    (∀ runtime, s.operations id = some runtime → clientStep s id (.asking ended) .look = some (.completed runtime)) ∧
      ∃ runtime, storedAnswer ended s.rows id = .completed runtime
  /-- An operation that has not ended is in memory. -/
  unfinished : ∀ id stage, s.tasks id = some stage → stage.published = true → stage.ending = none →
    ∃ runtime, s.operations id = some runtime ∧ runtime.operation.status = stage.status
  /-- The events tell the statuses of an operation, in order. -/
  told : ∀ id stage, s.tasks id = some stage → ∃ ran, operationData (s.events id) = stage.told ran
  /-- Of the operations that have ended, no more than those of the queue stay in memory, and those
  that are about to be dropped. -/
  retained : s.terminalOperations.length ≤ TERMINAL_OPERATION_RETENTION ∧
    ∀ id stage, s.tasks id = some stage → stage.queued = true → s.operations id ≠ none →
      id ∈ s.terminalOperations ∨ ∃ other ending, s.tasks other = some (.retained ending (some id))

theorem Kept.agrees {s : System} (h : Kept s) : Agrees s where
  answers client id runtime hclient := by
    obtain ⟨stage, hid, ending, hagrees⟩ := h.coherent.clients client id _ hclient
    exact ⟨stage, ending, hid, hagrees⟩
  asked id stage ended hid hdurable := by
    refine ⟨fun runtime hruntime => ?_, ?_⟩
    · have hmemory := h.coherent.memory id stage hid
      rw [hruntime] at hmemory
      obtain ⟨ending, hending⟩ := exists_ending_of_durable hdurable
      have hterminal : terminal runtime.operation.status = true := by
        rw [hmemory.2.1, status_of_ending hending]
        exact ending.terminal
      simp only [clientStep]
      rw [hruntime]
      dsimp only
      rw [answered, hterminal, Bool.or_true, if_pos rfl]
    · obtain ⟨runtime, hanswer, -⟩ := storedAnswer_of_rowAgrees (h.coherent.row id stage hid) hdurable ended
      exact ⟨runtime, hanswer⟩
  unfinished id stage hid hpublished hending := by
    have hmemory := h.coherent.memory id stage hid
    cases hoperation : s.operations id with
    | none =>
      rw [hoperation] at hmemory
      rcases hmemory with hfalse | hqueued
      · rw [hpublished] at hfalse
        cases hfalse
      · obtain ⟨ending, hsome⟩ := exists_ending_of_durable (durable_of_queued hqueued)
        rw [hending] at hsome
        cases hsome
    | some runtime =>
      rw [hoperation] at hmemory
      exact ⟨runtime, rfl, hmemory.2.1⟩
  told := h.coherent.told
  retained := ⟨h.retains.room, h.retains.kept⟩

/-- **Answers agree with what has happened**, in every run in which the end of every operation is
stored. -/
theorem answers_agree (rows : List StoredOperation) (s : System) (h : Reaches step EndStored (.initial rows) s) : Agrees s :=
  (h.invariant (P := Kept) (fun _ _ _ hok hstep hs => hs.step hok hstep) (.initial rows)).agrees

/-- The end of an operation that has succeeded. -/
def success : Ending := ⟨.succeeded, ⟨7000, by decide, by decide⟩, some ⟨0, "", ""⟩, none, rfl⟩

/-- The end of one that was cancelled before it ran. -/
def cancellation : Ending := ⟨.cancelled, ⟨6000, by decide, by decide⟩, none, none, rfl⟩

/-- SQLite does not fail at all. -/
def stores : System → Event → Bool
  | _, .task _ (.advance true) => false
  | _, _ => true

theorem endStored_of_stores {s : System} {event : Event} (h : stores s event = true) : EndStored s event := by
  rintro id ending rfl
  cases h

/-- What the answer of a client says. -/
def System.told (s : System) (client : ℕ) : Option (String × OperationStatus × Option ℤ) :=
  match s.clients client with
  | some (id, .completed runtime) => some (id, runtime.operation.status, runtime.operation.finishedAt.map I64.val)
  | _ => none

/-- Two operations at once, one of which is cancelled before it runs. The first client sees the last event
of the other, the second one asks before the operation is in the queue. -/
def twoOperations : List Event :=
  [.begin "op-1" ⟨"shop", none, .apply, ⟨5000, by decide, by decide⟩⟩,
    .begin "op-2" ⟨"orders", some "api", .apply, ⟨5500, by decide, by decide⟩⟩,
    .task "op-1" (.advance false), .request 0 "op-1", .client 0 .subscribe,
    .task "op-2" (.advance false), .request 1 "op-2",
    .task "op-1" (.advance false), .task "op-2" (.finish cancellation), .client 1 .lose,
    .task "op-1" (.advance false), .task "op-1" (.advance false), .client 1 .look,
    .task "op-1" (.emit .log .null), .task "op-2" (.advance false), .task "op-1" (.finish success),
    .task "op-2" (.advance false), .task "op-1" (.advance false), .task "op-1" (.advance false), .client 0 .receive,
    .task "op-2" (.advance false), .task "op-2" (.advance false),
    .task "op-1" (.advance false), .task "op-1" (.advance false), .client 0 .look]

/-- Both clients are told how their operations have ended. -/
theorem answers_agree_two :
    ∃ s, Agrees s ∧ s.terminalOperations = ["op-2", "op-1"] ∧ s.told 0 = some ("op-1", .succeeded, some 7000) ∧
      s.told 1 = some ("op-2", .cancelled, some 6000) := by
  obtain ⟨s, hs, hend⟩ := exists_reaches_of_execWhere step stores (fun _ _ => endStored_of_stores) (.initial [])
    (fun s => s.terminalOperations = ["op-2", "op-1"] && s.told 0 = some ("op-1", .succeeded, some 7000) &&
      s.told 1 = some ("op-2", .cancelled, some 6000)) twoOperations (by decide +kernel)
  simp only [Bool.and_eq_true, decide_eq_true_eq] at hend
  exact ⟨s, answers_agree [] s hs, hend.1.1, hend.1.2, hend.2⟩

end Apmpr.Daemon.Lifecycle
