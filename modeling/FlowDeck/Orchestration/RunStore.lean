import FlowDeck.Library.Versions
import FlowDeck.Orchestration.ChildExecution
import FlowDeck.Orchestration.Types

namespace RunStore

open Orchestration

/-- The identifiers of events, outbox entries and reviews: random ones, and those derived from the
digest of a completion key. -/
inductive RecordId
  | uuid (text : String)
  | completionReview (digest : String)
  | completionEvent (digest : String)
  | completionOutbox (digest : String)
  deriving DecidableEq

def RecordId.text : RecordId → String
  | .uuid text => text
  | .completionReview digest => "completion-review-" ++ digest
  | .completionEvent digest => "completion-event-" ++ digest
  | .completionOutbox digest => "outbox-" ++ digest

structure TaskRunRow where
  runId : String
  contractId : String
  strategy : String
  state : OrchestrationPhase
  aggregateVersion : Nat
  currentSha : Option String
  createdAt : Nat
  completedAt : Option Nat
  deriving DecidableEq

/-- What a completed review records of its decision. -/
structure Decision where
  policyVersion : String
  runId : String
  stateVersion : Nat
  stateFingerprint : String
  verificationId : String
  verificationTargetSha : String
  evidenceIds : List String
  decidedPhase : OrchestrationPhase
  deriving DecidableEq

/-- The payload of an event. -/
inductive EventData
  | queued (runType : String)
  | status (previousStatus newStatus : RunStatus) (stage : Option String)
  | progress (stage : Option String) (progress : Option Nat)
  | decision (decision : Decision)
  deriving DecidableEq

/-- A row of `events` with aggregate type `task_run`. -/
structure EventRow where
  eventId : RecordId
  eventType : String
  causationId : Option String
  correlationId : String
  aggregateId : String
  aggregateVersion : Nat
  timestamp : Nat
  data : EventData
  deriving DecidableEq

inductive IdempotencyKey
  | entry (id : RecordId)
  | completion (key : String)
  deriving DecidableEq

structure OutboxRow where
  id : RecordId
  eventId : RecordId
  eventType : String
  aggregateId : String
  data : EventData
  idempotencyKey : IdempotencyKey
  sourceComponent : String
  deriving DecidableEq

inductive ReviewStatus
  | pending
  | running
  | completed
  | failed
  deriving DecidableEq

/-- A row of `heidi_completion_reviews`; a decision of `none` is the column's default. -/
structure ReviewRow where
  id : RecordId
  completionKey : String
  sessionId : Option String
  taskRunId : String
  status : ReviewStatus
  candidateId : Option RecordId
  error : Option String
  createdAt : Nat
  completedAt : Option Nat
  stateVersion : Nat
  stateFingerprint : String
  verificationId : String
  decision : Option Decision
  deriving DecidableEq

structure CompletionDecisionRow where
  id : RecordId
  runId : String
  sha : String
  checks : Decision
  idempotencyKey : String
  decidedAt : Nat
  deriving DecidableEq

/-- A text column that should hold a JSON array of texts; an item of `none` is no text. -/
inductive StringArrayColumn
  | notText
  | unparsable
  | notArray
  | array (items : List (Option String))
  deriving DecidableEq

structure VerificationRow where
  id : String
  runId : String
  verificationType : String
  status : String
  stateVersion : Option Int
  stateFingerprint : Option String
  targetSha : String
  isStale : Int
  evidence : StringArrayColumn
  failureReasons : StringArrayColumn
  deriving DecidableEq

structure DeferredReplacementRow where
  oldRunId : String
  status : String
  deriving DecidableEq

/-- What the progress service reports of a run. -/
structure ProgressDiagnostics where
  noProgressCount : Nat
  isStalled : Bool
  lastEvidenceDelta : Int
  lastRepositoryDelta : Int
  deriving DecidableEq

/-- What the other services own of the state a run is judged by. `artifacts` stands for the
evidence, result and file rows that only the fingerprint reads. -/
structure Surroundings where
  children : Table ChildExecution.recordKey
  assignments : Table ChildExecution.AssignmentRow.id
  deferredReplacements : List DeferredReplacementRow
  progress : String → ProgressDiagnostics
  artifacts : String → String
  verifications : Table VerificationRow.id

structure CorrelationRow where
  key : String
  runId : String
  deriving DecidableEq

structure Database where
  taskRuns : Table TaskRunRow.runId
  correlations : Table CorrelationRow.key
  events : List EventRow
  outbox : List OutboxRow
  reviews : Table ReviewRow.completionKey
  decisions : List CompletionDecisionRow
  surroundings : Surroundings

inductive ErrorCode
  | runNotFound
  | runInTerminalState
  | completionPolicyRequired
  | internalError
  | uncoded
  deriving DecidableEq

/-- An exception: its code, where it has one, and its message. -/
structure Failure where
  code : ErrorCode
  message : String
  deriving DecidableEq

def constraintFailure : Failure := { code := .uncoded, message := "constraint failed" }

structure CancelMetadata where
  cancelledAt : Nat
  reason : Option String
  terminationPending : Bool
  unconfirmedChildExecutionIds : List String
  cancellationMode : String
  deriving DecidableEq

/-- The fields of a run that the services below read or return. -/
structure Run where
  id : String
  status : RunStatus
  runType : String
  correlationId : String
  contractId : Option String
  stage : Option String
  error : Option String
  metadata : Option CancelMetadata
  completedAt : Option Nat
  deriving DecidableEq

structure CreateRunInput where
  runType : String
  correlationId : String
  causationId : Option String
  contractId : Option String
  deriving DecidableEq

structure UpdateRunInput where
  status : Option RunStatus
  stage : Option String
  progress : Option Nat
  error : Option String
  errorMessage : Option String
  metadata : Option CancelMetadata
  deriving DecidableEq

/-- `INSERT INTO events`, which the unique columns may refuse. -/
def conflicts (event row : EventRow) : Bool :=
  decide (row.eventId = event.eventId) ||
    (decide (row.aggregateId = event.aggregateId) &&
      decide (row.aggregateVersion = event.aggregateVersion))

def insertEvent? (db : Database) (event : EventRow) : Option Database :=
  if db.events.any (conflicts event) then none
  else some { db with events := db.events ++ [event] }

/-- `INSERT OR IGNORE INTO events`. -/
def insertEventOrIgnore (db : Database) (event : EventRow) : Database :=
  (insertEvent? db event).getD db

def outboxConflicts (entry row : OutboxRow) : Bool :=
  decide (row.id = entry.id) || decide (row.idempotencyKey = entry.idempotencyKey)

def referencesEvent (db : Database) (entry : OutboxRow) : Bool :=
  db.events.any fun event => event.eventId = entry.eventId

/-- `INSERT INTO event_outbox`, refused by a unique column or by the foreign key to its event. -/
def insertOutbox? (db : Database) (entry : OutboxRow) : Option Database :=
  if db.outbox.any (outboxConflicts entry) then none
  else if referencesEvent db entry then some { db with outbox := db.outbox ++ [entry] }
  else none

/-- `INSERT OR IGNORE INTO event_outbox`: a taken key is ignored, a missing event is not. -/
def insertOutboxOrIgnore? (db : Database) (entry : OutboxRow) : Option Database :=
  if db.outbox.any (outboxConflicts entry) then some db
  else if referencesEvent db entry then some { db with outbox := db.outbox ++ [entry] }
  else none

/-- The events of a run, in the order they were stored. -/
def runEvents (db : Database) (runId : String) : List EventRow :=
  db.events.filter fun event => event.aggregateId = runId

/-- `COALESCE(MAX(aggregate_version), 0)` over the events of a run. -/
def maxEventVersion (db : Database) (runId : String) : Nat :=
  Versions.latest ((runEvents db runId).map (·.aggregateVersion))

def toRun (db : Database) (row : TaskRunRow) : Run where
  id := row.runId
  status := mapTaskRunStateToRunStatus row.state
  runType := row.strategy
  correlationId :=
    ((db.correlations.rows.find? fun claim => claim.runId = row.runId).map (·.key)).getD row.runId
  contractId := some row.contractId
  stage := none
  error := none
  metadata := none
  completedAt := row.completedAt

def findById (db : Database) (id : String) : Option Run :=
  (db.taskRuns.get? id).map (toRun db)

def findByCorrelationId (db : Database) (correlationId : String) : Option Run :=
  match ((db.correlations.get? correlationId).map (·.runId)).filter (· ≠ "") with
  | some runId => findById db runId
  | none =>
    let event := db.events.find? fun event => event.correlationId = correlationId
    match (event.map (·.aggregateId)).filter (· ≠ "") with
    | some runId => findById db runId
    | none => findById db correlationId

/-- The random ids a call draws for its event and its outbox entry. -/
structure FreshIds where
  eventId : String
  outboxId : String
  deriving DecidableEq

def outboxEntry (event : EventRow) (id : String) : OutboxRow where
  id := .uuid id
  eventId := event.eventId
  eventType := event.eventType
  aggregateId := event.aggregateId
  data := event.data
  idempotencyKey := .entry (.uuid id)
  sourceComponent := "orchestration"

def insertEventAndOutbox (db : Database) (event : EventRow) (outboxId : String) :
    Except Failure Database :=
  match insertEvent? db event with
  | none => .error constraintFailure
  | some db' =>
    match insertOutbox? db' (outboxEntry event outboxId) with
    | none => .error constraintFailure
    | some db'' => .ok db''

def knownStrategies : List String := ["simple", "planned", "delegated", "audit", "recovery"]

def runRow (input : CreateRunInput) (runId : String) (now : Nat) : TaskRunRow where
  runId := runId
  contractId := input.contractId.getD "contract-default"
  strategy := if input.runType ∈ knownStrategies then input.runType else "simple"
  state := .created
  aggregateVersion := 1
  currentSha := none
  createdAt := now
  completedAt := none

def queuedEvent (input : CreateRunInput) (correlationId runId : String) (ids : FreshIds)
    (now : Nat) : EventRow where
  eventId := .uuid ids.eventId
  eventType := "run.queued"
  causationId := input.causationId
  correlationId := correlationId
  aggregateId := runId
  aggregateVersion := 1
  timestamp := now
  data := .queued input.runType

/-- `createRunWithEventAndOutbox`: a pending run, its first event, and the correlation claim. -/
def createRunWithEventAndOutbox (db : Database) (input : CreateRunInput)
    (correlationId runId : String) (ids : FreshIds) (now : Nat) : Except Failure (Database × Run) :=
  match db.taskRuns.insert? (runRow input runId now) with
  | none => .error constraintFailure
  | some taskRuns => do
    let db' ← insertEventAndOutbox { db with taskRuns }
      (queuedEvent input correlationId runId ids now) ids.outboxId
    let run : Run := {
      id := runId
      status := .pending
      runType := input.runType
      correlationId := correlationId
      contractId := input.contractId
      stage := some "queued"
      error := none
      metadata := none
      completedAt := none }
    if correlationId = "" then pure (db', run)
    else
      match db'.correlations.insert? { key := correlationId, runId := runId } with
      | none => throw constraintFailure
      | some correlations => pure ({ db' with correlations }, run)

def setState (state : OrchestrationPhase) (row : TaskRunRow) : TaskRunRow :=
  { row with state, aggregateVersion := row.aggregateVersion + 1 }

theorem setState_runId (state : OrchestrationPhase) (row : TaskRunRow) :
    (setState state row).runId = row.runId := rfl

/-- `UPDATE task_runs SET state = ?, aggregate_version = aggregate_version + 1 WHERE run_id = ?`. -/
def updateState (db : Database) (runId : String) (state : OrchestrationPhase) : Database :=
  { db with
    taskRuns := db.taskRuns.update (fun row => decide (row.runId = runId)) (setState state)
      (setState_runId state) }

/-- The event of an update, before its version is chosen. -/
structure EventDraft where
  eventType : String
  correlationId : String
  data : EventData
  deriving DecidableEq

def draftedEvent (db : Database) (runId : String) (draft : EventDraft) (ids : FreshIds)
    (now : Nat) : EventRow where
  eventId := .uuid ids.eventId
  eventType := draft.eventType
  causationId := some draft.correlationId
  correlationId := draft.correlationId
  aggregateId := runId
  aggregateVersion := maxEventVersion db runId + 1
  timestamp := now
  data := draft.data

/-- The row update of a status change; there is none without a status. -/
def applyStatus (db : Database) (runId : String) : Option RunStatus → Except Failure Database
  | none => .ok db
  | some status =>
    match mapRunStatusToTaskRunState status with
    | .error message => .error { code := .uncoded, message }
    | .ok .completed =>
      .error {
        code := .completionPolicyRequired
        message := "Only CompletionPolicy may transition a Run to completed." }
    | .ok state => .ok (updateState db runId state)

/-- `updateRunState` of the transactional writer. -/
def updateRunState (db : Database) (id : String) (input : UpdateRunInput) (draft : EventDraft)
    (ids : FreshIds) (now : Nat) : Except Failure (Database × Run) := do
  let db' ← applyStatus db id input.status
  let db'' ← insertEventAndOutbox db' (draftedEvent db' id draft ids now) ids.outboxId
  match db''.taskRuns.get? id with
  | none => throw { code := .uncoded, message := "Run " ++ id ++ " not found after update" }
  | some row =>
    pure (db'', { toRun db'' row with
      correlationId := id
      stage := input.stage
      error := input.error.or input.errorMessage
      metadata := input.metadata })

structure PhaseCas where
  runId : String
  expectedPhase : OrchestrationPhase
  expectedAggregateVersion : Nat
  targetPhase : OrchestrationPhase
  sha : Option String
  deriving DecidableEq

def PhaseCas.matches (input : PhaseCas) (row : TaskRunRow) : Bool :=
  decide (row.runId = input.runId) && decide (row.state = input.expectedPhase) &&
    decide (row.aggregateVersion = input.expectedAggregateVersion)

def PhaseCas.apply (input : PhaseCas) (row : TaskRunRow) : TaskRunRow :=
  { setState input.targetPhase row with
    currentSha := (ChildExecution.present input.sha).or row.currentSha }

theorem PhaseCas.apply_runId (input : PhaseCas) (row : TaskRunRow) :
    (input.apply row).runId = row.runId := rfl

/-- `transitionPhaseCas`: the swap, and whether it found its row. -/
def transitionPhaseCas (db : Database) (input : PhaseCas) : Database × Bool :=
  ({ db with
     taskRuns := db.taskRuns.update (fun row => input.matches row) (fun row => input.apply row)
       (PhaseCas.apply_runId input) },
    decide (0 < db.taskRuns.changes fun row => input.matches row))

end RunStore
