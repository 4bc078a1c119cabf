import FlowDeck.Library.InsertionMap
import FlowDeck.Library.Table

namespace ChildExecution

inductive ChildExecutionState
  | queued
  | running
  | cancelRequested
  | completed
  | failed
  | cancelled
  | timedOut
  | unknown
  deriving DecidableEq, Inhabited

structure ChildExecutionRecord where
  executionId : String
  runId : String
  assignmentId : String
  taskCallId : String
  specialistId : Option String
  parentSessionId : String
  childSessionId : Option String
  agentId : String
  status : ChildExecutionState
  background : Bool
  prompt : Option String
  description : Option String
  result : Option String
  error : Option String
  cancelRequested : Bool
  nativeTerminationConfirmed : Bool
  startedAt : Nat
  completedAt : Option Nat
  deriving DecidableEq, Inhabited

inductive AssignmentStatus
  | pending
  | assigned
  | inProgress
  | completed
  | failed
  | skipped
  | cancelled
  deriving DecidableEq

/-- The states the `assignments` table stores. -/
inductive StoredAssignmentStatus
  | pending
  | running
  | completed
  | failed
  | skipped
  | cancelled
  deriving DecidableEq

def AssignmentStatus.stored : AssignmentStatus → StoredAssignmentStatus
  | .pending => .pending
  | .assigned => .pending
  | .inProgress => .running
  | .completed => .completed
  | .failed => .failed
  | .skipped => .skipped
  | .cancelled => .cancelled

structure AssignmentRow where
  id : String
  runId : String
  agentId : String
  description : String
  status : StoredAssignmentStatus
  isRequired : Bool
  deriving DecidableEq

structure SessionRow where
  id : String
  runId : String
  assignmentId : Option String
  agentId : String
  parentSessionId : Option String
  depth : Nat
  status : String
  errorMessage : Option String
  deriving DecidableEq

def recordKey (record : ChildExecutionRecord) : String × String :=
  (record.runId, record.taskCallId)

/-- The durable tables the service works on; `children` are the `child_exec:` rows. -/
structure Database where
  children : Table recordKey
  assignments : Table AssignmentRow.id
  sessions : Table SessionRow.id

/-- The in-memory side: record objects by address, and the three maps that refer to them. -/
structure Service where
  objects : Nat → ChildExecutionRecord
  allocated : Nat
  recordsByTaskCall : InsertionMap String Nat
  recordsByChildSession : InsertionMap String Nat
  recordsByAssignment : InsertionMap String Nat

def Service.fresh : Service where
  objects := fun _ => default
  allocated := 0
  recordsByTaskCall := .empty
  recordsByChildSession := .empty
  recordsByAssignment := .empty

def isTerminalChildState : ChildExecutionState → Bool
  | .completed => true
  | .failed => true
  | .cancelled => true
  | .timedOut => true
  | _ => false

def allowedChildTransitions : ChildExecutionState → List ChildExecutionState
  | .queued => [.running, .completed, .failed, .cancelRequested, .cancelled, .timedOut]
  | .running => [.completed, .failed, .cancelRequested, .cancelled, .timedOut]
  | .cancelRequested => [.cancelled, .failed, .timedOut]
  | .completed => []
  | .failed => []
  | .cancelled => []
  | .timedOut => []
  | .unknown => [.queued, .running, .completed, .failed, .cancelled, .timedOut]

def isValidChildTransition (source target : ChildExecutionState) : Bool :=
  if source = target then true
  else if isTerminalChildState source then false
  else decide (target ∈ allowedChildTransitions source)

structure TransitionExtra where
  result : Option String := none
  error : Option String := none
  cancelRequested : Option Bool := none
  nativeTerminationConfirmed : Option Bool := none
  completedAt : Option (Option Nat) := none

def TransitionExtra.apply (extra : TransitionExtra) (record : ChildExecutionRecord) :
    ChildExecutionRecord :=
  { record with
    result := extra.result.or record.result
    error := extra.error.or record.error
    cancelRequested := extra.cancelRequested.getD record.cancelRequested
    nativeTerminationConfirmed :=
      extra.nativeTerminationConfirmed.getD record.nativeTerminationConfirmed
    completedAt := extra.completedAt.getD record.completedAt }

/-- What a handler answers with; `record` is the address of the record object. -/
structure TransitionResult where
  record : Nat
  changed : Bool
  previousState : ChildExecutionState
  newState : ChildExecutionState
  deriving DecidableEq

def Service.setObject (service : Service) (obj : Nat) (record : ChildExecutionRecord) : Service :=
  { service with objects := Function.update service.objects obj record }

def present (text : Option String) : Option String := text.filter (· ≠ "")

/-- Point the maps at an object, as every successful transition does. -/
def Service.cache (service : Service) (obj : Nat) (record : ChildExecutionRecord) : Service :=
  { service with
    recordsByTaskCall := service.recordsByTaskCall.set record.taskCallId obj
    recordsByAssignment := service.recordsByAssignment.set record.assignmentId obj
    recordsByChildSession :=
      match present record.childSessionId with
      | some session => service.recordsByChildSession.set session obj
      | none => service.recordsByChildSession }

def Database.save (db : Database) (record : ChildExecutionRecord) : Database :=
  { db with children := db.children.upsert record }

/-- The service and its tables, as one handler segment sees them. -/
structure World where
  service : Service
  db : Database

/-- `transitionChild`; `saved` is whether the durable write succeeds. A result of `none` is the
exception of a failed write, which leaves the object changed and the maps as they were. -/
def transitionChild (w : World) (obj : Nat) (targetState : ChildExecutionState)
    (extra : TransitionExtra) (saved : Bool) : World × Option TransitionResult :=
  let record := w.service.objects obj
  let unchanged : TransitionResult :=
    { record := obj, changed := false, previousState := record.status, newState := record.status }
  if record.status = targetState then (w, some unchanged)
  else if isTerminalChildState record.status then (w, some unchanged)
  else if ¬isValidChildTransition record.status targetState then (w, some unchanged)
  else
    let record' := extra.apply { record with status := targetState }
    let service := w.service.setObject obj record'
    if saved then
      ({ service := service.cache obj record', db := w.db.save record' },
        some { record := obj, changed := true, previousState := record.status,
               newState := targetState })
    else ({ w with service }, none)

structure ChildRef where
  taskCallId : Option String
  childSessionId : Option String

def resolveRecord (service : Service) (input : ChildRef) : Option Nat :=
  ((present input.taskCallId).bind service.recordsByTaskCall.get?).or
    ((present input.childSessionId).bind service.recordsByChildSession.get?)

def listChildExecutionsForRun (service : Service) (runId : String) : List ChildExecutionRecord :=
  (service.recordsByTaskCall.values.map service.objects).filter fun record => record.runId = runId

structure Diagnostics where
  activeAssignments : Nat
  completedAssignments : Nat
  failedAssignments : Nat
  activeChildExecutions : Nat
  completedChildExecutions : Nat
  failedChildExecutions : Nat
  currentTerminationPending : Bool
  currentUnconfirmedChildExecutionIds : List String
  childExecutions : List ChildExecutionRecord
  deriving DecidableEq

def isActiveState (state : ChildExecutionState) : Bool :=
  decide (state = .queued) || decide (state = .running)

def isFailedState (state : ChildExecutionState) : Bool :=
  decide (state = .failed) || decide (state = .cancelled) || decide (state = .timedOut)

def isUnconfirmed (record : ChildExecutionRecord) : Bool :=
  !record.nativeTerminationConfirmed && (isActiveState record.status || record.cancelRequested)

def getDiagnosticsForRun (service : Service) (runId : String) : Diagnostics :=
  let list := listChildExecutionsForRun service runId
  let active := list.countP fun record => isActiveState record.status
  let completed := list.countP fun record => record.status = .completed
  let failed := list.countP fun record => isFailedState record.status
  let unconfirmed := (list.filter isUnconfirmed).map (·.executionId)
  { activeAssignments := active
    completedAssignments := completed
    failedAssignments := failed
    activeChildExecutions := active
    completedChildExecutions := completed
    failedChildExecutions := failed
    currentTerminationPending := decide (0 < unconfirmed.length)
    currentUnconfirmedChildExecutionIds := unconfirmed
    childExecutions := list }

def cancelPending (record : ChildExecutionRecord) : Bool :=
  record.cancelRequested && !record.nativeTerminationConfirmed

/-- `listAll`: the durable records of a run that name their call, execution and assignment. -/
def listAll (db : Database) (runId : Option String) : List ChildExecutionRecord :=
  db.children.rows.filter fun record =>
    (present runId).all (· = record.runId) && record.taskCallId ≠ "" && record.executionId ≠ "" &&
      record.assignmentId ≠ ""

/-- The child counts of a snapshot. -/
structure ChildState where
  active : Nat
  activeRequired : Nat
  activeOptional : Nat
  completed : Nat
  failed : Nat
  failedRequired : Nat
  failedOptional : Nat
  cancelRequested : Nat
  deriving DecidableEq

def isRequiredChild (db : Database) (record : ChildExecutionRecord) : Bool :=
  ((db.assignments.get? record.assignmentId).filter fun row => row.runId = record.runId).all
    (·.isRequired)

def isFailedChild (record : ChildExecutionRecord) : Bool :=
  decide (record.status = .failed) || decide (record.status = .timedOut)

def childState (db : Database) (runId : String) : ChildState :=
  let records := listAll db (some runId)
  let required := records.filter (isRequiredChild db)
  let optional := records.filter fun record => !isRequiredChild db record
  { active := records.countP fun record => isActiveState record.status
    activeRequired := required.countP fun record => isActiveState record.status
    activeOptional := optional.countP fun record => isActiveState record.status
    completed := records.countP fun record => record.status = .completed
    failed := records.countP isFailedChild
    failedRequired := required.countP isFailedChild
    failedOptional := optional.countP isFailedChild
    cancelRequested := records.countP cancelPending }

/-- The lifecycle barrier a snapshot derives from the child records. -/
def cancellationPending (db : Database) (runId : String) : Bool :=
  decide (0 < (childState db runId).cancelRequested)

end ChildExecution
