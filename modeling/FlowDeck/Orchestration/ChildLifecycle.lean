import FlowDeck.Library.Machine
import FlowDeck.Orchestration.ChildExecution

namespace ChildLifecycle

open ChildExecution Machine

structure RegisterDelegationInput where
  runId : String
  parentSessionId : String
  taskCallId : String
  targetAgent : String
  specialistId : Option String
  assignmentId : String
  executionId : Option String
  prompt : Option String
  description : Option String
  background : Bool

structure BindChildSessionInput where
  parentSessionId : String
  childSessionId : String
  agentId : Option String
  taskCallId : Option String

/-- What the surroundings answer a segment: the clock, whether its durable write succeeds, and
whether an awaited native abort was confirmed. -/
structure Answers where
  now : Nat
  written : Bool := true
  aborted : Bool := false

/-- What a handler does when the await it stands at resolves. -/
inductive Segment
  | register (input : RegisterDelegationInput) (now : Nat)
  | updateAssignment (id : String) (status : AssignmentStatus) (caught : Bool)
  | writeAssignment (id : String) (status : AssignmentStatus) (caught : Bool)
  | finish (sessionStatus : String) (sessionError : Option String) (result : TransitionResult)
  | abort (obj : Nat) (reason : String)
  | cancelChildren (runId : String) (records : List Nat) (reason : Option String) (native : Bool)
      (count : Nat)
  | crossCheck (sessions : List SessionRow) (reason : Option String) (count : Nat)

inductive Outcome
  | transition (result : Option TransitionResult)
  | registered (obj : Nat)
  | count (count : Nat)
  | thrown (message : String)

/-- A handler call: not begun, awaiting with the segments it still has to run, or settled. -/
inductive Handler
  | idle
  | awaiting (segment : Segment) (rest : List Segment)
  | settled (outcome : Outcome)

structure State where
  world : World
  handlers : Nat → Handler

inductive Action
  | registerDelegation (h : Nat) (input : RegisterDelegationInput) (answers : Answers)
  | bindChildSession (input : BindChildSessionInput) (answers : Answers)
  | markStarted (h : Nat) (input : ChildRef) (answers : Answers)
  | markCompleted (h : Nat) (input : ChildRef) (output : Option String) (answers : Answers)
  | markFailed (h : Nat) (input : ChildRef) (error : Option String) (answers : Answers)
  | markTimedOut (h : Nat) (input : ChildRef) (answers : Answers)
  | markCancelled (h : Nat) (input : ChildRef) (reason : Option String) (confirmed native : Bool)
      (answers : Answers)
  | cancelChildrenForRun (h : Nat) (runId : String) (reason : Option String) (native : Bool)
  | sessionDeleted (h : Nat) (sessionId : String) (answers : Answers)
  | resume (h : Nat) (answers : Answers)
  | reconcileAfterRestart (runId : Option String)
  | restart
  | sessionWritten (row : SessionRow)

/-- Return to the segments below: the caller of a nested handler goes on, a call settles. -/
def returnTo (outcome : Outcome) : List Segment → Handler
  | [] => .settled outcome
  | segment :: rest => .awaiting segment rest

def throwTo (caught : Bool) (message : String) (rest : List Segment) : Handler :=
  if caught then returnTo (.thrown message) rest else .settled (.thrown message)

/-- `updateAssignment` of the assignment service up to its first await. -/
def beginAssignmentUpdate (db : Database) (id : String) (status : AssignmentStatus)
    (caught : Bool) (rest : List Segment) : Handler :=
  match db.assignments.get? id with
  | none => throwTo caught ("Assignment " ++ id ++ " not found") rest
  | some _ => .awaiting (.updateAssignment id status caught) rest

def transitionThenUpdate (w : World) (obj : Nat) (targetState : ChildExecutionState)
    (extra : TransitionExtra) (assignmentStatus : AssignmentStatus) (sessionStatus : String)
    (sessionError : Option String) (rest : List Segment) (written : Bool) : World × Handler :=
  match transitionChild w obj targetState extra written with
  | (w', none) => (w', .settled (.thrown "child record not saved"))
  | (w', some result) =>
    if result.changed then
      (w', beginAssignmentUpdate w'.db (w'.service.objects obj).assignmentId assignmentStatus false
        (.finish sessionStatus sessionError result :: rest))
    else (w', returnTo (.transition (some result)) rest)

def requestCancel (reason : String) (record : ChildExecutionRecord) : ChildExecutionRecord :=
  { record with
    cancelRequested := true
    nativeTerminationConfirmed := false
    error := some reason }

/-- The part of `markCancelled` after the native abort: nothing is read again. -/
def concludeCancel (w : World) (obj : Nat) (reason : String) (confirmed : Bool)
    (rest : List Segment) (answers : Answers) : World × Handler :=
  if confirmed then
    transitionThenUpdate w obj .cancelled
      { cancelRequested := some true
        nativeTerminationConfirmed := some true
        error := some reason
        completedAt := some (some answers.now) }
      .cancelled "cancelled" (some reason) rest answers.written
  else
    let record := requestCancel reason (w.service.objects obj)
    let service := w.service.setObject obj record
    if answers.written then
      ({ service, db := w.db.save record },
        returnTo (.transition (some {
          record := obj
          changed := true
          previousState := record.status
          newState := record.status })) rest)
    else ({ w with service }, .settled (.thrown "child record not saved"))

/-- `markCancelled`; `native` says whether a client or a control port is there to abort with. -/
def beginCancel (w : World) (input : ChildRef) (reason : Option String) (confirmed native : Bool)
    (rest : List Segment) (answers : Answers) : World × Handler :=
  match resolveRecord w.service input with
  | none => (w, returnTo (.transition none) rest)
  | some obj =>
    let record := w.service.objects obj
    if isTerminalChildState record.status then
      (w, returnTo (.transition (some {
        record := obj
        changed := false
        previousState := record.status
        newState := record.status })) rest)
    else
      let reason := reason.getD "Child task cancelled"
      if !confirmed && (present record.childSessionId).isSome && native then
        (w, .awaiting (.abort obj reason) rest)
      else concludeCancel w obj reason confirmed rest answers

def setSession (status : String) (errorMessage : Option String) (row : SessionRow) : SessionRow :=
  if errorMessage.isSome || decide (status = "completed") || decide (status = "failed") then
    { row with status, errorMessage }
  else { row with status }

theorem setSession_id (status : String) (errorMessage : Option String) (row : SessionRow) :
    (setSession status errorMessage row).id = row.id := by
  unfold setSession
  split_ifs <;> rfl

def updateSessionStatus (db : Database) (id : String) (status : String)
    (errorMessage : Option String) : Database :=
  { db with
    sessions := db.sessions.update (fun row => decide (row.id = id)) (setSession status errorMessage)
      (setSession_id status errorMessage) }

def setAssignment (status : AssignmentStatus) (row : AssignmentRow) : AssignmentRow :=
  { row with status := status.stored }

theorem setAssignment_id (status : AssignmentStatus) (row : AssignmentRow) :
    (setAssignment status row).id = row.id := rfl

def updateAssignmentStatus (db : Database) (id : String) (status : AssignmentStatus) : Database :=
  { db with
    assignments := db.assignments.update (fun row => decide (row.id = id)) (setAssignment status)
      (setAssignment_id status) }

def stateText : ChildExecutionState → String
  | .queued => "queued"
  | .running => "running"
  | .cancelRequested => "cancel_requested"
  | .completed => "completed"
  | .failed => "failed"
  | .cancelled => "cancelled"
  | .timedOut => "timed_out"
  | .unknown => "unknown"

/-- The status a freshly bound session row gets. -/
def boundSessionStatus (state : ChildExecutionState) : String :=
  if state = .queued then "running" else stateText state

/-- Create the session row or, where it exists, set its status; failures are swallowed. -/
def writeBoundSession (db : Database) (record : ChildExecutionRecord)
    (input : BindChildSessionInput) : Database :=
  let row : SessionRow := {
    id := input.childSessionId
    runId := record.runId
    assignmentId := some record.assignmentId
    agentId := record.agentId
    parentSessionId := some input.parentSessionId
    depth := 1
    status := boundSessionStatus record.status
    errorMessage := none }
  match db.sessions.insert? row with
  | some sessions => { db with sessions }
  | none => updateSessionStatus db input.childSessionId (boundSessionStatus record.status) none

/-- The record a created session belongs to: the named call's, or the only unbound candidate. -/
def bindCandidate (service : Service) (input : BindChildSessionInput) : Option Nat :=
  match (present input.taskCallId).bind service.recordsByTaskCall.get? with
  | some obj => some obj
  | none =>
    let candidates := service.recordsByTaskCall.values.filter fun obj =>
      decide ((service.objects obj).parentSessionId = input.parentSessionId) &&
        (present (service.objects obj).childSessionId).isNone
    let matching := candidates.filter fun obj =>
      (present input.agentId).all fun agentId => (service.objects obj).agentId = agentId
    match matching with
    | [obj] => some obj
    | _ => none

/-- `bindChildSession`; the answer is the record bound, `none` where it is refused. -/
def bindChildSession (w : World) (input : BindChildSessionInput) (written : Bool) :
    World × Option Nat :=
  match bindCandidate w.service input with
  | none => (w, none)
  | some obj =>
    let record := w.service.objects obj
    let rebinding := (present record.childSessionId).any (· ≠ input.childSessionId)
    let foreign := (w.service.recordsByChildSession.get? input.childSessionId).any fun owner =>
      (w.service.objects owner).executionId ≠ record.executionId
    if rebinding || foreign then (w, none)
    else
      let record' := { record with childSessionId := some input.childSessionId }
      let service := w.service.setObject obj record'
      let db := writeBoundSession w.db record' input
      if written then
        ({ service := { service with
             recordsByChildSession :=
               service.recordsByChildSession.set input.childSessionId obj }
           db := db.save record' }, some obj)
      else ({ service, db }, none)

def delegateAgent (input : RegisterDelegationInput) : String :=
  if input.targetAgent = "" then "unknown-specialist" else input.targetAgent

/-- The record of a delegation, `queued` from the start. -/
def newRecord (input : RegisterDelegationInput) (now : Nat) : ChildExecutionRecord where
  executionId := input.executionId.getD ("exec-" ++ input.taskCallId)
  runId := input.runId
  assignmentId := input.assignmentId
  taskCallId := input.taskCallId
  specialistId := input.specialistId
  parentSessionId := input.parentSessionId
  childSessionId := none
  agentId := delegateAgent input
  status := .queued
  background := input.background
  prompt := input.prompt
  description := input.description
  result := none
  error := none
  cancelRequested := false
  nativeTerminationConfirmed := false
  startedAt := now
  completedAt := none

/-- `registerDelegation` up to its await: the assignment is created, the record is not yet. -/
def beginRegister (w : World) (input : RegisterDelegationInput) (answers : Answers) :
    World × Handler :=
  match w.service.recordsByTaskCall.get? input.taskCallId with
  | some obj => (w, .settled (.registered obj))
  | none =>
    let role := (present input.description).getD
      (if input.targetAgent = "" then "specialist" else input.targetAgent)
    let row : AssignmentRow := {
      id := input.assignmentId
      runId := input.runId
      agentId := delegateAgent input
      description := role
      status := .pending
      isRequired := true }
    match (if answers.written then w.db.assignments.insert? row else none) with
    | none => (w, .settled (.thrown "assignment not created"))
    | some assignments =>
      ({ w with db := { w.db with assignments } },
        .awaiting (.register input answers.now) [])

def Service.allocate (service : Service) (record : ChildExecutionRecord) : Service :=
  { service.setObject service.allocated record with allocated := service.allocated + 1 }

/-- Register the record object, after its durable row. -/
def concludeRegister (w : World) (input : RegisterDelegationInput) (now : Nat) (written : Bool) :
    World × Handler :=
  let record := newRecord input now
  if written then
    let obj := w.service.allocated
    let service := Service.allocate w.service record
    ({ service := { service with
        recordsByTaskCall := service.recordsByTaskCall.set record.taskCallId obj
        recordsByAssignment := service.recordsByAssignment.set record.assignmentId obj }
       db := w.db.save record },
      .settled (.registered obj))
  else (w, .settled (.thrown "child record not saved"))

/-- `getChildExecution` by child session. -/
def childOfSession (service : Service) (sessionId : String) : Option Nat :=
  (present (some sessionId)).bind service.recordsByChildSession.get?

def isOpenSession (row : SessionRow) : Bool :=
  decide (0 < row.depth) && decide (row.status ≠ "completed") && decide (row.status ≠ "cancelled") &&
    decide (row.status ≠ "failed")

/-- One turn of the session cross-check that ends `cancelChildrenForRun`. -/
def crossCheckSession (w : World) (session : SessionRow) (sessions : List SessionRow)
    (reason : Option String) (count : Nat) (rest : List Segment) : World × Handler :=
  let confirmed := (childOfSession w.service session.id).any fun obj =>
    (w.service.objects obj).nativeTerminationConfirmed
  if isOpenSession session && confirmed then
    let db := updateSessionStatus w.db session.id "cancelled"
      (some (reason.getD "Parent run cancelled"))
    let next : Segment := .crossCheck sessions reason (count + 1)
    match present session.assignmentId with
    | some assignmentId =>
      ({ w with db }, beginAssignmentUpdate db assignmentId .cancelled true (next :: rest))
    | none => ({ w with db }, .awaiting next rest)
  else (w, .awaiting (.crossCheck sessions reason count) rest)

def cancellableRecords (service : Service) (runId : String) : List Nat :=
  service.recordsByTaskCall.values.filter fun obj =>
    decide ((service.objects obj).runId = runId) && isActiveState (service.objects obj).status

/-- Run the segment a handler awaited, up to its next await. -/
def runSegment (w : World) (segment : Segment) (rest : List Segment) (answers : Answers) :
    World × Handler :=
  match segment with
  | .register input now => concludeRegister w input now answers.written
  | .updateAssignment id status caught =>
    if answers.written && (w.db.assignments.get? id).isSome then
      (w, .awaiting (.writeAssignment id status caught) rest)
    else (w, throwTo caught "INTERNAL_ERROR" rest)
  | .writeAssignment id status caught =>
    if answers.written && (w.db.assignments.get? id).isSome then
      ({ w with db := updateAssignmentStatus w.db id status }, returnTo (.transition none) rest)
    else (w, throwTo caught "INTERNAL_ERROR" rest)
  | .finish sessionStatus sessionError result =>
    match present (w.service.objects result.record).childSessionId with
    | some session =>
      ({ w with db := updateSessionStatus w.db session sessionStatus sessionError },
        returnTo (.transition (some result)) rest)
    | none => (w, returnTo (.transition (some result)) rest)
  | .abort obj reason => concludeCancel w obj reason answers.aborted rest answers
  | .cancelChildren runId (obj :: records) reason native count =>
    let record := w.service.objects obj
    let isUnboundQueued := decide (record.status = .queued) && (present record.childSessionId).isNone
    beginCancel w { taskCallId := some record.taskCallId, childSessionId := none }
      (some (reason.getD "Parent run cancelled")) isUnboundQueued native
      (.cancelChildren runId records reason native (count + 1) :: rest) answers
  | .cancelChildren runId [] reason _ count =>
    (w, .awaiting (.crossCheck (w.db.sessions.rows.filter fun row => row.runId = runId) reason count)
      rest)
  | .crossCheck (session :: sessions) reason count =>
    crossCheckSession w session sessions reason count rest
  | .crossCheck [] _ count => (w, returnTo (.count count) rest)

def syncedStatus (status : String) : Option ChildExecutionState :=
  if status = "completed" then some .completed
  else if status = "failed" then some .failed
  else if status = "cancelled" then some .cancelled
  else none

def Service.load (service : Service) (record : ChildExecutionRecord) : Service :=
  Service.cache (Service.allocate service record) service.allocated record

/-- What reconciliation makes of a record whose session row it found. -/
def syncRecord (row : SessionRow) (record : ChildExecutionRecord) : ChildExecutionRecord :=
  { record with
    childSessionId := (present record.childSessionId).or (some row.id)
    status :=
      if isTerminalChildState record.status then record.status
      else (syncedStatus row.status).getD record.status }

def recordOfSession (service : Service) (row : SessionRow) : Option Nat :=
  (present (some row.id)).bind fun _ =>
    (present row.assignmentId).bind service.recordsByAssignment.get?

def Service.syncSession (service : Service) (row : SessionRow) : Service :=
  match recordOfSession service row with
  | none => service
  | some obj =>
    let record := service.objects obj
    let service' := service.setObject obj (syncRecord row record)
    if (present record.childSessionId).isNone then
      { service' with recordsByChildSession := service'.recordsByChildSession.set row.id obj }
    else service'

def childSessionRows (db : Database) (runId : Option String) : List SessionRow :=
  db.sessions.rows.filter fun row =>
    (present runId).all (· = row.runId) && decide (0 < row.depth)

def loadRecords (w : World) (runId : Option String) : Service :=
  (listAll w.db runId).foldl Service.load w.service

def reconcileAfterRestart (w : World) (runId : Option String) : World :=
  { w with
    service := (childSessionRows w.db runId).foldl Service.syncSession (loadRecords w runId) }

def State.setHandler (s : State) (h : Nat) (result : World × Handler) : State where
  world := result.1
  handlers := Function.update s.handlers h result.2

/-- Start a handler whose call has no await before its transition. -/
def beginTransition (w : World) (input : ChildRef) (targetState : ChildExecutionState)
    (extra : TransitionExtra) (assignmentStatus : AssignmentStatus) (sessionStatus : String)
    (sessionError : Option String) (written : Bool) : World × Handler :=
  match resolveRecord w.service input with
  | none => (w, .settled (.transition none))
  | some obj =>
    transitionThenUpdate w obj targetState extra assignmentStatus sessionStatus sessionError []
      written

def markStarted (w : World) (input : ChildRef) (answers : Answers) : World × Handler :=
  beginTransition w input .running {} .inProgress "running" none answers.written

def markCompleted (w : World) (input : ChildRef) (output : Option String) (answers : Answers) :
    World × Handler :=
  beginTransition w input .completed
    { result := output, completedAt := some (some answers.now) }
    .completed "completed" none answers.written

def markFailed (w : World) (input : ChildRef) (error : Option String) (answers : Answers) :
    World × Handler :=
  let err := error.getD "Child task execution failed"
  beginTransition w input .failed { error := some err, completedAt := some (some answers.now) }
    .failed "failed" (some err) answers.written

def markTimedOut (w : World) (input : ChildRef) (answers : Answers) : World × Handler :=
  beginTransition w input .timedOut
    { error := some "Child task timed out", completedAt := some (some answers.now) }
    .failed "failed" (some "Timed out") answers.written

/-- `onSessionDeleted` of the adapter: the deletion confirms a cancellation still unconfirmed. -/
def sessionDeleted (w : World) (sessionId : String) (answers : Answers) : World × Handler :=
  match childOfSession w.service sessionId with
  | none => (w, .settled (.transition none))
  | some obj =>
    let record := w.service.objects obj
    if (record.cancelRequested || decide (record.status = .cancelled)) &&
        !record.nativeTerminationConfirmed then
      beginCancel w { taskCallId := none, childSessionId := some sessionId } none true false []
        answers
    else (w, .settled (.transition none))

/-- What a call does up to its first await; `none` for an action that calls no handler. -/
def beginCall (w : World) : Action → Option (Nat × (World × Handler))
  | .registerDelegation h input answers => some (h, beginRegister w input answers)
  | .markStarted h input answers => some (h, markStarted w input answers)
  | .markCompleted h input output answers => some (h, markCompleted w input output answers)
  | .markFailed h input error answers => some (h, markFailed w input error answers)
  | .markTimedOut h input answers => some (h, markTimedOut w input answers)
  | .markCancelled h input reason confirmed native answers =>
    some (h, beginCancel w input reason confirmed native [] answers)
  | .cancelChildrenForRun h runId reason native =>
    some (h, w, .awaiting
      (.cancelChildren runId (cancellableRecords w.service runId) reason native 0) [])
  | .sessionDeleted h sessionId answers => some (h, sessionDeleted w sessionId answers)
  | _ => none

def step (s : State) (a : Action) : Option State :=
  match beginCall s.world a with
  | some (h, result) =>
    match s.handlers h with
    | .idle => some (s.setHandler h result)
    | _ => none
  | none =>
    match a with
    | .resume h answers =>
      match s.handlers h with
      | .awaiting segment rest => some (s.setHandler h (runSegment s.world segment rest answers))
      | _ => none
    | .bindChildSession input answers =>
      some { s with world := (bindChildSession s.world input answers.written).1 }
    | .reconcileAfterRestart runId =>
      some { s with world := reconcileAfterRestart s.world runId }
    | .restart =>
      some { world := reconcileAfterRestart { s.world with service := .fresh } none
             handlers := fun _ => .idle }
    | .sessionWritten row =>
      some { s with world := { s.world with db := { s.world.db with
        sessions := s.world.db.sessions.upsert row } } }
    | _ => none

/-- A service started on tables without child records. -/
def initial (assignments : Table AssignmentRow.id) (sessions : Table SessionRow.id) : State where
  world := { service := .fresh, db := { children := .empty, assignments, sessions } }
  handlers := fun _ => .idle

theorem transitionThenUpdate_world (w : World) (obj : Nat) (targetState : ChildExecutionState)
    (extra : TransitionExtra) (assignmentStatus : AssignmentStatus) (sessionStatus : String)
    (sessionError : Option String) (rest : List Segment) (written : Bool) :
    (transitionThenUpdate w obj targetState extra assignmentStatus sessionStatus sessionError rest
      written).1 = (transitionChild w obj targetState extra written).1 := by
  unfold transitionThenUpdate
  cases transitionChild w obj targetState extra written with
  | mk w' outcome =>
    cases outcome with
    | none => rfl
    | some result =>
      simp only
      split_ifs <;> rfl

theorem writeBoundSession_children (db : Database) (record : ChildExecutionRecord)
    (input : BindChildSessionInput) : (writeBoundSession db record input).children = db.children := by
  unfold writeBoundSession
  extract_lets row
  cases db.sessions.insert? row <;> rfl

theorem crossCheckSession_world (w : World) (session : SessionRow) (sessions : List SessionRow)
    (reason : Option String) (count : Nat) (rest : List Segment) :
    (crossCheckSession w session sessions reason count rest).1.service = w.service ∧
      (crossCheckSession w session sessions reason count rest).1.db.children = w.db.children := by
  unfold crossCheckSession
  extract_lets confirmed db next
  split_ifs
  · cases present session.assignmentId <;> exact ⟨rfl, rfl⟩
  · exact ⟨rfl, rfl⟩

def exampleInput : RegisterDelegationInput where
  runId := "run-1"
  parentSessionId := "root"
  taskCallId := "call-1"
  targetAgent := "coder"
  specialistId := none
  assignmentId := "asg-1"
  executionId := none
  prompt := none
  description := none
  background := false

def exampleChild : ChildRef where
  taskCallId := some "call-1"
  childSessionId := none

def startedChild : List Action :=
  [.registerDelegation 0 exampleInput { now := 1 }, .resume 0 { now := 1 },
    .bindChildSession
      { parentSessionId := "root", childSessionId := "ses-1", agentId := none, taskCallId := none }
      { now := 2 },
    .markStarted 1 exampleChild { now := 3 }]

end ChildLifecycle
