import FlowDeck.Library.Machine
import FlowDeck.Orchestration.CompletionPolicy

namespace RunService

open Orchestration RunStore Snapshot TransitionEngine CompletionPolicy Machine

/-- What a call of the run service or the transition engine stands at: the reads it awaits, with
what they gave, or its outcome. -/
inductive Call
  | idle
  | creating (input : CreateRunInput) (correlationId : String) (existing : Option Run)
  | rereading (correlationId : String) (failure : Failure)
  | updating (id : String) (input : UpdateRunInput) (existing : Option Run)
  | cancelling (id : String) (reason : Option String) (existing : Option Run)
  | rechecking (id : String) (reason : Option String)
  | rechecked (id : String) (reason : Option String) (latest : Option Run)
  | swapping (input : TransitionPhaseInput) (swapped conflict : Answer)
  | returned (run : Run)
  | evaluated (answer : Answer)
  | thrown (failure : Failure)

structure State where
  db : Database
  calls : Nat → Call

/-- What a segment draws from outside: random ids, the clock, and the children of a cancelled run
that the child service could not confirm. -/
structure Draws where
  runId : String := ""
  ids : FreshIds := { eventId := "", outboxId := "" }
  now : Nat := 0
  unconfirmed : List String := []

inductive Action
  | createRun (h : Nat) (input : CreateRunInput) (correlationId : Option String)
  | updateRun (h : Nat) (id : String) (input : UpdateRunInput)
  | cancelRun (h : Nat) (id : String) (reason : Option String)
  | evaluate (h : Nat) (input : EvaluateInput) (records : String → ItemRecords)
  | observeVerificationResult (h : Nat) (input : ObserveInput)
  | resume (h : Nat) (draws : Draws)
  | abandon (h : Nat) (failure : Failure)
  | transitionPhase (input : TransitionPhaseInput)
  | evaluateAndComplete (input : EvaluateCompletionPolicyInput) (now : Nat)
  | surroundings (surroundings : Surroundings)

def statusEventType : RunStatus → Except Failure String
  | .running => .ok "run.started"
  | .completed => .ok "run.completed"
  | .failed => .ok "run.failed"
  | .cancelled => .ok "run.cancelled"
  | .paused => .ok "run.paused"
  | status => .error {
      code := .internalError
      message := "Unhandled run status event mapping: " ++ status.text }

def runNotFound (id : String) : Failure where
  code := .runNotFound
  message := "Run " ++ id ++ " not found"

def draftEvent (existing : Run) (input : UpdateRunInput) : Except Failure EventDraft :=
  match input.status with
  | some status => do
    let eventType ← statusEventType status
    pure {
      eventType := eventType
      correlationId := existing.correlationId
      data := .status existing.status status input.stage }
  | none => pure {
      eventType := "run.progress"
      correlationId := existing.correlationId
      data := .progress input.stage input.progress }

/-- `updateRun` after its read: the guard on what was read, and the transaction. -/
def writeUpdate (db : Database) (id : String) (input : UpdateRunInput) (existing : Option Run)
    (draws : Draws) : Except Failure (Database × Run) :=
  match existing with
  | none => .error (runNotFound id)
  | some run =>
    if input.status.isSome && isTerminalRunStatus run.status then
      .error {
        code := .runInTerminalState
        message := "Run " ++ id ++ " is in terminal state " ++ run.status.text }
    else do
      let draft ← draftEvent run input
      updateRunState db id input draft draws.ids draws.now

def settle (db : Database) : Except Failure (Database × Run) → Database × Call
  | .ok (db', run) => (db', .returned run)
  | .error failure => (db, .thrown failure)

def cancelInput (reason : Option String) (draws : Draws) : UpdateRunInput where
  status := some .cancelled
  stage := some "cancelled"
  progress := none
  error := none
  errorMessage := reason
  metadata := some {
    cancelledAt := draws.now
    reason := reason
    terminationPending := !draws.unconfirmed.isEmpty
    unconfirmedChildExecutionIds := draws.unconfirmed
    cancellationMode :=
      if draws.unconfirmed.isEmpty then "converged" else "detached_pending_native_termination" }

def begin (evaluation : Evaluation) : Call :=
  match evaluation with
  | .answer answer => .evaluated answer
  | .swap input swapped conflict => .swapping input swapped conflict

/-- What a call does when its await resolves; `none` where it awaits nothing. -/
def resume (db : Database) (call : Call) (draws : Draws) : Option (Database × Call) :=
  match call with
  | .creating _ _ (some run) => some (db, .returned run)
  | .creating input correlationId none =>
    match createRunWithEventAndOutbox db input correlationId draws.runId draws.ids draws.now with
    | .ok (db', run) => some (db', .returned run)
    | .error failure => some (db, .rereading correlationId failure)
  | .rereading correlationId failure =>
    match findByCorrelationId db correlationId with
    | some run => some (db, .returned run)
    | none => some (db, .thrown failure)
  | .updating id input existing => some (settle db (writeUpdate db id input existing draws))
  | .cancelling id _ none => some (db, .thrown (runNotFound id))
  | .cancelling id reason (some run) =>
    if isTerminalRunStatus run.status then
      some (db, .thrown {
        code := .runInTerminalState
        message := "Run " ++ id ++ " is already in terminal state " ++ run.status.text })
    else some (db, .rechecking id reason)
  | .rechecking id reason => some (db, .rechecked id reason (findById db id))
  | .rechecked id reason latest =>
    match latest.filter fun run => isTerminalRunStatus run.status && decide (run.status ≠ .cancelled) with
    | some run => some (db, .returned run)
    | none => some (db, .updating id (cancelInput reason draws) (findById db id))
  | .swapping input swapped conflict =>
    let result := TransitionEngine.transitionPhase db input false
    some (result.1, .evaluated (if result.2 then swapped else conflict))
  | _ => none

/-- The call a request opens, with what it reads at once. -/
def openCall (digests : Digests) (db : Database) : Action → Option (Nat × Call)
  | .createRun h input correlationId =>
    let correlationId := correlationId.getD input.correlationId
    some (h, .creating input correlationId (findByCorrelationId db correlationId))
  | .updateRun h id input => some (h, .updating id input (findById db id))
  | .cancelRun h id reason => some (h, .cancelling id reason (findById db id))
  | .evaluate h input records => some (h, begin (TransitionEngine.evaluate db input records))
  | .observeVerificationResult h input =>
    some (h, begin (TransitionEngine.observeVerificationResult digests db input))
  | _ => none

def State.setCall (s : State) (h : Nat) (call : Call) : State :=
  { s with calls := Function.update s.calls h call }

def step (digests : Digests) (s : State) (a : Action) : Option State :=
  match openCall digests s.db a with
  | some (h, call) =>
    match s.calls h with
    | .idle => some (s.setCall h call)
    | _ => none
  | none =>
    match a with
    | .resume h draws =>
      (resume s.db (s.calls h) draws).map fun result =>
        { (s.setCall h result.2) with db := result.1 }
    | .abandon h failure =>
      (resume s.db (s.calls h) {}).map fun _ => s.setCall h (.thrown failure)
    | .transitionPhase input =>
      some { s with db := (TransitionEngine.transitionPhase s.db input false).1 }
    | .evaluateAndComplete input now =>
      some { s with db := (CompletionPolicy.evaluateAndComplete digests s.db input now).1 }
    | .surroundings surroundings => some { s with db := { s.db with surroundings } }
    | _ => none

/-- A database without runs. -/
def initial (surroundings : Surroundings) : State where
  db := {
    taskRuns := .empty
    correlations := .empty
    events := []
    outbox := []
    reviews := .empty
    decisions := []
    surroundings := surroundings }
  calls := fun _ => .idle

/-- One required item of a run, completed, and a live verification of its third version. -/
def exampleSurroundings : Surroundings where
  children := .empty
  assignments := ⟨[{
    id := "a-1"
    runId := "run-1"
    agentId := "coder"
    description := ""
    status := .completed
    isRequired := true }], List.nodup_singleton _⟩
  deferredReplacements := []
  progress := fun _ => {
    noProgressCount := 0
    isStalled := false
    lastEvidenceDelta := 0
    lastRepositoryDelta := 0 }
  artifacts := fun _ => ""
  verifications := ⟨[{
    id := "ver-1"
    runId := "run-1"
    verificationType := "live_orchestration"
    status := "passed"
    stateVersion := some 3
    stateFingerprint := some "ef5e381f791f1e0ecefc2e7e34ad054a"
    targetSha := "175c99c252e079a81097eb59d4aca541ae1d6f8f"
    isStale := 0
    evidence := .array [some "ev-1"]
    failureReasons := .array [] }], List.nodup_singleton _⟩

/-- The digests of the state and the completion key of the example run. -/
def exampleDigests : Digests where
  stateDigest := fun _ => "ef5e381f791f1e0ecefc2e7e34ad054a"
  digest := fun _ => "6994146c3cafcdc6fc01ac0624997a50bc16462c7dffaf6109adf40b6b91bdfd"

def createExample : List Action :=
  [.createRun 0
      { runType := "simple", correlationId := "cor-1", causationId := none, contractId := none }
      none,
    .resume 0 { runId := "run-1", ids := { eventId := "e-0", outboxId := "o-0" }, now := 1 }]

def exampleUpdate (status : Option RunStatus) : UpdateRunInput where
  status := status
  stage := none
  progress := none
  error := none
  errorMessage := none
  metadata := none

def exampleSwap (source target : OrchestrationPhase) (version : Nat) : Action :=
  .transitionPhase {
    runId := "run-1"
    targetPhase := target
    expectedPhase := source
    expectedAggregateVersion := version
    sha := none }

/-- A run that is created, executes and awaits its completion at version 3. -/
def verifyingExample : List Action :=
  createExample ++ [exampleSwap .created .executing 1, exampleSwap .executing .verifying 2]

def progressUpdate (h : Nat) (eventId outboxId : String) : List Action :=
  [.updateRun h "run-1" (exampleUpdate none),
    .resume h { ids := { eventId := eventId, outboxId := outboxId }, now := 2 }]

def exampleEvaluation : EvaluateCompletionPolicyInput where
  runId := "run-1"
  sessionId := none
  verificationId := "ver-1"

def exampleCompletion : Action := .evaluateAndComplete exampleEvaluation 9

end RunService
