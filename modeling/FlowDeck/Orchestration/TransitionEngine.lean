import FlowDeck.Orchestration.RunStore

namespace Snapshot

open Orchestration RunStore
open ChildExecution (AssignmentRow StoredAssignmentStatus ChildState childState cancellationPending)

structure WorkItemSnapshot where
  id : String
  status : StoredAssignmentStatus
  isRequired : Bool
  isSatisfied : Bool
  deriving DecidableEq

structure OrchestrationSnapshot where
  runId : String
  phase : OrchestrationPhase
  aggregateVersion : Nat
  currentWorkItemId : Option String
  workItems : List WorkItemSnapshot
  progress : ProgressDiagnostics
  childState : ChildState
  cancellationPending : Bool
  unresolvedDeferredReplacement : Bool
  isTerminal : Bool
  deriving DecidableEq

def workItem (row : AssignmentRow) : WorkItemSnapshot where
  id := row.id
  status := row.status
  isRequired := row.isRequired
  isSatisfied := decide (row.status = .completed) || (decide (row.status = .skipped) && !row.isRequired)

def workItems (db : Database) (runId : String) : List WorkItemSnapshot :=
  (db.surroundings.assignments.rows.filter fun row => row.runId = runId).map workItem

def currentWorkItem (items : List WorkItemSnapshot) : Option WorkItemSnapshot :=
  (items.find? fun item => item.status = .running).or
    (items.find? fun item => item.status = .pending)

def unresolvedStatuses : List String :=
  ["pending_termination", "resuming", "handoff_pending", "handoff_outcome_unknown", "blocked"]

def unresolvedDeferredReplacement (db : Database) (runId : String) : Bool :=
  db.surroundings.deferredReplacements.any fun row =>
    decide (row.oldRunId = runId) && decide (row.status ∈ unresolvedStatuses)

/-- The tables of the child records, as the child service sees them. -/
def childDatabase (db : Database) : ChildExecution.Database where
  children := db.surroundings.children
  assignments := db.surroundings.assignments
  sessions := .empty

def snapshotOf (db : Database) (row : TaskRunRow) : OrchestrationSnapshot where
  runId := row.runId
  phase := row.state
  aggregateVersion := row.aggregateVersion
  currentWorkItemId := (currentWorkItem (workItems db row.runId)).map (·.id)
  workItems := workItems db row.runId
  progress := db.surroundings.progress row.runId
  childState := childState (childDatabase db) row.runId
  cancellationPending := cancellationPending (childDatabase db) row.runId
  unresolvedDeferredReplacement := unresolvedDeferredReplacement db row.runId
  isTerminal := isTerminalPhase row.state

def getSnapshot (db : Database) (runId : String) : Option OrchestrationSnapshot :=
  (db.taskRuns.get? runId).map (snapshotOf db)

/-- What the state fingerprint digests. -/
structure FingerprintState where
  runId : String
  aggregateVersion : Nat
  phase : OrchestrationPhase
  currentWorkItemId : String
  workItems : List WorkItemSnapshot
  childState : ChildState
  cancellationPending : Bool
  unresolvedDeferredReplacement : Bool
  artifacts : String
  lastRepositoryDelta : Int
  lastEvidenceDelta : Int
  deriving DecidableEq

def fingerprintState (db : Database) (snapshot : OrchestrationSnapshot) : FingerprintState where
  runId := snapshot.runId
  aggregateVersion := snapshot.aggregateVersion
  phase := snapshot.phase
  currentWorkItemId := snapshot.currentWorkItemId.getD ""
  workItems := snapshot.workItems
  childState := snapshot.childState
  cancellationPending := snapshot.cancellationPending
  unresolvedDeferredReplacement := snapshot.unresolvedDeferredReplacement
  artifacts := db.surroundings.artifacts snapshot.runId
  lastRepositoryDelta := snapshot.progress.lastRepositoryDelta
  lastEvidenceDelta := snapshot.progress.lastEvidenceDelta

/-- SHA-256 where the code uses it: over the state of a run, and over a completion key. -/
structure Digests where
  stateDigest : FingerprintState → String
  digest : String → String

def computeStateFingerprint (digests : Digests) (db : Database) (runId : String) : Option String :=
  (getSnapshot db runId).map fun snapshot => digests.stateDigest (fingerprintState db snapshot)

end Snapshot

namespace TransitionEngine

open Orchestration RunStore Snapshot
open ChildExecution (present)

structure TransitionPhaseInput where
  runId : String
  targetPhase : OrchestrationPhase
  expectedPhase : OrchestrationPhase
  expectedAggregateVersion : Nat
  sha : Option String
  deriving DecidableEq

def TransitionPhaseInput.cas (input : TransitionPhaseInput) : PhaseCas where
  runId := input.runId
  expectedPhase := input.expectedPhase
  expectedAggregateVersion := input.expectedAggregateVersion
  targetPhase := input.targetPhase
  sha := input.sha

/-- The checks before the swap; `authority` says whether the bound policy is presented. -/
def mayTransition (input : TransitionPhaseInput) (authority : Bool) : Bool :=
  !isTerminalPhase input.expectedPhase &&
    (decide (input.targetPhase ≠ .completed) || authority) &&
    isValidPhaseTransition input.expectedPhase input.targetPhase

def transitionPhase (db : Database) (input : TransitionPhaseInput) (authority : Bool) :
    Database × Bool :=
  if mayTransition input authority then transitionPhaseCas db input.cas else (db, false)

inductive StrategyDecision
  | executeCurrent
  | retrySameStrategy
  | changeStrategy
  | replan
  | block
  deriving DecidableEq

structure TransitionEvaluationResult where
  currentPhase : OrchestrationPhase
  targetPhase : Option OrchestrationPhase := none
  phaseChanged : Bool := false
  currentWorkItemId : Option String := none
  strategyDecision : StrategyDecision
  reasonCode : TransitionReasonCode
  requiresAction : Bool
  prohibitedActionFingerprint : Option String := none
  blockerReason : Option String := none
  deriving DecidableEq

structure AttemptRecord where
  attemptNumber : Nat
  actionFingerprint : String
  preStateFingerprint : String
  progressProduced : Bool
  isTransientError : Bool
  deriving DecidableEq

structure StrategyConstraintSet where
  stateFingerprint : String
  prohibitedActionFingerprints : List String
  exhausted : Bool
  deriving DecidableEq

/-- What `execution_metadata` and the progress service hold about a run and one of its items. -/
structure ItemRecords where
  attempts : List AttemptRecord
  activeConstraint : Option StrategyConstraintSet
  consumedAttempt : Option Nat
  meaningfulStateVersion : Nat
  deriving DecidableEq

inductive MetadataWrite
  | saveStrategyConstraint (assignmentId prohibitedActionFingerprint stateFingerprint reason : String)
  | clearStrategyConstraint (assignmentId : String)
  | markConsumedProgressAttempt (assignmentId : String) (attemptNumber : Nat)
  deriving DecidableEq

structure Answer where
  result : TransitionEvaluationResult
  writes : List MetadataWrite := []
  deriving DecidableEq

/-- An evaluation answers at once, or asks for a swap and answers by its outcome. -/
inductive Evaluation
  | answer (answer : Answer)
  | swap (input : TransitionPhaseInput) (swapped conflict : Answer)
  deriving DecidableEq

structure EvaluateInput where
  runId : String
  latestActionFingerprint : Option String
  latestError : Option String
  deriving DecidableEq

/-- `toLowerCase`, as far as it yields ASCII letters. -/
def lowerCase (c : Char) : List Char :=
  if c.toNat = 0x212A then ['k']
  else if c.toNat = 0x130 then ['i', Char.ofNat 0x307]
  else [c.toLower]

def transientMarks : List String :=
  ["timeout", "econnrefused", "etimedout", "rate limit", "429", "503", "temporary", "transient",
    "socket hang up"]

def isTransientError (error : String) : Bool :=
  transientMarks.any fun mark => decide (mark.toList <:+: error.toList.flatMap lowerCase)

def computeStrategyStateFingerprint (snapshot : OrchestrationSnapshot) (assignmentId : String)
    (records : ItemRecords) : String :=
  snapshot.runId ++ ":" ++ assignmentId ++ ":" ++ toString records.meaningfulStateVersion ++ ":" ++
    toString snapshot.childState.activeRequired ++ ":" ++
    toString snapshot.childState.failedRequired ++ ":" ++
    toString (snapshot.workItems.countP (·.isSatisfied))

def swapTo (snapshot : OrchestrationSnapshot) (targetPhase : OrchestrationPhase)
    (swapped : Answer) (conflictItem : Option String) (blockerReason : String) : Evaluation :=
  .swap {
      runId := snapshot.runId
      targetPhase := targetPhase
      expectedPhase := snapshot.phase
      expectedAggregateVersion := snapshot.aggregateVersion
      sha := none }
    swapped
    { result := {
        currentPhase := snapshot.phase
        currentWorkItemId := conflictItem
        strategyDecision := .block
        reasonCode := .transitionConflict
        requiresAction := false
        blockerReason := some blockerReason } }

def enter (snapshot : OrchestrationSnapshot) (allowed : Bool) (targetPhase : OrchestrationPhase)
    (answer : OrchestrationPhase → Bool → Answer) (conflictItem : Option String)
    (blockerReason : String) : Evaluation :=
  if allowed && isValidPhaseTransition snapshot.phase targetPhase then
    swapTo snapshot targetPhase (answer targetPhase true) conflictItem blockerReason
  else .answer (answer snapshot.phase false)

def snapshotItem (snapshot : OrchestrationSnapshot) : Option WorkItemSnapshot :=
  snapshot.workItems.find? fun item => some item.id = snapshot.currentWorkItemId

def hasFailedRequired (snapshot : OrchestrationSnapshot) : Bool :=
  (snapshot.workItems.any fun item => decide (item.status = .failed) && item.isRequired) ||
    decide (0 < snapshot.childState.failedRequired)

/-- The item attempts are counted for: the current one, the first, or the root execution unit. -/
def targetItemId (snapshot : OrchestrationSnapshot) : String :=
  (((snapshotItem snapshot).or snapshot.workItems.head?).map (·.id)).getD ("root:" ++ snapshot.runId)

def recoverFailed (snapshot : OrchestrationSnapshot) : Evaluation :=
  let item := (snapshotItem snapshot).map (·.id)
  enter snapshot (decide (snapshot.phase = .executing) || decide (snapshot.phase = .delegating))
    .recovering
    (fun phase changed => { result := {
        currentPhase := phase
        phaseChanged := changed
        currentWorkItemId := item
        strategyDecision := .changeStrategy
        reasonCode :=
          if 0 < snapshot.childState.failedRequired then .childFailed else .assignmentFailed
        requiresAction := true } })
    item "CAS transition conflict entering RECOVERING"

def recoverStalled (snapshot : OrchestrationSnapshot) (input : EvaluateInput)
    (records : ItemRecords) : Evaluation :=
  let item := (snapshotItem snapshot).map (·.id)
  let target := targetItemId snapshot
  let last := records.attempts.getLast?
  let stalledAction := input.latestActionFingerprint.or (last.map (·.actionFingerprint))
  let causal := ((last.map (·.preStateFingerprint)).filter (· ≠ "")).getD
    (computeStrategyStateFingerprint snapshot target records)
  let writes := match present stalledAction with
    | some action => [.saveStrategyConstraint target action causal "STALL_DETECTED"]
    | none => []
  enter snapshot (decide (snapshot.phase ≠ .recovering)) .recovering
    (fun phase changed => {
      result := {
        currentPhase := phase
        phaseChanged := changed
        currentWorkItemId := item
        strategyDecision := .changeStrategy
        reasonCode := .stallDetected
        requiresAction := true
        prohibitedActionFingerprint := stalledAction }
      writes := writes })
    item "CAS transition conflict entering RECOVERING on stall"

def leaveRecovery (snapshot : OrchestrationSnapshot) : Evaluation :=
  let target := targetItemId snapshot
  swapTo snapshot .executing
    { result := {
        currentPhase := .executing
        phaseChanged := true
        currentWorkItemId := some target
        strategyDecision := .executeCurrent
        reasonCode := .recoveryProgress
        requiresAction := true }
      writes := [.clearStrategyConstraint target] }
    (some target) "CAS transition conflict exiting RECOVERING"

/-- An answer that leaves the phase as it is. -/
def stay (snapshot : OrchestrationSnapshot) (item : Option String) (decision : StrategyDecision)
    (reason : TransitionReasonCode) (requiresAction : Bool) : TransitionEvaluationResult where
  currentPhase := snapshot.phase
  currentWorkItemId := item
  strategyDecision := decision
  reasonCode := reason
  requiresAction := requiresAction

/-- The repetition and progress checks on the latest attempt; `none` where they decide nothing. -/
def judgeAttempt (snapshot : OrchestrationSnapshot) (input : EvaluateInput) (records : ItemRecords)
    (hasStateChange : Bool) : Option Answer :=
  let target := targetItemId snapshot
  match records.attempts.getLast? with
  | none => none
  | some last =>
    let action := input.latestActionFingerprint.getD last.actionFingerprint
    if action = "" then none
    else if decide (last.actionFingerprint = action) && !last.progressProduced && !hasStateChange then
      let transientCount := records.attempts.countP fun attempt =>
        decide (attempt.actionFingerprint = action) && attempt.isTransientError
      let isCurrentTransient := (input.latestError.any isTransientError) || last.isTransientError
      if isCurrentTransient && decide (transientCount ≤ 2) then
        some { result := stay snapshot (some target) .retrySameStrategy .transientRetryAllowed true }
      else
        some {
          result := {
            currentPhase := if snapshot.phase = .recovering then snapshot.phase else .executing
            currentWorkItemId := some target
            strategyDecision := .changeStrategy
            reasonCode := .repeatedActionBlocked
            requiresAction := true
            prohibitedActionFingerprint := some action }
          writes := [.saveStrategyConstraint target action last.preStateFingerprint
            "REPEATED_ACTION_BLOCKED"] }
    else if last.progressProduced || decide (0 < snapshot.progress.lastRepositoryDelta) then
      if records.consumedAttempt = some last.attemptNumber then
        some { result := stay snapshot (some target) .executeCurrent .noProgress false }
      else
        some {
          result := stay snapshot (some target) .executeCurrent .progressConfirmed true
          writes := [.markConsumedProgressAttempt target last.attemptNumber,
            .clearStrategyConstraint target] }
    else none

def isReadyForVerification (snapshot : OrchestrationSnapshot) : Bool :=
  let required := snapshot.workItems.filter (·.isRequired)
  decide (0 < required.length) && required.all (·.isSatisfied) &&
    decide (snapshot.childState.activeRequired = 0) &&
    decide (snapshot.childState.failedRequired = 0)

/-- The last part of an evaluation: barriers, children, readiness, the next item. -/
def advance (snapshot : OrchestrationSnapshot) : Evaluation :=
  let item := (snapshotItem snapshot).map (·.id)
  if snapshot.cancellationPending || snapshot.unresolvedDeferredReplacement then
    .answer { result := { stay snapshot item .block .blocked false with
      blockerReason := some (if snapshot.cancellationPending then
        "Cancellation barrier remains unresolved"
        else "Deferred replacement barrier remains unresolved") } }
  else if 0 < snapshot.childState.activeRequired then
    .answer { result := stay snapshot item .executeCurrent .waitingForChildren false }
  else if isReadyForVerification snapshot then
    enter snapshot (decide (snapshot.phase ≠ .verifying)) .verifying
      (fun phase changed => { result := {
          currentPhase := phase
          phaseChanged := changed
          strategyDecision := .executeCurrent
          reasonCode := .readyForVerification
          requiresAction := true } })
      none "CAS transition conflict entering VERIFYING"
  else if (snapshotItem snapshot).any fun item => item.status = .pending then
    .answer { result := stay snapshot item .executeCurrent .nextWorkItemReady true }
  else .answer { result := stay snapshot item .executeCurrent .noProgress false }

def evaluateSnapshot (snapshot : OrchestrationSnapshot) (input : EvaluateInput)
    (records : ItemRecords) : Evaluation :=
  if isTerminalPhase snapshot.phase then
    let reason := if snapshot.phase = .cancelled then .userCancelled else .allWorkItemsComplete
    .answer { result := stay snapshot none .block reason false }
  else if hasFailedRequired snapshot then recoverFailed snapshot
  else if records.activeConstraint.any fun constraint => constraint.exhausted &&
      decide (constraint.stateFingerprint =
        computeStrategyStateFingerprint snapshot (targetItemId snapshot) records) then
    let item := some (targetItemId snapshot)
    .answer { result := { stay snapshot item .block .strategySetExhausted false with
      blockerReason := some "Strategy search exhausted under unchanged meaningful state" } }
  else if snapshot.progress.isStalled then recoverStalled snapshot input records
  else
    let hasStateChange := decide (0 < snapshot.progress.lastRepositoryDelta) ||
      records.attempts.getLast?.any (·.progressProduced)
    if decide (snapshot.phase = .recovering) && hasStateChange then leaveRecovery snapshot
    else
      match judgeAttempt snapshot input records hasStateChange with
      | some answer => .answer answer
      | none => advance snapshot

/-- `evaluate`; `records` gives what is stored about each item of the run. -/
def evaluate (db : Database) (input : EvaluateInput) (records : String → ItemRecords) :
    Evaluation :=
  match getSnapshot db input.runId with
  | none =>
    .answer { result := {
        currentPhase := .failed
        strategyDecision := .block
        reasonCode := .blocked
        requiresAction := false
        blockerReason := some "Run not found" } }
  | some snapshot => evaluateSnapshot snapshot input (records (targetItemId snapshot))

structure ObserveInput where
  runId : String
  stateVersion : Nat
  stateFingerprint : String
  passed : Bool
  deriving DecidableEq

def observeVerificationResult (digests : Digests) (db : Database) (input : ObserveInput) :
    Evaluation :=
  let snapshot := getSnapshot db input.runId
  match snapshot.filter fun snapshot => !isTerminalPhase snapshot.phase with
  | none =>
    .answer { result := {
        currentPhase := (snapshot.map (·.phase)).getD .failed
        strategyDecision := .block
        reasonCode := .blocked
        requiresAction := false
        blockerReason := some "Run is absent or terminal before verification result application" } }
  | some snapshot =>
    if snapshot.phase ≠ .verifying ∨ snapshot.aggregateVersion ≠ input.stateVersion ∨
        computeStateFingerprint digests db input.runId ≠ some input.stateFingerprint then
      .answer { result := { stay snapshot none .block .verificationStale false with
        blockerReason :=
          some "Verification result does not match the current authoritative Run state" } }
    else if input.passed then
      .answer { result := stay snapshot none .executeCurrent .verificationPassed false }
    else
      .swap {
          runId := input.runId
          targetPhase := .recovering
          expectedPhase := .verifying
          expectedAggregateVersion := snapshot.aggregateVersion
          sha := none }
        { result := {
            currentPhase := .recovering
            targetPhase := some .recovering
            phaseChanged := true
            strategyDecision := .changeStrategy
            reasonCode := .verificationFailed
            requiresAction := true } }
        { result := { stay snapshot none .block .transitionConflict false with
            blockerReason := some "CAS transition conflict applying verification failure" } }

end TransitionEngine
