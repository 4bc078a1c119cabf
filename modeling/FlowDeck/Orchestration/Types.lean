import Mathlib.Data.List.Dedup
import Mathlib.Data.List.Sort
import FlowDeck.Library.Texts

namespace Orchestration

inductive RunStatus
  | queued
  | pending
  | running
  | paused
  | completed
  | failed
  | cancelled
  | timeout
  deriving DecidableEq

/-- Persisted orchestration phases in `task_runs.state`. -/
inductive OrchestrationPhase
  | created
  | planning
  | analysing
  | delegating
  | executing
  | verifying
  | recovering
  | completed
  | failed
  | cancelled
  deriving DecidableEq

inductive TransitionReasonCode
  | childCompleted
  | childFailed
  | assignmentCompleted
  | assignmentFailed
  | progressConfirmed
  | nextWorkItemReady
  | noProgress
  | repeatedActionBlocked
  | transientRetryAllowed
  | stallDetected
  | recoveryProgress
  | verificationRequired
  | readyForVerification
  | verificationPassed
  | verificationFailed
  | verificationStale
  | allWorkItemsComplete
  | waitingForChildren
  | userCancelled
  | superseded
  | blocked
  | strategySetExhausted
  | transitionConflict
  deriving DecidableEq

def TransitionReasonCode.text : TransitionReasonCode → String
  | .childCompleted => "CHILD_COMPLETED"
  | .childFailed => "CHILD_FAILED"
  | .assignmentCompleted => "ASSIGNMENT_COMPLETED"
  | .assignmentFailed => "ASSIGNMENT_FAILED"
  | .progressConfirmed => "PROGRESS_CONFIRMED"
  | .nextWorkItemReady => "NEXT_WORK_ITEM_READY"
  | .noProgress => "NO_PROGRESS"
  | .repeatedActionBlocked => "REPEATED_ACTION_BLOCKED"
  | .transientRetryAllowed => "TRANSIENT_RETRY_ALLOWED"
  | .stallDetected => "STALL_DETECTED"
  | .recoveryProgress => "RECOVERY_PROGRESS"
  | .verificationRequired => "VERIFICATION_REQUIRED"
  | .readyForVerification => "READY_FOR_VERIFICATION"
  | .verificationPassed => "VERIFICATION_PASSED"
  | .verificationFailed => "VERIFICATION_FAILED"
  | .verificationStale => "VERIFICATION_STALE"
  | .allWorkItemsComplete => "ALL_WORK_ITEMS_COMPLETE"
  | .waitingForChildren => "WAITING_FOR_CHILDREN"
  | .userCancelled => "USER_CANCELLED"
  | .superseded => "SUPERSEDED"
  | .blocked => "BLOCKED"
  | .strategySetExhausted => "STRATEGY_SET_EXHAUSTED"
  | .transitionConflict => "TRANSITION_CONFLICT"

end Orchestration

namespace Orchestration

def isTerminalRunStatus : RunStatus → Bool
  | .completed => true
  | .failed => true
  | .cancelled => true
  | .timeout => true
  | _ => false

def RunStatus.text : RunStatus → String
  | .queued => "queued"
  | .pending => "pending"
  | .running => "running"
  | .paused => "paused"
  | .completed => "completed"
  | .failed => "failed"
  | .cancelled => "cancelled"
  | .timeout => "timeout"

def mapRunStatusToTaskRunState : RunStatus → Except String OrchestrationPhase
  | .queued => .ok .created
  | .pending => .ok .created
  | .running => .ok .executing
  | .paused => .error ("RUN_STATUS_TRANSITION_INVALID: RunStatus.paused cannot be durably " ++
      "represented as a persisted phase. Use recovery or cancellation instead.")
  | .completed => .ok .completed
  | .failed => .ok .failed
  | .cancelled => .ok .cancelled
  | .timeout => .error ("RUN_STATUS_TRANSITION_INVALID: RunStatus.timeout cannot be durably " ++
      "represented as a persisted phase. Use failure with timeout metadata instead.")

def mapTaskRunStateToRunStatus : OrchestrationPhase → RunStatus
  | .created => .pending
  | .planning => .running
  | .analysing => .running
  | .delegating => .running
  | .executing => .running
  | .verifying => .running
  | .recovering => .running
  | .completed => .completed
  | .failed => .failed
  | .cancelled => .cancelled

def legalPhaseTransitions : OrchestrationPhase → List OrchestrationPhase
  | .created => [.planning, .analysing, .executing, .cancelled, .failed]
  | .planning => [.analysing, .delegating, .executing, .cancelled, .failed]
  | .analysing => [.delegating, .executing, .planning, .cancelled, .failed]
  | .delegating => [.executing, .recovering, .cancelled, .failed]
  | .executing => [.verifying, .delegating, .recovering, .completed, .failed, .cancelled]
  | .verifying => [.executing, .recovering, .completed, .failed, .cancelled]
  | .recovering => [.executing, .delegating, .planning, .failed, .cancelled]
  | .completed => []
  | .failed => []
  | .cancelled => []

def isTerminalPhase : OrchestrationPhase → Bool
  | .completed => true
  | .failed => true
  | .cancelled => true
  | _ => false

def isValidPhaseTransition (source target : OrchestrationPhase) : Bool :=
  if source = target then true
  else if isTerminalPhase source then false
  else decide (target ∈ legalPhaseTransitions source)

/-- `[...new Set(texts)].sort()`: each text once, by UTF-16 code units. -/
def sortedSet (texts : List String) : List String :=
  texts.dedup.insertionSort fun s t => CodeUnits.notAfter s t = true

end Orchestration
