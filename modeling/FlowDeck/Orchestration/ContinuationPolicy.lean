import FlowDeck.Library.Table
import FlowDeck.Orchestration.Types

namespace ContinuationPolicy

open Orchestration

structure ContinuationToken where
  runId : String
  sessionId : String
  userTurnVersion : Nat
  runAggregateVersion : Nat
  transitionReason : TransitionReasonCode
  currentWorkItemId : Option String
  stateFingerprint : String
  identityKey : Option String
  deriving DecidableEq

def computeTokenIdentity (sha256 : String → String) (token : ContinuationToken) : String :=
  match token.identityKey.filter (· ≠ "") with
  | some key => sha256 key
  | none =>
    sha256 (token.runId ++ ":" ++ token.sessionId ++ ":" ++ toString token.userTurnVersion ++ ":" ++
      toString token.runAggregateVersion ++ ":" ++ token.transitionReason.text ++ ":" ++
      token.currentWorkItemId.getD "" ++ ":" ++ token.stateFingerprint)

def getContinuationPrompt (reason : TransitionReasonCode)
    (prohibitedActionFingerprint : Option String) : String :=
  match reason with
  | .nextWorkItemReady => "Continue with the next planned work item."
  | .recoveryProgress =>
    "Recovery progress detected. Continue execution with the updated state."
  | .readyForVerification => "Work completed. Proceed to verify the results."
  | .repeatedActionBlocked =>
    match prohibitedActionFingerprint with
    | some fp =>
      "Previous strategy produced no progress and action '" ++ fp ++
        "' is prohibited under the current state. Change strategy, select a different tool " ++
        "or evidence source, or replan."
    | none =>
      "Previous strategy produced no progress. Change strategy, select a different tool or " ++
        "evidence source, or replan."
  | .stallDetected =>
    "Execution stall detected with no progress. Change strategy, try an alternate approach, " ++
      "or replan."
  | .childFailed =>
    "Child execution failed. Analyze the failure and select an alternate strategy or " ++
      "recovery step."
  | .assignmentFailed =>
    "Assignment failed. Analyze the failure and select an alternate strategy or recovery step."
  | .transientRetryAllowed => "Transient failure encountered. Retry the action."
  | .progressConfirmed => "Progress confirmed. Continue with the next step."
  | _ => "Continue with the next planned step."

inductive DispatchReason
  | nativeDispatchUnavailable
  | nativeDispatchFailed
  | duplicateDispatch
  | dispatchInProgress
  | dispatchOutcomeUnknown
  | staleUserTurnVersion
  | staleRunAggregateVersion
  | staleStateFingerprint
  | runNotFound
  | authorityRevoked
  deriving DecidableEq

structure ContinuationDispatchResult where
  dispatched : Bool
  identity : String
  reason : Option DispatchReason
  deriving DecidableEq

inductive DispatchStatus
  | pending
  | dispatched
  | failed
  | blocked
  | outcomeUnknown
  deriving DecidableEq

/-- A row of `continuation_dispatches`; its timestamps are read by nothing and left out. -/
structure DispatchRow where
  identity : String
  runId : String
  sessionId : String
  userTurnVersion : Nat
  runAggregateVersion : Nat
  transitionReason : TransitionReasonCode
  currentWorkItemId : Option String
  stateFingerprint : String
  status : DispatchStatus
  attemptCount : Nat
  error : Option String
  deriving DecidableEq

abbrev Dispatches := Table DispatchRow.identity

/-- What the live state port answers during the revalidation. -/
structure StatePortAnswers where
  userTurnVersion : Nat
  runAggregateVersion : Option Nat
  stateFingerprint : Option String

/-- The options of `dispatch`; `authority` is the first answer of `validateAuthority`. -/
structure DispatchOptions where
  authority : Option Bool
  statePort : Option StatePortAnswers
  currentTurnVersion : Option Nat
  currentAggregateVersion : Option Nat
  promptAsync : Bool
  promptText : Option String

def revalidateLive (token : ContinuationToken) (port : StatePortAnswers) :
    Option DispatchReason :=
  if port.userTurnVersion ≠ token.userTurnVersion then some .staleUserTurnVersion
  else
    match port.runAggregateVersion with
    | none => some .runNotFound
    | some version =>
      if version ≠ token.runAggregateVersion then some .staleRunAggregateVersion
      else
        match port.stateFingerprint with
        | none => none
        | some fingerprint =>
          if fingerprint ≠ "" ∧ fingerprint ≠ token.stateFingerprint then
            some .staleStateFingerprint
          else none

def revalidateVersions (token : ContinuationToken) (currentTurnVersion : Option Nat)
    (currentAggregateVersion : Option Nat) : Option DispatchReason :=
  if currentTurnVersion.any (· ≠ token.userTurnVersion) then some .staleUserTurnVersion
  else if currentAggregateVersion.any (· ≠ token.runAggregateVersion) then
    some .staleRunAggregateVersion
  else none

/-- The checks before the claim; `some` is the reason the call returns with. -/
def revalidate (token : ContinuationToken) (options : DispatchOptions) : Option DispatchReason :=
  match options.authority with
  | some valid => if valid then none else some .authorityRevoked
  | none =>
    match options.statePort with
    | some port => revalidateLive token port
    | none =>
      revalidateVersions token options.currentTurnVersion options.currentAggregateVersion

def maxAttempts : Nat := 2

def isCompatibleDurableClaim (row : DispatchRow) (token : ContinuationToken) : Bool :=
  1 ≤ row.attemptCount && row.attemptCount ≤ 9007199254740991 && row.runId = token.runId &&
    row.sessionId = token.sessionId &&
    row.userTurnVersion = token.userTurnVersion &&
    row.runAggregateVersion = token.runAggregateVersion &&
    row.transitionReason = token.transitionReason &&
    row.currentWorkItemId = token.currentWorkItemId &&
    row.stateFingerprint = token.stateFingerprint

def claimRow (identity : String) (token : ContinuationToken) : DispatchRow where
  identity := identity
  runId := token.runId
  sessionId := token.sessionId
  userTurnVersion := token.userTurnVersion
  runAggregateVersion := token.runAggregateVersion
  transitionReason := token.transitionReason
  currentWorkItemId := token.currentWorkItemId
  stateFingerprint := token.stateFingerprint
  status := .pending
  attemptCount := 1
  error := none

def setStatus (status : DispatchStatus) (error : Option String) (row : DispatchRow) :
    DispatchRow :=
  { row with status, error }

theorem setStatus_identity (status : DispatchStatus) (error : Option String) (row : DispatchRow) :
    (setStatus status error row).identity = row.identity := rfl

/-- `SET status = 'blocked'`, which leaves the error text of the failed attempt in place. -/
def setBlocked (row : DispatchRow) : DispatchRow := { row with status := .blocked }

theorem setBlocked_identity (row : DispatchRow) : (setBlocked row).identity = row.identity := rfl

def setRetry (row : DispatchRow) : DispatchRow :=
  { row with status := .pending, attemptCount := row.attemptCount + 1, error := none }

theorem setRetry_identity (row : DispatchRow) : (setRetry row).identity = row.identity := rfl

/-- A call between its revalidation and its return. -/
structure Call where
  identity : String
  token : ContinuationToken
  validatesAuthority : Bool
  promptAsync : Bool
  promptText : Option String

/-- The next thing a call does: one statement on the database, the send, or waiting for it. -/
inductive Stage
  | insertClaim
  | inspect
  | blockMismatched
  | blockExhausted
  | retryClaim
  | claimed
  | release (reason : DispatchReason)
  | inFlight
  | markDispatched
  | readAttempts (error : String)
  | markFailed (exhausted : Bool) (error : String)
  deriving DecidableEq

inductive CallState
  | idle
  | running (call : Call) (stage : Stage)
  | returned (result : ContinuationDispatchResult)
  | dead

def Call.refuse (call : Call) (reason : DispatchReason) : CallState :=
  .returned { dispatched := false, identity := call.identity, reason := some reason }

def Call.succeed (call : Call) : CallState :=
  .returned { dispatched := true, identity := call.identity, reason := none }

def inspectRow (call : Call) (row : DispatchRow) : CallState :=
  if isCompatibleDurableClaim row call.token then
    match row.status with
    | .dispatched => call.refuse .duplicateDispatch
    | .pending => call.refuse .dispatchInProgress
    | .outcomeUnknown => call.refuse .dispatchOutcomeUnknown
    | .blocked => call.refuse .nativeDispatchFailed
    | .failed =>
      if maxAttempts ≤ row.attemptCount then .running call .blockExhausted
      else .running call .retryClaim
  else .running call .blockMismatched

def isRow (identity : String) (condition : DispatchRow → Bool) (row : DispatchRow) : Bool :=
  decide (row.identity = identity) && condition row

def isPending (row : DispatchRow) : Bool := row.status = .pending

def isFailed (row : DispatchRow) : Bool := row.status = .failed

def notDispatched (row : DispatchRow) : Bool := row.status ≠ .dispatched

def mayRetry (row : DispatchRow) : Bool := row.status = .failed && row.attemptCount < maxAttempts

def releaseError : DispatchReason → String
  | .authorityRevoked => "authority_revoked"
  | _ => "native_dispatch_unavailable"

/-- `UPDATE … WHERE identity = ? AND status = 'pending'`; a call whose claim is gone learns it from
the number of changed rows. -/
def concludeClaim (dispatches : Dispatches) (call : Call) (status : DispatchStatus)
    (error : Option String) (result : CallState) : Dispatches × CallState :=
  (dispatches.update (isRow call.identity isPending) (setStatus status error)
      (setStatus_identity status error),
    if 0 < dispatches.changes (isRow call.identity isPending) then result
    else call.refuse .dispatchOutcomeUnknown)

/-- Execute the statement a call has come to. -/
def statement (dispatches : Dispatches) (call : Call) : Stage → Option (Dispatches × CallState)
  | .insertClaim =>
    match dispatches.insert? (claimRow call.identity call.token) with
    | some dispatches' => some (dispatches', .running call .claimed)
    | none => some (dispatches, .running call .inspect)
  | .inspect =>
    match dispatches.get? call.identity with
    | some row => some (dispatches, inspectRow call row)
    | none => some (dispatches, call.refuse .duplicateDispatch)
  | .blockMismatched =>
    some (dispatches.update (isRow call.identity notDispatched)
        (setStatus .blocked (some "corrupt_or_mismatched_durable_dispatch"))
        (setStatus_identity _ _),
      call.refuse .dispatchOutcomeUnknown)
  | .blockExhausted =>
    some (dispatches.update (isRow call.identity isFailed) setBlocked setBlocked_identity,
      call.refuse .nativeDispatchFailed)
  | .retryClaim =>
    some (dispatches.update (isRow call.identity mayRetry) setRetry setRetry_identity,
      if 0 < dispatches.changes (isRow call.identity mayRetry) then .running call .claimed
      else call.refuse .dispatchInProgress)
  | .release reason =>
    some (concludeClaim dispatches call .failed (some (releaseError reason)) (call.refuse reason))
  | .markDispatched => some (concludeClaim dispatches call .dispatched none call.succeed)
  | .readAttempts error =>
    let attempts := ((dispatches.get? call.identity).map (·.attemptCount)).getD 1
    some (dispatches,
      .running call (.markFailed (decide (maxAttempts ≤ attempts)) error))
  | .markFailed exhausted error =>
    some (concludeClaim dispatches call (if exhausted then .blocked else .failed) (some error)
      (call.refuse .nativeDispatchFailed))
  | .claimed => none
  | .inFlight => none

/-- One `promptAsync` request; `identity` names the token it was sent for. -/
structure Prompt where
  identity : String
  sessionId : String
  agent : String
  text : String
  deriving DecidableEq

def Call.prompt (call : Call) : Prompt where
  identity := call.identity
  sessionId := call.token.sessionId
  agent := "heidi"
  text := call.promptText.getD (getContinuationPrompt call.token.transitionReason none)

def setOutcomeUnknown (row : DispatchRow) : DispatchRow :=
  { row with
    status := .outcomeUnknown
    error := some "dispatch_outcome_unknown_after_restart" }

theorem setOutcomeUnknown_identity (row : DispatchRow) :
    (setOutcomeUnknown row).identity = row.identity := rfl

def reconcilePendingDispatches (dispatches : Dispatches) : Dispatches :=
  dispatches.update isPending setOutcomeUnknown setOutcomeUnknown_identity

end ContinuationPolicy
