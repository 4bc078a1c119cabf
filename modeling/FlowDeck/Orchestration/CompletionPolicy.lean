import FlowDeck.Orchestration.TransitionEngine

namespace CompletionPolicy

open Orchestration RunStore Snapshot TransitionEngine

def policyVersion : String := "completion-policy-v1"

def liveCheckType : String := "live_orchestration"

def verificationStatuses : List String :=
  ["pending", "in_progress", "passed", "failed", "skipped", "error"]

def isHexDigit (c : Char) : Bool :=
  c.isDigit || (decide ('a' ≤ c) && decide (c ≤ 'f')) || (decide ('A' ≤ c) && decide (c ≤ 'F'))

def isHex (length : Nat) (text : String) : Bool :=
  decide (text.toList.length = length) && text.toList.all isHexDigit

def isSha (text : String) : Bool := isHex 40 text && !(text.toList.all fun c => c = '0')

def isFingerprint (text : String) : Bool := isHex 32 text

inductive CompletionPolicyStatus
  | completed
  | alreadyCompleted
  | blocked
  | conflict
  deriving DecidableEq

structure CompletionPolicyResult where
  status : CompletionPolicyStatus
  runId : String
  completionKey : Option String := none
  reviewId : Option RecordId := none
  blockerReasons : List String := []
  deriving DecidableEq

structure EvaluateCompletionPolicyInput where
  runId : String
  sessionId : Option String
  verificationId : String
  deriving DecidableEq

structure LiveVerificationAuthority where
  id : String
  stateVersion : Int
  stateFingerprint : String
  targetSha : String
  evidenceIds : List String
  deriving DecidableEq

def blocked (runId : String) (reasons : List String) : CompletionPolicyResult where
  status := .blocked
  runId := runId
  blockerReasons := sortedSet reasons

def blocker (applies : Bool) (reason : String) : List String := if applies then [reason] else []

def collectSnapshotBlockers (snapshot : OrchestrationSnapshot) : List String :=
  let required := snapshot.workItems.filter (·.isRequired)
  blocker (snapshot.phase ≠ .verifying) "RUN_NOT_VERIFYING" ++
  blocker snapshot.isTerminal "RUN_TERMINAL" ++
  blocker required.isEmpty "NO_REQUIRED_WORK" ++
  blocker (required.any fun item => !item.isSatisfied) "REQUIRED_WORK_INCOMPLETE" ++
  blocker (0 < snapshot.childState.activeRequired) "REQUIRED_CHILD_ACTIVE" ++
  blocker (0 < snapshot.childState.failedRequired) "REQUIRED_CHILD_FAILED" ++
  blocker (decide (0 < snapshot.childState.cancelRequested) || snapshot.cancellationPending)
    "CANCELLATION_BARRIER_UNRESOLVED" ++
  blocker snapshot.unresolvedDeferredReplacement "DEFERRED_REPLACEMENT_UNRESOLVED" ++
  blocker snapshot.progress.isStalled "RECOVERY_REQUIRED"

def parseRequiredStringArray (column : StringArrayColumn) (field : String) :
    List String × List String :=
  let corrupt := ([], ["LIVE_VERIFICATION_" ++ field ++ "_CORRUPT"])
  match column with
  | .array items =>
    if items.any fun item => item.all (· = "") then corrupt
    else (sortedSet (items.filterMap id), [])
  | _ => corrupt

def maxSafeInteger : Int := 9007199254740991

def isStateVersion (version : Option Int) : Bool :=
  version.any fun v => decide (1 ≤ v) && decide (v ≤ maxSafeInteger)

def statusBlockers (status : String) : List String :=
  if status ∉ verificationStatuses then ["LIVE_VERIFICATION_STATUS_CORRUPT"]
  else blocker (status ≠ "passed") "LIVE_VERIFICATION_NOT_PASSED"

def staleBlockers (isStale : Int) : List String :=
  if isStale ≠ 0 ∧ isStale ≠ 1 then ["LIVE_VERIFICATION_STALE_FLAG_CORRUPT"]
  else blocker (isStale = 1) "LIVE_VERIFICATION_STALE"

def verificationBlockers (row : VerificationRow) (runId : String) : List String :=
  let evidence := parseRequiredStringArray row.evidence "EVIDENCE_JSON"
  let failures := parseRequiredStringArray row.failureReasons "FAILURE_REASONS"
  evidence.2 ++ failures.2 ++
  blocker (row.runId ≠ runId) "LIVE_VERIFICATION_WRONG_RUN" ++
  blocker (row.verificationType ≠ liveCheckType) "LIVE_VERIFICATION_WRONG_TYPE" ++
  statusBlockers row.status ++
  blocker (!isStateVersion row.stateVersion) "LIVE_VERIFICATION_STATE_VERSION_CORRUPT" ++
  blocker (!row.stateFingerprint.any isFingerprint) "LIVE_VERIFICATION_FINGERPRINT_CORRUPT" ++
  blocker (!isSha row.targetSha) "LIVE_VERIFICATION_TARGET_SHA_CORRUPT" ++
  staleBlockers row.isStale ++
  blocker evidence.1.isEmpty "LIVE_VERIFICATION_NO_EVIDENCE" ++
  blocker (!failures.1.isEmpty) "LIVE_VERIFICATION_FAILURE_REASONS_PRESENT"

def authorityOf (row : VerificationRow) : LiveVerificationAuthority where
  id := row.id
  stateVersion := row.stateVersion.getD 0
  stateFingerprint := row.stateFingerprint.getD ""
  targetSha := row.targetSha
  evidenceIds := (parseRequiredStringArray row.evidence "EVIDENCE_JSON").1

/-- `loadAndValidateLiveVerification`: the authority the row gives, or what keeps it from one. -/
def loadAndValidateLiveVerification (db : Database) (verificationId runId : String) :
    Except (List String) LiveVerificationAuthority :=
  match db.surroundings.verifications.get? verificationId with
  | none => .error ["LIVE_VERIFICATION_MISSING"]
  | some row =>
    match verificationBlockers row runId with
    | [] => .ok (authorityOf row)
    | blockers => .error blockers

def currencyBlockers (verification : LiveVerificationAuthority) (snapshot : OrchestrationSnapshot)
    (fingerprint : String) : List String :=
  blocker (verification.stateVersion ≠ snapshot.aggregateVersion)
    "VERIFICATION_STATE_VERSION_STALE" ++
  blocker (verification.stateFingerprint ≠ fingerprint) "VERIFICATION_STATE_FINGERPRINT_STALE"

/-- What justifies a completion: the state it was judged by and the verification of that state. -/
structure Justification where
  snapshot : OrchestrationSnapshot
  fingerprint : String
  verification : LiveVerificationAuthority
  deriving DecidableEq

def judge (digests : Digests) (db : Database) (input : EvaluateCompletionPolicyInput)
    (snapshot : OrchestrationSnapshot) : Except (List String) Justification :=
  let blockers := collectSnapshotBlockers snapshot
  let fingerprint := ChildExecution.present (computeStateFingerprint digests db input.runId)
  let unavailable :=
    blocker (!fingerprint.any isFingerprint) "STATE_FINGERPRINT_UNAVAILABLE"
  match loadAndValidateLiveVerification db input.verificationId input.runId with
  | .error reasons => .error (blockers ++ unavailable ++ reasons)
  | .ok verification =>
    match fingerprint with
    | none => .error (blockers ++ unavailable)
    | some fingerprint =>
      match blockers ++ unavailable ++ currencyBlockers verification snapshot fingerprint with
      | [] => .ok { snapshot, fingerprint, verification }
      | reasons => .error reasons

def completionKey (runId : String) (stateVersion : Nat) (stateFingerprint verificationId : String) :
    String :=
  "completion-policy:" ++ runId ++ ":" ++ toString stateVersion ++ ":" ++ stateFingerprint ++ ":" ++
    verificationId ++ ":" ++ policyVersion

def Justification.key (just : Justification) : String :=
  completionKey just.snapshot.runId just.snapshot.aggregateVersion just.fingerprint
    just.verification.id

def Justification.decision (just : Justification) : Decision where
  policyVersion := policyVersion
  runId := just.snapshot.runId
  stateVersion := just.snapshot.aggregateVersion
  stateFingerprint := just.fingerprint
  verificationId := just.verification.id
  verificationTargetSha := just.verification.targetSha
  evidenceIds := just.verification.evidenceIds
  decidedPhase := .completed

def isValidDecisionJson (decision : Option Decision) : Bool :=
  decision.any fun decision => decision.policyVersion = policyVersion

def completedOrder (review : ReviewRow) : Nat × Nat :=
  ((review.completedAt.map (· + 1)).getD 0, review.createdAt)

def laterReview (best : Option ReviewRow) (review : ReviewRow) : Option ReviewRow :=
  match best with
  | none => some review
  | some first =>
    if (completedOrder first).1 < (completedOrder review).1 ∨
        ((completedOrder first).1 = (completedOrder review).1 ∧
          (completedOrder first).2 < (completedOrder review).2) then some review
    else best

def latestCompletedReview (db : Database) (runId : String) : Option ReviewRow :=
  (db.reviews.rows.filter fun review =>
    decide (review.taskRunId = runId) && decide (review.status = .completed)).foldl laterReview none

def Justification.review (digests : Digests) (just : Justification)
    (sessionId : Option String) (now : Nat) : ReviewRow where
  id := .completionReview (digests.digest just.key)
  completionKey := just.key
  sessionId := sessionId
  taskRunId := just.snapshot.runId
  status := .running
  candidateId := none
  error := none
  createdAt := now
  completedAt := none
  stateVersion := just.snapshot.aggregateVersion
  stateFingerprint := just.fingerprint
  verificationId := just.verification.id
  decision := some just.decision

/-- The primary key and the live identity of the review table. -/
def reviewConflicts (review row : ReviewRow) : Bool :=
  decide (row.id = review.id) ||
    (decide (row.taskRunId = review.taskRunId) && decide (row.stateVersion = review.stateVersion) &&
      decide (row.stateFingerprint = review.stateFingerprint) &&
      decide (row.verificationId = review.verificationId))

def insertReview? (db : Database) (review : ReviewRow) : Option Database :=
  if db.reviews.rows.any (reviewConflicts review) then none
  else (db.reviews.insert? review).map fun reviews => { db with reviews }

def isRunningReview (key : String) (review : ReviewRow) : Bool :=
  decide (review.completionKey = key) && decide (review.status = .running)

def setReviewFailed (now : Nat) (review : ReviewRow) : ReviewRow :=
  { review with status := .failed, error := some "COMPLETION_CAS_CONFLICT", completedAt := some now }

theorem setReviewFailed_key (now : Nat) (review : ReviewRow) :
    (setReviewFailed now review).completionKey = review.completionKey := rfl

def setReviewCompleted (eventId : RecordId) (decision : Decision) (now : Nat)
    (review : ReviewRow) : ReviewRow :=
  { review with
    status := .completed
    candidateId := some eventId
    error := none
    completedAt := some now
    decision := some decision }

theorem setReviewCompleted_key (eventId : RecordId) (decision : Decision) (now : Nat)
    (review : ReviewRow) :
    (setReviewCompleted eventId decision now review).completionKey = review.completionKey := rfl

def setCompletedAt (now : Nat) (row : TaskRunRow) : TaskRunRow := { row with completedAt := some now }

theorem setCompletedAt_runId (now : Nat) (row : TaskRunRow) :
    (setCompletedAt now row).runId = row.runId := rfl

def completionEvent (digests : Digests) (just : Justification) (now : Nat) : EventRow where
  eventId := .completionEvent (digests.digest just.key)
  eventType := "run.completed"
  causationId := some just.verification.id
  correlationId := just.snapshot.runId
  aggregateId := just.snapshot.runId
  aggregateVersion := just.snapshot.aggregateVersion + 1
  timestamp := now
  data := .decision just.decision

def completionEntry (digests : Digests) (just : Justification) : OutboxRow where
  id := .completionOutbox (digests.digest just.key)
  eventId := .completionEvent (digests.digest just.key)
  eventType := "run.completed"
  aggregateId := just.snapshot.runId
  data := .decision just.decision
  idempotencyKey := .completion just.key
  sourceComponent := "completion_policy"

def completionDecision (digests : Digests) (just : Justification) (now : Nat) :
    CompletionDecisionRow where
  id := .completionEvent (digests.digest just.key)
  runId := just.snapshot.runId
  sha := just.verification.targetSha
  checks := just.decision
  idempotencyKey := just.key
  decidedAt := now

/-- `INSERT OR IGNORE INTO completion_decisions`. -/
def insertDecisionOrIgnore (db : Database) (row : CompletionDecisionRow) : Database :=
  if db.decisions.any fun other => decide (other.id = row.id) ||
      decide (other.idempotencyKey = row.idempotencyKey) then db
  else { db with decisions := db.decisions ++ [row] }

/-- The writes after the swap, in their order; the foreign key of the outbox may refuse the last. -/
def completionWrites (digests : Digests) (db : Database) (just : Justification) (now : Nat) :
    Except Failure Database :=
  let completedRow := fun (row : TaskRunRow) =>
    decide (row.runId = just.snapshot.runId) && decide (row.state = .completed) &&
      decide (row.aggregateVersion = just.snapshot.aggregateVersion + 1)
  let taskRuns := db.taskRuns.update completedRow (setCompletedAt now) (setCompletedAt_runId now)
  let reviews := db.reviews.update (isRunningReview just.key)
    (setReviewCompleted (.completionEvent (digests.digest just.key)) just.decision now)
    (setReviewCompleted_key _ _ now)
  let db' := insertDecisionOrIgnore { db with taskRuns, reviews } (completionDecision digests just now)
  let db'' := insertEventOrIgnore db' (completionEvent digests just now)
  match insertOutboxOrIgnore? db'' (completionEntry digests just) with
  | none => .error constraintFailure
  | some db''' => .ok db'''

def Justification.swap (just : Justification) : TransitionPhaseInput where
  runId := just.snapshot.runId
  targetPhase := .completed
  expectedPhase := .verifying
  expectedAggregateVersion := just.snapshot.aggregateVersion
  sha := some just.verification.targetSha

def completeReviewed (digests : Digests) (db : Database) (just : Justification)
    (reviewId : RecordId) (now : Nat) : Except Failure (Database × CompletionPolicyResult) :=
  let swapped := transitionPhase db just.swap true
  if swapped.2 then do
    let db' ← completionWrites digests swapped.1 just now
    pure (db', {
      status := .completed
      runId := just.snapshot.runId
      completionKey := some just.key
      reviewId := some reviewId })
  else
    let reviews := swapped.1.reviews.update (isRunningReview just.key) (setReviewFailed now)
      (setReviewFailed_key now)
    pure ({ swapped.1 with reviews }, {
      status := .conflict
      runId := just.snapshot.runId
      completionKey := some just.key
      reviewId := some reviewId
      blockerReasons := ["COMPLETION_CAS_CONFLICT"] })

def completeJustified (digests : Digests) (db : Database) (just : Justification)
    (sessionId : Option String) (now : Nat) : Except Failure (Database × CompletionPolicyResult) :=
  let review := just.review digests sessionId now
  match db.reviews.get? just.key with
  | some existing =>
    match existing.status with
    | .completed =>
      if isValidDecisionJson existing.decision then
        pure (db, {
          status := .alreadyCompleted
          runId := just.snapshot.runId
          completionKey := some just.key
          reviewId := some existing.id })
      else pure (db, blocked just.snapshot.runId ["COMPLETION_REVIEW_CORRUPT"])
    | .running => completeReviewed digests db just review.id now
    | _ =>
      pure (db, blocked just.snapshot.runId ["COMPLETION_REVIEW_TERMINAL_WITHOUT_COMPLETION"])
  | none =>
    match insertReview? db review with
    | none => .error constraintFailure
    | some db' => completeReviewed digests db' just review.id now

def answerCompleted (db : Database) (runId : String) : CompletionPolicyResult :=
  match (latestCompletedReview db runId).filter fun review => isValidDecisionJson review.decision with
  | none => blocked runId ["COMPLETED_WITHOUT_VALID_POLICY_REVIEW"]
  | some review =>
    { status := .alreadyCompleted
      runId := runId
      completionKey := some review.completionKey
      reviewId := some review.id }

/-- `evaluateInTransaction`; an exception rolls the transaction back. -/
def evaluateInTransaction (digests : Digests) (db : Database)
    (input : EvaluateCompletionPolicyInput) (now : Nat) :
    Except Failure (Database × CompletionPolicyResult) :=
  match getSnapshot db input.runId with
  | none => pure (db, blocked input.runId ["RUN_NOT_FOUND"])
  | some snapshot =>
    if snapshot.phase = .completed then pure (db, answerCompleted db input.runId)
    else
      match judge digests db input snapshot with
      | .error reasons => pure (db, blocked input.runId reasons)
      | .ok just => completeJustified digests db just input.sessionId now

/-- `evaluateAndComplete`: the transaction, and the database it leaves. -/
def evaluateAndComplete (digests : Digests) (db : Database)
    (input : EvaluateCompletionPolicyInput) (now : Nat) :
    Database × Except Failure CompletionPolicyResult :=
  match evaluateInTransaction digests db input now with
  | .error failure => (db, .error failure)
  | .ok (db', result) => (db', .ok result)

end CompletionPolicy
