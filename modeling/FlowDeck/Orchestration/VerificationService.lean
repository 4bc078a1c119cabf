import FlowDeck.Library.Machine
import FlowDeck.Orchestration.CompletionPolicy

/-! The calls of the verification service as they take their turns: between what one of them reads
and what it writes, the others may go on. -/

namespace VerificationService

open CompletionPolicy Orchestration RunStore

inductive VerificationStatus
  | pending
  | inProgress
  | passed
  | failed
  | skipped
  | error
  deriving DecidableEq

def VerificationStatus.text : VerificationStatus → String
  | .pending => "pending"
  | .inProgress => "in_progress"
  | .passed => "passed"
  | .failed => "failed"
  | .skipped => "skipped"
  | .error => "error"

/-- A row of `verification_results`. -/
structure ResultRow extends VerificationRow where
  assignmentId : Option String := none
  outputSummary : Option String
  errorOutput : Option String := none
  correlationId : Option String
  causationId : Option String := none
  startedAt : String
  completedAt : Option String := none
  updatedAt : Option String
  deriving DecidableEq

def ResultRow.key (row : ResultRow) : String := row.id

abbrev Results := Table ResultRow.key

structure VerificationResult where
  id : String
  runId : String
  assignmentId : Option String
  checkType : String
  status : String
  correlationId : String
  causationId : Option String
  result : Option String
  error : Option String
  evidenceIds : List String
  failureReasons : List String
  stateVersion : Option Int
  stateFingerprint : Option String
  targetSha : String
  isStale : Bool
  createdAt : String
  updatedAt : String
  deriving DecidableEq

/-! ### The repository -/

def isLiveAuthority (row : ResultRow) : Bool :=
  row.stateVersion.isSome || row.verificationType = liveCheckType

def corrupt (field : String) : String := "CORRUPT_LIVE_VERIFICATION_ROW:" ++ field

def check (holds : Bool) (field : String) : Except String Unit :=
  if holds then .ok () else .error (corrupt field)

def parseJsonArray (live : Bool) (column : StringArrayColumn) (field : String) :
    Except String (List String) :=
  let otherwise := if live then .error (corrupt field) else .ok []
  match column with
  | .array items =>
    if items.any fun item => item.all (· = "") then otherwise
    else .ok (sortedSet (items.filterMap id))
  | _ => otherwise

/-- What a live row must hold. -/
def checkLive (row : ResultRow) : Except String Unit := do
  check (row.status ∈ verificationStatuses) "status"
  check (isStateVersion row.stateVersion) "state_version"
  check (row.stateFingerprint.any (isHex 32)) "state_fingerprint"
  check (isHex 40 row.targetSha) "target_sha"
  check (row.isStale = 0 || row.isStale = 1) "is_stale"

def toVerification (row : ResultRow) : Except String VerificationResult := do
  let live := isLiveAuthority row
  if live then checkLive row
  let evidenceIds ← parseJsonArray live row.evidence "evidence_json"
  let failureReasons ← parseJsonArray live row.failureReasons "failure_reasons"
  pure {
    id := row.id
    runId := row.runId
    assignmentId := row.assignmentId
    checkType := row.verificationType
    status := row.status
    correlationId := row.correlationId.getD row.runId
    causationId := row.causationId
    result := row.outputSummary
    error := row.errorOutput
    evidenceIds := evidenceIds
    failureReasons := failureReasons
    stateVersion := row.stateVersion
    stateFingerprint := row.stateFingerprint
    targetSha := row.targetSha
    isStale := row.isStale = 1
    createdAt := row.startedAt
    updatedAt := (row.updatedAt.or row.completedAt).getD row.startedAt }

def stored (texts : List String) : StringArrayColumn := .array (texts.map some)

/-- The unique index on the rows that have a state version; a missing fingerprint equals none. -/
def sameIdentity (row other : ResultRow) : Bool :=
  row.stateVersion.isSome && row.stateFingerprint.isSome &&
    decide ((row.runId, row.stateVersion, row.stateFingerprint, row.verificationType) =
      (other.runId, other.stateVersion, other.stateFingerprint, other.verificationType))

def findById (results : Results) (id : String) : Except String (Option VerificationResult) :=
  (results.get? id).mapM toVerification

structure LiveVerificationRequest where
  runId : String
  stateVersion : Int
  stateFingerprint : String
  checkType : String
  correlationId : String
  causationId : Option String := none
  targetSha : Option String := none
  evidenceIds : List String
  deriving DecidableEq

def rowOfIdentity (results : Results) (input : LiveVerificationRequest) : Option ResultRow :=
  results.rows.find? fun row =>
    decide (row.runId = input.runId) && decide (row.stateVersion = some input.stateVersion) &&
      decide (row.stateFingerprint = some input.stateFingerprint) &&
      decide (row.verificationType = input.checkType)

def findByLiveIdentity (results : Results) (input : LiveVerificationRequest) :
    Except String (Option VerificationResult) :=
  (rowOfIdentity results input).mapM toVerification

/-- `liveIdentity`, with `digest` for the hash. -/
def liveIdentity (digest : String → String) (input : LiveVerificationRequest) : String :=
  "live-verification-" ++ digest ("verification:" ++ input.runId ++ ":" ++
    toString input.stateVersion ++ ":" ++ input.stateFingerprint ++ ":" ++ input.checkType)

/-- The row that `createVerification` inserts for a request. -/
def pendingRow (digest : String → String) (input : LiveVerificationRequest) (now : String) :
    ResultRow where
  id := liveIdentity digest input
  runId := input.runId
  verificationType := input.checkType
  status := VerificationStatus.pending.text
  targetSha := input.targetSha.getD "0000000000000000000000000000000000000000"
  outputSummary := some ""
  isStale := 0
  startedAt := now
  stateVersion := some input.stateVersion
  stateFingerprint := some input.stateFingerprint
  evidence := stored (sortedSet input.evidenceIds)
  failureReasons := stored []
  correlationId := some input.correlationId
  causationId := input.causationId
  updatedAt := some now

/-- `create`: `INSERT OR IGNORE`, and the row of the identity read back; what cannot be read is
rolled back. -/
def create (digest : String → String) (results : Results) (input : LiveVerificationRequest)
    (now : String) : Except String (Results × VerificationResult) := do
  let row := pendingRow digest input now
  let results' :=
    if results.rows.any (sameIdentity row) then results else results.insertOrIgnore row
  match rowOfIdentity results' input with
  | none => .error ("Verification persistence failed for " ++ row.id)
  | some saved => pure (results', ← toVerification saved)

/-- What an update names of a `Partial<VerificationResult>`. -/
structure VerificationUpdate where
  status : Option VerificationStatus := none
  result : Option String := none
  error : Option String := none
  evidenceIds : Option (List String) := none
  failureReasons : Option (List String) := none
  isStale : Option Bool := none
  stateFingerprint : Option String := none
  targetSha : Option String := none
  deriving DecidableEq

def VerificationUpdate.completes (input : VerificationUpdate) : Bool :=
  input.status.any fun status =>
    status = .passed || status = .failed || status = .skipped

def VerificationUpdate.row (input : VerificationUpdate) (now : String) (row : ResultRow) :
    ResultRow :=
  { row with
    status := (input.status.map (·.text)).getD row.status
    outputSummary := input.result.or row.outputSummary
    errorOutput := input.error.or row.errorOutput
    evidence := (input.evidenceIds.map stored).getD row.evidence
    failureReasons := (input.failureReasons.map stored).getD row.failureReasons
    isStale := (input.isStale.map fun stale => if stale then 1 else 0).getD row.isStale
    stateFingerprint := input.stateFingerprint.or row.stateFingerprint
    targetSha := input.targetSha.getD row.targetSha
    completedAt := if input.completes then some now else row.completedAt
    updatedAt := some now }

def constraintError (results : Results) (row : ResultRow) : Option String :=
  if row.status ∉ ["pending", "running", "passed", "failed", "skipped"] then
    some "CHECK constraint failed: status"
  else if results.rows.any fun other => other.id ≠ row.id && sameIdentity row other then
    some "UNIQUE constraint failed: idx_vr_live_identity"
  else none

def putRow (results : Results) (id : String) (input : VerificationUpdate) (now : String) :
    Results :=
  results.update (fun row => row.key = id) (input.row now) fun _ => rfl

/-- The transaction of `update`, for an input that sets something: `none` where there is no row, an
error where it is rolled back. -/
def writeUpdate (results : Results) (id : String) (input : VerificationUpdate) (now : String) :
    Except String (Option (Results × VerificationResult)) :=
  match results.get? id with
  | none => .ok none
  | some row =>
    match constraintError results (input.row now row) with
    | some error => .error error
    | none => (toVerification (input.row now row)).map fun updated =>
        some (putRow results id input now, updated)

/-! ### The service -/

structure LiveVerificationEvaluation where
  requiredChecksComplete : Bool
  requiredChecksPassed : Bool
  evidenceIds : List String
  failureReasons : List String
  deriving DecidableEq

/-- The change that the verification of FDX is requested for, with the options that reach the row. -/
structure FdxRequest where
  runId : String
  stateVersion : Int
  stateFingerprint : String
  headSha : Option String
  correlationId : String
  causationId : Option String := none
  checkType : Option String := none
  deriving DecidableEq

def FdxRequest.live (request : FdxRequest) : LiveVerificationRequest where
  runId := request.runId
  stateVersion := request.stateVersion
  stateFingerprint := request.stateFingerprint
  checkType := request.checkType.getD liveCheckType
  correlationId := request.correlationId
  causationId := request.causationId
  targetSha := request.headSha
  evidenceIds := []

/-- What `runFdxVerification` returns for the row. -/
structure FdxResult where
  status : VerificationStatus
  result : Option String
  evidenceIds : Option (List String)
  failureReasons : Option (List String)
  deriving DecidableEq

def FdxResult.update (result : FdxResult) : VerificationUpdate where
  status := some result.status
  result := result.result
  evidenceIds := result.evidenceIds
  failureReasons := result.failureReasons

def isSettled (existing : VerificationResult) : Bool :=
  existing.isStale || existing.status = VerificationStatus.passed.text ||
    existing.status = VerificationStatus.failed.text

def LiveVerificationEvaluation.reasons (evaluation : LiveVerificationEvaluation) : List String :=
  evaluation.failureReasons.eraseDups ++
    blocker evaluation.evidenceIds.isEmpty "NO_DURABLE_EVIDENCE" ++
    blocker (!evaluation.requiredChecksComplete) "REQUIRED_CHECKS_INCOMPLETE" ++
    blocker (!evaluation.requiredChecksPassed) "REQUIRED_CHECKS_FAILED"

def LiveVerificationEvaluation.update (evaluation : LiveVerificationEvaluation) :
    VerificationUpdate :=
  let reasons := evaluation.reasons
  let told := String.intercalate ", " reasons
  { status := some (if reasons.isEmpty then .passed else .failed)
    result := some (if reasons.isEmpty then "Live verification passed from persisted evidence."
      else "Live verification failed: " ++ told)
    evidenceIds := some (sortedSet evaluation.evidenceIds)
    failureReasons := some reasons
    error := if reasons.isEmpty then none else some told }

def staleUpdate (existing : VerificationResult) (reason : String) : VerificationUpdate where
  isStale := some true
  error := some reason
  failureReasons := some (existing.failureReasons ++ [reason]).eraseDups

inductive EventType
  | started
  | passed
  | failed
  | created
  deriving DecidableEq

def getStatusEvent : VerificationStatus → EventType
  | .passed => .passed
  | .failed => .failed
  | .pending | .inProgress | .skipped | .error => .created

structure VerificationEvent where
  type : EventType
  correlationId : String
  causationId : Option String
  aggregateId : String
  aggregateVersion : Int
  runId : String
  assignmentId : Option String
  checkType : Option String
  update : VerificationUpdate
  stateFingerprint : Option String
  deriving DecidableEq

def startedEvent (input : LiveVerificationRequest) (saved : VerificationResult) :
    VerificationEvent where
  type := .started
  correlationId := input.correlationId
  causationId := input.causationId
  aggregateId := saved.id
  aggregateVersion := input.stateVersion
  runId := input.runId
  assignmentId := none
  checkType := some input.checkType
  update := {}
  stateFingerprint := some input.stateFingerprint

def updatedEvent (id : String) (input : VerificationUpdate) (status : VerificationStatus)
    (existing : VerificationResult) : VerificationEvent where
  type := getStatusEvent status
  correlationId := existing.correlationId
  causationId := some (existing.causationId.getD existing.correlationId)
  aggregateId := id
  aggregateVersion := existing.stateVersion.getD 1
  runId := existing.runId
  assignmentId := existing.assignmentId
  checkType := none
  update := input
  stateFingerprint := existing.stateFingerprint

/-- A call at the point where it next reads, writes or waits. -/
inductive Task
  | findIdentity (input : LiveVerificationRequest) (fdx : Bool)
  | create (input : LiveVerificationRequest) (fdx : Bool)
  | native (id : String)
  | readToEvaluate (id : String) (evaluation : LiveVerificationEvaluation)
  | readToMark (id reason : String)
  | find (id : String) (input : VerificationUpdate)
  | findAgain (id : String) (input : VerificationUpdate) (existing : VerificationResult)
  | write (id : String) (input : VerificationUpdate) (existing found : VerificationResult)
  | done (outcome : Except String VerificationResult)

inductive Call
  | requestLiveVerification (input : LiveVerificationRequest)
  | requestFdxVerification (request : FdxRequest)
  | evaluateLiveVerification (id : String) (evaluation : LiveVerificationEvaluation)
  | markLiveVerificationStale (id reason : String)
  | updateVerification (id : String) (input : VerificationUpdate)

def Call.start : Call → Task
  | .requestLiveVerification input => .findIdentity input false
  | .requestFdxVerification request => .findIdentity request.live true
  | .evaluateLiveVerification id evaluation => .readToEvaluate id evaluation
  | .markLiveVerificationStale id reason => .readToMark id reason
  | .updateVerification id input => .find id input

structure Service where
  results : Results
  events : List VerificationEvent := []
  tasks : List Task := []

/-- The request is there: it is the answer, or FDX verifies it. -/
def requested (fdx : Bool) (pending : VerificationResult) : Task :=
  if fdx then .native pending.id else .done (.ok pending)

/-- The next part of a task, up to where it waits again; FDX's answer comes separately. -/
def advance (digest : String → String) (results : Results) (events : List VerificationEvent)
    (now : String) : Task → Results × List VerificationEvent × Task
  | .findIdentity input fdx =>
    match findByLiveIdentity results input with
    | .error error => (results, events, .done (.error error))
    | .ok (some existing) => (results, events, requested fdx existing)
    | .ok none => (results, events, .create input fdx)
  | .create input fdx =>
    match VerificationService.create digest results input now with
    | .error error => (results, events, .done (.error error))
    | .ok (results', saved) =>
      let published := if saved.id = liveIdentity digest input then [startedEvent input saved]
        else []
      (results', events ++ published, requested fdx saved)
  | .native id => (results, events, .native id)
  | .readToEvaluate id evaluation =>
    match findById results id with
    | .error error => (results, events, .done (.error error))
    | .ok none => (results, events, .done (.error "VERIFICATION_NOT_FOUND"))
    | .ok (some existing) =>
      if isSettled existing then (results, events, .done (.ok existing))
      else (results, events, .find id evaluation.update)
  | .readToMark id reason =>
    match findById results id with
    | .error error => (results, events, .done (.error error))
    | .ok none => (results, events, .done (.error "VERIFICATION_NOT_FOUND"))
    | .ok (some existing) =>
      if existing.isStale then (results, events, .done (.ok existing))
      else (results, events, .find id (staleUpdate existing reason))
  | .find id input =>
    match findById results id with
    | .error error => (results, events, .done (.error error))
    | .ok none => (results, events, .done (.error "VERIFICATION_NOT_FOUND"))
    | .ok (some existing) => (results, events, .findAgain id input existing)
  | .findAgain id input existing =>
    match findById results id with
    | .error error => (results, events, .done (.error error))
    | .ok none => (results, events, .done (.error "INTERNAL_ERROR"))
    | .ok (some found) => (results, events, .write id input existing found)
  | .write id input existing found =>
    if input = {} then (results, events, .done (.ok found))
    else
      match writeUpdate results id input now with
      | .error error => (results, events, .done (.error error))
      | .ok none => (results, events, .done (.error "INTERNAL_ERROR"))
      | .ok (some (results', updated)) =>
        let published := (input.status.map fun status => updatedEvent id input status existing).toList
        (results', events ++ published, .done (.ok updated))
  | .done outcome => (results, events, .done outcome)

inductive Action
  | call (call : Call)
  | resume (i : Nat) (now : String)
  | native (i : Nat) (result : FdxResult)
  | throws (i : Nat) (error : String)

/-- A call comes in, a task goes on, FDX answers, or what a task waits for throws. -/
def step (digest : String → String) (s : Service) : Action → Option Service
  | .call call => some { s with tasks := s.tasks ++ [call.start] }
  | .resume i now => s.tasks[i]?.map fun task =>
      let (results, events, task') := advance digest s.results s.events now task
      { results, events, tasks := s.tasks.set i task' }
  | .native i result =>
    match s.tasks[i]? with
    | some (.native id) => some { s with tasks := s.tasks.set i (.find id result.update) }
    | _ => none
  | .throws i error =>
    match s.tasks[i]? with
    | some (.done _) | none => none
    | some _ => some { s with tasks := s.tasks.set i (.done (.error error)) }

end VerificationService
