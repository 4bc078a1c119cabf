import FlowDeck.Calibration.ReferenceSet
import FlowDeck.Verification.PlanExecutor
import FlowDeck.Verification.RuntimeIngest

/-! The evaluation of a verification run against its reference set. -/

namespace ShadowEvaluation

open CalibrationHistory Checked ImpactedPackages Paths PlanExecutor PolicyStore ReferenceSet
  RunArtifact RuntimeIngest Statements

def calibrationContractVersion : Nat := 2

def currentSchemaVersion : Nat := 10

inductive CalibrationExecutionOrigin
  | candidateSource
  | shadowReference
  deriving DecidableEq

structure ShadowCheckObservation where
  checkId : String
  displayName : String
  kind : VerificationCheckKind
  scope : String
  candidateSelected : Bool
  referenceSelected : Bool
  executionStatus : CheckExecutionStatus
  hasPhysicalExecution : Bool
  executionId : Option String
  reusedExecution : Bool
  durationMs : Nat
  signalClass : SignalClass
  isObservedShadowMiss : Bool
  reason : Option String
  deriving DecidableEq

structure ShadowExecutionObservation where
  executionId : String
  checkId : String
  origin : CalibrationExecutionOrigin
  program : String
  argvDigest : String
  cwd : String
  status : CheckExecutionStatus
  exitCode : Option Int
  durationMs : Nat
  stdoutDigest : Option String
  stderrDigest : Option String
  deriving DecidableEq

structure CalibrationEligibility where
  eligibleForMissRate : Bool
  eligibleForCostRatio : Bool
  eligibleForRuntimeComparison : Bool
  deriving DecidableEq

/-- The metrics; a ratio is kept as the two numbers that are divided. -/
structure CalibrationMetrics where
  candidateSelectedCount : Nat
  shadowReferenceCount : Nat
  shadowExecutedCount : Nat
  candidatePhysicalExecutionCount : Nat
  shadowPhysicalExecutionCount : Nat
  selectedFailureCount : Nat
  unselectedFailureCount : Nat
  observedShadowMissCount : Nat
  shadowIncompleteCount : Nat
  candidateExecutionDurationMs : Nat
  shadowReferenceDurationMs : Nat
  selectionRatio : Option (Nat × Nat)
  runtimeCostRatio : Option (Nat × Nat)
  signalRecall : Option (Nat × Nat)
  eligibility : CalibrationEligibility
  deriving DecidableEq

structure CalibrationRun where
  calibrationId : String
  calibrationContractVersion : Nat
  sourceRunId : String
  sourceArtifactSha256 : String
  candidatePlanDigest : String
  policy : CalibrationPolicy
  policyDigest : String
  status : CalibrationStatus
  referenceTruncated : Bool
  candidatePlan : VerificationPlan
  checks : List ShadowCheckObservation
  executions : List ShadowExecutionObservation
  metrics : CalibrationMetrics
  recordDigest : String
  startedAtMs : Nat
  completedAtMs : Nat
  durationMs : Nat
  deriving DecidableEq

/-- What a record's digest covers. -/
structure CalibrationRecordDigestInput where
  calibrationContractVersion : Nat
  sourceRunId : String
  sourceArtifactSha256 : String
  candidatePlanDigest : String
  policyDigest : String
  status : CalibrationStatus
  referenceTruncated : Bool
  checks : List ShadowCheckObservation
  executions : List ShadowExecutionObservation
  metrics : CalibrationMetrics
  deriving DecidableEq

/-- The canonical texts of calibration policies and of records. -/
structure CalibrationDigests extends Digests where
  canonicalCalibrationPolicy : CalibrationPolicy → String
  canonicalRecord : CalibrationRecordDigestInput → String

/-- What the evaluator is built on. -/
structure Calibrator where
  services : Services
  runtime : Runtime
  digests : CalibrationDigests
  replaceProjectSecrets : String → String
  replaceUserHomes : String → String

/-- The clocks and what becomes of the processes, by the place of the check they are for. -/
structure ShadowWorld where
  startWall : Nat
  completedWall : Nat
  elapsedMs : Nat → Nat
  durationMs : Nat
  process : Nat → Process
  execCount : Nat → Nat

def digestInput (run : CalibrationRun) : CalibrationRecordDigestInput where
  calibrationContractVersion := run.calibrationContractVersion
  sourceRunId := run.sourceRunId
  sourceArtifactSha256 := run.sourceArtifactSha256
  candidatePlanDigest := run.candidatePlanDigest
  policyDigest := run.policyDigest
  status := run.status
  referenceTruncated := run.referenceTruncated
  checks := run.checks
  executions := run.executions
  metrics := run.metrics

def recordNumbers (input : CalibrationRecordDigestInput) : List Nat :=
  let metrics := input.metrics
  [input.calibrationContractVersion] ++ input.checks.map (·.durationMs) ++
    input.executions.map (·.durationMs) ++
    [metrics.candidateSelectedCount, metrics.shadowReferenceCount, metrics.shadowExecutedCount,
      metrics.candidatePhysicalExecutionCount, metrics.shadowPhysicalExecutionCount,
      metrics.selectedFailureCount, metrics.unselectedFailureCount,
      metrics.observedShadowMissCount, metrics.shadowIncompleteCount,
      metrics.candidateExecutionDurationMs, metrics.shadowReferenceDurationMs]

def computeCalibrationRecordDigest (d : CalibrationDigests) (run : CalibrationRun) :
    Except String String :=
  computeCanonicalSha256 d.toDigests (recordNumbers (digestInput run))
    (d.canonicalRecord (digestInput run))

def computePolicyDigest (d : CalibrationDigests) (policy : CalibrationPolicy) :
    Except String String :=
  computeCanonicalSha256 d.toDigests
    [policy.maxShadowChecks, policy.maxTotalDurationMs, policy.perCheckTimeoutMs,
      policy.maxOutputBytes]
    (d.canonicalCalibrationPolicy policy)

def generateCalibrationId (d : CalibrationDigests)
    (sourceRunId candidatePlanDigest policyDigest : String) : String :=
  "cal_" ++ d.sha256 (sourceRunId ++ ":" ++ candidatePlanDigest ++ ":" ++ policyDigest ++ ":" ++
    toString currentSchemaVersion)

/-! ### The run that is evaluated -/

def plannedIds (run : VerificationRun) : List String := run.plan.selectedChecks.map (·.checkId)

/-- One result against those before it and the plan. -/
def validateResult (run : VerificationRun) (observed : List String)
    (result : CheckExecutionResult) : Except String (List String) := do
  refuseIf (isPlanned run result.checkId = false)
    ("source verification result " ++ quoted result.checkId ++ " is absent from candidate plan")
  refuseIf (result.checkId ∈ observed)
    ("source verification run contains duplicate result for " ++ quoted result.checkId)
  refuseIf (trimmed result.executionId = "")
    ("source verification result " ++ quoted result.checkId ++ " has an empty execution ID")
  return observed ++ [result.checkId]

def sharesEvidence (first other : CheckExecutionResult) : Bool :=
  other.status = first.status && other.command = first.command && other.cwd = first.cwd &&
    other.exitCode = first.exitCode && other.durationMs = first.durationMs &&
    other.stdoutDigest = first.stdoutDigest && other.stderrDigest = first.stderrDigest

def validateSourceGroup (executionId : String) : List CheckExecutionResult → Except String Unit
  | [] => .ok ()
  | first :: others => do
    refuseIf (others.any fun other =>
        isPhysicalProcessExecution other.status != isPhysicalProcessExecution first.status)
      ("source execution " ++ quoted executionId ++ " mixes physical and non-physical results")
    refuseIf (((first :: others).filter fun result => !result.reusedExecution).length ≠ 1)
      ("source execution " ++ quoted executionId ++ " must have exactly one primary obligation")
    refuseIf (others.any fun other => !sharesEvidence first other)
      ("source execution " ++ quoted executionId ++ " has inconsistent shared evidence")

def validateSourceRelationship (r : Runtime) (run : VerificationRun) : Except String Unit := do
  refuseIf (¬ (plannedIds run).Nodup)
    "source verification plan contains duplicate selected check IDs"
  let observed ← run.checks.foldlM (validateResult run) []
  match (r.walk (plannedIds run)).find? fun id => !observed.contains id with
  | some missing =>
    .error ("source verification run lacks a result for candidate check " ++ quoted missing)
  | none =>
    (r.walk (executionIds run)).forM fun executionId =>
      validateSourceGroup executionId (groupOf run executionId)

def validateReferenceSuperset (plan : VerificationPlan) (reference : List PlannedCheck) :
    Except String Unit :=
  match plan.selectedChecks.find? fun check =>
      !(reference.map (·.checkId)).contains check.checkId with
  | some missing =>
    .error ("shadow reference invariant failed: candidate check " ++ quoted missing.checkId ++
      " is missing")
  | none => .ok ()

/-- The map from check ids to results keeps the last one of an id. -/
def candidateResult? (run : VerificationRun) (checkId : String) : Option CheckExecutionResult :=
  run.checks.reverse.find? fun result => result.checkId = checkId

def candidateSignalClass : CheckExecutionStatus → SignalClass
  | .passed => .selectedPass
  | .failed => .selectedSignal
  | _ => .incomplete

def shadowSignalClass : CheckExecutionStatus → Bool → SignalClass
  | .passed, true => .unselectedPass
  | .failed, true => .observedShadowMiss
  | _, _ => .incomplete

def redactCalibrationText (k : Calibrator) (input : String) : String :=
  k.replaceUserHomes (k.replaceProjectSecrets (k.services.redactSecrets input))

def safeProgram (k : Calibrator) (program : Option String) : String :=
  let raw := program.getD ""
  if isAbsolute raw then (fileName? raw).getD "[redacted-program]" else redactCalibrationText k raw

def safeInvocationCwd (root cwd : String) : Except String String :=
  match relativeTo? cwd root with
  | none => .error "shadow execution cwd is outside the repository and cannot be persisted"
  | some value => .ok (if value = "" then "." else value)

def safeSourceCwd (k : Calibrator) (root cwd : String) : Except String String :=
  if isAbsolute cwd then safeInvocationCwd root cwd
  else if (components cwd).contains .parentDir then
    .error ("candidate execution cwd escapes repository: " ++ k.services.redactSecrets cwd)
  else .ok (if cwd = "" || cwd = "." then "." else cwd)

/-! ### The observation of each check -/

structure CachedShadowExecution where
  outcome : RawProcessOutcome
  executionId : Option String

/-- What the loop has observed. `candidateExecutionIds` is also the set of the source executions seen. -/
structure Evaluation where
  shadowChecks : List ShadowCheckObservation := []
  shadowExecutions : List ShadowExecutionObservation := []
  candidateExecutionIds : List String := []
  shadowExecutionIds : List String := []
  invocationCache : List (InvocationKey × CachedShadowExecution) := []

/-- The observation of a check that no process ran for. -/
def notObserved (check : PlannedCheck) (status : CheckExecutionStatus) (reason : String) :
    ShadowCheckObservation where
  checkId := check.checkId
  displayName := check.displayName
  kind := check.kind
  scope := check.scope
  candidateSelected := false
  referenceSelected := true
  executionStatus := status
  hasPhysicalExecution := false
  executionId := none
  reusedExecution := false
  durationMs := 0
  signalClass := .incomplete
  isObservedShadowMiss := false
  reason := some reason

def incompleteObservation (k : Calibrator) (check : PlannedCheck) (reason : String) :
    ShadowCheckObservation := notObserved check .cancelled (redactCalibrationText k reason)

def unsupportedObservation (k : Calibrator) (check : PlannedCheck) (reason : String) :
    ShadowCheckObservation := notObserved check .unsupported (redactCalibrationText k reason)

def candidateExecutionId? (result : CheckExecutionResult) : Option String :=
  if isPhysicalProcessExecution result.status then
    some ("candidate_" ++ trimmed result.executionId)
  else none

def candidateObservation (k : Calibrator) (check : PlannedCheck) (result : CheckExecutionResult) :
    ShadowCheckObservation where
  checkId := check.checkId
  displayName := check.displayName
  kind := check.kind
  scope := check.scope
  candidateSelected := true
  referenceSelected := true
  executionStatus := result.status
  hasPhysicalExecution := isPhysicalProcessExecution result.status
  executionId := candidateExecutionId? result
  reusedExecution := isPhysicalProcessExecution result.status && result.reusedExecution
  durationMs := result.durationMs
  signalClass := candidateSignalClass result.status
  isObservedShadowMiss := false
  reason := result.reason.map (redactCalibrationText k)

def candidateExecution (k : Calibrator) (check : PlannedCheck) (result : CheckExecutionResult)
    (executionId cwd : String) : ShadowExecutionObservation where
  executionId := executionId
  checkId := check.checkId
  origin := .candidateSource
  program := safeProgram k result.command.head?
  argvDigest := argvDigest k.runtime result.command
  cwd := cwd
  status := result.status
  exitCode := result.exitCode
  durationMs := result.durationMs
  stdoutDigest := result.stdoutDigest
  stderrDigest := result.stderrDigest

def shadowExecution (k : Calibrator) (check : PlannedCheck) (inv : ConcreteInvocation)
    (outcome : RawProcessOutcome) (executionId cwd : String) : ShadowExecutionObservation where
  executionId := executionId
  checkId := check.checkId
  origin := .shadowReference
  program := safeProgram k (some inv.program)
  argvDigest := argvDigest k.runtime (inv.program :: inv.argv)
  cwd := cwd
  status := outcome.status
  exitCode := outcome.exitCode
  durationMs := outcome.durationMs
  stdoutDigest := outcome.stdoutDigest
  stderrDigest := outcome.stderrDigest

def shadowObservation (k : Calibrator) (check : PlannedCheck) (cached : CachedShadowExecution)
    (reused : Bool) : ShadowCheckObservation :=
  let physical := isPhysicalProcessExecution cached.outcome.status
  let signalClass := shadowSignalClass cached.outcome.status physical
  { checkId := check.checkId
    displayName := check.displayName
    kind := check.kind
    scope := check.scope
    candidateSelected := false
    referenceSelected := true
    executionStatus := cached.outcome.status
    hasPhysicalExecution := physical
    executionId := cached.executionId
    reusedExecution := reused
    durationMs := cached.outcome.durationMs
    signalClass := signalClass
    isObservedShadowMiss := signalClass = .observedShadowMiss
    reason := cached.outcome.reason.map (redactCalibrationText k) }

/-- `{:04}`. -/
def fourDigits (n : Nat) : String :=
  String.ofList (List.replicate (4 - (toString n).length) '0') ++ toString n

section Evaluate

variable (k : Calibrator) (c : Checkout) (run : VerificationRun) (policy : CalibrationPolicy)
  (w : ShadowWorld)

def remainingMs (i : Nat) : Nat := policy.maxTotalDurationMs - w.elapsedMs i

/-- What a process gives that is started for the check at a place. -/
def outcomeAt (i : Nat) (inv : ConcreteInvocation) : RawProcessOutcome :=
  executeBoundedCommand k.services
    { timeoutSecs := min policy.perCheckTimeoutMs (remainingMs policy w i) / 1000
      maxStdoutBytes := policy.maxOutputBytes
      maxStderrBytes := policy.maxOutputBytes }
    inv.program (w.execCount i) (w.process i)

def observeCandidate (check : PlannedCheck) (result : CheckExecutionResult) (s : Evaluation) :
    Except String Evaluation := do
  let shadowChecks := s.shadowChecks ++ [candidateObservation k check result]
  match candidateExecutionId? result with
  | none => return { s with shadowChecks := shadowChecks }
  | some executionId =>
    if executionId ∈ s.candidateExecutionIds then return { s with shadowChecks := shadowChecks }
    else
      let cwd ← safeSourceCwd k c.root result.cwd
      return { s with
        shadowChecks := shadowChecks
        shadowExecutions := s.shadowExecutions ++
          [candidateExecution k check result executionId cwd]
        candidateExecutionIds := s.candidateExecutionIds ++ [executionId] }

def launch (i : Nat) (check : PlannedCheck) (inv : ConcreteInvocation) (s : Evaluation) :
    Except String (CachedShadowExecution × Evaluation) := do
  match s.invocationCache.lookup inv.cacheKey with
  | some cached => return (cached, s)
  | none =>
    let outcome := outcomeAt k policy w i inv
    if isPhysicalProcessExecution outcome.status then
      let executionId := "shadow_exec_" ++ fourDigits (s.shadowExecutions.length + 1)
      let cwd ← safeInvocationCwd c.root inv.cwd
      let cached : CachedShadowExecution := ⟨outcome, some executionId⟩
      return (cached, { s with
        shadowExecutions := s.shadowExecutions ++
          [shadowExecution k check inv outcome executionId cwd]
        invocationCache := s.invocationCache ++ [(inv.cacheKey, cached)] })
    else
      let cached : CachedShadowExecution := ⟨outcome, none⟩
      return (cached, { s with
        invocationCache := s.invocationCache ++ [(inv.cacheKey, cached)] })

def observeShadow (check : PlannedCheck) (cached : CachedShadowExecution) (s : Evaluation) :
    Evaluation :=
  let reused := cached.executionId.isSome &&
    s.shadowChecks.any fun observation => observation.executionId = cached.executionId
  { s with
    shadowChecks := s.shadowChecks ++ [shadowObservation k check cached reused]
    shadowExecutionIds := cached.executionId.elim s.shadowExecutionIds s.shadowExecutionIds.insert }

def evaluateCheck (i : Nat) (check : PlannedCheck) (s : Evaluation) : Except String Evaluation := do
  match candidateResult? run check.checkId with
  | some result => observeCandidate k c check result s
  | none =>
    if remainingMs policy w i = 0 then
      return { s with shadowChecks := s.shadowChecks ++
        [incompleteObservation k check "Calibration time budget exhausted"] }
    else
      match resolve c i check with
      | .error reason =>
        return { s with shadowChecks := s.shadowChecks ++ [unsupportedObservation k check reason] }
      | .ok inv =>
        let (cached, s) ← launch k c policy w i check inv s
        return observeShadow k check cached s

def evaluateChecks : Nat → List PlannedCheck → Evaluation → Except String Evaluation
  | _, [], s => .ok s
  | i, check :: checks, s => do
    let s ← evaluateCheck k c run policy w i check s
    evaluateChecks (i + 1) checks s

end Evaluate

/-! ### The metrics -/

def countClass (checks : List ShadowCheckObservation) (signalClass : SignalClass) : Nat :=
  (checks.filter fun check => check.signalClass = signalClass).length

/-- A sum of `u64`, which wraps around. -/
def sumMs (durations : List Nat) : Nat := durations.foldl (fun a b => (a + b) % 2 ^ 64) 0

def metricsOf (s : Evaluation) (referenceTruncated : Bool) : CalibrationMetrics :=
  let candidateSelectedCount := (s.shadowChecks.filter (·.candidateSelected)).length
  let selectedFailureCount := countClass s.shadowChecks .selectedSignal
  let observedShadowMissCount := countClass s.shadowChecks .observedShadowMiss
  let shadowIncompleteCount := countClass s.shadowChecks .incomplete
  let candidateDurationMs := sumMs ((s.shadowExecutions.filter fun execution =>
    execution.origin = .candidateSource).map (·.durationMs))
  let referenceDurationMs := sumMs (s.shadowExecutions.map (·.durationMs))
  let completeReference := shadowIncompleteCount = 0 && !referenceTruncated
  let totalFailingSignals := selectedFailureCount + observedShadowMissCount
  { candidateSelectedCount := candidateSelectedCount
    shadowReferenceCount := s.shadowChecks.length
    shadowExecutedCount := s.shadowExecutionIds.length
    candidatePhysicalExecutionCount := s.candidateExecutionIds.length
    shadowPhysicalExecutionCount := s.shadowExecutionIds.length
    selectedFailureCount := selectedFailureCount
    unselectedFailureCount := observedShadowMissCount
    observedShadowMissCount := observedShadowMissCount
    shadowIncompleteCount := shadowIncompleteCount
    candidateExecutionDurationMs := candidateDurationMs
    shadowReferenceDurationMs := referenceDurationMs
    selectionRatio :=
      if 0 < s.shadowChecks.length then some (candidateSelectedCount, s.shadowChecks.length)
      else none
    runtimeCostRatio :=
      if 0 < referenceDurationMs then some (candidateDurationMs, referenceDurationMs) else none
    signalRecall :=
      if completeReference && 0 < totalFailingSignals then
        some (selectedFailureCount, totalFailingSignals)
      else none
    eligibility := {
      eligibleForMissRate := completeReference
      eligibleForCostRatio := completeReference && 0 < referenceDurationMs
      eligibleForRuntimeComparison := completeReference && 0 < s.shadowExecutionIds.length } }

def statusOf (metrics : CalibrationMetrics) : CalibrationStatus :=
  if metrics.eligibility.eligibleForMissRate then .complete else .incomplete

/-- The record of an evaluation, before its digest. -/
def draftRun (k : Calibrator) (w : ShadowWorld) (run : VerificationRun) (policy : CalibrationPolicy)
    (artifactSha256 policyDigest : String) (truncated : Bool) (s : Evaluation) : CalibrationRun :=
  let candidatePlanDigest := k.runtime.sha256 (k.runtime.planBytes run.plan)
  let metrics := metricsOf s truncated
  { calibrationId := generateCalibrationId k.digests run.runId candidatePlanDigest policyDigest
    calibrationContractVersion := calibrationContractVersion
    sourceRunId := run.runId
    sourceArtifactSha256 := artifactSha256
    candidatePlanDigest := candidatePlanDigest
    policy := policy
    policyDigest := policyDigest
    status := statusOf metrics
    referenceTruncated := truncated
    candidatePlan := run.plan
    checks := s.shadowChecks
    executions := s.shadowExecutions
    metrics := metrics
    recordDigest := ""
    startedAtMs := w.startWall
    completedAtMs := w.completedWall
    durationMs := w.durationMs }

def runCalibrationWithSourceArtifact (k : Calibrator) (c : Checkout) (i : PlanInputs)
    (w : ShadowWorld) (run : VerificationRun) (policy : CalibrationPolicy)
    (artifactSha256 : String) : Except String CalibrationRun := do
  refuseIf (trimmed artifactSha256 = "")
    "calibration requires a non-empty source artifact SHA-256"
  let policyDigest ← computePolicyDigest k.digests policy
  validateSourceRelationship k.runtime run
  let (reference, truncated) := constructShadowReferenceSet i run.plan policy
  validateReferenceSuperset run.plan reference
  let s ← evaluateChecks k c run policy w 0 reference {}
  let draft := draftRun k w run policy artifactSha256 policyDigest truncated s
  let recordDigest ← computeCalibrationRecordDigest k.digests draft
  return { draft with recordDigest := recordDigest }

end ShadowEvaluation
