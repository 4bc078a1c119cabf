import FlowDeck.Calibration.CalibrationAccounts
import FlowDeck.Verification.ExecutorIngestion

/-! The stored calibrations. -/

namespace CalibrationRecords

open Checked CalibrationAccounts ImpactedPackages Paths PlanExecutor PolicyStore ReferenceSet
  RunArtifact RuntimeIngest ShadowEvaluation SignalMetrics Statements

open CalibrationHistory (CalibrationStatus)

/-- A row of `calibration_runs`; the columns after the creation time are empty in legacy rows. -/
structure RunRow where
  calibrationId : String
  sourceRunId : String
  candidatePlanDigest : String
  policyDigest : String
  status : CalibrationStatus
  referenceScope : ReferenceScope
  maxShadowChecks : Int
  referenceTruncated : Bool
  startedAtMs : Int
  completedAtMs : Int
  durationMs : Int
  createdAtMs : Int
  contractVersion : Int
  sourceArtifactSha256 : Option String
  recordDigest : Option String
  maxTotalDurationMs : Option Int
  perCheckTimeoutMs : Option Int
  maxOutputBytes : Option Int
  deriving DecidableEq

/-- A row of `calibration_checks`: an observation, its duration in a signed column. -/
structure CheckRow where
  calibrationId : String
  observation : ShadowCheckObservation
  durationMs : Int
  deriving DecidableEq

/-- A row of `calibration_executions`. -/
structure ExecutionRow where
  calibrationId : String
  execution : ShadowExecutionObservation
  durationMs : Int
  deriving DecidableEq

/-- A row of `calibration_metrics`, its counts and durations in the order of the columns. -/
structure MetricsRow where
  calibrationId : String
  counts : List Int
  selectionRatio : Option (Nat × Nat)
  runtimeCostRatio : Option (Nat × Nat)
  signalRecall : Option (Nat × Nat)
  eligibility : CalibrationEligibility
  deriving DecidableEq

def CheckRow.key (row : CheckRow) : String × String := (row.calibrationId, row.observation.checkId)

def ExecutionRow.key (row : ExecutionRow) : String × String :=
  (row.calibrationId, row.execution.executionId)

structure CalibrationTables where
  runs : Table RunRow.calibrationId
  checks : Table CheckRow.key
  executions : Table ExecutionRow.key
  metrics : Table MetricsRow.calibrationId

/-! ### What may be stored -/

def isUnredacted (k : Calibrator) (reason : String) : Bool :=
  reason ≠ k.services.redactSecrets reason ||
    (containsText reason "sk-proj-" && !containsText reason "sk-proj-[REDACTED]") ||
    containsText reason "/home/" || containsText reason "/Users/"

def validateCheckLinks (k : Calibrator) (executionIds : List String)
    (check : ShadowCheckObservation) : Except String Unit := do
  refuseIf (check.hasPhysicalExecution ≠ check.executionId.isSome)
    ("check " ++ quoted check.checkId ++ " has inconsistent physical execution linkage")
  match check.executionId with
  | some executionId =>
    refuseIf (executionId ∉ executionIds)
      ("check " ++ quoted check.checkId ++ " references missing execution " ++ quoted executionId)
  | none => .ok ()
  match check.reason with
  | some reason =>
    refuseIf (isUnredacted k reason = true)
      ("check " ++ quoted check.checkId ++ " reason was not redacted before persistence")
  | none => .ok ()

def validateExecutionPaths (execution : ShadowExecutionObservation) : Except String Unit := do
  refuseIf (isAbsolute execution.cwd = true ∨ (components execution.cwd).contains .parentDir = true)
    ("execution " ++ quoted execution.executionId ++ " contains an unsafe persisted cwd")
  refuseIf (isAbsolute execution.program = true)
    ("execution " ++ quoted execution.executionId ++ " contains an absolute program path")

def validateRunForPersistence (k : Calibrator) (run : CalibrationRun) : Except String Unit := do
  refuseIf (run.calibrationContractVersion ≠ calibrationContractVersion)
    "only qualified calibration contract version 2 may be persisted"
  refuseIf (trimmed run.sourceArtifactSha256 = "" ∨ trimmed run.recordDigest = "")
    "qualified calibration requires source and record digests"
  let executionIds := run.executions.map (·.executionId)
  refuseIf (¬ executionIds.Nodup) "calibration contains duplicate physical execution IDs"
  run.checks.forM (validateCheckLinks k executionIds)
  run.executions.forM validateExecutionPaths

def runRow (run : CalibrationRun) (nowMs : Nat) : RunRow where
  calibrationId := run.calibrationId
  sourceRunId := run.sourceRunId
  candidatePlanDigest := run.candidatePlanDigest
  policyDigest := run.policyDigest
  status := run.status
  referenceScope := run.policy.scope
  maxShadowChecks := asI64 run.policy.maxShadowChecks
  referenceTruncated := run.referenceTruncated
  startedAtMs := asI64 run.startedAtMs
  completedAtMs := asI64 run.completedAtMs
  durationMs := asI64 run.durationMs
  createdAtMs := asI64 nowMs
  contractVersion := run.calibrationContractVersion
  sourceArtifactSha256 := some run.sourceArtifactSha256
  recordDigest := some run.recordDigest
  maxTotalDurationMs := some (asI64 run.policy.maxTotalDurationMs)
  perCheckTimeoutMs := some (asI64 run.policy.perCheckTimeoutMs)
  maxOutputBytes := some (asI64 run.policy.maxOutputBytes)

def checkRow (calibrationId : String) (check : ShadowCheckObservation) : CheckRow where
  calibrationId := calibrationId
  observation := check
  durationMs := asI64 check.durationMs

def executionRow (calibrationId : String) (execution : ShadowExecutionObservation) :
    ExecutionRow where
  calibrationId := calibrationId
  execution := execution
  durationMs := asI64 execution.durationMs

def metricsRow (calibrationId : String) (metrics : CalibrationMetrics) : MetricsRow where
  calibrationId := calibrationId
  counts := [metrics.candidateSelectedCount, metrics.shadowReferenceCount,
    metrics.shadowExecutedCount, metrics.candidatePhysicalExecutionCount,
    metrics.shadowPhysicalExecutionCount, metrics.selectedFailureCount,
    metrics.unselectedFailureCount, metrics.observedShadowMissCount,
    metrics.shadowIncompleteCount, metrics.candidateExecutionDurationMs,
    metrics.shadowReferenceDurationMs].map asI64
  selectionRatio := metrics.selectionRatio
  runtimeCostRatio := metrics.runtimeCostRatio
  signalRecall := metrics.signalRecall
  eligibility := metrics.eligibility

def recordConflict (calibrationId : String) : String :=
  "calibration record conflict (CalibrationRecordConflict): calibration_id " ++
    quoted calibrationId ++ " already stores divergent or legacy evidence"

def insertOr {ρ κ : Type} [DecidableEq κ] {key : ρ → κ} (message : ρ → String) (t : Table key)
    (row : ρ) : Except String (Table key) :=
  match t.insert? row with
  | some t => .ok t
  | none => .error ("failed to insert calibration " ++ message row)

def checkMessage (row : CheckRow) : String :=
  "check " ++ quoted row.observation.checkId ++ ": UNIQUE constraint failed: " ++
    "calibration_checks.calibration_id, calibration_checks.check_id"

def executionMessage (row : ExecutionRow) : String :=
  "execution " ++ quoted row.execution.executionId ++ ": UNIQUE constraint failed: " ++
    "calibration_executions.calibration_id, calibration_executions.execution_id"

/-- The rows of a calibration that is not stored yet. -/
def insertCalibration (t : CalibrationTables) (run : CalibrationRun) (nowMs : Nat) :
    Except String CalibrationTables := do
  let runs ← insertOr (fun _ => "run: UNIQUE constraint failed: calibration_runs.calibration_id")
    t.runs (runRow run nowMs)
  let checks ← (run.checks.map (checkRow run.calibrationId)).foldlM (insertOr checkMessage) t.checks
  let executions ← (run.executions.map (executionRow run.calibrationId)).foldlM
    (insertOr executionMessage) t.executions
  let metrics ← insertOr
    (fun _ => "metrics: UNIQUE constraint failed: calibration_metrics.calibration_id")
    t.metrics (metricsRow run.calibrationId run.metrics)
  return { runs, checks, executions, metrics }

def storeCalibration (k : Calibrator) (t : CalibrationTables) (run : CalibrationRun)
    (nowMs : Nat) : Except String CalibrationTables := do
  validateRunForPersistence k run
  let recomputedDigest ← computeCalibrationRecordDigest k.digests run
  match t.runs.get? run.calibrationId with
  | some existing =>
    if existing.contractVersion = calibrationContractVersion ∧
        existing.recordDigest = some recomputedDigest then return t
    else .error (recordConflict run.calibrationId)
  | none =>
    refuseIf (recomputedDigest ≠ run.recordDigest)
      "calibration record digest does not match normalized evidence"
    insertCalibration t run nowMs

/-- An error rolls the transaction back. -/
def persistCalibrationRun (k : Calibrator) (t : CalibrationTables) (run : CalibrationRun)
    (nowMs : Nat) : Except String Unit × CalibrationTables :=
  match storeCalibration k t run nowMs with
  | .error e => (.error e, t)
  | .ok t' => (.ok (), t')

/-! ### Storing again -/

section Store

variable {k : Calibrator} {t t' : CalibrationTables} {run other : CalibrationRun} {nowMs later : Nat}

theorem insertOr_eq_ok {ρ κ : Type} [DecidableEq κ] {key : ρ → κ} {message : ρ → String}
    {rows rows' : Table key} {row : ρ} (h : insertOr message rows row = .ok rows') :
    rows.insert? row = some rows' := by
  unfold insertOr at h
  cases hinsert : rows.insert? row with
  | none =>
    rw [hinsert] at h
    cases h
  | some inserted =>
    rw [hinsert] at h
    exact congrArg some (Except.ok.inj h)

theorem insertCalibration_eq_ok (h : insertCalibration t run nowMs = .ok t') :
    t'.runs.get? run.calibrationId = some (runRow run nowMs) := by
  obtain ⟨runs, hruns, h₁⟩ := bind_eq_ok.mp h
  obtain ⟨checks, -, h₂⟩ := bind_eq_ok.mp h₁
  obtain ⟨executions, -, h₃⟩ := bind_eq_ok.mp h₂
  obtain ⟨metrics, -, h₄⟩ := bind_eq_ok.mp h₃
  obtain rfl := pure_eq_ok.mp h₄
  rw [Table.get?_insert? (insertOr_eq_ok hruns)]
  exact if_pos rfl

/-- The row that stands for a calibration with this evidence. -/
def Stores (k : Calibrator) (t : CalibrationTables) (run : CalibrationRun) : Prop :=
  ∃ row digest, t.runs.get? run.calibrationId = some row ∧
    row.contractVersion = calibrationContractVersion ∧ row.recordDigest = some digest ∧
    computeCalibrationRecordDigest k.digests run = .ok digest

theorem stores_of_eq_ok (h : storeCalibration k t run nowMs = .ok t') :
    Stores k t' run ∧ validateRunForPersistence k run = .ok () := by
  obtain ⟨⟨⟩, hvalid, h₁⟩ := bind_eq_ok.mp h
  obtain ⟨digest, hdigest, h₂⟩ := bind_eq_ok.mp h₁
  refine ⟨?_, hvalid⟩
  cases hget : t.runs.get? run.calibrationId with
  | some existing =>
    rw [hget] at h₂
    dsimp only at h₂
    split_ifs at h₂ with hsame
    obtain rfl := pure_eq_ok.mp h₂
    exact ⟨existing, digest, hget, hsame.1, hsame.2, hdigest⟩
  | none =>
    rw [hget] at h₂
    obtain ⟨_, hrefuse, h₃⟩ := bind_eq_ok.mp h₂
    have hrecord : digest = run.recordDigest := by simpa using hrefuse
    have hversion : run.calibrationContractVersion = calibrationContractVersion := by
      obtain ⟨_, hversion, -⟩ := bind_eq_ok.mp hvalid
      simpa using hversion
    refine ⟨runRow run nowMs, digest, insertCalibration_eq_ok h₃, ?_, ?_, hdigest⟩
    · exact congrArg Int.ofNat hversion
    · rw [hrecord]
      rfl

/-- What makes two records one: all but the times, the plan and the policy themselves. -/
def SameEvidence (run other : CalibrationRun) : Prop := digestInput other = digestInput run

theorem computeCalibrationRecordDigest_congr {d : CalibrationDigests}
    (h : SameEvidence run other) :
    computeCalibrationRecordDigest d other = computeCalibrationRecordDigest d run := by
  rw [computeCalibrationRecordDigest, h, computeCalibrationRecordDigest]

theorem validateRunForPersistence_congr (h : SameEvidence run other)
    (hdigest : trimmed other.recordDigest ≠ "")
    (hvalid : validateRunForPersistence k run = .ok ()) :
    validateRunForPersistence k other = .ok () := by
  have hversion : other.calibrationContractVersion = run.calibrationContractVersion :=
    congrArg (·.calibrationContractVersion) h
  have hartifact : other.sourceArtifactSha256 = run.sourceArtifactSha256 :=
    congrArg (·.sourceArtifactSha256) h
  have hchecks : other.checks = run.checks := congrArg (·.checks) h
  have hexecutions : other.executions = run.executions := congrArg (·.executions) h
  obtain ⟨⟨⟩, hcontract, h₁⟩ := bind_eq_ok.mp hvalid
  obtain ⟨⟨⟩, hdigests, h₂⟩ := bind_eq_ok.mp h₁
  have hnotBlank := not_or.mp (refuseIf_eq_ok.mp hdigests)
  unfold validateRunForPersistence
  rw [hversion, hartifact, hchecks, hexecutions, hcontract, ok_bind]
  refine bind_eq_ok.mpr ⟨(), refuseIf_eq_ok.mpr (not_or.mpr ⟨hnotBlank.1, hdigest⟩), h₂⟩

/-- Two evidences that have one digest are one. -/
def NoCollision (d : CalibrationDigests) (a b : CalibrationRecordDigestInput) : Prop :=
  d.sha256 (d.canonicalRecord a) = d.sha256 (d.canonicalRecord b) → a = b

/-- What storing a record again does where its calibration is stored: the same evidence is taken and
changes nothing, other evidence is refused and changes nothing. -/
def StoredOnce (k : Calibrator) (t : CalibrationTables) (run : CalibrationRun) : Prop :=
  ∀ other later, other.calibrationId = run.calibrationId →
    (SameEvidence run other → trimmed other.recordDigest ≠ "" →
      persistCalibrationRun k t other later = (.ok (), t)) ∧
    (¬ SameEvidence run other → NoCollision k.digests (digestInput other) (digestInput run) →
      ∃ e, persistCalibrationRun k t other later = (.error e, t))

theorem digest_eq_sha256 {d : CalibrationDigests} {digest : String}
    (h : computeCalibrationRecordDigest d run = .ok digest) :
    digest = d.sha256 (d.canonicalRecord (digestInput run)) := by
  unfold computeCalibrationRecordDigest computeCanonicalSha256 at h
  split at h
  · cases h
  · exact (Except.ok.inj h).symm

theorem storedOnce_of_stores (hstores : Stores k t run)
    (hvalid : validateRunForPersistence k run = .ok ()) : StoredOnce k t run := by
  obtain ⟨row, digest, hrow, hversion, hrecord, hdigest⟩ := hstores
  intro other later hid
  constructor
  · intro hsame hblank
    have hother : storeCalibration k t other later = .ok t := by
      refine bind_eq_ok.mpr ⟨(), validateRunForPersistence_congr hsame hblank hvalid, ?_⟩
      refine bind_eq_ok.mpr ⟨digest, ?_, ?_⟩
      · rw [computeCalibrationRecordDigest_congr hsame, hdigest]
      · rw [hid, hrow]
        exact if_pos ⟨hversion, hrecord⟩
    rw [persistCalibrationRun, hother]
  · intro hdiffer hcollision
    cases hother : storeCalibration k t other later with
    | error e => exact ⟨e, by rw [persistCalibrationRun, hother]⟩
    | ok after =>
      obtain ⟨_, -, h₁⟩ := bind_eq_ok.mp hother
      obtain ⟨otherDigest, hotherDigest, h₂⟩ := bind_eq_ok.mp h₁
      rw [hid, hrow] at h₂
      dsimp only at h₂
      split_ifs at h₂ with hsame
      have hdigests : otherDigest = digest := by
        have heq := hsame.2
        rw [hrecord] at heq
        exact (Option.some.inj heq).symm
      rw [digest_eq_sha256 hotherDigest, digest_eq_sha256 hdigest] at hdigests
      exact absurd (hcollision hdigests) hdiffer

/-- An accepted evaluation accounts for its reference set, and is stored once. -/
theorem calibration_accounted_and_stored_once {c : Checkout} {i : PlanInputs} {w : ShadowWorld}
    {source : VerificationRun} {policy : CalibrationPolicy} {artifactSha256 : String}
    (h : runCalibrationWithSourceArtifact k c i w source policy artifactSha256 = .ok run) :
    Accounted k c w source policy (constructShadowReferenceSet i source.plan policy).1 run ∧
      ∀ t t' nowMs, persistCalibrationRun k t run nowMs = (.ok (), t') → StoredOnce k t' run := by
  refine ⟨accounted_of_eq_ok h, ?_⟩
  intro t t' nowMs hpersist
  unfold persistCalibrationRun at hpersist
  cases hstore : storeCalibration k t run nowMs with
  | error e =>
    rw [hstore] at hpersist
    cases hpersist
  | ok stored =>
    rw [hstore] at hpersist
    obtain rfl := (Prod.mk.inj hpersist).2
    obtain ⟨hstores, hvalid⟩ := stores_of_eq_ok hstore
    exact storedOnce_of_stores hstores hvalid

end Store

/-! ### Two checks of a package -/

def sampleCalibrator : Calibrator where
  services := sampleServices
  runtime := sampleRuntime ⟨"", planOf [], .passed, .exact, [], [], none, none, .notRequested, 0, 0⟩
  digests := {
    sha256 := id
    canonicalPolicy := fun _ => "policy"
    canonicalCandidate := fun _ => "candidate"
    canonicalCheck := fun check => check.checkId
    canonicalCalibrationPolicy := fun _ => "policy"
    canonicalRecord := fun input => input.sourceRunId ++ "," ++ input.sourceArtifactSha256 }
  replaceProjectSecrets := id
  replaceUserHomes := id

def noInputs : PlanInputs where
  impact := ⟨.exact, [], []⟩
  changes := []
  inventory := {
    tests := []
    checks := []
    fallback := ⟨[], false⟩
    state := .complete
    truncated := false
    testIds := MappingScopes.testIds_nil
    checkIds := MappingScopes.checkIds_nil
    distinctChecks := List.nodup_nil }
  snapshot := ⟨[], [], [], []⟩
  packageDirs := []
  hasFile := fun _ _ => false
  mapping := ⟨[], false, []⟩
  providers := []
  policy := {}
  maxSelectedChecks := 2000
  fingerprintDebug := fun _ => "None"
  evidenceText := fun _ _ => ""

def passedResult (checkId executionId : String) (durationMs : Nat) : CheckExecutionResult where
  checkId := checkId
  kind := .unitTest
  status := .passed
  executionId := executionId
  reusedExecution := false
  command := ["npm", "run", "test"]
  cwd := "a/b"
  exitCode := some 0
  signal := none
  durationMs := durationMs
  stdoutDigest := none
  stderrDigest := none
  stdoutExcerpt := none
  stderrExcerpt := none
  stdoutCapturedBytes := 0
  stderrCapturedBytes := 0
  stdoutTruncated := false
  stderrTruncated := false
  startedAtMs := 0
  reason := none

/-- A run of two checks under these executions, of five and of seven milliseconds. -/
def twoExecutions (first second : String) : VerificationRun where
  runId := "run"
  plan := planOf ["check:pkg:npm:a/b:lint", "check:pkg:npm:a/b:test"]
  outcome := .passed
  assurance := .exact
  checks := [passedResult "check:pkg:npm:a/b:lint" first 5,
    passedResult "check:pkg:npm:a/b:test" second 7]
  uncertainty := []
  base := none
  head := none
  persistenceStatus := .notRequested
  executedAtMs := 0
  durationMs := 12

def calmWorld (startWall : Nat) : ShadowWorld where
  startWall := startWall
  completedWall := startWall
  elapsedMs _ := 0
  durationMs := 0
  process := passingWorld.process
  execCount := id

def calibrated (run : VerificationRun) (startWall : Nat) : Except String CalibrationRun :=
  runCalibrationWithSourceArtifact sampleCalibrator packageCheckout noInputs (calmWorld startWall) run
    ⟨.affectedPackage, 50, 60000, 10000, 16777216⟩ "artifact"

def noCalibrations : CalibrationTables := ⟨.empty, .empty, .empty, .empty⟩

/-- Two executions whose ids differ in a blank are counted as one, and the record of a later
evaluation is taken for the stored one. -/
theorem blank_apart_executions_merged : ∃ calibration again,
    calibrated (twoExecutions "e" "e ") 1 = .ok calibration ∧
    (sourceDurations (twoExecutions "e" "e ")).sum = 12 ∧
    calibration.metrics.candidateExecutionDurationMs = 5 ∧
    calibrated (twoExecutions "e" "e ") 2 = .ok again ∧
    again ≠ calibration ∧ again.calibrationId = calibration.calibrationId ∧
    (persistCalibrationRun sampleCalibrator
      (persistCalibrationRun sampleCalibrator noCalibrations calibration 3).2 again 4).1.toOption =
        some () := by
  have hfirst : (calibrated (twoExecutions "e" "e ") 1).toOption.any (fun calibration =>
      (calibrated (twoExecutions "e" "e ") 2).toOption.any fun again =>
        decide (calibration.metrics.candidateExecutionDurationMs = 5) &&
        decide (again ≠ calibration) && decide (again.calibrationId = calibration.calibrationId) &&
        decide ((persistCalibrationRun sampleCalibrator
          (persistCalibrationRun sampleCalibrator noCalibrations calibration 3).2 again
            4).1.toOption = some ())) = true := by decide +kernel
  obtain ⟨calibration, hcalibration, hall⟩ := exists_of_toOption hfirst
  obtain ⟨again, hagain, hfacts⟩ := exists_of_toOption hall
  simp only [Bool.and_eq_true, decide_eq_true_eq] at hfacts
  obtain ⟨⟨⟨hduration, hdiffers⟩, hid⟩, hpersist⟩ := hfacts
  exact ⟨calibration, again, hcalibration, by decide +kernel, hduration, hagain, hdiffers, hid,
    hpersist⟩

/-- With ids apart, both executions are accounted for. -/
theorem twoExecutions_accounted : ∃ calibration,
    calibrated (twoExecutions "e1" "e2") 1 = .ok calibration ∧
    TrimsApart (twoExecutions "e1" "e2") ∧
    calibration.metrics.candidateExecutionDurationMs = 12 ∧
    StoredOnce sampleCalibrator
      (persistCalibrationRun sampleCalibrator noCalibrations calibration 3).2 calibration := by
  have hrun : (calibrated (twoExecutions "e1" "e2") 1).toOption.any (fun calibration =>
      decide ((persistCalibrationRun sampleCalibrator noCalibrations calibration 3).1.toOption =
        some ())) = true := by decide +kernel
  obtain ⟨calibration, hcalibration, hpersist⟩ := exists_of_toOption hrun
  have hapart : TrimsApart (twoExecutions "e1" "e2") := by
    unfold TrimsApart
    decide +kernel
  have hboth := calibration_accounted_and_stored_once hcalibration
  have hstored := toOption_eq_some (of_decide_eq_true hpersist)
  refine ⟨calibration, hcalibration, hapart, ?_, ?_⟩
  · rw [hboth.1.sourceOnce hapart]
    decide +kernel
  · exact hboth.2 noCalibrations _ 3 (Prod.ext hstored rfl)

end CalibrationRecords
