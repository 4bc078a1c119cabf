import Mathlib.Data.List.Dedup
import Mathlib.Data.List.Sort
import Mathlib.Data.List.Infix
import FlowDeck.Library.Fallible
import FlowDeck.Library.Table

namespace CalibrationHistory

inductive CheckExecutionStatus
  | pending
  | running
  | passed
  | failed
  | timedOut
  | outputLimitExceeded
  | spawnFailed
  | unsupported
  | skipped
  | cancelled
  deriving DecidableEq

inductive CalibrationStatus
  | complete
  | incomplete
  | failed
  deriving DecidableEq

inductive SignalClass
  | selectedSignal
  | observedShadowMiss
  | selectedPass
  | unselectedPass
  | incomplete
  deriving DecidableEq

/-- A row of `calibration_checks`. -/
structure CalibrationCheck where
  checkId : String
  scope : String
  candidateSelected : Bool
  referenceSelected : Bool
  hasPhysicalExecution : Bool
  executionStatus : CheckExecutionStatus
  signalClass : SignalClass
  isObservedShadowMiss : Bool
  durationMs : Int
  deriving DecidableEq

/-- A calibration run with its checks and metrics, which are written together and never again. -/
structure CalibrationRun where
  calibrationId : String
  contractVersion : Nat
  status : CalibrationStatus
  referenceTruncated : Bool
  sourceArtifactSha256 : Option String
  recordDigest : Option String
  candidatePlanDigest : String
  startedAtMs : Int
  shadowIncompleteCount : Nat
  eligibleForMissRate : Bool
  checks : Table CalibrationCheck.checkId

abbrev CalibrationRuns := Table CalibrationRun.calibrationId

def isQualifiedRun (run : CalibrationRun) : Bool :=
  run.contractVersion = 2 && run.status = .complete && !run.referenceTruncated &&
    run.sourceArtifactSha256.isSome && run.recordDigest.isSome && run.shadowIncompleteCount = 0 &&
    run.eligibleForMissRate

def isQualifiedCheck (check : CalibrationCheck) : Bool :=
  !check.candidateSelected && check.referenceSelected && check.hasPhysicalExecution &&
    check.executionStatus = .failed && check.signalClass = .observedShadowMiss &&
    check.isObservedShadowMiss

/-- `ORDER BY started_at_ms DESC, calibration_id ASC`. -/
def newestFirst (a b : CalibrationRun) : Bool :=
  decide (b.startedAtMs < a.startedAtMs) ||
    decide (a.startedAtMs = b.startedAtMs) && decide (a.calibrationId ≤ b.calibrationId)

def qualifiedRuns (runs : CalibrationRuns) (lookbackLimit : Nat) : List CalibrationRun :=
  ((runs.rows.filter isQualifiedRun).insertionSort fun a b => newestFirst a b = true).take
    lookbackLimit

structure QualifiedMiss where
  calibrationId : String
  sourceArtifactSha256 : String
  candidatePlanDigest : String
  recordDigest : String
  scope : String
  checkId : String
  durationMs : Nat
  observedAtMs : Nat
  deriving DecidableEq

/-- One row of the evidence query; a negative time is no `u64`. -/
def readMiss (run : CalibrationRun) (check : CalibrationCheck) : Except String QualifiedMiss :=
  if run.startedAtMs < 0 ∨ check.durationMs < 0 then
    .error "invalid qualified policy evidence row: Query is not read-only"
  else
    .ok {
      calibrationId := run.calibrationId
      sourceArtifactSha256 := run.sourceArtifactSha256.getD ""
      candidatePlanDigest := run.candidatePlanDigest
      recordDigest := run.recordDigest.getD ""
      scope := check.scope
      checkId := check.checkId
      durationMs := check.durationMs.toNat
      observedAtMs := run.startedAtMs.toNat }

/-- The failed checks of a run that its own plan had not selected. -/
def qualifiedChecks (run : CalibrationRun) : List CalibrationCheck :=
  (run.checks.rows.filter isQualifiedCheck).insertionSort fun a b => a.checkId ≤ b.checkId

def readQualifiedMisses (runs : CalibrationRuns) (lookbackLimit : Nat) :
    Except String (List QualifiedMiss) :=
  (((qualifiedRuns runs lookbackLimit).flatMap fun run =>
    (qualifiedChecks run).map fun check => (run, check)).mapM fun row => readMiss row.1 row.2)

variable {runs : CalibrationRuns} {limit : Nat} {run : CalibrationRun}

theorem mem_qualifiedRuns (h : run ∈ qualifiedRuns runs limit) :
    run ∈ runs.rows ∧ isQualifiedRun run = true := by
  have hmem := List.mem_of_mem_take h
  rw [List.mem_insertionSort, List.mem_filter] at hmem
  exact hmem

theorem length_qualifiedRuns_le (runs : CalibrationRuns) (limit : Nat) :
    (qualifiedRuns runs limit).length ≤ limit := List.length_take_le limit _

theorem mem_qualifiedChecks {check : CalibrationCheck} :
    check ∈ qualifiedChecks run ↔ check ∈ run.checks.rows ∧ isQualifiedCheck check = true := by
  rw [qualifiedChecks, List.mem_insertionSort, List.mem_filter]

theorem mem_readQualifiedMisses {misses : List QualifiedMiss}
    (h : readQualifiedMisses runs limit = .ok misses) {miss : QualifiedMiss} :
    miss ∈ misses ↔ ∃ run ∈ qualifiedRuns runs limit, ∃ check ∈ qualifiedChecks run,
      readMiss run check = .ok miss := by
  rw [Checked.mem_of_mapM_eq_ok h]
  constructor
  · rintro ⟨⟨run, check⟩, hrow, hread⟩
    obtain ⟨run', hrun, hmap⟩ := List.mem_flatMap.mp hrow
    obtain ⟨check', hcheck, heq⟩ := List.mem_map.mp hmap
    obtain ⟨rfl, rfl⟩ := Prod.mk.inj heq
    exact ⟨run', hrun, check', hcheck, hread⟩
  · rintro ⟨run, hrun, check, hcheck, hread⟩
    exact ⟨(run, check), List.mem_flatMap.mpr
      ⟨run, hrun, List.mem_map.mpr ⟨check, hcheck, rfl⟩⟩, hread⟩

theorem exists_readMiss {misses : List QualifiedMiss}
    (h : readQualifiedMisses runs limit = .ok misses) {run : CalibrationRun}
    (hrun : run ∈ qualifiedRuns runs limit) {check : CalibrationCheck}
    (hcheck : check ∈ qualifiedChecks run) : ∃ miss ∈ misses, readMiss run check = .ok miss := by
  have hmem : (run, check) ∈ (qualifiedRuns runs limit).flatMap fun run =>
      (qualifiedChecks run).map fun check => (run, check) :=
    List.mem_flatMap.mpr ⟨run, hrun, List.mem_map.mpr ⟨check, hcheck, rfl⟩⟩
  obtain ⟨miss, hread⟩ := Checked.exists_of_mapM_eq_ok h hmem
  exact ⟨miss, (mem_readQualifiedMisses h).mpr ⟨run, hrun, check, hcheck, hread⟩, hread⟩

theorem readMiss_eq_ok {check : CalibrationCheck} {miss : QualifiedMiss} :
    readMiss run check = .ok miss ↔ 0 ≤ run.startedAtMs ∧ 0 ≤ check.durationMs ∧ miss = {
      calibrationId := run.calibrationId
      sourceArtifactSha256 := run.sourceArtifactSha256.getD ""
      candidatePlanDigest := run.candidatePlanDigest
      recordDigest := run.recordDigest.getD ""
      scope := check.scope
      checkId := check.checkId
      durationMs := check.durationMs.toNat
      observedAtMs := run.startedAtMs.toNat } := by
  simp only [readMiss, Checked.guard_eq_ok, not_or, not_lt, Except.ok.injEq, and_assoc]
  constructor
  · rintro ⟨hrun, hcheck, heq⟩
    exact ⟨hrun, hcheck, heq.symm⟩
  · rintro ⟨hrun, hcheck, heq⟩
    exact ⟨hrun, hcheck, heq.symm⟩

end CalibrationHistory

namespace PolicyStore

open CalibrationHistory

def policyContractVersion : Nat := 1

def maxSafeInteger : Nat := 9007199254740991

inductive PolicyState
  | candidate
  | eligible
  | promoted
  | rejected
  | revoked
  | superseded
  deriving DecidableEq

structure LearnedPolicyTrigger where
  kind : String
  scope : String
  deriving DecidableEq

structure PromotionPolicy where
  minObservedMisses : UInt32
  minDistinctSourceArtifacts : UInt32
  minDistinctChangeFingerprints : UInt32
  maxAddedChecksPerTrigger : UInt32
  maxEstimatedAddedRuntimeMs : UInt64
  lookbackLimit : UInt32
  autoPromoteAdditive : Bool
  deriving DecidableEq

/-- A row of `policy_candidates`. -/
structure PolicyCandidate where
  candidateId : String
  candidateContractVersion : Nat
  trigger : LearnedPolicyTrigger
  checkId : String
  candidateDigest : String
  promotionPolicyDigest : String
  supportCount : Nat
  distinctSourceArtifactCount : Nat
  distinctChangeFingerprintCount : Nat
  estimatedAddedRuntimeMs : Nat
  state : PolicyState
  createdAtMs : Nat
  updatedAtMs : Nat
  promotedPolicyId : Option String
  deriving DecidableEq

/-- A row of `policy_candidate_evidence`. -/
structure EvidenceRow where
  candidateId : String
  calibrationId : String
  sourceArtifactSha256 : String
  candidatePlanDigest : String
  calibrationRecordDigest : String
  checkId : String
  observedAtMs : Nat
  deriving DecidableEq

def EvidenceRow.key (row : EvidenceRow) : String × String × String :=
  (row.candidateId, row.calibrationId, row.checkId)

/-- A row of `policy_check_templates`. -/
structure TemplateRow where
  templateDigest : String
  checkId : String
  plannedCheckJson : String
  sourceCalibrationId : String
  sourceArtifactSha256 : String
  sourceRecordDigest : String
  createdAtMs : Nat
  deriving DecidableEq

inductive PolicyAction
  | addCheck
  deriving DecidableEq

def PolicyAction.text : PolicyAction → String
  | .addCheck => "add_check"

/-- A row of `promoted_policies`. -/
structure PromotedPolicy where
  policyId : String
  policyContractVersion : Nat
  candidateId : String
  action : PolicyAction
  trigger : LearnedPolicyTrigger
  checkId : String
  templateDigest : String
  candidateDigest : String
  promotionPolicyDigest : String
  promotedPolicyDigest : String
  state : PolicyState
  promotedAtMs : Nat
  revokedAtMs : Option Nat
  revokeReason : Option String
  deriving DecidableEq

inductive EventKind
  | promoted
  | revoked
  deriving DecidableEq

/-- A row of `policy_events`, whose id is its digest behind a prefix. -/
structure PolicyEvent where
  eventDigest : String
  policyId : String
  eventKind : EventKind
  reason : Option String
  createdAtMs : Nat
  deriving DecidableEq

structure PolicyDatabase where
  runs : CalibrationRuns
  candidates : Table PolicyCandidate.candidateId
  evidence : Table EvidenceRow.key
  templates : Table TemplateRow.templateDigest
  policies : Table PromotedPolicy.policyId
  events : Table PolicyEvent.eventDigest

def PolicyDatabase.empty : PolicyDatabase where
  runs := .empty
  candidates := .empty
  evidence := .empty
  templates := .empty
  policies := .empty
  events := .empty

inductive VerificationCheckKind
  | unitTest
  | integrationTest
  | endToEndTest
  | typecheck
  | lint
  | build
  | format
  | custom
  deriving DecidableEq

inductive SelectionReason
  | evidence
  | policyWidening
  | mandatoryCheck
  deriving DecidableEq

inductive EvidenceStrength
  | unknown
  | heuristic
  | structural
  | observed
  | precise
  deriving DecidableEq

/-- A planned check; `evidence` is the serialised text of its evidence path and references. -/
structure PlannedCheck where
  checkId : String
  displayName : String
  kind : VerificationCheckKind
  scope : String
  reason : String
  selection : SelectionReason
  strength : EvidenceStrength
  evidence : String
  wideningReason : Option String
  mandatory : Bool
  deriving DecidableEq

/-- What a candidate's digest covers. -/
structure CandidateDigestInput where
  candidateContractVersion : Nat
  trigger : LearnedPolicyTrigger
  checkId : String
  promotionPolicyDigest : String
  supportCount : Nat
  distinctSourceArtifactCount : Nat
  distinctChangeFingerprintCount : Nat
  estimatedAddedRuntimeMs : Nat
  state : PolicyState
  deriving DecidableEq

/-- SHA-256, and the canonical JSON texts it is taken of. -/
structure Digests where
  sha256 : String → String
  canonicalPolicy : PromotionPolicy → String
  canonicalCandidate : CandidateDigestInput → String
  canonicalCheck : PlannedCheck → String

/-- `compute_canonical_sha256` of a value with these numbers and this canonical text. -/
def computeCanonicalSha256 (d : Digests) (numbers : List Nat) (text : String) :
    Except String String :=
  match numbers.find? fun n => maxSafeInteger < n with
  | some n =>
    .error ("number " ++ toString n ++
      " exceeds IEEE-754 / ECMAScript safe integer limit (2^53 - 1)")
  | none => .ok (d.sha256 text)

def computePromotionPolicyDigest (d : Digests) (policy : PromotionPolicy) : Except String String :=
  computeCanonicalSha256 d [policy.maxEstimatedAddedRuntimeMs.toNat] (d.canonicalPolicy policy)

def digestInput (c : PolicyCandidate) : CandidateDigestInput where
  candidateContractVersion := c.candidateContractVersion
  trigger := c.trigger
  checkId := c.checkId
  promotionPolicyDigest := c.promotionPolicyDigest
  supportCount := c.supportCount
  distinctSourceArtifactCount := c.distinctSourceArtifactCount
  distinctChangeFingerprintCount := c.distinctChangeFingerprintCount
  estimatedAddedRuntimeMs := c.estimatedAddedRuntimeMs
  state := c.state

def computeCandidateDigest (d : Digests) (c : PolicyCandidate) : Except String String :=
  computeCanonicalSha256 d [c.estimatedAddedRuntimeMs] (d.canonicalCandidate (digestInput c))

/-- A planned check holds no number, so that its digest always exists. -/
def computeTemplateDigest (d : Digests) (check : PlannedCheck) : String :=
  d.sha256 (d.canonicalCheck check)

def generateCandidateId (d : Digests) (trigger : LearnedPolicyTrigger) (checkId : String)
    (promotionPolicyDigest : String) : String :=
  "polcand_" ++ d.sha256 (toString policyContractVersion ++ ":" ++ trigger.kind ++ ":" ++
    trigger.scope ++ ":" ++ checkId ++ ":" ++ promotionPolicyDigest)

/-- `char::is_whitespace`. -/
def isWhitespace (c : Char) : Bool :=
  let n := c.toNat
  9 ≤ n && n ≤ 13 || n = 0x20 || n = 0x85 || n = 0xA0 || n = 0x1680 || 0x2000 ≤ n && n ≤ 0x200A ||
    n = 0x2028 || n = 0x2029 || n = 0x202F || n = 0x205F || n = 0x3000

/-- `trim().is_empty()`. -/
def isBlank (text : String) : Bool := text.toList.all isWhitespace

/-- `str::contains`. -/
def containsText (text part : String) : Bool := decide (part.toList <:+: text.toList)

/-- `LearnedPolicyTrigger::scope`. -/
def scopeTrigger (scope : String) : Except String LearnedPolicyTrigger :=
  if isBlank scope || containsText scope ".." || scope.toList.head? = some '/' ||
      scope.toList.contains '\x5c' then
    .error "M11 trigger scope must be a stable non-path scope identifier"
  else .ok { kind := "scope", scope := scope }

end PolicyStore
