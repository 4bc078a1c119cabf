import FlowDeck.Policy.PolicyStore

/-! The in-toto statements of verification runs, and the run artifacts they are made of. -/

namespace Statements

open CalibrationHistory PolicyStore

inductive AssuranceLevel
  | unverified
  | degraded
  | conservative
  | exact
  deriving DecidableEq

def assuranceRank : AssuranceLevel → Nat
  | .unverified => 0
  | .degraded => 1
  | .conservative => 2
  | .exact => 3

def lesserAssurance (a b : AssuranceLevel) : AssuranceLevel :=
  if assuranceRank b < assuranceRank a then b else a

inductive VerificationOutcome
  | passed
  | failed
  | incomplete
  deriving DecidableEq

def inTotoStatementV1Type : String := "https://in-toto.io/Statement/v1"

def fdxVerificationPredicateV1Type : String := "https://flowdeck.dev/attestation/vci/verification/v1"

def fdxVerificationPredicateV2Type : String := "https://flowdeck.dev/attestation/vci/verification/v2"

def fdxAttestationPredicateVersion : Nat := 1

def fdxAttestationPredicateV2Version : Nat := 2

/-- A subject of a statement, with its digest. -/
structure InTotoSubject where
  name : String
  sha256 : String
  deriving DecidableEq

structure InTotoStatement (α : Type) where
  statementType : String
  subject : List InTotoSubject
  predicateType : String
  predicate : α
  deriving DecidableEq

structure AttestedRunIdentity where
  runId : String
  artifactSha256 : String
  planSha256 : String
  executedAtMs : Nat
  durationMs : Nat
  deriving DecidableEq

structure AttestedPlan where
  planId : String
  planSha256 : String
  totalObligations : Nat
  mandatoryObligations : Nat
  advisoryObligations : Nat
  deriving DecidableEq

structure AttestedUnresolvedObligation where
  scope : String
  reason : String
  source : String
  deriving DecidableEq

structure AttestedVerificationResult where
  outcome : VerificationOutcome
  assurance : AssuranceLevel
  unresolvedObligationCount : Nat
  unresolvedObligations : List AttestedUnresolvedObligation
  deriving DecidableEq

structure AttestedExecution where
  executionId : String
  program : String
  argvDigest : String
  cwd : String
  status : CheckExecutionStatus
  exitCode : Option Int
  durationMs : Nat
  stdoutDigest : Option String
  stderrDigest : Option String
  stdoutCapturedBytes : Nat
  stderrCapturedBytes : Nat
  outputTruncated : Bool
  deriving DecidableEq

structure AttestedCheck where
  checkId : String
  kind : VerificationCheckKind
  status : CheckExecutionStatus
  mandatory : Bool
  executionId : String
  hasPhysicalExecution : Bool
  reusedExecution : Bool
  deriving DecidableEq

structure AttestedUncertainty where
  code : String
  message : String
  target : Option String
  deriving DecidableEq

structure RuntimeHistoryQualification where
  runContractVersion : Int
  runQualified : Bool
  globalHistoryCompleteAtGeneration : Bool
  deriving DecidableEq

structure SourceContext where
  baseRef : Option String
  headRef : Option String
  changedFilesCount : Nat
  impactedTargetsCount : Nat
  workspaceClean : Option Bool
  deriving DecidableEq

structure AttestationGenerator where
  name : String
  version : String
  deriving DecidableEq

structure VerificationPredicateV1 where
  schemaVersion : Nat
  run : AttestedRunIdentity
  plan : AttestedPlan
  result : AttestedVerificationResult
  executions : List AttestedExecution
  checks : List AttestedCheck
  uncertainty : List AttestedUncertainty
  runtimeHistory : RuntimeHistoryQualification
  sourceContext : SourceContext
  generator : AttestationGenerator
  deriving DecidableEq

abbrev VerificationAttestation := InTotoStatement VerificationPredicateV1

structure AppliedPolicyV2 where
  policyId : String
  policyDigest : String
  templateDigest : String
  checkId : String
  action : PolicyAction
  deriving DecidableEq

structure PolicyApplicationContextV2 where
  basePlanDigest : String
  effectivePlanDigest : String
  policySnapshotDigest : String
  policyApplicationDigest : String
  addedCheckIds : List String
  appliedPolicyIds : List String
  appliedPolicyDigests : List String
  appliedTemplateDigests : List String
  appliedPolicies : List AppliedPolicyV2
  policyContractVersion : Nat
  deriving DecidableEq

/-- The v1 predicate with a context: the fields of v1 keep their names and their order. -/
structure VerificationPredicateV2 extends VerificationPredicateV1 where
  policyContext : Option PolicyApplicationContextV2
  deriving DecidableEq

abbrev VerificationAttestationV2 := InTotoStatement VerificationPredicateV2

end Statements
