import FlowDeck.Attestation.Statements
import FlowDeck.Semantic.EvidenceModel

/-! Verification plans, and the runs that are recorded of them. -/

namespace RunArtifact

open CalibrationHistory EvidenceModel PolicyStore Statements

inductive UncertaintyReason
  | providerMissing (details : String)
  | providerStale (details : String)
  | providerFailed (details : String)
  | unsupportedLanguage (details : String)
  | semanticChangeUnknown (details : String)
  | depthLimitReached (maxDepth : Nat)
  | nodeLimitReached (maxNodes : Nat)
  | edgeLimitReached (maxEdges : Nat)
  | ambiguousSymbol (details : String)
  | missingBeforeEvidence (details : String)
  | missingAfterEvidence (details : String)
  | fallbackUsed (details : String)
  | graphAbsent (details : String)
  | graphIncompatible (details : String)
  | graphCorrupt (details : String)
  | graphUnavailable (details : String)
  | unknownGraphRelation (details : String)
  | buildProviderMissing (details : String)
  | buildProviderStale (details : String)
  | buildProviderFailed (details : String)
  | malformedConfig (details : String)
  | configCycleDetected (details : String)
  | unknownWorkspaceMembership (details : String)
  | dynamicConfigExpression (details : String)
  | buildLimitReached (details : String)
  deriving DecidableEq

namespace UncertaintyReason

def code : UncertaintyReason → String
  | .providerMissing _ => "provider_missing"
  | .providerStale _ => "provider_stale"
  | .providerFailed _ => "provider_failed"
  | .unsupportedLanguage _ => "unsupported_language"
  | .semanticChangeUnknown _ => "semantic_change_unknown"
  | .depthLimitReached _ => "depth_limit_reached"
  | .nodeLimitReached _ => "node_limit_reached"
  | .edgeLimitReached _ => "edge_limit_reached"
  | .ambiguousSymbol _ => "ambiguous_symbol"
  | .missingBeforeEvidence _ => "missing_before_evidence"
  | .missingAfterEvidence _ => "missing_after_evidence"
  | .fallbackUsed _ => "fallback_used"
  | .graphAbsent _ => "graph_absent"
  | .graphIncompatible _ => "graph_incompatible"
  | .graphCorrupt _ => "graph_corrupt"
  | .graphUnavailable _ => "graph_unavailable"
  | .unknownGraphRelation _ => "unknown_graph_relation"
  | .buildProviderMissing _ => "build_provider_missing"
  | .buildProviderStale _ => "build_provider_stale"
  | .buildProviderFailed _ => "build_provider_failed"
  | .malformedConfig _ => "malformed_config"
  | .configCycleDetected _ => "config_cycle_detected"
  | .unknownWorkspaceMembership _ => "unknown_workspace_membership"
  | .dynamicConfigExpression _ => "dynamic_config_expression"
  | .buildLimitReached _ => "build_limit_reached"

end UncertaintyReason

inductive SemanticChangeKind
  | fileAdded
  | fileDeleted
  | fileRenamed
  | symbolAdded
  | symbolDeleted
  | symbolChanged
  | signatureChanged
  | visibilityChanged
  | typeChanged
  | implementationChanged
  | importChanged
  | exportChanged
  | dependencyChanged
  | unknown
  deriving DecidableEq

structure ChangeSubject where
  path : String
  symbol : Option String
  signature : Option String
  digest : Option String
  deriving DecidableEq

/-- A classified change; `evidence` is the serialised text of its evidence references. -/
structure SemanticChange where
  id : String
  file : String
  symbol : Option String
  changeKind : SemanticChangeKind
  before : Option ChangeSubject
  after : Option ChangeSubject
  evidence : String
  assurance : AssuranceLevel
  reasons : List String
  deriving DecidableEq

structure EvidenceStep where
  fromNode : String
  edgeKind : EdgeKind
  toNode : String
  provider : String
  strength : EvidenceStrength
  description : Option String
  deriving DecidableEq

structure EvidencePath where
  changeId : String
  seedNode : String
  targetNode : String
  steps : List EvidenceStep
  pathStrength : EvidenceStrength
  explanation : String
  deriving DecidableEq

structure ImpactedTarget where
  target : String
  targetKind : NodeKind
  depth : Nat
  strength : EvidenceStrength
  primaryPath : Option EvidencePath
  alternatePaths : List EvidencePath
  alternatePathCount : Nat
  wideningReason : Option String
  deriving DecidableEq

structure UnresolvedVerificationObligation where
  scope : String
  reason : String
  source : String
  deriving DecidableEq

structure VerificationPlan where
  assurance : AssuranceLevel
  changed : List SemanticChange
  impactedTargets : List ImpactedTarget
  selectedChecks : List PlannedCheck
  uncertainty : List UncertaintyReason
  unresolvedObligations : List UnresolvedVerificationObligation
  deriving DecidableEq

structure CheckExecutionResult where
  checkId : String
  kind : VerificationCheckKind
  status : CheckExecutionStatus
  executionId : String
  reusedExecution : Bool
  command : List String
  cwd : String
  exitCode : Option Int
  signal : Option String
  durationMs : Nat
  stdoutDigest : Option String
  stderrDigest : Option String
  stdoutExcerpt : Option String
  stderrExcerpt : Option String
  stdoutCapturedBytes : Nat
  stderrCapturedBytes : Nat
  stdoutTruncated : Bool
  stderrTruncated : Bool
  startedAtMs : Nat
  reason : Option String
  deriving DecidableEq

inductive PersistenceStatus
  | notRequested
  | persisted (path : String)
  | failed (reason : String)
  deriving DecidableEq

structure VerificationRun where
  runId : String
  plan : VerificationPlan
  outcome : VerificationOutcome
  assurance : AssuranceLevel
  checks : List CheckExecutionResult
  uncertainty : List UncertaintyReason
  base : Option String
  head : Option String
  persistenceStatus : PersistenceStatus
  executedAtMs : Nat
  durationMs : Nat
  deriving DecidableEq

/-- Whether a status positively establishes that an OS process executed. -/
def isPhysicalProcessExecution : CheckExecutionStatus → Bool
  | .passed | .failed | .timedOut | .outputLimitExceeded => true
  | _ => false

end RunArtifact
