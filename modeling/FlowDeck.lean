import FlowDeck.Orchestration.ClaimLease
import FlowDeck.Orchestration.ContinuationDispatch
import FlowDeck.Orchestration.ChildTerminal
import FlowDeck.Orchestration.ChildBarrier
import FlowDeck.Orchestration.ChildAssignment
import FlowDeck.Orchestration.RunTerminal
import FlowDeck.Orchestration.RunCompletion
import FlowDeck.Orchestration.RunLedger
import FlowDeck.Orchestration.Replay
import FlowDeck.Budget.Admission
import FlowDeck.Execution.Resumption
import FlowDeck.Execution.DependencyOrder
import FlowDeck.Execution.AssignmentAgreement
import FlowDeck.Commands.TerminalStatus
import FlowDeck.Commands.SingleFlight
import FlowDeck.Commands.Idempotency
import FlowDeck.Orchestration.DeferredStatus
import FlowDeck.Orchestration.RunCreation
import FlowDeck.Policy.CandidateAgreement
import FlowDeck.Policy.EligiblePromotion
import FlowDeck.Verification.CheckIds
import FlowDeck.Attestation.Publication
import FlowDeck.Semantic.DecoderFaults
import FlowDeck.Semantic.EncodingRoundTrip
import FlowDeck.Semantic.RelationshipEdges
import FlowDeck.Semantic.ProviderGenerations
import FlowDeck.Impact.ImpactAssurance
import FlowDeck.Semantic.ProviderIsolation
import FlowDeck.Verification.RunOutcome
import FlowDeck.Planning.WideningCoverage
import FlowDeck.Impact.GitDeltas
import FlowDeck.Policy.AdditiveOverlay
import FlowDeck.Calibration.CalibrationRecords
import FlowDeck.Orchestration.ParallelRuns
import FlowDeck.Provider.ReplayFixpoint
import FlowDeck.Orchestration.VerificationReach
import FlowDeck.State.LockExclusion
import FlowDeck.Execution.LeaseCycles
import FlowDeck.Orchestration.SessionTurn
import FlowDeck.Execution.DependencyWaves
import FlowDeck.Orchestration.StrategyConstraints
import FlowDeck.Orchestration.RetryBound
import FlowDeck.Orchestration.VerificationFinality
import FlowDeck.Orchestration.ChildPersistence
import FlowDeck.Orchestration.MalformedData
import FlowDeck.Services.RepoLeaseExclusion
import FlowDeck.Budget.PendingQueue
import FlowDeck.Orchestration.SpecialistPlanner
import FlowDeck.State.TDDReadBack
import FlowDeck.Build.Jsonc
import FlowDeck.Impact.ImpactPaths
import FlowDeck.Reader.OutlineDiff
import FlowDeck.State.TopicSlug
import FlowDeck.Policy.CandidateIdentity
import FlowDeck.Services.ContainedPaths
import FlowDeck.Verification.CanonicalPaths
import FlowDeck.Semantic.ExportEdges
import FlowDeck.Orchestration.WorktreeFencing
import FlowDeck.Orchestration.ChildReconciler
import FlowDeck.Orchestration.ParallelSchedule
import FlowDeck.Orchestration.RuntimeEventStore
import FlowDeck.Orchestration.TransitionReplay
