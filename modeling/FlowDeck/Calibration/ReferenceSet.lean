import FlowDeck.Planning.ImpactedPackages
import FlowDeck.Verification.OutputBound

/-! The reference set of a shadow calibration. -/

namespace ReferenceSet

open ImpactEdges (startsWith)
open CheckDiscovery ImpactedPackages KeyOrder MappingScopes OutputBound PolicyStore RunArtifact

inductive ReferenceScope
  | affectedPackage
  | workspace
  deriving DecidableEq

structure CalibrationPolicy where
  scope : ReferenceScope
  maxShadowChecks : Nat
  maxTotalDurationMs : Nat
  perCheckTimeoutMs : Nat
  maxOutputBytes : Nat
  deriving DecidableEq

/-- The packages of a changed file: those that contain it, and those of the directories around it. -/
def changedScopes (i : PlanInputs) (file : String) : List String :=
  (containingPackages? i.snapshot file).getD [] ++
    (i.packageDirs.filter fun dir => Paths.startsWith file dir || dir = ".").flatMap
      (fallbackScopeIdsForDir i)

def affectedScopes (i : PlanInputs) (plan : VerificationPlan) : List String :=
  plan.selectedChecks.map PlannedCheck.scope ++
    (plan.impactedTargets.filter fun target => startsWith "pkg:" target.target).map (·.target) ++
    plan.changed.flatMap fun change => changedScopes i change.file

def isScopeMatching (policy : CalibrationPolicy) (affected : List String) (scope : String) : Bool :=
  policy.scope = .workspace || affected.isEmpty ||
    affected.any fun other =>
      scope = other || startsWith (other ++ "/") scope || startsWith (scope ++ "/") other

def referenceTest (test : DiscoveredTest) : PlannedCheck where
  checkId := test.stableId
  displayName := test.canonicalPath
  kind := test.kind
  scope := test.owningPackageId.getD "repo"
  reason := "shadow reference test (package superset)"
  selection := .evidence
  strength := .structural
  evidence := ""
  wideningReason := none
  mandatory := false

def referenceCheck (check : DiscoveredCheck) : PlannedCheck where
  checkId := check.checkId
  displayName := check.displayName
  kind := check.kind
  scope := check.owningScopeId
  reason := "shadow reference check (package check superset)"
  selection := .mandatoryCheck
  strength := .structural
  evidence := ""
  wideningReason := none
  mandatory := true

def insertCheck (checks : InsertionMap String PlannedCheck) (check : PlannedCheck) :
    InsertionMap String PlannedCheck := checks.set check.checkId check

/-- The checks of the plan, the last of each id. -/
def candidates (plan : VerificationPlan) : InsertionMap String PlannedCheck :=
  plan.selectedChecks.foldl insertCheck InsertionMap.empty

def additional (i : PlanInputs) (plan : VerificationPlan) (policy : CalibrationPolicy) :
    InsertionMap String PlannedCheck :=
  let affected := affectedScopes i plan
  let isExtra (check : PlannedCheck) : Bool :=
    isScopeMatching policy affected check.scope && ((candidates plan).get? check.checkId).isNone
  ((i.inventory.tests.map referenceTest ++ i.inventory.checks.map referenceCheck).filter
    isExtra).foldl insertCheck InsertionMap.empty

def constructShadowReferenceSet (i : PlanInputs) (plan : VerificationPlan)
    (policy : CalibrationPolicy) : List PlannedCheck × Bool :=
  let extras := additional i plan policy
  let referenceTruncated := decide (policy.maxShadowChecks < extras.values.length)
  let reference := orderBy PlannedCheck.checkId (candidates plan).values ++
    (orderBy PlannedCheck.checkId extras.values).take policy.maxShadowChecks
  if plan.selectedChecks.any fun check => !(reference.map (·.checkId)).contains check.checkId then
    ([], true)
  else (reference, referenceTruncated)

/-! ### What is in the reference set -/

end ReferenceSet
