import FlowDeck.Planning.TestSelection

/-! The verification plan: the packages that are widened, the mandatory checks, and what is owed where
discovery is incomplete. -/

namespace Planner

open CheckDiscovery (DiscoveredCheck TestDiscoveryIssue)
open InsertionMap

open ImpactReport ImpactEdges ImpactedPackages MappingScopes OutputBound PolicyStore RunArtifact
  Statements TestSelection Worklist

/-- The orders in which the hash collections of a planning are walked. -/
structure Walks where
  packages : Walk String
  targetKeys : Walk String
  widened : Walk (String × String)
  incomplete : Walk UnresolvedVerificationObligation

/-! ### Widening -/

def scopeState (i : PlanInputs) (s : DirectSelection) (pkg : String) : MappingScopeState :=
  match s.staleMapping.get? pkg with
  | some reason => .stale reason
  | none =>
    evaluateMappingScope pkg
      (deriveRelevantLanguagesForPackage pkg i.inventory.tests (impactedFiles i) i.snapshot)
      i.providers

def isGlobalReason : UncertaintyReason → Bool
  | .buildLimitReached _ | .graphCorrupt _ => true
  | _ => false

def globalFailure (i : PlanInputs) (s : DirectSelection) : Bool :=
  rootConfigChanged i || i.inventory.truncated || i.inventory.fallback.truncated ||
    i.mapping.truncated || i.mapping.errors ≠ [] ||
    (i.inventory.state.issues.any fun issue => issue.path.isNone) || s.uncertainties.any isGlobalReason

def noteScopes (i : PlanInputs) (m : InsertionMap String String) (issue : TestDiscoveryIssue) :
    InsertionMap String String :=
  match issue.path with
  | none => m
  | some path => (issueScopes i path).foldl (fun m scope =>
      m.set scope ("path_scoped_discovery_issue (" ++ issue.kind ++ ": " ++ issue.message ++ ")")) m

def pathScopedWidening (i : PlanInputs) : InsertionMap String String :=
  i.inventory.state.issues.foldl (noteScopes i) empty

def stateWidening? (directTests : Nat) : MappingScopeState → Option String
  | .freshComplete => if directTests = 0 then some "build_transitive_package_impact" else none
  | .stale reason => some ("stale_evidence: " ++ reason)
  | .missing reason => some ("missing_evidence: " ++ reason)
  | .failed reason => some ("failed_evidence: " ++ reason)
  | .truncated => some "truncated_evidence"

def wideningReason? (i : PlanInputs) (s : DirectSelection) (pkg : String) : Option String :=
  if globalFailure i s then some "global_failure_or_root_change"
  else
    ((pathScopedWidening i).get? pkg).or
      (stateWidening? ((s.perPackage.get? pkg).getD 0) (scopeState i s pkg))

def packagesRequiringWidening (w : Walks) (i : PlanInputs) : List (String × String) :=
  (impactedPackages w.packages i).filterMap fun pkg =>
    (wideningReason? i (selectDirect w.targetKeys i) pkg).map fun reason => (pkg, reason)

def kindAllowed (policy : VerificationPolicy) : VerificationCheckKind → Bool
  | .unitTest => policy.includeUnitTests
  | .integrationTest => policy.includeIntegrationTests
  | .endToEndTest => policy.includeE2eTests
  | _ => true

def widenedCheck (i : PlanInputs) (pkg reason : String) (test : DiscoveredTest) : PlannedCheck where
  checkId := test.stableId
  displayName := test.canonicalPath
  kind := test.kind
  scope := pkg
  reason := "package widening for " ++ pkg ++ ": " ++ reason
  selection := .policyWidening
  strength := .structural
  evidence := i.evidenceText none []
  wideningReason := some reason
  mandatory := false

def widenTest (i : PlanInputs) (selected : List String) (widening : String × String)
    (checks : InsertionMap String PlannedCheck) (test : DiscoveredTest) :
    InsertionMap String PlannedCheck :=
  if test.owningPackageId = some widening.1 ∧ kindAllowed i.policy test.kind = true ∧
      test.stableId ∉ selected then
    checks.set test.stableId (widenedCheck i widening.1 widening.2 test)
  else checks

def widenPackage (i : PlanInputs) (selected : List String)
    (checks : InsertionMap String PlannedCheck) (widening : String × String) :
    InsertionMap String PlannedCheck :=
  i.inventory.tests.foldl (widenTest i selected widening) checks

def widenedChecks (w : Walks) (i : PlanInputs) : InsertionMap String PlannedCheck :=
  let s := selectDirect w.targetKeys i
  (w.widened.order (packagesRequiringWidening w i)).foldl (widenPackage i s.selected) s.checks

/-! ### Mandatory checks -/

def shouldInclude (policy : VerificationPolicy) (isWidened : Bool) : VerificationCheckKind → Bool
  | .typecheck => policy.includeTypecheck
  | .lint => policy.includeLint
  | .build => policy.includeBuild
  | .unitTest => policy.includeUnitTests && isWidened
  | .integrationTest => policy.includeIntegrationTests && isWidened
  | .endToEndTest => policy.includeE2eTests && isWidened
  | .format | .custom => false

def mandatoryReason (paths : InsertionMap String EvidencePath) (scope : String) : String :=
  match paths.get? scope with
  | some path => "mandatory check for " ++ scope ++ " impacted via " ++ path.explanation
  | none => "mandatory check under policy for scope " ++ scope

def mandatoryCheck (i : PlanInputs) (paths : InsertionMap String EvidencePath)
    (check : DiscoveredCheck) : PlannedCheck where
  checkId := check.checkId
  displayName := check.displayName
  kind := check.kind
  scope := check.owningScopeId
  reason := mandatoryReason paths check.owningScopeId
  selection := .mandatoryCheck
  strength := .structural
  evidence := i.evidenceText none []
  wideningReason := none
  mandatory := true

def isMandatory (w : Walks) (i : PlanInputs) (check : DiscoveredCheck) : Bool :=
  ((impactedPackages w.packages i).contains check.owningScopeId || rootConfigChanged i) &&
    shouldInclude i.policy
      ((packagesRequiringWidening w i).any fun widening => widening.1 = check.owningScopeId) check.kind

def addMandatory (w : Walks) (i : PlanInputs) (checks : InsertionMap String PlannedCheck)
    (check : DiscoveredCheck) : InsertionMap String PlannedCheck :=
  if isMandatory w i check = true ∧ (checks.get? check.checkId).isNone then
    checks.set check.checkId (mandatoryCheck i (packageImpact w.packages i).paths check)
  else checks

def selectedChecks (w : Walks) (i : PlanInputs) : InsertionMap String PlannedCheck :=
  if i.policy.mandatoryPackageChecks then
    i.inventory.checks.foldl (addMandatory w i) (widenedChecks w i)
  else widenedChecks w i

/-! ### What is owed -/

def discoveryLimit (scope : String) : UnresolvedVerificationObligation where
  scope := scope
  reason := "exact test discovery truncated and no package test suite script exists to enclose " ++
    "omitted tests"
  source := "discovery_limit"

def fallbackLimit (scope : String) : UnresolvedVerificationObligation where
  scope := scope
  reason := "fallback test boundary inventory truncated without enclosing suite"
  source := "fallback_limit"

def issueObligations (i : PlanInputs) (impacted : List String) (issue : TestDiscoveryIssue) :
    List UnresolvedVerificationObligation :=
  match issue.path with
  | some path =>
    ((issueScopes i path).filter fun scope => impacted.contains scope || rootConfigChanged i).map
      fun scope => ⟨scope,
        "test discovery " ++ issue.kind ++ " at " ++ path ++ " may hide required tests", issue.kind⟩
  | none =>
    (if impacted = [] then ["workspace:root"] else impacted).map fun scope =>
      ⟨scope, "global test discovery " ++ issue.kind ++ ": " ++ issue.message, issue.kind⟩

def incompleteScopes (i : PlanInputs) (impacted : List String) :
    List UnresolvedVerificationObligation :=
  ((if i.inventory.truncated then impacted.map discoveryLimit else []) ++
    (if i.inventory.fallback.truncated then impacted.map fallbackLimit else []) ++
    i.inventory.state.issues.flatMap (issueObligations i impacted)).foldl insertOnce []

/-- A check that runs all the tests of a scope. -/
def isSuiteOf (scope : String) (check : DiscoveredCheck) : Bool :=
  check.owningScopeId = scope && isSuiteKind check.kind

def unresolvedObligations (w : Walks) (i : PlanInputs) : List UnresolvedVerificationObligation :=
  (w.incomplete.order (incompleteScopes i (impactedPackages w.packages i))).filter fun o =>
    !i.inventory.checks.any (isSuiteOf o.scope)

/-! ### The plan -/

def finalAssurance (w : Walks) (i : PlanInputs) : AssuranceLevel :=
  let reasons := (selectDirect w.targetKeys i).uncertainties
  let computed := computeResultAssurance i.impact.assurance reasons false
  if unresolvedObligations w i ≠ [] then .unverified
  else if packagesRequiringWidening w i = [] ∧ reasons = [] ∧ i.impact.assurance = .exact then .exact
  else if computed = .exact ∧ packagesRequiringWidening w i ≠ [] then .conservative
  else computed

theorem keyed_widenedChecks (w : Walks) (i : PlanInputs) : Keyed (widenedChecks w i) := by
  apply List.foldlRecOn (motive := Keyed)
  · exact (selects_selectDirect w.targetKeys i).keyed
  · intro checks hchecks widening _
    apply List.foldlRecOn (motive := Keyed)
    · exact hchecks
    · intro checks hchecks test _
      unfold widenTest
      split
      · exact hchecks.set (widenedCheck i widening.1 widening.2 test)
      · exact hchecks

theorem keyed_selectedChecks (w : Walks) (i : PlanInputs) : Keyed (selectedChecks w i) := by
  unfold selectedChecks
  split
  · apply List.foldlRecOn (motive := Keyed)
    · exact keyed_widenedChecks w i
    · intro checks hchecks check _
      unfold addMandatory
      split
      · exact hchecks.set (mandatoryCheck i (packageImpact w.packages i).paths check)
      · exact hchecks
  · exact keyed_widenedChecks w i

/-- The checks that are selected, before the output is bounded. -/
def selection (w : Walks) (i : PlanInputs) : Selection where
  checks := (selectedChecks w i).values
  distinct := by
    have hkeyed := keyed_selectedChecks w i
    rw [hkeyed.ids]
    exact hkeyed.distinct

def draft (w : Walks) (i : PlanInputs) : Draft where
  selection := selection w i
  unresolvedObligations := unresolvedObligations w i
  uncertainties := (selectDirect w.targetKeys i).uncertainties
  assurance := finalAssurance w i

def planVerification (w : Walks) (i : PlanInputs) : VerificationPlan :=
  finishPlan i.maxSelectedChecks i.inventory.checks i.changes i.impact.impacted (draft w i)

/-! ### Which ids are selected -/

def Widened (w : Walks) (i : PlanInputs) (pkg : String) : Prop :=
  pkg ∈ impactedPackages w.packages i ∧
    (wideningReason? i (selectDirect w.targetKeys i) pkg).isSome

variable {i : PlanInputs}

theorem mem_packagesRequiringWidening {w : Walks} {pkg : String} :
    (∃ reason, (pkg, reason) ∈ packagesRequiringWidening w i) ↔ Widened w i pkg := by
  simp only [Widened, packagesRequiringWidening, List.mem_filterMap, Option.map_eq_some_iff, Prod.mk.injEq]
  constructor
  · intro h
    obtain ⟨reason, other, hmem, found, hfound, rfl, rfl⟩ := h
    exact ⟨hmem, Option.isSome_of_eq_some hfound⟩
  · intro h
    obtain ⟨hmem, hsome⟩ := h
    obtain ⟨reason, hreason⟩ := Option.isSome_iff_exists.mp hsome
    exact ⟨reason, pkg, hmem, reason, hreason, rfl, rfl⟩

def WidenedTest (w : Walks) (i : PlanInputs) (test : DiscoveredTest) : Prop :=
  kindAllowed i.policy test.kind = true ∧ ∃ pkg, test.owningPackageId = some pkg ∧ Widened w i pkg

theorem isSome_widenTest {selected : List String} {widening : String × String} {id : String}
    (hid : id ∉ selected) (checks : InsertionMap String PlannedCheck) (test : DiscoveredTest) :
    ((widenTest i selected widening checks test).get? id).isSome ↔ (checks.get? id).isSome ∨
      (test.owningPackageId = some widening.1 ∧ kindAllowed i.policy test.kind = true ∧
        test.stableId = id) := by
  unfold widenTest
  split
  · next h =>
    rw [get?_set]
    by_cases heq : test.stableId = id
    · simp [heq, h.1, h.2.1]
    · simp [heq]
  · next h =>
    constructor
    · exact Or.inl
    · intro hor
      cases hor with
      | inl hold => exact hold
      | inr hnew =>
        obtain ⟨howner, hkind, rfl⟩ := hnew
        exact absurd ⟨howner, hkind, hid⟩ h

theorem isSome_widenTest_of_selected {selected : List String} {widening : String × String}
    {id : String} {checks : InsertionMap String PlannedCheck} (h : (checks.get? id).isSome)
    (test : DiscoveredTest) : ((widenTest i selected widening checks test).get? id).isSome := by
  unfold widenTest
  split
  · rw [get?_set]
    split
    · rfl
    · exact h
  · exact h

theorem isSome_widenedChecks (w : Walks) (i : PlanInputs) (id : String) :
    ((widenedChecks w i).get? id).isSome ↔ id ∈ (selectDirect w.targetKeys i).selected ∨
      ∃ test ∈ i.inventory.tests, WidenedTest w i test ∧ test.stableId = id := by
  have hdirect := (selects_selectDirect w.targetKeys i).ids id
  by_cases hid : id ∈ (selectDirect w.targetKeys i).selected
  · refine iff_of_true ?_ (Or.inl hid)
    apply List.foldlRecOn (motive := fun checks : InsertionMap String PlannedCheck =>
      (checks.get? id).isSome)
    · exact hdirect.mpr hid
    · intro checks hchecks widening _
      apply List.foldlRecOn (motive := fun checks : InsertionMap String PlannedCheck =>
        (checks.get? id).isSome)
      · exact hchecks
      · intro checks hchecks test _
        exact isSome_widenTest_of_selected hchecks test
  · have hpackage : ∀ (checks : InsertionMap String PlannedCheck) (widening : String × String),
        ((widenPackage i (selectDirect w.targetKeys i).selected checks widening).get? id).isSome ↔
          (checks.get? id).isSome ∨ ∃ test ∈ i.inventory.tests,
            test.owningPackageId = some widening.1 ∧ kindAllowed i.policy test.kind = true ∧
              test.stableId = id :=
      fun checks widening => isSome_get?_foldl (isSome_widenTest hid) _ checks
    have hfold := isSome_get?_foldl hpackage
      (w.widened.order (packagesRequiringWidening w i)) (selectDirect w.targetKeys i).checks
    rw [widenedChecks, hfold, hdirect]
    apply or_congr Iff.rfl
    constructor
    · intro h
      obtain ⟨⟨pkg, reason⟩, hwidening, test, htest, howner, hkind, hstable⟩ := h
      have hwidened := mem_packagesRequiringWidening.mp ⟨reason, w.widened.mem_order.mp hwidening⟩
      exact ⟨test, htest, ⟨hkind, pkg, howner, hwidened⟩, hstable⟩
    · intro h
      obtain ⟨test, htest, hwidened, hstable⟩ := h
      obtain ⟨hkind, pkg, howner, hpkg⟩ := hwidened
      obtain ⟨reason, hreason⟩ := mem_packagesRequiringWidening.mpr hpkg
      exact ⟨(pkg, reason), w.widened.mem_order.mpr hreason, test, htest, howner, hkind, hstable⟩

theorem isSome_selectedChecks (w : Walks) (i : PlanInputs) (id : String) :
    ((selectedChecks w i).get? id).isSome ↔ ((widenedChecks w i).get? id).isSome ∨
      (i.policy.mandatoryPackageChecks = true ∧
        ∃ check ∈ i.inventory.checks, isMandatory w i check = true ∧ check.checkId = id) := by
  have hstep : ∀ (checks : InsertionMap String PlannedCheck) (check : DiscoveredCheck),
      ((addMandatory w i checks check).get? id).isSome ↔
        (checks.get? id).isSome ∨ (isMandatory w i check = true ∧ check.checkId = id) := by
    intro checks check
    unfold addMandatory
    split
    · next h =>
      rw [get?_set]
      by_cases heq : check.checkId = id
      · simp [heq, h.1]
      · simp [heq]
    · next h =>
      constructor
      · exact Or.inl
      · intro hor
        cases hor with
        | inl hold => exact hold
        | inr hnew =>
          obtain ⟨hmandatory, rfl⟩ := hnew
          by_contra hnone
          exact h ⟨hmandatory, by simpa using hnone⟩
  unfold selectedChecks
  split
  · next h =>
    rw [isSome_get?_foldl hstep]
    simp [h]
  · next h => simp [h]

end Planner
