import FlowDeck.Planning.PlanAssurance

/-! Whether the scopes with incomplete discovery are covered, by a suite or by an obligation. -/

namespace Planner

open CheckDiscovery (DiscoveredCheck TestDiscoveryIssue)
open List

open ImpactEdges ImpactedPackages MappingScopes OutputBound PolicyStore RunArtifact TestSelection
  Worklist

/-- A check that runs all the tests of the scope is selected. -/
def SuiteSelected (w : Walks) (i : PlanInputs) (scope : String) : Prop :=
  ∃ check ∈ i.inventory.checks, isSuiteOf scope check = true ∧
    ∃ planned ∈ (selection w i).checks, planned.checkId = check.checkId

/-- The scopes of which tests may be missing. -/
def Incomplete (w : Walks) (i : PlanInputs) (scope : String) : Prop :=
  ∃ o ∈ incompleteScopes i (impactedPackages w.packages i), o.scope = scope

/-- Every scope with incomplete discovery has its suite selected, or is owed its tests. -/
def CoversIncomplete (w : Walks) (i : PlanInputs) : Prop :=
  ∀ scope, Incomplete w i scope → SuiteSelected w i scope ∨
    ∃ o ∈ (draft w i).unresolvedObligations, o.scope = scope

def SuitesIncluded (w : Walks) (i : PlanInputs) : Prop :=
  ∀ scope, Incomplete w i scope → (∃ check ∈ i.inventory.checks, isSuiteOf scope check = true) →
    i.policy.mandatoryPackageChecks = true ∧ scope ∈ impactedPackages w.packages i ∧
      ∃ check ∈ i.inventory.checks, isSuiteOf scope check = true ∧
        kindAllowed i.policy check.kind = true

/-! ### An impacted scope with incomplete discovery is widened -/

theorem isSome_pathScopedWidening (i : PlanInputs) (scope : String) :
    ((pathScopedWidening i).get? scope).isSome ↔
      ∃ issue ∈ i.inventory.state.issues, ∃ path, issue.path = some path ∧
        scope ∈ issueScopes i path := by
  have hset : ∀ (text : String) (m : InsertionMap String String) (found : String),
      ((m.set found text).get? scope).isSome ↔ (m.get? scope).isSome ∨ found = scope := by
    intro text m found
    rw [InsertionMap.get?_set]
    by_cases heq : found = scope
    · simp [heq]
    · simp [heq]
  have hstep : ∀ (m : InsertionMap String String) (issue : TestDiscoveryIssue),
      ((noteScopes i m issue).get? scope).isSome ↔ (m.get? scope).isSome ∨
        ∃ path, issue.path = some path ∧ scope ∈ issueScopes i path := by
    intro m issue
    unfold noteScopes
    cases hpath : issue.path with
    | none => simp
    | some path =>
      rw [InsertionMap.isSome_get?_foldl (hset _)]
      simp
  rw [pathScopedWidening, InsertionMap.isSome_get?_foldl hstep]
  simp

variable {i : PlanInputs} {w : Walks}

theorem isSome_wideningReason_of_global {s : DirectSelection} {pkg : String}
    (h : globalFailure i s = true) : (wideningReason? i s pkg).isSome := by
  simp [wideningReason?, h]

theorem isSome_wideningReason_of_scoped {s : DirectSelection} {pkg : String}
    (h : ((pathScopedWidening i).get? pkg).isSome) : (wideningReason? i s pkg).isSome := by
  unfold wideningReason?
  split
  · rfl
  · rw [Option.isSome_or, h]
    rfl

theorem widened_of_incomplete {scope : String} (h : Incomplete w i scope)
    (himpacted : scope ∈ impactedPackages w.packages i) : Widened w i scope := by
  refine ⟨himpacted, ?_⟩
  obtain ⟨o, ho, rfl⟩ := h
  rw [incompleteScopes, mem_foldl_insertOnce] at ho
  have hmem := ho.resolve_left not_mem_nil
  simp only [mem_append, mem_flatMap] at hmem
  rcases hmem with (hlimit | hfallback) | hissue
  · apply isSome_wideningReason_of_global
    have htruncated : i.inventory.truncated = true := by
      by_contra hnot
      simp [hnot] at hlimit
    simp [globalFailure, htruncated]
  · apply isSome_wideningReason_of_global
    have htruncated : i.inventory.fallback.truncated = true := by
      by_contra hnot
      simp [hnot] at hfallback
    simp [globalFailure, htruncated]
  · obtain ⟨issue, hissue, hscope⟩ := hissue
    unfold issueObligations at hscope
    cases hpath : issue.path with
    | some path =>
      rw [hpath] at hscope
      simp only at hscope
      obtain ⟨found, hfound, rfl⟩ := mem_map.mp hscope
      apply isSome_wideningReason_of_scoped
      rw [isSome_pathScopedWidening]
      exact ⟨issue, hissue, path, hpath, (mem_filter.mp hfound).1⟩
    | none =>
      apply isSome_wideningReason_of_global
      have hglobal : (i.inventory.state.issues.any fun issue => issue.path.isNone) = true :=
        any_eq_true.mpr ⟨issue, hissue, by simp [hpath]⟩
      simp [globalFailure, hglobal]

/-! ### The suites that are selected -/

theorem mem_selection_iff (w : Walks) (i : PlanInputs) (id : String) :
    (∃ planned ∈ (selection w i).checks, planned.checkId = id) ↔
      ((selectedChecks w i).get? id).isSome := by
  rw [← (keyed_selectedChecks w i).mem_ids id, mem_map]
  rfl

theorem not_startsWith_both (id : String) (htest : startsWith "test:" id = true)
    (hcheck : startsWith "check:" id = true) : False := by
  obtain ⟨rest, hrest⟩ := isPrefixOf_iff_prefix.mp htest
  obtain ⟨rest', hrest'⟩ := isPrefixOf_iff_prefix.mp hcheck
  have heq := hrest.trans hrest'.symm
  simp at heq

theorem isSome_selectedChecks_check {check : DiscoveredCheck} (h : check ∈ i.inventory.checks) :
    ((selectedChecks w i).get? check.checkId).isSome ↔
      i.policy.mandatoryPackageChecks = true ∧ isMandatory w i check = true := by
  have hid := i.inventory.checkIds check h
  have hnot : ¬ ((widenedChecks w i).get? check.checkId).isSome := by
    rw [isSome_widenedChecks]
    intro hor
    cases hor with
    | inl hdirect =>
      exact not_startsWith_both _ ((selects_selectDirect w.targetKeys i).tests _ hdirect) hid
    | inr hwidened =>
      obtain ⟨test, htest, -, hstable⟩ := hwidened
      have htestId := i.inventory.testIds test htest
      rw [hstable] at htestId
      exact not_startsWith_both _ htestId hid
  rw [isSome_selectedChecks, or_iff_right hnot]
  constructor
  · intro hselected
    obtain ⟨hpolicy, other, hother, hmandatory, hsame⟩ := hselected
    have heq := inj_on_of_nodup_map i.inventory.distinctChecks hother h hsame
    rw [heq] at hmandatory
    exact ⟨hpolicy, hmandatory⟩
  · intro hselected
    exact ⟨hselected.1, check, h, hselected.2, rfl⟩

theorem any_widened_iff (w : Walks) (i : PlanInputs) (scope : String) :
    ((packagesRequiringWidening w i).any fun widening => widening.1 = scope) = true ↔
      Widened w i scope := by
  rw [← mem_packagesRequiringWidening]
  simp

theorem isMandatory_suite {scope : String} {check : DiscoveredCheck}
    (h : isSuiteOf scope check = true) :
    isMandatory w i check = true ↔ Widened w i scope ∧ kindAllowed i.policy check.kind = true := by
  simp only [isSuiteOf, Bool.and_eq_true, decide_eq_true_eq] at h
  obtain ⟨hscope, hkind⟩ := h
  have hinclude : shouldInclude i.policy
      ((packagesRequiringWidening w i).any fun widening => widening.1 = scope) check.kind = true ↔
        Widened w i scope ∧ kindAllowed i.policy check.kind = true := by
    rw [← any_widened_iff]
    cases hcase : check.kind with
    | unitTest | integrationTest | endToEndTest => simp [shouldInclude, kindAllowed, and_comm]
    | typecheck | lint | build | format | custom =>
      rw [hcase] at hkind
      exact absurd hkind (by decide)
  rw [isMandatory, hscope, Bool.and_eq_true, hinclude]
  constructor
  · exact And.right
  · intro hboth
    refine ⟨?_, hboth⟩
    simp [hboth.1.1]

/-- Incomplete discovery is covered exactly where the policy includes the suites that stand for an
obligation. -/
theorem coversIncomplete_iff (w : Walks) (i : PlanInputs) :
    CoversIncomplete w i ↔ SuitesIncluded w i := by
  have hselected : ∀ scope, SuiteSelected w i scope ↔
      i.policy.mandatoryPackageChecks = true ∧ Widened w i scope ∧
        ∃ check ∈ i.inventory.checks, isSuiteOf scope check = true ∧
          kindAllowed i.policy check.kind = true := by
    intro scope
    constructor
    · intro h
      obtain ⟨check, hcheck, hsuite, hplanned⟩ := h
      rw [mem_selection_iff, isSome_selectedChecks_check hcheck, isMandatory_suite hsuite] at hplanned
      obtain ⟨hpolicy, hwidened, hkind⟩ := hplanned
      exact ⟨hpolicy, hwidened, check, hcheck, hsuite, hkind⟩
    · intro h
      obtain ⟨hpolicy, hwidened, check, hcheck, hsuite, hkind⟩ := h
      refine ⟨check, hcheck, hsuite, ?_⟩
      rw [mem_selection_iff, isSome_selectedChecks_check hcheck, isMandatory_suite hsuite]
      exact ⟨hpolicy, hwidened, hkind⟩
  have howed : ∀ scope, Incomplete w i scope →
      ((∃ o ∈ (draft w i).unresolvedObligations, o.scope = scope) ↔
        ¬ ∃ check ∈ i.inventory.checks, isSuiteOf scope check = true) := by
    intro scope h
    constructor
    · intro howed hsuite
      obtain ⟨o, ho, rfl⟩ := howed
      have hnone := (mem_filter.mp ho).2
      have hany : i.inventory.checks.any (isSuiteOf o.scope) = true := any_eq_true.mpr hsuite
      rw [hany] at hnone
      exact absurd hnone (by decide)
    · intro hnone
      obtain ⟨o, ho, rfl⟩ := h
      refine ⟨o, mem_filter.mpr ⟨w.incomplete.mem_order.mpr ho, ?_⟩, rfl⟩
      have hany : ¬ i.inventory.checks.any (isSuiteOf o.scope) = true :=
        fun hany => hnone (any_eq_true.mp hany)
      simpa using hany
  constructor
  · intro h scope hincomplete hsuite
    have hcovered := (h scope hincomplete).resolve_right fun ho =>
      (howed scope hincomplete).mp ho hsuite
    obtain ⟨hpolicy, hwidened, hkind⟩ := (hselected scope).mp hcovered
    exact ⟨hpolicy, hwidened.1, hkind⟩
  · intro h scope hincomplete
    by_cases hsuite : ∃ check ∈ i.inventory.checks, isSuiteOf scope check = true
    · obtain ⟨hpolicy, himpacted, hkind⟩ := h scope hincomplete hsuite
      left
      rw [hselected]
      exact ⟨hpolicy, widened_of_incomplete hincomplete himpacted, hkind⟩
    · right
      exact (howed scope hincomplete).mpr hsuite

/-! ### A policy without mandatory checks -/

def suiteChecks : List DiscoveredCheck :=
  [⟨"check:pkg:npm:a:test", "test (pkg:npm:a)", "pkg:npm:a", .unitTest, some "vitest run"⟩]

theorem suiteChecks_ids : ∀ check ∈ suiteChecks, startsWith "check:" check.checkId := by
  decide +kernel

theorem suiteChecks_nodup : (suiteChecks.map (·.checkId)).Nodup :=
  nodup_singleton _

def suiteInventory : TestInventory where
  tests := []
  checks := suiteChecks
  fallback := ⟨["pkg:npm:a"], false⟩
  state := .incomplete [dynamicConfig "a" "vitest.config.ts"]
  truncated := false
  testIds := testIds_nil
  checkIds := suiteChecks_ids
  distinctChecks := suiteChecks_nodup

def changeOf (file : String) : SemanticChange where
  id := "chg-1"
  file := file
  symbol := none
  changeKind := .implementationChanged
  before := none
  after := none
  evidence := "[]"
  assurance := .conservative
  reasons := []

def withoutMandatory : PlanInputs :=
  { quietInputs suiteInventory with
    changes := [changeOf "a/x.ts"]
    policy := { mandatoryPackageChecks := false } }

/-- The suite of the package is there, but it is not selected, and nothing is owed. -/
theorem suite_waives_obligation : ¬ CoversIncomplete inPlaceWalks withoutMandatory := by
  intro h
  have hincomplete : Incomplete inPlaceWalks withoutMandatory "pkg:npm:a" := by
    have hscopes : ((incompleteScopes withoutMandatory
        (impactedPackages inPlaceWalks.packages withoutMandatory)).map (·.scope)) = ["pkg:npm:a"] := by
      decide +kernel
    have hmem := mem_map.mp (hscopes ▸ mem_singleton.mpr rfl)
    exact hmem
  have hchecks : (selection inPlaceWalks withoutMandatory).checks = [] := by decide +kernel
  have howed : (draft inPlaceWalks withoutMandatory).unresolvedObligations = [] := by decide +kernel
  cases h _ hincomplete with
  | inl hsuite =>
    obtain ⟨_, _, _, planned, hplanned, _⟩ := hsuite
    rw [hchecks] at hplanned
    exact absurd hplanned not_mem_nil
  | inr hobligation =>
    obtain ⟨o, ho, _⟩ := hobligation
    rw [howed] at ho
    exact absurd ho not_mem_nil

end Planner
