import FlowDeck.Planning.SuiteCoverage

/-! Which tests a widened package brings in, and whether the impacted packages are closed under their
dependents. -/

namespace Planner

open EvidenceModel ImpactEdges ImpactedPackages MappingScopes OutputBound PolicyStore RunArtifact
  TestSelection Worklist

/-- Every language of the package has a fresh provider, and no mapping edge of it is amiss. -/
def EvidenceFresh (w : Walks) (i : PlanInputs) (pkg : String) : Prop :=
  (selectDirect w.targetKeys i).staleMapping.get? pkg = none ∧
    let languages := deriveRelevantLanguagesForPackage pkg i.inventory.tests (impactedFiles i) i.snapshot
    languages ≠ [] ∧ ∀ lang ∈ languages, MappingScopes.Covered pkg i.providers lang

/-- An edge that nothing is wrong with maps an affected target to a test of the package. -/
def MappedTest (i : PlanInputs) (pkg : String) : Prop :=
  ∃ key ∈ affectedTargetKeys i, ∃ edge ∈ edgesOf i key,
    edgeIssue? i key edge = none ∧ owningScope i edge = pkg

def TraversedTest (w : Walks) (i : PlanInputs) (pkg : String) : Prop :=
  ∃ imp ∈ i.impact.impacted, ∃ test, testAt? i (normalizeTarget imp.target) = some test ∧
    test.stableId ∉ (selectMapped w.targetKeys i).selected ∧ test.owningPackageId.getD "repo" = pkg

/-- The selected checks hold the tests of the packages whose evidence does not do, and the packages are
closed under those that depend on them. -/
structure Complete (w : Walks) (i : PlanInputs) : Prop where
  tests : ∀ pkg ∈ impactedPackages w.packages i,
    (¬ EvidenceFresh w i pkg ∨ ¬ (MappedTest i pkg ∨ TraversedTest w i pkg) ∨
      globalFailure i (selectDirect w.targetKeys i) = true ∨ rootConfigChanged i = true) →
    ∀ test ∈ i.inventory.tests, test.owningPackageId = some pkg →
      kindAllowed i.policy test.kind = true →
      ∃ planned ∈ (selection w i).checks, planned.checkId = test.stableId
  closed : ∀ pkg ∈ impactedPackages w.packages i, ∀ dependent ∈ dependents i.snapshot pkg,
    dependent ∈ impactedPackages w.packages i

/-- Whatever depends on a package that a root configuration brings in is brought in too, or is
impacted by the change. -/
def RootClosed (i : PlanInputs) : Prop :=
  rootConfigChanged i = true → ∀ pkg ∈ rootPackages i, ∀ dependent ∈ dependents i.snapshot pkg,
    Reached i dependent ∨ dependent ∈ rootPackages i

/-! ### The tests that count for a package -/

variable {pkg : String} {i : PlanInputs} {w : Walks}

theorem isSome_countUp {counts : InsertionMap String Nat} {scope : String}
    (h : ((countUp counts scope).get? pkg).isSome) : (counts.get? pkg).isSome ∨ scope = pkg := by
  rw [countUp, InsertionMap.get?_set] at h
  by_cases heq : scope = pkg
  · exact Or.inr heq
  · rw [if_neg heq] at h
    exact Or.inl h

theorem counted_selectMapped {keyWalk : Walk String}
    (h : ((selectMapped keyWalk i).perPackage.get? pkg).isSome) : MappedTest i pkg := by
  revert h
  apply List.foldlRecOn (motive := fun s : DirectSelection =>
    (s.perPackage.get? pkg).isSome → MappedTest i pkg)
  · intro h
    simp at h
  · intro s hs key hkey
    apply List.foldlRecOn (motive := fun s : DirectSelection =>
      (s.perPackage.get? pkg).isSome → MappedTest i pkg)
    · exact hs
    · intro s hs edge hedge h
      unfold selectEdge at h
      cases hissue : edgeIssue? i key edge with
      | some issue =>
        rw [hissue] at h
        exact hs h
      | none =>
        rw [hissue] at h
        cases isSome_countUp h with
        | inl hold => exact hs hold
        | inr hnew => exact ⟨key, keyWalk.mem_order.mp hkey, edge, hedge, hissue, hnew⟩

theorem mem_selectTarget {s : DirectSelection} {imp : ImpactedTarget} {id : String}
    (h : id ∈ s.selected) : id ∈ (selectTarget i s imp).selected := by
  unfold selectTarget
  split
  · exact h
  · split
    · exact h
    · exact mem_insertOnce.mpr (Or.inl h)

theorem counted_selectDirect (h : ((selectDirect w.targetKeys i).perPackage.get? pkg).isSome) :
    MappedTest i pkg ∨ TraversedTest w i pkg := by
  have hinv : (∀ id ∈ (selectMapped w.targetKeys i).selected, id ∈ (selectDirect w.targetKeys i).selected) ∧
      (((selectDirect w.targetKeys i).perPackage.get? pkg).isSome →
        MappedTest i pkg ∨ TraversedTest w i pkg) := by
    apply List.foldlRecOn (motive := fun s : DirectSelection =>
      (∀ id ∈ (selectMapped w.targetKeys i).selected, id ∈ s.selected) ∧
        ((s.perPackage.get? pkg).isSome → MappedTest i pkg ∨ TraversedTest w i pkg))
    · exact ⟨fun id hid => hid, fun h => Or.inl (counted_selectMapped h)⟩
    · intro s hs imp himp
      refine ⟨fun id hid => mem_selectTarget (hs.1 id hid), ?_⟩
      intro h
      unfold selectTarget at h
      cases htest : testAt? i (normalizeTarget imp.target) with
      | none =>
        rw [htest] at h
        exact hs.2 h
      | some test =>
        rw [htest] at h
        simp only at h
        split at h
        · exact hs.2 h
        · next hnew =>
          cases isSome_countUp h with
          | inl hold => exact hs.2 hold
          | inr hscope =>
            exact Or.inr ⟨imp, himp, test, htest, fun hmem => hnew (hs.1 _ hmem), hscope⟩
  exact hinv.2 h

/-! ### Which packages are widened -/

theorem stateWidening?_eq_none {directTests : Nat} {state : MappingScopeState}
    (h : stateWidening? directTests state = none) : state = .freshComplete ∧ directTests ≠ 0 := by
  cases state with
  | freshComplete =>
    refine ⟨rfl, ?_⟩
    intro hzero
    simp [stateWidening?, hzero] at h
  | stale | missing | failed | truncated => simp [stateWidening?] at h

theorem evidenceFresh_of_freshComplete
    (h : scopeState i (selectDirect w.targetKeys i) pkg = .freshComplete) :
    EvidenceFresh w i pkg := by
  unfold scopeState at h
  split at h
  · simp at h
  · next hnone => exact ⟨hnone, evaluateMappingScope_eq_freshComplete_iff.mp h⟩

theorem widened_of_lacking (hpkg : pkg ∈ impactedPackages w.packages i)
    (h : ¬ EvidenceFresh w i pkg ∨ ¬ (MappedTest i pkg ∨ TraversedTest w i pkg) ∨
      globalFailure i (selectDirect w.targetKeys i) = true ∨ rootConfigChanged i = true) :
    Widened w i pkg := by
  refine ⟨hpkg, ?_⟩
  by_contra hnone
  have hglobal : ¬ globalFailure i (selectDirect w.targetKeys i) = true :=
    fun hglobal => hnone (isSome_wideningReason_of_global hglobal)
  have hroot : ¬ rootConfigChanged i = true := by
    intro hroot
    exact hglobal (by simp [globalFailure, hroot])
  have hstate : stateWidening?
      (((selectDirect w.targetKeys i).perPackage.get? pkg).getD 0)
      (scopeState i (selectDirect w.targetKeys i) pkg) = none := by
    rw [wideningReason?, if_neg hglobal] at hnone
    cases hscoped : (pathScopedWidening i).get? pkg with
    | some text => simp [hscoped] at hnone
    | none => simpa [hscoped] using hnone
  obtain ⟨hfresh, hcount⟩ := stateWidening?_eq_none hstate
  have hsome : ((selectDirect w.targetKeys i).perPackage.get? pkg).isSome := by
    cases hget : (selectDirect w.targetKeys i).perPackage.get? pkg with
    | none => simp [hget] at hcount
    | some count => rfl
  rcases h with hstale | huntested | hfailure | hchanged
  · exact hstale (evidenceFresh_of_freshComplete hfresh)
  · exact huntested (counted_selectDirect hsome)
  · exact hglobal hfailure
  · exact hroot hchanged

theorem selected_of_widened {test : DiscoveredTest} (htest : test ∈ i.inventory.tests)
    (h : WidenedTest w i test) :
    ∃ planned ∈ (selection w i).checks, planned.checkId = test.stableId := by
  rw [mem_selection_iff, isSome_selectedChecks, isSome_widenedChecks]
  exact Or.inl (Or.inr ⟨test, htest, h, rfl⟩)

theorem closed_iff (w : Walks) (i : PlanInputs) :
    (∀ pkg ∈ impactedPackages w.packages i, ∀ dependent ∈ dependents i.snapshot pkg,
      dependent ∈ impactedPackages w.packages i) ↔ RootClosed i := by
  simp only [mem_impactedPackages]
  constructor
  · intro h hroot pkg hpkg dependent hdependent
    have hmem := h pkg (Or.inr ⟨hroot, hpkg⟩) dependent hdependent
    exact hmem.imp_right And.right
  · intro h pkg hpkg dependent hdependent
    cases hpkg with
    | inl hreached =>
      obtain ⟨seed, hseed, hpath⟩ := hreached
      exact Or.inl ⟨seed, hseed, hpath.tail hdependent⟩
    | inr hadded =>
      obtain ⟨hroot, hmem⟩ := hadded
      exact (h hroot pkg hmem dependent hdependent).imp_right fun hin => ⟨hroot, hin⟩

/-- The tests are always there; the packages are closed exactly where those that a root configuration
brings in are. -/
theorem complete_iff (w : Walks) (i : PlanInputs) : Complete w i ↔ RootClosed i := by
  constructor
  · intro h
    exact (closed_iff w i).mp h.closed
  · intro h
    refine ⟨?_, (closed_iff w i).mpr h⟩
    intro pkg hpkg hlacking test htest howner hkind
    exact selected_of_widened htest ⟨hkind, pkg, howner, widened_of_lacking hpkg hlacking⟩

/-! ### A dependent that the inventory of packages does not reach -/

def emptyInventory : TestInventory where
  tests := []
  checks := []
  fallback := ⟨[], false⟩
  state := .complete
  truncated := false
  testIds := testIds_nil
  checkIds := checkIds_nil
  distinctChecks := List.nodup_nil

def dependsOnA : BuildEdge where
  stableId := "edge:depends_on:pkg:npm:z:pkg:npm:a"
  fromNode := "pkg:npm:z"
  toNode := "pkg:npm:a"
  kind := .dependsOn
  provider := "build_native"
  providerId := "builtin-package-json"
  providerFingerprint := "fp"
  strength := .structural

/-- The root manifest changes; the directory of `z`, which depends on `a`, is past the limit of the
fallback inventory. -/
def rootManifestChange : PlanInputs :=
  { quietInputs emptyInventory with
    changes := [changeOf "package.json"]
    packageDirs := [".", "a"]
    hasFile := fun dir name => (dir = "" || dir = "a" || dir = "z") && name = "package.json"
    snapshot := ⟨[], [dependsOnA], [], []⟩ }

/-- `a` is taken as impacted and its dependent is not. -/
theorem dependent_left_out : ¬ Complete inPlaceWalks rootManifestChange := by
  intro h
  have hpackages : impactedPackages inPlaceWalks.packages rootManifestChange =
      ["pkg:npm:.", "pkg:npm:a"] := by decide +kernel
  have hdependents : dependents rootManifestChange.snapshot "pkg:npm:a" = ["pkg:npm:z"] := by
    decide +kernel
  have hclosed := h.closed "pkg:npm:a" (by simp [hpackages]) "pkg:npm:z" (by simp [hdependents])
  rw [hpackages] at hclosed
  exact absurd hclosed (by decide)

end Planner
