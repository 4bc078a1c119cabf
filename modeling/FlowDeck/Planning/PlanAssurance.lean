import FlowDeck.Planning.Planner

/-! What a plan promises, against the uncertainties and the obligations that it lists. -/

namespace Planner

open CheckDiscovery (DiscoveredCheck)
open List

open ImpactReport ImpactedPackages KeyOrder MappingScopes OutputBound PolicyStore RunArtifact
  Statements TestSelection Worklist

/-! ### The reasons that are noted -/

/-- The checks are too many, but there are few enough that stand for them all. -/
def RollsUp (limit : Nat) (inventory : List DiscoveredCheck) (selection : Selection) : Prop :=
  limit < selection.checks.length ∧
    (∀ check ∈ selection.checks, (standIn? (packageChecksAvailable inventory) check).isSome) ∧
    (standIns (packageChecksAvailable inventory) selection.checks).card ≤ limit

instance RollsUp.decidable (limit : Nat) (inventory : List DiscoveredCheck) (selection : Selection) :
    Decidable (RollsUp limit inventory selection) := by
  unfold RollsUp
  infer_instance

theorem obligations_rollUp (suites : InsertionMap String PlannedCheck) (checks : List PlannedCheck)
    (obligations : List UnresolvedVerificationObligation) :
    (rollUp suites checks obligations).obligations =
      obligations ++ (checks.filter fun check => (standIn? suites check).isNone).map omission := by
  induction checks using reverseRecOn with
  | nil => simp [rollUp]
  | append_singleton checks check ih =>
    have hstep : rollUp suites (checks ++ [check]) obligations =
        rollUpStep suites (rollUp suites checks obligations) check := by
      simp [rollUp]
    rw [hstep, rollUpStep]
    cases hstandIn : standIn? suites check <;> simp [ih, hstandIn]

section Bounded

variable {limit : Nat} {inventory : List DiscoveredCheck} {d : Draft}

/-- The omissions are put out only with the lowest assurance. -/
def omissions (inventory : List DiscoveredCheck) (d : Draft) : List UnresolvedVerificationObligation :=
  ((orderBy PlannedCheck.checkId d.selection.checks).filter fun check =>
    (standIn? (packageChecksAvailable inventory) check).isNone).map omission

theorem boundOutput_of_rollsUp (h : RollsUp limit inventory d.selection) :
    (boundOutput limit inventory d).unresolvedObligations = d.unresolvedObligations ∧
      (boundOutput limit inventory d).uncertainties = d.uncertainties ++ [rolledUpReason] ∧
      (boundOutput limit inventory d).assurance =
        if d.assurance = .exact then .conservative else d.assurance := by
  obtain ⟨hmany, hall, hfew⟩ := h
  have hlength : limit < (orderBy PlannedCheck.checkId d.selection.checks).length := by
    rw [orderBy, length_insertionSort]
    exact hmany
  have homissions := (rollUp_spec (packageChecksAvailable inventory)
    (orderBy PlannedCheck.checkId d.selection.checks) d.unresolvedObligations).omissions
  simp only [mem_orderBy] at homissions
  have hnone : (orderBy PlannedCheck.checkId d.selection.checks).filter (fun check =>
      (standIn? (packageChecksAvailable inventory) check).isNone) = [] := by
    apply filter_eq_nil_iff.mpr
    intro check hcheck
    have hsome := hall check (mem_orderBy.mp hcheck)
    simpa [Option.isSome_iff_ne_none] using hsome
  have hobligations := obligations_rollUp (packageChecksAvailable inventory)
    (orderBy PlannedCheck.checkId d.selection.checks) d.unresolvedObligations
  rw [hnone, map_nil, append_nil] at hobligations
  have hcandidates : orderBy PlannedCheck.checkId (rollUp (packageChecksAvailable inventory)
      (orderBy PlannedCheck.checkId d.selection.checks) d.unresolvedObligations).rolledUp.values =
      candidates inventory d := rfl
  rw [← length_candidates] at hfew
  simp only [boundOutput, hlength, if_true, homissions, hcandidates]
  rw [if_pos ⟨hall, hfew⟩]
  exact ⟨hobligations, rfl, rfl⟩

theorem boundOutput_of_cut (hmany : limit < d.selection.checks.length)
    (h : ¬ RollsUp limit inventory d.selection) :
    (boundOutput limit inventory d).unresolvedObligations =
        d.unresolvedObligations ++ omissions inventory d ∧
      (boundOutput limit inventory d).uncertainties = d.uncertainties ++ [exceededReason] ∧
      (boundOutput limit inventory d).assurance = .unverified := by
  have hlength : limit < (orderBy PlannedCheck.checkId d.selection.checks).length := by
    rw [orderBy, length_insertionSort]
    exact hmany
  have homissions := (rollUp_spec (packageChecksAvailable inventory)
    (orderBy PlannedCheck.checkId d.selection.checks) d.unresolvedObligations).omissions
  simp only [mem_orderBy] at homissions
  have hcandidates : orderBy PlannedCheck.checkId (rollUp (packageChecksAvailable inventory)
      (orderBy PlannedCheck.checkId d.selection.checks) d.unresolvedObligations).rolledUp.values =
      candidates inventory d := rfl
  have hnot : ¬ ((∀ check ∈ d.selection.checks,
      (standIn? (packageChecksAvailable inventory) check).isSome) ∧
      (candidates inventory d).length ≤ limit) := by
    intro hboth
    rw [length_candidates] at hboth
    exact h ⟨hmany, hboth.1, hboth.2⟩
  simp only [boundOutput, hlength, if_true, homissions, hcandidates]
  rw [if_neg hnot]
  exact ⟨obligations_rollUp _ _ _, rfl, rfl⟩

end Bounded

/-! ### What is owed is listed once -/

theorem nodup_unresolvedObligations (w : Walks) (i : PlanInputs) :
    (unresolvedObligations w i).Nodup := by
  apply Nodup.filter
  rw [(w.incomplete.perm _).nodup_iff]
  exact nodup_foldl_insertOnce nodup_nil

def opening (o : UnresolvedVerificationObligation) : Option Char := o.reason.toList.head?

variable {i : PlanInputs} {w : Walks}

theorem opening_incomplete {impacted : List String} {o : UnresolvedVerificationObligation}
    (h : o ∈ incompleteScopes i impacted) : opening o ≠ some 'o' := by
  rw [incompleteScopes, mem_foldl_insertOnce] at h
  have hmem := h.resolve_left not_mem_nil
  simp only [mem_append, mem_flatMap] at hmem
  rcases hmem with (hlimit | hfallback) | hissue
  · split at hlimit
    · obtain ⟨scope, -, rfl⟩ := mem_map.mp hlimit
      simp [opening, discoveryLimit]
    · exact absurd hlimit not_mem_nil
  · split at hfallback
    · obtain ⟨scope, -, rfl⟩ := mem_map.mp hfallback
      simp [opening, fallbackLimit]
    · exact absurd hfallback not_mem_nil
  · obtain ⟨issue, -, hissue⟩ := hissue
    unfold issueObligations at hissue
    split at hissue
    · obtain ⟨scope, -, rfl⟩ := mem_map.mp hissue
      simp [opening, String.toList_append]
    · obtain ⟨scope, -, rfl⟩ := mem_map.mp hissue
      simp [opening, String.toList_append]

theorem opening_omission (check : PlannedCheck) : opening (omission check) = some 'o' := by
  simp [opening, omission, String.toList_append]

theorem opening_unresolved {o : UnresolvedVerificationObligation}
    (h : o ∈ unresolvedObligations w i) : opening o ≠ some 'o' :=
  opening_incomplete (w.incomplete.mem_order.mp (mem_filter.mp h).1)

theorem eq_of_sublist_obligations {owed omitted : List UnresolvedVerificationObligation}
    (howed : owed.Nodup) (hopening : ∀ o ∈ owed, opening o ≠ some 'o')
    (homitted : ∀ o ∈ omitted, ∃ check, omission check = o)
    {a b : UnresolvedVerificationObligation} (hscope : a.scope = b.scope)
    (h : [a, b, a].Sublist (owed ++ omitted)) : a = b := by
  have hlate : ∀ o ∈ omitted, opening o = some 'o' := by
    intro o ho
    obtain ⟨check, rfl⟩ := homitted o ho
    exact opening_omission check
  obtain ⟨early, late, heq, hearly, hlater⟩ := sublist_append_iff.mp h
  cases early with
  | nil =>
    rw [nil_append] at heq
    obtain ⟨checkA, rfl⟩ := homitted a (hlater.subset (by simp [← heq]))
    obtain ⟨checkB, rfl⟩ := homitted b (hlater.subset (by simp [← heq]))
    have hsame : checkA.scope = checkB.scope := hscope
    simp [omission, hsame]
  | cons first early =>
    rw [cons_append] at heq
    obtain ⟨rfl, hrest⟩ := cons.inj heq
    have hfirst := hopening a (hearly.subset mem_cons_self)
    have hlast : a ∈ early ++ late := by simp [← hrest]
    cases mem_append.mp hlast with
    | inl hin =>
      have hdistinct := (nodup_cons.mp (howed.sublist hearly)).1
      exact absurd hin hdistinct
    | inr hin => exact absurd (hlate a (hlater.subset hin)) hfirst

/-! ### The assurance -/

/-- The plan promises no more than the analysis and what it lists allow, and lists nothing twice. -/
structure Sound (w : Walks) (i : PlanInputs) : Prop where
  limited : ∀ reason ∈ (planVerification w i).uncertainty,
    assuranceRank (planVerification w i).assurance ≤ assuranceRank (limitingAssurance reason)
  analysed : assuranceRank (planVerification w i).assurance ≤ assuranceRank i.impact.assurance
  owed : (planVerification w i).unresolvedObligations ≠ [] →
    (planVerification w i).assurance = .unverified
  reasonsOnce : (planVerification w i).uncertainty.Nodup
  obligationsOnce : (planVerification w i).unresolvedObligations.Nodup

theorem obligationsOnce (w : Walks) (i : PlanInputs) :
    (planVerification w i).unresolvedObligations.Nodup := by
  obtain ⟨omitted, homitted, hobligations⟩ : ∃ omitted : List UnresolvedVerificationObligation,
      (∀ o ∈ omitted, ∃ check, omission check = o) ∧
        (boundOutput i.maxSelectedChecks i.inventory.checks (draft w i)).unresolvedObligations =
          unresolvedObligations w i ++ omitted := by
    by_cases hfits : (draft w i).selection.checks.length ≤ i.maxSelectedChecks
    · refine ⟨[], by simp, ?_⟩
      rw [boundOutput_of_fits i.inventory.checks hfits, append_nil]
      rfl
    by_cases hroll : RollsUp i.maxSelectedChecks i.inventory.checks (draft w i).selection
    · refine ⟨[], by simp, ?_⟩
      rw [(boundOutput_of_rollsUp hroll).1, append_nil]
      rfl
    · refine ⟨omissions i.inventory.checks (draft w i), ?_,
        (boundOutput_of_cut (Nat.not_le.mp hfits) hroll).1⟩
      intro o ho
      obtain ⟨check, -, rfl⟩ := mem_map.mp ho
      exact ⟨check, rfl⟩
  simp only [planVerification, finishPlan, hobligations, nodup_destutter_orderBy_iff]
  intro a b hscope hsub
  exact eq_of_sublist_obligations (nodup_unresolvedObligations w i) (fun o => opening_unresolved)
    homitted hscope hsub

def inPlace (α : Type) : Walk α := ⟨id, fun xs => Perm.refl xs⟩

def inPlaceWalks : Walks := ⟨inPlace _, inPlace _, inPlace _, inPlace _⟩

def dynamicConfig (dir name : String) : CheckDiscovery.TestDiscoveryIssue where
  kind := "dynamic_config"
  path := some (dir ++ "/" ++ name)
  message := "Dynamic configuration expressions in " ++ name

def quietInputs (inventory : TestInventory) : PlanInputs where
  impact := ⟨.exact, [], []⟩
  changes := []
  inventory := inventory
  snapshot := ⟨[], [], [], []⟩
  packageDirs := ["a", "b"]
  hasFile := fun dir name => (dir = "a" || dir = "b") && name = "package.json"
  mapping := ⟨[], false, []⟩
  providers := []
  policy := {}
  maxSelectedChecks := 2000
  fingerprintDebug := fun fingerprint => match fingerprint with
    | none => "None"
    | some text => "Some(\"" ++ text ++ "\")"
  evidenceText := fun _ _ => "null []"

end Planner
