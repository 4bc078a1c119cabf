import FlowDeck.Library.InsertionMap
import FlowDeck.Library.KeyOrder
import FlowDeck.Verification.CheckDiscovery
import FlowDeck.Verification.RunArtifact
import Mathlib.Data.String.Basic
import Mathlib.Data.Finset.Card

/-! The bound on the checks of a verification plan. -/

namespace OutputBound

open CheckDiscovery KeyOrder PolicyStore RunArtifact Statements PlannedCheck InsertionMap List

/-- The checks chosen for a plan, by id. -/
structure Selection where
  checks : List PlannedCheck
  distinct : (checks.map checkId).Nodup

/-- A plan before its output is bounded. -/
structure Draft where
  selection : Selection
  unresolvedObligations : List UnresolvedVerificationObligation
  uncertainties : List UncertaintyReason
  assurance : AssuranceLevel

def isSuiteKind : VerificationCheckKind → Bool
  | .unitTest | .integrationTest | .endToEndTest => true
  | _ => false

def suiteCheck (check : DiscoveredCheck) : PlannedCheck where
  checkId := check.checkId
  displayName := check.displayName
  kind := check.kind
  scope := check.owningScopeId
  reason := "safe enclosing package test suite for " ++ check.owningScopeId
  selection := .mandatoryCheck
  strength := .structural
  evidence := ""
  wideningReason := none
  mandatory := true

def packageChecksAvailable (inventory : List DiscoveredCheck) : InsertionMap String PlannedCheck :=
  inventory.foldl (fun available check =>
    if isSuiteKind check.kind then available.set check.owningScopeId (suiteCheck check)
    else available) empty

structure RollUp where
  rolledUp : InsertionMap String PlannedCheck
  obligations : List UnresolvedVerificationObligation
  unrepresentedOmissions : Bool

def isPackageCheck (check : PlannedCheck) : Bool := "check:".toList.isPrefixOf check.checkId.toList

def standIn? (suites : InsertionMap String PlannedCheck) (check : PlannedCheck) :
    Option PlannedCheck :=
  if isPackageCheck check then some check else suites.get? check.scope

def omission (check : PlannedCheck) : UnresolvedVerificationObligation where
  scope := check.scope
  reason := "output limit exceeded for " ++ check.scope ++ " without enclosing suite script"
  source := "output_limit"

def rollUpStep (suites : InsertionMap String PlannedCheck) (r : RollUp) (check : PlannedCheck) :
    RollUp :=
  match standIn? suites check with
  | some standIn => { r with rolledUp := r.rolledUp.set standIn.checkId standIn }
  | none =>
    { r with
      obligations := r.obligations ++ [omission check]
      unrepresentedOmissions := true }

def rollUp (suites : InsertionMap String PlannedCheck) (checks : List PlannedCheck)
    (obligations : List UnresolvedVerificationObligation) : RollUp :=
  checks.foldl (rollUpStep suites) ⟨empty, obligations, false⟩

def rolledUpReason : UncertaintyReason :=
  .buildLimitReached
    "Selected individual tests rolled up into enclosing package test suites due to output limit"

def exceededReason : UncertaintyReason :=
  .buildLimitReached ("Selected verification checks exceeded output limit and cannot be safely " ++
    "represented without missing obligations")

structure Bounded where
  checks : List PlannedCheck
  unresolvedObligations : List UnresolvedVerificationObligation
  uncertainties : List UncertaintyReason
  assurance : AssuranceLevel

def boundOutput (limit : Nat) (inventory : List DiscoveredCheck) (d : Draft) : Bounded :=
  let sortedChecks := orderBy checkId d.selection.checks
  if limit < sortedChecks.length then
    let r := rollUp (packageChecksAvailable inventory) sortedChecks d.unresolvedObligations
    let candidates := orderBy checkId r.rolledUp.values
    if r.unrepresentedOmissions = false ∧ candidates.length ≤ limit then
      { checks := candidates
        unresolvedObligations := r.obligations
        uncertainties := d.uncertainties ++ [rolledUpReason]
        assurance := if d.assurance = .exact then .conservative else d.assurance }
    else
      { checks := if limit < candidates.length then candidates.take limit else sortedChecks
        unresolvedObligations := r.obligations
        uncertainties := d.uncertainties ++ [exceededReason]
        assurance := .unverified }
  else
    { checks := sortedChecks
      unresolvedObligations := d.unresolvedObligations
      uncertainties := d.uncertainties
      assurance := d.assurance }

/-- The plan that is returned. -/
def finishPlan (limit : Nat) (inventory : List DiscoveredCheck) (changed : List SemanticChange)
    (impacted : List ImpactedTarget) (d : Draft) : VerificationPlan :=
  let b := boundOutput limit inventory d
  { assurance := b.assurance
    changed := changed
    impactedTargets := impacted
    selectedChecks := b.checks
    uncertainty := (orderBy UncertaintyReason.code b.uncertainties).destutter (· ≠ ·)
    unresolvedObligations :=
      (orderBy UnresolvedVerificationObligation.scope b.unresolvedObligations).destutter (· ≠ ·) }

section RollUp

variable {suites : InsertionMap String PlannedCheck} {checks : List PlannedCheck}
  {obligations : List UnresolvedVerificationObligation}

/-- The checks that are rolled up are kept under their ids. -/
structure Keyed (m : InsertionMap String PlannedCheck) : Prop where
  distinct : m.Distinct
  keyed : ∀ entry ∈ m.entries, entry.2.checkId = entry.1

theorem Keyed.set {m : InsertionMap String PlannedCheck} (h : Keyed m) (check : PlannedCheck) :
    Keyed (m.set check.checkId check) := by
  refine ⟨h.distinct.set _ _, ?_⟩
  intro entry hentry
  cases mem_replace hentry with
  | inl heq => rw [heq]
  | inr hold => exact h.keyed entry hold

theorem Keyed.ids {m : InsertionMap String PlannedCheck} (h : Keyed m) :
    m.values.map checkId = m.entries.map (·.1) := by
  rw [values, map_map]
  exact map_congr_left h.keyed

theorem Keyed.mem_ids {m : InsertionMap String PlannedCheck} (h : Keyed m) (id : String) :
    id ∈ m.values.map checkId ↔ (m.get? id).isSome := by
  rw [h.ids, isSome_get?_iff, mem_map]

theorem Keyed.mem_values {m : InsertionMap String PlannedCheck} (h : Keyed m)
    {check : PlannedCheck} : check ∈ m.values ↔ m.get? check.checkId = some check := by
  rw [← h.distinct.mem_iff, values, mem_map]
  constructor
  · intro hcheck
    obtain ⟨entry, hentry, rfl⟩ := hcheck
    rw [h.keyed entry hentry]
    exact hentry
  · intro hentry
    exact ⟨_, hentry, rfl⟩

/-- What a roll-up of the checks has come to. -/
structure RolledUp (suites : InsertionMap String PlannedCheck) (checks : List PlannedCheck)
    (obligations : List UnresolvedVerificationObligation) (r : RollUp) : Prop where
  keyed : Keyed r.rolledUp
  standIns : ∀ id, (r.rolledUp.get? id).isSome ↔
    ∃ check ∈ checks, ∃ standIn, standIn? suites check = some standIn ∧ standIn.checkId = id
  obligations : ∀ o, o ∈ r.obligations ↔
    o ∈ obligations ∨ ∃ check ∈ checks, standIn? suites check = none ∧ omission check = o
  omissions : r.unrepresentedOmissions = false ↔ ∀ check ∈ checks, (standIn? suites check).isSome

theorem rollUpStep_spec {r : RollUp} (h : RolledUp suites checks obligations r)
    (check : PlannedCheck) :
    RolledUp suites (checks ++ [check]) obligations (rollUpStep suites r check) := by
  cases hstandIn : standIn? suites check with
  | some standIn =>
    simp only [rollUpStep, hstandIn]
    refine ⟨h.keyed.set standIn, ?_, ?_, ?_⟩
    · intro id
      rw [get?_set]
      by_cases hid : standIn.checkId = id
      · simp [hid, hstandIn]
      · simp [hid, hstandIn, h.standIns id]
    · intro o
      simp [h.obligations o, hstandIn]
    · simp [h.omissions, hstandIn, or_imp, forall_and]
  | none =>
    simp only [rollUpStep, hstandIn]
    refine ⟨h.keyed, ?_, ?_, ?_⟩
    · intro id
      simp [h.standIns id, hstandIn]
    · intro o
      simp [h.obligations o, hstandIn, or_assoc, eq_comm]
    · simp [hstandIn]

theorem rollUp_spec (suites : InsertionMap String PlannedCheck) (checks : List PlannedCheck)
    (obligations : List UnresolvedVerificationObligation) :
    RolledUp suites checks obligations (rollUp suites checks obligations) := by
  induction checks using reverseRecOn with
  | nil =>
    refine ⟨⟨distinct_empty, ?_⟩, ?_, ?_, ?_⟩
    · intro entry hentry
      exact absurd hentry not_mem_nil
    · simp [rollUp]
    · simp [rollUp]
    · simp [rollUp]
  | append_singleton checks check ih =>
    have hstep := rollUpStep_spec ih check
    simpa [rollUp] using hstep

end RollUp

def standIns (suites : InsertionMap String PlannedCheck) (checks : List PlannedCheck) :
    Finset String :=
  (checks.filterMap fun check => (standIn? suites check).map checkId).toFinset

theorem mem_standIns {suites : InsertionMap String PlannedCheck} {checks : List PlannedCheck}
    {id : String} : id ∈ standIns suites checks ↔
      ∃ check ∈ checks, ∃ standIn, standIn? suites check = some standIn ∧ standIn.checkId = id := by
  simp [standIns]

def GoesBy (suites : InsertionMap String PlannedCheck) (check : PlannedCheck) (id : String) : Prop :=
  id = check.checkId ∨ ∃ standIn, standIn? suites check = some standIn ∧ standIn.checkId = id

def Accounted (suites : InsertionMap String PlannedCheck) (plan : VerificationPlan)
    (check : PlannedCheck) : Prop :=
  (∃ kept ∈ plan.selectedChecks, GoesBy suites check kept.checkId) ∨
    ∃ o ∈ plan.unresolvedObligations, o.scope = check.scope

/-- The plan keeps the limit, and no check is dropped silently. -/
structure KeepsBound (limit : Nat) (inventory : List DiscoveredCheck) (d : Draft)
    (plan : VerificationPlan) : Prop where
  length : plan.selectedChecks.length ≤ limit
  accounted : ∀ check ∈ d.selection.checks,
    Accounted (packageChecksAvailable inventory) plan check

/-- A scope has an obligation, from before or for a check that nothing stands for. -/
def Owed (suites : InsertionMap String PlannedCheck) (d : Draft) (scope : String) : Prop :=
  (∃ o ∈ d.unresolvedObligations, o.scope = scope) ∨
    ∃ check ∈ d.selection.checks, check.scope = scope ∧ standIn? suites check = none

/-- How many stand before an id. -/
def place (suites : InsertionMap String PlannedCheck) (checks : List PlannedCheck) (id : String) :
    Nat :=
  ((standIns suites checks).filter fun other => other < id).card

/-- The checks fit; or all have a stand-in, and these fit; or these do not fit, and each check goes by
one that does or has an obligation for its scope. -/
def Representable (limit : Nat) (suites : InsertionMap String PlannedCheck) (d : Draft) : Prop :=
  d.selection.checks.length ≤ limit ∨
    ((standIns suites d.selection.checks).card ≤ limit ∧
      ∀ check ∈ d.selection.checks, (standIn? suites check).isSome) ∨
    (limit < (standIns suites d.selection.checks).card ∧ ∀ check ∈ d.selection.checks,
      (∃ id ∈ standIns suites d.selection.checks, GoesBy suites check id ∧
        place suites d.selection.checks id < limit) ∨
      Owed suites d check.scope)

section Bound

variable {limit : Nat} {inventory : List DiscoveredCheck} {d : Draft}

def candidates (inventory : List DiscoveredCheck) (d : Draft) : List PlannedCheck :=
  orderBy checkId (rollUp (packageChecksAvailable inventory)
    (orderBy checkId d.selection.checks) d.unresolvedObligations).rolledUp.values

theorem sorted_candidates (inventory : List DiscoveredCheck) (d : Draft) :
    (candidates inventory d).Pairwise fun a b => a.checkId < b.checkId := by
  apply pairwise_orderBy
  have hkeyed := (rollUp_spec (packageChecksAvailable inventory)
    (orderBy checkId d.selection.checks) d.unresolvedObligations).keyed
  rw [hkeyed.ids]
  exact hkeyed.distinct

theorem toFinset_candidates (inventory : List DiscoveredCheck) (d : Draft) :
    ((candidates inventory d).map checkId).toFinset =
      standIns (packageChecksAvailable inventory) d.selection.checks := by
  have hspec := rollUp_spec (packageChecksAvailable inventory)
    (orderBy checkId d.selection.checks) d.unresolvedObligations
  ext id
  have hids := hspec.keyed.mem_ids id
  rw [hspec.standIns id] at hids
  simp only [mem_map] at hids
  simp only [candidates, mem_toFinset, mem_map, mem_orderBy, mem_standIns, hids]

theorem nodup_candidates (inventory : List DiscoveredCheck) (d : Draft) :
    ((candidates inventory d).map checkId).Nodup :=
  pairwise_map.mpr ((sorted_candidates inventory d).imp fun hlt => ne_of_lt hlt)

theorem length_candidates (inventory : List DiscoveredCheck) (d : Draft) :
    (candidates inventory d).length =
      (standIns (packageChecksAvailable inventory) d.selection.checks).card := by
  rw [← toFinset_candidates, toFinset_card_of_nodup (nodup_candidates inventory d), length_map]

/-- The first candidates are those of the first places. -/
theorem exists_mem_take_iff (id : String) :
    (∃ kept ∈ (candidates inventory d).take limit, kept.checkId = id) ↔
      id ∈ standIns (packageChecksAvailable inventory) d.selection.checks ∧
        place (packageChecksAvailable inventory) d.selection.checks id < limit := by
  have hcount : ∀ kept : PlannedCheck,
      ((candidates inventory d).filter fun other => other.checkId < kept.checkId).length =
        place (packageChecksAvailable inventory) d.selection.checks kept.checkId := by
    intro kept
    have hdistinct := (nodup_candidates inventory d).filter fun other => other < kept.checkId
    have hset : (standIns (packageChecksAvailable inventory) d.selection.checks).filter
        (fun other => other < kept.checkId) =
        (((candidates inventory d).map checkId).filter
          fun other => other < kept.checkId).toFinset := by
      rw [← toFinset_candidates]
      ext other
      simp
    rw [place, hset, toFinset_card_of_nodup hdistinct, filter_map, length_map]
    rfl
  have hmem : ∀ kept, kept ∈ candidates inventory d →
      kept.checkId ∈ standIns (packageChecksAvailable inventory) d.selection.checks := by
    intro kept hkept
    rw [← toFinset_candidates, mem_toFinset]
    exact mem_map_of_mem hkept
  constructor
  · intro h
    obtain ⟨kept, hkept, rfl⟩ := h
    have hin := mem_of_mem_take hkept
    rw [mem_take_iff (sorted_candidates inventory d) hin, hcount] at hkept
    exact ⟨hmem kept hin, hkept⟩
  · intro h
    obtain ⟨hid, hplace⟩ := h
    rw [← toFinset_candidates, mem_toFinset] at hid
    obtain ⟨kept, hkept, rfl⟩ := mem_map.mp hid
    refine ⟨kept, ?_, rfl⟩
    rw [mem_take_iff (sorted_candidates inventory d) hkept, hcount]
    exact hplace

/-- The checks that are put out, and whether their scopes have obligations. -/
theorem boundOutput_of_fits (inventory : List DiscoveredCheck) (h : d.selection.checks.length ≤ limit) :
    boundOutput limit inventory d =
      ⟨orderBy checkId d.selection.checks, d.unresolvedObligations, d.uncertainties,
        d.assurance⟩ := by
  have hlength : (orderBy checkId d.selection.checks).length ≤ limit := by
    rw [orderBy, length_insertionSort]
    exact h
  simp [boundOutput, Nat.not_lt.mpr hlength]

/-- What is put out of checks that do not fit. -/
theorem boundOutput_of_exceeds (inventory : List DiscoveredCheck) (h : limit < d.selection.checks.length) :
    (boundOutput limit inventory d).unresolvedObligations =
        (rollUp (packageChecksAvailable inventory)
          (orderBy checkId d.selection.checks) d.unresolvedObligations).obligations ∧
      (boundOutput limit inventory d).checks =
        if limit < (candidates inventory d).length then (candidates inventory d).take limit
        else if ∀ check ∈ d.selection.checks,
          (standIn? (packageChecksAvailable inventory) check).isSome then candidates inventory d
        else orderBy checkId d.selection.checks := by
  have hlength : limit < (orderBy checkId d.selection.checks).length := by
    rw [orderBy, length_insertionSort]
    exact h
  have homissions := (rollUp_spec (packageChecksAvailable inventory)
    (orderBy checkId d.selection.checks) d.unresolvedObligations).omissions
  simp only [mem_orderBy] at homissions
  have hcandidates : orderBy checkId (rollUp (packageChecksAvailable inventory)
      (orderBy checkId d.selection.checks) d.unresolvedObligations).rolledUp.values =
      candidates inventory d := rfl
  simp only [boundOutput, hlength, if_true, homissions, hcandidates]
  by_cases hmany : limit < (candidates inventory d).length
  · have hnot : ¬ (candidates inventory d).length ≤ limit := Nat.not_le.mpr hmany
    simp [hmany, hnot]
  · have hfew : (candidates inventory d).length ≤ limit := Nat.not_lt.mp hmany
    by_cases hall : ∀ check ∈ d.selection.checks,
        (standIn? (packageChecksAvailable inventory) check).isSome
    · rw [if_pos ⟨hall, hfew⟩, if_neg hmany, if_pos hall]
      exact ⟨rfl, rfl⟩
    · have hnot : ¬ ((∀ check ∈ d.selection.checks,
          (standIn? (packageChecksAvailable inventory) check).isSome) ∧
          (candidates inventory d).length ≤ limit) := fun hboth => hall hboth.1
      rw [if_neg hnot, if_neg hmany, if_neg hmany, if_neg hall]
      exact ⟨rfl, rfl⟩

theorem owed_iff (scope : String) :
    (∃ o ∈ (rollUp (packageChecksAvailable inventory)
      (orderBy checkId d.selection.checks) d.unresolvedObligations).obligations,
        o.scope = scope) ↔ Owed (packageChecksAvailable inventory) d scope := by
  have hspec := (rollUp_spec (packageChecksAvailable inventory)
    (orderBy checkId d.selection.checks) d.unresolvedObligations).obligations
  simp only [mem_orderBy] at hspec
  constructor
  · intro h
    obtain ⟨o, ho, hscope⟩ := h
    cases (hspec o).mp ho with
    | inl hold => exact Or.inl ⟨o, hold, hscope⟩
    | inr hnew =>
      obtain ⟨check, hcheck, hnone, rfl⟩ := hnew
      exact Or.inr ⟨check, hcheck, hscope, hnone⟩
  · intro h
    cases h with
    | inl hold =>
      obtain ⟨o, ho, hscope⟩ := hold
      exact ⟨o, (hspec o).mpr (Or.inl ho), hscope⟩
    | inr hnew =>
      obtain ⟨check, hcheck, hscope, hnone⟩ := hnew
      exact ⟨omission check, (hspec _).mpr (Or.inr ⟨check, hcheck, hnone, rfl⟩), hscope⟩

variable (changed : List SemanticChange) (impacted : List ImpactedTarget)

theorem accounted_iff {check : PlannedCheck} :
    Accounted (packageChecksAvailable inventory)
        (finishPlan limit inventory changed impacted d) check ↔
      (∃ kept ∈ (boundOutput limit inventory d).checks,
        GoesBy (packageChecksAvailable inventory) check kept.checkId) ∨
      ∃ o ∈ (boundOutput limit inventory d).unresolvedObligations, o.scope = check.scope := by
  simp only [Accounted, finishPlan, mem_destutter_ne, mem_orderBy]

/-- The plan keeps the limit and accounts for each check exactly where its checks can be represented
within it. -/
theorem keepsBound_iff (limit : Nat) (inventory : List DiscoveredCheck) (d : Draft)
    (changed : List SemanticChange) (impacted : List ImpactedTarget) :
    KeepsBound limit inventory d (finishPlan limit inventory changed impacted d) ↔
      Representable limit (packageChecksAvailable inventory) d := by
  have hown : ∀ check ∈ d.selection.checks,
      ∃ kept ∈ orderBy checkId d.selection.checks,
        GoesBy (packageChecksAvailable inventory) check kept.checkId :=
    fun check hcheck => ⟨check, mem_orderBy.mpr hcheck, Or.inl rfl⟩
  by_cases hfits : d.selection.checks.length ≤ limit
  · have hbound := boundOutput_of_fits inventory hfits
    refine iff_of_true ⟨?_, ?_⟩ (Or.inl hfits)
    · simp only [finishPlan, hbound, orderBy, length_insertionSort]
      exact hfits
    · intro check hcheck
      rw [accounted_iff, hbound]
      exact Or.inl (hown check hcheck)
  have hexceeds : limit < d.selection.checks.length := Nat.not_le.mp hfits
  obtain ⟨hobligations, hchecks⟩ := boundOutput_of_exceeds inventory hexceeds
  rw [length_candidates] at hchecks
  have hplan : (finishPlan limit inventory changed impacted d).selectedChecks =
      (boundOutput limit inventory d).checks := rfl
  by_cases hmany : limit < (standIns (packageChecksAvailable inventory) d.selection.checks).card
  · -- the candidates are cut
    rw [if_pos hmany] at hchecks
    have haccounted : ∀ check, Accounted (packageChecksAvailable inventory)
        (finishPlan limit inventory changed impacted d) check ↔
        (∃ id ∈ standIns (packageChecksAvailable inventory) d.selection.checks,
          GoesBy (packageChecksAvailable inventory) check id ∧
            place (packageChecksAvailable inventory) d.selection.checks id < limit) ∨
        Owed (packageChecksAvailable inventory) d check.scope := by
      intro check
      rw [accounted_iff, hobligations, owed_iff, hchecks]
      refine or_congr ?_ Iff.rfl
      constructor
      · intro h
        obtain ⟨kept, hkept, hgoes⟩ := h
        obtain ⟨hid, hplace⟩ := exists_mem_take_iff kept.checkId |>.mp ⟨kept, hkept, rfl⟩
        exact ⟨kept.checkId, hid, hgoes, hplace⟩
      · intro h
        obtain ⟨id, hid, hgoes, hplace⟩ := h
        obtain ⟨kept, hkept, rfl⟩ := (exists_mem_take_iff id).mpr ⟨hid, hplace⟩
        exact ⟨kept, hkept, hgoes⟩
    constructor
    · intro h
      exact Or.inr (Or.inr ⟨hmany, fun check hcheck =>
        (haccounted check).mp (h.accounted check hcheck)⟩)
    · intro h
      have hcut := (h.resolve_left hfits).resolve_left fun hfew => absurd hfew.1 (Nat.not_le.mpr hmany)
      refine ⟨?_, fun check hcheck => (haccounted check).mpr (hcut.2 check hcheck)⟩
      rw [hplan, hchecks, length_take]
      exact Nat.min_le_left _ _
  · rw [if_neg hmany] at hchecks
    by_cases hall : ∀ check ∈ d.selection.checks,
        (standIn? (packageChecksAvailable inventory) check).isSome
    · -- every check is rolled up
      rw [if_pos hall] at hchecks
      refine iff_of_true ⟨?_, ?_⟩ (Or.inr (Or.inl ⟨Nat.not_lt.mp hmany, hall⟩))
      · rw [hplan, hchecks, length_candidates]
        exact Nat.not_lt.mp hmany
      · intro check hcheck
        obtain ⟨standIn, hstandIn⟩ := Option.isSome_iff_exists.mp (hall check hcheck)
        have hmem : standIn.checkId ∈ ((candidates inventory d).map checkId).toFinset := by
          rw [toFinset_candidates, mem_standIns]
          exact ⟨check, hcheck, standIn, hstandIn, rfl⟩
        obtain ⟨kept, hkept, hid⟩ := mem_map.mp (mem_toFinset.mp hmem)
        rw [accounted_iff, hchecks]
        exact Or.inl ⟨kept, hkept, Or.inr ⟨standIn, hstandIn, hid.symm⟩⟩
    · -- the checks are left as they are, over the limit
      rw [if_neg hall] at hchecks
      refine iff_of_false ?_ ?_
      · intro h
        have hlength := h.length
        rw [hplan, hchecks, orderBy, length_insertionSort] at hlength
        exact hfits hlength
      · intro h
        cases h.resolve_left hfits with
        | inl hfew => exact hall hfew.2
        | inr hcut => exact hmany hcut.1

end Bound

def lintCheck (checkId : String) : PlannedCheck :=
  ⟨checkId, "lint", .lint, "pkg:npm:a", "mandatory", .mandatoryCheck, .structural, "", none, true⟩

def twoChecks : Draft where
  selection := ⟨[lintCheck "check:pkg:npm:a:build", lintCheck "check:pkg:npm:a:lint"], by decide⟩
  unresolvedObligations := []
  uncertainties := []
  assurance := .exact

def twoTests : Draft where
  selection := ⟨[lintCheck "test:npm:a/x.test.ts", lintCheck "test:npm:a/y.test.ts"], by decide⟩
  unresolvedObligations := []
  uncertainties := []
  assurance := .exact

/-- Of two package checks the second is cut, and nothing is owed to its scope; two tests without a
suite are both put out. The limit is one. -/
theorem check_cut_silently :
    ¬ KeepsBound 1 [] twoChecks (finishPlan 1 [] [] [] twoChecks) ∧
      ¬ KeepsBound 1 [] twoTests (finishPlan 1 [] [] [] twoTests) := by
  constructor
  · intro h
    have hcheck : lintCheck "check:pkg:npm:a:lint" ∈ twoChecks.selection.checks := by decide
    have hplan : (finishPlan 1 [] [] [] twoChecks).selectedChecks =
        [lintCheck "check:pkg:npm:a:build"] := by decide +kernel
    have hnone : (finishPlan 1 [] [] [] twoChecks).unresolvedObligations = [] := by decide +kernel
    cases h.accounted _ hcheck with
    | inl hkept =>
      obtain ⟨kept, hkept, hgoes⟩ := hkept
      rw [hplan] at hkept
      obtain rfl := mem_singleton.mp hkept
      cases hgoes with
      | inl hid => exact absurd hid (by decide)
      | inr hstandIn =>
        obtain ⟨standIn, hstandIn, hid⟩ := hstandIn
        have hself : standIn? (packageChecksAvailable []) (lintCheck "check:pkg:npm:a:lint") =
            some (lintCheck "check:pkg:npm:a:lint") := by decide +kernel
        rw [hself] at hstandIn
        rw [← Option.some.inj hstandIn] at hid
        exact absurd hid (by decide)
    | inr hobligation =>
      obtain ⟨o, ho, -⟩ := hobligation
      rw [hnone] at ho
      exact absurd ho not_mem_nil
  · intro h
    have hlength : (finishPlan 1 [] [] [] twoTests).selectedChecks.length = 2 := by decide +kernel
    have hbound := h.length
    rw [hlength] at hbound
    exact absurd hbound (by decide)

end OutputBound
