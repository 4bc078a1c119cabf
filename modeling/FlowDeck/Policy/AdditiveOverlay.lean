import FlowDeck.Policy.PolicyApplications
import FlowDeck.Verification.OutputBound

/-! The overlay of the promoted policies over a verification plan. -/

namespace AdditiveOverlay

open Checked KeyOrder OutputBound PolicySnapshots PolicyStore RunArtifact Statements PlannedCheck
open List
open InsertionMap

structure PlanDigests extends SnapshotDigests where
  canonicalPlan : VerificationPlan → String
  planNumbers : VerificationPlan → List Nat

def computeVerificationPlanDigest (d : PlanDigests) (plan : VerificationPlan) :
    Except String String :=
  computeCanonicalSha256 d.toDigests (d.planNumbers plan) (d.canonicalPlan plan)

structure EffectiveVerificationPlan where
  plan : VerificationPlan
  application : PolicyApplication
  baseAssurance : AssuranceLevel
  baseCheckIds : List String
  addedCheckIds : List String
  deriving DecidableEq

/-- The ids of checks as an ordered set. -/
def idSet (checks : List PlannedCheck) : List String :=
  (checks.map checkId).dedup.insertionSort (· ≤ ·)

def isBound (d : PlanDigests) (policy : PromotedPolicy) (template : PlannedCheck) : Bool :=
  computeTemplateDigest d.toDigests template = policy.templateDigest &&
    template.checkId = policy.checkId && template.scope = policy.trigger.scope &&
    template.selection = .policyWidening && template.strength = .structural &&
    template.wideningReason = some "learned_policy_add_check"

def missingTemplate (policy : PromotedPolicy) : String :=
  "active policy '" ++ policy.policyId ++ "' has no immutable persisted check template"

def adds (base : VerificationPlan) (impactedScopes : List String) (policy : PromotedPolicy) : Bool :=
  impactedScopes.contains policy.trigger.scope && !(idSet base.selectedChecks).contains policy.checkId

/-- `entry(..).or_insert(..)`. -/
def orInsert (additions : InsertionMap String PlannedCheck) (template : PlannedCheck) :
    InsertionMap String PlannedCheck :=
  if (additions.get? template.checkId).isSome then additions
  else additions.set template.checkId template

section Overlay

variable (d : PlanDigests) (base : VerificationPlan) (templates : InsertionMap String PlannedCheck)
  (impactedScopes : List String)

def addPolicy (additions : InsertionMap String PlannedCheck) (policy : PromotedPolicy) :
    Except String (InsertionMap String PlannedCheck) := do
  validatePersistedPolicyIdentity d.toSnapshotDigests policy
  refuseIf (policy.state ≠ .promoted) "M11 refuses non-promoted policy during overlay"
  if adds base impactedScopes policy then
    match templates.get? policy.templateDigest with
    | none => .error (missingTemplate policy)
    | some template =>
      refuseIf (isBound d policy template = false)
        "active policy check template fails immutable binding validation"
      return orInsert additions template
  else return additions

def collectAdditions : List PromotedPolicy → InsertionMap String PlannedCheck →
    Except String (InsertionMap String PlannedCheck)
  | [], additions => .ok additions
  | policy :: rest, additions => do
    let additions ← addPolicy d base templates impactedScopes additions policy
    collectAdditions rest additions

def mergeChecks (checks : List PlannedCheck) (additions : InsertionMap String PlannedCheck) :
    List PlannedCheck :=
  (orderBy checkId
    (checks ++ orderBy checkId additions.values)).destutter
      fun a b => a.checkId ≠ b.checkId

def applyAdditiveOverlay (snapshot : PolicySnapshot) : Except String EffectiveVerificationPlan := do
  let additions ← collectAdditions d base templates impactedScopes snapshot.policies empty
  let plan := { base with selectedChecks := mergeChecks base.selectedChecks additions }
  let baseCheckIds := idSet base.selectedChecks
  let effectiveIds := idSet plan.selectedChecks
  refuseIf (¬ baseCheckIds ⊆ effectiveIds)
    "M11 additive overlay attempted to remove an M6 base check"
  refuseIf (plan.assurance ≠ base.assurance) "M11 additive overlay attempted to alter M6 assurance"
  refuseIf (plan.unresolvedObligations ≠ base.unresolvedObligations)
    "M11 additive overlay attempted to alter M6 unresolved obligations"
  let addedCheckIds := effectiveIds.filter fun id => !baseCheckIds.contains id
  let basePlanDigest ← computeVerificationPlanDigest d base
  let effectivePlanDigest ← computeVerificationPlanDigest d plan
  return {
    plan
    application := canonicalApplication d.toSnapshotDigests basePlanDigest effectivePlanDigest
      addedCheckIds snapshot
    baseAssurance := base.assurance
    baseCheckIds
    addedCheckIds }

end Overlay

/-! ### The additions -/

section Additions

variable {d : PlanDigests} {base : VerificationPlan} {templates : InsertionMap String PlannedCheck}
  {impactedScopes : List String}

theorem mem_idSet {checks : List PlannedCheck} {id : String} :
    id ∈ idSet checks ↔ ∃ check ∈ checks, check.checkId = id := by
  simp [idSet]

variable {policy : PromotedPolicy} {additions after : InsertionMap String PlannedCheck}
  {policies : List PromotedPolicy}

theorem adds_iff :
    adds base impactedScopes policy = true ↔ policy.trigger.scope ∈ impactedScopes ∧
      ∀ check ∈ base.selectedChecks, check.checkId ≠ policy.checkId := by
  simp [adds, mem_idSet]

def contribution (base : VerificationPlan) (templates : InsertionMap String PlannedCheck)
    (impactedScopes : List String) (id : String) (policy : PromotedPolicy) : Option PlannedCheck :=
  if adds base impactedScopes policy ∧ policy.checkId = id then templates.get? policy.templateDigest
  else none

theorem addPolicy_eq_ok (h : addPolicy d base templates impactedScopes additions policy = .ok after) :
    (adds base impactedScopes policy = false ∧ after = additions) ∨
      (adds base impactedScopes policy = true ∧ ∃ template,
        templates.get? policy.templateDigest = some template ∧ template.checkId = policy.checkId ∧
          after = orInsert additions template) := by
  obtain ⟨_, -, h⟩ := bind_eq_ok.mp h
  obtain ⟨_, -, h⟩ := bind_eq_ok.mp h
  cases hadds : adds base impactedScopes policy with
  | false =>
    rw [hadds] at h
    exact Or.inl ⟨rfl, (pure_eq_ok.mp h).symm⟩
  | true =>
    rw [hadds] at h
    right
    refine ⟨rfl, ?_⟩
    cases htemplate : templates.get? policy.templateDigest with
    | none =>
      rw [htemplate] at h
      cases h
    | some template =>
      rw [htemplate] at h
      obtain ⟨_, hbound, h⟩ := bind_eq_ok.mp h
      have hbinds : isBound d policy template = true := by
        simpa using refuseIf_eq_ok.mp hbound
      simp only [isBound, Bool.and_eq_true, decide_eq_true_eq] at hbinds
      exact ⟨template, rfl, hbinds.1.1.1.1.2, (pure_eq_ok.mp h).symm⟩

theorem get?_orInsert (additions : InsertionMap String PlannedCheck) (template : PlannedCheck)
    (id : String) :
    (orInsert additions template).get? id =
      (additions.get? id).or (if template.checkId = id then some template else none) := by
  unfold orInsert
  by_cases hid : template.checkId = id
  · rw [hid]
    cases hget : additions.get? id with
    | none => simp
    | some check => simp [hget]
  · rw [if_neg hid, Option.or_none]
    split
    · rfl
    · rw [get?_set, if_neg hid]

theorem keyed_orInsert (h : Keyed additions) (template : PlannedCheck) :
    Keyed (orInsert additions template) := by
  unfold orInsert
  split
  · exact h
  · exact h.set template

/-- The first policy for an id that adds a check settles which it is. -/
theorem collectAdditions_eq_ok (hkeyed : Keyed additions)
    (h : collectAdditions d base templates impactedScopes policies additions = .ok after) :
    Keyed after ∧
      ∀ id, after.get? id = (additions.get? id).or
        (policies.findSome? (contribution base templates impactedScopes id)) := by
  induction policies generalizing additions with
  | nil =>
    obtain rfl := Except.ok.inj h
    exact ⟨hkeyed, by simp⟩
  | cons policy policies ih =>
    obtain ⟨next, hnext, hrest⟩ := bind_eq_ok.mp h
    cases addPolicy_eq_ok hnext with
    | inl hskip =>
      obtain ⟨hadds, rfl⟩ := hskip
      obtain ⟨hafter, hget⟩ := ih hkeyed hrest
      refine ⟨hafter, ?_⟩
      intro id
      rw [hget, findSome?_cons]
      simp [contribution, hadds]
    | inr hadd =>
      obtain ⟨hadds, template, htemplate, hid, rfl⟩ := hadd
      obtain ⟨hafter, hget⟩ := ih (keyed_orInsert hkeyed template) hrest
      refine ⟨hafter, ?_⟩
      intro id
      rw [hget, get?_orInsert, findSome?_cons]
      by_cases hsame : policy.checkId = id
      · have hcontribution : contribution base templates impactedScopes id policy = some template := by
          simp [contribution, hadds, hsame, htemplate]
        rw [hcontribution, hid, if_pos hsame]
        cases additions.get? id <;> simp
      · have hcontribution : contribution base templates impactedScopes id policy = none := by
          simp [contribution, hsame]
        rw [hcontribution, hid, if_neg hsame, Option.or_none]

/-- Every policy of an accepted overlay was accepted. -/
theorem exists_addPolicy
    (h : collectAdditions d base templates impactedScopes policies additions = .ok after)
    {policy : PromotedPolicy} (hpolicy : policy ∈ policies) :
    ∃ before next, addPolicy d base templates impactedScopes before policy = .ok next := by
  induction policies generalizing additions with
  | nil => exact absurd hpolicy not_mem_nil
  | cons first policies ih =>
    obtain ⟨next, hnext, hrest⟩ := bind_eq_ok.mp h
    cases mem_cons.mp hpolicy with
    | inl heq =>
      rw [heq]
      exact ⟨additions, next, hnext⟩
    | inr hlater => exact ih hrest hlater

theorem promoted_of_addPolicy
    (h : addPolicy d base templates impactedScopes additions policy = .ok after) :
    policy.state = .promoted := by
  obtain ⟨_, -, hstate⟩ := bind_eq_ok.mp h
  obtain ⟨_, hrefuse, -⟩ := bind_eq_ok.mp hstate
  simpa using refuseIf_eq_ok.mp hrefuse

theorem exists_template
    (h : collectAdditions d base templates impactedScopes policies additions = .ok after)
    {policy : PromotedPolicy} (hpolicy : policy ∈ policies)
    (hadds : adds base impactedScopes policy = true) :
    ∃ template, templates.get? policy.templateDigest = some template ∧
      template.checkId = policy.checkId := by
  obtain ⟨before, next, hnext⟩ := exists_addPolicy h hpolicy
  cases addPolicy_eq_ok hnext with
  | inl hskip =>
    rw [hadds] at hskip
    cases hskip.1
  | inr hadd =>
    obtain ⟨-, template, htemplate, hid, -⟩ := hadd
    exact ⟨template, htemplate, hid⟩

/-- The template of the first policy that adds a check under its id. -/
def IsAdded (base : VerificationPlan) (templates : InsertionMap String PlannedCheck)
    (impactedScopes : List String) (policies : List PromotedPolicy) (check : PlannedCheck) : Prop :=
  ∃ earlier policy later, policies = earlier ++ policy :: later ∧
    adds base impactedScopes policy = true ∧ policy.checkId = check.checkId ∧
    templates.get? policy.templateDigest = some check ∧
    ∀ other ∈ earlier, adds base impactedScopes other = true → other.checkId ≠ check.checkId

theorem exists_isAdded
    (h : collectAdditions d base templates impactedScopes policies additions = .ok after)
    {policy : PromotedPolicy} (hpolicy : policy ∈ policies)
    (hadds : adds base impactedScopes policy = true) :
    ∃ check, IsAdded base templates impactedScopes policies check ∧
      check.checkId = policy.checkId := by
  have hsome : ((policies.find? fun other => adds base impactedScopes other &&
      decide (other.checkId = policy.checkId))).isSome := by
    simp only [find?_isSome, Bool.and_eq_true, decide_eq_true_eq]
    exact ⟨policy, hpolicy, hadds, rfl⟩
  obtain ⟨first, hfirst⟩ := Option.isSome_iff_exists.mp hsome
  obtain ⟨hfound, earlier, later, heq, hearlier⟩ := find?_eq_some_iff_append.mp hfirst
  simp only [Bool.and_eq_true, decide_eq_true_eq] at hfound
  have hmem : first ∈ policies := by
    rw [heq]
    simp
  obtain ⟨template, htemplate, hid⟩ := exists_template h hmem hfound.1
  have hsame : template.checkId = policy.checkId := hid.trans hfound.2
  refine ⟨template, ⟨earlier, first, later, heq, hfound.1, hid.symm, htemplate, ?_⟩, hsame⟩
  intro other hother hadd hotherId
  have hnot := hearlier other hother
  simp [hadd, hotherId, hsame] at hnot

theorem get?_collectAdditions
    (h : collectAdditions d base templates impactedScopes policies empty = .ok additions)
    {check : PlannedCheck} :
    additions.get? check.checkId = some check ↔
      IsAdded base templates impactedScopes policies check := by
  have hkeyed : Keyed (empty : InsertionMap String PlannedCheck) :=
    ⟨distinct_empty, by simp [empty]⟩
  obtain ⟨-, hget⟩ := collectAdditions_eq_ok hkeyed h
  rw [hget, get?_empty, Option.none_or, findSome?_eq_some_iff]
  constructor
  · intro hfirst
    obtain ⟨earlier, policy, later, rfl, hcontribution, hearlier⟩ := hfirst
    unfold contribution at hcontribution
    split_ifs at hcontribution with hpolicy
    refine ⟨earlier, policy, later, rfl, hpolicy.1, hpolicy.2, hcontribution, ?_⟩
    intro other hother hadds hid
    obtain ⟨template, htemplate, -⟩ :=
      exists_template h (mem_append_left (policy :: later) hother) hadds
    have hnone := hearlier other hother
    simp [contribution, hadds, hid, htemplate] at hnone
  · intro hadded
    obtain ⟨earlier, policy, later, rfl, hadds, hid, htemplate, hearlier⟩ := hadded
    refine ⟨earlier, policy, later, rfl, by simp [contribution, hadds, hid, htemplate], ?_⟩
    intro other hother
    apply if_neg
    intro hsame
    exact hearlier other hother hsame.1 hsame.2

end Additions

/-! ### The effective plan -/

section EffectivePlan

variable {d : PlanDigests} {base : VerificationPlan} {templates : InsertionMap String PlannedCheck}
  {impactedScopes : List String}

theorem mergeChecks_spec {checks : List PlannedCheck} {additions : InsertionMap String PlannedCheck}
    (hchecks : (checks.map checkId).Nodup) (hadditions : Keyed additions)
    (hapart : ∀ check ∈ checks, additions.get? check.checkId = none) :
    (mergeChecks checks additions).Pairwise (fun a b => a.checkId < b.checkId) ∧
      ∀ check, check ∈ mergeChecks checks additions ↔
        check ∈ checks ∨ additions.get? check.checkId = some check := by
  have hvalues : ((orderBy checkId additions.values).map checkId).Nodup := by
    apply nodup_orderBy
    rw [hadditions.ids]
    exact hadditions.distinct
  have hdistinct : ((checks ++ orderBy checkId additions.values).map
      checkId).Nodup := by
    rw [map_append]
    apply hchecks.append hvalues
    intro id hcheck haddition
    obtain ⟨check, hmem, rfl⟩ := mem_map.mp hcheck
    obtain ⟨added, hadded, hid⟩ := mem_map.mp haddition
    have hget := hadditions.mem_values.mp (mem_orderBy.mp hadded)
    rw [hid, hapart check hmem] at hget
    cases hget
  have hordered := pairwise_orderBy hdistinct
  have hmerged : mergeChecks checks additions = orderBy checkId
      (checks ++ orderBy checkId additions.values) := by
    apply destutter_of_isChain
    exact (hordered.imp fun hlt => ne_of_lt hlt).isChain
  rw [hmerged]
  refine ⟨hordered, ?_⟩
  intro check
  rw [mem_orderBy, mem_append, mem_orderBy, hadditions.mem_values]

structure Overlaid (base : VerificationPlan) (templates : InsertionMap String PlannedCheck)
    (impactedScopes : List String) (snapshot : PolicySnapshot)
    (effective : EffectiveVerificationPlan) : Prop where
  promoted : ∀ policy ∈ snapshot.policies, policy.state = .promoted
  sorted : effective.plan.selectedChecks.Pairwise fun a b => a.checkId < b.checkId
  selected : ∀ check, check ∈ effective.plan.selectedChecks ↔
    check ∈ base.selectedChecks ∨ IsAdded base templates impactedScopes snapshot.policies check
  covered : ∀ policy ∈ snapshot.policies, adds base impactedScopes policy = true →
    ∃ check ∈ effective.plan.selectedChecks, check.checkId = policy.checkId
  unchanged : effective.plan = { base with selectedChecks := effective.plan.selectedChecks }
  baseAssurance : effective.baseAssurance = base.assurance
  baseIds : ∀ id, id ∈ effective.baseCheckIds ↔ ∃ check ∈ base.selectedChecks, check.checkId = id
  addedIds : ∀ id, id ∈ effective.addedCheckIds ↔
    (∃ check ∈ effective.plan.selectedChecks, check.checkId = id) ∧
      ∀ check ∈ base.selectedChecks, check.checkId ≠ id
  addedOnce : effective.addedCheckIds.Nodup
  recorded : effective.application.addedCheckIds = effective.addedCheckIds

theorem nodup_idSet (checks : List PlannedCheck) : (idSet checks).Nodup :=
  (perm_insertionSort _ _).nodup_iff.mpr (nodup_dedup _)

variable {snapshot : PolicySnapshot} {effective : EffectiveVerificationPlan}

theorem overlaid_of_eq_ok (hdistinct : (base.selectedChecks.map checkId).Nodup)
    (h : applyAdditiveOverlay d base templates impactedScopes snapshot = .ok effective) :
    Overlaid base templates impactedScopes snapshot effective := by
  obtain ⟨additions, hadditions, h₁⟩ := bind_eq_ok.mp h
  obtain ⟨_, -, h₂⟩ := bind_eq_ok.mp h₁
  obtain ⟨_, -, h₃⟩ := bind_eq_ok.mp h₂
  obtain ⟨_, -, h₄⟩ := bind_eq_ok.mp h₃
  obtain ⟨baseDigest, -, h₅⟩ := bind_eq_ok.mp h₄
  obtain ⟨effectiveDigest, -, h₆⟩ := bind_eq_ok.mp h₅
  obtain rfl := pure_eq_ok.mp h₆
  have hempty : Keyed (empty : InsertionMap String PlannedCheck) :=
    ⟨distinct_empty, by simp [empty]⟩
  have hkeyed : Keyed additions := (collectAdditions_eq_ok hempty hadditions).1
  have hapart : ∀ check ∈ base.selectedChecks, additions.get? check.checkId = none := by
    intro check hcheck
    rw [(collectAdditions_eq_ok hempty hadditions).2, get?_empty, Option.none_or,
      findSome?_eq_none_iff]
    intro policy _
    apply if_neg
    intro hpolicy
    exact (adds_iff.mp hpolicy.1).2 check hcheck hpolicy.2.symm
  obtain ⟨hsorted, hmerged⟩ := mergeChecks_spec hdistinct hkeyed hapart
  have hselected : ∀ check, check ∈ mergeChecks base.selectedChecks additions ↔
      check ∈ base.selectedChecks ∨
        IsAdded base templates impactedScopes snapshot.policies check := by
    intro check
    rw [hmerged, get?_collectAdditions hadditions]
  refine ⟨?_, hsorted, hselected, ?_, rfl, rfl, fun id => mem_idSet, ?_, ?_, rfl⟩
  · intro policy hpolicy
    obtain ⟨before, next, hnext⟩ := exists_addPolicy hadditions hpolicy
    exact promoted_of_addPolicy hnext
  · intro policy hpolicy hadds
    obtain ⟨check, hadded, hid⟩ := exists_isAdded hadditions hpolicy hadds
    exact ⟨check, (hselected check).mpr (Or.inr hadded), hid⟩
  · intro id
    simp only [mem_filter, mem_idSet, Bool.not_eq_true', contains_eq_mem,
      decide_eq_false_iff_not, not_exists, not_and, ne_eq]
  · exact (nodup_idSet _).filter _

/-- The policies that add a check under one id add the same one. -/
def Agree (base : VerificationPlan) (impactedScopes : List String)
    (policies : List PromotedPolicy) : Prop :=
  ∀ p ∈ policies, ∀ q ∈ policies, adds base impactedScopes p = true →
    adds base impactedScopes q = true → p.checkId = q.checkId → p.templateDigest = q.templateDigest

theorem Overlaid.mono {larger : PolicySnapshot} {after : EffectiveVerificationPlan}
    {others : InsertionMap String PlannedCheck}
    (h : Overlaid base templates impactedScopes snapshot effective)
    (hafter : Overlaid base others impactedScopes larger after)
    (hlarger : snapshot.policies ⊆ larger.policies) {check : PlannedCheck}
    (hcheck : check ∈ effective.plan.selectedChecks) :
    ∃ kept ∈ after.plan.selectedChecks, kept.checkId = check.checkId := by
  cases (h.selected check).mp hcheck with
  | inl hbase => exact ⟨check, (hafter.selected check).mpr (Or.inl hbase), rfl⟩
  | inr hadded =>
    obtain ⟨earlier, policy, later, heq, hadds, hid, -, -⟩ := hadded
    have hpolicy : policy ∈ larger.policies := by
      apply hlarger
      rw [heq]
      simp
    obtain ⟨kept, hkept, hsame⟩ := hafter.covered policy hpolicy hadds
    exact ⟨kept, hkept, hsame.trans hid⟩

theorem Overlaid.keeps {larger : PolicySnapshot} {after : EffectiveVerificationPlan}
    {others : InsertionMap String PlannedCheck}
    (h : Overlaid base templates impactedScopes snapshot effective)
    (hafter : Overlaid base others impactedScopes larger after)
    (hlarger : snapshot.policies ⊆ larger.policies)
    (hothers : ∀ digest check, templates.get? digest = some check → others.get? digest = some check)
    (hagree : Agree base impactedScopes larger.policies) :
    effective.plan.selectedChecks ⊆ after.plan.selectedChecks := by
  intro check hcheck
  obtain ⟨kept, hkept, hid⟩ := h.mono hafter hlarger hcheck
  cases (h.selected check).mp hcheck with
  | inl hbase => exact (hafter.selected check).mpr (Or.inl hbase)
  | inr hadded =>
    obtain ⟨earlier, policy, later, heq, hadds, hpolicyId, htemplate, -⟩ := hadded
    have hpolicy : policy ∈ larger.policies := by
      apply hlarger
      rw [heq]
      simp
    cases (hafter.selected kept).mp hkept with
    | inl hbase =>
      have hnot := (adds_iff.mp hadds).2 kept hbase
      exact absurd (hid.trans hpolicyId.symm) hnot
    | inr hadded' =>
      obtain ⟨before, first, rest, hsplit, hfirst, hfirstId, hfirstTemplate, -⟩ := hadded'
      have hmem : first ∈ larger.policies := by
        rw [hsplit]
        simp
      have hsameId : policy.checkId = first.checkId := by
        rw [hpolicyId, hfirstId, hid]
      have hdigest := hagree policy hpolicy first hmem hadds hfirst hsameId
      rw [← hdigest, hothers _ _ htemplate] at hfirstTemplate
      obtain rfl := Option.some.inj hfirstTemplate
      exact hkept

/-- The overlay keeps the base plan and adds the checks of its policies, in every larger snapshot
too. -/
theorem applyAdditiveOverlay_additive {snapshot : PolicySnapshot}
    {effective : EffectiveVerificationPlan}
    (hdistinct : (base.selectedChecks.map checkId).Nodup)
    (h : applyAdditiveOverlay d base templates impactedScopes snapshot = .ok effective) :
    Overlaid base templates impactedScopes snapshot effective ∧
      ∀ larger others after, snapshot.policies ⊆ larger.policies →
        applyAdditiveOverlay d base others impactedScopes larger = .ok after →
          (∀ check ∈ effective.plan.selectedChecks,
            ∃ kept ∈ after.plan.selectedChecks, kept.checkId = check.checkId) ∧
          ((∀ digest check, templates.get? digest = some check →
              others.get? digest = some check) →
            Agree base impactedScopes larger.policies →
              effective.plan.selectedChecks ⊆ after.plan.selectedChecks) := by
  have hoverlaid := overlaid_of_eq_ok hdistinct h
  refine ⟨hoverlaid, ?_⟩
  intro larger others after hlarger hafter
  have hoverlaid' := overlaid_of_eq_ok hdistinct hafter
  exact ⟨fun check => hoverlaid.mono hoverlaid' hlarger, hoverlaid.keeps hoverlaid' hlarger⟩

def plainPlanDigests : PlanDigests where
  toSnapshotDigests := PolicyApplications.plainSnapshotDigests
  canonicalPlan := fun plan => String.intercalate "," (plan.selectedChecks.map (·.checkId))
  planNumbers := fun _ => []

def learnedTemplate (scope : String) : PlannedCheck where
  checkId := "unit"
  displayName := "unit tests"
  kind := .unitTest
  scope := scope
  reason := "learned additive policy check for scope " ++ scope
  selection := .policyWidening
  strength := .structural
  evidence := ""
  wideningReason := some "learned_policy_add_check"
  mandatory := true

/-- The policy that a scope of this name promotes for the unit tests. -/
def learnedPolicy (scope : String) : PromotedPolicy :=
  let policy : PromotedPolicy := {
    policyId := ""
    policyContractVersion := policyContractVersion
    candidateId := "polcand_" ++ scope
    action := .addCheck
    trigger := { kind := "scope", scope := scope }
    checkId := "unit"
    templateDigest := computeTemplateDigest plainPlanDigests.toDigests (learnedTemplate scope)
    candidateDigest := "candidate"
    promotionPolicyDigest := "policy"
    promotedPolicyDigest := ""
    state := .promoted
    promotedAtMs := 1
    revokedAtMs := none
    revokeReason := none }
  { policy with
    policyId := expectedPolicyId plainPlanDigests.toSnapshotDigests policy
    promotedPolicyDigest := expectedPolicyDigest plainPlanDigests.toSnapshotDigests policy }

def lintPlan : VerificationPlan where
  assurance := .exact
  changed := []
  impactedTargets := []
  selectedChecks := [{ learnedTemplate "web" with
    checkId := "lint"
    selection := .mandatoryCheck
    wideningReason := none }]
  uncertainty := []
  unresolvedObligations := []

def learnedTemplates : InsertionMap String PlannedCheck :=
  ["core", "web"].foldl (fun templates scope =>
    templates.set (learnedPolicy scope).templateDigest (learnedTemplate scope)) empty

def overlayOf (scopes : List String) : Except String EffectiveVerificationPlan := do
  let snapshot ← activePolicySnapshot plainPlanDigests.toSnapshotDigests
    { PolicyDatabase.empty with
      policies := scopes.foldl (fun policies scope =>
        policies.insertOrIgnore (learnedPolicy scope)) Table.empty }
  applyAdditiveOverlay plainPlanDigests lintPlan learnedTemplates ["core", "web"] snapshot

/-- The policy of one more scope takes the check of another out of the effective plan. -/
theorem learned_check_displaced : ∃ effective after,
    overlayOf ["web"] = .ok effective ∧ overlayOf ["core", "web"] = .ok after ∧
      learnedTemplate "web" ∈ effective.plan.selectedChecks ∧
      learnedTemplate "web" ∉ after.plan.selectedChecks := by
  have hweb : (overlayOf ["web"]).toOption.any (fun effective =>
      decide (learnedTemplate "web" ∈ effective.plan.selectedChecks)) = true := by decide +kernel
  have hboth : (overlayOf ["core", "web"]).toOption.any (fun after =>
      decide (learnedTemplate "web" ∉ after.plan.selectedChecks)) = true := by decide +kernel
  obtain ⟨effective, heffective, hmem⟩ := exists_of_toOption hweb
  obtain ⟨after, hafter, hnot⟩ := exists_of_toOption hboth
  exact ⟨effective, after, heffective, hafter, of_decide_eq_true hmem, of_decide_eq_true hnot⟩

/-- With the policies of both scopes the plan gains the check of the first. -/
theorem additive_lintPlan : ∃ snapshot effective,
    applyAdditiveOverlay plainPlanDigests lintPlan learnedTemplates ["core", "web"] snapshot =
      .ok effective ∧
    snapshot.policies = [learnedPolicy "core", learnedPolicy "web"] ∧
    Overlaid lintPlan learnedTemplates ["core", "web"] snapshot effective := by
  have hboth : (applyAdditiveOverlay plainPlanDigests lintPlan learnedTemplates ["core", "web"]
      ⟨[learnedPolicy "core", learnedPolicy "web"], "snapshot"⟩).toOption.any (fun _ => true) =
        true := by decide +kernel
  obtain ⟨effective, heffective, -⟩ := exists_of_toOption hboth
  exact ⟨_, effective, heffective, rfl, (applyAdditiveOverlay_additive (by decide) heffective).1⟩

end EffectivePlan

end AdditiveOverlay
