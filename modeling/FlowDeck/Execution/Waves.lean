import FlowDeck.Execution.RunReady

namespace Waves

open ExecutionContracts PlanRepository ExecutionScheduler Propagation RunReady Wavefront.Cut List

section Describes

variable (origin : ExecutionPlan)

def Planned (id : String) : Prop := origin.statusOf id = some .planned

/-- The workstreams that have failed: they had before, or were reached and failed since. -/
def Broken (reached fails : String → Prop) (id : String) : Prop :=
  unavailable origin id = true ∨ reached id ∧ fails id

abbrev CutOff (reached fails : String → Prop) : String → Prop :=
  Wavefront.Cut (fun id d => d ∈ origin.depsOf id) (Planned origin) (Broken origin reached fails)

/-- How the rows of a plan stand against the plan that the run started from: what was reached has
ended, what was `cut` is blocked, and everything else is as it was. -/
structure Describes (reached fails cut : String → Prop) (plan : ExecutionPlan) : Prop where
  deps : ∀ id, plan.depsOf id = origin.depsOf id
  apart : ∀ id, ¬Planned origin id → plan.statusOf id = origin.statusOf id
  planned : ∀ id, reached id → Planned origin id
  passed : ∀ id, reached id → ¬fails id → satisfied plan id = true
  failed : ∀ id, reached id → fails id → plan.statusOf id = some .failed
  blocked : ∀ id, Planned origin id → ¬reached id → cut id → plan.statusOf id = some .blocked
  waiting : ∀ id, Planned origin id → ¬reached id → ¬cut id → plan.statusOf id = some .planned
  cutOff : ∀ id, cut id → CutOff origin reached fails id
  clear : ∀ id, reached id → ∀ d ∈ origin.depsOf id, ¬CutOff origin reached fails d

variable {origin} {reached fails cut : String → Prop} {plan plan' : ExecutionPlan}

variable {id : String}

theorem satisfied_iff : satisfied plan id = true ↔
    plan.statusOf id = some .succeeded ∨ plan.statusOf id = some .integrated := by
  unfold satisfied
  simp

theorem Planned.not_unavailable (h : Planned origin id) : ¬unavailable origin id = true := by
  intro hun
  obtain ⟨status, hstatus, hcases⟩ := unavailable_iff.mp hun
  rw [h] at hstatus
  obtain rfl := Option.some.inj hstatus
  simp at hcases

theorem Planned.not_satisfied (h : Planned origin id) : ¬satisfied origin id = true := by
  intro hsatisfied
  unfold Planned at h
  rcases satisfied_iff.mp hsatisfied with hs | hs
  · rw [h] at hs
    cases hs
  · rw [h] at hs
    cases hs

theorem not_unavailable_of_satisfied (h : satisfied plan id = true) :
    ¬unavailable plan id = true := by
  intro hun
  obtain ⟨status, hstatus, hcases⟩ := unavailable_iff.mp hun
  rcases satisfied_iff.mp h with hs | hs
  · rw [hs] at hstatus
    obtain rfl := Option.some.inj hstatus
    simp at hcases
  · rw [hs] at hstatus
    obtain rfl := Option.some.inj hstatus
    simp at hcases

theorem unavailable_congr (h : plan.statusOf id = plan'.statusOf id) :
    unavailable plan id = unavailable plan' id := by
  unfold unavailable
  rw [h]

theorem satisfied_congr (h : plan.statusOf id = plan'.statusOf id) :
    satisfied plan id = satisfied plan' id := by
  unfold satisfied
  rw [h]

namespace Describes

variable (h : Describes origin reached fails cut plan)

include h

theorem satisfied_iff {d : String} :
    satisfied plan d = true ↔ satisfied origin d = true ∨ reached d ∧ ¬fails d := by
  constructor
  · intro hd
    by_cases hplanned : Planned origin d
    · by_cases hreached : reached d
      · refine Or.inr ⟨hreached, ?_⟩
        intro hfails
        have hstatus := h.failed d hreached hfails
        simp [satisfied, hstatus] at hd
      · by_cases hcut : cut d
        · have hstatus := h.blocked d hplanned hreached hcut
          simp [satisfied, hstatus] at hd
        · have hstatus := h.waiting d hplanned hreached hcut
          simp [satisfied, hstatus] at hd
    · rw [satisfied_congr (h.apart d hplanned)] at hd
      exact Or.inl hd
  · rintro (hd | ⟨hreached, hpasses⟩)
    · rw [satisfied_congr (h.apart d fun hplanned => hplanned.not_satisfied hd)]
      exact hd
    · exact h.passed d hreached hpasses

variable {id : String}

theorem ready_iff : plan.statusOf id = some .ready ↔ origin.statusOf id = some .ready := by
  by_cases hplanned : Planned origin id
  · have hnot : origin.statusOf id ≠ some .ready := by
      rw [hplanned]
      simp
    refine iff_of_false ?_ hnot
    by_cases hreached : reached id
    · by_cases hfails : fails id
      · rw [h.failed id hreached hfails]
        simp
      · rcases Waves.satisfied_iff.mp (h.passed id hreached hfails) with hs | hs
        · rw [hs]
          simp
        · rw [hs]
          simp
    · by_cases hcut : cut id
      · rw [h.blocked id hplanned hreached hcut]
        simp
      · rw [h.waiting id hplanned hreached hcut]
        simp
  · rw [h.apart id hplanned]

theorem planned_iff :
    plan.statusOf id = some .planned ↔ Planned origin id ∧ ¬reached id ∧ ¬cut id := by
  constructor
  · intro hstatus
    by_cases hplanned : Planned origin id
    · refine ⟨hplanned, ?_, ?_⟩
      · intro hreached
        by_cases hfails : fails id
        · rw [h.failed id hreached hfails] at hstatus
          cases hstatus
        · rcases Waves.satisfied_iff.mp (h.passed id hreached hfails) with hs | hs
          · rw [hs] at hstatus
            cases hstatus
          · rw [hs] at hstatus
            cases hstatus
      · intro hcut
        by_cases hreached : reached id
        · by_cases hfails : fails id
          · rw [h.failed id hreached hfails] at hstatus
            cases hstatus
          · rcases Waves.satisfied_iff.mp (h.passed id hreached hfails) with hs | hs
            · rw [hs] at hstatus
              cases hstatus
            · rw [hs] at hstatus
              cases hstatus
        · rw [h.blocked id hplanned hreached hcut] at hstatus
          cases hstatus
    · rw [h.apart id hplanned] at hstatus
      exact absurd hstatus hplanned
  · rintro ⟨hplanned, hreached, hcut⟩
    exact h.waiting id hplanned hreached hcut

theorem unavailable_iff : unavailable plan id = true ↔
    Broken origin reached fails id ∨ Planned origin id ∧ ¬reached id ∧ cut id := by
  constructor
  · intro hun
    by_cases hplanned : Planned origin id
    · by_cases hreached : reached id
      · by_cases hfails : fails id
        · exact Or.inl (Or.inr ⟨hreached, hfails⟩)
        · exact absurd hun (not_unavailable_of_satisfied (h.passed id hreached hfails))
      · by_cases hcut : cut id
        · exact Or.inr ⟨hplanned, hreached, hcut⟩
        · have hstatus := h.waiting id hplanned hreached hcut
          simp [unavailable, hstatus] at hun
    · rw [unavailable_congr (h.apart id hplanned)] at hun
      exact Or.inl (Or.inl hun)
  · rintro ((hun | ⟨hreached, hfails⟩) | ⟨hplanned, hreached, hcut⟩)
    · rw [unavailable_congr (h.apart id fun hplanned => hplanned.not_unavailable hun)]
      exact hun
    · simp [unavailable, h.failed id hreached hfails]
    · simp [unavailable, h.blocked id hplanned hreached hcut]

theorem lost_iff : Lost plan id ↔ CutOff origin reached fails id := by
  constructor
  · intro hlost
    induction hlost with
    | broken hun =>
      rcases h.unavailable_iff.mp hun with hbroken | ⟨_, _, hcut⟩
      · exact broken hbroken
      · exact h.cutOff _ hcut
    | behind hstatus hdep _ ih =>
      rw [h.deps] at hdep
      exact behind (h.planned_iff.mp hstatus).1 hdep ih
  · intro hcutOff
    induction hcutOff with
    | broken hbroken => exact broken (h.unavailable_iff.mpr (Or.inl hbroken))
    | @behind id d hplanned hdep hcutOff ih =>
      by_cases hreached : reached id
      · exact absurd hcutOff (h.clear id hreached d hdep)
      · by_cases hcut : cut id
        · exact broken
            (h.unavailable_iff.mpr (Or.inr ⟨hplanned, hreached, hcut⟩))
        · refine behind (h.waiting id hplanned hreached hcut) ?_ ih
          rw [h.deps]
          exact hdep

/-- Propagation blocks exactly what is cut off. -/
theorem settle (hsettles : Settles plan plan') :
    Describes origin reached fails (CutOff origin reached fails) plan' where
  deps id := by rw [hsettles.deps, h.deps]
  apart id hplanned := by
    rw [hsettles.kept, h.apart id hplanned]
    rintro ⟨hstatus, _⟩
    exact hplanned (h.planned_iff.mp hstatus).1
  planned := h.planned
  passed id hreached hpasses := by
    rw [satisfied_congr (hsettles.kept id _)]
    · exact h.passed id hreached hpasses
    · rintro ⟨hstatus, _⟩
      exact (h.planned_iff.mp hstatus).2.1 hreached
  failed id hreached hfails := by
    rw [hsettles.kept, h.failed id hreached hfails]
    rintro ⟨hstatus, _⟩
    exact (h.planned_iff.mp hstatus).2.1 hreached
  blocked id hplanned hreached hcutOff := by
    by_cases hcut : cut id
    · rw [hsettles.kept, h.blocked id hplanned hreached hcut]
      rintro ⟨hstatus, _⟩
      exact (h.planned_iff.mp hstatus).2.2 hcut
    · exact hsettles.blocked id (h.waiting id hplanned hreached hcut) (h.lost_iff.mpr hcutOff)
  waiting id hplanned hreached hnot := by
    rw [hsettles.kept]
    · exact h.waiting id hplanned hreached fun hcut => hnot (h.cutOff id hcut)
    · rintro ⟨_, hlost⟩
      exact hnot (h.lost_iff.mp hlost)
  cutOff _ hcut := hcut
  clear := h.clear

theorem readyUnaffected_iff : ReadyUnaffected plan ↔
    ∀ id, origin.statusOf id = some .ready → ∀ d ∈ origin.depsOf id,
      ¬CutOff origin reached fails d := by
  unfold ReadyUnaffected
  simp only [h.ready_iff, h.deps, h.lost_iff]

theorem advance {reached' fails' : String → Prop} (moved : String → Prop)
    (hdeps : ∀ id, plan'.depsOf id = plan.depsOf id)
    (hsame : ∀ id, ¬moved id → plan'.statusOf id = plan.statusOf id)
    (hplanned : ∀ id, reached' id → Planned origin id)
    (hpassed : ∀ id, moved id → ¬fails' id → satisfied plan' id = true)
    (hfailed : ∀ id, moved id → fails' id → plan'.statusOf id = some .failed)
    (hmoved : ∀ id, moved id → reached' id)
    (hkept : ∀ id, ¬moved id → (reached' id ↔ reached id) ∧ (reached id → (fails' id ↔ fails id)))
    (hstays : ∀ id, reached id → reached' id ∧ (fails id → fails' id))
    (hclear : ∀ id, reached' id → ∀ d ∈ origin.depsOf id, ¬CutOff origin reached' fails' d) :
    Describes origin reached' fails' cut plan' where
  deps id := by rw [hdeps, h.deps]
  apart id hnot := by
    rw [hsame id fun hm => hnot (hplanned id (hmoved id hm)), h.apart id hnot]
  planned := hplanned
  passed id hreached hpasses := by
    by_cases hm : moved id
    · exact hpassed id hm hpasses
    · obtain ⟨hr, hf⟩ := hkept id hm
      rw [satisfied_congr (hsame id hm)]
      exact h.passed id (hr.mp hreached) fun hfails => hpasses ((hf (hr.mp hreached)).mpr hfails)
  failed id hreached hfails := by
    by_cases hm : moved id
    · exact hfailed id hm hfails
    · obtain ⟨hr, hf⟩ := hkept id hm
      rw [hsame id hm]
      exact h.failed id (hr.mp hreached) ((hf (hr.mp hreached)).mp hfails)
  blocked id hpl hreached hcut := by
    rw [hsame id fun hm => hreached (hmoved id hm)]
    exact h.blocked id hpl (fun hr => hreached (hstays id hr).1) hcut
  waiting id hpl hreached hcut := by
    rw [hsame id fun hm => hreached (hmoved id hm)]
    exact h.waiting id hpl (fun hr => hreached (hstays id hr).1) hcut
  cutOff id hcut := by
    apply (h.cutOff id hcut).mono
    rintro j (hun | ⟨hreached, hfails⟩)
    · exact broken (Or.inl hun)
    · exact broken (Or.inr ⟨(hstays j hreached).1, (hstays j hreached).2 hfails⟩)
  clear := hclear

/-- Only the rows count. -/
theorem congr (hrows : plan'.workstreams = plan.workstreams) {cut' : String → Prop}
    (hcut : ∀ id, cut' id ↔ cut id) : Describes origin reached fails cut' plan' := by
  have hstatus : ∀ id, plan'.statusOf id = plan.statusOf id := by
    intro id
    unfold ExecutionPlan.statusOf
    rw [hrows]
  have hdeps : ∀ id, plan'.depsOf id = plan.depsOf id := by
    intro id
    unfold ExecutionPlan.depsOf
    rw [hrows]
  constructor
  · intro id
    rw [hdeps, h.deps]
  · intro id hnot
    rw [hstatus, h.apart id hnot]
  · exact h.planned
  · intro id hreached hpasses
    rw [satisfied_congr (hstatus id)]
    exact h.passed id hreached hpasses
  · intro id hreached hfails
    rw [hstatus, h.failed id hreached hfails]
  · intro id hplanned hreached hc
    rw [hstatus, h.blocked id hplanned hreached ((hcut id).mp hc)]
  · intro id hplanned hreached hc
    rw [hstatus, h.waiting id hplanned hreached fun hc' => hc ((hcut id).mpr hc')]
  · intro id hc
    exact h.cutOff id ((hcut id).mp hc)
  · exact h.clear

end Describes

end Describes

section Integration

open WorktreeExecutor

variable {integrates : Bool} {facts : Facts} {plan : ExecutionPlan}

/-- Whether a workstream that has succeeded gets through its integration. -/
def integrationPasses (integrates : Bool) (facts : Facts) (plan : ExecutionPlan) (id : String) :
    Bool :=
  if integrates then
    facts.verified id && decide (id ∉ plan.integratedAttempts) && (facts.merge id).isNone
  else (facts.record id).isNone

/-- What an integration changes: nothing but its own workstream. -/
structure Integrates (integrates : Bool) (facts : Facts) (ids : List String)
    (plan plan' : ExecutionPlan) : Prop where
  planStatus : plan'.status = plan.status
  deps : ∀ id, plan'.depsOf id = plan.depsOf id
  others : ∀ id ∉ ids, plan'.statusOf id = plan.statusOf id
  attempts : ∀ id ∉ ids, id ∈ plan'.integratedAttempts ↔ id ∈ plan.integratedAttempts
  passed : ∀ id ∈ ids, integrationPasses integrates facts plan id = true →
    satisfied plan' id = true
  failed : ∀ id ∈ ids, integrationPasses integrates facts plan id = false →
    plan'.statusOf id = some .failed

variable {id : String}

theorem failIntegration_of_succeeded (hstatus : plan.statusOf id = some .succeeded) :
    failIntegration id plan = .ok ⟨⟩ (moveTo (moveTo plan id .integration_pending none []) id .failed
      (some "INTEGRATION_FAILED") []) := by
  have hunfold : failIntegration id plan = (if plan.statusOf id = some .succeeded then do
      transitionWorkstream id .integration_pending none []
      transitionWorkstream id .failed (some "INTEGRATION_FAILED") []
    else pure () : PlanM Unit) plan := rfl
  rw [hunfold, if_pos hstatus, Fallible.bind_ok (transitionWorkstream_of_statusOf hstatus (by decide))]
  exact transitionWorkstream_of_statusOf (statusOf_moveTo_self hstatus) (by decide)

theorem failIntegration_of_integrated (hstatus : plan.statusOf id = some .integrated) :
    failIntegration id plan = .ok ⟨⟩ plan := by
  have hunfold : failIntegration id plan = (if plan.statusOf id = some .succeeded then do
      transitionWorkstream id .integration_pending none []
      transitionWorkstream id .failed (some "INTEGRATION_FAILED") []
    else pure () : PlanM Unit) plan := rfl
  rw [hunfold, if_neg (by rw [hstatus]; simp)]
  rfl

/-- An attempt that fails before it has changed anything leaves the workstream failed. -/
theorem integrates_of_refused (hstatus : plan.statusOf id = some .succeeded)
    (hfails : integrationPasses integrates facts plan id = false) {error : String}
    (hrefused : tryIntegration integrates facts id plan = .error error plan) :
    ∃ plan', integrateOne integrates facts id plan = .ok false plan' ∧
      Integrates integrates facts [id] plan plan' := by
  refine ⟨moveTo (moveTo plan id .integration_pending none []) id .failed
    (some "INTEGRATION_FAILED") [], ?_, ?_⟩
  · unfold integrateOne
    rw [hrefused]
    exact Fallible.bind_ok (failIntegration_of_succeeded hstatus)
  · constructor
    · rfl
    · intro other
      rw [depsOf_moveTo, depsOf_moveTo]
    · intro other hne
      rw [mem_singleton] at hne
      rw [statusOf_moveTo_ne hne, statusOf_moveTo_ne hne]
    · intro other _
      rfl
    · intro other hmem hpasses
      obtain rfl := mem_singleton.mp hmem
      rw [hpasses] at hfails
      cases hfails
    · intro other hmem _
      obtain rfl := mem_singleton.mp hmem
      exact statusOf_moveTo_self (statusOf_moveTo_self hstatus)

/-- The plan once a merge is on record and the workstream has become integrated. -/
def merged (plan : ExecutionPlan) (id : String) : ExecutionPlan :=
  moveTo (moveTo { plan with integratedAttempts := plan.integratedAttempts ++ [id] } id
    .integration_pending none []) id .integrated none []

theorem integrate_of_merge (hstatus : plan.statusOf id = some .succeeded)
    (hfresh : id ∉ plan.integratedAttempts) : integrate id none plan = .ok ⟨⟩ (merged plan id) := by
  have hunfold : integrate id none plan = (do
      recordIntegration id
      transitionWorkstream id .integration_pending none []
      transitionWorkstream id .integrated none [] : PlanM Unit) plan := by
    simp [integrate, getPlan, bind, EStateM.bind, hstatus, hfresh]
  have hrecorded : ({ plan with integratedAttempts := plan.integratedAttempts ++ [id] } :
      ExecutionPlan).statusOf id = some .succeeded := hstatus
  have hrecord : recordIntegration id plan =
      .ok ⟨⟩ { plan with integratedAttempts := plan.integratedAttempts ++ [id] } := rfl
  rw [hunfold, Fallible.bind_ok hrecord,
    Fallible.bind_ok (transitionWorkstream_of_statusOf hrecorded (by decide))]
  exact transitionWorkstream_of_statusOf (statusOf_moveTo_self hrecorded) (by decide)

theorem statusOf_merged_self (hstatus : plan.statusOf id = some .succeeded) :
    (merged plan id).statusOf id = some .integrated := by
  have hrecorded : ({ plan with integratedAttempts := plan.integratedAttempts ++ [id] } :
      ExecutionPlan).statusOf id = some .succeeded := hstatus
  exact statusOf_moveTo_self (statusOf_moveTo_self hrecorded)

theorem integrates_merged (hstatus : plan.statusOf id = some .succeeded)
    (hpasses : integrationPasses integrates facts plan id = true) :
    Integrates integrates facts [id] plan (merged plan id) := by
  constructor
  · rfl
  · intro other
    unfold merged
    rw [depsOf_moveTo, depsOf_moveTo]
    rfl
  · intro other hne
    rw [mem_singleton] at hne
    unfold merged
    rw [statusOf_moveTo_ne hne, statusOf_moveTo_ne hne]
    rfl
  · intro other hne
    rw [mem_singleton] at hne
    have hattempts : (merged plan id).integratedAttempts = plan.integratedAttempts ++ [id] := rfl
    rw [hattempts, mem_append, mem_singleton]
    simp [hne]
  · intro other hmem _
    obtain rfl := mem_singleton.mp hmem
    exact satisfied_iff.mpr (Or.inr (statusOf_merged_self hstatus))
  · intro other hmem hfails
    obtain rfl := mem_singleton.mp hmem
    rw [hpasses] at hfails
    cases hfails

theorem Integrates.of_kept (hstatus : plan.statusOf id = some .succeeded)
    (hpasses : integrationPasses integrates facts plan id = true) :
    Integrates integrates facts [id] plan plan := by
  constructor
  · rfl
  · intro other
    rfl
  · intro other _
    rfl
  · intro other _
    rfl
  · intro other hmem _
    obtain rfl := mem_singleton.mp hmem
    exact satisfied_iff.mpr (Or.inl hstatus)
  · intro other hmem hfails
    obtain rfl := mem_singleton.mp hmem
    rw [hpasses] at hfails
    cases hfails

/-- The attempt and its `catch` always go through. -/
theorem integrateOne_spec {id : String} (hstatus : plan.statusOf id = some .succeeded) :
    ∃ kept plan', integrateOne integrates facts id plan = .ok kept plan' ∧
      Integrates integrates facts [id] plan plan' := by
  cases hservice : integrates with
  | false =>
    cases hrecord : facts.record id with
    | none =>
      refine ⟨true, plan, ?_, Integrates.of_kept hstatus (by simp [integrationPasses, hrecord])⟩
      simp [integrateOne, tryIntegration, recordWorkstreamOutcome, pure, EStateM.pure, hrecord]
    | some error =>
      have hrefused : tryIntegration false facts id plan = .error error plan := by
        simp [tryIntegration, recordWorkstreamOutcome, hrecord]
        rfl
      exact ⟨false, integrates_of_refused hstatus (by simp [integrationPasses, hrecord]) hrefused⟩
  | true =>
    by_cases hverified : facts.verified id = true
    · by_cases hfresh : id ∈ plan.integratedAttempts
      · have hrefused : tryIntegration true facts id plan =
            .error "INTEGRATION_ALREADY_COMPLETE" plan := by
          simp [tryIntegration, integrate, getPlan, bind, EStateM.bind, hverified, hstatus, hfresh]
          rfl
        exact ⟨false, integrates_of_refused hstatus (by simp [integrationPasses, hfresh]) hrefused⟩
      · cases hmerge : facts.merge id with
        | some error =>
          have hrefused : tryIntegration true facts id plan = .error error plan := by
            simp [tryIntegration, integrate, getPlan, bind, EStateM.bind, hverified, hstatus,
              hfresh, hmerge]
            rfl
          exact ⟨false, integrates_of_refused hstatus (by simp [integrationPasses, hmerge]) hrefused⟩
        | none =>
          have hpasses : integrationPasses true facts plan id = true := by
            simp [integrationPasses, hverified, hfresh, hmerge]
          have hintegrate := integrate_of_merge hstatus hfresh
          cases hrecord : facts.record id with
          | none =>
            refine ⟨true, merged plan id, ?_, integrates_merged hstatus hpasses⟩
            simp [integrateOne, tryIntegration, recordWorkstreamOutcome, bind, EStateM.bind, pure,
              EStateM.pure, hverified, hmerge, hintegrate, hrecord]
          | some error =>
            refine ⟨false, merged plan id, ?_, integrates_merged hstatus hpasses⟩
            have hrefused : tryIntegration true facts id plan = .error error (merged plan id) := by
              simp [tryIntegration, recordWorkstreamOutcome, bind, EStateM.bind, hverified, hmerge,
                hintegrate, hrecord]
              rfl
            unfold integrateOne
            rw [hrefused]
            exact Fallible.bind_ok (failIntegration_of_integrated (statusOf_merged_self hstatus))
    · have hrefused : tryIntegration true facts id plan =
          .error "VERIFICATION_REQUIRED_BEFORE_INTEGRATION" plan := by
        simp [tryIntegration, bind, EStateM.bind, hverified]
        rfl
      exact ⟨false, integrates_of_refused hstatus (by simp [integrationPasses, hverified]) hrefused⟩

theorem integrationPasses_congr {plan' : ExecutionPlan}
    (h : id ∈ plan'.integratedAttempts ↔ id ∈ plan.integratedAttempts) :
    integrationPasses integrates facts plan' id = integrationPasses integrates facts plan id := by
  unfold integrationPasses
  simp only [h]

/-- Integrating what has succeeded always goes through, and each workstream comes to what it
would have come to alone. -/
theorem integrateAll_spec {ids : List String} (hdistinct : ids.Nodup)
    (hstatus : ∀ id ∈ ids, plan.statusOf id = some .succeeded) (result : SchedulerResult) :
    ∃ result' plan', integrateAll integrates facts ids result plan = .ok result' plan' ∧
      result'.started = result.started ∧ Integrates integrates facts ids plan plan' := by
  induction ids generalizing plan result with
  | nil =>
    refine ⟨result, plan, rfl, rfl, rfl, fun _ => rfl, fun _ _ => rfl, fun _ _ => Iff.rfl, ?_, ?_⟩
    · intro id hmem
      exact absurd hmem not_mem_nil
    · intro id hmem
      exact absurd hmem not_mem_nil
  | cons id ids ih =>
    rw [nodup_cons] at hdistinct
    obtain ⟨kept, mid, hone, hfirst⟩ :=
      @integrateOne_spec integrates facts plan id (hstatus id mem_cons_self)
    have hothers : ∀ other ∈ ids, other ∉ [id] := by
      intro other hmem hsame
      rw [mem_singleton] at hsame
      exact hdistinct.1 (hsame ▸ hmem)
    have hrest : ∀ other ∈ ids, mid.statusOf other = some .succeeded := by
      intro other hmem
      rw [hfirst.others other (hothers other hmem)]
      exact hstatus other (mem_cons_of_mem _ hmem)
    have hunfold : integrateAll integrates facts (id :: ids) result plan =
        (if kept then integrateAll integrates facts ids result
        else integrateAll integrates facts ids
          { result with
            succeeded := result.succeeded.filter fun other => decide (other ≠ id)
            failed := result.failed ++ [id] } : PlanM SchedulerResult) mid :=
      Fallible.bind_ok hone
    have htail : ∃ result' plan', integrateAll integrates facts (id :: ids) result plan =
        .ok result' plan' ∧ result'.started = result.started ∧
          Integrates integrates facts ids mid plan' := by
      rw [hunfold]
      cases kept with
      | true => exact ih hdistinct.2 hrest result
      | false => exact ih hdistinct.2 hrest _
    obtain ⟨result', plan', hok, hstarted, hsecond⟩ := htail
    refine ⟨result', plan', hok, hstarted, ?_⟩
    have hsame : ∀ other ∈ ids, integrationPasses integrates facts mid other =
        integrationPasses integrates facts plan other := fun other hmem =>
      integrationPasses_congr (hfirst.attempts other (hothers other hmem))
    constructor
    · rw [hsecond.planStatus, hfirst.planStatus]
    · intro other
      rw [hsecond.deps, hfirst.deps]
    · intro other hnot
      rw [mem_cons, not_or] at hnot
      rw [hsecond.others other hnot.2, hfirst.others other (by simpa using hnot.1)]
    · intro other hnot
      rw [mem_cons, not_or] at hnot
      rw [hsecond.attempts other hnot.2, hfirst.attempts other (by simpa using hnot.1)]
    · intro other hmem hpasses
      rcases mem_cons.mp hmem with rfl | hmem
      · rw [satisfied_congr (hsecond.others other hdistinct.1)]
        exact hfirst.passed other mem_cons_self hpasses
      · exact hsecond.passed other hmem (by rw [hsame other hmem, hpasses])
    · intro other hmem hfails
      rcases mem_cons.mp hmem with rfl | hmem
      · rw [hsecond.others other hdistinct.1]
        exact hfirst.failed other mem_cons_self hfails
      · exact hsecond.failed other hmem (by rw [hsame other hmem, hfails])

end Integration

end Waves
