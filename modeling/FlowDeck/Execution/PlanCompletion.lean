import FlowDeck.Execution.Dependencies
import FlowDeck.Execution.WaveRun

namespace PlanCompletion

open ExecutionContracts PlanRepository ExecutionScheduler Propagation RunReady WorktreeExecutor
open Fallible
open Waves WaveRun

theorem all_rows_iff {plan : ExecutionPlan} {f : ExecutionWorkstreamStatus → Bool} :
    (plan.workstreams.rows.all fun w => f w.status) = true ↔
      ∀ id status, plan.statusOf id = some status → f status = true := by
  rw [List.all_eq_true]
  constructor
  · intro hall id status hstatus
    obtain ⟨w, hw, _, rfl⟩ := exists_row_of_statusOf hstatus
    exact hall w hw
  · intro hall w hw
    exact hall w.workstreamId w.status (statusOf_of_mem hw)

theorem any_fellThrough_iff {plan : ExecutionPlan} :
    (plan.workstreams.rows.any fun w => fellThrough w.status) = true ↔
      ∃ id, unavailable plan id = true := by
  rw [List.any_eq_true]
  constructor
  · rintro ⟨w, hw, hfell⟩
    refine ⟨w.workstreamId, unavailable_iff.mpr ⟨w.status, statusOf_of_mem hw, ?_⟩⟩
    cases hstatus : w.status <;> simp [fellThrough, hstatus] at hfell ⊢
  · rintro ⟨id, hun⟩
    obtain ⟨status, hstatus, hcases⟩ := unavailable_iff.mp hun
    obtain ⟨w, hw, _, rfl⟩ := exists_row_of_statusOf hstatus
    refine ⟨w, hw, ?_⟩
    rcases hcases with h | h | h
    · rw [h]
      rfl
    · rw [h]
      rfl
    · rw [h]
      rfl

section Describes

variable {origin plan : ExecutionPlan} {reached fails cut : String → Prop}
  (h : Describes origin reached fails cut plan)

include h

theorem status_of_reached {id : String} (hreached : reached id) :
    (¬fails id ∧ (plan.statusOf id = some .succeeded ∨ plan.statusOf id = some .integrated)) ∨
      fails id ∧ plan.statusOf id = some .failed := by
  by_cases hfails : fails id
  · exact Or.inr ⟨hfails, h.failed id hreached hfails⟩
  · exact Or.inl ⟨hfails, Waves.satisfied_iff.mp (h.passed id hreached hfails)⟩

theorem ended_iff :
    (∀ id status, plan.statusOf id = some status → ended status = true) ↔
      (∀ id status, origin.statusOf id = some status → status ≠ .planned → ended status = true) ∧
        ∀ id, Planned origin id → reached id ∨ cut id := by
  constructor
  · intro hended
    constructor
    · intro id status hstatus hne
      apply hended id status
      rw [h.apart id, hstatus]
      intro hplanned
      rw [hplanned] at hstatus
      exact hne (Option.some.inj hstatus).symm
    · intro id hplanned
      by_contra hnot
      rw [not_or] at hnot
      have himpossible := hended id .planned (h.waiting id hplanned hnot.1 hnot.2)
      cases himpossible
  · rintro ⟨hapart, hplanned⟩ id status hstatus
    by_cases hp : Planned origin id
    · by_cases hreached : reached id
      · rcases status_of_reached h hreached with ⟨_, hs | hs⟩ | ⟨_, hs⟩
        · rw [hs] at hstatus
          obtain rfl := Option.some.inj hstatus
          rfl
        · rw [hs] at hstatus
          obtain rfl := Option.some.inj hstatus
          rfl
        · rw [hs] at hstatus
          obtain rfl := Option.some.inj hstatus
          rfl
      · have hcut := (hplanned id hp).resolve_left hreached
        rw [h.blocked id hp hreached hcut] at hstatus
        obtain rfl := Option.some.inj hstatus
        rfl
    · rw [h.apart id hp] at hstatus
      apply hapart id status hstatus
      rintro rfl
      exact hp hstatus

theorem fell_iff : (∃ id, unavailable plan id = true) ↔ ∃ id, Broken origin reached fails id := by
  constructor
  · rintro ⟨id, hun⟩
    rcases h.unavailable_iff.mp hun with hbroken | ⟨_, _, hcut⟩
    · exact ⟨id, hbroken⟩
    · exact (h.cutOff id hcut).exists_broken
  · rintro ⟨id, hbroken⟩
    exact ⟨id, h.unavailable_iff.mpr (Or.inl hbroken)⟩

theorem completed_iff :
    (∀ id status, plan.statusOf id = some status → completed status = true) ↔
      ∀ id status, origin.statusOf id = some status →
        completed status = true ∨ status = .planned ∧ reached id ∧ ¬fails id := by
  constructor
  · intro hall id status hstatus
    by_cases hp : Planned origin id
    · have hplanned : status = .planned := by
        rw [hp] at hstatus
        exact (Option.some.inj hstatus).symm
      refine Or.inr ⟨hplanned, ?_⟩
      by_cases hreached : reached id
      · rcases status_of_reached h hreached with ⟨hpasses, _⟩ | ⟨_, hs⟩
        · exact ⟨hreached, hpasses⟩
        · exact absurd (hall id .failed hs) (by decide)
      · by_cases hcut : cut id
        · exact absurd (hall id .blocked (h.blocked id hp hreached hcut)) (by decide)
        · exact absurd (hall id .planned (h.waiting id hp hreached hcut)) (by decide)
    · rw [← h.apart id hp] at hstatus
      exact Or.inl (hall id status hstatus)
  · intro hall id status hstatus
    by_cases hp : Planned origin id
    · rcases hall id .planned hp with hcompleted | ⟨_, hreached, hpasses⟩
      · cases hcompleted
      · rcases status_of_reached h hreached with ⟨_, hs | hs⟩ | ⟨hfails, _⟩
        · rw [hs] at hstatus
          obtain rfl := Option.some.inj hstatus
          rfl
        · rw [hs] at hstatus
          obtain rfl := Option.some.inj hstatus
          rfl
        · exact absurd hfails hpasses
    · rw [h.apart id hp] at hstatus
      rcases hall id status hstatus with hcompleted | ⟨rfl, _⟩
      · exact hcompleted
      · exact absurd hstatus hp

end Describes

section Runs

variable (integrates : Bool) (facts : Facts) (origin : ExecutionPlan)

/-- A wave has something to dispatch. -/
def Runs (n : Nat) : Prop :=
  ∃ id, ReachedBy integrates facts origin (n + 1) id ∧ ¬ReachedBy integrates facts origin n id

/-- When `runReady` ends in a wave everything has ended, and not everything well. -/
def FailsAt (n : Nat) : Prop :=
  (∀ id status, origin.statusOf id = some status → status ≠ .planned → ended status = true) ∧
    (∀ id, Planned origin id →
      ReachedBy integrates facts origin (n + 1) id ∨ CutMid integrates facts origin n id) ∧
    ∃ id, Broken origin (ReachedBy integrates facts origin (n + 1))
      (FailsMid integrates facts origin n) id

def started : ExecutionPlanStatus :=
  if origin.status = .planned then .running else origin.status

/-- The status of a plan after so many waves. -/
def StatusAt : Nat → ExecutionPlanStatus → Prop
  | 0, status => status = origin.status
  | n + 1, status =>
    started origin = .running ∧ FailsAt integrates facts origin n ∧ status = .failed ∨
      ¬(started origin = .running ∧ FailsAt integrates facts origin n) ∧ status = started origin

variable {integrates facts origin} {plan plan' : ExecutionPlan} {n : Nat}
  {notAfter : String → String → Bool}

theorem startPlan_status (plan : ExecutionPlan) :
    (startPlan plan).status = if plan.status = .planned then .running else plan.status := by
  unfold startPlan
  split_ifs
  · rfl
  · rfl

theorem started_ne_planned : started origin ≠ .planned := by
  unfold started
  split_ifs with hplanned
  · decide
  · exact hplanned

/-- What is still dispatched was not cut off before. -/
theorem not_cutMid {id : String} {m : Nat} (hreached : ReachedBy integrates facts origin m id)
    (hnot : ¬ReachedBy integrates facts origin (n + 1) id) : ¬CutMid integrates facts origin n id := by
  intro hcut
  cases hcut with
  | broken hbroken =>
    rcases hbroken with hun | ⟨hr, _⟩
    · exact Planned.not_unavailable hreached.isWaiting hun
    · exact hnot hr
  | behind _ hdep hcut =>
    exact reached_clear (fun _ hr => hr.isWaiting) (fun _ => not_failsMid_of_passes) hreached _ hdep
      hcut

theorem not_failsAt_of_runs {m : Nat} (hlater : n < m) (hruns : Runs integrates facts origin m) :
    ¬FailsAt integrates facts origin n := by
  rintro ⟨_, hall, _⟩
  obtain ⟨id, hreached, hnew⟩ := hruns
  have hnot : ¬ReachedBy integrates facts origin (n + 1) id := by
    intro hbefore
    exact hnew (Wavefront.Reached.mono hlater hbefore)
  rcases hall id hreached.isWaiting with hbefore | hcut
  · exact hnot hbefore
  · exact not_cutMid hreached hnot hcut

/-- A wave starts with the plan running, unless it had ended before the first. -/
theorem StatusAt.start (h : StatusAt integrates facts origin n plan.status)
    (hruns : Runs integrates facts origin n) : (startPlan plan).status = started origin := by
  rw [startPlan_status]
  cases n with
  | zero =>
    have hstatus : plan.status = origin.status := h
    rw [hstatus]
    rfl
  | succ n =>
    rcases h with ⟨_, hfails, _⟩ | ⟨_, hstatus⟩
    · exact absurd hfails (not_failsAt_of_runs (Nat.lt_succ_self n) hruns)
    · rw [hstatus, if_neg started_ne_planned]

/-- Finalizing fails a plan exactly when everything has ended and not everything well. -/
theorem finalized_status {mid : ExecutionPlan}
    (hmid : Dispatched integrates facts origin plan n notAfter mid)
    (hstart : (startPlan plan).status = started origin) :
    StatusAt integrates facts origin (n + 1) (finalized mid).status := by
  have hended := ended_iff hmid.rows
  have hfell := fell_iff hmid.rows
  have hfires : ((mid.workstreams.rows.all fun w => ended w.status) = true ∧
      (mid.workstreams.rows.any fun w => fellThrough w.status) = true) ↔
        FailsAt integrates facts origin n := by
    rw [all_rows_iff, any_fellThrough_iff, hended, hfell]
    unfold FailsAt
    rw [and_assoc]
  have hstatus : mid.status = started origin := by
    rw [hmid.planStatus, hstart]
  unfold finalized
  rw [hstatus]
  by_cases hfinal : started origin = .running ∧ FailsAt integrates facts origin n
  · rw [if_pos ⟨hfinal.1, hfires.mpr hfinal.2⟩]
    exact Or.inl ⟨hfinal.1, hfinal.2, rfl⟩
  · rw [if_neg fun hboth => hfinal ⟨hboth.1, hfires.mp hboth.2⟩, hstatus]
    exact Or.inr ⟨hfinal, rfl⟩

theorem listReady_eq_nil_iff : listReady notAfter plan = [] ↔ listedIds notAfter plan = [] := by
  unfold listedIds
  rw [List.map_eq_nil_iff]

theorem sortTexts_eq_nil_iff {texts : List String} : sortTexts texts = [] ↔ texts = [] := by
  constructor
  · intro h
    apply List.eq_nil_iff_forall_not_mem.mpr
    intro text hmem
    have hsorted := mem_sortTexts.mpr hmem
    rw [h] at hsorted
    exact List.not_mem_nil hsorted
  · rintro rfl
    rfl

theorem runs_of_listed (h : Tracks integrates facts origin n plan)
    (hstart : ¬StartHit integrates facts origin n) (hsome : listReady notAfter plan ≠ []) :
    Runs integrates facts origin n := by
  rw [Ne, listReady_eq_nil_iff] at hsome
  obtain ⟨id, hid⟩ := List.exists_mem_of_ne_nil _ hsome
  exact ⟨id, (h.mem_listedIds hstart).mp hid⟩

theorem waves_succ (left : Nat) (total : Aggregate) (plan : ExecutionPlan) :
    waves notAfter integrates facts (left + 1) total plan =
      (if listReady notAfter plan = [] then pure total
      else wave notAfter integrates facts >>= fun result =>
        if result.started = [] then pure (total.add result)
        else waves notAfter integrates facts left (total.add result) : PlanM Aggregate) plan := rfl

variable {total : Aggregate} {k : Nat}

/-- What a loop that goes through leaves: the plan after so many waves, each of which ran. -/
theorem waves_of_ok {left : Nat} {total' : Aggregate} (h : Tracks integrates facts origin n plan)
    (hstatus : StatusAt integrates facts origin n plan.status)
    (hok : waves notAfter integrates facts left total plan = .ok total' plan') :
    ∃ m, n ≤ m ∧ m ≤ n + left ∧ Tracks integrates facts origin m plan' ∧
      StatusAt integrates facts origin m plan'.status ∧
      (m = n + left ∨ listReady notAfter plan' = []) ∧
      ∀ k, n ≤ k → k < m → ¬StartHit integrates facts origin k ∧
        ¬LossHit integrates facts origin (k + 1) ∧ Runs integrates facts origin k := by
  induction left generalizing n plan total with
  | zero =>
    obtain ⟨_, rfl⟩ := pure_eq_ok_iff.mp hok
    refine ⟨n, le_rfl, le_rfl, h, hstatus, Or.inl rfl, ?_⟩
    intro k hk hkm
    omega
  | succ left ih =>
    rw [waves_succ] at hok
    by_cases hnone : listReady notAfter plan = []
    · rw [if_pos hnone] at hok
      obtain ⟨_, rfl⟩ := pure_eq_ok_iff.mp hok
      refine ⟨n, le_rfl, by omega, h, hstatus, Or.inr hnone, ?_⟩
      intro k hk hkm
      omega
    · rw [if_neg hnone] at hok
      obtain ⟨result, mid, hwave, hrest⟩ := bind_eq_ok_iff.mp hok
      obtain ⟨hstart, hloss, htracks, hstarted, before, hbefore, hfinal⟩ := h.wave_of_ok hwave
      have hruns := runs_of_listed h hstart hnone
      have hnext : StatusAt integrates facts origin (n + 1) mid.status := by
        rw [hfinal]
        exact finalized_status hbefore (hstatus.start hruns)
      have hnonempty : result.started ≠ [] := by
        rw [hstarted, Ne, sortTexts_eq_nil_iff, ← listReady_eq_nil_iff]
        exact hnone
      rw [if_neg hnonempty] at hrest
      obtain ⟨m, hle, hbound, htracks', hstatus', hend, hall⟩ := ih htracks hnext hrest
      refine ⟨m, by omega, by omega, htracks', hstatus', ?_, ?_⟩
      · rcases hend with hend | hend
        · exact Or.inl (by omega)
        · exact Or.inr hend
      · intro k hk hkm
        by_cases hkn : k = n
        · rw [hkn]
          exact ⟨hstart, hloss, hruns⟩
        · exact hall k (by omega) hkm

/-- The loop goes through when no workstream marked ready before ever stands in its way. -/
theorem waves_goes {left : Nat} (h : Tracks integrates facts origin n plan)
    (hstart : ∀ k, n ≤ k → k < n + left → ¬StartHit integrates facts origin k)
    (hloss : ∀ k, n ≤ k → k < n + left → Runs integrates facts origin k →
      ¬LossHit integrates facts origin (k + 1)) :
    ∃ total' plan', waves notAfter integrates facts left total plan = .ok total' plan' := by
  induction left generalizing n plan total with
  | zero => exact ⟨total, plan, rfl⟩
  | succ left ih =>
    rw [waves_succ]
    by_cases hnone : listReady notAfter plan = []
    · rw [if_pos hnone]
      exact ⟨total, plan, rfl⟩
    · rw [if_neg hnone]
      have hfirst := hstart n le_rfl (by omega)
      have hruns := runs_of_listed h hfirst hnone
      obtain ⟨result, mid, hwave⟩ : ∃ result mid,
          wave notAfter integrates facts plan = .ok result mid :=
        h.wave_goes hfirst (hloss n le_rfl (by omega) hruns)
      obtain ⟨_, _, htracks, _⟩ := h.wave_of_ok hwave
      rw [bind_ok hwave]
      split_ifs with hempty
      · exact ⟨_, mid, rfl⟩
      · exact ih htracks (fun k hk hkl => hstart k (by omega) (by omega))
          fun k hk hkl => hloss k (by omega) (by omega)

structure PlanEnded (plan : ExecutionPlan) : Prop where
  planStatus : plan.status ≠ .planned ∧ plan.status ≠ .running
  workstreams : ∀ id status, plan.statusOf id = some status → ended status = true

variable (integrates facts origin)

/-- A workstream marked ready before the run is dispatched, or loses a dependency: either is an
invalid transition. -/
def Raises : Prop :=
  StartHit integrates facts origin 99 ∨
    (∃ id, ReachedBy integrates facts origin 1 id) ∧ LossHit integrates facts origin 100

/-- Everything comes out well. -/
def AllPass : Prop :=
  ∀ id status, origin.statusOf id = some status → completed status = true ∨
    status = .planned ∧ ReachedBy integrates facts origin 100 id ∧
      passes integrates facts origin id = true

/-- What leaves a plan ended: nothing was in flight before the run, all that was planned is
dispatched within the waves there are or cut off, and either all of it comes out well, or something
has failed and nothing is left planned by the time the last executions have ended, before their
integrations. -/
structure Concludes : Prop where
  apart : ∀ id status, origin.statusOf id = some status → status ≠ .planned → ended status = true
  planned : ∀ id, Planned origin id → ReachedBy integrates facts origin 100 id ∨
    (∃ first, ReachedBy integrates facts origin 1 first) ∧ CutBy integrates facts origin 100 id
  status : origin.status ≠ .planned ∧ origin.status ≠ .running ∨
    (origin.status = .running ∨ ∃ first, ReachedBy integrates facts origin 1 first) ∧
      (AllPass integrates facts origin ∨
        ∃ n < 100, Runs integrates facts origin n ∧ FailsAt integrates facts origin n)

variable {integrates facts origin}

theorem closePlan_eq (plan : ExecutionPlan) :
    closePlan plan = .ok ⟨⟩ (if plan.status = .running ∧
      plan.workstreams.rows.all fun w => completed w.status then
        { plan with status := .succeeded } else plan) := by
  have hunfold : closePlan plan = (if plan.status = .running ∧
      plan.workstreams.rows.all fun w => completed w.status then
        transitionPlanStatus .succeeded else pure () : PlanM Unit) plan := rfl
  rw [hunfold]
  split_ifs with hclose
  · unfold transitionPlanStatus
    rw [hclose.1]
    rfl
  · rfl

theorem planEnded_closed_iff {plan : ExecutionPlan} :
    PlanEnded (if plan.status = .running ∧
      plan.workstreams.rows.all fun w => completed w.status then
        { plan with status := .succeeded } else plan) ↔
      (∀ id status, plan.statusOf id = some status → ended status = true) ∧
        plan.status ≠ .planned ∧ (plan.status = .running →
          ∀ id status, plan.statusOf id = some status → completed status = true) := by
  split_ifs with hclose
  · have hall := all_rows_iff.mp hclose.2
    constructor
    · intro h
      refine ⟨h.workstreams, ?_, fun _ => hall⟩
      rw [hclose.1]
      decide
    · rintro ⟨hended, _, _⟩
      exact ⟨⟨by simp, by simp⟩, hended⟩
  · constructor
    · intro h
      exact ⟨h.workstreams, h.planStatus.1, fun hrunning => absurd hrunning h.planStatus.2⟩
    · rintro ⟨hended, hplanned, hcompleted⟩
      refine ⟨⟨hplanned, ?_⟩, hended⟩
      intro hrunning
      exact hclose ⟨hrunning, all_rows_iff.mpr (hcompleted hrunning)⟩

theorem executePlan_eq_ok_iff :
    executePlan notAfter integrates facts plan = .ok total plan' ↔ ∃ sum last,
      waves notAfter integrates facts 100 { succeeded := [], failed := [], blocked := [] } plan =
        .ok sum last ∧
      total = { succeeded := sortTexts sum.succeeded, failed := sortTexts sum.failed,
                blocked := sortTexts sum.blocked } ∧
      plan' = if last.status = .running ∧
        last.workstreams.rows.all fun w => completed w.status then
          { last with status := .succeeded } else last := by
  unfold executePlan
  constructor
  · intro hok
    obtain ⟨sum, last, hwaves, hrest⟩ := bind_eq_ok_iff.mp hok
    rw [bind_ok (closePlan_eq last)] at hrest
    obtain ⟨rfl, rfl⟩ := pure_eq_ok_iff.mp hrest
    exact ⟨sum, last, hwaves, rfl, rfl⟩
  · rintro ⟨sum, last, hwaves, rfl, rfl⟩
    rw [bind_ok hwaves, bind_ok (closePlan_eq last)]
    rfl

/-- Once the loop has ended nothing more is ever reached. -/
theorem reached_of_ended {m : Nat} (hm : m ≤ 100) (h : Tracks integrates facts origin m plan)
    (hend : m = 100 ∨ listReady notAfter plan = []) {k : Nat} (hk : k ≤ 100) {id : String}
    (hreached : ReachedBy integrates facts origin k id) :
    ReachedBy integrates facts origin m id := by
  rcases hend with rfl | hnone
  · exact hreached.mono hk
  · apply Wavefront.Reached.of_still _ hreached
    intro j hj
    by_contra hnew
    have hlisted : j ∈ listedIds notAfter plan :=
      (mem_listedIds notAfter).mpr (h.dispatchable_iff.mpr (Or.inr ⟨hj, hnew⟩))
    rw [listReady_eq_nil_iff.mp hnone] at hlisted
    exact List.not_mem_nil hlisted

theorem cut_mono {m : Nat}
    (hle : ∀ id, ReachedBy integrates facts origin k id → ReachedBy integrates facts origin m id)
    {id : String} (hcut : CutBy integrates facts origin k id) :
    CutBy integrates facts origin m id := by
  apply hcut.mono
  rintro j (hun | ⟨hreached, hfails⟩)
  · exact Wavefront.Cut.broken (Or.inl hun)
  · exact Wavefront.Cut.broken (Or.inr ⟨hle j hreached, hfails⟩)

theorem startHit_mono {m : Nat} (hkm : k ≤ m) (h : StartHit integrates facts origin k) :
    StartHit integrates facts origin m := by
  obtain ⟨id, hready, hdeps⟩ := h
  refine ⟨id, hready, ?_⟩
  intro d hd
  rcases hdeps d hd with hground | ⟨hreached, hpasses⟩
  · exact Or.inl hground
  · exact Or.inr ⟨hreached.mono hkm, hpasses⟩

theorem exists_first_of_runs (h : Runs integrates facts origin n) :
    ∃ first, ReachedBy integrates facts origin 1 first := by
  obtain ⟨id, hreached, _⟩ := h
  exact hreached.exists_first

/-- A run goes through exactly when it makes no invalid transition. -/
theorem executePlan_goes_iff :
    (∃ total plan', executePlan notAfter integrates facts origin = .ok total plan') ↔
      ¬Raises integrates facts origin := by
  constructor
  · rintro ⟨total, plan', hok⟩ hraises
    obtain ⟨sum, last, hwaves, _, _⟩ := executePlan_eq_ok_iff.mp hok
    obtain ⟨m, _, hm, htracks, _, hend, hall⟩ := waves_of_ok tracks_origin rfl hwaves
    have hbound : m ≤ 100 := by omega
    have hend' : m = 100 ∨ listReady notAfter last = [] := by
      rcases hend with h | h
      · exact Or.inl (by omega)
      · exact Or.inr h
    rcases hraises with hhit | ⟨⟨first, hfirst⟩, hloss⟩
    · by_cases hfull : m = 100
      · exact (hall 99 (by omega) (by omega)).1 hhit
      · obtain ⟨id, hready, hdeps⟩ := hhit
        have hdispatch : Dispatchable last id := by
          apply htracks.dispatchable_iff.mpr
          refine Or.inl ⟨hready, ?_⟩
          intro d hd
          rcases hdeps d hd with hground | ⟨hreached, hpasses⟩
          · exact Or.inl hground
          · exact Or.inr ⟨reached_of_ended hbound htracks hend' (by omega) hreached, hpasses⟩
        have hlisted := (mem_listedIds notAfter).mpr hdispatch
        rw [listReady_eq_nil_iff.mp (hend'.resolve_left hfull)] at hlisted
        exact List.not_mem_nil hlisted
    · have hpos : m ≠ 0 := by
        rintro rfl
        exact (reached_of_ended hbound htracks hend' (by omega) hfirst).elim
      obtain ⟨id, hready, d, hd, hcut⟩ := hloss
      obtain ⟨k, rfl⟩ := Nat.exists_eq_succ_of_ne_zero hpos
      refine (hall k (by omega) (Nat.lt_succ_self k)).2.1 ⟨id, hready, d, hd, ?_⟩
      exact cut_mono (fun _ => reached_of_ended hbound htracks hend' le_rfl) hcut
  · intro hraises
    have hwaves : ∃ sum last, waves notAfter integrates facts 100
        { succeeded := [], failed := [], blocked := [] } origin = .ok sum last := by
      apply waves_goes tracks_origin
      · intro k _ hk hhit
        exact hraises (Or.inl (startHit_mono (by omega) hhit))
      · intro k _ hk hruns hloss
        obtain ⟨id, hready, d, hd, hcut⟩ := hloss
        refine hraises (Or.inr ⟨exists_first_of_runs hruns, id, hready, d, hd, ?_⟩)
        exact cut_mono (fun _ hreached => Wavefront.Reached.mono (by omega) hreached) hcut
    obtain ⟨sum, last, hwaves⟩ := hwaves
    exact ⟨_, _, executePlan_eq_ok_iff.mpr ⟨sum, last, hwaves, rfl, rfl⟩⟩

section Last

variable {m : Nat} {last : ExecutionPlan} (hm : m ≤ 100) (htracks : Tracks integrates facts origin m last)
  (hend : m = 100 ∨ listReady notAfter last = [])
  (hruns : ∀ k < m, Runs integrates facts origin k)

include hm htracks hend

theorem reached_last_iff {id : String} :
    ReachedBy integrates facts origin m id ↔ ReachedBy integrates facts origin 100 id :=
  ⟨fun h => h.mono hm, fun h => reached_of_ended hm htracks hend le_rfl h⟩

theorem completed_last_iff :
    (∀ id status, last.statusOf id = some status → completed status = true) ↔
      AllPass integrates facts origin := by
  rw [completed_iff htracks.rows]
  unfold AllPass Fails
  simp only [reached_last_iff hm htracks hend, Bool.not_eq_false]

include hruns

theorem pos_last_iff : 0 < m ↔ ∃ first, ReachedBy integrates facts origin 1 first := by
  constructor
  · intro hpos
    exact exists_first_of_runs (hruns 0 hpos)
  · rintro ⟨first, hfirst⟩
    rcases Nat.eq_zero_or_pos m with rfl | hpos
    · exact (reached_of_ended hm htracks hend (by omega) hfirst).elim
    · exact hpos

theorem ended_last_iff :
    (∀ id status, last.statusOf id = some status → ended status = true) ↔
      (∀ id status, origin.statusOf id = some status → status ≠ .planned → ended status = true) ∧
        ∀ id, Planned origin id → ReachedBy integrates facts origin 100 id ∨
          (∃ first, ReachedBy integrates facts origin 1 first) ∧
            CutBy integrates facts origin 100 id := by
  have hcut : ∀ id, CutBy integrates facts origin m id ↔ CutBy integrates facts origin 100 id := by
    intro id
    constructor
    · exact cut_mono fun _ h => (reached_last_iff hm htracks hend).mp h
    · exact cut_mono fun _ h => (reached_last_iff hm htracks hend).mpr h
  rw [ended_iff htracks.rows]
  simp only [reached_last_iff hm htracks hend, hcut, pos_last_iff hm htracks hend hruns]

/-- No earlier wave than the last leaves everything ended. -/
theorem failsAt_only_last {k n : Nat} (hk : m = k + 1) (hn : n < 100)
    (hrunsAt : Runs integrates facts origin n) (hfails : FailsAt integrates facts origin n) :
    n = k := by
  have hbefore : n < m := by
    by_contra hge
    obtain ⟨id, hreached, hnew⟩ := hrunsAt
    have hlast := reached_of_ended hm htracks hend (by omega : n + 1 ≤ 100) hreached
    exact hnew (hlast.mono (by omega))
  by_contra hne
  exact not_failsAt_of_runs (by omega) (hruns k (by omega)) hfails

theorem status_last_iff (hstatus : StatusAt integrates facts origin m last.status) :
    (last.status ≠ .planned ∧ (last.status = .running → AllPass integrates facts origin)) ↔
      (origin.status ≠ .planned ∧ origin.status ≠ .running ∨
        (origin.status = .running ∨ ∃ first, ReachedBy integrates facts origin 1 first) ∧
          (AllPass integrates facts origin ∨
            ∃ n < 100, Runs integrates facts origin n ∧ FailsAt integrates facts origin n)) := by
  have hfirst := pos_last_iff hm htracks hend hruns
  cases hlast : m with
  | zero =>
    rw [hlast] at hstatus hfirst
    have hsame : last.status = origin.status := hstatus
    have hnone : ¬∃ first, ReachedBy integrates facts origin 1 first := by
      rw [← hfirst]
      omega
    have hnever : ¬∃ n < 100, Runs integrates facts origin n ∧ FailsAt integrates facts origin n := by
      rintro ⟨n, _, hrunsAt, _⟩
      exact hnone (exists_first_of_runs hrunsAt)
    rw [hsame]
    constructor
    · rintro ⟨hplanned, hall⟩
      by_cases hrunning : origin.status = .running
      · exact Or.inr ⟨Or.inl hrunning, Or.inl (hall hrunning)⟩
      · exact Or.inl ⟨hplanned, hrunning⟩
    · rintro (⟨hplanned, hrunning⟩ | ⟨hstarted, hall⟩)
      · exact ⟨hplanned, fun h => absurd h hrunning⟩
      · have hrunning := hstarted.resolve_right hnone
        refine ⟨?_, fun _ => hall.resolve_right hnever⟩
        rw [hrunning]
        decide
  | succ k =>
    rw [hlast] at hstatus hfirst
    have hsome : ∃ first, ReachedBy integrates facts origin 1 first := hfirst.mp (by omega)
    have hgoing : started origin = .running ↔ ¬(origin.status ≠ .planned ∧ origin.status ≠ .running) := by
      unfold started
      split_ifs with hplanned
      · simp [hplanned]
      · simp [hplanned]
    rcases hstatus with ⟨hrunning, hfails, hfailed⟩ | ⟨hnot, hsame⟩
    · rw [hfailed]
      refine iff_of_true ⟨by decide, fun h => by cases h⟩ (Or.inr ⟨Or.inr hsome, Or.inr ?_⟩)
      exact ⟨k, by omega, hruns k (by omega), hfails⟩
    · rw [hsame]
      by_cases hrunning : started origin = .running
      · have hopen := hgoing.mp hrunning
        have hnever : ¬∃ n < 100, Runs integrates facts origin n ∧
            FailsAt integrates facts origin n := by
          rintro ⟨n, hn, hrunsAt, hfails⟩
          have hk := failsAt_only_last hm htracks hend hruns hlast hn hrunsAt hfails
          rw [hk] at hfails
          exact hnot ⟨hrunning, hfails⟩
        constructor
        · rintro ⟨_, hall⟩
          exact Or.inr ⟨Or.inr hsome, Or.inl (hall hrunning)⟩
        · rintro (hclosed | ⟨_, hall⟩)
          · exact absurd hclosed hopen
          · exact ⟨started_ne_planned, fun _ => hall.resolve_right hnever⟩
      · refine iff_of_true ⟨started_ne_planned, fun h => absurd h hrunning⟩ (Or.inl ?_)
        by_contra hopen
        exact hrunning (hgoing.mpr hopen)

end Last

theorem planEnded_iff (hok : executePlan notAfter integrates facts origin = .ok total plan') :
    PlanEnded plan' ↔ Concludes integrates facts origin := by
  obtain ⟨sum, last, hwaves, _, rfl⟩ := executePlan_eq_ok_iff.mp hok
  obtain ⟨m, _, hm, htracks, hstatus, hend, hall⟩ := waves_of_ok tracks_origin rfl hwaves
  have hbound : m ≤ 100 := by omega
  have hend' : m = 100 ∨ listReady notAfter last = [] := by
    rcases hend with h | h
    · exact Or.inl (by omega)
    · exact Or.inr h
  have hruns : ∀ k < m, Runs integrates facts origin k := fun k hk => (hall k (by omega) hk).2.2
  rw [planEnded_closed_iff, ended_last_iff hbound htracks hend' hruns,
    completed_last_iff hbound htracks hend', status_last_iff hbound htracks hend' hruns hstatus]
  constructor
  · rintro ⟨⟨hapart, hplanned⟩, hended⟩
    exact ⟨hapart, hplanned, hended⟩
  · rintro ⟨hapart, hplanned, hended⟩
    exact ⟨⟨hapart, hplanned⟩, hended⟩

/-- Whenever a plan is returned, it and each of its workstreams have come to an end, exactly when
the run raises an error or the plan concludes. -/
theorem executePlan_ends_iff (notAfter : String → String → Bool) (integrates : Bool)
    (facts : Facts) (origin : ExecutionPlan) :
    (∀ total plan', executePlan notAfter integrates facts origin = .ok total plan' →
      PlanEnded plan') ↔
      Raises integrates facts origin ∨ Concludes integrates facts origin := by
  constructor
  · intro hends
    by_cases hraises : Raises integrates facts origin
    · exact Or.inl hraises
    · obtain ⟨total, plan', hok⟩ : ∃ total plan',
          executePlan notAfter integrates facts origin = .ok total plan' :=
        executePlan_goes_iff.mpr hraises
      exact Or.inr ((planEnded_iff hok).mp (hends total plan' hok))
  · rintro (hraises | hconcludes) total plan' hok
    · exact absurd hraises (executePlan_goes_iff.mp ⟨total, plan', hok⟩)
    · exact (planEnded_iff hok).mpr hconcludes

end Runs

def lone : ExecutionPlan where
  status := .planned
  workstreams :=
    ⟨[{ workstreamId := "w", dependsOn := [], status := .planned, blockedBy := [],
        failureReason := none }], by decide⟩
  integratedAttempts := []

def conflicting : Facts where
  execute _ := .succeeded
  verified _ := true
  merge _ := some "CONFLICT"
  record _ := none

/-- A plan whose only workstream fails to integrate is returned running. -/
theorem conflict_leaves_running :
    (∃ depths, Dependencies.analyzeDependencies lone = .ok depths) ∧
      ¬∀ total plan', executePlan CodeUnits.notAfter true conflicting lone = .ok total plan' →
        PlanEnded plan' := by
  have hrun : (match executePlan CodeUnits.notAfter true conflicting lone with
      | .ok _ plan' => decide (plan'.status = .running)
      | .error _ _ => false) = true := by decide +kernel
  refine ⟨⟨[("w", 0)], by decide +kernel⟩, ?_⟩
  intro hends
  cases hok : executePlan CodeUnits.notAfter true conflicting lone with
  | error e plan' =>
    rw [hok] at hrun
    cases hrun
  | ok total plan' =>
    rw [hok] at hrun
    exact (hends total plan' hok).planStatus.2 (of_decide_eq_true hrun)

end PlanCompletion
