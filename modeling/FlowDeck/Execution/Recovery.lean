import FlowDeck.Execution.RunReady

namespace Recovery

open ExecutionContracts PlanRepository ExecutionScheduler Propagation RunReady

/-- A workstream that is ready once recovery has run, because it was or because it was running. -/
def Returning (plan : ExecutionPlan) (id : String) : Prop :=
  plan.statusOf id = some .ready ∨ plan.statusOf id = some .running

def Pending (plan : ExecutionPlan) (id : String) : Prop :=
  plan.statusOf id = some .planned ∨ Returning plan id

/-- A dependency that is satisfied once recovery has run. -/
def Met (plan : ExecutionPlan) (dependency : String) : Prop :=
  plan.statusOf dependency = some .succeeded ∨ plan.statusOf dependency = some .integrated ∨
    plan.statusOf dependency = some .integration_pending ∧ dependency ∈ plan.integratedAttempts

/-- A dependency that the run after recovery loses. -/
abbrev Doomed (execute : String → Outcome) (plan : ExecutionPlan) : String → Prop :=
  Wavefront.Cut (fun id d => d ∈ plan.depsOf id) (fun id => plan.statusOf id = some .planned)
    fun id => unavailable plan id = true ∨ plan.statusOf id = some .planned ∧
      (∀ d ∈ plan.depsOf id, Met plan d) ∧ execute id = .failed

def recoveredStatus (plan : ExecutionPlan) (id : String) (status : ExecutionWorkstreamStatus) :
    ExecutionWorkstreamStatus :=
  if id ∈ plan.integratedAttempts ∧ (status = .succeeded ∨ status = .integration_pending) then
    .integrated
  else if status = .running then .ready
  else status

def reconciled (plan : ExecutionPlan) : ExecutionPlan :=
  Fallible.after (reconcileIntegratedAttempts plan)

def runningIds (plan : ExecutionPlan) : List String :=
  (plan.workstreams.rows.filter fun w => decide (w.status = .running)).map fun w => w.workstreamId

def recovered (plan : ExecutionPlan) : ExecutionPlan :=
  moveAll (reconciled plan) (runningIds (reconciled plan)) (fun _ => .ready)
    (fun _ => some "ORCHESTRATOR_RESTART") fun _ => []

variable {id : String}

theorem mem_runningIds {plan : ExecutionPlan} :
    id ∈ runningIds plan ↔ plan.statusOf id = some .running := by
  unfold runningIds
  rw [List.mem_map]
  constructor
  · rintro ⟨w, hw, rfl⟩
    obtain ⟨hmem, hrunning⟩ := List.mem_filter.mp hw
    rw [statusOf_of_mem hmem, of_decide_eq_true hrunning]
  · intro h
    obtain ⟨w, hmem, rfl, hrunning⟩ := exists_row_of_statusOf h
    exact ⟨w, List.mem_filter.mpr ⟨hmem, decide_eq_true hrunning⟩, rfl⟩

/-- Recovery always goes through. -/
theorem recoverAfterRestart_eq (plan : ExecutionPlan) :
    recoverAfterRestart plan = .ok ⟨⟩ (recovered plan) := by
  have hloop : ((reconciled plan).workstreams.rows.forM fun w =>
      if w.status = .running then
        transitionWorkstream w.workstreamId .ready (some "ORCHESTRATOR_RESTART") []
      else pure ⟨⟩ : PlanM PUnit) = (runningIds (reconciled plan)).forM fun id =>
        transitionWorkstream id .ready (some "ORCHESTRATOR_RESTART") [] := by
    rw [Fallible.forM_ite]
    exact (Fallible.forM_map (fun w : ExecutionWorkstream => w.workstreamId)
      (fun id => transitionWorkstream id .ready (some "ORCHESTRATOR_RESTART") [])
      ((reconciled plan).workstreams.rows.filter fun w => decide (w.status = .running))).symm
  have hunfold : recoverAfterRestart plan = ((reconciled plan).workstreams.rows.forM fun w =>
      if w.status = .running then
        transitionWorkstream w.workstreamId .ready (some "ORCHESTRATOR_RESTART") []
      else pure ⟨⟩ : PlanM PUnit) (reconciled plan) := rfl
  have hdistinct : (runningIds (reconciled plan)).Nodup :=
    (reconciled plan).workstreams.unique.sublist (List.filter_sublist.map _)
  rw [hunfold, hloop]
  apply (forM_transitionWorkstream_eq_ok_iff hdistinct).mpr
  refine ⟨?_, rfl⟩
  intro id hid
  exact ⟨.running, mem_runningIds.mp hid, by decide⟩

theorem get?_reconciled (plan : ExecutionPlan) (id : String) :
    (reconciled plan).workstreams.get? id = (plan.workstreams.get? id).map fun w =>
      if id ∈ plan.integratedAttempts ∧ (w.status = .succeeded ∨ w.status = .integration_pending)
      then { w with status := .integrated } else w := by
  have hunfold : (reconciled plan).workstreams.get? id =
      (plan.workstreams.update (fun w => decide (w.workstreamId ∈ plan.integratedAttempts) &&
        (w.status = .succeeded || w.status = .integration_pending))
        (fun w => { w with status := .integrated }) fun _ => rfl).get? id := rfl
  rw [hunfold, Table.get?_update]
  cases hget : plan.workstreams.get? id with
  | none => rfl
  | some w =>
    have hkey : w.workstreamId = id := Table.key_of_get? hget
    simp [Table.setWhere, hkey]

theorem statusOf_recovered (plan : ExecutionPlan) (id : String) :
    (recovered plan).statusOf id = (plan.statusOf id).map (recoveredStatus plan id) := by
  have hreconciled : (reconciled plan).statusOf id = (plan.statusOf id).map fun status =>
      if id ∈ plan.integratedAttempts ∧ (status = .succeeded ∨ status = .integration_pending) then
        .integrated
      else status := by
    unfold ExecutionPlan.statusOf
    rw [get?_reconciled, Option.map_map, Option.map_map]
    congr 1
    funext w
    simp only [Function.comp_apply]
    split_ifs
    · rfl
    · rfl
  unfold recovered
  simp only [statusOf_moveAll, mem_runningIds, hreconciled]
  unfold recoveredStatus
  cases plan.statusOf id with
  | none => simp
  | some status =>
    by_cases hrecorded : id ∈ plan.integratedAttempts ∧
        (status = .succeeded ∨ status = .integration_pending)
    · simp [hrecorded]
    · by_cases hrunning : status = .running
      · simp [hrunning]
      · simp [hrecorded, hrunning]

theorem depsOf_recovered (plan : ExecutionPlan) (id : String) :
    (recovered plan).depsOf id = plan.depsOf id := by
  unfold recovered
  rw [depsOf_moveAll]
  unfold ExecutionPlan.depsOf
  rw [get?_reconciled]
  cases plan.workstreams.get? id with
  | none => rfl
  | some w =>
    simp only [Option.map_some, Option.getD_some]
    split_ifs
    · rfl
    · rfl

theorem satisfied_recovered {plan : ExecutionPlan} {d : String} :
    satisfied (recovered plan) d = true ↔ Met plan d := by
  unfold satisfied Met
  rw [statusOf_recovered]
  unfold recoveredStatus
  cases plan.statusOf d with
  | none => simp
  | some status => cases status <;> by_cases hmem : d ∈ plan.integratedAttempts <;> simp [hmem]

theorem planned_recovered {plan : ExecutionPlan} :
    (recovered plan).statusOf id = some .planned ↔ plan.statusOf id = some .planned := by
  rw [statusOf_recovered]
  unfold recoveredStatus
  cases plan.statusOf id with
  | none => simp
  | some status => cases status <;> by_cases hmem : id ∈ plan.integratedAttempts <;> simp [hmem]

theorem ready_recovered {plan : ExecutionPlan} :
    (recovered plan).statusOf id = some .ready ↔ Returning plan id := by
  rw [statusOf_recovered]
  unfold recoveredStatus Returning
  cases plan.statusOf id with
  | none => simp
  | some status => cases status <;> by_cases hmem : id ∈ plan.integratedAttempts <;> simp [hmem]

theorem unavailable_recovered {plan : ExecutionPlan} :
    unavailable (recovered plan) id = true ↔ unavailable plan id = true := by
  rw [unavailable_iff, unavailable_iff, statusOf_recovered]
  unfold recoveredStatus
  cases plan.statusOf id with
  | none => simp
  | some status => cases status <;> by_cases hmem : id ∈ plan.integratedAttempts <;> simp [hmem]

theorem dispatchable_recovered {plan : ExecutionPlan} :
    Dispatchable (recovered plan) id ↔ Pending plan id ∧ ∀ d ∈ plan.depsOf id, Met plan d := by
  unfold Dispatchable Pending
  rw [planned_recovered, ready_recovered, depsOf_recovered]
  simp only [satisfied_recovered]

section Run

variable {notAfter : String → String → Bool} {execute : String → Outcome} {plan : ExecutionPlan}

theorem allPlanned_recovered_iff :
    AllPlanned (recovered plan) ↔
      ∀ id, Returning plan id → ∃ d ∈ plan.depsOf id, ¬Met plan d := by
  constructor
  · intro hplanned id hreturning
    by_contra hmet
    push Not at hmet
    have hstatus := hplanned id (dispatchable_recovered.mpr ⟨Or.inr hreturning, hmet⟩)
    rw [ready_recovered.mpr hreturning] at hstatus
    cases hstatus
  · intro hunmet id hdispatch
    obtain ⟨hpending, hmet⟩ := dispatchable_recovered.mp hdispatch
    rcases hpending with hplanned | hreturning
    · exact planned_recovered.mpr hplanned
    · obtain ⟨d, hd, hnot⟩ := hunmet id hreturning
      exact absurd (hmet d hd) hnot

theorem not_lost_of_met {d : String} (hmet : Met plan d) :
    ¬Lost (executed notAfter execute (recovered plan)) d := by
  have hsatisfied := satisfied_recovered.mpr hmet
  have hlisted : d ∉ listedIds notAfter (recovered plan) := by
    intro hmem
    unfold satisfied at hsatisfied
    rcases ((mem_listedIds notAfter).mp hmem).1 with h | h
    · simp [h] at hsatisfied
    · simp [h] at hsatisfied
  have hstatus := statusOf_executed notAfter execute (recovered plan) d
  rw [if_neg hlisted] at hstatus
  unfold satisfied at hsatisfied
  rw [← hstatus] at hsatisfied
  intro hlost
  cases hlost with
  | broken hun =>
    obtain ⟨status, hsome, hcases⟩ := unavailable_iff.mp hun
    rw [hsome] at hsatisfied
    rcases hcases with rfl | rfl | rfl
    · simp at hsatisfied
    · simp at hsatisfied
    · simp at hsatisfied
  | behind hplanned _ _ => simp [hplanned] at hsatisfied

/-- What the run after recovery loses can be read off the plan as the crash left it. -/
theorem lost_executed_iff (hplanned : AllPlanned (recovered plan)) {id : String} :
    Lost (executed notAfter execute (recovered plan)) id ↔ Doomed execute plan id := by
  constructor
  · intro hlost
    induction hlost with
    | @broken id hun =>
      obtain ⟨status, hsome, hcases⟩ := unavailable_iff.mp hun
      rw [statusOf_executed] at hsome
      split_ifs at hsome with hlisted
      · have hdispatch := (mem_listedIds notAfter).mp hlisted
        refine Wavefront.Cut.broken (Or.inr ⟨planned_recovered.mp (hplanned id hdispatch),
          (dispatchable_recovered.mp hdispatch).2, ?_⟩)
        cases hout : execute id with
        | failed => rfl
        | succeeded =>
          rw [hout] at hsome
          obtain rfl := Option.some.inj hsome
          simp [outcomeStatus] at hcases
      · exact Wavefront.Cut.broken
          (Or.inl (unavailable_recovered.mp (unavailable_iff.mpr ⟨status, hsome, hcases⟩)))
    | @behind id d hstatus hdep _ ih =>
      rw [statusOf_executed] at hstatus
      rw [depsOf_executed, depsOf_recovered] at hdep
      split_ifs at hstatus with hlisted
      · cases hout : execute id with
        | succeeded =>
          rw [hout] at hstatus
          cases hstatus
        | failed =>
          rw [hout] at hstatus
          cases hstatus
      · exact Wavefront.Cut.behind (planned_recovered.mp hstatus) hdep ih
  · intro hdoomed
    induction hdoomed with
    | @broken id hbroken =>
      apply Wavefront.Cut.broken
      rcases hbroken with hun | ⟨hstatus, hmet, hfails⟩
      · have hrecovered := unavailable_recovered.mpr hun
        have hlisted : id ∉ listedIds notAfter (recovered plan) := by
          intro hmem
          obtain ⟨status, hsome, hcases⟩ := unavailable_iff.mp hrecovered
          rcases ((mem_listedIds notAfter).mp hmem).1 with h | h
          · rw [hsome] at h
            simp [Option.some.inj h] at hcases
          · rw [hsome] at h
            simp [Option.some.inj h] at hcases
        rw [unavailable_iff] at hrecovered ⊢
        rw [statusOf_executed, if_neg hlisted]
        exact hrecovered
      · have hlisted : id ∈ listedIds notAfter (recovered plan) :=
          (mem_listedIds notAfter).mpr (dispatchable_recovered.mpr ⟨Or.inl hstatus, hmet⟩)
        rw [unavailable_iff, statusOf_executed, if_pos hlisted, hfails]
        exact ⟨.failed, rfl, Or.inl rfl⟩
    | @behind id d hstatus hdep _ ih =>
      have hlisted : id ∉ listedIds notAfter (recovered plan) := by
        intro hmem
        have hmet := (dispatchable_recovered.mp ((mem_listedIds notAfter).mp hmem)).2 d hdep
        exact not_lost_of_met hmet ih
      refine Wavefront.Cut.behind ?_ ?_ ih
      · rw [statusOf_executed, if_neg hlisted]
        exact planned_recovered.mpr hstatus
      · rw [depsOf_executed, depsOf_recovered]
        exact hdep

theorem readyUnaffected_executed_iff (hplanned : AllPlanned (recovered plan)) :
    ReadyUnaffected (executed notAfter execute (recovered plan)) ↔
      ∀ id, Returning plan id → ∀ d ∈ plan.depsOf id, ¬Doomed execute plan d := by
  have hready : ∀ id, (executed notAfter execute (recovered plan)).statusOf id = some .ready ↔
      Returning plan id := by
    intro id
    rw [statusOf_executed]
    split_ifs with hlisted
    · have hstatus := hplanned id ((mem_listedIds notAfter).mp hlisted)
      rw [← ready_recovered, hstatus]
      cases execute id with
      | succeeded => simp [outcomeStatus]
      | failed => simp [outcomeStatus]
    · exact ready_recovered
  unfold ReadyUnaffected
  simp only [hready, depsOf_executed, depsOf_recovered, lost_executed_iff hplanned]

end Run

/-- A run after recovery goes through and starts whatever can be started. -/
def Resumes (notAfter : String → String → Bool) (execute : String → Outcome)
    (plan : ExecutionPlan) : Prop :=
  ∃ result plan', (recoverAfterRestart >>= fun _ => runReady notAfter execute) plan =
      .ok result plan' ∧
    ∀ id, Pending plan id → (∀ d ∈ plan.depsOf id, Met plan d) → id ∈ result.started

/-- A plan resumes exactly when every workstream that recovery leaves ready still waits for a
dependency, none of which the run loses. -/
theorem resumes_iff (notAfter : String → String → Bool) (execute : String → Outcome)
    (plan : ExecutionPlan) :
    Resumes notAfter execute plan ↔
      ∀ id, Returning plan id → (∃ d ∈ plan.depsOf id, ¬Met plan d) ∧
        ∀ d ∈ plan.depsOf id, ¬Doomed execute plan d := by
  unfold Resumes
  rw [Fallible.bind_ok (recoverAfterRestart_eq plan)]
  constructor
  · rintro ⟨result, plan', hrun, _⟩ id hreturning
    obtain ⟨hplanned, blocked, mid, hprop, _⟩ := runReady_eq_ok_iff.mp hrun
    obtain ⟨hunaffected, _⟩ := (propagateDependencyFailures_spec _).2 blocked mid hprop
    exact ⟨allPlanned_recovered_iff.mp hplanned id hreturning,
      (readyUnaffected_executed_iff hplanned).mp hunaffected id hreturning⟩
  · intro hwait
    have hplanned := allPlanned_recovered_iff.mpr fun id h => (hwait id h).1
    have hunaffected : ReadyUnaffected (executed notAfter execute (recovered plan)) :=
      (readyUnaffected_executed_iff hplanned).mpr fun id h => (hwait id h).2
    obtain ⟨blocked, mid, hprop⟩ := (propagateDependencyFailures_spec _).1 hunaffected
    refine ⟨_, _, runReady_eq_ok_iff.mpr ⟨hplanned, blocked, mid, hprop, rfl, rfl⟩, ?_⟩
    intro id hpending hmet
    apply mem_sortTexts.mpr
    exact (mem_listedIds notAfter).mpr (dispatchable_recovered.mpr ⟨hpending, hmet⟩)

end Recovery
