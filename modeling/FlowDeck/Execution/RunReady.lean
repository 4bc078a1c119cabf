import FlowDeck.Execution.Propagation

namespace RunReady

open ExecutionContracts PlanRepository ExecutionScheduler Propagation Fallible List

section Listed

variable (notAfter : String → String → Bool)

def listedIds (plan : ExecutionPlan) : List String :=
  (listReady notAfter plan).map fun w => w.workstreamId

/-- A workstream `runReady` has to dispatch: not started, with every dependency satisfied. -/
def Dispatchable (plan : ExecutionPlan) (id : String) : Prop :=
  (plan.statusOf id = some .planned ∨ plan.statusOf id = some .ready) ∧
    ∀ d ∈ plan.depsOf id, satisfied plan d = true

theorem isReady_iff {plan : ExecutionPlan} {w : ExecutionWorkstream} :
    isReady plan w = true ↔ (w.status = .planned ∨ w.status = .ready) ∧
      ∀ d ∈ w.dependsOn, satisfied plan d = true := by
  unfold isReady
  simp only [Bool.and_eq_true, Bool.or_eq_true, decide_eq_true_eq, all_eq_true]

theorem listedIds_eq (plan : ExecutionPlan) :
    listedIds notAfter plan =
      ((plan.workstreams.rows.filter (isReady plan)).map fun w => w.workstreamId).insertionSort
        fun a b => notAfter a b = true := by
  unfold listedIds listReady
  apply map_insertionSort
  intro a _ b _
  exact Iff.rfl

theorem mem_listedIds {plan : ExecutionPlan} {id : String} :
    id ∈ listedIds notAfter plan ↔ Dispatchable plan id := by
  rw [listedIds_eq, mem_insertionSort, mem_map]
  unfold Dispatchable
  constructor
  · rintro ⟨w, hw, rfl⟩
    obtain ⟨hmem, hready⟩ := mem_filter.mp hw
    rw [statusOf_of_mem hmem, depsOf_of_mem hmem, Option.some.injEq, Option.some.injEq]
    exact isReady_iff.mp hready
  · rintro ⟨hstatus, hdeps⟩
    have hsome : ∃ status, plan.statusOf id = some status := by
      rcases hstatus with h | h
      · exact ⟨_, h⟩
      · exact ⟨_, h⟩
    obtain ⟨status, hstatus'⟩ := hsome
    obtain ⟨w, hmem, rfl, _⟩ := exists_row_of_statusOf hstatus'
    rw [statusOf_of_mem hmem, Option.some.injEq, Option.some.injEq] at hstatus
    rw [depsOf_of_mem hmem] at hdeps
    exact ⟨w, mem_filter.mpr ⟨hmem, isReady_iff.mpr ⟨hstatus, hdeps⟩⟩, rfl⟩

theorem nodup_listedIds (plan : ExecutionPlan) : (listedIds notAfter plan).Nodup := by
  rw [listedIds_eq]
  have hperm := perm_insertionSort (fun a b => notAfter a b = true)
    ((plan.workstreams.rows.filter (isReady plan)).map fun w => w.workstreamId)
  exact hperm.nodup_iff.mpr (plan.workstreams.unique.sublist (filter_sublist.map _))

/-- Marking the listed workstreams leaves the list as it was. -/
theorem listedIds_moveAll_ready (plan : ExecutionPlan) :
    listedIds notAfter (moveAll plan (listedIds notAfter plan) (fun _ => .ready) (fun _ => none)
      fun _ => []) = listedIds notAfter plan := by
  have hsatisfied : satisfied (moveAll plan (listedIds notAfter plan) (fun _ => .ready)
      (fun _ => none) fun _ => []) = satisfied plan := by
    funext d
    unfold satisfied
    rw [statusOf_moveAll]
    split_ifs with hmem
    · rcases ((mem_listedIds notAfter).mp hmem).1 with h | h
      · rw [h]
        rfl
      · rw [h]
        rfl
    · rfl
  have hleft := listedIds_eq notAfter (moveAll plan (listedIds notAfter plan) (fun _ => .ready)
    (fun _ => none) fun _ => [])
  rw [hleft]
  conv_rhs => rw [listedIds_eq]
  congr 1
  have hrows : (moveAll plan (listedIds notAfter plan) (fun _ => .ready) (fun _ => none)
      fun _ => []).workstreams.rows = plan.workstreams.rows.map (Table.setWhere
        (fun w => decide (w.workstreamId ∈ listedIds notAfter plan))
        fun w => { w with status := .ready, failureReason := none, blockedBy := [] }) := rfl
  rw [hrows, filter_map, map_map]
  have hsame : plan.workstreams.rows.filter (isReady (moveAll plan (listedIds notAfter plan)
      (fun _ => .ready) (fun _ => none) fun _ => []) ∘ Table.setWhere
        (fun w => decide (w.workstreamId ∈ listedIds notAfter plan))
        fun w => { w with status := .ready, failureReason := none, blockedBy := [] }) =
      plan.workstreams.rows.filter (isReady plan) := by
    apply filter_congr
    intro w hw
    simp only [Function.comp_apply, Table.setWhere]
    have hlisted : w.workstreamId ∈ listedIds notAfter plan ↔ isReady plan w = true := by
      rw [mem_listedIds, Dispatchable, statusOf_of_mem hw, depsOf_of_mem hw, isReady_iff]
      simp
    by_cases hready : isReady plan w = true
    · rw [if_pos (by simpa using hlisted.mpr hready), hready]
      apply isReady_iff.mpr
      refine ⟨Or.inr rfl, ?_⟩
      intro d hd
      rw [hsatisfied]
      exact (isReady_iff.mp hready).2 d hd
    · rw [if_neg (by simpa using fun h => hready (hlisted.mp h))]
      unfold isReady
      rw [hsatisfied]
  rw [hsame]
  apply map_congr_left
  intro w _
  simp only [Function.comp_apply, Table.setWhere]
  split_ifs
  · rfl
  · rfl

end Listed

/-- The plan once `runReady` has made sure that it is running. -/
def startPlan (plan : ExecutionPlan) : ExecutionPlan :=
  if plan.status = .planned then { plan with status := .running } else plan

theorem startPlan_workstreams (plan : ExecutionPlan) :
    (startPlan plan).workstreams = plan.workstreams := by
  unfold startPlan
  split_ifs
  · rfl
  · rfl

theorem startPlan_integratedAttempts (plan : ExecutionPlan) :
    (startPlan plan).integratedAttempts = plan.integratedAttempts := by
  unfold startPlan
  split_ifs
  · rfl
  · rfl

theorem startPlan_statusOf (plan : ExecutionPlan) (id : String) :
    (startPlan plan).statusOf id = plan.statusOf id := by
  unfold ExecutionPlan.statusOf
  rw [startPlan_workstreams]

theorem startPlan_depsOf (plan : ExecutionPlan) (id : String) :
    (startPlan plan).depsOf id = plan.depsOf id := by
  unfold ExecutionPlan.depsOf
  rw [startPlan_workstreams]

theorem listedIds_startPlan (notAfter : String → String → Bool) (plan : ExecutionPlan) :
    listedIds notAfter (startPlan plan) = listedIds notAfter plan := by
  have hsatisfied : satisfied (startPlan plan) = satisfied plan := by
    funext d
    unfold satisfied
    rw [startPlan_statusOf]
  have hready : isReady (startPlan plan) = isReady plan := by
    funext w
    unfold isReady
    rw [hsatisfied]
  unfold listedIds listReady
  rw [startPlan_workstreams, hready]

def outcomeStatus : Outcome → ExecutionWorkstreamStatus
  | .succeeded => .succeeded
  | .failed => .failed

def outcomeReason : Outcome → Option String
  | .succeeded => none
  | .failed => some "WORKSTREAM_EXECUTION_FAILED"

theorem recordOutcome_eq (id : String) (outcome : Outcome) :
    recordOutcome (id, outcome) =
      transitionWorkstream id (outcomeStatus outcome) (outcomeReason outcome) [] := by
  cases outcome with
  | succeeded => rfl
  | failed => rfl

theorem moveAll_moveAll {plan : ExecutionPlan} {ids ids' : List String}
    (hsame : ∀ id, id ∈ ids' ↔ id ∈ ids) {status status' : String → ExecutionWorkstreamStatus}
    {failureReason failureReason' : String → Option String}
    {blockedBy blockedBy' : String → List String} :
    moveAll (moveAll plan ids status failureReason blockedBy) ids' status' failureReason'
      blockedBy' = moveAll plan ids status' failureReason' blockedBy' := by
  unfold moveAll
  congr 1
  apply Table.ext_rows
  simp only [Table.update, map_map]
  apply map_congr_left
  intro w _
  simp only [Function.comp_apply, Table.setWhere, decide_eq_true_eq]
  by_cases hid : w.workstreamId ∈ ids
  · simp [hid, hsame]
  · simp [hid, hsame]

/-- The plan once `finalizePlan` has seen it. -/
def finalized (plan : ExecutionPlan) : ExecutionPlan :=
  if plan.status = .running ∧ (plan.workstreams.rows.all fun w => ended w.status) ∧
      plan.workstreams.rows.any fun w => fellThrough w.status then
    { plan with status := .failed }
  else plan

theorem finalized_workstreams (plan : ExecutionPlan) :
    (finalized plan).workstreams = plan.workstreams := by
  unfold finalized
  split_ifs
  · rfl
  · rfl

theorem finalized_integratedAttempts (plan : ExecutionPlan) :
    (finalized plan).integratedAttempts = plan.integratedAttempts := by
  unfold finalized
  split_ifs
  · rfl
  · rfl

theorem finalizePlan_eq (plan : ExecutionPlan) : finalizePlan plan = .ok () (finalized plan) := by
  have hunfold : finalizePlan plan = (if plan.status = .running ∧
      (plan.workstreams.rows.all fun w => ended w.status) ∧
        plan.workstreams.rows.any fun w => fellThrough w.status then
      transitionPlanStatus .failed else pure () : PlanM Unit) plan := rfl
  rw [hunfold]
  unfold finalized
  split_ifs with hfinal
  · unfold transitionPlanStatus
    rw [hfinal.1]
    rfl
  · rfl

/-- Every workstream that `runReady` lists is still planned. -/
def AllPlanned (plan : ExecutionPlan) : Prop :=
  ∀ id, Dispatchable plan id → plan.statusOf id = some .planned

/-- The plan once what `runReady` lists is marked ready. -/
def readied (notAfter : String → String → Bool) (plan : ExecutionPlan) : ExecutionPlan :=
  moveAll (startPlan plan) (listedIds notAfter plan) (fun _ => .ready) (fun _ => none) fun _ => []

/-- The plan once what `runReady` lists has been started. -/
def dispatched (notAfter : String → String → Bool) (plan : ExecutionPlan) : ExecutionPlan :=
  moveAll (startPlan plan) (listedIds notAfter plan) (fun _ => .running) (fun _ => none) fun _ => []

theorem listedIds_readied (notAfter : String → String → Bool) (plan : ExecutionPlan) :
    listedIds notAfter (readied notAfter plan) = listedIds notAfter plan := by
  have hstart := listedIds_moveAll_ready notAfter (startPlan plan)
  rw [listedIds_startPlan] at hstart
  exact hstart

/-- The plan once every dispatched execution has ended. -/
def executed (notAfter : String → String → Bool) (execute : String → Outcome)
    (plan : ExecutionPlan) : ExecutionPlan :=
  moveAll (startPlan plan) (listedIds notAfter plan) (fun id => outcomeStatus (execute id))
    (fun id => outcomeReason (execute id)) fun _ => []

theorem statusOf_executed (notAfter : String → String → Bool) (execute : String → Outcome)
    (plan : ExecutionPlan) (id : String) :
    (executed notAfter execute plan).statusOf id =
      if id ∈ listedIds notAfter plan then some (outcomeStatus (execute id))
      else plan.statusOf id := by
  unfold executed
  rw [statusOf_moveAll, startPlan_statusOf]
  split_ifs with hlisted
  · rcases ((mem_listedIds notAfter).mp hlisted).1 with h | h
    · rw [h]
      rfl
    · rw [h]
      rfl
  · rfl

theorem depsOf_executed (notAfter : String → String → Bool) (execute : String → Outcome)
    (plan : ExecutionPlan) (id : String) :
    (executed notAfter execute plan).depsOf id = plan.depsOf id := by
  unfold executed
  rw [depsOf_moveAll, startPlan_depsOf]

section Run

variable {notAfter : String → String → Bool} {execute : String → Outcome}

theorem startPlan_step (plan : ExecutionPlan) :
    (if plan.status = .planned then transitionPlanStatus .running else pure () : PlanM Unit) plan =
      .ok () (startPlan plan) := by
  unfold startPlan
  split_ifs with hplanned
  · unfold transitionPlanStatus
    rw [hplanned]
    rfl
  · rfl

theorem beginRun_apply (plan : ExecutionPlan) :
    beginRun notAfter plan = ((if plan.status = .planned then transitionPlanStatus .running
      else pure () : PlanM Unit) >>= fun _ => getPlan >>= fun plan =>
        (listReady notAfter plan).forM
          (fun w => transitionWorkstream w.workstreamId .ready none []) >>= fun _ =>
            getPlan >>= fun plan => pure (listReady notAfter plan)) plan := by
  unfold beginRun
  by_cases hplanned : plan.status = .planned
  · simp only [getPlan, bind, EStateM.bind, hplanned, if_true]
  · simp only [getPlan, bind, EStateM.bind, hplanned, if_false]
    rfl

/-- The first half of `runReady` goes through exactly when nothing it lists is marked ready. -/
theorem beginRun_eq_ok_iff {plan plan' : ExecutionPlan}
    {dispatchable : List ExecutionWorkstream} :
    beginRun notAfter plan = .ok dispatchable plan' ↔
      AllPlanned plan ∧ dispatchable = listReady notAfter plan' ∧
        plan' = readied notAfter plan := by
  have hrun : beginRun notAfter plan = ((listReady notAfter (startPlan plan)).forM
      (fun w => transitionWorkstream w.workstreamId .ready none []) >>= fun _ =>
        (getPlan >>= fun plan => pure (listReady notAfter plan))) (startPlan plan) := by
    rw [beginRun_apply, bind_ok (startPlan_step plan)]
    rfl
  have hids : (listReady notAfter (startPlan plan)).forM
      (fun w => transitionWorkstream w.workstreamId .ready none []) =
        (listedIds notAfter plan).forM fun id => transitionWorkstream id .ready none [] := by
    rw [← listedIds_startPlan]
    exact (forM_map (fun w : ExecutionWorkstream => w.workstreamId)
      (fun id => transitionWorkstream id .ready none []) (listReady notAfter (startPlan plan))).symm
  have hallowed : (∀ id ∈ listedIds notAfter plan, ∃ from_, (startPlan plan).statusOf id = some from_ ∧
      ExecutionWorkstreamStatus.ready ∈ transitions from_) ↔ AllPlanned plan := by
    constructor
    · intro hall id hid
      obtain ⟨from_, hfrom, hmem⟩ := hall id ((mem_listedIds notAfter).mpr hid)
      rw [startPlan_statusOf] at hfrom
      rcases hid.1 with hplanned | hready
      · exact hplanned
      · rw [hready] at hfrom
        obtain rfl := Option.some.inj hfrom
        exact absurd hmem (by decide)
    · intro hall id hid
      refine ⟨.planned, ?_, by decide⟩
      rw [startPlan_statusOf]
      exact hall id ((mem_listedIds notAfter).mp hid)
  rw [hrun, hids, bind_eq_ok_iff]
  constructor
  · rintro ⟨⟨⟩, mid, hmoves, hlist⟩
    obtain ⟨hfrom, rfl⟩ :=
      (forM_transitionWorkstream_eq_ok_iff (nodup_listedIds notAfter plan)).mp hmoves
    obtain ⟨rfl, rfl⟩ := EStateM.Result.ok.inj hlist
    exact ⟨hallowed.mp hfrom, rfl, rfl⟩
  · rintro ⟨hplanned, rfl, rfl⟩
    refine ⟨⟨⟩, _, ?_, rfl⟩
    exact (forM_transitionWorkstream_eq_ok_iff (nodup_listedIds notAfter plan)).mpr
      ⟨hallowed.mpr hplanned, rfl⟩

/-- Starting what was listed goes through, and `runReady` then has it all running. -/
theorem startAll_eq (plan : ExecutionPlan) :
    (listReady notAfter (readied notAfter plan)).forM startOne (readied notAfter plan) =
      .ok ⟨⟩ (dispatched notAfter plan) := by
  have hstart : (listReady notAfter (readied notAfter plan)).forM startOne =
      (listedIds notAfter plan).forM fun id => transitionWorkstream id .running none [] := by
    rw [← listedIds_readied]
    exact (forM_map (fun w : ExecutionWorkstream => w.workstreamId)
      (fun id => transitionWorkstream id .running none [])
      (listReady notAfter (readied notAfter plan))).symm
  rw [hstart]
  apply (forM_transitionWorkstream_eq_ok_iff (nodup_listedIds notAfter plan)).mpr
  constructor
  · intro id hid
    refine ⟨.ready, ?_, by decide⟩
    obtain ⟨hstatus, _⟩ := (mem_listedIds notAfter).mp hid
    unfold readied
    rw [statusOf_moveAll, if_pos hid, startPlan_statusOf]
    rcases hstatus with h | h
    · rw [h]
      rfl
    · rw [h]
      rfl
  · exact (moveAll_moveAll fun _ => Iff.rfl).symm

/-- Recording what every execution came to goes through. -/
theorem recordAll_eq (plan : ExecutionPlan) :
    (((listedIds notAfter plan).map fun id => (id, execute id)).insertionSort
        fun a b => notAfter a.1 b.1 = true).forM recordOutcome
      (dispatched notAfter plan) = .ok ⟨⟩ (executed notAfter execute plan) := by
  have hsorted : ((listedIds notAfter plan).map fun id => (id, execute id)).insertionSort
      (fun a b => notAfter a.1 b.1 = true) =
        ((listedIds notAfter plan).insertionSort fun a b => notAfter a b = true).map
          fun id => (id, execute id) := by
    symm
    apply map_insertionSort
    intro a _ b _
    exact Iff.rfl
  have hsame : ∀ id, id ∈ ((listedIds notAfter plan).insertionSort
      fun a b => notAfter a b = true) ↔ id ∈ listedIds notAfter plan :=
    fun id => mem_insertionSort _
  have hrecord : (fun id => recordOutcome (id, execute id)) =
      fun id => transitionWorkstream id (outcomeStatus (execute id))
        (outcomeReason (execute id)) [] := by
    funext id
    exact recordOutcome_eq id (execute id)
  rw [hsorted, forM_map, hrecord]
  apply (forM_transitionWorkstream_eq_ok_iff
    ((perm_insertionSort _ _).nodup_iff.mpr (nodup_listedIds notAfter plan))).mpr
  constructor
  · intro id hid
    have hlisted := (hsame id).mp hid
    refine ⟨.running, ?_, ?_⟩
    · obtain ⟨hstatus, _⟩ := (mem_listedIds notAfter).mp hlisted
      unfold dispatched
      rw [statusOf_moveAll, if_pos hlisted, startPlan_statusOf]
      rcases hstatus with h | h
      · rw [h]
        rfl
      · rw [h]
        rfl
    · cases execute id with
      | succeeded => decide
      | failed => decide
  · unfold executed dispatched
    rw [moveAll_moveAll hsame]

/-- What `runReady` tells its caller, but for what propagation blocked. -/
def reported (notAfter : String → String → Bool) (execute : String → Outcome)
    (ids blocked : List String) : SchedulerResult :=
  let results := (ids.map fun id => (id, execute id)).insertionSort
    fun a b => notAfter a.1 b.1 = true
  { started := sortTexts ids
    succeeded := sortTexts ((results.filter fun r => r.2 = .succeeded).map (·.1))
    failed := sortTexts ((results.filter fun r => r.2 = .failed).map (·.1))
    blocked := sortTexts blocked }

theorem mem_reported_succeeded {ids blocked : List String} {id : String} :
    id ∈ (reported notAfter execute ids blocked).succeeded ↔
      id ∈ ids ∧ execute id = .succeeded := by
  have hunfold : (reported notAfter execute ids blocked).succeeded =
      sortTexts ((((ids.map fun id => (id, execute id)).insertionSort
        fun a b => notAfter a.1 b.1 = true).filter fun r => r.2 = .succeeded).map (·.1)) := rfl
  rw [hunfold]
  unfold sortTexts
  rw [mem_insertionSort, mem_map]
  constructor
  · rintro ⟨r, hr, rfl⟩
    obtain ⟨hsorted, hout⟩ := mem_filter.mp hr
    obtain ⟨id, hid, rfl⟩ := mem_map.mp ((mem_insertionSort _).mp hsorted)
    exact ⟨hid, of_decide_eq_true hout⟩
  · rintro ⟨hid, hout⟩
    refine ⟨(id, execute id), mem_filter.mpr ⟨?_, decide_eq_true hout⟩, rfl⟩
    exact (mem_insertionSort _).mpr (mem_map_of_mem hid)

theorem nodup_reported_succeeded {ids blocked : List String} (hdistinct : ids.Nodup) :
    (reported notAfter execute ids blocked).succeeded.Nodup := by
  have hunfold : (reported notAfter execute ids blocked).succeeded =
      sortTexts ((((ids.map fun id => (id, execute id)).insertionSort
        fun a b => notAfter a.1 b.1 = true).filter fun r => r.2 = .succeeded).map (·.1)) := rfl
  rw [hunfold]
  unfold sortTexts
  apply (perm_insertionSort _ _).nodup_iff.mpr
  have hmap : (((ids.map fun id => (id, execute id)).insertionSort
      fun a b => notAfter a.1 b.1 = true).map (·.1)).Nodup := by
    have hperm := (perm_insertionSort (fun a b : String × Outcome => notAfter a.1 b.1 = true)
      (ids.map fun id => (id, execute id))).map Prod.fst
    have hfirst : (Prod.fst ∘ fun id => (id, execute id)) = id := rfl
    rw [map_map, hfirst, map_id] at hperm
    exact hperm.nodup_iff.mpr hdistinct
  exact hmap.sublist (filter_sublist.map _)

theorem mem_sortTexts {texts : List String} {text : String} :
    text ∈ sortTexts texts ↔ text ∈ texts := mem_insertionSort _

theorem runReady_eq_ok_iff {plan plan' : ExecutionPlan} {result : SchedulerResult} :
    runReady notAfter execute plan = .ok result plan' ↔
      AllPlanned plan ∧ ∃ blocked mid,
        propagateDependencyFailures (executed notAfter execute plan) = .ok blocked mid ∧
          result = reported notAfter execute (listedIds notAfter plan) blocked ∧
            plan' = finalized mid := by
  have hlisted : (listReady notAfter (readied notAfter plan)).map (fun w => w.workstreamId) =
      listedIds notAfter plan := listedIds_readied notAfter plan
  have hend : endRun notAfter (listedIds notAfter plan)
      ((listedIds notAfter plan).map fun id => (id, execute id)) (dispatched notAfter plan) =
        (propagateDependencyFailures >>= fun blocked => finalizePlan >>= fun _ =>
          pure (reported notAfter execute (listedIds notAfter plan) blocked))
        (executed notAfter execute plan) := bind_ok (recordAll_eq plan)
  constructor
  · intro hrun
    obtain ⟨dispatchable, plan₁, hbegin, hrest⟩ := bind_eq_ok_iff.mp hrun
    obtain ⟨hplanned, rfl, rfl⟩ := beginRun_eq_ok_iff.mp hbegin
    rw [bind_ok (startAll_eq plan), hlisted, hend] at hrest
    obtain ⟨blocked, mid, hprop, hfinal⟩ := bind_eq_ok_iff.mp hrest
    rw [bind_ok (finalizePlan_eq mid)] at hfinal
    obtain ⟨rfl, rfl⟩ := pure_eq_ok_iff.mp hfinal
    exact ⟨hplanned, blocked, mid, hprop, rfl, rfl⟩
  · rintro ⟨hplanned, blocked, mid, hprop, rfl, rfl⟩
    have hbegin : beginRun notAfter plan = .ok (listReady notAfter (readied notAfter plan))
        (readied notAfter plan) := beginRun_eq_ok_iff.mpr ⟨hplanned, rfl, rfl⟩
    have hunfold : runReady notAfter execute plan = _ := bind_ok hbegin
    rw [hunfold, bind_ok (startAll_eq plan), hlisted, hend, bind_ok hprop,
      bind_ok (finalizePlan_eq mid)]
    rfl

end Run

end RunReady
