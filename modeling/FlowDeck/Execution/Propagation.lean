import FlowDeck.Execution.Scheduler
import FlowDeck.Library.DependencyGraph

namespace Propagation

open ExecutionContracts PlanRepository ExecutionScheduler Wavefront.Cut List

/-- A dependency is lost when it has failed or is planned behind one that is. -/
abbrev Lost (plan : ExecutionPlan) : String → Prop :=
  Wavefront.Cut (fun id d => d ∈ plan.depsOf id) (fun id => plan.statusOf id = some .planned)
    fun id => unavailable plan id = true

/-- No workstream that is already marked ready depends on a lost one. -/
def ReadyUnaffected (plan : ExecutionPlan) : Prop :=
  ∀ id, plan.statusOf id = some .ready → ∀ d ∈ plan.depsOf id, ¬Lost plan d

variable {plan plan' : ExecutionPlan} {id : String}

theorem unavailable_iff :
    unavailable plan id = true ↔ ∃ status, plan.statusOf id = some status ∧
      (status = .failed ∨ status = .blocked ∨ status = .cancelled) := by
  unfold unavailable
  cases plan.statusOf id with
  | none => simp
  | some status => simp [or_assoc]

theorem blockable_iff {w : ExecutionWorkstream} :
    blockable plan w = true ↔ (w.status = .planned ∨ w.status = .ready) ∧
      ∃ d ∈ w.dependsOn, unavailable plan d = true := by
  unfold blockable blockers
  simp only [Bool.and_eq_true, Bool.or_eq_true, decide_eq_true_eq, Bool.not_eq_true',
    isEmpty_eq_false_iff, ne_eq, filter_eq_nil_iff, not_forall, not_not]
  constructor
  · rintro ⟨hstatus, d, hd, hun⟩
    exact ⟨hstatus, d, hd, hun⟩
  · rintro ⟨hstatus, d, hd, hun⟩
    exact ⟨hstatus, d, hd, hun⟩

def hits (plan : ExecutionPlan) : List ExecutionWorkstream :=
  plan.workstreams.rows.filter (blockable plan)

def hitIds (plan : ExecutionPlan) : List String := (hits plan).map fun w => w.workstreamId

theorem nodup_hitIds (plan : ExecutionPlan) : (hitIds plan).Nodup :=
  plan.workstreams.unique.sublist (filter_sublist.map _)

theorem mem_hitIds :
    id ∈ hitIds plan ↔
      ∃ w, plan.workstreams.get? id = some w ∧ blockable plan w = true := by
  unfold hitIds hits
  rw [mem_map]
  constructor
  · rintro ⟨w, hw, rfl⟩
    obtain ⟨hmem, hblock⟩ := mem_filter.mp hw
    exact ⟨w, Table.get?_of_mem hmem, hblock⟩
  · rintro ⟨w, hget, hblock⟩
    exact ⟨w, mem_filter.mpr ⟨Table.mem_of_get? hget, hblock⟩, Table.key_of_get? hget⟩

def blockersOf (plan : ExecutionPlan) (id : String) : List String :=
  ((plan.workstreams.get? id).map (blockers plan)).getD []

def blockHits (plan : ExecutionPlan) : ExecutionPlan :=
  moveAll plan (hitIds plan) (fun _ => .blocked) (fun _ => some "DEPENDENCY_FAILED")
    (blockersOf plan)

/-- A turn goes through exactly when none of the workstreams it blocks was marked ready. -/
theorem propagateOnce_eq_ok_iff {hit : List String} :
    propagateOnce plan = .ok hit plan' ↔
      (∀ w ∈ hits plan, w.status = .planned) ∧ hit = hitIds plan ∧ plan' = blockHits plan := by
  have hloop : ∀ ws : List ExecutionWorkstream,
      (∀ w ∈ ws, plan.workstreams.get? w.workstreamId = some w) →
      (ws.forM fun w => transitionWorkstream w.workstreamId .blocked (some "DEPENDENCY_FAILED")
        (blockers plan w)) =
      ((ws.map fun w => w.workstreamId).forM fun id =>
        transitionWorkstream id .blocked (some "DEPENDENCY_FAILED") (blockersOf plan id)) := by
    intro ws hws
    induction ws with
    | nil => rfl
    | cons w ws ih =>
      have hw : blockersOf plan w.workstreamId = blockers plan w := by
        unfold blockersOf
        rw [hws w mem_cons_self]
        rfl
      have hrest := ih fun v hv => hws v (mem_cons_of_mem _ hv)
      have hcons : ∀ f : ExecutionWorkstream → PlanM Unit,
          (w :: ws).forM f = (f w >>= fun _ => ws.forM f) := fun f => rfl
      have hcons' : ∀ f : String → PlanM Unit,
          (w.workstreamId :: ws.map fun w => w.workstreamId).forM f =
            (f w.workstreamId >>= fun _ => (ws.map fun w => w.workstreamId).forM f) := fun f => rfl
      rw [hcons, map_cons, hcons', hrest, hw]
  have hgets : ∀ w ∈ hits plan, plan.workstreams.get? w.workstreamId = some w :=
    fun w hw => Table.get?_of_mem (mem_of_mem_filter hw)
  have hrun : propagateOnce plan = (do
      (hitIds plan).forM fun id =>
        transitionWorkstream id .blocked (some "DEPENDENCY_FAILED") (blockersOf plan id)
      pure (hitIds plan) : PlanM (List String)) plan := by
    unfold hitIds
    rw [← hloop (hits plan) hgets]
    rfl
  rw [hrun, Fallible.bind_eq_ok_iff]
  have hallowed : (∀ id ∈ hitIds plan, ∃ from_, plan.statusOf id = some from_ ∧
      ExecutionWorkstreamStatus.blocked ∈ transitions from_) ↔
        ∀ w ∈ hits plan, w.status = .planned := by
    constructor
    · intro hall w hw
      obtain ⟨from_, hfrom, hmem⟩ := hall w.workstreamId (mem_map_of_mem hw)
      rw [statusOf_of_mem (mem_of_mem_filter hw)] at hfrom
      obtain rfl := Option.some.inj hfrom
      rcases (blockable_iff.mp (mem_filter.mp hw).2).1 with hplanned | hready
      · exact hplanned
      · rw [hready] at hmem
        exact absurd hmem (by decide)
    · intro hall id hid
      obtain ⟨w, hw, rfl⟩ := mem_map.mp hid
      refine ⟨w.status, statusOf_of_mem (mem_of_mem_filter hw), ?_⟩
      rw [hall w hw]
      decide
  constructor
  · rintro ⟨⟨⟩, mid, hmoves, hpure⟩
    obtain ⟨hfrom, rfl⟩ := (forM_transitionWorkstream_eq_ok_iff (nodup_hitIds plan)).mp hmoves
    obtain ⟨rfl, rfl⟩ := Fallible.pure_eq_ok_iff.mp hpure
    exact ⟨hallowed.mp hfrom, rfl, rfl⟩
  · rintro ⟨hplanned, rfl, rfl⟩
    refine ⟨⟨⟩, blockHits plan, ?_, rfl⟩
    exact (forM_transitionWorkstream_eq_ok_iff (nodup_hitIds plan)).mpr
      ⟨hallowed.mpr hplanned, rfl⟩

theorem statusOf_blockHits (plan : ExecutionPlan) (id : String) :
    (blockHits plan).statusOf id =
      if id ∈ hitIds plan then some .blocked else plan.statusOf id := by
  unfold blockHits
  rw [statusOf_moveAll]
  split_ifs with hmem
  · obtain ⟨w, hget, _⟩ := mem_hitIds.mp hmem
    rw [statusOf_eq_some_iff.mpr ⟨w, hget, rfl⟩]
    rfl
  · rfl

theorem depsOf_blockHits (plan : ExecutionPlan) (id : String) :
    (blockHits plan).depsOf id = plan.depsOf id := depsOf_moveAll plan _ id

theorem unavailable_blockHits :
    unavailable (blockHits plan) id = true ↔ unavailable plan id = true ∨ id ∈ hitIds plan := by
  rw [unavailable_iff, unavailable_iff, statusOf_blockHits]
  by_cases hmem : id ∈ hitIds plan
  · simp [hmem]
  · simp [hmem]

theorem mem_hitIds_iff :
    id ∈ hitIds plan ↔ (plan.statusOf id = some .planned ∨ plan.statusOf id = some .ready) ∧
      ∃ d ∈ plan.depsOf id, unavailable plan d = true := by
  rw [mem_hitIds]
  constructor
  · rintro ⟨w, hget, hblock⟩
    obtain ⟨hstatus, hdep⟩ := blockable_iff.mp hblock
    have hkey : w.workstreamId = id := Table.key_of_get? hget
    have hmem := Table.mem_of_get? hget
    rw [← hkey, statusOf_of_mem hmem, depsOf_of_mem hmem]
    simpa using ⟨hstatus, hdep⟩
  · rintro ⟨hstatus, hdep⟩
    have hsome : ∃ status, plan.statusOf id = some status := by
      rcases hstatus with h | h
      · exact ⟨_, h⟩
      · exact ⟨_, h⟩
    obtain ⟨status, hstatus'⟩ := hsome
    obtain ⟨w, hmem, rfl, _⟩ := exists_row_of_statusOf hstatus'
    refine ⟨w, Table.get?_of_mem hmem, blockable_iff.mpr ?_⟩
    rw [statusOf_of_mem hmem, Option.some.injEq, Option.some.injEq] at hstatus
    rw [depsOf_of_mem hmem] at hdep
    exact ⟨hstatus, hdep⟩

/-- Every workstream of the turn is still planned. -/
def HitsPlanned (plan : ExecutionPlan) : Prop :=
  ∀ id ∈ hitIds plan, plan.statusOf id = some .planned

theorem hitsPlanned_iff : (∀ w ∈ hits plan, w.status = .planned) ↔ HitsPlanned plan := by
  constructor
  · intro h id hid
    obtain ⟨w, hw, rfl⟩ := mem_map.mp hid
    rw [statusOf_of_mem (mem_of_mem_filter hw), h w hw]
  · intro h w hw
    have hstatus := h w.workstreamId (mem_map_of_mem hw)
    rw [statusOf_of_mem (mem_of_mem_filter hw)] at hstatus
    exact Option.some.inj hstatus

theorem lost_of_hit (hmem : id ∈ hitIds plan) (hplanned : HitsPlanned plan) : Lost plan id := by
  obtain ⟨_, d, hd, hun⟩ := mem_hitIds_iff.mp hmem
  exact behind (hplanned id hmem) hd (broken hun)

/-- A turn loses nothing that was not lost before. -/
theorem lost_blockHits_iff (hplanned : HitsPlanned plan) {id : String} :
    Lost (blockHits plan) id ↔ Lost plan id := by
  constructor
  · intro h
    induction h with
    | broken h =>
      rcases unavailable_blockHits.mp h with hun | hmem
      · exact broken hun
      · exact lost_of_hit hmem hplanned
    | behind hstatus hdep _ ih =>
      rw [statusOf_blockHits] at hstatus
      split_ifs at hstatus with hmem
      · cases hstatus
      · rw [depsOf_blockHits] at hdep
        exact behind hstatus hdep ih
  · intro h
    induction h with
    | broken h => exact broken (unavailable_blockHits.mpr (Or.inl h))
    | @behind id d hstatus hdep _ ih =>
      by_cases hmem : id ∈ hitIds plan
      · exact broken (unavailable_blockHits.mpr (Or.inr hmem))
      · refine behind ?_ ?_ ih
        · rw [statusOf_blockHits, if_neg hmem]
          exact hstatus
        · rw [depsOf_blockHits]
          exact hdep

/-- When a turn finds nothing to block, what is lost has failed already. -/
theorem unavailable_of_lost (hnone : hitIds plan = []) {id : String} (h : Lost plan id) :
    unavailable plan id = true := by
  induction h with
  | broken h => exact h
  | @behind id d hstatus hdep _ ih =>
    have hmem : id ∈ hitIds plan := mem_hitIds_iff.mpr ⟨Or.inl hstatus, d, hdep, ih⟩
    rw [hnone] at hmem
    exact absurd hmem not_mem_nil

def plannedCount (plan : ExecutionPlan) : Nat :=
  plan.workstreams.rows.countP fun w => w.status = .planned

/-- What propagation makes of a plan: the planned workstreams that are lost are blocked. -/
structure Settles (plan plan' : ExecutionPlan) : Prop where
  planStatus : plan'.status = plan.status
  attempts : plan'.integratedAttempts = plan.integratedAttempts
  deps : ∀ id, plan'.depsOf id = plan.depsOf id
  blocked : ∀ id, plan.statusOf id = some .planned → Lost plan id →
    plan'.statusOf id = some .blocked
  kept : ∀ id, ¬(plan.statusOf id = some .planned ∧ Lost plan id) →
    plan'.statusOf id = plan.statusOf id

theorem plannedCount_blockHits_lt (hplanned : HitsPlanned plan) (hsome : hitIds plan ≠ []) :
    plannedCount (blockHits plan) < plannedCount plan := by
  have hle : ∀ w ∈ plan.workstreams.rows,
      (Table.setWhere (fun w => decide (w.workstreamId ∈ hitIds plan))
        (fun w =>
          { w with
            status := .blocked
            failureReason := some "DEPENDENCY_FAILED"
            blockedBy := blockersOf plan w.workstreamId }) w).status = .planned →
        w.status = .planned ∧ w.workstreamId ∉ hitIds plan := by
    intro w _ hstatus
    unfold Table.setWhere at hstatus
    split_ifs at hstatus with hmem
    exact ⟨hstatus, by simpa using hmem⟩
  obtain ⟨id, hid⟩ := exists_mem_of_ne_nil _ hsome
  obtain ⟨w, hw, rfl, hstatus⟩ := exists_row_of_statusOf (hplanned id hid)
  unfold plannedCount blockHits moveAll Table.update
  simp only [countP_map]
  have hsplit : plan.workstreams.rows.countP (fun w => w.status = .planned) =
      plan.workstreams.rows.countP (fun w => decide (w.status = .planned) &&
        decide (w.workstreamId ∉ hitIds plan)) +
      plan.workstreams.rows.countP (fun w => decide (w.status = .planned) &&
        decide (w.workstreamId ∈ hitIds plan)) := by
    generalize plan.workstreams.rows = rows
    induction rows with
    | nil => rfl
    | cons v rows ih =>
      simp only [countP_cons, ih]
      by_cases hv : v.status = .planned
      · by_cases hmem : v.workstreamId ∈ hitIds plan
        · simp [hv, hmem]
          omega
        · simp [hv, hmem]
          omega
      · simp [hv]
  have hpos : 0 < plan.workstreams.rows.countP (fun w => decide (w.status = .planned) &&
      decide (w.workstreamId ∈ hitIds plan)) := by
    rw [countP_pos_iff]
    exact ⟨w, hw, by simp [hstatus, hid]⟩
  have hmono := countP_mono_left (l := plan.workstreams.rows)
    (p := (fun w => decide (w.status = .planned)) ∘ Table.setWhere
      (fun w => decide (w.workstreamId ∈ hitIds plan))
      (fun w =>
        { w with
          status := .blocked
          failureReason := some "DEPENDENCY_FAILED"
          blockedBy := blockersOf plan w.workstreamId }))
    (q := fun w => decide (w.status = .planned) && decide (w.workstreamId ∉ hitIds plan)) (by
      intro v hv hp
      have hboth := hle v hv (by simpa using hp)
      simpa using hboth)
  omega

theorem settles_of_quiet {plan : ExecutionPlan} (hnone : hitIds plan = []) : Settles plan plan where
  planStatus := rfl
  attempts := rfl
  deps _ := rfl
  blocked id hstatus hlost := by
    have hun := unavailable_of_lost hnone hlost
    rw [unavailable_iff, hstatus] at hun
    obtain ⟨status, hsome, hcases⟩ := hun
    obtain rfl := Option.some.inj hsome
    simp at hcases
  kept _ _ := rfl

theorem Settles.of_blockHits {plan plan' : ExecutionPlan} (hplanned : HitsPlanned plan)
    (h : Settles (blockHits plan) plan') : Settles plan plan' where
  planStatus := h.planStatus
  attempts := h.attempts
  deps id := by rw [h.deps, depsOf_blockHits]
  blocked id hstatus hlost := by
    by_cases hmem : id ∈ hitIds plan
    · have hkept := h.kept id (by
        rw [statusOf_blockHits, if_pos hmem]
        rintro ⟨hsome, _⟩
        cases hsome)
      rw [hkept, statusOf_blockHits, if_pos hmem]
    · apply h.blocked id
      · rw [statusOf_blockHits, if_neg hmem]
        exact hstatus
      · exact (lost_blockHits_iff hplanned).mpr hlost
  kept id hnot := by
    have hmem : id ∉ hitIds plan := by
      intro hmem
      exact hnot ⟨hplanned id hmem, lost_of_hit hmem hplanned⟩
    have hkept := h.kept id (by
      rw [statusOf_blockHits, if_neg hmem, lost_blockHits_iff hplanned]
      exact hnot)
    rw [hkept, statusOf_blockHits, if_neg hmem]

theorem readyUnaffected_of_quiet (hnone : hitIds plan = []) : ReadyUnaffected plan := by
  intro id hready d hd hlost
  have hmem : id ∈ hitIds plan :=
    mem_hitIds_iff.mpr ⟨Or.inr hready, d, hd, unavailable_of_lost hnone hlost⟩
  rw [hnone] at hmem
  exact absurd hmem not_mem_nil

theorem readyUnaffected_blockHits_iff (hplanned : HitsPlanned plan) :
    ReadyUnaffected (blockHits plan) ↔ ReadyUnaffected plan := by
  have hready : ∀ id, (blockHits plan).statusOf id = some .ready ↔
      plan.statusOf id = some .ready := by
    intro id
    rw [statusOf_blockHits]
    split_ifs with hmem
    · rw [hplanned id hmem]
      simp
    · rfl
  unfold ReadyUnaffected
  simp only [hready, depsOf_blockHits, lost_blockHits_iff hplanned]

theorem hitsPlanned_of_readyUnaffected (h : ReadyUnaffected plan) : HitsPlanned plan := by
  intro id hid
  obtain ⟨hstatus, d, hd, hun⟩ := mem_hitIds_iff.mp hid
  rcases hstatus with hplanned | hready
  · exact hplanned
  · exact (h id hready d hd (broken hun)).elim

/-- The loop goes through exactly when no workstream marked ready depends on a lost one. -/
theorem propagateLoop_spec {turns : Nat} (hturns : plannedCount plan < turns) :
    (ReadyUnaffected plan → ∃ blocked plan', propagateLoop turns plan = .ok blocked plan') ∧
      ∀ blocked plan', propagateLoop turns plan = .ok blocked plan' →
        ReadyUnaffected plan ∧ Settles plan plan' := by
  induction turns generalizing plan with
  | zero => omega
  | succ turns ih =>
    have hunfold : propagateLoop (turns + 1) = (propagateOnce >>= fun hit =>
        if hit = [] then pure [] else propagateLoop turns >>= fun rest => pure (hit ++ rest)) := rfl
    rw [hunfold]
    constructor
    · intro hready
      have hplanned := hitsPlanned_of_readyUnaffected hready
      have honce : propagateOnce plan = .ok (hitIds plan) (blockHits plan) :=
        propagateOnce_eq_ok_iff.mpr ⟨hitsPlanned_iff.mpr hplanned, rfl, rfl⟩
      rw [Fallible.bind_ok honce]
      by_cases hnone : hitIds plan = []
      · rw [if_pos hnone]
        exact ⟨[], blockHits plan, rfl⟩
      · rw [if_neg hnone]
        have hless := plannedCount_blockHits_lt hplanned hnone
        obtain ⟨blocked, plan', hloop⟩ := (@ih (blockHits plan) (by omega)).1
          ((readyUnaffected_blockHits_iff hplanned).mpr hready)
        rw [Fallible.bind_ok hloop]
        exact ⟨hitIds plan ++ blocked, plan', rfl⟩
    · intro blocked plan' hok
      obtain ⟨hit, mid, honce, hrest⟩ := Fallible.bind_eq_ok_iff.mp hok
      obtain ⟨hhits, rfl, rfl⟩ := propagateOnce_eq_ok_iff.mp honce
      have hplanned := hitsPlanned_iff.mp hhits
      by_cases hnone : hitIds plan = []
      · rw [if_pos hnone] at hrest
        obtain ⟨_, rfl⟩ := Fallible.pure_eq_ok_iff.mp hrest
        have hsame : blockHits plan = plan := by
          unfold blockHits
          rw [hnone]
          exact moveAll_nil plan
        rw [hsame]
        exact ⟨readyUnaffected_of_quiet hnone, settles_of_quiet hnone⟩
      · rw [if_neg hnone] at hrest
        obtain ⟨rest, last, hloop, hpure⟩ := Fallible.bind_eq_ok_iff.mp hrest
        obtain ⟨_, rfl⟩ := Fallible.pure_eq_ok_iff.mp hpure
        have hless := plannedCount_blockHits_lt hplanned hnone
        obtain ⟨hready, hsettles⟩ := (@ih (blockHits plan) (by omega)).2 rest last hloop
        exact ⟨(readyUnaffected_blockHits_iff hplanned).mp hready,
          hsettles.of_blockHits hplanned⟩

theorem propagateDependencyFailures_spec (plan : ExecutionPlan) :
    (ReadyUnaffected plan →
      ∃ blocked plan', propagateDependencyFailures plan = .ok blocked plan') ∧
      ∀ blocked plan', propagateDependencyFailures plan = .ok blocked plan' →
        ReadyUnaffected plan ∧ Settles plan plan' := by
  have hturns : plannedCount plan < plan.workstreams.rows.length + 1 :=
    Nat.lt_succ_of_le countP_le_length
  obtain ⟨hthrough, hspec⟩ := propagateLoop_spec hturns
  have hunfold : propagateDependencyFailures plan =
      (propagateLoop (plan.workstreams.rows.length + 1) >>= fun blocked =>
        pure (sortTexts blocked.dedup)) plan := rfl
  rw [hunfold]
  constructor
  · intro hready
    obtain ⟨blocked, plan', hloop⟩ := hthrough hready
    rw [Fallible.bind_ok hloop]
    exact ⟨_, plan', rfl⟩
  · intro blocked plan' hok
    obtain ⟨hit, mid, hloop, hpure⟩ := Fallible.bind_eq_ok_iff.mp hok
    obtain ⟨_, rfl⟩ := Fallible.pure_eq_ok_iff.mp hpure
    exact hspec hit mid hloop

end Propagation

/-! What the propagation of failures does to every row of a plan. -/

namespace Propagation

open ExecutionContracts PlanRepository ExecutionScheduler

/-- A workstream that the propagation looks at. -/
def Open (plan : ExecutionPlan) (id : String) : Prop :=
  plan.statusOf id = some .planned ∨ plan.statusOf id = some .ready

/-- It has failed, or a chain of dependencies through open ones leads to what has. -/
abbrev Reaches (plan : ExecutionPlan) : String → Prop :=
  Wavefront.Cut (fun id d => d ∈ plan.depsOf id) (Open plan) fun id => unavailable plan id = true

/-- The open workstreams that reach a failed one are blocked, and nothing else changes. -/
structure Propagated (plan plan' : ExecutionPlan) : Prop where
  planStatus : plan'.status = plan.status
  attempts : plan'.integratedAttempts = plan.integratedAttempts
  deps : ∀ id, plan'.depsOf id = plan.depsOf id
  blocked : ∀ id, Open plan id → Reaches plan id → plan'.statusOf id = some .blocked
  unchanged : ∀ id, ¬(Open plan id ∧ Reaches plan id) →
    plan'.workstreams.get? id = plan.workstreams.get? id

variable {plan plan' : ExecutionPlan} {blocked : List String}

theorem get?_blockHits {id : String} (h : id ∉ hitIds plan) :
    (blockHits plan).workstreams.get? id = plan.workstreams.get? id := by
  unfold blockHits
  rw [get?_moveAll]
  simp [h]

theorem propagateLoop_rows {turns : Nat} (h : propagateLoop turns plan = .ok blocked plan')
    (id : String) :
    plan'.workstreams.get? id = plan.workstreams.get? id ∨
      plan.statusOf id = some .planned ∧ plan'.statusOf id = some .blocked := by
  induction turns generalizing plan blocked with
  | zero =>
    obtain ⟨-, rfl⟩ := Fallible.pure_eq_ok_iff.mp h
    exact .inl rfl
  | succ turns ih =>
    have hunfold : propagateLoop (turns + 1) = (propagateOnce >>= fun hit =>
        if hit = [] then pure [] else propagateLoop turns >>= fun rest => pure (hit ++ rest)) := rfl
    rw [hunfold] at h
    obtain ⟨hit, mid, honce, hrest⟩ := Fallible.bind_eq_ok_iff.mp h
    obtain ⟨hhits, rfl, rfl⟩ := propagateOnce_eq_ok_iff.mp honce
    have hplanned := hitsPlanned_iff.mp hhits
    have hlater : plan'.workstreams.get? id = (blockHits plan).workstreams.get? id ∨
        (blockHits plan).statusOf id = some .planned ∧ plan'.statusOf id = some .blocked := by
      split_ifs at hrest with hnone
      · obtain ⟨-, rfl⟩ := Fallible.pure_eq_ok_iff.mp hrest
        exact .inl rfl
      · obtain ⟨rest, last, hloop, hpure⟩ := Fallible.bind_eq_ok_iff.mp hrest
        obtain ⟨-, rfl⟩ := Fallible.pure_eq_ok_iff.mp hpure
        exact ih hloop
    by_cases hmem : id ∈ hitIds plan
    · have hstatus : (blockHits plan).statusOf id = some .blocked := by
        rw [statusOf_blockHits, if_pos hmem]
      rcases hlater with hsame | ⟨hstill, -⟩
      · refine .inr ⟨hplanned id hmem, ?_⟩
        rw [ExecutionPlan.statusOf, hsame]
        exact hstatus
      · rw [hstatus] at hstill
        cases hstill
    · rw [get?_blockHits hmem, statusOf_blockHits, if_neg hmem] at hlater
      exact hlater

theorem reaches_iff_lost (h : ReadyUnaffected plan) {id : String} :
    Reaches plan id ↔ Lost plan id := by
  apply Wavefront.cut_widen_iff
  exact fun id hready d hd => h id hready d hd

theorem propagateDependencyFailures_rows (h : propagateDependencyFailures plan = .ok blocked plan')
    (id : String) :
    plan'.workstreams.get? id = plan.workstreams.get? id ∨
      plan.statusOf id = some .planned ∧ plan'.statusOf id = some .blocked := by
  have hunfold : propagateDependencyFailures plan =
      (propagateLoop (plan.workstreams.rows.length + 1) >>= fun blocked =>
        pure (sortTexts blocked.dedup)) plan := rfl
  rw [hunfold] at h
  obtain ⟨hit, mid, hloop, hpure⟩ := Fallible.bind_eq_ok_iff.mp h
  obtain ⟨-, rfl⟩ := Fallible.pure_eq_ok_iff.mp hpure
  exact propagateLoop_rows hloop id

theorem Settles.propagated (hready : ReadyUnaffected plan) (h : Settles plan plan')
    (hok : propagateDependencyFailures plan = .ok blocked plan') : Propagated plan plan' := by
  refine ⟨h.planStatus, h.attempts, h.deps, ?_, ?_⟩
  · intro id hopen hreaches
    rcases hopen with hplanned | hmarked
    · exact h.blocked id hplanned ((reaches_iff_lost hready).mp hreaches)
    · -- one that is marked ready reaches nothing that has failed
      cases hreaches with
      | broken hbroken =>
        obtain ⟨status, hstatus, hcases⟩ := unavailable_iff.mp hbroken
        rw [hmarked] at hstatus
        obtain rfl := Option.some.inj hstatus
        simp at hcases
      | behind _ hdep hcut =>
        exact absurd ((reaches_iff_lost hready).mp hcut) (hready id hmarked _ hdep)
  · intro id hnot
    rcases propagateDependencyFailures_rows hok id with hsame | ⟨hplanned, hblocked⟩
    · exact hsame
    · have hkept := h.kept id (fun hlost => hnot
        ⟨.inl hplanned, (reaches_iff_lost hready).mpr hlost.2⟩)
      rw [hblocked, hplanned] at hkept
      cases hkept

/-- The propagation ends with the open workstreams that reach a failed one blocked, and no other
changed, exactly when none that is marked ready depends on a lost one. -/
theorem propagates_iff (plan : ExecutionPlan) :
    (∃ blocked plan', propagateDependencyFailures plan = .ok blocked plan' ∧
      Propagated plan plan') ↔ ReadyUnaffected plan := by
  obtain ⟨hthrough, hspec⟩ := propagateDependencyFailures_spec plan
  constructor
  · intro ⟨blocked, plan', hok, _⟩
    exact (hspec blocked plan' hok).1
  · intro hready
    obtain ⟨blocked, plan', hok⟩ := hthrough hready
    exact ⟨blocked, plan', hok, (hspec blocked plan' hok).2.propagated hready hok⟩

def exampleRow (id : String) (dependsOn : List String) (status : ExecutionWorkstreamStatus) :
    ExecutionWorkstream := ⟨id, dependsOn, status, [], none⟩

theorem readyBehindFailed_unique :
    ([exampleRow "a" [] .failed, exampleRow "b" ["a"] .ready].map (·.workstreamId)).Nodup := by
  decide

def readyBehindFailed : ExecutionPlan where
  status := .running
  workstreams := ⟨[exampleRow "a" [] .failed, exampleRow "b" ["a"] .ready],
    readyBehindFailed_unique⟩
  integratedAttempts := []

theorem readyBehindFailed_refused : ¬∃ blocked plan',
    propagateDependencyFailures readyBehindFailed = .ok blocked plan' ∧
      Propagated readyBehindFailed plan' := by
  intro ⟨blocked, plan', hok, _⟩
  have herror : propagateDependencyFailures readyBehindFailed =
      .error "INVALID_WORKSTREAM_TRANSITION:ready->blocked" readyBehindFailed := rfl
  rw [herror] at hok
  cases hok

end Propagation
