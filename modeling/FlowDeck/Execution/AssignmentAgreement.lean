import FlowDeck.Execution.AssignmentMapping

namespace AssignmentAgreement

open AssignmentBinding AssignmentIdentity AssignmentMapping Machine List

/-- The caller is to insert the row of the identifier that its workstream is bound to. -/
def Owns (s : BindingState) (c : Nat) : Prop :=
  ∃ w id, at_ s c = some (w, .creating id) ∧ s.bound w = some id

/-- An assignment is inserted by the caller that won the binding, and no such caller fails or
crashes before its row is there. -/
def OwnerInserts (s : BindingState) : Action → Prop
  | .createAssignment c inserted => Owns s c ↔ inserted = true
  | .crash c => ¬Owns s c
  | _ => True

/-- Every row is the one its workstream is bound to, and every bound identifier has a row or is about
to get one. -/
structure Clean (s : BindingState) : Prop where
  rows : ∀ r ∈ s.assignments.rows, s.bound r.workstreamId = some r.id
  bound : ∀ w id, s.bound w = some id →
    (∃ r ∈ s.assignments.rows, r.id = id) ∨ ∃ c, at_ s c = some (w, .creating id)

theorem clean_initial : Clean initial := by
  constructor
  · intro r hr
    exact absurd hr not_mem_nil
  · intro w id hbound
    cases hbound

section Steps

variable {s t : BindingState} {c : Nat}

/-- A call that leaves a workstream without a row of its own. -/
theorem clean_setCall {x : Caller} (h : Sane s) (hx : Idle x) :
    Clean (s.setCall c x) ↔ Clean s ∧ ¬Owns s c := by
  have hcreating : ∀ c' w id, at_ (s.setCall c x) c' = some (w, .creating id) →
      c' ≠ c ∧ at_ s c' = some (w, .creating id) := fun c' w id hat => at_of_idle hx hat rfl
  constructor
  · intro hclean
    constructor
    · refine ⟨hclean.rows, ?_⟩
      intro w id hbound
      rcases hclean.bound w id hbound with hrow | ⟨c', hat⟩
      · exact Or.inl hrow
      · exact Or.inr ⟨c', (hcreating c' w id hat).2⟩
    · intro howns
      obtain ⟨w, id, hat, hbound⟩ := howns
      rcases hclean.bound w id hbound with ⟨r, hr, hid⟩ | ⟨c', hat'⟩
      · exact (h.creating c w id hat).2.2 r hr hid
      · obtain ⟨hne, hold⟩ := hcreating c' w id hat'
        exact hne (h.apart c' c _ _ _ _ id hold hat rfl rfl)
  · intro hclean
    refine ⟨hclean.1.rows, ?_⟩
    intro w id hbound
    rcases hclean.1.bound w id hbound with hrow | ⟨c', hat⟩
    · exact Or.inl hrow
    · have hne : c' ≠ c := by
        intro hsame
        rw [hsame] at hat
        exact hclean.2 ⟨w, id, hat, hbound⟩
      rw [← at_of_ne (x := x) hne] at hat
      exact Or.inr ⟨c', hat⟩

theorem not_owns {w : String} {phase : Phase} (hat : at_ s c = some (w, phase))
    (hphase : ∀ id, phase ≠ .creating id) : ¬Owns s c := by
  intro howns
  obtain ⟨w', id, hat', _⟩ := howns
  rw [hat] at hat'
  exact hphase id (Prod.mk.inj (Option.some.inj hat')).2

theorem not_owns_of_idle (hcall : s.calls c = none) : ¬Owns s c := by
  intro howns
  obtain ⟨w, id, hat, _⟩ := howns
  unfold at_ at hat
  rw [hcall] at hat
  cases hat

variable {correlationId assignmentId : String} {rest : List ExecutionWorkstream}
  {current : ExecutionWorkstream} {map : String → Option String}

theorem clean_drew {uuid : String} (hat : at_ s c = some (current.workstreamId, .looking))
    (ht : t = { s.setCall c (.running correlationId rest current (.reserving uuid) map) with
      drawn := uuid :: s.drawn }) : Clean t ↔ Clean s := by
  have hcreating : ∀ c' w id, at_ t c' = some (w, .creating id) ↔
      at_ s c' = some (w, .creating id) := by
    intro c' w id
    rw [ht]
    show at_ (s.setCall c _) c' = _ ↔ _
    rw [at_setCall]
    by_cases hsame : c' = c
    · rw [if_pos hsame, hsame, hat]
      simp [position]
    · rw [if_neg hsame]
  have hbound : ∀ w, t.bound w = s.bound w := by
    intro w
    rw [ht]
    rfl
  have hrows : t.assignments = s.assignments := by
    rw [ht]
    rfl
  constructor
  · intro hclean
    constructor
    · have hold := hclean.rows
      simp only [hrows, hbound] at hold
      exact hold
    · have hold := hclean.bound
      simp only [hrows, hbound, hcreating] at hold
      exact hold
  · intro hclean
    constructor
    · simp only [hrows, hbound]
      exact hclean.rows
    · simp only [hrows, hbound, hcreating]
      exact hclean.bound

theorem clean_reserved (h : Sane s) {record : AssignmentExecutionBinding}
    (hid : record.assignmentId = assignmentId) (hws : record.workstreamId = current.workstreamId)
    (hat : at_ s c = some (current.workstreamId, .reserving assignmentId))
    (ht : t = { s.setCall c (.running correlationId rest current (.creating assignmentId) map) with
      bindings := ensureBinding s.bindings record }) : Clean t ↔ Clean s := by
  have hb : t.bindings = ensureBinding s.bindings record := by rw [ht]
  have hrows : t.assignments = s.assignments := by
    rw [ht]
    rfl
  have hself : at_ t c = some (current.workstreamId, .creating assignmentId) := by
    rw [ht]
    exact at_running_self
  have hothers : ∀ c', c' ≠ c → at_ t c' = at_ s c' := by
    intro c' hne
    rw [ht]
    exact at_of_ne hne
  -- A binding of `s` is bound to something else than what the caller drew.
  have hold : ∀ w id, s.bound w = some id → id ≠ assignmentId := by
    intro w id hbound hsame
    rw [hsame] at hbound
    exact (h.reserving c _ _ hat).1 w hbound
  constructor
  · intro hclean
    constructor
    · intro r hr
      obtain ⟨⟨id, hbound⟩, _⟩ := h.rows r hr
      rw [← hrows] at hr
      have hrow := hclean.rows r hr
      rw [bound_kept hb hbound] at hrow
      rw [hbound, hrow]
    · intro w id hbound
      rcases hclean.bound w id (bound_kept hb hbound) with hrow | ⟨c', hat'⟩
      · rw [hrows] at hrow
        exact Or.inl hrow
      · have hne : c' ≠ c := by
          intro hsame
          rw [hsame, hself] at hat'
          have hphase := (Prod.mk.inj (Option.some.inj hat')).2
          exact hold w id hbound (Phase.creating.inj hphase).symm
        rw [hothers c' hne] at hat'
        exact Or.inr ⟨c', hat'⟩
  · intro hclean
    constructor
    · intro r hr
      rw [hrows] at hr
      exact bound_kept hb (hclean.rows r hr)
    · intro w id hbound
      rcases bound_cases hb hbound with hbound' | ⟨hw, hnew⟩
      · rcases hclean.bound w id hbound' with hrow | ⟨c', hat'⟩
        · rw [hrows]
          exact Or.inl hrow
        · have hne : c' ≠ c := by
            intro hsame
            rw [hsame, hat] at hat'
            cases hat'
          rw [← hothers c' hne] at hat'
          exact Or.inr ⟨c', hat'⟩
      · rw [hw, hnew, hws, hid]
        exact Or.inr ⟨c, hself⟩

theorem clean_inserted (h : Sane s) {row : Assignment} {assignments : Table Assignment.id}
    (hid : row.id = assignmentId) (hws : row.workstreamId = current.workstreamId)
    (hat : at_ s c = some (current.workstreamId, .creating assignmentId))
    (hinsert : assignments.rows = s.assignments.rows ++ [row])
    (ht : t = { s.setCall c (.running correlationId rest current (.created assignmentId) map) with
      assignments }) : Clean t ↔ Clean s ∧ Owns s c := by
  have hbound : ∀ w, t.bound w = s.bound w := by
    intro w
    rw [ht]
    rfl
  have hmem : ∀ r, r ∈ t.assignments.rows ↔ r ∈ s.assignments.rows ∨ r = row := by
    intro r
    rw [ht]
    simp [hinsert]
  have hself : at_ t c = some (current.workstreamId, .created assignmentId) := by
    rw [ht]
    exact at_running_self
  have hothers : ∀ c', c' ≠ c → at_ t c' = at_ s c' := by
    intro c' hne
    rw [ht]
    exact at_of_ne hne
  constructor
  · intro hclean
    refine ⟨⟨?_, ?_⟩, current.workstreamId, assignmentId, hat, ?_⟩
    · intro r hr
      rw [← hbound]
      exact hclean.rows r ((hmem r).mpr (Or.inl hr))
    · intro w id hw
      rw [← hbound] at hw
      rcases hclean.bound w id hw with ⟨r, hr, hsame⟩ | ⟨c', hat'⟩
      · rcases (hmem r).mp hr with hr' | hnew
        · exact Or.inl ⟨r, hr', hsame⟩
        · -- The new row is of the workstream that the caller is at.
          rw [hnew, hid] at hsame
          rw [← hsame, hbound] at hw
          have hwhere := (h.creating c _ _ hat).2.1 w hw
          rw [hwhere, ← hsame]
          exact Or.inr ⟨c, hat⟩
      · have hne : c' ≠ c := by
          intro hsame
          rw [hsame, hself] at hat'
          cases hat'
        rw [hothers c' hne] at hat'
        exact Or.inr ⟨c', hat'⟩
    · have hrow := hclean.rows row ((hmem row).mpr (Or.inr rfl))
      rw [hbound, hws, hid] at hrow
      exact hrow
  · intro hclean
    obtain ⟨hclean, w₀, id₀, hat₀, hbound₀⟩ := hclean
    obtain ⟨hw₀, hphase₀⟩ := Prod.mk.inj (Option.some.inj (hat₀.symm.trans hat))
    rw [hw₀, Phase.creating.inj hphase₀] at hbound₀
    constructor
    · intro r hr
      rw [hbound]
      rcases (hmem r).mp hr with hr' | hnew
      · exact hclean.rows r hr'
      · rw [hnew, hws, hid]
        exact hbound₀
    · intro w id hw
      rw [hbound] at hw
      rcases hclean.bound w id hw with ⟨r, hr, hsame⟩ | ⟨c', hat'⟩
      · exact Or.inl ⟨r, (hmem r).mpr (Or.inl hr), hsame⟩
      · by_cases hsame : c' = c
        · rw [hsame, hat] at hat'
          have hphase := (Prod.mk.inj (Option.some.inj hat')).2
          refine Or.inl ⟨row, (hmem row).mpr (Or.inr rfl), ?_⟩
          rw [hid, Phase.creating.inj hphase]
        · rw [← hothers c' hsame] at hat'
          exact Or.inr ⟨c', hat'⟩

end Steps

theorem step_clean_iff {plan : ExecutionPlan} {s t : BindingState} {a : Action} (h : Sane s)
    (hstep : step plan s a = some t) : Clean t ↔ Clean s ∧ OwnerInserts s a := by
  cases step_effect hstep with
  | called hidle ht =>
    rw [ht, clean_setCall h (idle_proceed _ _ _)]
    exact and_congr_right fun _ => iff_true_intro (not_owns_of_idle hidle)
  | found hcall hbound ht =>
    rw [ht, clean_setCall h (idle_proceed _ _ _)]
    have howns := not_owns (at_of_call hcall) fun _ => Phase.noConfusion
    exact and_congr_right fun _ => iff_true_intro howns
  | drew hcall hbound hfresh ht =>
    rw [clean_drew (at_of_call hcall) ht]
    exact (and_iff_left trivial).symm
  | reserved hcall ht =>
    rw [clean_reserved h rfl rfl (at_of_call hcall) ht]
    exact (and_iff_left trivial).symm
  | inserted hcall hinsert ht =>
    rw [clean_inserted h rfl rfl (at_of_call hcall) (Table.insert?_eq_some hinsert).2 ht]
    simp [OwnerInserts]
  | refused hcall ht =>
    rw [ht, clean_setCall h (idle_rebound _ _ _ _ _)]
    simp [OwnerInserts]
  | published hcall ht =>
    rw [ht, clean_setCall h (idle_proceed _ _ _)]
    have howns := not_owns (at_of_call hcall) fun _ => Phase.noConfusion
    exact and_congr_right fun _ => iff_true_intro howns
  | unpublished hcall ht =>
    rw [ht, clean_setCall h (idle_rebound _ _ _ _ _)]
    have howns := not_owns (at_of_call hcall) fun _ => Phase.noConfusion
    exact and_congr_right fun _ => iff_true_intro howns
  | crashed hcall ht =>
    rw [ht, clean_setCall h idle_gone]
    exact Iff.rfl

/-- No call is under way. -/
def Quiet (s : BindingState) : Prop :=
  ∀ c x, s.calls c = some x → pending x = []

/-- A caller holds the identifier, or the next one to look will find it. -/
def Held (s : BindingState) (w id : String) : Prop :=
  (∃ c map, s.calls c = some (.finished map) ∧ map w = some id) ∨ s.bound w = some id

structure Agreed (plan : ExecutionPlan) (s : BindingState) : Prop where
  same : ∀ c c' map map', s.calls c = some (.finished map) → s.calls c' = some (.finished map') →
    map = map'
  covers : ∀ c map, s.calls c = some (.finished map) → ∀ w ∈ plan.workstreams,
    ∃ id, map w.workstreamId = some id
  row : ∀ w id, Held s w id →
    ((s.assignments.rows.filter fun r => r.workstreamId = w).map fun r => r.id) = [id]

section Quiet

variable {plan : ExecutionPlan} {s : BindingState}

theorem quiet_at (hquiet : Quiet s) (c : Nat) : at_ s c = none := by
  unfold at_
  cases hcall : s.calls c with
  | none => rfl
  | some x =>
    cases x with
    | running correlationId rest current phase map =>
      exact absurd (hquiet c _ hcall) (cons_ne_nil _ _)
    | finished map => rfl
    | gone => rfl

/-- Of identifiers that differ, those that equal one value are at most one. -/
theorem filter_eq_singleton (hclean : Clean s) {r : Assignment} (hr : r ∈ s.assignments.rows)
    {w : String} (hw : r.workstreamId = w) :
    ((s.assignments.rows.filter fun r => r.workstreamId = w).map fun r => r.id) = [r.id] := by
  have hnodup : ((s.assignments.rows.filter fun r => r.workstreamId = w).map fun r => r.id).Nodup :=
    (filter_sublist.map _).nodup s.assignments.unique
  have hbound : s.bound w = some r.id := hw ▸ hclean.rows r hr
  have hall : ∀ id ∈ (s.assignments.rows.filter fun r => r.workstreamId = w).map fun r => r.id,
      id = r.id := by
    intro id hid
    obtain ⟨r', hr', hsame⟩ := mem_map.mp hid
    obtain ⟨hmem, hw'⟩ := mem_filter.mp hr'
    have hbound' := hclean.rows r' hmem
    rw [of_decide_eq_true hw', hbound] at hbound'
    rw [← hsame, Option.some.inj hbound']
  have hmem : r.id ∈ (s.assignments.rows.filter fun r => r.workstreamId = w).map fun r => r.id :=
    mem_map_of_mem (mem_filter.mpr ⟨hr, decide_eq_true hw⟩)
  have hreplicate := eq_replicate_of_mem hall
  rw [hreplicate] at hnodup hmem ⊢
  have hle := nodup_replicate.mp hnodup
  have hpos : 0 < ((s.assignments.rows.filter fun r => r.workstreamId = w).map
      fun r => r.id).length := by
    rw [hreplicate]
    exact length_pos_of_mem hmem
  have hone : ((s.assignments.rows.filter fun r => r.workstreamId = w).map
      fun r => r.id).length = 1 := by omega
  rw [hone]
  rfl

theorem clean_row (hsane : Sane s) (hclean : Clean s) (hquiet : Quiet s) {w id : String}
    (hbound : s.bound w = some id) :
    ((s.assignments.rows.filter fun r => r.workstreamId = w).map fun r => r.id) = [id] := by
  rcases hclean.bound w id hbound with ⟨r, hr, hid⟩ | ⟨c, hat⟩
  · have hwhere : w = r.workstreamId := (hsane.rows r hr).2 w (hid ▸ hbound)
    rw [filter_eq_singleton hclean hr hwhere.symm, hid]
  · rw [quiet_at hquiet] at hat
    cases hat

theorem held_bound (hclean : Clean s) (hmapped : AllMapped plan s) {w id : String}
    (h : Held s w id) : s.bound w = some id := by
  rcases h with ⟨c, map, hcall, hmap⟩ | hbound
  · rcases (hmapped c _ hcall).entries w id hmap with hbound | ⟨r, hr, hid, hw⟩
    · exact hbound
    · rw [← hw, ← hid]
      exact hclean.rows r hr
  · exact hbound

/-- Once no call is under way, the callers agree exactly when the tables are clean. -/
theorem agreed_iff_clean (hsane : Sane s) (hmapped : AllMapped plan s) (hquiet : Quiet s) :
    Agreed plan s ↔ Clean s := by
  constructor
  · intro hagreed
    constructor
    · intro r hr
      obtain ⟨id, hbound⟩ := (hsane.rows r hr).1
      have hrows := hagreed.row r.workstreamId id (Or.inr hbound)
      have hmem : r.id ∈ ((s.assignments.rows.filter fun r' => r'.workstreamId = r.workstreamId).map
          fun r => r.id) :=
        mem_map_of_mem (mem_filter.mpr ⟨hr, decide_eq_true rfl⟩)
      rw [hrows, mem_singleton] at hmem
      rw [hbound, hmem]
    · intro w id hbound
      have hrows := hagreed.row w id (Or.inr hbound)
      have hmem : id ∈ ((s.assignments.rows.filter fun r => r.workstreamId = w).map
          fun r => r.id) := by
        rw [hrows]
        exact mem_singleton_self id
      obtain ⟨r, hr, hid⟩ := mem_map.mp hmem
      exact Or.inl ⟨r, (mem_filter.mp hr).1, hid⟩
  · intro hclean
    have hcovers : ∀ c map, s.calls c = some (.finished map) → ∀ w ∈ plan.workstreams,
        ∃ id, map w.workstreamId = some id := by
      intro c map hcall w hw
      rcases (hmapped c _ hcall).covered Caller.noConfusion w hw with hpending | hmap
      · exact absurd hpending not_mem_nil
      · exact hmap
    have hentry : ∀ c map w id, s.calls c = some (.finished map) → map w = some id →
        s.bound w = some id := by
      intro c map w id hcall hmap
      exact held_bound hclean hmapped (Or.inl ⟨c, map, hcall, hmap⟩)
    refine ⟨?_, hcovers, ?_⟩
    · intro c c' map map' hcall hcall'
      funext w
      by_cases hplan : ∃ v ∈ plan.workstreams, v.workstreamId = w
      · obtain ⟨v, hv, hw⟩ := hplan
        obtain ⟨id, hmap⟩ := hcovers c map hcall v hv
        obtain ⟨id', hmap'⟩ := hcovers c' map' hcall' v hv
        rw [hw] at hmap hmap'
        have hsame := (hentry c map w id hcall hmap).symm.trans (hentry c' map' w id' hcall' hmap')
        rw [hmap, hmap', Option.some.inj hsame]
      · have hnone : ∀ c map, s.calls c = some (.finished map) → map w = none := by
          intro c map hcall
          by_contra hsome
          obtain ⟨id, hmap⟩ := Option.ne_none_iff_exists'.mp hsome
          exact hplan ((hmapped c _ hcall).named w id hmap)
        rw [hnone c map hcall, hnone c' map' hcall']
    · intro w id hheld
      exact clean_row hsane hclean hquiet (held_bound hclean hmapped hheld)

end Quiet

/-- What holds in every state that can be reached. -/
def Reached (plan : ExecutionPlan) (s : BindingState) : Prop := Sane s ∧ AllMapped plan s

theorem step_reached {plan : ExecutionPlan} {s t : BindingState} {a : Action}
    (h : Reached plan s) (hstep : step plan s a = some t) : Reached plan t :=
  ⟨step_sane h.1 hstep, step_allMapped h.1 h.2 hstep⟩

theorem reached_initial (plan : ExecutionPlan) : Reached plan initial :=
  ⟨sane_initial, allMapped_initial⟩

def Action.caller : Action → Nat
  | .call c _ | .getByPlanAndWorkstream c _ | .ensureBinding c | .createAssignment c _
  | .publish c _ | .crash c => c

theorem step_calls_of_ne {plan : ExecutionPlan} {s t : BindingState} {a : Action}
    (hstep : step plan s a = some t) {c : Nat} (hne : c ≠ Action.caller a) :
    t.calls c = s.calls c := by
  cases step_effect hstep with
  | called _ ht | found _ _ ht | drew _ _ _ ht | reserved _ ht | inserted _ _ ht | refused _ ht
  | published _ ht | unpublished _ ht | crashed _ ht =>
    rw [ht]
    exact Function.update_of_ne hne _ _

/-- When every caller that took a step is done, no call is under way. -/
theorem quiet_of_callers {plan : ExecutionPlan} {t : BindingState} {as : List Action}
    (hr : run (step plan) initial as = some t)
    (hdone : ∀ a ∈ as, ((t.calls (Action.caller a)).map pending).getD [] = []) : Quiet t := by
  intro c x hcall
  by_cases hnamed : ∃ a ∈ as, Action.caller a = c
  · obtain ⟨a, ha, hsame⟩ := hnamed
    have hpending := hdone a ha
    rw [hsame, hcall] at hpending
    exact hpending
  · have hall : ∀ a ∈ as, c ≠ Action.caller a := fun a ha hsame => hnamed ⟨a, ha, hsame.symm⟩
    have hguard : Along (step plan) (fun _ a => c ≠ Action.caller a) initial as :=
      Along.of_mem hall
    have hkept := Along.invariant (I := fun s => s.calls c = none)
      (fun s a u hnone hne hstep => (step_calls_of_ne hstep hne).trans hnone) hguard rfl hr
    rw [hkept] at hcall
    cases hcall

/-- Any number of callers, and any crashes: the mappings agree, and each workstream has the one row
that they name, exactly when each row is inserted by the owner of its binding. -/
theorem ensureAssignments_agrees_iff {plan : ExecutionPlan} {t : BindingState} {as : List Action}
    (hr : run (step plan) initial as = some t) (hquiet : Quiet t) :
    Agreed plan t ↔ Along (step plan) OwnerInserts initial as := by
  have hreached : Reached plan t :=
    run_invariant (fun _ _ _ h hstep => step_reached h hstep) (reached_initial plan) hr
  have hclean : Clean t ↔ Clean initial ∧ Along (step plan) OwnerInserts initial as :=
    run_iff_along (I := Reached plan) (fun _ _ _ h hstep => step_reached h hstep)
      (fun _ _ _ h hstep => step_clean_iff h.1 hstep) (reached_initial plan) hr
  rw [agreed_iff_clean hreached.1 hreached.2 hquiet, hclean]
  exact and_iff_right clean_initial

def onePlan : ExecutionPlan where
  planId := "p"
  runId := "r"
  workstreams := [{ workstreamId := "w", resolvedAgent := "a", requiredCapability := "c" }]

theorem finished_of_mapping {x : Caller} {w id : String}
    (h : pending x = [] ∧ mapping x w = some id) : ∃ map, x = .finished map ∧ map w = some id := by
  cases x with
  | running correlationId rest current phase map => exact absurd h.1 (cons_ne_nil _ _)
  | finished map => exact ⟨map, rfl, h.2⟩
  | gone => cases h.2

/-- A crash before the reservation, and one caller that finds what another has reserved. -/
def reused : List Action :=
  [.call 1 "k", .getByPlanAndWorkstream 1 "u1", .crash 1,
    .call 2 "k", .getByPlanAndWorkstream 2 "u2", .ensureBinding 2,
    .call 3 "k", .getByPlanAndWorkstream 3 "u3", .createAssignment 2 true, .publish 2 true]

theorem reused_agrees : ∃ t, run (step onePlan) initial reused = some t ∧
    (Agreed onePlan t ↔ Along (step onePlan) OwnerInserts initial reused) := by
  have hruns : (run (step onePlan) initial reused).isSome = true := by decide +kernel
  obtain ⟨t, ht⟩ := Option.isSome_iff_exists.mp hruns
  refine ⟨t, ht, ensureAssignments_agrees_iff ht (quiet_of_callers ht ?_)⟩
  have hdone : ∀ a ∈ reused, (run (step onePlan) initial reused).all (fun t =>
      ((t.calls (Action.caller a)).map pending).getD [] = []) := by decide +kernel
  intro a ha
  simpa [ht] using hdone a ha

/-- A caller that crashes between its two writes, and the one that comes after it. -/
def crashed : List Action :=
  [.call 1 "k", .getByPlanAndWorkstream 1 "u1", .ensureBinding 1, .crash 1,
    .call 2 "k", .getByPlanAndWorkstream 2 "u2"]

/-- The caller after the crash holds an identifier that no row has. -/
theorem crashed_disagrees :
    ¬∀ plan as t, run (step plan) initial as = some t → Quiet t → Agreed plan t := by
  intro hagrees
  have hruns : (run (step onePlan) initial crashed).isSome = true := by decide +kernel
  obtain ⟨t, ht⟩ := Option.isSome_iff_exists.mp hruns
  have hdone : ∀ a ∈ crashed, (run (step onePlan) initial crashed).all (fun t =>
      ((t.calls (Action.caller a)).map pending).getD [] = []) := by decide +kernel
  have hquiet : Quiet t := by
    apply quiet_of_callers ht
    intro a ha
    simpa [ht] using hdone a ha
  have hholds : (run (step onePlan) initial crashed).all (fun t =>
      (t.calls 2).any (fun x => pending x = [] ∧ mapping x "w" = some "u1") ∧
        t.assignments.rows = []) := by decide +kernel
  simp only [ht, Option.all_some, decide_eq_true_eq] at hholds
  obtain ⟨x, hcall, hx⟩ := (Option.any_eq_true _ _).mp hholds.1
  obtain ⟨map, hfinished, hmap⟩ := finished_of_mapping (of_decide_eq_true hx)
  rw [hfinished] at hcall
  have hrow := (hagrees onePlan crashed t ht hquiet).row "w" "u1" (Or.inl ⟨2, map, hcall, hmap⟩)
  rw [hholds.2] at hrow
  cases hrow

end AssignmentAgreement
