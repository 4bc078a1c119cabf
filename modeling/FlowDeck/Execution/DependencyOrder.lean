import FlowDeck.Execution.PlanRuns

namespace DependencyOrder

open ExecutionContracts PlanRepository ExecutionScheduler RunReady PlanRuns Machine Option

variable {notAfter : String → String → Bool}

theorem statusOf_dispatched (plan : ExecutionPlan) (id : String) :
    (dispatched notAfter plan).statusOf id =
      if id ∈ listedIds notAfter plan then some .running else plan.statusOf id := by
  unfold dispatched
  rw [statusOf_moveAll, startPlan_statusOf]
  split_ifs with hlisted
  · rcases ((mem_listedIds notAfter).mp hlisted).1 with h | h
    · rw [h]
      rfl
    · rw [h]
      rfl
  · rfl

theorem steady_dispatched (plan : ExecutionPlan) : Steady plan (dispatched notAfter plan) where
  deps id := by
    unfold dispatched
    rw [depsOf_moveAll, startPlan_depsOf]
  settled id status hstatus hsettled := by
    refine ⟨status, ?_, hsettled⟩
    rw [statusOf_dispatched, if_neg, hstatus]
    intro hlisted
    rcases ((mem_listedIds notAfter).mp hlisted).1 with h | h
    · rw [h] at hstatus
      obtain rfl := some.inj hstatus
      cases hsettled
    · rw [h] at hstatus
      obtain rfl := some.inj hstatus
      cases hsettled

variable {plan : ExecutionPlan} {s t : PlanState} {as : List Action}

theorem beginCall_error {parallel : Bool} {plan' : ExecutionPlan} {e : String}
    (h : beginCall notAfter parallel plan = .error e plan') : Tame plan plan' := by
  have htame := tame_beginRun notAfter plan
  cases hbegin : beginRun notAfter plan with
  | error e' mid =>
    have hcall : beginCall notAfter parallel plan = .error e' mid := Fallible.bind_error hbegin
    rw [hcall] at h
    obtain ⟨_, rfl⟩ := EStateM.Result.error.inj h
    rw [hbegin] at htame
    exact htame
  | ok ws mid =>
    obtain ⟨_, rfl, rfl⟩ := beginRun_eq_ok_iff.mp hbegin
    have hcall : beginCall notAfter parallel plan = _ := Fallible.bind_ok hbegin
    rw [hcall] at h
    cases parallel with
    | true =>
      rw [if_pos rfl, Fallible.bind_ok (startAll_eq plan)] at h
      cases h
    | false => cases h

/-- What a call has started or still to start was dispatchable when it began. -/
theorem beginCall_ok {parallel : Bool} {plan' : ExecutionPlan} {c : Call}
    (h : beginCall notAfter parallel plan = .ok c plan') :
    parallel = true ∧ c.waiting = [] ∧ plan' = dispatched notAfter plan ∨
      parallel = false ∧ c.waiting = listReady notAfter (readied notAfter plan) ∧
        Tame plan plan' := by
  have htame := tame_beginRun notAfter plan
  obtain ⟨ws, mid, hbegin, hrest⟩ := Fallible.bind_eq_ok_iff.mp h
  obtain ⟨_, rfl, rfl⟩ := beginRun_eq_ok_iff.mp hbegin
  cases parallel with
  | true =>
    rw [if_pos rfl, Fallible.bind_ok (startAll_eq plan)] at hrest
    obtain ⟨rfl, rfl⟩ := Fallible.pure_eq_ok_iff.mp hrest
    exact Or.inl ⟨rfl, rfl, rfl⟩
  | false =>
    obtain ⟨rfl, rfl⟩ := Fallible.pure_eq_ok_iff.mp hrest
    rw [hbegin] at htame
    exact Or.inr ⟨rfl, rfl, htame⟩

theorem satisfied_of_listed {w : ExecutionWorkstream}
    (h : w ∈ listReady notAfter (readied notAfter plan)) :
    ∀ d ∈ plan.depsOf w.workstreamId, satisfied plan d = true := by
  have hlisted : w.workstreamId ∈ listedIds notAfter plan := by
    rw [← listedIds_readied]
    exact List.mem_map_of_mem h
  exact ((mem_listedIds notAfter).mp hlisted).2

/-- What one step can do: it starts nothing, or it starts what is dispatchable, or what a call has
kept waiting; and a call only keeps waiting what it has listed. -/
inductive Effect (notAfter : String → String → Bool) (s t : PlanState) (a : Action) : Prop
  | tame (h : Tame s.plan t.plan)
      (hcalls : ∀ call c, t.calls call = some c → ∀ w ∈ c.waiting,
        ∃ c', s.calls call = some c' ∧ w ∈ c'.waiting)
  | listed (h : Tame s.plan t.plan)
      (hcalls : ∀ call c, t.calls call = some c → ∀ w ∈ c.waiting,
        (∃ c', s.calls call = some c' ∧ w ∈ c'.waiting) ∨
          w ∈ listReady notAfter (readied notAfter s.plan))
  | dispatched (h : t.plan = RunReady.dispatched notAfter s.plan)
      (hcalls : ∀ call c, t.calls call = some c → ∀ w ∈ c.waiting,
        ∃ c', s.calls call = some c' ∧ w ∈ c'.waiting)
  | started (call : Nat) (c : Call) (w : ExecutionWorkstream) (ha : a = .startNext call)
      (hcall : s.calls call = some c) (hw : w ∈ c.waiting) (h : Steady s.plan t.plan)
      (hothers : ∀ id ≠ w.workstreamId, t.plan.statusOf id = s.plan.statusOf id)
      (hcalls : ∀ call c, t.calls call = some c → ∀ w ∈ c.waiting,
        ∃ c', s.calls call = some c' ∧ w ∈ c'.waiting)

theorem calls_update {call : Nat} {next : Option Call}
    (hnext : ∀ c, next = some c → ∀ w ∈ c.waiting, ∃ c', s.calls call = some c' ∧ w ∈ c'.waiting)
    (other : Nat) (c : Call) (h : Function.update s.calls call next other = some c) :
    ∀ w ∈ c.waiting, ∃ c', s.calls other = some c' ∧ w ∈ c'.waiting := by
  by_cases hsame : other = call
  · rw [hsame, Function.update_self] at h
    rw [hsame]
    exact hnext c h
  · rw [Function.update_of_ne hsame] at h
    exact fun w hw => ⟨c, h, hw⟩

theorem calls_kept (call : Nat) (c : Call) (h : s.calls call = some c) :
    ∀ w ∈ c.waiting, ∃ c', s.calls call = some c' ∧ w ∈ c'.waiting :=
  fun _ hw => ⟨c, h, hw⟩

theorem step_effect {a : Action} (h : step notAfter s a = some t) : Effect notAfter s t a := by
  cases a with
  | runReady call parallel =>
    simp only [step] at h
    split_ifs at h with hbusy
    cases hbegin : beginCall notAfter parallel s.plan with
    | error e plan =>
      rw [hbegin] at h
      obtain rfl := some.inj h
      exact Effect.tame (beginCall_error hbegin) calls_kept
    | ok c plan =>
      rw [hbegin] at h
      obtain rfl := some.inj h
      rcases beginCall_ok hbegin with ⟨_, hwaiting, hplan⟩ | ⟨_, hwaiting, htame⟩
      · refine Effect.dispatched hplan (calls_update ?_)
        intro c' hc' w hw
        obtain rfl := some.inj hc'
        rw [hwaiting] at hw
        exact absurd hw List.not_mem_nil
      · refine Effect.listed htame ?_
        intro other c' hc' w hw
        have hupdate : Function.update s.calls call (some c) other = some c' := hc'
        by_cases hsame : other = call
        · rw [hsame, Function.update_self] at hupdate
          obtain rfl := some.inj hupdate
          rw [hwaiting] at hw
          exact Or.inr hw
        · rw [Function.update_of_ne hsame] at hupdate
          exact Or.inl ⟨c', hupdate, hw⟩
  | startNext call =>
    simp only [step] at h
    obtain ⟨c, hcall, hrest⟩ := bind_eq_some_iff.mp h
    split_ifs at hrest with hup
    obtain ⟨w, hhead, hstart⟩ := map_eq_some_iff.mp hrest
    have hw : w ∈ c.waiting := List.mem_of_head? hhead
    have hsteady := steady_transitionWorkstream w.workstreamId .running none [] s.plan
    cases hok : startOne w s.plan with
    | error e plan =>
      rw [hok] at hstart
      obtain rfl := hstart
      have hsame : plan = s.plan := transitionWorkstream_error hok
      refine Effect.tame ?_ (calls_update ?_)
      · rw [hsame]
        exact Tame.refl s.plan
      · intro c' hc'
        cases hc'
    | ok _ plan =>
      rw [hok] at hstart
      obtain rfl := hstart
      have hplan : Fallible.after (startOne w s.plan) = plan := by
        rw [hok]
        rfl
      refine Effect.started call c w rfl hcall hw ?_ ?_ (calls_update ?_)
      · rw [← hplan]
        exact hsteady
      · intro id hne
        obtain ⟨_, _, _, rfl⟩ := transitionWorkstream_eq_ok_iff.mp hok
        exact statusOf_moveTo_ne hne
      · intro c' hc' w' hw'
        obtain rfl := some.inj hc'
        exact ⟨c, hcall, List.mem_of_mem_tail hw'⟩
  | executed call id outcome =>
    simp only [step] at h
    obtain ⟨c, hcall, hrest⟩ := bind_eq_some_iff.mp h
    split_ifs at hrest with hdone
    obtain rfl := some.inj hrest
    refine Effect.tame (Tame.refl s.plan) (calls_update ?_)
    intro c' hc' w hw
    obtain rfl := some.inj hc'
    exact ⟨c, hcall, hw⟩
  | conclude call =>
    simp only [step] at h
    obtain ⟨c, hcall, hrest⟩ := bind_eq_some_iff.mp h
    split_ifs at hrest with hdone
    obtain rfl := some.inj hrest
    refine Effect.tame (tame_endRun notAfter c.dispatched c.results s.plan) (calls_update ?_)
    intro c' hc'
    cases hc'
  | operation op =>
    obtain rfl := some.inj h
    exact Effect.tame (tame_operate op s.plan) calls_kept
  | restart =>
    obtain rfl := some.inj h
    refine Effect.tame (Tame.refl s.plan) ?_
    intro call c hc
    cases hc

theorem Effect.steady {a : Action} (h : Effect notAfter s t a) : Steady s.plan t.plan := by
  cases h with
  | tame h _ => exact h.toSteady
  | listed h _ => exact h.toSteady
  | dispatched h _ =>
    rw [h]
    exact steady_dispatched s.plan
  | started _ _ _ _ _ _ h _ _ => exact h

theorem run_steady (hr : run (step notAfter) s as = some t) : Steady s.plan t.plan := by
  induction as generalizing s with
  | nil =>
    obtain rfl := some.inj hr
    exact Steady.refl s.plan
  | cons a as ih =>
    obtain ⟨u, hu, ht⟩ := run_cons_eq_some.mp hr
    exact (step_effect hu).steady.trans (ih ht)

/-- At some point of a run the dependency has succeeded or been integrated. -/
def SatisfiedIn (notAfter : String → String → Bool) (s : PlanState) (as : List Action)
    (d : String) : Prop :=
  ∃ pre post u, as = pre ++ post ∧ run (step notAfter) s pre = some u ∧ satisfied u.plan d = true

theorem SatisfiedIn.append {d : String} (h : SatisfiedIn notAfter s as d) (bs : List Action) :
    SatisfiedIn notAfter s (as ++ bs) d := by
  obtain ⟨pre, post, u, rfl, hu, hd⟩ := h
  exact ⟨pre, post ++ bs, u, by rw [List.append_assoc], hu, hd⟩

theorem satisfiedIn_of_waiting (hidle : ∀ call, s.calls call = none)
    (hr : run (step notAfter) s as = some t) {call : Nat} {c : Call} (hcall : t.calls call = some c)
    {w : ExecutionWorkstream} (hw : w ∈ c.waiting) {d : String}
    (hd : d ∈ s.plan.depsOf w.workstreamId) : SatisfiedIn notAfter s as d := by
  induction as using List.reverseRecOn generalizing t call c with
  | nil =>
    obtain rfl := some.inj hr
    rw [hidle] at hcall
    cases hcall
  | append_singleton bs b ih =>
    obtain ⟨u, hbs, hb⟩ := run_append_eq_some.mp hr
    have hstep : step notAfter u b = some t := by simpa [run_cons_eq_some] using hb
    have hold : (∃ c', u.calls call = some c' ∧ w ∈ c'.waiting) →
        SatisfiedIn notAfter s (bs ++ [b]) d := by
      rintro ⟨c', hc', hw'⟩
      exact (ih hbs hc' hw').append [b]
    cases step_effect hstep with
    | tame _ hcalls => exact hold (hcalls call c hcall w hw)
    | listed _ hcalls =>
      rcases hcalls call c hcall w hw with h | hlisted
      · exact hold h
      · refine ⟨bs, [b], u, rfl, hbs, ?_⟩
        apply satisfied_of_listed hlisted
        rw [(run_steady hbs).deps]
        exact hd
    | dispatched _ hcalls => exact hold (hcalls call c hcall w hw)
    | started _ _ _ _ _ _ _ _ hcalls => exact hold (hcalls call c hcall w hw)

/-- Over every run a workstream enters `running` only after each of its dependencies has succeeded
or been integrated, and one that has succeeded never runs again. -/
theorem runs_after_dependencies {s : PlanState} (hidle : ∀ call, s.calls call = none) :
    (∀ as a u v id, run (step notAfter) s as = some u → step notAfter u a = some v →
      u.plan.statusOf id ≠ some .running → v.plan.statusOf id = some .running →
        ∀ d ∈ u.plan.depsOf id, SatisfiedIn notAfter s as d ∧
          ((∀ call, a ≠ .startNext call) → satisfied u.plan d = true)) ∧
    (∀ as bs u v id, run (step notAfter) s as = some u → run (step notAfter) u bs = some v →
      u.plan.statusOf id = some .succeeded → v.plan.statusOf id ≠ some .running) := by
  constructor
  · intro as a u v id hu hv hbefore hafter d hd
    cases step_effect hv with
    | tame h _ => exact absurd (h.running id hafter) hbefore
    | listed h _ => exact absurd (h.running id hafter) hbefore
    | dispatched h _ =>
      rw [h, statusOf_dispatched] at hafter
      split_ifs at hafter with hlisted
      · have hsatisfied := ((mem_listedIds notAfter).mp hlisted).2 d hd
        exact ⟨⟨as, [], u, by simp, hu, hsatisfied⟩, fun _ => hsatisfied⟩
      · exact absurd hafter hbefore
    | started call c w ha hcall hw _ hothers _ =>
      by_cases hsame : id = w.workstreamId
      · refine ⟨?_, fun hnot => absurd ha (hnot call)⟩
        apply satisfiedIn_of_waiting hidle hu hcall hw
        rw [← (run_steady hu).deps, ← hsame]
        exact hd
      · rw [hothers id hsame] at hafter
        exact absurd hafter hbefore
  · intro as bs u v id _ hv hsucceeded hrunning
    obtain ⟨status, hstatus, hsettled⟩ := (run_steady hv).settled id .succeeded hsucceeded rfl
    rw [hstatus] at hrunning
    obtain rfl := some.inj hrunning
    cases hsettled

/-- A plan of two workstreams, the second of which waits for the first. -/
def chained : PlanState where
  plan :=
    { status := .planned
      workstreams :=
        ⟨[{ workstreamId := "a", dependsOn := [], status := .planned, blockedBy := [],
            failureReason := none },
          { workstreamId := "b", dependsOn := ["a"], status := .planned, blockedBy := [],
            failureReason := none }], by decide⟩
      integratedAttempts := [] }
  calls _ := none

def firstWave : List Action := [.runReady 1 true, .executed 1 "a" .succeeded, .conclude 1]

/-- The second workstream of the chain starts, after the first has succeeded. -/
theorem chained_runs_after_dependencies :
    ∃ u v, run (step CodeUnits.notAfter) chained firstWave = some u ∧
      step CodeUnits.notAfter u (.runReady 2 true) = some v ∧
      v.plan.statusOf "b" = some .running ∧
      ∀ d ∈ u.plan.depsOf "b", SatisfiedIn CodeUnits.notAfter chained firstWave d := by
  have hrun : ((run (step CodeUnits.notAfter) chained firstWave).bind fun u =>
      (step CodeUnits.notAfter u (.runReady 2 true)).map fun v =>
        (decide (u.plan.statusOf "b" = some .running),
          decide (v.plan.statusOf "b" = some .running))) = some (false, true) := by
    decide +kernel
  obtain ⟨u, hu, hrest⟩ := bind_eq_some_iff.mp hrun
  obtain ⟨v, hv, hstatus⟩ := map_eq_some_iff.mp hrest
  obtain ⟨hbefore, hafter⟩ := Prod.mk.inj hstatus
  have hrunning : v.plan.statusOf "b" = some .running := of_decide_eq_true hafter
  refine ⟨u, v, hu, hv, hrunning, ?_⟩
  intro d hd
  have hidle : ∀ call, chained.calls call = none := fun _ => rfl
  exact ((runs_after_dependencies hidle).1 firstWave (.runReady 2 true) u v "b" hu hv
    (of_decide_eq_false hbefore) hrunning d hd).1

end DependencyOrder
