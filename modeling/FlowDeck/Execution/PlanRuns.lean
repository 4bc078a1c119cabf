import FlowDeck.Execution.Recovery
import FlowDeck.Library.Machine

namespace PlanRuns

open ExecutionContracts PlanRepository ExecutionScheduler RunReady WorktreeExecutor

/-- One attempt of `ControlledIntegrationService.recoverAfterRestart`: a merge that had reached the
root is acknowledged, any other has failed. -/
def repairIntegration (id : String) (merged : Bool) : PlanM Unit := do
  let plan ← getPlan
  if id ∈ plan.integratedAttempts then pure ()
  else if merged then do
    recordIntegration id
    if plan.statusOf id = some .succeeded then
      transitionWorkstream id .integration_pending none []
    else pure ()
    let current ← getPlan
    if current.statusOf id = some .integration_pending then
      transitionWorkstream id .integrated none []
    else pure ()
  else if plan.statusOf id = some .succeeded then do
    transitionWorkstream id .integration_pending none []
    transitionWorkstream id .failed (some "INTEGRATION_INTERRUPTED") []
  else pure ()

/-- The steps on a plan that no `await` divides. -/
inductive Operation
  | recoverAfterRestart
  | cancelPlan (reason : String)
  | propagateDependencyFailures
  | integrate (id : String) (merge : Option String)
  | integrateOne (integrates : Bool) (facts : Facts) (id : String)
  | repairIntegration (id : String) (merged : Bool)
  | closePlan

def operate : Operation → PlanM Unit
  | .recoverAfterRestart => PlanRepository.recoverAfterRestart
  | .cancelPlan reason => PlanRepository.cancelPlan reason
  | .propagateDependencyFailures => do
    let _ ← ExecutionScheduler.propagateDependencyFailures
    pure ()
  | .integrate id merge => WorktreeExecutor.integrate id merge
  | .integrateOne integrates facts id => do
    let _ ← WorktreeExecutor.integrateOne integrates facts id
    pure ()
  | .repairIntegration id merged => PlanRuns.repairIntegration id merged
  | .closePlan => WorktreeExecutor.closePlan

/-- A call of `runReady` that waits for executions: what it has still to start, what it has
started and what has come of that. -/
structure Call where
  waiting : List ExecutionWorkstream
  dispatched : List String
  outcomes : String → Option Outcome

structure PlanState where
  plan : ExecutionPlan
  calls : Nat → Option Call

inductive Action
  | runReady (call : Nat) (parallel : Bool)
  | startNext (call : Nat)
  | executed (call : Nat) (id : String) (outcome : Outcome)
  | conclude (call : Nat)
  | operation (op : Operation)
  | restart

section Step

variable (notAfter : String → String → Bool)

/-- `runReady` up to its first `await`; without `parallel` it starts its executions one by one. -/
def beginCall (parallel : Bool) : PlanM Call := do
  let dispatchable ← beginRun notAfter
  if parallel then do
    dispatchable.forM startOne
    pure
      { waiting := [], dispatched := dispatchable.map fun w => w.workstreamId
        outcomes := fun _ => none }
  else pure { waiting := dispatchable, dispatched := [], outcomes := fun _ => none }

def Call.settledUp (c : Call) : Bool := c.dispatched.all fun id => (c.outcomes id).isSome

def Call.results (c : Call) : List (String × Outcome) :=
  c.dispatched.filterMap fun id => (c.outcomes id).map fun outcome => (id, outcome)

/-- A call that throws is over, and what it had written stays. -/
def step (s : PlanState) : Action → Option PlanState
  | .runReady call parallel =>
    if (s.calls call).isSome then none
    else
      match beginCall notAfter parallel s.plan with
      | .error _ plan => some { s with plan }
      | .ok c plan => some { plan, calls := Function.update s.calls call (some c) }
  | .startNext call =>
    (s.calls call).bind fun c =>
      if c.settledUp then
        c.waiting.head?.map fun w =>
          match startOne w s.plan with
          | .error _ plan => { plan, calls := Function.update s.calls call none }
          | .ok _ plan =>
            { plan
              calls := Function.update s.calls call (some
                { c with
                  waiting := c.waiting.tail, dispatched := c.dispatched ++ [w.workstreamId] }) }
      else none
  | .executed call id outcome =>
    (s.calls call).bind fun c =>
      if id ∈ c.dispatched ∧ c.outcomes id = none then
        some { s with
          calls := Function.update s.calls call (some
            { c with outcomes := Function.update c.outcomes id (some outcome) }) }
      else none
  | .conclude call =>
    (s.calls call).bind fun c =>
      if c.waiting = [] ∧ c.settledUp then
        some
          { plan := Fallible.after (endRun notAfter c.dispatched c.results s.plan)
            calls := Function.update s.calls call none }
      else none
  | .operation op => some { s with plan := Fallible.after (operate op s.plan) }
  | .restart => some { s with calls := fun _ => none }

end Step

/-- The statuses from which a workstream is never dispatched again. -/
def settled : ExecutionWorkstreamStatus → Bool
  | .planned | .blocked | .ready | .running => false
  | _ => true

theorem settled_of_transition {from_ status : ExecutionWorkstreamStatus}
    (h : settled from_ = true) (hallowed : status ∈ transitions from_) : settled status = true := by
  cases from_ <;> cases status <;> simp_all [settled, transitions]

/-- What every step keeps: the dependencies, and that what is settled stays so. -/
structure Steady (plan plan' : ExecutionPlan) : Prop where
  deps : ∀ id, plan'.depsOf id = plan.depsOf id
  settled : ∀ id status, plan.statusOf id = some status → settled status = true →
    ∃ status', plan'.statusOf id = some status' ∧ PlanRuns.settled status' = true

/-- A step that starts nothing. -/
structure Tame (plan plan' : ExecutionPlan) : Prop extends Steady plan plan' where
  running : ∀ id, plan'.statusOf id = some .running → plan.statusOf id = some .running

theorem Steady.refl (plan : ExecutionPlan) : Steady plan plan :=
  ⟨fun _ => rfl, fun _ status hstatus hsettled => ⟨status, hstatus, hsettled⟩⟩

theorem Steady.trans {plan mid plan' : ExecutionPlan} (h : Steady plan mid) (h' : Steady mid plan') :
    Steady plan plan' where
  deps id := by rw [h'.deps, h.deps]
  settled id status hstatus hsettled := by
    obtain ⟨status', hmid, hsettled'⟩ := h.settled id status hstatus hsettled
    exact h'.settled id status' hmid hsettled'

theorem Tame.refl (plan : ExecutionPlan) : Tame plan plan := ⟨Steady.refl plan, fun _ h => h⟩

theorem Tame.trans {plan mid plan' : ExecutionPlan} (h : Tame plan mid) (h' : Tame mid plan') :
    Tame plan plan' :=
  ⟨h.toSteady.trans h'.toSteady, fun id hr => h.running id (h'.running id hr)⟩

abbrev KeepsTame {α : Type} (m : PlanM α) : Prop := Fallible.Keeps Tame m

section Tame

variable {α β : Type}

theorem tame_pure (a : α) : KeepsTame (pure a) := Fallible.Keeps.of_pure Tame.refl a

theorem tame_throw (error : String) : KeepsTame (throw error : PlanM α) :=
  Fallible.Keeps.of_throw Tame.refl error

theorem tame_getPlan : KeepsTame getPlan := Tame.refl

theorem tame_bind {m : PlanM α} {f : α → PlanM β} (hm : KeepsTame m) (hf : ∀ a, KeepsTame (f a)) :
    KeepsTame (m >>= f) := Fallible.Keeps.bind (R := Tame) (fun _ _ _ => Tame.trans) hm hf

theorem tame_forM {as : List α} {f : α → PlanM PUnit} (h : ∀ a, KeepsTame (f a)) :
    KeepsTame (as.forM f) :=
  Fallible.Keeps.forM (R := Tame) Tame.refl (fun _ _ _ => Tame.trans) fun a _ => h a

theorem tame_of_rows {plan plan' : ExecutionPlan} (h : plan'.workstreams = plan.workstreams) :
    Tame plan plan' := by
  have hstatus : ∀ id, plan'.statusOf id = plan.statusOf id := by
    intro id
    unfold ExecutionPlan.statusOf
    rw [h]
  refine ⟨⟨?_, ?_⟩, ?_⟩
  · intro id
    unfold ExecutionPlan.depsOf
    rw [h]
  · intro id status hid hsettled
    exact ⟨status, by rw [hstatus, hid], hsettled⟩
  · intro id hid
    rw [← hstatus, hid]

theorem steady_transitionWorkstream (id : String) (status : ExecutionWorkstreamStatus)
    (failureReason : Option String) (blockedBy : List String) :
    Fallible.Keeps Steady (transitionWorkstream id status failureReason blockedBy) := by
  intro plan
  cases hok : transitionWorkstream id status failureReason blockedBy plan with
  | error e plan' =>
    rw [transitionWorkstream_error hok]
    exact Steady.refl plan
  | ok _ plan' =>
    obtain ⟨w, hget, hallowed, rfl⟩ := transitionWorkstream_eq_ok_iff.mp hok
    have hfrom : plan.statusOf id = some w.status := statusOf_eq_some_iff.mpr ⟨w, hget, rfl⟩
    refine ⟨fun other => depsOf_moveTo, ?_⟩
    intro other from_ hother hsettled
    by_cases hne : other = id
    · rw [hne, hfrom] at hother
      obtain rfl := Option.some.inj hother
      refine ⟨status, ?_, settled_of_transition hsettled hallowed⟩
      rw [hne]
      exact statusOf_moveTo_self hfrom
    · refine ⟨from_, ?_, hsettled⟩
      rw [← hother]
      exact statusOf_moveTo_ne hne

theorem tame_transitionWorkstream (id : String) {status : ExecutionWorkstreamStatus}
    (hstatus : status ≠ .running) (failureReason : Option String) (blockedBy : List String) :
    KeepsTame (transitionWorkstream id status failureReason blockedBy) := by
  intro plan
  refine ⟨steady_transitionWorkstream id status failureReason blockedBy plan, ?_⟩
  intro other hrunning
  cases hok : transitionWorkstream id status failureReason blockedBy plan with
  | error e plan' =>
    rw [hok, transitionWorkstream_error hok] at hrunning
    exact hrunning
  | ok _ plan' =>
    rw [hok] at hrunning
    obtain ⟨w, hget, _, rfl⟩ := transitionWorkstream_eq_ok_iff.mp hok
    have hfrom : plan.statusOf id = some w.status := statusOf_eq_some_iff.mpr ⟨w, hget, rfl⟩
    by_cases hne : other = id
    · have hself : (moveTo plan id status failureReason blockedBy).statusOf id = some status :=
        statusOf_moveTo_self hfrom
      rw [hne] at hrunning
      exact absurd (Option.some.inj (hself.symm.trans hrunning)) hstatus
    · have hother : (moveTo plan id status failureReason blockedBy).statusOf other =
          plan.statusOf other := statusOf_moveTo_ne hne
      exact hother.symm.trans hrunning

theorem tame_transitionPlanStatus (status : ExecutionPlanStatus) :
    KeepsTame (transitionPlanStatus status) := by
  intro plan
  unfold transitionPlanStatus
  split_ifs
  · exact tame_of_rows rfl
  · exact Tame.refl plan

theorem tame_propagateOnce : KeepsTame propagateOnce := by
  apply tame_bind tame_getPlan
  intro plan
  apply tame_bind
  · exact tame_forM fun w => tame_transitionWorkstream _ (by decide) _ _
  · intro _
    exact tame_pure _

theorem tame_propagateLoop (turns : Nat) : KeepsTame (propagateLoop turns) := by
  induction turns with
  | zero => exact tame_pure _
  | succ turns ih =>
    apply tame_bind tame_propagateOnce
    intro hit
    apply Fallible.Keeps.ite (tame_pure _)
    apply tame_bind ih
    intro rest
    exact tame_pure _

theorem tame_propagateDependencyFailures : KeepsTame propagateDependencyFailures := by
  apply tame_bind tame_getPlan
  intro plan
  apply tame_bind (tame_propagateLoop _)
  intro blocked
  exact tame_pure _

theorem tame_finalizePlan : KeepsTame finalizePlan := by
  apply tame_bind tame_getPlan
  intro plan
  exact Fallible.Keeps.ite (tame_transitionPlanStatus _) (tame_pure _)

theorem tame_beginRun (notAfter : String → String → Bool) : KeepsTame (beginRun notAfter) := by
  intro plan
  rw [beginRun_apply]
  apply tame_bind (Fallible.Keeps.ite (tame_transitionPlanStatus _) (tame_pure _))
  intro _
  apply tame_bind tame_getPlan
  intro plan'
  apply tame_bind
  · exact tame_forM fun w => tame_transitionWorkstream _ (by decide) _ _
  · intro _
    apply tame_bind tame_getPlan
    intro plan''
    exact tame_pure _

theorem tame_endRun (notAfter : String → String → Bool) (started : List String)
    (outcomes : List (String × Outcome)) : KeepsTame (endRun notAfter started outcomes) := by
  apply tame_bind
  · apply tame_forM
    intro result
    unfold recordOutcome
    cases result.2 with
    | succeeded => exact tame_transitionWorkstream _ (by decide) _ _
    | failed => exact tame_transitionWorkstream _ (by decide) _ _
  · intro _
    apply tame_bind tame_propagateDependencyFailures
    intro blocked
    apply tame_bind tame_finalizePlan
    intro _
    exact tame_pure _

theorem tame_cancelPlan (reason : String) : KeepsTame (cancelPlan reason) := by
  apply tame_bind tame_getPlan
  intro plan
  apply tame_bind
  · apply tame_forM
    intro w
    exact Fallible.Keeps.ite (tame_transitionWorkstream _ (by decide) _ _) (tame_pure _)
  · intro _
    exact tame_transitionPlanStatus _

theorem tame_recoverAfterRestart : KeepsTame recoverAfterRestart := by
  intro plan
  rw [Recovery.recoverAfterRestart_eq]
  refine ⟨⟨Recovery.depsOf_recovered plan, ?_⟩, ?_⟩
  · intro id status hstatus hsettled
    have hrecovered := Recovery.statusOf_recovered plan id
    rw [hstatus] at hrecovered
    refine ⟨_, hrecovered, ?_⟩
    unfold Recovery.recoveredStatus
    split_ifs with hrecorded hrunning
    · rfl
    · rw [hrunning] at hsettled
      cases hsettled
    · exact hsettled
  · intro id hrunning
    have hrecovered := Recovery.statusOf_recovered plan id
    have hrun : (Recovery.recovered plan).statusOf id = some .running := hrunning
    rw [hrun] at hrecovered
    obtain ⟨status, _, hnever⟩ := Option.map_eq_some_iff.mp hrecovered.symm
    unfold Recovery.recoveredStatus at hnever
    split_ifs at hnever with hrecorded hrunning'
    exact absurd hnever hrunning'

theorem tame_recordIntegration (id : String) : KeepsTame (recordIntegration id) :=
  fun _ => tame_of_rows rfl

theorem tame_integrate (id : String) (merge : Option String) : KeepsTame (integrate id merge) := by
  apply tame_bind tame_getPlan
  intro plan
  apply Fallible.Keeps.ite (tame_throw _)
  apply Fallible.Keeps.ite (tame_throw _)
  cases merge with
  | some error => exact tame_throw _
  | none =>
    apply tame_bind (tame_recordIntegration id)
    intro _
    apply tame_bind (tame_transitionWorkstream _ (by decide) _ _)
    intro _
    exact tame_transitionWorkstream _ (by decide) _ _

theorem tame_failIntegration (id : String) : KeepsTame (failIntegration id) := by
  apply tame_bind tame_getPlan
  intro plan
  apply Fallible.Keeps.ite _ (tame_pure _)
  apply tame_bind (tame_transitionWorkstream _ (by decide) _ _)
  intro _
  exact tame_transitionWorkstream _ (by decide) _ _

theorem tame_tryIntegration (integrates : Bool) (facts : Facts) (id : String) :
    KeepsTame (tryIntegration integrates facts id) := by
  have hrecord : KeepsTame (recordWorkstreamOutcome facts id) := by
    unfold recordWorkstreamOutcome
    cases facts.record id with
    | none => exact tame_pure _
    | some error => exact tame_throw _
  unfold tryIntegration
  cases integrates with
  | false => exact hrecord
  | true =>
    cases facts.verified id with
    | true => exact tame_bind (tame_integrate _ _) fun _ => hrecord
    | false => exact tame_bind (tame_throw _) fun _ => hrecord

theorem tame_integrateOne (integrates : Bool) (facts : Facts) (id : String) :
    KeepsTame (integrateOne integrates facts id) := by
  intro plan
  have htry := tame_tryIntegration integrates facts id plan
  unfold integrateOne
  cases hok : tryIntegration integrates facts id plan with
  | ok _ plan' =>
    rw [hok] at htry
    exact htry
  | error e plan' =>
    rw [hok] at htry
    have hfail : KeepsTame (failIntegration id >>= fun _ => pure false) :=
      tame_bind (tame_failIntegration id) fun _ => tame_pure _
    exact htry.trans (hfail plan')

theorem tame_repairIntegration (id : String) (merged : Bool) :
    KeepsTame (repairIntegration id merged) := by
  apply tame_bind tame_getPlan
  intro plan
  apply Fallible.Keeps.ite (tame_pure _)
  apply Fallible.Keeps.ite
  · apply tame_bind (tame_recordIntegration id)
    intro _
    have hacknowledge : KeepsTame (getPlan >>= fun current =>
        if current.statusOf id = some .integration_pending then
          transitionWorkstream id .integrated none []
        else pure ()) := by
      apply tame_bind tame_getPlan
      intro current
      exact Fallible.Keeps.ite (tame_transitionWorkstream _ (by decide) _ _) (tame_pure _)
    apply Fallible.Keeps.ite _ hacknowledge
    exact tame_bind (tame_transitionWorkstream _ (by decide) _ _) fun _ => hacknowledge
  · apply Fallible.Keeps.ite _ (tame_pure _)
    apply tame_bind (tame_transitionWorkstream _ (by decide) _ _)
    intro _
    exact tame_transitionWorkstream _ (by decide) _ _

theorem tame_closePlan : KeepsTame closePlan := by
  apply tame_bind tame_getPlan
  intro plan
  exact Fallible.Keeps.ite (tame_transitionPlanStatus _) (tame_pure _)

theorem tame_operate (op : Operation) : KeepsTame (operate op) := by
  cases op with
  | recoverAfterRestart => exact tame_recoverAfterRestart
  | cancelPlan reason => exact tame_cancelPlan reason
  | propagateDependencyFailures =>
    exact tame_bind tame_propagateDependencyFailures fun _ => tame_pure _
  | integrate id merge => exact tame_integrate id merge
  | integrateOne integrates facts id =>
    exact tame_bind (tame_integrateOne integrates facts id) fun _ => tame_pure _
  | repairIntegration id merged => exact tame_repairIntegration id merged
  | closePlan => exact tame_closePlan

end Tame

end PlanRuns
