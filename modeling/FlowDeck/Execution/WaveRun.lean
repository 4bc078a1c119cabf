import FlowDeck.Execution.Waves

namespace WaveRun

open ExecutionContracts PlanRepository ExecutionScheduler Propagation RunReady WorktreeExecutor
open Waves

section Prediction

variable (integrates : Bool) (facts : Facts) (origin : ExecutionPlan)

/-- Whether a workstream that is dispatched comes out satisfied. -/
def passes (id : String) : Bool :=
  decide (facts.execute id = .succeeded) && integrationPasses integrates facts origin id

/-- What the first waves dispatch, as the plan they start from tells it. -/
abbrev ReachedBy : Nat → String → Prop :=
  Wavefront.Reached (fun id d => d ∈ origin.depsOf id) (Planned origin)
    (fun d => satisfied origin d = true) fun id => passes integrates facts origin id = true

def Fails (id : String) : Prop := passes integrates facts origin id = false

/-- What has failed when `runReady` ends in a wave, before the wave's integrations. -/
def FailsMid (n : Nat) (id : String) : Prop :=
  facts.execute id = .failed ∨
    ReachedBy integrates facts origin n id ∧ passes integrates facts origin id = false

/-- What has failed, or waits behind what has, after so many waves. -/
abbrev CutBy (n : Nat) : String → Prop :=
  CutOff origin (ReachedBy integrates facts origin n) (Fails integrates facts origin)

abbrev CutMid (n : Nat) : String → Prop :=
  CutOff origin (ReachedBy integrates facts origin (n + 1)) (FailsMid integrates facts origin n)

/-- A workstream that was marked ready before the run can be dispatched after so many waves. -/
def StartHit (n : Nat) : Prop :=
  ∃ id, origin.statusOf id = some .ready ∧ ∀ d ∈ origin.depsOf id, satisfied origin d = true ∨
    ReachedBy integrates facts origin n d ∧ passes integrates facts origin d = true

/-- A workstream that was marked ready before the run loses a dependency. -/
def LossHit (n : Nat) : Prop :=
  ∃ id, origin.statusOf id = some .ready ∧
    ∃ d ∈ origin.depsOf id, CutBy integrates facts origin n d

/-- A plan as it stands after so many waves. -/
structure Tracks (n : Nat) (plan : ExecutionPlan) : Prop where
  rows : Describes origin (ReachedBy integrates facts origin n) (Fails integrates facts origin)
    (fun id => 0 < n ∧ CutBy integrates facts origin n id) plan
  attempts : ∀ id, Planned origin id → ¬ReachedBy integrates facts origin n id →
    (id ∈ plan.integratedAttempts ↔ id ∈ origin.integratedAttempts)

end Prediction

section Wave

variable {integrates : Bool} {facts : Facts} {origin plan plan' : ExecutionPlan} {n : Nat}
  {notAfter : String → String → Bool}

theorem ground_stands {reached fails : String → Prop} (hreached : ∀ id, reached id → Planned origin id)
    (id : String) (h : satisfied origin id = true) :
    ¬Planned origin id ∧ ¬Broken origin reached fails id := by
  have hnot : ¬Planned origin id := fun hplanned => hplanned.not_satisfied h
  refine ⟨hnot, ?_⟩
  rintro (hun | ⟨hr, _⟩)
  · exact not_unavailable_of_satisfied h hun
  · exact hnot (hreached id hr)

/-- What is reached waits for nothing that is cut off, as long as what comes out well in the end
has not failed yet. -/
theorem reached_clear {reached fails : String → Prop}
    (hreached : ∀ id, reached id → Planned origin id)
    (hpasses : ∀ id, passes integrates facts origin id = true → ¬fails id) {id : String}
    (h : ReachedBy integrates facts origin n id) :
    ∀ d ∈ origin.depsOf id, ¬CutOff origin reached fails d := by
  intro d hd
  refine h.not_cut_dep (ground_stands hreached) ?_ hd
  rintro j hplanned hpass (hun | ⟨_, hfails⟩)
  · exact hplanned.not_unavailable hun
  · exact hpasses j hpass hfails

variable {id : String}

theorem not_fails_of_passes (h : passes integrates facts origin id = true) :
    ¬Fails integrates facts origin id := by
  intro hfails
  unfold Fails at hfails
  rw [h] at hfails
  cases hfails

theorem not_failsMid_of_passes (h : passes integrates facts origin id = true) :
    ¬FailsMid integrates facts origin n id := by
  rintro (hfailed | ⟨_, hfails⟩)
  · unfold passes at h
    simp [hfailed] at h
  · rw [h] at hfails
    cases hfails

theorem fails_of_failsMid (h : FailsMid integrates facts origin n id) :
    Fails integrates facts origin id := by
  rcases h with hfailed | ⟨_, hfails⟩
  · simp [Fails, passes, hfailed]
  · exact hfails

theorem tracks_origin : Tracks integrates facts origin 0 origin where
  rows :=
    { deps := fun _ => rfl
      apart := fun _ _ => rfl
      planned := fun _ h => h.elim
      passed := fun _ h => h.elim
      failed := fun _ h => h.elim
      blocked := fun _ _ _ hcut => absurd hcut.1 (by omega)
      waiting := fun _ h _ _ => h
      cutOff := fun _ hcut => absurd hcut.1 (by omega)
      clear := fun _ h => h.elim }
  attempts _ _ _ := Iff.rfl

variable (h : Tracks integrates facts origin n plan)

include h

theorem Tracks.satisfied_iff {d : String} : satisfied plan d = true ↔
    satisfied origin d = true ∨
      ReachedBy integrates facts origin n d ∧ passes integrates facts origin d = true := by
  rw [h.rows.satisfied_iff]
  unfold Fails
  simp

/-- Apart from what was marked ready before, a wave dispatches what it newly reaches. -/
theorem Tracks.dispatchable_iff : Dispatchable plan id ↔
    origin.statusOf id = some .ready ∧ (∀ d ∈ origin.depsOf id, satisfied origin d = true ∨
      ReachedBy integrates facts origin n d ∧ passes integrates facts origin d = true) ∨
    ReachedBy integrates facts origin (n + 1) id ∧ ¬ReachedBy integrates facts origin n id := by
  unfold Dispatchable
  rw [h.rows.planned_iff, h.rows.ready_iff, h.rows.deps]
  simp only [h.satisfied_iff]
  constructor
  · rintro ⟨⟨hplanned, hnot, _⟩ | hready, hdeps⟩
    · exact Or.inr ⟨⟨hplanned, hdeps⟩, hnot⟩
    · exact Or.inl ⟨hready, hdeps⟩
  · rintro (⟨hready, hdeps⟩ | ⟨hreached, hnot⟩)
    · exact ⟨Or.inr hready, hdeps⟩
    · refine ⟨Or.inl ⟨hreached.isWaiting, hnot, ?_⟩, hreached.2⟩
      rintro ⟨_, hcut⟩
      cases hcut with
      | broken hbroken =>
        rcases hbroken with hun | ⟨hr, _⟩
        · exact Planned.not_unavailable hreached.isWaiting hun
        · exact hnot hr
      | behind _ hdep hcut =>
        exact reached_clear (fun _ hr => hr.isWaiting) (fun _ => not_fails_of_passes) hreached _ hdep
          hcut

theorem Tracks.allPlanned_iff : AllPlanned plan ↔ ¬StartHit integrates facts origin n := by
  constructor
  · rintro hplanned ⟨id, hready, hdeps⟩
    have hstatus := hplanned id (h.dispatchable_iff.mpr (Or.inl ⟨hready, hdeps⟩))
    rw [h.rows.ready_iff.mpr hready] at hstatus
    cases hstatus
  · intro hnot id hdispatch
    rcases hdispatch.1 with hplanned | hready
    · exact hplanned
    · rcases h.dispatchable_iff.mp hdispatch with hhit | ⟨hreached, _⟩
      · exact absurd ⟨id, hhit⟩ hnot
      · have horigin := h.rows.ready_iff.mp hready
        rw [hreached.isWaiting] at horigin
        cases horigin

theorem Tracks.mem_listedIds (hstart : ¬StartHit integrates facts origin n) {id : String} :
    id ∈ listedIds notAfter plan ↔
      ReachedBy integrates facts origin (n + 1) id ∧ ¬ReachedBy integrates facts origin n id := by
  rw [RunReady.mem_listedIds, h.dispatchable_iff]
  constructor
  · rintro (⟨hready, hdeps⟩ | hnew)
    · exact absurd ⟨id, hready, hdeps⟩ hstart
    · exact hnew
  · exact Or.inr

/-- The rows once the executions of a wave have ended. -/
theorem Tracks.executed (hstart : ¬StartHit integrates facts origin n) :
    Describes origin (ReachedBy integrates facts origin (n + 1))
      (FailsMid integrates facts origin n) (fun id => 0 < n ∧ CutBy integrates facts origin n id)
      (executed notAfter facts.execute plan) := by
  have hlisted : ∀ id, id ∈ listedIds notAfter plan ↔ _ := fun id => h.mem_listedIds hstart
  refine h.rows.advance (fun id => id ∈ listedIds notAfter plan) ?_ ?_ ?_ ?_ ?_ ?_ ?_ ?_ ?_
  · exact depsOf_executed notAfter facts.execute plan
  · intro id hnot
    rw [statusOf_executed, if_neg hnot]
  · intro id hreached
    exact hreached.isWaiting
  · intro id hmem hpasses
    have hsucceeds : facts.execute id = .succeeded := by
      cases hout : facts.execute id with
      | succeeded => rfl
      | failed => exact absurd (Or.inl hout) hpasses
    rw [Waves.satisfied_iff, statusOf_executed, if_pos hmem, hsucceeds]
    exact Or.inl rfl
  · intro id hmem hfails
    rcases hfails with hfailed | ⟨hreached, _⟩
    · rw [statusOf_executed, if_pos hmem, hfailed]
      rfl
    · exact absurd hreached ((hlisted id).mp hmem).2
  · intro id hmem
    exact ((hlisted id).mp hmem).1
  · intro id hnot
    have hsame : ReachedBy integrates facts origin (n + 1) id ↔
        ReachedBy integrates facts origin n id := by
      refine ⟨?_, fun hreached => hreached.succ⟩
      intro hreached
      by_contra hnew
      exact hnot ((hlisted id).mpr ⟨hreached, hnew⟩)
    refine ⟨hsame, fun hreached => ⟨fails_of_failsMid, fun hfails => Or.inr ⟨hreached, hfails⟩⟩⟩
  · intro id hreached
    exact ⟨hreached.succ, fun hfails => Or.inr ⟨hreached, hfails⟩⟩
  · intro id hreached
    exact reached_clear (fun _ hr => hr.isWaiting) (fun _ => not_failsMid_of_passes) hreached

/-- What `runReady` leaves in a wave, before the wave's integrations. -/
structure Dispatched (integrates : Bool) (facts : Facts) (origin plan : ExecutionPlan) (n : Nat)
    (notAfter : String → String → Bool) (mid : ExecutionPlan) : Prop where
  rows : Describes origin (ReachedBy integrates facts origin (n + 1))
    (FailsMid integrates facts origin n) (CutMid integrates facts origin n) mid
  planStatus : mid.status = (startPlan plan).status
  attempts : mid.integratedAttempts = plan.integratedAttempts
  succeeded : ∀ id ∈ listedIds notAfter plan, facts.execute id = .succeeded →
    mid.statusOf id = some .succeeded

theorem Tracks.dispatched (hstart : ¬StartHit integrates facts origin n) {mid : ExecutionPlan}
    (hsettles : Settles (RunReady.executed notAfter facts.execute plan) mid) :
    Dispatched integrates facts origin plan n notAfter mid where
  rows := (h.executed hstart).settle hsettles
  planStatus := hsettles.planStatus
  attempts := by
    rw [hsettles.attempts]
    exact startPlan_integratedAttempts plan
  succeeded id hlisted hsucceeds := by
    have hstatus : (RunReady.executed notAfter facts.execute plan).statusOf id =
        some .succeeded := by
      rw [statusOf_executed, if_pos hlisted, hsucceeds]
      rfl
    rw [hsettles.kept, hstatus]
    rintro ⟨hplanned, _⟩
    rw [hstatus] at hplanned
    cases hplanned

/-- The rows once a wave has integrated what had succeeded in it. -/
theorem Tracks.integrated (hstart : ¬StartHit integrates facts origin n) {mid last : ExecutionPlan}
    (hmid : Dispatched integrates facts origin plan n notAfter mid) {ids : List String}
    (hids : ∀ id, id ∈ ids ↔ id ∈ listedIds notAfter plan ∧ facts.execute id = .succeeded)
    (hintegrates : Integrates integrates facts ids (finalized mid) last) :
    Describes origin (ReachedBy integrates facts origin (n + 1)) (Fails integrates facts origin)
      (CutMid integrates facts origin n) last := by
  have hfinal := hmid.rows.congr (finalized_workstreams mid) fun _ => Iff.rfl
  have hsame : ∀ id ∈ ids, integrationPasses integrates facts (finalized mid) id =
      integrationPasses integrates facts origin id := by
    intro id hid
    obtain ⟨hreached, hnew⟩ := (h.mem_listedIds hstart).mp ((hids id).mp hid).1
    apply integrationPasses_congr
    rw [finalized_integratedAttempts, hmid.attempts]
    exact h.attempts id hreached.isWaiting hnew
  have hpasses : ∀ id ∈ ids, passes integrates facts origin id =
      integrationPasses integrates facts (finalized mid) id := by
    intro id hid
    unfold passes
    rw [((hids id).mp hid).2, hsame id hid]
    simp
  refine hfinal.advance (fun id => id ∈ ids) hintegrates.deps hintegrates.others ?_ ?_ ?_ ?_ ?_ ?_ ?_
  · intro id hreached
    exact hreached.isWaiting
  · intro id hid hnot
    apply hintegrates.passed id hid
    rw [← hpasses id hid]
    unfold Fails at hnot
    simpa using hnot
  · intro id hid hfails
    apply hintegrates.failed id hid
    rw [← hpasses id hid]
    exact hfails
  · intro id hid
    exact ((h.mem_listedIds hstart).mp ((hids id).mp hid).1).1
  · intro id hnot
    refine ⟨Iff.rfl, fun hreached => ⟨?_, fails_of_failsMid⟩⟩
    intro hfails
    by_cases hbefore : ReachedBy integrates facts origin n id
    · exact Or.inr ⟨hbefore, hfails⟩
    · cases hout : facts.execute id with
      | failed => exact Or.inl hout
      | succeeded =>
        exact absurd ((hids id).mpr ⟨(h.mem_listedIds hstart).mpr ⟨hreached, hbefore⟩, hout⟩) hnot
  · intro id hreached
    exact ⟨hreached, fails_of_failsMid⟩
  · intro id hreached
    exact reached_clear (fun _ hr => hr.isWaiting) (fun _ => not_fails_of_passes) hreached

/-- The rest of a wave once `runReady` has gone through. -/
theorem Tracks.rest (hstart : ¬StartHit integrates facts origin n) {mid : ExecutionPlan}
    (hmid : Dispatched integrates facts origin plan n notAfter mid) (blocked : List String) :
    ∃ result last,
      integrateAll integrates facts
          (sortTexts (reported notAfter facts.execute (listedIds notAfter plan) blocked).succeeded)
          (reported notAfter facts.execute (listedIds notAfter plan) blocked) (finalized mid) =
        .ok result last ∧
      result.started = sortTexts (listedIds notAfter plan) ∧
      (ReadyUnaffected last ↔ ¬LossHit integrates facts origin (n + 1)) ∧
      ∀ plan', Settles last plan' → Tracks integrates facts origin (n + 1) plan' ∧
        plan'.status = (finalized mid).status := by
  have hids : ∀ id, id ∈ sortTexts
      (reported notAfter facts.execute (listedIds notAfter plan) blocked).succeeded ↔
        id ∈ listedIds notAfter plan ∧ facts.execute id = .succeeded := by
    intro id
    rw [mem_sortTexts, mem_reported_succeeded]
  have hdistinct : (sortTexts
      (reported notAfter facts.execute (listedIds notAfter plan) blocked).succeeded).Nodup :=
    (List.perm_insertionSort _ _).nodup_iff.mpr
      (nodup_reported_succeeded (nodup_listedIds notAfter plan))
  have hstatus : ∀ id ∈ sortTexts
      (reported notAfter facts.execute (listedIds notAfter plan) blocked).succeeded,
        (finalized mid).statusOf id = some .succeeded := by
    intro id hid
    obtain ⟨hlisted, hsucceeds⟩ := (hids id).mp hid
    unfold ExecutionPlan.statusOf
    rw [finalized_workstreams]
    exact hmid.succeeded id hlisted hsucceeds
  obtain ⟨result, last, hok, hstarted, hintegrates⟩ :=
    @integrateAll_spec integrates facts (finalized mid) _ hdistinct hstatus
      (reported notAfter facts.execute (listedIds notAfter plan) blocked)
  have hrows := h.integrated hstart hmid hids hintegrates
  refine ⟨result, last, hok, hstarted, ?_, ?_⟩
  · rw [hrows.readyUnaffected_iff]
    unfold LossHit
    push Not
    rfl
  · intro plan' hsettles
    refine ⟨⟨?_, ?_⟩, ?_⟩
    · refine (hrows.settle hsettles).congr rfl ?_
      intro id
      constructor
      · exact fun hcut => hcut.2
      · exact fun hcut => ⟨by omega, hcut⟩
    · intro id hplanned hnot
      have hnotListed : id ∉ listedIds notAfter plan := fun hlisted =>
        hnot ((h.mem_listedIds hstart).mp hlisted).1
      rw [hsettles.attempts, hintegrates.attempts id fun hid => hnotListed ((hids id).mp hid).1,
        finalized_integratedAttempts, hmid.attempts]
      exact h.attempts id hplanned fun hreached => hnot hreached.succ
    · rw [hsettles.planStatus, hintegrates.planStatus]

/-- What a wave that goes through does. -/
theorem Tracks.wave_of_ok {result : SchedulerResult}
    (hok : wave notAfter integrates facts plan = .ok result plan') :
    ¬StartHit integrates facts origin n ∧ ¬LossHit integrates facts origin (n + 1) ∧
      Tracks integrates facts origin (n + 1) plan' ∧
      result.started = sortTexts (listedIds notAfter plan) ∧
      ∃ mid, Dispatched integrates facts origin plan n notAfter mid ∧
        plan'.status = (finalized mid).status := by
  obtain ⟨first, after, hrun, hrest⟩ := Fallible.bind_eq_ok_iff.mp hok
  obtain ⟨hplanned, blocked, mid, hprop, rfl, rfl⟩ := runReady_eq_ok_iff.mp hrun
  have hstart := h.allPlanned_iff.mp hplanned
  have hsettles := ((propagateDependencyFailures_spec _).2 blocked mid hprop).2
  have hmid := h.dispatched hstart hsettles
  obtain ⟨second, last, hintegrate, hstarted, hunaffected, hnext⟩ := h.rest hstart hmid blocked
  rw [Fallible.bind_ok hintegrate] at hrest
  obtain ⟨more, final, hagain, hpure⟩ := Fallible.bind_eq_ok_iff.mp hrest
  obtain ⟨hready, hsettles'⟩ := (propagateDependencyFailures_spec _).2 more final hagain
  obtain ⟨rfl, rfl⟩ := Fallible.pure_eq_ok_iff.mp hpure
  obtain ⟨htracks, hfinal⟩ := hnext final hsettles'
  exact ⟨hstart, hunaffected.mp hready, htracks, hstarted, mid, hmid, hfinal⟩

/-- A wave goes through when no workstream marked ready before stands in its way. -/
theorem Tracks.wave_goes (hstart : ¬StartHit integrates facts origin n)
    (hloss : ¬LossHit integrates facts origin (n + 1)) :
    ∃ result plan', wave notAfter integrates facts plan = .ok result plan' := by
  have hready : ReadyUnaffected (RunReady.executed notAfter facts.execute plan) := by
    rw [(h.executed hstart).readyUnaffected_iff]
    intro id hstatus d hd hcut
    refine hloss ⟨id, hstatus, d, hd, hcut.mono ?_⟩
    rintro j (hun | ⟨hreached, hfails⟩)
    · exact Wavefront.Cut.broken (Or.inl hun)
    · exact Wavefront.Cut.broken (Or.inr ⟨hreached, fails_of_failsMid hfails⟩)
  obtain ⟨blocked, mid, hprop⟩ := (propagateDependencyFailures_spec _).1 hready
  have hsettles := ((propagateDependencyFailures_spec _).2 blocked mid hprop).2
  have hmid := h.dispatched hstart hsettles
  have hrun : runReady notAfter facts.execute plan =
      .ok (reported notAfter facts.execute (listedIds notAfter plan) blocked) (finalized mid) :=
    runReady_eq_ok_iff.mpr ⟨h.allPlanned_iff.mpr hstart, blocked, mid, hprop, rfl, rfl⟩
  obtain ⟨second, last, hintegrate, _, hunaffected, _⟩ := h.rest hstart hmid blocked
  obtain ⟨more, final, hagain⟩ := (propagateDependencyFailures_spec last).1 (hunaffected.mpr hloss)
  have hunfold : wave notAfter integrates facts plan = _ := Fallible.bind_ok hrun
  rw [hunfold, Fallible.bind_ok hintegrate, Fallible.bind_ok hagain]
  exact ⟨_, final, rfl⟩

end Wave

end WaveRun
