import FlowDeck.Orchestration.RunCoherence

namespace RunCompletion

open Orchestration RunStore Snapshot TransitionEngine CompletionPolicy RunService RunEffects Option
open CompletionEffects RunSteps RunCoherence Machine

def Completed (runId : String) (s : State) : Prop :=
  ∃ row, s.db.taskRuns.get? runId = some row ∧ row.state = .completed

variable {digests : Digests} {s : State} {a : Action} {db' : Database}

theorem effect_completes (heffect : Effect digests s a db') {runId : String} {row : TaskRunRow}
    (hbefore : ¬Completed runId s) (hrow : db'.taskRuns.get? runId = some row)
    (hcompleted : row.state = .completed) :
    ∃ input now before just, a = .evaluateAndComplete input now ∧ input.runId = runId ∧
      ReachesSwap digests s.db input now before just ∧
      Committed digests s.db db' just input.sessionId now := by
  cases heffect with
  | kept quiet => exact absurd ⟨row, hrow, hcompleted⟩ hbefore
  | surroundings surroundings quiet => exact absurd ⟨row, hrow, hcompleted⟩ hbefore
  | created input correlationId draws db' quiet created =>
    rw [Table.get?_insert? created.inserted] at hrow
    split_ifs at hrow
    · rw [← some.inj hrow] at hcompleted
      cases hcompleted
    · exact absurd ⟨row, hrow, hcompleted⟩ hbefore
  | updated n draws id input existing read state draft action call wrote ready =>
    rw [updated_get?] at hrow
    obtain ⟨old, hold, rfl⟩ := map_eq_some_iff.mp hrow
    cases state with
    | none =>
      rw [map_none, getD_none, ite_self] at hcompleted
      exact absurd ⟨old, hold, hcompleted⟩ hbefore
    | some state =>
      split_ifs at hcompleted
      · exact absurd hcompleted ready.writes.not_completed
      · exact absurd ⟨old, hold, hcompleted⟩ hbefore
  | swapped input found wrote may hfound matched =>
    rw [transitionPhase_get?] at hrow
    obtain ⟨old, hold, rfl⟩ := map_eq_some_iff.mp hrow
    split_ifs at hcompleted
    · exact absurd hcompleted ((mayTransition_phases may).2 rfl)
    · exact absurd ⟨old, hold, hcompleted⟩ hbefore
  | completed input now before just result db' action quiet reaches answer status committed =>
    refine ⟨input, now, before, just, action, ?_, reaches, committed⟩
    rw [committed.taskRuns] at hrow
    obtain ⟨old, hold, rfl⟩ := map_eq_some_iff.mp hrow
    have hid : old.runId = runId := Table.key_of_get? hold
    by_cases hsame : old.runId = just.snapshot.runId
    · rw [← reaches.snapshot_runId, ← hsame, hid]
    · rw [completedRow, if_neg hsame] at hcompleted
      exact absurd ⟨old, hold, hcompleted⟩ hbefore

theorem effect_completed_row (heffect : Effect digests s a db') {runId : String}
    {row row' : TaskRunRow} (hrow : s.db.taskRuns.get? runId = some row)
    (hcompleted : row.state = .completed) (hrow' : db'.taskRuns.get? runId = some row')
    (hcompleted' : row'.state = .completed) : row' = row := by
  cases heffect with
  | kept quiet => exact some.inj (hrow'.symm.trans hrow)
  | surroundings surroundings quiet => exact some.inj (hrow'.symm.trans hrow)
  | created input correlationId draws db' quiet created =>
    have hkept := Table.get?_insert?_of_some created.inserted hrow
    exact some.inj (hrow'.symm.trans hkept)
  | updated n draws id input existing read state draft action call wrote ready =>
    rw [updated_get?, hrow, map_some] at hrow'
    rw [← some.inj hrow'] at hcompleted' ⊢
    cases state with
    | none => rw [map_none, getD_none, ite_self]
    | some state =>
      split_ifs at hcompleted' ⊢
      · exact absurd hcompleted' ready.writes.not_completed
      · rfl
  | swapped input found wrote may hfound matched =>
    rw [transitionPhase_get?, hrow, map_some] at hrow'
    rw [← some.inj hrow'] at hcompleted' ⊢
    split_ifs at hcompleted' ⊢
    · exact absurd hcompleted' ((mayTransition_phases may).2 rfl)
    · rfl
  | completed input now before just result db' action quiet reaches answer status committed =>
    rw [committed.taskRuns, hrow] at hrow'
    obtain rfl := some.inj hrow'
    have hne : row.runId ≠ just.snapshot.runId := by
      intro heq
      have hid : row.runId = runId := Table.key_of_get? hrow
      have hfound := reaches.found'
      rw [← heq, hid, hrow] at hfound
      rw [some.inj hfound, reaches.verifying] at hcompleted
      cases hcompleted
    rw [completedRow, if_neg hne]

theorem effect_reviews_kept (hcoherent : Coherent s.db) (heffect : Effect digests s a db')
    {key : String} {review : ReviewRow} (hreview : s.db.reviews.get? key = some review) :
    db'.reviews.get? key = some review := by
  cases heffect with
  | kept quiet => exact hreview
  | surroundings surroundings quiet => exact hreview
  | created input correlationId draws db' quiet created =>
    rw [created.reviews]
    exact hreview
  | updated n draws id input existing read state draft action call wrote ready =>
    rw [updated_reviews]
    exact hreview
  | swapped input row wrote may found matched =>
    rw [transitionPhase_reviews]
    exact hreview
  | completed input now row just result db' action quiet reaches answer status committed =>
    exact hcoherent.reviews_kept reaches.held committed hreview

theorem run_reviews_kept {t : State} {as : List Action} (hcoherent : Coherent s.db)
    (hr : Machine.run (step digests) s as = some t) {key : String} {review : ReviewRow}
    (hreview : s.db.reviews.get? key = some review) : t.db.reviews.get? key = some review := by
  have hstep : ∀ u a v, (Coherent u.db ∧ u.db.reviews.get? key = some review) →
      step digests u a = some v → Coherent v.db ∧ v.db.reviews.get? key = some review := by
    intro u a v hu hv
    have heffect := step_effect hv
    exact ⟨effect_coherent hu.1 heffect, effect_reviews_kept hu.1 heffect hu.2⟩
  have hend := run_invariant (I := fun u => Coherent u.db ∧ u.db.reviews.get? key = some review)
    hstep ⟨hcoherent, hreview⟩ hr
  exact hend.2

theorem run_completed_row {runId : String} {t : State} {as : List Action}
    (hr : Machine.run (step digests) s as = some t)
    (hall : ∀ mid rest w, as = mid ++ rest → Machine.run (step digests) s mid = some w →
      Completed runId w) : t.db.taskRuns.get? runId = s.db.taskRuns.get? runId := by
  have hstep : ∀ u a v, Completed runId u → Completed runId v → step digests u a = some v →
      v.db.taskRuns.get? runId = u.db.taskRuns.get? runId := by
    intro u a v ⟨row, hrow, hcompleted⟩ ⟨row', hrow', hcompleted'⟩ hv
    rw [hrow, hrow', effect_completed_row (step_effect hv) hrow hcompleted hrow' hcompleted']
  have htrans : ∀ u v w : State, v.db.taskRuns.get? runId = u.db.taskRuns.get? runId →
      w.db.taskRuns.get? runId = v.db.taskRuns.get? runId →
      w.db.taskRuns.get? runId = u.db.taskRuns.get? runId :=
    fun _ _ _ huv hvw => hvw.trans huv
  exact run_relates (R := fun u v => v.db.taskRuns.get? runId = u.db.taskRuns.get? runId)
    (fun _ => rfl) htrans hstep hr hall

/-- The run was completed by an evaluation of the policy, justified by the state before it; its
row has not changed since, and the review of the decision is still there, one version behind. -/
def ThroughPolicy (digests : Digests) (s : State) (as : List Action) (t : State) (runId : String)
    (row : TaskRunRow) : Prop :=
  ∃ pre input now post u v before just review,
    as = pre ++ .evaluateAndComplete input now :: post ∧
    Machine.run (step digests) s pre = some u ∧
    step digests u (.evaluateAndComplete input now) = some v ∧
    Machine.run (step digests) v post = some t ∧
    input.runId = runId ∧ u.db.taskRuns.get? runId = some before ∧
    Justified digests u.db input (snapshotOf u.db before) just ∧
    v.db.taskRuns.get? runId = some row ∧
    t.db.reviews.get? just.key = some review ∧ review.taskRunId = runId ∧
    review.status = .completed ∧ review.stateVersion + 1 = row.aggregateVersion

theorem completed_through_policy {digests : Digests} {surroundings : Surroundings}
    {as : List Action} {t : State} {runId : String} {row : TaskRunRow}
    (hr : Machine.run (step digests) (initial surroundings) as = some t)
    (hrow : t.db.taskRuns.get? runId = some row) (hcompleted : row.state = .completed) :
    ThroughPolicy digests (initial surroundings) as t runId row := by
  have hstart : ¬Completed runId (initial surroundings) := by
    intro ⟨old, hold, _⟩
    cases hold
  have hend : Completed runId t := ⟨row, hrow, hcompleted⟩
  obtain ⟨pre, a, post, u, v, has, hpre, hstep, hpost, hbefore, hall⟩ :=
    exists_last_crossing hr hstart hend
  have hsame : t.db.taskRuns.get? runId = v.db.taskRuns.get? runId := run_completed_row hpost hall
  have hwritten : v.db.taskRuns.get? runId = some row := hsame.symm.trans hrow
  have hcoherent : Coherent u.db := run_coherent hpre
  have heffect := step_effect hstep
  obtain ⟨input, now, before, just, rfl, hid, hreaches, hcommitted⟩ :=
    effect_completes heffect hbefore hwritten hcompleted
  have htaken := hcoherent.review_taken hreaches.held hcommitted
  have hkept := run_reviews_kept (effect_coherent hcoherent heffect) hpost htaken
  have hfound : u.db.taskRuns.get? runId = some before := by
    rw [← hid]
    exact hreaches.found
  have hversion : just.snapshot.aggregateVersion + 1 = row.aggregateVersion := by
    rw [hcommitted.taskRuns, hfound, map_some] at hwritten
    have hsnapshot : before.runId = just.snapshot.runId := by
      rw [hreaches.snapshot_runId, hid]
      exact Table.key_of_get? hfound
    rw [← some.inj hwritten, completedRow, if_pos hsnapshot, hreaches.version]
    rfl
  refine ⟨pre, input, now, post, u, v, before, just, _, has, hpre, hstep, hpost, hid, hfound,
    judge_eq_ok hreaches.judged, hwritten, hkept, ?_, rfl, hversion⟩
  rw [← hid, ← hreaches.snapshot_runId]
  rfl

theorem completed_through_policy_example : ∃ t row,
    Machine.run (step exampleDigests) (initial exampleSurroundings)
      (verifyingExample ++ [exampleCompletion]) = some t ∧
    t.db.taskRuns.get? "run-1" = some row ∧ row.state = .completed ∧
    ThroughPolicy exampleDigests (initial exampleSurroundings)
      (verifyingExample ++ [exampleCompletion]) t "run-1" row := by
  refine ⟨_, _, rfl, rfl, rfl, ?_⟩
  exact completed_through_policy rfl rfl rfl

end RunCompletion
