import FlowDeck.Orchestration.RunCounters

namespace RunLedger

open Orchestration RunStore Snapshot TransitionEngine CompletionPolicy RunService RunEffects
open CompletionEffects RunSteps RunCoherence RunCounters Machine

def count (w : Write) (s : State) (a : Action) : Nat := if writeOf s a = some w then 1 else 0

/-- How often a history commits a write. -/
def commits (digests : Digests) (w : Write) (s : State) (as : List Action) : Nat :=
  tally (step digests) (count w) s as

def completionsOf (db : Database) (runId : String) : List EventRow :=
  db.events.filter fun event =>
    decide (event.eventType = "run.completed") && decide (event.aggregateId = runId)

def CommitsOnce (digests : Digests) (db : Database) (input : EvaluateCompletionPolicyInput)
    (now : Nat) : Prop :=
  ∃ db' result event entry,
    evaluateAndComplete digests db input now = (db', .ok result) ∧ result.status = .completed ∧
    db'.events = db.events ++ [event] ∧ completionsOf db' input.runId = [event] ∧
    (db'.outbox.filter fun row => row.eventId = event.eventId) = [entry]

variable {db db' : Database} {runId : String} {digests : Digests} {s : State}

theorem completionsOf_congr (h : db'.events = db.events) (runId : String) :
    completionsOf db' runId = completionsOf db runId := by
  rw [completionsOf, completionsOf, h]

theorem completionsOf_append_other {event : EventRow} (h : db'.events = db.events ++ [event])
    (hother : event.eventType ≠ "run.completed" ∨ event.aggregateId ≠ runId) :
    completionsOf db' runId = completionsOf db runId := by
  rw [completionsOf, completionsOf, h, List.filter_append]
  cases hother with
  | inl htype => simp [htype]
  | inr hid => simp [hid]

theorem completionsOf_append_self {event : EventRow} (h : db'.events = db.events ++ [event])
    (htype : event.eventType = "run.completed") :
    completionsOf db' event.aggregateId = completionsOf db event.aggregateId ++ [event] := by
  rw [completionsOf, completionsOf, h, List.filter_append]
  simp [htype]

/-- An update stores no completion event: its status is none that would be one. -/
theorem draft_not_completed {id : String} {input : UpdateRunInput} {existing : Option Run}
    {ids : FreshIds} {read : Run} {state : Option OrchestrationPhase} {draft : EventDraft}
    (h : UpdateReady db id input existing ids read state draft) :
    draft.eventType ≠ "run.completed" := by
  have hdraft := h.draft_eq
  have hwrites := h.writes
  unfold draftEvent at hdraft
  cases hstatus : input.status with
  | none =>
    rw [hstatus] at hdraft
    rw [← Except.ok.inj hdraft]
    simp
  | some status =>
    rw [hstatus] at hdraft hwrites
    cases hwrites with
    | running =>
      rw [← Except.ok.inj hdraft]
      simp
    | failed =>
      rw [← Except.ok.inj hdraft]
      simp
    | cancelled =>
      rw [← Except.ok.inj hdraft]
      simp

theorem effect_completions {a : Action} (hcoherent : Coherent s.db)
    (heffect : Effect digests s a db') {runId : String} (hcompletes : ¬Completes digests s a runId) :
    completionsOf db' runId = completionsOf s.db runId := by
  cases heffect with
  | kept quiet => rfl
  | surroundings surroundings quiet => rfl
  | created input correlationId draws db' quiet created =>
    exact completionsOf_append_other created.events (Or.inl (by simp [queuedEvent]))
  | updated n draws id input existing read state draft action call wrote ready =>
    exact completionsOf_append_other (updated_events _ _ _ _ _ _)
      (Or.inl (draft_not_completed ready))
  | swapped input row wrote may found matched =>
    exact completionsOf_congr (transitionPhase_events _ _ _) runId
  | completed input now row just result db' action quiet reaches answer status committed =>
    obtain ⟨hfree, hevents, -⟩ := hcoherent.stored reaches.held committed
    apply completionsOf_append_other hevents
    right
    intro hid
    have hrun : input.runId = runId := by
      rw [← reaches.snapshot_runId]
      exact hid
    apply hcompletes
    refine ⟨input, now, row, just, action, hrun, reaches, ?_⟩
    rw [← hrun]
    exact (completionEvent_free_iff hcoherent reaches).mp hfree

theorem step_completions {t : State} {a : Action} (hcoherent : Coherent s.db)
    (h : step digests s a = some t) (runId : String) :
    completionsOf t.db runId = [] ↔
      completionsOf s.db runId = [] ∧ ¬Completes digests s a runId := by
  by_cases hcompletes : Completes digests s a runId
  · have hfalse : completionsOf t.db runId ≠ [] := by
      obtain ⟨input, now, row, just, rfl, hid, hreaches, hfree⟩ := hcompletes
      rw [← hid] at hfree
      obtain ⟨db', result, row', just', hok, -, hreaches', hcommitted⟩ :=
        commits_of_reaches hcoherent hreaches hfree
      have hdb : t.db = db' := by
        rw [← Option.some.inj h]
        simp only [evaluateAndComplete, hok]
      have hevents := (hcoherent.stored hreaches'.held hcommitted).2.1
      have happend := completionsOf_append_self hevents rfl
      have hrun : (completionEvent digests just' now).aggregateId = runId := by
        rw [← hid, ← hreaches'.snapshot_runId]
        rfl
      rw [hrun] at happend
      rw [hdb, happend]
      simp
    simp [hcompletes, hfalse]
  · rw [effect_completions hcoherent (step_effect h) hcompletes]
    simp [hcompletes]

theorem never_completed {surroundings : Surroundings} {as : List Action}
    (hr : Machine.run (step digests) (initial surroundings) as = some s)
    (hfirst : completionsOf s.db runId = []) :
    Along (step digests) (fun u a => ¬Completes digests u a runId) (initial surroundings) as := by
  have hcoherent : ∀ u a v, Coherent u.db → step digests u a = some v → Coherent v.db :=
    fun _ _ _ hu hv => effect_coherent hu (step_effect hv)
  have hiff := run_iff_along (I := fun u => Coherent u.db)
    (A := fun u => completionsOf u.db runId = []) hcoherent
    (fun u a v hu hv => step_completions hu hv runId) (initial_coherent surroundings) hr
  exact (hiff.mp hfirst).2

theorem ledger {surroundings : Surroundings} {as : List Action}
    (hr : Machine.run (step digests) (initial surroundings) as = some s)
    (hfirst : completionsOf s.db runId = []) :
    maxEventVersion s.db runId + commits digests (.swap runId) (initial surroundings) as =
      rowVersion s.db runId +
        commits digests (.update runId false) (initial surroundings) as := by
  have hcoherent : ∀ u a v, Coherent u.db → ¬Completes digests u a runId →
      step digests u a = some v → Coherent v.db :=
    fun _ _ _ hu _ hv => effect_coherent hu (step_effect hv)
  have hstep : ∀ u a v, Coherent u.db → ¬Completes digests u a runId →
      step digests u a = some v →
      (counters v.db runId).latest + count (.swap runId) u a + (counters u.db runId).version =
        (counters v.db runId).version + count (.update runId false) u a +
          (counters u.db runId).latest := by
    intro u a v hu hcompletes hv
    obtain ⟨tick, hticks, hcounters⟩ := step_ticks hu hv runId
    have hswaps : count (.swap runId) u a = if tick = .swap then 1 else 0 :=
      if_congr hticks.swap_iff.symm rfl rfl
    have hupdates : count (.update runId false) u a = if tick = .event then 1 else 0 :=
      if_congr hticks.event_iff.symm rfl rfl
    rw [hcounters, hswaps, hupdates]
    cases tick with
    | keep =>
      simp [Counters.tick]
      omega
    | event =>
      simp [Counters.tick, Counters.latest, Versions.latest_append_singleton]
      omega
    | status =>
      simp [Counters.tick, Counters.latest, Versions.latest_append_singleton]
      omega
    | swap =>
      simp [Counters.tick, Counters.latest]
      omega
    | complete => exact absurd (hticks.complete_iff.mp rfl) hcompletes
  have hbalance := Along.balance hcoherent hstep (never_completed hr hfirst)
    (initial_coherent surroundings) hr
  exact hbalance

theorem commitsOnce_iff_free {input : EvaluateCompletionPolicyInput} {now : Nat} {row : TaskRunRow}
    {just : Justification} (hcoherent : Coherent db) (hfirst : completionsOf db input.runId = [])
    (hreaches : ReachesSwap digests db input now row just) :
    CommitsOnce digests db input now ↔
      row.aggregateVersion + 1 ∉ runVersions db input.runId := by
  constructor
  · intro ⟨db', result, event, entry, hok, hstatus, _⟩
    unfold evaluateAndComplete at hok
    cases htransaction : evaluateInTransaction digests db input now with
    | error failure =>
      rw [htransaction] at hok
      cases hok
    | ok pair =>
      obtain ⟨db₁, result₁⟩ := pair
      rw [htransaction] at hok
      obtain ⟨rfl, hresult⟩ := Prod.mk.inj hok
      obtain rfl := Except.ok.inj hresult
      cases evaluateInTransaction_eq_ok htransaction with
      | inl hkept => exact absurd hstatus hkept.2
      | inr hcommitted =>
        obtain ⟨row', just', hreaches', -, hcommitted⟩ := hcommitted
        obtain rfl : row = row' := Option.some.inj (hreaches.found.symm.trans hreaches'.found)
        exact (completionEvent_free_iff hcoherent hreaches').mp
          (hcoherent.stored hreaches'.held hcommitted).1
  · intro hfree
    obtain ⟨db', result, row', just', hok, hstatus, hreaches', hcommitted⟩ :=
      commits_of_reaches hcoherent hreaches hfree
    obtain ⟨-, hevents, houtbox⟩ := hcoherent.stored hreaches'.held hcommitted
    refine ⟨db', result, completionEvent digests just' now, completionEntry digests just', ?_,
      hstatus, hevents, ?_, ?_⟩
    · simp only [evaluateAndComplete, hok]
    · have happend := completionsOf_append_self hevents rfl
      have hrun : (completionEvent digests just' now).aggregateId = input.runId := by
        rw [← hreaches'.snapshot_runId]
        rfl
      rw [hrun, hfirst] at happend
      exact happend
    · have hnone : db.outbox.filter (fun row =>
          row.eventId = (completionEvent digests just' now).eventId) = [] := by
        rw [List.filter_eq_nil_iff]
        intro row hrow
        obtain ⟨event, hevent, hid⟩ := hcoherent.referenced row hrow
        have hne : event.eventId ≠ (completionEvent digests just' now).eventId :=
          hcoherent.event_untaken hreaches'.held event hevent
        rw [← hid]
        simpa using hne
      rw [houtbox, List.filter_append, hnone]
      simp [completionEntry, completionEvent]

/-- A first completion of a run commits its event and its outbox entry exactly when the history of
the run has no more progress updates than swaps. -/
theorem completion_commits_once_iff {digests : Digests} {surroundings : Surroundings}
    {as : List Action} {s : State} {input : EvaluateCompletionPolicyInput} {now : Nat}
    {row : TaskRunRow} {just : Justification}
    (hr : Machine.run (step digests) (initial surroundings) as = some s)
    (hfirst : completionsOf s.db input.runId = [])
    (hreaches : ReachesSwap digests s.db input now row just) :
    CommitsOnce digests s.db input now ↔
      commits digests (.update input.runId false) (initial surroundings) as ≤
        commits digests (.swap input.runId) (initial surroundings) as := by
  have hcoherent := run_coherent hr
  have hfilled := run_filled hr input.runId
  have hledger := ledger hr hfirst
  have hversion := rowVersion_of_get? hreaches.found
  have hmem : row.aggregateVersion + 1 ∈ runVersions s.db input.runId ↔
      row.aggregateVersion < maxEventVersion s.db input.runId := by
    rw [← hversion]
    exact hfilled.succ_mem_iff
  rw [commitsOnce_iff_free hcoherent hfirst hreaches, hmem]
  omega

theorem completion_commits_once_example : ∃ s,
    Machine.run (step exampleDigests) (initial exampleSurroundings) verifyingExample = some s ∧
    CommitsOnce exampleDigests s.db exampleEvaluation 9 := by
  refine ⟨_, rfl, ?_⟩
  have hiff := @completion_commits_once_iff exampleDigests exampleSurroundings verifyingExample _
    exampleEvaluation 9 _ _ rfl rfl ⟨rfl, rfl, rfl⟩
  rw [hiff]
  decide

/-- Three progress updates of a run that swapped twice: the event of its completion is refused. -/
theorem progress_refuses_completion : ∃ s row just,
    Machine.run (step exampleDigests) (initial exampleSurroundings)
      (verifyingExample ++ progressUpdate 1 "e-1" "o-1" ++ progressUpdate 2 "e-2" "o-2" ++
        progressUpdate 3 "e-3" "o-3") = some s ∧
    completionsOf s.db "run-1" = [] ∧ ReachesSwap exampleDigests s.db exampleEvaluation 9 row just ∧
    evaluateAndComplete exampleDigests s.db exampleEvaluation 9 =
      (s.db, .error constraintFailure) :=
  ⟨_, _, _, rfl, rfl, ⟨rfl, rfl, rfl⟩, rfl⟩

end RunLedger
