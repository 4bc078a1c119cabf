import FlowDeck.Orchestration.RunCoherence

namespace RunCounters

open Orchestration RunStore Snapshot TransitionEngine CompletionPolicy RunService RunEffects
open CompletionEffects RunSteps RunCoherence Machine

/-- The version of a run's row, zero before there is one, and the versions of its events. -/
structure Counters where
  version : Nat
  versions : List Nat
  deriving DecidableEq

/-- How a step moves the two counters: by an event, by a row update with an event, by a row update
alone, or by a completion, whose event takes its version from the row. -/
inductive Tick
  | keep
  | event
  | status
  | swap
  | complete
  deriving DecidableEq

def Counters.latest (c : Counters) : Nat := Versions.latest c.versions

def Counters.tick (c : Counters) : Tick → Counters
  | .keep => c
  | .event => { c with versions := c.versions ++ [c.latest + 1] }
  | .status => { version := c.version + 1, versions := c.versions ++ [c.latest + 1] }
  | .swap => { c with version := c.version + 1 }
  | .complete => { version := c.version + 1, versions := c.versions ++ [c.version + 1] }

/-- Versions are only ever missing up to the version of the row. -/
def Counters.Filled (c : Counters) : Prop := Versions.FilledAbove c.version c.versions

theorem Counters.Filled.tick {c : Counters} (h : c.Filled) (t : Tick) : (c.tick t).Filled := by
  have hnext : Versions.FilledAbove c.version (c.versions ++ [c.latest + 1]) := by
    apply h.append
    simp only [Counters.latest]
    omega
  cases t with
  | keep => exact h
  | event => exact hnext
  | status => exact hnext.mono (Nat.le_succ _)
  | swap => exact h.mono (Nat.le_succ _)
  | complete =>
    have habove : Versions.FilledAbove (c.version + 1) c.versions := h.mono (Nat.le_succ _)
    apply habove.append
    omega

/-- A completion under a free version is the only tick that can leave a gap, and it does so exactly
when the row is ahead of the events. -/
theorem Counters.tick_contiguous_iff {c : Counters} (h : c.Filled) {t : Tick}
    (hfree : t = .complete → c.version + 1 ∉ c.versions) :
    Versions.Contiguous (c.tick t).versions ↔
      Versions.Contiguous c.versions ∧ (t = .complete → c.version ≤ c.latest) := by
  have hnext : Versions.Contiguous (c.versions ++ [c.latest + 1]) ↔
      Versions.Contiguous c.versions := by
    have hlt : Versions.latest c.versions < c.latest + 1 := Nat.lt_succ_self _
    rw [Versions.contiguous_append_iff hlt]
    constructor
    · intro hcontiguous
      exact hcontiguous.1
    · intro hcontiguous
      exact ⟨hcontiguous, by rw [Counters.latest, hcontiguous.latest_eq]⟩
  cases t with
  | keep => simp [Counters.tick]
  | event => simpa [Counters.tick] using hnext
  | status => simpa [Counters.tick] using hnext
  | swap => simp [Counters.tick]
  | complete =>
    have hlatest : Versions.latest c.versions ≤ c.version := by
      have hnot := hfree rfl
      rw [h.succ_mem_iff] at hnot
      omega
    have hlt : Versions.latest c.versions < c.version + 1 := by omega
    simp only [Counters.tick, Versions.contiguous_append_iff hlt, forall_const, Counters.latest]
    constructor
    · intro ⟨hcontiguous, hversion⟩
      have heq := hcontiguous.latest_eq
      exact ⟨hcontiguous, by omega⟩
    · intro ⟨hcontiguous, hversion⟩
      have heq := hcontiguous.latest_eq
      exact ⟨hcontiguous, by omega⟩

def runVersions (db : Database) (runId : String) : List Nat :=
  (runEvents db runId).map (·.aggregateVersion)

def rowVersion (db : Database) (runId : String) : Nat :=
  ((db.taskRuns.get? runId).map (·.aggregateVersion)).getD 0

def counters (db : Database) (runId : String) : Counters where
  version := rowVersion db runId
  versions := runVersions db runId

theorem counters_latest (db : Database) (runId : String) :
    (counters db runId).latest = maxEventVersion db runId := rfl

variable {db db' : Database} {runId : String} {row : TaskRunRow} {now : Nat} {digests : Digests}
  {input : EvaluateCompletionPolicyInput} {just : Justification} {s t : State} {a : Action}

theorem runVersions_congr (h : db'.events = db.events) (runId : String) :
    runVersions db' runId = runVersions db runId := by
  rw [runVersions, runVersions, runEvents, runEvents, h]

theorem runVersions_append_self {event : EventRow} (h : db'.events = db.events ++ [event]) :
    runVersions db' event.aggregateId =
      runVersions db event.aggregateId ++ [event.aggregateVersion] := by
  simp [runVersions, runEvents, h]

theorem runVersions_append_other {event : EventRow} (h : db'.events = db.events ++ [event])
    (hne : event.aggregateId ≠ runId) : runVersions db' runId = runVersions db runId := by
  simp [runVersions, runEvents, h, hne]

theorem mem_runVersions {v : Nat} :
    v ∈ runVersions db runId ↔
      ∃ event ∈ db.events, event.aggregateId = runId ∧ event.aggregateVersion = v := by
  simp [runVersions, runEvents, and_assoc]

theorem runVersions_eq_nil (h : Coherent db) {runId : String}
    (hnone : db.taskRuns.get? runId = none) : runVersions db runId = [] := by
  rw [List.eq_nil_iff_forall_not_mem]
  intro v hv
  obtain ⟨event, hevent, hid, -⟩ := mem_runVersions.mp hv
  obtain ⟨row, hrow⟩ := h.owned event hevent
  rw [hid, hnone] at hrow
  cases hrow

/-- The step evaluates the run, reaches the swap, and finds the version of its event free. -/
def Completes (digests : Digests) (s : State) (a : Action) (runId : String) : Prop :=
  ∃ input now row just, a = .evaluateAndComplete input now ∧ input.runId = runId ∧
    ReachesSwap digests s.db input now row just ∧
    row.aggregateVersion + 1 ∉ runVersions s.db runId

/-- Which tick of a run's counters a step is. -/
structure Ticks (digests : Digests) (s : State) (a : Action) (runId : String) (tick : Tick) :
    Prop where
  event_iff : tick = .event ↔ writeOf s a = some (.update runId false)
  swap_iff : tick = .swap ↔ writeOf s a = some (.swap runId)
  complete_iff : tick = .complete ↔ Completes digests s a runId

theorem rowVersion_of_get? (h : db.taskRuns.get? runId = some row) :
    rowVersion db runId = row.aggregateVersion := by
  rw [rowVersion, h]
  rfl

theorem rowVersion_congr (h : db'.taskRuns.get? runId = db.taskRuns.get? runId) :
    rowVersion db' runId = rowVersion db runId := by
  rw [rowVersion, rowVersion, h]

theorem counters_keep (hrow : db'.taskRuns.get? runId = db.taskRuns.get? runId)
    (hversions : runVersions db' runId = runVersions db runId) :
    counters db' runId = (counters db runId).tick .keep := by
  rw [counters, rowVersion_congr hrow, hversions]
  rfl

/-- The first version of a row and of an event, which a creation sets, is what a status update would
set on counters that start from nothing. -/
theorem counters_created {input : CreateRunInput} {correlationId : String} {draws : Draws}
    {entry : OutboxRow} (hcoherent : Coherent db)
    (h : Created db db' (runRow input draws.runId draws.now)
      (queuedEvent input correlationId draws.runId draws.ids draws.now) entry) (runId : String) :
    counters db' runId =
      (counters db runId).tick (if draws.runId = runId then .status else .keep) := by
  have hget := Table.get?_insert? h.inserted runId
  by_cases hid : draws.runId = runId
  · rw [if_pos hid]
    have hnone : db.taskRuns.get? runId = none := by
      rw [← hid]
      exact (Table.insert?_eq_some h.inserted).1
    have hrow : db'.taskRuns.get? runId = some (runRow input draws.runId draws.now) := by
      rw [hget]
      exact if_pos hid
    have hversions : runVersions db' runId = runVersions db runId ++ [1] := by
      rw [← hid]
      exact runVersions_append_self h.events
    rw [counters, rowVersion_of_get? hrow, hversions, runVersions_eq_nil hcoherent hnone]
    simp [counters, rowVersion, hnone, runVersions_eq_nil hcoherent hnone, Counters.tick,
      Counters.latest, runRow]
  · rw [if_neg hid]
    apply counters_keep
    · rw [hget]
      exact if_neg hid
    · exact runVersions_append_other h.events hid

theorem counters_updated {id : String} {state : Option OrchestrationPhase} {draft : EventDraft}
    {ids : FreshIds} (hfound : ∃ row, db.taskRuns.get? id = some row) (runId : String) :
    counters (updated db id state draft ids now) runId = (counters db runId).tick
      (if id = runId then (if state.isSome then .status else .event) else .keep) := by
  have hevents := updated_events db id state draft ids now
  by_cases hid : id = runId
  · rw [if_pos hid]
    obtain ⟨row, hrow⟩ := hfound
    rw [hid] at hrow
    have hrowId : row.runId = id := by
      rw [hid]
      exact Table.key_of_get? hrow
    have hversions : runVersions (updated db id state draft ids now) runId =
        runVersions db runId ++ [maxEventVersion db runId + 1] := by
      rw [← hid]
      exact runVersions_append_self hevents
    have hget := updated_get? db id state draft ids now runId
    rw [hrow, Option.map_some, if_pos hrowId] at hget
    rw [counters, rowVersion_of_get? hget, hversions]
    cases state with
    | none => simp [counters, rowVersion_of_get? hrow, Counters.tick, ← counters_latest]
    | some state =>
      simp [counters, rowVersion_of_get? hrow, Counters.tick, ← counters_latest, setState]
  · rw [if_neg hid]
    apply counters_keep
    · rw [updated_get?]
      cases hrow : db.taskRuns.get? runId with
      | none => rfl
      | some row =>
        have hne : row.runId ≠ id := by
          intro heq
          exact hid (heq.symm.trans (Table.key_of_get? hrow))
        rw [Option.map_some, if_neg hne]
    · exact runVersions_append_other hevents hid

theorem counters_swapped {input : TransitionPhaseInput} (hmay : mayTransition input false = true)
    (hfound : db.taskRuns.get? input.runId = some row) (hmatched : input.cas.matches row = true)
    (runId : String) :
    counters (transitionPhase db input false).1 runId =
      (counters db runId).tick (if input.runId = runId then .swap else .keep) := by
  have hversions := runVersions_congr (transitionPhase_events db input false) runId
  by_cases hid : input.runId = runId
  · rw [if_pos hid]
    have hget := transitionPhase_get? db input false runId
    rw [hid] at hfound
    rw [hfound, Option.map_some, hmay, hmatched] at hget
    rw [counters, rowVersion_of_get? hget, hversions]
    simp [counters, rowVersion_of_get? hfound, Counters.tick, PhaseCas.apply, setState]
  · rw [if_neg hid]
    apply counters_keep _ hversions
    rw [transitionPhase_get?]
    cases hrow : db.taskRuns.get? runId with
    | none => rfl
    | some other =>
      have hne : input.cas.matches other = false := by
        refine Bool.eq_false_iff.mpr ?_
        intro htrue
        have hother : other.runId = runId := Table.key_of_get? hrow
        exact hid ((matches_iff.mp htrue).1.symm.trans hother)
      rw [Option.map_some, hne, Bool.and_false]
      rfl

theorem counters_committed (hcoherent : Coherent db)
    (hreaches : ReachesSwap digests db input now row just)
    (h : Committed digests db db' just input.sessionId now) (runId : String) :
    counters db' runId =
      (counters db runId).tick (if input.runId = runId then .complete else .keep) := by
  obtain ⟨-, hevents, -⟩ := hcoherent.stored hreaches.held h
  have hsnapshot := hreaches.snapshot_runId
  have hget := h.taskRuns runId
  by_cases hid : input.runId = runId
  · rw [if_pos hid]
    have hfound : db.taskRuns.get? runId = some row := by
      rw [← hid]
      exact hreaches.found
    have hrowId : row.runId = just.snapshot.runId := by
      rw [hsnapshot]
      exact Table.key_of_get? hreaches.found
    have hversions : runVersions db' runId =
        runVersions db runId ++ [row.aggregateVersion + 1] := by
      rw [← hreaches.version, ← hid, ← hsnapshot]
      exact runVersions_append_self hevents
    rw [hfound, Option.map_some, completedRow, if_pos hrowId] at hget
    rw [counters, rowVersion_of_get? hget, hversions]
    simp [counters, rowVersion_of_get? hfound, Counters.tick, setCompletedAt, PhaseCas.apply,
      setState]
  · rw [if_neg hid]
    apply counters_keep
    · rw [hget]
      cases hrow : db.taskRuns.get? runId with
      | none => rfl
      | some other =>
        have hne : other.runId ≠ just.snapshot.runId := by
          intro heq
          have hother : other.runId = runId := Table.key_of_get? hrow
          exact hid (hsnapshot.symm.trans (heq.symm.trans hother))
        rw [Option.map_some, completedRow, if_neg hne]
    · apply runVersions_append_other hevents
      intro heq
      exact hid (hsnapshot.symm.trans heq)

theorem completionEvent_free_iff (hcoherent : Coherent db)
    (hreaches : ReachesSwap digests db input now row just) :
    (∀ event ∈ db.events, conflicts (completionEvent digests just now) event = false) ↔
      row.aggregateVersion + 1 ∉ runVersions db input.runId := by
  have hsnapshot := hreaches.snapshot_runId
  have hversion := hreaches.version
  constructor
  · intro hfree hmem
    obtain ⟨event, hevent, hid, hnext⟩ := mem_runVersions.mp hmem
    have hconflict := (conflicts_eq_false.mp (hfree event hevent)).2
    apply hconflict
    · exact hid.trans hsnapshot.symm
    · rw [hnext, ← hversion]
      rfl
  · intro hfree event hevent
    refine conflicts_eq_false.mpr ⟨hcoherent.event_untaken hreaches.held event hevent, ?_⟩
    intro hid hnext
    apply hfree
    refine mem_runVersions.mpr ⟨event, hevent, hid.trans hsnapshot, ?_⟩
    rw [hnext, ← hversion]
    rfl

theorem commits_of_reaches (hcoherent : Coherent db)
    (hreaches : ReachesSwap digests db input now row just)
    (hfree : row.aggregateVersion + 1 ∉ runVersions db input.runId) :
    ∃ db' result row' just', evaluateInTransaction digests db input now = .ok (db', result) ∧
      result.status = .completed ∧ ReachesSwap digests db input now row' just' ∧
      Committed digests db db' just' input.sessionId now := by
  have hevents := (completionEvent_free_iff hcoherent hreaches).mpr hfree
  obtain ⟨db', result, hok, hstatus⟩ :=
    hreaches.completes hevents (hcoherent.entry_untaken hreaches.held)
  cases evaluateInTransaction_eq_ok hok with
  | inl hkept => exact absurd hstatus hkept.2
  | inr hcommitted =>
    obtain ⟨row', just', hreaches', -, hcommitted⟩ := hcommitted
    exact ⟨db', result, row', just', hok, hstatus, hreaches', hcommitted⟩

theorem ticks_quiet (quiet : writeOf s a = none) (hcompletes : ¬Completes digests s a runId)
    (first : Bool) : Ticks digests s a runId (if first then .status else .keep) := by
  constructor
  · rw [quiet]
    cases first <;> simp
  · rw [quiet]
    cases first <;> simp
  · cases first <;> simp [hcompletes]

theorem effect_ticks (hcoherent : Coherent s.db) (heffect : Effect digests s a db') {runId : String}
    (hcompletes : ¬Completes digests s a runId) :
    ∃ tick, Ticks digests s a runId tick ∧ counters db' runId = (counters s.db runId).tick tick := by
  cases heffect with
  | kept quiet => exact ⟨.keep, ticks_quiet quiet hcompletes false, rfl⟩
  | surroundings surroundings quiet => exact ⟨.keep, ticks_quiet quiet hcompletes false, rfl⟩
  | created input correlationId draws db' quiet created =>
    refine ⟨_, ?_, counters_created hcoherent created runId⟩
    simpa using ticks_quiet quiet hcompletes (decide (draws.runId = runId))
  | updated n draws id input existing read state draft action call wrote ready =>
    refine ⟨_, ?_, counters_updated ready.found runId⟩
    have hsome := ready.writes.isSome
    constructor
    · rw [wrote, hsome]
      by_cases hid : id = runId
      · cases state <;> simp [hid]
      · simp [hid]
    · rw [wrote]
      split_ifs <;> simp
    · split_ifs <;> simp [hcompletes]
  | swapped input row wrote may found matched =>
    refine ⟨_, ?_, counters_swapped may found matched runId⟩
    constructor
    · rw [wrote]
      split_ifs <;> simp
    · rw [wrote]
      by_cases hid : input.runId = runId <;> simp [hid]
    · split_ifs <;> simp [hcompletes]
  | completed input now row just result db' action quiet reaches answer status committed =>
    refine ⟨.keep, ticks_quiet quiet hcompletes false, ?_⟩
    have hne : input.runId ≠ runId := by
      intro hid
      apply hcompletes
      refine ⟨input, now, row, just, action, hid, reaches, ?_⟩
      rw [← hid]
      exact (completionEvent_free_iff hcoherent reaches).mp
        (hcoherent.stored reaches.held committed).1
    rw [counters_committed hcoherent reaches committed runId, if_neg hne]

theorem step_ticks (hcoherent : Coherent s.db) (h : step digests s a = some t) (runId : String) :
    ∃ tick, Ticks digests s a runId tick ∧
      counters t.db runId = (counters s.db runId).tick tick := by
  by_cases hcompletes : Completes digests s a runId
  · refine ⟨.complete, ?_, ?_⟩
    · have hwrite : writeOf s a = none := by
        obtain ⟨input, now, row, just, rfl, -⟩ := hcompletes
        rfl
      constructor
      · simp [hwrite]
      · simp [hwrite]
      · simp [hcompletes]
    · obtain ⟨input, now, row, just, rfl, hid, hreaches, hfree⟩ := hcompletes
      rw [← hid] at hfree
      obtain ⟨db', result, row', just', hok, -, hreaches', hcommitted⟩ :=
        commits_of_reaches hcoherent hreaches hfree
      have hdb : t.db = db' := by
        rw [← Option.some.inj h]
        simp only [evaluateAndComplete, hok]
      rw [hdb, counters_committed hcoherent hreaches' hcommitted runId, if_pos hid]
  · exact effect_ticks hcoherent (step_effect h) hcompletes

theorem initial_filled (surroundings : Surroundings) (runId : String) :
    (counters (initial surroundings).db runId).Filled := Versions.filledAbove_nil _

theorem step_filled (hcoherent : Coherent s.db) (h : step digests s a = some t) {runId : String}
    (hfilled : (counters s.db runId).Filled) : (counters t.db runId).Filled := by
  obtain ⟨tick, -, hcounters⟩ := step_ticks hcoherent h runId
  rw [hcounters]
  exact hfilled.tick tick

theorem run_filled {surroundings : Surroundings} {as : List Action}
    (hr : Machine.run (step digests) (initial surroundings) as = some t) (runId : String) :
    (counters t.db runId).Filled := by
  have hstep : ∀ s a t, (Coherent s.db ∧ (counters s.db runId).Filled) →
      step digests s a = some t → Coherent t.db ∧ (counters t.db runId).Filled := by
    intro s a t hs hstep
    exact ⟨effect_coherent hs.1 (step_effect hstep), step_filled hs.1 hstep hs.2⟩
  have hstart := And.intro (initial_coherent surroundings) (initial_filled surroundings runId)
  exact (run_invariant (I := fun s => Coherent s.db ∧ (counters s.db runId).Filled) hstep hstart
    hr).2

end RunCounters
