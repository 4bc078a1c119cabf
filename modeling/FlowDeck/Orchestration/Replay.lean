import FlowDeck.Orchestration.RunCounters
import Mathlib.Data.Prod.Lex

namespace Replay

open Orchestration RunStore Snapshot TransitionEngine CompletionPolicy RunService RunEffects List
open InsertionMap
open CodeUnits
open CompletionEffects RunSteps RunCoherence RunCounters Machine
open CodeUnits (before)

/-- What a replay reads of an event. -/
structure OrchestrationEvent where
  id : String
  aggregateId : Option String
  aggregateVersion : Option Nat
  timestamp : String
  deriving DecidableEq

structure ReplayValidationResult where
  ok : Bool
  reason : Option String := none
  eventCount : Nat
  deriving DecidableEq

structure OrderedEvent where
  id : String
  aggregateId : String
  aggregateVersion : Nat
  timestamp : String
  deriving DecidableEq

def toOrdered (events : List OrchestrationEvent) : List OrderedEvent :=
  events.map fun e => {
    id := e.id
    aggregateId := e.aggregateId.getD ""
    aggregateVersion := e.aggregateVersion.getD 0
    timestamp := e.timestamp }

def compareOrdered (a b : OrderedEvent) : Int :=
  if a.aggregateId ≠ b.aggregateId then
    if before a.aggregateId b.aggregateId then -1 else 1
  else if a.aggregateVersion ≠ b.aggregateVersion then
    (a.aggregateVersion : Int) - (b.aggregateVersion : Int)
  else if before a.timestamp b.timestamp then -1
  else if before b.timestamp a.timestamp then 1
  else 0

def sortOrdered (events : List OrderedEvent) : List OrderedEvent :=
  events.insertionSort fun a b => compareOrdered a b ≤ 0

def isMissingIdentity (e : OrchestrationEvent) : Bool :=
  e.aggregateId.isNone || e.aggregateVersion.isNone

/-- The first version of a stream that is not the expected one, as the text of its rejection. -/
def streamProblem (aggregateId : String) : Nat → List OrderedEvent → Option String
  | _, [] => none
  | expected, ev :: stream =>
    if ev.aggregateVersion ≠ expected then
      some ("REPLAY_STREAM_INVALID: " ++
        (if ev.aggregateVersion < expected then "duplicate" else "gap") ++ " in aggregate " ++
        aggregateId ++ " at version " ++ toString ev.aggregateVersion ++ " (expected " ++
        toString expected ++ "). Deterministic replay requires contiguous versions starting at 1.")
    else streamProblem aggregateId (expected + 1) stream

def validateReplayStream (events : List OrchestrationEvent) : ReplayValidationResult :=
  if events.length = 0 then { ok := true, eventCount := 0 }
  else
    match events.find? isMissingIdentity with
    | some ev => {
        ok := false
        eventCount := events.length
        reason := some ("REPLAY_STREAM_INVALID: event " ++ ev.id ++ " is missing aggregate " ++
          "identity (aggregateId/aggregateVersion). Deterministic replay requires complete " ++
          "ordering metadata.") }
    | none =>
      let byAggregate := groupBy OrderedEvent.aggregateId (sortOrdered (toOrdered events))
      match byAggregate.entries.findSome? fun entry => streamProblem entry.1 1 entry.2 with
      | some reason => { ok := false, eventCount := events.length, reason := some reason }
      | none => { ok := true, eventCount := events.length }

/-- The key that `compareOrdered` compares by. -/
def sortKey (e : OrderedEvent) : List Nat ×ₗ Nat ×ₗ List Nat :=
  toLex (ofText e.aggregateId, toLex (e.aggregateVersion, ofText e.timestamp))

theorem compareOrdered_iff {a b : OrderedEvent} : compareOrdered a b ≤ 0 ↔ sortKey a ≤ sortKey b := by
  unfold compareOrdered sortKey
  rw [Prod.Lex.toLex_le_toLex, Prod.Lex.toLex_le_toLex]
  simp only [ofText_inj]
  split_ifs with hid hbefore hversion hearlier hlater
  · simp [before_iff.mp hbefore]
  · have hnot := mt before_iff.mpr hbefore
    simp [hid, hnot]
  · have hsame : a.aggregateId = b.aggregateId := not_not.mp hid
    simp only [hsame, lt_irrefl, hversion, true_and, false_and, or_false, false_or]
    omega
  · have hsame : a.aggregateId = b.aggregateId := not_not.mp hid
    have hequal : a.aggregateVersion = b.aggregateVersion := not_not.mp hversion
    simp [hsame, hequal, (before_iff.mp hearlier).le]
  · have hsame : a.aggregateId = b.aggregateId := not_not.mp hid
    have hequal : a.aggregateVersion = b.aggregateVersion := not_not.mp hversion
    simp [hsame, hequal, before_iff.mp hlater]
  · have hsame : a.aggregateId = b.aggregateId := not_not.mp hid
    have hequal : a.aggregateVersion = b.aggregateVersion := not_not.mp hversion
    have hle := mt before_iff.mpr hlater
    rw [not_lt] at hle
    simp [hsame, hequal, hle]

instance : Std.Total fun a b : OrderedEvent => compareOrdered a b ≤ 0 where
  total a b := by
    rw [compareOrdered_iff, compareOrdered_iff]
    exact le_total _ _

instance : IsTrans OrderedEvent fun a b => compareOrdered a b ≤ 0 where
  trans a b c hab hbc := by
    rw [compareOrdered_iff] at *
    exact hab.trans hbc

theorem sortOrdered_pairwise (events : List OrderedEvent) :
    (sortOrdered events).Pairwise fun a b => compareOrdered a b ≤ 0 :=
  pairwise_insertionSort _ events

theorem sortOrdered_perm (events : List OrderedEvent) : (sortOrdered events).Perm events :=
  perm_insertionSort _ events

def streamOf (events : List OrderedEvent) (aggregateId : String) : List OrderedEvent :=
  events.filter fun e => e.aggregateId = aggregateId

theorem streamOf_sorted (events : List OrderedEvent) (aggregateId : String) :
    ((streamOf (sortOrdered events) aggregateId).map (·.aggregateVersion)).Pairwise (· ≤ ·) := by
  rw [pairwise_map]
  have hsorted := (sortOrdered_pairwise events).filter fun e => e.aggregateId = aggregateId
  refine Pairwise.imp_of_mem ?_ hsorted
  intro a b ha hb hle
  have hida : a.aggregateId = aggregateId := by simpa using (mem_filter.mp ha).2
  have hidb : b.aggregateId = aggregateId := by simpa using (mem_filter.mp hb).2
  have hsame : a.aggregateId = b.aggregateId := hida.trans hidb.symm
  by_cases hversion : a.aggregateVersion = b.aggregateVersion
  · exact hversion.le
  · rw [compareOrdered, if_neg (not_not.mpr hsame), if_pos hversion] at hle
    omega

variable {aggregateId runId : String} {events : List OrderedEvent}

theorem streamProblem_eq_none {expected : Nat} {stream : List OrderedEvent} :
    streamProblem aggregateId expected stream = none ↔
      stream.map (·.aggregateVersion) = range' expected stream.length := by
  induction stream generalizing expected with
  | nil => simp [streamProblem]
  | cons ev stream ih =>
    rw [streamProblem, map_cons, length_cons, range'_succ, cons.injEq, ← ih]
    by_cases hversion : ev.aggregateVersion = expected
    · simp [hversion]
    · simp [hversion]

def Contiguous (events : List OrderedEvent) (aggregateId : String) : Prop :=
  Versions.Contiguous ((streamOf events aggregateId).map (·.aggregateVersion))

theorem contiguous_sorted :
    Contiguous (sortOrdered events) aggregateId ↔ Contiguous events aggregateId := by
  have hperm : ((streamOf (sortOrdered events) aggregateId).map (·.aggregateVersion)).Perm
      ((streamOf events aggregateId).map (·.aggregateVersion)) :=
    ((sortOrdered_perm events).filter _).map _
  constructor
  · intro h
    exact h.of_perm hperm.symm
  · intro h
    exact h.of_perm hperm

theorem sorted_problem_iff :
    streamProblem aggregateId 1 (streamOf (sortOrdered events) aggregateId) = none ↔
      Contiguous events aggregateId := by
  rw [streamProblem_eq_none, ← contiguous_sorted, Contiguous,
    Versions.sorted_contiguous_iff (streamOf_sorted events aggregateId), length_map]

theorem groups_iff :
    ((groupBy OrderedEvent.aggregateId (sortOrdered events)).entries.findSome?
      fun entry => streamProblem entry.1 1 entry.2) = none ↔
    ∀ aggregateId, Contiguous events aggregateId := by
  have hdistinct := distinct_groupBy OrderedEvent.aggregateId (sortOrdered events)
  rw [findSome?_eq_none_iff]
  constructor
  · intro h aggregateId
    rw [← sorted_problem_iff]
    by_cases hnil : streamOf (sortOrdered events) aggregateId = []
    · rw [hnil]
      rfl
    · have hget := get?_groupBy OrderedEvent.aggregateId (sortOrdered events) aggregateId
      have hstream := hget.trans (if_neg hnil)
      rw [← hdistinct.mem_iff] at hstream
      exact h _ hstream
  · intro h entry hentry
    obtain ⟨aggregateId, stream⟩ := entry
    rw [hdistinct.mem_iff, get?_groupBy] at hentry
    split_ifs at hentry
    obtain rfl := Option.some.inj hentry
    exact sorted_problem_iff.mpr (h aggregateId)

theorem validateReplayStream_ok_iff {events : List OrchestrationEvent} :
    (validateReplayStream events).ok = true ↔
      (∀ e ∈ events, isMissingIdentity e = false) ∧
        ∀ aggregateId, Contiguous (toOrdered events) aggregateId := by
  unfold validateReplayStream
  split_ifs with hlength
  · have hnil : events = [] := length_eq_zero_iff.mp hlength
    simp [hnil, toOrdered, Contiguous, streamOf, Versions.contiguous_nil]
  · cases hfind : events.find? isMissingIdentity with
    | some ev =>
      have hmissing := find?_some hfind
      have hmem := mem_of_find?_eq_some hfind
      simp only [Bool.false_eq_true, false_iff]
      intro ⟨hall, _⟩
      rw [hall ev hmem] at hmissing
      cases hmissing
    | none =>
      have hall : ∀ e ∈ events, isMissingIdentity e = false := by
        simpa using find?_eq_none.mp hfind
      rw [← groups_iff]
      cases hproblem : (groupBy OrderedEvent.aggregateId
        (sortOrdered (toOrdered events))).entries.findSome?
          fun entry => streamProblem entry.1 1 entry.2 with
      | none => simpa [hproblem] using hall
      | some reason => simp [hproblem]

/-- A stored event as the event repository hands it out; `datetime` is the text of its time. -/
def eventOf (datetime : Nat → String) (row : EventRow) : OrchestrationEvent where
  id := row.eventId.text
  aggregateId := some row.aggregateId
  aggregateVersion := some row.aggregateVersion
  timestamp := datetime row.timestamp

theorem validate_run_iff {db : Database} {datetime : Nat → String} {rows : List EventRow}
    (hrows : rows.Perm (runEvents db runId)) :
    (validateReplayStream (rows.map (eventOf datetime))).ok = true ↔
      Versions.Contiguous (runVersions db runId) := by
  have hids : ∀ row ∈ rows, row.aggregateId = runId := by
    intro row hrow
    have hmem := hrows.subset hrow
    simpa using (mem_filter.mp hmem).2
  have hversions : (rows.map (·.aggregateVersion)).Perm (runVersions db runId) := hrows.map _
  have hself : (streamOf (toOrdered (rows.map (eventOf datetime))) runId).map
      (·.aggregateVersion) = rows.map (·.aggregateVersion) := by
    rw [streamOf, filter_eq_self.mpr]
    · simp [toOrdered, eventOf]
    · intro e he
      simp only [toOrdered, map_map, mem_map, Function.comp_apply] at he
      obtain ⟨row, hrow, rfl⟩ := he
      exact decide_eq_true (hids row hrow)
  have hother : ∀ aggregateId, aggregateId ≠ runId →
      streamOf (toOrdered (rows.map (eventOf datetime))) aggregateId = [] := by
    intro aggregateId hne
    rw [streamOf, filter_eq_nil_iff]
    intro e he
    simp only [toOrdered, map_map, mem_map, Function.comp_apply] at he
    obtain ⟨row, hrow, rfl⟩ := he
    have hid := hids row hrow
    simpa [eventOf, hid] using hne.symm
  rw [validateReplayStream_ok_iff]
  constructor
  · intro ⟨_, hall⟩
    have hrun := hall runId
    rw [Contiguous, hself] at hrun
    exact hrun.of_perm hversions.symm
  · intro hcontiguous
    refine ⟨?_, ?_⟩
    · intro e he
      obtain ⟨row, -, rfl⟩ := mem_map.mp he
      rfl
    · intro aggregateId
      by_cases hid : aggregateId = runId
      · rw [hid, Contiguous, hself]
        exact hcontiguous.of_perm hversions
      · rw [Contiguous, hother aggregateId hid]
        exact Versions.contiguous_nil

def NoGap (digests : Digests) (runId : String) (s : State) (a : Action) : Prop :=
  ∀ input now row just, a = .evaluateAndComplete input now → input.runId = runId →
    ReachesSwap digests s.db input now row just →
    row.aggregateVersion ≤ maxEventVersion s.db runId

theorem tick_noGap_iff {digests : Digests} {s : State} {a : Action} {tick : Tick}
    (hfilled : (counters s.db runId).Filled) (hticks : Ticks digests s a runId tick) :
    (tick = .complete → (counters s.db runId).version ≤ (counters s.db runId).latest) ↔
      NoGap digests runId s a := by
  constructor
  · intro h input now row just haction hid hreaches
    have hversion : (counters s.db runId).version = row.aggregateVersion := by
      rw [← hid]
      exact rowVersion_of_get? hreaches.found
    rw [hversion] at h
    by_cases hmem : row.aggregateVersion + 1 ∈ runVersions s.db runId
    · rw [← hversion] at hmem ⊢
      exact (hfilled.succ_mem_iff.mp hmem).le
    · exact h (hticks.complete_iff.mpr ⟨input, now, row, just, haction, hid, hreaches, hmem⟩)
  · intro h hcomplete
    obtain ⟨input, now, row, just, haction, hid, hreaches, -⟩ := hticks.complete_iff.mp hcomplete
    have hversion : (counters s.db runId).version = row.aggregateVersion := by
      rw [← hid]
      exact rowVersion_of_get? hreaches.found
    rw [hversion]
    exact h input now row just haction hid hreaches

theorem step_contiguous_iff {digests : Digests} {s t : State} {a : Action}
    (hcoherent : Coherent s.db) (hfilled : (counters s.db runId).Filled)
    (h : step digests s a = some t) :
    Versions.Contiguous (runVersions t.db runId) ↔
      Versions.Contiguous (runVersions s.db runId) ∧ NoGap digests runId s a := by
  obtain ⟨tick, hticks, hcounters⟩ := step_ticks hcoherent h runId
  have hfree : tick = .complete →
      (counters s.db runId).version + 1 ∉ (counters s.db runId).versions := by
    intro hcomplete
    obtain ⟨input, now, row, just, haction, hid, hreaches, hfree⟩ :=
      hticks.complete_iff.mp hcomplete
    have hversion : (counters s.db runId).version = row.aggregateVersion := by
      rw [← hid]
      exact rowVersion_of_get? hreaches.found
    rw [hversion]
    exact hfree
  have hafter : runVersions t.db runId = ((counters s.db runId).tick tick).versions :=
    congrArg Counters.versions hcounters
  rw [hafter, Counters.tick_contiguous_iff hfilled hfree, tick_noGap_iff hfilled hticks]
  rfl

/-- The stored stream of a run can be replayed exactly when no completion of the run met a row
ahead of its events. -/
theorem replay_valid_iff {digests : Digests} {surroundings : Surroundings} {as : List Action}
    {t : State} {runId : String} {rows : List EventRow} (datetime : Nat → String)
    (hr : Machine.run (step digests) (initial surroundings) as = some t)
    (hrows : rows.Perm (runEvents t.db runId)) :
    (validateReplayStream (rows.map (eventOf datetime))).ok = true ↔
      Along (step digests) (NoGap digests runId) (initial surroundings) as := by
  have hinvariant : ∀ u a v, (Coherent u.db ∧ (counters u.db runId).Filled) →
      step digests u a = some v → Coherent v.db ∧ (counters v.db runId).Filled := by
    intro u a v hu hv
    exact ⟨effect_coherent hu.1 (step_effect hv), step_filled hu.1 hv hu.2⟩
  have hstart := And.intro (initial_coherent surroundings) (initial_filled surroundings runId)
  have hiff := run_iff_along (I := fun u => Coherent u.db ∧ (counters u.db runId).Filled)
    (A := fun u => Versions.Contiguous (runVersions u.db runId)) hinvariant
    (fun u a v hu hv => step_contiguous_iff hu.1 hu.2 hv) hstart hr
  rw [validate_run_iff hrows, hiff]
  constructor
  · intro h
    exact h.2
  · intro h
    exact ⟨Versions.contiguous_nil, h⟩

def exampleDatetime (now : Nat) : String := "1970-01-01 00:00:0" ++ toString now

theorem replay_valid_example : ∃ t,
    Machine.run (step exampleDigests) (initial exampleSurroundings)
      (verifyingExample ++ progressUpdate 1 "e-1" "o-1" ++ progressUpdate 2 "e-2" "o-2" ++
        [exampleCompletion]) = some t ∧
    (validateReplayStream ((runEvents t.db "run-1").map (eventOf exampleDatetime))).ok = true ∧
    Along (step exampleDigests) (NoGap exampleDigests "run-1") (initial exampleSurroundings)
      (verifyingExample ++ progressUpdate 1 "e-1" "o-1" ++ progressUpdate 2 "e-2" "o-2" ++
        [exampleCompletion]) := by
  refine ⟨_, rfl, rfl, ?_⟩
  exact (replay_valid_iff exampleDatetime rfl (Perm.refl _)).mp rfl

/-- A run that swaps twice and completes without an update leaves a gap before its last event. -/
theorem completion_leaves_gap : ∃ t,
    Machine.run (step exampleDigests) (initial exampleSurroundings)
      (verifyingExample ++ [exampleCompletion]) = some t ∧
    validateReplayStream ((runEvents t.db "run-1").map (eventOf exampleDatetime)) = {
      ok := false
      eventCount := 2
      reason := some ("REPLAY_STREAM_INVALID: gap in aggregate run-1 at version 4 (expected 2). " ++
        "Deterministic replay requires contiguous versions starting at 1.") } := by
  refine ⟨_, rfl, ?_⟩
  rfl

end Replay
