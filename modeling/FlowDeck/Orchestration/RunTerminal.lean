import FlowDeck.Orchestration.RunSteps

namespace RunTerminal

open Orchestration RunStore Snapshot TransitionEngine CompletionPolicy RunService RunEffects Option
open CompletionEffects RunSteps Machine

def Terminal (db : Database) (id : String) : Prop :=
  ∃ row, db.taskRuns.get? id = some row ∧ isTerminalPhase row.state = true

def RowKept (db db' : Database) : Prop :=
  ∀ id row, db.taskRuns.get? id = some row → isTerminalPhase row.state = true →
    db'.taskRuns.get? id = some row

/-- A write of the status of a run that is already terminal fails, by whichever writer. -/
def LateWriteFails (digests : Digests) (s : State) : Action → Prop
  | .resume h draws =>
    match s.calls h with
    | .updating id input _ =>
      input.status.isSome = true → Terminal s.db id →
        ∀ t, step digests s (.resume h draws) = some t → ∃ failure, t.calls h = .thrown failure
    | .swapping input _ conflict =>
      Terminal s.db input.runId →
        ∀ t, step digests s (.resume h draws) = some t → t.calls h = .evaluated conflict
    | _ => True
  | .transitionPhase input =>
    Terminal s.db input.runId → (TransitionEngine.transitionPhase s.db input false).2 = false
  | .evaluateAndComplete input now =>
    Terminal s.db input.runId → ∀ result,
      (CompletionPolicy.evaluateAndComplete digests s.db input now).2 = .ok result →
        result.status ≠ .completed
  | _ => True

/-- The step resumes an update with a status, past its guard, of a run that has since ended. -/
def Overwrites (s : State) (a : Action) : Prop :=
  ∃ h draws id input existing read state draft,
    a = .resume h draws ∧ s.calls h = .updating id input existing ∧
      UpdateReady s.db id input existing draws.ids read (some state) draft ∧ Terminal s.db id

theorem RowKept.refl (db : Database) : RowKept db db := fun _ _ hrow _ => hrow

theorem RowKept.trans {a b c : Database} (hab : RowKept a b) (hbc : RowKept b c) : RowKept a c := by
  intro id row hrow hterminal
  exact hbc id row (hab id row hrow hterminal) hterminal

theorem not_terminal_of_matches {input : TransitionPhaseInput} {authority : Bool}
    {row : TaskRunRow} (hmay : mayTransition input authority = true)
    (hmatches : input.cas.matches row = true) : isTerminalPhase row.state = false := by
  have hstate := (matches_iff.mp hmatches).2.1
  have hexpected := (mayTransition_phases hmay).1
  rw [hstate]
  exact hexpected

variable {digests : Digests} {s : State} {a : Action}

theorem step_updating {digests : Digests} {s : State} {h : Nat} {draws : Draws} {id : String}
    {input : UpdateRunInput} {existing : Option Run}
    (hcall : s.calls h = .updating id input existing) :
    step digests s (.resume h draws) =
      some { (s.setCall h (settle s.db (writeUpdate s.db id input existing draws)).2) with
        db := (settle s.db (writeUpdate s.db id input existing draws)).1 } := by
  simp only [step, openCall, resume, hcall, map_some]

theorem overwritten {t : State} (h : step digests s a = some t) (hover : Overwrites s a) :
    ¬RowKept s.db t.db := by
  intro hkept
  obtain ⟨n, draws, id, input, existing, read, state, draft, rfl, hcall, hready, row, hrow,
    hterminal⟩ := hover
  obtain ⟨run, hwrite⟩ := writeUpdate_of_ready hready
  rw [step_updating hcall, hwrite] at h
  have hdb : t.db = updated s.db id (some state) draft draws.ids draws.now := by
    rw [← some.inj h]
    rfl
  have hafter := hkept id row hrow hterminal
  have hid : row.runId = id := Table.key_of_get? hrow
  rw [hdb, updated_get?, hrow, map_some, if_pos hid] at hafter
  have hversion := congrArg TaskRunRow.aggregateVersion (some.inj hafter)
  simp [setState] at hversion

theorem effect_rowKept {db' : Database} (heffect : Effect digests s a db') (hover : ¬Overwrites s a) :
    RowKept s.db db' := by
  intro id row hrow hterminal
  cases heffect with
  | kept quiet => exact hrow
  | surroundings surroundings quiet => exact hrow
  | created input correlationId draws db' quiet created =>
    exact Table.get?_insert?_of_some created.inserted hrow
  | updated h draws target input existing read state draft action call wrote ready =>
    rw [updated_get?, hrow, map_some]
    cases state with
    | none => simp
    | some state =>
      by_cases hid : row.runId = target
      · have htarget : target = id := hid.symm.trans (Table.key_of_get? hrow)
        have hended : Terminal s.db target := by
          rw [htarget]
          exact ⟨row, hrow, hterminal⟩
        exact absurd ⟨h, draws, target, input, existing, read, state, draft, action, call, ready,
          hended⟩ hover
      · rw [if_neg hid]
  | swapped input found wrote may hfound matched =>
    rw [transitionPhase_get?, hrow, map_some]
    have hmatches : input.cas.matches row = false := by
      refine Bool.eq_false_iff.mpr ?_
      intro htrue
      have hlive := not_terminal_of_matches may htrue
      rw [hterminal] at hlive
      cases hlive
    rw [hmatches, Bool.and_false]
    rfl
  | completed input now found just result db' action quiet reaches answer status committed =>
    rw [committed.taskRuns, hrow, map_some]
    have hne : row.runId ≠ just.snapshot.runId := by
      intro heq
      have hid : row.runId = id := Table.key_of_get? hrow
      obtain ⟨verifying, hverifying, hstate, -⟩ := committed.found
      rw [← heq, hid, hrow] at hverifying
      obtain rfl := some.inj hverifying
      rw [hstate] at hterminal
      cases hterminal
    rw [completedRow, if_neg hne]

theorem not_swapped_of_terminal {db : Database} {input : TransitionPhaseInput}
    (hterminal : Terminal db input.runId) : (transitionPhase db input false).2 = false := by
  refine Bool.eq_false_iff.mpr ?_
  intro hswapped
  obtain ⟨hmay, row, hrow, hmatches⟩ := (transitionPhase_swapped_iff _ _ _).mp hswapped
  obtain ⟨ended, hended, hstate⟩ := hterminal
  rw [hrow] at hended
  obtain rfl := some.inj hended
  have hlive := not_terminal_of_matches hmay hmatches
  rw [hstate] at hlive
  cases hlive

theorem lateUpdate_fails {t : State} {h : Nat} {draws : Draws} {id : String}
    {input : UpdateRunInput} {existing : Option Run} (hover : ¬Overwrites s (.resume h draws))
    (hcall : s.calls h = .updating id input existing) (hstatus : input.status.isSome = true)
    (hterminal : Terminal s.db id) (hstep : step digests s (.resume h draws) = some t) :
    ∃ failure, t.calls h = .thrown failure := by
  rw [step_updating hcall] at hstep
  cases hwrite : writeUpdate s.db id input existing draws with
  | error failure =>
    rw [hwrite] at hstep
    refine ⟨failure, ?_⟩
    rw [← some.inj hstep]
    simp [State.setCall, settle]
  | ok result =>
    obtain ⟨db', run⟩ := result
    obtain ⟨read, state, draft, hready, -⟩ := writeUpdate_eq_ok hwrite
    cases state with
    | some state =>
      exact absurd ⟨h, draws, id, input, existing, read, state, draft, rfl, hcall, hready,
        hterminal⟩ hover
    | none =>
      have hwrites := hready.writes
      rw [isSome_iff_exists] at hstatus
      obtain ⟨status, hstatus⟩ := hstatus
      rw [hstatus] at hwrites
      cases hwrites

theorem step_lateWriteFails (hover : ¬Overwrites s a) : LateWriteFails digests s a := by
  cases a with
  | resume h draws =>
    cases hcall : s.calls h with
    | updating id input existing =>
      simp only [LateWriteFails, hcall]
      intro hstatus hterminal t hstep
      exact lateUpdate_fails hover hcall hstatus hterminal hstep
    | swapping input swapped conflict =>
      simp only [LateWriteFails, hcall]
      intro hterminal t hstep
      simp only [step, openCall, resume, hcall, map_some,
        not_swapped_of_terminal hterminal] at hstep
      rw [← some.inj hstep]
      simp [State.setCall]
    | _ => simp [LateWriteFails, hcall]
  | transitionPhase input => exact not_swapped_of_terminal
  | evaluateAndComplete input now =>
    intro hterminal result hresult
    unfold evaluateAndComplete at hresult
    cases htransaction : evaluateInTransaction digests s.db input now with
    | error failure =>
      rw [htransaction] at hresult
      cases hresult
    | ok pair =>
      obtain ⟨db', result'⟩ := pair
      rw [htransaction] at hresult
      obtain rfl := Except.ok.inj hresult
      rcases evaluateInTransaction_eq_ok htransaction with ⟨-, hstatus⟩ |
        ⟨row, just, hreaches, -⟩
      · exact hstatus
      · obtain ⟨ended, hended, hstate⟩ := hterminal
        rw [hreaches.found] at hended
        obtain rfl := some.inj hended
        rw [hreaches.verifying] at hstate
        cases hstate
  | _ => trivial

theorem rowKept_iff (s : State) (a : Action) :
    (∀ t, step digests s a = some t → RowKept s.db t.db) ↔ ¬Overwrites s a := by
  constructor
  · intro hkept hover
    obtain ⟨n, draws, id, input, existing, read, state, draft, rfl, hcall, hready⟩ := hover
    have hstep := @step_updating digests s n draws _ _ _ hcall
    apply overwritten hstep ⟨n, draws, id, input, existing, read, state, draft, rfl, hcall, hready⟩
    exact hkept _ hstep
  · intro hover t hstep
    exact effect_rowKept (step_effect hstep) hover

/-- Terminal rows are immutable along a run, and late writes fail, exactly when no step of it
overwrites one. -/
theorem terminal_row_kept_iff (digests : Digests) (s : State) (as : List Action) :
    (Throughout (step digests) (fun u v => RowKept u.db v.db) s as ∧
      Along (step digests) (LateWriteFails digests) s as) ↔
    Along (step digests) (fun u a => ¬Overwrites u a) s as := by
  have hrefl : ∀ u : State, RowKept u.db u.db := fun u => RowKept.refl u.db
  have htrans : ∀ u v w : State, RowKept u.db v.db → RowKept v.db w.db → RowKept u.db w.db :=
    fun _ _ _ => RowKept.trans
  have hkept : Along (step digests) (fun u a => ∀ v, step digests u a = some v →
      RowKept u.db v.db) s as ↔ Along (step digests) (fun u a => ¬Overwrites u a) s as :=
    Along.congr (I := fun _ => True) (fun _ _ _ _ _ => trivial) (fun u a _ => rowKept_iff u a)
      trivial
  rw [throughout_iff_along hrefl htrans, hkept]
  constructor
  · intro h
    exact h.1
  · intro h
    refine ⟨h, ?_⟩
    exact Along.imp (I := fun _ => True) (fun _ _ _ _ _ _ => trivial)
      (fun _ _ _ hover => step_lateWriteFails hover) trivial h

/-- Two updates read the run while it is pending; it fails through the one and runs again through
the other. -/
theorem stale_update_reopens_failed : ∃ u v read row run,
    Machine.run (step exampleDigests) (initial exampleSurroundings)
      (createExample ++ [.updateRun 1 "run-1" (exampleUpdate (some .failed)),
        .updateRun 2 "run-1" (exampleUpdate (some .running)),
        .resume 1 { ids := { eventId := "e-1", outboxId := "o-1" }, now := 2 }]) = some u ∧
    step exampleDigests u
      (.resume 2 { ids := { eventId := "e-2", outboxId := "o-2" }, now := 3 }) = some v ∧
    u.calls 2 = .updating "run-1" (exampleUpdate (some .running)) (some read) ∧
    isTerminalRunStatus read.status = false ∧
    u.db.taskRuns.get? "run-1" = some row ∧ row.state = .failed ∧
    v.calls 2 = .returned run ∧
    v.db.taskRuns.get? "run-1" =
      some { row with state := .executing, aggregateVersion := row.aggregateVersion + 1 } :=
  ⟨_, _, _, _, _, rfl, rfl, rfl, rfl, rfl, rfl, rfl, rfl⟩

end RunTerminal
