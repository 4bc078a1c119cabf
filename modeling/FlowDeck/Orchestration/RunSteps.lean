import FlowDeck.Orchestration.CompletionEffects

namespace RunSteps

open Orchestration RunStore Snapshot TransitionEngine CompletionPolicy RunService RunEffects Option
open CompletionEffects Machine

/-- The commits that move a version counter of an existing run. -/
inductive Write
  | update (id : String) (hasStatus : Bool)
  | swap (id : String)
  deriving DecidableEq

def swapOf (db : Database) (input : TransitionPhaseInput) : Option Write :=
  if (transitionPhase db input false).2 then some (.swap input.runId) else none

def updateOf (db : Database) (id : String) (input : UpdateRunInput) (existing : Option Run)
    (draws : Draws) : Option Write :=
  match writeUpdate db id input existing draws with
  | .ok _ => some (.update id input.status.isSome)
  | .error _ => none

def writeOf (s : State) : Action → Option Write
  | .resume h draws =>
    match s.calls h with
    | .updating id input existing => updateOf s.db id input existing draws
    | .swapping input _ _ => swapOf s.db input
    | _ => none
  | .transitionPhase input => swapOf s.db input
  | _ => none

/-- What a step does to the database: one constructor for each kind of write. -/
inductive Effect (digests : Digests) (s : State) (a : Action) : Database → Prop
  | kept (quiet : writeOf s a = none) : Effect digests s a s.db
  | surroundings (surroundings : Surroundings) (quiet : writeOf s a = none) :
    Effect digests s a { s.db with surroundings }
  | created (input : CreateRunInput) (correlationId : String) (draws : Draws) (db' : Database)
    (quiet : writeOf s a = none)
    (created : Created s.db db' (runRow input draws.runId draws.now)
      (queuedEvent input correlationId draws.runId draws.ids draws.now)
      (outboxEntry (queuedEvent input correlationId draws.runId draws.ids draws.now)
        draws.ids.outboxId)) :
    Effect digests s a db'
  | updated (h : Nat) (draws : Draws) (id : String) (input : UpdateRunInput)
    (existing : Option Run) (read : Run) (state : Option OrchestrationPhase) (draft : EventDraft)
    (action : a = .resume h draws) (call : s.calls h = .updating id input existing)
    (wrote : writeOf s a = some (.update id input.status.isSome))
    (ready : UpdateReady s.db id input existing draws.ids read state draft) :
    Effect digests s a (updated s.db id state draft draws.ids draws.now)
  | swapped (input : TransitionPhaseInput) (row : TaskRunRow)
    (wrote : writeOf s a = some (.swap input.runId)) (may : mayTransition input false = true)
    (found : s.db.taskRuns.get? input.runId = some row) (matched : input.cas.matches row = true) :
    Effect digests s a (transitionPhase s.db input false).1
  | completed (input : EvaluateCompletionPolicyInput) (now : Nat) (row : TaskRunRow)
    (just : Justification) (result : CompletionPolicyResult) (db' : Database)
    (action : a = .evaluateAndComplete input now) (quiet : writeOf s a = none)
    (reaches : ReachesSwap digests s.db input now row just)
    (answer : evaluateInTransaction digests s.db input now = .ok (db', result))
    (status : result.status = .completed)
    (committed : Committed digests s.db db' just input.sessionId now) :
    Effect digests s a db'

theorem transitionPhase_of_not_swapped {db : Database} {input : TransitionPhaseInput}
    {authority : Bool} (h : (transitionPhase db input authority).2 = false) :
    (transitionPhase db input authority).1 = db := by
  unfold transitionPhase at h ⊢
  split_ifs at h ⊢ with hmay
  · have hnone : ∀ row ∈ db.taskRuns.rows, input.cas.matches row = false := by
      intro row hrow
      have hzero : ¬0 < db.taskRuns.changes fun row => input.cas.matches row :=
        of_decide_eq_false h
      rw [Table.changes_pos_iff] at hzero
      exact Bool.eq_false_iff.mpr fun htrue => hzero ⟨row, hrow, htrue⟩
    simp only [transitionPhaseCas]
    rw [Table.update_eq_self hnone]
  · rfl

variable {digests : Digests} {s : State} {a : Action} {h : Nat} {draws : Draws}

theorem swap_effect {input : TransitionPhaseInput} (hwrite : writeOf s a = swapOf s.db input) :
    Effect digests s a (transitionPhase s.db input false).1 := by
  unfold swapOf at hwrite
  cases hswapped : (transitionPhase s.db input false).2 with
  | false =>
    rw [transitionPhase_of_not_swapped hswapped]
    rw [hswapped] at hwrite
    exact Effect.kept hwrite
  | true =>
    rw [hswapped] at hwrite
    obtain ⟨hmay, row, hrow, hmatches⟩ := (transitionPhase_swapped_iff _ _ _).mp hswapped
    exact Effect.swapped input row hwrite hmay hrow hmatches

theorem update_effect {digests : Digests} {s : State} {h : Nat} {draws : Draws} {id : String}
    {input : UpdateRunInput} {existing : Option Run}
    (hcall : s.calls h = .updating id input existing) :
    Effect digests s (.resume h draws)
      (settle s.db (writeUpdate s.db id input existing draws)).1 := by
  have hwrite : writeOf s (.resume h draws) = updateOf s.db id input existing draws := by
    simp only [writeOf, hcall]
  unfold updateOf at hwrite
  cases hresult : writeUpdate s.db id input existing draws with
  | error failure =>
    rw [hresult] at hwrite
    exact Effect.kept hwrite
  | ok result =>
    obtain ⟨db', run⟩ := result
    rw [hresult] at hwrite
    obtain ⟨read, state, draft, hready, rfl⟩ := writeUpdate_eq_ok hresult
    exact Effect.updated h draws id input existing read state draft rfl hcall hwrite hready

theorem create_effect {input : CreateRunInput} {correlationId : String}
    (hcall : s.calls h = .creating input correlationId none) {db' : Database} {call : Call}
    (hresume : resume s.db (.creating input correlationId none) draws = some (db', call)) :
    Effect digests s (.resume h draws) db' := by
  have hwrite : writeOf s (.resume h draws) = none := by
    simp only [writeOf, hcall]
  simp only [resume] at hresume
  split at hresume
  · rename_i hok
    obtain ⟨hdb, -⟩ := Prod.mk.inj (some.inj hresume)
    rw [← hdb]
    exact Effect.created input correlationId draws _ hwrite (createRun_eq_ok hok)
  · obtain ⟨hdb, -⟩ := Prod.mk.inj (some.inj hresume)
    rw [← hdb]
    exact Effect.kept hwrite

/-- Resuming a call that neither creates, updates nor swaps leaves the database alone. -/
theorem resume_effect {db' : Database} {call : Call}
    (hresume : resume s.db (s.calls h) draws = some (db', call)) :
    Effect digests s (.resume h draws) db' := by
  have hkept : writeOf s (.resume h draws) = none → db' = s.db →
      Effect digests s (.resume h draws) db' := by
    intro hwrite hdb
    rw [hdb]
    exact Effect.kept hwrite
  cases hcall : s.calls h with
  | creating input correlationId existing =>
    rw [hcall] at hresume
    cases existing with
    | none => exact create_effect hcall hresume
    | some run =>
      obtain ⟨hdb, -⟩ := Prod.mk.inj (some.inj hresume)
      exact hkept (by simp only [writeOf, hcall]) hdb.symm
  | updating id input existing =>
    rw [hcall] at hresume
    obtain hdb := (Prod.mk.inj (some.inj hresume)).1
    have heffect := @update_effect digests s h draws _ _ _ hcall
    rwa [← hdb]
  | swapping input swapped conflict =>
    rw [hcall] at hresume
    obtain ⟨hdb, -⟩ := Prod.mk.inj (some.inj hresume)
    rw [← hdb]
    exact swap_effect (by simp only [writeOf, hcall])
  | rereading correlationId failure =>
    rw [hcall] at hresume
    apply hkept (by simp only [writeOf, hcall])
    simp only [resume] at hresume
    split at hresume <;> exact ((Prod.mk.inj (some.inj hresume)).1).symm
  | cancelling id reason existing =>
    rw [hcall] at hresume
    apply hkept (by simp only [writeOf, hcall])
    cases existing with
    | none => exact ((Prod.mk.inj (some.inj hresume)).1).symm
    | some run =>
      simp only [resume] at hresume
      split at hresume <;> exact ((Prod.mk.inj (some.inj hresume)).1).symm
  | rechecking id reason =>
    rw [hcall] at hresume
    obtain ⟨hdb, -⟩ := Prod.mk.inj (some.inj hresume)
    exact hkept (by simp only [writeOf, hcall]) hdb.symm
  | rechecked id reason latest =>
    rw [hcall] at hresume
    apply hkept (by simp only [writeOf, hcall])
    simp only [resume] at hresume
    split at hresume <;> exact ((Prod.mk.inj (some.inj hresume)).1).symm
  | _ =>
    rw [hcall] at hresume
    cases hresume

theorem evaluate_effect (input : EvaluateCompletionPolicyInput) (now : Nat) :
    Effect digests s (.evaluateAndComplete input now)
      (evaluateAndComplete digests s.db input now).1 := by
  have hwrite : writeOf s (.evaluateAndComplete input now) = none := rfl
  unfold evaluateAndComplete
  cases hresult : evaluateInTransaction digests s.db input now with
  | error failure => exact Effect.kept hwrite
  | ok result =>
    obtain ⟨db', result⟩ := result
    rcases evaluateInTransaction_eq_ok hresult with ⟨hdb, -⟩ | ⟨row, just, hreaches, hstatus, hdb⟩
    · simp only
      rw [hdb]
      exact Effect.kept hwrite
    · exact Effect.completed input now row just result db' rfl hwrite hreaches hresult hstatus hdb

theorem writeOf_of_openCall {opened : Nat × Call} (h : openCall digests s.db a = some opened) :
    writeOf s a = none := by
  cases a with
  | resume h draws => cases h
  | transitionPhase input => cases h
  | _ => rfl

theorem step_effect {t : State} (h : step digests s a = some t) : Effect digests s a t.db := by
  unfold step at h
  cases hopen : openCall digests s.db a with
  | some opened =>
    rw [hopen] at h
    simp only at h
    split at h
    · rw [← some.inj h]
      exact Effect.kept (writeOf_of_openCall hopen)
    · cases h
  | none =>
    rw [hopen] at h
    cases a with
    | resume h' draws =>
      obtain ⟨⟨db', call⟩, hresume, rfl⟩ := map_eq_some_iff.mp h
      exact resume_effect hresume
    | abandon h' failure =>
      obtain ⟨result, -, rfl⟩ := map_eq_some_iff.mp h
      exact Effect.kept rfl
    | transitionPhase input =>
      rw [← some.inj h]
      exact swap_effect rfl
    | evaluateAndComplete input now =>
      rw [← some.inj h]
      exact evaluate_effect input now
    | surroundings surroundings =>
      rw [← some.inj h]
      exact Effect.surroundings surroundings rfl
    | _ => cases h

end RunSteps
