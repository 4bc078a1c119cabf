import FlowDeck.Orchestration.RunService

namespace RunEffects

open Orchestration RunStore TransitionEngine CompletionPolicy RunService Machine

/-- The random ids are in use nowhere. -/
def FreshFor (db : Database) (ids : FreshIds) : Prop :=
  (∀ event ∈ db.events, event.eventId ≠ .uuid ids.eventId) ∧
    ∀ entry ∈ db.outbox, entry.id ≠ .uuid ids.outboxId ∧
      entry.idempotencyKey ≠ .entry (.uuid ids.outboxId)

def withEvent (db : Database) (event : EventRow) (entry : OutboxRow) : Database :=
  { db with events := db.events ++ [event], outbox := db.outbox ++ [entry] }

variable {db db' : Database} {event : EventRow} {id : String} {draft : EventDraft} {ids : FreshIds}
  {now : Nat} {status : Option RunStatus} {state : Option OrchestrationPhase} {read run : Run}
  {input : UpdateRunInput}

theorem le_maxEventVersion (h : event ∈ db.events) :
    event.aggregateVersion ≤ maxEventVersion db event.aggregateId := by
  have hmem : event ∈ runEvents db event.aggregateId := by
    simp [runEvents, h]
  exact Versions.le_latest (List.mem_map_of_mem hmem)

theorem insertEvent?_eq_some :
    insertEvent? db event = some db' ↔
      (∀ row ∈ db.events, conflicts event row = false) ∧
        db' = { db with events := db.events ++ [event] } := by
  unfold insertEvent?
  by_cases h : db.events.any (conflicts event) = true
  · rw [if_pos h]
    obtain ⟨row, hrow, hconflict⟩ := List.any_eq_true.mp h
    constructor
    · intro hnone
      cases hnone
    · intro ⟨hfree, _⟩
      rw [hfree row hrow] at hconflict
      cases hconflict
  · rw [if_neg h]
    have hfree : ∀ row ∈ db.events, conflicts event row = false := by
      intro row hrow
      exact Bool.eq_false_iff.mpr fun hconflict => h (List.any_eq_true.mpr ⟨row, hrow, hconflict⟩)
    constructor
    · intro hsome
      exact ⟨hfree, (Option.some.inj hsome).symm⟩
    · intro ⟨_, hdb⟩
      rw [hdb]

theorem insertOutbox?_eq_some {entry : OutboxRow} :
    insertOutbox? db entry = some db' ↔
      (∀ row ∈ db.outbox, outboxConflicts entry row = false) ∧ referencesEvent db entry = true ∧
        db' = { db with outbox := db.outbox ++ [entry] } := by
  unfold insertOutbox?
  by_cases h : db.outbox.any (outboxConflicts entry) = true
  · rw [if_pos h]
    obtain ⟨row, hrow, hconflict⟩ := List.any_eq_true.mp h
    constructor
    · intro hnone
      cases hnone
    · intro ⟨hfree, _⟩
      rw [hfree row hrow] at hconflict
      cases hconflict
  · rw [if_neg h]
    have hfree : ∀ row ∈ db.outbox, outboxConflicts entry row = false := by
      intro row hrow
      exact Bool.eq_false_iff.mpr fun hconflict => h (List.any_eq_true.mpr ⟨row, hrow, hconflict⟩)
    by_cases href : referencesEvent db entry = true
    · rw [if_pos href]
      constructor
      · intro hsome
        exact ⟨hfree, href, (Option.some.inj hsome).symm⟩
      · intro ⟨_, _, hdb⟩
        rw [hdb]
    · rw [if_neg href]
      constructor
      · intro hnone
        cases hnone
      · intro ⟨_, htrue, _⟩
        exact absurd htrue href

theorem insertEventAndOutbox_eq_ok {outboxId : String} :
    insertEventAndOutbox db event outboxId = .ok db' ↔
      (∀ row ∈ db.events, conflicts event row = false) ∧
        (∀ row ∈ db.outbox, outboxConflicts (outboxEntry event outboxId) row = false) ∧
        db' = withEvent db event (outboxEntry event outboxId) := by
  have href : referencesEvent { db with events := db.events ++ [event] }
      (outboxEntry event outboxId) = true := by
    simp [referencesEvent, outboxEntry]
  unfold insertEventAndOutbox
  cases hevent : insertEvent? db event with
  | none =>
    constructor
    · intro herror
      cases herror
    · intro ⟨hfree, _⟩
      have hsome := insertEvent?_eq_some.mpr ⟨hfree, rfl⟩
      rw [hevent] at hsome
      cases hsome
  | some db₁ =>
    obtain ⟨hfree, rfl⟩ := insertEvent?_eq_some.mp hevent
    cases houtbox : insertOutbox? { db with events := db.events ++ [event] }
        (outboxEntry event outboxId) with
    | none =>
      simp only [houtbox]
      constructor
      · intro herror
        cases herror
      · intro ⟨_, hentries, _⟩
        have hsome : insertOutbox? { db with events := db.events ++ [event] }
            (outboxEntry event outboxId) = some _ :=
          insertOutbox?_eq_some.mpr ⟨hentries, href, rfl⟩
        rw [houtbox] at hsome
        cases hsome
    | some db₂ =>
      obtain ⟨hentries, -, rfl⟩ := insertOutbox?_eq_some.mp houtbox
      simp only [houtbox]
      constructor
      · intro hok
        exact ⟨hfree, hentries, (Except.ok.inj hok).symm⟩
      · intro ⟨_, _, hdb⟩
        rw [hdb]
        rfl

theorem conflicts_eq_false {row : EventRow} :
    conflicts event row = false ↔ row.eventId ≠ event.eventId ∧
      (row.aggregateId = event.aggregateId → row.aggregateVersion ≠ event.aggregateVersion) := by
  simp [conflicts]

theorem draftedEvent_free :
    (∀ row ∈ db.events, conflicts (draftedEvent db id draft ids now) row = false) ↔
      ∀ row ∈ db.events, row.eventId ≠ .uuid ids.eventId := by
  constructor
  · intro h row hrow
    exact (conflicts_eq_false.mp (h row hrow)).1
  · intro h row hrow
    refine conflicts_eq_false.mpr ⟨h row hrow, ?_⟩
    intro haggregate hversion
    have hle := le_maxEventVersion hrow
    rw [haggregate, hversion] at hle
    simp only [draftedEvent] at hle
    omega

theorem outboxConflicts_eq_false {entry row : OutboxRow} :
    outboxConflicts entry row = false ↔
      row.id ≠ entry.id ∧ row.idempotencyKey ≠ entry.idempotencyKey := by
  simp [outboxConflicts]

theorem outboxEntry_free {outboxId : String} :
    (∀ row ∈ db.outbox, outboxConflicts (outboxEntry event outboxId) row = false) ↔
      ∀ row ∈ db.outbox, row.id ≠ .uuid outboxId ∧
        row.idempotencyKey ≠ .entry (.uuid outboxId) := by
  constructor
  · intro h row hrow
    exact outboxConflicts_eq_false.mp (h row hrow)
  · intro h row hrow
    exact outboxConflicts_eq_false.mpr (h row hrow)

/-- The database after a status write, or the same one without a status. -/
def statusWritten (db : Database) (id : String) (state : Option OrchestrationPhase) : Database :=
  match state with
  | some state => updateState db id state
  | none => db

@[simp] theorem statusWritten_events (db : Database) (id : String)
    (state : Option OrchestrationPhase) : (statusWritten db id state).events = db.events := by
  cases state <;> rfl

@[simp] theorem statusWritten_outbox (db : Database) (id : String)
    (state : Option OrchestrationPhase) : (statusWritten db id state).outbox = db.outbox := by
  cases state <;> rfl

@[simp] theorem statusWritten_reviews (db : Database) (id : String)
    (state : Option OrchestrationPhase) : (statusWritten db id state).reviews = db.reviews := by
  cases state <;> rfl

theorem statusWritten_get? (db : Database) (id runId : String) (state : Option OrchestrationPhase) :
    (statusWritten db id state).taskRuns.get? runId =
      (db.taskRuns.get? runId).map fun row =>
        if row.runId = id then (state.map fun state => setState state row).getD row else row := by
  cases state with
  | none => simp [statusWritten]
  | some state =>
    simp only [statusWritten, updateState]
    rw [Table.get?_update]
    congr 1
    funext row
    by_cases h : row.runId = id <;> simp [Table.setWhere, h]

/-- The phase an update writes, where it is one it may write. -/
inductive Writes : Option RunStatus → Option OrchestrationPhase → Prop
  | progress : Writes none none
  | running : Writes (some .running) (some .executing)
  | failed : Writes (some .failed) (some .failed)
  | cancelled : Writes (some .cancelled) (some .cancelled)

theorem Writes.not_completed {state : OrchestrationPhase} (h : Writes status (some state)) :
    state ≠ .completed := by
  cases h <;> decide

theorem Writes.isSome (h : Writes status state) : status.isSome = state.isSome := by
  cases h <;> rfl

/-- An update that may commit: its guard passes on the run it read, its status is one it may write,
the run is there, and its random ids are fresh. -/
structure UpdateReady (db : Database) (id : String) (input : UpdateRunInput)
    (existing : Option Run) (ids : FreshIds) (read : Run) (state : Option OrchestrationPhase)
    (draft : EventDraft) : Prop where
  existing_eq : existing = some read
  guard : input.status.isSome = true → isTerminalRunStatus read.status = false
  writes : Writes input.status state
  draft_eq : draftEvent read input = .ok draft
  fresh : FreshFor db ids
  found : ∃ row, db.taskRuns.get? id = some row

def updated (db : Database) (id : String) (state : Option OrchestrationPhase) (draft : EventDraft)
    (ids : FreshIds) (now : Nat) : Database :=
  withEvent (statusWritten db id state) (draftedEvent db id draft ids now)
    (outboxEntry (draftedEvent db id draft ids now) ids.outboxId)

theorem updated_get? (db : Database) (id : String) (state : Option OrchestrationPhase)
    (draft : EventDraft) (ids : FreshIds) (now : Nat) (runId : String) :
    (updated db id state draft ids now).taskRuns.get? runId =
      (db.taskRuns.get? runId).map fun row =>
        if row.runId = id then (state.map fun state => setState state row).getD row else row :=
  statusWritten_get? db id runId state

@[simp] theorem updated_events (db : Database) (id : String) (state : Option OrchestrationPhase)
    (draft : EventDraft) (ids : FreshIds) (now : Nat) :
    (updated db id state draft ids now).events =
      db.events ++ [draftedEvent db id draft ids now] := by
  simp [updated, withEvent]

@[simp] theorem updated_outbox (db : Database) (id : String) (state : Option OrchestrationPhase)
    (draft : EventDraft) (ids : FreshIds) (now : Nat) :
    (updated db id state draft ids now).outbox =
      db.outbox ++ [outboxEntry (draftedEvent db id draft ids now) ids.outboxId] := by
  simp [updated, withEvent]

@[simp] theorem updated_reviews (db : Database) (id : String) (state : Option OrchestrationPhase)
    (draft : EventDraft) (ids : FreshIds) (now : Nat) :
    (updated db id state draft ids now).reviews = db.reviews := by
  simp [updated, withEvent]

theorem applyStatus_eq_ok (hdraft : draftEvent read input = .ok draft)
    (h : applyStatus db id input.status = .ok db') :
    ∃ state, Writes input.status state ∧ db' = statusWritten db id state := by
  unfold draftEvent at hdraft
  cases hstatus : input.status with
  | none =>
    rw [hstatus] at h
    exact ⟨none, Writes.progress, (Except.ok.inj h).symm⟩
  | some status =>
    rw [hstatus] at h hdraft
    cases status with
    | running => exact ⟨some .executing, Writes.running, (Except.ok.inj h).symm⟩
    | failed => exact ⟨some .failed, Writes.failed, (Except.ok.inj h).symm⟩
    | cancelled => exact ⟨some .cancelled, Writes.cancelled, (Except.ok.inj h).symm⟩
    | queued => cases hdraft
    | pending => cases hdraft
    | _ => cases h

theorem applyStatus_of_writes (h : Writes status state) :
    applyStatus db id status = .ok (statusWritten db id state) := by
  cases h <;> rfl

theorem draftedEvent_statusWritten (db : Database) (id : String)
    (state : Option OrchestrationPhase) (draft : EventDraft) (ids : FreshIds) (now : Nat) :
    draftedEvent (statusWritten db id state) id draft ids now = draftedEvent db id draft ids now := by
  simp [draftedEvent, maxEventVersion, runEvents]

theorem updateRunState_eq_ok (hdraft : draftEvent read input = .ok draft)
    (h : updateRunState db id input draft ids now = .ok (db', run)) :
    ∃ state, Writes input.status state ∧ FreshFor db ids ∧
      (∃ row, db.taskRuns.get? id = some row) ∧ db' = updated db id state draft ids now := by
  simp only [updateRunState, bind, Except.bind, pure, Except.pure, throw, throwThe,
    MonadExceptOf.throw] at h
  cases happly : applyStatus db id input.status with
  | error failure =>
    rw [happly] at h
    cases h
  | ok db₁ =>
    obtain ⟨state, hwrites, rfl⟩ := applyStatus_eq_ok hdraft happly
    simp only [happly] at h
    cases hinsert : insertEventAndOutbox (statusWritten db id state)
        (draftedEvent (statusWritten db id state) id draft ids now) ids.outboxId with
    | error failure =>
      rw [hinsert] at h
      cases h
    | ok db₂ =>
      simp only [hinsert] at h
      obtain ⟨hevents, hentries, hdb⟩ := insertEventAndOutbox_eq_ok.mp hinsert
      have hfresh : FreshFor db ids := by
        have hids := draftedEvent_free.mp hevents
        have hentryIds := outboxEntry_free.mp hentries
        simp only [statusWritten_events] at hids
        simp only [statusWritten_outbox] at hentryIds
        exact ⟨hids, hentryIds⟩
      cases hrow : db₂.taskRuns.get? id with
      | none =>
        rw [hrow] at h
        cases h
      | some row =>
        simp only [hrow] at h
        obtain ⟨hdb', -⟩ := Prod.mk.inj (Except.ok.inj h)
        refine ⟨state, hwrites, hfresh, ?_, ?_⟩
        · have hget : (statusWritten db id state).taskRuns.get? id = some row := by
            rw [hdb] at hrow
            exact hrow
          rw [statusWritten_get?] at hget
          obtain ⟨old, hold, -⟩ := Option.map_eq_some_iff.mp hget
          exact ⟨old, hold⟩
        · rw [← hdb', hdb, draftedEvent_statusWritten]
          rfl

theorem writeUpdate_eq_ok {existing : Option Run} {draws : Draws}
    (h : writeUpdate db id input existing draws = .ok (db', run)) :
    ∃ read state draft, UpdateReady db id input existing draws.ids read state draft ∧
      db' = updated db id state draft draws.ids draws.now := by
  unfold writeUpdate at h
  cases existing with
  | none => cases h
  | some read =>
    simp only at h
    split_ifs at h with hterminal
    have hguard : input.status.isSome = true → isTerminalRunStatus read.status = false := by
      intro hsome
      rw [hsome, Bool.true_and] at hterminal
      exact Bool.eq_false_iff.mpr hterminal
    cases hdraft : draftEvent read input with
    | error failure =>
      rw [hdraft] at h
      cases h
    | ok draft =>
      rw [hdraft] at h
      obtain ⟨state, hwrites, hfresh, hfound, hdb⟩ := updateRunState_eq_ok hdraft h
      exact ⟨read, state, draft, ⟨rfl, hguard, hwrites, hdraft, hfresh, hfound⟩, hdb⟩

theorem updateRunState_of_ready (hwrites : Writes input.status state) (hfresh : FreshFor db ids)
    (hfound : ∃ row, db.taskRuns.get? id = some row) (now : Nat) :
    ∃ run, updateRunState db id input draft ids now =
      .ok (updated db id state draft ids now, run) := by
  have hevents : ∀ row ∈ (statusWritten db id state).events,
      conflicts (draftedEvent (statusWritten db id state) id draft ids now) row = false := by
    rw [draftedEvent_free, statusWritten_events]
    exact hfresh.1
  have hentries : ∀ row ∈ (statusWritten db id state).outbox, outboxConflicts (outboxEntry
      (draftedEvent (statusWritten db id state) id draft ids now) ids.outboxId) row = false := by
    rw [outboxEntry_free, statusWritten_outbox]
    exact hfresh.2
  have hinsert := insertEventAndOutbox_eq_ok.mpr ⟨hevents, hentries, rfl⟩
  obtain ⟨old, hold⟩ := hfound
  have hrow : ∃ row, (updated db id state draft ids now).taskRuns.get? id = some row := by
    have hget := statusWritten_get? db id id state
    rw [hold] at hget
    exact ⟨_, hget⟩
  obtain ⟨row, hrow⟩ := hrow
  have hupdated : withEvent (statusWritten db id state)
      (draftedEvent (statusWritten db id state) id draft ids now)
      (outboxEntry (draftedEvent (statusWritten db id state) id draft ids now) ids.outboxId) =
        updated db id state draft ids now := by
    rw [draftedEvent_statusWritten]
    rfl
  rw [hupdated] at hinsert
  simp only [updateRunState, bind, Except.bind, pure, Except.pure, applyStatus_of_writes hwrites,
    hinsert, hrow]
  exact ⟨_, rfl⟩

theorem writeUpdate_of_ready {existing : Option Run} {draws : Draws}
    (h : UpdateReady db id input existing draws.ids read state draft) :
    ∃ run, writeUpdate db id input existing draws =
      .ok (updated db id state draft draws.ids draws.now, run) := by
  obtain ⟨run, hrun⟩ := updateRunState_of_ready h.writes h.fresh h.found draws.now 
  refine ⟨run, ?_⟩
  have hguard : ¬(input.status.isSome && isTerminalRunStatus read.status) = true := by
    intro hterminal
    obtain ⟨hsome, hstatus⟩ := Bool.and_eq_true_iff.mp hterminal
    rw [h.guard hsome] at hstatus
    cases hstatus
  rw [h.existing_eq, writeUpdate]
  simp only [if_neg hguard, h.draft_eq, bind, Except.bind]
  exact hrun

/-- What a creation leaves: the new row, its event and outbox entry, and perhaps a claim. -/
structure Created (db db' : Database) (row : TaskRunRow) (event : EventRow) (entry : OutboxRow) :
    Prop where
  inserted : db.taskRuns.insert? row = some db'.taskRuns
  free : ∀ old ∈ db.events, conflicts event old = false
  events : db'.events = db.events ++ [event]
  outbox : db'.outbox = db.outbox ++ [entry]
  reviews : db'.reviews = db.reviews
  decisions : db'.decisions = db.decisions
  surroundings : db'.surroundings = db.surroundings

theorem createRun_eq_ok {input : CreateRunInput} {correlationId runId : String}
    (h : createRunWithEventAndOutbox db input correlationId runId ids now = .ok (db', run)) :
    Created db db' (runRow input runId now) (queuedEvent input correlationId runId ids now)
      (outboxEntry (queuedEvent input correlationId runId ids now) ids.outboxId) := by
  unfold createRunWithEventAndOutbox at h
  cases hinserted : db.taskRuns.insert? (runRow input runId now) with
  | none =>
    rw [hinserted] at h
    cases h
  | some taskRuns =>
    simp only [hinserted, bind, Except.bind, pure, Except.pure, throw, throwThe,
      MonadExceptOf.throw] at h
    cases hevent : insertEventAndOutbox { db with taskRuns }
        (queuedEvent input correlationId runId ids now) ids.outboxId with
    | error failure =>
      rw [hevent] at h
      cases h
    | ok db₁ =>
      obtain ⟨hfree, -, rfl⟩ := insertEventAndOutbox_eq_ok.mp hevent
      simp only [hevent] at h
      split_ifs at h with hempty
      · obtain ⟨hdb, -⟩ := Prod.mk.inj (Except.ok.inj h)
        rw [← hdb]
        exact ⟨hinserted, hfree, rfl, rfl, rfl, rfl, rfl⟩
      · split at h
        · cases h
        · obtain ⟨hdb, -⟩ := Prod.mk.inj (Except.ok.inj h)
          rw [← hdb]
          exact ⟨hinserted, hfree, rfl, rfl, rfl, rfl, rfl⟩

theorem transitionPhase_get? (db : Database) (input : TransitionPhaseInput) (authority : Bool)
    (runId : String) :
    (transitionPhase db input authority).1.taskRuns.get? runId =
      (db.taskRuns.get? runId).map fun row =>
        if mayTransition input authority && input.cas.matches row then input.cas.apply row
        else row := by
  unfold transitionPhase
  by_cases hmay : mayTransition input authority = true
  · rw [if_pos hmay]
    simp only [transitionPhaseCas, hmay, Bool.true_and]
    rw [Table.get?_update]
    rfl
  · rw [if_neg hmay]
    simp [Bool.eq_false_iff.mpr hmay]

@[simp] theorem transitionPhase_events (db : Database) (input : TransitionPhaseInput)
    (authority : Bool) : (transitionPhase db input authority).1.events = db.events := by
  unfold transitionPhase
  split_ifs <;> rfl

@[simp] theorem transitionPhase_outbox (db : Database) (input : TransitionPhaseInput)
    (authority : Bool) : (transitionPhase db input authority).1.outbox = db.outbox := by
  unfold transitionPhase
  split_ifs <;> rfl

@[simp] theorem transitionPhase_reviews (db : Database) (input : TransitionPhaseInput)
    (authority : Bool) : (transitionPhase db input authority).1.reviews = db.reviews := by
  unfold transitionPhase
  split_ifs <;> rfl

@[simp] theorem transitionPhase_surroundings (db : Database) (input : TransitionPhaseInput)
    (authority : Bool) : (transitionPhase db input authority).1.surroundings = db.surroundings := by
  unfold transitionPhase
  split_ifs <;> rfl

theorem transitionPhase_swapped_iff (db : Database) (input : TransitionPhaseInput)
    (authority : Bool) :
    (transitionPhase db input authority).2 = true ↔ mayTransition input authority = true ∧
      ∃ row, db.taskRuns.get? input.runId = some row ∧ input.cas.matches row = true := by
  unfold transitionPhase
  by_cases hmay : mayTransition input authority = true
  · rw [if_pos hmay]
    simp only [transitionPhaseCas, decide_eq_true_eq, hmay, true_and]
    rw [Table.changes_pos_iff]
    constructor
    · intro h
      obtain ⟨row, hrow, hmatches⟩ := h
      have hid : row.runId = input.runId := by
        simp only [PhaseCas.matches, Bool.and_eq_true, decide_eq_true_eq] at hmatches
        exact hmatches.1.1
      refine ⟨row, ?_, hmatches⟩
      rw [← hid]
      exact Table.get?_of_mem hrow
    · intro h
      obtain ⟨row, hrow, hmatches⟩ := h
      exact ⟨row, Table.mem_of_get? hrow, hmatches⟩
  · rw [if_neg hmay]
    constructor
    · intro hfalse
      cases hfalse
    · intro h
      exact absurd h.1 hmay

theorem matches_iff {cas : PhaseCas} {row : TaskRunRow} :
    cas.matches row = true ↔ row.runId = cas.runId ∧ row.state = cas.expectedPhase ∧
      row.aggregateVersion = cas.expectedAggregateVersion := by
  simp [PhaseCas.matches, and_assoc]

/-- A swap without the policy never reaches `completed`, and never leaves a terminal phase. -/
theorem mayTransition_phases {input : TransitionPhaseInput} {authority : Bool}
    (h : mayTransition input authority = true) :
    isTerminalPhase input.expectedPhase = false ∧
      (authority = false → input.targetPhase ≠ .completed) := by
  simp only [mayTransition, Bool.and_eq_true, Bool.or_eq_true, Bool.not_eq_true',
    decide_eq_true_eq] at h
  refine ⟨h.1.1, ?_⟩
  intro hauthority
  rw [hauthority] at h
  exact h.1.2.resolve_right Bool.false_ne_true

end RunEffects
