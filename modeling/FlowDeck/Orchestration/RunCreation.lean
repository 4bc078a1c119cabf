import FlowDeck.Orchestration.RunEffects

/-! The calls of `createRun` that carry one correlation id, statement by statement. -/

namespace RunCreation

open Orchestration RunStore RunService RunEffects Machine Option

def claimant (db : Database) (c : String) : Option String :=
  ((db.correlations.get? c).map (·.runId)).filter (· ≠ "")

def firstAggregate (db : Database) (c : String) : Option String :=
  ((db.events.find? fun event => event.correlationId = c).map (·.aggregateId)).filter (· ≠ "")

/-- The next statement of `findByCorrelationId`. -/
inductive Lookup
  | claim
  | event
  | byId (id : String)
  deriving DecidableEq

/-- One statement of the lookup: the next one, or what it found. -/
def Lookup.statement (db : Database) (c : String) : Lookup → Lookup ⊕ Option Run
  | .claim =>
    match claimant db c with
    | some runId => .inl (.byId runId)
    | none => .inl .event
  | .event => .inl (.byId ((firstAggregate db c).getD c))
  | .byId id => .inr (findById db id)

/-- A call between its statements: `createRun` looks the correlation up, inserts the run when there
is none, and looks the winner up when the insertion fails. -/
inductive Creation
  | idle
  | checking (input : CreateRunInput) (lookup : Lookup)
  | inserting (input : CreateRunInput)
  | rereading (failure : Failure) (lookup : Lookup)
  | returned (run : Run)
  | thrown (failure : Failure)

structure State where
  db : Database
  calls : Nat → Creation

/-- `refuse` is a transaction that fails for a reason of its own, such as a lock, and `abandon` a
call whose lookup throws or that dies. -/
inductive Action
  | createRun (h : Nat) (input : CreateRunInput)
  | lookup (h : Nat)
  | insert (h : Nat) (draws : Draws)
  | refuse (h : Nat) (failure : Failure)
  | abandon (h : Nat) (failure : Failure)

def State.setCall (s : State) (h : Nat) (call : Creation) : State :=
  { s with calls := Function.update s.calls h call }

/-- What the pre-check does with what it found. -/
def checked (input : CreateRunInput) : Option Run → Creation
  | some run => .returned run
  | none => .inserting input

def reread (failure : Failure) : Option Run → Creation
  | some run => .returned run
  | none => .thrown failure

def lookUp (db : Database) (c : String) : Creation → Option Creation
  | .checking input lookup =>
    match lookup.statement db c with
    | .inl next => some (.checking input next)
    | .inr found => some (checked input found)
  | .rereading failure lookup =>
    match lookup.statement db c with
    | .inl next => some (.rereading failure next)
    | .inr found => some (reread failure found)
  | _ => none

/-- The transaction of the writer, which a failure rolls back. -/
def insertRun (db : Database) (c : String) (draws : Draws) : Creation → Option (Database × Creation)
  | .inserting input =>
    match createRunWithEventAndOutbox db input c draws.runId draws.ids draws.now with
    | .ok (db', run) => some (db', .returned run)
    | .error failure => some (db, .rereading failure .claim)
  | _ => none

def isRunning : Creation → Bool
  | .checking _ _ => true
  | .inserting _ => true
  | .rereading _ _ => true
  | _ => false

def step (c : String) (s : State) : Action → Option State
  | .createRun h input =>
    match s.calls h with
    | .idle => some (s.setCall h (.checking input .claim))
    | _ => none
  | .lookup h => (lookUp s.db c (s.calls h)).map (s.setCall h)
  | .insert h draws =>
    (insertRun s.db c draws (s.calls h)).map fun result =>
      { s.setCall h result.2 with db := result.1 }
  | .refuse h failure =>
    match s.calls h with
    | .inserting _ => some (s.setCall h (.rereading failure .claim))
    | _ => none
  | .abandon h failure =>
    if isRunning (s.calls h) then some (s.setCall h (.thrown failure)) else none

def start (db : Database) : State where
  db := db
  calls := fun _ => .idle

def Lookup.result (db : Database) (c : String) : Lookup → Option Run
  | .claim => findByCorrelationId db c
  | .event => findById db ((firstAggregate db c).getD c)
  | .byId id => findById db id

variable {runId : String}

theorem findByCorrelationId_of_claimant {db : Database} {c : String}
    (h : claimant db c = some runId) : findByCorrelationId db c = findById db runId := by
  unfold claimant at h
  simp only [findByCorrelationId, h]

theorem findByCorrelationId_of_unclaimed {db : Database} {c : String} (h : claimant db c = none) :
    findByCorrelationId db c = findById db ((firstAggregate db c).getD c) := by
  unfold claimant at h
  simp only [findByCorrelationId, h]
  cases haggregate : firstAggregate db c with
  | none =>
    unfold firstAggregate at haggregate
    simp only [haggregate]
    rfl
  | some runId =>
    unfold firstAggregate at haggregate
    simp only [haggregate]
    rfl

theorem result_of_next {db : Database} {c : String} {lookup next : Lookup}
    (h : lookup.statement db c = .inl next) : next.result db c = lookup.result db c := by
  cases lookup with
  | claim =>
    cases hclaimant : claimant db c with
    | some runId =>
      simp only [Lookup.statement, hclaimant] at h
      rw [← Sum.inl.inj h]
      exact (findByCorrelationId_of_claimant hclaimant).symm
    | none =>
      simp only [Lookup.statement, hclaimant] at h
      rw [← Sum.inl.inj h]
      exact (findByCorrelationId_of_unclaimed hclaimant).symm
  | event =>
    rw [← Sum.inl.inj h]
    rfl
  | byId id => cases h

theorem result_of_found {db : Database} {c : String} {lookup : Lookup} {found : Option Run}
    (h : lookup.statement db c = .inr found) : lookup.result db c = found := by
  cases lookup with
  | claim =>
    simp only [Lookup.statement] at h
    split at h
    · cases h
    · cases h
  | event => cases h
  | byId id => exact Sum.inr.inj h

theorem id_of_findById {db : Database} {id : String} {run : Run} (h : findById db id = some run) :
    run.id = id := by
  obtain ⟨row, hrow, hrun⟩ := map_eq_some_iff.mp h
  rw [← hrun]
  have hid : row.runId = id := Table.key_of_get? hrow
  exact hid

structure CreatedFor (db : Database) (c : String) (db' : Database) (runId : String) : Prop where
  taskRun : ∃ row, row.runId = runId ∧ db.taskRuns.insert? row = some db'.taskRuns
  claim : db.correlations.insert? { key := c, runId := runId } = some db'.correlations
  event : ∃ event entry, event.eventType = "run.queued" ∧ event.correlationId = c ∧
    event.aggregateId = runId ∧ entry.eventId = event.eventId ∧
    (∀ old ∈ db.events, old.eventId ≠ event.eventId) ∧
    db'.events = db.events ++ [event] ∧ db'.outbox = db.outbox ++ [entry]

variable {db db' : Database} {c : String}

theorem createdFor_of_ok (hc : c ≠ "") {input : CreateRunInput} {runId : String} {ids : FreshIds}
    {now : Nat} {run : Run}
    (h : createRunWithEventAndOutbox db input c runId ids now = .ok (db', run)) :
    CreatedFor db c db' runId ∧ run.id = runId := by
  unfold createRunWithEventAndOutbox at h
  cases hinserted : db.taskRuns.insert? (runRow input runId now) with
  | none =>
    rw [hinserted] at h
    cases h
  | some taskRuns =>
    simp only [hinserted, bind, Except.bind, pure, Except.pure, throw, throwThe,
      MonadExceptOf.throw, if_neg hc] at h
    cases hevent : insertEventAndOutbox { db with taskRuns }
        (queuedEvent input c runId ids now) ids.outboxId with
    | error failure =>
      rw [hevent] at h
      cases h
    | ok db₁ =>
      obtain ⟨hfree, -, hdb₁⟩ := insertEventAndOutbox_eq_ok.mp hevent
      simp only [hevent] at h
      cases hclaim : db₁.correlations.insert? { key := c, runId := runId } with
      | none =>
        rw [hclaim] at h
        cases h
      | some correlations =>
        simp only [hclaim] at h
        obtain ⟨hdb, hrun⟩ := Prod.mk.inj (Except.ok.inj h)
        have hclaimed : db.correlations.insert? { key := c, runId := runId } = some correlations := by
          rw [hdb₁] at hclaim
          exact hclaim
        refine ⟨⟨⟨runRow input runId now, rfl, ?_⟩, ?_, queuedEvent input c runId ids now,
          outboxEntry (queuedEvent input c runId ids now) ids.outboxId, rfl, rfl, rfl, rfl, ?_, ?_,
          ?_⟩, ?_⟩
        · rw [← hdb, hdb₁]
          exact hinserted
        · rw [← hdb]
          exact hclaimed
        · intro old hold hsame
          have hconflict := hfree old hold
          simp [conflicts, hsame] at hconflict
        · rw [← hdb, hdb₁]
          rfl
        · rw [← hdb, hdb₁]
          rfl
        · rw [← hrun]

theorem CreatedFor.refuses (h : CreatedFor db c db' runId) (hc : c ≠ "") (input : CreateRunInput)
    (runId' : String) (ids : FreshIds) (now : Nat) :
    ∃ failure, createRunWithEventAndOutbox db' input c runId' ids now = .error failure := by
  cases hcreate : createRunWithEventAndOutbox db' input c runId' ids now with
  | error failure => exact ⟨failure, rfl⟩
  | ok result =>
    have hok : createRunWithEventAndOutbox db' input c runId' ids now = .ok (result.1, result.2) :=
      hcreate
    have hagain := (createdFor_of_ok hc hok).1
    have htaken : db'.correlations.get? c = some { key := c, runId := runId } := by
      rw [Table.get?_insert? h.claim, if_pos rfl]
    rw [(Table.insert?_eq_some hagain.claim).1] at htaken
    cases htaken

theorem CreatedFor.findById {id : String} (h : CreatedFor db c db' runId)
    (hnone : RunStore.findById db id = none) {run : Run}
    (hrun : RunStore.findById db' id = some run) : run.id = runId := by
  obtain ⟨row, hrow, hinsert⟩ := h.taskRun
  obtain ⟨found, hfound, -⟩ := map_eq_some_iff.mp hrun
  rw [Table.get?_insert? hinsert] at hfound
  by_cases hid : row.runId = id
  · rw [id_of_findById hrun, ← hid, hrow]
  · rw [if_neg hid] at hfound
    have hsome : RunStore.findById db id = some (toRun db found) := by
      simp [RunStore.findById, hfound]
    rw [hnone] at hsome
    cases hsome

theorem CreatedFor.result (h : CreatedFor db c db' runId) {lookup : Lookup}
    (hnone : lookup.result db c = none) {run : Run} (hrun : lookup.result db' c = some run) :
    run.id = runId := by
  have hfirst : RunStore.findById db ((firstAggregate db c).getD c) = none →
      RunStore.findById db' ((firstAggregate db' c).getD c) = some run → run.id = runId := by
    intro hbefore hafter
    obtain ⟨event, entry, -, hcorrelation, haggregate, -, -, hevents, -⟩ := h.event
    cases hfind : db.events.find? (fun event => event.correlationId = c) with
    | some old =>
      have hsame : firstAggregate db' c = firstAggregate db c := by
        simp [firstAggregate, hevents, hfind]
      rw [hsame] at hafter
      exact h.findById hbefore hafter
    | none =>
      have hown : firstAggregate db c = none := by simp [firstAggregate, hfind]
      have hnew : firstAggregate db' c = (some runId).filter (· ≠ "") := by
        simp [firstAggregate, hevents, hfind, hcorrelation, haggregate]
      rw [hown] at hbefore
      rw [hnew] at hafter
      by_cases hempty : runId = ""
      · simp only [hempty] at hafter
        exact h.findById hbefore hafter
      · have hkept : (some runId).filter (· ≠ "") = some runId := by simp [hempty]
        rw [hkept] at hafter
        exact id_of_findById hafter
  cases lookup with
  | claim =>
    have hunclaimed : claimant db c = none := by
      simp [claimant, (Table.insert?_eq_some h.claim).1]
    have hbefore : RunStore.findById db ((firstAggregate db c).getD c) = none := by
      rw [← findByCorrelationId_of_unclaimed hunclaimed]
      exact hnone
    cases hclaimant : claimant db' c with
    | some claimed =>
      have hclaimed : claimed = runId := by
        have hget : db'.correlations.get? c = some { key := c, runId := runId } := by
          rw [Table.get?_insert? h.claim, if_pos rfl]
        simp only [claimant, hget, map_some] at hclaimant
        exact (filter_eq_some_iff.mp hclaimant).1 |> some.inj |>.symm
      have hfound : RunStore.findById db' claimed = some run := by
        rw [← findByCorrelationId_of_claimant hclaimant]
        exact hrun
      rw [id_of_findById hfound, hclaimed]
    | none =>
      apply hfirst hbefore
      rw [← findByCorrelationId_of_unclaimed hclaimant]
      exact hrun
  | event => exact hfirst hnone hrun
  | byId id => exact h.findById hnone hrun

/-- A call on a database in which nothing is written yet: its lookup finds what there is, and it
goes on to insert only when there is nothing. -/
def Before (db : Database) (c : String) : Creation → Prop
  | .checking _ lookup => lookup.result db c = findByCorrelationId db c
  | .rereading _ lookup => lookup.result db c = findByCorrelationId db c
  | .inserting _ => findByCorrelationId db c = none
  | .returned run => findByCorrelationId db c = some run
  | _ => True

def After (db : Database) (c runId : String) : Creation → Prop
  | .checking _ lookup => ∀ run, lookup.result db c = some run → run.id = runId
  | .rereading _ lookup => ∀ run, lookup.result db c = some run → run.id = runId
  | .returned run => run.id = runId
  | _ => True

theorem lookUp_before {call next : Creation} (h : lookUp db c call = some next)
    (hbefore : Before db c call) : Before db c next := by
  cases call with
  | checking input lookup =>
    simp only [lookUp] at h
    cases hstatement : lookup.statement db c with
    | inl following =>
      simp only [hstatement] at h
      rw [← some.inj h]
      exact (result_of_next hstatement).trans hbefore
    | inr found =>
      simp only [hstatement] at h
      have hfound : found = findByCorrelationId db c :=
        (result_of_found hstatement).symm.trans hbefore
      rw [← some.inj h]
      cases found with
      | some run => exact hfound.symm
      | none => exact hfound.symm
  | rereading failure lookup =>
    simp only [lookUp] at h
    cases hstatement : lookup.statement db c with
    | inl following =>
      simp only [hstatement] at h
      rw [← some.inj h]
      exact (result_of_next hstatement).trans hbefore
    | inr found =>
      simp only [hstatement] at h
      have hfound : found = findByCorrelationId db c :=
        (result_of_found hstatement).symm.trans hbefore
      rw [← some.inj h]
      cases found with
      | some run => exact hfound.symm
      | none => trivial
  | _ => cases h

theorem lookUp_after {call next : Creation} (h : lookUp db c call = some next)
    (hafter : After db c runId call) : After db c runId next := by
  cases call with
  | checking input lookup =>
    simp only [lookUp] at h
    cases hstatement : lookup.statement db c with
    | inl following =>
      simp only [hstatement] at h
      rw [← some.inj h]
      intro run hrun
      exact hafter run ((result_of_next hstatement).symm.trans hrun)
    | inr found =>
      simp only [hstatement] at h
      rw [← some.inj h]
      cases found with
      | some run => exact hafter run (result_of_found hstatement)
      | none => trivial
  | rereading failure lookup =>
    simp only [lookUp] at h
    cases hstatement : lookup.statement db c with
    | inl following =>
      simp only [hstatement] at h
      rw [← some.inj h]
      intro run hrun
      exact hafter run ((result_of_next hstatement).symm.trans hrun)
    | inr found =>
      simp only [hstatement] at h
      rw [← some.inj h]
      cases found with
      | some run => exact hafter run (result_of_found hstatement)
      | none => trivial
  | _ => cases h

theorem after_of_before (hcreated : CreatedFor db c db' runId)
    (hunknown : findByCorrelationId db c = none) {call : Creation} (h : Before db c call) :
    After db' c runId call := by
  cases call with
  | checking input lookup =>
    intro run hrun
    exact hcreated.result (h.trans hunknown) hrun
  | rereading failure lookup =>
    intro run hrun
    exact hcreated.result (h.trans hunknown) hrun
  | returned run =>
    rw [Before, hunknown] at h
    cases h
  | _ => trivial

/-- Nothing is written yet. -/
structure Untouched (db : Database) (c : String) (s : State) : Prop where
  db_eq : s.db = db
  calls : ∀ h, Before db c (s.calls h)

structure Owned (db : Database) (c runId : String) (s : State) : Prop where
  unknown : findByCorrelationId db c = none
  created : CreatedFor db c s.db runId
  calls : ∀ h, After s.db c runId (s.calls h)

theorem untouched_setCall {s : State} (hs : Untouched db c s) {h : Nat} {call : Creation}
    (hcall : Before db c call) : Untouched db c (s.setCall h call) :=
  ⟨hs.db_eq, Function.forall_update_iff _ (fun _ => Before db c) |>.mpr
    ⟨hcall, fun i _ => hs.calls i⟩⟩

theorem owned_setCall {s : State} (hs : Owned db c runId s) {h : Nat} {call : Creation}
    (hcall : After s.db c runId call) : Owned db c runId (s.setCall h call) :=
  ⟨hs.unknown, hs.created, Function.forall_update_iff _ (fun _ => After s.db c runId) |>.mpr
    ⟨hcall, fun i _ => hs.calls i⟩⟩

theorem untouched_start : Untouched db c (start db) := ⟨rfl, fun _ => trivial⟩

theorem step_untouched (hc : c ≠ "") {s t : State} {a : Action} (hs : Untouched db c s)
    (h : step c s a = some t) : Untouched db c t ∨ ∃ runId, Owned db c runId t := by
  have hcalls := hs.calls
  cases a with
  | createRun i input =>
    simp only [step] at h
    split at h
    · rw [← some.inj h]
      exact Or.inl (untouched_setCall hs rfl)
    · cases h
  | lookup i =>
    obtain ⟨next, hnext, ht⟩ := map_eq_some_iff.mp h
    rw [← ht]
    rw [hs.db_eq] at hnext
    exact Or.inl (untouched_setCall hs (lookUp_before hnext (hcalls i)))
  | insert i draws =>
    obtain ⟨⟨db', next⟩, hnext, ht⟩ := map_eq_some_iff.mp h
    cases hcall : s.calls i with
    | inserting input =>
      have hunknown : findByCorrelationId db c = none := by
        have := hcalls i
        rw [hcall] at this
        exact this
      rw [hs.db_eq, hcall] at hnext
      simp only [insertRun] at hnext
      cases hcreate : createRunWithEventAndOutbox db input c draws.runId draws.ids draws.now with
      | ok result =>
        have hok : createRunWithEventAndOutbox db input c draws.runId draws.ids draws.now =
            .ok (result.1, result.2) := hcreate
        obtain ⟨hcreated, hid⟩ := createdFor_of_ok hc hok
        simp only [hcreate] at hnext
        obtain ⟨hdb, hreturned⟩ := Prod.mk.inj (some.inj hnext)
        right
        refine ⟨draws.runId, hunknown, ?_, ?_⟩
        · rw [← ht, ← hdb]
          exact hcreated
        · rw [← ht, ← hdb, ← hreturned]
          refine Function.forall_update_iff _ (fun _ => After result.1 c draws.runId) |>.mpr ⟨hid, ?_⟩
          intro j _
          exact after_of_before hcreated hunknown (hcalls j)
      | error failure =>
        simp only [hcreate] at hnext
        obtain ⟨hdb, hreread⟩ := Prod.mk.inj (some.inj hnext)
        left
        rw [← ht, ← hreread, ← hdb]
        have hrereads : Before db c (.rereading failure .claim) := rfl
        exact ⟨rfl, (untouched_setCall hs hrereads).calls⟩
    | _ =>
      rw [hcall] at hnext
      cases hnext
  | refuse i failure =>
    simp only [step] at h
    split at h
    · rw [← some.inj h]
      exact Or.inl (untouched_setCall hs rfl)
    · cases h
  | abandon i failure =>
    simp only [step] at h
    split_ifs at h
    rw [← some.inj h]
    exact Or.inl (untouched_setCall hs trivial)

theorem step_owned (hc : c ≠ "") {runId : String} {s t : State} {a : Action}
    (hs : Owned db c runId s) (h : step c s a = some t) : Owned db c runId t := by
  have hcalls := hs.calls
  have hunknown : Lookup.claim.result db c = none := hs.unknown
  have hfound : ∀ run, Lookup.claim.result s.db c = some run → run.id = runId :=
    fun _ => hs.created.result hunknown
  cases a with
  | createRun i input =>
    simp only [step] at h
    split at h
    · rw [← some.inj h]
      exact owned_setCall hs hfound
    · cases h
  | lookup i =>
    obtain ⟨next, hnext, ht⟩ := map_eq_some_iff.mp h
    rw [← ht]
    exact owned_setCall hs (lookUp_after hnext (hcalls i))
  | insert i draws =>
    obtain ⟨⟨db', next⟩, hnext, ht⟩ := map_eq_some_iff.mp h
    cases hcall : s.calls i with
    | inserting input =>
      rw [hcall] at hnext
      obtain ⟨failure, hrefused⟩ := hs.created.refuses hc input draws.runId draws.ids draws.now
      simp only [insertRun, hrefused] at hnext
      obtain ⟨hdb, hreread⟩ := Prod.mk.inj (some.inj hnext)
      rw [← ht, ← hreread, ← hdb]
      exact owned_setCall hs hfound
    | _ =>
      rw [hcall] at hnext
      cases hnext
  | refuse i failure =>
    simp only [step] at h
    split at h
    · rw [← some.inj h]
      exact owned_setCall hs hfound
    · cases h
  | abandon i failure =>
    simp only [step] at h
    split_ifs at h
    rw [← some.inj h]
    exact owned_setCall hs trivial

theorem run_untouched_or_owned (hc : c ≠ "") {as : List Action} {t : State}
    (h : run (step c) (start db) as = some t) : Untouched db c t ∨ ∃ runId, Owned db c runId t := by
  refine run_invariant (I := fun s => Untouched db c s ∨ ∃ runId, Owned db c runId s) ?_
    (Or.inl untouched_start) h
  intro s a u hs hstep
  rcases hs with huntouched | ⟨runId, howned⟩
  · exact step_untouched hc huntouched hstep
  · exact Or.inr ⟨runId, step_owned hc howned hstep⟩

def taskRunsFor (db : Database) (c : String) : List TaskRunRow :=
  db.taskRuns.rows.filter fun row => (db.correlations.get? c).any fun claim => claim.runId = row.runId

def creationEventsFor (db : Database) (c : String) : List EventRow :=
  db.events.filter fun event => event.eventType = "run.queued" && event.correlationId = c

def outboxFor (db : Database) (c : String) : List OutboxRow :=
  db.outbox.filter fun entry =>
    (creationEventsFor db c).any fun event => event.eventId = entry.eventId

/-- The database knows no run by the correlation id, and has none of its rows. The last part is what
the foreign key of the outbox ensures. -/
structure Unused (db : Database) (c : String) : Prop where
  unknown : findByCorrelationId db c = none
  events : creationEventsFor db c = []
  references : ∀ entry ∈ db.outbox, referencesEvent db entry = true

/-- The calls agree on the run, it is there once, and nothing else is written. -/
structure Converges (db : Database) (c : String) (s : State) : Prop where
  same : ∀ h h' run run', s.calls h = .returned run → s.calls h' = .returned run' → run.id = run'.id
  once : ∀ h run, s.calls h = .returned run → Unused db c →
    (taskRunsFor s.db c).map (·.runId) = [run.id] ∧ (creationEventsFor s.db c).length = 1 ∧
      (outboxFor s.db c).length = 1
  known : ∀ run, findByCorrelationId db c = some run → s.db = db
  losers : s.db = db ∨ ∃ runId, CreatedFor db c s.db runId

theorem CreatedFor.taskRunsFor (h : CreatedFor db c db' runId) :
    (taskRunsFor db' c).map (·.runId) = [runId] := by
  obtain ⟨row, hrow, hinsert⟩ := h.taskRun
  obtain ⟨hnew, hrows⟩ := Table.insert?_eq_some hinsert
  have hclaim : db'.correlations.get? c = some { key := c, runId := runId } := by
    rw [Table.get?_insert? h.claim, if_pos rfl]
  have hothers : db.taskRuns.rows.filter (fun old => decide (runId = old.runId)) = [] := by
    rw [List.filter_eq_nil_iff]
    intro old hold hsame
    have hkey : old.runId = row.runId := by rw [hrow, of_decide_eq_true hsame]
    exact Table.get?_eq_none_iff.mp hnew old hold hkey
  simp [RunCreation.taskRunsFor, hrows, hclaim, List.filter_append, hothers, hrow]

theorem CreatedFor.creationEventsFor (h : CreatedFor db c db' runId) (hunused : Unused db c) :
    (RunCreation.creationEventsFor db' c).length = 1 ∧
      (outboxFor db' c).length = 1 := by
  obtain ⟨event, entry, htype, hcorrelation, -, hentry, hfree, hevents, houtbox⟩ := h.event
  have hcreation : RunCreation.creationEventsFor db' c = [event] := by
    have hbefore := hunused.events
    simp only [RunCreation.creationEventsFor] at hbefore ⊢
    rw [hevents, List.filter_append, hbefore]
    simp [htype, hcorrelation]
  have hothers : db.outbox.filter (fun old => decide (event.eventId = old.eventId)) = [] := by
    rw [List.filter_eq_nil_iff]
    intro old hold hsame
    obtain ⟨referenced, hmem, hreferenced⟩ :=
      List.any_eq_true.mp (hunused.references old hold)
    apply hfree referenced hmem
    rw [of_decide_eq_true hreferenced, of_decide_eq_true hsame]
  constructor
  · rw [hcreation]
    rfl
  · simp [outboxFor, hcreation, houtbox, List.filter_append, hothers, hentry]

/-- Over every interleaving of the calls with one correlation id, from any database: the calls that
return agree on the run, and it is written once. -/
theorem createRun_converges (hc : c ≠ "") {as : List Action} {s : State}
    (h : run (step c) (start db) as = some s) : Converges db c s := by
  rcases run_untouched_or_owned hc h with huntouched | ⟨runId, howned⟩
  · have hreturned : ∀ i run, s.calls i = .returned run → findByCorrelationId db c = some run := by
      intro i run hi
      have hbefore := huntouched.calls i
      rw [hi] at hbefore
      exact hbefore
    constructor
    · intro i j first second hi hj
      have hsame : some first = some second :=
        (hreturned i first hi).symm.trans (hreturned j second hj)
      rw [some.inj hsame]
    · intro i run hi hunused
      have hnone := hunused.unknown
      rw [hreturned i run hi] at hnone
      cases hnone
    · intro run _
      exact huntouched.db_eq
    · exact Or.inl huntouched.db_eq
  · have hreturned : ∀ i run, s.calls i = .returned run → run.id = runId := by
      intro i run hi
      have hafter := howned.calls i
      rw [hi] at hafter
      exact hafter
    constructor
    · intro i j first second hi hj
      rw [hreturned i first hi, hreturned j second hj]
    · intro i run hi hunused
      refine ⟨?_, howned.created.creationEventsFor hunused⟩
      rw [hreturned i run hi]
      exact howned.created.taskRunsFor
    · intro run hknown
      rw [howned.unknown] at hknown
      cases hknown
    · exact Or.inr ⟨runId, howned.created⟩

def emptyDatabase : Database := (RunService.initial exampleSurroundings).db

def exampleInput : CreateRunInput where
  runType := "simple"
  correlationId := ""
  causationId := none
  contractId := none

def exampleDraws (n : String) : Draws where
  runId := "run-" ++ n
  ids := { eventId := "e-" ++ n, outboxId := "o-" ++ n }

/-- Two calls that both find the correlation id unused before either inserts. -/
def raced : List Action :=
  [.createRun 1 exampleInput, .createRun 2 exampleInput, .lookup 1, .lookup 1, .lookup 1, .lookup 2,
    .lookup 2, .lookup 2, .insert 1 (exampleDraws "1"), .insert 2 (exampleDraws "2")]

def returnedId : Creation → Option String
  | .returned run => some run.id
  | _ => none

/-- The loser reads the winner's run. -/
theorem raced_converges :
    ∃ s, run (step "c") (start emptyDatabase) (raced ++ [.lookup 2, .lookup 2]) = some s ∧
      returnedId (s.calls 2) = some "run-1" ∧ Converges emptyDatabase "c" s := by
  have hloser : (run (step "c") (start emptyDatabase) (raced ++ [.lookup 2, .lookup 2])).any
      (fun s => returnedId (s.calls 2) = some "run-1") = true := by decide +kernel
  obtain ⟨s, hs, hfound⟩ := (any_eq_true _ _).mp hloser
  exact ⟨s, hs, of_decide_eq_true hfound, createRun_converges (by decide) hs⟩

/-- An empty correlation id is never claimed, so that both calls create a run. -/
theorem raced_unclaimed : ¬∀ c db as s, run (step c) (start db) as = some s → Converges db c s := by
  intro hall
  have hboth : (run (step "") (start emptyDatabase) raced).any (fun s =>
      returnedId (s.calls 1) = some "run-1" ∧ returnedId (s.calls 2) = some "run-2") = true := by
    decide +kernel
  obtain ⟨s, hs, hreturned⟩ := (any_eq_true _ _).mp hboth
  obtain ⟨hfirst, hsecond⟩ := of_decide_eq_true hreturned
  have hsame := (hall "" emptyDatabase raced s hs).same 1 2
  cases hone : s.calls 1 with
  | returned first =>
    cases htwo : s.calls 2 with
    | returned second =>
      rw [hone] at hfirst
      rw [htwo] at hsecond
      have hid := hsame first second hone htwo
      simp only [returnedId, some.injEq] at hfirst hsecond
      rw [hfirst, hsecond] at hid
      exact absurd hid (by decide)
    | _ =>
      rw [htwo] at hsecond
      cases hsecond
  | _ =>
    rw [hone] at hfirst
    cases hfirst

end RunCreation
