import FlowDeck.Orchestration.RuntimeEventStore
import Mathlib.Data.List.Sort

/-! The transitions of task runs, the events they produce, and the replay of such events. -/

namespace TransitionReplay

open List RuntimeEventStore

inductive TaskRunState
  | created
  | planning
  | analysing
  | delegating
  | executing
  | verifying
  | recovering
  | completed
  | failed
  | cancelled
  deriving DecidableEq

inductive TaskRunStrategy
  | simple
  | planned
  | delegated
  | audit
  | recovery
  deriving DecidableEq

/-- A flag that is not set is false. -/
structure TaskRun where
  aggregateId : String
  version : Int
  status : TaskRunState
  strategy : TaskRunStrategy
  delegationTarget : Option String := none
  delegationMode : Option String := none
  recoveryPath : Option String := none
  failedStage : Option String := none
  planningCompleted : Bool := false
  analysisComplete : Bool := false
  agentResponseReceived : Bool := false
  executionComplete : Bool := false
  acceptanceCriteriaMet : Bool := false
  needsRecovery : Bool := false
  agentFailedOrTimeout : Bool := false
  executableFailed : Bool := false
  verificationFailed : Bool := false
  recoveryComplete : Bool := false
  recoveryExhausted : Bool := false

structure TransitionDefinition where
  target : TaskRunState
  command : String
  invariant : TaskRun → Bool := fun _ => true

def failed (invariant : TaskRun → Bool := fun _ => true) : TransitionDefinition :=
  ⟨.failed, "FailCommand", invariant⟩

def cancelled : TransitionDefinition := { target := .cancelled, command := "CancelCommand" }

def recovering (invariant : TaskRun → Bool) : TransitionDefinition :=
  ⟨.recovering, "InitiateRecoveryCommand", invariant⟩

def transitionMatrix : TaskRunState → List TransitionDefinition
  | .created => [
      ⟨.planning, "StartPlanningCommand", fun run =>
        run.strategy = .planned || run.strategy = .simple⟩,
      failed, cancelled]
  | .planning => [
      ⟨.analysing, "StartAnalysisCommand", (·.planningCompleted)⟩,
      ⟨.delegating, "DelegateToAgentCommand", (·.strategy = .delegated)⟩,
      failed, cancelled]
  | .analysing => [
      ⟨.delegating, "StartExecutionCommand", (·.analysisComplete)⟩,
      recovering (·.needsRecovery), failed, cancelled]
  | .delegating => [
      ⟨.executing, "ResumeExecutionCommand", (·.agentResponseReceived)⟩,
      recovering (·.agentFailedOrTimeout), failed, cancelled]
  | .executing => [
      ⟨.verifying, "CompleteExecutionCommand", (·.executionComplete)⟩,
      recovering (·.executableFailed), failed, cancelled]
  | .verifying => [
      ⟨.completed, "CompleteTaskCommand", (·.acceptanceCriteriaMet)⟩,
      recovering (·.verificationFailed),
      failed fun run => !run.acceptanceCriteriaMet && !run.verificationFailed, cancelled]
  | .recovering => [
      ⟨.executing, "ResumeAfterRecoveryCommand", (·.recoveryComplete)⟩,
      failed (·.recoveryExhausted), cancelled]
  | .completed | .failed | .cancelled => []

structure Command where
  type : String
  commandId : String

def TaskRunState.text : TaskRunState → String
  | .created => "created"
  | .planning => "planning"
  | .analysing => "analysing"
  | .delegating => "delegating"
  | .executing => "executing"
  | .verifying => "verifying"
  | .recovering => "recovering"
  | .completed => "completed"
  | .failed => "failed"
  | .cancelled => "cancelled"

def TaskRunState.isTerminal : TaskRunState → Bool
  | .completed | .failed | .cancelled => true
  | _ => false

def validateTransition (run : TaskRun) (command : Command) :
    Except (List String) TransitionDefinition :=
  if run.status.isTerminal ∧ command.type ≠ "InitiateRecoveryCommand" ∧
      command.type ≠ "CompleteTaskCommand" then
    .error ["Cannot transition from terminal state " ++ run.status.text ++ " with command " ++
      command.type]
  else match (transitionMatrix run.status).find? (·.command = command.type) with
  | none => .error [
      "No transition found from " ++ run.status.text ++ " with command " ++ command.type,
      "Available commands: " ++ ", ".intercalate ((transitionMatrix run.status).map (·.command))]
  | some transition =>
    -- the rule of the run's own strategy always holds
    if transition.invariant run then .ok transition
    else .error ["Invariant violations for transition " ++ command.type ++ " from " ++
      run.status.text]

inductive Payload
  | stateChanged (fromState toState : TaskRunState) (command : String)
  | delegationStarted (delegatedTo delegationMode : Option String)
  | recoveryStarted (recoveryPath failedStage : Option String)

def createEvent (eventType : String) (payload : Payload) (command : Command) (eventId : String) :
    UncommittedRuntimeEvent Payload where
  eventId := some eventId
  eventType := eventType
  payload := payload
  commandId := some command.commandId

def createStrategyEvents (run : TaskRun) (command : Command) (eventId : String) :
    List (UncommittedRuntimeEvent Payload) :=
  match run.strategy with
  | .delegated =>
    if command.type = "DelegateToAgentCommand" then
      [createEvent "DelegationStarted"
        (.delegationStarted run.delegationTarget run.delegationMode) command eventId]
    else []
  | .recovery =>
    if command.type = "InitiateRecoveryCommand" then
      [createEvent "RecoveryStarted" (.recoveryStarted run.recoveryPath run.failedStage) command
        eventId]
    else []
  | _ => []

def applyTransition (run : TaskRun) (command : Command) (drawn : String × String) :
    Except (List String) (List (UncommittedRuntimeEvent Payload) × Int) := do
  let transition ← validateTransition run command
  .ok (createEvent "TaskRunStateChanged"
    (.stateChanged run.status transition.target command.type) command drawn.1 ::
      createStrategyEvents run command drawn.2, run.version + 1)

/-! ### The replay -/

def determineNextState (eventType : String) : TaskRunState :=
  match eventType with
  | "RunCreated" => .created
  | "RunStartedPlanning" | "RunCompletedPlanning" => .planning
  | "RunStartedAnalysis" | "RunCompletedAnalysis" => .analysing
  | "RunStartedExecution" | "RunCompletedExecution" => .executing
  | "RunVerified" => .verifying
  | "RunCompleted" => .completed
  | "RunFailed" => .failed
  | "RunCancelled" => .cancelled
  | "RunRecovered" => .recovering
  | _ => .created

/-- The states that are left, and the one that is reached. -/
def replayEvent (acc : List TaskRunState × TaskRunState) (event : PersistedRuntimeEvent Payload) :
    List TaskRunState × TaskRunState :=
  if determineNextState event.eventType = acc.2 then acc
  else (acc.1 ++ [acc.2], determineNextState event.eventType)

def deterministicReplay (events : List (PersistedRuntimeEvent Payload)) : List TaskRunState :=
  let sorted := events.insertionSort fun a b => a.aggregateVersion ≤ b.aggregateVersion
  let (transitions, currentStatus) := sorted.foldl replayEvent ([], .created)
  transitions ++ [currentStatus]

/-! ### Sequences of transitions -/

/-- A sequence of legal transitions, the events of each behind those before it; between two of them
the flags may change. -/
inductive Produces : TaskRun → List (UncommittedRuntimeEvent Payload) → TaskRun → Prop
  | nil (run : TaskRun) : Produces run [] run
  | cons {run next last : TaskRun} {command : Command} {drawn : String × String}
      {transition : TransitionDefinition} {events rest : List (UncommittedRuntimeEvent Payload)} :
      validateTransition run command = .ok transition →
      applyTransition run command drawn = .ok (events, next.version) →
      next.status = transition.target → Produces next rest last →
      Produces run (events ++ rest) last

/-- The store takes the event where it is no duplicate. -/
def Accepted (event : UncommittedRuntimeEvent Payload) : Prop :=
  ∀ s : Store Payload, duplicateCommand s event = none → duplicateEvent s event = none →
    checkEvent s event = .ok ()

variable {run last : TaskRun} {events : List (UncommittedRuntimeEvent Payload)}

theorem target_ne_created {command : Command} {transition : TransitionDefinition}
    (h : validateTransition run command = .ok transition) : transition.target ≠ .created := by
  have hall : ∀ status, ∀ transition ∈ transitionMatrix status, transition.target ≠ .created := by
    intro status transition hmem
    cases status <;>
      simp only [transitionMatrix, failed, cancelled, recovering, mem_cons, not_mem_nil, or_false]
        at hmem <;>
      rcases hmem with rfl | rfl | rfl | rfl <;> simp
  unfold validateTransition at h
  split_ifs at h
  split at h
  · cases h
  · rename_i found hfound
    split_ifs at h
    obtain rfl := Except.ok.inj h
    exact hall _ _ (mem_of_find?_eq_some hfound)

/-- Neither the store nor the replay knows the type of any event of a transition. -/
theorem applyTransition_unknown {command : Command} {drawn : String × String} {version : Int}
    (h : applyTransition run command drawn = .ok (events, version)) :
    events ≠ [] ∧ ∀ event ∈ events, event.eventType ∉ knownEventTypes ∧
      determineNextState event.eventType = .created := by
  have hstrategy : ∀ event ∈ createStrategyEvents run command drawn.2,
      event.eventType = "DelegationStarted" ∨ event.eventType = "RecoveryStarted" := by
    intro event hevent
    unfold createStrategyEvents at hevent
    split at hevent
    · split_ifs at hevent
      · exact Or.inl (mem_singleton.mp hevent ▸ rfl)
      · cases hevent
    · split_ifs at hevent
      · exact Or.inr (mem_singleton.mp hevent ▸ rfl)
      · cases hevent
    · cases hevent
  unfold applyTransition at h
  cases hvalid : validateTransition run command with
  | error errors => simp [hvalid, bind, Except.bind] at h
  | ok transition =>
    simp only [hvalid, bind, Except.bind, Except.ok.injEq, Prod.mk.injEq] at h
    obtain ⟨rfl, -⟩ := h
    refine ⟨cons_ne_nil _ _, fun event hevent => ?_⟩
    have htype : event.eventType = "TaskRunStateChanged" ∨
        event.eventType = "DelegationStarted" ∨ event.eventType = "RecoveryStarted" := by
      rcases mem_cons.mp hevent with rfl | hevent
      · exact Or.inl rfl
      · exact Or.inr (hstrategy event hevent)
    rcases htype with htype | htype | htype <;> rw [htype] <;> exact ⟨by decide, rfl⟩

theorem accepted_iff {event : UncommittedRuntimeEvent Payload} :
    Accepted event ↔ event.eventType ∈ knownEventTypes := by
  have hcheck (s : Store Payload) (hcommand : duplicateCommand s event = none)
      (hevent : duplicateEvent s event = none) :
      checkEvent s event = .ok () ↔ event.eventType ∈ knownEventTypes := by
    simp [checkEvent, hcommand, hevent]
  constructor
  · intro h
    have hcommand : duplicateCommand ({} : Store Payload) event = none := by simp [duplicateCommand]
    have hevent : duplicateEvent ({} : Store Payload) event = none := by simp [duplicateEvent]
    exact (hcheck {} hcommand hevent).mp (h {} hcommand hevent)
  · intro h s hcommand hevent
    exact (hcheck s hcommand hevent).mpr h

theorem Produces.unknown (h : Produces run events last) : ∀ event ∈ events,
    event.eventType ∉ knownEventTypes ∧ determineNextState event.eventType = .created := by
  induction h with
  | nil run =>
    intro event hevent
    cases hevent
  | cons _ happly _ _ ih =>
    intro event hevent
    rcases mem_append.mp hevent with hevent | hevent
    · exact (applyTransition_unknown happly).2 event hevent
    · exact ih event hevent

theorem Produces.status_ne (h : Produces run events last) (hrun : run.status ≠ .created) :
    last.status ≠ .created := by
  induction h with
  | nil run => exact hrun
  | cons hvalid _ hstatus _ ih => exact ih (hstatus ▸ target_ne_created hvalid)

theorem deterministicReplay_unknown {stored : List (PersistedRuntimeEvent Payload)}
    (h : ∀ event ∈ stored, determineNextState event.eventType = .created) :
    deterministicReplay stored = [.created] := by
  have hfold : ∀ sorted : List (PersistedRuntimeEvent Payload), (∀ event ∈ sorted, event ∈ stored) →
      sorted.foldl replayEvent ([], .created) = ([], .created) := by
    intro sorted
    induction sorted with
    | nil => exact fun _ => rfl
    | cons event sorted ih =>
      intro hsub
      rw [foldl_cons, replayEvent, if_pos (h event (hsub event mem_cons_self))]
      exact ih fun other hother => hsub other (mem_cons_of_mem _ hother)
  rw [deterministicReplay, hfold _ fun event hevent => (mem_insertionSort _).mp hevent]
  rfl

def streamOf (run : TaskRun) (events : List (UncommittedRuntimeEvent Payload))
    (drawn : Nat → String) : List (PersistedRuntimeEvent Payload) :=
  (AppendCall.mk run.aggregateId events run.version 1).persisted drawn

/-- What a sequence of legal transitions produces is accepted only where there is no transition, and
replayed to where the sequence ends only where besides the run is in its first state. -/
theorem transitions_replay_iff (h : Produces run events last) (drawn : Nat → String) :
    ((∀ event ∈ events, Accepted event) ↔ events = []) ∧
    ((deterministicReplay (streamOf run events drawn)).getLast? = some last.status ↔
      events = [] ∧ run.status = .created) := by
  have hreplay : deterministicReplay (streamOf run events drawn) = [.created] := by
    apply deterministicReplay_unknown
    intro stored hstored
    obtain ⟨⟨event, i⟩, hevent, rfl⟩ := mem_map.mp hstored
    exact (h.unknown event (fst_mem_of_mem_zipIdx hevent)).2
  rw [hreplay, getLast?_singleton, Option.some.injEq]
  cases h with
  | nil run => simp [eq_comm]
  | cons hvalid happly hstatus hrest =>
    obtain ⟨hne, hunknown⟩ := applyTransition_unknown happly
    obtain ⟨event, hevent⟩ := exists_mem_of_ne_nil _ hne
    have hmoved := hrest.status_ne (hstatus ▸ target_ne_created hvalid)
    constructor
    · refine ⟨fun haccepted => ?_, fun hnil => absurd (append_eq_nil_iff.mp hnil).1 hne⟩
      have hknown := accepted_iff.mp (haccepted event (mem_append_left _ hevent))
      exact absurd hknown (hunknown event hevent).1
    · exact ⟨fun hsame => absurd hsame.symm hmoved,
        fun hnil => absurd (append_eq_nil_iff.mp hnil.1).1 hne⟩

def fresh : TaskRun where
  aggregateId := "run"
  version := 0
  status := .created
  strategy := .simple

def started : TaskRun := { fresh with version := 1, status := .planning }

def startedEvents : List (UncommittedRuntimeEvent Payload) :=
  [createEvent "TaskRunStateChanged" (.stateChanged .created .planning "StartPlanningCommand")
    ⟨"StartPlanningCommand", "c"⟩ "e"]

theorem produces_started : Produces fresh startedEvents started := by
  have happly : applyTransition fresh ⟨"StartPlanningCommand", "c"⟩ ("e", "") =
      .ok (startedEvents, started.version) := rfl
  simpa using Produces.cons rfl happly rfl (.nil started)

theorem started_replay :
    ((∀ event ∈ startedEvents, Accepted event) ↔ startedEvents = []) ∧
    ((deterministicReplay (streamOf fresh startedEvents fun _ => "")).getLast? = some .planning ↔
      startedEvents = [] ∧ fresh.status = .created) :=
  transitions_replay_iff produces_started fun _ => ""

/-- An empty store refuses the type of the event of a start of planning, and its replay stays in the
first state. -/
theorem start_planning_lost : Produces fresh startedEvents started ∧
    (∀ event ∈ startedEvents, checkEvent {} event =
      .error "Unknown event type: TaskRunStateChanged") ∧
    deterministicReplay (streamOf fresh startedEvents fun _ => "") = [.created] := by
  refine ⟨produces_started, ?_, by decide +kernel⟩
  intro event hevent
  obtain rfl := mem_singleton.mp hevent
  rfl

end TransitionReplay
