import FlowDeck.Library.Machine
import FlowDeck.Library.Table

namespace AssignmentBinding

structure ExecutionWorkstream where
  workstreamId : String
  resolvedAgent : String
  requiredCapability : String
  deriving DecidableEq

structure ExecutionPlan where
  planId : String
  runId : String
  workstreams : List ExecutionWorkstream

/-- A row of `assignment_execution_bindings`; those of one plan are unique by workstream. -/
structure AssignmentExecutionBinding where
  assignmentId : String
  runId : String
  planId : String
  workstreamId : String
  correlationId : String
  deriving DecidableEq

/-- A row of `assignments`, with the workstream that its creator named for it. -/
structure Assignment where
  id : String
  runId : String
  agentId : String
  description : String
  workstreamId : String
  deriving DecidableEq

/-- Where a call stands between the statements for one workstream. -/
inductive Phase
  | looking
  | reserving (assignmentId : String)
  | creating (assignmentId : String)
  | created (assignmentId : String)
  deriving DecidableEq

/-- A call of `ensureAssignments`: one that has crashed or thrown is gone. -/
inductive Caller
  | running (correlationId : String) (rest : List ExecutionWorkstream)
      (current : ExecutionWorkstream) (phase : Phase) (map : String → Option String)
  | finished (map : String → Option String)
  | gone

structure BindingState where
  bindings : Table AssignmentExecutionBinding.workstreamId
  assignments : Table Assignment.id
  calls : Nat → Option Caller
  drawn : List String

inductive Action
  | call (caller : Nat) (correlationId : String)
  | getByPlanAndWorkstream (caller : Nat) (uuid : String)
  | ensureBinding (caller : Nat)
  | createAssignment (caller : Nat) (inserted : Bool)
  | publish (caller : Nat) (published : Bool)
  | crash (caller : Nat)
  deriving DecidableEq

/-- The call goes on to the next workstream of the plan. -/
def proceed (correlationId : String) (map : String → Option String) :
    List ExecutionWorkstream → Caller
  | [] => .finished map
  | w :: rest => .running correlationId rest w .looking map

def BindingState.setCall (s : BindingState) (caller : Nat) (c : Caller) : BindingState :=
  { s with calls := Function.update s.calls caller (some c) }

def BindingState.bound (s : BindingState) (workstreamId : String) : Option String :=
  (s.bindings.get? workstreamId).map fun b => b.assignmentId

def ensureBinding (bindings : Table AssignmentExecutionBinding.workstreamId)
    (record : AssignmentExecutionBinding) : Table AssignmentExecutionBinding.workstreamId :=
  (bindings.insert? record).getD bindings

/-- The `catch` around the creation: the call goes on with the binding it finds, or throws. -/
def rebound (s : BindingState) (correlationId : String) (rest : List ExecutionWorkstream)
    (current : ExecutionWorkstream) (map : String → Option String) : Caller :=
  match s.bound current.workstreamId with
  | some assignmentId =>
    proceed correlationId (Function.update map current.workstreamId (some assignmentId)) rest
  | none => .gone

/-- A step of one caller; each has its own connection, and random identifiers never repeat. -/
def step (plan : ExecutionPlan) (s : BindingState) : Action → Option BindingState
  | .call caller correlationId =>
    if (s.calls caller).isNone then
      some (s.setCall caller (proceed correlationId (fun _ => none) plan.workstreams))
    else none
  | .getByPlanAndWorkstream caller uuid =>
    match s.calls caller with
    | some (.running correlationId rest current .looking map) =>
      match s.bound current.workstreamId with
      | some assignmentId =>
        some (s.setCall caller (proceed correlationId
          (Function.update map current.workstreamId (some assignmentId)) rest))
      | none =>
        if uuid ∈ s.drawn then none
        else
          some { s.setCall caller (.running correlationId rest current (.reserving uuid) map) with
            drawn := uuid :: s.drawn }
    | _ => none
  | .ensureBinding caller =>
    match s.calls caller with
    | some (.running correlationId rest current (.reserving assignmentId) map) =>
      some { s.setCall caller (.running correlationId rest current (.creating assignmentId) map) with
        bindings := AssignmentBinding.ensureBinding s.bindings
          { assignmentId, runId := plan.runId, planId := plan.planId
            workstreamId := current.workstreamId, correlationId } }
    | _ => none
  | .createAssignment caller inserted =>
    match s.calls caller with
    | some (.running correlationId rest current (.creating assignmentId) map) =>
      if inserted then
        (s.assignments.insert?
          { id := assignmentId, runId := plan.runId, agentId := current.resolvedAgent
            description := current.requiredCapability
            workstreamId := current.workstreamId }).map fun assignments =>
          { s.setCall caller (.running correlationId rest current (.created assignmentId) map) with
            assignments }
      else some (s.setCall caller (rebound s correlationId rest current map))
    | _ => none
  | .publish caller published =>
    match s.calls caller with
    | some (.running correlationId rest current (.created assignmentId) map) =>
      if published then
        some (s.setCall caller (proceed correlationId
          (Function.update map current.workstreamId (some assignmentId)) rest))
      else some (s.setCall caller (rebound s correlationId rest current map))
    | _ => none
  | .crash caller =>
    match s.calls caller with
    | some (.running _ _ _ _ _) => some (s.setCall caller .gone)
    | _ => none

def initial : BindingState where
  bindings := Table.empty
  assignments := Table.empty
  calls _ := none
  drawn := []

/-- What one step can do. -/
inductive Effect (plan : ExecutionPlan) (s t : BindingState) : Action → Prop
  | called {caller : Nat} {correlationId : String} (hidle : s.calls caller = none)
      (ht : t = s.setCall caller (proceed correlationId (fun _ => none) plan.workstreams)) :
      Effect plan s t (.call caller correlationId)
  | found {caller : Nat} {uuid correlationId assignmentId : String}
      {rest : List ExecutionWorkstream} {current : ExecutionWorkstream}
      {map : String → Option String}
      (hcall : s.calls caller = some (.running correlationId rest current .looking map))
      (hbound : s.bound current.workstreamId = some assignmentId)
      (ht : t = s.setCall caller (proceed correlationId
        (Function.update map current.workstreamId (some assignmentId)) rest)) :
      Effect plan s t (.getByPlanAndWorkstream caller uuid)
  | drew {caller : Nat} {uuid correlationId : String} {rest : List ExecutionWorkstream}
      {current : ExecutionWorkstream} {map : String → Option String}
      (hcall : s.calls caller = some (.running correlationId rest current .looking map))
      (hbound : s.bound current.workstreamId = none) (hfresh : uuid ∉ s.drawn)
      (ht : t = { s.setCall caller (.running correlationId rest current (.reserving uuid) map) with
        drawn := uuid :: s.drawn }) :
      Effect plan s t (.getByPlanAndWorkstream caller uuid)
  | reserved {caller : Nat} {correlationId assignmentId : String}
      {rest : List ExecutionWorkstream} {current : ExecutionWorkstream}
      {map : String → Option String}
      (hcall : s.calls caller =
        some (.running correlationId rest current (.reserving assignmentId) map))
      (ht : t = { s.setCall caller
          (.running correlationId rest current (.creating assignmentId) map) with
        bindings := ensureBinding s.bindings
          { assignmentId, runId := plan.runId, planId := plan.planId
            workstreamId := current.workstreamId, correlationId } }) :
      Effect plan s t (.ensureBinding caller)
  | inserted {caller : Nat} {correlationId assignmentId : String}
      {rest : List ExecutionWorkstream} {current : ExecutionWorkstream}
      {map : String → Option String} {assignments : Table Assignment.id}
      (hcall : s.calls caller =
        some (.running correlationId rest current (.creating assignmentId) map))
      (hinsert : s.assignments.insert?
        { id := assignmentId, runId := plan.runId, agentId := current.resolvedAgent
          description := current.requiredCapability
          workstreamId := current.workstreamId } = some assignments)
      (ht : t = { s.setCall caller
          (.running correlationId rest current (.created assignmentId) map) with assignments }) :
      Effect plan s t (.createAssignment caller true)
  | refused {caller : Nat} {correlationId assignmentId : String}
      {rest : List ExecutionWorkstream} {current : ExecutionWorkstream}
      {map : String → Option String}
      (hcall : s.calls caller =
        some (.running correlationId rest current (.creating assignmentId) map))
      (ht : t = s.setCall caller (rebound s correlationId rest current map)) :
      Effect plan s t (.createAssignment caller false)
  | published {caller : Nat} {correlationId assignmentId : String}
      {rest : List ExecutionWorkstream} {current : ExecutionWorkstream}
      {map : String → Option String}
      (hcall : s.calls caller =
        some (.running correlationId rest current (.created assignmentId) map))
      (ht : t = s.setCall caller (proceed correlationId
        (Function.update map current.workstreamId (some assignmentId)) rest)) :
      Effect plan s t (.publish caller true)
  | unpublished {caller : Nat} {correlationId assignmentId : String}
      {rest : List ExecutionWorkstream} {current : ExecutionWorkstream}
      {map : String → Option String}
      (hcall : s.calls caller =
        some (.running correlationId rest current (.created assignmentId) map))
      (ht : t = s.setCall caller (rebound s correlationId rest current map)) :
      Effect plan s t (.publish caller false)
  | crashed {caller : Nat} {correlationId : String} {rest : List ExecutionWorkstream}
      {current : ExecutionWorkstream} {phase : Phase} {map : String → Option String}
      (hcall : s.calls caller = some (.running correlationId rest current phase map))
      (ht : t = s.setCall caller .gone) : Effect plan s t (.crash caller)

theorem step_effect {plan : ExecutionPlan} {s t : BindingState} {a : Action}
    (h : step plan s a = some t) : Effect plan s t a := by
  cases a with
  | call caller correlationId =>
    simp only [step] at h
    split_ifs at h with hidle
    exact .called (Option.isNone_iff_eq_none.mp hidle) (Option.some.inj h).symm
  | getByPlanAndWorkstream caller uuid =>
    simp only [step] at h
    split at h
    · rename_i correlationId rest current map hcall
      split at h
      · rename_i assignmentId hbound
        exact .found hcall hbound (Option.some.inj h).symm
      · rename_i hbound
        split_ifs at h with hfresh
        exact .drew hcall hbound hfresh (Option.some.inj h).symm
    · cases h
  | ensureBinding caller =>
    simp only [step] at h
    split at h
    · rename_i correlationId rest current assignmentId map hcall
      exact .reserved hcall (Option.some.inj h).symm
    · cases h
  | createAssignment caller inserted =>
    simp only [step] at h
    split at h
    · rename_i correlationId rest current assignmentId map hcall
      cases inserted with
      | true =>
        obtain ⟨assignments, hinsert, ht⟩ := Option.map_eq_some_iff.mp h
        exact .inserted hcall hinsert ht.symm
      | false => exact .refused hcall (Option.some.inj h).symm
    · cases h
  | publish caller published =>
    simp only [step] at h
    split at h
    · rename_i correlationId rest current assignmentId map hcall
      cases published with
      | true => exact .published hcall (Option.some.inj h).symm
      | false => exact .unpublished hcall (Option.some.inj h).symm
    · cases h
  | crash caller =>
    simp only [step] at h
    split at h
    · rename_i correlationId rest current phase map hcall
      exact .crashed hcall (Option.some.inj h).symm
    · cases h

end AssignmentBinding
