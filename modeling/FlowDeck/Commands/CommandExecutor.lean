import FlowDeck.Commands.CommandRequests
import FlowDeck.Library.Machine

namespace Commands

open CommandFingerprint CommandSecurity

structure CommandDefinition where
  id : String
  version : Nat
  aliases : List String
  requiresPassedVerification : Bool
  deriving DecidableEq

structure CommandRegistry where
  definitions : List CommandDefinition

def latest : List CommandDefinition → Option CommandDefinition
  | [] => none
  | d :: rest =>
    match latest rest with
    | some best => if d.version < best.version then some best else some d
    | none => some d

def CommandRegistry.resolve (r : CommandRegistry) (idOrAlias : String) (version : Option Nat) :
    Except String CommandDefinition :=
  match r.definitions.find? fun d => idOrAlias = d.id ∨ idOrAlias ∈ d.aliases with
  | none => .error ("Command or alias '" ++ idOrAlias ++ "' not found in registry")
  | some named =>
    let versions := r.definitions.filter fun d => d.id = named.id
    match version with
    | some v =>
      match versions.find? fun d => d.version = v with
      | some d => .ok d
      | none =>
        .error ("Command '" ++ named.id ++ "' version " ++ toString v ++ " not found")
    | none =>
      match latest versions with
      | some d => .ok d
      | none => .error ("No versions registered for command '" ++ named.id ++ "'")

structure Runtime where
  platform : Platform
  registry : CommandRegistry

/-- What a call of `executeCommand` asks for, its command resolved. -/
structure Request where
  definition : CommandDefinition
  idempotencyKey : String
  input : Json

def Request.fingerprint (rt : Runtime) (r : Request) : String :=
  commandRequestFingerprint rt.platform r.definition.id r.definition.version r.input

structure CommandResult where
  invocationId : String
  commandId : String
  commandVersion : Nat
  taskRunId : Option String
  status : CommandInvocationStatus
  summary : String
  error : Option CommandError
  deriving DecidableEq

/-- An error that is thrown: one that carries a code of the recovery, or any other. -/
inductive Failure
  | recovery (code message : String)
  | other (code : Option String) (message : String)
  deriving DecidableEq

def Failure.error : Failure → CommandError
  | .recovery code message => { code, message }
  | .other code message => { code := code.getD "COMMAND_EXECUTION_ERROR", message }

inductive Answer
  | returned (result : CommandResult)
  | threw (failure : Failure)
  deriving DecidableEq

inductive Origin
  | fresh (request : Request)
  | recovery

/-- Where the work on an invocation stands, once its plan is there; from `scheduling` on it is in
`continueExecution`. -/
inductive Stage
  | binding
  | entering
  | scheduling
  | dispatched
  | verifying
  deriving DecidableEq

def Stage.continuing : Stage → Bool
  | .binding | .entering => false
  | .scheduling | .dispatched | .verifying => true

/-- A call between two of its steps; `invocation` is its own copy of the row. -/
inductive Call
  | inserting (request : Request)
  | rereading (request : Request) (invocation : CommandInvocation)
  | racing (request : Request)
  | submitted (request : Request) (answer : Answer)
  | compiling (request : Request) (invocation : CommandInvocation)
  | working (origin : Origin) (definition : CommandDefinition) (invocation : CommandInvocation)
      (stage : Stage)
  | executed (request : Request) (invocationId : String) (answer : Answer)
  | claiming (invocation : CommandInvocation)
  | awaiting (invocation : CommandInvocation)
  | loading (invocation : CommandInvocation)
  | releasing (invocationId : String) (answer : Answer)
  | cancelling (invocation : CommandInvocation) (reason : String)
  | ended (answer : Answer)
  | crashed (last : Call)

def Call.underWay : Call → Bool
  | .submitted _ _ | .executed _ _ _ | .ended _ | .crashed _ => false
  | _ => true

/-- `acquiredBy` is the call that took the claim last, until it gives it up; no column records it. -/
structure CommandState where
  invocations : Invocations
  claims : Claims
  acquiredBy : String → Option Nat
  now : Nat
  calls : Nat → Option Call
  drawn : List String

/-- What an awaited operation brings, or which statement a call goes on to. -/
inductive Event
  | insert (uuid : String)
  | reread
  | compiled (taskRunId : String)
  | bound
  | enter
  | scheduled (failedOrBlocked : Bool)
  | verify
  | complete
  | throws (failure : Failure)
  | acquire (busy : Bool)
  | poll (last : Bool)
  | load (run : Option String) (plan : Option (String × String))
  | release
  | cancel
  deriving DecidableEq

inductive Action
  | executeCommand (caller : Nat) (commandIdOrAlias : String) (version : Option Nat)
      (idempotencyKey : String) (input : Json)
  | cancelCommand (caller : Nat) (invocationId reason : String)
  | recoverCommand (caller : Nat) (invocationId : String)
  | event (caller : Nat) (e : Event)
  | crash (caller : Nat)
  | clock (now : Nat)

def failedResult (i : CommandInvocation) (code message : String)
    (projectedStatus : CommandInvocationStatus) : CommandResult where
  invocationId := i.invocationId
  commandId := i.commandId
  commandVersion := i.commandVersion
  taskRunId := i.taskRunId
  status := projectedStatus
  summary := message
  error := some { code, message }

def idempotencyConflict (i : CommandInvocation) : CommandResult :=
  failedResult i "COMMAND_IDEMPOTENCY_CONFLICT"
    "Idempotency key is already bound to an incompatible command request" .failed

def retrieved (i : CommandInvocation) : CommandResult where
  invocationId := i.invocationId
  commandId := i.commandId
  commandVersion := i.commandVersion
  taskRunId := i.taskRunId
  status := i.status
  summary := "Idempotent invocation retrieved (" ++ i.status.text ++ ")"
  error := none

def projectTerminal (i : CommandInvocation) : CommandResult where
  invocationId := i.invocationId
  commandId := i.commandId
  commandVersion := i.commandVersion
  taskRunId := i.taskRunId
  status := i.status
  summary := "Command is already " ++ i.status.text
  error := i.error

def compatible (rt : Runtime) (r : Request) (existing : CommandInvocation) : Bool :=
  existing.commandId = r.definition.id && existing.commandVersion = r.definition.version &&
    existing.requestFingerprint = r.fingerprint rt

def retrievable : List CommandInvocationStatus :=
  [.failed, .cancelled, .completed, .running, .verifying, .accepted, .pending]

/-- The start of `executeCommand`, up to its first look at the key. -/
def executeCommand (rt : Runtime) (s : CommandState) (commandIdOrAlias : String)
    (version : Option Nat) (idempotencyKey : String) (input : Json) : Call :=
  match rt.registry.resolve commandIdOrAlias version with
  | .error message => .ended (.threw (.other (some "NOT_FOUND") message))
  | .ok definition =>
    let request : Request := { definition, idempotencyKey, input }
    match getByIdempotencyKey s.invocations idempotencyKey with
    | none => .inserting request
    | some existing =>
      if compatible rt request existing = false then
        .submitted request (.returned (idempotencyConflict existing))
      else if existing.status ∈ retrievable then
        .submitted request (.returned (retrieved existing))
      else .inserting request

/-- The start of `cancelCommand`, up to its look at the row. -/
def cancelCommand (s : CommandState) (invocationId reason : String) : Call :=
  match getByInvocationId s.invocations invocationId with
  | none => .ended (.threw (.recovery "COMMAND_INVOCATION_NOT_FOUND" "Command invocation not found"))
  | some invocation =>
    if invocation.status.isTerminal then
      .ended (.returned (failedResult invocation "COMMAND_ALREADY_TERMINAL"
        ("Command is already " ++ invocation.status.text) .failed))
    else .cancelling invocation reason

/-- The start of `recoverCommand`, up to its look at the row. -/
def recoverCommand (s : CommandState) (invocationId : String) : Call :=
  match getByInvocationId s.invocations invocationId with
  | none => .ended (.threw (.recovery "COMMAND_INVOCATION_NOT_FOUND" "Command invocation not found"))
  | some invocation =>
    if invocation.status.isTerminal then .ended (.returned (projectTerminal invocation))
    else .claiming invocation

/-- The statement of a step that changes a table. -/
inductive Write
  | nothing
  | save (i : CommandInvocation)
  | acquire (invocationId : String)
  | release (invocationId : String)
  deriving DecidableEq

def newInvocation (rt : Runtime) (r : Request) (uuid : String) : CommandInvocation where
  invocationId := "inv_" ++ uuid
  commandId := r.definition.id
  commandVersion := r.definition.version
  idempotencyKey := r.idempotencyKey
  requestFingerprint := r.fingerprint rt
  status := .pending
  taskRunId := none
  planId := none
  error := none

/-- The call leaves `continueExecution`, or what comes before it, with this answer. -/
def Origin.finish (invocationId : String) (answer : Answer) : Origin → Call
  | .fresh request => .executed request invocationId answer
  | .recovery => .releasing invocationId answer

def cancelledResult (i : CommandInvocation) : CommandResult :=
  failedResult i "COMMAND_CANCELLED" ((i.error.map fun e => e.message).getD "Command cancelled")
    .cancelled

def Origin.failureText : Origin → String
  | .fresh _ => " failed: "
  | .recovery => " recovery failed: "

def failureResult (origin : Origin) (i : CommandInvocation) (failure : Failure) :
    CommandResult where
  invocationId := i.invocationId
  commandId := i.commandId
  commandVersion := i.commandVersion
  taskRunId := none
  status := .failed
  summary := "Command " ++ i.commandId ++ origin.failureText ++ failure.error.message
  error := some failure.error

def failedInvocation (i : CommandInvocation) (failure : Failure) : CommandInvocation :=
  { i with status := .failed, error := some failure.error }

/-- The `catch` blocks of `executeCommand` and `recoverCommand`. -/
def caught (origin : Origin) (i : CommandInvocation) (failure : Failure) : Write × Call :=
  match origin, failure with
  | .recovery, .recovery _ _ => (.nothing, origin.finish i.invocationId (.threw failure))
  | _, _ =>
    if i.status = .cancelled then
      (.nothing, origin.finish i.invocationId (.returned (cancelledResult i)))
    else
      (.save (failedInvocation i failure),
        origin.finish i.invocationId (.returned (failureResult origin i failure)))

def planIdOf (i : CommandInvocation) : String := "plan:" ++ i.invocationId

/-- The first contradiction that `validateGraph` finds. -/
def validateGraph (i : CommandInvocation) (run : Option String) (plan : Option (String × String)) :
    Option Failure :=
  if i.taskRunId.isSome ∧ run.isSome ∧ run ≠ i.taskRunId then
    some (.recovery "COMMAND_RECOVERY_GRAPH_CONTRADICTION"
      "Invocation Run reference contradicts durable Run")
  else if i.planId.isSome ∧ plan.isSome ∧ plan.map Prod.snd ≠ i.taskRunId then
    some (.recovery "COMMAND_RECOVERY_GRAPH_CONTRADICTION"
      "Invocation plan references a Run unrelated to the invocation Run")
  else if i.planId.isSome ∧ plan.isSome ∧ plan.map Prod.fst ≠ i.planId then
    some (.recovery "COMMAND_RECOVERY_GRAPH_CONTRADICTION"
      "Invocation plan id contradicts durable plan id")
  else none

def resumePoint (rt : Runtime) (i : CommandInvocation) (foundRun : Option String)
    (foundPlan : Option (String × String)) : Write × Call :=
  match rt.registry.resolve i.commandId (some i.commandVersion) with
  | .error _ =>
    caught .recovery i (.recovery "COMMAND_HISTORICAL_VERSION_UNRESOLVABLE"
      ("Historical command version " ++ toString i.commandVersion ++ " for " ++ i.commandId ++
        " is not registered"))
  | .ok definition =>
    let run := if i.taskRunId.isSome then foundRun else none
    let plan := if i.planId.isSome then foundPlan else none
    match validateGraph i run plan with
    | some failure => caught .recovery i failure
    | none =>
      if plan.isSome then (.nothing, .working .recovery definition i .binding)
      else if i.taskRunId = none ∨ run = none then
        caught .recovery i (.recovery "CANONICAL_RECOVERY_STATE_MISSING"
          "Invocation references no durable Run")
      else
        (.save { i with planId := some (planIdOf i) },
          .working .recovery definition { i with planId := some (planIdOf i) } .binding)

def withStatus (i : CommandInvocation) (status : CommandInvocationStatus) : CommandInvocation :=
  { i with status }

/-- What follows the schedule: the durable row is looked at, then the schedule's result. -/
def afterSchedule (s : CommandState) (origin : Origin) (definition : CommandDefinition)
    (i : CommandInvocation) (failedOrBlocked : Bool) : Write × Call :=
  match getByInvocationId s.invocations i.invocationId with
  | some durable =>
    if durable.status = .cancelled then
      caught origin { i with status := .cancelled, error := durable.error }
        (.recovery "COMMAND_CANCELLED"
          ((durable.error.map fun e => e.message).getD "Command cancelled"))
    else if failedOrBlocked then
      caught origin i (.recovery "CANONICAL_SCHEDULER_FAILED"
        "Canonical scheduler reported failed/blocked workstreams")
    else (.nothing, .working origin definition i .dispatched)
  | none =>
    if failedOrBlocked then
      caught origin i (.recovery "CANONICAL_SCHEDULER_FAILED"
        "Canonical scheduler reported failed/blocked workstreams")
    else (.nothing, .working origin definition i .dispatched)

def executedResult (definition : CommandDefinition) (i : CommandInvocation) : CommandResult where
  invocationId := i.invocationId
  commandId := definition.id
  commandVersion := definition.version
  taskRunId := i.taskRunId
  status := .completed
  summary := "Command " ++ definition.id ++ " v" ++ toString definition.version ++
    " executed successfully"
  error := none

/-- The pending row is inserted, unless the security check or the key refuses it. -/
def insertPending (rt : Runtime) (s : CommandState) (r : Request) (uuid : String) : Write × Call :=
  match enforceCommandSecurity r.input with
  | .error e => (.nothing, .submitted r (.threw (.other none e.message)))
  | .ok () =>
    match saveInvocation s.invocations (newInvocation rt r uuid) with
    | some _ => (.save (newInvocation rt r uuid), .compiling r (newInvocation rt r uuid))
    | none => (.nothing, .rereading r (newInvocation rt r uuid))

/-- The look at the key after the insert was refused, in the repository. -/
def rereadKey (rt : Runtime) (s : CommandState) (r : Request) (i : CommandInvocation) : Call :=
  match getByIdempotencyKey s.invocations r.idempotencyKey with
  | some existing =>
    if compatible rt r existing = false then .submitted r (.returned (idempotencyConflict i))
    else .racing r
  | none => .racing r

/-- The look at the key after a `CONCURRENCY_CONFLICT`. -/
def raceExisting (rt : Runtime) (s : CommandState) (r : Request) : Call :=
  match getByIdempotencyKey s.invocations r.idempotencyKey with
  | some existing =>
    if compatible rt r existing = false then
      .submitted r (.returned (idempotencyConflict existing))
    else .submitted r (.returned (retrieved existing))
  | none => .submitted r (.threw (.other none "CONCURRENCY_CONFLICT"))

/-- A poll of the row while another recoverer has the claim. -/
def awaitConcurrentRecovery (s : CommandState) (i : CommandInvocation) (last : Bool) : Call :=
  match getByInvocationId s.invocations i.invocationId with
  | some current =>
    if current.status.isTerminal then .ended (.returned (projectTerminal current))
    else if last then
      .ended (.returned { projectTerminal i with
        status := current.status, summary := "Recovery deferred to concurrent recoverer"
        error := none })
    else .awaiting i
  | none =>
    if last then
      .ended (.returned { projectTerminal i with
        summary := "Recovery deferred to concurrent recoverer", error := none })
    else .awaiting i

/-- The next step of a call: the statement it makes and where it stands after it. -/
def advance (rt : Runtime) (s : CommandState) : Event → Call → Option (Write × Call)
  | .insert uuid, .inserting r => some (insertPending rt s r uuid)
  | .reread, .rereading r i => some (.nothing, rereadKey rt s r i)
  | .reread, .racing r => some (.nothing, raceExisting rt s r)
  | .compiled taskRunId, .compiling r i =>
    let running := { i with
      status := .running, taskRunId := some taskRunId, planId := some (planIdOf i) }
    some (.save running, .working (.fresh r) r.definition running .binding)
  | .bound, .working (.fresh r) d i .binding => some (.nothing, .working (.fresh r) d i .scheduling)
  | .bound, .working .recovery d i .binding =>
    some (.save (withStatus i .running), .working .recovery d (withStatus i .running) .entering)
  | .enter, .working origin d i .entering => some (.nothing, .working origin d i .scheduling)
  | .scheduled failedOrBlocked, .working origin d i .scheduling =>
    some (afterSchedule s origin d i failedOrBlocked)
  | .verify, .working origin d i .dispatched =>
    if d.requiresPassedVerification then
      some (.save (withStatus i .verifying), .working origin d (withStatus i .verifying) .verifying)
    else none
  | .complete, .working origin d i stage =>
    if stage = .verifying ∨ stage = .dispatched ∧ d.requiresPassedVerification = false then
      some (.save (withStatus i .completed),
        origin.finish i.invocationId (.returned (executedResult d i)))
    else none
  | .throws failure, .compiling r i => some (caught (.fresh r) i failure)
  | .throws failure, .working origin _ i _ => some (caught origin i failure)
  | .throws failure, .loading i => some (caught .recovery i failure)
  | .throws failure, .cancelling _ _ => some (.nothing, .ended (.threw failure))
  | .acquire busy, .claiming i =>
    if busy || claimLive s.claims s.now i.invocationId then some (.nothing, .awaiting i)
    else some (.acquire i.invocationId, .loading i)
  | .poll last, .awaiting i => some (.nothing, awaitConcurrentRecovery s i last)
  | .load run plan, .loading i => some (resumePoint rt i run plan)
  | .release, .releasing invocationId answer => some (.release invocationId, .ended answer)
  | .cancel, .cancelling i reason =>
    let cancelled := { i with
      status := .cancelled, error := some { code := "COMMAND_CANCELLED", message := reason } }
    some (.save cancelled,
      .ended (.returned (failedResult cancelled "COMMAND_CANCELLED" reason .cancelled)))
  | _, _ => none

/-- A save that is refused ends the run; the one that may be refused looks first. -/
def CommandState.write (s : CommandState) (caller : Nat) : Write → Option CommandState
  | .nothing => some s
  | .save i => (saveInvocation s.invocations i).map fun invocations => { s with invocations }
  | .acquire invocationId =>
    (Commands.acquire s.claims s.now invocationId).map fun claims =>
      { s with claims, acquiredBy := Function.update s.acquiredBy invocationId (some caller) }
  | .release invocationId =>
    some { s with
      claims := Commands.release s.claims s.now invocationId
      acquiredBy :=
        if s.acquiredBy invocationId = some caller then
          Function.update s.acquiredBy invocationId none
        else s.acquiredBy }

def CommandState.setCall (s : CommandState) (caller : Nat) (call : Call) : CommandState :=
  { s with calls := Function.update s.calls caller (some call) }

/-- Random identifiers never repeat. -/
def CommandState.draw (s : CommandState) : Event → Option CommandState
  | .insert uuid => if uuid ∈ s.drawn then none else some { s with drawn := uuid :: s.drawn }
  | _ => some s

def CommandState.start (s : CommandState) (caller : Nat) (call : Call) : Option CommandState :=
  if (s.calls caller).isNone then some (s.setCall caller call) else none

def step (rt : Runtime) (s : CommandState) : Action → Option CommandState
  | .executeCommand caller commandIdOrAlias version idempotencyKey input =>
    s.start caller (executeCommand rt s commandIdOrAlias version idempotencyKey input)
  | .cancelCommand caller invocationId reason =>
    s.start caller (cancelCommand s invocationId reason)
  | .recoverCommand caller invocationId => s.start caller (recoverCommand s invocationId)
  | .event caller e =>
    match s.calls caller with
    | none => none
    | some call =>
      match advance rt s e call with
      | none => none
      | some (w, next) =>
        (s.draw e).bind fun drawn => (drawn.write caller w).map fun written =>
          written.setCall caller next
  | .crash caller =>
    match s.calls caller with
    | none => none
    | some call => if call.underWay then some (s.setCall caller (.crashed call)) else none
  | .clock now => some { s with now }

def initial : CommandState where
  invocations := Table.empty
  claims := Table.empty
  acquiredBy _ := none
  now := 0
  calls _ := none
  drawn := []

/-- A platform and a registry of one command, for concrete runs. -/
def planOnly : Runtime where
  platform := { localeCompare := fun _ _ => 0, sha256 := fun text => text }
  registry := { definitions := [
    { id := "plan", version := 1, aliases := [], requiresPassedVerification := false }] }

end Commands
