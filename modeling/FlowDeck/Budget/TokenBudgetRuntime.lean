import FlowDeck.Budget.SessionTree

/-! The budget hooks of the plugin: a controller for each run, and for each session the queue of
the reservations that wait for their usage. -/

namespace TokenBudgetRuntime

open UsageStore BudgetController BudgetController.Controller

structure SessionBudgetContext where
  sessionID : String
  agent : String
  parentID : Option String
  runId : Option String
  deriving DecidableEq

structure PendingSlot where
  sessionID : String
  reservationId : String
  requestId : String
  deriving DecidableEq

structure PreDispatchResult where
  allowed : Bool
  reason : Option String
  runId : String
  remainingRun : ℚ
  deriving DecidableEq

/-- A reservation that `beforeDispatch` has handed out, with the run it was made in. -/
structure Handed where
  sessionID : String
  runId : String
  reservationId : String
  deriving DecidableEq

/-- `stored` is what the store of a run holds before its controller is made; without a directory to
persist to, that is nothing. `handed` and `reconciled` record what has happened: the reservations
handed out and the messages reconciled. -/
structure Runtime where
  config : ResolvedTokenBudgetConfig
  persistent : Bool
  stored : String → List UsageStoreEntry
  controllers : String → Option Controller
  runForSession : String → Option String
  pending : String → List PendingSlot
  handed : List Handed
  reconciled : List String

def maxPendingPerSession : Nat := 8

def start (config : ResolvedTokenBudgetConfig) (persistent : Bool)
    (stored : String → List UsageStoreEntry) : Runtime where
  config := config
  persistent := persistent
  stored := stored
  controllers := fun _ => none
  runForSession := fun _ => none
  pending := fun _ => []
  handed := []
  reconciled := []

/-! ### The controller of a session -/

def lookupRunId (s : Runtime) (ctx : SessionBudgetContext) : String :=
  match truthy ctx.runId with
  | some runId => runId
  | none =>
    match truthy (s.runForSession ctx.sessionID) with
    | some direct => direct
    | none =>
      match truthy ctx.parentID with
      | some parentID => (truthy (s.runForSession parentID)).getD parentID
      | none => ctx.sessionID

/-- Durable state is recovered where there is any. -/
def newController (s : Runtime) (runId : String) : Controller :=
  if s.persistent then
    let rebuilt := rebuildFromEntries (s.stored runId) runId
    if 0 < rebuilt.consumed || 0 < rebuilt.reserved || rebuilt.terminal.isSome then
      restore s.config runId (s.stored runId)
    else create s.config runId (s.stored runId)
  else create s.config runId []

/-- The run of the session with its controller; `none` where the run has none. -/
def getControllerForSession (s : Runtime) (ctx : SessionBudgetContext) :
    Option (String × Controller × Runtime) :=
  match truthy (s.runForSession ctx.sessionID) with
  | some runId => (s.controllers runId).map fun ctrl => (runId, ctrl, s)
  | none =>
    let runId := lookupRunId s ctx
    let ctrl := ((s.controllers runId).getD (newController s runId)).registerSession
      ctx.sessionID ctx.agent ctx.parentID
    some (runId, ctrl, { s with
      controllers := Function.update s.controllers runId (some ctrl)
      runForSession := Function.update s.runForSession ctx.sessionID (some runId) })

def Runtime.setController (s : Runtime) (runId : String) (ctrl : Controller) : Runtime :=
  { s with controllers := Function.update s.controllers runId (some ctrl) }

/-! ### The hooks -/

/-- What a call of `beforeDispatch` brings: the estimate of the message, and the ids drawn for the
reservation and for its request. -/
structure DispatchInput where
  estimate : Nat
  maxOutputTokens : Option ℚ
  reservationId : String
  requestUuid : String

def dispatchOptions (ctrl : Controller) (ctx : SessionBudgetContext) (input : DispatchInput) :
    ReserveRequestOptions where
  runId := ctrl.run.runId
  sessionId := ctx.sessionID
  agentId := ctx.agent
  parentSessionId := ctx.parentID
  assignmentId := none
  requestId := "req-" ++ ctx.sessionID ++ "-" ++ input.requestUuid
  attempt := none
  estimatedInputTokens := some input.estimate
  maxOutputTokens := input.maxOutputTokens

/-- A slot goes to the end of the queue, and the first one out where that makes it too long. -/
def enqueue (slots : List PendingSlot) (slot : PendingSlot) : List PendingSlot :=
  if maxPendingPerSession < (slots ++ [slot]).length then (slots ++ [slot]).tail
  else slots ++ [slot]

def beforeDispatch (s : Runtime) (ctx : SessionBudgetContext) (input : DispatchInput) :
    Option (PreDispatchResult × Runtime) :=
  if input.reservationId = "" then none
  else
    (getControllerForSession s ctx).bind fun (runId, ctrl, opened) =>
      (ctrl.reserveRequestSync input.reservationId (dispatchOptions ctrl ctx input)).map
        fun (result, ctrl') =>
          let reserved := opened.setController runId ctrl'
          if result.disabled then (⟨true, none, ctrl'.run.runId, ctrl'.remainingRun⟩, reserved)
          else
            (⟨result.allowed, result.reason, ctrl'.run.runId, ctrl'.remainingRun⟩,
              if result.allowed then
                let slot : PendingSlot :=
                  ⟨ctx.sessionID, result.reservationId, "req-" ++ ctx.sessionID⟩
                { reserved with
                  pending := Function.update reserved.pending ctx.sessionID
                    (enqueue (reserved.pending ctx.sessionID) slot)
                  handed := reserved.handed ++
                    [⟨ctx.sessionID, runId, result.reservationId⟩] }
              else reserved)

structure Message where
  id : String
  tokens : RawUsage
  error : Bool

def commitOptions (ctrl : Controller) (ctx : SessionBudgetContext) (msg : Message)
    (slot : Option PendingSlot) : CommitUsageOptions where
  runId := ctrl.run.runId
  sessionId := ctx.sessionID
  agentId := ctx.agent
  parentSessionId := ctx.parentID
  assignmentId := none
  requestId := "req-" ++ ctx.sessionID
  reservationId := slot.map (·.reservationId)
  messageId := some msg.id
  attempt := none
  usage := msg.tokens
  terminationReason := if msg.error then some "message_error" else none

/-- The slot is taken before the controller says whether the message is new. -/
def reconcileUsage (s : Runtime) (now : Nat) (ctx : SessionBudgetContext) (msg : Message) :
    Option Runtime :=
  (getControllerForSession s ctx).map fun (runId, ctrl, opened) =>
    let slots := opened.pending ctx.sessionID
    let ctrl' := (ctrl.commitUsageSync now (commitOptions ctrl ctx msg slots.head?)).2
    { opened.setController runId ctrl' with
      pending := Function.update opened.pending ctx.sessionID slots.tail
      reconciled := opened.reconciled ++ [msg.id] }

inductive Action
  | beforeDispatch (ctx : SessionBudgetContext) (input : DispatchInput)
  | reconcileUsage (now : Nat) (ctx : SessionBudgetContext) (msg : Message)

def step (s : Runtime) : Action → Option Runtime
  | .beforeDispatch ctx input => (beforeDispatch s ctx input).map (·.2)
  | .reconcileUsage now ctx msg => reconcileUsage s now ctx msg

end TokenBudgetRuntime
