import FlowDeck.Library.Table
import FlowDeck.Library.Machine
import Mathlib.Data.List.Sort

/-! The tables of parallel delegation runs: which nodes may start, and what a transition of a node
does to the nodes behind it and to the run. -/

namespace ParallelEngine

inductive DelegationNodeAccess
  | read
  | write
  deriving DecidableEq

inductive DelegationNodeStatus
  | queued
  | reserved
  | dispatching
  | running
  | completed
  | failed
  | cancelPending
  | cancelled
  | blocked
  deriving DecidableEq

inductive DelegationRunStatus
  | queued
  | running
  | completed
  | failed
  | cancelled
  deriving DecidableEq

structure NodeRow where
  id : String
  runId : String
  dependencies : List String
  access : DelegationNodeAccess
  fileScopes : List String
  priority : Int
  status : DelegationNodeStatus
  childSessionId : Option String
  createdAt : Nat
  startedAt : Option Nat
  completedAt : Option Nat
  summary : Option String
  error : Option String
  result : Option String
  deriving DecidableEq

structure RunRow where
  runId : String
  status : DelegationRunStatus
  startedAt : Option Nat
  finishedAt : Option Nat
  deriving DecidableEq

/-- `heidi_delegation_runs` and `heidi_delegation_nodes`. -/
structure Database where
  runs : Table RunRow.runId
  nodes : Table NodeRow.id

def nodesOf (db : Database) (runId : String) : List NodeRow :=
  db.nodes.rows.filter fun node => node.runId = runId

/-- The nodes of a run as `getRun` lists them. -/
def listedNodes (db : Database) (runId : String) : List NodeRow :=
  (nodesOf db runId).insertionSort fun a b =>
    b.priority < a.priority ∨ a.priority = b.priority ∧ a.createdAt ≤ b.createdAt

def DelegationRunStatus.isTerminal : DelegationRunStatus → Bool
  | .completed | .failed | .cancelled => true
  | .queued | .running => false

def DelegationNodeStatus.isTerminal : DelegationNodeStatus → Bool
  | .completed | .failed | .cancelled | .blocked => true
  | _ => false

/-- A dependency with such a status keeps a node from ever starting. -/
def DelegationNodeStatus.isHalted : DelegationNodeStatus → Bool
  | .failed | .cancelled | .blocked => true
  | _ => false

def DelegationNodeStatus.isRunning : DelegationNodeStatus → Bool
  | .running | .dispatching | .reserved => true
  | _ => false

/-! ### `findRunnableNodes` -/

/-- The limits a search for runnable nodes works under. -/
structure Limits where
  configuredHardLimit : Nat
  tokenBudgetCapacity : Nat
  providerCapacity : Nat
  maxWriteChildren : Nat
  deriving DecidableEq

def Limits.effectiveConcurrency (limits : Limits) : Nat :=
  min limits.configuredHardLimit (min limits.tokenBudgetCapacity limits.providerCapacity)

def dependentCount (nodes : List NodeRow) (id : String) : Nat :=
  nodes.foldl (fun count node => count + node.dependencies.count id) 0

/-- Higher priority first, then more dependents, then the older node. -/
def startsBefore (nodes : List NodeRow) (a b : NodeRow) : Bool :=
  if a.priority ≠ b.priority then b.priority < a.priority
  else if dependentCount nodes a.id ≠ dependentCount nodes b.id then
    dependentCount nodes b.id < dependentCount nodes a.id
  else a.createdAt ≤ b.createdAt

def depsComplete (nodes : List NodeRow) (node : NodeRow) : Bool :=
  node.dependencies.all fun dep => nodes.any fun other => other.id = dep && other.status = .completed

def scopesConflict (a b : String) : Bool :=
  a = b || b.toList.isPrefixOf a.toList || a.toList.isPrefixOf b.toList

structure Selection where
  candidates : List NodeRow := []
  writeCount : Nat := 0

def writeScopes (nodes : List NodeRow) : List String :=
  (nodes.filter fun node => node.access = .write).flatMap (·.fileScopes)

/-- Look at one queued node: take it, or pass it over. -/
def consider (nodes running : List NodeRow) (maxWrite : Nat) (selection : Selection)
    (node : NodeRow) : Selection :=
  if !depsComplete nodes node then selection
  else if node.access = .write then
    if maxWrite ≤ (running.countP fun other => other.access = .write) + selection.writeCount then
      selection
    else if node.fileScopes.any fun scope =>
        (writeScopes running ++ writeScopes selection.candidates).any (scopesConflict · scope) then
      selection
    else ⟨selection.candidates ++ [node], selection.writeCount + 1⟩
  else { selection with candidates := selection.candidates ++ [node] }

def findRunnableNodes (db : Database) (runId : String) (limits : Limits) : List NodeRow :=
  match db.runs.get? runId with
  | none => []
  | some run =>
    if run.status.isTerminal then []
    else
      let nodes := listedNodes db runId
      let running := nodes.filter fun node => node.status.isRunning
      let availableSlots := limits.effectiveConcurrency - running.length
      let queued := (nodes.filter fun node => node.status = .queued).insertionSort fun a b =>
        startsBefore nodes a b = true
      let selection := queued.foldl (consider nodes running limits.maxWriteChildren) {}
      selection.candidates.take availableSlots

/-! ### `transitionNode` -/

structure TransitionDetail where
  childSessionId : Option String := none
  summary : Option String := none
  error : Option String := none
  result : Option String := none
  deriving DecidableEq

/-- A call of `transitionNode`. -/
structure Transition where
  nodeId : String
  status : DelegationNodeStatus
  detail : TransitionDetail
  now : Nat
  deriving DecidableEq

def NodeRow.withStatus (c : Transition) (node : NodeRow) : NodeRow :=
  { node with
    status := c.status
    childSessionId := c.detail.childSessionId.or node.childSessionId
    startedAt := if c.status = .running then node.startedAt.or (some c.now) else node.startedAt
    completedAt :=
      if c.status = .completed ∨ c.status = .failed ∨ c.status = .cancelled then some c.now
      else node.completedAt
    summary := c.detail.summary.or node.summary
    error := c.detail.error.or node.error
    result := c.detail.result.or node.result }

def writeStatus (db : Database) (c : Transition) : Database :=
  { db with nodes := db.nodes.update (fun node => node.id = c.nodeId) (·.withStatus c) fun _ => rfl }

def hasHaltedDep (nodes : List NodeRow) (node : NodeRow) : Bool :=
  nodes.any fun other => node.dependencies.contains other.id && other.status.isHalted

def blockDependents (db : Database) (runId : String) : Database :=
  let allNodes := nodesOf db runId
  { db with
    nodes := db.nodes.update
      (fun node => node.runId = runId && node.status = .queued && hasHaltedDep allNodes node)
      (fun node => { node with status := .blocked }) fun _ => rfl }

def RunRow.settled (nodes : List NodeRow) (now : Nat) (run : RunRow) : RunRow :=
  let isTerminal := nodes.all fun node => node.status.isTerminal
  let hasFailed := nodes.any fun node => node.status = .failed || node.status = .blocked
  { run with
    status :=
      if isTerminal then if hasFailed then .failed else .completed
      else .running
    startedAt := if isTerminal then run.startedAt else run.startedAt.or (some now)
    finishedAt := if isTerminal then some now else run.finishedAt }

def settleRun (db : Database) (runId : String) (now : Nat) : Database :=
  { db with
    runs := db.runs.update (fun run => run.runId = runId)
      (RunRow.settled (nodesOf db runId) now) fun _ => rfl }

/-- `NODE_NOT_FOUND` leaves the tables as they are. -/
def transitionNode (db : Database) (c : Transition) : Except String Database :=
  match db.nodes.get? c.nodeId with
  | none => .error ("NODE_NOT_FOUND:" ++ c.nodeId)
  | some node =>
    .ok (settleRun (blockDependents (writeStatus db c) node.runId) node.runId c.now)

/-! ### `recoverOnRestart` -/

def unknownWriteState : String :=
  "RESTART_RECOVERY: Unknown write state after process restart — flagged for review"

def recoveryOf (now : Nat) (node : NodeRow) : Option Transition :=
  if !node.status.isRunning then none
  else
    match node.access with
    | .write => some ⟨node.id, .blocked, { error := some unknownWriteState }, now⟩
    | .read => some ⟨node.id, .queued, {}, now⟩

def recoverRun (now : Nat) (db : Database) (runId : String) : Except String Database :=
  ((listedNodes db runId).filterMap (recoveryOf now)).foldlM transitionNode db

def recoverOnRestart (db : Database) (now : Nat) : Except String Database :=
  ((db.runs.rows.filter fun run => !run.status.isTerminal).map (·.runId)).foldlM
    (recoverRun now) db

end ParallelEngine
