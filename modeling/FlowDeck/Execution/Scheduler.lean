import FlowDeck.Execution.PlanRepository

namespace ExecutionScheduler

open ExecutionContracts PlanRepository

inductive Outcome
  | succeeded | failed
  deriving DecidableEq

structure SchedulerResult where
  started : List String
  succeeded : List String
  failed : List String
  blocked : List String
  deriving DecidableEq

def sortTexts (texts : List String) : List String :=
  texts.insertionSort fun a b => CodeUnits.notAfter a b = true

/-- A dependency that will never be satisfied. -/
def unavailable (plan : ExecutionPlan) (dependency : String) : Bool :=
  plan.statusOf dependency = some .failed || plan.statusOf dependency = some .blocked ||
    plan.statusOf dependency = some .cancelled

def blockers (plan : ExecutionPlan) (w : ExecutionWorkstream) : List String :=
  w.dependsOn.filter (unavailable plan)

def blockable (plan : ExecutionPlan) (w : ExecutionWorkstream) : Bool :=
  (w.status = .planned || w.status = .ready) && !(blockers plan w).isEmpty

/-- One turn of the loop: every decision is taken on the plan read at its start. -/
def propagateOnce : PlanM (List String) := do
  let plan ← getPlan
  let hit := plan.workstreams.rows.filter (blockable plan)
  hit.forM fun w =>
    transitionWorkstream w.workstreamId .blocked (some "DEPENDENCY_FAILED") (blockers plan w)
  pure (hit.map fun w => w.workstreamId)

def propagateLoop : Nat → PlanM (List String)
  | 0 => pure []
  | turns + 1 => do
    let hit ← propagateOnce
    if hit = [] then pure []
    else do
      let rest ← propagateLoop turns
      pure (hit ++ rest)

/-- The loop ends after as many turns as there are workstreams, and one that changes nothing. -/
def propagateDependencyFailures : PlanM (List String) := do
  let plan ← getPlan
  let blocked ← propagateLoop (plan.workstreams.rows.length + 1)
  pure (sortTexts blocked.dedup)

/-- The statuses `finalizePlan` takes for final. -/
def ended : ExecutionWorkstreamStatus → Bool
  | .succeeded | .failed | .blocked | .cancelled | .integrated | .superseded => true
  | .planned | .ready | .running | .integration_pending => false

def fellThrough : ExecutionWorkstreamStatus → Bool
  | .failed | .blocked | .cancelled => true
  | _ => false

def finalizePlan : PlanM Unit := do
  let plan ← getPlan
  if plan.status = .running ∧ (plan.workstreams.rows.all fun w => ended w.status) ∧
      plan.workstreams.rows.any fun w => fellThrough w.status then
    transitionPlanStatus .failed
  else pure ()

section Run

variable (notAfter : String → String → Bool)

/-- What `runReady` does before its first dispatch: it returns what it will dispatch. -/
def beginRun : PlanM (List ExecutionWorkstream) := do
  let currentPlan ← getPlan
  if currentPlan.status = .planned then transitionPlanStatus .running else pure ()
  let plan ← getPlan
  (listReady notAfter plan).forM fun w => transitionWorkstream w.workstreamId .ready none []
  let plan ← getPlan
  pure (listReady notAfter plan)

def startOne (w : ExecutionWorkstream) : PlanM Unit :=
  transitionWorkstream w.workstreamId .running none []

def recordOutcome (result : String × Outcome) : PlanM Unit :=
  match result.2 with
  | .succeeded => transitionWorkstream result.1 .succeeded none []
  | .failed => transitionWorkstream result.1 .failed (some "WORKSTREAM_EXECUTION_FAILED") []

/-- What `runReady` does once every execution it waits for has ended. -/
def endRun (started : List String) (outcomes : List (String × Outcome)) :
    PlanM SchedulerResult := do
  let results := outcomes.insertionSort fun a b => notAfter a.1 b.1 = true
  results.forM recordOutcome
  let blocked ← propagateDependencyFailures
  finalizePlan
  pure
    { started := sortTexts started
      succeeded := sortTexts ((results.filter fun r => r.2 = .succeeded).map (·.1))
      failed := sortTexts ((results.filter fun r => r.2 = .failed).map (·.1))
      blocked := sortTexts blocked }

/-- `runReady`, with what each execution comes to; one that throws has failed. -/
def runReady (execute : String → Outcome) : PlanM SchedulerResult := do
  let dispatchable ← beginRun notAfter
  dispatchable.forM startOne
  let ids := dispatchable.map fun w => w.workstreamId
  endRun notAfter ids (ids.map fun id => (id, execute id))

end Run

end ExecutionScheduler

namespace WorktreeExecutor

open ExecutionContracts PlanRepository ExecutionScheduler

/-- What the executions, Git and the performance records come to, for each workstream. -/
structure Facts where
  execute : String → Outcome
  verified : String → Bool
  merge : String → Option String
  record : String → Option String

def recordIntegration (id : String) : PlanM Unit := fun plan =>
  .ok () { plan with integratedAttempts := plan.integratedAttempts ++ [id] }

/-- `integrate`, with the error of the first Git command or check that fails. -/
def integrate (id : String) (merge : Option String) : PlanM Unit := do
  let plan ← getPlan
  if plan.statusOf id ≠ some .succeeded ∧ plan.statusOf id ≠ some .integration_pending then
    throw "INTEGRATION_STATUS_INVALID"
  else if id ∈ plan.integratedAttempts then
    throw "INTEGRATION_ALREADY_COMPLETE"
  else
    match merge with
    | some error => throw error
    | none => do
      recordIntegration id
      transitionWorkstream id .integration_pending none []
      transitionWorkstream id .integrated none []

section Plan

variable (notAfter : String → String → Bool) (integrates : Bool) (facts : Facts)

/-- The record of a workstream's performance, which may raise an error. -/
def recordWorkstreamOutcome (id : String) : PlanM Unit :=
  match facts.record id with
  | some error => throw error
  | none => pure ()

/-- What `executePlan` tries for a workstream that has succeeded. -/
def tryIntegration (id : String) : PlanM Unit := do
  if integrates then
    if facts.verified id then integrate id (facts.merge id)
    else throw "VERIFICATION_REQUIRED_BEFORE_INTEGRATION"
  else pure ()
  recordWorkstreamOutcome facts id

def failIntegration (id : String) : PlanM Unit := do
  let plan ← getPlan
  if plan.statusOf id = some .succeeded then do
    transitionWorkstream id .integration_pending none []
    transitionWorkstream id .failed (some "INTEGRATION_FAILED") []
  else pure ()

/-- The attempt and its `catch`: whether the workstream stays among those that succeeded. -/
def integrateOne (id : String) : PlanM Bool := fun plan =>
  match tryIntegration integrates facts id plan with
  | .ok _ plan' => .ok true plan'
  | .error _ plan' => (failIntegration id >>= fun _ => pure false) plan'

def integrateAll : List String → SchedulerResult → PlanM SchedulerResult
  | [], result => pure result
  | id :: ids, result => do
    let kept ← integrateOne integrates facts id
    if kept then integrateAll ids result
    else
      integrateAll ids
        { result with
          succeeded := result.succeeded.filter fun other => decide (other ≠ id)
          failed := result.failed ++ [id] }

def wave : PlanM SchedulerResult := do
  let result ← runReady notAfter facts.execute
  let result ← integrateAll integrates facts (sortTexts result.succeeded) result
  let integrationBlocked ← propagateDependencyFailures
  pure { result with blocked := result.blocked ++ integrationBlocked }

structure Aggregate where
  succeeded : List String
  failed : List String
  blocked : List String
  deriving DecidableEq

def Aggregate.add (total : Aggregate) (result : SchedulerResult) : Aggregate where
  succeeded := total.succeeded ++ result.succeeded
  failed := total.failed ++ result.failed
  blocked := total.blocked ++ result.blocked

def waves : Nat → Aggregate → PlanM Aggregate
  | 0, total => pure total
  | left + 1, total => do
    let plan ← getPlan
    if listReady notAfter plan = [] then pure total
    else do
      let result ← wave notAfter integrates facts
      if result.started = [] then pure (total.add result)
      else waves left (total.add result)

def completed : ExecutionWorkstreamStatus → Bool
  | .succeeded | .integrated | .superseded => true
  | _ => false

/-- What `executePlan` does once its loop has ended. -/
def closePlan : PlanM Unit := do
  let finalPlan ← getPlan
  if finalPlan.status = .running ∧
      finalPlan.workstreams.rows.all fun w => completed w.status then
    transitionPlanStatus .succeeded
  else pure ()

/-- `executePlan`, as long as its worktrees, leases and budgets raise no error. -/
def executePlan : PlanM Aggregate := do
  let total ← waves notAfter integrates facts 100 { succeeded := [], failed := [], blocked := [] }
  closePlan
  pure
    { succeeded := sortTexts total.succeeded
      failed := sortTexts total.failed
      blocked := sortTexts total.blocked }

end Plan

end WorktreeExecutor
