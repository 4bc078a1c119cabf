import FlowDeck.Orchestration.ChildLifecycle

namespace ChildBarrier

open ChildExecution ChildLifecycle Machine Service Option

/-- A record that has ended carries no cancellation still waiting for its confirmation. -/
def Resolved (record : ChildExecutionRecord) : Prop :=
  isTerminalChildState record.status = true → cancelPending record = false

structure Clear (w : World) : Prop where
  objects : ∀ obj, Resolved (w.service.objects obj)
  stored : ∀ k record, w.db.children.get? k = some record → Resolved record

variable {record : ChildExecutionRecord} {service : Service} {w : World}

def exampleCompletion : List Action :=
  [.registerDelegation 0 exampleInput { now := 1 }, .resume 0 { now := 1 },
    .markCompleted 1 exampleChild none { now := 2 }]

end ChildBarrier
