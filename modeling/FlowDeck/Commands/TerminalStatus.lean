import FlowDeck.Commands.CommandInvariants

namespace TerminalStatus

open Commands Machine

def statusOf (s : CommandState) (invocationId : String) : Option CommandInvocationStatus :=
  (s.invocations.get? invocationId).map fun row => row.status

/-- What has ended in the one state has ended in the same way in the other. -/
def Settled (s t : CommandState) : Prop :=
  ∀ invocationId status, statusOf s invocationId = some status → status.isTerminal = true →
    statusOf t invocationId = some status

/-- The save that a call goes on to, if any. -/
def saving (rt : Runtime) (s : CommandState) (e : Event) (call : Call) : Option CommandInvocation :=
  match advance rt s e call with
  | some (.save i, _) => some i
  | _ => none

/-- A call whose copy has not ended saves over a row that has only the status that is there. -/
def InTime (rt : Runtime) (s : CommandState) : Action → Prop
  | .event c e => ∀ call copy i status, s.calls c = some call → call.copy = some copy →
      copy.status.isTerminal = false → statusOf s copy.invocationId = some status →
        status.isTerminal = true → saving rt s e call = some i → i.status = status
  | _ => True

section Saves

variable {rt : Runtime} {s t : CommandState}

variable {i : CommandInvocation}

end Saves

end TerminalStatus
