import FlowDeck.Execution.WorktreeLease

namespace LeaseExclusion

open WorktreeLease WorktreeLease.Instant Machine List

def unexpired (now : Instant) (r : Lease) : Bool := now.before r.expiresAt

/-- A lease of the worktree or the workstream that has not run out. -/
def Held (s : LeaseState) (input : WorktreeLeaseInput) : Prop :=
  ∃ r ∈ s.leases.rows, shares r.toWorktreeLeaseInput input = true ∧ r.state.live = true ∧
    unexpired s.now r = true

/-- No two live leases of one worktree or workstream have time left. -/
def Exclusive (s : LeaseState) : Prop :=
  ∀ a ∈ s.leases.rows, ∀ b ∈ s.leases.rows, a.leaseId ≠ b.leaseId →
    shares a.toWorktreeLeaseInput b.toWorktreeLeaseInput = true →
      a.state.live = true → b.state.live = true →
        ¬(unexpired s.now a = true ∧ unexpired s.now b = true)

structure Sound (s : LeaseState) : Prop where
  unique : uniqueStates s.leases.rows = true
  exclusive : Exclusive s

variable {s : LeaseState}

/-- The state before the first lease. -/
def initial (now : Instant) (workstreams : List (String × String)) : LeaseState where
  now
  workstreams
  leases := .empty

end LeaseExclusion
