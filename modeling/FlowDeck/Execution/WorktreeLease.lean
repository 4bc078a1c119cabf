import FlowDeck.Library.Numerals
import FlowDeck.Library.Machine
import FlowDeck.Library.Table

namespace WorktreeLease

open Decimal Machine

abbrev Text := List Char

/-- A time in UTC, down to the millisecond. -/
structure Instant where
  year : Nat
  month : Nat
  day : Nat
  hour : Nat
  minute : Nat
  second : Nat
  millis : Nat
  year_lt : year < 10000
  month_le : month ≤ 12
  day_le : day ≤ 31
  hour_lt : hour < 24
  minute_lt : minute < 60
  second_lt : second < 60
  millis_lt : millis < 1000
  deriving DecidableEq

namespace Instant

def date (t : Instant) : Nat := (t.year * 100 + t.month) * 100 + t.day

def clock (t : Instant) : Nat :=
  ((t.hour * 100 + t.minute) * 100 + t.second) * 1000 + t.millis

def before (a b : Instant) : Bool := a.date < b.date || a.date = b.date && a.clock < b.clock

/-- `YYYY-MM-DD`, followed by what is given. -/
def dateThen (t : Instant) (rest : Text) : Text :=
  pad 4 t.year ++ '-' :: (pad 2 t.month ++ '-' :: (pad 2 t.day ++ rest))

/-- `HH:MM:SS`, followed by what is given. -/
def clockThen (t : Instant) (rest : Text) : Text :=
  pad 2 t.hour ++ ':' :: (pad 2 t.minute ++ ':' :: (pad 2 t.second ++ rest))

/-- `Date.prototype.toISOString`. -/
def toISOString (t : Instant) : Text :=
  t.dateThen ('T' :: t.clockThen ('.' :: (pad 3 t.millis ++ ['Z'])))

/-- What SQLite returns for `datetime('now')`. -/
def datetimeNow (t : Instant) : Text := t.dateThen (' ' :: t.clockThen [])

end Instant

inductive ExecutionLeaseState
  | requested | allocated | active | renewing | completed | reclaimable | released | failed
  deriving DecidableEq

/-- `ACTIVE_LEASES`. -/
def ExecutionLeaseState.live : ExecutionLeaseState → Bool
  | .requested | .allocated | .active | .renewing => true
  | .completed | .reclaimable | .released | .failed => false

structure WorktreeLeaseInput where
  leaseId : String
  runId : String
  planId : String
  workstreamId : String
  agentId : String
  worktreeId : String
  workspace : String
  branch : String
  acquiredAt : Instant
  renewedAt : Instant
  expiresAt : Instant
  deriving DecidableEq

structure Lease extends WorktreeLeaseInput where
  state : ExecutionLeaseState
  deriving DecidableEq

def leaseKey (r : Lease) : String := r.leaseId

abbrev Leases := Table leaseKey

/-- Whether two leases are about one worktree or one workstream. -/
def shares (a b : WorktreeLeaseInput) : Bool :=
  a.worktreeId = b.worktreeId || a.workstreamId = b.workstreamId

inductive LeaseError
  | worktreeLeaseConflict | leaseNotActive | unique
  deriving DecidableEq

/-- `UNIQUE(worktree_id, state)` and `UNIQUE(workstream_id, state)`. -/
def uniqueStates (rows : List Lease) : Bool :=
  rows.all fun a => rows.all fun b =>
    a.leaseId = b.leaseId || !(shares a.toWorktreeLeaseInput b.toWorktreeLeaseInput &&
      a.state = b.state)

/-- `UPDATE … SET state WHERE p`, which the constraints may refuse. -/
def setState (leases : Leases) (p : Lease → Bool) (state : ExecutionLeaseState) :
    Except LeaseError Leases :=
  let updated := leases.update p (fun r => { r with state }) fun _ => rfl
  if uniqueStates updated.rows then .ok updated else .error .unique

/-- What the query of `acquireLease` takes for a live lease. -/
def found (now : Instant) (input : WorktreeLeaseInput) (r : Lease) : Bool :=
  shares r.toWorktreeLeaseInput input && r.state.live &&
    decide (now.datetimeNow < r.expiresAt.toISOString)

def acquireLease (now : Instant) (leases : Leases) (input : WorktreeLeaseInput) :
    Except LeaseError Leases :=
  if leases.rows.any (found now input) then .error .worktreeLeaseConflict
  else
    match leases.insert? { input with state := .allocated } with
    | none => .error .unique
    | some inserted => if uniqueStates inserted.rows then .ok inserted else .error .unique

def setActiveState (leases : Leases) (leaseId : String) (state : ExecutionLeaseState) :
    Except LeaseError Leases :=
  if (leases.get? leaseId).any fun r => r.state.live then
    setState leases (fun r => r.leaseId = leaseId) state
  else .error .leaseNotActive

def activateLease (leases : Leases) (leaseId : String) : Except LeaseError Leases :=
  setActiveState leases leaseId .active

def completeLease (leases : Leases) (leaseId : String) : Except LeaseError Leases :=
  setActiveState leases leaseId .completed

def releaseLease (leases : Leases) (leaseId : String) : Except LeaseError Leases :=
  setState leases (fun r => r.leaseId = leaseId && r.state ≠ .released) .released

def reclaimExpired (now : Instant) (leases : Leases) : Except LeaseError Leases :=
  setState leases (fun r => r.state.live && !decide (now.toISOString < r.expiresAt.toISOString))
    .reclaimable

/-- What `recoverAfterRestart` does to the leases of a workstream it finds running. -/
def reclaimWorkstream (leases : Leases) (planId workstreamId : String) :
    Except LeaseError Leases :=
  setState leases
    (fun r => r.planId = planId && r.workstreamId = workstreamId && r.state.live) .reclaimable

structure LeaseState where
  now : Instant
  workstreams : List (String × String)
  leases : Leases

inductive Action
  | wait (until_ : Instant)
  | acquire (input : WorktreeLeaseInput)
  | activate (leaseId : String)
  | complete (leaseId : String)
  | release (leaseId : String)
  | reclaimExpired
  | recover (planId workstreamId : String)

/-- A statement that fails leaves the leases as they were. -/
def LeaseState.commit (s : LeaseState) (result : Except LeaseError Leases) : LeaseState :=
  match result with
  | .ok leases => { s with leases }
  | .error _ => s

/-- Time does not run backwards, and a lease is asked for under an unused id for a workstream that
exists. -/
def step (s : LeaseState) : Action → Option LeaseState
  | .wait until_ => if until_.before s.now then none else some { s with now := until_ }
  | .acquire input =>
    if (input.planId, input.workstreamId) ∈ s.workstreams ∧
        s.leases.get? input.leaseId = none then
      some (s.commit (acquireLease s.now s.leases input))
    else none
  | .activate leaseId => some (s.commit (activateLease s.leases leaseId))
  | .complete leaseId => some (s.commit (completeLease s.leases leaseId))
  | .release leaseId => some (s.commit (releaseLease s.leases leaseId))
  | .reclaimExpired => some (s.commit (reclaimExpired s.now s.leases))
  | .recover planId workstreamId => some (s.commit (reclaimWorkstream s.leases planId workstreamId))

end WorktreeLease
