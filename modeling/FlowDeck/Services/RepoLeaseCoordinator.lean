import FlowDeck.Library.Machine

/-! The lease file of one repository, and the calls of its coordinators split at each file
operation. -/

namespace RepoLeaseCoordinator

/-! ### The lease -/

/-- `mode` is the same in every lease, and no call sets a worktree. -/
structure RepoLease where
  owner : String
  acquiredAt : Int
  heartbeatAt : Int
  deriving DecidableEq

/-- A text of the state directory: that of a lease, or one that parses to none. -/
inductive Content
  | lease (lease : RepoLease)
  | unreadable
  deriving DecidableEq

/-- What `readLease` takes from the text: the owner must not be empty. -/
def Content.parse : Content → Option RepoLease
  | .lease stored => if stored.owner = "" then none else some stored
  | .unreadable => none

def readLease (file : Option Content) : Option RepoLease := file.bind Content.parse

def isStale (leaseTtlMs now : Int) (lease : RepoLease) : Bool :=
  decide (leaseTtlMs < now - lease.heartbeatAt)

/-- The check of `acquireMutatingLease`. -/
def mayAcquire (leaseTtlMs now : Int) (owner : String) : Option RepoLease → Bool
  | none => true
  | some existing => isStale leaseTtlMs now existing || decide (existing.owner = owner)

/-- The check of `heartbeat` and `releaseMutatingLease`. -/
def isOwner (owner : String) : Option RepoLease → Bool
  | none => false
  | some existing => decide (existing.owner = owner)

def getMutatingOwner (leaseTtlMs now : Int) (file : Option Content) : Option String :=
  match readLease file with
  | none => none
  | some existing => if isStale leaseTtlMs now existing then none else some existing.owner

def isSafeToMutate (leaseTtlMs now : Int) (file : Option Content) : Bool :=
  decide (getMutatingOwner leaseTtlMs now file = none)

/-! ### Calls -/

inductive Request
  | acquireMutatingLease
  | heartbeat
  | releaseMutatingLease
  deriving DecidableEq

/-- A call, with the longest wait that its coordinator is set to. -/
structure Call where
  request : Request
  owner : String
  maxWaitMs : Int := 10000
  deriving DecidableEq

/-- How far a call has come. The phases from `checking` to `removing` are each before one file
operation, `sleeping` apart. -/
inductive Phase
  | idle
  | checking (deadline : Int)
  | reading (deadline : Int)
  | sleeping (deadline : Int)
  /-- `mkdirSync`, then the text goes to a temporary file -/
  | making (lease : RepoLease)
  | writing (lease : RepoLease)
  | renaming (lease : RepoLease) (tmpFile : String)
  /-- the rename has failed -/
  | cleaning (tmpFile : String)
  | removing
  | acquired (lease : RepoLease)
  | unavailable (holder : String)
  | answered (held : Bool)
  | released
  | failed
  deriving DecidableEq

/-- `held` is no data of the code: it records each owner that has acquired and not released since,
with the time of its last heartbeat. -/
structure State where
  now : Int
  file : Option Content
  tmp : String → Option Content
  phases : Nat → Phase
  held : String → Option Int

def State.goto (s : State) (c : Nat) (phase : Phase) : State :=
  { s with phases := Function.update s.phases c phase }

/-- A release has returned. -/
def State.release (s : State) (c : Nat) (owner : String) : State :=
  { s.goto c .released with held := Function.update s.held owner none }

/-- Nothing has begun; files may have been left behind. -/
def start (now : Int) (file : Option Content) (tmp : String → Option Content) : State where
  now := now
  file := file
  tmp := tmp
  phases := fun _ => .idle
  held := fun _ => none

/-! ### Steps -/

inductive Action
  | begin (call : Nat)
  /-- the next operation of a call, or the end of its sleep -/
  | act (call : Nat)
  /-- the write to a temporary file, under the name that the call draws for it -/
  | write (call : Nat) (tmpFile : String)
  /-- the next operation fails; a write may leave a part of the text -/
  | fail (call : Nat) (tmpFile : String)
  /-- the clock shows another time -/
  | clock (now : Int)
  deriving DecidableEq

/-- What a call does once `readLease` has returned. -/
def decided (leaseTtlMs : Int) (call : Call) (s : State) (c : Nat) (deadline : Int)
    (existing : Option RepoLease) : State :=
  match call.request with
  | .acquireMutatingLease =>
    if mayAcquire leaseTtlMs s.now call.owner existing then
      s.goto c (.making ⟨call.owner, s.now, s.now⟩)
    else if deadline ≤ s.now then
      s.goto c (.unavailable ((existing.map (·.owner)).getD ""))
    else s.goto c (.sleeping deadline)
  | .heartbeat =>
    match existing with
    | some lease =>
      if isOwner call.owner existing then s.goto c (.making { lease with heartbeatAt := s.now })
      else s.goto c (.answered false)
    | none => s.goto c (.answered false)
  | .releaseMutatingLease =>
    if isOwner call.owner existing then s.goto c .removing else s.release c call.owner

/-- The lease is in place, and the call returns. -/
def State.written (s : State) (c : Nat) (call : Call) (lease : RepoLease) : State :=
  match call.request with
  | .acquireMutatingLease =>
    { s.goto c (.acquired lease) with
      held := Function.update s.held call.owner (some lease.heartbeatAt) }
  | _ =>
    { s.goto c (.answered true) with
      held := Function.update s.held call.owner
        ((s.held call.owner).map fun _ => lease.heartbeatAt) }

def act (leaseTtlMs : Int) (calls : Nat → Call) (s : State) (c : Nat) : Option State :=
  match s.phases c with
  | .checking deadline =>
    match s.file with
    | none => some (decided leaseTtlMs (calls c) s c deadline none)
    | some _ => some (s.goto c (.reading deadline))
  | .reading deadline => some (decided leaseTtlMs (calls c) s c deadline (readLease s.file))
  | .sleeping deadline => some (s.goto c (.checking deadline))
  | .making lease => some (s.goto c (.writing lease))
  | .renaming lease tmpFile =>
    match s.tmp tmpFile with
    | none => some (s.goto c (.cleaning tmpFile))
    | some content =>
      some { s.written c (calls c) lease with
        file := some content
        tmp := Function.update s.tmp tmpFile none }
  | .cleaning tmpFile =>
    some { s.goto c .failed with tmp := Function.update s.tmp tmpFile none }
  | .removing => some { s.release c (calls c).owner with file := none }
  | _ => none

def fail (leaseTtlMs : Int) (calls : Nat → Call) (s : State) (c : Nat) (tmpFile : String) :
    Option State :=
  match s.phases c with
  | .checking deadline => some (decided leaseTtlMs (calls c) s c deadline none)
  | .reading deadline => some (decided leaseTtlMs (calls c) s c deadline none)
  | .making _ => some (s.goto c .failed)
  | .writing _ =>
    some { s.goto c .failed with tmp := Function.update s.tmp tmpFile (some .unreadable) }
  | .renaming _ tmpFile => some (s.goto c (.cleaning tmpFile))
  | .cleaning _ => some (s.goto c .failed)
  | .removing => some (s.release c (calls c).owner)
  | _ => none

def step (leaseTtlMs : Int) (calls : Nat → Call) (s : State) : Action → Option State
  | .begin c =>
    if s.phases c = .idle then some (s.goto c (.checking (s.now + (calls c).maxWaitMs))) else none
  | .act c => act leaseTtlMs calls s c
  | .write c tmpFile =>
    match s.phases c with
    | .writing lease =>
      some { s.goto c (.renaming lease tmpFile) with
        tmp := Function.update s.tmp tmpFile (some (.lease lease)) }
    | _ => none
  | .fail c tmpFile => fail leaseTtlMs calls s c tmpFile
  | .clock now => some { s with now }

end RepoLeaseCoordinator
