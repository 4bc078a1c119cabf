import Mathlib.Algebra.Order.Ring.Rat
import FlowDeck.Library.InsertionMap
import FlowDeck.Library.Table

namespace UsageStore

/-- A string the source tests for truth: absent and empty count alike. -/
def truthy (text : Option String) : Option String := text.filter fun value => value ≠ ""

inductive ReservationStatus
  | reserved | committed | released | cancelled | disabled
  deriving DecidableEq

structure ReservationRecord where
  reservationId : String
  runId : String
  sessionId : String
  agentId : String
  parentSessionId : Option String
  assignmentId : Option String
  requestId : String
  attempt : Nat
  estimatedInput : ℚ
  maxOutput : ℚ
  claimed : ℚ
  status : ReservationStatus
  committedAt : Option Nat
  deriving DecidableEq

inductive UsageStatus
  | reserved | committed | released | rejected | cancelled | disabled
  deriving DecidableEq

structure NormalizedUsage where
  input : ℚ
  output : ℚ
  reasoning : ℚ
  cacheRead : ℚ
  cacheWrite : ℚ
  billable : ℚ
  deriving DecidableEq

structure TokenUsageRecord where
  runId : String
  sessionId : String
  parentSessionId : Option String
  assignmentId : Option String
  agent : String
  requestId : String
  reservationId : String
  messageId : Option String
  attempt : Nat
  usage : NormalizedUsage
  releasedUnused : Option ℚ
  terminationReason : Option String
  status : UsageStatus
  deriving DecidableEq

structure TerminalState where
  reason : String
  time : Nat
  deriving DecidableEq

inductive UsageStoreEntry
  | reservation (record : ReservationRecord) (terminationReason : Option String)
  | usage (record : TokenUsageRecord)
  | terminal (state : TerminalState)
  | warning (runId : String) (time : Nat)
  deriving DecidableEq

/-- The running state of `rebuildFromEntries`. -/
structure Rebuild where
  warningFired : Bool
  terminal : Option TerminalState
  byKey : InsertionMap String TokenUsageRecord
  reservationEntries : InsertionMap String ReservationRecord
  committedReservations : List String

def Rebuild.start : Rebuild where
  warningFired := false
  terminal := none
  byKey := .empty
  reservationEntries := .empty
  committedReservations := []

def Rebuild.entry (runId : String) (s : Rebuild) : UsageStoreEntry → Rebuild
  | .reservation record _ =>
    if 0 < record.claimed ∧ record.reservationId ≠ "" then
      { s with
        reservationEntries := s.reservationEntries.set record.reservationId
          { record with
            runId
            parentSessionId := truthy record.parentSessionId
            assignmentId := truthy record.assignmentId } }
    else s
  | .usage record =>
    let key := record.messageId.getD record.requestId
    let byKey := if key ≠ "" then s.byKey.set key record else s.byKey
    let rid := record.reservationId
    { s with
      byKey
      committedReservations :=
        if rid = "" ∨ rid ∈ s.committedReservations then s.committedReservations
        else s.committedReservations ++ [rid] }
  | .terminal state => { s with terminal := some state }
  | .warning _ _ => { s with warningFired := true }

structure RebuiltUsage where
  runId : String
  consumed : ℚ
  reserved : ℚ
  releasedUnused : ℚ
  terminal : Option TerminalState
  warningFired : Bool
  records : List TokenUsageRecord
  reservations : List ReservationRecord
  committedIds : List String

def Rebuild.active (s : Rebuild) : List ReservationRecord :=
  s.reservationEntries.values.filter fun r => r.status = .reserved

def Rebuild.committedClaim (s : Rebuild) (rid : String) : ℚ :=
  match s.reservationEntries.get? rid with
  | some r => if r.status = .reserved then r.claimed else 0
  | none => 0

def rebuildFromEntries (entries : List UsageStoreEntry) (runId : String) : RebuiltUsage :=
  let s := entries.foldl (Rebuild.entry runId) Rebuild.start
  let records := s.byKey.values
  { runId
    consumed := (records.map fun record => record.usage.billable).sum
    reserved := s.committedReservations.foldl
      (fun reserved rid => max 0 (reserved - s.committedClaim rid))
      (s.active.map fun r => r.claimed).sum
    releasedUnused := (records.map fun record => record.releasedUnused.getD 0).sum
    terminal := s.terminal
    warningFired := s.warningFired
    records
    reservations := s.active
    committedIds := s.committedReservations }

end UsageStore

namespace BudgetController

open UsageStore

structure ResolvedTokenBudgetConfig where
  enabled : Bool
  runTotal : ℚ
  childTotal : ℚ
  warningThreshold : ℚ
  hardStopThreshold : ℚ
  maxRequestInputTokens : ℚ
  maxRequestOutputTokens : ℚ

/-- Provider usage as it arrives; `none` where a field is not a finite number. -/
structure RawUsage where
  input : Option ℚ
  output : Option ℚ
  reasoning : Option ℚ
  cacheRead : Option ℚ
  cacheWrite : Option ℚ

structure AgentBudgetState where
  agentId : String
  sessionId : String
  parentSessionId : Option String
  ceiling : ℚ
  consumed : ℚ
  reserved : ℚ
  terminal : Option TerminalState
  deriving DecidableEq

inductive AssignmentStatus
  | active | completed | superseded | cancelled
  deriving DecidableEq

structure AssignmentBudgetState where
  assignmentId : String
  identity : String
  agentId : String
  consumed : ℚ
  reserved : ℚ
  status : AssignmentStatus
  deriving DecidableEq

structure RunBudgetState where
  runId : String
  ceiling : ℚ
  consumed : ℚ
  reserved : ℚ
  releasedUnused : ℚ
  warningFired : Bool
  terminal : Option TerminalState
  deriving DecidableEq

structure Controller where
  config : ResolvedTokenBudgetConfig
  run : RunBudgetState
  agents : Table AgentBudgetState.sessionId
  assignments : Table AssignmentBudgetState.assignmentId
  assignmentByIdentity : InsertionMap String String
  reservations : Table ReservationRecord.reservationId
  records : List TokenUsageRecord
  committedKeys : List String
  /-- What the store holds for the run. -/
  entries : List UsageStoreEntry

def create (config : ResolvedTokenBudgetConfig) (runId : String)
    (entries : List UsageStoreEntry) : Controller where
  config
  run :=
    { runId
      ceiling := config.runTotal
      consumed := 0
      reserved := 0
      releasedUnused := 0
      warningFired := false
      terminal := none }
  agents := .empty
  assignments := .empty
  assignmentByIdentity := .empty
  reservations := .empty
  records := []
  committedKeys := []
  entries

def clamp (n lo hi : ℚ) : ℚ := max lo (min hi n)

def finiteOr (v : Option ℚ) (fallback : ℚ) : ℚ :=
  match v with
  | some n => if 0 ≤ n then n else fallback
  | none => fallback

def normalizeUsage (raw : RawUsage) (fallbackInput : ℚ) : NormalizedUsage :=
  let input := finiteOr raw.input fallbackInput
  let output := finiteOr raw.output 0
  let reasoning := finiteOr raw.reasoning 0
  let cacheRead := finiteOr raw.cacheRead 0
  let cacheWrite := finiteOr raw.cacheWrite 0
  { input, output, reasoning, cacheRead, cacheWrite
    billable := input + output + reasoning + cacheRead + cacheWrite }

def noUsage : NormalizedUsage := ⟨0, 0, 0, 0, 0, 0⟩

namespace Controller

def remainingRun (s : Controller) : ℚ := max 0 (s.run.ceiling - s.run.consumed - s.run.reserved)

def append (s : Controller) (entry : UsageStoreEntry) : Controller :=
  { s with entries := s.entries ++ [entry] }

def updateAgent (s : Controller) (sessionId : String)
    (f : AgentBudgetState → AgentBudgetState) (hf : ∀ a, (f a).sessionId = a.sessionId) :
    Controller :=
  { s with agents := s.agents.update (fun a => decide (a.sessionId = sessionId)) f hf }

def updateAssignment (s : Controller) (assignmentId : String)
    (f : AssignmentBudgetState → AssignmentBudgetState)
    (hf : ∀ a, (f a).assignmentId = a.assignmentId) : Controller :=
  { s with
    assignments := s.assignments.update (fun a => decide (a.assignmentId = assignmentId)) f hf }

def newAgent (s : Controller) (sessionId agentId : String) (parentSessionId : Option String) :
    AgentBudgetState where
  agentId
  sessionId
  parentSessionId
  ceiling :=
    if truthy parentSessionId = none then s.run.ceiling
    else min s.config.childTotal s.run.ceiling
  consumed := 0
  reserved := 0
  terminal := none

/-- A session that is registered already keeps its state. -/
def registerSession (s : Controller) (sessionId agentId : String)
    (parentSessionId : Option String) : Controller :=
  match s.agents.insert? (s.newAgent sessionId agentId parentSessionId) with
  | some agents => { s with agents }
  | none => s

def assignmentIdentity (runId assignmentType agentId scope sha : String) : String :=
  "|".intercalate [runId, assignmentType, agentId, scope, sha]

/-- An id drawn by `randomUUID` for an assignment is not empty and names nothing yet. -/
def freshAssignment (s : Controller) (assignmentId : String) : Bool :=
  assignmentId ≠ "" && (s.assignments.get? assignmentId).isNone &&
    s.reservations.rows.all fun r => r.assignmentId ≠ some assignmentId

def ensureAssignment (s : Controller) (uuid agentId assignmentType scope sha : String) :
    Option Controller :=
  let identity := assignmentIdentity s.run.runId assignmentType agentId scope sha
  let existing := (truthy (s.assignmentByIdentity.get? identity)).bind s.assignments.get?
  if existing.any fun a => a.status = .active then some s
  else if s.freshAssignment uuid then
    (s.assignments.insert? ⟨uuid, identity, agentId, 0, 0, .active⟩).map fun assignments =>
      { s with assignments, assignmentByIdentity := s.assignmentByIdentity.set identity uuid }
  else none

/-- `completeAssignment` and `supersedeAssignment`: an active assignment gives up its identity. -/
def closeAssignment (status : AssignmentStatus) (s : Controller) (assignmentId : String) :
    Controller :=
  match s.assignments.get? assignmentId with
  | some a =>
    if a.status = .active then
      { s.updateAssignment assignmentId (fun a => { a with status }) (fun _ => rfl) with
        assignmentByIdentity := s.assignmentByIdentity.delete a.identity }
    else s
  | none => s

def completeAssignment : Controller → String → Controller := closeAssignment .completed

def supersedeAssignment : Controller → String → Controller := closeAssignment .superseded

end Controller

structure ReserveRequestOptions where
  runId : String
  sessionId : String
  agentId : String
  parentSessionId : Option String
  assignmentId : Option String
  requestId : String
  attempt : Option Nat
  estimatedInputTokens : Option ℚ
  maxOutputTokens : Option ℚ

structure ReservationResult where
  allowed : Bool
  reservationId : String
  reason : Option String
  disabled : Bool
  remainingRun : ℚ
  claimed : ℚ
  deriving DecidableEq

namespace ReserveRequestOptions

def estimatedInput (opts : ReserveRequestOptions) (config : ResolvedTokenBudgetConfig) : ℚ :=
  clamp (finiteOr opts.estimatedInputTokens 0) 0 config.maxRequestInputTokens

def maxOutput (opts : ReserveRequestOptions) (config : ResolvedTokenBudgetConfig) : ℚ :=
  clamp (finiteOr opts.maxOutputTokens 0) 0 config.maxRequestOutputTokens

def need (opts : ReserveRequestOptions) (config : ResolvedTokenBudgetConfig) : ℚ :=
  opts.estimatedInput config + opts.maxOutput config

def buildRecord (opts : ReserveRequestOptions) (reservationId : String) (status : UsageStatus)
    (terminationReason : Option String) : TokenUsageRecord where
  runId := opts.runId
  sessionId := opts.sessionId
  parentSessionId := opts.parentSessionId
  assignmentId := opts.assignmentId
  agent := opts.agentId
  requestId := opts.requestId
  reservationId
  messageId := none
  attempt := opts.attempt.getD 1
  usage := noUsage
  releasedUnused := none
  terminationReason
  status

end ReserveRequestOptions

namespace Controller

def recordUsage (s : Controller) (record : TokenUsageRecord) : Controller :=
  { s with records := s.records ++ [record] }

def reject (s : Controller) (opts : ReserveRequestOptions)
    (reservationId terminationReason reason : String) : ReservationResult × Controller :=
  (⟨false, reservationId, some reason, false, s.remainingRun, 0⟩,
    s.recordUsage (opts.buildRecord reservationId .rejected (some terminationReason)))

def newReservation (s : Controller) (reservationId : String) (opts : ReserveRequestOptions) :
    ReservationRecord where
  reservationId
  runId := s.run.runId
  sessionId := opts.sessionId
  agentId := opts.agentId
  parentSessionId := opts.parentSessionId
  assignmentId := opts.assignmentId
  requestId := opts.requestId
  attempt := opts.attempt.getD 1
  estimatedInput := opts.estimatedInput s.config
  maxOutput := opts.maxOutput s.config
  claimed := opts.need s.config
  status := .reserved
  committedAt := none

def claim (s : Controller) (r : ReservationRecord) : Controller :=
  let s := { s with run := { s.run with reserved := s.run.reserved + r.claimed } }
  let s := s.updateAgent r.sessionId (fun a => { a with reserved := a.reserved + r.claimed })
    fun _ => rfl
  match truthy r.assignmentId with
  | some assignmentId =>
    s.updateAssignment assignmentId (fun a => { a with reserved := a.reserved + r.claimed })
      fun _ => rfl
  | none => s

/-- What follows once the session is known and neither it nor the run is terminal. -/
def reserveFor (s : Controller) (reservationId : String) (opts : ReserveRequestOptions)
    (agent : AgentBudgetState) : Option (ReservationResult × Controller) :=
  let need := opts.need s.config
  if s.remainingRun < need then
    some (s.reject opts reservationId "budget_exhausted" "BUDGET_EXHAUSTED")
  else if agent.ceiling - agent.consumed - agent.reserved < need then
    some (s.reject opts reservationId "child_budget_exhausted" "CHILD_BUDGET_EXHAUSTED")
  else
    let record := s.newReservation reservationId opts
    (s.reservations.insert? record).map fun reservations =>
      let s' := ({ s.claim record with reservations }).append (.reservation record none)
      (⟨true, reservationId, none, false, s'.remainingRun, need⟩, s')

/-- `reserveRequestSync`, with the id that `randomUUID` draws; an id in use is not drawn again. -/
def reserveRequestSync (s : Controller) (reservationId : String) (opts : ReserveRequestOptions) :
    Option (ReservationResult × Controller) :=
  if s.config.enabled = false then
    some (⟨true, reservationId, none, true, s.remainingRun, 0⟩,
      s.recordUsage (opts.buildRecord reservationId .disabled none))
  else
    match s.run.terminal with
    | some terminal =>
      some (s.reject opts reservationId terminal.reason ("RUN_TERMINAL:" ++ terminal.reason))
    | none =>
      let s := s.registerSession opts.sessionId opts.agentId opts.parentSessionId
      match s.agents.get? opts.sessionId with
      | none => none
      | some agent =>
        match agent.terminal with
        | some terminal =>
          some (s.reject opts reservationId terminal.reason
            ("SESSION_TERMINAL:" ++ terminal.reason))
        | none => s.reserveFor reservationId opts agent

end Controller

structure CommitUsageOptions where
  runId : String
  sessionId : String
  agentId : String
  parentSessionId : Option String
  assignmentId : Option String
  requestId : String
  reservationId : Option String
  messageId : Option String
  attempt : Option Nat
  usage : RawUsage
  terminationReason : Option String

structure CommitResult where
  committed : Bool
  releasedUnused : ℚ
  remainingRun : ℚ
  warningFired : Bool
  terminal : Option TerminalState
  billable : ℚ
  deriving DecidableEq

namespace Controller

/-- The body of every cancelling loop. -/
def cancelRecord (terminationReason : Option String) (s : Controller) (r : ReservationRecord) :
    Controller :=
  let cancelled := { r with status := .cancelled }
  let s :=
    { s with
      reservations := s.reservations.upsert cancelled
      run := { s.run with reserved := max 0 (s.run.reserved - r.claimed) } }
  (s.updateAgent r.sessionId (fun a => { a with reserved := max 0 (a.reserved - r.claimed) })
    fun _ => rfl).append (.reservation cancelled terminationReason)

def reservedWhere (s : Controller) (p : ReservationRecord → Bool) : List ReservationRecord :=
  s.reservations.rows.filter fun r => r.status = .reserved && p r

def cancelWhere (s : Controller) (p : ReservationRecord → Bool) : Controller :=
  (s.reservedWhere p).foldl (cancelRecord none) s

def cancelAllReservations (s : Controller) : Controller := s.cancelWhere fun _ => true

def namedReservation (s : Controller) (opts : CommitUsageOptions) : Option ReservationRecord :=
  (truthy opts.reservationId).bind s.reservations.get?

def usageOf (s : Controller) (opts : CommitUsageOptions) : NormalizedUsage :=
  normalizeUsage opts.usage (((s.namedReservation opts).map fun r => r.estimatedInput).getD 0)

def dedupKey (opts : CommitUsageOptions) : String := opts.messageId.getD opts.requestId

def isDuplicate (s : Controller) (opts : CommitUsageOptions) : Bool :=
  dedupKey opts ≠ "" && s.committedKeys.contains (dedupKey opts)

/-- The claim of a committed reservation comes off the session that the commit names. -/
def releaseClaim (s : Controller) (now : Nat) (opts : CommitUsageOptions) (r : ReservationRecord)
    (billable : ℚ) : Controller :=
  let s :=
    { s with
      reservations := s.reservations.upsert
        { r with status := .committed, committedAt := some now }
      run :=
        { s.run with
          reserved := max 0 (s.run.reserved - r.claimed)
          releasedUnused := s.run.releasedUnused + max 0 (r.claimed - billable) } }
  let s := s.updateAgent opts.sessionId
    (fun a => { a with reserved := max 0 (a.reserved - r.claimed) }) fun _ => rfl
  match truthy r.assignmentId with
  | some assignmentId =>
    s.updateAssignment assignmentId
      (fun a => { a with reserved := max 0 (a.reserved - r.claimed) }) fun _ => rfl
  | none => s

def chargeUsage (s : Controller) (opts : CommitUsageOptions)
    (reservation : Option ReservationRecord) (billable : ℚ) : Controller :=
  let s := { s with run := { s.run with consumed := s.run.consumed + billable } }
  let s := s.registerSession opts.sessionId opts.agentId opts.parentSessionId
  let s := s.updateAgent opts.sessionId (fun a => { a with consumed := a.consumed + billable })
    fun _ => rfl
  match reservation.bind fun r => truthy r.assignmentId with
  | some assignmentId =>
    s.updateAssignment assignmentId (fun a => { a with consumed := a.consumed + billable })
      fun _ => rfl
  | none => s

def usageRecord (opts : CommitUsageOptions) (reservation : Option ReservationRecord)
    (usage : NormalizedUsage) (releasedUnused : ℚ) : TokenUsageRecord where
  runId := opts.runId
  sessionId := opts.sessionId
  parentSessionId := opts.parentSessionId
  assignmentId := opts.assignmentId
  agent := opts.agentId
  requestId := opts.requestId
  reservationId := (reservation.map fun r => r.reservationId).getD ""
  messageId := opts.messageId
  attempt := (opts.attempt.or (reservation.map fun r => r.attempt)).getD 1
  usage
  releasedUnused := some releasedUnused
  terminationReason := opts.terminationReason
  status := .committed

def warns (s : Controller) : Bool :=
  !s.run.warningFired && s.config.warningThreshold * s.run.ceiling ≤ s.run.consumed

def warn (now : Nat) (s : Controller) : Controller :=
  if s.warns then
    { s with run := { s.run with warningFired := true } }.append (.warning s.run.runId now)
  else s

def hardStops (s : Controller) : Bool :=
  s.run.terminal.isNone && s.config.hardStopThreshold * s.run.ceiling ≤ s.run.consumed

def setTerminal (s : Controller) (state : TerminalState) : Controller :=
  { s with run := { s.run with terminal := some state } }.append (.terminal state)

def hardStop (now : Nat) (s : Controller) : Controller :=
  if s.hardStops then (s.setTerminal ⟨"budget_exhausted", now⟩).cancelAllReservations else s

def released (s : Controller) (opts : CommitUsageOptions) : Option ReservationRecord :=
  (s.namedReservation opts).filter fun r => r.status = .reserved

/-- A commit up to its warning and its hard stop. -/
def commitCharge (s : Controller) (now : Nat) (opts : CommitUsageOptions) : Controller :=
  let reservation := s.namedReservation opts
  let usage := s.usageOf opts
  let releasedUnused := ((s.released opts).map fun r => max 0 (r.claimed - usage.billable)).getD 0
  let s :=
    match s.released opts with
    | some r => s.releaseClaim now opts r usage.billable
    | none => s
  let s := s.chargeUsage opts reservation usage.billable
  let s :=
    { s with
      committedKeys :=
        if dedupKey opts = "" then s.committedKeys else s.committedKeys ++ [dedupKey opts] }
  let record := usageRecord opts reservation usage releasedUnused
  (s.recordUsage record).append (.usage record)

def commitUsageSync (s : Controller) (now : Nat) (opts : CommitUsageOptions) :
    CommitResult × Controller :=
  if s.isDuplicate opts then
    (⟨false, 0, s.remainingRun, s.run.warningFired, s.run.terminal, 0⟩, s)
  else
    let billable := (s.usageOf opts).billable
    let releasedUnused := ((s.released opts).map fun r => max 0 (r.claimed - billable)).getD 0
    let charged := s.commitCharge now opts
    let stopped := (charged.warn now).hardStop now
    (⟨true, releasedUnused, stopped.remainingRun, charged.warns, stopped.run.terminal, billable⟩,
      stopped)

def endSessions (s : Controller) (p : AgentBudgetState → Bool) (state : TerminalState) :
    Controller :=
  { s with
    agents := s.agents.update (fun a => a.terminal.isNone && p a)
      (fun a => { a with terminal := some state }) fun _ => rfl }

def terminate (s : Controller) (now : Nat) (reason : String) : Controller :=
  if s.run.terminal.isSome then s
  else ((s.setTerminal ⟨reason, now⟩).cancelAllReservations).endSessions (fun _ => true)
    ⟨reason, now⟩

def affected (s : Controller) (sessionId : String) (candidate : String) : Bool :=
  candidate = sessionId ||
    s.agents.rows.any fun a => a.parentSessionId = some sessionId && a.sessionId = candidate

def cancelSession (s : Controller) (now : Nat) (sessionId reason : String) : Controller :=
  let s := s.endSessions (fun a => a.sessionId = sessionId) ⟨reason, now⟩
  let s := s.endSessions (fun a => a.parentSessionId = some sessionId) ⟨reason, now⟩
  s.cancelWhere fun r => s.affected sessionId r.sessionId

def cancelReservation (s : Controller) (reservationId reason : String) : Bool × Controller :=
  match s.reservations.get? reservationId with
  | some r =>
    if r.status = .reserved then (true, cancelRecord (some reason) s r) else (false, s)
  | none => (false, s)

/-- An active reservation found in the store, claimed again on the sessions and assignments. -/
def restoreReservation (s : Controller) (r : ReservationRecord) : Controller :=
  let s := s.registerSession r.sessionId r.agentId r.parentSessionId
  let s := s.updateAgent r.sessionId (fun a => { a with reserved := a.reserved + r.claimed })
    fun _ => rfl
  let s :=
    match truthy r.assignmentId with
    | none => s
    | some assignmentId =>
      match s.assignments.insert? ⟨assignmentId, "restored|" ++ assignmentId, r.agentId, 0,
          r.claimed, .active⟩ with
      | some assignments =>
        { s with
          assignments
          assignmentByIdentity :=
            s.assignmentByIdentity.set ("restored|" ++ assignmentId) assignmentId }
      | none =>
        s.updateAssignment assignmentId (fun a => { a with reserved := a.reserved + r.claimed })
          fun _ => rfl
  { s with
    reservations := s.reservations.upsert { r with status := .reserved, committedAt := none } }

def restoreRecord (s : Controller) (record : TokenUsageRecord) : Controller :=
  let s := s.recordUsage record
  let key := record.messageId.getD record.requestId
  let s := { s with committedKeys := if key = "" then s.committedKeys else s.committedKeys ++ [key] }
  let s := s.registerSession record.sessionId record.agent record.parentSessionId
  let s := s.updateAgent record.sessionId
    (fun a => { a with consumed := a.consumed + record.usage.billable }) fun _ => rfl
  match truthy record.assignmentId with
  | none => s
  | some assignmentId =>
    let s :=
      match s.assignments.insert? ⟨assignmentId, "restored|" ++ assignmentId, record.agent, 0, 0,
          .active⟩ with
      | some assignments =>
        { s with
          assignments
          assignmentByIdentity :=
            s.assignmentByIdentity.set ("restored|" ++ assignmentId) assignmentId }
      | none => s
    s.updateAssignment assignmentId
      (fun a => { a with consumed := a.consumed + record.usage.billable }) fun _ => rfl

def restore (config : ResolvedTokenBudgetConfig) (runId : String)
    (entries : List UsageStoreEntry) : Controller :=
  let rebuilt := rebuildFromEntries entries runId
  let fresh := create config runId entries
  let s :=
    { fresh with
      run :=
        { fresh.run with
          consumed := rebuilt.consumed
          reserved := rebuilt.reserved
          releasedUnused := rebuilt.releasedUnused
          warningFired := rebuilt.warningFired
          terminal := rebuilt.terminal } }
  rebuilt.records.foldl restoreRecord (rebuilt.reservations.foldl restoreReservation s)

end Controller

/-- The operations on the controller of a run, with the ids and times they draw. -/
inductive Op
  | registerSession (sessionId agentId : String) (parentSessionId : Option String)
  | ensureAssignment (uuid agentId assignmentType scope sha : String)
  | completeAssignment (assignmentId : String)
  | supersedeAssignment (assignmentId : String)
  | reserveRequest (uuid : String) (opts : ReserveRequestOptions)
  | commitUsage (now : Nat) (opts : CommitUsageOptions)
  | terminate (now : Nat) (reason : String)
  | cancelSession (now : Nat) (sessionId reason : String)
  | cancelReservation (reservationId reason : String)
  | cancelAllReservations

def step (s : Controller) : Op → Option Controller
  | .registerSession sessionId agentId parentSessionId =>
    some (s.registerSession sessionId agentId parentSessionId)
  | .ensureAssignment uuid agentId assignmentType scope sha =>
    s.ensureAssignment uuid agentId assignmentType scope sha
  | .completeAssignment assignmentId => some (s.completeAssignment assignmentId)
  | .supersedeAssignment assignmentId => some (s.supersedeAssignment assignmentId)
  | .reserveRequest uuid opts => (s.reserveRequestSync uuid opts).map (·.2)
  | .commitUsage now opts => some (s.commitUsageSync now opts).2
  | .terminate now reason => some (s.terminate now reason)
  | .cancelSession now sessionId reason => some (s.cancelSession now sessionId reason)
  | .cancelReservation reservationId reason => some (s.cancelReservation reservationId reason).2
  | .cancelAllReservations => some s.cancelAllReservations

end BudgetController
