import FlowDeck.Library.Machine
import FlowDeck.Orchestration.ContinuationPolicy
import FlowDeck.Orchestration.RunStore
import Mathlib.Data.Rat.Defs

namespace DeferredReplacement

open ContinuationPolicy (DispatchStatus)

inductive ReplacementStatus
  | pendingTermination
  | resuming
  | handoffPending
  | handoffOutcomeUnknown
  | resumed
  | superseded
  | blocked
  | cancelled
  deriving DecidableEq

/-- The router's decision as its column parses back; JSON has no confidence that is not finite. -/
structure RoutingDecision where
  executionClass : String
  reason : String
  reasonCode : String
  confidence : Option ℚ
  forcedByExplicitSignal : Bool
  deriving DecidableEq

inductive SourceIntent
  | replace
  | modifyReclassification
  deriving DecidableEq

def SourceIntent.text : SourceIntent → String
  | .replace => "REPLACE"
  | .modifyReclassification => "MODIFY_RECLASSIFICATION"

/-- A row of `deferred_replacements`. -/
structure ReplacementRow where
  id : String
  parentSessionId : String
  oldRunId : String
  sourceIntent : String
  agentId : String
  effectiveGoal : String
  messageHash : String
  messageId : String
  correlationId : String
  routingDecision : RoutingDecision
  status : ReplacementStatus
  createdAt : Nat
  updatedAt : Nat
  resumedAt : Option Nat
  replacementRunId : Option String
  supersededById : Option String
  deriving DecidableEq

abbrev Replacements := Table ReplacementRow.id

structure SavePendingInput where
  parentSessionId : String
  oldRunId : String
  sourceIntent : SourceIntent
  agentId : String
  effectiveGoal : String
  messageHash : String
  messageId : String
  correlationId : String
  routingDecision : RoutingDecision
  deriving DecidableEq

/-- The statuses every statement that closes a record, or looks for a current one, selects. -/
def unresolved : List ReplacementStatus :=
  [.pendingTermination, .resuming, .handoffPending, .handoffOutcomeUnknown, .blocked]

def isUnresolved (row : ReplacementRow) : Bool := row.status ∈ unresolved

/-- `WHERE id = ? AND status IN (…)`. -/
def isRecord (id : String) (statuses : List ReplacementStatus) (row : ReplacementRow) : Bool :=
  decide (row.id = id) && decide (row.status ∈ statuses)

/-- `WHERE parent_session_id = ? AND status IN (…)`. -/
def isOfSession (parentSessionId : String) (statuses : List ReplacementStatus)
    (row : ReplacementRow) : Bool :=
  decide (row.parentSessionId = parentSessionId) && decide (row.status ∈ statuses)

/-- The columns an `UPDATE` sets. -/
structure Assignment where
  status : ReplacementStatus
  updatedAt : Nat
  resumedAt : Option Nat → Option Nat
  replacementRunId : Option String → Option String
  supersededById : Option String → Option String

/-- `SET status = ?, updated_at = ?`. -/
def Assignment.of (status : ReplacementStatus) (now : Nat) : Assignment where
  status := status
  updatedAt := now
  resumedAt := id
  replacementRunId := id
  supersededById := id

def Assignment.apply (a : Assignment) (row : ReplacementRow) : ReplacementRow :=
  { row with
    status := a.status
    updatedAt := a.updatedAt
    resumedAt := a.resumedAt row.resumedAt
    replacementRunId := a.replacementRunId row.replacementRunId
    supersededById := a.supersededById row.supersededById }

theorem Assignment.apply_id (a : Assignment) (row : ReplacementRow) :
    (a.apply row).id = row.id := rfl

@[simp] theorem Assignment.apply_status (a : Assignment) (row : ReplacementRow) :
    (a.apply row).status = a.status := rfl

theorem Assignment.apply_parentSessionId (a : Assignment) (row : ReplacementRow) :
    (a.apply row).parentSessionId = row.parentSessionId := rfl

def updateWhere (t : Replacements) (p : ReplacementRow → Bool) (a : Assignment) : Replacements :=
  t.update p a.apply a.apply_id

/-- A conditional update of one record, and whether it changed a row. -/
def mark (t : Replacements) (id : String) (statuses : List ReplacementStatus) (a : Assignment) :
    Replacements × Bool :=
  (updateWhere t (isRecord id statuses) a, decide (0 < t.changes (isRecord id statuses)))

def pendingRow (id : String) (input : SavePendingInput) (now : Nat) : ReplacementRow where
  id := id
  parentSessionId := input.parentSessionId
  oldRunId := input.oldRunId
  sourceIntent := input.sourceIntent.text
  agentId := input.agentId
  effectiveGoal := input.effectiveGoal
  messageHash := input.messageHash
  messageId := input.messageId
  correlationId := input.correlationId
  routingDecision := input.routingDecision
  status := .pendingTermination
  createdAt := now
  updatedAt := now
  resumedAt := none
  replacementRunId := none
  supersededById := none

/-- The session's current records give way to the new one, in one transaction: an id that is taken
rolls both statements back. -/
def savePending (t : Replacements) (uuid : String) (input : SavePendingInput) (now : Nat) :
    Replacements × Option ReplacementRow :=
  let id := "def-" ++ uuid
  let row := pendingRow id input now
  let superseding := { Assignment.of .superseded now with supersededById := fun _ => some id }
  match (updateWhere t (isOfSession input.parentSessionId unresolved) superseding).insert? row with
  | some t' => (t', some row)
  | none => (t, none)

def claimForResume (t : Replacements) (id : String) (now : Nat) : Replacements × Bool :=
  mark t id [.pendingTermination, .handoffPending] (Assignment.of .resuming now)

def markHandoffPending (t : Replacements) (id : String) (replacementRunId : Option String)
    (now : Nat) : Replacements × Bool :=
  mark t id [.resuming, .pendingTermination]
    { Assignment.of .handoffPending now with replacementRunId := replacementRunId.or }

def markHandoffOutcomeUnknown (t : Replacements) (id : String) (now : Nat) : Replacements × Bool :=
  mark t id [.resuming, .handoffPending] (Assignment.of .handoffOutcomeUnknown now)

def markResumed (t : Replacements) (id : String) (replacementRunId : Option String) (now : Nat) :
    Replacements × Bool :=
  mark t id [.resuming, .handoffPending]
    { Assignment.of .resumed now with
      replacementRunId := replacementRunId.or
      resumedAt := fun _ => some now }

def markBlocked (t : Replacements) (id : String) (now : Nat) : Replacements × Bool :=
  mark t id [.pendingTermination, .resuming, .handoffPending] (Assignment.of .blocked now)

def markSuperseded (t : Replacements) (id supersededById : String) (now : Nat) :
    Replacements × Bool :=
  mark t id unresolved
    { Assignment.of .superseded now with supersededById := fun _ => some supersededById }

def markCancelled (t : Replacements) (id : String) (now : Nat) : Replacements × Bool :=
  mark t id unresolved (Assignment.of .cancelled now)

def cancelCurrentForSession (t : Replacements) (parentSessionId : String) (now : Nat) :
    Replacements × Bool :=
  (updateWhere t (isOfSession parentSessionId unresolved) (Assignment.of .cancelled now),
    decide (0 < t.changes (isOfSession parentSessionId unresolved)))

def executionClasses : List String :=
  ["FAST_DIRECT", "SPECIALIST", "PARALLEL_SPECIALISTS", "STANDARD", "DEEP"]

def isValidRoutingDecision (decision : RoutingDecision) : Bool :=
  decision.executionClass ∈ executionClasses && decision.reason ≠ "" && decision.reasonCode ≠ "" &&
    decision.confidence.any fun confidence => 0 ≤ confidence && confidence ≤ 1

/-- The text columns `mapRow` requires; the two timestamps beside them are never empty. -/
def requiredStrings (row : ReplacementRow) : List String :=
  [row.id, row.parentSessionId, row.oldRunId, row.agentId, row.effectiveGoal, row.messageHash,
    row.messageId, row.correlationId]

/-- What is wrong with a row, if anything is. -/
def corruption (row : ReplacementRow) : Option String :=
  if "" ∈ requiredStrings row then some "required_field"
  else if row.sourceIntent ≠ "REPLACE" ∧ row.sourceIntent ≠ "MODIFY_RECLASSIFICATION" then
    some "source_intent"
  else if isValidRoutingDecision row.routingDecision then none
  else some "routing_decision"

def quarantineCorruptActiveRow (t : Replacements) (id : String) (now : Nat) : Replacements :=
  if id = "" then t
  else
    (mark t id [.pendingTermination, .resuming, .handoffPending, .handoffOutcomeUnknown]
      (Assignment.of .blocked now)).1

/-- A record has the columns of its row; a corrupt row is blocked and yields none. -/
def mapRow (t : Replacements) (row : ReplacementRow) (now : Nat) :
    Replacements × Except String ReplacementRow :=
  match corruption row with
  | none => (t, .ok row)
  | some reason =>
    (quarantineCorruptActiveRow t row.id now, .error ("CORRUPT_DEFERRED_REPLACEMENT_ROW:" ++ reason))

/-- `rows.flatMap`, with the rows that fail left out. -/
def mapRows (t : Replacements) (now : Nat) : List ReplacementRow → Replacements × List ReplacementRow
  | [] => (t, [])
  | row :: rows =>
    let (t', record) := mapRow t row now
    let (t'', records) := mapRows t' now rows
    (t'', record.toOption.toList ++ records)

/-- A row read, and mapped when there is one. -/
def mapFound (t : Replacements) (now : Nat) :
    Option ReplacementRow → Replacements × Option ReplacementRow
  | none => (t, none)
  | some row => ((mapRow t row now).1, (mapRow t row now).2.toOption)

def oldestFirst (rows : List ReplacementRow) : List ReplacementRow :=
  rows.insertionSort fun a b => a.createdAt ≤ b.createdAt

def newestFirst (rows : List ReplacementRow) : List ReplacementRow :=
  rows.insertionSort fun a b => b.createdAt ≤ a.createdAt

def findCurrentForSession (t : Replacements) (parentSessionId : String) (now : Nat) :
    Replacements × Option ReplacementRow :=
  mapFound t now (newestFirst (t.rows.filter (isOfSession parentSessionId unresolved))).head?

def findById (t : Replacements) (id : String) (now : Nat) : Replacements × Option ReplacementRow :=
  mapFound t now (t.get? id)

/-- The columns of `continuation_dispatches` that decide a handoff. -/
structure HandoffDispatch where
  stateFingerprint : String
  status : DispatchStatus
  attemptCount : Nat
  createdAt : Nat
  deriving DecidableEq

def handoffFingerprint (id : String) : String := "deferred_resume:" ++ id

/-- `LIKE`, for one character: `_` stands for any, and letters match in either case. -/
def likeChar (pattern c : Char) : Bool := pattern = '_' || pattern.toLower = c.toLower

/-- `state_fingerprint LIKE 'deferred_resume:%'`. -/
def isHandoffFingerprint (fingerprint : String) : Bool :=
  "deferred_resume:".length ≤ fingerprint.length &&
    ("deferred_resume:".toList.zip fingerprint.toList).all fun pair => likeChar pair.1 pair.2

/-- The records whose handoff can no longer be retried. -/
def handoffsSpent (dispatches : List HandoffDispatch) : List String :=
  (dispatches.filter fun dispatch =>
      isHandoffFingerprint dispatch.stateFingerprint &&
        (dispatch.status = .outcomeUnknown || dispatch.status = .blocked ||
          dispatch.status = .failed && 2 ≤ dispatch.attemptCount)).map fun dispatch =>
    String.ofList (dispatch.stateFingerprint.toList.drop 16)

def listPendingReadyForResume (t : Replacements) (dispatches : List HandoffDispatch) (now : Nat) :
    Replacements × List ReplacementRow :=
  mapRows t now <| oldestFirst <| t.rows.filter fun row =>
    row.status = .pendingTermination ||
      row.status = .handoffPending && row.id ∉ handoffsSpent dispatches

def listResuming (t : Replacements) (now : Nat) : Replacements × List ReplacementRow :=
  mapRows t now (oldestFirst (t.rows.filter fun row => row.status = .resuming))

/-- `ORDER BY created_at DESC LIMIT 1` over the dispatches of a record's handoff. -/
def latestDispatch (dispatches : List HandoffDispatch) (id : String) : Option HandoffDispatch :=
  ((dispatches.filter fun dispatch => dispatch.stateFingerprint = handoffFingerprint id).insertionSort
    fun a b => b.createdAt ≤ a.createdAt).head?

structure Recovered where
  resumed : Nat
  pending : Nat
  outcomeUnknown : Nat
  deriving DecidableEq

/-- The part of `reconcileAfterRestart` that one `handoff_pending` row goes through. -/
def reconcileHandoff (dispatches : List HandoffDispatch) (now : Nat)
    (acc : Replacements × Recovered) (id : String) : Replacements × Recovered :=
  let (t, recovered) := acc
  match latestDispatch dispatches id with
  | some { status := .dispatched, .. } =>
    ((mark t id [.handoffPending]
        { Assignment.of .resumed now with resumedAt := fun _ => some now }).1,
      { recovered with resumed := recovered.resumed + 1 })
  | some { status := .outcomeUnknown, .. } =>
    ((mark t id [.handoffPending] (Assignment.of .handoffOutcomeUnknown now)).1,
      { recovered with outcomeUnknown := recovered.outcomeUnknown + 1 })
  | some { status := .blocked, .. } =>
    ((mark t id [.handoffPending] (Assignment.of .blocked now)).1, recovered)
  | some { status := .failed, attemptCount, .. } =>
    if 2 ≤ attemptCount then
      ((mark t id [.handoffPending] (Assignment.of .blocked now)).1, recovered)
    else (t, recovered)
  | _ => (t, recovered)

def existingRunId (db : RunStore.Database) (runLookup : Option (String → Option String))
    (correlationId : String) : Option String :=
  let found := (runLookup.bind fun lookup => lookup correlationId).filter (· ≠ "")
  let claimed := ((db.correlations.get? correlationId).map (·.runId)).filter (· ≠ "")
  let event := db.events.find? fun event => event.correlationId = correlationId
  let aggregate := (event.map (·.aggregateId)).filter (· ≠ "")
  let run := ((db.taskRuns.get? correlationId).map (·.runId)).filter (· ≠ "")
  found.or (claimed.or (aggregate.or run))

/-- A record that was resuming directly, with no run of its own. -/
def reconcileFastDirect (dispatches : List HandoffDispatch) (now : Nat)
    (acc : Replacements × Recovered) (id : String) : Replacements × Recovered :=
  let (t, recovered) := acc
  match (latestDispatch dispatches id).map (·.status) with
  | some DispatchStatus.dispatched =>
    ((mark t id [.resuming] { Assignment.of .resumed now with resumedAt := fun _ => some now }).1,
      { recovered with resumed := recovered.resumed + 1 })
  | some DispatchStatus.outcomeUnknown =>
    ((mark t id [.resuming] (Assignment.of .handoffOutcomeUnknown now)).1,
      { recovered with outcomeUnknown := recovered.outcomeUnknown + 1 })
  | _ =>
    ((mark t id [.resuming] (Assignment.of .pendingTermination now)).1,
      { recovered with pending := recovered.pending + 1 })

/-- A record whose replacement run was created before the crash. -/
def reconcileCreated (dispatches : List HandoffDispatch) (now : Nat) (runId : String)
    (acc : Replacements × Recovered) (id : String) : Replacements × Recovered :=
  let (t, recovered) := acc
  let setRun : Assignment → Assignment := fun a => { a with replacementRunId := fun _ => some runId }
  match (latestDispatch dispatches id).map (·.status) with
  | some DispatchStatus.dispatched =>
    ((mark t id [.resuming]
        (setRun { Assignment.of .resumed now with resumedAt := fun _ => some now })).1,
      { recovered with resumed := recovered.resumed + 1 })
  | some DispatchStatus.outcomeUnknown =>
    ((mark t id [.resuming] (setRun (Assignment.of .handoffOutcomeUnknown now))).1,
      { recovered with outcomeUnknown := recovered.outcomeUnknown + 1 })
  | some DispatchStatus.blocked =>
    ((mark t id [.resuming] (setRun (Assignment.of .blocked now))).1, recovered)
  | _ =>
    ((mark t id [.resuming] (setRun (Assignment.of .pendingTermination now))).1,
      { recovered with pending := recovered.pending + 1 })

/-- The part of `reconcileAfterRestart` that one `resuming` record goes through. -/
def reconcileResuming (db : RunStore.Database) (dispatches : List HandoffDispatch)
    (runLookup : Option (String → Option String)) (now : Nat) (acc : Replacements × Recovered)
    (record : ReplacementRow) : Replacements × Recovered :=
  if record.routingDecision.executionClass = "FAST_DIRECT" then
    reconcileFastDirect dispatches now acc record.id
  else
    match existingRunId db runLookup record.correlationId with
    | some runId => reconcileCreated dispatches now runId acc record.id
    | none =>
      ((mark acc.1 record.id [.resuming]
          { Assignment.of .pendingTermination now with replacementRunId := fun _ => none }).1,
        { acc.2 with pending := acc.2.pending + 1 })

def reconcileAfterRestart (t : Replacements) (db : RunStore.Database)
    (dispatches : List HandoffDispatch) (runLookup : Option (String → Option String)) (now : Nat) :
    Replacements × Recovered :=
  let (t', resumingRecords) := listResuming t now
  let pendingHandoffRows := (t'.rows.filter fun row => row.status = .handoffPending).map (·.id)
  let handedOff := pendingHandoffRows.foldl (reconcileHandoff dispatches now)
    (t', { resumed := 0, pending := 0, outcomeUnknown := 0 })
  resumingRecords.foldl (reconcileResuming db dispatches runLookup now) handedOff

/-- A call on the repository, with what it draws or reads elsewhere. -/
inductive Action
  | savePending (uuid : String) (input : SavePendingInput) (now : Nat)
  | findCurrentForSession (parentSessionId : String) (now : Nat)
  | findById (id : String) (now : Nat)
  | claimForResume (id : String) (now : Nat)
  | markHandoffPending (id : String) (replacementRunId : Option String) (now : Nat)
  | markHandoffOutcomeUnknown (id : String) (now : Nat)
  | markResumed (id : String) (replacementRunId : Option String) (now : Nat)
  | markBlocked (id : String) (now : Nat)
  | markSuperseded (id supersededById : String) (now : Nat)
  | markCancelled (id : String) (now : Nat)
  | cancelCurrentForSession (parentSessionId : String) (now : Nat)
  | listPendingReadyForResume (dispatches : List HandoffDispatch) (now : Nat)
  | reconcileAfterRestart (db : RunStore.Database) (dispatches : List HandoffDispatch)
      (runLookup : Option (String → Option String)) (now : Nat)

def step (t : Replacements) : Action → Option Replacements
  | .savePending uuid input now => some (savePending t uuid input now).1
  | .findCurrentForSession parentSessionId now => some (findCurrentForSession t parentSessionId now).1
  | .findById id now => some (findById t id now).1
  | .claimForResume id now => some (claimForResume t id now).1
  | .markHandoffPending id runId now => some (markHandoffPending t id runId now).1
  | .markHandoffOutcomeUnknown id now => some (markHandoffOutcomeUnknown t id now).1
  | .markResumed id runId now => some (markResumed t id runId now).1
  | .markBlocked id now => some (markBlocked t id now).1
  | .markSuperseded id supersededById now => some (markSuperseded t id supersededById now).1
  | .markCancelled id now => some (markCancelled t id now).1
  | .cancelCurrentForSession parentSessionId now =>
    some (cancelCurrentForSession t parentSessionId now).1
  | .listPendingReadyForResume dispatches now => some (listPendingReadyForResume t dispatches now).1
  | .reconcileAfterRestart db dispatches runLookup now =>
    some (reconcileAfterRestart t db dispatches runLookup now).1

end DeferredReplacement
