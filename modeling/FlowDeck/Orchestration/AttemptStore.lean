import FlowDeck.Orchestration.TransitionEngine

/-! The rows that the transition engine keeps of attempts: how they are written, found by their call
or number, and listed for an item. -/

namespace AttemptStore

open TransitionEngine

/-- An attempt as it is serialised. -/
structure Attempt where
  runId : String
  assignmentId : String
  attemptNumber : Nat
  callID : String
  tool : String
  actionFingerprint : String
  preStateFingerprint : String
  startedAt : String
  resultFingerprint : Option String := none
  postStateFingerprint : Option String := none
  finishedAt : Option String := none
  progressProduced : Bool := false
  repositoryDelta : Int := 0
  evidenceDelta : Int := 0
  verificationDelta : Int := 0
  childStateDelta : Int := 0
  isTransientError : Option Bool := none
  failureReason : Option String := none
  evidenceIds : List String := []
  deriving DecidableEq

/-- What the value of a row holds once it is parsed. -/
inductive MetadataValue
  | attempt (attempt : Attempt)
  | consumed (attemptNumber : Nat)
  | constraints (set : StrategyConstraintSet) (cleared : Bool)
  deriving DecidableEq

/-- A row of `execution_metadata`; `createdAt` is in seconds. -/
structure MetadataRow where
  id : String
  runId : String
  key : String
  value : MetadataValue
  createdAt : Nat
  deriving DecidableEq

/-- `UNIQUE(run_id, key)`. -/
def MetadataRow.place (row : MetadataRow) : String × String := (row.runId, row.key)

structure CallRow where
  callID : String
  runId : String
  assignmentId : String
  attemptNumber : Nat
  deriving DecidableEq

/-- `execution_metadata` by its unique key, and `call_id_attempts`. -/
structure Store where
  metadata : Table MetadataRow.place
  calls : Table CallRow.callID

def emptyStore : Store := ⟨.empty, .empty⟩

/-- `INSERT`, refused by the primary key or by the unique one. -/
def insertRow (metadata : Table MetadataRow.place) (row : MetadataRow) :
    Option (Table MetadataRow.place) :=
  if metadata.rows.any fun other => other.id = row.id then none else metadata.insert? row

/-- `DO UPDATE SET value`. -/
def setValue (metadata : Table MetadataRow.place) (place : String × String)
    (value : MetadataValue) : Table MetadataRow.place :=
  metadata.update (fun row => row.place = place) (fun row => { row with value }) fun _ => rfl

/-- `INSERT … ON CONFLICT(run_id, key) DO UPDATE`. -/
def upsertRow (metadata : Table MetadataRow.place) (row : MetadataRow) :
    Option (Table MetadataRow.place) :=
  match metadata.get? row.place with
  | some _ => some (setValue metadata row.place row.value)
  | none => insertRow metadata row

/-! ### Keys -/

def attemptKey (runId assignmentId : String) (attemptNumber : Nat) : String :=
  "attempt:" ++ runId ++ ":" ++ assignmentId ++ ":" ++ toString attemptNumber

def attemptPattern (runId assignmentId : String) : String :=
  "attempt:" ++ runId ++ ":" ++ assignmentId ++ ":%"

def attemptRowId (runId assignmentId : String) (attemptNumber : Nat) : String :=
  "meta-att-" ++ runId ++ "-" ++ assignmentId ++ "-" ++ toString attemptNumber

def constraintKey (runId assignmentId : String) : String :=
  "strategy_constraint_set:" ++ runId ++ ":" ++ assignmentId

def consumedKey (runId assignmentId : String) : String :=
  "consumed_progress_attempt:" ++ runId ++ ":" ++ assignmentId

/-! ### Listing -/

/-- How the database orders rows of one run by creation: the older first, and rows of one second by
an order of its own on their keys. -/
structure ScanOrder where
  le : Nat × String → Nat × String → Bool
  total : ∀ a b, le a b = true ∨ le b a = true
  trans : ∀ a b c, le a b = true → le b c = true → le a c = true
  antisymm : ∀ a b, le a b = true → le b a = true → a = b
  older : ∀ a b, le a b = true → a.1 ≤ b.1

def MetadataRow.stamp (row : MetadataRow) : Nat × String := (row.createdAt, row.key)

def matchingRows (store : Store) (runId pattern : String) : List MetadataRow :=
  store.metadata.rows.filter fun row =>
    row.runId = runId && Like.like pattern.toList row.key.toList

def MetadataValue.attempt? : MetadataValue → Option Attempt
  | .attempt a => some a
  | _ => none

def listAttempts (order : ScanOrder) (store : Store) (runId assignmentId : String) :
    List Attempt :=
  ((matchingRows store runId (attemptPattern runId assignmentId)).insertionSort
    fun a b => order.le a.stamp b.stamp = true).filterMap (·.value.attempt?)

def getAttempt (store : Store) (runId assignmentId : String) (attemptNumber : Nat) :
    Option Attempt :=
  (store.metadata.get? (runId, attemptKey runId assignmentId attemptNumber)).bind
    (·.value.attempt?)

/-- `_allocateNextAttemptNumberInner`. -/
def nextAttemptNumber (order : ScanOrder) (store : Store) (runId assignmentId : String) : Nat :=
  (listAttempts order store runId assignmentId).foldl (fun m a => max m a.attemptNumber) 0 + 1

/-! ### Starting and finalizing -/

structure StartInput where
  runId : String
  assignmentId : String
  callID : String
  tool : String
  actionFingerprint : String
  preStateFingerprint : String
  startedAt : String
  deriving DecidableEq

def StartInput.record (input : StartInput) (attemptNumber : Nat) : Attempt where
  runId := input.runId
  assignmentId := input.assignmentId
  attemptNumber := attemptNumber
  callID := input.callID
  tool := input.tool
  actionFingerprint := input.actionFingerprint
  preStateFingerprint := input.preStateFingerprint
  startedAt := input.startedAt

def Attempt.row (attempt : Attempt) (now : Nat) : MetadataRow where
  id := attemptRowId attempt.runId attempt.assignmentId attempt.attemptNumber
  runId := attempt.runId
  key := attemptKey attempt.runId attempt.assignmentId attempt.attemptNumber
  value := .attempt attempt
  createdAt := now

def StartInput.call (input : StartInput) (attemptNumber : Nat) : CallRow where
  callID := input.callID
  runId := input.runId
  assignmentId := input.assignmentId
  attemptNumber := attemptNumber

def reserveAttempt (store : Store) (input : StartInput) (attemptNumber now : Nat) :
    Option (Store × Attempt) := do
  let record := input.record attemptNumber
  let metadata ← insertRow store.metadata (record.row now)
  let calls ← store.calls.insert? (input.call attemptNumber)
  pure (⟨metadata, calls⟩, record)

def startedByCall (store : Store) (callID : String) : Option Attempt :=
  (store.calls.get? callID).bind fun call =>
    getAttempt store call.runId call.assignmentId call.attemptNumber

/-- `startAttempt` at second `now`, `none` where the transaction is refused; `hasRun` says whether the
run has a row. -/
def startAttempt (order : ScanOrder) (hasRun : Bool) (store : Store) (input : StartInput)
    (now : Nat) : Option (Store × Attempt) :=
  match startedByCall store input.callID with
  | some attempt => some (store, attempt)
  | none =>
    if !hasRun then none
    else
      let attemptNumber := nextAttemptNumber order store input.runId input.assignmentId
      reserveAttempt store input attemptNumber now

structure FinalizeInput where
  runId : String
  assignmentId : String
  attemptNumber : Nat
  resultFingerprint : Option String := none
  postStateFingerprint : Option String := none
  finishedAt : String
  progressProduced : Bool
  repositoryDelta : Option Int := none
  evidenceDelta : Option Int := none
  verificationDelta : Option Int := none
  childStateDelta : Option Int := none
  isTransientError : Option Bool := none
  failureReason : Option String := none
  evidenceIds : Option (List String) := none
  deriving DecidableEq

def FinalizeInput.updated (input : FinalizeInput) (existing : Attempt) : Attempt :=
  { existing with
    resultFingerprint := input.resultFingerprint.or existing.resultFingerprint
    postStateFingerprint := input.postStateFingerprint.or existing.postStateFingerprint
    finishedAt := some input.finishedAt
    progressProduced := input.progressProduced
    repositoryDelta := input.repositoryDelta.getD existing.repositoryDelta
    evidenceDelta := input.evidenceDelta.getD existing.evidenceDelta
    verificationDelta := input.verificationDelta.getD existing.verificationDelta
    childStateDelta := input.childStateDelta.getD existing.childStateDelta
    isTransientError := input.isTransientError.or existing.isTransientError
    failureReason := input.failureReason.or existing.failureReason
    evidenceIds := input.evidenceIds.getD existing.evidenceIds }

/-- `recordAttempt`. -/
def recordAttempt (store : Store) (attempt : Attempt) (now : Nat) : Option Store :=
  (upsertRow store.metadata (attempt.row now)).map fun metadata => { store with metadata }

/-- `finalizeAttempt`: the outer `none` is a refused write, the inner one an unknown number. -/
def finalizeAttempt (order : ScanOrder) (store : Store) (input : FinalizeInput) (now : Nat) :
    Option (Store × Option Attempt) :=
  let attempts := listAttempts order store input.runId input.assignmentId
  match attempts.find? fun a => a.attemptNumber = input.attemptNumber with
  | none => some (store, none)
  | some existing =>
    (recordAttempt store (input.updated existing) now).map fun store =>
      (store, some (input.updated existing))

/-! ### Constraints and consumed progress -/

def getActiveStrategyConstraints (store : Store) (runId assignmentId : String) :
    Option StrategyConstraintSet :=
  (store.metadata.get? (runId, constraintKey runId assignmentId)).bind fun row =>
    match row.value with
    | .constraints set false => some set
    | _ => none

/-- The twenty-first different action under one state exhausts the strategies. -/
def constrained (existing : Option StrategyConstraintSet) (action state : String) :
    StrategyConstraintSet :=
  match existing.filter fun set => set.stateFingerprint = state with
  | none => ⟨state, [action], false⟩
  | some set =>
    if set.exhausted || set.prohibitedActionFingerprints.contains action then set
    else if 20 ≤ set.prohibitedActionFingerprints.length then { set with exhausted := true }
    else ⟨state, set.prohibitedActionFingerprints ++ [action], false⟩

def putConstraints (store : Store) (runId assignmentId : String) (set : StrategyConstraintSet)
    (cleared : Bool) (now : Nat) : Option Store :=
  let row : MetadataRow := {
    id := "meta-scs-" ++ runId ++ "-" ++ assignmentId
    runId := runId
    key := constraintKey runId assignmentId
    value := .constraints set cleared
    createdAt := now }
  (upsertRow store.metadata row).map fun metadata => { store with metadata }

def saveStrategyConstraint (store : Store) (runId assignmentId action state : String)
    (now : Nat) : Option Store :=
  let set := constrained (getActiveStrategyConstraints store runId assignmentId) action state
  putConstraints store runId assignmentId set false now

def clearStrategyConstraint (store : Store) (runId assignmentId : String) (now : Nat) :
    Option Store :=
  match getActiveStrategyConstraints store runId assignmentId with
  | none => some store
  | some set => putConstraints store runId assignmentId set true now

def getConsumedProgressAttempt (store : Store) (runId assignmentId : String) : Option Nat :=
  (store.metadata.get? (runId, consumedKey runId assignmentId)).bind fun row =>
    match row.value with
    | .consumed attemptNumber => some attemptNumber
    | _ => none

def markConsumedProgressAttempt (store : Store) (runId assignmentId : String)
    (attemptNumber now : Nat) : Option Store :=
  let row : MetadataRow := {
    id := "meta-cpa-" ++ runId ++ "-" ++ assignmentId
    runId := runId
    key := consumedKey runId assignmentId
    value := .consumed attemptNumber
    createdAt := now }
  (upsertRow store.metadata row).map fun metadata => { store with metadata }

/-- What an evaluation reads of an attempt. -/
def Attempt.toRecord (attempt : Attempt) : AttemptRecord where
  attemptNumber := attempt.attemptNumber
  actionFingerprint := attempt.actionFingerprint
  preStateFingerprint := attempt.preStateFingerprint
  progressProduced := attempt.progressProduced
  isTransientError := attempt.isTransientError.getD false

/-- What an evaluation reads about an item of a run. -/
def itemRecords (order : ScanOrder) (store : Store) (meaningfulStateVersion : Nat)
    (runId assignmentId : String) : ItemRecords where
  attempts := (listAttempts order store runId assignmentId).map (·.toRecord)
  activeConstraint := getActiveStrategyConstraints store runId assignmentId
  consumedAttempt := getConsumedProgressAttempt store runId assignmentId
  meaningfulStateVersion := meaningfulStateVersion

def write (store : Store) (runId : String) (now : Nat) : MetadataWrite → Option Store
  | .saveStrategyConstraint assignmentId action state _ =>
    saveStrategyConstraint store runId assignmentId action state now
  | .clearStrategyConstraint assignmentId => clearStrategyConstraint store runId assignmentId now
  | .markConsumedProgressAttempt assignmentId attemptNumber =>
    markConsumedProgressAttempt store runId assignmentId attemptNumber now

end AttemptStore
