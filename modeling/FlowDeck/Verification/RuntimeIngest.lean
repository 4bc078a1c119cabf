import FlowDeck.Verification.CheckResolution
import FlowDeck.Verification.RunArtifact

/-! The ingestion of run artifacts into the runtime history. -/

namespace RuntimeIngest

open CalibrationHistory Checked PolicyStore RunArtifact Statements

def maxRuntimeArtifactBytes : Nat := 16 * 1024 * 1024

def ingestionContractVersionV2 : Int := 2

/-- SHA-256, the serialisation of plans, the JSON reader for runs, the text `{:?}` gives a string, and
the order in which a hash map is walked. -/
structure Runtime where
  sha256 : List UInt8 → String
  planBytes : VerificationPlan → List UInt8
  parseRun : List UInt8 → Except String VerificationRun
  debug : String → String
  walk : List String → List String
  walk_perm : ∀ ids, (walk ids).Perm ids

inductive RuntimeIngestResult
  | imported (runId artifactDigest : String)
  | alreadyImported (runId artifactDigest : String)
  | conflict (runId existingDigest incomingDigest : String)
  | failed (runId : Option String) (reason : String)
  deriving DecidableEq

structure RunRow where
  runId : String
  artifactDigest : String
  planDigest : String
  outcome : VerificationOutcome
  assurance : AssuranceLevel
  executedAtMs : Int
  durationMs : Int
  baseRef : Option String
  headRef : Option String
  importedAtMs : Int
  ingestionContractVersion : Int
  deriving DecidableEq

structure ExecutionRow where
  runId : String
  executionId : String
  program : String
  argvDigest : String
  cwd : String
  status : CheckExecutionStatus
  exitCode : Option Int
  durationMs : Int
  stdoutDigest : Option String
  stderrDigest : Option String
  stdoutCapturedBytes : Int
  stderrCapturedBytes : Int
  outputTruncated : Bool
  deriving DecidableEq

structure CheckRow where
  runId : String
  checkId : String
  executionId : String
  kind : VerificationCheckKind
  status : CheckExecutionStatus
  reusedExecution : Bool
  mandatory : Bool
  hasPhysicalExecution : Bool
  deriving DecidableEq

structure ChangeRow where
  runId : String
  entityId : String
  entityKind : SemanticChangeKind
  deriving DecidableEq

def ExecutionRow.key (row : ExecutionRow) : String × String := (row.runId, row.executionId)

def CheckRow.key (row : CheckRow) : String × String := (row.runId, row.checkId)

structure Tables where
  runs : Table RunRow.runId
  executions : Table ExecutionRow.key
  checks : Table CheckRow.key
  changes : Table fun row : ChangeRow => row

/-- `as i64` of an unsigned number. -/
def asI64 (n : Nat) : Int := (BitVec.ofNat 64 n).toInt

def trimmed (text : String) : String := String.ofList (CheckResolution.trim text.toList)

def debugOption (debug : String → String) : Option String → String
  | none => "None"
  | some text => "Some(" ++ debug text ++ ")"

def statusDebug : CheckExecutionStatus → String
  | .pending => "Pending"
  | .running => "Running"
  | .passed => "Passed"
  | .failed => "Failed"
  | .timedOut => "TimedOut"
  | .outputLimitExceeded => "OutputLimitExceeded"
  | .spawnFailed => "SpawnFailed"
  | .unsupported => "Unsupported"
  | .skipped => "Skipped"
  | .cancelled => "Cancelled"

def commandDebug (debug : String → String) (command : List String) : String :=
  "[" ++ ", ".intercalate (command.map debug) ++ "]"

def exitCodeDebug : Option Int → String
  | none => "None"
  | some code => "Some(" ++ toString code ++ ")"

def quoted (text : String) : String := "'" ++ text ++ "'"

/-- The checks that share an execution, in the order of the artifact. -/
def groupOf (run : VerificationRun) (executionId : String) : List CheckExecutionResult :=
  run.checks.filter fun check => check.executionId = executionId

def executionIds (run : VerificationRun) : List String :=
  (run.checks.map CheckExecutionResult.executionId).dedup

def isPlanned (run : VerificationRun) (checkId : String) : Bool :=
  run.plan.selectedChecks.any fun planned => planned.checkId = checkId

/-- The map from planned ids to their flags keeps the last check of an id. -/
def plannedMandatory (run : VerificationRun) (checkId : String) : Bool :=
  ((run.plan.selectedChecks.reverse.find? fun planned => planned.checkId = checkId).map
    PlannedCheck.mandatory).getD false

/-- One check against those before it and the plan. -/
def validateCheck (run : VerificationRun) (earlier : List String) (check : CheckExecutionResult) :
    Except String (List String) := do
  refuseIf (check.checkId ∈ earlier) ("duplicate check_id in artifact checks: " ++ check.checkId)
  refuseIf (trimmed check.executionId = "")
    ("check " ++ check.checkId ++ " has empty execution_id")
  refuseIf (isPlanned run check.checkId = false)
    ("check " ++ quoted check.checkId ++
      " was executed but is absent from plan.selected_checks")
  return earlier ++ [check.checkId]

/-- Another member of a group against the first. -/
def validateEvidence (debug : String → String) (executionId : String)
    (first other : CheckExecutionResult) : Except String Unit := do
  let conflicting (what : String) : String :=
    "execution_id " ++ quoted executionId ++ " has conflicting " ++ what
  let versus (a b : String) : String := quoted a ++ " vs " ++ quoted b
  refuseIf (other.status ≠ first.status)
    (conflicting ("status: " ++ versus (statusDebug first.status) (statusDebug other.status)))
  refuseIf (other.command ≠ first.command)
    (conflicting ("commands: " ++
      versus (commandDebug debug first.command) (commandDebug debug other.command)))
  refuseIf (other.cwd ≠ first.cwd) (conflicting ("cwd: " ++ versus first.cwd other.cwd))
  refuseIf (other.exitCode ≠ first.exitCode)
    (conflicting ("exit_code: " ++
      versus (exitCodeDebug first.exitCode) (exitCodeDebug other.exitCode)))
  refuseIf (other.signal ≠ first.signal)
    (conflicting ("signal: " ++
      versus (debugOption debug first.signal) (debugOption debug other.signal)))
  refuseIf (other.durationMs ≠ first.durationMs)
    (conflicting ("duration_ms: " ++ toString first.durationMs ++ " vs " ++
      toString other.durationMs))
  refuseIf (other.stdoutDigest ≠ first.stdoutDigest) (conflicting "stdout_digest")
  refuseIf (other.stderrDigest ≠ first.stderrDigest) (conflicting "stderr_digest")
  refuseIf (other.stdoutCapturedBytes ≠ first.stdoutCapturedBytes ∨
      other.stderrCapturedBytes ≠ first.stderrCapturedBytes ∨
      other.stdoutTruncated ≠ first.stdoutTruncated ∨
      other.stderrTruncated ≠ first.stderrTruncated)
    (conflicting "stream capture metadata")
  refuseIf (other.startedAtMs ≠ first.startedAtMs)
    (conflicting ("started_at_ms: " ++ toString first.startedAtMs ++ " vs " ++
      toString other.startedAtMs))

/-- The checks of an execution are all physical or all not, one of them was run for it, and all carry
its evidence. -/
def validateGroup (debug : String → String) (executionId : String) :
    List CheckExecutionResult → Except String Unit
  | [] => .ok ()
  | first :: others => do
    others.forM fun other =>
      refuseIf (isPhysicalProcessExecution other.status ≠ isPhysicalProcessExecution first.status)
        ("execution_id " ++ quoted executionId ++
          " mixes physical and non-physical observations (" ++ quoted (statusDebug first.status) ++
          " vs " ++ quoted (statusDebug other.status) ++ ")")
    let primaryCount := ((first :: others).filter fun check => !check.reusedExecution).length
    refuseIf (primaryCount ≠ 1)
      ("execution_id " ++ quoted executionId ++ " has invalid reuse pattern: " ++
        toString primaryCount ++ " non-reused obligations (expected exactly 1)")
    others.forM fun other => validateEvidence debug executionId first other

def validateRun (r : Runtime) (run : VerificationRun) : Except String Unit := do
  let _ ← run.checks.foldlM (validateCheck run) []
  (r.walk (executionIds run)).forM fun executionId =>
    validateGroup r.debug executionId (groupOf run executionId)

def argvDigest (r : Runtime) (argv : List String) : String :=
  r.sha256 (String.intercalate "\x00" argv).toUTF8.toList

def runRow (r : Runtime) (run : VerificationRun) (runId artifactDigest : String) (now : Int) :
    RunRow where
  runId := runId
  artifactDigest := artifactDigest
  planDigest := r.sha256 (r.planBytes run.plan)
  outcome := run.outcome
  assurance := run.assurance
  executedAtMs := asI64 run.executedAtMs
  durationMs := asI64 run.durationMs
  baseRef := run.base
  headRef := run.head
  importedAtMs := now
  ingestionContractVersion := ingestionContractVersionV2

def executionRow (r : Runtime) (runId : String) (first : CheckExecutionResult) : ExecutionRow where
  runId := runId
  executionId := first.executionId
  program := first.command.head?.getD "unknown"
  argvDigest := argvDigest r first.command
  cwd := first.cwd
  status := first.status
  exitCode := first.exitCode
  durationMs := asI64 first.durationMs
  stdoutDigest := first.stdoutDigest
  stderrDigest := first.stderrDigest
  stdoutCapturedBytes := asI64 first.stdoutCapturedBytes
  stderrCapturedBytes := asI64 first.stderrCapturedBytes
  outputTruncated := first.stdoutTruncated || first.stderrTruncated

def groupPhysical (run : VerificationRun) (executionId : String) : Bool :=
  (groupOf run executionId).head?.any fun first => isPhysicalProcessExecution first.status

def executionRows (r : Runtime) (run : VerificationRun) (runId : String) : List ExecutionRow :=
  (r.walk (executionIds run)).filterMap fun executionId =>
    if groupPhysical run executionId then
      (groupOf run executionId).head?.map (executionRow r runId)
    else none

def checkRow (run : VerificationRun) (runId : String) (check : CheckExecutionResult) :
    CheckRow where
  runId := runId
  checkId := check.checkId
  executionId := check.executionId
  kind := check.kind
  status := check.status
  reusedExecution := check.reusedExecution
  mandatory := plannedMandatory run check.checkId
  hasPhysicalExecution := groupPhysical run check.executionId

def changeRow (runId : String) (change : SemanticChange) : ChangeRow :=
  ⟨runId, change.file, change.changeKind⟩

/-- `DELETE` of a run, which cascades to the rows that refer to it. -/
def Tables.deleteRun (t : Tables) (runId : String) : Tables where
  runs := t.runs.deleteWhere fun row => row.runId = runId
  executions := t.executions.deleteWhere fun row => row.runId = runId
  checks := t.checks.deleteWhere fun row => row.runId = runId
  changes := t.changes.deleteWhere fun row => row.runId = runId

def insertRow {ρ κ : Type} [DecidableEq κ] {key : ρ → κ} (table : String) (t : Table key) (row : ρ) :
    Except String (Table key) :=
  match t.insert? row with
  | some t => .ok t
  | none => .error ("failed to insert " ++ table ++ " row")

def hasExecution (t : Tables) (row : CheckRow) : Bool :=
  (t.executions.get? (row.runId, row.executionId)).isSome

def orphanPhysicalChecks (t : Tables) (runId : String) : Nat :=
  (t.checks.rows.filter fun row =>
    row.runId = runId && row.hasPhysicalExecution && !hasExecution t row).length

/-- The other observations of a run that have one. -/
def illegitimatePhysicalExecs (t : Tables) (runId : String) : Nat :=
  (t.checks.rows.filter fun row =>
    row.runId = runId && !row.hasPhysicalExecution && hasExecution t row).length

def insertRun (r : Runtime) (t : Tables) (run : VerificationRun) (runId artifactDigest : String)
    (now : Int) : Except String Tables := do
  let runs ← insertRow "runtime_runs" t.runs (runRow r run runId artifactDigest now)
  let executions ← (executionRows r run runId).foldlM (insertRow "runtime_executions") t.executions
  let checks ← (run.checks.map (checkRow run runId)).foldlM
    (insertRow "runtime_check_observations") t.checks
  let t : Tables := { t with runs := runs, executions := executions, checks := checks }
  let orphans := orphanPhysicalChecks t runId
  refuseIf (orphans ≠ 0) ("invariant violation: " ++ toString orphans ++
    " physical check observations lack runtime_executions rows")
  let illegitimate := illegitimatePhysicalExecs t runId
  refuseIf (illegitimate ≠ 0) ("invariant violation: " ++ toString illegitimate ++
    " non-physical check observations have runtime_executions rows")
  let changes := t.changes.insertAllOrIgnore (run.plan.changed.map (changeRow runId))
  return { t with changes := changes }

def makeWay (t : Tables) (runId : String) : Tables :=
  if (t.runs.get? runId).isSome then t.deleteRun runId else t

def existing? (t : Tables) (runId artifactDigest : String) : Option RuntimeIngestResult :=
  match t.runs.get? runId with
  | some row =>
    if row.ingestionContractVersion = ingestionContractVersionV2 then
      if row.artifactDigest = artifactDigest then some (.alreadyImported runId artifactDigest)
      else some (.conflict runId row.artifactDigest artifactDigest)
    else none
  | none => none

/-- The run an artifact holds, when it is one that may be stored. -/
def readArtifact (r : Runtime) (bytes : List UInt8) :
    Except RuntimeIngestResult (String × VerificationRun) :=
  if maxRuntimeArtifactBytes < bytes.length then
    .error (.failed none
      ("artifact size (" ++ toString bytes.length ++ " bytes) exceeds maximum bound of " ++
        toString maxRuntimeArtifactBytes ++ " bytes"))
  else
    match r.parseRun bytes with
    | .error e => .error (.failed none ("malformed json in verification artifact: " ++ e))
    | .ok run =>
      let runId := trimmed run.runId
      if runId = "" then .error (.failed none "empty run_id in verification run")
      else
        match validateRun r run with
        | .error reason => .error (.failed (some runId) reason)
        | .ok () => .ok (runId, run)

/-- An error rolls the transaction back. -/
def ingestVerificationArtifact (r : Runtime) (t : Tables) (bytes : List UInt8) (now : Int) :
    Except String RuntimeIngestResult × Tables :=
  match readArtifact r bytes with
  | .error result => (.ok result, t)
  | .ok (runId, run) =>
    let artifactDigest := r.sha256 bytes
    match existing? t runId artifactDigest with
    | some result => (.ok result, t)
    | none =>
      match insertRun r (makeWay t runId) run runId artifactDigest now with
      | .error e => (.error e, t)
      | .ok t' => (.ok (.imported runId artifactDigest), t')

end RuntimeIngest
