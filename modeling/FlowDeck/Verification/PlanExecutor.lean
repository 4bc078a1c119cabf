import FlowDeck.Verification.CheckResolution
import FlowDeck.Verification.RunArtifact

/-! The execution of a verification plan, check by check. -/

namespace PlanExecutor

open CalibrationHistory CheckDiscovery CheckResolution Paths PolicyStore RunArtifact Statements

structure ConcreteInvocation where
  program : String
  argv : List String
  cwd : String
  deriving DecidableEq

def packageArgs : Option String → List String
  | none => []
  | some pkg => ["-p", pkg]

/-- Every package manager is given the file in the same way. -/
def toInvocation (repo : Repository) : ExecutionAction → Except String ConcreteInvocation
  | .npmRunScript pkgDir scriptName packageManager =>
    .ok ⟨packageManager, ["run", scriptName], absoluteDir repo pkgDir⟩
  | .npmRunTestFile pkgDir testFileRel packageManager _ =>
    .ok ⟨packageManager, ["run", "test", "--", testFileRel], absoluteDir repo pkgDir⟩
  | .cargoTestPackage pkgDir packageName =>
    .ok ⟨"cargo", "test" :: packageArgs packageName, absoluteDir repo pkgDir⟩
  | .cargoTestTarget pkgDir packageName testTarget =>
    .ok ⟨"cargo", "test" :: packageArgs packageName ++ ["--test", testTarget],
      absoluteDir repo pkgDir⟩
  | .cargoCheckPackage pkgDir packageName =>
    .ok ⟨"cargo", "check" :: packageArgs packageName, absoluteDir repo pkgDir⟩
  | .cargoClippyPackage pkgDir packageName =>
    .ok ⟨"cargo", "clippy" :: packageArgs packageName, absoluteDir repo pkgDir⟩
  | .cargoBuildPackage pkgDir packageName =>
    .ok ⟨"cargo", "build" :: packageArgs packageName, absoluteDir repo pkgDir⟩
  | .unsupported _ reason => .error reason

structure Services where
  redactSecrets : String → String
  planJson : VerificationPlan → String
  runJson : VerificationRun → List UInt8
  sha256Hex : String → String

structure ProcessBounds where
  timeoutSecs : Nat
  maxStdoutBytes : Nat
  maxStderrBytes : Nat

structure VerificationExecutorOptions where
  bounds : ProcessBounds
  failFast : Bool
  persist : Bool
  base : Option String
  head : Option String

/-- What was read of a stream; `tail` is the text of its last bytes. -/
structure StreamCapture where
  digest : String
  bytes : Nat
  truncated : Bool
  tail : String

/-- How a process came to its end. -/
inductive ProcessEnd
  | unsupportedPlatform
  | spawnError (e : String)
  | waitError (e : String)
  | ended (timedOut overflowed : Bool) (exitCode : Option Int) (signal : Option Nat)
      (stdout stderr : StreamCapture)

structure Process where
  startedAtMs : Nat
  durationMs : Nat
  ending : ProcessEnd

structure RawProcessOutcome where
  executionId : String
  status : CheckExecutionStatus
  exitCode : Option Int
  signal : Option String
  durationMs : Nat
  stdoutDigest : Option String
  stderrDigest : Option String
  stdoutExcerpt : Option String
  stderrExcerpt : Option String
  stdoutCapturedBytes : Nat
  stderrCapturedBytes : Nat
  stdoutTruncated : Bool
  stderrTruncated : Bool
  startedAtMs : Nat
  reason : Option String

def generateExecutionId (program : String) (startedAtMs count : Nat) : String :=
  "exec_" ++ toString startedAtMs ++ "_" ++ (fileStem? program).getD "proc" ++ "_" ++ toString count

/-- The outcome of a process of which no output is read. -/
def unreadOutcome (executionId : String) (status : CheckExecutionStatus)
    (startedAtMs durationMs : Nat) (reason : String) : RawProcessOutcome where
  executionId := executionId
  status := status
  exitCode := none
  signal := none
  durationMs := durationMs
  stdoutDigest := none
  stderrDigest := none
  stdoutExcerpt := none
  stderrExcerpt := none
  stdoutCapturedBytes := 0
  stderrCapturedBytes := 0
  stdoutTruncated := false
  stderrTruncated := false
  startedAtMs := startedAtMs
  reason := some reason

def endStatus (bounds : ProcessBounds) (timedOut exceeded : Bool) (exitCode : Option Int)
    (signal : Option String) : CheckExecutionStatus × Option String :=
  if timedOut then
    (.timedOut, some ("execution timed out after " ++ toString bounds.timeoutSecs ++ "s"))
  else if exceeded then (.outputLimitExceeded, some "output exceeded maximum byte cap")
  else
    match exitCode, signal with
    | some code, _ =>
      if code = 0 then (.passed, none)
      else (.failed, some ("command exited with status " ++ toString code))
    | none, some sig => (.failed, some ("terminated by signal " ++ sig))
    | none, none => (.failed, some "command terminated abnormally")

def executeBoundedCommand (x : Services) (bounds : ProcessBounds) (program : String) (count : Nat)
    (process : Process) : RawProcessOutcome :=
  let executionId := generateExecutionId program process.startedAtMs count
  match process.ending with
  | .unsupportedPlatform =>
    unreadOutcome executionId .unsupported process.startedAtMs 0
      "process group containment unsupported on Windows platform"
  | .spawnError e =>
    unreadOutcome executionId .spawnFailed process.startedAtMs process.durationMs
      (x.redactSecrets ("failed to spawn '" ++ program ++ "': " ++ e))
  | .waitError e =>
    unreadOutcome executionId .spawnFailed process.startedAtMs process.durationMs
      (x.redactSecrets ("wait error: " ++ e))
  | .ended timedOut overflowed exitCode signal stdout stderr =>
    let signalName := signal.map fun number => "SIG" ++ toString number
    let stdoutTruncated := stdout.truncated || decide (bounds.maxStdoutBytes ≤ stdout.bytes)
    let stderrTruncated := stderr.truncated || decide (bounds.maxStderrBytes ≤ stderr.bytes)
    let excerpt (tail : String) : Option String :=
      if tail = "" then none else some (x.redactSecrets tail)
    let (status, reason) := endStatus bounds timedOut
      (overflowed || stdoutTruncated || stderrTruncated) exitCode signalName
    { executionId := executionId
      status := status
      exitCode := exitCode
      signal := signalName
      durationMs := process.durationMs
      stdoutDigest := some stdout.digest
      stderrDigest := some stderr.digest
      stdoutExcerpt := excerpt stdout.tail
      stderrExcerpt := excerpt stderr.tail
      stdoutCapturedBytes := stdout.bytes
      stderrCapturedBytes := stderr.bytes
      stdoutTruncated := stdoutTruncated
      stderrTruncated := stderrTruncated
      startedAtMs := process.startedAtMs
      reason := reason }

/-- The checkout as each check in turn finds it: a process may have changed its files. -/
structure Checkout where
  root : String
  files : Nat → Repository
  rooted : ∀ i, (files i).root = root

/-- The clocks, the counters of the process and what becomes of the processes it runs, by the place
of the check they are for. No two executions are counted alike. -/
structure World where
  startWall : Nat
  nowNanos : Nat
  runCount : Nat
  pid : Nat
  clock : Nat → Nat
  process : Nat → Process
  execCount : Nat → Nat
  counted : Function.Injective execCount
  elapsedMs : Nat
  persistError : Option String

def isFailure : CheckExecutionStatus → Bool
  | .failed => true
  | _ => false

def isIncomplete : CheckExecutionStatus → Bool
  | .timedOut | .outputLimitExceeded | .spawnFailed | .unsupported | .cancelled | .skipped => true
  | _ => false

def kindDebug : VerificationCheckKind → String
  | .unitTest => "UnitTest"
  | .integrationTest => "IntegrationTest"
  | .endToEndTest => "EndToEndTest"
  | .typecheck => "Typecheck"
  | .lint => "Lint"
  | .build => "Build"
  | .format => "Format"
  | .custom => "Custom"

/-- Two planned checks of one id are the same check. -/
def isIdentical (existing check : PlannedCheck) : Bool :=
  existing.kind = check.kind && existing.scope = check.scope && existing.reason = check.reason &&
    existing.selection = check.selection && existing.strength = check.strength &&
    existing.mandatory = check.mandatory && existing.wideningReason = check.wideningReason

/-- The first check of each id, the conflicts by id, the latest first, and the duplicates met. -/
structure Deduplication where
  uniqueChecks : List PlannedCheck := []
  conflicting : List (String × String) := []
  uncertainties : List UncertaintyReason := []

def deduplicateStep (d : Deduplication) (check : PlannedCheck) : Deduplication :=
  match d.uniqueChecks.find? fun existing => existing.checkId = check.checkId with
  | some existing =>
    if isIdentical existing check then
      { d with
        uncertainties := d.uncertainties ++
          [.buildProviderFailed ("duplicate identical check '" ++ check.checkId ++
            "' deduplicated")] }
    else
      { d with
        conflicting := (check.checkId, "conflicting duplicate check '" ++ check.checkId ++
          "' in plan (kind: " ++ kindDebug existing.kind ++ " vs " ++ kindDebug check.kind ++
          ", scope: " ++ existing.scope ++ " vs " ++ check.scope ++ ")") :: d.conflicting }
  | none => { d with uniqueChecks := d.uniqueChecks ++ [check] }

def deduplicate (plan : VerificationPlan) : Deduplication :=
  plan.selectedChecks.foldl deduplicateStep {}

def notRun (check : PlannedCheck) (status : CheckExecutionStatus) (label : String) (now : Nat)
    (reason : String) : CheckExecutionResult where
  checkId := check.checkId
  kind := check.kind
  status := status
  executionId := label ++ check.checkId
  reusedExecution := false
  command := []
  cwd := "."
  exitCode := none
  signal := none
  durationMs := 0
  stdoutDigest := none
  stderrDigest := none
  stdoutExcerpt := none
  stderrExcerpt := none
  stdoutCapturedBytes := 0
  stderrCapturedBytes := 0
  stdoutTruncated := false
  stderrTruncated := false
  startedAtMs := now
  reason := some reason

/-- The directory as it is written in a result, relative to the root where it is below it. -/
def displayCwd (root cwd : String) : String :=
  let relCwd := (relativeTo? cwd root).getD cwd
  if relCwd = "" then "." else relCwd

def runResult (root : String) (check : PlannedCheck) (inv : ConcreteInvocation)
    (outcome : RawProcessOutcome) (reused : Bool) : CheckExecutionResult where
  checkId := check.checkId
  kind := check.kind
  status := outcome.status
  executionId := outcome.executionId
  reusedExecution := reused
  command := inv.program :: inv.argv
  cwd := displayCwd root inv.cwd
  exitCode := outcome.exitCode
  signal := outcome.signal
  durationMs := outcome.durationMs
  stdoutDigest := outcome.stdoutDigest
  stderrDigest := outcome.stderrDigest
  stdoutExcerpt := outcome.stdoutExcerpt
  stderrExcerpt := outcome.stderrExcerpt
  stdoutCapturedBytes := outcome.stdoutCapturedBytes
  stderrCapturedBytes := outcome.stderrCapturedBytes
  stdoutTruncated := outcome.stdoutTruncated
  stderrTruncated := outcome.stderrTruncated
  startedAtMs := outcome.startedAtMs
  reason := outcome.reason

/-- Invocations are cached under their directory as a path, not as a text. -/
abbrev InvocationKey := String × List String × List Component

def ConcreteInvocation.cacheKey (inv : ConcreteInvocation) : InvocationKey :=
  (inv.program, inv.argv, components inv.cwd)

structure Progress where
  results : List CheckExecutionResult := []
  invocationCache : List (InvocationKey × RawProcessOutcome) := []
  failFastTriggered : Bool := false

def resolve (c : Checkout) (i : Nat) (check : PlannedCheck) : Except String ConcreteInvocation :=
  toInvocation (c.files i) (resolveCheckAction (c.files i) check.checkId)

/-- A result of a check that is not run, after which the others are skipped under fail-fast. -/
def Progress.refuse (p : Progress) (options : VerificationExecutorOptions)
    (result : CheckExecutionResult) : Progress :=
  { p with
    results := p.results ++ [result]
    failFastTriggered := p.failFastTriggered || options.failFast }

def Progress.invoke (p : Progress) (x : Services) (options : VerificationExecutorOptions)
    (root : String) (w : World) (i : Nat) (check : PlannedCheck) (inv : ConcreteInvocation) :
    Progress :=
  match p.invocationCache.lookup inv.cacheKey with
  | some cached =>
    { p with
      results := p.results ++ [runResult root check inv cached true]
      failFastTriggered := p.failFastTriggered ||
        options.failFast && (isFailure cached.status || isIncomplete cached.status) }
  | none =>
    let outcome := executeBoundedCommand x options.bounds inv.program (w.execCount i) (w.process i)
    { results := p.results ++ [runResult root check inv outcome false]
      invocationCache := p.invocationCache ++ [(inv.cacheKey, outcome)]
      failFastTriggered := p.failFastTriggered ||
        options.failFast && (isFailure outcome.status || isIncomplete outcome.status) }

def performCheck (x : Services) (c : Checkout) (options : VerificationExecutorOptions)
    (conflicting : List (String × String)) (w : World) (i : Nat) (check : PlannedCheck)
    (p : Progress) : Progress :=
  if p.failFastTriggered then
    { p with
      results := p.results ++
        [notRun check .skipped "skipped:" (w.clock i) "skipped due to fail-fast"] }
  else
    match conflicting.lookup check.checkId with
    | some message =>
      p.refuse options (notRun check .unsupported "conflict:" (w.clock i) message)
    | none =>
      match resolve c i check with
      | .error reason =>
        p.refuse options
          (notRun check .unsupported "unsupported:" (w.clock i) (x.redactSecrets reason))
      | .ok inv => p.invoke x options c.root w i check inv

def performChecks (x : Services) (c : Checkout) (options : VerificationExecutorOptions)
    (conflicting : List (String × String)) (w : World) :
    Nat → List PlannedCheck → Progress → Progress
  | _, [], p => p
  | i, check :: checks, p =>
    performChecks x c options conflicting w (i + 1) checks
      (performCheck x c options conflicting w i check p)

def aggregateOutcome (plan : VerificationPlan) (checks : List CheckExecutionResult) :
    VerificationOutcome :=
  if checks.any fun check => check.status = .failed then .failed
  else if (checks.any fun check => check.status ≠ .failed && check.status ≠ .passed) ||
      !plan.unresolvedObligations.isEmpty then .incomplete
  else .passed

def incompleteReason? (check : CheckExecutionResult) : Option UncertaintyReason :=
  if isIncomplete check.status then
    check.reason.map fun reason =>
      .buildProviderFailed ("check '" ++ check.checkId ++ "' incomplete: " ++ reason)
  else none

def obligationReason (uo : UnresolvedVerificationObligation) : UncertaintyReason :=
  .buildProviderFailed ("unresolved obligation in scope '" ++ uo.scope ++ "': " ++ uo.reason ++
    " (source: " ++ uo.source ++ ")")

/-- The assurance of the plan is never raised. -/
def propagateAssurance (plan : VerificationPlan) (checks : List CheckExecutionResult)
    (extraUncertainties : List UncertaintyReason) : AssuranceLevel × List UncertaintyReason :=
  let anyIncomplete := (checks.any fun check => isIncomplete check.status) ||
    !plan.unresolvedObligations.isEmpty
  (if anyIncomplete then .unverified else plan.assurance,
    plan.uncertainty ++ extraUncertainties ++ checks.filterMap incompleteReason? ++
      plan.unresolvedObligations.map obligationReason)

def generateUniqueRunId (x : Services) (plan : VerificationPlan) (w : World) : String :=
  let entropy := ":".intercalate
    [toString w.nowNanos, toString w.runCount, toString w.pid, x.planJson plan, toString w.runCount]
  "run_" ++ toString w.startWall ++ "_" ++ ((x.sha256Hex entropy).take 16).toString

def runArtifactPath (root runId : String) : String :=
  join (join (join root ".fdx") "runs") (runId ++ ".json")

/-- The run as it is before anything is written of it. -/
def initialRun (x : Services) (c : Checkout) (plan : VerificationPlan)
    (options : VerificationExecutorOptions) (w : World) : VerificationRun :=
  let runId := generateUniqueRunId x plan w
  let d := deduplicate plan
  let results := (performChecks x c options d.conflicting w 0 d.uniqueChecks {}).results
  let (assurance, uncertainty) := propagateAssurance plan results d.uncertainties
  { runId := runId
    plan := plan
    outcome := aggregateOutcome plan results
    assurance := assurance
    checks := results
    uncertainty := uncertainty
    base := options.base
    head := options.head
    persistenceStatus :=
      if options.persist then .persisted (runArtifactPath c.root runId) else .notRequested
    executedAtMs := w.startWall
    durationMs := w.elapsedMs }

/-- The run when its artifact could not be written. -/
def failPersistence (run : VerificationRun) (e : String) : VerificationRun :=
  { run with
    persistenceStatus := .failed ("failed to persist verification run: " ++ e)
    outcome := if run.outcome = .passed then .incomplete else run.outcome
    assurance := .unverified
    uncertainty := run.uncertainty ++
      [.buildProviderFailed ("verification run persistence failed: " ++ e)] }

/-- The run, and its artifact where one is written. -/
def executeVerificationPlan (x : Services) (c : Checkout) (plan : VerificationPlan)
    (options : VerificationExecutorOptions) (w : World) : VerificationRun × Option (List UInt8) :=
  let run := initialRun x c plan options w
  if options.persist then
    match w.persistError with
    | some e => (failPersistence run e, none)
    | none => (run, some (x.runJson run))
  else (run, none)

end PlanExecutor
