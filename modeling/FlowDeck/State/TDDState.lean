import FlowDeck.State.PlanningState

/-! The TDD state, which `STATE.md` keeps as JSON in one line, the other calls that write the file,
and the second reader of its confirmation. -/

namespace PlanningState

open StateText TextLines

/-! ### The TDD state -/

inductive TDDField
  | stage | cycle | behaviors | regressionTestLinks | overrideLog | failingTests | passingTests
  deriving DecidableEq

def TDDField.name : TDDField → String
  | .stage => "stage"
  | .cycle => "cycle"
  | .behaviors => "behaviors"
  | .regressionTestLinks => "regression_test_links"
  | .overrideLog => "override_log"
  | .failingTests => "failing_tests"
  | .passingTests => "passing_tests"

def tddFields : List TDDField :=
  [.stage, .cycle, .behaviors, .regressionTestLinks, .overrideLog, .failingTests, .passingTests]

abbrev TDDState := TDDField → Json

def TDDState.json (tdd : TDDState) : Json := .object (tddFields.map fun f => (f.name, tdd f))

/-- The TDD state of an object that `parseTDDState` gave. -/
def tddOf (value : Json) : TDDState := fun f => member value f.name

def initialTDDState : TDDState
  | .stage => .string "behavior"
  | .cycle => .number "1"
  | .behaviors | .regressionTestLinks | .overrideLog => .array []
  | .failingTests | .passingTests => .number "0"

inductive TDDStage
  | behavior | red | green | refactor | complete

def TDDStage.text : TDDStage → Text
  | .behavior => "behavior".toList
  | .red => "red".toList
  | .green => "green".toList
  | .refactor => "refactor".toList
  | .complete => "complete".toList

inductive BehaviorStatus
  | pending | red | green | refactor | complete

def BehaviorStatus.text : BehaviorStatus → Text
  | .pending => "pending".toList
  | .red => "red".toList
  | .green => "green".toList
  | .refactor => "refactor".toList
  | .complete => "complete".toList

structure TDDBehavior where
  id : Text
  description : Text
  status : BehaviorStatus
  testFile : Option Text

def TDDBehavior.json (b : TDDBehavior) : Json :=
  .object ([("id", textValue b.id), ("description", textValue b.description),
    ("status", textValue b.status.text)] ++
      b.testFile.toList.map fun file => ("test_file", textValue file))

structure TDDOverride where
  timestamp : Text
  stage : Text
  reason : Text
  overrideBy : Text

def TDDOverride.json (o : TDDOverride) : Json :=
  .object [("timestamp", textValue o.timestamp), ("stage", textValue o.stage),
    ("reason", textValue o.reason), ("override_by", textValue o.overrideBy)]

/-- The fields that a caller of `updateTDDState` gives. -/
structure TDDUpdates where
  stage : Option TDDStage := none
  cycle : Option Num := none
  behaviors : Option (List TDDBehavior) := none
  regressionTestLinks : Option (List Text) := none
  overrideLog : Option (List TDDOverride) := none
  failingTests : Option Num := none
  passingTests : Option Num := none

def TDDUpdates.fields (u : TDDUpdates) : TDDField → Option Json
  | .stage => u.stage.map fun stage => textValue stage.text
  | .cycle => u.cycle.map jsonNumber
  | .behaviors => u.behaviors.map fun behaviors => .array (behaviors.map TDDBehavior.json)
  | .regressionTestLinks => u.regressionTestLinks.map fun links => .array (links.map textValue)
  | .overrideLog => u.overrideLog.map fun log => .array (log.map TDDOverride.json)
  | .failingTests => u.failingTests.map jsonNumber
  | .passingTests => u.passingTests.map jsonNumber

/-! ### `updateTDDState` -/

def tddKey : Text := "tdd".toList

/-- `tdd:.*$` at the beginning of a text. -/
def tddLine (s : Text) : Option Match :=
  if tddKey ++ [':'] <+: s then
    some ⟨[], s.takeWhile (!isTerminator ·), none, s.dropWhile (!isTerminator ·)⟩
  else none

def doubled (s : Text) : Text := s.flatMap fun c => if c = '\x27' then ['\x27', '\x27'] else [c]

/-- The file with the JSON in its line: in place of the first such line where the text holds `tdd:`
anywhere, else before the first dashes behind those it begins with. -/
def writeTDD (content tddJson : Text) : Text :=
  if tddKey ++ [':'] <:+: content then
    match firstAtLine tddLine true content with
    | some m => m.replace (tddKey ++ ": '".toList ++ tddJson ++ ['\x27'])
    | none => content
  else if "---".toList <+: content then
    match splitAtFirst "---".toList (content.drop 3) with
    | some (before, after) =>
      content.take 3 ++ before ++ '\n' :: (tddKey ++ ": '".toList ++ doubled tddJson ++ ['\x27']) ++
        "---".toList ++ after
    | none => content
  else content

/-- The TDD state that an update begins with. -/
def currentTDD (H : Host) (content : Text) : TDDState :=
  match readPlanningState H (some content) .tdd with
  | .undefined => initialTDDState
  | value => tddOf value

def mergeTDD (current : TDDState) (updates : TDDField → Option Json) : TDDState :=
  fun f => (updates f).getD (current f)

/-- The file after an update of the TDD state at a time. -/
def updateTDDFields (H : Host) (now : Stamp) (content : Text) (updates : TDDField → Option Json) :
    Text :=
  let updated := mergeTDD (currentTDD H content) updates
  appendHistory now.text (writeTDD content updated.json.stringify)
    ("TDD state updated: stage=".toList ++ printed (updated .stage) ++ ", cycle=".toList ++
      printed (updated .cycle))

def updateTDDState (H : Host) (now : Stamp) (content : Text) (updates : TDDUpdates) : Text :=
  updateTDDFields H now content updates.fields

def overrideLog (tdd : TDDState) : List Json :=
  match tdd .overrideLog with
  | .array items => items
  | _ => []

def withOverride (tdd : TDDState) (override : Json) : TDDField → Option Json
  | .overrideLog => some (.array (overrideLog tdd ++ [override]))
  | _ => none

/-- The file after an override was logged; `timed` is when, and `now` when the state is updated. -/
def logTDDOverride (H : Host) (timed now : Stamp) (content stage reason overrideBy : Text) : Text :=
  match readPlanningState H (some content) .tdd with
  | .undefined => content
  | value =>
    updateTDDFields H now content
      (withOverride (tddOf value) (TDDOverride.json ⟨timed.text, stage, reason, overrideBy⟩))

/-! ### `publishStateUpdate` and `markStateStale` -/

/-- The lines that publishing writes. -/
def published (now agent phase version : Text) : List (Text × Text) :=
  [("lastUpdatedAt".toList, quoted now), ("lastUpdatedBy".toList, quoted agent),
    ("lastUpdatedPhase".toList, phase), ("summaryVersion".toList, version),
    ("freshnessStatus".toList, "fresh".toList)]

/-- The file after it was published at the time `now`; the history notes the time `later`. -/
def publishStateUpdate (H : Host) (now later : Stamp) (content agent : Text) (phase : Num) : Text :=
  let version := (newVersion H content).text
  let fresh := (published now.text agent phase.text version).foldl
    (fun content line => upsertLine content line.1 line.2) content
  appendHistory later.text fresh ("State published by ".toList ++ agent ++ " at phase ".toList ++
    phase.text ++ " (v".toList ++ version ++ [')'])

def markStateStale (now : Stamp) (content : Text) : Text :=
  appendHistory now.text (upsertLine content "freshnessStatus".toList "stale".toList)
    "State marked stale — re-exploration required".toList

/-! ### `planningWorkspaceStatus` -/

inductive PlanningWorkspaceStatus
  | absent | incompleteOrphaned | validNoActivePlan | activeUnconfirmed | activeConfirmed
  | corruptStale
  deriving DecidableEq

def beginsAnyCase (lower s : Text) : Bool :=
  lower.length ≤ s.length && (s.take lower.length).map Char.toLower = lower

/-- `plan_confirmed:\s*(true|false)` in letters of either case at the beginning of a text, with what
its group says. -/
def confirmedHere (s : Text) : Option Bool :=
  let key := "plan_confirmed:".toList
  if beginsAnyCase key s then
    let value := (s.drop key.length).dropWhile isSpace
    if beginsAnyCase "true".toList value then some true
    else if beginsAnyCase "false".toList value then some false
    else none
  else none

/-- The first place of the pattern. -/
def firstConfirmed : Text → Option Bool
  | [] => none
  | c :: rest =>
    match confirmedHere (c :: rest) with
    | some b => some b
    | none => firstConfirmed rest

/-- The planning directory: its `STATE.md` may be missing, and one that is there may not be read. -/
structure PlanningDir where
  state : Option (Option Text)

def planningWorkspaceStatus (dir : Option PlanningDir) : PlanningWorkspaceStatus :=
  match dir with
  | none => .absent
  | some ⟨none⟩ => .incompleteOrphaned
  | some ⟨some none⟩ => .corruptStale
  | some ⟨some (some content)⟩ =>
    if trim content = [] then .incompleteOrphaned
    else
      match firstConfirmed content with
      | none => .validNoActivePlan
      | some isConfirmed => if isConfirmed then .activeConfirmed else .activeUnconfirmed

end PlanningState
