import FlowDeck.Library.Json
import FlowDeck.State.StateText
import Mathlib.Data.List.ReduceOption

/-! The planning state kept in `STATE.md`: what writes its lines and what reads them back. -/

namespace PlanningState

open StateText TextLines

/-! ### Values of the language -/

/-- A character of a printed number. -/
def isNumberChar (c : Char) : Bool :=
  c.isAlphanum || c = '+' || c = '-' || c = '.'

structure Num where
  text : Text
  printed : text ≠ []
  chars : ∀ c ∈ text, isNumberChar c = true

theorem one_ne_nil : ['1'] ≠ [] := List.cons_ne_nil _ _

def Num.one : Num where
  text := ['1']
  printed := one_ne_nil
  chars := List.all_eq_true.mp rfl

/-- What `toISOString` prints. -/
structure Stamp where
  text : Text
  plain : Plain text

/-- What the language gives and this model leaves open: `Number` of a text, where it is not NaN,
one more than `parseInt` of digits, `toFixed(2)`, `JSON.parse` where it does not throw, and
`toLowerCase`. -/
structure Host where
  number? : Text → Option Num
  versionAfter : Text → Num
  toFixed : Num → Num
  parseJson? : Text → Option Json
  lowerCase : Text → Text

def textValue (s : Text) : Json := .string (String.ofList s)

def Num.value (n : Num) : Json := .number (String.ofList n.text)

def truthy : Json → Bool
  | .undefined | .null => false
  | .bool b => b
  | .number text => text ≠ "0" && text ≠ "NaN"
  | .string text => text ≠ ""
  | .array _ | .object _ => true

/-- `value || otherwise` -/
def orElse (value otherwise : Json) : Json := if truthy value then value else otherwise

def member (value : Json) (name : String) : Json :=
  match value with
  | .object members => (members.lookup name).getD .undefined
  | _ => .undefined

/-! ### `slugifyTopic` -/

def isSlugChar (c : Char) : Bool := c.isLower || c.isDigit

def dashed : Bool → Text → Text
  | _, [] => []
  | inRun, c :: rest =>
    if isSlugChar c then c :: dashed false rest
    else if inRun then dashed true rest
    else '-' :: dashed true rest

def slugifyTopic (H : Host) (topic : Text) : Text :=
  (((dashed false (H.lowerCase (trim topic))).dropWhile (· = '-')).rdropWhile (· = '-')).take 64

/-! ### `parseState` -/

abbrev Parsed := Text → Json

def isLowerStart (c : Char) : Bool := c.isLower || c = '_'
def isLowerChar (c : Char) : Bool := c.isLower || c.isDigit || c = '_'
def isKeyStart (c : Char) : Bool := c.isAlpha || c = '_'
def isKeyChar (c : Char) : Bool := c.isAlphanum || c = '_'

/-- The key a line begins with, and what follows its colon. -/
def splitKey (first other : Char → Bool) : Text → Option (Text × Text)
  | [] => none
  | c :: rest =>
    if first c then
      match rest.dropWhile other with
      | ':' :: value => some (c :: rest.takeWhile other, value)
      | _ => none
    else none

def isQuote (c : Char) : Bool := c = '\x22' || c = '\x27'

/-- Without a quote at its beginning and one at its end. -/
def unquote (s : Text) : Text :=
  let opened := if s.head?.any isQuote then s.tail else s
  if opened.getLast?.any isQuote then opened.dropLast else opened

/-- `\s*(.+)`: over blanks alone the pattern gives one of them back to the group. -/
def frontValue (s : Text) : Option Text :=
  match s.dropWhile isSpace with
  | [] => if s.any (!isTerminator ·) then some [] else none
  | c :: rest => some ((c :: rest).takeWhile (!isTerminator ·))

def frontEntry (line : Text) : Option (Text × Json) :=
  match splitKey isLowerStart isLowerChar line with
  | some (key, rest) => (frontValue rest).map fun value => (key, textValue (unquote (trim value)))
  | none => none

def listItems (value : Text) : Json :=
  .array ((((value.filter fun c => c ≠ '[' && c ≠ ']').splitOn ',').map trim).filter
    (· ≠ []) |>.map textValue)

def bodyValue (H : Host) (key value : Text) : Json :=
  if key = "steps_complete".toList ∨ key = "steps_pending".toList then listItems value
  else if key = "plan_confirmed".toList then .bool (value = "true".toList)
  else if key = "requires_design_first".toList ∨ key = "design_approved".toList ∨
      key = "design_override".toList then .bool (value = "true".toList)
  else if key = "skippedStages".toList then listItems value
  else if key = "escalationHistory".toList ∨ key = "routingScores".toList then
    (H.parseJson? value).getD .undefined
  else if value ≠ [] ∧ key ≠ "plan_file".toList ∧ key ≠ "confirmed_at".toList ∧
      key ≠ "topic".toList then
    match H.number? value with
    | some n => n.value
    | none => textValue (unquote value)
  else textValue (unquote value)

def bodyEntry (H : Host) (line : Text) : Option (Text × Json) :=
  if line.head? = some '#' then none
  else
    match splitKey isKeyStart isKeyChar line with
    | some (key, rest) =>
      some (key, bodyValue H key (trim ((rest.dropWhile isSpace).takeWhile (!isTerminator ·))))
    | none => none

def setLines (entry : Text → Option (Text × Json)) (lines : List Text) (result : Parsed) : Parsed :=
  lines.foldl (fun result line =>
    match entry line with
    | some (key, value) => Function.update result key value
    | none => result) result

/-- `^---\n([\s\S]*?)\n---\n([\s\S]*)$` -/
def frontMatter (content : Text) : Option (Text × Text) :=
  if "---\n".toList <+: content then splitAtFirst "\n---\n".toList (content.drop 4) else none

def parseState (H : Host) (content : Text) : Parsed :=
  let result : Parsed := fun _ => .undefined
  let result :=
    match frontMatter content with
    | some (front, body) =>
      setLines (bodyEntry H) (body.splitOn '\n') (setLines frontEntry (front.splitOn '\n') result)
    | none => setLines (bodyEntry H) (content.splitOn '\n') result
  Function.update result "exists".toList (.bool true)

/-! ### `createDefaultState` -/

def createDefaultState (phase : Num) (now : Stamp) : Text :=
  join '\n' [
    "---".toList,
    "phase: ".toList ++ phase.text,
    "status: ready".toList,
    "plan_confirmed: false".toList,
    "requires_design_first: false".toList,
    "design_stage: pending".toList,
    "design_approved: false".toList,
    "design_override: false".toList,
    "steps_complete: []".toList,
    "steps_pending: []".toList,
    "last_action: \"initialized\"".toList,
    "next_action: \"run /fd-task\"".toList,
    "blockers: []".toList,
    "freshnessStatus: \"fresh\"".toList,
    "lastUpdatedAt: \"".toList ++ now.text ++ ['\x22'],
    "lastUpdatedBy: \"system\"".toList,
    "lastUpdatedPhase: ".toList ++ phase.text,
    "summaryVersion: 1".toList,
    "---".toList,
    [],
    "# Planning State".toList,
    [],
    "Initialized at ".toList ++ now.text]

/-! ### `readPlanningState` -/

inductive Field
  | phase | topic | status | planConfirmed | taskType | requiresDesignFirst | designStage
  | designApproved | designOverride | designOverrideReason | designArtifact | stepsComplete
  | stepsPending | lastAction | nextAction | blockers | tdd | lastUpdatedAt | lastUpdatedBy
  | lastUpdatedPhase | summaryVersion | freshnessStatus | workflowClass | skippedStages
  | escalationHistory | routingScores | routingReason | planFile

/-- The freshness metadata, which every update writes. -/
def Field.isFreshness : Field → Bool
  | .lastUpdatedAt | .lastUpdatedBy | .lastUpdatedPhase | .summaryVersion | .freshnessStatus => true
  | _ => false

def printed : Json → Text
  | .number text | .string text => text.toList
  | value => value.stringify

def parseTDDState (H : Host) (parsed : Parsed) : Json :=
  let tdd := parsed "tdd".toList
  if truthy tdd then
    match H.parseJson? (printed tdd) with
    | none | some .null => .undefined
    | some obj => .object [
        ("stage", orElse (member obj "stage") (.string "behavior")),
        ("cycle", orElse (member obj "cycle") (.number "1")),
        ("behaviors", orElse (member obj "behaviors") (.array [])),
        ("regression_test_links", orElse (member obj "regression_test_links") (.array [])),
        ("override_log", orElse (member obj "override_log") (.array [])),
        ("failing_tests", orElse (member obj "failing_tests") (.number "0")),
        ("passing_tests", orElse (member obj "passing_tests") (.number "0"))]
  else .undefined

/-- The state where there is no file. -/
def missingState : Field → Json
  | .phase => .number "0"
  | .status | .lastAction | .nextAction | .lastUpdatedAt | .lastUpdatedBy => .string ""
  | .planConfirmed | .requiresDesignFirst | .designApproved | .designOverride => .bool false
  | .designStage => .string "pending"
  | .stepsComplete | .stepsPending | .blockers => .array []
  | .lastUpdatedPhase => .number "1"
  | .summaryVersion => .number "0"
  | .freshnessStatus => .string "unknown"
  | .topic | .taskType | .designOverrideReason | .designArtifact | .tdd | .workflowClass
  | .skippedStages | .escalationHistory | .routingScores | .routingReason | .planFile => .undefined

def readPlanningState (H : Host) (file : Option Text) : Field → Json :=
  match file with
  | none => missingState
  | some content =>
    let parsed := parseState H content
    fun
    | .phase => orElse (parsed "phase".toList) (.number "1")
    | .topic => orElse (parsed "topic".toList) .undefined
    | .status => orElse (parsed "status".toList) (.string "")
    | .planConfirmed => .bool (truthy (parsed "plan_confirmed".toList))
    | .taskType => orElse (parsed "task_type".toList) .undefined
    | .requiresDesignFirst => .bool (truthy (parsed "requires_design_first".toList))
    | .designStage => orElse (parsed "design_stage".toList) (.string "pending")
    | .designApproved => .bool (truthy (parsed "design_approved".toList))
    | .designOverride => .bool (truthy (parsed "design_override".toList))
    | .designOverrideReason => orElse (parsed "design_override_reason".toList) .undefined
    | .designArtifact => orElse (parsed "design_artifact".toList) .undefined
    | .stepsComplete => orElse (parsed "steps_complete".toList) (.array [])
    | .stepsPending => orElse (parsed "steps_pending".toList) (.array [])
    | .lastAction => orElse (parsed "last_action".toList) (.string "")
    | .nextAction => orElse (parsed "next_action".toList) (.string "")
    | .blockers => orElse (parsed "blockers".toList) (.array [])
    | .tdd => parseTDDState H parsed
    | .lastUpdatedAt => orElse (parsed "lastUpdatedAt".toList) (.string "")
    | .lastUpdatedBy => orElse (parsed "lastUpdatedBy".toList) (.string "")
    | .lastUpdatedPhase => orElse (parsed "lastUpdatedPhase".toList) (.number "1")
    | .summaryVersion => orElse (parsed "summaryVersion".toList) (.number "0")
    | .freshnessStatus => orElse (parsed "freshnessStatus".toList) (.string "unknown")
    | .workflowClass => orElse (parsed "workflowClass".toList) .undefined
    | .skippedStages => orElse (parsed "skippedStages".toList) .undefined
    | .escalationHistory => orElse (parsed "escalationHistory".toList) .undefined
    | .routingScores => orElse (parsed "routingScores".toList) .undefined
    | .routingReason => orElse (parsed "routingReason".toList) .undefined
    | .planFile => orElse (parsed "plan_file".toList) .undefined

/-! ### `updatePlanningState` -/

inductive DesignStage
  | pending | discovery | uxPlanning | wireframeLayout | visualSystemDefinition | designApproval
  | handoffComplete

def DesignStage.text : DesignStage → Text
  | .pending => "pending".toList
  | .discovery => "discovery".toList
  | .uxPlanning => "ux_planning".toList
  | .wireframeLayout => "wireframe_layout".toList
  | .visualSystemDefinition => "visual_system_definition".toList
  | .designApproval => "design_approval".toList
  | .handoffComplete => "handoff_complete".toList

/-- The scores of a routing decision as the caller's object lists them, the total among them. -/
structure RoutingScores where
  members : List (String × Num)
  total : Num
  listed : ("total", total) ∈ members

/-- The fields of an update that `updatePlanningState` looks at. -/
structure Updates where
  phase : Option Num := none
  topic : Option Text := none
  status : Option Text := none
  lastAction : Option Text := none
  nextAction : Option Text := none
  blockers : Option (List Text) := none
  planConfirmed : Option Bool := none
  taskType : Option Text := none
  requiresDesignFirst : Option Bool := none
  designStage : Option DesignStage := none
  designApproved : Option Bool := none
  designOverride : Option Bool := none
  designOverrideReason : Option Text := none
  designArtifact : Option Text := none
  stepsComplete : Option (List Num) := none
  stepsPending : Option (List Num) := none
  workflowClass : Option Text := none
  skippedStages : Option (List Text) := none
  routingReason : Option Text := none
  escalationHistory : Option (List (List (String × Text))) := none
  routingScores : Option RoutingScores := none

/-- A step of an update: a line written under its key, or the section of blockers, and what is
noted in the history. -/
inductive Edit
  | line (key value action : Text)
  | blockers (items : List Text) (action : Text)

def quoted (s : Text) : Text := '\x22' :: (s ++ ['\x22'])

/-- In single quotes, those within doubled. -/
def singleQuoted (s : Text) : Text :=
  '\x27' :: (s.flatMap (fun c => if c = '\x27' then ['\x27', '\x27'] else [c]) ++ ['\x27'])

def boolText (b : Bool) : Text := if b then "true".toList else "false".toList

/-- `[${items.join(", ")}]` -/
def bracketed (items : List Text) : Text :=
  '[' :: ((", ".toList).intercalate items ++ [']'])

def natText (n : Nat) : Text := (toString n).toList

def jsonNumber (n : Num) : Json :=
  if n.text = "NaN".toList ∨ n.text = "Infinity".toList ∨ n.text = "-Infinity".toList then .null
  else n.value

def escalationJson (events : List (List (String × Text))) : Json :=
  .array (events.map fun event => .object (event.map fun m => (m.1, textValue m.2)))

def RoutingScores.json (scores : RoutingScores) : Json :=
  .object (scores.members.map fun m => (m.1, jsonNumber m.2))

def Updates.edits (H : Host) (u : Updates) : List Edit :=
  List.reduceOption [
    u.phase.map fun phase =>
      .line "phase".toList phase.text ("Phase changed to ".toList ++ phase.text),
    u.topic.map fun topic =>
      .line "topic".toList (quoted (slugifyTopic H topic))
        ("Topic set to ".toList ++ slugifyTopic H topic),
    u.status.map fun status =>
      .line "status".toList status ("Status changed to ".toList ++ status),
    u.lastAction.map fun action => .line "last_action".toList (quoted action) action,
    u.nextAction.map fun action =>
      .line "next_action".toList (quoted action) ("Next action: ".toList ++ action),
    u.blockers.map fun items =>
      .blockers items ("Blockers updated: ".toList ++ natText items.length ++
        " item(s)".toList),
    u.planConfirmed.map fun b =>
      .line "plan_confirmed".toList (boolText b) ("Plan confirmed: ".toList ++ boolText b),
    u.taskType.map fun task =>
      .line "task_type".toList (quoted task) ("Task type set: ".toList ++ task),
    u.requiresDesignFirst.map fun b =>
      .line "requires_design_first".toList (boolText b)
        ("requires_design_first: ".toList ++ boolText b),
    u.designStage.map fun stage =>
      .line "design_stage".toList (quoted stage.text) ("design_stage: ".toList ++ stage.text),
    u.designApproved.map fun b =>
      .line "design_approved".toList (boolText b) ("design_approved: ".toList ++ boolText b),
    u.designOverride.map fun b =>
      .line "design_override".toList (boolText b) ("design_override: ".toList ++ boolText b),
    u.designOverrideReason.map fun reason =>
      .line "design_override_reason".toList (quoted reason)
        "design_override_reason updated".toList,
    u.designArtifact.map fun artifact =>
      .line "design_artifact".toList (singleQuoted artifact) "design_artifact updated".toList,
    u.stepsComplete.map fun steps =>
      .line "steps_complete".toList (bracketed (steps.map Num.text))
        ("Steps complete: ".toList ++ bracketed (steps.map Num.text)),
    u.stepsPending.map fun steps =>
      .line "steps_pending".toList (bracketed (steps.map Num.text))
        ("Steps pending: ".toList ++ bracketed (steps.map Num.text)),
    u.workflowClass.map fun name =>
      .line "workflowClass".toList (quoted name) ("Workflow class: ".toList ++ name),
    u.skippedStages.map fun stages =>
      .line "skippedStages".toList (bracketed stages)
        ("Skipped stages: ".toList ++ bracketed stages),
    u.routingReason.map fun reason =>
      .line "routingReason".toList (quoted reason) ("Routing reason: ".toList ++ reason),
    u.escalationHistory.map fun events =>
      .line "escalationHistory".toList (escalationJson events).stringify
        ("Escalation: ".toList ++ natText events.length ++ " event(s)".toList),
    u.routingScores.map fun scores =>
      .line "routingScores".toList scores.json.stringify
        ("Routing score: ".toList ++ (H.toFixed scores.total).text)]

def applyEdit (now : Stamp) (content : Text) : Edit → Text
  | .line key value action => appendHistory now.text (upsertLine content key value) action
  | .blockers items action => appendHistory now.text (replaceBlockers content items) action

def versionKey : Text := "summaryVersion".toList

/-- `summaryVersion:\s*(\d+)` at the beginning of a text. -/
def versionLine (s : Text) : Option Match :=
  if versionKey ++ [':'] <+: s then
    let tail := s.drop (versionKey.length + 1)
    let line := tail.dropWhile isSpace
    let digits := line.takeWhile Char.isDigit
    if digits = [] then none
    else some {
      before := []
      matched := versionKey ++ ':' :: (tail.takeWhile isSpace ++ digits)
      group := some digits
      after := line.dropWhile Char.isDigit }
  else none

def newVersion (H : Host) (content : Text) : Num :=
  match (firstAtLine versionLine true content).bind Match.group with
  | some digits => H.versionAfter digits
  | none => .one

/-- The lines that every update writes at its end. -/
def freshness (now currentPhase version : Text) : List (Text × Text) :=
  [("lastUpdatedAt".toList, quoted now), ("lastUpdatedBy".toList, "\"system\"".toList),
    ("lastUpdatedPhase".toList, currentPhase), ("summaryVersion".toList, version),
    ("freshnessStatus".toList, "fresh".toList)]

/-- The file after an update; `clock` gives the times of its calls of `timestamp`. -/
def updatePlanningState (H : Host) (clock : Nat → Stamp) (content : Text) (updates : Updates) :
    Text :=
  let edits := updates.edits H
  let edited := edits.zipIdx.foldl (fun content e => applyEdit (clock e.2) content e.1) content
  let now := clock edits.length
  let currentPhase := printed (orElse (parseState H content "phase".toList) (.number "1"))
  let version := (newVersion H edited).text
  let fresh := (freshness now.text currentPhase version).foldl
    (fun content line => upsertLine content line.1 line.2) edited
  appendHistory (clock (edits.length + 1)).text fresh
    ("Freshness updated by system at phase ".toList ++ currentPhase ++ " (v".toList ++ version ++
      [')'])

end PlanningState
