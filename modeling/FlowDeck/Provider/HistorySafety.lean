import FlowDeck.State.StateText

/-! The history that a provider is sent again: what its validator reports and what the sanitizer
makes of it. -/

namespace ProviderHistory

/-- `state` of a tool part, which may be a text, a record with or without a status, or missing. -/
inductive ToolState
  | missing
  | text (state : String)
  | record (status : Option String)
  deriving DecidableEq

def ToolState.status : ToolState → Option String
  | .missing => none
  | .text state => some state
  | .record status => status

inductive Part
  | text (id : Option String) (text : Option String)
  | reasoning (id : Option String) (text : Option String)
  | tool (id : Option String) (callID : Option String) (state : ToolState)
  | other (id : Option String) (type : String)
  deriving DecidableEq

inductive Role
  | user
  | assistant
  | other (name : String)
  deriving DecidableEq

/-- `error` says whether the message carries one. -/
structure Info where
  id : String
  role : Role
  error : Bool
  deriving DecidableEq

structure Message where
  info : Info
  parts : List Part
  deriving DecidableEq

/-- `text?.trim()` holds a character. -/
def isVisible (text : Option String) : Bool :=
  !(StateText.trim (text.getD "").toList).isEmpty

def Part.isReasoning : Part → Bool
  | .reasoning _ _ => true
  | _ => false

def ToolState.isUnresolved (state : ToolState) : Bool :=
  state.status = some "pending" || state.status = some "running"

/-- `state === "completed" || !state`. -/
def ToolState.isCompleted (state : ToolState) : Bool :=
  state.status = some "completed" || state.status = none || state.status = some ""

/-- A call id that is missing or empty is none. -/
def callKey (callID : Option String) : Option String :=
  callID.filter (· ≠ "")

/-! ### `validateHistorySafety` -/

inductive HistorySafetyIssue
  | emptyAssistant
  | reasoningOnlyAssistant
  | unresolvedToolCall
  | duplicateToolCallId
  | emptyReplayContent
  | reasoningPartInReplay
  | errorMessageInReplay
  deriving DecidableEq

structure ProviderHistoryDiagnostics where
  safe : Bool := true
  issues : List HistorySafetyIssue := []
  reasoningOnlyTurns : Nat := 0
  emptyTurns : Nat := 0
  deriving DecidableEq

def ProviderHistoryDiagnostics.push (d : ProviderHistoryDiagnostics) (issue : HistorySafetyIssue) :
    ProviderHistoryDiagnostics :=
  { d with issues := d.issues ++ [issue], safe := false }

def ProviderHistoryDiagnostics.pushOnce (d : ProviderHistoryDiagnostics)
    (issue : HistorySafetyIssue) : ProviderHistoryDiagnostics :=
  if d.issues.contains issue then d else d.push issue

/-- What the parts of a turn are found to hold. -/
structure Content where
  hasVisibleText : Bool := false
  hasReasoning : Bool := false
  hasToolCall : Bool := false

structure Validation where
  diagnostics : ProviderHistoryDiagnostics := {}
  seenCallIds : List String := []
  content : Content := {}

def Validation.push (v : Validation) (issue : HistorySafetyIssue) : Validation :=
  { v with diagnostics := v.diagnostics.push issue }

def Validation.pushOnce (v : Validation) (issue : HistorySafetyIssue) : Validation :=
  { v with diagnostics := v.diagnostics.pushOnce issue }

def validateCallId (v : Validation) (callID : Option String) : Validation :=
  match callKey callID with
  | none => v
  | some key =>
    if v.seenCallIds.contains key then v.push .duplicateToolCallId
    else { v with seenCallIds := key :: v.seenCallIds }

def validatePart (v : Validation) : Part → Validation
  | .text _ text =>
    if isVisible text then { v with content := { v.content with hasVisibleText := true } } else v
  | .reasoning _ _ =>
    { v with content := { v.content with hasReasoning := true } }.pushOnce .reasoningPartInReplay
  | .tool _ callID state =>
    let v := validateCallId { v with content := { v.content with hasToolCall := true } } callID
    if state.isUnresolved then v.push .unresolvedToolCall else v
  | .other _ _ => v

/-- The verdict on an assistant turn by what its parts hold. -/
def validateContent (v : Validation) : Validation :=
  if !v.content.hasVisibleText && !v.content.hasToolCall && v.content.hasReasoning then
    let d := v.diagnostics.pushOnce .reasoningOnlyAssistant
    { v with diagnostics := { d with reasoningOnlyTurns := d.reasoningOnlyTurns + 1, safe := false } }
  else if !v.content.hasVisibleText && !v.content.hasToolCall && !v.content.hasReasoning then
    let d := v.diagnostics.pushOnce .emptyAssistant
    { v with diagnostics := { d with emptyTurns := d.emptyTurns + 1, safe := false } }
  else v

/-- A missing message, or one without info, is passed over. -/
def validateMessage (v : Validation) : Option Message → Validation
  | none => v
  | some msg =>
    let v := if msg.parts.isEmpty then v.push .emptyReplayContent else v
    let v := if msg.info.error then v.pushOnce .errorMessageInReplay else v
    if msg.info.role = .assistant then
      validateContent (msg.parts.foldl validatePart { v with content := {} })
    else v

def validateHistorySafety (messages : List (Option Message)) : ProviderHistoryDiagnostics :=
  (messages.foldl validateMessage {}).diagnostics

/-! ### `sanitizeReplayHistory` -/

structure Cleaning where
  seenCallIds : List String
  hasVisibleText : Bool := false
  hasCompletedTool : Bool := false
  cleaned : List Part := []

def Cleaning.keep (c : Cleaning) (part : Part) : Cleaning :=
  { c with cleaned := c.cleaned ++ [part] }

def cleanPart (c : Cleaning) (part : Part) : Cleaning :=
  match part with
  | .text _ text => if isVisible text then { c with hasVisibleText := true }.keep part else c
  | .tool _ callID state =>
    let c := if state.isCompleted then { c with hasCompletedTool := true } else c
    if state.isUnresolved then c
    else
      match callKey callID with
      | none => c.keep part
      | some key =>
        if c.seenCallIds.contains key then c
        else { c with seenCallIds := key :: c.seenCallIds }.keep part
  | _ => c.keep part

def sanitizeReplayMessage (msg : Option Message) (seenCallIds : List String) :
    Option Message × List String :=
  match msg with
  | none => (none, seenCallIds)
  | some msg =>
    if msg.info.role ≠ .assistant then
      if msg.parts.isEmpty || msg.info.error then (none, seenCallIds) else (some msg, seenCallIds)
    else if msg.info.error || msg.parts.isEmpty then (none, seenCallIds)
    else
      let partsNoReasoning := msg.parts.filter fun part => !part.isReasoning
      let c := partsNoReasoning.foldl cleanPart { seenCallIds := seenCallIds }
      if !c.hasVisibleText && !c.hasCompletedTool then (none, c.seenCallIds)
      else (some ⟨msg.info, c.cleaned⟩, c.seenCallIds)

/-- The visible texts of a message, one to a line. -/
def visibleText (parts : List Part) : String :=
  "\n".intercalate (parts.filterMap fun part =>
    match part with
    | .text _ text => if isVisible text then some (text.getD "") else none
    | _ => none)

def mergeTurns (last msg : Message) : Message :=
  { last with parts := [.text none (some (visibleText last.parts ++ "\n" ++ visibleText msg.parts))] }

def mergeTurn (result : List Message) (msg : Message) : List Message :=
  match result.getLast? with
  | none => result ++ [msg]
  | some last =>
    if msg.info.role = .user ∧ last.info.role = .user then result.dropLast ++ [mergeTurns last msg]
    else result ++ [msg]

def mergeAdjacentUserTurns (messages : List Message) : List Message :=
  messages.foldl mergeTurn []

structure Replay where
  seenCallIds : List String := []
  out : List Message := []

def replayMessage (r : Replay) (msg : Option Message) : Replay :=
  let (replay, seen) := sanitizeReplayMessage msg r.seenCallIds
  { seenCallIds := seen, out := r.out ++ replay.toList }

def sanitizeReplayHistory (messages : List (Option Message)) : List Message :=
  mergeAdjacentUserTurns (messages.foldl replayMessage {}).out

end ProviderHistory
