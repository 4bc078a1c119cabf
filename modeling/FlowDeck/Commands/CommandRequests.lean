import Mathlib.Data.List.Sort
import FlowDeck.Library.Table
import FlowDeck.Library.Json

namespace Commands

inductive CommandInvocationStatus
  | pending
  | accepted
  | running
  | verifying
  | completed
  | failed
  | cancelled
  deriving DecidableEq

namespace CommandInvocationStatus

def text : CommandInvocationStatus → String
  | pending => "pending"
  | accepted => "accepted"
  | running => "running"
  | verifying => "verifying"
  | completed => "completed"
  | failed => "failed"
  | cancelled => "cancelled"

def isTerminal (status : CommandInvocationStatus) : Bool :=
  status ∈ [completed, failed, cancelled]

end CommandInvocationStatus

structure CommandError where
  code : String
  message : String
  deriving DecidableEq

structure CommandInvocation where
  invocationId : String
  commandId : String
  commandVersion : Nat
  idempotencyKey : String
  requestFingerprint : String
  status : CommandInvocationStatus
  taskRunId : Option String
  planId : Option String
  error : Option CommandError
  deriving DecidableEq

/-- What a save of an existing row leaves alone. -/
structure Identity where
  invocationId : String
  commandId : String
  commandVersion : Nat
  idempotencyKey : String
  requestFingerprint : String
  deriving DecidableEq

def CommandInvocation.identity (i : CommandInvocation) : Identity where
  invocationId := i.invocationId
  commandId := i.commandId
  commandVersion := i.commandVersion
  idempotencyKey := i.idempotencyKey
  requestFingerprint := i.requestFingerprint

abbrev Invocations : Type := Table CommandInvocation.invocationId

/-- The columns that `ON CONFLICT DO UPDATE` sets. -/
def overwrite (i row : CommandInvocation) : CommandInvocation :=
  { row with status := i.status, taskRunId := i.taskRunId, planId := i.planId, error := i.error }

theorem invocationId_overwrite (i row : CommandInvocation) :
    (overwrite i row).invocationId = row.invocationId := rfl

theorem identity_overwrite (i row : CommandInvocation) :
    (overwrite i row).identity = row.identity := rfl

def overwriteRow (t : Invocations) (i : CommandInvocation) : Invocations :=
  t.update (fun row => row.invocationId = i.invocationId) (overwrite i) (invocationId_overwrite i)

def saveInvocation (t : Invocations) (i : CommandInvocation) : Option Invocations :=
  match t.get? i.invocationId with
  | some _ => some (overwriteRow t i)
  | none =>
    if t.rows.any fun row => row.idempotencyKey = i.idempotencyKey then none else t.insert? i

def getByIdempotencyKey (t : Invocations) (idempotencyKey : String) : Option CommandInvocation :=
  t.rows.find? fun row => row.idempotencyKey = idempotencyKey

def getByInvocationId (t : Invocations) (invocationId : String) : Option CommandInvocation :=
  t.get? invocationId

section Saves

variable {t t' : Invocations} {i : CommandInvocation}

theorem saveInvocation_cases (h : saveInvocation t i = some t') :
    (t.get? i.invocationId = none ∧ (∀ row ∈ t.rows, row.idempotencyKey ≠ i.idempotencyKey) ∧
      t'.rows = t.rows ++ [i]) ∨
    ∃ row, t.get? i.invocationId = some row ∧ t' = overwriteRow t i := by
  unfold saveInvocation at h
  split at h
  · rename_i row hrow
    exact Or.inr ⟨row, hrow, (Option.some.inj h).symm⟩
  · rename_i hnone
    split_ifs at h with hkey
    refine Or.inl ⟨hnone, ?_, (Table.insert?_eq_some h).2⟩
    intro row hrow hsame
    exact hkey (List.any_eq_true.mpr ⟨row, hrow, decide_eq_true hsame⟩)

theorem saveInvocation_eq_none (h : saveInvocation t i = none) :
    ∃ row ∈ t.rows, row.idempotencyKey = i.idempotencyKey := by
  unfold saveInvocation at h
  split at h
  · cases h
  · rename_i hnone
    split_ifs at h with hkey
    · obtain ⟨row, hrow, hsame⟩ := List.any_eq_true.mp hkey
      exact ⟨row, hrow, of_decide_eq_true hsame⟩
    · obtain ⟨row, hrow⟩ := Table.insert?_eq_none h
      rw [hnone] at hrow
      cases hrow

theorem identities_saveInvocation (h : saveInvocation t i = some t') :
    t'.rows.map CommandInvocation.identity = t.rows.map CommandInvocation.identity ∨
      (t.get? i.invocationId = none ∧ (∀ row ∈ t.rows, row.idempotencyKey ≠ i.idempotencyKey) ∧
        t'.rows.map CommandInvocation.identity =
          t.rows.map CommandInvocation.identity ++ [i.identity]) := by
  rcases saveInvocation_cases h with ⟨hnone, hkey, hrows⟩ | ⟨row, _, ht'⟩
  · refine Or.inr ⟨hnone, hkey, ?_⟩
    rw [hrows, List.map_append, List.map_singleton]
  · refine Or.inl ?_
    rw [ht']
    exact Table.map_rows_update _ _ _ _ (identity_overwrite i)

end Saves

theorem getByIdempotencyKey_eq_some {t : Invocations} {key : String} {row : CommandInvocation}
    (h : getByIdempotencyKey t key = some row) : row ∈ t.rows ∧ row.idempotencyKey = key :=
  ⟨List.mem_of_find?_eq_some h, by simpa using List.find?_some h⟩

theorem getByIdempotencyKey_eq_none {t : Invocations} {key : String}
    (h : getByIdempotencyKey t key = none) : ∀ row ∈ t.rows, row.idempotencyKey ≠ key := by
  simpa [getByIdempotencyKey] using h

end Commands

namespace CommandFingerprint

open Json

/-- The functions of the platform that a fingerprint is made with. -/
structure Platform where
  localeCompare : String → String → Int
  sha256 : String → String

/-- The index that a property name stands for, if it is one. -/
def arrayIndex (key : String) : Option Nat :=
  let n := Nat.ofDigitChars 10 key.toList 0
  if toString n = key ∧ n < 4294967295 then some n else none

/-- An object made of entries lists its array indices first, in ascending order. -/
def fromEntries (entries : List (String × Json)) : Json :=
  .object ((entries.filter fun e => (arrayIndex e.1).isSome).insertionSort
      (fun a b => (arrayIndex a.1).getD 0 ≤ (arrayIndex b.1).getD 0) ++
    entries.filter fun e => (arrayIndex e.1).isNone)

mutual

/-- The members are sorted by name; a child is made canonical wherever its member ends up. -/
def canonicalize (p : Platform) : Json → Json
  | .array items => .array (canonicalizeItems p items)
  | .object members =>
    fromEntries
      ((canonicalizeMembers p members).insertionSort fun a b => p.localeCompare a.1 b.1 ≤ 0)
  | value => value

def canonicalizeItems (p : Platform) : List Json → List Json
  | [] => []
  | v :: rest => canonicalize p v :: canonicalizeItems p rest

def canonicalizeMembers (p : Platform) : List (String × Json) → List (String × Json)
  | [] => []
  | (key, child) :: rest => (key, canonicalize p child) :: canonicalizeMembers p rest

end

/-- The text that is hashed. -/
def canonical (p : Platform) (commandId : String) (commandVersion : Nat) (input : Json) : String :=
  String.ofList (stringify (.object [("commandId", .string commandId),
    ("commandVersion", .number (toString commandVersion)), ("input", canonicalize p input)]))

def commandRequestFingerprint (p : Platform) (commandId : String) (commandVersion : Nat)
    (input : Json) : String :=
  p.sha256 (canonical p commandId commandVersion input)

theorem canonical_text (p : Platform) (commandId : String) (commandVersion : Nat) (input : Json) :
    ∃ c rest, c.isDigit = false ∧ (canonical p commandId commandVersion input).toList =
      ('{' :: (quote "commandId".toList ++ [':'])) ++ (quote commandId.toList ++
        ((',' :: (quote "commandVersion".toList ++ [':'])) ++
          (Nat.toDigits 10 commandVersion ++ c :: rest))) := by
  cases hinput : canonicalize p input with
  | undefined =>
    refine ⟨'}', [], by decide, ?_⟩
    simp [canonical, hinput, stringify, memberTexts, separated, Nat.toList_repr]
  | null | bool b | number text | string text | array items | object members =>
    refine ⟨',', quote "input".toList ++ ':' :: (stringify (canonicalize p input) ++ ['}']),
      by decide, ?_⟩
    simp [canonical, hinput, stringify, memberTexts, separated, Nat.toList_repr]

theorem canonical_inj {p : Platform} {commandId commandId' : String}
    {commandVersion commandVersion' : Nat} {input input' : Json}
    (h : canonical p commandId commandVersion input = canonical p commandId' commandVersion' input') :
    commandId = commandId' ∧ commandVersion = commandVersion' := by
  obtain ⟨c, rest, hc, htext⟩ := canonical_text p commandId commandVersion input
  obtain ⟨c', rest', hc', htext'⟩ := canonical_text p commandId' commandVersion' input'
  rw [h, htext'] at htext
  obtain ⟨hid, hversion⟩ := quote_append_inj (List.append_cancel_left htext)
  have hdigits := List.append_cancel_left hversion
  exact ⟨(String.toList_inj.mp hid).symm, (digits_append_inj hc' hc hdigits).1.symm⟩

end CommandFingerprint

namespace CommandSecurity

open Json

inductive SecurityCode
  | pathTraversal
  | shellInjection
  | verificationBypass
  deriving DecidableEq

structure CommandSecurityException where
  message : String
  code : SecurityCode
  deriving DecidableEq

def isSeparator (c : Char) : Bool := c = '\x5c' || c = '/'

def dotsHere : List Char → Bool
  | '.' :: '.' :: rest => rest.head?.all isSeparator
  | _ => false

/-- Two dots between separators or ends of the text. -/
def dotsBetween : Bool → List Char → Bool
  | _, [] => false
  | boundary, c :: rest => (boundary && dotsHere (c :: rest)) || dotsBetween (isSeparator c) rest

def isShellChar (c : Char) : Bool :=
  c ∈ [';', '|', '&', '$', '>', '<', Char.ofNat 96, '\x5c', '\n', Char.ofNat 13]

def hasShellChar (text : String) : Bool := text.toList.any isShellChar

/-- The names are matched in any case. -/
def bypassNames : List String :=
  ["bypass", "forcecompletion", "skipverification", "skipcompletion", "ignorebudget",
    "unapprovedtool", "strategyoverride"]

def isBypassKey (key : String) : Bool :=
  bypassNames.any fun name => decide (name.toList <:+: key.toList.map Char.toLower)

mutual

def checkValues (regex : String → Bool) : Json → Bool
  | .string text => regex text
  | .array items => checkItems regex items
  | .object members => checkMembers regex members
  | _ => false

def checkItems (regex : String → Bool) : List Json → Bool
  | [] => false
  | v :: rest => checkValues regex v || checkItems regex rest

def checkMembers (regex : String → Bool) : List (String × Json) → Bool
  | [] => false
  | (key, v) :: rest => regex key || checkValues regex v || checkMembers regex rest

end

mutual

/-- An array hides the keys of what is in it. -/
def checkKeys (regex : String → Bool) : Json → Bool
  | .object members => checkMemberKeys regex members
  | _ => false

def checkMemberKeys (regex : String → Bool) : List (String × Json) → Bool
  | [] => false
  | (key, v) :: rest => regex key || checkKeys regex v || checkMemberKeys regex rest

end

def enforceCommandSecurity (input : Json) : Except CommandSecurityException Unit :=
  let inputStr := stringify input
  if "../".toList <:+: inputStr ∨ ['.', '.', '\x5c'] <:+: inputStr ∨
      dotsBetween true inputStr = true then
    .error { message := "Command Security Violation: Path traversal attempt detected"
             code := .pathTraversal }
  else if checkValues hasShellChar input = true then
    .error { message := "Command Security Violation: Shell metacharacters detected in input"
             code := .shellInjection }
  else if checkKeys isBypassKey input = true then
    .error { message :=
               "Command Security Violation: Attempt to bypass verification or completion gates"
             code := .verificationBypass }
  else .ok ()

end CommandSecurity

namespace Commands

inductive IdempotencyStatus
  | executing
  | completed
  | failed
  deriving DecidableEq

/-- A row of `command_idempotency`, with its times in seconds. -/
structure CommandIdempotency where
  idempotencyKey : String
  aggregateId : String
  status : IdempotencyStatus
  startedAt : Nat
  completedAt : Option Nat
  deriving DecidableEq

abbrev Claims : Type := Table CommandIdempotency.idempotencyKey

def ttlSeconds : Nat := 600

def claimKey (invocationId : String) : String := "command-recovery:" ++ invocationId

/-- The claim is taken, and not for longer than it may be. -/
def claimLive (t : Claims) (now : Nat) (invocationId : String) : Bool :=
  (t.get? (claimKey invocationId)).any fun row =>
    row.status = .executing && now ≤ row.startedAt + ttlSeconds

/-- The claim is taken for whoever asks, unless it is live. -/
def acquire (t : Claims) (now : Nat) (invocationId : String) : Option Claims :=
  if claimLive t now invocationId then none
  else some (t.upsert {
    idempotencyKey := claimKey invocationId, aggregateId := invocationId, status := .executing
    startedAt := now, completedAt := none })

def complete (now : Nat) (row : CommandIdempotency) : CommandIdempotency :=
  { row with status := .completed, completedAt := some now }

theorem idempotencyKey_complete (now : Nat) (row : CommandIdempotency) :
    (complete now row).idempotencyKey = row.idempotencyKey := rfl

/-- The claim is given up, whoever has it. -/
def release (t : Claims) (now : Nat) (invocationId : String) : Claims :=
  t.update (fun row => row.idempotencyKey = claimKey invocationId) (complete now)
    (idempotencyKey_complete now)

def claimed (t : Claims) (invocationId : String) : Bool :=
  (t.get? (claimKey invocationId)).any fun row => row.status = .executing

theorem claimKey_inj {a b : String} (h : claimKey a = claimKey b) : a = b :=
  (String.append_right_inj _).mp h

theorem claimed_acquire {t t' : Claims} {now : Nat} {invocationId : String}
    (h : acquire t now invocationId = some t') (other : String) :
    claimed t' other = if other = invocationId then true else claimed t other := by
  unfold acquire at h
  split_ifs at h with hlive
  rw [← Option.some.inj h]
  unfold claimed
  rw [Table.get?_upsert]
  by_cases hsame : other = invocationId
  · simp [hsame]
  · have hkey : claimKey invocationId ≠ claimKey other := fun he => hsame (claimKey_inj he).symm
    simp [hkey, hsame]

theorem claimed_release (t : Claims) (now : Nat) (invocationId other : String) :
    claimed (release t now invocationId) other =
      if other = invocationId then false else claimed t other := by
  unfold claimed release
  rw [Table.get?_update]
  cases hget : t.get? (claimKey other) with
  | none => simp
  | some row =>
    have hrow : row.idempotencyKey = claimKey other := Table.key_of_get? hget
    by_cases hsame : other = invocationId
    · simp [Table.setWhere, hrow, hsame, complete]
    · have hkey : claimKey other ≠ claimKey invocationId := fun he => hsame (claimKey_inj he)
      simp [Table.setWhere, hrow, hkey, hsame]

end Commands
