import FlowDeck.Library.Machine
import FlowDeck.Library.Table

namespace SessionTurn

open Machine

structure SessionTurnRow where
  sessionId : String
  userTurnVersion : Nat
  lastUserMessageId : Option String
  lastUserMessageHash : Option String
  updatedAt : String
  deriving DecidableEq

/-- A row of `session_turn_messages`. -/
structure TurnMessageRow where
  sessionId : String
  messageId : String
  messageHash : Option String
  userTurnVersion : Nat
  createdAt : String
  deriving DecidableEq

def TurnMessageRow.key (row : TurnMessageRow) : String × String := (row.sessionId, row.messageId)

structure Database where
  turns : Table SessionTurnRow.sessionId
  messages : Table TurnMessageRow.key

def Database.empty : Database := ⟨Table.empty, Table.empty⟩

structure TurnInput where
  sessionId : String
  messageId : Option String
  messageHash : Option String
  now : String
  deriving DecidableEq

/-- What an `if` on a text that may be missing lets through. -/
def truthy (text : Option String) : Option String := text.filter fun t => t ≠ ""

/-- The message id that a call is recognised by. -/
def TurnInput.identity (input : TurnInput) : Option String := truthy input.messageId

def getTurnVersion (db : Database) (sessionId : String) : Nat :=
  match db.turns.get? sessionId with
  | some row => row.userTurnVersion
  | none => 1

def nextVersion (db : Database) (sessionId : String) : Nat :=
  match db.turns.get? sessionId with
  | some row => row.userTurnVersion + 1
  | none => 1

def storeTurn (db : Database) (input : TurnInput) (messageId : Option String) : Database :=
  { db with
    turns := db.turns.upsert
      { sessionId := input.sessionId
        userTurnVersion := nextVersion db input.sessionId
        lastUserMessageId := messageId
        lastUserMessageHash := input.messageHash
        updatedAt := input.now } }

/-- The branch for a call with a message id; nothing where the insertion fails and no row for the
message is found, and the error is thrown on. -/
def incrementForMessage (db : Database) (input : TurnInput) (messageId : String) :
    Option (Database × Nat) :=
  match db.messages.get? (input.sessionId, messageId) with
  | some existingMsg => some (db, existingMsg.userTurnVersion)
  | none =>
    match db.messages.insert?
      { sessionId := input.sessionId
        messageId := messageId
        messageHash := input.messageHash
        userTurnVersion := nextVersion db input.sessionId
        createdAt := input.now } with
    | some messages =>
      some (storeTurn { db with messages := messages } input (some messageId),
        nextVersion db input.sessionId)
    | none =>
      (db.messages.get? (input.sessionId, messageId)).map fun recheck =>
        (db, recheck.userTurnVersion)

/-- Whether the turn stored last came with the same hash. -/
def repeatsHash (db : Database) (input : TurnInput) : Bool :=
  match db.turns.get? input.sessionId, truthy input.messageHash with
  | some existingTurn, some hash => existingTurn.lastUserMessageHash = some hash
  | _, _ => false

def incrementTurnVersion (db : Database) (input : TurnInput) : Option (Database × Nat) :=
  match input.identity with
  | some messageId => incrementForMessage db input messageId
  | none =>
    if repeatsHash db input then some (db, getTurnVersion db input.sessionId)
    else some (storeTurn db input none, nextVersion db input.sessionId)

def step (db : Database) (input : TurnInput) : Option Database :=
  (incrementTurnVersion db input).map Prod.fst

def versionAfter (calls : List TurnInput) (sessionId : String) : Option Nat :=
  (run step Database.empty calls).map fun db => getTurnVersion db sessionId

def Turned (calls : List TurnInput) (sessionId : String) : Prop :=
  ∃ call ∈ calls, call.sessionId = sessionId

def Seen (calls : List TurnInput) (sessionId messageId : String) : Prop :=
  ∃ call ∈ calls, call.sessionId = sessionId ∧ call.identity = some messageId

/-- What a call promises of the versions around it: a message seen before changes nothing, and a
new one makes the version greater, and different from every one read before. -/
structure KeepsVersions (before : List TurnInput) (call : TurnInput) (messageId : String) :
    Prop where
  repeated : Seen before call.sessionId messageId →
    versionAfter (before ++ [call]) call.sessionId = versionAfter before call.sessionId
  increased : ¬Seen before call.sessionId messageId →
    ∃ version < (versionAfter (before ++ [call]) call.sessionId).getD 0,
      versionAfter before call.sessionId = some version
  stale : ¬Seen before call.sessionId messageId →
    ∀ read rest later, read ++ rest = before →
      versionAfter read call.sessionId ≠ versionAfter (before ++ call :: later) call.sessionId

/-- Which sessions and messages the rows know after a sequence of calls. -/
structure Describes (calls : List TurnInput) (db : Database) : Prop where
  turned : ∀ sessionId, (db.turns.get? sessionId).isSome = true ↔ Turned calls sessionId
  recorded : ∀ sessionId messageId,
    (db.messages.get? (sessionId, messageId)).isSome = true ↔ Seen calls sessionId messageId

variable {db db' : Database} {input : TurnInput} {calls : List TurnInput}

variable {sessionId messageId : String}

theorem version_lt_nextVersion (h : (db.turns.get? sessionId).isSome = true) :
    getTurnVersion db sessionId < nextVersion db sessionId := by
  obtain ⟨row, hrow⟩ := Option.isSome_iff_exists.mp h
  simp [getTurnVersion, nextVersion, hrow]

theorem nextVersion_of_absent (h : db.turns.get? sessionId = none) :
    getTurnVersion db sessionId = 1 ∧ nextVersion db sessionId = 1 := by
  simp [getTurnVersion, nextVersion, h]

theorem version_le_nextVersion (db : Database) (sessionId : String) :
    getTurnVersion db sessionId ≤ nextVersion db sessionId := by
  cases h : db.turns.get? sessionId with
  | none => simp [getTurnVersion, nextVersion, h]
  | some row => simp [getTurnVersion, nextVersion, h]

theorem getTurnVersion_storeTurn (db : Database) (input : TurnInput) (messageId : Option String)
    (sessionId : String) :
    getTurnVersion (storeTurn db input messageId) sessionId =
      if sessionId = input.sessionId then nextVersion db sessionId
      else getTurnVersion db sessionId := by
  unfold getTurnVersion storeTurn
  simp only [Table.get?_upsert]
  split_ifs with h₁ h₂ h₂
  all_goals grind

/-- A database after a call: it is as it was, or has one message more and a turn stored, or has only
a turn stored. -/
inductive Stepped (db : Database) (input : TurnInput) : Database → Prop
  | repeated (messageId : String) (hid : input.identity = some messageId)
      (hknown : (db.messages.get? (input.sessionId, messageId)).isSome = true) :
      Stepped db input db
  | hashRepeated (hid : input.identity = none)
      (hturn : (db.turns.get? input.sessionId).isSome = true) : Stepped db input db
  | recorded (messageId : String) (row : TurnMessageRow) (messages : Table TurnMessageRow.key)
      (hid : input.identity = some messageId)
      (hkey : row.key = (input.sessionId, messageId))
      (hinsert : db.messages.insert? row = some messages) :
      Stepped db input (storeTurn { db with messages := messages } input (some messageId))
  | hashStored (hid : input.identity = none) : Stepped db input (storeTurn db input none)

theorem turn_of_repeatsHash (h : repeatsHash db input = true) :
    (db.turns.get? input.sessionId).isSome = true := by
  unfold repeatsHash at h
  cases hturn : db.turns.get? input.sessionId with
  | none => simp [hturn] at h
  | some row => rfl

/-- No call throws. -/
theorem exists_step (db : Database) (input : TurnInput) :
    ∃ db', step db input = some db' ∧ Stepped db input db' := by
  cases hid : input.identity with
  | none =>
    cases hhash : repeatsHash db input with
    | true =>
      refine ⟨db, ?_, .hashRepeated hid (turn_of_repeatsHash hhash)⟩
      simp [step, incrementTurnVersion, hid, hhash]
    | false =>
      refine ⟨storeTurn db input none, ?_, .hashStored hid⟩
      simp [step, incrementTurnVersion, hid, hhash]
  | some messageId =>
    cases hmessage : db.messages.get? (input.sessionId, messageId) with
    | some existingMsg =>
      refine ⟨db, ?_, .repeated messageId hid (by simp [hmessage])⟩
      simp [step, incrementTurnVersion, incrementForMessage, hid, hmessage]
    | none =>
      let row : TurnMessageRow :=
        { sessionId := input.sessionId
          messageId := messageId
          messageHash := input.messageHash
          userTurnVersion := nextVersion db input.sessionId
          createdAt := input.now }
      have hkey : row.key = (input.sessionId, messageId) := rfl
      obtain ⟨messages, hinsert⟩ := Table.exists_insert? (r := row) hmessage
      refine ⟨storeTurn { db with messages := messages } input (some messageId), ?_,
        .recorded messageId row messages hid hkey hinsert⟩
      simp only [step, incrementTurnVersion, hid, incrementForMessage, hmessage]
      rw [hinsert]
      rfl

theorem stepped_of_step (h : step db input = some db') : Stepped db input db' := by
  obtain ⟨after, hstep, hstepped⟩ := exists_step db input
  obtain rfl := Option.some.inj (hstep.symm.trans h)
  exact hstepped

theorem turned_storeTurn {messageId : Option String} (sessionId : String) :
    ((storeTurn db input messageId).turns.get? sessionId).isSome = true ↔
      (db.turns.get? sessionId).isSome = true ∨ input.sessionId = sessionId := by
  simp only [storeTurn, Table.get?_upsert]
  split_ifs with h
  · simp [h]
  · simp [h]

theorem Stepped.version_le (h : Stepped db input db') (sessionId : String) :
    getTurnVersion db sessionId ≤ getTurnVersion db' sessionId := by
  cases h with
  | repeated => exact Nat.le_refl _
  | hashRepeated => exact Nat.le_refl _
  | recorded messageId row messages =>
    rw [getTurnVersion_storeTurn]
    split_ifs
    · exact version_le_nextVersion db sessionId
    · exact Nat.le_refl _
  | hashStored =>
    rw [getTurnVersion_storeTurn]
    split_ifs
    · exact version_le_nextVersion db sessionId
    · exact Nat.le_refl _

theorem turned_append {call : TurnInput} :
    Turned (calls ++ [call]) sessionId ↔ Turned calls sessionId ∨ call.sessionId = sessionId := by
  simp only [Turned, List.mem_append, List.mem_singleton]
  grind

theorem seen_append {call : TurnInput} :
    Seen (calls ++ [call]) sessionId messageId ↔ Seen calls sessionId messageId ∨
      call.sessionId = sessionId ∧ call.identity = some messageId := by
  simp only [Seen, List.mem_append, List.mem_singleton]
  grind

theorem Seen.turned (h : Seen calls sessionId messageId) : Turned calls sessionId := by
  obtain ⟨call, hcall, hsession, _⟩ := h
  exact ⟨call, hcall, hsession⟩

theorem Describes.empty : Describes [] Database.empty where
  turned := by
    intro sessionId
    simp [Turned, Database.empty, Table.empty, Table.get?]
  recorded := by
    intro sessionId messageId
    simp [Seen, Database.empty, Table.empty, Table.get?]

/-- One more call is one more in what the rows know. -/
theorem Describes.append (h : Describes calls db) (hstep : Stepped db input db') :
    Describes (calls ++ [input]) db' where
  turned := by
    intro sessionId
    rw [turned_append, ← h.turned]
    cases hstep with
    | repeated messageId hid hknown =>
      have hturn := (h.turned _).mpr ((h.recorded _ _).mp hknown).turned
      grind
    | hashRepeated hid hturn => grind
    | recorded messageId row messages hid hkey hinsert => exact turned_storeTurn sessionId
    | hashStored hid => exact turned_storeTurn sessionId
  recorded := by
    intro sessionId messageId
    rw [seen_append, ← h.recorded]
    cases hstep with
    | repeated known hid hknown => grind
    | hashRepeated hid hturn => grind
    | recorded new row messages hid hkey hinsert =>
      have hget := Table.get?_insert? hinsert (sessionId, messageId)
      rw [hkey] at hget
      simp only [storeTurn, hget, hid]
      split_ifs with hsame
      · obtain ⟨hsession, hmessage⟩ := Prod.mk.inj hsame
        simp [hsession, hmessage]
      · grind
    | hashStored hid => simp [storeTurn, hid]

theorem exists_run (calls : List TurnInput) :
    ∃ db, run step Database.empty calls = some db ∧ Describes calls db := by
  induction calls using List.reverseRecOn with
  | nil => exact ⟨Database.empty, rfl, Describes.empty⟩
  | append_singleton calls call ih =>
    obtain ⟨db, hrun, hdescribes⟩ := ih
    obtain ⟨db', hstep, hstepped⟩ := exists_step db call
    refine ⟨db', ?_, hdescribes.append hstepped⟩
    apply run_append_eq_some.mpr
    exact ⟨db, hrun, by simp [hstep]⟩

theorem run_version_le (h : run step db calls = some db') (sessionId : String) :
    getTurnVersion db sessionId ≤ getTurnVersion db' sessionId := by
  have hkeeps : ∀ s a t, getTurnVersion db sessionId ≤ getTurnVersion s sessionId →
      step s a = some t → getTurnVersion db sessionId ≤ getTurnVersion t sessionId := by
    intro s a t hle hstep
    have hmore := (stepped_of_step hstep).version_le sessionId
    omega
  exact run_invariant (I := fun s => getTurnVersion db sessionId ≤
    getTurnVersion s sessionId) hkeeps (Nat.le_refl _) h

theorem Stepped.eq_of_known (h : Stepped db input db') (hid : input.identity = some messageId)
    (hknown : (db.messages.get? (input.sessionId, messageId)).isSome = true) : db' = db := by
  cases h with
  | repeated => rfl
  | hashRepeated => rfl
  | recorded new row messages hid' hkey hinsert =>
    obtain rfl : new = messageId := Option.some.inj (hid'.symm.trans hid)
    have hnone := (Table.insert?_eq_some hinsert).1
    rw [hkey] at hnone
    simp [hnone] at hknown
  | hashStored hid' => simp [hid'] at hid

theorem Stepped.version_of_new (h : Stepped db input db') (hid : input.identity = some messageId)
    (hnew : db.messages.get? (input.sessionId, messageId) = none) :
    getTurnVersion db' input.sessionId = nextVersion db input.sessionId := by
  cases h with
  | repeated old hid' hknown =>
    obtain rfl : old = messageId := Option.some.inj (hid'.symm.trans hid)
    simp [hnew] at hknown
  | hashRepeated hid' => simp [hid'] at hid
  | recorded new row messages hid' hkey hinsert =>
    rw [getTurnVersion_storeTurn, if_pos rfl]
    rfl
  | hashStored hid' => simp [hid'] at hid

theorem versionAfter_eq (h : run step Database.empty calls = some db) :
    versionAfter calls sessionId = some (getTurnVersion db sessionId) := by
  simp [versionAfter, h]

/-- The versions keep to the messages at every call but a session's first: the version read before
any turn is stored is the one that the first turn stores. -/
theorem keepsVersions_iff (before : List TurnInput) (call : TurnInput) (messageId : String)
    (hid : call.identity = some messageId) :
    KeepsVersions before call messageId ↔ Turned before call.sessionId := by
  obtain ⟨db, hrun, hdescribes⟩ := exists_run before
  obtain ⟨db', hstep, hstepped⟩ := exists_step db call
  have hrun' : run step Database.empty (before ++ [call]) = some db' := by
    apply run_append_eq_some.mpr
    exact ⟨db, hrun, by simp [hstep]⟩
  have hbefore : versionAfter before call.sessionId = some (getTurnVersion db call.sessionId) :=
    versionAfter_eq hrun
  have hafter : versionAfter (before ++ [call]) call.sessionId =
      some (getTurnVersion db' call.sessionId) := versionAfter_eq hrun'
  have hnone : ¬Seen before call.sessionId messageId →
      db.messages.get? (call.sessionId, messageId) = none := by
    intro hnew
    rw [← hdescribes.recorded] at hnew
    simpa using hnew
  constructor
  · intro hkeeps
    by_contra hfirst
    have hnew : ¬Seen before call.sessionId messageId := fun hseen => hfirst hseen.turned
    have habsent : db.turns.get? call.sessionId = none := by
      rw [← hdescribes.turned] at hfirst
      simpa using hfirst
    obtain ⟨version, hlt, hversion⟩ := hkeeps.increased hnew
    obtain ⟨hone, hnext⟩ := nextVersion_of_absent habsent
    rw [hafter, hstepped.version_of_new hid (hnone hnew), hnext] at hlt
    rw [hbefore, hone] at hversion
    obtain rfl := Option.some.inj hversion
    simp at hlt
  · intro hturned
    have hgrows : ¬Seen before call.sessionId messageId →
        getTurnVersion db call.sessionId < getTurnVersion db' call.sessionId := by
      intro hnew
      rw [hstepped.version_of_new hid (hnone hnew)]
      exact version_lt_nextVersion ((hdescribes.turned _).mpr hturned)
    constructor
    · intro hseen
      have hsame := hstepped.eq_of_known hid ((hdescribes.recorded _ _).mpr hseen)
      rw [hafter, hbefore, hsame]
    · intro hnew
      refine ⟨getTurnVersion db call.sessionId, ?_, hbefore⟩
      rw [hafter]
      exact hgrows hnew
    · intro hnew read rest later hsplit
      obtain ⟨dbRead, hread, hrest⟩ := run_append_eq_some.mp (hsplit ▸ hrun)
      obtain ⟨dbLater, hlater, _⟩ := exists_run (before ++ call :: later)
      have htail : run step db' later = some dbLater := by
        have happend : before ++ call :: later = (before ++ [call]) ++ later := by simp
        rw [happend] at hlater
        obtain ⟨mid, hmid, htail⟩ := run_append_eq_some.mp hlater
        obtain rfl := Option.some.inj (hmid.symm.trans hrun')
        exact htail
      have hle := run_version_le hrest call.sessionId
      have hlt := hgrows hnew
      have hle' := run_version_le htail call.sessionId
      rw [versionAfter_eq hread, versionAfter_eq hlater]
      intro heq
      have := Option.some.inj heq
      omega

def userTurn (messageId : String) : TurnInput :=
  { sessionId := "session", messageId := some messageId, messageHash := none, now := "now" }

theorem second_message_keepsVersions : KeepsVersions [userTurn "m1"] (userTurn "m2") "m2" ↔
    Turned [userTurn "m1"] "session" :=
  keepsVersions_iff [userTurn "m1"] (userTurn "m2") "m2" (by decide)

/-- The first message of a session leaves the version at the one that was read before it. -/
theorem first_message_keeps_version : ¬KeepsVersions [] (userTurn "m1") "m1" := by
  intro hkeeps
  have hnew : ¬Seen [] (userTurn "m1").sessionId "m1" := by simp [Seen]
  exact hkeeps.stale hnew [] [] [] rfl (by decide)

end SessionTurn
