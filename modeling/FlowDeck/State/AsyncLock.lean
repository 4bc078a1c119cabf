import FlowDeck.Library.Numerals
import FlowDeck.Library.Machine
import FlowDeck.State.StateFile

/-! The advisory lock file, and the planning writers that update a file under it. -/

namespace AsyncLock

open StateText

/-! ### The lock file -/

/-- The file at the lock path. `creator` is the call that made it, `none` for one that was left
behind; the code reads `content` and `mtime`. -/
structure LockFile where
  creator : Option Nat
  content : String
  mtime : Int
  deriving DecidableEq

/-- `parseInt` of base ten, where it gives a positive number. -/
def positiveInt? (text : Text) : Option Nat :=
  let unsigned := match text.dropWhile isSpace with
    | '+' :: rest => rest
    | rest => rest
  let digits := unsigned.takeWhile Char.isDigit
  let n := Nat.ofDigitChars 10 digits 0
  if digits ≠ [] ∧ 0 < n then some n else none

/-- The process that the content names: what stands before the first colon. -/
def holderPid (content : String) : Option Nat :=
  positiveInt? ((trim content.toList).takeWhile (· ≠ ':'))

def lockContent (pid : Nat) (now : Int) : String := toString pid ++ ":" ++ toString now

/-! ### Calls -/

structure LockOptions where
  timeout : Int := 5000
  staleMs : Int := 5000
  deriving DecidableEq

/-- What `appendWithLock` and `clearFileWithLock` do to their file. -/
inductive Update
  | append (line : String)
  | clear
  deriving DecidableEq

/-- The text that is written after `read` was read; a missing file reads as empty. -/
def Update.apply (read : String) : Update → String
  | append line => read ++ line
  | clear => ""

/-- A call of `acquireLock`, with the release that follows it; `update` is what a planning writer
does between the two. -/
structure Call where
  pid : Nat
  options : LockOptions
  update : Option Update

/-- How far a call has come; each phase but the waiting ones is before one file operation. -/
inductive Phase
  | idle
  /-- `open` with the flag `wx`; `stealing` where the lock was just unlinked. -/
  | creating (stealing : Bool)
  /-- the content goes into the file that was opened -/
  | filling (content : String)
  | checking
  | reading (age : Int)
  /-- the named process is probed -/
  | probing (age : Int) (read : Option LockFile)
  | unlinking (read : Option LockFile)
  | retrying
  /-- `acquireLock` has returned -/
  | holding
  /-- the writer has read its file -/
  | updating (read : String)
  | releasing
  | released
  | failed
  deriving DecidableEq

/-- `file` is the lock file; `data` is the file under it and `updates` the updates written so far. -/
structure State where
  now : Int
  running : Nat → Bool
  file : Option LockFile
  phases : Nat → Phase
  deadlines : Nat → Int
  data : String
  updates : List Update

def State.goto (s : State) (c : Nat) (phase : Phase) : State :=
  { s with phases := Function.update s.phases c phase }

/-- Nothing has begun; a lock file may have been left behind. -/
def start (now : Int) (running : Nat → Bool) (left : Option (String × Int)) (data : String) :
    State where
  now := now
  running := running
  file := left.map fun (content, mtime) => ⟨none, content, mtime⟩
  phases := fun _ => .idle
  deadlines := fun _ => 0
  data := data
  updates := []

/-! ### Steps -/

inductive Action
  | begin (call : Nat)
  /-- the next operation of a call -/
  | act (call : Nat)
  /-- what runs under the lock throws, or ends without an update -/
  | leave (call : Nat)
  | tick (elapsed : Nat)
  | die (pid : Nat)
  deriving DecidableEq

/-- The holder is dead, or it is unknown and the file is old. -/
def isStale (running : Nat → Bool) (staleMs age : Int) (read : Option LockFile) : Bool :=
  match read.bind fun file => holderPid file.content with
  | some pid => !running pid
  | none => decide (staleMs < age)

/-- The next operation of a call that has begun; `none` where it has none left. -/
def act (calls : Nat → Call) (s : State) (c : Nat) : Option State :=
  match s.phases c with
  | .creating stealing =>
    match s.file with
    | none =>
      let created : LockFile := ⟨some c, "", s.now⟩
      some { s.goto c (.filling (lockContent (calls c).pid s.now)) with file := some created }
    | some _ => some (s.goto c (if stealing then .retrying else .checking))
  | .filling content => some { s.goto c .holding with
      file := s.file.map fun file =>
        if file.creator = some c then { file with content, mtime := s.now } else file }
  | .checking =>
    match s.file with
    | none => some (s.goto c .retrying)
    | some file => some (s.goto c (.reading (s.now - file.mtime)))
  | .reading age => some (s.goto c (.probing age s.file))
  | .probing age read =>
    some (s.goto c
      (if isStale s.running (calls c).options.staleMs age read then .unlinking read
        else .retrying))
  | .unlinking _ => some { s.goto c (.creating true) with file := none }
  | .retrying =>
    some (s.goto c (if s.deadlines c ≤ s.now then .failed else .creating false))
  | .holding =>
    match (calls c).update with
    | none => some (s.goto c .releasing)
    | some _ => some (s.goto c (.updating s.data))
  | .updating read =>
    (calls c).update.map fun update => { s.goto c .releasing with
      data := update.apply read
      updates := s.updates ++ [update] }
  | .releasing => some { s.goto c .released with file := none }
  | .idle | .released | .failed => none

/-- The call runs under the lock. -/
def Phase.locked : Phase → Bool
  | .holding | .updating _ => true
  | _ => false

def step (calls : Nat → Call) (s : State) : Action → Option State
  | .begin c =>
    if s.running (calls c).pid && decide (s.phases c = .idle) then
      some { s.goto c (.creating false) with
        deadlines := Function.update s.deadlines c (s.now + (calls c).options.timeout) }
    else none
  | .act c => if s.running (calls c).pid then act calls s c else none
  | .leave c =>
    if s.running (calls c).pid && (s.phases c).locked then some (s.goto c .releasing) else none
  | .tick elapsed => some { s with now := s.now + elapsed }
  | .die pid => some { s with running := Function.update s.running pid false }

@[simp] theorem phases_goto (s : State) (c d : Nat) (phase : Phase) :
    (s.goto c phase).phases d = if d = c then phase else s.phases d := by
  by_cases h : d = c
  · simp [State.goto, h]
  · simp [State.goto, h]

@[simp] theorem running_goto (s : State) (c : Nat) (phase : Phase) :
    (s.goto c phase).running = s.running := rfl

@[simp] theorem file_goto (s : State) (c : Nat) (phase : Phase) :
    (s.goto c phase).file = s.file := rfl

@[simp] theorem data_goto (s : State) (c : Nat) (phase : Phase) :
    (s.goto c phase).data = s.data := rfl

@[simp] theorem updates_goto (s : State) (c : Nat) (phase : Phase) :
    (s.goto c phase).updates = s.updates := rfl

/-! ### Contents -/

theorem isSpace_of_isDigit {c : Char} (h : c.isDigit = true) : isSpace c = false := by
  rw [← Bool.not_eq_true]
  intro hspace
  have hrange := PlanningState.isSpace_range hspace
  simp only [Char.isDigit, Bool.and_eq_true, decide_eq_true_eq, UInt32.le_iff_toNat_le,
    ge_iff_le] at h
  have hval : c.toNat = c.val.toNat := rfl
  have hzero : '0'.val.toNat = 48 := rfl
  have hnine : '9'.val.toNat = 57 := rfl
  omega

theorem exists_cons_toString (n : Nat) : ∃ first digits, (toString n).toList = first :: digits := by
  rw [Decimal.toList_toString]
  exact List.exists_cons_of_ne_nil Nat.toDigits_ne_nil

/-- What a holder writes names its process, up to the colon that is not part of the number. -/
theorem trim_lockContent (pid : Nat) (now : Int) : ∃ rest,
    trim (lockContent pid now).toList = (toString pid).toList ++ ':' :: rest := by
  obtain ⟨first, digits, hdigits⟩ := exists_cons_toString pid
  have hopens : isSpace first = false :=
    isSpace_of_isDigit (Decimal.isDigit_of_mem_toString (hdigits ▸ List.mem_cons_self))
  have htext : (lockContent pid now).toList =
      (toString pid).toList ++ ([':'] ++ (toString now).toList) := by
    simp [lockContent]
  have hcolon : ([':'] : Text).rdropWhile isSpace = [':'] := by decide
  have htail : ∃ rest, ([':'] ++ (toString now).toList : Text).rdropWhile isSpace =
      ':' :: rest := by
    rw [TextLines.rdropWhile_append, hcolon]
    split_ifs
    · exact ⟨[], rfl⟩
    · exact ⟨_, rfl⟩
  obtain ⟨rest, hrest⟩ := htail
  refine ⟨rest, ?_⟩
  rw [trim, trimEnd, htext, hdigits, List.cons_append, List.dropWhile_cons_of_neg (by simp [hopens]),
    ← List.cons_append, TextLines.rdropWhile_append, hrest, if_neg (List.cons_ne_nil _ _)]

/-- A holder's own content names its process, and no other. -/
theorem holderPid_lockContent (pid : Nat) (now : Int) :
    holderPid (lockContent pid now) = if 0 < pid then some pid else none := by
  have hdigits : ∀ c ∈ (toString pid).toList, c.isDigit = true :=
    fun c => Decimal.isDigit_of_mem_toString
  have hcolon : ∀ c ∈ (toString pid).toList, decide (c ≠ ':') = true := by
    intro c hc
    have hne : c ≠ ':' := fun heq => Decimal.notMem_toString (by decide) pid (heq ▸ hc)
    simpa using hne
  obtain ⟨rest, htrim⟩ := trim_lockContent pid now
  have hbefore : (trim (lockContent pid now).toList).takeWhile (· ≠ ':') =
      (toString pid).toList := by
    rw [htrim, List.takeWhile_append_of_pos hcolon, List.takeWhile_cons_of_neg (by simp),
      List.append_nil]
  obtain ⟨first, digits, hfirst⟩ := exists_cons_toString pid
  have hfirstDigit : first.isDigit = true := hdigits first (hfirst ▸ List.mem_cons_self)
  have hplain : (match (toString pid).toList.dropWhile isSpace with
      | '+' :: rest => rest
      | rest => rest) = (toString pid).toList := by
    rw [hfirst, List.dropWhile_cons_of_neg (by simp [isSpace_of_isDigit hfirstDigit])]
    split
    · next heq =>
      obtain ⟨rfl, -⟩ := List.cons.inj heq
      exact absurd hfirstDigit (by decide)
    · rfl
  have hall : (toString pid).toList.takeWhile Char.isDigit = (toString pid).toList :=
    List.takeWhile_eq_self_iff.mpr hdigits
  have hsome : (toString pid).toList ≠ [] := by
    rw [hfirst]
    exact List.cons_ne_nil _ _
  rw [holderPid, hbefore]
  simp only [positiveInt?, hplain, hall, Decimal.ofDigitChars_toString]
  by_cases hpid : 0 < pid
  · rw [if_pos hpid, if_pos ⟨hsome, hpid⟩]
  · rw [if_neg hpid, if_neg fun h => hpid h.2]

theorem holderPid_lockContent_eq {pid p : Nat} {now : Int}
    (h : holderPid (lockContent pid now) = some p) : pid = p := by
  rw [holderPid_lockContent] at h
  split_ifs at h
  exact Option.some.inj h

theorem holderPid_empty : holderPid "" = none := by decide

end AsyncLock
