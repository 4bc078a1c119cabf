import FlowDeck.Library.InsertionMap
import FlowDeck.Library.KeyOrder
import FlowDeck.Policy.PolicyStore

/-! The outline of a diff: which symbols of a file its changed lines fall into. -/

namespace OutlineDiff

open List

inductive ChangeType
  | signatureChanged
  | bodyChanged
  | added
  | deleted
  | fileLevel
  deriving DecidableEq

structure Symbol where
  parentScope : String
  kind : String
  name : String
  lineStart : Nat
  lineEnd : Nat

def Symbol.scopedIdentity (sym : Symbol) : String := sym.parentScope ++ "/" ++ sym.kind ++ ":" ++ sym.name

def Symbol.covers (sym : Symbol) (lineNo : Nat) : Bool := sym.lineStart ≤ lineNo && lineNo ≤ sym.lineEnd

structure SymbolChange where
  kind : String
  name : String
  changeType : ChangeType
  lineStart : Nat
  lineEnd : Nat
  linesAdded : Nat
  linesRemoved : Nat

def SymbolChange.addLine (entry : SymbolChange) : SymbolChange :=
  { entry with linesAdded := entry.linesAdded + 1 }

def SymbolChange.removeLine (entry : SymbolChange) : SymbolChange :=
  { entry with linesRemoved := entry.linesRemoved + 1 }

structure FileLevelChange where
  lineStart : Nat
  lineEnd : Nat
  linesAdded : Nat
  linesRemoved : Nat
  rawLines : List String

/-! ### The diff as it is parsed -/

structure Line where
  lineType : String
  value : String
  sourceLineNo : Option Nat
  targetLineNo : Option Nat

def Line.isAdded (line : Line) : Bool := line.lineType = "+"

def Line.isRemoved (line : Line) : Bool := line.lineType = "-"

structure Hunk where
  lines : List Line

structure PatchedFile where
  path : String
  isAddedFile : Bool
  isRemovedFile : Bool
  hunks : List Hunk

def PatchedFile.lines (file : PatchedFile) : List Line := file.hunks.flatMap Hunk.lines

/-- The parser of unified diffs, with the totals that it tells of a file. -/
structure Unidiff where
  parse : String → Option (List PatchedFile)
  added : PatchedFile → Nat
  removed : PatchedFile → Nat

/-- An added line has a number in the new file and a removed one in the old file, and the totals count
such lines. -/
structure Unidiff.Documented (u : Unidiff) : Prop where
  added : ∀ text files, u.parse text = some files → ∀ file ∈ files,
    (∀ line ∈ file.lines, line.isAdded = true → line.targetLineNo.isSome = true) ∧
      u.added file = file.lines.countP Line.isAdded
  removed : ∀ text files, u.parse text = some files → ∀ file ∈ files,
    (∀ line ∈ file.lines, line.isRemoved = true → line.sourceLineNo.isSome = true) ∧
      u.removed file = file.lines.countP Line.isRemoved

/-! ### The changes of a file -/

/-- `str::lines`. -/
def sourceLines (source : String) : List (List Char) :=
  let pieces := source.toList.splitOn '\n'
  (pieces.dropLast.map fun line => if line.getLast? = some '\r' then line.dropLast else line) ++
    (pieces.getLast?.filter fun line => !line.isEmpty).toList

def rawLine (mark source : String) (lineNo : Nat) : String :=
  mark ++ " " ++ String.ofList ((sourceLines source)[lineNo - 1]?.getD [])

def addedLines (file : PatchedFile) : List Nat :=
  file.lines.filterMap fun line => if line.isAdded then line.targetLineNo else none

def removedLines (file : PatchedFile) : List Nat :=
  file.lines.filterMap fun line =>
    if !line.isAdded && line.isRemoved then line.sourceLineNo else none

/-- What is read of a file besides its diff. -/
structure FileReading where
  source : String
  targetSymbols : List Symbol
  gitShow : Option String
  parseBase : String → Option (List Symbol)

def FileReading.baseSource (reading : FileReading) : String := reading.gitShow.getD ""

def FileReading.baseSymbols (reading : FileReading) : List Symbol :=
  if reading.baseSource ≠ "" then (reading.parseBase reading.baseSource).getD [] else []

structure RawLine where
  lineNo : Nat
  raw : String
  changeType : ChangeType

structure Attribution where
  symbolChanges : InsertionMap String SymbolChange
  fileLevelRaw : List RawLine

def declares (symbols : List Symbol) (key : String) : Bool :=
  symbols.any fun sym => sym.scopedIdentity = key

/-- The entry of a symbol, a new one where there is none. -/
def entryOf (changes : InsertionMap String SymbolChange) (sym : Symbol) (changeType : ChangeType) :
    SymbolChange :=
  (changes.get? sym.scopedIdentity).getD
    { kind := sym.kind
      name := sym.name
      changeType := changeType
      lineStart := sym.lineStart
      lineEnd := sym.lineEnd
      linesAdded := 0
      linesRemoved := 0 }

def addedType (baseSymbols : List Symbol) (sym : Symbol) (lineNo : Nat) : ChangeType :=
  if !declares baseSymbols sym.scopedIdentity then .added
  else if lineNo = sym.lineStart then .signatureChanged
  else .bodyChanged

def removedType (targetSymbols : List Symbol) (sym : Symbol) : ChangeType :=
  if !declares targetSymbols sym.scopedIdentity then .deleted else .bodyChanged

def countAdded (reading : FileReading) (a : Attribution) (lineNo : Nat) : Attribution :=
  match reading.targetSymbols.find? fun sym => sym.covers lineNo with
  | some sym =>
    let entry := entryOf a.symbolChanges sym (addedType reading.baseSymbols sym lineNo)
    { a with symbolChanges := a.symbolChanges.set sym.scopedIdentity entry.addLine }
  | none =>
    { a with fileLevelRaw := a.fileLevelRaw ++ [⟨lineNo, rawLine "+" reading.source lineNo, .added⟩] }

def countRemoved (reading : FileReading) (a : Attribution) (lineNo : Nat) : Attribution :=
  match reading.baseSymbols.find? fun sym => sym.covers lineNo with
  | some sym =>
    let entry := entryOf a.symbolChanges sym (removedType reading.targetSymbols sym)
    { a with symbolChanges := a.symbolChanges.set sym.scopedIdentity entry.removeLine }
  | none =>
    { a with
      fileLevelRaw := a.fileLevelRaw ++ [⟨lineNo, rawLine "-" reading.baseSource lineNo, .deleted⟩] }

def attributeLines (reading : FileReading) (file : PatchedFile) : Attribution :=
  (removedLines file).foldl (countRemoved reading)
    ((addedLines file).foldl (countAdded reading) ⟨InsertionMap.empty, []⟩)

def startGroup (item : RawLine) : FileLevelChange where
  lineStart := item.lineNo
  lineEnd := item.lineNo
  linesAdded := if item.changeType = .added then 1 else 0
  linesRemoved := if item.changeType = .deleted then 1 else 0
  rawLines := [item.raw]

def extendGroup (group : FileLevelChange) (item : RawLine) : FileLevelChange :=
  { group with
    lineEnd := item.lineNo
    rawLines := group.rawLines ++ [item.raw]
    linesAdded := if item.changeType = .added then group.linesAdded + 1 else group.linesAdded
    linesRemoved := if item.changeType = .added then group.linesRemoved else group.linesRemoved + 1 }

/-- Lines that follow on one another make a group. -/
def groupFrom (current : FileLevelChange) : List RawLine → List FileLevelChange
  | [] => [current]
  | item :: items =>
    if item.lineNo ≤ current.lineEnd + 1 then groupFrom (extendGroup current item) items
    else current :: groupFrom (startGroup item) items

def groupLines (items : List RawLine) : List FileLevelChange :=
  match KeyOrder.orderBy RawLine.lineNo items with
  | [] => []
  | first :: rest => groupFrom (startGroup first) rest

def analyzeFileChanges (reading : FileReading) (file : PatchedFile) :
    List SymbolChange × List FileLevelChange :=
  let a := attributeLines reading file
  (KeyOrder.orderBy SymbolChange.lineStart a.symbolChanges.values, groupLines a.fileLevelRaw)

/-! ### The diff of a repository -/

inductive FileStatus
  | modified
  | added
  | deleted
  deriving DecidableEq

structure DiffFileResult where
  path : String
  status : FileStatus
  language : Option String
  symbolChanges : List SymbolChange
  fileLevelChanges : List FileLevelChange
  linesAdded : Nat
  linesRemoved : Nat

/-- What a repository yields of the files of a diff: their language and, where they parse, what is read
of them. -/
structure Tree where
  language : String → Option String
  reading : String → Option FileReading

def fileStatus (file : PatchedFile) : FileStatus :=
  if file.isAddedFile then .added else if file.isRemovedFile then .deleted else .modified

/-- The symbols of a file are looked at when it is there, is code and parses. -/
def analysis (tree : Tree) (file : PatchedFile) : Option (List SymbolChange × List FileLevelChange) :=
  if fileStatus file = .deleted then none
  else (tree.language file.path).bind fun _ =>
    (tree.reading file.path).map fun reading => analyzeFileChanges reading file

def diffFile (u : Unidiff) (tree : Tree) (file : PatchedFile) : DiffFileResult where
  path := file.path
  status := fileStatus file
  language := if fileStatus file = .deleted then none else tree.language file.path
  symbolChanges := ((analysis tree file).map (·.1)).getD []
  fileLevelChanges := ((analysis tree file).map (·.2)).getD []
  linesAdded := u.added file
  linesRemoved := u.removed file

def diffAgainst (u : Unidiff) (tree : Tree) (diffText : String) : Option (List DiffFileResult) :=
  if PolicyStore.isBlank diffText then some []
  else (u.parse diffText).map fun files => files.map (diffFile u tree)

/-! ### The counts -/

structure Balanced (symbols : List SymbolChange) (rest : List FileLevelChange) (added removed : Nat) :
    Prop where
  added : (symbols.map (·.linesAdded)).sum + (rest.map (·.linesAdded)).sum = added
  removed : (symbols.map (·.linesRemoved)).sum + (rest.map (·.linesRemoved)).sum = removed
  rawLines : ∀ group ∈ rest, group.rawLines.length = group.linesAdded + group.linesRemoved

/-- A line is an added or a removed one. -/
def RawLine.Marked (item : RawLine) : Prop := item.changeType = .added ∨ item.changeType = .deleted

def RawLine.isAdded (item : RawLine) : Bool := item.changeType = .added

def RawLine.isDeleted (item : RawLine) : Bool := item.changeType = .deleted

/-- What the attribution has counted so far. -/
structure Counted (a : Attribution) (added removed : Nat) : Prop where
  marked : ∀ item ∈ a.fileLevelRaw, item.Marked
  added : (a.symbolChanges.values.map (·.linesAdded)).sum + a.fileLevelRaw.countP RawLine.isAdded = added
  removed : (a.symbolChanges.values.map (·.linesRemoved)).sum +
    a.fileLevelRaw.countP RawLine.isDeleted = removed

theorem sum_set_entry (f : SymbolChange → Nat) (changes : InsertionMap String SymbolChange)
    (sym : Symbol) (changeType : ChangeType) (counted : SymbolChange)
    (hnew : ∀ kind name lineStart lineEnd, f ⟨kind, name, changeType, lineStart, lineEnd, 0, 0⟩ = 0) :
    ((changes.set sym.scopedIdentity counted).values.map f).sum + f (entryOf changes sym changeType) =
      (changes.values.map f).sum + f counted := by
  have hentry : f (entryOf changes sym changeType) =
      ((changes.get? sym.scopedIdentity).map f).getD 0 := by
    unfold entryOf
    cases changes.get? sym.scopedIdentity with
    | none => exact hnew _ _ _ _
    | some entry => rfl
  rw [hentry]
  exact InsertionMap.sum_values_set changes sym.scopedIdentity counted f

theorem sums_set (changes : InsertionMap String SymbolChange) (sym : Symbol)
    (changeType : ChangeType) (entry : SymbolChange) (added removed : Nat)
    (hadded : entry.linesAdded = (entryOf changes sym changeType).linesAdded + added)
    (hremoved : entry.linesRemoved = (entryOf changes sym changeType).linesRemoved + removed) :
    ((changes.set sym.scopedIdentity entry).values.map (·.linesAdded)).sum =
        (changes.values.map (·.linesAdded)).sum + added ∧
      ((changes.set sym.scopedIdentity entry).values.map (·.linesRemoved)).sum =
        (changes.values.map (·.linesRemoved)).sum + removed := by
  have hadd := sum_set_entry (fun entry => entry.linesAdded) changes sym changeType entry
    fun _ _ _ _ => rfl
  have hremove := sum_set_entry (fun entry => entry.linesRemoved) changes sym changeType entry
    fun _ _ _ _ => rfl
  omega

theorem Counted.countAdded {a : Attribution} {added removed : Nat} (h : Counted a added removed)
    (reading : FileReading) (lineNo : Nat) :
    Counted (countAdded reading a lineNo) (added + 1) removed := by
  have hadded := h.added
  have hremoved := h.removed
  unfold OutlineDiff.countAdded
  split
  · next sym _ =>
    have hsum := sums_set a.symbolChanges sym (addedType reading.baseSymbols sym lineNo)
      (.addLine _) 1 0 rfl rfl
    constructor
    · exact h.marked
    · dsimp only
      omega
    · dsimp only
      omega
  · constructor
    · intro item hitem
      rcases mem_append.mp hitem with hitem | hitem
      · exact h.marked item hitem
      · obtain rfl := mem_singleton.mp hitem
        exact Or.inl rfl
    · simp [RawLine.isAdded]
      omega
    · simp [RawLine.isDeleted]
      omega

theorem Counted.countRemoved {a : Attribution} {added removed : Nat} (h : Counted a added removed)
    (reading : FileReading) (lineNo : Nat) :
    Counted (countRemoved reading a lineNo) added (removed + 1) := by
  have hadded := h.added
  have hremoved := h.removed
  unfold OutlineDiff.countRemoved
  split
  · next sym _ =>
    have hsum := sums_set a.symbolChanges sym (removedType reading.targetSymbols sym)
      (.removeLine _) 0 1 rfl rfl
    constructor
    · exact h.marked
    · dsimp only
      omega
    · dsimp only
      omega
  · constructor
    · intro item hitem
      rcases mem_append.mp hitem with hitem | hitem
      · exact h.marked item hitem
      · obtain rfl := mem_singleton.mp hitem
        exact Or.inr rfl
    · simp [RawLine.isAdded]
      omega
    · simp [RawLine.isDeleted]
      omega

theorem counted_attributeLines (reading : FileReading) (file : PatchedFile) :
    Counted (attributeLines reading file) (addedLines file).length (removedLines file).length := by
  have hadded : ∀ (lines : List Nat) (a : Attribution) (added removed : Nat),
      Counted a added removed →
      Counted (lines.foldl (countAdded reading) a) (added + lines.length) removed := by
    intro lines
    induction lines with
    | nil =>
      intro a added removed h
      exact h
    | cons lineNo lines ih =>
      intro a added removed h
      have hrest := ih _ _ _ (h.countAdded reading lineNo)
      rw [length_cons, Nat.add_comm lines.length, ← Nat.add_assoc]
      exact hrest
  have hremoved : ∀ (lines : List Nat) (a : Attribution) (added removed : Nat),
      Counted a added removed →
      Counted (lines.foldl (countRemoved reading) a) added (removed + lines.length) := by
    intro lines
    induction lines with
    | nil =>
      intro a added removed h
      exact h
    | cons lineNo lines ih =>
      intro a added removed h
      have hrest := ih _ _ _ (h.countRemoved reading lineNo)
      rw [length_cons, Nat.add_comm lines.length, ← Nat.add_assoc]
      exact hrest
  have hstart : Counted ⟨InsertionMap.empty, []⟩ 0 0 := by
    constructor
    · intro item hitem
      exact absurd hitem not_mem_nil
    · rfl
    · rfl
  have hall := hremoved (removedLines file) _ _ _ (hadded (addedLines file) _ _ _ hstart)
  rw [Nat.zero_add, Nat.zero_add] at hall
  exact hall

/-! ### The groups -/

def FileLevelChange.Full (group : FileLevelChange) : Prop :=
  group.rawLines.length = group.linesAdded + group.linesRemoved

theorem full_startGroup {item : RawLine} (h : item.Marked) : (startGroup item).Full := by
  rcases h with h | h
  · simp [FileLevelChange.Full, startGroup, h]
  · simp [FileLevelChange.Full, startGroup, h]

theorem full_extendGroup {group : FileLevelChange} (h : group.Full) (item : RawLine) :
    (extendGroup group item).Full := by
  unfold FileLevelChange.Full at h ⊢
  by_cases hadded : item.changeType = .added
  · simp [extendGroup, hadded, h]
    omega
  · simp [extendGroup, hadded, h]
    omega

theorem startGroup_counts {item : RawLine} (h : item.Marked) :
    (startGroup item).linesAdded = [item].countP RawLine.isAdded ∧
      (startGroup item).linesRemoved = [item].countP RawLine.isDeleted := by
  rcases h with h | h
  · simp [startGroup, RawLine.isAdded, RawLine.isDeleted, h]
  · simp [startGroup, RawLine.isAdded, RawLine.isDeleted, h]

theorem extendGroup_counts {item : RawLine} (h : item.Marked) (group : FileLevelChange) :
    (extendGroup group item).linesAdded = group.linesAdded + [item].countP RawLine.isAdded ∧
      (extendGroup group item).linesRemoved =
        group.linesRemoved + [item].countP RawLine.isDeleted := by
  rcases h with h | h
  · simp [extendGroup, RawLine.isAdded, RawLine.isDeleted, h]
  · simp [extendGroup, RawLine.isAdded, RawLine.isDeleted, h]

theorem groupFrom_counts {items : List RawLine} (hmarked : ∀ item ∈ items, item.Marked)
    {current : FileLevelChange} (hfull : current.Full) :
    ((groupFrom current items).map (·.linesAdded)).sum =
        current.linesAdded + items.countP RawLine.isAdded ∧
      ((groupFrom current items).map (·.linesRemoved)).sum =
        current.linesRemoved + items.countP RawLine.isDeleted ∧
      ∀ group ∈ groupFrom current items, group.Full := by
  induction items generalizing current with
  | nil => simpa [groupFrom] using hfull
  | cons item items ih =>
    have hitem := hmarked item mem_cons_self
    have hrest : ∀ other ∈ items, other.Marked := fun other hother =>
      hmarked other (mem_cons_of_mem _ hother)
    rw [← singleton_append, countP_append, countP_append, singleton_append]
    simp only [groupFrom]
    split
    · obtain ⟨hadded, hremoved, hgroups⟩ := ih hrest (full_extendGroup hfull item)
      have hcounts := extendGroup_counts hitem current
      refine ⟨?_, ?_, hgroups⟩
      · omega
      · omega
    · obtain ⟨hadded, hremoved, hgroups⟩ := ih hrest (full_startGroup hitem)
      have hcounts := startGroup_counts hitem
      refine ⟨?_, ?_, ?_⟩
      · rw [map_cons, sum_cons]
        omega
      · rw [map_cons, sum_cons]
        omega
      · intro group hgroup
        rcases mem_cons.mp hgroup with rfl | hgroup
        · exact hfull
        · exact hgroups group hgroup

theorem groupLines_counts {items : List RawLine} (hmarked : ∀ item ∈ items, item.Marked) :
    ((groupLines items).map (·.linesAdded)).sum = items.countP RawLine.isAdded ∧
      ((groupLines items).map (·.linesRemoved)).sum = items.countP RawLine.isDeleted ∧
      ∀ group ∈ groupLines items, group.Full := by
  have hperm : (KeyOrder.orderBy RawLine.lineNo items).Perm items := perm_insertionSort _ items
  have hsorted : ∀ item ∈ KeyOrder.orderBy RawLine.lineNo items, item.Marked := fun item hitem =>
    hmarked item (hperm.mem_iff.mp hitem)
  rw [← hperm.countP_eq, ← hperm.countP_eq]
  unfold groupLines
  split
  · next hempty => simp [hempty]
  · next first rest hcons =>
    rw [hcons] at hsorted
    have hfirst := hsorted first mem_cons_self
    have hstart := startGroup_counts hfirst
    obtain ⟨hadded, hremoved, hgroups⟩ := groupFrom_counts
      (fun item hitem => hsorted item (mem_cons_of_mem _ hitem)) (full_startGroup hfirst)
    rw [hcons, ← singleton_append, countP_append, countP_append]
    refine ⟨?_, ?_, hgroups⟩
    · omega
    · omega

/-! ### The balance -/

theorem length_filterMap_marked {α β : Type} {p : α → Bool} {f : α → Option β} (xs : List α)
    (h : ∀ x ∈ xs, p x = true → (f x).isSome = true) :
    (xs.filterMap fun x => if p x then f x else none).length = xs.countP p := by
  induction xs with
  | nil => rfl
  | cons x xs ih =>
    have hrest := ih fun y hy => h y (mem_cons_of_mem _ hy)
    cases hp : p x with
    | false => simp [hp, hrest]
    | true =>
      obtain ⟨y, hy⟩ := Option.isSome_iff_exists.mp (h x mem_cons_self hp)
      simp [hp, hy, hrest]

theorem isAdded_eq_false {line : Line} (h : line.isRemoved = true) : line.isAdded = false := by
  unfold Line.isRemoved at h
  unfold Line.isAdded
  rw [of_decide_eq_true h]
  rfl

variable {u : Unidiff}

/-- The symbols of a file and the rest account for each of its changed lines. -/
theorem balanced_analyzeFileChanges (hu : u.Documented) {text : String} {files : List PatchedFile}
    (hparse : u.parse text = some files) {file : PatchedFile} (hfile : file ∈ files)
    (reading : FileReading) :
    Balanced (analyzeFileChanges reading file).1 (analyzeFileChanges reading file).2 (u.added file)
      (u.removed file) := by
  obtain ⟨hnumbered, htotal⟩ := hu.added text files hparse file hfile
  obtain ⟨hnumbered', htotal'⟩ := hu.removed text files hparse file hfile
  have hadded : (addedLines file).length = u.added file := by
    rw [htotal]
    exact length_filterMap_marked file.lines hnumbered
  have hremoved : (removedLines file).length = u.removed file := by
    rw [htotal']
    have hsome : ∀ line ∈ file.lines, (!line.isAdded && line.isRemoved) = true →
        line.sourceLineNo.isSome = true := by
      intro line hline h
      exact hnumbered' line hline (Bool.and_eq_true_iff.mp h).2
    have hcount : file.lines.countP (fun line => !line.isAdded && line.isRemoved) =
        file.lines.countP Line.isRemoved := by
      apply countP_congr
      intro line _
      constructor
      · intro h
        exact (Bool.and_eq_true_iff.mp h).2
      · intro h
        simp [h, isAdded_eq_false h]
    rw [← hcount]
    exact length_filterMap_marked file.lines hsome
  have hcounted := counted_attributeLines reading file
  rw [hadded, hremoved] at hcounted
  obtain ⟨hgroupAdded, hgroupRemoved, hfull⟩ := groupLines_counts hcounted.marked
  have hperm : (analyzeFileChanges reading file).1.Perm
      (attributeLines reading file).symbolChanges.values := perm_insertionSort _ _
  constructor
  · rw [(hperm.map _).sum_nat]
    have h := hcounted.added
    show _ + ((groupLines _).map _).sum = _
    omega
  · rw [(hperm.map _).sum_nat]
    have h := hcounted.removed
    show _ + ((groupLines _).map _).sum = _
    omega
  · exact hfull

theorem mem_diffAgainst {tree : Tree} {text : String} {results : List DiffFileResult}
    (h : diffAgainst u tree text = some results) :
    ∀ result ∈ results, ∃ files file, u.parse text = some files ∧ file ∈ files ∧
      result = diffFile u tree file := by
  intro result hresult
  unfold diffAgainst at h
  split at h
  · obtain rfl := Option.some.inj h
    exact absurd hresult not_mem_nil
  · obtain ⟨files, hparse, rfl⟩ := Option.map_eq_some_iff.mp h
    obtain ⟨file, hfile, rfl⟩ := mem_map.mp hresult
    exact ⟨files, file, hparse, hfile, rfl⟩

/-- Where the symbols of a file are parsed, the changes of its symbols and the rest account for every
line that the diff adds to the file or removes from it. -/
theorem diffFile_balanced (hu : u.Documented) {text : String} {files : List PatchedFile}
    (hparse : u.parse text = some files) {file : PatchedFile} (hfile : file ∈ files) {tree : Tree}
    (hanalysis : (analysis tree file).isSome = true) :
    Balanced (diffFile u tree file).symbolChanges (diffFile u tree file).fileLevelChanges
      (diffFile u tree file).linesAdded (diffFile u tree file).linesRemoved := by
  obtain ⟨pair, hpair⟩ := Option.isSome_iff_exists.mp hanalysis
  have hreading : ∃ reading, analyzeFileChanges reading file = pair := by
    unfold analysis at hpair
    split at hpair
    · simp at hpair
    · obtain ⟨_, _, hmap⟩ := Option.bind_eq_some_iff.mp hpair
      obtain ⟨reading, _, hreading⟩ := Option.map_eq_some_iff.mp hmap
      exact ⟨reading, hreading⟩
  obtain ⟨reading, rfl⟩ := hreading
  simp only [diffFile, hpair, Option.map_some, Option.getD_some]
  exact balanced_analyzeFileChanges hu hparse hfile reading

/-! ### A function whose body changes -/

def bodyDiff : String :=
  "diff --git a/a.rs b/a.rs\n--- a/a.rs\n+++ b/a.rs\n@@ -1,3 +1,4 @@\n use b;\n fn f() \x7b\n" ++
    "-\x7d\n+    b();\n+\x7d\n"

def bodyFile : PatchedFile where
  path := "a.rs"
  isAddedFile := false
  isRemovedFile := false
  hunks := [⟨[⟨" ", "use b;", some 1, some 1⟩, ⟨" ", "fn f() \x7b", some 2, some 2⟩,
    ⟨"-", "\x7d", some 3, none⟩, ⟨"+", "    b();", none, some 3⟩, ⟨"+", "\x7d", none, some 4⟩]⟩]

def bodyUnidiff : Unidiff where
  parse text := if text = bodyDiff then some [bodyFile] else none
  added file := file.lines.countP Line.isAdded
  removed file := file.lines.countP Line.isRemoved

theorem documented_bodyUnidiff : bodyUnidiff.Documented := by
  have hfile : ∀ text files, bodyUnidiff.parse text = some files → ∀ file ∈ files, file = bodyFile := by
    intro text files hparse file hmem
    simp only [bodyUnidiff] at hparse
    split at hparse
    · obtain rfl := Option.some.inj hparse
      exact mem_singleton.mp hmem
    · simp at hparse
  constructor
  · intro text files hparse file hmem
    obtain rfl := hfile text files hparse file hmem
    exact ⟨by decide, rfl⟩
  · intro text files hparse file hmem
    obtain rfl := hfile text files hparse file hmem
    exact ⟨by decide, rfl⟩

def bodyTree : Tree where
  language _ := some "rust"
  reading _ := some
    { source := "use b;\nfn f() \x7b\n    b();\n\x7d\n"
      targetSymbols := [⟨"", "function", "f", 2, 4⟩]
      gitShow := some "use b;\nfn f() \x7b\n\x7d\n"
      parseBase := fun _ => some [⟨"", "function", "f", 2, 3⟩] }

theorem bodyDiff_balanced :
    Balanced (diffFile bodyUnidiff bodyTree bodyFile).symbolChanges
      (diffFile bodyUnidiff bodyTree bodyFile).fileLevelChanges 2 1 :=
  diffFile_balanced documented_bodyUnidiff (if_pos rfl) mem_cons_self rfl

end OutlineDiff
