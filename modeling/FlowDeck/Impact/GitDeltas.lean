import FlowDeck.Impact.ImpactEdges

/-! The changes that are read from the output of git. -/

namespace GitDeltas

open ImpactEdges (startsWith)
open List

open Paths (canonicalizeRepoPath not_blank_of_canonical)

open PolicyStore (isBlank)

inductive ChangeKind
  | added
  | deleted
  | modified
  | renamed
  deriving DecidableEq

structure RawGitChange where
  kind : ChangeKind
  path : String
  oldPath : Option String
  deriving DecidableEq

inductive ClassifyError
  | git (message : String)
  | pathEscape (message : String)
  deriving DecidableEq

/-- The root of a repository, the lossy reading of bytes as text, and the commands that git is run
with there. -/
structure GitRepo where
  root : String
  decode : List UInt8 → String
  runGitBytes : List String → Except ClassifyError (List UInt8)

/-- The bytes up to the next NUL, and those after it. -/
def untilNul (bytes : List UInt8) : List UInt8 × List UInt8 :=
  (bytes.takeWhile (· ≠ 0), (bytes.dropWhile (· ≠ 0)).drop 1)

def excludedDirs : List String := [".fdx", ".git", "target", "node_modules"]

def isExcluded (canon : String) : Bool := excludedDirs.any fun dir => startsWith dir canon

def canonical (repo : GitRepo) (bytes : List UInt8) : Except ClassifyError String :=
  match canonicalizeRepoPath (repo.decode bytes) repo.root with
  | .ok canon => .ok canon
  | .error e => .error (.pathEscape e)

def kindOf (status : String) : ChangeKind :=
  if startsWith "A" status || startsWith "C" status then .added
  else if startsWith "D" status then .deleted
  else .modified

/-- Read the records of `git diff --name-status -z`, as many as the fuel allows. -/
def readDiff (repo : GitRepo) :
    Nat → List UInt8 → List RawGitChange → Except ClassifyError (List RawGitChange)
  | 0, _, changes => .ok changes
  | fuel + 1, bytes, changes =>
    let (status, rest) := untilNul bytes
    if bytes = [] ∨ rest = [] then .ok changes
    else if startsWith "R" (repo.decode status) then
      let (old, rest) := untilNul rest
      if rest = [] then .ok changes
      else
        let (new, rest) := untilNul rest
        match canonical repo old with
        | .error e => .error e
        | .ok oldCanon =>
          match canonical repo new with
          | .error e => .error e
          | .ok newCanon =>
            readDiff repo fuel rest (changes ++ [⟨.renamed, newCanon, some oldCanon⟩])
    else
      let (path, rest) := untilNul rest
      match canonical repo path with
      | .error e => .error e
      | .ok canon =>
        if isExcluded canon then readDiff repo fuel rest changes
        else readDiff repo fuel rest (changes ++ [⟨kindOf (repo.decode status), canon, none⟩])

def addUntracked (changes : List RawGitChange) (canon : String) : List RawGitChange :=
  if isExcluded canon || changes.any fun c => c.path = canon then changes
  else changes ++ [⟨.added, canon, none⟩]

/-- Read the paths of `git ls-files --others -z`; what is no path of the repository is passed over. -/
def readUntracked (repo : GitRepo) : Nat → List UInt8 → List RawGitChange → List RawGitChange
  | 0, _, changes => changes
  | fuel + 1, bytes, changes =>
    if bytes = [] then changes
    else
      let (raw, rest) := untilNul bytes
      if isBlank (repo.decode raw) then readUntracked repo fuel rest changes
      else
        match canonical repo raw with
        | .error _ => readUntracked repo fuel rest changes
        | .ok canon => readUntracked repo fuel rest (addUntracked changes canon)

def diffArgs (baseRef headRef : Option String) : List String :=
  ["diff", "--name-status", "-z", "-M", baseRef.getD "HEAD"] ++ headRef.toList

def untrackedArgs : List String := ["ls-files", "--others", "--exclude-standard", "-z"]

def collectGitDeltas (repo : GitRepo) (baseRef headRef : Option String) :
    Except ClassifyError (List RawGitChange) := do
  let output ← repo.runGitBytes (diffArgs baseRef headRef)
  let changes ← readDiff repo output.length output []
  if headRef.isNone then
    match repo.runGitBytes untrackedArgs with
    | .ok untracked => return readUntracked repo untracked.length untracked changes
    | .error _ => return changes
  else return changes

/-! ### What git lists -/

/-- The bytes of a path of the repository: text in the form that paths are kept in. -/
structure RepoPath (root : String) (decode : List UInt8 → String) where
  bytes : List UInt8
  noNul : 0 ∉ bytes
  canonical : canonicalizeRepoPath (decode bytes) root = .ok (decode bytes)

def RepoPath.text {root : String} {decode : List UInt8 → String} (p : RepoPath root decode) :
    String := decode p.bytes

/-- Renames and copies carry two paths. -/
def hasTwoPaths (status : String) : Bool := startsWith "R" status || startsWith "C" status

inductive DiffRecord (root : String) (decode : List UInt8 → String)
  | single (status : List UInt8) (path : RepoPath root decode) (hstatus : 0 ∉ status)
      (hletter : hasTwoPaths (decode status) = false)
  | pair (status : List UInt8) (old new : RepoPath root decode) (hstatus : 0 ∉ status)
      (hletter : hasTwoPaths (decode status) = true)

namespace DiffRecord

variable {root : String} {decode : List UInt8 → String}

def bytes : DiffRecord root decode → List UInt8
  | .single status path _ _ => status ++ 0 :: (path.bytes ++ [0])
  | .pair status old new _ _ => status ++ 0 :: (old.bytes ++ 0 :: (new.bytes ++ [0]))

def change : DiffRecord root decode → RawGitChange
  | .single status path _ _ => ⟨kindOf (decode status), path.text, none⟩
  | .pair status old new _ _ =>
    if startsWith "R" (decode status) then ⟨.renamed, new.text, some old.text⟩
    else ⟨.added, new.text, none⟩

def isRename : DiffRecord root decode → Bool
  | .single .. => false
  | .pair status .. => startsWith "R" (decode status)

def isCopy : DiffRecord root decode → Bool
  | .single .. => false
  | .pair status .. => !startsWith "R" (decode status)

end DiffRecord

/-- What git lists of a repository: the records of the difference and the untracked paths. -/
structure Listing where
  root : String
  decode : List UInt8 → String
  records : List (DiffRecord root decode)
  untracked : List (RepoPath root decode)

namespace Listing

def repo (v : Listing) : GitRepo where
  root := v.root
  decode := v.decode
  runGitBytes := fun args =>
    if args = untrackedArgs then .ok (v.untracked.flatMap fun p => p.bytes ++ [0])
    else .ok (v.records.flatMap DiffRecord.bytes)

/-- The untracked paths count only against the working tree. -/
def untrackedPaths (v : Listing) (headRef : Option String) : List String :=
  if headRef.isNone then v.untracked.map RepoPath.text else []

end Listing

/-- A path below one of the directories that are left out. -/
def liesInside (path : String) : Bool := excludedDirs.any fun dir => startsWith (dir ++ "/") path

/-- One change for every listed path outside the directories, as it is listed, and no other. -/
structure Exact (v : Listing) (headRef : Option String) (changes : List RawGitChange) : Prop where
  records : ∀ r ∈ v.records, liesInside r.change.path = false → r.change ∈ changes
  untracked : ∀ path ∈ v.untrackedPaths headRef, liesInside path = false →
    (∃ r ∈ v.records, r.change.path = path) ∨ ⟨.added, path, none⟩ ∈ changes
  only : ∀ c ∈ changes, liesInside c.path = false ∧
    ((∃ r ∈ v.records, r.change = c) ∨
      (c.path ∈ v.untrackedPaths headRef ∧ c = ⟨.added, c.path, none⟩))
  once : (changes.map RawGitChange.path).Nodup

/-- No path outside the directories begins as one of their names does, save a rename's; no rename leads
into a directory; and the difference lists a path once. -/
structure Plain (v : Listing) (headRef : Option String) : Prop where
  copies : ∀ r ∈ v.records, r.isCopy = false
  records : ∀ r ∈ v.records, r.isRename = false → isExcluded r.change.path = true →
    liesInside r.change.path = true
  renames : ∀ r ∈ v.records, r.isRename = true → liesInside r.change.path = false
  untracked : ∀ path ∈ v.untrackedPaths headRef, isExcluded path = true →
    liesInside path = true ∨ ∃ r ∈ v.records, r.change.path = path
  once : ((v.records.filter fun r => !liesInside r.change.path).map fun r => r.change.path).Nodup

/-! ### Reading what git lists -/

theorem untilNul_append {piece : List UInt8} (h : 0 ∉ piece) (rest : List UInt8) :
    untilNul (piece ++ 0 :: rest) = (piece, rest) := by
  have hne : ∀ b ∈ piece, (decide (b ≠ 0)) = true := by
    intro b hb
    rw [decide_eq_true_eq]
    intro heq
    exact h (heq ▸ hb)
  rw [untilNul, takeWhile_append_of_pos hne, dropWhile_append_of_pos hne]
  simp

section Read

variable {v : Listing}

theorem canonical_path (p : RepoPath v.root v.decode) : canonical v.repo p.bytes = .ok p.text := by
  have hcanonical := p.canonical
  simp only [canonical, Listing.repo, hcanonical, RepoPath.text]

/-- What is made of a record that is no copy. -/
def readRecord? (r : DiffRecord v.root v.decode) : Option RawGitChange :=
  if r.isRename = false ∧ isExcluded r.change.path = true then none else some r.change

theorem readDiff_record {r : DiffRecord v.root v.decode} (hcopy : r.isCopy = false) (fuel : Nat)
    (rest : List UInt8) (changes : List RawGitChange) :
    readDiff v.repo (fuel + 1) (r.bytes ++ rest) changes =
      readDiff v.repo fuel rest (changes ++ (readRecord? r).toList) := by
  cases r with
  | single status path hstatus hletter =>
    have hbytes : (DiffRecord.single status path hstatus hletter).bytes ++ rest =
        status ++ 0 :: (path.bytes ++ 0 :: rest) := by
      simp [DiffRecord.bytes]
    have hletters : startsWith "R" (v.decode status) = false := by
      simp only [hasTwoPaths, Bool.or_eq_false_iff] at hletter
      exact hletter.1
    have hdecode : v.repo.decode = v.decode := rfl
    rw [hbytes, readDiff, untilNul_append hstatus]
    simp only [hdecode, hletters, untilNul_append path.noNul, canonical_path]
    cases hexcluded : isExcluded path.text with
    | true => simp [readRecord?, DiffRecord.isRename, DiffRecord.change, hexcluded]
    | false => simp [readRecord?, DiffRecord.isRename, DiffRecord.change, hexcluded]
  | pair status old new hstatus hletter =>
    have hbytes : (DiffRecord.pair status old new hstatus hletter).bytes ++ rest =
        status ++ 0 :: (old.bytes ++ 0 :: (new.bytes ++ 0 :: rest)) := by
      simp [DiffRecord.bytes]
    have hrename : startsWith "R" (v.decode status) = true := by
      simpa [DiffRecord.isCopy] using hcopy
    have hdecode : v.repo.decode = v.decode := rfl
    rw [hbytes, readDiff, untilNul_append hstatus]
    simp only [hdecode, hrename, untilNul_append old.noNul, untilNul_append new.noNul,
      canonical_path]
    simp [readRecord?, DiffRecord.isRename, DiffRecord.change, hrename]

theorem readDiff_records {records : List (DiffRecord v.root v.decode)}
    (hcopies : ∀ r ∈ records, r.isCopy = false) {fuel : Nat} (hfuel : records.length ≤ fuel)
    (changes : List RawGitChange) :
    readDiff v.repo fuel (records.flatMap DiffRecord.bytes) changes =
      .ok (changes ++ records.filterMap readRecord?) := by
  induction records generalizing fuel changes with
  | nil =>
    cases fuel with
    | zero => simp [readDiff]
    | succ fuel => simp [readDiff]
  | cons r records ih =>
    cases fuel with
    | zero => simp at hfuel
    | succ fuel =>
      rw [flatMap_cons, readDiff_record (hcopies r mem_cons_self),
        ih (fun other hother => hcopies other (mem_cons_of_mem _ hother))
          (by simpa using hfuel), append_assoc, filterMap_cons]
      cases readRecord? r <;> rfl

theorem readUntracked_paths (paths : List (RepoPath v.root v.decode)) {fuel : Nat}
    (hfuel : paths.length ≤ fuel) (changes : List RawGitChange) :
    readUntracked v.repo fuel (paths.flatMap fun p => p.bytes ++ [0]) changes =
      (paths.map RepoPath.text).foldl addUntracked changes := by
  induction paths generalizing fuel changes with
  | nil =>
    cases fuel with
    | zero => simp [readUntracked]
    | succ fuel => simp [readUntracked]
  | cons p paths ih =>
    cases fuel with
    | zero => simp at hfuel
    | succ fuel =>
      have hbytes : ((p :: paths).flatMap fun p => p.bytes ++ [0]) =
          p.bytes ++ 0 :: (paths.flatMap fun p => p.bytes ++ [0]) := by
        simp
      have hblank : isBlank (v.repo.decode p.bytes) = false := not_blank_of_canonical p.canonical
      rw [hbytes, readUntracked, untilNul_append p.noNul]
      simp [hblank, canonical_path, ih (show paths.length ≤ fuel by simpa using hfuel)]

theorem length_le_flatMap {α : Type} (f : α → List UInt8) (hf : ∀ x, f x ≠ []) (xs : List α) :
    xs.length ≤ (xs.flatMap f).length := by
  induction xs with
  | nil => simp
  | cons x xs ih =>
    have hpos := length_pos_iff.mpr (hf x)
    simp only [flatMap_cons, length_append, length_cons]
    omega

theorem bytes_ne_nil (r : DiffRecord v.root v.decode) : r.bytes ≠ [] := by
  cases r <;> simp [DiffRecord.bytes]

def collected (v : Listing) (headRef : Option String) : List RawGitChange :=
  (v.untrackedPaths headRef).foldl addUntracked (v.records.filterMap readRecord?)

theorem collectGitDeltas_eq (hcopies : ∀ r ∈ v.records, r.isCopy = false)
    (baseRef headRef : Option String) :
    collectGitDeltas v.repo baseRef headRef = .ok (collected v headRef) := by
  have hargs : diffArgs baseRef headRef ≠ untrackedArgs := by
    intro heq
    have hhead := congrArg head? heq
    simp [diffArgs, untrackedArgs] at hhead
  have hdiff : v.repo.runGitBytes (diffArgs baseRef headRef) =
      .ok (v.records.flatMap DiffRecord.bytes) := by
    simp [Listing.repo, hargs]
  have hlist : v.repo.runGitBytes untrackedArgs =
      .ok (v.untracked.flatMap fun p => p.bytes ++ [0]) := by
    simp [Listing.repo]
  have hread := readDiff_records hcopies (length_le_flatMap _ bytes_ne_nil v.records) []
  have hpaths := readUntracked_paths v.untracked
    (length_le_flatMap (fun p => p.bytes ++ [0]) (by simp) v.untracked)
    (v.records.filterMap readRecord?)
  rw [collectGitDeltas, hdiff, Checked.ok_bind, hread, Checked.ok_bind, nil_append, hlist]
  cases headRef with
  | none => exact congrArg Except.ok hpaths
  | some head => rfl

/-! ### The untracked paths -/

theorem mem_foldl_addUntracked {paths : List String} {changes : List RawGitChange}
    {c : RawGitChange} :
    c ∈ paths.foldl addUntracked changes ↔ c ∈ changes ∨
      (c.path ∈ paths ∧ isExcluded c.path = false ∧ c = ⟨.added, c.path, none⟩ ∧
        ∀ other ∈ changes, other.path ≠ c.path) := by
  induction paths generalizing changes with
  | nil => simp
  | cons path paths ih =>
    rw [foldl_cons, ih]
    by_cases hskip : isExcluded path = true ∨ ∃ other ∈ changes, other.path = path
    · have hsame : addUntracked changes path = changes := by
        apply if_pos
        simpa only [Bool.or_eq_true, any_eq_true, decide_eq_true_eq] using hskip
      rw [hsame]
      constructor
      · intro h
        exact h.imp_right fun hnew => ⟨mem_cons_of_mem _ hnew.1, hnew.2⟩
      · intro h
        cases h with
        | inl hold => exact Or.inl hold
        | inr hnew =>
          obtain ⟨hmem, hincluded, heq, hother⟩ := hnew
          cases mem_cons.mp hmem with
          | inr hrest => exact Or.inr ⟨hrest, hincluded, heq, hother⟩
          | inl hpath =>
            cases hskip with
            | inl hexcluded =>
              rw [hpath, hexcluded] at hincluded
              exact absurd hincluded (by decide)
            | inr hlisted =>
              obtain ⟨other, hmemOther, hsamePath⟩ := hlisted
              exact absurd (hsamePath.trans hpath.symm) (hother other hmemOther)
    · have hnew : addUntracked changes path = changes ++ [⟨.added, path, none⟩] := by
        apply if_neg
        simpa only [Bool.or_eq_true, any_eq_true, decide_eq_true_eq] using hskip
      have hincluded : isExcluded path = false := by
        simpa using fun h => hskip (Or.inl h)
      rw [hnew]
      simp only [mem_append, mem_cons, not_mem_nil, or_false]
      constructor
      · intro h
        rcases h with (hold | rfl) | ⟨hmem, hc, heq, hother⟩
        · exact Or.inl hold
        · exact Or.inr ⟨Or.inl rfl, hincluded, rfl,
            fun other hmem hsame => hskip (Or.inr ⟨other, hmem, hsame⟩)⟩
        · exact Or.inr ⟨Or.inr hmem, hc, heq, fun other hin => hother other (Or.inl hin)⟩
      · intro h
        rcases h with hold | ⟨hmem, hc, heq, hother⟩
        · exact Or.inl (Or.inl hold)
        by_cases hpath : c.path = path
        · rw [hpath] at heq
          exact Or.inl (Or.inr heq)
        · refine Or.inr ⟨hmem.resolve_left hpath, hc, heq, ?_⟩
          intro other hin
          cases hin with
          | inl hold => exact hother other hold
          | inr hlast =>
            rw [hlast]
            exact Ne.symm hpath

theorem nodup_foldl_addUntracked {paths : List String} {changes : List RawGitChange}
    (h : (changes.map RawGitChange.path).Nodup) :
    ((paths.foldl addUntracked changes).map RawGitChange.path).Nodup := by
  induction paths generalizing changes with
  | nil => exact h
  | cons path paths ih =>
    apply ih
    unfold addUntracked
    split
    · exact h
    · next hadd =>
      simp only [Bool.or_eq_true, any_eq_true, decide_eq_true_eq, not_or] at hadd
      rw [map_append, nodup_append']
      refine ⟨h, nodup_singleton _, ?_⟩
      intro other hother hpath
      obtain ⟨c, hc, rfl⟩ := mem_map.mp hother
      exact hadd.2 ⟨c, hc, mem_singleton.mp hpath⟩

theorem prefix_foldl_addUntracked (paths : List String) (changes : List RawGitChange) :
    changes <+: paths.foldl addUntracked changes := by
  induction paths generalizing changes with
  | nil => exact prefix_refl _
  | cons path paths ih =>
    apply IsPrefix.trans ?_ (ih _)
    unfold addUntracked
    split
    · exact prefix_refl _
    · exact prefix_append _ _

/-! ### What is collected -/

theorem liesInside_le {path : String} (h : liesInside path = true) : isExcluded path = true := by
  obtain ⟨dir, hdir, hstart⟩ := any_eq_true.mp h
  refine any_eq_true.mpr ⟨dir, hdir, ?_⟩
  have hprefix := isPrefixOf_iff_prefix.mp hstart
  rw [String.toList_append] at hprefix
  exact isPrefixOf_iff_prefix.mpr ((prefix_append _ _).trans hprefix)

def isRead (r : DiffRecord v.root v.decode) : Bool := r.isRename || !isExcluded r.change.path

theorem filterMap_readRecord? (records : List (DiffRecord v.root v.decode)) :
    records.filterMap readRecord? = (records.filter isRead).map DiffRecord.change := by
  induction records with
  | nil => rfl
  | cons r records ih =>
    rw [filterMap_cons, filter_cons]
    cases hrename : r.isRename <;> cases hexcluded : isExcluded r.change.path <;>
      simp [readRecord?, isRead, hrename, hexcluded, ih]

theorem isRename_iff {r : DiffRecord v.root v.decode} :
    r.isRename = true ↔ r.change.kind = .renamed := by
  cases r with
  | single status path hstatus hletter =>
    simp only [DiffRecord.isRename, DiffRecord.change, kindOf]
    split <;> simp
    split <;> simp
  | pair status old new hstatus hletter =>
    simp only [DiffRecord.isRename, DiffRecord.change]
    split
    · next h => simp [h]
    · next h => simp [h]

variable {headRef : Option String}

theorem mem_collected {c : RawGitChange} :
    c ∈ collected v headRef ↔ (∃ r ∈ v.records, isRead r = true ∧ r.change = c) ∨
      (c.path ∈ v.untrackedPaths headRef ∧ isExcluded c.path = false ∧ c = ⟨.added, c.path, none⟩ ∧
        ∀ r ∈ v.records, isRead r = true → r.change.path ≠ c.path) := by
  rw [collected, mem_foldl_addUntracked, filterMap_readRecord?]
  have hmem : ∀ other, other ∈ (v.records.filter isRead).map DiffRecord.change ↔
      ∃ r ∈ v.records, isRead r = true ∧ r.change = other := by
    intro other
    simp only [mem_map, mem_filter, and_assoc]
  rw [hmem]
  refine or_congr Iff.rfl (and_congr_right fun _ => and_congr_right fun _ =>
    and_congr_right fun _ => ?_)
  constructor
  · intro h r hr hkept
    exact h r.change ((hmem _).mpr ⟨r, hr, hkept, rfl⟩)
  · intro h other hother
    obtain ⟨r, hr, hkept, rfl⟩ := (hmem _).mp hother
    exact h r hr hkept

theorem isRead_iff {r : DiffRecord v.root v.decode}
    (hrecord : r.isRename = false → isExcluded r.change.path = true → liesInside r.change.path = true)
    (hrename : r.isRename = true → liesInside r.change.path = false) :
    isRead r = !liesInside r.change.path := by
  unfold isRead
  cases hkind : r.isRename with
  | true => simp [hrename hkind]
  | false =>
    cases hexcluded : isExcluded r.change.path with
    | true => simp [hrecord hkind hexcluded]
    | false =>
      have hout : liesInside r.change.path = false := by
        by_contra hin
        have hle := liesInside_le (Bool.eq_true_of_not_eq_false hin)
        rw [hexcluded] at hle
        exact absurd hle (by decide)
      simp [hout]

theorem exact_of_plain (h : Plain v headRef) : Exact v headRef (collected v headRef) := by
  have hread : ∀ r ∈ v.records, isRead r = !liesInside r.change.path :=
    fun r hr => isRead_iff (h.records r hr) (h.renames r hr)
  have houtside : ∀ path, isExcluded path = false → liesInside path = false := by
    intro path hexcluded
    by_contra hin
    have hle := liesInside_le (Bool.eq_true_of_not_eq_false hin)
    rw [hexcluded] at hle
    exact absurd hle (by decide)
  refine ⟨?_, ?_, ?_, ?_⟩
  · intro r hr hout
    rw [mem_collected]
    exact Or.inl ⟨r, hr, by simp [hread r hr, hout], rfl⟩
  · intro path hpath hout
    by_cases hlisted : ∃ r ∈ v.records, r.change.path = path
    · exact Or.inl hlisted
    · right
      rw [mem_collected]
      right
      refine ⟨hpath, ?_, rfl, ?_⟩
      · by_contra hexcluded
        cases h.untracked path hpath (Bool.eq_true_of_not_eq_false hexcluded) with
        | inl hin => exact absurd (hout.symm.trans hin) (by decide)
        | inr hin => exact hlisted hin
      · intro r hr _ hsame
        exact hlisted ⟨r, hr, hsame⟩
  · intro c hc
    rw [mem_collected] at hc
    cases hc with
    | inl hrecord =>
      obtain ⟨r, hr, hkept, rfl⟩ := hrecord
      rw [hread r hr] at hkept
      exact ⟨by simpa using hkept, Or.inl ⟨r, hr, rfl⟩⟩
    | inr huntracked =>
      obtain ⟨hpath, hexcluded, heq, _⟩ := huntracked
      exact ⟨houtside _ hexcluded, Or.inr ⟨hpath, heq⟩⟩
  · apply nodup_foldl_addUntracked
    rw [filterMap_readRecord?, filter_congr hread, map_map]
    exact h.once

theorem plain_of_exact (hcopies : ∀ r ∈ v.records, r.isCopy = false)
    (h : Exact v headRef (collected v headRef)) : Plain v headRef := by
  have hrecords : ∀ r ∈ v.records, r.isRename = false → isExcluded r.change.path = true →
      liesInside r.change.path = true := by
    intro r hr hkind hexcluded
    by_contra hout
    have hmem := h.records r hr (by simpa using hout)
    rw [mem_collected] at hmem
    cases hmem with
    | inl hrecord =>
      obtain ⟨other, _, hkept, hsame⟩ := hrecord
      have hrename : other.isRename = true := by
        rw [isRead, hsame, hexcluded] at hkept
        simpa using hkept
      rw [isRename_iff, hsame, ← isRename_iff, hkind] at hrename
      exact absurd hrename (by decide)
    | inr huntracked => exact absurd (huntracked.2.1.symm.trans hexcluded) (by decide)
  have hrenames : ∀ r ∈ v.records, r.isRename = true → liesInside r.change.path = false := by
    intro r hr hkind
    have hmem : r.change ∈ collected v headRef := by
      rw [mem_collected]
      exact Or.inl ⟨r, hr, by simp [isRead, hkind], rfl⟩
    exact (h.only _ hmem).1
  refine ⟨hcopies, hrecords, hrenames, ?_, ?_⟩
  · intro path hpath hexcluded
    by_contra hneither
    obtain ⟨hout, hlisted⟩ := not_or.mp hneither
    have hadded := (h.untracked path hpath (by simpa using hout)).resolve_left hlisted
    rw [mem_collected] at hadded
    cases hadded with
    | inl hrecord =>
      obtain ⟨r, hr, _, hsame⟩ := hrecord
      exact hlisted ⟨r, hr, congrArg RawGitChange.path hsame⟩
    | inr huntracked => exact absurd (huntracked.2.1.symm.trans hexcluded) (by decide)
  · have hread : ∀ r ∈ v.records, isRead r = !liesInside r.change.path :=
      fun r hr => isRead_iff (hrecords r hr) (hrenames r hr)
    have hprefix := prefix_foldl_addUntracked (v.untrackedPaths headRef)
      (v.records.filterMap readRecord?)
    have hsub := Sublist.map RawGitChange.path hprefix.sublist
    have honce := h.once.sublist hsub
    rw [filterMap_readRecord?, filter_congr hread, map_map] at honce
    exact honce

end Read

def CollectsExactly (v : Listing) (baseRef headRef : Option String) : Prop :=
  ∃ changes, collectGitDeltas v.repo baseRef headRef = .ok changes ∧ Exact v headRef changes

/-- Plain listings are collected exactly, and where git lists no copies only these are. -/
theorem collectsExactly_plain (v : Listing) (baseRef headRef : Option String) :
    (Plain v headRef → CollectsExactly v baseRef headRef) ∧
      ((∀ r ∈ v.records, r.isCopy = false) → CollectsExactly v baseRef headRef →
        Plain v headRef) := by
  constructor
  · intro h
    exact ⟨_, collectGitDeltas_eq h.copies baseRef headRef, exact_of_plain h⟩
  · intro hcopies h
    obtain ⟨changes, hchanges, hexact⟩ := h
    rw [collectGitDeltas_eq hcopies] at hchanges
    rw [← Except.ok.inj hchanges] at hexact
    exact plain_of_exact hcopies hexact

/-! ### A hidden directory of another name -/

def asciiText (bytes : List UInt8) : String :=
  String.ofList (bytes.map fun b => Char.ofNat b.toNat)

def asciiBytes (text : String) : List UInt8 := text.toList.map fun c => UInt8.ofNat c.toNat

def workflowPath : RepoPath "/repo" asciiText where
  bytes := asciiBytes ".github/ci.yml"
  noNul := by decide +kernel
  canonical := by rfl

/-- `M NUL .github/ci.yml NUL`, and nothing is untracked. -/
def workflowChange : Listing where
  root := "/repo"
  decode := asciiText
  records := [.single (asciiBytes "M") workflowPath (by decide) (by decide +kernel)]
  untracked := []

/-- The change of a file below `.github` is dropped. -/
theorem github_change_dropped : ¬ CollectsExactly workflowChange none none := by
  intro h
  obtain ⟨changes, hchanges, hexact⟩ := h
  have hcopies : ∀ r ∈ workflowChange.records, r.isCopy = false := by
    intro r hr
    obtain rfl := mem_singleton.mp hr
    rfl
  have hnone : collected workflowChange none = [] := by decide +kernel
  rw [collectGitDeltas_eq hcopies, hnone] at hchanges
  rw [← Except.ok.inj hchanges] at hexact
  have hmem := hexact.records _ (mem_singleton.mpr rfl) (by decide +kernel)
  exact absurd hmem not_mem_nil

end GitDeltas
