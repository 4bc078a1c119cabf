import FlowDeck.Policy.PolicyStore

namespace Paths

open Checked List

open PolicyStore (isBlank)

/-- The parts of a path's text between its slashes, empty ones included. -/
def segments (path : String) : List String := (path.toList.splitOn '/').map String.ofList

def isAbsolute (path : String) : Bool := path.toList.head? = some '/'

inductive Component
  | rootDir
  | curDir
  | parentDir
  | normal (name : String)
  deriving DecidableEq

def component? (segment : String) : Option Component :=
  if segment = "" || segment = "." then none
  else if segment = ".." then some .parentDir
  else some (.normal segment)

/-- `Path::components`: a leading dot is kept, any other and every empty part is not. -/
def components (path : String) : List Component :=
  let leading :=
    if isAbsolute path then [.rootDir]
    else if (segments path).head? = some "." then [.curDir]
    else []
  leading ++ (segments path).filterMap component?

/-- `==` on paths. -/
def samePath (path other : String) : Bool := components path = components other

/-- `Path::starts_with`. -/
def startsWith (path base : String) : Bool := (components base).isPrefixOf (components path)

def join (base path : String) : String :=
  if isAbsolute path then path
  else if base = "" || base.toList.getLast? = some '/' then base ++ path
  else base ++ "/" ++ path

/-- The parts in reverse order, less the empty ones and the dots at the end of the path. -/
def trimBack : List String → List String
  | [] => []
  | segment :: before =>
    if segment = "" || segment = "." && !before.isEmpty then trimBack before
    else segment :: before

/-- The text of the parts, given in reverse order. -/
def render (absolute : Bool) (reversed : List String) : String :=
  match trimBack reversed with
  | [] => if absolute then "/" else ""
  | kept => "/".intercalate kept.reverse

def parent? (path : String) : Option String :=
  match trimBack (segments path).reverse with
  | [] => none
  | _ :: before => some (render (isAbsolute path) before)

def fileName? (path : String) : Option String :=
  match (components path).getLast? with
  | some (.normal name) => some name
  | _ => none

/-- The name up to its last dot; a name whose only dot comes first is kept. -/
def fileStem? (path : String) : Option String :=
  (fileName? path).map fun name =>
    match (name.toList.splitOn '.').dropLast with
    | [] | [[]] => name
    | parts => String.ofList (['.'].intercalate parts)

/-- The parts left once a number of components has been read. -/
def dropComponents : Nat → List String → List String
  | 0, parts => parts.dropWhile fun part => component? part = none
  | _ + 1, [] => []
  | n + 1, part :: parts =>
    match component? part with
    | none => dropComponents (n + 1) parts
    | some _ => dropComponents n parts

/-- `Path::strip_prefix`: the parts between are kept as the text has them. -/
def relativeTo? (path base : String) : Option String :=
  if startsWith path base then
    match components base with
    | [] => some (render (isAbsolute path) (segments path).reverse)
    | .rootDir :: rest | .curDir :: rest =>
      some (trimmedText (dropComponents rest.length (segments path).tail))
    | named => some (trimmedText (dropComponents named.length (segments path)))
  else none
where
  trimmedText (parts : List String) : String :=
    "/".intercalate (parts.reverse.dropWhile fun part => component? part = none).reverse

theorem intercalate_segments (path : String) : "/".intercalate (segments path) = path := by
  apply String.toList_inj.mp
  rw [String.toList_intercalate, segments, map_map]
  have hid : String.toList ∘ String.ofList = id := by
    funext text
    simp
  rw [hid, map_id]
  exact intercalate_splitOn '/'

theorem segments_append (base path : String) :
    segments (base ++ "/" ++ path) = segments base ++ segments path := by
  have hsplit : (base.toList ++ '/' :: path.toList).splitOn '/' =
      base.toList.splitOn '/' ++ path.toList.splitOn '/' := splitOn_append_cons_self _ _
  simp [segments, hsplit]

theorem segments_slash (base : String) {name : String} (h : '/' ∉ name.toList) :
    segments (base ++ "/" ++ name) = segments base ++ [name] := by
  have hname : segments name = [name] := by
    simp [segments, splitOn_eq_singleton h]
  rw [segments_append, hname]

variable {name base path : String}

theorem not_isAbsolute (h : '/' ∉ name.toList) : isAbsolute name = false := by
  unfold isAbsolute
  apply decide_eq_false
  intro hhead
  exact h (mem_of_mem_head? hhead)

/-- A relative path is joined to a directory by one slash, which the directory may end with. -/
theorem join_eq (hbase : base ≠ "") (h : isAbsolute path = false) :
    ∃ before, join base path = before ++ "/" ++ path ∧
      (base = before ∨ base = before ++ "/") := by
  unfold join
  rw [h]
  by_cases hlast : base.toList.getLast? = some '/'
  · obtain ⟨before, hbefore⟩ := getLast?_eq_some_iff.mp hlast
    have hsplit : base = String.ofList before ++ "/" := by
      apply String.toList_inj.mp
      simp [hbefore]
    refine ⟨String.ofList before, ?_, .inr hsplit⟩
    simp [hlast, ← hsplit]
  · refine ⟨base, ?_, .inl rfl⟩
    simp [hlast, hbase]

theorem isAbsolute_append (h : isAbsolute base = true) (rest : String) :
    isAbsolute (base ++ rest) = true := by
  have hhead : base.toList.head? = some '/' := of_decide_eq_true h
  unfold isAbsolute
  apply decide_eq_true
  rw [String.toList_append, head?_append, hhead]
  rfl

theorem isAbsolute_join (h : isAbsolute base = true) (hpath : isAbsolute path = false) :
    isAbsolute (join base path) = true := by
  have hbase : base ≠ "" := by
    intro hempty
    rw [hempty] at h
    cases h
  obtain ⟨before, hjoin, rfl | hslash⟩ := join_eq hbase hpath
  · rw [hjoin, String.append_assoc]
    exact isAbsolute_append h _
  · rw [hjoin, ← hslash]
    exact isAbsolute_append h _

/-- A name that stands for a part of a path. -/
def IsName (name : String) : Prop :=
  '/' ∉ name.toList ∧ name ≠ "" ∧ name ≠ "." ∧ name ≠ ".."

theorem component?_name (h : IsName name) : component? name = some (.normal name) := by
  simp [component?, h.2.1, h.2.2.1, h.2.2.2]

theorem fileName?_slash (base : String) {name : String} (h : IsName name) :
    fileName? (base ++ "/" ++ name) = some name := by
  simp [fileName?, components, segments_slash base h.1, component?_name h]

/-- A directory's own name does not end with a slash. -/
theorem join_slash (before : String) {dir name : String} (hdir : IsName dir)
    (hname : '/' ∉ name.toList) :
    join (before ++ "/" ++ dir) name = before ++ "/" ++ dir ++ "/" ++ name := by
  have hbase : before ++ "/" ++ dir ≠ "" := by
    simp
  obtain ⟨base, hjoin, rfl | hslash⟩ := join_eq hbase (not_isAbsolute hname)
  · exact hjoin
  · have hlast := congrArg (fun text : String => text.toList.getLast?) hslash
    have hnonempty : dir.toList ≠ [] := fun hnil => hdir.2.1 (String.toList_eq_nil_iff.mp hnil)
    obtain ⟨last, hdirLast⟩ := Option.isSome_iff_exists.mp (getLast?_isSome.mpr hnonempty)
    have hmem := mem_of_getLast? hdirLast
    have hend : ('/' :: dir.toList).getLast? = some '/' := by
      simpa [getLast?_append] using hlast
    rw [getLast?_cons, hdirLast] at hend
    obtain rfl : last = '/' := Option.some.inj hend
    exact absurd hmem hdir.1

theorem trimBack_name (h : IsName name) (before : List String) :
    trimBack (name :: before) = name :: before := by
  simp [trimBack, h.2.1, h.2.2.1]

/-- The parent of a file in a directory is the directory. -/
theorem parent?_slash (base : String) {dir name : String} (hdir : IsName dir) (hname : IsName name) :
    parent? (base ++ "/" ++ dir ++ "/" ++ name) = some (base ++ "/" ++ dir) := by
  have hsegments : (segments (base ++ "/" ++ dir ++ "/" ++ name)).reverse =
      name :: dir :: (segments base).reverse := by
    rw [segments_slash _ hname.1, segments_slash base hdir.1]
    simp
  unfold parent?
  rw [hsegments, trimBack_name hname]
  have hdirText : "/".intercalate (dir :: (segments base).reverse).reverse = base ++ "/" ++ dir := by
    have hreverse : (dir :: (segments base).reverse).reverse = segments (base ++ "/" ++ dir) := by
      rw [segments_slash base hdir.1]
      simp
    rw [hreverse, intercalate_segments]
  simp only [render, trimBack_name hdir, hdirText]

theorem fileStem?_of_fileName? {stem extension : String}
    (h : fileName? path = some (stem ++ "." ++ extension)) (hstem : stem ≠ "")
    (hextension : '.' ∉ extension.toList) : fileStem? path = some stem := by
  have hsplit : ((stem ++ "." ++ extension).toList.splitOn '.').dropLast =
      stem.toList.splitOn '.' := by
    have htext : (stem ++ "." ++ extension).toList = stem.toList ++ '.' :: extension.toList := by
      simp
    rw [htext, splitOn_append_cons_self, splitOn_eq_singleton hextension, dropLast_concat]
  have hback : ['.'].intercalate (stem.toList.splitOn '.') = stem.toList :=
    intercalate_splitOn '.'
  unfold fileStem?
  rw [h, Option.map_some, hsplit]
  split
  · next hnone => exact absurd hnone (splitOn_ne_nil '.' stem.toList)
  · next hempty =>
      rw [hempty] at hback
      have hnil : stem.toList = [] := hback.symm
      exact absurd (String.toList_eq_nil_iff.mp hnil) hstem
  · rw [hback, String.ofList_toList]

def splitDrive (path : String) : Option Char × List Char :=
  match path.toList with
  | letter :: ':' :: rest => if letter.isAlpha then (some letter, rest) else (none, path.toList)
  | text => (none, text)

structure RawPath where
  drive : Option Char
  isAbsolute : Bool
  segments : List String

def parsePathCustom (path : String) : RawPath :=
  let (drive, text) := splitDrive path
  { drive := drive
    isAbsolute := text.head? = some '/' || text.head? = some '\x5c'
    segments := ((text.splitOnP fun c => c = '/' || c = '\x5c').map String.ofList).filter (· ≠ "") }

def escapesRoot (raw : String) : String := "Path escapes repository root jail: " ++ raw

/-- `process_segment`, on the parts so far in reverse order. -/
def processSegment (raw : String) (current : List String) (segment : String) :
    Except String (List String) :=
  if segment = "." then .ok current
  else if segment = ".." then
    match current with
    | [] => .error (escapesRoot raw)
    | _ :: before => .ok before
  else .ok (segment :: current)

def canonicalizeRepoPath (raw root : String) : Except String String := do
  refuseIf (isBlank raw = true) "Path is empty"
  let path := parsePathCustom raw
  let base := parsePathCustom root
  if path.isAbsolute || path.drive.isSome then
    refuseIf (path.drive.map Char.toLower ≠ base.drive.map Char.toLower) (escapesRoot raw)
    refuseIf (¬base.segments <+: path.segments) (escapesRoot raw)
    let kept ← (path.segments.drop base.segments.length).foldlM (processSegment raw) []
    return "/".intercalate kept.reverse
  else
    let kept ← path.segments.foldlM (processSegment raw) []
    return "/".intercalate kept.reverse

theorem not_blank_of_canonical {raw root : String} (h : canonicalizeRepoPath raw root = .ok path) :
    isBlank raw = false := by
  rw [canonicalizeRepoPath, Checked.bind_eq_ok] at h
  obtain ⟨_, hrefuse, _⟩ := h
  simpa using Checked.refuseIf_eq_ok.mp hrefuse

end Paths
