import FlowDeck.Verification.Paths

/-! Paths of a request that are to stay under the root. -/

namespace ContainedPaths

open Paths Checked List

/-- What the calls on the file system answer; `debug` is the text of `{:?}`. -/
structure FileSystem where
  exists? : String → Bool
  canonicalize : String → Except String String
  debug : String → String

def normalized (userPath : String) : String :=
  String.ofList (userPath.toList.map fun c => if c = '\x5c' then '/' else c)

/-- The text taken as a path: backslashes are read as slashes unless it is absolute. -/
def readAs (userPath : String) : String :=
  if isAbsolute userPath then userPath else normalized userPath

def candidateOf (canonicalRoot userPath : String) : String :=
  if isAbsolute userPath then userPath else join canonicalRoot (normalized userPath)

/-- The lexical check of a path whose target does not exist. -/
def staysInside (absolute : Bool) : Int → List Component → Bool
  | _, [] => true
  | depth, .parentDir :: rest =>
    !(decide (depth - 1 < 0) && !absolute) && staysInside absolute (depth - 1) rest
  | depth, .normal _ :: rest => staysInside absolute (depth + 1) rest
  | depth, _ :: rest => staysInside absolute depth rest

def closestExisting (w : FileSystem) : Nat → String → Option String
  | 0, _ => none
  | fuel + 1, path =>
    if w.exists? path then some path
    else (parent? path).bind (closestExisting w fuel)

def resolveContainedPath (w : FileSystem) (canonicalRoot userPath : String) (mustExist : Bool) :
    Except String String := do
  refuseIf (userPath = "") "path cannot be empty"
  refuseIf ('\x00' ∈ userPath.toList) "path contains NUL byte"
  refuseIf ("\\\\".toList <+: userPath.toList ∨ "//".toList <+: userPath.toList)
    ("UNC paths are not permitted: " ++ userPath)
  let candidate := candidateOf canonicalRoot userPath
  if w.exists? candidate then
    let canonical ← (w.canonicalize candidate).mapError fun e => "failed to canonicalize path: " ++ e
    refuseIf (startsWith canonical canonicalRoot = false)
      ("security error: path " ++ w.debug userPath ++ " escapes repository root " ++
        w.debug canonicalRoot)
    return canonical
  else
    refuseIf (mustExist = true) ("file not found: " ++ w.debug userPath)
    refuseIf (staysInside (isAbsolute userPath) 0 (components userPath) = false)
      ("security error: path " ++ w.debug userPath ++ " escapes repository root")
    refuseIf (ancestorEscapes candidate = true) "security error: ancestor path escapes repository root"
    refuseIf (isAbsolute candidate = true ∧ startsWith candidate canonicalRoot = false)
      ("security error: absolute path " ++ w.debug userPath ++ " escapes repository root " ++
        w.debug canonicalRoot)
    return candidate
where
  ancestorEscapes (candidate : String) : Bool :=
    match closestExisting w (candidate.length + 1) candidate with
    | none => false
    | some ancestor =>
      match w.canonicalize ancestor with
      | .ok canonical => !startsWith canonical canonicalRoot
      | .error _ => false

/-! ### Where a path leads -/

def climb (above : List String) : Component → List String
  | .rootDir => []
  | .curDir => above
  | .parentDir => above.tail
  | .normal name => name :: above

/-- The names of a path once its dots are resolved, the last one first. -/
def lexical (path : String) : List String := (components path).foldl climb []

/-- A path leads to the root or to a place below it. -/
def Contained (canonicalRoot path : String) : Prop := lexical canonicalRoot <:+ lexical path

def belowRoot (canonicalRoot userPath : String) : List Component :=
  let text := readAs userPath
  if isAbsolute text then (components text).drop (components canonicalRoot).length
  else components text

/-- From the root, the components lead to the root or to a place below it. -/
def LeadsInside (canonicalRoot userPath : String) : Prop :=
  lexical canonicalRoot <:+ (belowRoot canonicalRoot userPath).foldl climb (lexical canonicalRoot)

/-- The form `canonicalize` gives: absolute, and without dots. -/
def Canonical (path : String) : Prop :=
  ∃ names : List String, components path = .rootDir :: names.map .normal

theorem foldl_climb_names (names above : List String) :
    (names.map Component.normal).foldl climb above = names.reverse ++ above := by
  induction names generalizing above with
  | nil => rfl
  | cons name names ih =>
    have hrest := ih (name :: above)
    simpa [climb] using hrest

variable {path root user : String}

theorem rootDir_not_mem (h : isAbsolute path = false) : Component.rootDir ∉ components path := by
  have hsegment : ∀ segment, component? segment ≠ some .rootDir := by
    intro segment hsome
    unfold component? at hsome
    split_ifs at hsome
    · cases hsome
    · cases hsome
  intro hmem
  rw [components, h, mem_append] at hmem
  rcases hmem with hlead | hrest
  · simp at hlead
  · obtain ⟨segment, -, hsome⟩ := mem_filterMap.mp hrest
    exact hsegment segment hsome

theorem isAbsolute_of_canonical (h : Canonical path) : isAbsolute path = true := by
  obtain ⟨names, hnames⟩ := h
  by_contra hrelative
  apply rootDir_not_mem (by simpa using hrelative)
  rw [hnames]
  exact mem_cons_self

theorem components_join (hroot : isAbsolute root = true) (hpath : isAbsolute path = false) :
    components (join root path) = components root ++ (segments path).filterMap component? := by
  have hne : root ≠ "" := by
    rintro rfl
    cases hroot
  have habsolute := isAbsolute_join hroot hpath
  obtain ⟨before, hjoin, heq | heq⟩ := join_eq hne hpath
  · rw [components, habsolute, components, hroot, hjoin, segments_append, ← heq,
      filterMap_append, append_assoc]
    rfl
  · have hsegments : (segments root).filterMap component? = (segments before).filterMap component? := by
      have hempty : root = before ++ "/" ++ "" := by rw [heq, String.append_empty]
      rw [hempty, segments_append, filterMap_append]
      exact append_nil _
    rw [components, habsolute, components, hroot, hjoin, segments_append, filterMap_append,
      hsegments, append_assoc]
    rfl

theorem foldl_components (h : isAbsolute path = false) (above : List String) :
    (components path).foldl climb above =
      ((segments path).filterMap component?).foldl climb above := by
  by_cases hdot : (segments path).head? = some "."
  · simp [components, h, hdot, climb]
  · simp [components, h, hdot]

/-- Where the check counts, the components lead no higher than it allows. -/
theorem suffix_of_staysInside {path : List Component} {depth : Int} {above root : List String}
    (h : staysInside false depth path = true) (hdepth : (above.length : Int) = depth)
    (hrelative : .rootDir ∉ path) : root <:+ path.foldl climb (above ++ root) := by
  induction path generalizing depth above with
  | nil => exact suffix_append above root
  | cons component rest ih =>
    have hrest : .rootDir ∉ rest := fun hmem => hrelative (mem_cons_of_mem _ hmem)
    cases component with
    | rootDir => exact absurd mem_cons_self hrelative
    | curDir => exact ih h hdepth hrest
    | parentDir =>
      simp only [staysInside, Bool.not_false, Bool.and_true, Bool.and_eq_true, Bool.not_eq_true',
        decide_eq_false_iff_not, not_lt] at h
      cases above with
      | nil =>
        simp at hdepth
        omega
      | cons name above =>
        apply ih h.2 _ hrest
        simp at hdepth
        omega
    | normal name =>
      have hdeeper : ((name :: above).length : Int) = depth + 1 := by simp [hdepth]
      exact ih h hdeeper hrest

theorem lexical_of_startsWith (h : startsWith path root = true) :
    lexical path = ((components path).drop (components root).length).foldl climb (lexical root) := by
  obtain ⟨rest, hrest⟩ := isPrefixOf_iff_prefix.mp h
  rw [lexical, ← hrest, foldl_append, drop_left]
  rfl

theorem contained_of_canonical (hroot : Canonical root) (hpath : Canonical path)
    (h : startsWith path root = true) : Contained root path := by
  obtain ⟨above, habove⟩ := hroot
  obtain ⟨names, hnames⟩ := hpath
  have hdrop : (components path).drop (components root).length =
      (names.drop above.length).map .normal := by
    rw [hnames, habove, length_cons, drop_succ_cons, length_map, map_drop]
  rw [Contained, lexical_of_startsWith h, hdrop, foldl_climb_names]
  exact suffix_append _ _

theorem resolveContainedPath_ok {w : FileSystem} {must : Bool}
    (h : resolveContainedPath w root user must = .ok path) :
    if w.exists? (candidateOf root user) then
      w.canonicalize (candidateOf root user) = .ok path ∧ startsWith path root = true
    else path = candidateOf root user ∧ staysInside (isAbsolute user) 0 (components user) = true ∧
      (isAbsolute path = true → startsWith path root = true) := by
  simp only [resolveContainedPath, bind_eq_ok, refuseIf_eq_ok] at h
  obtain ⟨-, -, -, -, -, -, h⟩ := h
  split_ifs at h ⊢ with hexists
  · simp only [bind_eq_ok, refuseIf_eq_ok] at h
    obtain ⟨canonical, hcanonical, -, hinside, heq⟩ := h
    obtain rfl := Except.ok.inj heq
    refine ⟨?_, by simpa using hinside⟩
    cases hcall : w.canonicalize (candidateOf root user) with
    | error e =>
      rw [hcall] at hcanonical
      cases hcanonical
    | ok c =>
      rw [hcall] at hcanonical
      exact hcanonical
  · simp only [bind_eq_ok, refuseIf_eq_ok] at h
    obtain ⟨-, -, -, hstays, -, -, -, hinside, heq⟩ := h
    obtain rfl := Except.ok.inj heq
    refine ⟨rfl, by simpa using hstays, ?_⟩
    intro habsolute
    rw [not_and] at hinside
    simpa using hinside habsolute

theorem normalized_eq_self (h : '\x5c' ∉ user.toList) : normalized user = user := by
  have hsame : user.toList.map (fun c => if c = '\x5c' then '/' else c) = user.toList.map id := by
    apply map_congr_left
    intro c hc
    have hne : c ≠ '\x5c' := fun heq => h (heq ▸ hc)
    rw [if_neg hne]
    rfl
  rw [normalized, hsame, map_id, String.ofList_toList]

/-- The components after the root lead where the path leads. -/
theorem lexical_candidateOf (hroot : isAbsolute root = true)
    (hinside : startsWith (candidateOf root user) root = true) :
    lexical (candidateOf root user) = (belowRoot root user).foldl climb (lexical root) := by
  by_cases habsolute : isAbsolute (readAs user) = true
  · have hcandidate : candidateOf root user = readAs user := by
      unfold candidateOf readAs at *
      split_ifs at habsolute ⊢
      · rfl
      · rw [join, if_pos habsolute]
    rw [lexical_of_startsWith hinside, hcandidate, belowRoot, if_pos habsolute]
  · have hrelative : isAbsolute (readAs user) = false := by simpa using habsolute
    have hcandidate : candidateOf root user = join root (readAs user) := by
      unfold candidateOf readAs at *
      split_ifs at hrelative ⊢ with huser
      · rw [huser] at hrelative
        cases hrelative
      · rfl
    rw [hcandidate, lexical, components_join hroot hrelative, foldl_append, belowRoot,
      if_neg habsolute, foldl_components hrelative]
    rfl

/-- A returned path leads to the root or below it exactly when its target exists, or it is relative
and without backslashes, or its components lead inside from the root. -/
theorem containment_iff {w : FileSystem} {root user path : String} {must : Bool}
    (hcanonical : ∀ p c, w.canonicalize p = .ok c → Canonical c) (hroot : Canonical root)
    (h : resolveContainedPath w root user must = .ok path) :
    Contained root path ↔ w.exists? (candidateOf root user) = true ∨
      (isAbsolute user = false ∧ '\x5c' ∉ user.toList) ∨ LeadsInside root user := by
  have hparts := resolveContainedPath_ok h
  have habsolute := isAbsolute_of_canonical hroot
  by_cases hexists : w.exists? (candidateOf root user) = true
  · rw [if_pos hexists] at hparts
    have hcontained := contained_of_canonical hroot (hcanonical _ _ hparts.1) hparts.2
    exact iff_of_true hcontained (Or.inl hexists)
  · rw [if_neg hexists] at hparts
    obtain ⟨rfl, hstays, hinside⟩ := hparts
    have hcandidate : isAbsolute (candidateOf root user) = true := by
      unfold candidateOf
      split_ifs with huser
      · exact huser
      · by_cases hread : isAbsolute (normalized user) = true
        · rw [join, if_pos hread]
          exact hread
        · exact isAbsolute_join habsolute (by simpa using hread)
    have hlexical := lexical_candidateOf habsolute (hinside hcandidate)
    have hleads : Contained root (candidateOf root user) ↔ LeadsInside root user := by
      rw [Contained, LeadsInside, hlexical]
    rw [hleads]
    constructor
    · exact fun hl => Or.inr (Or.inr hl)
    · rintro (hbad | ⟨hrelative, hslash⟩ | hl)
      · exact absurd hbad hexists
      · have hread : readAs user = user := by
          rw [readAs, if_neg (by simp [hrelative]), normalized_eq_self hslash]
        rw [hrelative] at hstays
        rw [LeadsInside, belowRoot, hread, if_neg (by simp [hrelative])]
        have hnone : ((([] : List String).length : Nat) : Int) = 0 := rfl
        exact suffix_of_staysInside hstays hnone (rootDir_not_mem hrelative)
      · exact hl

/-! ### Parent segments between backslashes -/

def emptyRoot : FileSystem where
  exists? path := path = "/" || path = "/repo"
  canonicalize path := if path = "/repo" then .ok path else .error "not found"
  debug path := "\"" ++ path ++ "\""

theorem canonical_emptyRoot (p c : String) (h : emptyRoot.canonicalize p = .ok c) : Canonical c := by
  simp only [emptyRoot] at h
  split_ifs at h with hp
  obtain rfl := Except.ok.inj h
  rw [hp]
  exact ⟨["repo"], by rfl⟩

/-- The check takes the text for one name; the path that is returned has six. -/
theorem backslashes_escape :
    resolveContainedPath emptyRoot "/repo" "a\\..\\..\\etc\\x" false =
      .ok "/repo/a/../../etc/x" ∧ ¬ Contained "/repo" "/repo/a/../../etc/x" := by
  refine ⟨by rfl, ?_⟩
  have hroot : lexical "/repo" = ["repo"] := by rfl
  have hpath : lexical "/repo/a/../../etc/x" = ["x", "etc"] := by rfl
  rw [Contained, hroot, hpath]
  decide

theorem contained_new_file : Contained "/repo" "/repo/src/../lib/x" :=
  (containment_iff canonical_emptyRoot ⟨["repo"], by rfl⟩
    (show resolveContainedPath emptyRoot "/repo" "src/../lib/x" false = .ok "/repo/src/../lib/x" from
      by rfl)).mpr (Or.inr (Or.inl ⟨by rfl, by decide⟩))

end ContainedPaths
