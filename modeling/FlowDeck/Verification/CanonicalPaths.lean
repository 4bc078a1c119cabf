import Mathlib.Data.List.Flatten
import FlowDeck.Library.TextLines
import FlowDeck.Verification.Paths

/-! What a path of the repository is in the form `canonicalize_repo_path` gives it. -/

namespace CanonicalPaths

open Paths PolicyStore Checked TextLines List

/-! ### The place a path names -/

/-- A dot segment stays where it is, two dots go up, and the top has no directory above it. -/
def enter (current : List String) (segment : String) : List String :=
  if segment = "." then current
  else if segment = ".." then current.tail
  else segment :: current

/-- The names that remain of segments, the last one first. -/
def resolve (segments : List String) : List String := segments.foldl enter []

structure Location where
  drive : Option Char
  names : List String
  deriving DecidableEq

/-- The place a path names, read from the root directory where the path is relative. -/
def location (root raw : String) : Location :=
  let path := parsePathCustom raw
  let base := parsePathCustom root
  if path.isAbsolute || path.drive.isSome then
    ⟨path.drive.map Char.toLower, (resolve path.segments).reverse⟩
  else ⟨base.drive.map Char.toLower, (resolve (base.segments ++ path.segments)).reverse⟩

/-- The names that lead from the root to the place. -/
def below (root raw : String) : List String :=
  (location root raw).names.drop (resolve (parsePathCustom root).segments).length

/-- A segment without separators. -/
def IsSegment (name : String) : Prop := name ≠ "" ∧ ∀ c ∈ name.toList, c ≠ '/' ∧ c ≠ '\x5c'

def IsPlain (name : String) : Prop := IsSegment name ∧ name ≠ "." ∧ name ≠ ".."

def notSeparator (c : Char) : Bool := !(c = '/' || c = '\x5c')

theorem notSeparator_iff {c : Char} : notSeparator c = true ↔ c ≠ '/' ∧ c ≠ '\x5c' := by
  simp [notSeparator]

theorem segments_eq (raw : String) : (parsePathCustom raw).segments =
    (words notSeparator (splitDrive raw).2).map String.ofList := by
  have hsep : (fun c => !notSeparator c) = fun c => decide (c = '/') || decide (c = '\x5c') := by
    funext c
    simp [notSeparator]
  have hempty : (fun s : String => decide (s ≠ "")) ∘ String.ofList = fun w => !w.isEmpty := by
    funext w
    cases w with
    | nil => rfl
    | cons c w => simp
  simp only [parsePathCustom, words]
  rw [filter_map, hempty, hsep]

variable {raw root first : String} {names rest : List String}

theorem isSegment_of_mem {name : String} (h : name ∈ (parsePathCustom raw).segments) :
    IsSegment name := by
  rw [segments_eq] at h
  obtain ⟨w, hw, rfl⟩ := mem_map.mp h
  obtain ⟨hne, hall⟩ := areWords_words _ w hw
  refine ⟨by simpa using hne, ?_⟩
  intro c hc
  exact notSeparator_iff.mp (hall c (by simpa using hc))

theorem enter_plain {name : String} (h : IsPlain name) (current : List String) :
    enter current name = name :: current := by
  simp [enter, h.2.1, h.2.2]

/-! ### The names that are kept -/

/-- `process_segment` enters a segment, and never leaves the names there were before. -/
theorem foldlM_processSegment {segments current kept : List String}
    (h : segments.foldlM (processSegment raw) current = .ok kept) (bottom : List String) :
    segments.foldl enter (current ++ bottom) = kept ++ bottom ∧
      ∀ name ∈ kept, name ∈ current ∨ name ∈ segments ∧ name ≠ "." ∧ name ≠ ".." := by
  induction segments generalizing current with
  | nil =>
    obtain rfl := Except.ok.inj h
    exact ⟨rfl, fun name hname => Or.inl hname⟩
  | cons segment segments ih =>
    rw [foldlM_cons, bind_eq_ok] at h
    obtain ⟨next, hnext, hrest⟩ := h
    obtain ⟨hfold, hmem⟩ := ih hrest
    have hstep : enter (current ++ bottom) segment = next ++ bottom ∧
        ∀ name ∈ next, name ∈ current ∨ name = segment ∧ name ≠ "." ∧ name ≠ ".." := by
      unfold processSegment at hnext
      unfold enter
      split_ifs at hnext ⊢ with hdot hparent
      · obtain rfl := Except.ok.inj hnext
        exact ⟨rfl, fun name hname => Or.inl hname⟩
      · cases current with
        | nil => cases hnext
        | cons last before =>
          obtain rfl := Except.ok.inj hnext
          exact ⟨rfl, fun name hname => Or.inl (mem_cons_of_mem _ hname)⟩
      · obtain rfl := Except.ok.inj hnext
        refine ⟨rfl, ?_⟩
        intro name hname
        rcases mem_cons.mp hname with rfl | hname
        · exact Or.inr ⟨rfl, hdot, hparent⟩
        · exact Or.inl hname
    rw [foldl_cons, hstep.1]
    refine ⟨hfold, ?_⟩
    intro name hname
    rcases hmem name hname with hnext | hsegment
    · rcases hstep.2 name hnext with hcurrent | ⟨rfl, hplain⟩
      · exact Or.inl hcurrent
      · exact Or.inr ⟨mem_cons_self, hplain⟩
    · exact Or.inr ⟨mem_cons_of_mem _ hsegment.1, hsegment.2⟩

theorem foldlM_plain (raw : String) {names : List String} (h : ∀ name ∈ names, IsPlain name)
    (current : List String) :
    names.foldlM (processSegment raw) current = .ok (names.reverse ++ current) := by
  induction names generalizing current with
  | nil => rfl
  | cons name names ih =>
    have hname := h name mem_cons_self
    have hstep : processSegment raw current name = .ok (name :: current) := by
      simp [processSegment, hname.2.1, hname.2.2]
    have hrest := ih (fun other hother => h other (mem_cons_of_mem _ hother)) (name :: current)
    rw [foldlM_cons, hstep, reverse_cons, append_assoc]
    exact hrest

theorem canonicalizeRepoPath_parts {c : String} (h : canonicalizeRepoPath raw root = .ok c) :
    c = "/".intercalate (below root raw) ∧ (∀ name ∈ below root raw, IsPlain name) ∧
      (location root raw).names = (resolve (parsePathCustom root).segments).reverse ++ below root raw := by
  have hkept : ∃ segments kept, (location root raw).names =
      (resolve ((parsePathCustom root).segments ++ segments)).reverse ∧
        segments.foldlM (processSegment raw) [] = .ok kept ∧ c = "/".intercalate kept.reverse ∧
          ∀ name ∈ segments, IsSegment name := by
    rw [canonicalizeRepoPath, bind_eq_ok] at h
    obtain ⟨-, -, h⟩ := h
    dsimp only at h
    simp only [location]
    split at h
    · next habs =>
        rw [bind_eq_ok] at h
        obtain ⟨-, -, h⟩ := h
        rw [bind_eq_ok] at h
        obtain ⟨_, hprefix, h⟩ := h
        rw [bind_eq_ok] at h
        obtain ⟨kept, hfold, htext⟩ := h
        obtain ⟨segments, hsegments⟩ := not_not.mp (refuseIf_eq_ok.mp hprefix)
        rw [← hsegments, drop_left] at hfold
        refine ⟨segments, kept, ?_, hfold, (Except.ok.inj htext).symm, ?_⟩
        · rw [if_pos habs, hsegments]
        · intro name hname
          apply isSegment_of_mem
          rw [← hsegments]
          exact mem_append_right _ hname
    · next habs =>
        rw [bind_eq_ok] at h
        obtain ⟨kept, hfold, htext⟩ := h
        refine ⟨(parsePathCustom raw).segments, kept, ?_, hfold, (Except.ok.inj htext).symm, ?_⟩
        · rw [if_neg habs]
        · exact fun name hname => isSegment_of_mem hname
  obtain ⟨segments, kept, hnames, hfold, htext, hsegments⟩ := hkept
  obtain ⟨hresolved, hmem⟩ := foldlM_processSegment hfold (resolve (parsePathCustom root).segments)
  have hlocation : (location root raw).names =
      (resolve (parsePathCustom root).segments).reverse ++ kept.reverse := by
    rw [hnames, resolve, foldl_append, ← resolve, ← reverse_append, ← hresolved, nil_append]
  have hbelow : below root raw = kept.reverse := by
    rw [below, hlocation, ← length_reverse, drop_left]
  rw [hbelow]
  refine ⟨htext, ?_, hlocation⟩
  intro name hname
  rcases hmem name (mem_reverse.mp hname) with hnone | ⟨hsegment, hplain⟩
  · exact absurd hnone not_mem_nil
  · exact ⟨hsegments name hsegment, hplain⟩

/-! ### A canonical path as a path -/

theorem toList_join (names : List String) :
    ("/".intercalate names).toList = join '/' (names.map String.toList) := by
  rw [String.toList_intercalate, join_eq_intercalate]
  rfl

theorem areWords_names (h : ∀ name ∈ names, IsPlain name) :
    AreWords notSeparator (names.map String.toList) := by
  intro w hw
  obtain ⟨name, hname, rfl⟩ := mem_map.mp hw
  obtain ⟨hne, hall⟩ := (h name hname).1
  exact ⟨by simpa using hne, fun c hc => notSeparator_iff.mpr (hall c hc)⟩

theorem segments_of_words
    (h : words notSeparator (splitDrive raw).2 = names.map String.toList) :
    (parsePathCustom raw).segments = names := by
  have hid : String.ofList ∘ String.toList = id := by
    funext s
    simp
  rw [segments_eq, h, map_map, hid, map_id]

theorem splitDrive_none (h : (splitDrive raw).1 = none) : (splitDrive raw).2 = raw.toList := by
  unfold splitDrive at h ⊢
  split at h
  · split_ifs at h ⊢
    rfl
  · rfl

theorem parsePathCustom_join (h : ∀ name ∈ names, IsPlain name)
    (hdrive : (splitDrive ("/".intercalate names)).1 = none) :
    parsePathCustom ("/".intercalate names) = ⟨none, false, names⟩ := by
  have htext := splitDrive_none hdrive
  have hwords : words notSeparator (splitDrive ("/".intercalate names)).2 =
      names.map String.toList := by
    rw [htext, toList_join, words_join (by decide) (areWords_names h)]
  have hsegments := segments_of_words hwords
  have hhead : ∀ c ∈ (splitDrive ("/".intercalate names)).2.head?, c ≠ '/' ∧ c ≠ '\x5c' := by
    intro c hc
    rw [htext, toList_join] at hc
    exact notSeparator_iff.mp (head?_join (areWords_names h) c hc)
  have habsolute : (parsePathCustom ("/".intercalate names)).isAbsolute = false := by
    simp only [parsePathCustom, Bool.or_eq_false_iff, decide_eq_false_iff_not]
    exact ⟨fun hc => (hhead _ hc).1 rfl, fun hc => (hhead _ hc).2 rfl⟩
  calc parsePathCustom ("/".intercalate names) =
      ⟨(splitDrive ("/".intercalate names)).1, (parsePathCustom ("/".intercalate names)).isAbsolute,
        (parsePathCustom ("/".intercalate names)).segments⟩ := rfl
    _ = ⟨none, false, names⟩ := by rw [hdrive, habsolute, hsegments]

theorem splitDrive_none_iff {s : String} : (splitDrive s).1 = none ↔
    ∀ letter rest, s.toList = letter :: ':' :: rest → letter.isAlpha = false := by
  unfold splitDrive
  split
  · next letter rest heq =>
      rw [heq]
      split_ifs with halpha
      · simp [halpha]
      · simpa using halpha
  · next hother =>
      simp only [true_iff]
      intro letter rest heq
      exact absurd heq (hother letter rest)

/-- Joined names read as a path on a drive exactly when the first name does. -/
theorem splitDrive_join (first : String) (rest : List String) :
    (splitDrive ("/".intercalate (first :: rest))).1 = none ↔ (splitDrive first).1 = none := by
  have htext := toList_join (first :: rest)
  rw [map_cons, join_cons_following] at htext
  have hrest : ∀ c ∈ (following '/' (rest.map String.toList)).head?, c = '/' := by
    cases rest with
    | nil => simp [following]
    | cons second rest => simp [following]
  rw [splitDrive_none_iff, splitDrive_none_iff, htext]
  constructor
  · intro h letter tail heq
    apply h letter (tail ++ following '/' (rest.map String.toList))
    rw [heq, cons_append, cons_append]
  · intro h letter tail heq
    rcases hfirst : first.toList with _ | ⟨a, _ | ⟨b, after⟩⟩
    · rw [hfirst, nil_append] at heq
      have hletter := hrest letter (by rw [heq]; rfl)
      rw [hletter]
      decide
    · rw [hfirst, singleton_append, cons.injEq] at heq
      have hcolon := hrest ':' (by rw [heq.2]; rfl)
      exact absurd hcolon (by decide)
    · rw [hfirst, cons_append, cons_append, cons.injEq, cons.injEq] at heq
      obtain ⟨rfl, rfl, -⟩ := heq
      exact h a after hfirst

def ReadAsNames : List String → Prop
  | [] => True
  | first :: rest => (splitDrive first).1 = none ∧ (rest = [] → isBlank first = false)

structure CanonicalLaws (raw root c : String) : Prop where
  segments : ∀ name ∈ Paths.segments c, name ≠ "" ∧ name ≠ "." ∧ name ≠ ".."
  noBackslash : '\x5c' ∉ c.toList
  stable : canonicalizeRepoPath c root = .ok c
  unique : ∀ other c', canonicalizeRepoPath other root = .ok c' →
    location root other = location root raw → c' = c

theorem segments_join (hne : names ≠ []) (h : ∀ name ∈ names, IsPlain name) :
    Paths.segments ("/".intercalate names) = names := by
  have hslash : ∀ w ∈ names.map String.toList, '/' ∉ w := by
    intro w hw hmem
    exact (notSeparator_iff.mp ((areWords_names h w hw).2 _ hmem)).1 rfl
  rw [Paths.segments, toList_join, splitOn_join (by simpa using hne) hslash, map_map]
  have hid : String.ofList ∘ String.toList = id := by
    funext s
    simp
  rw [hid, map_id]

theorem isBlank_join :
    isBlank ("/".intercalate (first :: rest)) = true ↔ rest = [] ∧ isBlank first = true := by
  cases rest with
  | nil => simp
  | cons second rest =>
    have htext : ("/".intercalate (first :: second :: rest)).toList =
        first.toList ++ '/' :: ("/".intercalate (second :: rest)).toList := by
      rw [toList_join, toList_join]
      rfl
    have hslash : PolicyStore.isWhitespace '/' = false := by decide
    rw [isBlank, htext]
    simp [hslash]

theorem canonicalizeRepoPath_names (h : ∀ name ∈ first :: rest, IsPlain name)
    (hread : ReadAsNames (first :: rest)) :
    canonicalizeRepoPath ("/".intercalate (first :: rest)) root =
      .ok ("/".intercalate (first :: rest)) := by
  have hblank : isBlank ("/".intercalate (first :: rest)) = false := by
    by_contra hb
    obtain ⟨hrest, hfirst⟩ := isBlank_join.mp (by simpa using hb)
    rw [hread.2 hrest] at hfirst
    exact absurd hfirst (by decide)
  have hparse := parsePathCustom_join h ((splitDrive_join first rest).mpr hread.1)
  have hfold := foldlM_plain ("/".intercalate (first :: rest)) h []
  rw [canonicalizeRepoPath, bind_eq_ok]
  refine ⟨(), refuseIf_eq_ok.mpr (by simp [hblank]), ?_⟩
  rw [hparse]
  refine bind_eq_ok.mpr ⟨_, hfold, ?_⟩
  rw [append_nil, reverse_reverse]
  rfl

def size (names : List String) : Nat := (names.flatMap String.toList).length

theorem size_le_of_sublist {others : List String} (h : names.Sublist others) :
    size names ≤ size others :=
  (h.flatMap _).length_le

theorem resolve_sublist (segments current : List String) :
    (segments.foldl enter current).Sublist (segments.reverse ++ current) := by
  induction segments generalizing current with
  | nil => exact Sublist.refl _
  | cons segment segments ih =>
    have hstep : (enter current segment).Sublist (segment :: current) := by
      unfold enter
      split_ifs
      · exact sublist_cons_self _ _
      · exact (tail_sublist current).trans (sublist_cons_self _ _)
      · exact Sublist.refl _
    rw [foldl_cons, reverse_cons, append_assoc]
    exact (ih _).trans ((Sublist.refl _).append hstep)

/-- A text that reads as a path on a drive has more characters than the segments it is read as. -/
theorem size_segments_lt (h : ∀ name ∈ first :: rest, IsPlain name)
    (hdrive : (splitDrive first).1 ≠ none) :
    size (parsePathCustom ("/".intercalate (first :: rest))).segments < size (first :: rest) := by
  obtain ⟨letter, tail, hfirst, halpha⟩ : ∃ letter tail, first.toList = letter :: ':' :: tail ∧
      letter.isAlpha = true := by
    by_contra hnone
    apply hdrive
    rw [splitDrive_none_iff]
    intro letter tail heq
    by_contra halpha
    exact hnone ⟨letter, tail, heq, by simpa using halpha⟩
  have hwords := areWords_names h
  rw [map_cons, hfirst] at hwords
  have htext : (splitDrive ("/".intercalate (first :: rest))).2 =
      tail ++ following '/' (rest.map String.toList) := by
    have hlist := toList_join (first :: rest)
    rw [map_cons, join_cons_following, hfirst] at hlist
    simp [splitDrive, hlist, halpha]
  have hsize : size (first :: rest) = tail.length + 2 + size rest := by
    simp [size, hfirst]
    omega
  by_cases htail : tail = []
  · have hrest : words notSeparator (splitDrive ("/".intercalate (first :: rest))).2 =
        rest.map String.toList := by
      rw [htext, htail, nil_append]
      cases rest with
      | nil => exact words_nil
      | cons second rest =>
        exact (words_cons (by decide) _).trans (words_join (by decide) hwords.tail)
    rw [segments_of_words hrest]
    omega
  · have hrest : words notSeparator (splitDrive ("/".intercalate (first :: rest))).2 =
        (String.ofList tail :: rest).map String.toList := by
      rw [htext, ← join_cons_following, map_cons, String.toList_ofList]
      apply words_join (by decide)
      intro w hw
      rcases mem_cons.mp hw with rfl | hw
      · refine ⟨htail, ?_⟩
        intro c hc
        apply (hwords _ mem_cons_self).2
        exact mem_cons_of_mem _ (mem_cons_of_mem _ hc)
      · exact hwords.tail w hw
    rw [segments_of_words hrest]
    have hmoved : size (String.ofList tail :: rest) = tail.length + size rest := by
      simp [size]
    omega

theorem not_stable_of_drive (h : ∀ name ∈ first :: rest, IsPlain name)
    (hdrive : (splitDrive first).1 ≠ none) :
    canonicalizeRepoPath ("/".intercalate (first :: rest)) root ≠
      .ok ("/".intercalate (first :: rest)) := by
  intro hstable
  obtain ⟨htext, hplain, -⟩ := canonicalizeRepoPath_parts hstable
  have hsmall := size_segments_lt h hdrive
  generalize hc : "/".intercalate (first :: rest) = c at *
  have hnames : below root c = first :: rest := by
    have hne : below root c ≠ [] := by
      intro hnil
      rw [hnil, ← hc] at htext
      have hlist := congrArg String.toList htext
      rw [toList_join] at hlist
      exact join_ne_nil (areWords_names h) (cons_ne_nil _ _) hlist
    rw [← segments_join hne hplain, ← htext, ← hc, segments_join (cons_ne_nil _ _) h]
  have habsolute : ((parsePathCustom c).isAbsolute || (parsePathCustom c).drive.isSome) = true := by
    have hsome : (splitDrive c).1 ≠ none := by
      rw [← hc]
      exact fun hnone => hdrive ((splitDrive_join first rest).mp hnone)
    have hdriven : (parsePathCustom c).drive.isSome = true := Option.isSome_iff_ne_none.mpr hsome
    rw [hdriven, Bool.or_true]
  have hfewer : (below root c).Sublist (parsePathCustom c).segments := by
    have hresolved := resolve_sublist (parsePathCustom c).segments []
    rw [append_nil] at hresolved
    have hback := hresolved.reverse
    rw [reverse_reverse] at hback
    unfold below location
    rw [if_pos habsolute]
    exact (drop_sublist _ _).trans hback
  rw [hnames] at hfewer
  have hle := size_le_of_sublist hfewer
  omega

/-- A canonical path keeps its laws exactly when the names below the root do not begin like a drive,
and are not one blank name. -/
theorem canonicalLaws_iff {raw root c : String} (h : canonicalizeRepoPath raw root = .ok c)
    (hne : c ≠ "") : CanonicalLaws raw root c ↔ ReadAsNames (below root raw) := by
  obtain ⟨rfl, hplain, hlocation⟩ := canonicalizeRepoPath_parts h
  generalize hbelow : below root raw = names at *
  cases names with
  | nil => exact absurd rfl hne
  | cons first rest =>
    constructor
    · intro hlaws
      have hstable := hlaws.stable
      constructor
      · by_contra hdrive
        exact not_stable_of_drive hplain hdrive hstable
      · intro hrest
        have hblank := not_blank_of_canonical hstable
        simpa [hrest] using hblank
    · intro hread
      refine ⟨?_, ?_, ?_, ?_⟩
      · intro name hname
        rw [segments_join (cons_ne_nil _ _) hplain] at hname
        exact ⟨(hplain name hname).1.1, (hplain name hname).2⟩
      · intro hmem
        rw [toList_join] at hmem
        rcases mem_of_mem_join hmem with hslash | ⟨w, hw, hc⟩
        · exact absurd hslash (by decide)
        · exact (notSeparator_iff.mp ((areWords_names hplain w hw).2 _ hc)).2 rfl
      · exact canonicalizeRepoPath_names hplain hread
      · intro other c' hother hsame
        obtain ⟨rfl, -, hnames⟩ := canonicalizeRepoPath_parts hother
        have hequal := (hnames.symm.trans (congrArg Location.names hsame)).trans hlocation
        rw [append_cancel_left hequal]

/-! ### A name like a drive -/

/-- The names below the root begin with one that reads as a drive. -/
theorem drive_name_refused : canonicalizeRepoPath "./C:/x" "/repo" = .ok "C:/x" ∧
    ¬ CanonicalLaws "./C:/x" "/repo" "C:/x" := by
  have hfirst : canonicalizeRepoPath "./C:/x" "/repo" = .ok "C:/x" := by rfl
  have hagain : canonicalizeRepoPath "C:/x" "/repo" = .error (escapesRoot "C:/x") := by rfl
  refine ⟨hfirst, ?_⟩
  intro hlaws
  have hstable := hlaws.stable
  rw [hagain] at hstable
  cases hstable

theorem canonicalLaws_of_parent_segment : CanonicalLaws "./src/../lib\\a" "/repo" "lib/a" := by
  have hbelow : below "/repo" "./src/../lib\\a" = ["lib", "a"] := by rfl
  apply (canonicalLaws_iff (by rfl) (by decide)).mpr
  rw [hbelow]
  exact ⟨by decide, fun hrest => absurd hrest (by decide)⟩

end CanonicalPaths
