import FlowDeck.Execution.Scheduler
import FlowDeck.Library.Directory
import Mathlib.Data.List.Dedup

namespace Ownership

open ExecutionScheduler Directory List

/-- The text without a dot and a slash at its start. -/
def dropLeadingDot (text : List Char) : List Char :=
  if "./".toList.isPrefixOf text then text.drop 2 else text

def normalizeText (text : List Char) : List Char :=
  let slashed := text.map fun c => if c = '\\' then '/' else c
  dropTrailing '/' (collapse '/' (dropLeadingDot slashed))

/-- The chain of replacements that every function on owned paths begins with. -/
def normalizePath (path : String) : String := String.ofList (normalizeText path.toList)

def startsWithDrive : List Char → Bool
  | letter :: ':' :: '/' :: _ => letter.isAlpha
  | _ => false

def escapes (path : String) : Bool :=
  path = "" || path.toList.contains '\x00' || "../".toList.isPrefixOf path.toList || path = ".." ||
    "/".toList.isPrefixOf path.toList || startsWithDrive path.toList

def normalizeOwnership (paths : List String) : Except String (List String) :=
  let normalized := paths.map normalizePath
  if normalized.any escapes then .error "OWNERSHIP_PATH_ESCAPE"
  else .ok (sortTexts normalized.dedup)

/-- The comparison of a path with a claim once both are normalized. -/
def claimMatches (candidate claim : List Char) (descendants : Bool) : Bool :=
  if claim = ".".toList ∨ claim = "**".toList then !candidate.isEmpty
  else if "/**".toList.isSuffixOf claim then
    let dir := dropTrailing '/' (claim.take (claim.length - 3))
    (dir ++ ['/']).isPrefixOf candidate
  else if "/*".toList.isSuffixOf claim then
    let dir := dropTrailing '/' (claim.take (claim.length - 2))
    (dir ++ ['/']).isPrefixOf candidate && !(candidate.drop (dir.length + 1)).contains '/'
  else candidate = claim || descendants && (claim ++ ['/']).isPrefixOf candidate

def ownershipClaimMatchesPath (path claim : String) (descendants : Bool) : Bool :=
  claimMatches (normalizePath path).toList (normalizePath claim).toList descendants

def claimsOverlap (left right : String) : Bool :=
  ownershipClaimMatchesPath left right true || ownershipClaimMatchesPath right left true

def ownershipOverlaps (a b : List String) : Except String Bool := do
  let lefts ← normalizeOwnership a
  lefts.anyM fun left => do
    let rights ← normalizeOwnership b
    pure (rights.any (claimsOverlap left))

/-- Whether a changed path belongs to an owner, when a workstream is integrated. -/
def pathOwnedBy (path owner : String) : Bool :=
  ownershipClaimMatchesPath (normalizePath path) (normalizePath owner) false

def ownedByAny (owners : List String) (path : String) : Bool := owners.any (pathOwnedBy path)

variable {candidate claim path : List Char}

inductive Covers : List Char → List Char → Prop
  | everything {claim path : List Char} (hclaim : claim = ".".toList ∨ claim = "**".toList)
      (hpath : path ≠ []) : Covers claim path
  | below (dir : List Char) {path : List Char} (hpath : Under '/' (dropTrailing '/' dir) path) :
      Covers (dir ++ "/**".toList) path
  | inside (dir name : List Char) {path : List Char}
      (hpath : path = dropTrailing '/' dir ++ '/' :: name) (hname : '/' ∉ name) :
      Covers (dir ++ "/*".toList) path
  | itself (path : List Char) : Covers path path

theorem covers_of_claimMatches (h : claimMatches candidate claim false = true) :
    Covers claim candidate := by
  unfold claimMatches at h
  split_ifs at h with hall hbelow hinside
  · exact .everything hall (by simpa using h)
  · obtain ⟨dir, rfl⟩ := isSuffixOf_iff_suffix.mp hbelow
    simp only [List.isPrefixOf_iff_prefix] at h
    have hdir : (dir ++ "/**".toList).take ((dir ++ "/**".toList).length - 3) = dir := by simp
    rw [hdir] at h
    exact .below dir h
  · obtain ⟨dir, rfl⟩ := isSuffixOf_iff_suffix.mp hinside
    have hdir : (dir ++ "/*".toList).take ((dir ++ "/*".toList).length - 2) = dir := by simp
    simp only [hdir, Bool.and_eq_true, isPrefixOf_iff_prefix] at h
    obtain ⟨⟨name, rfl⟩, hname⟩ := h
    have hdrop : (dropTrailing '/' dir ++ ['/'] ++ name).drop
        ((dropTrailing '/' dir).length + 1) = name := by
      apply drop_left'
      simp
    rw [hdrop] at hname
    exact .inside dir name (append_cons_eq '/' _ name).symm (by simpa using hname)
  · have heq : candidate = claim := by simpa using h
    subst heq
    exact .itself candidate

theorem ne_everything (h : '/' ∈ claim) : ¬(claim = ".".toList ∨ claim = "**".toList) := by
  intro hall
  rcases hall with rfl | rfl
  · simp at h
  · simp at h

variable {descendants : Bool}

theorem claimMatches_everything (hclaim : claim = ".".toList ∨ claim = "**".toList)
    (hpath : path ≠ []) : claimMatches path claim descendants = true := by
  unfold claimMatches
  rw [if_pos hclaim]
  simpa using hpath

theorem claimMatches_below {dir : List Char} (hpath : Under '/' (dropTrailing '/' dir) path) :
    claimMatches path (dir ++ "/**".toList) descendants = true := by
  have hslash : '/' ∈ dir ++ "/**".toList := by simp
  have hsuffix : "/**".toList.isSuffixOf (dir ++ "/**".toList) = true :=
    isSuffixOf_iff_suffix.mpr (suffix_append dir _)
  have hdir : (dir ++ "/**".toList).take ((dir ++ "/**".toList).length - 3) = dir := by simp
  unfold claimMatches
  rw [if_neg (ne_everything hslash), if_pos hsuffix]
  simp only [hdir, isPrefixOf_iff_prefix]
  exact hpath

theorem claimMatches_inside {dir name : List Char} (hname : '/' ∉ name) :
    claimMatches (dropTrailing '/' dir ++ '/' :: name) (dir ++ "/*".toList) descendants = true := by
  have hslash : '/' ∈ dir ++ "/*".toList := by simp
  have hsuffix : "/*".toList.isSuffixOf (dir ++ "/*".toList) = true :=
    isSuffixOf_iff_suffix.mpr (suffix_append dir _)
  have hnot : ¬"/**".toList.isSuffixOf (dir ++ "/*".toList) = true := by
    rw [isSuffixOf_iff_suffix]
    intro ⟨front, hfront⟩
    have hlast := congrArg (fun text => text.dropLast.getLast?) hfront
    simp at hlast
  have hdir : (dir ++ "/*".toList).take ((dir ++ "/*".toList).length - 2) = dir := by simp
  have hdrop : (dropTrailing '/' dir ++ '/' :: name).drop ((dropTrailing '/' dir).length + 1) =
      name := by
    rw [append_cons_eq]
    apply drop_left'
    simp
  unfold claimMatches
  rw [if_neg (ne_everything hslash), if_neg hnot, if_pos hsuffix]
  simp only [hdir, hdrop, Bool.and_eq_true, isPrefixOf_iff_prefix]
  exact ⟨under_append '/' _ name, by simpa using hname⟩

theorem claimMatches_descendants (h : claimMatches path claim false = true) :
    claimMatches path claim true = true := by
  unfold claimMatches at h ⊢
  split_ifs at h ⊢
  · exact h
  · exact h
  · exact h
  · simp_all

theorem overlap_of_covers {left right : List Char} (hleft : Collapsed '/' left)
    (hl : claimMatches path left false = true) (hr : claimMatches path right false = true) :
    claimMatches left right true = true ∨ claimMatches right left true = true := by
  have hcoverl := covers_of_claimMatches hl
  have hcoverr := covers_of_claimMatches hr
  cases hcoverl with
  | itself => exact Or.inl (claimMatches_descendants hr)
  | everything hall hpath =>
    right
    apply claimMatches_everything hall
    cases hcoverr with
    | everything hall' =>
      rcases hall' with rfl | rfl
      · simp
      · simp
    | below dir => simp
    | inside dir name => simp
    | itself => exact hpath
  | below dir hbelow =>
    cases hcoverr with
    | itself => exact Or.inr (claimMatches_descendants hl)
    | everything hall hpath =>
      left
      apply claimMatches_everything hall
      simp
    | below other hother =>
      rcases hbelow.nested hother with hle | hle
      · right
        apply claimMatches_below
        exact (dropTrailing_under '/' other ['*', '*']).of_above hle
      · left
        apply claimMatches_below
        exact (dropTrailing_under '/' dir ['*', '*']).of_above hle
    | inside other name hpath hname =>
      right
      apply claimMatches_below
      rw [hpath] at hbelow
      exact (dropTrailing_under '/' other ['*']).of_above (hbelow.prefix_of_inside hname)
  | inside dir name hpath hname =>
    cases hcoverr with
    | itself => exact Or.inr (claimMatches_descendants hl)
    | everything hall hpath =>
      left
      apply claimMatches_everything hall
      simp
    | below other hother =>
      left
      apply claimMatches_below
      rw [hpath] at hother
      exact (dropTrailing_under '/' dir ['*']).of_above (hother.prefix_of_inside hname)
    | inside other name' hpath' hname' =>
      left
      have hunder : Under '/' (dropTrailing '/' dir) path := by
        rw [hpath]
        exact under_append '/' _ name
      have hunder' : Under '/' (dropTrailing '/' other) path := by
        rw [hpath']
        exact under_append '/' _ name'
      have hsame : dropTrailing '/' dir = dropTrailing '/' other := by
        rw [hpath'] at hunder
        rw [hpath] at hunder'
        exact eq_of_above_prefix (hunder.prefix_of_inside hname')
          (hunder'.prefix_of_inside hname)
      have hdir : dropTrailing '/' dir = dir := hleft.dropTrailing_eq
      have hself : dir ++ "/*".toList = dropTrailing '/' other ++ '/' :: ['*'] := by
        rw [← hsame, hdir]
        rfl
      rw [hself]
      exact claimMatches_inside (by simp)

theorem collapsed_normalizePath (path : String) : Collapsed '/' (normalizePath path).toList := by
  unfold normalizePath normalizeText
  rw [String.toList_ofList]
  exact (collapsed_collapse '/' _).dropTrailing

theorem normalizeOwnership_eq_ok_iff {paths owned : List String} :
    normalizeOwnership paths = .ok owned ↔
      (∀ p ∈ paths, escapes (normalizePath p) = false) ∧
        owned = sortTexts (paths.map normalizePath).dedup := by
  unfold normalizeOwnership
  rw [Checked.guard_eq_ok, Bool.not_eq_true, any_eq_false, forall_mem_map]
  simp only [Bool.not_eq_true, Except.ok.injEq]
  rw [eq_comm (a := owned)]

theorem mem_sortTexts_dedup {texts : List String} {text : String} :
    text ∈ sortTexts texts.dedup ↔ text ∈ texts := by
  unfold sortTexts
  rw [mem_insertionSort, mem_dedup]

/-- The test finds no overlap where no claim that it looks at escapes and no two match each other;
the second owner's claims are not looked at where the first has none. -/
theorem ownershipOverlaps_eq_ok_false_iff {a b : List String} :
    ownershipOverlaps a b = .ok false ↔
      (∀ p ∈ a, escapes (normalizePath p) = false) ∧
        ∀ p ∈ a, (∀ q ∈ b, escapes (normalizePath q) = false) ∧
          ∀ q ∈ b, claimsOverlap (normalizePath p) (normalizePath q) = false := by
  unfold ownershipOverlaps
  rw [Checked.bind_eq_ok]
  constructor
  · intro ⟨lefts, hlefts, hany⟩
    obtain ⟨hescape, rfl⟩ := normalizeOwnership_eq_ok_iff.mp hlefts
    refine ⟨hescape, ?_⟩
    intro p hp
    have hmem : normalizePath p ∈ sortTexts (a.map normalizePath).dedup :=
      mem_sortTexts_dedup.mpr (mem_map_of_mem hp)
    have hone := Checked.anyM_eq_ok_false.mp hany (normalizePath p) hmem
    obtain ⟨rights, hrights, hnone⟩ := Checked.bind_eq_ok.mp hone
    obtain ⟨hescape', rfl⟩ := normalizeOwnership_eq_ok_iff.mp hrights
    refine ⟨hescape', ?_⟩
    intro q hq
    have hmem' : normalizePath q ∈ sortTexts (b.map normalizePath).dedup :=
      mem_sortTexts_dedup.mpr (mem_map_of_mem hq)
    have hfalse := Checked.pure_eq_ok.mp hnone
    simpa using any_eq_false.mp hfalse (normalizePath q) hmem'
  · intro ⟨hescape, hpairs⟩
    refine ⟨_, normalizeOwnership_eq_ok_iff.mpr ⟨hescape, rfl⟩, ?_⟩
    apply Checked.anyM_eq_ok_false.mpr
    intro left hleft
    obtain ⟨p, hp, rfl⟩ := mem_map.mp (mem_sortTexts_dedup.mp hleft)
    obtain ⟨hescape', hnone⟩ := hpairs p hp
    apply Checked.bind_eq_ok.mpr
    refine ⟨_, normalizeOwnership_eq_ok_iff.mpr ⟨hescape', rfl⟩, ?_⟩
    apply Checked.pure_eq_ok.mpr
    apply any_eq_false.mpr
    intro right hright
    obtain ⟨q, hq, rfl⟩ := mem_map.mp (mem_sortTexts_dedup.mp hright)
    simpa using hnone q hq

/-- Two owners whose claims are found not to overlap own no path together. -/
theorem not_ownedByBoth {a b : List String} (h : ownershipOverlaps a b = .ok false)
    (path : String) : ¬(ownedByAny a path = true ∧ ownedByAny b path = true) := by
  intro ⟨howna, hownb⟩
  obtain ⟨p, hp, hmatchp⟩ := any_eq_true.mp howna
  obtain ⟨q, hq, hmatchq⟩ := any_eq_true.mp hownb
  have hnone := ((ownershipOverlaps_eq_ok_false_iff.mp h).2 p hp).2 q hq
  unfold pathOwnedBy ownershipClaimMatchesPath at hmatchp hmatchq
  unfold claimsOverlap ownershipClaimMatchesPath at hnone
  rw [Bool.or_eq_false_iff] at hnone
  obtain ⟨hleft, hright⟩ := hnone
  rcases overlap_of_covers (collapsed_normalizePath (normalizePath p)) hmatchp hmatchq with hm | hm
  · rw [hleft] at hm
    cases hm
  · rw [hright] at hm
    cases hm

theorem apart_not_ownedByBoth : ownershipOverlaps ["src/**", "./lib//x/"] ["docs/*"] = .ok false ∧
    ¬(ownedByAny ["src/**", "./lib//x/"] "docs/a" = true ∧ ownedByAny ["docs/*"] "docs/a" = true) :=
  have h : ownershipOverlaps ["src/**", "./lib//x/"] ["docs/*"] = .ok false := by decide +kernel
  ⟨h, not_ownedByBoth h "docs/a"⟩

end Ownership
