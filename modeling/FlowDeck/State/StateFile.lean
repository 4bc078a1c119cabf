import FlowDeck.State.PlanningState

/-! The shape that `STATE.md` keeps over updates in plain texts: the front matter with the keys it
was created with, and behind it lines of other keys and of the history. -/

namespace PlanningState

open StateText TextLines List

/-! ### Characters and values -/

/-- Neither a space nor a quote begins the text. -/
def Opens (s : Text) : Prop := ∃ c rest, s = c :: rest ∧ isSpace c = false ∧ isQuote c = false

variable {s key value : Text} {c : Char}

theorem Opens.visible (h : Opens s) : Visible s := by
  obtain ⟨c, rest, rfl, hspace, -⟩ := h
  exact ⟨c, mem_cons_self, hspace⟩

theorem isNumberChar_range (h : isNumberChar c = true) : 43 ≤ c.toNat ∧ c.toNat ≤ 122 := by
  simp only [isNumberChar, Bool.or_eq_true, decide_eq_true_eq] at h
  rcases h with ((h | rfl) | rfl) | rfl
  · have hrange := toNat_of_isAlphanum h
    omega
  all_goals decide

theorem isTerminator_range (h : isTerminator c = true) : c.toNat < 43 ∨ 122 < c.toNat := by
  simp only [isTerminator, Bool.or_eq_true, decide_eq_true_eq] at h
  rcases h with ((rfl | rfl) | rfl) | rfl <;> decide

theorem isSpace_range (h : isSpace c = true) : c.toNat < 43 ∨ 122 < c.toNat := by
  simp only [isSpace, Bool.or_eq_true, Bool.and_eq_true, decide_eq_true_eq] at h
  rcases h with ((((((((((h | rfl) | rfl) | rfl) | rfl) | rfl) | rfl) | h) | rfl) | rfl) | rfl) | rfl
  · exact isTerminator_range h
  all_goals first
    | decide
    | skip
  have hle : '\u2000'.toNat ≤ c.toNat := h.1
  have hval : '\u2000'.toNat = 8192 := rfl
  omega

theorem isTerminator_number (h : isNumberChar c = true) : isTerminator c = false := by
  have hrange := isNumberChar_range h
  by_contra hterminator
  have hout := isTerminator_range (by simpa using hterminator)
  omega

theorem isSpace_number (h : isNumberChar c = true) : isSpace c = false := by
  have hrange := isNumberChar_range h
  by_contra hspace
  have hout := isSpace_range (by simpa using hspace)
  omega

theorem plain_number (h : ∀ c ∈ s, isNumberChar c = true) : Plain s := by
  intro c hc
  refine ⟨isTerminator_number (h c hc), ?_⟩
  intro heq
  have hdollar := h c hc
  rw [heq] at hdollar
  revert hdollar
  decide

theorem Num.plain (n : Num) : Plain n.text := plain_number n.chars

theorem Num.opens (n : Num) : Opens n.text := by
  obtain ⟨c, rest, htext⟩ := exists_cons_of_ne_nil n.printed
  have hc : isNumberChar c = true := n.chars c (htext ▸ mem_cons_self)
  refine ⟨c, rest, htext, isSpace_number hc, ?_⟩
  by_contra hquote
  have hq : isQuote c = true := by simpa using hquote
  simp only [isQuote, Bool.or_eq_true, decide_eq_true_eq] at hq
  rcases hq with rfl | rfl
  · revert hc
    decide
  · revert hc
    decide

theorem isNumberChar_slug (h : isSlugChar c = true) : isNumberChar c = true := by
  simp only [isSlugChar, Bool.or_eq_true] at h
  have halpha : c.isAlpha = (c.isUpper || c.isLower) := rfl
  simp only [isNumberChar, Char.isAlphanum, halpha, Bool.or_eq_true]
  tauto

theorem dashed_chars (inRun : Bool) (s : Text) : ∀ c ∈ dashed inRun s, isNumberChar c = true := by
  induction s generalizing inRun with
  | nil => simp [dashed]
  | cons d rest ih =>
    rw [dashed]
    split_ifs with hslug hrun
    · exact forall_mem_cons.mpr ⟨isNumberChar_slug hslug, ih false⟩
    · exact ih true
    · exact forall_mem_cons.mpr ⟨by decide, ih true⟩

theorem plain_slugifyTopic (H : Host) (topic : Text) : Plain (slugifyTopic H topic) := by
  apply plain_number
  intro c hc
  have hdash := (List.rdropWhile_prefix _ _).sublist.subset ((take_sublist _ _).subset hc)
  exact dashed_chars _ _ c ((dropWhile_sublist _).subset hdash)

/-! ### Reading a front line -/

theorem plain_of_subset {t : Text} (h : s ⊆ t) (ht : Plain t) : Plain s :=
  fun c hc => ht c (h hc)

theorem rdropWhile_cons_of_not {p : Char → Bool} (rest : Text) (h : p c = false) :
    (c :: rest).rdropWhile p = c :: rest.rdropWhile p := by
  rw [← singleton_append, rdropWhile_append]
  split
  · next hnil =>
      rw [hnil, rdropWhile_singleton]
      simp [h]
  · rfl

theorem unquote_opens (h : Opens s) : Opens (unquote s) ∧ unquote s ⊆ s := by
  obtain ⟨c, rest, rfl, hspace, hquote⟩ := h
  have hopened : (if (c :: rest).head?.any isQuote then (c :: rest).tail else c :: rest) =
      c :: rest := by
    simp [hquote]
  rw [unquote]
  simp only [hopened]
  split
  · next hlast =>
      cases rest with
      | nil => simp [hquote] at hlast
      | cons d rest =>
        rw [dropLast_cons_of_ne_nil (cons_ne_nil _ _)]
        refine ⟨⟨c, _, rfl, hspace, hquote⟩, ?_⟩
        exact cons_subset_cons c (dropLast_sublist _).subset
  · exact ⟨⟨c, rest, rfl, hspace, hquote⟩, Subset.refl _⟩

theorem trim_opens (h : Opens s) : Opens (trim s) ∧ trim s ⊆ s := by
  obtain ⟨c, rest, rfl, hspace, hquote⟩ := h
  have htrim : trim (c :: rest) = c :: trimEnd rest := by
    rw [trim, dropWhile_cons_of_neg (by simp [hspace]), trimEnd,
      rdropWhile_cons_of_not rest hspace, trimEnd]
  rw [htrim]
  refine ⟨⟨c, _, rfl, hspace, hquote⟩, ?_⟩
  exact cons_subset_cons c (List.rdropWhile_prefix _ _).sublist.subset

/-- A text that is read back from the front matter. -/
def ReadAsText (value : Json) : Prop := ∃ s, value = textValue s ∧ Plain s ∧ Opens s

theorem splitKey_parts {first other : Char → Bool} {l : Text}
    (h : splitKey first other l = some (key, value)) : l = key ++ ':' :: value ∧ key ≠ [] ∧
      ∀ c ∈ key, first c = true ∨ other c = true := by
  cases l with
  | nil => cases h
  | cons c rest =>
    rw [splitKey] at h
    split at h
    · next hfirst =>
        split at h
        · next value' hdrop =>
            simp only [Option.some.injEq, Prod.mk.injEq] at h
            obtain ⟨rfl, rfl⟩ := h
            refine ⟨?_, cons_ne_nil _ _, ?_⟩
            · rw [cons_append, ← hdrop, takeWhile_append_dropWhile]
            · intro d hd
              rcases mem_cons.mp hd with rfl | hd
              · exact Or.inl hfirst
              · exact Or.inr (mem_takeWhile_imp hd)
        · cases h
    · cases h

theorem splitKey_line {first other : Char → Bool} (hc : first c = true)
    (hkey : ∀ d ∈ key, other d = true) (hcolon : other ':' = false) :
    splitKey first other (c :: (key ++ ':' :: value)) = some (c :: key, value) := by
  have hdrop : (key ++ ':' :: value).dropWhile other = ':' :: value := by
    rw [dropWhile_append_of_pos hkey, dropWhile_cons_of_neg (by simp [hcolon])]
  have htake : (key ++ ':' :: value).takeWhile other = key := by
    rw [takeWhile_append_of_pos hkey, takeWhile_cons_of_neg (by simp [hcolon]),
      append_nil]
  simp only [splitKey, hc, if_true, hdrop, htake]

/-! ### The shape of the file -/

def frontKeys : List Text :=
  ["phase", "status", "plan_confirmed", "requires_design_first", "design_stage", "design_approved",
    "design_override", "steps_complete", "steps_pending", "last_action", "next_action", "blockers",
    "freshnessStatus", "lastUpdatedAt", "lastUpdatedBy", "lastUpdatedPhase",
    "summaryVersion"].map String.toList

/-- Those of fields that are numbers, booleans or lists. -/
def coercedKeys : List Text :=
  ["phase", "plan_confirmed", "requires_design_first", "design_approved", "design_override",
    "steps_complete", "steps_pending", "blockers"].map String.toList

structure IsKey (key : Text) : Prop where
  nonempty : key ≠ []
  chars : ∀ c ∈ key, isKeyChar c = true

theorem isKey_iff : (key ≠ [] ∧ ∀ c ∈ key, isKeyChar c = true) ↔ IsKey key :=
  ⟨fun h => ⟨h.1, h.2⟩, fun h => ⟨h.nonempty, h.chars⟩⟩

instance (key : Text) : Decidable (IsKey key) :=
  @decidable_of_iff _ _ isKey_iff
    (@instDecidableAnd _ _ _ (decidableBAll (fun c => isKeyChar c = true) key))

theorem frontKeys_isKey : ∀ key ∈ frontKeys, IsKey key := by decide +kernel

theorem IsKey.noColon (h : IsKey key) : ':' ∉ key := by
  intro hmem
  have hchar := h.chars ':' hmem
  revert hchar
  decide

theorem isNumberChar_key (h : isKeyChar c = true) : isNumberChar c = true ∨ c = '_' := by
  simp only [isKeyChar, Bool.or_eq_true, decide_eq_true_eq] at h
  rcases h with h | h
  · exact Or.inl (by simp [isNumberChar, h])
  · exact Or.inr h

theorem IsKey.plain (h : IsKey key) : Plain key := by
  intro c hc
  rcases isNumberChar_key (h.chars c hc) with hnumber | rfl
  · exact plain_number (fun d hd => (mem_singleton.mp hd) ▸ hnumber) c (mem_singleton.mpr rfl)
  · decide

def keyLine (key value : Text) : Text := key ++ ": ".toList ++ value

theorem keyLine_eq (key value : Text) : keyLine key value = key ++ ':' :: ' ' :: value := by
  simp [keyLine]

theorem key_unique {key' value' : Text} (h : IsKey key) (h' : IsKey key')
    (heq : key ++ ':' :: value = key' ++ ':' :: value') : key = key' ∧ value = value' := by
  have hkey : (key ++ ':' :: value).takeWhile (· ≠ ':') = key := by
    rw [takeWhile_append_of_pos]
    · simp
    · intro c hc
      have hne : c ≠ ':' := fun heq => h.noColon (heq ▸ hc)
      simpa using hne
  have hkey' : (key' ++ ':' :: value').takeWhile (· ≠ ':') = key' := by
    rw [takeWhile_append_of_pos]
    · simp
    · intro c hc
      have hne : c ≠ ':' := fun heq => h'.noColon (heq ▸ hc)
      simpa using hne
  have hsame : key = key' := by
    rw [← hkey, heq, hkey']
  rw [hsame] at heq
  have htail := append_cancel_left heq
  exact ⟨hsame, (cons.inj htail).2⟩

/-- A value of the front matter. -/
structure FrontValue (entry : Text × Text) : Prop where
  key : entry.1 ∈ frontKeys
  plain : Plain entry.2
  visible : Visible entry.2
  opens : entry.1 ∈ coercedKeys → Opens entry.2

/-- A line of the body: of the history, or of a key that the front matter has not. -/
structure BodyLine (l : Text) : Prop where
  plain : Plain l
  heading : ¬ blockersHeading <+: l
  keyed : ∀ key value, IsKey key → l = key ++ ':' :: value → key ∉ frontKeys ∧ Visible value

def dashes : Text := "---".toList

def fileLines (front : List (Text × Text)) (body : List Text) : List Text :=
  dashes :: (front.map (fun entry => keyLine entry.1 entry.2) ++ dashes :: body)

structure Shape (front : List (Text × Text)) (body : List Text) : Prop where
  keys : front.map Prod.fst = frontKeys
  values : ∀ entry ∈ front, FrontValue entry
  lines : ∀ l ∈ body, BodyLine l
  nonempty : body ≠ []

def Shaped (content : Text) : Prop :=
  ∃ front body, Shape front body ∧ content = join '\n' (fileLines front body)

section Shape

variable {front : List (Text × Text)} {body : List Text}

theorem FrontValue.plainLine {entry : Text × Text} (h : FrontValue entry) :
    Plain (keyLine entry.1 entry.2) := by
  rw [keyLine_eq]
  have hkey : Plain entry.1 := (frontKeys_isKey _ h.key).plain
  simp only [plain_append, plain_cons]
  exact ⟨hkey, by decide, by decide, h.plain⟩

theorem Shape.plainLines (h : Shape front body) : ∀ l ∈ fileLines front body, Plain l := by
  intro l hl
  have hdashes : Plain dashes := by decide
  simp only [fileLines, mem_cons, mem_append, mem_map] at hl
  rcases hl with rfl | ⟨entry, hentry, rfl⟩ | rfl | hl
  · exact hdashes
  · exact (h.values entry hentry).plainLine
  · exact hdashes
  · exact (h.lines l hl).plain

theorem not_hasKey_dashes (key : Text) : ¬ HasKey key dashes := by
  intro hkey
  obtain ⟨value, heq⟩ := hasKey_iff.mp hkey
  have hmem : ':' ∈ dashes := by
    rw [heq]
    simp
  revert hmem
  decide

theorem hasKey_keyLine {key key' value : Text} (h : IsKey key) (h' : IsKey key') :
    HasKey key (keyLine key' value) ↔ key = key' := by
  rw [hasKey_iff]
  constructor
  · intro hkey
    obtain ⟨old, heq⟩ := hkey
    rw [keyLine_eq] at heq
    exact ((key_unique h' h heq).1).symm
  · intro hsame
    exact ⟨' ' :: value, by rw [hsame, keyLine_eq]⟩

theorem Shape.visible (h : Shape front body) {key old : Text} (hkey : IsKey key)
    (hold : key ++ ':' :: old ∈ fileLines front body) : Visible old := by
  simp only [fileLines, mem_cons, mem_append, mem_map] at hold
  rcases hold with heq | ⟨entry, hentry, heq⟩ | heq | hmem
  · exact absurd (hasKey_iff.mpr ⟨old, heq.symm⟩) (not_hasKey_dashes key)
  · have hvalue := h.values entry hentry
    rw [keyLine_eq] at heq
    obtain ⟨-, hvalueEq⟩ := key_unique (frontKeys_isKey _ hvalue.key) hkey heq
    obtain ⟨c, hc, hspace⟩ := hvalue.visible
    exact ⟨c, hvalueEq ▸ mem_cons_of_mem _ hc, hspace⟩
  · exact absurd (hasKey_iff.mpr ⟨old, heq.symm⟩) (not_hasKey_dashes key)
  · exact ((h.lines _ hmem).keyed key old hkey rfl).2

end Shape

end PlanningState
