import FlowDeck.State.StateReadBack
import FlowDeck.Verification.CheckResolution

/-! The slug of a topic, as the two languages make it. -/

namespace TopicSlug

open PlanningState StateText TextLines List

/-- `to_lowercase` and `toLowerCase`: each character has its own lower case, apart from a capital
sigma, which has another one at the end of a word. -/
structure LowerCasing where
  char : Char → Text
  isFinal : Text → Text → Bool
  ascii : ∀ c, c.toNat < 128 → char c = [c.toLower]
  space : ∀ c, isSpace c = true ∨ PolicyStore.isWhitespace c = true → char c = [c]
  notUpper : ∀ c, ∀ d ∈ char c, d.isUpper = false

def LowerCasing.lowerFrom (L : LowerCasing) (before : Text) : Text → Text
  | [] => []
  | c :: after =>
    (if c = 'Σ' then [if L.isFinal before after then 'ς' else 'σ'] else L.char c) ++
      L.lowerFrom (before ++ [c]) after

def LowerCasing.lower (L : LowerCasing) (text : Text) : Text := L.lowerFrom [] text

/-- The loop of `slugify_topic`. -/
def hyphenated : Bool → Text → Text
  | _, [] => []
  | inRun, c :: rest =>
    if c.isAlphanum then c :: hyphenated false rest
    else if inRun then hyphenated true rest
    else '-' :: hyphenated true rest

/-- `slugify_topic` of `paths.rs`. -/
def slugifyTopic (L : LowerCasing) (topic : Text) : Text :=
  (CheckResolution.trimMatches '-' (hyphenated false (L.lower (CheckResolution.trim topic)))).take 64

/-- `topicDir` -/
def topicDir (H : Host) (join : Text → Text → Text) (planningDir topic : Text) : Text :=
  join planningDir (PlanningState.slugifyTopic H topic)

/-! ### The words of a slug -/

abbrev slugWords (s : Text) : List Text := words isSlugChar s

def AreDashes (s : Text) : Prop := ∀ c ∈ s, c = '-'

def stripDashes (s : Text) : Text := (s.dropWhile (· = '-')).rdropWhile (· = '-')

theorem dash_not_slug : isSlugChar '-' = false := by decide

variable {c : Char} {ws : List Text}

theorem not_dash (h : isSlugChar c = true) : decide (c = '-') = false := by
  have hne : c ≠ '-' := by
    rintro rfl
    rw [dash_not_slug] at h
    exact absurd h (by decide)
  exact decide_eq_false hne

/-- Dashes around words are taken off. -/
theorem stripDashes_join (h : AreWords isSlugChar ws) {lead tail : Text} (hlead : AreDashes lead)
    (htail : AreDashes tail) : stripDashes (lead ++ (join '-' ws ++ tail)) = join '-' ws := by
  have htailNil : tail.rdropWhile (· = '-') = [] := by
    rw [rdropWhile_eq_nil_iff]
    intro c hc
    exact decide_eq_true (htail c hc)
  have hleadGone : (lead ++ (join '-' ws ++ tail)).dropWhile (· = '-') =
      (join '-' ws ++ tail).dropWhile (· = '-') :=
    dropWhile_append_of_pos fun c hc => decide_eq_true (hlead c hc)
  unfold stripDashes
  rw [hleadGone]
  cases hws : join '-' ws with
  | nil =>
    have hall : tail.dropWhile (· = '-') = [] := by
      rw [dropWhile_eq_nil_iff]
      intro c hc
      exact decide_eq_true (htail c hc)
    rw [nil_append, hall]
    rfl
  | cons c rest =>
    have hc : isSlugChar c = true := head?_join h c (by rw [hws]; rfl)
    have hkept : (c :: rest).rdropWhile (· = '-') = c :: rest := by
      rw [rdropWhile_eq_self_iff]
      intro hne hdash
      have hlast : isSlugChar ((c :: rest).getLast hne) = true := by
        apply getLast?_join h
        rw [hws]
        exact getLast?_eq_getLast_of_ne_nil hne
      rw [not_dash hlast] at hdash
      exact absurd hdash (by decide)
    rw [cons_append, dropWhile_cons_of_neg (by simp [not_dash hc]), ← cons_append,
      rdropWhile_append, if_pos htailNil, hkept]

/-- A run of other characters stands as one dash between the words. -/
theorem dashed_words (s : Text) :
    (∀ current : Text, current ≠ [] → (∀ c ∈ current, isSlugChar c = true) →
      ∃ tail, AreDashes tail ∧
        current ++ dashed false s = join '-' (slugWords (current ++ s)) ++ tail) ∧
    ∃ tail, AreDashes tail ∧ dashed true s = join '-' (slugWords s) ++ tail ∧
      (slugWords s = [] → tail = []) := by
  induction s with
  | nil =>
    constructor
    · intro current hne hcurrent
      have hone : slugWords current = [current] := words_eq_singleton hne hcurrent
      refine ⟨[], by simp [AreDashes], ?_⟩
      simp [dashed, hone]
    · exact ⟨[], by simp [AreDashes], by simp [dashed, join], fun _ => rfl⟩
  | cons c s ih =>
    obtain ⟨hword, tail, htail, hrun, hempty⟩ := ih
    cases hc : isSlugChar c with
    | true =>
      constructor
      · intro current _ hcurrent
        have hgrown : ∀ d ∈ current ++ [c], isSlugChar d = true := by
          intro d hd
          rcases mem_append.mp hd with hd | hd
          · exact hcurrent d hd
          · rw [mem_singleton.mp hd]
            exact hc
        obtain ⟨tail', htail', heq⟩ := hword (current ++ [c]) (by simp) hgrown
        refine ⟨tail', htail', ?_⟩
        simpa [dashed, hc] using heq
      · obtain ⟨tail', htail', heq⟩ := hword [c] (by simp) (by simpa using hc)
        refine ⟨tail', htail', ?_, ?_⟩
        · simpa [dashed, hc] using heq
        · intro hnone
          have hfirst : tail' = c :: dashed false s := by simpa [hnone, join] using heq.symm
          have hdash := htail' c (by rw [hfirst]; exact mem_cons_self)
          rw [hdash, dash_not_slug] at hc
          exact absurd hc (by decide)
    | false =>
      constructor
      · intro current hne hcurrent
        have hone : slugWords current = [current] := words_eq_singleton hne hcurrent
        have hsplit : slugWords (current ++ c :: s) = current :: slugWords s := by
          calc slugWords (current ++ c :: s) = slugWords current ++ slugWords s :=
              words_append_cons hc current s
            _ = current :: slugWords s := by rw [hone, singleton_append]
        have hdash : current ++ dashed false (c :: s) = current ++ '-' :: dashed true s := by
          simp [dashed, hc]
        rw [hdash, hrun, hsplit]
        by_cases hnone : slugWords s = []
        · refine ⟨['-'], by simp [AreDashes], ?_⟩
          rw [hempty hnone, hnone]
          rfl
        · refine ⟨tail, htail, ?_⟩
          rw [join_cons _ hnone, append_assoc, cons_append]
      · refine ⟨tail, htail, ?_, ?_⟩
        · rw [slugWords, words_cons hc]
          simpa [dashed, hc] using hrun
        · rw [slugWords, words_cons hc]
          exact hempty

theorem stripDashes_dashed (s : Text) : stripDashes (dashed false s) = join '-' (slugWords s) := by
  have hwords : AreWords isSlugChar (slugWords s) := areWords_words s
  cases s with
  | nil => rfl
  | cons c s =>
    obtain ⟨hword, tail, htail, hrun, _⟩ := dashed_words s
    cases hc : isSlugChar c with
    | true =>
      obtain ⟨tail', htail', heq⟩ := hword [c] (by simp) (by simpa using hc)
      have hdashed : dashed false (c :: s) = [] ++ (join '-' (slugWords (c :: s)) ++ tail') := by
        simpa [dashed, hc] using heq
      rw [hdashed]
      exact stripDashes_join hwords (by simp [AreDashes]) htail'
    | false =>
      have hsplit : slugWords (c :: s) = slugWords s := words_cons hc s
      have hdashed : dashed false (c :: s) = ['-'] ++ (join '-' (slugWords s) ++ tail) := by
        simp [dashed, hc, hrun]
      rw [hdashed, hsplit]
      rw [hsplit] at hwords
      exact stripDashes_join hwords (by simp [AreDashes]) htail

/-! ### Lower case -/

/-- A character that is of no word, as a dash. -/
def masked (c : Char) : Char := if isSlugChar c then c else '-'

theorem isSlugChar_masked (c : Char) : isSlugChar (masked c) = isSlugChar c := by
  unfold masked
  split
  · next h => rw [h]
  · next h => simpa [dash_not_slug] using h

theorem dashed_map_masked (inRun : Bool) (s : Text) : dashed inRun (s.map masked) = dashed inRun s := by
  induction s generalizing inRun with
  | nil => rfl
  | cons c s ih =>
    simp only [map_cons, dashed, isSlugChar_masked, ih]
    cases hc : isSlugChar c with
    | true => simp [masked, hc]
    | false => rfl

theorem join_words_map_masked (s : Text) :
    join '-' (slugWords (s.map masked)) = join '-' (slugWords s) := by
  rw [← stripDashes_dashed, ← stripDashes_dashed, dashed_map_masked]

/-- What is left of a character in lower case. -/
def maskedLower (L : LowerCasing) (c : Char) : Text :=
  if c = 'Σ' then ['-'] else (L.char c).map masked

variable {L : LowerCasing}

theorem map_masked_lowerFrom (before s : Text) :
    (L.lowerFrom before s).map masked = s.flatMap (maskedLower L) := by
  induction s generalizing before with
  | nil => rfl
  | cons c s ih =>
    rw [LowerCasing.lowerFrom, map_append, ih, flatMap_cons]
    congr 1
    unfold maskedLower
    split
    · cases L.isFinal before s with
      | true => decide
      | false => decide
    · rfl

theorem map_masked_lower (s : Text) : (L.lower s).map masked = s.flatMap (maskedLower L) :=
  map_masked_lowerFrom [] s

/-- The words in lower case are the same with and without space around a text. -/
theorem join_words_lower_between {before after : Text}
    (hbefore : ∀ c ∈ before, maskedLower L c = ['-']) (hafter : ∀ c ∈ after, maskedLower L c = ['-'])
    (s : Text) :
    join '-' (slugWords (L.lower (before ++ s ++ after))) = join '-' (slugWords (L.lower s)) := by
  have hdashes : ∀ t : Text, (∀ c ∈ t, maskedLower L c = ['-']) →
      ∀ d ∈ t.flatMap (maskedLower L), isSlugChar d = false := by
    intro t ht d hd
    obtain ⟨c, hc, hdc⟩ := mem_flatMap.mp hd
    rw [ht c hc, mem_singleton] at hdc
    rw [hdc]
    exact dash_not_slug
  rw [← join_words_map_masked, ← join_words_map_masked (L.lower s), map_masked_lower, map_masked_lower,
    flatMap_append, flatMap_append, slugWords,
    words_between (hdashes before hbefore) (hdashes after hafter)]

theorem slug_range (h : isSlugChar c = true) :
    48 ≤ c.toNat ∧ c.toNat ≤ 57 ∨ 97 ≤ c.toNat ∧ c.toNat ≤ 122 := by
  have hlower : c.isLower = (decide (c.val ≥ 'a'.val) && decide (c.val ≤ 'z'.val)) := rfl
  simp only [isSlugChar, hlower, Char.isDigit, Bool.or_eq_true, Bool.and_eq_true,
    decide_eq_true_eq, UInt32.le_iff_toNat_le] at h
  have hval : c.val.toNat = c.toNat := rfl
  simp at h
  omega

theorem slug_not_space (h : isSlugChar c = true) :
    isSpace c = false ∧ PolicyStore.isWhitespace c = false := by
  have hrange := slug_range h
  constructor
  · by_contra hspace
    have hspaced := isSpace_range (by simpa using hspace)
    omega
  · simp only [PolicyStore.isWhitespace, Bool.or_eq_false_iff, Bool.and_eq_false_iff,
      decide_eq_false_iff_not]
    omega

/-- Space has no part in a word. -/
theorem maskedLower_space (h : isSpace c = true ∨ PolicyStore.isWhitespace c = true) :
    maskedLower L c = ['-'] := by
  unfold maskedLower
  split
  · rfl
  · have hslug : isSlugChar c = false := by
      by_contra hslug
      obtain ⟨hspace, hwhite⟩ := slug_not_space (by simpa using hslug)
      simp [hspace, hwhite] at h
    rw [L.space c h]
    simp [masked, hslug]

/-! ### The slug of the words -/

def slugOf (ws : List Text) : Text := (join '-' ws).take 64

/-- A text without what `trim` takes off has the same words in lower case. -/
theorem join_words_trimmed {q : Char → Bool} (hq : ∀ c, q c = true → maskedLower L c = ['-'])
    (topic : Text) :
    join '-' (slugWords (L.lower ((topic.dropWhile q).rdropWhile q))) =
      join '-' (slugWords (L.lower topic)) := by
  have hparts : topic =
      topic.takeWhile q ++ (topic.dropWhile q).rdropWhile q ++ (topic.dropWhile q).rtakeWhile q := by
    rw [append_assoc, rdropWhile_append_rtakeWhile, takeWhile_append_dropWhile]
  conv_rhs => rw [hparts]
  symm
  apply join_words_lower_between
  · exact fun c hc => hq c (mem_takeWhile_imp hc)
  · exact fun c hc => hq c (mem_rtakeWhile_imp hc)

theorem slugifyTopic_typeScript {H : Host} (hlower : H.lowerCase = L.lower) (topic : Text) :
    PlanningState.slugifyTopic H topic = slugOf (slugWords (L.lower topic)) := by
  have hstrip := stripDashes_dashed (L.lower (trim topic))
  have htrim : join '-' (slugWords (L.lower (trim topic))) = join '-' (slugWords (L.lower topic)) :=
    join_words_trimmed (fun c hc => maskedLower_space (Or.inl hc)) topic
  rw [PlanningState.slugifyTopic, hlower, slugOf, ← htrim, ← hstrip]
  rfl

theorem lowerFrom_not_upper (before s : Text) : ∀ d ∈ L.lowerFrom before s, d.isUpper = false := by
  induction s generalizing before with
  | nil =>
    intro d hd
    exact absurd hd not_mem_nil
  | cons c s ih =>
    intro d hd
    rw [LowerCasing.lowerFrom, mem_append] at hd
    rcases hd with hd | hd
    · split at hd
      · have hsigma : d = 'ς' ∨ d = 'σ' := by
          rw [mem_singleton] at hd
          split at hd
          · exact Or.inl hd
          · exact Or.inr hd
        rcases hsigma with rfl | rfl
        · decide
        · decide
      · exact L.notUpper c d hd
    · exact ih _ d hd

theorem hyphenated_eq (inRun : Bool) {s : Text} (h : ∀ c ∈ s, c.isUpper = false) :
    hyphenated inRun s = dashed inRun s := by
  induction s generalizing inRun with
  | nil => rfl
  | cons c s ih =>
    have hc : c.isAlphanum = isSlugChar c := by
      have halpha : c.isAlpha = (c.isUpper || c.isLower) := rfl
      simp [Char.isAlphanum, halpha, isSlugChar, h c mem_cons_self]
    have hrest := fun inRun => ih inRun fun d hd => h d (mem_cons_of_mem _ hd)
    simp only [hyphenated, dashed, hc, hrest]

theorem slugifyTopic_rust (topic : Text) :
    slugifyTopic L topic = slugOf (slugWords (L.lower topic)) := by
  have hsame : hyphenated false (L.lower (CheckResolution.trim topic)) =
      dashed false (L.lower (CheckResolution.trim topic)) :=
    hyphenated_eq false (lowerFrom_not_upper [] _)
  have hstrip := stripDashes_dashed (L.lower (CheckResolution.trim topic))
  have htrim : join '-' (slugWords (L.lower (CheckResolution.trim topic))) =
      join '-' (slugWords (L.lower topic)) :=
    join_words_trimmed (fun c hc => maskedLower_space (Or.inr hc)) topic
  rw [slugifyTopic, hsame, slugOf, ← htrim, ← hstrip]
  rfl

/-! ### A slug as a topic -/

/-- Runs of letters and digits, with single hyphens between them. -/
def WellFormed (slug : Text) : Prop := ∃ runs, AreWords isSlugChar runs ∧ slug = join '-' runs

theorem isUpper_iff : c.isUpper = true ↔ 65 ≤ c.toNat ∧ c.toNat ≤ 90 := by
  have hupper : c.isUpper = decide (c.val ≥ 'A'.val ∧ c.val ≤ 'Z'.val) := rfl
  simp only [hupper, ge_iff_le, Bool.decide_and, Bool.and_eq_true, decide_eq_true_eq,
    UInt32.le_iff_toNat_le]
  rfl

theorem toLower_of_not_upper (h : ¬ (65 ≤ c.toNat ∧ c.toNat ≤ 90)) : c.toLower = c := by
  have hout : ¬ (c.val ≥ 'A'.val ∧ c.val ≤ 'Z'.val) := by
    rw [ge_iff_le, UInt32.le_iff_toNat_le, UInt32.le_iff_toNat_le]
    exact h
  exact dif_neg hout

theorem slug_lower (h : isSlugChar c = true ∨ c = '-') : L.char c = [c] ∧ c ≠ 'Σ' := by
  have hrange : c.toNat < 128 ∧ ¬ (65 ≤ c.toNat ∧ c.toNat ≤ 90) := by
    rcases h with h | rfl
    · have hslug := slug_range h
      omega
    · decide
  obtain ⟨hsmall, hupper⟩ := hrange
  constructor
  · rw [L.ascii c hsmall, toLower_of_not_upper hupper]
  · rintro rfl
    exact absurd hsmall (by decide)

theorem lowerFrom_slug (before : Text) {s : Text} (h : ∀ c ∈ s, isSlugChar c = true ∨ c = '-') :
    L.lowerFrom before s = s := by
  induction s generalizing before with
  | nil => rfl
  | cons c s ih =>
    obtain ⟨hchar, hsigma⟩ := slug_lower (L := L) (h c mem_cons_self)
    rw [LowerCasing.lowerFrom, if_neg hsigma, hchar, ih _ fun d hd => h d (mem_cons_of_mem _ hd),
      singleton_append]

theorem mem_join (h : AreWords isSlugChar ws) :
    ∀ c ∈ join '-' ws, isSlugChar c = true ∨ c = '-' := by
  intro c hc
  rcases mem_of_mem_join hc with rfl | ⟨w, hw, hcw⟩
  · exact Or.inr rfl
  · exact Or.inl ((h w hw).2 c hcw)

theorem slugOf_wellFormed {slug : Text} (h : WellFormed slug) (hlength : slug.length ≤ 64) :
    slugOf (slugWords (L.lower slug)) = slug := by
  obtain ⟨runs, hruns, rfl⟩ := h
  have hlower : L.lower (join '-' runs) = join '-' runs := lowerFrom_slug [] (mem_join hruns)
  have hwords : slugWords (join '-' runs) = runs := words_join dash_not_slug hruns
  rw [hlower, hwords, slugOf, take_of_length_le hlength]

theorem not_wellFormed_of_separator (h : SeparatorAt '-' 63 ws) : ¬ WellFormed (slugOf ws) := by
  rintro ⟨runs, hruns, heq⟩
  obtain ⟨first, rest, rfl, hfirst, hrest, hlength⟩ := h
  have hcut : slugOf (first ++ rest) = join '-' first ++ ['-'] := by
    rw [slugOf, join_append hfirst hrest, take_append, take_of_length_le (by omega), hlength]
    rfl
  have hlast : isSlugChar '-' = true := by
    apply getLast?_join hruns '-'
    rw [← heq, hcut]
    simp
  exact absurd hlast (by decide)

/-- What a topic's slug is for: both languages have the same one, it is well formed, it is the slug
of itself, and its directory is the topic's. -/
structure SlugLaws (H : Host) (L : LowerCasing) (topic : Text) : Prop where
  agree : PlanningState.slugifyTopic H topic = slugifyTopic L topic
  wellFormed : WellFormed (PlanningState.slugifyTopic H topic)
  stable : PlanningState.slugifyTopic H (PlanningState.slugifyTopic H topic) =
    PlanningState.slugifyTopic H topic
  stableRust : slugifyTopic L (slugifyTopic L topic) = slugifyTopic L topic
  sameDir : ∀ pathJoin planningDir, topicDir H pathJoin planningDir
    (PlanningState.slugifyTopic H topic) = topicDir H pathJoin planningDir topic

/-- The slug keeps its laws exactly when the cut at its greatest length is not right behind the
hyphen between two words. -/
theorem slugLaws_iff {H : Host} (hlower : H.lowerCase = L.lower) (topic : Text) :
    SlugLaws H L topic ↔ ¬ SeparatorAt '-' 63 (slugWords (L.lower topic)) := by
  have hslug := slugifyTopic_typeScript hlower
  constructor
  · intro hlaws hsep
    apply not_wellFormed_of_separator hsep
    rw [← hslug topic]
    exact hlaws.wellFormed
  · intro hsep
    have hcut : WellFormed (slugOf (slugWords (L.lower topic))) ∨
        SeparatorAt '-' 63 (slugWords (L.lower topic)) := take_join (areWords_words _) 63
    have hwell : WellFormed (PlanningState.slugifyTopic H topic) := by
      rw [hslug topic]
      exact hcut.resolve_right hsep
    have hlength : (PlanningState.slugifyTopic H topic).length ≤ 64 := by
      rw [hslug topic, slugOf, length_take]
      omega
    have hstable : PlanningState.slugifyTopic H (PlanningState.slugifyTopic H topic) =
        PlanningState.slugifyTopic H topic := by
      rw [hslug (PlanningState.slugifyTopic H topic)]
      exact slugOf_wellFormed hwell hlength
    have hagree : ∀ t, PlanningState.slugifyTopic H t = slugifyTopic L t := by
      intro t
      rw [hslug t, slugifyTopic_rust]
    refine ⟨hagree topic, hwell, hstable, ?_, ?_⟩
    · rw [← hagree topic, ← hagree, hstable]
    · intro pathJoin planningDir
      rw [topicDir, hstable, topicDir]

/-! ### A cut behind a hyphen -/

theorem isUpper_toLower (c : Char) : c.toLower.isUpper = false := by
  by_cases h : 65 ≤ c.toNat ∧ c.toNat ≤ 90
  · have hin : c.val ≥ 'A'.val ∧ c.val ≤ 'Z'.val := by
      rw [ge_iff_le, UInt32.le_iff_toNat_le, UInt32.le_iff_toNat_le]
      exact h
    have hmoved : c.toLower.toNat = c.toNat + 32 := by
      have hsum : (c.val + ('a'.val - 'A'.val)).toNat = (c.toNat + 32) % 2 ^ 32 :=
        UInt32.toNat_add _ _
      rw [Nat.mod_eq_of_lt (by omega)] at hsum
      rw [show c.toLower = _ from dif_pos hin]
      exact hsum
    have hiff := isUpper_iff (c := c.toLower)
    rw [hmoved] at hiff
    simpa using hiff.not.mpr (by omega)
  · have hiff := isUpper_iff (c := c)
    rw [toLower_of_not_upper h]
    simpa using hiff.not.mpr h

def plainLowering : LowerCasing where
  char c := [c.toLower]
  isFinal _ _ := false
  ascii _ _ := rfl
  space c h := by
    rw [toLower_of_not_upper]
    rcases h with h | h
    · have hrange := isSpace_range h
      omega
    · simp only [PolicyStore.isWhitespace, Bool.or_eq_true, Bool.and_eq_true, decide_eq_true_eq] at h
      omega
  notUpper c d hd := by
    rw [mem_singleton.mp hd]
    exact isUpper_toLower c

def loweringHost : Host := { plainHost with lowerCase := plainLowering.lower }

/-- A word of 63 letters, and another one. -/
def longTopic : Text := replicate 63 'a' ++ " b".toList

theorem slug_of_longTopic : ¬ SlugLaws loweringHost plainLowering longTopic := by
  intro hlaws
  have hmoved : PlanningState.slugifyTopic loweringHost
      (PlanningState.slugifyTopic loweringHost longTopic) ≠
        PlanningState.slugifyTopic loweringHost longTopic := by
    decide +kernel
  exact hmoved hlaws.stable

theorem slugLaws_of_two_words :
    loweringHost.lowerCase = plainLowering.lower ∧
      (SlugLaws loweringHost plainLowering "Add Login".toList ↔
        ¬ SeparatorAt '-' 63 (slugWords (plainLowering.lower "Add Login".toList))) :=
  ⟨rfl, slugLaws_iff rfl _⟩

end TopicSlug
