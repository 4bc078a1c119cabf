import FlowDeck.Library.JsonTokens

/-! Reading a `tsconfig.json`: `clean_jsonc` strips comments in a pass over characters and trailing
commas in a pass over bytes. -/

namespace BuildConfig

open JsonTokens Literal List

/-! ### `clean_jsonc` -/

/-- What the first pass is in; a string ends at the character it began with. -/
inductive Scan
  | plain
  | string (stringChar : Char) (escape : Bool)
  | lineComment
  | blockComment

/-- The first pass: comments are dropped, but for the end of a line, and both quotes begin a
string. -/
def stripComments : Scan → List Char → List Char
  | _, [] => []
  | .string stringChar escape, c :: rest =>
    c :: stripComments
      (if escape then .string stringChar false
      else if c = '\x5c' then .string stringChar true
      else if c = stringChar then .plain
      else .string stringChar false) rest
  | .lineComment, c :: rest =>
    if c = '\n' then '\n' :: stripComments .plain rest else stripComments .lineComment rest
  | .blockComment, '*' :: '/' :: rest => stripComments .plain rest
  | .blockComment, _ :: rest => stripComments .blockComment rest
  | .plain, '/' :: '/' :: rest => stripComments .lineComment rest
  | .plain, '/' :: '*' :: rest => stripComments .blockComment rest
  | .plain, c :: rest =>
    if c = '\x22' ∨ c = '\x27' then '\x22' :: stripComments (.string c false) rest
    else c :: stripComments .plain rest

section

variable (c : Char) (rest : List Char)

theorem stripComments_string (stringChar : Char) (escape : Bool) :
    stripComments (.string stringChar escape) (c :: rest) =
      c :: stripComments
        (if escape then .string stringChar false
        else if c = '\x5c' then .string stringChar true
        else if c = stringChar then .plain
        else .string stringChar false) rest := rfl

theorem stripComments_line : stripComments .lineComment (c :: rest) =
    if c = '\n' then '\n' :: stripComments .plain rest else stripComments .lineComment rest := rfl

theorem stripComments_opensLine :
    stripComments .plain ('/' :: '/' :: rest) = stripComments .lineComment rest := rfl

theorem stripComments_opensBlock :
    stripComments .plain ('/' :: '*' :: rest) = stripComments .blockComment rest := rfl

theorem stripComments_closesBlock :
    stripComments .blockComment ('*' :: '/' :: rest) = stripComments .plain rest := rfl

end

def isAsciiWhitespace (b : UInt8) : Bool :=
  b = 32 || b = 9 || b = 10 || b = 12 || b = 13

/-- The second pass: a comma is dropped where a closing bracket is next, and every other byte is
pushed as a character. -/
def stripTrailing : List UInt8 → List Char
  | [] => []
  | b :: rest =>
    if b = 44 ∧ (rest.dropWhile isAsciiWhitespace).head?.any (fun c => c = 125 || c = 93) = true then
      stripTrailing rest
    else Char.ofNat b.toNat :: stripTrailing rest

def cleanJsonc (input : List Char) : List Char :=
  stripTrailing ((stripComments .plain input).flatMap String.utf8EncodeChar)

/-! ### The second pass over characters -/

/-- The whitespace of ASCII. -/
def isAsciiSpace (c : Char) : Bool :=
  c = ' ' || c = '\t' || c = '\n' || c = '\u000c' || c = '\r'

def closesNext (s : List Char) : Bool :=
  (s.dropWhile isAsciiSpace).head?.any fun c => c = '\x7d' || c = ']'

/-- The bytes of a character, each as a character. -/
def byteChars (c : Char) : List Char := (String.utf8EncodeChar c).map fun b => Char.ofNat b.toNat

def strip : List Char → List Char
  | [] => []
  | c :: rest => if c = ',' ∧ closesNext rest = true then strip rest else byteChars c ++ strip rest

variable {c : Char} {s comment : List Char}

theorem utf8_ascii (h : c.toNat < 128) : String.utf8EncodeChar c = [UInt8.ofNat c.toNat] := by
  have hle : c.val.toNat ≤ 0x7f := by
    have hval : c.toNat = c.val.toNat := rfl
    omega
  rw [String.utf8EncodeChar]
  simp only [hle, if_true]
  rfl

/-- The bytes of any other character are none of ASCII, and more than it has code units. -/
theorem utf8_high (h : 128 ≤ c.toNat) :
    (∀ b ∈ String.utf8EncodeChar c, 128 ≤ b.toNat) ∧
      (codeUnits c).length < (String.utf8EncodeChar c).length := by
  have hval : c.toNat = c.val.toNat := rfl
  have hbyte : ∀ n, 128 ≤ n → n < 256 → 128 ≤ (UInt8.ofNat n).toNat := by
    intro n hlow hhigh
    rw [UInt8.toNat_ofNat_of_lt' hhigh]
    exact hlow
  rw [String.utf8EncodeChar, codeUnits]
  simp only [← hval]
  split_ifs with h1 h2 h3 h4 h5
  · omega
  · omega
  · refine ⟨?_, by simp⟩
    simp only [forall_mem_cons]
    exact ⟨hbyte _ (by omega) (by omega), hbyte _ (by omega) (by omega), forall_mem_nil _⟩
  · omega
  · refine ⟨?_, by simp⟩
    simp only [forall_mem_cons]
    exact ⟨hbyte _ (by omega) (by omega), hbyte _ (by omega) (by omega),
      hbyte _ (by omega) (by omega), forall_mem_nil _⟩
  · omega
  · omega
  · refine ⟨?_, by simp⟩
    simp only [forall_mem_cons]
    exact ⟨hbyte _ (by omega) (by omega), hbyte _ (by omega) (by omega),
      hbyte _ (by omega) (by omega), hbyte _ (by omega) (by omega), forall_mem_nil _⟩

theorem stripTrailing_high {bs : List UInt8} (rest : List UInt8) (h : ∀ b ∈ bs, 128 ≤ b.toNat) :
    stripTrailing (bs ++ rest) = bs.map (fun b => Char.ofNat b.toNat) ++ stripTrailing rest := by
  induction bs with
  | nil => rfl
  | cons b bs ih =>
    have hne : b ≠ 44 := by
      rintro rfl
      have hb := h 44 mem_cons_self
      revert hb
      decide
    rw [cons_append, stripTrailing, if_neg (fun hcomma => hne hcomma.1),
      ih fun d hd => h d (mem_cons_of_mem _ hd)]
    rfl

theorem ofNat_toNat_byte (h : c.toNat < 128) : Char.ofNat (UInt8.ofNat c.toNat).toNat = c := by
  have hbyte : c.toNat < 256 := by omega
  rw [UInt8.toNat_ofNat_of_lt' hbyte, Char.ofNat_toNat]

theorem byteChars_ascii (h : c.toNat < 128) : byteChars c = [c] := by
  rw [byteChars, utf8_ascii h, map_singleton, ofNat_toNat_byte h]

theorem byte_eq_iff {d : Char} (hc : c.toNat < 128) (hd : d.toNat < 128) :
    UInt8.ofNat c.toNat = UInt8.ofNat d.toNat ↔ c = d := by
  constructor
  · intro h
    rw [← ofNat_toNat_byte hc, ← ofNat_toNat_byte hd, h]
  · intro h
    rw [h]

theorem isAsciiWhitespace_iff (h : c.toNat < 128) :
    isAsciiWhitespace (UInt8.ofNat c.toNat) = isAsciiSpace c := by
  have hspace := byte_eq_iff (d := ' ') h (by decide)
  have htab := byte_eq_iff (d := '\t') h (by decide)
  have hfeed := byte_eq_iff (d := '\n') h (by decide)
  have hform := byte_eq_iff (d := '\u000c') h (by decide)
  have hreturn := byte_eq_iff (d := '\r') h (by decide)
  unfold isAsciiWhitespace isAsciiSpace
  simp only [← hspace, ← htab, ← hfeed, ← hform, ← hreturn]
  rfl

theorem isAsciiSpace_lt (h : isAsciiSpace c = true) : c.toNat < 128 := by
  simp only [isAsciiSpace, Bool.or_eq_true, decide_eq_true_eq] at h
  rcases h with (((rfl | rfl) | rfl) | rfl) | rfl <;> decide

/-- The bytes tell where a closing bracket is next. -/
theorem closesNext_eq (s : List Char) :
    (((s.flatMap String.utf8EncodeChar).dropWhile isAsciiWhitespace).head?.any
      fun c => c = 125 || c = 93) = closesNext s := by
  induction s with
  | nil => rfl
  | cons c s ih =>
    rw [flatMap_cons, closesNext]
    by_cases hascii : c.toNat < 128
    · rw [utf8_ascii hascii, singleton_append]
      by_cases hspace : isAsciiSpace c = true
      · rw [dropWhile_cons_of_pos ((isAsciiWhitespace_iff hascii).trans hspace),
          dropWhile_cons_of_pos hspace, ih]
        rfl
      · rw [dropWhile_cons_of_neg (by rw [isAsciiWhitespace_iff hascii]; exact hspace),
          dropWhile_cons_of_neg hspace]
        have hbrace := byte_eq_iff (d := '\x7d') hascii (by decide)
        have hbracket := byte_eq_iff (d := ']') hascii (by decide)
        simp only [head?_cons, Option.any_some, ← hbrace, ← hbracket]
        rfl
    · have hhigh := utf8_high (Nat.le_of_not_lt hascii)
      have hspace : ¬ isAsciiSpace c = true := fun h => hascii (isAsciiSpace_lt h)
      have hne : String.utf8EncodeChar c ≠ [] := by
        intro hnil
        rw [hnil] at hhigh
        exact absurd hhigh.2 (Nat.not_lt_zero _)
      obtain ⟨b, bs, hbytes⟩ := exists_cons_of_ne_nil hne
      have hb : 128 ≤ b.toNat := hhigh.1 b (hbytes ▸ mem_cons_self)
      have hother : ∀ d : UInt8, d.toNat < 128 → b ≠ d := by
        rintro d hd rfl
        omega
      have hblank : ¬ isAsciiWhitespace b = true := by
        simp [isAsciiWhitespace, hother 32 (by decide), hother 9 (by decide), hother 10 (by decide),
          hother 12 (by decide), hother 13 (by decide)]
      have hbrace : c ≠ '\x7d' := by
        rintro rfl
        exact hascii (by decide)
      have hbracket : c ≠ ']' := by
        rintro rfl
        exact hascii (by decide)
      rw [hbytes, cons_append, dropWhile_cons_of_neg hblank, dropWhile_cons_of_neg hspace]
      simp [hother 125 (by decide), hother 93 (by decide), hbrace, hbracket]

/-- The second pass, over characters. -/
theorem stripTrailing_eq (s : List Char) :
    stripTrailing (s.flatMap String.utf8EncodeChar) = strip s := by
  induction s with
  | nil => rfl
  | cons c s ih =>
    rw [flatMap_cons, strip]
    by_cases hascii : c.toNat < 128
    · have hcomma := byte_eq_iff (d := ',') hascii (by decide)
      have hbyte : UInt8.ofNat c.toNat = 44 ↔ c = ',' := hcomma
      rw [utf8_ascii hascii, singleton_append, stripTrailing, closesNext_eq, ih,
        byteChars_ascii hascii, ofNat_toNat_byte hascii]
      simp only [hbyte]
      rfl
    · have hne : c ≠ ',' := by
        rintro rfl
        exact hascii (by decide)
      have hhigh := (utf8_high (Nat.le_of_not_lt hascii)).1
      rw [stripTrailing_high _ hhigh, ih, if_neg (fun hcomma => hne hcomma.1), byteChars]

/-! ### String literals in the second pass -/

/-- The second pass leaves a text: it is ASCII, and no closing bracket is next behind a comma. -/
structure Kept (s : List Char) : Prop where
  ascii : ∀ c ∈ s, c.toNat < 128
  commas : ∀ before rest, s = before ++ ',' :: rest → closesNext rest = false

theorem kept_nil : Kept [] := by
  refine ⟨forall_mem_nil _, ?_⟩
  intro before rest h
  simp at h

theorem kept_cons : Kept (c :: s) ↔ c.toNat < 128 ∧ (c = ',' → closesNext s = false) ∧ Kept s := by
  constructor
  · intro h
    refine ⟨h.ascii c mem_cons_self, ?_, ?_, ?_⟩
    · intro hcomma
      exact h.commas [] s (by rw [hcomma]; rfl)
    · intro d hd
      exact h.ascii d (mem_cons_of_mem _ hd)
    · intro before rest hs
      exact h.commas (c :: before) rest (by rw [hs, cons_append])
  · intro h
    obtain ⟨hascii, hcomma, hrest⟩ := h
    refine ⟨forall_mem_cons.mpr ⟨hascii, hrest.ascii⟩, ?_⟩
    intro before rest hs
    cases before with
    | nil =>
      obtain ⟨rfl, rfl⟩ := cons.inj hs
      exact hcomma rfl
    | cons d before => exact hrest.commas before rest (cons.inj hs).2

theorem byteChars_high (h : 128 ≤ c.toNat) : ∀ d ∈ byteChars c, 128 ≤ d.toNat ∧ d.toNat < 256 := by
  intro d hd
  obtain ⟨b, hb, rfl⟩ := mem_map.mp hd
  have hlow := (utf8_high h).1 b hb
  have hhigh : b.toNat < 256 := b.toNat_lt
  have hvalid : b.toNat.isValidChar := Or.inl (by omega)
  have hchar : (Char.ofNat b.toNat).toNat = b.toNat := by
    rw [Char.ofNat, dif_pos hvalid]
    rfl
  rw [hchar]
  exact ⟨hlow, hhigh⟩

theorem isPlain_byteChars (h : isPlain c = true) : ∀ d ∈ byteChars c, isPlain d = true := by
  intro d hd
  by_cases hascii : c.toNat < 128
  · rw [byteChars_ascii hascii, mem_singleton] at hd
    rw [hd]
    exact h
  · have hlow := (byteChars_high (Nat.le_of_not_lt hascii) d hd).1
    have hquote : d ≠ '\x22' := by
      rintro rfl
      revert hlow
      decide
    have hbackslash : d ≠ '\x5c' := by
      rintro rfl
      revert hlow
      decide
    have hprint : 32 ≤ d.toNat := by omega
    simp [isPlain, hprint, hquote, hbackslash]

/-- A literal as the second pass leaves it. -/
def stripPieces : Literal → Literal
  | [] => []
  | .plain c h :: rest =>
    if c = ',' ∧ closesNext (text rest) = true then stripPieces rest
    else (byteChars c).pmap Piece.plain (isPlain_byteChars h) ++ stripPieces rest
  | .escaped c h :: rest => .escaped c h :: stripPieces rest
  | .unicode digits hlength h :: rest => .unicode digits hlength h :: stripPieces rest

/-- How many commas the second pass drops from a literal. -/
def dropped : Literal → Nat
  | [] => 0
  | .plain c _ :: rest =>
    (if c = ',' ∧ closesNext (text rest) = true then 1 else 0) + dropped rest
  | .escaped _ _ :: rest => dropped rest
  | .unicode _ _ _ :: rest => dropped rest

/-- How many code units a literal has more when its bytes are read as characters. -/
def extra : Literal → Nat
  | [] => 0
  | .plain c _ :: rest => ((byteChars c).length - (codeUnits c).length) + extra rest
  | .escaped _ _ :: rest => extra rest
  | .unicode _ _ _ :: rest => extra rest

theorem strip_ascii (rest : List Char) (hascii : c.toNat < 128) (hcomma : c ≠ ',') :
    strip (c :: rest) = c :: strip rest := by
  rw [strip, if_neg (fun h => hcomma h.1), byteChars_ascii hascii, singleton_append]

theorem escaped_range (h : (escaped? c).isSome = true) : c.toNat < 128 ∧ c ≠ ',' := by
  by_contra hnot
  have hne : ∀ d : Char, d.toNat < 128 ∧ d ≠ ',' → c ≠ d := by
    rintro d hd rfl
    exact hnot hd
  simp [escaped?, hne '\x22' (by decide), hne '\x5c' (by decide), hne '/' (by decide),
    hne 'b' (by decide), hne 'f' (by decide), hne 'n' (by decide), hne 'r' (by decide),
    hne 't' (by decide)] at h

theorem hexDigit_range (h : (hexDigit? c).isSome = true) : c.toNat < 128 ∧ c ≠ ',' := by
  have hval : c.toNat = c.val.toNat := rfl
  have hne : c ≠ ',' := by
    rintro rfl
    revert h
    decide
  refine ⟨?_, hne⟩
  unfold hexDigit? at h
  split_ifs at h with hdigit hlower hupper
  · simp only [Char.isDigit, Bool.and_eq_true, decide_eq_true_eq] at hdigit
    have hle := UInt32.le_iff_toNat_le.mp hdigit.2
    have hnine : '9'.val.toNat = 57 := rfl
    omega
  · have hle := UInt32.le_iff_toNat_le.mp (Char.le_def.mp hlower.2)
    have hf : 'f'.val.toNat = 102 := rfl
    omega
  · have hle := UInt32.le_iff_toNat_le.mp (Char.le_def.mp hupper.2)
    have hF : 'F'.val.toNat = 70 := rfl
    omega
  · cases h

/-- A piece that the second pass leaves, wherever it stands. -/
structure Fixed (p : Piece) : Prop where
  text : ∀ c ∈ p.text, c.toNat < 128 ∧ c ≠ ','
  stays : ∀ rest, stripPieces (p :: rest) = p :: stripPieces rest
  dropped : ∀ rest, dropped (p :: rest) = BuildConfig.dropped rest
  extra : ∀ rest, extra (p :: rest) = BuildConfig.extra rest

theorem fixed_escaped {c : Char} (h : (escaped? c).isSome = true) : Fixed (.escaped c h) where
  text := forall_mem_cons.mpr ⟨by decide, forall_mem_singleton.mpr (escaped_range h)⟩
  stays _ := by rw [stripPieces]
  dropped _ := rfl
  extra _ := rfl

theorem fixed_unicode {digits : List Char} (hlength : digits.length = 4)
    (h : ∀ c ∈ digits, (hexDigit? c).isSome = true) : Fixed (.unicode digits hlength h) where
  text := forall_mem_cons.mpr ⟨by decide, forall_mem_cons.mpr ⟨by decide,
    fun c hc => hexDigit_range (h c hc)⟩⟩
  stays _ := by rw [stripPieces]
  dropped _ := rfl
  extra _ := rfl

/-- A piece is a character that stands for itself, or it is fixed. -/
theorem Piece.plain_or_fixed (p : Piece) : (∃ c h, p = .plain c h) ∨ Fixed p := by
  cases p with
  | plain c h => exact Or.inl ⟨c, h, rfl⟩
  | escaped c h => exact Or.inr (fixed_escaped h)
  | unicode digits hlength h => exact Or.inr (fixed_unicode hlength h)

theorem text_cons (p : Piece) (s : Literal) : text (p :: s) = p.text ++ text s := rfl

theorem units_cons (p : Piece) (s : Literal) :
    units (p :: s) = p.units ++ units s := rfl

theorem strip_all (rest : List Char) (h : ∀ c ∈ s, c.toNat < 128 ∧ c ≠ ',') :
    strip (s ++ rest) = s ++ strip rest := by
  induction s with
  | nil => rfl
  | cons c s ih =>
    have hc := h c mem_cons_self
    rw [cons_append, strip_ascii _ hc.1 hc.2, ih fun d hd => h d (mem_cons_of_mem _ hd),
      cons_append]

theorem flatMap_pmap_plain {cs : List Char} (h : ∀ c ∈ cs, isPlain c = true) :
    (cs.pmap Piece.plain h).flatMap Piece.text = cs := by
  induction cs with
  | nil => rfl
  | cons c cs ih =>
    rw [pmap_cons, flatMap_cons, ih]
    rfl

theorem text_stripPieces (s : Literal) : (stripPieces s).text = strip s.text := by
  induction s with
  | nil => rfl
  | cons p s ih =>
    rcases Piece.plain_or_fixed p with ⟨c, h, rfl⟩ | hfixed
    · have htext : text (.plain c h :: s) = c :: text s := rfl
      rw [htext, strip, stripPieces]
      split_ifs with hdropped
      · exact ih
      · rw [text, flatMap_append, flatMap_pmap_plain]
        exact congrArg _ ih
    · rw [hfixed.stays, text_cons, text_cons, strip_all _ hfixed.text, ih]

/-- The commas of ASCII among some code units. -/
def commas (units : List Nat) : Nat := units.count 44

theorem codeUnits_low (h : c.toNat < 0x10000) : codeUnits c = [c.toNat] := by
  rw [codeUnits, if_pos h]

theorem units_pmap_plain {cs : List Char} (h : ∀ c ∈ cs, isPlain c = true)
    (hlow : ∀ c ∈ cs, c.toNat < 256) :
    (cs.pmap Piece.plain h).flatMap Piece.units = cs.map Char.toNat := by
  induction cs with
  | nil => rfl
  | cons c cs ih =>
    have hc : c.toNat < 0x10000 := by
      have hbyte := hlow c mem_cons_self
      omega
    rw [pmap_cons, flatMap_cons, ih _ fun d hd => hlow d (mem_cons_of_mem _ hd)]
    exact congrArg (· ++ cs.map Char.toNat) (codeUnits_low hc)

theorem byteChars_low (c : Char) : ∀ d ∈ byteChars c, d.toNat < 256 := by
  intro d hd
  by_cases hascii : c.toNat < 128
  · rw [byteChars_ascii hascii, mem_singleton] at hd
    rw [hd]
    omega
  · exact (byteChars_high (Nat.le_of_not_lt hascii) d hd).2

theorem commas_byteChars (c : Char) : commas ((byteChars c).map Char.toNat) = commas (codeUnits c) := by
  by_cases hascii : c.toNat < 128
  · rw [byteChars_ascii hascii, codeUnits_low (by omega)]
    rfl
  · have hleft : commas ((byteChars c).map Char.toNat) = 0 := by
      apply count_eq_zero.mpr
      intro hmem
      obtain ⟨d, hd, hcomma⟩ := mem_map.mp hmem
      have hlow := (byteChars_high (Nat.le_of_not_lt hascii) d hd).1
      omega
    have hright : commas (codeUnits c) = 0 := by
      apply count_eq_zero.mpr
      unfold codeUnits
      split_ifs with hsmall
      · intro hmem
        have heq := mem_singleton.mp hmem
        omega
      · intro hmem
        simp only [mem_cons, not_mem_nil, or_false] at hmem
        omega
    rw [hleft, hright]

theorem length_byteChars (c : Char) :
    (byteChars c).length = (codeUnits c).length + ((byteChars c).length - (codeUnits c).length) ∧
      ((byteChars c).length - (codeUnits c).length = 0 ↔ c.toNat < 128) := by
  by_cases hascii : c.toNat < 128
  · rw [byteChars_ascii hascii, codeUnits_low (by omega)]
    simp [hascii]
  · have hmore := (utf8_high (Nat.le_of_not_lt hascii)).2
    have hlength : (byteChars c).length = (String.utf8EncodeChar c).length := length_map _
    omega

theorem units_bytes (c : Char) (h : isPlain c = true) (s : Literal) :
    units ((byteChars c).pmap Piece.plain (isPlain_byteChars h) ++ s) =
      (byteChars c).map Char.toNat ++ units s := by
  rw [units, flatMap_append, units_pmap_plain _ (byteChars_low c)]
  rfl

theorem commas_append (us vs : List Nat) : commas (us ++ vs) = commas us + commas vs :=
  count_append

/-- The commas of a literal are those the second pass leaves and those it drops. -/
theorem commas_stripPieces (s : Literal) :
    commas (stripPieces s).units + dropped s = commas s.units := by
  induction s with
  | nil => rfl
  | cons p s ih =>
    rcases Piece.plain_or_fixed p with ⟨c, h, rfl⟩ | hfixed
    · have hunits : Piece.units (.plain c h) = codeUnits c := rfl
      rw [units_cons, commas_append, hunits, stripPieces, dropped]
      split_ifs with hdropped
      · have hone : commas (codeUnits c) = 1 := by
          rw [hdropped.1]
          rfl
        omega
      · rw [units_bytes c h, commas_append, commas_byteChars]
        omega
    · rw [hfixed.stays, hfixed.dropped, units_cons, units_cons, commas_append, commas_append]
      omega

/-- Its length is what it was, less the commas that are dropped, and what the bytes add. -/
theorem length_stripPieces (s : Literal) :
    (stripPieces s).units.length + dropped s = s.units.length + extra s := by
  induction s with
  | nil => rfl
  | cons p s ih =>
    rcases Piece.plain_or_fixed p with ⟨c, h, rfl⟩ | hfixed
    · have hunits : Piece.units (.plain c h) = codeUnits c := rfl
      obtain ⟨hlength, hascii⟩ := length_byteChars c
      rw [units_cons, length_append, hunits, stripPieces, dropped, extra]
      split_ifs with hdropped
      · have hone : c.toNat < 128 := by
          rw [hdropped.1]
          decide
        have hunit : (codeUnits c).length = 1 := by
          rw [hdropped.1]
          rfl
        have hnone := hascii.mpr hone
        omega
      · rw [units_bytes c h, length_append, length_map]
        omega
    · rw [hfixed.stays, hfixed.dropped, hfixed.extra, units_cons, units_cons, length_append,
        length_append]
      omega

theorem kept_ascii {rest : List Char} (h : ∀ c ∈ s, c.toNat < 128 ∧ c ≠ ',') :
    Kept (s ++ rest) ↔ Kept rest := by
  induction s with
  | nil => rfl
  | cons c s ih =>
    have hc := h c mem_cons_self
    rw [cons_append, kept_cons, ih fun d hd => h d (mem_cons_of_mem _ hd)]
    simp [hc.1, hc.2]

theorem kept_iff (s : Literal) : Kept s.text ↔ dropped s = 0 ∧ extra s = 0 := by
  induction s with
  | nil => simp [text, kept_nil, dropped, extra]
  | cons p s ih =>
    rcases Piece.plain_or_fixed p with ⟨c, h, rfl⟩ | hfixed
    · have htext : text (.plain c h :: s) = c :: text s := rfl
      have hascii := (length_byteChars c).2
      rw [htext, kept_cons, ih, dropped, extra, ← hascii]
      by_cases hdropped : c = ',' ∧ closesNext (text s) = true
      · simp [hdropped]
      · have hcomma : c = ',' → closesNext (text s) = false := by
          intro hc
          by_contra hnot
          exact hdropped ⟨hc, by simpa using hnot⟩
        rw [if_neg hdropped]
        constructor
        · intro hkept
          omega
        · intro hzero
          exact ⟨by omega, hcomma, by omega, by omega⟩
    · rw [text_cons, kept_ascii hfixed.text, ih, hfixed.dropped, hfixed.extra]

theorem stripPieces_of_kept {s : Literal} (h : Kept s.text) : stripPieces s = s := by
  induction s with
  | nil => rfl
  | cons p s ih =>
    rcases Piece.plain_or_fixed p with ⟨c, hplain, rfl⟩ | hfixed
    · have htext : text (.plain c hplain :: s) = c :: text s := rfl
      rw [htext, kept_cons] at h
      have hstays : ¬ (c = ',' ∧ closesNext (text s) = true) := by
        intro hdropped
        rw [h.2.1 hdropped.1] at hdropped
        cases hdropped.2
      have hbytes : (byteChars c).pmap Piece.plain (isPlain_byteChars hplain) =
          [.plain c hplain] := by
        simp only [byteChars_ascii h.1, pmap_cons, pmap_nil]
      rw [stripPieces, if_neg hstays, hbytes, ih h.2.2]
      rfl
    · rw [text_cons, kept_ascii hfixed.text] at h
      rw [hfixed.stays, ih h]

/-- The second pass leaves the string of a literal exactly where it leaves its text. -/
theorem units_stripPieces_iff (s : Literal) : (stripPieces s).units = s.units ↔ Kept s.text := by
  constructor
  · intro hunits
    have hcommas := commas_stripPieces s
    have hlength := length_stripPieces s
    rw [hunits] at hcommas hlength
    rw [kept_iff]
    omega
  · intro hkept
    rw [stripPieces_of_kept hkept]

/-! ### JSONC texts -/

/-- What stands between two tokens: a blank or a comment. -/
inductive Gap
  | blank (c : Char) (h : isBlank c = true)
  | line (comment : List Char) (h : '\n' ∉ comment)
  | block (comment : List Char) (h : ¬ ['*', '/'] <:+: comment)

def Gap.text : Gap → List Char
  | .blank c _ => [c]
  | .line comment _ => '/' :: '/' :: (comment ++ ['\n'])
  | .block comment _ => '/' :: '*' :: (comment ++ ['*', '/'])

def Gap.blanks : Gap → List Char
  | .blank c _ => [c]
  | .line _ _ => ['\n']
  | .block _ _ => []

def gapText (gaps : List Gap) : List Char := gaps.flatMap Gap.text

def gapBlanks (gaps : List Gap) : List Char := gaps.flatMap Gap.blanks

/-- A token with the gap in front of it; a closing bracket may have a trailing comma in front of it,
with a gap of its own. -/
structure Part where
  gap : List Gap
  comma : Option (List Gap)
  token : Token Literal
  trailing : comma.isSome = true → ∃ p, token = .punct p ∧ p.closes = true

def Part.text (p : Part) : List Char :=
  gapText p.gap ++ ((p.comma.toList.flatMap fun gap => ',' :: gapText gap) ++ p.token.text)

/-- A text with comments and trailing commas; the last comment need not end in a line feed. -/
structure Jsonc where
  parts : List Part
  final : List Gap
  comment : Option (List Char)
  line : ∀ text ∈ comment, '\n' ∉ text

def Jsonc.text (d : Jsonc) : List Char :=
  d.parts.flatMap Part.text ++
    (gapText d.final ++ d.comment.toList.flatMap fun text => '/' :: '/' :: text)

/-- The tokens without the trailing commas. -/
def Jsonc.tokens (d : Jsonc) : List (Token Literal) := d.parts.map Part.token

/-! ### The first pass -/

/-- A character that the first pass leaves where it is in no string. -/
def Inert (c : Char) : Prop := c ≠ '/' ∧ c ≠ '\x22' ∧ c ≠ '\x27'

theorem scan_inert (rest : List Char) (h : Inert c) :
    stripComments .plain (c :: rest) = c :: stripComments .plain rest := by
  obtain ⟨hslash, hquote, hsingle⟩ := h
  rw [stripComments]
  · rw [if_neg (by simp [hquote, hsingle])]
  · intro rest' hline
    exact fun _ => hslash hline
  · intro rest' hblock
    exact fun _ => hslash hblock

theorem scan_inerts (rest : List Char) (h : ∀ c ∈ s, Inert c) :
    stripComments .plain (s ++ rest) = s ++ stripComments .plain rest := by
  induction s with
  | nil => rfl
  | cons c s ih =>
    rw [cons_append, scan_inert _ (h c mem_cons_self),
      ih fun d hd => h d (mem_cons_of_mem _ hd), cons_append]

theorem scan_unescaped (rest : List Char) (hbackslash : c ≠ '\x5c') (hquote : c ≠ '\x22') :
    stripComments (.string '\x22' false) (c :: rest) =
      c :: stripComments (.string '\x22' false) rest := by
  rw [stripComments_string, if_neg Bool.false_ne_true, if_neg hbackslash, if_neg hquote]

theorem scan_piece (p : Piece) (rest : List Char) :
    stripComments (.string '\x22' false) (p.text ++ rest) =
      p.text ++ stripComments (.string '\x22' false) rest := by
  have hescape : ∀ (c : Char) (rest : List Char),
      stripComments (.string '\x22' false) ('\x5c' :: c :: rest) =
        '\x5c' :: c :: stripComments (.string '\x22' false) rest := by
    intro c rest
    rw [stripComments_string, if_neg Bool.false_ne_true, if_pos rfl, stripComments_string,
      if_pos rfl]
  cases p with
  | plain c h =>
    have hplain : c ≠ '\x22' ∧ c ≠ '\x5c' := by
      simp only [isPlain, Bool.and_eq_true, decide_eq_true_eq] at h
      exact ⟨h.1.2, h.2⟩
    exact scan_unescaped rest hplain.2 hplain.1
  | escaped c h => exact hescape c rest
  | unicode digits hlength h =>
    have hdigits : ∀ {ds : List Char}, (∀ c ∈ ds, (hexDigit? c).isSome = true) →
        stripComments (.string '\x22' false) (ds ++ rest) =
          ds ++ stripComments (.string '\x22' false) rest := by
      intro ds hds
      induction ds with
      | nil => rfl
      | cons d ds ih =>
        have hd := hds d mem_cons_self
        have hbackslash : d ≠ '\x5c' := by
          rintro rfl
          revert hd
          decide
        have hquote : d ≠ '\x22' := by
          rintro rfl
          revert hd
          decide
        rw [cons_append, scan_unescaped _ hbackslash hquote,
          ih fun c hc => hds c (mem_cons_of_mem _ hc), cons_append]
    have htext : Piece.text (.unicode digits hlength h) ++ rest = '\x5c' :: 'u' :: (digits ++ rest) :=
      rfl
    rw [htext, hescape, hdigits h]
    rfl

/-- The first pass leaves the contents of a string. -/
theorem scan_literal (s : Literal) (rest : List Char) :
    stripComments (.string '\x22' false) (s.text ++ '\x22' :: rest) =
      s.text ++ '\x22' :: stripComments .plain rest := by
  induction s with
  | nil => rfl
  | cons p s ih => rw [text_cons, append_assoc, scan_piece, ih, append_assoc]

theorem isWordChar_range (h : isWordChar c = true) : 43 ≤ c.toNat ∧ c.toNat ≤ 122 := by
  simp only [isWordChar, Bool.or_eq_true, decide_eq_true_eq] at h
  rcases h with ((h | rfl) | rfl) | rfl
  · have hrange := TextLines.toNat_of_isAlphanum h
    omega
  all_goals decide

theorem isWordChar_ne {d : Char} (hd : isWordChar d = false) (h : isWordChar c = true) : c ≠ d := by
  rintro rfl
  rw [hd] at h
  cases h

theorem scan_token (a : Token Literal) (rest : List Char) :
    stripComments .plain (a.text ++ rest) = a.text ++ stripComments .plain rest := by
  cases a with
  | punct p =>
    have hinert : Inert p.char := by
      unfold Inert
      cases p <;> decide
    exact scan_inert rest hinert
  | word w =>
    refine scan_inerts rest fun c hc => ?_
    have hword := w.chars c hc
    exact ⟨isWordChar_ne (by decide) hword, isWordChar_ne (by decide) hword,
      isWordChar_ne (by decide) hword⟩
  | str s =>
    have hopen : ∀ us : List Char, stripComments .plain ('\x22' :: us) =
        '\x22' :: stripComments (.string '\x22' false) us := by
      intro us
      rfl
    rw [Token.text, cons_append, hopen, append_assoc, singleton_append, scan_literal]
    simp

theorem scan_lineComment (rest : List Char) (h : '\n' ∉ comment) :
    stripComments .lineComment (comment ++ '\n' :: rest) = '\n' :: stripComments .plain rest := by
  induction comment with
  | nil => rw [nil_append, stripComments_line, if_pos rfl]
  | cons c comment ih =>
    rw [mem_cons, not_or] at h
    rw [cons_append, stripComments_line, if_neg (Ne.symm h.1), ih h.2]

theorem scan_lastComment (h : '\n' ∉ comment) : stripComments .lineComment comment = [] := by
  induction comment with
  | nil => rfl
  | cons c comment ih =>
    rw [mem_cons, not_or] at h
    rw [stripComments_line, if_neg (Ne.symm h.1), ih h.2]

theorem scan_blockComment (rest : List Char) (h : ¬ ['*', '/'] <:+: comment) :
    stripComments .blockComment (comment ++ '*' :: '/' :: rest) = stripComments .plain rest := by
  induction comment with
  | nil => rw [nil_append, stripComments_closesBlock]
  | cons c comment ih =>
    have hrest : ¬ ['*', '/'] <:+: comment := fun hin => h (infix_cons hin)
    rw [cons_append, stripComments, ih hrest]
    intro rest' hstar hslash
    cases comment with
    | nil => cases (cons.inj hslash).1
    | cons d comment =>
      obtain ⟨hd, -⟩ := cons.inj hslash
      apply h
      rw [hstar, hd]
      exact ⟨[], comment, rfl⟩

theorem scan_gap (gaps : List Gap) (rest : List Char) :
    stripComments .plain (gapText gaps ++ rest) = gapBlanks gaps ++ stripComments .plain rest := by
  induction gaps with
  | nil => rfl
  | cons g gaps ih =>
    have htext : gapText (g :: gaps) ++ rest = g.text ++ (gapText gaps ++ rest) := by
      simp [gapText]
    have hblanks : gapBlanks (g :: gaps) = g.blanks ++ gapBlanks gaps := rfl
    rw [htext, hblanks, append_assoc, ← ih]
    generalize gapText gaps ++ rest = us
    cases g with
    | blank c h =>
      have hinert : Inert c := by
        simp only [isBlank, Bool.or_eq_true, decide_eq_true_eq] at h
        unfold Inert
        rcases h with ((rfl | rfl) | rfl) | rfl <;> decide
      exact scan_inert us hinert
    | line comment h =>
      have hline : Gap.text (.line comment h) ++ us = '/' :: '/' :: (comment ++ '\n' :: us) := by
        simp [Gap.text]
      rw [hline, stripComments_opensLine, scan_lineComment us h]
      rfl
    | block comment h =>
      have hblock : Gap.text (.block comment h) ++ us =
          '/' :: '*' :: (comment ++ '*' :: '/' :: us) := by
        simp [Gap.text]
      rw [hblock, stripComments_opensBlock, scan_blockComment us h]
      rfl

/-- A part once the comments are gone. -/
def Part.bare (p : Part) : List Char :=
  gapBlanks p.gap ++ ((p.comma.toList.flatMap fun gap => ',' :: gapBlanks gap) ++ p.token.text)

theorem scan_part (p : Part) (rest : List Char) :
    stripComments .plain (p.text ++ rest) = p.bare ++ stripComments .plain rest := by
  have hinert : Inert ',' := by
    unfold Inert
    decide
  rw [Part.text, Part.bare, append_assoc, scan_gap, append_assoc, append_assoc, append_assoc]
  cases p.comma with
  | none => exact congrArg _ (scan_token p.token rest)
  | some gap =>
    have htoken := scan_token p.token rest
    simp only [Option.toList_some, flatMap_singleton, cons_append]
    rw [scan_inert _ hinert, scan_gap, htoken]

/-- The first pass leaves the blanks and the tokens. -/
theorem scan_text (d : Jsonc) :
    stripComments .plain d.text = d.parts.flatMap Part.bare ++ gapBlanks d.final := by
  have hparts : ∀ (parts : List Part) (rest : List Char),
      stripComments .plain (parts.flatMap Part.text ++ rest) =
        parts.flatMap Part.bare ++ stripComments .plain rest := by
    intro parts rest
    induction parts with
    | nil => rfl
    | cons p parts ih =>
      rw [flatMap_cons, flatMap_cons, append_assoc, scan_part, ih, append_assoc]
  have hlast : stripComments .plain (d.comment.toList.flatMap fun text => '/' :: '/' :: text) = [] := by
    cases hcomment : d.comment with
    | none => rfl
    | some text =>
      have htext : (some text).toList.flatMap (fun text => '/' :: '/' :: text) =
          '/' :: '/' :: text := by
        simp
      rw [htext, stripComments_opensLine]
      exact scan_lastComment (d.line text hcomment)
  rw [Jsonc.text, hparts, scan_gap, hlast, append_nil]

/-! ### The second pass over the parts -/

theorem isBlank_range (h : isBlank c = true) :
    (c.toNat < 128 ∧ c ≠ ',') ∧ isAsciiSpace c = true := by
  simp only [isBlank, Bool.or_eq_true, decide_eq_true_eq] at h
  rcases h with ((rfl | rfl) | rfl) | rfl <;> decide

theorem gapBlanks_blank (gaps : List Gap) : ∀ c ∈ gapBlanks gaps, isBlank c = true := by
  intro c hc
  obtain ⟨g, -, hg⟩ := mem_flatMap.mp hc
  cases g with
  | blank d h =>
    rw [mem_singleton.mp hg]
    exact h
  | line comment h =>
    rw [mem_singleton.mp hg]
    decide
  | block comment h => cases hg

def closes : Token Literal → Bool
  | .punct p => p.closes
  | _ => false

theorem closesNext_token {gap : List Char} (a : Token Literal) (us : List Char)
    (hgap : ∀ c ∈ gap, isBlank c = true) : closesNext (gap ++ (a.text ++ us)) = closes a := by
  have hskip : (gap ++ (a.text ++ us)).dropWhile isAsciiSpace =
      (a.text ++ us).dropWhile isAsciiSpace :=
    dropWhile_append_of_pos fun c hc => (isBlank_range (hgap c hc)).2
  have hother : ∀ {c : Char} {rest : List Char}, isAsciiSpace c = false →
      ((c :: rest).dropWhile isAsciiSpace).head? = some c := by
    intro c rest hc
    rw [dropWhile_cons_of_neg (by simp [hc])]
    rfl
  rw [closesNext, hskip]
  cases a with
  | punct p =>
    have hspace : isAsciiSpace p.char = false := by
      cases p <;> decide
    rw [Token.text, singleton_append, hother hspace]
    cases p <;> decide
  | word w =>
    obtain ⟨c, rest, hparts⟩ := exists_cons_of_ne_nil w.printed
    have hc : isWordChar c = true := w.chars c (hparts ▸ mem_cons_self)
    have hspace : isAsciiSpace c = false := by
      by_contra hnot
      simp only [isAsciiSpace, Bool.not_eq_false, Bool.or_eq_true, decide_eq_true_eq] at hnot
      rcases hnot with (((rfl | rfl) | rfl) | rfl) | rfl <;> revert hc <;> decide
    have hbrace : c ≠ '\x7d' := isWordChar_ne (by decide) hc
    have hbracket : c ≠ ']' := isWordChar_ne (by decide) hc
    rw [Token.text, hparts, cons_append, hother hspace]
    simp [closes, hbrace, hbracket]
  | str s =>
    rw [Token.text, cons_append, hother (by decide)]
    rfl

theorem strip_quote (s rest : List Char) :
    strip (s ++ '\x22' :: rest) = strip s ++ '\x22' :: strip rest := by
  have hnext : ∀ s : List Char, closesNext (s ++ '\x22' :: rest) = closesNext s := by
    intro s
    induction s with
    | nil => rfl
    | cons c s ih =>
      rw [cons_append, closesNext, closesNext]
      by_cases hspace : isAsciiSpace c = true
      · rw [dropWhile_cons_of_pos hspace, dropWhile_cons_of_pos hspace]
        exact ih
      · rw [dropWhile_cons_of_neg hspace, dropWhile_cons_of_neg hspace]
        rfl
  induction s with
  | nil => exact strip_ascii rest (by decide) (by decide)
  | cons c s ih =>
    rw [cons_append, strip, strip, hnext, ih]
    split_ifs
    · rfl
    · rw [append_assoc]

theorem strip_token (a : Token Literal) (rest : List Char)
    (h : a = .punct .comma → closesNext rest = false) :
    strip (a.text ++ rest) = (a.map stripPieces).text ++ strip rest := by
  cases a with
  | punct p =>
    have hascii : p.char.toNat < 128 := by
      cases p <;> decide
    by_cases hcomma : p = .comma
    · have hnext := h (congrArg Token.punct hcomma)
      rw [Token.text, singleton_append, strip, if_neg (fun hdrop => by
        rw [hnext] at hdrop
        cases hdrop.2), byteChars_ascii hascii]
      rfl
    · have hne : p.char ≠ ',' := fun hchar => hcomma (Punct.char_inj hchar)
      exact strip_ascii rest hascii hne
  | word w =>
    refine strip_all rest fun c hc => ?_
    have hword := w.chars c hc
    have hrange := isWordChar_range hword
    exact ⟨by omega, isWordChar_ne (by decide) hword⟩
  | str s =>
    have hopen := strip_ascii (s.text ++ '\x22' :: rest) (c := '\x22') (by decide) (by decide)
    rw [Token.text, cons_append, append_assoc, singleton_append, hopen, strip_quote,
      ← text_stripPieces]
    simp [Token.map, Token.text]

/-- The blanks that are left in front of a token. -/
def Part.blanks (p : Part) : List Char := gapBlanks p.gap ++ p.comma.toList.flatMap gapBlanks

theorem Part.blanks_blank (p : Part) : ∀ c ∈ p.blanks, isBlank c = true := by
  intro c hc
  rcases mem_append.mp hc with hc | hc
  · exact gapBlanks_blank p.gap c hc
  · obtain ⟨gap, -, hmem⟩ := mem_flatMap.mp hc
    exact gapBlanks_blank gap c hmem

theorem strip_blanks {gap : List Char} (rest : List Char) (h : ∀ c ∈ gap, isBlank c = true) :
    strip (gap ++ rest) = gap ++ strip rest :=
  strip_all rest fun c hc => (isBlank_range (h c hc)).1

theorem strip_part (p : Part) (rest : List Char)
    (h : p.token = .punct .comma → closesNext rest = false) :
    strip (p.bare ++ rest) = p.blanks ++ ((p.token.map stripPieces).text ++ strip rest) := by
  have htoken := strip_token p.token rest h
  have hgap := gapBlanks_blank p.gap
  cases hcomma : p.comma with
  | none =>
    have hbare : p.bare ++ rest = gapBlanks p.gap ++ (p.token.text ++ rest) := by
      simp [Part.bare, hcomma]
    have hblanks : p.blanks = gapBlanks p.gap := by
      simp [Part.blanks, hcomma]
    rw [hbare, hblanks, strip_blanks _ hgap, htoken]
  | some gap =>
    have hbare : p.bare ++ rest =
        gapBlanks p.gap ++ ',' :: (gapBlanks gap ++ (p.token.text ++ rest)) := by
      simp [Part.bare, hcomma]
    have hblanks : p.blanks = gapBlanks p.gap ++ gapBlanks gap := by
      simp [Part.blanks, hcomma]
    have hcloses : closes p.token = true := by
      obtain ⟨q, hq, hcloses⟩ := p.trailing (by rw [hcomma]; rfl)
      rw [hq]
      exact hcloses
    have hnext := closesNext_token p.token rest (gapBlanks_blank gap)
    rw [hcloses] at hnext
    rw [hbare, hblanks, strip_blanks _ hgap, strip, if_pos ⟨rfl, hnext⟩,
      strip_blanks _ (gapBlanks_blank gap), htoken, append_assoc]

theorem closesNext_parts {parts : List Part} {us : List Char}
    (h : ∀ p ∈ parts.head?, closes p.token = false) (hus : ∀ c ∈ us, isBlank c = true) :
    closesNext (parts.flatMap Part.bare ++ us) = false := by
  cases parts with
  | nil =>
    have hnone : us.dropWhile isAsciiSpace = [] :=
      dropWhile_eq_nil_iff.mpr fun c hc => (isBlank_range (hus c hc)).2
    rw [flatMap_nil, nil_append, closesNext, hnone]
    rfl
  | cons p parts =>
    have hopen := h p rfl
    have hcomma : p.comma = none := by
      by_contra hnot
      obtain ⟨q, hq, hcloses⟩ := p.trailing (Option.isSome_iff_ne_none.mpr hnot)
      rw [hq] at hopen
      rw [show closes (.punct q) = q.closes from rfl, hcloses] at hopen
      cases hopen
    have hbare : (p :: parts).flatMap Part.bare ++ us =
        gapBlanks p.gap ++ (p.token.text ++ (parts.flatMap Part.bare ++ us)) := by
      simp [Part.bare, hcomma]
    rw [hbare, closesNext_token p.token _ (gapBlanks_blank p.gap), hopen]

/-- The parts as the second pass leaves them. -/
def stripParts (parts : List Part) : List (List Char × Token Literal) :=
  parts.map fun p => (p.blanks, p.token.map stripPieces)

theorem strip_parts {parts : List Part} {us : List Char}
    (hchain : (parts.map Part.token).IsChain Follows) (hus : ∀ c ∈ us, isBlank c = true) :
    strip (parts.flatMap Part.bare ++ us) = render (stripParts parts) ++ us := by
  induction parts with
  | nil =>
    have hall := strip_blanks [] hus
    rw [append_nil, strip, append_nil] at hall
    exact hall
  | cons p parts ih =>
    have hrest : (parts.map Part.token).IsChain Follows := (isChain_cons.mp hchain).2
    have hnext : p.token = .punct .comma → closesNext (parts.flatMap Part.bare ++ us) = false := by
      intro hcomma
      refine closesNext_parts ?_ hus
      intro q hq
      have hfollows : Follows p.token q.token := by
        apply (isChain_cons.mp hchain).1
        rw [head?_map, Option.mem_def.mp hq]
        rfl
      cases htoken : q.token with
      | punct r => exact hfollows.1 hcomma r htoken
      | word w => rfl
      | str s => rfl
    have hcons : stripParts (p :: parts) =
        (p.blanks, p.token.map stripPieces) :: stripParts parts := rfl
    rw [flatMap_cons, append_assoc, strip_part p _ hnext, ih hrest, hcons, render_cons]

theorem cleanJsonc_text (d : Jsonc) (hchain : d.tokens.IsChain Follows) :
    cleanJsonc d.text = render (stripParts d.parts) ++ gapBlanks d.final := by
  rw [cleanJsonc, stripTrailing_eq, scan_text, strip_parts hchain (gapBlanks_blank d.final)]

/-! ### What the cleaned text is a text of -/

theorem strings_map {σ τ : Type} (f : σ → τ) (ts : List (Token σ)) :
    strings (ts.map (Token.map f)) = (strings ts).map f := by
  induction ts with
  | nil => rfl
  | cons a ts ih =>
    cases a with
    | punct p => exact ih
    | word w => exact ih
    | str s => exact congrArg (f s :: ·) ih

theorem map_tokens_of_strings {σ : Type} {f : σ → σ} {ts : List (Token σ)}
    (h : ∀ s ∈ strings ts, f s = s) : ts.map (Token.map f) = ts := by
  induction ts with
  | nil => rfl
  | cons a ts ih =>
    cases a with
    | punct p => exact congrArg (Token.punct p :: ·) (ih h)
    | word w => exact congrArg (Token.word w :: ·) (ih h)
    | str s =>
      have hs : f s = s := h s mem_cons_self
      have hrest := ih fun t ht => h t (mem_cons_of_mem _ ht)
      rw [map_cons, hrest, Token.map, hs]

/-- The tokens of a JSONC text are those of a syntax tree: its strings are the literals of the text. -/
def Jsonc.Of (d : Jsonc) (t : JsonTokens.Tree Literal) : Prop := d.tokens = t.tokens

theorem strings_units (t : JsonTokens.Tree Literal) :
    strings (t.map units).tokens = (strings t.tokens).map units := by
  rw [Tree.tokens_map, strings_map]

theorem Jsonc.Of.isText_stripped {d : Jsonc} {t : JsonTokens.Tree Literal} (h : d.Of t) :
    IsText (cleanJsonc d.text) ((t.map stripPieces).map units) := by
  have htree : d.tokens = t.tokens := h
  have hchain : d.tokens.IsChain Follows := htree ▸ t.segment.chain
  have htokens : (stripParts d.parts).map Prod.snd = (t.map stripPieces).tokens := by
    have hsnd : (stripParts d.parts).map Prod.snd = d.tokens.map (Token.map stripPieces) := by
      simp [stripParts, Jsonc.tokens]
    rw [hsnd, Tree.tokens_map, htree]
  have hblank : ∀ p ∈ stripParts d.parts, ∀ c ∈ p.1, isBlank c = true := by
    intro p hp
    obtain ⟨q, -, rfl⟩ := mem_map.mp hp
    exact q.blanks_blank
  exact ⟨t.map stripPieces, stripParts d.parts, gapBlanks d.final, rfl, htokens, hblank,
    gapBlanks_blank d.final, cleanJsonc_text d hchain⟩

theorem Jsonc.Of.isText_iff {d : Jsonc} {t : JsonTokens.Tree Literal} (h : d.Of t) :
    IsText (cleanJsonc d.text) (t.map units) ↔ ∀ s ∈ strings t.tokens, Kept s.text := by
  have hstripped := h.isText_stripped
  constructor
  · intro htext s hs
    have hvalue : strings ((t.map stripPieces).map units).tokens =
        strings (t.map units).tokens := by
      rw [hstripped.unique htext]
    rw [strings_units, strings_units, Tree.tokens_map, strings_map, map_map] at hvalue
    exact (units_stripPieces_iff s).mp (map_inj_left.mp hvalue s hs)
  · intro hkept
    have hsame : t.map stripPieces = t := by
      apply Tree.tokens_inj
      rw [Tree.tokens_map]
      exact map_tokens_of_strings fun s hs => stripPieces_of_kept (hkept s hs)
    rw [hsame] at hstripped
    exact hstripped

/-- Cleaning a JSONC text of a value gives a JSON text of the value with its strings stripped, which
is the value itself exactly where every literal is ASCII and holds no comma with a closing bracket
next. -/
theorem cleanJsonc_of_jsonc {d : Jsonc} {t : JsonTokens.Tree Literal} (h : d.Of t) :
    IsText (cleanJsonc d.text) ((t.map stripPieces).map units) ∧
      (IsText (cleanJsonc d.text) (t.map units) ↔ ∀ s ∈ strings t.tokens, Kept s.text) :=
  ⟨h.isText_stripped, h.isText_iff⟩

/-! ### Two files -/

def bare (a : Token Literal) : Part := ⟨[], none, a, fun h => nomatch h⟩

def one : Word := ⟨['1'], cons_ne_nil _ _, all_eq_true.mp rfl⟩

def keyA : Literal := [.plain 'a' rfl]

/-- An object with an array of one number; both end in a trailing comma, and a comment follows the
last one. -/
def commented : Jsonc where
  parts := [bare (.punct .openObject), bare (.str keyA), bare (.punct .colon),
    bare (.punct .openArray), bare (.word one),
    ⟨[], some [.blank ' ' rfl], .punct .closeArray, fun _ => ⟨_, rfl, rfl⟩⟩,
    ⟨[], some [.line " last".toList (by decide)], .punct .closeObject, fun _ => ⟨_, rfl, rfl⟩⟩]
  final := []
  comment := none
  line _ h := nomatch h

def commentedTree : JsonTokens.Tree Literal := .object [(keyA, .array [.word one])]

theorem commented_reads :
    commented.text = "\x7b\x22a\x22:[1, ],// last\n\x7d".toList ∧
      IsText (cleanJsonc "\x7b\x22a\x22:[1, ],// last\n\x7d".toList)
        (.object [([97], .array [.word one])]) := by
  have htext : commented.text = "\x7b\x22a\x22:[1, ],// last\n\x7d".toList := by decide
  have hof : commented.Of commentedTree := rfl
  have hkept : ∀ s ∈ strings commentedTree.tokens, Kept s.text := by
    intro s hs
    obtain rfl : s = keyA := mem_singleton.mp hs
    exact kept_cons.mpr ⟨by decide, (fun h => nomatch h), kept_nil⟩
  have h := (cleanJsonc_of_jsonc hof).2.mpr hkept
  rw [htext] at h
  exact ⟨htext, h⟩

/-- An object with a string of one letter that is not in ASCII. -/
def accented : Jsonc where
  parts := [bare (.punct .openObject), bare (.str keyA), bare (.punct .colon),
    bare (.str [.plain 'é' rfl]), bare (.punct .closeObject)]
  final := []
  comment := none
  line _ h := nomatch h

/-- The letter is read as two characters. -/
theorem accented_misread :
    accented.text = "\x7b\x22a\x22:\x22é\x22\x7d".toList ∧
      cleanJsonc accented.text = "\x7b\x22a\x22:\x22Ã©\x22\x7d".toList ∧
        accented.Of (.object [(keyA, .str [.plain 'é' rfl])]) ∧
          ¬ IsText (cleanJsonc accented.text) (.object [([97], .str [233])]) := by
  have hof : accented.Of (.object [(keyA, .str [.plain 'é' rfl])]) := rfl
  refine ⟨by decide, by decide +kernel, hof, ?_⟩
  intro htext
  have hkept := hof.isText_iff.mp htext [.plain 'é' rfl] (by
    have hstrings : strings (Tree.object [(keyA, Tree.str [Piece.plain 'é' rfl])]).tokens =
        [keyA, [.plain 'é' rfl]] := rfl
    rw [hstrings]
    simp)
  have hascii := hkept.ascii 'é' mem_cons_self
  revert hascii
  decide

end BuildConfig
