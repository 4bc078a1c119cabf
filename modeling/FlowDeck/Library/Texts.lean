import Mathlib.Data.List.Lex
import Mathlib.Data.List.Infix

namespace CodeUnits

/-- The UTF-16 code units of a character. -/
def ofChar (c : Char) : List Nat :=
  if c.toNat < 0x10000 then [c.toNat]
  else [0xD800 + (c.toNat - 0x10000) / 0x400, 0xDC00 + (c.toNat - 0x10000) % 0x400]

def ofText (text : String) : List Nat := text.toList.flatMap ofChar

/-- The order of two texts by their code units. -/
def notAfter (s t : String) : Bool := decide (¬List.Lex (· < ·) (ofText t) (ofText s))

def before (s t : String) : Bool := !notAfter t s

theorem ofChar_append_inj {c d : Char} {us vs : List Nat}
    (h : ofChar c ++ us = ofChar d ++ vs) : c = d ∧ us = vs := by
  have hc : c.toNat < 0xD800 ∨ 0xDFFF < c.toNat ∧ c.toNat < 0x110000 := c.valid
  have hd : d.toNat < 0xD800 ∨ 0xDFFF < d.toNat ∧ d.toNat < 0x110000 := d.valid
  unfold ofChar at h
  have hnat : c.toNat = d.toNat ∧ us = vs := by
    split_ifs at h with hcsmall hdsmall hdsmall
    · simpa using h
    · simp only [List.cons_append, List.nil_append, List.cons.injEq] at h
      omega
    · simp only [List.cons_append, List.nil_append, List.cons.injEq] at h
      omega
    · simp only [List.cons_append, List.nil_append, List.cons.injEq] at h
      obtain ⟨hhigh, hlow, hrest⟩ := h
      refine ⟨?_, hrest⟩
      omega
  exact ⟨Char.toNat_inj.mp hnat.1, hnat.2⟩

theorem ofChar_ne_nil (c : Char) : ofChar c ≠ [] := by
  unfold ofChar
  split_ifs <;> simp

theorem flatMap_ofChar_injective {s t : List Char} (h : s.flatMap ofChar = t.flatMap ofChar) :
    s = t := by
  induction s generalizing t with
  | nil =>
    cases t with
    | nil => rfl
    | cons d t =>
      have hnil := h.symm
      simp [ofChar_ne_nil] at hnil
  | cons c s ih =>
    cases t with
    | nil => simp [ofChar_ne_nil] at h
    | cons d t =>
      rw [List.flatMap_cons, List.flatMap_cons] at h
      obtain ⟨hhead, hrest⟩ := ofChar_append_inj h
      rw [hhead, ih hrest]

/-- A text is determined by its code units. -/
theorem ofText_inj {s t : String} : ofText s = ofText t ↔ s = t := by
  constructor
  · intro h
    exact String.toList_injective (flatMap_ofChar_injective h)
  · intro h
    rw [h]

theorem notAfter_iff {s t : String} : notAfter s t = true ↔ ofText s ≤ ofText t := by
  have hlt : List.Lex (· < ·) (ofText t) (ofText s) ↔ ofText t < ofText s := Iff.rfl
  rw [notAfter, decide_eq_true_eq, hlt, not_lt]

theorem before_iff {s t : String} : before s t = true ↔ ofText s < ofText t := by
  rw [before, Bool.not_eq_true', Bool.eq_false_iff, ne_eq, notAfter_iff, not_le]

end CodeUnits

namespace SeparatedPair

variable {α : Type*} [DecidableEq α] {sep : α}

/-- The two fields of a text whose parts between separators are exactly two. -/
def split? (sep : α) (text : List α) : Option (List α × List α) :=
  match text.splitOn sep with
  | [left, right] => some (left, right)
  | _ => none

/-- There is one part more than there are separators. -/
theorem length_splitOn (text : List α) : (text.splitOn sep).length = text.count sep + 1 := by
  induction text with
  | nil => simp
  | cons x text ih =>
    rw [List.splitOn_cons_eq_if_modifyHead, List.count_cons]
    cases hx : x == sep
    · simp [ih]
    · simp [ih]

theorem count_of_split? {text left right : List α} (h : split? sep text = some (left, right)) :
    text.count sep = 1 := by
  have hlength : (text.splitOn sep).length = text.count sep + 1 := length_splitOn text
  unfold split? at h
  split at h
  · next heq =>
      rw [heq] at hlength
      simpa using hlength.symm
  · cases h

theorem split?_join {left right : List α} (hleft : sep ∉ left) (hright : sep ∉ right) :
    split? sep (left ++ sep :: right) = some (left, right) := by
  rw [split?, List.splitOn_append_cons_self_of_not_mem hleft, List.splitOn_eq_singleton hright]

theorem split?_join_eq_none {left right : List α} (h : sep ∈ left ∨ sep ∈ right) :
    split? sep (left ++ sep :: right) = none := by
  have hmore : (left ++ sep :: right).count sep ≠ 1 := by
    have hone : 0 < left.count sep ∨ 0 < right.count sep := by
      rcases h with h | h
      · exact .inl (List.count_pos_iff.mpr h)
      · exact .inr (List.count_pos_iff.mpr h)
    rw [List.count_append, List.count_cons_self]
    omega
  cases hsplit : split? sep (left ++ sep :: right) with
  | none => rfl
  | some fields => exact absurd (count_of_split? hsplit) hmore

omit [DecidableEq α] in
/-- What stands before the last separator and what comes after it are told apart. -/
theorem append_last_inj {left left' right right' : List α} (hright : sep ∉ right)
    (hright' : sep ∉ right') (h : left ++ sep :: right = left' ++ sep :: right') :
    left = left' ∧ right = right' := by
  rcases List.append_eq_append_iff.mp h with ⟨between, hleft, htail⟩ | ⟨between, hleft, htail⟩
  · cases between with
    | nil =>
      rw [List.nil_append, List.cons.injEq] at htail
      exact ⟨by simpa using hleft.symm, htail.2⟩
    | cons x between =>
      rw [List.cons_append, List.cons.injEq] at htail
      exact absurd (htail.2 ▸ by simp) hright
  · cases between with
    | nil =>
      rw [List.nil_append, List.cons.injEq] at htail
      exact ⟨by simpa using hleft, htail.2.symm⟩
    | cons x between =>
      rw [List.cons_append, List.cons.injEq] at htail
      exact absurd (htail.2 ▸ by simp) hright'

end SeparatedPair

/-! Text patterns of the database: `%` stands for any text, `_` for any character, and letters of
ASCII match in either case. -/

namespace Like

def matchesChar (c x : Char) : Bool := c = '_' || c.toLower = x.toLower

def like : List Char → List Char → Bool
  | [], s => s.isEmpty
  | c :: p, s =>
    if c = '%' then s.tails.any (like p)
    else
      match s with
      | [] => false
      | x :: s => matchesChar c x && like p s

theorem like_nil_iff {s : List Char} : like [] s = true ↔ s = [] := List.isEmpty_iff

theorem like_percent_iff {p s : List Char} :
    like ('%' :: p) s = true ↔ ∃ u v, s = u ++ v ∧ like p v = true := by
  simp only [like, if_true, List.any_eq_true, List.mem_tails]
  constructor
  · intro ⟨v, ⟨u, hs⟩, hv⟩
    exact ⟨u, v, hs.symm, hv⟩
  · intro ⟨u, v, hs, hv⟩
    exact ⟨v, ⟨u, hs.symm⟩, hv⟩

theorem like_cons_iff {c : Char} (hc : c ≠ '%') {p s : List Char} :
    like (c :: p) s = true ↔ ∃ x t, s = x :: t ∧ matchesChar c x = true ∧ like p t = true := by
  cases s with
  | nil => simp [like, hc]
  | cons x s => simp [like, hc, and_assoc]

/-- A pattern in two parts matches a text in two parts. -/
theorem like_append_iff {p q s : List Char} :
    like (p ++ q) s = true ↔ ∃ u v, s = u ++ v ∧ like p u = true ∧ like q v = true := by
  induction p generalizing s with
  | nil =>
    constructor
    · intro h
      exact ⟨[], s, rfl, rfl, h⟩
    · intro ⟨u, v, hs, hu, hv⟩
      obtain rfl := like_nil_iff.mp hu
      simpa [hs] using hv
  | cons c p ih =>
    rw [List.cons_append]
    by_cases hc : c = '%'
    · subst hc
      constructor
      · intro h
        obtain ⟨a, t, rfl, ht⟩ := like_percent_iff.mp h
        obtain ⟨u, v, rfl, hu, hv⟩ := ih.mp ht
        exact ⟨a ++ u, v, by simp, like_percent_iff.mpr ⟨a, u, rfl, hu⟩, hv⟩
      · intro ⟨u, v, hs, hu, hv⟩
        obtain ⟨a, t, rfl, ht⟩ := like_percent_iff.mp hu
        exact like_percent_iff.mpr ⟨a, t ++ v, by simp [hs], ih.mpr ⟨t, v, rfl, ht, hv⟩⟩
    · constructor
      · intro h
        obtain ⟨x, t, rfl, hx, ht⟩ := (like_cons_iff hc).mp h
        obtain ⟨u, v, rfl, hu, hv⟩ := ih.mp ht
        exact ⟨x :: u, v, rfl, (like_cons_iff hc).mpr ⟨x, u, rfl, hx, hu⟩, hv⟩
      · intro ⟨u, v, hs, hu, hv⟩
        obtain ⟨x, t, rfl, hx, ht⟩ := (like_cons_iff hc).mp hu
        exact (like_cons_iff hc).mpr ⟨x, t ++ v, hs, hx, ih.mpr ⟨t, v, rfl, ht, hv⟩⟩

/-- Read as a pattern, a text matches itself. -/
theorem like_self (p : List Char) : like p p = true := by
  induction p with
  | nil => rfl
  | cons c p ih =>
    by_cases hc : c = '%'
    · subst hc
      exact like_percent_iff.mpr ⟨['%'], p, rfl, ih⟩
    · exact (like_cons_iff hc).mpr ⟨c, p, rfl, by simp [matchesChar], ih⟩

theorem like_percent (s : List Char) : like ['%'] s = true :=
  like_percent_iff.mpr ⟨s, [], by simp, rfl⟩

/-- What comes after a last separator does not matter to a pattern that ends with one and `%`. -/
theorem like_separated_iff {sep : Char} (hsep : ∀ x, matchesChar sep x = true ↔ x = sep)
    (hpercent : sep ≠ '%') {p s t : List Char} (ht : sep ∉ t) :
    like (p ++ [sep, '%']) (s ++ sep :: t) = true ↔
      like (p ++ [sep, '%']) (s ++ [sep]) = true := by
  have hends (s : List Char) : like (p ++ [sep, '%']) s = true ↔
      ∃ u v, s = u ++ sep :: v ∧ like p u = true := by
    rw [like_append_iff]
    constructor
    · intro ⟨u, v, hs, hu, hv⟩
      obtain ⟨x, v, rfl, hx, -⟩ := (like_cons_iff hpercent).mp hv
      obtain rfl := (hsep x).mp hx
      exact ⟨u, v, hs, hu⟩
    · intro ⟨u, v, hs, hu⟩
      refine ⟨u, sep :: v, hs, hu, ?_⟩
      exact (like_cons_iff hpercent).mpr ⟨sep, v, rfl, (hsep sep).mpr rfl, like_percent v⟩
  rw [hends, hends]
  constructor
  · intro ⟨u, v, hs, hu⟩
    rcases List.append_eq_append_iff.mp hs with ⟨a, hua, htail⟩ | ⟨a, hsa, htail⟩
    · cases a with
      | nil => exact ⟨u, [], by simpa using hua.symm, hu⟩
      | cons x a =>
        simp only [List.cons_append, List.cons.injEq] at htail
        obtain ⟨-, htail⟩ := htail
        exact absurd (htail ▸ by simp) ht
    · cases a with
      | nil => exact ⟨u, [], by simpa using hsa, hu⟩
      | cons x a =>
        simp only [List.cons_append, List.cons.injEq] at htail
        obtain ⟨rfl, -⟩ := htail
        exact ⟨u, a ++ [sep], by simp [hsa], hu⟩
  · intro ⟨u, v, hs, hu⟩
    refine ⟨u, v ++ t, ?_, hu⟩
    have heq := congrArg (· ++ t) hs
    simpa using heq

end Like
