import FlowDeck.Library.TextLines

/-- A value as `JSON.stringify` sees it; a number by the text it prints as. -/
inductive Json
  | undefined
  | null
  | bool (b : Bool)
  | number (text : String)
  | string (text : String)
  | array (items : List Json)
  | object (members : List (String × Json))

namespace Json

/-- What follows the backslash of an escaped control character. -/
def control (n : Nat) : List Char :=
  if n = 8 then ['b']
  else if n = 9 then ['t']
  else if n = 10 then ['n']
  else if n = 12 then ['f']
  else if n = 13 then ['r']
  else ['u', '0', '0', Nat.digitChar (n / 16), Nat.digitChar (n % 16)]

def escape (c : Char) : List Char :=
  if c = '\x22' then ['\x5c', '\x22']
  else if c = '\x5c' then ['\x5c', '\x5c']
  else if c.toNat < 32 then '\x5c' :: control c.toNat
  else [c]

def quote (text : List Char) : List Char :=
  '\x22' :: (text.flatMap escape ++ ['\x22'])

/-- Parts with a comma between them. -/
def separated : List (List Char) → List Char
  | [] => []
  | [part] => part
  | part :: rest => part ++ ',' :: separated rest

mutual

def stringify : Json → List Char
  | undefined => "null".toList
  | null => "null".toList
  | bool b => (if b then "true" else "false").toList
  | number text => text.toList
  | string text => quote text.toList
  | array items => '[' :: (separated (itemTexts items) ++ [']'])
  | object members => '\x7b' :: (separated (memberTexts members) ++ ['\x7d'])

def itemTexts : List Json → List (List Char)
  | [] => []
  | v :: rest => stringify v :: itemTexts rest

/-- A member without a value is left out. -/
def memberTexts : List (String × Json) → List (List Char)
  | [] => []
  | (_, undefined) :: rest => memberTexts rest
  | (key, v) :: rest => (quote key.toList ++ ':' :: stringify v) :: memberTexts rest

end

theorem control_apart : ∀ n < 32, ∀ m < 32, (control n).isPrefixOf (control m) = true → n = m := by
  decide +kernel

theorem control_head : ∀ n < 32, (control n).head? ≠ some '\x22' ∧ (control n).head? ≠ some '\x5c' ∧
    (control n).head? ≠ none := by
  decide +kernel

variable {n : Nat} {c d : Char}

theorem control_append_inj {m : Nat} (hn : n < 32) (hm : m < 32) {us vs : List Char}
    (h : control n ++ us = control m ++ vs) : n = m ∧ us = vs := by
  have hsame : n = m := by
    have hleft : control n <+: control m ++ vs := h ▸ List.prefix_append _ _
    rcases List.prefix_or_prefix_of_prefix hleft (List.prefix_append _ _) with hnm | hmn
    · exact control_apart n hn m hm (List.isPrefixOf_iff_prefix.mpr hnm)
    · exact (control_apart m hm n hn (List.isPrefixOf_iff_prefix.mpr hmn)).symm
  rw [hsame] at h
  exact ⟨hsame, List.append_cancel_left h⟩

theorem control_append_ne (hn : n < 32) {us vs : List Char} {c : Char}
    (hc : c = '\x22' ∨ c = '\x5c') : control n ++ us ≠ c :: vs := by
  intro h
  obtain ⟨hquote, hslash, hsome⟩ := control_head n hn
  cases hcontrol : control n with
  | nil => simp [hcontrol] at hsome
  | cons d ds =>
    rw [hcontrol] at h hquote hslash
    have hhead : d = c := (List.cons.inj h).1
    rcases hc with hc | hc
    · exact hquote (by rw [hhead, hc]; rfl)
    · exact hslash (by rw [hhead, hc]; rfl)

theorem toNat_inj (h : c.toNat = d.toNat) : c = d := by
  rw [← Char.ofNat_toNat c, ← Char.ofNat_toNat d, h]

/-- A character is escaped behind a backslash, or stands for itself. -/
theorem escape_cases (c : Char) :
    (c = '\x22' ∧ escape c = ['\x5c', '\x22']) ∨ (c = '\x5c' ∧ escape c = ['\x5c', '\x5c']) ∨
      (c.toNat < 32 ∧ escape c = '\x5c' :: control c.toNat) ∨
      (c ≠ '\x22' ∧ c ≠ '\x5c' ∧ escape c = [c]) := by
  unfold escape
  split_ifs with hquote hslash hcontrol
  · exact Or.inl ⟨hquote, rfl⟩
  · exact Or.inr (Or.inl ⟨hslash, rfl⟩)
  · exact Or.inr (Or.inr (Or.inl ⟨hcontrol, rfl⟩))
  · exact Or.inr (Or.inr (Or.inr ⟨hquote, hslash, rfl⟩))

theorem escape_append_inj {us vs : List Char} (h : escape c ++ us = escape d ++ vs) :
    c = d ∧ us = vs := by
  rcases escape_cases c with ⟨hc, hec⟩ | ⟨hc, hec⟩ | ⟨hc, hec⟩ | ⟨hcq, hcs, hec⟩
  · rcases escape_cases d with ⟨hd, hed⟩ | ⟨hd, hed⟩ | ⟨hd, hed⟩ | ⟨hdq, hds, hed⟩
    · rw [hec, hed] at h
      exact ⟨hc.trans hd.symm, List.append_cancel_left h⟩
    · rw [hec, hed] at h
      simp at h
    · rw [hec, hed] at h
      exact absurd (List.cons.inj h).2.symm (control_append_ne hd (Or.inl rfl))
    · rw [hec, hed] at h
      exact absurd (List.cons.inj h).1.symm hds
  · rcases escape_cases d with ⟨hd, hed⟩ | ⟨hd, hed⟩ | ⟨hd, hed⟩ | ⟨hdq, hds, hed⟩
    · rw [hec, hed] at h
      simp at h
    · rw [hec, hed] at h
      exact ⟨hc.trans hd.symm, List.append_cancel_left h⟩
    · rw [hec, hed] at h
      exact absurd (List.cons.inj h).2.symm (control_append_ne hd (Or.inr rfl))
    · rw [hec, hed] at h
      exact absurd (List.cons.inj h).1.symm hds
  · rcases escape_cases d with ⟨hd, hed⟩ | ⟨hd, hed⟩ | ⟨hd, hed⟩ | ⟨hdq, hds, hed⟩
    · rw [hec, hed] at h
      exact absurd (List.cons.inj h).2 (control_append_ne hc (Or.inl rfl))
    · rw [hec, hed] at h
      exact absurd (List.cons.inj h).2 (control_append_ne hc (Or.inr rfl))
    · rw [hec, hed] at h
      obtain ⟨hsame, htail⟩ := control_append_inj hc hd (List.cons.inj h).2
      exact ⟨toNat_inj hsame, htail⟩
    · rw [hec, hed] at h
      exact absurd (List.cons.inj h).1.symm hds
  · rcases escape_cases d with ⟨hd, hed⟩ | ⟨hd, hed⟩ | ⟨hd, hed⟩ | ⟨hdq, hds, hed⟩
    · rw [hec, hed] at h
      exact absurd (List.cons.inj h).1 hcs
    · rw [hec, hed] at h
      exact absurd (List.cons.inj h).1 hcs
    · rw [hec, hed] at h
      exact absurd (List.cons.inj h).1 hcs
    · rw [hec, hed] at h
      exact List.cons.inj h

theorem escape_append_ne_quote {us vs : List Char} : escape c ++ us ≠ '\x22' :: vs := by
  intro h
  rcases escape_cases c with ⟨_, hec⟩ | ⟨_, hec⟩ | ⟨_, hec⟩ | ⟨hcq, _, hec⟩
  · rw [hec] at h
    simp at h
  · rw [hec] at h
    simp at h
  · rw [hec] at h
    simp at h
  · rw [hec] at h
    exact hcq (List.cons.inj h).1

/-- A quoted text ends at its closing quotation mark, whatever follows it. -/
theorem quote_append_inj {s t us vs : List Char} (h : quote s ++ us = quote t ++ vs) :
    s = t ∧ us = vs := by
  have hbody : s.flatMap escape ++ '\x22' :: us = t.flatMap escape ++ '\x22' :: vs := by
    simpa [quote] using h
  clear h
  induction s generalizing t with
  | nil =>
    cases t with
    | nil => exact ⟨rfl, (List.cons.inj hbody).2⟩
    | cons d t =>
      rw [List.flatMap_cons, List.append_assoc] at hbody
      exact absurd hbody.symm escape_append_ne_quote
  | cons c s ih =>
    cases t with
    | nil =>
      rw [List.flatMap_cons, List.append_assoc] at hbody
      exact absurd hbody escape_append_ne_quote
    | cons d t =>
      rw [List.flatMap_cons, List.flatMap_cons, List.append_assoc, List.append_assoc] at hbody
      obtain ⟨hhead, htail⟩ := escape_append_inj hbody
      obtain ⟨hs, hus⟩ := ih htail
      exact ⟨by rw [hhead, hs], hus⟩

/-- The digits of a number end where the first other character stands. -/
theorem digits_append_inj {m : Nat} {us vs : List Char} (hc : c.isDigit = false)
    (hd : d.isDigit = false) (h : Nat.toDigits 10 n ++ c :: us = Nat.toDigits 10 m ++ d :: vs) :
    n = m ∧ c :: us = d :: vs := by
  have hdigits : ∀ k e (ws : List Char), e.isDigit = false →
      (Nat.toDigits 10 k ++ e :: ws).takeWhile Char.isDigit = Nat.toDigits 10 k := by
    intro k e ws he
    have hall : ∀ x ∈ Nat.toDigits 10 k, x.isDigit = true :=
      fun x hx => Nat.isDigit_of_mem_toDigits (by decide) (by decide) hx
    rw [List.takeWhile_append_of_pos hall, List.takeWhile_cons_of_neg (by simp [he]),
      List.append_nil]
  have hsame : Nat.toDigits 10 n = Nat.toDigits 10 m := by
    rw [← hdigits n c us hc, h, hdigits m d vs hd]
  have hvalue : n = m := by
    rw [← Nat.ofDigitChars_ten_toDigits (n := n), hsame, Nat.ofDigitChars_ten_toDigits]
  rw [hsame] at h
  exact ⟨hvalue, List.append_cancel_left h⟩

end Json

/-! The values that a text of theirs gives back. -/

namespace Json

/-- A value without undefined, whose numbers print as texts of a kind and whose objects have members
of distinct names, none of them an index. -/
inductive Stored (finite : String → Prop) : Json → Prop
  | null : Stored finite null
  | bool (b : Bool) : Stored finite (bool b)
  | number {text : String} (htext : finite text) : Stored finite (number text)
  | string (text : String) : Stored finite (string text)
  | array {items : List Json} (hitems : ∀ v ∈ items, Stored finite v) : Stored finite (array items)
  | object {members : List (String × Json)} (hnodup : (members.map Prod.fst).Nodup)
    (hindex : ∀ m ∈ members, m.1.toList.head?.any Char.isDigit = false)
    (hmembers : ∀ m ∈ members, Stored finite m.2) : Stored finite (object members)

/-- The characters that end a number. -/
def isCloser (c : Char) : Bool := c = ',' || c = ']' || c = '\x7d'

/-- Which values a text begins with. -/
def kindOf (c : Char) : Nat :=
  if c = 'n' then 0 else if c = 't' then 1 else if c = 'f' then 2 else if c = '\x22' then 3
  else if c = '[' then 4 else if c = '\x7b' then 5 else if isCloser c then 6 else 7

/-- The texts of numbers: they begin like no other value, no character ends them, and they end in
no dash. -/
structure NumberTexts (finite : String → Prop) : Prop where
  begins : ∀ text, finite text → ∃ c rest, text.toList = c :: rest ∧ kindOf c = 7
  open_ : ∀ text, finite text → ∀ c ∈ text.toList, isCloser c = false
  ends : ∀ text, finite text → text.toList.getLast? ≠ some '-'

def kind : Json → Nat
  | undefined | null => 0
  | bool b => if b then 1 else 2
  | string _ => 3
  | array _ => 4
  | object _ => 5
  | number _ => 7

variable {finite : String → Prop} {v w : Json} {us vs : List Char}

theorem Stored.begins (hfinite : NumberTexts finite) (h : Stored finite v) :
    ∃ c rest, stringify v = c :: rest ∧ kindOf c = v.kind := by
  cases h with
  | null => exact ⟨'n', _, rfl, rfl⟩
  | bool b =>
    cases b with
    | true => exact ⟨'t', _, rfl, rfl⟩
    | false => exact ⟨'f', _, rfl, rfl⟩
  | number htext =>
    obtain ⟨c, rest, hparts, hkind⟩ := hfinite.begins _ htext
    exact ⟨c, rest, by rw [stringify, hparts], hkind⟩
  | string text => exact ⟨'\x22', _, rfl, rfl⟩
  | array hitems => exact ⟨'[', _, by rw [stringify], rfl⟩
  | object hnodup hindex hmembers => exact ⟨'\x7b', _, by rw [stringify], rfl⟩

/-- A value's text is at its end. -/
def Ended (us : List Char) : Prop := us.head?.all isCloser = true

theorem Stored.not_ended (hfinite : NumberTexts finite) (h : Stored finite v) :
    ¬ Ended (stringify v ++ us) := by
  obtain ⟨c, rest, hparts, hkind⟩ := h.begins hfinite
  rw [hparts, List.cons_append, Ended]
  simp only [List.head?_cons, Option.all_some]
  intro hcloser
  have hkinds : ∀ b : Bool, (if b then 1 else 2) ≠ 6 := by decide
  have hsix : kindOf c = 6 := by
    simp only [isCloser, Bool.or_eq_true, decide_eq_true_eq] at hcloser
    rcases hcloser with (rfl | rfl) | rfl
    · rfl
    · rfl
    · rfl
  rw [hsix] at hkind
  cases v with
  | bool b => exact hkinds b hkind.symm
  | _ => cases hkind

theorem number_append_inj {s t : List Char} (hs : ∀ c ∈ s, isCloser c = false)
    (ht : ∀ c ∈ t, isCloser c = false) (hus : Ended us) (hvs : Ended vs) (h : s ++ us = t ++ vs) :
    s = t ∧ us = vs := by
  have htake : ∀ {s us : List Char}, (∀ c ∈ s, isCloser c = false) → Ended us →
      (s ++ us).takeWhile (!isCloser ·) = s := by
    intro s us hs hus
    have hall : ∀ c ∈ s, (!isCloser c) = true := by
      intro c hc
      simp [hs c hc]
    have hnone : us.takeWhile (!isCloser ·) = [] := by
      cases us with
      | nil => rfl
      | cons c us =>
        have hc : isCloser c = true := hus
        rw [List.takeWhile_cons_of_neg (by simp [hc])]
    rw [List.takeWhile_append_of_pos hall, hnone, List.append_nil]
  have hsame : s = t := by
    rw [← htake hs hus, h, htake ht hvs]
  rw [hsame] at h
  exact ⟨hsame, List.append_cancel_left h⟩

theorem separated_eq (parts : List (List Char)) : separated parts = TextLines.join ',' parts := by
  induction parts with
  | nil => rfl
  | cons part parts ih =>
    cases parts with
    | nil => rfl
    | cons next parts => exact congrArg (fun rest => part ++ ',' :: rest) ih

theorem itemTexts_eq (items : List Json) : itemTexts items = items.map stringify := by
  induction items with
  | nil => rfl
  | cons v items ih => rw [itemTexts, ih, List.map_cons]

def memberText (m : String × Json) : List Char := quote m.1.toList ++ ':' :: stringify m.2

theorem memberTexts_eq {members : List (String × Json)}
    (h : ∀ m ∈ members, m.2 ≠ undefined) : memberTexts members = members.map memberText := by
  induction members with
  | nil => rfl
  | cons m members ih =>
    obtain ⟨key, v⟩ := m
    have hv : v ≠ undefined := h (key, v) List.mem_cons_self
    have hrest := ih fun m hm => h m (List.mem_cons_of_mem _ hm)
    rw [memberTexts.eq_3 key v members hv, hrest, List.map_cons]
    rfl

theorem Stored.defined (h : Stored finite v) : v ≠ undefined := by
  rintro rfl
  cases h

theorem Stored.kind_eq (hfinite : NumberTexts finite) (hv : Stored finite v) (hw : Stored finite w)
    (h : stringify v ++ us = stringify w ++ vs) : v.kind = w.kind := by
  obtain ⟨c, rest, hparts, hkind⟩ := hv.begins hfinite
  obtain ⟨d, more, hparts', hkind'⟩ := hw.begins hfinite
  rw [hparts, hparts'] at h
  rw [← hkind, ← hkind', (List.cons.inj h).1]

/-- A stored value can be told from its text, whatever ends it. -/
theorem Stored.append_inj (hfinite : NumberTexts finite) (hv : Stored finite v) :
    ∀ w us vs, Stored finite w → Ended us → Ended vs → stringify v ++ us = stringify w ++ vs →
      v = w ∧ us = vs := by
  induction hv with
  | null =>
    intro w us vs hw _ _ h
    have hkind := Stored.null.kind_eq hfinite hw h
    cases hw with
    | null => exact ⟨rfl, List.append_cancel_left h⟩
    | bool b => cases b <;> cases hkind
    | _ => cases hkind
  | bool b =>
    intro w us vs hw _ _ h
    have hkind := (Stored.bool b).kind_eq hfinite hw h
    cases hw with
    | bool b' =>
      have hsame : b = b' := by
        revert hkind
        cases b with
        | true => cases b' with
          | true => exact fun _ => rfl
          | false => intro hkind; cases hkind
        | false => cases b' with
          | true => intro hkind; cases hkind
          | false => exact fun _ => rfl
      rw [hsame] at h
      exact ⟨congrArg Json.bool hsame, List.append_cancel_left h⟩
    | _ =>
      cases b with
      | true => cases hkind
      | false => cases hkind
  | @number text htext =>
    intro w us vs hw hus hvs h
    have hkind := (Stored.number htext).kind_eq hfinite hw h
    cases hw with
    | @number text' htext' =>
      obtain ⟨hsame, hrest⟩ := number_append_inj (hfinite.open_ _ htext) (hfinite.open_ _ htext')
        hus hvs h
      exact ⟨congrArg Json.number (String.toList_inj.mp hsame), hrest⟩
    | bool b => cases b <;> cases hkind
    | _ => cases hkind
  | string text =>
    intro w us vs hw _ _ h
    have hkind := (Stored.string text).kind_eq hfinite hw h
    cases hw with
    | string text' =>
      obtain ⟨hsame, hrest⟩ := quote_append_inj h
      exact ⟨congrArg Json.string (String.toList_inj.mp hsame), hrest⟩
    | bool b => cases b <;> cases hkind
    | _ => cases hkind
  | @array items hitems ih =>
    intro w us vs hw _ _ h
    have hkind := (Stored.array hitems).kind_eq hfinite hw h
    cases hw with
    | @array items' hitems' =>
      rw [stringify, stringify, itemTexts_eq, itemTexts_eq, separated_eq, separated_eq] at h
      rw [List.cons_append, List.cons_append, List.append_assoc, List.append_assoc] at h
      have hbody := (List.cons.inj h).2
      obtain ⟨hsame, hrest⟩ := TextLines.join_append_inj (by decide) (fun _ => rfl) (fun _ => rfl)
        (fun v hv us => (hitems v hv).not_ended hfinite)
        (fun v hv us => (hitems' v hv).not_ended hfinite)
        (fun v hv w hw us vs => ih v hv w us vs (hitems' w hw)) hbody
      exact ⟨congrArg Json.array hsame, hrest⟩
    | bool b => cases b <;> cases hkind
    | _ => cases hkind
  | @object members hnodup hindex hmembers ih =>
    intro w us vs hw _ _ h
    have hkind := (Stored.object hnodup hindex hmembers).kind_eq hfinite hw h
    cases hw with
    | @object members' hnodup' hindex' hmembers' =>
      rw [stringify, stringify, memberTexts_eq fun m hm => (hmembers m hm).defined,
        memberTexts_eq fun m hm => (hmembers' m hm).defined, separated_eq, separated_eq] at h
      rw [List.cons_append, List.cons_append, List.append_assoc, List.append_assoc] at h
      have hbody := (List.cons.inj h).2
      have hquote : ∀ (m : String × Json) us, ¬ Ended (memberText m ++ us) := by
        intro m us hended
        cases hended
      have hinj : ∀ m ∈ members, ∀ n ∈ members', ∀ us vs, Ended us → Ended vs →
          memberText m ++ us = memberText n ++ vs → m = n ∧ us = vs := by
        intro m hm n hn us vs hus hvs htexts
        rw [memberText, memberText, List.append_assoc, List.append_assoc] at htexts
        obtain ⟨hkey, htail⟩ := quote_append_inj htexts
        obtain ⟨hvalue, hrest⟩ := ih m hm n.2 us vs (hmembers' n hn) hus hvs
          (List.cons.inj htail).2
        exact ⟨Prod.ext (String.toList_inj.mp hkey) hvalue, hrest⟩
      obtain ⟨hsame, hrest⟩ := TextLines.join_append_inj (by decide) (fun _ => rfl) (fun _ => rfl)
        (fun m _ us => hquote m us) (fun m _ us => hquote m us) hinj hbody
      exact ⟨congrArg Json.object hsame, hrest⟩
    | bool b => cases b <;> cases hkind
    | _ => cases hkind

theorem Stored.stringify_inj (hfinite : NumberTexts finite) (hv : Stored finite v)
    (hw : Stored finite w) (h : stringify v = stringify w) : v = w := by
  have htexts : stringify v ++ [] = stringify w ++ [] := by rw [h]
  exact (hv.append_inj hfinite w [] [] hw rfl rfl htexts).1

theorem Stored.ends (hfinite : NumberTexts finite) (h : Stored finite v) :
    (stringify v).getLast? ≠ some '-' := by
  cases h with
  | null => decide
  | bool b =>
    cases b with
    | true => decide
    | false => decide
  | number htext => exact hfinite.ends _ htext
  | string text =>
    rw [stringify, quote, ← List.cons_append, List.getLast?_concat]
    decide
  | array hitems =>
    rw [stringify, ← List.cons_append, List.getLast?_concat]
    decide
  | object hnodup hindex hmembers =>
    rw [stringify, ← List.cons_append, List.getLast?_concat]
    decide

end Json
