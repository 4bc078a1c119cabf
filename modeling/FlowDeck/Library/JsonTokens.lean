import FlowDeck.Library.TextLines
import Mathlib.Data.List.Chain

/-! JSON texts as tokens with blanks between them: the tokens of a value, and that a text determines
its tokens. -/

namespace JsonTokens

/-! ### Tokens -/

inductive Punct
  | openObject | closeObject | openArray | closeArray | comma | colon
  deriving DecidableEq

def Punct.char : Punct → Char
  | .openObject => '\x7b'
  | .closeObject => '\x7d'
  | .openArray => '['
  | .closeArray => ']'
  | .comma => ','
  | .colon => ':'

def Punct.closes : Punct → Bool
  | .closeObject | .closeArray => true
  | _ => false

def Punct.opens : Punct → Bool
  | .openObject | .openArray => true
  | _ => false

theorem Punct.not_closes {p : Punct} (h : p.opens = true) : p.closes = false := by
  revert h
  cases p <;> decide

/-- A character of a name or of a number. -/
def isWordChar (c : Char) : Bool := c.isAlphanum || c = '-' || c = '+' || c = '.'

def isBlank (c : Char) : Bool := c = ' ' || c = '\t' || c = '\n' || c = '\r'

/-- null, a boolean or a number, by its text. -/
structure Word where
  text : List Char
  printed : text ≠ []
  chars : ∀ c ∈ text, isWordChar c = true

theorem Word.ext {v w : Word} (h : v.text = w.text) : v = w := by
  cases v
  cases w
  cases h
  rfl

inductive Token (σ : Type)
  | punct (p : Punct)
  | word (w : Word)
  | str (s : σ)

variable {σ τ : Type}

def Token.map (f : σ → τ) : Token σ → Token τ
  | .punct p => .punct p
  | .word w => .word w
  | .str s => .str (f s)

def strings (ts : List (Token σ)) : List σ :=
  ts.filterMap fun
    | .str s => some s
    | _ => none

/-! ### Values -/

/-- A value whose strings are of a kind; an object by its members in the order of the text. -/
inductive Tree (σ : Type)
  | word (w : Word)
  | str (s : σ)
  | array (items : List (Tree σ))
  | object (members : List (σ × Tree σ))

open TextLines (join)

mutual

def Tree.tokens : Tree σ → List (Token σ)
  | .word w => [.word w]
  | .str s => [.str s]
  | .array items =>
    .punct .openArray :: (join (.punct .comma) (itemTokens items) ++ [.punct .closeArray])
  | .object members =>
    .punct .openObject :: (join (.punct .comma) (memberTokens members) ++ [.punct .closeObject])

def itemTokens : List (Tree σ) → List (List (Token σ))
  | [] => []
  | t :: rest => t.tokens :: itemTokens rest

def memberTokens : List (σ × Tree σ) → List (List (Token σ))
  | [] => []
  | (key, t) :: rest => (.str key :: .punct .colon :: t.tokens) :: memberTokens rest

end

mutual

def Tree.map (f : σ → τ) : Tree σ → Tree τ
  | .word w => .word w
  | .str s => .str (f s)
  | .array items => .array (mapItems f items)
  | .object members => .object (mapMembers f members)

def mapItems (f : σ → τ) : List (Tree σ) → List (Tree τ)
  | [] => []
  | t :: rest => t.map f :: mapItems f rest

def mapMembers (f : σ → τ) : List (σ × Tree σ) → List (τ × Tree τ)
  | [] => []
  | (key, t) :: rest => (f key, t.map f) :: mapMembers f rest

end

theorem Tree.induct {P : Tree σ → Prop} (hword : ∀ w, P (.word w)) (hstr : ∀ s, P (.str s))
    (harray : ∀ items, (∀ t ∈ items, P t) → P (.array items))
    (hobject : ∀ members, (∀ m ∈ members, P m.2) → P (.object members)) (t : Tree σ) : P t := by
  apply Tree.rec (motive_1 := P) (motive_2 := fun items => ∀ t ∈ items, P t)
    (motive_3 := fun members => ∀ m ∈ members, P m.2) (motive_4 := fun m => P m.2)
  · exact hword
  · exact hstr
  · exact harray
  · exact hobject
  · exact List.forall_mem_nil _
  · intro t rest ht hrest
    exact List.forall_mem_cons.mpr ⟨ht, hrest⟩
  · exact List.forall_mem_nil _
  · intro m rest hm hrest
    exact List.forall_mem_cons.mpr ⟨hm, hrest⟩
  · intro key t ht
    exact ht

theorem itemTokens_eq (items : List (Tree σ)) : itemTokens items = items.map Tree.tokens := by
  induction items with
  | nil => rfl
  | cons t items ih => rw [itemTokens, ih, List.map_cons]

def memberTokensOf (m : σ × Tree σ) : List (Token σ) := .str m.1 :: .punct .colon :: m.2.tokens

theorem memberTokens_eq (members : List (σ × Tree σ)) :
    memberTokens members = members.map memberTokensOf := by
  induction members with
  | nil => rfl
  | cons m members ih =>
    rw [memberTokens, ih, List.map_cons]
    rfl

theorem mapItems_eq (f : σ → τ) (items : List (Tree σ)) :
    mapItems f items = items.map (Tree.map f) := by
  induction items with
  | nil => rfl
  | cons t items ih => rw [mapItems, ih, List.map_cons]

theorem mapMembers_eq (f : σ → τ) (members : List (σ × Tree σ)) :
    mapMembers f members = members.map fun m => (f m.1, m.2.map f) := by
  induction members with
  | nil => rfl
  | cons m members ih => rw [mapMembers, ih, List.map_cons]

theorem map_join {α β : Type} (f : α → β) (sep : α) (parts : List (List α)) :
    (join sep parts).map f = join (f sep) (parts.map (List.map f)) := by
  induction parts with
  | nil => rfl
  | cons part parts ih =>
    cases parts with
    | nil => rfl
    | cons next parts =>
      rw [List.map_cons, List.map_cons, TextLines.join_cons_cons, TextLines.join_cons_cons,
        List.map_append, List.map_cons, ih]
      rfl

/-- Mapping the strings of a value maps those of its tokens. -/
theorem Tree.tokens_map (f : σ → τ) (t : Tree σ) : (t.map f).tokens = t.tokens.map (Token.map f) := by
  induction t using Tree.induct with
  | hword w => rfl
  | hstr s => rfl
  | harray items ih =>
    have hitems : (items.map (Tree.map f)).map Tree.tokens =
        (items.map Tree.tokens).map (List.map (Token.map f)) := by
      rw [List.map_map, List.map_map]
      exact List.map_congr_left ih
    rw [Tree.map, Tree.tokens, Tree.tokens, mapItems_eq, itemTokens_eq, itemTokens_eq, hitems,
      List.map_cons, List.map_append, map_join]
    rfl
  | hobject members ih =>
    have hmembers : (members.map fun m => (f m.1, m.2.map f)).map memberTokensOf =
        (members.map memberTokensOf).map (List.map (Token.map f)) := by
      rw [List.map_map, List.map_map]
      apply List.map_congr_left
      intro m hm
      simp [memberTokensOf, ih m hm, Token.map]
    rw [Tree.map, Tree.tokens, Tree.tokens, mapMembers_eq, memberTokens_eq, memberTokens_eq,
      hmembers, List.map_cons, List.map_append, map_join]
    rfl

/-! ### Neighbours -/

/-- What stands behind a token: no closing bracket behind a comma, and punctuation behind a word. -/
def Follows (a b : Token σ) : Prop :=
  (a = .punct .comma → ∀ p, b = .punct p → p.closes = false) ∧
    ∀ w, a = .word w → ∃ p, b = .punct p

theorem follows_punct {a : Token σ} (p : Punct) (h : a ≠ .punct .comma) : Follows a (.punct p) :=
  ⟨fun hcomma => absurd hcomma h, fun _ _ => ⟨p, rfl⟩⟩

theorem punct_follows {b : Token σ} (p : Punct) (h : ∀ q, b = .punct q → q.opens = true) :
    Follows (.punct p) b :=
  ⟨fun _ q hq => Punct.not_closes (h q hq), fun _ hword => nomatch hword⟩

theorem str_follows (s : σ) (b : Token σ) : Follows (.str s) b :=
  ⟨fun hcomma => (nomatch hcomma), fun _ hword => nomatch hword⟩

/-- Tokens that may stand as a value does. -/
structure Segment (ts : List (Token σ)) : Prop where
  chain : ts.IsChain Follows
  nonempty : ts ≠ []
  first : ∀ a ∈ ts.head?, ∀ p, a = .punct p → p.opens = true
  last : ∀ z ∈ ts.getLast?, z ≠ .punct .comma

theorem Segment.behind {ts us : List (Token σ)} (h : Segment us) (p : Punct)
    (hts : (ts ++ [Token.punct p]).IsChain Follows) :
    (ts ++ Token.punct p :: us).IsChain Follows := by
  have hjoint : (Token.punct p :: us).IsChain Follows :=
    List.isChain_cons.mpr ⟨fun a ha => punct_follows p (h.first a ha), h.chain⟩
  exact List.isChain_split.mpr ⟨hts, hjoint⟩

theorem Segment.before {ts : List (Token σ)} (h : Segment ts) (p : Punct) :
    (ts ++ [Token.punct p]).IsChain Follows := by
  refine h.chain.append (List.isChain_singleton _) ?_
  intro z hz b hb
  obtain rfl : Token.punct p = b := Option.some.inj hb
  exact follows_punct p (h.last z hz)

theorem Segment.append {ts us : List (Token σ)} (hts : Segment ts) (hus : Segment us) :
    Segment (ts ++ .punct .comma :: us) where
  chain := hus.behind .comma (hts.before .comma)
  nonempty := by simp
  first a ha := by
    rw [List.head?_append_of_ne_nil _ hts.nonempty] at ha
    exact hts.first a ha
  last z hz := by
    rw [List.getLast?_append_of_ne_nil _ (List.cons_ne_nil _ _),
      List.getLast?_cons_of_ne_nil hus.nonempty] at hz
    exact hus.last z hz

theorem Segment.join {parts : List (List (Token σ))} (hne : parts ≠ [])
    (h : ∀ part ∈ parts, Segment part) : Segment (join (.punct .comma) parts) := by
  induction parts with
  | nil => exact absurd rfl hne
  | cons part parts ih =>
    have hpart : Segment part := h part List.mem_cons_self
    cases parts with
    | nil => exact hpart
    | cons next parts =>
      exact hpart.append (ih (List.cons_ne_nil _ _) fun l hl => h l (List.mem_cons_of_mem _ hl))

/-- Segments with commas between them and brackets around them. -/
theorem Segment.enclosed {parts : List (List (Token σ))} (opening closing : Punct)
    (hopening : opening.opens = true) (hclosing : closing ≠ .comma)
    (h : ∀ part ∈ parts, Segment part) :
    Segment (.punct opening :: (TextLines.join (.punct .comma) parts ++ [.punct closing])) where
  chain := by
    have hne : Token.punct opening ≠ (Token.punct .comma : Token σ) := by
      rintro heq
      obtain rfl : opening = .comma := by simpa using heq
      cases hopening
    by_cases hparts : parts = []
    · rw [hparts]
      exact List.isChain_cons_cons.mpr ⟨follows_punct closing hne, List.isChain_singleton _⟩
    · have hjoin := Segment.join hparts h
      have hrest := hjoin.before closing
      refine List.isChain_cons.mpr ⟨?_, hrest⟩
      intro a ha
      rw [List.head?_append_of_ne_nil _ hjoin.nonempty] at ha
      exact punct_follows opening (hjoin.first a ha)
  nonempty := List.cons_ne_nil _ _
  first a ha p hp := by
    obtain rfl : Token.punct opening = a := Option.some.inj ha
    obtain rfl : opening = p := by simpa using hp
    exact hopening
  last z hz := by
    rw [← List.cons_append, List.getLast?_concat] at hz
    obtain rfl : Token.punct closing = z := Option.some.inj hz
    simpa using hclosing

theorem Segment.single (a : Token σ) (hfirst : ∀ p, a = .punct p → p.opens = true)
    (hlast : a ≠ .punct .comma) : Segment [a] where
  chain := List.isChain_singleton _
  nonempty := List.cons_ne_nil _ _
  first _ hb := Option.some.inj hb ▸ hfirst
  last _ hb := Option.some.inj hb ▸ hlast

theorem Tree.segment (t : Tree σ) : Segment t.tokens := by
  induction t using Tree.induct with
  | hword w => exact .single _ (fun p hp => nomatch hp) (by simp)
  | hstr s => exact .single _ (fun p hp => nomatch hp) (by simp)
  | harray items ih =>
    rw [Tree.tokens, itemTokens_eq]
    refine .enclosed .openArray .closeArray (by decide) (by decide) ?_
    intro part hpart
    obtain ⟨t, ht, rfl⟩ := List.mem_map.mp hpart
    exact ih t ht
  | hobject members ih =>
    rw [Tree.tokens, memberTokens_eq]
    refine .enclosed .openObject .closeObject (by decide) (by decide) ?_
    intro part hpart
    obtain ⟨m, hm, rfl⟩ := List.mem_map.mp hpart
    have hvalue := ih m hm
    have hcolon : (Token.punct .colon :: m.2.tokens).IsChain Follows :=
      List.isChain_cons.mpr ⟨fun a ha => punct_follows .colon (hvalue.first a ha), hvalue.chain⟩
    refine ⟨List.isChain_cons.mpr ⟨fun b _ => str_follows m.1 b, hcolon⟩, List.cons_ne_nil _ _,
      ?_, ?_⟩
    · intro a ha p hp
      obtain rfl : Token.str m.1 = a := Option.some.inj ha
      cases hp
    · intro z hz
      rw [memberTokensOf, List.getLast?_cons_of_ne_nil (List.cons_ne_nil _ _),
        List.getLast?_cons_of_ne_nil hvalue.nonempty] at hz
      exact hvalue.last z hz

/-! ### Values from their tokens -/

/-- Tokens that no value begins with. -/
def Ended (ts : List (Token σ)) : Prop := ∃ p rest, ts = .punct p :: rest ∧ p.opens = false

theorem Segment.not_ended {ts : List (Token σ)} (h : Segment ts) (us : List (Token σ)) :
    ¬ Ended (ts ++ us) := by
  intro hended
  obtain ⟨p, rest, hparts, hopens⟩ := hended
  have hhead : (ts ++ us).head? = ts.head? := List.head?_append_of_ne_nil _ h.nonempty
  rw [hparts] at hhead
  have hfirst := h.first (.punct p) hhead.symm p rfl
  rw [hopens] at hfirst
  cases hfirst

/-- The tokens of a value are those of no other, whatever follows them. -/
theorem Tree.tokens_append_inj (t : Tree σ) : ∀ (u : Tree σ) us vs,
    t.tokens ++ us = u.tokens ++ vs → t = u ∧ us = vs := by
  induction t using Tree.induct with
  | hword w =>
    intro u us vs h
    cases u with
    | word w' =>
      obtain ⟨hsame, hrest⟩ := List.cons.inj h
      cases hsame
      exact ⟨rfl, hrest⟩
    | _ => cases (List.cons.inj h).1
  | hstr s =>
    intro u us vs h
    cases u with
    | str s' =>
      obtain ⟨hsame, hrest⟩ := List.cons.inj h
      cases hsame
      exact ⟨rfl, hrest⟩
    | _ => cases (List.cons.inj h).1
  | harray items ih =>
    intro u us vs h
    cases u with
    | array items' =>
      rw [Tree.tokens, Tree.tokens, itemTokens_eq, itemTokens_eq, List.cons_append,
        List.cons_append, List.append_assoc, List.append_assoc] at h
      obtain ⟨hsame, hrest⟩ := TextLines.join_append_inj (by simp) (fun us => ⟨_, us, rfl, rfl⟩)
        (fun us => ⟨_, us, rfl, rfl⟩) (fun t _ us => t.segment.not_ended us)
        (fun t _ us => t.segment.not_ended us) (fun t ht u _ us vs _ _ => ih t ht u us vs)
        (List.cons.inj h).2
      exact ⟨congrArg Tree.array hsame, hrest⟩
    | _ => cases (List.cons.inj h).1
  | hobject members ih =>
    intro u us vs h
    cases u with
    | object members' =>
      rw [Tree.tokens, Tree.tokens, memberTokens_eq, memberTokens_eq, List.cons_append,
        List.cons_append, List.append_assoc, List.append_assoc] at h
      have hkey : ∀ (m : σ × Tree σ) us, ¬ Ended (memberTokensOf m ++ us) := by
        intro m us hended
        obtain ⟨p, rest, hparts, -⟩ := hended
        cases (List.cons.inj hparts).1
      have hinj : ∀ m ∈ members, ∀ n ∈ members', ∀ us vs, Ended us → Ended vs →
          memberTokensOf m ++ us = memberTokensOf n ++ vs → m = n ∧ us = vs := by
        intro m hm n _ us vs _ _ htokens
        obtain ⟨hkeys, htail⟩ := List.cons.inj htokens
        obtain ⟨hvalue, hrest⟩ := ih m hm n.2 us vs (List.cons.inj htail).2
        exact ⟨Prod.ext (Token.str.inj hkeys) hvalue, hrest⟩
      obtain ⟨hsame, hrest⟩ := TextLines.join_append_inj (by simp) (fun us => ⟨_, us, rfl, rfl⟩)
        (fun us => ⟨_, us, rfl, rfl⟩) (fun m _ us => hkey m us) (fun m _ us => hkey m us) hinj
        (List.cons.inj h).2
      exact ⟨congrArg Tree.object hsame, hrest⟩
    | _ => cases (List.cons.inj h).1

theorem Tree.tokens_inj {t u : Tree σ} (h : t.tokens = u.tokens) : t = u := by
  have happend : t.tokens ++ [] = u.tokens ++ [] := by rw [h]
  exact (t.tokens_append_inj u [] [] happend).1

/-! ### String literals -/

/-- A character that stands for itself in a string. -/
def isPlain (c : Char) : Bool := 32 ≤ c.toNat && c ≠ '\x22' && c ≠ '\x5c'

/-- What a character behind a backslash stands for. -/
def escaped? (c : Char) : Option Nat :=
  if c = '\x22' then some 34
  else if c = '\x5c' then some 92
  else if c = '/' then some 47
  else if c = 'b' then some 8
  else if c = 'f' then some 12
  else if c = 'n' then some 10
  else if c = 'r' then some 13
  else if c = 't' then some 9
  else none

def hexDigit? (c : Char) : Option Nat :=
  if c.isDigit then some (c.toNat - 48)
  else if 'a' ≤ c ∧ c ≤ 'f' then some (c.toNat - 87)
  else if 'A' ≤ c ∧ c ≤ 'F' then some (c.toNat - 55)
  else none

/-- A part of a string literal: a character, an escaped one, or the code of a unit. -/
inductive Piece
  | plain (c : Char) (h : isPlain c = true)
  | escaped (c : Char) (h : (escaped? c).isSome = true)
  | unicode (digits : List Char) (hlength : digits.length = 4)
    (h : ∀ c ∈ digits, (hexDigit? c).isSome = true)

def Piece.text : Piece → List Char
  | .plain c _ => [c]
  | .escaped c _ => ['\x5c', c]
  | .unicode digits _ _ => '\x5c' :: 'u' :: digits

def codeUnits (c : Char) : List Nat :=
  if c.toNat < 0x10000 then [c.toNat]
  else [0xd800 + (c.toNat - 0x10000) / 0x400, 0xdc00 + (c.toNat - 0x10000) % 0x400]

def Piece.units : Piece → List Nat
  | .plain c _ => codeUnits c
  | .escaped c _ => (escaped? c).toList
  | .unicode digits _ _ => [digits.foldl (fun n c => 16 * n + (hexDigit? c).getD 0) 0]

abbrev Literal := List Piece

def Literal.text (s : Literal) : List Char := s.flatMap Piece.text

/-- The string of a literal, by its code units. -/
def Literal.units (s : Literal) : List Nat := s.flatMap Piece.units

variable {us vs : List Char}

theorem not_isPlain_quote : isPlain '\x22' = false := by decide

theorem not_isPlain_backslash : isPlain '\x5c' = false := by decide

theorem not_escaped_u : (escaped? 'u').isSome = false := by decide

theorem Piece.text_append_inj {p q : Piece} (h : p.text ++ us = q.text ++ vs) :
    p = q ∧ us = vs := by
  cases p with
  | plain c hc =>
    cases q with
    | plain d hd =>
      obtain ⟨rfl, hrest⟩ := List.cons.inj h
      exact ⟨rfl, hrest⟩
    | escaped d hd =>
      rw [(List.cons.inj h).1, not_isPlain_backslash] at hc
      cases hc
    | unicode digits hlength hd =>
      rw [(List.cons.inj h).1, not_isPlain_backslash] at hc
      cases hc
  | escaped c hc =>
    cases q with
    | plain d hd =>
      rw [← (List.cons.inj h).1, not_isPlain_backslash] at hd
      cases hd
    | escaped d hd =>
      obtain ⟨rfl, hrest⟩ := List.cons.inj (List.cons.inj h).2
      exact ⟨rfl, hrest⟩
    | unicode digits hlength hd =>
      rw [(List.cons.inj (List.cons.inj h).2).1, not_escaped_u] at hc
      cases hc
  | unicode digits hlength hc =>
    cases q with
    | plain d hd =>
      rw [← (List.cons.inj h).1, not_isPlain_backslash] at hd
      cases hd
    | escaped d hd =>
      rw [← (List.cons.inj (List.cons.inj h).2).1, not_escaped_u] at hd
      cases hd
    | unicode digits' hlength' hd =>
      have hdigits : digits ++ us = digits' ++ vs := (List.cons.inj (List.cons.inj h).2).2
      obtain ⟨rfl, hrest⟩ := List.append_inj hdigits (hlength.trans hlength'.symm)
      exact ⟨rfl, hrest⟩

theorem Piece.text_append_ne_quote (p : Piece) : p.text ++ us ≠ '\x22' :: vs := by
  intro h
  cases p with
  | plain c hc =>
    rw [(List.cons.inj h).1, not_isPlain_quote] at hc
    cases hc
  | escaped c hc => cases (List.cons.inj h).1
  | unicode digits hlength hc => cases (List.cons.inj h).1

/-- A literal ends at its quotation mark, whatever follows it. -/
theorem Literal.text_append_inj {s t : Literal}
    (h : s.text ++ '\x22' :: us = t.text ++ '\x22' :: vs) : s = t ∧ us = vs := by
  induction s generalizing t with
  | nil =>
    cases t with
    | nil => exact ⟨rfl, (List.cons.inj h).2⟩
    | cons q t =>
      rw [Literal.text, Literal.text, List.flatMap_cons, List.append_assoc] at h
      exact absurd h.symm q.text_append_ne_quote
  | cons p s ih =>
    cases t with
    | nil =>
      rw [Literal.text, Literal.text, List.flatMap_cons, List.append_assoc] at h
      exact absurd h p.text_append_ne_quote
    | cons q t =>
      rw [Literal.text, Literal.text, List.flatMap_cons, List.flatMap_cons, List.append_assoc,
        List.append_assoc] at h
      obtain ⟨hsame, hrest⟩ := Piece.text_append_inj h
      obtain ⟨hmore, hus⟩ := ih hrest
      exact ⟨by rw [hsame, hmore], hus⟩

/-! ### Texts -/

def Token.text : Token Literal → List Char
  | .punct p => [p.char]
  | .word w => w.text
  | .str s => '\x22' :: (s.text ++ ['\x22'])

/-- Tokens, each with the blanks in front of it. -/
def render (parts : List (List Char × Token Literal)) : List Char :=
  parts.flatMap fun p => p.1 ++ p.2.text

theorem Punct.char_inj {p q : Punct} (h : p.char = q.char) : p = q := by
  revert h
  cases p <;> cases q <;> decide

theorem Punct.char_class (p : Punct) :
    isWordChar p.char = false ∧ isBlank p.char = false ∧ p.char ≠ '\x22' := by
  cases p <;> decide

theorem Token.text_head (a : Token Literal) : ∃ c rest, a.text = c :: rest ∧ isBlank c = false := by
  cases a with
  | punct p => exact ⟨p.char, [], rfl, p.char_class.2.1⟩
  | word w =>
    obtain ⟨c, rest, hparts⟩ := List.exists_cons_of_ne_nil w.printed
    have hc : isWordChar c = true := w.chars c (hparts ▸ List.mem_cons_self)
    refine ⟨c, rest, hparts, ?_⟩
    by_contra hblank
    simp only [isBlank, Bool.not_eq_false, Bool.or_eq_true, decide_eq_true_eq] at hblank
    rcases hblank with ((rfl | rfl) | rfl) | rfl <;> revert hc <;> decide
  | str s => exact ⟨'\x22', _, rfl, by decide⟩

/-- No word goes on in what follows a token that is one. -/
def Closed (a : Token Literal) (us : List Char) : Prop :=
  ∀ w, a = .word w → ∀ c ∈ us.head?, isWordChar c = false

theorem takeWhile_word {w : Word} (h : Closed (.word w) us) :
    (w.text ++ us).takeWhile isWordChar = w.text := by
  have hnone : us.takeWhile isWordChar = [] := by
    cases us with
    | nil => rfl
    | cons c us =>
      rw [List.takeWhile_cons_of_neg]
      simp [h w rfl c rfl]
  rw [List.takeWhile_append_of_pos w.chars, hnone, List.append_nil]

theorem Token.text_append_inj {a b : Token Literal} (ha : Closed a us) (hb : Closed b vs)
    (h : a.text ++ us = b.text ++ vs) : a = b ∧ us = vs := by
  have hword : ∀ (w : Word) (us : List Char), ∃ c rest, w.text ++ us = c :: rest ∧
      isWordChar c = true := by
    intro w us
    obtain ⟨c, rest, hparts⟩ := List.exists_cons_of_ne_nil w.printed
    exact ⟨c, rest ++ us, by rw [hparts, List.cons_append], w.chars c (hparts ▸ List.mem_cons_self)⟩
  have hquote : isWordChar '\x22' = false := by decide
  cases a with
  | punct p =>
    cases b with
    | punct q =>
      obtain ⟨hchar, hrest⟩ := List.cons.inj h
      exact ⟨congrArg Token.punct (Punct.char_inj hchar), hrest⟩
    | word w =>
      obtain ⟨c, rest, hparts, hc⟩ := hword w vs
      rw [Token.text, Token.text, hparts] at h
      rw [← (List.cons.inj h).1, p.char_class.1] at hc
      cases hc
    | str s => exact absurd (List.cons.inj h).1 p.char_class.2.2
  | word w =>
    cases b with
    | punct q =>
      obtain ⟨c, rest, hparts, hc⟩ := hword w us
      rw [Token.text, Token.text, hparts] at h
      rw [(List.cons.inj h).1, q.char_class.1] at hc
      cases hc
    | word w' =>
      have hsame : w = w' := by
        apply Word.ext
        rw [← takeWhile_word ha, ← takeWhile_word hb]
        exact congrArg _ h
      rw [hsame] at h
      exact ⟨congrArg Token.word hsame, List.append_cancel_left h⟩
    | str s =>
      obtain ⟨c, rest, hparts, hc⟩ := hword w us
      rw [Token.text, Token.text, hparts] at h
      rw [(List.cons.inj h).1, hquote] at hc
      cases hc
  | str s =>
    cases b with
    | punct q => exact absurd (List.cons.inj h).1.symm q.char_class.2.2
    | word w =>
      obtain ⟨c, rest, hparts, hc⟩ := hword w vs
      rw [Token.text, Token.text, hparts] at h
      rw [← (List.cons.inj h).1, hquote] at hc
      cases hc
    | str t =>
      rw [Token.text, Token.text, List.cons_append, List.cons_append, List.append_assoc,
        List.append_assoc] at h
      obtain ⟨hsame, hrest⟩ := Literal.text_append_inj (List.cons.inj h).2
      exact ⟨congrArg Token.str hsame, hrest⟩

/-- A layout of tokens as a text lays them out: blanks in front of each, and neighbours that may
stand side by side. -/
structure LaidOut (parts : List (List Char × Token Literal)) : Prop where
  blank : ∀ p ∈ parts, ∀ c ∈ p.1, isBlank c = true
  chain : (parts.map Prod.snd).IsChain Follows

theorem LaidOut.tail {p : List Char × Token Literal} {parts : List (List Char × Token Literal)}
    (h : LaidOut (p :: parts)) : LaidOut parts where
  blank q hq := h.blank q (List.mem_cons_of_mem _ hq)
  chain := (List.isChain_cons.mp h.chain).2

theorem not_isWordChar_of_isBlank {c : Char} (h : isBlank c = true) : isWordChar c = false := by
  simp only [isBlank, Bool.or_eq_true, decide_eq_true_eq] at h
  rcases h with ((rfl | rfl) | rfl) | rfl <;> decide

/-- Behind a word a layout goes on with a blank or with punctuation. -/
theorem LaidOut.closed {gap : List Char} {a : Token Literal}
    {parts : List (List Char × Token Literal)} (h : LaidOut ((gap, a) :: parts))
    (hus : ∀ c ∈ us, isBlank c = true) : Closed a (render parts ++ us) := by
  intro w hw c hc
  cases parts with
  | nil =>
    have hmem : c ∈ us := List.mem_of_mem_head? hc
    exact not_isWordChar_of_isBlank (hus c hmem)
  | cons next parts =>
    obtain ⟨between, b⟩ := next
    have hfollows : Follows a b := (List.isChain_cons_cons.mp h.chain).1
    obtain ⟨p, rfl⟩ := hfollows.2 w hw
    cases between with
    | nil =>
      obtain rfl : p.char = c := Option.some.inj hc
      exact p.char_class.1
    | cons d between =>
      obtain rfl : d = c := Option.some.inj hc
      exact not_isWordChar_of_isBlank (h.blank (d :: between, .punct p)
        (List.mem_cons_of_mem _ List.mem_cons_self) d List.mem_cons_self)

theorem blanks_append_inj {gap gap' : List Char} {a b : Token Literal}
    (hgap : ∀ c ∈ gap, isBlank c = true) (hgap' : ∀ c ∈ gap', isBlank c = true)
    (h : gap ++ (a.text ++ us) = gap' ++ (b.text ++ vs)) :
    gap = gap' ∧ a.text ++ us = b.text ++ vs := by
  have htake : ∀ {gap : List Char} (a : Token Literal) (us : List Char),
      (∀ c ∈ gap, isBlank c = true) → (gap ++ (a.text ++ us)).takeWhile isBlank = gap := by
    intro gap a us hgap
    obtain ⟨c, rest, hparts, hc⟩ := a.text_head
    rw [List.takeWhile_append_of_pos hgap, hparts, List.cons_append,
      List.takeWhile_cons_of_neg (by simp [hc]), List.append_nil]
  have hsame : gap = gap' := by
    rw [← htake a us hgap, h, htake b vs hgap']
  rw [hsame] at h
  exact ⟨hsame, List.append_cancel_left h⟩

theorem blank_ne_token {gap : List Char} (a : Token Literal) (hus : ∀ c ∈ us, isBlank c = true) :
    us ≠ gap ++ (a.text ++ vs) := by
  intro h
  obtain ⟨c, rest, hparts, hc⟩ := a.text_head
  have hmem : c ∈ us := by
    rw [h, hparts]
    simp
  rw [hus c hmem] at hc
  cases hc

theorem render_cons (gap : List Char) (a : Token Literal)
    (parts : List (List Char × Token Literal)) (us : List Char) :
    render ((gap, a) :: parts) ++ us = gap ++ (a.text ++ (render parts ++ us)) := by
  simp [render]

/-- A text determines its tokens. -/
theorem render_inj {ps qs : List (List Char × Token Literal)} (hps : LaidOut ps) (hqs : LaidOut qs)
    (hus : ∀ c ∈ us, isBlank c = true) (hvs : ∀ c ∈ vs, isBlank c = true)
    (h : render ps ++ us = render qs ++ vs) : ps.map Prod.snd = qs.map Prod.snd := by
  induction ps generalizing qs with
  | nil =>
    cases qs with
    | nil => rfl
    | cons q qs =>
      obtain ⟨gap, b⟩ := q
      rw [render_cons] at h
      exact absurd h (blank_ne_token b hus)
  | cons p ps ih =>
    obtain ⟨gap, a⟩ := p
    cases qs with
    | nil =>
      rw [render_cons] at h
      exact absurd h.symm (blank_ne_token a hvs)
    | cons q qs =>
      obtain ⟨gap', b⟩ := q
      rw [render_cons, render_cons] at h
      obtain ⟨-, htexts⟩ := blanks_append_inj (hps.blank _ List.mem_cons_self)
        (hqs.blank _ List.mem_cons_self) h
      obtain ⟨hsame, hrest⟩ := Token.text_append_inj (hps.closed hus) (hqs.closed hvs) htexts
      rw [List.map_cons, List.map_cons, ih hps.tail hqs.tail hrest]
      exact congrArg (· :: qs.map Prod.snd) hsame

/-- A value by its code units. -/
abbrev Value := Tree (List Nat)

/-- A JSON text of a value: its tokens with blanks around them. -/
def IsText (text : List Char) (v : Value) : Prop :=
  ∃ (t : Tree Literal) (parts : List (List Char × Token Literal)) (final : List Char),
    t.map Literal.units = v ∧ parts.map Prod.snd = t.tokens ∧
      (∀ p ∈ parts, ∀ c ∈ p.1, isBlank c = true) ∧ (∀ c ∈ final, isBlank c = true) ∧
        text = render parts ++ final

theorem IsText.unique {text : List Char} {v w : Value} (hv : IsText text v) (hw : IsText text w) :
    v = w := by
  obtain ⟨t, ps, us, rfl, hps, hblank, hus, rfl⟩ := hv
  obtain ⟨u, qs, vs, rfl, hqs, hblank', hvs, htext⟩ := hw
  have hchain : (ps.map Prod.snd).IsChain Follows := hps ▸ t.segment.chain
  have hchain' : (qs.map Prod.snd).IsChain Follows := hqs ▸ u.segment.chain
  have hsame := render_inj ⟨hblank, hchain⟩ ⟨hblank', hchain'⟩ hus hvs htext
  rw [hps, hqs] at hsame
  rw [Tree.tokens_inj hsame]

end JsonTokens
