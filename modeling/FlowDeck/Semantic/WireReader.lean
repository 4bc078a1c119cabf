import FlowDeck.Library.Numerals
import FlowDeck.Library.Fallible

/-! Reading the fields of a protobuf message, and what a loop over them gives. -/

namespace WireReader

open Checked Base128 List

inductive ScipDecodeError
  | truncated
  | unsupportedWireType (wire : Nat)
  | unsupportedGroup
  | stringTooLong (length : Nat)
  | invalidUtf8
  | documentLimit (limit : Nat)
  | occurrenceLimit (limit : Nat)
  | symbolLimit (limit : Nat)
  | invalidRange
  | negativeValue
  deriving DecidableEq

/-- What ends a reading: an error it returns, or an addition that wraps, a shift that exceeds the
word or a slice out of range, which no caller gets a result of. -/
inductive Stop
  | error (e : ScipDecodeError)
  | fault
  deriving DecidableEq

def refuse {α : Type} (e : ScipDecodeError) : Except Stop α := .error (.error e)

/-- A byte slice, which is at most `isize::MAX` long. -/
structure Slice where
  bytes : List UInt8
  bounded : bytes.length < 2 ^ 63
  deriving DecidableEq

def Slice.empty : Slice := ⟨[], Nat.two_pow_pos 63⟩

/-- A position in a slice, and the bytes from it on. -/
structure Reader where
  pos : Nat
  rest : List UInt8
  bounded : pos + rest.length < 2 ^ 63

inductive WireType
  | varint
  | i64
  | len
  | i32
  deriving DecidableEq

def WireType.number : WireType → Nat
  | .varint => 0
  | .i64 => 1
  | .len => 2
  | .i32 => 5

def WireType.fromU8 : Nat → Option WireType
  | 0 => some .varint
  | 1 => some .i64
  | 2 => some .len
  | 5 => some .i32
  | _ => none

structure Field where
  number : Nat
  wire : WireType
  varint : Nat
  bytes : Slice
  deriving DecidableEq

def shiftLeft (bits shift : Nat) : Except Stop Nat :=
  if 64 ≤ shift then .error .fault else .ok ((bits <<< shift) % 2 ^ 64)

/-- The loop of `read_varint`, with the count of the bytes it has read. -/
def varintLoop (result shift read : Nat) : List UInt8 → Except Stop (Nat × Nat)
  | [] => refuse .truncated
  | byte :: rest =>
    if 64 ≤ shift then refuse .truncated
    else do
      let bits ← shiftLeft (digit byte) shift
      if byte.toNat < 128 then .ok (result ||| bits, read + 1)
      else varintLoop (result ||| bits) (shift + 7) (read + 1) rest

namespace Reader

def ofSlice (s : Slice) : Reader := ⟨0, s.bytes, by simpa using s.bounded⟩

/-- The reader behind so many bytes. -/
def skip (r : Reader) (n : Nat) : Reader where
  pos := r.pos + min n r.rest.length
  rest := r.rest.drop n
  bounded := by
    have hbounded := r.bounded
    rw [length_drop]
    omega

def readVarint (r : Reader) : Except Stop (Nat × Reader) := do
  let (value, read) ← varintLoop 0 0 0 r.rest
  return (value, r.skip read)

/-- `self.pos + len`. -/
def advance (r : Reader) (len : Nat) : Except Stop Nat :=
  if 2 ^ 64 ≤ r.pos + len then .error .fault else .ok (r.pos + len)

/-- `&self.buf[self.pos..self.pos + len]`. -/
def slice (r : Reader) (len : Nat) : Except Stop Slice :=
  if r.rest.length < len then .error .fault
  else .ok ⟨r.rest.take len, by
    have hbounded := r.bounded
    rw [length_take]
    omega⟩

def readFixed (r : Reader) (number : Nat) (wire : WireType) (size : Nat) :
    Except Stop (Field × Reader) := do
  let stop ← r.advance size
  refuseIf (r.pos + r.rest.length < stop) (.error .truncated)
  return (⟨number, wire, 0, .empty⟩, r.skip size)

def readLen (r : Reader) (number : Nat) : Except Stop (Field × Reader) := do
  let (len, r) ← r.readVarint
  let stop ← r.advance len
  refuseIf (r.pos + r.rest.length < stop) (.error .truncated)
  let bytes ← r.slice len
  return (⟨number, .len, 0, bytes⟩, r.skip len)

def readPayload (r : Reader) (number : Nat) : WireType → Except Stop (Field × Reader)
  | .varint => do
    let (varint, r) ← r.readVarint
    return (⟨number, .varint, varint, .empty⟩, r)
  | .len => r.readLen number
  | .i64 => r.readFixed number .i64 8
  | .i32 => r.readFixed number .i32 4

/-- The field behind its header; none at the end of the message. -/
def nextField (r : Reader) : Except Stop (Option (Field × Reader)) :=
  if r.rest = [] then .ok none
  else do
    let (tag, r) ← r.readVarint
    match WireType.fromU8 (tag % 8) with
    | none => refuse (.unsupportedWireType (tag % 8))
    | some wire => do
      let (field, r) ← r.readPayload (tag / 8 % 2 ^ 32) wire
      return some (field, r)

end Reader

/-- `while let Some(field) = reader.next_field()?`; a field takes a byte at least, so that as many
rounds as there are bytes are enough. -/
def foldFields {σ : Type} (step : σ → Field → Except Stop σ) :
    Nat → Reader → σ → Except Stop σ
  | 0, _, s => .ok s
  | rounds + 1, r, s => do
    match ← r.nextField with
    | none => .ok s
    | some (field, r) => do
      let s ← step s field
      foldFields step rounds r s

def decodeFields {σ : Type} (step : σ → Field → Except Stop σ) (start : σ) (s : Slice) :
    Except Stop σ :=
  foldFields step s.bytes.length (.ofSlice s) start

theorem refuse_ne_fault {α : Type} {e : ScipDecodeError} : (refuse e : Except Stop α) ≠ .error .fault := by
  simp [refuse]

/-- The first of two readings faults, or the second does. -/
theorem bind_eq_fault {α β : Type} {x : Except Stop α} {f : α → Except Stop β} :
    x >>= f = .error .fault ↔ x = .error .fault ∨ ∃ a, x = .ok a ∧ f a = .error .fault := by
  cases x with
  | error e =>
    have herror : (Except.error e >>= f) = .error e := rfl
    simp [herror]
  | ok a => simp [ok_bind]

/-- The shift is one the word has room for, whenever it is made. -/
theorem varintLoop_ne_fault (result shift read : Nat) (bytes : List UInt8) :
    varintLoop result shift read bytes ≠ .error .fault := by
  induction bytes generalizing result shift read with
  | nil => exact refuse_ne_fault
  | cons byte rest ih =>
    intro h
    unfold varintLoop at h
    split at h
    · exact refuse_ne_fault h
    · next hshift =>
        simp only [shiftLeft, if_neg hshift, ok_bind] at h
        split at h
        · cases h
        · exact ih _ _ _ h

/-- A number is read from the bytes it takes, one of them at least. -/
theorem varintLoop_eq_ok {result shift read value count : Nat} {bytes : List UInt8}
    (h : varintLoop result shift read bytes = .ok (value, count)) :
    read < count ∧ count ≤ read + bytes.length := by
  induction bytes generalizing result shift read with
  | nil => cases h
  | cons byte rest ih =>
    unfold varintLoop at h
    split at h
    · cases h
    · next hshift =>
        simp only [shiftLeft, if_neg hshift, ok_bind] at h
        rw [length_cons]
        split at h
        · cases h
          omega
        · have hrest := ih h
          omega

/-- The loop gives the number that is written where it stands. -/
theorem varintLoop_writes {text : List UInt8} {n : Nat} (h : Writes text n)
    {result shift : Nat} (read : Nat) (rest : List UInt8) (hresult : result < 2 ^ shift)
    (hlength : shift + 7 * text.length ≤ 70) (hvalue : result + n * 2 ^ shift < 2 ^ 64) :
    varintLoop result shift read (text ++ rest) =
      .ok (result + n * 2 ^ shift, read + text.length) := by
  induction h generalizing result shift read with
  | @last b hb =>
    have hshift : ¬64 ≤ shift := by
      rw [length_singleton] at hlength
      omega
    have hbits : (b.toNat <<< shift) % 2 ^ 64 = b.toNat <<< shift := by
      rw [Nat.shiftLeft_eq]
      exact Nat.mod_eq_of_lt (by omega)
    simp only [cons_append, nil_append, varintLoop, if_neg hshift, shiftLeft, ok_bind,
      if_pos hb, digit_of_lt hb, hbits, or_shiftLeft hresult, length_singleton]
  | @more b more n hb hmore ih =>
    rw [length_cons] at hlength
    have hpos : 0 < more.length := length_pos_iff.mpr hmore.ne_nil
    have hshift : ¬64 ≤ shift := by omega
    have hlast : ¬b.toNat < 128 := by omega
    have hpow : 2 ^ (shift + 7) = 128 * 2 ^ shift := by
      rw [Nat.pow_add, Nat.mul_comm]
    have hdigit : digit b = b.toNat - 128 := digit_of_le hb
    have hsum : result + (b.toNat - 128 + 128 * n) * 2 ^ shift =
        result + digit b * 2 ^ shift + n * 2 ^ (shift + 7) := by
      rw [hdigit, hpow]
      ring
    have hbits : (digit b <<< shift) % 2 ^ 64 = digit b <<< shift := by
      rw [Nat.shiftLeft_eq]
      exact Nat.mod_eq_of_lt (by omega)
    have hnext := ih (read + 1) (lt_two_pow_add hresult (digit_lt b)) (by omega)
      (by omega)
    simp only [cons_append, varintLoop, if_neg hshift, shiftLeft, ok_bind, if_neg hlast, hbits,
      or_shiftLeft hresult, hnext, hsum, length_cons]
    rw [Nat.add_assoc read 1, Nat.add_comm 1]

namespace Reader

theorem rest_ofSlice (s : Slice) : (ofSlice s).rest = s.bytes := rfl

theorem rest_skip (r : Reader) (n : Nat) : (r.skip n).rest = r.rest.drop n := rfl

theorem readVarint_ne_fault (r : Reader) : r.readVarint ≠ .error .fault := by
  intro h
  rcases bind_eq_fault.mp h with h | ⟨read, -, h⟩
  · exact varintLoop_ne_fault _ _ _ _ h
  · cases h

variable {r r' : Reader} {number : Nat} {field : Field}

theorem readVarint_eq_ok {value : Nat} (h : r.readVarint = .ok (value, r')) :
    ∃ text, text ≠ [] ∧ r.rest = text ++ r'.rest ∧ r'.pos = r.pos + text.length := by
  obtain ⟨⟨number, count⟩, hloop, heq⟩ := bind_eq_ok.mp h
  obtain ⟨hpos, hle⟩ := varintLoop_eq_ok hloop
  rw [Nat.zero_add] at hle
  obtain ⟨-, rfl⟩ := Prod.mk.inj (pure_eq_ok.mp heq)
  have hlength : (r.rest.take count).length = count := length_take_of_le hle
  refine ⟨r.rest.take count, ?_, (take_append_drop count r.rest).symm, ?_⟩
  · intro hnil
    rw [hnil, length_nil] at hlength
    omega
  · simp only [skip, hlength, Nat.min_eq_left hle]

theorem readVarint_writes {text rest : List UInt8} {n : Nat} (h : Writes text n)
    (hlength : text.length ≤ 10) (hn : n < 2 ^ 64) (hrest : r.rest = text ++ rest) :
    ∃ r', r.readVarint = .ok (n, r') ∧ r'.rest = rest ∧ r'.pos = r.pos + text.length := by
  have hloop := varintLoop_writes h 0 rest (by simp : 0 < 2 ^ 0) (by omega) (by simpa using hn)
  rw [← hrest] at hloop
  have hread : r.readVarint = .ok (n, r.skip text.length) := by
    simp [readVarint, hloop, ok_bind, pure, Except.pure]
  refine ⟨r.skip text.length, hread, ?_, ?_⟩
  · rw [rest_skip, hrest, drop_left]
  · have hle : text.length ≤ r.rest.length := by
      rw [hrest, length_append]
      omega
    simp only [skip, Nat.min_eq_left hle]

/-- Here stands the header of a length-delimited field, whose payload is to begin at a position and
to be so long. -/
inductive Announces (r : Reader) : Nat → Nat → Prop
  | intro {tag len : Nat} {r₁ r₂ : Reader} (htag : r.readVarint = .ok (tag, r₁))
    (hwire : WireType.fromU8 (tag % 8) = some .len) (hlen : r₁.readVarint = .ok (len, r₂)) :
    Announces r r₂.pos len

/-- The announced payload would end beyond the address space. -/
def Overlong (r : Reader) : Prop := ∃ pos len, Announces r pos len ∧ 2 ^ 64 ≤ pos + len

theorem readFixed_ne_fault {size : Nat} {wire : WireType} (h : size ≤ 8) :
    r.readFixed number wire size ≠ .error .fault := by
  have hbounded := r.bounded
  have hadvance : r.advance size = .ok (r.pos + size) := if_neg (by omega)
  intro hfault
  unfold readFixed at hfault
  rw [hadvance, ok_bind] at hfault
  rcases bind_eq_fault.mp hfault with hrefuse | ⟨_, -, hread⟩
  · unfold refuseIf at hrefuse
    split at hrefuse
    · cases hrefuse
    · cases hrefuse
  · cases hread

theorem readLen_eq_fault :
    r.readLen number = .error .fault ↔
      ∃ len r', r.readVarint = .ok (len, r') ∧ 2 ^ 64 ≤ r'.pos + len := by
  unfold readLen
  constructor
  · intro h
    rcases bind_eq_fault.mp h with h | ⟨⟨len, r'⟩, hread, h⟩
    · exact absurd h (readVarint_ne_fault r)
    · refine ⟨len, r', hread, ?_⟩
      by_contra hlt
      have hadvance : r'.advance len = .ok (r'.pos + len) := if_neg hlt
      simp only [hadvance, ok_bind] at h
      rcases bind_eq_fault.mp h with hrefuse | ⟨_, hinside, h⟩
      · unfold refuseIf at hrefuse
        split at hrefuse
        · cases hrefuse
        · cases hrefuse
      · have hfits := refuseIf_eq_ok.mp hinside
        have hslice : ¬r'.rest.length < len := by omega
        simp [slice, hslice, ok_bind, pure, Except.pure] at h
  · rintro ⟨len, r', hread, hover⟩
    have hadvance : r'.advance len = .error .fault := if_pos hover
    simp only [hread, ok_bind, hadvance]
    rfl

/-- Reading a field faults exactly at a header that announces too much. -/
theorem nextField_eq_fault : r.nextField = .error .fault ↔ Overlong r := by
  constructor
  · intro h
    unfold nextField at h
    split at h
    · cases h
    · rcases bind_eq_fault.mp h with h | ⟨⟨tag, r₁⟩, htag, h⟩
      · exact absurd h (readVarint_ne_fault r)
      · cases hwire : WireType.fromU8 (tag % 8) with
        | none =>
          simp only [hwire] at h
          exact absurd h refuse_ne_fault
        | some wire =>
          simp only [hwire] at h
          rcases bind_eq_fault.mp h with h | ⟨_, -, h⟩
          · cases wire with
            | varint =>
              rcases bind_eq_fault.mp h with h | ⟨_, -, h⟩
              · exact absurd h (readVarint_ne_fault r₁)
              · cases h
            | i64 => exact absurd h (readFixed_ne_fault (by omega))
            | i32 => exact absurd h (readFixed_ne_fault (by omega))
            | len =>
              obtain ⟨len, r₂, hlen, hover⟩ := readLen_eq_fault.mp h
              exact ⟨r₂.pos, len, .intro htag hwire hlen, hover⟩
          · cases h
  · rintro ⟨pos, len, hannounces, hover⟩
    obtain ⟨htag, hwire, hlen⟩ := hannounces
    next tag r₁ r₂ =>
      obtain ⟨text, hnonempty, hrest, -⟩ := readVarint_eq_ok htag
      have hsome : r.rest ≠ [] := by
        rw [hrest]
        simp [hnonempty]
      have hread : r₁.readLen (tag / 8 % 2 ^ 32) = .error .fault :=
        readLen_eq_fault.mpr ⟨len, r₂, hlen, hover⟩
      simp only [nextField, if_neg hsome, htag, ok_bind, hwire, readPayload, hread]
      rfl

theorem nextField_eq_none : r.nextField = .ok none ↔ r.rest = [] := by
  constructor
  · intro h
    unfold nextField at h
    split at h
    · assumption
    · obtain ⟨⟨tag, r₁⟩, htag, h⟩ := bind_eq_ok.mp h
      cases hwire : WireType.fromU8 (tag % 8) with
      | none =>
        simp only [hwire] at h
        cases h
      | some wire =>
        simp only [hwire] at h
        obtain ⟨_, -, h⟩ := bind_eq_ok.mp h
        cases h
  · intro h
    exact if_pos h

theorem readFixed_eq_ok {size : Nat} {wire : WireType}
    (h : r.readFixed number wire size = .ok (field, r')) :
    field = ⟨number, wire, 0, .empty⟩ ∧ ∃ fixed, r.rest = fixed ++ r'.rest := by
  obtain ⟨_, -, h⟩ := bind_eq_ok.mp h
  obtain ⟨_, -, h⟩ := bind_eq_ok.mp h
  obtain ⟨rfl, rfl⟩ := Prod.mk.inj (pure_eq_ok.mp h)
  exact ⟨rfl, r.rest.take size, (take_append_drop size r.rest).symm⟩

theorem readLen_eq_ok (h : r.readLen number = .ok (field, r')) :
    ∃ len r₁, r.readVarint = .ok (len, r₁) ∧ r₁.rest = field.bytes.bytes ++ r'.rest ∧
      field.bytes.bytes.length = len := by
  obtain ⟨⟨len, r₁⟩, hread, h⟩ := bind_eq_ok.mp h
  obtain ⟨_, -, h⟩ := bind_eq_ok.mp h
  obtain ⟨_, -, h⟩ := bind_eq_ok.mp h
  obtain ⟨bytes, hslice, h⟩ := bind_eq_ok.mp h
  obtain ⟨rfl, rfl⟩ := Prod.mk.inj (pure_eq_ok.mp h)
  unfold slice at hslice
  split_ifs at hslice with hout
  obtain rfl := Except.ok.inj hslice
  refine ⟨len, r₁, hread, (take_append_drop len r₁.rest).symm, ?_⟩
  exact length_take_of_le (not_lt.mp hout)

/-- A field is read from behind its header, and nothing of it from what follows. -/
theorem nextField_eq_some (h : r.nextField = .ok (some (field, r'))) :
    ∃ header, header ≠ [] ∧ r.rest = header ++ (field.bytes.bytes ++ r'.rest) := by
  unfold nextField at h
  split at h
  · cases h
  · obtain ⟨⟨tag, r₁⟩, htag, h⟩ := bind_eq_ok.mp h
    obtain ⟨text, hnonempty, hrest, -⟩ := readVarint_eq_ok htag
    cases hwire : WireType.fromU8 (tag % 8) with
    | none =>
      simp only [hwire] at h
      cases h
    | some wire =>
      simp only [hwire] at h
      obtain ⟨⟨field, r₂⟩, hpayload, h⟩ := bind_eq_ok.mp h
      obtain ⟨rfl, rfl⟩ := Prod.mk.inj (Option.some.inj (pure_eq_ok.mp h))
      have hmore : ∀ more, r₁.rest = more ++ (field.bytes.bytes ++ r₂.rest) →
          ∃ header, header ≠ [] ∧ r.rest = header ++ (field.bytes.bytes ++ r₂.rest) := by
        intro more hsplit
        refine ⟨text ++ more, by simp [hnonempty], ?_⟩
        rw [hrest, hsplit, append_assoc]
      cases wire with
      | varint =>
        obtain ⟨⟨value, r₃⟩, hread, heq⟩ := bind_eq_ok.mp hpayload
        obtain ⟨rfl, rfl⟩ := Prod.mk.inj (pure_eq_ok.mp heq)
        obtain ⟨digits, -, hdigits, -⟩ := readVarint_eq_ok hread
        exact hmore digits hdigits
      | len =>
        obtain ⟨len, r₃, hread, hsplit, -⟩ := readLen_eq_ok hpayload
        obtain ⟨digits, -, hdigits, -⟩ := readVarint_eq_ok hread
        exact hmore digits (hdigits.trans (congrArg (digits ++ ·) hsplit))
      | i64 =>
        obtain ⟨rfl, fixed, hfixed⟩ := readFixed_eq_ok hpayload
        exact hmore fixed hfixed
      | i32 =>
        obtain ⟨rfl, fixed, hfixed⟩ := readFixed_eq_ok hpayload
        exact hmore fixed hfixed

theorem length_nextField (h : r.nextField = .ok (some (field, r'))) :
    r'.rest.length < r.rest.length := by
  obtain ⟨header, hnonempty, hrest⟩ := nextField_eq_some h
  have hpos : 0 < header.length := length_pos_iff.mpr hnonempty
  rw [hrest, length_append, length_append]
  omega

/-- The fields read from one position to another. -/
inductive Reads : Reader → List Field → Reader → Prop
  | nil (r : Reader) : Reads r [] r
  | cons {r r₁ r₂ : Reader} {field : Field} {fields : List Field}
    (hfield : r.nextField = .ok (some (field, r₁))) (hrest : Reads r₁ fields r₂) :
    Reads r (field :: fields) r₂

end Reader

open Reader

section Fold

variable {σ : Type} {step : σ → Field → Except Stop σ}

variable {rounds : Nat} {r : Reader}

theorem foldFields_succ_eq_ok {s t : σ} :
    foldFields step (rounds + 1) r s = .ok t ↔
      r.nextField = .ok none ∧ s = t ∨
        ∃ field r' s', r.nextField = .ok (some (field, r')) ∧ step s field = .ok s' ∧
          foldFields step rounds r' s' = .ok t := by
  rw [foldFields, bind_eq_ok]
  constructor
  · rintro ⟨next, hnext, h⟩
    cases next with
    | none => exact .inl ⟨hnext, Except.ok.inj h⟩
    | some found =>
      obtain ⟨s', hs', h⟩ := bind_eq_ok.mp h
      exact .inr ⟨found.1, found.2, s', hnext, hs', h⟩
  · rintro (⟨hnext, rfl⟩ | ⟨field, r', s', hnext, hs', h⟩)
    · exact ⟨none, hnext, rfl⟩
    · exact ⟨some (field, r'), hnext, bind_eq_ok.mpr ⟨s', hs', h⟩⟩

theorem foldFields_succ_eq_fault {s : σ} :
    foldFields step (rounds + 1) r s = .error .fault ↔
      r.nextField = .error .fault ∨
        ∃ field r', r.nextField = .ok (some (field, r')) ∧ (step s field = .error .fault ∨
          ∃ s', step s field = .ok s' ∧ foldFields step rounds r' s' = .error .fault) := by
  rw [foldFields, bind_eq_fault]
  apply or_congr_right
  constructor
  · rintro ⟨next, hnext, h⟩
    cases next with
    | none => cases h
    | some found => exact ⟨found.1, found.2, hnext, bind_eq_fault.mp h⟩
  · rintro ⟨field, r', hnext, h⟩
    exact ⟨some (field, r'), hnext, bind_eq_fault.mpr h⟩

/-- A loop that comes to the end has read all fields and made its step for each. -/
theorem foldFields_eq_ok {s t : σ} (h : r.rest.length ≤ rounds) :
    foldFields step rounds r s = .ok t ↔
      ∃ fields r', Reads r fields r' ∧ r'.rest = [] ∧ fields.foldlM step s = .ok t := by
  induction rounds generalizing r s with
  | zero =>
    have hnil : r.rest = [] := eq_nil_of_length_eq_zero (Nat.le_zero.mp h)
    constructor
    · intro hok
      exact ⟨[], r, .nil r, hnil, hok⟩
    · rintro ⟨fields, r', hreads, -, hok⟩
      cases hreads with
      | nil => exact hok
      | cons hfield hrest =>
        rw [nextField_eq_none.mpr hnil] at hfield
        cases hfield
  | succ rounds ih =>
    rw [foldFields_succ_eq_ok]
    constructor
    · rintro (⟨hnext, rfl⟩ | ⟨field, r', s', hnext, hs', hok⟩)
      · exact ⟨[], r, .nil r, nextField_eq_none.mp hnext, rfl⟩
      · have hlength := length_nextField hnext
        obtain ⟨fields, last, hreads, hend, hok⟩ := (ih (by omega)).mp hok
        exact ⟨field :: fields, last, .cons hnext hreads, hend, bind_eq_ok.mpr ⟨s', hs', hok⟩⟩
    · rintro ⟨fields, last, hreads, hend, hok⟩
      cases hreads with
      | nil => exact .inl ⟨nextField_eq_none.mpr hend, Except.ok.inj hok⟩
      | @cons _ r₁ _ field fields hfield hrest =>
        have hlength := length_nextField hfield
        obtain ⟨s', hs', hok⟩ := bind_eq_ok.mp hok
        exact .inr ⟨field, r₁, s', hfield, hs', (ih (by omega)).mpr ⟨fields, last, hrest, hend, hok⟩⟩

/-- A loop faults where it comes to: at a header, or in the step for the field behind it. -/
theorem foldFields_eq_fault {s : σ} (h : r.rest.length ≤ rounds) :
    foldFields step rounds r s = .error .fault ↔
      ∃ fields r' s', Reads r fields r' ∧ fields.foldlM step s = .ok s' ∧ (Overlong r' ∨
        ∃ field r'', r'.nextField = .ok (some (field, r'')) ∧ step s' field = .error .fault) := by
  induction rounds generalizing r s with
  | zero =>
    have hnil : r.rest = [] := eq_nil_of_length_eq_zero (Nat.le_zero.mp h)
    have hnone := nextField_eq_none.mpr hnil
    constructor
    · intro hfault
      cases hfault
    · rintro ⟨fields, r', s', hreads, -, hstop⟩
      cases hreads with
      | nil =>
        rw [← nextField_eq_fault, hnone] at hstop
        rcases hstop with hstop | ⟨field, r'', hstop, -⟩
        · cases hstop
        · cases hstop
      | cons hfield hrest =>
        rw [hnone] at hfield
        cases hfield
  | succ rounds ih =>
    rw [foldFields_succ_eq_fault]
    constructor
    · rintro (hnext | ⟨field, r', hnext, hstep | ⟨s', hs', hfault⟩⟩)
      · exact ⟨[], r, s, .nil r, rfl, .inl (nextField_eq_fault.mp hnext)⟩
      · exact ⟨[], r, s, .nil r, rfl, .inr ⟨field, r', hnext, hstep⟩⟩
      · have hlength := length_nextField hnext
        obtain ⟨fields, last, t, hreads, hok, hstop⟩ := (ih (by omega)).mp hfault
        exact ⟨field :: fields, last, t, .cons hnext hreads, bind_eq_ok.mpr ⟨s', hs', hok⟩, hstop⟩
    · rintro ⟨fields, last, t, hreads, hok, hstop⟩
      cases hreads with
      | nil =>
        obtain rfl : s = t := Except.ok.inj hok
        rcases hstop with hstop | ⟨field, r'', hnext, hstep⟩
        · exact .inl (nextField_eq_fault.mpr hstop)
        · exact .inr ⟨field, r'', hnext, .inl hstep⟩
      | @cons _ r₁ _ field fields hfield hrest =>
        have hlength := length_nextField hfield
        obtain ⟨s', hs', hok⟩ := bind_eq_ok.mp hok
        exact .inr ⟨field, r₁, hfield, .inr ⟨s', hs',
          (ih (by omega)).mpr ⟨fields, last, t, hrest, hok, hstop⟩⟩⟩

theorem decodeFields_eq_ok {start t : σ} {s : Slice} :
    decodeFields step start s = .ok t ↔
      ∃ fields r, Reads (.ofSlice s) fields r ∧ r.rest = [] ∧ fields.foldlM step start = .ok t :=
  foldFields_eq_ok (Nat.le_refl _)

/-- A message of which the reading comes to a field that is announced beyond the address space, or
to one in whose payload this happens. -/
def Overruns (step : σ → Field → Except Stop σ) (start : σ) (nested : σ → Field → Prop)
    (s : Slice) : Prop :=
  ∃ fields r t, Reads (.ofSlice s) fields r ∧ fields.foldlM step start = .ok t ∧
    (Overlong r ∨ ∃ field r', r.nextField = .ok (some (field, r')) ∧ nested t field)

theorem decodeFields_eq_fault {start : σ} {nested : σ → Field → Prop} {s : Slice}
    (h : ∀ t field, step t field = .error .fault ↔ nested t field) :
    decodeFields step start s = .error .fault ↔ Overruns step start nested s := by
  have hrounds : (ofSlice s).rest.length ≤ s.bytes.length := Nat.le_refl _
  rw [decodeFields, foldFields_eq_fault hrounds]
  simp only [Overruns, h]

end Fold

end WireReader
