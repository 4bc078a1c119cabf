import Mathlib.Data.List.Lex
import Mathlib.Data.Nat.Bitwise
import Mathlib.Data.Nat.Digits.Defs

namespace Decimal

def digit (n : Nat) : Char := Char.ofNat (48 + n % 10)

/-- A number in a fixed count of decimal digits. -/
def pad : Nat → Nat → List Char
  | 0, _ => []
  | width + 1, n => pad width (n / 10) ++ [digit n]

variable {n m width : Nat}

theorem toList_toString (n : Nat) : (toString n).toList = Nat.toDigits 10 n := by
  simp [toString, Nat.repr]

theorem isDigit_of_mem_toString {c : Char} (h : c ∈ (toString n).toList) : c.isDigit = true := by
  rw [toList_toString] at h
  exact Nat.isDigit_of_mem_toDigits (by decide) (by decide) h

theorem notMem_toString {c : Char} (hc : c.isDigit = false) (n : Nat) :
    c ∉ (toString n).toList := by
  intro hmem
  rw [isDigit_of_mem_toString hmem] at hc
  cases hc

theorem ofDigitChars_toString (n : Nat) : Nat.ofDigitChars 10 (toString n).toList 0 = n := by
  rw [toList_toString, Nat.ofDigitChars_ten_toDigits]

theorem toString_inj {n' : Nat} (h : (toString n).toList = (toString n').toList) : n = n' := by
  rw [← ofDigitChars_toString n, h, ofDigitChars_toString]

end Decimal

/-! Numbers as bytes of seven bits, the lowest first, all but the last with their high bit set. -/

namespace Base128

/-- The bytes write the number; a number may be written with more bytes than it needs. -/
inductive Writes : List UInt8 → Nat → Prop
  | last {b : UInt8} (h : b.toNat < 128) : Writes [b] b.toNat
  | more {b : UInt8} {rest : List UInt8} {n : Nat} (h : 128 ≤ b.toNat) (hrest : Writes rest n) :
    Writes (b :: rest) (b.toNat - 128 + 128 * n)

theorem Writes.ne_nil {text : List UInt8} {n : Nat} (h : Writes text n) : text ≠ [] := by
  cases h with
  | last h => simp
  | more h hrest => simp

/-- The digit of a byte. -/
def digit (b : UInt8) : Nat := b.toNat % 128

theorem digit_of_lt {b : UInt8} (h : b.toNat < 128) : digit b = b.toNat := Nat.mod_eq_of_lt h

theorem digit_of_le {b : UInt8} (h : 128 ≤ b.toNat) : digit b = b.toNat - 128 := by
  have hlt : b.toNat < 256 := b.toNat_lt
  unfold digit
  omega

theorem digit_lt (b : UInt8) : digit b < 128 := Nat.mod_lt _ (by omega)

/-- Bits set above a number are added to it. -/
theorem or_shiftLeft {low shift : Nat} (h : low < 2 ^ shift) (high : Nat) :
    low ||| high <<< shift = low + high * 2 ^ shift := by
  have hadd := Nat.two_pow_add_eq_or_of_lt h high
  have hshift : high <<< shift = 2 ^ shift * high := by
    rw [Nat.shiftLeft_eq, Nat.mul_comm]
  rw [Nat.or_comm, hshift, ← hadd, Nat.add_comm, Nat.mul_comm]

theorem lt_two_pow_add {low d shift : Nat} (hlow : low < 2 ^ shift) (hd : d < 128) :
    low + d * 2 ^ shift < 2 ^ (shift + 7) := by
  have hpow : 2 ^ (shift + 7) = 128 * 2 ^ shift := by
    rw [Nat.pow_add]
    omega
  have hle : d * 2 ^ shift ≤ 127 * 2 ^ shift := Nat.mul_le_mul_right _ (by omega)
  omega

end Base128
