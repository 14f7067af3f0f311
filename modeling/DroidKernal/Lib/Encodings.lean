import Mathlib.Data.List.Basic
import Mathlib.Data.Nat.Bitwise

/-!
# UTF-8 and UTF-16

Well-formed text is the encoding of a list of characters.  UTF-8 is taken from Lean;
UTF-16 is defined here.  The bit operations of a converter are stated on numbers.
-/

namespace Lib

/-- A character in UTF-16: one unit, or a surrogate pair. -/
def utf16EncodeChar (c : Char) : List UInt16 :=
  let v := c.val.toNat
  if v ≤ 0xffff then [UInt16.ofNat v]
  else
    [UInt16.ofNat (0xd800 + (v - 0x10000) / 0x400), UInt16.ofNat (0xdc00 + (v - 0x10000) % 0x400)]

/-- Text in UTF-8. -/
def utf8Encode (chars : List Char) : List UInt8 := chars.flatMap String.utf8EncodeChar

/-- Text in UTF-16. -/
def utf16Encode (chars : List Char) : List UInt16 := chars.flatMap utf16EncodeChar

@[simp] theorem utf8Encode_nil : utf8Encode [] = [] := rfl

@[simp] theorem utf8Encode_cons (c : Char) (chars : List Char) :
    utf8Encode (c :: chars) = String.utf8EncodeChar c ++ utf8Encode chars := rfl

@[simp] theorem utf16Encode_nil : utf16Encode [] = [] := rfl

@[simp] theorem utf16Encode_cons (c : Char) (chars : List Char) :
    utf16Encode (c :: chars) = utf16EncodeChar c ++ utf16Encode chars := rfl

/-- The code point of a character is no surrogate. -/
theorem char_range (c : Char) :
    c.val.toNat < 0xd800 ∨ 0xdfff < c.val.toNat ∧ c.val.toNat < 0x110000 := by
  have valid := c.valid
  simp only [UInt32.isValidChar, Nat.isValidChar] at valid
  omega

/-- Characters are equal if their code points are. -/
theorem char_eq_nul {c : Char} (zero : c.val.toNat = 0) : c = '\x00' := by
  apply Char.ext
  apply UInt32.toNat_inj.mp
  rw [zero]
  rfl

/-! ## Bits -/

/-- The bits above the tenth of a 16 bit unit. -/
theorem and_surrogate_mask {n : Nat} (isUnit : n < 2 ^ 16) : n &&& 0xfc00 = n / 0x400 * 0x400 := by
  have high : (n &&& 0xfc00) / 2 ^ 10 = n / 2 ^ 10 := by
    rw [Nat.and_div_two_pow]
    have mask : 0xfc00 / 2 ^ 10 = 2 ^ 6 - 1 := rfl
    rw [mask, Nat.and_two_pow_sub_one_eq_mod]
    omega
  have low : (n &&& 0xfc00) % 2 ^ 10 = 0 := by
    rw [Nat.and_mod_two_pow]
    exact Nat.and_zero _
  omega

/-- More bits below a number. -/
theorem shiftLeft_or_low {high low k : Nat} (small : low < 2 ^ k) :
    high <<< k ||| low = high * 2 ^ k + low := by
  rw [← Nat.shiftLeft_add_eq_or_of_lt small, Nat.shiftLeft_eq]

/-! ## Bytes and units of a text -/

/-- Only the null character has a zero byte. -/
theorem zero_mem_utf8EncodeChar {c : Char} (member : (0 : UInt8) ∈ String.utf8EncodeChar c) :
    c = '\x00' := by
  have range := char_range c
  apply char_eq_nul
  unfold String.utf8EncodeChar at member
  simp only at member
  split_ifs at member <;>
    simp only [List.mem_cons, List.not_mem_nil, or_false, ← UInt8.toNat_inj, UInt8.toNat_ofNat',
      UInt8.toNat_zero] at member <;> omega

/-- Units are not more than bytes. -/
theorem utf16Encode_length_le (chars : List Char) :
    (utf16Encode chars).length ≤ (utf8Encode chars).length := by
  induction chars with
  | nil => exact Nat.le_refl 0
  | cons c chars ih =>
      have one : (utf16EncodeChar c).length ≤ (String.utf8EncodeChar c).length := by
        unfold utf16EncodeChar String.utf8EncodeChar
        simp only
        split_ifs <;> simp
        omega
      rw [utf16Encode_cons, utf8Encode_cons, List.length_append, List.length_append]
      omega

theorem utf16Encode_eq_nil {chars : List Char} (empty : utf16Encode chars = []) : chars = [] := by
  cases chars with
  | nil => rfl
  | cons c chars =>
      rw [utf16Encode_cons, List.append_eq_nil_iff] at empty
      have nonempty : utf16EncodeChar c ≠ [] := by
        unfold utf16EncodeChar
        simp only
        split_ifs <;> simp
      exact absurd empty.1 nonempty

end Lib
