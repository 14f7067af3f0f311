import Mathlib.Data.List.Basic

/-!
# ASCII texts and decimal numbers

The bytes of a text, and of a number as `%d` prints it.  Reading the digits of a number gives
the number back.
-/

namespace Lib

/-- The bytes of an ASCII text. -/
def ascii (text : String) : List UInt8 := text.toList.map fun c => c.toNat.toUInt8

def isDigitByte (byte : UInt8) : Bool := 0x30 ≤ byte && byte ≤ 0x39

/-- The digits of a number. -/
def decimal (n : Nat) : List UInt8 := (Nat.toDigits 10 n).map fun c => c.toNat.toUInt8

/-- What `%d` prints. -/
def formatInt (n : Int) : List UInt8 :=
  if n < 0 then 0x2D :: decimal n.natAbs else decimal n.natAbs

/-- The number that digits stand for. -/
def readDecimal (text : List UInt8) : Option Nat :=
  if text ≠ [] ∧ text.all isDigitByte then
    some (Nat.ofDigitChars 10 (text.map fun byte => Char.ofNat byte.toNat) 0)
  else none

theorem toUInt8_digit {c : Char} (isDigit : c.isDigit) :
    isDigitByte c.toNat.toUInt8 ∧ Char.ofNat c.toNat.toUInt8.toNat = c := by
  have range : 48 ≤ c.toNat ∧ c.toNat ≤ 57 := by
    simpa [Char.isDigit, UInt32.le_iff_toNat_le] using isDigit
  have isByte : c.toNat.toUInt8.toNat = c.toNat := by
    rw [Nat.toUInt8, UInt8.toNat_ofNat']
    omega
  refine ⟨?_, by rw [isByte, Char.ofNat_toNat]⟩
  simp only [isDigitByte, UInt8.le_iff_toNat_le, isByte, UInt8.reduceToNat, Bool.and_eq_true,
    decide_eq_true_eq]
  omega

variable {n : Nat} {byte : UInt8}

theorem isDigitByte_of_mem_decimal (member : byte ∈ decimal n) : isDigitByte byte := by
  obtain ⟨c, isIn, rfl⟩ := List.mem_map.mp member
  exact (toUInt8_digit (Nat.isDigit_of_mem_toDigits (by decide) (by decide) isIn)).1

theorem decimal_ne_nil : decimal n ≠ [] := fun none =>
  Nat.toDigits_ne_nil (List.map_eq_nil_iff.mp none)

theorem readDecimal_decimal (n : Nat) : readDecimal (decimal n) = some n := by
  have digits : (decimal n).all isDigitByte :=
    List.all_eq_true.mpr fun byte member => isDigitByte_of_mem_decimal member
  have back : (decimal n).map (fun byte => Char.ofNat byte.toNat) = Nat.toDigits 10 n := by
    rw [decimal, List.map_map]
    conv_rhs => rw [← List.map_id (Nat.toDigits 10 n)]
    apply List.map_congr_left
    intro c isIn
    exact (toUInt8_digit (Nat.isDigit_of_mem_toDigits (by decide) (by decide) isIn)).2
  rw [readDecimal, if_pos ⟨decimal_ne_nil, digits⟩, back, Nat.ofDigitChars_ten_toDigits]

end Lib
