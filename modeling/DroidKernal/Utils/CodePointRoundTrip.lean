import DroidKernal.Utils.CodePoints
import DroidKernal.Utils.Measures

/-!
# Code points survive UTF-8

What `utf32_to_utf8` stores is the text without the code points that are none, and a
caller that follows the indices of `utf32_from_utf8_at` gets the same code points back.
-/

namespace DroidKernal.Utils

open Lib

/-! ## One character -/

/-- Sign extension stays above the byte. -/
theorem charValue_toNat (signed : Bool) (byte : UInt8) :
    (charValue signed byte).toNat % 256 = byte.toNat := by
  revert byte
  cases signed with
  | false =>
      apply forall_byte
      decide +kernel
  | true =>
      apply forall_byte
      decide +kernel

/-- The bits of a first byte. -/
theorem charValue_bit (signed : Bool) (byte : UInt8) :
    (charValue signed byte &&& 0x80 = 0 ↔ byte.toNat / 0x80 % 2 = 0) ∧
      (charValue signed byte &&& 0x40 = 0 ↔ byte.toNat / 0x40 % 2 = 0) ∧
      (charValue signed byte &&& 0x20 = 0 ↔ byte.toNat / 0x20 % 2 = 0) ∧
      (charValue signed byte &&& 0x10 = 0 ↔ byte.toNat / 0x10 % 2 = 0) ∧
      (charValue signed byte &&& 0x08 = 0 ↔ byte.toNat / 0x08 % 2 = 0) := by
  revert byte
  cases signed with
  | false =>
      apply forall_byte
      decide +kernel
  | true =>
      apply forall_byte
      decide +kernel

/-- One more byte of a character. -/
theorem continued_toNat (utf32 : UInt32) (byte : UInt8) :
    ((utf32 <<< 6) + (byte &&& 0x3F).toUInt32).toNat =
      (utf32.toNat * 64 + byte.toNat % 64) % 2 ^ 32 := by
  have low := and_low_toNat byte 0x3F (k := 6) rfl
  have shift : (utf32 <<< 6).toNat = utf32.toNat * 64 % 2 ^ 32 := by
    rw [UInt32.toNat_shiftLeft]
    exact congrArg (· % 2 ^ 32) (Nat.shiftLeft_eq utf32.toNat 6)
  rw [UInt32.toNat_add, shift, low]
  omega

/-- The bits that are not ignored. -/
theorem and_ones_toNat (utf32 ones : UInt32) {k : Nat} (isMask : ones.toNat = 2 ^ k - 1) :
    (utf32 &&& ones).toNat = utf32.toNat % 2 ^ k := by
  rw [UInt32.toNat_and, isMask, Nat.and_two_pow_sub_one_eq_mod]

section Internal

variable (signed : Bool) {byte : UInt8} (second third fourth : UInt8) (rest : List UInt8)

theorem utf32AtInternal_one (range : byte.toNat < 0x80) :
    utf32AtInternal signed (byte :: rest) = some (charValue signed byte, 1) := by
  have bits := charValue_bit signed byte
  rw [utf32AtInternal, if_pos (bits.1.mpr (by omega))]

theorem utf32AtInternal_two (least : 0xc0 ≤ byte.toNat) (most : byte.toNat < 0xe0) :
    utf32AtInternal signed (byte :: second :: rest) =
      some (((charValue signed byte <<< 6) + (second &&& 0x3F).toUInt32) &&& 0x7FF, 2) := by
  obtain ⟨bit80, bit40, bit20, _, _⟩ := charValue_bit signed byte
  have set80 : ¬ charValue signed byte &&& 0x80 = 0 := fun none => by
    have := bit80.mp none
    omega
  have set40 : charValue signed byte &&& 0x40 ≠ 0 := fun none => by
    have := bit40.mp none
    omega
  have clear20 : ¬ charValue signed byte &&& 0x20 ≠ 0 := not_not.mpr (bit20.mpr (by omega))
  have mask20 : (0x40 : UInt32) >>> 1 = 0x20 := rfl
  simp only [utf32AtInternal, if_neg set80, utf32AtLoop, if_pos set40, mask20, if_neg clear20,
    Option.bind_eq_bind, Option.bind_some]
  rfl

theorem utf32AtInternal_three (least : 0xe0 ≤ byte.toNat) (most : byte.toNat < 0xf0) :
    utf32AtInternal signed (byte :: second :: third :: rest) =
      some (((((charValue signed byte <<< 6) + (second &&& 0x3F).toUInt32) <<< 6) +
        (third &&& 0x3F).toUInt32) &&& 0xFFFF, 3) := by
  obtain ⟨bit80, bit40, bit20, bit10, _⟩ := charValue_bit signed byte
  have set80 : ¬ charValue signed byte &&& 0x80 = 0 := fun none => by
    have := bit80.mp none
    omega
  have set40 : charValue signed byte &&& 0x40 ≠ 0 := fun none => by
    have := bit40.mp none
    omega
  have set20 : charValue signed byte &&& 0x20 ≠ 0 := fun none => by
    have := bit20.mp none
    omega
  have clear10 : ¬ charValue signed byte &&& 0x10 ≠ 0 := not_not.mpr (bit10.mpr (by omega))
  have mask20 : (0x40 : UInt32) >>> 1 = 0x20 := rfl
  have mask10 : (0x20 : UInt32) >>> 1 = 0x10 := rfl
  simp only [utf32AtInternal, if_neg set80, utf32AtLoop, if_pos set40, mask20, if_pos set20,
    mask10, if_neg clear10, Option.bind_eq_bind, Option.bind_some]
  rfl

theorem utf32AtInternal_four (least : 0xf0 ≤ byte.toNat) (most : byte.toNat < 0xf8) :
    utf32AtInternal signed (byte :: second :: third :: fourth :: rest) =
      some (((((((charValue signed byte <<< 6) + (second &&& 0x3F).toUInt32) <<< 6) +
        (third &&& 0x3F).toUInt32) <<< 6) + (fourth &&& 0x3F).toUInt32) &&& 0x1FFFFF, 4) := by
  obtain ⟨bit80, bit40, bit20, bit10, bit08⟩ := charValue_bit signed byte
  have set80 : ¬ charValue signed byte &&& 0x80 = 0 := fun none => by
    have := bit80.mp none
    omega
  have set40 : charValue signed byte &&& 0x40 ≠ 0 := fun none => by
    have := bit40.mp none
    omega
  have set20 : charValue signed byte &&& 0x20 ≠ 0 := fun none => by
    have := bit20.mp none
    omega
  have set10 : charValue signed byte &&& 0x10 ≠ 0 := fun none => by
    have := bit10.mp none
    omega
  have clear08 : ¬ charValue signed byte &&& 0x08 ≠ 0 := not_not.mpr (bit08.mpr (by omega))
  have mask20 : (0x40 : UInt32) >>> 1 = 0x20 := rfl
  have mask10 : (0x20 : UInt32) >>> 1 = 0x10 := rfl
  have mask08 : (0x10 : UInt32) >>> 1 = 0x08 := rfl
  simp only [utf32AtInternal, if_neg set80, utf32AtLoop, if_pos set40, mask20, if_pos set20,
    mask10, if_pos set10, mask08, if_neg clear08, Option.bind_eq_bind, Option.bind_some]
  rfl

end Internal

/-- The bytes of a character give it back, with their number. -/
theorem utf32AtInternal_encode (signed : Bool) (c : Char) (rest : List UInt8) :
    utf32AtInternal signed (String.utf8EncodeChar c ++ rest) =
      some (c.val, (String.utf8EncodeChar c).length) := by
  have range := char_range c
  have decoded : ∀ {codepoint : UInt32} {bytes n : Nat}, codepoint.toNat = c.val.toNat →
      bytes = n → some (codepoint, bytes) = some (c.val, n) := by
    rintro codepoint bytes n same rfl
    rw [UInt32.toNat_inj.mp same]
  unfold String.utf8EncodeChar
  simp only
  split_ifs with one two three
  · rw [List.cons_append, List.nil_append, utf32AtInternal_one]
    · have small : (charValue signed (UInt8.ofNat c.val.toNat)).toNat = c.val.toNat := by
        rw [charValue, if_neg]
        · rw [UInt8.toNat_toUInt32, UInt8.toNat_ofNat']
          omega
        · rw [Bool.and_eq_true, decide_eq_true_eq, UInt8.le_iff_toNat_le, UInt8.toNat_ofNat']
          rintro ⟨_, large⟩
          have : (0x80 : UInt8).toNat = 128 := rfl
          omega
      exact decoded small rfl
    · rw [UInt8.toNat_ofNat']
      omega
  · have byte := charValue_toNat signed (UInt8.ofNat (c.val.toNat / 64 % 0x20 + 0xc0))
    rw [UInt8.toNat_ofNat'] at byte
    simp only [List.cons_append, List.nil_append]
    rw [utf32AtInternal_two signed _ _ (by rw [UInt8.toNat_ofNat']; omega)
      (by rw [UInt8.toNat_ofNat']; omega)]
    apply decoded _ rfl
    rw [and_ones_toNat _ 0x7FF (k := 11) rfl, continued_toNat, UInt8.toNat_ofNat']
    omega
  · have byte := charValue_toNat signed (UInt8.ofNat (c.val.toNat / 4096 % 0x10 + 0xe0))
    rw [UInt8.toNat_ofNat'] at byte
    simp only [List.cons_append, List.nil_append]
    rw [utf32AtInternal_three signed _ _ _ (by rw [UInt8.toNat_ofNat']; omega)
      (by rw [UInt8.toNat_ofNat']; omega)]
    apply decoded _ rfl
    rw [and_ones_toNat _ 0xFFFF (k := 16) rfl, continued_toNat, continued_toNat,
      UInt8.toNat_ofNat', UInt8.toNat_ofNat']
    omega
  · have byte := charValue_toNat signed (UInt8.ofNat (c.val.toNat / 262144 % 0x08 + 0xf0))
    rw [UInt8.toNat_ofNat'] at byte
    simp only [List.cons_append, List.nil_append]
    rw [utf32AtInternal_four signed _ _ _ _ (by rw [UInt8.toNat_ofNat']; omega)
      (by rw [UInt8.toNat_ofNat']; omega)]
    apply decoded _ rfl
    rw [and_ones_toNat _ 0x1FFFFF (k := 21) rfl, continued_toNat, continued_toNat,
      continued_toNat, UInt8.toNat_ofNat', UInt8.toNat_ofNat', UInt8.toNat_ofNat']
    omega

/-! ## Text -/

/-- The character of a code point; surrogates and numbers beyond the last one have none. -/
def charOf (codePoint : UInt32) : Option Char :=
  if valid : codePoint.isValidChar then some ⟨codePoint, valid⟩ else none

/-- What is stored for a code point. -/
theorem storeUtf8_charOf (codePoint : UInt32) :
    storeUtf8 codePoint = utf8Encode (charOf codePoint).toList := by
  rw [charOf]
  split
  next valid =>
    rw [Option.toList_some, utf8Encode_cons, utf8Encode_nil, List.append_nil]
    exact storeUtf8_eq ⟨codePoint, valid⟩
  next invalid =>
    have noLength : utf32CodepointUtf8Length codePoint = 0 := by
      have start : kUnicodeSurrogateStart.toNat = 0xd800 := rfl
      have stop : kUnicodeSurrogateEnd.toNat = 0xdfff := rfl
      have most : kUnicodeMaxCodepoint.toNat = 0x10ffff := rfl
      simp only [UInt32.isValidChar, Nat.isValidChar] at invalid
      simp only [utf32CodepointUtf8Length, gt_iff_lt, UInt32.lt_iff_toNat_lt,
        UInt32.le_iff_toNat_le, UInt32.reduceToNat, start, stop, most]
      split_ifs <;> omega
    rw [storeUtf8, noLength]
    rfl

/-- The code points that are characters. -/
theorem charOf_values (src : List UInt32) :
    (src.filterMap charOf).map (fun c => (c.val.toNat : Int)) =
      (src.filter fun codePoint => (charOf codePoint).isSome).map
        fun codePoint => (codePoint.toNat : Int) := by
  induction src with
  | nil => rfl
  | cons codePoint src ih =>
      by_cases valid : codePoint.isValidChar
      · have isChar : charOf codePoint = some ⟨codePoint, valid⟩ := dif_pos valid
        rw [List.filterMap_cons_some isChar, List.filter_cons_of_pos (by rw [isChar]; rfl),
          List.map_cons, List.map_cons, ih]
      · have noChar : charOf codePoint = none := dif_neg valid
        rw [List.filterMap_cons_none noChar, List.filter_cons_of_neg (by simp [noChar]), ih]

theorem utf32ToUtf8_bytes (src : List UInt32) :
    src.flatMap storeUtf8 = utf8Encode (src.filterMap charOf) := by
  induction src with
  | nil => rfl
  | cons codePoint src ih =>
      rw [List.flatMap_cons, ih, storeUtf8_charOf]
      cases isChar : charOf codePoint with
      | none => simp [isChar]
      | some c => simp [isChar]

/-- The measuring loop counts the bytes of the storing one, up to `SSIZE_MAX`. -/
theorem utf32ToUtf8LengthLoop_eq (src : List UInt32) :
    ∀ ret, ret ≤ ssizeMax → utf32ToUtf8LengthLoop src ret =
      if ret + (src.flatMap storeUtf8).length ≤ ssizeMax then
        some (ret + (src.flatMap storeUtf8).length)
      else none := by
  induction src with
  | nil =>
      intro ret inRange
      exact (if_pos inRange).symm
  | cons codePoint src ih =>
      intro ret _
      rw [utf32ToUtf8LengthLoop, List.flatMap_cons, List.length_append, storeUtf8_length]
      exact addCharLen_bind (utf32CodepointUtf8Length_le _) ih

/-- The code points that a caller gets who starts at an index and goes on with the stored next
index, as long as there is one. -/
def followIndices (signed : Bool) (src : List UInt8) (srcLen : Nat) :
    Nat → Nat → Option (List Int)
  | 0, _ => none
  | fuel + 1, index => do
      let (codePoint, next) ← utf32FromUtf8At signed src srcLen index
      match next with
      | none => return []
      | some next =>
          let rest ← followIndices signed src srcLen fuel next
          return codePoint :: rest

/-- One call in the middle of a text. -/
theorem utf32FromUtf8At_encode (signed : Bool) (before : List UInt8) (c : Char)
    (behind rest : List UInt8) :
    utf32FromUtf8At signed (before ++ (String.utf8EncodeChar c ++ behind) ++ rest)
        (before ++ (String.utf8EncodeChar c ++ behind)).length before.length =
      some ((c.val.toNat : Int), some (before ++ String.utf8EncodeChar c).length) := by
  have range := char_range c
  have nonempty : String.utf8EncodeChar c ≠ [] := by
    obtain ⟨ch, tail, encoded, _⟩ := utf8EncodeChar_decoded c []
    rw [encoded]
    exact List.cons_ne_nil _ _
  have positive := List.length_pos_iff.mpr nonempty
  have inside : ¬ before.length ≥ (before ++ (String.utf8EncodeChar c ++ behind)).length := by
    simp only [List.length_append]
    omega
  have notNegative : c.val.toInt32.toInt = c.val.toNat := by
    have small : 2 * c.val.toBitVec.toNat < 2 ^ 32 := by
      have same : c.val.toBitVec.toNat = c.val.toNat := rfl
      omega
    exact BitVec.toInt_eq_toNat_of_lt small
  have isNext : (if (c.val.toNat : Int) ≥ 0 then
      some (before.length + (String.utf8EncodeChar c).length) else none) =
        some (before ++ String.utf8EncodeChar c).length := by
    rw [if_pos (Int.natCast_nonneg _), List.length_append]
  rw [utf32FromUtf8At, if_neg inside, List.append_assoc, List.drop_left, List.append_assoc,
    utf32AtInternal_encode]
  simp only [Option.bind_eq_bind, Option.bind_some, Option.pure_def, notNegative, isNext]

/-- The whole walk. -/
theorem followIndices_encode (signed : Bool) (chars : List Char) :
    ∀ before fuel, chars.length < fuel →
      followIndices signed (before ++ utf8Encode chars ++ [0])
          (before ++ utf8Encode chars).length fuel before.length =
        some (chars.map fun c => (c.val.toNat : Int)) := by
  induction chars with
  | nil =>
      intro before fuel enough
      obtain ⟨fuel, rfl⟩ := Nat.exists_eq_succ_of_ne_zero (Nat.ne_of_gt enough)
      have atEnd : before.length ≥ (before ++ utf8Encode []).length := by simp
      have stops : utf32FromUtf8At signed (before ++ utf8Encode [] ++ [0])
          (before ++ utf8Encode []).length before.length = some (-1, none) := by
        rw [utf32FromUtf8At, if_pos atEnd]
      rw [followIndices, stops]
      rfl
  | cons c chars ih =>
      intro before fuel enough
      obtain ⟨fuel, rfl⟩ := Nat.exists_eq_succ_of_ne_zero (Nat.ne_of_gt (Nat.zero_lt_of_lt enough))
      have rest := ih (before ++ String.utf8EncodeChar c) fuel
        (Nat.lt_of_succ_lt_succ (by simpa using enough))
      rw [List.append_assoc before] at rest
      rw [followIndices, utf8Encode_cons, utf32FromUtf8At_encode]
      simp only [Option.bind_eq_bind, Option.bind_some, rest]
      rfl

/-- Whatever the code points, and whether `char` is signed or not: `utf32_to_utf8` stores the
UTF-8 text of those that are characters and a terminator, `utf32_to_utf8_length` measures that
text, and following the indices of `utf32_from_utf8_at` gives these code points back, in order,
up to the end of the text. -/
theorem code_points_round_trip (signed : Bool) {src : List UInt32} (nonempty : src ≠ []) :
    let bytes := utf8Encode (src.filterMap charOf)
    utf32ToUtf8 src = bytes ++ [0] ∧
      utf32ToUtf8Length src = (if bytes.length ≤ ssizeMax then (bytes.length : Int) else -1) ∧
      followIndices signed (utf32ToUtf8 src) bytes.length (src.length + 1) 0 =
        some ((src.filter fun codePoint => (charOf codePoint).isSome).map
          fun codePoint => (codePoint.toNat : Int)) := by
  have notEmpty : ¬ src.length = 0 := fun none => nonempty (List.eq_nil_of_length_eq_zero none)
  intro bytes
  have stored : utf32ToUtf8 src = bytes ++ [0] := by
    rw [utf32ToUtf8, if_neg notEmpty, utf32ToUtf8_bytes]
  refine ⟨stored, ?_, ?_⟩
  · rw [utf32ToUtf8Length, if_neg notEmpty, utf32ToUtf8LengthLoop_eq src 0 (Nat.zero_le _),
      utf32ToUtf8_bytes, Nat.zero_add]
    by_cases fits : bytes.length ≤ ssizeMax
    · rw [if_pos fits, if_pos fits]
    · rw [if_neg fits, if_neg fits]
  · have few : (src.filterMap charOf).length < src.length + 1 :=
      Nat.lt_succ_of_le (List.length_filterMap_le _ _)
    have walked := followIndices_encode signed (src.filterMap charOf) [] _ few
    rw [List.nil_append] at walked
    rw [stored]
    refine walked.trans (congrArg some ?_)
    exact charOf_values src

/-- A letter, a surrogate, and an emoji. -/
theorem code_points_round_trip_three :
    utf32ToUtf8 [0x41, 0xd800, 0x1f600] = [0x41, 0xf0, 0x9f, 0x98, 0x80, 0] ∧
      followIndices true (utf32ToUtf8 [0x41, 0xd800, 0x1f600]) 5 4 0 = some [0x41, 0x1f600] := by
  obtain ⟨_, _, walked⟩ := code_points_round_trip true
    (List.cons_ne_nil 0x41 [0xd800, 0x1f600])
  exact ⟨by decide, walked⟩

end DroidKernal.Utils
