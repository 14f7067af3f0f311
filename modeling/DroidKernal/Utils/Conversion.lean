import DroidKernal.Lib.Encodings
import DroidKernal.Utils.LiveStrings
import DroidKernal.Utils.String16

/-!
# Conversions are inverse

Both directions go through code points.  For one character, the functions compute its UTF-8
bytes and its UTF-16 units; the loops consume a text character by character, and the measuring
functions add up the lengths that the converting ones store.
-/

namespace DroidKernal.Utils

open Lib

/-! ## One character -/

/-- A statement about all bytes is checked on each of them. -/
theorem forall_byte {property : UInt8 → Prop}
    (each : ∀ n, n < 256 → property (UInt8.ofNat n)) (byte : UInt8) : property byte := by
  have holds := each byte.toNat byte.toNat_lt
  rwa [UInt8.ofNat_toNat] at holds

theorem utf8CodepointLen_eq (ch : UInt8) :
    utf8CodepointLen ch =
      if ch.toNat < 0xc0 then 1 else if ch.toNat < 0xe0 then 2
      else if ch.toNat < 0xf0 then 3 else 4 := by
  revert ch
  apply forall_byte
  decide +kernel

theorem utf8ShiftAndMask_toNat {codePoint : UInt32} (byte : UInt8)
    (small : codePoint.toNat < 2 ^ 26) :
    (utf8ShiftAndMask codePoint byte).toNat = codePoint.toNat * 64 + byte.toNat % 64 := by
  have mask : byte.toNat &&& 0x3f = byte.toNat % 64 := Nat.and_two_pow_sub_one_eq_mod _ 6
  have low : byte.toNat % 64 < 2 ^ 6 := Nat.mod_lt _ (by decide)
  have shift : (6 : UInt32).toNat % 32 = 6 := rfl
  have isMask : (0x3f : UInt8).toNat = 0x3f := rfl
  have noWrap : codePoint.toNat <<< 6 % 2 ^ 32 = codePoint.toNat <<< 6 := by
    rw [Nat.shiftLeft_eq]
    omega
  rw [utf8ShiftAndMask, UInt32.toNat_or, UInt32.toNat_shiftLeft, UInt8.toNat_toUInt32,
    UInt8.toNat_and, Nat.and_comm, shift, isMask, mask, noWrap, shiftLeft_or_low low]
  rfl

/-- The bits of a first byte that belong to the code point. -/
theorem and_low_toNat (byte mask : UInt8) {k : Nat} (isMask : mask.toNat = 2 ^ k - 1) :
    (byte &&& mask).toUInt32.toNat = byte.toNat % 2 ^ k := by
  rw [UInt8.toNat_toUInt32, UInt8.toNat_and, isMask, Nat.and_two_pow_sub_one_eq_mod]

/-- The first byte of a character tells its length, and the bytes give its code point. -/
theorem utf8EncodeChar_decoded (c : Char) (rest : List UInt8) :
    ∃ ch tail, String.utf8EncodeChar c = ch :: tail ∧
      utf8CodepointLen ch = (ch :: tail).length ∧
      utf8ToUtf32Codepoint (ch :: tail ++ rest) (ch :: tail).length = some c.val := by
  have range := char_range c
  have decoded : ∀ codepoint : UInt32, codepoint.toNat = c.val.toNat →
      some codepoint = some c.val := fun _ same => congrArg some (UInt32.toNat_inj.mp same)
  unfold String.utf8EncodeChar
  simp only
  split_ifs with one two three
  · refine ⟨_, _, rfl, ?_, decoded _ ?_⟩
    · rw [utf8CodepointLen_eq, UInt8.toNat_ofNat', if_pos (by omega)]
      rfl
    · rw [UInt8.toNat_toUInt32, UInt8.toNat_ofNat']
      omega
  · refine ⟨_, _, rfl, ?_, decoded _ ?_⟩
    · rw [utf8CodepointLen_eq, UInt8.toNat_ofNat', if_neg (by omega), if_pos (by omega)]
      rfl
    · have first := and_low_toNat (UInt8.ofNat (c.val.toNat / 64 % 0x20 + 0xc0)) 0x1f (k := 5) rfl
      rw [UInt8.toNat_ofNat'] at first
      rw [utf8ShiftAndMask_toNat _ (by omega), first, UInt8.toNat_ofNat']
      omega
  · refine ⟨_, _, rfl, ?_, decoded _ ?_⟩
    · rw [utf8CodepointLen_eq, UInt8.toNat_ofNat', if_neg (by omega), if_neg (by omega),
        if_pos (by omega)]
      rfl
    · have first := and_low_toNat (UInt8.ofNat (c.val.toNat / 4096 % 0x10 + 0xe0)) 0x0f (k := 4) rfl
      rw [UInt8.toNat_ofNat'] at first
      have second := utf8ShiftAndMask_toNat (UInt8.ofNat (c.val.toNat / 64 % 0x40 + 0x80))
        (show UInt32.toNat _ < 2 ^ 26 by rw [first]; omega)
      rw [UInt8.toNat_ofNat'] at second
      rw [utf8ShiftAndMask_toNat _ (by omega), second, first, UInt8.toNat_ofNat']
      omega
  · refine ⟨_, _, rfl, ?_, decoded _ ?_⟩
    · rw [utf8CodepointLen_eq, UInt8.toNat_ofNat', if_neg (by omega), if_neg (by omega),
        if_neg (by omega)]
      rfl
    · have first :=
        and_low_toNat (UInt8.ofNat (c.val.toNat / 262144 % 0x08 + 0xf0)) 0x07 (k := 3) rfl
      rw [UInt8.toNat_ofNat'] at first
      have second := utf8ShiftAndMask_toNat (UInt8.ofNat (c.val.toNat / 4096 % 0x40 + 0x80))
        (show UInt32.toNat _ < 2 ^ 26 by rw [first]; omega)
      rw [UInt8.toNat_ofNat'] at second
      have third := utf8ShiftAndMask_toNat (UInt8.ofNat (c.val.toNat / 64 % 0x40 + 0x80))
        (show UInt32.toNat _ < 2 ^ 26 by rw [second, first]; omega)
      rw [UInt8.toNat_ofNat'] at third
      rw [utf8ShiftAndMask_toNat _ (by omega), third, second, first, UInt8.toNat_ofNat']
      omega

/-! ### Code points to bytes -/

/-- The bytes behind the first one. -/
theorem trailing_byte (srcChar : UInt32) :
    ((srcChar ||| kByteMark) &&& kByteMask).toUInt8 =
      UInt8.ofNat (srcChar.toNat % 0x40 + 0x80) := by
  have each : ∀ byte : UInt8,
      (byte ||| 0x80) &&& 0xbf = UInt8.ofNat (byte.toNat % 0x40 + 0x80) := by
    apply forall_byte
    decide +kernel
  have mask : kByteMask.toUInt8 = 0xbf := rfl
  have mark : kByteMark.toUInt8 = 0x80 := rfl
  rw [UInt32.toUInt8_and, UInt32.toUInt8_or, mask, mark, each, UInt32.toNat_toUInt8,
    Nat.mod_mod_of_dvd _ (by decide)]

/-- The first byte of a sequence; the bits of the code point do not meet the mark. -/
theorem first_byte (srcChar : UInt32) (limit mark : Nat)
    (each : ∀ n, n < limit → UInt8.ofNat n ||| UInt8.ofNat mark = UInt8.ofNat (n % limit + mark))
    (below : srcChar.toNat < limit) :
    (srcChar ||| UInt32.ofNat mark).toUInt8 = UInt8.ofNat (srcChar.toNat % limit + mark) := by
  rw [UInt32.toUInt8_or, ← each _ below]
  congr 1
  apply UInt8.toNat_inj.mp
  rw [UInt32.toNat_toUInt8, UInt8.toNat_ofNat', UInt32.toNat_ofNat',
    Nat.mod_mod_of_dvd _ (by decide)]

/-- The measured length of a character. -/
theorem utf32CodepointUtf8Length_eq (c : Char) :
    utf32CodepointUtf8Length c.val =
      if c.val.toNat ≤ 0x7f then 1 else if c.val.toNat ≤ 0x7ff then 2
      else if c.val.toNat ≤ 0xffff then 3 else 4 := by
  have range := char_range c
  have start : kUnicodeSurrogateStart.toNat = 0xd800 := rfl
  have stop : kUnicodeSurrogateEnd.toNat = 0xdfff := rfl
  have most : kUnicodeMaxCodepoint.toNat = 0x10ffff := rfl
  simp only [utf32CodepointUtf8Length, gt_iff_lt, UInt32.lt_iff_toNat_lt, UInt32.le_iff_toNat_le,
    UInt32.reduceToNat, start, stop, most]
  split_ifs <;> first | rfl | omega

/-- The bytes of a character. -/
theorem storeUtf8_eq (c : Char) : storeUtf8 c.val = String.utf8EncodeChar c := by
  have range := char_range c
  have shifted : ∀ x : UInt32, (x >>> 6).toNat = x.toNat / 64 := by
    intro x
    rw [UInt32.toNat_shiftRight]
    exact Nat.shiftRight_eq_div_pow _ 6
  rw [storeUtf8, utf32CodepointUtf8Length_eq]
  unfold String.utf8EncodeChar
  simp only
  split_ifs with one two three
  · rw [utf32CodepointToUtf8, fallThrough]
    apply congrArg (· :: [])
    apply UInt8.toNat_inj.mp
    rw [UInt32.toNat_toUInt8, UInt8.toNat_ofNat']
    exact congrArg (· % 2 ^ 8) (Nat.or_zero _)
  · have first := first_byte (c.val >>> 6) 0x20 0xc0 (by decide +kernel)
      (by rw [shifted]; omega)
    rw [shifted] at first
    simp only [utf32CodepointToUtf8, fallThrough, trailing_byte]
    exact congrArg (· :: _) first
  · have first := first_byte (c.val >>> 6 >>> 6) 0x10 0xe0 (by decide +kernel)
      (by rw [shifted, shifted]; omega)
    rw [shifted, shifted, Nat.div_div_eq_div_mul] at first
    simp only [utf32CodepointToUtf8, fallThrough, trailing_byte, shifted]
    exact congrArg (· :: _) first
  · have first := first_byte (c.val >>> 6 >>> 6 >>> 6) 0x08 0xf0 (by decide +kernel)
      (by rw [shifted, shifted, shifted]; omega)
    rw [shifted, shifted, shifted, Nat.div_div_eq_div_mul, Nat.div_div_eq_div_mul] at first
    simp only [utf32CodepointToUtf8, fallThrough, trailing_byte, shifted, Nat.div_div_eq_div_mul]
    exact congrArg (· :: _) first

/-! ### Code points and units -/

/-- The units that are stored for a character. -/
theorem utf16EncodeChar_stored (c : Char) :
    (c.val ≤ 0xFFFF → utf16EncodeChar c = [c.val.toUInt16]) ∧
      (¬ c.val ≤ 0xFFFF → utf16EncodeChar c =
        [(((c.val - 0x10000) >>> 10) + 0xD800).toUInt16,
          (((c.val - 0x10000) &&& 0x3FF) + 0xDC00).toUInt16]) := by
  have range := char_range c
  simp only [UInt32.le_iff_toNat_le, UInt32.reduceToNat, utf16EncodeChar]
  constructor
  · intro one
    rw [if_pos one]
    rfl
  · intro two
    have isLarge : (0x10000 : UInt32) ≤ c.val := by
      simp only [UInt32.le_iff_toNat_le, UInt32.reduceToNat]
      omega
    have less : (c.val - 0x10000).toNat = c.val.toNat - 0x10000 :=
      UInt32.toNat_sub_of_le _ _ isLarge
    have high : ((c.val - 0x10000) >>> 10).toNat = (c.val.toNat - 0x10000) / 0x400 := by
      rw [UInt32.toNat_shiftRight, less]
      exact Nat.shiftRight_eq_div_pow _ 10
    have low : ((c.val - 0x10000) &&& 0x3FF).toNat = (c.val.toNat - 0x10000) % 0x400 := by
      rw [UInt32.toNat_and, less]
      exact Nat.and_two_pow_sub_one_eq_mod _ 10
    have first : (((c.val - 0x10000) >>> 10) + 0xD800).toUInt16 =
        UInt16.ofNat (0xd800 + (c.val.toNat - 0x10000) / 0x400) := by
      apply UInt16.toNat_inj.mp
      simp only [UInt16.toNat_ofNat', UInt32.toNat_toUInt16, UInt32.toNat_add, high,
        UInt32.reduceToNat]
      omega
    have second : (((c.val - 0x10000) &&& 0x3FF) + 0xDC00).toUInt16 =
        UInt16.ofNat (0xdc00 + (c.val.toNat - 0x10000) % 0x400) := by
      apply UInt16.toNat_inj.mp
      simp only [UInt16.toNat_ofNat', UInt32.toNat_toUInt16, UInt32.toNat_add, low,
        UInt32.reduceToNat]
      omega
    rw [if_neg two, first, second]

theorem isSurrogatePair_iff (first second : UInt16) :
    isSurrogatePair first second ↔ first.toNat / 0x400 = 54 ∧ second.toNat / 0x400 = 55 := by
  have mask : (0xFC00 : UInt16).toNat = 0xfc00 := rfl
  have high : (0xD800 : UInt16).toNat = 54 * 0x400 := rfl
  have low : (0xDC00 : UInt16).toNat = 55 * 0x400 := rfl
  simp only [isSurrogatePair, Bool.and_eq_true, decide_eq_true_eq, ← UInt16.toNat_inj,
    UInt16.toNat_and, mask, high, low, and_surrogate_mask first.toNat_lt,
    and_surrogate_mask second.toNat_lt]
  omega

/-- The units of a character give its code point. -/
theorem utf16EncodeChar_joined (c : Char) :
    (∃ unit, utf16EncodeChar c = [unit] ∧ unit.toUInt32 = c.val ∧
      ∀ second, isSurrogatePair unit second = false) ∨
    ∃ first second, utf16EncodeChar c = [first, second] ∧ isSurrogatePair first second ∧
      joinSurrogates first second = c.val := by
  have range := char_range c
  unfold utf16EncodeChar
  simp only
  split_ifs with one
  · left
    refine ⟨_, rfl, ?_, fun second => ?_⟩
    · apply UInt32.toNat_inj.mp
      rw [UInt16.toNat_toUInt32, UInt16.toNat_ofNat']
      omega
    · rw [← Bool.not_eq_true, isSurrogatePair_iff, UInt16.toNat_ofNat']
      omega
  · right
    refine ⟨_, _, rfl, ?_, ?_⟩
    · rw [isSurrogatePair_iff, UInt16.toNat_ofNat', UInt16.toNat_ofNat']
      omega
    · have high : ∀ unit : UInt16, 0xd800 ≤ unit.toNat → (unit.toUInt32 - 0xD800).toNat =
          unit.toNat - 0xd800 := by
        intro unit large
        apply UInt32.toNat_sub_of_le
        simpa only [UInt32.le_iff_toNat_le, UInt32.reduceToNat, UInt16.toNat_toUInt32] using large
      have low : ∀ unit : UInt16, 0xdc00 ≤ unit.toNat → (unit.toUInt32 - 0xDC00).toNat =
          unit.toNat - 0xdc00 := by
        intro unit large
        apply UInt32.toNat_sub_of_le
        simpa only [UInt32.le_iff_toNat_le, UInt32.reduceToNat, UInt16.toNat_toUInt32] using large
      have first : (UInt16.ofNat (0xd800 + (c.val.toNat - 0x10000) / 0x400)).toNat =
          0xd800 + (c.val.toNat - 0x10000) / 0x400 := by
        rw [UInt16.toNat_ofNat']
        omega
      have second : (UInt16.ofNat (0xdc00 + (c.val.toNat - 0x10000) % 0x400)).toNat =
          0xdc00 + (c.val.toNat - 0x10000) % 0x400 := by
        rw [UInt16.toNat_ofNat']
        omega
      have noWrap : ((c.val.toNat - 0x10000) / 0x400) <<< 10 % 2 ^ 32 =
          ((c.val.toNat - 0x10000) / 0x400) <<< 10 := by
        rw [Nat.shiftLeft_eq]
        omega
      have below : (c.val.toNat - 0x10000) % 0x400 < 2 ^ 10 := Nat.mod_lt _ (by decide)
      have shift : (10 : UInt32).toNat % 32 = 10 := rfl
      have base : (0x10000 : UInt32).toNat = 0x10000 := rfl
      apply UInt32.toNat_inj.mp
      rw [joinSurrogates, UInt32.toNat_add, UInt32.toNat_or, UInt32.toNat_shiftLeft,
        high _ (by rw [first]; omega), low _ (by rw [second]; omega), first, second, shift, base,
        Nat.add_sub_cancel_left, Nat.add_sub_cancel_left, noWrap, shiftLeft_or_low below]
      omega

/-! ## Texts -/

/-- The units counted and stored for a character. -/
theorem utf16EncodeChar_length (c : Char) :
    (utf16EncodeChar c).length = if c.val > 0xFFFF then 2 else 1 := by
  have stored := utf16EncodeChar_stored c
  split_ifs with large
  · rw [stored.2 (UInt32.not_le.mpr large)]
    rfl
  · rw [stored.1 (UInt32.not_lt.mp large)]
    rfl

/-- What the loops do with one more character. -/
theorem utf8Encode_first (c : Char) (chars : List Char) :
    ∃ ch rest, utf8Encode (c :: chars) = ch :: rest ∧
      utf8CodepointLen ch ≤ (ch :: rest).length ∧ 0 < utf8CodepointLen ch ∧
      utf8ToUtf32Codepoint (ch :: rest) (utf8CodepointLen ch) = some c.val ∧
      (ch :: rest).drop (utf8CodepointLen ch) = utf8Encode chars := by
  obtain ⟨ch, tail, encoded, length, decoded⟩ := utf8EncodeChar_decoded c (utf8Encode chars)
  refine ⟨ch, tail ++ utf8Encode chars, ?_, ?_, ?_, ?_, ?_⟩
  · rw [utf8Encode_cons, encoded, List.cons_append]
  · rw [length, ← List.cons_append, List.length_append]
    omega
  · rw [length]
    exact Nat.succ_pos _
  · rw [length]
    exact decoded
  · rw [length, ← List.cons_append, List.drop_left]

theorem utf8ToUtf16LengthLoop_encode (chars : List Char) :
    ∀ fuel measured, (utf8Encode chars).length ≤ fuel →
      utf8ToUtf16LengthLoop false fuel (utf8Encode chars) measured =
        some ((measured + (utf16Encode chars).length : Nat) : Int) := by
  induction chars with
  | nil =>
      intro fuel measured _
      rw [utf8Encode_nil, utf8ToUtf16LengthLoop]
      rfl
  | cons c chars ih =>
      intro fuel measured enough
      obtain ⟨ch, rest, encoded, inside, positive, decoded, others⟩ := utf8Encode_first c chars
      rw [encoded] at enough ⊢
      cases fuel with
      | zero => cases enough
      | succ fuel =>
          have fewer : (utf8Encode chars).length ≤ fuel := by
            rw [← others, List.length_drop]
            omega
          have noOverread : ¬ (utf8CodepointLen ch - 1 ≥ (ch :: rest).length ∧ false = false) := by
            omega
          rw [utf8ToUtf16LengthLoop, if_neg noOverread, decoded, others]
          simp only [Option.bind_eq_bind, Option.bind_some]
          rw [ih fuel _ fewer, utf16Encode_cons, List.length_append, utf16EncodeChar_length,
            Nat.add_assoc]

/-- A code point that is one unit. -/
theorem utf8ToUtf16Loop_one {fuel room : Nat} {ch : UInt8} {rest : List UInt8}
    {codepoint : UInt32} {units : List UInt16}
    (decoded : utf8ToUtf32Codepoint (ch :: rest) (utf8CodepointLen ch) = some codepoint)
    (one : codepoint ≤ 0xFFFF)
    (stored : utf8ToUtf16Loop fuel ((ch :: rest).drop (utf8CodepointLen ch)) room =
      some (units, units.length)) :
    utf8ToUtf16Loop (fuel + 1) (ch :: rest) (room + 1) =
      some (codepoint.toUInt16 :: units, units.length + 1) := by
  rw [utf8ToUtf16Loop, decoded]
  simp only [Option.bind_eq_bind, Option.bind_some, if_pos one, stored]
  rfl

/-- A code point that is a surrogate pair. -/
theorem utf8ToUtf16Loop_two {fuel room : Nat} {ch : UInt8} {rest : List UInt8}
    {codepoint : UInt32} {units : List UInt16}
    (decoded : utf8ToUtf32Codepoint (ch :: rest) (utf8CodepointLen ch) = some codepoint)
    (two : ¬ codepoint ≤ 0xFFFF)
    (stored : utf8ToUtf16Loop fuel ((ch :: rest).drop (utf8CodepointLen ch)) room =
      some (units, units.length)) :
    utf8ToUtf16Loop (fuel + 1) (ch :: rest) (room + 2) =
      some ((((codepoint - 0x10000) >>> 10) + 0xD800).toUInt16 ::
        (((codepoint - 0x10000) &&& 0x3FF) + 0xDC00).toUInt16 :: units, units.length + 2) := by
  rw [utf8ToUtf16Loop, decoded]
  simp only [Option.bind_eq_bind, Option.bind_some, if_neg two, stored]
  rfl

theorem utf8ToUtf16Loop_encode (chars : List Char) :
    ∀ fuel room, (utf8Encode chars).length ≤ fuel → (utf16Encode chars).length ≤ room →
      utf8ToUtf16Loop fuel (utf8Encode chars) room =
        some (utf16Encode chars, (utf16Encode chars).length) := by
  induction chars with
  | nil =>
      intro fuel room _ _
      rw [utf8Encode_nil, utf8ToUtf16Loop]
      rfl
  | cons c chars ih =>
      intro fuel room enough fits
      obtain ⟨ch, rest, encoded, inside, positive, decoded, others⟩ := utf8Encode_first c chars
      have stored := utf16EncodeChar_stored c
      rw [encoded] at enough ⊢
      rw [utf16Encode_cons] at fits ⊢
      cases fuel with
      | zero => cases enough
      | succ fuel =>
          have fewer : (utf8Encode chars).length ≤ fuel := by
            rw [← others, List.length_drop]
            omega
          by_cases one : c.val ≤ 0xFFFF
          · rw [stored.1 one] at fits ⊢
            cases room with
            | zero => cases fits
            | succ room =>
                have left : (utf16Encode chars).length ≤ room := Nat.le_of_succ_le_succ fits
                apply utf8ToUtf16Loop_one decoded one
                rw [others]
                exact ih fuel room fewer left
          · rw [stored.2 one] at fits ⊢
            rcases room with _ | _ | room
            · cases fits
            · cases Nat.le_of_succ_le_succ fits
            · have left : (utf16Encode chars).length ≤ room :=
                Nat.le_of_succ_le_succ (Nat.le_of_succ_le_succ fits)
              apply utf8ToUtf16Loop_two decoded one
              rw [others]
              exact ih fuel room fewer left

/-- A unit that begins no pair. -/
theorem utf16ToUtf8Loop_unit {unit : UInt16}
    (single : ∀ second, isSurrogatePair unit second = false) (rest : List UInt16) :
    utf16ToUtf8Loop (unit :: rest) = storeUtf8 unit.toUInt32 ++ utf16ToUtf8Loop rest := by
  cases rest with
  | nil =>
      rw [utf16ToUtf8Loop, utf16ToUtf8Loop, List.append_nil]
  | cons second rest =>
      rw [utf16ToUtf8Loop, single second]
      rfl

theorem utf16ToUtf8LengthLoop_unit {unit : UInt16}
    (single : ∀ second, isSurrogatePair unit second = false) (rest : List UInt16) (ret : Nat) :
    utf16ToUtf8LengthLoop (unit :: rest) ret =
      (addCharLen ret (utf32CodepointUtf8Length unit.toUInt32)).bind
        (utf16ToUtf8LengthLoop rest) := by
  cases rest with
  | nil =>
      rw [utf16ToUtf8LengthLoop]
      cases addCharLen ret (utf32CodepointUtf8Length unit.toUInt32) <;> rfl
  | cons second rest =>
      rw [utf16ToUtf8LengthLoop, single second]
      rfl

theorem utf16ToUtf8Loop_encode (chars : List Char) :
    utf16ToUtf8Loop (utf16Encode chars) = utf8Encode chars := by
  induction chars with
  | nil => rfl
  | cons c chars ih =>
      rw [utf16Encode_cons, utf8Encode_cons, ← ih, ← storeUtf8_eq]
      rcases utf16EncodeChar_joined c with ⟨unit, encoded, value, single⟩ |
        ⟨first, second, encoded, pair, value⟩
      · rw [encoded, List.singleton_append, utf16ToUtf8Loop_unit single, value]
      · rw [encoded, List.cons_append, List.singleton_append, utf16ToUtf8Loop, if_pos pair, value]

/-- The measured length of a character is that of its bytes. -/
theorem utf32CodepointUtf8Length_encode (c : Char) :
    utf32CodepointUtf8Length c.val = (String.utf8EncodeChar c).length := by
  rw [utf32CodepointUtf8Length_eq]
  unfold String.utf8EncodeChar
  simp only
  split_ifs <;> rfl

/-- A surrogate pair is a character of four bytes. -/
theorem utf8EncodeChar_pair {c : Char} {first second : UInt16}
    (encoded : utf16EncodeChar c = [first, second]) : (String.utf8EncodeChar c).length = 4 := by
  have two : c.val > 0xFFFF := by
    have length := utf16EncodeChar_length c
    rw [encoded] at length
    by_contra small
    rw [if_neg small] at length
    cases length
  have large : 0xffff < c.val.toNat := UInt32.lt_iff_toNat_lt.mp two
  rw [← utf32CodepointUtf8Length_encode, utf32CodepointUtf8Length_eq, if_neg (by omega),
    if_neg (by omega), if_neg (by omega)]

theorem addCharLen_of_le {ret charLen : Nat} (fits : ret + charLen ≤ ssizeMax) :
    addCharLen ret charLen = some (ret + charLen) := by
  rw [addCharLen, if_neg (by omega)]

theorem utf16ToUtf8LengthLoop_encode (chars : List Char) :
    ∀ ret, ret + (utf8Encode chars).length ≤ ssizeMax →
      utf16ToUtf8LengthLoop (utf16Encode chars) ret = some (ret + (utf8Encode chars).length) := by
  induction chars with
  | nil =>
      intro ret _
      rfl
  | cons c chars ih =>
      intro ret fits
      rw [utf8Encode_cons, List.length_append, ← Nat.add_assoc] at fits ⊢
      have one : ret + (String.utf8EncodeChar c).length ≤ ssizeMax :=
        (Nat.le_add_right _ _).trans fits
      rw [← ih _ fits, utf16Encode_cons]
      rcases utf16EncodeChar_joined c with ⟨unit, encoded, value, single⟩ |
        ⟨first, second, encoded, pair, value⟩
      · rw [encoded, List.singleton_append, utf16ToUtf8LengthLoop_unit single, value,
          utf32CodepointUtf8Length_encode, addCharLen_of_le one]
        rfl
      · have four := utf8EncodeChar_pair encoded
        rw [four] at one ⊢
        rw [encoded, List.cons_append, List.singleton_append, utf16ToUtf8LengthLoop, if_pos pair,
          addCharLen_of_le one]
        rfl

end DroidKernal.Utils
