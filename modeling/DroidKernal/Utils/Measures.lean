import DroidKernal.Utils.TextRoundTrip

/-!
# Measured buffers

Both conversions size their buffer by one loop and fill it by another, which does not look
at the end of the buffer.  The two loops agree on every input, well-formed or not.
-/

namespace DroidKernal.Utils

open Lib

/-! ## From UTF-16 -/

theorem fallThrough_length (mark : UInt32) (bytes : Nat) (srcChar : UInt32)
    (stored : List UInt8) :
    (fallThrough mark bytes srcChar stored).length = bytes + stored.length := by
  fun_induction fallThrough mark bytes srcChar stored with
  | case1 => rw [Nat.zero_add]
  | case2 => rw [List.length_cons, Nat.add_comm]
  | case3 srcChar stored bytes ih =>
      rw [ih, List.length_cons]
      omega

theorem storeUtf8_length (utf32 : UInt32) :
    (storeUtf8 utf32).length = utf32CodepointUtf8Length utf32 :=
  fallThrough_length ..

theorem utf32CodepointUtf8Length_le (utf32 : UInt32) : utf32CodepointUtf8Length utf32 ≤ 4 := by
  rw [utf32CodepointUtf8Length]
  split_ifs <;> decide

/-- The code point of a pair. -/
theorem joinSurrogates_toNat {first second : UInt16} (isPair : isSurrogatePair first second) :
    (joinSurrogates first second).toNat =
      (first.toNat - 0xd800) * 0x400 + (second.toNat - 0xdc00) + 0x10000 := by
  obtain ⟨isHigh, isLow⟩ := (isSurrogatePair_iff first second).mp isPair
  have high : (first.toUInt32 - 0xD800).toNat = first.toNat - 0xd800 := by
    apply UInt32.toNat_sub_of_le
    simp only [UInt32.le_iff_toNat_le, UInt32.reduceToNat, UInt16.toNat_toUInt32]
    omega
  have low : (second.toUInt32 - 0xDC00).toNat = second.toNat - 0xdc00 := by
    apply UInt32.toNat_sub_of_le
    simp only [UInt32.le_iff_toNat_le, UInt32.reduceToNat, UInt16.toNat_toUInt32]
    omega
  have below : second.toNat - 0xdc00 < 2 ^ 10 := by omega
  have noWrap : (first.toNat - 0xd800) <<< 10 % 2 ^ 32 = (first.toNat - 0xd800) <<< 10 := by
    rw [Nat.shiftLeft_eq]
    omega
  have shift : (10 : UInt32).toNat % 32 = 10 := rfl
  have base : (0x10000 : UInt32).toNat = 0x10000 := rfl
  rw [joinSurrogates, UInt32.toNat_add, UInt32.toNat_or, UInt32.toNat_shiftLeft, high, low, shift,
    base, noWrap, shiftLeft_or_low below]
  omega

/-- A pair takes four bytes. -/
theorem joinSurrogates_length {first second : UInt16} (isPair : isSurrogatePair first second) :
    utf32CodepointUtf8Length (joinSurrogates first second) = 4 := by
  obtain ⟨isHigh, isLow⟩ := (isSurrogatePair_iff first second).mp isPair
  have joined := joinSurrogates_toNat isPair
  have most : kUnicodeMaxCodepoint.toNat = 0x10ffff := rfl
  simp only [utf32CodepointUtf8Length, UInt32.lt_iff_toNat_lt, UInt32.le_iff_toNat_le,
    UInt32.reduceToNat, joined, most]
  rw [if_neg (by omega), if_neg (by omega), if_neg (by omega), if_pos (by omega)]

theorem addCharLen_eq {ret charLen : Nat} (small : charLen ≤ 4) :
    addCharLen ret charLen = if ret + charLen ≤ ssizeMax then some (ret + charLen) else none := by
  have large : 4 ≤ ssizeMax := by decide
  rw [addCharLen]
  by_cases fits : ret + charLen ≤ ssizeMax
  · rw [if_neg (by omega), if_pos fits]
  · rw [if_pos (by omega), if_neg fits]

/-- One more character is measured. -/
theorem addCharLen_bind {ret charLen others : Nat} {f : Nat → Option Nat} (small : charLen ≤ 4)
    (isMeasure : ∀ ret, ret ≤ ssizeMax →
      f ret = if ret + others ≤ ssizeMax then some (ret + others) else none) :
    (addCharLen ret charLen).bind f =
      if ret + (charLen + others) ≤ ssizeMax then some (ret + (charLen + others)) else none := by
  rw [addCharLen_eq small, ← Nat.add_assoc]
  by_cases fits : ret + charLen ≤ ssizeMax
  · rw [if_pos fits]
    exact isMeasure _ fits
  · rw [if_neg fits, if_neg (by omega)]
    rfl

/-- The measuring loop counts the bytes of the storing one, up to `SSIZE_MAX`. -/
theorem utf16ToUtf8LengthLoop_eq (src : List UInt16) :
    ∀ ret, ret ≤ ssizeMax → utf16ToUtf8LengthLoop src ret =
      if ret + (utf16ToUtf8Loop src).length ≤ ssizeMax then
        some (ret + (utf16ToUtf8Loop src).length)
      else none := by
  fun_induction utf16ToUtf8Loop src with
  | case1 =>
      intro ret inRange
      exact (if_pos inRange).symm
  | case2 unit =>
      intro ret _
      rw [utf16ToUtf8LengthLoop, addCharLen_eq (utf32CodepointUtf8Length_le _), storeUtf8_length]
  | case3 first second rest isPair ih =>
      intro ret _
      rw [utf16ToUtf8LengthLoop, if_pos isPair, List.length_append, storeUtf8_length,
        joinSurrogates_length isPair]
      exact addCharLen_bind (Nat.le_refl _) ih
  | case4 first second rest notPair ih =>
      intro ret _
      rw [utf16ToUtf8LengthLoop, if_neg notPair, List.length_append, storeUtf8_length]
      exact addCharLen_bind (utf32CodepointUtf8Length_le _) ih

/-- A length that was measured is that of the stored bytes. -/
theorem utf16ToUtf8Length_stored {src : List UInt16} {n : Nat}
    (measured : utf16ToUtf8Length src = n) :
    src.length ≠ 0 ∧ (utf16ToUtf8Loop src).length = n := by
  rw [utf16ToUtf8Length] at measured
  split at measured
  next => cases measured
  next nonempty =>
    rw [utf16ToUtf8LengthLoop_eq src 0 (Nat.zero_le _), Nat.zero_add] at measured
    split_ifs at measured with fits
    · exact ⟨nonempty, Int.ofNat_inj.mp measured⟩
    · cases measured

/-- The constructor stores as many bytes as were measured, and the terminator behind them, in
a buffer for just these. -/
def StringMemory.Fills (a : Allocator UInt8) (memory : StringMemory) (o : String16) (n : Nat) :
    Prop :=
  ∀ cells, a.mallocBuffer (n + 1) = some cells → ∃ bytes : List UInt8, bytes.length = n ∧
    memory.ofString16 a o = some (memory.storage.allocated, memory.built cells bytes) ∧
    (memory.built cells bytes).length (some memory.storage.allocated) = n

theorem StringMemory.fills_of_measured {a : Allocator UInt8} {memory : StringMemory}
    {o : String16} {n : Nat} (measured : utf16ToUtf8Length o.content = n) :
    memory.Fills a o n := by
  intro cells hasMemory
  obtain ⟨nonempty, length⟩ := utf16ToUtf8Length_stored measured
  have notNegative : ¬ (n : Int) + 1 < 1 := by omega
  have size : ((n : Int) + 1).toNat = n + 1 := by omega
  have joined := Mem.write_append cells 0 (utf16ToUtf8Loop o.content) [0]
  rw [Nat.zero_add] at joined
  refine ⟨utf16ToUtf8Loop o.content, length, ?_, ?_⟩
  · rw [ofString16, allocFromUTF16, if_neg nonempty, measured]
    simp only [if_neg notNegative, size, Storage.alloc, hasMemory]
    rw [utf16ToUtf8, if_neg nonempty]
    simp [copy, built, joined, length, Blocks.add, Blocks.set]
  · rw [StringMemory.length, built, Blocks.add_block_new, length, Nat.add_sub_cancel]

/-! ## From UTF-8 -/

/-- Within the source every code point is read. -/
theorem utf8ToUtf32Codepoint_inside {src : List UInt8} {length : Nat} (positive : 0 < length)
    (atMost : length ≤ 4) (inside : length ≤ src.length) :
    ∃ codepoint, utf8ToUtf32Codepoint src length = some codepoint := by
  obtain rfl | rfl | rfl | rfl : length = 1 ∨ length = 2 ∨ length = 3 ∨ length = 4 := by omega
  all_goals
    rcases src with _ | ⟨b0, _ | ⟨b1, _ | ⟨b2, _ | ⟨b3, rest⟩⟩⟩⟩
    all_goals first
      | exact ⟨_, rfl⟩
      | exact absurd inside (by simp)

theorem utf8CodepointLen_range (ch : UInt8) :
    0 < utf8CodepointLen ch ∧ utf8CodepointLen ch ≤ 4 := by
  rw [utf8CodepointLen_eq]
  split_ifs <;> decide

/-- Only several bytes make two units. -/
theorem one_lt_of_two {ch : UInt8} {rest : List UInt8} {codepoint : UInt32}
    (decoded : utf8ToUtf32Codepoint (ch :: rest) (utf8CodepointLen ch) = some codepoint)
    (two : codepoint > 0xFFFF) : 1 < utf8CodepointLen ch := by
  by_contra one
  have isOne : utf8CodepointLen ch = 1 := Nat.le_antisymm (Nat.not_lt.mp one)
    (utf8CodepointLen_range ch).1
  rw [isOne] at decoded
  cases decoded
  have byte := ch.toNat_lt
  simp only [gt_iff_lt, UInt32.lt_iff_toNat_lt, UInt32.reduceToNat, UInt8.toNat_toUInt32] at two
  omega

/-- A count of the units that the storing loop stores, or -1. -/
def CountsUnits (fuel : Nat) (src : List UInt8) (measured : Nat) (result : Option Int) : Prop :=
  result = some (-1) ∨
    ∃ units : List UInt16, result = some ((measured + units.length : Nat) : Int) ∧
      (src ≠ [] → units ≠ []) ∧ units.length ≤ src.length ∧
      ∀ room, units.length ≤ room → utf8ToUtf16Loop fuel src room = some (units, units.length)

theorem countsUnits_nil {fuel measured : Nat} :
    CountsUnits fuel [] measured (some (measured : Int)) := by
  refine .inr ⟨[], rfl, fun nonempty => absurd rfl nonempty, Nat.le_refl _, fun _ _ => ?_⟩
  cases fuel <;> rfl

/-- The units of one more code point. -/
theorem CountsUnits.more {fuel measured : Nat} {src rest : List UInt8} {result : Option Int}
    (first : List UInt16) (counts : CountsUnits fuel rest (measured + first.length) result)
    (nonempty : first ≠ []) (atMost : rest.length + first.length ≤ src.length)
    (stores : ∀ (units : List UInt16) (room : Nat),
      utf8ToUtf16Loop fuel rest room = some (units, units.length) →
        utf8ToUtf16Loop (fuel + 1) src (room + first.length) =
          some (first ++ units, units.length + first.length)) :
    CountsUnits (fuel + 1) src measured result := by
  obtain givesUp | ⟨units, counted, -, shorter, stored⟩ := counts
  · exact .inl givesUp
  · have length : (first ++ units).length = first.length + units.length := List.length_append ..
    refine .inr ⟨first ++ units, ?_, fun _ => List.append_ne_nil_of_left_ne_nil nonempty _, ?_, ?_⟩
    · rw [counted, length, Nat.add_assoc]
    · omega
    · intro room fits
      have enough : first.length ≤ room := by omega
      rw [← Nat.sub_add_cancel enough, stores units _ (stored _ (by omega)), length, Nat.add_comm]

/-- The measuring loop reads inside the source.  If it does not give up, the storing loop
reads the same and stores as many units as were counted. -/
theorem utf8ToUtf16Loop_measured (fuel : Nat) (src : List UInt8) (measured : Nat)
    (enough : src.length ≤ fuel) :
    CountsUnits fuel src measured (utf8ToUtf16LengthLoop false fuel src measured) := by
  induction fuel generalizing src measured with
  | zero =>
      obtain rfl := List.eq_nil_of_length_eq_zero (Nat.le_zero.mp enough)
      exact countsUnits_nil
  | succ fuel ih =>
      cases src with
      | nil => exact countsUnits_nil
      | cons ch rest =>
          have range := utf8CodepointLen_range ch
          rw [utf8ToUtf16LengthLoop]
          by_cases beyond : utf8CodepointLen ch - 1 ≥ (ch :: rest).length
          · exact .inl (if_pos ⟨beyond, rfl⟩)
          have inside : utf8CodepointLen ch ≤ (ch :: rest).length := by omega
          obtain ⟨codepoint, decoded⟩ := utf8ToUtf32Codepoint_inside range.1 range.2 inside
          have left : ((ch :: rest).drop (utf8CodepointLen ch)).length =
              (ch :: rest).length - utf8CodepointLen ch := List.length_drop ..
          have fewer : ((ch :: rest).drop (utf8CodepointLen ch)).length ≤ fuel := by omega
          rw [if_neg fun both => beyond both.1, decoded]
          simp only [Option.bind_eq_bind, Option.bind_some]
          by_cases two : codepoint > 0xFFFF
          · rw [if_pos two]
            have several := one_lt_of_two decoded two
            apply CountsUnits.more [(((codepoint - 0x10000) >>> 10) + 0xD800).toUInt16,
              (((codepoint - 0x10000) &&& 0x3FF) + 0xDC00).toUInt16]
              (ih _ (measured + 2) fewer) (List.cons_ne_nil _ _)
            · show _ + 2 ≤ (ch :: rest).length
              omega
            · exact fun units room stored =>
                utf8ToUtf16Loop_two decoded (UInt32.not_le.mpr two) stored
          · rw [if_neg two]
            apply CountsUnits.more [codepoint.toUInt16] (ih _ (measured + 1) fewer)
              (List.cons_ne_nil _ _)
            · show _ + 1 ≤ (ch :: rest).length
              omega
            · exact fun units room stored =>
                utf8ToUtf16Loop_one decoded (UInt32.not_lt.mp two) stored

/-- The conversion stores as many units as were measured, and the null unit behind them, in a
buffer for just these; no bytes become the static string without units. -/
structure String16.Fills (a : Allocator UInt16) (u8str : List UInt8) (n : Nat) : Prop where
  empty : u8str = [] → n = 0 ∧ allocFromUTF8 a u8str = some emptyString
  stored : u8str ≠ [] → ∃ units : List UInt16, units.length = n ∧
    allocFromUTF8 a u8str = (a.mallocBuffer (2 * (n + 1))).map (allocated · units)
  size : ∀ str, allocFromUTF8 a u8str = some str → str.size = n ∧ str.units n = 0

theorem String16.fills_of_measured {a : Allocator UInt16} {u8str : List UInt8} {n : Nat}
    (inMemory : u8str.length + 1 < 2 ^ 63) (measured : utf8ToUtf16Length u8str false = some n) :
    Fills a u8str n := by
  rw [utf8ToUtf16Length] at measured
  obtain givesUp | ⟨units, counted, nonempty, atMost, stored⟩ :=
    utf8ToUtf16Loop_measured u8str.length u8str 0 (Nat.le_refl _)
  · rw [givesUp] at measured
    cases measured
  rw [counted, Nat.zero_add] at measured
  have isCount : units.length = n := by
    have same := Option.some.inj measured
    omega
  subst isCount
  have made : u8str ≠ [] → allocFromUTF8 a u8str =
      (a.mallocBuffer (2 * (units.length + 1))).map (allocated · units) := by
    intro someBytes
    apply allocFromUTF8_stored a (mt List.eq_nil_of_length_eq_zero someBytes)
      (mt List.eq_nil_of_length_eq_zero (nonempty someBytes)) (by omega)
    · rw [utf8ToUtf16Length, counted, Nat.zero_add]
    · exact stored _ (Nat.le_refl _)
  have noUnits : u8str = [] → units.length = 0 := by
    rintro rfl
    exact Nat.le_zero.mp atMost
  refine ⟨fun none => ⟨noUnits none, by rw [none]; rfl⟩,
    fun someBytes => ⟨units, rfl, made someBytes⟩, ?_⟩
  intro str isStr
  by_cases none : u8str = []
  · rw [noUnits none]
    subst none
    cases isStr
    exact ⟨rfl, rfl⟩
  · rw [made none] at isStr
    obtain ⟨cells, -, rfl⟩ := Option.map_eq_some_iff.mp isStr
    refine ⟨allocated_size cells (by omega), ?_⟩
    have last : 0 < [(0 : UInt16)].length := Nat.one_pos
    exact Mem.write_inside _ last

/-- Both conversions fill the buffers that they measured. -/
theorem conversions_fill_buffers (a8 : Allocator UInt8) (a16 : Allocator UInt16)
    (memory : StringMemory) :
    (∀ u8str : List UInt8, u8str.length + 1 < 2 ^ 63 →
      ∃ measured, utf8ToUtf16Length u8str false = some measured ∧
        ∀ n : Nat, measured = n → String16.Fills a16 u8str n) ∧
    (∀ (o : String16) (n : Nat), utf16ToUtf8Length o.content = n → n < ssizeMax →
      memory.Fills a8 o n) := by
  constructor
  · intro u8str inMemory
    obtain ⟨measured, isMeasured⟩ : ∃ measured, utf8ToUtf16Length u8str false = some measured := by
      obtain givesUp | ⟨units, counted, -⟩ :=
        utf8ToUtf16Loop_measured u8str.length u8str 0 (Nat.le_refl _)
      · exact ⟨_, givesUp⟩
      · exact ⟨_, counted⟩
    refine ⟨measured, isMeasured, fun n isNat => ?_⟩
    subst isNat
    exact String16.fills_of_measured inMemory isMeasured
  · intro o n measured _
    exact StringMemory.fills_of_measured measured

/-- A stray continuation byte, and a lone surrogate. -/
theorem conversions_fill_buffers_malformed :
    String16.Fills unitMemory [0x80] 1 ∧
      StringMemory.init.Fills .ample (String16.ofLiteral [0xD800]) 0 := by
  obtain ⟨bytes, units⟩ := conversions_fill_buffers .ample unitMemory .init
  obtain ⟨measured, isMeasured, fills⟩ := bytes [0x80] (by decide)
  have isOne : measured = 1 := by
    cases isMeasured
    rfl
  exact ⟨fills 1 isOne, units (String16.ofLiteral [0xD800]) 0 rfl (by decide)⟩

/-- The measure of no units is no length. -/
theorem no_units_not_measured :
    ¬ ∀ (a : Allocator UInt8) (memory : StringMemory) (o : String16),
      (∀ size, a.mallocBuffer size ≠ none) → ∃ buf next, memory.ofString16 a o = some (buf, next) ∧
        (next.length (some buf) : Int) = utf16ToUtf8Length o.content := by
  intro every
  obtain ⟨buf, next, converted, length⟩ :=
    every .ample .init .emptyString nofun
  have measured : utf16ToUtf8Length String16.emptyString.content = -1 := rfl
  rw [measured] at length
  omega

end DroidKernal.Utils
