import DroidKernal.Lib.CString
import DroidKernal.Utils.CodePointRoundTrip

/-!
# What `utf8_length` accepts

The function is meant to tell whether a string is UTF-8.  Where `char` is unsigned it
accepts the strings whose bytes have the shape of UTF-8 and whose code points are at most
the last one: overlong forms and surrogates pass.  Where `char` is signed, the bits of the
extended first byte make every code point that is not ASCII too large, so that no text in
any other alphabet is accepted.
-/

namespace DroidKernal.Utils

open Lib

/-- A byte that continues a character. -/
def Continues (byte : UInt8) : Prop := 0x80 ≤ byte.toNat ∧ byte.toNat < 0xc0

instance (byte : UInt8) : Decidable (Continues byte) := by
  unfold Continues
  infer_instance

/-- The byte strings that have the shape of one character. -/
inductive CharacterShape : List UInt8 → Prop where
  | one {byte : UInt8} : byte ≠ 0 → byte.toNat < 0x80 → CharacterShape [byte]
  | two {byte second : UInt8} : 0xc0 ≤ byte.toNat → byte.toNat < 0xe0 → Continues second →
      CharacterShape [byte, second]
  | three {byte second third : UInt8} : 0xe0 ≤ byte.toNat → byte.toNat < 0xf0 →
      Continues second → Continues third → CharacterShape [byte, second, third]
  | four {byte second third fourth : UInt8} : 0xf0 ≤ byte.toNat → byte.toNat < 0xf8 →
      Continues second → Continues third → Continues fourth →
      byte.toNat % 8 * 2 ^ 18 + (second.toNat % 64 * 2 ^ 12 + (third.toNat % 64 * 2 ^ 6 +
        fourth.toNat % 64)) ≤ 0x10ffff →
      CharacterShape [byte, second, third, fourth]

/-- Strings of such characters. -/
inductive TextShape : List UInt8 → Prop where
  | nil : TextShape []
  | cons {character rest : List UInt8} : CharacterShape character → TextShape rest →
      TextShape (character ++ rest)

/-- The strings that `utf8_length` accepts. -/
def AcceptedText (signed : Bool) (bytes : List UInt8) : Prop :=
  TextShape bytes ∧ (signed = true → ∀ byte ∈ bytes, byte.toNat < 0x80)

/-! ## The first byte decides -/

section Shape

variable {byte : UInt8} {bytes : List UInt8}

theorem textShape_one (notNul : byte ≠ 0) (range : byte.toNat < 0x80) :
    TextShape (byte :: bytes) ↔ TextShape bytes := by
  constructor
  · intro shape
    generalize whole : byte :: bytes = text at shape
    cases shape with
    | nil => cases whole
    | cons character rest =>
        cases character with
        | one _ _ =>
            cases whole
            exact rest
        | two least _ _ =>
            cases whole
            omega
        | three least _ _ _ =>
            cases whole
            omega
        | four least _ _ _ _ _ =>
            cases whole
            omega
  · intro rest
    exact .cons (.one notNul range) rest

theorem textShape_two (least : 0xc0 ≤ byte.toNat) (most : byte.toNat < 0xe0) :
    TextShape (byte :: bytes) ↔
      ∃ second rest, bytes = second :: rest ∧ Continues second ∧ TextShape rest := by
  constructor
  · intro shape
    generalize whole : byte :: bytes = text at shape
    cases shape with
    | nil => cases whole
    | cons character rest =>
        cases character with
        | one _ small =>
            cases whole
            omega
        | two _ _ second =>
            cases whole
            exact ⟨_, _, rfl, second, rest⟩
        | three least' _ _ _ =>
            cases whole
            omega
        | four least' _ _ _ _ _ =>
            cases whole
            omega
  · rintro ⟨second, rest, rfl, continues, shape⟩
    exact .cons (.two least most continues) shape

theorem textShape_three (least : 0xe0 ≤ byte.toNat) (most : byte.toNat < 0xf0) :
    TextShape (byte :: bytes) ↔
      ∃ second third rest, bytes = second :: third :: rest ∧ Continues second ∧
        Continues third ∧ TextShape rest := by
  constructor
  · intro shape
    generalize whole : byte :: bytes = text at shape
    cases shape with
    | nil => cases whole
    | cons character rest =>
        cases character with
        | one _ small =>
            cases whole
            omega
        | two _ most' _ =>
            cases whole
            omega
        | three _ _ second third =>
            cases whole
            exact ⟨_, _, _, rfl, second, third, rest⟩
        | four least' _ _ _ _ _ =>
            cases whole
            omega
  · rintro ⟨second, third, rest, rfl, continues, continues', shape⟩
    exact .cons (.three least most continues continues') shape

theorem textShape_four (least : 0xf0 ≤ byte.toNat) (most : byte.toNat < 0xf8) :
    TextShape (byte :: bytes) ↔
      ∃ second third fourth rest, bytes = second :: third :: fourth :: rest ∧
        Continues second ∧ Continues third ∧ Continues fourth ∧
        byte.toNat % 8 * 2 ^ 18 + (second.toNat % 64 * 2 ^ 12 + (third.toNat % 64 * 2 ^ 6 +
          fourth.toNat % 64)) ≤ 0x10ffff ∧ TextShape rest := by
  constructor
  · intro shape
    generalize whole : byte :: bytes = text at shape
    cases shape with
    | nil => cases whole
    | cons character rest =>
        cases character with
        | one _ small =>
            cases whole
            omega
        | two _ most' _ =>
            cases whole
            omega
        | three _ most' _ _ =>
            cases whole
            omega
        | four _ _ second third fourth inRange =>
            cases whole
            exact ⟨_, _, _, _, rfl, second, third, fourth, inRange, rest⟩
  · rintro ⟨second, third, fourth, rest, rfl, first, next, last, inRange, shape⟩
    exact .cons (.four least most first next last inRange) shape

theorem not_textShape (range : 0x80 ≤ byte.toNat ∧ byte.toNat < 0xc0 ∨ 0xf8 ≤ byte.toNat) :
    ¬ TextShape (byte :: bytes) := by
  intro shape
  generalize whole : byte :: bytes = text at shape
  cases shape with
  | nil => cases whole
  | cons character rest =>
      cases character with
      | one _ small =>
          cases whole
          omega
      | two least most _ =>
          cases whole
          omega
      | three least most _ _ =>
          cases whole
          omega
      | four least most _ _ _ _ =>
          cases whole
          omega

end Shape

/-! ## The code point of a character -/

/-- Where `char` is signed, the extended byte makes every code point too large. -/
theorem signed_tooLarge {byte : UInt8} (large : 0x80 ≤ byte.toNat) (low : UInt32) :
    kUnicodeMaxCodepoint < low ||| ((~~~0xE0 &&& charValue true byte) <<< UInt32.ofNat 6) ∧
      kUnicodeMaxCodepoint < low ||| ((~~~0xF0 &&& charValue true byte) <<< UInt32.ofNat 12) ∧
      kUnicodeMaxCodepoint < low ||| ((~~~0xF8 &&& charValue true byte) <<< UInt32.ofNat 18) := by
  have lead : ∀ byte : UInt8, 0x80 ≤ byte.toNat →
      kUnicodeMaxCodepoint < (~~~0xE0 &&& charValue true byte) <<< UInt32.ofNat 6 ∧
        kUnicodeMaxCodepoint < (~~~0xF0 &&& charValue true byte) <<< UInt32.ofNat 12 ∧
        kUnicodeMaxCodepoint < (~~~0xF8 &&& charValue true byte) <<< UInt32.ofNat 18 := by
    apply forall_byte
    decide +kernel
  have joined : ∀ high : UInt32, kUnicodeMaxCodepoint < high →
      kUnicodeMaxCodepoint < low ||| high := by
    intro high tooLarge
    rw [UInt32.lt_iff_toNat_lt] at tooLarge ⊢
    rw [UInt32.toNat_or]
    exact Nat.lt_of_lt_of_le tooLarge Nat.right_le_or
  obtain ⟨two, three, four⟩ := lead byte large
  exact ⟨joined _ two, joined _ three, joined _ four⟩

/-- The high bits of a code point are added. -/
theorem or_shifted_toNat {low : UInt32} (lead : UInt32) {k : Nat} (shift : k < 32)
    (small : low.toNat < 2 ^ k) (fits : lead.toNat * 2 ^ k < 2 ^ 32) :
    (low ||| (lead <<< UInt32.ofNat k)).toNat = lead.toNat * 2 ^ k + low.toNat := by
  have shifted : (lead <<< UInt32.ofNat k).toNat = lead.toNat <<< k := by
    have amount : (UInt32.ofNat k).toNat % 32 = k := by
      rw [UInt32.toNat_ofNat']
      omega
    rw [UInt32.toNat_shiftLeft, amount, Nat.shiftLeft_eq, Nat.mod_eq_of_lt fits]
  rw [UInt32.toNat_or, shifted, Nat.lor_comm, shiftLeft_or_low small]

/-- Where `char` is not signed, the bits of the first byte. -/
theorem lead_toNat (byte : UInt8) :
    (~~~0xE0 &&& charValue false byte).toNat = byte.toNat % 0x20 ∧
      (~~~0xF0 &&& charValue false byte).toNat = byte.toNat % 0x10 ∧
      (~~~0xF8 &&& charValue false byte).toNat = byte.toNat % 8 := by
  revert byte
  apply forall_byte
  decide +kernel

/-! ## One character of the loop -/

/-- The registers behind the first byte. -/
def checkStart : Utf8Check := { mask := 0x40, toIgnoreMask := 0x80, utf32 := 0, numToRead := 1 }

/-- The registers behind another byte. -/
def Utf8Check.read (check : Utf8Check) (byte : UInt8) : Utf8Check where
  mask := check.mask >>> 1
  toIgnoreMask := check.toIgnoreMask ||| check.mask
  utf32 := (check.utf32 <<< 6) + (byte &&& 0x3F).toUInt32
  numToRead := check.numToRead + 1

/-- The registers behind a second, a third and a fourth byte. -/
theorem checkStart_read (second third fourth : UInt8) :
    let one := checkStart.read second
    let two := one.read third
    let three := two.read fourth
    (one.mask = 0x20 ∧ one.toIgnoreMask ||| one.mask = 0xE0 ∧ one.numToRead = 1 + 1 ∧
        one.utf32.toNat = second.toNat % 64) ∧
      (two.mask = 0x10 ∧ two.toIgnoreMask ||| two.mask = 0xF0 ∧ two.numToRead = 2 + 1 ∧
        two.utf32.toNat = second.toNat % 64 * 2 ^ 6 + third.toNat % 64) ∧
      three.mask = 0x08 ∧ three.toIgnoreMask ||| three.mask = 0xF8 ∧ three.numToRead = 3 + 1 ∧
        three.utf32.toNat = second.toNat % 64 * 2 ^ 12 + (third.toNat % 64 * 2 ^ 6 +
          fourth.toNat % 64) := by
  have low : ∀ (check : Utf8Check) (byte : UInt8), (check.read byte).utf32.toNat =
      (check.utf32.toNat * 64 + byte.toNat % 64) % 2 ^ 32 :=
    fun check byte => continued_toNat check.utf32 byte
  have start : checkStart.utf32.toNat = 0 := rfl
  intro one two three
  have first : one.utf32.toNat = _ := low checkStart second
  have next : two.utf32.toNat = _ := low one third
  have last : three.utf32.toNat = _ := low two fourth
  have mask : checkStart.mask >>> 1 = 0x20 := by decide
  have mask' : checkStart.mask >>> 1 >>> 1 = 0x10 := by decide
  have mask'' : checkStart.mask >>> 1 >>> 1 >>> 1 = 0x08 := by decide
  have ignored : checkStart.toIgnoreMask ||| checkStart.mask ||| 0x20 = 0xE0 := by decide
  have ignored' : (0xE0 ||| 0x10 : UInt32) = 0xF0 := by decide
  have ignored'' : (0xF0 ||| 0x08 : UInt32) = 0xF8 := by decide
  rw [← mask] at ignored
  rw [← ignored, ← mask'] at ignored'
  rw [← ignored', ← mask''] at ignored''
  exact ⟨⟨mask, ignored, rfl, by omega⟩, ⟨mask', ignored', rfl, by omega⟩, mask'', ignored'', rfl,
    by omega⟩

section Step

variable {signed : Bool} {fuel : Nat} {byte : UInt8} {bytes rest : List UInt8} {ret : Nat}

theorem continues_iff (byte : UInt8) : byte &&& 0xC0 = 0x80 ↔ Continues byte := by
  revert byte
  apply forall_byte
  decide +kernel

/-- The inner loop at a bit that is set. -/
theorem utf8CheckLoop_set {firstChar : UInt32} (fuel : Nat) (bytes rest : List UInt8)
    (check : Utf8Check) (isSet : firstChar &&& check.mask ≠ 0)
    (more : check.numToRead < 5) :
    (utf8CheckLoop firstChar (fuel + 1) (bytes ++ 0 :: rest) check = some none ∧
        ∀ second behind, bytes = second :: behind → ¬ Continues second) ∨
      ∃ second behind, bytes = second :: behind ∧ Continues second ∧
        utf8CheckLoop firstChar (fuel + 1) (bytes ++ 0 :: rest) check =
          utf8CheckLoop firstChar fuel (behind ++ 0 :: rest) (check.read second) := by
  cases bytes with
  | nil =>
      left
      refine ⟨?_, fun second behind cons => by cases cons⟩
      have notContinues : (0 : UInt8) &&& 0xC0 ≠ 0x80 := by decide
      rw [List.nil_append, utf8CheckLoop, if_pos ⟨more, isSet⟩]
      simp only [if_pos notContinues]
  | cons second behind =>
      by_cases continues : Continues second
      · right
        have same : ¬ second &&& 0xC0 ≠ 0x80 := not_not.mpr ((continues_iff second).mpr continues)
        refine ⟨second, behind, rfl, continues, ?_⟩
        rw [List.cons_append, utf8CheckLoop, if_pos ⟨more, isSet⟩]
        simp only [if_neg same, Utf8Check.read]
      · left
        have different : second &&& 0xC0 ≠ 0x80 := fun same =>
          continues ((continues_iff second).mp same)
        refine ⟨?_, ?_⟩
        · rw [List.cons_append, utf8CheckLoop, if_pos ⟨more, isSet⟩]
          simp only [if_pos different]
        · rintro _ _ ⟨⟩
          exact continues

/-- The inner loop at the first bit that is clear. -/
theorem utf8CheckLoop_clear {firstChar : UInt32} {check : Utf8Check}
    (isClear : firstChar &&& check.mask = 0) :
    utf8CheckLoop firstChar (fuel + 1) bytes check = some (some (check, bytes)) := by
  rw [utf8CheckLoop.eq_def]
  exact if_neg fun both => both.2 isClear

/-- What the outer loop does with the registers of the inner one. -/
def afterCheck (signed : Bool) (fuel : Nat) (firstChar : UInt32) (ret : Nat) :
    Option (Utf8Check × List UInt8) → Option Int
  | none => some (-1)
  | some (check, cur) =>
      if check.numToRead = 5 then some (-1)
      else
        let utf32 := check.utf32 ||| ((~~~(check.toIgnoreMask ||| check.mask) &&& firstChar) <<<
          UInt32.ofNat (6 * (check.numToRead - 1)))
        if utf32 > kUnicodeMaxCodepoint then some (-1)
        else utf8LengthLoop signed fuel cur (ret + check.numToRead)

/-- The outer loop at the first byte of a character that has more. -/
theorem utf8LengthLoop_lead (lead : 0xc0 ≤ byte.toNat) :
    utf8LengthLoop signed (fuel + 1) (byte :: bytes) ret =
      (utf8CheckLoop (charValue signed byte) 4 bytes checkStart).bind
        (afterCheck signed fuel (charValue signed byte) ret) := by
  obtain ⟨bit80, bit40, _⟩ := charValue_bit signed byte
  have notNul : ¬ byte = 0 := by
    rintro rfl
    have : (0 : UInt8).toNat = 0 := rfl
    omega
  have set80 : ¬ charValue signed byte &&& 0x80 = 0 := fun none => by
    have := bit80.mp none
    have := byte.toNat_lt
    omega
  have set40 : ¬ charValue signed byte &&& 0x40 = 0 := fun none => by
    have := bit40.mp none
    have := byte.toNat_lt
    omega
  rw [utf8LengthLoop, if_neg notNul]
  simp only [if_neg set80, if_neg set40]
  rfl

/-- A character that has all its bytes passes when its code point is small enough. -/
theorem afterCheck_some {firstChar ignored : UInt32} {check : Utf8Check} {size : Nat}
    (isIgnored : check.toIgnoreMask ||| check.mask = ignored) (isSize : check.numToRead = size + 1)
    (notFive : size ≠ 4) :
    afterCheck signed fuel firstChar ret (some (check, bytes)) =
      if check.utf32 ||| ((~~~ignored &&& firstChar) <<< UInt32.ofNat (6 * size)) >
          kUnicodeMaxCodepoint then some (-1)
      else utf8LengthLoop signed fuel bytes (ret + (size + 1)) := by
  rw [afterCheck, isIgnored, isSize, if_neg (by omega), Nat.add_sub_cancel]

/-- What the loop does with the first character of a string that is not empty: it stops
where the string is not accepted, or goes on behind the character. -/
def CharacterStep (signed : Bool) (fuel : Nat) (byte : UInt8) (bytes rest : List UInt8)
    (ret : Nat) : Prop :=
  (¬ AcceptedText signed (byte :: bytes) ∧
      utf8LengthLoop signed (fuel + 1) (byte :: bytes ++ 0 :: rest) ret = some (-1)) ∨
    ∃ character behind, character ≠ [] ∧ byte :: bytes = character ++ behind ∧
      (AcceptedText signed (byte :: bytes) ↔ AcceptedText signed behind) ∧
      utf8LengthLoop signed (fuel + 1) (byte :: bytes ++ 0 :: rest) ret =
        utf8LengthLoop signed fuel (behind ++ 0 :: rest) (ret + character.length)

theorem not_accepted (large : 0x80 ≤ byte.toNat) : ¬ AcceptedText true (byte :: bytes) := by
  rintro ⟨_, ascii⟩
  have := ascii rfl byte List.mem_cons_self
  omega

theorem characterStep_one (notNul : byte ≠ 0) (range : byte.toNat < 0x80) :
    CharacterStep signed fuel byte bytes rest ret := by
  right
  refine ⟨[byte], bytes, List.cons_ne_nil _ _, rfl, ?_, ?_⟩
  · rw [AcceptedText, textShape_one notNul range, AcceptedText]
    apply and_congr_right'
    apply imp_congr_right
    intro _
    rw [List.forall_mem_cons]
    exact and_iff_right range
  · have ascii : charValue signed byte &&& 0x80 = 0 :=
      (charValue_bit signed byte).1.mpr (by omega)
    rw [List.cons_append, utf8LengthLoop, if_neg notNul]
    simp only [if_pos ascii, List.length_singleton]

theorem characterStep_none (range : 0x80 ≤ byte.toNat ∧ byte.toNat < 0xc0) :
    CharacterStep signed fuel byte bytes rest ret := by
  left
  refine ⟨fun accepted => not_textShape (.inl range) accepted.1, ?_⟩
  obtain ⟨bit80, bit40, _⟩ := charValue_bit signed byte
  have notNul : ¬ byte = 0 := by
    rintro rfl
    have : (0 : UInt8).toNat = 0 := rfl
    omega
  have set80 : ¬ charValue signed byte &&& 0x80 = 0 := fun none => by
    have := bit80.mp none
    omega
  have clear40 : charValue signed byte &&& 0x40 = 0 := bit40.mpr (by omega)
  rw [List.cons_append, utf8LengthLoop, if_neg notNul]
  simp only [if_neg set80, if_pos clear40]

/-- Without sign extension the high bytes of a character do not matter. -/
theorem accepted_unsigned : AcceptedText false bytes ↔ TextShape bytes :=
  and_iff_left fun signed => by cases signed

theorem characterStep_two (least : 0xc0 ≤ byte.toNat) (most : byte.toNat < 0xe0) :
    CharacterStep signed fuel byte bytes rest ret := by
  obtain ⟨_, bit40, bit20, _, _⟩ := charValue_bit signed byte
  have set40 : charValue signed byte &&& 0x40 ≠ 0 := fun none => by
    have := bit40.mp none
    omega
  have clear20 : charValue signed byte &&& 0x20 = 0 := bit20.mpr (by omega)
  rw [CharacterStep, List.cons_append, utf8LengthLoop_lead least]
  obtain ⟨stops, noSecond⟩ | ⟨second, behind, rfl, continues, next⟩ :=
    utf8CheckLoop_set 3 bytes rest checkStart set40 (by decide)
  · left
    rw [stops]
    refine ⟨?_, rfl⟩
    rintro ⟨shape, _⟩
    obtain ⟨second, behind, rfl, continues, _⟩ := (textShape_two least most).mp shape
    exact noSecond second behind rfl continues
  obtain ⟨⟨mask, ignored, size, low⟩, _⟩ := checkStart_read second 0 0
  rw [← mask] at clear20
  rw [next, utf8CheckLoop_clear clear20, Option.bind_some,
    afterCheck_some ignored size (by decide)]
  cases signed with
  | true =>
      left
      exact ⟨not_accepted (by omega), if_pos (signed_tooLarge (by omega) _).1⟩
  | false =>
      right
      refine ⟨[byte, second], behind, List.cons_ne_nil _ _, rfl, ?_, if_neg ?_⟩
      · rw [accepted_unsigned, accepted_unsigned, textShape_two least most]
        constructor
        · rintro ⟨_, _, ⟨⟩, _, shape⟩
          exact shape
        · intro shape
          exact ⟨second, behind, rfl, continues, shape⟩
      · have lead := (lead_toNat byte).1
        have last : kUnicodeMaxCodepoint.toNat = 0x10ffff := rfl
        rw [gt_iff_lt, UInt32.lt_iff_toNat_lt, or_shifted_toNat _ (by decide) (by omega) (by omega)]
        omega

theorem characterStep_three (least : 0xe0 ≤ byte.toNat) (most : byte.toNat < 0xf0) :
    CharacterStep signed fuel byte bytes rest ret := by
  obtain ⟨_, bit40, bit20, bit10, _⟩ := charValue_bit signed byte
  have set40 : charValue signed byte &&& 0x40 ≠ 0 := fun none => by
    have := bit40.mp none
    omega
  have set20 : charValue signed byte &&& 0x20 ≠ 0 := fun none => by
    have := bit20.mp none
    omega
  have clear10 : charValue signed byte &&& 0x10 = 0 := bit10.mpr (by omega)
  rw [CharacterStep, List.cons_append, utf8LengthLoop_lead (by omega)]
  obtain ⟨stops, noSecond⟩ | ⟨second, behind, rfl, continues, next⟩ :=
    utf8CheckLoop_set 3 bytes rest checkStart set40 (by decide)
  · left
    rw [stops]
    refine ⟨?_, rfl⟩
    rintro ⟨shape, _⟩
    obtain ⟨second, third, behind, rfl, continues, _⟩ := (textShape_three least most).mp shape
    exact noSecond second _ rfl continues
  obtain ⟨⟨mask, _, size, _⟩, _⟩ := checkStart_read second 0 0
  rw [← mask] at set20
  rw [next]
  obtain ⟨stops, noThird⟩ | ⟨third, behind, rfl, continues', next'⟩ :=
    utf8CheckLoop_set 2 behind rest (checkStart.read second) set20 (by omega)
  · left
    rw [stops]
    refine ⟨?_, rfl⟩
    rintro ⟨shape, _⟩
    obtain ⟨_, third, behind, ⟨⟩, _, continues', _⟩ := (textShape_three least most).mp shape
    exact noThird third behind rfl continues'
  obtain ⟨_, ⟨mask', ignored, size', low⟩, _⟩ := checkStart_read second third 0
  rw [← mask'] at clear10
  rw [next', utf8CheckLoop_clear clear10, Option.bind_some,
    afterCheck_some ignored size' (by decide)]
  cases signed with
  | true =>
      left
      exact ⟨not_accepted (by omega), if_pos (signed_tooLarge (by omega) _).2.1⟩
  | false =>
      right
      refine ⟨[byte, second, third], behind, List.cons_ne_nil _ _, rfl, ?_, if_neg ?_⟩
      · rw [accepted_unsigned, accepted_unsigned, textShape_three least most]
        constructor
        · rintro ⟨_, _, _, ⟨⟩, _, _, shape⟩
          exact shape
        · intro shape
          exact ⟨second, third, behind, rfl, continues, continues', shape⟩
      · have lead := (lead_toNat byte).2.1
        have last : kUnicodeMaxCodepoint.toNat = 0x10ffff := rfl
        rw [gt_iff_lt, UInt32.lt_iff_toNat_lt, or_shifted_toNat _ (by decide) (by omega) (by omega)]
        omega

theorem characterStep_four (least : 0xf0 ≤ byte.toNat) (most : byte.toNat < 0xf8) :
    CharacterStep signed fuel byte bytes rest ret := by
  obtain ⟨_, bit40, bit20, bit10, bit08⟩ := charValue_bit signed byte
  have set40 : charValue signed byte &&& 0x40 ≠ 0 := fun none => by
    have := bit40.mp none
    omega
  have set20 : charValue signed byte &&& 0x20 ≠ 0 := fun none => by
    have := bit20.mp none
    omega
  have set10 : charValue signed byte &&& 0x10 ≠ 0 := fun none => by
    have := bit10.mp none
    omega
  have clear08 : charValue signed byte &&& 0x08 = 0 := bit08.mpr (by omega)
  rw [CharacterStep, List.cons_append, utf8LengthLoop_lead (by omega)]
  obtain ⟨stops, noSecond⟩ | ⟨second, behind, rfl, continues, next⟩ :=
    utf8CheckLoop_set 3 bytes rest checkStart set40 (by decide)
  · left
    rw [stops]
    refine ⟨?_, rfl⟩
    rintro ⟨shape, _⟩
    obtain ⟨second, _, _, behind, rfl, continues, _⟩ := (textShape_four least most).mp shape
    exact noSecond second _ rfl continues
  obtain ⟨⟨mask, _, size, _⟩, _⟩ := checkStart_read second 0 0
  rw [← mask] at set20
  rw [next]
  obtain ⟨stops, noThird⟩ | ⟨third, behind, rfl, continues', next'⟩ :=
    utf8CheckLoop_set 2 behind rest (checkStart.read second) set20 (by omega)
  · left
    rw [stops]
    refine ⟨?_, rfl⟩
    rintro ⟨shape, _⟩
    obtain ⟨_, third, _, behind, ⟨⟩, _, continues', _⟩ := (textShape_four least most).mp shape
    exact noThird third _ rfl continues'
  obtain ⟨_, ⟨mask', _, size', _⟩, _⟩ := checkStart_read second third 0
  rw [← mask'] at set10
  rw [next']
  obtain ⟨stops, noFourth⟩ | ⟨fourth, behind, rfl, continues'', next''⟩ :=
    utf8CheckLoop_set 1 behind rest ((checkStart.read second).read third) set10 (by omega)
  · left
    rw [stops]
    refine ⟨?_, rfl⟩
    rintro ⟨shape, _⟩
    obtain ⟨_, _, fourth, behind, ⟨⟩, _, _, continues'', _⟩ :=
      (textShape_four least most).mp shape
    exact noFourth fourth behind rfl continues''
  obtain ⟨_, _, mask'', ignored, size'', low⟩ := checkStart_read second third fourth
  rw [← mask''] at clear08
  rw [next'', utf8CheckLoop_clear clear08, Option.bind_some,
    afterCheck_some ignored size'' (by decide)]
  cases signed with
  | true =>
      left
      exact ⟨not_accepted (by omega), if_pos (signed_tooLarge (by omega) _).2.2⟩
  | false =>
      have lead := (lead_toNat byte).2.2
      have last : kUnicodeMaxCodepoint.toNat = 0x10ffff := rfl
      have value := or_shifted_toNat (~~~0xF8 &&& charValue false byte) (k := 6 * 3) (by decide)
        (low.trans_lt (by omega)) (by omega)
      by_cases inRange : byte.toNat % 8 * 2 ^ 18 + (second.toNat % 64 * 2 ^ 12 +
          (third.toNat % 64 * 2 ^ 6 + fourth.toNat % 64)) ≤ 0x10ffff
      · right
        refine ⟨[byte, second, third, fourth], behind, List.cons_ne_nil _ _, rfl, ?_, if_neg ?_⟩
        · rw [accepted_unsigned, accepted_unsigned, textShape_four least most]
          constructor
          · rintro ⟨_, _, _, _, ⟨⟩, _, _, _, _, shape⟩
            exact shape
          · intro shape
            exact ⟨second, third, fourth, behind, rfl, continues, continues', continues'', inRange,
              shape⟩
        · rw [gt_iff_lt, UInt32.lt_iff_toNat_lt, value]
          omega
      · left
        refine ⟨?_, if_pos ?_⟩
        · rw [accepted_unsigned, textShape_four least most]
          rintro ⟨_, _, _, _, ⟨⟩, _, _, _, inRange', _⟩
          exact inRange inRange'
        · rw [gt_iff_lt, UInt32.lt_iff_toNat_lt, value]
          omega

theorem characterStep_five (least : 0xf8 ≤ byte.toNat) :
    CharacterStep signed fuel byte bytes rest ret := by
  obtain ⟨_, bit40, bit20, bit10, bit08⟩ := charValue_bit signed byte
  have range := byte.toNat_lt
  have set40 : charValue signed byte &&& 0x40 ≠ 0 := fun none => by
    have := bit40.mp none
    omega
  have set20 : charValue signed byte &&& 0x20 ≠ 0 := fun none => by
    have := bit20.mp none
    omega
  have set10 : charValue signed byte &&& 0x10 ≠ 0 := fun none => by
    have := bit10.mp none
    omega
  have set08 : charValue signed byte &&& 0x08 ≠ 0 := fun none => by
    have := bit08.mp none
    omega
  rw [CharacterStep, List.cons_append, utf8LengthLoop_lead (by omega)]
  left
  refine ⟨fun accepted => not_textShape (.inr least) accepted.1, ?_⟩
  obtain ⟨stops, _⟩ | ⟨second, behind, rfl, _, next⟩ :=
    utf8CheckLoop_set 3 bytes rest checkStart set40 (by decide)
  · rw [stops]
    rfl
  obtain ⟨⟨mask, _, size, _⟩, _⟩ := checkStart_read second 0 0
  rw [← mask] at set20
  rw [next]
  obtain ⟨stops, _⟩ | ⟨third, behind, rfl, _, next⟩ :=
    utf8CheckLoop_set 2 behind rest (checkStart.read second) set20 (by omega)
  · rw [stops]
    rfl
  obtain ⟨_, ⟨mask, _, size, _⟩, _⟩ := checkStart_read second third 0
  rw [← mask] at set10
  rw [next]
  obtain ⟨stops, _⟩ | ⟨fourth, behind, rfl, _, next⟩ :=
    utf8CheckLoop_set 1 behind rest ((checkStart.read second).read third) set10 (by omega)
  · rw [stops]
    rfl
  obtain ⟨_, _, mask, _, size, _⟩ := checkStart_read second third fourth
  rw [← mask] at set08
  rw [next]
  obtain ⟨stops, _⟩ | ⟨fifth, behind, rfl, _, next⟩ :=
    utf8CheckLoop_set 0 behind rest (((checkStart.read second).read third).read fourth) set08
      (by omega)
  · rw [stops]
    rfl
  -- the inner loop ends at the fifth byte, and the outer one gives up
  · rw [next, utf8CheckLoop, Option.bind_some, afterCheck, if_pos]
    exact congrArg (· + 1) size

theorem characterStep (signed : Bool) (fuel : Nat) {byte : UInt8} (bytes rest : List UInt8)
    (ret : Nat) (notNul : byte ≠ 0) : CharacterStep signed fuel byte bytes rest ret := by
  by_cases ascii : byte.toNat < 0x80
  · exact characterStep_one notNul ascii
  by_cases lead : byte.toNat < 0xc0
  · exact characterStep_none ⟨by omega, lead⟩
  by_cases two : byte.toNat < 0xe0
  · exact characterStep_two (by omega) two
  by_cases three : byte.toNat < 0xf0
  · exact characterStep_three (by omega) three
  by_cases four : byte.toNat < 0xf8
  · exact characterStep_four (by omega) four
  · exact characterStep_five (by omega)

end Step

/-! ## The whole string -/

theorem accepted_nil (signed : Bool) : AcceptedText signed [] :=
  ⟨.nil, fun _ _ member => absurd member List.not_mem_nil⟩

/-- What the loop returns, by induction on the fuel: each character takes at least a byte. -/
theorem utf8LengthLoop_eq (signed : Bool) (rest : List UInt8) :
    ∀ fuel bytes ret, bytes.length < fuel → 0 ∉ bytes →
      (AcceptedText signed bytes →
        utf8LengthLoop signed fuel (bytes ++ 0 :: rest) ret =
          some ((ret + bytes.length : Nat) : Int)) ∧
      (¬ AcceptedText signed bytes →
        utf8LengthLoop signed fuel (bytes ++ 0 :: rest) ret = some (-1)) := by
  intro fuel
  induction fuel with
  | zero =>
      intro bytes ret enough
      exact absurd enough (Nat.not_lt_zero _)
  | succ fuel ih =>
      intro bytes ret enough noNul
      cases bytes with
      | nil =>
          refine ⟨fun _ => ?_, fun notAccepted => absurd (accepted_nil signed) notAccepted⟩
          rw [List.nil_append, utf8LengthLoop, if_pos rfl]
          rfl
      | cons byte bytes =>
          have notNul : byte ≠ 0 := fun nul => noNul (nul ▸ List.mem_cons_self)
          obtain ⟨notAccepted, stops⟩ | ⟨character, behind, nonempty, split, same, continues⟩ :=
            characterStep signed fuel bytes rest ret notNul
          · exact ⟨fun accepted => absurd accepted notAccepted, fun _ => stops⟩
          · have longer := List.length_pos_iff.mpr nonempty
            have lengths : (byte :: bytes).length = character.length + behind.length := by
              rw [split, List.length_append]
            have behindNoNul : 0 ∉ behind := fun member =>
              noNul (split ▸ List.mem_append_right character member)
            obtain ⟨accepts, refuses⟩ := ih behind (ret + character.length) (by omega) behindNoNul
            rw [same, continues]
            refine ⟨fun accepted => ?_, refuses⟩
            rw [accepts accepted, lengths, Nat.add_assoc]

/-- Text in UTF-8 has the shape. -/
theorem textShape_encode {chars : List Char} (noNul : '\x00' ∉ chars) :
    TextShape (utf8Encode chars) := by
  induction chars with
  | nil => exact .nil
  | cons c chars ih =>
      rw [utf8Encode_cons]
      refine .cons ?_ (ih fun member => noNul (List.mem_cons_of_mem _ member))
      have range := char_range c
      have notNul : c.val.toNat ≠ 0 := fun zero =>
        noNul (char_eq_nul zero ▸ List.mem_cons_self)
      unfold String.utf8EncodeChar
      simp only
      split_ifs with one two three
      · refine .one (fun zero => notNul ?_) (by rw [UInt8.toNat_ofNat']; omega)
        have value := congrArg UInt8.toNat zero
        rw [UInt8.toNat_ofNat', UInt8.toNat_zero] at value
        omega
      · apply CharacterShape.two <;> simp only [Continues, UInt8.toNat_ofNat'] <;> omega
      · apply CharacterShape.three <;> simp only [Continues, UInt8.toNat_ofNat'] <;> omega
      · apply CharacterShape.four <;> simp only [Continues, UInt8.toNat_ofNat'] <;> omega

/-- Whatever lies behind the terminator of a string, `utf8_length` does not look at it.  It
returns the length of the string when the string has the shape of UTF-8 and, where `char` is
signed, is plain ASCII; otherwise it returns `-1`.  All text in UTF-8 has the shape. -/
theorem utf8_length_accepts (signed : Bool) (string : CString) :
    (∀ rest, (AcceptedText signed string.bytes →
        utf8Length signed (string.terminated ++ rest) = some (string.strlen : Int)) ∧
      (¬ AcceptedText signed string.bytes →
        utf8Length signed (string.terminated ++ rest) = some (-1))) ∧
      ∀ chars, string.bytes = utf8Encode chars → TextShape string.bytes := by
  constructor
  · intro rest
    have enough : string.bytes.length < (string.terminated ++ rest).length := by
      rw [List.length_append, CString.terminated_length, CString.strlen]
      omega
    have returned := utf8LengthLoop_eq signed rest _ string.bytes 0 enough string.noNul
    have memory : string.terminated ++ rest = string.bytes ++ 0 :: rest := by
      rw [CString.terminated, List.append_assoc, List.singleton_append]
    rw [memory, Nat.zero_add] at returned
    rw [memory]
    exact returned
  · intro chars encoded
    rw [encoded]
    apply textShape_encode
    intro nul
    apply string.noNul
    rw [encoded]
    exact List.mem_flatMap.mpr ⟨_, nul, List.mem_singleton.mpr rfl⟩

end DroidKernal.Utils
