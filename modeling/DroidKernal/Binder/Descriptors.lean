import DroidKernal.Utils.Measures

/-!
# Interface descriptors

`IBinder::queryLocalInterface` of `Binder.cpp`, which converts the descriptor into an array
of as many bytes as the descriptor has units, to print it.
-/

namespace DroidKernal.Binder

open Utils

/-- The array `d`, and the bytes that `utf16_to_utf8` writes from its start. -/
structure DescriptorBuffer where
  size : Nat
  written : List UInt8

/-- `queryLocalInterface`, which finds nothing. -/
def queryLocalInterface (_d : String16) : DescriptorBuffer where
  size := _d.size
  written := utf16ToUtf8 _d.content

/-- A unit of a surrogate pair, wherever it stands. -/
def isSurrogate (unit : UInt16) : Bool := 0xD800 ≤ unit && unit ≤ 0xDFFF

/-- The surrogates that are not part of a pair. -/
def loneSurrogates : List UInt16 → Nat
  | [] => 0
  | [unit] => if isSurrogate unit then 1 else 0
  | first :: second :: rest =>
      if isSurrogatePair first second then loneSurrogates rest
      else (if isSurrogate first then 1 else 0) + loneSurrogates (second :: rest)

/-- The bytes beyond one that a unit takes. -/
def extraBytesOf (unit : UInt16) : Nat :=
  if unit < 0x80 then 0 else if unit < 0x800 then 1 else if isSurrogate unit then 0 else 2

/-- The bytes beyond one for each unit: two for every pair. -/
def extraBytes : List UInt16 → Nat
  | [] => 0
  | [unit] => extraBytesOf unit
  | first :: second :: rest =>
      if isSurrogatePair first second then 2 + extraBytes rest
      else extraBytesOf first + extraBytes (second :: rest)

/-- A unit takes a byte, unless it is a lone surrogate, and its extra bytes. -/
theorem unit_bytes (unit : UInt16) :
    utf32CodepointUtf8Length unit.toUInt32 + (if isSurrogate unit then 1 else 0) =
      1 + extraBytesOf unit := by
  have small := unit.toNat_lt
  have start : kUnicodeSurrogateStart.toNat = 0xd800 := rfl
  have stop : kUnicodeSurrogateEnd.toNat = 0xdfff := rfl
  simp only [utf32CodepointUtf8Length, extraBytesOf, isSurrogate, gt_iff_lt,
    UInt32.lt_iff_toNat_lt, UInt16.lt_iff_toNat_lt, UInt16.le_iff_toNat_le, Bool.and_eq_true,
    decide_eq_true_eq, UInt32.reduceToNat, UInt16.reduceToNat, UInt16.toNat_toUInt32, start, stop]
  split_ifs <;> omega

/-- The bytes of a descriptor. -/
theorem utf16ToUtf8Loop_length (src : List UInt16) :
    (utf16ToUtf8Loop src).length + loneSurrogates src = src.length + extraBytes src := by
  fun_induction utf16ToUtf8Loop src with
  | case1 => rfl
  | case2 unit =>
      rw [storeUtf8_length, loneSurrogates, extraBytes, List.length_singleton]
      exact unit_bytes unit
  | case3 first second rest isPair ih =>
      rw [List.length_append, storeUtf8_length, joinSurrogates_length isPair, loneSurrogates,
        if_pos isPair, extraBytes, if_pos isPair, List.length_cons, List.length_cons]
      omega
  | case4 first second rest notPair ih =>
      have bytes := unit_bytes first
      rw [List.length_append, storeUtf8_length, loneSurrogates, if_neg notPair, extraBytes,
        if_neg notPair, List.length_cons]
      omega

/-- The bytes stay inside the array exactly if there are none, or the lone surrogates outnumber
the extra bytes, which leaves a byte for the terminator. -/
theorem descriptor_fits_iff (_d : String16) :
    (queryLocalInterface _d).written.length ≤ (queryLocalInterface _d).size ↔
      _d.size = 0 ∨ extraBytes _d.content < loneSurrogates _d.content := by
  have bytes := utf16ToUtf8Loop_length _d.content
  have size := String16.content_length _d
  simp only [queryLocalInterface, utf16ToUtf8]
  split
  next none => exact ⟨fun _ => .inl (size.symm.trans none), fun _ => Nat.zero_le _⟩
  next nonempty =>
    rw [List.length_append, List.length_singleton]
    omega

/-- A descriptor of one letter. -/
theorem letter_overflows :
    ¬ ∀ _d : String16,
      (queryLocalInterface _d).written.length ≤ (queryLocalInterface _d).size := by
  intro every
  exact absurd (every (String16.ofLiteral [0x61])) (by decide)

end DroidKernal.Binder
