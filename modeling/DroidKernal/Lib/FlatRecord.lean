import Mathlib.Data.List.Basic
import Mathlib.Tactic.Ring

/-!
# Flat records and their little-endian bytes

A flat record is a value that memory holds as a fixed number of bytes, so that
copying the bytes copies the value.  Scalars are stored least significant byte
first; a structure is the concatenation of its members.
-/

namespace Lib

/-- The `width` low base-256 digits of a number, least significant first. -/
def leBytes : Nat → Nat → List UInt8
  | 0, _ => []
  | width + 1, value => UInt8.ofNat value :: leBytes width (value / 256)

/-- The number denoted by little-endian bytes. -/
def leNat : List UInt8 → Nat
  | [] => 0
  | byte :: bytes => byte.toNat + 256 * leNat bytes

@[simp] theorem leBytes_length (width value : Nat) :
    (leBytes width value).length = width := by
  induction width generalizing value with
  | zero => rfl
  | succ width ih => simp [leBytes, ih]

/-- Reading back `width` bytes keeps the value modulo `256 ^ width`. -/
theorem leNat_leBytes (width value : Nat) :
    leNat (leBytes width value) = value % 256 ^ width := by
  induction width generalizing value with
  | zero => simp [leBytes, leNat, Nat.mod_one]
  | succ width ih =>
      have digit : (UInt8.ofNat value).toNat = value % 256 := by simp
      simp only [leBytes, leNat, ih, digit]
      rw [pow_succ', Nat.mod_mul]

theorem leNat_leBytes_of_lt {width value : Nat} (bound : value < 256 ^ width) :
    leNat (leBytes width value) = value := by
  rw [leNat_leBytes, Nat.mod_eq_of_lt bound]

/-- A type whose values are stored as `size` bytes.  `decode` may be applied to
any bytes; only the bytes written by `encode` are known to decode. -/
structure FlatRecord (α : Type) where
  size : Nat
  encode : α → List UInt8
  decode : List UInt8 → α
  encode_length : ∀ value, (encode value).length = size
  decode_encode : ∀ value, decode (encode value) = value

namespace FlatRecord

attribute [simp] encode_length decode_encode

/-- A `u16` member. -/
def uint16 : FlatRecord UInt16 where
  size := 2
  encode value := leBytes 2 value.toNat
  decode bytes := UInt16.ofNat (leNat bytes)
  encode_length := by simp
  decode_encode value := by
    rw [leNat_leBytes_of_lt (by simpa using value.toNat_lt)]
    simp

/-- A `u32` member. -/
def uint32 : FlatRecord UInt32 where
  size := 4
  encode value := leBytes 4 value.toNat
  decode bytes := UInt32.ofNat (leNat bytes)
  encode_length := by simp
  decode_encode value := by
    rw [leNat_leBytes_of_lt (by simpa using value.toNat_lt)]
    simp

/-- A `u64` member. -/
def uint64 : FlatRecord UInt64 where
  size := 8
  encode value := leBytes 8 value.toNat
  decode bytes := UInt64.ofNat (leNat bytes)
  encode_length := by simp
  decode_encode value := by
    rw [leNat_leBytes_of_lt (by simpa using value.toNat_lt)]
    simp

/-- Store a value through another representation that determines it. -/
def through {α β : Type} (record : FlatRecord β) (toStored : α → β) (ofStored : β → α)
    (inverse : ∀ value, ofStored (toStored value) = value) : FlatRecord α where
  size := record.size
  encode value := record.encode (toStored value)
  decode bytes := ofStored (record.decode bytes)
  encode_length := by simp
  decode_encode value := by simp [inverse]

/-- An `s32` member, stored in two's complement. -/
def int32 : FlatRecord Int32 :=
  uint32.through Int32.toUInt32 UInt32.toInt32 (by simp)

/-- Two members laid out one after the other. -/
def pair {α β : Type} (first : FlatRecord α) (second : FlatRecord β) :
    FlatRecord (α × β) where
  size := first.size + second.size
  encode value := first.encode value.1 ++ second.encode value.2
  decode bytes :=
    (first.decode (bytes.take first.size), second.decode (bytes.drop first.size))
  encode_length := by simp
  decode_encode value := by
    have split : (first.encode value.1).length = first.size := first.encode_length value.1
    rw [← split, List.take_left, List.drop_left]
    simp

end FlatRecord

end Lib
