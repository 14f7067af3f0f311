import DroidKernal.Lib.Mem

/-!
# Conversions between UTF-8 and UTF-16

The functions of `Unicode.cpp` that the string classes use.  A pointer into the source is
what is left of it, and a function has no result where the code would read beyond it.
The lengths passed along are those of memory, and counters do not wrap; an assertion that
fails is only logged.
-/

namespace DroidKernal.Utils

open Lib

/-- `SSIZE_MAX`. -/
def ssizeMax : Nat := 0x7FFFFFFFFFFFFFFF

def kByteMask : UInt32 := 0x000000BF
def kByteMark : UInt32 := 0x00000080

def kUnicodeSurrogateStart : UInt32 := 0x0000D800
def kUnicodeSurrogateEnd : UInt32 := 0x0000DFFF
def kUnicodeMaxCodepoint : UInt32 := 0x0010FFFF

/-- `kFirstByteMark`, indexed by the number of bytes. -/
def kFirstByteMark : List UInt32 := [0x00000000, 0x00000000, 0x000000C0, 0x000000E0, 0x000000F0]

/-- `utf32_codepoint_utf8_length`. -/
def utf32CodepointUtf8Length (srcChar : UInt32) : Nat :=
  if srcChar < 0x00000080 then 1
  else if srcChar < 0x00000800 then 2
  else if srcChar < 0x00010000 then
    if srcChar < kUnicodeSurrogateStart ∨ srcChar > kUnicodeSurrogateEnd then 3 else 0
  else if srcChar ≤ kUnicodeMaxCodepoint then 4
  else 0

/-- The cases of `utf32_codepoint_to_utf8` from `bytes` on, which fall through.  The last
byte is stored first; `stored` are those behind it. -/
def fallThrough (mark : UInt32) : Nat → UInt32 → List UInt8 → List UInt8
  | 0, _, stored => stored
  | 1, srcChar, stored => (srcChar ||| mark).toUInt8 :: stored
  | bytes + 2, srcChar, stored =>
      fallThrough mark (bytes + 1) (srcChar >>> 6)
        (((srcChar ||| kByteMark) &&& kByteMask).toUInt8 :: stored)

/-- `utf32_codepoint_to_utf8`, for at most four bytes. -/
def utf32CodepointToUtf8 (srcChar : UInt32) (bytes : Nat) : List UInt8 :=
  fallThrough (kFirstByteMark.getD bytes 0) bytes srcChar []

/-! ## UTF-16 -/

/-- Two units that make a surrogate pair. -/
def isSurrogatePair (first second : UInt16) : Bool :=
  first &&& 0xFC00 = 0xD800 && second &&& 0xFC00 = 0xDC00

/-- The code point of a surrogate pair, as `utf16_to_utf8` computes it. -/
def joinSurrogates (first second : UInt16) : UInt32 :=
  ((first.toUInt32 - 0xD800) <<< 10 ||| (second.toUInt32 - 0xDC00)) + 0x10000

/-- The bytes that `utf16_to_utf8` stores for a code point. -/
def storeUtf8 (utf32 : UInt32) : List UInt8 :=
  utf32CodepointToUtf8 utf32 (utf32CodepointUtf8Length utf32)

/-- The loop of `utf16_to_utf8`.  The room that is left is only asserted. -/
def utf16ToUtf8Loop : List UInt16 → List UInt8
  | [] => []
  | [unit] => storeUtf8 unit.toUInt32
  | first :: second :: rest =>
      if isSurrogatePair first second then
        storeUtf8 (joinSurrogates first second) ++ utf16ToUtf8Loop rest
      else storeUtf8 first.toUInt32 ++ utf16ToUtf8Loop (second :: rest)

/-- `utf16_to_utf8`: the bytes that it stores. -/
def utf16ToUtf8 (src : List UInt16) : List UInt8 :=
  if src.length = 0 then [] else utf16ToUtf8Loop src ++ [0]

/-- The length `ret` with that of one more character, if a `ssize_t` can express it. -/
def addCharLen (ret charLen : Nat) : Option Nat :=
  if ssizeMax - charLen < ret then none else some (ret + charLen)

/-- The loop of `utf16_to_utf8_length`. -/
def utf16ToUtf8LengthLoop : List UInt16 → Nat → Option Nat
  | [], ret => some ret
  | [unit], ret => addCharLen ret (utf32CodepointUtf8Length unit.toUInt32)
  | first :: second :: rest, ret =>
      if isSurrogatePair first second then (addCharLen ret 4).bind (utf16ToUtf8LengthLoop rest)
      else
        (addCharLen ret (utf32CodepointUtf8Length first.toUInt32)).bind
          (utf16ToUtf8LengthLoop (second :: rest))

/-- `utf16_to_utf8_length`. -/
def utf16ToUtf8Length (src : List UInt16) : Int :=
  if src.length = 0 then -1
  else
    match utf16ToUtf8LengthLoop src 0 with
    | some ret => ret
    | none => -1

/-! ## UTF-8 -/

/-- `utf8_codepoint_len`. -/
def utf8CodepointLen (ch : UInt8) : Nat :=
  (((0xe5000000 : UInt32) >>> ((ch >>> 3) &&& 0x1e).toUInt32) &&& 3).toNat + 1

/-- `utf8_shift_and_mask`. -/
def utf8ShiftAndMask (codePoint : UInt32) (byte : UInt8) : UInt32 :=
  codePoint <<< 6 ||| (0x3F &&& byte).toUInt32

/-- `utf8_to_utf32_codepoint`. -/
def utf8ToUtf32Codepoint (src : List UInt8) (length : Nat) : Option UInt32 :=
  match length, src with
  | 1, b0 :: _ => some b0.toUInt32
  | 2, b0 :: b1 :: _ => some (utf8ShiftAndMask (b0 &&& 0x1f).toUInt32 b1)
  | 3, b0 :: b1 :: b2 :: _ =>
      some (utf8ShiftAndMask (utf8ShiftAndMask (b0 &&& 0x0f).toUInt32 b1) b2)
  | 4, b0 :: b1 :: b2 :: b3 :: _ =>
      some (utf8ShiftAndMask (utf8ShiftAndMask (utf8ShiftAndMask (b0 &&& 0x07).toUInt32 b1) b2) b3)
  | 1, _ | 2, _ | 3, _ | 4, _ => none
  | _, _ => some 0xffff

/-- The loop of `utf8_to_utf16_length`.  An iteration consumes a byte at least, so that the
length of the source is enough fuel. -/
def utf8ToUtf16LengthLoop (overreadIsFatal : Bool) : Nat → List UInt8 → Nat → Option Int
  | _, [], measured => some measured
  | 0, _ :: _, _ => none
  | fuel + 1, ch :: rest, measured =>
      let u8charLen := utf8CodepointLen ch
      -- the character would end beyond the source
      if u8charLen - 1 ≥ (ch :: rest).length ∧ overreadIsFatal = false then some (-1)
      else do
        let codepoint ← utf8ToUtf32Codepoint (ch :: rest) u8charLen
        let units := if codepoint > 0xFFFF then 2 else 1
        utf8ToUtf16LengthLoop overreadIsFatal fuel ((ch :: rest).drop u8charLen) (measured + units)

/-- `utf8_to_utf16_length`. -/
def utf8ToUtf16Length (u8str : List UInt8) (overreadIsFatal : Bool) : Option Int :=
  utf8ToUtf16LengthLoop overreadIsFatal u8str.length u8str 0

/-- The loop of `utf8_to_utf16_no_null_terminator`, with room for so many units: the units
that it stores, and the number of them before the pointer that it returns. -/
def utf8ToUtf16Loop : Nat → List UInt8 → Nat → Option (List UInt16 × Nat)
  | _, [], _ => some ([], 0)
  | _, _ :: _, 0 => some ([], 0)
  | 0, _ :: _, _ + 1 => none
  | fuel + 1, ch :: rest, room + 1 => do
      let u8len := utf8CodepointLen ch
      let codepoint ← utf8ToUtf32Codepoint (ch :: rest) u8len
      if codepoint ≤ 0xFFFF then
        let (units, stop) ← utf8ToUtf16Loop fuel ((ch :: rest).drop u8len) room
        return (codepoint.toUInt16 :: units, stop + 1)
      else
        let codepoint := codepoint - 0x10000
        let high := ((codepoint >>> 10) + 0xD800).toUInt16
        let low := ((codepoint &&& 0x3FF) + 0xDC00).toUInt16
        match room with
        -- not enough room for this surrogate pair
        | 0 => return ([high], 0)
        | room + 1 =>
            let (units, stop) ← utf8ToUtf16Loop fuel ((ch :: rest).drop u8len) room
            return (high :: low :: units, stop + 2)

/-- `utf8_to_utf16_no_null_terminator`. -/
def utf8ToUtf16NoNullTerminator (src : List UInt8) (dstLen : Nat) : Option (List UInt16 × Nat) :=
  if dstLen = 0 then some ([], 0) else utf8ToUtf16Loop src.length src dstLen

/-- `utf8_to_utf16`, with room for one unit at least: the memory at `u16str` afterwards. -/
def utf8ToUtf16 (u8str : List UInt8) (u16str : Nat → UInt16) (u16len : Nat) :
    Option (Nat → UInt16) := do
  let (units, stop) ← utf8ToUtf16NoNullTerminator u8str (u16len - 1)
  return Mem.write (Mem.write u16str 0 units) stop [0]

end DroidKernal.Utils
