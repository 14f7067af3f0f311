import DroidKernal.Utils.Unicode

/-!
# Code points in UTF-8

The functions of `Unicode.cpp` between UTF-32 and UTF-8, and the one that checks UTF-8.
They read bytes as `char`, which is signed on some machines and not on others; a signed
one is extended when it becomes an integer.
-/

namespace DroidKernal.Utils

open Lib

/-- A `char` as an integer. -/
def charValue (signed : Bool) (byte : UInt8) : UInt32 :=
  if signed && 0x80 ≤ byte then byte.toUInt32 ||| 0xFFFFFF00 else byte.toUInt32

/-! ## UTF-32 to UTF-8 -/

/-- The loop of `utf32_to_utf8_length`. -/
def utf32ToUtf8LengthLoop : List UInt32 → Nat → Option Nat
  | [], ret => some ret
  | srcChar :: src, ret =>
      (addCharLen ret (utf32CodepointUtf8Length srcChar)).bind (utf32ToUtf8LengthLoop src)

/-- `utf32_to_utf8_length`. -/
def utf32ToUtf8Length (src : List UInt32) : Int :=
  if src.length = 0 then -1
  else
    match utf32ToUtf8LengthLoop src 0 with
    | some ret => ret
    | none => -1

/-- `utf32_to_utf8`: the bytes that it stores.  The room that is left is only asserted. -/
def utf32ToUtf8 (src : List UInt32) : List UInt8 :=
  if src.length = 0 then [] else src.flatMap storeUtf8 ++ [0]

/-! ## UTF-8 to UTF-32 -/

/-- The registers of the loop of `utf32_at_internal`. -/
structure Utf32At where
  mask : UInt32
  toIgnoreMask : UInt32
  utf32 : UInt32
  numToRead : Nat
  deriving DecidableEq, Repr

/-- The loop of `utf32_at_internal`.  The mask runs out of bits after seven iterations. -/
def utf32AtLoop (firstChar : UInt32) : Nat → List UInt8 → Utf32At → Option Utf32At
  | 0, _, registers => some registers
  | fuel + 1, cur, registers =>
      if firstChar &&& registers.mask ≠ 0 then
        match cur with
        | [] => none
        | byte :: cur =>
            utf32AtLoop firstChar fuel cur
              { mask := registers.mask >>> 1
                toIgnoreMask := registers.toIgnoreMask ||| registers.mask
                utf32 := (registers.utf32 <<< 6) + (byte &&& 0x3F).toUInt32
                numToRead := registers.numToRead + 1 }
      else some registers

/-- `utf32_at_internal`: the code point at a pointer and the number of bytes it takes. -/
def utf32AtInternal (signed : Bool) : List UInt8 → Option (UInt32 × Nat)
  | [] => none
  | byte :: cur =>
      let firstChar := charValue signed byte
      if firstChar &&& 0x80 = 0 then some (firstChar, 1)
      else do
        let registers ← utf32AtLoop firstChar 7 cur
          { mask := 0x40, toIgnoreMask := 0xFFFFFF80, utf32 := firstChar, numToRead := 1 }
        let toIgnoreMask := registers.toIgnoreMask ||| registers.mask
        let shift := UInt32.ofNat (6 * (registers.numToRead - 1))
        return (registers.utf32 &&& ~~~(toIgnoreMask <<< shift), registers.numToRead)

/-- `utf32_from_utf8_at`: what it returns and, if it stores one, the next index. -/
def utf32FromUtf8At (signed : Bool) (src : List UInt8) (srcLen index : Nat) :
    Option (Int × Option Nat) :=
  if index ≥ srcLen then some (-1, none)
  else do
    let (utf32, numRead) ← utf32AtInternal signed (src.drop index)
    let ret := utf32.toInt32.toInt
    return (ret, if ret ≥ 0 then some (index + numRead) else none)

/-! ## Checking UTF-8 -/

/-- The registers of the inner loop of `utf8_length`. -/
structure Utf8Check where
  mask : UInt32
  toIgnoreMask : UInt32
  utf32 : UInt32
  numToRead : Nat
  deriving DecidableEq, Repr

/-- The inner loop of `utf8_length`, from `num_to_read` on.  There is nothing inside where
a byte does not continue the character; the terminator does not. -/
def utf8CheckLoop (firstChar : UInt32) :
    Nat → List UInt8 → Utf8Check → Option (Option (Utf8Check × List UInt8))
  | 0, cur, check => some (some (check, cur))
  | fuel + 1, cur, check =>
      if check.numToRead < 5 ∧ firstChar &&& check.mask ≠ 0 then
        match cur with
        | [] => none
        | byte :: cur =>
            if byte &&& 0xC0 ≠ 0x80 then some none
            else
              utf8CheckLoop firstChar fuel cur
                { mask := check.mask >>> 1
                  toIgnoreMask := check.toIgnoreMask ||| check.mask
                  utf32 := (check.utf32 <<< 6) + (byte &&& 0x3F).toUInt32
                  numToRead := check.numToRead + 1 }
      else some (some (check, cur))

/-- The outer loop of `utf8_length`.  There is no result where it would read beyond the
memory; every iteration consumes a byte. -/
def utf8LengthLoop (signed : Bool) : Nat → List UInt8 → Nat → Option Int
  | 0, _, _ => none
  | _ + 1, [], _ => none
  | fuel + 1, byte :: cur, ret =>
      if byte = 0 then some ret
      else
        let firstChar := charValue signed byte
        if firstChar &&& 0x80 = 0 then utf8LengthLoop signed fuel cur (ret + 1)
        else if firstChar &&& 0x40 = 0 then some (-1)
        else do
          let checked ← utf8CheckLoop firstChar 4 cur
            { mask := 0x40, toIgnoreMask := 0x80, utf32 := 0, numToRead := 1 }
          match checked with
          | none => return -1
          | some (check, cur) =>
              if check.numToRead = 5 then return -1
              else
                let toIgnoreMask := check.toIgnoreMask ||| check.mask
                let utf32 := check.utf32 |||
                  ((~~~toIgnoreMask &&& firstChar) <<< UInt32.ofNat (6 * (check.numToRead - 1)))
                if utf32 > kUnicodeMaxCodepoint then return -1
                else utf8LengthLoop signed fuel cur (ret + check.numToRead)

/-- `utf8_length` of a string in memory. -/
def utf8Length (signed : Bool) (memory : List UInt8) : Option Int :=
  utf8LengthLoop signed memory.length memory 0

end DroidKernal.Utils
