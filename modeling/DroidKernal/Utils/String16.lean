import DroidKernal.Lib.CString
import DroidKernal.Utils.String8
import DroidKernal.Utils.Unicode

/-!
# String16

`String16.cpp`, and the constructor of `String8` from a `String16`.  The word in front of the
units tells where they lie: in a `SharedBuffer` it is `mClientMetadata`, in static data the
size.  The units of a `String16` are never written again, so that its pointer is what it
points to.  A function has no result where the code would dereference a null pointer.
-/

namespace DroidKernal.Utils

open Lib

/-- What `mString` points to: the word in front of it, the `mSize` of its `SharedBuffer`, if it
lies in one, and the units. -/
structure String16 where
  word : UInt32
  mSize : Nat
  units : Nat → UInt16

namespace String16

/-- `kIsSharedBufferAllocated`. -/
def kIsSharedBufferAllocated : UInt32 := 0x80000000

/-- `StaticString16`, for a literal of less than `2 ^ 31` units. -/
def ofLiteral (literal : List UInt16) : String16 where
  word := UInt32.ofNat literal.length
  mSize := 0
  units := Mem.write (fun _ => 0) 0 literal

/-- `emptyString`. -/
def emptyString : String16 := ofLiteral []

/-- `alloc`. -/
def alloc (a : Allocator UInt16) (size : Nat) : Option String16 := do
  let cells ← a.mallocBuffer size
  return { word := kIsSharedBufferAllocated, mSize := size, units := cells }

/-- `allocFromUTF8`. -/
def allocFromUTF8 (a : Allocator UInt16) (u8str : List UInt8) : Option String16 :=
  if u8str.length = 0 then some emptyString
  else do
    let u16len ← utf8ToUtf16Length u8str false
    if u16len < 0 then return emptyString
    else
      let buf ← alloc a (sizeMul 2 (u16len.toNat + 1))
      let units ← utf8ToUtf16 u8str buf.units (u16len.toNat + 1)
      return { buf with units }

/-- The constructor from a C string. -/
def ofCString (a : Allocator UInt16) (o : CString) : Option String16 := allocFromUTF8 a o.bytes

/-- `isStaticString`. -/
def isStaticString (str : String16) : Bool := str.word &&& kIsSharedBufferAllocated = 0

/-- `size`. -/
def size (str : String16) : Nat :=
  if str.isStaticString then str.word.toNat else sizeSub (str.mSize / 2) 1

/-- The units that `string` and `size` give. -/
def content (str : String16) : List UInt16 := Mem.read str.units 0 str.size

end String16

namespace StringMemory

/-- `allocFromUTF16`. -/
def allocFromUTF16 (a : Allocator UInt8) (memory : StringMemory) (units : List UInt16) :
    Option (Nat × StringMemory) :=
  if units.length = 0 then getEmptyString a memory
  else
    let resultStrLen := utf16ToUtf8Length units + 1
    if resultStrLen < 1 then getEmptyString a memory
    else
      match Storage.alloc a memory.storage resultStrLen.toNat with
      | (some buf, storage) => some (buf, { memory with storage }.copy buf 0 (utf16ToUtf8 units))
      | (none, storage) => getEmptyString a { memory with storage }

/-- The constructor of `String8` from a `String16`. -/
def ofString16 (a : Allocator UInt8) (memory : StringMemory) (o : String16) :
    Option (Nat × StringMemory) := allocFromUTF16 a memory o.content

/-- The C string that `c_str` returns, if the buffer is in use and has a terminator. -/
def cString (memory : StringMemory) (buf : Nat) : Option (List UInt8) :=
  let buffer := memory.storage.block buf
  if buf < memory.storage.allocated ∧ buf ∉ memory.storage.freed then
    CString.scan (Mem.read buffer.cells 0 buffer.mSize)
  else none

end StringMemory

end DroidKernal.Utils
