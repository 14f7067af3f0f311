import DroidKernal.Lib.Mem
import DroidKernal.Lib.Run
import DroidKernal.Utils.SharedBuffer
import DroidKernal.Utils.Vector

/-!
# String8

`String8.cpp`, as far as it does not convert UTF-16.  The class declares neither a
copy constructor nor an assignment nor a destructor, so copying copies the pointer
and destroying does nothing.  The bytes passed to a function are memory of the
caller, and the sum of the lengths of two strings does not wrap.  A function has no
result where the code would dereference a null pointer.
-/

namespace DroidKernal.Utils

open Lib

/-- `SIZE_MAX`. -/
def sizeMax : Nat := 2 ^ 64 - 1

/-- The buffers of all strings, and the static pointer of `getEmptyString`, which is
null before the first call. -/
structure StringMemory where
  storage : Storage UInt8
  gEmptyStringBuf : Option Nat

namespace StringMemory

/-- Before the first string. -/
def init : StringMemory where
  storage := { block := fun _ => ⟨0, 0, fun _ => 0⟩, allocated := 0, freed := [] }
  gEmptyStringBuf := none

/-- `memcpy` into a buffer. -/
def copy (memory : StringMemory) (buf off : Nat) (bytes : List UInt8) : StringMemory :=
  let buffer := memory.storage.block buf
  { memory with
    storage := memory.storage.set buf { buffer with cells := Mem.write buffer.cells off bytes } }

/-- `getEmptyString`. -/
def getEmptyString (a : Allocator UInt8) (memory : StringMemory) :
    Option (Nat × StringMemory) :=
  match memory.gEmptyStringBuf with
  | some buf => some (buf, memory)
  | none =>
      match Storage.alloc a memory.storage 1 with
      | (some buf, storage) =>
          some (buf, copy { storage, gEmptyStringBuf := some buf } buf 0 [0])
      | (none, _) => none

/-- `allocFromUTF8`. -/
def allocFromUTF8 (a : Allocator UInt8) (memory : StringMemory) (bytes : List UInt8) :
    Option (Option Nat × StringMemory) := do
  if 0 < bytes.length then
    if bytes.length = sizeMax then return (none, memory)
    else
      match Storage.alloc a memory.storage (bytes.length + 1) with
      | (some buf, storage) =>
          return (some buf, ({ memory with storage }.copy buf 0 bytes).copy buf bytes.length [0])
      | (none, storage) => return (none, { memory with storage })
  else
    let (buf, memory) ← getEmptyString a memory
    return (some buf, memory)

/-- `length` and `bytes`. -/
def length (memory : StringMemory) : Option Nat → Nat
  | some buf => (memory.storage.block buf).mSize - 1
  | none => sizeMax

/-- `setTo`: the status and `mString`. -/
def setTo (a : Allocator UInt8) (memory : StringMemory) (mString : Option Nat)
    (other : List UInt8) : Option (Int × Option Nat × StringMemory) := do
  let (newString, memory) ← allocFromUTF8 a memory other
  let buf ← mString
  let memory := { memory with storage := (Storage.release memory.storage buf false).2 }
  match newString with
  | some newString => return (0, some newString, memory)
  | none =>
      let (empty, memory) ← getEmptyString a memory
      return (noMemory, some empty, memory)

/-- `real_append`. -/
def realAppend (a : Allocator UInt8) (memory : StringMemory) (mString : Option Nat)
    (other : List UInt8) : Option (Int × Option Nat × StringMemory) := do
  let myLen := memory.length mString
  let buf ← mString
  match Storage.editResize a 1 memory.storage buf (other.length + myLen + 1) with
  | (some str, storage) =>
      let memory := ({ memory with storage }.copy str myLen other).copy str
        (myLen + other.length) [0]
      return (0, some str, memory)
  | (none, storage) => return (noMemory, mString, { memory with storage })

/-- `append`. -/
def append (a : Allocator UInt8) (memory : StringMemory) (mString : Option Nat)
    (other : List UInt8) : Option (Int × Option Nat × StringMemory) :=
  if memory.length mString = 0 then memory.setTo a mString other
  else if other.length = 0 then some (0, mString, memory)
  else memory.realAppend a mString other

end StringMemory

/-- A `String8`, with the value that the operations on it built. -/
structure StringObject where
  mString : Option Nat
  built : List UInt8

/-- The memory and the strings that are alive. -/
structure StringState (ι : Type) where
  memory : StringMemory
  objects : ι → Option StringObject

/-- No string was constructed yet. -/
def StringState.init {ι : Type} : StringState ι where
  memory := .init
  objects := fun _ => none

/-- An operation on a string. -/
inductive StringCall (ι : Type) where
  | default (i : ι)
  /-- the constructor from a C string -/
  | ofCString (i : ι) (bytes : List UInt8)
  /-- the copy constructor or, where the target is alive, the assignment -/
  | copy (source target : ι)
  | setTo (i : ι) (other : List UInt8)
  | append (i : ι) (other : List UInt8)
  | destroy (i : ι)

variable {ι : Type} [DecidableEq ι]

/-- A string is constructed or changed. -/
def StringState.put (state : StringState ι) (i : ι) (object : StringObject)
    (memory : StringMemory) : StringState ι where
  memory
  objects := Function.update state.objects i (some object)

/-- The operations.  A constructor or `setTo` that finds no memory builds the empty string,
and an `append` that fails builds nothing. -/
def StringCall.run (a : Allocator UInt8) (state : StringState ι) :
    StringCall ι → Option (StringState ι)
  | .default i =>
      match state.objects i with
      | some _ => none
      | none => do
          let (buf, memory) ← state.memory.getEmptyString a
          return state.put i { mString := buf, built := [] } memory
  | .ofCString i bytes =>
      match state.objects i with
      | some _ => none
      | none => do
          match ← state.memory.allocFromUTF8 a bytes with
          | (some buf, memory) => return state.put i { mString := buf, built := bytes } memory
          | (none, memory) =>
              let (buf, memory) ← memory.getEmptyString a
              return state.put i { mString := buf, built := [] } memory
  | .copy source target => do
      let object ← state.objects source
      return state.put target object state.memory
  | .setTo i other => do
      let object ← state.objects i
      let (status, mString, memory) ← state.memory.setTo a object.mString other
      return state.put i { mString, built := if status = 0 then other else [] } memory
  | .append i other => do
      let object ← state.objects i
      let (status, mString, memory) ← state.memory.append a object.mString other
      return state.put i
        { mString, built := if status = 0 then object.built ++ other else object.built } memory
  | .destroy i =>
      some { state with objects := Function.update state.objects i none }

/-- One operation, with the outcome of its allocations. -/
def StringStep (state : StringState ι) (event : Allocator UInt8 × StringCall ι)
    (next : StringState ι) : Prop :=
  event.2.run event.1 state = some next

end DroidKernal.Utils
