import DroidKernal.Kernel
import DroidKernal.Lib.Mem

/-!
# Parcel

The growable buffer of `Parcel.cpp`, as the code computes it.  A pointer is null
or a block of memory with its address; the cells of a block beyond what was
allocated are the memory that follows it.  `size_t` additions wrap.  A function
has no result where the code would dereference a null pointer.

Members that none of these functions reads (`mNextObjectHint`, `mObjectsSorted`,
`mFdsKnown`, `mHasFds`, `mOwnerCookie`, `mOpenAshmemSize`) are left out, and so
are the global allocation statistics.
-/

namespace DroidKernal.Binder

open Lib

/-! ## `status_t` and `size_t` -/

def noError : Int := 0
def noMemory : Int := -ENOMEM
def badValue : Int := -EINVAL

/-- `INT32_MAX`. -/
def int32Max : Nat := 2 ^ 31 - 1

/-- `SIZE_MAX`. -/
def sizeMax : Nat := 2 ^ 64 - 1

/-- The sum of two `size_t` values. -/
def sizeAdd (a b : Nat) : Nat := (a + b) % 2 ^ 64

/-- `pad_size`: the next multiple of four. -/
def padSize (s : Nat) : Nat := sizeAdd s 3 / 4 * 4

/-! ## Memory -/

/-- What a non-null pointer points to. -/
structure Block (β : Type) where
  addr : Nat
  cells : Nat → β

/-- The outcome of the allocations of one call: the new block for a size, whose
cells are not initialised, or null. -/
structure Heap where
  data : Nat → Option (Block UInt8)
  objects : Nat → Option (Block UInt64)
  data_mapped : ∀ size block, data size = some block →
    0 < block.addr ∧ block.addr + size ≤ taskSize

/-- `realloc` of `size` used cells to a new block. -/
def Block.moveTo {β : Type} (old new : Block β) (size : Nat) : Block β where
  addr := new.addr
  cells i := if i < size then old.cells i else new.cells i

/-! ## The class -/

/-- `class Parcel`.  `mOwner` says whether a release function is set. -/
structure Parcel where
  mError : Int
  mData : Option (Block UInt8)
  mDataSize : Nat
  mDataCapacity : Nat
  mDataPos : Nat
  mObjects : Option (Block UInt64)
  mObjectsSize : Nat
  mObjectsCapacity : Nat
  mOwner : Bool

/-- What an operation does to other objects. -/
inductive Effect where
  /-- `acquire_object` on the flat object at an address -/
  | acquire (addr : Nat)
  /-- `release_object` on the flat object at an address -/
  | release (addr : Nat)
  /-- the call of `mOwner` -/
  | owner
  deriving DecidableEq, Repr

/-- What an operation returns and leaves behind. -/
structure Outcome (α : Type) where
  value : α
  parcel : Parcel
  effects : List Effect

namespace Parcel

/-- The constructor, and `initState`. -/
def initState : Parcel where
  mError := noError
  mData := none
  mDataSize := 0
  mDataCapacity := 0
  mDataPos := 0
  mObjects := none
  mObjectsSize := 0
  mObjectsCapacity := 0
  mOwner := false

/-- `dataSize` and `ipcDataSize`. -/
def dataSize (parcel : Parcel) : Nat := max parcel.mDataSize parcel.mDataPos

/-- `data` and `ipcData`: the address of the buffer. -/
def ipcData (parcel : Parcel) : Nat := (parcel.mData.map Block.addr).getD 0

/-- `ipcObjects`: the address of the object offsets. -/
def ipcObjects (parcel : Parcel) : Nat := (parcel.mObjects.map Block.addr).getD 0

/-- `setError`. -/
def setError (parcel : Parcel) (err : Int) : Parcel := { parcel with mError := err }

/-- The addresses of the flat objects with the given indices. -/
def flatObjects (parcel : Parcel) (indices : List Nat) : Option (List Nat) :=
  indices.mapM fun i => do
    let data ← parcel.mData
    let objects ← parcel.mObjects
    return data.addr + (objects.cells i).toNat

/-- `acquireObjects`: from the last object to the first. -/
def acquireObjects (parcel : Parcel) : Option (List Effect) :=
  (parcel.flatObjects (List.range parcel.mObjectsSize).reverse).map (·.map Effect.acquire)

/-- `releaseObjects`. -/
def releaseObjects (parcel : Parcel) : Option (List Effect) :=
  (parcel.flatObjects (List.range parcel.mObjectsSize).reverse).map (·.map Effect.release)

/-- `freeDataNoInit`, up to the memory it returns to the heap. -/
def freeDataNoInit (parcel : Parcel) : Option (List Effect) :=
  if parcel.mOwner then some [.owner] else parcel.releaseObjects

/-- How many of the first `count` objects start below `desired`: the loop of
`continueWrite`, from the last object down. -/
def objectsBelow (parcel : Parcel) (desired : Nat) : Nat → Option Nat
  | 0 => some 0
  | count + 1 => do
      let objects ← parcel.mObjects
      if (objects.cells count).toNat < desired then return count + 1
      else parcel.objectsBelow desired count

/-- The `objectsSize` of `continueWrite`. -/
def objectsKept (parcel : Parcel) (desired : Nat) : Option Nat :=
  if desired < parcel.mDataSize then
    if desired = 0 then some 0 else parcel.objectsBelow desired parcel.mObjectsSize
  else some parcel.mObjectsSize

/-- The branch of `continueWrite` for a buffer that belongs to someone else. -/
def takeOwnership (heap : Heap) (parcel : Parcel) (desired objectsSize : Nat) :
    Option (Outcome Int) := do
  if desired = 0 then
    let effects ← parcel.freeDataNoInit
    return { value := noError, parcel := initState, effects }
  else
    match heap.data desired with
    | none =>
        return { value := noMemory, parcel := { parcel with mError := noMemory }, effects := [] }
    | some data =>
        let kept := min parcel.mDataSize desired
        let data := match parcel.mData with
          | none => data
          | some old => old.moveTo data kept
        let parcel' : Parcel :=
          { parcel with
            mData := some data
            mDataSize := kept
            mDataCapacity := desired
            mObjects := none
            mObjectsSize := objectsSize
            mObjectsCapacity := objectsSize
            mOwner := false }
        if objectsSize = 0 then
          return { value := noError, parcel := parcel', effects := [.owner] }
        else
          match heap.objects objectsSize with
          | none =>
              return { value := noMemory, parcel := { parcel with mError := noMemory },
                       effects := [] }
          | some objects =>
              let acquired ← { parcel with mObjectsSize := objectsSize }.acquireObjects
              let objects := match parcel.mObjects with
                | none => objects
                | some old => old.moveTo objects objectsSize
              return { value := noError, parcel := { parcel' with mObjects := some objects },
                       effects := acquired ++ [.owner] }

/-- The objects beyond the new size are released and their offsets dropped. -/
def dropObjects (heap : Heap) (parcel : Parcel) (objectsSize : Nat) :
    Option (Parcel × List Effect) :=
  if objectsSize < parcel.mObjectsSize then do
    let released ← parcel.flatObjects
      (List.range' objectsSize (parcel.mObjectsSize - objectsSize))
    let shrunk : Parcel :=
      if objectsSize = 0 then
        { parcel with mObjects := none, mObjectsCapacity := 0 }
      else
        match parcel.mObjects, heap.objects objectsSize with
        | some old, some new =>
            { parcel with
              mObjects := some (old.moveTo new objectsSize)
              mObjectsCapacity := objectsSize }
        | _, _ => parcel
    return ({ shrunk with mObjectsSize := objectsSize }, released.map Effect.release)
  else some (parcel, [])

/-- The branch of `continueWrite` for a buffer of the Parcel's own. -/
def resizeOwn (heap : Heap) (parcel : Parcel) (data : Block UInt8)
    (desired objectsSize : Nat) : Option (Outcome Int) := do
  let (parcel, effects) ← parcel.dropObjects heap objectsSize
  if desired > parcel.mDataCapacity then
    match heap.data desired with
    | none =>
        return { value := noMemory, parcel := { parcel with mError := noMemory }, effects }
    | some new =>
        return { value := noError
                 parcel := { parcel with
                   mData := some (data.moveTo new parcel.mDataCapacity)
                   mDataCapacity := desired }
                 effects }
  else
    return { value := noError
             parcel := { parcel with
               mDataSize := min parcel.mDataSize desired
               mDataPos := min parcel.mDataPos desired }
             effects }

/-- `continueWrite`. -/
def continueWrite (heap : Heap) (parcel : Parcel) (desired : Nat) : Option (Outcome Int) := do
  if desired > int32Max then
    return { value := badValue, parcel, effects := [] }
  else
    let objectsSize ← parcel.objectsKept desired
    if parcel.mOwner then
      parcel.takeOwnership heap desired objectsSize
    else
      match parcel.mData with
      | some data => parcel.resizeOwn heap data desired objectsSize
      | none =>
          match heap.data desired with
          | none =>
              return { value := noMemory, parcel := { parcel with mError := noMemory },
                       effects := [] }
          | some data =>
              return { value := noError
                       parcel := { parcel with
                         mData := some data
                         mDataSize := 0
                         mDataPos := 0
                         mDataCapacity := desired }
                       effects := [] }

/-- `growData`. -/
def growData (heap : Heap) (parcel : Parcel) (len : Nat) : Option (Outcome Int) :=
  if len > int32Max then
    some { value := badValue, parcel, effects := [] }
  else if len > sizeMax - parcel.mDataSize then
    some { value := noMemory, parcel, effects := [] }
  else if parcel.mDataSize + len > sizeMax / 3 then
    some { value := noMemory, parcel, effects := [] }
  else
    let newSize := (parcel.mDataSize + len) * 3 / 2
    if newSize ≤ parcel.mDataSize then
      some { value := noMemory, parcel, effects := [] }
    else parcel.continueWrite heap newSize

/-- `setDataSize`. -/
def setDataSize (heap : Heap) (parcel : Parcel) (size : Nat) : Option (Outcome Int) :=
  if size > int32Max then
    some { value := badValue, parcel, effects := [] }
  else do
    let outcome ← parcel.continueWrite heap size
    if outcome.value = noError then
      return { outcome with parcel := { outcome.parcel with mDataSize := size } }
    else return outcome

/-- `setDataPosition`. -/
def setDataPosition (parcel : Parcel) (pos : Nat) : Parcel := { parcel with mDataPos := pos }

/-- `finishWrite`. -/
def finishWrite (parcel : Parcel) (len : Nat) : Int × Parcel :=
  if len > int32Max then (badValue, parcel)
  else
    let pos := sizeAdd parcel.mDataPos len
    (noError, { parcel with mDataPos := pos, mDataSize := max parcel.mDataSize pos })

/-- A store through a pointer into `mData`. -/
def store (parcel : Parcel) (pointer : Nat) (bytes : List UInt8) : Option Parcel := do
  if bytes = [] then return parcel
  else
    let data ← parcel.mData
    let cells := Mem.write data.cells (pointer - data.addr) bytes
    return { parcel with mData := some { data with cells } }

/-- The `restart_write` part of `writeInplace`: the padding bytes of the last
word are cleared, and the pointer to the reserved bytes is returned. -/
def restartWrite (parcel : Parcel) (len padded : Nat) : Option (Nat × Parcel) := do
  let pointer := parcel.ipcData + parcel.mDataPos
  if padded ≠ len then
    let data ← parcel.mData
    let word := Mem.read data.cells (parcel.mDataPos + padded - 4) 4
    let masked := word.take (4 - (padded - len)) ++ List.replicate (padded - len) 0
    let parcel ← parcel.store (pointer + padded - 4) masked
    return (pointer, (parcel.finishWrite padded).2)
  else return (pointer, (parcel.finishWrite padded).2)

/-- `writeInplace`.  The pointer zero is null. -/
def writeInplace (heap : Heap) (parcel : Parcel) (len : Nat) : Option (Outcome Nat) :=
  if len > int32Max then some { value := 0, parcel, effects := [] }
  else
    let padded := padSize len
    if sizeAdd parcel.mDataPos padded < parcel.mDataPos then
      some { value := 0, parcel, effects := [] }
    else if sizeAdd parcel.mDataPos padded ≤ parcel.mDataCapacity then do
      let (pointer, parcel) ← parcel.restartWrite len padded
      return { value := pointer, parcel, effects := [] }
    else do
      let grown ← parcel.growData heap padded
      if grown.value = noError then
        let (pointer, parcel) ← grown.parcel.restartWrite len padded
        return { value := pointer, parcel, effects := grown.effects }
      else return { value := 0, parcel := grown.parcel, effects := grown.effects }

/-- `write`. -/
def write (heap : Heap) (parcel : Parcel) (data : List UInt8) : Option (Outcome Int) :=
  if data.length > int32Max then some { value := badValue, parcel, effects := [] }
  else do
    let reserved ← parcel.writeInplace heap data.length
    if reserved.value ≠ 0 then
      let parcel ← reserved.parcel.store reserved.value data
      return { value := noError, parcel, effects := reserved.effects }
    else
      return { value := reserved.parcel.mError, parcel := reserved.parcel,
               effects := reserved.effects }

/-- `writeAligned` of a value with the given bytes, whose number is a multiple of
four. -/
def writeAligned (heap : Heap) (parcel : Parcel) (val : List UInt8) : Option (Outcome Int) :=
  if sizeAdd parcel.mDataPos val.length ≤ parcel.mDataCapacity then do
    let parcel ← parcel.store (parcel.ipcData + parcel.mDataPos) val
    let (value, parcel) := parcel.finishWrite val.length
    return { value, parcel, effects := [] }
  else do
    let grown ← parcel.growData heap val.length
    if grown.value = noError then
      let parcel ← grown.parcel.store (grown.parcel.ipcData + grown.parcel.mDataPos) val
      let (value, parcel) := parcel.finishWrite val.length
      return { value, parcel, effects := grown.effects }
    else return grown

/-- `writeInt32`. -/
def writeInt32 (heap : Heap) (parcel : Parcel) (val : Int32) : Option (Outcome Int) :=
  parcel.writeAligned heap (FlatRecord.int32.encode val)

end Parcel

end DroidKernal.Binder
