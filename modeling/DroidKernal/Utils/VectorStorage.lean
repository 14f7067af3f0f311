import DroidKernal.Lib.Run
import DroidKernal.Utils.SharedBuffer
import DroidKernal.Utils.Vector
import Mathlib.Data.Set.Card

/-!
# Vectors that share storage

`VectorImpl` with its storage in counted buffers.  `Vector` declares neither a copy
constructor nor a destructor, so a copy has the pointer of its source and the count
stays as it is; its constant members rule out assignment.  A function has no result
where the code would dereference a null pointer.
-/

namespace DroidKernal.Utils

open Lib

variable {T : Type}

/-- The members of a `Vector`. -/
structure VectorObject where
  mStorage : Option Nat
  mCount : Nat
  deriving DecidableEq

/-- The buffers of all Vectors. -/
abbrev VectorStorage (T : Type) := Storage (Option T)

namespace VectorObject

/-- The constructor. -/
def empty : VectorObject where
  mStorage := none
  mCount := 0

variable (traits : Traits) (a : Allocator (Option T))

/-- `capacity`. -/
def capacity (storage : VectorStorage T) (vector : VectorObject) : Nat :=
  match vector.mStorage with
  | some buf => (storage.block buf).mSize / traits.itemSize
  | none => 0

/-- The slots of the storage. -/
def slots (storage : VectorStorage T) (vector : VectorObject) : Slots T :=
  match vector.mStorage with
  | some buf => (storage.block buf).cells
  | none => fun _ => none

/-- Stores into the storage. -/
def setSlots (storage : VectorStorage T) (vector : VectorObject) (slots : Slots T) :
    VectorStorage T :=
  match vector.mStorage with
  | some buf => storage.set buf { storage.block buf with cells := slots }
  | none => storage

/-- `itemLocation`: the slot that the pointer designates. -/
def itemLocation (storage : VectorStorage T) (vector : VectorObject) (index : Nat) :
    Option Nat :=
  if index < vector.capacity traits storage ∧ vector.mStorage.isSome then some index else none

/-- `release_storage`. -/
def releaseStorage (storage : VectorStorage T) (vector : VectorObject) : VectorStorage T :=
  match vector.mStorage with
  | none => storage
  | some buf =>
      let (refs, released) := Storage.release storage buf true
      if refs = 1 then
        (vector.setSlots released
          (destroyType traits (vector.slots released) 0 vector.mCount)).free buf
      else released

/-- The end of every reallocation: the new buffer is filled, the old one released, and
the new one taken over. -/
def adopt (storage : VectorStorage T) (vector : VectorObject) (new : Nat) (filled : Slots T) :
    VectorStorage T × VectorObject :=
  let storage := storage.set new { storage.block new with cells := filled }
  (vector.releaseStorage traits storage, { vector with mStorage := some new })

/-- `editArrayImpl`. -/
def editArrayImpl (storage : VectorStorage T) (vector : VectorObject) :
    Option (VectorStorage T × VectorObject) :=
  match vector.mStorage with
  | none => some (storage, vector)
  | some buf =>
      match Storage.attemptEdit storage buf with
      | some _ => some (storage, vector)
      | none =>
          match Storage.alloc a storage (storage.block buf).mSize with
          | (some new, grown) =>
              some (vector.adopt traits grown new
                (copyType (grown.block new).cells 0 (vector.slots grown) 0 vector.mCount))
          | (none, _) => none

/-- `_grow`: the slot of the new elements, and the Vector with room for them. -/
def grow (storage : VectorStorage T) (vector : VectorObject) (index amount : Nat) :
    Option (Option Nat × VectorStorage T × VectorObject) :=
  let newSize := sizeAdd vector.mCount amount
  let finish (storage : VectorStorage T) (vector : VectorObject) :
      Option Nat × VectorStorage T × VectorObject :=
    let grown := { vector with mCount := newSize }
    (grown.itemLocation traits storage index, storage, grown)
  if vector.capacity traits storage < newSize then
    let newAllocSize := sizeMul (VectorImpl.growCapacity vector.mCount amount) traits.itemSize
    if vector.mStorage.isSome ∧ vector.mCount = index ∧ traits.hasTrivialCopy ∧
        traits.hasTrivialDtor then
      vector.mStorage.map fun buf =>
        match Storage.editResize a traits.itemSize storage buf newAllocSize with
        | (some resized, storage) => finish storage { vector with mStorage := some resized }
        | (none, storage) => (none, storage, vector)
    else
      match Storage.alloc a storage newAllocSize with
      | (some new, grown) =>
          let slots := (grown.block new).cells
          let slots := copyType slots 0 (vector.slots grown) 0 index
          let slots := copyType slots (index + amount) (vector.slots grown) index
            (vector.mCount - index)
          let (storage, vector) := vector.adopt traits grown new slots
          some (finish storage vector)
      | (none, storage) => some (none, storage, vector)
  else do
    let (storage, vector) ← vector.editArrayImpl traits a storage
    let storage :=
      if index ≠ vector.mCount then
        vector.setSlots storage (moveForwardType traits (vector.slots storage) (index + amount)
          index (vector.mCount - index))
      else storage
    return finish storage vector

/-- `insertAt` of copies of an item. -/
def insertAt (storage : VectorStorage T) (vector : VectorObject) (item : T)
    (index numItems : Nat) : Option (Int × VectorStorage T × VectorObject) :=
  if index > vector.mCount then some (badIndex, storage, vector)
  else do
    match ← vector.grow traits a storage index numItems with
    | (some place, storage, vector) =>
        return (toSsize index,
          vector.setSlots storage (splatType (vector.slots storage) place item numItems), vector)
    | (none, storage, vector) => return (noMemory, storage, vector)

/-- `_shrink`. -/
def shrink (storage : VectorStorage T) (vector : VectorObject) (index amount : Nat) :
    Option (VectorStorage T × VectorObject) :=
  match vector.mStorage with
  | none => some (storage, vector)
  | some buf =>
      let newSize := sizeSub vector.mCount amount
      if newSize < vector.capacity traits storage / 2 then
        let newAllocSize := sizeMul (VectorImpl.shrinkCapacity newSize) traits.itemSize
        if index = newSize ∧ traits.hasTrivialCopy ∧ traits.hasTrivialDtor then
          match Storage.editResize a traits.itemSize storage buf newAllocSize with
          | (some resized, storage) =>
              some (storage, { mStorage := some resized, mCount := newSize })
          | (none, storage) => some (storage, vector)
        else
          match Storage.alloc a storage newAllocSize with
          | (some new, grown) =>
              let slots := (grown.block new).cells
              let slots := copyType slots 0 (vector.slots grown) 0 index
              let slots := copyType slots index (vector.slots grown) (index + amount)
                (newSize - index)
              let (storage, vector) := vector.adopt traits grown new slots
              some (storage, { vector with mCount := newSize })
          | (none, storage) => some (storage, vector)
      else do
        let (storage, vector) ← vector.editArrayImpl traits a storage
        let slots := destroyType traits (vector.slots storage) index amount
        let slots :=
          if index ≠ newSize then
            moveForwardType traits slots index (index + amount) (newSize - index)
          else slots
        return (vector.setSlots storage slots, { vector with mCount := newSize })

/-- `removeItemsAt`. -/
def removeItemsAt (storage : VectorStorage T) (vector : VectorObject) (index count : Nat) :
    Option (Int × VectorStorage T × VectorObject) :=
  if sizeAdd index count > vector.mCount then some (badValue, storage, vector)
  else do
    let (storage, vector) ← vector.shrink traits a storage index count
    return (toSsize index, storage, vector)

/-- `setCapacity`. -/
def setCapacity (storage : VectorStorage T) (vector : VectorObject) (newCapacity : Nat) :
    Int × VectorStorage T × VectorObject :=
  if newCapacity ≤ vector.mCount then
    (toSsize (vector.capacity traits storage), storage, vector)
  else
    match Storage.alloc a storage (sizeMul newCapacity traits.itemSize) with
    | (some new, grown) =>
        let slots := copyType (grown.block new).cells 0 (vector.slots grown) 0 vector.mCount
        let (storage, vector) := vector.adopt traits grown new slots
        (toSsize newCapacity, storage, vector)
    | (none, storage) => (noMemory, storage, vector)

/-- `itemAt`: what lies in the slot. -/
def itemAt (storage : VectorStorage T) (vector : VectorObject) (index : Nat) : Option T :=
  vector.slots storage index

/-- A store through the reference of `editItemAt`.  `editItemLocation` does what
`editArrayImpl` does and returns `mStorage`, without the index. -/
def editItemAt (storage : VectorStorage T) (vector : VectorObject) (_index : Nat) (item : T) :
    Option (VectorStorage T × VectorObject) := do
  let (storage, vector) ← vector.editArrayImpl traits a storage
  let _ ← vector.mStorage
  return (vector.setSlots storage (Function.update (vector.slots storage) 0 (some item)), vector)

end VectorObject

/-- The storage and the Vectors that are alive. -/
structure VectorState (ι : Type) (T : Type) where
  storage : VectorStorage T
  vectors : ι → Option VectorObject

/-- No Vector was constructed yet. -/
def VectorState.init {ι : Type} : VectorState ι T where
  storage := { block := fun _ => ⟨0, 0, fun _ => none⟩, allocated := 0, freed := [] }
  vectors := fun _ => none

/-- An operation on a Vector. -/
inductive VectorCall (ι : Type) (T : Type) where
  | construct (i : ι)
  /-- passing or returning by value -/
  | copy (source target : ι)
  | insertAt (i : ι) (item : T) (index numItems : Nat)
  | push (i : ι) (item : T)
  | removeItemsAt (i : ι) (index count : Nat)
  | clear (i : ι)
  | setCapacity (i : ι) (newCapacity : Nat)
  | editItemAt (i : ι) (index : Nat) (item : T)
  /-- the end of the Vector's scope -/
  | destroy (i : ι)

/-- The Vector that a call constructs, changes or destroys. -/
def VectorCall.target {ι : Type} : VectorCall ι T → ι
  | .construct i => i
  | .copy _ target => target
  | .insertAt i _ _ _ => i
  | .push i _ => i
  | .removeItemsAt i _ _ => i
  | .clear i => i
  | .setCapacity i _ => i
  | .editItemAt i _ _ => i
  | .destroy i => i

section Calls

variable {ι : Type} [DecidableEq ι] (traits : Traits) (a : Allocator (Option T))

/-- A call changes one Vector, and the storage. -/
def VectorState.put (state : VectorState ι T) (i : ι) (result : VectorStorage T × VectorObject) :
    VectorState ι T where
  storage := result.1
  vectors := Function.update state.vectors i (some result.2)

/-- What a call on a live Vector makes of it. -/
def VectorCall.change (storage : VectorStorage T) (vector : VectorObject) :
    VectorCall ι T → Option (VectorStorage T × VectorObject)
  | .construct _ => none
  | .copy _ _ => none
  | .insertAt _ item index numItems =>
      (vector.insertAt traits a storage item index numItems).map Prod.snd
  | .push _ item => (vector.insertAt traits a storage item vector.mCount 1).map Prod.snd
  | .removeItemsAt _ index count => (vector.removeItemsAt traits a storage index count).map Prod.snd
  | .clear _ => vector.shrink traits a storage 0 vector.mCount
  | .setCapacity _ newCapacity => some (vector.setCapacity traits a storage newCapacity).2
  | .editItemAt _ index item => vector.editItemAt traits a storage index item
  | .destroy _ => none

/-- The steps of a program. -/
inductive VectorStep : VectorState ι T → Allocator (Option T) × VectorCall ι T →
    VectorState ι T → Prop where
  | construct {state : VectorState ι T} {a : Allocator (Option T)} {i : ι}
      (unused : state.vectors i = none) :
      VectorStep state (a, .construct i) (state.put i (state.storage, .empty))
  | copy {state : VectorState ι T} {a : Allocator (Option T)} {source target : ι}
      {vector : VectorObject} (alive : state.vectors source = some vector)
      (unused : state.vectors target = none) :
      VectorStep state (a, .copy source target) (state.put target (state.storage, vector))
  | change {state : VectorState ι T} {a : Allocator (Option T)} {call : VectorCall ι T}
      {vector : VectorObject} {result : VectorStorage T × VectorObject}
      (alive : state.vectors call.target = some vector)
      (changed : call.change traits a state.storage vector = some result) :
      VectorStep state (a, call) (state.put call.target result)
  | destroy {state : VectorState ι T} {a : Allocator (Option T)} {i : ι} {vector : VectorObject}
      (alive : state.vectors i = some vector) :
      VectorStep state (a, .destroy i)
        { state with vectors := Function.update state.vectors i none }

end Calls

end DroidKernal.Utils
