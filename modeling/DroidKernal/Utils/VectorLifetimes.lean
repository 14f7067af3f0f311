import DroidKernal.Lib.Objects
import DroidKernal.Utils.VectorSizes

/-!
# Vectors and the lifetimes of their elements

`VectorImpl` with every construction, destruction, assignment and relocation of an
element.  The item of an insertion is a reference, which is read when its copies are
made.  A function has no result where the code would read or destroy an object that is
not alive.
-/

namespace DroidKernal.Utils

open Lib

variable {T : Type}

/-- Where an object lies: the buffer, and the slot in it. -/
abbrev Place := Nat × Nat

/-- The objects in the buffers. -/
abbrev PlacedObjects (T : Type) := Objects Place T

/-- A reference to an item: to a variable outside of all Vectors, or to an element. -/
inductive Item (T : Type) where
  | outside (value : T)
  | element (buf slot : Nat)
  deriving DecidableEq

/-- Read through the reference. -/
def Item.read (objects : PlacedObjects T) : Item T → Option T
  | .outside value => some value
  | .element buf slot => objects.valueAt (buf, slot)

/-! ## Objects -/

namespace PlacedObjects

variable (traits : Traits)

/-- `copy_type` from one buffer into another. -/
def copyType (source : Option Nat) (start new dest : Nat) :
    Nat → PlacedObjects T → Option (PlacedObjects T)
  | 0, objects => some objects
  | num + 1, objects => do
      let objects ← copyType source start new dest num objects
      let old ← source
      let value ← objects.valueAt (old, start + num)
      return objects.construct (new, dest + num) value

/-- `*d = *s` where the type is copied trivially: the bytes of an object, over another or
over none.  Otherwise `new(d) TYPE(*s)`. -/
def store (objects : PlacedObjects T) (place : Place) (value : T) : PlacedObjects T :=
  if traits.hasTrivialCopy then
    (objects.assign place value).getD (objects.construct place value)
  else objects.construct place value

/-- `splat_type`. -/
def splatType (buf place : Nat) (item : Item T) :
    Nat → PlacedObjects T → Option (PlacedObjects T)
  | 0, objects => some objects
  | num + 1, objects => do
      let objects ← splatType buf place item num objects
      let value ← item.read objects
      return store traits objects (buf, place + num) value

/-- The loop of `destroy_type`. -/
def destroyLoop (buf start : Nat) : Nat → PlacedObjects T → Option (PlacedObjects T)
  | 0, objects => some objects
  | num + 1, objects => do
      let objects ← destroyLoop buf start num objects
      objects.destroy (buf, start + num)

/-- `destroy_type`. -/
def destroyType (objects : PlacedObjects T) (buf start num : Nat) : Option (PlacedObjects T) :=
  if traits.hasTrivialDtor then some objects else destroyLoop buf start num objects

/-- The loop of `move_forward_type`, from the last element to the first. -/
def moveForwardLoop (buf dest start : Nat) : Nat → PlacedObjects T → Option (PlacedObjects T)
  | 0, objects => some objects
  | num + 1, objects => do
      let value ← objects.valueAt (buf, start + num)
      let objects := store traits objects (buf, dest + num) value
      let objects ←
        if traits.hasTrivialDtor then some objects else objects.destroy (buf, start + num)
      moveForwardLoop buf dest start num objects

/-- Where the bytes at a place come from.  Without a destructor to call, the old bytes are
objects as well. -/
def memmoveSource (buf dest start num : Nat) (place : Place) : Option Place :=
  if place.1 = buf ∧ dest ≤ place.2 ∧ place.2 < dest + num then
    some (buf, start + (place.2 - dest))
  else if traits.hasTrivialDtor = false ∧ place.1 = buf ∧ start ≤ place.2 ∧ place.2 < start + num
    then none
  else some place

/-- `memmove`.  The objects now lie elsewhere. -/
def memmove (objects : PlacedObjects T) (buf dest start num : Nat) : PlacedObjects T :=
  objects.relocate (memmoveSource traits buf dest start num)

/-- `move_forward_type`. -/
def moveForwardType (objects : PlacedObjects T) (buf dest start num : Nat) :
    Option (PlacedObjects T) :=
  if traits.useTrivialMove then some (memmove traits objects buf dest start num)
  else moveForwardLoop traits buf dest start num objects

/-- Resizing takes the first slots to the resized buffer. -/
def resize (objects : PlacedObjects T) (buf resized num : Nat) : PlacedObjects T :=
  objects.relocate fun (other, slot) =>
    if other = resized then if slot < num then some (buf, slot) else none
    else if other = buf then none
    else some (other, slot)

/-- Nothing is left in a buffer that was freed. -/
def dealloc (objects : PlacedObjects T) (buf : Nat) : PlacedObjects T :=
  objects.relocate fun place => if place.1 = buf then none else some place

end PlacedObjects

/-! ## VectorImpl -/

/-- The buffers, without their cells, and the objects in them. -/
structure ObjectMemory (T : Type) where
  heap : VectorStorage Empty
  objects : PlacedObjects T

namespace ObjectMemory

variable (traits : Traits) (a : Allocator (Option Empty))

/-- `editResize` of a buffer with its objects. -/
def editResize (memory : ObjectMemory T) (buf newSize : Nat) : Option Nat × ObjectMemory T :=
  match Storage.editResize a traits.itemSize memory.heap buf newSize with
  | (some resized, heap) =>
      let num := min (memory.heap.block buf).mSize newSize / traits.itemSize
      (some resized, { heap, objects := memory.objects.resize buf resized num })
  | (none, heap) => (none, { memory with heap })

/-- `release_storage`. -/
def releaseStorage (memory : ObjectMemory T) (vector : VectorObject) :
    Option (ObjectMemory T) :=
  match vector.mStorage with
  | none => some memory
  | some buf =>
      let (refs, heap) := Storage.release memory.heap buf true
      if refs = 1 then do
        let objects ← memory.objects.destroyType traits buf 0 vector.mCount
        return { heap := heap.free buf, objects := objects.dealloc buf }
      else some { memory with heap }

/-- The end of every reallocation: the old buffer is released, and the new one taken over. -/
def adopt (memory : ObjectMemory T) (vector : VectorObject) (new : Nat) :
    Option (ObjectMemory T × VectorObject) := do
  let memory ← memory.releaseStorage traits vector
  return (memory, { vector with mStorage := some new })

/-- `editArrayImpl`. -/
def editArrayImpl (memory : ObjectMemory T) (vector : VectorObject) :
    Option (ObjectMemory T × VectorObject) :=
  match vector.mStorage with
  | none => some (memory, vector)
  | some buf =>
      match Storage.attemptEdit memory.heap buf with
      | some _ => some (memory, vector)
      | none =>
          match Storage.alloc a memory.heap (memory.heap.block buf).mSize with
          | (some new, heap) => do
              let objects ← memory.objects.copyType (some buf) 0 new 0 vector.mCount
              adopt traits { heap, objects } vector new
          | (none, _) => none

/-- `_grow`: the slot of the new elements, and the Vector with room for them. -/
def grow (memory : ObjectMemory T) (vector : VectorObject) (index amount : Nat) :
    Option (Option Nat × ObjectMemory T × VectorObject) :=
  let newSize := sizeAdd vector.mCount amount
  let finish (memory : ObjectMemory T) (vector : VectorObject) :
      Option Nat × ObjectMemory T × VectorObject :=
    let grown := { vector with mCount := newSize }
    (grown.itemLocation traits memory.heap index, memory, grown)
  if vector.capacity traits memory.heap < newSize then
    let newAllocSize := sizeMul (VectorImpl.growCapacity vector.mCount amount) traits.itemSize
    if vector.mStorage.isSome ∧ vector.mCount = index ∧ traits.hasTrivialCopy ∧
        traits.hasTrivialDtor then
      vector.mStorage.map fun buf =>
        match memory.editResize traits a buf newAllocSize with
        | (some resized, memory) => finish memory { vector with mStorage := some resized }
        | (none, memory) => (none, memory, vector)
    else
      match Storage.alloc a memory.heap newAllocSize with
      | (some new, heap) => do
          let objects ← memory.objects.copyType vector.mStorage 0 new 0 index
          let objects ← objects.copyType vector.mStorage index new (index + amount)
            (vector.mCount - index)
          let (memory, vector) ← adopt traits { heap, objects } vector new
          return finish memory vector
      | (none, heap) => some (none, { memory with heap }, vector)
  else do
    let (memory, vector) ← memory.editArrayImpl traits a vector
    let objects ←
      if index ≠ vector.mCount then do
        let buf ← vector.mStorage
        memory.objects.moveForwardType traits buf (index + amount) index (vector.mCount - index)
      else some memory.objects
    return finish { memory with objects } vector

/-- `insertAt` of copies of an item. -/
def insertAt (memory : ObjectMemory T) (vector : VectorObject) (item : Item T)
    (index numItems : Nat) : Option (Int × ObjectMemory T × VectorObject) :=
  if index > vector.mCount then some (badIndex, memory, vector)
  else do
    match ← memory.grow traits a vector index numItems with
    | (some place, memory, vector) =>
        let buf ← vector.mStorage
        let objects ← memory.objects.splatType traits buf place item numItems
        return (toSsize index, { memory with objects }, vector)
    | (none, memory, vector) => return (noMemory, memory, vector)

/-- `_shrink`. -/
def shrink (memory : ObjectMemory T) (vector : VectorObject) (index amount : Nat) :
    Option (ObjectMemory T × VectorObject) :=
  match vector.mStorage with
  | none => some (memory, vector)
  | some buf =>
      let newSize := sizeSub vector.mCount amount
      if newSize < vector.capacity traits memory.heap / 2 then
        let newAllocSize := sizeMul (VectorImpl.shrinkCapacity newSize) traits.itemSize
        if index = newSize ∧ traits.hasTrivialCopy ∧ traits.hasTrivialDtor then
          match memory.editResize traits a buf newAllocSize with
          | (some resized, memory) =>
              some (memory, { mStorage := some resized, mCount := newSize })
          | (none, memory) => some (memory, vector)
        else
          match Storage.alloc a memory.heap newAllocSize with
          | (some new, heap) => do
              let objects ← memory.objects.copyType (some buf) 0 new 0 index
              let objects ← objects.copyType (some buf) (index + amount) new index
                (newSize - index)
              let (memory, vector) ← adopt traits { heap, objects } vector new
              return (memory, { vector with mCount := newSize })
          | (none, heap) => some ({ memory with heap }, vector)
      else do
        let (memory, vector) ← memory.editArrayImpl traits a vector
        let buf ← vector.mStorage
        let objects ← memory.objects.destroyType traits buf index amount
        let objects ←
          if index ≠ newSize then
            objects.moveForwardType traits buf index (index + amount) (newSize - index)
          else some objects
        return ({ memory with objects }, { vector with mCount := newSize })

/-- `removeItemsAt`. -/
def removeItemsAt (memory : ObjectMemory T) (vector : VectorObject) (index count : Nat) :
    Option (Int × ObjectMemory T × VectorObject) :=
  if sizeAdd index count > vector.mCount then some (badValue, memory, vector)
  else do
    let (memory, vector) ← memory.shrink traits a vector index count
    return (toSsize index, memory, vector)

/-- `setCapacity`. -/
def setCapacity (memory : ObjectMemory T) (vector : VectorObject) (newCapacity : Nat) :
    Option (Int × ObjectMemory T × VectorObject) :=
  if newCapacity ≤ vector.mCount then
    some (toSsize (vector.capacity traits memory.heap), memory, vector)
  else
    match Storage.alloc a memory.heap (sizeMul newCapacity traits.itemSize) with
    | (some new, heap) => do
        let objects ← memory.objects.copyType vector.mStorage 0 new 0 vector.mCount
        let (memory, vector) ← adopt traits { heap, objects } vector new
        return (toSsize newCapacity, memory, vector)
    | (none, heap) => some (noMemory, { memory with heap }, vector)

/-- An assignment through the reference of `editItemAt`, which designates the first
element. -/
def editItemAt (memory : ObjectMemory T) (vector : VectorObject) (_index : Nat) (item : Item T) :
    Option (ObjectMemory T × VectorObject) := do
  let (memory, vector) ← memory.editArrayImpl traits a vector
  let buf ← vector.mStorage
  let objects ← memory.objects.assign (buf, 0) (← item.read memory.objects)
  return ({ memory with objects }, vector)

end ObjectMemory

/-! ## Programs -/

/-- The memory and the Vectors that are alive. -/
structure LiveState (ι : Type) (T : Type) where
  memory : ObjectMemory T
  vectors : ι → Option VectorObject

/-- No Vector was constructed yet. -/
def LiveState.init {ι : Type} : LiveState ι T where
  memory := {
    heap := { block := fun _ => ⟨0, 0, fun _ => none⟩, allocated := 0, freed := [] }
    objects := { objectAt := fun _ => none, constructed := 0, destroyed := [] } }
  vectors := fun _ => none

section Calls

variable {ι : Type} [DecidableEq ι] (traits : Traits) (a : Allocator (Option Empty))

/-- A call changes one Vector, and the memory. -/
def LiveState.put (state : LiveState ι T) (i : ι) (result : ObjectMemory T × VectorObject) :
    LiveState ι T where
  memory := result.1
  vectors := Function.update state.vectors i (some result.2)

/-- What a call on a live Vector makes of it. -/
def ObjectMemory.change (memory : ObjectMemory T) (vector : VectorObject) :
    VectorCall ι (Item T) → Option (ObjectMemory T × VectorObject)
  | .construct _ => none
  | .copy _ _ => none
  | .insertAt _ item index numItems =>
      (memory.insertAt traits a vector item index numItems).map Prod.snd
  | .push _ item => (memory.insertAt traits a vector item vector.mCount 1).map Prod.snd
  | .removeItemsAt _ index count =>
      (memory.removeItemsAt traits a vector index count).map Prod.snd
  | .clear _ => memory.shrink traits a vector 0 vector.mCount
  | .setCapacity _ newCapacity => (memory.setCapacity traits a vector newCapacity).map Prod.snd
  | .editItemAt _ index item => memory.editItemAt traits a vector index item
  | .destroy _ => none

/-- The steps of a program. -/
inductive LiveStep : LiveState ι T → Allocator (Option Empty) × VectorCall ι (Item T) →
    LiveState ι T → Prop where
  | construct {state : LiveState ι T} {a : Allocator (Option Empty)} {i : ι}
      (unused : state.vectors i = none) :
      LiveStep state (a, .construct i) (state.put i (state.memory, .empty))
  | copy {state : LiveState ι T} {a : Allocator (Option Empty)} {source target : ι}
      {vector : VectorObject} (alive : state.vectors source = some vector)
      (unused : state.vectors target = none) :
      LiveStep state (a, .copy source target) (state.put target (state.memory, vector))
  | change {state : LiveState ι T} {a : Allocator (Option Empty)} {call : VectorCall ι (Item T)}
      {vector : VectorObject} {result : ObjectMemory T × VectorObject}
      (alive : state.vectors call.target = some vector)
      (changed : state.memory.change traits a vector call = some result) :
      LiveStep state (a, call) (state.put call.target result)
  | destroy {state : LiveState ι T} {a : Allocator (Option Empty)} {i : ι}
      {vector : VectorObject} (alive : state.vectors i = some vector) :
      LiveStep state (a, .destroy i)
        { state with vectors := Function.update state.vectors i none }

end Calls

end DroidKernal.Utils
