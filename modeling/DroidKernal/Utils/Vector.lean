import DroidKernal.Utils.SharedBuffer
import Mathlib.Algebra.Order.Ring.Int
import Mathlib.Logic.Function.Basic

/-!
# Vector

`VectorImpl` for elements of any type, as far as its storage has one owner.  The
storage is a row of slots; a slot holds a value once it was constructed, and none
after it was destroyed.  Sizes are computed modulo `2 ^ 64`, and an assertion that
fails is only logged.
-/

namespace DroidKernal.Utils

/-- The traits of the element type, with its size in bytes. -/
structure Traits where
  hasTrivialCtor : Bool
  hasTrivialDtor : Bool
  hasTrivialCopy : Bool
  hasTrivialMove : Bool
  itemSize : Nat
  positive : 0 < itemSize

/-- `use_trivial_move`. -/
def Traits.useTrivialMove (traits : Traits) : Bool :=
  traits.hasTrivialDtor && traits.hasTrivialCtor || traits.hasTrivialMove

/-- The traits of a class that declares none. -/
def Traits.nontrivial (itemSize : Nat) (positive : 0 < itemSize) : Traits where
  hasTrivialCtor := false
  hasTrivialDtor := false
  hasTrivialCopy := false
  hasTrivialMove := false
  itemSize
  positive

/-- Addition, multiplication and subtraction of `size_t`. -/
def sizeAdd (a b : Nat) : Nat := (a + b) % 2 ^ 64
def sizeMul (a b : Nat) : Nat := a * b % 2 ^ 64
def sizeSub (a b : Nat) : Nat := (a + (2 ^ 64 - b % 2 ^ 64)) % 2 ^ 64

theorem sizeAdd_eq {a b : Nat} (small : a + b < 2 ^ 64) : sizeAdd a b = a + b :=
  Nat.mod_eq_of_lt small

theorem sizeMul_eq {a b : Nat} (small : a * b < 2 ^ 64) : sizeMul a b = a * b :=
  Nat.mod_eq_of_lt small

theorem sizeSub_eq {a b : Nat} (small : a < 2 ^ 64) (le : b ≤ a) : sizeSub a b = a - b := by
  simp only [sizeSub]
  omega

/-- A `size_t` returned as `ssize_t`. -/
def toSsize (n : Nat) : Int := if n < 2 ^ 63 then n else n - 2 ^ 64

/-- `BAD_INDEX`, `BAD_VALUE` and `NO_MEMORY`. -/
def badIndex : Int := -75
def badValue : Int := -22
def noMemory : Int := -12

/-- `kMinVectorCapacity`. -/
def kMinVectorCapacity : Nat := 4

/-- Which allocations succeed during an operation, by the number of bytes asked for. -/
abbrev Heap := Nat → Bool

/-- Memory for a buffer of the size is found. -/
def Heap.grantsBuffer (heap : Heap) (size : Nat) : Bool := heap (bufferBytes size)

variable {T : Type*}

/-- A row of slots. -/
abbrev Slots (T : Type*) := Nat → Option T

/-- A `SharedBuffer`: its `mSize` in bytes and its slots. -/
structure SharedBuffer (T : Type*) where
  mSize : Nat
  slots : Slots T

/-- `SharedBuffer::alloc`. -/
def SharedBuffer.alloc (heap : Heap) (size : Nat) : Option (SharedBuffer T) :=
  if heap.grantsBuffer size then some { mSize := size, slots := fun _ => none } else none

/-- `SharedBuffer::editResize` by the only owner, of a buffer that is kept where no memory is
found. -/
def SharedBuffer.editResize (traits : Traits) (heap : Heap) (buffer : SharedBuffer T)
    (newSize : Nat) : Option (SharedBuffer T) :=
  if buffer.mSize = newSize then some buffer
  else if heap.grantsBuffer newSize then
    some {
      mSize := newSize
      slots := fun i =>
        if i < min buffer.mSize newSize / traits.itemSize then buffer.slots i else none }
  else none

/-! ## Slots -/

/-- `copy_type` from one buffer into another. -/
def copyType (into : Slots T) (dest : Nat) (source : Slots T) (start num : Nat) : Slots T :=
  fun i => if dest ≤ i ∧ i < dest + num then source (start + (i - dest)) else into i

/-- `splat_type`. -/
def splatType (slots : Slots T) (place : Nat) (item : T) (num : Nat) : Slots T :=
  fun i => if place ≤ i ∧ i < place + num then some item else slots i

/-- `destroy_type`. -/
def destroyType (traits : Traits) (slots : Slots T) (start num : Nat) : Slots T :=
  if traits.hasTrivialDtor then slots
  else fun i => if start ≤ i ∧ i < start + num then none else slots i

/-- The loop of `move_forward_type`, from the last element to the first. -/
def moveForwardLoop (traits : Traits) (dest start : Nat) : Nat → Slots T → Slots T
  | 0, slots => slots
  | num + 1, slots =>
      let slots := Function.update slots (dest + num) (slots (start + num))
      let slots :=
        if traits.hasTrivialDtor then slots else Function.update slots (start + num) none
      moveForwardLoop traits dest start num slots

/-- `move_forward_type` within one buffer. -/
def moveForwardType (traits : Traits) (slots : Slots T) (dest start num : Nat) : Slots T :=
  if traits.useTrivialMove then copyType slots dest slots start num
  else moveForwardLoop traits dest start num slots

/-! ## VectorImpl -/

/-- `class VectorImpl`. -/
structure VectorImpl (T : Type*) where
  mStorage : Option (SharedBuffer T)
  mCount : Nat

namespace VectorImpl

/-- The constructor. -/
def empty : VectorImpl T where
  mStorage := none
  mCount := 0

variable (traits : Traits) (heap : Heap)

/-- `capacity`. -/
def capacity (vector : VectorImpl T) : Nat :=
  match vector.mStorage with
  | some buffer => buffer.mSize / traits.itemSize
  | none => 0

/-- What lies in a slot of the storage. -/
def slot (vector : VectorImpl T) (i : Nat) : Option T :=
  vector.mStorage.bind fun buffer => buffer.slots i

/-- `itemLocation`: the slot that the pointer designates. -/
def itemLocation (vector : VectorImpl T) (index : Nat) : Option Nat :=
  if index < vector.capacity traits ∧ vector.mStorage.isSome then some index else none

/-- `editItemLocation`: the slot that the pointer designates.  The source returns
`mStorage`, without the index. -/
def editItemLocation (vector : VectorImpl T) (_index : Nat) : Option Nat :=
  vector.mStorage.map fun _ => 0

/-- A store through the pointer to a slot. -/
def store (vector : VectorImpl T) (i : Nat) (item : T) : VectorImpl T :=
  { vector with
    mStorage := vector.mStorage.map fun buffer =>
      { buffer with slots := Function.update buffer.slots i (some item) } }

/-- The capacity that `_grow` asks for. -/
def growCapacity (count amount : Nat) : Nat :=
  max kMinVectorCapacity (sizeAdd (sizeAdd count amount) (sizeAdd count amount / 2))

/-- `_grow`: the slot of the new elements, and the vector with room for them. -/
def grow (vector : VectorImpl T) (index amount : Nat) : Option Nat × VectorImpl T :=
  let newSize := sizeAdd vector.mCount amount
  let finish (mStorage : Option (SharedBuffer T)) : Option Nat × VectorImpl T :=
    let grown : VectorImpl T := { mStorage, mCount := newSize }
    (grown.itemLocation traits index, grown)
  if vector.capacity traits < newSize then
    let newAllocSize := sizeMul (growCapacity vector.mCount amount) traits.itemSize
    match vector.mStorage with
    | some buffer =>
        if vector.mCount = index ∧ traits.hasTrivialCopy ∧ traits.hasTrivialDtor then
          match buffer.editResize traits heap newAllocSize with
          | some buffer => finish (some buffer)
          | none => (none, vector)
        else
          match SharedBuffer.alloc heap newAllocSize with
          | some new =>
              let slots := copyType new.slots 0 buffer.slots 0 index
              let slots := copyType slots (index + amount) buffer.slots index
                (vector.mCount - index)
              finish (some { new with slots })
          | none => (none, vector)
    | none =>
        match SharedBuffer.alloc heap newAllocSize with
        | some new => finish (some new)
        | none => (none, vector)
  else
    finish <| vector.mStorage.map fun buffer =>
      if index ≠ vector.mCount then
        { buffer with
          slots := moveForwardType traits buffer.slots (index + amount) index
            (vector.mCount - index) }
      else buffer

/-- `insertAt` of copies of an item. -/
def insertAt (vector : VectorImpl T) (item : T) (index numItems : Nat) : Int × VectorImpl T :=
  if index > vector.mCount then (badIndex, vector)
  else
    match vector.grow traits heap index numItems with
    | (some place, grown) =>
        (toSsize index,
          { grown with
            mStorage := grown.mStorage.map fun buffer =>
              { buffer with slots := splatType buffer.slots place item numItems } })
    | (none, grown) => (noMemory, grown)

/-- The capacity that `_shrink` asks for. -/
def shrinkCapacity (newSize : Nat) : Nat :=
  max kMinVectorCapacity (sizeMul newSize 2)

/-- `_shrink`. -/
def shrink (vector : VectorImpl T) (index amount : Nat) : VectorImpl T :=
  match vector.mStorage with
  | none => vector
  | some buffer =>
      let newSize := sizeSub vector.mCount amount
      if newSize < vector.capacity traits / 2 then
        let newAllocSize := sizeMul (shrinkCapacity newSize) traits.itemSize
        if index = newSize ∧ traits.hasTrivialCopy ∧ traits.hasTrivialDtor then
          match buffer.editResize traits heap newAllocSize with
          | some buffer => { mStorage := some buffer, mCount := newSize }
          | none => vector
        else
          match SharedBuffer.alloc heap newAllocSize with
          | some new =>
              let slots := copyType new.slots 0 buffer.slots 0 index
              let slots := copyType slots index buffer.slots (index + amount) (newSize - index)
              { mStorage := some { new with slots }, mCount := newSize }
          | none => vector
      else
        let slots := destroyType traits buffer.slots index amount
        -- the elements move towards the front, last one first
        let slots :=
          if index ≠ newSize then
            moveForwardType traits slots index (index + amount) (newSize - index)
          else slots
        { mStorage := some { buffer with slots }, mCount := newSize }

/-- `removeItemsAt`. -/
def removeItemsAt (vector : VectorImpl T) (index count : Nat) : Int × VectorImpl T :=
  if sizeAdd index count > vector.mCount then (badValue, vector)
  else (toSsize index, vector.shrink traits heap index count)

/-- `setCapacity`. -/
def setCapacity (vector : VectorImpl T) (newCapacity : Nat) : Int × VectorImpl T :=
  if newCapacity ≤ vector.mCount then (toSsize (vector.capacity traits), vector)
  else
    match SharedBuffer.alloc heap (sizeMul newCapacity traits.itemSize) with
    | some new =>
        let slots := copyType new.slots 0 (fun i => vector.slot i) 0 vector.mCount
        (toSsize newCapacity, { vector with mStorage := some { new with slots } })
    | none => (noMemory, vector)

end VectorImpl

end DroidKernal.Utils
