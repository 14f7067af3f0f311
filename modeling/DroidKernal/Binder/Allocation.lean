import DroidKernal.Binder.Adoption
import DroidKernal.Binder.Stores
import DroidKernal.Lib.Ledger
import DroidKernal.Lib.Threads

/-!
# The memory of Parcels

What the functions of `Parcel.cpp` ask of the heap, and how they keep
`gParcelGlobalAllocSize` and `gParcelGlobalAllocCount`, in the order of the code.  The
functions themselves are those of `Parcel`; each definition here walks through the branches
of one of them.

The class has no destructor: the memory of a Parcel that goes out of scope stays in use.
-/

namespace DroidKernal.Binder

open Lib

/-- A request to the heap, or a section under `gParcelGlobalAllocSizeLock`. -/
inductive Upkeep where
  | heap (event : HeapEvent)
  /-- `gParcelGlobalAllocSize += desired; gParcelGlobalAllocCount++` -/
  | counts (desired : Nat)
  /-- `gParcelGlobalAllocSize += desired; gParcelGlobalAllocSize -= mDataCapacity` -/
  | recounts (desired capacity : Nat)
  /-- the subtraction in `freeDataNoInit`, which stops at zero -/
  | discounts (capacity : Nat)

/-- The heap as far as Parcels use it, with the global statistics. -/
structure ParcelHeap where
  ledger : Ledger
  gParcelGlobalAllocSize : UInt64
  gParcelGlobalAllocCount : UInt64

namespace ParcelHeap

/-- One request or section.  There is no result where the heap is misused. -/
def perform (state : ParcelHeap) : Upkeep → Option ParcelHeap
  | .heap event => (state.ledger.perform event).map fun ledger => { state with ledger }
  | .counts desired =>
      some { state with
        gParcelGlobalAllocSize := state.gParcelGlobalAllocSize + desired.toUInt64
        gParcelGlobalAllocCount := state.gParcelGlobalAllocCount + 1 }
  | .recounts desired capacity =>
      some { state with
        gParcelGlobalAllocSize :=
          state.gParcelGlobalAllocSize + desired.toUInt64 - capacity.toUInt64 }
  | .discounts capacity =>
      some { state with
        gParcelGlobalAllocSize :=
          if capacity ≤ state.gParcelGlobalAllocSize.toNat then
            state.gParcelGlobalAllocSize - capacity.toUInt64
          else 0 }

/-- The allocator may answer so. -/
def Grants (state : ParcelHeap) : Upkeep → Prop
  | .heap event => state.ledger.Grants taskSize event
  | .counts _ => True
  | .recounts _ _ => True
  | .discounts _ => True

/-- And all the way through. -/
def GrantsAll (state : ParcelHeap) : List Upkeep → Prop
  | [] => True
  | upkeep :: rest =>
      state.Grants upkeep ∧ ∀ next, state.perform upkeep = some next → next.GrantsAll rest

end ParcelHeap

/-! ## The functions of the class -/

/-- The bytes of a buffer. -/
def dataExtent (data : Block UInt8) (size : Nat) : Extent where
  addr := data.addr
  size := size

/-- The bytes of an array of object offsets. -/
def objectsExtent (objects : Block UInt64) (count : Nat) : Extent where
  addr := objects.addr
  size := 8 * count

namespace Parcel

/-- `freeDataNoInit`. -/
def freeDataNoInitUpkeep (parcel : Parcel) : List Upkeep :=
  if parcel.mOwner then []
  else
    (match parcel.mData with
      | none => []
      | some data => [.discounts parcel.mDataCapacity, .heap (.free data.addr)]) ++
    (match parcel.mObjects with
      | none => []
      | some objects => [.heap (.free objects.addr)])

/-- The branch of `continueWrite` for a buffer that belongs to someone else. -/
def takeOwnershipUpkeep (heap : Heap) (parcel : Parcel) (desired objectsSize : Nat) :
    List Upkeep :=
  if desired = 0 then parcel.freeDataNoInitUpkeep
  else
    match heap.data desired with
    | none => []
    | some data =>
        if objectsSize = 0 then
          [.heap (.malloc (dataExtent data desired)), .counts desired]
        else
          match heap.objects objectsSize with
          | none => [.heap (.malloc (dataExtent data desired)), .heap (.free data.addr)]
          | some objects =>
              [.heap (.malloc (dataExtent data desired)),
                .heap (.malloc (objectsExtent objects objectsSize)), .counts desired]

/-- The offsets that are dropped. -/
def dropObjectsUpkeep (heap : Heap) (parcel : Parcel) (objectsSize : Nat) : List Upkeep :=
  if objectsSize < parcel.mObjectsSize then
    match parcel.mObjects with
    | none => []
    | some old =>
        if objectsSize = 0 then [.heap (.free old.addr)]
        else
          match heap.objects objectsSize with
          | none => []
          | some new => [.heap (.realloc old.addr (objectsExtent new objectsSize))]
  else []

/-- The branch of `continueWrite` for a buffer of the Parcel's own. -/
def resizeOwnUpkeep (heap : Heap) (parcel : Parcel) (data : Block UInt8)
    (desired objectsSize : Nat) : List Upkeep :=
  parcel.dropObjectsUpkeep heap objectsSize ++
    if desired > parcel.mDataCapacity then
      match heap.data desired with
      | none => []
      | some new =>
          [.heap (.realloc data.addr (dataExtent new desired)),
            .recounts desired parcel.mDataCapacity]
    else []

/-- `continueWrite`. -/
def continueWriteUpkeep (heap : Heap) (parcel : Parcel) (desired : Nat) : List Upkeep :=
  if desired > int32Max then []
  else
    match parcel.objectsKept desired with
    | none => []
    | some objectsSize =>
        if parcel.mOwner then parcel.takeOwnershipUpkeep heap desired objectsSize
        else
          match parcel.mData with
          | some data => parcel.resizeOwnUpkeep heap data desired objectsSize
          | none =>
              match heap.data desired with
              | none => []
              | some data => [.heap (.malloc (dataExtent data desired)), .counts desired]

/-- `growData`. -/
def growDataUpkeep (heap : Heap) (parcel : Parcel) (len : Nat) : List Upkeep :=
  if len > int32Max then []
  else if len > sizeMax - parcel.mDataSize then []
  else if parcel.mDataSize + len > sizeMax / 3 then []
  else
    let newSize := (parcel.mDataSize + len) * 3 / 2
    if newSize ≤ parcel.mDataSize then [] else parcel.continueWriteUpkeep heap newSize

/-- `setDataSize`. -/
def setDataSizeUpkeep (heap : Heap) (parcel : Parcel) (size : Nat) : List Upkeep :=
  if size > int32Max then [] else parcel.continueWriteUpkeep heap size

/-- `writeInplace`. -/
def writeInplaceUpkeep (heap : Heap) (parcel : Parcel) (len : Nat) : List Upkeep :=
  if len > int32Max then []
  else
    let padded := padSize len
    if sizeAdd parcel.mDataPos padded < parcel.mDataPos then []
    else if sizeAdd parcel.mDataPos padded ≤ parcel.mDataCapacity then []
    else parcel.growDataUpkeep heap padded

/-- `write`. -/
def writeUpkeep (heap : Heap) (parcel : Parcel) (data : List UInt8) : List Upkeep :=
  if data.length > int32Max then [] else parcel.writeInplaceUpkeep heap data.length

/-- `writeAligned` of a value of the given size. -/
def writeAlignedUpkeep (heap : Heap) (parcel : Parcel) (size : Nat) : List Upkeep :=
  if sizeAdd parcel.mDataPos size ≤ parcel.mDataCapacity then []
  else parcel.growDataUpkeep heap size

/-- The public operations. -/
def Call.upkeep (heap : Heap) (parcel : Parcel) : Call → List Upkeep
  | .write data => parcel.writeUpkeep heap data
  | .writeInplace len => parcel.writeInplaceUpkeep heap len.toNat
  | .writeInt32 _ => parcel.writeAlignedUpkeep heap FlatRecord.int32.size
  | .setDataSize size => parcel.setDataSizeUpkeep heap size.toNat
  | .setDataPosition _ => []

end Parcel

/-! ## Parcels that share the heap -/

/-- What is done with a Parcel. -/
inductive ParcelUse where
  | call (operation : Parcel.Call)
  | setError (err : Int)
  /-- a buffer of the driver, with the function that gives it back -/
  | ipcSetDataReference (data : Block UInt8) (dataSize : Nat) (objects : Block UInt64)
      (objectsCount : Nat)

namespace ParcelUse

/-- What becomes of the Parcel. -/
def run (uapi : ObjectUapi) (heap : Heap) (parcel : Parcel) : ParcelUse → Option Parcel
  | .call operation => operation.run heap parcel
  | .setError err => some (parcel.setError err)
  | .ipcSetDataReference data dataSize objects objectsCount =>
      (parcel.ipcSetDataReference uapi data dataSize objects objectsCount true).map
        Adoption.parcel

/-- And of the heap. -/
def upkeep (heap : Heap) (parcel : Parcel) : ParcelUse → List Upkeep
  | .call operation => operation.upkeep heap parcel
  | .setError _ => []
  | .ipcSetDataReference _ _ _ _ => parcel.freeDataNoInitUpkeep

end ParcelUse

/-- The Parcels that were constructed, and the heap, unless it was misused. -/
abbrev Parcels (ι : Type*) := Threads ι (Option ParcelHeap) Parcel

/-- One use of one Parcel, which keeps the rules of the allocator. -/
inductive ParcelStep {ι : Type*} [DecidableEq ι] (uapi : ObjectUapi) :
    Parcels ι → List Upkeep → Parcels ι → Prop where
  | uses {parcels : Parcels ι} {state : ParcelHeap} {heap : Heap} {use : ParcelUse} {i : ι}
      {parcel : Parcel} (isState : parcels.shared = some state)
      (grants : state.GrantsAll (use.upkeep heap (parcels.threads i)))
      (returns : use.run uapi heap (parcels.threads i) = some parcel) :
      ParcelStep uapi parcels (use.upkeep heap (parcels.threads i))
        { shared := (use.upkeep heap (parcels.threads i)).foldlM ParcelHeap.perform state
          threads := Function.update parcels.threads i parcel }

end DroidKernal.Binder
