import DroidKernal.Binder.Allocation
import Mathlib.Algebra.BigOperators.Pi

/-!
# Who owns the memory of Parcels

A Parcel owns its buffer and its offsets unless they came with a release function.  In every
run, the heap that Parcels use holds exactly what they own, nothing is given back twice, and
the global size is the sum of the capacities of the buffers.
-/

namespace DroidKernal.Binder

open Lib

/-! ## A part of the heap -/

/-- A part of the ledger, with how much of it the statistics count, beside the rest. -/
structure Holding (blocks : Ledger) (counted : Nat) (rest : Ledger) (other : Nat)
    (state : ParcelHeap) : Prop where
  ledger : state.ledger = blocks + rest
  sound : state.ledger.Sound taskSize
  covered : counted ≤ blocks.total
  others : other ≤ rest.total
  size : state.gParcelGlobalAllocSize.toNat = counted + other

/-- From the whole heap to a part of it. -/
theorem Holding.focus {blocks rest : Ledger} {counted other : Nat} {state : ParcelHeap}
    (holding : Holding (rest + blocks) (other + counted) 0 0 state)
    (covered : counted ≤ blocks.total) (others : other ≤ rest.total) :
    Holding blocks counted rest other state where
  ledger := by rw [holding.ledger, add_zero, add_comm]
  sound := holding.sound
  covered := covered
  others := others
  size := by rw [holding.size, Nat.add_zero, Nat.add_comm]

/-- And back. -/
theorem Holding.unfocus {blocks rest : Ledger} {counted other : Nat} {state : ParcelHeap}
    (holding : Holding blocks counted rest other state) :
    Holding (rest + blocks) (other + counted) 0 0 state where
  ledger := by rw [holding.ledger, add_zero, add_comm]
  sound := holding.sound
  covered := by
    rw [Ledger.total_add]
    exact Nat.add_le_add holding.others holding.covered
  others := Nat.le_refl _
  size := by rw [holding.size, Nat.add_zero, Nat.add_comm]

/-- The requests turn a part of the heap into another, whatever the rest is. -/
def Keeps (blocks : Ledger) (counted : Nat) (upkeeps : List Upkeep) (blocks' : Ledger)
    (counted' : Nat) : Prop :=
  ∀ ⦃rest : Ledger⦄ ⦃other : Nat⦄ ⦃state : ParcelHeap⦄,
    Holding blocks counted rest other state → state.GrantsAll upkeeps →
      ∃ next, upkeeps.foldlM ParcelHeap.perform state = some next ∧
        Holding blocks' counted' rest other next

section Keeping

variable {blocks blocks' blocks'' rest : Ledger} {counted counted' counted'' other : Nat}
  {upkeep : Upkeep} {upkeeps later : List Upkeep} {state next : ParcelHeap}

/-- What is counted fits into `size_t`. -/
theorem Holding.fits (holding : Holding blocks counted rest other state) :
    blocks.total + rest.total < 2 ^ 64 := by
  have isLe := holding.sound.total_le
  rw [holding.ledger, Ledger.total_add] at isLe
  exact Nat.lt_of_le_of_lt isLe (by decide)

theorem Keeps.nil : Keeps blocks counted [] blocks counted :=
  fun _ _ state holding _ => ⟨state, rfl, holding⟩

theorem grantsAll_append (grants : state.GrantsAll (upkeeps ++ later)) :
    state.GrantsAll upkeeps ∧ ∀ next, upkeeps.foldlM ParcelHeap.perform state = some next →
      next.GrantsAll later := by
  induction upkeeps generalizing state with
  | nil => exact ⟨trivial, fun next isNext => by cases isNext; exact grants⟩
  | cons upkeep upkeeps ih =>
      obtain ⟨first, goesOn⟩ := grants
      refine ⟨⟨first, fun next isNext => (ih (goesOn next isNext)).1⟩, fun next isNext => ?_⟩
      rw [List.foldlM_cons] at isNext
      obtain ⟨middle, isMiddle, isLast⟩ := Option.bind_eq_some_iff.mp isNext
      exact (ih (goesOn middle isMiddle)).2 next isLast

theorem Keeps.append (first : Keeps blocks counted upkeeps blocks' counted')
    (second : Keeps blocks' counted' later blocks'' counted'') :
    Keeps blocks counted (upkeeps ++ later) blocks'' counted'' := by
  intro rest other state holding grants
  obtain ⟨grantsFirst, grantsLater⟩ := grantsAll_append grants
  obtain ⟨middle, isMiddle, holdingMiddle⟩ := first holding grantsFirst
  obtain ⟨next, isNext, holdingNext⟩ := second holdingMiddle (grantsLater middle isMiddle)
  refine ⟨next, ?_, holdingNext⟩
  rw [List.foldlM_append, isMiddle]
  exact isNext

/-- One request. -/
theorem Keeps.single
    (keeps : ∀ {rest : Ledger} {other : Nat} {state : ParcelHeap},
      Holding blocks counted rest other state → state.Grants upkeep →
        ∃ next, state.perform upkeep = some next ∧ Holding blocks' counted' rest other next) :
    Keeps blocks counted [upkeep] blocks' counted' := by
  intro rest other state holding grants
  obtain ⟨next, isNext, holdingNext⟩ := keeps holding grants.1
  refine ⟨next, ?_, holdingNext⟩
  rw [List.foldlM_cons, isNext]
  rfl

theorem keeps_malloc (new : Extent) :
    Keeps blocks counted [.heap (.malloc new)] (new ::ₘ blocks) counted := by
  refine Keeps.single fun holding grants => ⟨_, rfl, ?_⟩
  exact {
    ledger := by rw [holding.ledger, Multiset.cons_add]
    sound := holding.sound.cons grants
    covered := by
      rw [Ledger.total_cons]
      exact Nat.le_add_left_of_le holding.covered
    others := holding.others
    size := holding.size }

theorem keeps_free (block : Extent) (covered : counted ≤ blocks.total) :
    Keeps (block ::ₘ blocks) counted [.heap (.free block.addr)] blocks counted := by
  refine Keeps.single fun {rest other state} holding _ => ?_
  have isLedger := holding.ledger
  rw [Multiset.cons_add] at isLedger
  have sound := holding.sound
  rw [isLedger] at sound
  have released : state.ledger.perform (.free block.addr) = some (blocks + rest) := by
    rw [isLedger]
    exact sound.release
  exact ⟨{ state with ledger := blocks + rest }, congrArg (Option.map _) released, {
    ledger := rfl
    sound := sound.of_cons
    covered
    others := holding.others
    size := holding.size }⟩

theorem keeps_realloc (block new : Extent) (covered : counted ≤ new.size + blocks.total) :
    Keeps (block ::ₘ blocks) counted [.heap (.realloc block.addr new)] (new ::ₘ blocks)
      counted := by
  refine Keeps.single fun {rest other state} holding grants => ?_
  have isLedger := holding.ledger
  rw [Multiset.cons_add] at isLedger
  have sound := holding.sound
  rw [isLedger] at sound
  have released : state.ledger.perform (.realloc block.addr new) =
      some (new ::ₘ (blocks + rest)) := by
    rw [isLedger]
    exact congrArg (Option.map (new ::ₘ ·)) sound.release
  have fresh : Ledger.Fresh taskSize new (state.ledger.elsewhere block.addr) := grants
  rw [isLedger, sound.elsewhere] at fresh
  exact ⟨{ state with ledger := new ::ₘ (blocks + rest) }, congrArg (Option.map _) released, {
    ledger := (Multiset.cons_add ..).symm
    sound := sound.of_cons.cons fresh
    covered := by rwa [Ledger.total_cons]
    others := holding.others
    size := holding.size }⟩

/-- Another size is counted. -/
theorem Holding.recount (holding : Holding blocks counted rest other state)
    (covered : counted' ≤ blocks.total) (sameLedger : next.ledger = state.ledger)
    (isSize : next.gParcelGlobalAllocSize = UInt64.ofNat (counted' + other)) :
    Holding blocks counted' rest other next where
  ledger := sameLedger.trans holding.ledger
  sound := by
    rw [sameLedger]
    exact holding.sound
  covered := covered
  others := holding.others
  size := by
    have fits := holding.fits
    have others := holding.others
    rw [isSize]
    exact Nat.mod_eq_of_lt (by omega)

theorem Holding.size_eq (holding : Holding blocks counted rest other state) :
    state.gParcelGlobalAllocSize = UInt64.ofNat counted + UInt64.ofNat other := by
  rw [← UInt64.ofNat_toNat (x := state.gParcelGlobalAllocSize), holding.size, UInt64.ofNat_add]

theorem keeps_counts {desired : Nat} (covered : counted + desired ≤ blocks.total) :
    Keeps blocks counted [.counts desired] blocks (counted + desired) := by
  refine Keeps.single fun {rest other state} holding _ => ⟨_, rfl, ?_⟩
  refine holding.recount covered rfl ?_
  calc state.gParcelGlobalAllocSize + UInt64.ofNat desired
      = UInt64.ofNat counted + UInt64.ofNat other + UInt64.ofNat desired := by rw [holding.size_eq]
    _ = UInt64.ofNat counted + UInt64.ofNat desired + UInt64.ofNat other := by
        rw [UInt64.add_assoc, UInt64.add_comm (UInt64.ofNat other), ← UInt64.add_assoc]
    _ = UInt64.ofNat (counted + desired + other) := by rw [UInt64.ofNat_add, UInt64.ofNat_add]

theorem keeps_recounts {desired : Nat} (covered : desired ≤ blocks.total) :
    Keeps blocks counted [.recounts desired counted] blocks desired := by
  refine Keeps.single fun {rest other state} holding _ => ⟨_, rfl, ?_⟩
  refine holding.recount covered rfl ?_
  calc state.gParcelGlobalAllocSize + UInt64.ofNat desired - UInt64.ofNat counted
      = UInt64.ofNat counted + UInt64.ofNat other + UInt64.ofNat desired -
          UInt64.ofNat counted := by rw [holding.size_eq]
    _ = UInt64.ofNat desired + UInt64.ofNat other := by
        rw [UInt64.add_assoc, UInt64.add_comm (UInt64.ofNat counted), UInt64.add_sub_cancel,
          UInt64.add_comm]
    _ = UInt64.ofNat (desired + other) := (UInt64.ofNat_add ..).symm

/-- The subtraction does not stop at zero. -/
theorem keeps_discounts : Keeps blocks counted [.discounts counted] blocks 0 := by
  refine Keeps.single fun {rest other state} holding _ => ⟨_, rfl, ?_⟩
  refine holding.recount (Nat.zero_le _) rfl ?_
  have isLe : counted ≤ state.gParcelGlobalAllocSize.toNat := by
    rw [holding.size]
    exact Nat.le_add_right ..
  calc (if counted ≤ state.gParcelGlobalAllocSize.toNat then
          state.gParcelGlobalAllocSize - UInt64.ofNat counted else 0)
      = state.gParcelGlobalAllocSize - UInt64.ofNat counted := if_pos isLe
    _ = UInt64.ofNat counted + UInt64.ofNat other - UInt64.ofNat counted := by rw [holding.size_eq]
    _ = UInt64.ofNat (0 + other) := by
        rw [UInt64.add_comm, UInt64.add_sub_cancel, Nat.zero_add]

end Keeping

/-! ## What a Parcel owns -/

namespace Parcel

/-- The buffer, if there is one. -/
def bufferBlock (parcel : Parcel) : Ledger :=
  parcel.mData.elim 0 fun data => {dataExtent data parcel.mDataCapacity}

/-- The array of the offsets, if there is one. -/
def offsetsBlock (parcel : Parcel) : Ledger :=
  parcel.mObjects.elim 0 fun objects => {objectsExtent objects parcel.mObjectsCapacity}

/-- The blocks of memory that a Parcel owns. -/
def blocks (parcel : Parcel) : Ledger :=
  if parcel.mOwner then 0 else parcel.bufferBlock + parcel.offsetsBlock

/-- The capacity of its own buffer. -/
def ownCapacity (parcel : Parcel) : Nat :=
  if parcel.mOwner then 0 else parcel.mData.elim 0 fun _ => parcel.mDataCapacity

/-- The requests are those of an operation that turns one Parcel into another. -/
def Keeps (before : Parcel) (upkeeps : List Upkeep) (after : Parcel) : Prop :=
  Binder.Keeps before.blocks before.ownCapacity upkeeps after.blocks after.ownCapacity

/-- Two Parcels with the same memory. -/
structure SameMemory (before after : Parcel) : Prop where
  blocks : after.blocks = before.blocks
  ownCapacity : after.ownCapacity = before.ownCapacity

section Own

variable {parcel after : Parcel} {heap : Heap} {upkeeps : List Upkeep}

theorem SameMemory.trans {last : Parcel} (first : SameMemory parcel after)
    (second : SameMemory after last) : SameMemory parcel last :=
  ⟨second.1.trans first.1, second.2.trans first.2⟩

theorem SameMemory.keeps (same : SameMemory parcel after) : parcel.Keeps [] after := by
  rw [Parcel.Keeps, same.blocks, same.ownCapacity]
  exact Binder.Keeps.nil

theorem Keeps.same {last : Parcel} (keeps : parcel.Keeps upkeeps after)
    (same : SameMemory after last) : parcel.Keeps upkeeps last := by
  rw [Parcel.Keeps, same.blocks, same.ownCapacity]
  exact keeps

theorem blocks_owned (owned : parcel.mOwner = true) : parcel.blocks = 0 :=
  if_pos owned

theorem ownCapacity_owned (owned : parcel.mOwner = true) : parcel.ownCapacity = 0 :=
  if_pos owned

theorem blocks_own (own : parcel.mOwner = false) :
    parcel.blocks = parcel.bufferBlock + parcel.offsetsBlock :=
  if_neg (Bool.eq_false_iff.mp own)

theorem ownCapacity_own (own : parcel.mOwner = false) :
    parcel.ownCapacity = parcel.mData.elim 0 fun _ => parcel.mDataCapacity :=
  if_neg (Bool.eq_false_iff.mp own)

theorem blocks_none (own : parcel.mOwner = false) (null : parcel.mData = none) :
    parcel.blocks = parcel.offsetsBlock := by
  rw [blocks_own own, bufferBlock, null, Option.elim_none, zero_add]

theorem blocks_some (own : parcel.mOwner = false) {data : Block UInt8}
    (isData : parcel.mData = some data) :
    parcel.blocks = dataExtent data parcel.mDataCapacity ::ₘ parcel.offsetsBlock := by
  rw [blocks_own own, bufferBlock, isData, Option.elim_some, Multiset.singleton_add]

theorem ownCapacity_none (own : parcel.mOwner = false) (null : parcel.mData = none) :
    parcel.ownCapacity = 0 := by
  rw [ownCapacity_own own, null, Option.elim_none]

theorem ownCapacity_some (own : parcel.mOwner = false) {data : Block UInt8}
    (isData : parcel.mData = some data) : parcel.ownCapacity = parcel.mDataCapacity := by
  rw [ownCapacity_own own, isData, Option.elim_some]

theorem blocks_array (own : parcel.mOwner = false) {objects : Block UInt64}
    (isArray : parcel.mObjects = some objects) :
    parcel.blocks = objectsExtent objects parcel.mObjectsCapacity ::ₘ parcel.bufferBlock := by
  rw [blocks_own own, offsetsBlock, isArray, Option.elim_some, add_comm, Multiset.singleton_add]

theorem ownCapacity_le : parcel.ownCapacity ≤ parcel.bufferBlock.total := by
  rw [ownCapacity, bufferBlock]
  split
  next => exact Nat.zero_le _
  next =>
    cases parcel.mData with
    | none => exact Nat.le_refl _
    | some data => exact Nat.le_add_right ..

/-! ## `freeDataNoInit` -/

/-- Everything is given back, and nothing is counted any longer. -/
theorem freeDataNoInit_keeps :
    Binder.Keeps parcel.blocks parcel.ownCapacity parcel.freeDataNoInitUpkeep 0 0 := by
  rw [freeDataNoInitUpkeep]
  cases own : parcel.mOwner with
  | true =>
      rw [blocks_owned own, ownCapacity_owned own]
      exact Binder.Keeps.nil
  | false =>
      rw [if_neg Bool.false_ne_true]
      have noObjects : parcel.mObjects = none →
          Binder.Keeps parcel.offsetsBlock 0 [] 0 0 := by
        intro isNone
        rw [offsetsBlock, isNone]
        exact Binder.Keeps.nil
      have someObjects : ∀ objects, parcel.mObjects = some objects →
          Binder.Keeps parcel.offsetsBlock 0 [.heap (.free objects.addr)] 0 0 := by
        intro objects isSome
        rw [offsetsBlock, isSome]
        exact keeps_free (objectsExtent objects parcel.mObjectsCapacity)
          (Nat.zero_le (Ledger.total 0))
      cases isData : parcel.mData with
      | none =>
          rw [blocks_none own isData, ownCapacity_none own isData]
          cases isObjects : parcel.mObjects with
          | none => exact noObjects isObjects
          | some objects => exact someObjects objects isObjects
      | some data =>
          rw [blocks_some own isData, ownCapacity_some own isData]
          have freed : Binder.Keeps (dataExtent data parcel.mDataCapacity ::ₘ parcel.offsetsBlock)
              0 [.heap (.free data.addr)] parcel.offsetsBlock 0 :=
            keeps_free (dataExtent data parcel.mDataCapacity) (Nat.zero_le _)
          cases isObjects : parcel.mObjects with
          | none => exact (keeps_discounts.append freed).append (noObjects isObjects)
          | some objects =>
              exact (keeps_discounts.append freed).append (someObjects objects isObjects)

/-! ## `continueWrite` -/

/-- A buffer is allocated beside the offsets, and counted. -/
theorem buffer_keeps (data : Block UInt8) (desired : Nat) (offsets : Ledger) :
    Binder.Keeps offsets 0 [.heap (.malloc (dataExtent data desired)), .counts desired]
      (dataExtent data desired ::ₘ offsets) desired := by
  have covered : 0 + desired ≤ Ledger.total (dataExtent data desired ::ₘ offsets) := by
    rw [Ledger.total_cons, Nat.zero_add]
    exact Nat.le_add_right ..
  have counted := keeps_counts covered
  rw [Nat.zero_add] at counted
  exact (keeps_malloc (dataExtent data desired)).append counted

theorem setError_same (err : Int) : SameMemory parcel (parcel.setError err) := ⟨rfl, rfl⟩

/-- Moving what was stored keeps the block. -/
theorem moved_addr (old : Option (Block UInt8)) (data : Block UInt8) (kept : Nat) :
    (match old with
      | none => data
      | some old => old.moveTo data kept).addr = data.addr := by
  cases old <;> rfl

theorem moved_objects_addr (old : Option (Block UInt64)) (objects : Block UInt64) (kept : Nat) :
    (match old with
      | none => objects
      | some old => old.moveTo objects kept).addr = objects.addr := by
  cases old <;> rfl

section Taken

variable {data old : Block UInt8} {desired : Nat}

/-- A Parcel with a new buffer. -/
theorem taken_blocks (own : after.mOwner = false) (isData : after.mData = some old)
    (sameAddr : old.addr = data.addr) (isDesired : after.mDataCapacity = desired) :
    after.blocks = dataExtent data desired ::ₘ after.offsetsBlock := by
  rw [blocks_some own isData, dataExtent, dataExtent, sameAddr, isDesired]

theorem taken_keeps (own : after.mOwner = false) (isData : after.mData = some old)
    (sameAddr : old.addr = data.addr) (isDesired : after.mDataCapacity = desired)
    (noArray : after.mObjects = none) :
    Binder.Keeps 0 0 [.heap (.malloc (dataExtent data desired)), .counts desired] after.blocks
      after.ownCapacity := by
  rw [taken_blocks own isData sameAddr isDesired, ownCapacity_some own isData, isDesired,
    offsetsBlock, noArray]
  exact buffer_keeps data desired 0

theorem taken_array_keeps (own : after.mOwner = false) (isData : after.mData = some old)
    (sameAddr : old.addr = data.addr) (isDesired : after.mDataCapacity = desired)
    {objects array : Block UInt64} {objectsSize : Nat} (isArray : after.mObjects = some array)
    (sameArray : array.addr = objects.addr) (isSize : after.mObjectsCapacity = objectsSize) :
    Binder.Keeps 0 0
      [.heap (.malloc (dataExtent data desired)),
        .heap (.malloc (objectsExtent objects objectsSize)), .counts desired]
      after.blocks after.ownCapacity := by
  have covered : 0 + desired ≤
      Ledger.total (objectsExtent objects objectsSize ::ₘ dataExtent data desired ::ₘ 0) := by
    rw [Ledger.total_cons, Ledger.total_cons, Nat.zero_add]
    exact Nat.le_add_left_of_le (Nat.le_add_right ..)
  have allocated := (@keeps_malloc 0 0 (dataExtent data desired)).append
    (keeps_malloc (objectsExtent objects objectsSize))
  have counted := allocated.append (keeps_counts covered)
  have isOffsets : after.offsetsBlock = objectsExtent objects objectsSize ::ₘ 0 := by
    rw [offsetsBlock, isArray, Option.elim_some, objectsExtent, sameArray, isSize]
    rfl
  rw [Multiset.cons_swap, Nat.zero_add] at counted
  rw [taken_blocks own isData sameAddr isDesired, isOffsets, ownCapacity_some own isData,
    isDesired]
  exact counted

end Taken

theorem takeOwnership_keeps (owned : parcel.mOwner = true) {desired objectsSize : Nat}
    {outcome : Outcome Int}
    (returns : parcel.takeOwnership heap desired objectsSize = some outcome) :
    parcel.Keeps (parcel.takeOwnershipUpkeep heap desired objectsSize) outcome.parcel := by
  rw [takeOwnership] at returns
  rw [takeOwnershipUpkeep]
  split
  next isZero =>
    rw [if_pos isZero] at returns
    obtain ⟨effects, _, isOutcome⟩ := Option.bind_eq_some_iff.mp returns
    cases isOutcome
    exact freeDataNoInit_keeps
  next notZero =>
    rw [if_neg notZero] at returns
    cases isNew : heap.data desired with
    | none =>
        rw [isNew] at returns
        cases returns
        exact (setError_same noMemory).keeps
    | some data =>
        rw [isNew] at returns
        dsimp only at returns ⊢
        have sameAddr := moved_addr parcel.mData data (min parcel.mDataSize desired)
        split
        next noObjects =>
          rw [if_pos noObjects] at returns
          cases returns
          rw [Parcel.Keeps, blocks_owned owned, ownCapacity_owned owned]
          exact taken_keeps rfl rfl sameAddr rfl rfl
        next someObjects =>
          rw [if_neg someObjects] at returns
          cases isArray : heap.objects objectsSize with
          | none =>
              rw [isArray] at returns
              cases returns
              -- the new buffer is given back
              have freed : Binder.Keeps (dataExtent data desired ::ₘ parcel.blocks)
                  parcel.ownCapacity [.heap (.free data.addr)] parcel.blocks parcel.ownCapacity :=
                keeps_free (dataExtent data desired)
                  ((ownCapacity_owned owned).trans_le (Nat.zero_le _))
              have failed : parcel.Keeps _ parcel :=
                (keeps_malloc (dataExtent data desired)).append freed
              exact failed.same (setError_same noMemory)
          | some objects =>
              rw [isArray] at returns
              obtain ⟨acquired, _, isOutcome⟩ := Option.bind_eq_some_iff.mp returns
              cases isOutcome
              rw [Parcel.Keeps, blocks_owned owned, ownCapacity_owned owned]
              have sameArray := moved_objects_addr parcel.mObjects objects objectsSize
              refine taken_array_keeps ?_ ?_ sameAddr ?_ ?_ sameArray ?_
              all_goals rfl

/-- The part of the memory that `dropObjects` leaves alone. -/
structure SameBuffer (before after : Parcel) : Prop where
  mOwner : after.mOwner = before.mOwner
  mData : after.mData = before.mData
  mDataCapacity : after.mDataCapacity = before.mDataCapacity

theorem SameBuffer.bufferBlock (same : SameBuffer parcel after) :
    after.bufferBlock = parcel.bufferBlock := by
  rw [Parcel.bufferBlock, Parcel.bufferBlock, same.mData, same.mDataCapacity]

theorem SameBuffer.ownCapacity (same : SameBuffer parcel after) :
    after.ownCapacity = parcel.ownCapacity := by
  rw [Parcel.ownCapacity, Parcel.ownCapacity, same.mOwner, same.mData, same.mDataCapacity]

/-- With the same offsets, the memory is the same. -/
theorem SameBuffer.sameMemory (same : SameBuffer parcel after)
    (sameOffsets : after.offsetsBlock = parcel.offsetsBlock) : SameMemory parcel after where
  blocks := by rw [blocks, blocks, same.mOwner, same.bufferBlock, sameOffsets]
  ownCapacity := same.ownCapacity

/-- The array of the offsets is given back. -/
theorem SameBuffer.freed (same : SameBuffer parcel after) (own : parcel.mOwner = false)
    {old : Block UInt64} (isArray : parcel.mObjects = some old) (noArray : after.mObjects = none) :
    parcel.Keeps [.heap (.free old.addr)] after := by
  have isAfter : after.blocks = parcel.bufferBlock := by
    rw [blocks_own (same.mOwner.trans own), same.bufferBlock, offsetsBlock, noArray,
      Option.elim_none, add_zero]
  rw [Parcel.Keeps, blocks_array own isArray, isAfter, same.ownCapacity]
  exact keeps_free (objectsExtent old parcel.mObjectsCapacity) ownCapacity_le

/-- Or it is moved. -/
theorem SameBuffer.moved (same : SameBuffer parcel after) (own : parcel.mOwner = false)
    {old new array : Block UInt64} {objectsSize : Nat} (isArray : parcel.mObjects = some old)
    (isMoved : after.mObjects = some array) (sameArray : array.addr = new.addr)
    (isSize : after.mObjectsCapacity = objectsSize) :
    parcel.Keeps [.heap (.realloc old.addr (objectsExtent new objectsSize))] after := by
  have isAfter : after.blocks = objectsExtent new objectsSize ::ₘ parcel.bufferBlock := by
    rw [blocks_array (same.mOwner.trans own) isMoved, same.bufferBlock, objectsExtent, sameArray,
      isSize]
    rfl
  rw [Parcel.Keeps, blocks_array own isArray, isAfter, same.ownCapacity]
  exact keeps_realloc (objectsExtent old parcel.mObjectsCapacity) _
    (Nat.le_add_left_of_le ownCapacity_le)

theorem dropObjects_keeps (own : parcel.mOwner = false) {objectsSize : Nat}
    {effects : List Effect} (drops : parcel.dropObjects heap objectsSize = some (after, effects)) :
    parcel.Keeps (parcel.dropObjectsUpkeep heap objectsSize) after ∧ SameBuffer parcel after := by
  rw [dropObjects] at drops
  rw [dropObjectsUpkeep]
  split
  next fewer =>
    rw [if_pos fewer] at drops
    obtain ⟨released, _, isAfter⟩ := Option.bind_eq_some_iff.mp drops
    cases isArray : parcel.mObjects with
    | none =>
        rw [isArray] at isAfter
        have isOffsets : parcel.offsetsBlock = 0 := by
          rw [offsetsBlock, isArray, Option.elim_none]
        have same : SameBuffer parcel after ∧ after.offsetsBlock = 0 := by
          split at isAfter
          next =>
            cases isAfter
            exact ⟨⟨rfl, rfl, rfl⟩, rfl⟩
          next =>
            cases isAfter
            exact ⟨⟨rfl, rfl, rfl⟩, isOffsets⟩
        exact ⟨(same.1.sameMemory (same.2.trans isOffsets.symm)).keeps, same.1⟩
    | some old =>
        rw [isArray] at isAfter
        dsimp only
        split
        next isZero =>
          rw [if_pos isZero] at isAfter
          have same : SameBuffer parcel after ∧ after.mObjects = none := by
            cases isAfter
            exact ⟨⟨rfl, rfl, rfl⟩, rfl⟩
          exact ⟨same.1.freed own isArray same.2, same.1⟩
        next notZero =>
          rw [if_neg notZero] at isAfter
          cases isNew : heap.objects objectsSize with
          | none =>
              rw [isNew] at isAfter
              have same : SameBuffer parcel after ∧ after.offsetsBlock = parcel.offsetsBlock := by
                cases isAfter
                exact ⟨⟨rfl, rfl, rfl⟩, rfl⟩
              exact ⟨(same.1.sameMemory same.2).keeps, same.1⟩
          | some new =>
              rw [isNew] at isAfter
              have same : SameBuffer parcel after ∧
                  after.mObjects = some (old.moveTo new objectsSize) ∧
                  after.mObjectsCapacity = objectsSize := by
                cases isAfter
                exact ⟨⟨rfl, rfl, rfl⟩, rfl, rfl⟩
              exact ⟨same.1.moved own isArray same.2.1 rfl same.2.2, same.1⟩
  next notFewer =>
    rw [if_neg notFewer] at drops
    cases drops
    have same : SameBuffer parcel parcel := ⟨rfl, rfl, rfl⟩
    exact ⟨(same.sameMemory rfl).keeps, same⟩

/-- A buffer of the Parcel's own grows. -/
theorem grown_keeps (own : parcel.mOwner = false) {data new array : Block UInt8} {desired : Nat}
    (isData : parcel.mData = some data) (larger : parcel.mDataCapacity < desired)
    (isOwn : after.mOwner = false) (isGrown : after.mData = some array)
    (sameAddr : array.addr = new.addr) (isDesired : after.mDataCapacity = desired)
    (sameOffsets : after.offsetsBlock = parcel.offsetsBlock) :
    parcel.Keeps [.heap (.realloc data.addr (dataExtent new desired)),
      .recounts desired parcel.mDataCapacity] after := by
  have covered : parcel.mDataCapacity ≤
      (dataExtent new desired).size + parcel.offsetsBlock.total :=
    Nat.le_add_right_of_le (Nat.le_of_lt larger)
  have recounted : desired ≤ Ledger.total (dataExtent new desired ::ₘ parcel.offsetsBlock) := by
    rw [Ledger.total_cons]
    exact Nat.le_add_right ..
  rw [Parcel.Keeps, blocks_some own isData, ownCapacity_some own isData,
    taken_blocks isOwn isGrown sameAddr isDesired, ownCapacity_some isOwn isGrown, isDesired,
    sameOffsets]
  have moved := keeps_realloc (dataExtent data parcel.mDataCapacity) (dataExtent new desired)
    covered
  exact moved.append (keeps_recounts recounted)

theorem resizeOwn_keeps (own : parcel.mOwner = false) {data : Block UInt8}
    (isData : parcel.mData = some data) {desired objectsSize : Nat} {outcome : Outcome Int}
    (returns : parcel.resizeOwn heap data desired objectsSize = some outcome) :
    parcel.Keeps (parcel.resizeOwnUpkeep heap data desired objectsSize) outcome.parcel := by
  rw [resizeOwn] at returns
  obtain ⟨⟨shrunk, effects⟩, isShrunk, isOutcome⟩ := Option.bind_eq_some_iff.mp returns
  obtain ⟨keeps, same⟩ := dropObjects_keeps own isShrunk
  have isOwn := same.mOwner.trans own
  rw [resizeOwnUpkeep]
  refine Binder.Keeps.append keeps ?_
  dsimp only at isOutcome
  rw [← same.mDataCapacity]
  split
  next larger =>
    rw [if_pos larger] at isOutcome
    cases isNew : heap.data desired with
    | none =>
        rw [isNew] at isOutcome
        cases isOutcome
        exact (setError_same noMemory).keeps
    | some new =>
        rw [isNew] at isOutcome
        cases isOutcome
        exact grown_keeps isOwn (same.mData.trans isData) larger isOwn rfl rfl rfl rfl
  next notLarger =>
    rw [if_neg notLarger] at isOutcome
    cases isOutcome
    exact SameMemory.keeps ⟨rfl, rfl⟩

/-- The first buffer. -/
theorem first_keeps (own : parcel.mOwner = false) (null : parcel.mData = none)
    {data : Block UInt8} {desired : Nat} (isOwn : after.mOwner = false)
    (isData : after.mData = some data) (isDesired : after.mDataCapacity = desired)
    (sameOffsets : after.offsetsBlock = parcel.offsetsBlock) :
    parcel.Keeps [.heap (.malloc (dataExtent data desired)), .counts desired] after := by
  rw [Parcel.Keeps, blocks_none own null, ownCapacity_none own null,
    taken_blocks isOwn isData rfl isDesired, ownCapacity_some isOwn isData, isDesired, sameOffsets]
  exact buffer_keeps data desired parcel.offsetsBlock

theorem continueWrite_keeps {desired : Nat} {outcome : Outcome Int}
    (returns : parcel.continueWrite heap desired = some outcome) :
    parcel.Keeps (parcel.continueWriteUpkeep heap desired) outcome.parcel := by
  rw [continueWrite] at returns
  rw [continueWriteUpkeep]
  split
  next tooLarge =>
    rw [if_pos tooLarge] at returns
    cases returns
    exact SameMemory.keeps ⟨rfl, rfl⟩
  next notTooLarge =>
    rw [if_neg notTooLarge] at returns
    obtain ⟨objectsSize, isKept, returns⟩ := Option.bind_eq_some_iff.mp returns
    rw [isKept]
    dsimp only at returns ⊢
    split
    next owned =>
      rw [if_pos owned] at returns
      exact takeOwnership_keeps owned returns
    next notOwned =>
      have own : parcel.mOwner = false := Bool.eq_false_iff.mpr notOwned
      rw [if_neg notOwned] at returns
      cases isData : parcel.mData with
      | some data =>
          rw [isData] at returns
          exact resizeOwn_keeps own isData returns
      | none =>
          rw [isData] at returns
          dsimp only at returns ⊢
          cases isNew : heap.data desired with
          | none =>
              rw [isNew] at returns
              cases returns
              dsimp only
              rw [← isData]
              exact (setError_same noMemory).keeps
          | some data =>
              rw [isNew] at returns
              cases returns
              exact first_keeps own isData own rfl rfl rfl

/-! ## The operations -/

theorem growData_keeps {len : Nat} {outcome : Outcome Int}
    (returns : parcel.growData heap len = some outcome) :
    parcel.Keeps (parcel.growDataUpkeep heap len) outcome.parcel := by
  rw [growData] at returns
  rw [growDataUpkeep]
  have refused : ∀ error : Int, some { value := error, parcel, effects := [] } = some outcome →
      parcel.Keeps [] outcome.parcel := by
    intro error isOutcome
    cases isOutcome
    exact SameMemory.keeps ⟨rfl, rfl⟩
  split
  next long =>
    rw [if_pos long] at returns
    exact refused _ returns
  next notLong =>
    rw [if_neg notLong] at returns
    split
    next wraps =>
      rw [if_pos wraps] at returns
      exact refused _ returns
    next notWraps =>
      rw [if_neg notWraps] at returns
      split
      next beyond =>
        rw [if_pos beyond] at returns
        exact refused _ returns
      next notBeyond =>
        rw [if_neg notBeyond] at returns
        dsimp only at returns ⊢
        split
        next less =>
          rw [if_pos less] at returns
          exact refused _ returns
        next more =>
          rw [if_neg more] at returns
          exact continueWrite_keeps returns

theorem setDataSize_keeps {size : Nat} {outcome : Outcome Int}
    (returns : parcel.setDataSize heap size = some outcome) :
    parcel.Keeps (parcel.setDataSizeUpkeep heap size) outcome.parcel := by
  rw [setDataSize] at returns
  rw [setDataSizeUpkeep]
  split
  next tooLarge =>
    rw [if_pos tooLarge] at returns
    cases returns
    exact SameMemory.keeps ⟨rfl, rfl⟩
  next notTooLarge =>
    rw [if_neg notTooLarge] at returns
    obtain ⟨resized, isResized, returns⟩ := Option.bind_eq_some_iff.mp returns
    have keeps := continueWrite_keeps isResized
    split at returns
    next =>
      cases returns
      exact keeps.same ⟨rfl, rfl⟩
    next =>
      cases returns
      exact keeps

theorem finishWrite_same (len : Nat) : SameMemory parcel (parcel.finishWrite len).2 := by
  rw [finishWrite]
  split
  next => exact ⟨rfl, rfl⟩
  next => exact ⟨rfl, rfl⟩

/-- A store changes the cells of the buffer. -/
theorem store_same {pointer : Nat} {bytes : List UInt8}
    (stores : parcel.store pointer bytes = some after) : SameMemory parcel after := by
  rw [store] at stores
  split at stores
  next =>
    cases stores
    exact ⟨rfl, rfl⟩
  next =>
    obtain ⟨data, isData, isAfter⟩ := Option.bind_eq_some_iff.mp stores
    have sameBuffer : after.bufferBlock = parcel.bufferBlock := by
      cases isAfter
      rw [bufferBlock, bufferBlock, isData]
      rfl
    have sameCapacity : after.ownCapacity = parcel.ownCapacity := by
      cases isAfter
      rw [ownCapacity, ownCapacity, isData]
      rfl
    refine ⟨?_, sameCapacity⟩
    rw [blocks, blocks, sameBuffer]
    cases isAfter
    rfl

theorem restartWrite_same {len padded pointer : Nat}
    (returns : parcel.restartWrite len padded = some (pointer, after)) :
    SameMemory parcel after := by
  rw [restartWrite] at returns
  split at returns
  next =>
    obtain ⟨data, _, returns⟩ := Option.bind_eq_some_iff.mp returns
    obtain ⟨cleared, isCleared, isAfter⟩ := Option.bind_eq_some_iff.mp returns
    cases isAfter
    exact (store_same isCleared).trans (finishWrite_same padded)
  next =>
    cases returns
    exact finishWrite_same padded

theorem writeInplace_keeps {len : Nat} {outcome : Outcome Nat}
    (returns : parcel.writeInplace heap len = some outcome) :
    parcel.Keeps (parcel.writeInplaceUpkeep heap len) outcome.parcel := by
  rw [writeInplace] at returns
  rw [writeInplaceUpkeep]
  split
  next long =>
    rw [if_pos long] at returns
    cases returns
    exact SameMemory.keeps ⟨rfl, rfl⟩
  next notLong =>
    rw [if_neg notLong] at returns
    dsimp only at returns ⊢
    split
    next wraps =>
      rw [if_pos wraps] at returns
      cases returns
      exact SameMemory.keeps ⟨rfl, rfl⟩
    next notWraps =>
      rw [if_neg notWraps] at returns
      split
      next room =>
        rw [if_pos room] at returns
        obtain ⟨⟨pointer, reserved⟩, isReserved, isOutcome⟩ :=
          Option.bind_eq_some_iff.mp returns
        cases isOutcome
        exact (restartWrite_same isReserved).keeps
      next noRoom =>
        rw [if_neg noRoom] at returns
        obtain ⟨grown, isGrown, returns⟩ := Option.bind_eq_some_iff.mp returns
        have keeps := growData_keeps isGrown
        split at returns
        next =>
          obtain ⟨⟨pointer, reserved⟩, isReserved, isOutcome⟩ :=
            Option.bind_eq_some_iff.mp returns
          cases isOutcome
          exact keeps.same (restartWrite_same isReserved)
        next =>
          cases returns
          exact keeps

theorem write_keeps {data : List UInt8} {outcome : Outcome Int}
    (returns : parcel.write heap data = some outcome) :
    parcel.Keeps (parcel.writeUpkeep heap data) outcome.parcel := by
  rw [write] at returns
  rw [writeUpkeep]
  split
  next long =>
    rw [if_pos long] at returns
    cases returns
    exact SameMemory.keeps ⟨rfl, rfl⟩
  next notLong =>
    rw [if_neg notLong] at returns
    obtain ⟨reserved, isReserved, returns⟩ := Option.bind_eq_some_iff.mp returns
    have keeps := writeInplace_keeps isReserved
    split at returns
    next =>
      obtain ⟨stored, isStored, isOutcome⟩ := Option.bind_eq_some_iff.mp returns
      cases isOutcome
      exact keeps.same (store_same isStored)
    next =>
      cases returns
      exact keeps

theorem writeAligned_keeps {val : List UInt8} {outcome : Outcome Int}
    (returns : parcel.writeAligned heap val = some outcome) :
    parcel.Keeps (parcel.writeAlignedUpkeep heap val.length) outcome.parcel := by
  rw [writeAligned] at returns
  rw [writeAlignedUpkeep]
  split
  next room =>
    rw [if_pos room] at returns
    obtain ⟨stored, isStored, isOutcome⟩ := Option.bind_eq_some_iff.mp returns
    cases isOutcome
    exact ((store_same isStored).trans (finishWrite_same val.length)).keeps
  next noRoom =>
    rw [if_neg noRoom] at returns
    obtain ⟨grown, isGrown, returns⟩ := Option.bind_eq_some_iff.mp returns
    have keeps := growData_keeps isGrown
    split at returns
    next =>
      obtain ⟨stored, isStored, isOutcome⟩ := Option.bind_eq_some_iff.mp returns
      cases isOutcome
      exact keeps.same ((store_same isStored).trans (finishWrite_same val.length))
    next =>
      cases returns
      exact keeps

theorem Call.upkeep_keeps {call : Call} (returns : call.run heap parcel = some after) :
    parcel.Keeps (call.upkeep heap parcel) after := by
  cases call with
  | write data =>
      obtain ⟨outcome, isOutcome, rfl⟩ := Option.map_eq_some_iff.mp returns
      exact write_keeps isOutcome
  | writeInplace len =>
      obtain ⟨outcome, isOutcome, rfl⟩ := Option.map_eq_some_iff.mp returns
      exact writeInplace_keeps isOutcome
  | writeInt32 val =>
      obtain ⟨outcome, isOutcome, rfl⟩ := Option.map_eq_some_iff.mp returns
      have keeps := writeAligned_keeps isOutcome
      rwa [FlatRecord.int32.encode_length] at keeps
  | setDataSize size =>
      obtain ⟨outcome, isOutcome, rfl⟩ := Option.map_eq_some_iff.mp returns
      exact setDataSize_keeps isOutcome
  | setDataPosition pos =>
      cases returns
      exact SameMemory.keeps ⟨rfl, rfl⟩

theorem ipcSetDataReference_owned {uapi : ObjectUapi} {data : Block UInt8} {dataSize : Nat}
    {objects : Block UInt64} {objectsCount : Nat} {adoption : Adoption}
    (returns : parcel.ipcSetDataReference uapi data dataSize objects objectsCount true =
      some adoption) : adoption.parcel.mOwner = true := by
  rw [ipcSetDataReference] at returns
  obtain ⟨freed, _, returns⟩ := Option.bind_eq_some_iff.mp returns
  dsimp only at returns
  split at returns
  next =>
    cases returns
    rfl
  next =>
    cases returns
    rfl
  next =>
    obtain ⟨released, _, isAdoption⟩ := Option.bind_eq_some_iff.mp returns
    cases isAdoption
    rfl

end Own

end Parcel

theorem ParcelUse.upkeep_keeps {uapi : ObjectUapi} {heap : Heap} {parcel after : Parcel}
    {use : ParcelUse} (returns : use.run uapi heap parcel = some after) :
    parcel.Keeps (use.upkeep heap parcel) after := by
  cases use with
  | call operation => exact Parcel.Call.upkeep_keeps returns
  | setError err =>
      cases returns
      exact (Parcel.setError_same err).keeps
  | ipcSetDataReference data dataSize objects objectsCount =>
      obtain ⟨adoption, isAdoption, rfl⟩ := Option.map_eq_some_iff.mp returns
      have owned := Parcel.ipcSetDataReference_owned isAdoption
      rw [Parcel.Keeps, Parcel.blocks_owned owned, Parcel.ownCapacity_owned owned]
      exact Parcel.freeDataNoInit_keeps

/-! ## All Parcels -/

/-- No Parcel was used yet. -/
def Parcels.init (ι : Type*) : Parcels ι where
  shared := some
    { ledger := 0, gParcelGlobalAllocSize := 0, gParcelGlobalAllocCount := 0 }
  threads _ := .initState

/-- A buffer was allocated. -/
def Upkeep.allocates : Upkeep → Bool
  | .heap _ => false
  | .counts _ => true
  | .recounts _ _ => false
  | .discounts _ => false

/-- What is owned, and how much of it is counted. -/
def Parcel.holding (parcel : Parcel) : Ledger × Nat := (parcel.blocks, parcel.ownCapacity)

/-- No more is counted than what is owned. -/
def countedWithin : AddSubmonoid (Ledger × Nat) where
  carrier := { held | held.2 ≤ held.1.total }
  zero_mem' := Nat.le_refl 0
  add_mem' := by
    intro held held' within within'
    change held.2 + held'.2 ≤ Ledger.total (held.1 + held'.1)
    rw [Ledger.total_add]
    exact Nat.add_le_add within within'

theorem Parcel.holding_within (parcel : Parcel) : parcel.holding ∈ countedWithin := by
  have isLe := parcel.ownCapacity_le
  change parcel.ownCapacity ≤ parcel.blocks.total
  rw [Parcel.blocks]
  split
  next owned => exact (Parcel.ownCapacity_owned owned).trans_le (Nat.zero_le _)
  next =>
    rw [Ledger.total_add]
    exact Nat.le_add_right_of_le isLe

/-- The heap holds what the Parcels own, and the size is what is counted. -/
def Accounts (shared : Option ParcelHeap) (held : Ledger × Nat) : Prop :=
  ∃ state, shared = some state ∧ Holding held.1 held.2 0 0 state

section Run

variable {ι : Type*} [Fintype ι] [DecidableEq ι] {uapi : ObjectUapi}
  {parcels next : Parcels ι} {upkeeps : List Upkeep} {history : List (List Upkeep)}

omit [DecidableEq ι] in
theorem accounts_init :
    (Parcels.init ι).Balanced Parcel.holding (fun _ => True) Accounts where
  each _ := trivial
  lawful := by
    have none : Threads.tally Parcel.holding (Parcels.init ι).threads = 0 :=
      Finset.sum_eq_zero fun _ _ => rfl
    rw [none]
    exact ⟨_, rfl, {
      ledger := rfl
      sound := Ledger.sound_zero
      covered := Nat.le_refl _
      others := Nat.le_refl _
      size := rfl }⟩

theorem ParcelStep.accounts (step : ParcelStep uapi parcels upkeeps next)
    (accounts : parcels.Balanced Parcel.holding (fun _ => True) Accounts) :
    next.Balanced Parcel.holding (fun _ => True) Accounts := by
  cases step with
  | @uses state heap use i parcel isState grants returns =>
      refine accounts.move fun before => ⟨trivial, ?_⟩
      obtain ⟨state', isState', holding⟩ := before
      cases isState.symm.trans isState'
      have within : Threads.others Parcel.holding parcels.threads i ∈ countedWithin :=
        Threads.others_mem Parcel.holding_within i
      obtain ⟨after, isAfter, holdingAfter⟩ :=
        use.upkeep_keeps returns (holding.focus (parcels.threads i).holding_within within)
          grants
      exact ⟨after, isAfter, holdingAfter.unfocus⟩

/-! ## The number of the buffers -/

theorem ParcelHeap.perform_count {state after : ParcelHeap} {upkeep : Upkeep}
    (performed : state.perform upkeep = some after) :
    after.gParcelGlobalAllocCount =
      state.gParcelGlobalAllocCount + UInt64.ofNat ([upkeep].countP Upkeep.allocates) := by
  cases upkeep with
  | heap event =>
      obtain ⟨ledger, _, isAfter⟩ := Option.map_eq_some_iff.mp performed
      cases isAfter
      exact (UInt64.add_zero _).symm
  | counts desired =>
      cases performed
      rfl
  | recounts desired capacity =>
      cases performed
      exact (UInt64.add_zero _).symm
  | discounts capacity =>
      cases performed
      exact (UInt64.add_zero _).symm

theorem ParcelHeap.performs_count {state after : ParcelHeap}
    (performed : upkeeps.foldlM ParcelHeap.perform state = some after) :
    after.gParcelGlobalAllocCount =
      state.gParcelGlobalAllocCount + UInt64.ofNat (upkeeps.countP Upkeep.allocates) := by
  induction upkeeps generalizing state with
  | nil =>
      cases performed
      exact (UInt64.add_zero _).symm
  | cons upkeep rest ih =>
      rw [List.foldlM_cons] at performed
      obtain ⟨middle, isMiddle, isAfter⟩ := Option.bind_eq_some_iff.mp performed
      have counts : (upkeep :: rest).countP Upkeep.allocates =
          [upkeep].countP Upkeep.allocates + rest.countP Upkeep.allocates :=
        @List.countP_append _ _ [upkeep] rest
      rw [ih isAfter, perform_count isMiddle, counts, UInt64.ofNat_add, UInt64.add_assoc]

/-- The count is that of the buffers allocated until then. -/
def CountsBuffers (history : List (List Upkeep)) (parcels : Parcels ι) : Prop :=
  ∀ state, parcels.shared = some state →
    state.gParcelGlobalAllocCount = UInt64.ofNat (history.flatten.countP Upkeep.allocates)

omit [Fintype ι] in
theorem ParcelStep.countsBuffers (step : ParcelStep uapi parcels upkeeps next)
    (counts : CountsBuffers history parcels) : CountsBuffers (history ++ [upkeeps]) next := by
  cases step with
  | @uses state heap use i parcel isState grants returns =>
      intro after performed
      rw [ParcelHeap.performs_count performed, counts state isState, List.flatten_append,
        List.countP_append, UInt64.ofNat_add, List.flatten_singleton]

/-- In every run the heap is not misused, and holds what the Parcels own; the size is the sum
of the capacities of their own buffers, and the count that of all buffers so far. -/
theorem parcels_accounted (run : Run (ParcelStep uapi) (Parcels.init ι) history parcels) :
    ∃ state, parcels.shared = some state ∧ state.ledger.Sound taskSize ∧
      state.ledger = ∑ i, (parcels.threads i).blocks ∧
      state.gParcelGlobalAllocSize.toNat = ∑ i, (parcels.threads i).ownCapacity ∧
      state.gParcelGlobalAllocCount =
        UInt64.ofNat (history.flatten.countP Upkeep.allocates) := by
  have balanced : parcels.Balanced Parcel.holding (fun _ => True) Accounts :=
    run.invariant _ accounts_init fun accounts step => step.accounts accounts
  have counts : CountsBuffers history parcels :=
    run.history_invariant CountsBuffers (fun state isState => by cases isState; rfl)
      fun counts step => step.countsBuffers counts
  obtain ⟨state, isState, holding⟩ := balanced.lawful
  refine ⟨state, isState, holding.sound, ?_, ?_, counts state isState⟩
  · rw [holding.ledger, add_zero, Threads.tally, Prod.fst_sum]
    rfl
  · rw [holding.size, Nat.add_zero, Threads.tally, Prod.snd_sum]
    rfl

end Run

/-- The two blocks that the heap hands out, one after the other. -/
def firstHeap : Heap := Heap.fixed 4096 (by decide) (by decide)

def secondHeap : Heap := Heap.fixed 8192 (by decide) (by decide)

/-- Two Parcels get a buffer each; then the first gives its own back, for one of the driver. -/
theorem parcels_accounted_two :
    ∃ history parcels state, history.length = 3 ∧
      Run (ParcelStep linuxObjects) (Parcels.init (Fin 2)) history parcels ∧
      parcels.shared = some state ∧ state.ledger = {⟨8192, 16⟩} ∧
      state.gParcelGlobalAllocSize.toNat = ∑ i, (parcels.threads i).ownCapacity ∧
      state.gParcelGlobalAllocCount = 2 := by
  have fresh : Ledger.Fresh taskSize ⟨4096, 8⟩ 0 :=
    ⟨Multiset.notMem_zero _, (Multiset.zero_disjoint _).symm, by decide⟩
  have apart : Ledger.Fresh taskSize ⟨8192, 16⟩ {⟨4096, 8⟩} :=
    ⟨by decide, Multiset.disjoint_left.mpr (by decide), by decide⟩
  have run := ((Run.single
      (@ParcelStep.uses (Fin 2) _ linuxObjects (Parcels.init (Fin 2)) _ firstHeap
        (.call (.setDataSize 8)) 0 _ rfl ⟨fresh, fun _ _ => ⟨trivial, fun _ _ => trivial⟩⟩ rfl)).snoc
      (@ParcelStep.uses (Fin 2) _ linuxObjects _ _ secondHeap
        (.call (.setDataSize 16)) 1 _ rfl ⟨apart, fun _ _ => ⟨trivial, fun _ _ => trivial⟩⟩ rfl)).snoc
      (@ParcelStep.uses (Fin 2) _ linuxObjects _ _ secondHeap
        (.ipcSetDataReference ⟨65536, fun _ => 0⟩ 4 ⟨65540, fun _ => 0⟩ 0) 0 _ rfl
        ⟨trivial, fun _ _ => ⟨trivial, fun _ _ => trivial⟩⟩ rfl)
  obtain ⟨state, isState, _, _, isSize, isCount⟩ := parcels_accounted run
  refine ⟨_, _, state, rfl, run, isState, ?_, isSize, isCount⟩
  cases isState
  rfl

end DroidKernal.Binder
