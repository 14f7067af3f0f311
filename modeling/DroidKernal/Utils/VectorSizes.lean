import DroidKernal.Utils.OwnedStorage

/-!
# Sizes of Vectors

A Vector has room for its elements while no size wraps and no storage is changed that
another Vector has.  From such a state a call whose sizes wrap is refused only by chance:
where the wrapped sum is too large as well, or the wrapped allocation fails.
-/

namespace DroidKernal.Utils

open Lib

variable {T : Type}

section Sizes

variable {storage : VectorStorage T} {vector : VectorObject} {traits : Traits}
  {a : Allocator (Option T)} {buf : Nat}

/-- The Vector's buffer is in use, no size of it wraps, and it has room for the elements. -/
structure VectorObject.Fits (traits : Traits) (storage : VectorStorage T)
    (vector : VectorObject) : Prop where
  owns : vector.Owns storage
  bytes : ∀ buf, vector.mStorage = some buf →
    sizeofSharedBuffer + (storage.block buf).mSize < 2 ^ 64
  room : vector.mCount ≤ vector.capacity traits storage

/-- In exact arithmetic, a size that `_grow` computes, or the memory that `alloc` asks for,
exceeds `SIZE_MAX`. -/
def VectorObject.Overflows (traits : Traits) (storage : VectorStorage T) (vector : VectorObject)
    (numItems : Nat) : Prop :=
  let newSize := vector.mCount + numItems
  let newCapacity := max kMinVectorCapacity (newSize + newSize / 2)
  2 ^ 64 ≤ newSize ∨ vector.capacity traits storage < newSize ∧
    (2 ^ 64 ≤ newCapacity ∨ 2 ^ 64 ≤ sizeofSharedBuffer + newCapacity * traits.itemSize)

/-- The same of the memory that `_shrink` asks for. -/
def VectorObject.ShrinkOverflows (traits : Traits) (storage : VectorStorage T)
    (vector : VectorObject) (amount : Nat) : Prop :=
  let newSize := vector.mCount - amount
  newSize < vector.capacity traits storage / 2 ∧
    2 ^ 64 ≤ sizeofSharedBuffer + max kMinVectorCapacity (newSize * 2) * traits.itemSize

/-- `_grow` finds no memory for the bytes that it asks for, and keeps the buffer. -/
def VectorObject.GrowFails (traits : Traits) (a : Allocator (Option T))
    (storage : VectorStorage T) (vector : VectorObject) (index numItems : Nat) : Prop :=
  let newAllocSize := sizeMul (VectorImpl.growCapacity vector.mCount numItems) traits.itemSize
  a.mallocBuffer newAllocSize = none ∧
    ∀ buf, vector.mStorage = some buf →
      vector.mCount = index ∧ traits.hasTrivialCopy = true ∧ traits.hasTrivialDtor = true →
        (storage.block buf).mSize ≠ newAllocSize ∧ a.reallocBuffer newAllocSize = none ∧
          0 < bufferBytes newAllocSize

/-- What refuses an insertion whose sizes overflow. -/
def VectorObject.RefusesInsertion (traits : Traits) (a : Allocator (Option T))
    (storage : VectorStorage T) (vector : VectorObject) (index numItems : Nat) : Prop :=
  vector.mCount < index ∨
    vector.mCount + numItems < 2 ^ 64 ∧ vector.GrowFails traits a storage index numItems

/-- What refuses a removal whose sum overflows.  The index that `_shrink` leads to is
`BAD_VALUE` itself in the second case, and nothing is changed. -/
def VectorObject.RefusesRemoval (traits : Traits) (a : Allocator (Option T))
    (storage : VectorStorage T) (vector : VectorObject) (index count : Nat) : Prop :=
  let newSize := sizeSub vector.mCount count
  vector.mCount < sizeAdd index count ∨
    index = 2 ^ 64 - 22 ∧ (vector.mStorage = none ∨
      newSize < vector.capacity traits storage / 2 ∧
        a.mallocBuffer (sizeMul (VectorImpl.shrinkCapacity newSize) traits.itemSize) = none)

/-! ## Room for the elements -/

theorem VectorObject.Fits.capacity_small (fits : vector.Fits traits storage) :
    vector.capacity traits storage < 2 ^ 64 := by
  rw [VectorObject.capacity]
  cases isBuf : vector.mStorage with
  | none => exact Nat.two_pow_pos 64
  | some buf =>
      have bytes := fits.bytes buf isBuf
      exact Nat.lt_of_le_of_lt (Nat.div_le_self ..)
        (Nat.lt_of_le_of_lt (Nat.le_add_left ..) bytes)

theorem VectorObject.Fits.small (fits : vector.Fits traits storage) : vector.mCount < 2 ^ 64 :=
  Nat.lt_of_le_of_lt fits.room fits.capacity_small

theorem capacity_some (isBuf : vector.mStorage = some buf) :
    vector.capacity traits storage = (storage.block buf).mSize / traits.itemSize := by
  rw [VectorObject.capacity, isBuf]

theorem VectorObject.Fits.empty : VectorObject.empty.Fits traits storage where
  owns := fun _ none => nomatch none
  bytes := fun _ none => nomatch none
  room := Nat.zero_le _

/-- Other contents leave the sizes alone. -/
theorem VectorObject.Fits.kept (fits : vector.Fits traits storage) {after : VectorStorage T}
    (kept : ∀ buf, vector.mStorage = some buf →
      after.Live buf ∧ (after.block buf).mSize = (storage.block buf).mSize) :
    vector.Fits traits after where
  owns := fun buf isBuf => (kept buf isBuf).1
  bytes := by
    intro buf isBuf
    rw [(kept buf isBuf).2]
    exact fits.bytes buf isBuf
  room := by
    have room := fits.room
    cases isBuf : vector.mStorage with
    | none =>
        rw [VectorObject.capacity, isBuf] at room ⊢
        exact room
    | some buf =>
        rw [capacity_some isBuf] at room ⊢
        rwa [(kept buf isBuf).2]

/-- Stores into the storage of any Vector. -/
theorem VectorObject.Fits.setSlots {other : VectorObject} (fits : other.Fits traits storage)
    (vector : VectorObject) (slots : Slots T) :
    other.Fits traits (vector.setSlots storage slots) := by
  rw [VectorObject.setSlots]
  split
  next stored _ =>
    apply fits.kept
    intro buf isBuf
    refine ⟨fits.owns buf isBuf, ?_⟩
    by_cases same : buf = stored
    · rw [same, Blocks.set_block_self]
    · rw [Blocks.set_block same]
  next => exact fits

/-- A Vector whose storage has so many bytes. -/
theorem VectorObject.Fits.of_bytes (owns : vector.Owns storage) {size : Nat}
    (isBuf : vector.mStorage = some buf) (isSize : (storage.block buf).mSize = size)
    (isSmall : sizeofSharedBuffer + size < 2 ^ 64) (room : vector.mCount * traits.itemSize ≤ size) :
    vector.Fits traits storage where
  owns := owns
  bytes := by
    intro other isOther
    cases isBuf.symm.trans isOther
    rw [isSize]
    exact isSmall
  room := by
    rw [capacity_some isBuf, isSize]
    exact (Nat.le_div_iff_mul_le traits.positive).mpr room

/-- The buffer that is taken over. -/
theorem adopt_block (exclusive : storage.Exclusive) (owns : vector.Owns storage)
    {buffer : CountedBuffer (Option T)} (one : buffer.mRefs = 1) (filled : Slots T) :
    (vector.adopt traits (storage.add buffer) storage.allocated filled).1.block
      storage.allocated = { buffer with cells := filled } := by
  have filledExclusive : Storage.Exclusive ((storage.add buffer).set storage.allocated
      { (storage.add buffer).block storage.allocated with cells := filled }) :=
    (exclusive.add one).set (by simpa using one)
  have notNew : vector.mStorage ≠ some storage.allocated :=
    fun isNew => (owns _ isNew).ne_new rfl
  have ownsFilled : vector.Owns ((storage.add buffer).set storage.allocated
      { (storage.add buffer).block storage.allocated with cells := filled }) :=
    fun buf isBuf => Blocks.live_set.mpr (owns buf isBuf).add
  obtain ⟨_, spec⟩ := VectorObject.releaseStorage_spec vector traits filledExclusive ownsFilled
  rw [VectorObject.adopt, (spec _).2 notNew, Blocks.set_block_self, Blocks.add_block_new]

theorem alloc_found {size : Nat} {cells : Slots T} (found : a.mallocBuffer size = some cells) :
    Storage.alloc a storage size =
      (some storage.allocated, storage.add { mRefs := 1, mSize := size, cells }) := by
  rw [Storage.alloc, found]

/-- What `_grow` does: it finds no memory, and in one case loses the buffer; it takes over
storage of the wrapped size; or there is room. -/
theorem grow_cases (traits : Traits) (exclusive : storage.Exclusive) (owns : vector.Owns storage)
    (a : Allocator (Option T)) (index numItems : Nat) :
    (vector.capacity traits storage < sizeAdd vector.mCount numItems ∧
        (vector.GrowFails traits a storage index numItems ∧
            vector.grow traits a storage index numItems = some (none, storage, vector) ∨
          ¬ vector.GrowFails traits a storage index numItems ∧
            ¬ vector.GrowKeeps traits a storage index numItems ∧
            ∃ buf, vector.grow traits a storage index numItems =
              some (none, storage.free buf, vector))) ∨
      (vector.capacity traits storage < sizeAdd vector.mCount numItems ∧
        ¬ vector.GrowFails traits a storage index numItems ∧
        ∃ after buf, vector.grow traits a storage index numItems =
            some (VectorObject.itemLocation traits after ⟨some buf, sizeAdd vector.mCount numItems⟩
              index, after, ⟨some buf, sizeAdd vector.mCount numItems⟩) ∧
          (after.block buf).mSize =
            sizeMul (VectorImpl.growCapacity vector.mCount numItems) traits.itemSize) ∨
      (sizeAdd vector.mCount numItems ≤ vector.capacity traits storage ∧
        ∃ place after, vector.grow traits a storage index numItems =
            some (place, after, ⟨vector.mStorage, sizeAdd vector.mCount numItems⟩) ∧
          (after = storage ∨ ∃ slots, after = vector.setSlots storage slots)) := by
  by_cases roomy : sizeAdd vector.mCount numItems ≤ vector.capacity traits storage
  · refine .inr (.inr ⟨roomy, ?_⟩)
    rw [VectorObject.grow]
    simp only [if_neg (Nat.not_lt.mpr roomy)]
    rw [VectorObject.editArrayImpl_eq exclusive owns]
    refine ⟨_, _, rfl, ?_⟩
    split
    next => exact .inr ⟨_, rfl⟩
    next => exact .inl rfl
  have full := Nat.lt_of_not_le roomy
  by_cases resizable : vector.mStorage.isSome ∧ vector.mCount = index ∧ traits.hasTrivialCopy ∧
      traits.hasTrivialDtor
  · obtain ⟨isSome, atEnd⟩ := resizable
    obtain ⟨buf, isBuf⟩ := Option.isSome_iff_exists.mp isSome
    have resizable : vector.mStorage.isSome ∧ vector.mCount = index ∧ traits.hasTrivialCopy ∧
        traits.hasTrivialDtor := ⟨isSome, atEnd⟩
    have resizes {resized : Nat} {after : VectorStorage T}
        (isResult : Storage.editResize a traits.itemSize storage buf
          (sizeMul (VectorImpl.growCapacity vector.mCount numItems) traits.itemSize) =
            (some resized, after)) :
        vector.grow traits a storage index numItems =
          some (VectorObject.itemLocation traits after
            ⟨some resized, sizeAdd vector.mCount numItems⟩ index, after,
            ⟨some resized, sizeAdd vector.mCount numItems⟩) := by
      rw [VectorObject.grow]
      simp only
      rw [if_pos full, if_pos resizable, isBuf, Option.map_some, isResult]
    have fails {after : VectorStorage T}
        (isResult : Storage.editResize a traits.itemSize storage buf
          (sizeMul (VectorImpl.growCapacity vector.mCount numItems) traits.itemSize) =
            (none, after)) :
        vector.grow traits a storage index numItems = some (none, after, vector) := by
      rw [VectorObject.grow]
      simp only
      rw [if_pos full, if_pos resizable, isBuf, Option.map_some, isResult]
    rcases exclusive.editResize_cases (owns buf isBuf) a traits.itemSize
        (sizeMul (VectorImpl.growCapacity vector.mCount numItems) traits.itemSize) with
      ⟨differs, noRealloc, noMalloc, ⟨keeps, isResult⟩ | ⟨loses, isResult⟩⟩ |
        ⟨found, resized, after, isResult, bytes⟩
    · refine .inl ⟨full, .inl ⟨⟨noMalloc, fun other isOther _ => ?_⟩, ?_⟩⟩
      · cases isBuf.symm.trans isOther
        exact ⟨differs, noRealloc, keeps⟩
      · exact fails isResult
    · refine .inl ⟨full, .inr ⟨fun failed => ?_, fun keeps => ?_, buf, ?_⟩⟩
      · exact Nat.ne_of_gt (failed.2 buf isBuf atEnd).2.2 loses
      · exact Nat.ne_of_gt (keeps full resizable noRealloc) loses
      · exact fails isResult
    · refine .inr (.inl ⟨full, fun failed => ?_, after, resized, resizes isResult, bytes⟩)
      · obtain ⟨differs, noRealloc, _⟩ := failed.2 buf isBuf atEnd
        rcases found with same | hasRealloc | hasMalloc
        · exact differs same
        · exact hasRealloc noRealloc
        · exact hasMalloc failed.1
  · rw [VectorObject.grow]
    simp only [if_pos full, if_neg resizable]
    cases memory : a.mallocBuffer
        (sizeMul (VectorImpl.growCapacity vector.mCount numItems) traits.itemSize) with
    | none =>
        refine .inl ⟨full, .inl ⟨⟨memory, fun buf isBuf atEnd => ?_⟩, ?_⟩⟩
        · exact absurd ⟨by rw [isBuf]; rfl, atEnd⟩ resizable
        · simp only [Storage.alloc, memory]
    | some cells =>
        have fails : ¬ vector.GrowFails traits a storage index numItems := by
          intro failed
          cases memory.symm.trans failed.1
        rw [alloc_found memory]
        refine .inr (.inl ⟨full, fails, _, _, rfl, ?_⟩)
        rw [adopt_block exclusive owns rfl]

/-- `_shrink` of storage: it finds no memory, and in one case loses the buffer; it takes over
storage of the wrapped size; or it shortens its own. -/
theorem shrink_cases (traits : Traits) (exclusive : storage.Exclusive) (owns : vector.Owns storage)
    (isBuf : vector.mStorage = some buf) (a : Allocator (Option T)) (index amount : Nat) :
    (sizeSub vector.mCount amount < vector.capacity traits storage / 2 ∧
        a.mallocBuffer (sizeMul (VectorImpl.shrinkCapacity (sizeSub vector.mCount amount))
          traits.itemSize) = none ∧
        (vector.shrink traits a storage index amount = some (storage, vector) ∨
          index = sizeSub vector.mCount amount ∧
            ¬ vector.ShrinkKeeps traits a storage index amount)) ∨
      (sizeSub vector.mCount amount < vector.capacity traits storage / 2 ∧
        (index ≠ sizeSub vector.mCount amount →
          a.mallocBuffer (sizeMul (VectorImpl.shrinkCapacity (sizeSub vector.mCount amount))
            traits.itemSize) ≠ none) ∧
        ∃ after buf, vector.shrink traits a storage index amount =
            some (after, ⟨some buf, sizeSub vector.mCount amount⟩) ∧
          (after.block buf).mSize =
            sizeMul (VectorImpl.shrinkCapacity (sizeSub vector.mCount amount)) traits.itemSize) ∨
      (vector.capacity traits storage / 2 ≤ sizeSub vector.mCount amount ∧
        ∃ slots, vector.shrink traits a storage index amount =
          some (vector.setSlots storage slots,
            ⟨vector.mStorage, sizeSub vector.mCount amount⟩)) := by
  rw [VectorObject.shrink, isBuf]
  simp only
  split
  next few =>
    split
    next atEnd =>
      rcases exclusive.editResize_cases (owns buf isBuf) a traits.itemSize
          (sizeMul (VectorImpl.shrinkCapacity (sizeSub vector.mCount amount)) traits.itemSize) with
        ⟨_, noRealloc, noMalloc, ⟨_, isResult⟩ | ⟨loses, isResult⟩⟩ |
          ⟨_, resized, after, isResult, bytes⟩
      · refine .inl ⟨few, noMalloc, .inl ?_⟩
        rw [isResult]
      · exact .inl ⟨few, noMalloc, .inr ⟨atEnd.1, fun keeps =>
          Nat.ne_of_gt (keeps few atEnd noRealloc) loses⟩⟩
      · refine .inr (.inl ⟨few, fun differs => absurd atEnd.1 differs, after, resized, ?_, bytes⟩)
        rw [isResult]
    next =>
      cases memory : a.mallocBuffer
          (sizeMul (VectorImpl.shrinkCapacity (sizeSub vector.mCount amount)) traits.itemSize) with
      | none =>
          refine .inl ⟨few, rfl, .inl ?_⟩
          simp only [Storage.alloc, memory]
      | some cells =>
          rw [alloc_found memory]
          refine .inr (.inl ⟨few, fun _ => Option.some_ne_none cells, _, _, rfl, ?_⟩)
          rw [adopt_block exclusive owns rfl]
  next many =>
    refine .inr (.inr ⟨Nat.le_of_not_lt many, ?_⟩)
    rw [VectorObject.editArrayImpl_eq exclusive owns, ← isBuf]
    exact ⟨_, rfl⟩

/-! ## Calls whose sizes wrap -/

/-- A removal whose sum exceeds the size. -/
theorem refuses_removal_iff (exclusive : storage.Exclusive) (fits : vector.Fits traits storage)
    (a : Allocator (Option T)) {index count : Nat} (isIndex : index < 2 ^ 64)
    (isCount : count < 2 ^ 64) (beyond : vector.mCount < index + count) :
    vector.removeItemsAt traits a storage index count = some (badValue, storage, vector) ↔
      vector.RefusesRemoval traits a storage index count := by
  have small := fits.small
  have half := fits.capacity_small
  rw [VectorObject.removeItemsAt, VectorObject.RefusesRemoval]
  simp only
  split
  next isBeyond => exact ⟨fun _ => .inl isBeyond, fun _ => rfl⟩
  next wraps =>
    -- the sum wraps, and something is to be removed
    have changes : sizeSub vector.mCount count ≠ vector.mCount := by
      simp only [sizeAdd] at wraps
      simp only [sizeSub]
      omega
    have isBadValue : toSsize index = badValue ↔ index = 2 ^ 64 - 22 := by
      simp only [toSsize, badValue]
      split <;> omega
    cases isBuf : vector.mStorage with
    | none =>
        have nothing : vector.shrink traits a storage index count = some (storage, vector) := by
          rw [VectorObject.shrink, isBuf]
        simp [nothing, isBadValue, wraps]
    | some buf =>
        rcases shrink_cases traits exclusive fits.owns isBuf a index count with
          ⟨few, noMemory, shrunk | ⟨atEnd, _⟩⟩ | ⟨few, memory, after, new, shrunk, _⟩ |
            ⟨many, slots, shrunk⟩
        · rw [shrunk]
          simp [isBadValue, wraps, few, noMemory]
        · -- the index is below half of the capacity, so it is no error
          have notLast : index ≠ 2 ^ 64 - 22 := by omega
          constructor
          · intro refused
            obtain ⟨after, _, done⟩ := Option.bind_eq_some_iff.mp refused
            have status := congrArg (Option.map Prod.fst) done
            exact absurd (isBadValue.mp (Option.some.inj status)) notLast
          · rintro (isBeyond | ⟨isLast, _⟩)
            · exact absurd isBeyond wraps
            · exact absurd isLast notLast
        · rw [shrunk]
          constructor
          · intro same
            have counts := congrArg (Option.map fun result => result.2.2.mCount) same
            exact absurd (Option.some.inj counts) changes
          · rintro (isBeyond | ⟨isLast, none | ⟨_, noMemory⟩⟩)
            · exact absurd isBeyond wraps
            · cases none
            · exact absurd noMemory (memory (by omega))
        · rw [shrunk]
          constructor
          · intro same
            have counts := congrArg (Option.map fun result => result.2.2.mCount) same
            exact absurd (Option.some.inj counts) changes
          · rintro (isBeyond | ⟨_, none | ⟨few, _⟩⟩)
            · exact absurd isBeyond wraps
            · cases none
            · exact absurd few (Nat.not_lt.mpr many)

/-- `insertAt` leaves the size that `_grow` set. -/
theorem insertAt_count (item : T) {index numItems : Nat} {place : Option Nat}
    {after : VectorStorage T} {result : VectorObject} (inside : ¬ index > vector.mCount)
    (grown : vector.grow traits a storage index numItems = some (place, after, result)) :
    (vector.insertAt traits a storage item index numItems).map
      (fun inserted => inserted.2.2.mCount) = some result.mCount := by
  rw [VectorObject.insertAt, if_neg inside, grown]
  cases place <;> rfl

/-- An insertion whose sizes overflow. -/
theorem refuses_insertion_iff (exclusive : storage.Exclusive) (fits : vector.Fits traits storage)
    (a : Allocator (Option T)) (item : T) {index numItems : Nat} (isAmount : numItems < 2 ^ 64)
    (overflows : vector.Overflows traits storage numItems) :
    (∃ error < 0, vector.insertAt traits a storage item index numItems =
        some (error, storage, vector)) ↔
      vector.RefusesInsertion traits a storage index numItems := by
  have small := fits.small
  have room := fits.room
  rw [VectorObject.RefusesInsertion]
  by_cases beyond : index > vector.mCount
  · rw [VectorObject.insertAt, if_pos beyond]
    exact ⟨fun _ => .inl beyond, fun _ => ⟨badIndex, by decide, rfl⟩⟩
  · have newSize : sizeAdd vector.mCount numItems =
        if vector.mCount + numItems < 2 ^ 64 then vector.mCount + numItems
        else vector.mCount + numItems - 2 ^ 64 := by
      rw [sizeAdd]
      split <;> omega
    have changes : sizeAdd vector.mCount numItems ≠ vector.mCount := by
      rw [newSize]
      obtain wraps | ⟨full, _⟩ := overflows
      · rw [if_neg (Nat.not_lt.mpr wraps)]
        omega
      · split <;> omega
    -- whoever has another size was not refused
    have accepted : ∀ {place after mStorage}, vector.grow traits a storage index numItems =
          some (place, after, ⟨mStorage, sizeAdd vector.mCount numItems⟩) →
        ¬ ∃ error < 0, vector.insertAt traits a storage item index numItems =
          some (error, storage, vector) := by
      rintro place after mStorage grown ⟨error, _, same⟩
      have counts := insertAt_count item beyond grown
      rw [same] at counts
      exact changes (Option.some.inj counts).symm
    rcases grow_cases traits exclusive fits.owns a index numItems with
      ⟨full, ⟨fails, grown⟩ | ⟨found, _, buf, grown⟩⟩ | ⟨full, found, after, buf, grown, _⟩ |
        ⟨roomy, place, after, grown, _⟩
    · have short : vector.mCount + numItems < 2 ^ 64 := by
        by_contra wraps
        rw [newSize, if_neg wraps] at full
        omega
      rw [VectorObject.insertAt, if_neg beyond, grown]
      exact ⟨fun _ => .inr ⟨short, fails⟩, fun _ => ⟨noMemory, by decide, rfl⟩⟩
    · -- the buffer was freed
      rw [VectorObject.insertAt, if_neg beyond, grown]
      constructor
      · rintro ⟨error, _, same⟩
        have freed := congrArg (Option.map fun result => result.2.1.freed.length) same
        simp [Blocks.free_freed] at freed
      · rintro (isBeyond | ⟨_, fails⟩)
        · exact absurd isBeyond beyond
        · exact absurd fails found
    · refine ⟨fun refused => absurd refused (accepted grown), ?_⟩
      rintro (isBeyond | ⟨_, fails⟩)
      · exact absurd isBeyond beyond
      · exact absurd fails found
    · refine ⟨fun refused => absurd refused (accepted grown), ?_⟩
      rintro (isBeyond | ⟨short, _⟩)
      · exact absurd isBeyond beyond
      · rw [newSize, if_pos short] at roomy
        obtain wraps | ⟨full, _⟩ := overflows
        · exact absurd short (Nat.not_lt.mpr wraps)
        · exact absurd full (Nat.not_lt.mpr roomy)

/-! ## Room for the elements, after a call -/

/-- Another number of elements. -/
theorem VectorObject.Fits.count (fits : vector.Fits traits storage) {newSize : Nat}
    (room : newSize ≤ vector.capacity traits storage) :
    VectorObject.Fits traits storage ⟨vector.mStorage, newSize⟩ where
  owns := fits.owns
  bytes := fits.bytes
  room := room

theorem VectorObject.Fits.recount (fits : vector.Fits traits storage) (slots : Slots T)
    {newSize : Nat} (room : newSize ≤ vector.capacity traits storage) :
    VectorObject.Fits traits (vector.setSlots storage slots) ⟨vector.mStorage, newSize⟩ :=
  (fits.count room).setSlots vector slots

theorem small_of_not_overflows {numItems : Nat}
    (exact' : ¬ vector.Overflows traits storage numItems) : vector.mCount + numItems < 2 ^ 64 :=
  Nat.lt_of_not_le fun wraps => exact' (.inl wraps)

/-- The bytes that `_grow` asks for. -/
theorem grow_bytes {numItems : Nat} (exact' : ¬ vector.Overflows traits storage numItems)
    (full : vector.capacity traits storage < vector.mCount + numItems) :
    sizeofSharedBuffer +
        sizeMul (VectorImpl.growCapacity vector.mCount numItems) traits.itemSize < 2 ^ 64 ∧
      (vector.mCount + numItems) * traits.itemSize ≤
        sizeMul (VectorImpl.growCapacity vector.mCount numItems) traits.itemSize := by
  have small := small_of_not_overflows exact'
  simp only [VectorObject.Overflows, not_or, not_and, not_le] at exact'
  obtain ⟨smallCapacity, smallBytes⟩ := exact'.2 full
  have isCapacity : VectorImpl.growCapacity vector.mCount numItems =
      max kMinVectorCapacity (vector.mCount + numItems + (vector.mCount + numItems) / 2) := by
    rw [VectorImpl.growCapacity, sizeAdd_eq small, sizeAdd_eq]
    exact Nat.lt_of_le_of_lt (Nat.le_max_right ..) smallCapacity
  rw [isCapacity, sizeMul_eq (Nat.lt_of_le_of_lt (Nat.le_add_left ..) smallBytes)]
  refine ⟨smallBytes, Nat.mul_le_mul_right _ ?_⟩
  exact Nat.le_trans (Nat.le_add_right ..) (Nat.le_max_right ..)

/-- An insertion that meets the condition does not lose the buffer. -/
theorem grow_keeps {index numItems : Nat}
    (meets : vector.Overflows traits storage numItems →
      vector.RefusesInsertion traits a storage index numItems) :
    vector.GrowKeeps traits a storage index numItems := by
  rintro full ⟨isSome, atEnd⟩ _
  by_cases overflows : vector.Overflows traits storage numItems
  · rcases meets overflows with beyond | ⟨_, fails⟩
    · exact absurd atEnd.1 (Nat.ne_of_lt beyond)
    · obtain ⟨buf, isBuf⟩ := Option.isSome_iff_exists.mp isSome
      exact (fails.2 buf isBuf atEnd).2.2
  · rw [sizeAdd_eq (small_of_not_overflows overflows)] at full
    exact bufferBytes_pos (grow_bytes overflows full).1

/-- An insertion that meets the condition. -/
theorem VectorObject.Fits.insertAt (fits : vector.Fits traits storage)
    (exclusive : storage.Exclusive) {item : T} {index numItems : Nat}
    (meets : vector.Overflows traits storage numItems →
      vector.RefusesInsertion traits a storage index numItems)
    {result : Int × VectorStorage T × VectorObject}
    (inserted : vector.insertAt traits a storage item index numItems = some result) :
    result.2.2.Fits traits result.2.1 := by
  rw [VectorObject.insertAt] at inserted
  split at inserted
  next =>
    cases inserted
    exact fits
  next inside =>
    obtain ⟨⟨place, after, grownVector⟩, grown, done⟩ := Option.bind_eq_some_iff.mp inserted
    have swaps := Swaps.grow exclusive fits.owns (grow_keeps meets) grown
    have grownFits : grownVector.Fits traits after := by
      rcases grow_cases traits exclusive fits.owns a index numItems with
        ⟨_, ⟨_, isGrown⟩ | ⟨_, loses, _⟩⟩ | ⟨full, found, _, buf, isGrown, bytes⟩ |
          ⟨roomy, _, _, isGrown, stored⟩
      · cases grown.symm.trans isGrown
        exact fits
      · exact absurd (grow_keeps meets) loses
      · cases grown.symm.trans isGrown
        have exact' : ¬ vector.Overflows traits storage numItems := by
          intro overflows
          rcases meets overflows with beyond | ⟨_, fails⟩
          · exact inside beyond
          · exact found fails
        rw [sizeAdd_eq (small_of_not_overflows exact')] at full swaps ⊢
        obtain ⟨smallBytes, enough⟩ := grow_bytes exact' full
        exact .of_bytes (fun buf isBuf => (swaps.held buf isBuf).1) rfl bytes smallBytes enough
      · cases grown.symm.trans isGrown
        rcases stored with rfl | ⟨slots, rfl⟩
        · exact fits.count roomy
        · exact fits.recount slots roomy
    cases place with
    | none =>
        cases done
        exact grownFits
    | some place =>
        cases done
        exact grownFits.setSlots _ _

/-- The bytes that `_shrink` asks for. -/
theorem shrink_bytes (fits : vector.Fits traits storage) {amount : Nat}
    (exact' : ¬ vector.ShrinkOverflows traits storage amount)
    (few : vector.mCount - amount < vector.capacity traits storage / 2) :
    sizeofSharedBuffer +
        sizeMul (VectorImpl.shrinkCapacity (vector.mCount - amount)) traits.itemSize < 2 ^ 64 ∧
      (vector.mCount - amount) * traits.itemSize ≤
        sizeMul (VectorImpl.shrinkCapacity (vector.mCount - amount)) traits.itemSize := by
  have half := fits.capacity_small
  have smallBytes := Nat.lt_of_not_le fun overflows => exact' ⟨few, overflows⟩
  have isCapacity : VectorImpl.shrinkCapacity (vector.mCount - amount) =
      max kMinVectorCapacity ((vector.mCount - amount) * 2) := by
    rw [VectorImpl.shrinkCapacity, sizeMul_eq (by omega)]
  rw [isCapacity, sizeMul_eq (Nat.lt_of_le_of_lt (Nat.le_add_left ..) smallBytes)]
  refine ⟨smallBytes, Nat.mul_le_mul_right _ ?_⟩
  exact Nat.le_trans (Nat.le_mul_of_pos_right _ Nat.zero_lt_two) (Nat.le_max_right ..)

/-- A removal whose sizes do not wrap does not lose the buffer. -/
theorem shrink_keeps (fits : vector.Fits traits storage) {index amount : Nat}
    (inside : amount ≤ vector.mCount) (exact' : ¬ vector.ShrinkOverflows traits storage amount) :
    vector.ShrinkKeeps traits a storage index amount := by
  rw [VectorObject.ShrinkKeeps, sizeSub_eq fits.small inside]
  exact fun few _ _ => bufferBytes_pos (shrink_bytes fits exact' few).1

/-- `_shrink`. -/
theorem VectorObject.Fits.shrink (fits : vector.Fits traits storage)
    (exclusive : storage.Exclusive) {index amount : Nat} (inside : amount ≤ vector.mCount)
    (exact' : ¬ vector.ShrinkOverflows traits storage amount)
    {result : VectorStorage T × VectorObject}
    (shrunk : vector.shrink traits a storage index amount = some result) :
    result.2.Fits traits result.1 := by
  have keeps : vector.ShrinkKeeps traits a storage index amount := shrink_keeps fits inside exact'
  have swaps := Swaps.shrink exclusive fits.owns keeps shrunk
  have isSize : sizeSub vector.mCount amount = vector.mCount - amount :=
    sizeSub_eq fits.small inside
  cases isBuf : vector.mStorage with
  | none =>
      rw [VectorObject.shrink, isBuf] at shrunk
      cases shrunk
      exact fits
  | some buf =>
      rcases shrink_cases traits exclusive fits.owns isBuf a index amount with
        ⟨_, _, isShrunk | ⟨_, loses⟩⟩ | ⟨few, _, after, new, isShrunk, bytes⟩ | ⟨_, slots, isShrunk⟩
      · cases shrunk.symm.trans isShrunk
        exact fits
      · exact absurd keeps loses
      · cases shrunk.symm.trans isShrunk
        rw [isSize] at few bytes swaps ⊢
        obtain ⟨smallBytes, enough⟩ := shrink_bytes fits exact' few
        exact .of_bytes (fun buf isBuf => (swaps.held buf isBuf).1) rfl bytes smallBytes enough
      · cases shrunk.symm.trans isShrunk
        apply fits.recount slots
        rw [isSize]
        exact Nat.le_trans (Nat.sub_le ..) fits.room

/-- A removal that meets the condition does not lose the buffer. -/
theorem removal_keeps (fits : vector.Fits traits storage) {index count : Nat}
    (wraps : vector.mCount < index + count → vector.RefusesRemoval traits a storage index count)
    (exact' : index + count ≤ vector.mCount → ¬ vector.ShrinkOverflows traits storage count)
    (inside : sizeAdd index count ≤ vector.mCount) :
    vector.ShrinkKeeps traits a storage index count := by
  by_cases beyond : vector.mCount < index + count
  · rcases wraps beyond with isBeyond | ⟨isLast, _⟩
    · exact absurd isBeyond (Nat.not_lt.mpr inside)
    · have half := fits.capacity_small
      rintro few ⟨atEnd, _⟩
      omega
  · have within := Nat.le_of_not_lt beyond
    exact shrink_keeps fits (Nat.le_trans (Nat.le_add_left ..) within) (exact' within)

/-- A removal that meets the condition. -/
theorem VectorObject.Fits.removeItemsAt (fits : vector.Fits traits storage)
    (exclusive : storage.Exclusive) {index count : Nat} (isIndex : index < 2 ^ 64)
    (isCount : count < 2 ^ 64)
    (wraps : vector.mCount < index + count → vector.RefusesRemoval traits a storage index count)
    (exact' : index + count ≤ vector.mCount → ¬ vector.ShrinkOverflows traits storage count)
    {result : Int × VectorStorage T × VectorObject}
    (removed : vector.removeItemsAt traits a storage index count = some result) :
    result.2.2.Fits traits result.2.1 := by
  by_cases beyond : vector.mCount < index + count
  · have refused := (refuses_removal_iff exclusive fits a isIndex isCount beyond).mpr (wraps beyond)
    cases removed.symm.trans refused
    exact fits
  · have small := fits.small
    have within := Nat.le_of_not_lt beyond
    have inside : sizeAdd index count ≤ vector.mCount := by
      rw [sizeAdd_eq (by omega)]
      exact within
    rw [VectorObject.removeItemsAt, if_neg (Nat.not_lt.mpr inside)] at removed
    obtain ⟨shrunk, isShrunk, done⟩ := Option.bind_eq_some_iff.mp removed
    cases done
    exact fits.shrink exclusive (by omega) (exact' within) isShrunk

/-- `setCapacity` of a capacity that can be represented. -/
theorem VectorObject.Fits.setCapacity (fits : vector.Fits traits storage)
    (exclusive : storage.Exclusive) {newCapacity : Nat}
    (meets : vector.mCount < newCapacity →
      sizeofSharedBuffer + newCapacity * traits.itemSize < 2 ^ 64 ∨
        a.mallocBuffer (sizeMul newCapacity traits.itemSize) = none) :
    VectorObject.Fits traits (vector.setCapacity traits a storage newCapacity).2.1
      (vector.setCapacity traits a storage newCapacity).2.2 := by
  have swaps : Swaps storage (vector.setCapacity traits a storage newCapacity).2.1
      vector.mStorage (vector.setCapacity traits a storage newCapacity).2.2.mStorage :=
    Swaps.setCapacity exclusive fits.owns newCapacity
  rw [VectorObject.setCapacity] at swaps ⊢
  split
  next => exact fits
  next more =>
    cases memory : a.mallocBuffer (sizeMul newCapacity traits.itemSize) with
    | none =>
        simp only [Storage.alloc, memory]
        exact fits
    | some cells =>
        rw [if_neg more, alloc_found memory] at swaps
        rw [alloc_found memory]
        have represented : sizeofSharedBuffer + newCapacity * traits.itemSize < 2 ^ 64 := by
          rcases meets (Nat.lt_of_not_le more) with represented | noMemory
          · exact represented
          · cases memory.symm.trans noMemory
        have isExact : sizeMul newCapacity traits.itemSize = newCapacity * traits.itemSize :=
          sizeMul_eq (Nat.lt_of_le_of_lt (Nat.le_add_left ..) represented)
        refine .of_bytes (fun buf isBuf => (swaps.held buf isBuf).1) rfl
          (congrArg CountedBuffer.mSize (adopt_block exclusive fits.owns rfl _)) ?_ ?_
        · exact isExact ▸ represented
        · exact isExact ▸ Nat.mul_le_mul_right _ (Nat.le_of_lt (Nat.lt_of_not_le more))

end Sizes

/-! ## Programs -/

section Programs

variable {ι : Type} {state next : VectorState ι T} {traits : Traits}

/-- No other Vector has the storage. -/
def VectorState.Alone (state : VectorState ι T) (i : ι) : Prop :=
  ∀ j buf, state.Points i buf → state.Points j buf → j = i

/-- The condition on the sizes of a call: none of them wraps unnoticed. -/
def VectorCall.Sized (traits : Traits) (a : Allocator (Option T)) (state : VectorState ι T) :
    VectorCall ι T → Prop
  | .insertAt i _ index numItems => ∀ vector, state.vectors i = some vector →
      vector.Overflows traits state.storage numItems →
        vector.RefusesInsertion traits a state.storage index numItems
  | .push i _ => ∀ vector, state.vectors i = some vector →
      vector.Overflows traits state.storage 1 →
        vector.RefusesInsertion traits a state.storage vector.mCount 1
  | .removeItemsAt i index count =>
      index < 2 ^ 64 ∧ count < 2 ^ 64 ∧ ∀ vector, state.vectors i = some vector →
        (vector.mCount < index + count →
            vector.RefusesRemoval traits a state.storage index count) ∧
          (index + count ≤ vector.mCount → ¬ vector.ShrinkOverflows traits state.storage count)
  | .clear i => ∀ vector, state.vectors i = some vector →
      ¬ vector.ShrinkOverflows traits state.storage vector.mCount
  | .setCapacity i newCapacity => ∀ vector, state.vectors i = some vector →
      vector.mCount < newCapacity →
        sizeofSharedBuffer + newCapacity * traits.itemSize < 2 ^ 64 ∨
          a.mallocBuffer (sizeMul newCapacity traits.itemSize) = none
  | .construct _ | .copy _ _ | .editItemAt _ _ _ | .destroy _ => True

/-- What may leave its storage shares it with no other Vector. -/
def VectorCall.Unshared (state : VectorState ι T) : VectorCall ι T → Prop
  | .insertAt i _ _ _ | .push i _ | .removeItemsAt i _ _ | .clear i | .setCapacity i _ =>
      state.Alone i
  | .construct _ | .copy _ _ | .editItemAt _ _ _ | .destroy _ => True

/-- The condition on a call. -/
def VectorCall.Representable (traits : Traits) (a : Allocator (Option T))
    (state : VectorState ι T) (call : VectorCall ι T) : Prop :=
  call.Unshared state ∧ call.Sized traits a state

/-- A call that meets the condition. -/
def RepresentableStep [DecidableEq ι] (traits : Traits) (state : VectorState ι T)
    (event : Allocator (Option T) × VectorCall ι T) (next : VectorState ι T) : Prop :=
  VectorStep traits state event next ∧ event.2.Representable traits event.1 state

/-- Every Vector has room for its elements. -/
structure VectorState.Roomy (traits : Traits) (state : VectorState ι T) : Prop where
  exclusive : state.storage.Exclusive
  fits : ∀ i vector, state.vectors i = some vector → vector.Fits traits state.storage

theorem VectorState.Roomy.init : (VectorState.init : VectorState ι T).Roomy traits where
  exclusive := VectorState.Owned.init.exclusive
  fits := fun _ _ none => nomatch none

/-- A call on a Vector that has room for its elements loses no buffer. -/
theorem VectorCall.Sized.keeps {a : Allocator (Option T)} {call : VectorCall ι T}
    (sized : call.Sized traits a state) {vector : VectorObject}
    (alive : state.vectors call.target = some vector) (fits : vector.Fits traits state.storage) :
    call.Keeps traits a state.storage vector := by
  cases call with
  | insertAt i item index numItems => exact grow_keeps (sized vector alive)
  | push i item => exact grow_keeps (sized vector alive)
  | removeItemsAt i index count =>
      obtain ⟨wraps, exact'⟩ := sized.2.2 vector alive
      exact removal_keeps fits wraps exact'
  | clear i => exact shrink_keeps fits (Nat.le_refl _) (sized vector alive)
  | construct i => trivial
  | copy source target => trivial
  | setCapacity i newCapacity => trivial
  | editItemAt i index item => trivial
  | destroy i => trivial

variable [DecidableEq ι]

/-- A Vector and the storage change, and the other Vectors keep what they had. -/
theorem VectorState.Roomy.put {i : ι} {result : VectorStorage T × VectorObject}
    (exclusive : result.1.Exclusive) (fits : result.2.Fits traits result.1)
    (kept : ∀ j vector, j ≠ i → state.vectors j = some vector → vector.Fits traits result.1) :
    (state.put i result).Roomy traits where
  exclusive := exclusive
  fits := by
    intro j vector isVector
    by_cases same : j = i
    · cases same
      cases (Function.update_self ..).symm.trans isVector
      exact fits
    · exact kept j vector same ((Function.update_of_ne same ..).symm.trans isVector)

/-- A change of the storage of a Vector that no other has. -/
theorem VectorState.Roomy.putAlone (roomy : state.Roomy traits) {i : ι} {vector : VectorObject}
    (alive : state.vectors i = some vector) (alone : state.Alone i)
    {result : VectorStorage T × VectorObject}
    (swaps : Swaps state.storage result.1 vector.mStorage result.2.mStorage)
    (fits : result.2.Fits traits result.1) : (state.put i result).Roomy traits := by
  apply VectorState.Roomy.put swaps.exclusive fits
  intro j other differs isOther
  have otherFits := roomy.fits j other isOther
  apply otherFits.kept
  intro buf isBuf
  have differ : vector.mStorage ≠ some buf :=
    fun isMine => differs (alone j buf ⟨vector, alive, isMine⟩ ⟨other, isOther, isBuf⟩)
  obtain ⟨live, same⟩ := swaps.kept buf (otherFits.owns buf isBuf) differ
  exact ⟨live, congrArg CountedBuffer.mSize same⟩

/-- Every call that meets the condition. -/
theorem VectorState.Roomy.step (roomy : state.Roomy traits)
    {event : Allocator (Option T) × VectorCall ι T}
    (taken : RepresentableStep traits state event next) : next.Roomy traits := by
  obtain ⟨taken, unshared, sized⟩ := taken
  cases taken with
  | construct unused =>
      exact .put roomy.exclusive VectorObject.Fits.empty
        fun j vector _ isVector => roomy.fits j vector isVector
  | @copy a source target vector alive unused =>
      exact .put roomy.exclusive (roomy.fits source vector alive)
        fun j vector _ isVector => roomy.fits j vector isVector
  | @destroy a i vector alive =>
      exact {
        exclusive := roomy.exclusive
        fits := by
          intro j vector isVector
          by_cases same : j = i
          · cases same
            cases (Function.update_self ..).symm.trans isVector
          · exact roomy.fits j vector ((Function.update_of_ne same ..).symm.trans isVector) }
  | @change a call vector result alive changed =>
      have fits := roomy.fits _ vector alive
      have swaps := Swaps.change roomy.exclusive fits.owns (sized.keeps alive fits) changed
      cases call with
      | construct i => cases changed
      | copy source target => cases changed
      | destroy i => cases changed
      | insertAt i item index numItems =>
          obtain ⟨inserted, isInserted, rfl⟩ := Option.map_eq_some_iff.mp changed
          exact roomy.putAlone alive unshared swaps
            (fits.insertAt roomy.exclusive (sized vector alive) isInserted)
      | push i item =>
          obtain ⟨inserted, isInserted, rfl⟩ := Option.map_eq_some_iff.mp changed
          exact roomy.putAlone alive unshared swaps
            (fits.insertAt roomy.exclusive (sized vector alive) isInserted)
      | removeItemsAt i index count =>
          obtain ⟨isIndex, isCount, meets⟩ := sized
          obtain ⟨wraps, exact'⟩ := meets vector alive
          obtain ⟨removed, isRemoved, rfl⟩ := Option.map_eq_some_iff.mp changed
          exact roomy.putAlone alive unshared swaps
            (fits.removeItemsAt roomy.exclusive isIndex isCount wraps exact' isRemoved)
      | clear i =>
          exact roomy.putAlone alive unshared swaps
            (fits.shrink roomy.exclusive (Nat.le_refl _) (sized vector alive) changed)
      | setCapacity i newCapacity =>
          cases changed
          exact roomy.putAlone alive unshared swaps
            (fits.setCapacity roomy.exclusive (sized vector alive))
      | editItemAt i index item =>
          obtain ⟨⟨edited, vector'⟩, isEdited, done⟩ := Option.bind_eq_some_iff.mp changed
          rw [VectorObject.editArrayImpl_eq roomy.exclusive fits.owns] at isEdited
          cases isEdited
          obtain ⟨buf, isBuf, done⟩ := Option.bind_eq_some_iff.mp done
          cases done
          exact .put swaps.exclusive (fits.setSlots vector _)
            fun j other _ isOther => (roomy.fits j other isOther).setSlots vector _

/-- While every call meets the condition: a removal beyond the size returns `BAD_VALUE`, and
an insertion whose sizes overflow an error, and everything is left as it was, just in the
cases in which the wrapped sizes refuse it. -/
theorem size_overflow_refused_iff {events : List (Allocator (Option T) × VectorCall ι T)}
    (reached : Run (RepresentableStep traits) .init events state) {i : ι} {vector : VectorObject}
    (alive : state.vectors i = some vector) (a : Allocator (Option T)) {index count : Nat}
    (isIndex : index < 2 ^ 64) (isCount : count < 2 ^ 64) :
    (vector.mCount < index + count →
        (vector.removeItemsAt traits a state.storage index count =
            some (badValue, state.storage, vector) ↔
          vector.RefusesRemoval traits a state.storage index count)) ∧
      ∀ item, vector.Overflows traits state.storage count →
        ((∃ error < 0, vector.insertAt traits a state.storage item index count =
            some (error, state.storage, vector)) ↔
          vector.RefusesInsertion traits a state.storage index count) := by
  have roomy : state.Roomy traits :=
    reached.invariant (VectorState.Roomy traits) .init fun roomy step => roomy.step step
  have fits := roomy.fits i vector alive
  exact ⟨refuses_removal_iff roomy.exclusive fits a isIndex isCount,
    fun item => refuses_insertion_iff roomy.exclusive fits a item isCount⟩

end Programs

/-- A program inserts two elements into a Vector. -/
theorem two_elements :
    ∃ (state : VectorState Nat Nat) (vector : VectorObject),
      Run (RepresentableStep intTraits) .init
        [(ampleMemory, .construct 0), (ampleMemory, .insertAt 0 7 0 2)] state ∧
      state.vectors 0 = some vector ∧ vector.mStorage = some 0 ∧ vector.mCount = 2 ∧
        (state.storage.block 0).mSize = 16 ∧ vector.slots state.storage 0 = some 7 ∧
        ∀ j, j ≠ 0 → state.vectors j = none := by
  let start : VectorState Nat Nat := .init
  let first := start.put 0 (start.storage, .empty)
  let result := ((VectorCall.insertAt 0 7 0 2).change intTraits ampleMemory first.storage
    .empty).get (by decide)
  have inserted : VectorStep intTraits first (ampleMemory, .insertAt 0 7 0 2)
      (first.put 0 result) := .change rfl (Option.some_get _).symm
  have alone : first.Alone 0 := by
    rintro j buf ⟨vector, isVector, isBuf⟩
    cases isVector
    cases isBuf
  have fits : ∀ vector, first.vectors 0 = some vector →
      vector.Overflows intTraits first.storage 2 →
        vector.RefusesInsertion intTraits ampleMemory first.storage 0 2 := by
    intro vector isVector overflows
    cases isVector
    have small : ¬ VectorObject.Overflows intTraits first.storage .empty 2 := by
      simp only [VectorObject.Overflows]
      decide
    exact absurd overflows small
  refine ⟨first.put 0 result, result.2,
    .cons ⟨.construct rfl, trivial, trivial⟩ (.single ⟨inserted, alone, fits⟩), rfl, by decide,
    by decide, by decide, by decide, ?_⟩
  intro j isOther
  simp [first, start, VectorState.put, VectorState.init, isOther]

/-- Three of two elements are to be removed. -/
theorem size_overflow_refused_three :
    ∃ (state : VectorState Nat Nat) (vector : VectorObject), state.vectors 0 = some vector ∧
      vector.mCount = 2 ∧
      vector.removeItemsAt intTraits ampleMemory state.storage 0 3 =
        some (badValue, state.storage, vector) := by
  obtain ⟨state, vector, reached, alive, _, two, _⟩ := two_elements
  have iff := (size_overflow_refused_iff reached alive ampleMemory (show 0 < 2 ^ 64 by decide)
    (show 3 < 2 ^ 64 by decide)).1
  refine ⟨state, vector, alive, two, (iff ?_).mpr (.inl ?_)⟩
  · rw [two]
    decide
  · rw [two]
    decide

/-- Three elements are to be removed from the last index that a `size_t` has. -/
theorem wrapped_removal_accepted :
    ¬ ∀ events (state : VectorState Nat Nat) vector, Run (VectorStep intTraits) .init events state →
      state.vectors 0 = some vector → ∀ a index count, index < 2 ^ 64 → count < 2 ^ 64 →
        vector.mCount < index + count →
        vector.removeItemsAt intTraits a state.storage index count =
          some (badValue, state.storage, vector) := by
  intro every
  obtain ⟨state, vector, reached, alive, isBuf, two, bytes, _⟩ := two_elements
  have roomy : state.Roomy intTraits :=
    reached.invariant (VectorState.Roomy intTraits) .init fun roomy step => roomy.step step
  have refused := every _ state vector (reached.mono fun step => step.1) alive ampleMemory
    (2 ^ 64 - 1) 3 (by decide) (by decide) (by rw [two]; decide)
  have capacity : vector.capacity intTraits state.storage = 4 := by
    rw [capacity_some isBuf, bytes]
    rfl
  have wraps : ¬ sizeAdd (2 ^ 64 - 1) 3 > 2 := by decide
  have many : ¬ sizeSub 2 3 < 4 / 2 := by decide
  have returned := congrArg (Option.map Prod.fst) refused
  simp only [VectorObject.removeItemsAt, VectorObject.shrink, two, if_neg wraps, isBuf, capacity,
    if_neg many, VectorObject.editArrayImpl_eq roomy.exclusive (roomy.fits 0 vector alive).owns]
    at returned
  have isBadValue : toSsize (2 ^ 64 - 1) = badValue := Option.some.inj returned
  exact absurd isBadValue (by decide)

end DroidKernal.Utils
