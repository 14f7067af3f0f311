import DroidKernal.Utils.ElementLists

/-!
# Insertion into the list of elements

`_grow` resizes the buffer, copies the elements to a new one, or moves those behind the gap;
then the item is copied into the gap.
-/

namespace DroidKernal.Utils

open Lib

variable {T : Type}

namespace ObjectMemory

variable {memory after : ObjectMemory T} {vector vector' : VectorObject} {traits : Traits}
  {a : Allocator (Option Empty)} {items : List T}

/-- The elements with a gap between them. -/
structure Gapped (traits : Traits) (objects : PlacedObjects T) (storage : Option Nat)
    (items : List T) (index amount : Nat) : Prop where
  front : ∀ k < index, objects.valueIn storage k = items[k]?
  back : ∀ k, index ≤ k → k < items.length → objects.valueIn storage (k + amount) = items[k]?
  raw : traits.hasTrivialDtor = false → ∀ buf, storage = some buf → ∀ slot,
    index ≤ slot ∧ slot < index + amount ∨ items.length + amount ≤ slot →
      objects.objectAt (buf, slot) = none

/-- `_grow` leaves the storage where it is: there is room, or memory grows where it is. -/
def GrowsInPlace (traits : Traits) (a : Allocator (Option Empty)) (memory : ObjectMemory T)
    (vector : VectorObject) (index amount : Nat) : Prop :=
  vector.mCount + amount ≤ vector.capacity traits memory.heap ∨
    (vector.mStorage.isSome ∧ vector.mCount = index ∧ traits.hasTrivialCopy ∧
        traits.hasTrivialDtor) ∧
      a.reallocBuffer (sizeMul (VectorImpl.growCapacity vector.mCount amount) traits.itemSize) ≠
        none ∧ a.moves = false

/-- What `_grow` does to the elements. -/
structure Grown (traits : Traits) (a : Allocator (Option Empty)) (memory : ObjectMemory T)
    (vector : VectorObject) (items : List T) (index amount : Nat) (after : ObjectMemory T)
    (storage : Option Nat) : Prop where
  edits : Edits traits memory after vector.mStorage storage
  gapped : Gapped traits after.objects storage items index amount
  fits : VectorObject.Fits traits after.heap ⟨storage, vector.mCount + amount⟩
  inPlace : storage = vector.mStorage ↔ GrowsInPlace traits a memory vector index amount
  stale : traits.hasTrivialDtor = true → storage = vector.mStorage → ∀ slot, index ≤ slot →
    slot < vector.mCount → slot < index + amount →
      after.objects.valueIn storage slot = memory.objects.valueIn vector.mStorage slot

section Grow

variable {index amount : Nat}

/-- Growing by a resized buffer, where the gap is at the end. -/
theorem grown_resized (lists : memory.Lists traits vector items)
    (exact' : ¬ vector.Overflows traits memory.heap amount)
    (full : vector.capacity traits memory.heap < vector.mCount + amount) {buf : Nat}
    (isBuf : vector.mStorage = some buf) (isCopy : traits.hasTrivialCopy = true)
    (isTrue : traits.hasTrivialDtor = true) {resized : Nat}
    (edits : Edits traits memory after vector.mStorage (some resized))
    (bytes : (after.heap.block resized).mSize =
      sizeMul (VectorImpl.growCapacity vector.mCount amount) traits.itemSize)
    (stays : (memory.heap.block buf).mSize ≠
        sizeMul (VectorImpl.growCapacity vector.mCount amount) traits.itemSize →
      (resized = buf ↔ a.reallocBuffer (sizeMul (VectorImpl.growCapacity vector.mCount amount)
        traits.itemSize) ≠ none ∧ a.moves = false))
    (same : ∀ k < min (memory.heap.block buf).mSize
        (sizeMul (VectorImpl.growCapacity vector.mCount amount) traits.itemSize) / traits.itemSize,
      after.objects.valueAt (resized, k) = memory.objects.valueAt (buf, k)) :
    Grown traits a memory vector items vector.mCount amount after (some resized) := by
  obtain ⟨smallBytes, enough⟩ := grow_bytes exact' full
  have room := lists.fits.room
  rw [capacity_some isBuf, Nat.le_div_iff_mul_le traits.positive] at room
  have within : vector.mCount ≤ min (memory.heap.block buf).mSize
      (sizeMul (VectorImpl.growCapacity vector.mCount amount) traits.itemSize) /
        traits.itemSize := by
    rw [Nat.le_div_iff_mul_le traits.positive, Nat.le_min]
    exact ⟨room, Nat.le_trans (Nat.mul_le_mul_right _ (Nat.le_add_right ..)) enough⟩
  have differs : (memory.heap.block buf).mSize ≠
      sizeMul (VectorImpl.growCapacity vector.mCount amount) traits.itemSize := by
    rw [capacity_some isBuf, Nat.div_lt_iff_lt_mul traits.positive] at full
    exact Nat.ne_of_lt (Nat.lt_of_lt_of_le full enough)
  refine ⟨edits, ⟨?_, ?_, fun isFalse => nomatch isFalse.symm.trans isTrue⟩, ?_, ?_,
    fun _ _ slot above below => absurd below (Nat.not_lt.mpr above)⟩
  · intro k bound
    have value := lists.values k bound
    rw [PlacedObjects.valueIn, isBuf] at value
    exact (same k (Nat.lt_of_lt_of_le bound within)).trans value
  · intro k above below
    exact absurd (lists.count ▸ below) (Nat.not_lt.mpr above)
  · exact .of_bytes (fun buf isBuf => (edits.swaps.held buf isBuf).1) rfl bytes smallBytes enough
  · rw [isBuf, Option.some_inj, stays differs, GrowsInPlace, isBuf]
    exact ⟨fun found => .inr ⟨⟨rfl, rfl, isCopy, isTrue⟩, found⟩,
      fun inPlace => (inPlace.resolve_left (Nat.not_le.mpr full)).2⟩

/-- Growing by copying the elements to a new buffer. -/
theorem grown_reallocated (lists : memory.Lists traits vector items)
    (exact' : ¬ vector.Overflows traits memory.heap amount)
    (full : vector.capacity traits memory.heap < vector.mCount + amount)
    (notResizable : ¬ (vector.mStorage.isSome ∧ vector.mCount = index ∧ traits.hasTrivialCopy ∧
      traits.hasTrivialDtor))
    (inside : index ≤ vector.mCount)
    (bytes : (after.heap.block memory.heap.allocated).mSize =
      sizeMul (VectorImpl.growCapacity vector.mCount amount) traits.itemSize)
    (moved : Reallocated traits memory vector items index index (index + amount)
      (vector.mCount - index) after) :
    Grown traits a memory vector items index amount after (some memory.heap.allocated) := by
  obtain ⟨smallBytes, enough⟩ := grow_bytes exact' full
  have count := lists.count
  have notOld : some memory.heap.allocated ≠ vector.mStorage :=
    fun isOld => (lists.fits.owns _ isOld.symm).ne_new rfl
  refine ⟨moved.edits, ⟨moved.front, ?_, ?_⟩, ?_, ⟨fun isOld => absurd isOld notOld, ?_⟩,
    fun _ isOld => absurd isOld notOld⟩
  · intro k above below
    have value := moved.back (k - index) (by omega)
    rwa [Nat.add_right_comm, Nat.add_sub_cancel' above] at value
  · rintro isFalse buf isNew slot gap
    cases isNew
    exact moved.raw slot (by omega) (by omega)
  · exact .of_bytes (fun buf isBuf => (moved.edits.swaps.held buf isBuf).1) rfl bytes smallBytes
      enough
  · rintro (roomy | ⟨resizable, -⟩)
    · exact absurd full (Nat.not_lt.mpr roomy)
    · exact absurd resizable notResizable

/-- Growing in place by moving the elements behind the gap. -/
theorem grown_shifted (ok : memory.Ok traits) (lists : memory.Lists traits vector items)
    (inside : index ≤ vector.mCount)
    (roomy : vector.mCount + amount ≤ vector.capacity traits memory.heap) {buf : Nat}
    (isBuf : vector.mStorage = some buf) {objects : PlacedObjects T}
    (moves : PlacedObjects.Moves traits buf (index + amount) index (vector.mCount - index)
      memory.objects objects) :
    Grown traits a memory vector items index amount ⟨memory.heap, objects⟩ vector.mStorage := by
  have count := lists.count
  have edits : Edits traits memory ⟨memory.heap, objects⟩ vector.mStorage vector.mStorage := by
    refine edits_inPlace ok lists.fits.owns (fun place notOld => ?_) moves.kept
      fun isFalse => moves.balanced isFalse (ok.balanced isFalse)
    apply moves.outside
    · exact fun isDest => notOld (isDest.1 ▸ isBuf)
    · exact fun isSource => notOld (isSource.1 ▸ isBuf)
  refine ⟨edits, ⟨?_, ?_, ?_⟩, lists.fits.count roomy, ⟨fun _ => .inl roomy, fun _ => rfl⟩, ?_⟩
  · intro k bound
    rw [← lists.values k (by omega), PlacedObjects.valueIn, PlacedObjects.valueIn, isBuf]
    apply Objects.valueAt_congr
    apply moves.outside
    · rw [within_slot]
      omega
    · rw [within_slot]
      omega
  · intro k above below
    have value := moves.moved (k - index) (by omega)
    rw [Nat.add_right_comm, Nat.add_sub_cancel' above] at value
    rw [← lists.values k (by omega), PlacedObjects.valueIn, PlacedObjects.valueIn, isBuf]
    exact value
  · intro isFalse buf' isBuf' slot gap
    cases isBuf.symm.trans isBuf'
    by_cases isSource : Within buf index (index + (vector.mCount - index)) (buf, slot)
    · apply moves.left isFalse _ isSource
      rw [within_slot] at isSource ⊢
      omega
    · rw [moves.outside _ _ isSource]
      · apply lists.raw isFalse buf isBuf
        rw [within_slot] at isSource
        omega
      · rw [within_slot]
        omega
  · intro isTrue _ slot _ _ gap
    rw [PlacedObjects.valueIn, PlacedObjects.valueIn, isBuf]
    apply Objects.valueAt_congr
    apply moves.stale isTrue
    rw [within_slot]
    omega

/-- Growing in place at the end. -/
theorem grown_kept (ok : memory.Ok traits) (lists : memory.Lists traits vector items)
    (roomy : vector.mCount + amount ≤ vector.capacity traits memory.heap) :
    Grown traits a memory vector items vector.mCount amount memory vector.mStorage := by
  have count := lists.count
  refine ⟨edits_inPlace ok lists.fits.owns (fun _ _ => rfl) (fun _ isDestroyed => isDestroyed)
    ok.balanced, ⟨lists.values, ?_, ?_⟩, lists.fits.count roomy,
    ⟨fun _ => .inl roomy, fun _ => rfl⟩,
    fun _ _ slot above below => absurd below (Nat.not_lt.mpr above)⟩
  · exact fun k above below => absurd (count ▸ below) (Nat.not_lt.mpr above)
  · exact fun isFalse buf isBuf slot gap => lists.raw isFalse buf isBuf slot (by omega)

/-- The slot of the first new element. -/
def slotOf (traits : Traits) (memory : ObjectMemory T) (storage : Option Nat) (count index : Nat) :
    Option Nat :=
  VectorObject.itemLocation traits memory.heap ⟨storage, count⟩ index

/-- `_grow` finds no memory, or makes a gap. -/
theorem grow_spec (ok : memory.Ok traits) (lists : memory.Lists traits vector items)
    (a : Allocator (Option Empty)) (inside : index ≤ vector.mCount)
    (exact' : ¬ vector.Overflows traits memory.heap amount)
    (shifts : vector.mCount + amount ≤ vector.capacity traits memory.heap →
      index ≠ vector.mCount → ∀ buf, vector.mStorage = some buf →
        PlacedObjects.ShiftsRight traits memory.objects buf (index + amount) index
          (vector.mCount - index)) :
    vector.GrowFails traits a memory.heap index amount ∧
        vector.capacity traits memory.heap < vector.mCount + amount ∧
        memory.grow traits a vector index amount = some (none, memory, vector) ∨
      ∃ after storage, memory.grow traits a vector index amount =
          some (slotOf traits after storage (vector.mCount + amount) index, after,
            ⟨storage, vector.mCount + amount⟩) ∧
        Grown traits a memory vector items index amount after storage := by
  have small := small_of_not_overflows exact'
  rw [ObjectMemory.grow]
  simp only [sizeAdd_eq small]
  split
  next full =>
    split
    next resizable =>
      obtain ⟨isSome, atEnd, isCopy, isTrue⟩ := resizable
      obtain ⟨buf, isBuf⟩ := Option.isSome_iff_exists.mp isSome
      subst atEnd
      rcases resizes ok lists isTrue isBuf a
          (sizeMul (VectorImpl.growCapacity vector.mCount amount) traits.itemSize)
          (fun _ => bufferBytes_pos (grow_bytes exact' full).1) with
        ⟨differs, noRealloc, noMalloc, some', failed⟩ |
          ⟨resized, after, isResized, edits, bytes, stays, same⟩
      · refine .inl ⟨⟨noMalloc, fun other isOther _ => ?_⟩, full, ?_⟩
        · cases isBuf.symm.trans isOther
          exact ⟨differs, noRealloc, some'⟩
        · simp only [isBuf, Option.map_some, failed]
      · refine .inr ⟨after, some resized, ?_, grown_resized lists exact' full isBuf isCopy isTrue
          edits bytes stays same⟩
        simp only [isBuf, Option.map_some, isResized]
        rfl
    next notResizable =>
      cases isMemory : a.mallocBuffer
          (sizeMul (VectorImpl.growCapacity vector.mCount amount) traits.itemSize) with
      | none =>
          refine .inl ⟨⟨isMemory, fun buf isBuf atEnd => ?_⟩, full, ?_⟩
          · exact absurd ⟨by rw [isBuf]; rfl, atEnd⟩ notResizable
          · simp only [Storage.alloc, isMemory]
      | some cells =>
          obtain ⟨objects, after, copied, adopted, bytes, moved⟩ := reallocates ok lists
            ⟨1, sizeMul (VectorImpl.growCapacity vector.mCount amount) traits.itemSize, cells⟩ rfl
            index index (index + amount) (vector.mCount - index) inside (by omega)
            (Nat.le_add_right ..)
          obtain ⟨middle, isMiddle, copied⟩ := Option.bind_eq_some_iff.mp copied
          refine .inr ⟨after, some memory.heap.allocated, ?_,
            grown_reallocated lists exact' full notResizable inside bytes moved⟩
          rw [alloc_found isMemory]
          simp only [Option.bind_eq_bind, isMiddle, Option.bind_some, copied, adopted]
          rfl
  next roomy =>
    have roomy := Nat.le_of_not_lt roomy
    rw [editArrayImpl_eq ok lists.fits.owns]
    by_cases atEnd : index = vector.mCount
    · subst atEnd
      refine .inr ⟨memory, vector.mStorage, ?_, grown_kept ok lists roomy⟩
      simp only [Option.bind_eq_bind, Option.bind_some, ne_eq, not_true, if_false]
      rfl
    · obtain ⟨buf, isBuf⟩ : ∃ buf, vector.mStorage = some buf := by
        cases isBuf : vector.mStorage with
        | none =>
            rw [VectorObject.capacity, isBuf] at roomy
            exact absurd (Nat.eq_zero_of_le_zero roomy) (by omega)
        | some buf => exact ⟨buf, rfl⟩
      have alive : ∀ k < vector.mCount - index, memory.objects.valueAt (buf, index + k) ≠ none := by
        intro k bound
        have alive := lists.alive (k := index + k) (by omega)
        rwa [PlacedObjects.valueIn, isBuf] at alive
      obtain ⟨objects, moved, moves⟩ := PlacedObjects.moveForwardType_moves memory.objects
        (shifts roomy atEnd buf isBuf) alive
        (fun isFalse place isDest notSource => by
          obtain ⟨other, slot⟩ := place
          obtain ⟨rfl, above, below⟩ := isDest
          apply lists.raw isFalse _ isBuf
          rw [within_slot] at notSource
          simp only at above below
          omega)
      refine .inr ⟨⟨memory.heap, objects⟩, vector.mStorage, ?_,
        grown_shifted ok lists inside roomy isBuf moves⟩
      simp only [Option.bind_eq_bind, Option.bind_some, ne_eq, atEnd, not_false_eq_true, if_true,
        isBuf, moved]
      rfl

end Grow

/-! ## Insertion -/

section Insert

variable {index amount : Nat} {value : T} {item : Item T}

/-- What is designated: a variable, or an element and not what lies behind the elements. -/
structure Designates (memory : ObjectMemory T) (vector : VectorObject) (item : Item T) (value : T) :
    Prop where
  isRead : item.read memory.objects = some value
  isElement : ∀ buf slot, item = .element buf slot → vector.mStorage = some buf →
    slot < vector.mCount

/-- What is designated is found there after `_grow` as well: it is no element of the Vector, or
the storage stays where it is, and the element is before the gap, or left in the gap without
being destroyed, or another with its value is moved over it. -/
def StaysReadable (traits : Traits) (a : Allocator (Option Empty)) (memory : ObjectMemory T)
    (vector : VectorObject) (index amount : Nat) : Item T → Prop
  | .outside _ => True
  | .element buf slot => vector.mStorage = some buf →
      GrowsInPlace traits a memory vector index amount ∧
        (slot < index ∨ slot < index + amount ∧ traits.hasTrivialDtor = true ∨
          index + amount ≤ slot ∧
            memory.objects.valueAt (buf, slot - amount) = memory.objects.valueAt (buf, slot))

/-- The elements with copies of a value in the gap. -/
def inserted (items : List T) (index amount : Nat) (value : T) : List T :=
  items.take index ++ List.replicate amount value ++ items.drop index

theorem inserted_getElem? (within : index ≤ items.length) (k : Nat) :
    (inserted items index amount value)[k]? =
      if k < index then items[k]? else if k < index + amount then some value
      else items[k - amount]? := by
  have front : (items.take index).length = index := by
    rw [List.length_take, Nat.min_eq_left within]
  rw [inserted, List.append_assoc]
  by_cases before : k < index
  · rw [if_pos before, List.getElem?_append_left (by omega), List.getElem?_take_of_lt before]
  · rw [if_neg before, List.getElem?_append_right (by omega), front]
    by_cases gap : k < index + amount
    · rw [if_pos gap, List.getElem?_append_left (by rw [List.length_replicate]; omega),
        List.getElem?_replicate_of_lt (by omega)]
    · rw [if_neg gap, List.getElem?_append_right (by rw [List.length_replicate]; omega),
        List.length_replicate, List.getElem?_drop]
      congr 1
      omega

theorem length_inserted (within : index ≤ items.length) :
    (inserted items index amount value).length = items.length + amount := by
  simp only [inserted, List.length_append, List.length_take, List.length_replicate,
    List.length_drop]
  omega

/-- An element is read where the storage stayed, as far as the moves leave it. -/
theorem Grown.read_element_iff {buf slot : Nat} (lists : memory.Lists traits vector items)
    (grown : Grown traits a memory vector items index amount after vector.mStorage)
    (isBuf : vector.mStorage = some buf) (isElement : slot < vector.mCount)
    (isRead : memory.objects.valueAt (buf, slot) = some value) :
    after.objects.valueAt (buf, slot) = some value ↔
      slot < index ∨ slot < index + amount ∧ traits.hasTrivialDtor = true ∨
        index + amount ≤ slot ∧
          memory.objects.valueAt (buf, slot - amount) = memory.objects.valueAt (buf, slot) := by
  have before : ∀ k < vector.mCount, memory.objects.valueAt (buf, k) = items[k]? := by
    intro k bound
    have value := lists.values k bound
    rwa [PlacedObjects.valueIn, isBuf] at value
  have there : ∀ {k : Nat}, after.objects.valueIn vector.mStorage k =
      after.objects.valueAt (buf, k) := by
    intro k
    rw [PlacedObjects.valueIn, isBuf]
    rfl
  by_cases isBefore : slot < index
  · have front := grown.gapped.front slot isBefore
    rw [there, ← before slot isElement, isRead] at front
    exact ⟨fun _ => .inl isBefore, fun _ => front⟩
  by_cases gap : slot < index + amount
  · cases isTrivial : traits.hasTrivialDtor with
    | true =>
        have stale := grown.stale isTrivial rfl slot (Nat.le_of_not_lt isBefore) isElement gap
        rw [there, PlacedObjects.valueIn, isBuf, Option.bind_some, isRead] at stale
        exact ⟨fun _ => .inr (.inl ⟨gap, rfl⟩), fun _ => stale⟩
    | false =>
        -- the slot is free for the new elements
        have raw := grown.gapped.raw isTrivial buf isBuf slot
          (.inl ⟨Nat.le_of_not_lt isBefore, gap⟩)
        rw [Objects.valueAt_eq_none.mpr raw]
        refine ⟨fun isRead => (by cases isRead), ?_⟩
        rintro (isBefore' | ⟨-, isTrue⟩ | ⟨behind, -⟩)
        · exact absurd isBefore' isBefore
        · cases isTrue
        · exact absurd gap (Nat.not_lt.mpr behind)
  · have behind := Nat.le_of_not_lt gap
    have back := grown.gapped.back (slot - amount) (by omega)
      (by rw [← lists.count]; omega)
    rw [there, Nat.sub_add_cancel (by omega), ← before _ (by omega)] at back
    rw [back, isRead]
    constructor
    · exact fun same => .inr (.inr ⟨behind, same⟩)
    · rintro (isBefore' | ⟨gap', -⟩ | ⟨-, same⟩)
      · exact absurd isBefore' isBefore
      · exact absurd gap' gap
      · exact same

/-- When the item can be read as before. -/
theorem Grown.read_iff {storage : Option Nat} (ok : memory.Ok traits)
    (lists : memory.Lists traits vector items)
    (grown : Grown traits a memory vector items index amount after storage)
    (designates : Designates memory vector item value) :
    item.read after.objects = some value ↔
      StaysReadable traits a memory vector index amount item := by
  have isRead := designates.isRead
  cases item with
  | outside _ => exact ⟨fun _ => trivial, fun _ => isRead⟩
  | element buf slot =>
      rw [Item.read] at isRead ⊢
      have isThere : memory.objects.objectAt (buf, slot) ≠ none := fun isNone => by
        rw [Objects.valueAt_eq_none.mpr isNone] at isRead
        cases isRead
      by_cases own : vector.mStorage = some buf
      · have isElement := designates.isElement buf slot rfl own
        by_cases stays : storage = vector.mStorage
        · have inPlace := grown.inPlace.mp stays
          subst stays
          rw [grown.read_element_iff lists own isElement isRead]
          exact ⟨fun found _ => ⟨inPlace, found⟩, fun readable => (readable own).2⟩
        · -- the buffer was released
          have dead : after.objects.objectAt (buf, slot) = none := by
            by_contra isAlive
            rcases grown.edits.swaps.owned buf (grown.edits.ok.placed _ isAlive) with
              ⟨-, notOld⟩ | isNew
            · exact notOld own
            · exact stays (isNew.trans own.symm)
          rw [Objects.valueAt_eq_none.mpr dead]
          exact ⟨fun isRead => (by cases isRead),
            fun readable => absurd (grown.inPlace.mpr (readable own).1) stays⟩
      · rw [Objects.valueAt_congr (grown.edits.frame _ (ok.placed _ isThere) own)]
        exact ⟨fun _ isOwn => absurd isOwn own, fun _ => isRead⟩

/-- The gap has a slot. -/
theorem Grown.place {storage : Option Nat} (grown : Grown traits a memory vector items index amount
    after storage) (inside : index ≤ vector.mCount) (some' : 0 < amount) :
    slotOf traits after storage (vector.mCount + amount) index = some index ∧
      ∃ buf, storage = some buf := by
  have room := grown.fits.room
  cases storage with
  | none => exact absurd (Nat.lt_of_lt_of_le (Nat.add_pos_right _ some') room) (Nat.lt_irrefl 0)
  | some buf =>
      simp only at room
      refine ⟨?_, buf, rfl⟩
      rw [slotOf, VectorObject.itemLocation, if_pos ⟨by omega, rfl⟩]

/-- There is no gap. -/
theorem Grown.lists {storage : Option Nat} (lists : memory.Lists traits vector items)
    (grown : Grown traits a memory vector items index 0 after storage) :
    after.Lists traits ⟨storage, vector.mCount⟩ items where
  fits := grown.fits
  count := lists.count
  values := by
    intro k bound
    by_cases before : k < index
    · exact grown.gapped.front k before
    · exact grown.gapped.back k (Nat.le_of_not_lt before) (lists.count ▸ bound)
  raw := by
    intro isFalse buf isBuf slot behind
    exact grown.gapped.raw isFalse buf isBuf slot (.inr (lists.count ▸ behind))

/-- The item is copied into the gap. -/
theorem Grown.filled {buf : Nat} (lists : memory.Lists traits vector items)
    (grown : Grown traits a memory vector items index amount after (some buf))
    (inside : index ≤ vector.mCount) (isRead : item.read after.objects = some value) :
    ∃ objects, PlacedObjects.splatType traits buf index item amount after.objects = some objects ∧
      Edits traits memory ⟨after.heap, objects⟩ vector.mStorage (some buf) ∧
      Lists traits ⟨after.heap, objects⟩ ⟨some buf, vector.mCount + amount⟩
        (inserted items index amount value) := by
  have count := lists.count
  obtain ⟨objects, isSplat, fills⟩ :=
    PlacedObjects.splatType_fills traits isRead buf index amount
  have within : index ≤ items.length := count ▸ inside
  have isRaw : traits.hasTrivialDtor = false → ∀ place, Within buf index (index + amount) place →
      after.objects.objectAt place = none := by
    rintro isFalse ⟨_, slot⟩ ⟨rfl, gap⟩
    exact grown.gapped.raw isFalse _ rfl slot (.inl gap)
  have stored : Edits traits after ⟨after.heap, objects⟩ (some buf) (some buf) := by
    refine edits_inPlace grown.edits.ok grown.fits.owns (fun place notBuf => ?_) fills.kept
      fun isFalse => fills.balanced (isRaw isFalse) (grown.edits.ok.balanced isFalse)
    exact fills.outside place fun isInside => notBuf (congrArg some isInside.1.symm)
  refine ⟨objects, isSplat, grown.edits.trans stored, grown.fits, ?_, ?_, ?_⟩
  · rw [length_inserted within, ← count]
  · intro k bound
    simp only at bound
    rw [inserted_getElem? within]
    by_cases gap : Within buf index (index + amount) (buf, k)
    · have isInside := within_slot.mp gap
      rw [if_neg (by omega), if_pos isInside.2]
      exact fills.inside _ gap
    · have same : PlacedObjects.valueIn objects (some buf) k =
          PlacedObjects.valueIn after.objects (some buf) k :=
        Objects.valueAt_congr (fills.outside _ gap)
      rw [same]
      rw [within_slot] at gap
      by_cases before : k < index
      · rw [if_pos before, grown.gapped.front k before]
      · rw [if_neg before, if_neg (by omega)]
        have value := grown.gapped.back (k - amount) (by omega) (by omega)
        rwa [Nat.sub_add_cancel (by omega)] at value
  · intro isFalse buf' isBuf slot behind
    cases isBuf
    simp only at behind
    rw [fills.outside]
    · exact grown.gapped.raw isFalse _ rfl slot (.inr (by omega))
    · rw [within_slot]
      omega

/-- A loop that moves elements up moves them right. -/
theorem shifts_up (some' : 0 < amount) (num buf : Nat) :
    PlacedObjects.ShiftsRight traits memory.objects buf (index + amount) index num :=
  .inr (.inl (Nat.lt_add_of_pos_right some'))

/-- An insertion that finds memory. -/
theorem insertAt_spec (ok : memory.Ok traits) (lists : memory.Lists traits vector items)
    (a : Allocator (Option Empty)) (inside : index ≤ vector.mCount) (some' : 0 < amount)
    (exact' : ¬ vector.Overflows traits memory.heap amount)
    (found : ¬ vector.GrowFails traits a memory.heap index amount)
    (designates : Designates memory vector item value)
    (readable : StaysReadable traits a memory vector index amount item) :
    ∃ after storage, memory.insertAt traits a vector item index amount =
        some (toSsize index, after, ⟨storage, vector.mCount + amount⟩) ∧
      Edits traits memory after vector.mStorage storage ∧
      after.Lists traits ⟨storage, vector.mCount + amount⟩ (inserted items index amount value) := by
  rw [ObjectMemory.insertAt, if_neg (Nat.not_lt.mpr inside)]
  rcases grow_spec ok lists a inside exact' (fun _ _ buf _ => shifts_up some' _ buf) with
    ⟨fails, -⟩ | ⟨after, storage, isGrown, grown⟩
  · exact absurd fails found
  · obtain ⟨isPlace, buf, rfl⟩ := grown.place inside some'
    obtain ⟨objects, isSplat, edits, filled⟩ :=
      grown.filled lists inside ((grown.read_iff ok lists designates).mpr readable)
    refine ⟨⟨after.heap, objects⟩, some buf, ?_, edits, filled⟩
    simp only [isGrown, isPlace, Option.bind_eq_bind, Option.bind_some, isSplat]
    rfl

/-- The item was read as before where its value is found in the gap. -/
theorem readable_of_inserted (ok : memory.Ok traits) (lists : memory.Lists traits vector items)
    (inside : index ≤ vector.mCount) (some' : 0 < amount)
    (exact' : ¬ vector.Overflows traits memory.heap amount)
    (found : ¬ vector.GrowFails traits a memory.heap index amount)
    (designates : Designates memory vector item value)
    {result : Int × ObjectMemory T × VectorObject}
    (isInserted : memory.insertAt traits a vector item index amount = some result)
    (isValue : result.2.1.objects.valueIn result.2.2.mStorage index = some value) :
    StaysReadable traits a memory vector index amount item := by
  rw [ObjectMemory.insertAt, if_neg (Nat.not_lt.mpr inside)] at isInserted
  rcases grow_spec ok lists a inside exact' (fun _ _ buf _ => shifts_up some' _ buf) with
    ⟨fails, -⟩ | ⟨after, storage, isGrown, grown⟩
  · exact absurd fails found
  · obtain ⟨isPlace, buf, rfl⟩ := grown.place inside some'
    rw [isGrown, isPlace] at isInserted
    simp only [Option.bind_eq_bind, Option.bind_some] at isInserted
    cases isRead : item.read after.objects with
    | none =>
        rw [← Nat.succ_pred_eq_of_pos some', PlacedObjects.splatType_dead isRead] at isInserted
        cases isInserted
    | some other =>
        obtain ⟨objects, isSplat, -, filled⟩ := grown.filled lists inside isRead
        rw [isSplat] at isInserted
        cases isInserted
        have first := filled.values index
          (Nat.lt_of_le_of_lt inside (Nat.lt_add_of_pos_right some'))
        rw [inserted_getElem? (lists.count ▸ inside), if_neg (Nat.lt_irrefl index),
          if_pos (Nat.lt_add_of_pos_right some')] at first
        cases isValue.symm.trans first
        exact (grown.read_iff ok lists designates).mp isRead

/-- `_grow` finds no memory for sizes that may overflow. -/
theorem grow_fails (ok : memory.Ok traits) (owns : vector.Owns memory.heap)
    (small : vector.mCount + amount < 2 ^ 64)
    (full : vector.capacity traits memory.heap < vector.mCount + amount)
    (fails : vector.GrowFails traits a memory.heap index amount) :
    memory.grow traits a vector index amount = some (none, memory, vector) := by
  rw [ObjectMemory.grow]
  simp only [sizeAdd_eq small, if_pos full]
  split
  next resizable =>
    obtain ⟨isSome, atEnd, isCopy, isTrue⟩ := resizable
    obtain ⟨buf, isBuf⟩ := Option.isSome_iff_exists.mp isSome
    obtain ⟨differs, noRealloc, some'⟩ := fails.2 buf isBuf ⟨atEnd, isCopy, isTrue⟩
    have failed : memory.editResize traits a buf
        (sizeMul (VectorImpl.growCapacity vector.mCount amount) traits.itemSize) =
          (none, memory) := by
      rw [ObjectMemory.editResize, Storage.editResize,
        if_pos (ok.exclusive.onlyOwner (owns buf isBuf)), if_neg differs, noRealloc]
      simp only [if_neg (Nat.ne_of_gt some'), Storage.replace, fails.1]
    simp only [isBuf, Option.map_some, failed]
  next =>
    simp only [Storage.alloc, fails.1]

/-- The condition on an insertion: sizes that overflow are refused, the item is alive and found
where it was, and a gap of nothing is not made by a loop that destroys what it moves. -/
structure InsertsRight (traits : Traits) (a : Allocator (Option Empty)) (memory : ObjectMemory T)
    (vector : VectorObject) (item : Item T) (index amount : Nat) : Prop where
  sizes : vector.Overflows traits memory.heap amount →
    vector.RefusesInsertion traits a memory.heap index amount
  shifts : amount = 0 → index < vector.mCount →
    traits.useTrivialMove = true ∨ traits.hasTrivialDtor = true
  alive : 0 < amount → ∃ value, Designates memory vector item value
  readable : 0 < amount → StaysReadable traits a memory vector index amount item

/-- An insertion, whatever becomes of it. -/
theorem insertAt_edits (ok : memory.Ok traits) (lists : memory.Lists traits vector items)
    (right : InsertsRight traits a memory vector item index amount)
    {result : Int × ObjectMemory T × VectorObject}
    (isInserted : memory.insertAt traits a vector item index amount = some result) :
    Edits traits memory result.2.1 vector.mStorage result.2.2.mStorage ∧
      ∃ items, result.2.1.Lists traits result.2.2 items := by
  have same : Edits traits memory memory vector.mStorage vector.mStorage ∧
      ∃ items, memory.Lists traits vector items :=
    ⟨.refl ok lists.fits.owns, items, lists⟩
  by_cases beyond : index > vector.mCount
  · rw [ObjectMemory.insertAt, if_pos beyond] at isInserted
    cases isInserted
    exact same
  have inside := Nat.le_of_not_lt beyond
  by_cases overflows : vector.Overflows traits memory.heap amount
  · -- the wrapped allocation is refused
    obtain ⟨small, fails⟩ := (right.sizes overflows).resolve_left beyond
    have full := (overflows.resolve_left (Nat.not_le.mpr small)).1
    rw [ObjectMemory.insertAt, if_neg beyond,
      grow_fails ok lists.fits.owns small full fails] at isInserted
    cases isInserted
    exact same
  have shifts : index ≠ vector.mCount → ∀ buf, vector.mStorage = some buf →
      PlacedObjects.ShiftsRight traits memory.objects buf (index + amount) index
        (vector.mCount - index) := by
    intro notEnd buf _
    rcases Nat.eq_zero_or_pos amount with rfl | some'
    · rcases right.shifts rfl (Nat.lt_of_le_of_ne inside notEnd) with isMove | isTrue
      · exact .inl isMove
      · refine .inr (.inr (.inr ⟨isTrue, fun slot _ _ => ?_⟩))
        rw [Nat.add_zero, Nat.sub_self, Nat.add_zero]
    · exact shifts_up some' _ buf
  rw [ObjectMemory.insertAt, if_neg beyond] at isInserted
  rcases grow_spec ok lists a inside overflows (fun _ => shifts) with
    ⟨-, -, isGrown⟩ | ⟨after, storage, isGrown, grown⟩
  · rw [isGrown] at isInserted
    cases isInserted
    exact same
  · rw [isGrown] at isInserted
    rcases Nat.eq_zero_or_pos amount with rfl | some'
    · have unfilled : result.2 = (after, ⟨storage, vector.mCount⟩) := by
        cases isPlace : slotOf traits after storage (vector.mCount + 0) index with
        | none =>
            rw [isPlace] at isInserted
            cases isInserted
            rfl
        | some place =>
            rw [isPlace] at isInserted
            simp only [Option.bind_eq_bind, Option.bind_some] at isInserted
            obtain ⟨buf, -, done⟩ := Option.bind_eq_some_iff.mp isInserted
            cases done
            rfl
      rw [unfilled]
      exact ⟨grown.edits, items, grown.lists lists⟩
    · obtain ⟨isPlace, buf, rfl⟩ := grown.place inside some'
      obtain ⟨value, designates⟩ := right.alive some'
      have isRead := (grown.read_iff ok lists designates).mpr (right.readable some')
      obtain ⟨objects, isSplat, edits, filled⟩ := grown.filled lists inside isRead
      simp only [isPlace, Option.bind_eq_bind, Option.bind_some, isSplat] at isInserted
      cases isInserted
      exact ⟨edits, _, filled⟩

end Insert

end ObjectMemory

end DroidKernal.Utils
