import DroidKernal.Utils.ElementMoves

/-!
# The elements of a Vector as a list

What every operation on a Vector does to its elements, and that it leaves no object behind
and destroys none twice, as long as it moves elements by a loop that moves them right.
-/

namespace DroidKernal.Utils

open Lib

variable {T : Type}

/-! ## The heap -/

section Heap

variable {heap : VectorStorage Empty} {vector : VectorObject} {traits : Traits}
  {a : Allocator (Option Empty)}

/-- There is nothing to store into the cells. -/
theorem set_cells (buf : Nat) (filled : Slots Empty) :
    heap.set buf { heap.block buf with cells := filled } = heap := by
  have same : filled = (heap.block buf).cells := Subsingleton.elim ..
  subst same
  exact congrArg (Blocks.mk · _ _) (Function.update_eq_self ..)

theorem setSlots_heap (slots : Slots Empty) : vector.setSlots heap slots = heap := by
  rw [VectorObject.setSlots]
  cases vector.mStorage with
  | none => rfl
  | some buf => exact set_cells buf slots

/-- What is released and taken over. -/
theorem adopt_heap (buf : Nat) (filled : Slots Empty) :
    vector.adopt traits heap buf filled =
      (vector.releaseStorage traits heap, { vector with mStorage := some buf }) := by
  simp only [VectorObject.adopt, set_cells]

end Heap

namespace ObjectMemory

variable {memory after : ObjectMemory T} {vector vector' : VectorObject} {traits : Traits}
  {a : Allocator (Option Empty)}

theorem releaseStorage_heap (released : memory.releaseStorage traits vector = some after) :
    after.heap = vector.releaseStorage traits memory.heap := by
  rw [ObjectMemory.releaseStorage] at released
  rw [VectorObject.releaseStorage]
  cases isBuf : vector.mStorage with
  | none =>
      rw [isBuf] at released
      cases released
      rfl
  | some buf =>
      rw [isBuf] at released
      simp only at released ⊢
      split at released
      next one =>
        obtain ⟨objects, _, done⟩ := Option.bind_eq_some_iff.mp released
        cases done
        rw [if_pos one, setSlots_heap]
      next notOne =>
        cases released
        rw [if_neg notOne]

/-! ## States in order -/

/-- Every buffer has one owner, objects are in buffers in use only, and each object that was
constructed is alive at one place or was destroyed once. -/
structure Ok (traits : Traits) (memory : ObjectMemory T) : Prop where
  exclusive : memory.heap.Exclusive
  placed : ∀ place, memory.objects.objectAt place ≠ none → memory.heap.Live place.1
  balanced : traits.hasTrivialDtor = false → memory.objects.Balanced

/-- The Vector has these elements, and nothing behind them that would have to be destroyed. -/
structure Lists (traits : Traits) (memory : ObjectMemory T) (vector : VectorObject)
    (items : List T) : Prop where
  fits : vector.Fits traits memory.heap
  count : vector.mCount = items.length
  values : ∀ k < vector.mCount, memory.objects.valueIn vector.mStorage k = items[k]?
  raw : traits.hasTrivialDtor = false → ∀ buf, vector.mStorage = some buf →
    ∀ slot, vector.mCount ≤ slot → memory.objects.objectAt (buf, slot) = none

/-- What an operation on a Vector with storage `old` leaves it with: storage `new`, and all
else as it was. -/
structure Edits (traits : Traits) (memory after : ObjectMemory T) (old new : Option Nat) :
    Prop where
  swaps : Swaps memory.heap after.heap old new
  frame : ∀ place, memory.heap.Live place.1 → old ≠ some place.1 →
    after.objects.objectAt place = memory.objects.objectAt place
  kept : ∀ id ∈ memory.objects.destroyed, id ∈ after.objects.destroyed
  ok : after.Ok traits

variable {items : List T}

theorem Lists.alive (lists : memory.Lists traits vector items) {k : Nat}
    (bound : k < vector.mCount) : memory.objects.valueIn vector.mStorage k ≠ none := by
  rw [lists.values k bound, List.getElem?_eq_getElem (lists.count ▸ bound)]
  exact Option.some_ne_none _

theorem Lists.alive_at (lists : memory.Lists traits vector items) {buf k : Nat}
    (isBuf : vector.mStorage = some buf) (bound : k < vector.mCount) :
    memory.objects.objectAt (buf, k) ≠ none := by
  have alive := lists.alive bound
  rw [PlacedObjects.valueIn, isBuf] at alive
  exact fun isNone => alive (Objects.valueAt_eq_none.mpr isNone)

/-- What releasing the storage of a Vector does to the objects. -/
structure Releases (traits : Traits) (vector : VectorObject) (memory after : ObjectMemory T) :
    Prop where
  heap : after.heap = vector.releaseStorage traits memory.heap
  others : ∀ place, vector.mStorage ≠ some place.1 →
    after.objects.objectAt place = memory.objects.objectAt place
  gone : ∀ place, vector.mStorage = some place.1 → after.objects.objectAt place = none
  kept : ∀ id ∈ memory.objects.destroyed, id ∈ after.objects.destroyed
  ended : traits.hasTrivialDtor = false → ∀ place object, vector.mStorage = some place.1 →
    place.2 < vector.mCount → memory.objects.objectAt place = some object →
      object.id ∈ after.objects.destroyed
  balanced : traits.hasTrivialDtor = false → memory.objects.Balanced → after.objects.Balanced

theorem releases (traits : Traits) (memory : ObjectMemory T) (vector : VectorObject)
    (exclusive : memory.heap.Exclusive) (owns : vector.Owns memory.heap)
    (alive : ∀ buf, vector.mStorage = some buf → ∀ k < vector.mCount,
      memory.objects.objectAt (buf, k) ≠ none)
    (raw : traits.hasTrivialDtor = false → ∀ buf, vector.mStorage = some buf →
      ∀ slot, vector.mCount ≤ slot → memory.objects.objectAt (buf, slot) = none) :
    ∃ after, memory.releaseStorage traits vector = some after ∧
      Releases traits vector memory after := by
  cases isBuf : vector.mStorage with
  | none =>
      have released : memory.releaseStorage traits vector = some memory := by
        rw [ObjectMemory.releaseStorage, isBuf]
      exact ⟨memory, released, {
        heap := releaseStorage_heap released
        others := fun _ _ => rfl
        gone := fun place isPlace => nomatch isBuf.symm.trans isPlace
        kept := fun _ isDestroyed => isDestroyed
        ended := fun _ place _ isPlace => nomatch isBuf.symm.trans isPlace
        balanced := fun _ balanced => balanced }⟩
  | some buf =>
      have one := exclusive.onlyOwner (owns buf isBuf)
      obtain ⟨ended, destroyed, ends⟩ := PlacedObjects.destroyType_ends traits memory.objects buf 0
        vector.mCount fun k bound => by
          rw [Nat.zero_add]
          exact alive buf isBuf k bound
      have released : memory.releaseStorage traits vector = some
          ⟨(Storage.release memory.heap buf true).2.free buf, ended.dealloc buf⟩ := by
        rw [ObjectMemory.releaseStorage, isBuf]
        simp only [Storage.release, one, if_true, destroyed]
        rfl
      have elsewhere : ∀ place : Place, place.1 ≠ buf →
          (ended.dealloc buf).objectAt place = memory.objects.objectAt place := by
        intro place differs
        rw [PlacedObjects.dealloc_objectAt, if_neg differs]
        exact ends.outside fun inside => differs inside.1
      refine ⟨_, released, {
        heap := releaseStorage_heap released
        others := fun place notBuf => elsewhere place fun same => notBuf (same ▸ isBuf)
        gone := ?_
        kept := ends.kept
        ended := ?_
        balanced := ?_ }⟩
      · intro place isPlace
        cases isBuf.symm.trans isPlace
        rw [PlacedObjects.dealloc_objectAt, if_pos rfl]
      · rintro isFalse ⟨other, slot⟩ object isPlace bound isThere
        cases isBuf.symm.trans isPlace
        refine (ends.clears isFalse).ended _ object ?_ isThere
        exact ⟨rfl, Nat.zero_le _, by rw [Nat.zero_add]; exact bound⟩
      · intro isFalse balanced
        refine PlacedObjects.dealloc_balanced (fun slot => ?_)
          ((ends.clears isFalse).balanced balanced)
        by_cases bound : slot < vector.mCount
        · exact (ends.clears isFalse).inside (buf, slot)
            ⟨rfl, Nat.zero_le _, by rw [Nat.zero_add]; exact bound⟩
        · rw [(ends.clears isFalse).outside]
          · exact raw isFalse buf isBuf slot (Nat.le_of_not_lt bound)
          · rintro ⟨-, -, inside⟩
            rw [Nat.zero_add] at inside
            exact bound inside

/-- The elements of a Vector whose storage goes away are destroyed. -/
def Ended (traits : Traits) (memory : ObjectMemory T) (vector : VectorObject)
    (after : ObjectMemory T) : Prop :=
  traits.hasTrivialDtor = false → ∀ place object, vector.mStorage = some place.1 →
    place.2 < vector.mCount → memory.objects.objectAt place = some object →
      object.id ∈ after.objects.destroyed

/-- The Vector takes over a new buffer, and releases the old one with its elements. -/
theorem adopt_edits (ok : memory.Ok traits) (lists : memory.Lists traits vector items)
    {buffer : CountedBuffer (Option Empty)} (one : buffer.mRefs = 1) {objects : PlacedObjects T}
    (frame : ∀ place, place.1 ≠ memory.heap.allocated →
      objects.objectAt place = memory.objects.objectAt place)
    (kept : ∀ id ∈ memory.objects.destroyed, id ∈ objects.destroyed)
    (balanced : traits.hasTrivialDtor = false → objects.Balanced) :
    ∃ after, adopt traits ⟨memory.heap.add buffer, objects⟩ vector memory.heap.allocated =
        some (after, ⟨some memory.heap.allocated, vector.mCount⟩) ∧
      Edits traits memory after vector.mStorage (some memory.heap.allocated) ∧
      (∀ slot, after.objects.objectAt (memory.heap.allocated, slot) =
        objects.objectAt (memory.heap.allocated, slot)) ∧
      (after.heap.block memory.heap.allocated).mSize = buffer.mSize ∧
      Ended traits memory vector after := by
  have owns := lists.fits.owns
  have oldPlace : ∀ buf, vector.mStorage = some buf → buf ≠ memory.heap.allocated :=
    fun buf isBuf => (owns buf isBuf).ne_new
  obtain ⟨after, released, spec⟩ := releases traits ⟨memory.heap.add buffer, objects⟩ vector
    (ok.exclusive.add one)
    (fun buf isBuf => (owns buf isBuf).add)
    (fun buf isBuf k bound => by
      rw [frame _ (oldPlace buf isBuf)]
      exact lists.alive_at isBuf bound)
    (fun isFalse buf isBuf slot behind => by
      rw [frame _ (oldPlace buf isBuf)]
      exact lists.raw isFalse buf isBuf slot behind)
  have isHeap : after.heap = (vector.adopt traits (memory.heap.add buffer) memory.heap.allocated
      buffer.cells).1 := by
    rw [adopt_heap]
    exact spec.heap
  have swaps : Swaps memory.heap after.heap vector.mStorage (some memory.heap.allocated) := by
    rw [isHeap]
    exact Swaps.adopt ok.exclusive owns one buffer.cells
  have newPlace : ∀ place : Place, place.1 = memory.heap.allocated →
      vector.mStorage ≠ some place.1 :=
    fun place isNew isOld => oldPlace place.1 isOld isNew
  refine ⟨after, ?_, ⟨swaps, ?_, ?_, swaps.exclusive, ?_, ?_⟩, ?_, ?_, ?_⟩
  · rw [adopt, released]
    rfl
  · intro place live notOld
    rw [spec.others place notOld, frame place live.ne_new]
  · exact fun id isDestroyed => spec.kept id (kept id isDestroyed)
  · intro place isThere
    have notOld : vector.mStorage ≠ some place.1 := fun isOld => isThere (spec.gone place isOld)
    by_cases isNew : place.1 = memory.heap.allocated
    · exact isNew ▸ (swaps.held _ rfl).1
    · rw [spec.others place notOld, frame place isNew] at isThere
      exact (swaps.kept place.1 (ok.placed place isThere) notOld).1
  · exact fun isFalse => spec.balanced isFalse (balanced isFalse)
  · exact fun slot => spec.others _ (newPlace _ rfl)
  · rw [isHeap, adopt_block ok.exclusive owns one]
  · intro isFalse place object isOld bound isThere
    refine spec.ended isFalse place object isOld bound ?_
    rw [frame place (oldPlace _ isOld)]
    exact isThere

theorem Ok.raw_new (ok : memory.Ok traits) (slot : Nat) :
    memory.objects.objectAt (memory.heap.allocated, slot) = none := by
  by_contra isThere
  exact (ok.placed _ isThere).ne_new rfl

/-- What two segments of the elements hold in their new slots. -/
def segments (items : List T) (index start dest : Nat) (place : Place) : Option T :=
  if place.2 < index then items[place.2]? else items[start + (place.2 - dest)]?

/-- Two segments of the elements are copied to a new buffer. -/
theorem copies (lists : memory.Lists traits vector items)
    {index start dest num : Nat} (first : index ≤ vector.mCount)
    (second : start + num ≤ vector.mCount) (apart : index ≤ dest) :
    ∃ objects, (PlacedObjects.copyType vector.mStorage 0 memory.heap.allocated 0 index
        memory.objects).bind
          (PlacedObjects.copyType vector.mStorage start memory.heap.allocated dest num) =
        some objects ∧
      Objects.Fills
        (fun place => Within memory.heap.allocated 0 index place ∨
          Within memory.heap.allocated dest (dest + num) place)
        (segments items index start dest) memory.objects objects := by
  have notNew : vector.mStorage ≠ some memory.heap.allocated :=
    fun isNew => (lists.fits.owns _ isNew).ne_new rfl
  obtain ⟨middle, isMiddle, fills⟩ := PlacedObjects.copyType_fills memory.objects notNew 0 0 index
    fun k bound => by
      rw [Nat.zero_add]
      exact lists.alive (Nat.lt_of_lt_of_le bound first)
  have sourceKept : ∀ k, middle.valueIn vector.mStorage k =
      memory.objects.valueIn vector.mStorage k := by
    intro k
    cases isBuf : vector.mStorage with
    | none => rfl
    | some buf =>
        refine Objects.valueAt_congr (fills.outside _ ?_)
        rintro ⟨isNew, -⟩
        exact notNew (isBuf.trans (congrArg some isNew))
  obtain ⟨objects, isObjects, fills'⟩ := PlacedObjects.copyType_fills middle notNew start dest num
    fun k bound => by
      rw [sourceKept]
      exact lists.alive (by omega)
  have front : Objects.Fills (Within memory.heap.allocated 0 (0 + index))
      (segments items index start dest) memory.objects middle := by
    refine fills.congr_value ?_
    rintro place ⟨-, above, below⟩
    rw [Nat.zero_add] at below ⊢
    rw [Nat.sub_zero, lists.values _ (Nat.lt_of_lt_of_le below first), segments, if_pos below]
  have back : Objects.Fills (Within memory.heap.allocated dest (dest + num))
      (segments items index start dest) middle objects := by
    refine fills'.congr_value ?_
    rintro place ⟨-, above, below⟩
    rw [sourceKept, lists.values _ (by omega), segments, if_neg (by omega)]
  refine ⟨objects, by rw [isMiddle]; exact isObjects, ?_⟩
  refine (front.trans back ?_).congr fun place => by rw [Nat.zero_add]
  rintro place ⟨-, above, -⟩ ⟨-, -, below⟩
  omega

/-- The elements are copied to a new buffer, with a gap or without some of them. -/
structure Reallocated (traits : Traits) (memory : ObjectMemory T) (vector : VectorObject)
    (items : List T) (index start dest num : Nat) (after : ObjectMemory T) : Prop where
  edits : Edits traits memory after vector.mStorage (some memory.heap.allocated)
  front : ∀ k < index, after.objects.valueAt (memory.heap.allocated, k) = items[k]?
  back : ∀ k < num, after.objects.valueAt (memory.heap.allocated, dest + k) = items[start + k]?
  raw : ∀ slot, index ≤ slot → ¬ (dest ≤ slot ∧ slot < dest + num) →
    after.objects.objectAt (memory.heap.allocated, slot) = none
  ended : Ended traits memory vector after

theorem reallocates (ok : memory.Ok traits) (lists : memory.Lists traits vector items)
    (buffer : CountedBuffer (Option Empty)) (one : buffer.mRefs = 1)
    (index start dest num : Nat) (first : index ≤ vector.mCount)
    (second : start + num ≤ vector.mCount) (apart : index ≤ dest) :
    ∃ objects after, (PlacedObjects.copyType vector.mStorage 0 memory.heap.allocated 0 index
        memory.objects).bind
          (PlacedObjects.copyType vector.mStorage start memory.heap.allocated dest num) =
        some objects ∧
      adopt traits ⟨memory.heap.add buffer, objects⟩ vector memory.heap.allocated =
        some (after, ⟨some memory.heap.allocated, vector.mCount⟩) ∧
      (after.heap.block memory.heap.allocated).mSize = buffer.mSize ∧
      Reallocated traits memory vector items index start dest num after := by
  obtain ⟨objects, copied, fills⟩ := copies lists first second apart
  have elsewhere : ∀ place : Place, place.1 ≠ memory.heap.allocated →
      objects.objectAt place = memory.objects.objectAt place := by
    intro place differs
    apply fills.outside
    rintro (⟨isNew, -⟩ | ⟨isNew, -⟩)
    · exact differs isNew
    · exact differs isNew
  have rawRegion : ∀ place : Place, Within memory.heap.allocated 0 index place ∨
      Within memory.heap.allocated dest (dest + num) place →
        memory.objects.objectAt place = none := by
    rintro ⟨buf, slot⟩ (⟨isNew, -⟩ | ⟨isNew, -⟩)
    · cases isNew
      exact ok.raw_new slot
    · cases isNew
      exact ok.raw_new slot
  obtain ⟨after, adopted, edits, same, bytes, ended⟩ := adopt_edits ok lists one elsewhere
    fills.kept fun isFalse => fills.balanced rawRegion (ok.balanced isFalse)
  refine ⟨objects, after, copied, adopted, bytes, edits, ?_, ?_, ?_, ended⟩
  · intro k bound
    rw [Objects.valueAt_congr (same k), fills.inside _ (.inl ⟨rfl, Nat.zero_le k, bound⟩),
      segments, if_pos bound]
  · intro k bound
    have inBack : Within memory.heap.allocated dest (dest + num)
        (memory.heap.allocated, dest + k) := within_slot.mpr (by omega)
    rw [Objects.valueAt_congr (same _), fills.inside _ (.inr inBack), segments,
      if_neg (by omega), Nat.add_sub_cancel_left]
  · intro slot behind notBack
    rw [same, fills.outside, ok.raw_new]
    rintro (⟨-, -, below⟩ | ⟨-, above, below⟩)
    · exact Nat.not_lt.mpr behind below
    · exact notBack ⟨above, below⟩

/-- Resized memory stays where it is just if `realloc` finds it there. -/
theorem editResize_stays_iff {heap : VectorStorage Empty} {buf resized newSize : Nat}
    (exclusive : heap.Exclusive) (live : heap.Live buf) (keeps : a.KeepsBuffer newSize)
    (differs : (heap.block buf).mSize ≠ newSize)
    (isResized : (Storage.editResize a traits.itemSize heap buf newSize).1 = some resized) :
    resized = buf ↔ a.reallocBuffer newSize ≠ none ∧ a.moves = false := by
  rw [Storage.editResize, if_pos (exclusive.onlyOwner live), if_neg differs] at isResized
  cases isFound : a.reallocBuffer newSize with
  | some cells =>
      rw [isFound] at isResized
      cases isMoved : a.moves with
      | true =>
          simp only [isMoved, if_true] at isResized
          cases isResized
          exact ⟨fun same => absurd same.symm live.ne_new,
            fun isStrange => absurd isStrange.2.symm Bool.false_ne_true⟩
      | false =>
          simp only [isMoved] at isResized
          cases isResized
          exact ⟨fun _ => ⟨Option.some_ne_none cells, rfl⟩, fun _ => rfl⟩
  | none =>
      rw [isFound] at isResized
      have isNew : resized = heap.allocated := by
        simp only [if_neg (Nat.ne_of_gt (keeps isFound)), Storage.replace] at isResized
        split at isResized
        next => exact (Option.some.inj isResized).symm
        next => cases isResized
      rw [isNew]
      exact ⟨fun same => absurd same.symm live.ne_new, fun both => absurd rfl both.1⟩

/-- Resizing a buffer whose elements are bytes. -/
theorem resizes (ok : memory.Ok traits) (lists : memory.Lists traits vector items)
    (isTrue : traits.hasTrivialDtor = true) {buf : Nat} (isBuf : vector.mStorage = some buf)
    (a : Allocator (Option Empty)) (newSize : Nat) (keeps : a.KeepsBuffer newSize) :
    ((memory.heap.block buf).mSize ≠ newSize ∧ a.reallocBuffer newSize = none ∧
        a.mallocBuffer newSize = none ∧ 0 < bufferBytes newSize ∧
        memory.editResize traits a buf newSize = (none, memory)) ∨
      ∃ resized after, memory.editResize traits a buf newSize = (some resized, after) ∧
        Edits traits memory after vector.mStorage (some resized) ∧
        (after.heap.block resized).mSize = newSize ∧
        ((memory.heap.block buf).mSize ≠ newSize →
          (resized = buf ↔ a.reallocBuffer newSize ≠ none ∧ a.moves = false)) ∧
        ∀ k < min (memory.heap.block buf).mSize newSize / traits.itemSize,
          after.objects.valueAt (resized, k) = memory.objects.valueAt (buf, k) := by
  have live := lists.fits.owns buf isBuf
  have swaps := Swaps.resized ok.exclusive lists.fits.owns isBuf
    (ok.exclusive.editResize_resizes live a traits.itemSize newSize keeps)
  rw [editResize]
  rcases ok.exclusive.editResize_cases live a traits.itemSize newSize with
    ⟨differs, noRealloc, noMalloc, ⟨some', failed⟩ | ⟨nothing, -⟩⟩ |
      ⟨-, resized, heap, isResized, bytes⟩
  · rw [failed]
    exact .inl ⟨differs, noRealloc, noMalloc, some', rfl⟩
  · exact absurd nothing (Nat.ne_of_gt (keeps noRealloc))
  · have stays := fun differs =>
      editResize_stays_iff ok.exclusive live keeps differs (congrArg Prod.fst isResized)
    rw [isResized] at swaps ⊢
    have notLost : ∀ place : Place, memory.heap.Live place.1 → vector.mStorage ≠ some place.1 →
        resized ≠ place.1 ∧ place.1 ≠ buf := by
      refine fun place placeLive notOld => ⟨?_, fun same => notOld (same ▸ isBuf)⟩
      rintro rfl
      exact notOld ((swaps.held _ rfl).2 placeLive)
    refine .inr ⟨resized, _, rfl, ⟨swaps, ?_, fun _ isDestroyed => isDestroyed, swaps.exclusive,
      ?_, ?_⟩, bytes, stays, ?_⟩
    · intro place placeLive notOld
      obtain ⟨notResized, notBuf⟩ := notLost place placeLive notOld
      simp only [PlacedObjects.resize, Objects.relocate_objectAt, if_neg notResized.symm,
        if_neg notBuf, Option.bind_some]
    · intro place isThere
      by_cases isNew : place.1 = resized
      · exact isNew ▸ (swaps.held _ rfl).1
      · by_cases isOld : place.1 = buf
        · simp only [PlacedObjects.resize, Objects.relocate_objectAt, if_neg isNew, if_pos isOld,
            Option.bind_none, ne_eq, not_true] at isThere
        · simp only [PlacedObjects.resize, Objects.relocate_objectAt, if_neg isNew, if_neg isOld,
            Option.bind_some] at isThere
          refine (swaps.kept place.1 (ok.placed place isThere) fun isPlace => isOld ?_).1
          exact Option.some.inj (isPlace.symm.trans isBuf)
    · exact fun isFalse => nomatch isFalse.symm.trans isTrue
    · intro k bound
      apply Objects.valueAt_congr
      simp only [PlacedObjects.resize, Objects.relocate_objectAt, if_true, if_pos bound,
        Option.bind_some]

theorem editArrayImpl_eq (ok : memory.Ok traits) (owns : vector.Owns memory.heap) :
    memory.editArrayImpl traits a vector = some (memory, vector) := by
  rw [editArrayImpl]
  cases isBuf : vector.mStorage with
  | none => rfl
  | some buf =>
      simp only
      rw [ok.exclusive.attemptEdit (owns buf isBuf)]

/-- Changes to the objects in the storage of a Vector. -/
theorem edits_inPlace (ok : memory.Ok traits) (owns : vector.Owns memory.heap)
    {objects : PlacedObjects T}
    (frame : ∀ place, vector.mStorage ≠ some place.1 →
      objects.objectAt place = memory.objects.objectAt place)
    (kept : ∀ id ∈ memory.objects.destroyed, id ∈ objects.destroyed)
    (balanced : traits.hasTrivialDtor = false → objects.Balanced) :
    Edits traits memory ⟨memory.heap, objects⟩ vector.mStorage vector.mStorage where
  swaps := .refl ok.exclusive owns
  frame := fun place _ notOld => frame place notOld
  kept := kept
  ok := {
    exclusive := ok.exclusive
    placed := by
      intro place isThere
      by_cases isPlace : vector.mStorage = some place.1
      · exact owns place.1 isPlace
      · rw [frame place isPlace] at isThere
        exact ok.placed place isThere
    balanced := balanced }

theorem Edits.refl (ok : memory.Ok traits) (owns : vector.Owns memory.heap) :
    Edits traits memory memory vector.mStorage vector.mStorage :=
  edits_inPlace ok owns (fun _ _ => rfl) (fun _ isDestroyed => isDestroyed) ok.balanced

theorem Edits.trans {middle : ObjectMemory T} {old between new : Option Nat}
    (first : Edits traits memory middle old between)
    (second : Edits traits middle after between new) :
    Edits traits memory after old new where
  swaps := first.swaps.trans second.swaps
  frame := by
    intro place live notOld
    have notBetween : between ≠ some place.1 :=
      fun isBetween => notOld ((first.swaps.held _ isBetween).2 live)
    rw [second.frame place (first.swaps.kept _ live notOld).1 notBetween,
      first.frame place live notOld]
  kept := fun id isDestroyed => second.kept id (first.kept id isDestroyed)
  ok := second.ok

end ObjectMemory

end DroidKernal.Utils
