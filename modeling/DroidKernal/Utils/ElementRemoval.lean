import DroidKernal.Utils.ElementLists

/-!
# Removal from the list of elements

`_shrink` resizes the buffer, copies the elements that stay to a smaller one, or destroys
those that go and moves the others over them.
-/

namespace DroidKernal.Utils

open Lib

variable {T : Type}

/-- The elements without some of them. -/
def removed (items : List T) (index count : Nat) : List T :=
  items.take index ++ items.drop (index + count)

section Removed

variable {items : List T} {index count : Nat}

theorem removed_getElem? (within : index ≤ items.length) (k : Nat) :
    (removed items index count)[k]? = if k < index then items[k]? else items[k + count]? := by
  have front : (items.take index).length = index := by
    rw [List.length_take, Nat.min_eq_left within]
  rw [removed]
  split
  next before => rw [List.getElem?_append_left (by omega), List.getElem?_take_of_lt before]
  next =>
    rw [List.getElem?_append_right (by omega), front, List.getElem?_drop]
    congr 1
    omega

theorem length_removed (within : index + count ≤ items.length) :
    (removed items index count).length = items.length - count := by
  simp only [removed, List.length_append, List.length_take, List.length_drop]
  omega

end Removed

namespace ObjectMemory

variable {memory after : ObjectMemory T} {vector : VectorObject} {traits : Traits}
  {a : Allocator (Option Empty)} {items : List T} {index amount : Nat}

/-- `_shrink` finds no memory for fewer elements. -/
def ShrinkFails (traits : Traits) (a : Allocator (Option Empty)) (memory : ObjectMemory T)
    (vector : VectorObject) (index amount : Nat) : Prop :=
  let newSize := vector.mCount - amount
  let newAllocSize := sizeMul (VectorImpl.shrinkCapacity newSize) traits.itemSize
  newSize < vector.capacity traits memory.heap / 2 ∧ a.mallocBuffer newAllocSize = none ∧
    (index = newSize ∧ traits.hasTrivialCopy = true ∧ traits.hasTrivialDtor = true →
      ∀ buf, vector.mStorage = some buf →
        (memory.heap.block buf).mSize ≠ newAllocSize ∧ a.reallocBuffer newAllocSize = none)

/-- The elements are gone, those that were removed were destroyed, and all else is as it was. -/
structure Shrunk (traits : Traits) (memory : ObjectMemory T) (vector : VectorObject)
    (items : List T) (index amount : Nat) (after : ObjectMemory T) (storage : Option Nat) :
    Prop where
  edits : Edits traits memory after vector.mStorage storage
  lists : after.Lists traits ⟨storage, vector.mCount - amount⟩ (removed items index amount)
  ended : traits.hasTrivialDtor = false → ∀ buf object k, vector.mStorage = some buf →
    index ≤ k → k < index + amount → memory.objects.objectAt (buf, k) = some object →
      object.id ∈ after.objects.destroyed

/-- Shrinking by a resized buffer, where the last elements go. -/
theorem shrunk_resized (lists : memory.Lists traits vector items) (within : amount ≤ vector.mCount)
    (exact' : ¬ vector.ShrinkOverflows traits memory.heap amount)
    (few : vector.mCount - amount < vector.capacity traits memory.heap / 2) {buf : Nat}
    (isBuf : vector.mStorage = some buf) (isTrue : traits.hasTrivialDtor = true) {resized : Nat}
    (edits : Edits traits memory after vector.mStorage (some resized))
    (bytes : (after.heap.block resized).mSize =
      sizeMul (VectorImpl.shrinkCapacity (vector.mCount - amount)) traits.itemSize)
    (same : ∀ k < min (memory.heap.block buf).mSize
        (sizeMul (VectorImpl.shrinkCapacity (vector.mCount - amount)) traits.itemSize) /
          traits.itemSize,
      after.objects.valueAt (resized, k) = memory.objects.valueAt (buf, k)) :
    Shrunk traits memory vector items (vector.mCount - amount) amount after (some resized) := by
  have count := lists.count
  obtain ⟨smallBytes, enough⟩ := shrink_bytes lists.fits exact' few
  have room := lists.fits.room
  rw [capacity_some isBuf, Nat.le_div_iff_mul_le traits.positive] at room
  refine ⟨edits, ⟨?_, ?_, ?_, fun isFalse => nomatch isFalse.symm.trans isTrue⟩,
    fun isFalse => nomatch isFalse.symm.trans isTrue⟩
  · exact .of_bytes (fun buf isBuf => (edits.swaps.held buf isBuf).1) rfl bytes smallBytes enough
  · rw [length_removed (by omega), ← count]
  · intro k bound
    simp only at bound
    have value := lists.values k (by omega)
    rw [PlacedObjects.valueIn, isBuf] at value
    rw [removed_getElem? (by omega), if_pos bound]
    refine (same k ?_).trans value
    rw [Nat.lt_iff_add_one_le, Nat.le_div_iff_mul_le traits.positive, Nat.le_min]
    exact ⟨Nat.le_trans (Nat.mul_le_mul_right _ (by omega)) room,
      Nat.le_trans (Nat.mul_le_mul_right _ bound) enough⟩

/-- Shrinking by copying the elements that stay to a new buffer. -/
theorem shrunk_reallocated (lists : memory.Lists traits vector items)
    (within : index + amount ≤ vector.mCount)
    (exact' : ¬ vector.ShrinkOverflows traits memory.heap amount)
    (few : vector.mCount - amount < vector.capacity traits memory.heap / 2)
    (bytes : (after.heap.block memory.heap.allocated).mSize =
      sizeMul (VectorImpl.shrinkCapacity (vector.mCount - amount)) traits.itemSize)
    (moved : Reallocated traits memory vector items index (index + amount) index
      (vector.mCount - amount - index) after) :
    Shrunk traits memory vector items index amount after (some memory.heap.allocated) := by
  have count := lists.count
  obtain ⟨smallBytes, enough⟩ := shrink_bytes lists.fits exact' few
  refine ⟨moved.edits, ⟨?_, ?_, ?_, ?_⟩, ?_⟩
  · exact .of_bytes (fun buf isBuf => (moved.edits.swaps.held buf isBuf).1) rfl bytes smallBytes
      enough
  · rw [length_removed (by omega), ← count]
  · intro k bound
    simp only at bound
    rw [removed_getElem? (by omega)]
    by_cases before : k < index
    · rw [if_pos before]
      exact moved.front k before
    · have value := moved.back (k - index) (by omega)
      rw [Nat.add_sub_cancel' (Nat.le_of_not_lt before)] at value
      rw [if_neg before]
      refine value.trans ?_
      congr 1
      omega
  · rintro isFalse buf isNew slot behind
    cases isNew
    simp only at behind
    exact moved.raw slot (by omega) (by omega)
  · intro isFalse buf object k isBuf _ below isThere
    exact moved.ended isFalse (buf, k) object isBuf (by simp only; omega) isThere

/-- Shrinking in place by moving the elements that stay over those that go. -/
theorem shrunk_inPlace (ok : memory.Ok traits) (lists : memory.Lists traits vector items)
    (within : index + amount ≤ vector.mCount) {buf : Nat} (isBuf : vector.mStorage = some buf)
    {ended objects : PlacedObjects T}
    (ends : PlacedObjects.Ends traits (Within buf index (index + amount)) memory.objects ended)
    (moves : PlacedObjects.Moves traits buf index (index + amount) (vector.mCount - amount - index)
      ended objects) :
    Shrunk traits memory vector items index amount ⟨memory.heap, objects⟩ vector.mStorage := by
  have count := lists.count
  have elsewhere : ∀ slot, slot < index ∨ vector.mCount ≤ slot →
      objects.objectAt (buf, slot) = memory.objects.objectAt (buf, slot) := by
    intro slot isOutside
    rw [moves.outside, ends.outside]
    · rw [within_slot]
      omega
    · rw [within_slot]
      omega
    · rw [within_slot]
      omega
  refine ⟨?_, ⟨?_, ?_, ?_, ?_⟩, ?_⟩
  · refine edits_inPlace ok lists.fits.owns (fun place notOld => ?_)
      (fun id isDestroyed => moves.kept id (ends.kept id isDestroyed)) fun isFalse =>
        moves.balanced isFalse ((ends.clears isFalse).balanced (ok.balanced isFalse))
    have notBuf : place.1 ≠ buf := fun same => notOld (isBuf.trans (congrArg some same.symm))
    rw [moves.outside, ends.outside]
    · exact fun isInside => notBuf isInside.1
    · exact fun isInside => notBuf isInside.1
    · exact fun isInside => notBuf isInside.1
  · exact lists.fits.count (Nat.le_trans (Nat.sub_le ..) lists.fits.room)
  · rw [length_removed (by omega), ← count]
  · intro k bound
    simp only at bound
    rw [removed_getElem? (by omega), isBuf]
    by_cases before : k < index
    · have value := lists.values k (by omega)
      rw [PlacedObjects.valueIn, isBuf] at value
      rw [if_pos before, ← value]
      exact Objects.valueAt_congr (elsewhere k (.inl before))
    · have value := lists.values (k + amount) (by omega)
      rw [PlacedObjects.valueIn, isBuf] at value
      have isMoved := moves.moved (k - index) (by omega)
      rw [Nat.add_sub_cancel' (Nat.le_of_not_lt before)] at isMoved
      rw [if_neg before, ← value]
      refine isMoved.trans ?_
      rw [show index + amount + (k - index) = k + amount by omega]
      refine Objects.valueAt_congr (ends.outside ?_)
      rw [within_slot]
      omega
  · intro isFalse buf' isBuf' slot behind
    cases isBuf.symm.trans isBuf'
    simp only at behind
    by_cases beyond : vector.mCount ≤ slot
    · rw [elsewhere slot (.inr beyond)]
      exact lists.raw isFalse buf isBuf slot beyond
    · have notDest : ¬ Within buf index (index + (vector.mCount - amount - index)) (buf, slot) := by
        rw [within_slot]
        omega
      by_cases isSource : Within buf (index + amount)
          (index + amount + (vector.mCount - amount - index)) (buf, slot)
      · exact moves.left isFalse _ isSource notDest
      · rw [moves.outside _ notDest isSource]
        apply (ends.clears isFalse).inside
        rw [within_slot] at isSource ⊢
        omega
  · intro isFalse buf' object k isBuf' above below isThere
    cases isBuf.symm.trans isBuf'
    have isInside : Within buf index (index + amount) (buf, k) := within_slot.mpr ⟨above, below⟩
    exact moves.kept _ ((ends.clears isFalse).ended _ object isInside isThere)

/-- The condition on a removal: what follows is moved right where it is moved in place. -/
def ShrinksRight (traits : Traits) (memory : ObjectMemory T) (vector : VectorObject)
    (index amount : Nat) : Prop :=
  vector.capacity traits memory.heap / 2 ≤ vector.mCount - amount →
    index ≠ vector.mCount - amount → ∀ buf, vector.mStorage = some buf →
      PlacedObjects.ShiftsRight traits memory.objects buf index (index + amount)
        (vector.mCount - amount - index)

/-- What follows is left by the destruction of the elements that go. -/
theorem followers_left (lists : memory.Lists traits vector items)
    (within : index + amount ≤ vector.mCount) {buf : Nat} (isBuf : vector.mStorage = some buf)
    {ended : PlacedObjects T}
    (ends : PlacedObjects.Ends traits (Within buf index (index + amount)) memory.objects ended)
    {k : Nat} (bound : k < vector.mCount - amount - index) :
    ended.valueAt (buf, index + amount + k) = items[index + amount + k]? := by
  have value := lists.values (index + amount + k) (by omega)
  rw [PlacedObjects.valueIn, isBuf] at value
  rw [← value]
  apply Objects.valueAt_congr
  apply ends.outside
  rw [within_slot]
  omega

theorem followers_alive (lists : memory.Lists traits vector items)
    (within : index + amount ≤ vector.mCount) {buf : Nat} (isBuf : vector.mStorage = some buf)
    {ended : PlacedObjects T}
    (ends : PlacedObjects.Ends traits (Within buf index (index + amount)) memory.objects ended)
    (k : Nat) (bound : k < vector.mCount - amount - index) :
    ended.valueAt (buf, index + amount + k) ≠ none := by
  rw [followers_left lists within isBuf ends bound,
    List.getElem?_eq_getElem (by rw [← lists.count]; omega)]
  exact Option.some_ne_none _

/-- `_shrink` finds no memory, or removes the elements. -/
theorem shrink_spec (ok : memory.Ok traits) (lists : memory.Lists traits vector items)
    (a : Allocator (Option Empty)) (within : index + amount ≤ vector.mCount)
    (exact' : ¬ vector.ShrinkOverflows traits memory.heap amount)
    (right : ShrinksRight traits memory vector index amount) :
    ShrinkFails traits a memory vector index amount ∧
        memory.shrink traits a vector index amount = some (memory, vector) ∨
      ∃ after storage, memory.shrink traits a vector index amount =
          some (after, ⟨storage, vector.mCount - amount⟩) ∧
        Shrunk traits memory vector items index amount after storage := by
  have newSize : sizeSub vector.mCount amount = vector.mCount - amount :=
    sizeSub_eq lists.fits.small (by omega)
  cases isBuf : vector.mStorage with
  | none =>
      have empty : vector.mCount = 0 := by
        have room := lists.fits.room
        rw [VectorObject.capacity, isBuf] at room
        exact Nat.eq_zero_of_le_zero room
      obtain ⟨rfl, rfl⟩ : index = 0 ∧ amount = 0 := by omega
      have nothing : removed items 0 0 = items := rfl
      refine .inr ⟨memory, vector.mStorage, ?_, .refl ok lists.fits.owns, ?_, ?_⟩
      · rw [ObjectMemory.shrink, isBuf]
        simp only [Nat.sub_zero, ← isBuf]
      · rw [nothing]
        exact lists
      · exact fun _ _ _ _ isSome => by cases isBuf.symm.trans isSome
  | some buf =>
      rw [ObjectMemory.shrink, isBuf]
      simp only [newSize]
      split
      next few =>
        split
        next resizable =>
          obtain ⟨rfl, isCopy, isTrue⟩ := resizable
          rcases resizes ok lists isTrue isBuf a
              (sizeMul (VectorImpl.shrinkCapacity (vector.mCount - amount)) traits.itemSize)
              (fun _ => bufferBytes_pos (shrink_bytes lists.fits exact' few).1) with
            ⟨differs, noRealloc, noMalloc, -, failed⟩ |
              ⟨resized, after, isResized, edits, bytes, -, same⟩
          · refine .inl ⟨⟨few, noMalloc, fun _ other isOther => ?_⟩, ?_⟩
            · cases isBuf.symm.trans isOther
              exact ⟨differs, noRealloc⟩
            · rw [failed]
          · refine .inr ⟨after, some resized, ?_,
              shrunk_resized lists (by omega) exact' few isBuf isTrue edits bytes same⟩
            rw [isResized]
        next notResizable =>
          cases isMemory : a.mallocBuffer
              (sizeMul (VectorImpl.shrinkCapacity (vector.mCount - amount)) traits.itemSize) with
          | none =>
              refine .inl ⟨⟨few, isMemory, fun resizable => absurd resizable notResizable⟩, ?_⟩
              simp only [Storage.alloc, isMemory]
          | some cells =>
              obtain ⟨objects, after, copied, adopted, bytes, moved⟩ := reallocates ok lists
                ⟨1, sizeMul (VectorImpl.shrinkCapacity (vector.mCount - amount)) traits.itemSize,
                  cells⟩ rfl
                index (index + amount) index (vector.mCount - amount - index) (by omega) (by omega)
                (Nat.le_refl index)
              obtain ⟨middle, isMiddle, copied⟩ := Option.bind_eq_some_iff.mp copied
              rw [isBuf] at isMiddle copied
              refine .inr ⟨after, some memory.heap.allocated, ?_,
                shrunk_reallocated lists within exact' few bytes moved⟩
              rw [alloc_found isMemory]
              simp only [Option.bind_eq_bind, isMiddle, Option.bind_some, copied, adopted]
              rfl
      next many =>
        have many := Nat.le_of_not_lt many
        obtain ⟨ended, isEnded, ends⟩ := PlacedObjects.destroyType_ends traits memory.objects buf
          index amount fun k bound => lists.alive_at isBuf (by omega)
        have alive := followers_alive lists within isBuf ends
        obtain ⟨objects, isMoved, moves⟩ : ∃ objects,
            (if index ≠ vector.mCount - amount then
              ended.moveForwardType traits buf index (index + amount)
                (vector.mCount - amount - index)
            else some ended) = some objects ∧
            PlacedObjects.Moves traits buf index (index + amount) (vector.mCount - amount - index)
              ended objects := by
          split
          next notEnd =>
            apply PlacedObjects.moveForwardType_moves ended
              (ends.shiftsRight_iff.mpr (right many notEnd buf isBuf)) alive
            rintro isFalse ⟨other, slot⟩ ⟨rfl, above, below⟩ notSource
            apply (ends.clears isFalse).inside
            rw [within_slot] at notSource ⊢
            simp only at above below
            omega
          next atEnd =>
            rw [not_not] at atEnd
            refine ⟨ended, rfl, ?_⟩
            rw [atEnd, Nat.sub_self]
            exact .nothing ended
        refine .inr ⟨⟨memory.heap, objects⟩, vector.mStorage, ?_,
          shrunk_inPlace ok lists within isBuf ends moves⟩
        rw [editArrayImpl_eq ok lists.fits.owns]
        simp only [Option.bind_eq_bind, Option.bind_some, isBuf, isEnded]
        by_cases atEnd : index ≠ vector.mCount - amount
        · rw [if_pos atEnd] at isMoved ⊢
          rw [isMoved]
          rfl
        · rw [if_neg atEnd] at isMoved ⊢
          cases isMoved
          rfl

/-- A removal that finds memory. -/
theorem removeItemsAt_spec (ok : memory.Ok traits) (lists : memory.Lists traits vector items)
    (a : Allocator (Option Empty)) (within : index + amount ≤ vector.mCount)
    (exact' : ¬ vector.ShrinkOverflows traits memory.heap amount)
    (found : ¬ ShrinkFails traits a memory vector index amount)
    (right : ShrinksRight traits memory vector index amount) :
    ∃ after storage, memory.removeItemsAt traits a vector index amount =
        some (toSsize index, after, ⟨storage, vector.mCount - amount⟩) ∧
      Shrunk traits memory vector items index amount after storage := by
  have inside : ¬ sizeAdd index amount > vector.mCount := by
    rw [sizeAdd_eq (Nat.lt_of_le_of_lt within lists.fits.small)]
    exact Nat.not_lt.mpr within
  rcases shrink_spec ok lists a within exact' right with
    ⟨fails, -⟩ | ⟨after, storage, isShrunk, shrunk⟩
  · exact absurd fails found
  · refine ⟨after, storage, ?_, shrunk⟩
    rw [ObjectMemory.removeItemsAt, if_neg inside, isShrunk]
    rfl

/-- The removal of elements, whether or not it finds memory. -/
theorem shrink_edits (ok : memory.Ok traits) (lists : memory.Lists traits vector items)
    (within : index + amount ≤ vector.mCount)
    (exact' : ¬ vector.ShrinkOverflows traits memory.heap amount)
    (right : ShrinksRight traits memory vector index amount)
    {result : ObjectMemory T × VectorObject}
    (isShrunk : memory.shrink traits a vector index amount = some result) :
    Edits traits memory result.1 vector.mStorage result.2.mStorage ∧
      ∃ items, result.1.Lists traits result.2 items := by
  rcases shrink_spec ok lists a within exact' right with
    ⟨-, unchanged⟩ | ⟨after, storage, done, shrunk⟩
  · cases isShrunk.symm.trans unchanged
    exact ⟨.refl ok lists.fits.owns, items, lists⟩
  · cases isShrunk.symm.trans done
    exact ⟨shrunk.edits, _, shrunk.lists⟩

/-- The elements were moved right where they are found behind those that stayed. -/
theorem shrinksRight_of_removed (ok : memory.Ok traits) (lists : memory.Lists traits vector items)
    (within : index + amount ≤ vector.mCount) {result : Int × ObjectMemory T × VectorObject}
    (isRemoved : memory.removeItemsAt traits a vector index amount = some result)
    (values : ∀ k < vector.mCount - amount,
      result.2.1.objects.valueIn result.2.2.mStorage k = (removed items index amount)[k]?) :
    ShrinksRight traits memory vector index amount := by
  intro many notEnd buf isBuf
  have inside : ¬ sizeAdd index amount > vector.mCount := by
    rw [sizeAdd_eq (Nat.lt_of_le_of_lt within lists.fits.small)]
    exact Nat.not_lt.mpr within
  have newSize : sizeSub vector.mCount amount = vector.mCount - amount :=
    sizeSub_eq lists.fits.small (by omega)
  obtain ⟨ended, isEnded, ends⟩ := PlacedObjects.destroyType_ends traits memory.objects buf
    index amount fun k bound => lists.alive_at isBuf (by omega)
  rw [ObjectMemory.removeItemsAt, if_neg inside] at isRemoved
  obtain ⟨shrunk, isShrunk, done⟩ := Option.bind_eq_some_iff.mp isRemoved
  cases done
  rw [ObjectMemory.shrink, isBuf] at isShrunk
  simp only [newSize, if_neg (Nat.not_lt.mpr many), editArrayImpl_eq ok lists.fits.owns,
    Option.bind_eq_bind, Option.bind_some, isBuf, isEnded, if_pos notEnd] at isShrunk
  obtain ⟨objects, isMoved, done⟩ := Option.bind_eq_some_iff.mp isShrunk
  cases done
  rw [← ends.shiftsRight_iff]
  refine PlacedObjects.moveForwardType_right (Nat.le_add_right ..) isMoved
    (followers_alive lists within isBuf ends) fun k bound => ?_
  rw [followers_left lists within isBuf ends bound]
  refine (values (index + k) (by omega)).trans ?_
  rw [removed_getElem? (by rw [← lists.count]; omega), if_neg (by omega)]
  congr 1
  omega

end ObjectMemory

end DroidKernal.Utils
