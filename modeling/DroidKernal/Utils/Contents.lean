import DroidKernal.Utils.Vector
import Mathlib.Data.List.Basic

/-!
# The contents of a Vector

A Vector holds a list of elements.  Inserting is list insertion whenever memory
suffices; removing is list removal when the storage is reallocated for it.
-/

namespace DroidKernal.Utils

variable {T : Type*} {traits : Traits}

/-- The loop from the back moves elements to higher slots intact. -/
theorem moveForwardLoop_up (traits : Traits) {dest start : Nat} (up : start < dest) (num : Nat)
    (slots : Slots T) :
    (∀ i, i < num → moveForwardLoop traits dest start num slots (dest + i) = slots (start + i)) ∧
      ∀ i, i < start ∨ dest + num ≤ i → moveForwardLoop traits dest start num slots i = slots i := by
  induction num generalizing slots with
  | zero => exact ⟨fun i none => absurd none (Nat.not_lt_zero i), fun _ _ => rfl⟩
  | succ num ih =>
      have stored : ∀ i, i ≠ start + num →
          (if traits.hasTrivialDtor then
              Function.update slots (dest + num) (slots (start + num))
            else Function.update (Function.update slots (dest + num) (slots (start + num)))
              (start + num) none) i =
            Function.update slots (dest + num) (slots (start + num)) i := by
        intro i differs
        split
        next => rfl
        next => rw [Function.update_of_ne differs]
      obtain ⟨moved, kept⟩ := ih (if traits.hasTrivialDtor then
          Function.update slots (dest + num) (slots (start + num))
        else Function.update (Function.update slots (dest + num) (slots (start + num)))
          (start + num) none)
      constructor
      · intro i bound
        rcases Nat.lt_succ_iff_lt_or_eq.mp bound with before | rfl
        · rw [moveForwardLoop, moved i before, stored _ (by omega),
            Function.update_of_ne (by omega)]
        · rw [moveForwardLoop, kept _ (.inr (Nat.le_refl _)), stored _ (by omega),
            Function.update_self]
      · intro i outside
        rw [moveForwardLoop, kept i (by omega), stored _ (by omega),
          Function.update_of_ne (by omega)]

theorem copyType_inside (into source : Slots T) (dest start num : Nat) {i : Nat} (bound : i < num) :
    copyType into dest source start num (dest + i) = source (start + i) := by
  rw [copyType, if_pos (by omega), Nat.add_sub_cancel_left]

theorem copyType_outside (into source : Slots T) (dest start num : Nat) {i : Nat}
    (outside : i < dest ∨ dest + num ≤ i) : copyType into dest source start num i = into i := by
  rw [copyType, if_neg (by omega)]

/-- So do both variants of `move_forward_type`. -/
theorem moveForwardType_up (traits : Traits) {dest start : Nat} (up : start < dest) (num : Nat)
    (slots : Slots T) :
    (∀ i, i < num → moveForwardType traits slots dest start num (dest + i) = slots (start + i)) ∧
      ∀ i, i < start → moveForwardType traits slots dest start num i = slots i := by
  rw [moveForwardType]
  split
  next =>
    exact ⟨fun i bound => copyType_inside slots slots dest start num bound,
      fun i before => copyType_outside slots slots dest start num (.inl (Nat.lt_trans before up))⟩
  next =>
    obtain ⟨moved, kept⟩ := moveForwardLoop_up traits up num slots
    exact ⟨moved, fun i before => kept i (.inl before)⟩

/-- Resizing keeps the slots that both sizes cover. -/
theorem SharedBuffer.editResize_keeps {heap : Heap} (buffer : SharedBuffer T) (traits : Traits)
    {newSize : Nat} (allocated : heap.grantsBuffer newSize = true) :
    ∃ resized, buffer.editResize traits heap newSize = some resized ∧ resized.mSize = newSize ∧
      ∀ i, i < buffer.mSize / traits.itemSize → i < newSize / traits.itemSize →
        resized.slots i = buffer.slots i := by
  rw [editResize, if_pos allocated]
  split
  next same => exact ⟨buffer, rfl, same, fun i _ _ => rfl⟩
  next =>
    refine ⟨_, rfl, rfl, ?_⟩
    intro i inOld inNew
    apply if_pos
    rcases Nat.le_total buffer.mSize newSize with le | le
    · rwa [Nat.min_eq_left le]
    · rwa [Nat.min_eq_right le]

namespace VectorImpl

/-- The elements of a Vector. -/
structure Holds (traits : Traits) (vector : VectorImpl T) (items : List T) : Prop where
  count : vector.mCount = items.length
  room : items.length ≤ vector.capacity traits
  slots : ∀ i, i < items.length → vector.slot i = items[i]?

theorem empty_holds : (empty : VectorImpl T).Holds traits [] where
  count := rfl
  room := Nat.zero_le _
  slots := fun i none => absurd none (Nat.not_lt_zero i)

/-- The memory that inserting needs. -/
structure GrowFits (traits : Traits) (heap : Heap) (vector : VectorImpl T) (amount : Nat) :
    Prop where
  size : (2 * (vector.mCount + amount) + kMinVectorCapacity) * traits.itemSize < 2 ^ 64
  allocated : vector.capacity traits < vector.mCount + amount →
    heap.grantsBuffer (growCapacity vector.mCount amount * traits.itemSize) = true

variable {vector : VectorImpl T} {items : List T} {heap : Heap}

theorem growCapacity_eq {count amount : Nat}
    (size : (2 * (count + amount) + kMinVectorCapacity) * traits.itemSize < 2 ^ 64) :
    sizeAdd count amount = count + amount ∧
      growCapacity count amount = max kMinVectorCapacity (count + amount + (count + amount) / 2) ∧
      sizeMul (growCapacity count amount) traits.itemSize =
        growCapacity count amount * traits.itemSize := by
  have positive := traits.positive
  have le := Nat.le_mul_of_pos_right (2 * (count + amount) + kMinVectorCapacity) positive
  have sum : sizeAdd count amount = count + amount := sizeAdd_eq (by omega)
  have capacity : growCapacity count amount =
      max kMinVectorCapacity (count + amount + (count + amount) / 2) := by
    rw [growCapacity, sum, sizeAdd_eq (by omega)]
  refine ⟨sum, capacity, sizeMul_eq ?_⟩
  apply Nat.lt_of_le_of_lt _ size
  apply Nat.mul_le_mul_right
  rw [capacity]
  omega

/-- A Vector with room for `amount` elements made at an index. -/
structure HasGap (traits : Traits) (vector : VectorImpl T) (items : List T)
    (index amount : Nat) : Prop where
  count : vector.mCount = items.length + amount
  room : items.length + amount ≤ vector.capacity traits
  before : ∀ i, i < index → vector.slot i = items[i]?
  after : ∀ i, index ≤ i → i < items.length → vector.slot (amount + i) = items[i]?

theorem Holds.storage (holds : vector.Holds traits items) (nonempty : items ≠ []) :
    vector.mStorage ≠ none := by
  intro isNone
  have room := holds.room
  rw [capacity, isNone] at room
  exact nonempty (List.eq_nil_of_length_eq_zero (Nat.le_zero.mp room))

theorem HasGap.location {index amount : Nat} (gap : vector.HasGap traits items index amount)
    (inside : index < items.length + amount) :
    vector.itemLocation traits index = some index := by
  have room := gap.room
  have bound : index < vector.capacity traits := by omega
  have present : vector.mStorage.isSome := by
    rw [capacity] at bound
    cases isStorage : vector.mStorage with
    | none => simp [isStorage] at bound
    | some buffer => rfl
  rw [itemLocation, if_pos ⟨bound, present⟩]

/-- Elements moved up within the storage. -/
theorem Holds.gap_inPlace (holds : vector.Holds traits items) {buffer : SharedBuffer T}
    (isStorage : vector.mStorage = some buffer) {index amount : Nat} (inside : index ≤ items.length)
    (positive : 0 < amount) (room : items.length + amount ≤ vector.capacity traits) :
    HasGap traits
      { mStorage := some { buffer with
          slots := moveForwardType traits buffer.slots (index + amount) index
            (items.length - index) }
        mCount := items.length + amount } items index amount := by
  have held : ∀ i, i < items.length → buffer.slots i = items[i]? := by
    simpa [slot, isStorage] using holds.slots
  obtain ⟨moved, kept⟩ := moveForwardType_up traits
    (show index < index + amount by omega) (items.length - index) buffer.slots
  rw [capacity, isStorage] at room
  exact {
    count := rfl
    room := room
    before := by
      intro i before
      simp only [slot, Option.bind_some]
      rw [kept i before, held i (by omega)]
    after := by
      intro i after bound
      have position : amount + i = index + amount + (i - index) := by omega
      have source : index + (i - index) = i := by omega
      simp only [slot, Option.bind_some]
      rw [position, moved _ (by omega), source, held i bound] }

/-- Elements copied to new storage. -/
theorem Holds.gap_copied (holds : vector.Holds traits items) {buffer : SharedBuffer T}
    (isStorage : vector.mStorage = some buffer) {index amount : Nat} (inside : index ≤ items.length)
    {capacity : Nat} (room : items.length + amount ≤ capacity) (fresh : Slots T) :
    HasGap traits
      { mStorage := some {
          mSize := capacity * traits.itemSize
          slots := copyType (copyType fresh 0 buffer.slots 0 index) (index + amount) buffer.slots
            index (items.length - index) }
        mCount := items.length + amount } items index amount := by
  have held : ∀ i, i < items.length → buffer.slots i = items[i]? := by
    simpa [slot, isStorage] using holds.slots
  exact {
    count := rfl
    room := by simpa [VectorImpl.capacity, traits.positive] using room
    before := by
      intro i before
      have first := copyType_inside fresh buffer.slots 0 0 index before
      rw [Nat.zero_add] at first
      simp only [slot, Option.bind_some]
      rw [copyType_outside _ _ _ _ _ (.inl (by omega)), first, held i (by omega)]
    after := by
      intro i after bound
      have position : amount + i = index + amount + (i - index) := by omega
      have source : index + (i - index) = i := by omega
      simp only [slot, Option.bind_some]
      rw [position, copyType_inside _ _ _ _ _ (by omega), source, held i bound] }

/-- New storage for an empty Vector, or storage resized behind its elements. -/
theorem Holds.gap_atEnd (holds : vector.Holds traits items) {amount : Nat}
    (buffer : SharedBuffer T) (room : items.length + amount ≤ buffer.mSize / traits.itemSize)
    (kept : ∀ i, i < items.length → buffer.slots i = vector.slot i) :
    HasGap traits { mStorage := some buffer, mCount := items.length + amount } items items.length
      amount := by
  exact {
    count := rfl
    room := room
    before := by
      intro i before
      simp only [slot, Option.bind_some]
      rw [kept i before, holds.slots i before]
    after := fun i after bound => absurd bound (Nat.not_lt.mpr after) }

/-- `_grow` makes room. -/
theorem Holds.grow (holds : vector.Holds traits items) {index amount : Nat}
    (inside : index ≤ items.length) (positive : 0 < amount)
    (fits : vector.GrowFits traits heap amount) :
    ∃ grown, vector.grow traits heap index amount = (some index, grown) ∧
      grown.HasGap traits items index amount := by
  have count := holds.count
  obtain ⟨sum, capacityEq, bytes⟩ := growCapacity_eq fits.size
  have allocated := fits.allocated
  rw [count] at sum capacityEq bytes allocated
  have enough : items.length + amount ≤ growCapacity items.length amount := by
    rw [capacityEq]
    omega
  have enoughBytes : items.length + amount ≤
      growCapacity items.length amount * traits.itemSize / traits.itemSize := by
    rwa [Nat.mul_div_cancel _ traits.positive]
  have found : ∀ {grown : VectorImpl T}, grown.HasGap traits items index amount →
      grown.itemLocation traits index = some index :=
    fun gap => gap.location (by omega)
  simp only [VectorImpl.grow, count, sum, bytes]
  split
  next full =>
    split
    next buffer isStorage =>
      split
      next atEnd =>
        cases atEnd.1
        obtain ⟨resized, isResized, mSize, keeps⟩ :=
          buffer.editResize_keeps traits (allocated full)
        rw [← mSize] at enoughBytes keeps
        rw [isResized]
        have gap := holds.gap_atEnd resized enoughBytes fun i bound => by
          have room := holds.room
          simp only [capacity, isStorage] at room
          rw [keeps i (by omega) (by omega), slot, isStorage]
          rfl
        exact ⟨_, Prod.ext (found gap) rfl, gap⟩
      next =>
        simp only [SharedBuffer.alloc, allocated full, if_true]
        have gap := holds.gap_copied isStorage inside enough fun _ => none
        exact ⟨_, Prod.ext (found gap) rfl, gap⟩
    next isStorage =>
      have nothing : items = [] := by
        apply Classical.byContradiction
        intro nonempty
        exact holds.storage nonempty isStorage
      subst nothing
      cases Nat.le_zero.mp inside
      simp only [SharedBuffer.alloc, allocated full, if_true]
      have gap := holds.gap_atEnd { mSize := _, slots := fun _ => none } enoughBytes
        fun i none => absurd none (Nat.not_lt_zero i)
      exact ⟨_, Prod.ext (found gap) rfl, gap⟩
  next roomy =>
    rw [Nat.not_lt] at roomy
    have present : vector.mStorage ≠ none := by
      intro isNone
      simp [capacity, isNone] at roomy
      omega
    obtain ⟨buffer, isStorage⟩ := Option.ne_none_iff_exists'.mp present
    rw [isStorage, Option.map_some]
    split
    next =>
      have gap := holds.gap_inPlace isStorage inside positive roomy
      exact ⟨_, Prod.ext (found gap) rfl, gap⟩
    next atEnd =>
      cases not_not.mp atEnd
      rw [capacity, isStorage] at roomy
      have gap := holds.gap_atEnd buffer roomy fun i _ => by rw [slot, isStorage]; rfl
      exact ⟨_, Prod.ext (found gap) rfl, gap⟩

/-- Inserting is list insertion. -/
theorem Holds.insertAt (holds : vector.Holds traits items) (item : T) {index numItems : Nat}
    (inside : index ≤ items.length) (positive : 0 < numItems)
    (fits : vector.GrowFits traits heap numItems) :
    ∃ inserted, vector.insertAt traits heap item index numItems = (toSsize index, inserted) ∧
      inserted.Holds traits
        (items.take index ++ List.replicate numItems item ++ items.drop index) := by
  obtain ⟨grown, isGrown, gap⟩ := holds.grow inside positive fits
  have valid : ¬ index > vector.mCount := by
    rw [holds.count]
    exact Nat.not_lt.mpr inside
  refine ⟨_, by rw [VectorImpl.insertAt, if_neg valid, isGrown], ?_⟩
  have length : (items.take index ++ List.replicate numItems item ++ items.drop index).length =
      items.length + numItems := by
    simp
    omega
  have present : grown.mStorage ≠ none := by
    intro isNone
    have room := gap.room
    simp only [capacity, isNone] at room
    omega
  obtain ⟨buffer, isStorage⟩ := Option.ne_none_iff_exists'.mp present
  have before : ∀ i, i < index → buffer.slots i = items[i]? := by
    simpa [slot, isStorage] using gap.before
  have after : ∀ i, index ≤ i → i < items.length → buffer.slots (numItems + i) = items[i]? := by
    simpa [slot, isStorage] using gap.after
  rw [isStorage, Option.map_some]
  exact {
    count := by rw [length, gap.count]
    room := by
      have room := gap.room
      rw [capacity, isStorage] at room
      rwa [length]
    slots := by
      intro i bound
      rw [length] at bound
      simp only [slot, Option.bind_some, splatType]
      rcases Nat.lt_or_ge i index with early | late
      · rw [if_neg (by omega), before i early, List.append_assoc,
          List.getElem?_append_left (by simp; omega), List.getElem?_take_of_lt early]
      · rcases Nat.lt_or_ge i (index + numItems) with inGap | behind
        · rw [if_pos ⟨late, inGap⟩, List.append_assoc,
            List.getElem?_append_right (by simp; omega),
            List.getElem?_append_left (by simp; omega), List.getElem?_replicate_of_lt]
          simp
          omega
        · have position : i = numItems + (i - numItems) := by omega
          rw [if_neg (by omega), position, after (i - numItems) (by omega) (by omega),
            List.getElem?_append_right (by simp; omega), List.getElem?_drop]
          apply congrArg (items[·]?)
          simp
          omega }

/-- Storing into a slot is replacing an element. -/
theorem Holds.store (holds : vector.Holds traits items) (i : Nat) (item : T) :
    (vector.store i item).Holds traits (items.set i item) where
  count := by
    rw [List.length_set, ← holds.count]
    rfl
  room := by
    have sameCapacity : (vector.store i item).capacity traits = vector.capacity traits := by
      cases isStorage : vector.mStorage <;> simp [capacity, VectorImpl.store, isStorage]
    rw [List.length_set, sameCapacity]
    exact holds.room
  slots := by
    intro j bound
    rw [List.length_set] at bound
    have held := holds.slots j bound
    obtain ⟨buffer, isStorage⟩ := Option.ne_none_iff_exists'.mp
      (holds.storage (List.ne_nil_of_length_pos (Nat.lt_of_le_of_lt (Nat.zero_le j) bound)))
    simp only [slot, VectorImpl.store, isStorage, Option.map_some, Option.bind_some] at held ⊢
    by_cases same : j = i
    · subst same
      rw [Function.update_self, List.getElem?_set_self bound]
    · rw [Function.update_of_ne same, List.getElem?_set_ne (Ne.symm same), held]

/-- The memory that removing into new storage needs. -/
structure Reallocates (traits : Traits) (heap : Heap) (vector : VectorImpl T) (amount : Nat) :
    Prop where
  size : (2 * vector.mCount + kMinVectorCapacity) * traits.itemSize < 2 ^ 64
  few : vector.mCount - amount < vector.capacity traits / 2
  allocated :
    heap.grantsBuffer (shrinkCapacity (vector.mCount - amount) * traits.itemSize) = true

/-- Removing into new storage is list removal. -/
theorem Holds.removeItemsAt (holds : vector.Holds traits items) (index count : Nat)
    (inside : index + count ≤ items.length) (reallocates : vector.Reallocates traits heap count) :
    ∃ removed, vector.removeItemsAt traits heap index count = (toSsize index, removed) ∧
      removed.Holds traits (items.take index ++ items.drop (index + count)) := by
  have size := reallocates.size
  have few := reallocates.few
  have allocated := reallocates.allocated
  rw [holds.count] at size few allocated
  have present : vector.mStorage ≠ none := by
    intro isNone
    simp [capacity, isNone] at few
  obtain ⟨buffer, isStorage⟩ := Option.ne_none_iff_exists'.mp present
  have held : ∀ i, i < items.length → buffer.slots i = items[i]? := by
    simpa [slot, isStorage] using holds.slots
  have le := Nat.le_mul_of_pos_right (2 * items.length + kMinVectorCapacity) traits.positive
  have sum : sizeAdd index count = index + count := sizeAdd_eq (by omega)
  have difference : sizeSub items.length count = items.length - count :=
    sizeSub_eq (by omega) (by omega)
  have capacityEq : shrinkCapacity (items.length - count) =
      max kMinVectorCapacity ((items.length - count) * 2) := by
    rw [shrinkCapacity, sizeMul_eq (by omega)]
  have bytes : sizeMul (shrinkCapacity (items.length - count)) traits.itemSize =
      shrinkCapacity (items.length - count) * traits.itemSize := by
    apply sizeMul_eq
    apply Nat.lt_of_le_of_lt (Nat.mul_le_mul_right _ _) size
    rw [capacityEq]
    omega
  have length : (items.take index ++ items.drop (index + count)).length =
      items.length - count := by
    simp
    omega
  have enough : items.length - count ≤ shrinkCapacity (items.length - count) := by
    rw [capacityEq]
    omega
  have valid : ¬ sizeAdd index count > vector.mCount := by
    rw [sum, holds.count]
    exact Nat.not_lt.mpr inside
  rw [VectorImpl.removeItemsAt, if_neg valid]
  refine ⟨_, rfl, ?_⟩
  simp only [shrink, isStorage, holds.count, difference, bytes, if_pos few]
  split
  next atEnd =>
    obtain ⟨resized, isResized, mSize, keeps⟩ :=
      buffer.editResize_keeps traits allocated
    have room : items.length - count ≤ resized.mSize / traits.itemSize := by
      rwa [mSize, Nat.mul_div_cancel _ traits.positive]
    simp only [capacity, isStorage] at few
    rw [isResized]
    exact {
      count := length.symm
      room := by rwa [length]
      slots := by
        intro i bound
        rw [length] at bound
        simp only [slot, Option.bind_some]
        rw [keeps i (by omega) (by rw [← mSize]; omega), held i (by omega),
          List.getElem?_append_left (by simp; omega), List.getElem?_take_of_lt (by omega)] }
  next =>
    simp only [SharedBuffer.alloc, allocated, if_true]
    exact {
      count := length.symm
      room := by
        rw [length]
        simpa [capacity, traits.positive] using enough
      slots := by
        intro i bound
        rw [length] at bound
        simp only [slot, Option.bind_some]
        rcases Nat.lt_or_ge i index with early | late
        · have first := copyType_inside (fun _ => none) buffer.slots 0 0 index early
          rw [Nat.zero_add] at first
          rw [copyType_outside _ _ _ _ _ (.inl early), first, held i (by omega),
            List.getElem?_append_left (by simp; omega), List.getElem?_take_of_lt early]
        · have position : i = index + (i - index) := by omega
          rw [position, copyType_inside _ _ _ _ _ (by omega), held _ (by omega),
            List.getElem?_append_right (by rw [List.length_take]; omega), List.getElem?_drop]
          apply congrArg (items[·]?)
          simp
          omega }

end VectorImpl

end DroidKernal.Utils
