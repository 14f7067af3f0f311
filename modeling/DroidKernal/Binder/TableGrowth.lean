import DroidKernal.Binder.HandleTable

/-!
# Handles of every value

The table is asked to grow by `handle + 1 - N` entries.  For a negative handle this wraps
around, to a new size of `handle + 1` modulo `2 ^ 64`: zero for `-1`, and else more than any
memory, so that the allocation, of a number of bytes that has wrapped around as well, decides.
-/

namespace DroidKernal.Binder

open Lib Utils ProcessState

/-- A null pointer for a negative handle, and nothing done; or a table that reaches the
handle, with null pointers in its new entries. -/
def GrowsTo (table : VectorImpl HandleEntry) (entries : List HandleEntry) (handle : Int)
    (result : Lookup × VectorImpl HandleEntry) : Prop :=
  (handle < 0 ∧ result = (.null, table)) ∨
  (0 ≤ handle ∧ (∃ i, result.1 = .slot i) ∧
    ∃ added, result.2.Holds handleEntryTraits
        (entries ++ List.replicate added { binder := none, refs := none }) ∧
      ((entries.length + added : Nat) : Int) = max (entries.length : Int) (handle + 1))

/-- The bytes for a negative handle. -/
def wrappedBytes (handle : Int) : Nat :=
  let newSize := toSize (handle + 1)
  sizeMul (max kMinVectorCapacity (Utils.sizeAdd newSize (newSize / 2)))
    handleEntryTraits.itemSize

section Negative

variable {heap : Utils.Heap} {table : VectorImpl HandleEntry} {entries : List HandleEntry}
  {handle : Int}

/-- The conversion of a negative handle. -/
theorem toSize_negative (negative : handle < 0) (isInt32 : -2 ^ 31 ≤ handle) :
    (toSize handle : Int) = 2 ^ 64 + handle := by
  simp only [toSize]
  omega

/-- The new size depends on the handle alone. -/
theorem sizeAdd_sizeSub (count : Nat) {size : Nat} (isSize : size < 2 ^ 64) :
    Utils.sizeAdd count (sizeSub size count) = size := by
  simp only [Utils.sizeAdd, sizeSub]
  omega

theorem toSize_lt (value : Int) : toSize value < 2 ^ 64 := by
  simp only [toSize]
  omega

/-- The insertion that a lookup makes. -/
def growth (heap : Utils.Heap) (table : VectorImpl HandleEntry) (handle : Int) :
    Int × VectorImpl HandleEntry :=
  table.insertAt handleEntryTraits heap { binder := none, refs := none } table.mCount
    (sizeSub (toSize (handle + 1)) table.mCount)

/-- A lookup of a negative handle always inserts. -/
theorem lookup_negative (heap : Utils.Heap) (short : table.mCount < 2 ^ 31) (negative : handle < 0)
    (isInt32 : -2 ^ 31 ≤ handle) :
    (lookupHandleLocked heap table handle).2 = (growth heap table handle).2 ∧
      ((lookupHandleLocked heap table handle).1 = .null ↔
        wrapInt32 (growth heap table handle).1 < 0 ∨
          (growth heap table handle).2.mStorage = none) := by
  have size := toSize_negative negative isInt32
  rw [lookupHandleLocked]
  simp only
  rw [if_pos (by omega), if_neg (by omega), growth]
  generalize table.insertAt handleEntryTraits heap { binder := none, refs := none } table.mCount
    (sizeSub (toSize (handle + 1)) table.mCount) = inserted
  by_cases error : wrapInt32 inserted.1 < 0
  · simp [error]
  · cases isStorage : inserted.2.mStorage with
    | none => simp [error, VectorImpl.editItemLocation, isStorage]
    | some buffer => simp [error, VectorImpl.editItemLocation, isStorage]

/-- Growing by a number that wraps the size to zero. -/
theorem grow_to_zero {amount : Nat} (wraps : Utils.sizeAdd table.mCount amount = 0) :
    table.grow handleEntryTraits heap table.mCount amount =
      (table.itemLocation handleEntryTraits table.mCount, { table with mCount := 0 }) := by
  simp only [VectorImpl.grow, wraps, Nat.not_lt_zero, if_false, ne_eq, not_true_eq_false,
    Option.map_id']
  rfl

/-- The handle `-1` makes the table empty, and fails only where it has no room. -/
theorem growth_minus_one (heap : Utils.Heap) (table : VectorImpl HandleEntry) :
    (growth heap table (-1)).2.mCount = 0 ∧
      (table.mCount < table.capacity handleEntryTraits →
        (growth heap table (-1)).1 = toSsize table.mCount ∧
          (growth heap table (-1)).2.mStorage ≠ none) ∧
      (¬ table.mCount < table.capacity handleEntryTraits →
        growth heap table (-1) = (Utils.noMemory, { table with mCount := 0 })) := by
  have wraps := sizeAdd_sizeSub table.mCount (toSize_lt (-1 + 1))
  have zero : toSize (-1 + 1) = 0 := rfl
  rw [zero] at wraps
  rw [growth, zero, VectorImpl.insertAt, if_neg (Nat.lt_irrefl _), grow_to_zero wraps,
    VectorImpl.itemLocation]
  by_cases roomy : table.mCount < table.capacity handleEntryTraits
  · have present : table.mStorage.isSome := by
      rw [VectorImpl.capacity] at roomy
      cases isStorage : table.mStorage with
      | none => simp [isStorage] at roomy
      | some buffer => rfl
    obtain ⟨buffer, isStorage⟩ := Option.isSome_iff_exists.mp present
    simp [roomy, isStorage]
  · simp [roomy]

theorem lookup_minus_one_iff (short : table.mCount < 2 ^ 31) :
    lookupHandleLocked heap table (-1) = (.null, table) ↔
      table.mCount = 0 ∧ table.capacity handleEntryTraits = 0 := by
  have minus : (-1 : Int) < 0 ∧ -2 ^ 31 ≤ (-1 : Int) := by decide
  obtain ⟨sameTable, isNull⟩ := lookup_negative heap short minus.1 minus.2
  obtain ⟨emptied, roomy, full⟩ := growth_minus_one heap table
  constructor
  · intro same
    rw [same] at sameTable isNull
    have nothing : table.mCount = 0 := (congrArg VectorImpl.mCount sameTable).trans emptied
    refine ⟨nothing, ?_⟩
    by_contra room
    obtain ⟨where', present⟩ := roomy (by omega)
    rcases isNull.mp rfl with error | absent
    · rw [where', nothing] at error
      revert error
      decide
    · exact present absent
  · rintro ⟨nothing, noRoom⟩
    have failed := full (by omega)
    rw [failed] at sameTable isNull
    have isError : wrapInt32 Utils.noMemory < 0 := by decide
    apply Prod.ext
    · exact isNull.mpr (.inl isError)
    · rw [sameTable, ← nothing]

/-- A smaller handle leaves the table alone if there is no memory for it, and else makes it
longer than any memory. -/
theorem growth_below (heap : Utils.Heap) (sized : table.capacity handleEntryTraits < 2 ^ 60)
    (below : handle < -1) (isInt32 : -2 ^ 31 ≤ handle) :
    (heap.grantsBuffer (wrappedBytes handle) = false →
        growth heap table handle = (Utils.noMemory, table)) ∧
      (heap.grantsBuffer (wrappedBytes handle) = true →
        (growth heap table handle).2.mCount = toSize (handle + 1)) := by
  have newSize := toSize_negative (show handle + 1 < 0 by omega) (by omega)
  have wraps := sizeAdd_sizeSub table.mCount (toSize_lt (handle + 1))
  have isCopied : handleEntryTraits.hasTrivialCopy = false := rfl
  have bytes : sizeMul (VectorImpl.growCapacity table.mCount
      (sizeSub (toSize (handle + 1)) table.mCount)) handleEntryTraits.itemSize =
      wrappedBytes handle := by
    rw [VectorImpl.growCapacity, wraps]
    rfl
  simp only [growth, VectorImpl.insertAt, gt_iff_lt, Nat.lt_irrefl, if_false, VectorImpl.grow,
    wraps, bytes]
  rw [if_pos (by omega)]
  constructor
  · intro refused
    cases table.mStorage <;> simp [SharedBuffer.alloc, refused, isCopied]
  · intro granted
    cases table.mStorage with
    | none =>
        simp only [SharedBuffer.alloc, granted, if_true]
        split
        next place grown found => rw [← (Prod.mk.inj found).2]
        next grown missing => rw [← (Prod.mk.inj missing).2]
    | some buffer =>
        simp only [SharedBuffer.alloc, granted, isCopied, Bool.false_eq_true, false_and, and_false,
          if_false, if_true]
        split
        next place grown found => rw [← (Prod.mk.inj found).2]
        next grown missing => rw [← (Prod.mk.inj missing).2]

theorem lookup_below_iff (short : table.mCount < 2 ^ 31)
    (sized : table.capacity handleEntryTraits < 2 ^ 60) (below : handle < -1)
    (isInt32 : -2 ^ 31 ≤ handle) :
    lookupHandleLocked heap table handle = (.null, table) ↔
      heap.grantsBuffer (wrappedBytes handle) = false := by
  have newSize := toSize_negative (show handle + 1 < 0 by omega) (by omega)
  obtain ⟨sameTable, isNull⟩ :=
    lookup_negative heap short (show handle < 0 by omega) isInt32
  obtain ⟨refused, granted⟩ := growth_below heap sized below isInt32
  constructor
  · intro same
    rw [same] at sameTable
    cases isGranted : heap.grantsBuffer (wrappedBytes handle) with
    | false => rfl
    | true =>
        have count := (congrArg VectorImpl.mCount sameTable).trans (granted isGranted)
        simp only at count
        omega
  · intro isRefused
    rw [refused isRefused] at sameTable isNull
    have isError : wrapInt32 Utils.noMemory < 0 := by decide
    exact Prod.ext (isNull.mpr (.inl isError)) sameTable

end Negative

/-- For which handles the table is right afterwards. -/
def GrowsRightly (heap : Utils.Heap) (table : VectorImpl HandleEntry) (handle : Int) : Prop :=
  (0 ≤ handle ∧ handle ≠ 2 ^ 31 - 1) ∨
    (handle = -1 ∧ table.mCount = 0 ∧ table.capacity handleEntryTraits = 0) ∨
    (handle < -1 ∧ heap.grantsBuffer (wrappedBytes handle) = false)

/-- A lookup that can have the memory for its handle grows the table as it should, or not at
all, exactly for these handles. -/
theorem handle_table_grows_iff {heap : Utils.Heap} {table : VectorImpl HandleEntry}
    {entries : List HandleEntry} {handle : Int} (holds : table.Holds handleEntryTraits entries)
    (short : entries.length < 2 ^ 31) (sized : table.capacity handleEntryTraits < 2 ^ 60)
    (isInt32 : -2 ^ 31 ≤ handle ∧ handle < 2 ^ 31)
    (allocates : 0 ≤ handle → Allocates heap table handle) :
    GrowsTo table entries handle (lookupHandleLocked heap table handle) ↔
      GrowsRightly heap table handle := by
  have count := holds.count
  rcases Int.lt_or_le handle 0 with negative | nonneg
  · have notNonneg : ¬ 0 ≤ handle := Int.not_le.mpr negative
    simp only [GrowsTo, GrowsRightly, negative, notNonneg, true_and, false_and, or_false, false_or]
    rcases Int.lt_or_le handle (-1) with below | atLeast
    · have notMinusOne : handle ≠ -1 := Int.ne_of_lt below
      rw [lookup_below_iff (by omega) sized below isInt32.1]
      simp only [below, notMinusOne, true_and, false_and, false_or]
    · obtain rfl : handle = -1 := by omega
      rw [lookup_minus_one_iff (by omega)]
      simp
  · have notNegative : ¬ handle < 0 := Int.not_lt.mpr nonneg
    have notMinusOne : handle ≠ -1 := by omega
    have notBelow : ¬ handle < -1 := by omega
    simp only [GrowsTo, GrowsRightly, nonneg, notNegative, notMinusOne, notBelow, true_and,
      false_and, or_false, false_or]
    constructor
    · rintro ⟨⟨i, isSlot⟩, _⟩ rfl
      have size : (toSize (2 ^ 31 - 1) : Int) = 2 ^ 31 - 1 := toSize_eq (by decide) (by decide)
      rw [lookupHandleLocked] at isSlot
      simp only at isSlot
      rw [if_pos (by omega), if_pos trivial] at isSlot
      cases isSlot
    · intro notMax
      obtain ⟨grown, found, holdsGrown⟩ := lookupHandleLocked_grows holds (Nat.le_of_lt short)
        nonneg (by omega) (allocates nonneg)
      rw [found]
      exact ⟨⟨0, rfl⟩, handle.toNat + 1 - entries.length, holdsGrown, by omega⟩

/-- A table of one entry in storage for four. -/
def tableOfOne : VectorImpl HandleEntry where
  mStorage := some { mSize := 64, slots := fun i => if i = 0 then some ⟨none, none⟩ else none }
  mCount := 1

theorem tableOfOne_holds : tableOfOne.Holds handleEntryTraits [⟨none, none⟩] where
  count := rfl
  room := by decide
  slots := by
    intro i bound
    obtain rfl : i = 0 := Nat.lt_one_iff.mp bound
    rfl

/-- A lookup of the handle 2 makes it three entries long. -/
theorem handle_table_grows_to_three :
    GrowsTo tableOfOne [⟨none, none⟩] 2 (lookupHandleLocked (fun _ => true) tableOfOne 2) :=
  (handle_table_grows_iff tableOfOne_holds (by decide) (by decide) (by decide)
    fun _ _ => rfl).mpr (.inl (by decide))

/-- A lookup of the handle -1 makes it empty. -/
theorem handle_table_shrinks :
    ¬ ∀ (heap : Utils.Heap) (table : VectorImpl HandleEntry) (entries : List HandleEntry)
      (handle : Int),
      table.Holds handleEntryTraits entries → entries.length < 2 ^ 31 →
      table.capacity handleEntryTraits < 2 ^ 60 → -2 ^ 31 ≤ handle ∧ handle < 2 ^ 31 →
      (0 ≤ handle → Allocates heap table handle) →
      GrowsTo table entries handle (lookupHandleLocked heap table handle) := by
  intro claim
  have right := claim (fun _ => true) tableOfOne _ (-1) tableOfOne_holds (by decide) (by decide)
    (by decide) fun _ _ => rfl
  rcases right with ⟨_, same⟩ | ⟨nonneg, _⟩
  · have count := congrArg (fun result => result.2.mCount) same
    revert count
    decide
  · revert nonneg
    decide

end DroidKernal.Binder
