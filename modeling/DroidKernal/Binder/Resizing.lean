import DroidKernal.Binder.Append

/-!
# Resizing a Parcel

`continueWrite` has four ways to end.  On a Parcel whose sizes are in order it refuses
the size, lacks memory for it, clears a buffer that belongs to someone else, or leaves a
buffer of the Parcel's own with at least the size.
-/

namespace DroidKernal.Binder

open Lib

/-- A heap without memory. -/
def Heap.exhausted : Heap where
  data _ := none
  objects _ := none
  data_mapped := by
    rintro size block ⟨⟩

namespace Parcel

/-- The pointers point to what the sizes say. -/
structure Backed (parcel : Parcel) : Prop where
  size : parcel.mDataSize ≤ parcel.mDataCapacity
  null : parcel.mData = none → parcel.mDataCapacity = 0
  block : ∀ data, parcel.mData = some data →
    0 < data.addr ∧ data.addr + parcel.mDataCapacity ≤ taskSize
  objects : parcel.mObjectsSize ≠ 0 → parcel.mData ≠ none ∧ parcel.mObjects ≠ none

/-- The cursor is inside what is stored. -/
structure Sound (parcel : Parcel) : Prop extends parcel.Backed where
  pos : parcel.mDataPos ≤ parcel.mDataSize

/-- The byte at an offset. -/
def byteAt (parcel : Parcel) (i : Nat) : Option UInt8 := parcel.mData.map fun data => data.cells i

/-- The offset of an object. -/
def objectOffset (parcel : Parcel) (i : Nat) : Option UInt64 :=
  parcel.mObjects.map fun objects => objects.cells i

/-- The address of the flat object with an index. -/
def objectAddr (parcel : Parcel) (i : Nat) : Nat :=
  parcel.ipcData + ((parcel.objectOffset i).map UInt64.toNat).getD 0

/-- How many objects `continueWrite` keeps. -/
def keptCount (parcel : Parcel) (desired : Nat) : Nat := (parcel.objectsKept desired).getD 0

/-- The allocations that `continueWrite` needs succeed. -/
def Allocates (heap : Heap) (parcel : Parcel) (desired : Nat) : Prop :=
  if parcel.mOwner then
    desired = 0 ∨ heap.data desired ≠ none ∧
      (parcel.keptCount desired = 0 ∨ heap.objects (parcel.keptCount desired) ≠ none)
  else parcel.mData ≠ none ∧ desired ≤ parcel.mDataCapacity ∨ heap.data desired ≠ none

/-- What `continueWrite` does to the objects of a Parcel. -/
def resizeEffects (parcel : Parcel) (kept : Nat) : List Effect :=
  if parcel.mOwner then
    (List.range kept).reverse.map (fun i => .acquire (parcel.objectAddr i)) ++ [.owner]
  else (List.range' kept (parcel.mObjectsSize - kept)).map fun i => .release (parcel.objectAddr i)

/-- `after` has a buffer of its own, with at least `desired` bytes.  The cursor is not
moved where the buffer was someone else's. -/
structure Resized (parcel : Parcel) (desired : Nat) (after : Parcel) : Prop where
  size : after.mDataSize = min parcel.mDataSize desired
  pos : parcel.mDataPos ≤ parcel.mDataSize →
    after.mDataPos = if parcel.mOwner then parcel.mDataPos else min parcel.mDataPos desired
  capacity : desired ≤ after.mDataCapacity
  grown : parcel.mDataCapacity < desired → after.mDataCapacity = desired
  error : after.mError = parcel.mError
  owner : after.mOwner = false
  bytes : ∀ i, i < parcel.mDataSize → i < desired → after.byteAt i = parcel.byteAt i
  notNull : after.mData ≠ none
  block : ∀ data, after.mData = some data →
    0 < data.addr ∧ data.addr + after.mDataCapacity ≤ taskSize
  objectsSize : after.mObjectsSize = parcel.keptCount desired
  objects : ∀ i, i < parcel.keptCount desired → after.objectOffset i = parcel.objectOffset i
  objectsNotNull : parcel.keptCount desired ≠ 0 → after.mObjects ≠ none

/-- How `continueWrite` ends. -/
inductive Continued (heap : Heap) (parcel : Parcel) (desired : Nat) : Outcome Int → Prop where
  | tooBig (large : int32Max < desired) :
      Continued heap parcel desired { value := badValue, parcel, effects := [] }
  | outOfMemory (small : desired ≤ int32Max) (fails : ¬ parcel.Allocates heap desired) :
      Continued heap parcel desired
        { value := noMemory, parcel := { parcel with mError := noMemory }, effects := [] }
  | cleared (owned : parcel.mOwner = true) (isZero : desired = 0) :
      Continued heap parcel desired
        { value := noError, parcel := initState, effects := [.owner] }
  | resized {after : Parcel} (small : desired ≤ int32Max)
      (allocates : parcel.Allocates heap desired)
      (notCleared : parcel.mOwner = true → desired ≠ 0)
      (resized : parcel.Resized desired after) :
      Continued heap parcel desired
        { value := noError, parcel := after
          effects := parcel.resizeEffects (parcel.keptCount desired) }

section Backed

variable {parcel : Parcel} {heap : Heap} {desired : Nat}

theorem objectsBelow_cases {objects : Block UInt64} (isObjects : parcel.mObjects = some objects)
    (desired count : Nat) :
    ∃ kept, kept ≤ count ∧ parcel.objectsBelow desired count = some kept ∧
      (kept ≠ 0 → (objects.cells (kept - 1)).toNat < desired) ∧
      ∀ i, kept ≤ i → i < count → desired ≤ (objects.cells i).toNat := by
  induction count with
  | zero => exact ⟨0, Nat.le_refl 0, rfl, fun some => absurd rfl some, by simp⟩
  | succ count ih =>
      rw [objectsBelow, isObjects, Option.bind_eq_bind, Option.bind_some]
      split
      next below =>
        refine ⟨count + 1, Nat.le_refl _, rfl, fun _ => below, fun i late early => ?_⟩
        exact absurd early (Nat.not_lt.mpr late)
      next beyond =>
        obtain ⟨kept, within, found, last, dropped⟩ := ih
        refine ⟨kept, Nat.le_succ_of_le within, found, last, fun i late early => ?_⟩
        rcases Nat.lt_or_eq_of_le (Nat.le_of_lt_succ early) with earlier | rfl
        · exact dropped i late earlier
        · exact Nat.le_of_not_lt beyond

/-- Where the size does not shrink, all objects are kept. -/
theorem keptCount_of_le (grows : parcel.mDataSize ≤ desired) :
    parcel.keptCount desired = parcel.mObjectsSize := by
  rw [keptCount, objectsKept, if_neg (Nat.not_lt.mpr grows)]
  rfl

namespace Backed

variable (backed : parcel.Backed)

include backed

theorem objectsKept_eq (desired : Nat) :
    parcel.objectsKept desired = some (parcel.keptCount desired) ∧
      parcel.keptCount desired ≤ parcel.mObjectsSize := by
  have kept : ∃ kept, parcel.objectsKept desired = some kept ∧ kept ≤ parcel.mObjectsSize := by
    rw [objectsKept]
    split
    next =>
      split
      next => exact ⟨0, rfl, Nat.zero_le _⟩
      next =>
        rcases Nat.eq_zero_or_pos parcel.mObjectsSize with none | some
        · rw [none]
          exact ⟨0, rfl, Nat.le_refl 0⟩
        · have notNull := (backed.objects (Nat.ne_of_gt some)).2
          obtain ⟨objects, isObjects⟩ := Option.ne_none_iff_exists'.mp notNull
          obtain ⟨kept, within, found, _⟩ :=
            objectsBelow_cases isObjects desired parcel.mObjectsSize
          exact ⟨kept, found, within⟩
    next => exact ⟨_, rfl, Nat.le_refl _⟩
  obtain ⟨kept, found, within⟩ := kept
  rw [keptCount, found]
  exact ⟨rfl, within⟩

end Backed

/-- Objects behind pointers that are not null. -/
theorem flatObjects_eq (isData : parcel.mData ≠ none) (isObjects : parcel.mObjects ≠ none)
    (indices : List Nat) :
    parcel.flatObjects indices = some (indices.map parcel.objectAddr) := by
  obtain ⟨data, isData⟩ := Option.ne_none_iff_exists'.mp isData
  obtain ⟨objects, isObjects⟩ := Option.ne_none_iff_exists'.mp isObjects
  rw [flatObjects]
  induction indices with
  | nil => rfl
  | cons i indices ih =>
      rw [List.mapM_cons, ih]
      simp [isData, isObjects, objectAddr, objectOffset, ipcData]

/-- The buffer that `continueWrite` fills from one that belongs to someone else. -/
def copiedData (parcel : Parcel) (new : Block UInt8) (kept : Nat) : Block UInt8 :=
  match parcel.mData with
  | none => new
  | some old => old.moveTo new kept

@[simp] theorem copiedData_addr (parcel : Parcel) (new : Block UInt8) (kept : Nat) :
    (parcel.copiedData new kept).addr = new.addr := by
  rw [copiedData]
  split <;> rfl

namespace Backed

variable (backed : parcel.Backed)

include backed

theorem copiedData_cells (new : Block UInt8) {kept i : Nat} (bound : i < kept)
    (within : i < parcel.mDataSize) :
    some ((parcel.copiedData new kept).cells i) = parcel.byteAt i := by
  rw [copiedData, byteAt]
  cases isData : parcel.mData with
  | none =>
      have empty := backed.null isData
      have size := backed.size
      omega
  | some old => simp [Block.moveTo, bound]

/-- The Parcel that takes over a buffer, with `objects` for the kept objects. -/
theorem taken_resized (owned : parcel.mOwner = true) {new : Block UInt8}
    (isNew : heap.data desired = some new) (objects : Option (Block UInt64))
    (same : ∀ i, i < parcel.keptCount desired →
      objects.map (·.cells i) = parcel.objectOffset i)
    (notNull : parcel.keptCount desired ≠ 0 → objects ≠ none) :
    parcel.Resized desired
      { parcel with
        mData := some (parcel.copiedData new (min parcel.mDataSize desired))
        mDataSize := min parcel.mDataSize desired
        mDataCapacity := desired
        mObjects := objects
        mObjectsSize := parcel.keptCount desired
        mObjectsCapacity := parcel.keptCount desired
        mOwner := false } where
  size := rfl
  pos := fun _ => (if_pos owned).symm
  capacity := Nat.le_refl _
  grown := fun _ => rfl
  error := rfl
  owner := rfl
  bytes := fun i within below =>
    backed.copiedData_cells new (Nat.lt_min.mpr ⟨within, below⟩) within
  notNull := Option.some_ne_none _
  block := by
    rintro data ⟨⟩
    rw [copiedData_addr]
    exact heap.data_mapped desired new isNew
  objectsSize := rfl
  objects := same
  objectsNotNull := notNull

theorem takeOwnership_continued (owned : parcel.mOwner = true) (small : desired ≤ int32Max) :
    ∃ outcome, parcel.takeOwnership heap desired (parcel.keptCount desired) = some outcome ∧
      Continued heap parcel desired outcome := by
  rw [takeOwnership]
  split
  next isZero =>
    refine ⟨_, ?_, .cleared owned isZero⟩
    simp [freeDataNoInit, owned]
  next nonzero =>
    cases isNew : heap.data desired with
    | none =>
        refine ⟨_, rfl, .outOfMemory small ?_⟩
        simp [Allocates, owned, nonzero, isNew]
    | some new =>
        by_cases noObjects : parcel.keptCount desired = 0
        · have allocates : parcel.Allocates heap desired := by
            simp [Allocates, owned, isNew, noObjects]
          have resized := backed.taken_resized owned isNew none
            (fun i below => absurd below (by simp [noObjects]))
            (fun some => absurd noObjects some)
          have continued := Continued.resized small allocates (fun _ => nonzero) resized
          rw [resizeEffects, if_pos owned] at continued
          refine ⟨_, ?_, continued⟩
          simp only [noObjects]
          rfl
        · have within := (backed.objectsKept_eq desired).2
          have notNull := backed.objects (by omega)
          cases isObjects : heap.objects (parcel.keptCount desired) with
          | none =>
              refine ⟨_, ?_, .outOfMemory small ?_⟩
              · simp only [if_neg noObjects]
                rfl
              · simp [Allocates, owned, nonzero, isNew, noObjects, isObjects]
          | some objects =>
              obtain ⟨old, isOld⟩ := Option.ne_none_iff_exists'.mp notNull.2
              have acquired : Parcel.acquireObjects
                  { parcel with mObjectsSize := parcel.keptCount desired } =
                  some ((List.range (parcel.keptCount desired)).reverse.map fun i =>
                    .acquire (parcel.objectAddr i)) := by
                have reached := @flatObjects_eq
                  { parcel with mObjectsSize := parcel.keptCount desired } notNull.1 notNull.2
                  (List.range (parcel.keptCount desired)).reverse
                rw [acquireObjects, reached, Option.map_some, List.map_map]
                rfl
              have allocates : parcel.Allocates heap desired := by
                simp [Allocates, owned, isNew, isObjects]
              have resized := backed.taken_resized owned isNew
                (some (old.moveTo objects (parcel.keptCount desired)))
                (fun i below => by simp [objectOffset, isOld, Block.moveTo, below])
                (fun _ => Option.some_ne_none _)
              have continued := Continued.resized small allocates (fun _ => nonzero) resized
              rw [resizeEffects, if_pos owned] at continued
              refine ⟨_, ?_, continued⟩
              simp only [if_neg noObjects, acquired, Option.bind_eq_bind, Option.bind_some]
              rw [isOld]
              rfl

theorem dropObjects_eq (heap : Heap) (kept : Nat) (within : kept ≤ parcel.mObjectsSize) :
    ∃ after, parcel.dropObjects heap kept =
        some (after, (List.range' kept (parcel.mObjectsSize - kept)).map fun i =>
          .release (parcel.objectAddr i)) ∧
      after = { parcel with
        mObjects := after.mObjects
        mObjectsSize := kept
        mObjectsCapacity := after.mObjectsCapacity } ∧
      (∀ i, i < kept → after.objectOffset i = parcel.objectOffset i) ∧
      (kept ≠ 0 → after.mObjects ≠ none) := by
  rw [dropObjects]
  split
  next fewer =>
    have notNull := backed.objects (by omega)
    obtain ⟨old, isOld⟩ := Option.ne_none_iff_exists'.mp notNull.2
    rw [flatObjects_eq notNull.1 notNull.2, Option.bind_eq_bind, Option.bind_some, List.map_map]
    by_cases empty : kept = 0
    · exact ⟨_, rfl, by simp [empty], by simp [empty], fun some => absurd empty some⟩
    · cases isNew : heap.objects kept with
      | none =>
          refine ⟨_, rfl, ?_, ?_, ?_⟩
          · simp [empty, isOld]
          · simp [empty, isOld, objectOffset]
          · simp [empty, isOld]
      | some new =>
          refine ⟨_, rfl, ?_, ?_, ?_⟩
          · simp [empty, isOld]
          · intro i below
            simp [empty, isOld, objectOffset, Block.moveTo, below]
          · simp [empty, isOld]
  next all =>
    have same : kept = parcel.mObjectsSize := Nat.le_antisymm within (Nat.le_of_not_lt all)
    rw [same, Nat.sub_self]
    exact ⟨parcel, rfl, rfl, fun _ _ => rfl, fun some => (backed.objects some).2⟩

/-- Shrinking in place. -/
theorem shrunk_resized (own : parcel.mOwner = false) {after : Parcel}
    (same : after = { parcel with
      mObjects := after.mObjects
      mObjectsSize := parcel.keptCount desired
      mObjectsCapacity := after.mObjectsCapacity })
    (objects : ∀ i, i < parcel.keptCount desired → after.objectOffset i = parcel.objectOffset i)
    (notNull : parcel.keptCount desired ≠ 0 → after.mObjects ≠ none)
    (isData : parcel.mData ≠ none) (room : desired ≤ parcel.mDataCapacity) :
    parcel.Resized desired
      { after with
        mDataSize := min after.mDataSize desired
        mDataPos := min after.mDataPos desired } := by
  rw [same]
  exact {
    size := rfl
    pos := fun _ => by simp [own]
    capacity := room
    grown := fun more => absurd room (Nat.not_le.mpr more)
    error := rfl
    owner := own
    bytes := fun _ _ _ => rfl
    notNull := isData
    block := backed.block
    objectsSize := rfl
    objects := objects
    objectsNotNull := notNull }

theorem resizeOwn_continued (own : parcel.mOwner = false) (small : desired ≤ int32Max)
    {data : Block UInt8} (isData : parcel.mData = some data) :
    ∃ outcome, parcel.resizeOwn heap data desired (parcel.keptCount desired) = some outcome ∧
      Continued heap parcel desired outcome := by
  have notCleared : parcel.mOwner = true → desired ≠ 0 := by simp [own]
  have isSome : parcel.mData ≠ none := by simp [isData]
  by_cases grows : desired > parcel.mDataCapacity
  · have all := keptCount_of_le (Nat.le_trans backed.size (Nat.le_of_lt grows))
    have nothing : parcel.dropObjects heap (parcel.keptCount desired) = some (parcel, []) := by
      rw [dropObjects, all, if_neg (Nat.lt_irrefl _)]
    rw [resizeOwn, nothing, Option.bind_eq_bind, Option.bind_some]
    simp only [if_pos grows]
    cases isNew : heap.data desired with
    | none =>
        refine ⟨_, rfl, .outOfMemory small ?_⟩
        simp [Allocates, own, isNew, Nat.not_le.mpr grows]
    | some new =>
        have resized : parcel.Resized desired
            { parcel with
              mData := some (data.moveTo new parcel.mDataCapacity), mDataCapacity := desired } :=
          { size := by
              have size := backed.size
              simp only
              omega
            pos := by
              intro pos
              have size := backed.size
              simp only [own, Bool.false_eq_true, if_false]
              omega
            capacity := Nat.le_refl _
            grown := fun _ => rfl
            error := rfl
            owner := own
            bytes := by
              intro i within _
              have inside : i < parcel.mDataCapacity := Nat.lt_of_lt_of_le within backed.size
              simp [byteAt, isData, Block.moveTo, inside]
            notNull := Option.some_ne_none _
            block := by
              rintro moved ⟨⟩
              exact heap.data_mapped desired new isNew
            objectsSize := all.symm
            objects := fun _ _ => rfl
            objectsNotNull := fun some => (backed.objects (by omega)).2 }
        have allocates : parcel.Allocates heap desired := by simp [Allocates, own, isNew]
        have continued := Continued.resized small allocates notCleared resized
        have unchanged : parcel.resizeEffects (parcel.keptCount desired) = [] := by
          simp [resizeEffects, own, all]
        rw [unchanged] at continued
        exact ⟨_, rfl, continued⟩
  · have room := Nat.le_of_not_lt grows
    obtain ⟨after, dropped, same, objects, notNull⟩ :=
      backed.dropObjects_eq heap _ (backed.objectsKept_eq desired).2
    have capacity : after.mDataCapacity = parcel.mDataCapacity := by rw [same]
    have resized := backed.shrunk_resized own same objects notNull isSome room
    have allocates : parcel.Allocates heap desired := by simp [Allocates, own, isSome, room]
    have continued := Continued.resized small allocates notCleared resized
    rw [resizeEffects, own] at continued
    refine ⟨_, ?_, continued⟩
    rw [resizeOwn, dropped, Option.bind_eq_bind, Option.bind_some]
    simp only [capacity, if_neg grows]
    rfl

theorem continueWrite_continued (heap : Heap) (desired : Nat) :
    ∃ outcome, parcel.continueWrite heap desired = some outcome ∧
      Continued heap parcel desired outcome := by
  rw [continueWrite]
  split
  next large => exact ⟨_, rfl, .tooBig large⟩
  next notLarge =>
    have small := Nat.le_of_not_lt notLarge
    rw [(backed.objectsKept_eq desired).1, Option.bind_eq_bind, Option.bind_some]
    split
    next owned => exact backed.takeOwnership_continued owned small
    next notOwned =>
      have own : parcel.mOwner = false := Bool.eq_false_iff.mpr notOwned
      split
      next data isData => exact backed.resizeOwn_continued own small isData
      next isData =>
        have empty : parcel.mDataSize = 0 :=
          Nat.le_zero.mp (backed.null isData ▸ backed.size)
        have noObjects : parcel.mObjectsSize = 0 := by
          by_contra some
          exact (backed.objects some).1 isData
        have kept : parcel.keptCount desired = 0 := by
          rw [keptCount_of_le (empty ▸ Nat.zero_le _), noObjects]
        cases isNew : heap.data desired with
        | none =>
            refine ⟨_, rfl, .outOfMemory small ?_⟩
            simp [Allocates, own, isData, isNew]
        | some new =>
            have resized : parcel.Resized desired
                { parcel with
                  mData := some new, mDataSize := 0, mDataPos := 0, mDataCapacity := desired } :=
              { size := by simp [empty]
                pos := fun pos => by simp [own, Nat.le_zero.mp (empty ▸ pos)]
                capacity := Nat.le_refl _
                grown := fun _ => rfl
                error := rfl
                owner := own
                bytes := by simp [empty]
                notNull := Option.some_ne_none _
                block := by
                  rintro data ⟨⟩
                  exact heap.data_mapped desired new isNew
                objectsSize := noObjects.trans kept.symm
                objects := fun _ _ => rfl
                objectsNotNull := fun some => absurd kept some }
            have allocates : parcel.Allocates heap desired := by simp [Allocates, own, isNew]
            have continued := Continued.resized small allocates (by simp [own]) resized
            have unchanged : parcel.resizeEffects (parcel.keptCount desired) = [] := by
              simp [resizeEffects, own, kept, noObjects]
            rw [unchanged] at continued
            exact ⟨_, rfl, continued⟩

end Backed

/-- What is resized is sound, unless it is cut off before the cursor. -/
theorem Resized.sound {after : Parcel} (resized : parcel.Resized desired after)
    (sound : parcel.Sound) (behind : parcel.mOwner = true → parcel.mDataPos ≤ desired) :
    after.Sound where
  pos := by
    have pos := sound.pos
    rw [resized.pos pos, resized.size]
    split
    next owned =>
      have within := behind owned
      omega
    next => omega
  size := by
    have capacity := resized.capacity
    rw [resized.size]
    omega
  null := fun isNull => absurd isNull resized.notNull
  block := resized.block
  objects := fun some => ⟨resized.notNull, resized.objectsNotNull (resized.objectsSize ▸ some)⟩

end Backed

end Parcel

end DroidKernal.Binder
