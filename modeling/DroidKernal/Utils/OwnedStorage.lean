import DroidKernal.Utils.VectorStorage

/-!
# Vectors that own their storage

An operation on a Vector that shares its storage with no other takes the Vector from
one buffer to another or the same, and touches no other buffer.
-/

namespace DroidKernal.Utils

open Lib

variable {T : Type}

/-- An operation by the only owner of a buffer, or of none: afterwards it owns one buffer
or none, every other buffer in use is as before, and nothing else is in use. -/
structure Swaps (before after : VectorStorage T) (old new : Option Nat) : Prop where
  exclusive : after.Exclusive
  kept : ∀ buf, before.Live buf → old ≠ some buf →
    after.Live buf ∧ after.block buf = before.block buf
  held : ∀ buf, new = some buf → after.Live buf ∧ (before.Live buf → old = some buf)
  owned : ∀ buf, after.Live buf → before.Live buf ∧ old ≠ some buf ∨ new = some buf

section Swaps

variable {storage after : VectorStorage T} {vector : VectorObject} {traits : Traits}
  {a : Allocator (Option T)} {buf : Nat}

/-- The Vector's buffer is in use. -/
def VectorObject.Owns (storage : VectorStorage T) (vector : VectorObject) : Prop :=
  ∀ buf, vector.mStorage = some buf → storage.Live buf

theorem Swaps.refl (exclusive : storage.Exclusive) (owns : vector.Owns storage) :
    Swaps storage storage vector.mStorage vector.mStorage where
  exclusive := exclusive
  kept := fun _ live _ => ⟨live, rfl⟩
  held := fun buf isBuf => ⟨owns buf isBuf, fun _ => isBuf⟩
  owned := by
    intro buf live
    by_cases isBuf : vector.mStorage = some buf
    · exact .inr isBuf
    · exact .inl ⟨live, isBuf⟩

theorem Swaps.trans {middle : VectorStorage T} {old between new : Option Nat}
    (first : Swaps storage middle old between) (second : Swaps middle after between new) :
    Swaps storage after old new where
  exclusive := second.exclusive
  kept := by
    intro buf live differs
    obtain ⟨middleLive, middleSame⟩ := first.kept buf live differs
    have notBetween : between ≠ some buf :=
      fun isBetween => differs ((first.held buf isBetween).2 live)
    obtain ⟨afterLive, afterSame⟩ := second.kept buf middleLive notBetween
    exact ⟨afterLive, afterSame.trans middleSame⟩
  held := by
    intro buf isNew
    obtain ⟨live, wasBetween⟩ := second.held buf isNew
    refine ⟨live, fun wasLive => ?_⟩
    by_contra differs
    have isBetween := wasBetween (first.kept buf wasLive differs).1
    exact differs ((first.held buf isBetween).2 wasLive)
  owned := by
    intro buf live
    rcases second.owned buf live with ⟨middleLive, notBetween⟩ | isNew
    · rcases first.owned buf middleLive with before | isBetween
      · exact .inl before
      · exact absurd isBetween notBetween
    · exact .inr isNew

/-- Stores into its own buffer. -/
theorem Swaps.setSlots (exclusive : storage.Exclusive) (owns : vector.Owns storage)
    (slots : Slots T) :
    Swaps storage (vector.setSlots storage slots) vector.mStorage vector.mStorage := by
  have same := Swaps.refl exclusive owns
  rw [VectorObject.setSlots]
  cases isBuf : vector.mStorage with
  | none => rwa [isBuf] at same
  | some buf =>
      rw [isBuf] at same
      exact {
        exclusive := exclusive.set (exclusive.refs buf (owns buf isBuf))
        kept := fun other live differs =>
          ⟨live, Blocks.set_block fun isBuf => differs (isBuf ▸ rfl)⟩
        held := same.held
        owned := same.owned }

/-- `release_storage` by the only owner frees its buffer. -/
theorem VectorObject.releaseStorage_eq (exclusive : storage.Exclusive)
    (owns : vector.Owns storage) (isBuf : vector.mStorage = some buf) :
    vector.releaseStorage traits storage =
      (storage.set buf {
        storage.block buf with
        mRefs := 0
        cells := destroyType traits (storage.block buf).cells 0 vector.mCount }).free buf := by
  have only := exclusive.onlyOwner (owns buf isBuf)
  simp only [VectorObject.releaseStorage, isBuf, Storage.release, only, if_true,
    VectorObject.setSlots, VectorObject.slots, Storage.setRefs, Blocks.set_block_self,
    Blocks.set_set]

/-- The heap after that. -/
theorem VectorObject.releaseStorage_spec (vector : VectorObject) (traits : Traits)
    (exclusive : storage.Exclusive)
    (owns : vector.Owns storage) :
    (vector.releaseStorage traits storage).Exclusive ∧
      ∀ other, ((vector.releaseStorage traits storage).Live other ↔
          storage.Live other ∧ vector.mStorage ≠ some other) ∧
        (vector.mStorage ≠ some other →
          (vector.releaseStorage traits storage).block other = storage.block other) := by
  cases isBuf : vector.mStorage with
  | none =>
      have nothing : vector.releaseStorage traits storage = storage := by
        rw [VectorObject.releaseStorage, isBuf]
      rw [nothing]
      exact ⟨exclusive, fun other => ⟨by simp, fun _ => rfl⟩⟩
  | some buf =>
      have live := owns buf isBuf
      rw [VectorObject.releaseStorage_eq exclusive owns isBuf]
      refine ⟨⟨exclusive.sane.set.free live, ?_⟩, fun other => ⟨?_, ?_⟩⟩
      · intro other otherLive
        obtain ⟨wasLive, differ⟩ := Blocks.live_free.mp otherLive
        rw [Blocks.free_block, Blocks.set_block differ]
        exact exclusive.refs other wasLive
      · rw [Blocks.live_free, Blocks.live_set, Option.some_inj.ne, ne_comm]
      · intro differ
        exact Blocks.set_block fun same => differ (same ▸ rfl)

/-- Taking over a new buffer and releasing the old one. -/
theorem Swaps.adopt (exclusive : storage.Exclusive) (owns : vector.Owns storage)
    {buffer : CountedBuffer (Option T)} (one : buffer.mRefs = 1) (filled : Slots T) :
    Swaps storage
      (vector.adopt traits (storage.add buffer) storage.allocated filled).1 vector.mStorage
      (some storage.allocated) := by
  have newLive : ∀ other, Blocks.Live (storage.add buffer) other ↔
      storage.Live other ∨ other = storage.allocated := fun other => Blocks.live_add exclusive.sane
  have filledExclusive : Storage.Exclusive ((storage.add buffer).set storage.allocated
      { (storage.add buffer).block storage.allocated with cells := filled }) :=
    (exclusive.add one).set (by simpa using one)
  obtain ⟨released, spec⟩ := VectorObject.releaseStorage_spec vector traits filledExclusive
    (fun buf isBuf => (newLive buf).mpr (.inl (owns buf isBuf)))
  have notNew : vector.mStorage ≠ some storage.allocated :=
    fun isNew => (owns _ isNew).ne_new rfl
  exact {
    exclusive := released
    kept := by
      intro other live differs
      refine ⟨(spec other).1.mpr ⟨(newLive other).mpr (.inl live), differs⟩, ?_⟩
      refine ((spec other).2 differs).trans ?_
      rw [Blocks.set_block live.ne_new, Blocks.add_block live.ne_new]
    held := by
      intro other isNew
      cases isNew
      exact ⟨(spec _).1.mpr ⟨(newLive _).mpr (.inr rfl), notNew⟩, fun live => absurd rfl live.ne_new⟩
    owned := by
      intro other live
      obtain ⟨wasLive, differs⟩ := (spec other).1.mp live
      rcases (newLive other).mp wasLive with before | rfl
      · exact .inl ⟨before, differs⟩
      · exact .inr rfl }

/-- Resizing. -/
theorem Swaps.resized (exclusive : storage.Exclusive) (owns : vector.Owns storage)
    (isBuf : vector.mStorage = some buf) {newSize : Nat} {result : Option Nat × VectorStorage T}
    (resizes : Storage.Resizes a traits.itemSize storage buf newSize result) :
    Swaps storage result.2 vector.mStorage (result.1.or vector.mStorage) := by
  have live := owns buf isBuf
  have same := Swaps.refl exclusive owns
  rw [isBuf] at same ⊢
  cases resizes with
  | same size => exact same
  | failed noRealloc noMalloc => exact same
  | inPlace cells found =>
      exact {
        exclusive := exclusive.set (exclusive.refs buf live)
        kept := fun other live differs =>
          ⟨live, Blocks.set_block fun isBuf => differs (isBuf ▸ rfl)⟩
        held := same.held
        owned := same.owned }
  | @moved cells after found resizedExclusive allocated freed new kept =>
      have newLive : ∀ other, after.Live other ↔
          (storage.Live other ∨ other = storage.allocated) ∧ buf ≠ other := by
        intro other
        rw [Blocks.Live, allocated, freed, List.mem_append, List.mem_singleton, not_or, ← and_assoc,
          ne_comm (a := buf)]
        have grown : Blocks.Live (storage.add ⟨0, 0, cells⟩) other ↔
            storage.Live other ∨ other = storage.allocated := Blocks.live_add exclusive.sane
        exact and_congr_left fun _ => grown
      exact {
        exclusive := resizedExclusive
        kept := by
          intro other otherLive differs
          have notOld : buf ≠ other := fun same => differs (same ▸ rfl)
          exact ⟨(newLive other).mpr ⟨.inl otherLive, notOld⟩,
            kept other otherLive.ne_new notOld.symm⟩
        held := by
          intro other isNew
          cases isNew
          exact ⟨(newLive _).mpr ⟨.inr rfl, live.ne_new⟩,
            fun otherLive => absurd rfl otherLive.ne_new⟩
        owned := by
          intro other otherLive
          obtain ⟨before | rfl, differs⟩ := (newLive other).mp otherLive
          · exact .inl ⟨before, fun same => differs (Option.some.inj same)⟩
          · exact .inr rfl }

/-- Growing by `editResize` does not lose the buffer. -/
def VectorObject.GrowKeeps (traits : Traits) (a : Allocator (Option T))
    (storage : VectorStorage T) (vector : VectorObject) (index amount : Nat) : Prop :=
  vector.capacity traits storage < sizeAdd vector.mCount amount →
    vector.mStorage.isSome ∧ vector.mCount = index ∧ traits.hasTrivialCopy ∧
        traits.hasTrivialDtor →
      a.KeepsBuffer (sizeMul (VectorImpl.growCapacity vector.mCount amount) traits.itemSize)

/-- Shrinking by `editResize` does not lose the buffer. -/
def VectorObject.ShrinkKeeps (traits : Traits) (a : Allocator (Option T))
    (storage : VectorStorage T) (vector : VectorObject) (index amount : Nat) : Prop :=
  let newSize := sizeSub vector.mCount amount
  newSize < vector.capacity traits storage / 2 →
    index = newSize ∧ traits.hasTrivialCopy ∧ traits.hasTrivialDtor →
      a.KeepsBuffer (sizeMul (VectorImpl.shrinkCapacity newSize) traits.itemSize)

/-- No call of `editResize` loses a buffer. -/
def VectorCall.Keeps {ι : Type} (traits : Traits) (a : Allocator (Option T))
    (storage : VectorStorage T) (vector : VectorObject) : VectorCall ι T → Prop
  | .insertAt _ _ index numItems => vector.GrowKeeps traits a storage index numItems
  | .push _ _ => vector.GrowKeeps traits a storage vector.mCount 1
  | .removeItemsAt _ index count =>
      sizeAdd index count ≤ vector.mCount → vector.ShrinkKeeps traits a storage index count
  | .clear _ => vector.ShrinkKeeps traits a storage 0 vector.mCount
  | .construct _ | .copy _ _ | .setCapacity _ _ | .editItemAt _ _ _ | .destroy _ => True

/-- What `alloc` returns. -/
theorem alloc_cases (a : Allocator (Option T)) (storage : VectorStorage T) (size : Nat) :
    (∃ cells, Storage.alloc a storage size =
      (some storage.allocated, storage.add { mRefs := 1, mSize := size, cells })) ∨
    Storage.alloc a storage size = (none, storage) := by
  rw [Storage.alloc]
  cases a.mallocBuffer size with
  | none => exact .inr rfl
  | some cells => exact .inl ⟨cells, rfl⟩

/-- The only owner edits its buffer in place. -/
theorem VectorObject.editArrayImpl_eq (exclusive : storage.Exclusive)
    (owns : vector.Owns storage) :
    vector.editArrayImpl traits a storage = some (storage, vector) := by
  rw [VectorObject.editArrayImpl]
  cases isBuf : vector.mStorage with
  | none => rfl
  | some buf =>
      simp only
      rw [exclusive.attemptEdit (owns buf isBuf)]

/-- `_grow`. -/
theorem Swaps.grow (exclusive : storage.Exclusive) (owns : vector.Owns storage)
    {index amount : Nat} {result : Option Nat × VectorStorage T × VectorObject}
    (keeps : vector.GrowKeeps traits a storage index amount)
    (grown : vector.grow traits a storage index amount = some result) :
    Swaps storage result.2.1 vector.mStorage result.2.2.mStorage := by
  rw [VectorObject.grow] at grown
  simp only at grown
  split at grown
  next full =>
    split at grown
    next resizable =>
      obtain ⟨buf, isBuf, rfl⟩ := Option.map_eq_some_iff.mp grown
      have swaps := Swaps.resized exclusive owns isBuf
        (exclusive.editResize_resizes (owns buf isBuf) a traits.itemSize
          (sizeMul (VectorImpl.growCapacity vector.mCount amount) traits.itemSize)
          (keeps full resizable))
      split
      next resized storage' isResized =>
        rw [isResized] at swaps
        exact swaps
      next storage' isResized =>
        rw [isResized] at swaps
        exact swaps
    next =>
      rcases alloc_cases a storage
          (sizeMul (VectorImpl.growCapacity vector.mCount amount) traits.itemSize) with
        ⟨cells, found⟩ | failed
      · rw [found] at grown
        cases grown
        exact Swaps.adopt exclusive owns rfl _
      · rw [failed] at grown
        cases grown
        exact Swaps.refl exclusive owns
  next =>
    rw [VectorObject.editArrayImpl_eq exclusive owns] at grown
    cases grown
    simp only
    split
    next => exact Swaps.setSlots exclusive owns _
    next => exact Swaps.refl exclusive owns

/-- The stores after an operation that may have changed the buffer. -/
theorem Swaps.thenStore {result : VectorObject}
    (swaps : Swaps storage after vector.mStorage result.mStorage) (slots : Slots T) :
    Swaps storage (result.setSlots after slots) vector.mStorage result.mStorage :=
  swaps.trans (.setSlots swaps.exclusive (fun buf isBuf => (swaps.held buf isBuf).1) slots)

/-- `insertAt`. -/
theorem Swaps.insertAt (exclusive : storage.Exclusive) (owns : vector.Owns storage) {item : T}
    {index numItems : Nat} {result : Int × VectorStorage T × VectorObject}
    (keeps : vector.GrowKeeps traits a storage index numItems)
    (inserted : vector.insertAt traits a storage item index numItems = some result) :
    Swaps storage result.2.1 vector.mStorage result.2.2.mStorage := by
  rw [VectorObject.insertAt] at inserted
  split at inserted
  next =>
    cases inserted
    exact Swaps.refl exclusive owns
  next =>
    obtain ⟨⟨place, storage', vector'⟩, grown, done⟩ := Option.bind_eq_some_iff.mp inserted
    have swaps := Swaps.grow exclusive owns keeps grown
    cases place with
    | none =>
        cases done
        exact swaps
    | some place =>
        cases done
        exact swaps.thenStore _

/-- `_shrink`. -/
theorem Swaps.shrink (exclusive : storage.Exclusive) (owns : vector.Owns storage)
    {index amount : Nat} {result : VectorStorage T × VectorObject}
    (keeps : vector.ShrinkKeeps traits a storage index amount)
    (shrunk : vector.shrink traits a storage index amount = some result) :
    Swaps storage result.1 vector.mStorage result.2.mStorage := by
  rw [VectorObject.shrink] at shrunk
  split at shrunk
  next =>
    cases shrunk
    exact Swaps.refl exclusive owns
  next buf isBuf =>
    simp only at shrunk
    split at shrunk
    next few =>
      split at shrunk
      next atEnd =>
        have swaps := Swaps.resized exclusive owns isBuf
          (exclusive.editResize_resizes (owns buf isBuf) a traits.itemSize
            (sizeMul (VectorImpl.shrinkCapacity (sizeSub vector.mCount amount)) traits.itemSize)
            (keeps few atEnd))
        split at shrunk
        next resized storage' isResized =>
          cases shrunk
          rw [isResized] at swaps
          exact swaps
        next storage' isResized =>
          cases shrunk
          rw [isResized] at swaps
          exact swaps
      next =>
        rcases alloc_cases a storage
            (sizeMul (VectorImpl.shrinkCapacity (sizeSub vector.mCount amount)) traits.itemSize) with
          ⟨cells, found⟩ | failed
        · rw [found] at shrunk
          cases shrunk
          exact Swaps.adopt exclusive owns rfl _
        · rw [failed] at shrunk
          cases shrunk
          exact Swaps.refl exclusive owns
    next =>
      rw [VectorObject.editArrayImpl_eq exclusive owns] at shrunk
      cases shrunk
      exact Swaps.setSlots exclusive owns _

/-- `setCapacity`. -/
theorem Swaps.setCapacity (exclusive : storage.Exclusive) (owns : vector.Owns storage)
    (newCapacity : Nat) :
    Swaps storage (vector.setCapacity traits a storage newCapacity).2.1 vector.mStorage
      (vector.setCapacity traits a storage newCapacity).2.2.mStorage := by
  rw [VectorObject.setCapacity]
  split
  next => exact Swaps.refl exclusive owns
  next =>
    rcases alloc_cases a storage (sizeMul newCapacity traits.itemSize) with ⟨cells, found⟩ | failed
    · rw [found]
      exact Swaps.adopt exclusive owns rfl _
    · rw [failed]
      exact Swaps.refl exclusive owns

/-- Every operation on a Vector. -/
theorem Swaps.change {ι : Type} (exclusive : storage.Exclusive) (owns : vector.Owns storage)
    {call : VectorCall ι T} {result : VectorStorage T × VectorObject}
    (keeps : call.Keeps traits a storage vector)
    (changed : call.change traits a storage vector = some result) :
    Swaps storage result.1 vector.mStorage result.2.mStorage := by
  cases call with
  | construct i => cases changed
  | copy source target => cases changed
  | insertAt i item index numItems =>
      obtain ⟨inserted, isInserted, rfl⟩ := Option.map_eq_some_iff.mp changed
      exact Swaps.insertAt exclusive owns keeps isInserted
  | push i item =>
      obtain ⟨inserted, isInserted, rfl⟩ := Option.map_eq_some_iff.mp changed
      exact Swaps.insertAt exclusive owns keeps isInserted
  | removeItemsAt i index count =>
      obtain ⟨removed, isRemoved, rfl⟩ := Option.map_eq_some_iff.mp changed
      rw [VectorObject.removeItemsAt] at isRemoved
      split at isRemoved
      next =>
        cases isRemoved
        exact Swaps.refl exclusive owns
      next inside =>
        obtain ⟨shrunk, isShrunk, done⟩ := Option.bind_eq_some_iff.mp isRemoved
        cases done
        exact Swaps.shrink exclusive owns (keeps (Nat.le_of_not_lt inside)) isShrunk
  | clear i => exact Swaps.shrink exclusive owns keeps changed
  | setCapacity i newCapacity =>
      cases changed
      exact Swaps.setCapacity exclusive owns newCapacity
  | editItemAt i index item =>
      obtain ⟨⟨edited, vector'⟩, isEdited, done⟩ := Option.bind_eq_some_iff.mp changed
      rw [VectorObject.editArrayImpl_eq exclusive owns] at isEdited
      cases isEdited
      obtain ⟨buf, isBuf, done⟩ := Option.bind_eq_some_iff.mp done
      cases done
      exact Swaps.setSlots exclusive owns _
  | destroy i => cases changed

end Swaps

/-! ## Programs -/

section Programs

variable {ι : Type} {state next : VectorState ι T} {traits : Traits}

/-- A live Vector points to the buffer. -/
def VectorState.Points (state : VectorState ι T) (i : ι) (buf : Nat) : Prop :=
  ∃ vector, state.vectors i = some vector ∧ vector.mStorage = some buf

/-- Every Vector but one has the size and the storage it had. -/
def VectorState.Untouched (state : VectorState ι T) (target : ι) (next : VectorState ι T) : Prop :=
  ∀ i vector, i ≠ target → state.vectors i = some vector →
    next.vectors i = some vector ∧
      ∀ buf, vector.mStorage = some buf →
        next.storage.Live buf ∧ next.storage.block buf = state.storage.block buf

/-- What holds while every call meets the condition: every buffer in use has a single
Vector. -/
structure VectorState.Owned (state : VectorState ι T) : Prop where
  exclusive : state.storage.Exclusive
  live : ∀ i buf, state.Points i buf → state.storage.Live buf
  owner : ∀ buf, state.storage.Live buf → ∃ i, ∀ j, state.Points j buf ↔ j = i

theorem VectorState.Owned.init : (VectorState.init : VectorState ι T).Owned where
  exclusive := {
    sane := ⟨nofun, .nil⟩
    refs := fun _ live => absurd live.1 (Nat.not_lt_zero _) }
  live := nofun
  owner := fun _ live => absurd live.1 (Nat.not_lt_zero _)

variable [DecidableEq ι]

theorem VectorState.points_put {i j : ι} {result : VectorStorage T × VectorObject} {buf : Nat} :
    (state.put i result).Points j buf ↔
      j = i ∧ result.2.mStorage = some buf ∨ j ≠ i ∧ state.Points j buf := by
  by_cases same : j = i
  · subst same
    simp [VectorState.Points, VectorState.put]
  · simp [VectorState.Points, VectorState.put, same]

/-- The Vector goes from one buffer to another. -/
theorem VectorState.Owned.put (owned : state.Owned) {i : ι} {old : Option Nat}
    (isOld : ∀ buf, state.Points i buf ↔ old = some buf)
    {result : VectorStorage T × VectorObject}
    (swaps : Swaps state.storage result.1 old result.2.mStorage) :
    (state.put i result).Owned ∧ state.Untouched i (state.put i result) := by
  have others : ∀ j buf, j ≠ i → state.Points j buf → old ≠ some buf := by
    intro j buf differ points isBuf
    obtain ⟨owner, single⟩ := owned.owner buf (owned.live j buf points)
    exact differ (((single j).mp points).trans ((single i).mp ((isOld buf).mpr isBuf)).symm)
  constructor
  · exact {
      exclusive := swaps.exclusive
      live := by
        intro j buf points
        rcases VectorState.points_put.mp points with ⟨_, isNew⟩ | ⟨differ, before⟩
        · exact (swaps.held buf isNew).1
        · exact (swaps.kept buf (owned.live j buf before) (others j buf differ before)).1
      owner := by
        intro buf live
        rcases swaps.owned buf live with ⟨before, notOld⟩ | isNew
        · obtain ⟨owner, single⟩ := owned.owner buf before
          have differ : owner ≠ i := by
            rintro rfl
            exact notOld ((isOld buf).mp ((single owner).mpr rfl))
          refine ⟨owner, fun j => VectorState.points_put.trans ?_⟩
          constructor
          · rintro (⟨_, isNew⟩ | ⟨_, points⟩)
            · exact absurd ((swaps.held buf isNew).2 before) notOld
            · exact (single j).mp points
          · rintro rfl
            exact .inr ⟨differ, (single j).mpr rfl⟩
        · refine ⟨i, fun j => VectorState.points_put.trans ?_⟩
          constructor
          · rintro (⟨same, _⟩ | ⟨differ, points⟩)
            · exact same
            · exact absurd ((swaps.held buf isNew).2 (owned.live j buf points))
                (others j buf differ points)
          · rintro rfl
            exact .inl ⟨rfl, isNew⟩ }
  · intro j vector differ isVector
    refine ⟨(Function.update_of_ne differ ..).trans isVector, fun buf isBuf => ?_⟩
    have points : state.Points j buf := ⟨vector, isVector, isBuf⟩
    exact swaps.kept buf (owned.live j buf points) (others j buf differ points)

omit [DecidableEq ι] in
theorem VectorState.points_iff {i : ι} {vector : VectorObject}
    (isVector : state.vectors i = some vector) (buf : Nat) :
    state.Points i buf ↔ vector.mStorage = some buf := by
  simp [VectorState.Points, isVector]

omit [DecidableEq ι] in
theorem VectorState.points_unused {i : ι} (unused : state.vectors i = none) (buf : Nat) :
    state.Points i buf ↔ (none : Option Nat) = some buf := by
  simp [VectorState.Points, unused]

/-- A new Vector without storage. -/
theorem VectorState.Owned.putEmpty (owned : state.Owned) {i : ι} (unused : state.vectors i = none)
    {vector : VectorObject} (nothing : vector.mStorage = none) :
    (state.put i (state.storage, vector)).Owned ∧
      state.Untouched i (state.put i (state.storage, vector)) := by
  apply owned.put (VectorState.points_unused unused)
  rw [nothing]
  have ownsNothing : VectorObject.empty.Owns state.storage := nofun
  exact Swaps.refl owned.exclusive ownsNothing

/-- The end of the scope of a Vector without storage. -/
theorem VectorState.Owned.destroy (owned : state.Owned) {i : ι} {vector : VectorObject}
    (alive : state.vectors i = some vector) (nothing : vector.mStorage = none) :
    ({ state with vectors := Function.update state.vectors i none } : VectorState ι T).Owned ∧
      state.Untouched i { state with vectors := Function.update state.vectors i none } := by
  have same : ∀ j buf, ({ state with vectors := Function.update state.vectors i none } :
      VectorState ι T).Points j buf ↔ state.Points j buf := by
    intro j buf
    by_cases same : j = i
    · subst same
      simp [VectorState.Points, alive, nothing]
    · simp [VectorState.Points, same]
  constructor
  · exact {
      exclusive := owned.exclusive
      live := fun j buf points => owned.live j buf ((same j buf).mp points)
      owner := by
        intro buf live
        obtain ⟨owner, single⟩ := owned.owner buf live
        exact ⟨owner, fun j => (same j buf).trans (single j)⟩ }
  · intro j other differ isOther
    refine ⟨(Function.update_of_ne differ ..).trans isOther, fun buf isBuf => ⟨?_, rfl⟩⟩
    exact owned.live j buf ⟨other, isOther, isBuf⟩


end Programs

/-- The traits of `int`. -/
def intTraits : Traits where
  hasTrivialCtor := true
  hasTrivialDtor := true
  hasTrivialCopy := true
  hasTrivialMove := true
  itemSize := 4
  positive := by decide

/-- All memory is found. -/
def ampleMemory : Allocator (Option Nat) where
  malloc _ := some fun _ => none
  realloc _ := some fun _ => none
  moves := true


end DroidKernal.Utils
