import DroidKernal.Utils.ValueSemantics

/-!
# Vectors as values

`Utils.VectorStorage` has Vectors that point into a heap, `Utils.Vector` a single one with its
storage inside.  In a program that meets the condition for value semantics a call does to one
of the first what its function does to the second, and nothing to the others.
-/

namespace DroidKernal.Utils

open Lib

variable {T : Type}

/-- The allocations of both succeed together, and new memory holds no elements. -/
structure Heap.Serves (heap : Heap) (a : Allocator (Option T)) : Prop where
  malloc : ∀ bytes, a.malloc bytes = if heap bytes then some fun _ => none else none
  realloc : ∀ bytes, a.realloc bytes = if heap bytes then some fun _ => none else none

/-- A Vector with its storage. -/
def VectorObject.value (storage : VectorStorage T) (vector : VectorObject) : VectorImpl T where
  mStorage := vector.mStorage.map fun buf =>
    { mSize := (storage.block buf).mSize, slots := (storage.block buf).cells }
  mCount := vector.mCount

section Values

variable {storage : VectorStorage T} {vector : VectorObject} {traits : Traits}
  {a : Allocator (Option T)} {heap : Heap} {buf : Nat}

theorem value_none (nothing : vector.mStorage = none) :
    vector.value storage = { mStorage := none, mCount := vector.mCount } := by
  rw [VectorObject.value, nothing]
  rfl

theorem value_some (isBuf : vector.mStorage = some buf) :
    vector.value storage =
      { mStorage := some ⟨(storage.block buf).mSize, (storage.block buf).cells⟩
        mCount := vector.mCount } := by
  rw [VectorObject.value, isBuf]
  rfl

theorem capacity_value :
    (vector.value storage).capacity traits = vector.capacity traits storage := by
  rw [VectorImpl.capacity, VectorObject.capacity, VectorObject.value]
  cases vector.mStorage <;> rfl

theorem itemLocation_value (index : Nat) :
    (vector.value storage).itemLocation traits index =
      vector.itemLocation traits storage index := by
  rw [VectorImpl.itemLocation, VectorObject.itemLocation, capacity_value, VectorObject.value,
    Option.isSome_map]

/-- A Vector whose storage is the same has the same value. -/
theorem value_congr {after : VectorStorage T}
    (same : ∀ buf, vector.mStorage = some buf → after.block buf = storage.block buf) :
    vector.value after = vector.value storage := by
  cases isBuf : vector.mStorage with
  | none => rw [value_none isBuf, value_none isBuf]
  | some buf => rw [value_some isBuf, value_some isBuf, same buf isBuf]

/-- Stores into the storage, and another number of elements. -/
theorem setSlots_value (storage : VectorStorage T) (vector : VectorObject)
    (change : Slots T → Slots T) (count : Nat) :
    VectorObject.value (vector.setSlots storage (change (vector.slots storage)))
        { vector with mCount := count } =
      { mStorage := (vector.value storage).mStorage.map fun buffer =>
          { buffer with slots := change buffer.slots }
        mCount := count } := by
  cases isBuf : vector.mStorage with
  | none =>
      rw [value_none isBuf]
      rfl
  | some buf =>
      rw [value_some isBuf, value_some rfl, VectorObject.setSlots, VectorObject.slots, isBuf]
      simp only [Blocks.set_block_self, Option.map_some]

/-! ## Allocations -/

theorem Heap.Serves.mallocBuffer (serves : heap.Serves a) (size : Nat) :
    a.mallocBuffer size = if heap.grantsBuffer size then some fun _ => none else none :=
  serves.malloc _

theorem Heap.Serves.reallocBuffer (serves : heap.Serves a) (size : Nat) :
    a.reallocBuffer size = if heap.grantsBuffer size then some fun _ => none else none :=
  serves.realloc _

/-- `alloc` of both. -/
theorem Heap.Serves.alloc (serves : heap.Serves a) (storage : VectorStorage T) (size : Nat) :
    SharedBuffer.alloc heap size = some (⟨size, fun _ => none⟩ : SharedBuffer T) ∧
        Storage.alloc a storage size =
          (some storage.allocated, storage.add ⟨1, size, fun _ => none⟩) ∨
      SharedBuffer.alloc heap size = (none : Option (SharedBuffer T)) ∧
        Storage.alloc a storage size = (none, storage) := by
  rw [SharedBuffer.alloc, Storage.alloc, serves.mallocBuffer]
  cases heap.grantsBuffer size with
  | true => exact .inl ⟨rfl, rfl⟩
  | false => exact .inr ⟨rfl, rfl⟩

/-- `editResize` of both. -/
theorem Heap.Serves.editResize (serves : heap.Serves a) (exclusive : storage.Exclusive)
    (live : storage.Live buf) {newSize : Nat} (keeps : a.KeepsBuffer newSize) :
    ∃ resized after, Storage.editResize a traits.itemSize storage buf newSize = (resized, after) ∧
      (⟨(storage.block buf).mSize, (storage.block buf).cells⟩ : SharedBuffer T).editResize traits
          heap newSize =
        resized.map (fun buf => ⟨(after.block buf).mSize, (after.block buf).cells⟩) ∧
      (resized = none → after = storage) := by
  have resizes := exclusive.editResize_resizes live a traits.itemSize newSize keeps
  have found : ∀ {cells : Slots T}, a.reallocBuffer newSize = some cells ∨
      a.mallocBuffer newSize = some cells →
        heap.grantsBuffer newSize = true ∧ cells = fun _ => none := by
    intro cells found
    rw [serves.reallocBuffer, serves.mallocBuffer, or_self] at found
    split at found
    next grants => exact ⟨grants, (Option.some.inj found).symm⟩
    next => cases found
  rw [SharedBuffer.editResize]
  by_cases same : (storage.block buf).mSize = newSize
  · rw [if_pos same]
    refine ⟨some buf, storage, ?_, rfl, fun none => by cases none⟩
    rw [Storage.editResize, if_pos (exclusive.onlyOwner live), if_pos same]
  rw [if_neg same]
  generalize Storage.editResize a traits.itemSize storage buf newSize = result at resizes
  cases resizes with
  | same size => exact absurd size same
  | failed noRealloc =>
      refine ⟨none, storage, rfl, ?_, fun _ => rfl⟩
      rw [serves.reallocBuffer] at noRealloc
      split at noRealloc
      next => cases noRealloc
      next refused => exact if_neg refused
  | inPlace cells isFound =>
      obtain ⟨grants, rfl⟩ := found (.inl isFound)
      refine ⟨some buf, _, rfl, ?_, fun none => by cases none⟩
      rw [if_pos grants, Option.map_some, Blocks.set_block_self]
      rfl
  | @moved cells after isFound _ _ _ new _ =>
      obtain ⟨grants, rfl⟩ := found isFound
      refine ⟨some storage.allocated, after, rfl, ?_, fun none => by cases none⟩
      rw [if_pos grants, Option.map_some, new]
      rfl

/-- The value with the storage that is taken over. -/
theorem adopt_value (traits : Traits) (exclusive : storage.Exclusive)
    (owns : vector.Owns storage) (size count : Nat) (cells filled : Slots T) :
    VectorObject.value
        (vector.adopt traits (storage.add ⟨1, size, cells⟩) storage.allocated filled).1
        { (vector.adopt traits (storage.add ⟨1, size, cells⟩) storage.allocated filled).2 with
          mCount := count } =
      { mStorage := some ⟨size, filled⟩, mCount := count } := by
  rw [value_some rfl, adopt_block exclusive owns rfl]

/-- What is copied lies in other memory than the new one. -/
theorem slots_add (owns : vector.Owns storage) (buffer : CountedBuffer (Option T)) :
    vector.slots (storage.add buffer) = (vector.value storage).slot := by
  funext i
  rw [VectorObject.slots, VectorImpl.slot, VectorObject.value]
  cases isBuf : vector.mStorage with
  | none => rfl
  | some buf =>
      simp only [Blocks.add_block (owns buf isBuf).ne_new]
      rfl

/-- Nothing is copied from no storage. -/
theorem copyType_none (dest start num : Nat) :
    copyType (fun _ => none) dest (fun _ => none) start num = (fun _ => none : Slots T) := by
  funext i
  exact ite_self _

/-! ## The functions of `VectorImpl` -/

/-- `_grow`. -/
theorem grow_value (serves : heap.Serves a) (exclusive : storage.Exclusive)
    (owns : vector.Owns storage) {index amount : Nat}
    (keeps : vector.GrowKeeps traits a storage index amount) :
    ∃ place after grown, vector.grow traits a storage index amount = some (place, after, grown) ∧
      (vector.value storage).grow traits heap index amount = (place, grown.value after) := by
  rw [VectorObject.grow, VectorImpl.grow, capacity_value]
  simp only
  by_cases full : vector.capacity traits storage < sizeAdd vector.mCount amount
  · have full' : vector.capacity traits storage < sizeAdd (vector.value storage).mCount amount :=
      full
    rw [if_pos full, if_pos full']
    cases isBuf : vector.mStorage with
    | none =>
        rw [value_none isBuf, if_neg (by simp)]
        rcases serves.alloc storage
            (sizeMul (VectorImpl.growCapacity vector.mCount amount) traits.itemSize) with
          ⟨found, found'⟩ | ⟨failed, failed'⟩
        · simp only [found, found']
          refine ⟨_, _, _, rfl, ?_⟩
          have noSlots : (vector.value storage).slot = fun _ => none := by
            rw [value_none isBuf]
            rfl
          rw [← itemLocation_value, adopt_value traits exclusive owns, slots_add owns, noSlots,
            Blocks.add_block_new, copyType_none, copyType_none]
        · simp only [failed, failed']
          exact ⟨_, _, _, rfl, by rw [value_none isBuf]⟩
    | some buf =>
        have live := owns buf isBuf
        rw [value_some isBuf]
        simp only [Option.isSome_some, true_and, Option.map_some]
        by_cases resizable : vector.mCount = index ∧ traits.hasTrivialCopy ∧ traits.hasTrivialDtor
        · rw [if_pos resizable, if_pos resizable]
          obtain ⟨resized, after, isResized, isResized', kept⟩ := serves.editResize exclusive live
            (keeps full ⟨isBuf ▸ rfl, resizable⟩)
          rw [isResized, isResized']
          cases resized with
          | none =>
              cases kept rfl
              exact ⟨_, _, _, rfl, by rw [value_some isBuf]; rfl⟩
          | some resized =>
              refine ⟨_, _, _, rfl, ?_⟩
              rw [← itemLocation_value, value_some rfl]
              rfl
        · rw [if_neg resizable, if_neg resizable]
          rcases serves.alloc storage
              (sizeMul (VectorImpl.growCapacity vector.mCount amount) traits.itemSize) with
            ⟨found, found'⟩ | ⟨failed, failed'⟩
          · simp only [found, found']
            refine ⟨_, _, _, rfl, ?_⟩
            rw [← itemLocation_value, adopt_value traits exclusive owns, slots_add owns,
              Blocks.add_block_new, value_some isBuf]
            rfl
          · simp only [failed, failed']
            exact ⟨_, _, _, rfl, by rw [value_some isBuf]⟩
  · have full' : ¬ vector.capacity traits storage < sizeAdd (vector.value storage).mCount amount :=
      full
    rw [if_neg full, if_neg full', VectorObject.editArrayImpl_eq exclusive owns]
    refine ⟨_, _, _, rfl, ?_⟩
    rw [← itemLocation_value]
    by_cases differs : index ≠ vector.mCount
    · have differs' : index ≠ (vector.value storage).mCount := differs
      simp only [if_pos differs, if_pos differs',
        setSlots_value _ _
          (moveForwardType traits · (index + amount) index (vector.mCount - index))]
      rfl
    · have same' : ¬ index ≠ (vector.value storage).mCount := differs
      simp only [if_neg differs, if_neg same', Option.map_id']
      rfl

/-- `insertAt`. -/
theorem insertAt_value (serves : heap.Serves a) (exclusive : storage.Exclusive)
    (owns : vector.Owns storage) (item : T) {index numItems : Nat}
    (keeps : vector.GrowKeeps traits a storage index numItems) :
    ∃ status after inserted,
      vector.insertAt traits a storage item index numItems = some (status, after, inserted) ∧
      (vector.value storage).insertAt traits heap item index numItems =
        (status, inserted.value after) := by
  rw [VectorObject.insertAt, VectorImpl.insertAt]
  by_cases outside : index > vector.mCount
  · have outside' : index > (vector.value storage).mCount := outside
    rw [if_pos outside, if_pos outside']
    exact ⟨_, _, _, rfl, rfl⟩
  · have inside' : ¬ index > (vector.value storage).mCount := outside
    rw [if_neg outside, if_neg inside']
    obtain ⟨place, after, grown, isGrown, isGrown'⟩ := grow_value serves exclusive owns keeps
    rw [isGrown, isGrown']
    cases place with
    | none => exact ⟨_, _, _, rfl, rfl⟩
    | some place =>
        refine ⟨_, _, _, rfl, congrArg (Prod.mk (toSsize index)) ?_⟩
        exact (setSlots_value _ _ (splatType · place item numItems) _).symm

/-- `_shrink`. -/
theorem shrink_value (serves : heap.Serves a) (exclusive : storage.Exclusive)
    (owns : vector.Owns storage) {index amount : Nat}
    (keeps : vector.ShrinkKeeps traits a storage index amount) :
    ∃ after shrunk, vector.shrink traits a storage index amount = some (after, shrunk) ∧
      (vector.value storage).shrink traits heap index amount = shrunk.value after := by
  rw [VectorObject.shrink, VectorImpl.shrink, capacity_value]
  cases isBuf : vector.mStorage with
  | none =>
      rw [value_none isBuf]
      exact ⟨_, _, rfl, (value_none isBuf).symm⟩
  | some buf =>
      have live := owns buf isBuf
      rw [value_some isBuf]
      simp only
      by_cases few : sizeSub vector.mCount amount < vector.capacity traits storage / 2
      · rw [if_pos few, if_pos few]
        by_cases atEnd : index = sizeSub vector.mCount amount ∧ traits.hasTrivialCopy ∧
            traits.hasTrivialDtor
        · rw [if_pos atEnd, if_pos atEnd]
          obtain ⟨resized, after, isResized, isResized', kept⟩ := serves.editResize exclusive live
            (keeps few atEnd)
          rw [isResized, isResized']
          cases resized with
          | none =>
              cases kept rfl
              exact ⟨_, _, rfl, (value_some isBuf).symm⟩
          | some resized =>
              refine ⟨_, _, rfl, ?_⟩
              rw [value_some rfl]
              rfl
        · rw [if_neg atEnd, if_neg atEnd]
          rcases serves.alloc storage (sizeMul
              (VectorImpl.shrinkCapacity (sizeSub vector.mCount amount)) traits.itemSize) with
            ⟨found, found'⟩ | ⟨failed, failed'⟩
          · simp only [found, found']
            refine ⟨_, _, rfl, ?_⟩
            rw [adopt_value traits exclusive owns, slots_add owns, Blocks.add_block_new,
              value_some isBuf]
            rfl
          · simp only [failed, failed']
            exact ⟨_, _, rfl, (value_some isBuf).symm⟩
      · rw [if_neg few, if_neg few, VectorObject.editArrayImpl_eq exclusive owns]
        refine ⟨_, _, rfl, ?_⟩
        let change (slots : Slots T) : Slots T :=
          let destroyed := destroyType traits slots index amount
          if index ≠ sizeSub vector.mCount amount then
            moveForwardType traits destroyed index (index + amount)
              (sizeSub vector.mCount amount - index)
          else destroyed
        have stored := setSlots_value storage vector change
          (sizeSub vector.mCount amount)
        rw [value_some isBuf] at stored
        exact stored.symm

/-- `removeItemsAt`. -/
theorem removeItemsAt_value (serves : heap.Serves a) (exclusive : storage.Exclusive)
    (owns : vector.Owns storage) {index count : Nat}
    (keeps : sizeAdd index count ≤ vector.mCount →
      vector.ShrinkKeeps traits a storage index count) :
    ∃ status after removed,
      vector.removeItemsAt traits a storage index count = some (status, after, removed) ∧
      (vector.value storage).removeItemsAt traits heap index count =
        (status, removed.value after) := by
  rw [VectorObject.removeItemsAt, VectorImpl.removeItemsAt]
  by_cases outside : sizeAdd index count > vector.mCount
  · have outside' : sizeAdd index count > (vector.value storage).mCount := outside
    rw [if_pos outside, if_pos outside']
    exact ⟨_, _, _, rfl, rfl⟩
  · have inside' : ¬ sizeAdd index count > (vector.value storage).mCount := outside
    rw [if_neg outside, if_neg inside']
    obtain ⟨after, shrunk, isShrunk, isShrunk'⟩ :=
      shrink_value serves exclusive owns (keeps (Nat.le_of_not_lt outside))
    rw [isShrunk, isShrunk']
    exact ⟨_, _, _, rfl, rfl⟩

/-- `setCapacity`. -/
theorem setCapacity_value (serves : heap.Serves a) (exclusive : storage.Exclusive)
    (owns : vector.Owns storage) (newCapacity : Nat) :
    (vector.value storage).setCapacity traits heap newCapacity =
      ((vector.setCapacity traits a storage newCapacity).1,
        (vector.setCapacity traits a storage newCapacity).2.2.value
          (vector.setCapacity traits a storage newCapacity).2.1) := by
  rw [VectorObject.setCapacity, VectorImpl.setCapacity, capacity_value]
  by_cases kept : newCapacity ≤ vector.mCount
  · have kept' : newCapacity ≤ (vector.value storage).mCount := kept
    rw [if_pos kept, if_pos kept']
  · have more : ¬ newCapacity ≤ (vector.value storage).mCount := kept
    rw [if_neg kept, if_neg more]
    rcases serves.alloc storage (sizeMul newCapacity traits.itemSize) with
      ⟨found, found'⟩ | ⟨failed, failed'⟩
    · simp only [found, found']
      have adopted := adopt_value traits exclusive owns
        (sizeMul newCapacity traits.itemSize) vector.mCount (fun _ => none)
        (copyType (fun _ => none) 0 (vector.value storage).slot 0 vector.mCount)
      rw [slots_add owns, Blocks.add_block_new]
      exact congrArg (Prod.mk (toSsize newCapacity)) adopted.symm
    · simp only [failed, failed']

/-- A store through the reference of `editItemAt`. -/
theorem editItemAt_value (exclusive : storage.Exclusive) (owns : vector.Owns storage)
    (index : Nat) (item : T) :
    ((vector.value storage).editItemLocation index).map
        (fun place => (vector.value storage).store place item) =
      (vector.editItemAt traits a storage index item).map
        fun edited => edited.2.value edited.1 := by
  rw [VectorObject.editItemAt, VectorObject.editArrayImpl_eq exclusive owns,
    VectorImpl.editItemLocation]
  cases isBuf : vector.mStorage with
  | none =>
      rw [value_none isBuf]
      simp only [isBuf, Option.bind_eq_bind, Option.bind_some, Option.bind_none, Option.map_none]
  | some buf =>
      have isPlace : (vector.value storage).mStorage.map (fun _ => 0) = some 0 := by
        rw [value_some isBuf]
        rfl
      have stored := setSlots_value storage vector
        (Function.update · 0 (some item)) vector.mCount
      simp only [isPlace, isBuf, Option.bind_eq_bind, Option.bind_some, Option.pure_def,
        Option.map_some]
      exact congrArg some stored.symm

/-! ## Programs -/

/-- What a call makes of the value of a Vector, if `editItemAt` has a reference. -/
def VectorCall.changeValue {ι : Type} (traits : Traits) (heap : Heap) (vector : VectorImpl T) :
    VectorCall ι T → Option (VectorImpl T)
  | .construct _ => none
  | .copy _ _ => none
  | .insertAt _ item index numItems =>
      some (vector.insertAt traits heap item index numItems).2
  | .push _ item => some (vector.insertAt traits heap item vector.mCount 1).2
  | .removeItemsAt _ index count => some (vector.removeItemsAt traits heap index count).2
  | .clear _ => some (vector.shrink traits heap 0 vector.mCount)
  | .setCapacity _ newCapacity => some (vector.setCapacity traits heap newCapacity).2
  | .editItemAt _ index item =>
      (vector.editItemLocation index).map fun place => vector.store place item
  | .destroy _ => none

theorem change_value {ι : Type} (serves : heap.Serves a) (exclusive : storage.Exclusive)
    (owns : vector.Owns storage) {call : VectorCall ι T}
    (keeps : call.Keeps traits a storage vector) :
    call.changeValue traits heap (vector.value storage) =
      (call.change traits a storage vector).map fun result => result.2.value result.1 := by
  cases call with
  | construct i => rfl
  | copy source target => rfl
  | insertAt i item index numItems =>
      obtain ⟨status, after, inserted, isInserted, same⟩ :=
        insertAt_value serves exclusive owns item keeps
      rw [VectorCall.change, isInserted]
      exact congrArg (some ∘ Prod.snd) same
  | push i item =>
      obtain ⟨status, after, inserted, isInserted, same⟩ :=
        insertAt_value serves exclusive owns item keeps
      rw [VectorCall.change, isInserted]
      exact congrArg (some ∘ Prod.snd) same
  | removeItemsAt i index count =>
      obtain ⟨status, after, removed, isRemoved, same⟩ :=
        removeItemsAt_value serves exclusive owns keeps
      rw [VectorCall.change, isRemoved]
      exact congrArg (some ∘ Prod.snd) same
  | clear i =>
      obtain ⟨after, shrunk, isShrunk, same⟩ := shrink_value serves exclusive owns keeps
      rw [VectorCall.change, isShrunk]
      exact congrArg some same
  | setCapacity i newCapacity =>
      exact congrArg (some ∘ Prod.snd) (setCapacity_value serves exclusive owns newCapacity)
  | editItemAt i index item => exact editItemAt_value exclusive owns index item
  | destroy i => rfl

end Values

section Programs

variable {ι : Type} [DecidableEq ι] {traits : Traits} {state next : VectorState ι T}

/-- A program whose Vectors are values: a copy has a value of its own. -/
inductive ValueStep (traits : Traits) : (ι → Option (VectorImpl T)) →
    Heap × VectorCall ι T → (ι → Option (VectorImpl T)) → Prop where
  | construct {values : ι → Option (VectorImpl T)} {heap : Heap} {i : ι}
      (unused : values i = none) :
      ValueStep traits values (heap, .construct i) (Function.update values i (some .empty))
  | copy {values : ι → Option (VectorImpl T)} {heap : Heap} {source target : ι}
      {vector : VectorImpl T} (alive : values source = some vector)
      (unused : values target = none) :
      ValueStep traits values (heap, .copy source target)
        (Function.update values target (some vector))
  | change {values : ι → Option (VectorImpl T)} {heap : Heap} {call : VectorCall ι T}
      {vector changed : VectorImpl T} (alive : values call.target = some vector)
      (changes : call.changeValue traits heap vector = some changed) :
      ValueStep traits values (heap, call) (Function.update values call.target (some changed))
  | destroy {values : ι → Option (VectorImpl T)} {heap : Heap} {i : ι} {vector : VectorImpl T}
      (alive : values i = some vector) :
      ValueStep traits values (heap, .destroy i) (Function.update values i none)

/-- The values of the Vectors that are alive. -/
def VectorState.values (state : VectorState ι T) (i : ι) : Option (VectorImpl T) :=
  (state.vectors i).map (VectorObject.value state.storage)

/-- A call that meets the condition, where memory is found as in the other model. -/
def ServedStep (traits : Traits) (state : VectorState ι T) (event : Heap × VectorCall ι T)
    (next : VectorState ι T) : Prop :=
  ∃ a : Allocator (Option T), event.1.Serves a ∧
    MeetingVectorStep traits state (a, event.2) next

omit [DecidableEq ι] in
theorem values_eq {i : ι} {vector : VectorObject} (alive : state.vectors i = some vector) :
    state.values i = some (vector.value state.storage) := by
  rw [VectorState.values, alive]
  rfl

omit [DecidableEq ι] in
theorem values_none {i : ι} (gone : state.vectors i = none) : state.values i = none := by
  rw [VectorState.values, gone]
  rfl

/-- Only the value of one Vector changes. -/
theorem values_update {i : ι} {changed : Option (VectorImpl T)}
    (untouched : state.Untouched i next) (changes : next.values i = changed)
    (unused : ∀ j, j ≠ i → state.vectors j = none → next.vectors j = none) :
    next.values = Function.update state.values i changed := by
  funext j
  by_cases same : j = i
  · subst same
    rw [Function.update_self, changes]
  · rw [Function.update_of_ne same]
    cases isVector : state.vectors j with
    | none => rw [values_none isVector, values_none (unused j same isVector)]
    | some vector =>
        obtain ⟨isVector', kept⟩ := untouched j vector same isVector
        rw [values_eq isVector, values_eq isVector']
        rw [value_congr fun buf isBuf => (kept buf isBuf).2]

theorem ServedStep.values (valued : state.Valued traits) {event : Heap × VectorCall ι T}
    (taken : ServedStep traits state event next) :
    next.Valued traits ∧ ValueStep traits state.values event next.values := by
  obtain ⟨a, serves, taken⟩ := taken
  refine ⟨valued.meeting taken, ?_⟩
  obtain ⟨heap, call⟩ := event
  obtain ⟨taken, sized, shares⟩ := taken
  have untouched := ((valued.step taken sized).1 shares).2
  have others : ∀ {i : ι} {result : Option VectorObject} (j : ι), j ≠ i →
      state.vectors j = none → Function.update state.vectors i result j = none := by
    intro i result j differ isNone
    rw [Function.update_of_ne differ, isNone]
  cases taken with
  | construct unused =>
      rw [values_update untouched (values_eq (Function.update_self ..)) others]
      exact .construct (values_none unused)
  | copy alive unused =>
      rw [values_update untouched (values_eq (Function.update_self ..)) others]
      exact .copy (values_eq alive) (values_none unused)
  | change alive changed =>
      have fits := valued.fits _ _ alive
      rw [values_update untouched (values_eq (Function.update_self ..)) others]
      refine .change (values_eq alive) ?_
      rw [change_value serves valued.owned.exclusive fits.owns (sized.keeps alive fits), changed]
      rfl
  | destroy alive =>
      rw [values_update untouched (values_none (Function.update_self ..)) others]
      exact .destroy (values_eq alive)

/-- As long as no size wraps and nothing that has storage is copied or goes out of scope,
Vectors are values. -/
theorem vectors_are_values {events : List (Heap × VectorCall ι T)}
    (run : Run (ServedStep traits) .init events state) :
    Run (ValueStep traits) (fun _ => none) events state.values := by
  have simulated : ∃ values, Run (ValueStep traits) (fun _ => none)
      (events.flatMap fun event => [event]) values ∧
      state.Valued traits ∧ values = state.values :=
    run.simulate (fun state values => state.Valued traits ∧ values = state.values)
      ⟨.init, rfl⟩ (by
        rintro state event next _ ⟨valued, rfl⟩ taken
        obtain ⟨isValued, step⟩ := taken.values valued
        exact ⟨_, .single step, isValued, rfl⟩)
  obtain ⟨values, valueRun, _, rfl⟩ := simulated
  rwa [List.flatMap_singleton'] at valueRun

end Programs

end DroidKernal.Utils
