import DroidKernal.Utils.ElementMoves

/-!
# The values of elements

`Utils.VectorLifetimes` has buffers with objects in them, `Utils.VectorStorage` buffers with
cells.  Where the functions of the first have a result, those of the second have the same one
with the value of every object that is alive in its cell.
-/

namespace DroidKernal.Utils

open Lib

variable {T : Type}

/-! ## Objects and cells -/

/-- Objects are in buffers below a bound, and their cells hold their values. -/
structure Displays (objects : PlacedObjects T) (contents : Nat → Slots T) (bound : Nat) : Prop where
  values : ∀ buf slot value, objects.valueAt (buf, slot) = some value →
    contents buf slot = some value
  old : ∀ place value, objects.valueAt place = some value → place.1 < bound

/-- The cells that are copied. -/
def sourceSlots (contents : Nat → Slots T) (source : Option Nat) : Slots T :=
  fun i => source.bind fun buf => contents buf i

section Slots

variable {slots : Slots T}

theorem copyType_zero (into : Slots T) (dest : Nat) (source : Slots T) (start : Nat) :
    copyType into dest source start 0 = into := by
  funext i
  exact if_neg (by omega)

theorem copyType_succ (into : Slots T) (dest : Nat) (source : Slots T) (start num : Nat) :
    copyType into dest source start (num + 1) =
      Function.update (copyType into dest source start num) (dest + num)
        (source (start + num)) := by
  funext i
  by_cases isLast : i = dest + num
  · rw [isLast, Function.update_self, copyType, if_pos (by omega), Nat.add_sub_cancel_left]
  · rw [Function.update_of_ne isLast]
    exact if_congr (by omega) rfl rfl

theorem splatType_zero (place : Nat) (item : T) : splatType slots place item 0 = slots := by
  funext i
  exact if_neg (by omega)

theorem splatType_succ (place : Nat) (item : T) (num : Nat) :
    splatType slots place item (num + 1) =
      Function.update (splatType slots place item num) (place + num) (some item) := by
  funext i
  by_cases isLast : i = place + num
  · rw [isLast, Function.update_self, splatType, if_pos (by omega)]
  · rw [Function.update_of_ne isLast]
    exact if_congr (by omega) rfl rfl

theorem destroyType_zero (traits : Traits) (start : Nat) :
    destroyType traits slots start 0 = slots := by
  rw [destroyType]
  split
  next => rfl
  next =>
    funext i
    exact if_neg (by omega)

theorem destroyType_succ {traits : Traits} (isFalse : traits.hasTrivialDtor = false)
    (start num : Nat) :
    destroyType traits slots start (num + 1) =
      Function.update (destroyType traits slots start num) (start + num) none := by
  have notTrivial : ¬ traits.hasTrivialDtor = true := Bool.eq_false_iff.mp isFalse
  rw [destroyType, destroyType, if_neg notTrivial, if_neg notTrivial]
  funext i
  by_cases isLast : i = start + num
  · rw [isLast, Function.update_self, if_pos (by omega)]
  · rw [Function.update_of_ne isLast]
    exact if_congr (by omega) rfl rfl

end Slots

namespace Displays

variable {objects after : PlacedObjects T} {contents : Nat → Slots T} {bound buf slot : Nat}
  {slots : Slots T} {value : T} {traits : Traits}

/-- Objects may go. -/
theorem less (displays : Displays objects contents bound)
    (kept : ∀ place value, after.valueAt place = some value →
      objects.valueAt place = some value) : Displays after contents bound where
  values buf slot value isValue := displays.values buf slot value (kept _ _ isValue)
  old place value isValue := displays.old place value (kept _ _ isValue)

/-- The cells of one buffer, named. -/
theorem here (displays : Displays objects contents bound) (buf : Nat) :
    Displays objects (Function.update contents buf (contents buf)) bound := by
  rwa [Function.update_eq_self]

/-- There may be more buffers. -/
theorem mono {bound' : Nat} (displays : Displays objects contents bound) (more : bound ≤ bound') :
    Displays objects contents bound' where
  values := displays.values
  old place value isValue := Nat.lt_of_lt_of_le (displays.old place value isValue) more

/-- The cells of one buffer change. -/
theorem refill (displays : Displays objects contents bound)
    (inside : ∀ slot value, objects.valueAt (buf, slot) = some value → slots slot = some value) :
    Displays objects (Function.update contents buf slots) bound where
  values other slot value isValue := by
    by_cases same : other = buf
    · subst same
      rw [Function.update_self]
      exact inside slot value isValue
    · rw [Function.update_of_ne same]
      exact displays.values other slot value isValue
  old := displays.old

/-- Objects come from other places, with their cells. -/
theorem relocate {contents' : Nat → Slots T} {bound' : Nat} {source : Place → Option Place}
    (displays : Displays objects contents bound)
    (cells : ∀ place old, source place = some old →
      contents' place.1 place.2 = contents old.1 old.2)
    (known : ∀ place old, source place = some old → old.1 < bound → place.1 < bound') :
    Displays (objects.relocate source) contents' bound' := by
  have isFrom : ∀ {place value}, (objects.relocate source).valueAt place = some value →
      ∃ old, source place = some old ∧ objects.valueAt old = some value := by
    intro place value isValue
    obtain ⟨object, isObject, rfl⟩ := Objects.valueAt_eq_some.mp isValue
    obtain ⟨old, isSource, isOld⟩ := Option.bind_eq_some_iff.mp isObject
    exact ⟨old, isSource, Objects.valueAt_eq_some.mpr ⟨object, isOld, rfl⟩⟩
  constructor
  · intro buf slot value isValue
    obtain ⟨old, isSource, isOld⟩ := isFrom isValue
    exact (cells (buf, slot) old isSource).trans (displays.values old.1 old.2 value isOld)
  · intro place value isValue
    obtain ⟨old, isSource, isOld⟩ := isFrom isValue
    exact known place old isSource (displays.old old value isOld)

/-- A place in a buffer gets an object, or loses it. -/
theorem put (displays : Displays objects (Function.update contents buf slots) bound)
    (known : buf < bound) {item : Option T} (isItem : after.valueAt (buf, slot) = item)
    (others : ∀ place, place ≠ (buf, slot) → after.valueAt place = objects.valueAt place) :
    Displays after (Function.update contents buf (Function.update slots slot item)) bound where
  values other cell value isValue := by
    by_cases here : (other, cell) = (buf, slot)
    · cases here
      rw [Function.update_self, Function.update_self, ← isItem, isValue]
    · rw [others _ here] at isValue
      have before := displays.values other cell value isValue
      by_cases same : other = buf
      · subst same
        have differs : cell ≠ slot := fun same => here (same ▸ rfl)
        rw [Function.update_self] at before ⊢
        rwa [Function.update_of_ne differs]
      · rwa [Function.update_of_ne same] at before ⊢
  old place value isValue := by
    by_cases here : place = (buf, slot)
    · rw [here]
      exact known
    · exact displays.old place value (others place here ▸ isValue)

theorem construct (displays : Displays objects (Function.update contents buf slots) bound)
    (known : buf < bound) :
    Displays (objects.construct (buf, slot) value)
      (Function.update contents buf (Function.update slots slot (some value))) bound := by
  refine displays.put known ?_ fun place differs => ?_
  · rw [Objects.valueAt, Objects.construct_objectAt]
    rfl
  · exact Objects.valueAt_congr (Objects.construct_elsewhere differs)

theorem assign (displays : Displays objects (Function.update contents buf slots) bound)
    (known : buf < bound) (assigned : objects.assign (buf, slot) value = some after) :
    Displays after (Function.update contents buf (Function.update slots slot (some value)))
      bound := by
  obtain ⟨object, _, rfl⟩ := Option.map_eq_some_iff.mp assigned
  refine displays.put known ?_ fun place differs => ?_
  · have isHere : Function.update objects.objectAt (buf, slot) (some { object with value })
        (buf, slot) = some { object with value } := Function.update_self ..
    exact congrArg (Option.map Object.value) isHere
  · exact Objects.valueAt_congr (Function.update_of_ne differs ..)

theorem store (displays : Displays objects (Function.update contents buf slots) bound)
    (known : buf < bound) :
    Displays (PlacedObjects.store traits objects (buf, slot) value)
      (Function.update contents buf (Function.update slots slot (some value))) bound := by
  rw [PlacedObjects.store]
  split
  next =>
    cases assigned : objects.assign (buf, slot) value with
    | none => exact displays.construct known
    | some after => exact displays.assign known assigned
  next => exact displays.construct known

theorem destroy (displays : Displays objects (Function.update contents buf slots) bound)
    (known : buf < bound) (destroyed : objects.destroy (buf, slot) = some after) :
    Displays after (Function.update contents buf (Function.update slots slot none)) bound := by
  obtain ⟨object, _, rfl⟩ := Option.map_eq_some_iff.mp destroyed
  refine displays.put known ?_ fun place differs => ?_
  · have isHere : Function.update objects.objectAt (buf, slot) none (buf, slot) = none :=
      Function.update_self ..
    exact congrArg (Option.map Object.value) isHere
  · exact Objects.valueAt_congr (Function.update_of_ne differs ..)

/-! ## The functions on elements -/

/-- `copy_type`. -/
theorem copyType {source : Option Nat} {start new dest num : Nat}
    (displays : Displays objects (Function.update contents new slots) bound)
    (known : new < bound) (apart : source ≠ some new)
    (copied : PlacedObjects.copyType source start new dest num objects = some after) :
    Displays after (Function.update contents new
      (Utils.copyType slots dest (sourceSlots contents source) start num)) bound := by
  induction num generalizing after with
  | zero =>
      cases copied
      rwa [copyType_zero]
  | succ num ih =>
      obtain ⟨middle, isMiddle, copied⟩ := Option.bind_eq_some_iff.mp copied
      obtain ⟨old, isOld, copied⟩ := Option.bind_eq_some_iff.mp copied
      obtain ⟨value, isValue, done⟩ := Option.bind_eq_some_iff.mp copied
      cases done
      have before := ih isMiddle
      have differs : old ≠ new := fun same => apart (same ▸ isOld)
      have isCell := before.values old (start + num) value isValue
      rw [Function.update_of_ne differs] at isCell
      have isSource : sourceSlots contents source (start + num) = some value := by
        rw [sourceSlots, isOld]
        exact isCell
      rw [copyType_succ, isSource]
      exact before.construct known

/-- `splat_type` of a variable. -/
theorem splatType {place num : Nat} {item : T}
    (displays : Displays objects (Function.update contents buf slots) bound) (known : buf < bound)
    (filled : PlacedObjects.splatType traits buf place (.outside item) num objects = some after) :
    Displays after (Function.update contents buf
      (Utils.splatType slots place item num)) bound := by
  induction num generalizing after with
  | zero =>
      cases filled
      rwa [splatType_zero]
  | succ num ih =>
      obtain ⟨middle, isMiddle, filled⟩ := Option.bind_eq_some_iff.mp filled
      cases filled
      rw [splatType_succ]
      exact (ih isMiddle).store known

/-- `destroy_type`. -/
theorem destroyType {start num : Nat}
    (displays : Displays objects (Function.update contents buf slots) bound) (known : buf < bound)
    (destroyed : PlacedObjects.destroyType traits objects buf start num = some after) :
    Displays after (Function.update contents buf
      (Utils.destroyType traits slots start num)) bound := by
  rw [PlacedObjects.destroyType] at destroyed
  cases isTrivial : traits.hasTrivialDtor with
  | true =>
      rw [if_pos isTrivial] at destroyed
      cases destroyed
      rwa [Utils.destroyType, if_pos isTrivial]
  | false =>
      rw [if_neg (Bool.eq_false_iff.mp isTrivial)] at destroyed
      induction num generalizing after with
      | zero =>
          cases destroyed
          rwa [destroyType_zero]
      | succ num ih =>
          obtain ⟨middle, isMiddle, last⟩ := Option.bind_eq_some_iff.mp destroyed
          rw [destroyType_succ isTrivial]
          exact (ih isMiddle).destroy known last

/-- The loop of `move_forward_type`. -/
theorem moveForwardLoop {dest start num : Nat}
    (displays : Displays objects (Function.update contents buf slots) bound)
    (known : buf < bound)
    (moved : PlacedObjects.moveForwardLoop traits buf dest start num objects = some after) :
    Displays after (Function.update contents buf
      (Utils.moveForwardLoop traits dest start num slots)) bound := by
  induction num generalizing objects slots with
  | zero =>
      cases moved
      exact displays
  | succ num ih =>
      rw [PlacedObjects.moveForwardLoop_succ] at moved
      obtain ⟨value, isValue, moved⟩ := Option.bind_eq_some_iff.mp moved
      obtain ⟨middle, isMiddle, rest⟩ := Option.bind_eq_some_iff.mp moved
      have isCell := displays.values buf (start + num) value isValue
      rw [Function.update_self] at isCell
      rw [Utils.moveForwardLoop, isCell]
      have stored : Displays (PlacedObjects.store traits objects (buf, dest + num) value)
          (Function.update contents buf (Function.update slots (dest + num) (some value))) bound :=
        displays.store known
      cases isTrivial : traits.hasTrivialDtor with
      | true =>
          rw [if_pos isTrivial] at isMiddle
          cases isMiddle
          exact ih stored rest
      | false =>
          rw [if_neg (Bool.eq_false_iff.mp isTrivial)] at isMiddle
          exact ih (stored.destroy known isMiddle) rest

/-- `move_forward_type`. -/
theorem moveForwardType {dest start num : Nat}
    (displays : Displays objects (Function.update contents buf slots) bound) (known : buf < bound)
    (moved : PlacedObjects.moveForwardType traits objects buf dest start num = some after) :
    Displays after (Function.update contents buf
      (Utils.moveForwardType traits slots dest start num)) bound := by
  rw [PlacedObjects.moveForwardType] at moved
  rw [Utils.moveForwardType]
  split at moved
  next isTrivial =>
    rw [if_pos isTrivial]
    cases moved
    refine displays.relocate (fun place old isSource => ?_) fun place old isSource isOld => ?_
    · rw [PlacedObjects.memmoveSource] at isSource
      split at isSource
      next isDest =>
        obtain ⟨isBuf, inside⟩ := isDest
        cases isSource
        rw [isBuf, Function.update_self, Function.update_self, Utils.copyType, if_pos inside]
      next notDest =>
        split at isSource
        next => cases isSource
        next =>
          cases isSource
          by_cases isBuf : place.1 = buf
          · rw [isBuf, Function.update_self, Function.update_self, Utils.copyType,
              if_neg fun inside => notDest ⟨isBuf, inside⟩]
          · rw [Function.update_of_ne isBuf, Function.update_of_ne isBuf]
    · rw [PlacedObjects.memmoveSource] at isSource
      split at isSource
      next isDest => exact isDest.1 ▸ known
      next =>
        split at isSource
        next => cases isSource
        next =>
          cases isSource
          exact isOld
  next notTrivial =>
    rw [if_neg notTrivial]
    exact displays.moveForwardLoop known moved

end Displays

/-! ## Buffers -/

/-- A buffer without its cells. -/
def CountedBuffer.bare (buffer : CountedBuffer (Option T)) : CountedBuffer (Option Empty) where
  mRefs := buffer.mRefs
  mSize := buffer.mSize
  cells _ := none

/-- The buffers without their cells. -/
def bareBuffers (storage : VectorStorage T) : VectorStorage Empty :=
  storage.map CountedBuffer.bare

/-- The cells of the buffers. -/
def contents (storage : VectorStorage T) (buf : Nat) : Slots T := (storage.block buf).cells

/-- The same outcomes of allocations, with memory that holds no elements. -/
def Allocator.raw (a : Allocator (Option Empty)) : Allocator (Option T) where
  malloc bytes := (a.malloc bytes).map fun _ _ => none
  realloc bytes := (a.realloc bytes).map fun _ _ => none
  moves := a.moves

section Buffers

variable {storage : VectorStorage T} {buf : Nat} {buffer : CountedBuffer (Option T)}
  {a : Allocator (Option Empty)}

theorem bare_eq {buffer : CountedBuffer (Option T)} {other : CountedBuffer (Option Empty)}
    (refs : other.mRefs = buffer.mRefs) (size : other.mSize = buffer.mSize) :
    other = buffer.bare := by
  cases other
  cases refs
  cases size
  exact congrArg (CountedBuffer.mk _ _) (Subsingleton.elim ..)

@[simp] theorem bareBuffers_mRefs :
    ((bareBuffers storage).block buf).mRefs = (storage.block buf).mRefs := rfl

@[simp] theorem bareBuffers_mSize :
    ((bareBuffers storage).block buf).mSize = (storage.block buf).mSize := rfl

@[simp] theorem bareBuffers_allocated : (bareBuffers storage).allocated = storage.allocated := rfl

theorem contents_set : contents (storage.set buf buffer) =
    Function.update (contents storage) buf buffer.cells :=
  Function.comp_update CountedBuffer.cells storage.block buf buffer

theorem contents_add : contents (storage.add buffer) =
    Function.update (contents storage) storage.allocated buffer.cells :=
  Function.comp_update CountedBuffer.cells storage.block storage.allocated buffer

theorem setRefs_bare (refs : Int) :
    Storage.setRefs (bareBuffers storage) buf refs = bareBuffers (storage.setRefs buf refs) := by
  rw [Storage.setRefs, Storage.setRefs, bareBuffers, bareBuffers, Blocks.map_set]
  rfl

theorem setRefs_contents (refs : Int) :
    contents (storage.setRefs buf refs) = contents storage := by
  rw [Storage.setRefs, contents_set]
  exact Function.update_eq_self ..

theorem onlyOwner_bare :
    Storage.onlyOwner (bareBuffers storage) buf = storage.onlyOwner buf := rfl

theorem release_bare (keepStorage : Bool) :
    Storage.release (bareBuffers storage) buf keepStorage =
      ((storage.release buf keepStorage).1, bareBuffers (storage.release buf keepStorage).2) := by
  rw [Storage.release, Storage.release, onlyOwner_bare]
  by_cases one : storage.onlyOwner buf = true
  · rw [if_pos one, if_pos one]
    cases keepStorage
    · exact congrArg (Prod.mk 1) (congrArg (Blocks.free · buf) (setRefs_bare 0))
    · exact congrArg (Prod.mk 1) (setRefs_bare 0)
  · have notOne : (storage.block buf).mRefs ≠ 1 := by
      simpa only [Storage.onlyOwner, decide_eq_true_eq] using one
    rw [if_neg one, if_neg one]
    simp only [bareBuffers_mRefs, notOne, false_and, if_false, setRefs_bare]

theorem release_contents (keepStorage : Bool) :
    contents (storage.release buf keepStorage).2 = contents storage := by
  rw [Storage.release]
  split
  · cases keepStorage <;> exact setRefs_contents 0
  · simp only
    split <;> exact setRefs_contents _

theorem release_allocated (keepStorage : Bool) :
    (storage.release buf keepStorage).2.allocated = storage.allocated := by
  rw [Storage.release]
  split
  · cases keepStorage <;> rfl
  · simp only
    split <;> rfl

@[simp] theorem raw_mallocBuffer (size : Nat) :
    (a.raw : Allocator (Option T)).mallocBuffer size =
      (a.mallocBuffer size).map fun _ _ => none := rfl

@[simp] theorem raw_reallocBuffer (size : Nat) :
    (a.raw : Allocator (Option T)).reallocBuffer size =
      (a.reallocBuffer size).map fun _ _ => none := rfl

@[simp] theorem raw_moves : (a.raw : Allocator (Option T)).moves = a.moves := rfl

theorem add_bare {other : CountedBuffer (Option Empty)} (refs : other.mRefs = buffer.mRefs)
    (size : other.mSize = buffer.mSize) :
    Blocks.add (bareBuffers storage) other = bareBuffers (storage.add buffer) := by
  rw [bare_eq refs size, bareBuffers, bareBuffers, Blocks.map_add]

theorem set_bare {other : CountedBuffer (Option Empty)} (refs : other.mRefs = buffer.mRefs)
    (size : other.mSize = buffer.mSize) :
    Blocks.set (bareBuffers storage) buf other = bareBuffers (storage.set buf buffer) := by
  rw [bare_eq refs size, bareBuffers, bareBuffers, Blocks.map_set]

theorem alloc_bare (size : Nat) :
    Storage.alloc a (bareBuffers storage) size =
      ((Storage.alloc a.raw storage size).1, bareBuffers (Storage.alloc a.raw storage size).2) := by
  rw [Storage.alloc, Storage.alloc, raw_mallocBuffer]
  cases a.mallocBuffer size with
  | none => rfl
  | some cells => exact congrArg (Prod.mk _) (add_bare rfl rfl)

theorem replace_bare (itemSize newSize : Nat) :
    Storage.replace a itemSize (bareBuffers storage) buf newSize =
      ((Storage.replace a.raw itemSize storage buf newSize).1,
        bareBuffers (Storage.replace a.raw itemSize storage buf newSize).2) := by
  rw [Storage.replace, Storage.replace, raw_mallocBuffer]
  cases a.mallocBuffer newSize with
  | none => rfl
  | some cells =>
      have released : ∀ {other : VectorStorage Empty} {after : VectorStorage T},
          other = bareBuffers after → (Storage.release other buf false).2 =
            bareBuffers (Storage.release after buf false).2 := by
        rintro _ after rfl
        rw [release_bare]
      exact congrArg (Prod.mk _) (released (add_bare rfl rfl))

/-- `editResize` does to the buffers what it does to those without cells. -/
theorem editResize_bare (itemSize newSize : Nat) :
    Storage.editResize a itemSize (bareBuffers storage) buf newSize =
      ((Storage.editResize a.raw itemSize storage buf newSize).1,
        bareBuffers (Storage.editResize a.raw itemSize storage buf newSize).2) := by
  rw [Storage.editResize, Storage.editResize, onlyOwner_bare, bareBuffers_mSize, raw_reallocBuffer,
    raw_moves]
  by_cases one : storage.onlyOwner buf = true
  · rw [if_pos one, if_pos one]
    by_cases same : (storage.block buf).mSize = newSize
    · rw [if_pos same, if_pos same]
    · rw [if_neg same, if_neg same]
      cases a.reallocBuffer newSize with
      | none =>
          simp only [Option.map_none]
          split
          · exact (replace_bare itemSize newSize :
              Storage.replace a itemSize (bareBuffers (storage.free buf)) buf newSize = _)
          · exact replace_bare itemSize newSize
      | some cells =>
          simp only [Option.map_some]
          split
          · exact congrArg (Prod.mk _) (congrArg (Blocks.free · buf) (@add_bare _ storage
              ((storage.block buf).resized itemSize newSize fun _ => none) _ rfl rfl))
          · exact congrArg (Prod.mk _) (set_bare rfl rfl)
  · rw [if_neg one, if_neg one]
    exact replace_bare itemSize newSize

/-- What resizing does to the cells: a resized buffer has those that it had, as far as they fit. -/
structure Resized (storage : VectorStorage T) (buf num : Nat)
    (result : Option Nat × VectorStorage T) : Prop where
  first : ∀ new, result.1 = some new → ∀ slot < num,
    contents result.2 new slot = contents storage buf slot
  others : ∀ other, result.1 ≠ some other → contents result.2 other = contents storage other
  known : ∀ new, result.1 = some new → buf < storage.allocated → new < result.2.allocated
  more : storage.allocated ≤ result.2.allocated

/-- The end of resizing: one buffer has new cells. -/
theorem Resized.of_update {num new : Nat} {after : VectorStorage T} {cells : Slots T}
    (isContents : contents after = Function.update (contents storage) new cells)
    (first : ∀ slot < num, cells slot = contents storage buf slot)
    (known : buf < storage.allocated → new < after.allocated)
    (more : storage.allocated ≤ after.allocated) : Resized storage buf num (some new, after) where
  first other isNew slot bound := by
    cases isNew
    rw [isContents, Function.update_self]
    exact first slot bound
  others other differs := by
    have elsewhere : other ≠ new := by
      rintro rfl
      exact differs rfl
    rw [isContents, Function.update_of_ne elsewhere]
  known other isNew old := by
    cases isNew
    exact known old
  more := more

theorem Resized.failed {num : Nat} {after : VectorStorage T}
    (isContents : contents after = contents storage)
    (isAllocated : after.allocated = storage.allocated) :
    Resized storage buf num (none, after) where
  first _ isNew := by cases isNew
  others _ _ := by rw [isContents]
  known _ isNew := by cases isNew
  more := Nat.le_of_eq isAllocated.symm

theorem replace_resized (b : Allocator (Option T)) (itemSize newSize : Nat) :
    Resized storage buf (min (storage.block buf).mSize newSize / itemSize)
      (Storage.replace b itemSize storage buf newSize) := by
  rw [Storage.replace]
  split
  next cells found =>
    refine .of_update (by rw [release_contents, contents_add]) (fun slot bound => ?_)
      (fun _ => ?_) ?_
    · exact if_pos bound
    · rw [release_allocated]
      exact Nat.lt_succ_self _
    · rw [release_allocated]
      exact Nat.le_succ _
  next => exact .failed rfl rfl

theorem editResize_resized (b : Allocator (Option T)) (itemSize newSize : Nat) :
    Resized storage buf (min (storage.block buf).mSize newSize / itemSize)
      (Storage.editResize b itemSize storage buf newSize) := by
  rw [Storage.editResize]
  split
  next =>
    split
    next => exact .of_update (Function.update_eq_self ..).symm (fun _ _ => rfl) id (Nat.le_refl _)
    next =>
      split
      next cells found =>
        simp only
        split
        · exact .of_update contents_add (fun slot bound => if_pos bound)
            (fun _ => Nat.lt_succ_self _) (Nat.le_succ _)
        · exact .of_update contents_set (fun slot bound => if_pos bound) id (Nat.le_refl _)
      next =>
        simp only
        split
        · have resized : Resized (storage.free buf) buf _ _ := replace_resized b itemSize newSize
          exact ⟨resized.first, resized.others, resized.known, resized.more⟩
        · exact replace_resized b itemSize newSize
  next => exact replace_resized b itemSize newSize

end Buffers

/-! ## The functions of `VectorImpl` -/

/-- The buffers of both are the same, and the cells hold the values of the objects. -/
structure Shows (memory : ObjectMemory T) (storage : VectorStorage T) : Prop where
  heap : memory.heap = bareBuffers storage
  displays : Displays memory.objects (contents storage) storage.allocated

/-- The buffer of a Vector was allocated. -/
def VectorObject.Known (storage : VectorStorage T) (vector : VectorObject) : Prop :=
  ∀ buf, vector.mStorage = some buf → buf < storage.allocated

theorem VectorObject.Known.empty {storage : VectorStorage T} :
    VectorObject.empty.Known storage :=
  fun _ isBuf => by cases isBuf

/-- What an operation leaves both with. -/
structure Follows (storage : VectorStorage T) (after : ObjectMemory T)
    (result : VectorStorage T × VectorObject) : Prop where
  shows : Shows after result.1
  known : result.2.Known result.1
  more : storage.allocated ≤ result.1.allocated

section Functions

variable {memory after : ObjectMemory T} {storage : VectorStorage T} {vector vector' : VectorObject}
  {traits : Traits} {a : Allocator (Option Empty)} {buf : Nat}

theorem capacity_bare :
    vector.capacity traits (bareBuffers storage) = vector.capacity traits storage := by
  rw [VectorObject.capacity, VectorObject.capacity]
  cases vector.mStorage <;> rfl

theorem Shows.capacity (shows : Shows memory storage) :
    vector.capacity traits memory.heap = vector.capacity traits storage := by
  rw [shows.heap, capacity_bare]

theorem itemLocation_bare (index : Nat) :
    vector.itemLocation traits (bareBuffers storage) index =
      vector.itemLocation traits storage index := by
  rw [VectorObject.itemLocation, VectorObject.itemLocation, capacity_bare]

theorem slots_source : vector.slots storage = sourceSlots (contents storage) vector.mStorage := by
  rw [VectorObject.slots]
  cases vector.mStorage <;> rfl

theorem slots_some (isBuf : vector.mStorage = some buf) :
    vector.slots storage = contents storage buf := by
  rw [VectorObject.slots, isBuf]
  rfl

theorem setCells_bare (slots : Slots T) :
    bareBuffers (storage.set buf { storage.block buf with cells := slots }) =
      bareBuffers storage := by
  rw [bareBuffers, Blocks.map_set]
  exact congrArg (Blocks.mk · _ _) (Function.update_eq_self ..)

theorem setSlots_bare (slots : Slots T) :
    bareBuffers (vector.setSlots storage slots) = bareBuffers storage := by
  rw [VectorObject.setSlots]
  cases vector.mStorage with
  | none => rfl
  | some buf => exact setCells_bare slots

theorem itemLocation_setSlots {other : VectorObject} (slots : Slots T) (index : Nat) :
    other.itemLocation traits (vector.setSlots storage slots) index =
      other.itemLocation traits storage index := by
  rw [← itemLocation_bare, setSlots_bare, itemLocation_bare]

theorem setSlots_contents (isBuf : vector.mStorage = some buf) (slots : Slots T) :
    contents (vector.setSlots storage slots) = Function.update (contents storage) buf slots := by
  rw [VectorObject.setSlots, isBuf]
  exact contents_set

theorem setSlots_allocated (slots : Slots T) :
    (vector.setSlots storage slots).allocated = storage.allocated := by
  rw [VectorObject.setSlots]
  cases vector.mStorage <;> rfl

/-- Stores into the buffer of a Vector. -/
theorem Shows.setSlots (shows : Shows memory storage) (isBuf : vector.mStorage = some buf)
    {objects : PlacedObjects T} {slots : Slots T}
    (displays : Displays objects (Function.update (contents storage) buf slots)
      storage.allocated) :
    Shows { memory with objects } (vector.setSlots storage slots) where
  heap := shows.heap.trans (setSlots_bare slots).symm
  displays := by
    rw [setSlots_contents isBuf, setSlots_allocated]
    exact displays

/-- No object is in new memory. -/
theorem Displays.add {objects : PlacedObjects T}
    (displays : Displays objects (contents storage) storage.allocated)
    (buffer : CountedBuffer (Option T)) :
    Displays objects (contents (storage.add buffer)) (storage.add buffer).allocated := by
  rw [contents_add]
  refine (displays.refill fun slot value isValue => ?_).mono (Nat.le_succ _)
  exact absurd (displays.old _ _ isValue) (Nat.lt_irrefl _)

/-- `release_storage`. -/
theorem Shows.releaseStorage (shows : Shows memory storage) (known : vector.Known storage)
    (released : memory.releaseStorage traits vector = some after) :
    Shows after (vector.releaseStorage traits storage) ∧
      (vector.releaseStorage traits storage).allocated = storage.allocated := by
  rw [ObjectMemory.releaseStorage] at released
  rw [VectorObject.releaseStorage]
  cases isBuf : vector.mStorage with
  | none =>
      rw [isBuf] at released
      cases released
      exact ⟨shows, rfl⟩
  | some buf =>
      rw [isBuf, shows.heap] at released
      simp only [release_bare] at released ⊢
      by_cases last : (storage.release buf true).1 = 1
      · rw [if_pos last] at released ⊢
        obtain ⟨objects, destroyed, done⟩ := Option.bind_eq_some_iff.mp released
        cases done
        have isContents : contents (vector.setSlots (storage.release buf true).2 (destroyType traits
            (vector.slots (storage.release buf true).2) 0 vector.mCount)) =
            Function.update (contents storage) buf
              (destroyType traits (contents storage buf) 0 vector.mCount) := by
          rw [setSlots_contents isBuf, slots_some isBuf, release_contents]
        have isAllocated : (vector.setSlots (storage.release buf true).2 (destroyType traits
            (vector.slots (storage.release buf true).2) 0 vector.mCount)).allocated =
            storage.allocated := by
          rw [setSlots_allocated, release_allocated]
        have displays := (shows.displays.here buf).destroyType (known buf isBuf) destroyed
        rw [← isContents, ← isAllocated] at displays
        refine ⟨⟨congrArg (Blocks.free · buf) (setSlots_bare _).symm, ?_⟩, isAllocated⟩
        refine displays.relocate (fun place old isSource => ?_) fun place old isSource isOld => ?_
        · split at isSource
          · cases isSource
          · cases isSource
            rfl
        · split at isSource
          · cases isSource
          · cases isSource
            exact isOld
      · rw [if_neg last] at released ⊢
        cases released
        refine ⟨⟨rfl, ?_⟩, release_allocated true⟩
        rw [release_contents, release_allocated]
        exact shows.displays

/-- The end of every reallocation. -/
theorem Shows.adopt {objects : PlacedObjects T} {new : Nat} {filled : Slots T}
    {result : ObjectMemory T × VectorObject} (known : vector.Known storage)
    (fresh : new < storage.allocated)
    (displays : Displays objects (Function.update (contents storage) new filled)
      storage.allocated)
    (adopted : ObjectMemory.adopt traits ⟨bareBuffers storage, objects⟩ vector new = some result) :
    (vector.adopt traits storage new filled).2 = result.2 ∧
      Follows storage result.1 (vector.adopt traits storage new filled) := by
  obtain ⟨released, isReleased, done⟩ := Option.bind_eq_some_iff.mp adopted
  cases done
  have filledShows : Shows ⟨bareBuffers storage, objects⟩
      (storage.set new { storage.block new with cells := filled }) := by
    refine ⟨(setCells_bare filled).symm, ?_⟩
    rw [contents_set]
    exact displays
  obtain ⟨shows, isAllocated⟩ := filledShows.releaseStorage known isReleased
  refine ⟨rfl, shows, ?_, Nat.le_of_eq isAllocated.symm⟩
  rintro _ ⟨⟩
  exact Nat.lt_of_lt_of_eq fresh isAllocated.symm

/-- `alloc` does the same to both. -/
theorem Shows.alloc (shows : Shows memory storage) (size : Nat) :
    (∃ new, Storage.alloc a memory.heap size =
        (some storage.allocated, bareBuffers (storage.add new)) ∧
      Storage.alloc a.raw storage size = (some storage.allocated, storage.add new)) ∨
    Storage.alloc a memory.heap size = (none, bareBuffers storage) ∧
      Storage.alloc a.raw storage size = (none, storage) := by
  rw [shows.heap, alloc_bare, Storage.alloc, raw_mallocBuffer]
  cases a.mallocBuffer size with
  | none => exact .inr ⟨rfl, rfl⟩
  | some cells => exact .inl ⟨_, rfl, rfl⟩

theorem VectorObject.Known.mono {next : VectorStorage T} (known : vector.Known storage)
    (more : storage.allocated ≤ next.allocated) : vector.Known next :=
  fun buf isBuf => Nat.lt_of_lt_of_le (known buf isBuf) more

theorem VectorObject.Known.add (known : vector.Known storage)
    (buffer : CountedBuffer (Option T)) : vector.Known (storage.add buffer) :=
  known.mono (Nat.le_succ _)

theorem VectorObject.Known.apart (known : vector.Known storage) :
    vector.mStorage ≠ some storage.allocated :=
  fun isNew => Nat.lt_irrefl _ (known _ isNew)

/-- After an allocation. -/
theorem Follows.added {new : CountedBuffer (Option T)} {result : VectorStorage T × VectorObject}
    (follows : Follows (storage.add new) after result) : Follows storage after result where
  shows := follows.shows
  known := follows.known
  more := Nat.le_of_succ_le follows.more

/-- Elements are copied to new memory. -/
theorem Displays.copied {objects objects' : PlacedObjects T} {new : CountedBuffer (Option T)}
    {start dest num : Nat} {slots : Slots T}
    (displays : Displays objects
      (Function.update (contents (storage.add new)) storage.allocated slots)
      (storage.add new).allocated) (known : vector.Known storage)
    (copied : objects.copyType vector.mStorage start storage.allocated dest num = some objects') :
    Displays objects' (Function.update (contents (storage.add new)) storage.allocated
      (Utils.copyType slots dest (vector.slots (storage.add new)) start num))
      (storage.add new).allocated := by
  rw [slots_source]
  exact displays.copyType (Nat.lt_succ_self _) known.apart copied

/-- `editArrayImpl`. -/
theorem Shows.editArrayImpl (shows : Shows memory storage) (known : vector.Known storage)
    {result : ObjectMemory T × VectorObject}
    (edited : memory.editArrayImpl traits a vector = some result) :
    ∃ next, vector.editArrayImpl traits a.raw storage = some (next, result.2) ∧
      Follows storage result.1 (next, result.2) := by
  rw [ObjectMemory.editArrayImpl] at edited
  rw [VectorObject.editArrayImpl]
  cases isBuf : vector.mStorage with
  | none =>
      rw [isBuf] at edited
      cases edited
      exact ⟨storage, rfl, shows, known, Nat.le_refl _⟩
  | some buf =>
      rw [isBuf] at edited
      have sameOwner : Storage.attemptEdit memory.heap buf = Storage.attemptEdit storage buf := by
        rw [shows.heap]
        rfl
      have sameSize : (memory.heap.block buf).mSize = (storage.block buf).mSize := by
        rw [shows.heap]
        rfl
      simp only [sameOwner, sameSize] at edited ⊢
      cases isOwner : Storage.attemptEdit storage buf with
      | some owned =>
          rw [isOwner] at edited
          cases edited
          exact ⟨storage, rfl, shows, known, Nat.le_refl _⟩
      | none =>
          rw [isOwner] at edited
          rcases shows.alloc (storage.block buf).mSize with ⟨new, found, found'⟩ | ⟨failed, _⟩
          · rw [found']
            rw [found] at edited
            obtain ⟨objects, copied, adopted⟩ := Option.bind_eq_some_iff.mp edited
            rw [← isBuf] at copied
            obtain ⟨same, follows⟩ := Shows.adopt (known.add new) (Nat.lt_succ_self _)
              (((shows.displays.add new).here _).copied known copied) adopted
            refine ⟨_, congrArg some (Prod.ext rfl same), ?_⟩
            rw [← same]
            exact follows.added
          · rw [failed] at edited
            cases edited

/-- `editResize`. -/
theorem Shows.editResize (shows : Shows memory storage) (known : buf < storage.allocated)
    (traits : Traits) (a : Allocator (Option Empty)) (newSize : Nat) :
    ∃ next, Storage.editResize a.raw traits.itemSize storage buf newSize =
        ((memory.editResize traits a buf newSize).1, next) ∧
      Shows (memory.editResize traits a buf newSize).2 next ∧
      (∀ new, (memory.editResize traits a buf newSize).1 = some new → new < next.allocated) ∧
      storage.allocated ≤ next.allocated := by
  obtain ⟨heap, objects⟩ := memory
  obtain ⟨isHeap, displays⟩ := shows
  subst isHeap
  have resized : Resized storage buf (min (storage.block buf).mSize newSize / traits.itemSize)
      (Storage.editResize a.raw traits.itemSize storage buf newSize) :=
    editResize_resized a.raw traits.itemSize newSize
  rw [ObjectMemory.editResize]
  simp only [editResize_bare]
  generalize Storage.editResize a.raw traits.itemSize storage buf newSize = result at resized ⊢
  obtain ⟨place, next⟩ := result
  cases place with
  | none =>
      refine ⟨next, rfl, ⟨rfl, ?_⟩, fun _ isNew => ?_, resized.more⟩
      · have same : contents next = contents storage :=
          funext fun other => resized.others other (Option.some_ne_none other).symm
        rw [same]
        exact displays.mono resized.more
      · cases isNew
  | some new =>
      refine ⟨next, rfl, ⟨rfl, ?_⟩, fun _ isNew => ?_, resized.more⟩
      · refine displays.relocate (fun place old isSource => ?_) fun place old isSource isOld => ?_
        · simp only at isSource
          split at isSource
          next isNew =>
            split at isSource
            next inside =>
              cases isSource
              exact isNew ▸ resized.first new rfl place.2 inside
            next => cases isSource
          next notNew =>
            split at isSource
            next => cases isSource
            next =>
              cases isSource
              exact congrFun (resized.others place.1 fun same => notNew (Option.some.inj same).symm)
                place.2
        · simp only at isSource
          split at isSource
          next isNew => exact isNew ▸ resized.known new rfl known
          next =>
            split at isSource
            next => cases isSource
            next =>
              cases isSource
              exact Nat.lt_of_lt_of_le isOld resized.more
      · cases isNew
        exact resized.known new rfl known

/-- Another number of elements. -/
theorem Follows.recount {result : VectorStorage T × VectorObject}
    (follows : Follows storage after result) (mCount : Nat) :
    Follows storage after (result.1, { result.2 with mCount }) where
  shows := follows.shows
  known := follows.known
  more := follows.more

/-- Stores into its buffer. -/
theorem Follows.setSlots {next : VectorStorage T}
    (follows : Follows storage after (next, vector)) (isBuf : vector.mStorage = some buf)
    {objects : PlacedObjects T} {slots : Slots T}
    (displays : Displays objects (Function.update (contents next) buf slots) next.allocated) :
    Follows storage { after with objects } (vector.setSlots next slots, vector) where
  shows := follows.shows.setSlots isBuf displays
  known other isOther := by
    rw [setSlots_allocated]
    exact follows.known other isOther
  more := by
    rw [setSlots_allocated]
    exact follows.more

/-- `_grow`. -/
theorem Shows.grow (shows : Shows memory storage) (known : vector.Known storage)
    {index amount : Nat} {result : Option Nat × ObjectMemory T × VectorObject}
    (grown : memory.grow traits a vector index amount = some result) :
    ∃ next, vector.grow traits a.raw storage index amount = some (result.1, next, result.2.2) ∧
      Follows storage result.2.1 (next, result.2.2) := by
  rw [ObjectMemory.grow] at grown
  rw [VectorObject.grow]
  simp only [shows.capacity] at grown ⊢
  by_cases full : vector.capacity traits storage < sizeAdd vector.mCount amount
  · rw [if_pos full] at grown ⊢
    by_cases resizable : vector.mStorage.isSome ∧ vector.mCount = index ∧
        traits.hasTrivialCopy ∧ traits.hasTrivialDtor
    · rw [if_pos resizable] at grown ⊢
      obtain ⟨buf, isBuf, rfl⟩ := Option.map_eq_some_iff.mp grown
      obtain ⟨next, isNext, nextShows, nextKnown, more⟩ :=
        shows.editResize (known buf isBuf) traits a
          (sizeMul (VectorImpl.growCapacity vector.mCount amount) traits.itemSize)
      rw [isBuf, Option.map_some, isNext]
      generalize ObjectMemory.editResize traits a memory buf
        (sizeMul (VectorImpl.growCapacity vector.mCount amount) traits.itemSize) = outcome
        at nextShows nextKnown ⊢
      obtain ⟨place, after⟩ := outcome
      cases place with
      | none =>
          exact ⟨next, rfl, nextShows, known.mono more, more⟩
      | some new =>
          refine ⟨next, ?_, nextShows, fun buf isBuf => ?_, more⟩
          · have isHeap : after.heap = bareBuffers next := nextShows.heap
            simp only [isHeap, itemLocation_bare]
          · cases isBuf
            exact nextKnown new rfl
    · rw [if_neg resizable] at grown ⊢
      rcases shows.alloc
          (sizeMul (VectorImpl.growCapacity vector.mCount amount) traits.itemSize) with
        ⟨new, found, found'⟩ | ⟨failed, failed'⟩
      · rw [found']
        rw [found] at grown
        obtain ⟨first, copied, grown⟩ := Option.bind_eq_some_iff.mp grown
        obtain ⟨objects, copied', grown⟩ := Option.bind_eq_some_iff.mp grown
        obtain ⟨⟨after, vector'⟩, adopted, done⟩ := Option.bind_eq_some_iff.mp grown
        cases done
        obtain ⟨same, follows⟩ := Shows.adopt (known.add new) (Nat.lt_succ_self _)
          ((((shows.displays.add new).here _).copied known copied).copied known copied') adopted
        have isVector : (vector.adopt traits _ _ _).2 = vector' := same
        subst isVector
        refine ⟨_, ?_, (follows.recount _).added⟩
        have isHeap : after.heap = _ := follows.shows.heap
        rw [isHeap, itemLocation_bare]
        rfl
      · rw [failed']
        rw [failed] at grown
        cases grown
        exact ⟨storage, rfl, ⟨rfl, shows.displays⟩, known, Nat.le_refl _⟩
  · rw [if_neg full] at grown ⊢
    obtain ⟨⟨edited, vector'⟩, isEdited, grown⟩ := Option.bind_eq_some_iff.mp grown
    obtain ⟨next, isNext, follows⟩ := shows.editArrayImpl known isEdited
    have isHeap : edited.heap = bareBuffers next := follows.shows.heap
    rw [isNext]
    by_cases differs : index ≠ vector'.mCount
    · have differs' : index ≠ (edited, vector').2.mCount := differs
      rw [if_pos differs'] at grown
      obtain ⟨buf, isBuf, grown⟩ := Option.bind_eq_some_iff.mp grown
      obtain ⟨objects, moved, done⟩ := Option.bind_eq_some_iff.mp grown
      cases done
      have moves := (follows.shows.displays.here buf).moveForwardType (follows.known buf isBuf)
        moved
      rw [← slots_some isBuf] at moves
      refine ⟨_, ?_, (follows.setSlots isBuf moves).recount _⟩
      simp only [isHeap, itemLocation_bare, Option.bind_eq_bind, Option.bind_some, if_pos differs,
        itemLocation_setSlots]
      rfl
    · have same : ¬ index ≠ (edited, vector').2.mCount := differs
      rw [if_neg same] at grown
      cases grown
      refine ⟨_, ?_, follows.recount _⟩
      simp only [isHeap, itemLocation_bare, Option.bind_eq_bind, Option.bind_some, if_neg differs]
      rfl

/-- `insertAt` of copies of a variable. -/
theorem Shows.insertAt (shows : Shows memory storage) (known : vector.Known storage) {item : T}
    {index numItems : Nat} {result : Int × ObjectMemory T × VectorObject}
    (inserted : memory.insertAt traits a vector (.outside item) index numItems = some result) :
    ∃ next, vector.insertAt traits a.raw storage item index numItems =
        some (result.1, next, result.2.2) ∧
      Follows storage result.2.1 (next, result.2.2) := by
  rw [ObjectMemory.insertAt] at inserted
  rw [VectorObject.insertAt]
  split at inserted
  next outside =>
    cases inserted
    rw [if_pos outside]
    exact ⟨storage, rfl, shows, known, Nat.le_refl _⟩
  next inside =>
    rw [if_neg inside]
    obtain ⟨⟨place, grown, vector'⟩, isGrown, inserted⟩ := Option.bind_eq_some_iff.mp inserted
    obtain ⟨next, isNext, follows⟩ := shows.grow known isGrown
    rw [isNext]
    cases place with
    | none =>
        cases inserted
        exact ⟨next, rfl, follows⟩
    | some place =>
        obtain ⟨buf, isBuf, inserted⟩ := Option.bind_eq_some_iff.mp inserted
        obtain ⟨objects, filled, done⟩ := Option.bind_eq_some_iff.mp inserted
        cases done
        have fills := (follows.shows.displays.here buf).splatType (follows.known buf isBuf) filled
        rw [← slots_some isBuf] at fills
        exact ⟨_, rfl, follows.setSlots isBuf fills⟩

/-- `_shrink`. -/
theorem Shows.shrink (shows : Shows memory storage) (known : vector.Known storage)
    {index amount : Nat} {result : ObjectMemory T × VectorObject}
    (shrunk : memory.shrink traits a vector index amount = some result) :
    ∃ next, vector.shrink traits a.raw storage index amount = some (next, result.2) ∧
      Follows storage result.1 (next, result.2) := by
  rw [ObjectMemory.shrink] at shrunk
  rw [VectorObject.shrink]
  cases isBuf : vector.mStorage with
  | none =>
      rw [isBuf] at shrunk
      cases shrunk
      exact ⟨storage, rfl, shows, known, Nat.le_refl _⟩
  | some buf =>
      rw [isBuf] at shrunk
      simp only [shows.capacity] at shrunk ⊢
      by_cases few : sizeSub vector.mCount amount < vector.capacity traits storage / 2
      · rw [if_pos few] at shrunk ⊢
        by_cases atEnd : index = sizeSub vector.mCount amount ∧ traits.hasTrivialCopy ∧
            traits.hasTrivialDtor
        · rw [if_pos atEnd] at shrunk ⊢
          obtain ⟨next, isNext, nextShows, nextKnown, more⟩ :=
            shows.editResize (known buf isBuf) traits a
              (sizeMul (VectorImpl.shrinkCapacity (sizeSub vector.mCount amount)) traits.itemSize)
          rw [isNext]
          generalize ObjectMemory.editResize traits a memory buf
            (sizeMul (VectorImpl.shrinkCapacity (sizeSub vector.mCount amount))
              traits.itemSize) = outcome at nextShows nextKnown shrunk ⊢
          obtain ⟨place, after⟩ := outcome
          cases place with
          | none =>
              cases shrunk
              exact ⟨next, rfl, nextShows, known.mono more, more⟩
          | some new =>
              cases shrunk
              refine ⟨next, rfl, nextShows, fun buf isBuf => ?_, more⟩
              cases isBuf
              exact nextKnown new rfl
        · rw [if_neg atEnd] at shrunk ⊢
          rcases shows.alloc (sizeMul
              (VectorImpl.shrinkCapacity (sizeSub vector.mCount amount)) traits.itemSize) with
            ⟨new, found, found'⟩ | ⟨failed, failed'⟩
          · rw [found']
            rw [found] at shrunk
            obtain ⟨first, copied, shrunk⟩ := Option.bind_eq_some_iff.mp shrunk
            obtain ⟨objects, copied', shrunk⟩ := Option.bind_eq_some_iff.mp shrunk
            obtain ⟨⟨after, vector'⟩, adopted, done⟩ := Option.bind_eq_some_iff.mp shrunk
            cases done
            rw [← isBuf] at copied copied'
            obtain ⟨same, follows⟩ := Shows.adopt (known.add new) (Nat.lt_succ_self _)
              ((((shows.displays.add new).here _).copied known copied).copied known copied')
              adopted
            have isVector : (vector.adopt traits _ _ _).2 = vector' := same
            subst isVector
            exact ⟨_, rfl, (follows.recount _).added⟩
          · rw [failed']
            rw [failed] at shrunk
            cases shrunk
            exact ⟨storage, rfl, ⟨rfl, shows.displays⟩, known, Nat.le_refl _⟩
      · rw [if_neg few] at shrunk ⊢
        obtain ⟨⟨edited, vector'⟩, isEdited, shrunk⟩ := Option.bind_eq_some_iff.mp shrunk
        obtain ⟨next, isNext, follows⟩ := shows.editArrayImpl known isEdited
        rw [isNext]
        obtain ⟨other, isOther, shrunk⟩ := Option.bind_eq_some_iff.mp shrunk
        obtain ⟨objects, destroyed, shrunk⟩ := Option.bind_eq_some_iff.mp shrunk
        have ends := (follows.shows.displays.here other).destroyType (follows.known other isOther)
          destroyed
        rw [← slots_some isOther] at ends
        by_cases differs : index ≠ sizeSub vector.mCount amount
        · rw [if_pos differs] at shrunk
          obtain ⟨objects', moved, done⟩ := Option.bind_eq_some_iff.mp shrunk
          cases done
          have moves := ends.moveForwardType (follows.known other isOther) moved
          refine ⟨_, ?_, (follows.setSlots isOther moves).recount _⟩
          simp only [Option.bind_eq_bind, Option.bind_some, if_pos differs]
          rfl
        · rw [if_neg differs] at shrunk
          cases shrunk
          refine ⟨_, ?_, (follows.setSlots isOther ends).recount _⟩
          simp only [Option.bind_eq_bind, Option.bind_some, if_neg differs]
          rfl

/-- `removeItemsAt`. -/
theorem Shows.removeItemsAt (shows : Shows memory storage) (known : vector.Known storage)
    {index count : Nat} {result : Int × ObjectMemory T × VectorObject}
    (removed : memory.removeItemsAt traits a vector index count = some result) :
    ∃ next, vector.removeItemsAt traits a.raw storage index count =
        some (result.1, next, result.2.2) ∧
      Follows storage result.2.1 (next, result.2.2) := by
  rw [ObjectMemory.removeItemsAt] at removed
  rw [VectorObject.removeItemsAt]
  split at removed
  next outside =>
    cases removed
    rw [if_pos outside]
    exact ⟨storage, rfl, shows, known, Nat.le_refl _⟩
  next inside =>
    rw [if_neg inside]
    obtain ⟨⟨after, vector'⟩, isShrunk, done⟩ := Option.bind_eq_some_iff.mp removed
    cases done
    obtain ⟨next, isNext, follows⟩ := shows.shrink known isShrunk
    rw [isNext]
    exact ⟨next, rfl, follows⟩

/-- `setCapacity`. -/
theorem Shows.setCapacity (shows : Shows memory storage) (known : vector.Known storage)
    {newCapacity : Nat} {result : Int × ObjectMemory T × VectorObject}
    (done : memory.setCapacity traits a vector newCapacity = some result) :
    ∃ next, vector.setCapacity traits a.raw storage newCapacity = (result.1, next, result.2.2) ∧
      Follows storage result.2.1 (next, result.2.2) := by
  rw [ObjectMemory.setCapacity] at done
  rw [VectorObject.setCapacity]
  split at done
  next kept =>
    cases done
    rw [if_pos kept, shows.capacity]
    exact ⟨storage, rfl, shows, known, Nat.le_refl _⟩
  next more =>
    rw [if_neg more]
    rcases shows.alloc (sizeMul newCapacity traits.itemSize) with
      ⟨new, found, found'⟩ | ⟨failed, failed'⟩
    · rw [found']
      rw [found] at done
      obtain ⟨objects, copied, done⟩ := Option.bind_eq_some_iff.mp done
      obtain ⟨⟨after, vector'⟩, adopted, done⟩ := Option.bind_eq_some_iff.mp done
      cases done
      obtain ⟨same, follows⟩ := Shows.adopt (known.add new) (Nat.lt_succ_self _)
        (((shows.displays.add new).here _).copied known copied) adopted
      have isVector : (vector.adopt traits _ _ _).2 = vector' := same
      subst isVector
      exact ⟨_, rfl, follows.added⟩
    · rw [failed']
      rw [failed] at done
      cases done
      exact ⟨storage, rfl, ⟨rfl, shows.displays⟩, known, Nat.le_refl _⟩

/-- A store through the reference of `editItemAt`. -/
theorem Shows.editItemAt (shows : Shows memory storage) (known : vector.Known storage) {item : T}
    (index : Nat) {result : ObjectMemory T × VectorObject}
    (edited : memory.editItemAt traits a vector index (.outside item) = some result) :
    ∃ next, vector.editItemAt traits a.raw storage index item = some (next, result.2) ∧
      Follows storage result.1 (next, result.2) := by
  obtain ⟨⟨after, vector'⟩, isEdited, edited⟩ := Option.bind_eq_some_iff.mp edited
  obtain ⟨next, isNext, follows⟩ := shows.editArrayImpl known isEdited
  obtain ⟨buf, isBuf, edited⟩ := Option.bind_eq_some_iff.mp edited
  obtain ⟨value, isValue, edited⟩ := Option.bind_eq_some_iff.mp edited
  obtain ⟨objects, assigned, done⟩ := Option.bind_eq_some_iff.mp edited
  cases isValue
  cases done
  have assigns := (follows.shows.displays.here buf).assign (follows.known buf isBuf) assigned
  rw [← slots_some isBuf] at assigns
  refine ⟨_, ?_, follows.setSlots isBuf assigns⟩
  rw [VectorObject.editItemAt, isNext]
  simp only [Option.bind_eq_bind, Option.bind_some, isBuf]
  rfl

end Functions

/-! ## Programs -/

/-- The items of a call are variables outside of all Vectors. -/
def VectorCall.outside {ι : Type} : VectorCall ι T → VectorCall ι (Item T)
  | .construct i => .construct i
  | .copy source target => .copy source target
  | .insertAt i item index numItems => .insertAt i (.outside item) index numItems
  | .push i item => .push i (.outside item)
  | .removeItemsAt i index count => .removeItemsAt i index count
  | .clear i => .clear i
  | .setCapacity i newCapacity => .setCapacity i newCapacity
  | .editItemAt i index item => .editItemAt i index (.outside item)
  | .destroy i => .destroy i

theorem VectorCall.outside_target {ι : Type} (call : VectorCall ι T) :
    call.outside.target = call.target := by
  cases call <;> rfl

/-- Every call on a live Vector. -/
theorem Shows.change {ι : Type} {memory : ObjectMemory T} {storage : VectorStorage T}
    {vector : VectorObject} {traits : Traits} {a : Allocator (Option Empty)}
    (shows : Shows memory storage) (known : vector.Known storage) {call : VectorCall ι T}
    {result : ObjectMemory T × VectorObject}
    (changed : memory.change traits a vector call.outside = some result) :
    ∃ next, call.change traits a.raw storage vector = some (next, result.2) ∧
      Follows storage result.1 (next, result.2) := by
  cases call with
  | construct i => cases changed
  | copy source target => cases changed
  | insertAt i item index numItems =>
      obtain ⟨inserted, isInserted, rfl⟩ := Option.map_eq_some_iff.mp changed
      obtain ⟨next, isNext, follows⟩ := shows.insertAt known isInserted
      exact ⟨next, congrArg (Option.map Prod.snd) isNext, follows⟩
  | push i item =>
      obtain ⟨inserted, isInserted, rfl⟩ := Option.map_eq_some_iff.mp changed
      obtain ⟨next, isNext, follows⟩ := shows.insertAt known isInserted
      exact ⟨next, congrArg (Option.map Prod.snd) isNext, follows⟩
  | removeItemsAt i index count =>
      obtain ⟨removed, isRemoved, rfl⟩ := Option.map_eq_some_iff.mp changed
      obtain ⟨next, isNext, follows⟩ := shows.removeItemsAt known isRemoved
      exact ⟨next, congrArg (Option.map Prod.snd) isNext, follows⟩
  | clear i => exact shows.shrink known changed
  | setCapacity i newCapacity =>
      obtain ⟨done, isDone, rfl⟩ := Option.map_eq_some_iff.mp changed
      obtain ⟨next, isNext, follows⟩ := shows.setCapacity known isDone
      exact ⟨next, congrArg (some ∘ Prod.snd) isNext, follows⟩
  | editItemAt i index item => exact shows.editItemAt known index changed
  | destroy i => cases changed

section Programs

variable {ι : Type} [DecidableEq ι] {traits : Traits} {state next : LiveState ι T}
  {values : VectorState ι T}

/-- A step of a program whose items are variables. -/
def OutsideStep (traits : Traits) (state : LiveState ι T)
    (event : Allocator (Option Empty) × VectorCall ι T) (next : LiveState ι T) : Prop :=
  LiveStep traits state (event.1, event.2.outside) next

/-- The same Vectors, and cells that hold the values of the objects. -/
structure LiveState.ShownBy (state : LiveState ι T) (values : VectorState ι T) : Prop where
  memory : Shows state.memory values.storage
  vectors : values.vectors = state.vectors
  known : ∀ i vector, state.vectors i = some vector → vector.Known values.storage

omit [DecidableEq ι] in
theorem LiveState.ShownBy.init : (.init : LiveState ι T).ShownBy .init where
  memory := {
    heap := rfl
    displays := {
      values := fun _ _ _ nothing => by cases nothing
      old := fun _ _ nothing => by cases nothing } }
  vectors := rfl
  known := fun _ _ nothing => by cases nothing

theorem LiveState.ShownBy.put (shown : state.ShownBy values) (i : ι) {after : ObjectMemory T}
    {storage : VectorStorage T} {vector : VectorObject}
    (follows : Follows values.storage after (storage, vector)) :
    (state.put i (after, vector)).ShownBy (values.put i (storage, vector)) where
  memory := follows.shows
  vectors := congrArg (Function.update · i _) shown.vectors
  known := by
    intro j other isVector buf isBuf
    by_cases same : j = i
    · subst same
      cases (Function.update_self ..).symm.trans isVector
      exact follows.known buf isBuf
    · have wasVector := (Function.update_of_ne same ..).symm.trans isVector
      exact (shown.known j other wasVector).mono follows.more buf isBuf

theorem LiveState.ShownBy.step (shown : state.ShownBy values)
    {event : Allocator (Option Empty) × VectorCall ι T}
    (taken : OutsideStep traits state event next) :
    ∃ next', VectorStep traits values (event.1.raw, event.2) next' ∧ next.ShownBy next' := by
  obtain ⟨a, call⟩ := event
  rw [OutsideStep] at taken
  generalize isCall : VectorCall.outside (a, call).2 = outside at taken
  cases taken with
  | construct unused =>
      cases call <;> cases isCall
      exact ⟨_, .construct (by rwa [shown.vectors]),
        shown.put _ ⟨shown.memory, .empty, Nat.le_refl _⟩⟩
  | copy alive unused =>
      cases call <;> cases isCall
      exact ⟨_, .copy (by rwa [shown.vectors]) (by rwa [shown.vectors]),
        shown.put _ ⟨shown.memory, shown.known _ _ alive, Nat.le_refl _⟩⟩
  | change alive changed =>
      subst isCall
      rw [call.outside_target] at alive ⊢
      obtain ⟨after, isNext, follows⟩ := shown.memory.change (shown.known _ _ alive) changed
      exact ⟨_, .change (by rwa [shown.vectors]) isNext, shown.put _ follows⟩
  | @destroy _ i vector alive =>
      cases call <;> cases isCall
      refine ⟨_, .destroy (by rwa [shown.vectors]), shown.memory, ?_, fun j other isVector => ?_⟩
      · simp only [shown.vectors]
      · by_cases same : j = i
        · subst same
          cases (Function.update_self ..).symm.trans isVector
        · exact shown.known j other ((Function.update_of_ne same ..).symm.trans isVector)

/-- A program with objects in its Vectors is one with cells. -/
theorem elements_have_values {events : List (Allocator (Option Empty) × VectorCall ι T)}
    (run : Run (OutsideStep traits) .init events state) :
    ∃ values, Run (VectorStep traits) .init (events.map fun event => (event.1.raw, event.2))
      values ∧ state.ShownBy values := by
  rw [List.map_eq_flatMap]
  refine run.simulate LiveState.ShownBy .init fun shown taken => ?_
  obtain ⟨next, step, follows⟩ := shown.step taken
  exact ⟨next, .single step, follows⟩

end Programs

end DroidKernal.Utils
