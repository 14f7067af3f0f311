import DroidKernal.Utils.ElementInsertion
import DroidKernal.Utils.ElementRemoval
import DroidKernal.Utils.VectorEditing

/-!
# Vectors as lists

While elements are moved right and items stay where they are, every Vector is the list that
its operations make, and every object is an element of one Vector or was destroyed once.
-/

namespace DroidKernal.Utils

open Lib

variable {T : Type}

namespace ObjectMemory

variable {memory after : ObjectMemory T} {vector other : VectorObject} {traits : Traits}
  {a : Allocator (Option Empty)} {items : List T}

/-- Another Vector keeps its elements. -/
theorem Lists.kept {old new : Option Nat} (lists : memory.Lists traits other items)
    (edits : Edits traits memory after old new)
    (apart : ∀ buf, other.mStorage = some buf → old ≠ some buf) :
    after.Lists traits other items where
  fits := by
    apply lists.fits.kept
    intro buf isBuf
    obtain ⟨live, same⟩ := edits.swaps.kept buf (lists.fits.owns buf isBuf) (apart buf isBuf)
    exact ⟨live, congrArg CountedBuffer.mSize same⟩
  count := lists.count
  values := by
    intro k bound
    rw [← lists.values k bound]
    cases isBuf : other.mStorage with
    | none => rfl
    | some buf =>
        exact Objects.valueAt_congr
          (edits.frame _ (lists.fits.owns buf isBuf) (apart buf isBuf))
  raw := by
    intro isFalse buf isBuf slot behind
    rw [edits.frame _ (lists.fits.owns buf isBuf) (apart buf isBuf)]
    exact lists.raw isFalse buf isBuf slot behind

theorem Lists.empty : memory.Lists traits .empty [] where
  fits := .empty
  count := rfl
  values := fun _ none => absurd none (Nat.not_lt_zero _)
  raw := fun _ _ none => nomatch none

/-- `setCapacity` of a capacity that can be represented. -/
theorem setCapacity_edits (ok : memory.Ok traits) (lists : memory.Lists traits vector items)
    {newCapacity : Nat}
    (meets : vector.mCount < newCapacity →
      sizeofSharedBuffer + newCapacity * traits.itemSize < 2 ^ 64 ∨
        a.mallocBuffer (sizeMul newCapacity traits.itemSize) = none)
    {result : Int × ObjectMemory T × VectorObject}
    (isSet : memory.setCapacity traits a vector newCapacity = some result) :
    Edits traits memory result.2.1 vector.mStorage result.2.2.mStorage ∧
      result.2.1.Lists traits result.2.2 items := by
  rw [ObjectMemory.setCapacity] at isSet
  split at isSet
  next =>
    cases isSet
    exact ⟨.refl ok lists.fits.owns, lists⟩
  next more =>
    have more := Nat.lt_of_not_le more
    cases isMemory : a.mallocBuffer (sizeMul newCapacity traits.itemSize) with
    | none =>
        simp only [Storage.alloc, isMemory] at isSet
        cases isSet
        exact ⟨.refl ok lists.fits.owns, lists⟩
    | some cells =>
        have represented : sizeofSharedBuffer + newCapacity * traits.itemSize < 2 ^ 64 := by
          rcases meets more with represented | noMemory
          · exact represented
          · cases isMemory.symm.trans noMemory
        have isExact : sizeMul newCapacity traits.itemSize = newCapacity * traits.itemSize :=
          sizeMul_eq (Nat.lt_of_le_of_lt (Nat.le_add_left ..) represented)
        obtain ⟨objects, after, copied, adopted, bytes, moved⟩ := reallocates ok lists
          ⟨1, sizeMul newCapacity traits.itemSize, cells⟩ rfl vector.mCount vector.mCount
          vector.mCount 0 (Nat.le_refl _) (Nat.le_refl _) (Nat.le_refl _)
        obtain ⟨middle, isMiddle, copied⟩ := Option.bind_eq_some_iff.mp copied
        cases copied
        rw [alloc_found isMemory] at isSet
        simp only [Option.bind_eq_bind, isMiddle, Option.bind_some, adopted] at isSet
        cases isSet
        refine ⟨moved.edits, ?_, lists.count, ?_, ?_⟩
        · exact .of_bytes (fun buf isBuf => (moved.edits.swaps.held buf isBuf).1) rfl bytes
            (isExact ▸ represented) (isExact ▸ Nat.mul_le_mul_right _ (Nat.le_of_lt more))
        · exact moved.front
        · rintro _ buf isNew slot behind
          cases isNew
          exact moved.raw slot behind (by omega)

/-- An assignment to the first element. -/
theorem editItemAt_edits (ok : memory.Ok traits) (lists : memory.Lists traits vector items)
    (index : Nat) (item : Item T) {result : ObjectMemory T × VectorObject}
    (isEdited : memory.editItemAt traits a vector index item = some result) :
    Edits traits memory result.1 vector.mStorage result.2.mStorage ∧
      ∃ items, result.1.Lists traits result.2 items := by
  rw [ObjectMemory.editItemAt, editArrayImpl_eq ok lists.fits.owns] at isEdited
  simp only [Option.bind_eq_bind, Option.bind_some] at isEdited
  obtain ⟨buf, isBuf, isEdited⟩ := Option.bind_eq_some_iff.mp isEdited
  obtain ⟨value, -, isEdited⟩ := Option.bind_eq_some_iff.mp isEdited
  obtain ⟨objects, assigned, done⟩ := Option.bind_eq_some_iff.mp isEdited
  cases done
  have fills : Objects.Fills (· = (buf, 0)) (fun _ => some value) memory.objects objects :=
    .assign assigned rfl
  have notRaw : ∀ place, place = (buf, 0) → memory.objects.objectAt place ≠ none := by
    rintro _ rfl isRaw
    rw [Objects.assign, isRaw] at assigned
    cases assigned
  refine ⟨?_, items.set 0 value, lists.fits, ?_, ?_, ?_⟩
  · refine edits_inPlace ok lists.fits.owns (fun place notOld => fills.outside place ?_) fills.kept
      fun isFalse => (ok.balanced isFalse).assign assigned
    rintro rfl
    exact notOld isBuf
  · rw [List.length_set]
    exact lists.count
  · intro k bound
    have old := lists.values k bound
    rw [PlacedObjects.valueIn, isBuf, Option.bind_some] at old ⊢
    rcases Nat.eq_zero_or_pos k with rfl | later
    · rw [List.getElem?_set_self (lists.count ▸ bound)]
      exact fills.inside _ rfl
    · rw [List.getElem?_set_ne (Nat.ne_of_lt later), ← old]
      refine Objects.valueAt_congr (fills.outside _ fun same => ?_)
      exact Nat.ne_of_gt later (Prod.mk.inj same).2
  · intro isFalse buf' isBuf' slot behind
    rw [fills.outside, lists.raw isFalse buf' isBuf' slot behind]
    intro same
    exact notRaw _ same (lists.raw isFalse buf' isBuf' slot behind)

/-- The condition on `removeItemsAt`: no size wraps and what follows is moved right, or the
removal is refused. -/
def RemovesRight (traits : Traits) (memory : ObjectMemory T) (vector : VectorObject)
    (index count : Nat) : Prop :=
  (index + count ≤ vector.mCount ∧ ¬ vector.ShrinkOverflows traits memory.heap count ∧
      ShrinksRight traits memory vector index count) ∨
    vector.mCount < sizeAdd index count

/-- A removal, whatever becomes of it. -/
theorem removeItemsAt_edits (ok : memory.Ok traits) (lists : memory.Lists traits vector items)
    {index count : Nat} (right : RemovesRight traits memory vector index count)
    {result : Int × ObjectMemory T × VectorObject}
    (isRemoved : memory.removeItemsAt traits a vector index count = some result) :
    Edits traits memory result.2.1 vector.mStorage result.2.2.mStorage ∧
      ∃ items, result.2.1.Lists traits result.2.2 items := by
  rw [ObjectMemory.removeItemsAt] at isRemoved
  split at isRemoved
  next =>
    cases isRemoved
    exact ⟨.refl ok lists.fits.owns, items, lists⟩
  next inside =>
    obtain ⟨within, exact', shrinks⟩ := right.resolve_right inside
    obtain ⟨shrunk, isShrunk, done⟩ := Option.bind_eq_some_iff.mp isRemoved
    cases done
    exact shrink_edits ok lists within exact' shrinks isShrunk

end ObjectMemory

/-! ## Programs -/

section Programs

open ObjectMemory

variable {ι : Type} {state next : LiveState ι T} {traits : Traits}

/-- The condition on a call: no size of it wraps unnoticed, elements are moved right, an item
is alive and stays where it is, and what is copied or goes out of scope has no storage. -/
def VectorCall.Careful (traits : Traits) (a : Allocator (Option Empty)) (state : LiveState ι T) :
    VectorCall ι (Item T) → Prop
  | .copy source _ => ∀ vector, state.vectors source = some vector → vector.mStorage = none
  | .insertAt i item index numItems => ∀ vector, state.vectors i = some vector →
      InsertsRight traits a state.memory vector item index numItems
  | .push i item => ∀ vector, state.vectors i = some vector →
      InsertsRight traits a state.memory vector item vector.mCount 1
  | .removeItemsAt i index count => ∀ vector, state.vectors i = some vector →
      RemovesRight traits state.memory vector index count
  | .clear i => ∀ vector, state.vectors i = some vector →
      ¬ vector.ShrinkOverflows traits state.memory.heap vector.mCount
  | .setCapacity i newCapacity => ∀ vector, state.vectors i = some vector →
      vector.mCount < newCapacity →
        sizeofSharedBuffer + newCapacity * traits.itemSize < 2 ^ 64 ∨
          a.mallocBuffer (sizeMul newCapacity traits.itemSize) = none
  | .destroy i => ∀ vector, state.vectors i = some vector → vector.mStorage = none
  | .construct _ | .editItemAt _ _ _ => True

/-- A call that meets the condition. -/
def CarefulStep [DecidableEq ι] (traits : Traits) (state : LiveState ι T)
    (event : Allocator (Option Empty) × VectorCall ι (Item T)) (next : LiveState ι T) : Prop :=
  LiveStep traits state event next ∧ event.2.Careful traits event.1 state

/-- The Vectors and their buffers. -/
def LiveState.shape (state : LiveState ι T) : VectorState ι Empty where
  storage := state.memory.heap
  vectors := state.vectors

/-- Every Vector has its own buffer and is a list. -/
structure LiveState.Listed (traits : Traits) (state : LiveState ι T) : Prop where
  owned : state.shape.Owned
  ok : state.memory.Ok traits
  lists : ∀ i vector, state.vectors i = some vector →
    ∃ items, state.memory.Lists traits vector items

theorem LiveState.Listed.init : (LiveState.init : LiveState ι T).Listed traits := by
  have owned : (LiveState.init : LiveState ι T).shape.Owned := .init
  exact {
    owned
    ok := {
      exclusive := owned.exclusive
      placed := fun _ isThere => absurd rfl isThere
      balanced := fun _ => .init }
    lists := fun _ _ none => nomatch none }

/-- No two Vectors have the same buffer. -/
theorem LiveState.Listed.apart (listed : state.Listed traits) {i j : ι}
    {vector other : VectorObject}
    (alive : state.vectors i = some vector) (isOther : state.vectors j = some other)
    (differ : j ≠ i) (buf : Nat) (isBuf : other.mStorage = some buf) :
    vector.mStorage ≠ some buf := by
  intro isMine
  have points : state.shape.Points j buf := ⟨other, isOther, isBuf⟩
  obtain ⟨owner, single⟩ := listed.owned.owner buf (listed.owned.live j buf points)
  exact differ (((single j).mp points).trans ((single i).mp ⟨vector, alive, isMine⟩).symm)

variable [DecidableEq ι]

/-- A Vector is changed. -/
theorem LiveState.Listed.put (listed : state.Listed traits) {i : ι} {vector : VectorObject}
    (alive : state.vectors i = some vector) {result : ObjectMemory T × VectorObject}
    (edits : Edits traits state.memory result.1 vector.mStorage result.2.mStorage)
    (lists : ∃ items, result.1.Lists traits result.2 items) :
    (state.put i result).Listed traits where
  owned := by
    have put : (state.shape.put i (result.1.heap, result.2)).Owned ∧ _ :=
      listed.owned.put (VectorState.points_iff alive) edits.swaps
    exact put.1
  ok := edits.ok
  lists := by
    intro j other isOther
    by_cases same : j = i
    · cases same
      cases (Function.update_self ..).symm.trans isOther
      exact lists
    · have isOther := (Function.update_of_ne same ..).symm.trans isOther
      obtain ⟨items, otherLists⟩ := listed.lists j other isOther
      exact ⟨items, otherLists.kept edits (listed.apart alive isOther same)⟩

/-- A Vector without storage comes to be. -/
theorem LiveState.Listed.putEmpty (listed : state.Listed traits) {i : ι}
    (unused : state.vectors i = none) {vector : VectorObject} (nothing : vector.mStorage = none)
    (lists : ∃ items, state.memory.Lists traits vector items) :
    (state.put i (state.memory, vector)).Listed traits where
  owned := (listed.owned.putEmpty unused nothing).1
  ok := listed.ok
  lists := by
    intro j other isOther
    by_cases same : j = i
    · cases same
      cases (Function.update_self ..).symm.trans isOther
      exact lists
    · exact listed.lists j other ((Function.update_of_ne same ..).symm.trans isOther)

/-- Every call that meets the condition. -/
theorem LiveState.Listed.step (listed : state.Listed traits)
    {event : Allocator (Option Empty) × VectorCall ι (Item T)}
    (taken : CarefulStep traits state event next) : next.Listed traits := by
  obtain ⟨taken, careful⟩ := taken
  cases taken with
  | construct unused => exact listed.putEmpty unused rfl ⟨[], .empty⟩
  | @copy a source target vector alive unused =>
      exact listed.putEmpty unused (careful vector alive) (listed.lists source vector alive)
  | @destroy a i vector alive =>
      exact {
        owned := (listed.owned.destroy alive (careful vector alive)).1
        ok := listed.ok
        lists := by
          intro j other isOther
          by_cases same : j = i
          · cases same
            cases (Function.update_self ..).symm.trans isOther
          · exact listed.lists j other ((Function.update_of_ne same ..).symm.trans isOther) }
  | @change a call vector result alive changed =>
      obtain ⟨items, lists⟩ := listed.lists _ vector alive
      cases call with
      | construct i => cases changed
      | copy source target => cases changed
      | destroy i => cases changed
      | insertAt i item index numItems =>
          obtain ⟨inserted, isInserted, rfl⟩ := Option.map_eq_some_iff.mp changed
          obtain ⟨edits, after⟩ := insertAt_edits listed.ok lists (careful vector alive) isInserted
          exact listed.put alive edits after
      | push i item =>
          obtain ⟨inserted, isInserted, rfl⟩ := Option.map_eq_some_iff.mp changed
          obtain ⟨edits, after⟩ := insertAt_edits listed.ok lists (careful vector alive) isInserted
          exact listed.put alive edits after
      | removeItemsAt i index count =>
          obtain ⟨removed, isRemoved, rfl⟩ := Option.map_eq_some_iff.mp changed
          obtain ⟨edits, after⟩ :=
            removeItemsAt_edits listed.ok lists (careful vector alive) isRemoved
          exact listed.put alive edits after
      | clear i =>
          obtain ⟨edits, after⟩ := shrink_edits listed.ok lists (Nat.zero_add _).le
            (careful vector alive) (fun _ notEnd => absurd (Nat.sub_self _).symm notEnd) changed
          exact listed.put alive edits after
      | setCapacity i newCapacity =>
          obtain ⟨set, isSet, rfl⟩ := Option.map_eq_some_iff.mp changed
          obtain ⟨edits, after⟩ := setCapacity_edits listed.ok lists (careful vector alive) isSet
          exact listed.put alive edits ⟨items, after⟩
      | editItemAt i index item =>
          obtain ⟨edits, after⟩ := editItemAt_edits listed.ok lists index item changed
          exact listed.put alive edits after

end Programs

/-! ## Insertion and removal -/

/-- The values of the elements, where they are alive. -/
def VectorObject.elements (objects : PlacedObjects T) (vector : VectorObject) : List (Option T) :=
  (List.range vector.mCount).map (objects.valueIn vector.mStorage)

/-- Every object that was constructed is an element of a Vector or was destroyed once. -/
structure LiveState.Accounted {ι : Type} (state : LiveState ι T) : Prop where
  balanced : state.memory.objects.Balanced
  held : ∀ place, state.memory.objects.objectAt place ≠ none →
    ∃ i vector, state.vectors i = some vector ∧ vector.mStorage = some place.1 ∧
      place.2 < vector.mCount

/-- List removal. -/
structure ObjectMemory.RemovesElements (traits : Traits) (before after : ObjectMemory T)
    (vector vector' : VectorObject) (index count : Nat) : Prop where
  size : vector'.mCount + count = vector.mCount
  elements : vector'.elements after.objects =
    (vector.elements before.objects).take index ++
      (vector.elements before.objects).drop (index + count)
  alive : none ∉ vector'.elements after.objects
  destroyed : traits.hasTrivialDtor = false → ∀ k, index ≤ k → k < index + count →
    ∃ buf object, vector.mStorage = some buf ∧ before.objects.objectAt (buf, k) = some object ∧
      after.objects.destroyed.count object.id = 1

/-- List insertion. -/
structure ObjectMemory.InsertsElements (traits : Traits) (before after : ObjectMemory T)
    (vector vector' : VectorObject) (value : T) (index numItems : Nat) : Prop where
  size : vector'.mCount = vector.mCount + numItems
  room : vector'.mCount ≤ vector'.capacity traits after.heap
  elements : vector'.elements after.objects =
    (vector.elements before.objects).take index ++ List.replicate numItems (some value) ++
      (vector.elements before.objects).drop index
  alive : none ∉ vector'.elements after.objects

section Elements

open ObjectMemory

variable {ι : Type} {state : LiveState ι T} {memory after : ObjectMemory T}
  {vector vector' : VectorObject} {traits : Traits} {a : Allocator (Option Empty)} {items : List T}
  {index count : Nat} {item : Item T} {value : T}

theorem VectorObject.elements_getElem? {objects : PlacedObjects T} {k : Nat}
    (bound : k < vector.mCount) :
    (vector.elements objects)[k]? = some (objects.valueIn vector.mStorage k) := by
  rw [VectorObject.elements, List.getElem?_map, List.getElem?_range bound]
  rfl

/-- All elements of a list are alive. -/
theorem ObjectMemory.Lists.elements (lists : memory.Lists traits vector items) :
    vector.elements memory.objects = items.map some := by
  apply List.ext_getElem?
  intro k
  rw [List.getElem?_map]
  by_cases bound : k < vector.mCount
  · rw [VectorObject.elements_getElem? bound, lists.values k bound,
      List.getElem?_eq_getElem (lists.count ▸ bound)]
    rfl
  · rw [VectorObject.elements, List.getElem?_eq_none, List.getElem?_eq_none]
    · rfl
    · rw [← lists.count]
      exact Nat.le_of_not_lt bound
    · rw [List.length_map, List.length_range]
      exact Nat.le_of_not_lt bound

theorem ObjectMemory.Lists.none_notMem (lists : memory.Lists traits vector items) :
    none ∉ vector.elements memory.objects := by
  rw [lists.elements]
  simp

/-- What is read where all values are known. -/
theorem ObjectMemory.values_of_elements {objects : PlacedObjects T}
    (known : vector.elements objects = items.map some) :
    ∀ k < vector.mCount, objects.valueIn vector.mStorage k = items[k]? := by
  intro k bound
  have value : (vector.elements objects)[k]? = _ := VectorObject.elements_getElem? bound
  rw [known, List.getElem?_map] at value
  obtain ⟨element, isElement, same⟩ := Option.map_eq_some_iff.mp value
  rw [← same, isElement]

/-- In a state where every Vector is a list, no object was lost. -/
theorem LiveState.Listed.accounted (listed : state.Listed traits)
    (isFalse : traits.hasTrivialDtor = false) : state.Accounted where
  balanced := listed.ok.balanced isFalse
  held := by
    rintro ⟨buf, slot⟩ isThere
    obtain ⟨i, single⟩ := listed.owned.owner buf (listed.ok.placed _ isThere)
    obtain ⟨vector, isVector, isBuf⟩ := (single i).mpr rfl
    obtain ⟨items, lists⟩ := listed.lists i vector isVector
    refine ⟨i, vector, isVector, isBuf, ?_⟩
    by_contra behind
    exact isThere (lists.raw isFalse buf isBuf slot (Nat.le_of_not_lt behind))

variable [DecidableEq ι] {i : ι}

/-- While every call meets the condition: `removeItemsAt` removes from the list of elements,
and destroys what it removes, exactly where what follows is moved right. -/
theorem removal_is_list_removal_iff
    {events : List (Allocator (Option Empty) × VectorCall ι (Item T))}
    (reached : Run (CarefulStep traits) .init events state)
    (alive : state.vectors i = some vector) (a : Allocator (Option Empty))
    (within : index + count ≤ vector.mCount)
    (exact' : ¬ vector.ShrinkOverflows traits state.memory.heap count)
    (found : ¬ ShrinkFails traits a state.memory vector index count) :
    (∃ memory vector', state.memory.removeItemsAt traits a vector index count =
        some (toSsize index, memory, vector') ∧
      RemovesElements traits state.memory memory vector vector' index count ∧
      (traits.hasTrivialDtor = false → (state.put i (memory, vector')).Accounted)) ↔
      ShrinksRight traits state.memory vector index count := by
  have listed : state.Listed traits :=
    reached.invariant (LiveState.Listed traits) .init fun listed step => listed.step step
  obtain ⟨items, lists⟩ := listed.lists i vector alive
  have isRemoved : (vector.elements state.memory.objects).take index ++
      (vector.elements state.memory.objects).drop (index + count) =
        (removed items index count).map some := by
    rw [lists.elements, removed, List.map_append, List.map_take, List.map_drop]
  constructor
  · rintro ⟨memory, vector', isResult, removes, -⟩
    have size := removes.size
    refine shrinksRight_of_removed listed.ok lists within isResult fun k bound => ?_
    exact values_of_elements (removes.elements.trans isRemoved) k (by omega)
  · intro right
    obtain ⟨memory, storage, isResult, shrunk⟩ :=
      removeItemsAt_spec listed.ok lists a within exact' found right
    have next : (state.put i (memory, ⟨storage, vector.mCount - count⟩)).Listed traits :=
      listed.put alive shrunk.edits ⟨_, shrunk.lists⟩
    refine ⟨memory, _, isResult, ⟨Nat.sub_add_cancel (by omega), ?_, shrunk.lists.none_notMem, ?_⟩,
      next.accounted⟩
    · rw [isRemoved]
      exact shrunk.lists.elements
    · intro isFalse k above below
      obtain ⟨buf, isBuf⟩ := lists.fits.stored (show k < vector.mCount by omega)
      obtain ⟨object, isThere⟩ := Option.ne_none_iff_exists'.mp
        (lists.alive_at isBuf (show k < vector.mCount by omega))
      refine ⟨buf, object, isBuf, isThere, ?_⟩
      exact List.count_eq_one_of_mem (next.ok.balanced isFalse).nodup
        (shrunk.ended isFalse buf object k isBuf above below isThere)

/-- While every call meets the condition: `insertAt` inserts copies of the item into the list
of elements exactly where the item is found where it was once there is room. -/
theorem insertion_is_list_insertion_iff
    {events : List (Allocator (Option Empty) × VectorCall ι (Item T))}
    (reached : Run (CarefulStep traits) .init events state)
    (alive : state.vectors i = some vector) (a : Allocator (Option Empty))
    (inside : index ≤ vector.mCount) (some' : 0 < count)
    (exact' : ¬ vector.Overflows traits state.memory.heap count)
    (found : ¬ vector.GrowFails traits a state.memory.heap index count)
    (designates : Designates state.memory vector item value) :
    (∃ memory vector', state.memory.insertAt traits a vector item index count =
        some (toSsize index, memory, vector') ∧
      InsertsElements traits state.memory memory vector vector' value index count ∧
      (traits.hasTrivialDtor = false → (state.put i (memory, vector')).Accounted)) ↔
      StaysReadable traits a state.memory vector index count item := by
  have listed : state.Listed traits :=
    reached.invariant (LiveState.Listed traits) .init fun listed step => listed.step step
  obtain ⟨items, lists⟩ := listed.lists i vector alive
  have isInserted : (vector.elements state.memory.objects).take index ++
      List.replicate count (some value) ++ (vector.elements state.memory.objects).drop index =
        (inserted items index count value).map some := by
    rw [lists.elements, inserted, List.map_append, List.map_append, List.map_take, List.map_drop,
      List.map_replicate]
  constructor
  · rintro ⟨memory, vector', isResult, inserts, -⟩
    have size := inserts.size
    refine readable_of_inserted listed.ok lists inside some' exact' found designates isResult ?_
    rw [values_of_elements (inserts.elements.trans isInserted) index (by omega),
      inserted_getElem? (lists.count ▸ inside), if_neg (Nat.lt_irrefl index), if_pos (by omega)]
  · intro readable
    obtain ⟨memory, storage, isResult, edits, filled⟩ :=
      insertAt_spec listed.ok lists a inside some' exact' found designates readable
    have next : (state.put i (memory, ⟨storage, vector.mCount + count⟩)).Listed traits :=
      listed.put alive edits ⟨_, filled⟩
    refine ⟨memory, _, isResult, ⟨rfl, filled.fits.room, ?_, filled.none_notMem⟩, next.accounted⟩
    rw [isInserted]
    exact filled.elements

end Elements

/-- A class that declares no traits. -/
def classTraits : Traits := .nontrivial 8 (by decide)

/-- All memory is found, and moves where it grows. -/
def ampleHeap : Allocator (Option Empty) where
  malloc _ := some fun _ => none
  realloc _ := some fun _ => none
  moves := true

/-- A program inserts three elements into a Vector. -/
theorem three_elements :
    ∃ (state : LiveState Nat Nat) (vector : VectorObject),
      Run (CarefulStep classTraits) .init
        [(ampleHeap, .construct 0), (ampleHeap, .insertAt 0 (.outside 7) 0 3)] state ∧
      state.vectors 0 = some vector ∧ vector.mStorage = some 0 ∧ vector.mCount = 3 ∧
        (state.memory.heap.block 0).mSize = 32 ∧
        state.memory.objects.valueAt (0, 0) = some 7 := by
  let start : LiveState Nat Nat := .init
  let first := start.put 0 (start.memory, .empty)
  let result := (first.memory.change classTraits ampleHeap .empty
    (.insertAt 0 (.outside 7) 0 3)).get (by decide)
  have inserted : LiveStep classTraits first (ampleHeap, .insertAt 0 (.outside 7) 0 3)
      (first.put 0 result) := .change rfl (Option.some_get _).symm
  have careful : ∀ vector, first.vectors 0 = some vector →
      ObjectMemory.InsertsRight classTraits ampleHeap first.memory vector (.outside 7) 0 3 := by
    intro vector isVector
    cases isVector
    have small : ¬ VectorObject.Overflows classTraits first.memory.heap .empty 3 := by
      simp only [VectorObject.Overflows]
      decide
    exact ⟨fun overflows => absurd overflows small, fun none => (by cases none),
      fun _ => ⟨7, rfl, fun _ _ isElement => (by cases isElement)⟩,
      fun _ => trivial⟩
  exact ⟨first.put 0 result, result.2,
    .cons ⟨.construct rfl, trivial⟩ (.single ⟨inserted, careful⟩), rfl, by decide,
    by decide, by decide, by decide⟩

open ObjectMemory

theorem classTraits_not_trivial (objects : PlacedObjects Nat) {buf dest start num : Nat}
    (right : PlacedObjects.ShiftsRight classTraits objects buf dest start num) :
    start < dest ∨ dest + num ≤ start := by
  rcases right with isMove | up | clear | ⟨isTrue, _⟩
  · cases isMove
  · exact .inl up
  · exact .inr clear
  · cases isTrue

/-- The second of three elements is removed. -/
theorem removal_is_list_removal_second :
    ∃ (state : LiveState Nat Nat) (vector : VectorObject) (memory : ObjectMemory Nat)
      (vector' : VectorObject), state.vectors 0 = some vector ∧ vector.mCount = 3 ∧
      state.memory.removeItemsAt classTraits ampleHeap vector 1 1 =
        some (toSsize 1, memory, vector') ∧
      RemovesElements classTraits state.memory memory vector vector' 1 1 := by
  obtain ⟨state, vector, reached, alive, isBuf, three, bytes, _⟩ := three_elements
  have right : ShrinksRight classTraits state.memory vector 1 1 := by
    intro _ _ buf _
    refine .inr (.inr (.inl ?_))
    rw [three]
  have many : ¬ vector.ShrinkOverflows classTraits state.memory.heap 1 := by
    rintro ⟨few, _⟩
    rw [capacity_some isBuf, bytes, three] at few
    exact absurd few (by decide)
  obtain ⟨memory, vector', isResult, removes, _⟩ := (removal_is_list_removal_iff reached alive
    ampleHeap (by rw [three]; decide) many fun fails => (by cases fails.2.1)).mpr right
  exact ⟨state, vector, memory, vector', alive, three, isResult, removes⟩

/-- The first of three elements is to be removed in place. -/
theorem first_element_not_removed :
    ¬ ∀ events (state : LiveState Nat Nat) vector, Run (LiveStep classTraits) .init events state →
      state.vectors 0 = some vector → ∀ a index count, index + count ≤ vector.mCount →
        ¬ vector.ShrinkOverflows classTraits state.memory.heap count →
        ¬ ShrinkFails classTraits a state.memory vector index count →
        ∃ memory vector', state.memory.removeItemsAt classTraits a vector index count =
            some (toSsize index, memory, vector') ∧
          RemovesElements classTraits state.memory memory vector vector' index count ∧
          (classTraits.hasTrivialDtor = false → (state.put 0 (memory, vector')).Accounted) := by
  intro every
  obtain ⟨state, vector, reached, alive, isBuf, three, bytes, _⟩ := three_elements
  have within : 0 + 1 ≤ vector.mCount := by
    rw [three]
    decide
  have found : ¬ ShrinkFails classTraits ampleHeap state.memory vector 0 1 :=
    fun fails => (by cases fails.2.1)
  have many : vector.capacity classTraits state.memory.heap / 2 ≤ vector.mCount - 1 := by
    rw [capacity_some isBuf, bytes, three]
    decide
  have small : ¬ vector.ShrinkOverflows classTraits state.memory.heap 1 :=
    fun overflows => absurd overflows.1 (Nat.not_lt.mpr many)
  have right := (removal_is_list_removal_iff reached alive ampleHeap within small found).mp
    (every _ state vector (reached.mono fun step => step.1) alive ampleHeap 0 1 within small found)
  rcases classTraits_not_trivial _ (right many (by rw [three]; decide) 0 isBuf) with up | clear
  · exact absurd up (by decide)
  · rw [three] at clear
    exact absurd clear (by decide)

/-- An element is inserted between three. -/
theorem insertion_is_list_insertion_second :
    ∃ (state : LiveState Nat Nat) (vector : VectorObject) (memory : ObjectMemory Nat)
      (vector' : VectorObject), state.vectors 0 = some vector ∧ vector.mCount = 3 ∧
      state.memory.insertAt classTraits ampleHeap vector (.outside 8) 1 2 =
        some (toSsize 1, memory, vector') ∧
      InsertsElements classTraits state.memory memory vector vector' 8 1 2 := by
  obtain ⟨state, vector, reached, alive, isBuf, three, bytes, _⟩ := three_elements
  have small : ¬ vector.Overflows classTraits state.memory.heap 2 := by
    simp only [VectorObject.Overflows, three, capacity_some isBuf, bytes]
    decide
  have inside : 1 ≤ vector.mCount := by
    rw [three]
    decide
  have designates : Designates state.memory vector (.outside 8) 8 :=
    ⟨rfl, fun _ _ isElement => (by cases isElement)⟩
  obtain ⟨memory, vector', isResult, inserts, _⟩ := (insertion_is_list_insertion_iff reached alive
    ampleHeap inside (by decide) small (fun fails => (by cases fails.1)) designates).mpr trivial
  exact ⟨state, vector, memory, vector', alive, three, isResult, inserts⟩

/-- Copies of the first of three elements are to be inserted, and there is no room. -/
theorem own_element_not_inserted :
    ¬ ∀ events (state : LiveState Nat Nat) vector, Run (LiveStep classTraits) .init events state →
      state.vectors 0 = some vector → ∀ a item value index numItems, index ≤ vector.mCount →
        0 < numItems → ¬ vector.Overflows classTraits state.memory.heap numItems →
        ¬ vector.GrowFails classTraits a state.memory.heap index numItems →
        Designates state.memory vector item value →
        ∃ memory vector', state.memory.insertAt classTraits a vector item index numItems =
            some (toSsize index, memory, vector') ∧
          InsertsElements classTraits state.memory memory vector vector' value index numItems ∧
          (classTraits.hasTrivialDtor = false → (state.put 0 (memory, vector')).Accounted) := by
  intro every
  obtain ⟨state, vector, reached, alive, isBuf, three, bytes, isFirst⟩ := three_elements
  have small : ¬ vector.Overflows classTraits state.memory.heap 2 := by
    simp only [VectorObject.Overflows, three, capacity_some isBuf, bytes]
    decide
  have inside : 3 ≤ vector.mCount := three.symm.le
  have designates : Designates state.memory vector (.element 0 0) 7 := by
    refine ⟨isFirst, fun buf slot isItem _ => ?_⟩
    cases isItem
    rw [three]
    decide
  have found : ¬ vector.GrowFails classTraits ampleHeap state.memory.heap 3 2 :=
    fun fails => by cases fails.1
  have readable := (insertion_is_list_insertion_iff reached alive ampleHeap inside
    (by decide) small found designates).mp
    (every _ state vector (reached.mono fun step => step.1) alive ampleHeap (.element 0 0) 7 3 2
      inside (by decide) small found designates)
  rcases (readable isBuf).1 with roomy | ⟨⟨-, -, isCopy, -⟩, -⟩
  · rw [capacity_some isBuf, bytes, three] at roomy
    exact absurd roomy (by decide)
  · cases isCopy

end DroidKernal.Utils
