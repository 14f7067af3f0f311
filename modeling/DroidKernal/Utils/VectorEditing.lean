import DroidKernal.Utils.VectorSizes

/-!
# Editing an element

The reference that `editItemAt` returns designates the first element, whichever index was
asked for; and nothing tells an owner of shared storage from the only one.
-/

namespace DroidKernal.Utils

open Lib

variable {T : Type}

variable {ι : Type} {state next : VectorState ι T} {traits : Traits} {a : Allocator (Option T)}

/-- Storing through the reference changes the element and nothing else. -/
structure VectorState.EditsOnly (state : VectorState ι T) (i : ι) (index : Nat) (item : T)
    (next : VectorState ι T) : Prop where
  edited : ∀ vector, state.vectors i = some vector →
    next.vectors i = some vector ∧ vector.itemAt next.storage index = some item
  elements : ∀ vector, state.vectors i = some vector → ∀ other < vector.mCount, other ≠ index →
    vector.itemAt next.storage other = vector.itemAt state.storage other
  others : ∀ j vector, j ≠ i → state.vectors j = some vector →
    next.vectors j = some vector ∧ ∀ k < vector.mCount,
      vector.itemAt next.storage k = vector.itemAt state.storage k

/-- The first element is asked for and no other Vector has it; or the store changes
nothing. -/
def VectorState.EditsFirst (state : VectorState ι T) (i : ι) (vector : VectorObject)
    (index : Nat) (item : T) : Prop :=
  (index = 0 ∧ ∀ j other, j ≠ i → state.vectors j = some other →
      other.mStorage = vector.mStorage → other.mCount = 0) ∨
    vector.itemAt state.storage 0 = some item ∧ vector.itemAt state.storage index = some item

section Edits

variable [DecidableEq ι] {i : ι} {vector : VectorObject} {index : Nat} {item : T}

theorem VectorObject.Fits.stored {storage : VectorStorage T} (fits : vector.Fits traits storage)
    (inside : index < vector.mCount) : ∃ buf, vector.mStorage = some buf := by
  cases isBuf : vector.mStorage with
  | some buf => exact ⟨buf, rfl⟩
  | none =>
      have room := fits.room
      rw [VectorObject.capacity, isBuf] at room
      exact absurd (Nat.lt_of_lt_of_le inside room) (Nat.not_lt_zero _)

/-- What the store does. -/
theorem edit_eq (roomy : state.Roomy traits) (alive : state.vectors i = some vector)
    (inside : index < vector.mCount) :
    VectorStep traits state (a, .editItemAt i index item)
      (state.put i (vector.setSlots state.storage
        (Function.update (vector.slots state.storage) 0 (some item)), vector)) := by
  have fits := roomy.fits i vector alive
  obtain ⟨buf, isBuf⟩ := fits.stored inside
  refine .change alive ?_
  simp only [VectorCall.change, VectorObject.editItemAt,
    VectorObject.editArrayImpl_eq roomy.exclusive fits.owns, Option.bind_eq_bind, Option.bind_some,
    isBuf]
  rfl

omit [DecidableEq ι] in
/-- Who shares the storage finds what was stored. -/
theorem itemAt_shared {buf : Nat} {other : VectorObject} (isBuf : vector.mStorage = some buf)
    (isShared : other.mStorage = some buf) (slots : Slots T) (k : Nat) :
    other.itemAt (vector.setSlots state.storage slots) k = slots k := by
  simp only [VectorObject.itemAt, VectorObject.slots, isShared, VectorObject.setSlots, isBuf,
    Blocks.set_block_self]

omit [DecidableEq ι] in
/-- Everybody else finds what was there. -/
theorem itemAt_other {other : VectorObject} (differs : other.mStorage ≠ vector.mStorage)
    (slots : Slots T) (k : Nat) :
    other.itemAt (vector.setSlots state.storage slots) k = other.itemAt state.storage k := by
  rw [VectorObject.setSlots]
  split
  next buf isBuf =>
    cases isOther : other.mStorage with
    | none => simp only [VectorObject.itemAt, VectorObject.slots, isOther]
    | some stored =>
        have apart : stored ≠ buf := by
          rintro rfl
          exact differs (isOther.trans isBuf.symm)
        simp only [VectorObject.itemAt, VectorObject.slots, isOther, Blocks.set_block apart]
  next => rfl

omit [DecidableEq ι] in
/-- A store that changes nothing. -/
theorem itemAt_same {other : VectorObject} (same : vector.itemAt state.storage 0 = some item)
    (k : Nat) :
    other.itemAt (vector.setSlots state.storage
      (Function.update (vector.slots state.storage) 0 (some item))) k =
        other.itemAt state.storage k := by
  have unchanged : Function.update (vector.slots state.storage) 0 (some item) =
      vector.slots state.storage := by
    rw [← same]
    exact Function.update_eq_self ..
  rw [unchanged]
  by_cases isShared : other.mStorage = vector.mStorage
  · cases isBuf : vector.mStorage with
    | none => rw [VectorObject.setSlots, isBuf]
    | some buf =>
        rw [itemAt_shared isBuf (isShared.trans isBuf), VectorObject.itemAt, VectorObject.slots,
          VectorObject.slots, isBuf, isShared.trans isBuf]
  · exact itemAt_other isShared _ k

/-- The store is right where the first element was asked for, or by chance. -/
theorem edits_only_iff (roomy : state.Roomy traits) (alive : state.vectors i = some vector)
    (inside : index < vector.mCount) :
    state.EditsOnly i index item (state.put i (vector.setSlots state.storage
        (Function.update (vector.slots state.storage) 0 (some item)), vector)) ↔
      state.EditsFirst i vector index item := by
  obtain ⟨buf, isBuf⟩ := (roomy.fits i vector alive).stored inside
  have first : vector.itemAt (vector.setSlots state.storage
      (Function.update (vector.slots state.storage) 0 (some item))) 0 = some item := by
    rw [itemAt_shared isBuf isBuf, Function.update_self]
  have later : ∀ k, k ≠ 0 → vector.itemAt (vector.setSlots state.storage
      (Function.update (vector.slots state.storage) 0 (some item))) k =
        vector.itemAt state.storage k := by
    intro k isLater
    rw [itemAt_shared isBuf isBuf, Function.update_of_ne isLater]
    rfl
  have here : (state.put i (vector.setSlots state.storage
      (Function.update (vector.slots state.storage) 0 (some item)), vector)).vectors i =
        some vector := Function.update_self ..
  have there : ∀ j, j ≠ i → (state.put i (vector.setSlots state.storage
      (Function.update (vector.slots state.storage) 0 (some item)), vector)).vectors j =
        state.vectors j := fun j isOther => Function.update_of_ne isOther ..
  constructor
  · intro edits
    have same : index ≠ 0 → state.EditsFirst i vector index item := by
      intro isLater
      have unread := (edits.edited vector alive).2
      have kept := edits.elements vector alive 0 (Nat.zero_lt_of_lt inside) (Ne.symm isLater)
      exact .inr ⟨kept.symm.trans first, (later index isLater).symm.trans unread⟩
    by_cases isFirst : index = 0
    · by_cases alone : ∀ j other, j ≠ i → state.vectors j = some other →
          other.mStorage = vector.mStorage → other.mCount = 0
      · exact .inl ⟨isFirst, alone⟩
      · -- another Vector finds the element that was stored
        push Not at alone
        obtain ⟨j, other, isOther, isVector, isShared, some'⟩ := alone
        have kept := (edits.others j other isOther isVector).2 0 (Nat.pos_of_ne_zero some')
        change other.itemAt (vector.setSlots _ _) 0 = _ at kept
        rw [itemAt_shared isBuf (isShared.trans isBuf), Function.update_self] at kept
        have mine : other.itemAt state.storage 0 = vector.itemAt state.storage 0 := by
          rw [VectorObject.itemAt, VectorObject.slots, isShared]
          rfl
        have unchanged : vector.itemAt state.storage 0 = some item := mine.symm.trans kept.symm
        exact .inr ⟨unchanged, isFirst ▸ unchanged⟩
    · exact same isFirst
  · rintro (⟨rfl, alone⟩ | ⟨isFirst, isItem⟩)
    · exact {
        edited := by
          intro vector' isVector
          cases alive.symm.trans isVector
          exact ⟨here, first⟩
        elements := by
          intro vector' isVector k _ isLater
          cases alive.symm.trans isVector
          exact later k isLater
        others := by
          intro j other isOther isVector
          refine ⟨(there j isOther).trans isVector, fun k isElement => ?_⟩
          by_cases isShared : other.mStorage = vector.mStorage
          · rw [alone j other isOther isVector isShared] at isElement
            exact absurd isElement (Nat.not_lt_zero k)
          · exact itemAt_other isShared _ k }
    · exact {
        edited := by
          intro vector' isVector
          cases alive.symm.trans isVector
          exact ⟨here, (itemAt_same isFirst index).trans isItem⟩
        elements := by
          intro vector' isVector k _ _
          cases alive.symm.trans isVector
          exact itemAt_same isFirst k
        others := by
          intro j other isOther isVector
          exact ⟨(there j isOther).trans isVector, fun k _ => itemAt_same isFirst k⟩ }

/-- While every call meets the condition: a store through the reference of `editItemAt`
changes that element, and nothing else, exactly where it is the first and no other Vector has
it, or nothing is changed at all. -/
theorem edit_touches_element_iff {events : List (Allocator (Option T) × VectorCall ι T)}
    (reached : Run (RepresentableStep traits) .init events state)
    (alive : state.vectors i = some vector) (inside : index < vector.mCount)
    (a : Allocator (Option T)) (item : T) :
    ∃ next, VectorStep traits state (a, .editItemAt i index item) next ∧
      (state.EditsOnly i index item next ↔ state.EditsFirst i vector index item) := by
  have roomy : state.Roomy traits :=
    reached.invariant (VectorState.Roomy traits) .init fun roomy step => roomy.step step
  exact ⟨_, edit_eq roomy alive inside, edits_only_iff roomy alive inside⟩

end Edits

/-- The first of two elements is edited. -/
theorem edit_touches_first :
    ∃ state next : VectorState Nat Nat,
      VectorStep intTraits state (ampleMemory, .editItemAt 0 0 8) next ∧
        state.EditsOnly 0 0 8 next := by
  obtain ⟨state, vector, reached, alive, _, two, _, _, nobody⟩ := two_elements
  have inside : 0 < vector.mCount := by
    rw [two]
    decide
  obtain ⟨next, taken, iff⟩ := edit_touches_element_iff reached alive inside ampleMemory 8
  refine ⟨state, next, taken, iff.mpr (.inl ⟨rfl, fun j other isOther isVector _ => ?_⟩)⟩
  cases (nobody j isOther).symm.trans isVector

/-- Editing the second element overwrites the first. -/
theorem second_element_not_edited :
    ¬ ∀ events (state : VectorState Nat Nat) vector next,
      Run (VectorStep intTraits) .init events state → state.vectors 0 = some vector →
      ∀ a index item, index < vector.mCount →
        VectorStep intTraits state (a, .editItemAt 0 index item) next →
          state.EditsOnly 0 index item next := by
  intro every
  obtain ⟨state, vector, reached, alive, isBuf, two, _, isFirst, _⟩ := two_elements
  have inside : 1 < vector.mCount := by
    rw [two]
    decide
  have roomy : state.Roomy intTraits :=
    reached.invariant (VectorState.Roomy intTraits) .init fun roomy step => roomy.step step
  have edits := every _ state vector _ (reached.mono fun step => step.1) alive ampleMemory 1 8
    inside (edit_eq roomy alive inside)
  rcases (edits_only_iff roomy alive inside).mp edits with ⟨none, _⟩ | ⟨isItem, _⟩
  · cases none
  · cases isFirst.symm.trans isItem

end DroidKernal.Utils
