import DroidKernal.Utils.VectorSizes

/-!
# Value semantics of Vectors

Copying and the end of a scope do not count, so while no size wraps the counts are right
just as long as neither happens to a Vector with storage.
-/

namespace DroidKernal.Utils

open Lib

variable {T : Type}

section Programs

variable {ι : Type} {state next : VectorState ι T} {traits : Traits}

/-- The count of every buffer in use is the number of live Vectors that point to it, and
no buffer was freed under a Vector, or twice. -/
structure VectorState.Counted (state : VectorState ι T) : Prop where
  refs : ∀ buf, state.storage.Live buf →
    (state.storage.block buf).mRefs = ({i | state.Points i buf}.ncard : Int)
  live : ∀ i buf, state.Points i buf → state.storage.Live buf
  once : state.storage.freed.Nodup

/-- What is copied or destroyed has no storage. -/
def VectorCall.SharesNothing (state : VectorState ι T) : VectorCall ι T → Prop
  | .copy source _ => ∀ vector, state.vectors source = some vector → vector.mStorage = none
  | .destroy i => ∀ vector, state.vectors i = some vector → vector.mStorage = none
  | _ => True

/-- The condition on a call. -/
def VectorCall.Meets (traits : Traits) (a : Allocator (Option T)) (state : VectorState ι T)
    (call : VectorCall ι T) : Prop :=
  call.Sized traits a state ∧ call.SharesNothing state

/-- Every buffer has a single Vector, with room for its elements. -/
structure VectorState.Valued (traits : Traits) (state : VectorState ι T) : Prop where
  owned : state.Owned
  fits : ∀ i vector, state.vectors i = some vector → vector.Fits traits state.storage

theorem VectorState.Valued.init : (VectorState.init : VectorState ι T).Valued traits where
  owned := .init
  fits := fun _ _ none => nomatch none

/-- No Vector of such a state shares its storage. -/
theorem VectorState.Owned.alone (owned : state.Owned) (i : ι) : state.Alone i := by
  intro j buf mine other
  obtain ⟨owner, single⟩ := owned.owner buf (owned.live i buf mine)
  exact ((single j).mp other).trans ((single i).mp mine).symm

theorem VectorState.Owned.unshared (owned : state.Owned) (call : VectorCall ι T) :
    call.Unshared state := by
  cases call with
  | construct i => trivial
  | copy source target => trivial
  | insertAt i item index numItems => exact owned.alone i
  | push i item => exact owned.alone i
  | removeItemsAt i index count => exact owned.alone i
  | clear i => exact owned.alone i
  | setCapacity i newCapacity => exact owned.alone i
  | editItemAt i index item => trivial
  | destroy i => trivial

theorem VectorState.Owned.counted (owned : state.Owned) : state.Counted where
  refs := by
    intro buf live
    obtain ⟨i, owner⟩ := owned.owner buf live
    have single : {j | state.Points j buf} = {i} := Set.ext owner
    rw [single, Set.ncard_singleton, owned.exclusive.refs buf live]
    rfl
  live := owned.live
  once := owned.exclusive.sane.once

variable [DecidableEq ι]
/-- A copy of a Vector with storage is not counted. -/
theorem VectorState.Owned.not_counted_copy (owned : state.Owned) {source target : ι}
    {vector : VectorObject} {buf : Nat} (alive : state.vectors source = some vector)
    (unused : state.vectors target = none) (isBuf : vector.mStorage = some buf) :
    ¬ (state.put target (state.storage, vector)).Counted := by
  intro counted
  have points := (VectorState.points_iff alive buf).mpr isBuf
  have live := owned.live source buf points
  obtain ⟨owner, single⟩ := owned.owner buf live
  cases (single source).mp points
  have differ : source ≠ target := by
    rintro rfl
    cases alive.symm.trans unused
  have two : {i | (state.put target (state.storage, vector)).Points i buf} = {source, target} := by
    ext i
    rw [Set.mem_ofPred_eq, VectorState.points_put, Set.mem_insert_iff, Set.mem_singleton_iff]
    constructor
    · rintro (⟨same, _⟩ | ⟨_, before⟩)
      · exact .inr same
      · exact .inl ((single i).mp before)
    · rintro (rfl | rfl)
      · exact .inr ⟨differ, points⟩
      · exact .inl ⟨rfl, isBuf⟩
  have refs := counted.refs buf live
  rw [two, Set.ncard_pair differ] at refs
  have one : (state.storage.block buf).mRefs = 1 := owned.exclusive.refs buf live
  rw [VectorState.put, one] at refs
  exact absurd refs (by decide)

/-- The storage of a Vector whose scope ends is still counted. -/
theorem VectorState.Owned.not_counted_destroy (owned : state.Owned) {i : ι}
    {vector : VectorObject} {buf : Nat} (alive : state.vectors i = some vector)
    (isBuf : vector.mStorage = some buf) :
    ¬ ({ state with vectors := Function.update state.vectors i none } : VectorState ι T).Counted := by
  intro counted
  have points := (VectorState.points_iff alive buf).mpr isBuf
  have live := owned.live i buf points
  obtain ⟨owner, single⟩ := owned.owner buf live
  cases (single i).mp points
  have nobody : {j | ({ state with vectors := Function.update state.vectors i none } :
      VectorState ι T).Points j buf} = ∅ := by
    apply Set.eq_empty_of_forall_notMem
    rintro j ⟨other, isOther, otherBuf⟩
    by_cases same : j = i
    · subst same
      cases (Function.update_self ..).symm.trans isOther
    · have before := (Function.update_of_ne same ..).symm.trans isOther
      exact same ((single j).mp ⟨other, before, otherBuf⟩)
  have refs := counted.refs buf live
  rw [nobody, Set.ncard_empty, owned.exclusive.refs buf live] at refs
  exact absurd refs (by decide)

/-- Every call whose sizes do not wrap. -/
theorem VectorState.Valued.step (valued : state.Valued traits)
    {event : Allocator (Option T) × VectorCall ι T} (taken : VectorStep traits state event next)
    (sized : event.2.Sized traits event.1 state) :
    (event.2.SharesNothing state → next.Owned ∧ state.Untouched event.2.target next) ∧
      (next.Counted → event.2.SharesNothing state) := by
  have owned := valued.owned
  cases taken with
  | construct unused => exact ⟨fun _ => owned.putEmpty unused rfl, fun _ => trivial⟩
  | copy alive unused =>
      constructor
      · intro shares
        exact owned.putEmpty unused (shares _ alive)
      · intro counted vector isVector
        cases alive.symm.trans isVector
        by_contra someStorage
        obtain ⟨buf, isBuf⟩ := Option.ne_none_iff_exists'.mp someStorage
        exact owned.not_counted_copy alive unused isBuf counted
  | @change a call vector result alive changed =>
      have fits := valued.fits _ vector alive
      have done := owned.put (VectorState.points_iff alive)
        (Swaps.change owned.exclusive fits.owns (sized.keeps alive fits) changed)
      refine ⟨fun _ => done, fun _ => ?_⟩
      cases call with
      | copy source target => cases changed
      | destroy i => cases changed
      | _ => trivial
  | destroy alive =>
      constructor
      · intro shares
        exact owned.destroy alive (shares _ alive)
      · intro counted vector isVector
        cases alive.symm.trans isVector
        by_contra someStorage
        obtain ⟨buf, isBuf⟩ := Option.ne_none_iff_exists'.mp someStorage
        exact owned.not_counted_destroy alive isBuf counted

/-- A call that meets the condition. -/
def MeetingVectorStep (traits : Traits) (state : VectorState ι T)
    (event : Allocator (Option T) × VectorCall ι T) (next : VectorState ι T) : Prop :=
  VectorStep traits state event next ∧ event.2.Meets traits event.1 state

theorem VectorState.Valued.meeting (valued : state.Valued traits)
    {event : Allocator (Option T) × VectorCall ι T}
    (taken : MeetingVectorStep traits state event next) : next.Valued traits where
  owned := ((valued.step taken.1 taken.2.1).1 taken.2.2).1
  fits := by
    have roomy : state.Roomy traits := ⟨valued.owned.exclusive, valued.fits⟩
    exact (roomy.step ⟨taken.1, valued.owned.unshared event.2, taken.2.1⟩).fits

/-- While no size wraps and no Vector with storage is copied or goes out of scope, the counts
are right and a call leaves the other Vectors alone; and the first such copy or end of a scope
makes a count wrong. -/
theorem vectors_counted_iff {events : List (Allocator (Option T) × VectorCall ι T)}
    {event : Allocator (Option T) × VectorCall ι T}
    (reached : Run (MeetingVectorStep traits) VectorState.init events state)
    (taken : VectorStep traits state event next) :
    (event.2.Meets traits event.1 state →
        next.Counted ∧ state.Untouched event.2.target next) ∧
      (event.2.Sized traits event.1 state → next.Counted → event.2.Meets traits event.1 state) := by
  have valued : state.Valued traits :=
    reached.invariant (VectorState.Valued traits) .init fun valued step => valued.meeting step
  constructor
  · rintro ⟨sized, shares⟩
    obtain ⟨owned, untouched⟩ := (valued.step taken sized).1 shares
    exact ⟨owned.counted, untouched⟩
  · intro sized counted
    exact ⟨sized, (valued.step taken sized).2 counted⟩

end Programs

/-- Each of two Vectors gets an element. -/
theorem vectors_counted_two :
    ∃ state next : VectorState Nat Nat,
      Run (MeetingVectorStep intTraits) VectorState.init
        [(ampleMemory, .construct 0), (ampleMemory, .construct 1),
          (ampleMemory, .insertAt 0 7 0 1)] state ∧
        VectorStep intTraits state (ampleMemory, .insertAt 1 8 0 1) next ∧
        next.storage.allocated = 2 ∧ next.Counted ∧ next.vectors 0 = state.vectors 0 := by
  let start : VectorState Nat Nat := .init
  let first := start.put 0 (start.storage, .empty)
  let both := first.put 1 (start.storage, .empty)
  let result := ((VectorCall.insertAt 0 7 0 1).change intTraits ampleMemory both.storage
    .empty).get (by decide)
  let third := both.put 0 result
  let result' := ((VectorCall.insertAt 1 8 0 1).change intTraits ampleMemory third.storage
    .empty).get (by decide)
  have inserted : VectorStep intTraits both (ampleMemory, .insertAt 0 7 0 1) third :=
    .change rfl (Option.some_get _).symm
  have inserted' : VectorStep intTraits third (ampleMemory, .insertAt 1 8 0 1)
      (third.put 1 result') := .change rfl (Option.some_get _).symm
  have small : ∀ storage : VectorStorage Nat,
      ¬ VectorObject.Overflows intTraits storage .empty 1 := by
    intro storage overflows
    revert overflows
    simp only [VectorObject.Overflows, VectorObject.capacity, VectorObject.empty]
    decide
  have sized : (VectorCall.insertAt 0 7 0 1).Sized intTraits ampleMemory both := by
    intro vector isVector overflows
    cases isVector
    exact absurd overflows (small _)
  have sized' : (VectorCall.insertAt 1 8 0 1).Sized intTraits ampleMemory third := by
    intro vector isVector overflows
    cases isVector
    exact absurd overflows (small _)
  have reached : Run (MeetingVectorStep intTraits) VectorState.init
      [(ampleMemory, .construct 0), (ampleMemory, .construct 1),
        (ampleMemory, .insertAt 0 7 0 1)] third :=
    .cons ⟨.construct rfl, trivial, trivial⟩ <| .cons ⟨.construct rfl, trivial, trivial⟩ <|
      .single ⟨inserted, sized, trivial⟩
  obtain ⟨counted, untouched⟩ :=
    (vectors_counted_iff reached inserted').1 ⟨sized', trivial⟩
  exact ⟨third, _, reached, inserted', by decide, counted,
    (untouched 0 result.2 (by decide) rfl).1⟩

/-- A Vector with one element is passed by value: its storage has two Vectors and a count
of one. -/
theorem copied_vector_not_counted :
    ¬ ∀ events (state : VectorState Nat Nat),
      Run (VectorStep intTraits) VectorState.init events state → state.Counted := by
  intro every
  let start : VectorState Nat Nat := .init
  let first := start.put 0 (start.storage, .empty)
  let result := ((VectorCall.insertAt 0 7 0 1).change intTraits ampleMemory first.storage
    .empty).get (by decide)
  let second := first.put 0 result
  have constructed : VectorStep intTraits start (ampleMemory, .construct 0) first :=
    .construct rfl
  have inserted : VectorStep intTraits first (ampleMemory, .insertAt 0 7 0 1) second :=
    .change rfl (Option.some_get _).symm
  have copied : VectorStep intTraits second (ampleMemory, .copy 0 1)
      (second.put 1 (second.storage, result.2)) := .copy rfl rfl
  have firstOwned : first.Owned := (VectorState.Owned.init.putEmpty rfl rfl).1
  have isBuf : result.2.mStorage = some 0 := by decide
  have keeps : (VectorCall.insertAt 0 7 0 1).Keeps (ι := Nat) intTraits ampleMemory first.storage
      .empty := fun _ resizable => absurd resizable.1 (by decide)
  have ownsNothing : VectorObject.empty.Owns first.storage :=
    (@VectorObject.Fits.empty _ _ intTraits).owns
  have secondOwned : second.Owned :=
    (firstOwned.put (VectorState.points_iff rfl)
      (Swaps.change firstOwned.exclusive ownsNothing keeps (Option.some_get _).symm)).1
  have alive : second.vectors 0 = some result.2 := rfl
  have fresh : second.vectors 1 = none := rfl
  exact secondOwned.not_counted_copy alive fresh isBuf
    (every _ _ (((Run.single constructed).snoc inserted).snoc copied))

end DroidKernal.Utils
