import DroidKernal.Binder.Resizing
import DroidKernal.Binder.Uapi

/-!
# The objects of a Parcel that shrinks

`setDataSize` keeps the objects that start below the new size, also one that ends behind
it.  All others are released, either by `continueWrite` or by the owner of the buffer,
which releases every object that it gave out.
-/

namespace DroidKernal.Binder

/-- How often the object at an address is acquired. -/
def acquired (addr : Nat) (effects : List Effect) : Nat := effects.count (.acquire addr)

/-- How often it is released, where the owner releases everything in its buffer. -/
def released (addr : Nat) (effects : List Effect) : Nat :=
  effects.count (.release addr) + effects.count .owner

namespace Parcel

/-- The offset of an object, as a number. -/
def offset (parcel : Parcel) (i : Nat) : Nat :=
  ((parcel.objectOffset i).map UInt64.toNat).getD 0

/-- The offsets of all objects. -/
def offsets (parcel : Parcel) : List Nat := (List.range parcel.mObjectsSize).map parcel.offset

/-- The flat object at an address in the buffer. -/
def flatAt (uapi : ObjectUapi) (parcel : Parcel) (addr : Nat) : FlatObject :=
  uapi.flatBinderObject.decode ((List.range uapi.sizeofFlat).map fun k =>
    (parcel.byteAt (addr - parcel.ipcData + k)).getD 0)

/-- The objects are sorted and apart, and each is complete. -/
structure Listed (uapi : ObjectUapi) (parcel : Parcel) : Prop where
  apart : ∀ i, i + 1 < parcel.mObjectsSize →
    parcel.offset i + uapi.sizeofFlat ≤ parcel.offset (i + 1)
  inside : ∀ i < parcel.mObjectsSize,
    parcel.offset i + uapi.sizeofFlat ≤ parcel.mDataSize

/-- The objects that end below `size` are kept, and all others are released once. -/
structure KeepsWhole (uapi : ObjectUapi) (parcel : Parcel) (size : Nat) (outcome : Outcome Int) :
    Prop where
  listed : outcome.parcel.offsets = parcel.offsets.filter (· + uapi.sizeofFlat ≤ size)
  inside : ∀ offset ∈ outcome.parcel.offsets, offset + uapi.sizeofFlat ≤ size
  kept : ∀ i < parcel.mObjectsSize, parcel.offset i + uapi.sizeofFlat ≤ size →
    released (parcel.objectAddr i) outcome.effects = acquired (parcel.objectAddr i) outcome.effects
  dropped : ∀ i < parcel.mObjectsSize, size < parcel.offset i + uapi.sizeofFlat →
    released (parcel.objectAddr i) outcome.effects = 1 ∧
      acquired (parcel.objectAddr i) outcome.effects = 0

/-- `setDataSize` ends, and where it succeeds it keeps whole objects. -/
def ShrinksWhole (uapi : ObjectUapi) (heap : Heap) (parcel : Parcel) (size : Nat) : Prop :=
  ∃ outcome, parcel.setDataSize heap size = some outcome ∧
    (outcome.value = noError → parcel.KeepsWhole uapi size outcome)

/-- No object starts below `size` and ends behind it. -/
def CutsNone (uapi : ObjectUapi) (parcel : Parcel) (size : Nat) : Prop :=
  ∀ i < parcel.mObjectsSize, parcel.offset i < size →
    parcel.offset i + uapi.sizeofFlat ≤ size

section Listed

variable {uapi : ObjectUapi} {parcel : Parcel} {size : Nat}

theorem Backed.flatObjects_eq (backed : parcel.Backed) :
    parcel.flatObjects (List.range parcel.mObjectsSize).reverse =
      some ((List.range parcel.mObjectsSize).reverse.map parcel.objectAddr) := by
  by_cases empty : parcel.mObjectsSize = 0
  · rw [empty]
    rfl
  · obtain ⟨isData, isObjects⟩ := backed.objects empty
    exact Parcel.flatObjects_eq isData isObjects _

theorem objectAddr_eq (parcel : Parcel) (i : Nat) :
    parcel.objectAddr i = parcel.ipcData + parcel.offset i :=
  rfl

theorem count_other {indices : List Nat} {effect : Nat → Effect} {other : Effect}
    (apart : ∀ i, effect i ≠ other) : (indices.map effect).count other = 0 := by
  apply List.count_eq_zero.mpr
  intro member
  obtain ⟨i, _, same⟩ := List.mem_map.mp member
  exact apart i same

namespace Listed

variable (listed : parcel.Listed uapi)

include listed

theorem apart_of_lt {i j : Nat} (before : i < j) (within : j < parcel.mObjectsSize) :
    parcel.offset i + uapi.sizeofFlat ≤ parcel.offset j := by
  induction before with
  | refl => exact listed.apart i within
  | @step j _ ih =>
      have nearer := ih (Nat.lt_of_succ_lt within)
      exact nearer.trans ((Nat.le_add_right _ _).trans (listed.apart j within))

theorem offset_injective {i j : Nat} (isObject : i < parcel.mObjectsSize)
    (isOther : j < parcel.mObjectsSize) (same : parcel.offset i = parcel.offset j) : i = j := by
  rcases Nat.lt_trichotomy i j with before | equal | after
  · have apart := listed.apart_of_lt before isOther
    rw [same] at apart
    exact absurd apart (Nat.not_le.mpr (Nat.lt_add_of_pos_right uapi.sizeofFlat_pos))
  · exact equal
  · have apart := listed.apart_of_lt after isObject
    rw [same] at apart
    exact absurd apart (Nat.not_le.mpr (Nat.lt_add_of_pos_right uapi.sizeofFlat_pos))

/-- The objects that `continueWrite` keeps are those that start below the size. -/
theorem lt_keptCount_iff (backed : parcel.Backed) (shrinks : size < parcel.mDataSize) {i : Nat}
    (isObject : i < parcel.mObjectsSize) : i < parcel.keptCount size ↔ parcel.offset i < size := by
  rw [keptCount, objectsKept, if_pos shrinks]
  split
  next isZero => simp [isZero]
  next =>
    obtain ⟨objects, isObjects⟩ :=
      Option.ne_none_iff_exists'.mp (backed.objects (Nat.ne_zero_of_lt isObject)).2
    obtain ⟨kept, within, found, last, dropped⟩ :=
      objectsBelow_cases isObjects size parcel.mObjectsSize
    have place : ∀ j, parcel.offset j = (objects.cells j).toNat := fun j => by
      simp [offset, objectOffset, isObjects]
    rw [found, Option.getD_some]
    constructor
    · intro below
      have lastBelow := last (Nat.ne_zero_of_lt below)
      rw [← place] at lastBelow
      rcases Nat.lt_or_ge i (kept - 1) with earlier | isLast
      · have apart := listed.apart_of_lt earlier (by omega)
        omega
      · rwa [Nat.le_antisymm (by omega) isLast]
    · intro below
      by_contra beyond
      have cut := dropped i (Nat.le_of_not_lt beyond) isObject
      rw [← place] at cut
      exact absurd below (Nat.not_lt.mpr cut)

/-- The effect on an object occurs once among those on distinct objects. -/
theorem count_effects {indices : List Nat} (distinct : indices.Nodup)
    (objects : ∀ j ∈ indices, j < parcel.mObjectsSize) (effect : Nat → Effect)
    (injective : ∀ addr addr', effect addr = effect addr' → addr = addr') {i : Nat}
    (isObject : i < parcel.mObjectsSize) :
    (indices.map fun j => effect (parcel.objectAddr j)).count (effect (parcel.objectAddr i)) =
      if i ∈ indices then 1 else 0 := by
  have same : ∀ j ∈ indices,
      effect (parcel.objectAddr j) = effect (parcel.objectAddr i) → j = i := by
    intro j member equal
    have addrs := injective _ _ equal
    rw [objectAddr_eq, objectAddr_eq] at addrs
    exact listed.offset_injective (objects j member) isObject (Nat.add_left_cancel addrs)
  induction indices with
  | nil => rfl
  | cons j indices ih =>
      obtain ⟨fresh, distinct⟩ := List.nodup_cons.mp distinct
      have rest := ih distinct (fun k member => objects k (List.mem_cons_of_mem _ member))
        fun k member => same k (List.mem_cons_of_mem _ member)
      rw [List.map_cons, List.count_cons, rest]
      by_cases isHead : j = i
      · subst isHead
        simp [fresh]
      · have apart : effect (parcel.objectAddr j) ≠ effect (parcel.objectAddr i) :=
          fun equal => isHead (same j List.mem_cons_self equal)
        simp [apart, Ne.symm isHead]

/-- Either way, what is kept stays as it was and what is dropped is released once. -/
theorem resizeEffects_counts {kept i : Nat} (within : kept ≤ parcel.mObjectsSize)
    (isObject : i < parcel.mObjectsSize) :
    (i < kept → released (parcel.objectAddr i) (parcel.resizeEffects kept) =
        acquired (parcel.objectAddr i) (parcel.resizeEffects kept)) ∧
      (kept ≤ i → released (parcel.objectAddr i) (parcel.resizeEffects kept) = 1 ∧
        acquired (parcel.objectAddr i) (parcel.resizeEffects kept) = 0) := by
  rw [resizeEffects, released, acquired]
  split
  next owned =>
    have inList : ∀ j ∈ List.range kept, j < parcel.mObjectsSize := fun j member =>
      Nat.lt_of_lt_of_le (List.mem_range.mp member) within
    have acquires := listed.count_effects List.nodup_range inList Effect.acquire
      (fun _ _ => Effect.acquire.inj) isObject
    simp only [List.map_reverse, List.count_append, List.count_reverse, acquires, List.mem_range]
    rw [count_other fun _ => Effect.noConfusion, count_other fun _ => Effect.noConfusion]
    refine ⟨fun below => ?_, fun beyond => ?_⟩
    · simp [below]
    · simp [Nat.not_lt.mpr beyond]
  next own =>
    have inList : ∀ j ∈ List.range' kept (parcel.mObjectsSize - kept), j < parcel.mObjectsSize :=
      fun j member => by
        have bounds := List.mem_range'_1.mp member
        omega
    have releases := listed.count_effects List.nodup_range' inList Effect.release
      (fun _ _ => Effect.release.inj) isObject
    rw [releases, count_other fun _ => Effect.noConfusion, count_other fun _ => Effect.noConfusion]
    refine ⟨fun below => ?_, fun beyond => ?_⟩
    · simp [Nat.not_le.mpr below]
    · simp [beyond, Nat.add_sub_cancel' within, isObject]

end Listed

/-- The objects that start below the size are a first part of the list. -/
theorem Listed.kept_offsets (listed : parcel.Listed uapi) (backed : parcel.Backed)
    (shrinks : size < parcel.mDataSize) :
    (List.range (parcel.keptCount size)).map parcel.offset =
      parcel.offsets.filter (· < size) := by
  have within := (backed.objectsKept_eq size).2
  have split : List.range parcel.mObjectsSize = List.range (parcel.keptCount size) ++
      List.range' (parcel.keptCount size) (parcel.mObjectsSize - parcel.keptCount size) := by
    have halves := List.range'_append_1 (s := 0) (m := parcel.keptCount size)
      (n := parcel.mObjectsSize - parcel.keptCount size)
    rwa [Nat.zero_add, Nat.add_sub_cancel' within, ← List.range_eq_range',
      ← List.range_eq_range', eq_comm] at halves
  have first : (List.range (parcel.keptCount size)).filter (parcel.offset · < size) =
      List.range (parcel.keptCount size) := by
    refine List.filter_eq_self.mpr fun i member => ?_
    have below := List.mem_range.mp member
    have isObject := Nat.lt_of_lt_of_le below within
    exact decide_eq_true ((listed.lt_keptCount_iff backed shrinks isObject).mp below)
  have last : (List.range' (parcel.keptCount size)
      (parcel.mObjectsSize - parcel.keptCount size)).filter (parcel.offset · < size) = [] := by
    refine List.filter_eq_nil_iff.mpr fun i member below => ?_
    obtain ⟨beyond, bound⟩ := List.mem_range'_1.mp member
    rw [Nat.add_sub_cancel' within] at bound
    exact absurd ((listed.lt_keptCount_iff backed shrinks bound).mpr (of_decide_eq_true below))
      (Nat.not_lt.mpr beyond)
  rw [offsets, List.filter_map, split, List.filter_append]
  simp only [Function.comp_def]
  rw [first, last, List.append_nil]

/-- Cutting no object, the objects below the size are the whole ones. -/
theorem filter_eq_of_cutsNone (whole : parcel.CutsNone uapi size) :
    parcel.offsets.filter (· < size) =
      parcel.offsets.filter (· + uapi.sizeofFlat ≤ size) := by
  refine List.filter_congr fun place member => ?_
  obtain ⟨i, inList, rfl⟩ := List.mem_map.mp member
  rw [decide_eq_decide]
  constructor
  · exact whole i (List.mem_range.mp inList)
  · exact Nat.lt_of_lt_of_le (Nat.lt_add_of_pos_right uapi.sizeofFlat_pos)

/-- What `continueWrite` leaves of the list. -/
theorem Resized.offsets_eq {after : Parcel} (resized : parcel.Resized size after) :
    after.offsets = (List.range (parcel.keptCount size)).map parcel.offset := by
  rw [offsets, resized.objectsSize]
  refine List.map_congr_left fun i member => ?_
  rw [offset, offset, resized.objects i (List.mem_range.mp member)]

/-- A Parcel that cuts no object keeps whole objects. -/
theorem Resized.keepsWhole {after : Parcel} (resized : parcel.Resized size after)
    (backed : parcel.Backed) (listed : parcel.Listed uapi) (shrinks : size < parcel.mDataSize)
    (whole : parcel.CutsNone uapi size) :
    parcel.KeepsWhole uapi size
      { value := noError, parcel := { after with mDataSize := size }
        effects := parcel.resizeEffects (parcel.keptCount size) } where
  listed := by
    rw [← filter_eq_of_cutsNone whole, ← listed.kept_offsets backed shrinks]
    exact resized.offsets_eq
  inside := by
    have offsets := resized.offsets_eq
    rw [listed.kept_offsets backed shrinks, filter_eq_of_cutsNone whole] at offsets
    intro place member
    have found : place ∈ after.offsets := member
    rw [offsets] at found
    exact of_decide_eq_true (List.mem_filter.mp found).2
  kept := by
    intro i isObject complete
    have below := (listed.lt_keptCount_iff backed shrinks isObject).mpr
      (Nat.lt_of_lt_of_le (Nat.lt_add_of_pos_right uapi.sizeofFlat_pos) complete)
    exact (listed.resizeEffects_counts (backed.objectsKept_eq size).2 isObject).1 below
  dropped := by
    intro i isObject cut
    have beyond : parcel.keptCount size ≤ i := by
      by_contra below
      have starts := (listed.lt_keptCount_iff backed shrinks isObject).mp (Nat.not_le.mp below)
      exact absurd (whole i isObject starts) (Nat.not_le.mpr cut)
    exact (listed.resizeEffects_counts (backed.objectsKept_eq size).2 isObject).2 beyond

/-- What is kept without the size cutting it is whole. -/
theorem ShrinksWhole.cutsNone {heap : Heap} (shrinksWhole : parcel.ShrinksWhole uapi heap size)
    (backed : parcel.Backed) (listed : parcel.Listed uapi) (shrinks : size < parcel.mDataSize)
    (small : size ≤ int32Max) (allocates : parcel.Allocates heap size) :
    parcel.CutsNone uapi size := by
  intro i isObject starts
  obtain ⟨outcome, ends, keeps⟩ := shrinksWhole
  obtain ⟨_, continues, continued⟩ := backed.continueWrite_continued heap size
  rw [setDataSize, if_neg (Nat.not_lt.mpr small), continues, Option.bind_eq_bind,
    Option.bind_some] at ends
  cases continued with
  | tooBig large => exact absurd small (Nat.not_le.mpr large)
  | outOfMemory _ fails => exact absurd allocates fails
  | cleared _ isZero => exact absurd starts (isZero ▸ Nat.not_lt_zero _)
  | @resized after _ _ _ resized =>
      cases ends
      have below := (listed.lt_keptCount_iff backed shrinks isObject).mpr starts
      have member : parcel.offset i ∈ after.offsets := by
        rw [resized.offsets_eq]
        exact List.mem_map_of_mem (List.mem_range.mpr below)
      exact (keeps rfl).inside _ member

/-- Clearing a buffer keeps no object, and its owner releases all of them. -/
theorem keepsWhole_cleared (uapi : ObjectUapi) (parcel : Parcel) :
    parcel.KeepsWhole uapi 0
      { value := noError, parcel := { initState with mDataSize := 0 }, effects := [.owner] } where
  listed := by
    have none : parcel.offsets.filter (· + uapi.sizeofFlat ≤ 0) = [] :=
      List.filter_eq_nil_iff.mpr fun place _ isOk => absurd (of_decide_eq_true isOk) (by
        have positive := uapi.sizeofFlat_pos
        omega)
    rw [none]
    rfl
  inside := fun _ member => nomatch member
  kept := fun i _ complete => by
    have positive := uapi.sizeofFlat_pos
    omega
  dropped := fun _ _ _ => ⟨rfl, rfl⟩

/-- A Parcel that shrinks keeps whole objects exactly if the size is refused, memory is
lacking, or the size cuts no object. -/
theorem shrinks_whole_iff (uapi : ObjectUapi) (heap : Heap) (parcel : Parcel) (size : Nat)
    (backed : parcel.Backed) (listed : parcel.Listed uapi) (shrinks : size < parcel.mDataSize) :
    parcel.ShrinksWhole uapi heap size ↔
      (size ≤ int32Max → parcel.Allocates heap size → parcel.CutsNone uapi size) := by
  constructor
  · exact fun shrinksWhole => shrinksWhole.cutsNone backed listed shrinks
  · intro whole
    have refused : badValue ≠ noError := by decide
    have exhausted : noMemory ≠ noError := by decide
    rw [ShrinksWhole, setDataSize]
    split
    next => exact ⟨_, rfl, fun isOk => absurd isOk refused⟩
    next =>
      obtain ⟨outcome, continues, continued⟩ := backed.continueWrite_continued heap size
      rw [continues, Option.bind_eq_bind, Option.bind_some]
      cases continued with
      | tooBig => exact ⟨_, rfl, fun isOk => absurd isOk refused⟩
      | outOfMemory => exact ⟨_, rfl, fun isOk => absurd isOk exhausted⟩
      | cleared _ isZero =>
          subst isZero
          exact ⟨_, rfl, fun _ => keepsWhole_cleared uapi parcel⟩
      | resized small allocates _ resized =>
          exact ⟨_, rfl, fun _ =>
            resized.keepsWhole backed listed shrinks (whole small allocates)⟩

end Listed

/-- A Parcel with two objects. -/
def twoObjects : Parcel where
  mError := noError
  mData := some { addr := 4096, cells := fun _ => 0 }
  mDataSize := 48
  mDataCapacity := 48
  mDataPos := 48
  mObjects := some { addr := 8192, cells := fun i => 24 * i.toUInt64 }
  mObjectsSize := 2
  mObjectsCapacity := 2
  mOwner := false

theorem twoObjects_backed : twoObjects.Backed where
  size := Nat.le_refl 48
  null := fun isNull => nomatch isNull
  block := by
    rintro data ⟨⟩
    decide
  objects := fun _ => ⟨Option.some_ne_none _, Option.some_ne_none _⟩

theorem twoObjects_listed : twoObjects.Listed linuxObjects where
  apart := by
    intro i before
    have first : i = 0 := by
      have bound : i + 1 < 2 := before
      omega
    subst first
    decide
  inside := by decide

/-- Without its second object, the first is kept. -/
theorem shrinks_whole_second : twoObjects.ShrinksWhole linuxObjects .exhausted 24 := by
  have cutsNone : ∀ i < twoObjects.mObjectsSize, twoObjects.offset i < 24 →
      twoObjects.offset i + linuxObjects.sizeofFlat ≤ 24 := by decide
  exact (shrinks_whole_iff linuxObjects .exhausted twoObjects 24 twoObjects_backed
    twoObjects_listed (by decide)).mpr fun _ _ => cutsNone

/-- A size inside an object keeps a part of it. -/
theorem shrinks_into_object :
    ¬ ∀ (uapi : ObjectUapi) (heap : Heap) (parcel : Parcel) (size : Nat), parcel.Backed →
      parcel.Listed uapi → size < parcel.mDataSize → parcel.ShrinksWhole uapi heap size := by
  intro claim
  have allocates : twoObjects.Allocates .exhausted 30 :=
    .inl ⟨Option.some_ne_none _, by decide⟩
  have shrinksWhole := claim linuxObjects .exhausted twoObjects 30 twoObjects_backed
    twoObjects_listed (by decide)
  have whole := shrinksWhole.cutsNone twoObjects_backed twoObjects_listed (by decide) (by decide)
    allocates
  exact absurd (whole 1 (by decide) (by decide)) (by decide)

end Parcel

end DroidKernal.Binder
