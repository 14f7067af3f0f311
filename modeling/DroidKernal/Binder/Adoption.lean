import DroidKernal.Binder.ObjectsKept

/-!
# Adopting a buffer

`ipcSetDataReference` drops what the Parcel holds and takes over a buffer that the driver
filled.  The object offsets come from another process, and are checked one after the
other; the cursor stays where it was.
-/

namespace DroidKernal.Binder

open Lib

/-- What `ipcSetDataReference` leaves behind: the Parcel, its effects, and the ranges of the
new buffer that it reads, by start and length. -/
structure Adoption where
  parcel : Parcel
  effects : List Effect
  examined : List (Nat × Nat)

/-- `hdr.type` is one that the Parcel supports. -/
def ObjectUapi.Supported (uapi : ObjectUapi) (type : UInt32) : Prop :=
  type = uapi.binderTypeBinder ∨ type = uapi.binderTypeHandle ∨ type = uapi.binderTypeFd

instance (uapi : ObjectUapi) (type : UInt32) : Decidable (uapi.Supported type) :=
  inferInstanceAs (Decidable (_ ∨ _ ∨ _))

/-- `flat->hdr.type`, the first member of the object at an offset. -/
def typeAt (data : Block UInt8) (offset : UInt64) : UInt32 :=
  FlatRecord.uint32.decode
    ((List.range FlatRecord.uint32.size).map fun k => data.cells (offset.toNat + k))

/-- The range of `hdr.type`. -/
def typeRange (offset : UInt64) : Nat × Nat := (offset.toNat, FlatRecord.uint32.size)

/-- How far `release_object` reads into an object. -/
def ObjectUapi.releaseReach (uapi : ObjectUapi) (obj : FlatObject) : Nat :=
  if obj.type = uapi.binderTypeBinder then
    if obj.binder ≠ 0 then uapi.cookieEnd else uapi.binderEnd
  else if obj.type = uapi.binderTypeHandle then uapi.handleEnd
  else FlatRecord.uint32.size

/-- How the check of the objects ends. -/
inductive Verdict where
  | kept
  | badOffset
  | unsupported
  deriving DecidableEq, Repr

/-- The loop of `ipcSetDataReference` over the last objects, with the ranges it reads. -/
def checkObjects (uapi : ObjectUapi) (data : Block UInt8) (objects : Block UInt64) :
    Nat → Nat → UInt64 → Verdict × List (Nat × Nat)
  | 0, _, _ => (.kept, [])
  | rest + 1, i, minOffset =>
      let offset := objects.cells i
      if offset < minOffset then (.badOffset, [])
      else if ¬ uapi.Supported (typeAt data offset) then (.unsupported, [typeRange offset])
      else
        let (verdict, examined) :=
          checkObjects uapi data objects rest (i + 1) (offset + uapi.sizeofFlat.toUInt64)
        (verdict, typeRange offset :: examined)

/-- `scanForFds`, by the ranges it reads: it stops at the first file descriptor. -/
def scanForFds (uapi : ObjectUapi) (data : Block UInt8) (objects : Block UInt64) :
    Nat → Nat → List (Nat × Nat)
  | 0, _ => []
  | rest + 1, i =>
      let offset := objects.cells i
      if typeAt data offset = uapi.binderTypeFd then [typeRange offset]
      else typeRange offset :: scanForFds uapi data objects rest (i + 1)

namespace Parcel

/-- The fields that `ipcSetDataReference` sets before it checks the objects. -/
def adopting (parcel : Parcel) (data : Block UInt8) (dataSize : Nat) (objects : Block UInt64)
    (objectsCount : Nat) (releaseFunc : Bool) : Parcel :=
  { parcel with
    mError := noError
    mData := some data
    mDataSize := dataSize
    mDataCapacity := dataSize
    mObjects := some objects
    mObjectsSize := objectsCount
    mObjectsCapacity := objectsCount
    mOwner := releaseFunc }

/-- `ipcSetDataReference`. -/
def ipcSetDataReference (uapi : ObjectUapi) (parcel : Parcel) (data : Block UInt8)
    (dataSize : Nat) (objects : Block UInt64) (objectsCount : Nat) (releaseFunc : Bool) :
    Option Adoption := do
  let freed ← parcel.freeDataNoInit
  let parcel := parcel.adopting data dataSize objects objectsCount releaseFunc
  let (verdict, examined) := checkObjects uapi data objects objectsCount 0 0
  match verdict with
  | .kept =>
      return {
        parcel
        effects := freed
        examined := examined ++ scanForFds uapi data objects objectsCount 0 }
  | .badOffset =>
      return { parcel := { parcel with mObjectsSize := 0 }, effects := freed, examined }
  | .unsupported =>
      let released ← parcel.releaseObjects
      let reads := (List.range objectsCount).reverse.map fun i =>
        (parcel.offset i, uapi.releaseReach (parcel.flatAt uapi (parcel.objectAddr i)))
      return {
        parcel := { parcel with mObjectsSize := 0 }
        effects := freed ++ released
        examined := examined ++ reads }

end Parcel

/-! ## What is checked -/

section Check

variable (uapi : ObjectUapi) (data : Block UInt8) (objects : Block UInt64)

/-- An object starts behind the one before it. -/
def Ordered (i : Nat) : Prop :=
  i = 0 ∨ objects.cells (i - 1) + uapi.sizeofFlat.toUInt64 ≤ objects.cells i

/-- The first objects are in order and of supported types. -/
def Accepted (i : Nat) : Prop :=
  ∀ j < i, Ordered uapi objects j ∧ uapi.Supported (typeAt data (objects.cells j))

/-- The object at an offset. -/
def flatOf (offset : UInt64) : FlatObject :=
  uapi.flatBinderObject.decode
    ((List.range uapi.sizeofFlat).map fun k => data.cells (offset.toNat + k))

/-- The check stays inside the data: each object that it gets to has its type there; an
object of another type leads to all of them, as far as they are released; and if there is
none, all are complete. -/
structure StaysInside (dataSize objectsCount : Nat) : Prop where
  types : ∀ i < objectsCount, Accepted uapi data objects i → Ordered uapi objects i →
    (objects.cells i).toNat + FlatRecord.uint32.size ≤ dataSize
  releases : ∀ i < objectsCount, Accepted uapi data objects i → Ordered uapi objects i →
    ¬ uapi.Supported (typeAt data (objects.cells i)) → ∀ j < objectsCount,
      (objects.cells j).toNat + uapi.releaseReach (flatOf uapi data (objects.cells j)) ≤ dataSize
  complete : Accepted uapi data objects objectsCount → ∀ i < objectsCount,
    (objects.cells i).toNat + uapi.sizeofFlat ≤ dataSize

/-- How the check ends, and what it reads until then. -/
inductive Checked (objectsCount : Nat) : Verdict × List (Nat × Nat) → Prop where
  | kept (accepted : Accepted uapi data objects objectsCount) :
      Checked objectsCount
        (.kept, (List.range objectsCount).map fun i => typeRange (objects.cells i))
  | badOffset {k : Nat} (within : k < objectsCount) (accepted : Accepted uapi data objects k)
      (early : ¬ Ordered uapi objects k) :
      Checked objectsCount (.badOffset, (List.range k).map fun i => typeRange (objects.cells i))
  | unsupported {k : Nat} (within : k < objectsCount) (accepted : Accepted uapi data objects k)
      (ordered : Ordered uapi objects k)
      (other : ¬ uapi.Supported (typeAt data (objects.cells k))) :
      Checked objectsCount
        (.unsupported, (List.range (k + 1)).map fun i => typeRange (objects.cells i))

variable {uapi data objects} {objectsCount : Nat}

theorem Accepted.of_le {i k : Nat} (accepted : Accepted uapi data objects k) (before : i ≤ k) :
    Accepted uapi data objects i :=
  fun j earlier => accepted j (Nat.lt_of_lt_of_le earlier before)

/-- The accepted objects have their types in the data. -/
theorem StaysInside.types_of_accepted {dataSize i k : Nat}
    (staysInside : StaysInside uapi data objects dataSize objectsCount)
    (accepted : Accepted uapi data objects k) (within : k ≤ objectsCount) (before : i < k) :
    (objects.cells i).toNat + FlatRecord.uint32.size ≤ dataSize :=
  staysInside.types i (Nat.lt_of_lt_of_le before within)
    (accepted.of_le (Nat.le_of_lt before)) (accepted i before).1

/-- The loop goes on behind the accepted objects. -/
theorem checkObjects_checked (rest i : Nat) (accepted : Accepted uapi data objects i)
    (minOffset : UInt64)
    (isMin : ¬ objects.cells i < minOffset ↔ Ordered uapi objects i) :
    Checked uapi data objects (i + rest)
      ((checkObjects uapi data objects rest i minOffset).1,
        ((List.range i).map fun j => typeRange (objects.cells j)) ++
          (checkObjects uapi data objects rest i minOffset).2) := by
  induction rest generalizing i minOffset with
  | zero =>
      rw [checkObjects, List.append_nil]
      exact .kept accepted
  | succ rest ih =>
      rw [checkObjects]
      simp only
      split
      next early =>
        rw [List.append_nil]
        exact .badOffset (by omega) accepted fun ordered => isMin.mpr ordered early
      next notEarly =>
        have ordered := isMin.mp notEarly
        split
        next other =>
          have all : ((List.range i).map fun j => typeRange (objects.cells j)) ++
              [typeRange (objects.cells i)] =
              (List.range (i + 1)).map fun j => typeRange (objects.cells j) := by
            rw [List.range_succ, List.map_append]
            rfl
          rw [all]
          exact .unsupported (by omega) accepted ordered other
        next notOther =>
          have acceptedNext : Accepted uapi data objects (i + 1) := by
            intro j before
            rcases Nat.lt_or_eq_of_le (Nat.le_of_lt_succ before) with earlier | rfl
            · exact accepted j earlier
            · exact ⟨ordered, not_not.mp notOther⟩
          have isNext : ¬ objects.cells (i + 1) < objects.cells i + uapi.sizeofFlat.toUInt64 ↔
              Ordered uapi objects (i + 1) := by
            rw [UInt64.not_lt, Ordered, or_iff_right (Nat.succ_ne_zero i), Nat.add_sub_cancel]
          have goesOn := ih (i + 1) acceptedNext _ isNext
          rwa [List.range_succ, List.map_append, List.append_assoc, Nat.add_assoc,
            Nat.add_comm 1] at goesOn

/-- `scanForFds` reads what the check read before. -/
theorem mem_scanForFds {range : Nat × Nat} (rest i : Nat)
    (member : range ∈ scanForFds uapi data objects rest i) :
    ∃ j < i + rest, range = typeRange (objects.cells j) := by
  induction rest generalizing i with
  | zero => cases member
  | succ rest ih =>
      rw [scanForFds] at member
      split at member
      next => exact ⟨i, by omega, List.mem_singleton.mp member⟩
      next =>
        rcases List.mem_cons.mp member with first | later
        · exact ⟨i, by omega, first⟩
        · obtain ⟨j, bound, isRange⟩ := ih (i + 1) later
          exact ⟨j, by omega, isRange⟩

/-- `hdr.type` is the type of the object. -/
theorem typeAt_eq (offset : UInt64) : typeAt data offset = (flatOf uapi data offset).type := by
  have covers : min 4 uapi.sizeofFlat = 4 := Nat.min_eq_left uapi.covers
  rw [flatOf, uapi.typeFirst, ← List.map_take, List.take_range, covers]
  rfl

end Check

/-! ## What is adopted -/

namespace Parcel

/-- The cursor is at the start, the size is that of the data, the objects kept are sorted,
apart, of supported types and complete, and nothing behind the data is read. -/
structure Consistent (uapi : ObjectUapi) (dataSize : Nat) (adoption : Adoption) : Prop where
  position : adoption.parcel.mDataPos = 0
  size : adoption.parcel.dataSize = dataSize
  apart : ∀ i, i + 1 < adoption.parcel.mObjectsSize →
    adoption.parcel.offset i + uapi.sizeofFlat ≤ adoption.parcel.offset (i + 1)
  supported : ∀ i < adoption.parcel.mObjectsSize,
    uapi.Supported (adoption.parcel.flatAt uapi (adoption.parcel.objectAddr i)).type
  inside : ∀ i < adoption.parcel.mObjectsSize,
    adoption.parcel.offset i + uapi.sizeofFlat ≤ dataSize
  examined : ∀ range ∈ adoption.examined, range.1 + range.2 ≤ dataSize

/-- Without objects there is less to ask for. -/
theorem Consistent.of_none {uapi : ObjectUapi} {dataSize : Nat} {adoption : Adoption}
    (none : adoption.parcel.mObjectsSize = 0) (position : adoption.parcel.mDataPos = 0)
    (size : adoption.parcel.dataSize = dataSize)
    (examined : ∀ range ∈ adoption.examined, range.1 + range.2 ≤ dataSize) :
    Consistent uapi dataSize adoption where
  position := position
  size := size
  apart i within := absurd (none ▸ within) (Nat.not_lt_zero (i + 1))
  supported i within := absurd (none ▸ within) (Nat.not_lt_zero i)
  inside i within := absurd (none ▸ within) (Nat.not_lt_zero i)
  examined := examined

/-- `ipcSetDataReference` ends, and the Parcel is consistent. -/
def AdoptsConsistent (uapi : ObjectUapi) (parcel : Parcel) (data : Block UInt8) (dataSize : Nat)
    (objects : Block UInt64) (objectsCount : Nat) (releaseFunc : Bool) : Prop :=
  ∃ adoption, parcel.ipcSetDataReference uapi data dataSize objects objectsCount releaseFunc =
    some adoption ∧ Consistent uapi dataSize adoption

section Adopting

variable {uapi : ObjectUapi} {parcel : Parcel} {data : Block UInt8} {dataSize : Nat}
  {objects : Block UInt64} {objectsCount : Nat} {releaseFunc : Bool}

theorem flatAt_adopting (i : Nat) :
    (parcel.adopting data dataSize objects objectsCount releaseFunc).flatAt uapi
        ((parcel.adopting data dataSize objects objectsCount releaseFunc).objectAddr i) =
      flatOf uapi data (objects.cells i) := by
  simp [flatAt, flatOf, adopting, objectAddr, objectOffset, byteAt, ipcData]

/-- How the call ends. -/
inductive Adopted (uapi : ObjectUapi) (adopting : Parcel) (data : Block UInt8)
    (objects : Block UInt64) (objectsCount : Nat) : Adoption → Prop where
  | kept {effects : List Effect} (accepted : Accepted uapi data objects objectsCount) :
      Adopted uapi adopting data objects objectsCount
        { parcel := adopting
          effects
          examined := ((List.range objectsCount).map fun i => typeRange (objects.cells i)) ++
            scanForFds uapi data objects objectsCount 0 }
  | badOffset {effects : List Effect} {k : Nat} (within : k < objectsCount)
      (accepted : Accepted uapi data objects k) (early : ¬ Ordered uapi objects k) :
      Adopted uapi adopting data objects objectsCount
        { parcel := { adopting with mObjectsSize := 0 }
          effects
          examined := (List.range k).map fun i => typeRange (objects.cells i) }
  | unsupported {effects : List Effect} {k : Nat} (within : k < objectsCount)
      (accepted : Accepted uapi data objects k) (ordered : Ordered uapi objects k)
      (other : ¬ uapi.Supported (typeAt data (objects.cells k))) :
      Adopted uapi adopting data objects objectsCount
        { parcel := { adopting with mObjectsSize := 0 }
          effects
          examined := ((List.range (k + 1)).map fun i => typeRange (objects.cells i)) ++
            (List.range objectsCount).reverse.map fun i => (adopting.offset i,
              uapi.releaseReach (adopting.flatAt uapi (adopting.objectAddr i))) }

theorem Backed.ipcSetDataReference_adopted (backed : parcel.Backed) (uapi : ObjectUapi)
    (data : Block UInt8) (dataSize : Nat) (objects : Block UInt64) (objectsCount : Nat)
    (releaseFunc : Bool) :
    ∃ adoption, parcel.ipcSetDataReference uapi data dataSize objects objectsCount releaseFunc =
        some adoption ∧
      Adopted uapi (parcel.adopting data dataSize objects objectsCount releaseFunc) data objects
        objectsCount adoption := by
  have isFreed : ∃ freed, parcel.freeDataNoInit = some freed := by
    rw [freeDataNoInit]
    split
    next => exact ⟨_, rfl⟩
    next => exact ⟨_, by rw [releaseObjects, backed.flatObjects_eq, Option.map_some]⟩
  obtain ⟨freed, isFreed⟩ := isFreed
  have first : ¬ objects.cells 0 < 0 ↔ Ordered uapi objects 0 := by simp [Ordered]
  have nothing : Accepted uapi data objects 0 := fun i before => absurd before (Nat.not_lt_zero i)
  have checked := checkObjects_checked objectsCount 0 nothing 0 first
  rw [List.range_zero, List.map_nil, List.nil_append, Nat.zero_add] at checked
  rw [ipcSetDataReference, isFreed, Option.bind_eq_bind, Option.bind_some]
  generalize checkObjects uapi data objects objectsCount 0 0 = result at checked ⊢
  obtain ⟨verdict, examined⟩ := result
  cases checked with
  | kept accepted => exact ⟨_, rfl, .kept accepted⟩
  | badOffset within accepted early => exact ⟨_, rfl, .badOffset within accepted early⟩
  | unsupported within accepted ordered other =>
      have reached := @Parcel.flatObjects_eq
        (parcel.adopting data dataSize objects objectsCount releaseFunc) (Option.some_ne_none _)
        (Option.some_ne_none _) (List.range objectsCount).reverse
      have released : (parcel.adopting data dataSize objects objectsCount
          releaseFunc).releaseObjects = some _ := congrArg (Option.map _) reached
      dsimp only
      rw [released]
      exact ⟨_, rfl, .unsupported within accepted ordered other⟩

/-- The bytes that the check reads bound the objects that it gets to. -/
theorem types_of_examined {k : Nat} {ranges : List (Nat × Nat)}
    (examined : ∀ range ∈ ranges, range.1 + range.2 ≤ dataSize)
    (checks : (List.range k).map (fun i => typeRange (objects.cells i)) ⊆ ranges) {i : Nat}
    (before : i < k) : (objects.cells i).toNat + FlatRecord.uint32.size ≤ dataSize :=
  examined _ (checks (List.mem_map_of_mem (List.mem_range.mpr before)))

theorem Adopted.staysInside {adoption : Adoption}
    (adopted : Adopted uapi (parcel.adopting data dataSize objects objectsCount releaseFunc) data
      objects objectsCount adoption)
    (consistent : Consistent uapi dataSize adoption) :
    parcel.mDataPos = 0 ∧ StaysInside uapi data objects dataSize objectsCount := by
  have examined := consistent.examined
  cases adopted with
  | kept accepted =>
      refine ⟨consistent.position, ?_, ?_, fun _ => consistent.inside⟩
      · exact fun i within _ _ => types_of_examined examined (List.subset_append_left _ _) within
      · exact fun i within _ _ other => absurd (accepted i within).2 other
  | @badOffset _ k within accepted early =>
      refine ⟨consistent.position, ?_, ?_, fun all => absurd (all k within).1 early⟩
      · intro i _ reached ordered
        rcases Nat.lt_trichotomy i k with before | rfl | behind
        · exact types_of_examined examined (List.Subset.refl _) before
        · exact absurd ordered early
        · exact absurd (reached k behind).1 early
      · intro i _ reached ordered other
        rcases Nat.lt_trichotomy i k with before | rfl | behind
        · exact absurd (accepted i before).2 other
        · exact absurd ordered early
        · exact absurd (reached k behind).1 early
  | @unsupported _ k within accepted ordered other =>
      refine ⟨consistent.position, ?_, ?_, fun all => absurd (all k within).2 other⟩
      · intro i _ reached _
        rcases Nat.lt_or_ge k i with behind | before
        · exact absurd (reached k behind).2 other
        · exact types_of_examined examined (List.subset_append_left _ _) (Nat.lt_succ_of_le before)
      · intro _ _ _ _ _ j bound
        have read := examined _ (List.mem_append_right _ (List.mem_map_of_mem
          (List.mem_reverse.mpr (List.mem_range.mpr bound))))
        rwa [flatAt_adopting] at read

theorem StaysInside.consistent {adoption : Adoption}
    (staysInside : StaysInside uapi data objects dataSize objectsCount)
    (adopted : Adopted uapi (parcel.adopting data dataSize objects objectsCount releaseFunc) data
      objects objectsCount adoption)
    (isSize : dataSize < 2 ^ 64) (atStart : parcel.mDataPos = 0) :
    Consistent uapi dataSize adoption := by
  have size : max dataSize parcel.mDataPos = dataSize := by rw [atStart, Nat.max_zero]
  cases adopted with
  | kept accepted =>
      have complete := staysInside.complete accepted
      have types : ∀ i < objectsCount,
          (objects.cells i).toNat + FlatRecord.uint32.size ≤ dataSize :=
        fun _ within => staysInside.types_of_accepted accepted (Nat.le_refl _) within
      refine ⟨atStart, size, ?_, ?_, complete, ?_⟩
      · intro i within
        have isCount : i + 1 < objectsCount := within
        have fits := complete i (Nat.lt_of_succ_lt isCount)
        rcases (accepted (i + 1) within).1 with isZero | ordered
        · exact absurd isZero (Nat.succ_ne_zero i)
        · have noWrap : (objects.cells i + uapi.sizeofFlat.toUInt64).toNat =
              (objects.cells i).toNat + uapi.sizeofFlat := by
            have small : uapi.sizeofFlat ≤ 4096 := uapi.small
            have isNat : uapi.sizeofFlat.toUInt64.toNat = uapi.sizeofFlat :=
              Nat.mod_eq_of_lt (Nat.lt_of_le_of_lt small (by decide))
            rw [UInt64.toNat_add, isNat]
            exact Nat.mod_eq_of_lt (Nat.lt_of_le_of_lt fits isSize)
          rwa [Nat.add_sub_cancel, UInt64.le_iff_toNat_le, noWrap] at ordered
      · intro i within
        have supported := (accepted i within).2
        rwa [typeAt_eq, ← flatAt_adopting] at supported
      · intro range member
        rcases List.mem_append.mp member with checked | scanned
        · obtain ⟨i, inRange, rfl⟩ := List.mem_map.mp checked
          exact types i (List.mem_range.mp inRange)
        · obtain ⟨i, bound, rfl⟩ := mem_scanForFds objectsCount 0 scanned
          exact types i (by omega)
  | @badOffset _ k within accepted early =>
      refine .of_none rfl atStart size fun range member => ?_
      obtain ⟨i, inRange, rfl⟩ := List.mem_map.mp member
      exact staysInside.types_of_accepted accepted (Nat.le_of_lt within) (List.mem_range.mp inRange)
  | @unsupported _ k within accepted ordered other =>
      refine .of_none rfl atStart size fun range member => ?_
      rcases List.mem_append.mp member with checked | released
      · obtain ⟨i, inRange, rfl⟩ := List.mem_map.mp checked
        rcases Nat.lt_or_eq_of_le (Nat.le_of_lt_succ (List.mem_range.mp inRange)) with
          before | rfl
        · exact staysInside.types_of_accepted accepted (Nat.le_of_lt within) before
        · exact staysInside.types i within accepted ordered
      · obtain ⟨i, inRange, rfl⟩ := List.mem_map.mp released
        have bound := List.mem_range.mp (List.mem_reverse.mp inRange)
        have read := staysInside.releases k within accepted ordered other i bound
        rwa [← flatAt_adopting] at read

end Adopting

/-- The Parcel that adopted a buffer is consistent exactly if its cursor was at the start
before and the check stays inside the data. -/
theorem adopts_consistent_iff (uapi : ObjectUapi) (parcel : Parcel) (data : Block UInt8)
    (dataSize : Nat) (objects : Block UInt64) (objectsCount : Nat) (releaseFunc : Bool)
    (backed : parcel.Backed) (isSize : dataSize < 2 ^ 64) :
    parcel.AdoptsConsistent uapi data dataSize objects objectsCount releaseFunc ↔
      parcel.mDataPos = 0 ∧ StaysInside uapi data objects dataSize objectsCount := by
  obtain ⟨adoption, ends, adopted⟩ := backed.ipcSetDataReference_adopted uapi data dataSize
    objects objectsCount releaseFunc
  constructor
  · rintro ⟨same, isSame, consistent⟩
    cases ends.symm.trans isSame
    exact adopted.staysInside consistent
  · rintro ⟨atStart, staysInside⟩
    exact ⟨adoption, ends, StaysInside.consistent staysInside adopted isSize atStart⟩

/-- A buffer that starts with a local object. -/
def receivedData : Block UInt8 where
  addr := 4096
  cells i := (linuxObjects.flatBinderObject.encode
    { type := linuxObjects.binderTypeBinder, flags := 0, binder := 1, cookie := 64 }).getD i 0

/-- The offset of its object. -/
def receivedOffsets : Block UInt64 where
  addr := 8192
  cells _ := 0

/-- A Parcel that was rewound adopts a buffer. -/
theorem adopts_consistent_rewound :
    (twoObjects.setDataPosition 0).AdoptsConsistent linuxObjects receivedData 24 receivedOffsets 1
      true := by
  have inside : StaysInside linuxObjects receivedData receivedOffsets 24 1 := by
    have isLocal : linuxObjects.Supported (typeAt receivedData 0) := by decide
    constructor
    · intro i _ _ _
      exact (by decide : 0 + 4 ≤ 24)
    · intro i _ _ _ other
      exact absurd isLocal other
    · intro _ i _
      exact (by decide : 0 + 24 ≤ 24)
  exact (adopts_consistent_iff linuxObjects (twoObjects.setDataPosition 0) receivedData 24
    receivedOffsets 1 true
    ⟨twoObjects_backed.size, twoObjects_backed.null, twoObjects_backed.block,
      twoObjects_backed.objects⟩ (by decide)).mpr ⟨rfl, inside⟩

/-- One that was written to keeps its cursor. -/
theorem adopts_old_cursor :
    ¬ ∀ (uapi : ObjectUapi) (parcel : Parcel) (data : Block UInt8) (dataSize : Nat)
      (objects : Block UInt64) (objectsCount : Nat) (releaseFunc : Bool), parcel.Backed →
      dataSize < 2 ^ 64 →
      parcel.AdoptsConsistent uapi data dataSize objects objectsCount releaseFunc := by
  intro claim
  obtain ⟨same, isSame, consistent⟩ := claim linuxObjects twoObjects receivedData 24
    receivedOffsets 1 true twoObjects_backed (by decide)
  obtain ⟨adoption, ends, adopted⟩ := twoObjects_backed.ipcSetDataReference_adopted linuxObjects
    receivedData 24 receivedOffsets 1 true
  cases ends.symm.trans isSame
  exact absurd (adopted.staysInside consistent).1 (by decide)

end Parcel

end DroidKernal.Binder
