import DroidKernal.Binder.Resizing
import DroidKernal.Binder.Stores

/-!
# What writes and resizes report

`write` returns `mError` where `writeInplace` returns null, but only a failed allocation
sets it.  So a write that is refused for its size returns `NO_ERROR`.  `setDataSize`
leaves the cursor behind the new end where the buffer was someone else's.
-/

namespace DroidKernal.Binder

open Lib

namespace Parcel

/-- The bytes were stored at the cursor, which has moved behind them. -/
structure Wrote (parcel : Parcel) (bytes : List UInt8) (after : Parcel) : Prop where
  pos : after.mDataPos = parcel.mDataPos + bytes.length
  size : after.mDataSize = max parcel.mDataSize (parcel.mDataPos + bytes.length)
  stored : ∀ i (bound : i < bytes.length), after.byteAt (parcel.mDataPos + i) = some bytes[i]
  kept : ∀ i, i < parcel.mDataSize → i < parcel.mDataPos ∨ parcel.mDataPos + bytes.length ≤ i →
    after.byteAt i = parcel.byteAt i
  objectsSize : after.mObjectsSize = parcel.mObjectsSize
  objects : ∀ i, i < parcel.mObjectsSize → after.objectOffset i = parcel.objectOffset i

/-- The capacity with which so many bytes are written at the cursor. -/
def roomFor (parcel : Parcel) (len : Nat) : Nat :=
  if parcel.mDataCapacity < parcel.mDataPos + len then parcel.request len
  else parcel.mDataCapacity

/-- What a write leaves for the next one. -/
structure Leaves (parcel : Parcel) (capacity : Nat) (after : Parcel) : Prop where
  sound : after.Sound
  capacity : after.mDataCapacity = capacity
  owner : parcel.mOwner = false → after.mOwner = false

/-- The data is as long as asked for, and what is left of it is the same. -/
structure Sized (parcel : Parcel) (size : Nat) (after : Parcel) : Prop where
  length : after.dataSize = size
  pos : after.mDataPos = min parcel.mDataPos size
  kept : ∀ i, i < parcel.mDataSize → i < size → after.byteAt i = parcel.byteAt i
  objectsSize : after.mObjectsSize ≤ parcel.mObjectsSize
  objects : ∀ i, i < after.mObjectsSize → after.objectOffset i = parcel.objectOffset i

/-- The cursor, the size, the bytes and the objects are as before. -/
structure Unchanged (parcel after : Parcel) : Prop where
  pos : after.mDataPos = parcel.mDataPos
  size : after.dataSize = parcel.dataSize
  bytes : ∀ i, i < parcel.mDataSize → after.byteAt i = parcel.byteAt i
  objectsSize : after.mObjectsSize = parcel.mObjectsSize
  objects : ∀ i, i < parcel.mObjectsSize → after.objectOffset i = parcel.objectOffset i

theorem Unchanged.refl (parcel : Parcel) : Unchanged parcel parcel :=
  ⟨rfl, rfl, fun _ _ => rfl, rfl, fun _ _ => rfl⟩

theorem Unchanged.setError (parcel : Parcel) (err : Int) :
    Unchanged parcel { parcel with mError := err } :=
  ⟨rfl, rfl, fun _ _ => rfl, rfl, fun _ _ => rfl⟩

/-- An operation that can fail, with its argument. -/
inductive Operation where
  | write (data : List UInt8)
  | writeInt32 (val : Int32)
  | setDataSize (size : UInt64)

namespace Operation

def run (heap : Heap) (parcel : Parcel) : Operation → Option (Outcome Int)
  | .write data => parcel.write heap data
  | .writeInt32 val => parcel.writeInt32 heap val
  | .setDataSize size => parcel.setDataSize heap size.toNat

end Operation

section Sound

variable {parcel after : Parcel} {heap : Heap} {desired : Nat}

theorem Sound.dataSize_eq (sound : parcel.Sound) : parcel.dataSize = parcel.mDataSize := by
  rw [dataSize, Nat.max_eq_left sound.pos]

/-- The sizes of a sound Parcel are far from the end of `size_t`. -/
theorem Sound.capacity_lt (sound : parcel.Sound) : parcel.mDataCapacity < 2 ^ 62 := by
  cases isData : parcel.mData with
  | none =>
      rw [sound.null isData]
      decide
  | some data =>
      have inSpace := (sound.block data isData).2
      rw [taskSize] at inSpace
      omega

theorem Sound.notNull (sound : parcel.Sound) (positive : 0 < parcel.mDataCapacity) :
    parcel.mData ≠ none := by
  intro isNull
  rw [sound.null isNull] at positive
  exact absurd positive (Nat.lt_irrefl 0)

theorem Resized.pos_le (resized : parcel.Resized desired after)
    (pos : parcel.mDataPos ≤ parcel.mDataSize) : after.mDataPos ≤ parcel.mDataPos := by
  rw [resized.pos pos]
  split
  next => exact Nat.le_refl _
  next => exact Nat.min_le_left _ _

/-- `growData` at a cursor without enough room refuses its request, or resizes to it. -/
theorem Sound.growData_eq (sound : parcel.Sound) {len : Nat} (small : len ≤ int32Max)
    (full : parcel.mDataCapacity < parcel.mDataPos + len) :
    parcel.growData heap len =
      if int32Max < parcel.request len then some { value := badValue, parcel, effects := [] }
      else parcel.continueWrite heap (parcel.request len) := by
  have pos := sound.pos
  have size := sound.size
  have capacity := sound.capacity_lt
  simp only [int32Max] at small
  rw [growData, if_neg (by simp only [int32Max]; omega), if_neg (by simp only [sizeMax]; omega),
    if_neg (by simp only [sizeMax]; omega), if_neg (by omega), request]
  split
  next large =>
    rw [continueWrite, if_pos large]
    rfl
  next => rfl

/-- A resized Parcel is as good for a write as the one before. -/
theorem Resized.wrote (resized : parcel.Resized desired after) (sound : parcel.Sound)
    {bytes : List UInt8} {written : Parcel} (wrote : after.Wrote bytes written)
    (grows : parcel.mDataSize ≤ desired) : parcel.Wrote bytes written := by
  have pos := sound.pos
  have samePos : after.mDataPos = parcel.mDataPos := by
    rw [resized.pos pos]
    split
    next => rfl
    next => omega
  have sameSize : after.mDataSize = parcel.mDataSize := by
    rw [resized.size]
    omega
  have sameObjects : after.mObjectsSize = parcel.mObjectsSize := by
    rw [resized.objectsSize, keptCount_of_le grows]
  obtain ⟨isPos, isSize, stored, kept, objectsSize, objects⟩ := wrote
  rw [samePos] at isPos stored kept
  rw [samePos, sameSize] at isSize
  rw [sameSize] at kept
  rw [sameObjects] at objectsSize objects
  refine ⟨isPos, isSize, stored, fun i within outside => ?_, objectsSize, fun i within => ?_⟩
  · rw [kept i within outside]
    exact resized.bytes i within (Nat.lt_of_lt_of_le within grows)
  · rw [objects i within]
    exact resized.objects i (by rwa [keptCount_of_le grows])

/-- Cells that were stored at the cursor. -/
theorem Sound.wrote_of_cells (sound : parcel.Sound) {data : Block UInt8}
    (isData : parcel.mData = some data) {cells : Nat → UInt8} {bytes : List UInt8}
    (small : bytes.length ≤ int32Max)
    (fits : parcel.mDataPos + bytes.length ≤ parcel.mDataCapacity)
    (before : ∀ i, i < parcel.mDataPos → cells i = data.cells i)
    (held : Mem.read cells parcel.mDataPos bytes.length = bytes)
    (behind : ∀ i, parcel.mDataPos + bytes.length ≤ i → cells i = data.cells i) :
    parcel.Wrote bytes ((parcel.withCells data cells).finishWrite bytes.length).2 ∧
      parcel.Leaves parcel.mDataCapacity
        ((parcel.withCells data cells).finishWrite bytes.length).2 := by
  have capacity := sound.capacity_lt
  have size := sound.size
  have sum : sizeAdd parcel.mDataPos bytes.length = parcel.mDataPos + bytes.length :=
    sizeAdd_eq (by omega)
  have samePos : (parcel.withCells data cells).mDataPos = parcel.mDataPos := rfl
  rw [finishWrite_eq _ small, samePos, sum]
  constructor
  · exact {
      pos := rfl
      size := rfl
      stored := by
        intro i bound
        have cell := List.getElem_of_eq held (show i <
          (Mem.read cells parcel.mDataPos bytes.length).length by simpa using bound)
        rw [Mem.read_getElem] at cell
        exact congrArg some cell
      kept := by
        rintro i _ (early | late)
        · simp only [byteAt, isData]
          exact congrArg some (before i early)
        · simp only [byteAt, isData]
          exact congrArg some (behind i late)
      objectsSize := rfl
      objects := fun _ _ => rfl }
  · exact {
      sound := {
        pos := Nat.le_max_right _ _
        size := Nat.max_le.mpr ⟨size, fits⟩
        null := fun isNull => absurd isNull (Option.some_ne_none _)
        block := by
          rintro same ⟨⟩
          exact sound.block data isData
        objects := fun some => ⟨Option.some_ne_none _, (sound.objects some).2⟩ }
      capacity := rfl
      owner := id }

/-- A write with room behind the cursor. -/
theorem Sound.restartWrite_wrote (sound : parcel.Sound) {added : List UInt8} (nonempty : added ≠ [])
    (bounded : added.length ≤ int32Max) (small : padSize added.length ≤ int32Max)
    (fits : parcel.mDataPos + padSize added.length ≤ parcel.mDataCapacity) :
    ∃ pointer reserved written,
      parcel.restartWrite added.length (padSize added.length) = some (pointer, reserved) ∧
      pointer ≠ 0 ∧ reserved.store pointer added = some written ∧
      parcel.Wrote (added ++ padding added.length) written ∧
      parcel.Leaves parcel.mDataCapacity written := by
  have positive := List.length_pos_iff.mpr nonempty
  have padded := padSize_eq bounded
  obtain ⟨data, isData⟩ := Option.ne_none_iff_exists'.mp (sound.notNull (by omega))
  obtain ⟨pointer, reserved, cells, restarted, notZero, stored, before, held, behind⟩ :=
    restartWrite_store isData (sound.block data isData).1 nonempty bounded small
  have total : (added ++ padding added.length).length = padSize added.length := by
    simp [padding]
    omega
  rw [← total] at small fits behind
  obtain ⟨wrote, leaves⟩ := sound.wrote_of_cells isData small fits before held behind
  rw [total] at wrote leaves
  exact ⟨pointer, reserved, _, restarted, notZero, stored, wrote, leaves⟩

/-- The same for `writeAligned`. -/
theorem Sound.store_wrote (sound : parcel.Sound) {val : List UInt8} (nonempty : val ≠ [])
    (small : val.length ≤ int32Max)
    (fits : parcel.mDataPos + val.length ≤ parcel.mDataCapacity) :
    ∃ stored written, parcel.store (parcel.ipcData + parcel.mDataPos) val = some stored ∧
      stored.finishWrite val.length = (noError, written) ∧ parcel.Wrote val written ∧
      parcel.Leaves parcel.mDataCapacity written := by
  have positive := List.length_pos_iff.mpr nonempty
  obtain ⟨data, isData⟩ := Option.ne_none_iff_exists'.mp (sound.notNull (by omega))
  have address : parcel.ipcData + parcel.mDataPos - data.addr = parcel.mDataPos := by
    simp [ipcData, isData]
  have wrote := sound.wrote_of_cells isData small fits
    (fun i early => Mem.write_outside data.cells (.inl early))
    (Mem.read_write data.cells parcel.mDataPos val)
    (fun i late => Mem.write_outside data.cells (.inr late))
  rw [finishWrite_eq _ small] at wrote
  refine ⟨_, _, store_eq parcel isData _ val, finishWrite_eq _ small, ?_⟩
  rw [address]
  exact wrote

/-- A write after a buffer has grown. -/
theorem Resized.leaves (resized : parcel.Resized desired after) {written : Parcel}
    (larger : parcel.mDataCapacity < desired) (leaves : after.Leaves after.mDataCapacity written) :
    parcel.Leaves desired written where
  sound := leaves.sound
  capacity := leaves.capacity.trans (resized.grown larger)
  owner := fun _ => leaves.owner resized.owner

/-- How `write` of some bytes ends: the bytes are stored; a size is beyond a limit, and
`mError` is returned as it was; there is no memory; or the padded length is beyond the
limit of `finishWrite`, and the cursor stays. -/
inductive Writes (heap : Heap) (parcel : Parcel) (data : List UInt8) : Outcome Int → Prop where
  | stored {written : Parcel} {effects : List Effect} (small : padSize data.length ≤ int32Max)
      (grows : parcel.mDataCapacity < parcel.mDataPos + padSize data.length →
        parcel.request (padSize data.length) ≤ int32Max ∧
          parcel.Allocates heap (parcel.request (padSize data.length)))
      (wrote : parcel.Wrote (data ++ padding data.length) written)
      (leaves : parcel.Leaves (parcel.roomFor (padSize data.length)) written) :
      Writes heap parcel data { value := noError, parcel := written, effects }
  | refused (full : parcel.mDataCapacity < parcel.mDataPos + padSize data.length)
      (large : int32Max < padSize data.length ∨
        int32Max < parcel.request (padSize data.length)) :
      Writes heap parcel data { value := parcel.mError, parcel, effects := [] }
  | outOfMemory (small : padSize data.length ≤ int32Max)
      (full : parcel.mDataCapacity < parcel.mDataPos + padSize data.length)
      (limit : parcel.request (padSize data.length) ≤ int32Max)
      (fails : ¬ parcel.Allocates heap (parcel.request (padSize data.length))) :
      Writes heap parcel data
        { value := noMemory, parcel := { parcel with mError := noMemory }, effects := [] }
  | unfinished {written : Parcel} (large : int32Max < padSize data.length)
      (pos : written.mDataPos = parcel.mDataPos) :
      Writes heap parcel data { value := noError, parcel := written, effects := [] }

/-- How `writeAligned` ends. -/
inductive WritesAligned (heap : Heap) (parcel : Parcel) (val : List UInt8) :
    Outcome Int → Prop where
  | stored {written : Parcel} {effects : List Effect}
      (grows : parcel.mDataCapacity < parcel.mDataPos + val.length →
        parcel.request val.length ≤ int32Max ∧ parcel.Allocates heap (parcel.request val.length))
      (wrote : parcel.Wrote val written)
      (leaves : parcel.Leaves (parcel.roomFor val.length) written) :
      WritesAligned heap parcel val { value := noError, parcel := written, effects }
  | refused (full : parcel.mDataCapacity < parcel.mDataPos + val.length)
      (large : int32Max < parcel.request val.length) :
      WritesAligned heap parcel val { value := badValue, parcel, effects := [] }
  | outOfMemory (full : parcel.mDataCapacity < parcel.mDataPos + val.length)
      (limit : parcel.request val.length ≤ int32Max)
      (fails : ¬ parcel.Allocates heap (parcel.request val.length)) :
      WritesAligned heap parcel val
        { value := noMemory, parcel := { parcel with mError := noMemory }, effects := [] }

namespace Sound

variable (sound : parcel.Sound)

include sound

/-- A request at a full cursor asks for more than there is. -/
theorem lt_request {len : Nat} (full : parcel.mDataCapacity < parcel.mDataPos + len) :
    parcel.mDataCapacity < parcel.request len ∧ parcel.mDataPos + len ≤ parcel.request len := by
  have pos := sound.pos
  have size := sound.size
  rw [request]
  omega

theorem writeInplace_fits {len : Nat} (bounded : len ≤ int32Max)
    (fits : parcel.mDataPos + padSize len ≤ parcel.mDataCapacity) :
    parcel.writeInplace heap len = do
      let (pointer, parcel) ← parcel.restartWrite len (padSize len)
      return { value := pointer, parcel, effects := [] } := by
  have capacity := sound.capacity_lt
  have sum : sizeAdd parcel.mDataPos (padSize len) = parcel.mDataPos + padSize len :=
    sizeAdd_eq (by omega)
  rw [writeInplace, if_neg (Nat.not_lt.mpr bounded)]
  simp only [sum, if_pos fits]
  rw [if_neg (by omega)]

theorem writeInplace_grows {len : Nat} (bounded : len ≤ int32Max)
    (full : parcel.mDataCapacity < parcel.mDataPos + padSize len) :
    parcel.writeInplace heap len = do
      let grown ← parcel.growData heap (padSize len)
      if grown.value = noError then
        let (pointer, parcel) ← grown.parcel.restartWrite len (padSize len)
        return { value := pointer, parcel, effects := grown.effects }
      else return { value := 0, parcel := grown.parcel, effects := grown.effects } := by
  have capacity := sound.capacity_lt
  have pos := sound.pos
  have size := sound.size
  have padded := padSize_eq bounded
  have sum : sizeAdd parcel.mDataPos (padSize len) = parcel.mDataPos + padSize len := by
    apply sizeAdd_eq
    simp only [int32Max] at bounded
    omega
  rw [writeInplace, if_neg (Nat.not_lt.mpr bounded)]
  simp only [sum, if_neg (Nat.not_le.mpr full)]
  rw [if_neg (by omega)]

theorem write_writes (heap : Heap) {data : List UInt8} (nonempty : data ≠ [])
    (bounded : data.length ≤ int32Max) :
    ∃ outcome, parcel.write heap data = some outcome ∧ parcel.Writes heap data outcome := by
  have positive := List.length_pos_iff.mpr nonempty
  have padded := padSize_eq bounded
  rw [Parcel.write, if_neg (Nat.not_lt.mpr bounded)]
  rcases Nat.lt_or_ge parcel.mDataCapacity (parcel.mDataPos + padSize data.length) with full | fits
  · rw [sound.writeInplace_grows bounded full]
    have notOk : badValue ≠ noError := by decide
    rcases Nat.lt_or_ge int32Max (padSize data.length) with large | small
    · refine ⟨{ value := parcel.mError, parcel, effects := [] }, ?_, .refused full (.inl large)⟩
      simp [growData, large, notOk]
    · rw [sound.growData_eq small full]
      split
      next large =>
        refine ⟨{ value := parcel.mError, parcel, effects := [] }, ?_, .refused full (.inr large)⟩
        simp [notOk]
      next limit =>
        have more := sound.lt_request full
        obtain ⟨outcome, grown, continued⟩ :=
          sound.continueWrite_continued heap (parcel.request (padSize data.length))
        rw [grown]
        cases continued with
        | tooBig large => exact absurd large limit
        | outOfMemory limit fails =>
            refine ⟨_, ?_, .outOfMemory small full limit fails⟩
            simp [show noMemory ≠ noError by decide]
        | cleared _ isZero => omega
        | @resized after limit allocates _ resized =>
            have samePos := resized.pos_le sound.pos
            have room := resized.capacity
            have grows : parcel.mDataSize ≤ parcel.request (padSize data.length) :=
              Nat.le_of_lt (Nat.lt_of_le_of_lt sound.size more.1)
            have larger := resized.sound sound fun _ => Nat.le_trans sound.pos grows
            obtain ⟨pointer, reserved, written, restarted, notZero, stored, wrote, leaves⟩ :=
              larger.restartWrite_wrote nonempty bounded small (by omega)
            have isRoom : parcel.roomFor (padSize data.length) =
                parcel.request (padSize data.length) := if_pos full
            have left := resized.leaves more.1 leaves
            rw [← isRoom] at left
            have ends : parcel.Writes heap data
                { value := noError, parcel := written
                  effects := parcel.resizeEffects
                    (parcel.keptCount (parcel.request (padSize data.length))) } :=
              .stored small (fun _ => ⟨limit, allocates⟩) (resized.wrote sound wrote grows) left
            refine ⟨_, ?_, ends⟩
            simp [restarted, notZero, stored]
  · rw [sound.writeInplace_fits bounded fits]
    obtain ⟨block, isData⟩ := Option.ne_none_iff_exists'.mp (sound.notNull (by omega))
    rcases Nat.lt_or_ge int32Max (padSize data.length) with large | small
    · have unaligned : padSize data.length ≠ data.length := by omega
      have mapped := (sound.block block isData).1
      have address : parcel.ipcData = block.addr := by simp [ipcData, isData]
      -- `finishWrite` refuses the padded length
      have stays : ∀ parcel : Parcel, (parcel.finishWrite (padSize data.length)).2 = parcel := by
        intro parcel
        rw [finishWrite, if_pos large]
      obtain ⟨cells, restarted⟩ : ∃ cells, parcel.restartWrite data.length (padSize data.length) =
          some (block.addr + parcel.mDataPos, parcel.withCells block cells) := by
        simp only [restartWrite, if_pos unaligned, isData, store_eq _ isData, address,
          Option.bind_eq_bind, Option.bind_some, stays]
        exact ⟨_, rfl⟩
      have notZero : block.addr + parcel.mDataPos ≠ 0 := by omega
      obtain ⟨written, stored, samePos⟩ : ∃ written,
          (parcel.withCells block cells).store (block.addr + parcel.mDataPos) data = some written ∧
            written.mDataPos = parcel.mDataPos :=
        ⟨_, store_eq _ rfl _ _, rfl⟩
      refine ⟨{ value := noError, parcel := written, effects := [] }, ?_,
        .unfinished large samePos⟩
      simp only [restarted, Option.bind_eq_bind, Option.bind_some, Option.pure_def, notZero, ne_eq,
        not_false_eq_true, if_true, stored]
    · obtain ⟨pointer, reserved, written, restarted, notZero, stored, wrote, leaves⟩ :=
        sound.restartWrite_wrote nonempty bounded small fits
      have isRoom : parcel.roomFor (padSize data.length) = parcel.mDataCapacity :=
        if_neg (Nat.not_lt.mpr fits)
      rw [← isRoom] at leaves
      refine ⟨{ value := noError, parcel := written, effects := [] }, ?_,
        .stored small (fun full => absurd fits (Nat.not_le.mpr full)) wrote leaves⟩
      simp [restarted, notZero, stored]

theorem writeAligned_writes (heap : Heap) {val : List UInt8} (nonempty : val ≠ [])
    (small : val.length ≤ int32Max) :
    ∃ outcome, parcel.writeAligned heap val = some outcome ∧
      parcel.WritesAligned heap val outcome := by
  have positive := List.length_pos_iff.mpr nonempty
  have capacity := sound.capacity_lt
  have pos := sound.pos
  have size := sound.size
  have bounded : val.length ≤ 2 ^ 31 - 1 := small
  have sum : sizeAdd parcel.mDataPos val.length = parcel.mDataPos + val.length :=
    sizeAdd_eq (by omega)
  rw [writeAligned, sum]
  rcases Nat.lt_or_ge parcel.mDataCapacity (parcel.mDataPos + val.length) with full | fits
  · rw [if_neg (Nat.not_le.mpr full), sound.growData_eq small full]
    split
    next large =>
      refine ⟨{ value := badValue, parcel, effects := [] }, ?_, .refused full large⟩
      simp [show badValue ≠ noError by decide]
    next notLarge =>
      have more := sound.lt_request full
      obtain ⟨outcome, grown, continued⟩ :=
        sound.continueWrite_continued heap (parcel.request val.length)
      rw [grown]
      cases continued with
      | tooBig large => exact absurd large notLarge
      | outOfMemory limit fails =>
          refine ⟨_, ?_, .outOfMemory full limit fails⟩
          simp [show noMemory ≠ noError by decide]
      | cleared _ isZero => omega
      | @resized after limit allocates _ resized =>
          have samePos := resized.pos_le sound.pos
          have room := resized.capacity
          have grows : parcel.mDataSize ≤ parcel.request val.length :=
            Nat.le_of_lt (Nat.lt_of_le_of_lt size more.1)
          have larger := resized.sound sound fun _ => Nat.le_trans pos grows
          obtain ⟨stored, written, isStored, finished, wrote, leaves⟩ :=
            larger.store_wrote nonempty small (by omega)
          have isRoom : parcel.roomFor val.length = parcel.request val.length := if_pos full
          have left := resized.leaves more.1 leaves
          rw [← isRoom] at left
          have ends : parcel.WritesAligned heap val
              { value := noError, parcel := written
                effects := parcel.resizeEffects (parcel.keptCount (parcel.request val.length)) } :=
            .stored (fun _ => ⟨limit, allocates⟩) (resized.wrote sound wrote grows) left
          refine ⟨_, ?_, ends⟩
          simp [isStored, finished]
  · rw [if_pos fits]
    obtain ⟨stored, written, isStored, finished, wrote, leaves⟩ :=
      sound.store_wrote nonempty small fits
    have isRoom : parcel.roomFor val.length = parcel.mDataCapacity :=
      if_neg (Nat.not_lt.mpr fits)
    rw [← isRoom] at leaves
    refine ⟨{ value := noError, parcel := written, effects := [] }, ?_,
      .stored (fun full => absurd fits (Nat.not_le.mpr full)) wrote leaves⟩
    simp [isStored, finished]

/-- Nothing is written. -/
theorem write_nil (heap : Heap) (error : parcel.mError = noError) :
    ∃ outcome, parcel.write heap [] = some outcome ∧ outcome.value = noError ∧
      parcel.Wrote [] outcome.parcel := by
  have capacity := sound.capacity_lt
  have pos := sound.pos
  have size := sound.size
  have noPadding : padSize 0 = 0 := rfl
  have same : sizeAdd parcel.mDataPos 0 = parcel.mDataPos := sizeAdd_eq (by omega)
  have stays : (parcel.finishWrite 0).2 = parcel := by
    rw [finishWrite_eq _ (Nat.zero_le _), same, Nat.max_eq_left pos]
  have wrote : parcel.Wrote [] parcel :=
    { pos := rfl
      size := (Nat.max_eq_left pos).symm
      stored := fun i bound => absurd bound (Nat.not_lt_zero i)
      kept := fun _ _ _ => rfl
      objectsSize := rfl
      objects := fun _ _ => rfl }
  have reserved : parcel.writeInplace heap 0 =
      some { value := parcel.ipcData + parcel.mDataPos, parcel, effects := [] } := by
    rw [sound.writeInplace_fits (Nat.zero_le _) (by rw [noPadding]; omega)]
    simp [restartWrite, noPadding, stays]
  rw [Parcel.write, List.length_nil, if_neg (Nat.not_lt_zero _), reserved, Option.bind_eq_bind,
    Option.bind_some]
  simp only
  split
  next => exact ⟨_, rfl, rfl, wrote⟩
  next => exact ⟨_, rfl, error, wrote⟩

end Sound

end Sound

end Parcel

theorem Parcel.sound_initState : Parcel.initState.Sound where
  pos := Nat.le_refl 0
  size := Nat.le_refl 0
  null := fun _ => rfl
  block := by
    rintro data ⟨⟩
  objects := fun some => absurd rfl some

end DroidKernal.Binder
