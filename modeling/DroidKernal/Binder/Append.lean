import DroidKernal.Binder.Parcel

/-!
# Appending to a Parcel

A Parcel that has only been written to, from the constructor on or after it was
cleared, is described by the bytes written so far.  Each write appends its bytes
and the zero bytes that pad them to a multiple of four, whether or not the buffer
has to grow for it.
-/

namespace DroidKernal.Binder

open Lib

/-- The allocation of the call succeeds. -/
def Heap.Succeeds (heap : Heap) : Prop :=
  ∀ size, size ≤ int32Max → ∃ block, heap.data size = some block

/-- A heap that hands out zeroed memory at one address. -/
def Heap.fixed (addr : Nat) (positive : 0 < addr) (mapped : addr + int32Max ≤ taskSize) :
    Heap where
  data size := if size ≤ int32Max then some { addr, cells := fun _ => 0 } else none
  objects _ := none
  data_mapped := by
    intro size block allocated
    split at allocated
    next small =>
      cases allocated
      exact ⟨positive, by simp only; omega⟩
    next => cases allocated

theorem Heap.fixed_succeeds {addr : Nat} (positive : 0 < addr)
    (mapped : addr + int32Max ≤ taskSize) : (Heap.fixed addr positive mapped).Succeeds := by
  intro size small
  exact ⟨_, if_pos small⟩

/-- `len` bytes rounded up to a multiple of four. -/
def padding (len : Nat) : List UInt8 :=
  List.replicate (padSize len - len) 0

theorem padSize_eq {len : Nat} (small : len ≤ int32Max) : padSize len = (len + 3) / 4 * 4 := by
  simp only [padSize, sizeAdd, int32Max] at *
  rw [Nat.mod_eq_of_lt (by omega)]

theorem padSize_of_dvd {len : Nat} (small : len ≤ int32Max) (aligned : 4 ∣ len) :
    padSize len = len := by
  rw [padSize_eq small]
  omega

theorem sizeAdd_eq {a b : Nat} (small : a + b < 2 ^ 64) : sizeAdd a b = a + b :=
  Nat.mod_eq_of_lt small

namespace Parcel

/-- The Parcel holds exactly `bytes`, with the cursor at their end. -/
structure Appending (parcel : Parcel) (bytes : List UInt8) : Prop where
  error : parcel.mError = noError
  owner : parcel.mOwner = false
  objects : parcel.mObjectsSize = 0
  pos : parcel.mDataPos = bytes.length
  size : parcel.mDataSize = bytes.length
  room : bytes.length ≤ parcel.mDataCapacity
  small : parcel.mDataCapacity ≤ int32Max
  empty : parcel.mData = none → parcel.mDataCapacity = 0
  block : ∀ data, parcel.mData = some data →
    0 < data.addr ∧ data.addr + parcel.mDataCapacity ≤ taskSize ∧
      Mem.read data.cells 0 bytes.length = bytes

/-- The cells of a block start with `bytes`. -/
theorem cells_eq_of_read {data : Block UInt8} {bytes : List UInt8}
    (held : Mem.read data.cells 0 bytes.length = bytes) {i : Nat} (bound : i < bytes.length) :
    data.cells i = bytes[i] := by
  have cell := List.getElem_of_eq held (show i < (Mem.read data.cells 0 bytes.length).length by
    simpa using bound)
  simpa using cell

theorem appending_initState : initState.Appending [] where
  error := rfl
  owner := rfl
  objects := rfl
  pos := rfl
  size := rfl
  room := Nat.le_refl 0
  small := Nat.zero_le _
  empty := fun _ => rfl
  block := by
    intro data isData
    cases isData

section Append

variable {parcel : Parcel} {bytes : List UInt8} {heap : Heap}

theorem Appending.dataSize_eq (appending : parcel.Appending bytes) :
    parcel.dataSize = bytes.length := by
  rw [dataSize, appending.size, appending.pos, Nat.max_self]

/-- Growing keeps the bytes and makes room for `len` more. -/
theorem Appending.growData (appending : parcel.Appending bytes) (succeeds : heap.Succeeds)
    {len : Nat} (full : parcel.mDataCapacity < bytes.length + len)
    (limit : (bytes.length + len) * 3 / 2 ≤ int32Max) :
    ∃ grown, parcel.growData heap len = some { value := noError, parcel := grown, effects := [] } ∧
      grown.Appending bytes ∧ bytes.length + len ≤ grown.mDataCapacity ∧
      grown.mData ≠ none := by
  have room := appending.room
  have size := appending.size
  have desired : (bytes.length + len) * 3 / 2 ≤ int32Max := limit
  simp only [int32Max] at desired
  obtain ⟨new, allocated⟩ := succeeds ((bytes.length + len) * 3 / 2) limit
  obtain ⟨mapped, inside⟩ := heap.data_mapped _ _ allocated
  have continued : parcel.growData heap len =
      parcel.continueWrite heap ((bytes.length + len) * 3 / 2) := by
    rw [Parcel.growData, if_neg (by simp only [int32Max]; omega),
      if_neg (by simp only [sizeMax]; omega), if_neg (by simp only [sizeMax]; omega), size,
      if_neg (by omega)]
  rw [continued, continueWrite, if_neg (by omega)]
  have kept : parcel.objectsKept ((bytes.length + len) * 3 / 2) = some 0 := by
    rw [objectsKept, if_neg (by omega), appending.objects]
  simp only [kept, appending.owner, Option.bind_eq_bind, Option.bind_some, Bool.false_eq_true,
    if_false]
  cases isData : parcel.mData with
  | none =>
      have capacity := appending.empty isData
      have noBytes : bytes = [] := List.length_eq_zero_iff.mp (by omega)
      subst noBytes
      simp only [allocated]
      refine ⟨_, rfl, ?_, ?_, by simp⟩
      · exact {
          error := appending.error
          owner := rfl
          objects := appending.objects
          pos := rfl
          size := rfl
          room := Nat.zero_le _
          small := limit
          empty := by simp
          block := by
            intro data isNew
            cases isNew
            exact ⟨mapped, inside, rfl⟩ }
      · simp only
        omega
  | some data =>
      obtain ⟨_, _, held⟩ := appending.block data isData
      have nothing : parcel.dropObjects heap 0 = some (parcel, []) := by
        rw [dropObjects, if_neg (by rw [appending.objects]; omega)]
      simp only [resizeOwn, nothing, Option.bind_eq_bind, Option.bind_some, allocated]
      rw [if_pos (by omega)]
      refine ⟨_, rfl, ?_, ?_, by simp⟩
      · exact {
          error := appending.error
          owner := appending.owner
          objects := appending.objects
          pos := appending.pos
          size := appending.size
          room := by simp only; omega
          small := limit
          empty := by simp
          block := by
            intro moved isMoved
            cases isMoved
            refine ⟨mapped, inside, ?_⟩
            rw [← held]
            simp only [Mem.read_length]
            apply Mem.read_congr
            intro i bound
            simp only [Block.moveTo]
            rw [if_pos (by omega)] }
      · simp only
        omega

theorem finishWrite_eq (parcel : Parcel) {len : Nat} (small : len ≤ int32Max) :
    parcel.finishWrite len =
      (noError,
        { parcel with
          mDataPos := sizeAdd parcel.mDataPos len
          mDataSize := max parcel.mDataSize (sizeAdd parcel.mDataPos len) }) := by
  rw [finishWrite, if_neg (Nat.not_lt.mpr small)]

/-- The Parcel after stores into its block. -/
def withCells (parcel : Parcel) (data : Block UInt8) (cells : Nat → UInt8) : Parcel :=
  { parcel with mData := some { data with cells } }

theorem store_eq (parcel : Parcel) {data : Block UInt8} (isData : parcel.mData = some data)
    (pointer : Nat) (bytes : List UInt8) :
    parcel.store pointer bytes =
      some (parcel.withCells data (Mem.write data.cells (pointer - data.addr) bytes)) := by
  by_cases empty : bytes = []
  · subst empty
    simp only [store, if_true, withCells, Mem.write_nil, ← isData]
    rfl
  · simp only [store, if_neg empty, isData, Option.bind_eq_bind, Option.bind_some]
    rfl

/-- A store after the write was finished is a store before it. -/
theorem store_finishWrite (parcel : Parcel) {data : Block UInt8}
    (isData : parcel.mData = some data) {len : Nat} (small : len ≤ int32Max) (pointer : Nat)
    (bytes : List UInt8) :
    (parcel.finishWrite len).2.store pointer bytes =
      some ((parcel.withCells data
        (Mem.write data.cells (pointer - data.addr) bytes)).finishWrite len).2 := by
  have sameData : (parcel.finishWrite len).2.mData = some data := by
    rw [finishWrite_eq _ small]
    exact isData
  rw [store_eq _ sameData, finishWrite_eq _ small, finishWrite_eq _ small]
  rfl

/-- Storing at the cursor and finishing the write. -/
theorem Appending.store_finish (appending : parcel.Appending bytes) {data : Block UInt8}
    (isData : parcel.mData = some data) {cells : Nat → UInt8} {added : List UInt8}
    (kept : ∀ i, i < bytes.length → cells i = data.cells i)
    (stored : Mem.read cells bytes.length added.length = added)
    (fits : bytes.length + added.length ≤ parcel.mDataCapacity) :
    (parcel.withCells data cells).finishWrite added.length =
        (noError, ((parcel.withCells data cells).finishWrite added.length).2) ∧
      ((parcel.withCells data cells).finishWrite added.length).2.Appending
        (bytes ++ added) := by
  obtain ⟨mapped, inside, held⟩ := appending.block data isData
  have small := appending.small
  simp only [int32Max] at small
  have sum : sizeAdd parcel.mDataPos added.length = bytes.length + added.length := by
    rw [appending.pos]
    exact sizeAdd_eq (by omega)
  rw [finishWrite_eq _ (by simp only [int32Max]; omega)]
  refine ⟨rfl, ?_⟩
  simp only [withCells]
  exact {
    error := appending.error
    owner := appending.owner
    objects := appending.objects
    pos := by simp [sum]
    size := by
      simp only [sum, appending.size, List.length_append]
      omega
    room := by simpa using fits
    small := appending.small
    empty := by simp
    block := by
      intro same isSame
      cases isSame
      refine ⟨mapped, inside, ?_⟩
      apply List.ext_getElem
      · simp
      · intro i inRead inBytes
        rw [Mem.read_getElem, Nat.zero_add]
        by_cases old : i < bytes.length
        · rw [List.getElem_append_left old]
          exact (kept i old).trans (cells_eq_of_read held old)
        · rw [List.length_append] at inBytes
          rw [List.getElem_append_right (by omega)]
          have cell := List.getElem_of_eq stored (show i - bytes.length <
            (Mem.read cells bytes.length added.length).length by simp; omega)
          rw [Mem.read_getElem] at cell
          rwa [Nat.add_sub_cancel' (by omega)] at cell }

/-- The address of the cursor. -/
theorem Appending.cursor (appending : parcel.Appending bytes) {data : Block UInt8}
    (isData : parcel.mData = some data) :
    parcel.ipcData + parcel.mDataPos = data.addr + bytes.length := by
  simp [ipcData, isData, appending.pos]

/-- A growth request beyond the limit fails and changes nothing. -/
theorem Appending.growData_beyond (appending : parcel.Appending bytes) {len : Nat}
    (small : len ≤ int32Max) (beyond : int32Max < (bytes.length + len) * 3 / 2) :
    parcel.growData heap len = some { value := badValue, parcel, effects := [] } := by
  have room := appending.room
  have capacity := appending.small
  have size := appending.size
  simp only [int32Max] at small capacity beyond
  rw [Parcel.growData, if_neg (by simp only [int32Max]; omega),
    if_neg (by simp only [sizeMax]; omega), if_neg (by simp only [sizeMax]; omega), size,
    if_neg (by omega), continueWrite, if_pos (by simp only [int32Max]; omega)]
  rfl

theorem Appending.notNull (appending : parcel.Appending bytes)
    (room : 0 < parcel.mDataCapacity) : parcel.mData ≠ none := by
  intro null
  have := appending.empty null
  omega

/-- `writeAligned` appends the bytes of the value, or changes nothing where the
buffer would have to grow beyond the limit. -/
theorem Appending.writeAligned_cases (appending : parcel.Appending bytes)
    (succeeds : heap.Succeeds) (val : List UInt8) (nonempty : 0 < val.length)
    (small : val.length ≤ int32Max) :
    ∃ value written, parcel.writeAligned heap val =
        some { value, parcel := written, effects := [] } ∧
      (value = noError ∧ written.Appending (bytes ++ val) ∨
        (parcel.mDataCapacity < bytes.length + val.length ∧
          int32Max < (bytes.length + val.length) * 3 / 2) ∧ written = parcel) := by
  have room := appending.room
  have capacity := appending.small
  have sum : sizeAdd parcel.mDataPos val.length = bytes.length + val.length := by
    rw [appending.pos]
    apply sizeAdd_eq
    simp only [int32Max] at small capacity
    omega
  have atCursor : ∀ (roomy : Parcel), roomy.Appending bytes →
      bytes.length + val.length ≤ roomy.mDataCapacity → roomy.mData ≠ none →
      ∃ stored written, roomy.store (roomy.ipcData + roomy.mDataPos) val = some stored ∧
        stored.finishWrite val.length = (noError, written) ∧
        written.Appending (bytes ++ val) := by
    intro roomy appended fits notNull
    obtain ⟨data, isData⟩ := Option.ne_none_iff_exists'.mp notNull
    obtain ⟨finished, done⟩ := appended.store_finish isData
      (fun i old => Mem.write_outside data.cells (.inl old))
      (Mem.read_write data.cells bytes.length val) fits
    have stored := roomy.store_eq isData (data.addr + bytes.length) val
    rw [Nat.add_sub_cancel_left, ← appended.cursor isData] at stored
    exact ⟨_, _, stored, finished, done⟩
  rw [Parcel.writeAligned, sum]
  by_cases fits : bytes.length + val.length ≤ parcel.mDataCapacity
  · rw [if_pos fits]
    obtain ⟨stored, written, isStored, isWritten, done⟩ :=
      atCursor parcel appending fits (appending.notNull (by omega))
    exact ⟨noError, written, by simp [isStored, isWritten], .inl ⟨rfl, done⟩⟩
  · rw [if_neg fits]
    rcases Nat.lt_or_ge int32Max ((bytes.length + val.length) * 3 / 2) with beyond | limit
    · exact ⟨badValue, parcel, by simp [appending.growData_beyond small beyond, badValue, noError,
        EINVAL], .inr ⟨⟨by omega, beyond⟩, rfl⟩⟩
    · obtain ⟨grown, isGrown, appended, roomy, notNull⟩ :=
        appending.growData succeeds (by omega) limit
      obtain ⟨stored, written, isStored, isWritten, done⟩ :=
        atCursor grown appended roomy notNull
      exact ⟨noError, written, by simp [isGrown, isStored, isWritten], .inl ⟨rfl, done⟩⟩

/-- `writeInt32` appends the four bytes of the value. -/
theorem Appending.writeInt32_cases (appending : parcel.Appending bytes)
    (succeeds : heap.Succeeds) (val : Int32) :
    ∃ value written, parcel.writeInt32 heap val =
        some { value, parcel := written, effects := [] } ∧
      (value = noError ∧ written.Appending (bytes ++ FlatRecord.int32.encode val) ∨
        (parcel.mDataCapacity < bytes.length + 4 ∧ int32Max < (bytes.length + 4) * 3 / 2) ∧
          written = parcel) := by
  have length : (FlatRecord.int32.encode val).length = 4 := FlatRecord.int32.encode_length val
  rw [← length]
  exact appending.writeAligned_cases succeeds _ (by omega) (by rw [length]; decide)

/-- The cells after `restart_write` has cleared the padding of the last word. -/
def clearedCells (cells : Nat → UInt8) (off len padded : Nat) : Nat → UInt8 :=
  Mem.write cells (off + padded - 4)
    ((Mem.read cells (off + padded - 4) 4).take (4 - (padded - len)) ++
      List.replicate (padded - len) 0)

/-- The cells after `write` has also copied its bytes. -/
def paddedCells (cells : Nat → UInt8) (off : Nat) (added : List UInt8) (padded : Nat) :
    Nat → UInt8 :=
  Mem.write (clearedCells cells off added.length padded) off added

theorem paddedCells_before (cells : Nat → UInt8) {off padded i : Nat} {added : List UInt8}
    (word : 4 ≤ padded) (before : i < off) : paddedCells cells off added padded i = cells i := by
  rw [paddedCells, clearedCells, Mem.write_outside _ (.inl before),
    Mem.write_outside _ (.inl (by omega))]

theorem paddedCells_after (cells : Nat → UInt8) {off padded i : Nat} {added : List UInt8}
    (word : 4 ≤ padded) (covers : added.length ≤ padded) (close : padded ≤ added.length + 3)
    (after : off + padded ≤ i) : paddedCells cells off added padded i = cells i := by
  rw [paddedCells, clearedCells, Mem.write_outside _ (.inr (by omega)), Mem.write_outside]
  right
  simp only [List.length_append, List.length_take, Mem.read_length, List.length_replicate]
  omega

/-- The bytes come first and zero bytes after them. -/
theorem read_paddedCells (cells : Nat → UInt8) (off : Nat) {added : List UInt8} {padded : Nat}
    (word : 4 ≤ padded) (covers : added.length ≤ padded) (close : padded ≤ added.length + 3) :
    Mem.read (paddedCells cells off added padded) off
        (added ++ List.replicate (padded - added.length) 0).length =
      added ++ List.replicate (padded - added.length) 0 := by
  apply List.ext_getElem
  · simp
  · intro i inRead inBytes
    rw [Mem.read_getElem, paddedCells]
    by_cases payload : i < added.length
    · rw [Mem.write_inside _ payload, List.getElem_append_left payload]
    · rw [List.length_append, List.length_replicate] at inBytes
      have offset : off + i = off + padded - 4 + (i - (padded - 4)) := by omega
      rw [Mem.write_outside _ (.inr (by omega)), offset, clearedCells,
        Mem.write_inside _ (by simp; omega), List.getElem_append_right (by simp; omega),
        List.getElem_replicate, List.getElem_append_right (by omega), List.getElem_replicate]

/-- `restart_write` and the copy after it, on a buffer with room: the bytes and their
padding are stored at the cursor, and nothing else is. -/
theorem restartWrite_store {data : Block UInt8} (isData : parcel.mData = some data)
    (mapped : 0 < data.addr) {added : List UInt8} (nonempty : added ≠ [])
    (bounded : added.length ≤ int32Max) (small : padSize added.length ≤ int32Max) :
    ∃ pointer reserved cells,
      parcel.restartWrite added.length (padSize added.length) = some (pointer, reserved) ∧
      pointer ≠ 0 ∧
      reserved.store pointer added =
        some ((parcel.withCells data cells).finishWrite (padSize added.length)).2 ∧
      (∀ i, i < parcel.mDataPos → cells i = data.cells i) ∧
      Mem.read cells parcel.mDataPos (added ++ padding added.length).length =
        added ++ padding added.length ∧
      ∀ i, parcel.mDataPos + padSize added.length ≤ i → cells i = data.cells i := by
  have positive := List.length_pos_iff.mpr nonempty
  have padded : padSize added.length = (added.length + 3) / 4 * 4 := padSize_eq bounded
  have address : parcel.ipcData = data.addr := by simp [ipcData, isData]
  by_cases aligned : padSize added.length = added.length
  · -- nothing to clear: the bytes are copied to the cursor
    have noPadding : padding added.length = [] := by simp [padding, aligned]
    rw [noPadding, List.append_nil]
    refine ⟨data.addr + parcel.mDataPos, (parcel.finishWrite added.length).2, _, ?_, by omega, ?_,
      fun i old => Mem.write_outside data.cells (.inl old),
      Mem.read_write data.cells parcel.mDataPos added, fun i after => ?_⟩
    · simp [Parcel.restartWrite, aligned, address]
    · rw [store_finishWrite _ isData bounded, Nat.add_sub_cancel_left, aligned]
    · exact Mem.write_outside data.cells (.inr (by omega))
  · -- the last word is cleared first, and the bytes are copied over it
    have word : data.addr + parcel.mDataPos + padSize added.length - 4 - data.addr =
        parcel.mDataPos + padSize added.length - 4 := by omega
    have reserved : parcel.restartWrite added.length (padSize added.length) =
        some (data.addr + parcel.mDataPos,
          ((parcel.withCells data (clearedCells data.cells parcel.mDataPos added.length
            (padSize added.length))).finishWrite (padSize added.length)).2) := by
      simp only [Parcel.restartWrite, if_pos aligned, isData, address, store_eq _ isData, word,
        Option.bind_eq_bind, Option.bind_some]
      rfl
    refine ⟨data.addr + parcel.mDataPos, _,
      paddedCells data.cells parcel.mDataPos added (padSize added.length), reserved, by omega, ?_,
      fun i old => paddedCells_before data.cells (by omega) old,
      read_paddedCells data.cells parcel.mDataPos (by omega) (by omega) (by omega),
      fun i after => paddedCells_after data.cells (by omega) (by omega) (by omega) after⟩
    rw [store_finishWrite _ rfl small, Nat.add_sub_cancel_left]
    rfl

/-- The same, where the Parcel has only been written to. -/
theorem Appending.restartWrite (appending : parcel.Appending bytes) {data : Block UInt8}
    (isData : parcel.mData = some data) {added : List UInt8} (nonempty : added ≠ [])
    (bounded : added.length ≤ int32Max)
    (fits : bytes.length + padSize added.length ≤ parcel.mDataCapacity) :
    ∃ pointer reserved written,
      parcel.restartWrite added.length (padSize added.length) = some (pointer, reserved) ∧
      pointer ≠ 0 ∧ reserved.store pointer added = some written ∧
      written.Appending (bytes ++ (added ++ padding added.length)) := by
  have padded : padSize added.length = (added.length + 3) / 4 * 4 := padSize_eq bounded
  have capacity := appending.small
  obtain ⟨pointer, reserved, cells, restarted, notZero, stored, before, held, _⟩ :=
    restartWrite_store isData (appending.block data isData).1 nonempty bounded (by omega)
  have total : (added ++ padding added.length).length = padSize added.length := by
    simp [padding]
    omega
  rw [appending.pos] at before held
  obtain ⟨_, done⟩ := appending.store_finish isData before held (by rwa [total])
  rw [total] at done
  exact ⟨pointer, reserved, _, restarted, notZero, stored, done⟩

/-- `write` appends its bytes and their padding, or changes nothing where the
buffer would have to grow beyond the limit. -/
theorem Appending.write_cases (appending : parcel.Appending bytes) (succeeds : heap.Succeeds)
    {added : List UInt8} (nonempty : added ≠ []) (bounded : added.length ≤ int32Max - 3) :
    ∃ value written, parcel.write heap added =
        some { value, parcel := written, effects := [] } ∧
      (value = noError ∧ written.Appending (bytes ++ (added ++ padding added.length)) ∨
        (parcel.mDataCapacity < bytes.length + padSize added.length ∧
          int32Max < (bytes.length + padSize added.length) * 3 / 2) ∧ written = parcel) := by
  have room := appending.room
  have capacity := appending.small
  have positive := List.length_pos_iff.mpr nonempty
  have small : added.length ≤ int32Max := by omega
  have padded : padSize added.length = (added.length + 3) / 4 * 4 := padSize_eq small
  have paddedSmall : padSize added.length ≤ int32Max := by
    simp only [int32Max] at *
    omega
  have sum : sizeAdd bytes.length (padSize added.length) =
      bytes.length + padSize added.length := by
    apply sizeAdd_eq
    simp only [int32Max] at *
    omega
  have noWrap : ¬ bytes.length + padSize added.length < bytes.length := by omega
  rw [Parcel.write, if_neg (Nat.not_lt.mpr small), writeInplace, if_neg (Nat.not_lt.mpr small)]
  simp only [appending.pos, sum, if_neg noWrap]
  by_cases fits : bytes.length + padSize added.length ≤ parcel.mDataCapacity
  · obtain ⟨data, isData⟩ := Option.ne_none_iff_exists'.mp (appending.notNull (by omega))
    obtain ⟨pointer, reserved, written, restarted, notZero, stored, done⟩ :=
      appending.restartWrite isData nonempty small fits
    refine ⟨noError, written, ?_, .inl ⟨rfl, done⟩⟩
    simp [if_pos fits, restarted, notZero, stored]
  · rcases Nat.lt_or_ge int32Max ((bytes.length + padSize added.length) * 3 / 2) with
      beyond | limit
    · refine ⟨parcel.mError, parcel, ?_, .inr ⟨⟨by omega, beyond⟩, rfl⟩⟩
      simp [if_neg fits, appending.growData_beyond paddedSmall beyond, badValue, noError, EINVAL]
    · obtain ⟨grown, isGrown, appended, roomy, notNull⟩ :=
        appending.growData succeeds (by omega) limit
      obtain ⟨data, isData⟩ := Option.ne_none_iff_exists'.mp notNull
      obtain ⟨pointer, reserved, written, restarted, notZero, stored, done⟩ :=
        appended.restartWrite isData nonempty small roomy
      refine ⟨noError, written, ?_, .inl ⟨rfl, done⟩⟩
      simp [if_neg fits, isGrown, restarted, notZero, stored]

end Append

end Parcel

end DroidKernal.Binder
