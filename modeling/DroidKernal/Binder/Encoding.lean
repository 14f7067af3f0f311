import DroidKernal.Binder.Append

/-!
# The encoding of a written Parcel

What a Parcel holds after it was only written to: the bytes of each item in the
order of the calls, each followed by the zero bytes that pad it.  The bytes are a
function of the items alone, so it does not matter in which of the calls the
buffer was allocated or moved.
-/

namespace DroidKernal.Binder

open Lib

namespace Parcel

/-- What one call appends: `write(data, len)` or `writeInt32(val)`. -/
inductive Item where
  | data (bytes : List UInt8)
  | int32 (val : Int32)

namespace Item

/-- The call. -/
def append (heap : Heap) (parcel : Parcel) : Item → Option (Outcome Int)
  | .data bytes => parcel.write heap bytes
  | .int32 val => parcel.writeInt32 heap val

/-- The item and the zero bytes that pad it. -/
def encoding : Item → List UInt8
  | .data bytes => bytes ++ List.replicate ((4 - bytes.length % 4) % 4) 0
  | .int32 val => FlatRecord.int32.encode val

/-- The length of an item, rounded up to a multiple of four. -/
def paddedLength : Item → Nat
  | .data bytes => (bytes.length + 3) / 4 * 4
  | .int32 _ => 4

theorem encoding_length (item : Item) : item.encoding.length = item.paddedLength := by
  cases item with
  | data bytes =>
      rw [encoding, paddedLength, List.length_append, List.length_replicate]
      omega
  | int32 val => exact FlatRecord.int32.encode_length val

end Item

/-- The calls in order: the values they return and the Parcel they leave behind. -/
def appendAll : List (Heap × Item) → Parcel → Option (List Int × Parcel)
  | [], parcel => some ([], parcel)
  | (heap, item) :: calls, parcel => do
      let outcome ← item.append heap parcel
      let (values, parcel) ← appendAll calls outcome.parcel
      return (outcome.value :: values, parcel)

/-- A call that has to grow the buffer requests at most `INT32_MAX` bytes. -/
def GrowthBelow : List (Heap × Item) → Parcel → Prop
  | [], _ => True
  | (heap, item) :: calls, parcel =>
      (parcel.mDataCapacity < parcel.mDataPos + item.paddedLength →
        (parcel.mDataSize + item.paddedLength) * 3 / 2 ≤ int32Max) ∧
      ∀ outcome, item.append heap parcel = some outcome → GrowthBelow calls outcome.parcel

/-- The bytes `[0, dataSize())`. -/
def contents (parcel : Parcel) : List UInt8 :=
  match parcel.mData with
  | none => []
  | some data => Mem.read data.cells 0 parcel.dataSize

section Append

variable {parcel : Parcel} {bytes : List UInt8} {heap : Heap}

theorem padding_eq {len : Nat} (small : len ≤ int32Max) :
    padding len = List.replicate ((4 - len % 4) % 4) 0 := by
  rw [padding, padSize_eq small]
  congr 1
  omega

/-- Writing no bytes changes nothing, also where there is no buffer yet. -/
theorem Appending.write_nil (appending : parcel.Appending bytes) :
    parcel.write heap [] = some { value := noError, parcel, effects := [] } := by
  have room := appending.room
  have small := appending.small
  have noPadding : padSize 0 = 0 := rfl
  have sum : sizeAdd bytes.length 0 = bytes.length := by
    apply sizeAdd_eq
    simp only [int32Max] at small
    omega
  have finished : (parcel.finishWrite 0).2 = parcel := by
    have pos : sizeAdd parcel.mDataPos 0 = parcel.mDataPos := by rw [appending.pos, sum]
    have size : max parcel.mDataSize parcel.mDataPos = parcel.mDataSize := by
      rw [appending.size, appending.pos, Nat.max_self]
    rw [finishWrite_eq parcel (Nat.zero_le _), pos, size]
  have restarted : parcel.restartWrite 0 0 = some (parcel.ipcData + bytes.length, parcel) := by
    rw [Parcel.restartWrite, if_neg (by simp), finished, appending.pos]
    rfl
  have reserved : parcel.writeInplace heap 0 =
      some { value := parcel.ipcData + bytes.length, parcel, effects := [] } := by
    rw [writeInplace, if_neg (Nat.not_lt_zero _)]
    simp [noPadding, appending.pos, sum, room, restarted]
  rw [write, List.length_nil, if_neg (Nat.not_lt_zero _), reserved]
  -- a null pointer makes `write` return `mError`, which is not set
  simp [store, appending.error]

/-- One call appends the encoding of its item. -/
theorem Appending.append_item (appending : parcel.Appending bytes) (succeeds : heap.Succeeds)
    (item : Item)
    (below : parcel.mDataCapacity < parcel.mDataPos + item.paddedLength →
      (parcel.mDataSize + item.paddedLength) * 3 / 2 ≤ int32Max) :
    ∃ written, item.append heap parcel =
        some { value := noError, parcel := written, effects := [] } ∧
      written.Appending (bytes ++ item.encoding) := by
  have pos := appending.pos
  have size := appending.size
  have room := appending.room
  have capacity := appending.small
  cases item with
  | data added =>
      simp only [Item.paddedLength, pos, size] at below
      by_cases empty : added = []
      · subst empty
        exact ⟨parcel, appending.write_nil, by simpa [Item.encoding] using appending⟩
      · have small : added.length ≤ int32Max - 3 := by
          simp only [int32Max] at below capacity ⊢
          omega
        have padded : padSize added.length = (added.length + 3) / 4 * 4 :=
          padSize_eq (by omega)
        obtain ⟨value, written, isWritten, ⟨rfl, done⟩ | ⟨⟨full, beyond⟩, _⟩⟩ :=
          appending.write_cases succeeds empty small
        · rw [padding_eq (by omega)] at done
          exact ⟨written, isWritten, done⟩
        · rw [padded] at full beyond
          exact absurd (below full) (Nat.not_le.mpr beyond)
  | int32 val =>
      simp only [Item.paddedLength, pos, size] at below
      obtain ⟨value, written, isWritten, ⟨rfl, done⟩ | ⟨⟨full, beyond⟩, _⟩⟩ :=
        appending.writeInt32_cases succeeds val
      · exact ⟨written, isWritten, done⟩
      · exact absurd (below full) (Nat.not_le.mpr beyond)

/-- The calls append the encodings of their items. -/
theorem Appending.appendAll (calls : List (Heap × Item)) {parcel : Parcel} {bytes : List UInt8}
    (appending : parcel.Appending bytes) (succeed : ∀ call ∈ calls, call.1.Succeeds)
    (below : GrowthBelow calls parcel) :
    ∃ values written, Parcel.appendAll calls parcel = some (values, written) ∧
      (∀ value ∈ values, value = noError) ∧
      written.Appending (bytes ++ calls.flatMap fun call => call.2.encoding) := by
  induction calls generalizing parcel bytes with
  | nil => exact ⟨[], parcel, rfl, by simp, by simpa using appending⟩
  | cons call calls ih =>
      obtain ⟨heap, item⟩ := call
      obtain ⟨belowNow, belowLater⟩ := below
      obtain ⟨next, appended, nextAppending⟩ :=
        appending.append_item (succeed _ (List.mem_cons_self ..)) item belowNow
      obtain ⟨values, written, rest, noErrors, done⟩ :=
        ih nextAppending (fun call member => succeed call (List.mem_cons_of_mem _ member))
          (belowLater _ appended)
      refine ⟨noError :: values, written, by simp [Parcel.appendAll, appended, rest], ?_, ?_⟩
      · intro value member
        rcases List.mem_cons.mp member with rfl | later
        · rfl
        · exact noErrors value later
      · rwa [List.flatMap_cons, ← List.append_assoc]

end Append

end Parcel

end DroidKernal.Binder
