import DroidKernal.Lib.Run
import DroidKernal.Log.Write

/-!
# Unread records

`Pending log off records` says that the ring, read from `off`, contains exactly
`records` and that their end is `w_off`.  It is the representation invariant of
one reader offset, and of `head`: a write that does not run over the offset
appends its record, a read at the offset takes the first one.
-/

namespace DroidKernal.Log

open Lib

/-- The bytes of consecutive records. -/
def recordsBytes (records : List Record) : List UInt8 :=
  records.flatMap Record.bytes

@[simp] theorem recordsBytes_nil : recordsBytes [] = [] := rfl

@[simp] theorem recordsBytes_cons (record : Record) (records : List Record) :
    recordsBytes (record :: records) = record.bytes ++ recordsBytes records := rfl

@[simp] theorem recordsBytes_append (left right : List Record) :
    recordsBytes (left ++ right) = recordsBytes left ++ recordsBytes right := by
  simp [recordsBytes]

/-- Bytes between an offset and `w_off`. -/
def unread (log : LoggerLog) (off : Nat) : Nat :=
  (log.wOff + log.size - off) % log.size

/-- The records from `off` up to `w_off`. -/
structure Pending (log : LoggerLog) (off : Nat) (records : List Record) : Prop where
  inRing : off < log.size
  held : Ring.Holds log.size log.buffer off (recordsBytes records)
  ends : (off + (recordsBytes records).length) % log.size = log.wOff
  room : (recordsBytes records).length < log.size
  wellFormed : ∀ record ∈ records, record.WellFormed

namespace Pending

variable {log : LoggerLog} {off : Nat} {record : Record} {records : List Record}

/-- An offset at `w_off` has nothing to read. -/
theorem nil_of_eq (valid : log.Valid) (atEnd : off = log.wOff) : Pending log off [] where
  inRing := atEnd ▸ valid.wOffInRing
  held := Ring.Holds.nil
  ends := by
    subst atEnd
    exact Nat.mod_eq_of_lt valid.wOffInRing
  room := valid.sizePos
  wellFormed := by simp

theorem unread_eq (pending : Pending log off records) :
    unread log off = (recordsBytes records).length := by
  rw [unread, ← pending.ends]
  exact Ring.forward_distance pending.inRing pending.room

/-- Something is pending exactly when the offset is not `w_off`. -/
theorem ne_wOff_iff (pending : Pending log off records) :
    log.wOff ≠ off ↔ records ≠ [] := by
  have inRing := pending.inRing
  have room := pending.room
  constructor
  · rintro differs rfl
    apply differs
    rw [← pending.ends]
    exact Nat.mod_eq_of_lt inRing
  · intro nonempty atEnd
    cases records with
    | nil => exact nonempty rfl
    | cons record rest =>
        have distinct :
            off % log.size ≠ (off + (recordsBytes (record :: rest)).length) % log.size :=
          Ring.mod_ne (by simp [sizeofLoggerEntry]) (by omega)
        rw [pending.ends, Nat.mod_eq_of_lt inRing] at distinct
        exact distinct atEnd.symm

theorem head_held (pending : Pending log off (record :: records)) :
    Ring.Holds log.size log.buffer off record.bytes :=
  (Ring.holds_append.mp pending.held).1

theorem head_fits (pending : Pending log off (record :: records)) :
    record.bytes.length < log.size := by
  have := pending.room
  rw [recordsBytes_cons, List.length_append] at this
  omega

/-- The header in front of an offset is that of the first pending record. -/
theorem getEntryHeader_eq (pending : Pending log off (record :: records)) :
    getEntryHeader log off = record.header := by
  have fits := pending.head_fits
  rw [Record.bytes_length] at fits
  exact Log.getEntryHeader_eq pending.inRing pending.head_held (by omega)

/-- The distance to the next record is the record's length. -/
theorem getEntryMsgLen_eq (pending : Pending log off (record :: records)) :
    sizeofLoggerEntry + getEntryMsgLen log off = record.bytes.length := by
  rw [getEntryMsgLen, pending.getEntryHeader_eq,
    (pending.wellFormed record (by simp)).len_eq, Record.bytes_length]

/-- Stepping over the first record. -/
theorem tail (pending : Pending log off (record :: records)) :
    Pending log ((off + record.bytes.length) % log.size) records where
  inRing := Nat.mod_lt _ (Nat.lt_of_le_of_lt (Nat.zero_le _) pending.inRing)
  held := Ring.holds_mod.mpr (Ring.holds_append.mp pending.held).2
  ends := by
    rw [Nat.mod_add_mod, ← pending.ends, recordsBytes_cons, List.length_append,
      Nat.add_assoc]
  room := by
    have := pending.room
    rw [recordsBytes_cons, List.length_append] at this
    omega
  wellFormed other member := pending.wellFormed other (by simp [member])

/-- A write that stays clear of the pending bytes keeps them, whether or not it
completes. -/
theorem frame (pending : Pending log off records) (valid : log.Valid)
    {buffer : Nat → UInt8} {len : Nat}
    (agrees : Ring.AgreesOutside log.size log.wOff len log.buffer buffer)
    (clear : unread log off + len ≤ log.size) :
    Ring.Holds log.size buffer off (recordsBytes records) := by
  rw [pending.unread_eq] at clear
  have shifted : Ring.AgreesOutside log.size (off + (recordsBytes records).length) len
      log.buffer buffer := by
    rw [← Ring.agreesOutside_mod, pending.ends]
    exact agrees
  exact pending.held.frame valid.sizePos shifted (by omega) (by omega)

/-- The open readers do not matter to one offset. -/
theorem withReaders (pending : Pending log off records) (readers : List LoggerReader) :
    Pending { log with readers } off records :=
  ⟨pending.inRing, pending.held, pending.ends, pending.room, pending.wellFormed⟩

/-- A write that fails leaves the same records pending. -/
theorem keep (pending : Pending log off records) (valid : log.Valid)
    {buffer : Nat → UInt8} {len : Nat}
    (agrees : Ring.AgreesOutside log.size log.wOff len log.buffer buffer)
    (clear : unread log off + len ≤ log.size) :
    Pending { log with buffer } off records :=
  { pending with held := pending.frame valid agrees clear }

/-- A write that completes appends its record. -/
theorem push (pending : Pending log off records) (valid : log.Valid)
    (wellFormed : record.WellFormed) {buffer : Nat → UInt8}
    (agrees : Ring.AgreesOutside log.size log.wOff record.bytes.length log.buffer buffer)
    (stored : Ring.Holds log.size buffer log.wOff record.bytes)
    (clear : unread log off + record.bytes.length < log.size) :
    Pending
      { log with buffer, wOff := (log.wOff + record.bytes.length) % log.size }
      off (records ++ [record]) where
  inRing := pending.inRing
  held := by
    rw [recordsBytes_append, Ring.holds_append]
    refine ⟨pending.frame valid agrees (by omega), ?_⟩
    rw [← Ring.holds_mod, pending.ends]
    simpa using stored
  ends := by
    rw [← pending.ends, Nat.mod_add_mod]
    simp [Nat.add_assoc]
  room := by
    rw [pending.unread_eq] at clear
    simpa using clear
  wellFormed other member := by
    rcases List.mem_append.mp member with old | new
    · exact pending.wellFormed other old
    · rw [List.mem_singleton.mp new]
      exact wellFormed

/-- A write that fills the ring up to the offset makes it equal to `w_off`
again. -/
theorem push_full (pending : Pending log off records)
    (full : unread log off + record.bytes.length = log.size) :
    (log.wOff + record.bytes.length) % log.size = off := by
  rw [pending.unread_eq] at full
  rw [← pending.ends, Nat.mod_add_mod, Nat.add_assoc, full, Nat.add_mod_right]
  exact Nat.mod_eq_of_lt pending.inRing

end Pending

end DroidKernal.Log
