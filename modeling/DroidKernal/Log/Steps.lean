import DroidKernal.Log.Pending

/-!
# What one call can do to a log

Inversion lemmas for the three calls.  Every invariant of runs below is derived
from them; none unfolds the driver again.
-/

namespace DroidKernal.Log

open Lib

/-- The effect of a write on a valid log in which its record fits. -/
inductive WriteEffect (log : LoggerLog) (current : Task) (now realNow : Nat)
    (source : IovIter) : Int → LoggerLog → Prop where
  | empty : writeCount source = 0 → WriteEffect log current now realNow source 0 log
  | fault (buffer : Nat → UInt8) :
      Ring.AgreesOutside log.size log.wOff (sizeofLoggerEntry + writeCount source)
        log.buffer buffer →
      WriteEffect log current now realNow source (-EFAULT) { log with buffer }
  | stored (buffer : Nat → UInt8) (ret : Int) :
      0 < ret → 0 < writeCount source →
      Ring.AgreesOutside log.size log.wOff
        (requestRecord current now realNow source).bytes.length log.buffer buffer →
      Ring.Holds log.size buffer log.wOff (requestRecord current now realNow source).bytes →
      WriteEffect log current now realNow source ret
        { log with
          buffer
          wOff := (log.wOff + (requestRecord current now realNow source).bytes.length)
            % log.size }

section Write

variable {log : LoggerLog}

theorem payloadHead_pos {source : IovIter} (valid : log.Valid)
    (positive : 0 < writeCount source) :
    0 < payloadHead log source := by
  have inRing : loggerOffset log (log.wOff + sizeofLoggerEntry) < log.size := by
    rw [valid.loggerOffset_eq]
    exact Nat.mod_lt _ valid.sizePos
  rw [payloadHead]
  omega

/-- A write can only be empty, fault, or complete. -/
theorem loggerWriteIter_effect (valid : log.Valid) (current : Task) (now realNow : Nat)
    (source : IovIter) (fits : sizeofLoggerEntry + writeCount source ≤ log.size) :
    WriteEffect log current now realNow source
      (loggerWriteIter log current now realNow source).ret
      (loggerWriteIter log current now realNow source).log := by
  rcases Nat.eq_zero_or_pos (writeCount source) with empty | positive
  · rw [loggerWriteIter_empty log current now realNow empty]
    exact .empty empty
  · rcases Nat.lt_or_ge source.readable (writeCount source) with short | complete
    · rw [loggerWriteIter_fault log current now realNow short]
      exact .fault _ (storeRecord_agrees valid _ fits)
    · rw [loggerWriteIter_stored log current now realNow positive complete]
      have ends : loggerOffset log
          (loggerOffset log (log.wOff + sizeofLoggerEntry) + writeCount source) =
          (log.wOff + (requestRecord current now realNow source).bytes.length) %
            log.size := by
        rw [valid.loggerOffset_eq, valid.loggerOffset_eq, Nat.mod_add_mod,
          requestRecord_bytes_length, Nat.add_assoc]
      simp only [ends]
      refine .stored _ _ ?_ positive ?_ ?_
      · exact_mod_cast payloadHead_pos valid positive
      · rw [requestRecord_bytes_length]
        exact storeRecord_agrees valid _ fits
      · exact storeRecord_holds valid current now realNow fits complete

/-- A write of a nonempty payload that can be fetched succeeds. -/
theorem loggerWriteIter_complete (valid : log.Valid) (current : Task) (now realNow : Nat)
    {source : IovIter} (positive : 0 < writeCount source)
    (complete : writeCount source ≤ source.readable)
    (fits : sizeofLoggerEntry + writeCount source ≤ log.size) :
    let result := loggerWriteIter log current now realNow source
    0 < result.ret ∧
      result.log.wOff = (log.wOff + (sizeofLoggerEntry + writeCount source)) % log.size ∧
      Ring.Holds log.size result.log.buffer log.wOff
        (requestRecord current now realNow source).bytes := by
  intro result
  simp only [result, loggerWriteIter_stored log current now realNow positive complete]
  refine ⟨by exact_mod_cast payloadHead_pos valid positive, ?_,
    storeRecord_holds valid current now realNow fits complete⟩
  rw [valid.loggerOffset_eq, valid.loggerOffset_eq, Nat.mod_add_mod, Nat.add_assoc]

/-- Writes keep the size, the head and the readers, and move `w_off` only inside
the ring. -/
theorem loggerWriteIter_keeps (current : Task) (now realNow : Nat) (source : IovIter)
    (valid : log.Valid) :
    (loggerWriteIter log current now realNow source).log.Valid ∧
      (loggerWriteIter log current now realNow source).log.size = log.size ∧
      (loggerWriteIter log current now realNow source).log.head = log.head ∧
      (loggerWriteIter log current now realNow source).log.readers = log.readers := by
  rcases Nat.eq_zero_or_pos (writeCount source) with empty | positive
  · rw [loggerWriteIter_empty log current now realNow empty]
    exact ⟨valid, rfl, rfl, rfl⟩
  · rcases Nat.lt_or_ge source.readable (writeCount source) with short | complete
    · rw [loggerWriteIter_fault log current now realNow short]
      exact ⟨⟨valid.sizePow, valid.wOffInRing⟩, rfl, rfl, rfl⟩
    · rw [loggerWriteIter_stored log current now realNow positive complete]
      refine ⟨⟨valid.sizePow, ?_⟩, rfl, rfl, rfl⟩
      simp only [valid.loggerOffset_eq]
      exact Nat.mod_lt _ valid.sizePos

end Write

section Read

variable {log : LoggerLog} {reader : LoggerReader} {record : Record} {rest : List Record}

/-- The part of `logger_read` after the scan for an own record. -/
def readAt (log : LoggerLog) (reader : LoggerReader) (user : UserBuffer) (count : Nat) :
    ReadResult × LoggerReader :=
  if log.wOff = reader.rOff then (.wait, reader)
  else if count < getUserHdrLen reader.rVer + getEntryMsgLen log reader.rOff then
    (.error (-EINVAL), reader)
  else
    doReadLogToUser log reader user
      (getUserHdrLen reader.rVer + getEntryMsgLen log reader.rOff)

/-- Where the scan of a read ends. -/
def scanOff (log : LoggerLog) (reader : LoggerReader) (euid : UInt32) : Option Nat :=
  if reader.rAll then some reader.rOff
  else getNextEntryByUid log euid (scanFuel log) reader.rOff

theorem loggerRead_eq (log : LoggerLog) (reader : LoggerReader) (euid : UInt32)
    (user : UserBuffer) (count : Nat) :
    loggerRead log reader euid user count =
      (scanOff log reader euid).map fun rOff => readAt log { reader with rOff } user count :=
  rfl

theorem readAt_nil (pending : Pending log reader.rOff []) (user : UserBuffer) (count : Nat) :
    readAt log reader user count = (.wait, reader) := by
  have atEnd : log.wOff = reader.rOff := by
    by_contra differs
    exact pending.ne_wOff_iff.mp differs rfl
  simp [readAt, atEnd]

/-- A read at an intact record fails and changes nothing, or returns the record
and steps over it. -/
theorem readAt_held (valid : log.Valid) (notEnd : log.wOff ≠ reader.rOff)
    (inRing : reader.rOff < log.size)
    (held : Ring.Holds log.size log.buffer reader.rOff record.bytes)
    (len_eq : record.header.len.toNat = record.payload.length)
    (fits : record.bytes.length ≤ log.size) (user : UserBuffer) (count : Nat) :
    ((count < record.bytes.length ∨ user.writable < record.bytes.length) ∧
      ∃ errno, readAt log reader user count = (.error errno, reader)) ∨
    (record.bytes.length ≤ count ∧
      readAt log reader user count =
        (.data record.bytes,
          { reader with rOff := (reader.rOff + record.bytes.length) % log.size })) := by
  have total := record.bytes_length
  have length : sizeofLoggerEntry + getEntryMsgLen log reader.rOff =
      record.bytes.length := by
    rw [getEntryMsgLen, getEntryHeader_eq inRing held (by omega), len_eq, total]
  simp only [readAt, getUserHdrLen, if_neg notEnd, length]
  by_cases small : count < record.bytes.length
  · rw [if_pos small]
    exact .inl ⟨.inl small, _, rfl⟩
  · rw [if_neg small]
    rcases doReadLogToUser_eq valid inRing held fits user with
      ⟨unreachable, failed⟩ | returned
    · exact .inl ⟨.inr unreachable, _, failed⟩
    · exact .inr ⟨by omega, returned⟩

/-- The case of a record that is pending. -/
theorem readAt_cons (valid : log.Valid) (pending : Pending log reader.rOff (record :: rest))
    (user : UserBuffer) (count : Nat) :
    ((count < record.bytes.length ∨ user.writable < record.bytes.length) ∧
      ∃ errno, readAt log reader user count = (.error errno, reader)) ∨
    (record.bytes.length ≤ count ∧
      readAt log reader user count =
        (.data record.bytes,
          { reader with rOff := (reader.rOff + record.bytes.length) % log.size })) :=
  readAt_held valid (pending.ne_wOff_iff.mpr (by simp)) pending.inRing pending.head_held
    (pending.wellFormed record (by simp)).len_eq pending.head_fits.le user count

end Read

/-- The call of an event was made and its reply is the recorded one. -/
theorem LoggerLog.step_read_iff {log next : LoggerLog} {index : Nat} {euid : UInt32}
    {user : UserBuffer} {count : Nat} {reply : Reply} :
    log.Step (.read index euid user count, reply) next ↔
      ∃ reader rOff, log.readers[index]? = some reader ∧
        scanOff log reader euid = some rOff ∧
        next = { log with
          readers := log.readers.set index (readAt log { reader with rOff } user count).2 } ∧
        reply = .read (readAt log { reader with rOff } user count).1 := by
  simp only [LoggerLog.Step, LoggerLog.call, Option.bind_eq_bind]
  cases log.readers[index]? with
  | none => simp
  | some reader =>
      rw [Option.bind_some, loggerRead_eq]
      cases scan : scanOff log reader euid with
      | none => simp [scan]
      | some rOff =>
          simp only [Option.map_some, Option.bind_some]
          constructor
          · intro returned
            obtain ⟨rfl, rfl⟩ := Prod.mk.inj (Option.some.inj returned)
            exact ⟨reader, rOff, rfl, scan, rfl, rfl⟩
          · rintro ⟨_, _, sameReader, sameScan, rfl, rfl⟩
            cases sameReader
            rw [scan] at sameScan
            cases sameScan
            rfl

/-- Every call keeps a log valid and its size and head unchanged. -/
theorem LoggerLog.Step.keeps {log next : LoggerLog} {event : Call × Reply}
    (step : log.Step event next) (valid : log.Valid) :
    next.Valid ∧ next.size = log.size ∧ next.head = log.head := by
  obtain ⟨call, reply⟩ := event
  cases call with
  | openLog inEgroup capSyslog =>
      simp only [LoggerLog.Step, LoggerLog.call] at step
      cases step
      exact ⟨⟨valid.sizePow, valid.wOffInRing⟩, rfl, rfl⟩
  | write current now realNow source =>
      simp only [LoggerLog.Step, LoggerLog.call] at step
      cases step
      obtain ⟨valid', size, head, _⟩ :=
        loggerWriteIter_keeps current now realNow source valid
      exact ⟨valid', size, head⟩
  | read index euid user count =>
      obtain ⟨_, _, _, _, rfl, _⟩ := LoggerLog.step_read_iff.mp step
      exact ⟨⟨valid.sizePow, valid.wOffInRing⟩, rfl, rfl⟩

/-- Every reachable log is valid. -/
theorem run_valid {buffer : Nat → UInt8} {size : Nat} {events : List (Call × Reply)}
    {log : LoggerLog} (power : ∃ k, size = 2 ^ k)
    (run : Run LoggerLog.Step (createLog buffer size) events log) :
    log.Valid ∧ log.size = size := by
  refine run.invariant (fun log => log.Valid ∧ log.size = size)
    ⟨createLog_valid buffer power, rfl⟩ ?_
  intro state event next invariant step
  obtain ⟨valid, sameSize, _⟩ := step.keeps invariant.1
  exact ⟨valid, sameSize.trans invariant.2⟩

/-- The record that a write call stored, if it reports success. -/
def storedRecord : Call × Reply → Option Record
  | (.write current now realNow source, .wrote ret) =>
      if 0 < ret then some (requestRecord current now realNow source) else none
  | _ => none

/-- A write that stays clear of the pending records keeps them, and appends its own if
it reports success. -/
theorem Pending.write {log : LoggerLog} {off : Nat} {records : List Record}
    (pending : Pending log off records) (valid : log.Valid) (current : Task)
    (now realNow : Nat) {source : IovIter}
    (clear : unread log off + sizeofLoggerEntry + writeCount source < log.size) :
    let result := loggerWriteIter log current now realNow source
    Pending result.log off
      (records ++ (storedRecord (.write current now realNow source, .wrote result.ret)).toList) := by
  have effect := loggerWriteIter_effect valid current now realNow source (by omega)
  generalize loggerWriteIter log current now realNow source = result at effect
  obtain ⟨ret, next, accesses⟩ := result
  simp only at effect
  cases effect with
  | empty => simpa [storedRecord] using pending
  | fault buffer agrees =>
      simpa [storedRecord, EFAULT] using pending.keep valid agrees (by omega)
  | stored buffer ret positive nonempty agrees held =>
      simp only [storedRecord, if_pos positive, Option.toList_some]
      have wellFormed := requestRecord_wellFormed current now realNow nonempty
      exact pending.push valid wellFormed agrees held (by simp; omega)

/-- The header of a stored record gives the length of its payload. -/
theorem storedRecord_len {event : Call × Reply} {record : Record}
    (stored : storedRecord event = some record) :
    record.header.len.toNat = record.payload.length := by
  unfold storedRecord at stored
  split at stored
  next current now realNow source ret =>
    split at stored
    next =>
      cases stored
      exact requestRecord_len current now realNow source
    next => cases stored
  next => cases stored

/-- The offset after the entry at `off`, by the length in its header. -/
def nextEntry (log : LoggerLog) (off : Nat) : Nat :=
  loggerOffset log (off + sizeofLoggerEntry + getEntryMsgLen log off)

/-- A uid scan from `off` stops there, or after one entry that lies at offset zero. -/
def ScanAligned (log : LoggerLog) (euid : UInt32) (off : Nat) : Prop :=
  log.wOff = off ∨ (getEntryHeader log off).euid = euid ∨
    off = 0 ∧ (log.wOff = nextEntry log 0 ∨ (getEntryHeader log (nextEntry log 0)).euid = euid)

/-- The bytes that a read call of one reader returned, if it reports success. -/
def readBytes (index : Nat) : Call × Reply → Option (List UInt8)
  | (.read reader _ _ _, .read (.data bytes)) => if reader = index then some bytes else none
  | _ => none

end DroidKernal.Log
