import DroidKernal.Lib.CString
import DroidKernal.Log.Overrun

/-!
# A log line from `__droid_log_buf_write` to LogPrinter

The writer sends a priority character, a tag and a message as one payload; the
printer asks for one record of at most `LOGGER_ENTRY_MAX_LEN` bytes and takes
the three apart again.  The driver caps the payload at 4096 bytes without its
header, the printer's buffer holds 4096 bytes with it.
-/

namespace DroidKernal.Log

open Lib

/-- `DROID_LOG_WARN`. -/
def droidLogWarn : Int32 := 5

/-- The size that `logger_init` gives the main log. -/
def mainLogSize : Nat := 512 * 1024

/-- `LOGGER_ENTRY_MAX_LEN` of LogPrinter's `logger.h`. -/
def loggerEntryMaxLen : Nat := 4 * 1024

/-- `ignoreTag`: tags that are logged from `DROID_LOG_WARN` on only. -/
def ignoreTag : List (List UInt8) :=
  ["RefBase.h", "RefBase.cpp", "StrongPointer.h"].map fun tag =>
    tag.toList.map fun char => UInt8.ofNat char.toNat

/-- The first byte of `priority` after `priority += '0'`. -/
def priorityByte (priority : Int32) : UInt8 :=
  (priority + 48).toUInt32.toUInt8

/-- `__droid_log_buf_write`: the arguments of its call of `write_to_log`, unless
it returns zero before. -/
def droidLogBufWrite (bufID priority : Int32) (tag : Option CString) (msg : CString) :
    Option (Int32 × List (List UInt8)) :=
  match tag with
  | none => none
  | some tag =>
      if ignoreTag.any fun ignored => priority < droidLogWarn && ignored = tag.bytes then none
      else some (bufID, [[priorityByte priority], tag.terminated, msg.terminated])

/-- What LogPrinter takes out of a record. -/
structure LogLine where
  priority : UInt8
  tag : List UInt8
  msg : List UInt8
  deriving DecidableEq, Repr

/-- The memory of LogPrinter's `entry` after a `read` of `bytes`. -/
def received (memory bytes : List UInt8) : List UInt8 :=
  bytes ++ memory.drop bytes.length

/-- LogPrinter's `tag`, `msg` and `priority`.  There is no result if one of them
runs out of `entry`. -/
def parseEntry (entry : List UInt8) : Option LogLine := do
  let payload := entry.drop sizeofLoggerEntry
  let tag ← CString.scan (payload.drop 1)
  let msg ← CString.scan (payload.drop (1 + tag.length + 1))
  let priority ← payload.head?
  return { priority, tag, msg }

/-- The payload length of a line. -/
def lineLength (tag msg : CString) : Nat :=
  1 + (tag.strlen + 1) + (msg.strlen + 1)

/-- LogPrinter received a record and takes the line out of it; the message may be
cut where the driver had to cut the payload. -/
def Delivered (priority : Int32) (tag msg : CString) (memory : List UInt8)
    (result : ReadResult) : Prop :=
  ∃ bytes line, result = .data bytes ∧ parseEntry (received memory bytes) = some line ∧
    line.priority = priorityByte priority ∧ line.tag = tag.bytes ∧
    (line.msg = msg.bytes ∨
      loggerEntryMaxPayload < lineLength tag msg ∧ line.msg <+: msg.bytes ∧
        sizeofLoggerEntry + 1 + (tag.strlen + 1) + line.msg.length ≤ bytes.length)

section Parse

variable {priority : Int32} {tag msg : CString}

/-- The line is taken out of a complete record, whatever follows it. -/
theorem parseEntry_line {header : List UInt8} (length : header.length = sizeofLoggerEntry)
    (rest : List UInt8) :
    parseEntry (header ++ (priorityByte priority :: (tag.terminated ++ msg.terminated)) ++ rest) =
      some { priority := priorityByte priority, tag := tag.bytes, msg := msg.bytes } := by
  have payload : (header ++ (priorityByte priority :: (tag.terminated ++ msg.terminated)) ++
      rest).drop sizeofLoggerEntry =
      priorityByte priority :: (tag.terminated ++ (msg.terminated ++ rest)) := by
    rw [List.append_assoc, List.drop_left' length]
    simp
  have afterTag : (tag.terminated ++ (msg.terminated ++ rest)).drop (1 + tag.bytes.length) =
      msg.terminated ++ rest := by
    apply List.drop_left'
    rw [CString.terminated_length, CString.strlen, Nat.add_comm]
  simp only [parseEntry, payload, List.drop_succ_cons, List.drop_zero, CString.scan_terminated,
    Option.bind_eq_bind, Option.bind_some, afterTag, List.head?_cons]
  rfl

/-- What a line sends to the driver. -/
theorem droidLogBufWrite_eq {bufID logId : Int32} {vec : List (List UInt8)}
    (sent : droidLogBufWrite bufID priority (some tag) msg = some (logId, vec)) :
    vec.flatten = priorityByte priority :: (tag.terminated ++ msg.terminated) := by
  rw [droidLogBufWrite] at sent
  split at sent
  next => cases sent
  next =>
    cases sent
    simp

end Parse

section Delivery

variable {log : LoggerLog} {priority : Int32} {tag msg : CString} {source : IovIter}

/-- The scan of a reader that may read the record at its offset stays there. -/
theorem scanOff_entitled {reader : LoggerReader} {record : Record} {euid : UInt32}
    (inRing : reader.rOff < log.size)
    (held : Ring.Holds log.size log.buffer reader.rOff record.bytes)
    (fits : sizeofLoggerEntry ≤ log.size) (unread : reader.rOff ≠ log.wOff)
    (entitled : reader.rAll = true ∨ record.header.euid = euid) :
    scanOff log reader euid = some reader.rOff := by
  rw [scanOff]
  cases privileged : reader.rAll with
  | true => rfl
  | false =>
      rcases entitled with all | own
      · rw [privileged] at all
        cases all
      · simp only [scanFuel, getNextEntryByUid, Bool.false_eq_true, if_false,
          if_pos unread.symm, getEntryHeader_eq inRing held fits, if_pos own]

/-- LogPrinter's read of an intact record delivers its line exactly when the
record with its header is at most `LOGGER_ENTRY_MAX_LEN` bytes long. -/
theorem readAt_delivers_iff (valid : log.Valid) {reader : LoggerReader} {current : Task}
    {now realNow : Nat} (unread : reader.rOff ≠ log.wOff) (inRing : reader.rOff < log.size)
    (held : Ring.Holds log.size log.buffer reader.rOff
      (requestRecord current now realNow source).bytes)
    (fits : sizeofLoggerEntry + writeCount source ≤ log.size)
    (line : source.bytes = priorityByte priority :: (tag.terminated ++ msg.terminated))
    (memory : List UInt8) :
    Delivered priority tag msg memory
        (readAt log reader ⟨loggerEntryMaxLen⟩ loggerEntryMaxLen).1 ↔
      lineLength tag msg ≤ loggerEntryMaxLen - sizeofLoggerEntry := by
  have total : (requestRecord current now realNow source).bytes.length =
      sizeofLoggerEntry + writeCount source := requestRecord_bytes_length current now realNow
  have count : writeCount source = min (lineLength tag msg) loggerEntryMaxPayload := by
    rw [writeCount, iovIterCount, line]
    simp [lineLength]
    omega
  have outcome := readAt_held valid unread.symm inRing held
    (requestRecord_len current now realNow source) (by omega) ⟨loggerEntryMaxLen⟩ loggerEntryMaxLen
  simp only [loggerEntryMaxLen, loggerEntryMaxPayload, sizeofLoggerEntry] at *
  rcases outcome with ⟨tooSmall, errno, failed⟩ | ⟨roomy, returned⟩
  · rw [failed]
    constructor
    · rintro ⟨bytes, _, isData, _⟩
      cases isData
    · intro short
      omega
  · rw [returned]
    constructor
    · intro _
      omega
    · intro short
      have whole : (requestRecord current now realNow source).bytes =
          LoggerEntry.record.encode (requestRecord current now realNow source).header ++
            (priorityByte priority :: (tag.terminated ++ msg.terminated)) := by
        rw [Record.bytes, requestRecord, ← line, List.take_of_length_le]
        rw [line]
        simp [lineLength] at *
        omega
      refine ⟨_, { priority := priorityByte priority, tag := tag.bytes, msg := msg.bytes },
        rfl, ?_, rfl, rfl, .inl rfl⟩
      rw [received, whole]
      exact parseEntry_line (by simp) _

end Delivery

/-- A reader opened on the new main log has come to the first record written. -/
theorem first_record (buffer : Nat → UInt8) (current : Task) (now realNow : Nat)
    {source : IovIter} (positive : 0 < writeCount source)
    (complete : writeCount source ≤ source.readable) :
    ∃ events log, Run LoggerLog.Step (createLog buffer mainLogSize) events log ∧
      log.readers = [{ rOff := 0, rAll := true, rVer := 1 }] ∧ 0 ≠ log.wOff ∧
      log.Valid ∧ log.size = mainLogSize ∧
      StoredAt (createLog buffer mainLogSize) events 0
        (requestRecord current now realNow source) ∧
      Ring.Holds log.size log.buffer 0 (requestRecord current now realNow source).bytes := by
  obtain ⟨opened, openedEq⟩ :
      ∃ opened, opened = loggerOpen (createLog buffer mainLogSize) true false := ⟨_, rfl⟩
  have openStep : (createLog buffer mainLogSize).Step (.openLog true false, .opened) opened := by
    rw [openedEq]
    rfl
  have size : opened.size = mainLogSize := by rw [openedEq, loggerOpen, createLog]
  have wOff : opened.wOff = 0 := by rw [openedEq, loggerOpen, createLog]
  have readers : opened.readers = [{ rOff := 0, rAll := true, rVer := 1 }] := by
    rw [openedEq]
    rfl
  obtain ⟨valid, _⟩ := openStep.keeps (createLog_valid buffer ⟨19, rfl⟩)
  have count := writeCount_le source
  have large : sizeofLoggerEntry + 4096 < mainLogSize := by decide
  obtain ⟨success, ends, held⟩ := loggerWriteIter_complete valid current now realNow
    positive complete (by omega)
  obtain ⟨writtenValid, writtenSize, _, writtenReaders⟩ :=
    loggerWriteIter_keeps current now realNow source valid
  have writeStep : opened.Step (.write current now realNow source,
      .wrote (loggerWriteIter opened current now realNow source).ret)
      (loggerWriteIter opened current now realNow source).log := rfl
  rw [wOff, Nat.zero_add, Nat.mod_eq_of_lt (by omega)] at ends
  rw [wOff] at held
  refine ⟨[_, _], _, Run.cons openStep (.single writeStep), ?_, ?_, writtenValid, ?_, ?_, ?_⟩
  · rw [writtenReaders, readers]
  · omega
  · rw [writtenSize, size]
  · exact ⟨[_], _, [], opened, rfl, .single openStep, wOff, if_pos success⟩
  · rwa [writtenSize]

/-- In every reachable state of the main log in which a reader has come to the
intact record of a line it may read, LogPrinter's next read delivers the line
exactly when its payload is at most `LOGGER_ENTRY_MAX_LEN` minus the header. -/
theorem log_line_delivered_iff {buffer : Nat → UInt8} {events : List (Call × Reply)}
    {log : LoggerLog} (run : Run LoggerLog.Step (createLog buffer mainLogSize) events log)
    {bufID logId priority : Int32} {tag msg : CString} {vec : List (List UInt8)}
    (sent : droidLogBufWrite bufID priority (some tag) msg = some (logId, vec))
    {current : Task} {now realNow : Nat} {source : IovIter} (line : source.bytes = vec.flatten)
    {index : Nat} {reader : LoggerReader} {euid : UInt32}
    (opened : log.readers[index]? = some reader)
    (entitled : reader.rAll = true ∨ current.euid = euid)
    (unread : reader.rOff ≠ log.wOff)
    (stored : StoredAt (createLog buffer mainLogSize) events reader.rOff
      (requestRecord current now realNow source))
    (intact : Ring.Holds log.size log.buffer reader.rOff
      (requestRecord current now realNow source).bytes) (memory : List UInt8) :
    ∃ result next,
      log.Step (.read index euid ⟨loggerEntryMaxLen⟩ loggerEntryMaxLen, .read result) next ∧
        (Delivered priority tag msg memory result ↔
          lineLength tag msg ≤ loggerEntryMaxLen - sizeofLoggerEntry) := by
  obtain ⟨valid, size⟩ := run_valid ⟨19, rfl⟩ run
  have inRing : reader.rOff < log.size := by
    obtain ⟨_, _, _, before, _, beforeRun, atOff, _⟩ := stored
    obtain ⟨beforeValid, beforeSize⟩ := run_valid ⟨19, rfl⟩ beforeRun
    have := beforeValid.wOffInRing
    omega
  have fits : sizeofLoggerEntry + writeCount source ≤ log.size := by
    have := writeCount_le source
    simp only [size, sizeofLoggerEntry]
    omega
  have scan := scanOff_entitled inRing intact (by omega) unread entitled
  refine ⟨_, _, LoggerLog.step_read_iff.mpr ⟨reader, reader.rOff, opened, scan, rfl, rfl⟩, ?_⟩
  exact readAt_delivers_iff valid unread inRing intact fits
    (line.trans (droidLogBufWrite_eq sent)) memory

/-- An error line with a tag of one character and a message of two. -/
theorem log_line_delivered_short :
    let tag : CString := { bytes := [116], noNul := by decide }
    let msg : CString := { bytes := [104, 105], noNul := by decide }
    ∃ log result next,
      LoggerLog.Step log (.read 0 1000 ⟨loggerEntryMaxLen⟩ loggerEntryMaxLen, .read result)
        next ∧ Delivered 6 tag msg [] result := by
  intro tag msg
  have sent : droidLogBufWrite 0 6 (some tag) msg =
      some (0, [[priorityByte 6], tag.terminated, msg.terminated]) := by decide
  let source : IovIter :=
    { bytes := [[priorityByte 6], tag.terminated, msg.terminated].flatten, readable := 6 }
  obtain ⟨events, log, run, readers, unread, _, _, stored, intact⟩ :=
    first_record (fun _ => 0) ⟨7, 8, 1000⟩ 0 0 (show 0 < writeCount source by decide)
      (by decide)
  have opened : log.readers[0]? = some { rOff := 0, rAll := true, rVer := 1 } := by
    rw [readers]
    rfl
  obtain ⟨result, next, step, delivered⟩ :=
    log_line_delivered_iff run sent rfl opened (.inl rfl) unread stored intact []
  exact ⟨log, result, next, step, delivered.mpr (by decide)⟩

/-- A message of 4061 bytes makes a record of 4097 bytes, which LogPrinter never
receives. -/
theorem log_line_lost :
    ¬ ∀ (buffer : Nat → UInt8) (events : List (Call × Reply)) (log : LoggerLog),
      Run LoggerLog.Step (createLog buffer mainLogSize) events log →
      ∀ (bufID logId priority : Int32) (tag msg : CString) (vec : List (List UInt8)),
        droidLogBufWrite bufID priority (some tag) msg = some (logId, vec) →
      ∀ (current : Task) (now realNow : Nat) (source : IovIter), source.bytes = vec.flatten →
      ∀ (index : Nat) (reader : LoggerReader), log.readers[index]? = some reader →
        reader.rAll = true → reader.rOff ≠ log.wOff →
        StoredAt (createLog buffer mainLogSize) events reader.rOff
          (requestRecord current now realNow source) →
        Ring.Holds log.size log.buffer reader.rOff
          (requestRecord current now realNow source).bytes →
      ∀ (euid : UInt32) (memory : List UInt8), ∃ result next,
        log.Step (.read index euid ⟨loggerEntryMaxLen⟩ loggerEntryMaxLen, .read result) next ∧
          Delivered priority tag msg memory result := by
  intro claim
  obtain ⟨tag, tagEq⟩ : ∃ tag : CString, tag.bytes = [116] := ⟨⟨[116], by decide⟩, rfl⟩
  obtain ⟨msg, msgLength⟩ : ∃ msg : CString, msg.strlen = 4061 := by
    refine ⟨⟨List.replicate 4061 97, ?_⟩, List.length_replicate⟩
    intro member
    have := List.eq_of_mem_replicate member
    revert this
    decide
  have sent : droidLogBufWrite 0 6 (some tag) msg =
      some (0, [[priorityByte 6], tag.terminated, msg.terminated]) := by
    rw [droidLogBufWrite, tagEq, if_neg (by decide)]
  have line := droidLogBufWrite_eq sent
  obtain ⟨source, sourceEq, readable⟩ : ∃ source : IovIter, source.bytes =
      priorityByte 6 :: (tag.terminated ++ msg.terminated) ∧ source.readable = 4096 :=
    ⟨⟨_, 4096⟩, rfl, rfl⟩
  have tagLength : tag.strlen = 1 := by rw [CString.strlen, tagEq]; rfl
  have count : writeCount source = 4065 := by
    simp [writeCount, iovIterCount, sourceEq, tagLength, msgLength, loggerEntryMaxPayload]
  obtain ⟨events, log, run, readers, unread, valid, size, stored, intact⟩ :=
    first_record (fun _ => 0) ⟨7, 8, 1000⟩ 0 0 (show 0 < writeCount source by omega)
      (by omega)
  have opened : log.readers[0]? = some { rOff := 0, rAll := true, rVer := 1 } := by
    rw [readers]
    rfl
  obtain ⟨result, next, step, delivered⟩ := claim _ events log run 0 0 6 tag msg _ sent
    ⟨7, 8, 1000⟩ 0 0 source (by rw [sourceEq, line]) 0 _ opened rfl unread stored intact 1000 []
  obtain ⟨reader, rOff, again, scan, _, returned⟩ := LoggerLog.step_read_iff.mp step
  cases opened.symm.trans again
  cases scan
  cases returned
  have fits : sizeofLoggerEntry + 4065 ≤ mainLogSize := by decide
  have short := (readAt_delivers_iff valid unread (by simp only [size]; decide) intact
    (by omega) sourceEq []).mp delivered
  simp only [lineLength, tagLength, msgLength, loggerEntryMaxLen, sizeofLoggerEntry] at short
  omega

end DroidKernal.Log
