import DroidKernal.Log.Steps

/-!
# Offsets at record boundaries

`head` and every `r_off` are meant to be the start of a stored record, or
`w_off`.  The driver keeps them so as long as no write runs over them and no
uid scan skips an entry away from offset zero: `fix_up_readers`, which would
move them out of the way of a write, is never called, and the scan adds the
entry length to zero.
-/

namespace DroidKernal.Log

open Lib

/-- Some write of the run stored `record` at `off`. -/
def StoredAt (start : LoggerLog) (events : List (Call × Reply)) (off : Nat)
    (record : Record) : Prop :=
  ∃ earlier event later log, events = earlier ++ event :: later ∧
    Run LoggerLog.Step start earlier log ∧ log.wOff = off ∧
    storedRecord event = some record

/-- `off` is `w_off`, or the start of an intact record from which the record
lengths lead to `w_off`. -/
def Aligned (start : LoggerLog) (events : List (Call × Reply)) (log : LoggerLog)
    (off : Nat) : Prop :=
  off = log.wOff ∨
    (∃ record, StoredAt start events off record ∧
      Ring.Holds log.size log.buffer off record.bytes) ∧
    ∃ hops, (nextEntry log)^[hops] off = log.wOff

/-- The offsets that reads start from. -/
def LoggerLog.anchors (log : LoggerLog) : List Nat :=
  log.head :: log.readers.map LoggerReader.rOff

/-- The calls that leave the offsets at record boundaries. -/
def ClearOfAnchors (log : LoggerLog) : Call → Prop
  | .openLog _ _ => True
  | .write _ _ _ source => 0 < writeCount source → ∀ off ∈ log.anchors,
      unread log off + sizeofLoggerEntry + writeCount source ≤ log.size
  | .read index euid _ _ => ∀ reader, log.readers[index]? = some reader →
      reader.rAll = false → ScanAligned log euid reader.rOff

/-- A step whose call is clear of the offsets. -/
def ClearStep (log : LoggerLog) (event : Call × Reply) (next : LoggerLog) : Prop :=
  log.Step event next ∧ ClearOfAnchors log event.1

section Filed

variable {start : LoggerLog} {events : List (Call × Reply)} {size off : Nat}
  {record : Record} {records : List Record}

theorem StoredAt.append (stored : StoredAt start events off record)
    (more : List (Call × Reply)) : StoredAt start (events ++ more) off record := by
  obtain ⟨earlier, event, later, log, rfl, run, atOff, isRecord⟩ := stored
  exact ⟨earlier, event, later ++ more, log, by simp, run, atOff, isRecord⟩

/-- Consecutive records from `off` on were stored where they lie. -/
def Filed (start : LoggerLog) (events : List (Call × Reply)) (size : Nat) :
    Nat → List Record → Prop
  | _, [] => True
  | off, record :: rest =>
      StoredAt start events off record ∧
        Filed start events size ((off + record.bytes.length) % size) rest

theorem Filed.append (filed : Filed start events size off records)
    (more : List (Call × Reply)) : Filed start (events ++ more) size off records := by
  induction records generalizing off with
  | nil => trivial
  | cons record rest ih => exact ⟨filed.1.append more, ih filed.2⟩

theorem Filed.snoc (filed : Filed start events size off records)
    (stored : StoredAt start events ((off + (recordsBytes records).length) % size) record)
    (inRing : off < size) : Filed start events size off (records ++ [record]) := by
  induction records generalizing off with
  | nil =>
      rw [recordsBytes_nil, List.length_nil, Nat.add_zero, Nat.mod_eq_of_lt inRing] at stored
      exact ⟨stored, trivial⟩
  | cons first rest ih =>
      refine ⟨filed.1, ih filed.2 ?_ (Nat.mod_lt _ (by omega))⟩
      rw [recordsBytes_cons, List.length_append, ← Nat.add_assoc] at stored
      rwa [Nat.mod_add_mod]

end Filed

/-- The representation of an offset that is at a record boundary. -/
structure Tracked (start : LoggerLog) (events : List (Call × Reply)) (log : LoggerLog)
    (off : Nat) : Prop where
  valid : log.Valid
  pending : ∃ records, Pending log off records ∧ Filed start events log.size off records

/-- Following record lengths visits the pending records one after the other. -/
theorem Pending.hops {log : LoggerLog} (valid : log.Valid) {off : Nat}
    {records : List Record} (pending : Pending log off records) :
    (nextEntry log)^[records.length] off = log.wOff := by
  induction records generalizing off with
  | nil =>
      by_contra differs
      exact pending.ne_wOff_iff.mp (Ne.symm differs) rfl
  | cons record rest ih =>
      have next : nextEntry log off = (off + record.bytes.length) % log.size := by
        rw [nextEntry, valid.loggerOffset_eq, Nat.add_assoc, pending.getEntryMsgLen_eq]
      rw [List.length_cons, Function.iterate_succ_apply, next]
      exact ih pending.tail

namespace Tracked

variable {start log : LoggerLog} {events : List (Call × Reply)} {off : Nat}

theorem aligned (tracked : Tracked start events log off) :
    Aligned start events log off := by
  obtain ⟨records, pending, filed⟩ := tracked.pending
  cases records with
  | nil =>
      left
      exact pending.hops tracked.valid
  | cons record rest =>
      right
      exact ⟨⟨record, filed.1, pending.head_held⟩, _, pending.hops tracked.valid⟩

theorem of_eq (valid : log.Valid) (atEnd : off = log.wOff) :
    Tracked start events log off where
  valid := valid
  pending := ⟨[], .nil_of_eq valid atEnd, trivial⟩

theorem append (tracked : Tracked start events log off) (more : List (Call × Reply)) :
    Tracked start (events ++ more) log off where
  valid := tracked.valid
  pending := by
    obtain ⟨records, pending, filed⟩ := tracked.pending
    exact ⟨records, pending, filed.append more⟩

theorem withReaders (tracked : Tracked start events log off)
    (readers : List LoggerReader) : Tracked start events { log with readers } off where
  valid := ⟨tracked.valid.sizePow, tracked.valid.wOffInRing⟩
  pending := by
    obtain ⟨records, pending, filed⟩ := tracked.pending
    exact ⟨records, pending.withReaders readers, filed⟩

/-- The next record boundary, while there is one. -/
theorem next (tracked : Tracked start events log off) (notEnd : off ≠ log.wOff) :
    Tracked start events log (nextEntry log off) where
  valid := tracked.valid
  pending := by
    obtain ⟨records, pending, filed⟩ := tracked.pending
    cases records with
    | nil => exact absurd rfl (pending.ne_wOff_iff.mp notEnd.symm)
    | cons record rest =>
        rw [nextEntry, tracked.valid.loggerOffset_eq, Nat.add_assoc,
          pending.getEntryMsgLen_eq]
        exact ⟨rest, pending.tail, filed.2⟩

/-- An aligned scan ends at a record boundary. -/
theorem scan {euid : UInt32} {rOff : Nat} (tracked : Tracked start events log off)
    (aligned : ScanAligned log euid off)
    (scanned : getNextEntryByUid log euid (scanFuel log) off = some rOff) :
    Tracked start events log rOff := by
  have positive := tracked.valid.sizePos
  obtain ⟨fuel, enough⟩ : ∃ fuel, scanFuel log = fuel + 3 := ⟨log.size - 1, by
    simp only [scanFuel]
    omega⟩
  rw [enough, getNextEntryByUid] at scanned
  by_cases atEnd : log.wOff = off
  · rw [if_neg (by simp [atEnd])] at scanned
    cases scanned
    exact tracked
  · by_cases own : (getEntryHeader log off).euid = euid
    · simp only [ne_eq, atEnd, not_false_eq_true, if_true, own] at scanned
      cases scanned
      exact tracked
    · rcases aligned with same | same | ⟨rfl, stops⟩
      · exact absurd same atEnd
      · exact absurd same own
      · have following := tracked.next (Ne.symm atEnd)
        have skipped : loggerOffset log
            (sizeofLoggerEntry + (getEntryHeader log 0).len.toNat) = nextEntry log 0 := by
          rw [nextEntry, Nat.zero_add]
          rfl
        simp only [ne_eq, atEnd, not_false_eq_true, if_true, own, if_false, skipped,
          getNextEntryByUid] at scanned
        rcases stops with ends | nextOwn
        · rw [if_neg (by simp [ends])] at scanned
          cases scanned
          exact following
        · rw [if_pos nextOwn, ite_self] at scanned
          cases scanned
          exact following

/-- Where a read leaves its reader. -/
theorem readAt {reader : LoggerReader} (tracked : Tracked start events log reader.rOff)
    (user : UserBuffer) (count : Nat) :
    Tracked start events log (readAt log reader user count).2.rOff := by
  obtain ⟨records, pending, filed⟩ := tracked.pending
  cases records with
  | nil =>
      rw [readAt_nil pending user count]
      exact tracked
  | cons record rest =>
      rcases readAt_cons tracked.valid pending user count with
        ⟨_, errno, failed⟩ | ⟨_, returned⟩
      · rw [failed]
        exact tracked
      · rw [returned]
        exact ⟨tracked.valid, rest, pending.tail, filed.2⟩

/-- A write that does not run over the offset keeps it at a record boundary. -/
theorem write (tracked : Tracked start events log off)
    (run : Run LoggerLog.Step start events log) {current : Task} {now realNow : Nat}
    {source : IovIter}
    (clear : 0 < writeCount source →
      unread log off + sizeofLoggerEntry + writeCount source ≤ log.size) :
    let result := loggerWriteIter log current now realNow source
    Tracked start (events ++ [(.write current now realNow source, .wrote result.ret)])
      result.log off := by
  intro result
  have valid := tracked.valid
  obtain ⟨records, pending, filed⟩ := tracked.pending
  rcases Nat.eq_zero_or_pos (writeCount source) with empty | positive
  · have unchanged := loggerWriteIter_empty log current now realNow empty
    simp only [result, unchanged]
    exact tracked.append _
  · have fits := clear positive
    have effect := loggerWriteIter_effect valid current now realNow source (by omega)
    change WriteEffect log current now realNow source result.ret result.log at effect
    have stored : ∀ ret : Int, 0 < ret → StoredAt start
        (events ++ [(.write current now realNow source, .wrote ret)]) log.wOff
        (requestRecord current now realNow source) := by
      intro ret success
      exact ⟨events, _, [], log, rfl, run, rfl, if_pos success⟩
    generalize result.ret = ret, result.log = after at effect ⊢
    cases effect with
    | empty => exact tracked.append _
    | fault buffer agrees =>
        exact ⟨⟨valid.sizePow, valid.wOffInRing⟩, records,
          pending.keep valid agrees (by omega), filed.append _⟩
    | stored buffer ret success nonempty agrees held =>
        have nextValid : ({ log with
            buffer
            wOff := (log.wOff + (requestRecord current now realNow source).bytes.length)
              % log.size } : LoggerLog).Valid :=
          ⟨valid.sizePow, Nat.mod_lt _ valid.sizePos⟩
        rcases Nat.lt_or_eq_of_le fits with room | full
        · have wellFormed := requestRecord_wellFormed current now realNow nonempty
          refine ⟨nextValid, _, pending.push valid wellFormed agrees held (by simp; omega), ?_⟩
          apply (filed.append _).snoc _ pending.inRing
          rw [pending.ends]
          exact stored ret success
        · apply of_eq nextValid
          exact (pending.push_full (by simp; omega)).symm

end Tracked

/-- The invariant of clear runs. -/
structure Anchored (start : LoggerLog) (events : List (Call × Reply)) (log : LoggerLog) :
    Prop where
  run : Run LoggerLog.Step start events log
  tracked : ∀ off ∈ log.anchors, Tracked start events log off

theorem Anchored.create (buffer : Nat → UInt8) {size : Nat} (power : ∃ k, size = 2 ^ k) :
    Anchored (createLog buffer size) [] (createLog buffer size) where
  run := .nil
  tracked := by
    intro off member
    have valid := createLog_valid buffer power
    rw [LoggerLog.anchors, List.mem_cons] at member
    rcases member with rfl | member
    · exact .of_eq valid rfl
    · cases member

theorem Anchored.step {start log next : LoggerLog} {events : List (Call × Reply)}
    {event : Call × Reply} (anchored : Anchored start events log)
    (step : ClearStep log event next) : Anchored start (events ++ [event]) next where
  run := anchored.run.snoc step.1
  tracked := by
    obtain ⟨taken, clear⟩ := step
    obtain ⟨call, reply⟩ := event
    have head := anchored.tracked log.head (by simp [LoggerLog.anchors])
    cases call with
    | openLog inEgroup capSyslog =>
        simp only [LoggerLog.Step, LoggerLog.call] at taken
        cases taken
        intro off member
        simp only [LoggerLog.anchors, loggerOpen, List.map_append, List.map_cons,
          List.map_nil, List.mem_cons, List.mem_append] at member
        apply Tracked.withReaders
        apply Tracked.append
        rcases member with rfl | old | rfl | none
        · exact head
        · exact anchored.tracked off (List.mem_cons_of_mem _ old)
        · exact head
        · cases none
    | write current now realNow source =>
        simp only [LoggerLog.Step, LoggerLog.call] at taken
        cases taken
        intro off member
        obtain ⟨_, _, sameHead, sameReaders⟩ :=
          loggerWriteIter_keeps current now realNow source head.valid
        rw [LoggerLog.anchors, sameHead, sameReaders] at member
        exact (anchored.tracked off member).write anchored.run
          fun positive => clear positive off member
    | read index euid user count =>
        obtain ⟨reader, rOff, opened, scanned, rfl, rfl⟩ := LoggerLog.step_read_iff.mp taken
        have own : Tracked start events log reader.rOff := by
          apply anchored.tracked
          exact List.mem_cons_of_mem _ (List.mem_map_of_mem (List.mem_of_getElem? opened))
        have atEntry : Tracked start events log rOff := by
          cases privileged : reader.rAll with
          | true =>
              rw [scanOff, if_pos privileged] at scanned
              cases scanned
              exact own
          | false =>
              rw [scanOff, if_neg (by simp [privileged])] at scanned
              exact own.scan (clear reader opened privileged) scanned
        intro off member
        apply Tracked.withReaders
        apply Tracked.append
        rw [LoggerLog.anchors, List.mem_cons] at member
        rcases member with rfl | member
        · exact head
        · obtain ⟨other, inReaders, rfl⟩ := List.mem_map.mp member
          rcases List.mem_or_eq_of_mem_set inReaders with old | rfl
          · exact anchored.tracked _ (List.mem_cons_of_mem _ (List.mem_map_of_mem old))
          · have moved : Tracked start events log { reader with rOff }.rOff := atEntry
            exact moved.readAt user count

/-- In a run whose calls are all clear of the offsets, `head` and the offset of
every reader stay at record boundaries. -/
theorem logger_offsets_aligned {buffer : Nat → UInt8} {size : Nat}
    {events : List (Call × Reply)} {log : LoggerLog} (power : ∃ k, size = 2 ^ k)
    (run : Run ClearStep (createLog buffer size) events log) :
    ∀ off ∈ log.anchors, Aligned (createLog buffer size) events log off := by
  intro off member
  have anchored := run.history_invariant (Anchored (createLog buffer size))
    (.create buffer power) fun anchored step => anchored.step step
  exact (anchored.tracked off member).aligned

/-- A reader opened on an empty log, and one write. -/
theorem logger_offsets_aligned_one_write :
    let source : IovIter := { bytes := [65, 66], readable := 2 }
    let task : Task := { tgid := 7, pid := 8, euid := 1000 }
    let start := createLog (fun _ => 0) 1024
    let events : List (Call × Reply) :=
      [(.openLog true false, .opened), (.write task 0 0 source, .wrote 2)]
    ∃ log, Run ClearStep start events log ∧
      ∀ off ∈ log.anchors, Aligned start events log off := by
  intro source task start events
  have ret : (loggerWriteIter (loggerOpen start true false) task 0 0 source).ret = 2 := by
    decide
  have run : Run ClearStep start events
      (loggerWriteIter (loggerOpen start true false) task 0 0 source).log := by
    have opened : ClearStep start (.openLog true false, .opened)
        (loggerOpen start true false) :=
      ⟨rfl, trivial⟩
    apply Run.cons opened
    · apply Run.single
      constructor
      · simp only [LoggerLog.Step, LoggerLog.call, ret]
      · intro _ off member
        simp only [LoggerLog.anchors, loggerOpen, start, createLog] at member
        have zero : off = 0 := by simpa using member
        subst zero
        decide
  exact ⟨_, run, logger_offsets_aligned ⟨10, rfl⟩ run⟩

/-- The records of a run fit into an empty ring. -/
def FitsAlone (log : LoggerLog) : Call → Prop
  | .write _ _ _ source => sizeofLoggerEntry + writeCount source < log.size
  | _ => True

/-- A run that stays inside the domain of the driver. -/
def FittingAloneStep (log : LoggerLog) (event : Call × Reply) (next : LoggerLog) : Prop :=
  log.Step event next ∧ FitsAlone log event.1

section Overrun

variable (current : Task) {source : IovIter}

/-- If all calls are the same write, only its record is ever stored. -/
theorem StoredAt.of_repeated {start : LoggerLog} {events : List (Call × Reply)} {off : Nat}
    {record : Record}
    (repeated : ∀ event ∈ events, ∃ reply, event = (.write current 0 0 source, reply))
    (stored : StoredAt start events off record) :
    record = requestRecord current 0 0 source := by
  obtain ⟨_, event, _, _, rfl, _, _, isRecord⟩ := stored
  obtain ⟨reply, rfl⟩ := repeated event (by simp)
  cases reply with
  | opened => cases isRecord
  | read result => cases isRecord
  | wrote ret =>
      rw [storedRecord] at isRecord
      split at isRecord
      next => exact (Option.some.inj isRecord).symm
      next => cases isRecord

/-- Two writes of 900 bytes to a new 1 KiB log: the second one wraps over the
start of the first. -/
theorem two_writes (buffer : Nat → UInt8) (count : writeCount source = 900)
    (readable : writeCount source ≤ source.readable) :
    ∃ events log, Run FittingAloneStep (createLog buffer 1024) events log ∧
      (∀ event ∈ events, ∃ reply, event = (.write current 0 0 source, reply)) ∧
      log.head = 0 ∧ log.wOff = 840 ∧ log.size = 1024 ∧
      Ring.Holds 1024 log.buffer 932 (requestRecord current 0 0 source).bytes := by
  obtain ⟨start, startEq⟩ : ∃ start, start = createLog buffer 1024 := ⟨_, rfl⟩
  have valid : start.Valid := startEq ▸ createLog_valid _ ⟨10, rfl⟩
  have size : start.size = 1024 := by rw [startEq, createLog]
  have wOff : start.wOff = 0 := by rw [startEq, createLog]
  have head : start.head = 0 := by rw [startEq, createLog]
  have fits : sizeofLoggerEntry + 900 < 1024 := by decide
  -- the first write
  obtain ⟨firstValid, firstSize, firstHead, _⟩ :=
    loggerWriteIter_keeps current 0 0 source valid
  obtain ⟨_, firstEnd, _⟩ := loggerWriteIter_complete valid current 0 0
    (by omega) readable (by rw [count, size]; decide)
  have firstStep : FittingAloneStep start (.write current 0 0 source,
      .wrote (loggerWriteIter start current 0 0 source).ret)
      (loggerWriteIter start current 0 0 source).log :=
    ⟨rfl, by rwa [FitsAlone, count, size]⟩
  generalize loggerWriteIter start current 0 0 source = first at *
  rw [size] at firstSize
  have firstOff : first.log.wOff = 932 := by rw [firstEnd, wOff, count, size]; rfl
  -- the second write
  obtain ⟨_, secondSize, secondHead, _⟩ :=
    loggerWriteIter_keeps current 0 0 source firstValid
  obtain ⟨_, secondEnd, held⟩ := loggerWriteIter_complete firstValid current 0 0
    (by omega) readable (by rw [count, firstSize]; decide)
  have secondStep : FittingAloneStep first.log (.write current 0 0 source,
      .wrote (loggerWriteIter first.log current 0 0 source).ret)
      (loggerWriteIter first.log current 0 0 source).log :=
    ⟨rfl, by rwa [FitsAlone, count, firstSize]⟩
  generalize loggerWriteIter first.log current 0 0 source = second at *
  rw [firstOff, firstSize] at held
  rw [← startEq]
  refine ⟨_, second.log, Run.cons firstStep (.single secondStep), ?_, ?_, ?_, ?_, held⟩
  · intro event member
    simp only [List.mem_cons, List.not_mem_nil, or_false] at member
    rcases member with rfl | rfl
    · exact ⟨_, rfl⟩
    · exact ⟨_, rfl⟩
  · rw [secondHead, firstHead, head]
  · rw [secondEnd, firstOff, firstSize, count]
    rfl
  · rw [secondSize, firstSize]

end Overrun

/-- After two writes of 900 zero bytes to a 1 KiB log, `head` points at a byte of
the second payload. -/
theorem logger_head_misaligned :
    ¬ ∀ (buffer : Nat → UInt8) (size : Nat) (events : List (Call × Reply)) (log : LoggerLog),
      (∃ k, size = 2 ^ k) → Run FittingAloneStep (createLog buffer size) events log →
      ∀ off ∈ log.anchors, Aligned (createLog buffer size) events log off := by
  intro claim
  obtain ⟨source, zeros⟩ : ∃ source, source = zeroRequest 900 := ⟨_, rfl⟩
  have count : writeCount source = 900 := by
    rw [zeros, writeCount_zeroRequest (by decide)]
  have readable : writeCount source ≤ source.readable := by
    rw [count, zeros, zeroRequest]
  have length : (requestRecord ⟨7, 8, 1000⟩ 0 0 source).bytes.length = 932 := by
    rw [requestRecord_bytes_length, count]
    rfl
  obtain ⟨events, log, run, repeated, head, wOff, size, held⟩ :=
    two_writes ⟨7, 8, 1000⟩ (fun _ => 0) count readable
  have aligned := claim _ _ events log ⟨10, rfl⟩ run log.head (by simp [LoggerLog.anchors])
  rw [head] at aligned
  rcases aligned with atEnd | ⟨⟨record, stored, intact⟩, _⟩
  · omega
  · rw [stored.of_repeated _ repeated] at intact
    have expected : log.buffer 0 = 0x84 := by
      have byte := intact 0 (by omega)
      rw [Nat.zero_add, Nat.zero_mod] at byte
      rw [byte]
      simp only [Record.bytes]
      rw [List.getElem_append_left (by simp [sizeofLoggerEntry])]
      simp only [requestRecord, count]
      rfl
    have overwritten : log.buffer 0 = 0 := by
      have byte := held 92 (by omega)
      have inPayload : (932 + 92) % 1024 = 0 := rfl
      rw [inPayload] at byte
      rw [byte]
      simp only [Record.bytes]
      rw [List.getElem_append_right (by simp [sizeofLoggerEntry])]
      simp [requestRecord, zeros, zeroRequest, -List.reduceReplicate]
    rw [overwritten] at expected
    revert expected
    decide

end DroidKernal.Log
