import DroidKernal.Lib.Fifo
import DroidKernal.Log.Steps

/-!
# The ring refines a first-in first-out queue

Seen by one reader that may read all records, a log is a queue of byte strings:
a successful write puts its record in, a successful read takes the oldest one
out.  The queue of a reader is the list of records pending at its offset.  The
only condition is on writers: before a write, the bytes the reader has not read
yet and the new record together stay below the size of the log.
-/

namespace DroidKernal.Log

open Lib

/-- The queue operations that an event amounts to for one reader. -/
def queueEvents (index : Nat) (event : Call × Reply) : List (Fifo.Event (List UInt8)) :=
  (storedRecord event).toList.map (fun record => .enqueue record.bytes) ++
    (readBytes index event).toList.map .dequeue

/-- Before a write, the reader's unread bytes and the new record stay strictly
below the size of the log. -/
def WriteFits (index : Nat) (log : LoggerLog) : Call → Prop
  | .write _ _ _ source => ∀ reader, log.readers[index]? = some reader →
      unread log reader.rOff + sizeofLoggerEntry + writeCount source < log.size
  | _ => True

/-- A step in which no write runs over the reader's unread records. -/
def FittingStep (index : Nat) (log : LoggerLog) (event : Call × Reply)
    (next : LoggerLog) : Prop :=
  log.Step event next ∧ WriteFits index log event.1

/-- The queue of a reader: the bytes of the records pending at its offset. -/
structure Queued (index : Nat) (log : LoggerLog) (items : List (List UInt8)) : Prop where
  valid : log.Valid
  pending : ∃ reader records, log.readers[index]? = some reader ∧ reader.rAll = true ∧
    Pending log reader.rOff records ∧ items = records.map Record.bytes

section Observation

variable (index : Nat)

theorem enqueued_queueEvents (events : List (Call × Reply)) :
    Fifo.enqueued (events.flatMap (queueEvents index)) =
      (events.filterMap storedRecord).map Record.bytes := by
  induction events with
  | nil => rfl
  | cons event events ih =>
      rw [List.flatMap_cons, Fifo.enqueued_append, ih, queueEvents, Fifo.enqueued_append,
        Fifo.enqueued_map_dequeue, List.append_nil]
      cases stored : storedRecord event with
      | none => simp [stored, Fifo.enqueued]
      | some record => simp [stored, Fifo.enqueued]

theorem dequeued_queueEvents (events : List (Call × Reply)) :
    Fifo.dequeued (events.flatMap (queueEvents index)) =
      events.filterMap (readBytes index) := by
  induction events with
  | nil => rfl
  | cons event events ih =>
      rw [List.flatMap_cons, Fifo.dequeued_append, ih, queueEvents, Fifo.dequeued_append,
        Fifo.dequeued_map_dequeue]
      cases stored : storedRecord event with
      | none =>
          cases returned : readBytes index event with
          | none => simp [returned, Fifo.dequeued]
          | some bytes => simp [returned, Fifo.dequeued]
      | some record =>
          cases returned : readBytes index event with
          | none => simp [returned, Fifo.dequeued]
          | some bytes => simp [returned, Fifo.dequeued]

end Observation

section Simulation

variable {index : Nat} {log next : LoggerLog} {items : List (List UInt8)}

/-- Opening another reader is invisible to the queue. -/
theorem Queued.open (queued : Queued index log items) (inEgroup capSyslog : Bool) :
    Queued index (loggerOpen log inEgroup capSyslog) items where
  valid := ⟨queued.valid.sizePow, queued.valid.wOffInRing⟩
  pending := by
    obtain ⟨reader, records, opened, rAll, pending, rfl⟩ := queued.pending
    have bound : index < log.readers.length := (List.getElem?_eq_some_iff.mp opened).1
    refine ⟨reader, records, ?_, rAll, pending.withReaders _, rfl⟩
    simp only [loggerOpen]
    rw [List.getElem?_append_left bound, opened]

/-- A write that fits puts its record in if it reports success, and is invisible
otherwise. -/
theorem Queued.write (queued : Queued index log items) {current : Task} {now realNow : Nat}
    {source : IovIter} (fits : WriteFits index log (.write current now realNow source)) :
    let result := loggerWriteIter log current now realNow source
    ∃ nextItems,
      Run Fifo.Step items
        (queueEvents index (.write current now realNow source, .wrote result.ret))
        nextItems ∧
      Queued index result.log nextItems := by
  obtain ⟨reader, records, opened, rAll, pending, rfl⟩ := queued.pending
  have clear := fits reader opened
  have after := pending.write queued.valid current now realNow clear
  obtain ⟨valid, _, _, readers⟩ := loggerWriteIter_keeps current now realNow source queued.valid
  simp only at after
  refine ⟨_, ?_, valid, reader, _, (congrArg (·[index]?) readers).trans opened, rAll, after, rfl⟩
  simp only [queueEvents, readBytes, Option.toList_none, List.map_nil, List.append_nil,
    List.map_append]
  cases storedRecord
      (.write current now realNow source,
        .wrote (loggerWriteIter log current now realNow source).ret) with
  | none => simpa using Run.nil
  | some record => exact .single (.enqueue _ _)

/-- A read by the queue's reader takes the oldest record out if it returns
one.  A read by any other reader is invisible. -/
theorem Queued.read (queued : Queued index log items) {caller : Nat} {euid : UInt32}
    {user : UserBuffer} {count : Nat} {reply : Reply}
    (step : log.Step (.read caller euid user count, reply) next) :
    ∃ nextItems,
      Run Fifo.Step items (queueEvents index (.read caller euid user count, reply))
        nextItems ∧
      Queued index next nextItems := by
  obtain ⟨reader, records, opened, rAll, pending, rfl⟩ := queued.pending
  obtain ⟨called, rOff, calledOpen, scan, rfl, rfl⟩ := LoggerLog.step_read_iff.mp step
  have bound : caller < log.readers.length := (List.getElem?_eq_some_iff.mp calledOpen).1
  by_cases own : caller = index
  · subst own
    cases opened.symm.trans calledOpen
    rw [scanOff, if_pos rAll, Option.some.injEq] at scan
    subst scan
    cases records with
    | nil =>
        have atEnd := readAt_nil pending user count
        rw [atEnd]
        refine ⟨_, by simpa [queueEvents, storedRecord, readBytes] using Run.nil,
          ⟨queued.valid.sizePow, queued.valid.wOffInRing⟩, reader, [], ?_, rAll,
          pending.withReaders _, rfl⟩
        simp [bound]
    | cons record rest =>
        rcases readAt_cons queued.valid pending user count with
          ⟨_, errno, failed⟩ | ⟨_, returned⟩
        · rw [failed]
          refine ⟨_, by simpa [queueEvents, storedRecord, readBytes] using Run.nil,
            ⟨queued.valid.sizePow, queued.valid.wOffInRing⟩, reader, record :: rest, ?_, rAll,
            pending.withReaders _, rfl⟩
          simp [bound]
        · rw [returned]
          refine ⟨rest.map Record.bytes, ?_,
            ⟨queued.valid.sizePow, queued.valid.wOffInRing⟩,
            { reader with rOff := (reader.rOff + record.bytes.length) % log.size }, rest,
            ?_, ?_, pending.tail.withReaders _, rfl⟩
          · simpa [queueEvents, storedRecord, readBytes] using
              Run.single (Fifo.Step.dequeue record.bytes (rest.map Record.bytes))
          · simp [bound]
          · exact rAll
  · have invisible : readBytes index (.read caller euid user count,
        .read (readAt log { called with rOff } user count).1) = none := by
      cases (readAt log { called with rOff } user count).1 with
      | wait => rfl
      | error errno => rfl
      | data bytes => simp [readBytes, own]
    refine ⟨_, by simpa [queueEvents, storedRecord, invisible] using Run.nil,
      ⟨queued.valid.sizePow, queued.valid.wOffInRing⟩, reader, records, ?_, rAll,
      pending.withReaders _, rfl⟩
    rw [List.getElem?_set_ne own, opened]

/-- One step of the log is answered by the queue. -/
theorem Queued.step (queued : Queued index log items) {event : Call × Reply}
    (step : FittingStep index log event next) :
    ∃ nextItems, Run Fifo.Step items (queueEvents index event) nextItems ∧
      Queued index next nextItems := by
  obtain ⟨called, fits⟩ := step
  obtain ⟨call, reply⟩ := event
  cases call with
  | openLog inEgroup capSyslog =>
      simp only [LoggerLog.Step, LoggerLog.call] at called
      cases called
      exact ⟨items, .nil, queued.open inEgroup capSyslog⟩
  | write current now realNow source =>
      simp only [LoggerLog.Step, LoggerLog.call] at called
      cases called
      exact queued.write fits
  | read caller euid user count => exact queued.read called

/-- The next read of the queue's reader returns the oldest record, if its
buffer is large enough, and waits if there is none. -/
theorem Queued.next_read (queued : Queued index log items) (euid : UInt32)
    (user : UserBuffer) (count : Nat) :
    ∃ result next, log.Step (.read index euid user count, .read result) next ∧
      (items = [] → result = .wait) ∧
      ∀ bytes, items.head? = some bytes → bytes.length ≤ count →
        bytes.length ≤ user.writable → result = .data bytes := by
  obtain ⟨reader, records, opened, rAll, pending, rfl⟩ := queued.pending
  refine ⟨_, _, LoggerLog.step_read_iff.mpr
    ⟨reader, reader.rOff, opened, if_pos rAll, rfl, rfl⟩, ?_, ?_⟩
  · intro empty
    rw [List.map_eq_nil_iff.mp empty] at pending
    rw [readAt_nil pending user count]
  · intro bytes oldest roomInCount roomInBuffer
    cases records with
    | nil => cases oldest
    | cons record rest =>
        cases oldest
        rcases readAt_cons queued.valid pending user count with ⟨small, _⟩ | ⟨_, returned⟩
        · omega
        · rw [returned]

end Simulation

/-! ## Before the first write -/

/-- A log in which nothing has been stored yet. -/
structure Unwritten (log : LoggerLog) : Prop where
  valid : log.Valid
  wOff : log.wOff = 0
  head : log.head = 0

theorem Unwritten.create (buffer : Nat → UInt8) {size : Nat} (power : ∃ k, size = 2 ^ k) :
    Unwritten (createLog buffer size) where
  valid := createLog_valid buffer power
  wOff := rfl
  head := rfl

/-- A step that stores no record leaves `w_off` where it is. -/
theorem Unwritten.step {log next : LoggerLog} {event : Call × Reply}
    (unwritten : Unwritten log) (step : log.Step event next)
    (nothing : storedRecord event = none) : Unwritten next := by
  obtain ⟨valid, _, head⟩ := step.keeps unwritten.valid
  refine ⟨valid, ?_, head.trans unwritten.head⟩
  obtain ⟨call, reply⟩ := event
  cases call with
  | openLog inEgroup capSyslog =>
      simp only [LoggerLog.Step, LoggerLog.call] at step
      cases step
      exact unwritten.wOff
  | write current now realNow source =>
      simp only [LoggerLog.Step, LoggerLog.call] at step
      cases step
      rcases Nat.eq_zero_or_pos (writeCount source) with empty | positive
      · rw [loggerWriteIter_empty log current now realNow empty]
        exact unwritten.wOff
      · rcases Nat.lt_or_ge source.readable (writeCount source) with short | complete
        · rw [loggerWriteIter_fault log current now realNow short]
          exact unwritten.wOff
        · have stored := payloadHead_pos unwritten.valid positive
          rw [loggerWriteIter_stored log current now realNow positive complete] at nothing
          simp [storedRecord] at nothing
          omega
  | read index euid user count =>
      obtain ⟨_, _, _, _, rfl, _⟩ := LoggerLog.step_read_iff.mp step
      exact unwritten.wOff

theorem Unwritten.run {log next : LoggerLog} {events : List (Call × Reply)}
    (unwritten : Unwritten log) (run : Run LoggerLog.Step log events next)
    (nothing : events.filterMap storedRecord = []) : Unwritten next := by
  refine run.history_invariant
    (fun events next => events.filterMap storedRecord = [] → Unwritten next)
    (fun _ => unwritten) ?_ nothing
  intro events state event next ih step quiet
  rw [List.filterMap_append, List.append_eq_nil_iff] at quiet
  apply (ih quiet.1).step step
  simpa using quiet.2

/-- A reader opened before the first write starts with an empty queue. -/
theorem Unwritten.queued {log : LoggerLog} (unwritten : Unwritten log)
    {inEgroup capSyslog : Bool} (privileged : (inEgroup || capSyslog) = true) :
    Queued log.readers.length (loggerOpen log inEgroup capSyslog) [] where
  valid := ⟨unwritten.valid.sizePow, unwritten.valid.wOffInRing⟩
  pending := by
    refine ⟨{ rOff := log.head, rAll := inEgroup || capSyslog, rVer := 1 }, [], ?_,
      privileged, ?_, rfl⟩
    · simp [loggerOpen]
    · apply Pending.withReaders
      exact .nil_of_eq unwritten.valid (unwritten.head.trans unwritten.wOff.symm)

/-! ## The run of one reader -/

section Reader

variable {buffer : Nat → UInt8} {size : Nat} {earlier events : List (Call × Reply)}
  {opening log : LoggerLog} {inEgroup capSyslog : Bool}

/-- The state of the queue after any run: the records written so far are those
read so far followed by those still queued. -/
theorem queued_run (power : ∃ k, size = 2 ^ k)
    (before : Run LoggerLog.Step (createLog buffer size) earlier opening)
    (unwritten : earlier.filterMap storedRecord = [])
    (privileged : (inEgroup || capSyslog) = true)
    (run : Run (FittingStep opening.readers.length)
      (loggerOpen opening inEgroup capSyslog) events log) :
    ∃ items, Queued opening.readers.length log items ∧
      (events.filterMap storedRecord).map Record.bytes =
        events.filterMap (readBytes opening.readers.length) ++ items := by
  have empty := ((Unwritten.create buffer power).run before unwritten).queued privileged
  obtain ⟨items, queueRun, queued⟩ := run.simulate _ empty fun queued step => queued.step step
  refine ⟨items, queued, ?_⟩
  have conserved := Fifo.enqueued_eq queueRun
  rwa [enqueued_queueEvents, dequeued_queueEvents] at conserved

/-- The `k`-th successful read of a reader opened before the first write returns
the `k`-th record written, and while a written record has not been read, the
next read with a large enough buffer returns the oldest such record. -/
theorem logger_fifo (power : ∃ k, size = 2 ^ k)
    (before : Run LoggerLog.Step (createLog buffer size) earlier opening)
    (unwritten : earlier.filterMap storedRecord = [])
    (privileged : (inEgroup || capSyslog) = true)
    (run : Run (FittingStep opening.readers.length)
      (loggerOpen opening inEgroup capSyslog) events log) :
    let written : List Record := events.filterMap storedRecord
    let returned : List (List UInt8) := events.filterMap (readBytes opening.readers.length)
    (∀ record ∈ written, record.header.len.toNat = record.payload.length) ∧
      (∀ (k : Nat) (bytes : List UInt8), returned[k]? = some bytes →
        ∃ record, written[k]? = some record ∧ bytes = record.bytes) ∧
      ∀ euid user count, ∃ result next,
        log.Step (.read opening.readers.length euid user count, .read result) next ∧
          (written.length = returned.length → result = .wait) ∧
          ∀ record : Record, written[returned.length]? = some record →
            record.bytes.length ≤ count → record.bytes.length ≤ user.writable →
              result = .data record.bytes := by
  obtain ⟨items, queued, conserved⟩ := queued_run power before unwritten privileged run
  refine ⟨fun record member => ?_, fun k bytes taken => ?_, fun euid user count => ?_⟩
  · obtain ⟨event, _, stored⟩ := List.mem_filterMap.mp member
    exact storedRecord_len stored
  · have bound := (List.getElem?_eq_some_iff.mp taken).1
    have sameItem : ((events.filterMap storedRecord).map Record.bytes)[k]? = some bytes := by
      rw [conserved, List.getElem?_append_left bound, taken]
    rw [List.getElem?_map, Option.map_eq_some_iff] at sameItem
    obtain ⟨record, stored, rfl⟩ := sameItem
    exact ⟨record, stored, rfl⟩
  · obtain ⟨result, next, step, waits, returns⟩ := queued.next_read euid user count
    refine ⟨result, next, step, fun allRead => waits ?_, fun record oldest => ?_⟩
    · have lengths := congrArg List.length conserved
      rw [List.length_map, List.length_append, allRead] at lengths
      exact List.length_eq_zero_iff.mp (by omega)
    · apply returns
      have atFront := congrArg (fun items : List (List UInt8) => items[(events.filterMap
        (readBytes opening.readers.length)).length]?) conserved
      simpa [oldest, List.head?_eq_getElem?, List.getElem?_append_right] using atFront.symm

/-- A log of 64 bytes: a record is written and read, and the next one wraps around. -/
theorem logger_fifo_wrapped :
    let first : IovIter := { bytes := [65, 66], readable := 2 }
    let second : IovIter := { bytes := [67, 68], readable := 2 }
    let task : Task := { tgid := 7, pid := 8, euid := 1000 }
    let opened := loggerOpen (createLog (fun _ => 0) 64) false true
    let events : List (Call × Reply) :=
      [(.write task 0 0 first, .wrote 2),
        (.read 0 1000 ⟨4096⟩ 4096, .read (.data (requestRecord task 0 0 first).bytes)),
        (.write task 0 0 second, .wrote 2)]
    ∃ log, Run (FittingStep 0) opened events log ∧ log.wOff = 4 ∧
      ∃ next, log.Step (.read 0 1000 ⟨4096⟩ 4096,
        .read (.data (requestRecord task 0 0 second).bytes)) next := by
  intro first second task opened events
  let written := (loggerWriteIter opened task 0 0 first).log
  let reader : LoggerReader := { rOff := 0, rAll := true, rVer := 1 }
  let read : LoggerLog :=
    { written with readers := written.readers.set 0 (readAt written reader ⟨4096⟩ 4096).2 }
  let log := (loggerWriteIter read task 0 0 second).log
  have created : (createLog (fun _ => 0) 64).Valid := createLog_valid _ ⟨6, rfl⟩
  have valid : opened.Valid := ⟨created.sizePow, created.wOffInRing⟩
  have isReader : written.readers[0]? = some reader := by
    obtain ⟨_, _, _, sameReaders⟩ := loggerWriteIter_keeps task 0 0 first valid
    rw [sameReaders]
    rfl
  have write : FittingStep 0 opened (.write task 0 0 first, .wrote 2) written := by
    have ret : (loggerWriteIter opened task 0 0 first).ret = 2 := by decide
    constructor
    · simp only [LoggerLog.Step, LoggerLog.call, ret, written]
    · intro other isReader
      cases isReader
      decide
  have reads : FittingStep 0 written
      (.read 0 1000 ⟨4096⟩ 4096, .read (.data (requestRecord task 0 0 first).bytes)) read := by
    have bytes : (readAt written reader ⟨4096⟩ 4096).1 =
        .data (requestRecord task 0 0 first).bytes := by decide
    exact ⟨LoggerLog.step_read_iff.mpr ⟨reader, 0, isReader, rfl, rfl, by rw [← bytes]⟩, trivial⟩
  have again : FittingStep 0 read (.write task 0 0 second, .wrote 2) log := by
    have ret : (loggerWriteIter read task 0 0 second).ret = 2 := by decide
    constructor
    · simp only [LoggerLog.Step, LoggerLog.call, ret, log]
    · intro other isOther
      have isRead : read.readers[0]? = some (readAt written reader ⟨4096⟩ 4096).2 :=
        List.getElem?_set_self (List.getElem?_eq_some_iff.mp isReader).1
      cases isRead.symm.trans isOther
      decide
  have run : Run (FittingStep 0) opened events log := ((Run.single write).snoc reads).snoc again
  obtain ⟨_, _, nextRead⟩ := logger_fifo ⟨6, rfl⟩ .nil rfl rfl run
  obtain ⟨result, next, step, _, returned⟩ := nextRead 1000 ⟨4096⟩ 4096
  have oldest := returned (requestRecord task 0 0 second) rfl (by decide) (by decide)
  exact ⟨log, run, by decide, next, oldest ▸ step⟩

end Reader

end DroidKernal.Log
