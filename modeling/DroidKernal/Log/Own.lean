import DroidKernal.Log.Steps

/-!
# Records of one user

A reader that may not read all records skips those of other users.  The scan adds
the length of a skipped record to zero instead of to its offset, so it lands on the
next record only from offset 0; from anywhere else it takes the bytes that it lands
on for a header.
-/

namespace DroidKernal.Log

open Lib

/-- Before a write, what is unread from `head` on and the new record stay strictly
below the size of the log. -/
def HeadFits (log : LoggerLog) : Call → Prop
  | .write _ _ _ source => unread log log.head + sizeofLoggerEntry + writeCount source < log.size
  | _ => True

/-- A step in which no write runs over what a new reader would read. -/
def OpenableStep (log : LoggerLog) (event : Call × Reply) (next : LoggerLog) : Prop :=
  log.Step event next ∧ HeadFits log event.1

/-- Around the reader of one user: no write runs over its unread records, and that
user makes its reads. -/
def OwnerCalls (index : Nat) (euid : UInt32) (log : LoggerLog) : Call → Prop
  | .openLog _ _ => True
  | .write _ _ _ source => ∀ reader, log.readers[index]? = some reader →
      unread log reader.rOff + sizeofLoggerEntry + writeCount source < log.size
  | .read caller callerEuid _ _ => caller = index → callerEuid = euid

/-- The scans of the reader's reads stay aligned. -/
def ScansAligned (index : Nat) (euid : UInt32) (log : LoggerLog) : Call → Prop
  | .read caller _ _ _ => caller = index →
      ∀ reader, log.readers[index]? = some reader → ScanAligned log euid reader.rOff
  | _ => True

/-- A step in which no write runs over the user's unread records. -/
def OwnerStep (index : Nat) (euid : UInt32) (log : LoggerLog) (event : Call × Reply)
    (next : LoggerLog) : Prop :=
  log.Step event next ∧ OwnerCalls index euid log event.1

/-- Such a step with an aligned scan. -/
def AlignedStep (index : Nat) (euid : UInt32) (log : LoggerLog) (event : Call × Reply)
    (next : LoggerLog) : Prop :=
  OwnerStep index euid log event next ∧ ScansAligned index euid log event.1

section Scan

variable {log : LoggerLog} {reader : LoggerReader} {records : List Record} {euid : UInt32}

/-- The scan stops at an own record and at the end. -/
theorem getNextEntryByUid_stops {fuel off : Nat}
    (stops : log.wOff = off ∨ (getEntryHeader log off).euid = euid) :
    getNextEntryByUid log euid (fuel + 1) off = some off := by
  rw [getNextEntryByUid]
  rcases stops with atEnd | own
  · rw [if_neg (by simp [atEnd])]
  · split
    next => rw [if_pos own]
    next => rfl

/-- Where the scan stops with records pending, they are none or the first is own. -/
theorem Pending.own_of_stops {off : Nat} (pending : Pending log off records)
    (stops : log.wOff = off ∨ (getEntryHeader log off).euid = euid) :
    ∀ record ∈ records.head?, record.header.euid = euid := by
  intro record isFirst
  cases records with
  | nil => cases isFirst
  | cons first rest =>
      cases isFirst
      rcases stops with atEnd | own
      · exact absurd atEnd (pending.ne_wOff_iff.mpr (by simp))
      · rwa [← pending.getEntryHeader_eq]

/-- An aligned scan ends at a pending record of the user, or at the end. -/
theorem scanOff_aligned (valid : log.Valid) (pending : Pending log reader.rOff records)
    (unprivileged : reader.rAll = false) (aligned : ScanAligned log euid reader.rOff) :
    ∃ rOff rest, scanOff log reader euid = some rOff ∧ Pending log rOff rest ∧
      rest ⊆ records ∧ ∀ record ∈ rest.head?, record.header.euid = euid := by
  rw [scanOff, unprivileged, if_neg (by decide), scanFuel]
  by_cases stops : log.wOff = reader.rOff ∨ (getEntryHeader log reader.rOff).euid = euid
  · exact ⟨_, records, getNextEntryByUid_stops stops, pending, List.Subset.refl _,
      pending.own_of_stops stops⟩
  · obtain ⟨notEnd, notOwn⟩ := not_or.mp stops
    rw [ScanAligned, or_iff_right notEnd, or_iff_right notOwn] at aligned
    obtain ⟨atZero, stops⟩ := aligned
    cases records with
    | nil => exact absurd rfl (pending.ne_wOff_iff.mp notEnd)
    | cons first rest =>
        have tail := pending.tail
        rw [← pending.getEntryMsgLen_eq, atZero, Nat.zero_add, ← valid.loggerOffset_eq] at tail
        rw [nextEntry, Nat.zero_add] at stops
        refine ⟨_, rest, ?_, tail, List.subset_cons_self first rest, tail.own_of_stops stops⟩
        rw [getNextEntryByUid, if_pos notEnd, if_neg notOwn, atZero]
        exact getNextEntryByUid_stops stops

end Scan

/-! ## Runs -/

/-- What is pending at an offset was written. -/
def Known (log : LoggerLog) (off : Nat) (written : List Record) : Prop :=
  ∃ records, Pending log off records ∧ records ⊆ written

/-- The reader of one user, with the records written so far. -/
structure Owned (index : Nat) (log : LoggerLog) (written : List Record) : Prop where
  valid : log.Valid
  known : ∃ reader, log.readers[index]? = some reader ∧ reader.rAll = false ∧
    Known log reader.rOff written

section Runs

variable {index : Nat} {euid : UInt32} {log next : LoggerLog} {written : List Record}
  {event : Call × Reply}

theorem storedRecords_snoc (events : List (Call × Reply)) (event : Call × Reply) :
    (events ++ [event]).filterMap storedRecord =
      events.filterMap storedRecord ++ (storedRecord event).toList :=
  filterMap_snoc ..

theorem Known.mono {off : Nat} (known : Known log off written) (more : List Record) :
    Known log off (written ++ more) := by
  obtain ⟨records, pending, wereWritten⟩ := known
  exact ⟨records, pending, fun _ isPending => List.mem_append_left _ (wereWritten isPending)⟩

theorem Known.withReaders {off : Nat} (known : Known log off written)
    (readers : List LoggerReader) : Known { log with readers } off written := by
  obtain ⟨records, pending, wereWritten⟩ := known
  exact ⟨records, pending.withReaders readers, wereWritten⟩

theorem Known.write {off : Nat} (known : Known log off written) (valid : log.Valid)
    (current : Task) (now realNow : Nat) {source : IovIter}
    (clear : unread log off + sizeofLoggerEntry + writeCount source < log.size) :
    let result := loggerWriteIter log current now realNow source
    Known result.log off
      (written ++ (storedRecord (.write current now realNow source, .wrote result.ret)).toList) := by
  obtain ⟨records, pending, wereWritten⟩ := known
  refine ⟨_, pending.write valid current now realNow clear, ?_⟩
  exact List.append_subset.mpr
    ⟨fun _ isOld => List.mem_append_left _ (wereWritten isOld),
      fun _ isNew => List.mem_append_right _ isNew⟩

/-- Before the reader is opened: what is pending at `head` was written. -/
theorem known_head {buffer : Nat → UInt8} {size : Nat} (power : ∃ k, size = 2 ^ k)
    {events : List (Call × Reply)} (run : Run OpenableStep (createLog buffer size) events log) :
    log.Valid ∧ Known log log.head (events.filterMap storedRecord) := by
  have valid := createLog_valid buffer power
  refine run.history_invariant
    (fun events log => log.Valid ∧ Known log log.head (events.filterMap storedRecord))
    ⟨valid, [], .nil_of_eq valid rfl, List.nil_subset _⟩ ?_
  intro events log event next ⟨valid, known⟩ ⟨step, fits⟩
  obtain ⟨nextValid, _, sameHead⟩ := step.keeps valid
  refine ⟨nextValid, ?_⟩
  rw [sameHead, storedRecords_snoc]
  obtain ⟨call, reply⟩ := event
  cases call with
  | openLog inEgroup capSyslog =>
      simp only [LoggerLog.Step, LoggerLog.call] at step
      cases step
      exact (known.mono _).withReaders _
  | write current now realNow source =>
      simp only [LoggerLog.Step, LoggerLog.call] at step
      cases step
      exact known.write valid current now realNow fits
  | read caller callerEuid user count =>
      obtain ⟨_, _, _, _, rfl, _⟩ := LoggerLog.step_read_iff.mp step
      exact (known.mono _).withReaders _

/-- A call that hands out no record. -/
theorem readBytes_none {event : Call × Reply} {property : List UInt8 → Prop}
    (nothing : readBytes index event = none) :
    ∀ bytes, readBytes index event = some bytes → property bytes := by
  intro bytes isRead
  cases nothing.symm.trans isRead

/-- One step of the log: the reader stays where records begin, and a record that it
gets is an own one that was written. -/
theorem Owned.step (owned : Owned index log written)
    (step : AlignedStep index euid log event next) :
    Owned index next (written ++ (storedRecord event).toList) ∧
      ∀ bytes, readBytes index event = some bytes →
        ∃ record ∈ written, record.header.euid = euid ∧ bytes = record.bytes := by
  obtain ⟨⟨called, fits⟩, aligned⟩ := step
  obtain ⟨valid, reader, opened, unprivileged, known⟩ := owned
  obtain ⟨nextValid, _, _⟩ := called.keeps valid
  obtain ⟨call, reply⟩ := event
  cases call with
  | openLog inEgroup capSyslog =>
      simp only [LoggerLog.Step, LoggerLog.call] at called
      cases called
      have bound : index < log.readers.length := (List.getElem?_eq_some_iff.mp opened).1
      refine ⟨⟨nextValid, reader, ?_, unprivileged, (known.mono _).withReaders _⟩, readBytes_none rfl⟩
      simp only [loggerOpen]
      rw [List.getElem?_append_left bound, opened]
  | write current now realNow source =>
      simp only [LoggerLog.Step, LoggerLog.call] at called
      cases called
      have sameReaders := (loggerWriteIter_keeps current now realNow source valid).2.2.2
      refine ⟨⟨nextValid, reader, ?_, unprivileged, ?_⟩, readBytes_none rfl⟩
      · rw [sameReaders, opened]
      · exact known.write valid current now realNow (fits reader opened)
  | read caller callerEuid user count =>
      obtain ⟨caller', rOff, calledOpen, scan, rfl, rfl⟩ := LoggerLog.step_read_iff.mp called
      have bound : caller < log.readers.length := (List.getElem?_eq_some_iff.mp calledOpen).1
      by_cases isOwner : caller = index
      · subst isOwner
        cases opened.symm.trans calledOpen
        cases fits rfl
        obtain ⟨records, pending, wereWritten⟩ := known
        obtain ⟨stop, rest, scanned, pendingRest, isRest, own⟩ :=
          scanOff_aligned valid pending unprivileged (aligned rfl reader opened)
        cases scan.symm.trans scanned
        have stored : rest ⊆ written := fun _ isPending => wereWritten (isRest isPending)
        have keptValid (readers : List LoggerReader) : { log with readers }.Valid :=
          ⟨valid.sizePow, valid.wOffInRing⟩
        let moved : LoggerReader := { reader with rOff }
        have pendingMoved : Pending log moved.rOff rest := pendingRest
        cases rest with
        | nil =>
            have atEnd : readAt log { reader with rOff } user count = (.wait, moved) :=
              readAt_nil pendingMoved user count
            rw [atEnd]
            refine ⟨⟨keptValid _, moved, by simp [bound], unprivileged, ?_⟩, readBytes_none rfl⟩
            exact ⟨[], pendingRest.withReaders _, List.nil_subset _⟩
        | cons record rest =>
            rcases readAt_cons valid pendingMoved user count with
              ⟨_, errno, failed⟩ | ⟨_, returned⟩
            · rw [failed]
              refine ⟨⟨keptValid _, moved, by simp [bound], unprivileged, ?_⟩, readBytes_none rfl⟩
              exact (Known.mono ⟨_, pendingRest, stored⟩ _).withReaders _
            · rw [returned]
              let stepped : LoggerReader :=
                { moved with rOff := (moved.rOff + record.bytes.length) % log.size }
              refine ⟨⟨keptValid _, stepped, by simp [bound, stepped], unprivileged, ?_⟩, ?_⟩
              · have storedRest : rest ⊆ written :=
                  fun _ isPending => stored (List.mem_cons_of_mem _ isPending)
                exact (Known.mono ⟨rest, pendingRest.tail, storedRest⟩ _).withReaders _
              · intro bytes isReturned
                simp only [readBytes, if_true, Option.some.injEq] at isReturned
                exact ⟨record, stored List.mem_cons_self, own record rfl, isReturned.symm⟩
      · refine ⟨⟨nextValid, reader, ?_, unprivileged, (known.mono _).withReaders _⟩, ?_⟩
        · rw [List.getElem?_set_ne isOwner, opened]
        · intro bytes isReturned
          generalize (readAt log { caller' with rOff } user count).1 = result at isReturned
          cases result with
          | wait => cases isReturned
          | error errno => cases isReturned
          | data returned =>
              rw [readBytes, if_neg isOwner] at isReturned
              cases isReturned

/-- Every record that a reader without the right to read all gets is, whole and
unaltered, one that was stored before under the user's id. -/
theorem own_records_only {buffer : Nat → UInt8} {size : Nat} (power : ∃ k, size = 2 ^ k)
    {earlier events : List (Call × Reply)} {opening : LoggerLog}
    (before : Run OpenableStep (createLog buffer size) earlier opening)
    {inEgroup capSyslog : Bool} (unprivileged : (inEgroup || capSyslog) = false)
    (run : Run (AlignedStep opening.readers.length euid)
      (loggerOpen opening inEgroup capSyslog) events log) :
    ∀ sofar event bytes, sofar ++ [event] <+: events →
      readBytes opening.readers.length event = some bytes →
        ∃ record ∈ (earlier ++ sofar).filterMap storedRecord,
          record.header.euid = euid ∧ bytes = record.bytes := by
  obtain ⟨valid, known⟩ := known_head power before
  let opened : LoggerReader := { rOff := opening.head, rAll := inEgroup || capSyslog, rVer := 1 }
  have start : Owned opening.readers.length (loggerOpen opening inEgroup capSyslog)
      (earlier.filterMap storedRecord) :=
    ⟨⟨valid.sizePow, valid.wOffInRing⟩, opened, by simp [loggerOpen, opened], unprivileged,
      known.withReaders _⟩
  refine (run.history_invariant
    (fun events log =>
      Owned opening.readers.length log ((earlier ++ events).filterMap storedRecord) ∧
        ∀ sofar event bytes, sofar ++ [event] <+: events →
          readBytes opening.readers.length event = some bytes →
            ∃ record ∈ (earlier ++ sofar).filterMap storedRecord,
              record.header.euid = euid ∧ bytes = record.bytes)
    ⟨by simpa using start, ?_⟩ ?_).2
  · intro sofar event bytes isPrefix
    simp at isPrefix
  · intro events log event next ⟨owned, ownSofar⟩ step
    obtain ⟨nextOwned, own⟩ := owned.step step
    rw [← List.append_assoc, storedRecords_snoc]
    refine ⟨nextOwned, ?_⟩
    intro sofar last bytes isPrefix isReturned
    rcases List.prefix_concat_iff.mp isPrefix with whole | shorter
    · obtain ⟨rfl, sameEvent⟩ := List.append_inj' whole rfl
      rw [List.singleton_inj.mp sameEvent] at isReturned
      exact own bytes isReturned
    · exact ownSofar sofar last bytes shorter isReturned

end Runs

/-! ## A scan that goes wrong -/

/-- One record of user 2, read by user 2. -/
theorem own_records_only_one :
    let task : Task := { tgid := 7, pid := 8, euid := 2 }
    let source : IovIter := { bytes := [65, 66], readable := 2 }
    let bytes : List UInt8 := (requestRecord task 0 0 source).bytes
    let events : List (Call × Reply) :=
      [(.write task 0 0 source, .wrote 2), (.read 0 2 ⟨4096⟩ 4096, .read (.data bytes))]
    ∃ log, Run (AlignedStep 0 2) (loggerOpen (createLog (fun _ => 0) 128) false false) events log ∧
      ∃ record ∈ events.filterMap storedRecord, record.header.euid = 2 ∧ bytes = record.bytes := by
  intro task source bytes events
  let opened := loggerOpen (createLog (fun _ => 0) 128) false false
  let written := (loggerWriteIter opened task 0 0 source).log
  have ret : (loggerWriteIter opened task 0 0 source).ret = 2 := by decide
  have writes : AlignedStep 0 2 opened (.write task 0 0 source, .wrote 2) written := by
    refine ⟨⟨?_, ?_⟩, trivial⟩
    · simp only [LoggerLog.Step, LoggerLog.call, ret]
      rfl
    · intro reader first
      cases first
      decide
  have returned : (written.call (.read 0 2 ⟨4096⟩ 4096)).map Prod.snd =
      some (.read (.data bytes)) := by decide
  obtain ⟨⟨log, reply⟩, called, isReply⟩ := Option.map_eq_some_iff.mp returned
  cases isReply
  have reads : AlignedStep 0 2 written (.read 0 2 ⟨4096⟩ 4096, .read (.data bytes)) log := by
    refine ⟨⟨called, fun _ => rfl⟩, ?_⟩
    intro _ reader isOpen
    have isFirst : written.readers[0]? = some { rOff := 0, rAll := false, rVer := 1 } := by decide
    cases isFirst.symm.trans isOpen
    exact .inr (.inl (by decide))
  have run : Run (AlignedStep 0 2) opened events log := .cons writes (.single reads)
  have own := own_records_only ⟨7, rfl⟩ .nil rfl run
  exact ⟨log, run, own [(.write task 0 0 source, .wrote 2)] (.read 0 2 ⟨4096⟩ 4096, _) bytes
    (List.prefix_refl _) rfl⟩

/-- User 2 gets payload bytes of user 1, who wrote all records: the payload of the
first one holds a header, and the length of the second leads the scan to it. -/
theorem foreign_payload_returned :
    let task : Task := { tgid := 7, pid := 8, euid := 1 }
    let header : LoggerEntry :=
      { len := 4, hdrSize := 32, pid := 0, tid := 0, sec := 0, nsec := 0, realSec := 0,
        realNsec := 0, euid := 2 }
    let payload : List UInt8 := 0 :: LoggerEntry.record.encode header
    let first : IovIter := { bytes := payload, readable := 33 }
    let second : IovIter := { bytes := [0], readable := 1 }
    let bytes : List UInt8 := LoggerEntry.record.encode header ++ [1, 0, 32, 0]
    let events : List (Call × Reply) :=
      [(.write task 0 0 first, .wrote 33), (.write task 0 0 second, .wrote 1),
        (.read 0 2 ⟨4096⟩ 4096, .read (.data bytes))]
    ∃ log, Run (OwnerStep 0 2) (loggerOpen (createLog (fun _ => 0) 128) false false) events log ∧
      ∀ record ∈ events.filterMap storedRecord, record.header.euid = 1 := by
  intro task header payload first second bytes events
  let opened := loggerOpen (createLog (fun _ => 0) 128) false false
  let one := (loggerWriteIter opened task 0 0 first).log
  let two := (loggerWriteIter one task 0 0 second).log
  have firstRet : (loggerWriteIter opened task 0 0 first).ret = 33 := by decide
  have writesFirst : OwnerStep 0 2 opened (.write task 0 0 first, .wrote 33) one := by
    refine ⟨?_, ?_⟩
    · simp only [LoggerLog.Step, LoggerLog.call, firstRet]
      rfl
    · intro reader isOpen
      cases isOpen
      decide
  have secondRet : (loggerWriteIter one task 0 0 second).ret = 1 := by decide
  have writesSecond : OwnerStep 0 2 one (.write task 0 0 second, .wrote 1) two := by
    refine ⟨?_, ?_⟩
    · simp only [LoggerLog.Step, LoggerLog.call, secondRet]
      rfl
    · intro reader isOpen
      have isFirst : one.readers[0]? = some { rOff := 0, rAll := false, rVer := 1 } := by decide
      cases isFirst.symm.trans isOpen
      decide
  have returned : (two.call (.read 0 2 ⟨4096⟩ 4096)).map Prod.snd =
      some (.read (.data bytes)) := by decide
  obtain ⟨⟨log, reply⟩, called, isReply⟩ := Option.map_eq_some_iff.mp returned
  cases isReply
  refine ⟨log, .cons writesFirst (.cons writesSecond (.single ⟨called, fun _ => rfl⟩)), ?_⟩
  decide

end DroidKernal.Log
