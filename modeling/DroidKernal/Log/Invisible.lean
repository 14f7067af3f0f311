import DroidKernal.Log.Queue
import DroidKernal.Log.Scan

/-!
# Failed calls

A write that fails has stored a header and a part of its payload behind `w_off`, and a
read that fails may have moved its reader over records of other users.  A log in which a
call failed is compared with the log in which it was not made: the cells that differ stay
between `w_off` and what a reader has not read, until later writes cover them, and the
scan of the next read ends where the scan of the failed one did.
-/

namespace DroidKernal.Log

open Lib

/-- The call reported an error. -/
def Reply.Failed : Reply → Prop
  | .wrote ret => ret < 0
  | .read (.error _) => True
  | _ => False

/-- A read through one file. -/
def Call.ReadsThrough (index : Nat) : Call → Prop
  | .read caller _ _ _ => caller = index
  | _ => False

instance (index : Nat) : DecidablePred (Call.ReadsThrough index)
  | .read caller _ _ _ => inferInstanceAs (Decidable (caller = index))
  | .openLog _ _ => inferInstanceAs (Decidable False)
  | .write _ _ _ _ => inferInstanceAs (Decidable False)

/-- The reads through one file, with their replies. -/
def readsThrough (index : Nat) (events : List (Call × Reply)) : List (Call × Reply) :=
  events.filter fun event => event.1.ReadsThrough index

/-- A read of the call goes through a file that may read all records. -/
def Call.Privileged (log : LoggerLog) : Call → Prop
  | .read index _ _ _ => ∀ reader, log.readers[index]? = some reader → reader.rAll = true
  | _ => True

/-- A step that scans for no user. -/
def PrivilegedStep (log : LoggerLog) (event : Call × Reply) (next : LoggerLog) : Prop :=
  log.Step event next ∧ event.1.Privileged log

/-- Whatever is called on the two logs from now on, the reads through a file are answered
alike.  The calls can be made on the second one as well, if no scan is among them. -/
def ReadsAlike (index : Nat) (log other : LoggerLog) : Prop :=
  (∀ events events' next next', Run LoggerLog.Step log events next →
    Run LoggerLog.Step other events' next' → events'.map Prod.fst = events.map Prod.fst →
    readsThrough index events' = readsThrough index events) ∧
  ∀ events next, Run PrivilegedStep log events next → ∃ events' next',
    Run LoggerLog.Step other events' next' ∧ events'.map Prod.fst = events.map Prod.fst

/-- Where the driver finds the bytes of the header at an offset. -/
def headerCell (log : LoggerLog) (off i : Nat) : Nat :=
  if i < log.size - off then off + i else i - (log.size - off)

/-- A write stays clear of the headers that a scan read, and leaves `w_off` at none that it
skipped. -/
def Spares (looked : List Nat) (euid : UInt32) (log : LoggerLog) : Call → Prop
  | .write _ _ _ source => ∀ off ∈ looked,
      sizeofLoggerEntry + writeCount source ≤ log.size ∧
        (∀ i, i < sizeofLoggerEntry → ∀ j, j < sizeofLoggerEntry + writeCount source →
          headerCell log off i ≠ (log.wOff + j) % log.size) ∧
        ((getEntryHeader log off).euid = euid ∨
          (log.wOff + (sizeofLoggerEntry + writeCount source)) % log.size ≠ off)
  | _ => True

/-- The headers that the scan of a read looks at. -/
def scanned (log : LoggerLog) (reader : LoggerReader) (euid : UInt32) : List Nat :=
  if reader.rAll then [] else inspected log euid (scanFuel log) reader.rOff

/-- A step of others that spares the headers that a scan read. -/
def SparingStep (index : Nat) (looked : List Nat) (euid : UInt32) (log : LoggerLog)
    (event : Call × Reply) (next : LoggerLog) : Prop :=
  log.Step event next ∧ ¬ event.1.ReadsThrough index ∧ Spares looked euid log event.1

/-- After calls of others, the next read of a user through a file does the same on both
logs. -/
def ReadsNext (index : Nat) (looked : List Nat) (euid : UInt32) (log other : LoggerLog) : Prop :=
  ∀ events next, Run (SparingStep index looked euid) log events next →
    ∃ next', Run LoggerLog.Step other events next' ∧
      ∀ user count reply final,
        next.Step (.read index euid user count, reply) final ↔
          next'.Step (.read index euid user count, reply) final

/-! ## Writes -/

section Stores

variable {log other : LoggerLog} {header : LoggerEntry} {source : IovIter}

theorem storeRecord_changes (valid : log.Valid) (header : LoggerEntry) (source : IovIter)
    (fits : sizeofLoggerEntry + (fetched source).length ≤ log.size) :
    Ring.ChangesOnly log.size log.wOff (sizeofLoggerEntry + (fetched source).length)
      log.buffer (storeRecord log header source) := by
  have headerLen : (LoggerEntry.record.encode header).length = sizeofLoggerEntry := by simp
  have headerFits : (LoggerEntry.record.encode header).length ≤ log.size := by omega
  have headerStored := Ring.changesOnly_storeSplit log.buffer valid.wOffInRing headerFits
  rw [headerLen] at headerStored
  apply headerStored.append
  rw [← Ring.changesOnly_mod, ← valid.loggerOffset_eq]
  apply Ring.changesOnly_storeSplit
  · rw [valid.loggerOffset_eq]
    exact Nat.mod_lt _ valid.sizePos
  · omega

/-- A record stored in two logs leaves the same cells where it is stored, and where they
were the same. -/
theorem storeRecord_congr (valid : log.Valid) (sameSize : other.size = log.size)
    (sameEnd : other.wOff = log.wOff) {i : Nat}
    (same : (∃ j, j < sizeofLoggerEntry + (fetched source).length ∧
      i = (log.wOff + j) % log.size) ∨ other.buffer i = log.buffer i) :
    storeRecord other header source i = storeRecord log header source i := by
  have sameOff : loggerOffset other (other.wOff + sizeofLoggerEntry) =
      loggerOffset log (log.wOff + sizeofLoggerEntry) := by
    rw [loggerOffset, loggerOffset, sameSize, sameEnd]
  have payloadOff : loggerOffset log (log.wOff + sizeofLoggerEntry) < log.size := by
    rw [valid.loggerOffset_eq]
    exact Nat.mod_lt _ valid.sizePos
  rw [storeRecord, storeRecord, sameOff, sameSize, sameEnd]
  apply Ring.storeSplit_congr payloadOff
  by_cases payload : ∃ j, j < (fetched source).length ∧
      i = (loggerOffset log (log.wOff + sizeofLoggerEntry) + j) % log.size
  · exact .inl payload
  · right
    apply Ring.storeSplit_congr valid.wOffInRing
    rcases same with ⟨j, bound, rfl⟩ | same
    · left
      refine ⟨j, ?_, rfl⟩
      rw [FlatRecord.encode_length, record_size]
      by_contra inPayload
      apply payload
      refine ⟨j - sizeofLoggerEntry, by omega, ?_⟩
      rw [valid.loggerOffset_eq, Nat.mod_add_mod]
      congr 1
      omega
    · exact .inr same

/-- What a write that completes leaves behind. -/
theorem stored_log (valid : log.Valid) (current : Task) (now realNow : Nat)
    (positive : 0 < writeCount source) (complete : writeCount source ≤ source.readable) :
    (fetched source).length = writeCount source ∧
      (loggerWriteIter log current now realNow source).log =
        { log with
          buffer := storeRecord log (writeHeader current now realNow (writeCount source)) source
          wOff := (log.wOff + (sizeofLoggerEntry + writeCount source)) % log.size } := by
  constructor
  · have within := writeCount_le_length source
    rw [fetched, List.length_take]
    omega
  · rw [loggerWriteIter_stored log current now realNow positive complete]
    simp only [valid.loggerOffset_eq, Nat.mod_add_mod, Nat.add_assoc]

end Stores

/-! ## The log with a failed write, and the log without it -/

/-- A log in which a write failed, seen from one reader.  Up to `dirty` bytes behind `w_off`
may differ, and they are not among those the reader has not read. -/
structure Shadowed (index : Nat) (reader : LoggerReader) (dirty : Nat) (log other : LoggerLog) :
    Prop where
  valid : log.Valid
  sameSize : other.size = log.size
  sameEnd : other.wOff = log.wOff
  sameRights : other.readers.map LoggerReader.rAll = log.readers.map LoggerReader.rAll
  isReader : log.readers[index]? = some reader
  isReader' : other.readers[index]? = some reader
  privileged : reader.rAll = true
  changes : Ring.ChangesOnly log.size log.wOff dirty log.buffer other.buffer
  clear : dirty = 0 ∨ ∃ records, Pending log reader.rOff records ∧
    unread log reader.rOff + dirty ≤ log.size

section Alike

variable {log other next : LoggerLog} {reader : LoggerReader} {records : List Record}
  {index dirty : Nat}

theorem LoggerLog.Valid.withReaders (valid : log.Valid) (readers : List LoggerReader) :
    { log with readers }.Valid :=
  ⟨valid.sizePow, valid.wOffInRing⟩

/-- A read depends on the ring, its size and `w_off`. -/
theorem readAt_congr (sameSize : other.size = log.size) (sameEnd : other.wOff = log.wOff)
    (sameBuffer : other.buffer = log.buffer) (reader : LoggerReader) (user : UserBuffer)
    (count : Nat) : readAt other reader user count = readAt log reader user count := by
  simp only [readAt, doReadLogToUser, getEntryMsgLen, getEntryHeader, loggerOffset, sameSize,
    sameEnd, sameBuffer]

/-- Of the ring, it depends on the record that it returns. -/
theorem readAt_record {record : Record} (valid : log.Valid) (sameSize : other.size = log.size)
    (sameEnd : other.wOff = log.wOff) (inRing : reader.rOff < log.size)
    (fits : record.bytes.length ≤ log.size)
    (len_eq : record.header.len.toNat = record.payload.length)
    (held : Ring.Holds log.size log.buffer reader.rOff record.bytes)
    (held' : Ring.Holds log.size other.buffer reader.rOff record.bytes)
    (user : UserBuffer) (count : Nat) :
    readAt other reader user count = readAt log reader user count := by
  have total := record.bytes_length
  have header := getEntryHeader_eq inRing held (by omega)
  have inRing' : reader.rOff < other.size := by rwa [sameSize]
  have header' : getEntryHeader other reader.rOff = record.header :=
    getEntryHeader_eq inRing' (by rwa [sameSize]) (by omega)
  have sameOffset : ∀ n, loggerOffset other n = loggerOffset log n := by
    intro n
    rw [loggerOffset, loggerOffset, sameSize]
  have payloadOff : loggerOffset log (reader.rOff + sizeofLoggerEntry) < log.size := by
    rw [valid.loggerOffset_eq]
    exact Nat.mod_lt _ valid.sizePos
  have payload : ∀ {buffer : Nat → UInt8},
      Ring.Holds log.size buffer reader.rOff record.bytes →
      Ring.Holds log.size buffer (loggerOffset log (reader.rOff + sizeofLoggerEntry))
        record.payload := by
    intro buffer isHeld
    have rest := (Ring.holds_append.mp isHeld).2
    rw [FlatRecord.encode_length, record_size] at rest
    rw [valid.loggerOffset_eq]
    exact Ring.holds_mod.mpr rest
  have loaded := (payload held).read_split payloadOff (by omega)
  have loaded' := (payload held').read_split payloadOff (by omega)
  simp only [readAt, doReadLogToUser, getEntryMsgLen, getUserHdrLen, header, header', sameSize,
    sameEnd, sameOffset, len_eq, Nat.add_sub_cancel_left, loaded, loaded']

/-- A read that fails leaves its reader where the scan put it. -/
theorem readAt_error {user : UserBuffer} {count : Nat} {errno : Int}
    (failed : (readAt log reader user count).1 = .error errno) :
    (readAt log reader user count).2 = reader := by
  simp only [readAt, doReadLogToUser] at failed ⊢
  split_ifs at failed ⊢ <;> rfl

/-- No read changes what its reader may read. -/
theorem readAt_rAll (log : LoggerLog) (reader : LoggerReader) (user : UserBuffer) (count : Nat) :
    (readAt log reader user count).2.rAll = reader.rAll := by
  simp only [readAt, doReadLogToUser]
  split_ifs <;> rfl

/-- A reader that keeps its right takes its place. -/
theorem rights_set {readers : List LoggerReader} {moved : LoggerReader}
    (isReader : readers[index]? = some reader) (same : moved.rAll = reader.rAll) :
    (readers.set index moved).map LoggerReader.rAll = readers.map LoggerReader.rAll := by
  have bound := (List.getElem?_eq_some_iff.mp isReader).1
  have mapped : index < (readers.map LoggerReader.rAll).length := by rwa [List.length_map]
  have here : (readers.map LoggerReader.rAll)[index] = moved.rAll := by
    rw [List.getElem_map, (List.getElem?_eq_some_iff.mp isReader).2, same]
  rw [List.map_set, ← here, List.set_getElem_self]

/-- After a read, what is pending is still clear of as many bytes. -/
theorem Pending.readAt_room (pending : Pending log reader.rOff records) (valid : log.Valid)
    (room : unread log reader.rOff + dirty ≤ log.size) (user : UserBuffer) (count : Nat) :
    ∃ rest, Pending log (readAt log reader user count).2.rOff rest ∧
      unread log (readAt log reader user count).2.rOff + dirty ≤ log.size := by
  cases records with
  | nil =>
      rw [readAt_nil pending]
      exact ⟨[], pending, room⟩
  | cons record rest =>
      rcases readAt_cons valid pending user count with ⟨_, errno, failed⟩ | ⟨_, returned⟩
      · rw [failed]
        exact ⟨_, pending, room⟩
      · rw [returned]
        have tail := pending.tail
        refine ⟨rest, tail, ?_⟩
        rw [pending.unread_eq, recordsBytes_cons, List.length_append] at room
        simp only
        rw [tail.unread_eq]
        omega

namespace Shadowed

/-- Reads of the reader are answered alike. -/
theorem readAt (shadowed : Shadowed index reader dirty log other) (user : UserBuffer)
    (count : Nat) : Log.readAt other reader user count = Log.readAt log reader user count := by
  obtain ⟨valid, sameSize, sameEnd, _, _, _, _, changes, clean | ⟨records, pending, room⟩⟩ :=
    shadowed
  · rw [clean] at changes
    exact readAt_congr sameSize sameEnd changes.eq reader user count
  · have held' := pending.frame valid changes.agreesOutside room
    cases records with
    | nil =>
        have atEnd : log.wOff = reader.rOff := by
          by_contra differs
          exact pending.ne_wOff_iff.mp differs rfl
        simp only [Log.readAt, sameEnd, if_pos atEnd]
    | cons record rest =>
        rw [recordsBytes_cons] at held'
        exact readAt_record valid sameSize sameEnd pending.inRing pending.head_fits.le
          (pending.wellFormed record List.mem_cons_self).len_eq pending.head_held
          (Ring.holds_append.mp held').1 user count

/-- A write of `len` bytes at `w_off` covers that many of the cells that differ, and keeps
what the reader has not read unless it covers all of them. -/
theorem store (shadowed : Shadowed index reader dirty log other) (header : LoggerEntry)
    (source : IovIter) :
    Ring.ChangesOnly log.size (log.wOff + (sizeofLoggerEntry + (fetched source).length))
      (dirty - (sizeofLoggerEntry + (fetched source).length))
      (storeRecord log header source) (storeRecord other header source) := by
  intro i outside
  apply storeRecord_congr shadowed.valid shadowed.sameSize shadowed.sameEnd
  by_cases covered : ∃ j, j < sizeofLoggerEntry + (fetched source).length ∧
      i = (log.wOff + j) % log.size
  · exact .inl covered
  · right
    apply shadowed.changes
    intro j bound isCell
    rcases Nat.lt_or_ge j (sizeofLoggerEntry + (fetched source).length) with before | after
    · exact covered ⟨j, before, isCell⟩
    · obtain ⟨k, rfl⟩ := Nat.exists_eq_add_of_le after
      apply outside k (by omega)
      rw [isCell, Nat.add_assoc log.wOff]

/-- What the reader has not read is kept by a write that does not reach it. -/
theorem keep (shadowed : Shadowed index reader dirty log other) (header : LoggerEntry)
    {source : IovIter} (before : sizeofLoggerEntry + (fetched source).length < dirty) :
    ∃ records, Pending { log with buffer := storeRecord log header source } reader.rOff records ∧
      unread log reader.rOff + dirty ≤ log.size := by
  rcases shadowed.clear with clean | ⟨records, pending, room⟩
  · omega
  · have changes := storeRecord_changes shadowed.valid header source (by omega)
    exact ⟨records, pending.keep shadowed.valid changes.agreesOutside (by omega), room⟩

/-- A write that faults keeps the logs alike for the reader. -/
theorem fault (shadowed : Shadowed index reader dirty log other) (header : LoggerEntry)
    (source : IovIter) :
    ∃ dirty', Shadowed index reader dirty'
      { log with buffer := storeRecord log header source }
      { other with buffer := storeRecord other header source } := by
  have stores := shadowed.store header source
  rcases Nat.lt_or_ge (sizeofLoggerEntry + (fetched source).length) dirty with before | covers
  · refine ⟨dirty, { shadowed with
      valid := ⟨shadowed.valid.sizePow, shadowed.valid.wOffInRing⟩
      changes := ?_
      clear := .inr (shadowed.keep header before) }⟩
    intro i outside
    apply stores
    intro j bound
    rw [Nat.add_assoc]
    exact outside _ (by omega)
  · refine ⟨0, { shadowed with
      valid := ⟨shadowed.valid.sizePow, shadowed.valid.wOffInRing⟩
      changes := ?_
      clear := .inl rfl }⟩
    rw [Nat.sub_eq_zero_of_le covers] at stores
    intro i _
    exact congrFun stores.eq i

/-- So does a write that completes. -/
theorem complete (shadowed : Shadowed index reader dirty log other) (current : Task)
    (now realNow : Nat) {source : IovIter} (positive : 0 < writeCount source)
    (readable : writeCount source ≤ source.readable) :
    ∃ dirty', Shadowed index reader dirty'
      (loggerWriteIter log current now realNow source).log
      (loggerWriteIter other current now realNow source).log := by
  have valid := shadowed.valid
  have valid' : other.Valid := by
    constructor
    · rw [shadowed.sameSize]
      exact valid.sizePow
    · rw [shadowed.sameSize, shadowed.sameEnd]
      exact valid.wOffInRing
  obtain ⟨whole, stored⟩ := stored_log valid current now realNow positive readable
  obtain ⟨_, stored'⟩ := stored_log valid' current now realNow positive readable
  have stores := shadowed.store (writeHeader current now realNow (writeCount source)) source
  rw [whole] at stores
  rw [stored, stored', shadowed.sameEnd, shadowed.sameSize]
  refine ⟨dirty - (sizeofLoggerEntry + writeCount source), { shadowed with
    valid := ⟨valid.sizePow, Nat.mod_lt _ valid.sizePos⟩
    sameSize := rfl
    sameEnd := rfl
    changes := Ring.changesOnly_mod.mpr stores
    clear := ?_ }⟩
  rcases Nat.lt_or_ge (sizeofLoggerEntry + writeCount source) dirty with before | covers
  · right
    rcases shadowed.clear with clean | ⟨records, pending, room⟩
    · omega
    · have length : (requestRecord current now realNow source).bytes.length =
          sizeofLoggerEntry + writeCount source := requestRecord_bytes_length current now realNow
      have changes := (storeRecord_changes valid
        (writeHeader current now realNow (writeCount source)) source (by omega)).agreesOutside
      have held := storeRecord_holds valid current now realNow (by omega) readable
      rw [whole, ← length] at changes
      have pushed := pending.push valid (requestRecord_wellFormed current now realNow positive)
        changes held (by omega)
      rw [length] at pushed
      refine ⟨_, pushed, ?_⟩
      have more := pushed.unread_eq
      rw [recordsBytes_append, List.length_append, ← pending.unread_eq, recordsBytes_cons,
        recordsBytes_nil, List.append_nil, length] at more
      rw [more]
      simp only
      omega
  · left
    exact Nat.sub_eq_zero_of_le covers

/-- A write keeps the logs alike for the reader. -/
theorem write (shadowed : Shadowed index reader dirty log other) (current : Task)
    (now realNow : Nat) (source : IovIter) :
    ∃ dirty', Shadowed index reader dirty'
      (loggerWriteIter log current now realNow source).log
      (loggerWriteIter other current now realNow source).log := by
  rcases Nat.eq_zero_or_pos (writeCount source) with empty | positive
  · rw [loggerWriteIter_empty log current now realNow empty,
      loggerWriteIter_empty other current now realNow empty]
    exact ⟨dirty, shadowed⟩
  · rcases Nat.lt_or_ge source.readable (writeCount source) with short | readable
    · rw [loggerWriteIter_fault log current now realNow short,
        loggerWriteIter_fault other current now realNow short]
      exact shadowed.fault _ source
    · exact shadowed.complete current now realNow positive readable

/-- The logs stay alike for the reader over one call, and a read through it is answered
alike. -/
theorem step {event event' : Call × Reply} {next' : LoggerLog}
    (shadowed : Shadowed index reader dirty log other) (taken : log.Step event next)
    (taken' : other.Step event' next') (sameCall : event'.1 = event.1) :
    (∃ reader' dirty', Shadowed index reader' dirty' next next') ∧
      (event.1.ReadsThrough index → event' = event) := by
  obtain ⟨call, reply⟩ := event
  obtain ⟨_, reply'⟩ := event'
  cases sameCall
  cases call with
  | openLog inEgroup capSyslog =>
      cases taken
      cases taken'
      have bound := (List.getElem?_eq_some_iff.mp shadowed.isReader).1
      have bound' := (List.getElem?_eq_some_iff.mp shadowed.isReader').1
      refine ⟨⟨reader, dirty, { shadowed with
        valid := shadowed.valid.withReaders _
        sameRights := ?_, isReader := ?_, isReader' := ?_, clear := ?_ }⟩, False.elim⟩
      · simp only [loggerOpen, List.map_append, shadowed.sameRights, List.map_cons, List.map_nil]
      · simp only [loggerOpen]
        rw [List.getElem?_append_left bound, shadowed.isReader]
      · simp only [loggerOpen]
        rw [List.getElem?_append_left bound', shadowed.isReader']
      · rcases shadowed.clear with clean | ⟨records, pending, room⟩
        · exact .inl clean
        · exact .inr ⟨records, pending.withReaders _, room⟩
  | write current now realNow source =>
      cases taken
      cases taken'
      exact ⟨⟨reader, shadowed.write current now realNow source⟩, False.elim⟩
  | read caller euid user count =>
      obtain ⟨first, rOff, opened, scan, rfl, rfl⟩ := LoggerLog.step_read_iff.mp taken
      obtain ⟨second, rOff', opened', scan', rfl, rfl⟩ := LoggerLog.step_read_iff.mp taken'
      have sameRights := (rights_set opened' (readAt_rAll other { second with rOff := rOff' }
        user count)).trans (shadowed.sameRights.trans (rights_set opened
          (readAt_rAll log { first with rOff } user count)).symm)
      by_cases own : caller = index
      · subst own
        cases opened.symm.trans shadowed.isReader
        cases opened'.symm.trans shadowed.isReader'
        rw [scanOff, if_pos shadowed.privileged] at scan scan'
        cases scan
        cases scan'
        have bound := (List.getElem?_eq_some_iff.mp opened).1
        have bound' := (List.getElem?_eq_some_iff.mp opened').1
        have same := shadowed.readAt user count
        refine ⟨⟨(Log.readAt log reader user count).2, dirty, { shadowed with
          valid := shadowed.valid.withReaders _
          sameRights, isReader := ?_, isReader' := ?_, privileged := ?_, clear := ?_ }⟩,
          fun _ => by rw [same]⟩
        · exact List.getElem?_set_self bound
        · rw [same]
          exact List.getElem?_set_self bound'
        · rw [readAt_rAll]
          exact shadowed.privileged
        · rcases shadowed.clear with clean | ⟨records, pending, room⟩
          · exact .inl clean
          · obtain ⟨rest, left, room⟩ :=
              pending.readAt_room shadowed.valid room user count
            exact .inr ⟨rest, left.withReaders _, room⟩
      · refine ⟨⟨reader, dirty, { shadowed with
          valid := shadowed.valid.withReaders _
          sameRights, isReader := ?_, isReader' := ?_, clear := ?_ }⟩,
          fun mine => absurd mine own⟩
        · rw [← shadowed.isReader]
          exact List.getElem?_set_ne own
        · rw [← shadowed.isReader']
          exact List.getElem?_set_ne own
        · rcases shadowed.clear with clean | ⟨records, pending, room⟩
          · exact .inl clean
          · exact .inr ⟨records, pending.withReaders _, room⟩

theorem run (shadowed : Shadowed index reader dirty log other)
    {events events' : List (Call × Reply)} {next' : LoggerLog} (called : Run LoggerLog.Step log events next)
    (called' : Run LoggerLog.Step other events' next')
    (sameCalls : events'.map Prod.fst = events.map Prod.fst) :
    (∃ reader' dirty', Shadowed index reader' dirty' next next') ∧
      readsThrough index events' = readsThrough index events := by
  induction called generalizing events' next' with
  | nil =>
      cases List.map_eq_nil_iff.mp sameCalls
      generalize isNil : ([] : List (Call × Reply)) = none at called'
      cases called' with
      | nil => exact ⟨⟨reader, dirty, shadowed⟩, rfl⟩
      | snoc _ _ => exact absurd isNil (by simp)
  | @snoc events state next event called taken ih =>
      cases called' with
      | nil => exact absurd sameCalls (by simp)
      | @snoc events' state' _ event' called' taken' =>
          rw [List.map_append, List.map_append] at sameCalls
          obtain ⟨sameCalls, sameCall⟩ := List.append_inj' sameCalls rfl
          obtain ⟨⟨reader', dirty', alike⟩, sameReads⟩ := ih called' sameCalls
          obtain ⟨after, answered⟩ := alike.step taken taken' (List.cons.inj sameCall).1
          refine ⟨after, ?_⟩
          simp only [readsThrough, List.filter_append] at sameReads ⊢
          rw [sameReads]
          congr 1
          by_cases mine : event.1.ReadsThrough index
          · rw [answered mine]
          · have notMine : ¬ event'.1.ReadsThrough index := by
              rwa [(List.cons.inj sameCall).1]
            simp [mine, notMine]

/-- A call without a scan can be made on the other log as well. -/
theorem answers {event : Call × Reply} (shadowed : Shadowed index reader dirty log other)
    (taken : PrivilegedStep log event next) :
    ∃ reply next', other.Step (event.1, reply) next' := by
  obtain ⟨called, privileged⟩ := taken
  obtain ⟨call, reply⟩ := event
  cases call with
  | openLog inEgroup capSyslog => exact ⟨_, _, rfl⟩
  | write current now realNow source => exact ⟨_, _, rfl⟩
  | read caller euid user count =>
      obtain ⟨first, _, opened, _⟩ := LoggerLog.step_read_iff.mp called
      have right := congrArg (·[caller]?) shadowed.sameRights
      simp only [List.getElem?_map, opened, Option.map_some, privileged first opened,
        Option.map_eq_some_iff] at right
      obtain ⟨second, opened', right'⟩ := right
      refine ⟨_, _, LoggerLog.step_read_iff.mpr ⟨second, second.rOff, opened', ?_, rfl, rfl⟩⟩
      rw [scanOff, if_pos right']

theorem readsAlike (shadowed : Shadowed index reader dirty log other) :
    ReadsAlike index log other := by
  refine ⟨fun events events' next next' called called' sameCalls =>
    (shadowed.run called called' sameCalls).2, fun events next called => ?_⟩
  have both : ∃ events' next', Run LoggerLog.Step other events' next' ∧
      events'.map Prod.fst = events.map Prod.fst ∧ Run LoggerLog.Step log events next := by
    induction called with
    | nil => exact ⟨[], other, .nil, rfl, .nil⟩
    | @snoc events state next event _ taken ih =>
        obtain ⟨events', state', called', sameCalls, called⟩ := ih
        obtain ⟨⟨reader', dirty', alike⟩, _⟩ := shadowed.run called called' sameCalls
        obtain ⟨reply, next', taken'⟩ := alike.answers taken
        refine ⟨_, next', called'.snoc taken', ?_, called.snoc taken.1⟩
        rw [List.map_append, List.map_append, sameCalls, List.map_singleton, List.map_singleton]
  obtain ⟨events', next', called', sameCalls, _⟩ := both
  exact ⟨events', next', called', sameCalls⟩

end Shadowed

/-- A write that fails changes only bytes behind `w_off`. -/
theorem failed_write_shadowed (valid : log.Valid) (isReader : log.readers[index]? = some reader)
    (privileged : reader.rAll = true) (pending : Pending log reader.rOff records)
    {current : Task} {now realNow : Nat} {source : IovIter}
    (clear : unread log reader.rOff + sizeofLoggerEntry + writeCount source ≤ log.size)
    (short : source.readable < writeCount source) :
    Shadowed index reader (sizeofLoggerEntry + (fetched source).length) log
      (loggerWriteIter log current now realNow source).log := by
  have within := fetched_length_le source
  rw [loggerWriteIter_fault log current now realNow short]
  exact
    { valid
      sameSize := rfl
      sameEnd := rfl
      sameRights := rfl
      isReader
      isReader' := isReader
      privileged
      changes := storeRecord_changes valid _ source (by omega)
      clear := .inr ⟨records, pending, by omega⟩ }

end Alike

/-! ## The log with a failed read, and the log without it -/

/-- The log with another offset in one of its readers. -/
def LoggerLog.withReader (log : LoggerLog) (index : Nat) (reader : LoggerReader) : LoggerLog :=
  { log with readers := log.readers.set index reader }

section Scans

variable {log next : LoggerLog} {reader moved : LoggerReader} {index : Nat} {euid : UInt32}
  {looked : List Nat}

theorem getNextEntryByUid_withReader (fuel off : Nat) :
    getNextEntryByUid (log.withReader index moved) euid fuel off =
      getNextEntryByUid log euid fuel off := by
  induction fuel generalizing off with
  | zero => rfl
  | succ fuel ih =>
      simp only [getNextEntryByUid, ih]
      rfl

theorem scanOff_withReader (reader : LoggerReader) :
    scanOff (log.withReader index moved) reader euid = scanOff log reader euid := by
  rw [scanOff, scanOff, getNextEntryByUid_withReader]
  rfl

theorem readAt_withReader (reader : LoggerReader) (user : UserBuffer) (count : Nat) :
    readAt (log.withReader index moved) reader user count = readAt log reader user count :=
  rfl

/-- A read whose scan ends at a record that is returned. -/
theorem LoggerLog.step_data {user : UserBuffer} {count rOff : Nat} {bytes : List UInt8}
    (opened : log.readers[index]? = some reader) (scan : scanOff log reader euid = some rOff)
    (returned : (readAt log { reader with rOff } user count).1 = .data bytes) :
    ∃ final, log.Step (.read index euid user count, .read (.data bytes)) final :=
  ⟨_, LoggerLog.step_read_iff.mpr ⟨reader, rOff, opened, scan, rfl, by rw [returned]⟩⟩

theorem loggerWriteIter_withReader (log : LoggerLog) (index : Nat) (moved : LoggerReader)
    (current : Task) (now realNow : Nat) (source : IovIter) :
    (loggerWriteIter (log.withReader index moved) current now realNow source).ret =
        (loggerWriteIter log current now realNow source).ret ∧
      (loggerWriteIter (log.withReader index moved) current now realNow source).log =
        (loggerWriteIter log current now realNow source).log.withReader index moved := by
  rcases Nat.eq_zero_or_pos (writeCount source) with empty | positive
  · simp only [loggerWriteIter_empty _ current now realNow empty, and_self]
  · rcases Nat.lt_or_ge source.readable (writeCount source) with short | readable
    · simp only [loggerWriteIter_fault _ current now realNow short, true_and]
      rfl
    · simp only [loggerWriteIter_stored _ current now realNow positive readable]
      exact ⟨rfl, rfl⟩

/-- The offset of one reader does not matter to the calls of others. -/
theorem LoggerLog.Step.withReader {event : Call × Reply} (taken : log.Step event next)
    (others : ¬ event.1.ReadsThrough index) (bound : index < log.readers.length)
    (moved : LoggerReader) :
    (log.withReader index moved).Step event (next.withReader index moved) := by
  obtain ⟨call, reply⟩ := event
  cases call with
  | openLog inEgroup capSyslog =>
      cases taken
      simp only [LoggerLog.Step, LoggerLog.call, loggerOpen, LoggerLog.withReader,
        List.set_append_left index moved bound]
  | write current now realNow source =>
      cases taken
      obtain ⟨sameRet, sameLog⟩ :=
        loggerWriteIter_withReader log index moved current now realNow source
      simp only [LoggerLog.Step, LoggerLog.call, sameRet, sameLog]
  | read caller callerEuid user count =>
      obtain ⟨first, rOff, opened, scan, rfl, rfl⟩ := LoggerLog.step_read_iff.mp taken
      apply LoggerLog.step_read_iff.mpr
      refine ⟨first, rOff, ?_, ?_, ?_, rfl⟩
      · rw [← opened]
        exact List.getElem?_set_ne (Ne.symm others)
      · rw [scanOff_withReader, scan]
      · simp only [LoggerLog.withReader]
        rw [List.set_comm _ _ others]
        rfl

/-- Calls of others leave a reader where it is. -/
theorem LoggerLog.Step.keepsReader {event : Call × Reply} (taken : log.Step event next)
    (valid : log.Valid) (others : ¬ event.1.ReadsThrough index)
    (isReader : log.readers[index]? = some reader) : next.readers[index]? = some reader := by
  obtain ⟨call, reply⟩ := event
  cases call with
  | openLog inEgroup capSyslog =>
      cases taken
      simp only [loggerOpen]
      rw [List.getElem?_append_left (List.getElem?_eq_some_iff.mp isReader).1, isReader]
  | write current now realNow source =>
      cases taken
      rw [(loggerWriteIter_keeps current now realNow source valid).2.2.2, isReader]
  | read caller callerEuid user count =>
      obtain ⟨_, _, _, _, rfl, _⟩ := LoggerLog.step_read_iff.mp taken
      rw [← isReader]
      exact List.getElem?_set_ne others

/-- The bytes of a header are in its cells. -/
theorem getEntryHeader_congr (sameSize : next.size = log.size) {off : Nat}
    (same : ∀ i, i < sizeofLoggerEntry →
      next.buffer (headerCell log off i) = log.buffer (headerCell log off i)) :
    getEntryHeader next off = getEntryHeader log off := by
  have first : ∀ len, len ≤ sizeofLoggerEntry → len ≤ log.size - off →
      Mem.read next.buffer off len = Mem.read log.buffer off len := by
    intro len small inside
    apply Mem.read_congr
    intro i bound
    have cell := same i (by omega)
    rwa [headerCell, if_pos (by omega)] at cell
  have rest : Mem.read next.buffer 0 (sizeofLoggerEntry - min sizeofLoggerEntry (log.size - off)) =
      Mem.read log.buffer 0 (sizeofLoggerEntry - min sizeofLoggerEntry (log.size - off)) := by
    apply Mem.read_congr
    intro i bound
    have cell := same (log.size - off + i) (by omega)
    rwa [headerCell, if_neg (by omega), Nat.add_sub_cancel_left, ← Nat.zero_add i] at cell
  simp only [getEntryHeader, sameSize]
  split
  next => rw [first _ (Nat.min_le_left _ _) (Nat.min_le_right _ _), rest]
  next whole =>
    rw [first _ (Nat.le_refl _) (by omega)]

/-- The headers that a scan read are still there, and `w_off` is at none that it
skipped. -/
def Kept (looked : List Nat) (euid : UInt32) (log next : LoggerLog) : Prop :=
  next.Valid ∧ next.size = log.size ∧
    ∀ off ∈ looked, getEntryHeader next off = getEntryHeader log off ∧
      ((getEntryHeader log off).euid = euid ∨ next.wOff ≠ off)

/-- A call that spares the headers leaves them where they are. -/
theorem Kept.step {event : Call × Reply} {state : LoggerLog} (kept : Kept looked euid log state)
    (taken : state.Step event next) (spares : Spares looked euid state event.1) :
    Kept looked euid log next := by
  obtain ⟨valid, sameSize, headers⟩ := kept
  obtain ⟨nextValid, nextSize, _⟩ := taken.keeps valid
  refine ⟨nextValid, nextSize.trans sameSize, fun off member => ?_⟩
  obtain ⟨sameHeader, clear⟩ := headers off member
  obtain ⟨call, reply⟩ := event
  cases call with
  | openLog inEgroup capSyslog =>
      cases taken
      exact ⟨sameHeader, clear⟩
  | read caller callerEuid user count =>
      obtain ⟨_, _, _, _, rfl, _⟩ := LoggerLog.step_read_iff.mp taken
      exact ⟨sameHeader, clear⟩
  | write current now realNow source =>
      cases taken
      obtain ⟨fits, disjoint, ends⟩ := spares off member
      have within := fetched_length_le source
      have stillThere : ∀ after : LoggerLog, after.size = state.size →
          after.buffer =
            storeRecord state (writeHeader current now realNow (writeCount source)) source →
          getEntryHeader after off = getEntryHeader log off := by
        intro after afterSize afterBuffer
        rw [← sameHeader]
        apply getEntryHeader_congr afterSize
        intro i inHeader
        rw [afterBuffer]
        apply storeRecord_changes valid _ source (by omega)
        intro j bound
        exact disjoint i inHeader j (by omega)
      rcases Nat.eq_zero_or_pos (writeCount source) with empty | positive
      · rw [loggerWriteIter_empty state current now realNow empty]
        exact ⟨sameHeader, clear⟩
      · rcases Nat.lt_or_ge source.readable (writeCount source) with short | readable
        · rw [loggerWriteIter_fault state current now realNow short]
          exact ⟨stillThere _ rfl rfl, clear⟩
        · obtain ⟨_, stored⟩ := stored_log valid current now realNow positive readable
          rw [stored]
          refine ⟨stillThere _ rfl rfl, ?_⟩
          rwa [sameHeader] at ends

/-- A scan reads no header at `w_off`. -/
theorem inspected_ne_wOff {fuel off : Nat} :
    ∀ visited ∈ inspected log euid fuel off, log.wOff ≠ visited := by
  induction fuel generalizing off with
  | zero => exact fun _ none => nomatch none
  | succ fuel ih =>
      intro visited member
      simp only [inspected] at member
      split_ifs at member with notEnd own
      · rwa [List.mem_singleton.mp member]
      · rcases List.mem_cons.mp member with rfl | later
        · exact notEnd
        · exact ih visited later
      · cases member

/-- A scan whose headers are still there ends where it ended. -/
theorem Kept.scan {fuel off found : Nat}
    (kept : Kept (inspected log euid fuel off) euid log next)
    (ended : getNextEntryByUid log euid fuel off = some found) (notEnd : log.wOff ≠ found) :
    getNextEntryByUid next euid fuel off = some found ∧
      (next.wOff = found ∨ (getEntryHeader next found).euid = euid) := by
  induction fuel generalizing off with
  | zero => cases ended
  | succ fuel ih =>
      obtain ⟨valid, sameSize, headers⟩ := kept
      have offset : ∀ n, loggerOffset next n = loggerOffset log n := by
        intro n
        rw [loggerOffset, loggerOffset, sameSize]
      simp only [getNextEntryByUid] at ended ⊢
      by_cases atEnd : log.wOff = off
      · simp only [atEnd, ne_eq, not_true_eq_false, if_false, Option.some.injEq] at ended
        exact absurd (atEnd.trans ended) notEnd
      · simp only [inspected, if_pos (show log.wOff ≠ off from atEnd)] at headers
        obtain ⟨sameHeader, clear⟩ := headers off List.mem_cons_self
        rw [if_pos atEnd] at ended
        rw [sameHeader]
        by_cases own : (getEntryHeader log off).euid = euid
        · rw [if_pos own] at ended
          cases ended
          refine ⟨?_, .inr (by rwa [sameHeader])⟩
          rw [if_pos own, ite_self]
        · rw [if_neg own] at ended headers
          rw [if_pos (clear.resolve_left own), if_neg own, offset]
          exact ih
            ⟨valid, sameSize, fun later member => headers later (List.mem_cons_of_mem _ member)⟩ ended

end Scans

/-- A read that fails moves its reader to where its scan ended, which is not `w_off`. -/
theorem failed_read {log next : LoggerLog} {index : Nat} {euid : UInt32} {user : UserBuffer}
    {count : Nat} {errno : Int}
    (taken : log.Step (.read index euid user count, .read (.error errno)) next) :
    ∃ reader rOff, log.readers[index]? = some reader ∧ scanOff log reader euid = some rOff ∧
      log.wOff ≠ rOff ∧ next = log.withReader index { reader with rOff } := by
  obtain ⟨reader, rOff, opened, scan, rfl, isReply⟩ := LoggerLog.step_read_iff.mp taken
  have failed := (Reply.read.inj isReply).symm
  refine ⟨reader, rOff, opened, scan, ?_, ?_⟩
  · intro atEnd
    simp [readAt, atEnd] at failed
  · rw [readAt_error failed]
    rfl

/-- After a failed read, and calls of others that spare the headers it scanned, the next
read of the user does what it would have done. -/
theorem failed_read_next {log next : LoggerLog} {index : Nat} {euid : UInt32} {user : UserBuffer}
    {count : Nat} {errno : Int} {reader : LoggerReader} (valid : log.Valid)
    (opened : log.readers[index]? = some reader)
    (taken : log.Step (.read index euid user count, .read (.error errno)) next) :
    ReadsNext index (scanned log reader euid) euid log next := by
  obtain ⟨_, found, opened', scan, notEnd, rfl⟩ := failed_read taken
  cases opened.symm.trans opened'
  have bound := (List.getElem?_eq_some_iff.mp opened).1
  intro events after run
  have together : Kept (scanned log reader euid) euid log after ∧
      after.readers[index]? = some reader ∧
      Run LoggerLog.Step (log.withReader index { reader with rOff := found }) events
        (after.withReader index { reader with rOff := found }) := by
    induction run with
    | nil =>
        refine ⟨⟨valid, rfl, fun off member => ⟨rfl, .inr ?_⟩⟩, opened, .nil⟩
        rw [scanned] at member
        split_ifs at member
        · cases member
        · exact inspected_ne_wOff off member
    | @snoc events state after event _ step ih =>
        obtain ⟨kept, isReader, run⟩ := ih
        obtain ⟨taken, others, spares⟩ := step
        have stillOpen := (List.getElem?_eq_some_iff.mp isReader).1
        exact ⟨kept.step taken spares, taken.keepsReader kept.1 others isReader,
          run.snoc (taken.withReader others stillOpen _)⟩
  obtain ⟨kept, isReader, run⟩ := together
  have scans : scanOff after reader euid = some found ∧
      scanOff after { reader with rOff := found } euid = some found := by
    simp only [scanOff, scanned] at scan kept ⊢
    split_ifs at scan kept ⊢ with privileged
    · exact ⟨scan, rfl⟩
    · obtain ⟨again, stops⟩ := kept.scan scan notEnd
      rw [scanFuel, kept.2.1, ← scanFuel]
      exact ⟨again, getNextEntryByUid_stops stops⟩
  have still := (List.getElem?_eq_some_iff.mp isReader).1
  have isMoved : (after.withReader index { reader with rOff := found }).readers[index]? =
      some { reader with rOff := found } := List.getElem?_set_self still
  refine ⟨_, run, fun user count reply final => ?_⟩
  rw [LoggerLog.step_read_iff, LoggerLog.step_read_iff]
  constructor
  · rintro ⟨_, rOff, isReader', scan', rfl, rfl⟩
    cases isReader.symm.trans isReader'
    cases scans.1.symm.trans scan'
    refine ⟨_, found, isMoved, ?_, ?_, rfl⟩
    · rw [scanOff_withReader, scans.2]
    · simp only [LoggerLog.withReader, List.set_set]
      rfl
  · rintro ⟨_, rOff, isMoved', scan', rfl, rfl⟩
    cases isMoved.symm.trans isMoved'
    rw [scanOff_withReader] at scan'
    cases scans.2.symm.trans scan'
    refine ⟨reader, found, isReader, scans.1, ?_, rfl⟩
    simp only [LoggerLog.withReader, List.set_set]
    rfl

/-! ## Failed calls -/

/-- Nobody notices the failed call.  A reader of all records notices no write that was
clear of the intact records it had not read, and a user no read before its next one. -/
def Unnoticed (log failed : LoggerLog) : Call → Prop
  | .openLog _ _ => True
  | .write _ _ _ source => ∀ index reader records, log.readers[index]? = some reader →
      reader.rAll = true → Pending log reader.rOff records →
      unread log reader.rOff + sizeofLoggerEntry + writeCount source ≤ log.size →
      ReadsAlike index log failed
  | .read index euid _ _ => ∀ reader, log.readers[index]? = some reader →
      ReadsNext index (scanned log reader euid) euid log failed

/-- A call that fails leaves `w_off` and `head`, and goes unnoticed. -/
theorem failed_call_unnoticed {log failed : LoggerLog} {call : Call} {reply : Reply}
    (valid : log.Valid) (taken : log.Step (call, reply) failed) (error : reply.Failed) :
    failed.wOff = log.wOff ∧ failed.head = log.head ∧ Unnoticed log failed call := by
  cases call with
  | openLog inEgroup capSyslog =>
      cases taken
      cases error
  | read index euid user count =>
      obtain ⟨reader, rOff, opened, _, _, rfl⟩ := LoggerLog.step_read_iff.mp taken
      generalize (readAt log { reader with rOff } user count).1 = result at taken error
      cases result with
      | wait => cases error
      | data bytes => cases error
      | error errno =>
          obtain ⟨_, _, _, _, _, rfl⟩ := failed_read taken
          exact ⟨rfl, rfl, fun reader opened => failed_read_next valid opened taken⟩
  | write current now realNow source =>
      cases taken
      have short : source.readable < writeCount source := by
        by_contra enough
        have readable := Nat.le_of_not_lt enough
        rcases Nat.eq_zero_or_pos (writeCount source) with empty | positive
        · rw [loggerWriteIter_empty log current now realNow empty] at error
          cases error
        · rw [loggerWriteIter_stored log current now realNow positive readable] at error
          exact absurd error (Int.not_lt.mpr (Int.natCast_nonneg _))
      have keeps := loggerWriteIter_keeps current now realNow source valid
      refine ⟨?_, keeps.2.2.1, fun index reader records isReader privileged pending clear => ?_⟩
      · rw [loggerWriteIter_fault log current now realNow short]
      · exact (failed_write_shadowed valid isReader privileged pending clear short).readsAlike

/-- A reader has a record to read; a write faults, and a read asks for too few bytes. -/
theorem failed_call_unnoticed_pending :
    let opened := loggerOpen (createLog (fun _ => 0) 1024) true false
    let log := (loggerWriteIter opened ⟨7, 8, 1000⟩ 0 0 ⟨[65, 66], 2⟩).log
    let reader : LoggerReader := { rOff := 0, rAll := true, rVer := 1 }
    ∃ failed refused,
      log.Step (.write ⟨7, 8, 1000⟩ 0 0 ⟨[67, 68], 0⟩, .wrote (-EFAULT)) failed ∧
      failed.wOff = 34 ∧ ReadsAlike 0 log failed ∧
      log.Step (.read 0 1000 ⟨4096⟩ 16, .read (.error (-EINVAL))) refused ∧
      refused.wOff = 34 ∧ ReadsNext 0 (scanned log reader 1000) 1000 log refused := by
  intro opened log reader
  have valid : opened.Valid := (createLog_valid (fun _ => 0) ⟨10, rfl⟩).withReaders _
  obtain ⟨isValid, _, _, sameReaders⟩ :=
    loggerWriteIter_keeps ⟨7, 8, 1000⟩ 0 0 ⟨[65, 66], 2⟩ valid
  have isReader : log.readers[0]? = some reader := by
    rw [sameReaders]
    rfl
  have nothing : Pending opened 0 [] := .nil_of_eq valid rfl
  have clear : unread opened 0 + sizeofLoggerEntry + writeCount ⟨[65, 66], 2⟩ < opened.size := by
    decide
  have pending := nothing.write valid ⟨7, 8, 1000⟩ 0 0 clear
  have ret : (loggerWriteIter log ⟨7, 8, 1000⟩ 0 0 ⟨[67, 68], 0⟩).ret = -EFAULT := by decide
  have writes : log.Step (.write ⟨7, 8, 1000⟩ 0 0 ⟨[67, 68], 0⟩, .wrote (-EFAULT))
      (loggerWriteIter log ⟨7, 8, 1000⟩ 0 0 ⟨[67, 68], 0⟩).log := by
    simp only [LoggerLog.Step, LoggerLog.call, ret]
  have error : (readAt log reader ⟨4096⟩ 16).1 = .error (-EINVAL) := by decide
  have reads : log.Step (.read 0 1000 ⟨4096⟩ 16, .read (.error (-EINVAL))) _ :=
    LoggerLog.step_read_iff.mpr ⟨reader, 0, isReader, rfl, rfl, by rw [← error]⟩
  obtain ⟨wOff, _, unnoticed⟩ := failed_call_unnoticed isValid writes (by decide : -EFAULT < 0)
  obtain ⟨wOff', _, unnoticed'⟩ := failed_call_unnoticed isValid reads trivial
  have isEnd : log.wOff = 34 := by decide
  exact ⟨_, _, writes, wOff.trans isEnd, unnoticed 0 reader _ isReader rfl pending (by decide),
    reads, wOff'.trans isEnd, unnoticed' reader isReader⟩

/-- A header of a record of a user. -/
def headerOf (len : UInt16) (euid : UInt32) : LoggerEntry :=
  { len, hdrSize := 32, pid := 0, tid := 0, sec := 0, nsec := 0, realSec := 0, realNsec := 0
    euid }

/-- A log of 256 bytes whose reader has one record of user 1 to skip.  Behind `w_off` there
are headers of earlier records, to which the scan of user 2 jumps. -/
def staleLog : LoggerLog where
  buffer :=
    let foreign := Mem.write (fun _ => 0) 192 (LoggerEntry.record.encode (headerOf 8 1))
    let stale := Mem.write foreign 40 (LoggerEntry.record.encode (headerOf 64 1))
    let first := Mem.write stale 96 (LoggerEntry.record.encode (headerOf 4 2))
    Mem.write first 160 (LoggerEntry.record.encode (headerOf 0 2))
  readers := [{ rOff := 192, rAll := false, rVer := 1 }]
  wOff := 232
  head := 192
  size := 256

set_option maxRecDepth 2000 in
/-- A read of user 2 fails, and a write changes the header from which its scan jumped.  The
next read returns 36 bytes from offset 96, instead of 32 bytes from offset 160. -/
theorem failed_read_noticed :
    ¬ ∀ (log failed : LoggerLog) (index : Nat) (euid : UInt32) (user : UserBuffer) (count : Nat)
        (errno : Int), log.Valid →
      log.Step (.read index euid user count, .read (.error errno)) failed →
      ∀ events next next', Run (FittingStep index) log events next →
        (∀ event ∈ events, ¬ event.1.ReadsThrough index) →
        Run LoggerLog.Step failed events next' →
        ∀ user count bytes bytes' final final',
          next.Step (.read index euid user count, .read (.data bytes)) final →
          next'.Step (.read index euid user count, .read (.data bytes')) final' →
          bytes' = bytes := by
  intro claim
  let reader : LoggerReader := { rOff := 192, rAll := false, rVer := 1 }
  let failed := staleLog.withReader 0 { reader with rOff := 96 }
  let source : IovIter := ⟨List.replicate 32 0 ++ [128, 0], 34⟩
  let task : Task := ⟨7, 8, 1⟩
  let after := (loggerWriteIter staleLog task 0 0 source).log
  have valid : staleLog.Valid := ⟨⟨8, rfl⟩, by decide⟩
  have fails : staleLog.Step (.read 0 2 ⟨4096⟩ 0, .read (.error (-EINVAL))) failed := by
    apply LoggerLog.step_read_iff.mpr
    have small : readAt staleLog { reader with rOff := 96 } ⟨4096⟩ 0 =
        (.error (-EINVAL), { reader with rOff := 96 }) := by decide
    refine ⟨reader, 96, rfl, by decide, ?_, ?_⟩
    · rw [small]
      rfl
    · rw [small]
  have fits : WriteFits 0 staleLog (.write task 0 0 source) := by
    intro first isFirst
    cases isFirst
    decide
  have writes : staleLog.Step (.write task 0 0 source, .wrote 34) after := by
    have ret : (loggerWriteIter staleLog task 0 0 source).ret = 34 := by decide
    simp only [LoggerLog.Step, LoggerLog.call, ret]
    rfl
  have notRead : ¬ (Call.write task 0 0 source).ReadsThrough 0 := id
  have writes' := writes.withReader notRead (by decide) { reader with rOff := 96 }
  have returned : (readAt after { reader with rOff := 160 } ⟨4096⟩ 4096).1 =
      .data (LoggerEntry.record.encode (headerOf 0 2)) := by decide
  have returned' : (readAt after { reader with rOff := 96 } ⟨4096⟩ 4096).1 =
      .data (LoggerEntry.record.encode (headerOf 4 2) ++ [0, 0, 0, 0]) := by decide
  have isReader : after.readers[0]? = some reader := by decide
  have scan : scanOff after reader 2 = some 160 := by decide
  have scan' : scanOff after { reader with rOff := 96 } 2 = some 96 := by decide
  have isMoved : (after.withReader 0 { reader with rOff := 96 }).readers[0]? =
      some { reader with rOff := 96 } := by decide
  clear_value after
  obtain ⟨final, reads⟩ := LoggerLog.step_data isReader scan returned
  obtain ⟨final', reads'⟩ := LoggerLog.step_data isMoved ((scanOff_withReader _).trans scan')
    ((congrArg Prod.fst (readAt_withReader _ _ _)).trans returned')
  have same := claim staleLog failed 0 2 ⟨4096⟩ 0 (-EINVAL) valid fails _ after _
    (.single ⟨writes, fits⟩) (fun event member => ?_) (.single writes') ⟨4096⟩ 4096 _ _ _ _
    reads reads'
  · have lengths := congrArg List.length same
    revert lengths
    decide
  · rw [List.mem_singleton.mp member]
    exact notRead

end DroidKernal.Log
