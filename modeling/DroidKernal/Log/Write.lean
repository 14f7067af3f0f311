import DroidKernal.Log.Logger

/-!
# One write and one read on the ring

The specification lemmas of `logger_write_iter` and `logger_read`.  Whatever
the offset, a completed write makes the ring hold the bytes of one record at
`w_off`, and a read at the start of a held record returns exactly its bytes;
the four straddling cases of the writer and those of the reader are dealt with
here and nowhere else.
-/

namespace DroidKernal.Log

open Lib

/-- A log as `create_log` makes it and every call keeps it: the size is a power
of two, so that masking is reduction modulo the size. -/
structure LoggerLog.Valid (log : LoggerLog) : Prop where
  sizePow : ∃ k, log.size = 2 ^ k
  wOffInRing : log.wOff < log.size

namespace LoggerLog.Valid

variable {log : LoggerLog}

theorem sizePos (valid : log.Valid) : 0 < log.size :=
  Nat.lt_of_le_of_lt (Nat.zero_le _) valid.wOffInRing

theorem loggerOffset_eq (valid : log.Valid) (n : Nat) :
    loggerOffset log n = n % log.size := by
  obtain ⟨k, size⟩ := valid.sizePow
  rw [loggerOffset, size, Nat.and_two_pow_sub_one_eq_mod]

end LoggerLog.Valid

theorem createLog_valid (buffer : Nat → UInt8) {size : Nat} (power : ∃ k, size = 2 ^ k) :
    (createLog buffer size).Valid where
  sizePow := power
  wOffInRing := by
    obtain ⟨k, rfl⟩ := power
    exact Nat.two_pow_pos k

/-- What every stored record satisfies. -/
structure Record.WellFormed (record : Record) : Prop where
  len_eq : record.header.len.toNat = record.payload.length
  nonempty : 0 < record.payload.length

/-- The record that a completed request leaves in the log. -/
def requestRecord (current : Task) (now realNow : Nat) (source : IovIter) : Record where
  header := writeHeader current now realNow (writeCount source)
  payload := source.bytes.take (writeCount source)

section Request

variable (current : Task) (now realNow : Nat) {source : IovIter}

theorem writeCount_le (source : IovIter) : writeCount source ≤ 4096 := by
  simp [writeCount, loggerEntryMaxPayload]

theorem writeCount_le_length (source : IovIter) :
    writeCount source ≤ source.bytes.length := by
  simp [writeCount, iovIterCount]

theorem headerLen_toNat (source : IovIter) :
    (writeHeader current now realNow (writeCount source)).len.toNat =
      writeCount source := by
  have bound := writeCount_le source
  simp only [writeHeader, UInt16.toNat_ofNat']
  omega

theorem headerLen_eq_zero (source : IovIter) :
    (writeHeader current now realNow (writeCount source)).len = 0 ↔
      writeCount source = 0 := by
  rw [← UInt16.toNat_inj, headerLen_toNat]
  rfl

@[simp] theorem requestRecord_payload_length :
    (requestRecord current now realNow source).payload.length = writeCount source := by
  simp [requestRecord, writeCount_le_length]

theorem requestRecord_len (source : IovIter) :
    (requestRecord current now realNow source).header.len.toNat =
      (requestRecord current now realNow source).payload.length := by
  rw [requestRecord_payload_length]
  exact headerLen_toNat current now realNow source

theorem requestRecord_wellFormed (positive : 0 < writeCount source) :
    (requestRecord current now realNow source).WellFormed where
  len_eq := requestRecord_len current now realNow source
  nonempty := by simpa using positive

@[simp] theorem requestRecord_bytes_length :
    (requestRecord current now realNow source).bytes.length =
      sizeofLoggerEntry + writeCount source := by
  simp

end Request

/-- A request of zero bytes, all of which can be fetched. -/
def zeroRequest (len : Nat) : IovIter where
  bytes := List.replicate len 0
  readable := len

theorem writeCount_zeroRequest {len : Nat} (small : len ≤ 4096) :
    writeCount (zeroRequest len) = len := by
  simpa [writeCount, iovIterCount, loggerEntryMaxPayload, zeroRequest] using small

/-! ## The writer -/

/-- The payload bytes that reach the ring: all of them, or those before the
fault. -/
def fetched (source : IovIter) : List UInt8 :=
  source.bytes.take (min (writeCount source) source.readable)

/-- The ring after both copies of the header and both copies of the payload. -/
def storeRecord (log : LoggerLog) (header : LoggerEntry) (source : IovIter) :
    Nat → UInt8 :=
  Ring.storeSplit log.size
    (Ring.storeSplit log.size log.buffer log.wOff (LoggerEntry.record.encode header))
    (loggerOffset log (log.wOff + sizeofLoggerEntry)) (fetched source)

theorem storeHeader_eq (log : LoggerLog) (header : LoggerEntry) :
    storeHeader log header =
      Ring.storeSplit log.size log.buffer log.wOff (LoggerEntry.record.encode header) := by
  have length : (LoggerEntry.record.encode header).length = sizeofLoggerEntry := by simp
  by_cases straddles : log.size - log.wOff ≤ sizeofLoggerEntry
  · simp only [storeHeader, Ring.storeSplit, Nat.min_eq_right straddles]
  · simp only [storeHeader, Ring.storeSplit, Nat.min_eq_left (Nat.le_of_not_le straddles)]
    rw [List.take_of_length_le (by omega), List.drop_eq_nil_of_le (by omega),
      List.take_of_length_le (by omega), List.drop_eq_nil_of_le (by omega)]

/-- Length of the first payload copy: up to the end of the buffer. -/
def payloadHead (log : LoggerLog) (source : IovIter) : Nat :=
  min (writeCount source) (log.size - loggerOffset log (log.wOff + sizeofLoggerEntry))

/-- The accesses that store the header. -/
def headerAccesses (log : LoggerLog) : List Access :=
  let hdrLen := min sizeofLoggerEntry (log.size - log.wOff)
  [.store log.wOff hdrLen, .store 0 (sizeofLoggerEntry - hdrLen)]

section Writer

variable (log : LoggerLog) (current : Task) (now realNow : Nat) {source : IovIter}

/-- The two payload copies of the writer, seen as one wrapping store. -/
theorem payload_storeSplit (mem : Nat → UInt8) (source : IovIter) :
    Ring.storeSplit log.size mem (loggerOffset log (log.wOff + sizeofLoggerEntry))
        (fetched source) =
      Mem.write
        (Mem.write mem (loggerOffset log (log.wOff + sizeofLoggerEntry))
          (source.bytes.take (min (payloadHead log source) source.readable))) 0
        ((source.bytes.drop (payloadHead log source)).take
          (min (writeCount source - payloadHead log source)
            (source.readable - payloadHead log source))) := by
  have withinRequest := writeCount_le_length source
  simp only [Ring.storeSplit, fetched, payloadHead]
  generalize loggerOffset log (log.wOff + sizeofLoggerEntry) = off
  congr 1
  · congr 1
    rw [List.take_take]
    congr 1
    omega
  · rw [List.drop_take]
    by_cases wraps : log.size - off ≤ writeCount source
    · rw [Nat.min_eq_right wraps]
      congr 1
      omega
    · have noRest : min (writeCount source) source.readable - (log.size - off) = 0 := by
        omega
      rw [noRest, Nat.min_eq_left (by omega)]
      simp only [List.take_zero]
      rw [List.take_eq_nil_iff.mpr (Or.inl (by omega))]

theorem loggerWriteIter_empty (empty : writeCount source = 0) :
    loggerWriteIter log current now realNow source =
      { ret := 0, log, accesses := [] } := by
  have noLen := (headerLen_eq_zero current now realNow source).mpr empty
  simp [loggerWriteIter, noLen]

theorem loggerWriteIter_stored (positive : 0 < writeCount source)
    (complete : writeCount source ≤ source.readable) :
    loggerWriteIter log current now realNow source =
      let header := writeHeader current now realNow (writeCount source)
      let wOff := loggerOffset log (log.wOff + sizeofLoggerEntry)
      { ret := payloadHead log source
        log := { log with
          buffer := storeRecord log header source
          wOff := loggerOffset log (wOff + writeCount source) }
        accesses := headerAccesses log ++
          [.store wOff (payloadHead log source),
            .store 0 (writeCount source - payloadHead log source),
            .load wOff (writeCount source)] } := by
  have someLen : (writeHeader current now realNow (writeCount source)).len ≠ 0 := by
    intro zero
    have := (headerLen_eq_zero current now realNow source).mp zero
    omega
  have withinRequest := writeCount_le_length source
  have headLe : payloadHead log source ≤ writeCount source := Nat.min_le_left _ _
  have firstLen : (source.bytes.take
      (min (payloadHead log source) source.readable)).length = payloadHead log source := by
    rw [List.length_take]
    omega
  have secondLen : ((source.bytes.drop (payloadHead log source)).take
      (min (writeCount source - payloadHead log source)
        (source.readable - payloadHead log source))).length =
      writeCount source - payloadHead log source := by
    rw [List.length_take, List.length_drop]
    omega
  have headFetched : min (payloadHead log source) source.readable =
      payloadHead log source := by omega
  simp only [loggerWriteIter, someLen, if_false, copyFromIter]
  simp only [← payloadHead.eq_def, firstLen, ne_eq, not_true_eq_false, if_false]
  rw [storeRecord, payload_storeSplit, ← storeHeader_eq]
  simp only [headFetched] at secondLen ⊢
  simp [secondLen, headerAccesses]

theorem loggerWriteIter_fault (short : source.readable < writeCount source) :
    loggerWriteIter log current now realNow source =
      let header := writeHeader current now realNow (writeCount source)
      let wOff := loggerOffset log (log.wOff + sizeofLoggerEntry)
      { ret := -EFAULT
        log := { log with buffer := storeRecord log header source }
        accesses := headerAccesses log ++
          [.store wOff (min (payloadHead log source) source.readable)] ++
          if payloadHead log source ≤ source.readable then
            [.store 0 (source.readable - payloadHead log source)]
          else [] } := by
  have someLen : (writeHeader current now realNow (writeCount source)).len ≠ 0 := by
    intro zero
    have := (headerLen_eq_zero current now realNow source).mp zero
    omega
  have withinRequest := writeCount_le_length source
  have headLe : payloadHead log source ≤ writeCount source := Nat.min_le_left _ _
  have firstLen : (source.bytes.take
      (min (payloadHead log source) source.readable)).length =
      min (payloadHead log source) source.readable := by
    rw [List.length_take]
    omega
  have secondLen : ((source.bytes.drop (payloadHead log source)).take
      (min (writeCount source - payloadHead log source)
        (source.readable - payloadHead log source))).length =
      source.readable - payloadHead log source := by
    rw [List.length_take, List.length_drop]
    omega
  simp only [loggerWriteIter, someLen, if_false, copyFromIter]
  simp only [← payloadHead.eq_def, firstLen]
  rw [storeRecord, payload_storeSplit, ← storeHeader_eq]
  by_cases reached : payloadHead log source ≤ source.readable
  · have headFetched : min (payloadHead log source) source.readable =
        payloadHead log source := by omega
    have shortSecond : source.readable - payloadHead log source ≠
        writeCount source - payloadHead log source := by omega
    simp only [headFetched] at secondLen ⊢
    simp [secondLen, headerAccesses, shortSecond, reached]
  · have shortFirst : min (payloadHead log source) source.readable ≠
        payloadHead log source := by omega
    have nothingLeft : source.readable - payloadHead log source = 0 := by omega
    simp [shortFirst, nothingLeft, headerAccesses, reached]

end Writer

section Stored

variable {log : LoggerLog} {source : IovIter}

theorem fetched_length_le (source : IovIter) :
    (fetched source).length ≤ writeCount source := by
  rw [fetched, List.length_take]
  omega

/-- A write, complete or not, changes only the positions of its own record. -/
theorem storeRecord_agrees (valid : log.Valid) (header : LoggerEntry)
    (fits : sizeofLoggerEntry + writeCount source ≤ log.size) :
    Ring.AgreesOutside log.size log.wOff (sizeofLoggerEntry + writeCount source)
      log.buffer (storeRecord log header source) := by
  have headerLen : (LoggerEntry.record.encode header).length = sizeofLoggerEntry := by simp
  have payloadLen := fetched_length_le source
  have headerStored := Ring.agreesOutside_storeSplit log.size log.buffer
    (LoggerEntry.record.encode header) valid.wOffInRing (by omega)
  rw [headerLen] at headerStored
  refine headerStored.append ?_
  rw [← Ring.agreesOutside_mod, ← valid.loggerOffset_eq]
  apply Ring.AgreesOutside.mono _ payloadLen
  apply Ring.agreesOutside_storeSplit
  · rw [valid.loggerOffset_eq]
    exact Nat.mod_lt _ valid.sizePos
  · omega

/-- A complete write leaves the bytes of its record at `w_off`, however the
header and the payload straddle the end of the buffer. -/
theorem storeRecord_holds (valid : log.Valid) (current : Task) (now realNow : Nat)
    (fits : sizeofLoggerEntry + writeCount source ≤ log.size)
    (complete : writeCount source ≤ source.readable) :
    Ring.Holds log.size
      (storeRecord log (writeHeader current now realNow (writeCount source)) source)
      log.wOff (requestRecord current now realNow source).bytes := by
  have payload : fetched source = source.bytes.take (writeCount source) := by
    rw [fetched, Nat.min_eq_left complete]
  have payloadLen := fetched_length_le source
  have payloadOff : loggerOffset log (log.wOff + sizeofLoggerEntry) < log.size := by
    rw [valid.loggerOffset_eq]
    exact Nat.mod_lt _ valid.sizePos
  rw [Record.bytes, Ring.holds_append]
  constructor
  · have held := Ring.holds_storeSplit log.size log.buffer
      (LoggerEntry.record.encode (writeHeader current now realNow (writeCount source)))
      valid.wOffInRing (by simp; omega)
    have kept := Ring.agreesOutside_storeSplit log.size
      (Ring.storeSplit log.size log.buffer log.wOff (LoggerEntry.record.encode
        (writeHeader current now realNow (writeCount source))))
      (fetched source) payloadOff (by omega)
    rw [valid.loggerOffset_eq, Ring.agreesOutside_mod, ← valid.loggerOffset_eq] at kept
    exact held.frame valid.sizePos kept (by simp) (by omega)
  · rw [FlatRecord.encode_length, record_size, ← Ring.holds_mod,
      ← valid.loggerOffset_eq, storeRecord]
    simp only [requestRecord, ← payload]
    exact Ring.holds_storeSplit _ _ _ payloadOff (by omega)

end Stored

/-! ## The reader -/

section Reader

variable {log : LoggerLog} {off : Nat} {record : Record}

/-- At the start of a held record the driver sees its header, straddling or
not. -/
theorem getEntryHeader_eq (inRing : off < log.size)
    (held : Ring.Holds log.size log.buffer off record.bytes)
    (fits : sizeofLoggerEntry ≤ log.size) :
    getEntryHeader log off = record.header := by
  have header : Ring.Holds log.size log.buffer off
      (LoggerEntry.record.encode record.header) :=
    (Ring.holds_append.mp held).1
  have length : (LoggerEntry.record.encode record.header).length = sizeofLoggerEntry := by
    simp
  have loaded := header.read_split inRing (by omega)
  rw [length] at loaded
  simp only [getEntryHeader]
  split
  next => rw [loaded, FlatRecord.decode_encode]
  next whole =>
    have wholeLen : min sizeofLoggerEntry (log.size - off) = sizeofLoggerEntry := by
      simpa using whole
    rw [wholeLen, Nat.sub_self] at loaded
    simp only [Mem.read, List.range_zero, List.map_nil, List.append_nil] at loaded
    rw [Mem.read, loaded, FlatRecord.decode_encode]

/-- `do_read_log_to_user` at the start of a held record returns its bytes and
steps over it, unless a copy to the user fails. -/
theorem doReadLogToUser_eq (valid : log.Valid) {reader : LoggerReader}
    (inRing : reader.rOff < log.size)
    (held : Ring.Holds log.size log.buffer reader.rOff record.bytes)
    (fits : record.bytes.length ≤ log.size) (user : UserBuffer) :
    (user.writable < record.bytes.length ∧
      doReadLogToUser log reader user record.bytes.length = (.error (-EFAULT), reader)) ∨
    doReadLogToUser log reader user record.bytes.length =
      (.data record.bytes,
        { reader with rOff := (reader.rOff + record.bytes.length) % log.size }) := by
  have total := record.bytes_length
  have payloadOff : loggerOffset log (reader.rOff + sizeofLoggerEntry) < log.size := by
    rw [valid.loggerOffset_eq]
    exact Nat.mod_lt _ valid.sizePos
  have payload : Ring.Holds log.size log.buffer
      (loggerOffset log (reader.rOff + sizeofLoggerEntry)) record.payload := by
    have := (Ring.holds_append.mp held).2
    rw [FlatRecord.encode_length, record_size] at this
    rw [valid.loggerOffset_eq]
    exact Ring.holds_mod.mpr this
  have loaded := payload.read_split payloadOff (by omega)
  have header := getEntryHeader_eq inRing held (by omega)
  have count : record.bytes.length - sizeofLoggerEntry = record.payload.length := by omega
  simp only [doReadLogToUser, getUserHdrLen, count]
  split
  next unreachable =>
    left
    simp only [copyToUser, Bool.and_eq_true, decide_eq_true_eq] at unreachable
    exact ⟨by omega, rfl⟩
  next =>
    split
    next unreachable =>
      left
      simp only [copyToUser, Bool.and_eq_true, decide_eq_true_eq] at unreachable
      exact ⟨by omega, rfl⟩
    next =>
      split
      next unreachable =>
        left
        simp only [copyToUser, Bool.and_eq_true, decide_eq_true_eq] at unreachable
        exact ⟨by omega, rfl⟩
      next =>
        right
        rw [loaded, header]
        simp [Record.bytes, Nat.add_assoc, valid.loggerOffset_eq]

end Reader

end DroidKernal.Log
