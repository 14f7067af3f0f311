import DroidKernal.Log.Own

/-!
# The scan of a chain of records

From a record on, a log holds a chain that ends at `w_off`.  The scan for an own record
leaves a record for the offset that equals its length, instead of adding the length to
its offset.  So it follows jumps between records of the chain only where the length of
each record that it leaves is the offset of another one.
-/

namespace DroidKernal.Log

open Lib

/-- A chain of records from an offset to `w_off`. -/
structure Chain (log : LoggerLog) (off : Nat) (records : List Record) : Prop where
  inRing : off < log.size
  held : Ring.Holds log.size log.buffer off (recordsBytes records)
  ends : (off + (recordsBytes records).length) % log.size = log.wOff
  room : (recordsBytes records).length < log.size
  lengths : ∀ record ∈ records, record.header.len.toNat = record.payload.length

/-- The same, where the records may fill the ring. -/
structure Spans (log : LoggerLog) (off : Nat) (records : List Record) : Prop where
  inRing : off < log.size
  held : Ring.Holds log.size log.buffer off (recordsBytes records)
  ends : (off + (recordsBytes records).length) % log.size = log.wOff
  room : (recordsBytes records).length ≤ log.size
  lengths : ∀ record ∈ records, record.header.len.toNat = record.payload.length

/-- Where the `k`-th record of a chain starts; after the last one, `w_off`. -/
def recordStart (log : LoggerLog) (off : Nat) (records : List Record) (k : Nat) : Nat :=
  (off + (recordsBytes (records.take k)).length) % log.size

/-- The number of the first record of a user; there is none if it is the length. -/
def firstOwn (euid : UInt32) (records : List Record) : Nat :=
  records.findIdx fun record => record.header.euid = euid

/-- The offsets at which the scan reads a header in so many iterations. -/
def inspected (log : LoggerLog) (euid : UInt32) : Nat → Nat → List Nat
  | 0, _ => []
  | fuel + 1, off =>
      if log.wOff ≠ off then
        let entry := getEntryHeader log off
        off ::
          if entry.euid = euid then []
          else inspected log euid fuel (loggerOffset log (sizeofLoggerEntry + entry.len.toNat))
      else []

/-- The scan ends, at the first own record or at `w_off`, and reads only headers of the
chain. -/
def ScansChain (log : LoggerLog) (off : Nat) (records : List Record) (euid : UInt32) : Prop :=
  ∃ fuel,
    getNextEntryByUid log euid fuel off =
      some (recordStart log off records (firstOwn euid records)) ∧
    ∀ visited ∈ inspected log euid fuel off,
      ∃ k, k < records.length ∧ visited = recordStart log off records k

/-- From the `k`-th record on, jumps from foreign records of the chain lead to the first
own one, or to `w_off` where there is none.  A jump goes to the start that equals the
length of the record it leaves. -/
inductive Leads (log : LoggerLog) (off : Nat) (records : List Record) (euid : UInt32) :
    Nat → Prop where
  | here : Leads log off records euid (firstOwn euid records)
  | jump {k next : Nat} {record : Record} (left : records[k]? = some record)
      (foreign : record.header.euid ≠ euid) (within : next ≤ records.length)
      (lands : recordStart log off records next = record.bytes.length % log.size)
      (rest : Leads log off records euid next) : Leads log off records euid k

theorem Pending.chain {log : LoggerLog} {off : Nat} {records : List Record}
    (pending : Pending log off records) : Chain log off records where
  inRing := pending.inRing
  held := pending.held
  ends := pending.ends
  room := pending.room
  lengths := fun record member => (pending.wellFormed record member).len_eq

section Records

variable {log : LoggerLog} {off : Nat} {records : List Record} {euid : UInt32}

/-- The bytes of the first records of a list, and of the one after them. -/
theorem recordsBytes_take_succ {k : Nat} {record : Record} (isRecord : records[k]? = some record) :
    recordsBytes (records.take (k + 1)) = recordsBytes (records.take k) ++ record.bytes := by
  rw [List.take_add_one, isRecord, recordsBytes_append]
  simp

theorem recordsBytes_take_le (records : List Record) (k : Nat) :
    (recordsBytes (records.take k)).length ≤ (recordsBytes records).length := by
  have split := congrArg recordsBytes (List.take_append_drop k records)
  rw [recordsBytes_append] at split
  rw [← split, List.length_append]
  exact Nat.le_add_right _ _

/-- Later records start later. -/
theorem recordsBytes_take_lt (records : List Record) {k next : Nat} (before : k < next)
    (within : next ≤ records.length) :
    (recordsBytes (records.take k)).length < (recordsBytes (records.take next)).length := by
  obtain ⟨record, isRecord⟩ : ∃ record, records[k]? = some record :=
    ⟨records[k], List.getElem?_eq_getElem (by omega)⟩
  have whole := recordsBytes_take_le (records.take next) (k + 1)
  rw [List.take_take, Nat.min_eq_left before, recordsBytes_take_succ isRecord,
    List.length_append, Record.bytes_length] at whole
  simp only [sizeofLoggerEntry] at whole
  omega

namespace Spans

/-- The header at a start is that of the record. -/
theorem getEntryHeader_eq (spans : Spans log off records) {k : Nat} {record : Record}
    (isRecord : records[k]? = some record) :
    getEntryHeader log (recordStart log off records k) = record.header := by
  have positive : 0 < log.size := Nat.lt_of_le_of_lt (Nat.zero_le _) spans.inRing
  have room := spans.room
  have whole := recordsBytes_take_le records (k + 1)
  rw [recordsBytes_take_succ isRecord, List.length_append, Record.bytes_length] at whole
  have held := spans.held
  rw [← List.take_append_drop (k + 1) records, recordsBytes_append,
    recordsBytes_take_succ isRecord, List.append_assoc, Ring.holds_append, Ring.holds_append]
    at held
  refine Log.getEntryHeader_eq (Nat.mod_lt _ positive) ?_ (by omega)
  exact Ring.holds_mod.mpr held.2.1

/-- The record after the `k`-th one. -/
theorem next_eq (spans : Spans log off records) (valid : log.Valid) {k : Nat} {record : Record}
    (isRecord : records[k]? = some record) :
    loggerOffset log (recordStart log off records k +
        (sizeofLoggerEntry + getEntryMsgLen log (recordStart log off records k))) =
      recordStart log off records (k + 1) := by
  rw [getEntryMsgLen, spans.getEntryHeader_eq isRecord,
    spans.lengths record (List.mem_of_getElem? isRecord), valid.loggerOffset_eq, recordStart,
    recordStart, recordsBytes_take_succ isRecord, List.length_append, Record.bytes_length,
    Nat.mod_add_mod, Nat.add_assoc]

end Spans

theorem Chain.spans (chain : Chain log off records) : Spans log off records where
  inRing := chain.inRing
  held := chain.held
  ends := chain.ends
  room := Nat.le_of_lt chain.room
  lengths := chain.lengths

namespace Chain

theorem recordStart_zero (chain : Chain log off records) : recordStart log off records 0 = off := by
  rw [recordStart, List.take_zero, recordsBytes_nil, List.length_nil, Nat.add_zero,
    Nat.mod_eq_of_lt chain.inRing]

theorem recordStart_end (chain : Chain log off records) :
    recordStart log off records records.length = log.wOff := by
  rw [recordStart, List.take_length, chain.ends]

/-- Different records start at different offsets. -/
theorem recordStart_injective (chain : Chain log off records) {k next : Nat}
    (inRecords : k ≤ records.length) (inRecords' : next ≤ records.length)
    (same : recordStart log off records k = recordStart log off records next) : k = next := by
  have room := chain.room
  have below := recordsBytes_take_le records k
  have below' := recordsBytes_take_le records next
  rcases Nat.lt_trichotomy k next with before | equal | after
  · have order := recordsBytes_take_lt records before inRecords'
    exact absurd same (Ring.mod_ne (by omega) (by omega))
  · exact equal
  · have order := recordsBytes_take_lt records after inRecords
    exact absurd same.symm (Ring.mod_ne (by omega) (by omega))

/-- Before the last record ends, a start is not `w_off`. -/
theorem wOff_ne_start (chain : Chain log off records) {k : Nat} (bound : k < records.length) :
    log.wOff ≠ recordStart log off records k := by
  rw [← chain.recordStart_end]
  intro same
  exact Nat.ne_of_gt bound (chain.recordStart_injective (Nat.le_refl _) (Nat.le_of_lt bound) same)

/-- The header at a start is that of the record. -/
theorem getEntryHeader_eq (chain : Chain log off records) {k : Nat} {record : Record}
    (isRecord : records[k]? = some record) :
    getEntryHeader log (recordStart log off records k) = record.header :=
  chain.spans.getEntryHeader_eq isRecord

/-- Where the scan jumps from a foreign record. -/
theorem jump_eq (chain : Chain log off records) (valid : log.Valid) {k : Nat} {record : Record}
    (isRecord : records[k]? = some record) :
    loggerOffset log
        (sizeofLoggerEntry + (getEntryHeader log (recordStart log off records k)).len.toNat) =
      record.bytes.length % log.size := by
  rw [chain.getEntryHeader_eq isRecord, chain.lengths record (List.mem_of_getElem? isRecord),
    valid.loggerOffset_eq, Record.bytes_length]

/-- The scan stops at the first own record, and at `w_off`. -/
theorem stops_at_firstOwn (chain : Chain log off records) :
    log.wOff = recordStart log off records (firstOwn euid records) ∨
      (getEntryHeader log (recordStart log off records (firstOwn euid records))).euid = euid := by
  rcases Nat.lt_or_ge (firstOwn euid records) records.length with found | missing
  · right
    rw [chain.getEntryHeader_eq (List.getElem?_eq_getElem found)]
    exact of_decide_eq_true (List.findIdx_getElem (w := found))
  · left
    have atEnd : firstOwn euid records = records.length :=
      Nat.le_antisymm List.findIdx_le_length missing
    rw [atEnd, chain.recordStart_end]

/-- Jumps that lead to the first own record are those of the scan. -/
theorem scan_of_leads (chain : Chain log off records) (valid : log.Valid) {k : Nat}
    (leads : Leads log off records euid k) :
    ∃ fuel,
      getNextEntryByUid log euid fuel (recordStart log off records k) =
        some (recordStart log off records (firstOwn euid records)) ∧
      ∀ visited ∈ inspected log euid fuel (recordStart log off records k),
        ∃ j, j < records.length ∧ visited = recordStart log off records j := by
  induction leads with
  | here =>
      refine ⟨1, getNextEntryByUid_stops chain.stops_at_firstOwn, fun visited member => ?_⟩
      rw [inspected] at member
      split at member
      next notEnd =>
        have found : firstOwn euid records < records.length := by
          have within : firstOwn euid records ≤ records.length := List.findIdx_le_length
          rcases Nat.lt_or_eq_of_le within with found | missing
          · exact found
          · rw [missing, chain.recordStart_end] at notEnd
            exact absurd rfl notEnd
        have own := chain.stops_at_firstOwn.resolve_left notEnd
        simp only [own, if_true, List.mem_singleton] at member
        exact ⟨_, found, member⟩
      next => cases member
  | @jump k next record left foreign within lands rest ih =>
      obtain ⟨fuel, scanned, onChain⟩ := ih
      have bound : k < records.length := (List.getElem?_eq_some_iff.mp left).1
      have notEnd := chain.wOff_ne_start bound
      have isForeign : (getEntryHeader log (recordStart log off records k)).euid ≠ euid := by
        rwa [chain.getEntryHeader_eq left]
      have jumps := chain.jump_eq valid left
      rw [← lands] at jumps
      refine ⟨fuel + 1, ?_, fun visited member => ?_⟩
      · simp only [getNextEntryByUid, if_pos notEnd, if_neg isForeign, jumps, scanned]
      · simp only [inspected, if_pos notEnd, if_neg isForeign, jumps, List.mem_cons] at member
        rcases member with first | later
        · exact ⟨k, bound, first⟩
        · exact onChain visited later

/-- A scan that stays on the chain follows such jumps. -/
theorem leads_of_scan (chain : Chain log off records) (valid : log.Valid) (fuel : Nat) {k : Nat}
    (within : k ≤ records.length)
    (scanned : getNextEntryByUid log euid fuel (recordStart log off records k) =
      some (recordStart log off records (firstOwn euid records)))
    (onChain : ∀ visited ∈ inspected log euid fuel (recordStart log off records k),
      ∃ j, j < records.length ∧ visited = recordStart log off records j) :
    Leads log off records euid k := by
  have stopsHere : recordStart log off records k =
      recordStart log off records (firstOwn euid records) → Leads log off records euid k := by
    intro same
    rw [chain.recordStart_injective within List.findIdx_le_length same]
    exact .here
  induction fuel generalizing k with
  | zero => cases scanned
  | succ fuel ih =>
      rw [getNextEntryByUid] at scanned
      rw [inspected] at onChain
      by_cases atEnd : log.wOff = recordStart log off records k
      · rw [if_neg (not_not.mpr atEnd), Option.some.injEq] at scanned
        exact stopsHere scanned
      · simp only [ne_eq, atEnd, not_false_eq_true, if_true] at scanned onChain
        have bound : k < records.length := by
          rcases Nat.lt_or_eq_of_le within with bound | isEnd
          · exact bound
          · rw [isEnd, chain.recordStart_end] at atEnd
            exact absurd rfl atEnd
        obtain ⟨record, left⟩ : ∃ record, records[k]? = some record :=
          ⟨records[k], List.getElem?_eq_getElem bound⟩
        have jumps := chain.jump_eq valid left
        by_cases own : (getEntryHeader log (recordStart log off records k)).euid = euid
        · rw [if_pos own, Option.some.injEq] at scanned
          exact stopsHere scanned
        · rw [if_neg own, jumps] at scanned
          rw [if_neg own, jumps] at onChain
          have foreign : record.header.euid ≠ euid := by
            rwa [chain.getEntryHeader_eq left] at own
          -- the offset jumped to is on the chain, as `w_off` or because its header is read next
          obtain ⟨next, inRecords, lands⟩ : ∃ next, next ≤ records.length ∧
              recordStart log off records next = record.bytes.length % log.size := by
            by_cases isEnd : log.wOff = record.bytes.length % log.size
            · exact ⟨records.length, Nat.le_refl _, chain.recordStart_end.trans isEnd⟩
            · cases fuel with
              | zero => cases scanned
              | succ fuel =>
                  have read : record.bytes.length % log.size ∈
                      inspected log euid (fuel + 1) (record.bytes.length % log.size) := by
                    rw [inspected, if_pos isEnd]
                    exact List.mem_cons_self
                  obtain ⟨next, inRecords, isStart⟩ := onChain _ (List.mem_cons_of_mem _ read)
                  exact ⟨next, Nat.le_of_lt inRecords, isStart.symm⟩
          rw [← lands] at scanned onChain
          refine .jump left foreign inRecords lands (ih inRecords scanned ?_ ?_)
          · exact fun visited member => onChain visited (List.mem_cons_of_mem _ member)
          · intro same
            rw [chain.recordStart_injective inRecords List.findIdx_le_length same]
            exact .here

/-- In a chain that does not reach the end of the buffer, the jumps lead to the first own
record only if it is the first of the chain, or the second of a chain at offset 0. -/
theorem leads_unwrapped_iff (chain : Chain log off records)
    (unwrapped : off + (recordsBytes records).length < log.size) :
    Leads log off records euid 0 ↔
      firstOwn euid records = 0 ∨ off = 0 ∧ firstOwn euid records = 1 := by
  have start : ∀ k,
      recordStart log off records k = off + (recordsBytes (records.take k)).length := by
    intro k
    have below := recordsBytes_take_le records k
    rw [recordStart, Nat.mod_eq_of_lt (by omega)]
  have ends : ∀ {k record}, records[k]? = some record →
      recordStart log off records (k + 1) =
        recordStart log off records k + record.bytes.length ∧
      record.bytes.length % log.size = record.bytes.length ∧ k + 1 ≤ records.length := by
    intro k record isRecord
    have below := recordsBytes_take_le records (k + 1)
    rw [start, start, recordsBytes_take_succ isRecord, List.length_append]
    rw [recordsBytes_take_succ isRecord, List.length_append] at below
    exact ⟨by omega, Nat.mod_eq_of_lt (by omega), (List.getElem?_eq_some_iff.mp isRecord).1⟩
  have order : ∀ {k next}, next ≤ records.length →
      recordStart log off records next ≤ recordStart log off records k → next ≤ k := by
    intro k next within le
    by_contra later
    have lt := recordsBytes_take_lt records (Nat.lt_of_not_le later) within
    rw [start, start] at le
    omega
  constructor
  · intro leads
    -- no jump leads forward, but for the one from a record at offset 0
    have back : ∀ k, Leads log off records euid k →
        firstOwn euid records ≤ k ∨ off = 0 ∧ k = 0 ∧ firstOwn euid records ≤ 1 := by
      intro k leads
      induction leads with
      | here => exact .inl (Nat.le_refl _)
      | @jump k next record left foreign within lands rest ih =>
          obtain ⟨after, small, inRecords⟩ := ends left
          rw [small] at lands
          rcases Nat.eq_zero_or_pos (recordStart log off records k) with atZero | positive
          · have isFirst : off = 0 ∧ k = 0 := by
              rw [start] at atZero
              have offZero : off = 0 := by omega
              refine ⟨offZero, ?_⟩
              by_contra later
              have lt := recordsBytes_take_lt records (Nat.pos_of_ne_zero later)
                (Nat.le_of_lt inRecords)
              omega
            have nextLe : next ≤ k + 1 := order within (by omega)
            omega
          · have nextLe : next ≤ k := by
              have lt : recordStart log off records next < recordStart log off records (k + 1) := by
                omega
              have le := order within (Nat.le_of_lt lt)
              rcases Nat.lt_or_eq_of_le le with before | same
              · exact Nat.le_of_lt_succ before
              · rw [same] at lt
                exact absurd lt (Nat.lt_irrefl _)
            omega
    have bound := back 0 leads
    omega
  · rintro (isFirst | ⟨atZero, isSecond⟩)
    · have arrived : Leads log off records euid (firstOwn euid records) := .here
      rwa [isFirst] at arrived
    · have first : 0 < records.length := by
        have found : firstOwn euid records ≤ records.length := List.findIdx_le_length
        omega
      have left : records[0]? = some records[0] := List.getElem?_eq_getElem first
      have foreign : records[0].header.euid ≠ euid := by
        have before : 0 < records.findIdx fun record => record.header.euid = euid := by
          rw [← firstOwn, isSecond]
          exact Nat.zero_lt_one
        simpa using List.not_of_lt_findIdx before
      obtain ⟨after, small, inRecords⟩ := ends left
      have arrived : Leads log off records euid (firstOwn euid records) := .here
      rw [isSecond] at arrived
      refine .jump left foreign inRecords ?_ arrived
      rw [small, after, chain.recordStart_zero, atZero, Nat.zero_add]

end Chain

/-- The scan of a chain ends at the first own record, or at `w_off`, and reads no header
beside the chain, exactly when the lengths of the records that it leaves lead there. -/
theorem uid_scan_iff (valid : log.Valid) (chain : Chain log off records) :
    ScansChain log off records euid ↔ Leads log off records euid 0 := by
  have atStart := chain.recordStart_zero
  constructor
  · rintro ⟨fuel, scanned, onChain⟩
    rw [← atStart] at scanned onChain
    rw [atStart] at scanned onChain
    apply chain.leads_of_scan valid fuel (Nat.zero_le _)
    · rwa [atStart]
    · rwa [atStart]
  · intro leads
    obtain ⟨fuel, scanned, onChain⟩ := chain.scan_of_leads valid leads
    rw [atStart] at scanned onChain
    exact ⟨fuel, scanned, onChain⟩

end Records

/-! ## A chain of one record -/

/-- A log of 256 bytes with one record, at offset 64. -/
def singleLog (record : Record) : LoggerLog where
  buffer := Mem.write (fun _ => 0) 64 record.bytes
  readers := []
  wOff := 64 + record.bytes.length
  head := 64
  size := 256

theorem singleLog_valid {record : Record} (small : record.bytes.length = 64) :
    (singleLog record).Valid where
  sizePow := ⟨8, rfl⟩
  wOffInRing := by
    simp only [singleLog, small]
    decide

theorem singleLog_chain {record : Record} (small : record.bytes.length = 64)
    (length : record.header.len.toNat = record.payload.length) :
    Chain (singleLog record) 64 [record] where
  inRing := by
    simp only [singleLog]
    decide
  held := by
    intro i bound
    have isRecord : recordsBytes [record] = record.bytes := List.append_nil _
    simp only [isRecord] at bound ⊢
    simp only [singleLog]
    rw [Nat.mod_eq_of_lt (by omega), Mem.write_inside _ bound]
  ends := by
    rw [recordsBytes_cons, recordsBytes_nil, List.append_nil]
    simp only [singleLog, small]
  room := by
    rw [recordsBytes_cons, recordsBytes_nil, List.append_nil, small]
    simp only [singleLog]
    decide
  lengths := by simpa using length

/-- A record of user 1 with 32 bytes of payload. -/
def foreignRecord : Record where
  header :=
    { len := 32, hdrSize := 32, pid := 0, tid := 0, sec := 0, nsec := 0, realSec := 0,
      realNsec := 0, euid := 1 }
  payload := List.replicate 32 0

/-- User 1 scans for it. -/
theorem uid_scan_one :
    Chain (singleLog foreignRecord) 64 [foreignRecord] ∧
      ScansChain (singleLog foreignRecord) 64 [foreignRecord] 1 := by
  have small : foreignRecord.bytes.length = 64 := by decide
  have chain := singleLog_chain small (by decide)
  exact ⟨chain, (uid_scan_iff (singleLog_valid small) chain).mpr .here⟩

/-- Another user's scan jumps from offset 64 to offset 64, and never ends. -/
theorem uid_scan_stuck :
    ¬ ∀ (log : LoggerLog) (off : Nat) (records : List Record) (euid : UInt32),
      log.Valid → Chain log off records → ScansChain log off records euid := by
  intro claim
  have small : foreignRecord.bytes.length = 64 := by decide
  have valid := singleLog_valid small
  have chain := singleLog_chain small (by decide)
  obtain ⟨fuel, scanned, _⟩ := claim _ _ _ 2 valid chain
  have start := chain.recordStart_zero
  have isFirst : [foreignRecord][0]? = some foreignRecord := rfl
  have notEnd : (singleLog foreignRecord).wOff ≠ 64 := by
    rw [← start]
    exact chain.wOff_ne_start (by decide)
  have foreign : (getEntryHeader (singleLog foreignRecord) 64).euid ≠ 2 := by
    rw [← start, chain.getEntryHeader_eq isFirst]
    decide
  have jumps := chain.jump_eq valid isFirst
  rw [start, small] at jumps
  have stuck : ∀ fuel, getNextEntryByUid (singleLog foreignRecord) 2 fuel 64 = none := by
    intro fuel
    induction fuel with
    | zero => rfl
    | succ fuel ih =>
        simp only [getNextEntryByUid, if_pos notEnd, if_neg foreign, jumps]
        exact ih
  rw [stuck] at scanned
  cases scanned

end DroidKernal.Log
