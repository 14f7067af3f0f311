import DroidKernal.Log.Scan

/-!
# Moving readers out of the way

`fix_up_readers`, which `logger_write_iter` no longer calls.  Where the records of a log
are intact, it moves `head` and the readers that a write is about to run over to the
first record that starts far enough behind them.
-/

namespace DroidKernal.Log

open Lib

/-- The loop of `get_next_entry`.  The fuel counts iterations, each of which adds at least
the size of a header. -/
def getNextEntry (log : LoggerLog) (len : Nat) : Nat → Nat → Nat → Option Nat
  | 0, _, _ => none
  | fuel + 1, off, count =>
      let nr := sizeofLoggerEntry + getEntryMsgLen log off
      let off := loggerOffset log (off + nr)
      let count := count + nr
      if count < len then getNextEntry log len fuel off count else some off

/-- The offsets at which the loop reads a length. -/
def followed (log : LoggerLog) (len : Nat) : Nat → Nat → Nat → List Nat
  | 0, _, _ => []
  | fuel + 1, off, count =>
      let nr := sizeofLoggerEntry + getEntryMsgLen log off
      let next := loggerOffset log (off + nr)
      let count := count + nr
      off :: if count < len then followed log len fuel next count else []

/-- `is_between`. -/
def isBetween (a b c : Nat) : Bool :=
  if a < b then a < c && c ≤ b else c ≤ b || a < c

/-- What `fix_up_readers` does to one offset. -/
def fixUpOffset (log : LoggerLog) (len off : Nat) : Option Nat :=
  let old := log.wOff
  let new := loggerOffset log (old + len)
  if isBetween old new off then getNextEntry log len len off 0 else some off

/-- `fix_up_readers`. -/
def fixUpReaders (log : LoggerLog) (len : Nat) : Option LoggerLog := do
  let head ← fixUpOffset log len log.head
  let readers ← log.readers.mapM fun reader => do
    let rOff ← fixUpOffset log len reader.rOff
    return { reader with rOff }
  return { log with head, readers }

/-! ## What it is for -/

/-- The offset lies in the circular interval from `w_off`, exclusive, to `w_off + len`,
inclusive. -/
def Overrun (log : LoggerLog) (len off : Nat) : Prop :=
  ∃ step, 0 < step ∧ step ≤ len ∧ off = (log.wOff + step) % log.size

/-- The bytes between the starts of two records. -/
def bytesBetween (records : List Record) (k next : Nat) : Nat :=
  (recordsBytes (records.take next)).length - (recordsBytes (records.take k)).length

/-- An offset was moved out of the way of a write of `len` bytes: it is at a record or at
`w_off`, and the write does not reach it.  It did not move unless it had to, and then to
the first start at that distance, and only the lengths of records were followed. -/
structure MovedAway (log : LoggerLog) (records : List Record) (len off off' : Nat) : Prop where
  atRecord : ∃ k ≤ records.length, off' = recordStart log log.head records k
  spared : ¬ Overrun log len off'
  kept : ¬ Overrun log len off → off' = off
  first : Overrun log len off → ∃ k next, k < next ∧ next ≤ records.length ∧
    off = recordStart log log.head records k ∧ off' = recordStart log log.head records next ∧
    len ≤ bytesBetween records k next ∧
    ∀ earlier, k < earlier → earlier < next → bytesBetween records k earlier < len
  bounded : Overrun log len off → ∀ visited ∈ followed log len len off 0,
    ∃ k < records.length, visited = recordStart log log.head records k

/-- What `fix_up_readers` is for. -/
structure FixedUp (log : LoggerLog) (records : List Record) (len : Nat) (after : LoggerLog) :
    Prop where
  head : MovedAway log records len log.head after.head
  readers : List.Forall₂ (fun reader reader' => MovedAway log records len reader.rOff reader'.rOff ∧
    reader' = { reader with rOff := reader'.rOff }) log.readers after.readers
  rest : after = { log with head := after.head, readers := after.readers }

section Walk

variable {log : LoggerLog} {records : List Record} {len : Nat}

/-- A place less than one revolution ahead. -/
theorem ahead_cases {size off step : Nat} (inRing : off < size) (short : step < size) :
    off + step < size ∧ (off + step) % size = off + step ∨
      size ≤ off + step ∧ (off + step) % size = off + step - size := by
  rcases Nat.lt_or_ge (off + step) size with below | above
  · exact .inl ⟨below, Nat.mod_eq_of_lt below⟩
  · refine .inr ⟨above, ?_⟩
    rw [Nat.mod_eq_sub_mod above, Nat.mod_eq_of_lt (by omega)]

theorem isBetween_eq_true {a b c : Nat} :
    isBetween a b c = true ↔ a < b ∧ a < c ∧ c ≤ b ∨ b ≤ a ∧ (c ≤ b ∨ a < c) := by
  rw [isBetween]
  split
  next => simp; omega
  next => simp; omega

theorem isBetween_iff (valid : log.Valid) (positive : 0 < len) (short : len < log.size) {off : Nat}
    (inRing : off < log.size) :
    isBetween log.wOff (loggerOffset log (log.wOff + len)) off = true ↔ Overrun log len off := by
  have wOff := valid.wOffInRing
  have new := ahead_cases wOff short
  rw [valid.loggerOffset_eq, isBetween_eq_true, Overrun]
  constructor
  · intro between
    -- the distance from `w_off` to the offset
    rcases Nat.lt_or_ge log.wOff off with ahead | around
    · refine ⟨off - log.wOff, by omega, by omega, ?_⟩
      rw [Nat.add_sub_cancel' (Nat.le_of_lt ahead), Nat.mod_eq_of_lt inRing]
    · refine ⟨off + log.size - log.wOff, by omega, by omega, ?_⟩
      have sum : log.wOff + (off + log.size - log.wOff) = off + log.size := by omega
      rw [sum, Nat.add_mod_right, Nat.mod_eq_of_lt inRing]
  · rintro ⟨step, isAhead, within, rfl⟩
    have place := ahead_cases wOff (Nat.lt_of_le_of_lt within short)
    omega

/-- From one record on, the loop ends at the first start that is far enough away. -/
theorem getNextEntry_first (valid : log.Valid) (spans : Spans log log.head records)
    (fuel k : Nat) {count : Nat} (short : count < len) (steps : len ≤ count + fuel)
    (enough : len ≤ count + bytesBetween records k records.length) :
    ∃ next, k < next ∧ next ≤ records.length ∧
      getNextEntry log len fuel (recordStart log log.head records k) count =
        some (recordStart log log.head records next) ∧
      len ≤ count + bytesBetween records k next ∧
      (∀ earlier, k < earlier → earlier < next → count + bytesBetween records k earlier < len) ∧
      ∀ visited ∈ followed log len fuel (recordStart log log.head records k) count,
        ∃ j < records.length, visited = recordStart log log.head records j := by
  induction fuel generalizing k count with
  | zero => exact absurd short (Nat.not_lt.mpr steps)
  | succ fuel ih =>
      have bound : k < records.length := by
        by_contra beyond
        rw [bytesBetween, List.take_of_length_le (Nat.le_of_not_lt beyond), List.take_length,
          Nat.sub_self, Nat.add_zero] at enough
        exact absurd short (Nat.not_lt.mpr enough)
      have isRecord : records[k]? = some records[k] := List.getElem?_eq_getElem bound
      have next := spans.next_eq valid isRecord
      have isLength : sizeofLoggerEntry + getEntryMsgLen log (recordStart log log.head records k) =
          records[k].bytes.length := by
        rw [getEntryMsgLen, spans.getEntryHeader_eq isRecord,
          spans.lengths _ (List.mem_of_getElem? isRecord), Record.bytes_length]
      have positive : 0 < records[k].bytes.length := by
        rw [Record.bytes_length]
        exact Nat.add_pos_left (by decide) _
      have stepLength : (recordsBytes (records.take (k + 1))).length =
          (recordsBytes (records.take k)).length + records[k].bytes.length := by
        rw [recordsBytes_take_succ isRecord, List.length_append]
      have longer : ∀ later, k < later → later ≤ records.length → bytesBetween records k later =
          records[k].bytes.length + bytesBetween records (k + 1) later := by
        intro later isLater within
        have order : (recordsBytes (records.take (k + 1))).length ≤
            (recordsBytes (records.take later)).length := by
          have whole := recordsBytes_take_le (records.take later) (k + 1)
          rwa [List.take_take, Nat.min_eq_left isLater] at whole
        rw [bytesBetween, bytesBetween]
        omega
      rw [getNextEntry, followed, next, isLength]
      split
      next goesOn =>
        have enoughLeft : len ≤ count + records[k].bytes.length +
            bytesBetween records (k + 1) records.length := by
          rw [longer _ bound (Nat.le_refl _)] at enough
          omega
        obtain ⟨last, isLater, within, ends, far, near, bounded⟩ :=
          ih (k := k + 1) goesOn (by omega) enoughLeft
        refine ⟨last, Nat.lt_of_succ_lt isLater, within, ends, ?_, ?_, ?_⟩
        · rw [longer last (Nat.lt_of_succ_lt isLater) within]
          omega
        · intro earlier after before
          rw [longer earlier after (by omega)]
          rcases Nat.lt_or_ge (k + 1) earlier with later | same
          · have := near earlier later before
            omega
          · cases Nat.le_antisymm same after
            rw [bytesBetween, Nat.sub_self]
            omega
        · intro visited member
          rcases List.mem_cons.mp member with rfl | later
          · exact ⟨k, bound, rfl⟩
          · exact bounded visited later
      next stops =>
        refine ⟨k + 1, Nat.lt_succ_self k, bound, rfl, ?_, ?_, ?_⟩
        · rw [longer (k + 1) (Nat.lt_succ_self k) bound, bytesBetween, Nat.sub_self]
          omega
        · intro earlier after before
          omega
        · intro visited member
          cases List.mem_singleton.mp member
          exact ⟨k, bound, rfl⟩

/-- How far the end of the chain is from a record. -/
theorem recordStart_ahead (spans : Spans log log.head records) (k : Nat) :
    (recordStart log log.head records k + bytesBetween records k records.length) % log.size =
      log.wOff := by
  have prefixLe := recordsBytes_take_le records k
  have sum : log.head + (recordsBytes (records.take k)).length +
      bytesBetween records k records.length = log.head + (recordsBytes records).length := by
    rw [bytesBetween, List.take_length]
    omega
  rw [recordStart, Nat.mod_add_mod, sum, spans.ends]

/-- How far a record is from an earlier one. -/
theorem recordStart_after {k next : Nat} (order : k ≤ next) :
    recordStart log log.head records next =
      (recordStart log log.head records k + bytesBetween records k next) % log.size := by
  have prefixLe := recordsBytes_take_le (records.take next) k
  rw [List.take_take, Nat.min_eq_left order] at prefixLe
  have sum : log.head + (recordsBytes (records.take k)).length + bytesBetween records k next =
      log.head + (recordsBytes (records.take next)).length := by
    rw [bytesBetween]
    omega
  rw [recordStart, recordStart, Nat.mod_add_mod, sum]

theorem bytesBetween_end_le (spans : Spans log log.head records) (k next : Nat) :
    bytesBetween records k next ≤ bytesBetween records k records.length ∧
      bytesBetween records k records.length ≤ log.size := by
  have room := spans.room
  have prefixLe := recordsBytes_take_le records next
  rw [bytesBetween, bytesBetween, List.take_length]
  omega

/-- What is about to be overrun lies a revolution less its distance from `w_off` before it. -/
theorem Overrun.distance (valid : log.Valid) (spans : Spans log log.head records)
    (short : len < log.size) {k step : Nat} (isAhead : 0 < step) (within : step ≤ len)
    (isPlace : recordStart log log.head records k = (log.wOff + step) % log.size) :
    step + bytesBetween records k records.length = log.size := by
  have ends := recordStart_ahead spans k
  rw [isPlace, Nat.mod_add_mod, Nat.add_assoc] at ends
  have bound := (bytesBetween_end_le spans k k).2
  have wOff := valid.wOffInRing
  have inRing : log.wOff % log.size = log.wOff := Nat.mod_eq_of_lt wOff
  have stepShort : step < log.size := Nat.lt_of_le_of_lt within short
  rcases Nat.lt_trichotomy (step + bytesBetween records k records.length) log.size with
    before | same | after
  · have apart : log.wOff % log.size ≠
        (log.wOff + (step + bytesBetween records k records.length)) % log.size :=
      Ring.mod_ne (by omega) (by omega)
    rw [ends, inRing] at apart
    exact absurd rfl apart
  · exact same
  · have apart : (log.wOff + log.size) % log.size ≠
        (log.wOff + (step + bytesBetween records k records.length)) % log.size :=
      Ring.mod_ne (by omega) (by omega)
    rw [ends, Nat.add_mod_right, inRing] at apart
    exact absurd rfl apart

/-- One offset on the chain is moved away. -/
theorem fixUpOffset_movedAway (valid : log.Valid) (spans : Spans log log.head records)
    (positive : 0 < len) (half : len ≤ log.size / 2) {k : Nat} (within : k ≤ records.length) :
    ∃ off', fixUpOffset log len (recordStart log log.head records k) = some off' ∧
      MovedAway log records len (recordStart log log.head records k) off' := by
  have sizePos : 0 < log.size := Nat.lt_of_le_of_lt (Nat.zero_le _) valid.wOffInRing
  have short : len < log.size := by omega
  have inRing : recordStart log log.head records k < log.size := Nat.mod_lt _ sizePos
  have between := isBetween_iff valid positive short inRing
  rw [fixUpOffset]
  split
  next isBetween =>
    have overrun := between.mp isBetween
    obtain ⟨step, isAhead, stepLe, isPlace⟩ := overrun
    have distance := Overrun.distance valid spans short isAhead stepLe isPlace
    obtain ⟨next, isLater, nextLe, ends, far, near, bounded⟩ :=
      getNextEntry_first valid spans len k positive (by omega) (by omega)
    rw [Nat.zero_add] at far
    have between := (bytesBetween_end_le spans k next).1
    refine ⟨_, ends, ⟨next, nextLe, rfl⟩, ?_, fun spared => absurd ⟨step, isAhead, stepLe, isPlace⟩
      spared, fun _ => ⟨k, next, isLater, nextLe, rfl, rfl, far, ?_⟩, fun _ => bounded⟩
    · -- from beyond the write, but no further than `w_off`
      rintro ⟨step', isAhead', stepLe', isPlace'⟩
      have apart : (log.wOff + step') % log.size ≠
          (log.wOff + (step + bytesBetween records k next)) % log.size :=
        Ring.mod_ne (by omega) (by omega)
      rw [← isPlace', recordStart_after (Nat.le_of_lt isLater), isPlace, Nat.mod_add_mod,
        Nat.add_assoc] at apart
      exact apart rfl
    · intro earlier after before
      have nearer := near earlier after before
      rwa [Nat.zero_add] at nearer
  next outside =>
    have spared : ¬ Overrun log len (recordStart log log.head records k) :=
      fun overrun => outside (between.mpr overrun)
    exact ⟨_, rfl, ⟨k, within, rfl⟩, spared, fun _ => rfl, fun overrun => absurd overrun spared,
      fun overrun => absurd overrun spared⟩

/-- The loop over the readers moves each one. -/
theorem readers_movedAway (valid : log.Valid) (spans : Spans log log.head records)
    (positive : 0 < len) (half : len ≤ log.size / 2) {readers : List LoggerReader}
    (atRecords : ∀ reader ∈ readers,
      ∃ k ≤ records.length, reader.rOff = recordStart log log.head records k) :
    ∃ readers' : List LoggerReader,
      (readers.mapM fun reader => do
        let rOff ← fixUpOffset log len reader.rOff
        return { reader with rOff }) = some readers' ∧
      List.Forall₂ (fun reader reader' =>
        MovedAway log records len reader.rOff reader'.rOff ∧
          reader' = { reader with rOff := reader'.rOff }) readers readers' := by
  induction readers with
  | nil => exact ⟨[], rfl, .nil⟩
  | cons reader rest ih =>
      obtain ⟨k, within, isStart⟩ := atRecords reader List.mem_cons_self
      obtain ⟨off', moves, away⟩ := fixUpOffset_movedAway valid spans positive half within
      rw [← isStart] at moves away
      obtain ⟨rest', moved, all⟩ :=
        ih fun other member => atRecords other (List.mem_cons_of_mem _ member)
      refine ⟨{ reader with rOff := off' } :: rest', ?_, .cons ⟨away, rfl⟩ all⟩
      rw [List.mapM_cons, moves, moved]
      rfl

end Walk

/-- On an intact chain, every offset that a write of at most half the buffer would run over
is moved to the first record far enough ahead, and every other one is left alone. -/
theorem fix_up_readers_correct (log : LoggerLog) (records : List Record) (len : Nat)
    (valid : log.Valid) (spans : Spans log log.head records)
    (readers : ∀ reader ∈ log.readers,
      ∃ k ≤ records.length, reader.rOff = recordStart log log.head records k)
    (positive : 0 < len) (half : len ≤ log.size / 2) :
    ∃ after, fixUpReaders log len = some after ∧ FixedUp log records len after := by
  have first : recordStart log log.head records 0 = log.head := by
    rw [recordStart, List.take_zero, recordsBytes_nil, List.length_nil, Nat.add_zero,
      Nat.mod_eq_of_lt spans.inRing]
  have headMoves := fixUpOffset_movedAway valid spans positive half (Nat.zero_le records.length)
  rw [first] at headMoves
  obtain ⟨head', moves, away⟩ := headMoves
  obtain ⟨readers', moved, all⟩ := readers_movedAway valid spans positive half readers
  refine ⟨{ log with head := head', readers := readers' }, ?_, away, all, rfl⟩
  rw [fixUpReaders, moves, Option.bind_eq_bind, Option.bind_some, moved]
  rfl

/-- A log of 128 bytes, half full, with a reader at the record and one that is done. -/
def halfLog : LoggerLog where
  buffer := Mem.write (fun _ => 0) 0 foreignRecord.bytes
  readers := [{ rOff := 0, rAll := true, rVer := 2 }, { rOff := 64, rAll := true, rVer := 2 }]
  wOff := 64
  head := 0
  size := 128

theorem halfLog_held :
    Ring.Holds halfLog.size halfLog.buffer halfLog.head (recordsBytes [foreignRecord]) := by
  intro i bound
  have isRecord : recordsBytes [foreignRecord] = foreignRecord.bytes := List.append_nil _
  have small : foreignRecord.bytes.length = 64 := by decide
  simp only [isRecord] at bound ⊢
  simp only [halfLog]
  rw [Nat.mod_eq_of_lt (by omega), Mem.write_inside _ bound]

/-- Half a buffer overruns the record, so that its reader is at `w_off` as well. -/
theorem fix_up_readers_half :
    ∃ after, fixUpReaders halfLog 64 = some after ∧ FixedUp halfLog [foreignRecord] 64 after :=
  fix_up_readers_correct halfLog [foreignRecord] 64
    { sizePow := ⟨7, rfl⟩, wOffInRing := by decide }
    { inRing := by decide
      held := halfLog_held
      ends := by decide
      room := by decide
      lengths := by decide }
    (by decide) (by decide) (by decide)

end DroidKernal.Log
