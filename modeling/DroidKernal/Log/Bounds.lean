import DroidKernal.Log.Steps

/-!
# Buffer bounds of the writer

The header copies and the first payload copy always stay inside the buffer.
The second payload copy does so only if the payload is not longer than one
revolution, and the copy for the debug message, which does not wrap, only if the
payload ends before the end of the buffer.
-/

namespace DroidKernal.Log

open Lib

/-- Every byte of an access lies in `[0, size)`. -/
def Access.InBuffer (size : Nat) : Access → Prop
  | .store off len => ∀ i, i < len → off + i < size
  | .load off len => ∀ i, i < len → off + i < size

theorem Access.store_inBuffer {size off len : Nat} :
    (Access.store off len).InBuffer size ↔ len = 0 ∨ off + len ≤ size := by
  rw [Access.InBuffer]
  constructor
  · intro inside
    rcases Nat.eq_zero_or_pos len with empty | positive
    · exact .inl empty
    · have last := inside (len - 1) (by omega)
      omega
  · intro fits i bound
    omega

theorem Access.load_inBuffer {size off len : Nat} :
    (Access.load off len).InBuffer size ↔ len = 0 ∨ off + len ≤ size :=
  Access.store_inBuffer

/-- Where the payload of the next write starts. -/
def payloadOff (log : LoggerLog) : Nat :=
  (log.wOff + sizeofLoggerEntry) % log.size

section Accesses

variable {log : LoggerLog} (valid : log.Valid) (large : sizeofLoggerEntry ≤ log.size)

include valid

theorem payloadHead_eq (source : IovIter) :
    payloadHead log source = min (writeCount source) (log.size - payloadOff log) := by
  rw [payloadHead, valid.loggerOffset_eq, payloadOff]

theorem payloadOff_lt : payloadOff log < log.size :=
  Nat.mod_lt _ valid.sizePos

include large

theorem headerAccesses_inBuffer :
    ∀ access ∈ headerAccesses log, access.InBuffer log.size := by
  intro access member
  have inRing := valid.wOffInRing
  simp only [headerAccesses, List.mem_cons, List.not_mem_nil, or_false] at member
  rcases member with rfl | rfl
  · rw [Access.store_inBuffer]
    omega
  · rw [Access.store_inBuffer]
    omega

/-- A complete write is inside the buffer exactly when its payload does not
wrap. -/
theorem complete_inBuffer_iff (current : Task) (now realNow : Nat) {source : IovIter}
    (positive : 0 < writeCount source) (complete : writeCount source ≤ source.readable) :
    (∀ access ∈ (loggerWriteIter log current now realNow source).accesses,
        access.InBuffer log.size) ↔
      payloadOff log + writeCount source ≤ log.size := by
  have header := headerAccesses_inBuffer valid large
  have start := payloadOff_lt valid
  rw [loggerWriteIter_stored log current now realNow positive complete]
  simp only [payloadHead_eq valid, valid.loggerOffset_eq, List.mem_append, List.mem_cons,
    List.not_mem_nil, or_false, ← payloadOff.eq_def]
  constructor
  · intro inside
    have load := inside (.load (payloadOff log) (writeCount source)) (by simp)
    rw [Access.load_inBuffer] at load
    omega
  · rintro fits access (inHeader | rfl | rfl | rfl)
    · exact header access inHeader
    · rw [Access.store_inBuffer]
      omega
    · rw [Access.store_inBuffer]
      omega
    · rw [Access.load_inBuffer]
      omega

/-- A faulting write is inside the buffer exactly when what it fetched past the
end of the buffer is at most one revolution. -/
theorem fault_inBuffer_iff (current : Task) (now realNow : Nat) {source : IovIter}
    (short : source.readable < writeCount source) :
    (∀ access ∈ (loggerWriteIter log current now realNow source).accesses,
        access.InBuffer log.size) ↔
      payloadOff log + writeCount source ≤ log.size ∨
        payloadOff log + source.readable ≤ 2 * log.size := by
  have header := headerAccesses_inBuffer valid large
  have start := payloadOff_lt valid
  rw [loggerWriteIter_fault log current now realNow short]
  simp only [payloadHead_eq valid, valid.loggerOffset_eq, List.mem_append, List.mem_cons,
    List.not_mem_nil, or_false, ← payloadOff.eq_def]
  by_cases reached :
      min (writeCount source) (log.size - payloadOff log) ≤ source.readable
  · rw [if_pos reached]
    constructor
    · intro inside
      have rest := inside (.store 0 (source.readable -
        min (writeCount source) (log.size - payloadOff log))) (by simp)
      rw [Access.store_inBuffer] at rest
      omega
    · rintro fits access ((inHeader | rfl) | rest)
      · exact header access inHeader
      · rw [Access.store_inBuffer]
        omega
      · rw [List.mem_singleton] at rest
        subst rest
        rw [Access.store_inBuffer]
        omega
  · rw [if_neg reached]
    constructor
    · intro _
      omega
    · rintro fits access ((inHeader | rfl) | none)
      · exact header access inHeader
      · rw [Access.store_inBuffer]
        omega
      · cases none

end Accesses

/-- Every access of a write to a reachable log is inside the buffer exactly when
the payload is empty or does not wrap, or the write faults less than one
revolution past the end of the buffer. -/
theorem logger_write_in_buffer_iff {buffer : Nat → UInt8} {size : Nat}
    {events : List (Call × Reply)} {log : LoggerLog} (power : ∃ k, size = 2 ^ k)
    (large : sizeofLoggerEntry ≤ size)
    (run : Run LoggerLog.Step (createLog buffer size) events log)
    (current : Task) (now realNow : Nat) (source : IovIter) :
    (∀ access ∈ (loggerWriteIter log current now realNow source).accesses,
        access.InBuffer size) ↔
      writeCount source = 0 ∨
        (log.wOff + sizeofLoggerEntry) % size + writeCount source ≤ size ∨
        (source.readable < writeCount source ∧
          (log.wOff + sizeofLoggerEntry) % size + source.readable ≤ 2 * size) := by
  obtain ⟨valid, rfl⟩ := run_valid power run
  rcases Nat.eq_zero_or_pos (writeCount source) with empty | positive
  · rw [loggerWriteIter_empty log current now realNow empty]
    simp [empty]
  · rcases Nat.lt_or_ge source.readable (writeCount source) with short | complete
    · rw [fault_inBuffer_iff valid large current now realNow short, payloadOff]
      omega
    · rw [complete_inBuffer_iff valid large current now realNow positive complete, payloadOff]
      omega

/-- On a new 1 KiB log: a payload of two bytes. -/
theorem logger_write_in_buffer_two_bytes :
    let write := loggerWriteIter (createLog (fun _ => 0) 1024) ⟨7, 8, 1000⟩ 0 0
      { bytes := [65, 66], readable := 2 }
    write.accesses.length ≠ 0 ∧ ∀ access ∈ write.accesses, access.InBuffer 1024 := by
  constructor
  · decide
  · apply (logger_write_in_buffer_iff ⟨10, rfl⟩ (by decide) .nil ⟨7, 8, 1000⟩ 0 0 _).mpr
    decide

/-- A payload of 4096 bytes overruns a new 1 KiB log. -/
theorem logger_write_out_of_buffer :
    ¬ ∀ (buffer : Nat → UInt8) (size : Nat) (events : List (Call × Reply)) (log : LoggerLog),
      size = 512 * 1024 ∨ size = 1024 → Run LoggerLog.Step (createLog buffer size) events log →
      ∀ (current : Task) (now realNow : Nat) (source : IovIter),
        ∀ access ∈ (loggerWriteIter log current now realNow source).accesses,
          access.InBuffer size := by
  intro claim
  have count : writeCount (zeroRequest 4096) = 4096 := writeCount_zeroRequest (by decide)
  have valid : (createLog (fun _ => 0) 1024).Valid := createLog_valid _ ⟨10, rfl⟩
  have inside := claim (fun _ => 0) 1024 [] _ (.inr rfl) .nil ⟨7, 8, 1000⟩ 0 0
    (zeroRequest 4096)
  rw [loggerWriteIter_stored _ _ _ _ (by rw [count]; decide) (by rw [count, zeroRequest])]
    at inside
  have head : payloadHead (createLog (fun _ => 0) 1024) (zeroRequest 4096) = 992 := by
    rw [payloadHead, count]
    decide
  have overrun := inside (.store 0 3104) (by simp [head, count])
  rw [Access.store_inBuffer] at overrun
  omega

end DroidKernal.Log
