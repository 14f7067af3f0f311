import DroidKernal.Log.Steps

/-!
# Writing in several calls

A caller may be told that only a part of its request was written, and resumes with the
rest.  `logger_write_iter` returns the length of the first of its two payload copies, so
it reports less than it stored wherever the payload wraps, and the resumed call stores
the end of the payload again.
-/

namespace DroidKernal.Log

open Lib

/-- A call of `logger_write_iter` on a log. -/
structure WriteCall where
  log : LoggerLog
  current : Task
  now : Nat
  realNow : Nat
  source : IovIter

namespace WriteCall

/-- What the call returns and leaves behind. -/
def result (call : WriteCall) : WriteResult :=
  loggerWriteIter call.log call.current call.now call.realNow call.source

/-- The header that it fills in. -/
def header (call : WriteCall) : LoggerEntry :=
  writeHeader call.current call.now call.realNow (writeCount call.source)

/-- The record that it stores. -/
def record (call : WriteCall) : Record :=
  requestRecord call.current call.now call.realNow call.source

/-- The call does not fault. -/
def Completes (call : WriteCall) : Prop := call.result.ret ≠ -EFAULT

/-- The payload ends before the end of the buffer. -/
def InOnePiece (call : WriteCall) : Prop :=
  writeCount call.source ≤
    call.log.size - loggerOffset call.log (call.log.wOff + sizeofLoggerEntry)

/-- The record that the call stores lies in the ring behind it. -/
def Stores (call : WriteCall) : Prop :=
  Ring.Holds call.log.size call.result.log.buffer call.log.wOff call.record.bytes

end WriteCall

/-- The calls of a caller that goes on with what it was not told to be written, until
nothing is left.  Anything may happen to the log between the calls. -/
inductive Resumes : List UInt8 → List WriteCall → Prop where
  | accepted : Resumes [] []
  | resume {call : WriteCall} {calls : List WriteCall} (unfinished : call.source.bytes ≠ [])
      (valid : call.log.Valid) (completes : call.Completes)
      (rest : Resumes (call.source.bytes.drop call.result.ret.toNat) calls) :
      Resumes call.source.bytes (call :: calls)

section Calls

variable {call : WriteCall} {calls : List WriteCall} {request : List UInt8}

theorem WriteCall.header_len (call : WriteCall) : call.header.len.toNat = writeCount call.source :=
  headerLen_toNat call.current call.now call.realNow call.source

/-- A call that completes returns the length of its first payload copy. -/
theorem WriteCall.Completes.ret_eq (completes : call.Completes) :
    call.result.ret = payloadHead call.log call.source := by
  rcases Nat.eq_zero_or_pos (writeCount call.source) with empty | positive
  · rw [result, loggerWriteIter_empty call.log call.current call.now call.realNow empty,
      payloadHead, empty, Nat.zero_min]
    rfl
  · rcases Nat.lt_or_ge call.source.readable (writeCount call.source) with short | complete
    · rw [Completes, result,
        loggerWriteIter_fault call.log call.current call.now call.realNow short] at completes
      exact absurd rfl completes
    · rw [result, loggerWriteIter_stored call.log call.current call.now call.realNow positive
        complete]

/-- The length is that of the payload exactly where the payload does not wrap. -/
theorem WriteCall.payloadHead_eq_iff :
    payloadHead call.log call.source = writeCount call.source ↔ call.InOnePiece := by
  rw [payloadHead, InOnePiece]
  omega

/-- The record of a nonempty request that completes is in the ring, if it fits there. -/
theorem WriteCall.Completes.stores (completes : call.Completes) (valid : call.log.Valid)
    (nonempty : 0 < writeCount call.source)
    (fits : sizeofLoggerEntry + writeCount call.source ≤ call.log.size) : call.Stores := by
  have complete : writeCount call.source ≤ call.source.readable := by
    by_contra short
    have fault := loggerWriteIter_fault call.log call.current call.now call.realNow
      (Nat.lt_of_not_le short)
    rw [Completes, result, fault] at completes
    exact completes rfl
  exact (loggerWriteIter_complete valid call.current call.now call.realNow nonempty complete
    fits).2.2

/-- The calls of a resuming caller store at least its request, and no more than that
exactly if no payload wraps. -/
theorem Resumes.stored_length (resumes : Resumes request calls) :
    request.length ≤ (calls.flatMap fun call => call.record.payload).length ∧
      ((calls.flatMap fun call => call.record.payload).length = request.length →
        ∀ call ∈ calls, call.InOnePiece) := by
  induction resumes with
  | accepted => exact ⟨Nat.le_refl 0, fun _ call none => nomatch none⟩
  | @resume call calls unfinished valid completes rest ih =>
      have returned := completes.ret_eq
      have head : payloadHead call.log call.source ≤ writeCount call.source := Nat.min_le_left _ _
      have within := writeCount_le_length call.source
      have payload : call.record.payload.length = writeCount call.source :=
        requestRecord_payload_length call.current call.now call.realNow
      rw [returned, Int.toNat_natCast, List.length_drop] at ih
      rw [List.flatMap_cons, List.length_append, payload]
      refine ⟨by omega, fun same other member => ?_⟩
      rcases List.mem_cons.mp member with rfl | later
      · rw [← WriteCall.payloadHead_eq_iff]
        omega
      · exact ih.2 (by omega) other later

/-- If no payload wraps, they store the request. -/
theorem Resumes.stored_once (resumes : Resumes request calls)
    (whole : ∀ call ∈ calls, call.InOnePiece) :
    (calls.flatMap fun call => call.record.payload) = request := by
  induction resumes with
  | accepted => rfl
  | @resume call calls unfinished valid completes rest ih =>
      have inOnePiece := whole call List.mem_cons_self
      have stored := ih fun other later => whole other (List.mem_cons_of_mem _ later)
      rw [List.flatMap_cons, stored, completes.ret_eq, Int.toNat_natCast,
        WriteCall.payloadHead_eq_iff.mpr inOnePiece]
      exact List.take_append_drop _ _

theorem Resumes.each (resumes : Resumes request calls) :
    ∀ call ∈ calls, call.log.Valid ∧ call.Completes ∧ 0 < writeCount call.source := by
  induction resumes with
  | accepted => exact fun call none => nomatch none
  | @resume call calls unfinished valid completes rest ih =>
      intro other member
      rcases List.mem_cons.mp member with rfl | later
      · refine ⟨valid, completes, ?_⟩
        have some := List.length_pos_iff.mpr unfinished
        simp only [writeCount, iovIterCount, loggerEntryMaxPayload]
        omega
      · exact ih other later

/-- In the calls of a resuming caller, each of which leaves its record in the ring if it
fits there: each returns the length in its header, and together they store every byte of
the request once, exactly if no payload wraps. -/
theorem log_write_reports_iff (resumes : Resumes request calls) :
    (∀ call ∈ calls, sizeofLoggerEntry + writeCount call.source ≤ call.log.size → call.Stores) ∧
      ((∀ call ∈ calls, call.result.ret = call.header.len.toNat) ↔
        ∀ call ∈ calls, call.InOnePiece) ∧
      ((calls.flatMap fun call => call.record.payload) = request ↔
        ∀ call ∈ calls, call.InOnePiece) := by
  refine ⟨fun call member fits => ?_, ?_, ?_⟩
  · obtain ⟨valid, completes, nonempty⟩ := resumes.each call member
    exact completes.stores valid nonempty fits
  · have same : ∀ call ∈ calls,
        (call.result.ret = call.header.len.toNat ↔ call.InOnePiece) := by
      intro call member
      rw [(resumes.each call member).2.1.ret_eq, call.header_len, Int.natCast_inj,
        WriteCall.payloadHead_eq_iff]
    exact forall₂_congr same
  · constructor
    · intro once
      exact resumes.stored_length.2 (by rw [once])
    · exact resumes.stored_once

end Calls

/-- A request of two bytes to a new log. -/
theorem log_write_reports_two_bytes :
    let call : WriteCall :=
      { log := createLog (fun _ => 0) 1024, current := ⟨7, 8, 1000⟩, now := 0, realNow := 0
        source := ⟨[65, 66], 2⟩ }
    Resumes [65, 66] [call] ∧ call.result.ret = call.header.len.toNat := by
  intro call
  have ret : call.result.ret = 2 := by decide
  have completes : call.Completes := by
    rw [WriteCall.Completes, ret]
    decide
  have rest : Resumes (call.source.bytes.drop call.result.ret.toNat) [] := by
    rw [ret]
    exact .accepted
  have resumes : Resumes [65, 66] [call] :=
    .resume (by decide) (createLog_valid _ ⟨10, rfl⟩) completes rest
  have whole : ∀ other ∈ [call], other.InOnePiece := by
    intro other member
    cases List.mem_singleton.mp member
    show writeCount call.source ≤
      call.log.size - loggerOffset call.log (call.log.wOff + sizeofLoggerEntry)
    decide
  exact ⟨resumes, (log_write_reports_iff resumes).2.1.mpr whole call List.mem_cons_self⟩

/-- In a ring of 64 bytes, the payload of 20 bytes of a record at offset 16 wraps after 16
bytes.  The caller writes the last 4 bytes again. -/
theorem log_write_short_count :
    ¬ ∀ (request : List UInt8) (calls : List WriteCall), Resumes request calls →
      (∀ call ∈ calls, call.result.ret = call.header.len.toNat) ∧
        (calls.flatMap fun call => call.record.payload) = request := by
  intro claim
  let log : LoggerLog := { createLog (fun _ => 0) 64 with wOff := 16 }
  let request : List UInt8 := List.replicate 20 65
  let first : WriteCall := ⟨log, ⟨7, 8, 1000⟩, 0, 0, ⟨request, 20⟩⟩
  let second : WriteCall := ⟨first.result.log, ⟨7, 8, 1000⟩, 0, 0, ⟨request.drop 16, 4⟩⟩
  have valid : log.Valid := ⟨⟨6, rfl⟩, by decide⟩
  have valid' : second.log.Valid := (loggerWriteIter_keeps ⟨7, 8, 1000⟩ 0 0 ⟨request, 20⟩ valid).1
  have ret : first.result.ret = 16 := by decide
  have ret' : second.result.ret = 4 := by decide
  have completes : first.Completes := by
    rw [WriteCall.Completes, ret]
    decide
  have completes' : second.Completes := by
    rw [WriteCall.Completes, ret']
    decide
  have last : Resumes (second.source.bytes.drop second.result.ret.toNat) [] := by
    rw [ret']
    exact .accepted
  have resumed : Resumes (first.source.bytes.drop first.result.ret.toNat) [second] := by
    rw [ret]
    exact .resume (by decide) valid' completes' last
  have reported := (claim request _ (.resume (by decide) valid completes resumed)).1 first
    List.mem_cons_self
  rw [ret] at reported
  revert reported
  decide

end DroidKernal.Log
