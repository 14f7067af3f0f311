import DroidKernal.Binder.IPCThreadState
import DroidKernal.Binder.WriteOutcomes

/-!
# What `talkWithDriver` makes of an ioctl

The loop takes a result that is not zero for success and looks at `errno` otherwise.  So
it reports every failure as a success, and whether it reports a success depends on what
`errno` held before.
-/

namespace DroidKernal.Binder

open Lib

namespace Parcel

variable {parcel : Parcel} {heap : Heap}

/-- Setting the data size of a sound Parcel has a result. -/
theorem Sound.setDataSize_isSome (sound : parcel.Sound) (heap : Heap) (size : Nat) :
    ∃ outcome, parcel.setDataSize heap size = some outcome := by
  rw [setDataSize]
  split
  next => exact ⟨_, rfl⟩
  next =>
    obtain ⟨outcome, continues, _⟩ := sound.continueWrite_continued heap size
    rw [continues, Option.bind_eq_bind, Option.bind_some]
    split
    next => exact ⟨_, rfl⟩
    next => exact ⟨_, rfl⟩

/-- Clearing a Parcel leaves no data, also where there is no memory for an empty buffer. -/
theorem Sound.setDataSize_zero (sound : parcel.Sound) (heap : Heap) :
    ∃ outcome, parcel.setDataSize heap 0 = some outcome ∧ outcome.parcel.dataSize = 0 := by
  obtain ⟨outcome, continues, continued⟩ := sound.continueWrite_continued heap 0
  rw [setDataSize, if_neg (Nat.not_lt_zero _), continues, Option.bind_eq_bind, Option.bind_some]
  cases continued with
  | tooBig large => exact absurd large (Nat.not_lt_zero _)
  | outOfMemory _ fails =>
      refine ⟨_, rfl, ?_⟩
      have pos := sound.pos
      have size := sound.size
      have isNull : parcel.mOwner = false ∧ parcel.mData = none ∧ heap.data 0 = none := by
        simpa [Allocates] using fails
      have empty := sound.null isNull.2.1
      simp only [dataSize]
      omega
  | cleared => exact ⟨_, rfl, rfl⟩
  | resized _ _ notCleared resized =>
      refine ⟨_, rfl, ?_⟩
      have pos := resized.pos sound.pos
      rw [if_neg fun owned => notCleared owned rfl, Nat.min_zero] at pos
      simp only [dataSize, pos, Nat.max_self]

end Parcel

/-- The ioctl that returns given results one after the other.  The kernel counts the
calls. -/
def replay (results : Nat → IoctlResult) (calls : Nat) (_ : UserMemory) (_ : BinderWriteRead) :
    IoctlResult × Nat :=
  (results calls, calls + 1)

/-- What an ioctl can return: 0, or -1 with the error in `errno`.  `errno` is not negative,
and holds an earlier error or none where the call succeeds. -/
def IoctlResult.Documented (result : IoctlResult) : Prop :=
  0 ≤ result.errno ∧ (result.ret = 0 ∨ result.ret = -1 ∧ 0 < result.errno)

def IoctlResult.Interrupted (result : IoctlResult) : Prop :=
  result.ret = -1 ∧ result.errno = EINTR

namespace IPCThreadState

variable (thread : IPCThreadState) (doReceive : Bool)

def needRead : Bool := decide (thread.mIn.mDataPos ≥ thread.mIn.dataSize)

/-- The record that `talkWithDriver` passes to the driver. -/
def writeRead : BinderWriteRead where
  writeSize := if !doReceive || thread.needRead then thread.mOut.dataSize else 0
  writeConsumed := 0
  writeBuffer := thread.mOut.ipcData
  readSize := if doReceive && thread.needRead then thread.mIn.mDataCapacity else 0
  readConsumed := 0
  readBuffer := if doReceive && thread.needRead then thread.mIn.ipcData else 0

/-- There is a driver, and something to write to it or to read from it. -/
def Calls : Prop :=
  0 ≤ thread.mDriverFD ∧
    ¬ ((thread.writeRead doReceive).writeSize = 0 ∧ (thread.writeRead doReceive).readSize = 0)

/-- What a call reports, and leaves, of the last ioctl. -/
def Reflects (result : IoctlResult) (err : Int) (after : IPCThreadState) : Prop :=
  (result.ret = 0 → err = noError ∧
    (thread.mOut.dataSize ≤ result.bwr.writeConsumed → after.mOut.dataSize = 0)) ∧
  (result.ret ≠ 0 → err < noError ∧ after.mIn = thread.mIn ∧ after.mOut = thread.mOut)

/-- A call that makes an ioctl repeats it as long as it is interrupted, and then reports
how it ended. -/
def ReportsIoctl (heaps : CallHeaps) (outside : Nat → Option UInt8)
    (results : Nat → IoctlResult) : Prop :=
  thread.Calls doReceive →
    (∀ last, (∀ earlier, earlier < last → (results earlier).Interrupted) →
      ¬ (results last).Interrupted → ∃ fuel err after,
        talkWithDriver (replay results) heaps outside fuel 0 thread doReceive =
            some (err, after, last + 1) ∧
          thread.Reflects (results last) err after) ∧
    ((∀ call, (results call).Interrupted) → ∀ fuel,
      talkWithDriver (replay results) heaps outside fuel 0 thread doReceive = none)

end IPCThreadState

section Talk

variable {results : Nat → IoctlResult} {memory : UserMemory} {thread : IPCThreadState}
  {doReceive : Bool} {heaps : CallHeaps} {outside : Nat → Option UInt8}

/-- What the loop makes of a result. -/
def IoctlResult.err (result : IoctlResult) : Int :=
  if result.ret ≠ 0 then noError else -result.errno

theorem ioctlLoop_replay (fuel calls : Nat) (bwr : BinderWriteRead) :
    ioctlLoop (replay results) memory (fuel + 1) calls bwr =
      if (results calls).err = -EINTR then
        ioctlLoop (replay results) memory fuel (calls + 1) (results calls).bwr
      else some ((results calls).err, (results calls).bwr, calls + 1) := rfl

/-- The loop makes at least one call. -/
theorem ioctlLoop_calls {fuel calls calls' : Nat} {bwr bwr' : BinderWriteRead} {err : Int}
    (ended : ioctlLoop (replay results) memory fuel calls bwr = some (err, bwr', calls')) :
    calls < calls' := by
  induction fuel generalizing calls bwr with
  | zero => cases ended
  | succ fuel ih =>
      rw [ioctlLoop_replay] at ended
      split at ended
      next => exact Nat.lt_of_succ_lt (ih ended)
      next =>
        cases ended
        exact Nat.lt_succ_self calls

/-- What `talkWithDriver` does after the loop. -/
def finishTalk (heaps : CallHeaps) (thread : IPCThreadState) :
    Int × BinderWriteRead × Nat → Option (Int × IPCThreadState × Nat)
  | (err, bwr, kernel) => do
      if err ≥ noError then
        let mOut ←
          if bwr.writeConsumed > 0 ∧ ¬ bwr.writeConsumed < thread.mOut.dataSize then
            (thread.mOut.setDataSize heaps.clearOut 0).map Outcome.parcel
          else some thread.mOut
        let mIn ←
          if bwr.readConsumed > 0 then
            (thread.mIn.setDataSize heaps.fillIn bwr.readConsumed).map fun outcome =>
              outcome.parcel.setDataPosition 0
          else some thread.mIn
        return (noError, { thread with mOut, mIn }, kernel)
      else return (-EBADF, thread, kernel)

theorem talkWithDriver_calls (calls : thread.Calls doReceive) (fuel : Nat) :
    talkWithDriver (replay results) heaps outside fuel 0 thread doReceive =
      (ioctlLoop (replay results) (thread.mOut.memory outside) fuel 0
        (thread.writeRead doReceive)).bind (finishTalk heaps thread) := by
  rw [talkWithDriver, if_neg (Int.not_lt.mpr calls.1)]
  exact if_neg calls.2

theorem finishTalk_succeeds (heaps : CallHeaps) (mIn : thread.mIn.Sound)
    (mOut : thread.mOut.Sound) {err : Int} (isOk : noError ≤ err) (bwr : BinderWriteRead)
    (kernel : Nat) :
    ∃ after, finishTalk heaps thread (err, bwr, kernel) = some (noError, after, kernel) ∧
      (thread.mOut.dataSize ≤ bwr.writeConsumed → after.mOut.dataSize = 0) := by
  obtain ⟨filled, isFilled⟩ := mIn.setDataSize_isSome heaps.fillIn bwr.readConsumed
  obtain ⟨cleared, isCleared, empty⟩ := mOut.setDataSize_zero heaps.clearOut
  simp only [finishTalk, if_pos isOk, isFilled, isCleared, Option.map_some]
  split
  next =>
    split
    next => exact ⟨_, rfl, fun _ => empty⟩
    next => exact ⟨_, rfl, fun _ => empty⟩
  next notAll =>
    have nothing : thread.mOut.dataSize ≤ bwr.writeConsumed → thread.mOut.dataSize = 0 := by
      omega
    split
    next => exact ⟨_, rfl, nothing⟩
    next => exact ⟨_, rfl, nothing⟩

theorem finishTalk_fails {err : Int} (fails : err < noError) (bwr : BinderWriteRead)
    (kernel : Nat) :
    finishTalk heaps thread (err, bwr, kernel) = some (-EBADF, thread, kernel) := by
  rw [finishTalk, if_neg (Int.not_le.mpr fails)]
  rfl

/-- What comes after the loop makes no call. -/
theorem finishTalk_kernel (mIn : thread.mIn.Sound) (mOut : thread.mOut.Sound) {err err' : Int}
    {bwr : BinderWriteRead} {kernel kernel' : Nat} {after : IPCThreadState}
    (ended : finishTalk heaps thread (err, bwr, kernel) = some (err', after, kernel')) :
    kernel' = kernel := by
  rcases Int.lt_or_le err noError with fails | isOk
  · rw [finishTalk_fails fails] at ended
    exact (congrArg (·.2.2) (Option.some.inj ended)).symm
  · obtain ⟨after', succeeded, _⟩ := finishTalk_succeeds heaps mIn mOut isOk bwr kernel
    rw [succeeded] at ended
    exact (congrArg (·.2.2) (Option.some.inj ended)).symm

variable (calls : thread.Calls doReceive) (mIn : thread.mIn.Sound) (mOut : thread.mOut.Sound)

include calls

/-- A first call that is not taken for an interrupted one is the only one. -/
theorem talkWithDriver_once (notAgain : (results 0).err ≠ -EINTR) (fuel : Nat) :
    talkWithDriver (replay results) heaps outside (fuel + 1) 0 thread doReceive =
      finishTalk heaps thread ((results 0).err, (results 0).bwr, 1) := by
  rw [talkWithDriver_calls calls, ioctlLoop_replay, if_neg notAgain, Option.bind_some]

include mIn mOut

/-- After a first call that fails, the caller is told that it succeeded. -/
theorem talkWithDriver_failed (heaps : CallHeaps) (outside : Nat → Option UInt8)
    (failed : (results 0).ret ≠ 0) (fuel : Nat) :
    ∃ after, talkWithDriver (replay results) heaps outside (fuel + 1) 0 thread doReceive =
      some (noError, after, 1) := by
  have isOk : (results 0).err = noError := if_pos failed
  have notAgain : noError ≠ -EINTR := by decide
  rw [talkWithDriver_once calls (isOk ▸ notAgain), isOk]
  obtain ⟨after, ended, _⟩ :=
    finishTalk_succeeds heaps mIn mOut (Int.le_refl noError) (results 0).bwr 1
  exact ⟨after, ended⟩

/-- Whatever is reported after a first call that fails is wrong. -/
theorem not_reports_of_failed (failed : (results 0).ret ≠ 0)
    (reports : thread.ReportsIoctl doReceive heaps outside results) : False := by
  have ends := talkWithDriver_failed calls mIn mOut heaps outside failed
  obtain ⟨settles, never⟩ := reports calls
  by_cases all : ∀ call, (results call).Interrupted
  · obtain ⟨after, ended⟩ := ends 0
    rw [never all] at ended
    cases ended
  · -- the first call that is not interrupted
    have some : ∃ last, ¬ (results last).Interrupted := not_forall.mp all
    classical
    obtain ⟨fuel, err, after, ended, _, failure⟩ := settles (Nat.find some)
      (fun earlier before => not_not.mp (Nat.find_min some before)) (Nat.find_spec some)
    cases fuel with
    | zero =>
        rw [talkWithDriver_calls calls] at ended
        cases ended
    | succ fuel =>
        obtain ⟨after', ended'⟩ := ends fuel
        rw [ended'] at ended
        have isErr : noError = err := congrArg Prod.fst (Option.some.inj ended)
        have isLast : 1 = Nat.find some + 1 := congrArg (·.2.2) (Option.some.inj ended)
        have first : Nat.find some = 0 := (Nat.succ.inj isLast).symm
        rw [first, ← isErr] at failure
        have negative := (failure failed).1
        exact absurd negative (Int.lt_irrefl _)

end Talk

/-- `talkWithDriver` reports how the ioctl ended, and repeats it while it is interrupted,
exactly if it makes no ioctl, or the first one succeeds while `errno` is 0. -/
theorem talk_reports_iff (heaps : CallHeaps) (outside : Nat → Option UInt8)
    (results : Nat → IoctlResult) (thread : IPCThreadState) (doReceive : Bool)
    (documented : ∀ call, (results call).Documented) (mIn : thread.mIn.Sound)
    (mOut : thread.mOut.Sound) :
    thread.ReportsIoctl doReceive heaps outside results ↔
      (thread.Calls doReceive → (results 0).ret = 0 ∧ (results 0).errno = 0) := by
  constructor
  · intro reports calls
    by_cases failed : (results 0).ret = 0
    · refine ⟨failed, ?_⟩
      have notInterrupted : ¬ (results 0).Interrupted := by
        rintro ⟨fails, _⟩
        rw [failed] at fails
        cases fails
      obtain ⟨fuel, err, after, ended, success, _⟩ := (reports calls).1 0
        (fun earlier before => absurd before (Nat.not_lt_zero _)) notInterrupted
      have isErr : (results 0).err = -(results 0).errno := if_neg (not_not.mpr failed)
      have sign := (documented 0).1
      by_contra stale
      cases fuel with
      | zero =>
          rw [talkWithDriver_calls calls] at ended
          cases ended
      | succ fuel =>
          by_cases again : (results 0).err = -EINTR
          · -- the call is repeated although it succeeded
            rw [talkWithDriver_calls calls, ioctlLoop_replay, if_pos again] at ended
            obtain ⟨⟨err', bwr, kernel⟩, looped, finished⟩ := Option.bind_eq_some_iff.mp ended
            have more := ioctlLoop_calls looped
            have same := finishTalk_kernel mIn mOut finished
            omega
          · have negative : (results 0).err < noError := by
              rw [isErr, noError]
              omega
            rw [talkWithDriver_once calls again, finishTalk_fails negative] at ended
            have isBad : -EBADF = err := congrArg Prod.fst (Option.some.inj ended)
            have isOk := (success failed).1
            rw [← isBad] at isOk
            exact absurd isOk (by decide)
    · exact (not_reports_of_failed calls mIn mOut failed reports).elim
  · intro condition calls
    obtain ⟨success, noErrno⟩ := condition calls
    have notInterrupted : ¬ (results 0).Interrupted := by
      rintro ⟨fails, _⟩
      rw [success] at fails
      cases fails
    have isErr : (results 0).err = noError := by
      rw [IoctlResult.err, if_neg (not_not.mpr success), noErrno]
      rfl
    constructor
    · intro last interrupted _
      have first : last = 0 := by
        by_contra later
        exact notInterrupted (interrupted 0 (Nat.pos_of_ne_zero later))
      obtain ⟨after, ended, empty⟩ := finishTalk_succeeds heaps mIn mOut
        (Int.le_refl noError) (results 0).bwr 1
      have notAgain : noError ≠ -EINTR := by decide
      subst first
      refine ⟨1, noError, after, ?_, fun _ => ⟨rfl, empty⟩, fun fails => absurd success fails⟩
      rw [talkWithDriver_once calls (isErr ▸ notAgain), isErr, ended]
    · intro all
      exact absurd (all 0) notInterrupted

/-- A `BC_TRANSACTION` to handle 0. -/
def oneCommand : List UInt8 :=
  FlatRecord.uint32.encode linuxUapi.bcTransaction ++ List.replicate 64 0

/-- The thread of a process that has opened the driver, and whose `mOut` holds a command, in
the buffer that it grew to. -/
def commandThread : IPCThreadState where
  mIn := .initState
  mOut :=
    { Parcel.initState with
      mData := some { addr := 4096, cells := fun i => oneCommand.getD i 0 }
      mDataSize := 68
      mDataCapacity := 102
      mDataPos := 68 }
  mLastError := noError
  mDriverFD := 3

theorem commandThread_sound : commandThread.mIn.Sound ∧ commandThread.mOut.Sound := by
  refine ⟨Parcel.sound_initState, ?_⟩
  exact {
    pos := Nat.le_refl 68
    size := by decide
    null := by rintro ⟨⟩
    block := by
      rintro data ⟨⟩
      decide
    objects := fun some => absurd rfl some }

def exhaustedHeaps : CallHeaps := ⟨.exhausted, .exhausted, .exhausted, .exhausted⟩

/-- An ioctl that has consumed the command, and one that fails. -/
def consumedResult : IoctlResult :=
  { ret := 0, errno := 0, bwr := { commandThread.writeRead true with writeConsumed := 68 } }

def failedResult : IoctlResult :=
  { ret := -1, errno := ENODEV, bwr := commandThread.writeRead true }

/-- The success is reported, and `mOut` is empty. -/
theorem talk_reports_consumed :
    ∃ fuel after, talkWithDriver (replay fun _ => consumedResult) exhaustedHeaps (fun _ => none)
        fuel 0 commandThread true = some (noError, after, 1) ∧ after.mOut.dataSize = 0 := by
  have reports := (talk_reports_iff exhaustedHeaps (fun _ => none) (fun _ => consumedResult)
    commandThread true (fun _ => ⟨by decide, .inl rfl⟩) commandThread_sound.1
    commandThread_sound.2).mpr fun _ => ⟨rfl, rfl⟩
  have calls : commandThread.Calls true := ⟨by decide, by decide⟩
  have notInterrupted : ¬ consumedResult.Interrupted := by
    rintro ⟨⟨⟩, _⟩
  obtain ⟨fuel, err, after, ended, success, _⟩ := (reports calls).1 0
    (fun earlier before => absurd before (Nat.not_lt_zero _)) notInterrupted
  obtain ⟨rfl, empty⟩ := success rfl
  exact ⟨fuel, after, ended, empty (by decide)⟩

/-- A failed ioctl is reported as a success. -/
theorem talk_hides_failure :
    ¬ ∀ (heaps : CallHeaps) (outside : Nat → Option UInt8) (results : Nat → IoctlResult)
      (thread : IPCThreadState) (doReceive : Bool), (∀ call, (results call).Documented) →
        thread.mIn.Sound → thread.mOut.Sound →
          thread.ReportsIoctl doReceive heaps outside results := by
  intro claim
  have documented : failedResult.Documented := ⟨by decide, .inr ⟨rfl, by decide⟩⟩
  have calls : commandThread.Calls true := ⟨by decide, by decide⟩
  have reports := claim exhaustedHeaps (fun _ => none) (fun _ => failedResult) commandThread true
    (fun _ => documented) commandThread_sound.1 commandThread_sound.2
  exact not_reports_of_failed calls commandThread_sound.1 commandThread_sound.2 (by decide) reports

end DroidKernal.Binder
