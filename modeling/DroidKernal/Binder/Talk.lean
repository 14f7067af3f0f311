import DroidKernal.Binder.RoundTrip
import Mathlib.Data.List.Infix

/-!
# Transactions that are sent again

`talkWithDriver` empties `mOut` once the driver reports that it has consumed the
commands, and the driver never reports that.  Every call therefore hands over
all commands that the thread has written so far.
-/

namespace DroidKernal.Binder

open Lib

/-! ## A driver that keeps a record -/

/-- The commands handed to `binder_transaction`, what the ioctls returned, and the `errno`
that they left behind. -/
structure DriverRecord where
  handed : List Command
  rets : List Int
  errno : Int
  deriving DecidableEq, Repr

/-- The ioctl `BINDER_WRITE_READ` as the C library presents it: a negative result
becomes `-1` and is left in `errno`, which stays as it is otherwise. -/
def driverIoctl (uapi : BinderUapi) (binderThread : BinderThread) (driver : DriverRecord)
    (memory : UserMemory) (bwr : BinderWriteRead) : IoctlResult × DriverRecord :=
  let (run, bwr) := binderIoctlWriteRead uapi (recordTransaction uapi) memory binderThread
    driver.handed bwr
  let errno := if run.ret < 0 then -run.ret else driver.errno
  ({ ret := if run.ret < 0 then -1 else run.ret, errno, bwr },
   { handed := run.state, rets := driver.rets ++ [run.ret], errno })

/-- The arguments of one call of `transact`, with what the call finds in its
environment: the outcomes of its allocations and the memory outside `mOut`. -/
structure TransactCall where
  handle : Int32
  code : UInt32
  data : Parcel
  reply : Option Parcel
  flags : UInt32
  heaps : CallHeaps
  outside : Nat → Option UInt8

/-- The transaction that a call asks for. -/
def TransactCall.command (uapi : BinderUapi) (call : TransactCall) : Command where
  cmd := uapi.bcTransaction
  tr := transactionData (call.flags ||| uapi.tfAcceptFds) call.handle call.code call.data

/-- The calls that `transact` does not refuse for an error of their Parcel. -/
def accepted (calls : List TransactCall) : List TransactCall :=
  calls.filter fun call => call.data.mError = noError

/-- Calls of `transact` one after the other. -/
def transactAll (uapi : BinderUapi) (binderThread : BinderThread) (fuel : Nat) :
    DriverRecord → IPCThreadState → List TransactCall → Option (DriverRecord × IPCThreadState)
  | driver, thread, [] => some (driver, thread)
  | driver, thread, call :: rest => do
      let response ← transact (driverIoctl uapi binderThread) uapi call.heaps call.outside fuel
        driver thread call.handle call.code call.data call.reply call.flags
      transactAll uapi binderThread fuel response.kernel response.thread rest

/-! ## The loop on a buffer that starts with commands -/

section Record

variable {uapi : BinderUapi} {memory : UserMemory} {thread : BinderThread}

/-- Whatever the buffer holds, the record only grows. -/
theorem threadWriteLoop_grows (finish fuel addr : Nat) (handed : List Command) :
    handed <+: (threadWriteLoop uapi (recordTransaction uapi) memory thread finish fuel addr
      handed).state := by
  apply threadWriteLoop_preserves (handed <+: ·)
  · intro state before tr reply
    exact before.trans (List.prefix_append state _)
  · exact List.prefix_refl handed

/-- A buffer is read to its end, or to where it cannot be read. -/
theorem threadWriteLoop_ret (finish fuel addr : Nat) (handed : List Command) :
    (threadWriteLoop uapi (recordTransaction uapi) memory thread finish fuel addr handed).ret = 0 ∨
      (threadWriteLoop uapi (recordTransaction uapi) memory thread finish fuel addr handed).ret =
        -EFAULT := by
  induction fuel generalizing addr handed with
  | zero => exact .inl rfl
  | succ fuel ih =>
      rw [threadWriteLoop]
      split
      next =>
        cases memory.getUser addr with
        | none => exact .inr rfl
        | some cmd =>
            simp only [ThreadWrite.after]
            split
            next =>
              cases memory.copyFromUser (addr + FlatRecord.uint32.size)
                  uapi.transactionData.size with
              | none => exact .inr rfl
              | some bytes =>
                  simp only
                  split
                  next => exact .inl rfl
                  next => exact ih _ _
            next => exact ih _ _
      next => exact .inl rfl

/-- The commands at the start of a buffer are handed over, whatever follows. -/
theorem threadWriteLoop_starts (ready : thread.returnErrorCmd = uapi.brOk)
    {commands : List Command} (known : ∀ command ∈ commands, command.Known uapi)
    {finish fuel addr : Nat} (held : memory.Holds addr (commands.flatMap (Command.bytes uapi)))
    (covers : addr + commands.length * Command.size uapi ≤ finish)
    (enough : finish - addr ≤ fuel) (handed : List Command) :
    handed ++ commands <+:
      (threadWriteLoop uapi (recordTransaction uapi) memory thread finish fuel addr
        handed).state := by
  induction commands generalizing addr fuel handed with
  | nil =>
      rw [List.append_nil]
      exact threadWriteLoop_grows finish fuel addr handed
  | cons command rest ih =>
      have positive : 0 < Command.size uapi := Nat.add_pos_left (by decide) _
      rw [List.length_cons, Nat.succ_mul] at covers
      rw [List.flatMap_cons] at held
      have held' := (UserMemory.holds_append.mp held).2
      rw [Command.bytes_length] at held'
      cases fuel with
      | zero => omega
      | succ fuel =>
          have isKnown : command.Known uapi := known command (by simp)
          have starts := ih (fun other member => known other (by simp [member])) held'
            (by omega) (show finish - (addr + Command.size uapi) ≤ fuel by omega)
            (handed ++ [command])
          rw [threadWriteLoop_command (recordTransaction uapi) ready isKnown held (by omega) handed,
            recordTransaction_known isKnown, List.append_cons]
          exact starts

end Record

/-! ## One call -/

section Call

variable {uapi : BinderUapi}

theorem binderIoctlWriteRead_ret (handed : List Command) (binderThread : BinderThread)
    (memory : UserMemory) (bwr : BinderWriteRead) :
    (binderIoctlWriteRead uapi (recordTransaction uapi) memory binderThread handed bwr).1.ret = 0 ∨
      (binderIoctlWriteRead uapi (recordTransaction uapi) memory binderThread handed bwr).1.ret =
        -EFAULT := by
  rw [binderIoctlWriteRead]
  split
  next =>
    simp only
    split
    next => exact threadWriteLoop_ret _ _ _ handed
    next => exact threadWriteLoop_ret _ _ _ handed
  next => exact .inl rfl

/-- An ioctl succeeds and leaves `errno` alone, or fails for the memory. -/
theorem driverIoctl_result (driver : DriverRecord) (binderThread : BinderThread)
    (memory : UserMemory) (bwr : BinderWriteRead) :
    (driverIoctl uapi binderThread driver memory bwr).1.ret = 0 ∧
        (driverIoctl uapi binderThread driver memory bwr).1.errno = driver.errno ∨
      (driverIoctl uapi binderThread driver memory bwr).1.ret = -1 ∧
        (driverIoctl uapi binderThread driver memory bwr).1.errno = EFAULT := by
  simp only [driverIoctl]
  rcases binderIoctlWriteRead_ret driver.handed binderThread memory bwr with isZero | isFault
  · rw [isZero]
    exact .inl ⟨rfl, rfl⟩
  · rw [isFault]
    exact .inr ⟨rfl, rfl⟩

/-- No ioctl leaves `EINTR` behind. -/
theorem driverIoctl_errno {driver : DriverRecord} (notInterrupted : driver.errno ≠ EINTR)
    (binderThread : BinderThread) (memory : UserMemory) (bwr : BinderWriteRead) :
    (driverIoctl uapi binderThread driver memory bwr).2.errno ≠ EINTR := by
  have same : (driverIoctl uapi binderThread driver memory bwr).2.errno =
      (driverIoctl uapi binderThread driver memory bwr).1.errno := rfl
  rw [same]
  rcases driverIoctl_result driver binderThread memory bwr with ⟨_, kept⟩ | ⟨_, isFault⟩
  · rwa [kept]
  · rw [isFault]
    decide

/-- One ioctl is enough unless `errno` was `EINTR`, and it never looks failed.  It leaves the
consumed counts at zero. -/
theorem ioctlLoop_driver (uapi : BinderUapi) {driver : DriverRecord}
    (notInterrupted : driver.errno ≠ EINTR)
    (binderThread : BinderThread) (memory : UserMemory) (fuel : Nat) (bwr : BinderWriteRead)
    (unwritten : bwr.writeConsumed = 0) (unread : bwr.readConsumed = 0) :
    ∃ err bwr', ioctlLoop (driverIoctl uapi binderThread) memory (fuel + 1) driver bwr =
        some (err, bwr', (driverIoctl uapi binderThread driver memory bwr).2) ∧
      bwr'.writeConsumed = 0 ∧ bwr'.readConsumed = 0 := by
  cases called : driverIoctl uapi binderThread driver memory bwr with
  | mk result driver' =>
      have isResult : (driverIoctl uapi binderThread driver memory bwr).1 = result := by
        rw [called]
      have consumed : result.bwr.writeConsumed = 0 ∧ result.bwr.readConsumed = 0 := by
        rw [← isResult]
        simp only [driverIoctl, binderIoctlWriteRead]
        split
        next =>
          split
          · exact ⟨unwritten, rfl⟩
          · exact ⟨unwritten, unread⟩
        next => exact ⟨unwritten, unread⟩
      -- a failure counts as success, and a success reports what `errno` was before
      have ends : (if result.ret ≠ 0 then noError else -result.errno) ≠ -EINTR := by
        rcases driverIoctl_result driver binderThread memory bwr with
          ⟨passes, kept⟩ | ⟨fails, _⟩
        · rw [isResult] at passes kept
          rw [if_neg (not_not.mpr passes), kept]
          exact fun same => notInterrupted (Int.neg_inj.mp same)
        · rw [isResult] at fails
          rw [if_pos (by rw [fails]; decide)]
          decide
      refine ⟨if result.ret ≠ 0 then noError else -result.errno, result.bwr, ?_, consumed⟩
      rw [ioctlLoop, called]
      simp only
      rw [if_neg ends]

/-- The record that `talkWithDriver` passes to the driver while nothing was
received. -/
def writeOnly (mOut : Parcel) : BinderWriteRead where
  writeSize := mOut.dataSize
  writeConsumed := 0
  writeBuffer := mOut.ipcData
  readSize := 0
  readConsumed := 0
  readBuffer := 0

/-- Talking to the driver hands it all of `mOut` and leaves the thread as it
was. -/
theorem talkWithDriver_writeOnly (uapi : BinderUapi) (thread : IPCThreadState)
    (valid : 0 ≤ thread.mDriverFD) (nothingRead : thread.mIn = .initState)
    (nonempty : 0 < thread.mOut.dataSize)
    (heaps : CallHeaps) (outside : Nat → Option UInt8) (fuel : Nat) {driver : DriverRecord}
    (notInterrupted : driver.errno ≠ EINTR) (binderThread : BinderThread) :
    ∃ err, talkWithDriver (driverIoctl uapi binderThread) heaps outside (fuel + 1) driver thread
        true =
      some (err, thread,
        (driverIoctl uapi binderThread driver (thread.mOut.memory outside)
          (writeOnly thread.mOut)).2) := by
  obtain ⟨err, bwr, talked, unwritten, unread⟩ := ioctlLoop_driver uapi notInterrupted binderThread
    (thread.mOut.memory outside) fuel (writeOnly thread.mOut) rfl rfl
  have needRead : thread.mIn.mDataPos ≥ thread.mIn.dataSize := by
    rw [nothingRead]
    exact Nat.le_refl 0
  have noCapacity : thread.mIn.mDataCapacity = 0 := by rw [nothingRead]; rfl
  have noBuffer : thread.mIn.ipcData = 0 := by rw [nothingRead]; rfl
  rw [writeOnly] at talked
  rw [talkWithDriver, if_neg (by omega)]
  simp only [decide_eq_true needRead, Bool.or_true, Bool.and_true, if_true, noCapacity, noBuffer]
  rw [if_neg (by omega), talked]
  by_cases succeeds : err ≥ noError
  · exact ⟨noError, by simp [succeeds, unwritten, unread, writeOnly]⟩
  · exact ⟨-EBADF, by simp [succeeds, writeOnly]⟩

/-- An accepted call writes its command and hands over all of `mOut`, and leaves the rest of
the thread as it was, up to `mLastError`. -/
theorem transact_accepted {thread : IPCThreadState} (valid : 0 ≤ thread.mDriverFD)
    (nothingRead : thread.mIn = .initState) {call : TransactCall}
    (errorFree : call.data.mError = noError) {mOut : Parcel}
    (written : appendTransaction uapi call.heaps thread uapi.bcTransaction.toInt32
      (call.command uapi).tr = some { thread with mOut })
    (nonempty : 0 < mOut.dataSize) (fuel : Nat) {driver : DriverRecord}
    (notInterrupted : driver.errno ≠ EINTR) (binderThread : BinderThread) :
    ∃ response mLastError, transact (driverIoctl uapi binderThread) uapi call.heaps call.outside
        (fuel + 1) driver thread call.handle call.code call.data call.reply call.flags =
          some response ∧
      response.thread = { thread with mOut, mLastError } ∧
      response.kernel = (driverIoctl uapi binderThread driver (mOut.memory call.outside)
        (writeOnly mOut)).2 := by
  obtain ⟨talked, isTalked⟩ := talkWithDriver_writeOnly uapi { thread with mOut } valid nothingRead
    nonempty call.heaps call.outside fuel notInterrupted binderThread
  have waited : ∀ reply, ∃ response mLastError,
      waitForResponse (driverIoctl uapi binderThread) call.heaps call.outside (fuel + 1) driver
          { thread with mOut } reply = some response ∧
        response.thread = { thread with mOut, mLastError } ∧
        response.kernel = (driverIoctl uapi binderThread driver (mOut.memory call.outside)
          (writeOnly mOut)).2 := by
    intro reply
    rw [waitForResponse, isTalked]
    simp only [Option.bind_eq_bind, Option.bind_some]
    generalize (if talked < noError then talked else thread.mIn.mError) = err
    by_cases failed : err ≠ noError
    · rw [if_pos failed]
      refine ⟨_, err, rfl, ?_⟩
      exact ⟨rfl, rfl⟩
    · rw [if_neg failed]
      refine ⟨_, thread.mLastError, rfl, ?_⟩
      exact ⟨rfl, rfl⟩
  rw [TransactCall.command] at written
  simp only [transact, writeTransactionData, errorFree, written, if_true, Option.bind_eq_bind,
    Option.bind_some, Option.pure_def, ne_eq, not_true_eq_false, if_false]
  split
  next =>
    cases call.reply with
    | some reply => exact waited (some reply)
    | none =>
        obtain ⟨response, mLastError, isResponse, isThread, isKernel⟩ :=
          waited (some .initState)
        exact ⟨{ response with reply := none }, mLastError, by simp [isResponse], isThread,
          isKernel⟩
  next => exact waited none

/-- A refused call touches neither the driver nor `mOut`. -/
theorem transact_refused {call : TransactCall} (refused : call.data.mError ≠ noError)
    (fuel : Nat) (driver : DriverRecord) (thread : IPCThreadState) (binderThread : BinderThread) :
    ∃ response, transact (driverIoctl uapi binderThread) uapi call.heaps call.outside fuel
        driver thread call.handle call.code call.data call.reply call.flags = some response ∧
      response.kernel = driver ∧
      response.thread = { thread with mLastError := call.data.mError } := by
  simp [transact, writeTransactionData, refused]

variable {mOut : Parcel} {bytes : List UInt8} {commands : List Command}

theorem driverIoctl_writeOnly (driver : DriverRecord) (binderThread : BinderThread)
    (memory : UserMemory) (inSpace : mOut.ipcData + mOut.dataSize < 2 ^ 64)
    (nonempty : 0 < mOut.dataSize) :
    let run := threadWriteLoop uapi (recordTransaction uapi) memory binderThread
      (mOut.ipcData + mOut.dataSize) mOut.dataSize mOut.ipcData driver.handed
    (driverIoctl uapi binderThread driver memory (writeOnly mOut)).2 =
      { handed := run.state, rets := driver.rets ++ [run.ret]
        errno := if run.ret < 0 then -run.ret else driver.errno } := by
  have start : (mOut.ipcData + 0) % 2 ^ 64 = mOut.ipcData := Nat.mod_eq_of_lt (by omega)
  simp only [driverIoctl, binderIoctlWriteRead, writeOnly, if_pos nonempty, binderThreadWrite,
    start, Nat.mod_eq_of_lt inSpace, Nat.add_sub_cancel_left]
  split <;> rfl

/-- The commands at the start of `mOut` are handed over. -/
theorem driverIoctl_starts (appending : mOut.Appending bytes) (nonempty : 0 < mOut.dataSize)
    (known : ∀ command ∈ commands, command.Known uapi)
    (starts : commands.flatMap (Command.bytes uapi) <+: bytes)
    (outside : Nat → Option UInt8) (driver : DriverRecord) (pid : Int32) :
    driver.handed ++ commands <+:
      (driverIoctl uapi (.create uapi pid) driver (mOut.memory outside)
        (writeOnly mOut)).2.handed := by
  obtain ⟨rest, isBytes⟩ := starts
  have held := appending.memory outside
  rw [← isBytes] at held
  have covers : mOut.ipcData + commands.length * Command.size uapi ≤
      mOut.ipcData + mOut.dataSize := by
    rw [appending.dataSize_eq, ← isBytes, List.length_append, Command.flatMap_bytes_length]
    omega
  rw [driverIoctl_writeOnly driver _ _ appending.inSpace nonempty]
  exact threadWriteLoop_starts rfl known (UserMemory.holds_append.mp held).1 covers (by omega)
    driver.handed

/-- Where `mOut` holds commands only, exactly these are handed over. -/
theorem driverIoctl_exact (appending : mOut.Appending (commands.flatMap (Command.bytes uapi)))
    (nonempty : 0 < mOut.dataSize) (known : ∀ command ∈ commands, command.Known uapi)
    (outside : Nat → Option UInt8) (driver : DriverRecord) (pid : Int32) :
    (driverIoctl uapi (.create uapi pid) driver (mOut.memory outside) (writeOnly mOut)).2 =
      { handed := driver.handed ++ commands, rets := driver.rets ++ [0]
        errno := driver.errno } := by
  have ends : mOut.ipcData + commands.length * Command.size uapi =
      mOut.ipcData + mOut.dataSize := by
    rw [appending.dataSize_eq, Command.flatMap_bytes_length]
  have ready : (BinderThread.create uapi pid).returnErrorCmd = uapi.brOk := rfl
  obtain ⟨ret, state, _⟩ := threadWriteLoop_commands (recordTransaction uapi) ready known
    (appending.memory outside) ends (Nat.sub_le_of_le_add (Nat.add_comm _ _).le) driver.handed
  rw [driverIoctl_writeOnly driver _ _ appending.inSpace nonempty, ret, state,
    execute_record uapi driver.handed known]
  rfl

end Call

/-! ## Whole runs -/

/-- What the driver is handed if every call sends all commands so far. -/
def resent (sent : List Command) : List Command := sent.inits.flatten

theorem resent_append (sent : List Command) (command : Command) :
    resent (sent ++ [command]) = resent sent ++ (sent ++ [command]) := by
  simp [resent, List.inits_append]

theorem resent_eq {sent : List Command} (few : sent.length ≤ 1) : resent sent = sent := by
  cases sent with
  | nil => rfl
  | cons only rest =>
      cases rest with
      | nil => rfl
      | cons => simp at few

/-- What holds after `sent` was accepted: `mOut` still starts with the commands,
and the driver was handed too many from the second call on. -/
structure Talking (uapi : BinderUapi) (sent : List Command) (driver : DriverRecord)
    (thread : IPCThreadState) (bytes : List UInt8) : Prop where
  valid : 0 ≤ thread.mDriverFD
  nothingRead : thread.mIn = .initState
  notInterrupted : driver.errno ≠ EINTR
  appending : thread.mOut.Appending bytes
  known : ∀ command ∈ sent, command.Known uapi
  starts : (sent.take 2).flatMap (Command.bytes uapi) <+: bytes
  fits : sent.length * Command.size uapi * 3 / 2 ≤ int32Max →
    bytes = sent.flatMap (Command.bytes uapi) ∧ driver.handed = resent sent ∧
      driver.rets = List.replicate sent.length 0
  tooMany : 2 ≤ sent.length → sent.length < driver.handed.length

section Runs

variable {uapi : BinderUapi} {sent : List Command} {driver : DriverRecord}
  {thread : IPCThreadState} {bytes : List UInt8}

theorem command_known (uapi : BinderUapi) (call : TransactCall) :
    (call.command uapi).Known uapi :=
  .inl rfl

theorem command_size_small (uapi : BinderUapi) : Command.size uapi ≤ 4100 := by
  have small := uapi.small
  have word : FlatRecord.uint32.size = 4 := rfl
  rw [Command.size]
  omega

theorem two_commands_fit (uapi : BinderUapi) {count : Nat} (one : count ≤ 1) :
    (count + 1) * Command.size uapi * 3 / 2 ≤ int32Max := by
  have small := command_size_small uapi
  have atMost : (count + 1) * Command.size uapi ≤ 2 * Command.size uapi :=
    Nat.mul_le_mul_right _ (Nat.succ_le_succ one)
  simp only [int32Max]
  omega

theorem Talking.init {fd errno : Int} (valid : 0 ≤ fd) (notInterrupted : errno ≠ EINTR) :
    Talking uapi [] { handed := [], rets := [], errno } (.init fd) [] where
  valid := valid
  nothingRead := rfl
  notInterrupted := notInterrupted
  appending := Parcel.appending_initState
  known := by simp
  starts := List.prefix_refl _
  fits := fun _ => ⟨rfl, rfl, rfl⟩
  tooMany := by simp

/-- A call whose Parcel has an error. -/
theorem Talking.refused (talking : Talking uapi sent driver thread bytes) (mLastError : Int) :
    Talking uapi sent driver { thread with mLastError } bytes :=
  { talking with }

/-- Writing one more command: the first two stay in place, and all of them are
there as long as they fit. -/
theorem Talking.written (talking : Talking uapi sent driver thread bytes) (call : TransactCall)
    (cmdAllocated : call.heaps.writeCmd.Succeeds) (trAllocated : call.heaps.writeTr.Succeeds) :
    ∃ mOut added, appendTransaction uapi call.heaps thread uapi.bcTransaction.toInt32
        (call.command uapi).tr = some { thread with mOut } ∧
      mOut.Appending (bytes ++ added) ∧
      ((sent ++ [call.command uapi]).take 2).flatMap (Command.bytes uapi) <+: bytes ++ added ∧
      ((sent.length + 1) * Command.size uapi * 3 / 2 ≤ int32Max →
        bytes ++ added = (sent ++ [call.command uapi]).flatMap (Command.bytes uapi)) := by
  obtain ⟨mOut, added, written, appended, whole⟩ := appendTransaction_cases uapi
    talking.appending cmdAllocated trAllocated uapi.bcTransaction.toInt32 (call.command uapi).tr
  have allThere : (sent.length + 1) * Command.size uapi * 3 / 2 ≤ int32Max →
      bytes ++ added = (sent ++ [call.command uapi]).flatMap (Command.bytes uapi) := by
    intro limit
    rw [Nat.succ_mul] at limit
    obtain ⟨isBytes, _, _⟩ := talking.fits (by omega)
    have length : bytes.length = sent.length * Command.size uapi := by
      rw [isBytes, Command.flatMap_bytes_length]
    rcases whole with rfl | beyond
    · simp [isBytes, TransactCall.command]
    · rw [length] at beyond
      omega
  refine ⟨mOut, added, written, appended, ?_, allThere⟩
  rcases Nat.lt_or_ge 1 sent.length with two | one
  · rw [List.take_append_of_le_length two]
    exact talking.starts.trans (List.prefix_append bytes added)
  · rw [allThere (two_commands_fit uapi one), List.take_of_length_le (by simpa using one)]

/-- A call whose Parcel has no error. -/
theorem Talking.accepted (talking : Talking uapi sent driver thread bytes) {call : TransactCall}
    (errorFree : call.data.mError = noError) (cmdAllocated : call.heaps.writeCmd.Succeeds)
    (trAllocated : call.heaps.writeTr.Succeeds) (pid : Int32) (fuel : Nat) :
    ∃ response bytes', transact (driverIoctl uapi (.create uapi pid)) uapi call.heaps call.outside
        (fuel + 1) driver thread call.handle call.code call.data call.reply call.flags =
          some response ∧
      Talking uapi (sent ++ [call.command uapi]) response.kernel response.thread bytes' := by
  obtain ⟨mOut, added, written, appended, starts, allThere⟩ :=
    talking.written call cmdAllocated trAllocated
  have known : ∀ command ∈ sent ++ [call.command uapi], command.Known uapi := by
    intro command member
    rcases List.mem_append.mp member with earlier | last
    · exact talking.known command earlier
    · rw [List.mem_singleton.mp last]
      exact command_known uapi call
  have nonempty : 0 < mOut.dataSize := by
    have covers := starts.length_le
    rw [Command.flatMap_bytes_length] at covers
    have positive : 0 < ((sent ++ [call.command uapi]).take 2).length * Command.size uapi :=
      Nat.mul_pos (by simp) (Nat.add_pos_left (by decide) _)
    rw [appended.dataSize_eq]
    exact Nat.lt_of_lt_of_le positive covers
  have exactly : (sent.length + 1) * Command.size uapi * 3 / 2 ≤ int32Max →
      (driverIoctl uapi (.create uapi pid) driver (mOut.memory call.outside)
        (writeOnly mOut)).2 =
        { handed := resent (sent ++ [call.command uapi])
          rets := List.replicate (sent.length + 1) 0
          errno := driver.errno } := by
    intro limit
    rw [driverIoctl_exact (allThere limit ▸ appended) nonempty known call.outside driver pid]
    rw [Nat.succ_mul] at limit
    obtain ⟨_, handed, rets⟩ := talking.fits (by omega)
    rw [handed, rets, resent_append, List.replicate_succ']
  obtain ⟨response, mLastError, responded, isThread, isKernel⟩ := transact_accepted talking.valid
    talking.nothingRead errorFree written nonempty fuel talking.notInterrupted (.create uapi pid)
  refine ⟨response, bytes ++ added, responded, ?_⟩
  rw [isThread, isKernel]
  exact {
    valid := talking.valid
    nothingRead := talking.nothingRead
    notInterrupted := driverIoctl_errno talking.notInterrupted _ _ _
    appending := appended
    known := known
    starts := starts
    fits := by
      intro limit
      rw [List.length_append, List.length_singleton] at limit ⊢
      rw [exactly limit]
      exact ⟨allThere limit, rfl, rfl⟩
    tooMany := by
      intro two
      rw [List.length_append, List.length_singleton] at two ⊢
      rcases Nat.lt_or_ge 1 sent.length with more | one
      · have handedOver := (driverIoctl_starts appended nonempty
          (fun command member => known command (List.mem_of_mem_take member)) starts call.outside
          driver pid).length_le
        rw [List.take_append_of_le_length more, List.length_append, List.length_take] at handedOver
        exact Nat.lt_of_lt_of_le (by have := talking.tooMany more; omega) handedOver
      · rw [exactly (two_commands_fit uapi one)]
        obtain ⟨first, rfl⟩ := List.length_eq_one_iff.mp (show sent.length = 1 by omega)
        simp [resent] }

/-- Every run keeps the invariant. -/
theorem transactAll_talking (talking : Talking uapi sent driver thread bytes)
    {calls : List TransactCall}
    (allocated : ∀ call ∈ calls, call.heaps.writeCmd.Succeeds ∧ call.heaps.writeTr.Succeeds)
    (pid : Int32) (fuel : Nat) :
    ∃ driver' thread' bytes',
      transactAll uapi (.create uapi pid) (fuel + 1) driver thread calls =
        some (driver', thread') ∧
      Talking uapi (sent ++ (accepted calls).map (TransactCall.command uapi)) driver' thread'
        bytes' := by
  induction calls generalizing sent driver thread bytes with
  | nil => exact ⟨driver, thread, bytes, rfl, by simpa [accepted] using talking⟩
  | cons call rest ih =>
      have restAllocated := fun other member => allocated other (List.mem_cons_of_mem call member)
      by_cases errorFree : call.data.mError = noError
      · obtain ⟨cmdAllocated, trAllocated⟩ := allocated call (by simp)
        obtain ⟨response, _, responded, next⟩ :=
          talking.accepted errorFree cmdAllocated trAllocated pid fuel
        obtain ⟨driver', thread', bytes', run, final⟩ := ih next restAllocated
        refine ⟨driver', thread', bytes', by simp [transactAll, responded, run], ?_⟩
        rw [List.append_assoc] at final
        simpa [accepted, errorFree] using final
      · obtain ⟨response, responded, sameDriver, sameThread⟩ := transact_refused errorFree
          (fuel + 1) driver thread (.create uapi pid)
        obtain ⟨driver', thread', bytes', run, final⟩ :=
          ih (talking.refused call.data.mError) restAllocated
        refine ⟨driver', thread', bytes', ?_, by simpa [accepted, errorFree] using final⟩
        rw [transactAll, responded, Option.bind_eq_bind, Option.bind_some, sameDriver, sameThread]
        exact run

/-- For every sequence of calls of `transact` by one thread on a valid descriptor,
without an allocation failure, what `binder_thread_write` hands to
`binder_transaction` is the list of accepted calls if and only if there is at most
one of them.  `errno` is not `EINTR` before. -/
theorem transactions_handed_once_iff (uapi : BinderUapi) (pid : Int32) {fd errno : Int}
    (valid : 0 ≤ fd) (notInterrupted : errno ≠ EINTR) {calls : List TransactCall}
    (allocated : ∀ call ∈ calls, call.heaps.writeCmd.Succeeds ∧ call.heaps.writeTr.Succeeds)
    (fuel : Nat) :
    ∃ driver thread,
      transactAll uapi (.create uapi pid) (fuel + 1) { handed := [], rets := [], errno } (.init fd)
        calls = some (driver, thread) ∧
      (driver.handed = (accepted calls).map (TransactCall.command uapi) ↔
        (accepted calls).length ≤ 1) := by
  obtain ⟨driver, thread, bytes, run, talking⟩ :=
    transactAll_talking (Talking.init valid notInterrupted) allocated pid fuel
  rw [List.nil_append] at talking
  refine ⟨driver, thread, run, ?_⟩
  constructor
  · intro same
    apply Nat.le_of_not_lt
    intro two
    have tooMany := talking.tooMany (by rwa [List.length_map])
    rw [same] at tooMany
    exact Nat.lt_irrefl _ tooMany
  · intro one
    have few : ((accepted calls).map (TransactCall.command uapi)).length ≤ 1 := by
      rwa [List.length_map]
    have fit := two_commands_fit uapi few
    rw [Nat.succ_mul] at fit
    obtain ⟨_, handed, _⟩ := talking.fits (by omega)
    rw [handed, resent_eq few]

end Runs

/-- One call reaches the driver once. -/
theorem transaction_handed_once :
    let heap := Heap.fixed 4096 (by decide) (by decide)
    let call : TransactCall :=
      { handle := 0, code := 1, data := .initState, reply := none, flags := 0
        heaps := ⟨heap, heap, heap, heap⟩, outside := fun _ => none }
    ∃ driver thread,
      transactAll linuxUapi (.create linuxUapi 1) 1 { handed := [], rets := [], errno := 0 }
        (.init 3) [call] = some (driver, thread) ∧
      driver.handed = [call.command linuxUapi] := by
  intro heap call
  have succeeds : heap.Succeeds := Heap.fixed_succeeds _ _
  have valid : (0 : Int) ≤ 3 := by decide
  have allocated : ∀ c ∈ [call], c.heaps.writeCmd.Succeeds ∧ c.heaps.writeTr.Succeeds := by
    simpa [call] using succeeds
  obtain ⟨driver, thread, run, once⟩ :=
    transactions_handed_once_iff linuxUapi 1 valid (by decide : (0 : Int) ≠ EINTR) allocated 0
  exact ⟨driver, thread, run, once.mpr (Nat.le_refl 1)⟩

/-- Two calls, and the driver executes the first one twice although every ioctl
succeeds. -/
theorem transaction_handed_twice :
    let heap := Heap.fixed 4096 (by decide) (by decide)
    let call (code : UInt32) : TransactCall :=
      { handle := 0, code, data := .initState, reply := none, flags := 0
        heaps := ⟨heap, heap, heap, heap⟩, outside := fun _ => none }
    ∃ driver thread,
      transactAll linuxUapi (.create linuxUapi 1) 1 { handed := [], rets := [], errno := 0 }
        (.init 3) [call 1, call 2] = some (driver, thread) ∧
      driver.rets = [0, 0] ∧
      driver.handed =
        [(call 1).command linuxUapi, (call 1).command linuxUapi, (call 2).command linuxUapi] ∧
      driver.handed ≠ [(call 1).command linuxUapi, (call 2).command linuxUapi] := by
  intro heap call
  have succeeds : heap.Succeeds := Heap.fixed_succeeds _ _
  have valid : (0 : Int) ≤ 3 := by decide
  have allocated : ∀ c ∈ [call 1, call 2],
      c.heaps.writeCmd.Succeeds ∧ c.heaps.writeTr.Succeeds := by
    simpa [call] using succeeds
  have start : Talking linuxUapi [] { handed := [], rets := [], errno := 0 } (.init 3) [] :=
    .init valid (by decide)
  obtain ⟨driver, thread, bytes, run, talking⟩ := transactAll_talking start allocated 1 0
  obtain ⟨_, handed, rets⟩ := talking.fits (by decide)
  refine ⟨driver, thread, run, rets, handed, ?_⟩
  rw [handed]
  intro same
  exact absurd (congrArg List.length same) (by decide)

end DroidKernal.Binder
