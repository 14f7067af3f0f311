import DroidKernal.Binder.Parcel
import DroidKernal.Binder.ThreadWrite

/-!
# IPCThreadState

The client side of the protocol, as `IPCThreadState.cpp` computes it.  The
driver is a parameter, `ioctl`: it sees the memory of the calling process and
the `binder_write_read` record, and leaves a return value, `errno` and the record
it has filled in.

`mPostWriteWeakDerefs` and `mPostWriteStrongDerefs` are left out: nothing puts a
reference into them, so `processPostWriteDerefs` has nothing to do.
-/

namespace DroidKernal.Binder

open Lib

/-- `class IPCThreadState`, with the descriptor of its process. -/
structure IPCThreadState where
  mIn : Parcel
  mOut : Parcel
  mLastError : Int
  mDriverFD : Int

/-- The constructor. -/
def IPCThreadState.init (mDriverFD : Int) : IPCThreadState where
  mIn := .initState
  mOut := .initState
  mLastError := noError
  mDriverFD

/-- What one ioctl does, as its caller sees it. -/
structure IoctlResult where
  ret : Int
  errno : Int
  bwr : BinderWriteRead

/-- The memory of a process: the block of one Parcel, and `outside` elsewhere. -/
def Parcel.memory (parcel : Parcel) (outside : Nat → Option UInt8) : UserMemory where
  byte addr :=
    if taskSize ≤ addr then none
    else
      match parcel.mData with
      | none => outside addr
      | some data =>
          if data.addr ≤ addr ∧ addr < data.addr + parcel.mDataCapacity then
            some (data.cells (addr - data.addr))
          else outside addr
  unmapped _ beyond := if_pos beyond

/-- The outcomes of the allocations that one call can make. -/
structure CallHeaps where
  writeCmd : Heap
  writeTr : Heap
  clearOut : Heap
  fillIn : Heap

/-- What `writeTransactionData` returns and leaves behind; `status` is the value
stored through `statusBuffer`. -/
structure WriteTransaction where
  err : Int
  thread : IPCThreadState
  status : Option Int

section Write

variable (uapi : BinderUapi) (heaps : CallHeaps)

/-- The record that `writeTransactionData` fills in for a Parcel without
errors. -/
def transactionData (binderFlags : UInt32) (handle : Int32) (code : UInt32) (data : Parcel) :
    BinderTransactionData where
  target := handle.toUInt32.toUInt64
  cookie := 0
  code := code
  flags := binderFlags
  senderPid := 0
  senderEuid := 0
  dataSize := UInt64.ofNat data.dataSize
  offsetsSize := UInt64.ofNat (data.mObjectsSize * 8)
  buffer := UInt64.ofNat data.ipcData
  offsets := UInt64.ofNat data.ipcObjects

/-- The part of `writeTransactionData` that appends to `mOut`.  It ignores what
the two writes return. -/
def appendTransaction (thread : IPCThreadState) (cmd : Int32) (tr : BinderTransactionData) :
    Option IPCThreadState := do
  let word ← thread.mOut.writeInt32 heaps.writeCmd cmd
  let record ← word.parcel.write heaps.writeTr (uapi.transactionData.encode tr)
  return { thread with mOut := record.parcel }

/-- `writeTransactionData`.  `statusBuffer` is a pointer to a `status_t`. -/
def writeTransactionData (thread : IPCThreadState) (cmd : Int32) (binderFlags : UInt32)
    (handle : Int32) (code : UInt32) (data : Parcel) (statusBuffer : Option Nat) :
    Option WriteTransaction := do
  let tr := transactionData binderFlags handle code data
  let err := data.mError
  if err = noError then
    let thread ← appendTransaction uapi heaps thread cmd tr
    return { err := noError, thread, status := none }
  else
    match statusBuffer with
    | some buffer =>
        let tr : BinderTransactionData :=
          { tr with
            flags := binderFlags ||| uapi.tfStatusCode
            dataSize := 4
            buffer := UInt64.ofNat buffer
            offsetsSize := 0
            offsets := 0 }
        let thread ← appendTransaction uapi heaps thread cmd tr
        return { err := noError, thread, status := some err }
    | none => return { err, thread := { thread with mLastError := err }, status := none }

end Write

section Talk

variable {K : Type} (ioctl : K → UserMemory → BinderWriteRead → IoctlResult × K)

/-- The `do` loop of `talkWithDriver`.  There is no result if the fuel does not
last until the call ends without `EINTR`. -/
def ioctlLoop (memory : UserMemory) : Nat → K → BinderWriteRead →
    Option (Int × BinderWriteRead × K)
  | 0, _, _ => none
  | fuel + 1, kernel, bwr =>
      let (result, kernel) := ioctl kernel memory bwr
      -- the source tests the return value for being nonzero
      let err := if result.ret ≠ 0 then noError else -result.errno
      if err = -EINTR then ioctlLoop memory fuel kernel result.bwr
      else some (err, result.bwr, kernel)

/-- `talkWithDriver`. -/
def talkWithDriver (heaps : CallHeaps) (outside : Nat → Option UInt8) (fuel : Nat)
    (kernel : K) (thread : IPCThreadState) (doReceive : Bool) :
    Option (Int × IPCThreadState × K) :=
  if thread.mDriverFD < 0 then some (-EBADF, thread, kernel)
  else do
    let needRead := decide (thread.mIn.mDataPos ≥ thread.mIn.dataSize)
    let outAvail := if !doReceive || needRead then thread.mOut.dataSize else 0
    let receive := doReceive && needRead
    let bwr : BinderWriteRead :=
      { writeSize := outAvail
        writeConsumed := 0
        writeBuffer := thread.mOut.ipcData
        readSize := if receive then thread.mIn.mDataCapacity else 0
        readConsumed := 0
        readBuffer := if receive then thread.mIn.ipcData else 0 }
    if bwr.writeSize = 0 ∧ bwr.readSize = 0 then return (noError, thread, kernel)
    else
      let (err, bwr, kernel) ← ioctlLoop ioctl (thread.mOut.memory outside) fuel kernel bwr
      if err ≥ noError then
        let mOut ←
          if bwr.writeConsumed > 0 ∧ ¬ bwr.writeConsumed < thread.mOut.dataSize then
            (thread.mOut.setDataSize heaps.clearOut 0).map Outcome.parcel
          else some thread.mOut
        let mIn ←
          if bwr.readConsumed > 0 then
            (thread.mIn.setDataSize heaps.fillIn bwr.readConsumed).map fun outcome =>
              outcome.parcel.setDataPosition 0
          else some thread.mIn
        return (noError, { thread with mOut, mIn }, kernel)
      else return (-EBADF, thread, kernel)

/-- What `waitForResponse` and `transact` return and leave behind. -/
structure Response (K : Type) where
  err : Int
  thread : IPCThreadState
  reply : Option Parcel
  kernel : K

/-- `waitForResponse`. -/
def waitForResponse (heaps : CallHeaps) (outside : Nat → Option UInt8) (fuel : Nat)
    (kernel : K) (thread : IPCThreadState) (reply : Option Parcel) : Option (Response K) := do
  let (talked, thread, kernel) ←
    talkWithDriver ioctl heaps outside fuel kernel thread true
  let err := if talked < noError then talked else thread.mIn.mError
  if err ≠ noError then
    return { err, thread := { thread with mLastError := err },
             reply := reply.map (·.setError err), kernel }
  else return { err, thread, reply, kernel }

/-- `transact`. -/
def transact (uapi : BinderUapi) (heaps : CallHeaps) (outside : Nat → Option UInt8)
    (fuel : Nat) (kernel : K) (thread : IPCThreadState) (handle : Int32) (code : UInt32)
    (data : Parcel) (reply : Option Parcel) (flags : UInt32) : Option (Response K) := do
  let flags := flags ||| uapi.tfAcceptFds
  let written ← writeTransactionData uapi heaps thread uapi.bcTransaction.toInt32 flags handle
    code data none
  if written.err ≠ noError then
    return { err := written.err, thread := { written.thread with mLastError := written.err },
             reply := reply.map (·.setError written.err), kernel }
  else if flags &&& uapi.tfOneWay = 0 then
    match reply with
    | some reply =>
        waitForResponse ioctl heaps outside fuel kernel written.thread (some reply)
    | none => do
        let response ← waitForResponse ioctl heaps outside fuel kernel written.thread
          (some .initState)
        return { response with reply := none }
  else waitForResponse ioctl heaps outside fuel kernel written.thread none

end Talk

end DroidKernal.Binder
