import DroidKernal.Binder.Append
import DroidKernal.Binder.IPCThreadState

/-!
# The driver decodes what the client encodes

`mOut` holds the bytes of the commands written to it, so the command loop of the
driver, run on its memory, executes the same commands.
-/

namespace DroidKernal.Binder

open Lib

section Encode

variable {uapi : BinderUapi} {thread : IPCThreadState} {bytes : List UInt8} {heaps : CallHeaps}

theorem padding_of_dvd {len : Nat} (small : len ≤ int32Max) (aligned : 4 ∣ len) :
    padding len = [] := by
  rw [padding, padSize_of_dvd small aligned, Nat.sub_self, List.replicate_zero]

theorem transactionData_small (uapi : BinderUapi) :
    uapi.transactionData.size ≤ int32Max - 3 := by
  have := uapi.small
  simp only [int32Max]
  omega

/-- The two writes append one command, or something shorter where the buffer
would have to grow beyond its limit. -/
theorem appendTransaction_cases (uapi : BinderUapi) (appending : thread.mOut.Appending bytes)
    (cmdAllocated : heaps.writeCmd.Succeeds) (trAllocated : heaps.writeTr.Succeeds) (cmd : Int32)
    (tr : BinderTransactionData) :
    ∃ mOut added, appendTransaction uapi heaps thread cmd tr = some { thread with mOut } ∧
      mOut.Appending (bytes ++ added) ∧
      (added = Command.bytes uapi { cmd := cmd.toUInt32, tr } ∨
        int32Max < (bytes.length + Command.size uapi) * 3 / 2) := by
  have recordLength := uapi.transactionData.encode_length tr
  have positive := uapi.nonempty
  have small := transactionData_small uapi
  have notNil : uapi.transactionData.encode tr ≠ [] := List.ne_nil_of_length_pos (by omega)
  have padded : padSize (uapi.transactionData.encode tr).length = uapi.transactionData.size := by
    rw [recordLength, padSize_of_dvd (by omega) uapi.aligned]
  have noPadding : padding (uapi.transactionData.encode tr).length = [] := by
    rw [recordLength, padding_of_dvd (by omega) uapi.aligned]
  obtain ⟨_, word, wrote, wordCases⟩ := appending.writeInt32_cases cmdAllocated cmd
  have wordLength : (FlatRecord.int32.encode cmd).length = 4 :=
    FlatRecord.int32.encode_length cmd
  have total : Command.size uapi = 4 + uapi.transactionData.size := rfl
  rcases wordCases with ⟨_, wordAppended⟩ | ⟨⟨_, beyond⟩, rfl⟩
  · obtain ⟨_, record, copied, recordCases⟩ := wordAppended.write_cases trAllocated notNil
      (by omega)
    rw [noPadding, List.append_nil, padded, List.length_append, wordLength] at recordCases
    rcases recordCases with ⟨_, appended⟩ | ⟨⟨_, beyond⟩, rfl⟩
    · refine ⟨record, FlatRecord.int32.encode cmd ++ uapi.transactionData.encode tr,
        by simp [appendTransaction, wrote, copied], ?_, .inl rfl⟩
      rwa [← List.append_assoc]
    · exact ⟨record, _, by simp [appendTransaction, wrote, copied], wordAppended,
        .inr (by omega)⟩
  · obtain ⟨_, record, copied, recordCases⟩ := appending.write_cases trAllocated notNil
      (by omega)
    rw [noPadding, List.append_nil] at recordCases
    rcases recordCases with ⟨_, appended⟩ | ⟨_, rfl⟩
    · exact ⟨record, _, by simp [appendTransaction, wrote, copied], appended,
        .inr (by omega)⟩
    · exact ⟨thread.mOut, [], by simp [appendTransaction, wrote, copied], by simpa using appending,
        .inr (by omega)⟩

/-- Within the limit the two writes append exactly one command. -/
theorem appendTransaction_appends (appending : thread.mOut.Appending bytes)
    (cmdAllocated : heaps.writeCmd.Succeeds) (trAllocated : heaps.writeTr.Succeeds) (cmd : Int32)
    (tr : BinderTransactionData)
    (limit : (bytes.length + Command.size uapi) * 3 / 2 ≤ int32Max) :
    ∃ mOut, appendTransaction uapi heaps thread cmd tr = some { thread with mOut } ∧
      mOut.Appending (bytes ++ Command.bytes uapi { cmd := cmd.toUInt32, tr }) := by
  obtain ⟨mOut, added, wrote, appended, whole | beyond⟩ :=
    appendTransaction_cases uapi appending cmdAllocated trAllocated cmd tr
  · exact ⟨mOut, wrote, whole ▸ appended⟩
  · omega

theorem Parcel.Appending.inSpace {parcel : Parcel} (appending : parcel.Appending bytes) :
    parcel.ipcData + parcel.dataSize < 2 ^ 64 := by
  have room := appending.room
  rw [appending.dataSize_eq]
  cases isData : parcel.mData with
  | none =>
      have capacity := appending.empty isData
      simp only [Parcel.ipcData, isData, Option.map_none, Option.getD_none]
      omega
  | some data =>
      obtain ⟨_, inside, _⟩ := appending.block data isData
      simp only [Parcel.ipcData, isData, Option.map_some, Option.getD_some, taskSize] at inside ⊢
      omega

/-- The memory of a Parcel holds what was written to it. -/
theorem Parcel.Appending.memory {parcel : Parcel} (appending : parcel.Appending bytes)
    (outside : Nat → Option UInt8) : (parcel.memory outside).Holds parcel.ipcData bytes := by
  intro i bound
  cases isData : parcel.mData with
  | none =>
      have noRoom := appending.empty isData
      have room := appending.room
      omega
  | some data =>
      obtain ⟨_, inside, held⟩ := appending.block data isData
      have room := appending.room
      simp only [Parcel.memory, isData, Parcel.ipcData, Option.map_some, Option.getD_some]
      rw [if_neg (by omega), if_pos (by omega), Nat.add_sub_cancel_left]
      exact congrArg some (Parcel.cells_eq_of_read held bound)

end Encode

/-- The arguments of one call of `writeTransactionData`, and the outcomes of the
allocations it makes. -/
structure TransactionRequest where
  cmd : Int32
  binderFlags : UInt32
  handle : Int32
  code : UInt32
  data : Parcel
  heaps : CallHeaps

/-- The command that a request stands for. -/
def TransactionRequest.command (request : TransactionRequest) : Command where
  cmd := request.cmd.toUInt32
  tr := transactionData request.binderFlags request.handle request.code request.data

/-- Calls of `writeTransactionData` one after the other. -/
def writeRequests (uapi : BinderUapi) :
    IPCThreadState → List TransactionRequest → Option IPCThreadState
  | thread, [] => some thread
  | thread, request :: rest => do
      let written ← writeTransactionData uapi request.heaps thread request.cmd
        request.binderFlags request.handle request.code request.data none
      writeRequests uapi written.thread rest

section Requests

variable {uapi : BinderUapi}

/-- What a request needs in order to be written. -/
structure TransactionRequest.Writable (request : TransactionRequest) : Prop where
  errorFree : request.data.mError = noError
  cmdAllocated : request.heaps.writeCmd.Succeeds
  trAllocated : request.heaps.writeTr.Succeeds

/-- Requests are appended in order. -/
theorem writeRequests_appends {thread : IPCThreadState} {bytes : List UInt8}
    (appending : thread.mOut.Appending bytes) {requests : List TransactionRequest}
    (writable : ∀ request ∈ requests, request.Writable)
    (limit : (bytes.length + requests.length * Command.size uapi) * 3 / 2 ≤ int32Max) :
    ∃ written, writeRequests uapi thread requests = some written ∧
      written.mOut.Appending
        (bytes ++ (requests.map TransactionRequest.command).flatMap (Command.bytes uapi)) := by
  induction requests generalizing thread bytes with
  | nil => exact ⟨thread, rfl, by simpa using appending⟩
  | cons request rest ih =>
      rw [List.length_cons, Nat.succ_mul] at limit
      obtain ⟨errorFree, cmdAllocated, trAllocated⟩ := writable request (by simp)
      obtain ⟨mOut, appended, next⟩ := appendTransaction_appends appending cmdAllocated
        trAllocated request.cmd
        (transactionData request.binderFlags request.handle request.code request.data)
        (show (bytes.length + Command.size uapi) * 3 / 2 ≤ int32Max by omega)
      have restLimit : ((bytes ++ Command.bytes uapi request.command).length +
          rest.length * Command.size uapi) * 3 / 2 ≤ int32Max := by
        rw [List.length_append, Command.bytes_length]
        omega
      have afterFirst : ({ thread with mOut } : IPCThreadState).mOut.Appending
          (bytes ++ Command.bytes uapi request.command) := next
      obtain ⟨written, wrote, final⟩ := ih afterFirst
        (fun other member => writable other (by simp [member])) restLimit
      refine ⟨written, ?_, ?_⟩
      · simp [writeRequests, writeTransactionData, errorFree, appended, wrote]
      · rw [List.map_cons, List.flatMap_cons, ← List.append_assoc]
        exact final

end Requests

/-- For every list of error-free requests with known commands, written to an
empty `mOut` without an allocation failure and within the size limit of a Parcel,
one run of `binder_thread_write` over the bytes of `mOut` hands exactly these
commands to `binder_transaction`, in order, whatever that does, and reads every
byte once. -/
theorem driver_decodes_requests (uapi : BinderUapi) {thread : IPCThreadState}
    (empty : thread.mOut.Appending []) {requests : List TransactionRequest}
    (known : ∀ request ∈ requests, request.command.Known uapi)
    (writable : ∀ request ∈ requests, request.Writable)
    (limit : requests.length * Command.size uapi * 3 / 2 ≤ int32Max)
    (outside : Nat → Option UInt8) (pid : Int32) :
    ∃ written, writeRequests uapi thread requests = some written ∧
      let commands := requests.map TransactionRequest.command
      let memory := written.mOut.memory outside
      let addr := written.mOut.ipcData
      let size := written.mOut.dataSize
      let recorded := binderThreadWrite uapi (recordTransaction uapi) memory (.create uapi pid)
        [] addr size 0
      recorded.ret = 0 ∧ recorded.state = commands ∧
      recorded.reads.flatMap (fun range => List.range' range.1 range.2) =
        List.range' addr size ∧
      ∀ (D : Type) (binderTransaction : D → BinderTransactionData → Bool → KernelResult D)
        (state : D),
        let run := binderThreadWrite uapi binderTransaction memory (.create uapi pid) state
          addr size 0
        run.state = (execute uapi binderTransaction state commands).state ∧
          run.fault = (execute uapi binderTransaction state commands).fault := by
  obtain ⟨written, wrote, appending⟩ := writeRequests_appends empty writable (by simpa using limit)
  refine ⟨written, wrote, ?_⟩
  intro commands memory addr size recorded
  rw [List.nil_append] at appending
  have held := appending.memory outside
  have knownCommands : ∀ command ∈ commands, command.Known uapi := by
    intro command member
    obtain ⟨request, inRequests, rfl⟩ := List.mem_map.mp member
    exact known request inRequests
  have total : size = commands.length * Command.size uapi := by
    have length : size = (commands.flatMap (Command.bytes uapi)).length :=
      appending.dataSize_eq
    rw [length, Command.flatMap_bytes_length]
  have inSpace : addr + size < 2 ^ 64 := appending.inSpace
  have loop : ∀ {D : Type} (binderTransaction : D → BinderTransactionData → Bool → KernelResult D)
      (state : D),
      let run := binderThreadWrite uapi binderTransaction memory (.create uapi pid) state
        addr size 0
      let expected := execute uapi binderTransaction state commands
      run.ret = 0 ∧ run.state = expected.state ∧ run.fault = expected.fault ∧
        (expected.fault = none → run.reads = Command.reads uapi addr commands) := by
    intro D binderTransaction state
    simp only [binderThreadWrite, Nat.add_zero]
    rw [Nat.mod_eq_of_lt (show addr < 2 ^ 64 by omega), Nat.mod_eq_of_lt inSpace]
    exact threadWriteLoop_commands binderTransaction rfl knownCommands held (by omega)
      (Nat.le_refl _) state
  obtain ⟨ret, handed, _, reads⟩ := loop (recordTransaction uapi) []
  rw [execute_record uapi [] knownCommands, List.nil_append] at handed reads
  refine ⟨ret, handed, ?_, ?_⟩
  · rw [reads rfl, Command.reads_cover, ← total]
  · intro D binderTransaction state
    obtain ⟨_, sameState, sameFault, _⟩ := loop binderTransaction state
    exact ⟨sameState, sameFault⟩

/-- A transaction to handle 0 and a reply, each with an empty Parcel. -/
theorem driver_decodes_two :
    let heap := Heap.fixed 4096 (by decide) (by decide)
    let request (cmd : Int32) : TransactionRequest :=
      { cmd, binderFlags := 0x10, handle := 0, code := 1, data := .initState
        heaps := ⟨heap, heap, heap, heap⟩ }
    ∃ written,
      writeRequests linuxUapi (.init 3) [request 0x40406300, request 0x40406301] =
        some written ∧
      (binderThreadWrite linuxUapi (recordTransaction linuxUapi)
          (written.mOut.memory fun _ => none) (.create linuxUapi 1) [] written.mOut.ipcData
          written.mOut.dataSize 0).state =
        [(request 0x40406300).command, (request 0x40406301).command] := by
  intro heap request
  have succeeds : heap.Succeeds := Heap.fixed_succeeds _ _
  have empty : (IPCThreadState.init 3).mOut.Appending [] := Parcel.appending_initState
  have known : ∀ r ∈ [request 0x40406300, request 0x40406301], r.command.Known linuxUapi := by
    intro r member
    simp only [List.mem_cons, List.not_mem_nil, or_false] at member
    rcases member with rfl | rfl
    · exact .inl rfl
    · exact .inr rfl
  have writable : ∀ r ∈ [request 0x40406300, request 0x40406301], r.Writable := by
    intro r member
    simp only [List.mem_cons, List.not_mem_nil, or_false] at member
    rcases member with rfl | rfl
    · exact ⟨rfl, succeeds, succeeds⟩
    · exact ⟨rfl, succeeds, succeeds⟩
  obtain ⟨written, wrote, _, handed, _⟩ := driver_decodes_requests linuxUapi empty known writable
    (by decide) (fun _ => none) 1
  exact ⟨written, wrote, handed⟩

end DroidKernal.Binder
