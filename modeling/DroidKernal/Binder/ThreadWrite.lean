import DroidKernal.Binder.Uapi

/-!
# The driver's command loop

`binder_thread_write` and the ioctl around it.  What a transaction does to the
driver is a parameter, so that the loop can be read by itself; a transaction may
end in a fault of the kernel, and nothing runs after it.  The counters of
`binder_stats` are left out.
-/

namespace DroidKernal.Binder

open Lib

/-- The fields of `struct binder_thread` that the command loop reads. -/
structure BinderThread where
  pid : Int32
  returnErrorCmd : UInt32
  deriving DecidableEq, Repr

/-- The thread that `binder_get_thread_ilocked` adds.  Nothing sets its
`return_error` afterwards. -/
def BinderThread.create (uapi : BinderUapi) (pid : Int32) : BinderThread where
  pid
  returnErrorCmd := uapi.brOk

/-- What ends a kernel function early: a null pointer that `binder_transaction`
dereferences, or a `BUG_ON`. -/
inductive KernelFault where
  | nullTargetNode
  | nullTargetProc
  | nullTransaction
  | bug
  deriving DecidableEq, Repr

/-- The driver state a kernel function leaves, and the fault it ended in. -/
structure KernelResult (D : Type) where
  state : D
  fault : Option KernelFault

/-- What a run of `binder_thread_write` returns, leaves behind, and reads from
user memory on the way. -/
structure ThreadWrite (D : Type) where
  ret : Int
  state : D
  fault : Option KernelFault
  reads : List (Nat × Nat)

/-- A run that starts by reading `len` bytes at `addr`. -/
def ThreadWrite.after {D : Type} (run : ThreadWrite D) (addr len : Nat) : ThreadWrite D :=
  { run with reads := (addr, len) :: run.reads }

section Loop

variable {D : Type} (uapi : BinderUapi)
  (binderTransaction : D → BinderTransactionData → Bool → KernelResult D)
  (memory : UserMemory) (thread : BinderThread)

/-- The `while` loop.  The fuel bounds the number of iterations; each one moves
`ptr` forward, so `finish - ptr` is enough. -/
def threadWriteLoop (finish : Nat) : Nat → Nat → D → ThreadWrite D
  | 0, _, state => { ret := 0, state, fault := none, reads := [] }
  | fuel + 1, ptr, state =>
      if ptr < finish ∧ thread.returnErrorCmd = uapi.brOk then
        match memory.getUser ptr with
        | none => { ret := -EFAULT, state, fault := none, reads := [] }
        | some cmd =>
            let body := ptr + FlatRecord.uint32.size
            let run :=
              if cmd = uapi.bcTransaction ∨ cmd = uapi.bcReply then
                match memory.copyFromUser body uapi.transactionData.size with
                | none => { ret := -EFAULT, state, fault := none, reads := [] }
                | some bytes =>
                    let tr := uapi.transactionData.decode bytes
                    let result := binderTransaction state tr (cmd == uapi.bcReply)
                    let run :=
                      if result.fault.isSome then
                        { ret := 0, state := result.state, fault := result.fault, reads := [] }
                      else
                        threadWriteLoop finish fuel (body + uapi.transactionData.size)
                          result.state
                    run.after body uapi.transactionData.size
              else threadWriteLoop finish fuel body state
            run.after ptr FlatRecord.uint32.size
      else { ret := 0, state, fault := none, reads := [] }

/-- `binder_thread_write`.  It never stores to `*consumed`. -/
def binderThreadWrite (state : D) (binderBuffer size consumed : Nat) : ThreadWrite D :=
  let ptr := (binderBuffer + consumed) % 2 ^ 64
  let finish := (binderBuffer + size) % 2 ^ 64
  threadWriteLoop uapi binderTransaction memory thread finish (finish - ptr) ptr state

/-- `binder_ioctl_write_read`, with the record it copies back to the caller.  The
two copies of the record itself succeed. -/
def binderIoctlWriteRead (state : D) (bwr : BinderWriteRead) :
    ThreadWrite D × BinderWriteRead :=
  if 0 < bwr.writeSize then
    let run := binderThreadWrite uapi binderTransaction memory thread state bwr.writeBuffer
      bwr.writeSize bwr.writeConsumed
    if run.ret < 0 then (run, { bwr with readConsumed := 0 }) else (run, bwr)
  else ({ ret := 0, state, fault := none, reads := [] }, bwr)

end Loop

/-- What every command preserves, the loop over a buffer preserves. -/
theorem threadWriteLoop_preserves {D : Type} {uapi : BinderUapi}
    {binderTransaction : D → BinderTransactionData → Bool → KernelResult D}
    (invariant : D → Prop)
    (preserved : ∀ state, invariant state → ∀ tr reply,
      invariant (binderTransaction state tr reply).state)
    (memory : UserMemory) (thread : BinderThread) (finish fuel ptr : Nat) {state : D}
    (initially : invariant state) :
    invariant (threadWriteLoop uapi binderTransaction memory thread finish fuel ptr state).state := by
  induction fuel generalizing ptr state with
  | zero => exact initially
  | succ fuel ih =>
      rw [threadWriteLoop]
      split
      next =>
        cases memory.getUser ptr with
        | none => exact initially
        | some cmd =>
            simp only [ThreadWrite.after]
            split
            next =>
              cases memory.copyFromUser (ptr + FlatRecord.uint32.size)
                  uapi.transactionData.size with
              | none => exact initially
              | some bytes =>
                  simp only
                  split
                  next => exact preserved state initially _ _
                  next => exact ih _ (preserved state initially _ _)
            next => exact ih _ initially
      next => exact initially

theorem binderIoctlWriteRead_preserves {D : Type} {uapi : BinderUapi}
    {binderTransaction : D → BinderTransactionData → Bool → KernelResult D}
    (invariant : D → Prop)
    (preserved : ∀ state, invariant state → ∀ tr reply,
      invariant (binderTransaction state tr reply).state)
    (memory : UserMemory) (thread : BinderThread) (bwr : BinderWriteRead) {state : D}
    (initially : invariant state) :
    invariant (binderIoctlWriteRead uapi binderTransaction memory thread state bwr).1.state := by
  simp only [binderIoctlWriteRead]
  split
  next =>
    have written : invariant (binderThreadWrite uapi binderTransaction memory thread state
        bwr.writeBuffer bwr.writeSize bwr.writeConsumed).state :=
      threadWriteLoop_preserves invariant preserved _ _ _ _ _ initially
    split
    · exact written
    · exact written
  next => exact initially

/-! ## Well-formed buffers -/

/-- A command word with its record. -/
structure Command where
  cmd : UInt32
  tr : BinderTransactionData
  deriving DecidableEq, Repr

namespace Command

variable (uapi : BinderUapi)

/-- A command that the driver executes. -/
def Known (command : Command) : Prop :=
  command.cmd = uapi.bcTransaction ∨ command.cmd = uapi.bcReply

/-- The bytes of a command in a write buffer. -/
def bytes (command : Command) : List UInt8 :=
  FlatRecord.uint32.encode command.cmd ++ uapi.transactionData.encode command.tr

/-- The length of a command in a write buffer. -/
def size : Nat := FlatRecord.uint32.size + uapi.transactionData.size

@[simp] theorem bytes_length (command : Command) : (command.bytes uapi).length = size uapi := by
  simp [bytes, size]

theorem flatMap_bytes_length (commands : List Command) :
    (commands.flatMap (bytes uapi)).length = commands.length * size uapi := by
  simp [List.length_flatMap]

/-- The reads that fetch consecutive commands. -/
def reads (addr : Nat) : List Command → List (Nat × Nat)
  | [] => []
  | _ :: rest =>
      (addr, FlatRecord.uint32.size) ::
        (addr + FlatRecord.uint32.size, uapi.transactionData.size) ::
          reads (addr + size uapi) rest

end Command

/-- Execute commands in order, up to the first fault. -/
def execute {D : Type} (uapi : BinderUapi)
    (binderTransaction : D → BinderTransactionData → Bool → KernelResult D) :
    D → List Command → KernelResult D
  | state, [] => { state, fault := none }
  | state, command :: rest =>
      let result := binderTransaction state command.tr (command.cmd == uapi.bcReply)
      if result.fault.isSome then result
      else execute uapi binderTransaction result.state rest

/-- The transaction that only records what it was called with. -/
def recordTransaction (uapi : BinderUapi) (handed : List Command) (tr : BinderTransactionData)
    (reply : Bool) : KernelResult (List Command) where
  state := handed ++ [{ cmd := if reply then uapi.bcReply else uapi.bcTransaction, tr }]
  fault := none

theorem recordTransaction_known {uapi : BinderUapi} {command : Command}
    (known : command.Known uapi) (handed : List Command) :
    recordTransaction uapi handed command.tr (command.cmd == uapi.bcReply) =
      { state := handed ++ [command], fault := none } := by
  have sameCmd : (if command.cmd == uapi.bcReply then uapi.bcReply else uapi.bcTransaction) =
      command.cmd := by
    rcases known with isTransaction | isReply
    · rw [isTransaction, if_neg (by simpa using uapi.distinct)]
    · rw [isReply, if_pos (by simp)]
  rw [recordTransaction, sameCmd]

theorem execute_record (uapi : BinderUapi) (handed : List Command) {commands : List Command}
    (known : ∀ command ∈ commands, command.Known uapi) :
    execute uapi (recordTransaction uapi) handed commands =
      { state := handed ++ commands, fault := none } := by
  induction commands generalizing handed with
  | nil => simp [execute]
  | cons command rest ih =>
      have rest' := ih (handed ++ [command]) fun other member => known other (by simp [member])
      simp only [execute, recordTransaction_known (known command (by simp)), Option.isSome_none,
        Bool.false_eq_true, if_false, rest', List.append_assoc, List.singleton_append]

/-- The reads of consecutive commands cover their buffer. -/
theorem Command.reads_cover (uapi : BinderUapi) (addr : Nat) (commands : List Command) :
    (Command.reads uapi addr commands).flatMap (fun range => List.range' range.1 range.2) =
      List.range' addr (commands.length * Command.size uapi) := by
  induction commands generalizing addr with
  | nil => simp [Command.reads]
  | cons command rest ih =>
      have first := List.range'_append_1 (s := addr) (m := FlatRecord.uint32.size)
        (n := uapi.transactionData.size)
      have total : (command :: rest).length * Command.size uapi =
          Command.size uapi + rest.length * Command.size uapi := by
        rw [List.length_cons, Nat.succ_mul, Nat.add_comm]
      rw [Command.reads, List.flatMap_cons, List.flatMap_cons, ih, total,
        ← List.append_assoc, first, ← Command.size]
      exact List.range'_append_1

section Decode

variable {D : Type} {uapi : BinderUapi}
  (binderTransaction : D → BinderTransactionData → Bool → KernelResult D)
  {memory : UserMemory} {thread : BinderThread}

theorem getUser_command {addr : Nat} {command : Command} {rest : List UInt8}
    (held : memory.Holds addr (command.bytes uapi ++ rest)) :
    memory.getUser addr = some command.cmd := by
  have word := (UserMemory.holds_append.mp (UserMemory.holds_append.mp held).1).1
  have copied := word.copyFromUser
  rw [FlatRecord.encode_length] at copied
  rw [UserMemory.getUser, copied, Option.map_some, FlatRecord.decode_encode]

theorem copyFromUser_command {addr : Nat} {command : Command} {rest : List UInt8}
    (held : memory.Holds addr (command.bytes uapi ++ rest)) :
    memory.copyFromUser (addr + FlatRecord.uint32.size) uapi.transactionData.size =
      some (uapi.transactionData.encode command.tr) := by
  have record := (UserMemory.holds_append.mp (UserMemory.holds_append.mp held).1).2
  rw [FlatRecord.encode_length] at record
  have copied := record.copyFromUser
  rwa [FlatRecord.encode_length] at copied

/-- One iteration at a known command: it is fetched and executed. -/
theorem threadWriteLoop_command (ready : thread.returnErrorCmd = uapi.brOk) {finish fuel addr : Nat}
    {command : Command} {rest : List UInt8} (known : command.Known uapi)
    (held : memory.Holds addr (command.bytes uapi ++ rest)) (inside : addr < finish) (state : D) :
    let result := binderTransaction state command.tr (command.cmd == uapi.bcReply)
    threadWriteLoop uapi binderTransaction memory thread finish (fuel + 1) addr state =
      ((if result.fault.isSome then
          { ret := 0, state := result.state, fault := result.fault, reads := [] }
        else
          threadWriteLoop uapi binderTransaction memory thread finish fuel
            (addr + Command.size uapi) result.state).after
          (addr + FlatRecord.uint32.size) uapi.transactionData.size).after
        addr FlatRecord.uint32.size := by
  intro result
  rw [threadWriteLoop, if_pos ⟨inside, ready⟩]
  simp only [getUser_command held, copyFromUser_command held, FlatRecord.decode_encode]
  have executed : command.cmd = uapi.bcTransaction ∨ command.cmd = uapi.bcReply := known
  rw [if_pos executed, Nat.add_assoc]
  rfl

/-- The loop over a buffer of known commands executes exactly these, and reads
each of them once. -/
theorem threadWriteLoop_commands (ready : thread.returnErrorCmd = uapi.brOk)
    {commands : List Command} (known : ∀ command ∈ commands, command.Known uapi)
    {finish fuel addr : Nat}
    (held : memory.Holds addr (commands.flatMap (Command.bytes uapi)))
    (ends : addr + commands.length * Command.size uapi = finish)
    (enough : finish - addr ≤ fuel) (state : D) :
    let run := threadWriteLoop uapi binderTransaction memory thread finish fuel addr state
    let expected := execute uapi binderTransaction state commands
    run.ret = 0 ∧ run.state = expected.state ∧ run.fault = expected.fault ∧
      (expected.fault = none → run.reads = Command.reads uapi addr commands) := by
  intro run expected
  induction commands generalizing addr fuel state with
  | nil =>
      have atEnd : addr = finish := by simpa using ends
      have exits : run = { ret := 0, state, fault := none, reads := [] } := by
        cases fuel with
        | zero => rfl
        | succ fuel => exact if_neg (by omega)
      rw [exits]
      exact ⟨rfl, rfl, rfl, fun _ => rfl⟩
  | cons command rest ih =>
      have positive : 0 < Command.size uapi := by
        have := uapi.nonempty
        rw [Command.size]
        omega
      rw [List.length_cons, Nat.succ_mul] at ends
      rw [List.flatMap_cons] at held
      cases fuel with
      | zero => omega
      | succ fuel =>
          have inside : addr < finish := by omega
          have iteration : run = _ :=
            threadWriteLoop_command binderTransaction ready (known command (by simp)) held inside
              state
          have held' := (UserMemory.holds_append.mp held).2
          rw [Command.bytes_length] at held'
          rw [iteration]
          cases faulted : (binderTransaction state command.tr
              (command.cmd == uapi.bcReply)).fault with
          | some fault => simp [expected, execute, faulted, ThreadWrite.after]
          | none =>
              have roomy : finish - (addr + Command.size uapi) ≤ fuel := by omega
              obtain ⟨ret, sameState, sameFault, reads⟩ :=
                ih (fun other member => known other (by simp [member])) held' (by omega) roomy
                  (binderTransaction state command.tr (command.cmd == uapi.bcReply)).state
              simp only [expected, execute, faulted, Option.isSome_none, Bool.false_eq_true,
                if_false, ThreadWrite.after]
              refine ⟨ret, sameState, sameFault, ?_⟩
              intro completes
              rw [reads completes]
              rfl

end Decode

end DroidKernal.Binder
