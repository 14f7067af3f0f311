import DroidKernal.Binder.ThreadWrite
import DroidKernal.Lib.Run
import DroidKernal.Lib.Threads

/-!
# The counters of the command loop

`binder_thread_write` counts every command that it reads, for the driver, for the process
and for the thread.  The three increments are atomic, but not together: any number of
tasks can be in the middle of them.  Here the loop is taken apart into the statements
that touch what tasks share.
-/

namespace DroidKernal.Binder

open Lib

/-- `_IOC_NR`. -/
def iocNr (cmd : UInt32) : Nat := (cmd &&& 0xFF).toNat

/-- The counters `bc` of `binder_stats`, of each `proc->stats` and of each `thread->stats`. -/
structure CommandStats (P H : Type*) where
  binderStats : Nat → UInt32
  procStats : P → Nat → UInt32
  threadStats : H → Nat → UInt32

/-- `atomic_inc` of one counter of an array. -/
def atomicInc (counters : Nat → UInt32) (nr : Nat) : Nat → UInt32 :=
  Function.update counters nr (counters nr + 1)

/-- The increments of a command, in the order of the code. -/
inductive Increment where
  | binderStats
  | procStats
  | threadStats
  deriving DecidableEq, Repr

/-- What is common to the tasks: the driver and the counters. -/
structure WriteShared (D : Type) (P H : Type*) where
  driver : D
  stats : CommandStats P H

/-- Where a task is in `binder_thread_write`.  `body` lies behind the command. -/
inductive WritePlace (H : Type*) where
  | outside
  /-- before the condition of the loop -/
  | looping (thread : H) (finish ptr : Nat)
  /-- has read a command, and is about to increment a counter for it -/
  | counting (thread : H) (finish : Nat) (cmd : UInt32) (body : Nat) (next : Increment)
  /-- before the `switch` -/
  | executing (thread : H) (finish : Nat) (cmd : UInt32) (body : Nat)
  | returned (ret : Int)
  | faulted (fault : KernelFault)

/-- The tasks that write to the driver. -/
abbrev WriteSystem (ι : Type*) (D : Type) (P H : Type*) := Threads ι (WriteShared D P H) (WritePlace H)

/-- A step of a task.  What it reads from user memory is whatever is there at that moment. -/
inductive WriteEvent (ι H : Type*) where
  | enters (task : ι) (thread : H) (binderBuffer size consumed : Nat)
  | reads (task : ι) (thread : H) (memory : UserMemory) (cmd : UInt32)
  | counts (task : ι) (counter : Increment)
  | executes (task : ι) (memory : UserMemory)
  | leaves (task : ι) (memory : UserMemory)
  | ends (task : ι)

/-- The task of a step. -/
def WriteEvent.task {ι H : Type*} : WriteEvent ι H → ι
  | enters task _ _ _ _ | reads task _ _ _ | counts task _ => task
  | executes task _ | leaves task _ | ends task => task

variable {ι P H : Type*} {D : Type} [DecidableEq ι] [DecidableEq P] [DecidableEq H]

/-- Nothing has been counted. -/
def WriteSystem.init (ι P H : Type*) (driver : D) : WriteSystem ι D P H where
  shared :=
    { driver
      stats :=
        { binderStats := fun _ => 0, procStats := fun _ _ => 0, threadStats := fun _ _ => 0 } }
  threads := fun _ => .outside

/-- One task moves on. -/
def WriteSystem.move (system : WriteSystem ι D P H) (task : ι) (shared : WriteShared D P H)
    (place : WritePlace H) : WriteSystem ι D P H where
  shared
  threads := Function.update system.threads task place

/-- The counters after one of the increments. -/
def CommandStats.count (stats : CommandStats P H) (owner : H → P) (thread : H) (nr : Nat) :
    Increment → CommandStats P H
  | .binderStats => { stats with binderStats := atomicInc stats.binderStats nr }
  | .procStats =>
      { stats with
        procStats := Function.update stats.procStats (owner thread)
          (atomicInc (stats.procStats (owner thread)) nr) }
  | .threadStats =>
      { stats with
        threadStats := Function.update stats.threadStats thread
          (atomicInc (stats.threadStats thread) nr) }

/-- Where a task is after one of the increments. -/
def Increment.behind (counter : Increment) (thread : H) (finish : Nat) (cmd : UInt32)
    (body : Nat) : WritePlace H :=
  match counter with
  | .binderStats => .counting thread finish cmd body .procStats
  | .procStats => .counting thread finish cmd body .threadStats
  | .threadStats => .executing thread finish cmd body

section Steps

variable (uapi : BinderUapi) (bcReplySg : UInt32) (owner : H → P) (binderThread : H → BinderThread)
  (binderTransaction : H → D → BinderTransactionData → Bool → KernelResult D)

/-- The `switch`: what a command does, and where the task goes. -/
def executeCommand (memory : UserMemory) (driver : D) (thread : H) (finish : Nat) (cmd : UInt32)
    (body : Nat) : D × WritePlace H :=
  if cmd = uapi.bcTransaction ∨ cmd = uapi.bcReply then
    match memory.copyFromUser body uapi.transactionData.size with
    | none => (driver, .returned (-EFAULT))
    | some bytes =>
        let tr := uapi.transactionData.decode bytes
        let result := binderTransaction thread driver tr (cmd == uapi.bcReply)
        match result.fault with
        | some fault => (result.state, .faulted fault)
        | none => (result.state, .looping thread finish (body + uapi.transactionData.size))
  else (driver, .looping thread finish body)

/-- `_IOC_NR(cmd) < ARRAY_SIZE(binder_stats.bc)`. -/
def HasCounter (cmd : UInt32) : Prop := iocNr cmd < iocNr bcReplySg + 1

instance (cmd : UInt32) : Decidable (HasCounter bcReplySg cmd) := by
  unfold HasCounter
  infer_instance

/-- The statements of `binder_thread_write` that touch what is shared. -/
inductive WriteStep : WriteSystem ι D P H → WriteEvent ι H → WriteSystem ι D P H → Prop where
  | enters {system : WriteSystem ι D P H} {task : ι} (place : system.threads task = .outside)
      (thread : H) (binderBuffer size consumed : Nat) :
      WriteStep system (.enters task thread binderBuffer size consumed)
        (system.move task system.shared (.looping thread ((binderBuffer + size) % 2 ^ 64)
          ((binderBuffer + consumed) % 2 ^ 64)))
  /-- `get_user` succeeds -/
  | reads {system : WriteSystem ι D P H} {task : ι} {thread : H} {finish ptr : Nat}
      {memory : UserMemory} {cmd : UInt32}
      (place : system.threads task = .looping thread finish ptr)
      (goesOn : ptr < finish ∧ (binderThread thread).returnErrorCmd = uapi.brOk)
      (read : memory.getUser ptr = some cmd) :
      WriteStep system (.reads task thread memory cmd)
        (system.move task system.shared
          (if HasCounter bcReplySg cmd then
            .counting thread finish cmd (ptr + FlatRecord.uint32.size) .binderStats
          else .executing thread finish cmd (ptr + FlatRecord.uint32.size)))
  | counts {system : WriteSystem ι D P H} {task : ι} {thread : H} {finish : Nat} {cmd : UInt32}
      {body : Nat} {counter : Increment}
      (place : system.threads task = .counting thread finish cmd body counter) :
      WriteStep system (.counts task counter)
        (system.move task
          { system.shared with
            stats := system.shared.stats.count owner thread (iocNr cmd) counter }
          (counter.behind thread finish cmd body))
  | executes {system : WriteSystem ι D P H} {task : ι} {thread : H} {finish : Nat} {cmd : UInt32}
      {body : Nat} (place : system.threads task = .executing thread finish cmd body)
      (memory : UserMemory) :
      WriteStep system (.executes task memory)
        (system.move task
          { system.shared with
            driver := (executeCommand uapi binderTransaction memory system.shared.driver thread
              finish cmd body).1 }
          (executeCommand uapi binderTransaction memory system.shared.driver thread finish cmd
            body).2)
  /-- the end of the buffer, or of the memory -/
  | leaves {system : WriteSystem ι D P H} {task : ι} {thread : H} {finish ptr : Nat}
      {memory : UserMemory} {ret : Int}
      (place : system.threads task = .looping thread finish ptr)
      (stops : if ptr < finish ∧ (binderThread thread).returnErrorCmd = uapi.brOk then
          memory.getUser ptr = none ∧ ret = -EFAULT
        else ret = 0) :
      WriteStep system (.leaves task memory) (system.move task system.shared (.returned ret))
  /-- back to the caller, which may write again -/
  | ends {system : WriteSystem ι D P H} {task : ι} {ret : Int}
      (place : system.threads task = .returned ret) :
      WriteStep system (.ends task) (system.move task system.shared .outside)

end Steps

end DroidKernal.Binder
