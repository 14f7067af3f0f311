import DroidKernal.Binder.Node
import DroidKernal.Lib.Run

/-!
# The binder driver

`binder_open` and `binder_ioctl` on the state of the driver.  A function that ends
in a fault leaves the state as it was at that point: the task is killed there, and
the driver goes on for the others.  No file operation releases a process.
-/

namespace DroidKernal.Binder

open Lib

/-- What an entry point of the driver returns and leaves behind. -/
structure DriverResult where
  ret : Int
  state : DriverState
  fault : Option KernelFault

/-- `binder_open` of the device of a context. -/
def binderOpen (state : DriverState) (context : Nat) (task : Task) : DriverResult :=
  let (allocated, state) := state.kzalloc
  if allocated then
    let proc := state.procCount
    let state := { state with procCount := state.procCount + 1 }
    { ret := 0
      state := state.updateProc proc fun _ =>
        { pid := task.tgid, context, threads := [], nodes := [], todo := [], tmpRef := 0 }
      fault := none }
  else { ret := -ENOMEM, state, fault := none }

/-- `binder_get_thread`: the entry of the calling thread, which is added to the tree
of the process if it is not there yet. -/
def binderGetThread (uapi : BinderUapi) (state : DriverState) (proc : Nat) (pid : Int32) :
    Option BinderThread × DriverState :=
  match (state.procs proc).threads.find? fun thread => thread.pid = pid with
  | some thread => (some thread, state)
  | none =>
      let (allocated, state) := state.kzalloc
      if allocated then
        let thread := BinderThread.create uapi pid
        (some thread, state.updateProc proc fun p =>
          { p with threads := p.threads.orderedInsert (fun a b => a.pid ≤ b.pid) thread })
      else (none, state)

/-- `binder_get_node_refs_for_txn`: the process of the node, with references to
both, unless the process is gone. -/
def binderGetNodeRefsForTxn (state : DriverState) (node : Nat) : Option Nat × DriverState :=
  match (state.nodes node).proc with
  | some proc =>
      let (_, state) := binderIncNodeNilocked state node true false
      let state := state.updateNode node fun n => { n with tmpRefs := n.tmpRefs + 1 }
      (some proc, state.updateProc proc fun p => { p with tmpRef := p.tmpRef + 1 })
  | none => (none, state)

/-- `binder_transaction`.  The transaction that it allocates is filled in and then
forgotten. -/
def binderTransaction (state : DriverState) (proc : Nat) (tr : BinderTransactionData)
    (reply : Bool) : KernelResult DriverState :=
  let context := (state.procs proc).context
  let state := state.nextId
  -- `target_node` and `target_proc` are set in this case only
  let (target, state) :=
    if reply ∨ tr.handle ≠ 0 then (none, state)
    else
      match (state.contexts context).mgrNode with
      | some node =>
          let (targetProc, state) := binderGetNodeRefsForTxn state node
          (targetProc.map fun targetProc => (node, targetProc), state)
      | none => (none, state)
  match target with
  | none =>
      -- a reply skips `target_node->debug_id` and gets to `target_proc->pid`
      { state, fault := some (if reply then .nullTargetProc else .nullTargetNode) }
  | some (targetNode, _) =>
      let (t, state) := state.kzalloc
      if t then
        let (_, state) := state.kzalloc
        match binderDecNodeTmpref state targetNode with
        | some state => { state, fault := none }
        | none => { state, fault := some .bug }
      else { state, fault := some .nullTransaction }

/-- The part of `binder_ioctl_set_ctx_mgr` that makes a node the manager of the
context, with references that keep it. -/
def binderSetCtxMgrNode (state : DriverState) (proc context : Nat)
    (fbo : Option FlatBinderObject) : DriverResult :=
  match binderNewNode state proc fbo with
  | (none, state) => { ret := -EPERM, state, fault := none }
  | (some node, state) =>
      let state := state.updateNode node fun n =>
        { n with
          localWeakRefs := n.localWeakRefs + 1
          localStrongRefs := n.localStrongRefs + 1
          hasWeakRef := true
          hasStrongRef := true }
      let state := state.updateContext context fun c => { c with mgrNode := some node }
      match binderDecNodeTmpref state node with
      | some state => { ret := 0, state, fault := none }
      | none => { ret := 0, state, fault := some .bug }

/-- `binder_ioctl_set_ctx_mgr`. -/
def binderIoctlSetCtxMgr (state : DriverState) (proc : Nat) (currEuid : UInt32)
    (fbo : Option FlatBinderObject) : DriverResult :=
  let context := (state.procs proc).context
  let mgrUid := (state.contexts context).mgrUid
  if (state.contexts context).mgrNode.isSome then { ret := -EBUSY, state, fault := none }
  else if mgrUid ≠ invalidUid then
    if mgrUid ≠ currEuid then { ret := -EPERM, state, fault := none }
    else binderSetCtxMgrNode state proc context fbo
  else
    binderSetCtxMgrNode (state.updateContext context fun c => { c with mgrUid := currEuid }) proc
      context fbo

/-- The commands of `binder_ioctl` that change what the driver reads elsewhere, with
their argument; there is none where it cannot be copied from the caller.  The other
commands come down to the lookup of the thread. -/
inductive IoctlCommand where
  | writeRead (memory : UserMemory) (bwr : Option BinderWriteRead)
  | setContextMgr
  | setContextMgrExt (fbo : Option FlatBinderObject)
  | other (ret : Int)

/-- `binder_ioctl`. -/
def binderIoctl (uapi : BinderUapi) (state : DriverState) (proc : Nat) (task : Task)
    (command : IoctlCommand) : DriverResult :=
  match binderGetThread uapi state proc task.pid with
  | (none, state) => { ret := -ENOMEM, state, fault := none }
  | (some thread, state) =>
      match command with
      | .writeRead _ none => { ret := -EFAULT, state, fault := none }
      | .writeRead memory (some bwr) =>
          let (run, _) := binderIoctlWriteRead uapi
            (fun state tr reply => binderTransaction state proc tr reply) memory thread state bwr
          { ret := run.ret, state := run.state, fault := run.fault }
      | .setContextMgr => binderIoctlSetCtxMgr state proc task.euid none
      | .setContextMgrExt none => { ret := -EINVAL, state, fault := none }
      | .setContextMgrExt (some fbo) => binderIoctlSetCtxMgr state proc task.euid (some fbo)
      | .other ret => { ret, state, fault := none }

/-! ## Runs -/

/-- A call of an entry point by some task, or one of the parts of
`BINDER_WRITE_READ` by itself. -/
inductive DriverEvent where
  | opens (context : Nat) (task : Task)
  | ioctl (proc : Nat) (task : Task) (command : IoctlCommand)
  | getThread (proc : Nat) (task : Task)
  | transaction (proc : Nat) (tr : BinderTransactionData) (reply : Bool)

/-- What the driver does on an event.  An ioctl needs an open file.  The lookup of
the thread and the single commands are steps of their own as well, so that the
states in the middle of a write buffer are among the reachable ones. -/
inductive DriverStep (uapi : BinderUapi) : DriverState → DriverEvent → DriverState → Prop where
  | opens (state : DriverState) (context : Nat) (task : Task) :
      DriverStep uapi state (.opens context task) (binderOpen state context task).state
  | ioctl {state : DriverState} {proc : Nat} (opened : proc < state.procCount) (task : Task)
      (command : IoctlCommand) :
      DriverStep uapi state (.ioctl proc task command)
        (binderIoctl uapi state proc task command).state
  | getThread {state : DriverState} {proc : Nat} (opened : proc < state.procCount) (task : Task) :
      DriverStep uapi state (.getThread proc task) (binderGetThread uapi state proc task.pid).2
  | transaction {state : DriverState} {proc : Nat} (opened : proc < state.procCount)
      (tr : BinderTransactionData) (reply : Bool) :
      DriverStep uapi state (.transaction proc tr reply)
        (binderTransaction state proc tr reply).state

end DroidKernal.Binder
