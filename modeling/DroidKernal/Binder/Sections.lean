import DroidKernal.Binder.Driver
import DroidKernal.Lib.Threads

/-!
# The sections of the driver

The operations that reach the manager of a context, cut where they take and release
its mutex and the spinlocks of a node and a process.  Between two sections any other
thread may run one of its own.  What a thread does outside of the locks is only its
own business and is part of the section after it.
-/

namespace DroidKernal.Binder

open Lib

/-! ## What is done under a lock -/

/-- The tests of `binder_ioctl_set_ctx_mgr`: the error, if there is one, and the uid
that is noted otherwise. -/
def binderClaimContext (state : DriverState) (context : Nat) (currEuid : UInt32) :
    Option Int × DriverState :=
  let mgrUid := (state.contexts context).mgrUid
  if (state.contexts context).mgrNode.isSome then (some (-EBUSY), state)
  else if mgrUid ≠ invalidUid then
    if mgrUid ≠ currEuid then (some (-EPERM), state) else (none, state)
  else (none, state.updateContext context fun c => { c with mgrUid := currEuid })

theorem binderClaimContext_procs {state next : DriverState} {context : Nat} {currEuid : UInt32}
    {refused : Option Int} (done : binderClaimContext state context currEuid = (refused, next)) :
    next.procs = state.procs := by
  simp only [binderClaimContext] at done
  split at done
  next =>
    cases done
    rfl
  next =>
    split at done
    next =>
      split at done
      next =>
        cases done
        rfl
      next =>
        cases done
        rfl
    next =>
      cases done
      rfl

/-- `binder_ioctl_set_ctx_mgr` under the lock of the new node. -/
def binderAdoptNode (state : DriverState) (context node : Nat) : DriverState :=
  let state := state.updateNode node fun n =>
    { n with
      localWeakRefs := n.localWeakRefs + 1
      localStrongRefs := n.localStrongRefs + 1
      hasWeakRef := true
      hasStrongRef := true }
  state.updateContext context fun c => { c with mgrNode := some node }

/-- `binder_dec_node_tmpref` under the locks: whether the node is to be freed after
them.  There is no result where a `BUG_ON` stops the kernel. -/
def binderDecNodeTmprefLocked (state : DriverState) (node : Nat) : Option (Bool × DriverState) :=
  let state := state.updateNode node fun n => { n with tmpRefs := n.tmpRefs - 1 }
  if (state.nodes node).tmpRefs < 0 then none
  else binderDecNodeNilocked state node false true

/-! ## Where a thread is -/

/-- Who puts a node. -/
inductive Putter where
  | setCtxMgr
  | transaction
  deriving DecidableEq

/-- Where a thread is in an operation on the context of its process, and what it has in
its local variables. -/
inductive Place where
  | idle
  /-- before the `mutex_lock` of `binder_ioctl_set_ctx_mgr` -/
  | setting (proc : Nat) (currEuid : UInt32) (fbo : Option FlatBinderObject)
  | checking (proc : Nat) (currEuid : UInt32) (fbo : Option FlatBinderObject)
  | creating (proc : Nat) (fbo : Option FlatBinderObject)
  | adopting (newNode : Nat)
  | leaving (ret : Int)
  /-- before the `mutex_lock` of `binder_transaction` -/
  | calling
  | targeting
  | taking (node : Nat)
  | targeted (targetNode : Option Nat)
  | sending (targetNode : Nat)
  | putting (node : Nat) (putter : Putter)
  | freeing (node : Nat) (putter : Putter)
  /-- stopped by a fault in the kernel -/
  | killed

/-- What comes after a node was put. -/
def Putter.resume : Putter → Place
  | .setCtxMgr => .leaving 0
  | .transaction => .idle

/-- The driver and the `context_mgr_node_lock` of the context. -/
structure Guarded where
  driver : DriverState
  locked : Bool

/-- What can be observed of an interleaving. -/
inductive SectionEvent (ι : Type*) where
  | opens (task : Task)
  | getThread (proc : Nat) (task : Task)
  | setCtxMgr (thread : ι) (proc : Nat) (currEuid : UInt32) (fbo : Option FlatBinderObject)
  | transaction (thread : ι) (proc : Nat)
  | advances (thread : ι)
  | setReturns (thread : ι) (ret : Int)

/-- The threads of the processes that have the context open. -/
abbrev Sections (ι : Type*) := Threads ι Guarded Place

section Steps

variable {ι : Type*} [DecidableEq ι]

/-- A thread gets to another place, and leaves the driver and the mutex so. -/
def Sections.advance (system : Sections ι) (thread : ι) (driver : DriverState) (locked : Bool)
    (next : Place) : Sections ι where
  shared := { driver, locked }
  threads := Function.update system.threads thread next

/-- One section of a thread: from its place to another one, with the driver and the
mutex before and after. -/
inductive Section (context : Nat) : Guarded → Place → Guarded → Place → Prop where
  | lockToSet {driver : DriverState} {proc : Nat} {currEuid : UInt32}
      {fbo : Option FlatBinderObject} :
      Section context ⟨driver, false⟩ (.setting proc currEuid fbo)
        ⟨driver, true⟩ (.checking proc currEuid fbo)
  | refuse {driver next : DriverState} {locked : Bool} {proc : Nat} {currEuid : UInt32}
      {fbo : Option FlatBinderObject} {ret : Int}
      (refused : binderClaimContext driver context currEuid = (some ret, next)) :
      Section context ⟨driver, locked⟩ (.checking proc currEuid fbo)
        ⟨next, locked⟩ (.leaving ret)
  | claim {driver next : DriverState} {locked : Bool} {proc : Nat} {currEuid : UInt32}
      {fbo : Option FlatBinderObject}
      (claimed : binderClaimContext driver context currEuid = (none, next)) :
      Section context ⟨driver, locked⟩ (.checking proc currEuid fbo)
        ⟨next, locked⟩ (.creating proc fbo)
  | noMemory {driver next : DriverState} {locked : Bool} {proc : Nat}
      {fbo : Option FlatBinderObject} (failed : binderNewNode driver proc fbo = (none, next)) :
      Section context ⟨driver, locked⟩ (.creating proc fbo) ⟨next, locked⟩ (.leaving (-EPERM))
  | create {driver next : DriverState} {locked : Bool} {proc node : Nat}
      {fbo : Option FlatBinderObject} (created : binderNewNode driver proc fbo = (some node, next)) :
      Section context ⟨driver, locked⟩ (.creating proc fbo) ⟨next, locked⟩ (.adopting node)
  | adopt {driver : DriverState} {locked : Bool} {node : Nat} :
      Section context ⟨driver, locked⟩ (.adopting node)
        ⟨binderAdoptNode driver context node, locked⟩ (.putting node .setCtxMgr)
  | lockToCall {driver : DriverState} :
      Section context ⟨driver, false⟩ .calling ⟨driver, true⟩ .targeting
  | noManager {driver : DriverState} {locked : Bool}
      (nobody : (driver.contexts context).mgrNode = none) :
      Section context ⟨driver, locked⟩ .targeting ⟨driver, locked⟩ (.targeted none)
  | manager {driver : DriverState} {locked : Bool} {node : Nat}
      (isManager : (driver.contexts context).mgrNode = some node) :
      Section context ⟨driver, locked⟩ .targeting ⟨driver, locked⟩ (.taking node)
  | take {driver next : DriverState} {locked : Bool} {node : Nat} {targetProc : Option Nat}
      (taken : binderGetNodeRefsForTxn driver node = (targetProc, next)) :
      Section context ⟨driver, locked⟩ (.taking node)
        ⟨next, locked⟩ (.targeted (targetProc.map fun _ => node))
  | unlockWithoutTarget {driver : DriverState} {locked : Bool} :
      -- `target_node->debug_id` is read through a null pointer
      Section context ⟨driver, locked⟩ (.targeted none) ⟨driver, false⟩ .killed
  | unlockWithTarget {driver : DriverState} {locked : Bool} {node : Nat} :
      Section context ⟨driver, locked⟩ (.targeted (some node)) ⟨driver, false⟩ (.sending node)
  | allocate {driver : DriverState} {locked : Bool} {node : Nat}
      (allocated : driver.kzalloc.1 = true) :
      -- the transaction and its completion
      Section context ⟨driver, locked⟩ (.sending node)
        ⟨driver.kzalloc.2.kzalloc.2, locked⟩ (.putting node .transaction)
  | put {driver next : DriverState} {locked : Bool} {node : Nat} {putter : Putter}
      {freeNode : Bool} (dropped : binderDecNodeTmprefLocked driver node = some (freeNode, next)) :
      Section context ⟨driver, locked⟩ (.putting node putter)
        ⟨next, locked⟩ (if freeNode then .freeing node putter else putter.resume)
  | bug {driver : DriverState} {locked : Bool} {node : Nat} {putter : Putter}
      (negative : binderDecNodeTmprefLocked driver node = none) :
      Section context ⟨driver, locked⟩ (.putting node putter) ⟨driver, locked⟩ .killed
  | free {driver : DriverState} {locked : Bool} {node : Nat} {putter : Putter} :
      Section context ⟨driver, locked⟩ (.freeing node putter)
        ⟨binderFreeNode driver node, locked⟩ putter.resume

/-- The interleavings on one context.  A process opens the device of the context; a
thread looks up its entry, begins an operation, or does its next section. -/
inductive SectionStep (uapi : BinderUapi) (context : Nat) :
    Sections ι → SectionEvent ι → Sections ι → Prop where
  | opens {system : Sections ι} (task : Task) :
      SectionStep uapi context system (.opens task)
        { system with shared :=
          { system.shared with driver := (binderOpen system.shared.driver context task).state } }
  | getThread {system : Sections ι} {proc : Nat} (opened : proc < system.shared.driver.procCount)
      (task : Task) :
      SectionStep uapi context system (.getThread proc task)
        { system with shared :=
          { system.shared with
            driver := (binderGetThread uapi system.shared.driver proc task.pid).2 } }
  | setCtxMgr {system : Sections ι} {thread : ι} {proc : Nat}
      (opened : proc < system.shared.driver.procCount) (isIdle : system.threads thread = .idle)
      (currEuid : UInt32) (fbo : Option FlatBinderObject) :
      SectionStep uapi context system (.setCtxMgr thread proc currEuid fbo)
        (system.advance thread system.shared.driver system.shared.locked
          (.setting proc currEuid fbo))
  | transaction {system : Sections ι} {thread : ι} {proc : Nat}
      (opened : proc < system.shared.driver.procCount) (isIdle : system.threads thread = .idle) :
      SectionStep uapi context system (.transaction thread proc)
        (system.advance thread system.shared.driver.nextId system.shared.locked .calling)
  | advances {system : Sections ι} {thread : ι} {driver : DriverState} {locked : Bool}
      {next : Place}
      (done : Section context system.shared (system.threads thread) ⟨driver, locked⟩ next) :
      SectionStep uapi context system (.advances thread) (system.advance thread driver locked next)
  | setReturns {system : Sections ι} {thread : ι} {ret : Int}
      (atEnd : system.threads thread = .leaving ret) :
      SectionStep uapi context system (.setReturns thread ret)
        (system.advance thread system.shared.driver false .idle)

end Steps

/-- Before any process has opened the device. -/
def Sections.init (ι : Type*) (allocation : Nat → Bool) : Sections ι where
  shared := { driver := .init allocation, locked := false }
  threads _ := .idle

/-! ## One thread alone -/

/-- The whole of `binder_dec_node_tmpref`. -/
theorem binderDecNodeTmpref_sections (state : DriverState) (node : Nat) :
    binderDecNodeTmpref state node =
      (binderDecNodeTmprefLocked state node).map fun result =>
        if result.1 then binderFreeNode result.2 node else result.2 := by
  simp only [binderDecNodeTmpref, binderDecNodeTmprefLocked]
  split
  next => rfl
  next => rw [Option.map_eq_bind]; rfl

/-- The whole of `binder_ioctl_set_ctx_mgr`. -/
theorem binderIoctlSetCtxMgr_sections (state : DriverState) (proc : Nat) (currEuid : UInt32)
    (fbo : Option FlatBinderObject) :
    binderIoctlSetCtxMgr state proc currEuid fbo =
      match binderClaimContext state (state.procs proc).context currEuid with
      | (some ret, state) => { ret, state, fault := none }
      | (none, claimed) =>
          match binderNewNode claimed proc fbo with
          | (none, state) => { ret := -EPERM, state, fault := none }
          | (some node, state) =>
              let state := binderAdoptNode state (claimed.procs proc).context node
              match binderDecNodeTmpref state node with
              | some state => { ret := 0, state, fault := none }
              | none => { ret := 0, state, fault := some .bug } := by
  simp only [binderIoctlSetCtxMgr, binderClaimContext, binderSetCtxMgrNode, binderAdoptNode]
  split
  next => rfl
  next =>
    split
    next =>
      split
      next => rfl
      next => rfl
    next => rfl

/-- The whole of `binder_transaction` to the context manager, where it returns. -/
theorem binderTransaction_sections {state : DriverState} {proc : Nat} {tr : BinderTransactionData}
    (toManager : tr.handle = 0) (returned : (binderTransaction state proc tr false).fault = none) :
    ∃ node targetProc taken freeNode dropped,
      (state.nextId.contexts (state.procs proc).context).mgrNode = some node ∧
        binderGetNodeRefsForTxn state.nextId node = (some targetProc, taken) ∧
        taken.kzalloc.1 = true ∧
        binderDecNodeTmprefLocked taken.kzalloc.2.kzalloc.2 node = some (freeNode, dropped) ∧
        (binderTransaction state proc tr false).state =
          if freeNode then binderFreeNode dropped node else dropped := by
  simp only [binderTransaction, toManager, ne_eq, not_true_eq_false, or_false, Bool.false_eq_true,
    if_false] at returned ⊢
  cases isManager : (state.nextId.contexts (state.procs proc).context).mgrNode with
  | none =>
      simp only [isManager] at returned
      cases returned
  | some node =>
      cases isTaken : binderGetNodeRefsForTxn state.nextId node with
      | mk target taken =>
          cases target with
          | none =>
              simp only [isManager, isTaken, Option.map_none] at returned
              cases returned
          | some targetProc =>
              simp only [isManager, isTaken, Option.map_some] at returned ⊢
              split at returned
              next allocated =>
                rw [binderDecNodeTmpref_sections] at returned ⊢
                cases isDropped : binderDecNodeTmprefLocked taken.kzalloc.2.kzalloc.2 node with
                | none =>
                    simp only [isDropped, Option.map_none] at returned
                    cases returned
                | some dropped =>
                    refine ⟨node, targetProc, taken, dropped.1, dropped.2, rfl, isTaken, allocated,
                      isDropped, ?_⟩
                    simp only [allocated, if_true, Option.map_some]
              next => cases returned

section Alone

variable {ι : Type*} [DecidableEq ι] {uapi : BinderUapi} {context : Nat} {start : Sections ι}
  {system : Sections ι} {thread : ι} {events : List (SectionEvent ι)} {driver after : DriverState}
  {locked stillLocked : Bool} {place next : Place}

theorem Sections.advance_advance :
    (system.advance thread driver locked place).advance thread after stillLocked next =
      system.advance thread after stillLocked next := by
  simp only [Sections.advance, Function.update_idem]

/-- The thread goes on. -/
theorem alone_advances
    (run : Run (SectionStep uapi context) start events
      (system.advance thread driver locked place))
    (done : Section context ⟨driver, locked⟩ place ⟨after, stillLocked⟩ next) :
    Run (SectionStep uapi context) start (events ++ [.advances thread])
      (system.advance thread after stillLocked next) := by
  rw [← Sections.advance_advance]
  apply run.snoc
  apply SectionStep.advances
  simpa only [Sections.advance, Function.update_self] using done

/-- A node is put. -/
theorem alone_puts {node : Nat} {putter : Putter} {freeNode : Bool}
    (run : Run (SectionStep uapi context) start events
      (system.advance thread driver locked (.putting node putter)))
    (dropped : binderDecNodeTmprefLocked driver node = some (freeNode, after)) :
    ∃ later, Run (SectionStep uapi context) start later
      (system.advance thread (if freeNode then binderFreeNode after node else after) locked
        putter.resume) := by
  have put := alone_advances run (.put dropped)
  cases freeNode with
  | false => exact ⟨_, put⟩
  | true => exact ⟨_, alone_advances put .free⟩

/-- The thread returns from `binder_ioctl_set_ctx_mgr`. -/
theorem alone_returns {ret : Int}
    (run : Run (SectionStep uapi context) start events
      (system.advance thread driver locked (.leaving ret))) :
    Run (SectionStep uapi context) start (events ++ [.setReturns thread ret])
      (system.advance thread driver false .idle) := by
  rw [← Sections.advance_advance]
  apply run.snoc
  apply SectionStep.setReturns
  simp only [Sections.advance, Function.update_self]

/-- A thread that is left alone does in its sections what `binder_ioctl_set_ctx_mgr` does. -/
theorem setCtxMgr_alone {proc : Nat} (opened : proc < system.shared.driver.procCount)
    (isContext : (system.shared.driver.procs proc).context = context)
    (isIdle : system.threads thread = .idle) (unlocked : system.shared.locked = false)
    (currEuid : UInt32) (fbo : Option FlatBinderObject)
    (returned : (binderIoctlSetCtxMgr system.shared.driver proc currEuid fbo).fault = none) :
    ∃ events, Run (SectionStep uapi context) system
      (events ++ [.setReturns thread
        (binderIoctlSetCtxMgr system.shared.driver proc currEuid fbo).ret])
      (system.advance thread (binderIoctlSetCtxMgr system.shared.driver proc currEuid fbo).state
        false .idle) := by
  have begun : SectionStep uapi context system (.setCtxMgr thread proc currEuid fbo) _ :=
    .setCtxMgr opened isIdle currEuid fbo
  rw [unlocked] at begun
  have entered := alone_advances (.single begun) .lockToSet
  rw [binderIoctlSetCtxMgr_sections, isContext] at returned ⊢
  cases claimed : binderClaimContext system.shared.driver context currEuid with
  | mk refused next =>
      cases refused with
      | some ret => exact ⟨_, alone_returns (alone_advances entered (.refuse claimed))⟩
      | none =>
          have sameContext : (next.procs proc).context = context := by
            rw [binderClaimContext_procs claimed]
            exact isContext
          have creating := alone_advances entered (.claim claimed)
          cases created : binderNewNode next proc fbo with
          | mk node made =>
              cases node with
              | none =>
                  simp only [created]
                  exact ⟨_, alone_returns (alone_advances creating (.noMemory created))⟩
              | some node =>
                  have adopted := alone_advances (alone_advances creating (.create created)) .adopt
                  simp only [claimed, created, sameContext, binderDecNodeTmpref_sections] at returned ⊢
                  cases dropped : binderDecNodeTmprefLocked (binderAdoptNode made context node) node with
                  | none => simp [dropped] at returned
                  | some result =>
                      obtain ⟨_, put⟩ := alone_puts adopted dropped
                      exact ⟨_, alone_returns put⟩

/-- A thread that is left alone does in its sections what `binder_transaction` does. -/
theorem transaction_alone {proc : Nat} (opened : proc < system.shared.driver.procCount)
    (isContext : (system.shared.driver.procs proc).context = context)
    (isIdle : system.threads thread = .idle) (unlocked : system.shared.locked = false)
    {tr : BinderTransactionData} (toManager : tr.handle = 0)
    (returned : (binderTransaction system.shared.driver proc tr false).fault = none) :
    ∃ events, Run (SectionStep uapi context) system events
      (system.advance thread (binderTransaction system.shared.driver proc tr false).state
        false .idle) := by
  obtain ⟨node, targetProc, taken, freeNode, dropped, isManager, isTaken, allocated, isDropped,
    isState⟩ := binderTransaction_sections toManager returned
  have begun : SectionStep uapi context system (.transaction thread proc) _ :=
    .transaction opened isIdle
  rw [unlocked] at begun
  rw [isContext] at isManager
  have entered := alone_advances (.single begun) .lockToCall
  have targeted := alone_advances (alone_advances entered (.manager isManager)) (.take isTaken)
  have sent := alone_advances (alone_advances targeted .unlockWithTarget) (.allocate allocated)
  rw [isState]
  exact alone_puts sent isDropped

end Alone

end DroidKernal.Binder
