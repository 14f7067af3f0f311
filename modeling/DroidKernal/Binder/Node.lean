import DroidKernal.Binder.ThreadWrite
import Mathlib.Data.List.Sort
import Mathlib.Logic.Function.Basic

/-!
# Nodes of the binder driver

The objects of the driver live in tables indexed by numbers, so that a pointer to
an object is its index.  A freed node stays in its table, marked as freed.  A
red-black tree is the list of its entries in order.

Left out are the fields that the driver only writes or prints: the scheduling
attributes of a node, the flags they come from, and the transaction log.  Locks
are left out as well, since every function below runs under them.
-/

namespace DroidKernal.Binder

/-- `struct flat_binder_object`, as far as it reaches a node. -/
structure FlatBinderObject where
  binder : UInt64
  cookie : UInt64
  deriving DecidableEq, Repr

/-- `struct binder_node`.  `queued` says that its `work` is on a list. -/
structure BinderNode where
  debugId : Int32
  proc : Option Nat
  ptr : UInt64
  cookie : UInt64
  refs : List Nat
  internalStrongRefs : Int
  localWeakRefs : Int
  localStrongRefs : Int
  tmpRefs : Int
  hasStrongRef : Bool
  hasWeakRef : Bool
  queued : Bool
  freed : Bool
  deriving DecidableEq, Repr

/-- A node as `kzalloc` returns it. -/
def BinderNode.zeroed : BinderNode where
  debugId := 0
  proc := none
  ptr := 0
  cookie := 0
  refs := []
  internalStrongRefs := 0
  localWeakRefs := 0
  localStrongRefs := 0
  tmpRefs := 0
  hasStrongRef := false
  hasWeakRef := false
  queued := false
  freed := false

/-- `struct binder_proc`.  `threads` and `nodes` are its trees, `todo` the nodes
whose work is queued on it. -/
structure BinderProc where
  pid : Int32
  context : Nat
  threads : List BinderThread
  nodes : List Nat
  todo : List Nat
  tmpRef : Int
  deriving DecidableEq, Repr

/-- `INVALID_UID`. -/
def invalidUid : UInt32 := 0xffffffff

/-- `struct binder_context`. -/
structure BinderContext where
  mgrNode : Option Nat
  mgrUid : UInt32
  deriving DecidableEq, Repr

/-- The state of the driver.  `allocation` says which allocations succeed, in the
order in which they are made. -/
structure DriverState where
  contexts : Nat → BinderContext
  procs : Nat → BinderProc
  procCount : Nat
  nodes : Nat → BinderNode
  nodeCount : Nat
  lastId : Int32
  allocation : Nat → Bool
  allocations : Nat

namespace DriverState

/-- The state after the module was loaded and its devices were created. -/
def init (allocation : Nat → Bool) : DriverState where
  contexts := fun _ => { mgrNode := none, mgrUid := invalidUid }
  procs := fun _ => { pid := 0, context := 0, threads := [], nodes := [], todo := [], tmpRef := 0 }
  procCount := 0
  nodes := fun _ => .zeroed
  nodeCount := 0
  lastId := 0
  allocation
  allocations := 0

/-- The outcome of the next allocation. -/
def kzalloc (state : DriverState) : Bool × DriverState :=
  (state.allocation state.allocations, { state with allocations := state.allocations + 1 })

/-- `atomic_inc_return(&binder_last_id)`. -/
def nextId (state : DriverState) : DriverState :=
  { state with lastId := state.lastId + 1 }

/-- A store into a node. -/
def updateNode (state : DriverState) (node : Nat) (change : BinderNode → BinderNode) :
    DriverState :=
  { state with nodes := Function.update state.nodes node (change (state.nodes node)) }

/-- A store into a process. -/
def updateProc (state : DriverState) (proc : Nat) (change : BinderProc → BinderProc) :
    DriverState :=
  { state with procs := Function.update state.procs proc (change (state.procs proc)) }

/-- A store into a context. -/
def updateContext (state : DriverState) (context : Nat)
    (change : BinderContext → BinderContext) : DriverState :=
  { state with
    contexts := Function.update state.contexts context (change (state.contexts context)) }

end DriverState

/-- `binder_inc_node_nilocked` without a target list. -/
def binderIncNodeNilocked (state : DriverState) (node : Nat) (strong internal : Bool) :
    Int × DriverState :=
  if strong then
    if internal then
      (0, state.updateNode node fun n => { n with internalStrongRefs := n.internalStrongRefs + 1 })
    else (0, state.updateNode node fun n => { n with localStrongRefs := n.localStrongRefs + 1 })
  else
    let state :=
      if internal then state
      else state.updateNode node fun n => { n with localWeakRefs := n.localWeakRefs + 1 }
    if ¬ (state.nodes node).hasWeakRef ∧ ¬ (state.nodes node).queued then (-EINVAL, state)
    else (0, state)

/-- `binder_dec_node_nilocked`: whether the caller has to free the node.  There is
no result where a `BUG_ON` stops the kernel. -/
def binderDecNodeNilocked (state : DriverState) (node : Nat) (strong internal : Bool) :
    Option (Bool × DriverState) :=
  let state :=
    if strong then
      state.updateNode node fun n =>
        if internal then { n with internalStrongRefs := n.internalStrongRefs - 1 }
        else { n with localStrongRefs := n.localStrongRefs - 1 }
    else if internal then state
    else state.updateNode node fun n => { n with localWeakRefs := n.localWeakRefs - 1 }
  let n := state.nodes node
  if strong ∧ (n.localStrongRefs ≠ 0 ∨ n.internalStrongRefs ≠ 0) then some (false, state)
  else if ¬ strong ∧ (n.localWeakRefs ≠ 0 ∨ n.tmpRefs ≠ 0 ∨ n.refs ≠ []) then some (false, state)
  else
    match n.proc with
    | some proc =>
        if n.hasStrongRef ∨ n.hasWeakRef then
          if n.queued then some (false, state)
          else
            let state := state.updateNode node fun n => { n with queued := true }
            some (false, state.updateProc proc fun p => { p with todo := p.todo ++ [node] })
        else if n.refs ≠ [] ∧ n.localStrongRefs = 0 ∧ n.localWeakRefs = 0 ∧ n.tmpRefs = 0 then
          let state := state.updateNode node fun n => { n with queued := false }
          some (true, state.updateProc proc fun p =>
            { p with todo := p.todo.erase node, nodes := p.nodes.erase node })
        else some (false, state)
    | none =>
        if n.refs ≠ [] ∧ n.localStrongRefs = 0 ∧ n.localWeakRefs = 0 ∧ n.tmpRefs = 0 then
          -- the second look at `tmp_refs` finds it unchanged
          if n.queued then none else some (true, state)
        else some (false, state)

/-- `binder_free_node`. -/
def binderFreeNode (state : DriverState) (node : Nat) : DriverState :=
  state.updateNode node fun n => { n with freed := true }

/-- `binder_dec_node_tmpref`, and `binder_put_node`. -/
def binderDecNodeTmpref (state : DriverState) (node : Nat) : Option DriverState := do
  let state := state.updateNode node fun n => { n with tmpRefs := n.tmpRefs - 1 }
  if (state.nodes node).tmpRefs < 0 then none
  else
    let (freeNode, state) ← binderDecNodeNilocked state node false true
    return if freeNode then binderFreeNode state node else state

/-- `binder_init_node_ilocked`: the node of that `ptr` in the tree of the process,
or `newNode` after it was linked. -/
def binderInitNodeIlocked (state : DriverState) (proc newNode : Nat)
    (fp : Option FlatBinderObject) : Nat × DriverState :=
  let ptr := (fp.map FlatBinderObject.binder).getD 0
  let cookie := (fp.map FlatBinderObject.cookie).getD 0
  match (state.procs proc).nodes.find? fun node => (state.nodes node).ptr = ptr with
  | some node => (node, state.updateNode node fun n => { n with tmpRefs := n.tmpRefs + 1 })
  | none =>
      let state := state.nextId
      let state := state.updateNode newNode fun n =>
        { n with
          tmpRefs := n.tmpRefs + 1
          debugId := state.lastId
          proc := some proc
          ptr
          cookie
          queued := false }
      let state := state.updateProc proc fun p =>
        { p with
          nodes := p.nodes.orderedInsert
            (fun a b => (state.nodes a).ptr ≤ (state.nodes b).ptr) newNode }
      (newNode, state)

/-- `binder_new_node`. -/
def binderNewNode (state : DriverState) (proc : Nat) (fp : Option FlatBinderObject) :
    Option Nat × DriverState :=
  let (allocated, state) := state.kzalloc
  if allocated then
    let newNode := state.nodeCount
    let state := { state with nodeCount := state.nodeCount + 1 }
    let (node, state) := binderInitNodeIlocked
      (state.updateNode newNode fun _ => .zeroed) proc newNode fp
    (some node, if node ≠ newNode then binderFreeNode state newNode else state)
  else (none, state)

end DroidKernal.Binder
