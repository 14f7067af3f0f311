import DroidKernal.Binder.Node
import DroidKernal.Lib.KeyedTree
import DroidKernal.Lib.Run
import DroidKernal.Lib.Threads

/-!
# The trees of a process

`binder_get_thread` and `binder_new_node` on the trees of one process, cut where they hold its
`inner_lock`.  Here the trees are trees, and not the lists of their entries.  What a caller does
after its last section is part of that section.

`rb_insert_color` is a parameter of each section.  It is only assumed to keep the order of the
entries.
-/

namespace DroidKernal.Binder

open Lib Lib.SearchTree

/-- `threads` and `nodes` of `struct binder_proc`. -/
structure ProcTrees where
  threads : Table BinderThread
  nodes : Table BinderNode

/-- A thread as `kzalloc` returns it. -/
def BinderThread.zeroed : BinderThread where
  pid := 0
  returnErrorCmd := 0

/-- `ptr` of `binder_init_node_ilocked`. -/
def nodePtr (fp : Option FlatBinderObject) : UInt64 := (fp.map FlatBinderObject.binder).getD 0

namespace ProcTrees

/-- Before the first call. -/
def init : ProcTrees where
  threads := .init .zeroed
  nodes := .init .zeroed

/-- `binder_get_thread_ilocked` in the thread `pid`. -/
def binderGetThreadIlocked (uapi : BinderUapi) (rbInsertColor : BinaryTree Nat → BinaryTree Nat)
    (proc : ProcTrees) (pid : Int32) (newThread : Option Nat) : Option Nat × ProcTrees :=
  let (thread, threads) := proc.threads.searchOrInsert rbInsertColor BinderThread.pid id
    (fun _ => BinderThread.create uapi pid) pid newThread
  (thread, { proc with threads })

/-- `binder_init_node_ilocked` in the process `index`, where `debugId` is what
`atomic_inc_return(&binder_last_id)` returns. -/
def binderInitNodeIlocked (index : Nat) (debugId : Int32)
    (rbInsertColor : BinaryTree Nat → BinaryTree Nat) (proc : ProcTrees) (newNode : Nat)
    (fp : Option FlatBinderObject) : Option Nat × ProcTrees :=
  let (node, nodes) := proc.nodes.searchOrInsert rbInsertColor BinderNode.ptr
    (fun n => { n with tmpRefs := n.tmpRefs + 1 })
    (fun n =>
      { n with
        tmpRefs := n.tmpRefs + 1
        debugId
        proc := some index
        ptr := nodePtr fp
        cookie := (fp.map FlatBinderObject.cookie).getD 0
        queued := false })
    (nodePtr fp) (some newNode)
  (node, { proc with nodes })

section Sections

variable {proc next : ProcTrees} {rbInsertColor : BinaryTree Nat → BinaryTree Nat}
  {found : Option Nat}

/-- The section touches the tree of threads only. -/
theorem binderGetThreadIlocked_spec {uapi : BinderUapi} {pid : Int32} {newThread : Option Nat}
    (done : proc.binderGetThreadIlocked uapi rbInsertColor pid newThread = (found, next)) :
    proc.threads.searchOrInsert rbInsertColor BinderThread.pid id
        (fun _ => BinderThread.create uapi pid) pid newThread = (found, next.threads) ∧
      next.nodes = proc.nodes := by
  simp only [binderGetThreadIlocked] at done
  cases done
  exact ⟨rfl, rfl⟩

/-- The section touches the tree of nodes only. -/
theorem binderInitNodeIlocked_spec {index : Nat} {debugId : Int32} {newNode : Nat}
    {fp : Option FlatBinderObject}
    (done : proc.binderInitNodeIlocked index debugId rbInsertColor newNode fp = (found, next)) :
    proc.nodes.searchOrInsert rbInsertColor BinderNode.ptr
        (fun n => { n with tmpRefs := n.tmpRefs + 1 })
        (fun n =>
          { n with
            tmpRefs := n.tmpRefs + 1
            debugId
            proc := some index
            ptr := nodePtr fp
            cookie := (fp.map FlatBinderObject.cookie).getD 0
            queued := false })
        (nodePtr fp) (some newNode) = (found, next.nodes) ∧
      next.threads = proc.threads := by
  simp only [binderInitNodeIlocked] at done
  cases done
  exact ⟨rfl, rfl⟩

end Sections

/-- `kzalloc` of a thread. -/
def allocThread (proc : ProcTrees) : ProcTrees :=
  { proc with threads := { proc.threads with memory := proc.threads.memory.add .zeroed } }

/-- The end of `binder_get_thread`. -/
def freeThreadUnless (proc : ProcTrees) (newThread : Nat) (thread : Option Nat) : ProcTrees :=
  if thread ≠ some newThread then
    { proc with threads := { proc.threads with memory := proc.threads.memory.free newThread } }
  else proc

/-- `kzalloc` of a node. -/
def allocNode (proc : ProcTrees) : ProcTrees :=
  { proc with nodes := { proc.nodes with memory := proc.nodes.memory.add .zeroed } }

/-- The end of `binder_new_node`. -/
def freeNodeUnless (proc : ProcTrees) (newNode : Nat) (node : Option Nat) : ProcTrees :=
  if node ≠ some newNode then
    { proc with nodes := { proc.nodes with memory := proc.nodes.memory.free newNode } }
  else proc

end ProcTrees

/-! ## Callers -/

/-- Where a caller is between two sections. -/
inductive Caller where
  | idle
  /-- before the `kzalloc` of `binder_get_thread` -/
  | missed (pid : Int32)
  | bringsThread (pid : Int32) (newThread : Nat)
  | bringsNode (fp : Option FlatBinderObject) (newNode : Nat)

/-- What a call returns: a null pointer, or an entry. -/
inductive CallEvent (ι : Type*) where
  | advances (caller : ι)
  | gotThread (caller : ι) (pid : Int32) (newThread thread : Option Nat)
  | gotNode (caller : ι) (fp : Option FlatBinderObject) (newNode node : Option Nat)

section Calls

variable {ι : Type*} [DecidableEq ι]

/-- A caller gets to another place, and leaves the trees so. -/
def moveCaller (system : Threads ι ProcTrees Caller) (caller : ι) (proc : ProcTrees)
    (next : Caller) : Threads ι ProcTrees Caller where
  shared := proc
  threads := Function.update system.threads caller next

/-- One section of a caller. -/
inductive CallStep (uapi : BinderUapi) (index : Nat) :
    Threads ι ProcTrees Caller → CallEvent ι → Threads ι ProcTrees Caller → Prop where
  | threadFound {system : Threads ι ProcTrees Caller} {caller : ι} {pid : Int32} {thread : Nat}
      {proc : ProcTrees} {rbInsertColor : BinaryTree Nat → BinaryTree Nat}
      (keeps : KeepsOrder rbInsertColor) (place : system.threads caller = .idle)
      (section' : system.shared.binderGetThreadIlocked uapi rbInsertColor pid none =
        (some thread, proc)) :
      CallStep uapi index system (.gotThread caller pid none (some thread))
        (moveCaller system caller proc .idle)
  | threadMissed {system : Threads ι ProcTrees Caller} {caller : ι} {pid : Int32}
      {proc : ProcTrees} {rbInsertColor : BinaryTree Nat → BinaryTree Nat}
      (keeps : KeepsOrder rbInsertColor) (place : system.threads caller = .idle)
      (section' : system.shared.binderGetThreadIlocked uapi rbInsertColor pid none =
        (none, proc)) :
      CallStep uapi index system (.advances caller) (moveCaller system caller proc (.missed pid))
  | threadNoMemory {system : Threads ι ProcTrees Caller} {caller : ι} {pid : Int32}
      (place : system.threads caller = .missed pid) :
      CallStep uapi index system (.gotThread caller pid none none)
        (moveCaller system caller system.shared .idle)
  | threadAllocated {system : Threads ι ProcTrees Caller} {caller : ι} {pid : Int32}
      (place : system.threads caller = .missed pid) :
      CallStep uapi index system (.advances caller)
        (moveCaller system caller system.shared.allocThread
          (.bringsThread pid system.shared.threads.memory.allocated))
  | threadInserted {system : Threads ι ProcTrees Caller} {caller : ι} {pid : Int32}
      {newThread : Nat} {thread : Option Nat} {proc : ProcTrees}
      {rbInsertColor : BinaryTree Nat → BinaryTree Nat} (keeps : KeepsOrder rbInsertColor)
      (place : system.threads caller = .bringsThread pid newThread)
      (section' : system.shared.binderGetThreadIlocked uapi rbInsertColor pid (some newThread) =
        (thread, proc)) :
      CallStep uapi index system (.gotThread caller pid (some newThread) thread)
        (moveCaller system caller (proc.freeThreadUnless newThread thread) .idle)
  | nodeNoMemory {system : Threads ι ProcTrees Caller} {caller : ι}
      {fp : Option FlatBinderObject} (place : system.threads caller = .idle) :
      CallStep uapi index system (.gotNode caller fp none none)
        (moveCaller system caller system.shared .idle)
  | nodeAllocated {system : Threads ι ProcTrees Caller} {caller : ι}
      {fp : Option FlatBinderObject} (place : system.threads caller = .idle) :
      CallStep uapi index system (.advances caller)
        (moveCaller system caller system.shared.allocNode
          (.bringsNode fp system.shared.nodes.memory.allocated))
  | nodeInserted {system : Threads ι ProcTrees Caller} {caller : ι}
      {fp : Option FlatBinderObject} {newNode : Nat} {node : Option Nat} {proc : ProcTrees}
      {rbInsertColor : BinaryTree Nat → BinaryTree Nat} {debugId : Int32}
      (keeps : KeepsOrder rbInsertColor)
      (place : system.threads caller = .bringsNode fp newNode)
      (section' : system.shared.binderInitNodeIlocked index debugId rbInsertColor newNode fp =
        (node, proc)) :
      CallStep uapi index system (.gotNode caller fp (some newNode) node)
        (moveCaller system caller (proc.freeNodeUnless newNode node) .idle)

end Calls

end DroidKernal.Binder
