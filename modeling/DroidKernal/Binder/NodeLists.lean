import DroidKernal.Binder.Node
import DroidKernal.Lib.ListFamily

/-!
# The lists that a node is on

The references to a node, and the lists and the tree that it is linked into, with the
pointers of the work lists as they are.  A node whose process is alive is in the tree of
that process, and one whose process is gone among the dead nodes.

Waking up a thread of the process changes none of this.
-/

namespace DroidKernal.Binder

/-- The head of a list of work: the `todo` of a process or of a thread. -/
inductive WorkList where
  | proc (proc : Nat)
  | thread (thread : Nat)
  deriving DecidableEq, Repr

/-- `struct binder_work`: that of a node, or another. -/
inductive Work where
  | node (node : Nat)
  | other (work : Nat)
  deriving DecidableEq, Repr

/-- The part of `struct binder_node` that says what refers to it. -/
structure NodeRefs where
  proc : Option Nat
  refs : List Nat
  internalStrongRefs : Int
  localWeakRefs : Int
  localStrongRefs : Int
  tmpRefs : Int
  hasStrongRef : Bool
  hasWeakRef : Bool
  freed : Bool
  deriving DecidableEq, Repr

/-- The nodes, and what they are linked into: `trees` are the `nodes` of the processes and
`deadNodes` is the list that `dead_node` is on. -/
structure NodeState where
  nodes : Nat → NodeRefs
  entries : Lib.Links (WorkList ⊕ Work)
  trees : Nat → List Nat
  deadNodes : List Nat

namespace NodeState

/-- A store into a node. -/
def updateNode (state : NodeState) (node : Nat) (change : NodeRefs → NodeRefs) : NodeState :=
  { state with nodes := Function.update state.nodes node (change (state.nodes node)) }

variable {state : NodeState} {node other : Nat} {change : NodeRefs → NodeRefs}

@[simp] theorem nodes_updateNode :
    (state.updateNode node change).nodes node = change (state.nodes node) :=
  Function.update_self _ _ _

theorem nodes_updateNode_of_ne (apart : other ≠ node) :
    (state.updateNode node change).nodes other = state.nodes other :=
  Function.update_of_ne apart _ _

/-- `binder_enqueue_work_ilocked`. -/
def binderEnqueueWorkIlocked (state : NodeState) (work : Work) (targetList : WorkList) :
    Option NodeState :=
  if state.entries.listEmpty (.inr work) then
    some { state with entries := state.entries.listAddTail (.inr work) (.inl targetList) }
  else none

/-- `binder_dequeue_work_ilocked`. -/
def binderDequeueWorkIlocked (state : NodeState) (work : Work) : NodeState :=
  { state with entries := state.entries.listDelInit (.inr work) }

/-- The end of `binder_dec_node_nilocked`, where no reference of the kind is left. -/
def letGo (state : NodeState) (node : Nat) : Option (Bool × NodeState) :=
  let n := state.nodes node
  match n.proc with
  | some proc =>
      if n.hasStrongRef ∨ n.hasWeakRef then
        if state.entries.listEmpty (.inr (.node node)) then do
          let state ← state.binderEnqueueWorkIlocked (.node node) (.proc proc)
          some (false, state)
        else some (false, state)
      else if n.refs ≠ [] ∧ n.localStrongRefs = 0 ∧ n.localWeakRefs = 0 ∧ n.tmpRefs = 0 then
        let state := state.binderDequeueWorkIlocked (.node node)
        some (true, { state with
          trees := Function.update state.trees proc ((state.trees proc).erase node) })
      else some (false, state)
  | none =>
      if n.refs ≠ [] ∧ n.localStrongRefs = 0 ∧ n.localWeakRefs = 0 ∧ n.tmpRefs = 0 then
        if ¬ state.entries.listEmpty (.inr (.node node)) then none
        -- the second look at `tmp_refs`
        else if n.tmpRefs ≠ 0 then some (false, state)
        else some (true, { state with deadNodes := state.deadNodes.erase node })
      else some (false, state)

/-- What `binder_dec_node_nilocked` does once the counter was lowered. -/
def release (state : NodeState) (node : Nat) (strong : Bool) : Option (Bool × NodeState) :=
  let n := state.nodes node
  if strong ∧ (n.localStrongRefs ≠ 0 ∨ n.internalStrongRefs ≠ 0) then some (false, state)
  else if ¬ strong ∧ (n.localWeakRefs ≠ 0 ∨ n.tmpRefs ≠ 0 ∨ n.refs ≠ []) then some (false, state)
  else state.letGo node

/-- `binder_dec_node_nilocked`: whether the caller has to free the node.  There is no result
where a `BUG_ON` stops the kernel. -/
def binderDecNodeNilocked (state : NodeState) (node : Nat) (strong internal : Bool) :
    Option (Bool × NodeState) :=
  let state :=
    if strong then
      if internal then
        state.updateNode node fun n => { n with internalStrongRefs := n.internalStrongRefs - 1 }
      else state.updateNode node fun n => { n with localStrongRefs := n.localStrongRefs - 1 }
    else if ¬ internal then
      state.updateNode node fun n => { n with localWeakRefs := n.localWeakRefs - 1 }
    else state
  state.release node strong

/-- The first half of `binder_dec_node_tmpref`. -/
def lowerTmpRefs (state : NodeState) (node : Nat) : Option NodeState :=
  let state := state.updateNode node fun n => { n with tmpRefs := n.tmpRefs - 1 }
  if (state.nodes node).tmpRefs < 0 then none else some state

/-- `binder_free_node`. -/
def binderFreeNode (state : NodeState) (node : Nat) : NodeState :=
  state.updateNode node fun n => { n with freed := true }

/-- `binder_dec_node_tmpref`. -/
def binderDecNodeTmpref (state : NodeState) (node : Nat) : Option NodeState := do
  let state ← state.lowerTmpRefs node
  let (freeNode, state) ← state.binderDecNodeNilocked node false true
  return if freeNode then state.binderFreeNode node else state

end NodeState

end DroidKernal.Binder
