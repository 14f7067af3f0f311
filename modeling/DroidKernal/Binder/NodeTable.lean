import DroidKernal.Binder.NodeLists

/-!
# The lists behind the table of nodes

The table of the driver keeps of the work lists only which nodes are queued and in what
order on each process, and nothing of the dead nodes.  A decrement does the same to the table
as to the lists behind it.
-/

namespace DroidKernal.Binder

namespace DriverState

variable {table : DriverState} {node proc : Nat} {change : BinderNode → BinderNode}
  {change' : BinderProc → BinderProc}

@[simp] theorem nodes_updateNode : (table.updateNode node change).nodes =
    Function.update table.nodes node (change (table.nodes node)) := rfl

@[simp] theorem procs_updateNode : (table.updateNode node change).procs = table.procs := rfl

@[simp] theorem nodes_updateProc : (table.updateProc proc change').nodes = table.nodes := rfl

@[simp] theorem procs_updateProc : (table.updateProc proc change').procs =
    Function.update table.procs proc (change' (table.procs proc)) := rfl

end DriverState

/-- What the table says of the references to a node. -/
def BinderNode.nodeRefs (node : BinderNode) : NodeRefs where
  proc := node.proc
  refs := node.refs
  internalStrongRefs := node.internalStrongRefs
  localWeakRefs := node.localWeakRefs
  localStrongRefs := node.localStrongRefs
  tmpRefs := node.tmpRefs
  hasStrongRef := node.hasStrongRef
  hasWeakRef := node.hasWeakRef
  freed := node.freed

/-- The node whose work this is. -/
def Work.ofNode : Work → Option Nat
  | node index => some index
  | other _ => none

theorem filterMap_erase (works : List Work) (node : Nat) :
    (works.erase (.node node)).filterMap Work.ofNode =
      (works.filterMap Work.ofNode).erase node := by
  induction works with
  | nil => rfl
  | cons work works ih =>
      cases work with
      | node index =>
          by_cases same : index = node
          · subst same
            simp only [List.erase_cons_head, List.filterMap_cons, Work.ofNode]
          · have differ : (Work.node index == Work.node node) = false :=
              beq_eq_false_iff_ne.mpr fun equal => same (Work.node.inj equal)
            have differ' : (index == node) = false := beq_eq_false_iff_ne.mpr same
            simp only [List.erase_cons, differ, differ', List.filterMap_cons, Work.ofNode, ih,
              Bool.false_eq_true, if_false]
      | other index =>
          have differ : (Work.other index == Work.node node) = false :=
            beq_eq_false_iff_ne.mpr Work.noConfusion
          simp only [List.erase_cons, differ, List.filterMap_cons, Work.ofNode, ih,
            Bool.false_eq_true, if_false]

namespace NodeState

/-- A table, and the lists behind it. -/
structure Behind (state : NodeState) (lists : WorkList → List Work) (table : DriverState) :
    Prop where
  entries : state.entries.HoldsAll lists
  nodes : ∀ node, state.nodes node = (table.nodes node).nodeRefs
  queued : ∀ node, (table.nodes node).queued = true ↔ ∃ list, Work.node node ∈ lists list
  trees : ∀ proc, state.trees proc = (table.procs proc).nodes
  home : ∀ {node proc}, Work.node node ∈ lists (.proc proc) → (state.nodes node).proc = some proc
  todo : ∀ proc, (lists (.proc proc)).filterMap Work.ofNode = (table.procs proc).todo

/-- Both come to the same. -/
inductive Agree : Option (Bool × NodeState) → Option (Bool × DriverState) → Prop
  | stopped : Agree none none
  | done {state : NodeState} {lists : WorkList → List Work} {table : DriverState} (freed : Bool)
      (behind : state.Behind lists table) : Agree (some (freed, state)) (some (freed, table))

variable {state : NodeState} {lists : WorkList → List Work} {table : DriverState} {node : Nat}

namespace Behind

variable (behind : state.Behind lists table)

include behind

theorem updateNode {change : NodeRefs → NodeRefs} {change' : BinderNode → BinderNode}
    (same : ∀ n, change n.nodeRefs = (change' n).nodeRefs)
    (kept : ∀ n, (change' n).queued = n.queued) (owner : ∀ n, (change n).proc = n.proc) :
    (state.updateNode node change).Behind lists (table.updateNode node change') := by
  refine ⟨behind.entries, fun other => ?_, fun other => ?_, behind.trees,
    fun {other proc} member => ?_, behind.todo⟩
  · rw [DriverState.nodes_updateNode]
    by_cases isNode : other = node
    · subst isNode
      rw [nodes_updateNode, Function.update_self, behind.nodes, same]
    · rw [nodes_updateNode_of_ne isNode, Function.update_of_ne isNode, behind.nodes]
  · rw [DriverState.nodes_updateNode, ← behind.queued other]
    by_cases isNode : other = node
    · subst isNode
      rw [Function.update_self, kept]
    · rw [Function.update_of_ne isNode]
  · rw [← behind.home member]
    by_cases isNode : other = node
    · subst isNode
      rw [nodes_updateNode, owner]
    · rw [nodes_updateNode_of_ne isNode]

theorem listEmpty : state.entries.listEmpty (.inr (.node node)) = !(table.nodes node).queued := by
  rw [Bool.eq_iff_iff, behind.entries.listEmpty_iff, Bool.not_eq_true', ← Bool.not_eq_true,
    behind.queued, not_exists]

/-- What refers to the nodes does not depend on their work. -/
theorem nodes_queued (queued : Bool) (other : Nat) : state.nodes other =
    (Function.update table.nodes node { table.nodes node with queued } other).nodeRefs := by
  rw [behind.nodes]
  by_cases isNode : other = node
  · subst isNode
    rw [Function.update_self]
    rfl
  · rw [Function.update_of_ne isNode]

theorem enqueue {proc : Nat} (owner : (state.nodes node).proc = some proc)
    (empty : (table.nodes node).queued = false) :
    NodeState.Behind
      { state with entries := state.entries.listAddTail (.inr (.node node)) (.inl (.proc proc)) }
      (Function.update lists (.proc proc) (lists (.proc proc) ++ [.node node]))
      ((table.updateNode node fun n => { n with queued := true }).updateProc proc fun p =>
        { p with todo := p.todo ++ [node] }) := by
  have off : ∀ list, Work.node node ∉ lists list := by
    intro list member
    rw [(behind.queued node).mpr ⟨list, member⟩] at empty
    exact Bool.false_ne_true empty.symm
  refine ⟨behind.entries.listAddTail off, behind.nodes_queued true, fun other => ?_,
    fun other => ?_, fun {other proc'} member => ?_, fun other => ?_⟩
  · rw [DriverState.nodes_updateProc, DriverState.nodes_updateNode]
    simp only [Lib.Links.HoldsAll.mem_update]
    by_cases isNode : other = node
    · subst isNode
      rw [Function.update_self]
      exact iff_of_true rfl ⟨.proc proc, .inr ⟨rfl, rfl⟩⟩
    · have differ : Work.node other ≠ .node node := fun same => isNode (Work.node.inj same)
      simp only [Function.update_of_ne isNode, differ, false_and, or_false, behind.queued]
  · rw [DriverState.procs_updateProc, DriverState.procs_updateNode]
    by_cases same : other = proc
    · subst same
      rw [Function.update_self]
      exact behind.trees other
    · rw [Function.update_of_ne same]
      exact behind.trees other
  · rcases Lib.Links.HoldsAll.mem_update.mp member with old | ⟨isNode, same⟩
    · exact behind.home old
    · rw [Work.node.inj isNode, WorkList.proc.inj same]
      exact owner
  · rw [DriverState.procs_updateProc, DriverState.procs_updateNode]
    by_cases same : other = proc
    · subst same
      rw [Function.update_self, Function.update_self, List.filterMap_append, behind.todo]
      rfl
    · have differ : WorkList.proc other ≠ .proc proc := fun equal => same (WorkList.proc.inj equal)
      rw [Function.update_of_ne differ, Function.update_of_ne same]
      exact behind.todo other

theorem dequeue {proc : Nat} (owner : (state.nodes node).proc = some proc) :
    NodeState.Behind
      { state with
        entries := state.entries.listDelInit (.inr (.node node))
        trees := Function.update state.trees proc ((state.trees proc).erase node) }
      (fun list => (lists list).erase (.node node))
      ((table.updateNode node fun n => { n with queued := false }).updateProc proc fun p =>
        { p with todo := p.todo.erase node, nodes := p.nodes.erase node }) := by
  refine ⟨behind.entries.listDelInit, behind.nodes_queued false, fun other => ?_,
    fun other => ?_, fun member => behind.home (List.mem_of_mem_erase member), fun other => ?_⟩
  · rw [DriverState.nodes_updateProc, DriverState.nodes_updateNode]
    by_cases isNode : other = node
    · subst isNode
      rw [Function.update_self]
      refine iff_of_false Bool.false_ne_true ?_
      rintro ⟨list, member⟩
      exact (behind.entries.nodup list).not_mem_erase member
    · have differ : Work.node other ≠ .node node := fun same => isNode (Work.node.inj same)
      simp only [Function.update_of_ne isNode, List.mem_erase_of_ne differ, behind.queued]
  · rw [DriverState.procs_updateProc, DriverState.procs_updateNode]
    by_cases same : other = proc
    · subst same
      simp only [Function.update_self, behind.trees]
    · simp only [Function.update_of_ne same, behind.trees]
  · rw [DriverState.procs_updateProc, DriverState.procs_updateNode]
    by_cases same : other = proc
    · subst same
      rw [Function.update_self, filterMap_erase, behind.todo]
    · have elsewhere : Work.node node ∉ lists (.proc other) := fun member =>
        same (Option.some.inj ((behind.home member).symm.trans owner))
      rw [Function.update_of_ne same, List.erase_of_not_mem elsewhere, behind.todo]

end Behind

/-- A decrement does the same to the table as to the lists behind it. -/
theorem Behind.binderDecNodeNilocked (behind : state.Behind lists table) (node : Nat)
    (strong internal : Bool) :
    Agree (state.binderDecNodeNilocked node strong internal)
      (Binder.binderDecNodeNilocked table node strong internal) := by
  unfold NodeState.binderDecNodeNilocked Binder.binderDecNodeNilocked
  extract_lets +onlyGivenNames state' table' n
  have behind' : state'.Behind lists table' := by
    cases strong with
    | true =>
        cases internal with
        | true =>
            simp only [state', table', if_true]
            exact behind.updateNode (fun _ => rfl) (fun _ => rfl) fun _ => rfl
        | false =>
            simp only [state', table', if_true, Bool.false_eq_true, if_false]
            exact behind.updateNode (fun _ => rfl) (fun _ => rfl) fun _ => rfl
    | false =>
        cases internal with
        | true => exact behind
        | false =>
            simp only [state', table', Bool.false_eq_true, if_false, not_false_eq_true, if_true]
            exact behind.updateNode (fun _ => rfl) (fun _ => rfl) fun _ => rfl
  have counts : state'.nodes node = n.nodeRefs := behind'.nodes node
  have empty : state'.entries.listEmpty (.inr (.node node)) = !n.queued := behind'.listEmpty
  clear_value state' table'
  unfold release letGo
  simp only [counts, BinderNode.nodeRefs]
  by_cases strongRemain : strong = true ∧ (n.localStrongRefs ≠ 0 ∨ n.internalStrongRefs ≠ 0)
  · rw [if_pos strongRemain, if_pos strongRemain]
    exact .done false behind'
  rw [if_neg strongRemain, if_neg strongRemain]
  by_cases weakRemain : ¬ strong = true ∧
      (n.localWeakRefs ≠ 0 ∨ n.tmpRefs ≠ 0 ∨ n.refs ≠ [])
  · rw [if_pos weakRemain, if_pos weakRemain]
    exact .done false behind'
  rw [if_neg weakRemain, if_neg weakRemain]
  cases owner : n.proc with
  | some proc =>
      have owner' : (state'.nodes node).proc = some proc :=
        (congrArg NodeRefs.proc counts).trans owner
      simp only
      by_cases flags : n.hasStrongRef = true ∨ n.hasWeakRef = true
      · rw [if_pos flags, if_pos flags]
        cases queued : n.queued with
        | true =>
            rw [queued] at empty
            simp only [empty, Bool.not_true, Bool.false_eq_true, if_false, if_true]
            exact .done false behind'
        | false =>
            rw [queued] at empty
            simp only [binderEnqueueWorkIlocked, empty, Bool.not_false, Bool.false_eq_true,
              if_false, if_true]
            exact .done false (behind'.enqueue owner' queued)
      · rw [if_neg flags, if_neg flags]
        by_cases goes : n.refs ≠ [] ∧ n.localStrongRefs = 0 ∧ n.localWeakRefs = 0 ∧ n.tmpRefs = 0
        · rw [if_pos goes, if_pos goes]
          exact .done true (behind'.dequeue owner')
        · rw [if_neg goes, if_neg goes]
          exact .done false behind'
  | none =>
      simp only
      by_cases goes : n.refs ≠ [] ∧ n.localStrongRefs = 0 ∧ n.localWeakRefs = 0 ∧ n.tmpRefs = 0
      · rw [if_pos goes, if_pos goes]
        cases queued : n.queued with
        | true =>
            rw [queued] at empty
            simp only [empty, Bool.not_true, Bool.false_eq_true, not_false_eq_true, if_true]
            exact .stopped
        | false =>
            rw [queued] at empty
            simp only [empty, Bool.not_false, not_true, if_false, Bool.false_eq_true, goes.2.2.2,
              ne_eq]
            exact .done true { behind' with }
      · rw [if_neg goes, if_neg goes]
        exact .done false behind'

end NodeState

end DroidKernal.Binder
