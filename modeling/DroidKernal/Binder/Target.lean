import DroidKernal.Binder.Driver

/-!
# The target of a transaction

`binder_transaction` reads through `target_node`, `target_proc` and the new
transaction without a test.  In a reachable state these pointers are good for one
kind of command only.
-/

namespace DroidKernal.Binder

open Lib

namespace DriverState

variable {state : DriverState}

@[simp] theorem updateNode_self (node : Nat) (change : BinderNode → BinderNode) :
    (state.updateNode node change).nodes node = change (state.nodes node) :=
  Function.update_self ..

theorem updateNode_other {node other : Nat} (differ : other ≠ node)
    (change : BinderNode → BinderNode) :
    (state.updateNode node change).nodes other = state.nodes other :=
  Function.update_of_ne differ ..

@[simp] theorem updateProc_self (proc : Nat) (change : BinderProc → BinderProc) :
    (state.updateProc proc change).procs proc = change (state.procs proc) :=
  Function.update_self ..

theorem updateProc_other {proc other : Nat} (differ : other ≠ proc)
    (change : BinderProc → BinderProc) :
    (state.updateProc proc change).procs other = state.procs other :=
  Function.update_of_ne differ ..

@[simp] theorem updateContext_self (context : Nat) (change : BinderContext → BinderContext) :
    (state.updateContext context change).contexts context = change (state.contexts context) :=
  Function.update_self ..

theorem updateContext_other {context other : Nat} (differ : other ≠ context)
    (change : BinderContext → BinderContext) :
    (state.updateContext context change).contexts other = state.contexts other :=
  Function.update_of_ne differ ..

end DriverState

/-- A node that its process owns and that is kept alive by a weak reference. -/
structure BinderNode.Owned (node : BinderNode) : Prop where
  proc : node.proc ≠ none
  weak : 0 < node.localWeakRefs
  tmp : 0 ≤ node.tmpRefs

/-- What holds while a new node is set up: a tree belongs to an open process and
holds owned nodes only, except for the `pending` one, and every context manager is
in a tree. -/
structure DriverState.WellFormedBut (pending : Option Nat) (state : DriverState) : Prop where
  owned : ∀ proc, ∀ node ∈ (state.procs proc).nodes,
    proc < state.procCount ∧ node < state.nodeCount ∧
      (pending ≠ some node → (state.nodes node).Owned)
  manager : ∀ context node, (state.contexts context).mgrNode = some node →
    ∃ proc, node ∈ (state.procs proc).nodes

/-- What holds between the sections of the driver. -/
abbrev DriverState.WellFormed (state : DriverState) : Prop := state.WellFormedBut none

namespace DriverState.WellFormedBut

variable {state : DriverState} {pending : Option Nat}

theorem init (allocation : Nat → Bool) : (DriverState.init allocation).WellFormed where
  owned := by simp [DriverState.init]
  manager := by simp [DriverState.init]

theorem kzalloc (wellFormed : state.WellFormedBut pending) :
    state.kzalloc.2.WellFormedBut pending where
  owned := wellFormed.owned
  manager := wellFormed.manager

theorem nextId (wellFormed : state.WellFormedBut pending) :
    state.nextId.WellFormedBut pending where
  owned := wellFormed.owned
  manager := wellFormed.manager

/-- A store into a process that leaves its tree alone. -/
theorem updateProc (wellFormed : state.WellFormedBut pending) (proc : Nat)
    (change : BinderProc → BinderProc)
    (tree : (change (state.procs proc)).nodes = (state.procs proc).nodes) :
    (state.updateProc proc change).WellFormedBut pending := by
  have trees : ∀ other,
      ((state.updateProc proc change).procs other).nodes = (state.procs other).nodes := by
    intro other
    by_cases same : other = proc
    · subst same
      rw [DriverState.updateProc_self, tree]
    · rw [DriverState.updateProc_other same]
  constructor
  · intro other node linked
    rw [trees] at linked
    exact wellFormed.owned other node linked
  · intro context node isManager
    obtain ⟨owner, linked⟩ := wellFormed.manager context node isManager
    exact ⟨owner, (trees owner).symm ▸ linked⟩

/-- A new process with an empty tree. -/
theorem addProc (wellFormed : state.WellFormedBut pending) (fresh : BinderProc)
    (empty : fresh.nodes = []) :
    DriverState.WellFormedBut pending
      (({ state with procCount := state.procCount + 1 } : DriverState).updateProc state.procCount
        fun _ => fresh) := by
  constructor
  · intro proc node linked
    by_cases same : proc = state.procCount
    · subst same
      simp [empty] at linked
    · rw [DriverState.updateProc_other same] at linked
      obtain ⟨opened, rest⟩ := wellFormed.owned proc node linked
      exact ⟨Nat.lt_succ_of_lt opened, rest⟩
  · intro context node isManager
    obtain ⟨owner, linked⟩ := wellFormed.manager context node isManager
    have opened := (wellFormed.owned owner node linked).1
    refine ⟨owner, ?_⟩
    rw [DriverState.updateProc_other (Nat.ne_of_lt opened)]
    exact linked

/-- A store into a node that leaves it owned. -/
theorem updateNode (wellFormed : state.WellFormedBut pending) (node : Nat)
    (change : BinderNode → BinderNode)
    (keeps : (state.nodes node).Owned → (change (state.nodes node)).Owned) :
    (state.updateNode node change).WellFormedBut pending where
  owned := by
    intro proc other linked
    obtain ⟨opened, bound, owned⟩ := wellFormed.owned proc other linked
    refine ⟨opened, bound, ?_⟩
    by_cases same : other = node
    · subst same
      rw [DriverState.updateNode_self]
      exact fun settled => keeps (owned settled)
    · rwa [DriverState.updateNode_other same]
  manager := wellFormed.manager

/-- The store that completes the pending node. -/
theorem settle {node : Nat} (wellFormed : state.WellFormedBut (some node))
    (change : BinderNode → BinderNode) (owned : (change (state.nodes node)).Owned) :
    (state.updateNode node change).WellFormed where
  owned := by
    intro proc other linked
    obtain ⟨opened, bound, others⟩ := wellFormed.owned proc other linked
    refine ⟨opened, bound, fun _ => ?_⟩
    by_cases same : other = node
    · subst same
      rwa [DriverState.updateNode_self]
    · rw [DriverState.updateNode_other same]
      apply others
      intro equal
      exact same (Option.some.inj equal).symm
  manager := wellFormed.manager

/-- A store into a context: its manager stays, or becomes a node of some tree. -/
theorem updateContext (wellFormed : state.WellFormedBut pending) (context : Nat)
    (change : BinderContext → BinderContext)
    (manager : ∀ node, (change (state.contexts context)).mgrNode = some node →
      (state.contexts context).mgrNode = some node ∨ ∃ proc, node ∈ (state.procs proc).nodes) :
    (state.updateContext context change).WellFormedBut pending where
  owned := wellFormed.owned
  manager := by
    intro other node isManager
    by_cases same : other = context
    · subst same
      rw [DriverState.updateContext_self] at isManager
      rcases manager node isManager with before | linked
      · exact wellFormed.manager other node before
      · exact linked
    · rw [DriverState.updateContext_other same] at isManager
      exact wellFormed.manager other node isManager

/-- A new number for a node. -/
theorem addNode (wellFormed : state.WellFormedBut pending) :
    DriverState.WellFormedBut pending
      ({ state with nodeCount := state.nodeCount + 1 } : DriverState) where
  owned := by
    intro proc node linked
    obtain ⟨opened, bound, owned⟩ := wellFormed.owned proc node linked
    exact ⟨opened, Nat.lt_succ_of_lt bound, owned⟩
  manager := wellFormed.manager

/-- A store into a node that is in no tree. -/
theorem updateUnlinked (wellFormed : state.WellFormedBut pending) (node : Nat)
    (change : BinderNode → BinderNode) (unlinked : ∀ proc, node ∉ (state.procs proc).nodes) :
    (state.updateNode node change).WellFormedBut pending where
  owned := by
    intro proc other linked
    have differ : other ≠ node := by
      intro same
      exact unlinked proc (same ▸ linked)
    rw [DriverState.updateNode_other differ]
    exact wellFormed.owned proc other linked
  manager := wellFormed.manager

/-- A node is linked into the tree of an open process. -/
theorem link (wellFormed : state.WellFormed) {proc node : Nat} (opened : proc < state.procCount)
    (bound : node < state.nodeCount) (change : BinderProc → BinderProc)
    (linked : ∀ other, other ∈ (change (state.procs proc)).nodes ↔
      other = node ∨ other ∈ (state.procs proc).nodes) :
    (state.updateProc proc change).WellFormedBut (some node) := by
  constructor
  · intro owner other inTree
    by_cases same : owner = proc
    · subst same
      rw [DriverState.updateProc_self, linked] at inTree
      rcases inTree with rfl | before
      · exact ⟨opened, bound, fun differs => absurd rfl differs⟩
      · obtain ⟨_, otherBound, owned⟩ := wellFormed.owned owner other before
        exact ⟨opened, otherBound, fun _ => owned nofun⟩
    · rw [DriverState.updateProc_other same] at inTree
      obtain ⟨ownerOpened, otherBound, owned⟩ := wellFormed.owned owner other inTree
      exact ⟨ownerOpened, otherBound, fun _ => owned nofun⟩
  · intro context other isManager
    obtain ⟨owner, before⟩ := wellFormed.manager context other isManager
    refine ⟨owner, ?_⟩
    by_cases same : owner = proc
    · subst same
      rw [DriverState.updateProc_self, linked]
      exact .inr before
    · rwa [DriverState.updateProc_other same]

/-- Nothing is pending in a well-formed state. -/
theorem weaken (wellFormed : state.WellFormed) (node : Nat) :
    state.WellFormedBut (some node) where
  owned := by
    intro proc other linked
    obtain ⟨opened, bound, owned⟩ := wellFormed.owned proc other linked
    exact ⟨opened, bound, fun _ => owned nofun⟩
  manager := wellFormed.manager

end DriverState.WellFormedBut

section Steps

variable {uapi : BinderUapi} {state : DriverState}

/-- While a node has a weak reference, dropping a temporary one does nothing else. -/
theorem binderDecNodeTmpref_eq {node : Nat} (weak : 0 < (state.nodes node).localWeakRefs)
    (held : 0 < (state.nodes node).tmpRefs) :
    binderDecNodeTmpref state node =
      some (state.updateNode node fun n => { n with tmpRefs := n.tmpRefs - 1 }) := by
  have notNegative : ¬ (state.nodes node).tmpRefs - 1 < 0 := by omega
  have kept : (state.nodes node).localWeakRefs ≠ 0 := Int.ne_of_gt weak
  simp [binderDecNodeTmpref, binderDecNodeNilocked, notNegative, kept]

theorem binderOpen_wellFormed (wellFormed : state.WellFormed) (context : Nat) (task : Task) :
    (binderOpen state context task).state.WellFormed := by
  rw [binderOpen]
  simp only
  split
  next => exact wellFormed.kzalloc.addProc _ rfl
  next => exact wellFormed.kzalloc

theorem binderGetThread_wellFormed (wellFormed : state.WellFormed) (proc : Nat) (pid : Int32) :
    (binderGetThread uapi state proc pid).2.WellFormed := by
  rw [binderGetThread]
  split
  next => exact wellFormed
  next =>
    simp only
    split
    next =>
      simp only
      apply wellFormed.kzalloc.updateProc
      rfl
    next => exact wellFormed.kzalloc

theorem binderGetNodeRefsForTxn_eq {node target : Nat}
    (isTarget : (state.nodes node).proc = some target) :
    binderGetNodeRefsForTxn state node =
      (some target,
        (state.updateNode node fun n =>
          { n with localStrongRefs := n.localStrongRefs + 1, tmpRefs := n.tmpRefs + 1 }).updateProc
          target fun p => { p with tmpRef := p.tmpRef + 1 }) := by
  simp [binderGetNodeRefsForTxn, isTarget, binderIncNodeNilocked, DriverState.updateNode]

/-- In a well-formed state the context manager is found and referenced. -/
theorem binderGetNodeRefsForTxn_manager (wellFormed : state.WellFormed) {context node : Nat}
    (isManager : (state.contexts context).mgrNode = some node) :
    ∃ target next, binderGetNodeRefsForTxn state node = (some target, next) ∧ next.WellFormed ∧
      next.allocation = state.allocation ∧ next.allocations = state.allocations ∧
      0 < (next.nodes node).localWeakRefs ∧ 0 < (next.nodes node).tmpRefs := by
  obtain ⟨owner, linked⟩ := wellFormed.manager context node isManager
  have owned := (wellFormed.owned owner node linked).2.2 nofun
  obtain ⟨target, isTarget⟩ := Option.ne_none_iff_exists'.mp owned.proc
  have weak := owned.weak
  have tmp := owned.tmp
  refine ⟨target, _, binderGetNodeRefsForTxn_eq isTarget, ?_, rfl, rfl, ?_, ?_⟩
  · apply DriverState.WellFormedBut.updateProc
    · apply wellFormed.updateNode
      intro _
      exact { proc := owned.proc, weak, tmp := Int.le_add_one tmp }
    · rfl
  · simpa [DriverState.updateProc] using weak
  · simpa [DriverState.updateProc] using Int.lt_add_one_of_le tmp

/-- The outcomes of a transaction in a well-formed state. -/
theorem binderTransaction_cases (wellFormed : state.WellFormed) (proc : Nat)
    (tr : BinderTransactionData) (reply : Bool) :
    (binderTransaction state proc tr reply).state.WellFormed ∧
      (binderTransaction state proc tr reply).fault ≠ some .bug ∧
      ((binderTransaction state proc tr reply).fault = none ↔
        reply = false ∧ tr.handle = 0 ∧
          (state.contexts (state.procs proc).context).mgrNode ≠ none ∧
          state.allocation state.allocations = true) := by
  by_cases elsewhere : reply = true ∨ tr.handle ≠ 0
  · -- no target is looked up
    have notMet : ¬ (reply = false ∧ tr.handle = 0) := by
      rintro ⟨isTransaction, toManager⟩
      rcases elsewhere with isReply | other
      · rw [isTransaction] at isReply
        cases isReply
      · exact other toManager
    simp only [binderTransaction, if_pos elsewhere]
    refine ⟨wellFormed.nextId, by cases reply <;> simp, ?_⟩
    constructor
    · intro isNone
      cases isNone
    · rintro ⟨isTransaction, toManager, _⟩
      exact absurd ⟨isTransaction, toManager⟩ notMet
  · cases isManager : (state.contexts (state.procs proc).context).mgrNode with
    | none =>
        simp only [binderTransaction, if_neg elsewhere, DriverState.nextId, isManager]
        exact ⟨wellFormed.nextId, by cases reply <;> simp, by simp⟩
    | some node =>
        obtain ⟨target, next, found, nextWellFormed, allocation, allocations, weak, tmp⟩ :=
          binderGetNodeRefsForTxn_manager wellFormed.nextId isManager
        have dropped : binderDecNodeTmpref next.kzalloc.2.kzalloc.2 node = some _ :=
          binderDecNodeTmpref_eq weak tmp
        have outcome : next.kzalloc.1 = state.allocation state.allocations := by
          rw [DriverState.kzalloc, allocation, allocations]
          rfl
        simp only [binderTransaction, if_neg elsewhere, DriverState.nextId, isManager] at found ⊢
        rw [found]
        simp only [Option.map_some, dropped, outcome]
        cases allocated : state.allocation state.allocations with
        | false => exact ⟨nextWellFormed.kzalloc, by simp, by simp⟩
        | true =>
            simp only [if_true]
            refine ⟨?_, by simp, by simp_all⟩
            apply nextWellFormed.kzalloc.kzalloc.updateNode
            intro owned
            exact { proc := owned.proc, weak := owned.weak, tmp := Int.le_sub_one_of_lt tmp }

/-- The node that `binder_new_node` returns, in a tree and referenced once. -/
structure DriverState.Fresh (state : DriverState) (proc node : Nat) : Prop where
  wellFormed : state.WellFormedBut (some node)
  linked : node ∈ (state.procs proc).nodes
  proc : (state.nodes node).proc ≠ none
  weak : 0 ≤ (state.nodes node).localWeakRefs
  tmp : 0 < (state.nodes node).tmpRefs

/-- A store into another node, one that is in no tree. -/
theorem DriverState.Fresh.updateUnlinked {proc node other : Nat} (fresh : state.Fresh proc node)
    (change : BinderNode → BinderNode) (differs : node ≠ other)
    (unlinked : ∀ owner, other ∉ (state.procs owner).nodes) :
    (state.updateNode other change).Fresh proc node where
  wellFormed := fresh.wellFormed.updateUnlinked other change unlinked
  linked := fresh.linked
  proc := by
    rw [DriverState.updateNode_other differs]
    exact fresh.proc
  weak := by
    rw [DriverState.updateNode_other differs]
    exact fresh.weak
  tmp := by
    rw [DriverState.updateNode_other differs]
    exact fresh.tmp

theorem binderInitNodeIlocked_fresh (wellFormed : state.WellFormed) {proc newNode : Nat}
    (opened : proc < state.procCount) (bound : newNode < state.nodeCount)
    (unlinked : ∀ owner, newNode ∉ (state.procs owner).nodes)
    (zeroed : state.nodes newNode = .zeroed) (fp : Option FlatBinderObject) :
    let result := binderInitNodeIlocked state proc newNode fp
    result.2.Fresh proc result.1 ∧
      (result.1 ≠ newNode → ∀ owner, newNode ∉ (result.2.procs owner).nodes) := by
  simp only [binderInitNodeIlocked]
  split
  next node found =>
    have linked := List.mem_of_find?_eq_some found
    have owned := (wellFormed.owned proc node linked).2.2 nofun
    refine ⟨?_, fun _ => unlinked⟩
    simp only
    constructor
    · apply DriverState.WellFormedBut.weaken
      apply wellFormed.updateNode
      intro owned
      exact { proc := owned.proc, weak := owned.weak, tmp := Int.le_add_one owned.tmp }
    · exact linked
    · rw [DriverState.updateNode_self]
      exact owned.proc
    · rw [DriverState.updateNode_self]
      exact Int.le_of_lt owned.weak
    · rw [DriverState.updateNode_self]
      exact Int.lt_add_one_of_le owned.tmp
  next =>
    refine ⟨?_, fun differs => absurd rfl differs⟩
    simp only
    constructor
    · apply DriverState.WellFormedBut.link
      · exact wellFormed.nextId.updateUnlinked newNode _ unlinked
      · exact opened
      · exact bound
      · intro other
        exact List.mem_orderedInsert ..
    · rw [DriverState.updateProc_self]
      exact (List.mem_orderedInsert ..).mpr (.inl rfl)
    · simp [DriverState.updateProc]
    · simp [DriverState.updateProc, DriverState.nextId, zeroed, BinderNode.zeroed]
    · simp [DriverState.updateProc, DriverState.nextId, zeroed, BinderNode.zeroed]

theorem binderNewNode_fresh (wellFormed : state.WellFormed) {proc : Nat}
    (opened : proc < state.procCount) (fp : Option FlatBinderObject) :
    match binderNewNode state proc fp with
    | (none, next) => next.WellFormed
    | (some node, next) => next.Fresh proc node := by
  simp only [binderNewNode]
  cases state.kzalloc.1 with
  | false => exact wellFormed.kzalloc
  | true =>
      have unlinked : ∀ owner, state.nodeCount ∉ (state.procs owner).nodes := by
        intro owner linked
        exact Nat.lt_irrefl _ (wellFormed.owned owner _ linked).2.1
      obtain ⟨fresh, unused⟩ := binderInitNodeIlocked_fresh
        (wellFormed.kzalloc.addNode.updateUnlinked state.nodeCount (fun _ => .zeroed) unlinked)
        opened (Nat.lt_succ_self _) unlinked (DriverState.updateNode_self ..) fp
      simp only [if_true]
      split
      next differs => exact fresh.updateUnlinked _ differs (unused differs)
      next => exact fresh

theorem binderSetCtxMgrNode_wellFormed (wellFormed : state.WellFormed) {proc : Nat}
    (opened : proc < state.procCount) (context : Nat) (fbo : Option FlatBinderObject) :
    (binderSetCtxMgrNode state proc context fbo).state.WellFormed := by
  have new := binderNewNode_fresh wellFormed opened fbo
  rw [binderSetCtxMgrNode]
  split
  next next isNone =>
    rw [isNone] at new
    exact new
  next node next isSome =>
    rw [isSome] at new
    simp only at new ⊢
    have weak := new.weak
    have tmp := new.tmp
    rw [binderDecNodeTmpref_eq]
    · simp only
      apply DriverState.WellFormedBut.updateNode
      · apply DriverState.WellFormedBut.updateContext
        · apply new.wellFormed.settle
          exact { proc := new.proc, weak := Int.lt_add_one_of_le weak, tmp := Int.le_of_lt tmp }
        · intro other isManager
          cases isManager
          exact .inr ⟨proc, new.linked⟩
      · intro owned
        exact {
          proc := owned.proc
          weak := owned.weak
          tmp := by
            simpa [DriverState.updateContext] using Int.le_sub_one_of_lt tmp }
    · simpa [DriverState.updateContext] using Int.lt_add_one_of_le weak
    · simpa [DriverState.updateContext] using tmp

theorem binderIoctlSetCtxMgr_wellFormed (wellFormed : state.WellFormed) {proc : Nat}
    (opened : proc < state.procCount) (currEuid : UInt32) (fbo : Option FlatBinderObject) :
    (binderIoctlSetCtxMgr state proc currEuid fbo).state.WellFormed := by
  simp only [binderIoctlSetCtxMgr]
  split
  next => exact wellFormed
  next =>
    split
    next =>
      split
      next => exact wellFormed
      next => exact binderSetCtxMgrNode_wellFormed wellFormed opened _ fbo
    next =>
      have claimed : (state.updateContext (state.procs proc).context fun c =>
          { c with mgrUid := currEuid }).WellFormed :=
        wellFormed.updateContext _ _ fun node isManager => .inl isManager
      exact binderSetCtxMgrNode_wellFormed claimed opened _ fbo

theorem binderGetThread_procCount (state : DriverState) (proc : Nat) (pid : Int32) :
    (binderGetThread uapi state proc pid).2.procCount = state.procCount := by
  simp only [binderGetThread]
  split
  next => rfl
  next => split <;> rfl

theorem binderIoctl_wellFormed (wellFormed : state.WellFormed) {proc : Nat}
    (opened : proc < state.procCount) (task : Task) (command : IoctlCommand) :
    (binderIoctl uapi state proc task command).state.WellFormed := by
  have found : (binderGetThread uapi state proc task.pid).2.WellFormed :=
    binderGetThread_wellFormed wellFormed proc task.pid
  have stillOpened : proc < (binderGetThread uapi state proc task.pid).2.procCount := by
    rwa [binderGetThread_procCount]
  rw [binderIoctl]
  split
  next next isNone =>
    rw [isNone] at found
    exact found
  next thread next isSome =>
    rw [isSome] at found stillOpened
    cases command with
    | writeRead memory bwr =>
        cases bwr with
        | none => exact found
        | some bwr =>
            apply binderIoctlWriteRead_preserves DriverState.WellFormed
            · intro state before tr reply
              exact (binderTransaction_cases before proc tr reply).1
            · exact found
    | setContextMgr => exact binderIoctlSetCtxMgr_wellFormed found stillOpened task.euid none
    | setContextMgrExt fbo =>
        cases fbo with
        | none => exact found
        | some fbo => exact binderIoctlSetCtxMgr_wellFormed found stillOpened task.euid (some fbo)
    | other ret => exact found

/-- Every reachable state is well formed. -/
theorem run_wellFormed {allocation : Nat → Bool} {events : List DriverEvent}
    (run : Run (DriverStep uapi) (.init allocation) events state) : state.WellFormed := by
  apply run.invariant DriverState.WellFormed (DriverState.WellFormedBut.init allocation)
  intro state event next wellFormed step
  cases step with
  | opens context task => exact binderOpen_wellFormed wellFormed context task
  | ioctl opened task command => exact binderIoctl_wellFormed wellFormed opened task command
  | getThread opened task => exact binderGetThread_wellFormed wellFormed _ task.pid
  | transaction opened tr reply => exact (binderTransaction_cases wellFormed _ tr reply).1

/-- In every reachable state, and for every command of any process,
`binder_transaction` reads through no null pointer if and only if the command is a
`BC_TRANSACTION` to handle 0, the context of the process has a manager, and the
allocation of the transaction succeeds. -/
theorem transaction_target_iff {allocation : Nat → Bool} {events : List DriverEvent}
    (run : Run (DriverStep uapi) (.init allocation) events state) (proc : Nat)
    (tr : BinderTransactionData) (reply : Bool) :
    (binderTransaction state proc tr reply).fault ≠ some .bug ∧
      ((binderTransaction state proc tr reply).fault = none ↔
        reply = false ∧ tr.handle = 0 ∧
          (state.contexts (state.procs proc).context).mgrNode ≠ none ∧
          state.allocation state.allocations = true) :=
  (binderTransaction_cases (run_wellFormed run) proc tr reply).2

end Steps

/-- The driver after a process has opened the device, while memory lasts. -/
def openedState : DriverState :=
  (binderOpen (.init fun _ => true) 0 { tgid := 100, pid := 100, euid := 1000 }).state

/-- The driver after that process has also become the context manager. -/
def managedState : DriverState :=
  (binderIoctl linuxUapi openedState 0 { tgid := 100, pid := 100, euid := 1000 }
    .setContextMgr).state

theorem openedState_run :
    ∃ events, Run (DriverStep linuxUapi) (.init fun _ => true) events openedState :=
  ⟨_, .single (.opens _ 0 _)⟩

theorem managedState_run :
    ∃ events, Run (DriverStep linuxUapi) (.init fun _ => true) events managedState :=
  ⟨_, (Run.single (.opens _ 0 _)).snoc (.ioctl (by decide) _ .setContextMgr)⟩

/-- A transaction to the context manager finds its target. -/
theorem transaction_to_manager :
    let tr := linuxUapi.transactionData.decode (List.replicate 64 0)
    (binderTransaction managedState 0 tr false).fault = none := by
  intro tr
  obtain ⟨events, run⟩ := managedState_run
  exact (transaction_target_iff run 0 tr false).2.mpr ⟨rfl, by decide, by decide, rfl⟩

/-- A transaction to handle 0 before there is a context manager, and a reply after
it is there. -/
theorem transaction_without_target :
    let tr := linuxUapi.transactionData.decode (List.replicate 64 0)
    (∃ events, Run (DriverStep linuxUapi) (.init fun _ => true) events openedState) ∧
      (binderTransaction openedState 0 tr false).fault = some .nullTargetNode ∧
      (∃ events, Run (DriverStep linuxUapi) (.init fun _ => true) events managedState) ∧
      (binderTransaction managedState 0 tr true).fault = some .nullTargetProc :=
  ⟨openedState_run, by decide, managedState_run, by decide⟩

end DroidKernal.Binder
