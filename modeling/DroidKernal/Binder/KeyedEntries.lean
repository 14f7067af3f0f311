import DroidKernal.Binder.ProcTrees

/-!
# One entry for each key

However the sections of `binder_get_thread` and `binder_new_node` interleave, the trees stay in
the order of their keys, and every call returns the one entry of its key.
-/

namespace DroidKernal.Binder

open Lib Lib.SearchTree

/-! ## Calls and callers -/

def heldThread : Caller → Option Nat
  | .bringsThread _ newThread => some newThread
  | _ => none

def heldNode : Caller → Option Nat
  | .bringsNode _ newNode => some newNode
  | _ => none

section Calls

variable {ι : Type*}

/-- A call of `binder_get_thread` that returned an entry. -/
def CallEvent.thread : CallEvent ι → Option (Returned Int32)
  | .gotThread _ pid newThread (some thread) => some ⟨pid, newThread, thread⟩
  | _ => none

/-- A call of `binder_new_node` that returned an entry. -/
def CallEvent.node : CallEvent ι → Option (Returned UInt64)
  | .gotNode _ fp newNode (some node) => some ⟨nodePtr fp, newNode, node⟩
  | _ => none

def returnedThreads (events : List (CallEvent ι)) : List (Returned Int32) :=
  events.filterMap CallEvent.thread

def returnedNodes (events : List (CallEvent ι)) : List (Returned UInt64) :=
  events.filterMap CallEvent.node

theorem returnedThreads_snoc (events : List (CallEvent ι)) (event : CallEvent ι) :
    returnedThreads (events ++ [event]) = returnedThreads events ++ event.thread.toList :=
  filterMap_snoc ..

theorem returnedNodes_snoc (events : List (CallEvent ι)) (event : CallEvent ι) :
    returnedNodes (events ++ [event]) = returnedNodes events ++ event.node.toList :=
  filterMap_snoc ..

/-- Both trees with what their callers hold and what the calls returned. -/
structure TreesLawful (events : List (CallEvent ι)) (system : Threads ι ProcTrees Caller) :
    Prop where
  threads : system.shared.threads.Lawful BinderThread.pid .zeroed (fun _ => 0) 0
    (heldThread ∘ system.threads) (returnedThreads events)
  nodes : system.shared.nodes.Lawful BinderNode.ptr .zeroed BinderNode.tmpRefs 1
    (heldNode ∘ system.threads) (returnedNodes events)

section Step

variable [DecidableEq ι] {uapi : BinderUapi} {index : Nat} {events : List (CallEvent ι)}
  {system next : Threads ι ProcTrees Caller} {event : CallEvent ι} {caller : ι}

theorem held_moveCaller (held : Caller → Option Nat) (system : Threads ι ProcTrees Caller)
    (caller : ι) (proc : ProcTrees) (place : Caller) :
    held ∘ (moveCaller system caller proc place).threads =
      Function.update (held ∘ system.threads) caller (held place) :=
  Function.comp_update ..

theorem held_same {held : Caller → Option Nat} {place next : Caller}
    (isPlace : system.threads caller = place) (same : held next = held place) :
    Function.update (held ∘ system.threads) caller (held next) = held ∘ system.threads := by
  rw [same, ← isPlace]
  exact Function.update_eq_self ..

theorem freeThreadUnless_threads {proc : ProcTrees} {newThread thread : Nat} :
    (proc.freeThreadUnless newThread (some thread)).threads =
      if thread ≠ newThread then
        { proc.threads with memory := proc.threads.memory.free newThread }
      else proc.threads := by
  by_cases same : thread = newThread
  · simp [ProcTrees.freeThreadUnless, same]
  · simp [ProcTrees.freeThreadUnless, same]

theorem freeThreadUnless_tree {proc : ProcTrees} {newThread : Nat} {thread : Option Nat} :
    (proc.freeThreadUnless newThread thread).threads.tree = proc.threads.tree := by
  rw [ProcTrees.freeThreadUnless]
  split <;> rfl

theorem freeThreadUnless_nodes {proc : ProcTrees} {newThread : Nat} {thread : Option Nat} :
    (proc.freeThreadUnless newThread thread).nodes = proc.nodes := by
  rw [ProcTrees.freeThreadUnless]
  split <;> rfl

theorem freeNodeUnless_nodes {proc : ProcTrees} {newNode node : Nat} :
    (proc.freeNodeUnless newNode (some node)).nodes =
      if node ≠ newNode then { proc.nodes with memory := proc.nodes.memory.free newNode }
      else proc.nodes := by
  by_cases same : node = newNode
  · simp [ProcTrees.freeNodeUnless, same]
  · simp [ProcTrees.freeNodeUnless, same]

theorem freeNodeUnless_tree {proc : ProcTrees} {newNode : Nat} {node : Option Nat} :
    (proc.freeNodeUnless newNode node).nodes.tree = proc.nodes.tree := by
  rw [ProcTrees.freeNodeUnless]
  split <;> rfl

theorem freeNodeUnless_threads {proc : ProcTrees} {newNode : Nat} {node : Option Nat} :
    (proc.freeNodeUnless newNode node).threads = proc.threads := by
  rw [ProcTrees.freeNodeUnless]
  split <;> rfl

/-- A step that does nothing to the tree of nodes and returns none of them. -/
theorem TreesLawful.sameNodes (lawful : TreesLawful events system) {proc : ProcTrees}
    {place next : Caller} (isPlace : system.threads caller = place)
    (sameHeld : heldNode next = heldNode place) (none : event.node = none)
    (same : proc.nodes = system.shared.nodes) :
    (moveCaller system caller proc next).shared.nodes.Lawful BinderNode.ptr .zeroed
      BinderNode.tmpRefs 1 (heldNode ∘ (moveCaller system caller proc next).threads)
      (returnedNodes (events ++ [event])) := by
  rw [held_moveCaller, held_same isPlace sameHeld, returnedNodes_snoc, none, Option.toList_none,
    List.append_nil, moveCaller, same]
  exact lawful.nodes

/-- A step that does nothing to the tree of threads and returns none of them. -/
theorem TreesLawful.sameThreads (lawful : TreesLawful events system) {proc : ProcTrees}
    {place next : Caller} (isPlace : system.threads caller = place)
    (sameHeld : heldThread next = heldThread place) (none : event.thread = none)
    (same : proc.threads = system.shared.threads) :
    (moveCaller system caller proc next).shared.threads.Lawful BinderThread.pid .zeroed
      (fun _ => 0) 0 (heldThread ∘ (moveCaller system caller proc next).threads)
      (returnedThreads (events ++ [event])) := by
  rw [held_moveCaller, held_same isPlace sameHeld, returnedThreads_snoc, none, Option.toList_none,
    List.append_nil, moveCaller, same]
  exact lawful.threads

/-- A section keeps both trees lawful. -/
theorem TreesLawful.step (lawful : TreesLawful events system)
    (taken : CallStep uapi index system event next) : TreesLawful (events ++ [event]) next := by
  have threads := lawful.threads
  have nodes := lawful.nodes
  cases taken with
  | threadFound keeps place section' =>
      obtain ⟨searched, sameNodes⟩ := ProcTrees.binderGetThreadIlocked_spec section'
      refine ⟨?_, lawful.sameNodes place rfl rfl sameNodes⟩
      rw [held_moveCaller, held_same place rfl, returnedThreads_snoc]
      obtain ⟨none, -⟩ | ⟨name, isSome, now⟩ := threads.lookup searched (fun _ => rfl) fun _ => rfl
      · cases none
      · cases isSome
        exact now
  | threadMissed keeps place section' =>
      obtain ⟨searched, sameNodes⟩ := ProcTrees.binderGetThreadIlocked_spec section'
      refine ⟨?_, lawful.sameNodes place rfl rfl sameNodes⟩
      obtain ⟨-, same⟩ | ⟨name, isSome, -⟩ := threads.lookup searched (fun _ => rfl) fun _ => rfl
      · exact lawful.sameThreads place rfl rfl same
      · cases isSome
  | threadNoMemory place =>
      exact ⟨lawful.sameThreads place rfl rfl rfl, lawful.sameNodes place rfl rfl rfl⟩
  | threadAllocated place =>
      refine ⟨?_, lawful.sameNodes place rfl rfl rfl⟩
      rw [held_moveCaller, returnedThreads_snoc]
      have idle : (heldThread ∘ system.threads) _ = none := congrArg heldThread place
      have now := threads.alloc idle
      rw [← List.append_nil (returnedThreads events)] at now
      exact now
  | @threadInserted caller pid newThread thread proc rbInsertColor keeps place section' =>
      obtain ⟨searched, sameNodes⟩ := ProcTrees.binderGetThreadIlocked_spec section'
      refine ⟨?_, lawful.sameNodes place rfl rfl (freeThreadUnless_nodes.trans sameNodes)⟩
      have holds : (heldThread ∘ system.threads) caller = some newThread := congrArg heldThread place
      obtain ⟨name, rfl, now⟩ :=
        threads.insert searched keeps holds (fun _ => rfl) (fun _ => rfl) rfl rfl
      rw [held_moveCaller, returnedThreads_snoc]
      show (ProcTrees.freeThreadUnless _ _ _).threads.Lawful _ _ _ _ _ _
      rw [freeThreadUnless_threads]
      exact now
  | nodeNoMemory place =>
      exact ⟨lawful.sameThreads place rfl rfl rfl, lawful.sameNodes place rfl rfl rfl⟩
  | nodeAllocated place =>
      refine ⟨lawful.sameThreads place rfl rfl rfl, ?_⟩
      rw [held_moveCaller, returnedNodes_snoc]
      have idle : (heldNode ∘ system.threads) _ = none := congrArg heldNode place
      have now := nodes.alloc idle
      rw [← List.append_nil (returnedNodes events)] at now
      exact now
  | @nodeInserted caller fp newNode node proc rbInsertColor debugId keeps place section' =>
      obtain ⟨searched, sameThreads⟩ := ProcTrees.binderInitNodeIlocked_spec section'
      refine ⟨lawful.sameThreads place rfl rfl (freeNodeUnless_threads.trans sameThreads), ?_⟩
      have holds : (heldNode ∘ system.threads) caller = some newNode := congrArg heldNode place
      obtain ⟨name, rfl, now⟩ :=
        nodes.insert searched keeps holds (fun _ => rfl) (fun _ => rfl) rfl rfl
      rw [held_moveCaller, returnedNodes_snoc]
      show (ProcTrees.freeNodeUnless _ _ _).nodes.Lawful _ _ _ _ _ _
      rw [freeNodeUnless_nodes]
      exact now

/-! ## Runs -/

/-- No entry leaves a tree. -/
theorem CallStep.grows (taken : CallStep uapi index system event next) :
    (∀ name ∈ inOrder system.shared.threads.tree, name ∈ inOrder next.shared.threads.tree) ∧
      ∀ name ∈ inOrder system.shared.nodes.tree, name ∈ inOrder next.shared.nodes.tree := by
  cases taken with
  | threadFound keeps place section' =>
      obtain ⟨searched, sameNodes⟩ := ProcTrees.binderGetThreadIlocked_spec section'
      refine ⟨fun name isIn => Table.searchOrInsert_grows keeps searched isIn, fun name isIn => ?_⟩
      rwa [moveCaller, sameNodes]
  | threadMissed keeps place section' =>
      obtain ⟨searched, sameNodes⟩ := ProcTrees.binderGetThreadIlocked_spec section'
      refine ⟨fun name isIn => Table.searchOrInsert_grows keeps searched isIn, fun name isIn => ?_⟩
      rwa [moveCaller, sameNodes]
  | threadNoMemory | threadAllocated | nodeNoMemory | nodeAllocated =>
      exact ⟨fun _ isIn => isIn, fun _ isIn => isIn⟩
  | @threadInserted caller pid newThread thread proc rbInsertColor keeps place section' =>
      obtain ⟨searched, sameNodes⟩ := ProcTrees.binderGetThreadIlocked_spec section'
      refine ⟨fun name isIn => ?_, fun name isIn => ?_⟩
      · rw [moveCaller, freeThreadUnless_tree]
        exact Table.searchOrInsert_grows keeps searched isIn
      · rwa [moveCaller, freeThreadUnless_nodes, sameNodes]
  | @nodeInserted caller fp newNode node proc rbInsertColor debugId keeps place section' =>
      obtain ⟨searched, sameThreads⟩ := ProcTrees.binderInitNodeIlocked_spec section'
      refine ⟨fun name isIn => ?_, fun name isIn => ?_⟩
      · rwa [moveCaller, freeNodeUnless_threads, sameThreads]
      · rw [moveCaller, freeNodeUnless_tree]
        exact Table.searchOrInsert_grows keeps searched isIn

/-- A call that got memory returns an entry. -/
def Answered : CallEvent ι → Prop
  | .gotThread _ _ (some _) thread => thread ≠ none
  | .gotNode _ _ (some _) node => node ≠ none
  | _ => True

theorem CallStep.answered (taken : CallStep uapi index system event next) : Answered event := by
  cases taken with
  | threadInserted keeps place section' =>
      obtain ⟨searched, -⟩ := ProcTrees.binderGetThreadIlocked_spec section'
      exact Table.searchOrInsert_some searched
  | nodeInserted keeps place section' =>
      obtain ⟨searched, -⟩ := ProcTrees.binderInitNodeIlocked_spec section'
      exact Table.searchOrInsert_some searched
  | _ => trivial

end Step

/-! ## Keys -/

end Calls

end DroidKernal.Binder
