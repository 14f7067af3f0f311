import DroidKernal.Binder.NodeLists

/-!
# When a node goes

A node should go with the last reference to it, and not before.  The test at the end of a
decrement asks for a list of references that is not empty, where the other tests ask for
none: a node that nothing refers to stays linked, and the last strong count takes a node
away from the references on its list.  Every other decrement leaves the node as it should,
with its work on one list where user space has to drop its own reference first.
-/

namespace DroidKernal.Binder

namespace NodeRefs

/-- The process of the node is alive, and user space holds it. -/
def HeldByOwner (n : NodeRefs) : Prop :=
  n.proc.isSome ∧ (n.hasStrongRef ∨ n.hasWeakRef)

instance (n : NodeRefs) : Decidable n.HeldByOwner :=
  inferInstanceAs (Decidable (_ ∧ _))

/-- No counter is left. -/
structure Uncounted (n : NodeRefs) : Prop where
  internalStrong : n.internalStrongRefs = 0
  localStrong : n.localStrongRefs = 0
  localWeak : n.localWeakRefs = 0
  tmp : n.tmpRefs = 0

/-- Nothing refers to the node. -/
structure Unreferenced (n : NodeRefs) : Prop extends n.Uncounted where
  refs : n.refs = []
  unheld : ¬ n.HeldByOwner

/-- The code takes the node for one to free. -/
structure Goes (n : NodeRefs) (strong : Bool) : Prop extends n.Uncounted where
  strong : strong = true
  refs : n.refs ≠ []
  unheld : ¬ n.HeldByOwner

/-- No strong reference remains, or no weak one. -/
def NoneRemain (n : NodeRefs) : Bool → Prop
  | true => n.localStrongRefs = 0 ∧ n.internalStrongRefs = 0
  | false => n.localWeakRefs = 0 ∧ n.tmpRefs = 0 ∧ n.refs = []

theorem goes_iff_unreferenced_iff {n : NodeRefs} {strong : Bool} :
    (n.Goes strong ↔ n.Unreferenced) ↔
      ¬ (n.Uncounted ∧ ¬ n.HeldByOwner ∧ (n.refs = [] ∨ strong = true)) := by
  constructor
  · rintro same ⟨none, unheld, refs⟩
    by_cases empty : n.refs = []
    · exact (same.mpr ⟨none, empty, unheld⟩).refs empty
    · exact empty (same.mp ⟨none, refs.resolve_left empty, empty, unheld⟩).refs
  · intro notLast
    refine iff_of_false (fun goes => notLast ?_) fun unreferenced => notLast ?_
    · exact ⟨goes.toUncounted, goes.unheld, .inr goes.strong⟩
    · exact ⟨unreferenced.toUncounted, unreferenced.unheld, .inl unreferenced.refs⟩

end NodeRefs

namespace NodeState

/-- The node is in the tree of its process, or among the dead nodes. -/
def Linked (state : NodeState) (node : Nat) : Prop :=
  match (state.nodes node).proc with
  | some proc => node ∈ state.trees proc
  | none => node ∈ state.deadNodes

/-- The work of the node is on one list. -/
def QueuedOnce (state : NodeState) (node : Nat) : Prop :=
  ∃ lists, state.entries.HoldsAll lists ∧ ∃! list, Work.node node ∈ lists list

/-- The work lists are lists, the node is linked, and no list has work of it once its
process is gone. -/
structure Placed (state : NodeState) (node : Nat) (lists : WorkList → List Work) : Prop where
  entries : state.entries.HoldsAll lists
  linked : state.Linked node
  trees : ∀ proc, (state.trees proc).Nodup
  deadNodes : state.deadNodes.Nodup
  idle : (state.nodes node).proc = none → ∀ list, Work.node node ∉ lists list

/-- What `release` comes to. -/
structure Released (state : NodeState) (node : Nat) (strong freed : Bool) (after : NodeState) :
    Prop where
  nodes : after.nodes = state.nodes
  freed_iff : freed = true ↔ (state.nodes node).Goes strong
  linked_iff : after.Linked node ↔ freed = false
  queued : (state.nodes node).HeldByOwner → (state.nodes node).NoneRemain strong →
    after.QueuedOnce node

variable {state after : NodeState} {node : Nat} {strong freed : Bool}
  {lists : WorkList → List Work}

/-- A node that stays as it is. -/
theorem Placed.stays (placed : state.Placed node lists)
    (staying : ¬ (state.nodes node).Goes strong)
    (queued : (state.nodes node).HeldByOwner → (state.nodes node).NoneRemain strong →
      ∃ list, Work.node node ∈ lists list) : state.Released node strong false state where
  nodes := rfl
  freed_iff := iff_of_false Bool.false_ne_true staying
  linked_iff := iff_of_true placed.linked rfl
  queued held none := by
    obtain ⟨list, member⟩ := queued held none
    exact ⟨lists, placed.entries, list, member,
      fun other member' => placed.entries.apart member' member⟩

/-- Work that was on no list is on one once it was queued. -/
theorem Placed.enqueued (placed : state.Placed node lists)
    (off : ∀ list, Work.node node ∉ lists list) (target : WorkList) :
    { state with entries := state.entries.listAddTail (.inr (.node node)) (.inl target) }.QueuedOnce
      node := by
  refine ⟨_, placed.entries.listAddTail off, target, ?_, fun other member => ?_⟩
  · exact Lib.Links.HoldsAll.mem_update.mpr (.inr ⟨rfl, rfl⟩)
  · rcases Lib.Links.HoldsAll.mem_update.mp member with old | ⟨-, same⟩
    · exact absurd old (off other)
    · exact same

theorem release_of_remain (remain : ¬ (state.nodes node).NoneRemain strong) :
    state.release node strong = some (false, state) := by
  cases strong with
  | true =>
      rw [NodeRefs.NoneRemain, not_and_or] at remain
      rw [release, if_pos ⟨rfl, remain⟩]
  | false =>
      rw [NodeRefs.NoneRemain, not_and_or, not_and_or] at remain
      rw [release, if_neg (fun both => Bool.false_ne_true both.1),
        if_pos ⟨Bool.false_ne_true, remain⟩]

theorem release_of_none (none : (state.nodes node).NoneRemain strong) :
    state.release node strong = state.letGo node := by
  cases strong with
  | true =>
      rw [release, if_neg, if_neg fun both => both.1 rfl]
      rintro ⟨-, localStrong | internalStrong⟩
      · exact localStrong none.1
      · exact internalStrong none.2
  | false =>
      rw [release, if_neg fun both => Bool.false_ne_true both.1, if_neg]
      rintro ⟨-, localWeak | tmp | refs⟩
      · exact localWeak none.1
      · exact tmp none.2.1
      · exact refs none.2.2

/-- User space is told that only it refers to the node. -/
theorem Placed.letGo_held (placed : state.Placed node lists)
    (held : (state.nodes node).HeldByOwner) :
    ∃ after, state.letGo node = some (false, after) ∧
      state.Released node strong false after := by
  have staying : ¬ (state.nodes node).Goes strong := fun goes => goes.unheld held
  obtain ⟨alive, flags⟩ := held
  obtain ⟨proc, owner⟩ := Option.isSome_iff_exists.mp alive
  cases empty : state.entries.listEmpty (.inr (.node node)) with
  | true =>
      have off := placed.entries.listEmpty_iff.mp empty
      refine ⟨{ state with
        entries := state.entries.listAddTail (.inr (.node node)) (.inl (.proc proc)) }, ?_, ?_⟩
      · simp only [letGo, owner, if_pos flags, empty, binderEnqueueWorkIlocked, if_pos,
          Option.bind_eq_bind, Option.bind_some]
      · exact
          { nodes := rfl
            freed_iff := iff_of_false Bool.false_ne_true staying
            linked_iff := iff_of_true placed.linked rfl
            queued := fun _ _ => placed.enqueued off (.proc proc) }
  | false =>
      have on : ∃ list, Work.node node ∈ lists list := by
        by_contra off
        rw [placed.entries.listEmpty_iff.mpr (not_exists.mp off)] at empty
        exact Bool.false_ne_true empty.symm
      refine ⟨state, ?_, placed.stays staying fun _ _ => on⟩
      simp only [letGo, owner, if_pos flags, empty, Bool.false_eq_true, if_false]

/-- A node that goes is unlinked. -/
theorem Placed.letGo_goes (placed : state.Placed node lists)
    (goes : (state.nodes node).Goes strong) :
    ∃ after, state.letGo node = some (true, after) ∧ state.Released node strong true after := by
  have test : (state.nodes node).refs ≠ [] ∧ (state.nodes node).localStrongRefs = 0 ∧
      (state.nodes node).localWeakRefs = 0 ∧ (state.nodes node).tmpRefs = 0 :=
    ⟨goes.refs, goes.localStrong, goes.localWeak, goes.tmp⟩
  cases owner : (state.nodes node).proc with
  | some proc =>
      have flags : ¬ ((state.nodes node).hasStrongRef = true ∨
          (state.nodes node).hasWeakRef = true) :=
        fun flags => goes.unheld ⟨owner ▸ rfl, flags⟩
      refine ⟨{ state with
        entries := state.entries.listDelInit (.inr (.node node))
        trees := Function.update state.trees proc ((state.trees proc).erase node) }, ?_, ?_⟩
      · simp only [letGo, owner, if_neg flags, if_pos test, binderDequeueWorkIlocked]
      · refine ⟨rfl, iff_of_true rfl goes, iff_of_false ?_ Bool.false_ne_true.symm,
          fun held => absurd held goes.unheld⟩
        simp only [Linked, owner, Function.update_self]
        exact (placed.trees proc).not_mem_erase
  | none =>
      have empty := placed.entries.listEmpty_iff.mpr (placed.idle owner)
      refine ⟨{ state with deadNodes := state.deadNodes.erase node }, ?_, ?_⟩
      · simp only [letGo, owner]
        rw [if_pos test, if_neg (not_not_intro empty), if_neg (not_not_intro goes.tmp)]
      · refine ⟨rfl, iff_of_true rfl goes, iff_of_false ?_ Bool.false_ne_true.symm,
          fun held => absurd held goes.unheld⟩
        simp only [Linked, owner]
        exact placed.deadNodes.not_mem_erase

/-- Nothing is done to a node that neither goes nor is held. -/
theorem letGo_of_not_goes (none : (state.nodes node).NoneRemain strong)
    (unheld : ¬ (state.nodes node).HeldByOwner) (staying : ¬ (state.nodes node).Goes strong) :
    state.letGo node = some (false, state) := by
  have test : ¬ ((state.nodes node).refs ≠ [] ∧ (state.nodes node).localStrongRefs = 0 ∧
      (state.nodes node).localWeakRefs = 0 ∧ (state.nodes node).tmpRefs = 0) := by
    rintro ⟨refs, localStrong, localWeak, tmp⟩
    cases strong with
    | true => exact staying ⟨⟨none.2, localStrong, localWeak, tmp⟩, rfl, refs, unheld⟩
    | false => exact refs none.2.2
  cases owner : (state.nodes node).proc with
  | some proc =>
      have flags : ¬ ((state.nodes node).hasStrongRef = true ∨
          (state.nodes node).hasWeakRef = true) :=
        fun flags => unheld ⟨owner ▸ rfl, flags⟩
      simp only [letGo, owner, if_neg flags, if_neg test]
  | none => simp only [letGo, owner, if_neg test]

/-- Every decrement comes to a result. -/
theorem Placed.released (placed : state.Placed node lists) (strong : Bool) :
    ∃ freed after, state.release node strong = some (freed, after) ∧
      state.Released node strong freed after := by
  by_cases remain : (state.nodes node).NoneRemain strong
  · rw [release_of_none remain]
    by_cases held : (state.nodes node).HeldByOwner
    · exact ⟨false, placed.letGo_held held⟩
    · by_cases goes : (state.nodes node).Goes strong
      · exact ⟨true, placed.letGo_goes goes⟩
      · exact ⟨false, state, letGo_of_not_goes remain held goes,
          placed.stays goes fun held' => absurd held' held⟩
  · refine ⟨false, state, release_of_remain remain, placed.stays (fun goes => remain ?_)
      fun _ none => absurd none remain⟩
    obtain rfl := goes.strong
    exact ⟨goes.localStrong, goes.internalStrong⟩

end NodeState

/-- The kinds of decrement: those of `binder_dec_node_nilocked`, the last of which lowers no
counter of its own, and that of `binder_dec_node_tmpref`. -/
inductive Decrement where
  | internalStrong
  | localStrong
  | localWeak
  | internalWeak
  | tmp
  deriving DecidableEq, Repr

namespace Decrement

/-- Whether it is a strong reference that goes. -/
def strong : Decrement → Bool
  | internalStrong | localStrong => true
  | localWeak | internalWeak | tmp => false

/-- The counter to lower is positive. -/
def Positive : Decrement → NodeRefs → Prop
  | internalStrong, n => 0 < n.internalStrongRefs
  | localStrong, n => 0 < n.localStrongRefs
  | localWeak, n => 0 < n.localWeakRefs
  | internalWeak, _ => True
  | tmp, n => 0 < n.tmpRefs

/-- The counts of a node once the counter was lowered. -/
def lower : Decrement → NodeRefs → NodeRefs
  | internalStrong, n => { n with internalStrongRefs := n.internalStrongRefs - 1 }
  | localStrong, n => { n with localStrongRefs := n.localStrongRefs - 1 }
  | localWeak, n => { n with localWeakRefs := n.localWeakRefs - 1 }
  | internalWeak, n => n
  | tmp, n => { n with tmpRefs := n.tmpRefs - 1 }

/-- The decrement of a kind. -/
def run (kind : Decrement) (state : NodeState) (node : Nat) : Option (Bool × NodeState) :=
  match kind with
  | internalStrong => state.binderDecNodeNilocked node true true
  | localStrong => state.binderDecNodeNilocked node true false
  | localWeak => state.binderDecNodeNilocked node false false
  | internalWeak => state.binderDecNodeNilocked node false true
  | tmp => do
      let state ← state.lowerTmpRefs node
      state.binderDecNodeNilocked node false true

/-- A decrement frees the node exactly when nothing refers to it any more.  A node that is
not freed stays linked, with its work queued where only user space refers to it. -/
structure FreesExactly (kind : Decrement) (node : Nat) (freed : Bool) (after : NodeState) :
    Prop where
  freed_iff : freed = true ∧ ¬ after.Linked node ↔ (after.nodes node).Unreferenced
  linked : freed = false → after.Linked node
  queued : freed = false → (after.nodes node).HeldByOwner →
    (after.nodes node).NoneRemain kind.strong → after.QueuedOnce node

/-- What the decrement takes is all that is counted, user space holds nothing, and it is a
strong count or the node has no references. -/
structure TakesLast (kind : Decrement) (n : NodeRefs) : Prop where
  internalStrong : n.internalStrongRefs = if kind = .internalStrong then 1 else 0
  localStrong : n.localStrongRefs = if kind = .localStrong then 1 else 0
  localWeak : n.localWeakRefs = if kind = .localWeak then 1 else 0
  tmp : n.tmpRefs = if kind = .tmp then 1 else 0
  unheld : ¬ n.HeldByOwner
  kind : n.refs = [] ∨ kind.strong = true

variable {kind : Decrement} {n : NodeRefs} {state : NodeState} {node : Nat}
  {lists : WorkList → List Work}

@[simp] theorem lower_proc : (kind.lower n).proc = n.proc := by
  cases kind <;> rfl

@[simp] theorem lower_refs : (kind.lower n).refs = n.refs := by
  cases kind <;> rfl

theorem heldByOwner_lower : (kind.lower n).HeldByOwner ↔ n.HeldByOwner := by
  cases kind <;> rfl

/-- The counters are gone once all that was counted was taken. -/
theorem uncounted_lower : (kind.lower n).Uncounted ↔
    (n.internalStrongRefs = if kind = .internalStrong then 1 else 0) ∧
      (n.localStrongRefs = if kind = .localStrong then 1 else 0) ∧
        (n.localWeakRefs = if kind = .localWeak then 1 else 0) ∧
          n.tmpRefs = if kind = .tmp then 1 else 0 := by
  have counted : (kind.lower n).Uncounted ↔ (kind.lower n).internalStrongRefs = 0 ∧
      (kind.lower n).localStrongRefs = 0 ∧ (kind.lower n).localWeakRefs = 0 ∧
        (kind.lower n).tmpRefs = 0 :=
    ⟨fun none => ⟨none.1, none.2, none.3, none.4⟩,
      fun none => ⟨none.1, none.2.1, none.2.2.1, none.2.2.2⟩⟩
  rw [counted]
  cases kind <;> simp only [lower, reduceCtorEq, if_true, if_false, sub_eq_zero]

theorem takesLast_iff : kind.TakesLast n ↔
    (kind.lower n).Uncounted ∧ ¬ (kind.lower n).HeldByOwner ∧
      ((kind.lower n).refs = [] ∨ kind.strong = true) := by
  rw [uncounted_lower, heldByOwner_lower, lower_refs]
  constructor
  · intro last
    exact ⟨⟨last.internalStrong, last.localStrong, last.localWeak, last.tmp⟩, last.unheld,
      last.kind⟩
  · rintro ⟨⟨internalStrong, localStrong, localWeak, tmp⟩, unheld, refs⟩
    exact ⟨internalStrong, localStrong, localWeak, tmp, unheld, refs⟩

theorem run_eq (positive : kind.Positive (state.nodes node)) :
    kind.run state node = (state.updateNode node kind.lower).release node kind.strong := by
  cases kind with
  | internalStrong => rfl
  | localStrong => rfl
  | localWeak => rfl
  | internalWeak =>
      have unchanged : state.updateNode node internalWeak.lower = state := by
        rw [NodeState.updateNode, lower, Function.update_eq_self]
      rw [unchanged]
      rfl
  | tmp =>
      have counted : ¬ ((state.updateNode node tmp.lower).nodes node).tmpRefs < 0 := by
        rw [NodeState.nodes_updateNode, lower]
        exact not_lt.mpr (Int.sub_nonneg.mpr positive)
      rw [run, NodeState.lowerTmpRefs]
      exact congrArg (Option.bind · _) (if_neg counted)

/-- Where the node is linked and queued does not depend on its counters. -/
theorem placed_lower (placed : state.Placed node lists) :
    (state.updateNode node kind.lower).Placed node lists where
  entries := placed.entries
  linked := by
    have linked := placed.linked
    rw [NodeState.Linked] at linked ⊢
    rw [NodeState.nodes_updateNode, lower_proc]
    exact linked
  trees := placed.trees
  deadNodes := placed.deadNodes
  idle gone := by
    rw [NodeState.nodes_updateNode, lower_proc] at gone
    exact placed.idle gone

/-- A temporary reference is a weak one, and so its end frees no node. -/
theorem binderDecNodeTmpref_keeps (placed : state.Placed node lists)
    (positive : tmp.Positive (state.nodes node)) :
    ∃ after, state.binderDecNodeTmpref node = some after ∧ after.Linked node ∧
      (after.nodes node).freed = (state.nodes node).freed := by
  have lowered : (state.updateNode node tmp.lower).Placed node lists := placed_lower placed
  obtain ⟨freed, after, release, released⟩ := lowered.released false
  have run : tmp.run state node = some (freed, after) := (run_eq positive).trans release
  have kept : freed = false := by
    rw [Bool.eq_false_iff]
    exact fun isFreed => Bool.false_ne_true (released.freed_iff.mp isFreed).strong
  subst kept
  refine ⟨after, ?_, released.linked_iff.mpr rfl, ?_⟩
  · rw [Decrement.run, Option.bind_eq_bind, Option.bind_eq_some_iff] at run
    obtain ⟨lowered, lower, dec⟩ := run
    rw [NodeState.binderDecNodeTmpref, lower, Option.bind_eq_bind, Option.bind_some, dec]
    rfl
  · rw [released.nodes, NodeState.nodes_updateNode, lower]

/-- Once a counter was lowered, all depends on what the code takes for a node to free. -/
theorem freesExactly_iff {freed : Bool} {after : NodeState}
    (released : state.Released node kind.strong freed after) :
    kind.FreesExactly node freed after ↔
      ((state.nodes node).Goes kind.strong ↔ (state.nodes node).Unreferenced) := by
  have unlinked : freed = true ∧ ¬ after.Linked node ↔ (state.nodes node).Goes kind.strong := by
    rw [released.linked_iff, ← released.freed_iff, Bool.not_eq_false, and_self]
  constructor
  · intro exactly
    rw [← unlinked, ← released.nodes]
    exact exactly.freed_iff
  · intro same
    refine ⟨?_, released.linked_iff.mpr, fun _ held none => ?_⟩
    · rw [unlinked, released.nodes]
      exact same
    · rw [released.nodes] at held none
      exact released.queued held none

/-- A decrement frees the node exactly when it should, unless what it takes is all that is
counted. -/
theorem frees_exactly_iff (placed : state.Placed node lists)
    (positive : kind.Positive (state.nodes node)) :
    (∃ freed after, kind.run state node = some (freed, after) ∧
      kind.FreesExactly node freed after) ↔ ¬ kind.TakesLast (state.nodes node) := by
  obtain ⟨freed, after, run, released⟩ := (placed_lower placed).released kind.strong
  have exactly := freesExactly_iff released
  rw [NodeState.nodes_updateNode] at exactly
  rw [run_eq positive, takesLast_iff, ← NodeRefs.goes_iff_unreferenced_iff, ← exactly, run]
  constructor
  · rintro ⟨freed, after, same, exactly⟩
    cases same
    exact exactly
  · exact fun exactly => ⟨freed, after, rfl, exactly⟩

/-- A node that nothing refers to. -/
def owned : NodeRefs where
  proc := some 0
  refs := []
  internalStrongRefs := 0
  localWeakRefs := 0
  localStrongRefs := 0
  tmpRefs := 0
  hasStrongRef := false
  hasWeakRef := false
  freed := false

/-- A living process with one node, and no work anywhere. -/
def sole (n : NodeRefs) : NodeState where
  nodes _ := n
  entries := ⟨id, id⟩
  trees _ := [0]
  deadNodes := []

theorem placed_sole (owner : n.proc = some 0) : (sole n).Placed 0 fun _ => [] where
  entries := .nothing
  linked := by
    rw [NodeState.Linked, sole, owner]
    exact List.mem_cons_self
  trees _ := List.nodup_singleton 0
  deadNodes := List.nodup_nil
  idle _ _ := List.not_mem_nil

/-- The last count goes while user space holds the node. -/
theorem frees_exactly_held : ∃ freed after,
    localWeak.run (sole { owned with localWeakRefs := 1, hasWeakRef := true }) 0 =
      some (freed, after) ∧ localWeak.FreesExactly 0 freed after := by
  have positive : localWeak.Positive { owned with localWeakRefs := 1, hasWeakRef := true } :=
    Int.zero_lt_one
  have notLast : ¬ localWeak.TakesLast { owned with localWeakRefs := 1, hasWeakRef := true } :=
    fun last => last.unheld ⟨rfl, .inr rfl⟩
  exact (frees_exactly_iff (placed_sole rfl) positive).mpr notLast

/-- The last count goes, nothing refers to the node, and it stays. -/
theorem keeps_unreferenced :
    (sole { owned with tmpRefs := 1 }).Placed 0 (fun _ => []) ∧
      tmp.Positive ((sole { owned with tmpRefs := 1 }).nodes 0) ∧
        ¬ ∃ freed after, tmp.run (sole { owned with tmpRefs := 1 }) 0 = some (freed, after) ∧
          tmp.FreesExactly 0 freed after := by
  refine ⟨placed_sole rfl, Int.zero_lt_one, ?_⟩
  rintro ⟨freed, after, run, exactly⟩
  cases run
  have unreferenced : owned.Unreferenced := ⟨⟨rfl, rfl, rfl, rfl⟩, rfl, by decide⟩
  exact Bool.false_ne_true (exactly.freed_iff.mpr unreferenced).1

end Decrement

end DroidKernal.Binder
