import DroidKernal.Binder.Target

/-!
# The references of a transaction

`binder_get_node_refs_for_txn` takes a strong and a temporary reference to the target
node, and a temporary one to its process.  `binder_transaction` gives back the
temporary reference to the node.  The transaction holds no buffer and is on no list, so
that nothing is left which could give back the other two.
-/

namespace DroidKernal.Binder

open Lib

/-- The manager of the context of a process. -/
def DriverState.manager (state : DriverState) (proc : Nat) : Option Nat :=
  (state.contexts (state.procs proc).context).mgrNode

/-- The process of that manager. -/
def DriverState.managerProc (state : DriverState) (proc : Nat) : Option Nat :=
  (state.manager proc).bind fun node => (state.nodes node).proc

/-- The counters of `binder_get_node_refs_for_txn` have the same values.  They are integers here;
an `int` that overflows has the same value again after `2 ^ 32` transactions. -/
structure SameReferences (state next : DriverState) : Prop where
  strong : ∀ node, (next.nodes node).localStrongRefs = (state.nodes node).localStrongRefs
  tmp : ∀ node, (next.nodes node).tmpRefs = (state.nodes node).tmpRefs
  proc : ∀ proc, (next.procs proc).tmpRef = (state.procs proc).tmpRef

/-- A `BC_TRANSACTION` to handle 0 by a process whose context has a manager, where
`binder_transaction` returns. -/
inductive TransactionStep :
    DriverState → Nat × BinderTransactionData → DriverState → Prop where
  | returns {state : DriverState} {proc : Nat} {tr : BinderTransactionData}
      (opened : proc < state.procCount) (toManager : tr.handle = 0)
      (installed : state.manager proc ≠ none)
      (returned : (binderTransaction state proc tr false).fault = none) :
      TransactionStep state (proc, tr) (binderTransaction state proc tr false).state

section Counts

variable {uapi : BinderUapi} {state next : DriverState}

/-- What a transaction that returns does to the driver. -/
theorem binderTransaction_eq {proc node owner : Nat} {tr : BinderTransactionData}
    (toManager : tr.handle = 0) (isManager : state.manager proc = some node)
    (isOwner : (state.nodes node).proc = some owner) (owned : (state.nodes node).Owned)
    (returned : (binderTransaction state proc tr false).fault = none) :
    (binderTransaction state proc tr false).state =
      { state with
        lastId := state.lastId + 1
        allocations := state.allocations + 2
        nodes := Function.update state.nodes node
          { state.nodes node with
            localStrongRefs := (state.nodes node).localStrongRefs + 1 }
        procs := Function.update state.procs owner
          { state.procs owner with tmpRef := (state.procs owner).tmpRef + 1 } } := by
  have isTarget : (state.nextId.nodes node).proc = some owner := isOwner
  have found := binderGetNodeRefsForTxn_eq isTarget
  rw [DriverState.manager] at isManager
  simp only [binderTransaction, toManager, ne_eq, not_true_eq_false, or_false, Bool.false_eq_true,
    if_false, DriverState.nextId, isManager] at found returned ⊢
  rw [found] at returned ⊢
  simp only [Option.map_some] at returned ⊢
  split at returned
  next allocated =>
    simp only [allocated, if_true]
    rw [binderDecNodeTmpref_eq]
    · simp only [DriverState.kzalloc, DriverState.updateNode, DriverState.updateProc,
        Function.update_self, Function.update_idem, add_sub_cancel_right]
    · simpa [DriverState.kzalloc, DriverState.updateNode, DriverState.updateProc] using owned.weak
    · simpa [DriverState.kzalloc, DriverState.updateNode, DriverState.updateProc] using
        Int.lt_add_one_of_le owned.tmp
  next => cases returned

/-- What is left after some transactions: a strong reference to the manager and a reference
to its process for every one of them. -/
structure Leaked (state : DriverState) (commands : List (Nat × BinderTransactionData))
    (next : DriverState) : Prop where
  wellFormed : next.WellFormed
  installed : ∀ command ∈ commands, state.manager command.1 ≠ none
  manager : ∀ proc, next.manager proc = state.manager proc
  owner : ∀ node, (next.nodes node).proc = (state.nodes node).proc
  strong : ∀ node, (next.nodes node).localStrongRefs = (state.nodes node).localStrongRefs +
    commands.countP fun command => state.manager command.1 = some node
  tmp : ∀ node, (next.nodes node).tmpRefs = (state.nodes node).tmpRefs
  proc : ∀ owner, (next.procs owner).tmpRef = (state.procs owner).tmpRef +
    commands.countP fun command => state.managerProc command.1 = some owner

theorem Leaked.nil (wellFormed : state.WellFormed) : Leaked state [] state where
  wellFormed := wellFormed
  installed := nofun
  manager _ := rfl
  owner _ := rfl
  strong _ := (Int.add_zero _).symm
  tmp _ := rfl
  proc _ := (Int.add_zero _).symm

/-- One more transaction. -/
theorem Leaked.snoc {commands : List (Nat × BinderTransactionData)}
    {command : Nat × BinderTransactionData} {last : DriverState}
    (leaked : Leaked state commands next) (step : TransactionStep next command last) :
    Leaked state (commands ++ [command]) last := by
  cases step with
  | @returns proc tr opened toManager installed returned =>
      obtain ⟨node, isManager⟩ := Option.ne_none_iff_exists'.mp installed
      obtain ⟨_, linked⟩ := leaked.wellFormed.manager _ node isManager
      have owned := (leaked.wellFormed.owned _ node linked).2.2 nofun
      obtain ⟨owner, isOwner⟩ := Option.ne_none_iff_exists'.mp owned.proc
      have wasManager : state.manager proc = some node := (leaked.manager proc).symm.trans isManager
      have wasOwner : state.managerProc proc = some owner := by
        rw [DriverState.managerProc, wasManager, Option.bind_some, ← leaked.owner, isOwner]
      have after := binderTransaction_eq toManager isManager isOwner owned returned
      have wellFormed := (binderTransaction_cases leaked.wellFormed proc tr false).1
      constructor
      · exact wellFormed
      · intro other member
        rcases List.mem_append.mp member with before | new
        · exact leaked.installed other before
        · cases List.mem_singleton.mp new
          rw [← leaked.manager]
          exact installed
      · intro other
        rw [← leaked.manager, after]
        by_cases same : other = owner
        · cases same
          simp only [DriverState.manager, Function.update_self]
        · simp only [DriverState.manager, Function.update_of_ne same]
      · intro other
        rw [← leaked.owner, after]
        by_cases same : other = node
        · cases same
          simp only [Function.update_self]
        · simp only [Function.update_of_ne same]
      · intro other
        rw [List.countP_append, List.countP_singleton, after, Int.natCast_add, ← Int.add_assoc,
          ← leaked.strong]
        by_cases same : other = node
        · cases same
          simp [wasManager]
        · have notManager : node ≠ other := fun equal => same equal.symm
          simp [Function.update_of_ne same, wasManager, notManager]
      · intro other
        rw [← leaked.tmp, after]
        by_cases same : other = node
        · cases same
          simp only [Function.update_self]
        · simp only [Function.update_of_ne same]
      · intro other
        rw [List.countP_append, List.countP_singleton, after, Int.natCast_add, ← Int.add_assoc,
          ← leaked.proc]
        by_cases same : other = owner
        · cases same
          simp [wasOwner]
        · have notOwner : owner ≠ other := fun equal => same equal.symm
          simp [Function.update_of_ne same, wasOwner, notOwner]

/-- What is left after any number of transactions. -/
theorem leaked_of_run {commands : List (Nat × BinderTransactionData)}
    (wellFormed : state.WellFormed) (sent : Run TransactionStep state commands next) :
    Leaked state commands next :=
  sent.history_invariant (Leaked state) (.nil wellFormed) fun leaked step => leaked.snoc step

/-- In every reachable state, transactions to the context manager leave the counters as
they were if and only if there are none: each keeps a reference to the node and one to
its process. -/
theorem transactions_drop_references_iff {allocation : Nat → Bool} {events : List DriverEvent}
    {commands : List (Nat × BinderTransactionData)}
    (reached : Run (DriverStep uapi) (.init allocation) events state)
    (sent : Run TransactionStep state commands next) :
    SameReferences state next ↔ commands = [] := by
  have leaked := leaked_of_run (run_wellFormed reached) sent
  constructor
  · intro same
    cases commands with
    | nil => rfl
    | cons command rest =>
        have installed := leaked.installed command (List.mem_cons_self ..)
        obtain ⟨node, isManager⟩ := Option.ne_none_iff_exists'.mp installed
        have counted : 0 < (command :: rest).countP fun command =>
            decide (state.manager command.1 = some node) :=
          List.countP_pos_iff.mpr ⟨command, List.mem_cons_self .., by simpa using isManager⟩
        have strong := leaked.strong node
        rw [same.strong] at strong
        have nothing := left_eq_add.mp strong
        exact absurd (Int.ofNat_eq_zero.mp nothing) (Nat.ne_of_gt counted)
  · rintro rfl
    exact {
      strong := fun node => (leaked.strong node).trans (Int.add_zero _)
      tmp := leaked.tmp
      proc := fun owner => (leaked.proc owner).trans (Int.add_zero _) }

end Counts

/-- A transaction to handle 0 without data. -/
def emptyTransaction : BinderTransactionData :=
  linuxUapi.transactionData.decode (List.replicate 64 0)

theorem emptyTransaction_step :
    TransactionStep managedState (0, emptyTransaction)
      (binderTransaction managedState 0 emptyTransaction false).state :=
  .returns (by decide) rfl (by decide) (by decide)

/-- One transaction to the context manager. -/
theorem transactions_drop_references_one :
    ∃ next, Run TransactionStep managedState [(0, emptyTransaction)] next ∧
      ¬ SameReferences managedState next := by
  obtain ⟨events, reached⟩ := managedState_run
  have sent := Run.single emptyTransaction_step
  exact ⟨_, sent, fun same =>
    List.cons_ne_nil _ _ ((transactions_drop_references_iff reached sent).mp same)⟩

/-- After one transaction the manager has one strong reference more. -/
theorem transaction_keeps_reference :
    ¬ ∀ (events : List DriverEvent) (state : DriverState)
        (commands : List (Nat × BinderTransactionData)) (next : DriverState),
      Run (DriverStep linuxUapi) (.init fun _ => true) events state →
        Run TransactionStep state commands next → SameReferences state next := by
  intro every
  obtain ⟨events, reached⟩ := managedState_run
  have same := every events managedState _ _ reached (.single emptyTransaction_step)
  have strong : (1 : Int) + 1 = 1 := same.strong 0
  exact absurd strong (by decide)

end DroidKernal.Binder
