import DroidKernal.Binder.Sections
import DroidKernal.Binder.Target

/-!
# The context manager and its node

The mutex of the context keeps two threads from making a node the manager, and the weak
reference that comes with it keeps the node, whoever drops a temporary reference.
`Lawful` says how the driver follows from the places of all threads, as a multiset; every
section keeps it.
-/

namespace DroidKernal.Binder

open Lib

/-! ## What places mean -/

namespace Place

/-- Inside the mutex. -/
def critical : Place → Bool
  | checking .. | creating .. | adopting _ | leaving _ => true
  | targeting | taking _ | targeted _ => true
  | putting _ .setCtxMgr | freeing _ .setCtxMgr => true
  | _ => false

/-- Between taking a temporary reference to a node and putting it. -/
def holds (node : Nat) : Place → Bool
  | adopting held | targeted (some held) | sending held | putting held _ => held == node
  | _ => false

/-- Sure to return 0 from `binder_ioctl_set_ctx_mgr`. -/
def succeeds : Place → Bool
  | putting _ .setCtxMgr | freeing _ .setCtxMgr => true
  | leaving ret => ret == 0
  | _ => false

/-- The process whose tree is about to change. -/
def proc : Place → Option Nat
  | setting proc _ _ | checking proc _ _ | creating proc _ => some proc
  | _ => none

end Place

/-- A successful call of `binder_ioctl_set_ctx_mgr`. -/
def SectionEvent.succeeds {ι : Type*} : SectionEvent ι → Bool
  | .setReturns _ ret => ret == 0
  | _ => false

/-- A node in the tree of its process. -/
def DriverState.Linked (state : DriverState) (node : Nat) : Prop :=
  ∃ owner, owner < state.procCount ∧ (state.nodes node).proc = some owner ∧
    node ∈ (state.procs owner).nodes

/-- A node that is linked, and referenced by the thread that made it only. -/
structure DriverState.Pending (state : DriverState) (node : Nat) : Prop where
  linked : state.Linked node
  localWeak : (state.nodes node).localWeakRefs = 0
  tmp : (state.nodes node).tmpRefs = 1
  live : (state.nodes node).freed = false

/-- A node that may be the context manager, with so many temporary references. -/
structure DriverState.Manages (state : DriverState) (node : Nat) (holders : Nat) : Prop where
  linked : state.Linked node
  strong : (state.nodes node).hasStrongRef = true
  weak : (state.nodes node).hasWeakRef = true
  localWeak : (state.nodes node).localWeakRefs = 1
  tmp : (state.nodes node).tmpRefs = holders
  live : (state.nodes node).freed = false

/-- What a thread relies on where it is. -/
def Place.Fits (context : Nat) (driver : DriverState) : Place → Prop
  | creating .. => (driver.contexts context).mgrNode = none
  | adopting node => (driver.contexts context).mgrNode = none ∧ driver.Pending node
  | taking node | targeted (some node) | sending node | putting node _ =>
      (driver.contexts context).mgrNode = some node
  | freeing .. => False
  | _ => True

/-- The driver fits the places of all threads, after so many calls that succeeded. -/
structure Lawful (context successes : Nat) (guarded : Guarded) (all : Multiset Place) :
    Prop where
  opened : ∀ place ∈ all, ∀ proc, place.proc = some proc → proc < guarded.driver.procCount
  exclusive : all.countP (fun place => place.critical) = if guarded.locked then 1 else 0
  fits : ∀ place ∈ all, place.Fits context guarded.driver
  trees : (guarded.driver.contexts context).mgrNode = none →
    ∀ proc, ∀ node ∈ (guarded.driver.procs proc).nodes, .adopting node ∈ all
  manages : ∀ node, (guarded.driver.contexts context).mgrNode = some node →
    guarded.driver.Manages node (all.countP fun place => place.holds node)
  once : successes + all.countP (fun place => place.succeeds) =
    if (guarded.driver.contexts context).mgrNode.isSome then 1 else 0

/-- A change of the driver that no node and no manager takes part in. -/
structure Quiet (context : Nat) (before after : DriverState) : Prop where
  manager : (after.contexts context).mgrNode = (before.contexts context).mgrNode
  nodes : after.nodes = before.nodes
  count : before.procCount ≤ after.procCount
  kept : ∀ proc, proc < before.procCount →
    (after.procs proc).nodes = (before.procs proc).nodes
  added : ∀ proc, ∀ node ∈ (after.procs proc).nodes, node ∈ (before.procs proc).nodes

section Laws

variable {context successes : Nat} {guarded : Guarded} {driver after : DriverState}
  {others all : Multiset Place} {place next : Place}

theorem Quiet.refl : Quiet context driver driver where
  manager := rfl
  nodes := rfl
  count := Nat.le_refl _
  kept _ _ := rfl
  added _ _ linked := linked

theorem Quiet.kzalloc : Quiet context driver driver.kzalloc.2 where
  manager := rfl
  nodes := rfl
  count := Nat.le_refl _
  kept _ _ := rfl
  added _ _ linked := linked

theorem Quiet.nextId : Quiet context driver driver.nextId where
  manager := rfl
  nodes := rfl
  count := Nat.le_refl _
  kept _ _ := rfl
  added _ _ linked := linked

theorem Quiet.trans {last : DriverState} (first : Quiet context driver after)
    (second : Quiet context after last) : Quiet context driver last where
  manager := second.manager.trans first.manager
  nodes := second.nodes.trans first.nodes
  count := Nat.le_trans first.count second.count
  kept proc opened :=
    (second.kept proc (Nat.lt_of_lt_of_le opened first.count)).trans (first.kept proc opened)
  added proc node linked := first.added proc node (second.added proc node linked)

theorem Quiet.linked (quiet : Quiet context driver after) {node : Nat}
    (linked : driver.Linked node) : after.Linked node := by
  obtain ⟨owner, opened, isOwner, inTree⟩ := linked
  refine ⟨owner, Nat.lt_of_lt_of_le opened quiet.count, ?_, ?_⟩
  · rw [quiet.nodes]
    exact isOwner
  · rw [quiet.kept owner opened]
    exact inTree

theorem Quiet.pending (quiet : Quiet context driver after) {node : Nat}
    (pending : driver.Pending node) : after.Pending node where
  linked := quiet.linked pending.linked
  localWeak := by rw [quiet.nodes]; exact pending.localWeak
  tmp := by rw [quiet.nodes]; exact pending.tmp
  live := by rw [quiet.nodes]; exact pending.live

theorem Quiet.manages (quiet : Quiet context driver after) {node holders : Nat}
    (manages : driver.Manages node holders) : after.Manages node holders where
  linked := quiet.linked manages.linked
  strong := by rw [quiet.nodes]; exact manages.strong
  weak := by rw [quiet.nodes]; exact manages.weak
  localWeak := by rw [quiet.nodes]; exact manages.localWeak
  tmp := by rw [quiet.nodes]; exact manages.tmp
  live := by rw [quiet.nodes]; exact manages.live

theorem Quiet.fits (quiet : Quiet context driver after) (fits : place.Fits context driver) :
    place.Fits context after := by
  cases place with
  | adopting node => exact ⟨quiet.manager.trans fits.1, quiet.pending fits.2⟩
  | creating proc fbo => exact quiet.manager.trans fits
  | taking node => exact quiet.manager.trans fits
  | sending node => exact quiet.manager.trans fits
  | putting node putter => exact quiet.manager.trans fits
  | targeted target =>
      cases target with
      | none => trivial
      | some node => exact quiet.manager.trans fits
  | freeing node putter => exact fits
  | _ => trivial

/-- A change that no node takes part in, while all threads stay where they are. -/
theorem Lawful.quiet (lawful : Lawful context successes guarded all)
    (quiet : Quiet context guarded.driver after) :
    Lawful context successes { guarded with driver := after } all where
  opened place member proc isProc :=
    Nat.lt_of_lt_of_le (lawful.opened place member proc isProc) quiet.count
  exclusive := lawful.exclusive
  fits place member := quiet.fits (lawful.fits place member)
  trees nobody proc node inTree :=
    lawful.trees (quiet.manager.symm.trans nobody) proc node (quiet.added proc node inTree)
  manages node isManager :=
    quiet.manages (lawful.manages node (quiet.manager.symm.trans isManager))
  once := by
    rw [quiet.manager]
    exact lawful.once

/-- A thread moves, and no reference with it. -/
theorem Lawful.move (lawful : Lawful context successes guarded (others + {place})) {locked : Bool}
    {later : Nat} (opened : ∀ proc, next.proc = some proc → proc < guarded.driver.procCount)
    (exclusive : others.countP (fun place => place.critical) + (if next.critical then 1 else 0) =
      if locked then 1 else 0)
    (fits : next.Fits context guarded.driver) (notAdopting : ∀ node, place ≠ .adopting node)
    (holds : ∀ node, next.holds node = place.holds node)
    (once : later + (if next.succeeds then 1 else 0) =
      successes + if place.succeeds then 1 else 0) :
    Lawful context later ⟨guarded.driver, locked⟩ (others + {next}) where
  opened other member := by
    rcases Multiset.mem_add.mp member with old | new
    · exact lawful.opened other (Multiset.mem_add.mpr (.inl old))
    · cases Multiset.mem_singleton.mp new
      exact opened
  exclusive := by
    rw [countP_add_singleton]
    exact exclusive
  fits other member := by
    rcases Multiset.mem_add.mp member with old | new
    · exact lawful.fits other (Multiset.mem_add.mpr (.inl old))
    · cases Multiset.mem_singleton.mp new
      exact fits
  trees nobody proc node inTree := by
    rcases Multiset.mem_add.mp (lawful.trees nobody proc node inTree) with old | this
    · exact Multiset.mem_add.mpr (.inl old)
    · exact absurd (Multiset.mem_singleton.mp this).symm (notAdopting node)
  manages node isManager := by
    have before := lawful.manages node isManager
    rw [countP_add_singleton] at before ⊢
    rw [holds]
    exact before
  once := by
    have before := lawful.once
    rw [countP_add_singleton] at before ⊢
    rw [← before]
    omega

/-- A thread inside the mutex is the only one. -/
theorem Lawful.alone (lawful : Lawful context successes guarded (others + {place}))
    (critical : place.critical = true) :
    guarded.locked = true ∧ others.countP (fun place => place.critical) = 0 := by
  have exclusive := lawful.exclusive
  rw [countP_add_singleton, if_pos critical] at exclusive
  cases isLocked : guarded.locked with
  | false => simp [isLocked] at exclusive
  | true => exact ⟨rfl, by simpa [isLocked] using exclusive⟩

/-- Before there is a manager, a thread outside of the mutex relies on nothing. -/
theorem Place.Fits.outside (fits : place.Fits context driver)
    (outside : place.critical = false) (nobody : (driver.contexts context).mgrNode = none) :
    place.Fits context after ∧ ∀ node, place.holds node = false := by
  have notManager : ∀ node, (driver.contexts context).mgrNode ≠ some node := by
    intro node isManager
    cases nobody.symm.trans isManager
  cases place with
  | sending node => exact absurd fits (notManager node)
  | putting node putter => exact absurd fits (notManager node)
  | freeing node putter => exact fits.elim
  | creating proc fbo => cases outside
  | adopting node => cases outside
  | taking node => cases outside
  | targeted node => cases outside
  | _ => exact ⟨trivial, fun _ => rfl⟩

/-- The threads other than the one inside the mutex, before there is a manager. -/
theorem Lawful.others_outside (lawful : Lawful context successes guarded (others + {place}))
    (critical : place.critical = true)
    (nobody : (guarded.driver.contexts context).mgrNode = none) :
    ∀ other ∈ others, other.Fits context after ∧ ∀ node, other.holds node = false := by
  intro other member
  have outside := Multiset.countP_eq_zero.mp (lawful.alone critical).2 other member
  exact (lawful.fits other (Multiset.mem_add.mpr (.inl member))).outside
    (Bool.of_not_eq_true outside) nobody

/-- With a manager, what a thread relies on is who it is. -/
theorem Place.Fits.managed {node : Nat} (fits : place.Fits context driver)
    (isManager : (driver.contexts context).mgrNode = some node)
    (still : (after.contexts context).mgrNode = some node) : place.Fits context after := by
  have same : (after.contexts context).mgrNode = (driver.contexts context).mgrNode :=
    still.trans isManager.symm
  cases place with
  | creating proc fbo => exact same.trans fits
  | adopting node => cases isManager.symm.trans fits.1
  | taking node => exact same.trans fits
  | sending node => exact same.trans fits
  | putting node putter => exact same.trans fits
  | targeted target =>
      cases target with
      | none => trivial
      | some node => exact same.trans fits
  | freeing node putter => exact fits
  | _ => trivial

/-- A thread takes or puts a reference to the manager. -/
theorem Lawful.reference (lawful : Lawful context successes guarded (others + {place})) {node : Nat}
    (isManager : (guarded.driver.contexts context).mgrNode = some node)
    (contexts : after.contexts = guarded.driver.contexts)
    (count : after.procCount = guarded.driver.procCount)
    (keeps : ∀ before now : Nat, guarded.driver.Manages node before →
      now + (if place.holds node then 1 else 0) = before + (if next.holds node then 1 else 0) →
      after.Manages node now)
    (noProc : next.proc = none) (critical : next.critical = place.critical)
    (fits : next.Fits context after) (succeeds : next.succeeds = place.succeeds) :
    Lawful context successes ⟨after, guarded.locked⟩ (others + {next}) where
  opened other member proc isProc := by
    rcases Multiset.mem_add.mp member with old | new
    · rw [count]
      exact lawful.opened other (Multiset.mem_add.mpr (.inl old)) proc isProc
    · cases Multiset.mem_singleton.mp new
      cases noProc.symm.trans isProc
  exclusive := by
    have before := lawful.exclusive
    rw [countP_add_singleton] at before ⊢
    rw [critical]
    exact before
  fits other member := by
    rcases Multiset.mem_add.mp member with old | new
    · have before := lawful.fits other (Multiset.mem_add.mpr (.inl old))
      exact before.managed isManager (contexts ▸ isManager)
    · cases Multiset.mem_singleton.mp new
      exact fits
  trees nobody := by
    rw [contexts, isManager] at nobody
    cases nobody
  manages other isOther := by
    rw [contexts, isManager] at isOther
    cases isOther
    apply keeps _ _ (lawful.manages node isManager)
    rw [countP_add_singleton, countP_add_singleton]
    omega
  once := by
    have before := lawful.once
    rw [countP_add_singleton] at before ⊢
    rw [contexts, succeeds]
    exact before

end Laws

/-! ## What the sections do -/

section Effects

variable {uapi : BinderUapi} {context : Nat} {driver next : DriverState}

theorem binderOpen_quiet (task : Task) :
    Quiet context driver (binderOpen driver context task).state := by
  simp only [binderOpen]
  split
  next =>
    simp only [DriverState.kzalloc]
    constructor
    · rfl
    · rfl
    · exact Nat.le_succ _
    · intro proc opened
      simp only [DriverState.updateProc_other (Nat.ne_of_lt opened)]
    · intro proc node inTree
      by_cases same : proc = driver.procCount
      · cases same
        simp only [DriverState.updateProc_self] at inTree
        cases inTree
      · simpa only [DriverState.updateProc_other same] using inTree
  next => exact Quiet.kzalloc

/-- A store into a process that leaves its tree alone. -/
theorem Quiet.updateProc (quiet : Quiet context driver next) (proc : Nat)
    (change : BinderProc → BinderProc)
    (tree : (change (next.procs proc)).nodes = (next.procs proc).nodes) :
    Quiet context driver (next.updateProc proc change) := by
  have trees : ∀ other,
      ((next.updateProc proc change).procs other).nodes = (next.procs other).nodes := by
    intro other
    by_cases same : other = proc
    · cases same
      rw [DriverState.updateProc_self, tree]
    · rw [DriverState.updateProc_other same]
  constructor
  · exact quiet.manager
  · exact quiet.nodes
  · exact quiet.count
  · intro other opened
    rw [trees]
    exact quiet.kept other opened
  · intro other node inTree
    rw [trees] at inTree
    exact quiet.added other node inTree

theorem binderGetThread_quiet (proc : Nat) (pid : Int32) :
    Quiet context driver (binderGetThread uapi driver proc pid).2 := by
  simp only [binderGetThread]
  split
  next => exact Quiet.refl
  next =>
    have allocated : Quiet context driver driver.kzalloc.2 := .kzalloc
    split
    next =>
      simp only
      apply allocated.updateProc
      rfl
    next => exact allocated

/-- The tests either refuse the caller and change nothing, or find no manager. -/
theorem binderClaimContext_cases (currEuid : UInt32) {refused : Option Int}
    (done : binderClaimContext driver context currEuid = (refused, next)) :
    (∃ ret, refused = some ret ∧ ret ≠ 0 ∧ next = driver) ∨
      (refused = none ∧ (driver.contexts context).mgrNode = none ∧
        Quiet context driver next) := by
  simp only [binderClaimContext] at done
  split at done
  next =>
    cases done
    exact .inl ⟨_, rfl, by decide, rfl⟩
  next noManager =>
    have nobody : (driver.contexts context).mgrNode = none := by simpa using noManager
    split at done
    next =>
      split at done
      next =>
        cases done
        exact .inl ⟨_, rfl, by decide, rfl⟩
      next =>
        cases done
        exact .inr ⟨rfl, nobody, .refl⟩
    next =>
      cases done
      refine .inr ⟨rfl, nobody, ?_⟩
      constructor
      · rw [DriverState.updateContext_self]
      · rfl
      · exact Nat.le_refl _
      · exact fun _ _ => rfl
      · exact fun _ _ linked => linked

/-- While all trees are empty, `binder_new_node` links a new node. -/
theorem binderNewNode_cases (context : Nat) {proc : Nat} (opened : proc < driver.procCount)
    (empty : ∀ proc, (driver.procs proc).nodes = []) (fbo : Option FlatBinderObject)
    {created : Option Nat} (done : binderNewNode driver proc fbo = (created, next)) :
    (created = none ∧ Quiet context driver next) ∨
      ∃ node, created = some node ∧ next.Pending node ∧ next.contexts = driver.contexts ∧
        next.procCount = driver.procCount ∧
        ∀ owner, ∀ other ∈ (next.procs owner).nodes, other = node := by
  simp only [binderNewNode] at done
  split at done
  next =>
    have noMatch : ∀ test : Nat → Bool, (driver.procs proc).nodes.find? test = none := by
      intro test
      rw [empty, List.find?_nil]
    simp only [binderInitNodeIlocked, DriverState.kzalloc, DriverState.updateNode, noMatch,
      ne_eq, not_true_eq_false, if_false] at done
    cases done
    refine .inr ⟨_, rfl, ?_, rfl, rfl, ?_⟩
    · constructor
      · refine ⟨proc, opened, ?_, ?_⟩
        · simp [DriverState.updateProc, DriverState.nextId]
        · rw [DriverState.updateProc_self]
          exact (List.mem_orderedInsert ..).mpr (.inl rfl)
      · simp [DriverState.updateProc, DriverState.nextId, BinderNode.zeroed]
      · simp [DriverState.updateProc, DriverState.nextId, BinderNode.zeroed]
      · simp [DriverState.updateProc, DriverState.nextId, BinderNode.zeroed]
    · intro owner other inTree
      by_cases same : owner = proc
      · cases same
        rw [DriverState.updateProc_self] at inTree
        rcases (List.mem_orderedInsert ..).mp inTree with new | old
        · exact new
        · simp [DriverState.nextId, empty] at old
      · rw [DriverState.updateProc_other same] at inTree
        simp [DriverState.nextId, empty] at inTree
  next =>
    cases done
    exact .inl ⟨rfl, .kzalloc⟩

/-- The new node becomes one that can be the manager. -/
theorem DriverState.Pending.adopt {node : Nat} (pending : driver.Pending node) :
    (binderAdoptNode driver context node).Manages node 1 := by
  obtain ⟨owner, opened, isOwner, inTree⟩ := pending.linked
  constructor
  · refine ⟨owner, opened, ?_, inTree⟩
    simpa [binderAdoptNode, DriverState.updateContext] using isOwner
  · simp [binderAdoptNode, DriverState.updateContext]
  · simp [binderAdoptNode, DriverState.updateContext]
  · simp [binderAdoptNode, DriverState.updateContext, pending.localWeak]
  · simpa [binderAdoptNode, DriverState.updateContext] using pending.tmp
  · simpa [binderAdoptNode, DriverState.updateContext] using pending.live

/-- A store into a node that leaves it as the manager has to be. -/
theorem DriverState.Manages.update {node before now : Nat} (manages : driver.Manages node before)
    (change : BinderNode → BinderNode)
    (kept : change (driver.nodes node) =
      { driver.nodes node with
        localStrongRefs := (change (driver.nodes node)).localStrongRefs
        tmpRefs := now }) :
    (driver.updateNode node change).Manages node now := by
  obtain ⟨owner, opened, isOwner, inTree⟩ := manages.linked
  constructor
  · refine ⟨owner, opened, ?_, inTree⟩
    rw [DriverState.updateNode_self, kept]
    exact isOwner
  · rw [DriverState.updateNode_self, kept]
    exact manages.strong
  · rw [DriverState.updateNode_self, kept]
    exact manages.weak
  · rw [DriverState.updateNode_self, kept]
    exact manages.localWeak
  · rw [DriverState.updateNode_self, kept]
  · rw [DriverState.updateNode_self, kept]
    exact manages.live

/-- The manager is found with its process, and gets one more reference. -/
theorem DriverState.Manages.take {node holders : Nat} (manages : driver.Manages node holders) :
    ∃ owner after, binderGetNodeRefsForTxn driver node = (some owner, after) ∧
      after.contexts = driver.contexts ∧ after.procCount = driver.procCount ∧
      ∀ before, driver.Manages node before → after.Manages node (before + 1) := by
  obtain ⟨owner, _, isOwner, _⟩ := manages.linked
  refine ⟨owner, _, binderGetNodeRefsForTxn_eq isOwner, rfl, rfl, ?_⟩
  intro before manages
  have tmp : (driver.nodes node).tmpRefs + 1 = ((before + 1 : Nat) : Int) := by
    rw [manages.tmp, Nat.cast_succ]
  have kept := manages.update (fun n =>
    { n with localStrongRefs := n.localStrongRefs + 1, tmpRefs := n.tmpRefs + 1 }) (by rw [tmp])
  have quiet (state : DriverState) : Quiet 0 state
      (state.updateProc owner fun p => { p with tmpRef := p.tmpRef + 1 }) := by
    apply Quiet.refl.updateProc
    rfl
  exact (quiet _).manages kept

/-- A reference to the manager is dropped, and nothing else happens. -/
theorem DriverState.Manages.put {node holders : Nat}
    (manages : driver.Manages node (holders + 1)) :
    ∃ after, binderDecNodeTmprefLocked driver node = some (false, after) ∧
      after.contexts = driver.contexts ∧ after.procCount = driver.procCount ∧
      ∀ left, driver.Manages node (left + 1) → after.Manages node left := by
  have tmp : (driver.nodes node).tmpRefs - 1 = (holders : Int) := by
    rw [manages.tmp, Nat.cast_succ, add_sub_cancel_right]
  have notNegative : ¬ (holders : Int) < 0 := Int.not_lt.mpr (Int.natCast_nonneg _)
  refine ⟨driver.updateNode node fun n => { n with tmpRefs := n.tmpRefs - 1 }, ?_, rfl, rfl, ?_⟩
  · simp [binderDecNodeTmprefLocked, binderDecNodeNilocked, manages.localWeak, tmp, notNegative]
  · intro left manages
    have less : (driver.nodes node).tmpRefs - 1 = (left : Int) := by
      rw [manages.tmp, Nat.cast_succ, add_sub_cancel_right]
    exact manages.update _ (by simp only [less])

end Effects

/-! ## Every section keeps the law -/

section Preservation

variable {uapi : BinderUapi} {context successes : Nat} {guarded after : Guarded}
  {others : Multiset Place} {place next : Place}

/-- A thread alone inside the mutex links a new node. -/
theorem Lawful.create (lawful : Lawful context successes guarded (others + {place}))
    (critical : place.critical = true) (fails : place.succeeds = false)
    (nobody : (guarded.driver.contexts context).mgrNode = none) {driver : DriverState} {node : Nat}
    (pending : driver.Pending node) (contexts : driver.contexts = guarded.driver.contexts)
    (count : driver.procCount = guarded.driver.procCount)
    (only : ∀ owner, ∀ other ∈ (driver.procs owner).nodes, other = node) :
    Lawful context successes ⟨driver, guarded.locked⟩ (others + {.adopting node}) := by
  have stillNobody : (driver.contexts context).mgrNode = none := contexts ▸ nobody
  constructor
  · intro other member proc isProc
    rcases Multiset.mem_add.mp member with old | new
    · rw [count]
      exact lawful.opened other (Multiset.mem_add.mpr (.inl old)) proc isProc
    · cases Multiset.mem_singleton.mp new
      cases isProc
  · have before := lawful.exclusive
    rw [countP_add_singleton] at before ⊢
    rw [if_pos critical] at before
    exact before
  · intro other member
    rcases Multiset.mem_add.mp member with old | new
    · exact (lawful.others_outside critical nobody other old).1
    · cases Multiset.mem_singleton.mp new
      exact ⟨stillNobody, pending⟩
  · intro _ owner other inTree
    cases only owner other inTree
    exact Multiset.mem_add.mpr (.inr (Multiset.mem_singleton_self _))
  · intro other isManager
    cases stillNobody.symm.trans isManager
  · have before := lawful.once
    rw [countP_add_singleton, nobody, fails] at before
    rw [countP_add_singleton, stillNobody]
    exact before

/-- That thread makes its node the manager. -/
theorem Lawful.adopt {node : Nat}
    (lawful : Lawful context successes guarded (others + {.adopting node})) :
    Lawful context successes ⟨binderAdoptNode guarded.driver context node, guarded.locked⟩
      (others + {.putting node .setCtxMgr}) := by
  obtain ⟨nobody, pending⟩ := lawful.fits (.adopting node)
    (Multiset.mem_add.mpr (.inr (Multiset.mem_singleton_self _)))
  have isManager : ((binderAdoptNode guarded.driver context node).contexts context).mgrNode =
      some node := by
    simp [binderAdoptNode]
  have outside (after : DriverState) : ∀ other ∈ others,
      other.Fits context after ∧ ∀ node, other.holds node = false :=
    lawful.others_outside rfl nobody
  constructor
  · intro other member proc isProc
    rcases Multiset.mem_add.mp member with old | new
    · exact lawful.opened other (Multiset.mem_add.mpr (.inl old)) proc isProc
    · cases Multiset.mem_singleton.mp new
      cases isProc
  · have before := lawful.exclusive
    rw [countP_add_singleton] at before ⊢
    exact before
  · intro other member
    rcases Multiset.mem_add.mp member with old | new
    · exact (outside _ other old).1
    · cases Multiset.mem_singleton.mp new
      exact isManager
  · intro nobody
    cases nobody.symm.trans isManager
  · intro other isOther
    cases isManager.symm.trans isOther
    have nothing : others.countP (fun place => place.holds node = true) = 0 := by
      apply Multiset.countP_eq_zero.mpr
      intro other member
      rw [(outside guarded.driver other member).2]
      exact Bool.false_ne_true
    have one : (others + {.putting node .setCtxMgr}).countP
        (fun place => place.holds node = true) = 1 := by
      rw [countP_add_singleton, nothing]
      simp [Place.holds]
    rw [one]
    exact pending.adopt
  · have before := lawful.once
    rw [countP_add_singleton, nobody] at before
    rw [countP_add_singleton, isManager]
    simp only [Place.succeeds, Option.isSome_none, Option.isSome_some, Bool.false_eq_true,
      if_false, if_true] at before ⊢
    omega

/-- Before there is a manager, a thread inside the mutex that has not linked a node finds
all trees empty. -/
theorem Lawful.empty (lawful : Lawful context successes guarded (others + {place}))
    (critical : place.critical = true) (notAdopting : ∀ node, place ≠ .adopting node)
    (nobody : (guarded.driver.contexts context).mgrNode = none) (proc : Nat) :
    (guarded.driver.procs proc).nodes = [] := by
  apply List.eq_nil_iff_forall_not_mem.mpr
  intro node inTree
  rcases Multiset.mem_add.mp (lawful.trees nobody proc node inTree) with other | this
  · exact Multiset.countP_eq_zero.mp (lawful.alone critical).2 _ other rfl
  · exact notAdopting node (Multiset.mem_singleton.mp this).symm

/-- A thread that holds the manager is counted. -/
theorem Lawful.held {node : Nat} (lawful : Lawful context successes guarded (others + {place}))
    (isManager : (guarded.driver.contexts context).mgrNode = some node)
    (holds : place.holds node = true) :
    guarded.driver.Manages node (others.countP (fun place => place.holds node) + 1) := by
  have manages := lawful.manages node isManager
  rw [countP_add_singleton, if_pos holds] at manages
  exact manages

/-- A section of one thread. -/
theorem Lawful.after_section (lawful : Lawful context successes guarded (others + {place}))
    (done : Section context guarded place after next) :
    Lawful context successes after (others + {next}) := by
  have self : place ∈ others + {place} :=
    Multiset.mem_add.mpr (.inr (Multiset.mem_singleton_self _))
  have opened := lawful.opened place self
  have fits := lawful.fits place self
  have exclusive := lawful.exclusive
  rw [countP_add_singleton] at exclusive
  cases done with
  | lockToSet =>
      apply lawful.move
      · exact opened
      · simpa [Place.critical] using exclusive
      · trivial
      · nofun
      · exact fun _ => rfl
      · rfl
  | @refuse driver next locked proc currEuid fbo ret refused =>
      rcases binderClaimContext_cases currEuid refused with ⟨_, isRet, failed, rfl⟩ | ⟨isNone, _⟩
      · cases isRet
        apply lawful.move
        · nofun
        · exact exclusive
        · trivial
        · nofun
        · exact fun _ => rfl
        · simp [Place.succeeds, failed]
      · cases isNone
  | @claim driver next locked proc currEuid fbo claimed =>
      rcases binderClaimContext_cases currEuid claimed with ⟨_, isRet, _⟩ | ⟨_, nobody, quiet⟩
      · cases isRet
      · apply (lawful.quiet quiet).move
        · exact fun proc isProc => Nat.lt_of_lt_of_le (opened proc isProc) quiet.count
        · exact exclusive
        · exact quiet.manager.trans nobody
        · nofun
        · exact fun _ => rfl
        · rfl
  | @noMemory driver next locked proc fbo failed =>
      have empty := lawful.empty rfl nofun fits
      rcases binderNewNode_cases context (opened proc rfl) empty fbo failed with
        ⟨_, quiet⟩ | ⟨_, isNode, _⟩
      · apply (lawful.quiet quiet).move
        · nofun
        · exact exclusive
        · trivial
        · nofun
        · exact fun _ => rfl
        · rfl
      · cases isNode
  | @create driver next locked proc node fbo created =>
      have empty := lawful.empty rfl nofun fits
      rcases binderNewNode_cases context (opened proc rfl) empty fbo created with
        ⟨isNone, _⟩ | ⟨_, isNode, pending, contexts, count, only⟩
      · cases isNone
      · cases isNode
        exact lawful.create rfl rfl fits pending contexts count only
  | adopt => exact lawful.adopt
  | lockToCall =>
      apply lawful.move
      · nofun
      · simpa [Place.critical] using exclusive
      · trivial
      · nofun
      · exact fun _ => rfl
      · rfl
  | noManager nobody =>
      apply lawful.move
      · nofun
      · exact exclusive
      · trivial
      · nofun
      · exact fun _ => rfl
      · rfl
  | manager isManager =>
      apply lawful.move
      · nofun
      · exact exclusive
      · exact isManager
      · nofun
      · exact fun _ => rfl
      · rfl
  | @take driver next locked node targetProc taken =>
      obtain ⟨owner, after, found, contexts, count, keeps⟩ := (lawful.manages node fits).take
      cases found.symm.trans taken
      apply lawful.reference fits contexts count
      · intro before now manages counted
        have more : now = before + 1 := by simpa [Place.holds] using counted
        exact more ▸ keeps before manages
      · rfl
      · rfl
      · exact (congrArg BinderContext.mgrNode (congrFun contexts context)).trans fits
      · rfl
  | unlockWithoutTarget =>
      apply lawful.move
      · nofun
      · simpa [Place.critical] using (lawful.alone rfl).2
      · trivial
      · nofun
      · exact fun _ => rfl
      · rfl
  | unlockWithTarget =>
      apply lawful.move
      · nofun
      · simpa [Place.critical] using (lawful.alone rfl).2
      · exact fits
      · nofun
      · exact fun _ => rfl
      · rfl
  | @allocate driver locked node allocated =>
      have quiet : Quiet context driver driver.kzalloc.2.kzalloc.2 := Quiet.kzalloc.trans .kzalloc
      apply (lawful.quiet quiet).move
      · nofun
      · exact exclusive
      · exact fits
      · nofun
      · exact fun _ => rfl
      · rfl
  | @put driver next locked node putter freeNode dropped =>
      obtain ⟨after, done, contexts, count, keeps⟩ := (lawful.held fits (beq_self_eq_true node)).put
      cases done.symm.trans dropped
      simp only [Bool.false_eq_true, if_false]
      apply lawful.reference fits contexts count
      · intro before now manages counted
        have less : now + 1 = before := by
          cases putter with
          | setCtxMgr => simpa [Place.holds, Putter.resume] using counted
          | transaction => simpa [Place.holds, Putter.resume] using counted
        exact keeps now (less ▸ manages)
      · cases putter <;> rfl
      · cases putter <;> rfl
      · cases putter <;> trivial
      · cases putter <;> rfl
  | @bug driver locked node putter negative =>
      obtain ⟨after, done, _⟩ := (lawful.held fits (beq_self_eq_true node)).put
      cases done.symm.trans negative
  | free => exact fits.elim

end Preservation

/-! ## Interleavings -/

section Runs

variable {ι : Type*} [Fintype ι] [DecidableEq ι] {uapi : BinderUapi} {context : Nat}
  {allocation : Nat → Bool} {events later : List (SectionEvent ι)} {system next : Sections ι}

/-- The places of all threads. -/
abbrev Sections.places (system : Sections ι) : Multiset Place :=
  Threads.places system.threads

omit [DecidableEq ι] in
theorem Lawful.init : Lawful context 0 (Sections.init ι allocation).shared
    (Sections.init ι allocation).places := by
  have idle : ∀ place ∈ (Sections.init ι allocation).places, place = .idle := by
    intro place member
    obtain ⟨thread, isPlace⟩ := Threads.mem_places.mp member
    exact isPlace.symm
  constructor
  · intro place member proc isProc
    cases idle place member
    cases isProc
  · apply Multiset.countP_eq_zero.mpr
    intro place member
    cases idle place member
    nofun
  · intro place member
    cases idle place member
    trivial
  · nofun
  · nofun
  · apply (Nat.zero_add _).trans
    apply Multiset.countP_eq_zero.mpr
    intro place member
    cases idle place member
    nofun

/-- A thread gets to another place, whatever the others do. -/
theorem Lawful.advance {successes after : Nat} {thread : ι} {driver : DriverState}
    {locked : Bool} {place : Place}
    (lawful : Lawful context successes system.shared system.places)
    (moves : ∀ others, Lawful context successes system.shared (others + {system.threads thread}) →
      Lawful context after ⟨driver, locked⟩ (others + {place})) :
    Lawful context after (system.advance thread driver locked place).shared
      (system.advance thread driver locked place).places := by
  rw [Sections.places, Threads.places_eq thread] at lawful
  rw [Sections.places, Sections.advance, Threads.places_update]
  exact moves _ lawful

/-- One event of an interleaving. -/
theorem Lawful.step {successes : Nat} {event : SectionEvent ι}
    (lawful : Lawful context successes system.shared system.places)
    (taken : SectionStep uapi context system event next) :
    Lawful context (successes + if event.succeeds then 1 else 0) next.shared next.places := by
  cases taken with
  | opens task => exact lawful.quiet (binderOpen_quiet task)
  | getThread opened task => exact lawful.quiet (binderGetThread_quiet _ _)
  | @setCtxMgr thread proc opened isIdle currEuid fbo =>
      apply lawful.advance
      intro others lawful
      rw [isIdle] at lawful
      apply lawful.move
      · intro other isProc
        cases isProc
        exact opened
      · have exclusive := lawful.exclusive
        rw [countP_add_singleton] at exclusive
        exact exclusive
      · trivial
      · nofun
      · exact fun _ => rfl
      · rfl
  | @transaction thread proc opened isIdle =>
      apply lawful.advance
      intro others lawful
      rw [isIdle] at lawful
      have quiet : Quiet context system.shared.driver system.shared.driver.nextId := .nextId
      apply (lawful.quiet quiet).move
      · nofun
      · have exclusive := lawful.exclusive
        rw [countP_add_singleton] at exclusive
        exact exclusive
      · trivial
      · nofun
      · exact fun _ => rfl
      · rfl
  | advances done =>
      apply lawful.advance
      intro others lawful
      exact lawful.after_section done
  | @setReturns thread ret atEnd =>
      apply lawful.advance
      intro others lawful
      rw [atEnd] at lawful
      apply lawful.move
      · nofun
      · simpa [Place.critical] using (lawful.alone rfl).2
      · trivial
      · nofun
      · exact fun _ => rfl
      · simp [Place.succeeds, SectionEvent.succeeds]

/-- The law holds in every interleaving. -/
theorem lawful_of_run
    (reached : Run (SectionStep uapi context) (Sections.init ι allocation) events system) :
    Lawful context (events.countP fun event => event.succeeds) system.shared system.places := by
  apply reached.history_invariant (fun events system =>
    Lawful context (events.countP fun event => event.succeeds) system.shared system.places) .init
  intro events system event next lawful taken
  rw [List.countP_append, List.countP_singleton]
  exact lawful.step taken

/-- A section leaves the manager alone. -/
theorem Lawful.same_manager {successes node : Nat} {guarded after : Guarded}
    {others : Multiset Place} {place last : Place}
    (lawful : Lawful context successes guarded (others + {place}))
    (done : Section context guarded place after last)
    (isManager : (guarded.driver.contexts context).mgrNode = some node) :
    (after.driver.contexts context).mgrNode = some node := by
  have fits := lawful.fits place
    (Multiset.mem_add.mpr (.inr (Multiset.mem_singleton_self _)))
  cases done with
  | refuse refused =>
      rcases binderClaimContext_cases _ refused with ⟨_, _, _, rfl⟩ | ⟨isNone, _⟩
      · exact isManager
      · cases isNone
  | claim claimed =>
      rcases binderClaimContext_cases _ claimed with ⟨_, isRet, _⟩ | ⟨_, nobody, _⟩
      · cases isRet
      · cases nobody.symm.trans isManager
  | noMemory failed => cases isManager.symm.trans fits
  | create created => cases isManager.symm.trans fits
  | adopt => cases isManager.symm.trans fits.1
  | take taken =>
      obtain ⟨owner, after, found, contexts, _⟩ := (lawful.manages _ fits).take
      cases found.symm.trans taken
      exact (congrArg BinderContext.mgrNode (congrFun contexts context)).trans isManager
  | put dropped =>
      obtain ⟨after, done, contexts, _⟩ := (lawful.held fits (beq_self_eq_true _)).put
      cases done.symm.trans dropped
      exact (congrArg BinderContext.mgrNode (congrFun contexts context)).trans isManager
  | free => exact fits.elim
  | _ => exact isManager

/-- A manager stays the manager. -/
theorem Lawful.manager_kept {successes node : Nat}
    (lawful : Lawful context successes system.shared system.places)
    (isManager : (system.shared.driver.contexts context).mgrNode = some node)
    (continued : Run (SectionStep uapi context) system later next) :
    (next.shared.driver.contexts context).mgrNode = some node := by
  have kept : (∃ successes, Lawful context successes next.shared next.places) ∧
      (next.shared.driver.contexts context).mgrNode = some node := by
    apply continued.invariant (fun state =>
      (∃ successes, Lawful context successes state.shared state.places) ∧
        (state.shared.driver.contexts context).mgrNode = some node) ⟨⟨_, lawful⟩, isManager⟩
    rintro state event after ⟨⟨successes, lawful⟩, isManager⟩ taken
    refine ⟨⟨_, lawful.step taken⟩, ?_⟩
    cases taken with
    | opens task => exact (binderOpen_quiet task).manager.trans isManager
    | getThread opened task => exact (binderGetThread_quiet _ _).manager.trans isManager
    | @advances thread driver locked last done =>
        rw [Sections.places, Threads.places_eq thread] at lawful
        exact lawful.same_manager done isManager
    | _ => exact isManager
  exact kept.2

/-- In every interleaving at most one call makes its process the context manager; the
manager stays the same, its node stays in the tree of its process with the references
that keep it, and its temporary references are those of the operations under way. -/
theorem context_manager_kept
    (reached : Run (SectionStep uapi context) (Sections.init ι allocation) events system)
    (continued : Run (SectionStep uapi context) system later next) :
    (events.countP fun event => event.succeeds) ≤ 1 ∧
      ∀ node, (system.shared.driver.contexts context).mgrNode = some node →
        (next.shared.driver.contexts context).mgrNode = some node ∧
          system.shared.driver.Manages node
            (Finset.univ.filter fun thread => (system.threads thread).holds node = true).card := by
  have lawful := lawful_of_run reached
  constructor
  · have once := lawful.once
    split at once
    next => exact once ▸ Nat.le_add_right _ _
    next => exact Nat.le_trans (Nat.le_add_right _ _) (once ▸ Nat.zero_le 1)
  · intro node isManager
    refine ⟨lawful.manager_kept isManager continued, ?_⟩
    rw [← Threads.countP_places fun place => Place.holds node place = true]
    exact lawful.manages node isManager

end Runs

/-- One thread has become the context manager, and another one is in a transaction to it. -/
theorem context_manager_kept_called :
    ∃ (events : List (SectionEvent Bool)) (system : Sections Bool),
      Run (SectionStep linuxUapi 0) (Sections.init Bool fun _ => true) events system ∧
        (events.countP fun event => event.succeeds) = 1 ∧ system.shared.driver.Manages 0 1 := by
  let task : Task := { tgid := 100, pid := 100, euid := 1000 }
  have opened : Run (SectionStep linuxUapi 0) (Sections.init Bool fun _ => true) [.opens task] _ :=
    .single (.opens task)
  have began := opened.snoc (show SectionStep linuxUapi 0 _ (.setCtxMgr true 0 1000 none) _ from
    .setCtxMgr (by decide) rfl 1000 none)
  have locked := began.snoc (show SectionStep linuxUapi 0 _ (.advances true) _ from
    .advances .lockToSet)
  have claimed := locked.snoc (show SectionStep linuxUapi 0 _ (.advances true) _ from
    .advances (.claim rfl))
  have created := claimed.snoc (show SectionStep linuxUapi 0 _ (.advances true) _ from
    .advances (.create rfl))
  have adopted := created.snoc (show SectionStep linuxUapi 0 _ (.advances true) _ from
    .advances .adopt)
  have put := adopted.snoc (show SectionStep linuxUapi 0 _ (.advances true) _ from
    .advances (.put rfl))
  have set := put.snoc (show SectionStep linuxUapi 0 _ (.setReturns true 0) _ from
    .setReturns rfl)
  have called := set.snoc (show SectionStep linuxUapi 0 _ (.transaction false 0) _ from
    .transaction (by decide) rfl)
  have entered := called.snoc (show SectionStep linuxUapi 0 _ (.advances false) _ from
    .advances .lockToCall)
  have targeted := entered.snoc (show SectionStep linuxUapi 0 _ (.advances false) _ from
    .advances (.manager rfl))
  have taken := targeted.snoc (show SectionStep linuxUapi 0 _ (.advances false) _ from
    .advances (.take rfl))
  exact ⟨_, _, taken, rfl, ((context_manager_kept taken .nil).2 0 rfl).2⟩

end DroidKernal.Binder
