import DroidKernal.Binderfs.DeviceMemory

/-!
# Who has a device

A device has its first reference from a task that creates or evicts it or from its inode, and
further ones from the processes that opened it.  What holds of the heap and of the place of
each task, and which changes of the devices, the names and the inodes keep it.
-/

namespace DroidKernal.Binderfs

open Lib

/-! ## What the tasks rely on -/

/-- Who has the first reference to a device. -/
inductive Holder (ι : Type*) where
  | task (i : ι)
  | inode (inode : Nat)
  | nobody

namespace DevicePc

/-- The device that the task has in hand. -/
def device : DevicePc → Option Nat
  | newInode _ device | kmemdup _ device _ | store device _ _ | instantiate _ device _ _
  | kfreeName device _ _ | kfreeDevice device _ | drop device | evictName device
  | evictDevice device => some device
  | idle | load _ | count _ _ | evict _ => none

/-- The inode whose reference the task has. -/
def inode : DevicePc → Option Nat
  | kmemdup _ _ inode | store _ inode _ | instantiate _ _ inode _ | evict inode => some inode
  | kfreeName _ inode _ | kfreeDevice _ inode => inode
  | idle | newInode _ _ | load _ | count _ _ | drop _ | evictName _ | evictDevice _ => none

/-- The name that is not stored yet. -/
def name : DevicePc → Option Nat
  | store _ _ name => some name
  | _ => none

end DevicePc

section Heap

variable {ι R : Type*}

namespace DeviceHeap

/-- The device of a task, which no process has opened. -/
structure Mine (heap : DeviceHeap ι R) (holder : Nat → Holder ι) (i : ι) (device : Nat)
    (name : Option Nat) : Prop where
  holder : holder device = .task i
  live : heap.devices.Live device
  unopened : device ∉ heap.contexts
  name : (heap.devices.block device).contextName = name

/-- An inode that is not in the directory yet. -/
structure Fresh (heap : DeviceHeap ι R) (i : ι) (iFop : FileOperations) (inode : Nat) : Prop where
  live : heap.inodes.Live inode
  block : heap.inodes.block inode = ⟨iFop, none, some i, [], 0⟩

/-- A name is there, and was copied for the device. -/
def Named (heap : DeviceHeap ι R) (device : Nat) (name : Option Nat) : Prop :=
  ∀ text, name = some text → heap.names.Live text ∧ heap.names.block text = device

/-- A name was freed, if there was one. -/
def Unnamed (heap : DeviceHeap ι R) (name : Option Nat) : Prop :=
  ∀ text, name = some text → text ∈ heap.names.freed

/-- The references to a device are those of the processes and one more. -/
def Counted (refcount : Refcount R) (heap : DeviceHeap ι R) (device : Nat) : Prop :=
  (heap.devices.block device).ref = refcount.inc^[heap.contexts.count device] refcount.one

/-- A device with all that it needs. -/
structure Complete (refcount : Refcount R) (heap : DeviceHeap ι R) (device : Nat) : Prop where
  live : heap.devices.Live device
  counted : heap.Counted refcount device
  named : heap.Named device (heap.devices.block device).contextName

/-- A task is in `binder_open` of an inode. -/
structure Opens (heap : DeviceHeap ι R) (i : ι) (inode : Nat) : Prop where
  live : heap.inodes.Live inode
  isOpening : i ∈ (heap.inodes.block inode).opening
  isDevice : (heap.inodes.block inode).iFop = .binderFops

end DeviceHeap

/-- What a task relies on, by where it is. -/
def DevicePc.Fine (refcount : Refcount R) (holder : Nat → Holder ι) (heap : DeviceHeap ι R)
    (i : ι) : DevicePc → Prop
  | .idle => True
  | .newInode _ device => heap.Mine holder i device none
  | .kmemdup iFop device inode => heap.Mine holder i device none ∧ heap.Fresh i iFop inode
  | .store device inode name =>
      heap.Mine holder i device none ∧ heap.Fresh i .binderFops inode ∧
        heap.Named device (some name)
  | .instantiate iFop device inode name =>
      heap.Mine holder i device name ∧ heap.Fresh i iFop inode ∧ heap.Named device name ∧
        (heap.devices.block device).ref = refcount.one ∧ (iFop = .binderFops ↔ name ≠ none)
  | .kfreeName device inode name =>
      heap.Mine holder i device name ∧ heap.Named device name ∧
        ∀ made, inode = some made → ∃ iFop, heap.Fresh i iFop made
  | .kfreeDevice device inode =>
      (∃ name, heap.Mine holder i device name ∧ heap.Unnamed name) ∧
        ∀ made, inode = some made → ∃ iFop, heap.Fresh i iFop made
  | .load inode => heap.Opens i inode
  | .count inode device =>
      heap.Opens i inode ∧ (heap.inodes.block inode).iPrivate = some device
  | .evict inode => heap.inodes.Live inode ∧ (heap.inodes.block inode).task = some i
  | .drop device => holder device = .task i ∧ heap.Complete refcount device
  | .evictName device => ∃ name, heap.Mine holder i device name ∧ heap.Named device name
  | .evictDevice device => ∃ name, heap.Mine holder i device name ∧ heap.Unnamed name

/-- What holds of the heap. -/
structure DeviceHeap.Fine (refcount : Refcount R) (holder : Nat → Holder ι)
    (heap : DeviceHeap ι R) : Prop where
  devices : heap.devices.Sane
  names : heap.names.Sane
  inodes : heap.inodes.Sane
  held : ∀ inode device, heap.inodes.Live inode →
    (heap.inodes.block inode).iPrivate = some device →
      holder device = .inode inode ∧ heap.Complete refcount device ∧
        ((heap.inodes.block inode).iFop = .binderFops →
          (heap.devices.block device).contextName ≠ none)
  entry : ∀ inode, heap.inodes.Live inode → (heap.inodes.block inode).task = none →
    (heap.inodes.block inode).iPrivate ≠ none
  closed : ∀ inode, heap.inodes.Live inode → (heap.inodes.block inode).task ≠ none →
    (heap.inodes.block inode).opening = [] ∧ (heap.inodes.block inode).files = 0
  contexts : ∀ device ∈ heap.contexts, heap.devices.Live device ∧
    (heap.devices.block device).contextName ≠ none ∧
      heap.Named device (heap.devices.block device).contextName

/-- Nothing is lost. -/
structure DeviceSystem.Kept (holder : Nat → Holder ι) (system : DeviceSystem ι R) : Prop where
  task : ∀ device i, system.shared.devices.Live device → holder device = .task i →
    (system.threads i).device = some device
  inode : ∀ device inode, system.shared.devices.Live device → holder device = .inode inode →
    system.shared.inodes.Live inode ∧
      (system.shared.inodes.block inode).iPrivate = some device
  nobody : ∀ device, system.shared.devices.Live device → holder device = .nobody →
    device ∈ system.shared.contexts
  inodes : ∀ inode i, system.shared.inodes.Live inode →
    (system.shared.inodes.block inode).task = some i → (system.threads i).inode = some inode
  names : ∀ name, system.shared.names.Live name →
    (∃ i, (system.threads i).name = some name) ∨
      system.shared.devices.Live (system.shared.names.block name) ∧
        (system.shared.devices.block (system.shared.names.block name)).contextName = some name

/-- What holds of the system. -/
structure DeviceSystem.Fine (refcount : Refcount R) (holder : Nat → Holder ι)
    (system : DeviceSystem ι R) : Prop where
  tasks : ∀ i, (system.threads i).Fine refcount holder system.shared i
  heap : system.shared.Fine refcount holder
  kept : system.Kept holder

/-! ## What a step leaves alone -/

/-- What a step of one task leaves alone for the others. -/
structure DeviceHeap.Spares (i : ι) (holder next : Nat → Holder ι) (heap after : DeviceHeap ι R) :
    Prop where
  device : ∀ j, j ≠ i → ∀ device, holder device = .task j → heap.devices.Live device →
    next device = .task j ∧ after.devices.Live device ∧
      after.devices.block device = heap.devices.block device ∧
        after.contexts.count device = heap.contexts.count device
  name : ∀ j, j ≠ i → ∀ name, holder (heap.names.block name) = .task j → heap.names.Live name →
    after.names.Live name ∧ after.names.block name = heap.names.block name
  freed : ∀ name ∈ heap.names.freed, name ∈ after.names.freed
  inode : ∀ j, j ≠ i → ∀ inode, heap.inodes.Live inode →
    (heap.inodes.block inode).task = some j →
      after.inodes.Live inode ∧ after.inodes.block inode = heap.inodes.block inode
  opening : ∀ j, j ≠ i → ∀ inode, heap.Opens j inode →
    after.Opens j inode ∧
      (after.inodes.block inode).iPrivate = (heap.inodes.block inode).iPrivate

variable {refcount : Refcount R} {heap after : DeviceHeap ι R} {holder next : Nat → Holder ι}
  {i j : ι} {device inode : Nat} {name : Option Nat} {iFop : FileOperations}

namespace DeviceHeap

theorem Mine.spared (mine : heap.Mine holder j device name)
    (spares : Spares i holder next heap after) (isOther : j ≠ i) :
    after.Mine next j device name := by
  obtain ⟨isHolder, live, sameBlock, sameCount⟩ :=
    spares.device j isOther device mine.holder mine.live
  constructor
  · exact isHolder
  · exact live
  · rw [← List.count_eq_zero, sameCount, List.count_eq_zero]
    exact mine.unopened
  · rw [sameBlock]
    exact mine.name

theorem Named.spared (named : heap.Named device name) (isHolder : holder device = .task j)
    (spares : Spares i holder next heap after) (isOther : j ≠ i) : after.Named device name := by
  intro text isName
  obtain ⟨live, isDevice⟩ := named text isName
  cases isDevice
  exact spares.name j isOther text isHolder live

theorem Unnamed.spared (unnamed : heap.Unnamed name) (spares : Spares i holder next heap after) :
    after.Unnamed name :=
  fun text isName => spares.freed text (unnamed text isName)

theorem Fresh.spared (fresh : heap.Fresh j iFop inode) (spares : Spares i holder next heap after)
    (isOther : j ≠ i) : after.Fresh j iFop inode := by
  have isTask : (heap.inodes.block inode).task = some j := by rw [fresh.block]
  obtain ⟨live, sameBlock⟩ := spares.inode j isOther inode fresh.live isTask
  exact ⟨live, sameBlock.trans fresh.block⟩

theorem Complete.spared (complete : heap.Complete refcount device)
    (isHolder : holder device = .task j) (spares : Spares i holder next heap after)
    (isOther : j ≠ i) : next device = .task j ∧ after.Complete refcount device := by
  obtain ⟨isNext, live, sameBlock, sameCount⟩ :=
    spares.device j isOther device isHolder complete.live
  refine ⟨isNext, live, ?_, ?_⟩
  · rw [Counted, sameBlock, sameCount]
    exact complete.counted
  · rw [sameBlock]
    exact complete.named.spared isHolder spares isOther

end DeviceHeap

theorem DevicePc.Fine.spared {pc : DevicePc} (fine : pc.Fine refcount holder heap j)
    (spares : DeviceHeap.Spares i holder next heap after) (isOther : j ≠ i) :
    pc.Fine refcount next after j := by
  cases pc with
  | idle => exact trivial
  | newInode iFop device => exact DeviceHeap.Mine.spared fine spares isOther
  | kmemdup iFop device inode =>
      obtain ⟨mine, fresh⟩ := fine
      exact ⟨mine.spared spares isOther, fresh.spared spares isOther⟩
  | store device inode name =>
      obtain ⟨mine, fresh, named⟩ := fine
      exact ⟨mine.spared spares isOther, fresh.spared spares isOther,
        named.spared mine.holder spares isOther⟩
  | instantiate iFop device inode name =>
      obtain ⟨mine, fresh, named, isOne, hasName⟩ := fine
      refine ⟨mine.spared spares isOther, fresh.spared spares isOther,
        named.spared mine.holder spares isOther, ?_, hasName⟩
      rw [(spares.device j isOther device mine.holder mine.live).2.2.1]
      exact isOne
  | kfreeName device inode name =>
      obtain ⟨mine, named, made⟩ := fine
      refine ⟨mine.spared spares isOther, named.spared mine.holder spares isOther, ?_⟩
      intro inode isInode
      obtain ⟨iFop, fresh⟩ := made inode isInode
      exact ⟨iFop, fresh.spared spares isOther⟩
  | kfreeDevice device inode =>
      obtain ⟨⟨name, mine, unnamed⟩, made⟩ := fine
      refine ⟨⟨name, mine.spared spares isOther, unnamed.spared spares⟩, ?_⟩
      intro inode isInode
      obtain ⟨iFop, fresh⟩ := made inode isInode
      exact ⟨iFop, fresh.spared spares isOther⟩
  | load inode => exact (spares.opening j isOther inode fine).1
  | count inode device =>
      obtain ⟨opens, isPrivate⟩ := fine
      obtain ⟨opensAfter, samePrivate⟩ := spares.opening j isOther inode opens
      exact ⟨opensAfter, samePrivate.trans isPrivate⟩
  | evict inode =>
      obtain ⟨live, isTask⟩ := fine
      obtain ⟨liveAfter, sameBlock⟩ := spares.inode j isOther inode live isTask
      exact ⟨liveAfter, by rw [sameBlock, isTask]⟩
  | drop device => exact fine.2.spared fine.1 spares isOther
  | evictName device =>
      obtain ⟨name, mine, named⟩ := fine
      exact ⟨name, mine.spared spares isOther, named.spared mine.holder spares isOther⟩
  | evictDevice device =>
      obtain ⟨name, mine, unnamed⟩ := fine
      exact ⟨name, mine.spared spares isOther, unnamed.spared spares⟩

/-! ## Changes of the heap -/

variable [DecidableEq ι] {system : DeviceSystem ι R} {goal : DevicePc}

/-- One task moves. -/
theorem DeviceSystem.Fine.moves (fine : system.Fine refcount holder)
    (spares : DeviceHeap.Spares i holder next system.shared after)
    (isFine : goal.Fine refcount next after i) (heapFine : after.Fine refcount next)
    (kept : (system.move i after goal).Kept next) :
    (system.move i after goal).Fine refcount next where
  tasks j := by
    by_cases isSelf : j = i
    · cases isSelf
      simpa [DeviceSystem.move] using isFine
    · simpa [DeviceSystem.move, isSelf] using (fine.tasks j).spared spares isSelf
  heap := heapFine
  kept := kept

/-- What a task says of itself after a step, and of others as before. -/
theorem DeviceSystem.move_all {α : Type*} {of : DevicePc → Option α} {value : α} {j : ι}
    (self : j = i → of goal = some value)
    (others : j ≠ i → of (system.threads j) = some value) :
    of ((system.move i after goal).threads j) = some value := by
  by_cases isSelf : j = i
  · cases isSelf
    simpa [DeviceSystem.move] using self rfl
  · simpa [DeviceSystem.move, isSelf] using others isSelf

/-- A name that some task has in hand still is, or it was the one of the task that moves. -/
theorem DeviceSystem.move_name {text : Nat} (isName : ∃ j, (system.threads j).name = some text)
    (self : (system.threads i).name = some text → goal.name = some text) :
    ∃ j, ((system.move i after goal).threads j).name = some text := by
  obtain ⟨j, isName⟩ := isName
  refine ⟨j, DeviceSystem.move_all ?_ fun _ => isName⟩
  rintro rfl
  exact self isName

/-- A change of a device that is new, or that the task has in hand. -/
theorem DeviceSystem.Fine.changeDevice (fine : system.Fine refcount holder)
    {devices : Blocks (DeviceBlock R)} {hold : Holder ι} (sane : devices.Sane)
    (elsewhere : ∀ other, other ≠ device →
      (devices.Live other ↔ system.shared.devices.Live other) ∧
        devices.block other = system.shared.devices.block other)
    (mine : system.shared.devices.Live device → holder device = .task i)
    (opened : device ∈ system.shared.contexts → devices.Live device ∧
      (devices.block device).contextName = (system.shared.devices.block device).contextName)
    (only : ∀ other, (system.threads i).device = some other → other = device)
    (isHold : devices.Live device → hold = .task i ∧ goal.device = some device ∨
      hold = .nobody ∧ device ∈ system.shared.contexts)
    (sameInode : goal.inode = (system.threads i).inode)
    (keepsName : ∀ text, system.shared.names.Live text →
      (system.threads i).name = some text ∨ system.shared.names.block text = device ∧
        system.shared.devices.Live device ∧
          (system.shared.devices.block device).contextName = some text →
      goal.name = some text ∨ devices.Live (system.shared.names.block text) ∧
        (devices.block (system.shared.names.block text)).contextName = some text)
    (isFine : goal.Fine refcount (Function.update holder device hold)
      { system.shared with devices } i) :
    (system.move i { system.shared with devices } goal).Fine refcount
      (Function.update holder device hold) := by
  have notInode : ∀ inode, system.shared.inodes.Live inode →
      (system.shared.inodes.block inode).iPrivate ≠ some device := by
    intro inode live isPrivate
    obtain ⟨isHolder, complete, _⟩ := fine.heap.held inode device live isPrivate
    cases isHolder.symm.trans (mine complete.live)
  apply fine.moves
  · constructor
    · intro j isOther other isHolder live
      have differ : other ≠ device := by
        rintro rfl
        cases isHolder.symm.trans (mine live)
        exact isOther rfl
      obtain ⟨sameLive, sameBlock⟩ := elsewhere other differ
      refine ⟨?_, sameLive.mpr live, sameBlock, rfl⟩
      rw [Function.update_of_ne differ]
      exact isHolder
    · exact fun _ _ _ _ live => ⟨live, rfl⟩
    · exact fun _ isFreed => isFreed
    · exact fun _ _ _ live _ => ⟨live, rfl⟩
    · exact fun _ _ _ opens => ⟨⟨opens.live, opens.isOpening, opens.isDevice⟩, rfl⟩
  · exact isFine
  · constructor
    · exact sane
    · exact fine.heap.names
    · exact fine.heap.inodes
    · intro inode other live isPrivate
      have differ : other ≠ device := by
        rintro rfl
        exact notInode inode live isPrivate
      obtain ⟨sameLive, sameBlock⟩ := elsewhere other differ
      obtain ⟨isHolder, complete, hasName⟩ := fine.heap.held inode other live isPrivate
      refine ⟨?_, ⟨sameLive.mpr complete.live, ?_, ?_⟩, ?_⟩
      · rw [Function.update_of_ne differ]
        exact isHolder
      · simpa only [DeviceHeap.Counted, sameBlock] using complete.counted
      · change system.shared.Named other (devices.block other).contextName
        rw [sameBlock]
        exact complete.named
      · simpa only [sameBlock] using hasName
    · exact fine.heap.entry
    · exact fine.heap.closed
    · intro other isOpened
      obtain ⟨live, hasName, named⟩ := fine.heap.contexts other isOpened
      by_cases same : other = device
      · cases same
        obtain ⟨liveAfter, sameName⟩ := opened isOpened
        refine ⟨liveAfter, ?_, ?_⟩
        · simpa only [sameName] using hasName
        · change system.shared.Named device (devices.block device).contextName
          rw [sameName]
          exact named
      · obtain ⟨sameLive, sameBlock⟩ := elsewhere other same
        refine ⟨sameLive.mpr live, ?_, ?_⟩
        · simpa only [sameBlock] using hasName
        · change system.shared.Named other (devices.block other).contextName
          rw [sameBlock]
          exact named
  · constructor
    · intro other j live isHolder
      by_cases same : other = device
      · cases same
        rw [Function.update_self] at isHolder
        rcases isHold live with ⟨isTask, isDevice⟩ | ⟨isNobody, _⟩
        · cases isTask.symm.trans isHolder
          simpa [DeviceSystem.move] using isDevice
        · cases isNobody.symm.trans isHolder
      · rw [Function.update_of_ne same] at isHolder
        have isDevice := fine.kept.task other j ((elsewhere other same).1.mp live) isHolder
        refine DeviceSystem.move_all ?_ fun _ => isDevice
        rintro rfl
        exact absurd (only other isDevice) same
    · intro other inode live isHolder
      by_cases same : other = device
      · cases same
        rw [Function.update_self] at isHolder
        rcases isHold live with ⟨isTask, _⟩ | ⟨isNobody, _⟩
        · cases isTask.symm.trans isHolder
        · cases isNobody.symm.trans isHolder
      · rw [Function.update_of_ne same] at isHolder
        exact fine.kept.inode other inode ((elsewhere other same).1.mp live) isHolder
    · intro other live isHolder
      by_cases same : other = device
      · cases same
        rw [Function.update_self] at isHolder
        rcases isHold live with ⟨isTask, _⟩ | ⟨_, isOpened⟩
        · cases isTask.symm.trans isHolder
        · exact isOpened
      · rw [Function.update_of_ne same] at isHolder
        exact fine.kept.nobody other ((elsewhere other same).1.mp live) isHolder
    · intro inode j live isTask
      have isInode := fine.kept.inodes inode j live isTask
      refine DeviceSystem.move_all ?_ fun _ => isInode
      rintro rfl
      exact sameInode.trans isInode
    · intro text live
      have settles : (∃ j, ((system.move i { system.shared with devices } goal).threads j).name =
          some text) ∨ devices.Live (system.shared.names.block text) ∧
            (devices.block (system.shared.names.block text)).contextName = some text := by
        by_cases isName : (system.threads i).name = some text
        · rcases keepsName text live (.inl isName) with isGoal | settled
          · exact .inl ⟨i, by simpa [DeviceSystem.move] using isGoal⟩
          · exact .inr settled
        · rcases fine.kept.names text live with inHand | ⟨isLive, isStored⟩
          · exact .inl (DeviceSystem.move_name inHand fun isName' => absurd isName' isName)
          · by_cases same : system.shared.names.block text = device
            · rw [same] at isLive isStored
              rcases keepsName text live (.inr ⟨same, isLive, isStored⟩) with isGoal | settled
              · exact .inl ⟨i, by simpa [DeviceSystem.move] using isGoal⟩
              · exact .inr settled
            · obtain ⟨sameLive, sameBlock⟩ := elsewhere _ same
              exact .inr ⟨sameLive.mpr isLive, by rw [sameBlock, isStored]⟩
      exact settles

/-- A change of the names of a device that the task has in hand. -/
theorem DeviceSystem.Fine.changeNames (fine : system.Fine refcount holder) {names : Blocks Nat}
    (mine : system.shared.Mine holder i device name) (sane : names.Sane)
    (elsewhere : ∀ text, system.shared.names.Live text →
      system.shared.names.block text ≠ device →
        names.Live text ∧ names.block text = system.shared.names.block text)
    (freed : ∀ text ∈ system.shared.names.freed, text ∈ names.freed)
    (sameDevice : goal.device = (system.threads i).device)
    (sameInode : goal.inode = (system.threads i).inode)
    (keepsName : ∀ text, names.Live text → goal.name = some text ∨
      system.shared.names.Live text ∧ names.block text = system.shared.names.block text ∧
        (system.threads i).name ≠ some text)
    (isFine : goal.Fine refcount holder { system.shared with names } i) :
    (system.move i { system.shared with names } goal).Fine refcount holder := by
  have keepsNamed : ∀ other, other ≠ device → ∀ name, system.shared.Named other name →
      DeviceHeap.Named { system.shared with names } other name := by
    intro other differ name named text isName
    obtain ⟨live, isDevice⟩ := named text isName
    have away : system.shared.names.block text ≠ device := by
      rw [isDevice]
      exact differ
    obtain ⟨liveAfter, sameBlock⟩ := elsewhere text live away
    exact ⟨liveAfter, sameBlock.trans isDevice⟩
  apply fine.moves
  · constructor
    · exact fun _ _ _ isHolder live => ⟨isHolder, live, rfl, rfl⟩
    · intro j isOther text isHolder live
      apply elsewhere text live
      rintro isDevice
      rw [isDevice, mine.holder] at isHolder
      cases isHolder
      exact isOther rfl
    · exact freed
    · exact fun _ _ _ live _ => ⟨live, rfl⟩
    · exact fun _ _ _ opens => ⟨⟨opens.live, opens.isOpening, opens.isDevice⟩, rfl⟩
  · exact isFine
  · constructor
    · exact fine.heap.devices
    · exact sane
    · exact fine.heap.inodes
    · intro inode other live isPrivate
      obtain ⟨isHolder, complete, hasName⟩ := fine.heap.held inode other live isPrivate
      have differ : other ≠ device := by
        rintro rfl
        cases isHolder.symm.trans mine.holder
      exact ⟨isHolder, ⟨complete.live, complete.counted, keepsNamed other differ _ complete.named⟩,
        hasName⟩
    · exact fine.heap.entry
    · exact fine.heap.closed
    · intro other isOpened
      obtain ⟨live, hasName, named⟩ := fine.heap.contexts other isOpened
      have differ : other ≠ device := by
        rintro rfl
        exact mine.unopened isOpened
      exact ⟨live, hasName, keepsNamed other differ _ named⟩
  · constructor
    · intro other j live isHolder
      have isDevice := fine.kept.task other j live isHolder
      refine DeviceSystem.move_all ?_ fun _ => isDevice
      rintro rfl
      exact sameDevice.trans isDevice
    · exact fine.kept.inode
    · exact fine.kept.nobody
    · intro inode j live isTask
      have isInode := fine.kept.inodes inode j live isTask
      refine DeviceSystem.move_all ?_ fun _ => isInode
      rintro rfl
      exact sameInode.trans isInode
    · intro text live
      rcases keepsName text live with isGoal | ⟨liveBefore, sameBlock, notMine⟩
      · exact .inl ⟨i, by simpa [DeviceSystem.move] using isGoal⟩
      · change _ ∨ system.shared.devices.Live (names.block text) ∧
          (system.shared.devices.block (names.block text)).contextName = some text
        rw [sameBlock]
        rcases fine.kept.names text liveBefore with inHand | settled
        · exact .inl (DeviceSystem.move_name inHand fun isName => absurd isName notMine)
        · exact .inr settled

/-- A change of an inode that keeps its device, or of a new one. -/
theorem DeviceSystem.Fine.changeInode (fine : system.Fine refcount holder)
    {inodes : Blocks (InodeBlock ι)} (sane : inodes.Sane)
    (elsewhere : ∀ other, other ≠ inode →
      (inodes.Live other ↔ system.shared.inodes.Live other) ∧
        inodes.block other = system.shared.inodes.block other)
    (here : system.shared.inodes.Live inode → inodes.Live inode ∧
      (inodes.block inode).iFop = (system.shared.inodes.block inode).iFop ∧
        (inodes.block inode).iPrivate = (system.shared.inodes.block inode).iPrivate)
    (new : ¬ system.shared.inodes.Live inode → (inodes.block inode).iPrivate = none)
    (entry : (inodes.block inode).task = none → (inodes.block inode).iPrivate ≠ none)
    (closed : (inodes.block inode).task ≠ none →
      (inodes.block inode).opening = [] ∧ (inodes.block inode).files = 0)
    (notOthers : system.shared.inodes.Live inode → ∀ j, j ≠ i →
      (system.shared.inodes.block inode).task ≠ some j)
    (ours : ∀ j, (inodes.block inode).task = some j → j = i ∧ goal.inode = some inode)
    (opening : system.shared.inodes.Live inode → ∀ j, j ≠ i →
      j ∈ (system.shared.inodes.block inode).opening → j ∈ (inodes.block inode).opening)
    (sameDevice : goal.device = (system.threads i).device)
    (noInode : (system.threads i).inode = none) (noName : (system.threads i).name = none)
    (isFine : goal.Fine refcount holder { system.shared with inodes } i) :
    (system.move i { system.shared with inodes } goal).Fine refcount holder := by
  apply fine.moves
  · constructor
    · exact fun _ _ _ isHolder live => ⟨isHolder, live, rfl, rfl⟩
    · exact fun _ _ _ _ live => ⟨live, rfl⟩
    · exact fun _ isFreed => isFreed
    · intro j isOther other live isTask
      have differ : other ≠ inode := by
        rintro rfl
        exact notOthers live j isOther isTask
      obtain ⟨sameLive, sameBlock⟩ := elsewhere other differ
      exact ⟨sameLive.mpr live, sameBlock⟩
    · intro j isOther other opens
      by_cases same : other = inode
      · cases same
        obtain ⟨liveAfter, sameFop, samePrivate⟩ := here opens.live
        exact ⟨⟨liveAfter, opening opens.live j isOther opens.isOpening,
          sameFop.trans opens.isDevice⟩, samePrivate⟩
      · obtain ⟨sameLive, sameBlock⟩ := elsewhere other same
        refine ⟨⟨sameLive.mpr opens.live, ?_, ?_⟩, congrArg InodeBlock.iPrivate sameBlock⟩
        · simpa only [sameBlock] using opens.isOpening
        · simpa only [sameBlock] using opens.isDevice
  · exact isFine
  · constructor
    · exact fine.heap.devices
    · exact fine.heap.names
    · exact sane
    · intro other device live isPrivate
      by_cases same : other = inode
      · cases same
        by_cases isOld : system.shared.inodes.Live inode
        · obtain ⟨_, sameFop, samePrivate⟩ := here isOld
          obtain ⟨isHolder, complete, hasName⟩ :=
            fine.heap.held inode device isOld (samePrivate.symm.trans isPrivate)
          exact ⟨isHolder, ⟨complete.live, complete.counted, complete.named⟩,
            fun isDevice => hasName (sameFop.symm.trans isDevice)⟩
        · cases (new isOld).symm.trans isPrivate
      · obtain ⟨sameLive, sameBlock⟩ := elsewhere other same
        simp only [sameBlock] at isPrivate ⊢
        obtain ⟨isHolder, complete, hasName⟩ :=
          fine.heap.held other device (sameLive.mp live) isPrivate
        exact ⟨isHolder, ⟨complete.live, complete.counted, complete.named⟩, hasName⟩
    · intro other live isEntry
      by_cases same : other = inode
      · cases same
        exact entry isEntry
      · obtain ⟨sameLive, sameBlock⟩ := elsewhere other same
        simp only [sameBlock] at isEntry ⊢
        exact fine.heap.entry other (sameLive.mp live) isEntry
    · intro other live isTask
      by_cases same : other = inode
      · cases same
        exact closed isTask
      · obtain ⟨sameLive, sameBlock⟩ := elsewhere other same
        simp only [sameBlock] at isTask ⊢
        exact fine.heap.closed other (sameLive.mp live) isTask
    · exact fine.heap.contexts
  · constructor
    · intro device j live isHolder
      have isDevice := fine.kept.task device j live isHolder
      refine DeviceSystem.move_all ?_ fun _ => isDevice
      rintro rfl
      exact sameDevice.trans isDevice
    · intro device other live isHolder
      obtain ⟨liveInode, isPrivate⟩ := fine.kept.inode device other live isHolder
      by_cases same : other = inode
      · cases same
        obtain ⟨liveAfter, _, samePrivate⟩ := here liveInode
        exact ⟨liveAfter, samePrivate.trans isPrivate⟩
      · obtain ⟨sameLive, sameBlock⟩ := elsewhere other same
        exact ⟨sameLive.mpr liveInode, (congrArg InodeBlock.iPrivate sameBlock).trans isPrivate⟩
    · exact fine.kept.nobody
    · intro other j live isTask
      by_cases same : other = inode
      · cases same
        obtain ⟨rfl, isInode⟩ := ours j isTask
        exact DeviceSystem.move_all (fun _ => isInode) fun isOther => absurd rfl isOther
      · obtain ⟨sameLive, sameBlock⟩ := elsewhere other same
        have isTask' := (congrArg InodeBlock.task sameBlock).symm.trans isTask
        have isInode := fine.kept.inodes other j (sameLive.mp live) isTask'
        refine DeviceSystem.move_all ?_ fun _ => isInode
        rintro rfl
        cases noInode.symm.trans isInode
    · intro text live
      rcases fine.kept.names text live with inHand | settled
      · refine .inl (DeviceSystem.move_name inHand fun isName => ?_)
        cases noName.symm.trans isName
      · exact .inr settled

end Heap

end DroidKernal.Binderfs
