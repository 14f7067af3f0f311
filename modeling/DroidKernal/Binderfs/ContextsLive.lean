import DroidKernal.Binderfs.DeviceHolders

/-!
# The contexts of processes stay valid

A device is freed by the task that finds no references but the first, so what a process
stored when it opened the device is never freed.
-/

namespace DroidKernal.Binderfs

open Lib

/-! ## The steps -/

section Heap

variable {ι R : Type*} [DecidableEq ι] {refcount : Refcount R} {heap after : DeviceHeap ι R}
  {holder next : Nat → Holder ι} {i j : ι} {device inode : Nat} {name : Option Nat}
  {iFop : FileOperations} {system : DeviceSystem ι R} {goal : DevicePc}

omit [DecidableEq ι] in
/-- Nobody else has anything of a new inode. -/
theorem DeviceHeap.Opens.ne_fresh (opens : heap.Opens j device) (fresh : heap.Fresh i iFop inode) :
    device ≠ inode := by
  rintro rfl
  have isOpening := opens.isOpening
  rw [fresh.block] at isOpening
  cases isOpening

omit [DecidableEq ι] in
/-- An inode that somebody opens has its entry. -/
theorem DeviceHeap.Fine.task_none (fine : heap.Fine refcount holder)
    (opens : heap.Opens j inode) : (heap.inodes.block inode).task = none := by
  by_contra isTask
  have isOpening := opens.isOpening
  rw [(fine.closed inode opens.live isTask).1] at isOpening
  cases isOpening

/-- An inode comes into the directory with its device. -/
theorem DeviceSystem.Fine.instantiates (fine : system.Fine refcount holder)
    (isPc : system.threads i = .instantiate iFop device inode name) :
    (system.move i (system.shared.setInode inode
      { system.shared.inodes.block inode with iPrivate := some device, task := none }) .idle).Fine
        refcount (Function.update holder device (.inode inode)) := by
  have isFine := fine.tasks i
  rw [isPc] at isFine
  obtain ⟨mine, fresh, named, isOne, hasName⟩ := isFine
  have notHeld : ∀ other, system.shared.inodes.Live other →
      (system.shared.inodes.block other).iPrivate ≠ some device := by
    intro other live isPrivate
    cases (fine.heap.held other device live isPrivate).1.symm.trans mine.holder
  apply fine.moves
  · constructor
    · intro j isOther other isHolder live
      have differ : other ≠ device := by
        rintro rfl
        cases isHolder.symm.trans mine.holder
        exact isOther rfl
      exact ⟨(Function.update_of_ne differ ..).trans isHolder, live, rfl, rfl⟩
    · exact fun _ _ _ _ live => ⟨live, rfl⟩
    · exact fun _ isFreed => isFreed
    · intro j isOther other live isTask
      have differ : other ≠ inode := by
        rintro rfl
        rw [fresh.block] at isTask
        cases isTask
        exact isOther rfl
      exact ⟨live, Blocks.set_block differ⟩
    · intro j isOther other opens
      have sameBlock := @Blocks.set_block _ system.shared.inodes inode other
        { system.shared.inodes.block inode with iPrivate := some device, task := none }
        (opens.ne_fresh fresh)
      refine ⟨⟨opens.live, ?_, ?_⟩, congrArg InodeBlock.iPrivate sameBlock⟩
      · exact sameBlock ▸ opens.isOpening
      · exact (congrArg InodeBlock.iFop sameBlock).trans opens.isDevice
  · exact trivial
  · constructor
    · exact fine.heap.devices
    · exact fine.heap.names
    · exact fine.heap.inodes.set
    · intro other held live isPrivate
      by_cases same : other = inode
      · cases same
        simp only [DeviceHeap.setInode, Blocks.set_block_self] at isPrivate ⊢
        cases isPrivate
        refine ⟨Function.update_self .., ⟨mine.live, ?_, ?_⟩, ?_⟩
        · rw [DeviceHeap.Counted, isOne, List.count_eq_zero.mpr mine.unopened]
          rfl
        · rw [mine.name]
          exact named
        · rw [mine.name]
          rw [fresh.block]
          exact hasName.mp
      · have sameBlock := @Blocks.set_block _ system.shared.inodes inode other
          { system.shared.inodes.block inode with iPrivate := some device, task := none } same
        simp only [DeviceHeap.setInode, sameBlock] at isPrivate ⊢
        obtain ⟨isHolder, complete, hasName⟩ := fine.heap.held other held live isPrivate
        have differ : held ≠ device := by
          rintro rfl
          exact notHeld other live isPrivate
        exact ⟨(Function.update_of_ne differ ..).trans isHolder,
          ⟨complete.live, complete.counted, complete.named⟩, hasName⟩
    · intro other live isEntry
      by_cases same : other = inode
      · cases same
        simp [DeviceHeap.setInode]
      · simp only [DeviceHeap.setInode, Blocks.set_block same] at isEntry ⊢
        exact fine.heap.entry other live isEntry
    · intro other live isTask
      by_cases same : other = inode
      · cases same
        simp [DeviceHeap.setInode] at isTask
      · simp only [DeviceHeap.setInode, Blocks.set_block same] at isTask ⊢
        exact fine.heap.closed other live isTask
    · exact fine.heap.contexts
  · constructor
    · intro other j live isHolder
      by_cases same : other = device
      · cases same
        rw [Function.update_self] at isHolder
        cases isHolder
      · rw [Function.update_of_ne same] at isHolder
        have isDevice := fine.kept.task other j live isHolder
        refine DeviceSystem.move_all ?_ fun _ => isDevice
        rintro rfl
        rw [isPc] at isDevice
        exact absurd (Option.some.inj isDevice).symm same
    · intro other held live isHolder
      by_cases same : other = device
      · cases same
        rw [Function.update_self] at isHolder
        cases isHolder
        exact ⟨fresh.live, by simp [DeviceSystem.move, DeviceHeap.setInode]⟩
      · rw [Function.update_of_ne same] at isHolder
        obtain ⟨liveInode, isPrivate⟩ := fine.kept.inode other held live isHolder
        have differ : held ≠ inode := by
          rintro rfl
          rw [fresh.block] at isPrivate
          cases isPrivate
        refine ⟨liveInode, ?_⟩
        simpa only [DeviceSystem.move, DeviceHeap.setInode, Blocks.set_block differ] using isPrivate
    · intro other live isHolder
      by_cases same : other = device
      · cases same
        rw [Function.update_self] at isHolder
        cases isHolder
      · rw [Function.update_of_ne same] at isHolder
        exact fine.kept.nobody other live isHolder
    · intro other j live isTask
      by_cases same : other = inode
      · cases same
        simp [DeviceSystem.move, DeviceHeap.setInode] at isTask
      · simp only [DeviceSystem.move, DeviceHeap.setInode, Blocks.set_block same] at isTask
        have isInode := fine.kept.inodes other j live isTask
        refine DeviceSystem.move_all ?_ fun _ => isInode
        rintro rfl
        rw [isPc] at isInode
        exact absurd (Option.some.inj isInode).symm same
    · intro text live
      rcases fine.kept.names text live with inHand | settled
      · refine .inl (DeviceSystem.move_name inHand fun isName => ?_)
        rw [isPc] at isName
        cases isName
      · exact .inr settled

/-- `binder_open` counts a reference and stores the context. -/
theorem DeviceSystem.Fine.counts (fine : system.Fine refcount holder)
    (isPc : system.threads i = .count inode device) {devices : Blocks (DeviceBlock R)}
    {inodes : Blocks (InodeBlock ι)}
    (isDevices : devices = system.shared.devices.set device
      { system.shared.devices.block device with
        ref := refcount.inc (system.shared.devices.block device).ref })
    (isInodes : inodes = system.shared.inodes.set inode
      { system.shared.inodes.block inode with
        opening := (system.shared.inodes.block inode).opening.erase i
        files := (system.shared.inodes.block inode).files + 1 }) :
    (system.move i { system.shared with
      devices, inodes, contexts := system.shared.contexts ++ [device] } .idle).Fine
        refcount holder := by
  have isFine := fine.tasks i
  rw [isPc] at isFine
  obtain ⟨opens, isPrivate⟩ := isFine
  obtain ⟨isHolder, complete, hasName⟩ := fine.heap.held inode device opens.live isPrivate
  have noTask := fine.heap.task_none opens
  have sameLive : ∀ other, devices.Live other ↔ system.shared.devices.Live other := by
    intro other
    rw [isDevices, Blocks.live_set]
  have sameName : ∀ other, (devices.block other).contextName =
      (system.shared.devices.block other).contextName := by
    intro other
    rw [isDevices]
    apply Blocks.set_field DeviceBlock.contextName
    rfl
  have sameLiveInode : ∀ other, inodes.Live other ↔ system.shared.inodes.Live other := by
    intro other
    rw [isInodes, Blocks.live_set]
  have samePrivate : ∀ other, (inodes.block other).iPrivate =
      (system.shared.inodes.block other).iPrivate := by
    intro other
    rw [isInodes]
    apply Blocks.set_field InodeBlock.iPrivate
    rfl
  have sameTask : ∀ other, (inodes.block other).task = (system.shared.inodes.block other).task := by
    intro other
    rw [isInodes]
    apply Blocks.set_field InodeBlock.task
    rfl
  have sameFop : ∀ other, (inodes.block other).iFop = (system.shared.inodes.block other).iFop := by
    intro other
    rw [isInodes]
    apply Blocks.set_field InodeBlock.iFop
    rfl
  have sameInode : ∀ other, other ≠ inode →
      inodes.block other = system.shared.inodes.block other := by
    intro other differ
    rw [isInodes, Blocks.set_block differ]
  have sameCount : ∀ other, other ≠ device →
      (system.shared.contexts ++ [device]).count other = system.shared.contexts.count other := by
    intro other differ
    rw [List.count_append, List.count_singleton]
    simp [differ.symm]
  apply fine.moves
  · constructor
    · intro j isOther other otherHolder live
      have differ : other ≠ device := by
        rintro rfl
        cases isHolder.symm.trans otherHolder
      refine ⟨otherHolder, (sameLive other).mpr live, ?_, sameCount other differ⟩
      change devices.block other = _
      rw [isDevices, Blocks.set_block differ]
    · exact fun _ _ _ _ live => ⟨live, rfl⟩
    · exact fun _ isFreed => isFreed
    · intro j isOther other live isTask
      refine ⟨(sameLiveInode other).mpr live, sameInode other ?_⟩
      rintro rfl
      cases noTask.symm.trans isTask
    · intro j isOther other otherOpens
      refine ⟨⟨(sameLiveInode other).mpr otherOpens.live, ?_, ?_⟩, samePrivate other⟩
      · change j ∈ (inodes.block other).opening
        by_cases same : other = inode
        · cases same
          rw [isInodes, Blocks.set_block_self]
          exact (List.mem_erase_of_ne isOther).mpr otherOpens.isOpening
        · rw [sameInode other same]
          exact otherOpens.isOpening
      · exact (sameFop other).trans otherOpens.isDevice
  · exact trivial
  · constructor
    · rw [isDevices]
      exact fine.heap.devices.set
    · exact fine.heap.names
    · rw [isInodes]
      exact fine.heap.inodes.set
    · intro other held live otherPrivate
      obtain ⟨heldHolder, heldComplete, heldName⟩ := fine.heap.held other held
        ((sameLiveInode other).mp live) ((samePrivate other).symm.trans otherPrivate)
      refine ⟨heldHolder, ⟨(sameLive held).mpr heldComplete.live, ?_, ?_⟩, ?_⟩
      · change (devices.block held).ref =
          refcount.inc^[(system.shared.contexts ++ [device]).count held] refcount.one
        by_cases same : held = device
        · cases same
          rw [isDevices, Blocks.set_block_self, List.count_append, List.count_singleton_self,
            Function.iterate_succ_apply']
          exact congrArg refcount.inc complete.counted
        · rw [isDevices, Blocks.set_block same, sameCount held same]
          exact heldComplete.counted
      · change system.shared.Named held (devices.block held).contextName
        rw [sameName]
        exact heldComplete.named
      · intro isDevice
        change (devices.block held).contextName ≠ none
        rw [sameName]
        exact heldName ((sameFop other).symm.trans isDevice)
    · intro other live isEntry
      change (inodes.block other).iPrivate ≠ none
      rw [samePrivate]
      exact fine.heap.entry other ((sameLiveInode other).mp live)
        ((sameTask other).symm.trans isEntry)
    · intro other live isTask
      change (inodes.block other).task ≠ none at isTask
      rw [sameTask] at isTask
      have differ : other ≠ inode := by
        rintro rfl
        exact isTask noTask
      change (inodes.block other).opening = [] ∧ (inodes.block other).files = 0
      rw [sameInode other differ]
      exact fine.heap.closed other ((sameLiveInode other).mp live) isTask
    · intro other isOpened
      change devices.Live other ∧ (devices.block other).contextName ≠ none ∧
        system.shared.Named other (devices.block other).contextName
      rw [sameLive, sameName]
      rcases List.mem_append.mp isOpened with before | isLast
      · exact fine.heap.contexts other before
      · cases List.mem_singleton.mp isLast
        exact ⟨complete.live, hasName opens.isDevice, complete.named⟩
  · constructor
    · intro other j live otherHolder
      have isDevice := fine.kept.task other j ((sameLive other).mp live) otherHolder
      refine DeviceSystem.move_all ?_ fun _ => isDevice
      rintro rfl
      rw [isPc] at isDevice
      cases isDevice
    · intro other held live otherHolder
      obtain ⟨liveInode, isHeld⟩ :=
        fine.kept.inode other held ((sameLive other).mp live) otherHolder
      exact ⟨(sameLiveInode held).mpr liveInode, (samePrivate held).trans isHeld⟩
    · intro other live otherHolder
      exact List.mem_append_left _
        (fine.kept.nobody other ((sameLive other).mp live) otherHolder)
    · intro other j live isTask
      have isInode := fine.kept.inodes other j ((sameLiveInode other).mp live)
        ((sameTask other).symm.trans isTask)
      refine DeviceSystem.move_all ?_ fun _ => isInode
      rintro rfl
      rw [isPc] at isInode
      cases isInode
    · intro text live
      rcases fine.kept.names text live with inHand | ⟨liveDevice, isStored⟩
      · refine .inl (DeviceSystem.move_name inHand fun isName => ?_)
        rw [isPc] at isName
        cases isName
      · exact .inr ⟨(sameLive _).mpr liveDevice, (sameName _).trans isStored⟩

/-- The last reference of an inode goes, and its device to the task. -/
theorem DeviceSystem.Fine.evicts (fine : system.Fine refcount holder)
    (isPc : system.threads i = .evict inode)
    (others : ∀ device, system.shared.devices.Live device →
      (system.shared.inodes.block inode).iPrivate ≠ some device → next device = holder device)
    (ours : ∀ device, system.shared.devices.Live device →
      (system.shared.inodes.block inode).iPrivate = some device →
        next device = .task i ∧ goal.device = some device)
    (isFine : goal.Fine refcount next
      { system.shared with inodes := system.shared.inodes.free inode } i) :
    (system.move i { system.shared with inodes := system.shared.inodes.free inode } goal).Fine
      refcount next := by
  have before := fine.tasks i
  rw [isPc] at before
  obtain ⟨live, isTask⟩ := before
  have notOpening : (system.shared.inodes.block inode).opening = [] := by
    apply (fine.heap.closed inode live _).1
    rw [isTask]
    exact Option.some_ne_none i
  have notPrivate : ∀ device, system.shared.devices.Live device →
      holder device ≠ .inode inode →
        (system.shared.inodes.block inode).iPrivate ≠ some device := by
    intro device _ notHolder isPrivate
    exact notHolder (fine.heap.held inode device live isPrivate).1
  apply fine.moves
  · constructor
    · intro j isOther device isHolder liveDevice
      refine ⟨(others device liveDevice ?_).trans isHolder, liveDevice, rfl, rfl⟩
      apply notPrivate device liveDevice
      rw [isHolder]
      exact fun impossible => by cases impossible
    · exact fun _ _ _ _ live => ⟨live, rfl⟩
    · exact fun _ isFreed => isFreed
    · intro j isOther other otherLive otherTask
      refine ⟨Blocks.live_free.mpr ⟨otherLive, ?_⟩, rfl⟩
      rintro rfl
      cases isTask.symm.trans otherTask
      exact isOther rfl
    · intro j isOther other opens
      refine ⟨⟨Blocks.live_free.mpr ⟨opens.live, ?_⟩, opens.isOpening, opens.isDevice⟩, rfl⟩
      rintro rfl
      have isOpening := opens.isOpening
      rw [notOpening] at isOpening
      cases isOpening
  · exact isFine
  · constructor
    · exact fine.heap.devices
    · exact fine.heap.names
    · exact fine.heap.inodes.free live
    · intro other device otherLive isPrivate
      obtain ⟨otherLive, differ⟩ := Blocks.live_free.mp otherLive
      obtain ⟨isHolder, complete, hasName⟩ := fine.heap.held other device otherLive isPrivate
      refine ⟨(others device complete.live ?_).trans isHolder,
        ⟨complete.live, complete.counted, complete.named⟩, hasName⟩
      apply notPrivate device complete.live
      rw [isHolder]
      rintro ⟨⟩
      exact differ rfl
    · exact fun other otherLive => fine.heap.entry other (Blocks.live_free.mp otherLive).1
    · exact fun other otherLive => fine.heap.closed other (Blocks.live_free.mp otherLive).1
    · exact fine.heap.contexts
  · constructor
    · intro device j liveDevice isNext
      by_cases isPrivate : (system.shared.inodes.block inode).iPrivate = some device
      · obtain ⟨isOurs, isDevice⟩ := ours device liveDevice isPrivate
        cases isOurs.symm.trans isNext
        exact DeviceSystem.move_all (fun _ => isDevice) fun isOther => absurd rfl isOther
      · rw [others device liveDevice isPrivate] at isNext
        have isDevice := fine.kept.task device j liveDevice isNext
        refine DeviceSystem.move_all ?_ fun _ => isDevice
        rintro rfl
        rw [isPc] at isDevice
        cases isDevice
    · intro device held liveDevice isNext
      by_cases isPrivate : (system.shared.inodes.block inode).iPrivate = some device
      · cases (ours device liveDevice isPrivate).1.symm.trans isNext
      · rw [others device liveDevice isPrivate] at isNext
        obtain ⟨liveInode, isHeld⟩ := fine.kept.inode device held liveDevice isNext
        refine ⟨Blocks.live_free.mpr ⟨liveInode, ?_⟩, isHeld⟩
        rintro rfl
        exact isPrivate isHeld
    · intro device liveDevice isNext
      by_cases isPrivate : (system.shared.inodes.block inode).iPrivate = some device
      · cases (ours device liveDevice isPrivate).1.symm.trans isNext
      · rw [others device liveDevice isPrivate] at isNext
        exact fine.kept.nobody device liveDevice isNext
    · intro other j otherLive otherTask
      obtain ⟨otherLive, differ⟩ := Blocks.live_free.mp otherLive
      have isInode := fine.kept.inodes other j otherLive otherTask
      refine DeviceSystem.move_all ?_ fun _ => isInode
      rintro rfl
      rw [isPc] at isInode
      exact absurd (Option.some.inj isInode).symm differ
    · intro text liveName
      rcases fine.kept.names text liveName with inHand | settled
      · refine .inl (DeviceSystem.move_name inHand fun isName => ?_)
        rw [isPc] at isName
        cases isName
      · exact .inr settled

/-- A store into the inode of an entry. -/
theorem DeviceSystem.Fine.setInode (fine : system.Fine refcount holder) {content : InodeBlock ι}
    (live : system.shared.inodes.Live inode)
    (isEntry : (system.shared.inodes.block inode).task = none)
    (sameFop : content.iFop = (system.shared.inodes.block inode).iFop)
    (samePrivate : content.iPrivate = (system.shared.inodes.block inode).iPrivate)
    (isTask : content.task = none ∨ content.task = some i ∧ content.opening = [] ∧
      content.files = 0 ∧ goal.inode = some inode)
    (opening : ∀ j, j ≠ i → j ∈ (system.shared.inodes.block inode).opening →
      j ∈ content.opening)
    (sameDevice : goal.device = (system.threads i).device)
    (noInode : (system.threads i).inode = none) (noName : (system.threads i).name = none)
    (isFine : goal.Fine refcount holder (system.shared.setInode inode content) i) :
    (system.move i (system.shared.setInode inode content) goal).Fine refcount holder := by
  have isContent := @Blocks.set_block_self _ system.shared.inodes inode content
  refine fine.changeInode fine.heap.inodes.set
    (fun other differ => ⟨Blocks.live_set, Blocks.set_block differ⟩) ?_ ?_ ?_ ?_ ?_ ?_ ?_
    sameDevice noInode noName isFine
  · intro _
    rw [isContent]
    exact ⟨live, sameFop, samePrivate⟩
  · exact fun notLive => absurd live notLive
  · intro _
    rw [isContent, samePrivate]
    exact fine.heap.entry inode live isEntry
  · rw [isContent]
    intro some
    rcases isTask with none | ⟨_, noTask, noFile, _⟩
    · exact absurd none some
    · exact ⟨noTask, noFile⟩
  · intro _ j _ isOther
    cases isEntry.symm.trans isOther
  · rw [isContent]
    intro j isOwner
    rcases isTask with none | ⟨isSelf, _, _, isInode⟩
    · cases none.symm.trans isOwner
    · cases isSelf.symm.trans isOwner
      exact ⟨rfl, isInode⟩
  · rw [isContent]
    exact fun _ => opening

/-- A device is allocated. -/
theorem DeviceSystem.Fine.creates (fine : system.Fine refcount holder)
    (isIdle : system.threads i = .idle) :
    (system.move i (system.shared.kzalloc refcount)
      (.newInode iFop system.shared.devices.allocated)).Fine refcount
        (Function.update holder system.shared.devices.allocated (.task i)) := by
  have isNew : ¬ system.shared.devices.Live system.shared.devices.allocated :=
    fun live => Nat.lt_irrefl _ live.1
  have unopened : system.shared.devices.allocated ∉ system.shared.contexts :=
    fun isOpened => isNew (fine.heap.contexts _ isOpened).1
  refine fine.changeDevice fine.heap.devices.add ?_ (fun live => absurd live isNew)
    (fun isOpened => absurd isOpened unopened) ?_ (fun _ => .inl ⟨rfl, rfl⟩) ?_ ?_ ?_
  · intro other differ
    refine ⟨?_, Blocks.add_block differ⟩
    rw [Blocks.live_add fine.heap.devices]
    exact or_iff_left differ
  · intro other isDevice
    rw [isIdle] at isDevice
    cases isDevice
  · rw [isIdle]
    rfl
  · rintro text _ (isName | ⟨_, live, _⟩)
    · rw [isIdle] at isName
      cases isName
    · exact absurd live isNew
  · constructor
    · exact Function.update_self ..
    · exact fine.heap.devices.live_new
    · exact unopened
    · exact congrArg DeviceBlock.contextName Blocks.add_block_new

/-- A store into the device of a task. -/
theorem DeviceSystem.Fine.setDevice (fine : system.Fine refcount holder)
    {content : DeviceBlock R} {hold : Holder ι} (isHolder : holder device = .task i)
    (isDevice : (system.threads i).device = some device)
    (live : system.shared.devices.Live device)
    (opened : device ∈ system.shared.contexts →
      content.contextName = (system.shared.devices.block device).contextName)
    (isHold : hold = .task i ∧ goal.device = some device ∨
      hold = .nobody ∧ device ∈ system.shared.contexts)
    (sameInode : goal.inode = (system.threads i).inode)
    (keepsName : ∀ text, (system.threads i).name = some text ∨
      (system.shared.devices.block device).contextName = some text →
        system.shared.names.Live text →
          system.shared.names.block text = device ∧ content.contextName = some text)
    (isFine : goal.Fine refcount (Function.update holder device hold)
      (system.shared.setDevice device content) i) :
    (system.move i (system.shared.setDevice device content) goal).Fine refcount
      (Function.update holder device hold) := by
  have isContent := @Blocks.set_block_self _ system.shared.devices device content
  refine fine.changeDevice fine.heap.devices.set
    (fun other differ => ⟨Blocks.live_set, Blocks.set_block differ⟩) (fun _ => isHolder) ?_ ?_
    (fun _ => isHold) sameInode ?_ isFine
  · intro isOpened
    rw [isContent]
    exact ⟨live, opened isOpened⟩
  · intro other isOther
    exact Option.some.inj (isOther.symm.trans isDevice)
  · intro text liveName stored
    have isText : system.shared.names.block text = device ∧ content.contextName = some text := by
      rcases stored with isName | ⟨_, _, isStored⟩
      · exact keepsName text (.inl isName) liveName
      · exact keepsName text (.inr isStored) liveName
    obtain ⟨isHere, isName⟩ := isText
    rw [isHere, isContent]
    exact .inr ⟨live, isName⟩

/-- The device of a task is freed. -/
theorem DeviceSystem.Fine.frees (fine : system.Fine refcount holder)
    (mine : system.shared.Mine holder i device name) (unnamed : system.shared.Unnamed name)
    (isDevice : (system.threads i).device = some device) (noName : (system.threads i).name = none)
    (sameInode : goal.inode = (system.threads i).inode)
    (isFine : goal.Fine refcount (Function.update holder device (.task i))
      { system.shared with devices := system.shared.devices.free device } i) :
    (system.move i { system.shared with devices := system.shared.devices.free device } goal).Fine
      refcount (Function.update holder device (.task i)) := by
  refine fine.changeDevice (fine.heap.devices.free mine.live) ?_ (fun _ => mine.holder)
    (fun isOpened => absurd isOpened mine.unopened) ?_ ?_ sameInode ?_ isFine
  · intro other differ
    exact ⟨by rw [Blocks.live_free]; exact and_iff_left differ, rfl⟩
  · intro other isOther
    exact Option.some.inj (isOther.symm.trans isDevice)
  · intro live
    exact absurd rfl (Blocks.live_free.mp live).2
  · rintro text live (isName | ⟨_, _, isStored⟩)
    · cases noName.symm.trans isName
    · exact absurd (unnamed text (mine.name.symm.trans isStored)) live.2

/-- A task goes on with its device, and changes nothing. -/
theorem DeviceSystem.Fine.goto (fine : system.Fine refcount holder)
    (mine : system.shared.Mine holder i device name)
    (sameDevice : goal.device = (system.threads i).device)
    (sameInode : goal.inode = (system.threads i).inode) (noName : (system.threads i).name = none)
    (isFine : goal.Fine refcount holder system.shared i) :
    (system.move i system.shared goal).Fine refcount holder := by
  refine fine.changeNames mine fine.heap.names (fun _ live _ => ⟨live, rfl⟩) (fun _ freed => freed)
    sameDevice sameInode (fun text live => .inr ⟨live, rfl, ?_⟩) isFine
  rw [noName]
  exact fun impossible => by cases impossible

/-- A name is copied for the device of a task. -/
theorem DeviceSystem.Fine.copiesName (fine : system.Fine refcount holder)
    (mine : system.shared.Mine holder i device none)
    (fresh : system.shared.Fresh i .binderFops inode)
    (isPc : system.threads i = .kmemdup .binderFops device inode) :
    (system.move i { system.shared with names := system.shared.names.add device }
      (.store device inode system.shared.names.allocated)).Fine refcount holder := by
  refine fine.changeNames mine fine.heap.names.add ?_ (fun _ freed => freed) ?_ ?_ ?_ ?_
  · intro text live _
    exact ⟨live.add, Blocks.add_block live.ne_new⟩
  · rw [isPc]
    rfl
  · rw [isPc]
    rfl
  · intro text live
    rcases (Blocks.live_add fine.heap.names).mp live with isOld | isNew
    · refine .inr ⟨isOld, Blocks.add_block isOld.ne_new, ?_⟩
      rw [isPc]
      exact fun impossible => by cases impossible
    · exact .inl (congrArg some isNew.symm)
  · refine ⟨⟨mine.holder, mine.live, mine.unopened, mine.name⟩, ⟨fresh.live, fresh.block⟩, ?_⟩
    rintro text ⟨⟩
    exact ⟨fine.heap.names.live_new, Blocks.add_block_new⟩

/-- The name of the device of a task is freed, if it has one. -/
theorem DeviceSystem.Fine.freesName (fine : system.Fine refcount holder)
    (mine : system.shared.Mine holder i device name) (named : system.shared.Named device name)
    (sameDevice : goal.device = (system.threads i).device)
    (sameInode : goal.inode = (system.threads i).inode) (noName : (system.threads i).name = none)
    (isFine : (system.shared.kfreeName name).Unnamed name →
      goal.Fine refcount holder (system.shared.kfreeName name) i) :
    (system.move i (system.shared.kfreeName name) goal).Fine refcount holder := by
  cases name with
  | none =>
      exact fine.goto mine sameDevice sameInode noName
        (isFine fun text isName => by cases isName)
  | some text =>
      obtain ⟨live, isHere⟩ := named text rfl
      refine fine.changeNames mine (fine.heap.names.free live) ?_
        (fun _ isFreed => List.mem_append_left _ isFreed) sameDevice sameInode ?_ (isFine ?_)
      · intro other otherLive elsewhere
        refine ⟨Blocks.live_free.mpr ⟨otherLive, ?_⟩, rfl⟩
        rintro rfl
        exact elsewhere isHere
      · intro other otherLive
        refine .inr ⟨(Blocks.live_free.mp otherLive).1, rfl, ?_⟩
        rw [noName]
        exact fun impossible => by cases impossible
      · rintro other ⟨⟩
        exact List.mem_append_right _ (List.mem_singleton_self _)

omit [DecidableEq ι] in
/-- A failed creation frees what there is. -/
theorem DevicePc.err_fine {made : Option Nat} (mine : heap.Mine holder i device name)
    (named : heap.Named device name) (noName : iFop = .binderCtlFops → name = none)
    (isMade : ∀ inode, made = some inode → ∃ iFop, heap.Fresh i iFop inode) :
    (DevicePc.err iFop device made name).Fine refcount holder heap i := by
  cases iFop with
  | binderFops => exact ⟨mine, named, isMade⟩
  | binderCtlFops =>
      refine ⟨⟨name, mine, fun text isName => ?_⟩, isMade⟩
      cases (noName rfl).symm.trans isName

theorem DevicePc.err_device {made : Option Nat} :
    (DevicePc.err iFop device made name).device = some device := by
  cases iFop <;> rfl

theorem DevicePc.err_inode {made : Option Nat} :
    (DevicePc.err iFop device made name).inode = made := by
  cases iFop <;> rfl

omit [DecidableEq ι] in
theorem DeviceHeap.Mine.kfreeName {text : Option Nat} (mine : heap.Mine holder i device name) :
    (heap.kfreeName text).Mine holder i device name := by
  cases text with
  | none => exact mine
  | some _ => exact ⟨mine.holder, mine.live, mine.unopened, mine.name⟩

omit [DecidableEq ι] in
theorem DeviceHeap.Fresh.kfreeName {text : Option Nat} (fresh : heap.Fresh i iFop inode) :
    (heap.kfreeName text).Fresh i iFop inode := by
  cases text with
  | none => exact fresh
  | some _ => exact ⟨fresh.live, fresh.block⟩

omit [DecidableEq ι] in
theorem DeviceHeap.named_none : heap.Named device none :=
  fun _ isName => by cases isName

omit [DecidableEq ι] in
theorem DeviceHeap.unnamed_none : heap.Unnamed none :=
  fun _ isName => by cases isName

omit [DecidableEq ι] in
theorem DeviceHeap.Fresh.made (fresh : heap.Fresh i iFop inode) (other : Nat)
    (isOther : some inode = some other) : ∃ iFop, heap.Fresh i iFop other := by
  cases isOther
  exact ⟨iFop, fresh⟩

/-- An inode is made. -/
theorem DeviceSystem.Fine.makesInode (fine : system.Fine refcount holder)
    (mine : system.shared.Mine holder i device none)
    (isPc : system.threads i = .newInode iFop device) :
    (system.move i { system.shared with
      inodes := system.shared.inodes.add ⟨iFop, none, some i, [], 0⟩ }
        (.kmemdup iFop device system.shared.inodes.allocated)).Fine refcount holder := by
  have isNew : ¬ system.shared.inodes.Live system.shared.inodes.allocated :=
    fun live => Nat.lt_irrefl _ live.1
  have isContent := @Blocks.add_block_new _ system.shared.inodes ⟨iFop, none, some i, [], 0⟩
  refine fine.changeInode fine.heap.inodes.add ?_ (fun live => absurd live isNew) ?_ ?_ ?_
    (fun live => absurd live isNew) ?_ (fun live => absurd live isNew) ?_ ?_ ?_ ?_
  · intro other differ
    refine ⟨?_, Blocks.add_block differ⟩
    rw [Blocks.live_add fine.heap.inodes]
    exact or_iff_left differ
  · intro _
    rw [isContent]
  · rw [isContent]
    intro impossible
    cases impossible
  · rw [isContent]
    exact fun _ => ⟨rfl, rfl⟩
  · rw [isContent]
    rintro j ⟨⟩
    exact ⟨rfl, rfl⟩
  · rw [isPc]
    rfl
  · rw [isPc]
    rfl
  · rw [isPc]
    rfl
  · exact ⟨⟨mine.holder, mine.live, mine.unopened, mine.name⟩,
      fine.heap.inodes.live_new, isContent⟩

/-- The device of a task gets its first reference, and maybe a name. -/
theorem DeviceSystem.Fine.stores (fine : system.Fine refcount holder) {name stored : Option Nat}
    (mine : system.shared.Mine holder i device none)
    (fresh : system.shared.Fresh i iFop inode)
    (isDevice : (system.threads i).device = some device)
    (isInode : (system.threads i).inode = some inode)
    (isName : (system.threads i).name = name) (named : system.shared.Named device name)
    (hasName : iFop = .binderFops ↔ name ≠ none) (isStored : stored = name) :
    (system.move i (system.shared.setDevice device ⟨refcount.one, stored⟩)
      (.instantiate iFop device inode name)).Fine refcount
        (Function.update holder device (.task i)) := by
  cases isStored
  have isContent := @Blocks.set_block_self _ system.shared.devices device ⟨refcount.one, name⟩
  refine fine.setDevice mine.holder isDevice mine.live
    (fun isOpened => absurd isOpened mine.unopened) (.inl ⟨rfl, rfl⟩) isInode.symm ?_ ?_
  · rintro text (isText | isText) _
    · cases isName.symm.trans isText
      exact ⟨(named text rfl).2, rfl⟩
    · cases mine.name.symm.trans isText
  · refine ⟨⟨Function.update_self .., mine.live, mine.unopened, ?_⟩, ⟨fresh.live, fresh.block⟩,
      named, ?_, hasName⟩
    · exact congrArg DeviceBlock.contextName isContent
    · exact congrArg DeviceBlock.ref isContent

/-- The first reference to a device is dropped. -/
theorem DeviceSystem.Fine.drops (fine : system.Fine refcount holder)
    (isPc : system.threads i = .drop device) {succeeds : Bool}
    (goes : DevicePc.advance refcount i system.shared succeeds (.drop device) =
      some (after, goal)) :
    ∃ next, (system.move i after goal).Fine refcount next := by
  have before := fine.tasks i
  rw [isPc] at before
  obtain ⟨isHolder, complete⟩ := before
  have isLast := refcount.last_iff (system.shared.contexts.count device)
  rw [← complete.counted] at isLast
  cases goes
  have isDevice : (system.threads i).device = some device := by rw [isPc]; rfl
  have isInode : none = (system.threads i).inode := by rw [isPc]; rfl
  have noName : (system.threads i).name = none := by rw [isPc]; rfl
  have keepsName : ∀ text, (system.threads i).name = some text ∨
      (system.shared.devices.block device).contextName = some text →
        system.shared.names.Live text → system.shared.names.block text = device ∧
          (system.shared.devices.block device).contextName = some text := by
    rintro text (isName | isStored) _
    · cases noName.symm.trans isName
    · exact ⟨(complete.named text isStored).2, isStored⟩
  cases last : (refcount.decAndTest (system.shared.devices.block device).ref).1 with
  | true =>
      have unopened := List.count_eq_zero.mp (isLast.mp last)
      refine ⟨Function.update holder device (.task i), fine.setDevice isHolder isDevice
        complete.live (fun _ => rfl) (.inl ⟨rfl, rfl⟩) isInode keepsName ?_⟩
      refine ⟨_, ⟨Function.update_self .., complete.live, unopened, ?_⟩, complete.named⟩
      simp [DeviceHeap.setDevice]
  | false =>
      have isOpened : device ∈ system.shared.contexts := by
        by_contra notOpened
        have isLast' := isLast.mpr (List.count_eq_zero.mpr notOpened)
        cases last.symm.trans isLast'
      exact ⟨Function.update holder device .nobody, fine.setDevice isHolder isDevice complete.live
        (fun _ => rfl) (.inr ⟨rfl, isOpened⟩) isInode keepsName trivial⟩

/-- A task in `binder_open` has its device, or gives up. -/
theorem DeviceSystem.Fine.loads (fine : system.Fine refcount holder)
    (isPc : system.threads i = .load inode) {succeeds : Bool}
    (goes : DevicePc.advance refcount i system.shared succeeds (.load inode) =
      some (after, goal)) :
    (system.move i after goal).Fine refcount holder := by
  have before := fine.tasks i
  rw [isPc] at before
  have noTask := fine.heap.task_none before
  have noDevice : none = (system.threads i).device := by rw [isPc]; rfl
  have noInode : (system.threads i).inode = none := by rw [isPc]; rfl
  have noName : (system.threads i).name = none := by rw [isPc]; rfl
  cases succeeds with
  | true =>
      simp only [DevicePc.advance, if_true] at goes
      obtain ⟨device, isPrivate, same⟩ := Option.map_eq_some_iff.mp goes
      cases same
      have isSame : system.shared.setInode inode (system.shared.inodes.block inode) =
          system.shared := by
        simp [DeviceHeap.setInode, Blocks.set]
      rw [← isSame]
      refine fine.setInode before.live noTask rfl rfl (.inl noTask)
        (fun _ _ isOpening => isOpening) noDevice noInode noName ?_
      rw [isSame]
      exact ⟨before, isPrivate⟩
  | false =>
      cases goes
      exact fine.setInode before.live noTask rfl rfl (.inl noTask)
        (fun _ isOther isOpening => (List.mem_erase_of_ne isOther).mpr isOpening)
        noDevice noInode noName trivial

/-- A task goes on. -/
theorem DeviceSystem.Fine.advances (fine : system.Fine refcount holder) {succeeds : Bool}
    (goes : (system.threads i).advance refcount i system.shared succeeds = some (after, goal)) :
    ∃ next, (system.move i after goal).Fine refcount next := by
  have before := fine.tasks i
  cases isPc : system.threads i with
  | idle =>
      rw [isPc] at goes
      cases goes
  | newInode iFop device =>
      rw [isPc] at goes before
      cases succeeds with
      | true =>
          cases goes
          exact ⟨holder, fine.makesInode before isPc⟩
      | false =>
          cases goes
          refine ⟨holder, fine.goto before ?_ ?_ ?_ ?_⟩
          · rw [isPc, DevicePc.err_device]
            rfl
          · rw [isPc, DevicePc.err_inode]
            rfl
          · rw [isPc]
            rfl
          · exact DevicePc.err_fine before DeviceHeap.named_none (fun _ => rfl)
              fun _ isMade => by cases isMade
  | kmemdup iFop device inode =>
      rw [isPc] at goes before
      obtain ⟨mine, fresh⟩ := before
      have isDevice : (system.threads i).device = some device := by rw [isPc]; rfl
      have isInode : (system.threads i).inode = some inode := by rw [isPc]; rfl
      have noName : (system.threads i).name = none := by rw [isPc]; rfl
      cases iFop with
      | binderFops =>
          cases succeeds with
          | true =>
              cases goes
              exact ⟨holder, fine.copiesName mine fresh isPc⟩
          | false =>
              cases goes
              exact ⟨holder, fine.goto mine isDevice.symm isInode.symm noName
                ⟨mine, DeviceHeap.named_none, fresh.made⟩⟩
      | binderCtlFops =>
          cases succeeds with
          | true =>
              cases goes
              exact ⟨_, fine.stores mine fresh isDevice isInode noName DeviceHeap.named_none
                (by simp) mine.name⟩
          | false =>
              cases goes
              exact ⟨holder, fine.goto mine isDevice.symm isInode.symm noName
                ⟨⟨none, mine, DeviceHeap.unnamed_none⟩, fresh.made⟩⟩
  | store device inode name =>
      rw [isPc] at goes before
      obtain ⟨mine, fresh, named⟩ := before
      cases goes
      refine ⟨_, fine.stores mine fresh ?_ ?_ ?_ named (by simp) rfl⟩
      · rw [isPc]
        rfl
      · rw [isPc]
        rfl
      · rw [isPc]
        rfl
  | instantiate iFop device inode name =>
      rw [isPc] at goes before
      cases succeeds with
      | true =>
          cases goes
          exact ⟨_, fine.instantiates isPc⟩
      | false =>
          cases goes
          obtain ⟨mine, fresh, named, isOne, hasName⟩ := before
          refine ⟨holder, fine.goto mine ?_ ?_ ?_ ?_⟩
          · rw [isPc, DevicePc.err_device]
            rfl
          · rw [isPc, DevicePc.err_inode]
            rfl
          · rw [isPc]
            rfl
          · refine DevicePc.err_fine mine named (fun isControl => ?_) fresh.made
            by_contra some
            cases isControl.symm.trans (hasName.mpr some)
  | kfreeName device made name =>
      rw [isPc] at goes before
      obtain ⟨mine, named, isMade⟩ := before
      cases goes
      refine ⟨holder, fine.freesName mine named ?_ ?_ ?_ fun unnamed => ⟨⟨name, mine.kfreeName,
        unnamed⟩, fun inode isInode => ?_⟩⟩
      · rw [isPc]
        rfl
      · rw [isPc]
        rfl
      · rw [isPc]
        rfl
      · obtain ⟨iFop, fresh⟩ := isMade inode isInode
        exact ⟨iFop, fresh.kfreeName⟩
  | kfreeDevice device made =>
      rw [isPc] at goes before
      obtain ⟨⟨name, mine, unnamed⟩, isMade⟩ := before
      have isDevice : (system.threads i).device = some device := by rw [isPc]; rfl
      have isInode : (system.threads i).inode = made := by rw [isPc]; rfl
      have noName : (system.threads i).name = none := by rw [isPc]; rfl
      cases made with
      | none =>
          cases goes
          exact ⟨_, fine.frees mine unnamed isDevice noName isInode.symm trivial⟩
      | some inode =>
          cases goes
          obtain ⟨iFop, fresh⟩ := isMade inode rfl
          refine ⟨_, fine.frees mine unnamed isDevice noName isInode.symm ⟨fresh.live, ?_⟩⟩
          exact congrArg InodeBlock.task fresh.block
  | load inode =>
      rw [isPc] at goes
      exact ⟨holder, fine.loads isPc goes⟩
  | count inode device =>
      rw [isPc] at goes
      cases goes
      exact ⟨holder, fine.counts isPc rfl rfl⟩
  | evict inode =>
      rw [isPc] at goes before
      obtain ⟨live, _⟩ := before
      cases isPrivate : (system.shared.inodes.block inode).iPrivate with
      | none =>
          simp only [DevicePc.advance, isPrivate] at goes
          cases goes
          refine ⟨holder, fine.evicts isPc (fun _ _ _ => rfl) ?_ trivial⟩
          intro device _ isDevice
          cases isPrivate.symm.trans isDevice
      | some device =>
          simp only [DevicePc.advance, isPrivate] at goes
          cases goes
          obtain ⟨_, complete, _⟩ := fine.heap.held inode device live isPrivate
          refine ⟨Function.update holder device (.task i), fine.evicts isPc ?_ ?_
            ⟨Function.update_self .., complete.live, complete.counted, complete.named⟩⟩
          · intro other _ isOther
            refine Function.update_of_ne ?_ ..
            rintro rfl
            exact isOther isPrivate
          · intro other _ isDevice
            cases isPrivate.symm.trans isDevice
            exact ⟨Function.update_self .., rfl⟩
  | drop device =>
      rw [isPc] at goes
      exact fine.drops isPc goes
  | evictName device =>
      rw [isPc] at goes before
      obtain ⟨name, mine, named⟩ := before
      cases goes
      rw [mine.name]
      refine ⟨holder, fine.freesName mine named ?_ ?_ ?_ fun unnamed =>
        ⟨name, mine.kfreeName, unnamed⟩⟩
      · rw [isPc]
        rfl
      · rw [isPc]
        rfl
      · rw [isPc]
        rfl
  | evictDevice device =>
      rw [isPc] at goes before
      obtain ⟨name, mine, unnamed⟩ := before
      cases goes
      refine ⟨_, fine.frees mine unnamed ?_ ?_ ?_ trivial⟩
      · rw [isPc]
        rfl
      · rw [isPc]
        rfl
      · rw [isPc]
        rfl

/-- Every step keeps the invariant. -/
theorem DeviceStep.fine {final : DeviceSystem ι R} (taken : DeviceStep refcount system i final)
    (fine : ∃ holder, system.Fine refcount holder) : ∃ holder, final.Fine refcount holder := by
  obtain ⟨holder, fine⟩ := fine
  cases taken with
  | create iFop isIdle => exact ⟨_, fine.creates isIdle⟩
  | opens isIdle live isEntry isDevice =>
      refine ⟨holder, fine.setInode live isEntry rfl rfl (.inl isEntry)
        (fun _ _ isOpening => List.mem_cons_of_mem _ isOpening) ?_ ?_ ?_ ⟨live, ?_, ?_⟩⟩
      · rw [isIdle]
        rfl
      · rw [isIdle]
        rfl
      · rw [isIdle]
        rfl
      · simp [DeviceHeap.setInode]
      · simpa [DeviceHeap.setInode] using isDevice
  | @closes inode isIdle live isOpen =>
      have isEntry : (system.shared.inodes.block inode).task = none := by
        by_contra isTask
        rw [(fine.heap.closed inode live isTask).2] at isOpen
        exact Nat.lt_irrefl 0 isOpen
      refine ⟨holder, fine.setInode live isEntry rfl rfl (.inl isEntry)
        (fun _ _ isOpening => isOpening) ?_ ?_ ?_ trivial⟩
      · rw [isIdle]
      · rw [isIdle]
        rfl
      · rw [isIdle]
        rfl
  | unmounts isIdle live isEntry noTask noFile =>
      refine ⟨holder, fine.setInode live isEntry rfl rfl (.inr ⟨rfl, noTask, noFile, rfl⟩)
        (fun _ _ isOpening => isOpening) ?_ ?_ ?_ ⟨live, ?_⟩⟩
      · rw [isIdle]
        rfl
      · rw [isIdle]
        rfl
      · rw [isIdle]
        rfl
      · simp [DeviceHeap.setInode]
  | advances goes => exact fine.advances goes

omit [DecidableEq ι] in
theorem DeviceSystem.fine_init :
    (DeviceSystem.init refcount ι).Fine refcount fun _ => Holder.nobody where
  tasks _ := trivial
  heap :=
    { devices := ⟨fun _ none => absurd none List.not_mem_nil, List.nodup_nil⟩
      names := ⟨fun _ none => absurd none List.not_mem_nil, List.nodup_nil⟩
      inodes := ⟨fun _ none => absurd none List.not_mem_nil, List.nodup_nil⟩
      held := fun _ _ live => absurd live.1 (Nat.not_lt_zero _)
      entry := fun _ live => absurd live.1 (Nat.not_lt_zero _)
      closed := fun _ live => absurd live.1 (Nat.not_lt_zero _)
      contexts := fun _ none => absurd none List.not_mem_nil }
  kept :=
    { task := fun _ _ live => absurd live.1 (Nat.not_lt_zero _)
      inode := fun _ _ live => absurd live.1 (Nat.not_lt_zero _)
      nobody := fun _ live => absurd live.1 (Nat.not_lt_zero _)
      inodes := fun _ _ live => absurd live.1 (Nat.not_lt_zero _)
      names := fun _ live => absurd live.1 (Nat.not_lt_zero _) }

/-! ## What a run keeps -/

omit [DecidableEq ι] in
/-- A device that a task, an inode or a process has is there, with its name. -/
theorem DeviceSystem.Fine.accesses (fine : system.Fine refcount holder) :
    (∀ device ∈ ((system.threads i).accesses system.shared).1,
      system.shared.devices.Live device) ∧
    (∀ name ∈ ((system.threads i).accesses system.shared).2.1, system.shared.names.Live name) ∧
    (∀ inode ∈ ((system.threads i).accesses system.shared).2.2,
      system.shared.inodes.Live inode) := by
  have before := fine.tasks i
  cases isPc : system.threads i with
  | idle | newInode => simp [DevicePc.accesses]
  | kmemdup iFop device inode =>
      rw [isPc] at before
      cases iFop with
      | binderFops => simpa [DevicePc.accesses] using before.2.live
      | binderCtlFops => simpa [DevicePc.accesses] using ⟨before.1.live, before.2.live⟩
  | store device inode name =>
      rw [isPc] at before
      simpa [DevicePc.accesses] using before.1.live
  | instantiate iFop device inode name =>
      rw [isPc] at before
      simpa [DevicePc.accesses] using
        ⟨fun text isName => (before.2.2.1 text isName).1, before.2.1.live⟩
  | kfreeName device inode name =>
      rw [isPc] at before
      simpa [DevicePc.accesses] using fun text isName => (before.2.1 text isName).1
  | kfreeDevice device inode =>
      rw [isPc] at before
      obtain ⟨⟨_, mine, _⟩, _⟩ := before
      simpa [DevicePc.accesses] using mine.live
  | load inode =>
      rw [isPc] at before
      simpa [DevicePc.accesses] using DeviceHeap.Opens.live before
  | count inode device =>
      rw [isPc] at before
      obtain ⟨opens, isPrivate⟩ := before
      have complete := (fine.heap.held inode device opens.live isPrivate).2.1
      simpa [DevicePc.accesses] using ⟨complete.live, opens.live⟩
  | evict inode =>
      rw [isPc] at before
      simpa [DevicePc.accesses] using before.1
  | drop device =>
      rw [isPc] at before
      simpa [DevicePc.accesses] using before.2.live
  | evictName device =>
      rw [isPc] at before
      obtain ⟨name, mine, named⟩ := before
      refine ⟨by simpa [DevicePc.accesses] using mine.live, ?_, by simp [DevicePc.accesses]⟩
      intro text isText
      simp only [DevicePc.accesses, Option.mem_toList, mine.name] at isText
      exact (named text isText).1
  | evictDevice device =>
      rw [isPc] at before
      obtain ⟨_, mine, _⟩ := before
      simpa [DevicePc.accesses] using mine.live

omit [DecidableEq ι] in
/-- While no task is in the middle of something, what is there is in use. -/
theorem DeviceSystem.Fine.settled (fine : system.Fine refcount holder)
    (allIdle : ∀ i, system.threads i = .idle) :
    (∀ device, system.shared.devices.Live device ↔ device ∈ system.shared.contexts ∨
      ∃ inode, system.shared.inodes.Live inode ∧
        (system.shared.inodes.block inode).iPrivate = some device) ∧
    (∀ name, system.shared.names.Live name ↔ ∃ device, system.shared.devices.Live device ∧
      (system.shared.devices.block device).contextName = some name) ∧
    (∀ inode, system.shared.inodes.Live inode →
      (system.shared.inodes.block inode).task = none) := by
  have isUsed : ∀ device, system.shared.devices.Live device → device ∈ system.shared.contexts ∨
      ∃ inode, system.shared.inodes.Live inode ∧
        (system.shared.inodes.block inode).iPrivate = some device := by
    intro device live
    cases isHolder : holder device with
    | task i =>
        have isDevice := fine.kept.task device i live isHolder
        rw [allIdle] at isDevice
        cases isDevice
    | inode inode => exact .inr ⟨inode, fine.kept.inode device inode live isHolder⟩
    | nobody => exact .inl (fine.kept.nobody device live isHolder)
  refine ⟨fun device => ⟨isUsed device, ?_⟩, fun name => ⟨?_, ?_⟩, ?_⟩
  · rintro (isOpened | ⟨inode, live, isPrivate⟩)
    · exact (fine.heap.contexts device isOpened).1
    · exact (fine.heap.held inode device live isPrivate).2.1.live
  · intro live
    rcases fine.kept.names name live with ⟨i, inHand⟩ | settled
    · rw [allIdle] at inHand
      cases inHand
    · exact ⟨_, settled⟩
  · rintro ⟨device, live, isStored⟩
    rcases isUsed device live with isOpened | ⟨inode, liveInode, isPrivate⟩
    · exact ((fine.heap.contexts device isOpened).2.2 name isStored).1
    · exact ((fine.heap.held inode device liveInode isPrivate).2.1.named name isStored).1
  · intro inode live
    cases isTask : (system.shared.inodes.block inode).task with
    | none => rfl
    | some i =>
        have isInode := fine.kept.inodes inode i live isTask
        rw [allIdle] at isInode
        cases isInode

/-- Whatever the tasks do, the context and the name that a process has got when it opened a
device are there.  No task accesses or frees memory that was freed, `binder_open` finds a
device in every inode, and when all tasks are done, a device is there just if a process has
opened it or its inode is in the directory. -/
theorem contexts_stay_valid {events : List ι}
    (run : Run (DeviceStep refcount) (DeviceSystem.init refcount ι) events system) :
    (∀ device ∈ system.shared.contexts, system.shared.devices.Live device ∧
      ∃ name, (system.shared.devices.block device).contextName = some name ∧
        system.shared.names.Live name) ∧
    (∀ i, (∀ device ∈ ((system.threads i).accesses system.shared).1,
        system.shared.devices.Live device) ∧
      (∀ name ∈ ((system.threads i).accesses system.shared).2.1,
        system.shared.names.Live name) ∧
      ∀ inode ∈ ((system.threads i).accesses system.shared).2.2,
        system.shared.inodes.Live inode) ∧
    (system.shared.devices.freed.Nodup ∧ system.shared.names.freed.Nodup ∧
      system.shared.inodes.freed.Nodup) ∧
    (∀ i inode, system.threads i = .load inode →
      (system.shared.inodes.block inode).iPrivate ≠ none) ∧
    ((∀ i, system.threads i = .idle) →
      (∀ device, system.shared.devices.Live device ↔ device ∈ system.shared.contexts ∨
        ∃ inode, system.shared.inodes.Live inode ∧
          (system.shared.inodes.block inode).iPrivate = some device) ∧
      (∀ name, system.shared.names.Live name ↔ ∃ device, system.shared.devices.Live device ∧
        (system.shared.devices.block device).contextName = some name) ∧
      ∀ inode, system.shared.inodes.Live inode →
        (system.shared.inodes.block inode).task = none) := by
  obtain ⟨holder, fine⟩ := run.invariant (fun system => ∃ holder, system.Fine refcount holder)
    ⟨_, DeviceSystem.fine_init⟩ fun fine taken => taken.fine fine
  refine ⟨?_, fun i => fine.accesses, ⟨fine.heap.devices.once, fine.heap.names.once,
    fine.heap.inodes.once⟩, ?_, fine.settled⟩
  · intro device isOpened
    obtain ⟨live, hasName, named⟩ := fine.heap.contexts device isOpened
    obtain ⟨name, isName⟩ := Option.ne_none_iff_exists'.mp hasName
    exact ⟨live, name, isName, (named name isName).1⟩
  · intro i inode isPc
    have opens := fine.tasks i
    rw [isPc] at opens
    exact fine.heap.entry inode opens.live (fine.heap.task_none opens)

end Heap

/-- A device is created, opened and closed, and the file system is unmounted. -/
theorem opened_and_unmounted : ∃ events system,
    Run (DeviceStep linuxRefcount) (DeviceSystem.init linuxRefcount Unit) events system ∧
      system.shared.contexts = [0] ∧ system.shared.inodes.freed = [0] := by
  have start := Run.nil.snoc (@DeviceStep.create Unit Int _ linuxRefcount
    (DeviceSystem.init linuxRefcount Unit) () .binderFops rfl)
  have made := ((((start.snoc (@DeviceStep.advances _ _ _ _ _ () true _ _ rfl)).snoc
    (@DeviceStep.advances _ _ _ _ _ () true _ _ rfl)).snoc
    (@DeviceStep.advances _ _ _ _ _ () true _ _ rfl)).snoc
    (@DeviceStep.advances _ _ _ _ _ () true _ _ rfl))
  have opened := ((made.snoc
    (@DeviceStep.opens _ _ _ _ _ () 0 rfl ⟨Nat.one_pos, List.not_mem_nil⟩ rfl rfl)).snoc
    (@DeviceStep.advances _ _ _ _ _ () true _ _ rfl)).snoc
    (@DeviceStep.advances _ _ _ _ _ () true _ _ rfl)
  have closed := opened.snoc
    (@DeviceStep.closes _ _ _ _ _ () 0 rfl ⟨Nat.one_pos, List.not_mem_nil⟩ Nat.one_pos)
  have unmounted := ((closed.snoc
    (@DeviceStep.unmounts _ _ _ _ _ () 0 rfl ⟨Nat.one_pos, List.not_mem_nil⟩ rfl rfl rfl)).snoc
    (@DeviceStep.advances _ _ _ _ _ () true _ _ rfl)).snoc
    (@DeviceStep.advances _ _ _ _ _ () true _ _ rfl)
  exact ⟨_, _, unmounted, rfl, rfl⟩

/-- The context of the process that opened the device outlives the file system. -/
theorem contexts_stay_valid_unmounted : ∃ events system,
    Run (DeviceStep linuxRefcount) (DeviceSystem.init linuxRefcount Unit) events system ∧
      system.shared.inodes.freed = [0] ∧ system.shared.devices.Live 0 := by
  obtain ⟨events, system, run, isOpened, isFreed⟩ := opened_and_unmounted
  refine ⟨events, system, run, isFreed, ((contexts_stay_valid run).1 0 ?_).1⟩
  rw [isOpened]
  exact List.mem_singleton_self 0

end DroidKernal.Binderfs
