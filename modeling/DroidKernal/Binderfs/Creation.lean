import DroidKernal.Binderfs.Requests
import DroidKernal.Lib.Ids

/-!
# The creation of devices

An id of `binderfs_minors` is held by the inode that it was taken for, or by the task
that is about to make that inode.  `Lawful` says so for all mounts at once, and that
`device_count` is the number of ids that the devices of the mount hold.
-/

namespace DroidKernal.Binderfs

open Lib

/-! ## Who holds what -/

/-- The id that was taken for an inode. -/
def Dentry.holds (sb : Nat) (dentry : Dentry) : Taker → Multiset Nat :=
  match dentry.inode.iPrivate with
  | none => 0
  | some device => Pi.single ⟨sb, dentry.inode.iFop⟩ {device.minor}

/-- The ids of all inodes of a mount. -/
def Mount.holds (sb : Nat) (mount : Mount) : Taker → Multiset Nat :=
  (mount.root.map (Dentry.holds sb)).sum

/-- The ids of all inodes. -/
def Filesystem.live (fs : Filesystem) (taker : Taker) : Multiset Nat :=
  (fs.mounts taker.mount).holds taker.mount taker

/-- The id that a task has taken for an inode to come. -/
def Progress.holds : Progress → Taker → Multiset Nat
  | numbered sb _ _ minor | failing sb _ _ minor _ => Pi.single ⟨sb, .binderFops⟩ {minor}
  | ready sb _ _ device => Pi.single ⟨sb, .binderFops⟩ {device.minor}
  | controlled sb _ minor => Pi.single ⟨sb, .binderCtlFops⟩ {minor}
  | _ => 0

/-- The ids of all inodes and tasks. -/
def heldIds (fs : Filesystem) (all : Multiset Progress) : Taker → Multiset Nat :=
  fs.live + (all.map Progress.holds).sum

/-- The mount whose `binderfs_fill_super` a task is in. -/
def Progress.fills : Progress → Option Nat
  | requesting sb _ (.fillSuper _) | numbered sb _ (.fillSuper _) _ => some sb
  | ready sb (.fillSuper _) _ _ | failing sb (.fillSuper _) _ _ _ => some sb
  | abandoning sb (.fillSuper _) _ _ => some sb
  | controlling sb _ | controlled sb _ _ | filling sb _ | unfilled sb _ => some sb
  | _ => none

/-- The mount and the caller of the request that a task is in. -/
def Progress.request : Progress → Option (Nat × Caller)
  | requesting sb _ caller | numbered sb _ caller _ | ready sb caller _ _ => some (sb, caller)
  | failing sb caller _ _ _ | abandoning sb caller _ _ => some (sb, caller)
  | _ => none

/-- The mount that is filled by a request. -/
def Caller.fills (sb : Nat) : Caller → Option Nat
  | ctlIoctl => none
  | fillSuper _ => some sb

/-- The devices of a mount. -/
def Mount.devices (mount : Mount) : List Dentry :=
  mount.root.filter fun dentry => dentry.inode.iFop = .binderFops

/-- An inode in a directory has a device, and the device number of its minor. -/
def Dentry.Sound (binderfsDev : UInt32) (dentry : Dentry) : Prop :=
  ∃ device, dentry.inode.iPrivate = some device ∧ dentry.inode.isChr = true ∧
    dentry.inode.iRdev = mkdev (major binderfsDev) (UInt32.ofNat device.minor)

/-- An inode that a task has made is as `init_special_inode` left it. -/
def Progress.Sound (binderfsDev : UInt32) : Progress → Prop
  | ready _ _ inode device => inode = deviceInode binderfsDev device.minor
  | failing _ _ _ minor inode => ∀ made ∈ inode, made = deviceInode binderfsDev minor
  | abandoning _ _ _ inode => ∀ made ∈ inode, ∃ minor, made = deviceInode binderfsDev minor
  | _ => True

/-! ## The laws -/

/-- Where the tasks are. -/
structure TasksLawful (binderfsDev : UInt32) (fs : Filesystem) (all : Multiset Progress) :
    Prop where
  placed : ∀ place ∈ all, ∀ sb, place.mount = some sb → sb < fs.mountCount
  fillers : ∀ sb, (all.countP fun place => place.fills = some sb) ≤
    if (fs.mounts sb).status = .filling then 1 else 0
  killers : ∀ place ∈ all, ∀ sb ret, place = .killing sb ret → (fs.mounts sb).status = .killed
  sound : ∀ place ∈ all, place.Sound binderfsDev

/-- What is in the directories. -/
structure RootsLawful (binderfsDev : UInt32) (fs : Filesystem) : Prop where
  unborn : ∀ sb, fs.mountCount ≤ sb → (fs.mounts sb).root = []
  names : ∀ sb, ((fs.mounts sb).devices.map Dentry.name).Nodup
  sound : ∀ sb, ∀ dentry ∈ (fs.mounts sb).root, dentry.Sound binderfsDev

/-- Whose ids are in use. -/
structure IdsLawful (fs : Filesystem) (held : Taker → Multiset Nat) : Prop where
  accounted : Accounted (fun taker => taker.iFop = .binderFops) fs.minors held
  count : ∀ sb, (fs.mounts sb).status ≠ .killed →
    (fs.mounts sb).deviceCount = (held ⟨sb, .binderFops⟩).card

/-- The file system fits the places of all tasks. -/
structure Lawful (binderfsDev : UInt32) (fs : Filesystem) (all : Multiset Progress) : Prop where
  tasks : TasksLawful binderfsDev fs all
  roots : RootsLawful binderfsDev fs
  ids : IdsLawful fs (heldIds fs all)

section Laws

variable {binderfsDev : UInt32} {fs next : Filesystem} {others all : Multiset Progress}
  {place after : Progress} {held : Taker → Multiset Nat} {sb id : Nat}

@[simp] theorem updateMount_self (change : Mount → Mount) :
    (fs.updateMount sb change).mounts sb = change (fs.mounts sb) :=
  Function.update_self ..

theorem updateMount_other {other : Nat} (differ : other ≠ sb) (change : Mount → Mount) :
    (fs.updateMount sb change).mounts other = fs.mounts other :=
  Function.update_of_ne differ ..

/-- What a change of one mount leaves alone, it leaves alone in all mounts. -/
theorem updateMount_field {α : Type*} (field : Mount → α) {change : Mount → Mount}
    (kept : field (change (fs.mounts sb)) = field (fs.mounts sb)) (other : Nat) :
    field ((fs.updateMount sb change).mounts other) = field (fs.mounts other) := by
  by_cases same : other = sb
  · cases same
    rw [updateMount_self, kept]
  · rw [updateMount_other same]

/-- Counts and ids apart, nothing differs. -/
structure SameRoots (fs next : Filesystem) : Prop where
  count : next.mountCount = fs.mountCount
  status : ∀ sb, (next.mounts sb).status = (fs.mounts sb).status
  root : ∀ sb, (next.mounts sb).root = (fs.mounts sb).root

theorem SameRoots.refl : SameRoots fs fs where
  count := rfl
  status _ := rfl
  root _ := rfl

theorem SameRoots.updateMount {change : Mount → Mount}
    (status : (change (fs.mounts sb)).status = (fs.mounts sb).status)
    (root : (change (fs.mounts sb)).root = (fs.mounts sb).root) :
    SameRoots fs (fs.updateMount sb change) where
  count := rfl
  status := updateMount_field Mount.status status
  root := updateMount_field Mount.root root

theorem SameRoots.setMinor (same : SameRoots fs next) {taker : Option Taker} :
    SameRoots fs (next.setMinor id taker) where
  count := same.count
  status := same.status
  root := same.root

/-! ### Inodes -/

theorem Dentry.holds_elsewhere (dentry : Dentry) {taker : Taker} (elsewhere : taker.mount ≠ sb) :
    dentry.holds sb taker = 0 := by
  cases isDevice : dentry.inode.iPrivate with
  | none => simp only [Dentry.holds, isDevice, Pi.zero_apply]
  | some device =>
      simp only [Dentry.holds, isDevice]
      apply Pi.single_eq_of_ne
      rintro rfl
      exact elsewhere rfl

/-- One mount differs, by an inode more. -/
theorem live_add {dentry : Dentry}
    (same : ∀ other, other ≠ sb → next.mounts other = fs.mounts other)
    (more : (next.mounts sb).holds sb = (fs.mounts sb).holds sb + dentry.holds sb) :
    next.live = fs.live + dentry.holds sb := by
  funext taker
  by_cases here : taker.mount = sb
  · simp only [Filesystem.live, Pi.add_apply, here]
    exact congrFun more taker
  · simp only [Filesystem.live, Pi.add_apply, same _ here, dentry.holds_elsewhere here, add_zero]

/-- No directory differs. -/
theorem live_congr (same : ∀ sb, (next.mounts sb).root = (fs.mounts sb).root) :
    next.live = fs.live := by
  funext taker
  simp only [Filesystem.live, Mount.holds, same]

theorem heldIds_add :
    heldIds fs (others + {place}) = fs.live + (others.map Progress.holds).sum + place.holds := by
  rw [heldIds, Multiset.map_add, Multiset.sum_add, Multiset.map_singleton, Multiset.sum_singleton,
    add_assoc]

/-- The ids that are held by all inodes and by a task. -/
theorem heldIds_live (same : ∀ sb, (next.mounts sb).root = (fs.mounts sb).root)
    (holds : after.holds = place.holds) :
    heldIds next (others + {after}) = heldIds fs (others + {place}) := by
  rw [heldIds_add, heldIds_add, live_congr same, holds]

/-! ### Tasks -/

/-- Whether a task in a request fills its mount is up to the caller. -/
theorem Progress.fills_request {caller : Caller} (isRequest : place.request = some (sb, caller)) :
    place.fills = caller.fills sb := by
  cases place with
  | requesting _ _ _ => cases isRequest; cases caller <;> rfl
  | numbered _ _ _ _ => cases isRequest; cases caller <;> rfl
  | ready _ _ _ _ => cases isRequest; cases caller <;> rfl
  | failing _ _ _ _ _ => cases isRequest; cases caller <;> rfl
  | abandoning _ _ _ _ => cases isRequest; cases caller <;> rfl
  | _ => cases isRequest

/-- It does not change in the course of the request. -/
theorem Progress.fills_stays {caller : Caller} (isRequest : place.request = some (sb, caller))
    (stays : after.request = some (sb, caller)) {other : Nat}
    (isFiller : after.fills = some other) : place.fills = some other := by
  rw [fills_request isRequest, ← fills_request stays]
  exact isFiller

/-- A task moves, and no mount comes or goes. -/
theorem TasksLawful.move (lawful : TasksLawful binderfsDev fs (others + {place}))
    (count : next.mountCount = fs.mountCount)
    (status : ∀ sb, (next.mounts sb).status = (fs.mounts sb).status)
    (placed : ∀ sb, after.mount = some sb → sb < fs.mountCount)
    (fills : ∀ sb, after.fills = some sb → place.fills = some sb)
    (killers : ∀ sb ret, after = .killing sb ret → (fs.mounts sb).status = .killed)
    (sound : after.Sound binderfsDev) : TasksLawful binderfsDev next (others + {after}) where
  placed other member sb isMount := by
    rw [count]
    rcases Multiset.mem_add.mp member with old | new
    · exact lawful.placed other (Multiset.mem_add.mpr (.inl old)) sb isMount
    · cases Multiset.mem_singleton.mp new
      exact placed sb isMount
  fillers sb := by
    rw [status]
    apply Nat.le_trans _ (lawful.fillers sb)
    rw [countP_add_singleton, countP_add_singleton]
    apply Nat.add_le_add_left
    split
    next filler => rw [if_pos (fills sb filler)]
    next => exact Nat.zero_le _
  killers other member sb ret isKiller := by
    rw [status]
    rcases Multiset.mem_add.mp member with old | new
    · exact lawful.killers other (Multiset.mem_add.mpr (.inl old)) sb ret isKiller
    · cases Multiset.mem_singleton.mp new
      exact killers sb ret isKiller
  sound other member := by
    rcases Multiset.mem_add.mp member with old | new
    · exact lawful.sound other (Multiset.mem_add.mpr (.inl old))
    · cases Multiset.mem_singleton.mp new
      exact sound

/-! ### Directories -/

theorem RootsLawful.congr (lawful : RootsLawful binderfsDev fs)
    (count : fs.mountCount ≤ next.mountCount)
    (same : ∀ sb, (next.mounts sb).root = (fs.mounts sb).root) : RootsLawful binderfsDev next where
  unborn sb isUnborn := by
    rw [same]
    exact lawful.unborn sb (Nat.le_trans count isUnborn)
  names sb := by
    rw [Mount.devices, same]
    exact lawful.names sb
  sound sb := by
    rw [same]
    exact lawful.sound sb

/-! ### Ids -/

/-- A change that leaves the ids alone. -/
theorem IdsLawful.congr (lawful : IdsLawful fs held) (minors : next.minors = fs.minors)
    (count : ∀ sb, (next.mounts sb).status ≠ .killed → (fs.mounts sb).status ≠ .killed ∧
      (next.mounts sb).deviceCount = (fs.mounts sb).deviceCount) : IdsLawful next held where
  accounted := minors ▸ lawful.accounted
  count sb alive := by
    rw [(count sb alive).2]
    exact lawful.count sb (count sb alive).1

/-- `binderfs_binder_device_create` takes an id. -/
theorem IdsLawful.take (lawful : IdsLawful fs held) (unused : fs.minors id = none) :
    IdsLawful
      ((fs.updateMount sb fun m => { m with deviceCount := m.deviceCount + 1 }).setMinor id
        (some ⟨sb, .binderFops⟩))
      (held + Pi.single ⟨sb, .binderFops⟩ {id}) where
  accounted := lawful.accounted.take unused
  count other alive := by
    by_cases same : other = sb
    · cases same
      simp only [Filesystem.setMinor, updateMount_self] at alive ⊢
      rw [lawful.count sb alive, Pi.add_apply, Pi.single_eq_same, Multiset.card_add,
        Multiset.card_singleton, Nat.cast_succ]
    · have notHere : (⟨other, .binderFops⟩ : Taker) ≠ ⟨sb, .binderFops⟩ := by
        rintro ⟨⟩
        exact same rfl
      simp only [Filesystem.setMinor, updateMount_other same] at alive ⊢
      rw [lawful.count other alive, Pi.add_apply, Pi.single_eq_of_ne notHere, add_zero]

/-- `binderfs_binder_ctl_create` takes an id. -/
theorem IdsLawful.takeControl (lawful : IdsLawful fs held) (unused : fs.minors id = none) :
    IdsLawful (fs.setMinor id (some ⟨sb, .binderCtlFops⟩))
      (held + Pi.single ⟨sb, .binderCtlFops⟩ {id}) where
  accounted := lawful.accounted.take unused
  count other alive := by
    have notHere : (⟨other, .binderFops⟩ : Taker) ≠ ⟨sb, .binderCtlFops⟩ := nofun
    rw [Pi.add_apply, Pi.single_eq_of_ne notHere, add_zero]
    exact lawful.count other alive

/-- An id is given back, as a device's or at the end of a mount. -/
theorem IdsLawful.giveBack {iFop : FileOperations}
    (lawful : IdsLawful fs (held + Pi.single ⟨sb, iFop⟩ {id}))
    (counted : iFop = .binderFops ∨ (fs.mounts sb).status = .killed) :
    IdsLawful (giveBack fs sb id) held where
  accounted := lawful.accounted.free
  count other alive := by
    by_cases same : other = sb
    · cases same
      simp only [Binderfs.giveBack, Filesystem.setMinor, updateMount_self] at alive ⊢
      rcases counted with rfl | isKilled
      · rw [lawful.count sb alive, Pi.add_apply, Pi.single_eq_same, Multiset.card_add,
          Multiset.card_singleton, Nat.cast_succ, add_sub_cancel_right]
      · exact absurd isKilled alive
    · have notHere : (⟨other, .binderFops⟩ : Taker) ≠ ⟨sb, iFop⟩ := by
        rintro ⟨⟩
        exact same rfl
      simp only [Binderfs.giveBack, Filesystem.setMinor, updateMount_other same] at alive ⊢
      rw [lawful.count other alive, Pi.add_apply, Pi.single_eq_of_ne notHere, add_zero]

/-- The id of a control inode is lost. -/
theorem IdsLawful.lose (lawful : IdsLawful fs (held + Pi.single ⟨sb, .binderCtlFops⟩ {id})) :
    IdsLawful fs held where
  accounted := lawful.accounted.lose nofun
  count other alive := by
    have notHere : (⟨other, .binderFops⟩ : Taker) ≠ ⟨sb, .binderCtlFops⟩ := nofun
    rw [lawful.count other alive, Pi.add_apply, Pi.single_eq_of_ne notHere, add_zero]

/-! ### What moves with a task -/

/-- A task holds so much more. -/
theorem heldIds_more {extra : Taker → Multiset Nat}
    (same : ∀ sb, (next.mounts sb).root = (fs.mounts sb).root)
    (more : after.holds = place.holds + extra) :
    heldIds next (others + {after}) = heldIds fs (others + {place}) + extra := by
  rw [heldIds_add, heldIds_add, live_congr same, more, add_assoc, add_assoc, add_assoc]

/-- A directory holds what a task held. -/
theorem heldIds_instantiated {dentry : Dentry} (more : next.live = fs.live + dentry.holds sb)
    (less : place.holds = dentry.holds sb) (nothing : after.holds = 0) :
    heldIds next (others + {after}) = heldIds fs (others + {place}) := by
  rw [heldIds_add, heldIds_add, more, less, nothing, add_zero, add_right_comm]

/-- A directory holds so much less. -/
theorem heldIds_evicted {extra : Taker → Multiset Nat} (less : fs.live = next.live + extra) :
    heldIds fs all = heldIds next all + extra := by
  rw [heldIds, heldIds, less, add_right_comm]

theorem Progress.holds_elsewhere {taker : Taker} (elsewhere : place.mount ≠ some taker.mount) :
    place.holds taker = 0 := by
  have notHere (sb : Nat) (iFop : FileOperations) (isMount : place.mount = some sb) :
      taker ≠ ⟨sb, iFop⟩ := by
    rintro rfl
    exact elsewhere isMount
  cases place with
  | numbered sb name caller minor => exact Pi.single_eq_of_ne (notHere sb _ rfl) _
  | ready sb caller inode device => exact Pi.single_eq_of_ne (notHere sb _ rfl) _
  | failing sb caller ret minor inode => exact Pi.single_eq_of_ne (notHere sb _ rfl) _
  | controlled sb names minor => exact Pi.single_eq_of_ne (notHere sb _ rfl) _
  | _ => rfl

/-- Nobody holds an id of a mount to come. -/
theorem heldIds_unborn (tasks : TasksLawful binderfsDev fs all) (roots : RootsLawful binderfsDev fs)
    {taker : Taker} (unborn : fs.mountCount ≤ taker.mount) : heldIds fs all taker = 0 := by
  have noInode : fs.live taker = 0 := by
    rw [Filesystem.live, Mount.holds, roots.unborn _ unborn]
    rfl
  have noTask : ∀ places : Multiset Progress, places ≤ all →
      (places.map Progress.holds).sum taker = 0 := by
    intro places
    induction places using Multiset.induction with
    | empty => exact fun _ => rfl
    | cons place rest ih =>
        intro included
        have member : place ∈ all := Multiset.mem_of_le included (Multiset.mem_cons_self ..)
        have elsewhere : place.mount ≠ some taker.mount := by
          intro here
          exact Nat.not_lt.mpr unborn (tasks.placed place member _ here)
        rw [Multiset.map_cons, Multiset.sum_cons, Pi.add_apply, place.holds_elsewhere elsewhere,
          zero_add]
        exact ih (le_trans (Multiset.le_cons_self ..) included)
  rw [heldIds, Pi.add_apply, noInode, noTask all (le_refl _), add_zero]

/-- A task leaves a mount to itself, and the mount gets another status. -/
theorem TasksLawful.leave (lawful : TasksLawful binderfsDev fs (others + {place}))
    (count : next.mountCount = fs.mountCount)
    (status : ∀ other, other ≠ sb → (next.mounts other).status = (fs.mounts other).status)
    (alone : others.countP (fun place => place.fills = some sb) = 0)
    (killed : (next.mounts sb).status = .killed ∨ (fs.mounts sb).status ≠ .killed)
    (killer : ∀ other ret, after = .killing other ret → (next.mounts other).status = .killed)
    (placed : ∀ other, after.mount = some other → other < fs.mountCount)
    (fills : after.fills = none) (sound : after.Sound binderfsDev) :
    TasksLawful binderfsDev next (others + {after}) where
  placed other member mount isMount := by
    rw [count]
    rcases Multiset.mem_add.mp member with old | new
    · exact lawful.placed other (Multiset.mem_add.mpr (.inl old)) mount isMount
    · cases Multiset.mem_singleton.mp new
      exact placed mount isMount
  fillers other := by
    have notFiller : after.fills ≠ some other := by
      rw [fills]
      nofun
    rw [countP_add_singleton, if_neg notFiller, add_zero]
    by_cases same : other = sb
    · cases same
      rw [alone]
      exact Nat.zero_le _
    · rw [status other same]
      apply Nat.le_trans _ (lawful.fillers other)
      rw [countP_add_singleton]
      exact Nat.le_add_right _ _
  killers other member mount ret isKiller := by
    rcases Multiset.mem_add.mp member with old | new
    · have before := lawful.killers other (Multiset.mem_add.mpr (.inl old)) mount ret isKiller
      by_cases same : mount = sb
      · cases same
        rcases killed with now | notBefore
        · exact now
        · exact absurd before notBefore
      · rw [status mount same]
        exact before
    · cases Multiset.mem_singleton.mp new
      exact killer mount ret isKiller
  sound other member := by
    rcases Multiset.mem_add.mp member with old | new
    · exact lawful.sound other (Multiset.mem_add.mpr (.inl old))
    · cases Multiset.mem_singleton.mp new
      exact sound

/-- The task in `binderfs_fill_super` is the only one there. -/
theorem TasksLawful.alone (lawful : TasksLawful binderfsDev fs (others + {place}))
    (fills : place.fills = some sb) :
    (fs.mounts sb).status = .filling ∧
      others.countP (fun place => place.fills = some sb) = 0 := by
  have fillers := lawful.fillers sb
  rw [countP_add_singleton, if_pos fills] at fillers
  split at fillers
  next isFilling => exact ⟨isFilling, Nat.le_zero.mp (Nat.le_of_succ_le_succ fillers)⟩
  next => exact absurd fillers (Nat.not_succ_le_zero _)

end Laws

/-! ## Every section keeps the laws -/

section Sections

variable {binderfsDev : UInt32} {fs next : Filesystem} {others : Multiset Progress}
  {place after : Progress} {sb : Nat}

theorem updateMount_updateMount (first second : Mount → Mount) :
    (fs.updateMount sb first).updateMount sb second = fs.updateMount sb (second ∘ first) := by
  simp only [Filesystem.updateMount, Function.update_self, Function.update_idem,
    Function.comp_apply]

theorem updateMount_id : fs.updateMount sb id = fs := by
  rw [Filesystem.updateMount, id, Function.update_eq_self]

/-- A device is counted, and uncounted again. -/
theorem updateMount_uncounted :
    (fs.updateMount sb fun m => { m with deviceCount := m.deviceCount + 1 }).updateMount sb
      (fun m => { m with deviceCount := m.deviceCount - 1 }) = fs := by
  have uncounted : (fun m : Mount => { m with deviceCount := m.deviceCount - 1 }) ∘
      (fun m : Mount => { m with deviceCount := m.deviceCount + 1 }) = id := by
    funext m
    simp only [Function.comp_apply, add_sub_cancel_right, id]
  rw [updateMount_updateMount, uncounted, updateMount_id]

/-- The first mutex section counts a device and takes an id for it, or changes nothing. -/
theorem takeMinor_cases {ida minor : Int} (taken : takeMinor fs sb ida = (minor, next)) :
    (minor < 0 ∧ next = fs) ∨
      (0 ≤ minor ∧ ida = minor ∧ (fs.mounts sb).deviceCount + 1 ≤ (fs.mounts sb).max ∧
        next = (fs.updateMount sb fun m =>
          { m with deviceCount := m.deviceCount + 1 }).setMinor minor.toNat
            (some ⟨sb, .binderFops⟩)) := by
  simp only [takeMinor, updateMount_self, updateMount_uncounted] at taken
  by_cases room : (fs.mounts sb).deviceCount + 1 ≤ (fs.mounts sb).max
  · simp only [if_pos room] at taken
    split at taken
    next negative =>
      cases taken
      exact .inl ⟨negative, rfl⟩
    next nonneg =>
      cases taken
      exact .inr ⟨Int.not_lt.mp nonneg, rfl, room, rfl⟩
  · simp only [if_neg room] at taken
    cases taken
    exact .inl ⟨by decide, rfl⟩

/-- The mutex section of the control inode takes an id, or changes nothing. -/
theorem takeControlMinor_cases {ida minor : Int}
    (taken : takeControlMinor fs sb ida = (minor, next)) :
    ida = minor ∧ ((minor < 0 ∧ next = fs) ∨
      (0 ≤ minor ∧ next = fs.setMinor minor.toNat (some ⟨sb, .binderCtlFops⟩))) := by
  simp only [takeControlMinor] at taken
  split at taken
  next negative =>
    cases taken
    exact ⟨rfl, .inl ⟨negative, rfl⟩⟩
  next nonneg =>
    cases taken
    exact ⟨rfl, .inr ⟨Int.not_lt.mp nonneg, rfl⟩⟩

/-- What a task is given is an unused id. -/
theorem unused_of_idaAllocMax {ida : Int} {max : Nat} {minors : Nat → Option Taker}
    (answer : IdaAllocMax minors max ida) (nonneg : 0 ≤ ida) :
    minors ida.toNat = none ∧ ida.toNat ≤ max := by
  cases answer with
  | id unused within => exact ⟨unused, within⟩
  | noMemory => exact absurd nonneg (by decide)
  | noSpace _ => exact absurd nonneg (by decide)

/-- A task goes on without touching the file system. -/
theorem Lawful.goto (lawful : Lawful binderfsDev fs (others + {place}))
    (placed : ∀ sb, after.mount = some sb → place.mount = some sb)
    (fills : ∀ sb, after.fills = some sb → place.fills = some sb)
    (killers : ∀ sb ret, after = .killing sb ret → place = .killing sb ret)
    (holds : after.holds = place.holds) (sound : after.Sound binderfsDev) :
    Lawful binderfsDev fs (others + {after}) where
  tasks := by
    have self : place ∈ others + {place} :=
      Multiset.mem_add.mpr (.inr (Multiset.mem_singleton_self _))
    apply lawful.tasks.move rfl (fun _ => rfl) _ fills _ sound
    · exact fun sb isMount => lawful.tasks.placed place self sb (placed sb isMount)
    · exact fun sb ret isKiller =>
        lawful.tasks.killers place self sb ret (killers sb ret isKiller)
  roots := lawful.roots
  ids := by
    rw [heldIds_live (fun _ => rfl) holds]
    exact lawful.ids

theorem Caller.resume_mount {caller : Caller} {ret : Int} {other : Nat}
    (isMount : (caller.resume sb ret).mount = some other) : some sb = some other := by
  cases caller with
  | ctlIoctl => cases isMount
  | fillSuper rest =>
      rw [Caller.resume] at isMount
      split at isMount
      next => exact isMount
      next => exact isMount

theorem Caller.resume_holds (caller : Caller) (ret : Int) : (caller.resume sb ret).holds = 0 := by
  cases caller with
  | ctlIoctl => rfl
  | fillSuper rest =>
      rw [Caller.resume]
      split <;> rfl

theorem Caller.resume_sound (caller : Caller) (ret : Int) :
    (caller.resume sb ret).Sound binderfsDev := by
  cases caller with
  | ctlIoctl => trivial
  | fillSuper rest =>
      rw [Caller.resume]
      split <;> trivial

theorem Caller.resume_killing (caller : Caller) (ret : Int) (other : Nat) (error : Int) :
    caller.resume sb ret ≠ .killing other error := by
  cases caller with
  | ctlIoctl => nofun
  | fillSuper rest =>
      rw [Caller.resume]
      split <;> nofun

/-- A section that takes an id. -/
theorem Lawful.take {minor : Int} (lawful : Lawful binderfsDev fs (others + {place}))
    (taken : Take fs place minor next after) : Lawful binderfsDev next (others + {after}) := by
  have self : place ∈ others + {place} :=
    Multiset.mem_add.mpr (.inr (Multiset.mem_singleton_self _))
  cases taken with
  | @numbered next sb name caller ida minor answer taken =>
      rcases takeMinor_cases taken with ⟨negative, _⟩ | ⟨_, isId, _, rfl⟩
      · exact absurd negative (Int.not_lt.mpr (Int.natCast_nonneg _))
      · rw [isId] at answer
        have unused := (unused_of_idaAllocMax answer (Int.natCast_nonneg _)).1
        have same : SameRoots fs (fs.updateMount sb fun m =>
            { m with deviceCount := m.deviceCount + 1 }) := .updateMount rfl rfl
        constructor
        · apply lawful.tasks.move
          · rfl
          · exact same.status
          · exact fun other isMount =>
              lawful.tasks.placed (.requesting sb name caller) self other isMount
          · exact fun other isFiller => Progress.fills_stays rfl rfl isFiller
          · nofun
          · trivial
        · exact lawful.roots.congr (Nat.le_refl _) same.root
        · have more : (Progress.numbered sb name caller minor).holds =
              (Progress.requesting sb name caller).holds + Pi.single ⟨sb, .binderFops⟩ {minor} :=
            (zero_add _).symm
          rw [heldIds_more same.setMinor.root more]
          exact lawful.ids.take unused
  | @refused next sb name caller ida ret answer taken negative =>
      rcases takeMinor_cases taken with ⟨_, rfl⟩ | ⟨nonneg, _⟩
      · apply lawful.goto
        · exact fun other isMount => Caller.resume_mount isMount
        · intro other isFiller
          cases caller with
          | ctlIoctl => cases isFiller
          | fillSuper rest =>
              rw [Caller.resume, if_neg (Int.ne_of_lt negative)] at isFiller
              exact isFiller
        · exact fun other error isKiller =>
            absurd isKiller (caller.resume_killing minor other error)
        · exact caller.resume_holds minor
        · exact caller.resume_sound minor
      · exact absurd nonneg (Int.not_le.mpr negative)
  | @controlled next sb names ida minor answer taken =>
      obtain ⟨rfl, ⟨negative, _⟩ | ⟨_, rfl⟩⟩ := takeControlMinor_cases taken
      · exact absurd negative (Int.not_lt.mpr (Int.natCast_nonneg _))
      · have unused := (unused_of_idaAllocMax answer (Int.natCast_nonneg _)).1
        constructor
        · apply lawful.tasks.move
          · rfl
          · exact fun _ => rfl
          · exact fun other isMount =>
              lawful.tasks.placed (.controlling sb names) self other isMount
          · exact fun _ isFiller => isFiller
          · nofun
          · trivial
        · exact lawful.roots.congr (Nat.le_refl _) fun _ => rfl
        · have more : (Progress.controlled sb names minor).holds =
              (Progress.controlling sb names).holds + Pi.single ⟨sb, .binderCtlFops⟩ {minor} :=
            (zero_add _).symm
          rw [heldIds_more (fun _ => rfl) more]
          exact lawful.ids.takeControl unused
  | @uncontrolled next sb names ida ret answer taken negative =>
      obtain ⟨_, ⟨_, rfl⟩ | ⟨nonneg, _⟩⟩ := takeControlMinor_cases taken
      · apply lawful.goto
        · exact fun other isMount => isMount
        · exact fun other isFiller => isFiller
        · nofun
        · rfl
        · trivial
      · exact absurd nonneg (Int.not_le.mpr negative)

end Sections

end DroidKernal.Binderfs
