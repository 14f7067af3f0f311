import DroidKernal.Binderfs.Creation

/-!
# Every interleaving keeps the laws

After the sections that take an id come those that go on with it, and the mounts
around them.  What the tasks hold and where they are is all that a section needs to know
of the others.
-/

namespace DroidKernal.Binderfs

open Lib

section Sections

variable {binderfsDev : UInt32} {fs next : Filesystem} {others : Multiset Progress}
  {place after : Progress} {sb : Nat}

/-- A device that was prepared has the name of the request and the minor number. -/
theorem prepareDevice_ok {name : List UInt8} {userp : Bool} {minor : Nat}
    {failure : Option Failure} {inode : Inode} {device : BinderDevice}
    (done : prepareDevice binderfsDev name userp minor failure = .ok (inode, device)) :
    inode = deviceInode binderfsDev minor ∧ device = { name := requestName name, minor } := by
  simp only [prepareDevice] at done
  split at done
  next => cases done
  next => cases done
  next => cases done
  next =>
    split at done
    next => cases done
    next =>
      cases done
      exact ⟨rfl, rfl⟩
  next =>
    cases done
    exact ⟨rfl, rfl⟩

/-- A failure gives an error, and the inode if it has been made. -/
theorem prepareDevice_error {name : List UInt8} {userp : Bool} {minor : Nat}
    {failure : Option Failure} {ret : Int} {inode : Option Inode}
    (failed : prepareDevice binderfsDev name userp minor failure = .error (ret, inode)) :
    ret < 0 ∧ ∀ made ∈ inode, made = deviceInode binderfsDev minor := by
  simp only [prepareDevice] at failed
  split at failed
  next =>
    cases failed
    exact ⟨by decide, by simp⟩
  next =>
    cases failed
    exact ⟨by decide, by simp⟩
  next =>
    cases failed
    exact ⟨by decide, by simp⟩
  next =>
    split at failed
    next =>
      cases failed
      exact ⟨by decide, by simp⟩
    next => cases failed
  next => cases failed

/-- The directory entry of a device. -/
def deviceDentry (inode : Inode) (device : BinderDevice) : Dentry where
  name := device.name
  inode := { inode with iPrivate := some device }

theorem instantiate_ok {lookup : Option Int} {inode : Inode} {device : BinderDevice}
    (done : instantiate fs sb lookup inode device = .ok next) :
    (∀ dentry ∈ (fs.mounts sb).root, dentry.name ≠ device.name) ∧
      next = fs.updateMount sb fun m =>
        { m with root := m.root ++ [deviceDentry inode device] } := by
  simp only [instantiate] at done
  split at done
  next => cases done
  next =>
    split at done
    next => cases done
    next absent =>
      cases done
      refine ⟨fun dentry member sameName => absent ?_, rfl⟩
      exact List.any_eq_true.mpr ⟨dentry, member, decide_eq_true sameName⟩

theorem instantiate_error {lookup : Option Int} {inode : Inode} {device : BinderDevice} {ret : Int}
    (negative : ∀ error ∈ lookup, error < 0)
    (failed : instantiate fs sb lookup inode device = .error ret) : ret < 0 := by
  simp only [instantiate] at failed
  split at failed
  next error =>
    cases failed
    exact negative _ rfl
  next =>
    split at failed
    next =>
      cases failed
      decide
    next => cases failed

/-- An entry comes to a directory. -/
theorem live_append (dentry : Dentry) :
    (fs.updateMount sb fun m => { m with root := m.root ++ [dentry] }).live =
      fs.live + dentry.holds sb := by
  apply live_add
  · exact fun other differ => updateMount_other differ _
  · rw [updateMount_self, Mount.holds, Mount.holds, List.map_append, List.sum_append]
    simp only [List.map_cons, List.map_nil, List.sum_cons, List.sum_nil, add_zero]

/-- The laws of the directories, when an entry comes. -/
theorem RootsLawful.append (lawful : RootsLawful binderfsDev fs) {dentry : Dentry}
    (born : sb < fs.mountCount) (sound : dentry.Sound binderfsDev)
    (absent : dentry.inode.iFop = .binderFops →
      ∀ other ∈ (fs.mounts sb).root, other.name ≠ dentry.name) :
    RootsLawful binderfsDev
      (fs.updateMount sb fun m => { m with root := m.root ++ [dentry] }) where
  unborn other isUnborn := by
    have differ : other ≠ sb := by
      rintro rfl
      exact absurd born (Nat.not_lt.mpr isUnborn)
    rw [updateMount_other differ]
    exact lawful.unborn other isUnborn
  names other := by
    by_cases same : other = sb
    · cases same
      rw [updateMount_self, Mount.devices, List.filter_append]
      by_cases isDevice : dentry.inode.iFop = .binderFops
      · have added : [dentry].filter (fun dentry => dentry.inode.iFop = .binderFops) = [dentry] := by
          simp [isDevice]
        rw [added, List.map_append, List.map_singleton]
        apply (lawful.names sb).append (List.nodup_singleton _)
        intro name member isName
        obtain ⟨device, isOne, rfl⟩ := List.mem_map.mp member
        exact absent isDevice device (List.mem_of_mem_filter isOne) (List.mem_singleton.mp isName)
      · have added : [dentry].filter (fun dentry => dentry.inode.iFop = .binderFops) = [] := by
          simp [isDevice]
        rw [added, List.append_nil]
        exact lawful.names sb
    · rw [updateMount_other same]
      exact lawful.names other
  sound other entry member := by
    by_cases same : other = sb
    · cases same
      rw [updateMount_self] at member
      rcases List.mem_append.mp member with old | new
      · exact lawful.sound sb entry old
      · cases List.mem_singleton.mp new
        exact sound
    · rw [updateMount_other same] at member
      exact lawful.sound other entry member

/-- After `binderfs_binder_device_create` has returned, a task in
`binderfs_fill_super` is still there. -/
theorem Caller.resume_fills {caller : Caller} {ret : Int} {other : Nat}
    (isFiller : (caller.resume sb ret).fills = some other) :
    sb = other ∧ ∃ rest, caller = .fillSuper rest := by
  cases caller with
  | ctlIoctl => cases isFiller
  | fillSuper rest =>
      rw [Caller.resume] at isFiller
      split at isFiller
      next => exact ⟨Option.some.inj isFiller, rest, rfl⟩
      next => exact ⟨Option.some.inj isFiller, rest, rfl⟩

/-- A task goes on after `binderfs_binder_device_create`, and gives nothing back. -/
theorem Lawful.resume {caller : Caller} {ret : Int}
    (lawful : Lawful binderfsDev fs (others + {place})) (mount : place.mount = some sb)
    (fills : ∀ rest, caller = .fillSuper rest → place.fills = some sb)
    (holds : place.holds = 0) : Lawful binderfsDev fs (others + {caller.resume sb ret}) := by
  apply lawful.goto
  · exact fun other isMount => mount.trans (Caller.resume_mount isMount)
  · intro other isFiller
    obtain ⟨rfl, rest, isCaller⟩ := Caller.resume_fills isFiller
    exact fills rest isCaller
  · exact fun other error isKiller => absurd isKiller (caller.resume_killing ret other error)
  · rw [caller.resume_holds, holds]
  · exact caller.resume_sound ret

/-- The place that is about to change. -/
theorem self_mem : place ∈ others + {place} :=
  Multiset.mem_add.mpr (.inr (Multiset.mem_singleton_self _))

/-- A change that keeps the status and the count of a mount. -/
theorem updateMount_counted {change : Mount → Mount}
    (status : (change (fs.mounts sb)).status = (fs.mounts sb).status)
    (count : (change (fs.mounts sb)).deviceCount = (fs.mounts sb).deviceCount) (other : Nat)
    (alive : ((fs.updateMount sb change).mounts other).status ≠ .killed) :
    (fs.mounts other).status ≠ .killed ∧
      ((fs.updateMount sb change).mounts other).deviceCount = (fs.mounts other).deviceCount := by
  rw [updateMount_field Mount.status status] at alive
  exact ⟨alive, updateMount_field Mount.deviceCount count other⟩

/-- A device comes to the directory. -/
theorem Lawful.instantiated {caller : Caller} {inode : Inode} {device : BinderDevice}
    {lookup : Option Int}
    (lawful : Lawful binderfsDev fs (others + {.ready sb caller inode device}))
    (done : instantiate fs sb lookup inode device = .ok next) :
    Lawful binderfsDev next (others + {caller.resume sb 0}) := by
  obtain ⟨absent, rfl⟩ := instantiate_ok done
  have born := lawful.tasks.placed _ self_mem sb rfl
  have isInode : inode = deviceInode binderfsDev device.minor := lawful.tasks.sound _ self_mem
  have holds : (Progress.ready sb caller inode device).holds =
      (deviceDentry inode device).holds sb := by
    rw [isInode]
    rfl
  constructor
  · apply lawful.tasks.move
    · rfl
    · exact updateMount_field Mount.status rfl
    · intro other isMount
      cases Caller.resume_mount isMount
      exact born
    · intro other isFiller
      obtain ⟨rfl, rest, rfl⟩ := Caller.resume_fills isFiller
      rfl
    · exact fun other error isKiller => absurd isKiller (caller.resume_killing 0 other error)
    · exact caller.resume_sound 0
  · apply lawful.roots.append born
    · refine ⟨device, rfl, ?_, ?_⟩
      · rw [isInode]
        rfl
      · rw [isInode]
        rfl
    · exact fun _ other member => absent other member
  · rw [heldIds_instantiated (live_append _) holds (caller.resume_holds 0)]
    apply lawful.ids.congr
    · rfl
    · exact updateMount_counted rfl rfl

theorem SameRoots.giveBack {id : Nat} : SameRoots fs (giveBack fs sb id) :=
  SameRoots.setMinor (.updateMount rfl rfl)

/-- The error path gives the id back. -/
theorem Lawful.givesBack {caller : Caller} {ret : Int} {minor : Nat} {inode : Option Inode}
    (lawful : Lawful binderfsDev fs (others + {.failing sb caller ret minor inode})) :
    Lawful binderfsDev (giveBack fs sb minor) (others + {.abandoning sb caller ret inode}) := by
  have same : SameRoots fs (giveBack fs sb minor) := .giveBack
  have holds : (Progress.failing sb caller ret minor inode).holds =
      (Progress.abandoning sb caller ret inode).holds + Pi.single ⟨sb, .binderFops⟩ {minor} :=
    (zero_add _).symm
  have ids := lawful.ids
  rw [heldIds_more (fun _ => rfl) holds] at ids
  constructor
  · apply lawful.tasks.move same.count same.status
    · exact fun other isMount => lawful.tasks.placed _ self_mem other isMount
    · exact fun other isFiller => Progress.fills_stays rfl rfl isFiller
    · nofun
    · exact fun made isMade => ⟨minor, lawful.tasks.sound _ self_mem made isMade⟩
  · exact lawful.roots.congr (Nat.le_of_eq same.count.symm) same.root
  · have unmoved : heldIds (giveBack fs sb minor) (others + {.abandoning sb caller ret inode}) =
        heldIds fs (others + {.abandoning sb caller ret inode}) := heldIds_live same.root rfl
    rw [unmoved]
    exact ids.giveBack (.inl rfl)

/-- An inode that never got a device gives nothing back. -/
theorem iput_eq {inode : Option Inode}
    (sound : ∀ made ∈ inode, ∃ minor, made = deviceInode binderfsDev minor) :
    iput fs sb inode = fs := by
  cases inode with
  | none => rfl
  | some made =>
      obtain ⟨minor, rfl⟩ := sound made rfl
      rfl

/-- The directory entry of `binder-control`. -/
def controlDentry (binderfsDev : UInt32) (minor : Nat) : Dentry where
  name := controlName
  inode := { controlInode binderfsDev minor with iPrivate := some { name := [], minor } }

theorem addControl_eq (minor : Nat) :
    addControl fs binderfsDev sb minor =
      fs.updateMount sb fun m => { m with root := m.root ++ [controlDentry binderfsDev minor] } :=
  rfl

/-- `binder-control` comes to the directory. -/
theorem Lawful.addsControl {names : List (List UInt8)} {minor : Nat}
    (lawful : Lawful binderfsDev fs (others + {.controlled sb names minor})) :
    Lawful binderfsDev (addControl fs binderfsDev sb minor) (others + {.filling sb names}) := by
  have born := lawful.tasks.placed _ self_mem sb rfl
  rw [addControl_eq]
  constructor
  · apply lawful.tasks.move
    · rfl
    · apply updateMount_field Mount.status
      rfl
    · exact fun other isMount => lawful.tasks.placed _ self_mem other isMount
    · exact fun other isFiller => isFiller
    · nofun
    · trivial
  · apply lawful.roots.append born
    · exact ⟨_, rfl, rfl, rfl⟩
    · nofun
  · have holds : (Progress.controlled sb names minor).holds =
        (controlDentry binderfsDev minor).holds sb := rfl
    rw [heldIds_instantiated (live_append _) holds rfl]
    apply lawful.ids.congr
    · rfl
    · exact updateMount_counted rfl rfl

/-- The id of the control inode is lost on the way. -/
theorem Lawful.noControlName {names : List (List UInt8)} {minor : Nat} {ret : Int}
    (lawful : Lawful binderfsDev fs (others + {.controlled sb names minor})) :
    Lawful binderfsDev fs (others + {.unfilled sb ret}) := by
  have holds : (Progress.controlled sb names minor).holds =
      (Progress.unfilled sb ret).holds + Pi.single ⟨sb, .binderCtlFops⟩ {minor} :=
    (zero_add _).symm
  have ids := lawful.ids
  rw [heldIds_more (fun _ => rfl) holds] at ids
  constructor
  · apply lawful.tasks.move
    · rfl
    · exact fun _ => rfl
    · exact fun other isMount => lawful.tasks.placed _ self_mem other isMount
    · exact fun other isFiller => isFiller
    · nofun
    · trivial
  · exact lawful.roots
  · exact ids.lose

/-- A mount gets another status, when no task is in its `binderfs_fill_super`. -/
theorem Lawful.leave {status : MountStatus}
    (lawful : Lawful binderfsDev fs (others + {place})) (born : sb < fs.mountCount)
    (alone : others.countP (fun place => place.fills = some sb) = 0)
    (notKilled : (fs.mounts sb).status ≠ .killed)
    (placed : ∀ other, after.mount = some other → other = sb)
    (fills : after.fills = none) (holds : after.holds = place.holds)
    (sound : after.Sound binderfsDev)
    (killer : ∀ other ret, after = .killing other ret → status = .killed) :
    Lawful binderfsDev (fs.updateMount sb fun m => { m with status })
      (others + {after}) := by
  have sameRoot : ∀ other, ((fs.updateMount sb fun m => { m with status }).mounts other).root =
      (fs.mounts other).root := by
    apply updateMount_field Mount.root
    rfl
  constructor
  · apply lawful.tasks.leave
    · rfl
    · intro other differ
      rw [updateMount_other differ]
    · exact alone
    · exact .inr notKilled
    · intro other ret isKiller
      cases placed other (isKiller ▸ rfl)
      rw [updateMount_self]
      exact killer sb ret isKiller
    · intro other isMount
      cases placed other isMount
      exact born
    · exact fills
    · exact sound
  · exact lawful.roots.congr (Nat.le_refl _) sameRoot
  · rw [heldIds_live sameRoot holds]
    apply lawful.ids.congr
    · rfl
    intro other alive
    by_cases same : other = sb
    · cases same
      exact ⟨notKilled, by rw [updateMount_self]⟩
    · rw [updateMount_other same] at alive ⊢
      exact ⟨alive, rfl⟩

/-- `binderfs_fill_super` ends, and the mount is of use or not. -/
theorem Lawful.ends {status : MountStatus}
    (lawful : Lawful binderfsDev fs (others + {place})) (filler : place.fills = some sb)
    (mount : place.mount = some sb) (placed : ∀ other, after.mount = some other → other = sb)
    (fills : after.fills = none) (holds : after.holds = place.holds)
    (sound : after.Sound binderfsDev)
    (killer : ∀ other ret, after = .killing other ret → status = .killed) :
    Lawful binderfsDev (fs.updateMount sb fun m => { m with status })
      (others + {after}) := by
  obtain ⟨isFilling, alone⟩ := lawful.tasks.alone filler
  have notKilled : (fs.mounts sb).status ≠ .killed := by
    rw [isFilling]
    nofun
  exact lawful.leave (lawful.tasks.placed _ self_mem sb mount) alone notKilled placed fills holds
    sound killer

/-- Evicting an inode of a directory gives its id back. -/
theorem evictInode_eq {dentry : Dentry} {device : BinderDevice}
    (isDevice : dentry.inode.iPrivate = some device) (isChr : dentry.inode.isChr = true) :
    evictInode fs sb dentry.inode = giveBack fs sb device.minor := by
  rw [evictInode, if_pos isChr, isDevice]

/-- The laws of the directories, when the first entry of one goes. -/
theorem RootsLawful.shrink (lawful : RootsLawful binderfsDev fs) {dentry : Dentry}
    {rest : List Dentry} (first : (fs.mounts sb).root = dentry :: rest) :
    RootsLawful binderfsDev (fs.updateMount sb fun m => { m with root := rest }) where
  unborn other isUnborn := by
    have isEmpty := lawful.unborn other isUnborn
    have differ : other ≠ sb := by
      rintro rfl
      cases first.symm.trans isEmpty
    rw [updateMount_other differ]
    exact isEmpty
  names other := by
    by_cases same : other = sb
    · cases same
      have before := lawful.names sb
      rw [updateMount_self, Mount.devices]
      rw [Mount.devices, first] at before
      exact (((List.sublist_cons_self dentry rest).filter _).map _).nodup before
    · rw [updateMount_other same]
      exact lawful.names other
  sound other entry member := by
    by_cases same : other = sb
    · cases same
      rw [updateMount_self] at member
      exact lawful.sound sb entry (first ▸ List.mem_cons_of_mem _ member)
    · rw [updateMount_other same] at member
      exact lawful.sound other entry member

/-- An entry goes from a directory. -/
theorem live_cons {dentry : Dentry} {rest : List Dentry}
    (first : (fs.mounts sb).root = dentry :: rest) :
    fs.live = (fs.updateMount sb fun m => { m with root := rest }).live + dentry.holds sb := by
  apply live_add
  · exact fun other differ => (updateMount_other differ _).symm
  · rw [updateMount_self, Mount.holds, Mount.holds, first, List.map_cons, List.sum_cons, add_comm]

/-- An unmount evicts an inode. -/
theorem Lawful.evicts {ret : Int} {dentry : Dentry} {rest : List Dentry}
    (lawful : Lawful binderfsDev fs (others + {.killing sb ret}))
    (first : (fs.mounts sb).root = dentry :: rest) :
    Lawful binderfsDev
      (evictInode (fs.updateMount sb fun m => { m with root := rest }) sb dentry.inode)
      (others + {.killing sb ret}) := by
  have isEntry : dentry ∈ (fs.mounts sb).root := first ▸ List.mem_cons_self ..
  obtain ⟨device, isDevice, isChr, _⟩ := lawful.roots.sound sb dentry isEntry
  have isKilled := lawful.tasks.killers _ self_mem sb ret rfl
  have less := live_cons first
  have roots := lawful.roots.shrink first
  have ids : IdsLawful (fs.updateMount sb fun m => { m with root := rest }) _ :=
    lawful.ids.congr rfl (updateMount_counted rfl rfl)
  have status : ∀ other,
      ((fs.updateMount sb fun m => { m with root := rest }).mounts other).status =
        (fs.mounts other).status := updateMount_field Mount.status rfl
  have count : (fs.updateMount sb fun m => { m with root := rest }).mountCount = fs.mountCount :=
    rfl
  rw [evictInode_eq isDevice isChr]
  generalize fs.updateMount sb (fun m => { m with root := rest }) = shrunk at *
  have same : SameRoots shrunk (giveBack shrunk sb device.minor) := .giveBack
  constructor
  · apply lawful.tasks.move
    · exact same.count.trans count
    · exact fun other => (same.status other).trans (status other)
    · exact fun other isMount => lawful.tasks.placed _ self_mem other isMount
    · exact fun other isFiller => isFiller
    · exact fun other error isKiller => lawful.tasks.killers _ self_mem other error isKiller
    · trivial
  · exact roots.congr (Nat.le_of_eq same.count.symm) same.root
  · have unmoved : heldIds (giveBack shrunk sb device.minor) (others + {.killing sb ret}) =
        heldIds shrunk (others + {.killing sb ret}) := heldIds_live same.root rfl
    have holds : dentry.holds sb = Pi.single ⟨sb, dentry.inode.iFop⟩ {device.minor} := by
      rw [Dentry.holds, isDevice]
    rw [holds] at less
    rw [heldIds_evicted less] at ids
    rw [unmoved]
    exact ids.giveBack (.inr ((status sb).trans isKilled))

/-- A section that does not take an id. -/
theorem Lawful.advance (lawful : Lawful binderfsDev fs (others + {place}))
    (done : Advance binderfsDev fs place next after) :
    Lawful binderfsDev next (others + {after}) := by
  cases done with
  | @prepared sb minor name caller failure inode device done =>
      obtain ⟨rfl, rfl⟩ := prepareDevice_ok done
      apply lawful.goto
      · exact fun _ isMount => isMount
      · exact fun other isFiller => Progress.fills_stays rfl rfl isFiller
      · nofun
      · rfl
      · rfl
  | @unprepared sb minor name caller failure ret inode failed =>
      apply lawful.goto
      · exact fun _ isMount => isMount
      · exact fun other isFiller => Progress.fills_stays rfl rfl isFiller
      · nofun
      · rfl
      · exact (prepareDevice_error failed).2
  | instantiated done => exact lawful.instantiated done
  | @uninstantiated sb caller inode device lookup ret negative failed =>
      apply lawful.goto
      · exact fun _ isMount => isMount
      · exact fun other isFiller => Progress.fills_stays rfl rfl isFiller
      · nofun
      · rfl
      · intro made isMade
        cases isMade
        exact lawful.tasks.sound _ self_mem
  | givesBack => exact lawful.givesBack
  | @puts sb caller ret inode =>
      rw [iput_eq (lawful.tasks.sound _ self_mem)]
      apply lawful.resume
      · rfl
      · rintro rest rfl
        rfl
      · rfl
  | noControl =>
      apply lawful.goto
      · exact fun _ isMount => isMount
      · exact fun _ isFiller => isFiller
      · nofun
      · rfl
      · trivial
  | noControlName => exact lawful.noControlName
  | addsControl => exact lawful.addsControl
  | fills =>
      apply lawful.goto
      · exact fun _ isMount => isMount
      · exact fun _ isFiller => isFiller
      · nofun
      · rfl
      · trivial
  | filled =>
      apply lawful.ends
      · rfl
      · rfl
      · nofun
      · rfl
      · rfl
      · trivial
      · nofun
  | kills =>
      apply lawful.ends
      · rfl
      · rfl
      · rintro other ⟨⟩
        rfl
      · rfl
      · rfl
      · trivial
      · exact fun _ _ _ => rfl
  | evicts first => exact lawful.evicts first
  | killed empty =>
      apply lawful.goto
      · nofun
      · nofun
      · nofun
      · rfl
      · trivial

/-! ## Around the mounts -/

/-- The mount whose `binderfs_fill_super` a task is in is the one it is at work on. -/
theorem Progress.fills_mount {place : Progress} (isFiller : place.fills = some sb) :
    place.mount = some sb := by
  cases place with
  | requesting _ _ caller =>
      cases caller with
      | ctlIoctl => cases isFiller
      | fillSuper _ => exact isFiller
  | numbered _ _ caller _ =>
      cases caller with
      | ctlIoctl => cases isFiller
      | fillSuper _ => exact isFiller
  | ready _ caller _ _ =>
      cases caller with
      | ctlIoctl => cases isFiller
      | fillSuper _ => exact isFiller
  | failing _ caller _ _ _ =>
      cases caller with
      | ctlIoctl => cases isFiller
      | fillSuper _ => exact isFiller
  | abandoning _ caller _ _ =>
      cases caller with
      | ctlIoctl => cases isFiller
      | fillSuper _ => exact isFiller
  | controlling _ _ => exact isFiller
  | controlled _ _ _ => exact isFiller
  | filling _ _ => exact isFiller
  | unfilled _ _ => exact isFiller
  | killing _ _ => cases isFiller
  | idle => cases isFiller
  | returning _ => cases isFiller

/-- A new mount. -/
def freshMount (useReserve : Bool) (max : Int) : Mount :=
  { useReserve, max, deviceCount := 0, root := [], status := .filling }

/-- There is one mount more. -/
def Filesystem.mount (fs : Filesystem) (useReserve : Bool) (max : Int) : Filesystem :=
  { fs with mountCount := fs.mountCount + 1 }.updateMount fs.mountCount fun _ =>
    freshMount useReserve max

/-- There is one mount more, which a task fills. -/
theorem Lawful.mounts (lawful : Lawful binderfsDev fs (others + {.idle})) (useReserve : Bool)
    (max : Int) (names : List (List UInt8)) :
    Lawful binderfsDev (fs.mount useReserve max) (others + {.controlling fs.mountCount names}) := by
  have sameRoot : ∀ other, ((fs.mount useReserve max).mounts other).root = (fs.mounts other).root :=
    updateMount_field Mount.root (lawful.roots.unborn _ (Nat.le_refl _)).symm
  have fresh : (fs.mount useReserve max).mounts fs.mountCount = freshMount useReserve max :=
    updateMount_self _
  have kept : ∀ other, other ≠ fs.mountCount →
      (fs.mount useReserve max).mounts other = fs.mounts other :=
    fun other differ => updateMount_other differ _
  have nobody : others.countP (fun place => place.fills = some fs.mountCount) = 0 := by
    apply Multiset.countP_eq_zero.mpr
    intro other member isFiller
    have placed := lawful.tasks.placed other (Multiset.mem_add.mpr (.inl member)) _
      (Progress.fills_mount isFiller)
    exact Nat.lt_irrefl _ placed
  constructor
  · constructor
    · intro other member sb isMount
      rcases Multiset.mem_add.mp member with old | new
      · apply Nat.lt_succ_of_lt
        exact lawful.tasks.placed other (Multiset.mem_add.mpr (.inl old)) sb isMount
      · cases Multiset.mem_singleton.mp new
        cases isMount
        exact Nat.lt_succ_self _
    · intro sb
      rw [countP_add_singleton]
      by_cases same : sb = fs.mountCount
      · cases same
        have isFiller : (Progress.controlling fs.mountCount names).fills = some fs.mountCount :=
          rfl
        rw [nobody, fresh, if_pos isFiller]
        exact Nat.le_refl _
      · have notFiller : (Progress.controlling fs.mountCount names).fills ≠ some sb := by
          rintro ⟨⟩
          exact same rfl
        rw [if_neg notFiller, kept sb same]
        apply Nat.le_trans _ (lawful.tasks.fillers sb)
        rw [countP_add_singleton]
        exact Nat.le_refl _
    · intro other member sb ret isKiller
      rcases Multiset.mem_add.mp member with old | new
      · have before := lawful.tasks.killers other (Multiset.mem_add.mpr (.inl old)) sb ret isKiller
        have placed := lawful.tasks.placed other (Multiset.mem_add.mpr (.inl old)) sb
          (isKiller ▸ rfl)
        rw [kept sb (Nat.ne_of_lt placed)]
        exact before
      · cases Multiset.mem_singleton.mp new
        cases isKiller
    · intro other member
      rcases Multiset.mem_add.mp member with old | new
      · exact lawful.tasks.sound other (Multiset.mem_add.mpr (.inl old))
      · cases Multiset.mem_singleton.mp new
        trivial
  · exact lawful.roots.congr (Nat.le_succ _) sameRoot
  · have unmoved : heldIds (fs.mount useReserve max) (others + {.controlling fs.mountCount names}) =
        heldIds fs (others + {.idle}) := heldIds_live sameRoot rfl
    rw [unmoved]
    constructor
    · exact lawful.ids.accounted
    · intro other alive
      by_cases same : other = fs.mountCount
      · cases same
        rw [fresh, heldIds_unborn lawful.tasks lawful.roots (Nat.le_refl _)]
        rfl
      · rw [kept other same] at alive ⊢
        exact lawful.ids.count other alive

/-- `BINDER_CTL_ADD` is called. -/
theorem Lawful.adds (lawful : Lawful binderfsDev fs (others + {.idle})) (born : sb < fs.mountCount)
    (name : List UInt8) (copied : Bool) :
    Lawful binderfsDev fs (others + {binderCtlIoctl sb name copied}) := by
  cases copied with
  | false =>
      apply lawful.goto
      · nofun
      · nofun
      · nofun
      · rfl
      · trivial
  | true =>
      constructor
      · apply lawful.tasks.move
        · rfl
        · exact fun _ => rfl
        · rintro other ⟨⟩
          exact born
        · nofun
        · nofun
        · trivial
      · exact lawful.roots
      · have unmoved : heldIds fs (others + {binderCtlIoctl sb name true}) =
            heldIds fs (others + {.idle}) := heldIds_live (fun _ => rfl) rfl
        rw [unmoved]
        exact lawful.ids

/-- A mount that is in use is not filled any more. -/
theorem Lawful.unmounts (lawful : Lawful binderfsDev fs (others + {.idle}))
    (born : sb < fs.mountCount) (isMounted : (fs.mounts sb).status = .mounted) :
    Lawful binderfsDev (fs.updateMount sb fun m => { m with status := .killed })
      (others + {.killing sb 0}) := by
  have fillers := lawful.tasks.fillers sb
  have notFilling : (fs.mounts sb).status ≠ .filling := by
    rw [isMounted]
    nofun
  have notKilled : (fs.mounts sb).status ≠ .killed := by
    rw [isMounted]
    nofun
  rw [if_neg notFilling, Multiset.countP_add] at fillers
  have alone := Nat.eq_zero_of_add_eq_zero_right (Nat.le_zero.mp fillers)
  apply lawful.leave born alone notKilled
  · rintro other ⟨⟩
    rfl
  · rfl
  · rfl
  · trivial
  · exact fun _ _ _ => rfl

/-- The options of a mount change. -/
theorem Lawful.remounts {all : Multiset Progress} (lawful : Lawful binderfsDev fs all) (max : Int) :
    Lawful binderfsDev (fs.updateMount sb fun m => { m with max }) all := by
  have same : SameRoots fs (fs.updateMount sb fun m => { m with max }) := .updateMount rfl rfl
  constructor
  · constructor
    · exact lawful.tasks.placed
    · intro other
      rw [same.status]
      exact lawful.tasks.fillers other
    · intro place member other ret isKiller
      rw [same.status]
      exact lawful.tasks.killers place member other ret isKiller
    · exact lawful.tasks.sound
  · exact lawful.roots.congr (Nat.le_refl _) same.root
  · rw [heldIds, live_congr same.root]
    exact lawful.ids.congr rfl (updateMount_counted rfl rfl)

end Sections

section Runs

variable {ι : Type*} [Fintype ι] [DecidableEq ι] {binderfsDev : UInt32}
  {names : List (List UInt8)} {system next : Tasks ι} {event : BinderfsEvent ι}
  {events : List (BinderfsEvent ι)}

/-- The file system fits the places of all tasks. -/
def Tasks.Lawful (binderfsDev : UInt32) (system : Tasks ι) : Prop :=
  Binderfs.Lawful binderfsDev system.shared (Threads.places system.threads)

/-- A task moves, and the others stay where they are. -/
theorem Tasks.Lawful.goto (lawful : system.Lawful binderfsDev) {task : ι} {fs : Filesystem}
    {place : Progress}
    (keeps : Binderfs.Lawful binderfsDev system.shared
        (Threads.otherPlaces system.threads task + {system.threads task}) →
      Binderfs.Lawful binderfsDev fs (Threads.otherPlaces system.threads task + {place})) :
    (system.goto task fs place).Lawful binderfsDev := by
  rw [Tasks.Lawful, Threads.places_eq task] at lawful
  rw [Tasks.Lawful, Tasks.goto, Threads.places_update]
  exact keeps lawful

/-- Every step keeps the laws. -/
theorem Tasks.Lawful.step (lawful : system.Lawful binderfsDev)
    (taken : BinderfsStep binderfsDev names system event next) : next.Lawful binderfsDev := by
  cases taken with
  | @mounts task isIdle useReserve max permitted =>
      apply lawful.goto
      rw [isIdle]
      exact fun lawful => lawful.mounts useReserve max names
  | @adds task sb isIdle isMounted name copied =>
      apply lawful.goto
      rw [isIdle]
      exact fun lawful => lawful.adds isMounted.1 name copied
  | takes taken => exact lawful.goto fun lawful => lawful.take taken
  | advances done => exact lawful.goto fun lawful => lawful.advance done
  | @returns task ret atEnd =>
      apply lawful.goto
      rw [atEnd]
      intro lawful
      apply Binderfs.Lawful.goto lawful
      · nofun
      · nofun
      · nofun
      · rfl
      · trivial
  | @unmounts task sb isIdle isMounted unused =>
      apply lawful.goto
      rw [isIdle]
      exact fun lawful => lawful.unmounts isMounted.1 isMounted.2
  | @remounts sb isMounted max permitted => exact Binderfs.Lawful.remounts lawful max

omit [DecidableEq ι] in
theorem Tasks.lawful_init : (Tasks.init ι).Lawful binderfsDev := by
  have isIdle : ∀ place ∈ Threads.places (Tasks.init ι).threads, place = .idle := by
    intro place member
    obtain ⟨i, rfl⟩ := Threads.mem_places.mp member
    rfl
  have tasks : TasksLawful binderfsDev .init (Threads.places (Tasks.init ι).threads) := by
    constructor
    · intro place member sb isMount
      rw [isIdle place member] at isMount
      cases isMount
    · intro sb
      have nobody : (Threads.places (Tasks.init ι).threads).countP
          (fun place => place.fills = some sb) = 0 := by
        apply Multiset.countP_eq_zero.mpr
        intro place member isFiller
        rw [isIdle place member] at isFiller
        cases isFiller
      rw [nobody]
      exact Nat.zero_le _
    · exact fun _ _ _ _ _ => rfl
    · intro place member
      rw [isIdle place member]
      trivial
  have roots : RootsLawful binderfsDev .init :=
    { unborn := fun _ _ => rfl
      names := fun _ => List.nodup_nil
      sound := fun _ _ member => absurd member List.not_mem_nil }
  have nothing : heldIds .init (Threads.places (Tasks.init ι).threads) = 0 := by
    funext taker
    exact heldIds_unborn tasks roots (Nat.zero_le _)
  have ids : IdsLawful .init (heldIds .init (Threads.places (Tasks.init ι).threads)) := by
    rw [nothing]
    exact ⟨.init, fun _ alive => absurd rfl alive⟩
  exact ⟨tasks, roots, ids⟩

/-- Every run keeps the laws. -/
theorem lawful_of_run (run : Run (BinderfsStep binderfsDev names) (Tasks.init ι) events system) :
    system.Lawful binderfsDev :=
  run.invariant (Tasks.Lawful binderfsDev) Tasks.lawful_init fun lawful taken => lawful.step taken

end Runs

end DroidKernal.Binderfs
