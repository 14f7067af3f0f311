import DroidKernal.Binderfs.Outcomes

/-!
# Device numbers

`MKDEV` keeps an id apart from the major number as long as it fits into `MINORBITS`.
`alloc_chrdev_region` reserves the minors below `BINDERFS_MAX_MINOR`, but that is also the
bound that `ida_alloc_max` is given, which may return it.
-/

namespace DroidKernal.Binderfs

open Lib

/-! ## Bits -/

theorem toNat_major (dev : UInt32) : (major dev).toNat = dev.toNat / 2 ^ minorBits := by
  rw [major, UInt32.toNat_shiftRight, Nat.shiftRight_eq_div_pow]
  rfl

theorem toNat_minor (dev : UInt32) : (minor dev).toNat = dev.toNat % 2 ^ minorBits := by
  have mask : ((1 <<< UInt32.ofNat minorBits) - 1 : UInt32).toNat = 2 ^ minorBits - 1 := by
    decide
  rw [minor, UInt32.toNat_and, mask, Nat.and_two_pow_sub_one_eq_mod]

theorem toNat_mkdev {ma mi : UInt32} (majorFits : ma.toNat < 2 ^ 12)
    (minorFits : mi.toNat < 2 ^ minorBits) :
    (mkdev ma mi).toNat = 2 ^ minorBits * ma.toNat + mi.toNat := by
  have bound : 2 ^ minorBits * ma.toNat < 2 ^ 32 := by
    rw [minorBits]
    omega
  have shift : (UInt32.ofNat minorBits).toNat % 32 = minorBits := by decide
  rw [mkdev, UInt32.toNat_or, UInt32.toNat_shiftLeft, shift, Nat.shiftLeft_eq, Nat.mul_comm,
    Nat.mod_eq_of_lt bound, Nat.two_pow_add_eq_or_of_lt minorFits]

/-- An id below `BINDERFS_MAX_MINOR` comes out of `MKDEV` as it went in. -/
theorem mkdev_fits {binderfsDev : UInt32} {id : Nat} (below : id < binderfsMaxMinor) :
    major (mkdev (major binderfsDev) (UInt32.ofNat id)) = major binderfsDev ∧
      (minor (mkdev (major binderfsDev) (UInt32.ofNat id))).toNat = id := by
  have fits : id < 2 ^ minorBits := below
  have isId : (UInt32.ofNat id).toNat = id :=
    UInt32.toNat_ofNat_of_lt' (Nat.lt_trans fits (by decide))
  have majorFits : (major binderfsDev).toNat < 2 ^ 12 := by
    rw [toNat_major]
    exact Nat.div_lt_of_lt_mul binderfsDev.toNat_lt
  have value := toNat_mkdev majorFits (isId ▸ fits)
  rw [isId] at value
  constructor
  · apply UInt32.toNat_inj.mp
    rw [toNat_major, value, Nat.mul_add_div (Nat.two_pow_pos _), Nat.div_eq_of_lt fits, add_zero]
  · rw [toNat_minor, value, Nat.mul_add_mod, Nat.mod_eq_of_lt fits]

/-! ## Inodes with a number of their own -/

/-- The device number of an inode is that of its id, within the reserved region. -/
structure Inode.Numbered (binderfsDev : UInt32) (id : Nat) (inode : Inode) : Prop where
  major : major inode.iRdev = major binderfsDev
  minor : (minor inode.iRdev).toNat = id
  reserved : id < binderfsMaxMinor

/-- So is that of an inode which a task has made. -/
def Progress.Numbered (binderfsDev : UInt32) : Progress → Prop
  | ready _ _ inode device => inode.Numbered binderfsDev device.minor
  | failing _ _ _ minor inode => ∀ made ∈ inode, made.Numbered binderfsDev minor
  | abandoning _ _ _ inode => ∀ made ∈ inode, ∃ id, made.Numbered binderfsDev id
  | _ => True

/-- Every inode has a device number of its own inside the reserved region. -/
structure Tasks.Numbered {ι : Type*} (binderfsDev : UInt32) (system : Tasks ι) : Prop where
  made : ∀ task, (system.threads task).Numbered binderfsDev
  live : ∀ sb, ∀ dentry ∈ (system.shared.mounts sb).root, ∃ device,
    dentry.inode.iPrivate = some device ∧ dentry.inode.Numbered binderfsDev device.minor
  distinct : ∀ (sb sb' n n' : Nat) (dentry dentry' : Dentry),
    (system.shared.mounts sb).root[n]? = some dentry →
    (system.shared.mounts sb').root[n']? = some dentry' →
    dentry.inode.iRdev = dentry'.inode.iRdev → sb = sb' ∧ n = n'

/-- The ids in use are inside the reserved region. -/
def Filesystem.Reserved (fs : Filesystem) : Prop :=
  ∀ id, fs.minors id ≠ none → id < binderfsMaxMinor

section Sections

variable {binderfsDev : UInt32} {fs next : Filesystem} {all : Multiset Progress}
  {place after : Progress} {sb : Nat}

/-- What an entry holds. -/
theorem Dentry.mem_holds {dentry : Dentry} {device : BinderDevice}
    (isDevice : dentry.inode.iPrivate = some device) (sb : Nat) :
    device.minor ∈ dentry.holds sb ⟨sb, dentry.inode.iFop⟩ := by
  rw [Dentry.holds, isDevice]
  exact Accounted.mem_single.mpr ⟨rfl, rfl⟩

/-- The ids of a mount are what its entries hold together. -/
theorem Mount.holds_apply (mount : Mount) (taker : Taker) :
    mount.holds sb taker = (mount.root.map fun dentry => dentry.holds sb taker).sum := by
  rw [Mount.holds]
  induction mount.root with
  | nil => rfl
  | cons dentry rest ih =>
      rw [List.map_cons, List.sum_cons, Pi.add_apply, ih, List.map_cons, List.sum_cons]

/-- An entry of a directory holds an id that is in use for it. -/
theorem Lawful.entry_inUse (lawful : Lawful binderfsDev fs all) {n : Nat} {dentry : Dentry}
    {device : BinderDevice} (isEntry : (fs.mounts sb).root[n]? = some dentry)
    (isDevice : dentry.inode.iPrivate = some device) :
    fs.minors device.minor = some ⟨sb, dentry.inode.iFop⟩ := by
  apply lawful.ids.accounted.inUse
  rw [heldIds, Pi.add_apply, Multiset.mem_add, Filesystem.live, Mount.holds_apply]
  apply Or.inl
  apply mem_sum_of_getElem _ (Dentry.mem_holds isDevice sb)
  · exact n
  · rw [List.getElem?_map, isEntry, Option.map_some]

/-- Two entries do not have the same id. -/
theorem Lawful.entry_unique (lawful : Lawful binderfsDev fs all) {sb' n n' : Nat}
    {dentry dentry' : Dentry} {device device' : BinderDevice}
    (isEntry : (fs.mounts sb).root[n]? = some dentry)
    (isEntry' : (fs.mounts sb').root[n']? = some dentry')
    (isDevice : dentry.inode.iPrivate = some device)
    (isDevice' : dentry'.inode.iPrivate = some device') (same : device.minor = device'.minor) :
    sb = sb' ∧ n = n' := by
  have inUse := lawful.entry_inUse isEntry isDevice
  rw [same, lawful.entry_inUse isEntry' isDevice', Option.some_inj, Taker.mk.injEq] at inUse
  obtain ⟨rfl, sameFop⟩ := inUse
  have nodup := lawful.ids.accounted.nodup ⟨sb', dentry.inode.iFop⟩
  rw [heldIds, Pi.add_apply, Multiset.nodup_add, Filesystem.live, Mount.holds_apply] at nodup
  have holds := Dentry.mem_holds isDevice sb'
  have holds' := Dentry.mem_holds isDevice' sb'
  rw [sameFop, ← same] at holds'
  refine ⟨rfl, holder_unique nodup.1 ?_ ?_ holds holds'⟩
  · rw [List.getElem?_map, isEntry, Option.map_some]
  · rw [List.getElem?_map, isEntry', Option.map_some]

theorem Mount.maxMinor_le (mount : Mount) : mount.maxMinor ≤ binderfsMaxMinor := by
  rw [Mount.maxMinor]
  split
  next => exact Nat.le_refl _
  next => exact Nat.sub_le _ _

/-- An id that is taken is inside, one that is freed does not matter. -/
theorem Filesystem.Reserved.setMinor (reserved : fs.Reserved) {id : Nat} {taker : Option Taker}
    (inside : taker ≠ none → id < binderfsMaxMinor) : (fs.setMinor id taker).Reserved := by
  intro other inUse
  by_cases same : other = id
  · cases same
    simp only [Filesystem.setMinor, Function.update_self] at inUse
    exact inside inUse
  · simp only [Filesystem.setMinor, Function.update_of_ne same] at inUse
    exact reserved other inUse

theorem Filesystem.Reserved.giveBack (reserved : fs.Reserved) (minor : Nat) :
    (giveBack fs sb minor).Reserved :=
  Filesystem.Reserved.setMinor reserved fun inUse => absurd rfl inUse

theorem Filesystem.Reserved.evictInode (reserved : fs.Reserved) (inode : Inode) :
    (evictInode fs sb inode).Reserved := by
  rw [Binderfs.evictInode]
  split
  next =>
    cases inode.iPrivate with
    | none => exact reserved
    | some device => exact reserved.giveBack device.minor
  next => exact reserved

theorem Caller.resume_numbered (caller : Caller) (ret : Int) :
    (caller.resume sb ret).Numbered binderfsDev := by
  cases caller with
  | ctlIoctl => trivial
  | fillSuper rest =>
      rw [Caller.resume]
      split <;> trivial

/-- The bound of `ida_alloc_max` is the only id outside that it may return. -/
theorem IdaAllocMax.inside {id : Nat} (found : IdaAllocMax fs.minors (fs.mounts sb).maxMinor id)
    (answer : (id : Int) ≠ binderfsMaxMinor) : id < binderfsMaxMinor := by
  have within := (unused_of_idaAllocMax found (Int.natCast_nonneg id)).2
  apply Nat.lt_of_le_of_ne (Nat.le_trans within (Mount.maxMinor_le _))
  rintro rfl
  exact answer rfl

/-- A task that is not given that bound is given an id inside. -/
theorem Take.reserved {answered : Int} (taken : Take fs place answered next after)
    (reserved : fs.Reserved) (answer : answered ≠ binderfsMaxMinor) :
    next.Reserved ∧ after.Numbered binderfsDev := by
  cases taken with
  | @numbered next sb name caller ida id found taken =>
      rcases takeMinor_cases taken with ⟨negative, _⟩ | ⟨_, rfl, _, rfl⟩
      · exact absurd negative (Int.not_lt.mpr (Int.natCast_nonneg _))
      · exact ⟨Filesystem.Reserved.setMinor reserved fun _ => found.inside answer, trivial⟩
  | @refused next sb name caller ida ret found taken negative =>
      obtain ⟨rfl, _⟩ := takeMinor_refused taken negative
      exact ⟨reserved, caller.resume_numbered answered⟩
  | @controlled next sb names ida id found taken =>
      obtain ⟨rfl, ⟨negative, _⟩ | ⟨_, rfl⟩⟩ := takeControlMinor_cases taken
      · exact absurd negative (Int.not_lt.mpr (Int.natCast_nonneg _))
      · exact ⟨reserved.setMinor fun _ => found.inside answer, trivial⟩
  | @uncontrolled next sb names ida ret found taken negative =>
      obtain ⟨_, ⟨_, rfl⟩ | ⟨nonneg, _⟩⟩ := takeControlMinor_cases taken
      · exact ⟨reserved, trivial⟩
      · exact absurd nonneg (Int.not_le.mpr negative)

/-- An inode is made with the number of an id inside. -/
theorem deviceInode_numbered {id : Nat} (inside : id < binderfsMaxMinor) :
    (deviceInode binderfsDev id).Numbered binderfsDev id where
  major := (mkdev_fits inside).1
  minor := (mkdev_fits inside).2
  reserved := inside

/-- The other sections take no ids, and make inodes for ids inside. -/
theorem Advance.reserved (done : Advance binderfsDev fs place next after) (reserved : fs.Reserved)
    (creates : fs.Creates place.creates) (numbered : place.Numbered binderfsDev) :
    next.Reserved ∧ after.Numbered binderfsDev := by
  have inside {sb minor : Nat} (isCreation : place.creates = some (sb, minor)) :
      minor < binderfsMaxMinor := by
    apply reserved
    rw [(creates sb minor isCreation).2]
    nofun
  cases done with
  | @prepared sb minor name caller failure inode device done =>
      obtain ⟨rfl, rfl⟩ := prepareDevice_ok done
      exact ⟨reserved, deviceInode_numbered (inside rfl)⟩
  | @unprepared sb minor name caller failure ret inode failed =>
      refine ⟨reserved, fun made isMade => ?_⟩
      rw [(prepareDevice_error failed).2 made isMade]
      exact deviceInode_numbered (inside rfl)
  | @instantiated next sb caller inode device lookup done =>
      obtain ⟨_, rfl⟩ := instantiate_ok done
      exact ⟨reserved, caller.resume_numbered 0⟩
  | uninstantiated negative failed =>
      refine ⟨reserved, ?_⟩
      rintro made ⟨⟩
      exact numbered
  | @givesBack sb minor caller ret inode =>
      exact ⟨reserved.giveBack minor, fun made isMade => ⟨minor, numbered made isMade⟩⟩
  | @puts sb caller ret inode =>
      refine ⟨?_, caller.resume_numbered ret⟩
      cases inode with
      | none => exact reserved
      | some inode => exact reserved.evictInode inode
  | noControl => exact ⟨reserved, trivial⟩
  | noControlName => exact ⟨reserved, trivial⟩
  | addsControl => exact ⟨reserved, trivial⟩
  | fills => exact ⟨reserved, trivial⟩
  | filled => exact ⟨reserved, trivial⟩
  | kills => exact ⟨reserved, trivial⟩
  | @evicts sb ret dentry rest first =>
      have shrunk : (fs.updateMount sb fun m => { m with root := rest }).Reserved := reserved
      exact ⟨shrunk.evictInode dentry.inode, trivial⟩
  | killed empty => exact ⟨reserved, trivial⟩

end Sections

section Runs

variable {ι : Type*} [Fintype ι] [DecidableEq ι] {binderfsDev : UInt32}
  {names : List (List UInt8)} {system next : Tasks ι} {event : BinderfsEvent ι}
  {events : List (BinderfsEvent ι)}

/-- The ids in use are inside the reserved region, and so are those of the inodes to come. -/
structure Tasks.Inside (binderfsDev : UInt32) (system : Tasks ι) : Prop where
  reserved : system.shared.Reserved
  numbered : ∀ task, (system.threads task).Numbered binderfsDev

omit [Fintype ι] in
theorem Tasks.Inside.goto (inside : system.Inside binderfsDev) {task : ι} {fs : Filesystem}
    {place : Progress} (keeps : fs.Reserved ∧ place.Numbered binderfsDev) :
    (system.goto task fs place).Inside binderfsDev where
  reserved := keeps.1
  numbered other := by
    by_cases same : other = task
    · rw [same, goto_threads]
      exact keeps.2
    · have kept : (system.goto task fs place).threads other = system.threads other :=
        Function.update_of_ne same ..
      rw [kept]
      exact inside.numbered other

/-- A step, other than one that is given the bound of `ida_alloc_max`. -/
theorem Tasks.Inside.step (inside : system.Inside binderfsDev) (lawful : system.Lawful binderfsDev)
    (taken : BinderfsStep binderfsDev names system event next)
    (answer : ∀ task, event ≠ .takes task binderfsMaxMinor) : next.Inside binderfsDev := by
  cases taken with
  | mounts isIdle useReserve permitted => exact inside.goto ⟨inside.reserved, trivial⟩
  | @adds task sb isIdle isMounted name copied =>
      apply inside.goto ⟨inside.reserved, _⟩
      cases copied with
      | false => trivial
      | true => trivial
  | @takes task ida fs place taken =>
      apply inside.goto (taken.reserved inside.reserved _)
      rintro rfl
      exact answer task rfl
  | @advances task fs place done =>
      exact inside.goto
        (done.reserved inside.reserved (lawful.creates task) (inside.numbered task))
  | returns atEnd => exact inside.goto ⟨inside.reserved, trivial⟩
  | unmounts isIdle isMounted unused => exact inside.goto ⟨inside.reserved, trivial⟩
  | remounts isMounted permitted => exact ⟨inside.reserved, inside.numbered⟩

/-- As long as `ida_alloc_max` does not return its bound. -/
theorem inside_of_run (run : Run (BinderfsStep binderfsDev names) (Tasks.init ι) events system)
    (answers : ∀ task, .takes task binderfsMaxMinor ∉ events) : system.Inside binderfsDev := by
  have allowed : Run (fun system event next => BinderfsStep binderfsDev names system event next ∧
      ∀ task, event ≠ .takes task binderfsMaxMinor) (Tasks.init ι) events system := by
    apply run.restrict
    rintro event member task rfl
    exact answers task member
  have initially : (Tasks.init ι).Inside binderfsDev :=
    { reserved := fun id inUse => absurd rfl inUse
      numbered := fun _ => trivial }
  have keeps := allowed.invariant
    (fun system => system.Lawful binderfsDev ∧ system.Inside binderfsDev)
    ⟨Tasks.lawful_init, initially⟩
    (fun holds taken => ⟨holds.1.step taken.1, holds.2.step holds.1 taken.1 taken.2⟩)
  exact keeps.2

/-- As long as `ida_alloc_max` does not return its bound, every inode has a device number of
its own inside the reserved region. -/
theorem device_numbers (run : Run (BinderfsStep binderfsDev names) (Tasks.init ι) events system)
    (answers : ∀ task, .takes task binderfsMaxMinor ∉ events) : system.Numbered binderfsDev := by
  have lawful := lawful_of_run run
  have inside := inside_of_run run answers
  have live : ∀ sb, ∀ dentry ∈ (system.shared.mounts sb).root, ∃ device,
      dentry.inode.iPrivate = some device ∧ dentry.inode.Numbered binderfsDev device.minor := by
    intro sb dentry member
    obtain ⟨device, isDevice, _, number⟩ := lawful.roots.sound sb dentry member
    obtain ⟨n, isEntry⟩ := List.getElem?_of_mem member
    have reserved : device.minor < binderfsMaxMinor := by
      apply inside.reserved
      rw [lawful.entry_inUse isEntry isDevice]
      nofun
    refine ⟨device, isDevice, ?_, ?_, reserved⟩
    · rw [number]
      exact (mkdev_fits reserved).1
    · rw [number]
      exact (mkdev_fits reserved).2
  refine ⟨inside.numbered, live, ?_⟩
  intro sb sb' n n' dentry dentry' isEntry isEntry' same
  obtain ⟨device, isDevice, numbered⟩ := live sb dentry (List.mem_of_getElem? isEntry)
  obtain ⟨device', isDevice', numbered'⟩ := live sb' dentry' (List.mem_of_getElem? isEntry')
  apply lawful.entry_unique isEntry isEntry' isDevice isDevice'
  rw [← numbered.minor, ← numbered'.minor, same]

end Runs

/-- A device is created with any id that is left by `binder-control`. -/
theorem created_run (binderfsDev : UInt32) {id : Nat} (unused : id ≠ 0)
    (within : id ≤ binderfsMaxMinor) :
    ∃ system : Tasks Bool,
      Run (BinderfsStep binderfsDev []) (Tasks.init Bool)
        [.mounts false, .takes false (0 : Nat), .advances false, .advances false,
          .returns false 0, .adds false 0 [97], .takes false id, .advances false,
          .advances false] system ∧
      (system.shared.mounts 0).root = [controlDentry binderfsDev 0,
        deviceDentry (deviceInode binderfsDev id) { name := [97], minor := id }] := by
  have mounted : Run (BinderfsStep binderfsDev []) (Tasks.init Bool) [.mounts false] _ :=
    .single (.mounts rfl true (by decide : (0 : Int) ≤ 1 ∧ (1 : Int) ≤ binderfsMaxMinor))
  have numbered := mounted.snoc (show BinderfsStep binderfsDev [] _ (.takes false (0 : Nat)) _ from
    .takes (.controlled (.id rfl (by decide)) rfl))
  have controlled := numbered.snoc (show BinderfsStep binderfsDev [] _ (.advances false) _ from
    .advances .addsControl)
  have filled := controlled.snoc (show BinderfsStep binderfsDev [] _ (.advances false) _ from
    .advances .filled)
  have returned := filled.snoc (show BinderfsStep binderfsDev [] _ (.returns false 0) _ from
    .returns rfl)
  have adds := returned.snoc (show BinderfsStep binderfsDev [] _ (.adds false 0 [97]) _ from
    .adds rfl ⟨Nat.zero_lt_one, rfl⟩ [97] true)
  have taken := adds.snoc (show BinderfsStep binderfsDev [] _ (.takes false id) _ from
    .takes (.numbered (.id (Function.update_of_ne unused ..) within)
      (takeMinor_room (by exact Int.le_refl 1) id)))
  have ready := taken.snoc (show BinderfsStep binderfsDev [] _ (.advances false) _ from
    .advances (.prepared (show prepareDevice _ _ _ _ none = _ from rfl)))
  have created := ready.snoc (show BinderfsStep binderfsDev [] _ (.advances false) _ from
    .advances (.instantiated (show instantiate _ _ none _ _ = _ from rfl)))
  exact ⟨_, created, rfl⟩

/-- A mount with `binder-control` and a device. -/
theorem device_numbers_two :
    ∃ system : Tasks Bool, system.Numbered (mkdev 511 0) ∧
      (system.shared.mounts 0).root.map Dentry.minor = [some 0, some 1] := by
  obtain ⟨system, run, isRoot⟩ := created_run (mkdev 511 0) (by decide : 1 ≠ 0) (by decide)
  refine ⟨system, device_numbers run ?_, ?_⟩
  · intro task member
    simp [binderfsMaxMinor, minorBits] at member
  · rw [isRoot]
    rfl

/-- A device is created with the bound of `ida_alloc_max` as its id, and gets the device
number of `binder-control`. -/
theorem device_numbers_clash :
    ¬ ∀ (events : List (BinderfsEvent Bool)) (system : Tasks Bool),
      Run (BinderfsStep (mkdev 511 0) []) (Tasks.init Bool) events system →
        system.Numbered (mkdev 511 0) := by
  intro claim
  obtain ⟨system, run, isRoot⟩ :=
    created_run (mkdev 511 0) (by decide : binderfsMaxMinor ≠ 0) (Nat.le_refl _)
  have clash := (claim _ system run).distinct 0 0 0 1
  simp only [isRoot] at clash
  cases (clash _ _ rfl rfl (by decide)).2

end DroidKernal.Binderfs
