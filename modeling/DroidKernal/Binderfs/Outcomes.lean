import DroidKernal.Binderfs.Erasure

/-!
# The outcomes of a request

The laws speak of what inodes and tasks hold.  Here they are read as facts about devices:
how many there are, and whose ids are in use.  A request that succeeds was granted an id
while its mount had room, and has put a device with that id into the directory; one
that fails has undone what it did.
-/

namespace DroidKernal.Binderfs

open Lib

/-! ## Devices -/

/-- The minor number of the device of an inode. -/
def Dentry.minor (dentry : Dentry) : Option Nat :=
  dentry.inode.iPrivate.map BinderDevice.minor

/-- The minor numbers of the devices of a mount. -/
def Mount.minors (mount : Mount) : List Nat :=
  mount.devices.filterMap Dentry.minor

section Devices

variable {binderfsDev : UInt32} {fs : Filesystem} {sb : Nat}

theorem Dentry.holds_device (dentry : Dentry) :
    dentry.holds sb ⟨sb, .binderFops⟩ =
      ([dentry].filter fun dentry => dentry.inode.iFop = .binderFops).filterMap Dentry.minor := by
  cases isDevice : dentry.inode.iPrivate with
  | none =>
      have noMinor : dentry.minor = none := by rw [Dentry.minor, isDevice, Option.map_none]
      rw [Dentry.holds, isDevice]
      by_cases isOne : dentry.inode.iFop = .binderFops
      · simp [isOne, noMinor]
      · simp [isOne]
  | some device =>
      have isMinor : dentry.minor = some device.minor := by
        rw [Dentry.minor, isDevice, Option.map_some]
      have holds : dentry.holds sb = Pi.single ⟨sb, dentry.inode.iFop⟩ {device.minor} := by
        rw [Dentry.holds, isDevice]
      rw [holds]
      by_cases isOne : dentry.inode.iFop = .binderFops
      · simp [isOne, isMinor]
      · have elsewhere : (⟨sb, .binderFops⟩ : Taker) ≠ ⟨sb, dentry.inode.iFop⟩ := by
          intro same
          exact isOne (congrArg Taker.iFop same).symm
        rw [Pi.single_eq_of_ne elsewhere]
        simp [isOne]

/-- What the inodes of a mount hold for devices are the minors of its devices. -/
theorem Mount.holds_devices (mount : Mount) :
    mount.holds sb ⟨sb, .binderFops⟩ = mount.minors := by
  rw [Mount.holds, Mount.minors, Mount.devices]
  induction mount.root with
  | nil => rfl
  | cons dentry rest ih =>
      rw [List.map_cons, List.sum_cons, Pi.add_apply, ih, dentry.holds_device,
        Multiset.coe_add, ← List.filterMap_append, ← List.filter_append, List.singleton_append]

/-- A device has a minor number. -/
theorem RootsLawful.devices_minor (lawful : RootsLawful binderfsDev fs) (sb : Nat) :
    (fs.mounts sb).devices.map Dentry.minor = (fs.mounts sb).minors.map some := by
  have allDevices : ∀ dentry ∈ (fs.mounts sb).devices, ∃ minor, dentry.minor = some minor := by
    intro dentry member
    obtain ⟨device, isDevice, _⟩ := lawful.sound sb dentry (List.mem_of_mem_filter member)
    exact ⟨device.minor, by rw [Dentry.minor, isDevice, Option.map_some]⟩
  rw [Mount.minors]
  generalize (fs.mounts sb).devices = devices at allDevices ⊢
  induction devices with
  | nil => rfl
  | cons dentry rest ih =>
      obtain ⟨minor, isMinor⟩ := allDevices dentry (List.mem_cons_self ..)
      have tail := ih fun other member => allDevices other (List.mem_cons_of_mem _ member)
      rw [List.map_cons, tail, List.filterMap_cons_some isMinor, List.map_cons, isMinor]

end Devices

/-! ## Devices in creation -/

/-- Creating a device on a mount. -/
def Progress.CreatesOn (sb : Nat) (place : Progress) : Prop :=
  place.creates.map Prod.fst = some sb

instance (sb : Nat) (place : Progress) : Decidable (place.CreatesOn sb) :=
  inferInstanceAs (Decidable (_ = _))

theorem Progress.card_holds (place : Progress) (sb : Nat) :
    (place.holds ⟨sb, .binderFops⟩).card = if place.CreatesOn sb then 1 else 0 := by
  have single (mount id : Nat) :
      ((Pi.single ⟨mount, .binderFops⟩ {id} : Taker → Multiset Nat) ⟨sb, .binderFops⟩).card =
        if some mount = some sb then 1 else 0 := by
    by_cases same : mount = sb
    · rw [same, Pi.single_eq_same, if_pos rfl, Multiset.card_singleton]
    · have elsewhere : (⟨sb, .binderFops⟩ : Taker) ≠ ⟨mount, .binderFops⟩ := by
        rintro ⟨⟩
        exact same rfl
      have notSame : some mount ≠ some sb := fun isSame => same (Option.some.inj isSame)
      rw [Pi.single_eq_of_ne elsewhere, if_neg notSame, Multiset.card_zero]
  cases place with
  | numbered mount _ _ id => exact single mount id
  | ready mount _ _ device => exact single mount device.minor
  | failing mount _ _ id _ => exact single mount id
  | controlled mount _ id =>
      have elsewhere : (⟨sb, .binderFops⟩ : Taker) ≠ ⟨mount, .binderCtlFops⟩ := nofun
      rw [Progress.holds, Pi.single_eq_of_ne elsewhere]
      rfl
  | _ => rfl

/-- The tasks hold an id each for the devices that they create. -/
theorem card_holds_sum (all : Multiset Progress) (sb : Nat) :
    ((all.map Progress.holds).sum ⟨sb, .binderFops⟩).card =
      all.countP fun place => place.CreatesOn sb := by
  induction all using Multiset.induction with
  | empty => rfl
  | cons place rest ih =>
      rw [Multiset.map_cons, Multiset.sum_cons, Pi.add_apply, Multiset.card_add, ih,
        place.card_holds, Multiset.countP_cons, add_comm]

theorem mem_holds_sum (all : Multiset Progress) (sb minor : Nat) :
    minor ∈ (all.map Progress.holds).sum ⟨sb, .binderFops⟩ ↔
      ∃ place ∈ all, place.creates = some (sb, minor) := by
  induction all using Multiset.induction with
  | empty =>
      constructor
      · exact fun member => absurd member (Multiset.notMem_zero _)
      · rintro ⟨place, member, _⟩
        exact absurd member (Multiset.notMem_zero _)
  | cons place rest ih =>
      rw [Multiset.map_cons, Multiset.sum_cons, Pi.add_apply, Multiset.mem_add, ih,
        ← Progress.creates_iff]
      simp only [Multiset.mem_cons, exists_eq_or_imp]

/-! ## What the laws say of devices -/

section Counts

variable {binderfsDev : UInt32} {fs : Filesystem} {all : Multiset Progress} {sb minor : Nat}

theorem heldIds_devices :
    heldIds fs all ⟨sb, .binderFops⟩ =
      (fs.mounts sb).minors + (all.map Progress.holds).sum ⟨sb, .binderFops⟩ := by
  rw [heldIds, Pi.add_apply, Filesystem.live, Mount.holds_devices]

/-- `device_count` is the number of devices, and of those in creation. -/
theorem Lawful.deviceCount_eq (lawful : Lawful binderfsDev fs all)
    (alive : (fs.mounts sb).status ≠ .killed) :
    (fs.mounts sb).deviceCount =
      (fs.mounts sb).devices.length + all.countP fun place => place.CreatesOn sb := by
  have devices := congrArg List.length (lawful.roots.devices_minor sb)
  rw [List.length_map, List.length_map] at devices
  rw [lawful.ids.count sb alive, heldIds_devices, Multiset.card_add, card_holds_sum,
    Multiset.coe_card, devices, Nat.cast_add]

/-- The ids in use for devices of a mount are theirs, or those of devices in creation. -/
theorem Lawful.minors_iff (lawful : Lawful binderfsDev fs all) :
    fs.minors minor = some ⟨sb, .binderFops⟩ ↔
      some minor ∈ (fs.mounts sb).devices.map Dentry.minor ∨
        ∃ place ∈ all, place.creates = some (sb, minor) := by
  have holders : minor ∈ heldIds fs all ⟨sb, .binderFops⟩ ↔
      some minor ∈ (fs.mounts sb).devices.map Dentry.minor ∨
        ∃ place ∈ all, place.creates = some (sb, minor) := by
    rw [heldIds_devices, Multiset.mem_add, mem_holds_sum, lawful.roots.devices_minor,
      List.mem_map_of_injective (Option.some_injective Nat), Multiset.mem_coe]
  rw [← holders]
  constructor
  · exact lawful.ids.accounted.known _ minor rfl
  · exact lawful.ids.accounted.inUse _ minor

/-- No two devices of a mount have the same minor. -/
theorem Lawful.minors_nodup (lawful : Lawful binderfsDev fs all) (sb : Nat) :
    ((fs.mounts sb).devices.map Dentry.minor).Nodup := by
  rw [lawful.roots.devices_minor]
  apply List.Nodup.map (Option.some_injective Nat)
  have nodup := lawful.ids.accounted.nodup ⟨sb, .binderFops⟩
  rw [heldIds_devices] at nodup
  exact Multiset.coe_nodup.mp (Multiset.nodup_of_le (Multiset.le_add_right ..) nodup)

end Counts

/-! ## A mount with room for one device -/

/-- A task that asks for an id finds one, if there is one and its mount has room. -/
theorem Take.finds {fs next : Filesystem} {sb id : Nat} {name : List UInt8} {caller : Caller}
    {after : Progress} {ida : Int} (room : (fs.mounts sb).deviceCount + 1 ≤ (fs.mounts sb).max)
    (unused : fs.minors id = none) (within : id ≤ (fs.mounts sb).maxMinor)
    (taken : Take fs (.requesting sb name caller) ida next after) : ida ≠ -ENOSPC := by
  have negative : ¬ (0 : Int) ≤ -ENOSPC := by decide
  cases taken with
  | numbered answer taken =>
      intro isError
      exact negative (isError ▸ Int.natCast_nonneg _)
  | refused answer taken _ =>
      obtain ⟨rfl, isAnswer, _⟩ := takeMinor_refused taken ‹_›
      obtain rfl := isAnswer room
      rintro rfl
      generalize isError : -ENOSPC = error at answer
      cases answer with
      | id _ _ => exact negative (isError ▸ Int.natCast_nonneg _)
      | noMemory => cases isError
      | noSpace exhausted => exact exhausted id within unused

/-- A mount without devices that has room for one. -/
theorem mounted_run : ∃ (events : List (BinderfsEvent Bool)) (system : Tasks Bool),
    Run (BinderfsStep 0 []) (Tasks.init Bool) events system ∧
    system.threads = (fun _ => .idle) ∧ system.shared.mountCount = 1 ∧
    system.shared.minors 1 = none ∧
    ∃ root, system.shared.mounts 0 =
        { useReserve := true, max := 1, deviceCount := 0, root, status := .mounted } ∧
      root.map Dentry.name = [controlName] := by
  have mounted : Run (BinderfsStep 0 []) (Tasks.init Bool) [.mounts false] _ :=
    .single (.mounts rfl true (by decide : (0 : Int) ≤ 1 ∧ (1 : Int) ≤ binderfsMaxMinor))
  have numbered := mounted.snoc (show BinderfsStep 0 [] _ (.takes false (0 : Nat)) _ from
    .takes (.controlled (.id rfl (by decide)) rfl))
  have controlled := numbered.snoc (show BinderfsStep 0 [] _ (.advances false) _ from
    .advances .addsControl)
  have filled := controlled.snoc (show BinderfsStep 0 [] _ (.advances false) _ from
    .advances .filled)
  have returned := filled.snoc (show BinderfsStep 0 [] _ (.returns false 0) _ from .returns rfl)
  refine ⟨_, _, returned, ?_, rfl, rfl, _, rfl, rfl⟩
  funext task
  cases task <;> rfl

section Crowded

variable {system : Tasks Bool} {root : List Dentry}

/-- While a task creates a device, another one is refused, and then the first one fails. -/
theorem crowded_run (isIdle : system.threads = fun _ => .idle)
    (count : system.shared.mountCount = 1) (unused : system.shared.minors 1 = none)
    (mount : system.shared.mounts 0 =
      { useReserve := true, max := 1, deviceCount := 0, root, status := .mounted }) :
    ∃ called creating asked refused final : Tasks Bool,
      BinderfsStep 0 [] system (.adds false 0 [97]) called ∧
      Run (BinderfsStep 0 []) called [.takes false (1 : Nat)] creating ∧
      BinderfsStep 0 [] creating (.adds true 0 [98]) asked ∧
      Run (BinderfsStep 0 []) asked [.takes true (-ENOSPC)] refused ∧
      Run (BinderfsStep 0 []) refused [.advances false, .advances false, .advances false] final ∧
      refused.threads true = .returning (-ENOSPC) ∧
      final.threads true = .returning (-ENOSPC) ∧ final.threads false = .returning (-EFAULT) ∧
      final.shared = system.shared ∧
      creating.shared.mounts 0 =
        { useReserve := true, max := 1, deviceCount := 1, root, status := .mounted } := by
  let called := system.goto false system.shared (binderCtlIoctl 0 [97] true)
  let fs := (system.shared.updateMount 0 fun m =>
    { m with deviceCount := m.deviceCount + 1 }).setMinor 1 (some ⟨0, .binderFops⟩)
  let creating := called.goto false fs (.numbered 0 [97] .ctlIoctl 1)
  let asked := creating.goto true fs (binderCtlIoctl 0 [98] true)
  let refused := asked.goto true fs (.returning (-ENOSPC))
  let failing := refused.goto false fs
    (.failing 0 .ctlIoctl (-EFAULT) 1 (some (deviceInode 0 1)))
  let abandoning := failing.goto false (giveBack fs 0 1)
    (.abandoning 0 .ctlIoctl (-EFAULT) (some (deviceInode 0 1)))
  let final := abandoning.goto false (giveBack fs 0 1) (.returning (-EFAULT))
  have counted : fs.mounts 0 =
      { useReserve := true, max := 1, deviceCount := 1, root, status := .mounted } := by
    simp only [fs, Filesystem.setMinor, updateMount_self, mount, zero_add]
  have idle : ∀ task, system.threads task = .idle := fun task => congrFun isIdle task
  have stillIdle : creating.threads true = .idle := idle true
  have isMounted : 0 < system.shared.mountCount ∧ (system.shared.mounts 0).status = .mounted := by
    rw [count, mount]
    exact ⟨Nat.one_pos, rfl⟩
  have isStillMounted : 0 < fs.mountCount ∧ (fs.mounts 0).status = .mounted := by
    rw [counted]
    exact ⟨isMounted.1, rfl⟩
  have room : (system.shared.mounts 0).deviceCount + 1 ≤ (system.shared.mounts 0).max := by
    rw [mount]
    exact (by decide : (0 : Int) + 1 ≤ 1)
  have full : ¬ (fs.mounts 0).deviceCount + 1 ≤ (fs.mounts 0).max := by
    rw [counted]
    exact (by decide : ¬ (1 : Int) + 1 ≤ 1)
  have within : 1 ≤ (system.shared.mounts 0).maxMinor := by
    rw [mount]
    exact (by decide : 1 ≤ binderfsMaxMinor)
  have granted : Take called.shared (called.threads false) (1 : Nat) fs
      (.numbered 0 [97] .ctlIoctl 1) := by
    have asks : called.threads false = .requesting 0 [97] .ctlIoctl := goto_threads
    rw [asks]
    exact .numbered (.id unused within) (takeMinor_room room 1)
  have isRefused : Take asked.shared (asked.threads true) (-ENOSPC) fs (.returning (-ENOSPC)) := by
    have asks : asked.threads true = .requesting 0 [98] .ctlIoctl := goto_threads
    have noRoom : takeMinor fs 0 (-ENOMEM) = (-ENOSPC, fs) := by
      simp only [takeMinor, updateMount_self, if_neg full, updateMount_uncounted]
      rfl
    rw [asks]
    exact .refused .noMemory noRoom (by decide)
  have prepares : refused.threads false = .numbered 0 [97] .ctlIoctl 1 := rfl
  have fails : Advance 0 refused.shared (refused.threads false) fs
      (.failing 0 .ctlIoctl (-EFAULT) 1 (some (deviceInode 0 1))) := by
    rw [prepares]
    exact @Advance.unprepared _ fs 0 1 [97] .ctlIoctl (some .copyToUser) _ _ rfl
  have undoes : Advance 0 failing.shared (failing.threads false) (giveBack fs 0 1)
      (.abandoning 0 .ctlIoctl (-EFAULT) (some (deviceInode 0 1))) := .givesBack
  have puts : Advance 0 abandoning.shared (abandoning.threads false) (giveBack fs 0 1)
      (.returning (-EFAULT)) := .puts
  refine ⟨called, creating, asked, refused, final, .adds (idle false) isMounted [97] true,
    .single (.takes granted), .adds stillIdle isStillMounted [98] true,
    .single (.takes isRefused), ?_, rfl, rfl, rfl, giveBack_taken unused, counted⟩
  exact ((Run.single (.advances fails)).snoc (.advances undoes)).snoc (.advances puts)

/-- Without the first task, the second one creates its device. -/
theorem uncrowded_run (isIdle : system.threads = fun _ => .idle)
    (count : system.shared.mountCount = 1) (unused : system.shared.minors 1 = none)
    (mount : system.shared.mounts 0 =
      { useReserve := true, max := 1, deviceCount := 0, root, status := .mounted })
    (isRoot : root.map Dentry.name = [controlName]) :
    ∃ alone : Tasks Bool,
      Run (BinderfsStep 0 []) system
        [.adds true 0 [98], .takes true (1 : Nat), .advances true, .advances true] alone ∧
      alone.threads true = .returning 0 ∧
      (alone.shared.mounts 0).root.map Dentry.name = [controlName, [98]] := by
  let called := system.goto true system.shared (binderCtlIoctl 0 [98] true)
  let fs := (system.shared.updateMount 0 fun m =>
    { m with deviceCount := m.deviceCount + 1 }).setMinor 1 (some ⟨0, .binderFops⟩)
  let device : BinderDevice := { name := [98], minor := 1 }
  let numbered := called.goto true fs (.numbered 0 [98] .ctlIoctl 1)
  let ready := numbered.goto true fs (.ready 0 .ctlIoctl (deviceInode 0 1) device)
  let filled := fs.updateMount 0 fun m =>
    { m with root := m.root ++ [deviceDentry (deviceInode 0 1) device] }
  have idle : system.threads true = .idle := congrFun isIdle true
  have counted : fs.mounts 0 =
      { useReserve := true, max := 1, deviceCount := 1, root, status := .mounted } := by
    simp only [fs, Filesystem.setMinor, updateMount_self, mount, zero_add]
  have isMounted : 0 < system.shared.mountCount ∧ (system.shared.mounts 0).status = .mounted := by
    rw [count, mount]
    exact ⟨Nat.one_pos, rfl⟩
  have room : (system.shared.mounts 0).deviceCount + 1 ≤ (system.shared.mounts 0).max := by
    rw [mount]
    exact (by decide : (0 : Int) + 1 ≤ 1)
  have within : 1 ≤ (system.shared.mounts 0).maxMinor := by
    rw [mount]
    exact (by decide : 1 ≤ binderfsMaxMinor)
  have granted : Take called.shared (called.threads true) (1 : Nat) fs
      (.numbered 0 [98] .ctlIoctl 1) := by
    have asks : called.threads true = .requesting 0 [98] .ctlIoctl := goto_threads
    rw [asks]
    exact .numbered (.id unused within) (takeMinor_room room 1)
  have prepares : Advance 0 numbered.shared (numbered.threads true) fs
      (.ready 0 .ctlIoctl (deviceInode 0 1) device) :=
    @Advance.prepared 0 fs 0 1 [98] .ctlIoctl none _ _ rfl
  have noDevice : ¬ (fs.mounts 0).root.any (fun dentry => dentry.name = device.name) := by
    have names : ((fs.mounts 0).root.map Dentry.name).any (fun name => name = [98]) = false := by
      rw [counted, isRoot]
      rfl
    rw [List.any_map] at names
    rw [Bool.not_eq_true]
    exact names
  have creates : Advance 0 ready.shared (ready.threads true) filled (.returning 0) := by
    have isReady : ready.threads true = .ready 0 .ctlIoctl (deviceInode 0 1) device := goto_threads
    have added : instantiate fs 0 none (deviceInode 0 1) device = .ok filled := if_neg noDevice
    rw [isReady]
    exact .instantiated added
  have called : Run (BinderfsStep 0 []) system [.adds true 0 [98]] called :=
    .single (.adds idle isMounted [98] true)
  refine ⟨ready.goto true filled (.returning 0), ?_, rfl, ?_⟩
  · exact ((called.snoc (.takes granted)).snoc (.advances prepares)).snoc (.advances creates)
  · have here : (filled.mounts 0).root = root ++ [deviceDentry (deviceInode 0 1) device] := by
      simp only [filled, updateMount_self, counted]
    have shared : (ready.goto true filled (.returning 0)).shared = filled := rfl
    rw [shared, here, List.map_append, isRoot]
    rfl

/-- It is not refused for want of room. -/
theorem uncrowded_grants {next : Tasks Bool} {ida : Int} {name : List UInt8}
    (unused : system.shared.minors 1 = none)
    (mount : system.shared.mounts 0 =
      { useReserve := true, max := 1, deviceCount := 0, root, status := .mounted })
    (run : Run (BinderfsStep 0 []) system [.adds true 0 name, .takes true ida] next) :
    ida ≠ -ENOSPC := by
  obtain ⟨called, calls, rest⟩ := run.cons_inv
  obtain ⟨_, taken, _⟩ := rest.cons_inv
  have room : (system.shared.mounts 0).deviceCount + 1 ≤ (system.shared.mounts 0).max := by
    rw [mount]
    exact (by decide : (0 : Int) + 1 ≤ 1)
  have within : 1 ≤ (system.shared.mounts 0).maxMinor := by
    rw [mount]
    exact (by decide : 1 ≤ binderfsMaxMinor)
  cases calls with
  | @adds _ _ _ _ _ copied =>
      cases taken with
      | takes taken =>
          rw [goto_threads] at taken
          cases copied with
          | false => cases taken
          | true => exact taken.finds room unused within

end Crowded

/-! ## What requests have done -/

section Requests

variable {ι : Type*} [Fintype ι] [DecidableEq ι] {binderfsDev : UInt32}
  {names : List (List UInt8)} {start system next : Tasks ι} {event : BinderfsEvent ι} {task : ι}
  {events later : List (BinderfsEvent ι)} {sb minor : Nat} {name : List UInt8}
  {place after : Progress} {fs shared : Filesystem}

/-- In a run, a task was given an id for a device, with room on the mount. -/
def Granted (binderfsDev : UInt32) (names : List (List UInt8)) (start : Tasks ι) (task : ι)
    (sb minor : Nat) (events : List (BinderfsEvent ι)) : Prop :=
  ∃ earlier later state next, events = earlier ++ .takes task minor :: later ∧
    Run (BinderfsStep binderfsDev names) start earlier state ∧
    BinderfsStep binderfsDev names state (.takes task minor) next ∧
    next.shared.minors minor = some ⟨sb, .binderFops⟩ ∧
    (next.shared.mounts sb).deviceCount ≤ (next.shared.mounts sb).max

/-- In a run, a task put a device with the id it was given into the directory, and changed
nothing else. -/
def Created (binderfsDev : UInt32) (names : List (List UInt8)) (start : Tasks ι) (task : ι)
    (sb : Nat) (name : List UInt8) (events : List (BinderfsEvent ι)) : Prop :=
  ∃ earlier later state next minor, events = earlier ++ .advances task :: later ∧
    Granted binderfsDev names start task sb minor earlier ∧
    Run (BinderfsStep binderfsDev names) start earlier state ∧
    BinderfsStep binderfsDev names state (.advances task) next ∧
    next.shared = state.shared.updateMount sb fun m => { m with root := m.root ++
      [deviceDentry (deviceInode binderfsDev minor) { name := requestName name, minor }] }

/-- The steps in which a task leaves the file system alone. -/
def Silent (binderfsDev : UInt32) (names : List (List UInt8)) (task : ι) (system : Tasks ι)
    (event : BinderfsEvent ι) (next : Tasks ι) : Prop :=
  BinderfsStep binderfsDev names system event next ∧
    (event.task = some task → next.shared = system.shared)

/-- In a run, a task counted a device of a mount and took an unused id for it, and changed
nothing else. -/
def Holding (binderfsDev : UInt32) (names : List (List UInt8)) (start : Tasks ι) (task : ι)
    (sb minor : Nat) (events : List (BinderfsEvent ι)) (system : Tasks ι) : Prop :=
  ∃ earlier later state next, events = earlier ++ .takes task minor :: later ∧
    Run (Silent binderfsDev names task) start earlier state ∧
    state.shared.minors minor = none ∧
    BinderfsStep binderfsDev names state (.takes task minor) next ∧
    next.shared = (state.shared.updateMount sb fun m =>
      { m with deviceCount := m.deviceCount + 1 }).setMinor minor (some ⟨sb, .binderFops⟩) ∧
    Run (Silent binderfsDev names task) next later system

/-- In a run, a task changed nothing, or it undid the one change that it made: the device
is not counted any more, and its id, which was still in use for it, is free. -/
def Undone (binderfsDev : UInt32) (names : List (List UInt8)) (start : Tasks ι) (task : ι)
    (sb : Nat) (events : List (BinderfsEvent ι)) (system : Tasks ι) : Prop :=
  Run (Silent binderfsDev names task) start events system ∨
    ∃ earlier later state next minor, events = earlier ++ .advances task :: later ∧
      Holding binderfsDev names start task sb minor earlier state ∧
      state.shared.minors minor = some ⟨sb, .binderFops⟩ ∧
      BinderfsStep binderfsDev names state (.advances task) next ∧
      next.shared = giveBack state.shared sb minor ∧
      Run (Silent binderfsDev names task) next later system

omit [Fintype ι] in
theorem Silent.other (taken : BinderfsStep binderfsDev names system event next)
    (other : event.task ≠ some task) : Silent binderfsDev names task system event next :=
  ⟨taken, fun mine => absurd mine other⟩

omit [Fintype ι] in
theorem Holding.silent (holding : Holding binderfsDev names start task sb minor events system)
    (taken : Silent binderfsDev names task system event next) :
    Holding binderfsDev names start task sb minor (events ++ [event]) next := by
  obtain ⟨earlier, later, before, after, rfl, quiet, unused, takes, change, rest⟩ := holding
  refine ⟨earlier, later ++ [event], before, after, ?_, quiet, unused, takes, change,
    rest.snoc taken⟩
  rw [List.append_assoc, List.cons_append]

omit [Fintype ι] in
theorem Undone.silent (undone : Undone binderfsDev names start task sb events system)
    (taken : Silent binderfsDev names task system event next) :
    Undone binderfsDev names start task sb (events ++ [event]) next := by
  rcases undone with quiet | ⟨earlier, later, before, after, minor, rfl, holding, inUse, gives,
    change, rest⟩
  · exact .inl (quiet.snoc taken)
  · refine .inr ⟨earlier, later ++ [event], before, after, minor, ?_, holding, inUse, gives,
      change, rest.snoc taken⟩
    rw [List.append_assoc, List.cons_append]

omit [Fintype ι] in
theorem Granted.append (granted : Granted binderfsDev names start task sb minor events) :
    Granted binderfsDev names start task sb minor (events ++ later) := by
  obtain ⟨earlier, rest, state, next, rfl, facts⟩ := granted
  exact ⟨earlier, rest ++ later, state, next, List.append_assoc .., facts⟩

omit [Fintype ι] in
theorem Created.append (created : Created binderfsDev names start task sb name events) :
    Created binderfsDev names start task sb name (events ++ later) := by
  obtain ⟨earlier, rest, state, next, minor, rfl, facts⟩ := created
  exact ⟨earlier, rest ++ later, state, next, minor, List.append_assoc .., facts⟩

/-- How far the request of a task is, after what has happened since its call. -/
def Progress.Stage (binderfsDev : UInt32) (names : List (List UInt8)) (start : Tasks ι) (task : ι)
    (sb : Nat) (name : List UInt8) (events : List (BinderfsEvent ι)) (system : Tasks ι) :
    Progress → Prop
  | requesting sb' name' caller => sb' = sb ∧ name' = name ∧ caller = .ctlIoctl ∧
      Run (Silent binderfsDev names task) start events system
  | numbered sb' name' caller minor => sb' = sb ∧ name' = name ∧ caller = .ctlIoctl ∧
      Granted binderfsDev names start task sb minor events ∧
      Holding binderfsDev names start task sb minor events system
  | ready sb' caller inode device => sb' = sb ∧ caller = .ctlIoctl ∧
      inode = deviceInode binderfsDev device.minor ∧ device.name = requestName name ∧
      Granted binderfsDev names start task sb device.minor events ∧
      Holding binderfsDev names start task sb device.minor events system
  | failing sb' caller ret minor _ => sb' = sb ∧ caller = .ctlIoctl ∧ ret < 0 ∧
      Holding binderfsDev names start task sb minor events system
  | abandoning _ caller ret _ => caller = .ctlIoctl ∧ ret < 0 ∧
      Undone binderfsDev names start task sb events system
  | returning ret => (ret = 0 → Created binderfsDev names start task sb name events) ∧
      (ret ≠ 0 → Undone binderfsDev names start task sb events system)
  | _ => False

omit [Fintype ι] in
/-- The others go on, or the task does without touching the file system. -/
theorem Progress.Stage.silent
    (stage : place.Stage binderfsDev names start task sb name events system)
    (taken : Silent binderfsDev names task system event next) :
    place.Stage binderfsDev names start task sb name (events ++ [event]) next := by
  cases place with
  | requesting _ _ _ =>
      obtain ⟨mount, isName, caller, quiet⟩ := stage
      exact ⟨mount, isName, caller, quiet.snoc taken⟩
  | numbered _ _ _ _ =>
      obtain ⟨mount, isName, caller, granted, holding⟩ := stage
      exact ⟨mount, isName, caller, granted.append, holding.silent taken⟩
  | ready _ _ _ _ =>
      obtain ⟨mount, caller, inode, isName, granted, holding⟩ := stage
      exact ⟨mount, caller, inode, isName, granted.append, holding.silent taken⟩
  | failing _ _ _ _ _ =>
      obtain ⟨mount, caller, negative, holding⟩ := stage
      exact ⟨mount, caller, negative, holding.silent taken⟩
  | abandoning _ _ _ _ =>
      obtain ⟨caller, negative, undone⟩ := stage
      exact ⟨caller, negative, undone.silent taken⟩
  | returning ret =>
      exact ⟨fun isDone => (stage.1 isDone).append, fun isError => (stage.2 isError).silent taken⟩
  | _ => exact stage.elim

omit [Fintype ι] in
/-- A task is given an id, or its request fails. -/
theorem Progress.Stage.take {ida : Int}
    (stage : (system.threads task).Stage binderfsDev names start task sb name events system)
    (run : Run (BinderfsStep binderfsDev names) start events system)
    (taken : Take system.shared (system.threads task) ida fs after) :
    after.Stage binderfsDev names start task sb name (events ++ [.takes task ida])
      (system.goto task fs after) := by
  have step : BinderfsStep binderfsDev names system (.takes task ida) (system.goto task fs after) :=
    .takes taken
  generalize isPlace : system.threads task = place at stage taken
  cases taken with
  | @numbered next sb' name' caller ida id answer taken =>
      obtain ⟨rfl, rfl, rfl, quiet⟩ := stage
      rcases takeMinor_cases taken with ⟨negative, _⟩ | ⟨_, rfl, room, rfl⟩
      · exact absurd negative (Int.not_lt.mpr (Int.natCast_nonneg _))
      · have unused := (unused_of_idaAllocMax answer (Int.natCast_nonneg _)).1
        have granted :
            Granted binderfsDev names start task sb' id (events ++ [.takes task id]) := by
          refine ⟨events, [], system, _, rfl, run, step, Function.update_self .., ?_⟩
          simpa only [Tasks.goto, Filesystem.setMinor, updateMount_self] using room
        exact ⟨rfl, rfl, rfl, granted, events, [], system, _, rfl, quiet, unused, step, rfl, .nil⟩
  | @refused next sb' name' caller ida ret answer taken negative =>
      obtain ⟨rfl, rfl, rfl, quiet⟩ := stage
      obtain ⟨rfl, _⟩ := takeMinor_refused taken negative
      refine ⟨fun isZero => absurd isZero (Int.ne_of_lt negative), fun _ => .inl ?_⟩
      exact quiet.snoc ⟨step, fun _ => rfl⟩
  | controlled answer taken => exact stage.elim
  | uncontrolled answer taken negative => exact stage.elim

/-- A task goes on with its request, and puts a device into the directory before it
returns 0. -/
theorem Progress.Stage.advance
    (stage : (system.threads task).Stage binderfsDev names start task sb name events system)
    (run : Run (BinderfsStep binderfsDev names) start events system)
    (lawful : system.Lawful binderfsDev)
    (done : Advance binderfsDev system.shared (system.threads task) fs after) :
    after.Stage binderfsDev names start task sb name (events ++ [.advances task])
      (system.goto task fs after) := by
  have step : BinderfsStep binderfsDev names system (.advances task) (system.goto task fs after) :=
    .advances done
  have creates := lawful.creates task
  have sound := lawful.tasks.sound _ (Threads.mem_places.mpr ⟨task, rfl⟩)
  generalize isPlace : system.threads task = place at stage done creates sound
  cases done with
  | @prepared sb' id name' caller failure inode device done =>
      obtain ⟨rfl, rfl, rfl, granted, holding⟩ := stage
      obtain ⟨rfl, rfl⟩ := prepareDevice_ok done
      exact ⟨rfl, rfl, rfl, rfl, granted.append, holding.silent ⟨step, fun _ => rfl⟩⟩
  | @unprepared sb' id name' caller failure ret inode failed =>
      obtain ⟨rfl, _, rfl, _, holding⟩ := stage
      exact ⟨rfl, rfl, (prepareDevice_error failed).1, holding.silent ⟨step, fun _ => rfl⟩⟩
  | @instantiated next sb' caller inode device lookup done =>
      obtain ⟨rfl, rfl, rfl, isName, granted, _⟩ := stage
      refine ⟨fun _ => ?_, fun isError => absurd rfl isError⟩
      obtain ⟨_, rfl⟩ := instantiate_ok done
      refine ⟨events, [], system, _, device.minor, rfl, granted, run, step, ?_⟩
      rw [← isName]
      rfl
  | @uninstantiated sb' caller inode device lookup ret negative failed =>
      obtain ⟨rfl, rfl, _, _, _, holding⟩ := stage
      exact ⟨rfl, rfl, instantiate_error negative failed, holding.silent ⟨step, fun _ => rfl⟩⟩
  | @givesBack sb' id caller ret inode =>
      obtain ⟨rfl, rfl, negative, holding⟩ := stage
      have inUse := (creates sb' id rfl).2
      refine ⟨rfl, negative, .inr ?_⟩
      exact ⟨events, [], system, _, id, rfl, holding, inUse, step, rfl, .nil⟩
  | @puts sb' caller ret inode =>
      obtain ⟨rfl, negative, undone⟩ := stage
      refine ⟨fun isZero => absurd isZero (Int.ne_of_lt negative), fun _ => undone.silent ?_⟩
      exact ⟨step, fun _ => iput_eq sound⟩
  | _ => exact stage.elim

/-- A step in the course of a request. -/
theorem Progress.Stage.step
    (stage : (system.threads task).Stage binderfsDev names start task sb name events system)
    (run : Run (BinderfsStep binderfsDev names) start events system)
    (lawful : system.Lawful binderfsDev)
    (taken : BinderfsStep binderfsDev names system event next)
    (stays : ∀ ret, event ≠ .returns task ret) :
    (next.threads task).Stage binderfsDev names start task sb name (events ++ [event]) next := by
  by_cases mine : event.task = some task
  · have busy : system.threads task ≠ .idle := by
      intro isIdle
      rw [isIdle] at stage
      exact stage
    obtain ⟨_, _, rfl, ⟨_, rfl, given⟩ | ⟨rfl, done⟩⟩ := taken.own mine busy stays
    · rw [goto_threads]
      exact stage.take run given
    · rw [goto_threads]
      exact stage.advance run lawful done
  · rw [step_threads_other taken mine]
    exact stage.silent (.other taken mine)

/-- A request, from its call until it returns. -/
theorem stage_of_run {copied : Bool} (lawful : start.Lawful binderfsDev)
    (run : Run (BinderfsStep binderfsDev names) start events system)
    (called : start.threads task = binderCtlIoctl sb name copied)
    (during : ∀ ret, .returns task ret ∉ events) :
    (system.threads task).Stage binderfsDev names start task sb name events system := by
  induction run with
  | nil =>
      rw [called]
      cases copied with
      | false => exact ⟨nofun, fun _ => .inl .nil⟩
      | true => exact ⟨rfl, rfl, rfl, .nil⟩
  | @snoc events state next event earlier taken ih =>
      have before := ih fun ret member => during ret (List.mem_append_left _ member)
      have isLawful := earlier.invariant (Tasks.Lawful binderfsDev) lawful
        fun lawful taken => lawful.step taken
      apply before.step earlier isLawful taken
      rintro ret rfl
      exact during ret (List.mem_append_right _ (List.mem_singleton_self _))

omit [Fintype ι] in
/-- A call of `BINDER_CTL_ADD` alone is no trace. -/
theorem called_without {copied : Bool} (isIdle : system.threads task = .idle) :
    (system.goto task system.shared (binderCtlIoctl sb name copied)).without task = system := by
  have nothing : (binderCtlIoctl sb name copied).creates = none := by
    cases copied with
    | false => rfl
    | true => rfl
  rw [Tasks.without, goto_threads, nothing]
  simp only [Tasks.goto, Filesystem.without, Function.update_idem, ← isIdle,
    Function.update_eq_self]

/-- Device creation is all or nothing, and respects the limit. -/
theorem binderfs_device_create_all_or_nothing
    (run : Run (BinderfsStep binderfsDev names) (Tasks.init ι) events system) :
    (∀ sb, (system.shared.mounts sb).status ≠ .killed →
      (system.shared.mounts sb).deviceCount = (system.shared.mounts sb).devices.length +
        (Finset.univ.filter fun task => (system.threads task).CreatesOn sb).card) ∧
    (∀ sb minor, system.shared.minors minor = some ⟨sb, .binderFops⟩ ↔
      some minor ∈ (system.shared.mounts sb).devices.map Dentry.minor ∨
        ∃ task, (system.threads task).creates = some (sb, minor)) ∧
    (∀ sb, ((system.shared.mounts sb).devices.map Dentry.name).Nodup ∧
      ((system.shared.mounts sb).devices.map Dentry.minor).Nodup) ∧
    ∀ task sb name called later final ret,
      BinderfsStep binderfsDev names system (.adds task sb name) called →
      Run (BinderfsStep binderfsDev names) called later final →
      (∀ ret, .returns task ret ∉ later) → final.threads task = .returning ret →
        (ret = 0 → Created binderfsDev names called task sb name later) ∧
        (ret ≠ 0 → Undone binderfsDev names called task sb later final ∧
          ((∀ other, .takes other (-ENOSPC) ∈ later → other = task) →
            Run (BinderfsStep binderfsDev names) system
              (later.filter fun event => event.task ≠ some task)
              (final.goto task final.shared .idle))) := by
  have lawful := lawful_of_run run
  refine ⟨?_, ?_, fun sb => ⟨lawful.roots.names sb, lawful.minors_nodup sb⟩, ?_⟩
  · intro sb alive
    rw [lawful.deviceCount_eq alive, Threads.countP_places]
  · intro sb minor
    rw [lawful.minors_iff]
    simp only [Threads.mem_places, exists_exists_eq_and]
  · intro task sb name called later final ret taken course during atEnd
    have isLawful := lawful.step taken
    cases taken with
    | @adds _ _ isIdle isMounted _ copied =>
        have stage := stage_of_run isLawful course goto_threads during
        rw [atEnd] at stage
        refine ⟨stage.1, fun isError => ⟨stage.2 isError, ?_⟩⟩
        · intro room
          have inRequest : ((system.goto task system.shared
              (binderCtlIoctl sb name copied)).threads task).InRequest := by
            rw [goto_threads]
            cases copied with
            | false => trivial
            | true => rfl
          have erased := run_without isLawful inRequest course during atEnd isError room
          rw [called_without isIdle, Tasks.without, atEnd] at erased
          exact erased

end Requests

/-- A request that fails has made another one fail, which succeeds without it. -/
theorem binderfs_device_create_all_or_nothing_crowded :
    ∃ (events later : List (BinderfsEvent Bool)) (system called final alone : Tasks Bool),
      Run (BinderfsStep 0 []) (Tasks.init Bool) events system ∧
      BinderfsStep 0 [] system (.adds false 0 [97]) called ∧
      Run (BinderfsStep 0 []) called later final ∧
      (∀ ret, .returns false ret ∉ later) ∧
      final.threads false = .returning (-EFAULT) ∧
      final.threads true = .returning (-ENOSPC) ∧
      (final.shared.mounts 0).root.map Dentry.name = [controlName] ∧
      ¬ Run (BinderfsStep 0 []) system (later.filter fun event => event.task ≠ some false)
        (final.goto false final.shared .idle) ∧
      Run (BinderfsStep 0 []) system
        [.adds true 0 [98], .takes true (1 : Nat), .advances true, .advances true] alone ∧
      alone.threads true = .returning 0 ∧
      (alone.shared.mounts 0).root.map Dentry.name = [controlName, [98]] := by
  obtain ⟨events, system, run, isIdle, count, unused, root, mount, isRoot⟩ := mounted_run
  obtain ⟨called, creating, asked, refused, final, calls, creates, asks, refuses, fails, _,
    isRefused, isError, sameShared, _⟩ := crowded_run isIdle count unused mount
  obtain ⟨alone, runs, isDone, names⟩ := uncrowded_run isIdle count unused mount isRoot
  have course := ((creates.snoc asks).append refuses).append fails
  refine ⟨events, _, system, called, final, alone, run, calls, course, ?_, isError, isRefused, ?_,
    ?_, runs, isDone, names⟩
  · intro ret
    simp
  · rw [sameShared, mount]
    exact isRoot
  · exact fun erased => uncrowded_grants unused mount erased rfl

/-- A mount with room for one device: a task is about to create it, another task is refused,
and then the first one fails as well. -/
theorem binderfs_device_create_all_or_nothing_refused :
    ∃ (events : List (BinderfsEvent Bool))
      (system called creating asked refused final : Tasks Bool),
      Run (BinderfsStep 0 []) (Tasks.init Bool) events system ∧
      BinderfsStep 0 [] system (.adds false 0 [97]) called ∧
      Run (BinderfsStep 0 []) called [.takes false (1 : Nat)] creating ∧
      BinderfsStep 0 [] creating (.adds true 0 [98]) asked ∧
      Run (BinderfsStep 0 []) asked [.takes true (-ENOSPC)] refused ∧
      Run (BinderfsStep 0 []) refused [.advances false, .advances false, .advances false] final ∧
      Undone 0 [] called false 0 [.takes false (1 : Nat), .adds true 0 [98], .takes true (-ENOSPC),
        .advances false, .advances false, .advances false] final ∧
      (creating.shared.mounts 0).deviceCount = 1 ∧
      (creating.shared.mounts 0).deviceCount = (creating.shared.mounts 0).devices.length +
        (Finset.univ.filter fun task => (creating.threads task).CreatesOn 0).card ∧
      Run (BinderfsStep 0 []) creating [] (refused.goto true refused.shared .idle) := by
  obtain ⟨events, system, run, isIdle, count, unused, root, mount, _⟩ := mounted_run
  obtain ⟨called, creating, asked, refused, final, calls, creates, asks, refuses, fails, isRefused,
    _, isError, _, isMount⟩ := crowded_run isIdle count unused mount
  have course := ((creates.snoc asks).append refuses).append fails
  have earlier := (run.snoc calls).append creates
  obtain ⟨_, _, _, outcome⟩ := binderfs_device_create_all_or_nothing run
  obtain ⟨counts, _, _, outcome'⟩ := binderfs_device_create_all_or_nothing earlier
  have undone := (outcome false 0 [97] called _ final _ calls course (by simp) isError).2
    (by decide)
  have erased := (outcome' true 0 [98] asked _ refused _ asks refuses (by simp) isRefused).2
    (by decide)
  refine ⟨events, system, called, creating, asked, refused, final, run, calls, creates, asks,
    refuses, fails, undone.1, ?_, counts 0 ?_, erased.2 ?_⟩
  · rw [isMount]
  · rw [isMount]
    nofun
  · simp

end DroidKernal.Binderfs
