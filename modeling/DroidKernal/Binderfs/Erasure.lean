import DroidKernal.Binderfs.Interleaving

/-!
# A request without its effects

What a request has done to the file system until its device is in the directory is one
count and one id, and its error path takes both back.  Taking them back commutes with
every section of the other tasks but one: a section that is refused for want of room may
find room without the request.  Where there is no such refusal, a request that fails might
as well not have been made.
-/

namespace DroidKernal.Binderfs

open Lib

/-! ## Taking back -/

/-- The count of a mount, taken back. -/
def Mount.uncount (mount : Mount) : Mount :=
  { mount with deviceCount := mount.deviceCount - 1 }

/-- The mount and the id of a device in creation. -/
def Progress.creates : Progress → Option (Nat × Nat)
  | numbered sb _ _ minor | failing sb _ _ minor _ => some (sb, minor)
  | ready sb _ _ device => some (sb, device.minor)
  | _ => none

/-- The file system without a device in creation. -/
def Filesystem.without (fs : Filesystem) : Option (Nat × Nat) → Filesystem
  | none => fs
  | some (sb, minor) => giveBack fs sb minor

/-- A device in creation has an id, and its mount exists. -/
def Filesystem.Creates (fs : Filesystem) (creation : Option (Nat × Nat)) : Prop :=
  ∀ sb minor, creation = some (sb, minor) →
    sb < fs.mountCount ∧ fs.minors minor = some ⟨sb, .binderFops⟩

section Commuting

variable {binderfsDev : UInt32} {fs next : Filesystem} {place after : Progress}
  {sb minor : Nat} {creation : Option (Nat × Nat)}

theorem giveBack_eq :
    giveBack fs sb minor = (fs.updateMount sb Mount.uncount).setMinor minor none :=
  rfl

theorem setMinor_updateMount {id : Nat} {taker : Option Taker} (change : Mount → Mount) :
    (fs.setMinor id taker).updateMount sb change = (fs.updateMount sb change).setMinor id taker :=
  rfl

/-- Changes of mounts commute, if those of one mount do. -/
theorem updateMount_comm {other : Nat} {first second : Mount → Mount}
    (commutes : other = sb → first ∘ second = second ∘ first) :
    (fs.updateMount other second).updateMount sb first =
      (fs.updateMount sb first).updateMount other second := by
  by_cases same : other = sb
  · cases same
    rw [updateMount_updateMount, updateMount_updateMount, commutes rfl]
  · simp only [Filesystem.updateMount, Function.update_of_ne same,
      Function.update_of_ne (Ne.symm same), Function.update_comm same]

/-- Changes of ids commute, if they agree on one id. -/
theorem setMinor_comm {id : Nat} {taker other : Option Taker} (agree : id = minor → taker = other) :
    (fs.setMinor id taker).setMinor minor other = (fs.setMinor minor other).setMinor id taker := by
  by_cases same : id = minor
  · rw [same, agree same]
  · simp only [Filesystem.setMinor, Function.update_comm same]

/-- An id is taken back before or after a change of a mount. -/
theorem giveBack_updateMount {other : Nat} {change : Mount → Mount}
    (commutes : other = sb → Mount.uncount ∘ change = change ∘ Mount.uncount) :
    giveBack (fs.updateMount other change) sb minor =
      (giveBack fs sb minor).updateMount other change := by
  rw [giveBack_eq, updateMount_comm commutes, giveBack_eq, setMinor_updateMount]

/-- An id is taken back before or after another one changes hands. -/
theorem giveBack_setMinor {id : Nat} {taker : Option Taker} (agree : id = minor → taker = none) :
    giveBack (fs.setMinor id taker) sb minor = (giveBack fs sb minor).setMinor id taker := by
  rw [giveBack_eq, setMinor_updateMount, setMinor_comm agree, giveBack_eq]

theorem giveBack_giveBack {other id : Nat} :
    giveBack (giveBack fs other id) sb minor = giveBack (giveBack fs sb minor) other id := by
  have uncounted : giveBack (fs.updateMount other Mount.uncount) sb minor =
      (giveBack fs sb minor).updateMount other Mount.uncount :=
    giveBack_updateMount fun _ => rfl
  have first : giveBack fs other id =
      (fs.updateMount other Mount.uncount).setMinor id none := rfl
  rw [first, giveBack_setMinor fun _ => rfl, uncounted]
  rfl

/-! ### The sections of other tasks -/

theorem without_updateMount {other : Nat} {change : Mount → Mount}
    (commutes : ∀ sb minor, creation = some (sb, minor) → other = sb →
      Mount.uncount ∘ change = change ∘ Mount.uncount) :
    (fs.updateMount other change).without creation =
      (fs.without creation).updateMount other change := by
  cases creation with
  | none => rfl
  | some taken => exact giveBack_updateMount (commutes taken.1 taken.2 rfl)

theorem without_setMinor {id : Nat} {taker : Option Taker}
    (agree : ∀ sb minor, creation = some (sb, minor) → id = minor → taker = none) :
    (fs.setMinor id taker).without creation = (fs.without creation).setMinor id taker := by
  cases creation with
  | none => rfl
  | some taken => exact giveBack_setMinor (agree taken.1 taken.2 rfl)

theorem without_giveBack {other id : Nat} :
    (giveBack fs other id).without creation = giveBack (fs.without creation) other id := by
  cases creation with
  | none => rfl
  | some taken => exact giveBack_giveBack

/-- But for the count, a mount is the same without a device in creation. -/
theorem without_mounts (fs : Filesystem) (creation : Option (Nat × Nat)) (other : Nat) :
    ∃ count, count ≤ (fs.mounts other).deviceCount ∧
      (fs.without creation).mounts other = { fs.mounts other with deviceCount := count } := by
  cases creation with
  | none => exact ⟨_, Int.le_refl _, rfl⟩
  | some taken =>
      by_cases same : other = taken.1
      · refine ⟨(fs.mounts other).deviceCount - 1, Int.sub_le_self _ (by decide), ?_⟩
        cases same
        have here : (fs.updateMount taken.1 Mount.uncount).mounts taken.1 = _ :=
          updateMount_self _
        exact here
      · have elsewhere : (fs.updateMount taken.1 Mount.uncount).mounts other = fs.mounts other :=
          updateMount_other same _
        exact ⟨_, Int.le_refl _, elsewhere⟩

/-- An unused id is not that of the device in creation. -/
theorem unused_without {id : Nat} (creates : fs.Creates creation) (unused : fs.minors id = none) :
    (fs.without creation).minors id = none ∧
      ∀ sb minor, creation = some (sb, minor) → id ≠ minor := by
  cases creation with
  | none => exact ⟨unused, nofun⟩
  | some taken =>
      have differ : id ≠ taken.2 := by
        rintro rfl
        cases unused.symm.trans (creates taken.1 taken.2 rfl).2
      refine ⟨(Function.update_of_ne differ ..).trans unused, ?_⟩
      rintro sb minor ⟨⟩
      exact differ

/-- An id is taken without a device in creation, too. -/
theorem taken_without {id : Nat} {taker : Option Taker} (creates : fs.Creates creation)
    (unused : fs.minors id = none) :
    (fs.setMinor id taker).without creation = (fs.without creation).setMinor id taker := by
  apply without_setMinor
  intro sb minor isCreation same
  exact absurd same ((unused_without creates unused).2 sb minor isCreation)

/-- With room on the mount, `ida_alloc_max` decides. -/
theorem takeMinor_room (room : (fs.mounts sb).deviceCount + 1 ≤ (fs.mounts sb).max) (id : Nat) :
    takeMinor fs sb id = ((id : Int), (fs.updateMount sb fun m =>
      { m with deviceCount := m.deviceCount + 1 }).setMinor id (some ⟨sb, .binderFops⟩)) := by
  have nonneg : ¬ (id : Int) < 0 := Int.not_lt.mpr (Int.natCast_nonneg id)
  simp only [takeMinor, updateMount_self, if_pos room, if_neg nonneg, Int.toNat_natCast]

/-- A refusal changes nothing, and on a mount with room it is the one of `ida_alloc_max`. -/
theorem takeMinor_refused {ida ret : Int} (taken : takeMinor fs sb ida = (ret, next))
    (negative : ret < 0) :
    next = fs ∧ ((fs.mounts sb).deviceCount + 1 ≤ (fs.mounts sb).max → ida = ret) ∧
      (¬ (fs.mounts sb).deviceCount + 1 ≤ (fs.mounts sb).max → ret = -ENOSPC) := by
  rcases takeMinor_cases taken with ⟨_, same⟩ | ⟨nonneg, _⟩
  · refine ⟨same, fun room => ?_, fun full => ?_⟩
    · simp only [takeMinor, updateMount_self, if_pos room] at taken
      split at taken
      next => exact congrArg Prod.fst taken
      next => exact congrArg Prod.fst taken
    · simp only [takeMinor, updateMount_self, if_neg full] at taken
      split at taken
      next => exact (congrArg Prod.fst taken).symm
      next => exact (congrArg Prod.fst taken).symm
  · exact absurd nonneg (Int.not_le.mpr negative)

/-- On a mount with room, an error of `ida_alloc_max` is returned. -/
theorem takeMinor_error {ret : Int} (negative : ret < 0)
    (room : (fs.mounts sb).deviceCount + 1 ≤ (fs.mounts sb).max) :
    takeMinor fs sb ret = (ret, fs) := by
  simp only [takeMinor, updateMount_self, updateMount_uncounted, if_pos room, if_pos negative]

/-- Where there is an id, `ida_alloc_max` fails for want of memory only. -/
theorem IdaAllocMax.noMemory_of {ret : Int} {max : Nat} {minors : Nat → Option Taker}
    (answer : IdaAllocMax minors max ret) (negative : ret < 0) (room : ret ≠ -ENOSPC) :
    ret = -ENOMEM := by
  cases answer with
  | id unused within => exact absurd negative (Int.not_lt.mpr (Int.natCast_nonneg _))
  | noMemory => rfl
  | noSpace _ => exact absurd rfl room

/-- Any other field of a mount. -/
theorem without_field {α : Type*} (field : Mount → α)
    (kept : ∀ mount count, field { mount with deviceCount := count } = field mount) (other : Nat) :
    field ((fs.without creation).mounts other) = field (fs.mounts other) := by
  obtain ⟨count, _, mount⟩ := without_mounts fs creation other
  rw [mount, kept]

/-- Without a device in creation, there is at least as much room. -/
theorem without_room (room : (fs.mounts sb).deviceCount + 1 ≤ (fs.mounts sb).max) :
    ((fs.without creation).mounts sb).deviceCount + 1 ≤ ((fs.without creation).mounts sb).max := by
  obtain ⟨count, less, mount⟩ := without_mounts fs creation sb
  rw [mount]
  exact Int.le_trans (Int.add_le_add_right less 1) room

/-- An id that was found is found without a device in creation, too. -/
theorem IdaAllocMax.without {id : Nat} (creates : fs.Creates creation)
    (answer : IdaAllocMax fs.minors (fs.mounts sb).maxMinor id) :
    IdaAllocMax (fs.without creation).minors ((fs.without creation).mounts sb).maxMinor id := by
  obtain ⟨unused, within⟩ := unused_of_idaAllocMax answer (Int.natCast_nonneg id)
  rw [without_field Mount.maxMinor fun _ _ => rfl]
  exact .id (unused_without creates unused).1 within

/-- A task takes an id without a device in creation, too, and an error for want of memory
can come again. -/
theorem Take.without {ida : Int} (creates : fs.Creates creation) (room : ida ≠ -ENOSPC)
    (taken : Take fs place ida next after) :
    Take (fs.without creation) place ida (next.without creation) after := by
  cases taken with
  | @numbered next sb name caller ida id answer taken =>
      rcases takeMinor_cases taken with ⟨negative, _⟩ | ⟨_, rfl, room, rfl⟩
      · exact absurd negative (Int.not_lt.mpr (Int.natCast_nonneg _))
      · have unused := (unused_of_idaAllocMax answer (Int.natCast_nonneg _)).1
        have counted : (fs.updateMount sb fun m =>
            { m with deviceCount := m.deviceCount + 1 }).Creates creation := creates
        have commutes : (Mount.uncount ∘ fun m => { m with deviceCount := m.deviceCount + 1 }) =
            (fun m => { m with deviceCount := m.deviceCount + 1 }) ∘ Mount.uncount := by
          funext m
          simp only [Mount.uncount, Function.comp_apply, add_sub_cancel_right, sub_add_cancel]
        rw [taken_without counted unused, without_updateMount fun _ _ _ _ => commutes]
        exact .numbered (answer.without creates) (takeMinor_room (without_room room) id)
  | @refused next sb name caller ida ret answer taken negative =>
      obtain ⟨rfl, isAnswer, isFull⟩ := takeMinor_refused taken negative
      have hasRoom := Decidable.of_not_not fun full => room (isFull full)
      obtain rfl := isAnswer hasRoom
      obtain rfl := answer.noMemory_of negative room
      exact .refused .noMemory (takeMinor_error negative (without_room hasRoom)) negative
  | @controlled next sb names ida id answer taken =>
      obtain ⟨rfl, ⟨negative, _⟩ | ⟨_, rfl⟩⟩ := takeControlMinor_cases taken
      · exact absurd negative (Int.not_lt.mpr (Int.natCast_nonneg _))
      · have unused := (unused_of_idaAllocMax answer (Int.natCast_nonneg _)).1
        have nonneg : ¬ (id : Int) < 0 := Int.not_lt.mpr (Int.natCast_nonneg id)
        rw [taken_without creates unused]
        apply Take.controlled (answer.without creates)
        rw [takeControlMinor, if_neg nonneg]
  | @uncontrolled next sb names ida ret answer taken negative =>
      obtain ⟨rfl, ⟨_, rfl⟩ | ⟨nonneg, _⟩⟩ := takeControlMinor_cases taken
      · obtain rfl := answer.noMemory_of negative room
        apply Take.uncontrolled .noMemory _ negative
        rw [takeControlMinor, if_pos negative]
      · exact absurd nonneg (Int.not_le.mpr negative)

/-- The directory is looked at and changed without a device in creation, too. -/
theorem instantiate_without {lookup : Option Int} {inode : Inode} {device : BinderDevice} :
    instantiate (fs.without creation) sb lookup inode device =
      (instantiate fs sb lookup inode device).map fun next => next.without creation := by
  have sameRoot : ((fs.without creation).mounts sb).root = (fs.mounts sb).root :=
    without_field Mount.root (fun _ _ => rfl) sb
  cases lookup with
  | some error => rfl
  | none =>
      simp only [instantiate, sameRoot]
      split
      next => rfl
      next =>
        rw [Except.map, without_updateMount]
        exact fun _ _ _ _ => rfl

theorem without_evictInode {inode : Inode} :
    (evictInode fs sb inode).without creation = evictInode (fs.without creation) sb inode := by
  rw [evictInode, evictInode]
  split
  next =>
    cases inode.iPrivate with
    | none => rfl
    | some device => exact without_giveBack
  next => rfl

/-- A task goes on without a device in creation, too. -/
theorem Advance.without (done : Advance binderfsDev fs place next after) :
    Advance binderfsDev (fs.without creation) place (next.without creation) after := by
  have sameRoot : ∀ sb, ((fs.without creation).mounts sb).root = (fs.mounts sb).root :=
    without_field Mount.root fun _ _ => rfl
  cases done with
  | prepared done => exact .prepared done
  | unprepared failed => exact .unprepared failed
  | instantiated done =>
      apply Advance.instantiated
      rw [instantiate_without, done]
      rfl
  | uninstantiated negative failed =>
      apply Advance.uninstantiated negative
      rw [instantiate_without, failed]
      rfl
  | givesBack =>
      rw [without_giveBack]
      exact .givesBack
  | @puts sb caller ret inode =>
      have same : (iput fs sb inode).without creation = iput (fs.without creation) sb inode := by
        cases inode with
        | none => rfl
        | some inode => exact without_evictInode
      rw [same]
      exact .puts
  | noControl => exact .noControl
  | noControlName => exact .noControlName
  | addsControl =>
      rw [addControl_eq, without_updateMount]
      · exact .addsControl
      · exact fun _ _ _ _ => rfl
  | fills => exact .fills
  | filled =>
      rw [without_updateMount]
      · exact .filled
      · exact fun _ _ _ _ => rfl
  | kills =>
      rw [without_updateMount]
      · exact .kills
      · exact fun _ _ _ _ => rfl
  | evicts first =>
      rw [without_evictInode, without_updateMount]
      · exact .evicts ((sameRoot _).trans first)
      · exact fun _ _ _ _ => rfl
  | killed empty => exact .killed ((sameRoot _).trans empty)

end Commuting

/-! ## A request without its task -/

/-- In `binder_ctl_ioctl`. -/
def Progress.InRequest : Progress → Prop
  | requesting _ _ caller | numbered _ _ caller _ | ready _ caller _ _ => caller = .ctlIoctl
  | failing _ caller _ _ _ | abandoning _ caller _ _ => caller = .ctlIoctl
  | returning _ => True
  | _ => False

/-- The task of an event. -/
def BinderfsEvent.task {ι : Type*} : BinderfsEvent ι → Option ι
  | mounts task | adds task _ _ | takes task _ | advances task => some task
  | returns task _ | unmounts task _ => some task
  | remounts _ _ => none

section Own

variable {binderfsDev : UInt32} {fs next : Filesystem} {place after : Progress} {sb minor : Nat}

/-- An id that was just taken is taken back. -/
theorem giveBack_taken (unused : fs.minors minor = none) :
    giveBack ((fs.updateMount sb fun m =>
      { m with deviceCount := m.deviceCount + 1 }).setMinor minor (some ⟨sb, .binderFops⟩))
        sb minor = fs := by
  have freed : (fs.setMinor minor (some ⟨sb, .binderFops⟩)).setMinor minor none = fs := by
    simp only [Filesystem.setMinor, Function.update_idem, ← unused, Function.update_eq_self]
  have uncounted : (fs.updateMount sb fun m =>
      { m with deviceCount := m.deviceCount + 1 }).updateMount sb Mount.uncount = fs :=
    updateMount_uncounted
  rw [giveBack_eq, setMinor_updateMount, uncounted, freed]

/-- A task in a request takes an id, or not, and stays in the request. -/
theorem Take.own {ida : Int} (taken : Take fs place ida next after) (inRequest : place.InRequest) :
    after.InRequest ∧ next.without after.creates = fs.without place.creates := by
  cases taken with
  | @numbered next sb name caller ida id answer taken =>
      rcases takeMinor_cases taken with ⟨negative, _⟩ | ⟨_, rfl, _, rfl⟩
      · exact absurd negative (Int.not_lt.mpr (Int.natCast_nonneg _))
      · have unused := (unused_of_idaAllocMax answer (Int.natCast_nonneg _)).1
        exact ⟨inRequest, giveBack_taken unused⟩
  | @refused next sb name caller ida ret answer taken negative =>
      cases inRequest
      obtain ⟨rfl, _⟩ := takeMinor_refused taken negative
      exact ⟨trivial, rfl⟩
  | controlled answer taken => exact inRequest.elim
  | uncontrolled answer taken negative => exact inRequest.elim

/-- A task in a request goes on, and leaves a device or no trace. -/
theorem Advance.own (done : Advance binderfsDev fs place next after)
    (sound : place.Sound binderfsDev) (inRequest : place.InRequest) :
    after.InRequest ∧
      (after ≠ .returning 0 → next.without after.creates = fs.without place.creates) := by
  cases done with
  | @prepared sb minor name caller failure inode device done =>
      obtain ⟨rfl, rfl⟩ := prepareDevice_ok done
      exact ⟨inRequest, fun _ => rfl⟩
  | unprepared failed => exact ⟨inRequest, fun _ => rfl⟩
  | instantiated done =>
      cases inRequest
      exact ⟨trivial, fun notDone => absurd rfl notDone⟩
  | uninstantiated negative failed => exact ⟨inRequest, fun _ => rfl⟩
  | givesBack => exact ⟨inRequest, fun _ => rfl⟩
  | @puts sb caller ret inode =>
      cases inRequest
      rw [iput_eq sound]
      exact ⟨trivial, fun _ => rfl⟩
  | _ => exact inRequest.elim

end Own

section Requests

variable {ι : Type*} [Fintype ι] [DecidableEq ι] {binderfsDev : UInt32}
  {names : List (List UInt8)} {system next : Tasks ι} {event : BinderfsEvent ι} {task : ι}
  {fs after : Filesystem} {place then' : Progress}

/-- The tasks and the file system without the request of a task. -/
def Tasks.without (system : Tasks ι) (task : ι) : Tasks ι where
  shared := system.shared.without (system.threads task).creates
  threads := Function.update system.threads task .idle

omit [Fintype ι] [DecidableEq ι] in
/-- A device in creation is on the mount that the task is at work on. -/
theorem Progress.creates_mount {sb minor : Nat} (isCreation : place.creates = some (sb, minor)) :
    place.mount = some sb := by
  cases place with
  | numbered _ _ _ _ => cases isCreation; rfl
  | ready _ _ _ _ => cases isCreation; rfl
  | failing _ _ _ _ _ => cases isCreation; rfl
  | _ => cases isCreation

omit [Fintype ι] [DecidableEq ι] in
/-- What a task holds for devices is the id of its device in creation. -/
theorem Progress.creates_iff {sb minor : Nat} :
    place.creates = some (sb, minor) ↔ minor ∈ place.holds ⟨sb, .binderFops⟩ := by
  have single (mount id : Nat) : some (mount, id) = some (sb, minor) ↔
      minor ∈ (Pi.single ⟨mount, .binderFops⟩ {id} : Taker → Multiset Nat) ⟨sb, .binderFops⟩ := by
    rw [Accounted.mem_single]
    constructor
    · rintro ⟨⟩
      exact ⟨rfl, rfl⟩
    · rintro ⟨⟨⟩, rfl⟩
      rfl
  cases place with
  | numbered mount _ _ id => exact single mount id
  | ready mount _ _ device => exact single mount device.minor
  | failing mount _ _ id _ => exact single mount id
  | controlled mount _ id =>
      constructor
      · nofun
      · intro member
        cases (Accounted.mem_single.mp member).1
  | _ => exact ⟨nofun, fun member => absurd member (Multiset.notMem_zero _)⟩

/-- The id of a device in creation is in use for it. -/
theorem Tasks.Lawful.creates (lawful : system.Lawful binderfsDev) (task : ι) :
    system.shared.Creates (system.threads task).creates := by
  intro sb minor isCreation
  rw [Tasks.Lawful, Threads.places_eq task] at lawful
  have isCreator := Progress.creates_iff.mp isCreation
  constructor
  · exact lawful.tasks.placed _ self_mem sb (Progress.creates_mount isCreation)
  · apply lawful.ids.accounted.inUse
    rw [heldIds_add]
    exact Multiset.mem_add.mpr (.inr isCreator)

omit [Fintype ι] in
theorem goto_without {other : ι} (differ : other ≠ task) :
    (system.goto other fs place).without task =
      (system.without task).goto other (fs.without (system.threads task).creates) place := by
  simp only [Tasks.without, Tasks.goto, Function.update_of_ne differ.symm,
    Function.update_comm differ]

omit [Fintype ι] in
theorem goto_threads : (system.goto task fs place).threads task = place :=
  Function.update_self ..

omit [Fintype ι] in
theorem goto_without_self
    (same : fs.without place.creates = system.shared.without (system.threads task).creates) :
    (system.goto task fs place).without task = system.without task := by
  simp only [Tasks.without, goto_threads, ← same]
  rw [Tasks.goto, Function.update_idem]

omit [Fintype ι] in
theorem without_threads {other : ι} (differ : other ≠ task) :
    (system.without task).threads other = system.threads other :=
  Function.update_of_ne differ ..

omit [Fintype ι] in
theorem without_self : (system.without task).threads task = .idle :=
  Function.update_self ..

omit [Fintype ι] [DecidableEq ι] in
theorem without_mountCount (creation : Option (Nat × Nat)) :
    (fs.without creation).mountCount = fs.mountCount := by
  cases creation with
  | none => rfl
  | some taken => rfl

omit [Fintype ι] [DecidableEq ι] in
theorem without_mount {creation : Option (Nat × Nat)} (creates : fs.Creates creation)
    (useReserve : Bool) (max : Int) :
    (fs.mount useReserve max).without creation = (fs.without creation).mount useReserve max := by
  cases creation with
  | none => rfl
  | some taken =>
      have differ := Nat.ne_of_gt (creates taken.1 taken.2 rfl).1
      exact giveBack_updateMount fun same => absurd same differ

/-- The other tasks go on as before. -/
theorem step_without_other (lawful : system.Lawful binderfsDev)
    (taken : BinderfsStep binderfsDev names system event next) (other : event.task ≠ some task)
    (room : ∀ actor, event ≠ .takes actor (-ENOSPC)) :
    BinderfsStep binderfsDev names (system.without task) event (next.without task) := by
  have creates := lawful.creates task
  have status : ∀ sb, ((system.without task).shared.mounts sb).status =
      (system.shared.mounts sb).status := without_field Mount.status fun _ _ => rfl
  have mountCount : (system.without task).shared.mountCount = system.shared.mountCount :=
    without_mountCount _
  cases taken with
  | @mounts actor isIdle useReserve max permitted =>
      have differ : actor ≠ task := fun same => other (congrArg some same)
      have moved : (system.goto actor (system.shared.mount useReserve max)
          (.controlling system.shared.mountCount names)).without task =
            (system.without task).goto actor ((system.without task).shared.mount useReserve max)
              (.controlling (system.without task).shared.mountCount names) := by
        rw [goto_without differ, without_mount creates, mountCount, Tasks.without]
      have mounted : BinderfsStep binderfsDev names (system.without task) (.mounts actor)
          ((system.without task).goto actor ((system.without task).shared.mount useReserve max)
            (.controlling (system.without task).shared.mountCount names)) :=
        .mounts ((without_threads differ).trans isIdle) useReserve permitted
      exact moved ▸ mounted
  | @adds actor sb isIdle isMounted name copied =>
      have differ : actor ≠ task := fun same => other (congrArg some same)
      rw [goto_without differ]
      rw [← mountCount, ← status] at isMounted
      exact .adds ((without_threads differ).trans isIdle) isMounted name copied
  | @takes actor minor fs place taken =>
      have differ : actor ≠ task := fun same => other (congrArg some same)
      rw [goto_without differ]
      apply BinderfsStep.takes
      rw [without_threads differ]
      apply taken.without creates
      rintro rfl
      exact room actor rfl
  | @advances actor fs place done =>
      have differ : actor ≠ task := fun same => other (congrArg some same)
      rw [goto_without differ]
      apply BinderfsStep.advances
      rw [without_threads differ]
      exact done.without
  | @returns actor ret atEnd =>
      have differ : actor ≠ task := fun same => other (congrArg some same)
      rw [goto_without differ]
      exact .returns ((without_threads differ).trans atEnd)
  | @unmounts actor sb isIdle isMounted unused =>
      have differ : actor ≠ task := fun same => other (congrArg some same)
      rw [goto_without differ, without_updateMount]
      · rw [← mountCount, ← status] at isMounted
        apply BinderfsStep.unmounts ((without_threads differ).trans isIdle) isMounted
        intro third
        by_cases same : third = task
        · cases same
          rw [without_self]
          nofun
        · rw [without_threads same]
          exact unused third
      · exact fun _ _ _ _ => rfl
  | @remounts sb isMounted max permitted =>
      rw [← mountCount, ← status] at isMounted
      have moved : Tasks.without
          { system with shared := system.shared.updateMount sb fun m => { m with max } } task =
            { system.without task with
              shared := (system.without task).shared.updateMount sb fun m => { m with max } } := by
        rw [Tasks.without, without_updateMount]
        · rfl
        · exact fun _ _ _ _ => rfl
      rw [moved]
      exact .remounts isMounted permitted

omit [Fintype ι] in
/-- A task that is busy takes an id or goes on, until it returns. -/
theorem BinderfsStep.own (taken : BinderfsStep binderfsDev names system event next)
    (mine : event.task = some task) (busy : system.threads task ≠ .idle)
    (stays : ∀ ret, event ≠ .returns task ret) :
    ∃ fs place, next = system.goto task fs place ∧
      ((∃ ida, event = .takes task ida ∧ Take system.shared (system.threads task) ida fs place) ∨
        event = .advances task ∧
          Advance binderfsDev system.shared (system.threads task) fs place) := by
  cases taken with
  | mounts isIdle useReserve permitted =>
      cases mine
      exact absurd isIdle busy
  | adds isIdle isMounted name copied =>
      cases mine
      exact absurd isIdle busy
  | unmounts isIdle isMounted unused =>
      cases mine
      exact absurd isIdle busy
  | @takes actor ida fs place taken =>
      cases mine
      exact ⟨fs, place, rfl, .inl ⟨ida, rfl, taken⟩⟩
  | @advances actor fs place done =>
      cases mine
      exact ⟨fs, place, rfl, .inr ⟨rfl, done⟩⟩
  | returns atEnd =>
      cases mine
      exact absurd rfl (stays _)
  | remounts isMounted permitted => cases mine

/-- What the task of a request does leaves no trace without the request. -/
theorem step_without_own (lawful : system.Lawful binderfsDev)
    (taken : BinderfsStep binderfsDev names system event next) (mine : event.task = some task)
    (inRequest : (system.threads task).InRequest) (stays : ∀ ret, event ≠ .returns task ret) :
    (next.threads task).InRequest ∧
      (next.threads task ≠ .returning 0 → next.without task = system.without task) := by
  have busy : system.threads task ≠ .idle := by
    intro isIdle
    rw [isIdle] at inRequest
    exact inRequest
  obtain ⟨fs, place, rfl, ⟨ida, _, taken⟩ | ⟨_, done⟩⟩ := taken.own mine busy stays
  · obtain ⟨still, same⟩ := taken.own inRequest
    rw [goto_threads]
    exact ⟨still, fun _ => goto_without_self same⟩
  · rw [Tasks.Lawful, Threads.places_eq task] at lawful
    obtain ⟨still, same⟩ := done.own (lawful.tasks.sound _ self_mem) inRequest
    rw [goto_threads]
    exact ⟨still, fun notDone => goto_without_self (same notDone)⟩

/-- The steps in the course of a request of a task, in which no other task is refused for
want of room. -/
def Within (binderfsDev : UInt32) (names : List (List UInt8)) (task : ι) (system : Tasks ι)
    (event : BinderfsEvent ι) (next : Tasks ι) : Prop :=
  BinderfsStep binderfsDev names system event next ∧ (∀ ret, event ≠ .returns task ret) ∧
    ∀ other, event = .takes other (-ENOSPC) → other = task

omit [Fintype ι] in
theorem Within.roomy (taken : Within binderfsDev names task system event next)
    (other : event.task ≠ some task) (actor : ι) : event ≠ .takes actor (-ENOSPC) := by
  rintro rfl
  exact other (congrArg some (taken.2.2 actor rfl))

omit [Fintype ι] in
/-- The others leave a task where it is. -/
theorem step_threads_other (taken : BinderfsStep binderfsDev names system event next)
    (other : event.task ≠ some task) : next.threads task = system.threads task := by
  cases taken with
  | remounts isMounted permitted => rfl
  | _ =>
      apply Function.update_of_ne
      rintro rfl
      exact other rfl

/-- A request of a task, from its call on. -/
theorem inRequest_step (lawful : system.Lawful binderfsDev)
    (inRequest : (system.threads task).InRequest)
    (taken : Within binderfsDev names task system event next) :
    (next.threads task).InRequest := by
  by_cases mine : event.task = some task
  · exact (step_without_own lawful taken.1 mine inRequest taken.2.1).1
  · rw [step_threads_other taken.1 mine]
    exact inRequest

omit [Fintype ι] in
/-- A task that is to return 0 stays so. -/
theorem notDone_step (taken : Within binderfsDev names task system event next)
    (notDone : next.threads task ≠ .returning 0) : system.threads task ≠ .returning 0 := by
  intro isDone
  obtain ⟨taken, stays, _⟩ := taken
  by_cases mine : event.task = some task
  · have busy : system.threads task ≠ .idle := by
      rw [isDone]
      nofun
    obtain ⟨_, _, rfl, ⟨_, _, taken⟩ | ⟨_, done⟩⟩ := taken.own mine busy stays
    · rw [isDone] at taken
      cases taken
    · rw [isDone] at done
      cases done
  · rw [step_threads_other taken mine] at notDone
    exact notDone isDone

/-- Without a request that fails, the others come to the same file system, unless one is
refused for want of room. -/
theorem run_without {events : List (BinderfsEvent ι)} {ret : Int}
    (lawful : system.Lawful binderfsDev) (inRequest : (system.threads task).InRequest)
    (run : Run (BinderfsStep binderfsDev names) system events next)
    (during : ∀ ret, .returns task ret ∉ events) (atEnd : next.threads task = .returning ret)
    (isError : ret ≠ 0) (room : ∀ other, .takes other (-ENOSPC) ∈ events → other = task) :
    Run (BinderfsStep binderfsDev names) (system.without task)
      (events.filter fun event => event.task ≠ some task) (next.without task) := by
  have within : Run (Within binderfsDev names task) system events next := by
    apply run.restrict
    intro event member
    constructor
    · rintro ret rfl
      exact during ret member
    · rintro other rfl
      exact room other member
  have notDone : next.threads task ≠ .returning 0 := by
    rw [atEnd]
    rintro ⟨⟩
    exact isError rfl
  have erased := Run.erase (fun event : BinderfsEvent ι => event.task = some task)
    (fun system : Tasks ι => system.without task)
    (fun system => system.Lawful binderfsDev ∧ (system.threads task).InRequest)
    (fun system => system.threads task ≠ .returning 0)
    (fun holds taken => ⟨holds.1.step taken.1, inRequest_step holds.1 holds.2 taken⟩)
    notDone_step
    (fun holds notDone taken mine =>
      (step_without_own holds.1 taken.1 mine holds.2 taken.2.1).2 notDone)
    (fun holds _ taken other =>
      ⟨step_without_other holds.1 taken.1 other (taken.roomy other), taken.2⟩)
    ⟨lawful, inRequest⟩ within notDone
  exact erased.mono And.left

end Requests

end DroidKernal.Binderfs
