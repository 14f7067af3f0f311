import DroidKernal.Binderfs.Devices
import DroidKernal.Lib.Blocks
import DroidKernal.Lib.Run
import DroidKernal.Lib.Threads
import Mathlib.Logic.Function.Iterate

/-!
# The memory of a device

A `struct binder_device` belongs to its inode from `d_instantiate` to `binderfs_evict_inode`.
`binder_open` counts a reference to it and stores the address of its context in the new
`struct binder_proc`, which nothing ever drops.  Below is what
`binderfs_binder_device_create`, `binderfs_binder_ctl_create`, `binderfs_evict_inode` and
`binder_open` do to the devices, their names and their inodes, with a step for each access to
what tasks share.

An inode lives as long as it has a reference: of the task that has made it or taken it out of
the directory, or of its entry.  An entry is taken out while no file is open.
-/

namespace DroidKernal.Binderfs

open Lib

/-- `refcount_t`.  Whatever it does when it overflows, it only falls to zero when there are no
more references. -/
structure Refcount (R : Type*) where
  zero : R
  one : R
  inc : R → R
  decAndTest : R → Bool × R
  last_iff : ∀ k, (decAndTest (inc^[k] one)).1 = true ↔ k = 0

/-- `REFCOUNT_SATURATED`. -/
def refcountSaturated : Int := -2 ^ 30

/-- `refcount_inc` of the kernel. -/
def refcountInc (old : Int) : Int :=
  if old ≤ 0 ∨ 2 ^ 31 - 1 < old + 1 then refcountSaturated else old + 1

/-- `refcount_dec_and_test` of the kernel. -/
def refcountDecAndTest (old : Int) : Bool × Int :=
  (old = 1, if old < 1 then refcountSaturated else old - 1)

/-- A counter that overflows stays where it is. -/
theorem refcountInc_iterate (k : Nat) :
    refcountInc^[k] 1 = k + 1 ∨ 0 < k ∧ refcountInc^[k] 1 = refcountSaturated := by
  induction k with
  | zero => exact .inl rfl
  | succ k ih =>
      rw [Function.iterate_succ_apply', refcountInc]
      split
      next => exact .inr ⟨Nat.succ_pos k, rfl⟩
      next inRange =>
        rcases ih with isCount | ⟨_, isSaturated⟩
        · rw [isCount]
          exact .inl rfl
        · rw [isSaturated] at inRange
          exact absurd (.inl (by decide)) inRange

/-- The counter of the kernel. -/
def linuxRefcount : Refcount Int where
  zero := 0
  one := 1
  inc := refcountInc
  decAndTest := refcountDecAndTest
  last_iff k := by
    rw [refcountDecAndTest, decide_eq_true_iff]
    rcases refcountInc_iterate k with isCount | ⟨some, isSaturated⟩
    · omega
    · rw [isSaturated, refcountSaturated]
      omega

/-- `struct binder_device`. -/
structure DeviceBlock (R : Type*) where
  ref : R
  contextName : Option Nat

/-- `struct inode`, with the task that has its reference, or none if that is its entry, with
the tasks that are in `binder_open` and the number of files that were opened. -/
structure InodeBlock (ι : Type*) where
  iFop : FileOperations
  iPrivate : Option Nat
  task : Option ι
  opening : List ι
  files : Nat

/-- What the tasks share: the devices, the names by the device that they were copied for, the
inodes, and the devices of the contexts in the `struct binder_proc`s. -/
structure DeviceHeap (ι R : Type*) where
  devices : Blocks (DeviceBlock R)
  names : Blocks Nat
  inodes : Blocks (InodeBlock ι)
  contexts : List Nat

/-- Where a task is. -/
inductive DevicePc where
  | idle
  /-- `new_inode` -/
  | newInode (iFop : FileOperations) (device : Nat)
  /-- `kmemdup`, or `ida_alloc_max` for `binder-control` -/
  | kmemdup (iFop : FileOperations) (device inode : Nat)
  /-- the stores into the device -/
  | store (device inode name : Nat)
  /-- `copy_to_user`, `lookup_one_len` and `d_instantiate`, or `d_alloc_name` and `d_add` -/
  | instantiate (iFop : FileOperations) (device inode : Nat) (name : Option Nat)
  /-- `kfree(name)` of a failure -/
  | kfreeName (device : Nat) (inode name : Option Nat)
  /-- `kfree(device)` of a failure -/
  | kfreeDevice (device : Nat) (inode : Option Nat)
  /-- `binder_open`: the load of `i_private` -/
  | load (inode : Nat)
  /-- `refcount_inc` -/
  | count (inode device : Nat)
  /-- `binderfs_evict_inode` -/
  | evict (inode : Nat)
  /-- `refcount_dec_and_test` -/
  | drop (device : Nat)
  /-- `kfree(device->context.name)` -/
  | evictName (device : Nat)
  /-- `kfree(device)` -/
  | evictDevice (device : Nat)
  deriving DecidableEq, Repr

/-- The tasks of the system. -/
abbrev DeviceSystem (ι R : Type*) := Threads ι (DeviceHeap ι R) DevicePc

section Steps

variable {ι R : Type*} [DecidableEq ι]

/-- Before the first mount. -/
def DeviceSystem.init (refcount : Refcount R) (ι : Type*) : DeviceSystem ι R where
  shared :=
    { devices := { block := fun _ => ⟨refcount.zero, none⟩, allocated := 0, freed := [] }
      names := { block := fun _ => 0, allocated := 0, freed := [] }
      inodes :=
        { block := fun _ => ⟨.binderFops, none, none, [], 0⟩, allocated := 0, freed := [] }
      contexts := [] }
  threads _ := .idle

/-- `kzalloc` of a device. -/
def DeviceHeap.kzalloc (refcount : Refcount R) (heap : DeviceHeap ι R) : DeviceHeap ι R :=
  { heap with devices := heap.devices.add ⟨refcount.zero, none⟩ }

/-- A store into a device. -/
def DeviceHeap.setDevice (heap : DeviceHeap ι R) (device : Nat) (content : DeviceBlock R) :
    DeviceHeap ι R :=
  { heap with devices := heap.devices.set device content }

/-- A store into an inode. -/
def DeviceHeap.setInode (heap : DeviceHeap ι R) (inode : Nat) (content : InodeBlock ι) :
    DeviceHeap ι R :=
  { heap with inodes := heap.inodes.set inode content }

/-- `kfree` of a name, which may be null. -/
def DeviceHeap.kfreeName (heap : DeviceHeap ι R) (name : Option Nat) : DeviceHeap ι R :=
  match name with
  | none => heap
  | some name => { heap with names := heap.names.free name }

/-- Where a failed creation goes: only that of a device frees a name. -/
def DevicePc.err (iFop : FileOperations) (device : Nat) (inode name : Option Nat) : DevicePc :=
  match iFop with
  | .binderFops => .kfreeName device inode name
  | .binderCtlFops => .kfreeDevice device inode

/-- What a task does next.  `succeeds` is the outcome of a call that may fail. -/
def DevicePc.advance (refcount : Refcount R) (i : ι) (heap : DeviceHeap ι R) (succeeds : Bool) :
    DevicePc → Option (DeviceHeap ι R × DevicePc)
  | .idle => none
  | .newInode iFop device =>
      if succeeds then
        some ({ heap with inodes := heap.inodes.add ⟨iFop, none, some i, [], 0⟩ },
          .kmemdup iFop device heap.inodes.allocated)
      else some (heap, .err iFop device none none)
  | .kmemdup .binderFops device inode =>
      if succeeds then
        some ({ heap with names := heap.names.add device },
          .store device inode heap.names.allocated)
      else some (heap, .kfreeName device (some inode) none)
  | .kmemdup .binderCtlFops device inode =>
      if succeeds then
        some (heap.setDevice device { heap.devices.block device with ref := refcount.one },
          .instantiate .binderCtlFops device inode none)
      else some (heap, .kfreeDevice device (some inode))
  | .store device inode name =>
      some (heap.setDevice device { ref := refcount.one, contextName := some name },
        .instantiate .binderFops device inode (some name))
  | .instantiate iFop device inode name =>
      if succeeds then
        -- the reference of the task becomes that of the entry
        some (heap.setInode inode
          { heap.inodes.block inode with iPrivate := some device, task := none }, .idle)
      else some (heap, .err iFop device (some inode) name)
  | .kfreeName device inode name => some (heap.kfreeName name, .kfreeDevice device inode)
  | .kfreeDevice device inode =>
      some ({ heap with devices := heap.devices.free device },
        match inode with
        | none => .idle
        | some inode => .evict inode)
  | .load inode =>
      if succeeds then
        (heap.inodes.block inode).iPrivate.map fun device => (heap, .count inode device)
      else
        -- `kzalloc` of the `struct binder_proc`
        let content := heap.inodes.block inode
        some (heap.setInode inode { content with opening := content.opening.erase i }, .idle)
  | .count inode device =>
      let content := heap.inodes.block inode
      let memory := heap.devices.block device
      let heap := heap.setDevice device { memory with ref := refcount.inc memory.ref }
      some ({ heap.setInode inode { content with
                opening := content.opening.erase i
                files := content.files + 1 } with
              contexts := heap.contexts ++ [device] }, .idle)
  | .evict inode =>
      some ({ heap with inodes := heap.inodes.free inode },
        match (heap.inodes.block inode).iPrivate with
        | none => .idle
        | some device => .drop device)
  | .drop device =>
      let memory := heap.devices.block device
      let (last, ref) := refcount.decAndTest memory.ref
      some (heap.setDevice device { memory with ref }, if last then .evictName device else .idle)
  | .evictName device =>
      some (heap.kfreeName (heap.devices.block device).contextName, .evictDevice device)
  | .evictDevice device => some ({ heap with devices := heap.devices.free device }, .idle)

/-- The devices, names and inodes that a task accesses next. -/
def DevicePc.accesses (heap : DeviceHeap ι R) : DevicePc → List Nat × List Nat × List Nat
  -- the stores into the new inode
  | .kmemdup .binderFops _ inode => ([], [], [inode])
  | .kmemdup .binderCtlFops device inode => ([device], [], [inode])
  | .store device _ _ => ([device], [], [])
  | .instantiate _ _ inode name => ([], name.toList, [inode])
  | .load inode => ([], [], [inode])
  | .kfreeName _ _ name => ([], name.toList, [])
  | .kfreeDevice device _ | .drop device | .evictDevice device => ([device], [], [])
  | .count inode device => ([device], [], [inode])
  | .evict inode => ([], [], [inode])
  | .evictName device => ([device], (heap.devices.block device).contextName.toList, [])
  | .idle | .newInode _ _ => ([], [], [])

/-- A task moves on. -/
def DeviceSystem.move (system : DeviceSystem ι R) (i : ι) (heap : DeviceHeap ι R)
    (pc : DevicePc) : DeviceSystem ι R where
  shared := heap
  threads := Function.update system.threads i pc

/-- A step of one task. -/
inductive DeviceStep (refcount : Refcount R) :
    DeviceSystem ι R → ι → DeviceSystem ι R → Prop where
  /-- `binderfs_binder_device_create` or `binderfs_binder_ctl_create`, as far as `kzalloc` -/
  | create {system : DeviceSystem ι R} {i : ι} (iFop : FileOperations)
      (isIdle : system.threads i = .idle) :
      DeviceStep refcount system i
        (system.move i (system.shared.kzalloc refcount)
          (.newInode iFop system.shared.devices.allocated))
  /-- `open` finds the entry of a device -/
  | opens {system : DeviceSystem ι R} {i : ι} {inode : Nat} (isIdle : system.threads i = .idle)
      (live : system.shared.inodes.Live inode)
      (isEntry : (system.shared.inodes.block inode).task = none)
      (isDevice : (system.shared.inodes.block inode).iFop = .binderFops) :
      DeviceStep refcount system i
        (system.move i (system.shared.setInode inode
          { system.shared.inodes.block inode with
            opening := i :: (system.shared.inodes.block inode).opening }) (.load inode))
  /-- the last descriptor of a file is closed -/
  | closes {system : DeviceSystem ι R} {i : ι} {inode : Nat} (isIdle : system.threads i = .idle)
      (live : system.shared.inodes.Live inode)
      (isOpen : 0 < (system.shared.inodes.block inode).files) :
      DeviceStep refcount system i
        (system.move i (system.shared.setInode inode
          { system.shared.inodes.block inode with
            files := (system.shared.inodes.block inode).files - 1 }) .idle)
  /-- `kill_litter_super` takes out an entry -/
  | unmounts {system : DeviceSystem ι R} {i : ι} {inode : Nat} (isIdle : system.threads i = .idle)
      (live : system.shared.inodes.Live inode)
      (isEntry : (system.shared.inodes.block inode).task = none)
      (noTask : (system.shared.inodes.block inode).opening = [])
      (noFile : (system.shared.inodes.block inode).files = 0) :
      DeviceStep refcount system i
        (system.move i (system.shared.setInode inode
          { system.shared.inodes.block inode with task := some i }) (.evict inode))
  | advances {system : DeviceSystem ι R} {i : ι} {succeeds : Bool} {heap : DeviceHeap ι R}
      {pc : DevicePc}
      (goes : (system.threads i).advance refcount i system.shared succeeds = some (heap, pc)) :
      DeviceStep refcount system i (system.move i heap pc)

end Steps

end DroidKernal.Binderfs
