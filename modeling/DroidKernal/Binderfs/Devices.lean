import DroidKernal.Kernel
import Mathlib.Algebra.Order.Ring.Int
import Mathlib.Logic.Function.Basic

/-!
# Devices of a binder file system

A mount of the binder file system is a directory of device inodes.  Their minor numbers
come from an allocator of ids that all mounts share.  Below are the parts of
`binderfs_binder_device_create`, `binderfs_binder_ctl_create` and `binderfs_evict_inode`
that run under one mutex or lock, or under none.

An id that is in use is stored with the mount and the kind of inode that took it, which
the allocator does not know.  Left out are the reference count of a device and the
fields of an inode that are not read: its times, its owner and its permissions.
-/

namespace DroidKernal.Binderfs

/-! ## Device numbers -/

/-- `MINORBITS`. -/
def minorBits : Nat := 20

/-- `MKDEV`. -/
def mkdev (ma mi : UInt32) : UInt32 :=
  (ma <<< UInt32.ofNat minorBits) ||| mi

/-- `MAJOR`. -/
def major (dev : UInt32) : UInt32 :=
  dev >>> UInt32.ofNat minorBits

/-- `MINOR`. -/
def minor (dev : UInt32) : UInt32 :=
  dev &&& ((1 <<< UInt32.ofNat minorBits) - 1)

/-- `BINDERFS_MAX_MINOR`. -/
def binderfsMaxMinor : Nat := 2 ^ minorBits

/-- `BINDERFS_MAX_MINOR_CAPPED`. -/
def binderfsMaxMinorCapped : Nat := binderfsMaxMinor - 4

/-- `BINDERFS_MAX_NAME`. -/
def binderfsMaxName : Nat := 255

/-- `INODE_OFFSET`. -/
def inodeOffset : Nat := 3

/-! ## Inodes and mounts -/

/-- `struct binder_device`, with the name that it is created under. -/
structure BinderDevice where
  name : List UInt8
  minor : Nat
  deriving DecidableEq, Repr

/-- The file operations of an inode: `binder_fops` or `binder_ctl_fops`. -/
inductive FileOperations where
  | binderFops
  | binderCtlFops
  deriving DecidableEq, Repr

/-- `struct inode`.  `isChr` is `S_ISCHR` of its mode. -/
structure Inode where
  iIno : Nat
  isChr : Bool
  iRdev : UInt32
  iFop : FileOperations
  iPrivate : Option BinderDevice
  deriving DecidableEq, Repr

/-- An entry of the root directory. -/
structure Dentry where
  name : List UInt8
  inode : Inode
  deriving DecidableEq, Repr

/-- How far a mount is. -/
inductive MountStatus where
  | filling
  | mounted
  | killed
  deriving DecidableEq, Repr

/-- A super block with its `struct binderfs_info`.  `useReserve` says that its
`ipc_ns` is the initial one, `max` is the mount option. -/
structure Mount where
  useReserve : Bool
  max : Int
  deviceCount : Int
  root : List Dentry
  status : MountStatus
  deriving DecidableEq, Repr

/-- Who took an id. -/
structure Taker where
  mount : Nat
  iFop : FileOperations
  deriving DecidableEq, Repr

/-- All mounts, and the ids in use in `binderfs_minors`. -/
structure Filesystem where
  mounts : Nat → Mount
  mountCount : Nat
  minors : Nat → Option Taker

namespace Filesystem

/-- Before the first mount. -/
def init : Filesystem where
  mounts _ := { useReserve := false, max := 0, deviceCount := 0, root := [], status := .killed }
  mountCount := 0
  minors _ := none

/-- A store into a mount. -/
def updateMount (fs : Filesystem) (sb : Nat) (change : Mount → Mount) : Filesystem :=
  { fs with mounts := Function.update fs.mounts sb (change (fs.mounts sb)) }

/-- An id is taken or freed. -/
def setMinor (fs : Filesystem) (id : Nat) (taker : Option Taker) : Filesystem :=
  { fs with minors := Function.update fs.minors id taker }

end Filesystem

/-! ## Parts of the creation of a device -/

/-- What `ida_alloc_max(&binderfs_minors, max)` may return: an unused id up to `max`, or
one of its two errors.  `-ENOSPC` means that there is no such id. -/
inductive IdaAllocMax (minors : Nat → Option Taker) (max : Nat) : Int → Prop where
  | id {id : Nat} (unused : minors id = none) (within : id ≤ max) : IdaAllocMax minors max id
  | noMemory : IdaAllocMax minors max (-ENOMEM)
  | noSpace (exhausted : ∀ id ≤ max, minors id ≠ none) : IdaAllocMax minors max (-ENOSPC)

/-- The bound that a mount passes to `ida_alloc_max`. -/
def Mount.maxMinor (mount : Mount) : Nat :=
  if mount.useReserve then binderfsMaxMinor else binderfsMaxMinorCapped

/-- The first mutex section of `binderfs_binder_device_create`, given what
`ida_alloc_max` returns if it is called: the minor number or an error. -/
def takeMinor (fs : Filesystem) (sb : Nat) (ida : Int) : Int × Filesystem :=
  let fs := fs.updateMount sb fun m => { m with deviceCount := m.deviceCount + 1 }
  let minor := if (fs.mounts sb).deviceCount ≤ (fs.mounts sb).max then ida else -ENOSPC
  if minor < 0 then
    (minor, fs.updateMount sb fun m => { m with deviceCount := m.deviceCount - 1 })
  else (minor, fs.setMinor minor.toNat (some ⟨sb, .binderFops⟩))

/-- The mutex section of `binderfs_binder_ctl_create`. -/
def takeControlMinor (fs : Filesystem) (sb : Nat) (ida : Int) : Int × Filesystem :=
  if ida < 0 then (ida, fs) else (ida, fs.setMinor ida.toNat (some ⟨sb, .binderCtlFops⟩))

/-- The name in a request, after `req->name[BINDERFS_MAX_NAME] = '\0'`. -/
def requestName (name : List UInt8) : List UInt8 :=
  (name.take binderfsMaxName).takeWhile (· ≠ 0)

/-- The inode of a device, after `init_special_inode`. -/
def deviceInode (binderfsDev : UInt32) (minor : Nat) : Inode where
  iIno := minor + inodeOffset
  isChr := true
  iRdev := mkdev (major binderfsDev) (UInt32.ofNat minor)
  iFop := .binderFops
  iPrivate := none

/-- The inode of `binder-control`. -/
def controlInode (binderfsDev : UInt32) (minor : Nat) : Inode where
  iIno := 2
  isChr := true
  iRdev := mkdev (major binderfsDev) (UInt32.ofNat minor)
  iFop := .binderCtlFops
  iPrivate := none

/-- The calls between the mutex and the lock that can fail. -/
inductive Failure where
  | kzalloc
  | newInode
  | kmemdup
  | copyToUser
  deriving DecidableEq, Repr

/-- `binderfs_binder_device_create` between the mutex and the lock: the new inode and its
device, or the error with the inode that there is by then. -/
def prepareDevice (binderfsDev : UInt32) (name : List UInt8) (userp : Bool) (minor : Nat)
    (failure : Option Failure) : Except (Int × Option Inode) (Inode × BinderDevice) :=
  let inode := deviceInode binderfsDev minor
  match failure with
  | some .kzalloc | some .newInode => .error (-ENOMEM, none)
  | some .kmemdup => .error (-ENOMEM, some inode)
  | some .copyToUser =>
      if userp then .error (-EFAULT, some inode)
      else .ok (inode, { name := requestName name, minor })
  | none => .ok (inode, { name := requestName name, minor })

/-- The section under the lock of the root inode, given the error of `lookup_one_len` if
it fails. -/
def instantiate (fs : Filesystem) (sb : Nat) (lookup : Option Int) (inode : Inode)
    (device : BinderDevice) : Except Int Filesystem :=
  match lookup with
  | some error => .error error
  | none =>
      if (fs.mounts sb).root.any fun dentry => dentry.name = device.name then .error (-EEXIST)
      else .ok (fs.updateMount sb fun m =>
        { m with root := m.root ++
          [{ name := device.name, inode := { inode with iPrivate := some device } }] })

/-- The last mutex section of `binderfs_binder_device_create`, and the one of
`binderfs_evict_inode`. -/
def giveBack (fs : Filesystem) (sb minor : Nat) : Filesystem :=
  (fs.updateMount sb fun m => { m with deviceCount := m.deviceCount - 1 }).setMinor minor none

/-- `binderfs_evict_inode`. -/
def evictInode (fs : Filesystem) (sb : Nat) (inode : Inode) : Filesystem :=
  if inode.isChr then
    match inode.iPrivate with
    | none => fs
    | some device => giveBack fs sb device.minor
  else fs

/-- `iput` of an inode without other references. -/
def iput (fs : Filesystem) (sb : Nat) (inode : Option Inode) : Filesystem :=
  match inode with
  | none => fs
  | some inode => evictInode fs sb inode

/-- `binder-control`. -/
def controlName : List UInt8 :=
  [98, 105, 110, 100, 101, 114, 45, 99, 111, 110, 116, 114, 111, 108]

/-- The end of `binderfs_binder_ctl_create`. -/
def addControl (fs : Filesystem) (binderfsDev : UInt32) (sb minor : Nat) : Filesystem :=
  let device : BinderDevice := { name := [], minor }
  fs.updateMount sb fun m =>
    { m with root := m.root ++
      [{ name := controlName
         inode := { controlInode binderfsDev minor with iPrivate := some device } }] }

end DroidKernal.Binderfs
