import DroidKernal.Binderfs.Devices
import DroidKernal.Lib.Run
import DroidKernal.Lib.Threads

/-!
# Mounts and requests

Tasks mount the binder file system, add devices to a mount with `BINDER_CTL_ADD`, and
unmount it.  They interleave between the mutex sections: `binderfs_minors_mutex` and
the lock of the root inode are held for one step at a time.  An open `binder-control`
keeps its mount, so that no task is in a request when it is unmounted.
-/

namespace DroidKernal.Binderfs

open Lib

/-- Who calls `binderfs_binder_device_create`: `binder_ctl_ioctl`, or `binderfs_fill_super`
with the names that are still to come. -/
inductive Caller where
  | ctlIoctl
  | fillSuper (rest : List (List UInt8))

/-- `userp` is not null. -/
def Caller.userp : Caller → Bool
  | .ctlIoctl => true
  | .fillSuper _ => false

/-- Where a task is, and what it has in its local variables. -/
inductive Progress where
  | idle
  /-- in `binderfs_binder_device_create` -/
  | requesting (sb : Nat) (name : List UInt8) (caller : Caller)
  | numbered (sb : Nat) (name : List UInt8) (caller : Caller) (minor : Nat)
  | ready (sb : Nat) (caller : Caller) (inode : Inode) (device : BinderDevice)
  | failing (sb : Nat) (caller : Caller) (ret : Int) (minor : Nat) (inode : Option Inode)
  | abandoning (sb : Nat) (caller : Caller) (ret : Int) (inode : Option Inode)
  /-- in `binderfs_fill_super` -/
  | controlling (sb : Nat) (names : List (List UInt8))
  | controlled (sb : Nat) (names : List (List UInt8)) (minor : Nat)
  | filling (sb : Nat) (names : List (List UInt8))
  | unfilled (sb : Nat) (ret : Int)
  /-- in `binderfs_kill_super` -/
  | killing (sb : Nat) (ret : Int)
  | returning (ret : Int)

/-- After `binderfs_binder_device_create` has returned. -/
def Caller.resume (sb : Nat) (ret : Int) : Caller → Progress
  | .ctlIoctl => .returning ret
  | .fillSuper rest => if ret = 0 then .filling sb rest else .unfilled sb ret

/-- `binder_ctl_ioctl` with `BINDER_CTL_ADD`, up to the call of
`binderfs_binder_device_create`. -/
def binderCtlIoctl (sb : Nat) (name : List UInt8) (copied : Bool) : Progress :=
  if copied then .requesting sb name .ctlIoctl else .returning (-EFAULT)

/-- The mount that a task is at work on. -/
def Progress.mount : Progress → Option Nat
  | .requesting sb _ _ | .numbered sb _ _ _ | .ready sb _ _ _ | .failing sb _ _ _ _ => some sb
  | .abandoning sb _ _ _ | .controlling sb _ | .controlled sb _ _ | .filling sb _ => some sb
  | .unfilled sb _ | .killing sb _ => some sb
  | .idle | .returning _ => none

/-- A mutex section that asks for an id, which is found or not. -/
inductive Take : Filesystem → Progress → Int → Filesystem → Progress → Prop where
  | numbered {fs next : Filesystem} {sb : Nat} {name : List UInt8} {caller : Caller}
      {ida : Int} {minor : Nat}
      (answer : IdaAllocMax fs.minors (fs.mounts sb).maxMinor ida)
      (taken : takeMinor fs sb ida = ((minor : Int), next)) :
      Take fs (.requesting sb name caller) minor next (.numbered sb name caller minor)
  | refused {fs next : Filesystem} {sb : Nat} {name : List UInt8} {caller : Caller}
      {ida ret : Int}
      (answer : IdaAllocMax fs.minors (fs.mounts sb).maxMinor ida)
      (taken : takeMinor fs sb ida = (ret, next)) (negative : ret < 0) :
      Take fs (.requesting sb name caller) ret next (caller.resume sb ret)
  | controlled {fs next : Filesystem} {sb : Nat} {names : List (List UInt8)} {ida : Int}
      {minor : Nat} (answer : IdaAllocMax fs.minors (fs.mounts sb).maxMinor ida)
      (taken : takeControlMinor fs sb ida = ((minor : Int), next)) :
      Take fs (.controlling sb names) minor next (.controlled sb names minor)
  | uncontrolled {fs next : Filesystem} {sb : Nat} {names : List (List UInt8)} {ida ret : Int}
      (answer : IdaAllocMax fs.minors (fs.mounts sb).maxMinor ida)
      (taken : takeControlMinor fs sb ida = (ret, next)) (negative : ret < 0) :
      Take fs (.controlling sb names) ret next (.unfilled sb ret)

/-- Any other section of a task. -/
inductive Advance (binderfsDev : UInt32) :
    Filesystem → Progress → Filesystem → Progress → Prop where
  | prepared {fs : Filesystem} {sb minor : Nat} {name : List UInt8} {caller : Caller}
      {failure : Option Failure} {inode : Inode} {device : BinderDevice}
      (done : prepareDevice binderfsDev name caller.userp minor failure = .ok (inode, device)) :
      Advance binderfsDev fs (.numbered sb name caller minor) fs (.ready sb caller inode device)
  | unprepared {fs : Filesystem} {sb minor : Nat} {name : List UInt8} {caller : Caller}
      {failure : Option Failure} {ret : Int} {inode : Option Inode}
      (failed : prepareDevice binderfsDev name caller.userp minor failure = .error (ret, inode)) :
      Advance binderfsDev fs (.numbered sb name caller minor) fs
        (.failing sb caller ret minor inode)
  | instantiated {fs next : Filesystem} {sb : Nat} {caller : Caller} {inode : Inode}
      {device : BinderDevice} {lookup : Option Int}
      (done : instantiate fs sb lookup inode device = .ok next) :
      Advance binderfsDev fs (.ready sb caller inode device) next (caller.resume sb 0)
  | uninstantiated {fs : Filesystem} {sb : Nat} {caller : Caller} {inode : Inode}
      {device : BinderDevice} {lookup : Option Int} {ret : Int}
      (negative : ∀ error ∈ lookup, error < 0)
      (failed : instantiate fs sb lookup inode device = .error ret) :
      Advance binderfsDev fs (.ready sb caller inode device) fs
        (.failing sb caller ret device.minor (some inode))
  | givesBack {fs : Filesystem} {sb minor : Nat} {caller : Caller} {ret : Int}
      {inode : Option Inode} :
      Advance binderfsDev fs (.failing sb caller ret minor inode) (giveBack fs sb minor)
        (.abandoning sb caller ret inode)
  | puts {fs : Filesystem} {sb : Nat} {caller : Caller} {ret : Int} {inode : Option Inode} :
      Advance binderfsDev fs (.abandoning sb caller ret inode) (iput fs sb inode)
        (caller.resume sb ret)
  | noControl {fs : Filesystem} {sb : Nat} {names : List (List UInt8)} :
      -- `kzalloc` or `new_inode` fails
      Advance binderfsDev fs (.controlling sb names) fs (.unfilled sb (-ENOMEM))
  | noControlName {fs : Filesystem} {sb minor : Nat} {names : List (List UInt8)} :
      -- `d_alloc_name` fails, and the id stays in use
      Advance binderfsDev fs (.controlled sb names minor)
        (iput fs sb (some (controlInode binderfsDev minor))) (.unfilled sb (-ENOMEM))
  | addsControl {fs : Filesystem} {sb minor : Nat} {names : List (List UInt8)} :
      Advance binderfsDev fs (.controlled sb names minor) (addControl fs binderfsDev sb minor)
        (.filling sb names)
  | fills {fs : Filesystem} {sb : Nat} {name : List UInt8} {names : List (List UInt8)} :
      Advance binderfsDev fs (.filling sb (name :: names)) fs
        (.requesting sb name (.fillSuper names))
  | filled {fs : Filesystem} {sb : Nat} :
      Advance binderfsDev fs (.filling sb [])
        (fs.updateMount sb fun m => { m with status := .mounted }) (.returning 0)
  | kills {fs : Filesystem} {sb : Nat} {ret : Int} :
      -- the mount has failed
      Advance binderfsDev fs (.unfilled sb ret)
        (fs.updateMount sb fun m => { m with status := .killed }) (.killing sb ret)
  | evicts {fs : Filesystem} {sb : Nat} {ret : Int} {dentry : Dentry} {rest : List Dentry}
      (first : (fs.mounts sb).root = dentry :: rest) :
      Advance binderfsDev fs (.killing sb ret)
        (evictInode (fs.updateMount sb fun m => { m with root := rest }) sb dentry.inode)
        (.killing sb ret)
  | killed {fs : Filesystem} {sb : Nat} {ret : Int} (empty : (fs.mounts sb).root = []) :
      Advance binderfsDev fs (.killing sb ret) fs (.returning ret)

/-- What can be observed of an interleaving. -/
inductive BinderfsEvent (ι : Type*) where
  | mounts (task : ι)
  | adds (task : ι) (sb : Nat) (name : List UInt8)
  | takes (task : ι) (minor : Int)
  | advances (task : ι)
  | returns (task : ι) (ret : Int)
  | unmounts (task : ι) (sb : Nat)
  | remounts (sb : Nat) (max : Int)

/-- The tasks and the file system. -/
abbrev Tasks (ι : Type*) := Threads ι Filesystem Progress

section Steps

variable {ι : Type*} [DecidableEq ι]

/-- A task gets to another place, and leaves the file system so. -/
def Tasks.goto (system : Tasks ι) (task : ι) (fs : Filesystem) (next : Progress) :
    Tasks ι where
  shared := fs
  threads := Function.update system.threads task next

/-- The interleavings.  `max` is a mount option that `binderfs_parse_mount_opts` lets
pass, and `names` are the devices that the module is told to create in every mount. -/
inductive BinderfsStep (binderfsDev : UInt32) (names : List (List UInt8)) :
    Tasks ι → BinderfsEvent ι → Tasks ι → Prop where
  | mounts {system : Tasks ι} {task : ι} (isIdle : system.threads task = .idle)
      (useReserve : Bool) {max : Int} (permitted : 0 ≤ max ∧ max ≤ binderfsMaxMinor) :
      BinderfsStep binderfsDev names system (.mounts task)
        (system.goto task
          ({ system.shared with mountCount := system.shared.mountCount + 1 }.updateMount
            system.shared.mountCount fun _ =>
              { useReserve, max, deviceCount := 0, root := [], status := .filling })
          (.controlling system.shared.mountCount names))
  | adds {system : Tasks ι} {task : ι} {sb : Nat} (isIdle : system.threads task = .idle)
      (isMounted : sb < system.shared.mountCount ∧ (system.shared.mounts sb).status = .mounted)
      (name : List UInt8) (copied : Bool) :
      BinderfsStep binderfsDev names system (.adds task sb name)
        (system.goto task system.shared (binderCtlIoctl sb name copied))
  | takes {system : Tasks ι} {task : ι} {minor : Int} {fs : Filesystem} {next : Progress}
      (taken : Take system.shared (system.threads task) minor fs next) :
      BinderfsStep binderfsDev names system (.takes task minor) (system.goto task fs next)
  | advances {system : Tasks ι} {task : ι} {fs : Filesystem} {next : Progress}
      (done : Advance binderfsDev system.shared (system.threads task) fs next) :
      BinderfsStep binderfsDev names system (.advances task) (system.goto task fs next)
  | returns {system : Tasks ι} {task : ι} {ret : Int}
      (atEnd : system.threads task = .returning ret) :
      BinderfsStep binderfsDev names system (.returns task ret)
        (system.goto task system.shared .idle)
  | unmounts {system : Tasks ι} {task : ι} {sb : Nat} (isIdle : system.threads task = .idle)
      (isMounted : sb < system.shared.mountCount ∧ (system.shared.mounts sb).status = .mounted)
      (unused : ∀ other, (system.threads other).mount ≠ some sb) :
      BinderfsStep binderfsDev names system (.unmounts task sb)
        (system.goto task
          (system.shared.updateMount sb fun m => { m with status := .killed }) (.killing sb 0))
  | remounts {system : Tasks ι} {sb : Nat}
      (isMounted : sb < system.shared.mountCount ∧ (system.shared.mounts sb).status = .mounted)
      {max : Int} (permitted : 0 ≤ max ∧ max ≤ binderfsMaxMinor) :
      BinderfsStep binderfsDev names system (.remounts sb max)
        { system with shared := system.shared.updateMount sb fun m => { m with max := max } }

end Steps

/-- Before the first mount. -/
def Tasks.init (ι : Type*) : Tasks ι where
  shared := .init
  threads _ := .idle

end DroidKernal.Binderfs
