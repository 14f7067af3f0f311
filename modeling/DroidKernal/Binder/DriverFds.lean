import DroidKernal.Lib.Run
import DroidKernal.Lib.Threads

/-!
# The descriptors of ProcessState

`self`, `initWithDriver`, `open_driver`, the constructor and the destructor of
`ProcessState.cpp`, as far as they open, use and close descriptors of the driver.  Objects are
constructed one at a time under `gProcessMutex`; they are destroyed by whoever drops the last
reference, while the rest of the program opens and closes descriptors of its own.

A descriptor goes by its number, and is marked by who opened what it refers to.  The result of
a system call is a choice of the step.
-/

namespace DroidKernal.Binder

open Lib

/-- The descriptors of the process (opened by a `ProcessState`, or by other code), `gProcess`,
the object that is constructed under `gProcessMutex`, and whether some object used or closed a
descriptor that was not its own. -/
structure FdShared (ι : Type*) where
  fds : Nat → Option (Option ι)
  gProcess : Option ι
  gProcessMutex : Option ι
  stray : Bool

/-- Where an object is in its life, with its descriptor; `none` stands for -1. -/
inductive ProcessPc where
  | unborn
  | open
  /-- `ioctl` of `BINDER_VERSION` -/
  | version (fd : Nat)
  /-- the `close` after that has failed, and the one after a mismatch -/
  | closeFailed (fd : Nat)
  | closeMismatch (fd : Option Nat)
  /-- `ioctl` of `BINDER_SET_MAX_THREADS` -/
  | maxThreads (fd : Option Nat)
  | mmap (fd : Nat)
  | closeUnmapped (fd : Nat)
  /-- the assignment to `gProcess` -/
  | publish (mDriverFD : Option Nat)
  | alive (mDriverFD : Option Nat)
  | destructor (mDriverFD : Option Nat)
  | gone
  deriving DecidableEq, Repr

/-- A `ProcessState`, with the number of the `sp` that point to it beside `gProcess`. -/
structure ProcessObject (D : Type*) where
  pc : ProcessPc
  mDriverName : Option D
  holders : Nat

/-- The objects of a program. -/
abbrev FdSystem (ι D : Type*) := Threads ι (FdShared ι) (ProcessObject D)

/-- What happens. -/
inductive FdEvent (ι D : Type*) where
  | self (object : ι)
  | initWithDriver (object : ι) (driver : D)
  | advances (object : ι)
  | copies (object : ι)
  | drops (object : ι)
  | uses (object : ι)
  | others

section Definitions

variable {ι D : Type*} [DecidableEq ι]

namespace FdShared

/-- A system call on a descriptor of an object. -/
def use (shared : FdShared ι) (object : ι) (fd : Nat) : FdShared ι :=
  { shared with stray := shared.stray || shared.fds fd != some (some object) }

/-- `close`; that of -1 fails. -/
def close (shared : FdShared ι) (object : ι) : Option Nat → FdShared ι
  | none => shared
  | some fd =>
      let shared := shared.use object fd
      { shared with fds := Function.update shared.fds fd none }

/-- `open` of the driver returns a descriptor. -/
def opened (shared : FdShared ι) (owner : Option ι) (fd : Nat) : FdShared ι :=
  { shared with fds := Function.update shared.fds fd (some owner) }

end FdShared

namespace FdSystem

/-- Nothing was opened by an object. -/
def init (fds : Nat → Bool) : FdSystem ι D where
  shared :=
    { fds := fun fd => if fds fd then some none else none
      gProcess := none
      gProcessMutex := none
      stray := false }
  threads _ := { pc := .unborn, mDriverName := none, holders := 0 }

/-- One object changes. -/
def move (system : FdSystem ι D) (object : ι) (shared : FdShared ι) (state : ProcessObject D) :
    FdSystem ι D where
  shared
  threads := Function.update system.threads object state

/-- `decStrong` by somebody: the last reference destroys the object. -/
def release (system : FdSystem ι D) (object : ι) : FdSystem ι D :=
  match (system.threads object).pc with
  | .alive fd =>
      if (system.threads object).holders = 0 then
        system.move object system.shared
          { system.threads object with pc := .destructor fd }
      else system
  | _ => system

/-- `gProcess = new ProcessState(driver)`, which returns a copy, and the end of the lock.  The
destructor of the old one may still run on behind it. -/
def publish (system : FdSystem ι D) (object : ι) (fd : Option Nat) : FdSystem ι D :=
  let old := system.shared.gProcess
  let system := system.move object
    { system.shared with gProcess := some object, gProcessMutex := none }
    { system.threads object with pc := .alive fd, holders := 1 }
  match old with
  | none => system
  | some old => system.release old

end FdSystem

/-- The steps of `open_driver`, of the constructor and of the destructor. -/
inductive FdAdvance (object : ι) : FdShared ι → ProcessPc → FdShared ι → ProcessPc → Prop where
  | opens {shared : FdShared ι} {fd : Nat} (unused : shared.fds fd = none) :
      FdAdvance object shared .open (shared.opened (some object) fd) (.version fd)
  | openFails {shared : FdShared ι} : FdAdvance object shared .open shared (.publish none)
  | versionFails {shared : FdShared ι} {fd : Nat} :
      FdAdvance object shared (.version fd) (shared.use object fd) (.closeFailed fd)
  | versionMismatch {shared : FdShared ι} {fd : Nat} :
      FdAdvance object shared (.version fd) (shared.use object fd) (.closeMismatch (some fd))
  | version {shared : FdShared ι} {fd : Nat} :
      FdAdvance object shared (.version fd) (shared.use object fd) (.maxThreads (some fd))
  /-- `result != 0` holds as well, and closes once more -/
  | closeFailed {shared : FdShared ι} {fd : Nat} :
      FdAdvance object shared (.closeFailed fd) (shared.close object (some fd))
        (.closeMismatch none)
  | closeMismatch {shared : FdShared ι} {fd : Option Nat} :
      FdAdvance object shared (.closeMismatch fd) (shared.close object fd) (.maxThreads none)
  | maxThreads {shared : FdShared ι} {fd : Nat} :
      FdAdvance object shared (.maxThreads (some fd)) (shared.use object fd) (.mmap fd)
  | maxThreadsFails {shared : FdShared ι} :
      FdAdvance object shared (.maxThreads none) shared (.publish none)
  | mmap {shared : FdShared ι} {fd : Nat} :
      FdAdvance object shared (.mmap fd) (shared.use object fd) (.publish (some fd))
  | mmapFails {shared : FdShared ι} {fd : Nat} :
      FdAdvance object shared (.mmap fd) (shared.use object fd) (.closeUnmapped fd)
  | closeUnmapped {shared : FdShared ι} {fd : Nat} :
      FdAdvance object shared (.closeUnmapped fd) (shared.close object (some fd)) (.publish none)
  /-- `mDriverFD > 0` -/
  | destructor {shared : FdShared ι} {fd : Option Nat} :
      FdAdvance object shared (.destructor fd)
        (if fd = some 0 then shared else shared.close object fd) .gone

/-- A step of the program. -/
inductive FdStep (defaultDriver : D) : FdSystem ι D → FdEvent ι D → FdSystem ι D → Prop where
  /-- `self` finds `gProcess` -/
  | selfFound {system : FdSystem ι D} {object : ι} (unlocked : system.shared.gProcessMutex = none)
      (isFound : system.shared.gProcess = some object) :
      FdStep defaultDriver system (.self object)
        (system.move object system.shared
          { system.threads object with holders := (system.threads object).holders + 1 })
  | selfNew {system : FdSystem ι D} {object : ι} (unlocked : system.shared.gProcessMutex = none)
      (isNull : system.shared.gProcess = none) (isNew : (system.threads object).pc = .unborn) :
      FdStep defaultDriver system (.self object)
        (system.move object { system.shared with gProcessMutex := some object }
          { pc := .open, mDriverName := some defaultDriver, holders := 0 })
  | initFound {system : FdSystem ι D} {object : ι} {driver : D}
      (unlocked : system.shared.gProcessMutex = none)
      (isFound : system.shared.gProcess = some object)
      (isNamed : (system.threads object).mDriverName = some driver) :
      FdStep defaultDriver system (.initWithDriver object driver)
        (system.move object system.shared
          { system.threads object with holders := (system.threads object).holders + 1 })
  /-- also where `gProcess` uses another driver; `access` is asked about this one -/
  | initNew {system : FdSystem ι D} {object : ι} {driver : D}
      (unlocked : system.shared.gProcessMutex = none)
      (isOther : ∀ found, system.shared.gProcess = some found →
        (system.threads found).mDriverName ≠ some driver)
      (isNew : (system.threads object).pc = .unborn) (access : Bool) :
      FdStep defaultDriver system (.initWithDriver object driver)
        (system.move object { system.shared with gProcessMutex := some object }
          { pc := .open
            mDriverName := some (if access then driver else defaultDriver)
            holders := 0 })
  | advances {system : FdSystem ι D} {object : ι} {shared : FdShared ι} {pc : ProcessPc}
      (goes : FdAdvance object system.shared (system.threads object).pc shared pc) :
      FdStep defaultDriver system (.advances object)
        (system.move object shared { system.threads object with pc })
  | publishes {system : FdSystem ι D} {object : ι} {fd : Option Nat}
      (isBuilt : (system.threads object).pc = .publish fd) :
      FdStep defaultDriver system (.advances object) (system.publish object fd)
  /-- somebody who holds a reference copies it -/
  | copies {system : FdSystem ι D} {object : ι} (isHeld : 0 < (system.threads object).holders) :
      FdStep defaultDriver system (.copies object)
        (system.move object system.shared
          { system.threads object with holders := (system.threads object).holders + 1 })
  /-- or drops it -/
  | drops {system : FdSystem ι D} {object : ι} (isHeld : 0 < (system.threads object).holders) :
      FdStep defaultDriver system (.drops object)
        (let dropped := system.move object system.shared
            { system.threads object with holders := (system.threads object).holders - 1 }
          if system.shared.gProcess = some object then dropped else dropped.release object)
  /-- or makes an `ioctl` on `mDriverFD` -/
  | uses {system : FdSystem ι D} {object : ι} {fd : Nat}
      (isHeld : 0 < (system.threads object).holders)
      (isOpen : (system.threads object).pc = .alive (some fd)) :
      FdStep defaultDriver system (.uses object)
        { system with shared := system.shared.use object fd }
  | othersOpen {system : FdSystem ι D} {fd : Nat} (unused : system.shared.fds fd = none) :
      FdStep defaultDriver system .others { system with shared := system.shared.opened none fd }
  | othersClose {system : FdSystem ι D} {fd : Nat} (isTheirs : system.shared.fds fd = some none) :
      FdStep defaultDriver system .others
        { system with
          shared := { system.shared with fds := Function.update system.shared.fds fd none } }

end Definitions

end DroidKernal.Binder
