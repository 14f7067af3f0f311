import DroidKernal.Lib.Blocks
import DroidKernal.Lib.Run
import DroidKernal.Lib.Threads

/-!
# The IPCThreadState of a thread

`self` and `selfOrNull` of `IPCThreadState.cpp`, and the destructor of the key.  Any number of
threads look at `gHaveTLS` without the lock, and the first of them that gets it creates the
key.  What a thread stores under the key is its own; at the end of the thread it is passed to
`threadDestructor`.

A step is one access to what threads share.  `pthread_key_create`, and `pthread_setspecific`
whose result the constructor ignores, may fail.
-/

namespace DroidKernal.Binder

open Lib

/-- The variables of the file, the mutex by who has locked it, how many keys were created, and
the objects by the threads that constructed them. -/
structure TlsShared (ι : Type*) where
  gTLSMutex : Option ι
  gHaveTLS : Bool
  gShutdown : Bool
  keys : Nat
  states : Blocks (Option ι)

/-- Where a thread is: at the load, store or call that comes next. -/
inductive TlsPc where
  | outside
  /-- `self`: the load of `gHaveTLS` in front of the lock -/
  | loadHave
  | loadShutdown
  | lock
  /-- the load behind the lock -/
  | check
  | create
  | store
  /-- `pthread_mutex_unlock`, before `restart` or before the null pointer is returned -/
  | unlock (created : Bool)
  /-- `restart` -/
  | getspecific
  | construct
  | setspecific (state : Nat)
  /-- `selfOrNull` -/
  | loadOrNull
  | getOrNull
  /-- `threadDestructor` -/
  | destructor (state : Nat)
  | exited
  deriving DecidableEq, Repr

/-- A thread: what it stored under the key, and what `self` returned to it last, other than
null. -/
structure TlsThread where
  pc : TlsPc
  specific : Option Nat
  result : Option Nat
  deriving DecidableEq, Repr

/-- The threads of a process. -/
abbrev TlsSystem (ι : Type*) := Threads ι (TlsShared ι) TlsThread

/-- What a step does, as far as it matters later. -/
inductive TlsEvent (ι : Type*) where
  | accesses (thread : ι)
  /-- `pthread_setspecific` fails -/
  | forgets (thread : ι) (state : Nat)

namespace TlsSystem

variable {ι : Type*}

/-- The start of the process. -/
def init (ι : Type*) : TlsSystem ι where
  shared :=
    { gTLSMutex := none
      gHaveTLS := false
      gShutdown := false
      keys := 0
      states := { block := fun _ => none, allocated := 0, freed := [] } }
  threads _ := { pc := .outside, specific := none, result := none }

variable [DecidableEq ι]

/-- A thread moves on. -/
def move (system : TlsSystem ι) (i : ι) (shared : TlsShared ι) (thread : TlsThread) :
    TlsSystem ι where
  shared
  threads := Function.update system.threads i thread

end TlsSystem

/-- Where a thread goes, and what that does to the variables; there is none where it waits.
`succeeds` is the outcome of the call that may fail. -/
def TlsThread.advance {ι : Type*} [DecidableEq ι] (i : ι) (shared : TlsShared ι)
    (thread : TlsThread) (succeeds : Bool) : Option (TlsShared ι × TlsThread) :=
  match thread.pc with
  | .outside => none
  | .loadHave =>
      some (shared, { thread with pc := if shared.gHaveTLS then .getspecific else .loadShutdown })
  | .loadShutdown =>
      some (shared, { thread with pc := if shared.gShutdown then .outside else .lock })
  | .lock =>
      match shared.gTLSMutex with
      | some _ => none
      | none => some ({ shared with gTLSMutex := some i }, { thread with pc := .check })
  | .check =>
      some (shared, { thread with pc := if shared.gHaveTLS then .unlock true else .create })
  | .create =>
      if succeeds then
        some ({ shared with keys := shared.keys + 1 }, { thread with pc := .store })
      else some (shared, { thread with pc := .unlock false })
  | .store => some ({ shared with gHaveTLS := true }, { thread with pc := .unlock true })
  | .unlock created =>
      some ({ shared with gTLSMutex := none },
        { thread with pc := if created then .getspecific else .outside })
  | .getspecific =>
      match thread.specific with
      | some state => some (shared, { thread with pc := .outside, result := some state })
      | none => some (shared, { thread with pc := .construct })
  | .construct =>
      some ({ shared with states := shared.states.add (some i) },
        { thread with pc := .setspecific shared.states.allocated })
  | .setspecific state =>
      some (shared,
        { pc := .outside
          specific := if succeeds then some state else thread.specific
          result := some state })
  | .loadOrNull =>
      some (shared, { thread with pc := if shared.gHaveTLS then .getOrNull else .outside })
  | .getOrNull =>
      some (shared,
        { thread with pc := .outside, result := thread.specific.or thread.result })
  | .destructor state =>
      some ({ shared with states := shared.states.free state }, { thread with pc := .exited })
  | .exited => none

/-- The end of a thread: a value under the key is passed to the destructor. -/
def TlsThread.exit (thread : TlsThread) : TlsThread :=
  match thread.specific with
  | some state => { thread with pc := .destructor state, specific := none }
  | none => { thread with pc := .exited }

/-- What a thread forgets. -/
def TlsThread.event {ι : Type*} (i : ι) (thread : TlsThread) (succeeds : Bool) : TlsEvent ι :=
  match thread.pc, succeeds with
  | .setspecific state, false => .forgets i state
  | _, _ => .accesses i

/-- A step of one thread. -/
inductive TlsStep {ι : Type*} [DecidableEq ι] : TlsSystem ι → TlsEvent ι → TlsSystem ι → Prop where
  /-- a call of `self` or of `selfOrNull` -/
  | calls {system : TlsSystem ι} {i : ι} {pc : TlsPc}
      (isOutside : (system.threads i).pc = .outside) (entry : pc = .loadHave ∨ pc = .loadOrNull) :
      TlsStep system (.accesses i)
        (system.move i system.shared { system.threads i with pc })
  | advances {system : TlsSystem ι} {i : ι} {succeeds : Bool} {shared : TlsShared ι}
      {thread : TlsThread}
      (goes : (system.threads i).advance i system.shared succeeds = some (shared, thread)) :
      TlsStep system ((system.threads i).event i succeeds) (system.move i shared thread)
  | exits {system : TlsSystem ι} {i : ι} (isOutside : (system.threads i).pc = .outside) :
      TlsStep system (.accesses i) (system.move i system.shared (system.threads i).exit)

end DroidKernal.Binder
