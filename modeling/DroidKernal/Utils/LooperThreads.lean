import DroidKernal.Lib.Run
import DroidKernal.Utils.Handles

/-!
# The Loopers of threads

`prepare`, `setForThread`, `getForThread` and `threadDestructor` of `Looper.cpp`, and the `sp`
variables of a program around them.  The value of a thread under `gTLSKey` is a strong reference
as well, which the functions count themselves, so that it is one more `sp` here.

A Looper is constructed where its first reference is taken.  Two threads may be anywhere in the
functions, and take turns at their accesses to counters and variables.
-/

namespace DroidKernal.Utils

open Lib

/-- The places of strong pointers: the values under `gTLSKey`, the variable `old` of
`setForThread` in each thread, and the variables of the program.  The variable `looper` of
`prepare` is the one that the result is assigned to. -/
abbrev LooperVar (κ ν : Type*) := κ ⊕ κ ⊕ ν

namespace LooperVar

variable {κ ν : Type*}

/-- The value under `gTLSKey`. -/
abbrev slot (k : κ) : LooperVar κ ν := .inl k

abbrev old (k : κ) : LooperVar κ ν := .inr (.inl k)

abbrev var (v : ν) : LooperVar κ ν := .inr (.inr v)

end LooperVar

/-- Where a thread is.  The argument of `setForThread` is a variable. -/
inductive LooperPc (ν : Type*) where
  | outside
  /-- `looper == nullptr` in `prepare` -/
  | prepareNew (looper : ν)
  | setOld (looper : ν)
  /-- `incStrong`, `pthread_setspecific` and `decStrong` -/
  | setSlot (looper : ν)
  /-- the end of `old` -/
  | setReturn
  | exited
  deriving DecidableEq, Repr

namespace LooperPc

variable {ν : Type*}

/-- The variable that a function refers to. -/
def refersTo : LooperPc ν → Option ν
  | .prepareNew looper | .setOld looper | .setSlot looper => some looper
  | .outside | .setReturn | .exited => none

end LooperPc

/-- The variables with the objects, and the threads. -/
structure LooperThreads (κ ν ω : Type*) where
  handles : HandleState (LooperVar κ ν) ω
  pcs : κ → LooperPc ν

/-- What the program does to its own variables. -/
inductive LooperOp (ν ω : Type*) where
  /-- `sp<Looper> v = new Looper(…)` -/
  | create (v : ν) (object : ω)
  | copy (v other : ν)
  | assign (v other : ν)
  | clear (v : ν)
  | destroy (v : ν)
  deriving DecidableEq, Repr

/-- What happens. -/
inductive LooperThreadEvent (κ ν ω : Type*) where
  | prepare (k : κ) (looper : ν)
  | setForThread (k : κ) (looper : ν)
  | getForThread (k : κ) (looper : ν)
  | advances (k : κ)
  | exits (k : κ)
  | program (op : LooperOp ν ω)
  deriving DecidableEq, Repr

namespace LooperOp

variable {κ ν ω : Type*}

/-- The member functions that are called. -/
def handleOp : LooperOp ν ω → HandleOp (LooperVar κ ν) ω
  | .create v object => .spNew (.var v) (some object)
  | .copy v other => .spCopy (.var v) (.var other)
  | .assign v other => .spAssign (.var v) (.var other)
  | .clear v => .spClear (.var v)
  | .destroy v => .destroy (.var v)

/-- The variable that changes. -/
def target : LooperOp ν ω → ν
  | .create v _ | .copy v _ | .assign v _ | .clear v | .destroy v => v

/-- What is constructed. -/
def creates : LooperOp ν ω → Option ω
  | .create _ object => some object
  | .copy _ _ | .assign _ _ | .clear _ | .destroy _ => none

end LooperOp

namespace LooperThreads

variable {κ ν ω : Type*} [DecidableEq κ] [DecidableEq ν] [DecidableEq ω]

/-- A Looper does not extend its lifetime. -/
def lifetime : ω → Lifetime := fun _ => .strong

/-- No value under `gTLSKey`, and no variable. -/
def init : LooperThreads κ ν ω where
  handles :=
    { shared := fun _ => .init
      threads := fun place => match place with
        | .inl _ => .sp none
        | .inr _ => .dead }
  pcs _ := .outside

/-- There is no such object yet. -/
def Unmade (system : LooperThreads κ ν ω) (object : ω) : Prop :=
  (system.handles.shared object).strongTaken = false

/-- No function that is going on refers to the variable. -/
def Unused (system : LooperThreads κ ν ω) (v : ν) : Prop :=
  ∀ k, (system.pcs k).refersTo ≠ some v

/-- A member function of a pointer. -/
def Performs (system : LooperThreads κ ν ω) (op : HandleOp (LooperVar κ ν) ω)
    (handles : HandleState (LooperVar κ ν) ω) : Prop :=
  system.handles.step lifetime op = some handles

/-- A thread goes on. -/
def goto (system : LooperThreads κ ν ω) (k : κ) (handles : HandleState (LooperVar κ ν) ω)
    (pc : LooperPc ν) : LooperThreads κ ν ω where
  handles
  pcs := Function.update system.pcs k pc

/-- The steps of a thread that is in a function. -/
inductive Advance (k : κ) (system : LooperThreads κ ν ω) :
    LooperPc ν → HandleOp (LooperVar κ ν) ω → LooperPc ν → Prop where
  /-- `looper = new Looper(…)`, and the call of `setForThread` -/
  | prepareNew {looper : ν} {object : ω} (isNew : system.Unmade object) :
      Advance k system (.prepareNew looper) (.spAssignPtr (.var looper) (some object))
        (.setOld looper)
  /-- `old = getForThread()` -/
  | setOld {looper : ν} :
      Advance k system (.setOld looper) (.spCopy (.old k) (.slot k)) (.setSlot looper)
  /-- in the order of an assignment, with the old value in the place of `m_ptr` -/
  | setSlot {looper : ν} :
      Advance k system (.setSlot looper) (.spAssign (.slot k) (.var looper)) .setReturn
  | setReturn : Advance k system .setReturn (.destroy (.old k)) .outside

end LooperThreads

section Steps

variable {κ ν ω : Type*} [DecidableEq κ] [DecidableEq ν] [DecidableEq ω]

open LooperThreads

/-- The steps of a program that does not change a variable that some function refers to. -/
inductive LooperThreadStep : LooperThreads κ ν ω → LooperThreadEvent κ ν ω →
    LooperThreads κ ν ω → Prop where
  /-- `looper = getForThread()` in `prepare` -/
  | prepare {system : LooperThreads κ ν ω} {k : κ} {looper : ν}
      {handles : HandleState (LooperVar κ ν) ω} (outside : system.pcs k = .outside)
      (isTarget : system.Unused looper)
      (performs : system.Performs (.spCopy (.var looper) (.slot k)) handles) :
      LooperThreadStep system (.prepare k looper)
        (system.goto k handles
          (if handles.threads (.var looper) = .sp none then .prepareNew looper else .outside))
  | setForThread {system : LooperThreads κ ν ω} {k : κ} {looper : ν} {mPtr : Option ω}
      (outside : system.pcs k = .outside)
      (isSp : system.handles.threads (.var looper) = .sp mPtr)
      (notWritten : ∀ other, system.pcs other ≠ .prepareNew looper) :
      LooperThreadStep system (.setForThread k looper)
        (system.goto k system.handles (.setOld looper))
  | getForThread {system : LooperThreads κ ν ω} {k : κ} {looper : ν}
      {handles : HandleState (LooperVar κ ν) ω} (outside : system.pcs k = .outside)
      (isTarget : system.Unused looper)
      (performs : system.Performs (.spCopy (.var looper) (.slot k)) handles) :
      LooperThreadStep system (.getForThread k looper) (system.goto k handles .outside)
  | advances {system : LooperThreads κ ν ω} {k : κ} {op : HandleOp (LooperVar κ ν) ω}
      {pc : LooperPc ν} {handles : HandleState (LooperVar κ ν) ω}
      (goes : Advance k system (system.pcs k) op pc) (performs : system.Performs op handles) :
      LooperThreadStep system (.advances k) (system.goto k handles pc)
  /-- `threadDestructor`, where there is a value -/
  | exits {system : LooperThreads κ ν ω} {k : κ} {handles : HandleState (LooperVar κ ν) ω}
      (outside : system.pcs k = .outside)
      (performs : system.Performs (.destroy (.slot k)) handles) :
      LooperThreadStep system (.exits k) (system.goto k handles .exited)
  | program {system : LooperThreads κ ν ω} {op : LooperOp ν ω}
      {handles : HandleState (LooperVar κ ν) ω} (isTarget : system.Unused op.target)
      (areNew : ∀ object, op.creates = some object → system.Unmade object)
      (performs : system.Performs op.handleOp handles) :
      LooperThreadStep system (.program op) { system with handles }

end Steps

end DroidKernal.Utils
