import DroidKernal.Utils.RefBase

/-!
# Handles

`sp` and `wp` of `StrongPointer.h` and `RefBase.h`: variables of these classes over any number
of objects, and what their member functions do, one after the other.  An object and its
`weakref_impl` go by one name, and every object is there from the start.
-/

namespace DroidKernal.Utils

open Lib

/-- What lives in a variable: nothing, or an `sp` or a `wp` with its members.  `m_refs` is
`none` where it is null or was never set. -/
inductive Handle (ω : Type*) where
  | dead
  | sp (mPtr : Option ω)
  | wp (mPtr mRefs : Option ω)
  deriving DecidableEq, Repr

/-- The objects, and the variables. -/
abbrev HandleState (ι ω : Type*) := Threads ι (ω → RefBase) (Handle ω)

/-- What happens to a variable: `T*` is a pointer that the caller has, and `allows` what
`onIncStrongAttempted` returns. -/
inductive HandleOp (ι ω : Type*) where
  | spNew (i : ι) (other : Option ω)
  | spCopy (i j : ι)
  | spAssignPtr (i : ι) (other : Option ω)
  | spAssign (i j : ι)
  | spClear (i : ι)
  | wpNew (i : ι) (other : Option ω)
  | wpCopy (i j : ι)
  | wpFromSp (i j : ι)
  | wpAssign (i j : ι)
  | promote (i j : ι) (allows : Bool)
  | destroy (i : ι)
  deriving DecidableEq, Repr

section Members

variable {ω : Type*} [DecidableEq ω] (lifetime : ω → Lifetime)

/-- `if (m_ptr) m_ptr->…`. -/
def onPointee (operation : Lifetime → RefBase → RefBase) (mPtr : Option ω)
    (objects : ω → RefBase) : ω → RefBase :=
  match mPtr with
  | none => objects
  | some object =>
      Function.update objects object (operation (lifetime object) (objects object))

/-- `if (m_ptr) m_refs->…`, which needs an `m_refs` that was set. -/
def onRefs (operation : Lifetime → RefBase → RefBase) (mPtr mRefs : Option ω)
    (objects : ω → RefBase) : Option (ω → RefBase) :=
  match mPtr, mRefs with
  | none, _ => some objects
  | some _, none => none
  | some _, some refs => some (onPointee lifetime operation (some refs) objects)

/-- `m_ptr && m_refs->attemptIncStrong(…)`. -/
def attemptOnRefs (allows : Bool) (mPtr mRefs : Option ω) (objects : ω → RefBase) :
    Option ((ω → RefBase) × Bool) :=
  match mPtr, mRefs with
  | none, _ => some (objects, false)
  | some _, none => none
  | some _, some refs =>
      let (counts, attempted) := (objects refs).attemptIncStrong (lifetime refs) allows
      some (Function.update objects refs counts, attempted)

end Members

namespace HandleState

variable {ι ω : Type*} [DecidableEq ι] [DecidableEq ω] (lifetime : ω → Lifetime)

/-- New objects, and no handle. -/
def init : HandleState ι ω where
  shared := fun _ => .init
  threads := fun _ => .dead

/-- A pointer that a caller may have is null or points to an object that is there. -/
def usable (state : HandleState ι ω) : Option ω → Bool
  | none => true
  | some object => (state.shared object).destroyed = 0

/-- The members of a variable, once the counts have changed. -/
def put (state : HandleState ι ω) (i : ι) (handle : Handle ω) (objects : ω → RefBase) :
    HandleState ι ω where
  shared := objects
  threads := Function.update state.threads i handle

/-- The member functions; there is none where the program would use what is not there. -/
def step (state : HandleState ι ω) : HandleOp ι ω → Option (HandleState ι ω)
  | .spNew i other =>
      match state.threads i, state.usable other with
      | .dead, true =>
          some (state.put i (.sp other) (onPointee lifetime RefBase.incStrong other state.shared))
      | _, _ => none
  | .spCopy i j =>
      match state.threads i, state.threads j with
      | .dead, .sp mPtr =>
          some (state.put i (.sp mPtr) (onPointee lifetime RefBase.incStrong mPtr state.shared))
      | _, _ => none
  | .spAssignPtr i other =>
      match state.threads i, state.usable other with
      | .sp oldPtr, true =>
          some (state.put i (.sp other)
            (onPointee lifetime RefBase.decStrong oldPtr
              (onPointee lifetime RefBase.incStrong other state.shared)))
      | _, _ => none
  | .spAssign i j =>
      match state.threads i, state.threads j with
      | .sp oldPtr, .sp otherPtr =>
          some (state.put i (.sp otherPtr)
            (onPointee lifetime RefBase.decStrong oldPtr
              (onPointee lifetime RefBase.incStrong otherPtr state.shared)))
      | _, _ => none
  | .spClear i =>
      match state.threads i with
      | .sp oldPtr =>
          some (state.put i (.sp none) (onPointee lifetime RefBase.decStrong oldPtr state.shared))
      | _ => none
  | .wpNew i other =>
      match state.threads i, state.usable other with
      | .dead, true =>
          some (state.put i (.wp other other)
            (onPointee lifetime RefBase.creatWeak other state.shared))
      | _, _ => none
  | .wpCopy i j =>
      match state.threads i, state.threads j with
      | .dead, .wp mPtr mRefs =>
          (onRefs lifetime RefBase.incWeak mPtr mRefs state.shared).map
            (state.put i (.wp mPtr mRefs))
      | _, _ => none
  | .wpFromSp i j =>
      match state.threads i, state.threads j with
      | .dead, .sp mPtr =>
          some (state.put i (.wp mPtr mPtr)
            (onPointee lifetime RefBase.creatWeak mPtr state.shared))
      | _, _ => none
  -- `wp` declares no assignment: the compiler's copies the members, and counts nothing.
  | .wpAssign i j =>
      match state.threads i, state.threads j with
      | .wp _ _, .wp mPtr mRefs => some (state.put i (.wp mPtr mRefs) state.shared)
      | _, _ => none
  | .promote i j allows =>
      match state.threads i, state.threads j with
      | .dead, .wp mPtr mRefs =>
          (attemptOnRefs lifetime allows mPtr mRefs state.shared).map fun (objects, attempted) =>
            state.put i (.sp (if attempted then mPtr else none)) objects
      | _, _ => none
  | .destroy i =>
      match state.threads i with
      | .dead => none
      | .sp mPtr =>
          some (state.put i .dead (onPointee lifetime RefBase.decStrong mPtr state.shared))
      | .wp mPtr mRefs =>
          (onRefs lifetime RefBase.decWeak mPtr mRefs state.shared).map (state.put i .dead)

/-- The steps of a program with such variables. -/
def Steps (state : HandleState ι ω) (op : HandleOp ι ω) (next : HandleState ι ω) : Prop :=
  state.step lifetime op = some next

end HandleState

section Counts

variable {ι ω : Type*} [Fintype ι] [DecidableEq ω]

/-- Whether the handle is a strong one, or a weak one, to the object. -/
def Handle.count : Handle ω → ω → Nat × Nat
  | .dead, _ => (0, 0)
  | .sp mPtr, object => if mPtr = some object then (1, 0) else (0, 0)
  | .wp mPtr _, object => if mPtr = some object then (0, 1) else (0, 0)

/-- The strong handles to an object. -/
def HandleState.strongs (state : HandleState ι ω) (object : ω) : Nat :=
  ∑ i, ((state.threads i).count object).1

/-- The weak handles to an object. -/
def HandleState.weaks (state : HandleState ι ω) (object : ω) : Nat :=
  ∑ i, ((state.threads i).count object).2

end Counts

end DroidKernal.Utils
