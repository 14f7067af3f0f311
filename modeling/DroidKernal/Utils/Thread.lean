import DroidKernal.Utils.RefBase

/-!
# Thread

`run` and `_threadLoop` of `Threads.cpp`, for one object that was constructed with
`mCanCallJava` false, over the references of its `RefBase`.  Callers of `run` and new threads
take turns at accesses to the object; what a reference needs is a call of `RefBase`, whose
accesses come in between.  A party keeps count of the references it is in charge of: that of
`mHoldSelf` counts for the caller of `run`, and for the new thread once there is one.  What
`pthread_create` answers and what the callbacks return are choices of a step.
-/

namespace DroidKernal.Utils

open Lib

/-- `UNKNOWN_ERROR` and `INVALID_OPERATION`. -/
def unknownError : Int := -2 ^ 31
def invalidOperation : Int := -38

/-- The members of a `Thread`: an id is none where it is -1, and `mHoldSelf` is whether it
points to the object. -/
structure ThreadMembers (ι κ : Type*) where
  mThread : Option κ
  mLock : Option (ι ⊕ κ)
  mStatus : Int
  mExitPending : Bool
  mRunning : Bool
  mHoldSelf : Bool
  mTid : Option κ

/-- The constructor. -/
def ThreadMembers.init {ι κ : Type*} : ThreadMembers ι κ where
  mThread := none
  mLock := none
  mStatus := 0
  mExitPending := false
  mRunning := false
  mHoldSelf := false
  mTid := none

/-- A party calls an operation on references, entitled to it or not. -/
def RefThread.begin (refs : RefBase) (thread : RefThread) : RefOperation → RefThread
  | .incStrong => thread.goto (.incStrongWeak (!refs.strongTaken))
  | .decStrong => { thread with pc := .decStrongSub, strong := thread.strong - 1 }
  | .creatWeak => thread.goto (.creatWeak false)
  | .incWeak => thread.goto .incWeak
  | .decWeak => { thread with pc := .decWeakSub, weak := thread.weak - 1 }
  | .attemptIncStrong => thread.goto .attemptWeak

/-! ## run -/

/-- What `run` does next.  `hold` to `store` are the assignment to `mHoldSelf`, which knows
the old pointer; `clear` and `cleared` are `mHoldSelf.clear()`. -/
inductive RunPc (κ : Type*) where
  | out
  | lock
  | check
  | hold
  | held (old : Bool)
  | store
  | create
  | created (k : κ)
  | fail
  | clear
  | cleared
  | unlock (status : Int)

namespace RunPc

variable {ι κ : Type*}

/-- The members are accessed, except for their addresses that `pthread_create` gets. -/
def touches : RunPc κ → Bool
  | create => false
  | _ => true

/-- The next access of `run` to the members, and the operation on references that it calls
then.  `droidCreateRawThreadEtc` fails here. -/
def advance (i : ι) (members : ThreadMembers ι κ) :
    RunPc κ → Option (ThreadMembers ι κ × RunPc κ × Option RefOperation)
  | out => none
  | lock =>
      if members.mLock.isNone then some ({ members with mLock := some (.inl i) }, check, none)
      else none
  | check =>
      if members.mRunning then some (members, unlock invalidOperation, none)
      else some ({ members with mStatus := 0, mExitPending := false, mThread := none }, hold, none)
  | hold => some (members, held members.mHoldSelf, some .incStrong)
  | held true => some (members, store, some .decStrong)
  | held false | store =>
      some ({ members with mHoldSelf := true, mRunning := true }, create, none)
  | create => some (members, fail, none)
  | created k => some ({ members with mThread := some k }, unlock 0, none)
  | fail =>
      some ({ members with mStatus := unknownError, mRunning := false, mThread := none },
        clear, none)
  | clear =>
      if members.mHoldSelf then some (members, cleared, some .decStrong)
      else some (members, unlock unknownError, none)
  | cleared => some ({ members with mHoldSelf := false }, unlock unknownError, none)
  | unlock _ => some ({ members with mLock := none }, out, none)

end RunPc

/-- A caller of `run`: what its last call returned, and by how much the accesses of that
call have changed the two counts. -/
structure RunFrame (κ : Type*) where
  pc : RunPc κ
  result : Option Int
  strongChange : Int
  weakChange : Int

namespace RunFrame

variable {κ : Type*}

/-- Not in `run`. -/
def init : RunFrame κ where
  pc := .out
  result := none
  strongChange := 0
  weakChange := 0

/-- `run` is called. -/
def call : RunFrame κ := { (init : RunFrame κ) with pc := .lock }

/-- `run` goes on, or returns its status. -/
def goto (frame : RunFrame κ) (pc : RunPc κ) : RunFrame κ :=
  { frame with
    pc
    result :=
      match frame.pc with
      | .unlock status => some status
      | _ => frame.result }

/-- An access of an operation on references that `run` has called. -/
def record (frame : RunFrame κ) (before after : RefBase) : RunFrame κ :=
  match frame.pc with
  | .out => frame
  | _ =>
      { frame with
        strongChange := frame.strongChange + (after.mStrong - before.mStrong)
        weakChange := frame.weakChange + (after.mWeak - before.mWeak) }

end RunFrame

/-! ## The new thread -/

/-- What `_threadLoop` does next.  `clear` and `cleared` are `mHoldSelf.clear()`, the exits
are `exitPending`; `promote` to `assigned` are `strong = weak.promote()`. -/
inductive LoopPc where
  | gone
  | copy
  | weakCopy
  | clear
  | cleared
  | tid
  | ready
  | exitLock
  | exitRead
  | exitUnlock (pending : Bool)
  | body
  | lock (result : Bool)
  | check (result : Bool)
  | unlock (stop : Bool)
  | clearStrong
  | promote
  | promoted (before : Nat)
  | assigned (result : Bool)
  | test
  | dropWeak
  | dropStrong
  deriving DecidableEq

/-- The frame of `_threadLoop`: whether the pointers are not null, and `first`. -/
structure LoopFrame where
  pc : LoopPc
  strong : Bool
  weak : Bool
  first : Bool
  deriving DecidableEq

namespace LoopPc

/-- The members are accessed. -/
def touches : LoopPc → Bool
  | copy | clear | cleared | tid | ready => true
  | exitLock | exitRead | exitUnlock _ | body | lock _ | check _ | unlock _ => true
  | _ => false

end LoopPc

namespace LoopFrame

variable {ι κ : Type*}

/-- No thread. -/
def init : LoopFrame where
  pc := .gone
  strong := false
  weak := false
  first := true

/-- A new thread. -/
def start : LoopFrame := { init with pc := .copy }

def goto (frame : LoopFrame) (pc : LoopPc) : LoopFrame := { frame with pc }

/-- The next access of `_threadLoop`, and the operation on references that it calls then.
`answer` is what the callback returns: a status, or a boolean. -/
def advance (k : κ) (answer : Int) (thread : RefThread) (members : ThreadMembers ι κ)
    (frame : LoopFrame) : Option (ThreadMembers ι κ × LoopFrame × Option RefOperation) :=
  match frame.pc with
  | .gone => none
  | .copy =>
      some (members, { frame with pc := .weakCopy, strong := members.mHoldSelf },
        if members.mHoldSelf then some .incStrong else none)
  | .weakCopy =>
      some (members, { frame with pc := .clear, weak := frame.strong },
        if frame.strong then some .creatWeak else none)
  | .clear =>
      if members.mHoldSelf then some (members, frame.goto .cleared, some .decStrong)
      else some (members, frame.goto .tid, none)
  | .cleared => some ({ members with mHoldSelf := false }, frame.goto .tid, none)
  | .tid => some ({ members with mTid := some k }, frame.goto .ready, none)
  -- the first turn of the loop
  | .ready =>
      some ({ members with mStatus := answer },
        { frame with first := false, pc := if answer = 0 then .exitLock else .lock false }, none)
  | .exitLock =>
      if members.mLock.isNone then
        some ({ members with mLock := some (.inr k) }, frame.goto .exitRead, none)
      else none
  | .exitRead => some (members, frame.goto (.exitUnlock members.mExitPending), none)
  | .exitUnlock pending =>
      some ({ members with mLock := none }, frame.goto (if pending then .lock true else .body),
        none)
  -- every turn
  | .body => some (members, frame.goto (.lock (answer ≠ 0)), none)
  | .lock result =>
      if members.mLock.isNone then
        some ({ members with mLock := some (.inr k) }, frame.goto (.check result), none)
      else none
  | .check result =>
      if result = false ∨ members.mExitPending then
        some ({ members with mExitPending := true, mRunning := false, mThread := none },
          frame.goto (.unlock true), none)
      else some (members, frame.goto (.unlock false), none)
  | .unlock stop =>
      some ({ members with mLock := none },
        frame.goto (if stop then .dropWeak else .clearStrong), none)
  | .clearStrong =>
      some (members, { frame with pc := .promote, strong := false },
        if frame.strong then some .decStrong else none)
  | .promote =>
      if frame.weak then
        some (members, frame.goto (.promoted thread.strong), some .attemptIncStrong)
      else some (members, frame.goto .test, none)
  | .promoted before =>
      let result : Bool := before < thread.strong
      some (members, { frame with pc := .assigned result, strong := result },
        if result then some .incStrong else none)
  | .assigned result =>
      some (members, frame.goto .test, if result then some .decStrong else none)
  | .test => some (members, frame.goto (if frame.strong then .body else .dropWeak), none)
  -- the destructors
  | .dropWeak =>
      some (members, frame.goto .dropStrong, if frame.weak then some .decWeak else none)
  | .dropStrong =>
      some (members, frame.goto .gone, if frame.strong then some .decStrong else none)

end LoopFrame

/-! ## The system -/

/-- The object with its references, the callers of `run`, and the threads it created. -/
structure ThreadState (ι κ : Type*) where
  refs : RefState (ι ⊕ κ)
  members : ThreadMembers ι κ
  callers : ι → RunFrame κ
  loops : κ → LoopFrame

/-- What happens: outside of `run` and `_threadLoop` something is done to references, or an
operation on them that is in progress makes its next access; `run` is called; it makes its
next access; it creates a thread; the thread makes its next access. -/
inductive ThreadEvent (ι κ : Type*) where
  | refs (event : RefEvent (ι ⊕ κ))
  | call (i : ι)
  | run (i : ι)
  | create (i : ι) (k : κ)
  | loop (k : κ) (answer : Int)

namespace ThreadState

variable {ι κ : Type*} [DecidableEq ι] [DecidableEq κ]

/-- A new object that nobody has a reference to. -/
def init : ThreadState ι κ where
  refs := RefState.init
  members := .init
  callers := fun _ => .init
  loops := fun _ => .init

/-- A party accesses the members, if it does, and may call an operation. -/
def perform (state : ThreadState ι κ) (party : ι ⊕ κ) (touches : Bool)
    (members : ThreadMembers ι κ) (operation : Option RefOperation) : ThreadState ι κ :=
  let shared := if touches then state.refs.shared.useObject else state.refs.shared
  { state with
    members
    refs := {
      shared
      threads :=
        match operation with
        | none => state.refs.threads
        | some operation =>
            Function.update state.refs.threads party
              ((state.refs.threads party).begin shared operation) } }

/-- Parties start operations on references outside of `run` and `_threadLoop`, and hand
references over there. -/
def Outside (creator : ι) (state : ThreadState ι κ) : RefEvent (ι ⊕ κ) → Prop
  | .call (.inl i) _ => (state.callers i).pc = .out
  | .firstStrong | .firstWeak => (state.callers creator).pc = .out
  | .advance _ _ => True
  | .give (.inl i) (.inl j) _ _ => (state.callers i).pc = .out ∧ (state.callers j).pc = .out
  | .call (.inr _) _ | .give .. => False

/-- The callers after something was done to references. -/
def recorded (state : ThreadState ι κ) (after : RefBase) : RefEvent (ι ⊕ κ) → ι → RunFrame κ
  | .advance (.inl i) _ =>
      Function.update state.callers i ((state.callers i).record state.refs.shared after)
  | _ => state.callers

end ThreadState

section Steps

variable {ι κ : Type*} [DecidableEq ι] [DecidableEq κ]

/-- The steps of all parties.  Who is in an operation on references goes on with that. -/
inductive ThreadStep (lifetime : Lifetime) (creator : ι) :
    ThreadState ι κ → ThreadEvent ι κ → ThreadState ι κ → Prop where
  | refs {state : ThreadState ι κ} {event : RefEvent (ι ⊕ κ)} {refs : RefState (ι ⊕ κ)}
      (outside : state.Outside creator event)
      (step : RefStep lifetime (.inl creator) state.refs event refs) :
      ThreadStep lifetime creator state (.refs event)
        { state with refs, callers := state.recorded refs.shared event }
  | call {state : ThreadState ι κ} {i : ι} (idle : (state.refs.threads (.inl i)).pc = .idle)
      (out : (state.callers i).pc = .out) :
      ThreadStep lifetime creator state (.call i)
        { state with callers := Function.update state.callers i .call }
  | run {state : ThreadState ι κ} {i : ι} {members : ThreadMembers ι κ} {pc : RunPc κ}
      {operation : Option RefOperation} (idle : (state.refs.threads (.inl i)).pc = .idle)
      (advanced : (state.callers i).pc.advance i state.members = some (members, pc, operation)) :
      ThreadStep lifetime creator state (.run i)
        { state.perform (.inl i) (state.callers i).pc.touches members operation with
          callers := Function.update state.callers i ((state.callers i).goto pc) }
  | create {state : ThreadState ι κ} {i : ι} {k : κ}
      (idle : (state.refs.threads (.inl i)).pc = .idle)
      (creates : (state.callers i).pc = .create)
      (idle' : (state.refs.threads (.inr k)).pc = .idle) (gone : (state.loops k).pc = .gone) :
      ThreadStep lifetime creator state (.create i k)
        { state with
          refs := {
            state.refs with
            threads := Function.update
              (Function.update state.refs.threads (.inl i)
                { state.refs.threads (.inl i) with
                  strong := (state.refs.threads (.inl i)).strong - 1 })
              (.inr k)
              { state.refs.threads (.inr k) with
                strong := (state.refs.threads (.inr k)).strong + 1 } }
          callers := Function.update state.callers i ((state.callers i).goto (.created k))
          loops := Function.update state.loops k .start }
  | loop {state : ThreadState ι κ} {k : κ} {answer : Int} {members : ThreadMembers ι κ}
      {frame : LoopFrame} {operation : Option RefOperation}
      (idle : (state.refs.threads (.inr k)).pc = .idle)
      (advanced : (state.loops k).advance k answer (state.refs.threads (.inr k)) state.members =
        some (members, frame, operation)) :
      ThreadStep lifetime creator state (.loop k answer)
        { state.perform (.inr k) (state.loops k).pc.touches members operation with
          loops := Function.update state.loops k frame }

end Steps

end DroidKernal.Utils
