import DroidKernal.Lib.Threads
import DroidKernal.Lib.Run

/-!
# RefBase

One object of a class derived from `RefBase`, with its `weakref_impl` and the threads
that count references to it.  A thread executes its operations one access to memory
that is shared at a time; the accesses are sequentially consistent.  References are
held by threads, and can be handed over between threads that are not in an operation.
-/

namespace DroidKernal.Utils

open Lib

/-- What `mFlags & OBJECT_LIFETIME_MASK` says; it is set in constructors. -/
inductive Lifetime where
  | strong
  | weak
  deriving DecidableEq, Repr

/-- `INITIAL_STRONG_VALUE`. -/
def initialStrongValue : Int := 2 ^ 28

/-- The value of an `int32_t` after arithmetic that wraps around. -/
def wrapInt32 (value : Int) : Int := (value + 2 ^ 31) % 2 ^ 32 - 2 ^ 31

/-- The counters of the `weakref_impl`, and what the memory went through: how often
the object was destroyed and the `weakref_impl` freed, whether either was used after
that, and whether a strong or a weak reference was ever counted. -/
structure RefBase where
  mStrong : Int
  mWeak : Int
  destroyed : Nat
  freed : Nat
  strayObject : Bool
  strayImpl : Bool
  strongTaken : Bool
  weakTaken : Bool
  deriving DecidableEq, Repr

namespace RefBase

/-- The constructors of `RefBase` and `weakref_impl`. -/
def init : RefBase where
  mStrong := initialStrongValue
  mWeak := 0
  destroyed := 0
  freed := 0
  strayObject := false
  strayImpl := false
  strongTaken := false
  weakTaken := false

/-- An access to the object. -/
def useObject (refs : RefBase) : RefBase :=
  { refs with strayObject := refs.strayObject || refs.destroyed != 0 }

/-- An access to the `weakref_impl`. -/
def useImpl (refs : RefBase) : RefBase :=
  { refs with strayImpl := refs.strayImpl || refs.freed != 0 }

/-- `mStrong.fetch_add`. -/
def addStrong (refs : RefBase) : RefBase :=
  { refs.useImpl with mStrong := wrapInt32 (refs.mStrong + 1), strongTaken := true }

/-- `mStrong.fetch_sub`. -/
def subStrong (refs : RefBase) (amount : Int) : RefBase :=
  { refs.useImpl with mStrong := wrapInt32 (refs.mStrong - amount) }

/-- `mWeak.fetch_add`. -/
def addWeak (refs : RefBase) : RefBase :=
  { refs.useImpl with mWeak := wrapInt32 (refs.mWeak + 1), weakTaken := true }

/-- `mWeak.fetch_sub`. -/
def subWeak (refs : RefBase) : RefBase :=
  { refs.useImpl with mWeak := wrapInt32 (refs.mWeak - 1) }

/-- `delete` of the object, up to the destructor of `RefBase`. -/
def destroy (refs : RefBase) : RefBase :=
  { refs.useObject with destroyed := refs.destroyed + 1 }

/-- `delete` of the `weakref_impl`. -/
def free (refs : RefBase) : RefBase :=
  { refs.useImpl with freed := refs.freed + 1 }

end RefBase

/-- The two places that delete the object. -/
inductive Deleter where
  | decStrong
  | decWeak
  deriving DecidableEq, Repr

/-- The access that a thread makes next.  `first` marks the very first reference. -/
inductive Pc where
  | idle
  | incStrongWeak (first : Bool)
  | incStrongAdd (first : Bool)
  | incStrongSub
  | incStrongFirstRef
  | decStrongSub
  | decStrongLastRef
  | decStrongFlags
  | decStrongDelete
  | creatWeak (first : Bool)
  | incWeak
  | decWeakSub
  | decWeakFlags
  | decWeakStrong
  | decWeakFree
  | decWeakLastRef
  | decWeakDelete
  | destructorFlags (caller : Deleter)
  | destructorWeak (caller : Deleter)
  | destructorStrong (caller : Deleter)
  | destructorFree (caller : Deleter)
  | attemptWeak
  | attemptLoad
  | attemptLoop (curCount : Int)
  | attemptPromote (curCount : Int)
  | attemptAsk
  | attemptAdd
  | attemptLastRef
  | attemptSub
  | attemptReturn
  deriving DecidableEq, Repr

/-- A thread, with the references it holds. -/
structure RefThread where
  pc : Pc
  strong : Nat
  weak : Nat
  deriving DecidableEq, Repr

namespace RefThread

/-- A thread that has nothing to do with the object. -/
def init : RefThread where
  pc := .idle
  strong := 0
  weak := 0

def goto (thread : RefThread) (pc : Pc) : RefThread := { thread with pc }

/-- The operation returns. -/
def done (thread : RefThread) : RefThread := thread.goto .idle

/-- The operation returns with a strong reference. -/
def gainStrong (thread : RefThread) : RefThread :=
  { thread with pc := .idle, strong := thread.strong + 1 }

/-- The operation returns with a weak reference. -/
def gainWeak (thread : RefThread) : RefThread :=
  { thread with pc := .idle, weak := thread.weak + 1 }

/-- The destructor returns to where the object was deleted. -/
def destructed (thread : RefThread) : Deleter → RefThread
  | .decStrong => thread.goto .decWeakSub
  | .decWeak => thread.done

end RefThread

/-- `INITIAL_STRONG_VALUE` or no reference: the loops of `attemptIncStrong` stop. -/
def unusable (curCount : Int) : Bool :=
  curCount ≤ 0 || curCount = initialStrongValue

/-- One access of a thread.  `choice` is whether a `compare_exchange_weak` that could
succeed does, and what `onIncStrongAttempted` returns. -/
def advance (lifetime : Lifetime) (choice : Bool) (refs : RefBase) (thread : RefThread) :
    RefBase × RefThread :=
  match thread.pc with
  | .idle => (refs, thread)
  -- incStrong
  | .incStrongWeak first => (refs.useObject.addWeak, thread.goto (.incStrongAdd first))
  | .incStrongAdd _ =>
      (refs.addStrong,
        if refs.mStrong ≠ initialStrongValue then thread.gainStrong else thread.goto .incStrongSub)
  | .incStrongSub => (refs.subStrong initialStrongValue, thread.goto .incStrongFirstRef)
  | .incStrongFirstRef => (refs.useImpl.useObject, thread.gainStrong)
  -- decStrong
  | .decStrongSub =>
      (refs.useObject.subStrong 1,
        if refs.mStrong = 1 then thread.goto .decStrongLastRef else thread.goto .decWeakSub)
  | .decStrongLastRef => (refs.useImpl.useObject, thread.goto .decStrongFlags)
  | .decStrongFlags =>
      (refs.useImpl,
        match lifetime with
        | .strong => thread.goto .decStrongDelete
        | .weak => thread.goto .decWeakSub)
  | .decStrongDelete => (refs.destroy, thread.goto (.destructorFlags .decStrong))
  -- creatWeak and incWeak
  | .creatWeak _ => (refs.useObject.addWeak, thread.gainWeak)
  | .incWeak => (refs.addWeak, thread.gainWeak)
  -- decWeak
  | .decWeakSub =>
      (refs.subWeak, if refs.mWeak ≠ 1 then thread.done else thread.goto .decWeakFlags)
  | .decWeakFlags =>
      (refs.useImpl,
        match lifetime with
        | .strong => thread.goto .decWeakStrong
        | .weak => thread.goto .decWeakLastRef)
  | .decWeakStrong =>
      (refs.useImpl,
        if refs.mStrong = initialStrongValue then thread.done else thread.goto .decWeakFree)
  | .decWeakFree => (refs.free, thread.done)
  | .decWeakLastRef => (refs.useImpl.useObject, thread.goto .decWeakDelete)
  | .decWeakDelete => (refs.useImpl.destroy, thread.goto (.destructorFlags .decWeak))
  -- ~RefBase
  | .destructorFlags caller =>
      (refs.useImpl,
        match lifetime with
        | .strong => thread.goto (.destructorStrong caller)
        | .weak => thread.goto (.destructorWeak caller))
  | .destructorWeak caller =>
      (refs.useImpl,
        if refs.mWeak = 0 then thread.goto (.destructorFree caller) else thread.destructed caller)
  | .destructorStrong caller => (refs.useImpl, thread.destructed caller)
  | .destructorFree caller => (refs.free, thread.destructed caller)
  -- attemptIncStrong
  | .attemptWeak => (refs.addWeak, thread.goto .attemptLoad)
  | .attemptLoad => (refs.useImpl, thread.goto (.attemptLoop refs.mStrong))
  | .attemptLoop curCount =>
      if unusable curCount then
        (refs.useImpl,
          match lifetime with
          | .strong =>
              if curCount ≤ 0 then thread.goto .decWeakSub
              else thread.goto (.attemptPromote curCount)
          | .weak => thread.goto .attemptAsk)
      else if refs.mStrong = curCount ∧ choice then (refs.addStrong, thread.goto .attemptReturn)
      else (refs.useImpl, thread.goto (.attemptLoop refs.mStrong))
  | .attemptPromote curCount =>
      if curCount ≤ 0 then (refs, thread.goto .decWeakSub)
      else if refs.mStrong = curCount ∧ choice then
        (refs.addStrong,
          if curCount = initialStrongValue then thread.goto .attemptSub
          else thread.goto .attemptReturn)
      else (refs.useImpl, thread.goto (.attemptPromote refs.mStrong))
  | .attemptAsk =>
      (refs.useImpl.useObject,
        if choice then thread.goto .attemptAdd else thread.goto .decWeakSub)
  | .attemptAdd =>
      (refs.addStrong,
        if refs.mStrong = initialStrongValue then thread.goto .attemptSub
        else if refs.mStrong ≠ 0 then thread.goto .attemptLastRef
        else thread.goto .attemptReturn)
  | .attemptLastRef => (refs.useImpl.useObject, thread.goto .attemptReturn)
  | .attemptSub => (refs.subStrong initialStrongValue, thread.goto .attemptReturn)
  | .attemptReturn => (refs, thread.gainStrong)

/-- Accesses of one thread that is not interrupted, up to a number of them. -/
def advanceAlone (lifetime : Lifetime) : Nat → RefBase → RefThread → RefBase × RefThread
  | 0, refs, thread => (refs, thread)
  | fuel + 1, refs, thread =>
      let (refs, thread) := advance lifetime true refs thread
      if thread.pc = .idle then (refs, thread) else advanceAlone lifetime fuel refs thread

/-- The same where `allows` is what `onIncStrongAttempted` returns. -/
def advanceAsked (lifetime : Lifetime) (allows : Bool) :
    Nat → RefBase → RefThread → RefBase × RefThread
  | 0, refs, thread => (refs, thread)
  | fuel + 1, refs, thread =>
      let (refs, thread) := advance lifetime (thread.pc ≠ .attemptAsk || allows) refs thread
      if thread.pc = .idle then (refs, thread) else advanceAsked lifetime allows fuel refs thread

/-- `incStrong`, not interrupted. -/
def RefBase.incStrong (lifetime : Lifetime) (refs : RefBase) : RefBase :=
  (advanceAlone lifetime 4 refs ⟨.incStrongWeak false, 0, 0⟩).1

/-- `decStrong`, not interrupted. -/
def RefBase.decStrong (lifetime : Lifetime) (refs : RefBase) : RefBase :=
  (advanceAlone lifetime 10 refs ⟨.decStrongSub, 0, 0⟩).1

/-- `creatWeak`, not interrupted. -/
def RefBase.creatWeak (lifetime : Lifetime) (refs : RefBase) : RefBase :=
  (advanceAlone lifetime 1 refs ⟨.creatWeak false, 0, 0⟩).1

/-- `incWeak`, not interrupted. -/
def RefBase.incWeak (lifetime : Lifetime) (refs : RefBase) : RefBase :=
  (advanceAlone lifetime 1 refs ⟨.incWeak, 0, 0⟩).1

/-- `decWeak`, not interrupted. -/
def RefBase.decWeak (lifetime : Lifetime) (refs : RefBase) : RefBase :=
  (advanceAlone lifetime 7 refs ⟨.decWeakSub, 0, 0⟩).1

/-- `attemptIncStrong`, not interrupted, and what it returns. -/
def RefBase.attemptIncStrong (lifetime : Lifetime) (allows : Bool) (refs : RefBase) :
    RefBase × Bool :=
  let (refs, thread) := advanceAsked lifetime allows 11 refs ⟨.attemptWeak, 0, 0⟩
  (refs, thread.strong = 1)

/-- `attemptIncWeak`, not interrupted. -/
def RefBase.attemptIncWeak (refs : RefBase) : RefBase × Bool :=
  if 0 < refs.mWeak then (refs.addWeak, true) else (refs.useImpl, false)

/-- The operations on references. -/
inductive RefOperation where
  | incStrong
  | decStrong
  | creatWeak
  | incWeak
  | decWeak
  | attemptIncStrong
  deriving DecidableEq, Repr

/-- A thread calls an operation with the reference that entitles it; the reference
that an operation drops is gone with the call. -/
def RefThread.call (thread : RefThread) : RefOperation → Option RefThread
  | .incStrong => if 0 < thread.strong then some (thread.goto (.incStrongWeak false)) else none
  | .decStrong =>
      if 0 < thread.strong then
        some { thread with pc := .decStrongSub, strong := thread.strong - 1 }
      else none
  | .creatWeak => if 0 < thread.strong then some (thread.goto (.creatWeak false)) else none
  | .incWeak => if 0 < thread.weak then some (thread.goto .incWeak) else none
  | .decWeak =>
      if 0 < thread.weak then some { thread with pc := .decWeakSub, weak := thread.weak - 1 }
      else none
  | .attemptIncStrong => if 0 < thread.weak then some (thread.goto .attemptWeak) else none

/-- The object and all threads. -/
abbrev RefState (ι : Type*) := Threads ι RefBase RefThread

/-- What a thread does: it starts an operation, it takes the very first strong or weak
reference, it makes its next access, or it hands references to another thread. -/
inductive RefEvent (ι : Type*) where
  | call (i : ι) (operation : RefOperation)
  | firstStrong
  | firstWeak
  | advance (i : ι) (choice : Bool)
  | give (i j : ι) (strong weak : Nat)
  deriving DecidableEq, Repr

section Steps

variable {ι : Type*} [DecidableEq ι]

/-- A new object, and threads without references. -/
def RefState.init : RefState ι where
  shared := .init
  threads := fun _ => .init

/-- No thread but the creator has anything to do with the object. -/
def RefState.Alone (state : RefState ι) (creator : ι) : Prop :=
  (state.threads creator).pc = .idle ∧ ∀ i, i ≠ creator → state.threads i = .init

/-- The steps of the threads. -/
inductive RefStep (lifetime : Lifetime) (creator : ι) :
    RefState ι → RefEvent ι → RefState ι → Prop where
  | call {state : RefState ι} {i : ι} {operation : RefOperation} {next : RefThread}
      (idle : (state.threads i).pc = .idle) (called : (state.threads i).call operation = some next) :
      RefStep lifetime creator state (.call i operation)
        { state with threads := Function.update state.threads i next }
  | firstStrong {state : RefState ι} (alone : state.Alone creator)
      (untaken : state.shared.strongTaken = false)
      (reachable : state.shared.weakTaken = true → 0 < (state.threads creator).weak) :
      RefStep lifetime creator state .firstStrong
        { state with
          threads := Function.update state.threads creator
            ((state.threads creator).goto (.incStrongWeak true)) }
  | firstWeak {state : RefState ι} (alone : state.Alone creator)
      (untaken : state.shared.weakTaken = false) :
      RefStep lifetime creator state .firstWeak
        { state with
          threads := Function.update state.threads creator
            ((state.threads creator).goto (.creatWeak true)) }
  | advance {state : RefState ι} (i : ι) (choice : Bool) (busy : (state.threads i).pc ≠ .idle) :
      RefStep lifetime creator state (.advance i choice)
        { shared := (Utils.advance lifetime choice state.shared (state.threads i)).1
          threads := Function.update state.threads i
            (Utils.advance lifetime choice state.shared (state.threads i)).2 }
  | give {state : RefState ι} {i j : ι} {strong weak : Nat} (differ : j ≠ i)
      (idle : (state.threads i).pc = .idle) (idle' : (state.threads j).pc = .idle)
      (hasStrong : strong ≤ (state.threads i).strong) (hasWeak : weak ≤ (state.threads i).weak) :
      RefStep lifetime creator state (.give i j strong weak)
        { state with
          threads := Function.update
            (Function.update state.threads i
              { pc := .idle
                strong := (state.threads i).strong - strong
                weak := (state.threads i).weak - weak })
            j
            { pc := .idle
              strong := (state.threads j).strong + strong
              weak := (state.threads j).weak + weak } }

end Steps

section Counts

variable {ι : Type*} [Fintype ι]

/-- The strong references that threads hold. -/
def RefState.strongHeld (state : RefState ι) : Nat :=
  ∑ i, (state.threads i).strong

/-- The weak references that threads hold. -/
def RefState.weakHeld (state : RefState ι) : Nat :=
  ∑ i, (state.threads i).weak

/-- The threads that are in an operation. -/
def RefState.busy (state : RefState ι) : Nat :=
  ∑ i, if (state.threads i).pc = .idle then 0 else 1

/-- No operation is in progress. -/
def RefState.Quiescent (state : RefState ι) : Prop :=
  ∀ i, (state.threads i).pc = .idle

end Counts

end DroidKernal.Utils
