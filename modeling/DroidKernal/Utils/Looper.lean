import DroidKernal.Lib.TimedQueue
import DroidKernal.Utils.Vector

/-!
# Looper

The message queue of `Looper.cpp`, operated by the code of `VectorImpl`.  A pass of
`pollInner` holds the lock except while a handler runs, so that messages can be
sent before a pass, after it, and during a handler.  What `pollInner` does with
file descriptors is left out.
-/

namespace DroidKernal.Utils

open Lib

/-- `MessageEnvelope`.  `order` is the number of the call that sent it; the code does
not look at it. -/
structure MessageEnvelope (H M : Type*) where
  uptime : Int
  handler : H
  message : M
  order : Nat
  deriving DecidableEq

/-- A `MessageEnvelope` holds a strong pointer, and declares no traits. -/
def envelopeTraits : Traits := .nontrivial 24 (by decide)

/-- `LLONG_MAX`. -/
def llongMax : Int := 2 ^ 63 - 1

variable {H M : Type*}

/-- The members of `class Looper` that concern messages. -/
structure Looper (H M : Type*) where
  mMessageEnvelopes : VectorImpl (MessageEnvelope H M)
  mSendingMessage : Bool
  mNextMessageUptime : Int

/-- The constructor. -/
def Looper.init : Looper H M where
  mMessageEnvelopes := .empty
  mSendingMessage := false
  mNextMessageUptime := llongMax

/-- The `while` loop of `sendMessageAtTime`, with the number of elements that are
left to look at. -/
def insertionIndex (envelopes : VectorImpl (MessageEnvelope H M)) (uptime : Int) : Nat → Nat → Nat
  | 0, i => i
  | left + 1, i =>
      match envelopes.slot i with
      | some envelope =>
          if uptime ≥ envelope.uptime then insertionIndex envelopes uptime left (i + 1) else i
      | none => i

/-- `sendMessageAtTime`, and whether it calls `wake`. -/
def sendMessageAtTime (heap : Heap) (looper : Looper H M) (envelope : MessageEnvelope H M) :
    Looper H M × Bool :=
  let messageCount := looper.mMessageEnvelopes.mCount
  let i := insertionIndex looper.mMessageEnvelopes envelope.uptime messageCount 0
  let (_, mMessageEnvelopes) :=
    looper.mMessageEnvelopes.insertAt envelopeTraits heap envelope i 1
  ({ looper with mMessageEnvelopes }, !looper.mSendingMessage && i = 0)

/-- One turn of the dispatch loop of `pollInner` on a nonempty queue, up to the
handler: the envelope to be handled, or none if the loop ends. -/
def dispatchTurn (heap : Heap) (looper : Looper H M) (now : Int) :
    Option (MessageEnvelope H M) × Looper H M :=
  match looper.mMessageEnvelopes.slot 0 with
  | some envelope =>
      if envelope.uptime ≤ now then
        let (_, mMessageEnvelopes) :=
          looper.mMessageEnvelopes.removeItemsAt envelopeTraits heap 0 1
        (some envelope, { looper with mMessageEnvelopes, mSendingMessage := true })
      else (none, { looper with mNextMessageUptime := envelope.uptime })
  | none => (none, looper)

/-- Where the polling thread is. -/
inductive Control where
  | idle
  | dispatching
  | handling
  deriving DecidableEq, Repr

/-- The Looper with its polling thread, the clock as it was last read, and the
number of calls of `sendMessageAtTime`. -/
structure LooperState (H M : Type*) where
  looper : Looper H M
  control : Control
  clock : Int
  sends : Nat

/-- The constructor, at some time. -/
def LooperState.init (clock : Int) : LooperState H M where
  looper := .init
  control := .idle
  clock
  sends := 0

/-- The sections of the code that run under the lock.  Where one of them changes the
queue, the event says which allocations succeed. -/
inductive LooperEvent (H M : Type*) where
  | send (heap : Heap) (envelope : MessageEnvelope H M)
  | poll
  | dispatch (heap : Heap) (now : Int) (envelope : MessageEnvelope H M)
  | handled
  | finish (now : Option Int)

/-- The steps of the Looper, with a clock that does not go back. -/
inductive LooperStep : LooperState H M → LooperEvent H M → LooperState H M → Prop where
  | send {state : LooperState H M} (heap : Heap) {envelope : MessageEnvelope H M}
      (unlocked : state.control ≠ .dispatching) (numbered : envelope.order = state.sends) :
      LooperStep state (.send heap envelope)
        { state with
          looper := (sendMessageAtTime heap state.looper envelope).1
          sends := state.sends + 1 }
  | poll {state : LooperState H M} (idle : state.control = .idle) :
      LooperStep state .poll
        { state with
          looper := { state.looper with mNextMessageUptime := llongMax }
          control := .dispatching }
  | dispatch {state : LooperState H M} (heap : Heap) {now : Int}
      {envelope : MessageEnvelope H M} {next : Looper H M}
      (dispatching : state.control = .dispatching)
      (nonempty : state.looper.mMessageEnvelopes.mCount ≠ 0) (later : state.clock ≤ now)
      (turn : dispatchTurn heap state.looper now = (some envelope, next)) :
      LooperStep state (.dispatch heap now envelope)
        { state with looper := next, control := .handling, clock := now }
  | handled {state : LooperState H M} (handling : state.control = .handling) :
      LooperStep state .handled
        { state with
          looper := { state.looper with mSendingMessage := false }
          control := .dispatching }
  | waiting {state : LooperState H M} (heap : Heap) {now : Int} {next : Looper H M}
      (dispatching : state.control = .dispatching)
      (nonempty : state.looper.mMessageEnvelopes.mCount ≠ 0) (later : state.clock ≤ now)
      (turn : dispatchTurn heap state.looper now = (none, next)) :
      LooperStep state (.finish (some now))
        { state with looper := next, control := .idle, clock := now }
  | drained {state : LooperState H M} (dispatching : state.control = .dispatching)
      (nothing : state.looper.mMessageEnvelopes.mCount = 0) :
      LooperStep state (.finish none) { state with control := .idle }

/-- What an event means for the queue of messages. -/
def LooperEvent.observe : LooperEvent H M → List (QueueEvent (MessageEnvelope H M) Int)
  | .send _ envelope => [.put envelope]
  | .dispatch _ now envelope => [.take now envelope]
  | .finish now => [.settle now]
  | .poll => []
  | .handled => []

end DroidKernal.Utils
