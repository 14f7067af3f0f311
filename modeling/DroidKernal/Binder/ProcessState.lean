import DroidKernal.Utils.Contents
import DroidKernal.Utils.RefBase

/-!
# The handle table

`getStrongProxyForHandle` keeps the proxies of a process in a `Vector`, one entry for
each handle.  Every lookup is made under the lock of the `ProcessState`, and memory
does not run out.  The pointer to an entry comes from `editItemLocation`, which is
always the first one.
-/

namespace DroidKernal.Binder

open Lib Utils

/-- A `BpBinder`; its lifetime is that of the strong references to it. -/
structure BpBinder where
  mHandle : Int
  refs : RefBase

namespace BpBinder

/-- `create`. -/
def create (handle : Int) : BpBinder where
  mHandle := handle
  refs := .init

/-- `incStrong`, when the proxy is returned for the first time. -/
def incStrong (proxy : BpBinder) : BpBinder :=
  { proxy with refs := (advanceAlone .strong 4 proxy.refs ⟨.incStrongWeak true, 0, 0⟩).1 }

/-- `decStrong`. -/
def decStrong (proxy : BpBinder) : BpBinder :=
  { proxy with refs := (advanceAlone .strong 10 proxy.refs ⟨.decStrongSub, 0, 0⟩).1 }

end BpBinder

/-- A `handle_entry`; pointers are numbers of proxies. -/
structure HandleEntry where
  binder : Option Nat
  refs : Option Nat
  deriving DecidableEq, Repr

/-- A `handle_entry` declares no traits. -/
def handleEntryTraits : Traits := .nontrivial 16 (by decide)

/-- `class ProcessState`, with the proxies that were created. -/
structure ProcessState where
  mHandleToObject : VectorImpl HandleEntry
  proxies : List BpBinder

namespace ProcessState

/-- The constructor. -/
def init : ProcessState where
  mHandleToObject := .empty
  proxies := []

/-- The conversion of an `int32_t` to `size_t`. -/
def toSize (value : Int) : Nat := (value % 2 ^ 64).toNat

/-- What a lookup of an entry does: a slot, a null pointer, or an overflow of
`handle + 1`. -/
inductive Lookup where
  | slot (i : Nat)
  | null
  | overflow
  deriving DecidableEq, Repr

/-- `lookupHandleLocked`. -/
def lookupHandleLocked (heap : Utils.Heap) (table : VectorImpl HandleEntry) (handle : Int) :
    Lookup × VectorImpl HandleEntry :=
  let find (table : VectorImpl HandleEntry) : Lookup × VectorImpl HandleEntry :=
    match table.editItemLocation (toSize handle) with
    | some i => (.slot i, table)
    | none => (.null, table)
  let n := table.mCount
  if n ≤ toSize handle then
    if handle = 2 ^ 31 - 1 then (.overflow, table)
    else
      let entry : HandleEntry := { binder := none, refs := none }
      let (err, table) :=
        table.insertAt handleEntryTraits heap entry n (sizeSub (toSize (handle + 1)) n)
      if wrapInt32 err < 0 then (.null, table) else find table
  else find table

/-- What a call does: it returns a proxy or a null pointer, or it uses memory that it
must not use, or overflows. -/
inductive Answer where
  | proxy (pointer : Nat) (mHandle : Int)
  | null
  | fault
  deriving DecidableEq, Repr

/-- A new proxy, stored in an entry and returned. -/
def createProxy (process : ProcessState) (handle : Int) (i : Nat) : Answer × ProcessState :=
  let proxy := process.proxies.length
  let entry : HandleEntry := { binder := some proxy, refs := some proxy }
  (.proxy proxy handle,
    { mHandleToObject := process.mHandleToObject.store i entry
      proxies := process.proxies ++ [(BpBinder.create handle).incStrong] })

/-- `getStrongProxyForHandle`. -/
def getStrongProxyForHandle (process : ProcessState) (handle : Int) : Answer × ProcessState :=
  match lookupHandleLocked (fun _ => true) process.mHandleToObject handle with
  | (.overflow, _) => (.fault, process)
  | (.null, mHandleToObject) => (.null, { process with mHandleToObject })
  | (.slot i, mHandleToObject) =>
      let process := { process with mHandleToObject }
      match mHandleToObject.slot i with
      | none => (.fault, process)
      | some { binder := none, refs := _ } => process.createProxy handle i
      | some { binder := some _, refs := none } => (.fault, process)
      | some { binder := some _, refs := some pointer } =>
          match process.proxies[pointer]? with
          | none => (.fault, process)
          | some proxy =>
              let (refs, success) := proxy.refs.attemptIncWeak
              let process :=
                { process with proxies := process.proxies.set pointer { proxy with refs } }
              if refs.strayImpl then (.fault, process)
              -- the branch of the source that is still to be written returns null
              else if success then (.null, process)
              else process.createProxy handle i

/-- The proxy in the entry of a handle. -/
def entryOf (process : ProcessState) (handle : Int) : Option Nat :=
  if toSize handle < process.mHandleToObject.mCount then
    (process.mHandleToObject.slot (toSize handle)).bind HandleEntry.binder
  else none

end ProcessState

/-! ## Sequences of calls -/

/-- The process and the results of calls that the callers still hold. -/
structure TableState where
  process : ProcessState
  held : List Nat

/-- A call for a handle with its answer, or the end of the reference that a call
returned. -/
inductive TableEvent where
  | get (handle : Int) (answer : ProcessState.Answer)
  | drop (pointer : Nat)
  deriving DecidableEq, Repr

/-- What the caller of `getStrongProxyForHandle` holds then. -/
def ProcessState.Answer.held : ProcessState.Answer → List Nat
  | .proxy pointer _ => [pointer]
  | _ => []

/-- The steps of a process that gets and drops proxies. -/
inductive TableStep : TableState → TableEvent → TableState → Prop where
  | get {state : TableState} {handle : Int} {answer : ProcessState.Answer} {next : ProcessState}
      (nonneg : 0 ≤ handle) (isInt32 : handle < 2 ^ 31)
      (got : state.process.getStrongProxyForHandle handle = (answer, next)) :
      TableStep state (.get handle answer)
        { process := next, held := state.held ++ answer.held }
  | drop {state : TableState} {pointer : Nat} (holds : pointer ∈ state.held) :
      TableStep state (.drop pointer)
        { process := { state.process with
            proxies := state.process.proxies.modify pointer BpBinder.decStrong }
          held := state.held.erase pointer }

/-- A process that has made no call. -/
def TableState.init : TableState where
  process := .init
  held := []

end DroidKernal.Binder
