import DroidKernal.Binder.Uapi
import DroidKernal.Lib.Run
import DroidKernal.Lib.Threads

/-!
# The log of transactions

`binder_transaction_log_add` and the stores that `binder_transaction` makes into the
entry it returns.  There is no lock: a thread takes a place in the ring by an atomic
increment and then fills its entry in, store by store, while others do the same.  What
the transaction finds on the way, the target of the lookup and the outcome of the
allocation, is part of the call; a thread that is killed makes no further stores.
-/

namespace DroidKernal.Binder

open Lib

/-- `ARRAY_SIZE(log->entry)`. -/
def logEntryCount : Nat := 32

/-- `BINDERFS_MAX_NAME`. -/
def contextNameMax : Nat := 255

/-- `struct binder_transaction_log_entry`. -/
structure BinderTransactionLogEntry where
  debugId : Int32
  debugIdDone : Int32
  callType : Int32
  fromProc : Int32
  fromThread : Int32
  targetHandle : Int32
  toProc : Int32
  toThread : Int32
  toNode : Int32
  dataSize : Int32
  offsetsSize : Int32
  returnErrorLine : Int32
  returnError : UInt32
  returnErrorParam : UInt32
  contextName : List UInt8
  deriving DecidableEq, Repr

/-- An entry of zero bytes. -/
def BinderTransactionLogEntry.zeroed : BinderTransactionLogEntry where
  debugId := 0
  debugIdDone := 0
  callType := 0
  fromProc := 0
  fromThread := 0
  targetHandle := 0
  toProc := 0
  toThread := 0
  toNode := 0
  dataSize := 0
  offsetsSize := 0
  returnErrorLine := 0
  returnError := 0
  returnErrorParam := 0
  contextName := []

/-- `struct binder_transaction_log`. -/
structure BinderTransactionLog where
  cur : UInt32
  full : Bool
  entry : Nat → BinderTransactionLogEntry

/-- The log after `binder_init`. -/
def BinderTransactionLog.init : BinderTransactionLog where
  cur := 0xFFFFFFFF
  full := false
  entry := fun _ => .zeroed

/-- A call of `binder_transaction`, as far as the log shows it.  `target` holds the
`debug_id` of the manager's node and the `pid` of its process, where the lookup gets that
far; `allocated` says whether there is memory for the transaction. -/
structure LoggedCall where
  reply : Bool
  tr : BinderTransactionData
  fromProc : Int32
  fromThread : Int32
  contextName : List UInt8
  target : Option (Int32 × Int32)
  allocated : Bool

/-- A store into an entry. -/
inductive LogStore where
  /-- `WRITE_ONCE(e->debug_id_done, 0)` -/
  | undone
  /-- `memset(e, 0, sizeof(*e))` -/
  | clear
  | debugId (id : Int32)
  | callType (type : Int32)
  | fromProc (pid : Int32)
  | fromThread (pid : Int32)
  | targetHandle (handle : Int32)
  | dataSize (size : Int32)
  | offsetsSize (size : Int32)
  | contextName (name : List UInt8)
  | toNode (id : Int32)
  | toProc (pid : Int32)
  /-- `WRITE_ONCE(e->debug_id_done, t_debug_id)` -/
  | done (id : Int32)
  deriving DecidableEq, Repr

namespace LogStore

/-- The entry after a store. -/
def apply (entry : BinderTransactionLogEntry) : LogStore → BinderTransactionLogEntry
  | .undone => { entry with debugIdDone := 0 }
  | .clear => .zeroed
  | .debugId id => { entry with debugId := id }
  | .callType type => { entry with callType := type }
  | .fromProc pid => { entry with fromProc := pid }
  | .fromThread pid => { entry with fromThread := pid }
  | .targetHandle handle => { entry with targetHandle := handle }
  | .dataSize size => { entry with dataSize := size }
  | .offsetsSize size => { entry with offsetsSize := size }
  | .contextName name => { entry with contextName := name }
  | .toNode id => { entry with toNode := id }
  | .toProc pid => { entry with toProc := pid }
  | .done id => { entry with debugIdDone := id }

/-- The entry after some stores. -/
def applyAll (entry : BinderTransactionLogEntry) (stores : List LogStore) :
    BinderTransactionLogEntry :=
  stores.foldl apply entry

end LogStore

namespace LoggedCall

variable (uapi : BinderUapi) (call : LoggedCall)

/-- `reply ? 2 : !!(tr->flags & TF_ONE_WAY)`. -/
def callType : Int32 :=
  if call.reply then 2 else if call.tr.flags &&& uapi.tfOneWay ≠ 0 then 1 else 0

/-- The target, which only a transaction to handle 0 looks for. -/
def found : Option (Int32 × Int32) :=
  if call.reply ∨ call.tr.handle ≠ 0 then none else call.target

/-- Whether the call gets to its end. -/
def returns : Bool := call.found.isSome && call.allocated

/-- The stores between `binder_transaction_log_add` and the lookup. -/
def enterStores (id : Int32) : List LogStore :=
  [.undone, .clear, .debugId id, .callType (call.callType uapi), .fromProc call.fromProc,
    .fromThread call.fromThread, .targetHandle call.tr.handle.toInt32,
    .dataSize call.tr.dataSize.toUInt32.toInt32,
    .offsetsSize call.tr.offsetsSize.toUInt32.toInt32,
    .contextName (strscpy call.contextName contextNameMax)]

/-- The stores after it.  A null pointer stops the thread: the node of the target, then
its process, then the transaction. -/
def leaveStores (id : Int32) : List LogStore :=
  match call.found with
  | none => []
  | some (node, proc) =>
      .toNode node :: .toProc proc :: if call.allocated then [.done id] else []

/-- All stores of a call, in order. -/
def stores (id : Int32) : List LogStore := call.enterStores uapi id ++ call.leaveStores id

/-- The entry that a call leaves behind. -/
def entry (id : Int32) : BinderTransactionLogEntry where
  debugId := id
  debugIdDone := if call.returns then id else 0
  callType := call.callType uapi
  fromProc := call.fromProc
  fromThread := call.fromThread
  targetHandle := call.tr.handle.toInt32
  toProc := (call.found.map Prod.snd).getD 0
  toThread := 0
  toNode := (call.found.map Prod.fst).getD 0
  dataSize := call.tr.dataSize.toUInt32.toInt32
  offsetsSize := call.tr.offsetsSize.toUInt32.toInt32
  returnErrorLine := 0
  returnError := 0
  returnErrorParam := 0
  contextName := strscpy call.contextName contextNameMax

end LoggedCall

/-- Where a thread is in `binder_transaction`, as far as the log is concerned. -/
inductive LogWriter where
  | idle
  /-- has its `t_debug_id` -/
  | numbered (call : LoggedCall) (id : Int32)
  /-- has its value of `log->cur`, and is about to look whether the log is full -/
  | counted (call : LoggedCall) (id : Int32) (cur : UInt32)
  /-- has these stores into its entry left -/
  | storing (slot : Nat) (todo : List LogStore)

/-- The index of the entry a thread fills in. -/
def LogWriter.slot : LogWriter → Option Nat
  | .idle | .numbered _ _ => none
  | .counted _ _ cur => some (cur.toNat % logEntryCount)
  | .storing slot _ => some slot

/-- What the threads share: `binder_last_id` and the log. -/
structure LogShared where
  lastId : Int32
  log : BinderTransactionLog

/-- Threads in the middle of transactions. -/
abbrev LogSystem (ι : Type*) := Threads ι LogShared LogWriter

variable {ι : Type*} [DecidableEq ι]

/-- No transaction has been made. -/
def LogSystem.init (ι : Type*) : LogSystem ι where
  shared := { lastId := 0, log := .init }
  threads := fun _ => .idle

/-- One thread moves on. -/
def LogSystem.move (system : LogSystem ι) (thread : ι) (shared : LogShared)
    (writer : LogWriter) : LogSystem ι where
  shared
  threads := Function.update system.threads thread writer

/-- A step of a thread. -/
inductive LogEvent (ι : Type*) where
  | starts (thread : ι) (call : LoggedCall)
  | claims (thread : ι) (call : LoggedCall) (id : Int32)
  | checks (thread : ι)
  | stores (thread : ι) (store : LogStore)
  | ends (thread : ι)

/-- The statements of `binder_transaction` and `binder_transaction_log_add` that touch
what is shared. -/
inductive LogStep (uapi : BinderUapi) : LogSystem ι → LogEvent ι → LogSystem ι → Prop where
  /-- `atomic_inc_return(&binder_last_id)` -/
  | starts {system : LogSystem ι} {thread : ι} (idle : system.threads thread = .idle)
      (call : LoggedCall) :
      LogStep uapi system (.starts thread call)
        (system.move thread { system.shared with lastId := system.shared.lastId + 1 }
          (.numbered call (system.shared.lastId + 1)))
  /-- `atomic_inc_return(&log->cur)` -/
  | claims {system : LogSystem ι} {thread : ι} {call : LoggedCall} {id : Int32}
      (place : system.threads thread = .numbered call id) :
      LogStep uapi system (.claims thread call id)
        (system.move thread
          { system.shared with
            log := { system.shared.log with cur := system.shared.log.cur + 1 } }
          (.counted call id (system.shared.log.cur + 1)))
  /-- `if (cur >= ARRAY_SIZE(log->entry)) log->full = true` -/
  | checks {system : LogSystem ι} {thread : ι} {call : LoggedCall} {id : Int32} {cur : UInt32}
      (place : system.threads thread = .counted call id cur) :
      LogStep uapi system (.checks thread)
        (system.move thread
          { system.shared with
            log := { system.shared.log with
              full := system.shared.log.full || logEntryCount ≤ cur.toNat } }
          (.storing (cur.toNat % logEntryCount) (call.stores uapi id)))
  | stores {system : LogSystem ι} {thread : ι} {slot : Nat} {store : LogStore}
      {todo : List LogStore} (place : system.threads thread = .storing slot (store :: todo)) :
      LogStep uapi system (.stores thread store)
        (system.move thread
          { system.shared with
            log := { system.shared.log with
              entry := Function.update system.shared.log.entry slot
                (store.apply (system.shared.log.entry slot)) } }
          (.storing slot todo))
  | ends {system : LogSystem ι} {thread : ι} {slot : Nat}
      (place : system.threads thread = .storing slot []) :
      LogStep uapi system (.ends thread) (system.move thread system.shared .idle)

/-- The calls that have taken a place in the log, in the order of their places. -/
def claimed (events : List (LogEvent ι)) : List (ι × LoggedCall × Int32) :=
  events.filterMap fun
    | .claims thread call id => some (thread, call, id)
    | _ => none

end DroidKernal.Binder
