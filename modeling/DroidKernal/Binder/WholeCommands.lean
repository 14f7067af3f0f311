import DroidKernal.Binder.RoundTrip
import DroidKernal.Binder.WriteOutcomes

/-!
# Whole commands

`writeTransactionData` appends a command in two writes and looks at the result of neither.
So it queues whole commands only, and reports it, as long as both writes have room.
-/

namespace DroidKernal.Binder

open Lib

namespace Parcel

/-- A Parcel of the process's own, with the cursor at its end. -/
structure Queued (parcel : Parcel) : Prop where
  sound : parcel.Sound
  owner : parcel.mOwner = false
  atEnd : parcel.mDataPos = parcel.mDataSize

/-- A write of so many bytes at the cursor has room, or gets it. -/
def HasRoom (heap : Heap) (parcel : Parcel) (len : Nat) : Prop :=
  parcel.mDataCapacity < parcel.mDataPos + len →
    parcel.request len ≤ int32Max ∧ heap.data (parcel.request len) ≠ none

variable {parcel middle after : Parcel} {heap : Heap}

theorem Queued.init : initState.Queued := ⟨sound_initState, rfl, rfl⟩

theorem Queued.setError (queued : parcel.Queued) (err : Int) :
    Queued { parcel with mError := err } :=
  ⟨{ pos := queued.sound.pos, size := queued.sound.size, null := queued.sound.null
     block := queued.sound.block, objects := queued.sound.objects }, queued.owner, queued.atEnd⟩

/-- A Parcel of the process's own grows where the heap has a block for it. -/
theorem Queued.allocates_iff (queued : parcel.Queued) {len : Nat}
    (full : parcel.mDataCapacity < parcel.mDataPos + len) :
    parcel.Allocates heap (parcel.request len) ↔ heap.data (parcel.request len) ≠ none := by
  have more := (queued.sound.lt_request full).1
  simp [Allocates, queued.owner, Nat.not_le.mpr more]

theorem Queued.wrote (queued : parcel.Queued) {bytes : List UInt8} {capacity : Nat}
    (wrote : parcel.Wrote bytes after) (leaves : parcel.Leaves capacity after) : after.Queued where
  sound := leaves.sound
  owner := leaves.owner queued.owner
  atEnd := by
    have atEnd := queued.atEnd
    rw [wrote.pos, wrote.size]
    omega

theorem Wrote.trans {first second : List UInt8} (left : parcel.Wrote first middle)
    (right : middle.Wrote second after) : parcel.Wrote (first ++ second) after := by
  have middlePos := left.pos
  have middleSize := left.size
  obtain ⟨pos, size, stored, kept, objectsSize, objects⟩ := right
  rw [middlePos] at pos size stored kept
  rw [middleSize] at size kept
  rw [left.objectsSize] at objectsSize objects
  refine ⟨?_, ?_, fun i bound => ?_, fun i within outside => ?_, objectsSize, fun i within => ?_⟩
  · rw [pos, List.length_append, Nat.add_assoc]
  · rw [size, List.length_append]
    omega
  · rw [List.length_append] at bound
    rcases Nat.lt_or_ge i first.length with early | late
    · rw [kept _ (by omega) (.inl (by omega)), left.stored i early, List.getElem_append_left early]
    · have cell := stored (i - first.length) (by omega)
      rw [List.getElem_append_right late, ← cell]
      congr 1
      omega
  · rw [List.length_append] at outside
    rw [kept i (by omega) (by omega)]
    exact left.kept i within (by omega)
  · rw [objects i within]
    exact left.objects i within

/-- The bytes below the data size. -/
def HoldsBytes (parcel : Parcel) (bytes : List UInt8) : Prop :=
  parcel.mDataSize = bytes.length ∧
    ∀ i (bound : i < bytes.length), parcel.byteAt i = some bytes[i]

theorem HoldsBytes.wrote {bytes added : List UInt8} (holds : parcel.HoldsBytes bytes)
    (queued : parcel.Queued) (wrote : parcel.Wrote added after) :
    after.HoldsBytes (bytes ++ added) := by
  obtain ⟨length, held⟩ := holds
  have atEnd := queued.atEnd
  constructor
  · rw [wrote.size, List.length_append]
    omega
  · intro i bound
    rw [List.length_append] at bound
    rcases Nat.lt_or_ge i bytes.length with old | new
    · rw [wrote.kept i (by omega) (.inl (by omega)), held i old, List.getElem_append_left old]
    · have cell := wrote.stored (i - bytes.length) (by omega)
      rw [List.getElem_append_right new, ← cell]
      congr 1
      omega

/-- A write at the end of a Parcel appends all of its bytes if they have room, and leaves
the cursor where it is otherwise. -/
structure Appends (heap : Heap) (parcel : Parcel) (bytes : List UInt8) (after : Parcel) :
    Prop where
  queued : after.Queued
  outcome : parcel.HasRoom heap bytes.length ∧ parcel.Wrote bytes after ∧
      after.mDataCapacity = parcel.roomFor bytes.length ∨
    ¬ parcel.HasRoom heap bytes.length ∧ after.mDataPos = parcel.mDataPos

theorem Queued.writeAligned_appends (queued : parcel.Queued) (heap : Heap) {val : List UInt8}
    (nonempty : val ≠ []) (small : val.length ≤ int32Max) :
    ∃ outcome, parcel.writeAligned heap val = some outcome ∧
      parcel.Appends heap val outcome.parcel := by
  obtain ⟨outcome, ran, writes⟩ := queued.sound.writeAligned_writes heap nonempty small
  refine ⟨outcome, ran, ?_⟩
  cases writes with
  | stored grows wrote leaves =>
      refine ⟨queued.wrote wrote leaves, .inl ⟨fun full => ?_, wrote, leaves.capacity⟩⟩
      exact ⟨(grows full).1, (queued.allocates_iff full).mp (grows full).2⟩
  | refused full large =>
      exact ⟨queued, .inr ⟨fun room => absurd large (Nat.not_lt.mpr (room full).1), rfl⟩⟩
  | outOfMemory full _ fails =>
      refine ⟨queued.setError noMemory, .inr ⟨fun room => ?_, rfl⟩⟩
      exact fails ((queued.allocates_iff full).mpr (room full).2)

theorem Queued.write_appends (queued : parcel.Queued) (heap : Heap) {data : List UInt8}
    (nonempty : data ≠ []) (small : data.length ≤ int32Max) (aligned : 4 ∣ data.length) :
    ∃ outcome, parcel.write heap data = some outcome ∧
      parcel.Appends heap data outcome.parcel := by
  obtain ⟨outcome, ran, writes⟩ := queued.sound.write_writes heap nonempty small
  have padded := padSize_of_dvd small aligned
  refine ⟨outcome, ran, ?_⟩
  cases writes with
  | stored _ grows wrote leaves =>
      rw [padded] at grows leaves
      rw [padding_of_dvd small aligned, List.append_nil] at wrote
      refine ⟨queued.wrote wrote leaves, .inl ⟨fun full => ?_, wrote, leaves.capacity⟩⟩
      exact ⟨(grows full).1, (queued.allocates_iff full).mp (grows full).2⟩
  | refused full large =>
      rw [padded] at full large
      exact ⟨queued, .inr ⟨fun room => by have limit := room full; omega, rfl⟩⟩
  | outOfMemory _ full _ fails =>
      rw [padded] at full fails
      refine ⟨queued.setError noMemory, .inr ⟨fun room => ?_, rfl⟩⟩
      exact fails ((queued.allocates_iff full).mpr (room full).2)
  | unfinished large _ =>
      rw [padded] at large
      exact absurd small (Nat.not_le.mpr large)

end Parcel

/-- A Parcel has room for a command word, and after it for the record. -/
def RoomForCommand (uapi : BinderUapi) (heaps : CallHeaps) (mOut : Parcel) : Prop :=
  let size := mOut.mDataSize + FlatRecord.uint32.size + uapi.transactionData.size
  mOut.HasRoom heaps.writeCmd FlatRecord.uint32.size ∧
    (mOut.roomFor FlatRecord.uint32.size < size →
      size * 3 / 2 ≤ int32Max ∧ heaps.writeTr.data (size * 3 / 2) ≠ none)

/-- The two writes append a whole command, or move the cursor by less. -/
theorem appendTransaction_queues (uapi : BinderUapi) (heaps : CallHeaps) {thread : IPCThreadState}
    (queued : thread.mOut.Queued) (cmd : Int32) (tr : BinderTransactionData) :
    ∃ mOut, appendTransaction uapi heaps thread cmd tr = some { thread with mOut } ∧
      mOut.Queued ∧
      (RoomForCommand uapi heaps thread.mOut ∧
          thread.mOut.Wrote (Command.bytes uapi { cmd := cmd.toUInt32, tr }) mOut ∨
        ¬ RoomForCommand uapi heaps thread.mOut ∧
          mOut.mDataPos ≠ thread.mOut.mDataPos + Command.size uapi) := by
  have recordLength := uapi.transactionData.encode_length tr
  have wordLength : (FlatRecord.int32.encode cmd).length = FlatRecord.uint32.size :=
    FlatRecord.int32.encode_length cmd
  have wordSize : FlatRecord.uint32.size = 4 := rfl
  have positive := uapi.nonempty
  have small := transactionData_small uapi
  have limit : int32Max = 2 ^ 31 - 1 := rfl
  have total : Command.size uapi = FlatRecord.uint32.size + uapi.transactionData.size := rfl
  have recordNotNil : uapi.transactionData.encode tr ≠ [] :=
    List.ne_nil_of_length_pos (by omega)
  have wordNotNil : FlatRecord.int32.encode cmd ≠ [] := List.ne_nil_of_length_pos (by omega)
  obtain ⟨word, wroteWord, wordQueued, wordOutcome⟩ :=
    queued.writeAligned_appends heaps.writeCmd wordNotNil (by omega)
  obtain ⟨record, wroteRecord, recordQueued, recordOutcome⟩ :=
    wordQueued.write_appends heaps.writeTr recordNotNil (by omega)
      (recordLength ▸ uapi.aligned)
  have ran : appendTransaction uapi heaps thread cmd tr =
      some { thread with mOut := record.parcel } := by
    simp [appendTransaction, Parcel.writeInt32, wroteWord, wroteRecord]
  rw [recordLength] at recordOutcome
  rw [wordLength] at wordOutcome
  refine ⟨record.parcel, ran, recordQueued, ?_⟩
  rcases wordOutcome with ⟨hasWord, wroteW, capacity⟩ | ⟨noWord, stays⟩
  · have atEnd := queued.atEnd
    have wordPos := wroteW.pos
    have wordLen := wroteW.size
    rw [wordLength] at wordPos wordLen
    have isSize : word.parcel.mDataSize = thread.mOut.mDataSize + FlatRecord.uint32.size := by
      omega
    have sameRoom : word.parcel.HasRoom heaps.writeTr uapi.transactionData.size ↔
        RoomForCommand uapi heaps thread.mOut := by
      rw [RoomForCommand, Parcel.HasRoom, Parcel.request, isSize, capacity, wordPos, atEnd]
      exact (and_iff_right hasWord).symm
    rcases recordOutcome with ⟨hasRecord, wroteR, _⟩ | ⟨noRecord, stays⟩
    · exact .inl ⟨sameRoom.mp hasRecord, wroteW.trans wroteR⟩
    · refine .inr ⟨fun room => noRecord (sameRoom.mpr room), ?_⟩
      rw [stays, wordPos, total]
      omega
  · refine .inr ⟨fun room => noWord room.1, ?_⟩
    rcases recordOutcome with ⟨_, wroteR, _⟩ | ⟨_, staysToo⟩
    · rw [wroteR.pos, recordLength, stays, total]
      omega
    · rw [staysToo, stays, total]
      omega

/-- The arguments of a call of `writeTransactionData`, and the outcomes of its
allocations. -/
structure QueueCall where
  cmd : Int32
  binderFlags : UInt32
  handle : Int32
  code : UInt32
  data : Parcel
  statusBuffer : Option Nat
  heaps : CallHeaps

namespace QueueCall

variable (uapi : BinderUapi)

def run (thread : IPCThreadState) (call : QueueCall) : Option WriteTransaction :=
  writeTransactionData uapi call.heaps thread call.cmd call.binderFlags call.handle call.code
    call.data call.statusBuffer

/-- The command that a call is to queue.  There is none for a Parcel with an error and no
place to report it. -/
def command (call : QueueCall) : Option Command :=
  let tr := transactionData call.binderFlags call.handle call.code call.data
  if call.data.mError = noError then some { cmd := call.cmd.toUInt32, tr }
  else call.statusBuffer.map fun buffer =>
    { cmd := call.cmd.toUInt32
      tr :=
        { tr with
          flags := call.binderFlags ||| uapi.tfStatusCode
          dataSize := 4
          buffer := UInt64.ofNat buffer
          offsetsSize := 0
          offsets := 0 } }

/-- The whole command was queued, or nothing was and an error is returned. -/
def AllOrNothing (thread : IPCThreadState) (call : QueueCall) (result : WriteTransaction) : Prop :=
  result.err = noError ∧ (∃ command, call.command uapi = some command ∧
      thread.mOut.Wrote (command.bytes uapi) result.thread.mOut) ∨
    result.err ≠ noError ∧ thread.mOut.Unchanged result.thread.mOut

/-- The call is refused for an error of its Parcel, or `mOut` has room for its command. -/
def Queues (thread : IPCThreadState) (call : QueueCall) : Prop :=
  call.command uapi ≠ none → RoomForCommand uapi call.heaps thread.mOut

/-- A call without an error of its Parcel appends its command. -/
theorem run_eq {uapi : BinderUapi} (thread : IPCThreadState) {call : QueueCall} {command : Command}
    (isCommand : call.command uapi = some command) :
    ∃ status, command.cmd = call.cmd.toUInt32 ∧
      call.run uapi thread = (appendTransaction uapi call.heaps thread call.cmd command.tr).map
        fun thread => { err := noError, thread, status } := by
  rw [QueueCall.command] at isCommand
  split at isCommand
  next errorFree =>
    cases isCommand
    refine ⟨none, rfl, ?_⟩
    simp only [run, writeTransactionData, if_pos errorFree]
    cases appendTransaction uapi call.heaps thread call.cmd
      (transactionData call.binderFlags call.handle call.code call.data) <;> rfl
  next hasError =>
    obtain ⟨buffer, isBuffer, rfl⟩ := Option.map_eq_some_iff.mp isCommand
    refine ⟨some call.data.mError, rfl, ?_⟩
    simp only [run, writeTransactionData, if_neg hasError, isBuffer]
    cases appendTransaction uapi call.heaps thread call.cmd _ <;> rfl

/-- A call with an error of its Parcel and no place to report it returns the error. -/
theorem run_refused {uapi : BinderUapi} (thread : IPCThreadState) {call : QueueCall}
    (noCommand : call.command uapi = none) :
    call.data.mError ≠ noError ∧ call.run uapi thread =
      some { err := call.data.mError, thread := { thread with mLastError := call.data.mError }
             status := none } := by
  rw [QueueCall.command] at noCommand
  split at noCommand
  next => cases noCommand
  next hasError =>
    have noBuffer := Option.map_eq_none_iff.mp noCommand
    refine ⟨hasError, ?_⟩
    simp only [run, writeTransactionData, if_neg hasError, noBuffer]
    rfl

/-- One call queues all or nothing exactly if it queues its command with room for it. -/
theorem allOrNothing_iff (uapi : BinderUapi) {thread : IPCThreadState}
    (queued : thread.mOut.Queued) (call : QueueCall) :
    ∃ result, call.run uapi thread = some result ∧ result.thread.mOut.Queued ∧
      (call.AllOrNothing uapi thread result ↔ call.Queues uapi thread) := by
  cases isCommand : call.command uapi with
  | none =>
      obtain ⟨hasError, ran⟩ := run_refused thread isCommand
      refine ⟨_, ran, queued, fun _ some => absurd isCommand some, fun _ => ?_⟩
      exact .inr ⟨hasError, .refl _⟩
  | some command =>
      obtain ⟨status, isCmd, ran⟩ := run_eq thread isCommand
      obtain ⟨mOut, appended, nextQueued, outcome⟩ :=
        appendTransaction_queues uapi call.heaps queued call.cmd command.tr
      rw [appended, Option.map_some] at ran
      refine ⟨_, ran, nextQueued, ?_⟩
      have sameCommand : ({ cmd := call.cmd.toUInt32, tr := command.tr } : Command) = command := by
        rw [← isCmd]
      rw [sameCommand] at outcome
      constructor
      · rintro (⟨_, same, isSame, wrote⟩ | ⟨fails, _⟩) _
        · obtain rfl : command = same := Option.some.inj (isCommand.symm.trans isSame)
          rcases outcome with ⟨room, _⟩ | ⟨_, moved⟩
          · exact room
          · have pos := wrote.pos
            rw [Command.bytes_length] at pos
            exact absurd pos moved
        · exact absurd rfl fails
      · intro queues
        rcases outcome with ⟨_, wrote⟩ | ⟨noRoom, _⟩
        · exact .inl ⟨rfl, command, isCommand, wrote⟩
        · exact absurd (queues (by rw [isCommand]; exact Option.some_ne_none _)) noRoom

end QueueCall

/-- `mOut` holds whole commands. -/
def IPCThreadState.Whole (uapi : BinderUapi) (thread : IPCThreadState) : Prop :=
  ∃ commands : List Command, thread.mOut.HoldsBytes (commands.flatMap (Command.bytes uapi))

/-- In calls one after the other, each is all or nothing, and leaves whole commands where
there were whole commands. -/
def StaysWhole (uapi : BinderUapi) : IPCThreadState → List QueueCall → Prop
  | _, [] => True
  | thread, call :: calls => ∃ result, call.run uapi thread = some result ∧
      call.AllOrNothing uapi thread result ∧ (thread.Whole uapi → result.thread.Whole uapi) ∧
        StaysWhole uapi result.thread calls

/-- In calls one after the other, each is refused or has room for its command. -/
def AllQueue (uapi : BinderUapi) : IPCThreadState → List QueueCall → Prop
  | _, [] => True
  | thread, call :: calls => call.Queues uapi thread ∧
      ∀ result, call.run uapi thread = some result → AllQueue uapi result.thread calls

theorem QueueCall.AllOrNothing.whole {uapi : BinderUapi} {thread : IPCThreadState}
    {call : QueueCall} {result : WriteTransaction}
    (allOrNothing : call.AllOrNothing uapi thread result) (queued : thread.mOut.Queued)
    (nextQueued : result.thread.mOut.Queued) (whole : thread.Whole uapi) :
    result.thread.Whole uapi := by
  obtain ⟨commands, holds⟩ := whole
  rcases allOrNothing with ⟨_, command, _, wrote⟩ | ⟨_, unchanged⟩
  · refine ⟨commands ++ [command], ?_⟩
    rw [List.flatMap_append, List.flatMap_singleton]
    exact holds.wrote queued wrote
  · have size := unchanged.size
    rw [nextQueued.sound.dataSize_eq, queued.sound.dataSize_eq] at size
    obtain ⟨length, held⟩ := holds
    refine ⟨commands, size.trans length, fun i bound => ?_⟩
    rw [unchanged.bytes i (by omega)]
    exact held i bound

/-- Calls of `writeTransactionData` queue whole commands or report an error, whatever
fails in them, exactly if each is refused for its Parcel or has room for its command. -/
theorem commands_whole_iff (uapi : BinderUapi) (thread : IPCThreadState) (calls : List QueueCall)
    (queued : thread.mOut.Queued) : StaysWhole uapi thread calls ↔ AllQueue uapi thread calls := by
  induction calls generalizing thread with
  | nil => exact Iff.rfl
  | cons call calls ih =>
      obtain ⟨result, ran, nextQueued, single⟩ := QueueCall.allOrNothing_iff uapi queued call
      have later := ih result.thread nextQueued
      rw [StaysWhole, AllQueue]
      constructor
      · rintro ⟨same, isSame, allOrNothing, _, stays⟩
        obtain rfl : result = same := Option.some.inj (ran.symm.trans isSame)
        refine ⟨single.mp allOrNothing, fun other isOther => ?_⟩
        obtain rfl : result = other := Option.some.inj (ran.symm.trans isOther)
        exact later.mp stays
      · rintro ⟨queues, rest⟩
        have allOrNothing := single.mpr queues
        exact ⟨result, ran, allOrNothing, allOrNothing.whole queued nextQueued,
          later.mpr (rest result ran)⟩

/-- A call with an empty Parcel. -/
def QueueCall.empty (uapi : BinderUapi) (heap : Heap) : QueueCall where
  cmd := uapi.bcTransaction.toInt32
  binderFlags := 0
  handle := 0
  code := 1
  data := .initState
  statusBuffer := none
  heaps := ⟨heap, heap, heap, heap⟩

/-- A call with a Parcel that has an error. -/
def refusedCall : QueueCall :=
  { QueueCall.empty linuxUapi .exhausted with data := { Parcel.initState with mError := noMemory } }

/-- A command is queued, and the next call is refused. -/
theorem commands_whole_refused :
    StaysWhole linuxUapi (.init 3)
      [.empty linuxUapi (Heap.fixed 4096 (by decide) (by decide)), refusedCall] := by
  let heap := Heap.fixed 4096 (by decide) (by decide)
  have room : RoomForCommand linuxUapi ⟨heap, heap, heap, heap⟩ (IPCThreadState.init 3).mOut :=
    ⟨fun _ => ⟨by decide, by decide⟩, fun _ => ⟨by decide, by decide⟩⟩
  have refused : refusedCall.command linuxUapi = none := rfl
  have queue : AllQueue linuxUapi (.init 3) [.empty linuxUapi heap, refusedCall] :=
    ⟨fun _ => room, fun _ _ => ⟨fun isCommand => absurd refused isCommand, fun _ _ => trivial⟩⟩
  exact (commands_whole_iff linuxUapi (.init 3) _ Parcel.Queued.init).mpr queue

/-- Without memory nothing is queued, and `NO_ERROR` is returned nevertheless. -/
theorem command_dropped :
    ¬ ∀ (uapi : BinderUapi) (thread : IPCThreadState) (calls : List QueueCall),
      thread.mOut.Queued → StaysWhole uapi thread calls := by
  intro claim
  obtain ⟨result, ran, allOrNothing, _⟩ := claim linuxUapi (.init 3) [.empty linuxUapi .exhausted]
    Parcel.Queued.init
  have queued : (IPCThreadState.init 3).mOut.Queued := Parcel.Queued.init
  obtain ⟨same, isSame, _, single⟩ :=
    QueueCall.allOrNothing_iff linuxUapi queued (.empty linuxUapi .exhausted)
  obtain rfl : result = same := Option.some.inj (ran.symm.trans isSame)
  have room := single.mp allOrNothing (Option.some_ne_none _)
  have full : (IPCThreadState.init 3).mOut.mDataCapacity <
      (IPCThreadState.init 3).mOut.mDataPos + FlatRecord.uint32.size := by decide
  exact (room.1 full).2 rfl

end DroidKernal.Binder
