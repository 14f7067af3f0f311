import DroidKernal.Binder.ThreadWrite

/-!
# What the command loop accepts

A write buffer is read as a sequence of complete known commands, up to the first thing
that is not one.  `binder_thread_write` executes these commands, but its `switch` has no
`default`, and it looks for the end of the buffer only before a command word.  So it skips
an unsupported word as if it were a command without a record, and fetches a truncated
command from behind the buffer.
-/

namespace DroidKernal.Binder

open Lib

/-- Why a buffer has no further complete known command: it ends, its memory cannot be
read, a word is unsupported, or a word or a record is cut off by the end.  The address is
that of the cut part, or of the byte behind the unsupported word. -/
inductive Ending where
  | complete
  | unmapped
  | unsupported (next : Nat)
  | truncatedWord (addr : Nat)
  | truncatedRecord (addr : Nat)

section Parse

variable (uapi : BinderUapi) (memory : UserMemory)

/-- The complete known commands from an address on, and what follows them. -/
def parseCommands (finish : Nat) : Nat → Nat → List Command × Ending
  | 0, _ => ([], .complete)
  | fuel + 1, addr =>
      let body := addr + FlatRecord.uint32.size
      if finish ≤ addr then ([], .complete)
      else if finish < body then ([], .truncatedWord addr)
      else
        match memory.getUser addr with
        | none => ([], .unmapped)
        | some cmd =>
            if cmd = uapi.bcTransaction ∨ cmd = uapi.bcReply then
              if finish < body + uapi.transactionData.size then ([], .truncatedRecord body)
              else
                match memory.copyFromUser body uapi.transactionData.size with
                | none => ([], .unmapped)
                | some bytes =>
                    let tr := uapi.transactionData.decode bytes
                    let (rest, ending) :=
                      parseCommands finish fuel (body + uapi.transactionData.size)
                    ({ cmd, tr } :: rest, ending)
            else ([], .unsupported body)

/-- The commands from an address on, one case for each thing that can be there. -/
inductive Parsed (finish : Nat) : Nat → List Command → Ending → Prop where
  | complete {addr : Nat} (atEnd : finish ≤ addr) : Parsed finish addr [] .complete
  | truncatedWord {addr : Nat} (inside : addr < finish)
      (cut : finish < addr + FlatRecord.uint32.size) : Parsed finish addr [] (.truncatedWord addr)
  | unmappedWord {addr : Nat} (within : addr + FlatRecord.uint32.size ≤ finish)
      (unmapped : memory.getUser addr = none) : Parsed finish addr [] .unmapped
  | unsupported {addr : Nat} {cmd : UInt32} (within : addr + FlatRecord.uint32.size ≤ finish)
      (word : memory.getUser addr = some cmd)
      (unknown : ¬ (cmd = uapi.bcTransaction ∨ cmd = uapi.bcReply)) :
      Parsed finish addr [] (.unsupported (addr + FlatRecord.uint32.size))
  | truncatedRecord {addr : Nat} {cmd : UInt32} (within : addr + FlatRecord.uint32.size ≤ finish)
      (word : memory.getUser addr = some cmd)
      (known : cmd = uapi.bcTransaction ∨ cmd = uapi.bcReply)
      (cut : finish < addr + FlatRecord.uint32.size + uapi.transactionData.size) :
      Parsed finish addr [] (.truncatedRecord (addr + FlatRecord.uint32.size))
  | unmappedRecord {addr : Nat} {cmd : UInt32}
      (within : addr + FlatRecord.uint32.size + uapi.transactionData.size ≤ finish)
      (word : memory.getUser addr = some cmd)
      (known : cmd = uapi.bcTransaction ∨ cmd = uapi.bcReply)
      (unmapped : memory.copyFromUser (addr + FlatRecord.uint32.size)
        uapi.transactionData.size = none) : Parsed finish addr [] .unmapped
  | command {addr : Nat} {cmd : UInt32} {bytes : List UInt8} {commands : List Command}
      {ending : Ending}
      (within : addr + FlatRecord.uint32.size + uapi.transactionData.size ≤ finish)
      (word : memory.getUser addr = some cmd)
      (known : cmd = uapi.bcTransaction ∨ cmd = uapi.bcReply)
      (record : memory.copyFromUser (addr + FlatRecord.uint32.size)
        uapi.transactionData.size = some bytes)
      (rest : Parsed finish (addr + FlatRecord.uint32.size + uapi.transactionData.size) commands
        ending) :
      Parsed finish addr ({ cmd, tr := uapi.transactionData.decode bytes } :: commands) ending

/-- Something that is not a complete known command is met. -/
def Ending.Offends : Ending → Prop
  | .complete => False
  | .unmapped => False
  | .unsupported _ => True
  | .truncatedWord _ => True
  | .truncatedRecord _ => True

/-- Where the loop fetches next, the memory cannot be read. -/
def Ending.Unfetchable (finish : Nat) : Ending → Prop
  | .complete => True
  | .unmapped => True
  | .unsupported next => next < finish ∧ memory.getUser next = none
  | .truncatedWord addr => memory.getUser addr = none
  | .truncatedRecord addr => memory.copyFromUser addr uapi.transactionData.size = none

variable {D : Type} (binderTransaction : D → BinderTransactionData → Bool → KernelResult D)

/-- A run reads within bounds, executes the complete known commands up to a fault of the
kernel, and fails at anything else, without reading what follows an unsupported word. -/
structure Accepts (start finish : Nat) (commands : List Command) (ending : Ending) (state : D)
    (run : ThreadWrite D) : Prop where
  reads : ∀ range ∈ run.reads, start ≤ range.1 ∧ range.1 + range.2 ≤ finish
  executes : run.state = (execute uapi binderTransaction state commands).state
  faults : run.fault = (execute uapi binderTransaction state commands).fault
  rejects : run.fault = none → ending.Offends → run.ret < 0
  stops : run.fault = none → ∀ next, ending = .unsupported next →
    ∀ range ∈ run.reads, range.1 + range.2 ≤ next

variable (thread : BinderThread)

variable {uapi memory binderTransaction thread}

theorem Accepts.cons_iff {start finish : Nat} {commands : List Command} {ending : Ending}
    {state : D} {run : ThreadWrite D} {command : Command} {addr : Nat} (inside : start ≤ addr)
    (within : addr + FlatRecord.uint32.size + uapi.transactionData.size ≤ finish)
    (later : ∀ next, ending = .unsupported next →
      addr + FlatRecord.uint32.size + uapi.transactionData.size ≤ next)
    (goesOn : (binderTransaction state command.tr (command.cmd == uapi.bcReply)).fault = none) :
    Accepts uapi binderTransaction start finish (command :: commands) ending state
        ((run.after (addr + FlatRecord.uint32.size) uapi.transactionData.size).after addr
          FlatRecord.uint32.size) ↔
      Accepts uapi binderTransaction start finish commands ending
        (binderTransaction state command.tr (command.cmd == uapi.bcReply)).state run := by
  have executes : execute uapi binderTransaction state (command :: commands) =
      execute uapi binderTransaction
        (binderTransaction state command.tr (command.cmd == uapi.bcReply)).state commands := by
    rw [execute, goesOn]
    rfl
  constructor
  · intro accepts
    refine ⟨fun range member => ?_, ?_, ?_, accepts.rejects,
      fun done next isNext range member => ?_⟩
    · exact accepts.reads range (List.mem_cons_of_mem _ (List.mem_cons_of_mem _ member))
    · rw [← executes]
      exact accepts.executes
    · rw [← executes]
      exact accepts.faults
    · exact accepts.stops done next isNext range
        (List.mem_cons_of_mem _ (List.mem_cons_of_mem _ member))
  · intro accepts
    refine ⟨fun range member => ?_, ?_, ?_, accepts.rejects,
      fun done next isNext range member => ?_⟩
    · rcases List.mem_cons.mp member with rfl | member
      · exact ⟨inside, by simp only; omega⟩
      · rcases List.mem_cons.mp member with rfl | member
        · exact ⟨by simp only; omega, within⟩
        · exact accepts.reads range member
    · rw [executes]
      exact accepts.executes
    · rw [executes]
      exact accepts.faults
    · have far := later next isNext
      rcases List.mem_cons.mp member with rfl | member
      · simp only
        omega
      · rcases List.mem_cons.mp member with rfl | member
        · exact far
        · exact accepts.stops done next isNext range member

theorem parseCommands_parsed {finish addr : Nat} (fuel : Nat) (enough : finish - addr ≤ fuel) :
    Parsed uapi memory finish addr (parseCommands uapi memory finish fuel addr).1
      (parseCommands uapi memory finish fuel addr).2 := by
  induction fuel generalizing addr with
  | zero => exact .complete (Nat.sub_eq_zero_iff_le.mp (Nat.le_zero.mp enough))
  | succ fuel ih =>
      rw [parseCommands]
      split
      next atEnd => exact .complete atEnd
      next notEnd =>
        split
        next cut => exact .truncatedWord (Nat.lt_of_not_le notEnd) cut
        next whole =>
          have within := Nat.le_of_not_lt whole
          cases word : memory.getUser addr with
          | none => exact .unmappedWord within word
          | some cmd =>
              simp only
              split
              next known =>
                split
                next cut => exact .truncatedRecord within word known cut
                next whole =>
                  have within := Nat.le_of_not_lt whole
                  cases record : memory.copyFromUser (addr + FlatRecord.uint32.size)
                      uapi.transactionData.size with
                  | none => exact .unmappedRecord within word known record
                  | some bytes =>
                      have positive := uapi.nonempty
                      exact .command within word known record (ih (by omega))
              next unknown => exact .unsupported within word unknown

/-- What follows an unsupported word is not before the start. -/
theorem Parsed.le_of_unsupported {finish addr next : Nat} {commands : List Command}
    {ending : Ending} (parsed : Parsed uapi memory finish addr commands ending)
    (isNext : ending = .unsupported next) : addr ≤ next := by
  induction parsed with
  | unsupported =>
      cases isNext
      exact Nat.le_add_right _ _
  | command _ _ _ _ _ ih =>
      have later := ih isNext
      omega
  | complete | truncatedWord | unmappedWord | truncatedRecord | unmappedRecord => cases isNext

/-- Nothing is read or executed. -/
theorem Accepts.nothing {start finish : Nat} {ending : Ending} {state : D} {ret : Int}
    (rejects : ending.Offends → ret < 0) :
    Accepts uapi binderTransaction start finish [] ending state
      { ret, state, fault := none, reads := [] } where
  reads := by simp
  executes := rfl
  faults := rfl
  rejects := fun _ => rejects
  stops := by simp

theorem threadWriteLoop_exits {finish fuel addr : Nat} (atEnd : finish ≤ addr) (state : D) :
    threadWriteLoop uapi binderTransaction memory thread finish fuel addr state =
      { ret := 0, state, fault := none, reads := [] } := by
  cases fuel with
  | zero => rfl
  | succ fuel => rw [threadWriteLoop, if_neg fun both => Nat.not_lt.mpr atEnd both.1]

/-- A word that cannot be fetched ends the loop. -/
theorem threadWriteLoop_unmapped (ready : thread.returnErrorCmd = uapi.brOk)
    {finish fuel addr : Nat} (inside : addr < finish) (enough : finish - addr ≤ fuel)
    (unmapped : memory.getUser addr = none) (state : D) :
    threadWriteLoop uapi binderTransaction memory thread finish fuel addr state =
      { ret := -EFAULT, state, fault := none, reads := [] } := by
  obtain ⟨fuel, rfl⟩ : ∃ rest, fuel = rest + 1 := ⟨fuel - 1, by omega⟩
  rw [threadWriteLoop, if_pos ⟨inside, ready⟩, unmapped]

/-- A word that is fetched is read. -/
theorem threadWriteLoop_reads
    (binderTransaction : D → BinderTransactionData → Bool → KernelResult D)
    (ready : thread.returnErrorCmd = uapi.brOk)
    {finish fuel addr : Nat} (inside : addr < finish) (enough : finish - addr ≤ fuel)
    {cmd : UInt32} (word : memory.getUser addr = some cmd) (state : D) :
    (addr, FlatRecord.uint32.size) ∈
      (threadWriteLoop uapi binderTransaction memory thread finish fuel addr state).reads := by
  obtain ⟨fuel, rfl⟩ : ∃ rest, fuel = rest + 1 := ⟨fuel - 1, by omega⟩
  rw [threadWriteLoop, if_pos ⟨inside, ready⟩, word]
  exact List.mem_cons_self

/-- The loop accepts what is left of a buffer exactly if a fault of the kernel ends it, or
it never meets anything else than complete known commands that it can read on from. -/
theorem threadWriteLoop_accepts_iff (ready : thread.returnErrorCmd = uapi.brOk)
    {start finish fuel addr : Nat} (inside : start ≤ addr) (enough : finish - addr ≤ fuel)
    (state : D) {commands : List Command} {ending : Ending}
    (parsed : Parsed uapi memory finish addr commands ending) :
    Accepts uapi binderTransaction start finish commands ending state
        (threadWriteLoop uapi binderTransaction memory thread finish fuel addr state) ↔
      (execute uapi binderTransaction state commands).fault.isSome ∨
        ending.Unfetchable uapi memory finish := by
  have wordSize : 0 < FlatRecord.uint32.size := by decide
  have fails : -EFAULT < 0 := by decide
  induction parsed generalizing fuel state with
  | complete atEnd =>
      rw [threadWriteLoop_exits atEnd]
      exact ⟨fun _ => .inr trivial, fun _ => .nothing fun offends => offends.elim⟩
  | @truncatedWord addr within cut =>
      cases word : memory.getUser addr with
      | none =>
          rw [threadWriteLoop_unmapped ready within enough word]
          exact ⟨fun _ => .inr word, fun _ => .nothing fun _ => fails⟩
      | some cmd =>
          have isRead := threadWriteLoop_reads binderTransaction ready within enough word state
          constructor
          · intro accepts
            exact absurd (accepts.reads _ isRead).2 (Nat.not_le.mpr cut)
          · rintro (faults | unfetchable)
            · cases faults
            · rw [Ending.Unfetchable, word] at unfetchable
              cases unfetchable
  | unmappedWord within unmapped =>
      rw [threadWriteLoop_unmapped ready (by omega) enough unmapped]
      exact ⟨fun _ => .inr trivial, fun _ => .nothing fun _ => fails⟩
  | @unsupported addr cmd within word unknown =>
      obtain ⟨fuel, rfl⟩ : ∃ rest, fuel = rest + 1 := ⟨fuel - 1, by omega⟩
      rw [threadWriteLoop, if_pos ⟨by omega, ready⟩]
      simp only [word, if_neg unknown]
      rcases Nat.lt_or_ge (addr + FlatRecord.uint32.size) finish with more | atEnd
      · cases next : memory.getUser (addr + FlatRecord.uint32.size) with
        | none =>
            rw [threadWriteLoop_unmapped ready more (by omega) next]
            refine ⟨fun _ => .inr ⟨more, next⟩, fun _ => ⟨?_, rfl, rfl, fun _ _ => fails, ?_⟩⟩
            · intro range member
              cases List.mem_singleton.mp member
              exact ⟨inside, within⟩
            · intro _ next isNext range member
              cases isNext
              cases List.mem_singleton.mp member
              exact Nat.le_refl _
        | some other =>
            have isRead := threadWriteLoop_reads binderTransaction ready more
              (Nat.le_of_lt_succ (Nat.lt_of_lt_of_le (by omega) enough)) next state
            constructor
            · intro accepts
              have ends : (threadWriteLoop uapi binderTransaction memory thread finish fuel
                  (addr + FlatRecord.uint32.size) state).fault = none := accepts.faults
              have tooFar := accepts.stops ends _ rfl _ (List.mem_cons_of_mem _ isRead)
              simp only at tooFar
              omega
            · rintro (faults | ⟨_, unfetchable⟩)
              · cases faults
              · rw [next] at unfetchable
                cases unfetchable
      · rw [threadWriteLoop_exits atEnd]
        constructor
        · intro accepts
          exact absurd (accepts.rejects rfl trivial) (by simp [ThreadWrite.after])
        · rintro (faults | ⟨more, _⟩)
          · cases faults
          · exact absurd more (Nat.not_lt.mpr atEnd)
  | @truncatedRecord addr cmd within word known cut =>
      obtain ⟨fuel, rfl⟩ : ∃ rest, fuel = rest + 1 := ⟨fuel - 1, by omega⟩
      rw [threadWriteLoop, if_pos ⟨by omega, ready⟩]
      simp only [word, if_pos known]
      cases record : memory.copyFromUser (addr + FlatRecord.uint32.size)
          uapi.transactionData.size with
      | none =>
          refine ⟨fun _ => .inr record, fun _ => ⟨?_, rfl, rfl, fun _ _ => fails, ?_⟩⟩
          · intro range member
            cases List.mem_singleton.mp member
            exact ⟨inside, within⟩
          · intro _ next isNext
            cases isNext
      | some bytes =>
          constructor
          · intro accepts
            have beyond := (accepts.reads (addr + FlatRecord.uint32.size, uapi.transactionData.size)
              (List.mem_cons_of_mem _ List.mem_cons_self)).2
            exact absurd beyond (Nat.not_le.mpr cut)
          · rintro (faults | unfetchable)
            · cases faults
            · rw [Ending.Unfetchable, record] at unfetchable
              cases unfetchable
  | @unmappedRecord addr cmd within word known unmapped =>
      obtain ⟨fuel, rfl⟩ : ∃ rest, fuel = rest + 1 := ⟨fuel - 1, by omega⟩
      rw [threadWriteLoop, if_pos ⟨by omega, ready⟩]
      simp only [word, if_pos known, unmapped]
      refine ⟨fun _ => .inr trivial, fun _ => ⟨?_, rfl, rfl, fun _ _ => fails, ?_⟩⟩
      · intro range member
        cases List.mem_singleton.mp member
        exact ⟨inside, by simp only; omega⟩
      · intro _ next isNext
        cases isNext
  | @command addr cmd bytes commands ending within word known record rest ih =>
      obtain ⟨fuel, rfl⟩ : ∃ rest, fuel = rest + 1 := ⟨fuel - 1, by omega⟩
      rw [threadWriteLoop, if_pos ⟨by omega, ready⟩]
      simp only [word, if_pos known, record]
      cases faults : (binderTransaction state (uapi.transactionData.decode bytes)
          (cmd == uapi.bcReply)).fault with
      | none =>
          have executes : execute uapi binderTransaction state
              ({ cmd, tr := uapi.transactionData.decode bytes } :: commands) =
                execute uapi binderTransaction (binderTransaction state
                  (uapi.transactionData.decode bytes) (cmd == uapi.bcReply)).state commands := by
            rw [execute, faults]
            rfl
          have goesOn := @ih fuel (by omega) (by omega)
            (binderTransaction state (uapi.transactionData.decode bytes)
              (cmd == uapi.bcReply)).state
          rw [executes]
          simp only [Option.isSome_none, Bool.false_eq_true, if_false]
          exact (Accepts.cons_iff inside within (fun _ => rest.le_of_unsupported) faults).trans
            goesOn
      | some fault =>
          have stops : execute uapi binderTransaction state
              ({ cmd, tr := uapi.transactionData.decode bytes } :: commands) =
                binderTransaction state (uapi.transactionData.decode bytes)
                  (cmd == uapi.bcReply) := by
            rw [execute, faults]
            rfl
          rw [stops, faults]
          refine ⟨fun _ => .inl rfl, fun _ => ⟨?_, ?_, ?_, fun done => ?_, fun done => ?_⟩⟩
          · intro range member
            simp only [ThreadWrite.after, Option.isSome_some, if_true, List.mem_cons,
              List.not_mem_nil, or_false] at member
            rcases member with rfl | rfl
            · exact ⟨inside, by simp only; omega⟩
            · exact ⟨by simp only; omega, within⟩
          · rw [stops]
            rfl
          · rw [stops, faults]
            rfl
          · cases done
          · cases done

end Parse

/-- `binder_thread_write` of a buffer does what the parse of the buffer says. -/
def AcceptsBuffer {D : Type} (uapi : BinderUapi)
    (binderTransaction : D → BinderTransactionData → Bool → KernelResult D) (memory : UserMemory)
    (pid : Int32) (state : D) (buffer size consumed : Nat) : Prop :=
  let parsed := parseCommands uapi memory (buffer + size) size (buffer + consumed)
  Accepts uapi binderTransaction (buffer + consumed) (buffer + size) parsed.1 parsed.2 state
    (binderThreadWrite uapi binderTransaction memory (BinderThread.create uapi pid) state buffer
      size consumed)

/-- A fault of the kernel ends the run, or what follows the complete known commands cannot
be fetched; and if the offset wraps around the address space to a place in front of the
end, nothing can be fetched there. -/
def SparesBuffer {D : Type} (uapi : BinderUapi)
    (binderTransaction : D → BinderTransactionData → Bool → KernelResult D) (memory : UserMemory)
    (state : D) (buffer size consumed : Nat) : Prop :=
  let parsed := parseCommands uapi memory (buffer + size) size (buffer + consumed)
  let wrapped := buffer + consumed - 2 ^ 64
  ((execute uapi binderTransaction state parsed.1).fault.isSome ∨
      parsed.2.Unfetchable uapi memory (buffer + size)) ∧
    (2 ^ 64 ≤ buffer + consumed → wrapped < buffer + size → memory.getUser wrapped = none)

/-- The command loop executes the complete known commands inside a buffer and rejects
everything else exactly when what it fetches behind them is not there. -/
theorem thread_write_accepts_iff {D : Type} (uapi : BinderUapi)
    (binderTransaction : D → BinderTransactionData → Bool → KernelResult D) (memory : UserMemory)
    (pid : Int32) (state : D) (buffer size consumed : Nat) (inSpace : buffer + size < 2 ^ 64)
    (isOffset : consumed < 2 ^ 64) :
    AcceptsBuffer uapi binderTransaction memory pid state buffer size consumed ↔
      SparesBuffer uapi binderTransaction memory state buffer size consumed := by
  have ready : (BinderThread.create uapi pid).returnErrorCmd = uapi.brOk := rfl
  have parsed : Parsed uapi memory (buffer + size) (buffer + consumed) _ _ :=
    parseCommands_parsed size (by omega)
  rw [AcceptsBuffer, SparesBuffer, binderThreadWrite, Nat.mod_eq_of_lt inSpace]
  rcases Nat.lt_or_ge (buffer + consumed) (2 ^ 64) with straight | wraps
  · rw [Nat.mod_eq_of_lt straight, and_iff_left fun wraps => absurd straight (Nat.not_lt.mpr wraps)]
    exact threadWriteLoop_accepts_iff ready (Nat.le_refl _) (Nat.le_refl _) state parsed
  · have place : (buffer + consumed) % 2 ^ 64 = buffer + consumed - 2 ^ 64 := by omega
    have atEnd : buffer + size ≤ buffer + consumed := by omega
    have nothing : parseCommands uapi memory (buffer + size) size (buffer + consumed) =
        ([], .complete) := by
      cases size with
      | zero => rfl
      | succ size => rw [parseCommands, if_pos atEnd]
    rw [place, nothing]
    constructor
    · refine fun accepts => ⟨.inr trivial, fun _ inside => ?_⟩
      cases word : memory.getUser (buffer + consumed - 2 ^ 64) with
      | none => rfl
      | some cmd =>
          -- the word in front of the buffer is read
          have isRead :=
            threadWriteLoop_reads binderTransaction ready inside (Nat.le_refl _) word state
          have behind := (accepts.reads _ isRead).1
          simp only at behind
          omega
    · rintro ⟨_, unfetchable⟩
      rcases Nat.lt_or_ge (buffer + consumed - 2 ^ 64) (buffer + size) with inside | outside
      · rw [threadWriteLoop_unmapped ready inside (Nat.le_refl _) (unfetchable wraps inside)]
        exact .nothing fun offends => offends.elim
      · rw [threadWriteLoop_exits outside]
        exact .nothing fun offends => offends.elim

/-- Four zero bytes. -/
def zeroWord : UserMemory where
  byte addr := if addr < 4 then some 0 else none
  unmapped addr beyond := by
    have notInside : ¬ addr < 4 := by
      rw [taskSize] at beyond
      omega
    rw [if_neg notInside]

/-- The unsupported word at its start is rejected, because nothing can be read behind it. -/
theorem thread_write_accepts_word :
    AcceptsBuffer linuxUapi (recordTransaction linuxUapi) zeroWord 1 [] 0 8 0 := by
  have unread : Ending.Unfetchable linuxUapi zeroWord 8 (.unsupported 4) := ⟨by decide, rfl⟩
  have spares : SparesBuffer linuxUapi (recordTransaction linuxUapi) zeroWord [] 0 8 0 :=
    ⟨.inr unread, fun wraps => absurd wraps (by decide)⟩
  exact (thread_write_accepts_iff linuxUapi (recordTransaction linuxUapi) zeroWord 1 [] 0 8 0
    (by decide) (by decide)).mpr spares

/-- An unsupported word at the end of a buffer is skipped, and the call succeeds. -/
theorem thread_write_skips :
    ¬ ∀ (memory : UserMemory) (pid : Int32) (state : List Command) (buffer size consumed : Nat),
      buffer + size < 2 ^ 64 → consumed < 2 ^ 64 →
        AcceptsBuffer linuxUapi (recordTransaction linuxUapi) memory pid state buffer size
          consumed := by
  intro claim
  have accepts := claim zeroWord 1 [] 0 4 0 (by decide) (by decide)
  have offends : (parseCommands linuxUapi zeroWord (0 + 4) 4 (0 + 0)).2.Offends := trivial
  exact absurd (accepts.rejects (by decide) offends) (by decide)

end DroidKernal.Binder
