import Mathlib.Algebra.BigOperators.Group.Finset.Sigma
import Mathlib.Data.UInt
import DroidKernal.Binder.Statistics

/-!
# What the counters of the command loop count

Each counter falls short of the commands read by just the tasks that have its increment
still before them.  So the counter of the driver is the sum of those of the processes, and
each of these the sum of those of its threads, up to the tasks that are between the two
increments.
-/

namespace DroidKernal.Binder

open Lib

variable {ι P H : Type*} {D : Type} [Fintype ι] [DecidableEq ι] [DecidableEq P] [DecidableEq H]

/-! ## The three kinds of counters -/

/-- An array of counters. -/
inductive CounterOf (P H : Type*) where
  | driver
  | proc (proc : P)
  | thread (thread : H)

/-- The place of an increment in the order of the code. -/
def Increment.position : Increment → Nat
  | .binderStats => 0
  | .procStats => 1
  | .threadStats => 2

theorem Increment.position_inj {a b : Increment} : a.position = b.position ↔ a = b := by
  cases a <;> cases b <;> decide

namespace CounterOf

/-- The increment of a kind of counters. -/
def increment : CounterOf P H → Increment
  | driver => .binderStats
  | proc _ => .procStats
  | thread _ => .threadStats

/-- The threads whose commands an array counts. -/
def Covers (owner : H → P) : CounterOf P H → H → Prop
  | driver, _ => True
  | proc p, h => owner h = p
  | thread h, h' => h' = h

instance (owner : H → P) (counter : CounterOf P H) (h : H) :
    Decidable (counter.Covers owner h) := by
  cases counter <;> unfold Covers <;> infer_instance

end CounterOf

/-- The value of a counter. -/
def CommandStats.value (stats : CommandStats P H) : CounterOf P H → Nat → UInt32
  | .driver, nr => stats.binderStats nr
  | .proc p, nr => stats.procStats p nr
  | .thread h, nr => stats.threadStats h nr

/-- One of the increments. -/
theorem value_count (stats : CommandStats P H) (owner : H → P) (thread : H) (n : Nat)
    (made : Increment) (counter : CounterOf P H) (nr : Nat) :
    (stats.count owner thread n made).value counter nr = stats.value counter nr +
      UInt32.ofNat (if made = counter.increment ∧ counter.Covers owner thread ∧ n = nr then 1
        else 0) := by
  have array : ∀ counters : Nat → UInt32, atomicInc counters n nr =
      counters nr + UInt32.ofNat (if n = nr then 1 else 0) := by
    intro counters
    by_cases same : nr = n
    · simp [atomicInc, same]
    · simp [atomicInc, same, Ne.symm same]
  cases counter with
  | driver =>
      cases made with
      | binderStats =>
          simpa [CommandStats.count, CommandStats.value, CounterOf.increment, CounterOf.Covers]
            using array stats.binderStats
      | _ => simp [CommandStats.count, CommandStats.value, CounterOf.increment]
  | proc p =>
      cases made with
      | procStats =>
          by_cases own : p = owner thread
          · simpa [CommandStats.count, CommandStats.value, CounterOf.increment, CounterOf.Covers,
              own] using array (stats.procStats (owner thread))
          · simp [CommandStats.count, CommandStats.value, CounterOf.increment, CounterOf.Covers,
              own, Ne.symm own]
      | _ => simp [CommandStats.count, CommandStats.value, CounterOf.increment]
  | thread h =>
      cases made with
      | threadStats =>
          by_cases own : h = thread
          · simpa [CommandStats.count, CommandStats.value, CounterOf.increment, CounterOf.Covers,
              own] using array (stats.threadStats thread)
          · simp [CommandStats.count, CommandStats.value, CounterOf.increment, CounterOf.Covers,
              own, Ne.symm own]
      | _ => simp [CommandStats.count, CommandStats.value, CounterOf.increment]

/-! ## Commands on their way to a counter -/

/-- A task that is about to make one of some increments, for a command of a number. -/
def onTheWay (among : H → Increment → Prop) [∀ h next, Decidable (among h next)] (nr : Nat) :
    WritePlace H → Nat
  | .counting thread _ cmd _ next => if among thread next ∧ iocNr cmd = nr then 1 else 0
  | _ => 0

/-- The increment of a counter is this one or a later one. -/
def Awaits (owner : H → P) (counter : CounterOf P H) (thread : H) (next : Increment) : Prop :=
  next.position ≤ counter.increment.position ∧ counter.Covers owner thread

instance (owner : H → P) (counter : CounterOf P H) (thread : H) (next : Increment) :
    Decidable (Awaits owner counter thread next) := by
  unfold Awaits
  infer_instance

/-- The increment of a counter has been made, and this is the next one. -/
def Passed (owner : H → P) (counter : CounterOf P H) (limit : Increment) (thread : H)
    (next : Increment) : Prop :=
  next = limit ∧ counter.Covers owner thread

instance (owner : H → P) (counter : CounterOf P H) (limit : Increment) (thread : H)
    (next : Increment) : Decidable (Passed owner counter limit thread next) := by
  unfold Passed
  infer_instance

/-- An increment either is the one of the counter, or leaves the task as far from it. -/
theorem onTheWay_behind (owner : H → P) (counter : CounterOf P H) (nr : Nat) (made : Increment)
    (thread : H) (finish : Nat) (cmd : UInt32) (body : Nat) :
    onTheWay (Awaits owner counter) nr (.counting thread finish cmd body made) =
      (if made = counter.increment ∧ counter.Covers owner thread ∧ iocNr cmd = nr then 1 else 0) +
        onTheWay (Awaits owner counter) nr (made.behind thread finish cmd body) := by
  have place := @Increment.position_inj made counter.increment
  by_cases own : counter.Covers owner thread ∧ iocNr cmd = nr
  · obtain ⟨covers, isNr⟩ := own
    cases made <;> cases kind : counter.increment <;>
      simp [onTheWay, Increment.behind, Awaits, kind, covers, isNr, Increment.position]
  · have other : ∀ next : Increment,
        ¬ (Awaits owner counter thread next ∧ iocNr cmd = nr) := fun next both =>
      own ⟨both.1.2, both.2⟩
    have notCounted : ¬ (made = counter.increment ∧ counter.Covers owner thread ∧
        iocNr cmd = nr) := fun both => own both.2
    rw [if_neg notCounted, Nat.zero_add]
    cases made <;> simp [onTheWay, Increment.behind, other]

/-- Whether an event reads a command that a counter counts. -/
def ReadsCommand (bcReplySg : UInt32) (among : H → Prop) (nr : Nat) : WriteEvent ι H → Prop
  | .reads _ thread _ cmd => among thread ∧ iocNr cmd = nr ∧ HasCounter bcReplySg cmd
  | _ => False

instance (bcReplySg : UInt32) (among : H → Prop) [DecidablePred among] (nr : Nat)
    (event : WriteEvent ι H) : Decidable (ReadsCommand bcReplySg among nr event) := by
  cases event <;> unfold ReadsCommand <;> infer_instance

/-- How many commands of a number some threads have read. -/
def commandsRead (bcReplySg : UInt32) (among : H → Prop) [DecidablePred among] (nr : Nat)
    (events : List (WriteEvent ι H)) : Nat :=
  events.countP fun event => ReadsCommand bcReplySg among nr event

/-! ## Runs -/

/-- Each counter lacks just the commands that are on their way to it. -/
def Tallied (bcReplySg : UInt32) (owner : H → P) (events : List (WriteEvent ι H))
    (system : WriteSystem ι D P H) : Prop :=
  ∀ (counter : CounterOf P H) (nr : Nat),
    UInt32.ofNat (commandsRead bcReplySg (counter.Covers owner) nr events) =
      system.shared.stats.value counter nr +
        UInt32.ofNat (Threads.tally (onTheWay (Awaits owner counter) nr) system.threads)

section Run

variable {uapi : BinderUapi} {bcReplySg : UInt32} {owner : H → P} {binderThread : H → BinderThread}
  {binderTransaction : H → D → BinderTransactionData → Bool → KernelResult D}
  {events : List (WriteEvent ι H)} {system next : WriteSystem ι D P H} {event : WriteEvent ι H}

omit [DecidableEq ι] in
theorem Tallied.init (driver : D) :
    Tallied bcReplySg owner [] (WriteSystem.init ι P H driver) := by
  intro counter nr
  have nobody : Threads.tally (onTheWay (Awaits owner counter) nr)
      (WriteSystem.init ι P H driver).threads = 0 := Finset.sum_eq_zero fun _ _ => rfl
  rw [nobody]
  cases counter <;> rfl

/-- A step that reads no command, counts none, and is not on the way to a counter. -/
theorem Tallied.moves (counted : Tallied bcReplySg owner events system)
    (noRead : ∀ (among : H → Prop) nr, ¬ ReadsCommand bcReplySg among nr event) {task : ι}
    {shared : WriteShared D P H} (sameStats : shared.stats = system.shared.stats)
    {place : WritePlace H}
    (before : ∀ counter nr, onTheWay (Awaits owner counter) nr (system.threads task) = 0)
    (after : ∀ counter nr, onTheWay (Awaits owner counter) nr place = 0) :
    Tallied bcReplySg owner (events ++ [event]) (system.move task shared place) := by
  intro counter nr
  have holds := counted counter nr
  rw [Threads.tally_eq task, before] at holds
  rw [commandsRead, List.countP_append, List.countP_singleton,
    if_neg (by simpa using noRead _ nr), Nat.add_zero]
  simp only [WriteSystem.move]
  rw [Threads.tally_update, after, sameStats]
  exact holds

/-- What one step preserves. -/
theorem Tallied.step (counted : Tallied bcReplySg owner events system)
    (step : WriteStep uapi bcReplySg owner binderThread binderTransaction system event next) :
    Tallied bcReplySg owner (events ++ [event]) next := by
  cases step with
  | enters place _ _ _ _ =>
      exact counted.moves (fun _ _ => id) rfl (fun _ _ => by rw [place]; rfl)
        fun _ _ => rfl
  | @reads task thread finish ptr memory cmd place _ _ =>
      intro counter nr
      have holds := counted counter nr
      have before : onTheWay (Awaits owner counter) nr (.looping thread finish ptr) = 0 := rfl
      rw [Threads.tally_eq task, place, before, Nat.add_zero] at holds
      simp only [WriteSystem.move]
      rw [commandsRead, List.countP_append, List.countP_singleton, Threads.tally_update]
      by_cases hasCounter : HasCounter bcReplySg cmd
      · have first : onTheWay (Awaits owner counter) nr
            (.counting thread finish cmd (ptr + FlatRecord.uint32.size) .binderStats) =
              if ReadsCommand bcReplySg (counter.Covers owner) nr
                (.reads task thread memory cmd) then 1 else 0 := by
          simp [onTheWay, Awaits, ReadsCommand, hasCounter, Increment.position]
        simp only [if_pos hasCounter, first, UInt32.ofNat_add, decide_eq_true_eq]
        rw [commandsRead] at holds
        rw [holds, UInt32.add_assoc]
      · have notRead : ¬ ReadsCommand bcReplySg (counter.Covers owner) nr
            (.reads task thread memory cmd) := fun reads => hasCounter reads.2.2
        simp only [if_neg hasCounter, notRead, decide_false, Bool.false_eq_true, if_false,
          onTheWay, Nat.add_zero]
        exact holds
  | @counts task thread finish cmd body made place =>
      intro counter nr
      have holds := counted counter nr
      rw [Threads.tally_eq task, place, onTheWay_behind owner counter nr] at holds
      simp only [WriteSystem.move]
      rw [commandsRead, List.countP_append, List.countP_singleton, Threads.tally_update,
        value_count, if_neg (by rw [decide_eq_true_eq]; exact id), Nat.add_zero]
      rw [commandsRead] at holds
      rw [holds, UInt32.ofNat_add, UInt32.ofNat_add, UInt32.ofNat_add]
      ac_rfl
  | executes place memory =>
      refine counted.moves (fun _ _ => id) rfl (fun _ _ => by rw [place]; rfl) ?_
      intro counter nr
      unfold executeCommand
      split
      · split
        · rfl
        · simp only
          split <;> rfl
      · rfl
  | leaves place _ =>
      exact counted.moves (fun _ _ => id) rfl (fun _ _ => by rw [place]; rfl)
        fun _ _ => rfl
  | ends place =>
      exact counted.moves (fun _ _ => id) rfl (fun _ _ => by rw [place]; rfl)
        fun _ _ => rfl

/-! ### Sums -/

/-- `UInt32.ofNat` respects sums. -/
theorem ofNat_sum {κ : Type*} (parts : Finset κ) (f : κ → Nat) :
    UInt32.ofNat (∑ k ∈ parts, f k) = ∑ k ∈ parts, UInt32.ofNat (f k) :=
  map_sum (⟨⟨UInt32.ofNat, rfl⟩, UInt32.ofNat_add⟩ : ℕ →+ UInt32) f parts

/-- A property of threads is split up: each thread that has it is in one of the parts. -/
def SplitsInto {κ : Type*} (whole : H → Prop) [DecidablePred whole] (parts : Finset κ)
    (part : κ → H → Prop) [∀ k, DecidablePred (part k)] : Prop :=
  ∀ h, (if whole h then 1 else 0) = ∑ k ∈ parts, if part k h then 1 else 0

section Sums

variable {κ : Type*} {whole : H → Prop} [DecidablePred whole] {parts : Finset κ}
  {part : κ → H → Prop} [∀ k, DecidablePred (part k)]

omit [Fintype ι] [DecidableEq ι] [DecidableEq H] in
theorem SplitsInto.commandsRead (splits : SplitsInto whole parts part) (nr : Nat)
    (events : List (WriteEvent ι H)) :
    commandsRead bcReplySg whole nr events =
      ∑ k ∈ parts, commandsRead bcReplySg (part k) nr events := by
  have each : ∀ event : WriteEvent ι H,
      (if ReadsCommand bcReplySg whole nr event then 1 else 0) =
        ∑ k ∈ parts, if ReadsCommand bcReplySg (part k) nr event then 1 else 0 := by
    intro event
    cases event with
    | reads task thread memory cmd =>
        by_cases counts : iocNr cmd = nr ∧ HasCounter bcReplySg cmd
        · simpa [ReadsCommand, counts] using splits thread
        · simp [ReadsCommand, counts]
    | _ => simp [ReadsCommand]
  induction events with
  | nil => simp [Binder.commandsRead]
  | cons event events ih =>
      simp only [Binder.commandsRead] at ih
      simp only [Binder.commandsRead, List.countP_cons, decide_eq_true_eq, ih, each event,
        Finset.sum_add_distrib]

omit [DecidableEq ι] [DecidableEq H] in
theorem SplitsInto.onTheWay (splits : SplitsInto whole parts part) (stage : Increment → Prop)
    [DecidablePred stage] (nr : Nat) (places : ι → WritePlace H) :
    Threads.tally (onTheWay (fun h next => stage next ∧ whole h) nr) places =
      ∑ k ∈ parts, Threads.tally (onTheWay (fun h next => stage next ∧ part k h) nr) places := by
  unfold Threads.tally
  rw [Finset.sum_comm]
  apply Finset.sum_congr rfl
  intro task _
  cases places task with
  | counting thread finish cmd body next =>
      by_cases counts : stage next ∧ iocNr cmd = nr
      · simpa [Binder.onTheWay, counts] using splits thread
      · have never : ∀ inPart : Prop, ¬ ((stage next ∧ inPart) ∧ iocNr cmd = nr) :=
          fun inPart both => counts ⟨both.1.1, both.2⟩
        simp only [Binder.onTheWay, never, if_false, Finset.sum_const_zero]
  | _ => simp [Binder.onTheWay]

omit [DecidableEq ι] in
/-- The increments up to one are those up to the one before, and that one. -/
theorem onTheWay_stage (owner : H → P) {counter : CounterOf P H} {limit : Increment}
    (adjacent : limit.position = counter.increment.position + 1) (nr : Nat)
    (places : ι → WritePlace H) :
    Threads.tally (onTheWay
        (fun h next => next.position ≤ limit.position ∧ counter.Covers owner h) nr) places =
      Threads.tally (onTheWay (Passed owner counter limit) nr) places +
        Threads.tally (onTheWay (Awaits owner counter) nr) places := by
  unfold Threads.tally
  rw [← Finset.sum_add_distrib]
  apply Finset.sum_congr rfl
  intro task _
  cases places task with
  | counting thread finish cmd body next =>
      have isLimit := @Increment.position_inj next limit
      by_cases counts : counter.Covers owner thread ∧ iocNr cmd = nr
      · simp only [Binder.onTheWay, Passed, Awaits, counts, and_true, ← isLimit]
        split_ifs <;> omega
      · have never : ∀ stage : Prop, ¬ ((stage ∧ counter.Covers owner thread) ∧ iocNr cmd = nr) :=
          fun stage both => counts ⟨both.1.2, both.2⟩
        simp only [Binder.onTheWay, Passed, Awaits, never, if_false]
  | _ => simp [Binder.onTheWay]

omit [DecidableEq ι] in
/-- A counter and those of its parts, one increment later. -/
theorem Tallied.sum (counted : Tallied bcReplySg owner events system) {counter : CounterOf P H}
    {of : κ → CounterOf P H} {limit : Increment}
    (splits : SplitsInto (counter.Covers owner) parts fun k => (of k).Covers owner)
    (adjacent : limit.position = counter.increment.position + 1)
    (isLimit : ∀ k, (of k).increment = limit) (nr : Nat) :
    system.shared.stats.value counter nr =
      ∑ k ∈ parts, system.shared.stats.value (of k) nr +
        UInt32.ofNat (Threads.tally (onTheWay (Passed owner counter limit) nr)
          system.threads) := by
  have whole := counted counter nr
  have each := fun k (_ : k ∈ parts) => counted (of k) nr
  have stages := onTheWay_stage owner adjacent nr system.threads
  rw [splits.onTheWay (fun next => next.position ≤ limit.position)] at stages
  have later : ∑ k ∈ parts, Threads.tally (Binder.onTheWay (Awaits owner (of k)) nr)
      system.threads = Threads.tally (Binder.onTheWay (Passed owner counter limit) nr)
        system.threads + Threads.tally (Binder.onTheWay (Awaits owner counter) nr)
          system.threads := by
    rw [← stages]
    apply Finset.sum_congr rfl
    intro k _
    apply Finset.sum_congr rfl
    intro task _
    cases system.threads task with
    | counting thread finish cmd body next => simp only [Binder.onTheWay, Awaits, isLimit]
    | _ => rfl
  rw [splits.commandsRead, ofNat_sum, Finset.sum_congr rfl each, Finset.sum_add_distrib,
    ← ofNat_sum, later, UInt32.ofNat_add, ← UInt32.add_assoc] at whole
  exact (add_right_cancel whole).symm

end Sums

/-- In every state that any interleaving of writing tasks reaches, and for every number of a
command: each counter of the driver, of a process or of a thread holds the number of
commands that were read for it, less those whose increment is still to come.  So the
counter of the driver is the sum over the processes and the commands that are between these
two increments, and that of a process the sum over its threads and the commands between
the next two.  The counters wrap at 32 bits, and these sums with them. -/
theorem command_counters [Fintype P] [Fintype H] {driver : D}
    (run : Run (WriteStep uapi bcReplySg owner binderThread binderTransaction)
      (WriteSystem.init ι P H driver) events system) (nr : Nat) :
    (∀ counter : CounterOf P H,
        UInt32.ofNat (commandsRead bcReplySg (counter.Covers owner) nr events) =
          system.shared.stats.value counter nr +
            UInt32.ofNat (Threads.tally (onTheWay (Awaits owner counter) nr) system.threads)) ∧
      system.shared.stats.binderStats nr = ∑ p, system.shared.stats.procStats p nr +
        UInt32.ofNat (Threads.tally (onTheWay (Passed owner .driver .procStats) nr)
          system.threads) ∧
      ∀ p, system.shared.stats.procStats p nr =
        ∑ h with owner h = p, system.shared.stats.threadStats h nr +
          UInt32.ofNat (Threads.tally (onTheWay (Passed owner (.proc p) .threadStats) nr)
            system.threads) := by
  have counted : Tallied bcReplySg owner events system :=
    run.history_invariant (Tallied bcReplySg owner) (Tallied.init driver)
      fun invariant taken => invariant.step taken
  refine ⟨fun counter => counted counter nr, ?_, fun p => ?_⟩
  · have splits : SplitsInto (CounterOf.Covers owner .driver) Finset.univ fun p : P =>
        CounterOf.Covers owner (.proc p) := by
      intro h
      simp [CounterOf.Covers]
    exact counted.sum splits rfl (fun _ => rfl) nr
  · have splits : SplitsInto (CounterOf.Covers owner (.proc p))
        (Finset.univ.filter fun h => owner h = p) fun h => CounterOf.Covers owner (.thread h) := by
      intro h
      by_cases own : owner h = p
      · simp [CounterOf.Covers, own]
      · simp [CounterOf.Covers, own]
    exact counted.sum splits rfl (fun _ => rfl) nr

end Run

theorem transactionWord_unmapped {addr : Nat} (beyond : taskSize ≤ addr) :
    ([0x00, 0x63, 0x40, 0x40] : List UInt8)[addr]? = none := by
  have long : 4 ≤ taskSize := by decide
  exact List.getElem?_eq_none (long.trans beyond)

/-- User memory that holds the word of a transaction. -/
def transactionWord : UserMemory where
  byte addr := ([0x00, 0x63, 0x40, 0x40] : List UInt8)[addr]?
  unmapped _ := transactionWord_unmapped

/-- A transaction that the driver has counted, and its process has not. -/
theorem command_counters_between :
    let step := WriteStep (ι := Fin 2) (P := Unit) linuxUapi 0x40486312 (fun _ : Fin 2 => ())
      (fun _ => .create linuxUapi 7) fun _ (state : Unit) _ _ => { state, fault := none }
    ∃ events system, Run step (WriteSystem.init (Fin 2) Unit (Fin 2) ()) events system ∧
      events.length = 3 ∧ transactionWord.getUser 0 = some 0x40406300 ∧
      system.shared.stats.binderStats 0 = ∑ p, system.shared.stats.procStats p 0 +
        UInt32.ofNat (Threads.tally (onTheWay (Passed (fun _ => ()) .driver .procStats) 0)
          system.threads) ∧
      Threads.tally (onTheWay (Passed (fun _ => ()) .driver .procStats) 0) system.threads = 1 := by
  intro step
  let start := WriteSystem.init (Fin 2) Unit (Fin 2) ()
  let inside := start.move 0 start.shared (.looping 0 44 0)
  have entered : step start (.enters 0 0 0 44 0) inside := .enters rfl 0 0 44 0
  have read : step inside (.reads 0 0 transactionWord 0x40406300)
      (inside.move 0 inside.shared (.counting 0 44 0x40406300 4 .binderStats)) :=
    .reads rfl ⟨by decide, rfl⟩ rfl
  have counted : step (inside.move 0 inside.shared (.counting 0 44 0x40406300 4 .binderStats))
      (.counts 0 .binderStats) _ := .counts rfl
  have run := ((Run.single entered).snoc read).snoc counted
  exact ⟨_, _, run, rfl, rfl, (command_counters run 0).2.1, rfl⟩

/-! ## A task that is not interrupted -/

section Alone

variable {uapi : BinderUapi} {bcReplySg : UInt32} {owner : H → P} {binderThread : H → BinderThread}
  {binderTransaction : H → D → BinderTransactionData → Bool → KernelResult D}

/-- Where the loop leaves a task. -/
def ThreadWrite.place (run : ThreadWrite D) : WritePlace H :=
  match run.fault with
  | some fault => .faulted fault
  | none => .returned run.ret

/-- A run of one task, which ends with this driver and at this place. -/
def RunsAlone (uapi : BinderUapi) (bcReplySg : UInt32) (owner : H → P)
    (binderThread : H → BinderThread)
    (binderTransaction : H → D → BinderTransactionData → Bool → KernelResult D)
    (system : WriteSystem ι D P H) (task : ι) (driver : D) (place : WritePlace H) : Prop :=
  ∃ events final, Run (WriteStep uapi bcReplySg owner binderThread binderTransaction) system
      events final ∧ (∀ event ∈ events, event.task = task) ∧ final.shared.driver = driver ∧
    final.threads = Function.update system.threads task place

variable {system : WriteSystem ι D P H} {task : ι}

omit [Fintype ι] in
/-- A step of the task, and a run from there. -/
theorem RunsAlone.cons {event : WriteEvent ι H} {shared : WriteShared D P H}
    {middle place : WritePlace H} {driver : D} (isTask : event.task = task)
    (taken : WriteStep uapi bcReplySg owner binderThread binderTransaction system event
      (system.move task shared middle))
    (rest : RunsAlone uapi bcReplySg owner binderThread binderTransaction
      (system.move task shared middle) task driver place) :
    RunsAlone uapi bcReplySg owner binderThread binderTransaction system task driver place := by
  obtain ⟨events, final, run, own, isDriver, isPlace⟩ := rest
  refine ⟨_, final, .cons taken run, ?_, isDriver, ?_⟩
  · rintro event' member
    obtain rfl | later := List.mem_cons.mp member
    · exact isTask
    · exact own event' later
  · rw [isPlace, WriteSystem.move, Function.update_idem]

omit [Fintype ι] in
/-- The last step. -/
theorem RunsAlone.last {event : WriteEvent ι H} {shared : WriteShared D P H}
    {place : WritePlace H} (isTask : event.task = task)
    (taken : WriteStep uapi bcReplySg owner binderThread binderTransaction system event
      (system.move task shared place)) :
    RunsAlone uapi bcReplySg owner binderThread binderTransaction system task shared.driver
      place :=
  .cons isTask taken ⟨[], _, .nil, fun _ member => absurd member List.not_mem_nil, rfl, by
    rw [WriteSystem.move, Function.update_idem]⟩

omit [Fintype ι] [DecidableEq P] [DecidableEq H] in
theorem WriteSystem.move_move (shared shared' : WriteShared D P H) (place place' : WritePlace H) :
    (system.move task shared place).move task shared' place' = system.move task shared' place' := by
  simp only [WriteSystem.move, Function.update_idem]

omit [Fintype ι] in
/-- One increment. -/
theorem RunsAlone.count {thread : H} {finish : Nat} {cmd : UInt32} {body : Nat} {made : Increment}
    {place : WritePlace H} {driver : D}
    (isPlace : system.threads task = .counting thread finish cmd body made)
    (rest : ∀ stats, RunsAlone uapi bcReplySg owner binderThread binderTransaction
      (system.move task { system.shared with stats } (made.behind thread finish cmd body)) task
      driver place) :
    RunsAlone uapi bcReplySg owner binderThread binderTransaction system task driver place :=
  .cons rfl (.counts isPlace) (rest _)

omit [Fintype ι] in
/-- The increments of a command, if it has a counter. -/
theorem RunsAlone.counting {thread : H} {finish : Nat} {cmd : UInt32} {body : Nat}
    {place : WritePlace H} {driver : D}
    (rest : ∀ stats, RunsAlone uapi bcReplySg owner binderThread binderTransaction
      (system.move task { system.shared with stats } (.executing thread finish cmd body)) task
      driver place) :
    RunsAlone uapi bcReplySg owner binderThread binderTransaction
      (system.move task system.shared
        (if HasCounter bcReplySg cmd then .counting thread finish cmd body .binderStats
        else .executing thread finish cmd body)) task driver place := by
  by_cases hasCounter : HasCounter bcReplySg cmd
  · rw [if_pos hasCounter]
    apply RunsAlone.count (Function.update_self ..)
    intro stats
    rw [WriteSystem.move_move]
    apply RunsAlone.count (Function.update_self ..)
    intro stats
    rw [WriteSystem.move_move]
    apply RunsAlone.count (Function.update_self ..)
    intro stats
    rw [WriteSystem.move_move]
    exact rest stats
  · rw [if_neg hasCounter]
    exact rest system.shared.stats

section Execute

variable {thread : H} {finish : Nat} {cmd : UInt32} {body : Nat} {driver : D}
  {place : WritePlace H} (memory : UserMemory)
  (isPlace : system.threads task = .executing thread finish cmd body)
  (executed : executeCommand uapi binderTransaction memory system.shared.driver thread finish cmd
    body = (driver, place))

include isPlace executed

omit [Fintype ι] in
theorem WriteStep.execute :
    WriteStep uapi bcReplySg owner binderThread binderTransaction system (.executes task memory)
      (system.move task { system.shared with driver } place) := by
  have taken : WriteStep uapi bcReplySg owner binderThread binderTransaction system
      (.executes task memory) _ := .executes isPlace memory
  rw [executed] at taken
  exact taken

omit [Fintype ι] in
theorem RunsAlone.execute {last : D} {lastPlace : WritePlace H}
    (rest : RunsAlone uapi bcReplySg owner binderThread binderTransaction
      (system.move task { system.shared with driver } place) task last lastPlace) :
    RunsAlone uapi bcReplySg owner binderThread binderTransaction system task last lastPlace :=
  .cons rfl (.execute memory isPlace executed) rest

omit [Fintype ι] in
theorem RunsAlone.executeLast :
    RunsAlone uapi bcReplySg owner binderThread binderTransaction system task driver place := by
  have taken : WriteStep uapi bcReplySg owner binderThread binderTransaction system
      (.executes task memory) (system.move task { system.shared with driver } place) :=
    .execute memory isPlace executed
  exact .last rfl taken

end Execute

omit [Fintype ι] in
/-- A task that nobody interrupts runs through the loop as it is written. -/
theorem writes_alone (memory : UserMemory) (thread : H) (finish fuel ptr : Nat)
    (enough : finish - ptr ≤ fuel) (isPlace : system.threads task = .looping thread finish ptr)
    {run : ThreadWrite D}
    (isRun : run = threadWriteLoop uapi (binderTransaction thread) memory (binderThread thread)
      finish fuel ptr system.shared.driver) :
    RunsAlone uapi bcReplySg owner binderThread binderTransaction system task run.state
      run.place := by
  induction fuel generalizing ptr system run with
  | zero =>
      have atEnd : ¬ (ptr < finish ∧ (binderThread thread).returnErrorCmd = uapi.brOk) := by
        omega
      rw [threadWriteLoop] at isRun
      have left : WriteStep uapi bcReplySg owner binderThread binderTransaction system
          (.leaves task memory) (system.move task system.shared (.returned 0)) :=
        .leaves isPlace (by rw [if_neg atEnd])
      rw [isRun]
      exact .last rfl left
  | succ fuel ih =>
      rw [threadWriteLoop] at isRun
      by_cases goesOn : ptr < finish ∧ (binderThread thread).returnErrorCmd = uapi.brOk
      · rw [if_pos goesOn] at isRun
        cases read : memory.getUser ptr with
        | none =>
            have left : WriteStep uapi bcReplySg owner binderThread binderTransaction system
                (.leaves task memory) (system.move task system.shared (.returned (-EFAULT))) :=
              .leaves isPlace (by rw [if_pos goesOn]; exact ⟨read, rfl⟩)
            rw [read] at isRun
            rw [isRun]
            exact .last rfl left
        | some cmd =>
            have word : FlatRecord.uint32.size = 4 := rfl
            apply RunsAlone.cons rfl (.reads isPlace goesOn read)
            apply RunsAlone.counting
            intro stats
            simp only [read] at isRun
            by_cases isTransaction : cmd = uapi.bcTransaction ∨ cmd = uapi.bcReply
            · rw [if_pos isTransaction] at isRun
              cases copied : memory.copyFromUser (ptr + FlatRecord.uint32.size)
                  uapi.transactionData.size with
              | none =>
                  rw [copied] at isRun
                  rw [isRun]
                  exact .executeLast memory (Function.update_self ..)
                    (by simp only [executeCommand, if_pos isTransaction, copied]; rfl)
              | some bytes =>
                  simp only [copied] at isRun
                  cases faults : (binderTransaction thread system.shared.driver
                      (uapi.transactionData.decode bytes) (cmd == uapi.bcReply)).fault with
                  | some fault =>
                      simp only [faults, Option.isSome_some, if_true] at isRun
                      rw [isRun]
                      exact .executeLast memory (Function.update_self ..)
                        (by simp only [executeCommand, if_pos isTransaction, copied,
                              WriteSystem.move, faults]; rfl)
                  | none =>
                      simp only [faults, Option.isSome_none, Bool.false_eq_true, if_false] at isRun
                      apply RunsAlone.execute memory (Function.update_self ..)
                        (by simp only [executeCommand, if_pos isTransaction, copied,
                              WriteSystem.move, faults]; rfl)
                      have looped := @ih (system.move task
                          { system.shared with
                            driver := (binderTransaction thread system.shared.driver
                              (uapi.transactionData.decode bytes) (cmd == uapi.bcReply)).state
                            stats }
                          (.looping thread finish
                            (ptr + FlatRecord.uint32.size + uapi.transactionData.size)))
                        _ (by omega) (Function.update_self ..) _ rfl
                      rw [isRun, WriteEvent.task, WriteSystem.move_move]
                      exact looped
            · rw [if_neg isTransaction] at isRun
              apply RunsAlone.execute memory (Function.update_self ..)
                (by rw [executeCommand, if_neg isTransaction])
              have looped := @ih (system.move task { system.shared with stats }
                  (.looping thread finish (ptr + FlatRecord.uint32.size)))
                _ (by omega) (Function.update_self ..) _ rfl
              rw [isRun, WriteEvent.task, WriteSystem.move_move]
              exact looped
      · rw [if_neg goesOn] at isRun
        have left : WriteStep uapi bcReplySg owner binderThread binderTransaction system
            (.leaves task memory) (system.move task system.shared (.returned 0)) :=
          .leaves isPlace (by rw [if_neg goesOn])
        rw [isRun]
        exact .last rfl left

end Alone

end DroidKernal.Binder
