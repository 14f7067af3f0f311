import DroidKernal.Utils.Lifetime
import DroidKernal.Utils.Outcomes
import DroidKernal.Utils.Thread
import Mathlib.Data.Fintype.Sum

/-!
# Threads keep their object

A new thread holds a reference until it has had the lock, which `run` keeps until it has
nothing more to do with the object; who calls `run` holds one if the thread may not come to
be.  At most one thread has not yet cleared `mRunning`, and it alone finds `mHoldSelf` set.
-/

namespace DroidKernal.Utils

open Lib

/-! ## Operations on references -/

namespace RefThread

variable {refs : RefBase} {thread : RefThread}

/-- What the party expects after it has called an operation with its references. -/
theorem begin_expects {strong weak : Nat} (expects : thread.Expects strong weak)
    (idle : thread.pc = .idle) (refs : RefBase) :
    (thread.begin refs .incStrong).Expects (strong + 1) weak ∧
      (thread.begin refs .decStrong).Expects (strong - 1) weak ∧
      (thread.begin refs .creatWeak).Expects strong (weak + 1) ∧
      (thread.begin refs .decWeak).Expects strong (weak - 1) ∧
      (strong = 0 → (thread.begin refs .attemptIncStrong).Promotes weak) := by
  rw [expects.idle idle]
  refine ⟨⟨rfl, rfl, rfl⟩, ⟨rfl, rfl, rfl⟩, ⟨rfl, rfl, rfl⟩, ⟨rfl, rfl, rfl⟩, ?_⟩
  rintro rfl
  exact .inl ⟨rfl, rfl, rfl⟩

/-- The operation is one that the references entitle to. -/
theorem begin_eq {operation : RefOperation} {next : RefThread}
    (called : thread.call operation = some next)
    (taken : operation = .incStrong → refs.strongTaken = true) :
    thread.begin refs operation = next := by
  cases operation <;> simp only [RefThread.call] at called <;> split at called <;>
    cases called <;> simp [RefThread.begin, taken]

end RefThread

section Alive

variable {ι : Type*} [Fintype ι] [DecidableEq ι] {lifetime : Lifetime} {state : RefState ι}
  {party : ι}

/-- What a party contributes is part of the sum. -/
theorem RefThread.count_le (sum : Tally) :
    (state.threads party).count lifetime sum ≤
      Threads.tally (RefThread.count lifetime) state.threads sum := by
  rw [Threads.tally_eq party]
  exact Nat.le_add_left _ _

/-- While a party has a strong reference, the object is not destroyed. -/
theorem Accounted.alive (accounted : Accounted lifetime state)
    (held : 0 < (state.threads party).strong) :
    state.shared.destroyed = 0 ∧ state.shared.strongTaken = true := by
  have core := accounted.lawful.core
  have strongs : 0 < Threads.tally (RefThread.count lifetime) state.threads .strongs :=
    Nat.lt_of_lt_of_le (Nat.add_pos_left held _) (RefThread.count_le .strongs)
  have weaks : 0 < Threads.tally (RefThread.count lifetime) state.threads .weaks :=
    Nat.lt_of_lt_of_le (Nat.add_pos_left (Nat.add_pos_right _ held) _) (RefThread.count_le .weaks)
  exact ⟨Nat.eq_zero_of_add_eq_zero_right (core.present strongs weaks), core.started strongs⟩

end Alive

/-! ## Where the parties are -/

namespace RunPc

variable {κ : Type*}

/-- `run` has the lock. -/
def locked : RunPc κ → Bool
  | out | lock => false
  | _ => true

/-- `run` has found `mRunning` false and has not created its thread. -/
def claims : RunPc κ → Bool
  | hold | held _ | store | create | fail | clear | cleared => true
  | _ => false

/-- `run` has set `mHoldSelf`, which no thread will clear. -/
def holds : RunPc κ → Bool
  | create | fail | clear | cleared => true
  | _ => false

/-- `run` has created its thread. -/
def passed : RunPc κ → Bool
  | created _ => true
  | unlock status => status = 0
  | _ => false

end RunPc

namespace LoopPc

/-- The thread has the lock. -/
def locked : LoopPc → Bool
  | exitRead | exitUnlock _ | check _ | unlock _ => true
  | _ => false

/-- The thread may find that it is to go on. -/
def active : LoopPc → Bool
  | gone | unlock true | dropWeak | dropStrong => false
  | _ => true

/-- The thread has not cleared `mHoldSelf`. -/
def starting : LoopPc → Bool
  | copy | weakCopy | clear | cleared => true
  | _ => false

/-- The thread needs the lock before it drops its last reference. -/
def waits : LoopPc → Bool
  | copy | weakCopy | clear | cleared | tid | ready | exitLock | body | lock _ => true
  | _ => false

end LoopPc

namespace LoopFrame

/-- The pointers on the stack, by where the thread is. -/
def pointers (frame : LoopFrame) : Prop :=
  match frame.pc with
  | .gone | .copy => True
  | .weakCopy => frame.strong = true
  | .promote | .promoted _ => frame.strong = false ∧ frame.weak = true
  | .assigned result => frame.strong = result ∧ frame.weak = true
  | .test | .dropWeak => frame.weak = true
  | .dropStrong => True
  | _ => frame.strong = true ∧ frame.weak = true

/-- The references that the thread has, or will have when an operation returns. -/
def holdings (frame : LoopFrame) (thread : RefThread) : Prop :=
  match frame.pc with
  | .gone => thread.Expects 0 0
  | .copy => thread.Expects 1 0
  | .weakCopy => thread.Expects 2 0
  | .clear => thread.Expects 2 1
  | .promote => thread.Expects 0 1
  | .promoted before => before = 0 ∧ thread.Promotes 1
  | .assigned result => thread.Expects (if result then 2 else 0) 1
  | .test | .dropWeak => thread.Expects (if frame.strong then 1 else 0) 1
  | .dropStrong => thread.Expects (if frame.strong then 1 else 0) 0
  | _ => thread.Expects 1 1

end LoopFrame

namespace RunFrame

variable {κ : Type*}

/-- By how much the call has changed the counts. -/
def Changed (frame : RunFrame κ) (strong weak : Int) : Prop :=
  frame.strongChange = strong ∧ frame.weakChange = weak

/-- The assignment to `mHoldSelf` counts a reference; the very first one is counted in
several accesses. -/
def Increases (frame : RunFrame κ) (thread : RefThread) : Prop :=
  match thread.pc with
  | .incStrongWeak false => 0 < thread.strong ∧ frame.Changed 0 0
  | .incStrongAdd false => 0 < thread.strong ∧ frame.Changed 0 1
  | .incStrongWeak true | .incStrongAdd true | .incStrongSub | .incStrongFirstRef =>
      thread.strong = 0
  | .idle => 0 < thread.strong ∧ (2 ≤ thread.strong → frame.Changed 1 1)
  | _ => False

/-- `mHoldSelf.clear()` drops the reference, and the caller has another one. -/
def Decreases (frame : RunFrame κ) (thread : RefThread) : Prop :=
  match thread.pc with
  | .decStrongSub => 0 < thread.strong ∧ frame.Changed 1 1
  | .decWeakSub => 0 < thread.strong ∧ frame.Changed 0 1
  | .idle => 0 < thread.strong ∧ frame.Changed 0 0
  | _ => False

/-- The references of a caller of `run`: it has its own, or those of a new object are left
to it. -/
def Holdings (fresh : Prop) (frame : RunFrame κ) (thread : RefThread) : Prop :=
  match frame.pc with
  | .out => True
  | .lock | .check | .hold =>
      thread.pc = .idle ∧ (0 < thread.strong ∨ fresh) ∧ frame.Changed 0 0
  | .held old => old = false ∧ frame.Increases thread
  | .store => False
  | .create =>
      thread.pc = .idle ∧ 0 < thread.strong ∧ (2 ≤ thread.strong → frame.Changed 1 1)
  | .created _ => thread.pc = .idle
  | .fail | .clear => thread.pc = .idle ∧ 2 ≤ thread.strong ∧ frame.Changed 1 1
  | .cleared => frame.Decreases thread
  | .unlock status => thread.pc = .idle ∧ (status ≠ 0 → 0 < thread.strong ∧ frame.Changed 0 0)

end RunFrame

section System

variable {ι κ : Type*} [Fintype ι] [Fintype κ] [DecidableEq ι] [DecidableEq κ]

/-- Nobody but the creator knows the object, which no strong reference was taken to. -/
structure RefState.Fresh (state : RefState (ι ⊕ κ)) (creator : ι) : Prop where
  alone : state.Alone (.inl creator)
  untaken : state.shared.strongTaken = false
  reachable : state.shared.weakTaken = true → 0 < (state.threads (.inl creator)).weak

omit [Fintype ι] [Fintype κ] in
/-- Who has nothing can only hand nothing over. -/
theorem RefState.Fresh.give {refs : RefState (ι ⊕ κ)} {creator : ι} (fresh : refs.Fresh creator)
    {party party' : ι ⊕ κ} (isOther : party ≠ .inl creator) (isOther' : party' ≠ .inl creator)
    {strong weak : Nat} (hasStrong : strong ≤ (refs.threads party).strong)
    (hasWeak : weak ≤ (refs.threads party).weak) :
    RefState.Fresh
      { refs with
        threads := Function.update
          (Function.update refs.threads party
            { pc := .idle
              strong := (refs.threads party).strong - strong
              weak := (refs.threads party).weak - weak })
          party'
          { pc := .idle
            strong := (refs.threads party').strong + strong
            weak := (refs.threads party').weak + weak } } creator := by
  rw [fresh.alone.2 party isOther] at hasStrong hasWeak
  cases Nat.le_zero.mp hasStrong
  cases Nat.le_zero.mp hasWeak
  rw [fresh.alone.2 party isOther, fresh.alone.2 party' isOther']
  have first : Function.update refs.threads party .init = refs.threads := by
    rw [← fresh.alone.2 party isOther, Function.update_eq_self]
  have same : Function.update (Function.update refs.threads party .init) party' .init =
      refs.threads := by
    rw [first, ← fresh.alone.2 party' isOther', Function.update_eq_self]
  change RefState.Fresh
    { refs with threads := Function.update (Function.update refs.threads party .init) party' .init }
    creator
  rw [same]
  exact fresh

namespace ThreadState

/-- The references of a thread. -/
structure LoopSound (state : ThreadState ι κ) (k : κ) : Prop where
  pointers : (state.loops k).pointers
  holdings : (state.loops k).holdings (state.refs.threads (.inr k))
  waits : (state.loops k).pc.waits = true → 0 < (state.refs.threads (.inr k)).strong
  begun : (state.loops k).pc ≠ .gone → state.refs.shared.strongTaken = true

/-- The invariant: what the references of the parties are; who has the lock; that at most
one thread is active, and who has set `mHoldSelf`. -/
structure Sound (lifetime : Lifetime) (creator : ι) (state : ThreadState ι κ) : Prop where
  accounted : Accounted lifetime state.refs
  caller : ∀ i, (state.callers i).Holdings (i = creator ∧ state.refs.Fresh creator)
    (state.refs.threads (.inl i))
  loop : ∀ k, state.LoopSound k
  lockCaller : ∀ i, (state.callers i).pc.locked = true → state.members.mLock = some (.inl i)
  lockLoop : ∀ k, (state.loops k).pc.locked = true → state.members.mLock = some (.inr k)
  claimed : ∀ i, (state.callers i).pc.claims = true → ∀ k, (state.loops k).pc.active = false
  passed : ∀ i, (state.callers i).pc.passed = true → ∃ k, (state.loops k).pc.waits = true
  running : state.members.mRunning = true → state.refs.shared.strongTaken = true
  active : ∀ k, (state.loops k).pc.active = true → state.members.mRunning = true
  single : ∀ k k', (state.loops k).pc.active = true → (state.loops k').pc.active = true → k = k'
  launching : ∀ i, (state.callers i).pc = .create → state.members.mRunning = true
  holds : ∀ i, (state.callers i).pc.holds = true → state.members.mHoldSelf = true
  starting : ∀ k, (state.loops k).pc.starting = true → state.members.mHoldSelf = true
  heldBy : state.members.mHoldSelf = true →
    (∃ i, (state.callers i).pc.holds = true) ∨ ∃ k, (state.loops k).pc.starting = true
  restored : ∀ i status, (state.callers i).result = some status →
    (state.callers i).pc = .out ∧ (status ≠ 0 → (state.callers i).Changed 0 0)

variable {lifetime : Lifetime} {creator : ι} {state : ThreadState ι κ}

/-! ### While the object is new -/

omit [DecidableEq ι] [DecidableEq κ] in
/-- A thread that has started has a reference, or will have. -/
theorem Sound.untaken_gone (sound : state.Sound lifetime creator)
    (untaken : state.refs.shared.strongTaken = false) (k : κ) : (state.loops k).pc = .gone := by
  by_contra started
  exact absurd ((sound.loop k).begun started) (by simp [untaken])

omit [DecidableEq ι] [DecidableEq κ] in
theorem Sound.untaken_passed (sound : state.Sound lifetime creator)
    (untaken : state.refs.shared.strongTaken = false) (i : ι) :
    (state.callers i).pc.passed = false := by
  cases isPassed : (state.callers i).pc.passed with
  | false => rfl
  | true =>
      obtain ⟨k, waits⟩ := sound.passed i isPassed
      rw [sound.untaken_gone untaken k] at waits
      cases waits

omit [DecidableEq ι] [DecidableEq κ] in
/-- Only the creator can be in `run`. -/
theorem Sound.fresh_out (sound : state.Sound lifetime creator)
    (fresh : state.refs.Fresh creator) {i : ι} (isOther : i ≠ creator) :
    (state.callers i).pc = .out := by
  have holdings := sound.caller i
  have notPassed := sound.untaken_passed fresh.untaken i
  have nothing : state.refs.threads (.inl i) = .init :=
    fresh.alone.2 (.inl i) fun same => isOther (Sum.inl.inj same)
  rw [nothing] at holdings
  unfold RunFrame.Holdings at holdings
  split at holdings
  next isOut => exact isOut
  next => simp [RefThread.init, isOther] at holdings
  next => simp [RefThread.init, isOther] at holdings
  next => simp [RefThread.init, isOther] at holdings
  next => simp [RunFrame.Increases, RefThread.init] at holdings
  next => cases holdings
  next => simp [RefThread.init] at holdings
  next isCreated => simp [isCreated, RunPc.passed] at notPassed
  next => simp [RefThread.init] at holdings
  next => simp [RefThread.init] at holdings
  next => simp [RunFrame.Decreases, RefThread.init] at holdings
  next status isUnlock =>
    simp only [isUnlock, RunPc.passed, decide_eq_false_iff_not] at notPassed
    simp [RefThread.init, notPassed] at holdings

/-- A new object is not destroyed. -/
theorem Sound.fresh_alive (sound : state.Sound lifetime creator)
    (fresh : state.refs.Fresh creator) : state.refs.shared.destroyed = 0 := by
  have core := sound.accounted.lawful.core
  cases taken : state.refs.shared.weakTaken with
  | false => exact Nat.eq_zero_of_add_eq_zero_right (core.fresh taken).2.2.1
  | true =>
      cases isLifetime : lifetime with
      | strong =>
          have object := core.object isLifetime
          rw [fresh.untaken, if_neg (by simp)] at object
          exact Nat.eq_zero_of_add_eq_zero_right object
      | weak =>
          have held : 0 < (state.refs.threads (.inl creator)).count lifetime .weaks :=
            Nat.add_pos_left (Nat.add_pos_left (fresh.reachable taken) _) _
          have weaks := Nat.lt_of_lt_of_le held (RefThread.count_le .weaks)
          exact Nat.eq_zero_of_add_eq_zero_right (core.undestroyed weaks isLifetime)

/-! ### The object is there -/

theorem Sound.caller_alive (sound : state.Sound lifetime creator) {i : ι}
    (idle : (state.refs.threads (.inl i)).pc = .idle) (inRun : (state.callers i).pc ≠ .out) :
    state.refs.shared.destroyed = 0 := by
  have holdings := sound.caller i
  have passed : (state.callers i).pc.passed = true → state.refs.shared.destroyed = 0 := by
    intro isPassed
    obtain ⟨k, waits⟩ := sound.passed i isPassed
    exact (sound.accounted.alive ((sound.loop k).waits waits)).1
  have own : 0 < (state.refs.threads (.inl i)).strong → state.refs.shared.destroyed = 0 :=
    fun held => (sound.accounted.alive held).1
  have ownOrFresh : 0 < (state.refs.threads (.inl i)).strong ∨
      i = creator ∧ state.refs.Fresh creator → state.refs.shared.destroyed = 0 := by
    rintro (held | ⟨_, fresh⟩)
    · exact own held
    · exact sound.fresh_alive fresh
  unfold RunFrame.Holdings at holdings
  split at holdings
  next isOut => exact absurd isOut inRun
  next => exact ownOrFresh holdings.2.1
  next => exact ownOrFresh holdings.2.1
  next => exact ownOrFresh holdings.2.1
  next =>
    rw [RunFrame.Increases, idle] at holdings
    exact own holdings.2.1
  next => cases holdings
  next => exact own holdings.2.1
  next isCreated =>
    apply passed
    rw [isCreated]
    rfl
  next => exact own (Nat.lt_of_lt_of_le Nat.zero_lt_two holdings.2.1)
  next => exact own (Nat.lt_of_lt_of_le Nat.zero_lt_two holdings.2.1)
  next =>
    rw [RunFrame.Decreases, idle] at holdings
    exact own holdings.1
  next status isUnlock =>
    by_cases isOk : status = 0
    · apply passed
      rw [isUnlock, isOk]
      rfl
    · exact own (holdings.2 isOk).1

theorem Sound.loop_alive (sound : state.Sound lifetime creator) {k : κ}
    (idle : (state.refs.threads (.inr k)).pc = .idle)
    (touches : (state.loops k).pc.touches = true) : state.refs.shared.destroyed = 0 := by
  have loop := sound.loop k
  have holdings := loop.holdings
  have held : 0 < (state.refs.threads (.inr k)).strong := by
    cases isPc : (state.loops k).pc <;>
      simp only [isPc, LoopPc.touches, Bool.false_eq_true] at touches
    case copy | clear | cleared | tid | ready | exitLock | body | lock =>
      exact loop.waits (by rw [isPc]; rfl)
    case exitRead | exitUnlock | check | unlock =>
      simp only [LoopFrame.holdings, isPc] at holdings
      rw [holdings.idle idle]
      exact Nat.zero_lt_one
  exact (sound.accounted.alive held).1

/-! ### Operations on references -/

omit [Fintype ι] [Fintype κ] in
/-- Where nothing is strange about it, a party accesses the members and calls an operation
without any other effect. -/
theorem perform_eq {party : ι ⊕ κ} {touches : Bool}
    (alive : touches = true → state.refs.shared.destroyed = 0) (members : ThreadMembers ι κ)
    (operation : Option RefOperation) :
    state.perform party touches members operation =
      { state with
        members
        refs := {
          state.refs with
          threads :=
            match operation with
            | none => state.refs.threads
            | some operation =>
                Function.update state.refs.threads party
                  ((state.refs.threads party).begin state.refs.shared operation) } } := by
  have same : (if touches then state.refs.shared.useObject else state.refs.shared) =
      state.refs.shared := by
    split
    next touches => exact Core.useObject_eq (alive touches)
    next => rfl
  cases operation <;> simp only [perform, same]

/-- The references that an operation needs. -/
def Entitles (thread : RefThread) : RefOperation → Prop
  | .incStrong | .decStrong | .creatWeak => 0 < thread.strong
  | .incWeak | .decWeak | .attemptIncStrong => 0 < thread.weak

/-- The call of an operation that the party is entitled to. -/
theorem accounted_begin (accounted : Accounted lifetime state.refs)
    (bounded : state.refs.Bounded) {party : ι ⊕ κ} {operation : RefOperation}
    (idle : (state.refs.threads party).pc = .idle)
    (entitles : Entitles (state.refs.threads party) operation) :
    Accounted lifetime
      { state.refs with
        threads := Function.update state.refs.threads party
          ((state.refs.threads party).begin state.refs.shared operation) } := by
  obtain ⟨next, called⟩ : ∃ next, (state.refs.threads party).call operation = some next := by
    cases operation <;> exact ⟨_, if_pos entitles⟩
  have taken : operation = .incStrong → state.refs.shared.strongTaken = true := by
    rintro rfl
    exact (accounted.alive entitles).2
  rw [RefThread.begin_eq called taken]
  have step : RefStep lifetime party state.refs (.call party operation)
      { state.refs with threads := Function.update state.refs.threads party next } :=
    .call idle called
  exact accounted.step ⟨step, bounded⟩

/-- The bounds leave room for one more reference while an operation has not counted it. -/
theorem room (lifetime : Lifetime) (bounded : state.refs.Bounded) {party : ι ⊕ κ}
    (busy : (state.refs.threads party).pc ≠ .idle) :
    Threads.tally (RefThread.count lifetime) state.refs.threads .strongs + 1 ≤
        2 ^ 28 + (state.refs.threads party).pc.strongs ∧
      Threads.tally (RefThread.count lifetime) state.refs.threads .weaks + 1 <
        2 ^ 31 + (state.refs.threads party).pc.weaks := by
  have few : Few (Threads.tally (RefThread.count lifetime) state.refs.threads) := bounded.few
  have others : Threads.others (RefThread.count lifetime) state.refs.threads party ∈ limits :=
    Threads.others_mem (RefThread.count_mem lifetime) party
  obtain ⟨_, _, _, strongs, _, weaks⟩ := others
  rw [Few, Threads.tally_eq party] at few
  rw [Threads.tally_eq party]
  simp only [Pi.add_apply, RefThread.count, if_neg busy] at few ⊢
  omega

/-! ### What a call of run has changed -/

section Changes

variable {frame : RunFrame κ} {party : ι ⊕ κ} {choice : Bool}

omit [Fintype κ] [DecidableEq κ] in
theorem recorded_changed (inRun : frame.pc ≠ .out) {before after : RefBase}
    {strong weak strong' weak' : Int} (changed : frame.Changed strong weak)
    (isStrong : after.mStrong - before.mStrong = strong' - strong)
    (isWeak : after.mWeak - before.mWeak = weak' - weak) :
    (frame.record before after).Changed strong' weak' := by
  obtain ⟨rfl, rfl⟩ := changed
  rw [RunFrame.record]
  split
  next isOut => exact absurd isOut inRun
  next =>
    constructor
    · exact (congrArg (frame.strongChange + ·) isStrong).trans (by omega)
    · exact (congrArg (frame.weakChange + ·) isWeak).trans (by omega)

/-- An access of the assignment to `mHoldSelf`. -/
theorem increases_advance (accounted : Accounted lifetime state.refs)
    (bounded : state.refs.Bounded) (inRun : frame.pc ≠ .out)
    (busy : (state.refs.threads party).pc ≠ .idle)
    (increases : frame.Increases (state.refs.threads party)) :
    (frame.record state.refs.shared
      (advance lifetime choice state.refs.shared (state.refs.threads party)).1).Increases
        (advance lifetime choice state.refs.shared (state.refs.threads party)).2 := by
  have core := accounted.lawful.core
  have free := room lifetime bounded busy
  have alive : 0 < (state.refs.threads party).strong → state.refs.shared.strongTaken = true :=
    fun held => (accounted.alive held).2
  generalize state.refs.threads party = thread at busy increases free alive ⊢
  obtain ⟨pc, strong, weak⟩ := thread
  cases pc <;> simp only [RunFrame.Increases] at increases
  case idle => exact absurd rfl busy
  case incStrongWeak first =>
    cases first with
    | true => exact increases
    | false =>
        obtain ⟨held, changed⟩ := increases
        have weaks := core.weak
        refine ⟨held, recorded_changed inRun changed (Int.sub_self _) ?_⟩
        change wrapInt32 (state.refs.shared.mWeak + 1) - state.refs.shared.mWeak = 1 - 0
        simp only [Pc.weaks] at free
        rw [wrapInt32_eq (by omega) (by omega)]
        omega
  case incStrongAdd first =>
    cases first with
    | true =>
        cases increases
        simp only [advance]
        split
        next => exact ⟨Nat.zero_lt_one, fun two => absurd two (Nat.not_succ_le_self 1)⟩
        next => rfl
    | false =>
        obtain ⟨held, changed⟩ := increases
        have taken := alive held
        have strongs := core.strong
        simp only [Pc.strongs] at free
        have notInitial : state.refs.shared.mStrong ≠ initialStrongValue := by
          rw [ne_eq, core.initial_iff (by omega), taken]
          decide
        have single := core.single
        simp only [advance, if_pos notInitial]
        refine ⟨Nat.succ_pos _, fun _ => recorded_changed inRun changed ?_ (Int.sub_self _)⟩
        change wrapInt32 (state.refs.shared.mStrong + 1) - state.refs.shared.mStrong = 1 - 0
        simp only [taken, if_true, initialStrongValue] at strongs
        rw [wrapInt32_eq (by omega) (by omega)]
        omega
  case incStrongSub => exact increases
  case incStrongFirstRef =>
    cases increases
    exact ⟨Nat.zero_lt_one, fun two => absurd two (Nat.not_succ_le_self 1)⟩

/-- An access of `mHoldSelf.clear()`. -/
theorem decreases_advance (accounted : Accounted lifetime state.refs)
    (bounded : state.refs.Bounded) (inRun : frame.pc ≠ .out)
    (busy : (state.refs.threads party).pc ≠ .idle)
    (decreases : frame.Decreases (state.refs.threads party)) :
    (frame.record state.refs.shared
      (advance lifetime choice state.refs.shared (state.refs.threads party)).1).Decreases
        (advance lifetime choice state.refs.shared (state.refs.threads party)).2 := by
  have core := accounted.lawful.core
  have free := room lifetime bounded busy
  have alive : 0 < (state.refs.threads party).strong → state.refs.shared.strongTaken = true :=
    fun held => (accounted.alive held).2
  have strongsHeld : (state.refs.threads party).count lifetime .strongs ≤ _ :=
    RefThread.count_le .strongs
  have weaksHeld : (state.refs.threads party).count lifetime .weaks ≤ _ :=
    RefThread.count_le .weaks
  generalize state.refs.threads party = thread at busy decreases free alive strongsHeld weaksHeld ⊢
  obtain ⟨pc, strong, weak⟩ := thread
  cases pc <;> simp only [RunFrame.Decreases] at decreases
  case idle => exact absurd rfl busy
  case decStrongSub =>
    obtain ⟨held, changed⟩ := decreases
    have strongs := core.strong
    have single := core.single
    simp only [RefThread.count, Pc.strongs] at free strongsHeld
    simp only [alive held, if_true, initialStrongValue] at strongs
    have notLast : state.refs.shared.mStrong ≠ 1 := by omega
    simp only [advance, if_neg notLast]
    refine ⟨held, recorded_changed inRun changed ?_ (Int.sub_self _)⟩
    change wrapInt32 (state.refs.shared.mStrong - 1) - state.refs.shared.mStrong = 0 - 1
    rw [wrapInt32_eq (by omega) (by omega)]
    omega
  case decWeakSub =>
    obtain ⟨held, changed⟩ := decreases
    have weaks := core.weak
    simp only [RefThread.count, Pc.weaks] at free weaksHeld
    have notLast : state.refs.shared.mWeak ≠ 1 := by omega
    simp only [advance, if_pos notLast]
    refine ⟨held, recorded_changed inRun changed (Int.sub_self _) ?_⟩
    change wrapInt32 (state.refs.shared.mWeak - 1) - state.refs.shared.mWeak = 0 - 1
    rw [wrapInt32_eq (by omega) (by omega)]
    omega

end Changes

/-! ### Steps on references -/

section Frames

variable {frame : RunFrame κ} {thread : RefThread} {fresh fresh' : Prop}

omit [Fintype κ] [DecidableEq κ]

theorem holdings_out (isOut : frame.pc = .out) : frame.Holdings fresh thread := by
  rw [RunFrame.Holdings, isOut]
  trivial

theorem holdings_mono (holdings : frame.Holdings fresh thread) (stays : fresh → fresh') :
    frame.Holdings fresh' thread := by
  unfold RunFrame.Holdings at holdings ⊢
  cases isPc : frame.pc <;> simp only [isPc] at holdings ⊢ <;>
    first
    | exact holdings
    | exact ⟨holdings.1, holdings.2.1.imp_right stays, holdings.2.2⟩

@[simp] theorem record_pc (before after : RefBase) :
    (frame.record before after).pc = frame.pc := by
  rw [RunFrame.record]
  split <;> rfl

@[simp] theorem record_result (before after : RefBase) :
    (frame.record before after).result = frame.result := by
  rw [RunFrame.record]
  split <;> rfl

theorem record_out (isOut : frame.pc = .out) (before after : RefBase) :
    frame.record before after = frame := by
  rw [RunFrame.record, isOut]

end Frames

omit [Fintype ι] [Fintype κ] [DecidableEq κ] in
theorem recorded_cases (state : ThreadState ι κ) (after : RefBase) (event : RefEvent (ι ⊕ κ))
    (i : ι) :
    state.recorded after event i = state.callers i ∨
      state.recorded after event i = (state.callers i).record state.refs.shared after := by
  unfold recorded
  split
  next j _ =>
    by_cases same : i = j
    · cases same
      exact .inr (Function.update_self ..)
    · exact .inl (Function.update_of_ne same ..)
  next => exact .inl rfl

omit [DecidableEq κ] in
/-- Steps on references leave the parties where they are. -/
theorem Sound.withRefs (sound : state.Sound lifetime creator) {refs : RefState (ι ⊕ κ)}
    {event : RefEvent (ι ⊕ κ)} (accounted : Accounted lifetime refs)
    (holdings : ∀ i, (state.recorded refs.shared event i).Holdings
      (i = creator ∧ refs.Fresh creator) (refs.threads (.inl i)))
    (loops : ∀ k, (state.loops k).holdings (refs.threads (.inr k)) ∧
      ((state.loops k).pc.waits = true → 0 < (refs.threads (.inr k)).strong))
    (taken : state.refs.shared.strongTaken = true → refs.shared.strongTaken = true) :
    ({ state with refs, callers := state.recorded refs.shared event } : ThreadState ι κ).Sound
      lifetime creator := by
  have samePc : ∀ i, (state.recorded refs.shared event i).pc = (state.callers i).pc := by
    intro i
    rcases recorded_cases state refs.shared event i with same | same <;>
      simp only [same, record_pc]
  exact {
    accounted := accounted
    caller := holdings
    loop := fun k => {
      pointers := (sound.loop k).pointers
      holdings := (loops k).1
      waits := (loops k).2
      begun := fun started => taken ((sound.loop k).begun started) }
    lockCaller := fun i isLocked => sound.lockCaller i (samePc i ▸ isLocked)
    lockLoop := sound.lockLoop
    claimed := fun i claims => sound.claimed i (samePc i ▸ claims)
    passed := fun i passed => sound.passed i (samePc i ▸ passed)
    running := fun running => taken (sound.running running)
    active := sound.active
    single := sound.single
    launching := fun i launches => sound.launching i (samePc i ▸ launches)
    holds := fun i holds => sound.holds i (samePc i ▸ holds)
    starting := sound.starting
    heldBy := fun isHeld => by
      rcases sound.heldBy isHeld with ⟨i, holds⟩ | starting
      · exact .inl ⟨i, (samePc i).symm ▸ holds⟩
      · exact .inr starting
    restored := by
      intro i status result
      change (state.recorded refs.shared event i).result = some status at result
      have same : state.recorded refs.shared event i = state.callers i := by
        rcases recorded_cases state refs.shared event i with same | same
        · exact same
        · rw [same] at result ⊢
          rw [record_result] at result
          exact record_out (sound.restored i status result).1 ..
      change (state.recorded refs.shared event i).pc = .out ∧ (status ≠ 0 →
        (state.recorded refs.shared event i).Changed 0 0)
      rw [same] at result ⊢
      exact sound.restored i status result }

theorem advance_taken {choice : Bool} {refs : RefBase} {thread : RefThread}
    (taken : refs.strongTaken = true) :
    (advance lifetime choice refs thread).1.strongTaken = true := by
  obtain ⟨pc, strong, weak⟩ := thread
  cases pc <;> simp only [advance] <;> (repeat' split) <;> first | exact taken | rfl

omit [Fintype ι] [Fintype κ] [DecidableEq ι] [DecidableEq κ] in
/-- The thread does what it expects to. -/
theorem LoopSound.advance {k : κ} (loop : state.LoopSound k) (lifetime : Lifetime) (choice : Bool)
    (refs : RefBase) :
    let next := (Utils.advance lifetime choice refs (state.refs.threads (.inr k))).2
    (state.loops k).holdings next ∧ ((state.loops k).pc.waits = true → 0 < next.strong) := by
  have holdings := loop.holdings
  have waits := loop.waits
  constructor
  · unfold LoopFrame.holdings at holdings ⊢
    split <;> rename_i isPc <;> simp only [isPc] at holdings <;>
      first
      | exact holdings.advance lifetime choice refs
      | exact ⟨holdings.1, holdings.2.advance lifetime choice refs⟩
  · intro isWaiting
    exact Nat.lt_of_lt_of_le (waits isWaiting) (RefThread.le_advance ..)

omit [Fintype ι] [Fintype κ] [DecidableEq ι] [DecidableEq κ] in
/-- Nobody but the creator of a new object has anything to do with it. -/
theorem fresh_init (fresh : state.refs.Fresh creator) {party : ι ⊕ κ}
    (isOther : party ≠ .inl creator) : state.refs.threads party = .init :=
  fresh.alone.2 party isOther

omit [DecidableEq κ] in
/-- Changes of the references of callers outside of `run`. -/
theorem Sound.outside (sound : state.Sound lifetime creator) {event : RefEvent (ι ⊕ κ)}
    {threads : ι ⊕ κ → RefThread}
    (accounted : Accounted lifetime { state.refs with threads })
    (unrecorded : state.recorded state.refs.shared event = state.callers)
    (callers : ∀ i, (state.callers i).pc = .out ∨
      threads (.inl i) = state.refs.threads (.inl i) ∧
        (i = creator ∧ state.refs.Fresh creator →
          RefState.Fresh { state.refs with threads } creator))
    (loops : ∀ k, threads (.inr k) = state.refs.threads (.inr k)) :
    ({ state with
      refs := { state.refs with threads }
      callers := state.recorded state.refs.shared event } : ThreadState ι κ).Sound
        lifetime creator := by
  apply sound.withRefs accounted
  · intro i
    change (state.recorded state.refs.shared event i).Holdings _ (threads (.inl i))
    rw [unrecorded]
    rcases callers i with isOut | ⟨same, stays⟩
    · exact holdings_out isOut
    · rw [same]
      exact holdings_mono (sound.caller i) fun fresh => ⟨fresh.1, stays fresh⟩
  · intro k
    change (state.loops k).holdings (threads (.inr k)) ∧
      ((state.loops k).pc.waits = true → 0 < (threads (.inr k)).strong)
    rw [loops k]
    exact ⟨(sound.loop k).holdings, (sound.loop k).waits⟩
  · exact id

omit [Fintype ι] [Fintype κ] in
/-- The access of a party. -/
def accessed (lifetime : Lifetime) (choice : Bool) (state : ThreadState ι κ) (party : ι ⊕ κ) :
    RefState (ι ⊕ κ) where
  shared := (advance lifetime choice state.refs.shared (state.refs.threads party)).1
  threads := Function.update state.refs.threads party
    (advance lifetime choice state.refs.shared (state.refs.threads party)).2

/-- An access of an operation on references. -/
theorem Sound.advance (sound : state.Sound lifetime creator) (bounded : state.refs.Bounded)
    {party : ι ⊕ κ} {choice : Bool} (busy : (state.refs.threads party).pc ≠ .idle)
    (accounted : Accounted lifetime (state.accessed lifetime choice party)) :
    ({ state with
      refs := state.accessed lifetime choice party
      callers := state.recorded (state.accessed lifetime choice party).shared
        (.advance party choice) } : ThreadState ι κ).Sound lifetime creator := by
  have notFresh : ∀ i, party ≠ .inl i → i = creator ∧ state.refs.Fresh creator → False := by
    rintro i isOther ⟨rfl, fresh⟩
    rw [fresh_init fresh isOther] at busy
    exact busy rfl
  apply sound.withRefs accounted
  · intro i
    have holdings := sound.caller i
    by_cases isMine : party = .inl i
    · cases isMine
      change (Function.update state.callers i _ i).Holdings _
        (Function.update state.refs.threads (Sum.inl i) _ (Sum.inl i))
      rw [Function.update_self, Function.update_self]
      unfold RunFrame.Holdings at holdings ⊢
      rw [record_pc]
      cases isPc : (state.callers i).pc <;> simp only [isPc] at holdings ⊢
      case lock | check | hold | create | fail | clear | unlock =>
        exact absurd holdings.1 busy
      case created => exact absurd holdings busy
      case held old =>
        exact ⟨holdings.1, increases_advance sound.accounted bounded (by simp [isPc]) busy
          holdings.2⟩
      case cleared =>
        exact decreases_advance sound.accounted bounded (by simp [isPc]) busy holdings
    · have same : state.recorded (state.accessed lifetime choice party).shared
          (.advance party choice) i = state.callers i := by
        obtain j | k := party
        · exact Function.update_of_ne (fun isSame => isMine (congrArg Sum.inl isSame.symm)) ..
        · rfl
      change (state.recorded _ _ i).Holdings _ (Function.update state.refs.threads party _ (.inl i))
      rw [same, Function.update_of_ne (Ne.symm isMine)]
      exact holdings_mono holdings fun fresh => (notFresh i isMine fresh).elim
  · intro k
    change (state.loops k).holdings (Function.update state.refs.threads party _ (.inr k)) ∧
      ((state.loops k).pc.waits = true →
        0 < (Function.update state.refs.threads party _ (.inr k)).strong)
    by_cases isMine : party = .inr k
    · cases isMine
      rw [Function.update_self]
      exact (sound.loop k).advance lifetime choice state.refs.shared
    · rw [Function.update_of_ne (Ne.symm isMine)]
      exact ⟨(sound.loop k).holdings, (sound.loop k).waits⟩
  · exact advance_taken

/-- A step on references outside of `run` and `_threadLoop`, or an access of an operation. -/
theorem Sound.refsStep (sound : state.Sound lifetime creator) (bounded : state.refs.Bounded)
    {event : RefEvent (ι ⊕ κ)} {refs : RefState (ι ⊕ κ)} (outside : state.Outside creator event)
    (step : RefStep lifetime (.inl creator) state.refs event refs) :
    ({ state with refs, callers := state.recorded refs.shared event } : ThreadState ι κ).Sound
      lifetime creator := by
  have accounted : Accounted lifetime refs := sound.accounted.step ⟨step, bounded⟩
  have otherCaller : ∀ {i j : ι}, j ≠ i → (Sum.inl j : ι ⊕ κ) ≠ Sum.inl i :=
    fun isOther same => isOther (Sum.inl.inj same)
  cases step with
  | @call party operation next idle called =>
      obtain i | k := party
      · apply sound.outside accounted rfl
        · intro j
          by_cases same : j = i
          · cases same
            exact .inl outside
          · refine .inr ⟨Function.update_of_ne (otherCaller same) .., ?_⟩
            rintro ⟨rfl, fresh⟩
            rw [fresh_init fresh (otherCaller (Ne.symm same))] at called
            cases operation <;> cases called
        · intro k
          exact Function.update_of_ne Sum.inr_ne_inl ..
      · cases outside
  | firstStrong alone untaken reachable =>
      apply sound.outside accounted rfl
      · intro j
        by_cases same : j = creator
        · cases same
          exact .inl outside
        · exact .inr ⟨Function.update_of_ne (otherCaller same) .., fun fresh => (same fresh.1).elim⟩
      · intro k
        exact Function.update_of_ne Sum.inr_ne_inl ..
  | firstWeak alone untaken =>
      apply sound.outside accounted rfl
      · intro j
        by_cases same : j = creator
        · cases same
          exact .inl outside
        · exact .inr ⟨Function.update_of_ne (otherCaller same) .., fun fresh => (same fresh.1).elim⟩
      · intro k
        exact Function.update_of_ne Sum.inr_ne_inl ..
  | advance party choice busy => exact sound.advance bounded busy accounted
  | @give party party' strong weak differ idle idle' hasStrong hasWeak =>
      obtain i | k := party
      · obtain j | k := party'
        · apply sound.outside accounted rfl
          · intro l
            by_cases isGiver : l = i
            · cases isGiver
              exact .inl outside.1
            · by_cases isTaker : l = j
              · cases isTaker
                exact .inl outside.2
              · refine .inr ⟨(Function.update_of_ne (otherCaller isTaker) ..).trans
                  (Function.update_of_ne (otherCaller isGiver) ..), ?_⟩
                rintro ⟨rfl, fresh⟩
                exact fresh.give (otherCaller (Ne.symm isGiver)) (otherCaller (Ne.symm isTaker))
                  hasStrong hasWeak
          · intro k
            exact (Function.update_of_ne Sum.inr_ne_inl ..).trans
              (Function.update_of_ne Sum.inr_ne_inl ..)
        · cases outside
      · cases outside

end ThreadState

end System

end DroidKernal.Utils
