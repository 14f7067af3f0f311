import DroidKernal.Utils.ThreadRun
import Mathlib.Algebra.Order.BigOperators.Group.Finset
import Mathlib.Data.Fintype.BigOperators

/-!
# Threads keep their object

A new thread is handed the reference of `mHoldSelf` and has one until it has had the lock.
At most one thread has not yet cleared `mRunning`, and it alone finds `mHoldSelf` set.
-/

namespace DroidKernal.Utils

open Lib

section System

variable {ι κ : Type*} [Fintype ι] [Fintype κ] [DecidableEq ι] [DecidableEq κ]

namespace ThreadState

variable {lifetime : Lifetime} {creator : ι} {state : ThreadState ι κ}

/-! ### Steps of the new thread -/

/-- What a thread may do to the members: it may take or give back the lock, clear
`mHoldSelf` if it has not done so, and clear `mRunning` when it is active no more. -/
structure LoopMove (state : ThreadState ι κ) (k : κ) (members : ThreadMembers ι κ) (pc : LoopPc) :
    Prop where
  lock : pc.locked = true → members.mLock = some (.inr k)
  lockOthers : ∀ party, party ≠ .inr k → state.members.mLock = some party →
    members.mLock = some party
  active : pc.active = true → (state.loops k).pc.active = true
  waits : (state.loops k).pc.waits = true → pc.waits = true ∨ state.members.mLock = none
  running : members.mRunning = state.members.mRunning ∨
    members.mRunning = false ∧ (state.loops k).pc.active = true ∧ pc.active = false
  holding : members.mHoldSelf = state.members.mHoldSelf ∧
      pc.starting = (state.loops k).pc.starting ∨
    members.mHoldSelf = false ∧ (state.loops k).pc.starting = true ∧ pc.starting = false

omit [DecidableEq ι] in
/-- A thread goes on. -/
theorem Sound.moveLoop (sound : state.Sound lifetime creator) {k : κ} {frame : LoopFrame}
    {members : ThreadMembers ι κ} {threads : ι ⊕ κ → RefThread}
    (started : (state.loops k).pc ≠ .gone) (move : state.LoopMove k members frame.pc)
    (accounted : Accounted lifetime { state.refs with threads })
    (others : ∀ party, party ≠ .inr k → threads party = state.refs.threads party)
    (pointers : frame.pointers) (holdings : frame.holdings (threads (.inr k)))
    (waits : frame.pc.waits = true → 0 < (threads (.inr k)).strong) :
    ({ state with
      refs := { state.refs with threads }
      members
      loops := Function.update state.loops k frame } : ThreadState ι κ).Sound
        lifetime creator := by
  have taken := (sound.loop k).begun started
  obtain ⟨here, there⟩ : Function.update state.loops k frame k = frame ∧
      ∀ k', k' ≠ k → Function.update state.loops k frame k' = state.loops k' :=
    ⟨Function.update_self .., fun _ isOther => Function.update_of_ne isOther ..⟩
  have other : ∀ {k'}, k' ≠ k → (Sum.inr k' : ι ⊕ κ) ≠ .inr k :=
    fun isOther same => isOther (Sum.inr.inj same)
  -- who is active is so already
  have stays : ∀ k', (Function.update state.loops k frame k').pc.active = true →
      (state.loops k').pc.active = true := by
    intro k' active
    by_cases same : k' = k
    · cases same
      rw [here] at active
      exact move.active active
    · rwa [there k' same] at active
  have inactive : (state.loops k).pc.active = true → frame.pc.active = false →
      ∀ k', (Function.update state.loops k frame k').pc.active = false := by
    intro wasActive isInactive k'
    refine Bool.eq_false_iff.mpr fun active => ?_
    have same : k' = k := sound.single k' k (stays k' active) wasActive
    rw [same, here, isInactive] at active
    cases active
  exact {
    accounted := accounted
    caller := by
      intro i
      change (state.callers i).Holdings _ (threads (.inl i))
      rw [others _ Sum.inl_ne_inr]
      refine holdings_mono (sound.caller i) ?_
      rintro ⟨_, fresh⟩
      cases taken.symm.trans fresh.untaken
    loop := by
      intro k'
      by_cases same : k' = k
      · cases same
        exact {
          pointers := by
            change (Function.update state.loops k frame k).pointers
            rwa [here]
          holdings := by
            change (Function.update state.loops k frame k).holdings (threads (.inr k))
            rwa [here]
          waits := by
            change (Function.update state.loops k frame k).pc.waits = true → _
            rwa [here]
          begun := fun _ => taken }
      · have loop := sound.loop k'
        exact {
          pointers := by
            change (Function.update state.loops k frame k').pointers
            rw [there k' same]
            exact loop.pointers
          holdings := by
            change (Function.update state.loops k frame k').holdings (threads (.inr k'))
            rw [there k' same, others _ (other same)]
            exact loop.holdings
          waits := by
            change (Function.update state.loops k frame k').pc.waits = true →
              0 < (threads (.inr k')).strong
            rw [there k' same, others _ (other same)]
            exact loop.waits
          begun := fun _ => taken }
    lockCaller := fun i isLocked => move.lockOthers _ Sum.inl_ne_inr (sound.lockCaller i isLocked)
    lockLoop := by
      intro k' isLocked
      change (Function.update state.loops k frame k').pc.locked = true at isLocked
      by_cases same : k' = k
      · cases same
        rw [here] at isLocked
        exact move.lock isLocked
      · rw [there k' same] at isLocked
        exact move.lockOthers _ (other same) (sound.lockLoop k' isLocked)
    claimed := by
      intro i claims k'
      refine Bool.eq_false_iff.mpr fun active => ?_
      have wasActive := stays k' active
      rw [sound.claimed i claims k'] at wasActive
      cases wasActive
    passed := by
      intro i hasPassed
      obtain ⟨k', waiting⟩ := sound.passed i hasPassed
      refine ⟨k', ?_⟩
      change (Function.update state.loops k frame k').pc.waits = true
      by_cases same : k' = k
      · cases same
        rw [here]
        refine (move.waits waiting).resolve_right fun isFree => ?_
        cases isFree.symm.trans (sound.lockCaller i (passed_locked hasPassed))
      · rwa [there k' same]
    running := fun _ => taken
    active := by
      intro k' active
      rcases move.running with same | ⟨_, wasActive, isInactive⟩
      · exact same.trans (sound.active k' (stays k' active))
      · rw [inactive wasActive isInactive k'] at active
        cases active
    single := fun k' k'' active active' =>
      sound.single k' k'' (stays k' active) (stays k'' active')
    launching := by
      intro i launches
      rcases move.running with same | ⟨_, wasActive, _⟩
      · exact same.trans (sound.launching i launches)
      · have isInactive := sound.claimed i (by rw [launches]; rfl) k
        rw [wasActive] at isInactive
        cases isInactive
    holds := by
      intro i isHolding
      rcases move.holding with ⟨same, _⟩ | ⟨_, starting, _⟩
      · exact same.trans (sound.holds i isHolding)
      · exact (sound.not_starting (holds_claims isHolding) k starting).elim
    starting := by
      intro k' starting
      change (Function.update state.loops k frame k').pc.starting = true at starting
      rcases move.holding with ⟨sameHeld, sameStarting⟩ | ⟨_, wasStarting, notStarting⟩
      · apply sameHeld.trans
        by_cases same : k' = k
        · cases same
          rw [here, sameStarting] at starting
          exact sound.starting k starting
        · rw [there k' same] at starting
          exact sound.starting k' starting
      · have same : k' = k := sound.single k' k (stays k' (starting_active starting))
          (starting_active wasStarting)
        rw [same, here, notStarting] at starting
        cases starting
    heldBy := by
      intro isHeld
      change members.mHoldSelf = true at isHeld
      rcases move.holding with ⟨sameHeld, sameStarting⟩ | ⟨notHeld, _⟩
      · refine (sound.heldBy (sameHeld ▸ isHeld)).imp_right ?_
        rintro ⟨k', starting⟩
        refine ⟨k', ?_⟩
        change (Function.update state.loops k frame k').pc.starting = true
        by_cases same : k' = k
        · cases same
          rw [here, sameStarting]
          exact starting
        · rwa [there k' same]
      · cases notHeld.symm.trans isHeld
    restored := sound.restored }

section Loop

variable {k : κ} {members : ThreadMembers ι κ} {frame : LoopFrame}

/-- An access without an operation. -/
theorem Sound.loopKeeps (sound : state.Sound lifetime creator)
    (idle : (state.refs.threads (.inr k)).pc = .idle) (started : (state.loops k).pc ≠ .gone)
    (move : state.LoopMove k members frame.pc) (pointers : frame.pointers)
    (holdings : frame.holdings (state.refs.threads (.inr k)))
    (waits : frame.pc.waits = true → 0 < (state.refs.threads (.inr k)).strong) :
    ({ state.perform (.inr k) (state.loops k).pc.touches members none with
      loops := Function.update state.loops k frame } : ThreadState ι κ).Sound
        lifetime creator := by
  rw [perform_eq fun touches => sound.loop_alive idle touches]
  exact sound.moveLoop started move sound.accounted (fun _ _ => rfl) pointers holdings waits

/-- An access that calls an operation. -/
theorem Sound.loopBegins (sound : state.Sound lifetime creator) (bounded : state.refs.Bounded)
    {operation : RefOperation} (idle : (state.refs.threads (.inr k)).pc = .idle)
    (entitles : Entitles (state.refs.threads (.inr k)) operation)
    (started : (state.loops k).pc ≠ .gone) (move : state.LoopMove k members frame.pc)
    (pointers : frame.pointers)
    (holdings : frame.holdings
      ((state.refs.threads (.inr k)).begin state.refs.shared operation))
    (waits : frame.pc.waits = true →
      0 < ((state.refs.threads (.inr k)).begin state.refs.shared operation).strong) :
    ({ state.perform (.inr k) (state.loops k).pc.touches members (some operation) with
      loops := Function.update state.loops k frame } : ThreadState ι κ).Sound
        lifetime creator := by
  rw [perform_eq fun touches => sound.loop_alive idle touches]
  have here : Function.update state.refs.threads (.inr k)
      ((state.refs.threads (.inr k)).begin state.refs.shared operation) (.inr k) =
        (state.refs.threads (.inr k)).begin state.refs.shared operation :=
    Function.update_self ..
  refine sound.moveLoop started move (accounted_begin sound.accounted bounded idle entitles)
    (fun _ isOther => Function.update_of_ne isOther ..) pointers ?_ ?_
  · change frame.holdings (Function.update state.refs.threads (Sum.inr k) _ (Sum.inr k))
    rwa [here]
  · change _ → 0 < (Function.update state.refs.threads (Sum.inr k) _ (Sum.inr k)).strong
    rwa [here]

omit [Fintype ι] [Fintype κ] [DecidableEq ι] [DecidableEq κ] in
/-- The lock, `mRunning` and `mHoldSelf` are left as they are. -/
theorem quietMove {pc : LoopPc} (sameLock : members.mLock = state.members.mLock)
    (sameRunning : members.mRunning = state.members.mRunning)
    (sameHeld : members.mHoldSelf = state.members.mHoldSelf)
    (lock : pc.locked = true → state.members.mLock = some (.inr k))
    (active : pc.active = true → (state.loops k).pc.active = true)
    (waits : (state.loops k).pc.waits = true → pc.waits = true)
    (starting : pc.starting = (state.loops k).pc.starting) : state.LoopMove k members pc where
  lock := fun isLocked => sameLock.trans (lock isLocked)
  lockOthers := fun _ _ isOwner => sameLock.trans isOwner
  active := active
  waits := fun isWaiting => .inl (waits isWaiting)
  running := .inl sameRunning
  holding := .inl ⟨sameHeld, starting⟩

omit [Fintype ι] [Fintype κ] [DecidableEq ι] [DecidableEq κ] in
theorem takeLock {pc : LoopPc} (free : state.members.mLock = none)
    (active : (state.loops k).pc.active = true) (waits : pc.starting = false)
    (starting : (state.loops k).pc.starting = false) :
    state.LoopMove k { state.members with mLock := some (.inr k) } pc where
  lock := fun _ => rfl
  lockOthers := by
    intro party _ isOwner
    cases free.symm.trans isOwner
  active := fun _ => active
  waits := fun _ => .inr free
  running := .inl rfl
  holding := .inl ⟨rfl, waits.trans starting.symm⟩

omit [Fintype ι] [Fintype κ] [DecidableEq ι] [DecidableEq κ] in
theorem giveLock {pc : LoopPc} (mine : state.members.mLock = some (.inr k))
    (unlocked : pc.locked = false) (active : pc.active = true → (state.loops k).pc.active = true)
    (waits : (state.loops k).pc.waits = true → pc.waits = true)
    (starting : pc.starting = (state.loops k).pc.starting) :
    state.LoopMove k { state.members with mLock := none } pc where
  lock := by
    intro isLocked
    rw [unlocked] at isLocked
    cases isLocked
  lockOthers := by
    intro party isOther isOwner
    cases mine.symm.trans isOwner
    exact absurd rfl isOther
  active := active
  waits := fun isWaiting => .inl (waits isWaiting)
  running := .inl rfl
  holding := .inl ⟨rfl, starting⟩

/-- Until the thread has cleared `mHoldSelf`. -/
theorem Sound.loopStart (sound : state.Sound lifetime creator) (bounded : state.refs.Bounded)
    {answer : Int} {operation : Option RefOperation}
    (idle : (state.refs.threads (.inr k)).pc = .idle)
    (starts : (state.loops k).pc.starting = true)
    (advanced : (state.loops k).advance k answer (state.refs.threads (.inr k)) state.members =
      some (members, frame, operation)) :
    ({ state.perform (.inr k) (state.loops k).pc.touches members operation with
      loops := Function.update state.loops k frame } : ThreadState ι κ).Sound
        lifetime creator := by
  have loop := sound.loop k
  have pointers := loop.pointers
  have holdings := loop.holdings
  have isHeld := sound.starting k starts
  unfold LoopFrame.pointers at pointers
  unfold LoopFrame.holdings at holdings
  cases isPc : (state.loops k).pc <;>
    simp only [isPc, LoopPc.starting, Bool.false_eq_true] at starts <;>
    simp only [LoopFrame.advance, isPc] at advanced pointers holdings
  case copy =>
    rw [if_pos isHeld] at advanced
    cases advanced
    have one : 0 < (state.refs.threads (.inr k)).strong := loop.waits (by rw [isPc]; rfl)
    have move : state.LoopMove k state.members .weakCopy :=
      quietMove rfl rfl rfl (fun none => nomatch none) (fun _ => by rw [isPc]; rfl)
        (fun _ => rfl) (by rw [isPc]; rfl)
    have begun := RefThread.begin_expects holdings idle state.refs.shared
    rw [← isPc]
    exact sound.loopBegins bounded idle one (by simp [isPc]) move isHeld begun.1 fun _ => one
  case weakCopy =>
    rw [if_pos pointers] at advanced
    cases advanced
    have one : 0 < (state.refs.threads (.inr k)).strong := loop.waits (by rw [isPc]; rfl)
    have move : state.LoopMove k state.members .clear :=
      quietMove rfl rfl rfl (fun none => nomatch none) (fun _ => by rw [isPc]; rfl)
        (fun _ => rfl) (by rw [isPc]; rfl)
    have begun := RefThread.begin_expects holdings idle state.refs.shared
    rw [← isPc]
    exact sound.loopBegins bounded idle one (by simp [isPc]) move ⟨pointers, pointers⟩ begun.2.2.1
      fun _ => one
  case clear =>
    rw [if_pos isHeld] at advanced
    cases advanced
    have one : 0 < (state.refs.threads (.inr k)).strong := loop.waits (by rw [isPc]; rfl)
    have move : state.LoopMove k state.members .cleared :=
      quietMove rfl rfl rfl (fun none => nomatch none) (fun _ => by rw [isPc]; rfl)
        (fun _ => rfl) (by rw [isPc]; rfl)
    have begun := RefThread.begin_expects holdings idle state.refs.shared
    have remains : 0 < (state.refs.threads (.inr k)).strong - 1 := by
      rw [holdings.idle idle]
      exact Nat.zero_lt_one
    rw [← isPc]
    exact sound.loopBegins bounded idle one (by simp [isPc]) move pointers begun.2.1
      fun _ => remains
  case cleared =>
    cases advanced
    have one : 0 < (state.refs.threads (.inr k)).strong := loop.waits (by rw [isPc]; rfl)
    have move : state.LoopMove k { state.members with mHoldSelf := false } .tid := {
      lock := fun none => nomatch none
      lockOthers := fun _ _ => id
      active := fun _ => by rw [isPc]; rfl
      waits := fun _ => .inl rfl
      running := .inl rfl
      holding := .inr ⟨rfl, by rw [isPc]; rfl, rfl⟩ }
    rw [← isPc]
    exact sound.loopKeeps idle (by simp [isPc]) move pointers holdings fun _ => one

/-- The turns of the loop. -/
theorem Sound.loopTurn (sound : state.Sound lifetime creator) {answer : Int}
    {operation : Option RefOperation} (idle : (state.refs.threads (.inr k)).pc = .idle)
    (touches : (state.loops k).pc.touches = true)
    (starts : (state.loops k).pc.starting = false)
    (advanced : (state.loops k).advance k answer (state.refs.threads (.inr k)) state.members =
      some (members, frame, operation)) :
    ({ state.perform (.inr k) (state.loops k).pc.touches members operation with
      loops := Function.update state.loops k frame } : ThreadState ι κ).Sound
        lifetime creator := by
  have loop := sound.loop k
  have pointers := loop.pointers
  have holdings := loop.holdings
  have mine := sound.lockLoop k
  unfold LoopFrame.pointers at pointers
  unfold LoopFrame.holdings at holdings
  cases isPc : (state.loops k).pc <;>
    simp only [isPc, LoopPc.touches, LoopPc.starting, Bool.false_eq_true, Bool.true_eq_false]
      at touches starts <;>
    simp only [LoopFrame.advance, isPc] at advanced pointers holdings mine
  all_goals
    have one : 0 < (state.refs.threads (.inr k)).strong := by
      rw [holdings.idle idle]
      exact Nat.zero_lt_one
  case tid =>
    cases advanced
    have move : state.LoopMove k { state.members with mTid := some k } .ready :=
      quietMove rfl rfl rfl (absurd · Bool.false_ne_true) (fun _ => by rw [isPc]; rfl)
        (fun _ => rfl) (by rw [isPc]; rfl)
    rw [← isPc]
    exact sound.loopKeeps idle (by simp [isPc]) move pointers holdings fun _ => one
  case ready =>
    cases advanced
    rw [← isPc]
    split
    next =>
      have move : state.LoopMove k { state.members with mStatus := answer } .exitLock :=
        quietMove rfl rfl rfl (absurd · Bool.false_ne_true) (fun _ => by rw [isPc]; rfl)
          (fun _ => rfl) (by rw [isPc]; rfl)
      exact sound.loopKeeps idle (by simp [isPc]) move pointers holdings fun _ => one
    next =>
      have move : state.LoopMove k { state.members with mStatus := answer } (.lock false) :=
        quietMove rfl rfl rfl (absurd · Bool.false_ne_true) (fun _ => by rw [isPc]; rfl)
          (fun _ => rfl) (by rw [isPc]; rfl)
      exact sound.loopKeeps idle (by simp [isPc]) move pointers holdings fun _ => one
  case exitLock =>
    split at advanced
    next isFree =>
      cases advanced
      have move : state.LoopMove k _ .exitRead :=
        takeLock (Option.isNone_iff_eq_none.mp isFree) (by rw [isPc]; rfl) rfl (by rw [isPc]; rfl)
      rw [← isPc]
      exact sound.loopKeeps idle (by simp [isPc]) move pointers holdings fun _ => one
    next => cases advanced
  case exitRead =>
    cases advanced
    have move : state.LoopMove k state.members (.exitUnlock state.members.mExitPending) :=
      quietMove rfl rfl rfl (fun _ => mine rfl) (fun _ => by rw [isPc]; rfl)
        (fun waits => by rw [isPc] at waits; cases waits) (by rw [isPc]; rfl)
    rw [← isPc]
    exact sound.loopKeeps idle (by simp [isPc]) move pointers holdings fun _ => one
  case exitUnlock pending =>
    cases advanced
    rw [← isPc]
    cases pending with
    | true =>
        have move : state.LoopMove k _ (.lock true) :=
          giveLock (mine rfl) rfl (fun _ => by rw [isPc]; rfl) (fun _ => rfl) (by rw [isPc]; rfl)
        exact sound.loopKeeps idle (by simp [isPc]) move pointers holdings fun _ => one
    | false =>
        have move : state.LoopMove k _ .body :=
          giveLock (mine rfl) rfl (fun _ => by rw [isPc]; rfl) (fun _ => rfl) (by rw [isPc]; rfl)
        exact sound.loopKeeps idle (by simp [isPc]) move pointers holdings fun _ => one
  case body =>
    cases advanced
    have move : state.LoopMove k state.members (.lock (answer ≠ 0)) :=
      quietMove rfl rfl rfl (absurd · Bool.false_ne_true) (fun _ => by rw [isPc]; rfl)
        (fun _ => rfl) (by rw [isPc]; rfl)
    rw [← isPc]
    exact sound.loopKeeps idle (by simp [isPc]) move pointers holdings fun _ => one
  case lock result =>
    split at advanced
    next isFree =>
      cases advanced
      have move : state.LoopMove k _ (.check result) :=
        takeLock (Option.isNone_iff_eq_none.mp isFree) (by rw [isPc]; rfl) rfl (by rw [isPc]; rfl)
      rw [← isPc]
      exact sound.loopKeeps idle (by simp [isPc]) move pointers holdings fun _ => one
    next => cases advanced
  case check result =>
    split at advanced
    next =>
      cases advanced
      have move : state.LoopMove k
          { state.members with mExitPending := true, mRunning := false, mThread := none }
          (.unlock true) := {
        lock := fun _ => mine rfl
        lockOthers := fun _ _ => id
        active := (absurd · Bool.false_ne_true)
        waits := fun waits => by rw [isPc] at waits; cases waits
        running := .inr ⟨rfl, by rw [isPc]; rfl, rfl⟩
        holding := .inl ⟨rfl, by rw [isPc]; rfl⟩ }
      rw [← isPc]
      exact sound.loopKeeps idle (by simp [isPc]) move pointers holdings fun _ => one
    next =>
      cases advanced
      have move : state.LoopMove k state.members (.unlock false) :=
        quietMove rfl rfl rfl (fun _ => mine rfl) (fun _ => by rw [isPc]; rfl)
          (fun waits => by rw [isPc] at waits; cases waits) (by rw [isPc]; rfl)
      rw [← isPc]
      exact sound.loopKeeps idle (by simp [isPc]) move pointers holdings fun _ => one
  case unlock stop =>
    cases advanced
    rw [← isPc]
    cases stop with
    | true =>
        have move : state.LoopMove k _ .dropWeak :=
          giveLock (mine rfl) rfl (absurd · Bool.false_ne_true)
            (fun waits => by rw [isPc] at waits; cases waits) (by rw [isPc]; rfl)
        refine sound.loopKeeps idle (by simp [isPc]) move pointers.2 ?_ fun _ => one
        simp only [LoopFrame.holdings, LoopFrame.goto, pointers.1, if_true]
        exact holdings
    | false =>
        have move : state.LoopMove k _ .clearStrong :=
          giveLock (mine rfl) rfl (fun _ => by rw [isPc]; rfl)
            (fun waits => by rw [isPc] at waits; cases waits) (by rw [isPc]; rfl)
        exact sound.loopKeeps idle (by simp [isPc]) move pointers holdings fun _ => one

/-- Promotion, and the destructors. -/
theorem Sound.loopRefs (sound : state.Sound lifetime creator) (bounded : state.refs.Bounded)
    {answer : Int} {operation : Option RefOperation}
    (idle : (state.refs.threads (.inr k)).pc = .idle)
    (touches : (state.loops k).pc.touches = false)
    (starts : (state.loops k).pc.starting = false)
    (advanced : (state.loops k).advance k answer (state.refs.threads (.inr k)) state.members =
      some (members, frame, operation)) :
    ({ state.perform (.inr k) (state.loops k).pc.touches members operation with
      loops := Function.update state.loops k frame } : ThreadState ι κ).Sound
        lifetime creator := by
  have loop := sound.loop k
  have pointers := loop.pointers
  have holdings := loop.holdings
  unfold LoopFrame.pointers at pointers
  unfold LoopFrame.holdings at holdings
  have move : ∀ {pc : LoopPc}, pc.locked = false → pc.starting = false →
      (pc.active = true → (state.loops k).pc.active = true) →
      ((state.loops k).pc.waits = true → pc.waits = true) → state.LoopMove k state.members pc := by
    intro pc unlocked starting active waits
    refine quietMove rfl rfl rfl ?_ active waits (starting.trans starts.symm)
    intro isLocked
    cases unlocked.symm.trans isLocked
  cases isPc : (state.loops k).pc <;>
    simp only [isPc, LoopPc.touches, LoopPc.starting, Bool.true_eq_false] at touches starts <;>
    simp only [LoopFrame.advance, isPc] at advanced pointers holdings move <;>
    rw [← isPc]
  case gone => cases advanced
  case clearStrong =>
    rw [if_pos pointers.1] at advanced
    cases advanced
    have one : 0 < (state.refs.threads (.inr k)).strong := by
      rw [holdings.idle idle]
      exact Nat.zero_lt_one
    have begun := RefThread.begin_expects holdings idle state.refs.shared
    exact sound.loopBegins bounded idle one (by simp [isPc])
      (move rfl rfl (fun _ => rfl) (absurd · Bool.false_ne_true)) ⟨rfl, pointers.2⟩ begun.2.1
      (absurd · Bool.false_ne_true)
  case promote =>
    rw [if_pos pointers.2] at advanced
    cases advanced
    have isThread := holdings.idle idle
    have one : 0 < (state.refs.threads (.inr k)).weak := by
      rw [isThread]
      exact Nat.zero_lt_one
    have begun := RefThread.begin_expects holdings idle state.refs.shared
    have nothing : (state.refs.threads (.inr k)).strong = 0 := by rw [isThread]
    exact sound.loopBegins bounded idle one (by simp [isPc])
      (move rfl rfl (fun _ => rfl) (absurd · Bool.false_ne_true)) pointers
      ⟨nothing, begun.2.2.2.2 rfl⟩ (absurd · Bool.false_ne_true)
  case promoted before =>
    obtain ⟨rfl, promotes⟩ := holdings
    rcases promotes with ⟨unsettled, _⟩ | expects | ⟨expects, _⟩
    · rw [idle] at unsettled
      cases unsettled
    · have isThread := expects.idle idle
      rw [isThread] at advanced
      cases advanced
      exact sound.loopKeeps idle (by simp [isPc])
        (move rfl rfl (fun _ => rfl) (absurd · Bool.false_ne_true)) ⟨rfl, pointers.2⟩ expects
        (absurd · Bool.false_ne_true)
    · have isThread := expects.idle idle
      rw [isThread] at advanced
      cases advanced
      have one : 0 < (state.refs.threads (.inr k)).strong := by
        rw [isThread]
        exact Nat.zero_lt_one
      have begun := RefThread.begin_expects expects idle state.refs.shared
      exact sound.loopBegins bounded idle one (by simp [isPc])
        (move rfl rfl (fun _ => rfl) (absurd · Bool.false_ne_true)) ⟨rfl, pointers.2⟩ begun.1
        (absurd · Bool.false_ne_true)
  case assigned result =>
    obtain ⟨isStrong, isWeak⟩ := pointers
    cases result with
    | true =>
        simp only [if_true] at advanced holdings
        cases advanced
        have two : 0 < (state.refs.threads (.inr k)).strong := by
          rw [holdings.idle idle]
          exact Nat.zero_lt_two
        have begun := RefThread.begin_expects holdings idle state.refs.shared
        refine sound.loopBegins bounded idle two (by simp [isPc])
          (move rfl rfl (fun _ => rfl) (absurd · Bool.false_ne_true)) isWeak ?_
          (absurd · Bool.false_ne_true)
        simp only [LoopFrame.holdings, LoopFrame.goto, isStrong, if_true]
        exact begun.2.1
    | false =>
        simp only [Bool.false_eq_true, if_false] at advanced holdings
        cases advanced
        refine sound.loopKeeps idle (by simp [isPc])
          (move rfl rfl (fun _ => rfl) (absurd · Bool.false_ne_true)) isWeak ?_
          (absurd · Bool.false_ne_true)
        simp only [LoopFrame.holdings, LoopFrame.goto, isStrong, Bool.false_eq_true, if_false]
        exact holdings
  case test =>
    cases isStrong : (state.loops k).strong with
    | true =>
        simp only [isStrong, if_true] at advanced holdings
        cases advanced
        have one : 0 < (state.refs.threads (.inr k)).strong := by
          rw [holdings.idle idle]
          exact Nat.zero_lt_one
        exact sound.loopKeeps idle (by simp [isPc])
          (move rfl rfl (fun _ => rfl) (absurd · Bool.false_ne_true)) ⟨isStrong, pointers⟩ holdings
          fun _ => one
    | false =>
        simp only [isStrong, Bool.false_eq_true, if_false] at advanced holdings
        cases advanced
        refine sound.loopKeeps idle (by simp [isPc])
          (move rfl rfl (fun _ => rfl) (absurd · Bool.false_ne_true)) pointers ?_
          (absurd · Bool.false_ne_true)
        simp only [LoopFrame.holdings, LoopFrame.goto, isStrong, Bool.false_eq_true, if_false]
        exact holdings
  case dropWeak =>
    rw [if_pos pointers] at advanced
    cases advanced
    have one : 0 < (state.refs.threads (.inr k)).weak := by
      rw [holdings.idle idle]
      exact Nat.zero_lt_one
    have begun := RefThread.begin_expects holdings idle state.refs.shared
    exact sound.loopBegins bounded idle one (by simp [isPc])
      (move rfl rfl (absurd · Bool.false_ne_true) (absurd · Bool.false_ne_true)) trivial
      begun.2.2.2.1 (absurd · Bool.false_ne_true)
  case dropStrong =>
    cases isStrong : (state.loops k).strong with
    | true =>
        simp only [isStrong, if_true] at advanced holdings
        cases advanced
        have one : 0 < (state.refs.threads (.inr k)).strong := by
          rw [holdings.idle idle]
          exact Nat.zero_lt_one
        have begun := RefThread.begin_expects holdings idle state.refs.shared
        exact sound.loopBegins bounded idle one (by simp [isPc])
          (move rfl rfl (absurd · Bool.false_ne_true) (absurd · Bool.false_ne_true)) trivial
          begun.2.1 (absurd · Bool.false_ne_true)
    | false =>
        simp only [isStrong, Bool.false_eq_true, if_false] at advanced holdings
        cases advanced
        exact sound.loopKeeps idle (by simp [isPc])
          (move rfl rfl (absurd · Bool.false_ne_true) (absurd · Bool.false_ne_true)) trivial
          holdings (absurd · Bool.false_ne_true)

/-- An access of `_threadLoop`. -/
theorem Sound.loopStep (sound : state.Sound lifetime creator) (bounded : state.refs.Bounded)
    {answer : Int} {operation : Option RefOperation}
    (idle : (state.refs.threads (.inr k)).pc = .idle)
    (advanced : (state.loops k).advance k answer (state.refs.threads (.inr k)) state.members =
      some (members, frame, operation)) :
    ({ state.perform (.inr k) (state.loops k).pc.touches members operation with
      loops := Function.update state.loops k frame } : ThreadState ι κ).Sound
        lifetime creator := by
  cases starts : (state.loops k).pc.starting with
  | true => exact sound.loopStart bounded idle starts advanced
  | false =>
      cases touches : (state.loops k).pc.touches with
      | true =>
          rw [← touches]
          exact sound.loopTurn idle touches starts advanced
      | false =>
          rw [← touches]
          exact sound.loopRefs bounded idle touches starts advanced

end Loop

/-! ### A new thread -/

/-- The reference of `mHoldSelf` is handed to the new thread. -/
theorem Sound.create (sound : state.Sound lifetime creator) (bounded : state.refs.Bounded)
    {i : ι} {k : κ} (idle : (state.refs.threads (.inl i)).pc = .idle)
    (creates : (state.callers i).pc = .create)
    (idle' : (state.refs.threads (.inr k)).pc = .idle) (gone : (state.loops k).pc = .gone) :
    ({ state with
      refs := {
        state.refs with
        threads := Function.update
          (Function.update state.refs.threads (.inl i)
            { state.refs.threads (.inl i) with
              strong := (state.refs.threads (.inl i)).strong - 1 })
          (.inr k)
          { state.refs.threads (.inr k) with
            strong := (state.refs.threads (.inr k)).strong + 1 } }
      callers := Function.update state.callers i ((state.callers i).goto (.created k))
      loops := Function.update state.loops k .start } : ThreadState ι κ).Sound
        lifetime creator := by
  have holdings := sound.caller i
  simp only [RunFrame.Holdings, creates] at holdings
  have held := holdings.2.1
  have taken := (sound.accounted.alive held).2
  have claims : (state.callers i).pc.claims = true := by rw [creates]; rfl
  have mine : state.members.mLock = some (.inl i) := sound.lockCaller i (by rw [creates]; rfl)
  have isHeld : state.members.mHoldSelf = true := sound.holds i (by rw [creates]; rfl)
  obtain ⟨callersUnlocked, loopsUnlocked⟩ := sound.unlocked (.inr mine)
  have expects : (state.refs.threads (.inr k)).Expects 0 0 := by
    have loop := (sound.loop k).holdings
    rwa [LoopFrame.holdings, gone] at loop
  have nothing : state.refs.threads (.inr k) = ⟨.idle, 0, 0⟩ := expects.idle idle'
  -- only the caller had the lock
  have callerAt : ∀ {p : RunPc κ → Bool} {j : ι}, (∀ {pc}, p pc = true → pc.locked = true) →
      p (Function.update state.callers i ((state.callers i).goto (.created k)) j).pc = true →
      j = i ∧ p (.created k) = true := by
    intro p j within isAt
    by_cases same : j = i
    · cases same
      rw [Function.update_self] at isAt
      exact ⟨rfl, isAt⟩
    · rw [Function.update_of_ne same] at isAt
      have unlocked := callersUnlocked j fun isSame => same (Sum.inl.inj isSame)
      rw [within isAt] at unlocked
      cases unlocked
  -- no other thread is active
  have loopAt : ∀ {p : LoopPc → Bool} {k' : κ}, (∀ {pc}, p pc = true → pc.active = true) →
      p (Function.update state.loops k .start k').pc = true → k' = k := by
    intro p k' within isAt
    by_contra same
    rw [Function.update_of_ne same] at isAt
    have inactive := sound.claimed i claims k'
    rw [within isAt] at inactive
    cases inactive
  have here : Function.update state.loops k .start k = .start := Function.update_self ..
  have giver : { state.refs.threads (.inl i) with
        strong := (state.refs.threads (.inl i)).strong - 1 } =
      (⟨.idle, (state.refs.threads (.inl i)).strong - 1,
        (state.refs.threads (.inl i)).weak - 0⟩ : RefThread) := by
    rw [← idle, Nat.sub_zero]
  have taker : { state.refs.threads (.inr k) with
        strong := (state.refs.threads (.inr k)).strong + 1 } =
      (⟨.idle, (state.refs.threads (.inr k)).strong + 1,
        (state.refs.threads (.inr k)).weak + 0⟩ : RefThread) := by
    rw [← idle']
    rfl
  rw [giver, taker]
  obtain ⟨threads, isThreads⟩ : ∃ threads, threads =
      Function.update
        (Function.update state.refs.threads (.inl i)
          ⟨.idle, (state.refs.threads (.inl i)).strong - 1,
            (state.refs.threads (.inl i)).weak - 0⟩)
        (.inr k)
        (⟨.idle, (state.refs.threads (.inr k)).strong + 1,
          (state.refs.threads (.inr k)).weak + 0⟩ : RefThread) := ⟨_, rfl⟩
  rw [← isThreads]
  have handed : RefStep lifetime (.inl i) state.refs (.give (.inl i) (.inr k) 1 0)
      { state.refs with threads } := by
    rw [isThreads]
    exact .give Sum.inr_ne_inl idle idle' held (Nat.zero_le _)
  have givenIdle : (threads (.inl i)).pc = .idle := by
    rw [isThreads, Function.update_of_ne Sum.inl_ne_inr, Function.update_self]
  have otherCaller : ∀ j, j ≠ i → threads (.inl j) = state.refs.threads (.inl j) := by
    intro j isOther
    rw [isThreads, Function.update_of_ne Sum.inl_ne_inr,
      Function.update_of_ne fun same => isOther (Sum.inl.inj same)]
  have taken' : threads (.inr k) = ⟨.idle, 1, 0⟩ := by
    rw [isThreads, Function.update_self, nothing]
  have otherLoop : ∀ k', k' ≠ k → threads (.inr k') = state.refs.threads (.inr k') := by
    intro k' isOther
    rw [isThreads, Function.update_of_ne fun same => isOther (Sum.inr.inj same),
      Function.update_of_ne Sum.inr_ne_inl]
  exact {
    accounted := sound.accounted.step ⟨handed, bounded⟩
    caller := by
      intro j
      change (Function.update state.callers i _ j).Holdings _ (threads (.inl j))
      by_cases same : j = i
      · cases same
        rw [Function.update_self]
        exact givenIdle
      · rw [Function.update_of_ne same, otherCaller j same]
        refine holdings_mono (sound.caller j) ?_
        rintro ⟨_, fresh⟩
        cases taken.symm.trans fresh.untaken
    loop := by
      intro k'
      by_cases same : k' = k
      · cases same
        exact {
          pointers := by
            change (Function.update state.loops k .start k).pointers
            rw [here]
            exact trivial
          holdings := by
            change (Function.update state.loops k .start k).holdings (threads (.inr k))
            rw [here, taken']
            exact ⟨rfl, rfl, rfl⟩
          waits := by
            intro _
            change 0 < (threads (.inr k)).strong
            rw [taken']
            exact Nat.zero_lt_one
          begun := fun _ => taken }
      · have loop := sound.loop k'
        exact {
          pointers := by
            change (Function.update state.loops k .start k').pointers
            rw [Function.update_of_ne same]
            exact loop.pointers
          holdings := by
            change (Function.update state.loops k .start k').holdings (threads (.inr k'))
            rw [Function.update_of_ne same, otherLoop k' same]
            exact loop.holdings
          waits := by
            change (Function.update state.loops k .start k').pc.waits = true →
              0 < (threads (.inr k')).strong
            rw [Function.update_of_ne same, otherLoop k' same]
            exact loop.waits
          begun := fun _ => taken }
    lockCaller := by
      intro j isLocked
      rw [(callerAt id isLocked).1]
      exact mine
    lockLoop := by
      intro k' isLocked
      change (Function.update state.loops k .start k').pc.locked = true at isLocked
      by_cases same : k' = k
      · cases same
        rw [here] at isLocked
        cases isLocked
      · rw [Function.update_of_ne same] at isLocked
        exact sound.lockLoop k' isLocked
    claimed := by
      intro j isClaiming
      cases (callerAt claims_locked isClaiming).2
    passed := by
      intro j _
      refine ⟨k, ?_⟩
      change (Function.update state.loops k .start k).pc.waits = true
      rw [here]
      rfl
    running := fun _ => taken
    active := fun _ _ => sound.launching i creates
    single := fun k' k'' active active' => (loopAt id active).trans (loopAt id active').symm
    launching := fun _ _ => sound.launching i creates
    holds := fun _ _ => isHeld
    starting := fun _ _ => isHeld
    heldBy := by
      intro _
      refine .inr ⟨k, ?_⟩
      change (Function.update state.loops k .start k).pc.starting = true
      rw [here]
      rfl
    restored := by
      intro j status
      change (Function.update state.callers i _ j).result = some status →
        (Function.update state.callers i _ j).pc = .out ∧
          (status ≠ 0 → (Function.update state.callers i _ j).Changed 0 0)
      by_cases same : j = i
      · cases same
        rw [Function.update_self]
        intro result
        simp only [RunFrame.goto, creates] at result
        have isOut := (sound.restored i status result).1
        cases creates.symm.trans isOut
      · rw [Function.update_of_ne same]
        exact sound.restored j status }

omit [DecidableEq ι] [DecidableEq κ] in
theorem Sound.init : (init : ThreadState ι κ).Sound lifetime creator where
  accounted := accounted_init
  caller := fun _ => trivial
  loop := fun _ => {
    pointers := trivial
    holdings := ⟨rfl, rfl, rfl⟩
    waits := fun none => nomatch none
    begun := fun started => absurd rfl started }
  lockCaller := fun _ none => nomatch none
  lockLoop := fun _ none => nomatch none
  claimed := fun _ none => nomatch none
  passed := fun _ none => nomatch none
  running := fun none => nomatch none
  active := fun _ none => nomatch none
  single := fun _ _ none => nomatch none
  launching := fun _ none => nomatch none
  holds := fun _ none => nomatch none
  starting := fun _ none => nomatch none
  heldBy := fun none => nomatch none
  restored := fun _ _ none => nomatch none

/-- Who calls `run` has a reference, or created the object, which nobody has a reference to
yet.  Where no thread can be created, it has another one besides that of `mHoldSelf`. -/
def Meets (creator : ι) (state : ThreadState ι κ) : ThreadEvent ι κ → Prop
  | .call i =>
      0 < (state.refs.threads (.inl i)).strong ∨ i = creator ∧ state.refs.Fresh creator
  | .run i => (state.callers i).pc = .create → 2 ≤ (state.refs.threads (.inl i)).strong
  | _ => True

/-- What the callers of `run` may rely on. -/
structure Safe (state : ThreadState ι κ) : Prop where
  once : state.refs.shared.destroyed ≤ 1
  counted : 0 ≤ state.refs.shared.mStrong
  untouched : state.refs.shared.strayObject = false
  restored : ∀ i status, (state.callers i).result = some status → status ≠ 0 →
    (state.callers i).strongChange = 0 ∧ (state.callers i).weakChange = 0

omit [DecidableEq ι] [DecidableEq κ] in
theorem Sound.safe (sound : state.Sound lifetime creator) : state.Safe where
  once := sound.accounted.lawful.core.destroyed_le
  counted := by
    rw [sound.accounted.lawful.core.strong]
    exact Int.add_nonneg (Int.natCast_nonneg _)
      (Int.mul_nonneg (by decide) (Int.add_nonneg (Int.natCast_nonneg _) (by split <;> decide)))
  untouched := sound.accounted.lawful.core.clean.1
  restored := fun i status result isError => (sound.restored i status result).2 isError

end ThreadState

/-- A step within the bounds of the counts, of callers that meet the conditions. -/
def MeetingThreadStep (lifetime : Lifetime) (creator : ι) (state : ThreadState ι κ)
    (event : ThreadEvent ι κ) (next : ThreadState ι κ) : Prop :=
  ThreadStep lifetime creator state event next ∧ state.refs.Bounded ∧ state.Meets creator event

theorem ThreadState.Sound.step {lifetime : Lifetime} {creator : ι} {state next : ThreadState ι κ}
    {event : ThreadEvent ι κ} (sound : state.Sound lifetime creator)
    (step : MeetingThreadStep lifetime creator state event next) :
    next.Sound lifetime creator := by
  obtain ⟨step, bounded, meets⟩ := step
  cases step with
  | refs outside step => exact sound.refsStep bounded outside step
  | call idle out => exact sound.call idle out meets
  | run idle advanced => exact sound.run bounded idle advanced meets
  | create idle creates idle' gone => exact sound.create bounded idle creates idle' gone
  | loop idle advanced => exact sound.loopStep bounded idle advanced

/-- However the callers of `run`, the threads and the holders of references take turns: the
object is destroyed at most once, its strong count is not negative, it is not touched after it
was destroyed, and a call that returned an error has left its counts as they were. -/
theorem thread_outlives_users {lifetime : Lifetime} {creator : ι} {state : ThreadState ι κ}
    {events : List (ThreadEvent ι κ)}
    (run : Run (MeetingThreadStep lifetime creator) .init events state) : state.Safe := by
  have sound : state.Sound lifetime creator :=
    run.invariant (ThreadState.Sound lifetime creator) .init fun sound step => sound.step step
  exact sound.safe

end System

/-! ## One caller -/

/-- One caller, which creates the object, and what it may create. -/
def lone {κ : Type} (refs : RefBase) (caller thread : RefThread) (members : ThreadMembers Unit κ)
    (frame : RunFrame κ) (loop : LoopFrame) : ThreadState Unit κ where
  refs := ⟨refs, Sum.elim (fun _ => caller) fun _ => thread⟩
  members := members
  callers := fun _ => frame
  loops := fun _ => loop

/-- The caller makes the next access of an operation on references. -/
def access {κ : Type} : ThreadEvent Unit κ := .refs (.advance (.inl ()) true)

section Lone

variable {κ : Type} [DecidableEq κ] {refs refs' : RefBase} {caller thread next : RefThread}
  {members members' : ThreadMembers Unit κ} {frame : RunFrame κ} {loop : LoopFrame}

omit [DecidableEq κ] in
theorem lone_init :
    (.init : ThreadState Unit κ) = lone .init .init .init .init .init .init := by
  have threads : (fun _ => .init : Unit ⊕ κ → RefThread) =
      Sum.elim (fun _ => .init) fun _ => .init := by
    funext party
    cases party <;> rfl
  rw [ThreadState.init, RefState.init, threads]
  rfl

theorem update_caller :
    Function.update (Sum.elim (fun _ : Unit => caller) fun _ : κ => thread) (.inl ()) next =
      Sum.elim (fun _ => next) fun _ => thread := by
  funext party
  obtain ⟨⟩ | k := party
  · exact Function.update_self ..
  · exact Function.update_of_ne Sum.inr_ne_inl ..

omit [DecidableEq κ] in
theorem update_frame (frame next : RunFrame κ) :
    Function.update (fun _ : Unit => frame) () next = fun _ => next := by
  funext i
  cases i
  rw [Function.update_self]

theorem lone_call (idle : caller.pc = .idle) (out : frame.pc = .out) :
    ThreadStep .strong () (lone refs caller thread members frame loop) (.call ())
      (lone refs caller thread members .call loop) := by
  have step : ThreadStep .strong () (lone refs caller thread members frame loop) (.call ()) _ :=
    .call idle out
  simp only [lone, update_frame] at step
  exact step

theorem lone_run {pc : RunPc κ} {operation : Option RefOperation} (idle : caller.pc = .idle)
    (advanced : frame.pc.advance () members = some (members', pc, operation))
    (touched : (if frame.pc.touches then refs.useObject else refs) = refs')
    (begun : operation.elim caller (caller.begin refs') = next) :
    ThreadStep .strong () (lone refs caller thread members frame loop) (.run ())
      (lone refs' next thread members' (frame.goto pc) loop) := by
  cases touched
  cases begun
  have step : ThreadStep .strong () (lone refs caller thread members frame loop) (.run ()) _ :=
    .run idle advanced
  simp only [lone, ThreadState.perform, update_frame] at step
  cases operation with
  | none => exact step
  | some operation =>
      simp only [update_caller] at step
      exact step

theorem lone_advance (busy : caller.pc ≠ .idle)
    (advanced : advance .strong true refs caller = (refs', next)) :
    ThreadStep .strong () (lone refs caller thread members frame loop) access
      (lone refs' next thread members (frame.record refs refs') loop) := by
  have step : ThreadStep .strong () (lone refs caller thread members frame loop) access _ :=
    .refs trivial (.advance (Sum.inl ()) true busy)
  simp only [lone, ThreadState.recorded, update_frame, update_caller, Sum.elim_inl, advanced]
    at step
  exact step

end Lone

/-! ## The thread that it creates -/

/-- The thread makes the next access of an operation on references. -/
def accessed : ThreadEvent Unit Unit := .refs (.advance (.inr ()) true)

section Created

variable {refs refs' : RefBase} {caller thread next : RefThread}
  {members members' : ThreadMembers Unit Unit} {frame : RunFrame Unit} {loop loop' : LoopFrame}
  {result : Option Int}

theorem update_thread :
    Function.update (Sum.elim (fun _ : Unit => caller) fun _ : Unit => thread) (.inr ()) next =
      Sum.elim (fun _ => caller) fun _ => next := by
  funext party
  obtain ⟨⟩ | ⟨⟩ := party
  · exact Function.update_of_ne Sum.inl_ne_inr ..
  · exact Function.update_self ..

theorem update_loop (loop next : LoopFrame) :
    Function.update (fun _ : Unit => loop) () next = fun _ => next := by
  funext k
  cases k
  rw [Function.update_self]

theorem lone_firstStrong (idle : caller.pc = .idle) (out : frame.pc = .out)
    (untaken : refs.strongTaken = false) (reachable : refs.weakTaken = true → 0 < caller.weak) :
    ThreadStep .strong () (lone refs caller .init members frame loop) (.refs .firstStrong)
      (lone refs (caller.goto (.incStrongWeak true)) .init members frame loop) := by
  have alone : (lone refs caller .init members frame loop).refs.Alone (.inl ()) := by
    refine ⟨idle, fun party differs => ?_⟩
    obtain ⟨⟩ | ⟨⟩ := party
    · exact absurd rfl differs
    · rfl
  have step : ThreadStep .strong () (lone refs caller .init members frame loop)
      (.refs .firstStrong) _ := .refs out (.firstStrong alone untaken reachable)
  simp only [lone, update_caller, Sum.elim_inl, ThreadState.recorded] at step
  exact step

theorem lone_create (idle : caller.pc = .idle) (creates : frame.pc = .create)
    (idle' : thread.pc = .idle) (gone : loop.pc = .gone) :
    ThreadStep .strong () (lone refs caller thread members frame loop) (.create () ())
      (lone refs { caller with strong := caller.strong - 1 }
        { thread with strong := thread.strong + 1 } members (frame.goto (.created ())) .start) := by
  have step : ThreadStep .strong () (lone refs caller thread members frame loop)
      (.create () ()) _ := .create idle creates idle' gone
  simp only [lone, update_caller, update_thread, update_frame, update_loop, Sum.elim_inl,
    Sum.elim_inr] at step
  exact step

theorem lone_loop {answer : Int} {operation : Option RefOperation} (idle : thread.pc = .idle)
    (advanced : loop.advance () answer thread members = some (members', loop', operation))
    (touched : (if loop.pc.touches then refs.useObject else refs) = refs')
    (begun : operation.elim thread (thread.begin refs') = next) :
    ThreadStep .strong () (lone refs caller thread members frame loop) (.loop () answer)
      (lone refs' caller next members' frame loop') := by
  cases touched
  cases begun
  have step : ThreadStep .strong () (lone refs caller thread members frame loop)
      (.loop () answer) _ := .loop idle advanced
  simp only [lone, ThreadState.perform, update_loop] at step
  cases operation with
  | none => exact step
  | some operation =>
      simp only [update_thread] at step
      exact step

theorem lone_advances (busy : thread.pc ≠ .idle)
    (advanced : advance .strong true refs thread = (refs', next)) :
    ThreadStep .strong () (lone refs caller thread members frame loop) accessed
      (lone refs' caller next members frame loop) := by
  have step : ThreadStep .strong () (lone refs caller thread members frame loop) accessed _ :=
    .refs trivial (.advance (Sum.inr ()) true busy)
  simp only [lone, ThreadState.recorded, update_thread, Sum.elim_inr, advanced] at step
  exact step

/-- Few references and operations. -/
theorem lone_bounded (few : caller.strong + caller.weak + thread.strong + thread.weak ≤ 8) :
    (lone refs caller thread members frame loop).refs.Bounded := by
  have isBusy : (lone refs caller thread members frame loop).refs.busy ≤ 2 := by
    refine Finset.sum_le_card_nsmul _ _ 1 fun party _ => ?_
    split <;> decide
  simp only [RefState.Bounded, RefState.strongHeld, RefState.weakHeld, lone,
    Fintype.sum_sum_type, Finset.univ_unique, Finset.sum_singleton, Sum.elim_inl, Sum.elim_inr]
    at isBusy ⊢
  omega

/-- The creator takes the first reference. -/
theorem lone_referenced :
    Run (MeetingThreadStep .strong ()) (.init : ThreadState Unit Unit)
      [.refs .firstStrong, access, access, access, access]
      (lone (counted 1 1) ⟨.idle, 1, 0⟩ .init .init .init .init) := by
  rw [lone_init]
  exact .cons ⟨lone_firstStrong rfl rfl rfl (absurd · Bool.false_ne_true), lone_bounded (by decide),
      trivial⟩ <|
    .cons ⟨lone_advance (by decide) rfl, lone_bounded (by decide), trivial⟩ <|
    .cons ⟨lone_advance (by decide) rfl, lone_bounded (by decide), trivial⟩ <|
    .cons ⟨lone_advance (by decide) rfl, lone_bounded (by decide), trivial⟩ <|
    .single ⟨lone_advance (by decide) rfl, lone_bounded (by decide), trivial⟩

/-- It calls `run`, up to the creation of the thread. -/
theorem lone_holds (status : Int) :
    Run (MeetingThreadStep (κ := Unit) .strong ())
      (lone (counted 1 1) ⟨.idle, 1, 0⟩ .init ⟨none, none, status, false, false, false, none⟩
        ⟨.out, result, 0, 0⟩ .init)
      [.call (), .run (), .run (), .run (), access, access, .run ()]
      (lone (counted 2 2) ⟨.idle, 2, 0⟩ .init ⟨none, some (.inl ()), 0, false, true, true, none⟩
        ⟨.create, none, 1, 1⟩ .init) :=
  .cons ⟨lone_call rfl rfl, lone_bounded (by decide), .inl Nat.one_pos⟩ <|
  .cons ⟨lone_run rfl rfl rfl rfl, lone_bounded (by decide), fun creates => by cases creates⟩ <|
  .cons ⟨lone_run rfl rfl rfl rfl, lone_bounded (by decide), fun creates => by cases creates⟩ <|
  .cons ⟨lone_run rfl rfl rfl rfl, lone_bounded (by decide), fun creates => by cases creates⟩ <|
  .cons ⟨lone_advance (by decide) rfl, lone_bounded (by decide), trivial⟩ <|
  .cons ⟨lone_advance (by decide) rfl, lone_bounded (by decide), trivial⟩ <|
  .single ⟨lone_run rfl rfl rfl rfl, lone_bounded (by decide), fun creates => by cases creates⟩

/-- There can be no thread. -/
theorem lone_fails :
    Run (MeetingThreadStep (κ := Unit) .strong ())
      (lone (counted 2 2) ⟨.idle, 2, 0⟩ .init ⟨none, some (.inl ()), 0, false, true, true, none⟩
        ⟨.create, none, 1, 1⟩ .init)
      [.run (), .run (), .run (), access, access, .run (), .run ()]
      (lone (counted 1 1) ⟨.idle, 1, 0⟩ .init
        ⟨none, none, unknownError, false, false, false, none⟩ ⟨.out, some unknownError, 0, 0⟩
        .init) :=
  .cons ⟨lone_run rfl rfl rfl rfl, lone_bounded (by decide), fun _ => by decide⟩ <|
  .cons ⟨lone_run rfl rfl rfl rfl, lone_bounded (by decide), fun creates => by cases creates⟩ <|
  .cons ⟨lone_run rfl rfl rfl rfl, lone_bounded (by decide), fun creates => by cases creates⟩ <|
  .cons ⟨lone_advance (by decide) rfl, lone_bounded (by decide), trivial⟩ <|
  .cons ⟨lone_advance (by decide) rfl, lone_bounded (by decide), trivial⟩ <|
  .cons ⟨lone_run rfl rfl rfl rfl, lone_bounded (by decide), fun creates => by cases creates⟩ <|
  .single ⟨lone_run rfl rfl rfl rfl, lone_bounded (by decide), fun creates => by cases creates⟩

/-- There is one: it copies `mHoldSelf` and clears it while `run` returns. -/
theorem lone_creates :
    Run (MeetingThreadStep (κ := Unit) .strong ())
      (lone (counted 2 2) ⟨.idle, 2, 0⟩ .init ⟨none, some (.inl ()), 0, false, true, true, none⟩
        ⟨.create, none, 1, 1⟩ .init)
      [.create () (), .loop () 0, accessed, accessed, .run (), .loop () 0, accessed, .run (),
        .loop () 0, accessed, accessed, .loop () 0]
      (lone (counted 2 3) ⟨.idle, 1, 0⟩ ⟨.idle, 1, 1⟩ ⟨some (), none, 0, false, true, false, none⟩
        ⟨.out, some 0, 1, 1⟩ ⟨.tid, true, true, true⟩) :=
  .cons ⟨lone_create rfl rfl rfl rfl, lone_bounded (by decide), trivial⟩ <|
  .cons ⟨lone_loop rfl rfl rfl rfl, lone_bounded (by decide), trivial⟩ <|
  .cons ⟨lone_advances (by decide) rfl, lone_bounded (by decide), trivial⟩ <|
  .cons ⟨lone_advances (by decide) rfl, lone_bounded (by decide), trivial⟩ <|
  .cons ⟨lone_run rfl rfl rfl rfl, lone_bounded (by decide), fun creates => by cases creates⟩ <|
  .cons ⟨lone_loop rfl rfl rfl rfl, lone_bounded (by decide), trivial⟩ <|
  .cons ⟨lone_advances (by decide) rfl, lone_bounded (by decide), trivial⟩ <|
  .cons ⟨lone_run rfl rfl rfl rfl, lone_bounded (by decide), fun creates => by cases creates⟩ <|
  .cons ⟨lone_loop rfl rfl rfl rfl, lone_bounded (by decide), trivial⟩ <|
  .cons ⟨lone_advances (by decide) rfl, lone_bounded (by decide), trivial⟩ <|
  .cons ⟨lone_advances (by decide) rfl, lone_bounded (by decide), trivial⟩ <|
  .single ⟨lone_loop rfl rfl rfl rfl, lone_bounded (by decide), trivial⟩

end Created

/-- The creator has a reference when it calls `run`: the first call returns an error, and after
the second one there is a thread. -/
theorem thread_outlives_users_retried :
    ∃ events state, Run (MeetingThreadStep .strong ()) (.init : ThreadState Unit Unit) events
        state ∧
      state.loops () = ⟨.tid, true, true, true⟩ ∧ (state.callers ()).result = some 0 ∧
      state.refs.shared.mStrong = 2 ∧ state.Safe := by
  have failed := (lone_referenced.append (lone_holds 0)).append lone_fails
  have run := (failed.append (lone_holds unknownError)).append lone_creates
  exact ⟨_, _, run, rfl, rfl, rfl, thread_outlives_users run⟩

/-- Where no thread can be created and nobody else has a reference, `mHoldSelf.clear()`
destroys the object, and `run` goes on to clear the pointer in it. -/
theorem failed_run_touches_destroyed :
    ¬ ∀ events state, Run (ThreadStep .strong ()) (.init : ThreadState Unit Empty) events state →
      state.Safe := by
  intro safe
  obtain ⟨events, state, run, touched⟩ : ∃ events state, Run (ThreadStep .strong ())
      (.init : ThreadState Unit Empty) events state ∧ state.refs.shared.strayObject = true := by
    rw [lone_init]
    exact ⟨[.call (), .run (), .run (), .run (), access, access, access, access, .run (), .run (),
      .run (), .run (), access, access, access, access, access, access, access, access, access,
      access, .run ()], _,
      .cons (lone_call rfl rfl) <|
      .cons (lone_run rfl rfl rfl rfl) <|
      .cons (lone_run rfl rfl rfl rfl) <|
      .cons (lone_run rfl rfl rfl rfl) <|
      .cons (lone_advance (by decide) rfl) <|
      .cons (lone_advance (by decide) rfl) <|
      .cons (lone_advance (by decide) rfl) <|
      .cons (lone_advance (by decide) rfl) <|
      .cons (lone_run rfl rfl rfl rfl) <|
      .cons (lone_run rfl rfl rfl rfl) <|
      .cons (lone_run rfl rfl rfl rfl) <|
      .cons (lone_run rfl rfl rfl rfl) <|
      .cons (lone_advance (by decide) rfl) <|
      .cons (lone_advance (by decide) rfl) <|
      .cons (lone_advance (by decide) rfl) <|
      .cons (lone_advance (by decide) rfl) <|
      .cons (lone_advance (by decide) rfl) <|
      .cons (lone_advance (by decide) rfl) <|
      .cons (lone_advance (by decide) rfl) <|
      .cons (lone_advance (by decide) rfl) <|
      .cons (lone_advance (by decide) rfl) <|
      .cons (lone_advance (by decide) rfl) <|
      .single (lone_run rfl rfl rfl rfl), rfl⟩
  have untouched := (safe _ _ run).untouched
  rw [touched] at untouched
  cases untouched

end DroidKernal.Utils
