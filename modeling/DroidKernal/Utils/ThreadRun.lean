import DroidKernal.Utils.ThreadRefs

/-!
# The callers of run

`run` keeps the lock until it has nothing more to do with the object; who calls it holds a
reference if the thread may not come to be.
-/

namespace DroidKernal.Utils

open Lib

section System

variable {ι κ : Type*} [Fintype ι] [Fintype κ] [DecidableEq ι] [DecidableEq κ]

namespace ThreadState

variable {lifetime : Lifetime} {creator : ι} {state : ThreadState ι κ}

omit [Fintype ι] [Fintype κ] [DecidableEq ι] [DecidableEq κ] in
theorem claims_locked {pc : RunPc κ} (claims : pc.claims = true) : pc.locked = true := by
  cases pc <;> first | rfl | cases claims

omit [Fintype ι] [Fintype κ] [DecidableEq ι] [DecidableEq κ] in
theorem holds_locked {pc : RunPc κ} (holds : pc.holds = true) : pc.locked = true := by
  cases pc <;> first | rfl | cases holds

omit [Fintype ι] [Fintype κ] [DecidableEq ι] [DecidableEq κ] in
theorem holds_claims {pc : RunPc κ} (holds : pc.holds = true) : pc.claims = true := by
  cases pc <;> first | rfl | cases holds

omit [Fintype ι] [Fintype κ] [DecidableEq ι] [DecidableEq κ] in
theorem passed_locked {pc : RunPc κ} (passed : pc.passed = true) : pc.locked = true := by
  cases pc <;> first | rfl | cases passed

omit [Fintype ι] [Fintype κ] [DecidableEq ι] [DecidableEq κ] in
theorem starting_active {pc : LoopPc} (starting : pc.starting = true) : pc.active = true := by
  cases pc <;> first | rfl | cases starting

omit [DecidableEq ι] [DecidableEq κ] in
/-- Nobody else has the lock. -/
theorem Sound.unlocked (sound : state.Sound lifetime creator) {party : ι ⊕ κ}
    (free : state.members.mLock = none ∨ state.members.mLock = some party) :
    (∀ i, .inl i ≠ party → (state.callers i).pc.locked = false) ∧
      ∀ k, .inr k ≠ party → (state.loops k).pc.locked = false := by
  have differs : ∀ {other : ι ⊕ κ}, other ≠ party → state.members.mLock ≠ some other := by
    intro other isOther isOwner
    rcases free with isFree | isMine
    · cases isFree.symm.trans isOwner
    · exact isOther (Option.some.inj (isOwner.symm.trans isMine))
  constructor
  · intro i isOther
    exact Bool.eq_false_iff.mpr fun isLocked => differs isOther (sound.lockCaller i isLocked)
  · intro k isOther
    exact Bool.eq_false_iff.mpr fun isLocked => differs isOther (sound.lockLoop k isLocked)

/-- What a caller that has the lock, or takes it, may do to the members. -/
structure RunMove (state : ThreadState ι κ) (i : ι) (members : ThreadMembers ι κ) (pc : RunPc κ) :
    Prop where
  free : state.members.mLock = none ∨ state.members.mLock = some (.inl i)
  lock : pc.locked = true → members.mLock = some (.inl i)
  claims : pc.claims = true → ∀ k, (state.loops k).pc.active = false
  passed : pc.passed = true → ∃ k, (state.loops k).pc.waits = true
  running : members.mRunning = true → state.refs.shared.strongTaken = true
  active : ∀ k, (state.loops k).pc.active = true → members.mRunning = true
  launching : pc = .create → members.mRunning = true
  holds : pc.holds = true → members.mHoldSelf = true
  starting : ∀ k, (state.loops k).pc.starting = true → members.mHoldSelf = true
  heldBy : members.mHoldSelf = true → pc.holds = true ∨ ∃ k, (state.loops k).pc.starting = true

omit [DecidableEq ι] [DecidableEq κ] in
/-- Who has set `mHoldSelf`, seen by the caller that has the lock. -/
theorem Sound.heldBy_caller (sound : state.Sound lifetime creator) {i : ι}
    (free : state.members.mLock = none ∨ state.members.mLock = some (.inl i))
    (isHeld : state.members.mHoldSelf = true) :
    (state.callers i).pc.holds = true ∨ ∃ k, (state.loops k).pc.starting = true := by
  rcases sound.heldBy isHeld with ⟨j, holds⟩ | starting
  · by_cases same : j = i
    · exact .inl (same ▸ holds)
    · have unlocked := (sound.unlocked free).1 j fun isSame => same (Sum.inl.inj isSame)
      rw [holds_locked holds] at unlocked
      cases unlocked
  · exact .inr starting

omit [DecidableEq ι] [DecidableEq κ] in
theorem Sound.not_starting (sound : state.Sound lifetime creator) {i : ι}
    (claims : (state.callers i).pc.claims = true) (k : κ) :
    ¬ (state.loops k).pc.starting = true := by
  intro starting
  have active := starting_active starting
  rw [sound.claimed i claims k] at active
  cases active

omit [DecidableEq ι] [DecidableEq κ] in
/-- An access that leaves `mRunning` and `mHoldSelf` as they are. -/
theorem Sound.quietRun (sound : state.Sound lifetime creator) {i : ι} {pc : RunPc κ}
    {members : ThreadMembers ι κ}
    (free : state.members.mLock = none ∨ state.members.mLock = some (.inl i))
    (sameRunning : members.mRunning = state.members.mRunning)
    (sameHeld : members.mHoldSelf = state.members.mHoldSelf)
    (lock : pc.locked = true → members.mLock = some (.inl i))
    (claims : pc.claims = true → ∀ k, (state.loops k).pc.active = false)
    (passed : pc.passed = true → (state.callers i).pc.passed = true)
    (launching : pc ≠ .create) (holds : pc.holds = (state.callers i).pc.holds) :
    state.RunMove i members pc where
  free := free
  lock := lock
  claims := claims
  passed := fun isPassed => sound.passed i (passed isPassed)
  running := fun running => sound.running (sameRunning ▸ running)
  active := fun k active => sameRunning.trans (sound.active k active)
  launching := fun launches => absurd launches launching
  holds := fun isHolding => sameHeld.trans (sound.holds i (holds ▸ isHolding))
  starting := fun k starting => sameHeld.trans (sound.starting k starting)
  heldBy := by
    intro isHeld
    rw [holds]
    exact sound.heldBy_caller free (sameHeld ▸ isHeld)

omit [DecidableEq κ] in
/-- A caller goes on. -/
theorem Sound.moveCaller (sound : state.Sound lifetime creator) {i : ι} {pc : RunPc κ}
    {members : ThreadMembers ι κ} {threads : ι ⊕ κ → RefThread}
    (inRun : (state.callers i).pc ≠ .out) (move : state.RunMove i members pc)
    (accounted : Accounted lifetime { state.refs with threads })
    (others : ∀ party, party ≠ .inl i → threads party = state.refs.threads party)
    (holdings : ((state.callers i).goto pc).Holdings
      (i = creator ∧ RefState.Fresh { state.refs with threads } creator) (threads (.inl i)))
    (restored : ∀ status, (state.callers i).pc = .unlock status →
      pc = .out ∧ (status ≠ 0 → (state.callers i).Changed 0 0)) :
    ({ state with
      refs := { state.refs with threads }
      members
      callers := Function.update state.callers i ((state.callers i).goto pc) } :
        ThreadState ι κ).Sound lifetime creator := by
  obtain ⟨callersUnlocked, loopsUnlocked⟩ := sound.unlocked move.free
  have mine : ∀ {p : RunPc κ → Bool} {j : ι}, (∀ {pc}, p pc = true → pc.locked = true) →
      p (Function.update state.callers i ((state.callers i).goto pc) j).pc = true →
      j = i ∧ p pc = true := by
    intro p j within isAt
    by_cases same : j = i
    · cases same
      rw [Function.update_self] at isAt
      exact ⟨rfl, isAt⟩
    · rw [Function.update_of_ne same] at isAt
      have unlocked := callersUnlocked j fun isSame => same (Sum.inl.inj isSame)
      rw [within isAt] at unlocked
      cases unlocked
  have here : (Function.update state.callers i ((state.callers i).goto pc) i).pc = pc := by
    rw [Function.update_self]
    rfl
  exact {
    accounted := accounted
    caller := by
      intro j
      by_cases same : j = i
      · cases same
        change (Function.update state.callers i _ i).Holdings _ _
        rw [Function.update_self]
        exact holdings
      · change (Function.update state.callers i _ j).Holdings _ (threads (.inl j))
        rw [Function.update_of_ne same, others _ fun isSame => same (Sum.inl.inj isSame)]
        refine holdings_mono (sound.caller j) ?_
        rintro ⟨rfl, fresh⟩
        exact absurd (sound.fresh_out fresh (Ne.symm same)) inRun
    loop := fun k => {
      pointers := (sound.loop k).pointers
      holdings := by
        change (state.loops k).holdings (threads (.inr k))
        rw [others _ Sum.inr_ne_inl]
        exact (sound.loop k).holdings
      waits := by
        change _ → 0 < (threads (.inr k)).strong
        rw [others _ Sum.inr_ne_inl]
        exact (sound.loop k).waits
      begun := (sound.loop k).begun }
    lockCaller := by
      intro j isLocked
      obtain ⟨isMe, atPc⟩ := mine id isLocked
      rw [isMe]
      exact move.lock atPc
    lockLoop := by
      intro k isLocked
      have unlocked := loopsUnlocked k Sum.inr_ne_inl
      rw [isLocked] at unlocked
      cases unlocked
    claimed := by
      intro j isClaiming
      exact move.claims (mine claims_locked isClaiming).2
    passed := by
      intro j hasPassed
      exact move.passed (mine passed_locked hasPassed).2
    running := move.running
    active := move.active
    single := sound.single
    launching := by
      intro j launches
      have isHere : j = i := (mine claims_locked (launches ▸ rfl)).1
      change (Function.update state.callers i _ j).pc = .create at launches
      rw [isHere, here] at launches
      exact move.launching launches
    holds := by
      intro j isHolding
      exact move.holds (mine holds_locked isHolding).2
    starting := move.starting
    heldBy := fun isHeld =>
      (move.heldBy isHeld).imp_left fun isHolding => ⟨i, here.symm ▸ isHolding⟩
    restored := by
      intro j status
      by_cases same : j = i
      · cases same
        change (Function.update state.callers i _ i).result = some status →
          (Function.update state.callers i _ i).pc = .out ∧
            (status ≠ 0 → (Function.update state.callers i _ i).Changed 0 0)
        rw [Function.update_self]
        intro result
        rw [RunFrame.goto] at result
        simp only at result
        split at result
        next isUnlock =>
          cases result
          exact restored _ isUnlock
        next => exact absurd (sound.restored i status result).1 inRun
      · change (Function.update state.callers i _ j).result = some status →
          (Function.update state.callers i _ j).pc = .out ∧
            (status ≠ 0 → (Function.update state.callers i _ j).Changed 0 0)
        rw [Function.update_of_ne same]
        exact sound.restored j status }

/-- The assignment to `mHoldSelf` counts the reference, which may be the very first one. -/
theorem Sound.beginHold (sound : state.Sound lifetime creator) (bounded : state.refs.Bounded)
    {i : ι} (atHold : (state.callers i).pc = .hold) :
    Accounted lifetime
        { state.refs with
          threads := Function.update state.refs.threads (.inl i)
            ((state.refs.threads (.inl i)).begin state.refs.shared .incStrong) } ∧
      ((state.callers i).goto (.held state.members.mHoldSelf)).Increases
        ((state.refs.threads (.inl i)).begin state.refs.shared .incStrong) := by
  have holdings := sound.caller i
  simp only [RunFrame.Holdings, atHold] at holdings
  obtain ⟨idle, entitled, changed⟩ := holdings
  cases taken : state.refs.shared.strongTaken with
  | true =>
      have held : 0 < (state.refs.threads (.inl i)).strong := by
        rcases entitled with held | ⟨_, fresh⟩
        · exact held
        · cases taken.symm.trans fresh.untaken
      refine ⟨accounted_begin sound.accounted bounded idle held, ?_⟩
      simp only [RunFrame.Increases, RefThread.begin, RefThread.goto, taken, Bool.not_true]
      exact ⟨held, changed⟩
  | false =>
      have nothing : (state.refs.threads (.inl i)).strong = 0 := by
        have strongs : (state.refs.threads (.inl i)).count lifetime .strongs ≤ _ :=
          RefThread.count_le .strongs
        rw [sound.accounted.lawful.core.untaken taken] at strongs
        exact Nat.eq_zero_of_add_eq_zero_right (Nat.le_zero.mp strongs)
      obtain ⟨rfl, fresh⟩ := entitled.resolve_left (by omega)
      have step : RefStep lifetime (.inl i) state.refs .firstStrong
          { state.refs with
            threads := Function.update state.refs.threads (.inl i)
              ((state.refs.threads (.inl i)).begin state.refs.shared .incStrong) } := by
        simp only [RefThread.begin, taken, Bool.not_false]
        exact .firstStrong fresh.alone fresh.untaken fresh.reachable
      refine ⟨sound.accounted.step ⟨step, bounded⟩, ?_⟩
      simp only [RunFrame.Increases, RefThread.begin, RefThread.goto, taken, Bool.not_false]
      exact nothing

/-- An access of `run`; where it fails to create the thread, the caller has a reference
besides that of `mHoldSelf`. -/
theorem Sound.run (sound : state.Sound lifetime creator) (bounded : state.refs.Bounded) {i : ι}
    {members : ThreadMembers ι κ} {pc : RunPc κ} {operation : Option RefOperation}
    (idle : (state.refs.threads (.inl i)).pc = .idle)
    (advanced : (state.callers i).pc.advance i state.members = some (members, pc, operation))
    (meets : (state.callers i).pc = .create → 2 ≤ (state.refs.threads (.inl i)).strong) :
    ({ state.perform (.inl i) (state.callers i).pc.touches members operation with
      callers := Function.update state.callers i ((state.callers i).goto pc) } :
        ThreadState ι κ).Sound lifetime creator := by
  have inRun : (state.callers i).pc ≠ .out := by
    intro isOut
    rw [isOut] at advanced
    cases advanced
  have holdings := sound.caller i
  have mine := sound.lockCaller i
  have inactive := sound.claimed i
  have holds := sound.holds i
  rw [perform_eq fun _ => sound.caller_alive idle inRun]
  unfold RunFrame.Holdings at holdings
  cases isPc : (state.callers i).pc <;>
    simp only [isPc, RunPc.advance] at advanced holdings mine inactive holds
  case out => cases advanced
  case lock =>
    split at advanced
    next isFree =>
      cases advanced
      have move : state.RunMove i { state.members with mLock := some (.inl i) } .check :=
        sound.quietRun (.inl (Option.isNone_iff_eq_none.mp isFree)) rfl rfl (fun _ => rfl)
          (absurd · Bool.false_ne_true) (absurd · Bool.false_ne_true) (by simp) (by rw [isPc]; rfl)
      exact sound.moveCaller inRun move sound.accounted (fun _ _ => rfl) holdings (by simp [isPc])
    next => cases advanced
  case check =>
    obtain ⟨_, entitled, changed⟩ := holdings
    split at advanced
    next running =>
      cases advanced
      have move : state.RunMove i state.members (.unlock invalidOperation) :=
        sound.quietRun (.inr (mine rfl)) rfl rfl (fun _ => mine rfl) (absurd · Bool.false_ne_true)
          (absurd · Bool.false_ne_true) (by simp) (by rw [isPc]; rfl)
      refine sound.moveCaller inRun move sound.accounted (fun _ _ => rfl)
        ⟨idle, fun _ => ⟨?_, changed⟩⟩ (by simp [isPc])
      -- a new object has no thread
      rcases entitled with held | ⟨_, fresh⟩
      · exact held
      · cases (sound.running running).symm.trans fresh.untaken
    next notRunning =>
      cases advanced
      have inactive : ∀ k, (state.loops k).pc.active = false := by
        intro k
        exact Bool.eq_false_iff.mpr fun active => notRunning (sound.active k active)
      have move : state.RunMove i
          { state.members with mStatus := 0, mExitPending := false, mThread := none } .hold :=
        sound.quietRun (.inr (mine rfl)) rfl rfl (fun _ => mine rfl) (fun _ => inactive)
          (absurd · Bool.false_ne_true) (by simp) (by rw [isPc]; rfl)
      exact sound.moveCaller inRun move sound.accounted (fun _ _ => rfl)
        ⟨idle, entitled, changed⟩ (by simp [isPc])
  case hold =>
    cases advanced
    obtain ⟨accounted, increases⟩ := sound.beginHold bounded isPc
    have move : state.RunMove i state.members (.held state.members.mHoldSelf) :=
      sound.quietRun (.inr (mine rfl)) rfl rfl (fun _ => mine rfl) (fun _ => inactive rfl)
        (absurd · Bool.false_ne_true) (by simp) (by rw [isPc]; rfl)
    have notHeld : state.members.mHoldSelf = false := by
      refine Bool.eq_false_iff.mpr fun isHeld => ?_
      rcases move.heldBy isHeld with none | ⟨k, starting⟩
      · cases none
      · exact sound.not_starting (by rw [isPc]; rfl) k starting
    refine sound.moveCaller inRun move accounted
      (fun _ isOther => Function.update_of_ne isOther ..) ⟨notHeld, ?_⟩ (by simp [isPc])
    change ((state.callers i).goto _).Increases
      (Function.update state.refs.threads (Sum.inl i) _ (Sum.inl i))
    rw [Function.update_self]
    exact increases
  case held old =>
    obtain ⟨rfl, increases⟩ := holdings
    rw [RunFrame.Increases, idle] at increases
    cases advanced
    have move : state.RunMove i { state.members with mHoldSelf := true, mRunning := true }
        .create := {
      free := .inr (mine rfl)
      lock := fun _ => mine rfl
      claims := fun _ => inactive rfl
      passed := (absurd · Bool.false_ne_true)
      running := fun _ => (sound.accounted.alive increases.1).2
      active := fun _ _ => rfl
      launching := fun _ => rfl
      holds := fun _ => rfl
      starting := fun _ _ => rfl
      heldBy := fun _ => .inl rfl }
    exact sound.moveCaller inRun move sound.accounted (fun _ _ => rfl)
      ⟨idle, increases.1, increases.2⟩ (by simp [isPc])
  case create =>
    have two := meets isPc
    cases advanced
    have move : state.RunMove i state.members .fail :=
      sound.quietRun (.inr (mine rfl)) rfl rfl (fun _ => mine rfl) (fun _ => inactive rfl)
        (absurd · Bool.false_ne_true) (by simp) (by rw [isPc]; rfl)
    exact sound.moveCaller inRun move sound.accounted (fun _ _ => rfl)
      ⟨idle, two, holdings.2.2 two⟩ (by simp [isPc])
  case created k =>
    cases advanced
    have move : state.RunMove i { state.members with mThread := some k } (.unlock 0) :=
      sound.quietRun (.inr (mine rfl)) rfl rfl (fun _ => mine rfl) (absurd · Bool.false_ne_true)
        (fun _ => by rw [isPc]; rfl) (by simp) (by rw [isPc]; rfl)
    exact sound.moveCaller inRun move sound.accounted (fun _ _ => rfl)
      ⟨idle, fun isError => absurd rfl isError⟩ (by simp [isPc])
  case fail =>
    cases advanced
    have move : state.RunMove i
        { state.members with mStatus := unknownError, mRunning := false, mThread := none }
        .clear := {
      free := .inr (mine rfl)
      lock := fun _ => mine rfl
      claims := fun _ => inactive rfl
      passed := (absurd · Bool.false_ne_true)
      running := (absurd · Bool.false_ne_true)
      active := fun k active => absurd (inactive rfl k) (by rw [active]; decide)
      launching := fun none => by cases none
      holds := fun _ => holds rfl
      starting := sound.starting
      heldBy := fun _ => .inl rfl }
    exact sound.moveCaller inRun move sound.accounted (fun _ _ => rfl) holdings (by simp [isPc])
  case clear =>
    obtain ⟨_, two, changed⟩ := holdings
    rw [if_pos (holds rfl)] at advanced
    cases advanced
    have move : state.RunMove i state.members .cleared :=
      sound.quietRun (.inr (mine rfl)) rfl rfl (fun _ => mine rfl) (fun _ => inactive rfl)
        (absurd · Bool.false_ne_true) (by simp) (by rw [isPc]; rfl)
    refine sound.moveCaller inRun move
      (accounted_begin sound.accounted bounded idle (Nat.lt_of_lt_of_le Nat.zero_lt_two two))
      (fun _ isOther => Function.update_of_ne isOther ..) ?_ (by simp [isPc])
    change ((state.callers i).goto .cleared).Holdings _
      (Function.update state.refs.threads (Sum.inl i) _ (Sum.inl i))
    rw [Function.update_self]
    exact ⟨Nat.sub_pos_of_lt two, changed⟩
  case cleared =>
    rw [RunFrame.Decreases, idle] at holdings
    cases advanced
    have move : state.RunMove i { state.members with mHoldSelf := false }
        (.unlock unknownError) := {
      free := .inr (mine rfl)
      lock := fun _ => mine rfl
      claims := (absurd · Bool.false_ne_true)
      passed := (absurd · Bool.false_ne_true)
      running := sound.running
      active := sound.active
      launching := fun none => by cases none
      holds := (absurd · Bool.false_ne_true)
      starting := fun k starting =>
        (sound.not_starting (by rw [isPc]; rfl) k starting).elim
      heldBy := (absurd · Bool.false_ne_true) }
    exact sound.moveCaller inRun move sound.accounted (fun _ _ => rfl) ⟨idle, fun _ => holdings⟩
      (by simp [isPc])
  case unlock status =>
    cases advanced
    have move : state.RunMove i { state.members with mLock := none } .out :=
      sound.quietRun (.inr (mine rfl)) rfl rfl (absurd · Bool.false_ne_true)
        (absurd · Bool.false_ne_true) (absurd · Bool.false_ne_true) (by simp) (by rw [isPc]; rfl)
    refine sound.moveCaller inRun move sound.accounted (fun _ _ => rfl) trivial ?_
    intro status' isUnlock
    cases isPc.symm.trans isUnlock
    exact ⟨rfl, fun isError => (holdings.2 isError).2⟩

omit [DecidableEq κ] in
/-- `run` is called by who has a reference, or by the creator of a new object. -/
theorem Sound.call (sound : state.Sound lifetime creator) {i : ι}
    (idle : (state.refs.threads (.inl i)).pc = .idle) (out : (state.callers i).pc = .out)
    (entitled : 0 < (state.refs.threads (.inl i)).strong ∨ i = creator ∧ state.refs.Fresh creator) :
    ({ state with callers := Function.update state.callers i .call } : ThreadState ι κ).Sound
      lifetime creator := by
  have kept : ∀ {p : RunPc κ → Bool} {j : ι}, p .lock = false →
      p (Function.update state.callers i .call j).pc = true →
      p (state.callers j).pc = true := by
    intro p j notAtLock isAt
    by_cases same : j = i
    · cases same
      rw [Function.update_self] at isAt
      cases notAtLock.symm.trans isAt
    · rwa [Function.update_of_ne same] at isAt
  exact {
    accounted := sound.accounted
    caller := by
      intro j
      change (Function.update state.callers i .call j).Holdings _ _
      by_cases same : j = i
      · cases same
        rw [Function.update_self]
        exact ⟨idle, entitled, rfl, rfl⟩
      · rw [Function.update_of_ne same]
        exact sound.caller j
    loop := fun k => ⟨(sound.loop k).pointers, (sound.loop k).holdings, (sound.loop k).waits,
      (sound.loop k).begun⟩
    lockCaller := fun j isLocked => sound.lockCaller j (kept rfl isLocked)
    lockLoop := sound.lockLoop
    claimed := fun j claims => sound.claimed j (kept rfl claims)
    passed := fun j passed => sound.passed j (kept rfl passed)
    running := sound.running
    active := sound.active
    single := sound.single
    launching := by
      intro j launches
      change (Function.update state.callers i .call j).pc = .create at launches
      by_cases same : j = i
      · cases same
        rw [Function.update_self] at launches
        cases launches
      · rw [Function.update_of_ne same] at launches
        exact sound.launching j launches
    holds := fun j holds => sound.holds j (kept rfl holds)
    starting := sound.starting
    heldBy := by
      intro isHeld
      refine (sound.heldBy isHeld).imp_left ?_
      rintro ⟨j, holds⟩
      refine ⟨j, ?_⟩
      change (Function.update state.callers i .call j).pc.holds = true
      by_cases same : j = i
      · cases same
        rw [out] at holds
        cases holds
      · rwa [Function.update_of_ne same]
    restored := by
      intro j status
      change (Function.update state.callers i .call j).result = some status →
        (Function.update state.callers i .call j).pc = .out ∧
          (status ≠ 0 → (Function.update state.callers i .call j).Changed 0 0)
      by_cases same : j = i
      · cases same
        rw [Function.update_self]
        intro result
        cases result
      · rw [Function.update_of_ne same]
        exact sound.restored j status }

end ThreadState

end System

end DroidKernal.Utils
