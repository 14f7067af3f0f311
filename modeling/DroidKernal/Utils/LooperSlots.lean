import DroidKernal.Utils.LooperThreads
import DroidKernal.Utils.WeakAssignment
import Mathlib.Algebra.Order.BigOperators.Group.Finset
import Mathlib.Data.Fintype.Sum

/-!
# A thread keeps its Looper

The references that the functions count themselves are those of the values under `gTLSKey`, so
that the Looper of a thread is there until the thread sets another one or ends.  `prepare` gives
each thread a Looper of its own, and always the same one.
-/

namespace DroidKernal.Utils

open Lib

/-! ## Member functions of strong pointers -/

namespace HandleState

section Inversion

variable {ι ω : Type*} [DecidableEq ι] [DecidableEq ω] {lifetime : ω → Lifetime}
  {state next : HandleState ι ω} {i j : ι}

theorem spNew_cases {other : Option ω} (steps : state.Steps lifetime (.spNew i other) next) :
    state.threads i = .dead ∧ next.threads = Function.update state.threads i (.sp other) := by
  simp only [Steps, step] at steps
  split at steps
  next dead _ =>
    cases steps
    exact ⟨dead, rfl⟩
  next => cases steps

theorem spCopy_cases (steps : state.Steps lifetime (.spCopy i j) next) :
    state.threads i = .dead ∧ ∃ mPtr, state.threads j = .sp mPtr ∧
      next.threads = Function.update state.threads i (.sp mPtr) := by
  simp only [Steps, step] at steps
  split at steps
  next mPtr dead isSp =>
    cases steps
    exact ⟨dead, mPtr, isSp, rfl⟩
  next => cases steps

theorem spAssignPtr_cases {other : Option ω}
    (steps : state.Steps lifetime (.spAssignPtr i other) next) :
    (∃ oldPtr, state.threads i = .sp oldPtr) ∧
      next.threads = Function.update state.threads i (.sp other) := by
  simp only [Steps, step] at steps
  split at steps
  next oldPtr isSp _ =>
    cases steps
    exact ⟨⟨oldPtr, isSp⟩, rfl⟩
  next => cases steps

theorem spAssign_cases (steps : state.Steps lifetime (.spAssign i j) next) :
    (∃ oldPtr, state.threads i = .sp oldPtr) ∧ ∃ mPtr, state.threads j = .sp mPtr ∧
      next.threads = Function.update state.threads i (.sp mPtr) := by
  simp only [Steps, step] at steps
  split at steps
  next oldPtr mPtr isSp isOther =>
    cases steps
    exact ⟨⟨oldPtr, isSp⟩, mPtr, isOther, rfl⟩
  next => cases steps

theorem spClear_cases (steps : state.Steps lifetime (.spClear i) next) :
    (∃ oldPtr, state.threads i = .sp oldPtr) ∧
      next.threads = Function.update state.threads i (.sp none) := by
  simp only [Steps, step] at steps
  split at steps
  next oldPtr isSp =>
    cases steps
    exact ⟨⟨oldPtr, isSp⟩, rfl⟩
  next => cases steps

theorem destroy_cases (steps : state.Steps lifetime (.destroy i) next) :
    state.threads i ≠ .dead ∧ next.threads = Function.update state.threads i .dead := by
  simp only [Steps, step] at steps
  split at steps
  next => cases steps
  next mPtr isSp =>
    cases steps
    refine ⟨?_, rfl⟩
    rw [isSp]
    exact fun same => by cases same
  next mPtr mRefs isWp =>
    obtain ⟨objects, -, rfl⟩ := Option.map_eq_some_iff.mp steps
    refine ⟨?_, rfl⟩
    rw [isWp]
    exact fun same => by cases same

end Inversion

section Room

variable {ι ω : Type*} [Fintype ι] [DecidableEq ω] {lifetime : ω → Lifetime}
  {state next : HandleState ι ω}

/-- There are no more handles to an object than places. -/
theorem counts_le (state : HandleState ι ω) (object : ω) :
    state.strongs object + state.weaks object ≤ Fintype.card ι := by
  have one : ∀ i, ((state.threads i).count object).1 + ((state.threads i).count object).2 ≤ 1 := by
    intro i
    cases state.threads i with
    | dead => exact Nat.zero_le 1
    | sp mPtr | wp mPtr mRefs =>
        rw [Handle.count]
        split
        next => exact Nat.le_refl 1
        next => exact Nat.zero_le 1
  rw [strongs, weaks, ← Finset.sum_add_distrib]
  exact (Finset.sum_le_card_nsmul Finset.univ _ 1 fun i _ => one i).trans_eq
    (by rw [Finset.card_univ, nsmul_one, Nat.cast_id])

/-- With few places there is always room. -/
theorem roomFor (few : Fintype.card ι < 2 ^ 28) (mPtr : Option ω) :
    state.RoomFor StrongRoom mPtr := by
  intro object _
  have counts := counts_le state object
  rw [StrongRoom, WeakRoom]
  omega

end Room

end HandleState

/-! ## The places of a thread -/

section Places

variable {κ ν ω : Type*}

/-- An `sp` that is alive. -/
def Handle.IsSp (handle : Handle ω) : Prop := ∃ mPtr, handle = .sp mPtr

/-- What a thread finds at its places. -/
def LooperPc.Fits (slot old : Handle ω) (vars : ν → Handle ω) : LooperPc ν → Prop
  | .outside => slot.IsSp ∧ old = .dead
  | .prepareNew looper => slot = .sp none ∧ old = .dead ∧ vars looper = .sp none
  | .setOld looper => slot.IsSp ∧ old = .dead ∧ (vars looper).IsSp
  | .setSlot looper => slot.IsSp ∧ old.IsSp ∧ (vars looper).IsSp
  | .setReturn => slot.IsSp ∧ old.IsSp
  | .exited => slot = .dead ∧ old = .dead

theorem LooperPc.Fits.congr {slot old : Handle ω} {vars vars' : ν → Handle ω} {pc : LooperPc ν}
    (fits : pc.Fits slot old vars) (same : ∀ v, pc.refersTo = some v → vars' v = vars v) :
    pc.Fits slot old vars' := by
  cases pc with
  | outside | setReturn | exited => exact fits
  | prepareNew looper =>
      obtain ⟨isSlot, isOld, isVar⟩ := fits
      exact ⟨isSlot, isOld, (same looper rfl).trans isVar⟩
  | setOld looper | setSlot looper =>
      obtain ⟨isSlot, isOld, isVar⟩ := fits
      refine ⟨isSlot, isOld, ?_⟩
      rwa [same looper rfl]

namespace LooperThreads

variable {system : LooperThreads κ ν ω} {k other : κ}

/-- What the places of a thread hold. -/
def FitsAt (pc : LooperPc ν) (handles : HandleState (LooperVar κ ν) ω) (k : κ) : Prop :=
  pc.Fits (handles.threads (.slot k)) (handles.threads (.old k)) fun v => handles.threads (.var v)

/-- The place does not belong to another thread. -/
def Spares (system : LooperThreads κ ν ω) (k : κ) : LooperVar κ ν → Prop
  | .inl j | .inr (.inl j) => j = k
  | .inr (.inr v) => ∀ other, other ≠ k → (system.pcs other).refersTo ≠ some v

variable [DecidableEq κ] [DecidableEq ν]

/-- A change at one place, as far as another thread sees it. -/
theorem FitsAt.spared {handles : HandleState (LooperVar κ ν) ω} {place : LooperVar κ ν}
    {handle : Handle ω} (fits : FitsAt (system.pcs other) system.handles other)
    (isOther : other ≠ k) (spares : system.Spares k place)
    (changed : handles.threads = Function.update system.handles.threads place handle) :
    FitsAt (system.pcs other) handles other := by
  have isSlot : handles.threads (.slot other) = system.handles.threads (.slot other) := by
    rw [changed, Function.update_of_ne]
    rintro rfl
    exact isOther spares
  have isOld : handles.threads (.old other) = system.handles.threads (.old other) := by
    rw [changed, Function.update_of_ne]
    rintro rfl
    exact isOther spares
  rw [FitsAt, isSlot, isOld]
  refine LooperPc.Fits.congr fits fun v refers => ?_
  rw [changed, Function.update_of_ne]
  rintro rfl
  exact spares other isOther refers

variable [DecidableEq ω] [Fintype κ] [Fintype ν]

/-- What holds of a program. -/
structure Fine (system : LooperThreads κ ν ω) : Prop where
  sound : system.handles.Sound lifetime
  fits : ∀ k, FitsAt (system.pcs k) system.handles k
  exclusive : ∀ k v, system.pcs k = .prepareNew v → ∀ other, other ≠ k →
    (system.pcs other).refersTo ≠ some v

/-- A thread changes one place, and goes on. -/
theorem Fine.goto (fine : system.Fine) {handles : HandleState (LooperVar κ ν) ω}
    {place : LooperVar κ ν} {handle : Handle ω} {pc : LooperPc ν}
    (sound : handles.Sound lifetime)
    (changed : handles.threads = Function.update system.handles.threads place handle)
    (spares : system.Spares k place) (fits : FitsAt pc handles k)
    (alone : ∀ v, pc = .prepareNew v → ∀ other, other ≠ k → (system.pcs other).refersTo ≠ some v)
    (unwritten : ∀ v, pc.refersTo = some v → ∀ other, other ≠ k →
      system.pcs other ≠ .prepareNew v) :
    (system.goto k handles pc).Fine where
  sound := sound
  fits other := by
    by_cases same : other = k
    · cases same
      simpa [LooperThreads.goto] using fits
    · have isOther := (fine.fits other).spared same spares changed
      simpa [LooperThreads.goto, same] using isOther
  exclusive j v isNew other isOther refers := by
    have pcs : ∀ i, (system.goto k handles pc).pcs i = if i = k then pc else system.pcs i :=
      fun i => Function.update_apply ..
    rw [pcs] at isNew refers
    split at isNew
    next isThis =>
      rw [if_neg (fun same => isOther (same.trans isThis.symm))] at refers
      exact alone v isNew other (fun same => isOther (same.trans isThis.symm)) refers
    next notThis =>
      split at refers
      next isThis => exact unwritten v refers j notThis isNew
      next => exact fine.exclusive j v isNew other isOther refers

omit [Fintype κ] [Fintype ν] in
/-- The program changes one variable. -/
theorem program_changes {handles : HandleState (LooperVar κ ν) ω} {op : LooperOp ν ω}
    (performs : system.Performs op.handleOp handles) :
    ∃ handle, handles.threads = Function.update system.handles.threads (.var op.target) handle := by
  cases op with
  | create v object => exact ⟨_, (HandleState.spNew_cases performs).2⟩
  | copy v other =>
      obtain ⟨-, mPtr, -, changed⟩ := HandleState.spCopy_cases performs
      exact ⟨_, changed⟩
  | assign v other =>
      obtain ⟨-, mPtr, -, changed⟩ := HandleState.spAssign_cases performs
      exact ⟨_, changed⟩
  | clear v => exact ⟨_, (HandleState.spClear_cases performs).2⟩
  | destroy v => exact ⟨_, (HandleState.destroy_cases performs).2⟩

omit [DecidableEq κ] [DecidableEq ν] in
/-- With few places, every operation has room. -/
theorem program_meets (few : Fintype.card (LooperVar κ ν) < 2 ^ 28) (op : LooperOp ν ω) :
    system.handles.Meets op.handleOp := by
  cases op with
  | create | copy | assign => exact HandleState.roomFor few _
  | clear | destroy => exact trivial

/-- A variable of the program changes. -/
theorem Fine.program (fine : system.Fine) {handles : HandleState (LooperVar κ ν) ω} {v : ν}
    {handle : Handle ω} (sound : handles.Sound lifetime)
    (changed : handles.threads = Function.update system.handles.threads (.var v) handle)
    (unused : system.Unused v) : LooperThreads.Fine { system with handles } where
  sound := sound
  fits k := by
    have others : ∀ v', v' ≠ v → handles.threads (.var v') = system.handles.threads (.var v') := by
      intro v' notThis
      rw [changed, Function.update_of_ne]
      exact fun same => notThis (Sum.inr.inj (Sum.inr.inj same))
    have fits := fine.fits k
    have isSlot : handles.threads (.slot k) = system.handles.threads (.slot k) := by simp [changed]
    have isOld : handles.threads (.old k) = system.handles.threads (.old k) := by simp [changed]
    rw [FitsAt, isSlot, isOld]
    refine LooperPc.Fits.congr fits fun v' refers => others v' ?_
    rintro rfl
    exact unused k refers
  exclusive := fine.exclusive

/-- `getForThread` returns a copy of the value. -/
theorem Fine.returns (fine : system.Fine) (few : Fintype.card (LooperVar κ ν) < 2 ^ 28)
    {handles : HandleState (LooperVar κ ν) ω} {looper : ν} (outside : system.pcs k = .outside)
    (isTarget : system.Unused looper)
    (performs : system.Performs (.spCopy (.var looper) (.slot k)) handles) {pc : LooperPc ν}
    (isPc : pc = .outside ∨ pc = .prepareNew looper ∧ handles.threads (.var looper) = .sp none) :
    (system.goto k handles pc).Fine := by
  have sound := fine.sound.step performs (HandleState.roomFor few _)
  obtain ⟨-, mPtr, isSlot, changed⟩ := HandleState.spCopy_cases performs
  have fits := fine.fits k
  rw [FitsAt, outside] at fits
  obtain ⟨-, isOld⟩ := fits
  have sameSlot : handles.threads (.slot k) = .sp mPtr := by simp [changed, isSlot]
  have sameOld : handles.threads (.old k) = .dead := by simp [changed, isOld]
  have isVar : handles.threads (.var looper) = .sp mPtr := by simp [changed]
  refine fine.goto sound changed (fun other _ => isTarget other) ?_ ?_ ?_
  · rcases isPc with rfl | ⟨rfl, isNull⟩
    · exact ⟨⟨mPtr, sameSlot⟩, sameOld⟩
    · exact ⟨sameSlot.trans (isVar.symm.trans isNull), sameOld, isNull⟩
  · rintro v isNew other -
    rcases isPc with rfl | ⟨rfl, -⟩
    · cases isNew
    · cases isNew
      exact isTarget other
  · rintro v refers other - isNew
    rcases isPc with rfl | ⟨rfl, -⟩
    · cases refers
    · cases refers
      exact isTarget other (by rw [isNew]; rfl)

theorem Fine.advances (fine : system.Fine) (few : Fintype.card (LooperVar κ ν) < 2 ^ 28)
    {handles : HandleState (LooperVar κ ν) ω} {op : HandleOp (LooperVar κ ν) ω}
    {pc next : LooperPc ν}
    (isPc : system.pcs k = pc) (goes : Advance k system pc op next)
    (performs : system.Performs op handles) : (system.goto k handles next).Fine := by
  have fits := fine.fits k
  rw [FitsAt, isPc] at fits
  have unwritten : ∀ v, pc.refersTo = some v → ∀ other, other ≠ k →
      system.pcs other ≠ .prepareNew v := by
    intro v refers other isOther isNew
    exact fine.exclusive other v isNew k isOther.symm (by rw [isPc]; exact refers)
  cases goes with
  | @prepareNew looper object =>
      have sound := fine.sound.step performs (HandleState.roomFor few _)
      obtain ⟨-, changed⟩ := HandleState.spAssignPtr_cases performs
      obtain ⟨isSlot, isOld, -⟩ := fits
      have alone : ∀ other, other ≠ k → (system.pcs other).refersTo ≠ some looper :=
        fine.exclusive k looper isPc
      refine fine.goto sound changed alone ?_ (fun v isNew => by cases isNew) unwritten
      refine ⟨⟨none, ?_⟩, ?_, ⟨some object, ?_⟩⟩
      · simp [changed, isSlot]
      · simp [changed, isOld]
      · simp [changed]
  | @setOld looper =>
      have sound := fine.sound.step performs (HandleState.roomFor few _)
      obtain ⟨-, mPtr, isSlot, changed⟩ := HandleState.spCopy_cases performs
      obtain ⟨-, -, isVar⟩ := fits
      refine fine.goto sound changed rfl ?_ (fun v isNew => by cases isNew) unwritten
      refine ⟨⟨mPtr, ?_⟩, ⟨mPtr, ?_⟩, ?_⟩
      · simp [changed, isSlot]
      · simp [changed]
      · simpa [changed] using isVar
  | @setSlot looper =>
      have sound := fine.sound.step performs (HandleState.roomFor few _)
      obtain ⟨-, mPtr, -, changed⟩ := HandleState.spAssign_cases performs
      obtain ⟨-, isOld, -⟩ := fits
      refine fine.goto sound changed rfl ?_ (fun v isNew => by cases isNew)
        fun v refers => by cases refers
      refine ⟨⟨mPtr, ?_⟩, ?_⟩
      · simp [changed]
      · simpa [changed] using isOld
  | setReturn =>
      have sound := fine.sound.step performs trivial
      obtain ⟨-, changed⟩ := HandleState.destroy_cases performs
      obtain ⟨isSlot, -⟩ := fits
      refine fine.goto sound changed rfl ?_ (fun v isNew => by cases isNew)
        fun v refers => by cases refers
      refine ⟨?_, ?_⟩
      · simpa [changed] using isSlot
      · simp [changed]

end LooperThreads

end Places

section Steps

open LooperThreads

variable {κ ν ω : Type*} [DecidableEq κ] [DecidableEq ν] [DecidableEq ω] [Fintype κ] [Fintype ν]
  {system next : LooperThreads κ ν ω} {event : LooperThreadEvent κ ν ω}

/-- Every step keeps it. -/
theorem LooperThreadStep.fine (few : Fintype.card (LooperVar κ ν) < 2 ^ 28)
    (step : LooperThreadStep system event next) (fine : system.Fine) : next.Fine := by
  cases step with
  | prepare outside isTarget performs =>
      refine fine.returns few outside isTarget performs ?_
      split
      next isNull => exact .inr ⟨rfl, isNull⟩
      next => exact .inl rfl
  | getForThread outside isTarget performs =>
      exact fine.returns few outside isTarget performs (.inl rfl)
  | @setForThread k looper mPtr outside isSp notWritten =>
      have fits := fine.fits k
      rw [FitsAt, outside] at fits
      obtain ⟨isSlot, isOld⟩ := fits
      have unchanged : system.handles.threads = Function.update system.handles.threads (.slot k)
          (system.handles.threads (.slot k)) := (Function.update_eq_self _ _).symm
      refine fine.goto fine.sound unchanged rfl ⟨isSlot, isOld, mPtr, isSp⟩
        (fun v isNew => by cases isNew) fun v refers other _ => ?_
      cases refers
      exact notWritten other
  | advances goes performs => exact fine.advances few rfl goes performs
  | @exits k handles outside performs =>
      have sound := fine.sound.step performs trivial
      obtain ⟨-, changed⟩ := HandleState.destroy_cases performs
      have fits := fine.fits k
      rw [FitsAt, outside] at fits
      obtain ⟨-, isOld⟩ := fits
      refine fine.goto sound changed rfl ?_ (fun v isNew => by cases isNew)
        fun v refers => by cases refers
      refine ⟨?_, ?_⟩
      · simp [changed]
      · simp [changed, isOld]
  | @program op handles isTarget areNew performs =>
      obtain ⟨handle, changed⟩ := program_changes performs
      exact fine.program (fine.sound.step performs (program_meets few op)) changed isTarget

omit [DecidableEq κ] [DecidableEq ν] in
theorem LooperThreads.init_fine : (init : LooperThreads κ ν ω).Fine where
  sound := by
    have nothing : Threads.tally Handle.count (init : LooperThreads κ ν ω).handles.threads = 0 := by
      refine Finset.sum_eq_zero fun place _ => ?_
      cases place <;> rfl
    refine ⟨fun place => ?_, ?_⟩
    · cases place <;> exact trivial
    · rw [nothing]
      exact fun _ => Held.init
  fits k := ⟨⟨none, rfl⟩, rfl⟩
  exclusive k v isNew := by cases isNew

/-! ## Loopers of their own -/

namespace LooperThreads

/-- The place of the Looper that a thread has, or is about to set. -/
def claim (k : κ) : LooperPc ν → LooperVar κ ν
  | .setOld looper | .setSlot looper => .var looper
  | .outside | .prepareNew _ | .setReturn | .exited => .slot k

/-- The thread has this Looper. -/
def Claims (system : LooperThreads κ ν ω) (k : κ) (object : ω) : Prop :=
  system.handles.threads (claim k (system.pcs k)) = .sp (some object)

/-- What holds while the program does not call `setForThread` itself. -/
structure Apart (system : LooperThreads κ ν ω) : Prop where
  distinct : ∀ k other object, system.Claims k object → system.Claims other object → k = other
  pending : ∀ k looper, system.pcs k = .setOld looper ∨ system.pcs k = .setSlot looper →
    system.handles.threads (.slot k) = .sp none

variable {k other : κ} {handles : HandleState (LooperVar κ ν) ω} {place : LooperVar κ ν}
  {handle : Handle ω}

omit [DecidableEq κ] [DecidableEq ν] in
/-- What a pointer points to has been constructed. -/
theorem Fine.made (fine : system.Fine) {object : ω}
    (points : system.handles.threads place = .sp (some object)) : ¬ system.Unmade object := by
  have held := fine.sound.held object
  have some : 0 < system.handles.strongs object := by
    refine Finset.sum_pos' (fun _ _ => Nat.zero_le _) ⟨place, Finset.mem_univ _, ?_⟩
    rw [points, Handle.count_sp_self]
    exact Nat.one_pos
  rw [Unmade, held.settled.core.started some]
  exact fun same => by cases same

omit [Fintype κ] [Fintype ν] [DecidableEq ω] in
/-- A change at one place, as far as another thread sees it. -/
theorem claims_spared (pc : LooperPc ν) (isOther : other ≠ k) (spares : system.Spares k place)
    (changed : handles.threads = Function.update system.handles.threads place handle) :
    (∀ object, (system.goto k handles pc).Claims other object ↔ system.Claims other object) ∧
      handles.threads (.slot other) = system.handles.threads (.slot other) := by
  have samePc : (system.goto k handles pc).pcs other = system.pcs other :=
    Function.update_of_ne isOther _ _
  have isSlot : handles.threads (.slot other) = system.handles.threads (.slot other) := by
    rw [changed, Function.update_of_ne]
    rintro rfl
    exact isOther spares
  have isVar : ∀ v, (system.pcs other).refersTo = some v →
      handles.threads (.var v) = system.handles.threads (.var v) := by
    intro v refers
    rw [changed, Function.update_of_ne]
    rintro rfl
    exact spares other isOther refers
  refine ⟨fun object => ?_, isSlot⟩
  rw [Claims, samePc, Claims]
  change handles.threads _ = _ ↔ _
  cases isPc : system.pcs other with
  | outside | prepareNew | setReturn | exited => rw [claim, isSlot]
  | setOld looper | setSlot looper => rw [claim, isVar looper (by rw [isPc]; rfl)]

/-- A thread goes on, and has what it had, or something new. -/
theorem Apart.goto (apart : system.Apart) (fine : system.Fine) {pc : LooperPc ν}
    (changed : handles.threads = Function.update system.handles.threads place handle)
    (spares : system.Spares k place)
    (claims : ∀ object, handles.threads (claim k pc) = .sp (some object) →
      system.Claims k object ∨ system.Unmade object)
    (pending : ∀ looper, pc = .setOld looper ∨ pc = .setSlot looper →
      handles.threads (.slot k) = .sp none) : (system.goto k handles pc).Apart where
  distinct i j object isFirst isSecond := by
    have before : ∀ i, (system.goto k handles pc).Claims i object →
        system.Claims i object ∨ i = k ∧ system.Unmade object := by
      intro i isClaim
      by_cases same : i = k
      · subst same
        have pcs : (system.goto i handles pc).pcs i = pc := Function.update_self ..
        rw [Claims, pcs] at isClaim
        exact (claims object isClaim).imp_right fun isNew => ⟨rfl, isNew⟩
      · exact .inl (((claims_spared pc same spares changed).1 object).mp isClaim)
    rcases before i isFirst with first | ⟨isThis, isNew⟩
    · rcases before j isSecond with second | ⟨-, isNew⟩
      · exact apart.distinct i j object first second
      · exact absurd isNew (fine.made first)
    · rcases before j isSecond with second | ⟨isThat, -⟩
      · exact absurd isNew (fine.made second)
      · exact isThis.trans isThat.symm
  pending i looper isPc := by
    by_cases same : i = k
    · subst same
      have pcs : (system.goto i handles pc).pcs i = pc := Function.update_self ..
      rw [pcs] at isPc
      exact pending looper isPc
    · have pcs : (system.goto k handles pc).pcs i = system.pcs i :=
        Function.update_of_ne same _ _
      rw [pcs] at isPc
      exact (claims_spared pc same spares changed).2.trans (apart.pending i looper isPc)

omit [DecidableEq ω] [Fintype κ] [Fintype ν] in
/-- A variable of the program changes. -/
theorem Apart.program (apart : system.Apart) {v : ν}
    (changed : handles.threads = Function.update system.handles.threads (.var v) handle)
    (unused : system.Unused v) : LooperThreads.Apart { system with handles } := by
  have isSlot : ∀ k, handles.threads (.slot k) = system.handles.threads (.slot k) := by
    intro k
    simp [changed]
  have same : ∀ k, handles.threads (claim k (system.pcs k)) =
      system.handles.threads (claim k (system.pcs k)) := by
    intro k
    cases isPc : system.pcs k with
    | outside | prepareNew | setReturn | exited => exact isSlot k
    | setOld looper | setSlot looper =>
        rw [claim, changed, Function.update_of_ne]
        rintro isTarget
        cases Sum.inr.inj (Sum.inr.inj isTarget)
        exact unused k (by rw [isPc]; rfl)
  constructor
  · intro k other object isFirst isSecond
    exact apart.distinct k other object ((same k).symm.trans isFirst)
      ((same other).symm.trans isSecond)
  · intro k looper isPc
    exact (isSlot k).trans (apart.pending k looper isPc)

/-- `getForThread` returns a copy of the value. -/
theorem Apart.returns (apart : system.Apart) (fine : system.Fine) {looper : ν}
    (outside : system.pcs k = .outside) (isTarget : system.Unused looper)
    (performs : system.Performs (.spCopy (.var looper) (.slot k)) handles) {pc : LooperPc ν}
    (isPc : pc = .outside ∨ pc = .prepareNew looper) : (system.goto k handles pc).Apart := by
  obtain ⟨-, mPtr, isSlot, changed⟩ := HandleState.spCopy_cases performs
  have isClaim : claim k pc = .slot k := by
    rcases isPc with rfl | rfl <;> rfl
  refine apart.goto fine changed (fun other _ => isTarget other) ?_ ?_
  · intro object claims
    left
    rw [isClaim] at claims
    rw [Claims, outside, claim]
    simpa [changed] using claims
  · rintro v (isSet | isSet) <;> rcases isPc with rfl | rfl <;> cases isSet

theorem Apart.advances (apart : system.Apart) (fine : system.Fine)
    {op : HandleOp (LooperVar κ ν) ω} {pc next : LooperPc ν} (isPc : system.pcs k = pc)
    (goes : Advance k system pc op next) (performs : system.Performs op handles) :
    (system.goto k handles next).Apart := by
  have fits := fine.fits k
  rw [FitsAt, isPc] at fits
  cases goes with
  | @prepareNew looper object isNew =>
      obtain ⟨-, changed⟩ := HandleState.spAssignPtr_cases performs
      have alone : ∀ other, other ≠ k → (system.pcs other).refersTo ≠ some looper :=
        fine.exclusive k looper isPc
      refine apart.goto fine changed alone ?_ ?_
      · intro other claims
        right
        have isSame : object = other := by simpa [claim, changed] using claims
        exact isSame ▸ isNew
      · intro v _
        simp [changed, fits.1]
  | @setOld looper =>
      obtain ⟨-, mPtr, -, changed⟩ := HandleState.spCopy_cases performs
      refine apart.goto fine changed rfl ?_ ?_
      · intro object claims
        left
        rw [Claims, isPc]
        simpa [claim, changed] using claims
      · intro v _
        simpa [changed] using apart.pending k looper (.inl isPc)
  | @setSlot looper =>
      obtain ⟨-, mPtr, isVar, changed⟩ := HandleState.spAssign_cases performs
      refine apart.goto fine changed rfl ?_ ?_
      · intro object claims
        left
        rw [Claims, isPc, claim, isVar]
        simpa [claim, changed] using claims
      · rintro v (isSet | isSet) <;> cases isSet
  | setReturn =>
      obtain ⟨-, changed⟩ := HandleState.destroy_cases performs
      refine apart.goto fine changed rfl ?_ ?_
      · intro object claims
        left
        rw [Claims, isPc]
        simpa [claim, changed] using claims
      · rintro v (isSet | isSet) <;> cases isSet

end LooperThreads

/-- Every step but `setForThread` keeps the Loopers of the threads apart. -/
theorem LooperThreadStep.apart (step : LooperThreadStep system event next) (fine : system.Fine)
    (apart : system.Apart) (notSet : ∀ k looper, event ≠ .setForThread k looper) :
    next.Apart := by
  cases step with
  | prepare outside isTarget performs =>
      refine apart.returns fine outside isTarget performs ?_
      split
      next => exact .inr rfl
      next => exact .inl rfl
  | getForThread outside isTarget performs =>
      exact apart.returns fine outside isTarget performs (.inl rfl)
  | setForThread => exact absurd rfl (notSet _ _)
  | advances goes performs => exact apart.advances fine rfl goes performs
  | @exits k handles outside performs =>
      obtain ⟨-, changed⟩ := HandleState.destroy_cases performs
      refine apart.goto fine changed rfl ?_ ?_
      · intro object claims
        simp [claim, changed] at claims
      · rintro v (isSet | isSet) <;> cases isSet
  | @program op handles isTarget areNew performs =>
      obtain ⟨handle, changed⟩ := program_changes performs
      exact apart.program changed isTarget

/-! ## Whole runs -/

/-- The thread sets another Looper, or ends. -/
def LooperThreadEvent.Leaves (k : κ) (event : LooperThreadEvent κ ν ω) : Prop :=
  event = .exits k ∨ ∃ looper, event = .setForThread k looper

/-- The thread is in no function, and has this Looper. -/
def LooperThreads.Keeps (k : κ) (object : ω) (system : LooperThreads κ ν ω) : Prop :=
  system.pcs k = .outside ∧ system.handles.threads (.slot k) = .sp (some object)

omit [Fintype κ] [Fintype ν] in
/-- A step in which the thread does neither. -/
theorem LooperThreadStep.keeps {k : κ} {object : ω} (step : LooperThreadStep system event next)
    (keeps : system.Keeps k object) (stays : ¬ event.Leaves k) : next.Keeps k object := by
  obtain ⟨outside, isSlot⟩ := keeps
  -- a step of a thread changes its own value only
  have others : ∀ {j : κ} {handles : HandleState (LooperVar κ ν) ω} {place : LooperVar κ ν}
      {handle : Handle ω} (pc : LooperPc ν), k ≠ j → place ≠ .slot k →
      handles.threads = Function.update system.handles.threads place handle →
        (system.goto j handles pc).Keeps k object := by
    intro j handles place handle pc isOther notSlot changed
    refine ⟨(Function.update_of_ne isOther _ _).trans outside, ?_⟩
    change handles.threads _ = _
    rw [changed, Function.update_of_ne notSlot.symm, isSlot]
  have reads : ∀ {j : κ} {handles : HandleState (LooperVar κ ν) ω} {looper : ν} (pc : LooperPc ν),
      system.Performs (.spCopy (.var looper) (.slot j)) handles →
      (k = j → handles.threads (.var looper) = .sp (some object) → pc = .outside) →
        (system.goto j handles pc).Keeps k object := by
    intro j handles looper pc performs isPc
    obtain ⟨-, mPtr, isRead, changed⟩ := HandleState.spCopy_cases performs
    have notSlot : (.var looper : LooperVar κ ν) ≠ .slot k := fun same => by cases same
    by_cases same : k = j
    · subst same
      refine ⟨(Function.update_self ..).trans (isPc rfl ?_), ?_⟩
      · rw [changed, Function.update_self, ← isRead, isSlot]
      · change handles.threads _ = _
        rw [changed, Function.update_of_ne notSlot.symm, isSlot]
    · exact others pc same notSlot changed
  cases step with
  | prepare _ _ performs =>
      refine reads _ performs fun _ isVar => ?_
      rw [if_neg]
      rw [isVar]
      exact fun same => by cases same
  | getForThread _ _ performs => exact reads _ performs fun _ _ => rfl
  | @setForThread j looper =>
      have isOther : k ≠ j := fun same => stays (.inr ⟨looper, by rw [same]⟩)
      exact ⟨(Function.update_of_ne isOther _ _).trans outside, isSlot⟩
  | @advances j op pc handles goes performs =>
      have isOther : k ≠ j := by
        rintro rfl
        rw [outside] at goes
        cases goes
      generalize system.pcs j = now at goes
      cases goes with
      | prepareNew =>
          exact others _ isOther (fun same => by cases same)
            (HandleState.spAssignPtr_cases performs).2
      | setOld =>
          obtain ⟨-, mPtr, -, changed⟩ := HandleState.spCopy_cases performs
          exact others _ isOther (fun same => by cases same) changed
      | setSlot =>
          obtain ⟨-, mPtr, -, changed⟩ := HandleState.spAssign_cases performs
          exact others _ isOther (fun same => isOther (Sum.inl.inj same).symm) changed
      | setReturn =>
          exact others _ isOther (fun same => by cases same) (HandleState.destroy_cases performs).2
  | @exits j handles _ performs =>
      have isOther : k ≠ j := fun same => stays (.inl (by rw [same]))
      exact others _ isOther (fun same => isOther (Sum.inl.inj same).symm)
        (HandleState.destroy_cases performs).2
  | program _ _ performs =>
      obtain ⟨handle, changed⟩ := program_changes performs
      refine ⟨outside, ?_⟩
      rw [changed, Function.update_of_ne (fun same => by cases same), isSlot]

end Steps

end DroidKernal.Utils
