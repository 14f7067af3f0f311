import DroidKernal.Utils.Lifetime
import DroidKernal.Utils.Outcomes
import Mathlib.Logic.Function.Iterate

/-!
# Counting without interruption

The operations of `RefBase` and its `weakref_type` when no other thread accesses the object.
Each access keeps what `Lifetime` says of it, and there are only so many until the operation
returns.
-/

namespace DroidKernal.Utils

variable {lifetime : Lifetime} {refs next : RefBase} {s w : Nat}

/-! ## Up to the return -/

theorem advanceAlone_next {pc pc' : Pc}
    (step : advance lifetime true refs ⟨pc, 0, 0⟩ = (next, ⟨pc', 0, 0⟩)) (more : pc' ≠ .idle)
    (fuel : Nat) :
    advanceAlone lifetime (fuel + 1) refs ⟨pc, 0, 0⟩ =
      advanceAlone lifetime fuel next ⟨pc', 0, 0⟩ := by
  rw [advanceAlone, step]
  exact if_neg more

theorem advanceAlone_last {thread thread' : RefThread}
    (step : advance lifetime true refs thread = (next, thread')) (ends : thread'.pc = .idle)
    (fuel : Nat) : advanceAlone lifetime (fuel + 1) refs thread = (next, thread') := by
  rw [advanceAlone, step]
  exact if_pos ends

theorem advanceAlone_eq (fuel : Nat) (refs : RefBase) (thread : RefThread) :
    advanceAlone lifetime fuel refs thread = advanceAsked lifetime true fuel refs thread := by
  induction fuel generalizing refs thread with
  | zero => rfl
  | succ fuel ih => simp only [advanceAlone, advanceAsked, Bool.or_true, ih]

/-- At most so many accesses are left. -/
def Pc.rank (lifetime : Lifetime) : Pc → Nat
  | incStrongWeak _ => 4
  | incStrongAdd _ => 3
  | incStrongSub => 2
  | incStrongFirstRef | creatWeak _ | incWeak => 1
  | decStrongSub => 10
  | decStrongLastRef => 9
  | decStrongFlags => 8
  | decStrongDelete => 7
  | destructorFlags .decStrong => 6
  | destructorStrong .decStrong => 5
  | decWeakSub => if lifetime = .strong then 4 else 7
  | decWeakFlags => if lifetime = .strong then 3 else 6
  | decWeakStrong => 2
  | decWeakFree => 1
  | decWeakLastRef => 5
  | decWeakDelete => 4
  | destructorFlags .decWeak => 3
  | destructorWeak .decWeak => 2
  | destructorFree .decWeak => 1
  | attemptWeak => 11
  | attemptLoad => 10
  | attemptLoop _ => 9
  | attemptPromote _ => 5
  | attemptAsk => 8
  | attemptAdd => 3
  | attemptLastRef | attemptSub => 2
  | attemptReturn => 1
  | _ => 0

/-- What a thread that is not interrupted knows, by where it is. -/
def Pc.Knows (refs : RefBase) : Pc → Prop
  | attemptLoop curCount | attemptPromote curCount => curCount = refs.mStrong
  | decWeakFree => refs.strongTaken = true
  | destructorFlags _ | destructorWeak _ | destructorStrong _ | destructorFree _ =>
      0 < refs.destroyed
  | _ => True

/-- Each access is one less that is left: no `compare_exchange_weak` fails. -/
theorem rank_advance {thread : RefThread} (entitled : thread.Entitled lifetime)
    (knows : thread.pc.Knows refs) (busy : thread.pc ≠ .idle) (allows : Bool) :
    (advance lifetime (thread.pc ≠ .attemptAsk || allows) refs thread).2.pc.rank lifetime <
      thread.pc.rank lifetime := by
  obtain ⟨pc, strong, weak⟩ := thread
  cases pc with
  | idle => exact absurd rfl busy
  | attemptLoop curCount =>
      have succeeds : refs.mStrong = curCount ∧
          (decide (Pc.attemptLoop curCount ≠ .attemptAsk) || allows) = true := ⟨knows.symm, rfl⟩
      simp only [advance, if_pos succeeds]
      cases lifetime <;> (repeat' split) <;> exact Nat.le_of_ble_eq_true rfl
  | attemptPromote curCount =>
      have succeeds : refs.mStrong = curCount ∧
          (decide (Pc.attemptPromote curCount ≠ .attemptAsk) || allows) = true := ⟨knows.symm, rfl⟩
      cases (entitled : lifetime = .strong)
      simp only [advance, if_pos succeeds]
      (repeat' split) <;> exact Nat.le_of_ble_eq_true rfl
  | destructorFlags caller =>
      cases caller <;> cases (entitled : lifetime = _) <;> exact Nat.le_of_ble_eq_true rfl
  | destructorWeak caller =>
      obtain ⟨rfl, rfl⟩ := entitled
      simp only [advance]
      split <;> exact Nat.le_of_ble_eq_true rfl
  | destructorStrong caller =>
      obtain ⟨rfl, rfl⟩ := entitled
      exact Nat.le_of_ble_eq_true rfl
  | destructorFree caller =>
      obtain ⟨rfl, rfl⟩ := entitled
      exact Nat.le_of_ble_eq_true rfl
  | _ =>
      cases lifetime <;> simp only [advance] <;> (repeat' split) <;>
        exact Nat.le_of_ble_eq_true rfl

/-- A thread in an operation that nothing interrupts, while `s` strong references are held among
`w` weak ones. -/
structure Going (lifetime : Lifetime) (s w : Nat) (refs : RefBase) (thread : RefThread) :
    Prop where
  entitled : thread.Entitled lifetime
  core : CoreWith lifetime s w 0 0 0 refs thread
  knows : thread.pc.Knows refs
  last : refs.freed ≤ refs.destroyed

namespace Going

variable {thread : RefThread}

/-- Before the `weakref_impl` is freed, a strong reference was taken. -/
theorem knows_advance (going : Going lifetime s w refs thread) (bare : thread.Bare)
    (few : s < 2 ^ 28) (choice : Bool) :
    (advance lifetime choice refs thread).2.pc.Knows (advance lifetime choice refs thread).1 := by
  have knows := going.knows
  obtain ⟨pc, strong, weak⟩ := thread
  cases pc with
  | decWeakStrong =>
      simp only [advance]
      split
      next => trivial
      next notInitial =>
        have core : Core lifetime refs (s + strong) (w + (weak + strong)) 0 0 1 := going.core
        have noStrong : strong = 0 := bare.strong
        rw [core.initial_iff (by omega), Bool.not_eq_false] at notInitial
        exact notInitial
  | destructorFlags caller =>
      cases lifetime <;> exact knows
  | destructorWeak caller =>
      simp only [advance]
      split
      next => exact knows
      next => cases caller <;> trivial
  | destructorStrong caller => cases caller <;> trivial
  | destructorFree caller => cases caller <;> trivial
  | decStrongDelete => exact Nat.succ_pos _
  | decWeakDelete => exact Nat.succ_pos _
  | _ => cases lifetime <;> simp only [advance] <;> (repeat' split) <;> trivial

/-- The `weakref_impl` is freed after the object was destroyed. -/
theorem last_advance (going : Going lifetime s w refs thread) (among : s ≤ w)
    (bare : thread.Bare) (choice : Bool) :
    (advance lifetime choice refs thread).1.freed ≤
      (advance lifetime choice refs thread).1.destroyed := by
  have last := going.last
  obtain ⟨pc, strong, weak⟩ := thread
  cases pc with
  | decWeakFree =>
      have core : Core lifetime refs (s + strong) (w + (weak + strong)) 0 0 1 := going.core
      have isStrong : lifetime = .strong := going.entitled
      have taken : refs.strongTaken = true := going.knows
      have unused := core.impl.2 (Nat.succ_pos _)
      have destroyed := core.object isStrong
      rw [if_pos ⟨taken, by omega⟩] at destroyed
      have unfreed := core.unfreed_reaper
      change refs.freed + 1 ≤ refs.destroyed
      omega
  | destructorFree caller =>
      obtain ⟨isWeak, rfl⟩ := going.entitled
      have core : Core lifetime refs (s + strong) (w + (weak + strong)) 0 0 1 := going.core
      have unfreed := core.unfreed_reaper
      have destroyed : 0 < refs.destroyed := going.knows
      change refs.freed + 1 ≤ refs.destroyed
      omega
  | decStrongDelete => exact Nat.le_succ_of_le last
  | decWeakDelete => exact Nat.le_succ_of_le last
  | _ => cases lifetime <;> simp only [advance] <;> (repeat' split) <;> exact last

/-- One access. -/
theorem advance (going : Going lifetime s w refs thread) (bare : thread.Bare)
    (busy : thread.pc ≠ .idle) (among : s ≤ w) (few : s < 2 ^ 28) (small : w + 1 < 2 ^ 31)
    (choice : Bool) :
    Going lifetime s w (advance lifetime choice refs thread).1
      (advance lifetime choice refs thread).2 := by
  obtain ⟨weak, rfl⟩ := Nat.exists_eq_add_of_le' among
  have held : (⟨.idle, s, weak⟩ : RefThread).count lifetime ∈ limits :=
    RefThread.count_mem lifetime _
  have fits : Few ((⟨.idle, s, weak⟩ : RefThread).count lifetime + thread.count lifetime) := by
    simp only [Few, Pi.add_apply, RefThread.count, bare.strong, bare.weak, if_neg busy]
    simp
    omega
  have lawful : Lawful lifetime refs
      ((⟨.idle, s, weak⟩ : RefThread).count lifetime + thread.count lifetime) := by
    refine ⟨going.core, fun some => ?_⟩
    have idleFirst : Pc.idle.first = false := rfl
    simp [RefThread.count, bare.notFirst, idleFirst] at some
  obtain ⟨entitled, after⟩ := advance_keeps choice busy going.entitled _ held fits lawful
  exact ⟨entitled, after.core, going.knows_advance bare few choice,
    going.last_advance among bare choice⟩

/-- All accesses up to the return. -/
theorem returns (going : Going lifetime s w refs thread) (bare : thread.Bare)
    (busy : thread.pc ≠ .idle) (among : s ≤ w) (few : s < 2 ^ 28) (small : w + 1 < 2 ^ 31)
    (allows : Bool) (fuel : Nat) (enough : thread.pc.rank lifetime ≤ fuel) :
    ∃ strong ≤ 1, (advanceAsked lifetime allows fuel refs thread).2 = ⟨.idle, strong, 0⟩ ∧
      Going lifetime s w (advanceAsked lifetime allows fuel refs thread).1
        ⟨.idle, strong, 0⟩ := by
  induction fuel generalizing refs thread with
  | zero =>
      have earlier := rank_advance going.entitled going.knows busy allows
      omega
  | succ fuel ih =>
      have stepped := going.advance bare busy among few small
        (thread.pc ≠ .attemptAsk || allows)
      have earlier := rank_advance going.entitled going.knows busy allows
      have bare' := bare.advance lifetime (thread.pc ≠ .attemptAsk || allows) refs
      simp only [advanceAsked]
      split
      next idle =>
        rcases bare' with isBare | promoted
        · have ends := isBare.idle idle
          exact ⟨0, Nat.zero_le 1, ends, ends ▸ stepped⟩
        · exact ⟨1, Nat.le_refl 1, promoted, promoted ▸ stepped⟩
      next busy' =>
        rcases bare' with isBare | promoted
        · exact ih stepped isBare busy' (by omega)
        · exact absurd (congrArg RefThread.pc promoted) busy'

end Going

theorem advanceAsked_expects {thread : RefThread} {strong weak : Nat}
    (expects : thread.Expects strong weak) (allows : Bool) (fuel : Nat) (refs : RefBase) :
    (advanceAsked lifetime allows fuel refs thread).2.Expects strong weak := by
  induction fuel generalizing refs thread with
  | zero => exact expects
  | succ fuel ih =>
      have after := expects.advance lifetime (thread.pc ≠ .attemptAsk || allows) refs
      simp only [advanceAsked]
      split
      next => exact after
      next => exact ih after _

/-- An operation that gives no reference takes none on the way. -/
theorem advance_taken {thread : RefThread} (expects : thread.Expects 0 0) (choice : Bool)
    (refs : RefBase) : (advance lifetime choice refs thread).1.strongTaken = refs.strongTaken := by
  obtain ⟨pc, strong, weak⟩ := thread
  obtain ⟨known, gainsStrong, _⟩ := expects
  have nothing : pc.gainsStrong = 0 := Nat.eq_zero_of_add_eq_zero_left gainsStrong
  cases pc <;> simp only [Pc.settled, Bool.false_eq_true] at known <;>
    simp only [Pc.gainsStrong, reduceCtorEq] at nothing <;>
    cases lifetime <;> rfl

theorem advanceAlone_taken {thread : RefThread} (expects : thread.Expects 0 0) (fuel : Nat)
    (refs : RefBase) :
    (advanceAlone lifetime fuel refs thread).1.strongTaken = refs.strongTaken := by
  induction fuel generalizing refs thread with
  | zero => rfl
  | succ fuel ih =>
      have same : (advance lifetime true refs thread).1.strongTaken = refs.strongTaken :=
        advance_taken expects true refs
      simp only [advanceAlone]
      split
      next => exact same
      next => exact (ih (expects.advance lifetime true refs) _).trans same

theorem decStrong_taken (lifetime : Lifetime) (refs : RefBase) :
    (refs.decStrong lifetime).strongTaken = refs.strongTaken :=
  advanceAlone_taken ⟨rfl, rfl, rfl⟩ 10 refs

theorem decWeak_taken (lifetime : Lifetime) (refs : RefBase) :
    (refs.decWeak lifetime).strongTaken = refs.strongTaken :=
  advanceAlone_taken ⟨rfl, rfl, rfl⟩ 7 refs

/-! ## Whole operations -/

/-- No operation is going on, and `s` strong references are held among `w` weak ones. -/
structure Settled (lifetime : Lifetime) (refs : RefBase) (s w : Nat) : Prop where
  core : Core lifetime refs s w 0 0 0
  among : s ≤ w
  last : refs.freed ≤ refs.destroyed

namespace Settled

theorem init : Settled lifetime .init 0 0 where
  core := Core.init
  among := Nat.le_refl 0
  last := Nat.le_refl 0

/-- An operation has returned. -/
theorem of_going {strong : Nat} (going : Going lifetime s w refs ⟨.idle, strong, 0⟩)
    (among : s ≤ w) : Settled lifetime refs (s + strong) (w + strong) := by
  have core := going.core
  rw [CoreWith, Nat.zero_add] at core
  exact ⟨core, Nat.add_le_add_right among strong, going.last⟩

/-- An operation that gives no reference has returned. -/
theorem of_dropping {pc : Pc} {fuel : Nat} (going : Going lifetime s w refs ⟨pc, 0, 0⟩)
    (bare : RefThread.Bare ⟨pc, 0, 0⟩) (known : pc.settled = true) (busy : pc ≠ .idle)
    (among : s ≤ w) (few : s < 2 ^ 28) (small : w + 1 < 2 ^ 31)
    (enough : pc.rank lifetime ≤ fuel) :
    Settled lifetime (advanceAlone lifetime fuel refs ⟨pc, 0, 0⟩).1 s w := by
  have expects : RefThread.Expects ⟨pc, 0, 0⟩ 0 0 :=
    ⟨known, (Nat.zero_add _).trans bare.gainsStrong, (Nat.zero_add _).trans bare.gainsWeak⟩
  obtain ⟨strong, _, ends, after⟩ := going.returns bare busy among few small true fuel enough
  have nothing : (advanceAsked lifetime true fuel refs ⟨pc, 0, 0⟩).2.Expects 0 0 :=
    advanceAsked_expects expects true fuel refs
  rw [ends] at nothing
  cases (nothing.strong : strong + 0 = 0)
  rw [advanceAlone_eq]
  exact of_going after among

/-- `incStrong`, by a reference or by a pointer to an object that is there. -/
theorem incStrong (settled : Settled lifetime refs s w) (present : refs.destroyed = 0)
    (few : s < 2 ^ 28) (small : w + 1 < 2 ^ 31) :
    Settled lifetime (refs.incStrong lifetime) (s + 1) (w + 1) := by
  have isObject : refs.useObject = refs := Core.useObject_eq present
  have unfreed : refs.freed = 0 := Nat.le_zero.mp (present ▸ settled.last)
  have weakAdded := settled.core.addWeak unfreed (fun _ => present) small
  have strongAdded := weakAdded.addStrong (Nat.succ_pos w) (fun _ => present) few
  have among := Nat.succ_le_succ settled.among
  have adds : advance lifetime true refs ⟨.incStrongWeak false, 0, 0⟩ =
      (refs.addWeak, ⟨.incStrongAdd false, 0, 0⟩) :=
    congrArg (Prod.mk · _) (congrArg RefBase.addWeak isObject)
  rw [RefBase.incStrong, advanceAlone_next adds (by decide)]
  by_cases isInitial : refs.mStrong = initialStrongValue
  · have counts : advance lifetime true refs.addWeak ⟨.incStrongAdd false, 0, 0⟩ =
        (refs.addWeak.addStrong, ⟨.incStrongSub, 0, 0⟩) :=
      congrArg (Prod.mk refs.addWeak.addStrong) (if_neg (not_not.mpr isInitial))
    rw [show refs.addWeak.mStrong = refs.mStrong from rfl, if_pos isInitial] at strongAdded
    have subtracted := strongAdded.subInitial (Nat.succ_pos w) few
    have same : (refs.addWeak.addStrong.subStrong initialStrongValue).useImpl.useObject =
        refs.addWeak.addStrong.subStrong initialStrongValue := by
      rw [Core.useImpl_eq subtracted.unfreed_held, Core.useObject_eq]
      exact present
    rw [advanceAlone_next counts (by decide), advanceAlone_next rfl (by decide),
      advanceAlone_last rfl rfl]
    rw [same]
    exact ⟨subtracted, among, settled.last⟩
  · have counts : advance lifetime true refs.addWeak ⟨.incStrongAdd false, 0, 0⟩ =
        (refs.addWeak.addStrong, ⟨.idle, 1, 0⟩) :=
      congrArg (Prod.mk refs.addWeak.addStrong) (if_pos isInitial)
    rw [show refs.addWeak.mStrong = refs.mStrong from rfl, if_neg isInitial] at strongAdded
    rw [advanceAlone_last counts rfl]
    exact ⟨strongAdded, among, settled.last⟩

theorem decStrong (settled : Settled lifetime refs (s + 1) (w + 1)) (few : s < 2 ^ 28)
    (small : w + 1 < 2 ^ 31) : Settled lifetime (refs.decStrong lifetime) s w := by
  have among := Nat.le_of_succ_le_succ settled.among
  have going : Going lifetime s w refs ⟨.decStrongSub, 0, 0⟩ :=
    ⟨trivial, settled.core, trivial, settled.last⟩
  exact of_dropping going ⟨rfl, rfl, rfl, rfl⟩ rfl nofun among few small (Nat.le_refl 10)

theorem creatWeak (settled : Settled lifetime refs s w) (present : refs.destroyed = 0)
    (small : w + 1 < 2 ^ 31) : Settled lifetime (refs.creatWeak lifetime) s (w + 1) := by
  have unfreed : refs.freed = 0 := Nat.le_zero.mp (present ▸ settled.last)
  have added := (settled.core.useObject present).addWeak unfreed (fun _ => present) small
  exact ⟨added, Nat.le_succ_of_le settled.among, settled.last⟩

theorem incWeak (settled : Settled lifetime refs s w) (held : 0 < w) (small : w + 1 < 2 ^ 31) :
    Settled lifetime (refs.incWeak lifetime) s (w + 1) := by
  have added := settled.core.addWeak (settled.core.unfreed held) (settled.core.undestroyed held)
    small
  exact ⟨added, Nat.le_succ_of_le settled.among, settled.last⟩

theorem decWeak (settled : Settled lifetime refs s (w + 1)) (among : s ≤ w)
    (small : w + 1 < 2 ^ 31) : Settled lifetime (refs.decWeak lifetime) s w := by
  rw [RefBase.decWeak]
  by_cases last : refs.mWeak = 1
  · have weak := settled.core.weak
    have enough : Pc.decWeakSub.rank lifetime ≤ 7 := by
      cases lifetime <;> decide
    have going : Going lifetime s w refs ⟨.decWeakSub, 0, 0⟩ :=
      ⟨trivial, settled.core, trivial, settled.last⟩
    exact of_dropping going ⟨rfl, rfl, rfl, rfl⟩ rfl nofun among (by omega) small enough
  · have dropped := settled.core.subWeak small
    rw [if_neg fun both => last both.1, if_neg last] at dropped
    have drops : advance lifetime true refs ⟨.decWeakSub, 0, 0⟩ =
        (refs.subWeak, ⟨.idle, 0, 0⟩) := congrArg (refs.subWeak, ·) (if_pos last)
    rw [advanceAlone_last drops rfl]
    exact ⟨dropped, among, settled.last⟩

theorem attemptIncStrong (settled : Settled lifetime refs s w) (held : 0 < w)
    (few : s < 2 ^ 28) (small : w + 1 < 2 ^ 31) (allows : Bool) :
    ∃ strong ≤ 1, (refs.attemptIncStrong lifetime allows).2 = decide (strong = 1) ∧
      Settled lifetime (refs.attemptIncStrong lifetime allows).1 (s + strong) (w + strong) := by
  have added := settled.core.addWeak (settled.core.unfreed held) (settled.core.undestroyed held)
    small
  have enough : Pc.attemptLoad.rank lifetime ≤ 10 := Nat.le_refl 10
  have going : Going lifetime s w refs.addWeak ⟨.attemptLoad, 0, 0⟩ :=
    ⟨trivial, added, trivial, settled.last⟩
  obtain ⟨strong, most, ends, after⟩ :=
    going.returns ⟨rfl, rfl, rfl, rfl⟩ nofun settled.among few small allows 10 enough
  have attempts : refs.attemptIncStrong lifetime allows =
      ((advanceAsked lifetime allows 10 refs.addWeak ⟨.attemptLoad, 0, 0⟩).1,
        decide ((advanceAsked lifetime allows 10 refs.addWeak
          ⟨.attemptLoad, 0, 0⟩).2.strong = 1)) :=
    rfl
  rw [attempts, ends]
  exact ⟨strong, most, rfl, of_going after settled.among⟩

end Settled

/-- An object that has had a strong reference, with `s` of them among `w` weak ones, and no
operation going on. -/
structure Counted (lifetime : Lifetime) (refs : RefBase) (s w : Nat) : Prop where
  core : Core lifetime refs s w 0 0 0
  started : refs.strongTaken = true

namespace Counted

theorem mStrong_eq (counted : Counted lifetime refs s w) : refs.mStrong = s := by
  have strong := counted.core.strong
  simpa [counted.started] using strong

theorem settled (counted : Counted lifetime refs s w) (held : 0 < w) (among : s ≤ w) :
    Settled lifetime refs s w := by
  have unfreed := counted.core.unfreed held
  exact ⟨counted.core, among, by omega⟩

theorem incStrong (counted : Counted lifetime refs s w) (held : 0 < s) (among : s ≤ w)
    (small : w < 2 ^ 28) : Counted lifetime (refs.incStrong lifetime) (s + 1) (w + 1) := by
  have settled := counted.settled (by omega) among
  have present := counted.core.present held (by omega)
  have after := settled.incStrong present (by omega) (by omega)
  exact ⟨after.core, after.core.started (Nat.succ_pos s)⟩

theorem decStrong (counted : Counted lifetime refs (s + 1) (w + 1)) (among : s ≤ w)
    (small : w < 2 ^ 28) : Counted lifetime (refs.decStrong lifetime) s w := by
  have settled := counted.settled (Nat.succ_pos w) (Nat.succ_le_succ among)
  have after := settled.decStrong (by omega) (by omega)
  exact ⟨after.core, (decStrong_taken lifetime refs).trans counted.started⟩

/-- Taking references one after the other. -/
theorem incStrong_iterate (counted : Counted lifetime refs s w) (held : 0 < s) (among : s ≤ w)
    (count : Nat) (small : w + count ≤ 2 ^ 28) :
    Counted lifetime ((RefBase.incStrong lifetime)^[count] refs) (s + count) (w + count) := by
  induction count with
  | zero => exact counted
  | succ count ih =>
      rw [Function.iterate_succ_apply']
      exact (ih (by omega)).incStrong (by omega) (by omega) (by omega)

/-- Dropping them one after the other. -/
theorem decStrong_iterate (count : Nat)
    (counted : Counted lifetime refs (s + count) (w + count)) (among : s ≤ w)
    (small : w + count ≤ 2 ^ 28) :
    Counted lifetime ((RefBase.decStrong lifetime)^[count] refs) s w := by
  induction count generalizing refs with
  | zero => exact counted
  | succ count ih =>
      rw [Function.iterate_succ_apply]
      rw [← Nat.add_assoc, ← Nat.add_assoc] at counted
      exact ih (counted.decStrong (by omega) (by omega)) (by omega)

end Counted

end DroidKernal.Utils
