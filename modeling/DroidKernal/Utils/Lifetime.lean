import DroidKernal.Utils.References
import Mathlib.Algebra.BigOperators.Pi
import Mathlib.Algebra.Order.BigOperators.Group.Finset
import Mathlib.Algebra.Order.Ring.Int
import Mathlib.Data.Fintype.BigOperators

/-!
# The lifetime law

The object is deleted once, and not while a reference that keeps it is held; the
`weakref_impl` is freed at most once and not used after that.  The law holds as long
as there are not `INITIAL_STRONG_VALUE` strong references.
-/

namespace DroidKernal.Utils

open Lib

variable {lifetime : Lifetime} {refs : RefBase} {thread : RefThread}

/-- What a thread may rely on, by where it is. -/
def RefThread.Entitled (lifetime : Lifetime) (thread : RefThread) : Prop :=
  match thread.pc with
  | .incStrongWeak first | .incStrongAdd first | .creatWeak first =>
      first = false → 0 < thread.strong
  | .incWeak | .attemptWeak => 0 < thread.weak
  | .decStrongDelete | .decWeakStrong | .decWeakFree | .attemptPromote _ => lifetime = .strong
  | .decWeakLastRef | .decWeakDelete | .attemptAsk | .attemptAdd | .attemptLastRef =>
      lifetime = .weak
  | .destructorFlags .decStrong => lifetime = .strong
  | .destructorFlags .decWeak => lifetime = .weak
  | .destructorStrong caller => lifetime = .strong ∧ caller = .decStrong
  | .destructorWeak caller | .destructorFree caller => lifetime = .weak ∧ caller = .decWeak
  | _ => True

/-- While the very first reference is taken, nothing else goes on. -/
def Exclusive (refs : RefBase) (sums : Tally → Nat) : Prop :=
  0 < sums .firsts →
    refs.strongTaken = false ∧ sums .busy = 1 ∧ sums .strongHeld = 0 ∧
      sums .weakHeld = sums .firstWeak ∧ refs.destroyed + sums .destroyers = 0 ∧
      refs.freed + sums .reapers = 0

/-- The invariant that relates the object to the sums over all threads. -/
structure Lawful (lifetime : Lifetime) (refs : RefBase) (sums : Tally → Nat) : Prop where
  core : Core lifetime refs (sums .strongs) (sums .weaks) (sums .pending)
    (sums .destroyers) (sums .reapers)
  exclusive : Exclusive refs sums

/-- The references that are held, with one more for each thread in an operation, are
at most `INITIAL_STRONG_VALUE` strong ones, and all of them fit into `int32_t`. -/
def Few (sums : Tally → Nat) : Prop :=
  sums .strongHeld + sums .busy ≤ 2 ^ 28 ∧
    sums .strongHeld + sums .weakHeld + sums .busy < 2 ^ 31

/-- A step of a thread keeps the invariant, whatever the others contribute. -/
def Keeps (lifetime : Lifetime) (refs : RefBase) (thread : RefThread)
    (next : RefBase × RefThread) : Prop :=
  ∀ rest ∈ limits, Few (rest + thread.count lifetime) →
    Lawful lifetime refs (rest + thread.count lifetime) →
      next.2.Entitled lifetime ∧ Lawful lifetime next.1 (rest + next.2.count lifetime)

/-- The core of the invariant, for a thread among others that contribute the given
sums. -/
abbrev CoreWith (lifetime : Lifetime) (s w p d r : Nat) (refs : RefBase) (thread : RefThread) :
    Prop :=
  Core lifetime refs (s + (thread.strong + thread.pc.strongs))
    (w + (thread.weak + thread.strong + thread.pc.weaks)) (p + thread.pc.pending)
    (d + thread.pc.destroyers lifetime) (r + thread.pc.reapers)

theorem Lawful.firsts_eq_zero {rest : Tally → Nat} (isRest : rest ∈ limits)
    (lawful : Lawful lifetime refs (rest + thread.count lifetime))
    (notFirst : thread.pc.first = false)
    (entitled : thread.pc ≠ .idle ∨ 0 < thread.strong ∨ 0 < thread.weak) :
    rest .firsts = 0 := by
  by_contra some
  have exclusive := lawful.exclusive
  simp only [Exclusive, Pi.add_apply, RefThread.count, notFirst, Bool.false_eq_true, if_false,
    Nat.add_zero] at exclusive
  obtain ⟨_, busy, strongHeld, weakHeld, _⟩ := exclusive (Nat.pos_of_ne_zero some)
  obtain ⟨firsts, firstWeak, _⟩ := isRest
  rcases entitled with isBusy | strong | weak
  · rw [if_neg isBusy] at busy
    omega
  · omega
  · omega

/-- A step of a thread that does not take the very first reference. -/
theorem keeps_of_core {next : RefBase × RefThread} (notFirst : thread.pc.first = false)
    (busy : thread.pc ≠ .idle) (entitled : next.2.Entitled lifetime)
    (notFirst' : next.2.pc.first = false)
    (core : ∀ {s w p d r}, s + thread.strong < 2 ^ 28 →
      w + thread.weak + thread.strong + 1 < 2 ^ 31 → p ≤ s →
      CoreWith lifetime s w p d r refs thread → CoreWith lifetime s w p d r next.1 next.2) :
    Keeps lifetime refs thread next := by
  intro rest isRest few lawful
  have noFirst := lawful.firsts_eq_zero isRest notFirst (.inl busy)
  obtain ⟨fewStrong, fewWeak⟩ := few
  obtain ⟨_, _, pending, strongs, _, weaks⟩ := isRest
  simp only [Pi.add_apply, RefThread.count, if_neg busy] at fewStrong fewWeak
  refine ⟨entitled, core (by omega) (by omega) (by omega) lawful.core, ?_⟩
  intro some
  simp [RefThread.count, noFirst, notFirst'] at some

section Accesses

variable (choice : Bool) (strong weak : Nat)

/-- The very first strong reference is counted twice without interruption. -/
theorem firstStrong_keeps :
    Keeps lifetime refs ⟨.incStrongWeak true, strong, weak⟩
      (advance lifetime choice refs ⟨.incStrongWeak true, strong, weak⟩) := by
  intro rest isRest few lawful
  obtain ⟨untaken, busy, strongHeld, weakHeld, undestroyed, unfreed⟩ :=
    lawful.exclusive (Nat.succ_pos _)
  have fewWeak := few.2
  obtain ⟨_, _, _, _, _, weaks⟩ := isRest
  simp only [Pi.add_apply, RefThread.count] at busy strongHeld weakHeld undestroyed fewWeak
  have present : refs.destroyed = 0 := Nat.eq_zero_of_add_eq_zero_right undestroyed
  have isFirst : RefThread.Entitled lifetime ⟨.incStrongAdd true, strong, weak⟩ :=
    fun isFalse => absurd isFalse.symm Bool.false_ne_true
  refine ⟨isFirst, ?_, fun _ => ⟨untaken, busy, strongHeld, weakHeld, undestroyed, unfreed⟩⟩
  apply (lawful.core.useObject present).addWeak unfreed fun _ => undestroyed
  simp [RefThread.count, Pc.weaks] at busy fewWeak ⊢
  omega

theorem firstStrong_adds :
    Keeps lifetime refs ⟨.incStrongAdd true, strong, weak⟩
      (advance lifetime choice refs ⟨.incStrongAdd true, strong, weak⟩) := by
  intro rest isRest few lawful
  have core := lawful.core
  obtain ⟨untaken, busy, strongHeld, weakHeld, undestroyed, unfreed⟩ :=
    lawful.exclusive (Nat.succ_pos _)
  obtain ⟨firsts, _⟩ := isRest
  have noStrongs := core.untaken untaken
  have isInitial := (core.initial_iff (by omega)).mpr untaken
  have added := core.addStrong (Nat.succ_pos _) (fun _ => undestroyed) (by omega)
  simp only [advance, isInitial, ne_eq, not_true_eq_false, if_false]
  refine ⟨trivial, ?_, ?_⟩
  · rw [if_pos isInitial] at added
    exact added
  · intro some
    simp [RefThread.count, Pc.first, RefThread.goto] at busy some
    omega

theorem incStrong_keeps (held : 0 < strong) :
    Keeps lifetime refs ⟨.incStrongWeak false, strong, weak⟩
      (advance lifetime choice refs ⟨.incStrongWeak false, strong, weak⟩) := by
  refine keeps_of_core rfl nofun (fun _ => held) rfl ?_
  intro s w p d r _ (small : w + weak + strong + 1 < 2 ^ 31) _
    (core : Core lifetime refs (s + strong) (w + (weak + strong)) p d r)
  have present := core.present (by omega) (by omega)
  have unfreed := core.unfreed (by omega)
  have undestroyed : refs.destroyed = 0 := by omega
  exact (core.useObject undestroyed).addWeak unfreed (fun _ => present) (by omega)

theorem incStrong_adds (held : 0 < strong) :
    Keeps lifetime refs ⟨.incStrongAdd false, strong, weak⟩
      (advance lifetime choice refs ⟨.incStrongAdd false, strong, weak⟩) := by
  refine keeps_of_core rfl nofun ?_ ?_ ?_
  · simp only [advance]
    split <;> trivial
  · simp only [advance]
    split <;> rfl
  · intro s w p d r (small : s + strong < 2 ^ 28) _ _
      (core : Core lifetime refs (s + strong) (w + (weak + strong) + 1) p d r)
    have taken := core.started (by omega)
    have notInitial : refs.mStrong ≠ initialStrongValue := by
      rw [ne_eq, core.initial_iff small, taken]
      nofun
    have present := core.present (by omega) (Nat.succ_pos _)
    have added := core.addStrong (Nat.succ_pos _) (fun _ => present) small
    rw [if_neg notInitial] at added
    simp only [advance, if_pos notInitial]
    exact added

theorem incStrongSub_keeps :
    Keeps lifetime refs ⟨.incStrongSub, strong, weak⟩
      (advance lifetime choice refs ⟨.incStrongSub, strong, weak⟩) := by
  refine keeps_of_core rfl nofun trivial rfl ?_
  intro s w p d r small _ _
    (core : Core lifetime refs (s + strong + 1) (w + (weak + strong) + 1) (p + 1) d r)
  exact core.subInitial (Nat.succ_pos _) (Nat.succ_le_of_lt small)

theorem incStrongFirstRef_keeps :
    Keeps lifetime refs ⟨.incStrongFirstRef, strong, weak⟩
      (advance lifetime choice refs ⟨.incStrongFirstRef, strong, weak⟩) := by
  refine keeps_of_core rfl nofun trivial rfl ?_
  intro s w p d r _ _ _
    (core : Core lifetime refs (s + strong + 1) (w + (weak + strong) + 1) p d r)
  have present := core.present (Nat.succ_pos _) (Nat.succ_pos _)
  exact core.callback (Nat.eq_zero_of_add_eq_zero_right present) core.unfreed_held

theorem decStrongSub_keeps :
    Keeps lifetime refs ⟨.decStrongSub, strong, weak⟩
      (advance lifetime choice refs ⟨.decStrongSub, strong, weak⟩) := by
  refine keeps_of_core rfl nofun ?_ ?_ ?_
  · simp only [advance]
    split <;> trivial
  · simp only [advance]
    split <;> rfl
  · intro s w p d r (small : s + strong < 2 ^ 28) _ few
      (core : Core lifetime refs (s + strong + 1) (w + (weak + strong) + 1) p d r)
    have present := core.present (Nat.succ_pos _) (Nat.succ_pos _)
    have undestroyed : refs.destroyed = 0 := by omega
    have subtracted := (core.useObject undestroyed).subStrong (Nat.succ_pos _)
      (Nat.le_add_right_of_le few) small
    rw [Core.useObject_eq undestroyed] at subtracted
    simp only [advance, Core.useObject_eq undestroyed]
    split
    next isLast =>
      simp only [isLast, true_and] at subtracted
      exact subtracted
    next notLast =>
      simp only [notLast, false_and, if_false] at subtracted
      exact subtracted

theorem decStrongLastRef_keeps :
    Keeps lifetime refs ⟨.decStrongLastRef, strong, weak⟩
      (advance lifetime choice refs ⟨.decStrongLastRef, strong, weak⟩) := by
  refine keeps_of_core rfl nofun trivial rfl ?_
  intro s w p d r _ _ _
    (core : Core lifetime refs (s + strong) (w + (weak + strong) + 1) p
      (d + if lifetime = .strong then 1 else 0) r)
  exact core.callback core.undestroyed_lastRef core.unfreed_held

theorem decStrongFlags_keeps :
    Keeps lifetime refs ⟨.decStrongFlags, strong, weak⟩
      (advance lifetime choice refs ⟨.decStrongFlags, strong, weak⟩) := by
  cases isLifetime : lifetime with
  | strong =>
      refine keeps_of_core rfl nofun rfl rfl ?_
      intro s w p d r _ _ _
        (core : Core .strong refs (s + strong) (w + (weak + strong) + 1) p (d + 1) r)
      exact core.useImpl core.unfreed_held
  | weak =>
      refine keeps_of_core rfl nofun trivial rfl ?_
      intro s w p d r _ _ _
        (core : Core .weak refs (s + strong) (w + (weak + strong) + 1) p d r)
      exact core.useImpl core.unfreed_held

theorem decStrongDelete_keeps (isStrong : lifetime = .strong) :
    Keeps lifetime refs ⟨.decStrongDelete, strong, weak⟩
      (advance lifetime choice refs ⟨.decStrongDelete, strong, weak⟩) := by
  refine keeps_of_core rfl nofun isStrong rfl ?_
  intro s w p d r _ _ _
    (core : Core lifetime refs (s + strong) (w + (weak + strong) + 1) p (d + 1) r)
  exact core.destroy

/-- The very first weak reference. -/
theorem firstWeak_keeps :
    Keeps lifetime refs ⟨.creatWeak true, strong, weak⟩
      (advance lifetime choice refs ⟨.creatWeak true, strong, weak⟩) := by
  intro rest isRest few lawful
  obtain ⟨_, busy, _, _, undestroyed, unfreed⟩ := lawful.exclusive (Nat.succ_pos _)
  have fewWeak := few.2
  obtain ⟨firsts, _, _, _, _, weaks⟩ := isRest
  simp [RefThread.count] at busy fewWeak
  have present : refs.destroyed = 0 := Nat.eq_zero_of_add_eq_zero_right undestroyed
  have core : Core lifetime refs (rest .strongs + strong) (rest .weaks + (weak + strong))
    (rest .pending) (rest .destroyers) (rest .reapers) := lawful.core
  have added := (core.useObject present).addWeak unfreed (fun _ => undestroyed) (by omega)
  refine ⟨trivial, ?_, ?_⟩
  · rw [Nat.add_assoc, Nat.add_right_comm weak] at added
    exact added
  · intro some
    simp [advance, RefThread.count, Pc.first, RefThread.gainWeak] at some
    omega

theorem creatWeak_keeps (held : 0 < strong) :
    Keeps lifetime refs ⟨.creatWeak false, strong, weak⟩
      (advance lifetime choice refs ⟨.creatWeak false, strong, weak⟩) := by
  refine keeps_of_core rfl nofun trivial rfl ?_
  intro s w p d r _ (small : w + weak + strong + 1 < 2 ^ 31) _
    (core : Core lifetime refs (s + strong) (w + (weak + strong)) p d r)
  have present := core.present (by omega) (by omega)
  have unfreed := core.unfreed (by omega)
  have undestroyed : refs.destroyed = 0 := by omega
  have added := (core.useObject undestroyed).addWeak unfreed (fun _ => present) (by omega)
  rw [Nat.add_assoc, Nat.add_right_comm weak] at added
  exact added

theorem incWeak_keeps (held : 0 < weak) :
    Keeps lifetime refs ⟨.incWeak, strong, weak⟩
      (advance lifetime choice refs ⟨.incWeak, strong, weak⟩) := by
  refine keeps_of_core rfl nofun trivial rfl ?_
  intro s w p d r _ (small : w + weak + strong + 1 < 2 ^ 31) _
    (core : Core lifetime refs (s + strong) (w + (weak + strong)) p d r)
  have counted : 0 < w + (weak + strong) := by omega
  have added := core.addWeak (core.unfreed counted) (core.undestroyed counted) (by omega)
  rw [Nat.add_assoc, Nat.add_right_comm weak] at added
  exact added

theorem decWeakSub_keeps :
    Keeps lifetime refs ⟨.decWeakSub, strong, weak⟩
      (advance lifetime choice refs ⟨.decWeakSub, strong, weak⟩) := by
  refine keeps_of_core rfl nofun ?_ ?_ ?_
  · simp only [advance]
    split <;> trivial
  · simp only [advance]
    split <;> rfl
  · intro s w p d r _ (small : w + weak + strong + 1 < 2 ^ 31) _
      (core : Core lifetime refs (s + strong) (w + (weak + strong) + 1) p d r)
    have subtracted := core.subWeak (by omega)
    simp only [advance]
    split
    next notLast =>
      simp only [notLast, false_and, if_false] at subtracted
      exact subtracted
    next isLast =>
      simp only [not_not.mp isLast, true_and, if_true] at subtracted
      exact subtracted

theorem decWeakFlags_keeps :
    Keeps lifetime refs ⟨.decWeakFlags, strong, weak⟩
      (advance lifetime choice refs ⟨.decWeakFlags, strong, weak⟩) := by
  cases isLifetime : lifetime with
  | strong =>
      refine keeps_of_core rfl nofun rfl rfl ?_
      intro s w p d r _ _ _
        (core : Core .strong refs (s + strong) (w + (weak + strong)) p d (r + 1))
      exact core.useImpl core.unfreed_reaper
  | weak =>
      refine keeps_of_core rfl nofun rfl rfl ?_
      intro s w p d r _ _ _
        (core : Core .weak refs (s + strong) (w + (weak + strong)) p (d + 1) (r + 1))
      exact core.useImpl core.unfreed_reaper

theorem decWeakStrong_keeps (isStrong : lifetime = .strong) :
    Keeps lifetime refs ⟨.decWeakStrong, strong, weak⟩
      (advance lifetime choice refs ⟨.decWeakStrong, strong, weak⟩) := by
  refine keeps_of_core rfl nofun ?_ ?_ ?_
  · simp only [advance]
    split
    next => trivial
    next => exact isStrong
  · simp only [advance]
    split <;> rfl
  · intro s w p d r _ _ _
      (core : Core lifetime refs (s + strong) (w + (weak + strong)) p d (r + 1))
    have used := core.useImpl core.unfreed_reaper
    simp only [advance]
    split
    next => exact used.leave
    next => exact used

theorem decWeakFree_keeps :
    Keeps lifetime refs ⟨.decWeakFree, strong, weak⟩
      (advance lifetime choice refs ⟨.decWeakFree, strong, weak⟩) := by
  refine keeps_of_core rfl nofun trivial rfl ?_
  intro s w p d r _ _ _
    (core : Core lifetime refs (s + strong) (w + (weak + strong)) p d (r + 1))
  exact core.free

theorem decWeakLastRef_keeps (isWeak : lifetime = .weak) :
    Keeps lifetime refs ⟨.decWeakLastRef, strong, weak⟩
      (advance lifetime choice refs ⟨.decWeakLastRef, strong, weak⟩) := by
  refine keeps_of_core rfl nofun isWeak rfl ?_
  intro s w p d r _ _ _
    (core : Core lifetime refs (s + strong) (w + (weak + strong)) p (d + 1) (r + 1))
  exact core.callback core.undestroyed_destroyer core.unfreed_reaper

theorem decWeakDelete_keeps (isWeak : lifetime = .weak) :
    Keeps lifetime refs ⟨.decWeakDelete, strong, weak⟩
      (advance lifetime choice refs ⟨.decWeakDelete, strong, weak⟩) := by
  refine keeps_of_core rfl nofun isWeak rfl ?_
  intro s w p d r _ _ _
    (core : Core lifetime refs (s + strong) (w + (weak + strong)) p (d + 1) (r + 1))
  exact (core.useImpl core.unfreed_reaper).destroy

theorem destructorFlags_keeps {caller : Deleter}
    (entitled : RefThread.Entitled lifetime ⟨.destructorFlags caller, strong, weak⟩) :
    Keeps lifetime refs ⟨.destructorFlags caller, strong, weak⟩
      (advance lifetime choice refs ⟨.destructorFlags caller, strong, weak⟩) := by
  cases caller with
  | decStrong =>
      cases (entitled : lifetime = .strong)
      refine keeps_of_core rfl nofun ⟨rfl, rfl⟩ rfl ?_
      intro s w p d r _ _ _
        (core : Core .strong refs (s + strong) (w + (weak + strong) + 1) p d r)
      exact core.useImpl core.unfreed_held
  | decWeak =>
      cases (entitled : lifetime = .weak)
      refine keeps_of_core rfl nofun ⟨rfl, rfl⟩ rfl ?_
      intro s w p d r _ _ _
        (core : Core .weak refs (s + strong) (w + (weak + strong)) p d (r + 1))
      exact core.useImpl core.unfreed_reaper

/-- The destructor of an object of extended lifetime finds that `mWeak` is 0. -/
theorem destructorWeak_keeps (isWeak : lifetime = .weak) :
    Keeps lifetime refs ⟨.destructorWeak .decWeak, strong, weak⟩
      (advance lifetime choice refs ⟨.destructorWeak .decWeak, strong, weak⟩) := by
  refine keeps_of_core rfl nofun ?_ ?_ ?_
  · simp only [advance]
    split
    next => exact ⟨isWeak, rfl⟩
    next => trivial
  · simp only [advance]
    split <;> rfl
  · intro s w p d r _ _ _
      (core : Core lifetime refs (s + strong) (w + (weak + strong)) p d (r + 1))
    have unused := core.impl.2 (Nat.succ_pos _)
    have isZero : refs.mWeak = 0 := by rw [core.weak, unused]; rfl
    simp only [advance, if_pos isZero]
    exact core.useImpl core.unfreed_reaper

theorem destructorStrong_keeps :
    Keeps lifetime refs ⟨.destructorStrong .decStrong, strong, weak⟩
      (advance lifetime choice refs ⟨.destructorStrong .decStrong, strong, weak⟩) := by
  refine keeps_of_core rfl nofun trivial rfl ?_
  intro s w p d r _ _ _
    (core : Core lifetime refs (s + strong) (w + (weak + strong) + 1) p d r)
  exact core.useImpl core.unfreed_held

theorem destructorFree_keeps :
    Keeps lifetime refs ⟨.destructorFree .decWeak, strong, weak⟩
      (advance lifetime choice refs ⟨.destructorFree .decWeak, strong, weak⟩) := by
  refine keeps_of_core rfl nofun trivial rfl ?_
  intro s w p d r _ _ _
    (core : Core lifetime refs (s + strong) (w + (weak + strong)) p d (r + 1))
  exact core.free

theorem attemptWeak_keeps (held : 0 < weak) :
    Keeps lifetime refs ⟨.attemptWeak, strong, weak⟩
      (advance lifetime choice refs ⟨.attemptWeak, strong, weak⟩) := by
  refine keeps_of_core rfl nofun trivial rfl ?_
  intro s w p d r _ (small : w + weak + strong + 1 < 2 ^ 31) _
    (core : Core lifetime refs (s + strong) (w + (weak + strong)) p d r)
  have counted : 0 < w + (weak + strong) := by omega
  exact core.addWeak (core.unfreed counted) (core.undestroyed counted) (by omega)

theorem attemptLoad_keeps :
    Keeps lifetime refs ⟨.attemptLoad, strong, weak⟩
      (advance lifetime choice refs ⟨.attemptLoad, strong, weak⟩) := by
  refine keeps_of_core rfl nofun trivial rfl ?_
  intro s w p d r _ _ _
    (core : Core lifetime refs (s + strong) (w + (weak + strong) + 1) p d r)
  exact core.useImpl core.unfreed_held

/-- The first loop: it adds to a strong count that is in use. -/
theorem attemptLoop_keeps (curCount : Int) :
    Keeps lifetime refs ⟨.attemptLoop curCount, strong, weak⟩
      (advance lifetime choice refs ⟨.attemptLoop curCount, strong, weak⟩) := by
  refine keeps_of_core rfl nofun ?_ ?_ ?_
  · simp only [advance]
    split
    next =>
      cases lifetime with
      | weak => rfl
      | strong =>
          simp only
          split
          next => trivial
          next => rfl
    next => split <;> trivial
  · simp only [advance]
    split
    next =>
      cases lifetime with
      | weak => rfl
      | strong =>
          simp only
          split <;> rfl
    next => split <;> rfl
  · intro s w p d r (small : s + strong < 2 ^ 28) _ _
      (core : Core lifetime refs (s + strong) (w + (weak + strong) + 1) p d r)
    have counted := Nat.succ_pos (w + (weak + strong))
    have used := core.useImpl core.unfreed_held
    simp only [advance]
    split
    next =>
      cases lifetime with
      | weak => exact used
      | strong =>
          simp only
          split <;> exact used
    next usable =>
      split
      next succeeds =>
        simp only [unusable, Bool.or_eq_true, decide_eq_true_eq, not_or, not_le] at usable
        have positive : 0 < refs.mStrong := succeeds.1 ▸ usable.1
        have notInitial : refs.mStrong ≠ initialStrongValue := succeeds.1 ▸ usable.2
        have added := core.addStrong counted (fun _ => core.promotable positive counted) small
        rw [if_neg notInitial] at added
        exact added
      next => exact used

/-- The second loop: it may take the very first strong reference. -/
theorem attemptPromote_keeps (curCount : Int) (isStrong : lifetime = .strong) :
    Keeps lifetime refs ⟨.attemptPromote curCount, strong, weak⟩
      (advance lifetime choice refs ⟨.attemptPromote curCount, strong, weak⟩) := by
  refine keeps_of_core rfl nofun ?_ ?_ ?_
  · simp only [advance]
    split
    next => trivial
    next =>
      split
      next =>
        simp only
        split <;> trivial
      next => exact isStrong
  · simp only [advance]
    split
    next => rfl
    next =>
      split
      next =>
        simp only
        split <;> rfl
      next => rfl
  · intro s w p d r (small : s + strong < 2 ^ 28) _ _
      (core : Core lifetime refs (s + strong) (w + (weak + strong) + 1) p d r)
    have counted := Nat.succ_pos (w + (weak + strong))
    simp only [advance]
    split
    next => exact core
    next usable =>
      split
      next succeeds =>
        have positive : 0 < refs.mStrong := succeeds.1 ▸ not_le.mp usable
        have added := core.addStrong counted (fun _ => core.promotable positive counted) small
        simp only [succeeds.1] at added
        simp only
        split
        next isInitial =>
          rw [if_pos isInitial] at added
          exact added
        next notInitial =>
          rw [if_neg notInitial] at added
          exact added
      next => exact core.useImpl core.unfreed_held

theorem attemptAsk_keeps (isWeak : lifetime = .weak) :
    Keeps lifetime refs ⟨.attemptAsk, strong, weak⟩
      (advance lifetime choice refs ⟨.attemptAsk, strong, weak⟩) := by
  refine keeps_of_core rfl nofun ?_ ?_ ?_
  · simp only [advance]
    split
    next => exact isWeak
    next => trivial
  · simp only [advance]
    split <;> rfl
  · intro s w p d r _ _ _
      (core : Core lifetime refs (s + strong) (w + (weak + strong) + 1) p d r)
    have present := core.undestroyed (Nat.succ_pos _) isWeak
    have called := core.callback (Nat.eq_zero_of_add_eq_zero_right present) core.unfreed_held
    simp only [advance]
    split <;> exact called

/-- An object of extended lifetime may be revived. -/
theorem attemptAdd_keeps (isWeak : lifetime = .weak) :
    Keeps lifetime refs ⟨.attemptAdd, strong, weak⟩
      (advance lifetime choice refs ⟨.attemptAdd, strong, weak⟩) := by
  refine keeps_of_core rfl nofun ?_ ?_ ?_
  · simp only [advance]
    split
    next => trivial
    next =>
      split
      next => exact isWeak
      next => trivial
  · simp only [advance]
    split
    next => rfl
    next => split <;> rfl
  · intro s w p d r (small : s + strong < 2 ^ 28) _ _
      (core : Core lifetime refs (s + strong) (w + (weak + strong) + 1) p d r)
    have added := core.addStrong (Nat.succ_pos _) (by simp [isWeak]) small
    simp only [advance]
    split
    next isInitial =>
      rw [if_pos isInitial] at added
      exact added
    next notInitial =>
      rw [if_neg notInitial] at added
      split <;> exact added

theorem attemptLastRef_keeps (isWeak : lifetime = .weak) :
    Keeps lifetime refs ⟨.attemptLastRef, strong, weak⟩
      (advance lifetime choice refs ⟨.attemptLastRef, strong, weak⟩) := by
  refine keeps_of_core rfl nofun trivial rfl ?_
  intro s w p d r _ _ _
    (core : Core lifetime refs (s + strong + 1) (w + (weak + strong) + 1) p d r)
  have present := core.undestroyed (Nat.succ_pos _) isWeak
  exact core.callback (Nat.eq_zero_of_add_eq_zero_right present) core.unfreed_held

theorem attemptSub_keeps :
    Keeps lifetime refs ⟨.attemptSub, strong, weak⟩
      (advance lifetime choice refs ⟨.attemptSub, strong, weak⟩) := by
  refine keeps_of_core rfl nofun trivial rfl ?_
  intro s w p d r small _ _
    (core : Core lifetime refs (s + strong + 1) (w + (weak + strong) + 1) (p + 1) d r)
  exact core.subInitial (Nat.succ_pos _) (Nat.succ_le_of_lt small)

theorem attemptReturn_keeps :
    Keeps lifetime refs ⟨.attemptReturn, strong, weak⟩
      (advance lifetime choice refs ⟨.attemptReturn, strong, weak⟩) := by
  refine keeps_of_core rfl nofun trivial rfl ?_
  intro s w p d r _ _ _
    (core : Core lifetime refs (s + strong + 1) (w + (weak + strong) + 1) p d r)
  exact core

end Accesses

/-- Every access keeps the invariant. -/
theorem advance_keeps (choice : Bool) (busy : thread.pc ≠ .idle)
    (entitled : thread.Entitled lifetime) :
    Keeps lifetime refs thread (advance lifetime choice refs thread) := by
  obtain ⟨pc, strong, weak⟩ := thread
  cases pc with
  | idle => exact absurd rfl busy
  | incStrongWeak first =>
      cases first with
      | true => exact firstStrong_keeps choice strong weak
      | false => exact incStrong_keeps choice strong weak (entitled rfl)
  | incStrongAdd first =>
      cases first with
      | true => exact firstStrong_adds choice strong weak
      | false => exact incStrong_adds choice strong weak (entitled rfl)
  | incStrongSub => exact incStrongSub_keeps choice strong weak
  | incStrongFirstRef => exact incStrongFirstRef_keeps choice strong weak
  | decStrongSub => exact decStrongSub_keeps choice strong weak
  | decStrongLastRef => exact decStrongLastRef_keeps choice strong weak
  | decStrongFlags => exact decStrongFlags_keeps choice strong weak
  | decStrongDelete => exact decStrongDelete_keeps choice strong weak entitled
  | creatWeak first =>
      cases first with
      | true => exact firstWeak_keeps choice strong weak
      | false => exact creatWeak_keeps choice strong weak (entitled rfl)
  | incWeak => exact incWeak_keeps choice strong weak entitled
  | decWeakSub => exact decWeakSub_keeps choice strong weak
  | decWeakFlags => exact decWeakFlags_keeps choice strong weak
  | decWeakStrong => exact decWeakStrong_keeps choice strong weak entitled
  | decWeakFree => exact decWeakFree_keeps choice strong weak
  | decWeakLastRef => exact decWeakLastRef_keeps choice strong weak entitled
  | decWeakDelete => exact decWeakDelete_keeps choice strong weak entitled
  | destructorFlags caller => exact destructorFlags_keeps choice strong weak entitled
  | destructorWeak caller =>
      obtain ⟨isWeak, rfl⟩ := entitled
      exact destructorWeak_keeps choice strong weak isWeak
  | destructorStrong caller =>
      obtain ⟨_, rfl⟩ := entitled
      exact destructorStrong_keeps choice strong weak
  | destructorFree caller =>
      obtain ⟨_, rfl⟩ := entitled
      exact destructorFree_keeps choice strong weak
  | attemptWeak => exact attemptWeak_keeps choice strong weak entitled
  | attemptLoad => exact attemptLoad_keeps choice strong weak
  | attemptLoop curCount => exact attemptLoop_keeps choice strong weak curCount
  | attemptPromote curCount => exact attemptPromote_keeps choice strong weak curCount entitled
  | attemptAsk => exact attemptAsk_keeps choice strong weak entitled
  | attemptAdd => exact attemptAdd_keeps choice strong weak entitled
  | attemptLastRef => exact attemptLastRef_keeps choice strong weak entitled
  | attemptSub => exact attemptSub_keeps choice strong weak
  | attemptReturn => exact attemptReturn_keeps choice strong weak

/-! ## Calls -/

/-- A call starts with what the caller holds. -/
theorem call_keeps {operation : RefOperation} {next : RefThread} {rest : Tally → Nat}
    (isRest : rest ∈ limits) (idle : thread.pc = .idle)
    (called : thread.call operation = some next)
    (lawful : Lawful lifetime refs (rest + thread.count lifetime)) :
    next.Entitled lifetime ∧ Lawful lifetime refs (rest + next.count lifetime) := by
  obtain ⟨pc, strong, weak⟩ := thread
  cases idle
  have holds : 0 < strong ∨ 0 < weak := by
    cases operation <;> simp only [RefThread.call, Option.ite_none_right_eq_some] at called
    all_goals first | exact .inl called.1 | exact .inr called.1
  have noFirst := lawful.firsts_eq_zero isRest rfl (.inr holds)
  have core : Core lifetime refs (rest .strongs + strong) (rest .weaks + (weak + strong))
    (rest .pending) (rest .destroyers) (rest .reapers) := lawful.core
  suffices kept : next.Entitled lifetime ∧ next.pc.first = false ∧
      CoreWith lifetime (rest .strongs) (rest .weaks) (rest .pending) (rest .destroyers)
        (rest .reapers) refs next by
    refine ⟨kept.1, kept.2.2, ?_⟩
    intro some
    simp [RefThread.count, noFirst, kept.2.1] at some
  cases operation with
  | incStrong =>
      simp only [RefThread.call, Option.ite_none_right_eq_some] at called
      cases called.2
      exact ⟨fun _ => called.1, rfl, core⟩
  | decStrong =>
      simp only [RefThread.call, Option.ite_none_right_eq_some] at called
      cases called.2
      obtain ⟨held, rfl⟩ := Nat.exists_eq_succ_of_ne_zero (Nat.ne_of_gt called.1)
      exact ⟨trivial, rfl, core⟩
  | creatWeak =>
      simp only [RefThread.call, Option.ite_none_right_eq_some] at called
      cases called.2
      exact ⟨fun _ => called.1, rfl, core⟩
  | incWeak =>
      simp only [RefThread.call, Option.ite_none_right_eq_some] at called
      cases called.2
      exact ⟨called.1, rfl, core⟩
  | decWeak =>
      simp only [RefThread.call, Option.ite_none_right_eq_some] at called
      cases called.2
      obtain ⟨held, rfl⟩ := Nat.exists_eq_succ_of_ne_zero (Nat.ne_of_gt called.1)
      rw [Nat.succ_eq_add_one, Nat.add_right_comm] at core
      exact ⟨trivial, rfl, core⟩
  | attemptIncStrong =>
      simp only [RefThread.call, Option.ite_none_right_eq_some] at called
      cases called.2
      exact ⟨called.1, rfl, core⟩

/-- Without other threads, the first reference is taken exclusively. -/
theorem first_keeps {creator : RefThread} {pc : Pc} (idle : creator.pc = .idle)
    (lawful : Lawful lifetime refs (0 + creator.count lifetime))
    (untaken : refs.strongTaken = false)
    (reachable : refs.weakTaken = true → 0 < creator.weak)
    (isFirst : pc = .incStrongWeak true ∨ pc = .creatWeak true) :
    (creator.goto pc).Entitled lifetime ∧
      Lawful lifetime refs (0 + (creator.goto pc).count lifetime) := by
  obtain ⟨_, strong, weak⟩ := creator
  cases idle
  have core : Core lifetime refs (0 + strong) (0 + (weak + strong)) 0 0 0 := lawful.core
  have noStrong := core.untaken untaken
  have alive : refs.destroyed + 0 = 0 ∧ refs.freed + 0 = 0 := by
    cases weakTaken : refs.weakTaken with
    | false => exact (core.fresh weakTaken).2.2
    | true =>
        have held : 0 < weak := reachable weakTaken
        have counted : 0 < 0 + (weak + strong) := by omega
        refine ⟨?_, core.unfreed counted⟩
        cases isLifetime : lifetime with
        | weak => exact core.undestroyed counted isLifetime
        | strong => rw [core.object isLifetime, if_neg (by simp [untaken])]
  have exclusive : 0 < 1 → refs.strongTaken = false ∧ 1 = 1 ∧ strong = 0 ∧
      weak = weak ∧ refs.destroyed + 0 = 0 ∧ refs.freed + 0 = 0 :=
    fun _ => ⟨untaken, rfl, Nat.eq_zero_of_add_eq_zero_left noStrong, rfl, alive⟩
  rcases isFirst with rfl | rfl
  · refine ⟨nofun, core, ?_⟩
    simpa [Exclusive, RefThread.count, RefThread.goto, Pc.first, Pc.destroyers,
      Pc.reapers] using exclusive
  · refine ⟨nofun, core, ?_⟩
    simpa [Exclusive, RefThread.count, RefThread.goto, Pc.first, Pc.destroyers,
      Pc.reapers] using exclusive

/-! ## Runs -/

section Runs

variable {ι : Type*} [Fintype ι] {creator : ι} {state next : RefState ι}

/-- At most `INITIAL_STRONG_VALUE` strong references are held, and all references fit
into `int32_t`, also if each operation in progress adds one. -/
def RefState.Bounded (state : RefState ι) : Prop :=
  state.strongHeld + state.busy ≤ 2 ^ 28 ∧
    state.strongHeld + state.weakHeld + state.busy < 2 ^ 31

/-- The invariant. -/
abbrev Accounted (lifetime : Lifetime) (state : RefState ι) : Prop :=
  Threads.Balanced (RefThread.count lifetime) (RefThread.Entitled lifetime) (Lawful lifetime) state

theorem tally_apply (state : RefState ι) (sum : Tally) :
    Threads.tally (RefThread.count lifetime) state.threads sum =
      ∑ i, (state.threads i).count lifetime sum :=
  Finset.sum_apply sum _ _

theorem RefState.Bounded.few (bounded : state.Bounded) :
    Few (Threads.tally (RefThread.count lifetime) state.threads) := by
  rw [Few, tally_apply, tally_apply, tally_apply]
  exact bounded

theorem count_init : RefThread.init.count lifetime = 0 := by
  funext sum
  cases sum <;> rfl

theorem accounted_init : Accounted lifetime (RefState.init : RefState ι) where
  each := fun _ => trivial
  lawful := by
    have nothing : Threads.tally (RefThread.count lifetime) (RefState.init : RefState ι).threads =
        0 :=
      Finset.sum_eq_zero fun _ _ => count_init
    rw [nothing]
    exact ⟨Core.init, fun some => absurd some (Nat.lt_irrefl 0)⟩

variable [DecidableEq ι]

/-- A step from a state within the bounds. -/
def BoundedStep (lifetime : Lifetime) (creator : ι) (state : RefState ι) (event : RefEvent ι)
    (next : RefState ι) : Prop :=
  RefStep lifetime creator state event next ∧ state.Bounded

/-- The others contribute nothing where the creator is alone. -/
theorem RefState.Alone.others (alone : state.Alone creator) :
    Threads.others (RefThread.count lifetime) state.threads creator = 0 := by
  apply Threads.others_eq_zero
  intro j isOther
  rw [alone.2 j isOther, count_init]

/-- Every step from a state within the bounds keeps the invariant. -/
theorem Accounted.step (accounted : Accounted lifetime state) {event : RefEvent ι}
    (step : BoundedStep lifetime creator state event next) : Accounted lifetime next := by
  obtain ⟨step, bounded⟩ := step
  have others (i : ι) :
      Threads.others (RefThread.count lifetime) state.threads i ∈ limits :=
    Threads.others_mem (RefThread.count_mem lifetime) i
  cases step with
  | call idle called =>
      exact accounted.move fun lawful => call_keeps (others _) idle called lawful
  | firstStrong alone untaken reachable =>
      apply accounted.move
      rw [alone.others]
      intro lawful
      exact first_keeps alone.1 lawful untaken reachable (.inl rfl)
  | firstWeak alone untaken =>
      apply accounted.move
      rw [alone.others]
      intro lawful
      have reachable : state.shared.weakTaken = true → 0 < (state.threads creator).weak := by
        rw [untaken]
        nofun
      exact first_keeps alone.1 lawful (lawful.core.fresh untaken).1 reachable (.inr rfl)
  | advance i choice busy =>
      apply accounted.move
      intro lawful
      have few : Few (Threads.others (RefThread.count lifetime) state.threads i +
          (state.threads i).count lifetime) := by
        rw [← Threads.tally_eq]
        exact bounded.few
      exact advance_keeps choice busy (accounted.each i) _ (others i) few lawful
  | give differ idle idle' hasStrong hasWeak =>
      refine accounted.exchange differ trivial trivial ?_
      funext sum
      simp only [Pi.add_apply]
      cases sum <;> simp [RefThread.count, idle, idle', Pc.strongs, Pc.weaks, Pc.first] <;> omega

/-- In every run within the bounds, in every state that it reaches: the object is
destroyed at most once, and not while a strong reference is held or about to be
returned by `attemptIncStrong`, nor, with an extended lifetime, while any reference is
held; the `weakref_impl` is freed at most once and not used after that, and neither is
the object; and when no operation is in progress, the counters are the numbers of
references. -/
theorem refBase_lifetime {events : List (RefEvent ι)}
    (run : Run (BoundedStep lifetime creator) .init events state) :
    state.shared.destroyed ≤ 1 ∧
      (∀ i, 0 < (state.threads i).strong ∨ (state.threads i).pc = .attemptReturn →
        state.shared.destroyed = 0) ∧
      (lifetime = .weak → ∀ i, 0 < (state.threads i).strong + (state.threads i).weak →
        state.shared.destroyed = 0) ∧
      state.shared.strayObject = false ∧
      state.shared.freed ≤ 1 ∧ state.shared.strayImpl = false ∧
      (state.Quiescent →
        state.shared.mStrong = state.strongHeld +
            (if state.shared.strongTaken then 0 else initialStrongValue) ∧
          state.shared.mWeak = state.weakHeld + state.strongHeld) := by
  have accounted : Accounted lifetime state :=
    run.invariant (Accounted lifetime) accounted_init fun accounted step => accounted.step step
  have core := accounted.lawful.core
  have counts (i : ι) (sum : Tally) :
      (state.threads i).count lifetime sum ≤
        Threads.tally (RefThread.count lifetime) state.threads sum := by
    rw [Threads.tally_eq i]
    exact Nat.le_add_left _ _
  refine ⟨core.destroyed_le, ?_, ?_, core.clean.1, Nat.le_of_add_right_le core.impl.1,
    core.clean.2, ?_⟩
  · intro i held
    have strongs : 0 < (state.threads i).count lifetime .strongs := by
      rcases held with holds | returns
      · exact Nat.add_pos_left holds _
      · simp [RefThread.count, returns, Pc.strongs]
    have weaks : 0 < (state.threads i).count lifetime .weaks := by
      rcases held with holds | returns
      · exact Nat.add_pos_left (Nat.add_pos_right _ holds) _
      · simp [RefThread.count, returns, Pc.weaks]
    have present := core.present (Nat.lt_of_lt_of_le strongs (counts i .strongs))
      (Nat.lt_of_lt_of_le weaks (counts i .weaks))
    exact Nat.eq_zero_of_add_eq_zero_right present
  · intro isWeak i held
    have weaks : 0 < (state.threads i).count lifetime .weaks := by
      rw [Nat.add_comm] at held
      exact Nat.add_pos_left held _
    have present := core.undestroyed (Nat.lt_of_lt_of_le weaks (counts i .weaks)) isWeak
    exact Nat.eq_zero_of_add_eq_zero_right present
  · intro quiescent
    have strongs : Threads.tally (RefThread.count lifetime) state.threads .strongs =
        state.strongHeld := by
      rw [tally_apply]
      apply Finset.sum_congr rfl
      intro i _
      simp [RefThread.count, quiescent i, Pc.strongs]
    have weaks : Threads.tally (RefThread.count lifetime) state.threads .weaks =
        state.weakHeld + state.strongHeld := by
      rw [tally_apply, RefState.weakHeld, RefState.strongHeld, ← Finset.sum_add_distrib]
      apply Finset.sum_congr rfl
      intro i _
      simp [RefThread.count, quiescent i, Pc.weaks]
    have pending : Threads.tally (RefThread.count lifetime) state.threads .pending = 0 := by
      rw [tally_apply]
      apply Finset.sum_eq_zero
      intro i _
      simp [RefThread.count, quiescent i, Pc.pending]
    constructor
    · rw [core.strong, strongs, pending]
      split <;> simp
    · rw [core.weak, weaks, Int.natCast_add]

end Runs

/-! ## One thread -/

/-- A system of one thread. -/
def solo (refs : RefBase) (thread : RefThread) : RefState Unit where
  shared := refs
  threads := fun _ => thread

/-- The counters of an object that was referenced. -/
def counted (strong : Int) (weak : Int) : RefBase :=
  { RefBase.init with mStrong := strong, mWeak := weak, strongTaken := true, weakTaken := true }

section Solo

variable {next : RefThread}

theorem update_solo (refs refs' : RefBase) (thread next : RefThread) :
    { shared := refs', threads := Function.update (solo refs thread).threads () next } =
      solo refs' next := by
  have same : Function.update (solo refs thread).threads () next = fun _ => next := by
    funext i
    cases i
    simp
  rw [same, solo]

theorem solo_call {operation : RefOperation} (idle : thread.pc = .idle)
    (called : thread.call operation = some next) :
    RefStep lifetime () (solo refs thread) (.call () operation) (solo refs next) := by
  rw [← update_solo refs refs thread next]
  exact .call idle called

theorem solo_advance {choice : Bool} (busy : thread.pc ≠ .idle) {refs' : RefBase}
    (advanced : advance lifetime choice refs thread = (refs', next)) :
    RefStep lifetime () (solo refs thread) (.advance () choice) (solo refs' next) := by
  have step : RefStep lifetime () (solo refs thread) (.advance () choice) _ :=
    .advance () choice busy
  rw [update_solo] at step
  simp only [solo, advanced] at step ⊢
  exact step

theorem solo_first :
    RefStep lifetime () (solo .init .init) .firstStrong
      (solo .init (RefThread.init.goto (.incStrongWeak true))) := by
  rw [← update_solo RefBase.init RefBase.init RefThread.init]
  exact .firstStrong ⟨rfl, fun _ _ => rfl⟩ rfl nofun

end Solo

/-- A system of two threads. -/
def duo (refs : RefBase) (first second : RefThread) : RefState Bool where
  shared := refs
  threads i := bif i then second else first

section Duo

variable {first second next : RefThread} {i : Bool}

theorem update_duo (refs : RefBase) (first second next : RefThread) (i : Bool) :
    Function.update (duo refs first second).threads i next =
      (duo refs (bif i then first else next) (bif i then next else second)).threads := by
  funext j
  cases i <;> cases j <;> rfl

theorem duo_call {operation : RefOperation}
    (idle : (bif i then second else first).pc = .idle)
    (called : (bif i then second else first).call operation = some next) :
    RefStep lifetime creator (duo refs first second) (.call i operation)
      (duo refs (bif i then first else next) (bif i then next else second)) := by
  have step : RefStep lifetime creator (duo refs first second) (.call i operation) _ :=
    .call idle called
  rw [update_duo] at step
  exact step

theorem duo_advance (busy : (bif i then second else first).pc ≠ .idle) {refs' : RefBase}
    (advanced : advance lifetime true refs (bif i then second else first) = (refs', next)) :
    RefStep lifetime creator (duo refs first second) (.advance i true)
      (duo refs' (bif i then first else next) (bif i then next else second)) := by
  have step : RefStep lifetime creator (duo refs first second) (.advance i true) _ :=
    .advance i true busy
  rw [update_duo] at step
  simp only [duo, advanced] at step ⊢
  exact step

theorem duo_first :
    RefStep lifetime false (duo .init .init .init) .firstStrong
      (duo .init (RefThread.init.goto (.incStrongWeak true)) .init) := by
  have step : RefStep lifetime false (duo .init .init .init) .firstStrong _ :=
    .firstStrong ⟨rfl, fun i _ => by cases i <;> rfl⟩ rfl (absurd · Bool.false_ne_true)
  rw [update_duo] at step
  exact step

theorem duo_give (idle : first.pc = .idle) (idle' : second.pc = .idle)
    (hasStrong : 1 ≤ first.strong) :
    RefStep lifetime creator (duo refs first second) (.give false true 1 0)
      (duo refs ⟨.idle, first.strong - 1, first.weak⟩
        ⟨.idle, second.strong + 1, second.weak⟩) := by
  have step : RefStep lifetime creator (duo refs first second) (.give false true 1 0) _ :=
    .give Bool.noConfusion idle idle' hasStrong (Nat.zero_le _)
  rw [update_duo, update_duo] at step
  exact step

theorem duo_bounded (few : first.strong + first.weak + second.strong + second.weak ≤ 8) :
    (duo refs first second).Bounded := by
  have isBusy : (duo refs first second).busy ≤ 2 := by
    refine Finset.sum_le_card_nsmul _ _ 1 fun i _ => ?_
    split <;> decide
  simp only [RefState.Bounded, RefState.strongHeld, RefState.weakHeld, duo, Fintype.sum_bool,
    cond_true, cond_false] at isBusy ⊢
  omega

end Duo

/-- One thread takes two references and hands one to another thread.  Both drop theirs at the
same time: the last of them destroys the object and frees its counters. -/
theorem refBase_lifetime_two :
    ∃ events state, Run (BoundedStep .strong false) (RefState.init : RefState Bool) events state ∧
      state.shared.destroyed = 1 ∧ state.shared.freed = 1 ∧
      state.shared.strayObject = false ∧ state.shared.strayImpl = false := by
  have isInit : (RefState.init : RefState Bool) = duo .init .init .init := by
    rw [RefState.init, duo]
    congr 1
    funext i
    cases i <;> rfl
  have take : Run (BoundedStep .strong false) (duo .init .init .init)
      [.firstStrong, .advance false true, .advance false true, .advance false true,
        .advance false true]
      (duo (counted 1 1) ⟨.idle, 1, 0⟩ ⟨.idle, 0, 0⟩) :=
    .cons ⟨duo_first, duo_bounded (by decide)⟩ <|
    .cons ⟨duo_advance (by decide) rfl, duo_bounded (by decide)⟩ <|
    .cons ⟨duo_advance (by decide) rfl, duo_bounded (by decide)⟩ <|
    .cons ⟨duo_advance (by decide) rfl, duo_bounded (by decide)⟩ <|
    .single ⟨duo_advance (by decide) rfl, duo_bounded (by decide)⟩
  have give : Run (BoundedStep .strong false) (duo (counted 1 1) ⟨.idle, 1, 0⟩ ⟨.idle, 0, 0⟩)
      [.call false .incStrong, .advance false true, .advance false true, .give false true 1 0]
      (duo (counted 2 2) ⟨.idle, 1, 0⟩ ⟨.idle, 1, 0⟩) :=
    .cons ⟨duo_call rfl rfl, duo_bounded (by decide)⟩ <|
    .cons ⟨duo_advance (by decide) rfl, duo_bounded (by decide)⟩ <|
    .cons ⟨duo_advance (by decide) rfl, duo_bounded (by decide)⟩ <|
    .single ⟨duo_give rfl rfl (by decide), duo_bounded (by decide)⟩
  have drop : Run (BoundedStep .strong false) (duo (counted 2 2) ⟨.idle, 1, 0⟩ ⟨.idle, 1, 0⟩)
      [.call false .decStrong, .call true .decStrong, .advance false true, .advance true true,
        .advance false true, .advance true true, .advance true true, .advance true true]
      (duo { counted 0 1 with destroyed := 1 } ⟨.idle, 0, 0⟩
        ⟨.destructorFlags .decStrong, 0, 0⟩) :=
    .cons ⟨duo_call rfl rfl, duo_bounded (by decide)⟩ <|
    .cons ⟨duo_call rfl rfl, duo_bounded (by decide)⟩ <|
    .cons ⟨duo_advance (by decide) rfl, duo_bounded (by decide)⟩ <|
    .cons ⟨duo_advance (by decide) rfl, duo_bounded (by decide)⟩ <|
    .cons ⟨duo_advance (by decide) rfl, duo_bounded (by decide)⟩ <|
    .cons ⟨duo_advance (by decide) rfl, duo_bounded (by decide)⟩ <|
    .cons ⟨duo_advance (by decide) rfl, duo_bounded (by decide)⟩ <|
    .single ⟨duo_advance (by decide) rfl, duo_bounded (by decide)⟩
  have free : Run (BoundedStep .strong false)
      (duo { counted 0 1 with destroyed := 1 } ⟨.idle, 0, 0⟩ ⟨.destructorFlags .decStrong, 0, 0⟩)
      [.advance true true, .advance true true, .advance true true, .advance true true,
        .advance true true, .advance true true]
      (duo { counted 0 0 with destroyed := 1, freed := 1 } ⟨.idle, 0, 0⟩ ⟨.idle, 0, 0⟩) :=
    .cons ⟨duo_advance (by decide) rfl, duo_bounded (by decide)⟩ <|
    .cons ⟨duo_advance (by decide) rfl, duo_bounded (by decide)⟩ <|
    .cons ⟨duo_advance (by decide) rfl, duo_bounded (by decide)⟩ <|
    .cons ⟨duo_advance (by decide) rfl, duo_bounded (by decide)⟩ <|
    .cons ⟨duo_advance (by decide) rfl, duo_bounded (by decide)⟩ <|
    .single ⟨duo_advance (by decide) rfl, duo_bounded (by decide)⟩
  have run := ((take.append give).append drop).append free
  rw [← isInit] at run
  obtain ⟨_, _, _, unused, _, unused', _⟩ := refBase_lifetime run
  exact ⟨_, _, run, rfl, rfl, unused, unused'⟩

theorem wrapInt32_eq {value : Int} (low : -2 ^ 31 ≤ value) (high : value < 2 ^ 31) :
    wrapInt32 value = value := by
  simp only [wrapInt32]
  omega

/-- One thread takes any number of strong references up to `INITIAL_STRONG_VALUE`. -/
theorem take_strongs (n : Nat) (few : n < 2 ^ 28) :
    ∃ events, Run (RefStep lifetime ()) RefState.init events
      (solo (counted (n + 1) (n + 1)) ⟨.idle, n + 1, 0⟩) := by
  induction n with
  | zero =>
      have taken : Run (RefStep lifetime ()) (solo .init (RefThread.init.goto (.incStrongWeak true)))
          [.advance () true, .advance () true, .advance () true, .advance () true]
          (solo (counted 1 1) ⟨.idle, 1, 0⟩) :=
        .cons (solo_advance (by decide) rfl) <| .cons (solo_advance (by decide) rfl) <|
          .cons (solo_advance (by decide) rfl) <| .single (solo_advance (by decide) rfl)
      exact ⟨_, .cons solo_first taken⟩
  | succ n ih =>
      obtain ⟨events, run⟩ := ih (Nat.lt_of_succ_lt few)
      have called : RefStep lifetime () (solo (counted (n + 1) (n + 1)) ⟨.idle, n + 1, 0⟩)
          (.call () .incStrong)
          (solo (counted (n + 1) (n + 1)) ⟨.incStrongWeak false, n + 1, 0⟩) :=
        solo_call rfl rfl
      have weak : wrapInt32 ((n : Int) + 1 + 1) = n + 1 + 1 := wrapInt32_eq (by omega) (by omega)
      have counts : RefStep lifetime ()
          (solo (counted (n + 1) (n + 1)) ⟨.incStrongWeak false, n + 1, 0⟩) (.advance () true)
          (solo (counted (n + 1) (n + 1 + 1)) ⟨.incStrongAdd false, n + 1, 0⟩) := by
        apply solo_advance (by simp)
        simp [advance, counted, RefBase.addWeak, RefBase.useObject, RefBase.useImpl, RefBase.init,
          RefThread.goto, weak]
      have returns : RefStep lifetime ()
          (solo (counted (n + 1) (n + 1 + 1)) ⟨.incStrongAdd false, n + 1, 0⟩) (.advance () true)
          (solo (counted (n + 1 + 1) (n + 1 + 1)) ⟨.idle, n + 1 + 1, 0⟩) := by
        apply solo_advance (by simp)
        have notInitial : (n : Int) + 1 ≠ initialStrongValue := by
          simp only [initialStrongValue]
          omega
        simp [advance, counted, RefBase.addStrong, RefBase.useImpl, RefBase.init,
          RefThread.gainStrong, weak, notInitial]
      exact ⟨_, ((run.snoc called).snoc counts).snoc returns⟩

/-- The reference after `INITIAL_STRONG_VALUE` of them is taken for the first one: the
count starts again at 1, and the next that is dropped destroys the object. -/
theorem refBase_overflow :
    ∃ events state, Run (RefStep .strong ()) (RefState.init : RefState Unit) events state ∧
      state.shared.destroyed = 1 ∧ (state.threads ()).strong = 2 ^ 28 := by
  have taken : ∃ events, Run (RefStep .strong ()) (RefState.init : RefState Unit) events
      (solo (counted (2 ^ 28) (2 ^ 28)) ⟨.idle, 2 ^ 28, 0⟩) :=
    take_strongs (2 ^ 28 - 1) (by decide)
  obtain ⟨events, run⟩ := taken
  have again : Run (RefStep .strong ()) (solo (counted (2 ^ 28) (2 ^ 28)) ⟨.idle, 2 ^ 28, 0⟩)
      [.call () .incStrong, .advance () true, .advance () true, .advance () true,
        .advance () true]
      (solo (counted 1 (2 ^ 28 + 1)) ⟨.idle, 2 ^ 28 + 1, 0⟩) :=
    .cons (solo_call rfl rfl) <| .cons (solo_advance (by decide) rfl) <|
      .cons (solo_advance (by decide) rfl) <| .cons (solo_advance (by decide) rfl) <|
        .single (solo_advance (by decide) rfl)
  have dropped : Run (RefStep .strong ()) (solo (counted 1 (2 ^ 28 + 1)) ⟨.idle, 2 ^ 28 + 1, 0⟩)
      [.call () .decStrong, .advance () true, .advance () true, .advance () true,
        .advance () true]
      (solo { counted 0 (2 ^ 28 + 1) with destroyed := 1 }
        ⟨.destructorFlags .decStrong, 2 ^ 28, 0⟩) :=
    .cons (solo_call rfl rfl) <| .cons (solo_advance (by decide) rfl) <|
      .cons (solo_advance (by decide) rfl) <| .cons (solo_advance (by decide) rfl) <|
        .single (solo_advance (by decide) rfl)
  exact ⟨_, _, (run.append again).append dropped, rfl, rfl⟩

end DroidKernal.Utils
