import DroidKernal.Utils.RefBase

/-!
# What the counters stand for

Each thread counts towards the strong and the weak counter, by the references that it
holds and by where it is in an operation.  `Core` says how the counters and the fate
of the memory follow from these sums; below it, each kind of access to a counter is
shown to keep it.
-/

namespace DroidKernal.Utils

/-! ## What threads contribute -/

/-- The sums over all threads. -/
inductive Tally where
  | strongHeld
  | weakHeld
  | busy
  | strongs
  | weaks
  | pending
  | destroyers
  | reapers
  | firsts
  | firstWeak
  deriving DecidableEq

namespace Pc

/-- Counted in `mStrong`, but not held. -/
def strongs : Pc → Nat
  | incStrongSub | incStrongFirstRef | decStrongSub => 1
  | attemptLastRef | attemptSub | attemptReturn => 1
  | _ => 0

/-- Counted in `mWeak`, but not held. -/
def weaks : Pc → Nat
  | incStrongAdd _ | incStrongSub | incStrongFirstRef => 1
  | decStrongSub | decStrongLastRef | decStrongFlags | decStrongDelete | decWeakSub => 1
  | destructorFlags .decStrong | destructorWeak .decStrong => 1
  | destructorStrong .decStrong | destructorFree .decStrong => 1
  | attemptLoad | attemptLoop _ | attemptPromote _ | attemptAsk => 1
  | attemptAdd | attemptLastRef | attemptSub | attemptReturn => 1
  | _ => 0

/-- About to subtract `INITIAL_STRONG_VALUE`. -/
def pending : Pc → Nat
  | incStrongSub | attemptSub => 1
  | _ => 0

/-- Bound to delete the object. -/
def destroyers (lifetime : Lifetime) : Pc → Nat
  | decStrongLastRef | decStrongFlags => if lifetime = .strong then 1 else 0
  | decStrongDelete => 1
  | decWeakFlags => if lifetime = .weak then 1 else 0
  | decWeakLastRef | decWeakDelete => 1
  | _ => 0

/-- Dropped the last weak reference. -/
def reapers : Pc → Nat
  | decWeakFlags | decWeakStrong | decWeakFree | decWeakLastRef | decWeakDelete => 1
  | destructorFlags .decWeak | destructorWeak .decWeak => 1
  | destructorStrong .decWeak | destructorFree .decWeak => 1
  | _ => 0

/-- Taking the very first reference. -/
def first : Pc → Bool
  | incStrongWeak first | incStrongAdd first | creatWeak first => first
  | _ => false

end Pc

/-- What a thread contributes. -/
def RefThread.count (lifetime : Lifetime) (thread : RefThread) : Tally → Nat
  | .strongHeld => thread.strong
  | .weakHeld => thread.weak
  | .busy => if thread.pc = .idle then 0 else 1
  | .strongs => thread.strong + thread.pc.strongs
  | .weaks => thread.weak + thread.strong + thread.pc.weaks
  | .pending => thread.pc.pending
  | .destroyers => thread.pc.destroyers lifetime
  | .reapers => thread.pc.reapers
  | .firsts => if thread.pc.first then 1 else 0
  | .firstWeak => if thread.pc.first then thread.weak else 0

/-- How the sums bound each other. -/
def limits : AddSubmonoid (Tally → Nat) where
  carrier := { sums |
    sums .firsts ≤ sums .busy ∧ sums .firstWeak ≤ sums .weakHeld ∧
    sums .pending + sums .strongHeld ≤ sums .strongs ∧
    sums .strongs ≤ sums .strongHeld + sums .busy ∧
    sums .weakHeld + sums .strongHeld ≤ sums .weaks ∧
    sums .weaks ≤ sums .weakHeld + sums .strongHeld + sums .busy }
  zero_mem' := by simp
  add_mem' := by
    intro first second inFirst inSecond
    simp only [Set.mem_ofPred_eq, Pi.add_apply] at inFirst inSecond ⊢
    omega

theorem mem_limits {sums : Tally → Nat} : sums ∈ limits ↔
    sums .firsts ≤ sums .busy ∧ sums .firstWeak ≤ sums .weakHeld ∧
      sums .pending + sums .strongHeld ≤ sums .strongs ∧
      sums .strongs ≤ sums .strongHeld + sums .busy ∧
      sums .weakHeld + sums .strongHeld ≤ sums .weaks ∧
      sums .weaks ≤ sums .weakHeld + sums .strongHeld + sums .busy :=
  Iff.rfl

theorem RefThread.count_mem (lifetime : Lifetime) (thread : RefThread) :
    thread.count lifetime ∈ limits := by
  obtain ⟨pc, strong, weak⟩ := thread
  have strongs : pc.pending ≤ pc.strongs ∧ pc.strongs ≤ if pc = .idle then 0 else 1 := by
    cases pc <;> simp [Pc.pending, Pc.strongs]
  have weaks : pc.weaks ≤ if pc = .idle then 0 else 1 := by
    unfold Pc.weaks
    split <;> simp
  have firsts : pc.first = true → pc ≠ .idle := by
    rintro isFirst rfl
    cases isFirst
  rw [mem_limits]
  simp only [RefThread.count]
  refine ⟨?_, ?_, by omega, by omega, by omega, by omega⟩
  · split
    next isFirst => rw [if_neg (firsts isFirst)]
    next => exact Nat.zero_le _
  · split
    next => exact Nat.le_refl _
    next => exact Nat.zero_le _

/-! ## The counters -/

/-- What the counters and the fate of the memory are, by the sums over all threads. -/
structure Core (lifetime : Lifetime) (refs : RefBase)
    (strongs weaks pending destroyers reapers : Nat) : Prop where
  strong : refs.mStrong =
    strongs + initialStrongValue * (pending + if refs.strongTaken then 0 else 1)
  weak : refs.mWeak = weaks
  untaken : refs.strongTaken = false → strongs = 0
  single : pending ≤ 1
  few : pending ≤ strongs
  object : lifetime = .strong →
    refs.destroyed + destroyers = if refs.strongTaken ∧ strongs = 0 then 1 else 0
  extended : lifetime = .weak →
    refs.destroyed + destroyers ≤ 1 ∧ (0 < refs.destroyed + destroyers → weaks = 0)
  impl : refs.freed + reapers ≤ 1 ∧ (0 < refs.freed + reapers → weaks = 0)
  fresh : refs.weakTaken = false → refs.strongTaken = false ∧ weaks = 0 ∧
    refs.destroyed + destroyers = 0 ∧ refs.freed + reapers = 0
  clean : refs.strayObject = false ∧ refs.strayImpl = false

namespace Core

variable {lifetime : Lifetime} {refs : RefBase} {s w p d r : Nat}

theorem init : Core lifetime .init 0 0 0 0 0 where
  strong := rfl
  weak := rfl
  untaken := fun _ => rfl
  single := Nat.zero_le 1
  few := Nat.le_refl 0
  object := fun _ => rfl
  extended := fun _ => ⟨Nat.zero_le 1, fun _ => rfl⟩
  impl := ⟨Nat.zero_le 1, fun _ => rfl⟩
  fresh := fun _ => ⟨rfl, rfl, rfl, rfl⟩
  clean := ⟨rfl, rfl⟩

/-- The `weakref_impl` is not freed while a weak reference is counted. -/
theorem unfreed (core : Core lifetime refs s w p d r) (counted : 0 < w) :
    refs.freed + r = 0 := by
  have none := core.impl.2
  omega

/-- A weak reference keeps the `weakref_impl`. -/
theorem unfreed_held (core : Core lifetime refs s (w + 1) p d r) : refs.freed = 0 :=
  Nat.eq_zero_of_add_eq_zero_right (core.unfreed (Nat.succ_pos w))

theorem destroyed_le (core : Core lifetime refs s w p d r) : refs.destroyed ≤ 1 := by
  cases isLifetime : lifetime with
  | weak => exact Nat.le_of_add_right_le (core.extended isLifetime).1
  | strong =>
      apply Nat.le_of_add_right_le
      rw [core.object isLifetime]
      split <;> decide

/-- Neither is an object of extended lifetime destroyed. -/
theorem undestroyed (core : Core lifetime refs s w p d r) (counted : 0 < w)
    (isWeak : lifetime = .weak) : refs.destroyed + d = 0 := by
  have none := (core.extended isWeak).2
  omega

/-- The object is not destroyed while a strong reference is counted. -/
theorem present (core : Core lifetime refs s w p d r) (held : 0 < s) (counted : 0 < w) :
    refs.destroyed + d = 0 := by
  cases isWeak : lifetime with
  | weak => exact core.undestroyed counted isWeak
  | strong => rw [core.object isWeak, if_neg (by omega)]

/-- Nor while there is something to promote. -/
theorem promotable (core : Core lifetime refs s w p d r) (positive : 0 < refs.mStrong)
    (counted : 0 < w) : refs.destroyed + d = 0 := by
  cases isWeak : lifetime with
  | weak => exact core.undestroyed counted isWeak
  | strong =>
      rw [core.object isWeak, if_neg]
      rintro ⟨taken, nothing⟩
      have few := core.few
      have strong := core.strong
      rw [if_pos taken] at strong
      have noPending : p = 0 := by omega
      simp only [nothing, noPending] at strong
      simp [strong] at positive

theorem taken (core : Core lifetime refs s w p d r) (counted : 0 < w) :
    refs.weakTaken = true := by
  cases isTaken : refs.weakTaken with
  | true => rfl
  | false =>
      have nothing := (core.fresh isTaken).2.1
      omega

theorem started (core : Core lifetime refs s w p d r) (held : 0 < s) :
    refs.strongTaken = true := by
  cases isTaken : refs.strongTaken with
  | true => rfl
  | false =>
      have nothing := core.untaken isTaken
      omega

/-- `mStrong` is `INITIAL_STRONG_VALUE` exactly before the first strong reference. -/
theorem initial_iff (core : Core lifetime refs s w p d r) (small : s < 2 ^ 28) :
    refs.mStrong = initialStrongValue ↔ refs.strongTaken = false := by
  have strong := core.strong
  have few := core.few
  have single := core.single
  cases taken : refs.strongTaken with
  | true =>
      simp only [taken, if_true, initialStrongValue] at strong
      simp only [initialStrongValue, reduceCtorEq, iff_false]
      omega
  | false =>
      have nothing := core.untaken taken
      have noPending : p = 0 := by omega
      simp [taken, nothing, noPending] at strong
      simp [strong]

/-! ### Accesses that change nothing -/

theorem useImpl_eq (unfreed : refs.freed = 0) : refs.useImpl = refs := by
  have same : (refs.strayImpl || refs.freed != 0) = refs.strayImpl := by simp [unfreed]
  rw [RefBase.useImpl, same]

theorem useObject_eq (present : refs.destroyed = 0) : refs.useObject = refs := by
  have same : (refs.strayObject || refs.destroyed != 0) = refs.strayObject := by simp [present]
  rw [RefBase.useObject, same]

theorem useImpl (core : Core lifetime refs s w p d r) (unfreed : refs.freed = 0) :
    Core lifetime refs.useImpl s w p d r := by
  rwa [useImpl_eq unfreed]

theorem useObject (core : Core lifetime refs s w p d r) (present : refs.destroyed = 0) :
    Core lifetime refs.useObject s w p d r := by
  rwa [useObject_eq present]

/-- A virtual function is called through `mBase`. -/
theorem callback (core : Core lifetime refs s w p d r) (present : refs.destroyed = 0)
    (unfreed : refs.freed = 0) : Core lifetime refs.useImpl.useObject s w p d r := by
  rwa [useImpl_eq unfreed, useObject_eq present]

/-! ### Accesses that change a counter -/

theorem addWeak (core : Core lifetime refs s w p d r) (unfreed : refs.freed + r = 0)
    (undestroyed : lifetime = .weak → refs.destroyed + d = 0) (small : w + 1 < 2 ^ 31) :
    Core lifetime refs.addWeak s (w + 1) p d r := by
  have isUnfreed : refs.freed = 0 := by omega
  have weak := core.weak
  rw [RefBase.addWeak, useImpl_eq isUnfreed]
  exact {
    strong := core.strong
    weak := by
      simp only [weak, wrapInt32]
      omega
    untaken := core.untaken
    single := core.single
    few := core.few
    object := core.object
    extended := fun isWeak => ⟨(core.extended isWeak).1, fun some => by
      have none := undestroyed isWeak
      simp only at some
      omega⟩
    impl := ⟨core.impl.1, fun some => by
      simp only at some
      omega⟩
    fresh := nofun
    clean := core.clean }

theorem subWeak (core : Core lifetime refs s (w + 1) p d r) (small : w + 1 < 2 ^ 31) :
    Core lifetime refs.subWeak s w p
      (d + if refs.mWeak = 1 ∧ lifetime = .weak then 1 else 0)
      (r + if refs.mWeak = 1 then 1 else 0) := by
  have unfreed := core.unfreed (Nat.succ_pos w)
  have undestroyed := core.undestroyed (Nat.succ_pos w)
  have isTaken := core.taken (Nat.succ_pos w)
  have isUnfreed : refs.freed = 0 := by omega
  have weak := core.weak
  rw [RefBase.subWeak, useImpl_eq isUnfreed]
  exact {
    strong := core.strong
    weak := by
      simp only [weak, wrapInt32]
      omega
    untaken := core.untaken
    single := core.single
    few := core.few
    object := fun isStrong => by
      have object := core.object isStrong
      simpa [isStrong] using object
    extended := fun isWeak => by
      have none := undestroyed isWeak
      simp only [isWeak, and_true]
      split <;> omega
    impl := by
      simp only
      split <;> omega
    fresh := fun untaken => by simp [isTaken] at untaken
    clean := core.clean }

theorem addStrong (core : Core lifetime refs s w p d r) (counted : 0 < w)
    (present : lifetime = .strong → refs.destroyed + d = 0) (small : s < 2 ^ 28) :
    Core lifetime refs.addStrong (s + 1) w
      (p + if refs.mStrong = initialStrongValue then 1 else 0) d r := by
  have unfreed := core.unfreed counted
  have isUnfreed : refs.freed = 0 := by omega
  have isTaken := core.taken counted
  have strong := core.strong
  have untaken := core.untaken
  have single := core.single
  have few := core.few
  have isFirst := core.initial_iff small
  rw [RefBase.addStrong, useImpl_eq isUnfreed]
  exact {
    strong := by
      simp only [isFirst]
      cases taken : refs.strongTaken with
      | true =>
          simp only [taken, if_true, initialStrongValue] at strong
          simp only [strong, wrapInt32, initialStrongValue, if_true]
          simp
          omega
      | false =>
          have nothing := untaken taken
          simp only [taken, nothing, initialStrongValue] at strong
          have noPending : p = 0 := by omega
          simp [strong, nothing, noPending, wrapInt32, initialStrongValue]
    weak := core.weak
    untaken := nofun
    single := by
      simp only [isFirst]
      split
      next taken =>
        have nothing := untaken taken
        omega
      next => exact single
    few := by split <;> omega
    object := fun isStrong => by
      have none := present isStrong
      simpa using none
    extended := core.extended
    impl := core.impl
    fresh := fun untaken => by simp [isTaken] at untaken
    clean := core.clean }

theorem subStrong (core : Core lifetime refs (s + 1) w p d r) (counted : 0 < w) (rest : p ≤ s)
    (small : s + 1 ≤ 2 ^ 28) :
    Core lifetime (refs.subStrong 1) s w p
      (d + if refs.mStrong = 1 ∧ lifetime = .strong then 1 else 0) r := by
  have unfreed := core.unfreed counted
  have isUnfreed : refs.freed = 0 := by omega
  have isTaken := core.taken counted
  have single := core.single
  have present := core.present (Nat.succ_pos s) counted
  have taken := core.started (Nat.succ_pos s)
  have strong := core.strong
  simp only [taken, if_true, initialStrongValue] at strong
  have isLast : refs.mStrong = 1 ↔ s = 0 := by omega
  rw [RefBase.subStrong, useImpl_eq isUnfreed]
  exact {
    strong := by
      simp only [taken, if_true, strong, wrapInt32, initialStrongValue]
      omega
    weak := core.weak
    untaken := fun untaken => by simp [taken] at untaken
    single := single
    few := rest
    object := fun isStrong => by
      simp only [isStrong, isLast, taken, and_true, true_and]
      omega
    extended := fun isWeak => by
      simpa [isWeak] using core.extended isWeak
    impl := core.impl
    fresh := fun untaken => by simp [isTaken] at untaken
    clean := core.clean }

theorem subInitial (core : Core lifetime refs s w (p + 1) d r) (counted : 0 < w)
    (small : s ≤ 2 ^ 28) :
    Core lifetime (refs.subStrong initialStrongValue) s w p d r := by
  have unfreed := core.unfreed counted
  have isUnfreed : refs.freed = 0 := by omega
  have isTaken := core.taken counted
  have single := core.single
  have few := core.few
  have taken := core.started (by omega)
  have strong := core.strong
  simp only [taken, if_true, initialStrongValue] at strong
  rw [RefBase.subStrong, useImpl_eq isUnfreed]
  exact {
    strong := by
      simp only [taken, if_true, strong, wrapInt32, initialStrongValue]
      omega
    weak := core.weak
    untaken := core.untaken
    single := by omega
    few := by omega
    object := core.object
    extended := core.extended
    impl := core.impl
    fresh := fun untaken => by simp [isTaken] at untaken
    clean := core.clean }

/-! ### Deletes -/

/-- Whoever is bound to delete the object finds it. -/
theorem undestroyed_destroyer (core : Core lifetime refs s w p (d + 1) r) :
    refs.destroyed = 0 := by
  have most : refs.destroyed + (d + 1) ≤ 1 := by
    cases isWeak : lifetime with
    | weak => exact (core.extended isWeak).1
    | strong =>
        rw [core.object isWeak]
        split <;> omega
  omega

/-- Whoever dropped the last weak reference finds the `weakref_impl`. -/
theorem unfreed_reaper (core : Core lifetime refs s w p d (r + 1)) : refs.freed = 0 := by
  have most := core.impl.1
  omega

/-- The thread that dropped the last strong reference finds the object. -/
theorem undestroyed_lastRef (core : Core lifetime refs s (w + 1) p
    (d + if lifetime = .strong then 1 else 0) r) : refs.destroyed = 0 := by
  cases isLifetime : lifetime with
  | strong =>
      rw [if_pos isLifetime] at core
      exact core.undestroyed_destroyer
  | weak =>
      have none := core.undestroyed (Nat.succ_pos w) isLifetime
      omega

/-- Whoever is bound to delete the object does so once. -/
theorem destroy (core : Core lifetime refs s w p (d + 1) r) :
    Core lifetime refs.destroy s w p d r := by
  have present := core.undestroyed_destroyer
  have moved : refs.destroyed + 1 + d = refs.destroyed + (d + 1) := by omega
  rw [RefBase.destroy, useObject_eq present]
  exact {
    strong := core.strong
    weak := core.weak
    untaken := core.untaken
    single := core.single
    few := core.few
    object := fun isStrong => moved.trans (core.object isStrong)
    extended := fun isWeak => by
      simp only [moved]
      exact core.extended isWeak
    impl := core.impl
    fresh := fun untaken => by
      simp only [moved]
      exact core.fresh untaken
    clean := core.clean }

/-- Whoever dropped the last weak reference frees the `weakref_impl` at most once. -/
theorem free (core : Core lifetime refs s w p d (r + 1)) :
    Core lifetime refs.free s w p d r := by
  have unfreed := core.unfreed_reaper
  have moved : refs.freed + 1 + r = refs.freed + (r + 1) := by omega
  rw [RefBase.free, useImpl_eq unfreed]
  exact {
    strong := core.strong
    weak := core.weak
    untaken := core.untaken
    single := core.single
    few := core.few
    object := core.object
    extended := core.extended
    impl := by
      simp only [moved]
      exact core.impl
    fresh := fun untaken => by
      simp only [moved]
      exact core.fresh untaken
    clean := core.clean }

/-- The last weak reference may go without anything being freed. -/
theorem leave (core : Core lifetime refs s w p d (r + 1)) : Core lifetime refs s w p d r where
  strong := core.strong
  weak := core.weak
  untaken := core.untaken
  single := core.single
  few := core.few
  object := core.object
  extended := core.extended
  impl := by
    have impl := core.impl
    omega
  fresh := fun untaken => by
    have fresh := core.fresh untaken
    omega
  clean := core.clean

end Core

end DroidKernal.Utils
