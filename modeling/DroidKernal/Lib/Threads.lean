import Mathlib.Algebra.BigOperators.Group.Finset.Basic
import Mathlib.Algebra.BigOperators.Group.Finset.Piecewise
import Mathlib.Algebra.Group.Submonoid.BigOperators

/-!
# Threads over a shared state

Threads take turns at changing a shared state.  What a thread has in hand, or is in
the middle of, counts towards a tally; an invariant relates the shared state to the
tally of all threads.  A step of one thread then needs no more about the others than
the sum of what they contribute.
-/

namespace Lib

/-- A shared state and the local states of its threads. -/
structure Threads (ι σ T : Type*) where
  shared : σ
  threads : ι → T

/-- One more element is counted, if it is to be. -/
theorem countP_add_singleton {T : Type*} {others : Multiset T} {element : T} (p : T → Prop)
    [DecidablePred p] :
    (others + {element}).countP p = others.countP p + if p element then 1 else 0 := by
  rw [Multiset.countP_add, ← Multiset.cons_zero, Multiset.countP_cons, Multiset.countP_zero,
    Nat.zero_add]

namespace Threads

variable {ι σ T M : Type*} [Fintype ι] [DecidableEq ι] [AddCommMonoid M]

/-- What all threads contribute. -/
def tally (count : T → M) (threads : ι → T) : M :=
  ∑ i, count (threads i)

/-- What the threads other than one contribute. -/
def others (count : T → M) (threads : ι → T) (i : ι) : M :=
  ∑ j ∈ Finset.univ.erase i, count (threads j)

variable {count : T → M} {threads : ι → T}

theorem tally_eq (i : ι) : tally count threads = others count threads i + count (threads i) :=
  (Finset.sum_erase_add _ _ (Finset.mem_univ i)).symm

theorem others_update (i : ι) (next : T) :
    others count (Function.update threads i next) i = others count threads i := by
  apply Finset.sum_congr rfl
  intro j isOther
  rw [Function.update_of_ne (Finset.ne_of_mem_erase isOther)]

theorem tally_update (i : ι) (next : T) :
    tally count (Function.update threads i next) = others count threads i + count next := by
  rw [tally_eq i, others_update, Function.update_self]

theorem others_mem {limits : AddSubmonoid M} (within : ∀ thread, count thread ∈ limits) (i : ι) :
    others count threads i ∈ limits :=
  AddSubmonoid.sum_mem limits fun j _ => within (threads j)

theorem others_eq_zero {i : ι} (nothing : ∀ j, j ≠ i → count (threads j) = 0) :
    others count threads i = 0 :=
  Finset.sum_eq_zero fun j isOther => nothing j (Finset.ne_of_mem_erase isOther)

/-- A thread is one of the others of any different thread. -/
theorem others_eq {i j : ι} (differ : j ≠ i) :
    others count threads i =
      ∑ k ∈ (Finset.univ.erase i).erase j, count (threads k) + count (threads j) :=
  (Finset.sum_erase_add _ _ (Finset.mem_erase.mpr ⟨differ, Finset.mem_univ j⟩)).symm

/-- Two threads may exchange what they contribute. -/
theorem tally_exchange {i j : ι} (differ : j ≠ i) {next next' : T}
    (same : count next + count next' = count (threads i) + count (threads j)) :
    tally count (Function.update (Function.update threads i next) j next') =
      tally count threads := by
  have rest : ∑ k ∈ (Finset.univ.erase j).erase i,
      count (Function.update threads i next k) =
        ∑ k ∈ (Finset.univ.erase i).erase j, count (threads k) := by
    rw [Finset.erase_right_comm]
    apply Finset.sum_congr rfl
    intro k isOther
    rw [Function.update_of_ne (Finset.ne_of_mem_erase (Finset.mem_of_mem_erase isOther))]
  rw [tally_update, others_eq differ.symm, rest, Function.update_self, add_assoc, same,
    tally_eq i, others_eq differ, add_assoc, add_comm (count (threads i))]

/-! ## All threads at once -/

/-- The local states of all threads. -/
def places (threads : ι → T) : Multiset T :=
  tally (fun thread => {thread}) threads

omit [DecidableEq ι] in
theorem mem_places {thread : T} : thread ∈ places threads ↔ ∃ i, threads i = thread := by
  simp only [places, tally, Multiset.mem_sum, Finset.mem_univ, true_and, Multiset.mem_singleton,
    eq_comm]

omit [DecidableEq ι] in
theorem countP_places (p : T → Prop) [DecidablePred p] :
    (places threads).countP p = (Finset.univ.filter fun i => p (threads i)).card := by
  have additive := map_sum (Multiset.countPAddMonoidHom p) (fun i => {threads i}) Finset.univ
  rw [Finset.card_filter]
  apply additive.trans
  apply Finset.sum_congr rfl
  intro i _
  rw [Multiset.coe_countPAddMonoidHom, ← Multiset.cons_zero, Multiset.countP_cons,
    Multiset.countP_zero, Nat.zero_add]

/-- The places of the threads other than one. -/
def otherPlaces (threads : ι → T) (i : ι) : Multiset T :=
  others (fun thread => {thread}) threads i

theorem places_eq (i : ι) : places threads = otherPlaces threads i + {threads i} :=
  tally_eq i

theorem places_update (i : ι) (next : T) :
    places (Function.update threads i next) = otherPlaces threads i + {next} :=
  tally_update i next

/-- A fact about each thread, and one that relates the shared state to the tally. -/
structure Balanced (count : T → M) (each : T → Prop) (lawful : σ → M → Prop)
    (system : Threads ι σ T) : Prop where
  each : ∀ i, each (system.threads i)
  lawful : lawful system.shared (tally count system.threads)

variable {each : T → Prop} {lawful : σ → M → Prop} {system : Threads ι σ T}

/-- The rule for a step of one thread, whatever the others contribute. -/
theorem Balanced.move (balanced : system.Balanced count each lawful) {i : ι} {shared : σ}
    {next : T}
    (keeps : lawful system.shared
        (others count system.threads i + count (system.threads i)) →
      each next ∧ lawful shared (others count system.threads i + count next)) :
    Balanced count each lawful
      { shared, threads := Function.update system.threads i next } := by
  have before := balanced.lawful
  rw [tally_eq i] at before
  obtain ⟨isEach, after⟩ := keeps before
  constructor
  · intro j
    by_cases same : j = i
    · cases same
      simpa using isEach
    · simpa [same] using balanced.each j
  · rwa [tally_update]

/-- The rule for an exchange between two threads. -/
theorem Balanced.exchange (balanced : system.Balanced count each lawful) {i j : ι}
    (differ : j ≠ i) {next next' : T} (isEach : each next) (isEach' : each next')
    (same : count next + count next' = count (system.threads i) + count (system.threads j)) :
    Balanced count each lawful
      { system with
        threads := Function.update (Function.update system.threads i next) j next' } := by
  constructor
  · intro k
    by_cases isSecond : k = j
    · cases isSecond
      simpa using isEach'
    · by_cases isFirst : k = i
      · cases isFirst
        simpa [isSecond] using isEach
      · simpa [isFirst, isSecond] using balanced.each k
  · simpa only [tally_exchange differ same] using balanced.lawful

end Threads

end Lib
