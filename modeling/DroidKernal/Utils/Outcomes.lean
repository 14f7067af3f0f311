import DroidKernal.Utils.References

/-!
# What operations return with

An operation in progress gives its caller so many references, whatever the other threads do;
only `attemptIncStrong` may give one or none.
-/

namespace DroidKernal.Utils

namespace Pc

/-- The strong references that the operation in progress will return with. -/
def gainsStrong : Pc → Nat
  | incStrongWeak _ | incStrongAdd _ | incStrongSub | incStrongFirstRef => 1
  | _ => 0

/-- The weak references that the operation in progress will return with. -/
def gainsWeak : Pc → Nat
  | creatWeak _ | incWeak => 1
  | _ => 0

/-- The outcome of the operation is known; that of `attemptIncStrong` is not. -/
def settled : Pc → Bool
  | attemptWeak | attemptLoad | attemptLoop _ | attemptPromote _ => false
  | attemptAsk | attemptAdd | attemptLastRef | attemptSub | attemptReturn => false
  | _ => true

end Pc

namespace RefThread

variable {thread : RefThread}

/-- The party will have so many references when its operation returns. -/
structure Expects (thread : RefThread) (strong weak : Nat) : Prop where
  settled : thread.pc.settled = true
  strong : thread.strong + thread.pc.gainsStrong = strong
  weak : thread.weak + thread.pc.gainsWeak = weak

theorem Expects.idle {strong weak : Nat} (expects : thread.Expects strong weak)
    (idle : thread.pc = .idle) : thread = ⟨.idle, strong, weak⟩ := by
  obtain ⟨pc, heldStrong, heldWeak⟩ := thread
  cases idle
  obtain ⟨_, rfl, rfl⟩ := expects
  rfl

/-- A destructor gives nothing. -/
theorem destructed_expects (pc : Pc) (strong weak : Nat) (caller : Deleter) :
    (destructed ⟨pc, strong, weak⟩ caller).Expects strong weak := by
  cases caller <;> exact ⟨rfl, rfl, rfl⟩

/-- An access of an operation keeps what the party expects. -/
theorem Expects.advance {strong weak : Nat} (expects : thread.Expects strong weak)
    (lifetime : Lifetime) (choice : Bool) (refs : RefBase) :
    (Utils.advance lifetime choice refs thread).2.Expects strong weak := by
  obtain ⟨pc, heldStrong, heldWeak⟩ := thread
  obtain ⟨settled, rfl, rfl⟩ := expects
  cases pc <;> simp only [Pc.settled, Bool.false_eq_true] at settled <;>
    simp only [Utils.advance] <;> (repeat' split) <;>
    first
    | exact ⟨rfl, rfl, rfl⟩
    | exact destructed_expects _ _ _ _

/-- It takes no reference. -/
theorem le_advance (lifetime : Lifetime) (choice : Bool) (refs : RefBase) (thread : RefThread) :
    thread.strong ≤ (Utils.advance lifetime choice refs thread).2.strong := by
  obtain ⟨pc, strong, weak⟩ := thread
  cases pc <;> simp only [Utils.advance] <;> (repeat' split) <;>
    first
    | exact Nat.le_refl _
    | exact Nat.le_succ _
    | (unfold destructed; split <;> exact Nat.le_refl _)

/-- The party is promoting a weak reference, or has done so. -/
def Promotes (thread : RefThread) (weak : Nat) : Prop :=
  (thread.pc.settled = false ∧ thread.strong = 0 ∧ thread.weak = weak) ∨
    thread.Expects 0 weak ∨ thread.Expects 1 weak ∧ thread.strong = 1

theorem Promotes.advance {weak : Nat} (promotes : thread.Promotes weak)
    (lifetime : Lifetime) (choice : Bool) (refs : RefBase) :
    (Utils.advance lifetime choice refs thread).2.Promotes weak := by
  rcases promotes with ⟨unsettled, none, rfl⟩ | expects | ⟨expects, one⟩
  · obtain ⟨pc, heldStrong, heldWeak⟩ := thread
    cases none
    cases pc <;> simp only [Pc.settled, Bool.true_eq_false] at unsettled <;>
      simp only [Utils.advance] <;> (repeat' split) <;>
      first
      | exact .inl ⟨rfl, rfl, rfl⟩
      | exact .inr (.inl ⟨rfl, rfl, rfl⟩)
      | exact .inr (.inr ⟨⟨rfl, rfl, rfl⟩, rfl⟩)
  · exact .inr (.inl (expects.advance lifetime choice refs))
  · have after := expects.advance lifetime choice refs
    have least := le_advance lifetime choice refs thread
    have most : (Utils.advance lifetime choice refs thread).2.strong ≤ 1 :=
      Nat.le_of_add_right_le (Nat.le_of_eq after.strong)
    exact .inr (.inr ⟨after, Nat.le_antisymm most (one ▸ least)⟩)

/-- The thread has no reference, and will at most have the one that it promotes. -/
structure Bare (thread : RefThread) : Prop where
  strong : thread.strong = 0
  weak : thread.weak = 0
  gainsStrong : thread.pc.gainsStrong = 0
  gainsWeak : thread.pc.gainsWeak = 0

theorem Bare.idle (bare : thread.Bare) (idle : thread.pc = .idle) : thread = ⟨.idle, 0, 0⟩ := by
  obtain ⟨pc, strong, weak⟩ := thread
  cases idle
  obtain ⟨rfl, rfl, _, _⟩ := bare
  rfl

theorem Bare.notFirst (bare : thread.Bare) : thread.pc.first = false := by
  obtain ⟨pc, _, _⟩ := thread
  obtain ⟨_, _, gainsStrong, gainsWeak⟩ := bare
  cases pc <;>
    first
    | rfl
    | exact absurd gainsStrong Nat.one_ne_zero
    | exact absurd gainsWeak Nat.one_ne_zero

theorem Bare.advance (bare : thread.Bare) (lifetime : Lifetime) (choice : Bool)
    (refs : RefBase) :
    (Utils.advance lifetime choice refs thread).2.Bare ∨
      (Utils.advance lifetime choice refs thread).2 = ⟨.idle, 1, 0⟩ := by
  obtain ⟨pc, strong, weak⟩ := thread
  obtain ⟨rfl, rfl, gainsStrong, gainsWeak⟩ := bare
  cases pc <;> simp only [Pc.gainsStrong, Pc.gainsWeak, reduceCtorEq] at gainsStrong gainsWeak <;>
    simp only [Utils.advance] <;> (repeat' split) <;>
    first
    | exact .inl ⟨rfl, rfl, rfl, rfl⟩
    | exact .inr rfl
    | (unfold destructed; split <;> exact .inl ⟨rfl, rfl, rfl, rfl⟩)

end RefThread

end DroidKernal.Utils
