import Mathlib.Algebra.Group.Pi.Basic
import Mathlib.Algebra.Order.Group.Multiset
import Mathlib.Data.Multiset.Basic
import Mathlib.Data.Multiset.UnionInter

/-!
# Ids and their owners

An allocator hands out ids, and each id in use has an owner.  What the owners hold is a
multiset of ids for each of them.  An exact owner holds every id that it owns, another
one may have lost some.
-/

namespace Lib

variable {ο : Type*} [DecidableEq ο]

/-- What one of several holders has, they all have together. -/
theorem mem_sum_of_getElem {all : List (Multiset Nat)} {i id : Nat} {ids : Multiset Nat}
    (isHolder : all[i]? = some ids) (member : id ∈ ids) : id ∈ all.sum := by
  induction all generalizing i with
  | nil => cases isHolder
  | cons first rest ih =>
      rw [List.sum_cons, Multiset.mem_add]
      cases i with
      | zero =>
          cases isHolder
          exact .inl member
      | succ i => exact .inr (ih isHolder)

/-- If no id is held twice, an id has one holder. -/
theorem holder_unique {all : List (Multiset Nat)} (nodup : all.sum.Nodup) {i j id : Nat}
    {ids ids' : Multiset Nat} (isHolder : all[i]? = some ids) (isHolder' : all[j]? = some ids')
    (member : id ∈ ids) (member' : id ∈ ids') : i = j := by
  induction all generalizing i j with
  | nil => cases isHolder
  | cons first rest ih =>
      rw [List.sum_cons, Multiset.nodup_add, Multiset.disjoint_left] at nodup
      obtain ⟨_, restNodup, disjoint⟩ := nodup
      cases i with
      | zero =>
          cases isHolder
          cases j with
          | zero => rfl
          | succ j =>
              rw [List.getElem?_cons_succ] at isHolder'
              exact absurd (mem_sum_of_getElem isHolder' member') (disjoint member)
      | succ i =>
          rw [List.getElem?_cons_succ] at isHolder
          cases j with
          | zero =>
              cases isHolder'
              exact absurd (mem_sum_of_getElem isHolder member) (disjoint member')
          | succ j => rw [ih restNodup isHolder isHolder']

/-- What the owners hold are the ids that they own, each once. -/
structure Accounted (exact : ο → Prop) (owner : Nat → Option ο) (held : ο → Multiset Nat) :
    Prop where
  nodup : ∀ o, (held o).Nodup
  inUse : ∀ o, ∀ id ∈ held o, owner id = some o
  known : ∀ o id, exact o → owner id = some o → id ∈ held o

namespace Accounted

variable {exact : ο → Prop} {owner : Nat → Option ο} {held : ο → Multiset Nat} {o : ο} {id : Nat}

omit [DecidableEq ο] in
theorem init : Accounted exact (fun _ => none) (0 : ο → Multiset Nat) where
  nodup _ := Multiset.nodup_zero
  inUse _ _ member := absurd member (Multiset.notMem_zero _)
  known := nofun

theorem mem_single {other : ο} {element : Nat} :
    element ∈ (Pi.single o {id} : ο → Multiset Nat) other ↔ other = o ∧ element = id := by
  by_cases same : other = o
  · cases same
    simp
  · simp [same]

theorem mem_add_single {other : ο} {element : Nat} :
    element ∈ (held + Pi.single o {id} : ο → Multiset Nat) other ↔
      element ∈ held other ∨ other = o ∧ element = id := by
  rw [Pi.add_apply, Multiset.mem_add, mem_single]

/-- An unused id is taken. -/
theorem take (accounted : Accounted exact owner held) (unused : owner id = none) :
    Accounted exact (Function.update owner id (some o)) (held + Pi.single o {id}) := by
  have notHeld : ∀ other, id ∉ held other := by
    intro other member
    cases unused.symm.trans (accounted.inUse other id member)
  constructor
  · intro other
    by_cases same : other = o
    · cases same
      rw [Pi.add_apply, Pi.single_eq_same, add_comm, Multiset.singleton_add, Multiset.nodup_cons]
      exact ⟨notHeld o, accounted.nodup o⟩
    · simpa [same] using accounted.nodup other
  · intro other element member
    rcases mem_add_single.mp member with old | ⟨rfl, rfl⟩
    · have differ : element ≠ id := fun same => notHeld other (same ▸ old)
      rw [Function.update_of_ne differ]
      exact accounted.inUse other element old
    · exact Function.update_self ..
  · intro other element isExact owned
    apply mem_add_single.mpr
    by_cases same : element = id
    · cases same
      rw [Function.update_self] at owned
      exact .inr ⟨(Option.some.inj owned).symm, rfl⟩
    · rw [Function.update_of_ne same] at owned
      exact .inl (accounted.known other element isExact owned)

/-- An id is held once. -/
theorem held_once (accounted : Accounted exact owner (held + Pi.single o {id})) (other : ο) :
    id ∉ held other := by
  intro member
  have isOwner := accounted.inUse o id (mem_add_single.mpr (.inr ⟨rfl, rfl⟩))
  cases isOwner.symm.trans (accounted.inUse other id (mem_add_single.mpr (.inl member)))
  have nodup := accounted.nodup o
  rw [Pi.add_apply, Pi.single_eq_same, add_comm, Multiset.singleton_add,
    Multiset.nodup_cons] at nodup
  exact nodup.1 member

theorem nodup_left (accounted : Accounted exact owner (held + Pi.single o {id})) (other : ο) :
    (held other).Nodup :=
  Multiset.nodup_of_le (Multiset.le_add_right _ _) (accounted.nodup other)

/-- An id is freed by its owner. -/
theorem free (accounted : Accounted exact owner (held + Pi.single o {id})) :
    Accounted exact (Function.update owner id none) held := by
  constructor
  · exact accounted.nodup_left
  · intro other element member
    have differ : element ≠ id := fun same => accounted.held_once other (same ▸ member)
    rw [Function.update_of_ne differ]
    exact accounted.inUse other element (mem_add_single.mpr (.inl member))
  · intro other element isExact owned
    have differ : element ≠ id := by
      rintro rfl
      rw [Function.update_self] at owned
      cases owned
    rw [Function.update_of_ne differ] at owned
    rcases mem_add_single.mp (accounted.known other element isExact owned) with old | ⟨_, same⟩
    · exact old
    · exact absurd same differ

/-- An id is lost by an owner that is not exact. -/
theorem lose (accounted : Accounted exact owner (held + Pi.single o {id})) (inexact : ¬ exact o) :
    Accounted exact owner held := by
  constructor
  · exact accounted.nodup_left
  · intro other element member
    exact accounted.inUse other element (mem_add_single.mpr (.inl member))
  · intro other element isExact owned
    rcases mem_add_single.mp (accounted.known other element isExact owned) with old | ⟨same, _⟩
    · exact old
    · exact absurd (same ▸ isExact) inexact

end Accounted

end Lib
