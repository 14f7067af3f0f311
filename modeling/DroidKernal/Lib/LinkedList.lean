import Mathlib.Data.List.Nodup
import Mathlib.Logic.Function.Basic

/-!
# Circular doubly linked lists

A list is threaded through the nodes themselves, as `next` and `prev` pointers, and closed
by a head that is no entry.  A node that was never linked, or no longer is, still has
pointers, so that an operation on the wrong node is representable.
-/

namespace Lib

/-- The pointers of all nodes. -/
structure Links (α : Type*) where
  next : α → α
  prev : α → α

namespace Links

variable {α : Type*}

/-- From one node, the entries lead to another, and back. -/
def Path (links : Links α) : α → List α → α → Prop
  | first, [], last => links.next first = last ∧ links.prev last = first
  | first, entry :: entries, last =>
      (links.next first = entry ∧ links.prev entry = first) ∧ links.Path entry entries last

/-- The list at a head. -/
structure Holds (links : Links α) (head : α) (entries : List α) : Prop where
  closed : links.Path head entries head
  distinct : (head :: entries).Nodup

variable {links : Links α} {first last head node before after : α} {entries rest : List α}

namespace Path

theorem append_iff : links.Path first (entries ++ node :: rest) last ↔
    links.Path first entries node ∧ links.Path node rest last := by
  induction entries generalizing first with
  | nil => exact Iff.rfl
  | cons entry entries ih => simp only [List.cons_append, Path, ih, and_assoc]

theorem prev_mem (path : links.Path first entries last) : links.prev last ∈ first :: entries := by
  induction entries generalizing first with
  | nil => exact List.mem_singleton.mpr path.2
  | cons entry entries ih => exact List.mem_cons_of_mem _ (ih path.2)

/-- Two paths from one node, to a node that is on neither, are the same. -/
theorem unique {entries' : List α} (path : links.Path first entries last)
    (path' : links.Path first entries' last) (apart : last ∉ entries) (apart' : last ∉ entries') :
    entries = entries' := by
  induction entries generalizing first entries' with
  | nil =>
      cases entries' with
      | nil => rfl
      | cons entry' entries' =>
          have same : entry' = last := path'.1.1.symm.trans path.1
          exact absurd (same ▸ List.mem_cons_self) apart'
  | cons entry entries ih =>
      cases entries' with
      | nil =>
          have same : entry = last := path.1.1.symm.trans path'.1
          exact absurd (same ▸ List.mem_cons_self) apart
      | cons entry' entries' =>
          obtain rfl : entry = entry' := path.1.1.symm.trans path'.1.1
          rw [ih path.2 path'.2 (fun member => apart (List.mem_cons_of_mem _ member))
            fun member => apart' (List.mem_cons_of_mem _ member)]

end Path

theorem Holds.head_notMem (holds : links.Holds head entries) : head ∉ entries :=
  (List.nodup_cons.mp holds.distinct).1

/-- A head has one list. -/
theorem Holds.unique {entries' : List α} (holds : links.Holds head entries)
    (holds' : links.Holds head entries') : entries = entries' :=
  holds.closed.unique holds'.closed holds.head_notMem holds'.head_notMem

section Operations

variable [DecidableEq α]

/-- Make two nodes neighbours. -/
def join (links : Links α) (before after : α) : Links α where
  next := Function.update links.next before after
  prev := Function.update links.prev after before

/-- An empty list. -/
def initListHead (links : Links α) (list : α) : Links α := links.join list list

/-- Link a node in front of the head, that is, behind the last entry. -/
def listAddTail (links : Links α) (entry head : α) : Links α :=
  (links.join entry head).join (links.prev head) entry

/-- Unlink a node.  What is left in its own pointers is not specified. -/
def listDel (links : Links α) (entry : α) : Links α :=
  links.join (links.prev entry) (links.next entry)

/-- The first node that a traversal accepts, from a node on. -/
def find (links : Links α) (head : α) (accepts : α → Bool) : Nat → α → Option (Option α)
  | 0, _ => none
  | fuel + 1, node =>
      if node = head then some none
      else if accepts node then some (some node)
      else links.find head accepts fuel (links.next node)

theorem join_comm {before' after' : α} (apart : before ≠ before') (apart' : after ≠ after') :
    (links.join before after).join before' after' =
      (links.join before' after').join before after := by
  rw [join, join, join, join, Function.update_comm apart.symm, Function.update_comm apart'.symm]

theorem join_next_of_ne (apart : node ≠ before) :
    (links.join before after).next node = links.next node :=
  Function.update_of_ne apart _ _

theorem join_prev_of_ne (apart : node ≠ after) :
    (links.join before after).prev node = links.prev node :=
  Function.update_of_ne apart _ _

@[simp] theorem join_next_self : (links.join before after).next before = after :=
  Function.update_self _ _ _

@[simp] theorem join_prev_self : (links.join before after).prev after = before :=
  Function.update_self _ _ _

namespace Path

/-- A path does not depend on the pointers of other nodes. -/
theorem join_of_notMem (path : links.Path first entries last) (apart : before ∉ first :: entries)
    (apart' : after ∉ entries ++ [last]) : (links.join before after).Path first entries last := by
  induction entries generalizing first with
  | nil =>
      have notFirst : first ≠ before := fun same => apart (same ▸ List.mem_cons_self)
      have notLast : last ≠ after := fun same => apart' (same ▸ List.mem_cons_self)
      rw [Path, join_next_of_ne notFirst, join_prev_of_ne notLast]
      exact path
  | cons entry entries ih =>
      have notFirst : first ≠ before := fun same => apart (same ▸ List.mem_cons_self)
      have notEntry : entry ≠ after := fun same => apart' (same ▸ List.mem_cons_self)
      rw [Path, join_next_of_ne notFirst, join_prev_of_ne notEntry]
      refine ⟨path.1, ih path.2 ?_ ?_⟩
      · exact fun member => apart (List.mem_cons_of_mem _ member)
      · exact fun member => apart' (List.mem_cons_of_mem _ member)

/-- The last entry of a path is led elsewhere. -/
theorem join_last (path : links.Path first entries last) (distinct : (first :: entries).Nodup)
    (apart : after ∉ entries) :
    (links.join (links.prev last) after).Path first entries after := by
  induction entries generalizing first with
  | nil =>
      rw [path.2]
      exact ⟨join_next_self, join_prev_self⟩
  | cons entry entries ih =>
      have tail := prev_mem path.2
      have notFirst : first ≠ links.prev last :=
        fun same => (List.nodup_cons.mp distinct).1 (same ▸ tail)
      have notEntry : entry ≠ after := fun same => apart (same ▸ List.mem_cons_self)
      rw [Path, join_next_of_ne notFirst, join_prev_of_ne notEntry]
      refine ⟨path.1, ih path.2 (List.nodup_cons.mp distinct).2 ?_⟩
      exact fun member => apart (List.mem_cons_of_mem _ member)

/-- A traversal follows a path to the head. -/
theorem find_eq (path : links.Path first entries head) (apart : head ∉ entries)
    (accepts : α → Bool) {fuel : Nat} (enough : entries.length < fuel) :
    links.find head accepts fuel (links.next first) = some (entries.find? accepts) := by
  induction entries generalizing first fuel with
  | nil =>
      obtain ⟨fuel, rfl⟩ := Nat.exists_eq_succ_of_ne_zero (Nat.ne_zero_of_lt enough)
      rw [path.1, find, if_pos rfl, List.find?_nil]
  | cons entry entries ih =>
      obtain ⟨fuel, rfl⟩ := Nat.exists_eq_succ_of_ne_zero (Nat.ne_zero_of_lt enough)
      have notHead : entry ≠ head := fun same => apart (same ▸ List.mem_cons_self)
      have rest := ih path.2 (fun member => apart (List.mem_cons_of_mem _ member))
        (Nat.lt_of_succ_lt_succ enough)
      rw [path.1.1, find, if_neg notHead, rest, List.find?_cons]
      cases accepts entry with
      | true => rfl
      | false => rfl

end Path

theorem holds_initListHead : (links.initListHead head).Holds head [] where
  closed := ⟨join_next_self, join_prev_self⟩
  distinct := List.nodup_singleton head

namespace Holds

variable (holds : links.Holds head entries)

include holds

theorem find_eq (accepts : α → Bool) {fuel : Nat} (enough : entries.length < fuel) :
    links.find head accepts fuel (links.next head) = some (entries.find? accepts) :=
  holds.closed.find_eq holds.head_notMem accepts enough

/-- The list does not depend on the pointers of other nodes. -/
theorem join_of_notMem (apart : before ∉ head :: entries) (apart' : after ∉ head :: entries) :
    (links.join before after).Holds head entries where
  closed := by
    refine holds.closed.join_of_notMem apart fun member => apart' ?_
    rcases List.mem_append.mp member with inside | isHead
    · exact List.mem_cons_of_mem _ inside
    · exact List.mem_singleton.mp isHead ▸ List.mem_cons_self
  distinct := holds.distinct

theorem listAddTail (fresh : node ∉ head :: entries) :
    (links.listAddTail node head).Holds head (entries ++ [node]) where
  closed := by
    have notHead : node ≠ head := fun same => fresh (same ▸ List.mem_cons_self)
    have isEntry := holds.closed.prev_mem
    have notLast : node ≠ links.prev head := fun same => fresh (same ▸ isEntry)
    rw [Links.listAddTail, join_comm notLast notHead.symm, Path.append_iff]
    refine ⟨?_, join_next_self, join_prev_self⟩
    have apart : node ∉ entries := fun member => fresh (List.mem_cons_of_mem _ member)
    have led := holds.closed.join_last holds.distinct apart
    refine led.join_of_notMem fresh fun member => ?_
    rcases List.mem_append.mp member with inside | isNode
    · exact holds.head_notMem inside
    · exact notHead (List.mem_singleton.mp isNode).symm
  distinct := by
    rw [← List.cons_append, List.nodup_append]
    refine ⟨holds.distinct, List.nodup_singleton node, fun entry member other isNode same => ?_⟩
    rw [List.mem_singleton.mp isNode] at same
    exact fresh (same ▸ member)

omit holds in
theorem listDel (holds : links.Holds head (entries ++ node :: rest)) :
    (links.listDel node).Holds head (entries ++ rest) where
  closed := by
    obtain ⟨front, back⟩ := Path.append_iff.mp holds.closed
    have split := holds.distinct
    rw [← List.cons_append, List.nodup_append] at split
    obtain ⟨distinct, distinctBack, apart⟩ := split
    have isFront := front.prev_mem
    rw [Links.listDel]
    cases rest with
    | nil =>
        rw [List.append_nil, back.1]
        exact front.join_last distinct (List.nodup_cons.mp distinct).1
    | cons entry rest =>
        have behind : entry ∈ node :: entry :: rest := List.mem_cons_of_mem _ List.mem_cons_self
        rw [Path.append_iff, back.1.1]
        refine ⟨front.join_last distinct fun member => ?_, back.2.join_of_notMem ?_ ?_⟩
        · exact apart _ (List.mem_cons_of_mem _ member) _ behind rfl
        · exact fun member => apart _ isFront _ (List.mem_cons_of_mem _ member) rfl
        · intro member
          rcases List.mem_append.mp member with inside | isHead
          · exact (List.nodup_cons.mp (List.nodup_cons.mp distinctBack).2).1 inside
          · exact apart _ List.mem_cons_self _ behind (List.mem_singleton.mp isHead).symm
  distinct := by
    have whole := holds.distinct
    exact whole.sublist (.cons_cons head
      ((List.Sublist.refl entries).append (List.sublist_cons_self node rest)))

end Holds

end Operations

end Links

end Lib
