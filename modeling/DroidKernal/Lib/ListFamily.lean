import DroidKernal.Lib.LinkedList
import Mathlib.Data.Sum.Basic

/-!
# Several circular lists

The heads of the lists are of one kind and the entries of another.  An entry is on one list
at most, and one that is on none points at itself, so that a look at the entry alone tells
whether it is on a list.
-/

namespace Lib.Links

variable {α κ ε : Type*}

section Operations

variable [DecidableEq α]

/-- Whether a head has no entries, or an entry is on no list. -/
def listEmpty (links : Links α) (node : α) : Bool := links.next node = node

/-- Unlink an entry and make it point at itself. -/
def listDelInit (links : Links α) (entry : α) : Links α :=
  (links.listDel entry).initListHead entry

end Operations

/-- What the lists hold at all heads. -/
structure HoldsAll (links : Links (κ ⊕ ε)) (lists : κ → List ε) : Prop where
  holds : ∀ head, links.Holds (.inl head) ((lists head).map .inr)
  apart : ∀ {entry head head'}, entry ∈ lists head → entry ∈ lists head' → head = head'
  alone : ∀ {entry}, (∀ head, entry ∉ lists head) →
    links.next (.inr entry) = .inr entry ∧ links.prev (.inr entry) = .inr entry

/-- The nodes of one circle. -/
def circle (lists : κ → List ε) (head : κ) : List (κ ⊕ ε) := .inl head :: (lists head).map .inr

namespace HoldsAll

variable {links : Links (κ ⊕ ε)} {lists : κ → List ε} {entry other : ε} {head head' : κ}
  {node before after : κ ⊕ ε}

/-- Nothing is linked yet. -/
theorem nothing : HoldsAll (κ := κ) (ε := ε) ⟨id, id⟩ fun _ => [] where
  holds _ := ⟨⟨rfl, rfl⟩, List.nodup_singleton _⟩
  apart member := absurd member List.not_mem_nil
  alone _ := ⟨rfl, rfl⟩

theorem inr_mem_circle : Sum.inr entry ∈ circle lists head ↔ entry ∈ lists head := by
  rw [circle, List.mem_cons, List.mem_map_of_injective Sum.inr_injective,
    or_iff_right Sum.inr_ne_inl]

variable (all : links.HoldsAll lists)

include all

/-- The pointers determine the lists. -/
theorem unique {lists' : κ → List ε} (all' : links.HoldsAll lists') : lists = lists' :=
  funext fun head =>
    List.map_injective_iff.mpr Sum.inr_injective ((all.holds head).unique (all'.holds head))

theorem nodup (head : κ) : (lists head).Nodup :=
  List.Nodup.of_map _ (List.nodup_cons.mp (all.holds head).distinct).2

/-- Two circles have no node in common. -/
theorem notMem_circle (member : node ∈ circle lists head) (differ : head ≠ head') :
    node ∉ circle lists head' := by
  intro member'
  cases node with
  | inl list =>
      simp only [circle, List.mem_cons, Sum.inl.injEq, List.mem_map, reduceCtorEq, and_false,
        exists_false, or_false] at member member'
      exact differ (member.symm.trans member')
  | inr entry => exact differ (all.apart (inr_mem_circle.mp member) (inr_mem_circle.mp member'))

/-- An entry of a list has a path to it from the head, and one back. -/
theorem around (member : entry ∈ lists head) :
    ∃ front back, lists head = front ++ entry :: back ∧
      links.Path (.inl head) (front.map .inr) (.inr entry) ∧
        links.Path (.inr entry) (back.map .inr) (.inl head) := by
  obtain ⟨front, back, split⟩ := List.append_of_mem member
  have closed := (all.holds head).closed
  rw [split, List.map_append, List.map_cons, Path.append_iff] at closed
  exact ⟨front, back, split, closed⟩

/-- An entry that is on a list does not point at itself. -/
theorem next_ne (member : entry ∈ lists head) : links.next (.inr entry) ≠ .inr entry := by
  obtain ⟨front, back, split, -, path⟩ := all.around member
  have nodup := all.nodup head
  rw [split] at nodup
  have notMem := (List.nodup_cons.mp (List.nodup_append.mp nodup).2.1).1
  cases back with
  | nil => exact fun same => Sum.inl_ne_inr (path.1.symm.trans same)
  | cons following back =>
      intro same
      exact notMem (Sum.inr_injective (same.symm.trans path.1.1) ▸ List.mem_cons_self)

/-- The neighbours of an entry are in its circle. -/
theorem neighbours_mem (member : entry ∈ lists head) :
    links.prev (.inr entry) ∈ circle lists head ∧ links.next (.inr entry) ∈ circle lists head := by
  obtain ⟨front, back, split, path, path'⟩ := all.around member
  rw [circle, split, List.map_append, List.map_cons]
  refine ⟨?_, ?_⟩
  · rcases List.mem_cons.mp path.prev_mem with isHead | inFront
    · exact isHead ▸ List.mem_cons_self
    · exact List.mem_cons_of_mem _ (List.mem_append_left _ inFront)
  · cases back with
    | nil => exact path'.1 ▸ List.mem_cons_self
    | cons following back =>
        rw [path'.1.1]
        exact List.mem_cons_of_mem _ (List.mem_append_right _
          (List.mem_cons_of_mem _ List.mem_cons_self))

variable [DecidableEq κ] [DecidableEq ε]

/-- The entry itself tells whether it is on a list. -/
theorem listEmpty_iff : links.listEmpty (.inr entry) = true ↔ ∀ head, entry ∉ lists head := by
  rw [listEmpty, decide_eq_true_iff]
  exact ⟨fun same head member => all.next_ne member same, fun off => (all.alone off).1⟩

/-- The other lists do not depend on the pointers within one circle. -/
theorem join_of_ne (member : before ∈ circle lists head) (member' : after ∈ circle lists head)
    (differ : head ≠ head') :
    (links.join before after).Holds (.inl head') ((lists head').map .inr) :=
  (all.holds head').join_of_notMem (all.notMem_circle member differ)
    (all.notMem_circle member' differ)

omit all [DecidableEq ε] in
theorem mem_update : other ∈ Function.update lists head (lists head ++ [entry]) head' ↔
    other ∈ lists head' ∨ other = entry ∧ head' = head := by
  by_cases same : head' = head
  · subst same
    rw [Function.update_self, List.mem_append, List.mem_singleton, and_iff_left rfl]
  · rw [Function.update_of_ne same, or_iff_left fun both => same both.2]

/-- Linking an entry that is on no list puts it on one. -/
theorem listAddTail (fresh : ∀ head, entry ∉ lists head) :
    (links.listAddTail (.inr entry) (.inl head)).HoldsAll
      (Function.update lists head (lists head ++ [entry])) where
  holds head' := by
    have off : Sum.inr entry ∉ circle lists head' :=
      fun member => fresh head' (inr_mem_circle.mp member)
    by_cases same : head' = head
    · subst same
      rw [Function.update_self, List.map_append]
      exact (all.holds head').listAddTail off
    · have isTail := (all.holds head).closed.prev_mem
      have offHead : Sum.inl head ∉ circle lists head' :=
        all.notMem_circle List.mem_cons_self (Ne.symm same)
      have offTail : links.prev (.inl head) ∉ circle lists head' :=
        all.notMem_circle isTail (Ne.symm same)
      rw [Function.update_of_ne same]
      exact ((all.holds head').join_of_notMem off offHead).join_of_notMem offTail off
  apart := by
    intro other first second member member'
    rcases mem_update.mp member with old | ⟨rfl, rfl⟩
    · rcases mem_update.mp member' with old' | ⟨rfl, -⟩
      · exact all.apart old old'
      · exact absurd old (fresh first)
    · rcases mem_update.mp member' with old' | ⟨-, rfl⟩
      · exact absurd old' (fresh second)
      · rfl
  alone := by
    intro other off
    have notEntry : other ≠ entry := fun same => off head (mem_update.mpr (.inr ⟨same, rfl⟩))
    have offAll : ∀ list, other ∉ lists list :=
      fun list member => off list (mem_update.mpr (.inl member))
    have notTail : Sum.inr other ≠ links.prev (.inl head) := fun isTail =>
      offAll head (inr_mem_circle.mp (isTail ▸ (all.holds head).closed.prev_mem))
    have differ : Sum.inr (α := κ) other ≠ .inr entry := Sum.inr_injective.ne notEntry
    rw [Links.listAddTail, join_next_of_ne notTail, join_prev_of_ne differ,
      join_next_of_ne differ, join_prev_of_ne Sum.inr_ne_inl]
    exact all.alone offAll

/-- Unlinking an entry leaves all other entries where they are. -/
theorem listDel (head : κ) :
    (links.listDel (.inr entry)).Holds (.inl head) (((lists head).erase entry).map .inr) := by
  by_cases on : ∃ list, entry ∈ lists list
  · obtain ⟨list, member⟩ := on
    by_cases same : list = head
    · subst same
      obtain ⟨front, back, split, -⟩ := all.around member
      have holds := all.holds list
      have nodup := all.nodup list
      rw [split] at holds nodup
      have notFront : entry ∉ front := fun inFront =>
        (List.nodup_append.mp nodup).2.2 entry inFront entry List.mem_cons_self rfl
      rw [split, List.erase_append_right _ notFront, List.erase_cons_head, List.map_append]
      rw [List.map_append, List.map_cons] at holds
      exact holds.listDel
    · have neighbours := all.neighbours_mem member
      rw [List.erase_of_not_mem fun member' => same (all.apart member member')]
      exact all.join_of_ne neighbours.1 neighbours.2 same
  · have off : ∀ list, entry ∉ lists list := fun list member => on ⟨list, member⟩
    have unchanged : links.listDel (.inr entry) = links := by
      obtain ⟨next, prev⟩ := all.alone off
      rw [Links.listDel, join, next, prev]
      exact congrArg₂ Links.mk (Function.update_eq_self_iff.mpr next.symm)
        (Function.update_eq_self_iff.mpr prev.symm)
    rw [unchanged, List.erase_of_not_mem (off head)]
    exact all.holds head

/-- Unlinking takes the entry off its list, if it is on one. -/
theorem listDelInit :
    (links.listDelInit (.inr entry)).HoldsAll fun head => (lists head).erase entry where
  holds head := by
    have gone : Sum.inr entry ∉ circle (fun list => (lists list).erase entry) head := by
      rw [inr_mem_circle]
      exact (all.nodup head).not_mem_erase
    exact (all.listDel head).join_of_notMem gone gone
  apart member member' := all.apart (List.mem_of_mem_erase member) (List.mem_of_mem_erase member')
  alone := by
    intro other off
    rw [Links.listDelInit, initListHead]
    by_cases same : other = entry
    · subst same
      exact holds_initListHead.closed
    · have offAll : ∀ list, other ∉ lists list :=
        fun list member => off list ((List.mem_erase_of_ne same).mpr member)
      have differ : Sum.inr (α := κ) other ≠ .inr entry := Sum.inr_injective.ne same
      have notNeighbour : Sum.inr other ≠ links.prev (.inr entry) ∧
          Sum.inr other ≠ links.next (.inr entry) := by
        by_cases on : ∃ list, entry ∈ lists list
        · obtain ⟨list, member⟩ := on
          obtain ⟨before, after⟩ := all.neighbours_mem member
          exact ⟨fun is => offAll list (inr_mem_circle.mp (is ▸ before)),
            fun is => offAll list (inr_mem_circle.mp (is ▸ after))⟩
        · obtain ⟨next, prev⟩ := all.alone fun list member => on ⟨list, member⟩
          rw [next, prev]
          exact ⟨differ, differ⟩
      rw [join_next_of_ne differ, join_prev_of_ne differ, Links.listDel,
        join_next_of_ne notNeighbour.1, join_prev_of_ne notNeighbour.2]
      exact all.alone offAll

end HoldsAll

end Lib.Links
