import Mathlib.Data.List.Basic

/-!
# Insertion into sorted lists

Where an entry can be inserted so that the list stays in order.
-/

namespace Lib

variable {α : Type*} {relation : α → α → Prop} {smaller larger : List α} {entry : α}

/-- An entry between those before and those behind it. -/
theorem pairwise_between (sorted : (smaller ++ larger).Pairwise relation)
    (below : ∀ other ∈ smaller, relation other entry)
    (above : ∀ other ∈ larger, relation entry other) :
    (smaller ++ entry :: larger).Pairwise relation := by
  obtain ⟨sortedSmaller, sortedLarger, across⟩ := List.pairwise_append.mp sorted
  refine List.pairwise_append.mpr ⟨sortedSmaller, List.pairwise_cons.mpr ⟨above, sortedLarger⟩, ?_⟩
  intro first isFirst second isSecond
  obtain rfl | isLater := List.mem_cons.mp isSecond
  · exact below first isFirst
  · exact across first isFirst second isLater

/-- The entry can be inserted only where the smaller elements end. -/
theorem sorted_insertion_iff (sorted : (smaller ++ larger).Pairwise relation)
    (below : ∀ other ∈ smaller, relation other entry ∧ ¬ relation entry other)
    (above : ∀ other ∈ larger, relation entry other ∧ ¬ relation other entry) {pos : Nat}
    (inside : pos ≤ (smaller ++ larger).length) :
    ((smaller ++ larger).take pos ++ entry :: (smaller ++ larger).drop pos).Pairwise relation ↔
      pos = smaller.length := by
  constructor
  · intro stays
    obtain ⟨-, fromEntry, across⟩ := List.pairwise_append.mp stays
    obtain early | same | late := Nat.lt_trichotomy pos smaller.length
    · -- a smaller element follows
      have more : smaller.drop pos ≠ [] := by
        rw [ne_eq, List.drop_eq_nil_iff]
        omega
      obtain ⟨other, isIn⟩ := List.exists_mem_of_ne_nil _ more
      have follows : other ∈ (smaller ++ larger).drop pos := by
        rw [List.drop_append_of_le_length (Nat.le_of_lt early)]
        exact List.mem_append_left _ isIn
      exact absurd ((List.pairwise_cons.mp fromEntry).1 other follows)
        (below other (List.mem_of_mem_drop isIn)).2
    · exact same
    · -- a larger element comes first
      have more : larger.take (pos - smaller.length) ≠ [] := by
        rw [ne_eq, List.take_eq_nil_iff]
        rw [List.length_append] at inside
        rintro (none | rfl)
        · omega
        · rw [List.length_nil] at inside
          omega
      obtain ⟨other, isIn⟩ := List.exists_mem_of_ne_nil _ more
      have precedes : other ∈ (smaller ++ larger).take pos := by
        rw [List.take_append, List.take_of_length_le (Nat.le_of_lt late)]
        exact List.mem_append_right _ isIn
      exact absurd (across other precedes entry (List.mem_cons_self ..))
        (above other (List.mem_of_mem_take isIn)).2
  · rintro rfl
    rw [List.take_left, List.drop_left]
    exact pairwise_between sorted (fun other isIn => (below other isIn).1)
      fun other isIn => (above other isIn).1

end Lib
