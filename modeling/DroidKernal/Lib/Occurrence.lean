import Mathlib.Data.List.Infix

/-!
# The first occurrence of a list in another

What a search has to return, with one rule for each way it goes on.
-/

namespace Lib

variable {α : Type*} {target list : List α} {head : α} {k : Nat}

/-- The target begins at `k`, and nowhere before. -/
structure FirstAt (target list : List α) (k : Nat) : Prop where
  begins : target <+: list.drop k
  notBefore : ∀ j, j < k → ¬ target <+: list.drop j

/-- The result of a search. -/
def Found (target list : List α) : Option Nat → Prop
  | some k => FirstAt target list k
  | none => ¬ target <:+: list

theorem FirstAt.here (isPrefix : target <+: list) : FirstAt target list 0 where
  begins := by rwa [List.drop_zero]
  notBefore j before := absurd before (Nat.not_lt_zero j)

theorem FirstAt.later (notHere : ¬ target <+: head :: list) (first : FirstAt target list k) :
    FirstAt target (head :: list) (k + 1) where
  begins := first.begins
  notBefore j before := by
    cases j with
    | zero => exact notHere
    | succ j => exact first.notBefore j (Nat.lt_of_succ_lt_succ before)

/-- There is one first occurrence at most. -/
theorem FirstAt.unique {j : Nat} (first : FirstAt target list k)
    (other : FirstAt target list j) : k = j := by
  rcases Nat.lt_trichotomy k j with before | same | behind
  · exact absurd first.begins (other.notBefore k before)
  · exact same
  · exact absurd other.begins (first.notBefore j behind)

theorem found_here (isPrefix : target <+: list) : Found target list (some 0) :=
  FirstAt.here isPrefix

/-- The target does not begin here: the search goes on. -/
theorem found_later (notHere : ¬ target <+: head :: list) {found : Option Nat}
    (behind : Found target list found) : Found target (head :: list) (found.map (· + 1)) := by
  cases found with
  | some k => exact FirstAt.later notHere behind
  | none =>
      intro isInfix
      rcases List.infix_cons_iff.mp isInfix with isPrefix | isInfix
      · exact notHere isPrefix
      · exact behind isInfix

/-- At the end of the list, nothing but the empty list begins. -/
theorem found_nil (notEmpty : target ≠ []) : Found target [] none := by
  intro isInfix
  exact notEmpty (List.infix_nil.mp isInfix)

end Lib
