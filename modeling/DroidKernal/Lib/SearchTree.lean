import DroidKernal.Lib.Blocks
import DroidKernal.Lib.Insertion
import Mathlib.Data.Tree.Basic

/-!
# Search trees

The way down a binary tree, and the entry that is linked where it ends.  What is passed on the
way stands before or behind the place in the order of the entries.  Colors and rotations are
left out: they keep that order.
-/

namespace Lib

namespace SearchTree

variable {α : Type*}

/-- The entries in order. -/
def inOrder : BinaryTree α → List α
  | .nil => []
  | .node entry left right => inOrder left ++ entry :: inOrder right

/-- A turn to the left or to the right of an entry, with the subtree on the other side. -/
inductive Turn (α : Type*) where
  | left (entry : α) (right : BinaryTree α)
  | right (entry : α) (left : BinaryTree α)

/-- The tree with a subtree at the place that a path leads to.  The last turn is the first of
the path. -/
def fill (subtree : BinaryTree α) : List (Turn α) → BinaryTree α
  | [] => subtree
  | .left entry right :: path => fill (.node entry subtree right) path
  | .right entry left :: path => fill (.node entry left subtree) path

/-- Where the way down ends: at an entry, or at an empty place. -/
inductive Descent (α : Type*) where
  | found (entry : α)
  | place (path : List (Turn α))

/-- The way down, by the direction that is taken at each entry. -/
def descend (direction : α → Ordering) (path : List (Turn α)) : BinaryTree α → Descent α
  | .nil => .place path
  | .node entry left right =>
      match direction entry with
      | .lt => descend direction (.left entry right :: path) left
      | .gt => descend direction (.right entry left :: path) right
      | .eq => .found entry

/-- `rb_link_node`. -/
def link (entry : α) (path : List (Turn α)) : BinaryTree α := fill (.node entry .nil .nil) path

/-- A function such as `rb_insert_color`, which may rotate the tree. -/
def KeepsOrder (rbInsertColor : BinaryTree α → BinaryTree α) : Prop :=
  ∀ tree, inOrder (rbInsertColor tree) = inOrder tree

theorem keepsOrder_id : KeepsOrder (id : BinaryTree α → BinaryTree α) := fun _ => rfl

/-! ## The order along a path -/

/-- The entries before the place. -/
def before : List (Turn α) → List α
  | [] => []
  | .left _ _ :: path => before path
  | .right entry left :: path => before path ++ (inOrder left ++ [entry])

/-- The entries behind it. -/
def behind : List (Turn α) → List α
  | [] => []
  | .left entry right :: path => (entry :: inOrder right) ++ behind path
  | .right _ _ :: path => behind path

theorem inOrder_fill (subtree : BinaryTree α) (path : List (Turn α)) :
    inOrder (fill subtree path) = before path ++ (inOrder subtree ++ behind path) := by
  induction path generalizing subtree with
  | nil => simp [fill, before, behind]
  | cons turn path ih =>
      cases turn with
      | left entry right => simp [fill, ih, inOrder, before, behind]
      | right entry left => simp [fill, ih, inOrder, before, behind]

theorem inOrder_link (entry : α) (path : List (Turn α)) :
    inOrder (link entry path) = before path ++ entry :: behind path :=
  inOrder_fill ..

/-- The directions agree with the order: right of every entry that is not too large it goes to
the right only, and the other way round. -/
def Directed (direction : α → Ordering) (entries : List α) : Prop :=
  entries.Pairwise fun first second =>
    (direction first ≠ .gt → direction second = .lt) ∧
      (direction second ≠ .lt → direction first = .gt)

section Descend

variable {direction : α → Ordering} {path final : List (Turn α)} {tree : BinaryTree α} {entry : α}

/-- Only the directions at the entries matter. -/
theorem descend_congr {other : α → Ordering}
    (same : ∀ entry ∈ inOrder tree, direction entry = other entry) :
    descend direction path tree = descend other path tree := by
  induction tree generalizing path with
  | nil => rfl
  | node value left right leftIh rightIh =>
      simp only [inOrder, List.mem_append, List.mem_cons] at same
      rw [descend, descend, same value (.inr (.inl rfl))]
      cases other value with
      | lt => exact leftIh fun entry isIn => same entry (.inl isIn)
      | gt => exact rightIh fun entry isIn => same entry (.inr (.inr isIn))
      | eq => rfl

theorem descend_found (found : descend direction path tree = .found entry) :
    entry ∈ inOrder tree ∧ direction entry = .eq := by
  induction tree generalizing path with
  | nil => cases found
  | node value left right leftIh rightIh =>
      rw [descend] at found
      rw [inOrder, List.mem_append, List.mem_cons]
      split at found
      next =>
        obtain ⟨isIn, isEq⟩ := leftIh found
        exact ⟨.inl isIn, isEq⟩
      next =>
        obtain ⟨isIn, isEq⟩ := rightIh found
        exact ⟨.inr (.inr isIn), isEq⟩
      next isEq =>
        cases found
        exact ⟨.inr (.inl rfl), isEq⟩

/-- The place is an empty one of the tree. -/
theorem fill_place (placed : descend direction path tree = .place final) :
    fill .nil final = fill tree path := by
  induction tree generalizing path with
  | nil =>
      cases placed
      rfl
  | node value left right leftIh rightIh =>
      rw [descend] at placed
      split at placed
      next => exact leftIh placed
      next => exact rightIh placed
      next => cases placed

/-- The tree keeps its entries when one is linked. -/
theorem mem_link_of_mem (placed : descend direction [] tree = .place final) {other : α}
    (isIn : other ∈ inOrder tree) : other ∈ inOrder (link entry final) := by
  have filled := congrArg inOrder (fill_place placed)
  rw [inOrder_fill] at filled
  rw [fill] at filled
  rw [← filled] at isIn
  rw [inOrder_link]
  simp only [inOrder, List.nil_append, List.mem_append, List.mem_cons] at isIn ⊢
  exact isIn.imp_right .inr

/-- The place splits the entries into those that were passed on the left and on the right. -/
theorem descend_place (placed : descend direction path tree = .place final)
    (directed : Directed direction (inOrder tree)) :
    ∃ smaller larger, inOrder tree = smaller ++ larger ∧
      before final = before path ++ smaller ∧ behind final = larger ++ behind path ∧
      (∀ entry ∈ smaller, direction entry = .gt) ∧ ∀ entry ∈ larger, direction entry = .lt := by
  induction tree generalizing path with
  | nil =>
      cases placed
      exact ⟨[], [], rfl, (List.append_nil _).symm, rfl, nofun, nofun⟩
  | node value left right leftIh rightIh =>
      rw [inOrder] at directed
      obtain ⟨inLeft, fromValue, across⟩ := List.pairwise_append.mp directed
      obtain ⟨valueFirst, inRight⟩ := List.pairwise_cons.mp fromValue
      rw [descend] at placed
      split at placed
      next isLess =>
        obtain ⟨smaller, larger, split, isBefore, isBehind, passed, ahead⟩ := leftIh placed inLeft
        refine ⟨smaller, larger ++ value :: inOrder right, ?_, isBefore, ?_, passed, ?_⟩
        · rw [inOrder, split, List.append_assoc]
        · rw [isBehind, behind, List.append_assoc]
        · intro entry isIn
          obtain isLeft | isRight := List.mem_append.mp isIn
          · exact ahead entry isLeft
          · obtain rfl | isRight := List.mem_cons.mp isRight
            · exact isLess
            · exact (valueFirst entry isRight).1 (by rw [isLess]; decide)
      next isGreater =>
        obtain ⟨smaller, larger, split, isBefore, isBehind, passed, ahead⟩ :=
          rightIh placed inRight
        refine ⟨inOrder left ++ value :: smaller, larger, ?_, ?_, isBehind, ?_, ahead⟩
        · rw [inOrder, split, List.append_assoc, List.cons_append]
        · rw [isBefore, before]
          simp only [List.append_assoc, List.cons_append, List.nil_append]
        · intro entry isIn
          obtain isLeft | isRight := List.mem_append.mp isIn
          · exact (across entry isLeft value (List.mem_cons_self ..)).2 (by rw [isGreater]; decide)
          · obtain rfl | isRight := List.mem_cons.mp isRight
            · exact isGreater
            · exact passed entry isRight
      next => cases placed

/-- The way ends at an empty place if it goes on at every entry. -/
theorem descend_goes_on (goesOn : ∀ entry ∈ inOrder tree, direction entry ≠ .eq) :
    ∃ final, descend direction path tree = .place final := by
  cases ended : descend direction path tree with
  | place final => exact ⟨final, rfl⟩
  | found entry =>
      obtain ⟨isIn, isEq⟩ := descend_found ended
      exact absurd isEq (goesOn entry isIn)

/-- The entry is linked between the entries that were passed. -/
theorem inOrder_place (placed : descend direction [] tree = .place final)
    (directed : Directed direction (inOrder tree)) (entry : α) :
    ∃ smaller larger, inOrder tree = smaller ++ larger ∧
      inOrder (link entry final) = smaller ++ entry :: larger ∧
      (∀ entry ∈ smaller, direction entry = .gt) ∧ ∀ entry ∈ larger, direction entry = .lt := by
  obtain ⟨smaller, larger, split, isBefore, isBehind, passed, ahead⟩ :=
    descend_place placed directed
  refine ⟨smaller, larger, split, ?_, passed, ahead⟩
  rw [inOrder_link, isBefore, isBehind, before, behind, List.nil_append, List.append_nil]

end Descend

/-! ## One entry for each key -/

section Keys

variable {κ : Type*} [LT κ] [DecidableLT κ]

/-- The direction towards a key. -/
def towards (wanted key : κ) : Ordering :=
  if wanted < key then .lt else if wanted > key then .gt else .eq

theorem towards_eq_lt_iff {wanted key : κ} : towards wanted key = .lt ↔ wanted < key := by
  rw [towards]
  split
  next isLess => exact ⟨fun _ => isLess, fun _ => rfl⟩
  next notLess =>
    refine ⟨fun isLess => ?_, fun isLess => absurd isLess notLess⟩
    split at isLess <;> cases isLess

variable [LE κ] [Std.IsLinearOrder κ] [Std.LawfulOrderLT κ]

theorem towards_eq_gt_iff {wanted key : κ} : towards wanted key = .gt ↔ key < wanted := by
  rw [towards]
  split
  next isLess =>
    refine ⟨nofun, fun isGreater => ?_⟩
    exact absurd (Std.lt_trans isLess isGreater) Std.lt_irrefl
  next notLess =>
    split
    next isGreater => exact ⟨fun _ => isGreater, fun _ => rfl⟩
    next notGreater => exact ⟨nofun, fun isGreater => absurd isGreater notGreater⟩

theorem towards_eq_eq_iff {wanted key : κ} : towards wanted key = .eq ↔ key = wanted := by
  rw [towards]
  split
  next isLess =>
    refine ⟨nofun, fun same => ?_⟩
    subst same
    exact absurd isLess Std.lt_irrefl
  next notLess =>
    split
    next isGreater =>
      refine ⟨nofun, fun same => ?_⟩
      subst same
      exact absurd isGreater Std.lt_irrefl
    next notGreater =>
      exact ⟨fun _ => Std.le_antisymm (Std.not_lt.mp notLess) (Std.not_lt.mp notGreater),
        fun _ => rfl⟩

variable {key : α → κ} {entries : List α}

/-- The directions towards a key agree with the order of the keys. -/
theorem directed_towards (sorted : entries.Pairwise fun first second => key first < key second)
    (wanted : κ) : Directed (fun entry => towards wanted (key entry)) entries := by
  apply sorted.imp
  intro first second isLess
  constructor
  · intro notGreater
    rw [towards_eq_lt_iff]
    have atMost := Std.not_lt.mp fun greater => notGreater (towards_eq_gt_iff.mpr greater)
    exact Std.lt_of_le_of_lt atMost isLess
  · intro notLess
    rw [towards_eq_gt_iff]
    have atLeast := Std.not_lt.mp fun less => notLess (towards_eq_lt_iff.mpr less)
    exact Std.lt_of_lt_of_le isLess atLeast

/-- No entry has the key that leads to an empty place, and an entry with that key can be
linked there. -/
theorem sorted_link {tree : BinaryTree α} {path : List (Turn α)} {wanted : κ}
    (sorted : (inOrder tree).Pairwise fun first second => key first < key second)
    (placed : descend (fun entry => towards wanted (key entry)) [] tree = .place path)
    (entry : α) :
    (∀ other ∈ inOrder tree, key other ≠ wanted) ∧
    (∀ other, other ∈ inOrder (link entry path) ↔ other = entry ∨ other ∈ inOrder tree) ∧
    (key entry = wanted →
      (inOrder (link entry path)).Pairwise fun first second => key first < key second) := by
  obtain ⟨smaller, larger, split, linked, passed, ahead⟩ :=
    inOrder_place placed (directed_towards sorted wanted) entry
  rw [split] at sorted ⊢
  rw [linked]
  have isSmaller : ∀ other ∈ smaller, key other < wanted := fun other isIn =>
    towards_eq_gt_iff.mp (passed other isIn)
  have isLarger : ∀ other ∈ larger, wanted < key other := fun other isIn =>
    towards_eq_lt_iff.mp (ahead other isIn)
  refine ⟨?_, ?_, ?_⟩
  · intro other isIn same
    obtain first | second := List.mem_append.mp isIn
    · have isLess := isSmaller other first
      rw [same] at isLess
      exact Std.lt_irrefl isLess
    · have isLess := isLarger other second
      rw [same] at isLess
      exact Std.lt_irrefl isLess
  · intro other
    simp only [List.mem_append, List.mem_cons]
    exact or_left_comm
  · rintro rfl
    exact pairwise_between sorted isSmaller isLarger

end Keys

/-! ## Entries of one rank -/

section Ranks

variable {κ : Type*} [LT κ] [DecidableLT κ] [LE κ] [Std.IsLinearOrder κ] [Std.LawfulOrderLT κ]
  {rank : α → κ} {entries : List α}

/-- The direction to behind the entries of a rank. -/
def behindRank (wanted rank : κ) : Ordering :=
  if wanted < rank then .lt else .gt

omit [LE κ] [Std.IsLinearOrder κ] [Std.LawfulOrderLT κ] in
theorem behindRank_eq_lt_iff {wanted rank : κ} : behindRank wanted rank = .lt ↔ wanted < rank := by
  rw [behindRank]
  split
  next isLess => exact ⟨fun _ => isLess, fun _ => rfl⟩
  next notLess => exact ⟨nofun, fun isLess => absurd isLess notLess⟩

theorem behindRank_eq_gt_iff {wanted rank : κ} : behindRank wanted rank = .gt ↔ rank ≤ wanted := by
  rw [← Std.not_lt, behindRank]
  split
  next isLess => exact ⟨nofun, fun notLess => absurd isLess notLess⟩
  next notLess => exact ⟨fun _ => notLess, fun _ => rfl⟩

omit [LE κ] [Std.IsLinearOrder κ] [Std.LawfulOrderLT κ] in
theorem behindRank_ne_eq (wanted rank : κ) : behindRank wanted rank ≠ .eq := by
  rw [behindRank]
  split <;> exact nofun

theorem directed_behindRank (sorted : entries.Pairwise fun first second => rank first ≤ rank second)
    (wanted : κ) : Directed (fun entry => behindRank wanted (rank entry)) entries := by
  apply sorted.imp
  intro first second atMost
  constructor
  · intro notGreater
    rw [behindRank_eq_lt_iff]
    have isLess := Std.not_le.mp fun least => notGreater (behindRank_eq_gt_iff.mpr least)
    exact Std.lt_of_lt_of_le isLess atMost
  · intro notLess
    rw [behindRank_eq_gt_iff]
    have atLeast := Std.not_lt.mp fun less => notLess (behindRank_eq_lt_iff.mpr less)
    exact Std.le_trans atMost atLeast

/-- An entry is linked behind those of its rank and those below it. -/
theorem link_behindRank {tree : BinaryTree α} {path : List (Turn α)} {entry : α}
    (sorted : (inOrder tree).Pairwise fun first second => rank first ≤ rank second)
    (placed : descend (fun other => behindRank (rank entry) (rank other)) [] tree = .place path) :
    ∃ smaller larger, inOrder tree = smaller ++ larger ∧
      inOrder (link entry path) = smaller ++ entry :: larger ∧
      (∀ other ∈ smaller, rank other ≤ rank entry) ∧ (∀ other ∈ larger, rank entry < rank other) ∧
      (inOrder (link entry path)).Pairwise fun first second => rank first ≤ rank second := by
  obtain ⟨smaller, larger, split, linked, passed, ahead⟩ :=
    inOrder_place placed (directed_behindRank sorted (rank entry)) entry
  have isSmaller : ∀ other ∈ smaller, rank other ≤ rank entry := fun other isIn =>
    behindRank_eq_gt_iff.mp (passed other isIn)
  have isLarger : ∀ other ∈ larger, rank entry < rank other := fun other isIn =>
    behindRank_eq_lt_iff.mp (ahead other isIn)
  refine ⟨smaller, larger, split, linked, isSmaller, isLarger, ?_⟩
  rw [split] at sorted
  rw [linked]
  exact pairwise_between sorted isSmaller fun other isIn => Std.le_of_lt (isLarger other isIn)

end Ranks

end SearchTree

end Lib
