import DroidKernal.Binder.BufferAlloc

/-!
# Sizes of buffers

The size of a buffer is the distance to the next one on the list, or to the end of the region.
The tree of the free buffers is in the order of these sizes.
-/

namespace DroidKernal.Binder

open Lib Lib.SearchTree

/-! ## The next buffer -/

section Next

variable {position : Nat → Nat} {buffer next entry stop : Nat} {buffers rest : List Nat}

theorem binderBufferNext_head :
    BinderAlloc.binderBufferNext buffer (buffer :: rest) = rest.head? := if_pos rfl

theorem binderBufferNext_tail (differ : entry ≠ buffer) :
    BinderAlloc.binderBufferNext buffer (entry :: rest) =
      BinderAlloc.binderBufferNext buffer rest := if_neg differ

/-- The next buffer begins behind this one. -/
theorem binderBufferNext_behind
    (ordered : buffers.Pairwise fun first second => position first < position second)
    (isNext : BinderAlloc.binderBufferNext buffer buffers = some next) :
    next ∈ buffers ∧ position buffer < position next := by
  induction buffers with
  | nil => cases isNext
  | cons entry rest ih =>
      obtain ⟨least, orderedRest⟩ := List.pairwise_cons.mp ordered
      by_cases same : entry = buffer
      · subst same
        rw [binderBufferNext_head] at isNext
        have isIn := List.mem_of_head? isNext
        exact ⟨List.mem_cons_of_mem _ isIn, least next isIn⟩
      · rw [binderBufferNext_tail same] at isNext
        obtain ⟨isIn, behind⟩ := ih orderedRest isNext
        exact ⟨List.mem_cons_of_mem _ isIn, behind⟩

/-- The distance to the next buffer, or to the end. -/
def distance (position : Nat → Nat) (stop : Nat) (buffers : List Nat) (buffer : Nat) : Nat :=
  match BinderAlloc.binderBufferNext buffer buffers with
  | none => stop - position buffer
  | some next => position next - position buffer

theorem distance_pos
    (ordered : buffers.Pairwise fun first second => position first < position second)
    (inside : ∀ entry ∈ buffers, position entry < stop) (listed : buffer ∈ buffers) :
    0 < distance position stop buffers buffer := by
  rw [distance]
  split
  next => exact Nat.sub_pos_of_lt (inside buffer listed)
  next isNext => exact Nat.sub_pos_of_lt (binderBufferNext_behind ordered isNext).2

/-- The distances add up to that from the first buffer to the end. -/
theorem sum_distances {first : Nat}
    (ordered : (first :: rest).Pairwise fun first second => position first < position second)
    (inside : ∀ entry ∈ first :: rest, position entry < stop) :
    ((first :: rest).map (distance position stop (first :: rest))).sum =
      stop - position first := by
  induction rest generalizing first with
  | nil =>
      rw [List.map_singleton, List.sum_singleton, distance, binderBufferNext_head]
      rfl
  | cons second rest ih =>
      obtain ⟨least, orderedRest⟩ := List.pairwise_cons.mp ordered
      have insideRest : ∀ entry ∈ second :: rest, position entry < stop := fun entry isIn =>
        inside entry (List.mem_cons_of_mem _ isIn)
      have isFirst : distance position stop (first :: second :: rest) first =
          position second - position first := by
        rw [distance, binderBufferNext_head]
        rfl
      have others : (second :: rest).map (distance position stop (first :: second :: rest)) =
          (second :: rest).map (distance position stop (second :: rest)) := by
        apply List.map_congr_left
        intro entry isIn
        have differ : first ≠ entry := by
          rintro rfl
          exact Nat.lt_irrefl _ (least first isIn)
        rw [distance, distance, binderBufferNext_tail differ]
      have behind := least second (List.mem_cons_self ..)
      have before := insideRest second (List.mem_cons_self ..)
      rw [List.map_cons, List.sum_cons, others, ih orderedRest insideRest, isFirst]
      omega

end Next

/-! ## The region -/

namespace BinderAlloc

variable {alloc : BinderAlloc} {buffer : Nat}

/-- Where a buffer begins. -/
def userData (alloc : BinderAlloc) (buffer : Nat) : Nat := (alloc.memory.block buffer).userData

/-- The buffers lie in the region in the order of the list, the first one at its start.  Addresses
and sizes are numbers of 64 bits. -/
structure Ordered (alloc : BinderAlloc) : Prop where
  starts : alloc.buffers.head?.map alloc.userData = some alloc.buffer
  ordered : alloc.buffers.Pairwise fun first second => alloc.userData first < alloc.userData second
  inside : ∀ buffer ∈ alloc.buffers, alloc.userData buffer < alloc.buffer + alloc.bufferSize
  addresses : ∀ buffer ∈ alloc.buffers, alloc.userData buffer < 2 ^ 64
  size : alloc.bufferSize < 2 ^ 64

/-- The tree holds free buffers of the list in the order of their sizes. -/
structure FreeTree (alloc : BinderAlloc) : Prop where
  listed : ∀ buffer ∈ inOrder alloc.freeBuffers, buffer ∈ alloc.buffers
  free : ∀ buffer ∈ inOrder alloc.freeBuffers, (alloc.memory.block buffer).free = true
  sorted : (inOrder alloc.freeBuffers).Pairwise fun first second =>
    alloc.binderAllocBufferSize first ≤ alloc.binderAllocBufferSize second

namespace Ordered

variable (isOrdered : alloc.Ordered)

include isOrdered

theorem buffers_eq : ∃ first rest, alloc.buffers = first :: rest ∧
    alloc.userData first = alloc.buffer := by
  have starts := isOrdered.starts
  cases isList : alloc.buffers with
  | nil =>
      rw [isList] at starts
      cases starts
  | cons first rest =>
      rw [isList] at starts
      exact ⟨first, rest, rfl, Option.some.inj starts⟩

theorem start_le (listed : buffer ∈ alloc.buffers) : alloc.buffer ≤ alloc.userData buffer := by
  obtain ⟨first, rest, isList, starts⟩ := isOrdered.buffers_eq
  have ordered := isOrdered.ordered
  rw [isList] at ordered listed
  obtain rfl | isLater := List.mem_cons.mp listed
  · exact Nat.le_of_eq starts.symm
  · have behind := (List.pairwise_cons.mp ordered).1 buffer isLater
    omega

/-- No size wraps around. -/
theorem binderAllocBufferSize_eq (listed : buffer ∈ alloc.buffers) :
    alloc.binderAllocBufferSize buffer =
      distance alloc.userData (alloc.buffer + alloc.bufferSize) alloc.buffers buffer := by
  have address := isOrdered.addresses buffer listed
  have size := isOrdered.size
  rw [binderAllocBufferSize, distance]
  cases isNext : binderBufferNext buffer alloc.buffers with
  | none =>
      have start := isOrdered.start_le listed
      have stop := isOrdered.inside buffer listed
      show Utils.sizeSub _ (alloc.userData buffer) = _ - alloc.userData buffer
      simp only [Utils.sizeSub, Utils.sizeAdd]
      omega
  | some next =>
      obtain ⟨isIn, behind⟩ := binderBufferNext_behind isOrdered.ordered isNext
      exact Utils.sizeSub_eq (isOrdered.addresses next isIn) (Nat.le_of_lt behind)

theorem binderAllocBufferSize_pos (listed : buffer ∈ alloc.buffers) :
    0 < alloc.binderAllocBufferSize buffer := by
  rw [isOrdered.binderAllocBufferSize_eq listed]
  exact distance_pos isOrdered.ordered isOrdered.inside listed

/-- The sizes add up to that of the region. -/
theorem sum_sizes : (alloc.buffers.map alloc.binderAllocBufferSize).sum = alloc.bufferSize := by
  have ordered := isOrdered.ordered
  have inside := isOrdered.inside
  have sizes : alloc.buffers.map alloc.binderAllocBufferSize = alloc.buffers.map
      (distance alloc.userData (alloc.buffer + alloc.bufferSize) alloc.buffers) :=
    List.map_congr_left fun buffer listed => isOrdered.binderAllocBufferSize_eq listed
  rw [sizes]
  obtain ⟨first, rest, isList, starts⟩ := isOrdered.buffers_eq
  rw [isList] at ordered inside ⊢
  rw [sum_distances ordered inside, starts, Nat.add_sub_cancel_left]

end Ordered

/-! ## The tree of the free buffers -/

/-- `binder_insert_free_buffer` goes right at buffers that are not larger. -/
theorem FreeTree.direction (isTree : alloc.FreeTree) (size : Nat) :
    ∀ buffer ∈ inOrder alloc.freeBuffers, alloc.freeDirection size buffer =
      behindRank size (alloc.binderAllocBufferSize buffer) := by
  intro buffer isIn
  rw [freeDirection, isTree.free buffer isIn, if_neg (by decide)]
  rfl

/-- A buffer was added to the tree behind those that are not larger, and nothing else was
changed. -/
structure Inserted (alloc : BinderAlloc) (newBuffer : Nat) (next : BinderAlloc) : Prop where
  rest : next = { alloc with freeBuffers := next.freeBuffers }
  between : ∃ smaller larger, inOrder alloc.freeBuffers = smaller ++ larger ∧
    inOrder next.freeBuffers = smaller ++ newBuffer :: larger ∧
    (∀ buffer ∈ smaller,
      alloc.binderAllocBufferSize buffer ≤ alloc.binderAllocBufferSize newBuffer) ∧
    ∀ buffer ∈ larger, alloc.binderAllocBufferSize newBuffer < alloc.binderAllocBufferSize buffer
  tree : next.FreeTree

theorem FreeTree.insert {rbInsertColor : BinaryTree Nat → BinaryTree Nat}
    (keeps : KeepsOrder rbInsertColor) (isTree : alloc.FreeTree) {newBuffer : Nat}
    (listed : newBuffer ∈ alloc.buffers) (isFree : (alloc.memory.block newBuffer).free = true) :
    ∃ next, alloc.binderInsertFreeBuffer rbInsertColor newBuffer = some next ∧
      alloc.Inserted newBuffer next := by
  have sameWay : descend (alloc.freeDirection (alloc.binderAllocBufferSize newBuffer)) []
      alloc.freeBuffers = descend (fun buffer => behindRank
        (alloc.binderAllocBufferSize newBuffer) (alloc.binderAllocBufferSize buffer)) []
          alloc.freeBuffers :=
    descend_congr (isTree.direction _)
  obtain ⟨path, placed⟩ : ∃ path, descend (fun buffer => behindRank
      (alloc.binderAllocBufferSize newBuffer) (alloc.binderAllocBufferSize buffer)) []
        alloc.freeBuffers = .place path :=
    descend_goes_on fun _ _ => behindRank_ne_eq _ _
  obtain ⟨smaller, larger, split, linked, isSmaller, isLarger, sorted⟩ :=
    link_behindRank isTree.sorted placed
  have inserted : inOrder (rbInsertColor (link newBuffer path)) = smaller ++ newBuffer :: larger :=
    (keeps _).trans linked
  have isOne : ∀ buffer ∈ inOrder (rbInsertColor (link newBuffer path)),
      buffer = newBuffer ∨ buffer ∈ inOrder alloc.freeBuffers := by
    intro buffer isIn
    rw [inserted] at isIn
    rw [split]
    simpa only [List.mem_append, List.mem_cons, or_left_comm] using isIn
  refine ⟨{ alloc with freeBuffers := rbInsertColor (link newBuffer path) }, ?_, rfl,
    ⟨smaller, larger, split, inserted, isSmaller, isLarger⟩, ?_, ?_, ?_⟩
  · rw [binderInsertFreeBuffer, isFree, if_neg (by decide), sameWay, placed]
  · intro buffer isIn
    obtain rfl | isOld := isOne buffer isIn
    · exact listed
    · exact isTree.listed buffer isOld
  · intro buffer isIn
    obtain rfl | isOld := isOne buffer isIn
    · exact isFree
    · exact isTree.free buffer isOld
  · show (inOrder (rbInsertColor (link newBuffer path))).Pairwise _
    rw [keeps]
    exact sorted

/-- The sizes are positive and add up to that of the region, and a free buffer is added to the
tree behind those of its size. -/
theorem free_buffers_ordered (isOrdered : alloc.Ordered) :
    (∀ buffer ∈ alloc.buffers, 0 < alloc.binderAllocBufferSize buffer) ∧
      (alloc.buffers.map alloc.binderAllocBufferSize).sum = alloc.bufferSize ∧
      (alloc.FreeTree → ∀ rbInsertColor : BinaryTree Nat → BinaryTree Nat,
        KeepsOrder rbInsertColor → ∀ newBuffer ∈ alloc.buffers,
          (alloc.memory.block newBuffer).free = true →
            ∃ next, alloc.binderInsertFreeBuffer rbInsertColor newBuffer = some next ∧
              alloc.Inserted newBuffer next) := by
  refine ⟨fun buffer listed => isOrdered.binderAllocBufferSize_pos listed, isOrdered.sum_sizes, ?_⟩
  intro isTree rbInsertColor keeps newBuffer listed isFree
  exact isTree.insert keeps listed isFree

/-- Two pages, of which the tree has the first. -/
def twoPages : BinderAlloc :=
  { init with
    buffer := 4096
    buffers := [0, 1]
    freeBuffers := .node 0 .nil .nil
    bufferSize := 8192
    memory := {
      block := fun name => ⟨4096 * (name + 1), true⟩
      allocated := 2
      freed := [] } }

theorem free_buffers_ordered_two :
    (twoPages.buffers.map twoPages.binderAllocBufferSize).sum = 8192 ∧
      ∃ next, twoPages.binderInsertFreeBuffer id 1 = some next ∧ twoPages.Inserted 1 next := by
  have isOrdered : twoPages.Ordered := ⟨rfl, by decide, by decide, by decide, by decide⟩
  have isTree : twoPages.FreeTree := ⟨by decide, by decide, by decide⟩
  obtain ⟨-, sum, inserts⟩ := free_buffers_ordered isOrdered
  exact ⟨sum, inserts isTree id keepsOrder_id 1 (by decide) rfl⟩

end BinderAlloc

end DroidKernal.Binder
