import DroidKernal.Lib.Blocks
import Mathlib.Algebra.Order.Ring.Int

/-!
# SharedBuffer

The counted buffers of `SharedBuffer.cpp`, over a heap of blocks.  The contents of a
buffer are cells of one size: the bytes of a string, or slots for elements.  A row of
cells has no end, so it is the memory of the code only as far as `mSize` goes, and only
where that many bytes and the header were asked for.  No function increments `mRefs`,
which `alloc` sets to one.
-/

namespace DroidKernal.Utils

open Lib

/-- A `SharedBuffer`: its count, its size in bytes, and its cells. -/
structure CountedBuffer (α : Type*) where
  mRefs : Int
  mSize : Nat
  cells : Nat → α

/-- The heap of buffers. -/
abbrev Storage (α : Type*) := Blocks (CountedBuffer α)

/-- The outcome of the allocations of one operation, by the number of bytes asked for: the
cells of the new memory, or null.  `realloc` may return another block. -/
structure Allocator (α : Type*) where
  malloc : Nat → Option (Nat → α)
  realloc : Nat → Option (Nat → α)
  moves : Bool

/-- `sizeof(SharedBuffer)`. -/
def sizeofSharedBuffer : Nat := 24

/-- `sizeof(SharedBuffer) + size`, computed in `size_t`. -/
def bufferBytes (size : Nat) : Nat := (sizeofSharedBuffer + size) % 2 ^ 64

theorem bufferBytes_pos {size : Nat} (small : sizeofSharedBuffer + size < 2 ^ 64) :
    0 < bufferBytes size := by
  rw [bufferBytes, Nat.mod_eq_of_lt small]
  exact Nat.lt_of_lt_of_le (by decide) (Nat.le_add_right ..)

variable {α : Type*}

namespace Allocator

/-- The memory of a new buffer. -/
def mallocBuffer (a : Allocator α) (size : Nat) : Option (Nat → α) := a.malloc (bufferBytes size)

/-- The memory of a resized buffer. -/
def reallocBuffer (a : Allocator α) (newSize : Nat) : Option (Nat → α) :=
  a.realloc (bufferBytes newSize)

/-- The buffer is still there when `realloc` returns null: it was not asked for no bytes. -/
def KeepsBuffer (a : Allocator α) (newSize : Nat) : Prop :=
  a.reallocBuffer newSize = none → 0 < bufferBytes newSize

end Allocator

/-- What a buffer holds after its cells were copied to memory of another size. -/
def CountedBuffer.resized (cellSize : Nat) (buffer : CountedBuffer α) (newSize : Nat)
    (cells : Nat → α) : CountedBuffer α :=
  { buffer with
    mSize := newSize
    cells := fun i =>
      if i < min buffer.mSize newSize / cellSize then buffer.cells i else cells i }

namespace Storage

/-- `SharedBuffer::alloc`. -/
def alloc (a : Allocator α) (storage : Storage α) (size : Nat) : Option Nat × Storage α :=
  match a.mallocBuffer size with
  | some cells => (some storage.allocated, storage.add { mRefs := 1, mSize := size, cells })
  | none => (none, storage)

/-- `onlyOwner`. -/
def onlyOwner (storage : Storage α) (buf : Nat) : Bool := (storage.block buf).mRefs = 1

/-- `attemptEdit`. -/
def attemptEdit (storage : Storage α) (buf : Nat) : Option Nat :=
  if storage.onlyOwner buf then some buf else none

/-- A store to `mRefs`. -/
def setRefs (storage : Storage α) (buf : Nat) (mRefs : Int) : Storage α :=
  storage.set buf { storage.block buf with mRefs }

/-- `release`, with or without `eKeepStorage`. -/
def release (storage : Storage α) (buf : Nat) (keepStorage : Bool) : Int × Storage α :=
  if storage.onlyOwner buf then
    let dropped := storage.setRefs buf 0
    (1, if keepStorage then dropped else dropped.free buf)
  else
    let prevRefCount := (storage.block buf).mRefs
    let dropped := storage.setRefs buf (prevRefCount - 1)
    (prevRefCount, if prevRefCount = 1 ∧ ¬ keepStorage then dropped.free buf else dropped)

/-- The end of `editResize`: a new buffer, and the old one is released. -/
def replace (a : Allocator α) (cellSize : Nat) (storage : Storage α) (buf newSize : Nat) :
    Option Nat × Storage α :=
  match a.mallocBuffer newSize with
  | some cells =>
      let copy := { (storage.block buf).resized cellSize newSize cells with mRefs := 1 }
      (some storage.allocated, (release (storage.add copy) buf false).2)
  | none => (none, storage)

/-- `editResize`.  `realloc` of no bytes frees the buffer and returns null. -/
def editResize (a : Allocator α) (cellSize : Nat) (storage : Storage α) (buf newSize : Nat) :
    Option Nat × Storage α :=
  if storage.onlyOwner buf then
    if (storage.block buf).mSize = newSize then (some buf, storage)
    else
      match a.reallocBuffer newSize with
      | some cells =>
          let resized := (storage.block buf).resized cellSize newSize cells
          if a.moves then (some storage.allocated, (storage.add resized).free buf)
          else (some buf, storage.set buf resized)
      | none =>
          let kept := if bufferBytes newSize = 0 then storage.free buf else storage
          replace a cellSize kept buf newSize
  else replace a cellSize storage buf newSize

/-- `release` touches one buffer. -/
theorem release_block (storage : Storage α) {buf other : Nat} (differ : other ≠ buf)
    (keepStorage : Bool) :
    (storage.release buf keepStorage).2.block other = storage.block other := by
  rw [release]
  split
  next =>
    cases keepStorage
    · exact Blocks.set_block differ
    · exact Blocks.set_block differ
  next =>
    simp only
    split
    · exact Blocks.set_block differ
    · exact Blocks.set_block differ

/-- What `editResize` makes a new buffer of. -/
theorem replace_found {a : Allocator α} {newSize : Nat} {cells : Nat → α}
    (found : a.mallocBuffer newSize = some cells) (cellSize : Nat) (storage : Storage α) {buf : Nat}
    (old : buf < storage.allocated) :
    ∃ after, storage.replace a cellSize buf newSize = (some storage.allocated, after) ∧
      (after.block storage.allocated).mSize = newSize := by
  rw [replace, found]
  refine ⟨_, rfl, ?_⟩
  rw [release_block _ (Nat.ne_of_gt old), Blocks.add_block_new]
  rfl

/-! ## Buffers with one owner -/

/-- Every buffer in use has one owner. -/
structure Exclusive (storage : Storage α) : Prop where
  sane : storage.Sane
  refs : ∀ buf, storage.Live buf → (storage.block buf).mRefs = 1

section Exclusive

variable {storage : Storage α} {buf : Nat} {buffer : CountedBuffer α}

theorem Exclusive.onlyOwner (exclusive : storage.Exclusive) (live : storage.Live buf) :
    storage.onlyOwner buf = true := by
  rw [Storage.onlyOwner, exclusive.refs buf live]
  rfl

theorem Exclusive.attemptEdit (exclusive : storage.Exclusive) (live : storage.Live buf) :
    storage.attemptEdit buf = some buf := by
  rw [Storage.attemptEdit, if_pos (exclusive.onlyOwner live)]

/-- The heap without a buffer that its owner released. -/
def drop (storage : Storage α) (buf : Nat) : Storage α := (storage.setRefs buf 0).free buf

theorem Exclusive.release (exclusive : storage.Exclusive) (live : storage.Live buf) :
    storage.release buf false = (1, storage.drop buf) := by
  rw [Storage.release, if_pos (exclusive.onlyOwner live)]
  rfl

@[simp] theorem drop_allocated : (storage.drop buf).allocated = storage.allocated := rfl

@[simp] theorem drop_freed : (storage.drop buf).freed = storage.freed ++ [buf] := rfl

theorem drop_block {other : Nat} (differ : other ≠ buf) :
    (storage.drop buf).block other = storage.block other :=
  Blocks.set_block differ

@[simp] theorem live_drop {other : Nat} :
    (storage.drop buf).Live other ↔ storage.Live other ∧ other ≠ buf :=
  Blocks.live_free

theorem Exclusive.drop (exclusive : storage.Exclusive) (live : storage.Live buf) :
    (storage.drop buf).Exclusive where
  sane := exclusive.sane.set.free live
  refs := by
    intro other otherLive
    obtain ⟨wasLive, differ⟩ := live_drop.mp otherLive
    rw [drop_block differ]
    exact exclusive.refs other wasLive

theorem Exclusive.add (exclusive : storage.Exclusive) (one : buffer.mRefs = 1) :
    Exclusive (storage.add buffer) where
  sane := exclusive.sane.add
  refs := by
    intro other otherLive
    rcases (Blocks.live_add exclusive.sane).mp otherLive with old | rfl
    · rw [Blocks.add_block old.ne_new]
      exact exclusive.refs other old
    · rw [Blocks.add_block_new]
      exact one

theorem Exclusive.set (exclusive : storage.Exclusive) (one : buffer.mRefs = 1) :
    Exclusive (storage.set buf buffer) where
  sane := exclusive.sane.set
  refs := by
    intro other otherLive
    by_cases same : other = buf
    · subst same
      rw [Blocks.set_block_self]
      exact one
    · rw [Blocks.set_block same]
      exact exclusive.refs other (Blocks.live_set.mp otherLive)

theorem Exclusive.free (exclusive : storage.Exclusive) (live : storage.Live buf) :
    Exclusive (storage.free buf) where
  sane := exclusive.sane.free live
  refs := by
    intro other otherLive
    exact exclusive.refs other (Blocks.live_free.mp otherLive).1

/-- What resizing a buffer with one owner does: nothing where it already has the size
or no memory is found; otherwise the buffer changes in place, or its contents move to
a new one and it is freed. -/
inductive Resizes (a : Allocator α) (cellSize : Nat) (storage : Storage α) (buf newSize : Nat) :
    Option Nat × Storage α → Prop where
  | same (size : (storage.block buf).mSize = newSize) :
      Resizes a cellSize storage buf newSize (some buf, storage)
  | failed (noRealloc : a.reallocBuffer newSize = none)
      (noMalloc : a.mallocBuffer newSize = none) :
      Resizes a cellSize storage buf newSize (none, storage)
  | inPlace (cells : Nat → α) (found : a.reallocBuffer newSize = some cells) :
      Resizes a cellSize storage buf newSize
        (some buf, storage.set buf ((storage.block buf).resized cellSize newSize cells))
  | moved (cells : Nat → α) {after : Storage α}
      (found : a.reallocBuffer newSize = some cells ∨ a.mallocBuffer newSize = some cells)
      (exclusive : after.Exclusive)
      (allocated : after.allocated = storage.allocated + 1)
      (freed : after.freed = storage.freed ++ [buf])
      (new : after.block storage.allocated =
        (storage.block buf).resized cellSize newSize cells)
      (kept : ∀ other, other ≠ storage.allocated → other ≠ buf →
        after.block other = storage.block other) :
      Resizes a cellSize storage buf newSize (some storage.allocated, after)

theorem Exclusive.replace_resizes (exclusive : storage.Exclusive) (live : storage.Live buf)
    (a : Allocator α) (cellSize newSize : Nat) (noRealloc : a.reallocBuffer newSize = none) :
    Resizes a cellSize storage buf newSize (storage.replace a cellSize buf newSize) := by
  rw [replace]
  cases found : a.mallocBuffer newSize with
  | none => exact .failed noRealloc found
  | some cells =>
      have one := exclusive.refs buf live
      have copy : { (storage.block buf).resized cellSize newSize cells with mRefs := 1 } =
          (storage.block buf).resized cellSize newSize cells := by
        rw [CountedBuffer.resized, one]
      have added : Exclusive (storage.add ((storage.block buf).resized cellSize newSize cells)) :=
        exclusive.add one
      simp only [copy]
      rw [added.release live.add]
      refine .moved cells (.inr found) (added.drop live.add) rfl rfl ?_ ?_
      · rw [drop_block live.ne_new.symm, Blocks.add_block_new]
      · intro other old differ
        rw [drop_block differ, Blocks.add_block old]

theorem Exclusive.editResize_resizes (exclusive : storage.Exclusive) (live : storage.Live buf)
    (a : Allocator α) (cellSize newSize : Nat) (keeps : a.KeepsBuffer newSize) :
    Resizes a cellSize storage buf newSize (storage.editResize a cellSize buf newSize) := by
  rw [editResize, if_pos (exclusive.onlyOwner live)]
  split
  next size => exact .same size
  next =>
    cases found : a.reallocBuffer newSize with
    | none =>
        simp only [if_neg (Nat.ne_of_gt (keeps found))]
        exact exclusive.replace_resizes live a cellSize newSize found
    | some cells =>
        have one := exclusive.refs buf live
        simp only
        split
        next =>
          have added : Exclusive (storage.add ((storage.block buf).resized cellSize newSize cells)) :=
            exclusive.add one
          refine .moved cells (.inl found) (added.free live.add) rfl rfl Blocks.add_block_new ?_
          intro other old _
          exact Blocks.add_block old
        next => exact .inPlace cells found

/-- Resizing fails where the size differs and neither call finds memory; and then the buffer
is lost if `realloc` was asked for no bytes. -/
theorem Exclusive.editResize_cases (exclusive : storage.Exclusive) (live : storage.Live buf)
    (a : Allocator α) (cellSize newSize : Nat) :
    ((storage.block buf).mSize ≠ newSize ∧ a.reallocBuffer newSize = none ∧
        a.mallocBuffer newSize = none ∧
        (0 < bufferBytes newSize ∧
            storage.editResize a cellSize buf newSize = (none, storage) ∨
          bufferBytes newSize = 0 ∧
            storage.editResize a cellSize buf newSize = (none, storage.free buf))) ∨
      ((storage.block buf).mSize = newSize ∨ a.reallocBuffer newSize ≠ none ∨
          a.mallocBuffer newSize ≠ none) ∧
        ∃ resized after, storage.editResize a cellSize buf newSize = (some resized, after) ∧
          (after.block resized).mSize = newSize := by
  rw [editResize, if_pos (exclusive.onlyOwner live)]
  by_cases same : (storage.block buf).mSize = newSize
  · rw [if_pos same]
    exact .inr ⟨.inl same, buf, storage, rfl, same⟩
  rw [if_neg same]
  cases isRealloc : a.reallocBuffer newSize with
  | some cells =>
      refine .inr ⟨.inr (.inl (Option.some_ne_none cells)), ?_⟩
      simp only
      split
      next =>
        refine ⟨_, _, rfl, ?_⟩
        rw [Blocks.free_block, Blocks.add_block_new]
        rfl
      next =>
        refine ⟨_, _, rfl, ?_⟩
        rw [Blocks.set_block_self]
        rfl
  | none =>
      simp only
      cases isMalloc : a.mallocBuffer newSize with
      | some cells =>
          refine .inr ⟨.inr (.inr (Option.some_ne_none cells)), ?_⟩
          split
          next =>
            obtain ⟨after, replaced, bytes⟩ :=
              replace_found isMalloc cellSize (storage.free buf) live.1
            exact ⟨_, after, replaced, bytes⟩
          next =>
            obtain ⟨after, replaced, bytes⟩ := replace_found isMalloc cellSize storage live.1
            exact ⟨_, after, replaced, bytes⟩
      | none =>
          refine .inl ⟨same, trivial, rfl, ?_⟩
          simp only [replace, isMalloc]
          split
          next nothing => exact .inr ⟨nothing, rfl⟩
          next something => exact .inl ⟨Nat.pos_of_ne_zero something, rfl⟩

/-- Where `realloc` frees the buffer, it is lost or freed once more. -/
theorem Exclusive.editResize_loses (exclusive : storage.Exclusive) (live : storage.Live buf)
    {a : Allocator α} {cellSize newSize : Nat} (differs : (storage.block buf).mSize ≠ newSize)
    (loses : ¬ a.KeepsBuffer newSize) :
    storage.editResize a cellSize buf newSize = (none, storage.free buf) ∨
      ∃ after, storage.editResize a cellSize buf newSize = (some storage.allocated, after) ∧
        after.freed = storage.freed ++ [buf] ++ [buf] := by
  obtain ⟨noRealloc, nothing⟩ := Classical.not_imp.mp loses
  rw [editResize, if_pos (exclusive.onlyOwner live), if_neg differs, noRealloc]
  simp only [if_pos (Nat.eq_zero_of_not_pos nothing), replace]
  cases a.mallocBuffer newSize with
  | none => exact .inl rfl
  | some cells =>
      refine .inr ⟨_, rfl, ?_⟩
      have only : ∀ copy : CountedBuffer α,
          Storage.onlyOwner ((storage.free buf).add copy) buf = true := by
        intro copy
        have old : buf ≠ (storage.free buf).allocated := live.ne_new
        rw [Storage.onlyOwner, Blocks.add_block old, Blocks.free_block, exclusive.refs buf live]
        rfl
      rw [Storage.release, if_pos (only _)]
      rfl

end Exclusive

end Storage

end DroidKernal.Utils
