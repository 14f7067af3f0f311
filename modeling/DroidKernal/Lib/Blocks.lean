import Mathlib.Data.List.Nodup
import Mathlib.Logic.Function.Basic

/-!
# Allocated blocks

A heap as far as it matters which blocks are in use: blocks are named in the order
of their allocation, a name is never given away again, and the list of the freed
names shows a block that is freed twice.
-/

namespace Lib

/-- The blocks, how many there were, and the names of those that were freed. -/
structure Blocks (β : Type*) where
  block : Nat → β
  allocated : Nat
  freed : List Nat

namespace Blocks

variable {β : Type*}

/-- The block was allocated and not freed. -/
def Live (blocks : Blocks β) (name : Nat) : Prop :=
  name < blocks.allocated ∧ name ∉ blocks.freed

/-- Allocate a block.  Its name is the number of the blocks before it. -/
def add (blocks : Blocks β) (content : β) : Blocks β :=
  { blocks with
    block := Function.update blocks.block blocks.allocated content
    allocated := blocks.allocated + 1 }

/-- Store into a block. -/
def set (blocks : Blocks β) (name : Nat) (content : β) : Blocks β :=
  { blocks with block := Function.update blocks.block name content }

/-- Free a block. -/
def free (blocks : Blocks β) (name : Nat) : Blocks β :=
  { blocks with freed := blocks.freed ++ [name] }

/-- Part of what the blocks hold. -/
def map {γ : Type*} (f : β → γ) (blocks : Blocks β) : Blocks γ where
  block := f ∘ blocks.block
  allocated := blocks.allocated
  freed := blocks.freed

/-- Only allocated blocks were freed, and each of them once. -/
structure Sane (blocks : Blocks β) : Prop where
  known : ∀ name ∈ blocks.freed, name < blocks.allocated
  once : blocks.freed.Nodup

section Lemmas

variable {blocks : Blocks β} {name other : Nat} {content : β}

theorem Live.ne_new (live : blocks.Live name) : name ≠ blocks.allocated :=
  Nat.ne_of_lt live.1

@[simp] theorem add_block_new : (blocks.add content).block blocks.allocated = content :=
  Function.update_self ..

theorem add_block (old : name ≠ blocks.allocated) :
    (blocks.add content).block name = blocks.block name :=
  Function.update_of_ne old ..

@[simp] theorem set_block_self : (blocks.set name content).block name = content :=
  Function.update_self ..

theorem set_block (differ : other ≠ name) :
    (blocks.set name content).block other = blocks.block other :=
  Function.update_of_ne differ ..

/-- What a store does not change. -/
theorem set_field {α : Type*} (field : β → α) (same : field content = field (blocks.block name))
    (other : Nat) : field ((blocks.set name content).block other) = field (blocks.block other) := by
  by_cases isHere : other = name
  · rw [isHere, set_block_self, same]
  · rw [set_block isHere]

@[simp] theorem set_set {after : β} :
    (blocks.set name content).set name after = blocks.set name after := by
  simp [set]

@[simp] theorem free_block : (blocks.free name).block other = blocks.block other := rfl

@[simp] theorem add_freed : (blocks.add content).freed = blocks.freed := rfl

@[simp] theorem set_freed : (blocks.set name content).freed = blocks.freed := rfl

@[simp] theorem free_freed : (blocks.free name).freed = blocks.freed ++ [name] := rfl

@[simp] theorem add_allocated : (blocks.add content).allocated = blocks.allocated + 1 := rfl

@[simp] theorem set_allocated : (blocks.set name content).allocated = blocks.allocated := rfl

@[simp] theorem free_allocated : (blocks.free name).allocated = blocks.allocated := rfl

section Map

variable {γ : Type*} (f : β → γ)

@[simp] theorem map_block : (blocks.map f).block name = f (blocks.block name) := rfl

@[simp] theorem map_allocated : (blocks.map f).allocated = blocks.allocated := rfl

theorem map_add : (blocks.add content).map f = (blocks.map f).add (f content) := by
  simp only [map, add, Function.comp_update]

theorem map_set : (blocks.set name content).map f = (blocks.map f).set name (f content) := by
  simp only [map, set, Function.comp_update]

end Map

@[simp] theorem live_set : (blocks.set name content).Live other ↔ blocks.Live other := Iff.rfl

theorem Live.add (live : blocks.Live name) : (blocks.add content).Live name :=
  ⟨Nat.lt_succ_of_lt live.1, live.2⟩

theorem Sane.live_new (sane : blocks.Sane) : (blocks.add content).Live blocks.allocated :=
  ⟨Nat.lt_succ_self _, fun freed => Nat.lt_irrefl _ (sane.known _ freed)⟩

theorem live_add (sane : blocks.Sane) :
    (blocks.add content).Live name ↔ blocks.Live name ∨ name = blocks.allocated := by
  constructor
  · intro live
    rcases Nat.lt_succ_iff_lt_or_eq.mp live.1 with old | new
    · exact .inl ⟨old, live.2⟩
    · exact .inr new
  · rintro (live | rfl)
    · exact live.add
    · exact sane.live_new

@[simp] theorem live_free :
    (blocks.free name).Live other ↔ blocks.Live other ∧ other ≠ name := by
  simp [Live, and_assoc]

theorem Sane.add (sane : blocks.Sane) : (blocks.add content).Sane where
  known := fun name isFreed => Nat.lt_succ_of_lt (sane.known name isFreed)
  once := sane.once

theorem Sane.set (sane : blocks.Sane) : (blocks.set name content).Sane where
  known := sane.known
  once := sane.once

theorem Sane.free (sane : blocks.Sane) (live : blocks.Live name) : (blocks.free name).Sane where
  known := by
    intro other isFreed
    rcases List.mem_append.mp isFreed with before | last
    · exact sane.known other before
    · cases List.mem_singleton.mp last
      exact live.1
  once := by
    rw [free_freed, List.nodup_append]
    refine ⟨sane.once, List.nodup_singleton name, ?_⟩
    rintro other before _ last rfl
    cases List.mem_singleton.mp last
    exact live.2 before

end Lemmas

end Blocks

end Lib
