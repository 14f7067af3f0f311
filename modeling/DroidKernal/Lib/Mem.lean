import Mathlib.Data.List.Basic

/-!
# Byte memory

Memory is a function from offsets to cells, so a store outside an object is
representable: it changes the cells that follow the object.
-/

namespace Lib

variable {β : Type}

namespace Mem

/-- Store cells at consecutive offsets. -/
def write (mem : Nat → β) (off : Nat) (cells : List β) : Nat → β :=
  fun i => if off ≤ i then cells[i - off]?.getD (mem i) else mem i

/-- Load `len` cells from consecutive offsets. -/
def read (mem : Nat → β) (off len : Nat) : List β :=
  (List.range len).map fun i => mem (off + i)

@[simp] theorem read_length (mem : Nat → β) (off len : Nat) :
    (read mem off len).length = len := by
  simp [read]

@[simp] theorem read_getElem (mem : Nat → β) (off len i : Nat)
    (bound : i < (read mem off len).length) :
    (read mem off len)[i] = mem (off + i) := by
  simp [read]

@[simp] theorem write_nil (mem : Nat → β) (off : Nat) : write mem off [] = mem := by
  funext i
  simp [write]

theorem write_inside (mem : Nat → β) {off i : Nat} {cells : List β}
    (bound : i < cells.length) : write mem off cells (off + i) = cells[i] := by
  simp [write, bound]

theorem write_outside (mem : Nat → β) {off i : Nat} {cells : List β}
    (outside : i < off ∨ off + cells.length ≤ i) : write mem off cells i = mem i := by
  simp only [write]
  split
  next after =>
    rw [List.getElem?_eq_none (by omega)]
    rfl
  next => rfl

/-- What a store leaves in a cell depends on the cell only outside of the store. -/
theorem write_congr {before after : Nat → β} {off i : Nat} {cells : List β}
    (same : (off ≤ i ∧ i < off + cells.length) ∨ after i = before i) :
    write after off cells i = write before off cells i := by
  by_cases inside : off ≤ i ∧ i < off + cells.length
  · obtain ⟨starts, ends⟩ := inside
    obtain ⟨k, rfl⟩ := Nat.exists_eq_add_of_le starts
    rw [write_inside after (by omega), write_inside before (by omega)]
  · rw [write_outside after (by omega), write_outside before (by omega)]
    exact same.resolve_left inside

/-- A store in two parts. -/
theorem write_append (mem : Nat → β) (off : Nat) (first second : List β) :
    write mem off (first ++ second) = write (write mem off first) (off + first.length) second := by
  funext i
  simp only [write]
  by_cases inFirst : i < off + first.length
  · rw [if_neg (show ¬ off + first.length ≤ i by omega)]
    split
    next after => rw [List.getElem?_append_left (by omega)]
    next => rfl
  · have after : off ≤ i := by omega
    rw [if_pos after, if_pos after, if_pos (show off + first.length ≤ i by omega),
      List.getElem?_append_right (by omega), List.getElem?_eq_none (l := first) (by omega),
      Nat.sub_sub]
    rfl

/-- Loading is determined by the loaded cells alone. -/
theorem read_congr {before after : Nat → β} {off len : Nat}
    (same : ∀ i, i < len → after (off + i) = before (off + i)) :
    read after off len = read before off len := by
  apply List.map_congr_left
  intro i member
  exact same i (List.mem_range.mp member)

/-- A load in two parts. -/
theorem read_add (mem : Nat → β) (off first second : Nat) :
    read mem off (first + second) = read mem off first ++ read mem (off + first) second := by
  rw [read, List.range_add, List.map_append, List.map_map]
  congr 1
  apply List.map_congr_left
  intro i _
  rw [Function.comp_apply, Nat.add_assoc]

/-- A load of exactly the stored cells returns them. -/
theorem read_write (mem : Nat → β) (off : Nat) (cells : List β) :
    read (write mem off cells) off cells.length = cells := by
  apply List.ext_getElem
  · simp
  · intro i bound stored
    rw [read_getElem, write_inside]

/-- Cells stored after the ones loaded before. -/
theorem read_write_append {mem : Nat → β} {before : List β} (cells : List β)
    (held : read mem 0 before.length = before) :
    read (write mem before.length cells) 0 (before.length + cells.length) = before ++ cells := by
  have kept : read (write mem before.length cells) 0 before.length = read mem 0 before.length := by
    apply read_congr
    intro i bound
    exact write_outside mem (.inl (by omega))
  rw [read_add, kept, held, Nat.zero_add, read_write]

end Mem

end Lib
