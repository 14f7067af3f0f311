import DroidKernal.Lib.Mem
import Mathlib.Data.Nat.ModEq

/-!
# Ring buffers

A ring of `size` cells is described by positions that never wrap; position
`pos` lives in cell `pos % size`.  Everything about wrap-around is confined to
this module: a block written in two linear pieces is `Holds` at its position,
and a write of `len` cells at one position keeps every block that lies at most
one revolution behind its end.
-/

namespace Lib

variable {β : Type}

namespace Ring

/-- Positions less than one revolution apart live in different cells. -/
theorem mod_ne {size near far : Nat} (ordered : near < far)
    (close : far < near + size) : near % size ≠ far % size := by
  intro equal
  have divides : size ∣ far - near := (Nat.modEq_iff_dvd' ordered.le).mp equal
  have := Nat.le_of_dvd (by omega) divides
  omega

/-- The forward distance from a cell to the cell `len` positions later. -/
theorem forward_distance {size off len : Nat} (inRing : off < size) (room : len < size) :
    ((off + len) % size + size - off) % size = len := by
  by_cases wraps : off + len < size
  · rw [Nat.mod_eq_of_lt wraps]
    have sum : off + len + size - off = len + size := by omega
    rw [sum, Nat.add_mod_right, Nat.mod_eq_of_lt room]
  · have reduced : (off + len) % size = off + len - size := by
      rw [Nat.mod_eq_sub_mod (by omega), Nat.mod_eq_of_lt (by omega)]
    have sum : off + len - size + size - off = len := by omega
    rw [reduced, sum, Nat.mod_eq_of_lt room]

/-- The ring cells from position `pos` on contain `cells`. -/
def Holds (size : Nat) (mem : Nat → β) (pos : Nat) (cells : List β) : Prop :=
  ∀ i (bound : i < cells.length), mem ((pos + i) % size) = cells[i]

/-- `after` differs from `before` only in cells that the `len` positions from
`pos` on occupy. -/
def AgreesOutside (size pos len : Nat) (before after : Nat → β) : Prop :=
  ∀ i, i < size → (∀ j, j < len → i ≠ (pos + j) % size) → after i = before i

section Holds

variable {size pos : Nat} {mem : Nat → β}

@[simp] theorem Holds.nil : Holds size mem pos [] := by
  intro i bound
  cases bound

/-- Only the cell of a position matters. -/
theorem holds_mod {cells : List β} :
    Holds size mem (pos % size) cells ↔ Holds size mem pos cells := by
  simp only [Holds, Nat.mod_add_mod]

theorem holds_append {left right : List β} :
    Holds size mem pos (left ++ right) ↔
      Holds size mem pos left ∧ Holds size mem (pos + left.length) right := by
  constructor
  · intro both
    constructor
    · intro i bound
      have := both i (by simp; omega)
      rwa [List.getElem_append_left bound] at this
    · intro i bound
      have := both (left.length + i) (by simp; omega)
      rw [List.getElem_append_right (by omega)] at this
      simpa [Nat.add_assoc] using this
  · rintro ⟨first, second⟩ i bound
    rw [List.length_append] at bound
    by_cases inLeft : i < left.length
    · rw [List.getElem_append_left inLeft]
      exact first i inLeft
    · rw [List.getElem_append_right (by omega)]
      have := second (i - left.length) (by omega)
      rwa [Nat.add_assoc, Nat.add_sub_cancel' (by omega)] at this

/-- Two blocks of one length held at one position are equal. -/
theorem Holds.unique {left right : List β} (first : Holds size mem pos left)
    (second : Holds size mem pos right) (sameLength : left.length = right.length) :
    left = right := by
  apply List.ext_getElem sameLength
  intro i inLeft inRight
  rw [← first i inLeft, second i inRight]

/-- A block survives a write that starts after it and ends less than one
revolution after the block's start. -/
theorem Holds.frame {before after : Nat → β} {cells : List β} {at' len : Nat}
    (held : Holds size before pos cells) (positive : 0 < size)
    (agrees : AgreesOutside size at' len before after)
    (starts : pos + cells.length ≤ at') (ends : at' + len ≤ pos + size) :
    Holds size after pos cells := by
  intro i bound
  rw [agrees _ (Nat.mod_lt _ positive), held i bound]
  intro j inside
  exact mod_ne (by omega) (by omega)

/-- The two linear loads of a wrapping block, as a reader performs them. -/
theorem Holds.read_split {off : Nat} {cells : List β}
    (held : Holds size mem off cells) (inRing : off < size)
    (fits : cells.length ≤ size) :
    Mem.read mem off (min cells.length (size - off)) ++
        Mem.read mem 0 (cells.length - min cells.length (size - off)) = cells := by
  apply List.ext_getElem
  · simp
  · intro i bound inCells
    by_cases first : i < min cells.length (size - off)
    · rw [List.getElem_append_left (by simpa using first), Mem.read_getElem]
      have := held i inCells
      rwa [Nat.mod_eq_of_lt (by omega)] at this
    · rw [List.getElem_append_right (by simp; omega), Mem.read_getElem]
      have := held i inCells
      rw [Nat.mod_eq_sub_mod (by omega), Nat.mod_eq_of_lt (by omega)] at this
      rw [← this]
      congr 1
      simp
      omega

end Holds

section Agrees

variable {size pos : Nat} {before middle after : Nat → β}

theorem AgreesOutside.refl {len : Nat} (mem : Nat → β) :
    AgreesOutside size pos len mem mem :=
  fun _ _ _ => rfl

theorem AgreesOutside.mono {len longer : Nat}
    (agrees : AgreesOutside size pos len before after) (wider : len ≤ longer) :
    AgreesOutside size pos longer before after :=
  fun i inRing outside => agrees i inRing fun j bound => outside j (by omega)

/-- Only the cell of the position matters. -/
theorem agreesOutside_mod {len : Nat} :
    AgreesOutside size (pos % size) len before after ↔
      AgreesOutside size pos len before after := by
  simp only [AgreesOutside, Nat.mod_add_mod]

/-- Consecutive writes change consecutive positions. -/
theorem AgreesOutside.append {len more : Nat}
    (first : AgreesOutside size pos len before middle)
    (second : AgreesOutside size (pos + len) more middle after) :
    AgreesOutside size pos (len + more) before after := by
  intro i inRing outside
  rw [second i inRing fun j bound => ?_, first i inRing fun j bound => ?_]
  · exact outside j (by omega)
  · have := outside (len + j) (by omega)
    rwa [← Nat.add_assoc] at this

/-- A linear write that stays inside the ring. -/
theorem agreesOutside_write (size : Nat) (mem : Nat → β) {off : Nat} {cells : List β}
    (inside : off + cells.length ≤ size) :
    AgreesOutside size off cells.length mem (Mem.write mem off cells) := by
  intro i inRing outside
  apply Mem.write_outside
  by_contra covered
  have := outside (i - off) (by omega)
  rw [Nat.mod_eq_of_lt (by omega)] at this
  omega

/-- The second piece of a wrapping write, at offset zero, occupies the
positions from the end of the ring on. -/
theorem agreesOutside_write_zero (size : Nat) (mem : Nat → β) {cells : List β}
    (inside : cells.length ≤ size) :
    AgreesOutside size size cells.length mem (Mem.write mem 0 cells) := by
  rw [← agreesOutside_mod, Nat.mod_self]
  exact agreesOutside_write size mem (by omega)

end Agrees

/-- A block written in two linear pieces, as a writer performs it: up to the
end of the ring, then the rest from offset zero. -/
def storeSplit (size : Nat) (mem : Nat → β) (off : Nat) (cells : List β) : Nat → β :=
  Mem.write (Mem.write mem off (cells.take (size - off))) 0 (cells.drop (size - off))

theorem holds_storeSplit (size : Nat) (mem : Nat → β) {off : Nat} (cells : List β)
    (inRing : off < size) (fits : cells.length ≤ size) :
    Holds size (storeSplit size mem off cells) off cells := by
  intro i bound
  simp only [storeSplit]
  by_cases first : off + i < size
  · rw [Nat.mod_eq_of_lt first, Mem.write_outside _ (by simp; omega),
      Mem.write_inside _ (by simp; omega)]
    simp
  · rw [Nat.mod_eq_sub_mod (by omega), Nat.mod_eq_of_lt (by omega)]
    have rest : off + i - size = 0 + (i - (size - off)) := by omega
    rw [rest, Mem.write_inside _ (by simp; omega)]
    simp [Nat.add_sub_cancel' (show size - off ≤ i by omega)]

/-- What a wrapping write of at most one revolution leaves unchanged. -/
theorem agreesOutside_storeSplit (size : Nat) (mem : Nat → β) {off : Nat}
    (cells : List β) (inRing : off < size) (fits : cells.length ≤ size) :
    AgreesOutside size off cells.length mem (storeSplit size mem off cells) := by
  simp only [storeSplit]
  by_cases wraps : size - off ≤ cells.length
  · have first : AgreesOutside size off (cells.take (size - off)).length mem
        (Mem.write mem off (cells.take (size - off))) :=
      agreesOutside_write size mem (by simp; omega)
    have start : off + (cells.take (size - off)).length = size := by
      rw [List.length_take]
      omega
    have second : AgreesOutside size (off + (cells.take (size - off)).length)
        (cells.drop (size - off)).length (Mem.write mem off (cells.take (size - off)))
        (Mem.write (Mem.write mem off (cells.take (size - off))) 0
          (cells.drop (size - off))) := by
      rw [start]
      exact agreesOutside_write_zero size _ (by simp; omega)
    have joined := first.append second
    rwa [← List.length_append, List.take_append_drop] at joined
  · rw [List.drop_eq_nil_of_le (by omega), List.take_of_length_le (by omega),
      Mem.write_nil]
    exact agreesOutside_write size mem (by omega)

/-- `after` differs from `before` only in cells that the `len` positions from `pos` on
occupy, also beyond the ring. -/
def ChangesOnly (size pos len : Nat) (before after : Nat → β) : Prop :=
  ∀ i, (∀ j, j < len → i ≠ (pos + j) % size) → after i = before i

section Changes

variable {size pos off len : Nat} {before middle after : Nat → β}

theorem ChangesOnly.agreesOutside (changes : ChangesOnly size pos len before after) :
    AgreesOutside size pos len before after :=
  fun i _ outside => changes i outside

/-- Only the cell of the position matters. -/
theorem changesOnly_mod :
    ChangesOnly size (pos % size) len before after ↔ ChangesOnly size pos len before after := by
  simp only [ChangesOnly, Nat.mod_add_mod]

theorem ChangesOnly.append {more : Nat} (first : ChangesOnly size pos len before middle)
    (second : ChangesOnly size (pos + len) more middle after) :
    ChangesOnly size pos (len + more) before after := by
  intro i outside
  rw [second i fun j bound => ?_, first i fun j bound => ?_]
  · exact outside j (by omega)
  · have := outside (len + j) (by omega)
    rwa [← Nat.add_assoc] at this

/-- Nothing differs where nothing may. -/
theorem ChangesOnly.eq (changes : ChangesOnly size pos 0 before after) : after = before := by
  funext i
  exact changes i fun j none => absurd none (Nat.not_lt_zero j)

/-- A wrapping write of at most one revolution changes its positions. -/
theorem changesOnly_storeSplit (mem : Nat → β) {cells : List β} (inRing : off < size)
    (fits : cells.length ≤ size) :
    ChangesOnly size off cells.length mem (storeSplit size mem off cells) := by
  intro i outside
  rw [storeSplit, Mem.write_outside, Mem.write_outside]
  · rw [List.length_take]
    by_contra inside
    apply outside (i - off) (by omega)
    rw [Nat.mod_eq_of_lt (by omega)]
    omega
  · rw [List.length_drop, Nat.zero_add]
    by_contra inside
    apply outside (size - off + i) (by omega)
    have around : off + (size - off + i) = size + i := by omega
    rw [around, Nat.add_mod_left, Nat.mod_eq_of_lt (by omega)]

/-- What a wrapping write leaves in a cell depends on the cell only outside of the
write. -/
theorem storeSplit_congr {cells : List β} (inRing : off < size) {i : Nat}
    (same : (∃ j, j < cells.length ∧ i = (off + j) % size) ∨ after i = before i) :
    storeSplit size after off cells i = storeSplit size before off cells i := by
  simp only [storeSplit]
  apply Mem.write_congr
  by_cases second : i < (cells.drop (size - off)).length
  · exact .inl ⟨Nat.zero_le i, by omega⟩
  · right
    apply Mem.write_congr
    rcases same with ⟨j, bound, rfl⟩ | same
    · left
      rw [List.length_drop] at second
      rw [List.length_take]
      have notWrapped : off + j < size := by
        by_contra wraps
        have below := Nat.mod_le (off + j - size) size
        rw [← Nat.mod_eq_sub_mod (by omega)] at below
        omega
      rw [Nat.mod_eq_of_lt notWrapped]
      omega
    · exact .inr same

end Changes

end Ring

end Lib
