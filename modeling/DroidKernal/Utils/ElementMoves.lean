import DroidKernal.Utils.VectorLifetimes

/-!
# Copying, destroying and moving elements

What the loops over elements do to the objects in a range of slots.  Moving from the back
is right towards higher slots, and towards lower ones as far as the ranges do not overlap.
-/

namespace DroidKernal.Utils

open Lib

variable {T : Type} {traits : Traits}

/-- The slots of a buffer from one on and before another. -/
def Within (buf low high : Nat) (place : Place) : Prop :=
  place.1 = buf ∧ low ≤ place.2 ∧ place.2 < high

theorem within_succ {buf low num : Nat} {place : Place} :
    Within buf low (low + (num + 1)) place ↔
      Within buf low (low + num) place ∨ place = (buf, low + num) := by
  obtain ⟨other, slot⟩ := place
  simp only [Within, Prod.mk.injEq]
  omega

theorem not_within_empty {buf low : Nat} (place : Place) : ¬ Within buf low (low + 0) place := by
  simp only [Within]
  omega

theorem within_slot {buf low high slot : Nat} :
    Within buf low high (buf, slot) ↔ low ≤ slot ∧ slot < high := by
  simp only [Within, true_and]

theorem not_within_next {buf low num : Nat} : ¬ Within buf low (low + num) (buf, low + num) := by
  rw [within_slot]
  omega

namespace PlacedObjects

variable {objects after : PlacedObjects T} {buf : Nat}

/-- The value in a slot of a Vector's storage. -/
def valueIn (objects : PlacedObjects T) (storage : Option Nat) (slot : Nat) : Option T :=
  storage.bind fun buf => objects.valueAt (buf, slot)

/-- A copy is stored. -/
theorem store_fills (objects : PlacedObjects T) (place : Place) {value : Place → Option T}
    {item : T} (isValue : value place = some item) :
    Objects.Fills (· = place) value objects (store traits objects place item) := by
  have constructs := Objects.Fills.construct objects place isValue
  rw [store]
  split
  next =>
    cases assigned : objects.assign place item with
    | none => exact constructs
    | some after => exact .assign assigned isValue
  next => exact constructs

/-- Elements are copied to another buffer. -/
theorem copyType_fills (objects : PlacedObjects T) {source : Option Nat} {new : Nat}
    (apart : source ≠ some new) (start dest num : Nat)
    (alive : ∀ k < num, objects.valueIn source (start + k) ≠ none) :
    ∃ after, copyType source start new dest num objects = some after ∧
      Objects.Fills (Within new dest (dest + num))
        (fun place => objects.valueIn source (start + (place.2 - dest))) objects after := by
  induction num with
  | zero => exact ⟨objects, rfl, .nothing not_within_empty⟩
  | succ num ih =>
      obtain ⟨middle, isMiddle, fills⟩ := ih fun k bound => alive k (Nat.lt_succ_of_lt bound)
      obtain ⟨value, isValue⟩ := Option.ne_none_iff_exists'.mp (alive num (Nat.lt_succ_self num))
      obtain ⟨old, isOld, isThere⟩ := Option.bind_eq_some_iff.mp isValue
      have sourceKept : middle.valueAt (old, start + num) = some value := by
        rw [← isThere]
        apply Objects.valueAt_congr
        apply fills.outside
        rintro ⟨isNew, _⟩
        exact apart (isOld.trans (congrArg some isNew))
      have copied : Objects.Fills (· = (new, dest + num))
          (fun place => objects.valueIn source (start + (place.2 - dest))) middle
          (middle.construct (new, dest + num) value) :=
        .construct middle _ (by rw [Nat.add_sub_cancel_left, isValue])
      refine ⟨_, ?_, (fills.trans copied ?_).congr fun place => within_succ.symm⟩
      · rw [copyType, isMiddle, isOld]
        simp only [Option.bind_eq_bind, Option.bind_some, sourceKept]
        rfl
      · rintro place rfl
        exact not_within_next

/-- What is stored does not change what a reference to it reads. -/
theorem read_filled {region : Place → Prop} {value : T} {item : Item T}
    (fills : Objects.Fills region (fun _ => some value) objects after)
    (isRead : item.read objects = some value) : item.read after = some value := by
  cases item with
  | outside other => exact isRead
  | element other slot =>
      rw [Item.read] at isRead ⊢
      by_cases isInside : region (other, slot)
      · exact fills.inside _ isInside
      · rw [Objects.valueAt_congr (fills.outside _ isInside)]
        exact isRead

/-- Copies of an item that can be read. -/
theorem splatType_fills (traits : Traits) {item : Item T} {value : T}
    (isRead : item.read objects = some value) (buf place num : Nat) :
    ∃ after, splatType traits buf place item num objects = some after ∧
      Objects.Fills (Within buf place (place + num)) (fun _ => some value) objects after := by
  induction num with
  | zero => exact ⟨objects, rfl, .nothing not_within_empty⟩
  | succ num ih =>
      obtain ⟨middle, isMiddle, fills⟩ := ih
      have stored : Objects.Fills (· = (buf, place + num)) (fun _ => some value) middle
          (store traits middle (buf, place + num) value) := store_fills middle _ rfl
      refine ⟨_, ?_, (fills.trans stored ?_).congr fun place => within_succ.symm⟩
      · rw [splatType, isMiddle]
        simp only [Option.bind_eq_bind, Option.bind_some, read_filled fills isRead]
        rfl
      · rintro place rfl
        exact not_within_next

/-- An item that is not alive. -/
theorem splatType_dead {item : Item T} (dead : item.read objects = none) (buf place num : Nat) :
    splatType traits buf place item (num + 1) objects = none := by
  induction num with
  | zero => simp [splatType, dead]
  | succ num ih =>
      rw [splatType, ih]
      rfl

/-- Elements are destroyed. -/
theorem destroyLoop_clears (objects : PlacedObjects T) (buf start num : Nat)
    (alive : ∀ k < num, objects.objectAt (buf, start + k) ≠ none) :
    ∃ after, destroyLoop buf start num objects = some after ∧
      Objects.Clears (Within buf start (start + num)) objects after := by
  induction num with
  | zero => exact ⟨objects, rfl, .nothing not_within_empty⟩
  | succ num ih =>
      obtain ⟨middle, isMiddle, clears⟩ := ih fun k bound => alive k (Nat.lt_succ_of_lt bound)
      have isThere : middle.objectAt (buf, start + num) ≠ none := by
        rw [clears.outside _ not_within_next]
        exact alive num (Nat.lt_succ_self num)
      obtain ⟨object, isObject⟩ := Option.ne_none_iff_exists'.mp isThere
      have destroyed := Objects.destroy_eq isObject
      refine ⟨_, ?_, (clears.trans (.destroy destroyed)).congr fun place => within_succ.symm⟩
      rw [destroyLoop, isMiddle]
      exact destroyed

/-- What moving elements within a buffer does: they are in the other slots, and no longer in
their own unless that goes unnoticed. -/
structure Moves (traits : Traits) (buf dest start num : Nat) (before after : PlacedObjects T) :
    Prop where
  moved : ∀ k < num, after.valueAt (buf, dest + k) = before.valueAt (buf, start + k)
  outside : ∀ place, ¬ Within buf dest (dest + num) place → ¬ Within buf start (start + num) place →
    after.objectAt place = before.objectAt place
  left : traits.hasTrivialDtor = false → ∀ place, Within buf start (start + num) place →
    ¬ Within buf dest (dest + num) place → after.objectAt place = none
  stale : traits.hasTrivialDtor = true → ∀ place, ¬ Within buf dest (dest + num) place →
    after.objectAt place = before.objectAt place
  kept : ∀ id ∈ before.destroyed, id ∈ after.destroyed
  balanced : traits.hasTrivialDtor = false → before.Balanced → after.Balanced

theorem Moves.nothing {dest start : Nat} (objects : PlacedObjects T) :
    Moves traits buf dest start 0 objects objects where
  moved := fun k none => absurd none (Nat.not_lt_zero k)
  outside := fun _ _ _ => rfl
  left := fun _ place isInside => absurd isInside (not_within_empty place)
  stale := fun _ _ _ => rfl
  kept := fun _ isDestroyed => isDestroyed
  balanced := fun _ balanced => balanced

/-- One element is moved. -/
theorem moveStep_moves {dest start : Nat}
    (apart : start ≠ dest ∨ traits.hasTrivialDtor = true) {value : T}
    (isValue : objects.valueAt (buf, start) = some value)
    (isRaw : traits.hasTrivialDtor = false → objects.objectAt (buf, dest) = none) :
    ∃ after, (if traits.hasTrivialDtor then some (store traits objects (buf, dest) value)
        else (store traits objects (buf, dest) value).destroy (buf, start)) = some after ∧
      after.valueAt (buf, dest) = some value ∧
      (∀ place, place ≠ (buf, dest) → place ≠ (buf, start) →
        after.objectAt place = objects.objectAt place) ∧
      (traits.hasTrivialDtor = false → after.objectAt (buf, start) = none) ∧
      (traits.hasTrivialDtor = true → ∀ place, place ≠ (buf, dest) →
        after.objectAt place = objects.objectAt place) ∧
      (∀ id ∈ objects.destroyed, id ∈ after.destroyed) ∧
      (traits.hasTrivialDtor = false → objects.Balanced → after.Balanced) := by
  have stored : Objects.Fills (· = (buf, dest)) (fun _ => some value) objects
      (store traits objects (buf, dest) value) := store_fills objects _ rfl
  cases isTrivial : traits.hasTrivialDtor with
  | true =>
      refine ⟨_, rfl, stored.inside _ rfl, fun place notDest _ => stored.outside place notDest,
        fun isFalse => absurd isFalse.symm Bool.false_ne_true,
        fun _ place notDest => stored.outside place notDest, stored.kept,
        fun isFalse => absurd isFalse.symm Bool.false_ne_true⟩
  | false =>
      have differ : start ≠ dest := by simpa [isTrivial] using apart
      have places : (buf, start) ≠ (buf, dest) := fun same => differ (Prod.mk.inj same).2
      obtain ⟨object, isObject, _⟩ := Objects.valueAt_eq_some.mp isValue
      have destroyed := Objects.destroy_eq ((stored.outside _ places).trans isObject)
      have clears := Objects.Clears.destroy destroyed
      refine ⟨_, destroyed, ?_, ?_, fun _ => clears.inside _ rfl,
        fun isTrue => absurd isTrue Bool.false_ne_true,
        fun id isDestroyed => clears.kept id (stored.kept id isDestroyed), ?_⟩
      · rw [Objects.valueAt_congr (clears.outside _ places.symm)]
        exact stored.inside _ rfl
      · intro place notDest notStart
        rw [clears.outside place notStart, stored.outside place notDest]
      · intro _ balanced
        apply clears.balanced
        apply stored.balanced _ balanced
        rintro place rfl
        exact isRaw isTrivial

theorem moveForwardLoop_succ (buf dest start num : Nat) (objects : PlacedObjects T) :
    moveForwardLoop traits buf dest start (num + 1) objects =
      (objects.valueAt (buf, start + num)).bind fun value =>
        (if traits.hasTrivialDtor then some (store traits objects (buf, dest + num) value)
          else (store traits objects (buf, dest + num) value).destroy (buf, start + num)).bind
          (moveForwardLoop traits buf dest start num) := by
  rw [moveForwardLoop]
  cases traits.hasTrivialDtor with
  | true => rfl
  | false => rfl

/-- The values to be moved repeat at the distance of the move. -/
def Repeats (objects : PlacedObjects T) (buf dest start num : Nat) : Prop :=
  ∀ slot, start ≤ slot → slot < dest + num →
    objects.valueAt (buf, slot) = objects.valueAt (buf, slot + (start - dest))

/-- The first step of the loop leaves values that repeat. -/
theorem Repeats.step {middle : PlacedObjects T} {dest start num : Nat}
    (repeats : Repeats objects buf dest start (num + 1))
    (last : middle.valueAt (buf, dest + num) = objects.valueAt (buf, start + num))
    (stale : ∀ place, place ≠ (buf, dest + num) →
      middle.objectAt place = objects.objectAt place) : Repeats middle buf dest start num := by
  have kept : ∀ slot, slot ≠ dest + num →
      middle.valueAt (buf, slot) = objects.valueAt (buf, slot) :=
    fun slot differs => Objects.valueAt_congr (stale _ fun same => differs (Prod.mk.inj same).2)
  intro slot above below
  have next := repeats slot above (by omega)
  rw [kept slot (by omega), next]
  by_cases isLast : slot + (start - dest) = dest + num
  · rw [isLast, last, repeats (dest + num) (by omega) (by omega)]
    congr 2
    omega
  · rw [kept _ isLast]

/-- The loop moves elements up, or down to where none of them is; or it moves values that
repeat and destroys nothing. -/
theorem moveForwardLoop_moves {dest start num : Nat} (objects : PlacedObjects T)
    (apart : start < dest ∨ dest + num ≤ start ∨
      traits.hasTrivialDtor = true ∧ Repeats objects buf dest start num)
    (alive : ∀ k < num, objects.valueAt (buf, start + k) ≠ none)
    (isRaw : traits.hasTrivialDtor = false → ∀ place, Within buf dest (dest + num) place →
      ¬ Within buf start (start + num) place → objects.objectAt place = none) :
    ∃ after, moveForwardLoop traits buf dest start num objects = some after ∧
      Moves traits buf dest start num objects after := by
  induction num generalizing objects with
  | zero => exact ⟨objects, rfl, .nothing objects⟩
  | succ num ih =>
      obtain ⟨value, isValue⟩ := Option.ne_none_iff_exists'.mp (alive num (Nat.lt_succ_self num))
      have clear : traits.hasTrivialDtor = false → start < dest ∨ dest + (num + 1) ≤ start := by
        intro isFalse
        rcases apart with up | down | ⟨isTrue, _⟩
        · exact .inl up
        · exact .inr down
        · cases isFalse.symm.trans isTrue
      have lastRaw : traits.hasTrivialDtor = false →
          objects.objectAt (buf, dest + num) = none := by
        intro isFalse
        have differ := clear isFalse
        apply isRaw isFalse
        · rw [within_slot]
          omega
        · rw [within_slot]
          omega
      have lastApart : start + num ≠ dest + num ∨ traits.hasTrivialDtor = true := by
        rcases apart with up | down | ⟨isTrue, _⟩
        · exact .inl (by omega)
        · exact .inl (by omega)
        · exact .inr isTrue
      obtain ⟨middle, isMiddle, last, others, left, stale, kept, balanced⟩ :=
        moveStep_moves lastApart isValue lastRaw
      have restApart : start < dest ∨ dest + num ≤ start ∨
          traits.hasTrivialDtor = true ∧ Repeats middle buf dest start num := by
        rcases apart with up | down | ⟨isTrue, repeats⟩
        · exact .inl up
        · exact .inr (.inl (by omega))
        · exact .inr (.inr ⟨isTrue, repeats.step (last.trans isValue.symm) (stale isTrue)⟩)
      have sameSource : ∀ k < num, middle.valueAt (buf, start + k) =
          objects.valueAt (buf, start + k) := by
        intro k bound
        by_cases overwritten : start + k = dest + num
        · rcases apart with up | down | ⟨_, repeats⟩
          · omega
          · omega
          · rw [repeats (start + k) (by omega) (by omega), overwritten, last, ← isValue]
            congr 2
            omega
        · apply Objects.valueAt_congr
          apply others
          · simpa using overwritten
          · simp only [ne_eq, Prod.mk.injEq, true_and]
            omega
      obtain ⟨after, isAfter, moves⟩ := ih middle restApart
        (fun k bound => by
          rw [sameSource k bound]
          exact alive k (Nat.lt_succ_of_lt bound))
        (by
          intro isFalse place isDest notSource
          by_cases isLast : place = (buf, start + num)
          · rw [isLast]
            exact left isFalse
          · rw [others place _ isLast]
            · apply isRaw isFalse place (within_succ.mpr (.inl isDest))
              rw [within_succ]
              exact not_or.mpr ⟨notSource, isLast⟩
            · rintro rfl
              exact not_within_next isDest)
      have lastKept : after.objectAt (buf, dest + num) = middle.objectAt (buf, dest + num) := by
        cases isTrivial : traits.hasTrivialDtor with
        | true => exact moves.stale isTrivial _ not_within_next
        | false =>
            have differ := clear isTrivial
            apply moves.outside _ not_within_next
            rw [within_slot]
            omega
      refine ⟨after, ?_, ?_⟩
      · rw [moveForwardLoop_succ, isValue, Option.bind_some, isMiddle, Option.bind_some]
        exact isAfter
      · exact {
          moved := by
            intro k bound
            rcases Nat.lt_succ_iff_lt_or_eq.mp bound with before | rfl
            · rw [moves.moved k before, sameSource k before]
            · rw [Objects.valueAt_congr lastKept, last, isValue]
          outside := by
            intro place notDest notSource
            rw [within_succ, not_or] at notDest notSource
            rw [moves.outside place notDest.1 notSource.1, others place notDest.2 notSource.2]
          left := by
            intro isFalse place isSource notDest
            rw [within_succ, not_or] at notDest
            rcases within_succ.mp isSource with before | rfl
            · exact moves.left isFalse place before notDest.1
            · rw [moves.outside _ notDest.1 not_within_next]
              exact left isFalse
          stale := by
            intro isTrue place notDest
            rw [within_succ, not_or] at notDest
            rw [moves.stale isTrue place notDest.1, stale isTrue place notDest.2]
          kept := fun id isDestroyed => moves.kept id (kept id isDestroyed)
          balanced := fun isFalse wasBalanced =>
            moves.balanced isFalse (balanced isFalse wasBalanced) }

section Memmove

variable {dest start num : Nat} {place : Place}

theorem memmoveSource_dest (isDest : Within buf dest (dest + num) place) :
    memmoveSource traits buf dest start num place = some (buf, start + (place.2 - dest)) :=
  if_pos isDest

theorem memmoveSource_left (isFalse : traits.hasTrivialDtor = false)
    (notDest : ¬ Within buf dest (dest + num) place)
    (isSource : Within buf start (start + num) place) :
    memmoveSource traits buf dest start num place = none :=
  (if_neg notDest).trans (if_pos ⟨isFalse, isSource⟩)

theorem memmoveSource_stays (notDest : ¬ Within buf dest (dest + num) place)
    (stays : traits.hasTrivialDtor = false → ¬ Within buf start (start + num) place) :
    memmoveSource traits buf dest start num place = some place :=
  (if_neg notDest).trans (if_neg fun both => stays both.1 both.2)

/-- `memmove` leaves no object behind and takes none twice. -/
theorem memmove_balanced {objects : PlacedObjects T} (isFalse : traits.hasTrivialDtor = false)
    (isRaw : ∀ place, Within buf dest (dest + num) place →
      ¬ Within buf start (start + num) place → objects.objectAt place = none)
    (balanced : objects.Balanced) : (memmove traits objects buf dest start num).Balanced := by
  have cases_of : ∀ {p r}, memmoveSource traits buf dest start num p = some r →
      Within buf dest (dest + num) p ∧ r = (buf, start + (p.2 - dest)) ∨
        ¬ Within buf start (start + num) p ∧ r = p := by
    intro p r isSource
    by_cases isDest : Within buf dest (dest + num) p
    · rw [memmoveSource_dest isDest] at isSource
      exact .inl ⟨isDest, (Option.some.inj isSource).symm⟩
    · by_cases isStart : Within buf start (start + num) p
      · rw [memmoveSource_left isFalse isDest isStart] at isSource
        cases isSource
      · rw [memmoveSource_stays isDest fun _ => isStart] at isSource
        exact .inr ⟨isStart, (Option.some.inj isSource).symm⟩
  apply balanced.relocate
  · rintro ⟨buf₁, slot₁⟩ ⟨buf₂, slot₂⟩ r isSource isSource' _
    rcases cases_of isSource with ⟨isDest, rfl⟩ | ⟨notStart, rfl⟩
    · rcases cases_of isSource' with ⟨isDest', same⟩ | ⟨notStart', same⟩
      · simp only [Within, Prod.mk.injEq, true_and] at isDest isDest' same ⊢
        omega
      · simp only [Within, Prod.mk.injEq] at isDest notStart' same
        omega
    · rcases cases_of isSource' with ⟨isDest', same⟩ | ⟨-, same⟩
      · simp only [Within, Prod.mk.injEq] at isDest' notStart same
        omega
      · exact same
  · rintro ⟨other, slot⟩ isThere
    by_cases isStart : Within buf start (start + num) (other, slot)
    · obtain ⟨rfl, above, below⟩ := isStart
      refine ⟨(other, dest + (slot - start)), ?_⟩
      rw [memmoveSource_dest (within_slot.mpr (by simp only at above below; omega))]
      simp only [Option.some.injEq, Prod.mk.injEq, true_and]
      simp only at above
      omega
    · by_cases isDest : Within buf dest (dest + num) (other, slot)
      · exact absurd (isRaw _ isDest isStart) isThere
      · exact ⟨(other, slot), memmoveSource_stays isDest fun _ => isStart⟩

/-- `memmove` moves elements, whether or not the slots overlap. -/
theorem memmove_moves (objects : PlacedObjects T)
    (isRaw : traits.hasTrivialDtor = false → ∀ place, Within buf dest (dest + num) place →
      ¬ Within buf start (start + num) place → objects.objectAt place = none) :
    Moves traits buf dest start num objects (memmove traits objects buf dest start num) where
  moved := by
    intro k bound
    apply Objects.valueAt_congr
    have isDest : Within buf dest (dest + num) (buf, dest + k) := within_slot.mpr (by omega)
    rw [memmove, Objects.relocate_objectAt, memmoveSource_dest isDest, Nat.add_sub_cancel_left]
    rfl
  outside := by
    intro place notDest notSource
    rw [memmove, Objects.relocate_objectAt, memmoveSource_stays notDest fun _ => notSource]
    rfl
  left := by
    intro isFalse place isSource notDest
    rw [memmove, Objects.relocate_objectAt, memmoveSource_left isFalse notDest isSource]
    rfl
  stale := by
    intro isTrue place notDest
    rw [memmove, Objects.relocate_objectAt, memmoveSource_stays notDest]
    · rfl
    · exact fun isFalse => absurd (isFalse.symm.trans isTrue) Bool.false_ne_true
  kept := fun _ isDestroyed => isDestroyed
  balanced := fun isFalse balanced => memmove_balanced isFalse (isRaw isFalse) balanced

end Memmove

/-- The moves that `move_forward_type` makes right: by `memmove`, or from the back and either
up, or down and clear of each other, or of values that repeat with nothing to destroy. -/
def ShiftsRight (traits : Traits) (objects : PlacedObjects T) (buf dest start num : Nat) : Prop :=
  traits.useTrivialMove = true ∨ start < dest ∨ dest + num ≤ start ∨
    traits.hasTrivialDtor = true ∧ Repeats objects buf dest start num

theorem moveForwardType_moves {dest start num : Nat} (objects : PlacedObjects T)
    (right : ShiftsRight traits objects buf dest start num)
    (alive : ∀ k < num, objects.valueAt (buf, start + k) ≠ none)
    (isRaw : traits.hasTrivialDtor = false → ∀ place, Within buf dest (dest + num) place →
      ¬ Within buf start (start + num) place → objects.objectAt place = none) :
    ∃ after, moveForwardType traits objects buf dest start num = some after ∧
      Moves traits buf dest start num objects after := by
  rw [moveForwardType]
  cases isTrivial : traits.useTrivialMove with
  | true => exact ⟨_, rfl, memmove_moves objects isRaw⟩
  | false =>
      have apart := right.resolve_left fun isTrue => by cases isTrivial.symm.trans isTrue
      exact moveForwardLoop_moves objects apart alive isRaw

section Overlap

variable {dest start num : Nat}

/-- What one step of the loop comes to. -/
theorem moveStep_places {middle : PlacedObjects T} {value : T}
    (moved : (if traits.hasTrivialDtor then some (store traits objects (buf, dest) value)
      else (store traits objects (buf, dest) value).destroy (buf, start)) = some middle) :
    (∀ place, place ≠ (buf, dest) → place ≠ (buf, start) →
        middle.objectAt place = objects.objectAt place) ∧
      (traits.hasTrivialDtor = false → middle.objectAt (buf, start) = none) ∧
      (traits.hasTrivialDtor = true → middle.valueAt (buf, dest) = some value ∧
        ∀ place, place ≠ (buf, dest) → middle.objectAt place = objects.objectAt place) := by
  have stored : Objects.Fills (· = (buf, dest)) (fun _ => some value) objects
      (store traits objects (buf, dest) value) := store_fills objects _ rfl
  cases isTrivial : traits.hasTrivialDtor with
  | true =>
      rw [isTrivial] at moved
      cases moved
      exact ⟨fun place notDest _ => stored.outside place notDest, nofun,
        fun _ => ⟨stored.inside _ rfl, fun place notDest => stored.outside place notDest⟩⟩
  | false =>
      rw [isTrivial] at moved
      have clears := Objects.Clears.destroy moved
      refine ⟨fun place notDest notStart => ?_, fun _ => clears.inside _ rfl, nofun⟩
      rw [clears.outside place notStart, stored.outside place notDest]

/-- The loop leaves the other slots alone, and its source as well where nothing is destroyed. -/
theorem moveForwardLoop_outside
    (moved : moveForwardLoop traits buf dest start num objects = some after) {place : Place}
    (notDest : ¬ Within buf dest (dest + num) place)
    (notSource : traits.hasTrivialDtor = false → ¬ Within buf start (start + num) place) :
    after.objectAt place = objects.objectAt place := by
  induction num generalizing objects with
  | zero =>
      cases moved
      rfl
  | succ num ih =>
      rw [moveForwardLoop_succ] at moved
      obtain ⟨value, -, moved⟩ := Option.bind_eq_some_iff.mp moved
      obtain ⟨middle, isMiddle, moved⟩ := Option.bind_eq_some_iff.mp moved
      obtain ⟨others, -, trivially⟩ := moveStep_places isMiddle
      rw [within_succ, not_or] at notDest
      rw [ih moved notDest.1 fun isFalse isSource =>
        notSource isFalse (within_succ.mpr (.inl isSource))]
      cases isTrivial : traits.hasTrivialDtor with
      | true => exact (trivially isTrivial).2 place notDest.2
      | false =>
          apply others place notDest.2
          rintro rfl
          exact notSource isTrivial (within_succ.mpr (.inr rfl))

/-- Moving down, the loop leaves nothing in the slots that it read. -/
theorem moveForwardLoop_dead (isFalse : traits.hasTrivialDtor = false) (down : dest ≤ start)
    (moved : moveForwardLoop traits buf dest start num objects = some after) {k : Nat}
    (bound : k < num) : after.objectAt (buf, start + k) = none := by
  induction num generalizing objects with
  | zero => exact absurd bound (Nat.not_lt_zero k)
  | succ num ih =>
      rw [moveForwardLoop_succ] at moved
      obtain ⟨value, -, moved⟩ := Option.bind_eq_some_iff.mp moved
      obtain ⟨middle, isMiddle, moved⟩ := Option.bind_eq_some_iff.mp moved
      rcases Nat.lt_succ_iff_lt_or_eq.mp bound with before | rfl
      · exact ih moved before
      · rw [moveForwardLoop_outside moved]
        · exact (moveStep_places isMiddle).2.1 isFalse
        · rw [within_slot]
          omega
        · exact fun _ => not_within_next

/-- Moving down where nothing is destroyed, the loop reads what it wrote. -/
theorem moveForwardLoop_reads (isTrue : traits.hasTrivialDtor = true) (down : dest ≤ start)
    (moved : moveForwardLoop traits buf dest start num objects = some after) {k : Nat}
    (bound : k < num) :
    after.valueAt (buf, dest + k) = if start + k < dest + num then
      after.valueAt (buf, start + k) else objects.valueAt (buf, start + k) := by
  induction num generalizing objects with
  | zero => exact absurd bound (Nat.not_lt_zero k)
  | succ num ih =>
      rw [moveForwardLoop_succ] at moved
      obtain ⟨value, isValue, moved⟩ := Option.bind_eq_some_iff.mp moved
      obtain ⟨middle, isMiddle, moved⟩ := Option.bind_eq_some_iff.mp moved
      obtain ⟨last, others⟩ := (moveStep_places isMiddle).2.2 isTrue
      have lastKept : after.valueAt (buf, dest + num) = some value := by
        rw [← last]
        apply Objects.valueAt_congr
        apply moveForwardLoop_outside moved not_within_next
        exact fun isFalse => nomatch isFalse.symm.trans isTrue
      rcases Nat.lt_succ_iff_lt_or_eq.mp bound with before | rfl
      · rw [ih moved before]
        by_cases isRead : start + k < dest + num
        · rw [if_pos isRead, if_pos (by omega)]
        · rw [if_neg isRead]
          by_cases isLast : start + k = dest + num
          · rw [if_pos (by omega), isLast, last, lastKept]
          · rw [if_neg (by omega)]
            apply Objects.valueAt_congr
            apply others
            simpa using isLast
      · rw [lastKept]
        split
        next same =>
          rw [show start + k = dest + k by omega, lastKept]
        next => exact isValue.symm

/-- Elements that `move_forward_type` moves right to lower slots. -/
theorem moveForwardType_right (down : dest ≤ start)
    (moved : moveForwardType traits objects buf dest start num = some after)
    (alive : ∀ k < num, objects.valueAt (buf, start + k) ≠ none)
    (same : ∀ k < num, after.valueAt (buf, dest + k) = objects.valueAt (buf, start + k)) :
    ShiftsRight traits objects buf dest start num := by
  rw [moveForwardType] at moved
  split at moved
  next isMove => exact .inl isMove
  next =>
    by_cases clear : dest + num ≤ start
    · exact .inr (.inr (.inl clear))
    · cases isTrivial : traits.hasTrivialDtor with
      | false =>
          -- the last element is destroyed in the slot from which it was moved on
          have dead := moveForwardLoop_dead isTrivial down moved
            (show dest + num - 1 - start < num by omega)
          rw [show start + (dest + num - 1 - start) = dest + (num - 1) by omega] at dead
          have last := same (num - 1) (by omega)
          rw [Objects.valueAt_eq_none.mpr dead] at last
          exact absurd last.symm (alive (num - 1) (by omega))
      | true =>
          refine .inr (.inr (.inr ⟨isTrivial, fun slot above below => ?_⟩))
          have first := moveForwardLoop_reads isTrivial down moved
            (show slot - start < num by omega)
          have next := same (slot - dest) (by omega)
          rw [same _ (by omega), Nat.add_sub_cancel' above, if_pos below] at first
          rw [Nat.add_sub_cancel' (by omega)] at next
          rw [first, next]
          congr 2
          omega

end Overlap

/-- What `destroy_type` does. -/
structure Ends (traits : Traits) (region : Place → Prop) (before after : PlacedObjects T) :
    Prop where
  trivial : traits.hasTrivialDtor = true → after = before
  clears : traits.hasTrivialDtor = false → Objects.Clears region before after

namespace Ends

variable {region : Place → Prop} {place : Place}

theorem outside (ends : Ends traits region objects after) (isOutside : ¬ region place) :
    after.objectAt place = objects.objectAt place := by
  cases isTrivial : traits.hasTrivialDtor with
  | true => rw [ends.trivial isTrivial]
  | false => exact (ends.clears isTrivial).outside place isOutside

theorem kept (ends : Ends traits region objects after) :
    ∀ id ∈ objects.destroyed, id ∈ after.destroyed := by
  cases isTrivial : traits.hasTrivialDtor with
  | true =>
      rw [ends.trivial isTrivial]
      exact fun _ isDestroyed => isDestroyed
  | false => exact (ends.clears isTrivial).kept

end Ends

theorem destroyType_ends (traits : Traits) (objects : PlacedObjects T) (buf start num : Nat)
    (alive : ∀ k < num, objects.objectAt (buf, start + k) ≠ none) :
    ∃ after, destroyType traits objects buf start num = some after ∧
      Ends traits (Within buf start (start + num)) objects after := by
  rw [destroyType]
  cases isTrivial : traits.hasTrivialDtor with
  | true => exact ⟨objects, rfl, fun _ => rfl, fun isFalse => by cases isTrivial.symm.trans isFalse⟩
  | false =>
      obtain ⟨after, destroyed, clears⟩ := destroyLoop_clears objects buf start num alive
      exact ⟨after, destroyed, fun isTrue => (by cases isTrivial.symm.trans isTrue),
        fun _ => clears⟩

/-- Where nothing is destroyed, the values stay what they were. -/
theorem Ends.shiftsRight_iff {region : Place → Prop} (ends : Ends traits region objects after)
    {dest start num : Nat} :
    ShiftsRight traits after buf dest start num ↔
      ShiftsRight traits objects buf dest start num := by
  have same : traits.hasTrivialDtor = true ∧ Repeats after buf dest start num ↔
      traits.hasTrivialDtor = true ∧ Repeats objects buf dest start num :=
    and_congr_right fun isTrue => by rw [ends.trivial isTrue]
  rw [ShiftsRight, ShiftsRight, same]

/-! ## Buffers -/

theorem dealloc_objectAt (place : Place) :
    (objects.dealloc buf).objectAt place =
      if place.1 = buf then none else objects.objectAt place := by
  rw [dealloc, Objects.relocate_objectAt]
  split
  · rfl
  · rfl

theorem dealloc_balanced (empty : ∀ slot, objects.objectAt (buf, slot) = none)
    (balanced : objects.Balanced) : (objects.dealloc buf).Balanced := by
  apply balanced.relocate
  · intro p q r isSource isSource' _
    split at isSource
    · cases isSource
    · split at isSource'
      · cases isSource'
      · exact (Option.some.inj isSource).trans (Option.some.inj isSource').symm
  · rintro ⟨other, slot⟩ isThere
    refine ⟨(other, slot), if_neg ?_⟩
    rintro rfl
    exact isThere (empty slot)

end PlacedObjects

end DroidKernal.Utils
