import DroidKernal.Binder.Append
import DroidKernal.Lib.Run

/-!
# Where a Parcel stores

The public operations that move the cursor or write at it, and the offsets from
`mData` at which they store.  Room is computed from `mDataSize` and the bytes go to
`mDataPos`; the jump back to `restart_write` does not compare again.
-/

namespace DroidKernal.Binder

open Lib

namespace Parcel

/-- A public operation with its arguments. -/
inductive Call where
  | write (data : List UInt8)
  | writeInplace (len : UInt64)
  | writeInt32 (val : Int32)
  | setDataSize (size : UInt64)
  | setDataPosition (pos : UInt64)

/-- `growData`, where it succeeds. -/
def grown (heap : Heap) (parcel : Parcel) (padded : Nat) : Option Parcel := do
  let grown ← parcel.growData heap padded
  if grown.value = noError then some grown.parcel else none

/-- The Parcel with which `writeInplace` reaches `restart_write`. -/
def restartInplace (heap : Heap) (parcel : Parcel) (len : Nat) : Option Parcel :=
  if len > int32Max then none
  else if sizeAdd parcel.mDataPos (padSize len) < parcel.mDataPos then none
  else if sizeAdd parcel.mDataPos (padSize len) ≤ parcel.mDataCapacity then some parcel
  else parcel.grown heap (padSize len)

/-- The Parcel with which `writeAligned` reaches `restart_write`. -/
def restartAligned (heap : Heap) (parcel : Parcel) (size : Nat) : Option Parcel :=
  if sizeAdd parcel.mDataPos size ≤ parcel.mDataCapacity then some parcel
  else parcel.grown heap size

/-- The padding word that `restart_write` clears: its offset and length. -/
def paddingWord (parcel : Parcel) (len : Nat) : List (Nat × Nat) :=
  if padSize len ≠ len then [(parcel.mDataPos + padSize len - 4, 4)] else []

namespace Call

/-- The call, without what it returns. -/
def run (heap : Heap) (parcel : Parcel) : Call → Option Parcel
  | .write data => (parcel.write heap data).map Outcome.parcel
  | .writeInplace len => (parcel.writeInplace heap len.toNat).map Outcome.parcel
  | .writeInt32 val => (parcel.writeInt32 heap val).map Outcome.parcel
  | .setDataSize size => (parcel.setDataSize heap size.toNat).map Outcome.parcel
  | .setDataPosition pos => some (parcel.setDataPosition pos.toNat)

/-- The bytes a call reserves at the cursor. -/
def reserved : Call → Nat
  | .write data => padSize data.length
  | .writeInplace len => padSize len.toNat
  | .writeInt32 _ => 4
  | .setDataSize _ => 0
  | .setDataPosition _ => 0

/-- The Parcel with which a call reaches `restart_write`. -/
def restart (heap : Heap) (parcel : Parcel) : Call → Option Parcel
  | .write data => parcel.restartInplace heap data.length
  | .writeInplace len => parcel.restartInplace heap len.toNat
  | .writeInt32 _ => parcel.restartAligned heap 4
  | .setDataSize _ => none
  | .setDataPosition _ => none

/-- The stores from `restart_write` on: offsets from `mData` and lengths. -/
def stores (parcel : Parcel) : Call → List (Nat × Nat)
  | .write data => parcel.paddingWord data.length ++ [(parcel.mDataPos, data.length)]
  | .writeInplace len => parcel.paddingWord len.toNat
  | .writeInt32 _ => [(parcel.mDataPos, 4)]
  | .setDataSize _ => []
  | .setDataPosition _ => []

end Call

/-- Every byte of the stores lies below the capacity. -/
def Within (parcel : Parcel) (stores : List (Nat × Nat)) : Prop :=
  ∀ store ∈ stores, ∀ byte, byte < store.2 → store.1 + byte < parcel.mDataCapacity

/-- Every byte the call stores lies below the capacity, and where the buffer had to
grow there is room at the cursor. -/
def Call.Inside (heap : Heap) (parcel : Parcel) (call : Call) : Prop :=
  ∀ restarted, call.restart heap parcel = some restarted →
    restarted.Within (call.stores restarted) ∧
    (parcel.mDataCapacity < sizeAdd parcel.mDataPos call.reserved →
      restarted.mDataPos + call.reserved ≤ restarted.mDataCapacity)

/-- The buffer size that `growData` asks for. -/
def request (parcel : Parcel) (len : Nat) : Nat := (parcel.mDataSize + len) * 3 / 2

/-- Where the buffer has to grow for `padded` bytes and can, the new capacity covers
the bytes at the cursor.  A buffer that is already larger than the request keeps its
capacity and the cursor is moved back to the request. -/
def GrowsEnough (heap : Heap) (parcel : Parcel) (padded : Nat) : Prop :=
  parcel.mDataCapacity < sizeAdd parcel.mDataPos padded →
  parcel.mDataSize < parcel.request padded → parcel.request padded ≤ int32Max →
    parcel.mData = none ∨
    (parcel.mDataCapacity < parcel.request padded ∧
      (heap.data (parcel.request padded) = none ∨
        parcel.mDataPos + padded ≤ parcel.request padded)) ∨
    (parcel.request padded < parcel.mDataPos ∧
      parcel.request padded + padded ≤ parcel.mDataCapacity)

/-- The condition on a call: `writeInplace` returns null where the end of the bytes
would wrap around, `writeAligned` does not look. -/
def Call.Sound (heap : Heap) (parcel : Parcel) : Call → Prop
  | .write data =>
      data.length ≤ int32Max → parcel.mDataPos + padSize data.length < 2 ^ 64 →
        parcel.GrowsEnough heap (padSize data.length)
  | .writeInplace len =>
      len.toNat ≤ int32Max → parcel.mDataPos + padSize len.toNat < 2 ^ 64 →
        parcel.GrowsEnough heap (padSize len.toNat)
  | .writeInt32 _ =>
      (2 ^ 64 ≤ parcel.mDataPos + 4 → parcel.mDataCapacity < sizeAdd parcel.mDataPos 4) ∧
        parcel.GrowsEnough heap 4
  | .setDataSize _ => True
  | .setDataPosition _ => True

/-! ## The states of a Parcel that only these operations touch -/

/-- The Parcel owns its buffer and holds no objects. -/
structure Own (parcel : Parcel) : Prop where
  owner : parcel.mOwner = false
  objects : parcel.mObjectsSize = 0
  small : parcel.mDataCapacity ≤ int32Max
  pos : parcel.mDataPos < 2 ^ 64

theorem own_initState : initState.Own where
  owner := rfl
  objects := rfl
  small := Nat.zero_le _
  pos := by decide

/-- `continueWrite` on such a Parcel. -/
def resized (heap : Heap) (parcel : Parcel) (desired : Nat) : Outcome Int :=
  if desired > int32Max then { value := badValue, parcel, effects := [] }
  else
    match parcel.mData with
    | none =>
        match heap.data desired with
        | none => { value := noMemory, parcel := { parcel with mError := noMemory }, effects := [] }
        | some data =>
            { value := noError
              parcel := { parcel with
                mData := some data, mDataSize := 0, mDataPos := 0, mDataCapacity := desired }
              effects := [] }
    | some data =>
        if desired > parcel.mDataCapacity then
          match heap.data desired with
          | none =>
              { value := noMemory, parcel := { parcel with mError := noMemory }, effects := [] }
          | some new =>
              { value := noError
                parcel := { parcel with
                  mData := some (data.moveTo new parcel.mDataCapacity), mDataCapacity := desired }
                effects := [] }
        else
          { value := noError
            parcel := { parcel with
              mDataSize := min parcel.mDataSize desired
              mDataPos := min parcel.mDataPos desired }
            effects := [] }

section Own

variable {parcel : Parcel} {heap : Heap}

theorem Own.objectsKept (own : parcel.Own) (desired : Nat) :
    parcel.objectsKept desired = some 0 := by
  rw [Parcel.objectsKept, own.objects]
  split
  next => split <;> rfl
  next => rfl

theorem Own.continueWrite_eq (own : parcel.Own) (desired : Nat) :
    parcel.continueWrite heap desired = some (parcel.resized heap desired) := by
  have nothing : parcel.dropObjects heap 0 = some (parcel, []) := by
    rw [dropObjects, own.objects, if_neg (Nat.lt_irrefl 0)]
  rw [continueWrite, resized]
  split
  next => rfl
  next =>
    simp only [own.objectsKept, own.owner, Option.bind_eq_bind, Option.bind_some,
      Bool.false_eq_true, if_false]
    cases isData : parcel.mData with
    | none => cases heap.data desired <;> rfl
    | some data =>
        simp only [resizeOwn, nothing, Option.bind_eq_bind, Option.bind_some]
        split
        next => cases heap.data desired <;> simp [← isData, own.owner]
        next => simp [← isData, own.owner]

/-- What resizing does to the cursor and the capacity, where it succeeds. -/
theorem resized_cases {desired : Nat} (succeeded : (parcel.resized heap desired).value = noError) :
    (parcel.mData = none ∧ (parcel.resized heap desired).parcel.mDataPos = 0 ∧
      (parcel.resized heap desired).parcel.mDataCapacity = desired) ∨
    (parcel.mData ≠ none ∧ parcel.mDataCapacity < desired ∧ heap.data desired ≠ none ∧
      (parcel.resized heap desired).parcel.mDataPos = parcel.mDataPos ∧
      (parcel.resized heap desired).parcel.mDataCapacity = desired) ∨
    (parcel.mData ≠ none ∧ desired ≤ parcel.mDataCapacity ∧
      (parcel.resized heap desired).parcel.mDataPos = min parcel.mDataPos desired ∧
      (parcel.resized heap desired).parcel.mDataCapacity = parcel.mDataCapacity) := by
  revert succeeded
  rw [resized]
  split
  next => simp [badValue, noError, EINVAL]
  next =>
    cases parcel.mData with
    | none =>
        cases heap.data desired with
        | none => simp [noMemory, noError, ENOMEM]
        | some data => simp
    | some data =>
        by_cases larger : desired > parcel.mDataCapacity
        · cases heap.data desired with
          | none => simp [larger, noMemory, noError, ENOMEM]
          | some new => simp [larger]
        · simp [larger, Nat.not_lt.mp larger]

/-- Resizing fails only where the request is too large or the allocation fails. -/
theorem resized_succeeds {desired : Nat} (limit : desired ≤ int32Max)
    (allocated : heap.data desired ≠ none ∨
      parcel.mData ≠ none ∧ desired ≤ parcel.mDataCapacity) :
    (parcel.resized heap desired).value = noError := by
  rw [resized, if_neg (Nat.not_lt.mpr limit)]
  cases isData : parcel.mData with
  | none =>
      cases isNew : heap.data desired with
      | none => simp [isNew, isData] at allocated
      | some data => rfl
  | some data =>
      by_cases larger : desired > parcel.mDataCapacity
      · cases isNew : heap.data desired with
        | none =>
            simp only [isNew, ne_eq, not_true_eq_false, false_or] at allocated
            omega
        | some new => simp [larger]
      · simp [larger]

/-- `growData` resizes to its request, or refuses and changes nothing. -/
theorem Own.growData_eq (heap : Heap) (own : parcel.Own) (len : Nat) :
    (parcel.mDataSize < parcel.request len ∧ parcel.request len ≤ int32Max ∧
      parcel.growData heap len = some (parcel.resized heap (parcel.request len))) ∨
    (¬ (parcel.mDataSize < parcel.request len ∧ parcel.request len ≤ int32Max) ∧
      ∃ error, error ≠ noError ∧
        parcel.growData heap len = some { value := error, parcel, effects := [] }) := by
  by_cases accepted : parcel.mDataSize < parcel.request len ∧ parcel.request len ≤ int32Max
  · left
    refine ⟨accepted.1, accepted.2, ?_⟩
    simp only [request, int32Max] at accepted
    rw [growData, if_neg (by simp only [int32Max]; omega), if_neg (by simp only [sizeMax]; omega),
      if_neg (by simp only [sizeMax]; omega), if_neg (by omega), own.continueWrite_eq]
    rfl
  · refine .inr ⟨accepted, ?_⟩
    have badNotOk : badValue ≠ noError := by decide
    have noMemoryNotOk : noMemory ≠ noError := by decide
    by_cases large : len > int32Max
    · exact ⟨_, badNotOk, if_pos large⟩
    · rw [growData, if_neg large]
      by_cases wraps : len > sizeMax - parcel.mDataSize
      · exact ⟨_, noMemoryNotOk, if_pos wraps⟩
      · rw [if_neg wraps]
        by_cases beyond : parcel.mDataSize + len > sizeMax / 3
        · exact ⟨_, noMemoryNotOk, if_pos beyond⟩
        · rw [if_neg beyond]
          by_cases less : (parcel.mDataSize + len) * 3 / 2 ≤ parcel.mDataSize
          · exact ⟨_, noMemoryNotOk, if_pos less⟩
          · have limit : (parcel.mDataSize + len) * 3 / 2 > int32Max :=
              Nat.not_le.mp fun limit => accepted ⟨Nat.not_le.mp less, limit⟩
            refine ⟨_, badNotOk, ?_⟩
            rw [if_neg less, own.continueWrite_eq, resized, if_pos limit]

theorem Own.grown_iff (own : parcel.Own) (len : Nat) (restarted : Parcel) :
    parcel.grown heap len = some restarted ↔
      parcel.mDataSize < parcel.request len ∧ parcel.request len ≤ int32Max ∧
        (parcel.resized heap (parcel.request len)).value = noError ∧
        (parcel.resized heap (parcel.request len)).parcel = restarted := by
  rw [grown]
  rcases own.growData_eq heap len with ⟨more, limit, resizes⟩ |
      ⟨refused, error, isError, refuses⟩
  · simp [resizes, more, limit]
  · rw [refuses]
    simp only [Option.bind_eq_bind, Option.bind_some, if_neg isError]
    constructor
    · intro impossible
      cases impossible
    · rintro ⟨more, limit, _⟩
      exact absurd ⟨more, limit⟩ refused

theorem sizeAdd_le (a b : Nat) : sizeAdd a b ≤ a + b :=
  Nat.mod_le _ _

/-- Growing makes room at the cursor exactly where `GrowsEnough` says so. -/
theorem Own.growsEnough_iff (own : parcel.Own) (padded : Nat) :
    parcel.GrowsEnough heap padded ↔
      (parcel.mDataCapacity < sizeAdd parcel.mDataPos padded →
        ∀ restarted, parcel.grown heap padded = some restarted →
          restarted.mDataPos + padded ≤ restarted.mDataCapacity) := by
  have sum := sizeAdd_le parcel.mDataPos padded
  constructor
  · intro enough full restarted isGrown
    obtain ⟨more, limit, succeeded, rfl⟩ := (own.grown_iff padded restarted).mp isGrown
    have enough := enough full more limit
    rcases resized_cases succeeded with ⟨_, pos, capacity⟩ |
      ⟨notNull, larger, allocated, pos, capacity⟩ | ⟨notNull, covered, pos, capacity⟩
    · rw [pos, capacity, request]
      omega
    · rcases enough with null | ⟨_, failed | room⟩ | ⟨_, _⟩
      · exact absurd null notNull
      · exact absurd failed allocated
      · rwa [pos, capacity]
      · omega
    · rcases enough with null | ⟨larger, _⟩ | ⟨beyond, room⟩
      · exact absurd null notNull
      · omega
      · rw [pos, capacity]
        omega
  · intro room full more limit
    have room := fun succeeded => room full _ ((own.grown_iff padded _).mpr
      ⟨more, limit, succeeded, rfl⟩)
    by_cases null : parcel.mData = none
    · exact .inl null
    · right
      by_cases larger : parcel.mDataCapacity < parcel.request padded
      · refine .inl ⟨larger, ?_⟩
        by_cases failed : heap.data (parcel.request padded) = none
        · exact .inl failed
        · have succeeded : (parcel.resized heap (parcel.request padded)).value = noError :=
            resized_succeeds limit (.inl failed)
          have room := room succeeded
          rcases resized_cases succeeded with ⟨isNull, _⟩ | ⟨_, _, _, pos, capacity⟩ |
            ⟨_, covered, _⟩
          · exact absurd isNull null
          · rw [pos, capacity] at room
            exact .inr room
          · omega
      · have succeeded : (parcel.resized heap (parcel.request padded)).value = noError :=
          resized_succeeds limit (.inr ⟨null, Nat.not_lt.mp larger⟩)
        have room := room succeeded
        rcases resized_cases succeeded with ⟨isNull, _⟩ | ⟨_, covered, _⟩ |
          ⟨_, _, pos, capacity⟩
        · exact absurd isNull null
        · exact absurd covered larger
        · rw [pos, capacity] at room
          refine .inr ⟨?_, ?_⟩ <;> omega

theorem Within.append {first second : List (Nat × Nat)} (left : parcel.Within first)
    (right : parcel.Within second) : parcel.Within (first ++ second) := by
  intro store member
  rcases List.mem_append.mp member with inFirst | inSecond
  · exact left store inFirst
  · exact right store inSecond

theorem within_singleton {off len : Nat} (room : off + len ≤ parcel.mDataCapacity) :
    parcel.Within [(off, len)] := by
  intro store member byte inStore
  cases List.mem_singleton.mp member
  simp only at inStore ⊢
  omega

/-- With room for the padded bytes the padding word is inside. -/
theorem within_paddingWord {len : Nat} (small : len ≤ int32Max)
    (room : parcel.mDataPos + padSize len ≤ parcel.mDataCapacity) :
    parcel.Within (parcel.paddingWord len) := by
  rw [paddingWord]
  split
  next unaligned =>
    have padded := padSize_eq small
    exact within_singleton (by omega)
  next =>
    intro store member
    cases member

theorem le_padSize {len : Nat} (small : len ≤ int32Max) : len ≤ padSize len := by
  rw [padSize_eq small]
  omega

/-- The operations that go through `writeInplace`, whatever they store in the bytes
they reserve. -/
theorem Own.inplace_iff (own : parcel.Own) (len : Nat) (stores : Parcel → List (Nat × Nat))
    (inside : ∀ restarted : Parcel, len ≤ int32Max →
      restarted.mDataPos + padSize len ≤ restarted.mDataCapacity →
        restarted.Within (stores restarted)) :
    (∀ restarted, parcel.restartInplace heap len = some restarted →
      restarted.Within (stores restarted) ∧
      (parcel.mDataCapacity < sizeAdd parcel.mDataPos (padSize len) →
        restarted.mDataPos + padSize len ≤ restarted.mDataCapacity)) ↔
      (len ≤ int32Max → parcel.mDataPos + padSize len < 2 ^ 64 →
        parcel.GrowsEnough heap (padSize len)) := by
  have pos := own.pos
  constructor
  · intro every small noWrap
    rw [own.growsEnough_iff]
    intro full restarted isGrown
    have sum := sizeAdd_eq noWrap
    refine (every restarted ?_).2 full
    rw [restartInplace, if_neg (Nat.not_lt.mpr small), if_neg (by omega), if_neg (by omega)]
    exact isGrown
  · intro enough restarted isRestarted
    rw [restartInplace] at isRestarted
    split at isRestarted
    next => cases isRestarted
    next small =>
      have small := Nat.not_lt.mp small
      split at isRestarted
      next => cases isRestarted
      next noWrap =>
        have padded : padSize len < 2 ^ 33 := by
          rw [padSize_eq small]
          simp only [int32Max] at small
          omega
        have sum : sizeAdd parcel.mDataPos (padSize len) = parcel.mDataPos + padSize len := by
          simp only [sizeAdd] at noWrap ⊢
          omega
        split at isRestarted
        next fits =>
          cases isRestarted
          rw [sum] at fits ⊢
          exact ⟨inside _ small fits, fun full => absurd fits (Nat.not_le.mpr full)⟩
        next full =>
          have growsEnough := enough small (by simp only [sizeAdd] at sum; omega)
          rw [own.growsEnough_iff] at growsEnough
          have room := growsEnough (Nat.not_le.mp full) restarted isRestarted
          exact ⟨inside _ small room, fun _ => room⟩

theorem Own.aligned_iff (own : parcel.Own) :
    (∀ restarted, parcel.restartAligned heap 4 = some restarted →
      restarted.Within [(restarted.mDataPos, 4)] ∧
      (parcel.mDataCapacity < sizeAdd parcel.mDataPos 4 →
        restarted.mDataPos + 4 ≤ restarted.mDataCapacity)) ↔
      (2 ^ 64 ≤ parcel.mDataPos + 4 → parcel.mDataCapacity < sizeAdd parcel.mDataPos 4) ∧
        parcel.GrowsEnough heap 4 := by
  have small := own.small
  simp only [int32Max] at small
  rw [own.growsEnough_iff]
  constructor
  · intro every
    constructor
    · intro wraps
      by_contra fits
      have restarted : parcel.restartAligned heap 4 = some parcel :=
        if_pos (Nat.not_lt.mp fits)
      have inside := (every parcel restarted).1 _ (List.mem_singleton_self _) 0 (by simp)
      simp only at inside
      omega
    · intro full restarted isGrown
      refine (every restarted ?_).2 full
      rw [restartAligned, if_neg (Nat.not_le.mpr full)]
      exact isGrown
  · rintro ⟨noWrap, enough⟩ restarted isRestarted
    rw [restartAligned] at isRestarted
    split at isRestarted
    next fits =>
      cases isRestarted
      have sum : sizeAdd parcel.mDataPos 4 = parcel.mDataPos + 4 :=
        sizeAdd_eq (Nat.not_le.mp fun wraps => absurd fits (Nat.not_le.mpr (noWrap wraps)))
      rw [sum] at fits ⊢
      exact ⟨within_singleton fits, fun full => absurd fits (Nat.not_le.mpr full)⟩
    next full =>
      have room := enough (Nat.not_le.mp full) restarted isRestarted
      exact ⟨within_singleton room, fun _ => room⟩

/-- A call stores inside the buffer exactly where its condition holds. -/
theorem Own.inside_iff (own : parcel.Own) (call : Call) :
    call.Inside heap parcel ↔ call.Sound heap parcel := by
  cases call with
  | write data =>
      apply own.inplace_iff data.length fun restarted =>
        restarted.paddingWord data.length ++ [(restarted.mDataPos, data.length)]
      intro restarted small room
      have covers := le_padSize small
      exact (within_paddingWord small room).append (within_singleton (by omega))
  | writeInplace len =>
      apply own.inplace_iff len.toNat fun restarted => restarted.paddingWord len.toNat
      intro restarted small room
      exact within_paddingWord small room
  | writeInt32 val => exact own.aligned_iff
  | setDataSize size => exact ⟨fun _ => trivial, fun _ _ => nofun⟩
  | setDataPosition pos => exact ⟨fun _ => trivial, fun _ _ => nofun⟩

end Own

/-! ## What the calls change -/

/-- `after` is `before` with nothing but the cursor, the size and the cells of the
stores changed. -/
structure Stored (stores : List (Nat × Nat)) (before after : Parcel) : Prop where
  owner : after.mOwner = before.mOwner
  objects : after.mObjectsSize = before.mObjectsSize
  capacity : after.mDataCapacity = before.mDataCapacity
  address : after.ipcData = before.ipcData
  pos : before.mDataPos < 2 ^ 64 → after.mDataPos < 2 ^ 64
  cells : ∀ data, before.mData = some data → ∃ cells, after.mData = some { data with cells } ∧
    ∀ i, (∀ store ∈ stores, i < store.1 ∨ store.1 + store.2 ≤ i) → cells i = data.cells i

section Stored

variable {parcel next : Parcel} {heap : Heap}

theorem Stored.refl (parcel : Parcel) : Stored [] parcel parcel where
  owner := rfl
  objects := rfl
  capacity := rfl
  address := rfl
  pos := id
  cells := fun data isData => ⟨data.cells, isData, fun _ _ => rfl⟩

theorem Stored.trans {first second : List (Nat × Nat)} {middle : Parcel}
    (left : Stored first parcel middle) (right : Stored second middle next) :
    Stored (first ++ second) parcel next where
  owner := right.owner.trans left.owner
  objects := right.objects.trans left.objects
  capacity := right.capacity.trans left.capacity
  address := right.address.trans left.address
  pos := fun bound => right.pos (left.pos bound)
  cells := by
    intro data isData
    obtain ⟨middleCells, isMiddle, keptFirst⟩ := left.cells data isData
    obtain ⟨cells, isNext, keptSecond⟩ := right.cells _ isMiddle
    refine ⟨cells, isNext, ?_⟩
    intro i outside
    exact (keptSecond i fun store member => outside store (List.mem_append_right _ member)).trans
      (keptFirst i fun store member => outside store (List.mem_append_left _ member))

theorem Stored.own {stores : List (Nat × Nat)} (stored : Stored stores parcel next)
    (own : parcel.Own) : next.Own where
  owner := stored.owner.trans own.owner
  objects := stored.objects.trans own.objects
  small := stored.capacity ▸ own.small
  pos := stored.pos own.pos

/-- A store through a pointer to an offset of the buffer. -/
theorem stored_store {off : Nat} {bytes : List UInt8}
    (stored : parcel.store (parcel.ipcData + off) bytes = some next) :
    Stored [(off, bytes.length)] parcel next := by
  cases isData : parcel.mData with
  | none =>
      rw [store] at stored
      split at stored
      next =>
        cases stored
        exact { Stored.refl parcel with cells := by simp [isData] }
      next => simp [isData] at stored
  | some data =>
      have address : parcel.ipcData + off - data.addr = off := by simp [ipcData, isData]
      rw [store_eq parcel isData, address] at stored
      cases stored
      exact {
        owner := rfl
        objects := rfl
        capacity := rfl
        address := by simp [ipcData, isData, withCells]
        pos := id
        cells := by
          intro same isSame
          cases isData.symm.trans isSame
          refine ⟨_, rfl, ?_⟩
          intro i outside
          exact Mem.write_outside data.cells (outside _ (List.mem_singleton_self _)) }

theorem stored_finishWrite (parcel : Parcel) (len : Nat) :
    Stored [] parcel (parcel.finishWrite len).2 := by
  rw [finishWrite]
  split
  next => exact Stored.refl parcel
  next =>
    exact { Stored.refl parcel with pos := fun _ => Nat.mod_lt _ (by decide) }

/-- A call that stores less. -/
theorem Stored.append_right {stores : List (Nat × Nat)} (stored : Stored stores parcel next)
    (more : List (Nat × Nat)) : Stored (stores ++ more) parcel next :=
  { stored with
    cells := by
      intro data isData
      obtain ⟨cells, isNext, kept⟩ := stored.cells data isData
      exact ⟨cells, isNext, fun i outside =>
        kept i fun store member => outside store (List.mem_append_left _ member)⟩ }

/-- `restart_write` clears the padding word and returns the address of the cursor. -/
theorem stored_restartWrite {len pointer : Nat} (small : len ≤ int32Max)
    (ran : parcel.restartWrite len (padSize len) = some (pointer, next)) :
    Stored (parcel.paddingWord len) parcel next ∧ pointer = parcel.ipcData + parcel.mDataPos := by
  rw [restartWrite] at ran
  rw [paddingWord]
  split at ran
  next unaligned =>
    have padded := padSize_eq small
    obtain ⟨data, isData, ran⟩ := Option.bind_eq_some_iff.mp ran
    obtain ⟨cleared, isCleared, done⟩ := Option.bind_eq_some_iff.mp ran
    have wordLength : ((Mem.read data.cells (parcel.mDataPos + padSize len - 4) 4).take
        (4 - (padSize len - len)) ++ List.replicate (padSize len - len) 0).length = 4 := by
      simp only [List.length_append, List.length_take, Mem.read_length, List.length_replicate]
      omega
    have address : parcel.ipcData + parcel.mDataPos + padSize len - 4 =
        parcel.ipcData + (parcel.mDataPos + padSize len - 4) := by omega
    rw [address] at isCleared
    have stored := stored_store isCleared
    rw [wordLength] at stored
    cases done
    rw [if_pos unaligned]
    exact ⟨stored.trans (stored_finishWrite cleared _), rfl⟩
  next aligned =>
    cases ran
    rw [if_neg aligned]
    exact ⟨stored_finishWrite parcel _, rfl⟩

theorem Own.resized (heap : Heap) (own : parcel.Own) (desired : Nat) :
    (parcel.resized heap desired).parcel.Own := by
  have pos := own.pos
  rw [Parcel.resized]
  split
  next => exact own
  next limit =>
    split
    next =>
      split
      next => exact { own with }
      next => exact { own with small := Nat.not_lt.mp limit, pos := Nat.two_pow_pos 64 }
    next =>
      split
      next =>
        split
        next => exact { own with }
        next => exact { own with small := Nat.not_lt.mp limit }
      next => exact { own with pos := by simp only; omega }

/-- Whatever `growData` returns, it leaves the Parcel its own buffer. -/
theorem Own.growData_outcome (heap : Heap) (own : parcel.Own) (len : Nat) :
    ∃ outcome, parcel.growData heap len = some outcome ∧ outcome.parcel.Own := by
  rcases own.growData_eq heap len with ⟨_, _, resizes⟩ | ⟨_, _, _, refuses⟩
  · exact ⟨_, resizes, own.resized heap _⟩
  · exact ⟨_, refuses, own⟩

/-- `writeInplace` goes to `restart_write`, or returns null. -/
theorem Own.writeInplace_cases (heap : Heap) (own : parcel.Own) (len : Nat) :
    (∃ restarted effects, parcel.restartInplace heap len = some restarted ∧ restarted.Own ∧
      len ≤ int32Max ∧
      parcel.writeInplace heap len = (restarted.restartWrite len (padSize len)).map fun result =>
        { value := result.1, parcel := result.2, effects }) ∨
    (parcel.restartInplace heap len = none ∧ ∃ outcome,
      parcel.writeInplace heap len = some outcome ∧ outcome.value = 0 ∧ outcome.parcel.Own) := by
  rw [restartInplace, writeInplace]
  split
  next => exact .inr ⟨rfl, _, rfl, rfl, own⟩
  next small =>
    simp only
    split
    next => exact .inr ⟨rfl, _, rfl, rfl, own⟩
    next =>
      split
      next =>
        refine .inl ⟨parcel, [], rfl, own, Nat.not_lt.mp small, ?_⟩
        cases parcel.restartWrite len (padSize len) <;> rfl
      next =>
        obtain ⟨outcome, isOutcome, outcomeOwn⟩ := own.growData_outcome heap (padSize len)
        simp only [grown, isOutcome, Option.bind_eq_bind, Option.bind_some]
        split
        next =>
          refine .inl ⟨outcome.parcel, outcome.effects, rfl, outcomeOwn, Nat.not_lt.mp small, ?_⟩
          cases outcome.parcel.restartWrite len (padSize len) <;> rfl
        next => exact .inr ⟨rfl, _, rfl, rfl, outcomeOwn⟩

/-- `writeAligned` goes to `restart_write`, or returns the error of `growData`. -/
theorem Own.writeAligned_cases (heap : Heap) (own : parcel.Own) (val : List UInt8) :
    (∃ restarted effects, parcel.restartAligned heap val.length = some restarted ∧
      restarted.Own ∧
      parcel.writeAligned heap val =
        (restarted.store (restarted.ipcData + restarted.mDataPos) val).map fun stored =>
          { value := (stored.finishWrite val.length).1
            parcel := (stored.finishWrite val.length).2
            effects }) ∨
    (parcel.restartAligned heap val.length = none ∧ ∃ outcome,
      parcel.writeAligned heap val = some outcome ∧ outcome.parcel.Own) := by
  rw [restartAligned, writeAligned]
  split
  next =>
    refine .inl ⟨parcel, [], rfl, own, ?_⟩
    cases parcel.store (parcel.ipcData + parcel.mDataPos) val <;> rfl
  next =>
    obtain ⟨outcome, isOutcome, outcomeOwn⟩ := own.growData_outcome heap val.length
    simp only [grown, isOutcome, Option.bind_eq_bind, Option.bind_some]
    split
    next =>
      refine .inl ⟨outcome.parcel, outcome.effects, rfl, outcomeOwn, ?_⟩
      cases outcome.parcel.store (outcome.parcel.ipcData + outcome.parcel.mDataPos) val <;> rfl
    next => exact .inr ⟨rfl, _, rfl, outcomeOwn⟩

/-- A call that reaches `restart_write` changes the cells of its stores and no others;
every other call stores nothing. -/
theorem Own.run_stored {call : Call} (own : parcel.Own) (ran : call.run heap parcel = some next) :
    (∃ restarted, call.restart heap parcel = some restarted ∧ restarted.Own ∧
      Stored (call.stores restarted) restarted next) ∨
    (call.restart heap parcel = none ∧ next.Own) := by
  cases call with
  | write data =>
      obtain ⟨outcome, isOutcome, rfl⟩ := Option.map_eq_some_iff.mp ran
      rw [Parcel.write] at isOutcome
      split at isOutcome
      next large =>
        cases isOutcome
        exact .inr ⟨if_pos large, own⟩
      next =>
        rcases own.writeInplace_cases heap data.length with
          ⟨restarted, effects, isRestarted, restartedOwn, small, reserves⟩ |
            ⟨isNone, refused, refuses, isNull, refusedOwn⟩
        · refine .inl ⟨restarted, isRestarted, restartedOwn, ?_⟩
          rw [reserves] at isOutcome
          obtain ⟨reserved, isReserved, isOutcome⟩ := Option.bind_eq_some_iff.mp isOutcome
          obtain ⟨⟨pointer, cleared⟩, isCleared, rfl⟩ := Option.map_eq_some_iff.mp isReserved
          obtain ⟨clears, rfl⟩ := stored_restartWrite small isCleared
          simp only at isOutcome
          split at isOutcome
          next =>
            -- the payload goes to the address that `writeInplace` returned
            obtain ⟨copied, isCopied, done⟩ := Option.bind_eq_some_iff.mp isOutcome
            cases done
            rw [← clears.address] at isCopied
            exact clears.trans (stored_store isCopied)
          next =>
            cases isOutcome
            exact clears.append_right _
        · rw [refuses] at isOutcome
          simp only [Option.bind_eq_bind, Option.bind_some, isNull, ne_eq, not_true_eq_false,
            if_false] at isOutcome
          cases isOutcome
          exact .inr ⟨isNone, refusedOwn⟩
  | writeInplace len =>
      obtain ⟨outcome, isOutcome, rfl⟩ := Option.map_eq_some_iff.mp ran
      rcases own.writeInplace_cases heap len.toNat with
        ⟨restarted, effects, isRestarted, restartedOwn, small, reserves⟩ |
          ⟨isNone, refused, refuses, _, refusedOwn⟩
      · refine .inl ⟨restarted, isRestarted, restartedOwn, ?_⟩
        rw [reserves] at isOutcome
        obtain ⟨⟨pointer, cleared⟩, isCleared, rfl⟩ := Option.map_eq_some_iff.mp isOutcome
        exact (stored_restartWrite small isCleared).1
      · cases refuses.symm.trans isOutcome
        exact .inr ⟨isNone, refusedOwn⟩
  | writeInt32 val =>
      obtain ⟨outcome, isOutcome, rfl⟩ := Option.map_eq_some_iff.mp ran
      have length : (FlatRecord.int32.encode val).length = 4 := FlatRecord.int32.encode_length val
      rw [Parcel.writeInt32] at isOutcome
      rcases own.writeAligned_cases heap (FlatRecord.int32.encode val) with
        ⟨restarted, effects, isRestarted, restartedOwn, stores⟩ |
          ⟨isNone, refused, refuses, refusedOwn⟩
      · rw [length] at isRestarted
        refine .inl ⟨restarted, isRestarted, restartedOwn, ?_⟩
        rw [stores] at isOutcome
        obtain ⟨stored, isStored, rfl⟩ := Option.map_eq_some_iff.mp isOutcome
        have writes := stored_store isStored
        rw [length] at writes
        exact writes.trans (stored_finishWrite stored _)
      · rw [length] at isNone
        cases refuses.symm.trans isOutcome
        exact .inr ⟨isNone, refusedOwn⟩
  | setDataSize size =>
      obtain ⟨outcome, isOutcome, rfl⟩ := Option.map_eq_some_iff.mp ran
      refine .inr ⟨rfl, ?_⟩
      rw [Parcel.setDataSize] at isOutcome
      split at isOutcome
      next =>
        cases isOutcome
        exact own
      next =>
        have resizedOwn := own.resized heap size.toNat
        rw [own.continueWrite_eq] at isOutcome
        simp only [Option.bind_eq_bind, Option.bind_some] at isOutcome
        split at isOutcome
        next =>
          cases isOutcome
          exact { resizedOwn with }
        next =>
          cases isOutcome
          exact resizedOwn
  | setDataPosition pos =>
      cases ran
      exact .inr ⟨rfl, { own with pos := pos.toNat_lt }⟩

/-- One call, with the outcome of its allocations. -/
def PublicStep (parcel : Parcel) (event : Heap × Call) (next : Parcel) : Prop :=
  event.2.run event.1 parcel = some next

theorem Own.step {event : Heap × Call} (own : parcel.Own)
    (taken : PublicStep parcel event next) : next.Own := by
  rcases own.run_stored taken with ⟨restarted, _, restartedOwn, stored⟩ | ⟨_, nextOwn⟩
  · exact stored.own restartedOwn
  · exact nextOwn

end Stored

/-- In every reachable state, a call changes the cells of its stores and no others from
`restart_write` on, and they are inside the buffer exactly where its condition holds. -/
theorem stores_inside_iff {events : List (Heap × Call)} {parcel : Parcel}
    (reached : Run PublicStep initState events parcel) (heap : Heap) (call : Call) :
    (∀ next, call.run heap parcel = some next →
      ∀ restarted, call.restart heap parcel = some restarted →
        Stored (call.stores restarted) restarted next) ∧
    (call.Inside heap parcel ↔ call.Sound heap parcel) := by
  have own : parcel.Own := reached.invariant Own own_initState fun own taken => own.step taken
  constructor
  · intro next ran restarted isRestarted
    rcases own.run_stored ran with ⟨other, isOther, _, stored⟩ | ⟨isNone, _⟩
    · cases isRestarted.symm.trans isOther
      exact stored
    · cases isRestarted.symm.trans isNone
  · exact own.inside_iff call

/-- After one integer the buffer has six bytes, and the second one makes it grow to
twelve. -/
theorem stores_inside_two :
    ∃ events parcel restarted next, Run PublicStep initState events parcel ∧
      parcel.mDataSize = 4 ∧ parcel.mDataCapacity = 6 ∧
      (Call.writeInt32 1).run (Heap.fixed 4096 (by decide) (by decide)) parcel = some next ∧
      next.mDataSize = 8 ∧ restarted.mDataCapacity = 12 ∧ Stored [(4, 4)] restarted next ∧
      (Call.writeInt32 1).Inside (Heap.fixed 4096 (by decide) (by decide)) parcel := by
  let heap := Heap.fixed 4096 (by decide) (by decide)
  let first := ((Call.writeInt32 0).run heap initState).get (by decide)
  let restarted := ((Call.writeInt32 1).restart heap first).get (by decide)
  let next := ((Call.writeInt32 1).run heap first).get (by decide)
  have run : Run PublicStep initState [(heap, .writeInt32 0)] first :=
    .single (Option.some_get _).symm
  have sound : (Call.writeInt32 1).Sound heap first :=
    ⟨by decide, fun _ _ _ => .inr (.inl ⟨by decide, .inr (by decide)⟩)⟩
  have ran : (Call.writeInt32 1).run heap first = some next := (Option.some_get _).symm
  have atFour : Call.stores restarted (.writeInt32 1) = [(4, 4)] := by decide
  obtain ⟨stored, inside⟩ := stores_inside_iff run heap (.writeInt32 1)
  exact ⟨_, first, restarted, next, run, by decide, by decide, ran, by decide, by decide,
    atFour ▸ stored next ran restarted (Option.some_get _).symm, inside.mpr sound⟩

/-- With the cursor beyond the data the buffer grows for the data alone: to twelve
bytes, and the integer is stored at offset one hundred. -/
theorem store_beyond_capacity :
    ¬ ∀ events parcel, Run PublicStep initState events parcel →
      ∀ (heap : Heap) (call : Call), call.Inside heap parcel := by
  intro every
  let heap := Heap.fixed 4096 (by decide) (by decide)
  let first := ((Call.writeInt32 0).run heap initState).get (by decide)
  let moved := first.setDataPosition 100
  have run : Run PublicStep initState [(heap, .writeInt32 0), (heap, .setDataPosition 100)] moved :=
    .snoc (.single (Option.some_get _).symm) rfl
  let restarted := ((Call.writeInt32 1).restart heap moved).get (by decide)
  have isRestarted : (Call.writeInt32 1).restart heap moved = some restarted :=
    (Option.some_get _).symm
  have beyond : ¬ 100 + 0 < restarted.mDataCapacity := by decide
  have inside := (every _ _ run heap _ restarted isRestarted).1 (100, 4) (by decide) 0 (by decide)
  exact beyond inside

end Parcel

end DroidKernal.Binder
