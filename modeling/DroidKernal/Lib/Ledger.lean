import Mathlib.Data.Multiset.Bind
import Mathlib.Data.Finset.Card
import Mathlib.Data.Finset.Range
import Mathlib.Algebra.BigOperators.Group.Multiset.Basic

/-!
# The ledger of a heap

The blocks in use, with their addresses and sizes.  `free` and `realloc` of an address where
no block starts have no result.  The allocator gives out bytes that belong to no block in use,
and as long as it does, the blocks stay apart.
-/

namespace Lib

/-- The bytes of a block. -/
structure Extent where
  addr : Nat
  size : Nat
  deriving DecidableEq

/-- The addresses of the bytes. -/
def Extent.bytes (block : Extent) : Multiset Nat :=
  (Multiset.range block.size).map (block.addr + ·)

/-- What a program asks of the heap, with the block that it is given. -/
inductive HeapEvent where
  | malloc (new : Extent)
  | realloc (addr : Nat) (new : Extent)
  | free (addr : Nat)

/-- The blocks in use. -/
abbrev Ledger := Multiset Extent

namespace Ledger

/-- The addresses of all bytes in use. -/
def bytes (ledger : Ledger) : Multiset Nat := ledger.bind Extent.bytes

/-- The number of bytes in use. -/
def total (ledger : Ledger) : Nat := (ledger.map Extent.size).sum

/-- The blocks that start elsewhere. -/
def elsewhere (ledger : Ledger) (addr : Nat) : Ledger := ledger.filter (·.addr ≠ addr)

/-- Give a block back. -/
def release (ledger : Ledger) (addr : Nat) : Option Ledger :=
  if addr ∈ ledger.map Extent.addr then some (ledger.elsewhere addr) else none

/-- The blocks in use afterwards. -/
def perform (ledger : Ledger) : HeapEvent → Option Ledger
  | .malloc new => some (new ::ₘ ledger)
  | .realloc addr new => (ledger.release addr).map (new ::ₘ ·)
  | .free addr => ledger.release addr

/-- A block below a limit that shares nothing with those in use. -/
structure Fresh (limit : Nat) (new : Extent) (ledger : Ledger) : Prop where
  addr : new.addr ∉ ledger.map Extent.addr
  bytes : Disjoint new.bytes ledger.bytes
  within : new.addr + new.size ≤ limit

/-- The allocator may answer so. -/
def Grants (limit : Nat) (ledger : Ledger) : HeapEvent → Prop
  | .malloc new => Fresh limit new ledger
  | .realloc addr new => Fresh limit new (ledger.elsewhere addr)
  | .free _ => True

/-- No two blocks start at one address or share a byte, and all lie below a limit. -/
structure Sound (limit : Nat) (ledger : Ledger) : Prop where
  addrs : (ledger.map Extent.addr).Nodup
  bytes : ledger.bytes.Nodup
  within : ∀ byte ∈ ledger.bytes, byte < limit

section Lemmas

variable {limit : Nat} {ledger : Ledger} {block new : Extent}

@[simp] theorem bytes_cons : bytes (block ::ₘ ledger) = block.bytes + ledger.bytes :=
  Multiset.cons_bind ..

@[simp] theorem total_zero : total 0 = 0 := rfl

@[simp] theorem total_cons : total (block ::ₘ ledger) = block.size + ledger.total := by
  rw [total, Multiset.map_cons, Multiset.sum_cons]
  rfl

@[simp] theorem total_add {other : Ledger} :
    total (ledger + other) = ledger.total + other.total := by
  rw [total, Multiset.map_add, Multiset.sum_add]
  rfl

theorem nodup_bytes : block.bytes.Nodup :=
  (Multiset.nodup_range block.size).map fun _ _ same => Nat.add_left_cancel same

theorem mem_bytes {byte : Nat} (member : byte ∈ block.bytes) :
    byte < block.addr + block.size := by
  obtain ⟨i, inRange, rfl⟩ := Multiset.mem_map.mp member
  exact Nat.add_lt_add_left (Multiset.mem_range.mp inRange) _

theorem sound_zero : Sound limit 0 where
  addrs := Multiset.nodup_zero
  bytes := Multiset.nodup_zero
  within byte member := absurd member (Multiset.notMem_zero byte)

theorem Sound.cons (sound : Sound limit ledger) (fresh : Fresh limit new ledger) :
    Sound limit (new ::ₘ ledger) where
  addrs := by
    rw [Multiset.map_cons]
    exact Multiset.nodup_cons.mpr ⟨fresh.addr, sound.addrs⟩
  bytes := by
    rw [bytes_cons]
    exact Multiset.nodup_add.mpr ⟨nodup_bytes, sound.bytes, fresh.bytes⟩
  within := by
    intro byte member
    rw [bytes_cons] at member
    obtain isNew | isOld := Multiset.mem_add.mp member
    · exact Nat.lt_of_lt_of_le (mem_bytes isNew) fresh.within
    · exact sound.within byte isOld

theorem Sound.of_cons (sound : Sound limit (block ::ₘ ledger)) : Sound limit ledger where
  addrs := by
    have addrs := sound.addrs
    rw [Multiset.map_cons] at addrs
    exact (Multiset.nodup_cons.mp addrs).2
  bytes := by
    have bytes := sound.bytes
    rw [bytes_cons] at bytes
    exact (Multiset.nodup_add.mp bytes).2.1
  within byte member := sound.within byte (bytes_cons ▸ Multiset.mem_add.mpr (.inr member))

/-- Only the block starts at its address. -/
theorem Sound.elsewhere (sound : Sound limit (block ::ₘ ledger)) :
    Ledger.elsewhere (block ::ₘ ledger) block.addr = ledger := by
  have addrs := sound.addrs
  rw [Multiset.map_cons] at addrs
  have isOnly := (Multiset.nodup_cons.mp addrs).1
  rw [Ledger.elsewhere, Multiset.filter_cons_of_neg
    (p := fun other : Extent => other.addr ≠ block.addr) _ (not_not.mpr rfl)]
  apply Multiset.filter_eq_self.mpr
  intro other member same
  exact isOnly (Multiset.mem_map.mpr ⟨other, member, same⟩)

theorem Sound.release (sound : Sound limit (block ::ₘ ledger)) :
    Ledger.release (block ::ₘ ledger) block.addr = some ledger := by
  have isIn : block.addr ∈ Multiset.map Extent.addr (block ::ₘ ledger) :=
    Multiset.mem_map_of_mem _ (Multiset.mem_cons_self ..)
  rw [Ledger.release, if_pos isIn, sound.elsewhere]

/-- Blocks that are apart take no more than the memory that there is. -/
theorem Sound.total_le (sound : Sound limit ledger) : ledger.total ≤ limit := by
  have isCard : ledger.total = ledger.bytes.card := by
    rw [Ledger.bytes, Multiset.card_bind, total]
    congr 1
    apply Multiset.map_congr rfl
    intro block _
    rw [Function.comp_apply, Extent.bytes, Multiset.card_map, Multiset.card_range]
  rw [isCard]
  have isSubset : (⟨ledger.bytes, sound.bytes⟩ : Finset Nat) ⊆ Finset.range limit :=
    fun byte member => Finset.mem_range.mpr (sound.within byte member)
  have isLe := Finset.card_le_card isSubset
  rwa [Finset.card_range] at isLe

end Lemmas

end Ledger

end Lib
