import DroidKernal.Utils.String8

/-!
# The storage of strings

Every buffer has a count of one, whoever points to it: copies share a buffer without
counting, and so do all empty strings.  A string points to its own value for as long
as buffers are released or resized only by strings that share them with no other.
-/

namespace DroidKernal.Utils

open Lib

namespace StringMemory

/-- The buffer is in use and holds the bytes with a zero byte after them. -/
structure Holds (memory : StringMemory) (buf : Nat) (bytes : List UInt8) : Prop where
  live : memory.storage.Live buf
  size : (memory.storage.block buf).mSize = bytes.length + 1
  cells : Mem.read (memory.storage.block buf).cells 0 (bytes.length + 1) = bytes ++ [0]

/-- Buffers have one owner, and the static one is empty while it is in use. -/
structure Sane (memory : StringMemory) : Prop where
  exclusive : memory.storage.Exclusive
  known : ∀ empty, memory.gEmptyStringBuf = some empty → empty < memory.storage.allocated
  empty : ∀ empty, memory.gEmptyStringBuf = some empty → memory.storage.Live empty →
    memory.Holds empty []

/-- The static buffer was not freed. -/
def EmptyUsable (memory : StringMemory) : Prop :=
  ∀ empty, memory.gEmptyStringBuf = some empty → empty ∉ memory.storage.freed

/-- `allocFromUTF8` makes a buffer for the bytes. -/
def OwnBuffer (a : Allocator UInt8) (bytes : List UInt8) : Prop :=
  bytes ≠ [] ∧ bytes.length ≠ sizeMax ∧ a.mallocBuffer (bytes.length + 1) ≠ none

/-- What only added buffers to the memory. -/
structure Extends (before after : StringMemory) : Prop where
  freed : after.storage.freed = before.storage.freed
  allocated : before.storage.allocated ≤ after.storage.allocated
  kept : ∀ buf, buf < before.storage.allocated →
    after.storage.block buf = before.storage.block buf

section Memory

variable {memory next : StringMemory} {a : Allocator UInt8} {buf : Nat} {bytes : List UInt8}

theorem Extends.refl (memory : StringMemory) : Extends memory memory where
  freed := rfl
  allocated := Nat.le_refl _
  kept := fun _ _ => rfl

theorem Holds.lt (holds : memory.Holds buf bytes) : buf < memory.storage.allocated :=
  holds.live.1

/-- A buffer that stays in use unchanged holds what it held. -/
theorem Holds.congr (holds : memory.Holds buf bytes) (live : next.storage.Live buf)
    (same : next.storage.block buf = memory.storage.block buf) : next.Holds buf bytes where
  live := live
  size := same ▸ holds.size
  cells := same ▸ holds.cells

/-- A buffer holds one value. -/
theorem Holds.unique {other : List UInt8} (holds : memory.Holds buf bytes)
    (holds' : memory.Holds buf other) : bytes = other := by
  have length : bytes.length = other.length :=
    Nat.succ.inj (holds.size.symm.trans holds'.size)
  have cells := holds'.cells
  rw [← length] at cells
  exact List.append_cancel_right (holds.cells.symm.trans cells)

theorem Extends.holds (grows : Extends memory next) (holds : memory.Holds buf bytes) :
    next.Holds buf bytes :=
  holds.congr ⟨Nat.lt_of_lt_of_le holds.live.1 grows.allocated, grows.freed ▸ holds.live.2⟩
    (grows.kept buf holds.live.1)

theorem Extends.usable (grows : Extends memory next)
    (sameEmpty : next.gEmptyStringBuf = memory.gEmptyStringBuf) (usable : memory.EmptyUsable) :
    next.EmptyUsable := by
  intro empty isEmpty
  rw [grows.freed]
  exact usable empty (sameEmpty ▸ isEmpty)

theorem Sane.holds_empty (sane : memory.Sane) (usable : memory.EmptyUsable)
    (isEmpty : memory.gEmptyStringBuf = some buf) : memory.Holds buf [] :=
  sane.empty buf isEmpty ⟨sane.known buf isEmpty, usable buf isEmpty⟩

/-! ### New buffers -/

/-- The memory with a new buffer for the bytes. -/
def built (memory : StringMemory) (cells : Nat → UInt8) (bytes : List UInt8) : StringMemory :=
  { memory with
    storage := memory.storage.add {
      mRefs := 1
      mSize := bytes.length + 1
      cells := Mem.write (Mem.write cells 0 bytes) bytes.length [0] } }

theorem built_extends (memory : StringMemory) (cells : Nat → UInt8) (bytes : List UInt8) :
    Extends memory (memory.built cells bytes) where
  freed := rfl
  allocated := Nat.le_succ _
  kept := fun _ old => Blocks.add_block (Nat.ne_of_lt old)

/-- The zero byte goes after the bytes. -/
theorem read_terminated {cells : Nat → UInt8} {before : List UInt8} (bytes : List UInt8)
    (held : Mem.read cells 0 before.length = before) :
    Mem.read (Mem.write (Mem.write cells before.length bytes) (before.length + bytes.length) [0]) 0
      (before.length + bytes.length + 1) = before ++ bytes ++ [0] := by
  have copied := Mem.read_write_append bytes held
  have heldBoth : Mem.read (Mem.write cells before.length bytes) 0 (before ++ bytes).length =
      before ++ bytes := by rwa [List.length_append]
  have terminated := Mem.read_write_append [0] heldBoth
  rwa [List.length_append] at terminated

/-- A new buffer, where the names of new buffers were not used before. -/
theorem built_holds (known : ∀ old ∈ memory.storage.freed, old < memory.storage.allocated)
    (cells : Nat → UInt8) (bytes : List UInt8) :
    (memory.built cells bytes).Holds memory.storage.allocated bytes where
  live := ⟨Nat.lt_succ_self _, fun freed => Nat.lt_irrefl _ (known _ freed)⟩
  size := by simp [built]
  cells := by
    have nothing : Mem.read cells 0 ([] : List UInt8).length = [] := rfl
    have terminated := read_terminated bytes nothing
    simp only [List.length_nil, Nat.zero_add, List.nil_append] at terminated
    simpa only [built, Blocks.add_block_new] using terminated

theorem Sane.built_holds (sane : memory.Sane) (cells : Nat → UInt8) (bytes : List UInt8) :
    (memory.built cells bytes).Holds memory.storage.allocated bytes :=
  StringMemory.built_holds sane.exclusive.sane.known cells bytes

theorem Sane.built (sane : memory.Sane) (cells : Nat → UInt8) (bytes : List UInt8) :
    (memory.built cells bytes).Sane where
  exclusive := sane.exclusive.add rfl
  known := fun empty isEmpty => Nat.lt_succ_of_lt (sane.known empty isEmpty)
  empty := by
    intro empty isEmpty live
    have known := sane.known empty isEmpty
    exact (built_extends memory cells bytes).holds (sane.empty empty isEmpty ⟨known, live.2⟩)

/-- What `getEmptyString` returns: the static buffer as it is, or a new empty one. -/
theorem getEmptyString_cases (isEmpty : memory.getEmptyString a = some (buf, next)) :
    (memory.gEmptyStringBuf = some buf ∧ next = memory) ∨
    (memory.gEmptyStringBuf = none ∧ buf = memory.storage.allocated ∧
      ∃ cells, next = { memory.built cells [] with gEmptyStringBuf := some buf }) := by
  rw [getEmptyString] at isEmpty
  split at isEmpty
  next empty found =>
    cases isEmpty
    exact .inl ⟨found, rfl⟩
  next notYet =>
    rw [Storage.alloc] at isEmpty
    cases found : a.mallocBuffer 1 with
    | none =>
        rw [found] at isEmpty
        cases isEmpty
    | some cells =>
        rw [found] at isEmpty
        cases isEmpty
        refine .inr ⟨notYet, rfl, cells, ?_⟩
        simp [copy, built, Blocks.add, Blocks.set]

theorem Sane.getEmptyString (sane : memory.Sane)
    (isEmpty : memory.getEmptyString a = some (buf, next)) :
    next.Sane ∧ Extends memory next ∧ next.gEmptyStringBuf = some buf ∧
      (memory.EmptyUsable → next.Holds buf []) := by
  rcases getEmptyString_cases isEmpty with ⟨found, rfl⟩ | ⟨notYet, rfl, cells, rfl⟩
  · exact ⟨sane, .refl _, found, fun usable => sane.holds_empty usable found⟩
  · have holds := sane.built_holds cells []
    have extended := built_extends memory cells []
    refine ⟨?_, ⟨extended.freed, extended.allocated, extended.kept⟩, rfl,
      fun _ => ⟨holds.live, holds.size, holds.cells⟩⟩
    exact {
      exclusive := (sane.built cells []).exclusive
      known := by
        intro empty isNew
        cases isNew
        exact holds.live.1
      empty := by
        intro empty isNew _
        cases isNew
        exact ⟨holds.live, holds.size, holds.cells⟩ }

/-- What `allocFromUTF8` returns: a new buffer, the static one for no bytes, or null. -/
theorem allocFromUTF8_cases {newString : Option Nat}
    (allocated : memory.allocFromUTF8 a bytes = some (newString, next)) :
    (OwnBuffer a bytes ∧ newString = some memory.storage.allocated ∧
      ∃ cells, next = memory.built cells bytes) ∨
    (¬ OwnBuffer a bytes ∧ bytes = [] ∧
      ∃ buf, newString = some buf ∧ memory.getEmptyString a = some (buf, next)) ∨
    (¬ OwnBuffer a bytes ∧ bytes ≠ [] ∧ newString = none ∧ next = memory) := by
  rw [allocFromUTF8] at allocated
  split at allocated
  next nonempty =>
    have notNil : bytes ≠ [] := List.ne_nil_of_length_pos nonempty
    split at allocated
    next largest =>
      cases allocated
      exact .inr (.inr ⟨fun own => own.2.1 largest, notNil, rfl, rfl⟩)
    next small =>
      rw [Storage.alloc] at allocated
      cases found : a.mallocBuffer (bytes.length + 1) with
      | none =>
          rw [found] at allocated
          cases allocated
          exact .inr (.inr ⟨fun own => own.2.2 found, notNil, rfl, rfl⟩)
      | some cells =>
          rw [found] at allocated
          cases allocated
          refine .inl ⟨⟨notNil, small, by simp [found]⟩, rfl, cells, ?_⟩
          simp [copy, built, Blocks.add, Blocks.set]
  next isEmpty =>
    have nil : bytes = [] := List.eq_nil_of_length_eq_zero (Nat.eq_zero_of_not_pos isEmpty)
    obtain ⟨⟨buf, memory'⟩, gotEmpty, done⟩ := Option.bind_eq_some_iff.mp allocated
    cases done
    exact .inr (.inl ⟨fun own => own.1 nil, nil, buf, rfl, gotEmpty⟩)

/-! ### Releasing -/

/-- The memory without a buffer that was released. -/
def drop (memory : StringMemory) (old : Nat) : StringMemory :=
  { memory with storage := memory.storage.drop old }

theorem Holds.drop {old : Nat} (holds : memory.Holds buf bytes) (differ : buf ≠ old) :
    (memory.drop old).Holds buf bytes :=
  holds.congr (Storage.live_drop.mpr ⟨holds.live, differ⟩) (Storage.drop_block differ)

theorem Sane.drop {old : Nat} (sane : memory.Sane) (live : memory.storage.Live old) :
    (memory.drop old).Sane where
  exclusive := sane.exclusive.drop live
  known := sane.known
  empty := by
    intro empty isEmpty stillLive
    obtain ⟨wasLive, differ⟩ := Storage.live_drop.mp stillLive
    exact (sane.empty empty isEmpty wasLive).drop differ

/-- The condition on a string that gets another value: it gets a buffer for it, or the
static buffer is in use and is not the one that is released. -/
def Replaceable (a : Allocator UInt8) (memory : StringMemory) (old : Nat) (bytes : List UInt8) :
    Prop :=
  OwnBuffer a bytes ∨ memory.EmptyUsable ∧ memory.gEmptyStringBuf ≠ some old

/-- Where the condition does not hold, the static buffer is among the freed ones after
the release. -/
theorem freed_of_not_replaceable {old : Nat} (not : ¬ memory.Replaceable a old bytes) :
    ∃ empty, memory.gEmptyStringBuf = some empty ∧ empty ∈ (memory.drop old).storage.freed := by
  by_cases isOld : memory.gEmptyStringBuf = some old
  · exact ⟨old, isOld, by simp [StringMemory.drop]⟩
  · have unusable : ¬ memory.EmptyUsable := fun usable => not (.inr ⟨usable, isOld⟩)
    rw [EmptyUsable] at unusable
    push Not at unusable
    obtain ⟨empty, isEmpty, isFreed⟩ := unusable
    exact ⟨empty, isEmpty, by simp [StringMemory.drop, isFreed]⟩

/-- The static buffer as it is. -/
theorem getEmptyString_of_some (isEmpty : memory.gEmptyStringBuf = some buf) :
    memory.getEmptyString a = some (buf, memory) := by
  rw [StringMemory.getEmptyString, isEmpty]

/-- The outcome of `setTo` for a string with a buffer of its own value: its old buffer is
freed; it then holds what it was set to, and every other buffer is as before, exactly
where the condition holds. -/
structure Replaced (a : Allocator UInt8) (memory : StringMemory) (old : Nat)
    (other : List UInt8) (status : Int) (mString : Option Nat) (next : StringMemory) : Prop where
  freed : old ∈ next.storage.freed
  sane : memory.Replaceable a old other → next.Sane
  holds : memory.Replaceable a old other →
    ∃ buf, mString = some buf ∧ next.Holds buf (if status = 0 then other else [])
  kept : memory.Replaceable a old other →
    ∀ buf bytes, buf ≠ old → memory.Holds buf bytes → next.Holds buf bytes
  dangles : ¬ memory.Replaceable a old other → ∃ buf ∈ next.storage.freed, mString = some buf

theorem Sane.setTo {old : Nat} {other value : List UInt8} {status : Int} {mString : Option Nat}
    (sane : memory.Sane) (held : memory.Holds old value)
    (isSet : memory.setTo a (some old) other = some (status, mString, next)) :
    Replaced a memory old other status mString next := by
  obtain ⟨⟨newString, grown⟩, allocated, ran⟩ := Option.bind_eq_some_iff.mp isSet
  simp only [Option.bind_eq_bind, Option.bind_some] at ran
  rcases allocFromUTF8_cases allocated with ⟨own, rfl, cells, rfl⟩ |
    ⟨noBuffer, rfl, buf, rfl, gotEmpty⟩ | ⟨noBuffer, notNil, rfl, rfl⟩
  · -- the value has a buffer of its own
    have grows := built_extends memory cells other
    have stillHeld := grows.holds held
    have grownSane := sane.built cells other
    rw [grownSane.exclusive.release stillHeld.live] at ran
    cases ran
    exact {
      freed := by simp
      sane := fun _ => grownSane.drop stillHeld.live
      holds := fun _ =>
        ⟨_, rfl, (sane.built_holds cells other).drop (Nat.ne_of_gt held.lt)⟩
      kept := fun _ buf bytes differ holds => (grows.holds holds).drop differ
      dangles := fun not => absurd (.inl own) not }
  · -- the empty string
    obtain ⟨grownSane, grows, isEmpty, holdsNil⟩ := sane.getEmptyString gotEmpty
    have stillHeld := grows.holds held
    rw [grownSane.exclusive.release stillHeld.live] at ran
    cases ran
    exact {
      freed := by simp
      sane := fun _ => grownSane.drop stillHeld.live
      holds := by
        rintro (own | ⟨usable, differs⟩)
        · exact absurd own noBuffer
        · refine ⟨buf, rfl, (holdsNil usable).drop ?_⟩
          rcases getEmptyString_cases gotEmpty with ⟨found, _⟩ | ⟨_, rfl, _⟩
          · exact fun same => differs (same ▸ found)
          · exact Nat.ne_of_gt held.lt
      kept := fun _ buf bytes differ holds => (grows.holds holds).drop differ
      dangles := by
        intro not
        obtain ⟨empty, found, isFreed⟩ := freed_of_not_replaceable not
        cases gotEmpty.symm.trans (getEmptyString_of_some found)
        exact ⟨_, isFreed, rfl⟩ }
  · -- no memory: the old buffer is released first
    rw [sane.exclusive.release held.live] at ran
    obtain ⟨⟨empty, memory'⟩, gotEmpty, done⟩ := Option.bind_eq_some_iff.mp ran
    cases done
    have droppedSane := sane.drop held.live
    obtain ⟨nextSane, grows, _, holdsNil⟩ := droppedSane.getEmptyString gotEmpty
    exact {
      freed := by
        rw [grows.freed]
        exact List.mem_append_right _ (List.mem_singleton_self old)
      sane := fun _ => nextSane
      holds := by
        rintro (own | ⟨usable, differs⟩)
        · exact absurd own noBuffer
        · have stillUsable : (grown.drop old).EmptyUsable := by
            intro empty isEmpty isFreed
            rcases List.mem_append.mp isFreed with before | last
            · exact usable empty isEmpty before
            · cases List.mem_singleton.mp last
              exact differs isEmpty
          exact ⟨empty, rfl, holdsNil stillUsable⟩
      kept := fun _ buf bytes differ holds => grows.holds (holds.drop differ)
      dangles := by
        intro not
        obtain ⟨static, found, isFreed⟩ := freed_of_not_replaceable not
        cases gotEmpty.symm.trans (getEmptyString_of_some found)
        exact ⟨_, isFreed, rfl⟩ }

/-! ### Appending -/

/-- `memcpy` and the zero byte, into a buffer that was resized for them. -/
theorem append_cells {buffer : CountedBuffer UInt8} {value : List UInt8} (other : List UInt8)
    (cells : Nat → UInt8) (size : buffer.mSize = value.length + 1)
    (held : Mem.read buffer.cells 0 (value.length + 1) = value ++ [0]) :
    Mem.read (Mem.write (Mem.write
        (buffer.resized 1 (other.length + value.length + 1) cells).cells value.length other)
      (value.length + other.length) [0]) 0 (value.length + other.length + 1) =
        value ++ other ++ [0] := by
  apply read_terminated
  have kept : Mem.read (buffer.resized 1 (other.length + value.length + 1) cells).cells 0
      value.length = Mem.read buffer.cells 0 value.length := by
    apply Mem.read_congr
    intro i bound
    simp only [CountedBuffer.resized, size, Nat.div_one]
    rw [if_pos (by omega)]
  rw [Mem.read_add] at held
  rw [kept]
  exact (List.append_inj held (Mem.read_length ..)).1

/-- Two copies into one buffer. -/
theorem copy_copy (memory : StringMemory) (buf off off' : Nat) (bytes bytes' : List UInt8) :
    (memory.copy buf off bytes).copy buf off' bytes' =
      { memory with
        storage := memory.storage.set buf {
          memory.storage.block buf with
          cells := Mem.write (Mem.write (memory.storage.block buf).cells off bytes) off' bytes' } } := by
  simp [copy]

/-- The outcome of `real_append` for a string with a buffer of its value: the string
holds its longer value, and the other buffers are as before; unless no memory was
found, its old buffer is freed or holds the longer value. -/
structure Appended (a : Allocator UInt8) (memory : StringMemory) (old : Nat)
    (value other : List UInt8) (status : Int) (mString : Option Nat) (next : StringMemory) :
    Prop where
  sane : next.Sane
  holds : ∃ buf, mString = some buf ∧
    next.Holds buf (if status = 0 then value ++ other else value)
  kept : ∀ buf bytes, buf ≠ old → memory.Holds buf bytes → next.Holds buf bytes
  changed : (a.reallocBuffer (other.length + value.length + 1) ≠ none ∨
    a.mallocBuffer (other.length + value.length + 1) ≠ none) → ¬ next.Holds old value
  unchanged : a.reallocBuffer (other.length + value.length + 1) = none →
    a.mallocBuffer (other.length + value.length + 1) = none → next = memory

/-- The string has the longer value in the buffer it holds now, and the other buffers in
use are untouched. -/
theorem appended_of {old str : Nat} {value other : List UInt8} {mString : Option Nat}
    {cells : Nat → UInt8} (found : a.reallocBuffer (other.length + value.length + 1) = some cells ∨
      a.mallocBuffer (other.length + value.length + 1) = some cells)
    (sane : memory.Sane) (notStatic : memory.gEmptyStringBuf ≠ some old)
    (pointer : mString = some str) (sameEmpty : next.gEmptyStringBuf = memory.gEmptyStringBuf)
    (allocated : memory.storage.allocated ≤ next.storage.allocated)
    (live : ∀ buf, next.storage.Live buf → buf < memory.storage.allocated → memory.storage.Live buf)
    (stays : ∀ buf, buf ≠ old → memory.storage.Live buf → next.storage.Live buf)
    (exclusive : next.storage.Exclusive) (holds : next.Holds str (value ++ other))
    (kept : ∀ buf, buf ≠ old → memory.storage.Live buf →
      next.storage.block buf = memory.storage.block buf)
    (changed : ¬ next.Holds old value) : Appended a memory old value other 0 mString next where
  sane := {
    exclusive := exclusive
    known := by
      intro empty isEmpty
      exact Nat.lt_of_lt_of_le (sane.known empty (sameEmpty ▸ isEmpty)) allocated
    empty := by
      intro empty isEmpty isLive
      rw [sameEmpty] at isEmpty
      have wasLive := live empty isLive (sane.known empty isEmpty)
      have differ : empty ≠ old := fun same => notStatic (same ▸ isEmpty)
      exact (sane.empty empty isEmpty wasLive).congr isLive (kept empty differ wasLive) }
  holds := ⟨str, pointer, holds⟩
  kept := fun buf _ differ holds =>
    holds.congr (stays buf differ holds.live) (kept buf differ holds.live)
  changed := fun _ => changed
  unchanged := fun noRealloc noMalloc => by simp [noRealloc, noMalloc] at found

theorem Sane.realAppend {old : Nat} {value other : List UInt8} {status : Int}
    {mString : Option Nat} (sane : memory.Sane) (held : memory.Holds old value)
    (nonempty : value ≠ []) (more : other ≠ [])
    (keeps : a.KeepsBuffer (other.length + value.length + 1))
    (appended : memory.realAppend a (some old) other = some (status, mString, next)) :
    Appended a memory old value other status mString next := by
  have size := held.size
  have valueLength := List.length_pos_iff.mpr nonempty
  have otherLength := List.length_pos_iff.mpr more
  have notStatic : memory.gEmptyStringBuf ≠ some old := by
    intro isStatic
    have staticSize := (sane.empty old isStatic held.live).size
    simp only [List.length_nil] at staticSize
    omega
  have myLen : memory.length (some old) = value.length := by
    rw [StringMemory.length, size, Nat.add_sub_cancel]
  rw [StringMemory.realAppend] at appended
  simp only [myLen, Option.bind_eq_bind, Option.bind_some] at appended
  have resizes := sane.exclusive.editResize_resizes held.live a 1
    (other.length + value.length + 1) keeps
  generalize Storage.editResize a 1 memory.storage old (other.length + value.length + 1) = result
    at appended resizes
  cases resizes with
  | same sameSize =>
      rw [size] at sameSize
      omega
  | failed noRealloc noMalloc =>
      cases appended
      exact {
        sane := sane
        holds := ⟨old, rfl, held⟩
        kept := fun _ _ _ holds => holds
        changed := fun found => absurd found (by simp [noRealloc, noMalloc])
        unchanged := fun _ _ => rfl }
  | inPlace cells found =>
      simp only [copy_copy, Blocks.set_set] at appended
      cases appended
      have one := sane.exclusive.refs old held.live
      have live := held.live
      have terminated := append_cells other cells size held.cells
      refine appended_of (.inl found) sane notStatic rfl rfl (Nat.le_refl _) (fun _ isLive _ => isLive)
        (fun _ _ wasLive => wasLive) (sane.exclusive.set (by simpa [CountedBuffer.resized] using one))
        ⟨live, ?_, ?_⟩ ?_ ?_
      · simp [CountedBuffer.resized]
        omega
      · simpa using terminated
      · intro buf differ holds
        exact Blocks.set_block differ
      · intro holds
        have sameSize := holds.size
        exact more (by simpa [CountedBuffer.resized] using sameSize)
  | moved cells found exclusive allocated freed new kept =>
      simp only [copy_copy] at appended
      cases appended
      rename_i after
      have oldFreed : old ∈ after.freed := by
        rw [freed]
        exact List.mem_append_right _ (List.mem_singleton_self old)
      have newLive : after.Live memory.storage.allocated := by
        refine ⟨by omega, ?_⟩
        rw [freed]
        intro isFreed
        rcases List.mem_append.mp isFreed with before | last
        · exact Nat.lt_irrefl _ (sane.exclusive.sane.known _ before)
        · exact held.live.ne_new (List.mem_singleton.mp last).symm
      have one := exclusive.refs _ newLive
      have terminated := append_cells other cells size held.cells
      refine appended_of found sane notStatic rfl rfl (by simp [allocated]) ?_ ?_
        (exclusive.set one) ⟨newLive, ?_, ?_⟩ ?_ ?_
      · intro buf isLive wasAllocated
        refine ⟨wasAllocated, fun isFreed => isLive.2 ?_⟩
        rw [Blocks.set_freed, freed]
        exact List.mem_append_left _ isFreed
      · intro buf differ wasLive
        refine ⟨by simp only [Blocks.set_allocated, allocated]; exact Nat.lt_succ_of_lt wasLive.1, ?_⟩
        rw [Blocks.set_freed, freed]
        intro isFreed
        rcases List.mem_append.mp isFreed with before | last
        · exact wasLive.2 before
        · exact differ (List.mem_singleton.mp last)
      · simp [new, CountedBuffer.resized]
        omega
      · simpa [new] using terminated
      · intro buf differ wasLive
        exact (Blocks.set_block wasLive.ne_new).trans (kept buf wasLive.ne_new differ)
      · intro holds
        exact holds.live.2 oldFreed

/-- The longer value where `realloc` frees the buffer. -/
theorem Sane.realAppend_loses {old : Nat} {value other : List UInt8} {status : Int}
    {mString : Option Nat} (sane : memory.Sane) (held : memory.Holds old value) (more : other ≠ [])
    (loses : ¬ a.KeepsBuffer (other.length + value.length + 1))
    (appended : memory.realAppend a (some old) other = some (status, mString, next)) :
    mString = some old ∧ old ∈ next.storage.freed ∨ ¬ next.storage.freed.Nodup := by
  have otherLength := List.length_pos_iff.mpr more
  have differs : (memory.storage.block old).mSize ≠ other.length + value.length + 1 := by
    rw [held.size]
    omega
  have myLen : memory.length (some old) = value.length := by
    rw [StringMemory.length, held.size, Nat.add_sub_cancel]
  rw [StringMemory.realAppend] at appended
  simp only [myLen, Option.bind_eq_bind, Option.bind_some] at appended
  rcases sane.exclusive.editResize_loses held.live differs loses with
    lost | ⟨after, isResized, freed⟩
  · rw [lost] at appended
    cases appended
    exact .inl ⟨rfl, List.mem_append_right _ (List.mem_singleton_self old)⟩
  · rw [isResized] at appended
    cases appended
    refine .inr fun once => ?_
    simp only [copy, Blocks.set_freed, freed] at once
    simp [List.nodup_append] at once

end Memory

end StringMemory

/-! ## Programs -/

variable {ι : Type}

/-- No buffer was freed twice, and every string points to a buffer in use with its own
value. -/
structure StringState.Sound (state : StringState ι) : Prop where
  once : state.memory.storage.freed.Nodup
  objects : ∀ i object, state.objects i = some object →
    ∃ buf, object.mString = some buf ∧ state.memory.Holds buf object.built

/-- No other string points to the buffer of this one. -/
def StringState.Unshared (state : StringState ι) (i : ι) : Prop :=
  ∀ j object other, j ≠ i → state.objects i = some object → state.objects j = some other →
    other.mString ≠ object.mString

/-- The condition on a call.  A string that becomes empty needs the static buffer; a
string whose buffer is released or resized must not share it. -/
def StringCall.Meets (a : Allocator UInt8) (state : StringState ι) : StringCall ι → Prop
  | .default _ => state.memory.EmptyUsable
  | .ofCString _ bytes => StringMemory.OwnBuffer a bytes ∨ state.memory.EmptyUsable
  | .copy _ _ => True
  | .setTo i other => ∀ object buf, state.objects i = some object → object.mString = some buf →
      state.Unshared i ∧ state.memory.Replaceable a buf other
  | .append i other => ∀ object buf, state.objects i = some object → object.mString = some buf →
      if state.memory.length (some buf) = 0 then
        state.Unshared i ∧ state.memory.Replaceable a buf other
      else
        let size := other.length + state.memory.length (some buf) + 1
        other = [] ∨ a.KeepsBuffer size ∧
          (a.reallocBuffer size = none ∧ a.mallocBuffer size = none ∨ state.Unshared i)
  | .destroy _ => True

/-- What holds while every call meets the condition. -/
structure StringState.Counted (state : StringState ι) : Prop where
  sane : state.memory.Sane
  objects : ∀ i object, state.objects i = some object →
    ∃ buf, object.mString = some buf ∧ state.memory.Holds buf object.built

theorem StringState.Counted.sound {state : StringState ι} (counted : state.Counted) :
    state.Sound where
  once := counted.sane.exclusive.sane.once
  objects := counted.objects

theorem StringState.Counted.init : (StringState.init : StringState ι).Counted where
  sane := {
    exclusive := {
      sane := ⟨nofun, .nil⟩
      refs := fun _ live => absurd live.1 (Nat.not_lt_zero _) }
    known := nofun
    empty := nofun }
  objects := nofun

variable [DecidableEq ι]

section Steps

open StringMemory

variable {state next : StringState ι} {a : Allocator UInt8} {i : ι} {memory : StringMemory}
  {object : StringObject} {old : Nat}

theorem StringState.Counted.put (sane : memory.Sane)
    (holds : ∃ buf, object.mString = some buf ∧ memory.Holds buf object.built)
    (others : ∀ j other, j ≠ i → state.objects j = some other →
      ∃ buf, other.mString = some buf ∧ memory.Holds buf other.built) :
    (state.put i object memory).Counted where
  sane := sane
  objects := by
    intro j other isOther
    by_cases same : j = i
    · subst same
      cases (Function.update_self ..).symm.trans isOther
      exact holds
    · exact others j other same ((Function.update_of_ne same ..).symm.trans isOther)

theorem StringState.Sound.put_self (sound : (state.put i object memory).Sound) :
    ∃ buf, object.mString = some buf ∧ memory.Holds buf object.built :=
  sound.objects i object (Function.update_self ..)

theorem StringState.Sound.put_other (sound : (state.put i object memory).Sound) {j : ι}
    {other : StringObject} (differ : j ≠ i) (isOther : state.objects j = some other) :
    ∃ buf, other.mString = some buf ∧ memory.Holds buf other.built :=
  sound.objects j other ((Function.update_of_ne differ ..).trans isOther)

/-- A string that gets a static buffer that was freed is not sound. -/
theorem usable_of_sound {buf : Nat} (gotEmpty : state.memory.getEmptyString a = some (buf, memory))
    (pointer : object.mString = some buf) (sound : (state.put i object memory).Sound) :
    state.memory.EmptyUsable := by
  intro empty isEmpty isFreed
  obtain ⟨same, isSame, holds⟩ := sound.put_self
  cases gotEmpty.symm.trans (getEmptyString_of_some isEmpty)
  cases pointer.symm.trans isSame
  exact holds.live.2 isFreed

omit [DecidableEq ι] in
/-- Adding buffers keeps the strings. -/
theorem StringState.Counted.extend (counted : state.Counted) (grows : Extends state.memory memory) :
    ∀ j other, j ≠ i → state.objects j = some other →
      ∃ buf, other.mString = some buf ∧ memory.Holds buf other.built := by
  intro j other _ isOther
  obtain ⟨buf, pointer, holds⟩ := counted.objects j other isOther
  exact ⟨buf, pointer, grows.holds holds⟩

/-- The condition is enough for the next state to be as before, and necessary for it to
be sound. -/
def Decides (meets : Prop) (next : StringState ι) : Prop :=
  (meets → next.Counted) ∧ (next.Sound → meets)

/-- A string that starts out empty. -/
theorem StringState.Counted.putEmpty (counted : state.Counted) {buf : Nat}
    (gotEmpty : state.memory.getEmptyString a = some (buf, memory)) :
    Decides state.memory.EmptyUsable (state.put i { mString := buf, built := [] } memory) := by
  obtain ⟨sane, grows, _, holdsNil⟩ := counted.sane.getEmptyString gotEmpty
  constructor
  · intro usable
    exact .put sane ⟨buf, rfl, holdsNil usable⟩ (counted.extend grows)
  · exact usable_of_sound gotEmpty rfl

omit [DecidableEq ι] in
/-- The strings other than one that shares its buffer with none. -/
theorem StringState.Counted.others (counted : state.Counted)
    (isObject : state.objects i = some object) (pointer : object.mString = some old)
    (unshared : state.Unshared i)
    (kept : ∀ buf bytes, buf ≠ old → state.memory.Holds buf bytes → memory.Holds buf bytes) :
    ∀ j other, j ≠ i → state.objects j = some other →
      ∃ buf, other.mString = some buf ∧ memory.Holds buf other.built := by
  intro j other differ isOther
  obtain ⟨buf, isBuf, holds⟩ := counted.objects j other isOther
  refine ⟨buf, isBuf, kept buf _ ?_ holds⟩
  rintro rfl
  exact unshared j object other differ isObject isOther (isBuf.trans pointer.symm)

/-- Another string with the same buffer keeps the string from being unshared. -/
theorem StringState.Sound.unshared (sound : (state.put i object memory).Sound)
    {before : StringObject} (isObject : state.objects i = some before)
    (pointer : before.mString = some old)
    (gone : ∀ j other, j ≠ i → state.objects j = some other → other.mString = some old →
      ¬ memory.Holds old other.built) : state.Unshared i := by
  intro j same other differ isSame isOther shares
  cases isObject.symm.trans isSame
  obtain ⟨buf, isBuf, holds⟩ := sound.put_other differ isOther
  cases isBuf.symm.trans (shares.trans pointer)
  exact gone j other differ isOther isBuf holds

theorem StringState.Counted.setTo (counted : state.Counted) {other : List UInt8} {status : Int}
    {mString : Option Nat} (isObject : state.objects i = some object)
    (pointer : object.mString = some old)
    (isSet : state.memory.setTo a (some old) other = some (status, mString, memory)) :
    Decides (state.Unshared i ∧ state.memory.Replaceable a old other)
      (state.put i { mString, built := if status = 0 then other else [] } memory) := by
  obtain ⟨buf, isBuf, held⟩ := counted.objects i object isObject
  cases pointer.symm.trans isBuf
  have replaced := counted.sane.setTo held isSet
  constructor
  · rintro ⟨unshared, replaceable⟩
    exact .put (replaced.sane replaceable) (replaced.holds replaceable)
      (counted.others isObject pointer unshared (replaced.kept replaceable))
  · intro sound
    constructor
    · apply sound.unshared isObject pointer
      intro j shared _ _ _ holds
      exact holds.live.2 replaced.freed
    · by_contra not
      obtain ⟨freed, isFreed, points⟩ := replaced.dangles not
      obtain ⟨same, isSame, holds⟩ := sound.put_self
      cases points.symm.trans isSame
      exact holds.live.2 isFreed

/-- The longer value of a string that no other shares. -/
theorem StringState.Counted.realAppend (counted : state.Counted) {other : List UInt8}
    {status : Int} {mString : Option Nat} (isObject : state.objects i = some object)
    (pointer : object.mString = some old) (nonempty : object.built ≠ []) (more : other ≠ [])
    (appended : state.memory.realAppend a (some old) other = some (status, mString, memory)) :
    Decides
      (a.KeepsBuffer (other.length + object.built.length + 1) ∧
        (a.reallocBuffer (other.length + object.built.length + 1) = none ∧
          a.mallocBuffer (other.length + object.built.length + 1) = none ∨ state.Unshared i))
      (state.put i
        { mString, built := if status = 0 then object.built ++ other else object.built }
        memory) := by
  obtain ⟨buf, isBuf, held⟩ := counted.objects i object isObject
  cases pointer.symm.trans isBuf
  by_cases keeps : a.KeepsBuffer (other.length + object.built.length + 1)
  case neg =>
    refine ⟨fun meets => absurd meets.1 keeps, fun sound => ?_⟩
    rcases counted.sane.realAppend_loses held more keeps appended with ⟨rfl, isFreed⟩ | twice
    · obtain ⟨same, isSame, holds⟩ := sound.put_self
      cases isSame
      exact absurd isFreed holds.live.2
    · exact absurd sound.once twice
  have done := counted.sane.realAppend held nonempty more keeps appended
  constructor
  · rintro ⟨_, ⟨noRealloc, noMalloc⟩ | unshared⟩
    · have others := counted.extend (i := i) (Extends.refl state.memory)
      rw [← done.unchanged noRealloc noMalloc] at others
      exact .put done.sane done.holds others
    · exact .put done.sane done.holds (counted.others isObject pointer unshared done.kept)
  · intro sound
    refine ⟨keeps, ?_⟩
    by_cases noMemory : a.reallocBuffer (other.length + object.built.length + 1) = none ∧
        a.mallocBuffer (other.length + object.built.length + 1) = none
    · exact .inl noMemory
    · right
      apply sound.unshared isObject pointer
      intro j shared differ isShared shares holds
      obtain ⟨same, isSame, sharedHeld⟩ := counted.objects j shared isShared
      cases shares.symm.trans isSame
      rw [sharedHeld.unique held] at holds
      have found : a.reallocBuffer (other.length + object.built.length + 1) ≠ none ∨
          a.mallocBuffer (other.length + object.built.length + 1) ≠ none := by
        rwa [not_and_or] at noMemory
      exact done.changed found holds

/-- `append`, whichever way it goes. -/
theorem StringState.Counted.append (counted : state.Counted) {other : List UInt8} {status : Int}
    {mString : Option Nat} (isObject : state.objects i = some object)
    (pointer : object.mString = some old) (held : state.memory.Holds old object.built)
    (appended : state.memory.append a (some old) other = some (status, mString, memory)) :
    Decides
      (if state.memory.length (some old) = 0 then
        state.Unshared i ∧ state.memory.Replaceable a old other
      else
        let size := other.length + state.memory.length (some old) + 1
        other = [] ∨ a.KeepsBuffer size ∧
          (a.reallocBuffer size = none ∧ a.mallocBuffer size = none ∨ state.Unshared i))
      (state.put i
        { mString, built := if status = 0 then object.built ++ other else object.built }
        memory) := by
  have myLen : state.memory.length (some old) = object.built.length := by
    rw [StringMemory.length, held.size, Nat.add_sub_cancel]
  rw [StringMemory.append] at appended
  rw [myLen] at appended ⊢
  split at appended
  next empty =>
    have nil : object.built = [] := List.eq_nil_of_length_eq_zero empty
    rw [if_pos empty, nil, List.nil_append]
    exact counted.setTo isObject pointer appended
  next nonempty =>
    have notNil : object.built ≠ [] := fun nil => nonempty (nil ▸ rfl)
    rw [if_neg nonempty]
    simp only
    split at appended
    next nothing =>
      have nil : other = [] := List.eq_nil_of_length_eq_zero nothing
      cases appended
      refine ⟨fun _ => .put counted.sane ⟨old, rfl, ?_⟩ (counted.extend (.refl _)),
        fun _ => .inl nil⟩
      simpa [nil] using held
    next something =>
      have more : other ≠ [] := fun nil => something (nil ▸ rfl)
      obtain ⟨enough, needed⟩ := counted.realAppend isObject pointer notNil more appended
      exact ⟨fun meets => enough (meets.resolve_left more), fun sound => .inr (needed sound)⟩

/-- Every call, from a state in which all strings are sound. -/
theorem StringState.Counted.step (counted : state.Counted)
    {event : Allocator UInt8 × StringCall ι} (taken : StringStep state event next) :
    Decides (event.2.Meets event.1 state) next := by
  obtain ⟨a, call⟩ := event
  cases call with
  | default i =>
      simp only [StringStep, StringCall.run] at taken
      split at taken
      next => cases taken
      next =>
        obtain ⟨⟨buf, memory⟩, gotEmpty, done⟩ := Option.bind_eq_some_iff.mp taken
        cases done
        exact counted.putEmpty gotEmpty
  | ofCString i bytes =>
      simp only [StringStep, StringCall.run] at taken
      split at taken
      next => cases taken
      next =>
        obtain ⟨⟨newString, grown⟩, allocated, done⟩ := Option.bind_eq_some_iff.mp taken
        rcases allocFromUTF8_cases allocated with ⟨own, rfl, cells, rfl⟩ |
          ⟨noBuffer, rfl, buf, rfl, gotEmpty⟩ | ⟨noBuffer, _, rfl, rfl⟩
        · cases done
          have holds := counted.sane.built_holds cells bytes
          exact ⟨fun _ => .put (counted.sane.built cells bytes) ⟨_, rfl, holds⟩
            (counted.extend (built_extends state.memory cells bytes)), fun _ => .inl own⟩
        · cases done
          obtain ⟨enough, needed⟩ := counted.putEmpty (i := i) gotEmpty
          exact ⟨fun meets => enough (meets.resolve_left noBuffer), fun sound => .inr (needed sound)⟩
        · obtain ⟨⟨buf, memory⟩, gotEmpty, done⟩ := Option.bind_eq_some_iff.mp done
          cases done
          obtain ⟨enough, needed⟩ := counted.putEmpty (i := i) gotEmpty
          exact ⟨fun meets => enough (meets.resolve_left noBuffer), fun sound => .inr (needed sound)⟩
  | copy source target =>
      obtain ⟨object, isObject, done⟩ := Option.bind_eq_some_iff.mp taken
      cases done
      exact ⟨fun _ => .put counted.sane (counted.objects source object isObject)
        (counted.extend (.refl _)), fun _ => trivial⟩
  | setTo i other =>
      obtain ⟨object, isObject, done⟩ := Option.bind_eq_some_iff.mp taken
      obtain ⟨⟨status, mString, memory⟩, isSet, done⟩ := Option.bind_eq_some_iff.mp done
      cases done
      obtain ⟨old, pointer, held⟩ := counted.objects i object isObject
      rw [pointer] at isSet
      obtain ⟨enough, needed⟩ := counted.setTo isObject pointer isSet
      constructor
      · exact fun meets => enough (meets object old isObject pointer)
      · intro sound same buf isSame isBuf
        cases isObject.symm.trans isSame
        cases pointer.symm.trans isBuf
        exact needed sound
  | append i other =>
      obtain ⟨object, isObject, done⟩ := Option.bind_eq_some_iff.mp taken
      obtain ⟨⟨status, mString, memory⟩, appended, done⟩ := Option.bind_eq_some_iff.mp done
      cases done
      obtain ⟨old, pointer, held⟩ := counted.objects i object isObject
      rw [pointer] at appended
      obtain ⟨enough, needed⟩ := counted.append isObject pointer held appended
      constructor
      · exact fun meets => enough (meets object old isObject pointer)
      · intro sound same buf isSame isBuf
        cases isObject.symm.trans isSame
        cases pointer.symm.trans isBuf
        exact needed sound
  | destroy i =>
      cases taken
      refine ⟨fun _ => ⟨counted.sane, ?_⟩, fun _ => trivial⟩
      intro j object isObject
      by_cases same : j = i
      · subst same
        cases (Function.update_self ..).symm.trans isObject
      · exact counted.objects j object ((Function.update_of_ne same ..).symm.trans isObject)

end Steps

/-- A call that meets the condition. -/
def MeetingStep (state : StringState ι) (event : Allocator UInt8 × StringCall ι)
    (next : StringState ι) : Prop :=
  StringStep state event next ∧ event.2.Meets event.1 state

/-- All memory is found, and `realloc` moves the block. -/
def Allocator.ample : Allocator UInt8 where
  malloc _ := some fun _ => 0
  realloc _ := some fun _ => 0
  moves := true

end DroidKernal.Utils
