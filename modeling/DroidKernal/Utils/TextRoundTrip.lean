import DroidKernal.Utils.Conversion

/-!
# Strings keep their text

A text goes from `String8` to `String16` and back, and the other way round.  The bytes
that come back are those of the text, and the reported lengths, which come from the
measuring functions and the sizes of the buffers, agree with them.

Only the empty text is at risk: a `String8` without bytes points to the static buffer of
`getEmptyString`, which other strings may have freed or written.
-/

namespace DroidKernal.Utils

open Lib

namespace String16

variable {a : Allocator UInt16} {chars : List Char}

theorem content_length (str : String16) : str.content.length = str.size := Mem.read_length ..

/-- The condition on the constructor of a `String16`: the units get memory. -/
def Provided (a : Allocator UInt16) (chars : List Char) : Prop :=
  chars = [] ∨ a.mallocBuffer (2 * ((utf16Encode chars).length + 1)) ≠ none

theorem utf8Encode_ne_nil {chars : List Char} (nonempty : chars ≠ []) :
    (utf8Encode chars).length ≠ 0 := by
  intro none
  have few := utf16Encode_length_le chars
  rw [none] at few
  exact nonempty (utf16Encode_eq_nil (List.eq_nil_of_length_eq_zero (Nat.le_zero.mp few)))

/-- A `String16` in memory of its own, with its null unit. -/
def allocated (cells : Nat → UInt16) (units : List UInt16) : String16 where
  word := kIsSharedBufferAllocated
  mSize := 2 * (units.length + 1)
  units := Mem.write (Mem.write cells 0 units) units.length [0]

theorem allocated_size (cells : Nat → UInt16) {units : List UInt16}
    (fits : units.length + 1 < 2 ^ 63) : (allocated cells units).size = units.length := by
  have isShared : ¬ (kIsSharedBufferAllocated &&& kIsSharedBufferAllocated = 0) := by decide
  have byteSize : (allocated cells units).mSize = 2 * (units.length + 1) := rfl
  rw [size, isStaticString, allocated, decide_eq_false isShared, ← allocated, byteSize,
    Nat.mul_div_cancel_left _ (by decide), sizeSub_eq (by omega) (by omega)]
  exact Nat.add_sub_cancel ..

theorem allocated_content (cells : Nat → UInt16) {units : List UInt16}
    (fits : units.length + 1 < 2 ^ 63) : (allocated cells units).content = units := by
  rw [content, allocated_size cells fits]
  calc
    Mem.read (allocated cells units).units 0 units.length
        = Mem.read (Mem.write cells 0 units) 0 units.length := by
      apply Mem.read_congr
      intro i bound
      exact Mem.write_outside _ (.inl (by omega))
    _ = units := Mem.read_write ..

/-- Bytes become the units that are measured and stored for them, in memory of their own. -/
theorem allocFromUTF8_stored (a : Allocator UInt16) {u8str : List UInt8} {units : List UInt16}
    (notEmpty : u8str.length ≠ 0) (nonempty : units.length ≠ 0)
    (fits : units.length + 1 < 2 ^ 63)
    (measured : utf8ToUtf16Length u8str false = some (units.length : Int))
    (stored : utf8ToUtf16Loop u8str.length u8str units.length = some (units, units.length)) :
    allocFromUTF8 a u8str = (a.mallocBuffer (2 * (units.length + 1))).map (allocated · units) := by
  have converted : ∀ cells, utf8ToUtf16 u8str cells (units.length + 1) =
      some (Mem.write (Mem.write cells 0 units) units.length [0]) := by
    intro cells
    rw [utf8ToUtf16, utf8ToUtf16NoNullTerminator, Nat.add_sub_cancel, if_neg nonempty, stored]
    rfl
  have notNegative : ¬ (units.length : Int) < 0 := by omega
  have byteSize : sizeMul 2 (units.length + 1) = 2 * (units.length + 1) := sizeMul_eq (by omega)
  rw [allocFromUTF8, if_neg notEmpty, measured]
  simp only [Option.bind_eq_bind, Option.bind_some, if_neg notNegative, Int.toNat_natCast, alloc,
    byteSize]
  cases a.mallocBuffer (2 * (units.length + 1)) with
  | none => rfl
  | some cells =>
      simp only [Option.bind_some, Option.pure_def, converted]
      rfl

/-- The bytes of a text become its units. -/
theorem allocFromUTF8_encode (a : Allocator UInt16) (nonempty : chars ≠ [])
    (fits : (utf8Encode chars).length + 1 < 2 ^ 63) :
    allocFromUTF8 a (utf8Encode chars) =
      (a.mallocBuffer (2 * ((utf16Encode chars).length + 1))).map
        (allocated · (utf16Encode chars)) := by
  have few := utf16Encode_length_le chars
  have someUnits : (utf16Encode chars).length ≠ 0 := fun none =>
    nonempty (utf16Encode_eq_nil (List.eq_nil_of_length_eq_zero none))
  apply allocFromUTF8_stored a (utf8Encode_ne_nil nonempty) someUnits (by omega)
  · rw [utf8ToUtf16Length, utf8ToUtf16LengthLoop_encode chars _ _ (Nat.le_refl _), Nat.zero_add]
  · exact utf8ToUtf16Loop_encode chars _ _ (Nat.le_refl _) (Nat.le_refl _)

/-- The constructor succeeds exactly if the units get memory. -/
theorem ofCString_iff {s : CString} (isText : s.bytes = utf8Encode chars)
    (fits : (utf8Encode chars).length + 1 < 2 ^ 63) :
    (∃ str, ofCString a s = some str) ↔ Provided a chars := by
  rw [ofCString, isText]
  by_cases none : chars = []
  · subst none
    exact ⟨fun _ => .inl rfl, fun _ => ⟨emptyString, rfl⟩⟩
  · rw [allocFromUTF8_encode a none fits, Provided, or_iff_right none, Option.ne_none_iff_exists']
    constructor
    · rintro ⟨_, made⟩
      obtain ⟨cells, found, _⟩ := Option.map_eq_some_iff.mp made
      exact ⟨cells, found⟩
    · rintro ⟨cells, found⟩
      exact ⟨_, Option.map_eq_some_iff.mpr ⟨cells, found, rfl⟩⟩

/-- It gives the units of the text. -/
theorem ofCString_content {s : CString} {str : String16} (isText : s.bytes = utf8Encode chars)
    (fits : (utf8Encode chars).length + 1 < 2 ^ 63) (made : ofCString a s = some str) :
    str.content = utf16Encode chars := by
  rw [ofCString, isText] at made
  by_cases none : chars = []
  · subst none
    cases made
    rfl
  · have few := utf16Encode_length_le chars
    rw [allocFromUTF8_encode a none fits] at made
    obtain ⟨cells, _, rfl⟩ := Option.map_eq_some_iff.mp made
    exact allocated_content cells (by omega)

end String16

namespace StringMemory

variable {memory : StringMemory} {a : Allocator UInt8} {chars : List Char}

/-- `c_str` and `length` tell what a buffer holds. -/
theorem holds_iff {buf : Nat} {bytes : List UInt8} (noNul : 0 ∉ bytes) :
    memory.Holds buf bytes ↔
      memory.cString buf = some bytes ∧ memory.length (some buf) = bytes.length := by
  constructor
  · intro holds
    have live : buf < memory.storage.allocated ∧ buf ∉ memory.storage.freed := holds.live
    refine ⟨?_, ?_⟩
    · rw [cString, if_pos live, holds.size, holds.cells]
      exact CString.scan_append noNul []
    · rw [length, holds.size, Nat.add_sub_cancel]
  · rintro ⟨read, length⟩
    rw [cString] at read
    split at read
    next live =>
      obtain ⟨rest, cells⟩ := CString.eq_of_scan read
      have total := congrArg List.length cells
      rw [Mem.read_length, List.length_append, List.length_cons] at total
      rw [StringMemory.length, total] at length
      have nothing : rest = [] := List.eq_nil_of_length_eq_zero (by omega)
      subst nothing
      have size : (memory.storage.block buf).mSize = bytes.length + 1 := total
      rw [size] at cells
      exact ⟨live, size, cells⟩
    next => cases read

/-- The static buffer is there and holds the bytes. -/
def StaticHolds (memory : StringMemory) (bytes : List UInt8) : Prop :=
  ∃ empty, memory.gEmptyStringBuf = some empty ∧ memory.Holds empty bytes

/-- The condition on the constructor of a `String8` from units: the static buffer has the
bytes, or they get memory, which the empty string does only if there is no static buffer. -/
def Provided (a : Allocator UInt8) (memory : StringMemory) (bytes : List UInt8) : Prop :=
  memory.StaticHolds bytes ∨
    a.mallocBuffer (bytes.length + 1) ≠ none ∧ (bytes = [] → memory.gEmptyStringBuf = none)

/-- `getEmptyString` returns a buffer with the bytes exactly if it is the static one, or they
are none and it is new. -/
theorem getEmptyString_holds_iff {bytes : List UInt8}
    (known : ∀ old ∈ memory.storage.freed, old < memory.storage.allocated) :
    (∃ buf next, memory.getEmptyString a = some (buf, next) ∧ next.Holds buf bytes) ↔
      memory.StaticHolds bytes ∨
        memory.gEmptyStringBuf = none ∧ bytes = [] ∧ a.mallocBuffer 1 ≠ none := by
  constructor
  · rintro ⟨buf, next, gotEmpty, holds⟩
    rcases getEmptyString_cases gotEmpty with ⟨found, rfl⟩ | ⟨notYet, rfl, cells, rfl⟩
    · exact .inl ⟨buf, found, holds⟩
    · have new := built_holds known cells []
      have isNil : bytes = [] := holds.unique ⟨new.live, new.size, new.cells⟩
      refine .inr ⟨notYet, isNil, fun noMemory => ?_⟩
      rw [getEmptyString, notYet] at gotEmpty
      simp only [Storage.alloc, noMemory] at gotEmpty
      cases gotEmpty
  · rintro (⟨empty, found, holds⟩ | ⟨notYet, rfl, hasMemory⟩)
    · exact ⟨empty, memory, getEmptyString_of_some found, holds⟩
    · obtain ⟨cells, found⟩ := Option.ne_none_iff_exists'.mp hasMemory
      have gotEmpty : ∃ buf next, memory.getEmptyString a = some (buf, next) := by
        rw [getEmptyString, notYet]
        simp only [Storage.alloc, found]
        exact ⟨_, _, rfl⟩
      obtain ⟨buf, next, gotEmpty⟩ := gotEmpty
      refine ⟨buf, next, gotEmpty, ?_⟩
      rcases getEmptyString_cases gotEmpty with ⟨isStatic, _⟩ | ⟨_, rfl, cells', rfl⟩
      · cases notYet.symm.trans isStatic
      · have new := built_holds known cells' []
        exact ⟨new.live, new.size, new.cells⟩

/-- The memory of a `String8` that was constructed from a text: a buffer for its bytes, or
what `getEmptyString` returns. -/
theorem ofString16_encode (a : Allocator UInt8) (memory : StringMemory) {str : String16}
    (isText : str.content = utf16Encode chars)
    (fits : (utf8Encode chars).length + 1 < 2 ^ 63) :
    (chars ≠ [] ∧ ∃ cells, a.mallocBuffer ((utf8Encode chars).length + 1) = some cells ∧
      memory.ofString16 a str =
        some (memory.storage.allocated, memory.built cells (utf8Encode chars))) ∨
    (chars ≠ [] → a.mallocBuffer ((utf8Encode chars).length + 1) = none) ∧
      memory.ofString16 a str = memory.getEmptyString a := by
  rw [ofString16, isText, allocFromUTF16]
  by_cases none : chars = []
  · subst none
    exact .inr ⟨fun nonempty => absurd rfl nonempty, rfl⟩
  · have nonempty : (utf16Encode chars).length ≠ 0 :=
      fun none' => none (utf16Encode_eq_nil (List.eq_nil_of_length_eq_zero none'))
    have inRange : 0 + (utf8Encode chars).length ≤ ssizeMax := by
      rw [ssizeMax]
      omega
    have measured : utf16ToUtf8Length (utf16Encode chars) = (utf8Encode chars).length := by
      rw [utf16ToUtf8Length, if_neg nonempty, utf16ToUtf8LengthLoop_encode chars 0 inRange,
        Nat.zero_add]
    have stored : utf16ToUtf8 (utf16Encode chars) = utf8Encode chars ++ [0] := by
      rw [utf16ToUtf8, if_neg nonempty, utf16ToUtf8Loop_encode]
    have notNegative : ¬ ((utf8Encode chars).length : Int) + 1 < 1 := by omega
    have size : (((utf8Encode chars).length : Int) + 1).toNat = (utf8Encode chars).length + 1 := by
      omega
    simp only [if_neg nonempty, measured, if_neg notNegative, size, stored, Storage.alloc]
    cases found : a.mallocBuffer ((utf8Encode chars).length + 1) with
    | none => exact .inr ⟨fun _ => rfl, rfl⟩
    | some cells =>
        refine .inl ⟨none, cells, rfl, ?_⟩
        have joined := Mem.write_append cells 0 (utf8Encode chars) [0]
        rw [Nat.zero_add] at joined
        simp [copy, built, joined, Blocks.add, Blocks.set]

/-- The constructor gives the bytes of the text exactly if they are provided. -/
theorem ofString16_holds_iff {str : String16} (isText : str.content = utf16Encode chars)
    (fits : (utf8Encode chars).length + 1 < 2 ^ 63)
    (known : ∀ old ∈ memory.storage.freed, old < memory.storage.allocated) :
    (∃ buf next, memory.ofString16 a str = some (buf, next) ∧
      next.Holds buf (utf8Encode chars)) ↔ memory.Provided a (utf8Encode chars) := by
  rcases ofString16_encode a memory isText fits with
    ⟨nonempty, cells, found, constructed⟩ | ⟨noMemory, constructed⟩
  · have isProvided : memory.Provided a (utf8Encode chars) := by
      refine .inr ⟨by simp [found], fun none => ?_⟩
      exact absurd (congrArg List.length none) (String16.utf8Encode_ne_nil nonempty)
    exact ⟨fun _ => isProvided,
      fun _ => ⟨_, _, constructed, built_holds known cells (utf8Encode chars)⟩⟩
  · rw [constructed, getEmptyString_holds_iff known, Provided]
    apply or_congr_right
    constructor
    · rintro ⟨notYet, isNil, hasMemory⟩
      rw [isNil]
      exact ⟨hasMemory, fun _ => notYet⟩
    · rintro ⟨hasMemory, notYet⟩
      have none : chars = [] := not_imp_comm.mp noMemory hasMemory
      subst none
      exact ⟨notYet rfl, rfl, hasMemory⟩

end StringMemory

/-! ## Both ways -/

/-- The text comes back unchanged, with its length, from `String8(String16(s))` for its bytes
`s`, and from `String16(String8(w).c_str())` for every `w` of its units. -/
structure RoundTrips (a8 : Allocator UInt8) (a16 : Allocator UInt16) (memory : StringMemory)
    (chars : List Char) : Prop where
  utf8 : ∀ s : CString, s.bytes = utf8Encode chars →
    ∃ str buf next, String16.ofCString a16 s = some str ∧
      memory.ofString16 a8 str = some (buf, next) ∧
      next.cString buf = some s.bytes ∧ next.length (some buf) = s.strlen
  utf16 : ∀ w : String16, w.content = utf16Encode chars →
    ∃ buf next s back, memory.ofString16 a8 w = some (buf, next) ∧
      next.cString buf = some s.bytes ∧ String16.ofCString a16 s = some back ∧
      back.size = w.size ∧ back.content = w.content

/-- A text without null characters comes back exactly if its units get memory and its bytes
get memory or, where they are none, the static buffer is still in use and empty. -/
theorem text_round_trips_iff (a8 : Allocator UInt8) (a16 : Allocator UInt16)
    (memory : StringMemory) (chars : List Char)
    (known : ∀ old ∈ memory.storage.freed, old < memory.storage.allocated)
    (noNul : Char.ofNat 0 ∉ chars) (fits : (utf8Encode chars).length + 1 < 2 ^ 63) :
    RoundTrips a8 a16 memory chars ↔
      String16.Provided a16 chars ∧ memory.Provided a8 (utf8Encode chars) := by
  have noZero : 0 ∉ utf8Encode chars := by
    intro member
    obtain ⟨c, isIn, zero⟩ := List.mem_flatMap.mp member
    exact noNul (zero_mem_utf8EncodeChar zero ▸ isIn)
  let text : CString := ⟨utf8Encode chars, noZero⟩
  constructor
  · intro trips
    obtain ⟨str, buf, next, made, converted, read, length⟩ := trips.utf8 text rfl
    have holds := (StringMemory.holds_iff noZero).mpr ⟨read, length⟩
    exact ⟨(String16.ofCString_iff (s := text) rfl fits).mp ⟨str, made⟩,
      (StringMemory.ofString16_holds_iff (String16.ofCString_content rfl fits made) fits known).mp
        ⟨buf, next, converted, holds⟩⟩
  · rintro ⟨provided16, provided8⟩
    constructor
    · intro s isText
      obtain ⟨str, made⟩ := (String16.ofCString_iff isText fits).mpr provided16
      obtain ⟨buf, next, converted, holds⟩ := (StringMemory.ofString16_holds_iff
        (String16.ofCString_content isText fits made) fits known).mpr provided8
      obtain ⟨read, length⟩ := (StringMemory.holds_iff noZero).mp holds
      rw [CString.strlen, isText]
      exact ⟨str, buf, next, made, converted, read, length⟩
    · intro w content
      obtain ⟨buf, next, converted, holds⟩ :=
        (StringMemory.ofString16_holds_iff content fits known).mpr provided8
      obtain ⟨back, made⟩ := (String16.ofCString_iff (s := text) rfl fits).mpr provided16
      have same : back.content = utf16Encode chars := String16.ofCString_content rfl fits made
      refine ⟨buf, next, text, back, converted, ((StringMemory.holds_iff noZero).mp holds).1, made,
        ?_, same.trans content.symm⟩
      rw [← String16.content_length, ← String16.content_length, same, content]

/-- Allocations of units that succeed. -/
def unitMemory : Allocator UInt16 where
  malloc := fun _ => some fun _ => 0
  realloc := fun _ => some fun _ => 0
  moves := false

theorem text_round_trips_four_lengths :
    RoundTrips .ample unitMemory .init ['a', 'é', '€', '😀'] :=
  (text_round_trips_iff .ample unitMemory .init ['a', 'é', '€', '😀']
    (by simp [StringMemory.init]) (by decide) (by decide)).mpr
    ⟨.inr (by simp [unitMemory, Allocator.mallocBuffer]),
      .inr ⟨by simp [Allocator.ample, Allocator.mallocBuffer], by decide⟩⟩

/-- An empty string was appended to, which freed the buffer of all empty strings; the empty
text does not come back from a `String8` any more. -/
theorem empty_text_dangles :
    ¬ ∀ events (state : StringState Nat), Run StringStep StringState.init events state →
      RoundTrips .ample unitMemory state.memory [] := by
  intro every
  let first : StringState Nat := ((StringCall.default 0).run .ample .init).get (by decide)
  let second := ((StringCall.append 0 [78, 111]).run .ample first).get (by decide)
  have run : Run StringStep StringState.init
      [(.ample, .default 0), (.ample, .append 0 [78, 111])] second :=
    (Run.single (Option.some_get _).symm).snoc (Option.some_get _).symm
  obtain ⟨str, buf, next, made, converted, read, -⟩ :=
    (every _ second run).utf8 ⟨[], List.not_mem_nil⟩ rfl
  cases made
  cases converted
  cases read

end DroidKernal.Utils
