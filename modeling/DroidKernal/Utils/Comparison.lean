import DroidKernal.Utils.TextRoundTrip

/-!
# Comparing strings

`strzcmp16` and the equality of `String16`.  The result for strings of different lengths is
the unit behind the shorter one, so that a null unit there makes them equal.
-/

namespace DroidKernal.Utils

open Lib

/-- `strzcmp16`: what is left of each string at its pointer. -/
def strzcmp16 : List UInt16 → List UInt16 → Int
  | unit1 :: s1, unit2 :: s2 =>
      let d := (unit1.toNat : Int) - unit2.toNat
      if d ≠ 0 then d else strzcmp16 s1 s2
  | [], unit2 :: _ => 0 - (unit2.toNat : Int)
  | unit1 :: _, [] => (unit1.toNat : Int) - 0
  | [], [] => 0

/-- `operator==`. -/
def String16.eq (a other : String16) : Bool := strzcmp16 a.content other.content = 0

/-- The second string goes on behind the first, with a null unit. -/
def NullFollows (s1 s2 : List UInt16) : Prop := ∃ rest, s2 = s1 ++ 0 :: rest

section NullFollows

variable {unit1 unit2 : UInt16} {s1 s2 : List UInt16}

theorem NullFollows.cons (follows : NullFollows s1 s2) :
    NullFollows (unit1 :: s1) (unit1 :: s2) := by
  obtain ⟨rest, rfl⟩ := follows
  exact ⟨rest, rfl⟩

theorem nullFollows_cons_iff :
    NullFollows (unit1 :: s1) (unit2 :: s2) ↔ unit1 = unit2 ∧ NullFollows s1 s2 := by
  constructor
  · rintro ⟨rest, isMore⟩
    obtain ⟨same, isMore⟩ := List.cons.inj isMore
    exact ⟨same.symm, rest, isMore⟩
  · rintro ⟨rfl, follows⟩
    exact follows.cons

theorem nullFollows_nil_iff : NullFollows [] (unit2 :: s2) ↔ unit2 = 0 := by
  constructor
  · rintro ⟨rest, isMore⟩
    exact (List.cons.inj isMore).1
  · rintro rfl
    exact ⟨s2, rfl⟩

theorem not_nullFollows_nil : ¬ NullFollows s1 [] := by
  rintro ⟨rest, isMore⟩
  exact List.append_ne_nil_of_right_ne_nil _ (List.cons_ne_nil _ _) isMore.symm

theorem NullFollows.ne (follows : NullFollows s1 s2) : s1 ≠ s2 := by
  rintro rfl
  obtain ⟨rest, isMore⟩ := follows
  exact List.cons_ne_nil _ _ (List.append_right_eq_self.mp isMore.symm)

end NullFollows

theorem toNat_eq_zero_iff {unit : UInt16} : (unit.toNat : Int) = 0 ↔ unit = 0 := by
  rw [← UInt16.toNat_inj]
  exact Int.ofNat_eq_zero

/-- The comparison finds no difference in equal strings, and in those that differ by a null
unit first. -/
theorem strzcmp16_eq_zero_iff (s1 s2 : List UInt16) :
    strzcmp16 s1 s2 = 0 ↔ s1 = s2 ∨ NullFollows s1 s2 ∨ NullFollows s2 s1 := by
  fun_induction strzcmp16 s1 s2 with
  | case1 unit1 s1 unit2 s2 d differ =>
      have notSame : unit1 ≠ unit2 := by
        rintro rfl
        exact differ (Int.sub_self _)
      refine ⟨fun none => absurd none differ, ?_⟩
      rintro (same | follows | follows)
      · exact absurd (List.cons.inj same).1 notSame
      · exact absurd (nullFollows_cons_iff.mp follows).1 notSame
      · exact absurd (nullFollows_cons_iff.mp follows).1.symm notSame
  | case2 unit1 s1 unit2 s2 d noDifference ih =>
      have same : unit1 = unit2 := UInt16.toNat_inj.mp (by omega)
      subst same
      rw [ih, nullFollows_cons_iff, nullFollows_cons_iff, List.cons.injEq]
      simp only [true_and]
  | case3 unit2 s2 =>
      rw [nullFollows_nil_iff, or_iff_left not_nullFollows_nil,
        or_iff_right (List.cons_ne_nil _ _).symm, ← toNat_eq_zero_iff]
      omega
  | case4 unit1 s1 =>
      rw [nullFollows_nil_iff, or_iff_right not_nullFollows_nil,
        or_iff_right (List.cons_ne_nil _ _), ← toNat_eq_zero_iff]
      omega
  | case5 => exact ⟨fun _ => .inl rfl, fun _ => rfl⟩

namespace String16

/-- The strings have the same units. -/
def SameUnits (a other : String16) : Prop :=
  a.size = other.size ∧ ∀ i, i < a.size → a.units i = other.units i

theorem sameUnits_iff (a other : String16) : a.SameUnits other ↔ a.content = other.content := by
  constructor
  · rintro ⟨sameSize, same⟩
    rw [content, content, ← sameSize]
    apply Mem.read_congr
    intro i bound
    rw [Nat.zero_add]
    exact same i bound
  · intro same
    have sameSize : a.size = other.size := by
      rw [← content_length, ← content_length, same]
    refine ⟨sameSize, fun i bound => ?_⟩
    have atIndex : a.content[i]? = other.content[i]? := congrArg (·[i]?) same
    have inside : i < other.size := sameSize ▸ bound
    simpa [content, Mem.read, bound, inside] using atIndex

/-- Equality is that of the units unless one string goes on behind the other with a null
unit. -/
theorem eq_iff_same_units_iff (a other : String16) :
    (a.eq other ↔ a.SameUnits other) ↔
      ¬ NullFollows a.content other.content ∧ ¬ NullFollows other.content a.content := by
  rw [eq, decide_eq_true_iff, strzcmp16_eq_zero_iff, sameUnits_iff]
  constructor
  · intro exactly
    exact ⟨fun follows => follows.ne (exactly.mp (.inr (.inl follows))),
      fun follows => follows.ne (exactly.mp (.inr (.inr follows))).symm⟩
  · rintro ⟨notFirst, notSecond⟩
    constructor
    · rintro (same | follows | follows)
      · exact same
      · exact absurd follows notFirst
      · exact absurd follows notSecond
    · exact .inl

/-- The bytes of `a`, and of a null character in two bytes. -/
def overlong : CString := ⟨[0x61, 0xC0, 0x80], by decide⟩

/-- A literal and a C string that only begins with it are equal. -/
theorem null_unit_equal :
    ¬ ∀ (literal : List UInt16) (o : CString) (str : String16), literal.length < 2 ^ 31 →
      ofCString unitMemory o = some str →
        ((ofLiteral literal).eq str ↔ (ofLiteral literal).SameUnits str) := by
  intro every
  obtain ⟨str, made, isEqual, isLonger⟩ : ∃ str, ofCString unitMemory overlong = some str ∧
      (ofLiteral [0x61]).eq str = true ∧ str.size = 2 := ⟨_, rfl, by decide, by decide⟩
  obtain ⟨sameSize, -⟩ := (every [0x61] overlong str (by decide) made).mp isEqual
  rw [isLonger] at sameSize
  cases sameSize

end String16

end DroidKernal.Utils
