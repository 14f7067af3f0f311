import DroidKernal.Lib.Occurrence
import DroidKernal.Utils.Comparison

/-!
# Strings of 16-bit units that end with a null unit

`strlen16`, `strnlen16`, `strcpy16`, `strcmp16`, `strncmp16` and `strstr16` of `Unicode.cpp`.
A pointer is what lies behind it, as far as it may be read; a function has no result where
the code would read further.
-/

namespace DroidKernal.Utils

open Lib

/-- A string of units, its terminator left out. -/
structure CString16 where
  units : List UInt16
  noNul : 0 ∉ units

/-- The string in memory, and what is behind its terminator. -/
def CString16.inMemory (string : CString16) (rest : List UInt16) : List UInt16 :=
  string.units ++ 0 :: rest

/-! ## The functions -/

section Lengths

variable {α : Type*} [DecidableEq α] (nul : α)

/-- The loop of `strlen16`, and of `strlen32` for wider units. -/
def strlenLoop : List α → Option Nat
  | [] => none
  | unit :: s => if unit ≠ nul then (strlenLoop s).map (· + 1) else some 0

/-- The loop of `strnlen16`, and of `strnlen32`; the test of `maxlen` comes first. -/
def strnlenLoop : List α → Nat → Option Nat
  | _, 0 => some 0
  | [], _ + 1 => none
  | unit :: s, maxlen + 1 =>
      if unit ≠ nul then (strnlenLoop s maxlen).map (· + 1) else some 0

end Lengths

def strlen16 (s : List UInt16) : Option Nat := strlenLoop 0 s

def strnlen16 (s : List UInt16) (maxlen : Nat) : Option Nat := strnlenLoop 0 s maxlen

/-- `strcpy16`: the units that it stores, at a place that it does not read. -/
def strcpy16 : List UInt16 → Option (List UInt16)
  | [] => none
  | ch :: src => if ch ≠ 0 then (strcpy16 src).map (ch :: ·) else some [ch]

/-- `strcmp16`. -/
def strcmp16 : List UInt16 → List UInt16 → Option Int
  | ch :: s1, unit2 :: s2 =>
      let d := (ch.toNat : Int) - unit2.toNat
      if d ≠ 0 ∨ ch = 0 then some d else strcmp16 s1 s2
  | _, _ => none

/-- `strncmp16`. -/
def strncmp16 : List UInt16 → List UInt16 → Nat → Option Int
  | _, _, 0 => some 0
  | ch :: s1, unit2 :: s2, n + 1 =>
      let d := (ch.toNat : Int) - unit2.toNat
      if d ≠ 0 ∨ ch = 0 then some d
      else if n ≠ 0 then strncmp16 s1 s2 n else some d
  | _, _, _ + 1 => none

/-- The loops of `strstr16`, which read `src` unit by unit: the index of a match, or that there
is none. -/
def strstr16Loop (needle : UInt16) (target : List UInt16) (targetLen : Nat) :
    List UInt16 → Option (Option Nat)
  | [] => none
  | unit :: src =>
      if unit = 0 then some none
      else if unit ≠ needle then
        (strstr16Loop needle target targetLen src).map (Option.map (· + 1))
      else do
        let d ← strncmp16 src target targetLen
        if d ≠ 0 then (strstr16Loop needle target targetLen src).map (Option.map (· + 1))
        else return some 0

/-- `strstr16`. -/
def strstr16 (src : List UInt16) : List UInt16 → Option (Option Nat)
  | [] => none
  | needle :: target =>
      if needle = 0 then some (some 0)
      else do
        let targetLen ← strlen16 target
        strstr16Loop needle target targetLen src

/-! ## Lengths and copies -/

section Lengths

variable {α : Type*} [DecidableEq α] {nul : α} {units : List α}

theorem strlenLoop_eq (noNul : nul ∉ units) (rest : List α) :
    strlenLoop nul (units ++ nul :: rest) = some units.length := by
  induction units with
  | nil => rw [List.nil_append, strlenLoop, if_neg (not_not.mpr rfl), List.length_nil]
  | cons unit units ih =>
      have notNul : unit ≠ nul := fun isNul => noNul (isNul ▸ List.mem_cons_self)
      rw [List.cons_append, strlenLoop, if_pos notNul,
        ih fun member => noNul (List.mem_cons_of_mem _ member)]
      rfl

theorem strnlenLoop_eq (noNul : nul ∉ units) (rest : List α) (maxlen : Nat) :
    strnlenLoop nul (units ++ nul :: rest) maxlen = some (units.take maxlen).length := by
  induction units generalizing maxlen with
  | nil =>
      cases maxlen with
      | zero => rfl
      | succ maxlen =>
          rw [List.nil_append, strnlenLoop, if_neg (not_not.mpr rfl), List.take_nil,
            List.length_nil]
  | cons unit units ih =>
      have notNul : unit ≠ nul := fun isNul => noNul (isNul ▸ List.mem_cons_self)
      cases maxlen with
      | zero => rfl
      | succ maxlen =>
          rw [List.cons_append, strnlenLoop, if_pos notNul,
            ih fun member => noNul (List.mem_cons_of_mem _ member)]
          rfl

end Lengths

namespace CString16

/-- Induction over the units of a string. -/
theorem rec_units {motive : List UInt16 → Prop} (nil : motive [])
    (cons : ∀ {unit : UInt16} {units : List UInt16}, unit ≠ 0 → motive units →
      motive (unit :: units)) (string : CString16) : motive string.units := by
  obtain ⟨units, noNul⟩ := string
  induction units with
  | nil => exact nil
  | cons unit units ih =>
      have notZero : unit ≠ 0 := fun isZero => noNul (isZero ▸ List.mem_cons_self)
      exact cons notZero (ih fun member => noNul (List.mem_cons_of_mem _ member))

end CString16

section Strings

variable (string other : CString16) (rest otherRest : List UInt16)

theorem strlen16_eq : strlen16 (string.inMemory rest) = some string.units.length :=
  strlenLoop_eq string.noNul rest

theorem strcpy16_eq : strcpy16 (string.inMemory rest) = some (string.inMemory []) := by
  rw [CString16.inMemory, CString16.inMemory]
  refine string.rec_units (motive := fun units =>
    strcpy16 (units ++ 0 :: rest) = some (units ++ [0])) ?_ ?_
  · rfl
  · intro unit units notZero ih
    rw [List.cons_append, strcpy16, if_pos notZero, ih]
    rfl

/-! ## Comparisons -/

theorem sub_zero_ne {unit : UInt16} (notZero : unit ≠ 0) : (unit.toNat : Int) - 0 ≠ 0 := by
  rw [Int.sub_zero, ne_eq, toNat_eq_zero_iff]
  exact notZero

theorem difference_eq_zero_iff {unit1 unit2 : UInt16} :
    (unit1.toNat : Int) - unit2.toNat = 0 ↔ unit1 = unit2 := by
  rw [Int.sub_eq_zero, Int.natCast_inj, UInt16.toNat_inj]

/-- `strncmp16` compares the first `n` units; the terminator counts as the null unit that the
other string would go on with. -/
theorem strncmp16_eq (n : Nat) :
    strncmp16 (string.inMemory rest) (other.inMemory otherRest) n =
      some (strzcmp16 (string.units.take n) (other.units.take n)) := by
  rw [CString16.inMemory, CString16.inMemory]
  refine string.rec_units (motive := fun units => ∀ (other : CString16) n,
    strncmp16 (units ++ 0 :: rest) (other.units ++ 0 :: otherRest) n =
      some (strzcmp16 (units.take n) (other.units.take n))) ?_ ?_ other n
  · intro other n
    obtain ⟨units, noNul⟩ := other
    cases n with
    | zero => rw [List.take_zero, List.take_zero, strzcmp16, strncmp16]
    | succ n =>
        cases units with
        | nil => rfl
        | cons unit2 units =>
            have ends : (((0 : UInt16).toNat : Int) - unit2.toNat ≠ 0 ∨ (0 : UInt16) = 0) :=
              .inr rfl
            rw [List.nil_append, List.cons_append, strncmp16, if_pos ends]
            rfl
  · intro unit units notZero ih other n
    obtain ⟨units2, noNul⟩ := other
    cases n with
    | zero => rw [List.take_zero, List.take_zero, strzcmp16, strncmp16]
    | succ n =>
        cases units2 with
        | nil =>
            have differ : (unit.toNat : Int) - ((0 : UInt16).toNat : Int) ≠ 0 ∨ unit = 0 :=
              .inl (sub_zero_ne notZero)
            rw [List.nil_append, List.cons_append, strncmp16, if_pos differ]
            rfl
        | cons unit2 units2 =>
            have behind : 0 ∉ units2 := fun member => noNul (List.mem_cons_of_mem _ member)
            rw [List.cons_append, List.cons_append, strncmp16, List.take_succ_cons,
              List.take_succ_cons, strzcmp16]
            by_cases differ : (unit.toNat : Int) - unit2.toNat ≠ 0
            · rw [if_pos (.inl differ), if_pos differ]
            · rw [if_neg (fun either => either.elim differ notZero), if_neg differ]
              have goesOn := ih ⟨units2, behind⟩ n
              cases n with
              | zero =>
                  rw [if_neg (fun some => some rfl), List.take_zero, List.take_zero, strzcmp16,
                    not_not.mp differ]
              | succ n => rw [if_pos (Nat.succ_ne_zero n), goesOn]

/-- `strcmp16` finds what `strzcmp16` finds when it is given the lengths. -/
theorem strcmp16_eq :
    strcmp16 (string.inMemory rest) (other.inMemory otherRest) =
      some (strzcmp16 string.units other.units) := by
  rw [CString16.inMemory, CString16.inMemory]
  refine string.rec_units (motive := fun units => ∀ other : CString16,
    strcmp16 (units ++ 0 :: rest) (other.units ++ 0 :: otherRest) =
      some (strzcmp16 units other.units)) ?_ ?_ other
  · intro other
    obtain ⟨units, noNul⟩ := other
    cases units with
    | nil => rfl
    | cons unit2 units =>
        have ends : (((0 : UInt16).toNat : Int) - unit2.toNat ≠ 0 ∨ (0 : UInt16) = 0) := .inr rfl
        rw [List.nil_append, List.cons_append, strcmp16, if_pos ends]
        rfl
  · intro unit units notZero ih other
    obtain ⟨units2, noNul⟩ := other
    cases units2 with
    | nil =>
        have differ : (unit.toNat : Int) - ((0 : UInt16).toNat : Int) ≠ 0 ∨ unit = 0 :=
          .inl (sub_zero_ne notZero)
        rw [List.nil_append, List.cons_append, strcmp16, if_pos differ]
        rfl
    | cons unit2 units2 =>
        have behind : 0 ∉ units2 := fun member => noNul (List.mem_cons_of_mem _ member)
        rw [List.cons_append, List.cons_append, strcmp16, strzcmp16]
        by_cases differ : (unit.toNat : Int) - unit2.toNat ≠ 0
        · rw [if_pos (.inl differ), if_pos differ]
        · rw [if_neg (fun either => either.elim differ notZero), if_neg differ]
          exact ih ⟨units2, behind⟩

/-- On strings without null units, the comparison is that of the lexicographic order. -/
theorem strzcmp16_neg_iff {s1 s2 : List UInt16} (noNul1 : 0 ∉ s1) (noNul2 : 0 ∉ s2) :
    strzcmp16 s1 s2 < 0 ↔ s1 < s2 := by
  fun_induction strzcmp16 s1 s2 with
  | case1 unit1 s1 unit2 s2 d differ =>
      have notSame : unit1 ≠ unit2 := fun same => differ (difference_eq_zero_iff.mpr same)
      rw [List.cons_lt_cons_iff, or_iff_left fun both => notSame both.1, UInt16.lt_iff_toNat_lt]
      exact sub_neg.trans Int.ofNat_lt
  | case2 unit1 s1 unit2 s2 d noDifference ih =>
      have same := difference_eq_zero_iff.mp (not_not.mp noDifference)
      rw [List.cons_lt_cons_iff, same, ih (fun member => noNul1 (List.mem_cons_of_mem _ member))
        fun member => noNul2 (List.mem_cons_of_mem _ member)]
      constructor
      · intro less
        exact .inr ⟨rfl, less⟩
      · rintro (less | ⟨-, less⟩)
        · exact absurd less (UInt16.lt_irrefl unit2)
        · exact less
  | case3 unit2 s2 =>
      have notZero : unit2 ≠ 0 := fun isZero => noNul2 (isZero ▸ List.mem_cons_self)
      have positive : 0 < (unit2.toNat : Int) :=
        lt_of_le_of_ne (Int.natCast_nonneg _) fun same => notZero (toNat_eq_zero_iff.mp same.symm)
      refine iff_of_true ?_ (List.nil_lt_cons _ _)
      rw [Int.zero_sub]
      exact Int.neg_neg_of_pos positive
  | case4 unit1 s1 =>
      refine iff_of_false ?_ (List.not_lt_nil _)
      rw [Int.sub_zero]
      exact not_lt.mpr (Int.natCast_nonneg _)
  | case5 => exact iff_of_false (Int.lt_irrefl 0) (List.not_lt_nil _)

theorem strzcmp16_eq_zero {s1 s2 : List UInt16} (noNul1 : 0 ∉ s1) (noNul2 : 0 ∉ s2) :
    strzcmp16 s1 s2 = 0 ↔ s1 = s2 := by
  have notFollows : ∀ {s1 s2 : List UInt16}, 0 ∉ s2 → ¬ NullFollows s1 s2 := by
    rintro s1 _ noNul ⟨rest, rfl⟩
    exact noNul (List.mem_append_right _ List.mem_cons_self)
  rw [strzcmp16_eq_zero_iff, or_iff_left]
  rintro (follows | follows)
  · exact notFollows noNul2 follows
  · exact notFollows noNul1 follows

/-! ## Search -/

/-- The first `t.length` units agree exactly if `t` begins here. -/
theorem strncmp16_isPrefix :
    strncmp16 (string.inMemory rest) (other.inMemory otherRest) other.units.length = some 0 ↔
      other.units <+: string.units := by
  have noNul : 0 ∉ string.units.take other.units.length :=
    fun member => string.noNul (List.mem_of_mem_take member)
  have otherNoNul : 0 ∉ other.units.take other.units.length :=
    fun member => other.noNul (List.mem_of_mem_take member)
  rw [strncmp16_eq, Option.some_inj, strzcmp16_eq_zero noNul otherNoNul, List.take_length,
    List.prefix_iff_eq_take, eq_comm]

/-- The loops find the needle with the rest of the target behind it. -/
theorem strstr16Loop_found (needle : UInt16) :
    ∃ found, strstr16Loop needle (other.inMemory otherRest) other.units.length
        (string.inMemory rest) = some found ∧
      Found (needle :: other.units) string.units found := by
  obtain ⟨units, noNul⟩ := string
  change ∃ found, strstr16Loop needle (other.inMemory otherRest) other.units.length
    (units ++ 0 :: rest) = some found ∧ Found (needle :: other.units) units found
  induction units with
  | nil => exact ⟨none, rfl, found_nil (List.cons_ne_nil _ _)⟩
  | cons unit units ih =>
      have notZero : unit ≠ 0 := fun isZero => noNul (isZero ▸ List.mem_cons_self)
      have behind : 0 ∉ units := fun member => noNul (List.mem_cons_of_mem _ member)
      obtain ⟨found, goesOn, isFound⟩ := ih behind
      have later : ¬ needle :: other.units <+: unit :: units →
          ∃ found, (strstr16Loop needle (other.inMemory otherRest) other.units.length
              (units ++ 0 :: rest)).map (Option.map (· + 1)) = some found ∧
            Found (needle :: other.units) (unit :: units) found := by
        intro notHere
        refine ⟨found.map (· + 1), ?_, found_later notHere isFound⟩
        rw [goesOn]
        rfl
      rw [List.cons_append, strstr16Loop, if_neg notZero]
      by_cases isNeedle : unit = needle
      · rw [if_neg (not_not.mpr isNeedle)]
        obtain ⟨d, compared⟩ : ∃ d, strncmp16 (units ++ 0 :: rest) (other.inMemory otherRest)
            other.units.length = some d :=
          ⟨_, strncmp16_eq ⟨units, behind⟩ other rest otherRest other.units.length⟩
        have isPrefix : strncmp16 (units ++ 0 :: rest) (other.inMemory otherRest)
            other.units.length = some 0 ↔ other.units <+: units :=
          strncmp16_isPrefix ⟨units, behind⟩ other rest otherRest
        rw [compared, Option.some_inj] at isPrefix
        rw [compared, Option.bind_eq_bind, Option.bind_some]
        by_cases differ : d ≠ 0
        · rw [if_pos differ]
          refine later fun begins => differ (isPrefix.mpr ?_)
          exact (List.cons_prefix_cons.mp begins).2
        · rw [if_neg differ]
          refine ⟨some 0, rfl, found_here ?_⟩
          exact List.cons_prefix_cons.mpr ⟨isNeedle.symm, isPrefix.mp (not_not.mp differ)⟩
      · rw [if_pos isNeedle]
        exact later fun begins => isNeedle (List.cons_prefix_cons.mp begins).1.symm

/-- `strstr16` finds the first occurrence, if there is one. -/
theorem strstr16_found :
    ∃ found, strstr16 (string.inMemory rest) (other.inMemory otherRest) = some found ∧
      Found other.units string.units found := by
  obtain ⟨units, noNul⟩ := other
  cases units with
  | nil => exact ⟨some 0, rfl, found_here List.nil_prefix⟩
  | cons needle target =>
      have notZero : needle ≠ 0 := fun isZero => noNul (isZero ▸ List.mem_cons_self)
      have behind : 0 ∉ target := fun member => noNul (List.mem_cons_of_mem _ member)
      obtain ⟨found, loops, isFound⟩ :=
        strstr16Loop_found string ⟨target, behind⟩ rest otherRest needle
      refine ⟨found, ?_, isFound⟩
      rw [← loops]
      have measured := strlen16_eq ⟨target, behind⟩ otherRest
      change strstr16 (string.inMemory rest) (needle :: (target ++ 0 :: otherRest)) = _
      rw [strstr16, if_neg notZero]
      change ((strlen16 (CString16.inMemory ⟨target, behind⟩ otherRest)).bind fun targetLen =>
        strstr16Loop needle _ targetLen (string.inMemory rest)) = _
      rw [measured]
      rfl

/-- On strings that end with a null unit, wherever they lie and whatever lies behind: the
functions read nothing behind the terminators; `strcmp16` and `strncmp16` find what `strzcmp16`
finds when it is given the lengths, which is the lexicographic order of the units; and
`strstr16` finds the first occurrence of the target, if there is one. -/
theorem terminated_strings (n : Nat) :
    strlen16 (string.inMemory rest) = some string.units.length ∧
    strnlen16 (string.inMemory rest) n = some (string.units.take n).length ∧
    strcpy16 (string.inMemory rest) = some (string.inMemory []) ∧
    strcmp16 (string.inMemory rest) (other.inMemory otherRest) =
      some (strzcmp16 string.units other.units) ∧
    strncmp16 (string.inMemory rest) (other.inMemory otherRest) n =
      some (strzcmp16 (string.units.take n) (other.units.take n)) ∧
    (strzcmp16 string.units other.units < 0 ↔ string.units < other.units) ∧
    (strzcmp16 string.units other.units = 0 ↔ string.units = other.units) ∧
    ∃ found, strstr16 (string.inMemory rest) (other.inMemory otherRest) = some found ∧
      Found other.units string.units found :=
  ⟨strlen16_eq string rest, strnlenLoop_eq string.noNul rest n, strcpy16_eq string rest,
    strcmp16_eq string other rest otherRest, strncmp16_eq string other rest otherRest n,
    strzcmp16_neg_iff string.noNul other.noNul, strzcmp16_eq_zero string.noNul other.noNul,
    strstr16_found string other rest otherRest⟩

end Strings

end DroidKernal.Utils
