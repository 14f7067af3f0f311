import Mathlib.Data.List.TakeWhile
import DroidKernal.Binderfs.Devices
import DroidKernal.Lib.CString

/-!
# The names of the devices

`binder_devices_param` lists the devices that every mount has, separated by commas.
`init_binderfs` checks the length of the names once, and `binderfs_fill_super` cuts them
out again for every mount.  Both stop at the first name that is empty.
-/

namespace DroidKernal.Binderfs

open Lib

/-- A comma. -/
def comma : UInt8 := 0x2C

/-- `strcspn(name, ",")`. -/
def strcspn (name : List UInt8) : Nat := (name.takeWhile (· ≠ comma)).length

/-- `name += len; if (*name == ',') name++`. -/
def skipName (name : List UInt8) (len : Nat) : List UInt8 :=
  match name.drop len with
  | [] => []
  | byte :: rest => if byte = comma then rest else byte :: rest

/-- The loop of `init_binderfs`. -/
def initBinderfsLoop : Nat → List UInt8 → Int
  | 0, _ => 0
  | fuel + 1, name =>
      let len := strcspn name
      if 0 < len then
        if binderfsMaxName < len then -E2BIG else initBinderfsLoop fuel (skipName name len)
      else 0

/-- `init_binderfs`, as far as it looks at the names.  Every iteration moves forward. -/
def initBinderfs (binderDevicesParam : CString) : Int :=
  initBinderfsLoop (binderDevicesParam.strlen + 1) binderDevicesParam.bytes

/-- The names that the loop of `binderfs_fill_super` passes on. -/
def fillSuperLoop : Nat → List UInt8 → List (List UInt8)
  | 0, _ => []
  | fuel + 1, name =>
      let len := strcspn name
      if 0 < len then strscpy name (len + 1) :: fillSuperLoop fuel (skipName name len) else []

/-- The devices that `binderfs_fill_super` creates. -/
def fillSuperNames (binderDevicesParam : CString) : List (List UInt8) :=
  fillSuperLoop (binderDevicesParam.strlen + 1) binderDevicesParam.bytes

/-- The names in a list of them, up to the first that is empty. -/
def listedNames (text : List UInt8) : List (List UInt8) :=
  (text.splitOn comma).takeWhile (· ≠ [])

/-! ## The two loops -/

/-- A text is one name, or a name that a comma ends. -/
inductive Cut (text : List UInt8) : Prop where
  | last (noComma : comma ∉ text) (len : strcspn text = text.length)
      (skipped : skipName text text.length = []) (split : text.splitOn comma = [text])
  | more (name rest : List UInt8) (isText : text = name ++ comma :: rest) (noComma : comma ∉ name)
      (len : strcspn text = name.length) (skipped : skipName text name.length = rest)
      (split : text.splitOn comma = name :: rest.splitOn comma)

theorem cut (text : List UInt8) : Cut text := by
  have before : comma ∉ text.takeWhile (· ≠ comma) := by
    intro member
    simpa using List.mem_takeWhile_imp member
  have len : strcspn text = (text.takeWhile (· ≠ comma)).length := rfl
  have whole := List.takeWhile_append_dropWhile (p := (· ≠ comma)) (l := text)
  have stopped := List.head?_dropWhile_not (· ≠ comma) text
  generalize text.takeWhile (· ≠ comma) = name at *
  cases behind : text.dropWhile (· ≠ comma) with
  | nil =>
      rw [behind, List.append_nil] at whole
      cases whole
      refine .last before len ?_ (List.splitOn_eq_singleton before)
      rw [skipName, List.drop_length]
  | cons byte rest =>
      rw [behind] at stopped whole
      have isComma : byte = comma := by simpa using stopped
      cases isComma
      cases whole
      refine .more name rest rfl before len ?_ (List.splitOn_append_cons_self_of_not_mem before rest)
      rw [skipName, List.drop_left]
      exact if_pos rfl

theorem listedNames_nil : listedNames [] = [] := rfl

/-- The loop of `binderfs_fill_super` cuts the listed names out. -/
theorem fillSuperLoop_eq (fuel : Nat) (text : List UInt8) (enough : text.length < fuel) :
    fillSuperLoop fuel text = listedNames text := by
  induction fuel generalizing text with
  | zero => exact absurd enough (Nat.not_lt_zero _)
  | succ fuel ih =>
      rw [fillSuperLoop]
      obtain ⟨_, len, skipped, split⟩ | ⟨name, rest, rfl, _, len, skipped, split⟩ := cut text
      · by_cases empty : text = []
        · cases empty
          rfl
        · have more := List.length_pos_iff.mpr empty
          have stops : fillSuperLoop fuel [] = [] := ih [] (by simp; omega)
          simp [len, skipped, more, stops, listedNames, split, empty, strscpy]
      · by_cases empty : name = []
        · rw [len, listedNames, split, empty]
          rfl
        · have more := List.length_pos_iff.mpr empty
          have shorter : rest.length < fuel := by
            rw [List.length_append, List.length_cons] at enough
            omega
          simp [len, skipped, more, ih rest shorter, listedNames, split, empty, strscpy]

/-- The loop of `init_binderfs` looks at the length of each of them. -/
theorem initBinderfsLoop_eq (fuel : Nat) (text : List UInt8) (enough : text.length < fuel) :
    initBinderfsLoop fuel text =
      if ∀ name ∈ listedNames text, name.length ≤ binderfsMaxName then 0 else -E2BIG := by
  induction fuel generalizing text with
  | zero => exact absurd enough (Nat.not_lt_zero _)
  | succ fuel ih =>
      rw [initBinderfsLoop]
      obtain ⟨_, len, skipped, split⟩ | ⟨name, rest, rfl, _, len, skipped, split⟩ := cut text
      · by_cases empty : text = []
        · cases empty
          rfl
        · have more := List.length_pos_iff.mpr empty
          have stops : initBinderfsLoop fuel [] = 0 := by
            rw [ih [] (by simp; omega), listedNames_nil]
            rfl
          have names : listedNames text = [text] := by simp [listedNames, split, empty]
          rw [len, skipped, stops, names, if_pos more]
          by_cases long : binderfsMaxName < text.length
          · rw [if_pos long, if_neg (by simpa using long)]
          · rw [if_neg long, if_pos (by simpa using long)]
      · by_cases empty : name = []
        · have names : listedNames (name ++ comma :: rest) = [] := by
            rw [listedNames, split, empty]
            rfl
          rw [len, names, if_neg (by simp [empty]), if_pos (by simp)]
        · have more := List.length_pos_iff.mpr empty
          have shorter : rest.length < fuel := by
            rw [List.length_append, List.length_cons] at enough
            omega
          have names : listedNames (name ++ comma :: rest) = name :: listedNames rest := by
            simp [listedNames, split, empty]
          rw [len, skipped, names, if_pos more, ih rest shorter]
          by_cases long : binderfsMaxName < name.length
          · rw [if_pos long, if_neg (by simp; omega)]
          · simp only [if_neg long, List.forall_mem_cons, Nat.not_lt.mp long, true_and]

/-- A mount creates the listed names, if the module was loaded at all. -/
theorem fillSuperNames_eq (binderDevicesParam : CString) :
    fillSuperNames binderDevicesParam = listedNames binderDevicesParam.bytes :=
  fillSuperLoop_eq _ _ (Nat.lt_succ_self _)

theorem initBinderfs_eq_zero_iff (binderDevicesParam : CString) :
    initBinderfs binderDevicesParam = 0 ↔
      ∀ name ∈ listedNames binderDevicesParam.bytes, name.length ≤ binderfsMaxName := by
  have enough : binderDevicesParam.bytes.length < binderDevicesParam.strlen + 1 :=
    Nat.lt_succ_self _
  rw [initBinderfs, initBinderfsLoop_eq _ _ enough]
  by_cases short : ∀ name ∈ listedNames binderDevicesParam.bytes, name.length ≤ binderfsMaxName
  · simp only [if_pos short, true_iff]
    exact short
  · have notZero : -E2BIG ≠ 0 := by decide
    rw [if_neg short]
    exact iff_of_false notZero short

/-- The bytes of a name are bytes of the list, by induction on the length of the list. -/
theorem mem_of_splitOn (fuel : Nat) (text : List UInt8) (enough : text.length < fuel) :
    ∀ name ∈ text.splitOn comma, ∀ byte ∈ name, byte ∈ text := by
  induction fuel generalizing text with
  | zero => exact absurd enough (Nat.not_lt_zero _)
  | succ fuel ih =>
      intro listed isListed byte member
      obtain ⟨_, _, _, split⟩ | ⟨name, rest, rfl, _, _, _, split⟩ := cut text
      · rw [split, List.mem_singleton] at isListed
        exact isListed ▸ member
      · rw [split] at isListed
        obtain rfl | later := List.mem_cons.mp isListed
        · exact List.mem_append_left _ member
        · rw [List.length_append, List.length_cons] at enough
          exact List.mem_append_right _
            (List.mem_cons_of_mem _ (ih rest (by omega) listed later byte member))

/-- Every name reaches the request as it is listed. -/
theorem requestName_listed {binderDevicesParam : CString}
    (loaded : initBinderfs binderDevicesParam = 0) {name : List UInt8}
    (listed : name ∈ listedNames binderDevicesParam.bytes) : requestName name = name := by
  have short := (initBinderfs_eq_zero_iff binderDevicesParam).mp loaded name listed
  have noNul : ∀ byte ∈ name, decide (byte ≠ 0) := by
    intro byte member
    have piece := (List.takeWhile_sublist _).subset listed
    have inText := mem_of_splitOn _ _ (Nat.lt_succ_self _) name piece byte member
    rw [decide_eq_true_eq]
    rintro rfl
    exact binderDevicesParam.noNul inText
  rw [requestName, List.take_of_length_le short, List.takeWhile_eq_self_iff.mpr noNul]

end DroidKernal.Binderfs
