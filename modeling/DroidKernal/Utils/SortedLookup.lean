import DroidKernal.Lib.Insertion
import DroidKernal.Utils.Contents
import DroidKernal.Utils.SortedVector
import Mathlib.Order.Basic

/-!
# Lookup in sorted vectors

The search halves a window.  What lies before it is smaller than the item, what lies behind it is
larger, and so its lower end is the number of smaller elements when nothing is left of it.
-/

namespace DroidKernal.Utils

open Lib

/-! ## Comparison -/

section Comparison

variable {T κ : Type*} [LinearOrder κ] {rank : T → κ} {lt : T → T → Bool}

/-- A comparison of elements by their ranks. -/
structure Compares (doCompare : T → T → Int) (rank : T → κ) : Prop where
  less : ∀ lhs rhs, doCompare lhs rhs < 0 ↔ rank lhs < rank rhs
  equal : ∀ lhs rhs, doCompare lhs rhs = 0 ↔ rank lhs = rank rhs

theorem strictlyOrderType_eq (isLess : ∀ lhs rhs, lt lhs rhs = true ↔ rank lhs < rank rhs)
    (lhs rhs : T) : strictlyOrderType lt lhs rhs = if rank lhs < rank rhs then 1 else 0 := by
  simp only [strictlyOrderType, isLess]

/-- `compare_type` makes two tests of one order. -/
theorem compares_compareType (isLess : ∀ lhs rhs, lt lhs rhs = true ↔ rank lhs < rank rhs) :
    Compares (compareType lt) rank where
  less lhs rhs := by
    rw [compareType, strictlyOrderType_eq isLess, strictlyOrderType_eq isLess]
    obtain before | same | behind := lt_trichotomy (rank lhs) (rank rhs)
    · simp [before, lt_asymm before]
    · simp [same]
    · simp [behind, lt_asymm behind]
  equal lhs rhs := by
    rw [compareType, strictlyOrderType_eq isLess, strictlyOrderType_eq isLess]
    obtain before | same | behind := lt_trichotomy (rank lhs) (rank rhs)
    · simp [before, lt_asymm before, before.ne]
    · simp [same]
    · simp [behind, lt_asymm behind, behind.ne']

end Comparison

/-! ## The search -/

/-- What a search in sorted elements finds. -/
inductive Located {T κ : Type*} [LT κ] (rank : T → κ) (items : List T) (item : T) :
    Int × Nat → Prop where
  | found {smaller larger : List T} {entry : T} (split : items = smaller ++ entry :: larger)
      (below : ∀ other ∈ smaller, rank other < rank item) (same : rank entry = rank item)
      (above : ∀ other ∈ larger, rank item < rank other) :
      Located rank items item (smaller.length, smaller.length)
  | missing {smaller larger : List T} (split : items = smaller ++ larger)
      (below : ∀ other ∈ smaller, rank other < rank item)
      (above : ∀ other ∈ larger, rank item < rank other) :
      Located rank items item (nameNotFound, smaller.length)

section Search

variable {T κ : Type*} [LinearOrder κ] {rank : T → κ} {doCompare : T → T → Int}
  {traits : Traits} {vector : VectorImpl T} {items : List T} {item : T}

/-- The loop ends in a window without elements. -/
theorem indexOrderLoop_nothing {l h : Int} (nothing : h < l) :
    vector.indexOrderLoop doCompare item l h = some (nameNotFound, l.toNat) := by
  rw [VectorImpl.indexOrderLoop, if_neg (Int.not_le.mpr nothing)]

/-- What it does at the element in the middle of the window. -/
theorem indexOrderLoop_middle {l h : Int} {middle : Nat} {curr : T} (some' : l ≤ h)
    (isMiddle : l + (h - l) / 2 = middle) (isCurr : vector.slot middle = some curr) :
    vector.indexOrderLoop doCompare item l h =
      if doCompare curr item = 0 then some ((middle : Int), middle)
      else if doCompare curr item < 0 then
        vector.indexOrderLoop doCompare item (middle + 1) h
      else vector.indexOrderLoop doCompare item l (middle - 1) := by
  rw [VectorImpl.indexOrderLoop, if_pos some', isMiddle]
  simp only [Int.toNat_natCast, isCurr]

/-- The window is split at its middle. -/
theorem exists_middle {window : List T} (nonempty : window ≠ []) :
    ∃ front curr back, window = front ++ curr :: back ∧
      front.length = (window.length - 1) / 2 := by
  have positive := List.length_pos_of_ne_nil nonempty
  have inside : (window.length - 1) / 2 < window.length := by omega
  refine ⟨window.take ((window.length - 1) / 2), window[(window.length - 1) / 2],
    window.drop ((window.length - 1) / 2 + 1), ?_, ?_⟩
  · rw [← List.drop_eq_getElem_cons inside, List.take_append_drop]
  · rw [List.length_take, Nat.min_eq_left (Nat.le_of_lt inside)]

theorem sorted_around (sorted : items.Pairwise fun first second => rank first < rank second)
    {smaller front back larger : List T} {curr : T}
    (split : items = smaller ++ (front ++ curr :: back ++ larger)) :
    (∀ other ∈ front, rank other < rank curr) ∧ ∀ other ∈ back, rank curr < rank other := by
  rw [split] at sorted
  obtain ⟨window, -, -⟩ := List.pairwise_append.mp (List.pairwise_append.mp sorted).2.1
  obtain ⟨-, fromCurr, across⟩ := List.pairwise_append.mp window
  exact ⟨fun other isIn => across other isIn curr (List.mem_cons_self ..),
    (List.pairwise_cons.mp fromCurr).1⟩

/-- Every turn of the loop keeps what lies before and behind the window. -/
theorem indexOrderLoop_located (compares : Compares doCompare rank)
    (holds : vector.Holds traits items)
    (sorted : items.Pairwise fun first second => rank first < rank second)
    {smaller window larger : List T} (split : items = smaller ++ (window ++ larger))
    (below : ∀ other ∈ smaller, rank other < rank item)
    (above : ∀ other ∈ larger, rank item < rank other) :
    ∃ result, vector.indexOrderLoop doCompare item smaller.length
        (smaller.length + window.length - 1) = some result ∧ Located rank items item result := by
  induction isLength : window.length using Nat.strong_induction_on
    generalizing smaller window larger with
  | h n ih =>
      by_cases nothing : window = []
      · subst nothing isLength
        refine ⟨_, indexOrderLoop_nothing (by simp), ?_⟩
        exact .missing split below above
      · obtain ⟨front, curr, back, rfl, isMiddle⟩ := exists_middle nothing
        have slot : vector.slot (smaller.length + front.length) = some curr := by
          rw [holds.slots _ (by simp [split]), split]
          simp
        have length : n = front.length + (back.length + 1) := by simp [← isLength]
        rw [isLength] at isMiddle
        rw [indexOrderLoop_middle (by omega) (by omega) slot]
        obtain ⟨before, behind⟩ := sorted_around sorted split
        split
        next equal =>
          have same := (compares.equal curr item).mp equal
          have whole : items = (smaller ++ front) ++ curr :: (back ++ larger) := by simp [split]
          refine ⟨_, rfl, ?_⟩
          rw [← List.length_append]
          refine .found whole (fun other isIn => ?_) same fun other isIn => ?_
          · obtain old | new := List.mem_append.mp isIn
            · exact below other old
            · exact same ▸ before other new
          · obtain new | old := List.mem_append.mp isIn
            · exact same ▸ behind other new
            · exact above other old
        next differ =>
          split
          next less =>
            have isLess := (compares.less curr item).mp less
            have whole : items = (smaller ++ (front ++ [curr])) ++ (back ++ larger) := by
              simp [split]
            have shorter := ih back.length (by omega) whole (fun other isIn => ?_) above rfl
            · convert shorter using 5
              · simp only [List.length_append, List.length_singleton]
                omega
              · simp only [List.length_append, List.length_singleton]
                omega
            · simp only [List.mem_append, List.mem_singleton] at isIn
              obtain old | new | rfl := isIn
              · exact below other old
              · exact (before other new).trans isLess
              · exact isLess
          next notLess =>
            have isGreater : rank item < rank curr := by
              refine lt_of_le_of_ne ?_ fun same => differ ((compares.equal _ _).mpr same.symm)
              exact not_lt.mp fun isLess => notLess ((compares.less _ _).mpr isLess)
            have whole : items = smaller ++ (front ++ (curr :: back ++ larger)) := by simp [split]
            have shorter := ih front.length (by omega) whole below (fun other isIn => ?_) rfl
            · convert shorter using 5
              simp
            · obtain new | old := List.mem_append.mp isIn
              · obtain rfl | isBehind := List.mem_cons.mp new
                · exact isGreater
                · exact isGreater.trans (behind other isBehind)
              · exact above other old

theorem indexOrderOf_located (compares : Compares doCompare rank)
    (holds : vector.Holds traits items)
    (sorted : items.Pairwise fun first second => rank first < rank second) (item : T) :
    ∃ result, vector.indexOrderOf doCompare item = some result ∧
      Located rank items item result := by
  rw [VectorImpl.indexOrderOf, holds.count]
  split
  next none =>
    obtain rfl := List.eq_nil_of_length_eq_zero none
    exact ⟨_, rfl, @Located.missing T κ _ rank [] item [] [] rfl nofun nofun⟩
  next =>
    have whole : items = [] ++ (items ++ []) := by simp
    have located : ∃ result, vector.indexOrderLoop doCompare item ([] : List T).length
        (([] : List T).length + items.length - 1) = some result ∧ Located rank items item result :=
      indexOrderLoop_located compares holds sorted whole nofun nofun
    simpa using located

end Search

/-! ## Results -/

/-- The result of a search among elements with different ranks. -/
structure Finds {T κ : Type*} [LT κ] [DecidableLT κ] (rank : T → κ) (items : List T) (item : T)
    (err : Int) (order : Nat) : Prop where
  index : ∀ (i : Nat) (entry : T), items[i]? = some entry → rank entry = rank item → err = i
  missing : (∀ entry ∈ items, rank entry ≠ rank item) → err = nameNotFound
  order : order = items.countP fun entry => rank entry < rank item

section Results

variable {T κ : Type*} [LinearOrder κ] {rank : T → κ} {items smaller larger : List T} {item : T}

theorem countP_smaller (below : ∀ other ∈ smaller, rank other < rank item)
    (above : ∀ other ∈ larger, rank item ≤ rank other) :
    (smaller ++ larger).countP (fun entry => rank entry < rank item) = smaller.length := by
  have all : smaller.countP (fun entry => rank entry < rank item) = smaller.length :=
    List.countP_eq_length.mpr fun other isIn => decide_eq_true (below other isIn)
  have none : larger.countP (fun entry => rank entry < rank item) = 0 :=
    List.countP_eq_zero.mpr fun other isIn => by simpa using above other isIn
  rw [List.countP_append, all, none, Nat.add_zero]

/-- An element of the rank of the item is the one between the smaller and the larger ones. -/
theorem index_between {entry other : T} (below : ∀ other ∈ smaller, rank other < rank item)
    (above : ∀ other ∈ larger, rank item < rank other) {i : Nat}
    (isAt : (smaller ++ entry :: larger)[i]? = some other) (equal : rank other = rank item) :
    i = smaller.length := by
  obtain before | same | behind := lt_trichotomy i smaller.length
  · rw [List.getElem?_append_left before] at isAt
    exact absurd equal (below other (List.mem_of_getElem? isAt)).ne
  · exact same
  · obtain ⟨k, rfl⟩ := Nat.exists_eq_add_of_lt behind
    have shifted : smaller.length + k + 1 - smaller.length = k + 1 := by omega
    rw [List.getElem?_append_right (by omega), shifted, List.getElem?_cons_succ] at isAt
    exact absurd equal (above other (List.mem_of_getElem? isAt)).ne'

theorem Located.finds {result : Int × Nat} (located : Located rank items item result) :
    Finds rank items item result.1 result.2 := by
  cases located with
  | @found smaller larger entry split below same above =>
      subst split
      refine ⟨fun i other isAt equal => ?_, fun none => ?_, ?_⟩
      · rw [index_between below above isAt equal]
      · exact absurd same (none entry (List.mem_append_right _ (List.mem_cons_self ..)))
      · refine (countP_smaller below fun other isIn => ?_).symm
        obtain rfl | isLarger := List.mem_cons.mp isIn
        · exact same.ge
        · exact (above other isLarger).le
  | @missing smaller larger split below above =>
      subst split
      refine ⟨fun i other isAt equal => ?_, fun _ => rfl, ?_⟩
      · obtain isSmaller | isLarger := List.mem_append.mp (List.mem_of_getElem? isAt)
        · exact absurd equal (below other isSmaller).ne
        · exact absurd equal (above other isLarger).ne'
      · exact (countP_smaller below fun other isIn => (above other isIn).le).symm

theorem Located.position [LinearOrder T] {item : T} {items : List T} {result : Int × Nat}
    (located : Located id items item result) (isNew : item ∉ items) {relation : T → T → Prop}
    (sorted : items.Pairwise relation)
    (isOrder : ∀ other, other ≠ item →
      (relation other item ↔ other < item) ∧ (relation item other ↔ item < other))
    {pos : Nat} (inside : pos ≤ items.length) :
    (items.take pos ++ item :: items.drop pos).Pairwise relation ↔ pos = result.2 := by
  cases located with
  | found split below same above =>
      rw [split] at isNew
      refine absurd (List.mem_append_right _ ?_) isNew
      exact List.mem_cons.mpr (.inl same.symm)
  | missing split below above =>
      subst split
      refine sorted_insertion_iff sorted (fun other isIn => ?_) (fun other isIn => ?_) inside
      · have isLess : other < item := below other isIn
        have related := isOrder other isLess.ne
        exact ⟨related.1.mpr isLess, fun behind => lt_asymm isLess (related.2.mp behind)⟩
      · have isGreater : item < other := above other isIn
        have related := isOrder other isGreater.ne'
        exact ⟨related.2.mpr isGreater, fun before => lt_asymm isGreater (related.1.mp before)⟩

/-- Only the ranks matter for the result. -/
theorem Finds.err_eq {T' : Type*} {rank' : T' → κ} {items' : List T'} {item' : T'} {err err' : Int}
    {order order' : Nat} (first : Finds rank items item err order)
    (second : Finds rank' items' item' err' order') (sameItem : rank item = rank' item')
    (same : items.map rank = items'.map rank') : err = err' := by
  by_cases isThere : ∃ entry ∈ items, rank entry = rank item
  · obtain ⟨entry, isIn, equal⟩ := isThere
    obtain ⟨i, isAt⟩ := List.mem_iff_getElem?.mp isIn
    have rankAt : (items'.map rank')[i]? = some (rank entry) := by
      rw [← same, List.getElem?_map, isAt]
      rfl
    rw [List.getElem?_map, Option.map_eq_some_iff] at rankAt
    obtain ⟨entry', isAt', equal'⟩ := rankAt
    rw [first.index i entry isAt equal,
      second.index i entry' isAt' (equal'.trans (equal.trans sameItem))]
  · have none : ∀ entry ∈ items, rank entry ≠ rank item := fun entry isIn equal =>
      isThere ⟨entry, isIn, equal⟩
    have none' : ∀ entry ∈ items', rank' entry ≠ rank' item' := by
      intro entry' isIn' equal'
      have isRank : rank' entry' ∈ items.map rank := same ▸ List.mem_map_of_mem isIn'
      obtain ⟨entry, isIn, equal⟩ := List.mem_map.mp isRank
      exact none entry isIn (equal.trans (equal'.trans sameItem.symm))
    rw [first.missing none, second.missing none']

end Results

/-! ## Vectors and pairs -/

/-- `operator <` of a strict total order. -/
def less {T : Type*} [LT T] [DecidableLT T] (lhs rhs : T) : Bool := lhs < rhs

/-- What `_indexOrderOf` is for.  An item that is not there yet keeps the array in order at no
other place. -/
structure LooksUp {T : Type*} [LinearOrder T] (vector : VectorImpl T) (items : List T) (item : T)
    (err : Int) (order : Nat) : Prop where
  indexOrderOf : vector.indexOrderOf (compareType less) item = some (err, order)
  indexOf : vector.indexOf (compareType less) item = some err
  finds : Finds id items item err order
  position : item ∉ items → ∀ pos ≤ items.length,
    ((items.take pos ++ item :: items.drop pos).Pairwise (· < ·) ↔ pos = order) ∧
      ((items.take pos ++ item :: items.drop pos).Pairwise (· ≤ ·) ↔ pos = order)

/-- What `indexOfKey` is for. -/
structure FindsKey {K V : Type*} [LinearOrder K] (keyed : KeyedVector K V)
    (pairs : List (KeyValuePair K V)) (key : K) (index : Int) : Prop where
  there : ∀ (i : Nat) (pair : KeyValuePair K V), pairs[i]? = some pair → pair.key = key →
    index = i ∧ keyed.valueAt i = some pair.value
  missing : (∀ pair ∈ pairs, pair.key ≠ key) → index = nameNotFound

section Vectors

variable {T : Type*} [LinearOrder T] {traits : Traits} {vector : VectorImpl T} {items : List T}

theorem lookup_located (holds : vector.Holds traits items) (sorted : items.Pairwise (· < ·))
    (item : T) : ∃ err order, LooksUp vector items item err order := by
  have compares : Compares (compareType (less : T → T → Bool)) id :=
    compares_compareType fun lhs rhs => decide_eq_true_iff
  obtain ⟨⟨err, order⟩, isResult, located⟩ := indexOrderOf_located compares holds sorted item
  refine ⟨err, order, isResult, ?_, located.finds, fun isNew pos inside => ⟨?_, ?_⟩⟩
  · rw [VectorImpl.indexOf, isResult]
    rfl
  · exact located.position isNew sorted (fun other _ => ⟨Iff.rfl, Iff.rfl⟩) inside
  · refine located.position isNew (sorted.imp le_of_lt) (fun other differ => ⟨?_, ?_⟩) inside
    · exact ⟨fun atMost => lt_of_le_of_ne atMost differ, le_of_lt⟩
    · exact ⟨fun atLeast => lt_of_le_of_ne atLeast differ.symm, le_of_lt⟩

end Vectors

section Pairs

variable {K V : Type*} [LinearOrder K] {traits : Traits} {keyed : KeyedVector K V}
  {pairs : List (KeyValuePair K V)}

theorem keyed_located (holds : keyed.mVector.Holds traits pairs)
    (sorted : pairs.Pairwise fun first second => first.key < second.key) (key : K) (value : V) :
    ∃ index order, keyed.indexOfKey less key value = some index ∧
      Finds KeyValuePair.key pairs ⟨key, value⟩ index order := by
  have compares : Compares (compareType (KeyValuePair.lt (V := V) (less : K → K → Bool)))
      KeyValuePair.key := by
    apply compares_compareType
    intro lhs rhs
    simp [KeyValuePair.lt, strictlyOrderType, less]
  obtain ⟨⟨index, order⟩, isResult, located⟩ :=
    indexOrderOf_located compares holds sorted ⟨key, value⟩
  refine ⟨index, order, ?_, located.finds⟩
  rw [KeyedVector.indexOfKey, VectorImpl.indexOf, isResult]
  rfl

end Pairs

/-- The search finds what is there, and where an item belongs that is not; that of a key depends
on the keys only. -/
theorem sorted_lookup {T K V W : Type*} [LinearOrder T] [LinearOrder K] :
    (∀ (traits : Traits) (vector : VectorImpl T) (items : List T), vector.Holds traits items →
        items.Pairwise (· < ·) → ∀ item, ∃ err order, LooksUp vector items item err order) ∧
      ∀ (traits : Traits) (keyed : KeyedVector K V) (pairs : List (KeyValuePair K V)),
        keyed.mVector.Holds traits pairs →
        (pairs.Pairwise fun first second => first.key < second.key) → ∀ (key : K) (value : V),
          ∃ index, keyed.indexOfKey less key value = some index ∧ FindsKey keyed pairs key index ∧
            ∀ (traits' : Traits) (other : KeyedVector K W) (pairs' : List (KeyValuePair K W)),
              other.mVector.Holds traits' pairs' →
              pairs'.map KeyValuePair.key = pairs.map KeyValuePair.key → ∀ value' : W,
                other.indexOfKey less key value' = some index := by
  refine ⟨fun traits vector items holds sorted item => lookup_located holds sorted item, ?_⟩
  intro traits keyed pairs holds sorted key value
  obtain ⟨index, order, isIndex, finds⟩ := keyed_located holds sorted key value
  refine ⟨index, isIndex, ⟨fun i pair isAt isKey => ⟨finds.index i pair isAt isKey, ?_⟩,
    fun none => finds.missing none⟩, ?_⟩
  · obtain ⟨inside, -⟩ := List.getElem?_eq_some_iff.mp isAt
    rw [KeyedVector.valueAt, holds.slots i inside, isAt]
    rfl
  · intro traits' other pairs' holds' sameKeys value'
    have sorted' : pairs'.Pairwise fun first second => first.key < second.key := by
      rw [← List.pairwise_map, sameKeys]
      exact List.pairwise_map.mpr sorted
    obtain ⟨index', order', isIndex', finds'⟩ := keyed_located holds' sorted' key value'
    rw [isIndex', finds'.err_eq finds rfl sameKeys]

/-- A vector of integers with no room left. -/
def rowOf (items : List Int) : VectorImpl Int where
  mStorage := some { mSize := items.length * 4, slots := fun i => items[i]? }
  mCount := items.length

theorem rowOf_holds (items : List Int) :
    (rowOf items).Holds (.nontrivial 4 (by decide)) items where
  count := rfl
  room := Nat.le_of_eq (Nat.mul_div_cancel items.length (by decide)).symm
  slots _ _ := rfl

/-- The place of 4 among three numbers. -/
theorem sorted_lookup_four :
    (rowOf [1, 3, 9]).indexOrderOf (compareType less) 4 = some (nameNotFound, 2) := by
  obtain ⟨err, order, isResult, -, finds, -⟩ :=
    (sorted_lookup (K := Int) (V := Unit) (W := Unit)).1 _ _ _ (rowOf_holds [1, 3, 9])
      (by decide) 4
  have isErr : err = nameNotFound := finds.missing (by decide)
  have isOrder : order = 2 := finds.order
  rw [isResult, isErr, isOrder]

/-- In the array the item stays sorted at one position only, which is the order. -/
def OnlyPosition (relation : Int → Int → Prop) : Prop :=
  ∀ (traits : Traits) (vector : VectorImpl Int) (items : List Int), vector.Holds traits items →
    items.Pairwise (· < ·) → ∀ (item err : Int) (order : Nat),
      vector.indexOrderOf (compareType less) item = some (err, order) → ∀ pos ≤ items.length,
        ((items.take pos ++ item :: items.drop pos).Pairwise relation ↔ pos = order)

/-- An item that is there already has none or two. -/
theorem equal_item_not_only : ¬ OnlyPosition (· < ·) ∧ ¬ OnlyPosition (· ≤ ·) := by
  have isResult : (rowOf [5]).indexOrderOf (compareType less) 5 = some (0, 0) := by
    obtain ⟨err, order, isResult, -, finds, -⟩ := lookup_located (rowOf_holds [5]) (by decide) 5
    have isErr : err = 0 := finds.index 0 5 rfl rfl
    have isOrder : order = 0 := finds.order
    rw [isResult, isErr, isOrder]
  constructor
  · intro only
    have stays := (only _ _ _ (rowOf_holds [5]) (by decide) 5 0 0 isResult 0 (by decide)).mpr rfl
    exact absurd stays (by decide)
  · intro only
    have isZero := (only _ _ _ (rowOf_holds [5]) (by decide) 5 0 0 isResult 1 (by decide)).mp
      (by decide)
    cases isZero

end DroidKernal.Utils
