import DroidKernal.Utils.Vector

/-!
# SortedVector and KeyedVector

The search of `SortedVectorImpl` in the array of a vector, with the comparison that the templates
make from `operator <`.  No array has more elements than a `ssize_t` can count.
-/

namespace DroidKernal.Utils

/-- `NAME_NOT_FOUND`. -/
def nameNotFound : Int := -2

section Comparison

variable {T : Type*} (lt : T → T → Bool)

/-- `strictly_order_type`. -/
def strictlyOrderType (lhs rhs : T) : Int := if lt lhs rhs then 1 else 0

/-- `compare_type`. -/
def compareType (lhs rhs : T) : Int := strictlyOrderType lt rhs lhs - strictlyOrderType lt lhs rhs

end Comparison

/-- `key_value_pair_t`. -/
structure KeyValuePair (K V : Type*) where
  key : K
  value : V
  deriving DecidableEq, Repr

/-- `operator <` of the pairs. -/
def KeyValuePair.lt {K V : Type*} (ltKey : K → K → Bool) (pair o : KeyValuePair K V) : Bool :=
  strictlyOrderType ltKey pair.key o.key ≠ 0

/-! ## SortedVectorImpl -/

namespace VectorImpl

variable {T : Type*} (doCompare : T → T → Int) (vector : VectorImpl T) (item : T)

/-- The loop of `_indexOrderOf`: the result and what it leaves in `*order`.  There is none where
it reads what is no element. -/
def indexOrderLoop (l h : Int) : Option (Int × Nat) :=
  if l ≤ h then
    let mid := l + (h - l) / 2
    match vector.slot mid.toNat with
    | none => none
    | some curr =>
        let c := doCompare curr item
        if c = 0 then some (mid, mid.toNat)
        else if c < 0 then indexOrderLoop (mid + 1) h
        else indexOrderLoop l (mid - 1)
  else some (nameNotFound, l.toNat)
termination_by (h - l + 1).toNat

/-- `SortedVectorImpl::_indexOrderOf`. -/
def indexOrderOf : Option (Int × Nat) :=
  if vector.mCount = 0 then some (nameNotFound, 0)
  else vector.indexOrderLoop doCompare item 0 ((vector.mCount : Int) - 1)

/-- `SortedVectorImpl::indexOf`. -/
def indexOf : Option Int := (vector.indexOrderOf doCompare item).map Prod.fst

end VectorImpl

/-- `class KeyedVector`. -/
structure KeyedVector (K V : Type*) where
  mVector : VectorImpl (KeyValuePair K V)

namespace KeyedVector

variable {K V : Type*}

/-- `KeyedVector::indexOfKey`.  The pair that it looks for has a value too, which the constructor
leaves as it is. -/
def indexOfKey (ltKey : K → K → Bool) (keyed : KeyedVector K V) (key : K) (value : V) :
    Option Int :=
  keyed.mVector.indexOf (compareType (KeyValuePair.lt ltKey)) ⟨key, value⟩

/-- `KeyedVector::valueAt`. -/
def valueAt (keyed : KeyedVector K V) (index : Nat) : Option V :=
  (keyed.mVector.slot index).map KeyValuePair.value

end KeyedVector

end DroidKernal.Utils
