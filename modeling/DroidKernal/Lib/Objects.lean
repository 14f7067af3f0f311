import Mathlib.Data.List.Nodup
import Mathlib.Logic.Function.Basic

/-!
# Objects and their lifetimes

Memory as far as it matters which objects are alive: at every place there is an object
or none.  An object is the same from its construction to its destruction, also when it
is assigned to or relocated, so it shows when one is lost or destroyed twice.
-/

namespace Lib

/-- An object, with the number of the objects constructed before it as its name. -/
structure Object (T : Type*) where
  id : Nat
  value : T
  deriving DecidableEq

/-- The objects at their places, how many were constructed, and which were destroyed. -/
structure Objects (P T : Type*) where
  objectAt : P → Option (Object T)
  constructed : Nat
  destroyed : List Nat

namespace Objects

variable {P T : Type*}

/-- The value of the object at a place. -/
def valueAt (objects : Objects P T) (place : P) : Option T :=
  (objects.objectAt place).map Object.value

/-- Give every place what lay at its source. -/
def relocate (objects : Objects P T) (source : P → Option P) : Objects P T :=
  { objects with objectAt := fun place => (source place).bind objects.objectAt }

section Updates

variable [DecidableEq P]

/-- Construct an object.  Whatever lay there is lost. -/
def construct (objects : Objects P T) (place : P) (value : T) : Objects P T :=
  { objects with
    objectAt := Function.update objects.objectAt place (some ⟨objects.constructed, value⟩)
    constructed := objects.constructed + 1 }

/-- Destroy an object that is alive. -/
def destroy (objects : Objects P T) (place : P) : Option (Objects P T) :=
  (objects.objectAt place).map fun object =>
    { objects with
      objectAt := Function.update objects.objectAt place none
      destroyed := objects.destroyed ++ [object.id] }

/-- Assign to an object that is alive. -/
def assign (objects : Objects P T) (place : P) (value : T) : Option (Objects P T) :=
  (objects.objectAt place).map fun object =>
    { objects with
      objectAt := Function.update objects.objectAt place (some { object with value }) }

end Updates

/-- Every object that was constructed is alive at one place, or was destroyed once. -/
structure Balanced (objects : Objects P T) : Prop where
  known : ∀ place object, objects.objectAt place = some object → object.id < objects.constructed
  once : ∀ place other object object', objects.objectAt place = some object →
    objects.objectAt other = some object' → object.id = object'.id → place = other
  alive : ∀ place object, objects.objectAt place = some object → object.id ∉ objects.destroyed
  past : ∀ id ∈ objects.destroyed, id < objects.constructed
  nodup : objects.destroyed.Nodup
  nobodyLost : ∀ id < objects.constructed, id ∈ objects.destroyed ∨
    ∃ place object, objects.objectAt place = some object ∧ object.id = id

section Values

variable {objects : Objects P T} {place : P}

theorem valueAt_eq_some {value : T} : objects.valueAt place = some value ↔
    ∃ object, objects.objectAt place = some object ∧ object.value = value :=
  Option.map_eq_some_iff

theorem valueAt_eq_none : objects.valueAt place = none ↔ objects.objectAt place = none :=
  Option.map_eq_none_iff

/-- The same objects have the same values. -/
theorem valueAt_congr {after : Objects P T} {other : P}
    (same : after.objectAt other = objects.objectAt place) :
    after.valueAt other = objects.valueAt place := by
  rw [valueAt, valueAt, same]

@[simp] theorem relocate_objectAt (source : P → Option P) :
    (objects.relocate source).objectAt place = (source place).bind objects.objectAt := rfl

@[simp] theorem relocate_destroyed (source : P → Option P) :
    (objects.relocate source).destroyed = objects.destroyed := rfl

end Values

section Places

variable [DecidableEq P] {objects : Objects P T} {place other : P} {value : T}

@[simp] theorem construct_objectAt :
    (objects.construct place value).objectAt place = some ⟨objects.constructed, value⟩ :=
  Function.update_self ..

theorem construct_elsewhere (differ : other ≠ place) :
    (objects.construct place value).objectAt other = objects.objectAt other :=
  Function.update_of_ne differ ..

@[simp] theorem construct_destroyed :
    (objects.construct place value).destroyed = objects.destroyed := rfl

theorem destroy_eq {object : Object T} (isAlive : objects.objectAt place = some object) :
    objects.destroy place = some { objects with
      objectAt := Function.update objects.objectAt place none
      destroyed := objects.destroyed ++ [object.id] } := by
  rw [destroy, isAlive]
  rfl

end Places

/-! ## What keeps the balance -/

namespace Balanced

theorem init : (⟨fun _ => none, 0, []⟩ : Objects P T).Balanced where
  known := fun _ _ nothing => absurd nothing (Option.some_ne_none _).symm
  once := fun _ _ _ _ nothing => absurd nothing (Option.some_ne_none _).symm
  alive := fun _ _ nothing => absurd nothing (Option.some_ne_none _).symm
  past := fun _ none => absurd none List.not_mem_nil
  nodup := List.nodup_nil
  nobodyLost := fun _ none => absurd none (Nat.not_lt_zero _)

variable [DecidableEq P] {objects : Objects P T} {place : P}

/-- A construction at a place without an object. -/
theorem construct (balanced : objects.Balanced) (isRaw : objects.objectAt place = none)
    (value : T) : (objects.construct place value).Balanced := by
  have at_cases : ∀ p object, (objects.construct place value).objectAt p = some object →
      p = place ∧ object = ⟨objects.constructed, value⟩ ∨
        p ≠ place ∧ objects.objectAt p = some object := by
    intro p object isThere
    by_cases same : p = place
    · subst same
      exact .inl ⟨rfl, (Option.some.inj (construct_objectAt.symm.trans isThere)).symm⟩
    · exact .inr ⟨same, (construct_elsewhere same).symm.trans isThere⟩
  constructor
  · intro p object isThere
    rcases at_cases p object isThere with ⟨_, rfl⟩ | ⟨_, old⟩
    · exact Nat.lt_succ_self _
    · exact Nat.lt_succ_of_lt (balanced.known p object old)
  · intro p q object object' isThere isThere' same
    rcases at_cases p object isThere with ⟨rfl, rfl⟩ | ⟨_, old⟩ <;>
      rcases at_cases q object' isThere' with ⟨rfl, rfl⟩ | ⟨_, old'⟩
    · rfl
    · exact absurd same.symm (Nat.ne_of_lt (balanced.known q object' old'))
    · exact absurd same (Nat.ne_of_lt (balanced.known p object old))
    · exact balanced.once p q object object' old old' same
  · intro p object isThere
    rcases at_cases p object isThere with ⟨_, rfl⟩ | ⟨_, old⟩
    · exact fun isDestroyed => Nat.lt_irrefl _ (balanced.past _ isDestroyed)
    · exact balanced.alive p object old
  · exact fun id isDestroyed => Nat.lt_succ_of_lt (balanced.past id isDestroyed)
  · exact balanced.nodup
  · intro id bound
    rcases Nat.lt_succ_iff_lt_or_eq.mp bound with before | rfl
    · rcases balanced.nobodyLost id before with isDestroyed | ⟨p, object, isThere, isId⟩
      · exact .inl isDestroyed
      · have differ : p ≠ place := by
          rintro rfl
          cases isRaw.symm.trans isThere
        exact .inr ⟨p, object, (construct_elsewhere differ).trans isThere, isId⟩
    · exact .inr ⟨place, _, construct_objectAt, rfl⟩

/-- The destruction of an object. -/
theorem destroy (balanced : objects.Balanced) {after : Objects P T}
    (destroyed : objects.destroy place = some after) : after.Balanced := by
  obtain ⟨gone, isGone, rfl⟩ := Option.map_eq_some_iff.mp destroyed
  have at_cases : ∀ p object, Function.update objects.objectAt place none p = some object →
      p ≠ place ∧ objects.objectAt p = some object := by
    intro p object isThere
    by_cases same : p = place
    · subst same
      cases (Function.update_self ..).symm.trans isThere
    · exact ⟨same, (Function.update_of_ne same ..).symm.trans isThere⟩
  constructor
  · intro p object isThere
    exact balanced.known p object (at_cases p object isThere).2
  · intro p q object object' isThere isThere' same
    exact balanced.once p q object object' (at_cases p object isThere).2
      (at_cases q object' isThere').2 same
  · intro p object isThere isDestroyed
    obtain ⟨differ, old⟩ := at_cases p object isThere
    rcases List.mem_append.mp isDestroyed with before | last
    · exact balanced.alive p object old before
    · exact differ (balanced.once p place object gone old isGone (List.mem_singleton.mp last))
  · intro id isDestroyed
    rcases List.mem_append.mp isDestroyed with before | last
    · exact balanced.past id before
    · cases List.mem_singleton.mp last
      exact balanced.known place gone isGone
  · rw [List.nodup_append]
    refine ⟨balanced.nodup, List.nodup_singleton _, ?_⟩
    rintro id before _ last rfl
    cases List.mem_singleton.mp last
    exact balanced.alive place gone isGone before
  · intro id bound
    rcases balanced.nobodyLost id bound with isDestroyed | ⟨p, object, isThere, rfl⟩
    · exact .inl (List.mem_append_left _ isDestroyed)
    · by_cases same : p = place
      · subst same
        cases isThere.symm.trans isGone
        exact .inl (List.mem_append_right _ (List.mem_singleton_self _))
      · exact .inr ⟨p, object, (Function.update_of_ne same ..).trans isThere, rfl⟩

/-- An assignment changes a value only. -/
theorem assign (balanced : objects.Balanced) {value : T} {after : Objects P T}
    (assigned : objects.assign place value = some after) : after.Balanced := by
  obtain ⟨object, isAlive, rfl⟩ := Option.map_eq_some_iff.mp assigned
  have at_cases : ∀ p found,
      Function.update objects.objectAt place (some { object with value }) p = some found →
        ∃ old, objects.objectAt p = some old ∧ old.id = found.id := by
    intro p found isThere
    by_cases same : p = place
    · subst same
      cases (Function.update_self ..).symm.trans isThere
      exact ⟨object, isAlive, rfl⟩
    · exact ⟨found, (Function.update_of_ne same ..).symm.trans isThere, rfl⟩
  constructor
  · intro p found isThere
    obtain ⟨old, wasThere, isId⟩ := at_cases p found isThere
    exact isId ▸ balanced.known p old wasThere
  · intro p q found found' isThere isThere' same
    obtain ⟨old, wasThere, isId⟩ := at_cases p found isThere
    obtain ⟨old', wasThere', isId'⟩ := at_cases q found' isThere'
    exact balanced.once p q old old' wasThere wasThere' (isId.trans (same.trans isId'.symm))
  · intro p found isThere
    obtain ⟨old, wasThere, isId⟩ := at_cases p found isThere
    exact isId ▸ balanced.alive p old wasThere
  · exact balanced.past
  · exact balanced.nodup
  · intro id bound
    rcases balanced.nobodyLost id bound with isDestroyed | ⟨p, found, isThere, isId⟩
    · exact .inl isDestroyed
    · by_cases same : p = place
      · subst same
        cases isThere.symm.trans isAlive
        exact .inr ⟨p, _, Function.update_self .., isId⟩
      · exact .inr ⟨p, found, (Function.update_of_ne same ..).trans isThere, isId⟩

omit [DecidableEq P] in
/-- Relocating every object to one place. -/
theorem relocate (balanced : objects.Balanced) {source : P → Option P}
    (injective : ∀ p q r, source p = some r → source q = some r → objects.objectAt r ≠ none → p = q)
    (covers : ∀ r, objects.objectAt r ≠ none → ∃ p, source p = some r) :
    (objects.relocate source).Balanced := by
  have at_cases : ∀ p object, (objects.relocate source).objectAt p = some object →
      ∃ r, source p = some r ∧ objects.objectAt r = some object :=
    fun p object isThere => Option.bind_eq_some_iff.mp isThere
  constructor
  · intro p object isThere
    obtain ⟨r, _, old⟩ := at_cases p object isThere
    exact balanced.known r object old
  · intro p q object object' isThere isThere' same
    obtain ⟨r, isSource, old⟩ := at_cases p object isThere
    obtain ⟨r', isSource', old'⟩ := at_cases q object' isThere'
    cases balanced.once r r' object object' old old' same
    exact injective p q r isSource isSource' (by rw [old]; exact Option.some_ne_none object)
  · intro p object isThere
    obtain ⟨r, _, old⟩ := at_cases p object isThere
    exact balanced.alive r object old
  · exact balanced.past
  · exact balanced.nodup
  · intro id bound
    rcases balanced.nobodyLost id bound with isDestroyed | ⟨r, object, isThere, isId⟩
    · exact .inl isDestroyed
    · obtain ⟨p, isSource⟩ := covers r (by rw [isThere]; exact Option.some_ne_none object)
      exact .inr ⟨p, object, Option.bind_eq_some_iff.mpr ⟨r, isSource, isThere⟩, isId⟩

end Balanced

/-! ## Stores and destructions in a row -/

/-- Stores of values to all places of a region. -/
structure Fills (region : P → Prop) (value : P → Option T) (before after : Objects P T) :
    Prop where
  inside : ∀ place, region place → after.valueAt place = value place
  outside : ∀ place, ¬ region place → after.objectAt place = before.objectAt place
  kept : ∀ id ∈ before.destroyed, id ∈ after.destroyed
  balanced : (∀ place, region place → before.objectAt place = none) →
    before.Balanced → after.Balanced

/-- The destruction of all objects in a region. -/
structure Clears (region : P → Prop) (before after : Objects P T) : Prop where
  inside : ∀ place, region place → after.objectAt place = none
  outside : ∀ place, ¬ region place → after.objectAt place = before.objectAt place
  kept : ∀ id ∈ before.destroyed, id ∈ after.destroyed
  ended : ∀ place object, region place → before.objectAt place = some object →
    object.id ∈ after.destroyed
  balanced : before.Balanced → after.Balanced

section Rows

variable {region next : P → Prop} {value : P → Option T} {before middle after : Objects P T}

theorem Fills.nothing (none : ∀ place, ¬ region place) : Fills region value before before where
  inside := fun place isInside => absurd isInside (none place)
  outside := fun _ _ => rfl
  kept := fun _ isDestroyed => isDestroyed
  balanced := fun _ balanced => balanced

theorem Fills.congr (fills : Fills region value before after)
    (same : ∀ place, region place ↔ next place) : Fills next value before after where
  inside := fun place isInside => fills.inside place ((same place).mpr isInside)
  outside := fun place isOutside =>
    fills.outside place fun isInside => isOutside ((same place).mp isInside)
  kept := fills.kept
  balanced := fun isRaw =>
    fills.balanced fun place isInside => isRaw place ((same place).mp isInside)

theorem Fills.congr_value {value' : P → Option T} (fills : Fills region value before after)
    (same : ∀ place, region place → value place = value' place) :
    Fills region value' before after where
  inside := fun place isInside => (fills.inside place isInside).trans (same place isInside)
  outside := fills.outside
  kept := fills.kept
  balanced := fills.balanced

/-- Stores to one region, then to another. -/
theorem Fills.trans (first : Fills region value before middle)
    (second : Fills next value middle after) (apart : ∀ place, next place → ¬ region place) :
    Fills (fun place => region place ∨ next place) value before after where
  inside := by
    rintro place (isFirst | isSecond)
    · have notSecond : ¬ next place := fun isSecond => apart place isSecond isFirst
      rw [valueAt_congr (second.outside place notSecond)]
      exact first.inside place isFirst
    · exact second.inside place isSecond
  outside := by
    intro place isOutside
    rw [not_or] at isOutside
    rw [second.outside place isOutside.2, first.outside place isOutside.1]
  kept := fun id isDestroyed => second.kept id (first.kept id isDestroyed)
  balanced := by
    intro isRaw balanced
    apply second.balanced
    · intro place isSecond
      rw [first.outside place (apart place isSecond)]
      exact isRaw place (.inr isSecond)
    · exact first.balanced (fun place isFirst => isRaw place (.inl isFirst)) balanced

theorem Clears.nothing (none : ∀ place, ¬ region place) : Clears region before before where
  inside := fun place isInside => absurd isInside (none place)
  outside := fun _ _ => rfl
  kept := fun _ isDestroyed => isDestroyed
  ended := fun place _ isInside => absurd isInside (none place)
  balanced := id

theorem Clears.congr (clears : Clears region before after)
    (same : ∀ place, region place ↔ next place) : Clears next before after where
  inside := fun place isInside => clears.inside place ((same place).mpr isInside)
  outside := fun place isOutside =>
    clears.outside place fun isInside => isOutside ((same place).mp isInside)
  kept := clears.kept
  ended := fun place object isInside => clears.ended place object ((same place).mpr isInside)
  balanced := clears.balanced

/-- Destructions in one region, then in another. -/
theorem Clears.trans (first : Clears region before middle) (second : Clears next middle after) :
    Clears (fun place => region place ∨ next place) before after where
  inside := by
    intro place isInside
    by_cases isSecond : next place
    · exact second.inside place isSecond
    · rw [second.outside place isSecond]
      exact first.inside place (isInside.resolve_right isSecond)
  outside := by
    intro place isOutside
    rw [not_or] at isOutside
    rw [second.outside place isOutside.2, first.outside place isOutside.1]
  kept := fun id isDestroyed => second.kept id (first.kept id isDestroyed)
  ended := by
    intro place object isInside isThere
    by_cases isFirst : region place
    · exact second.kept _ (first.ended place object isFirst isThere)
    · apply second.ended place object (isInside.resolve_left isFirst)
      rw [first.outside place isFirst]
      exact isThere
  balanced := fun balanced => second.balanced (first.balanced balanced)

variable [DecidableEq P] {objects : Objects P T} {place : P}

theorem Fills.construct (objects : Objects P T) (place : P) {item : T}
    (isValue : value place = some item) :
    Fills (· = place) value objects (objects.construct place item) where
  inside := by
    rintro _ rfl
    rw [valueAt, construct_objectAt, isValue]
    rfl
  outside := fun _ differ => construct_elsewhere differ
  kept := fun _ isDestroyed => isDestroyed
  balanced := fun isRaw balanced => balanced.construct (isRaw place rfl) item

theorem Fills.assign {item : T} (assigned : objects.assign place item = some after)
    (isValue : value place = some item) : Fills (· = place) value objects after where
  inside := by
    obtain ⟨object, _, rfl⟩ := Option.map_eq_some_iff.mp assigned
    rintro _ rfl
    rw [isValue, valueAt]
    simp only [Function.update_self, Option.map_some]
  outside := by
    obtain ⟨object, _, rfl⟩ := Option.map_eq_some_iff.mp assigned
    exact fun _ differ => Function.update_of_ne differ ..
  kept := by
    obtain ⟨object, _, rfl⟩ := Option.map_eq_some_iff.mp assigned
    exact fun _ isDestroyed => isDestroyed
  balanced := fun _ balanced => balanced.assign assigned

theorem Clears.destroy (destroyed : objects.destroy place = some after) :
    Clears (· = place) objects after where
  inside := by
    obtain ⟨object, _, rfl⟩ := Option.map_eq_some_iff.mp destroyed
    rintro _ rfl
    exact Function.update_self ..
  outside := by
    obtain ⟨object, _, rfl⟩ := Option.map_eq_some_iff.mp destroyed
    exact fun _ differ => Function.update_of_ne differ ..
  kept := by
    obtain ⟨object, _, rfl⟩ := Option.map_eq_some_iff.mp destroyed
    exact fun _ isDestroyed => List.mem_append_left _ isDestroyed
  ended := by
    obtain ⟨object, isThere, rfl⟩ := Option.map_eq_some_iff.mp destroyed
    rintro _ found rfl isFound
    cases isThere.symm.trans isFound
    exact List.mem_append_right _ (List.mem_singleton_self _)
  balanced := fun balanced => balanced.destroy destroyed

end Rows

end Objects

end Lib
