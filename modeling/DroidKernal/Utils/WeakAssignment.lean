import DroidKernal.Utils.Handles
import DroidKernal.Utils.Uninterrupted
import Mathlib.Algebra.BigOperators.Pi
import Mathlib.Algebra.Group.Prod

/-!
# Assignment of weak pointers

Every member function that counts keeps `mWeak` at the number of handles, and the objects are
released with their last handles.  The assignment of `wp` counts nothing, so that it keeps
`mWeak` right exactly where both pointers are the same.
-/

namespace DroidKernal.Utils

open Lib

/-! ## One object -/

/-- An object with so many strong and weak handles, at most `INITIAL_STRONG_VALUE` strong ones. -/
structure Held (lifetime : Lifetime) (refs : RefBase) (handles : Nat × Nat) : Prop where
  settled : Settled lifetime refs handles.1 (handles.1 + handles.2)
  few : handles.1 ≤ 2 ^ 28
  small : handles.1 + handles.2 < 2 ^ 31

/-- There may be one more handle. -/
def WeakRoom (handles : Nat × Nat) : Prop :=
  handles.1 + handles.2 + 1 < 2 ^ 31

/-- There may be one more strong handle. -/
def StrongRoom (handles : Nat × Nat) : Prop :=
  handles.1 < 2 ^ 28 ∧ WeakRoom handles

instance : DecidablePred WeakRoom := fun handles =>
  inferInstanceAs (Decidable (handles.1 + handles.2 + 1 < 2 ^ 31))

instance : DecidablePred StrongRoom := fun handles =>
  inferInstanceAs (Decidable (handles.1 < 2 ^ 28 ∧ WeakRoom handles))

namespace Held

variable {lifetime : Lifetime} {refs : RefBase} {handles : Nat × Nat}

theorem init : Held lifetime .init 0 where
  settled := Settled.init
  few := Nat.zero_le _
  small := Nat.two_pow_pos 31

theorem present (held : Held lifetime refs handles) (some : 0 < handles.1) :
    refs.destroyed = 0 := by
  have present := held.settled.core.present some (Nat.add_pos_left some _)
  exact Nat.eq_zero_of_add_eq_zero_right present

theorem mStrong_eq_zero (held : Held lifetime refs handles) :
    refs.mStrong = 0 ↔ handles.1 = 0 ∧ refs.strongTaken = true := by
  have core := held.settled.core
  have strong := core.strong
  cases isTaken : refs.strongTaken with
  | true =>
      simp [isTaken] at strong
      simp [strong]
  | false =>
      have nothing := core.untaken isTaken
      simp [isTaken, nothing, initialStrongValue] at strong
      simp [strong]

/-- One more strong handle is one more handle. -/
theorem addStrong (settled : Settled lifetime refs (handles.1 + 1) (handles.1 + handles.2 + 1))
    (room : StrongRoom handles) : Held lifetime refs (handles + (1, 0)) := by
  obtain ⟨s, w⟩ := handles
  obtain ⟨few, small⟩ := room
  rw [WeakRoom] at small
  rw [Nat.add_right_comm] at settled small
  exact ⟨settled, few, small⟩

theorem incStrong (held : Held lifetime refs handles) (present : refs.destroyed = 0)
    (room : StrongRoom handles) :
    Held lifetime (refs.incStrong lifetime) (handles + (1, 0)) :=
  addStrong (held.settled.incStrong present room.1 room.2) room

theorem decStrong (held : Held lifetime refs (handles + (1, 0))) :
    Held lifetime (refs.decStrong lifetime) handles := by
  obtain ⟨s, w⟩ := handles
  obtain ⟨settled, few, small⟩ := held
  simp only [Prod.mk_add_mk, Nat.add_zero] at settled few small
  rw [Nat.add_right_comm] at settled
  have after := settled.decStrong few (by omega)
  exact ⟨after, by omega, by omega⟩

theorem creatWeak (held : Held lifetime refs handles) (present : refs.destroyed = 0)
    (room : WeakRoom handles) :
    Held lifetime (refs.creatWeak lifetime) (handles + (0, 1)) := by
  obtain ⟨s, w⟩ := handles
  exact ⟨held.settled.creatWeak present room, held.few, room⟩

theorem incWeak (held : Held lifetime refs handles) (some : 0 < handles.1 + handles.2)
    (room : WeakRoom handles) : Held lifetime (refs.incWeak lifetime) (handles + (0, 1)) := by
  obtain ⟨s, w⟩ := handles
  exact ⟨held.settled.incWeak some room, held.few, room⟩

theorem decWeak (held : Held lifetime refs (handles + (0, 1))) :
    Held lifetime (refs.decWeak lifetime) handles := by
  obtain ⟨s, w⟩ := handles
  obtain ⟨settled, few, small⟩ := held
  simp only [Prod.mk_add_mk, Nat.add_zero] at settled few small
  have after := settled.decWeak (Nat.le_add_right s w) small
  exact ⟨after, few, by omega⟩

theorem attemptIncStrong (held : Held lifetime refs handles)
    (some : 0 < handles.1 + handles.2) (room : StrongRoom handles) (allows : Bool) :
    Held lifetime (refs.attemptIncStrong lifetime allows).1
      (handles + if (refs.attemptIncStrong lifetime allows).2 then (1, 0) else 0) := by
  obtain ⟨strong, most, attempted, after⟩ :=
    held.settled.attemptIncStrong some room.1 room.2 allows
  rw [attempted]
  obtain rfl | rfl : strong = 0 ∨ strong = 1 := by omega
  · exact ⟨after, held.few, held.small⟩
  · exact addStrong after room

end Held

/-! ## All objects -/

/-- Every object has so many handles. -/
def AllHeld {ω : Type*} (lifetime : ω → Lifetime) (objects : ω → RefBase)
    (handles : ω → Nat × Nat) : Prop :=
  ∀ object, Held (lifetime object) (objects object) (handles object)

/-- `m_refs` is that of the object that a `wp` points to. -/
def Handle.Sane {ω : Type*} : Handle ω → Prop
  | .wp (some object) mRefs => mRefs = some object
  | _ => True

namespace Handle

variable {ω : Type*}

theorem sane_dead : (dead : Handle ω).Sane :=
  trivial

theorem sane_sp (mPtr : Option ω) : (sp mPtr).Sane :=
  trivial

theorem sane_wp (mPtr : Option ω) : (wp mPtr mPtr).Sane := by
  cases mPtr with
  | none => trivial
  | some object => rfl

variable [DecidableEq ω]

theorem count_sp_self (object : ω) : (sp (some object)).count object = (1, 0) :=
  if_pos rfl

theorem count_wp (mPtr mRefs : Option ω) (object : ω) :
    (wp mPtr mRefs).count object = (0, if mPtr = some object then 1 else 0) := by
  rw [count]
  split <;> rfl

theorem count_wp_self (object : ω) (mRefs : Option ω) :
    (wp (some object) mRefs).count object = (0, 1) :=
  if_pos rfl

end Handle

namespace AllHeld

variable {ω : Type*} [DecidableEq ω] {lifetime : ω → Lifetime} {objects : ω → RefBase}
  {handles : ω → Nat × Nat} {mPtr mRefs : Option ω}

/-- An operation on what `m_ptr` points to, if it does. -/
theorem onPointee {operation : Lifetime → RefBase → RefBase} {after : ω → Nat × Nat}
    (held : ∀ object, mPtr ≠ some object →
      Held (lifetime object) (objects object) (after object))
    (there : ∀ object, mPtr = some object →
      Held (lifetime object) (operation (lifetime object) (objects object)) (after object)) :
    AllHeld lifetime (onPointee lifetime operation mPtr objects) after := by
  intro object
  cases mPtr with
  | none => exact held object nofun
  | some pointee =>
      by_cases same : object = pointee
      · subst same
        simpa [Utils.onPointee] using there object rfl
      · simpa [Utils.onPointee, same] using held object (by simpa [eq_comm] using same)

/-- The object has one handle more. -/
theorem gain {operation : Lifetime → RefBase → RefBase} {one : Nat × Nat}
    (held : AllHeld lifetime objects handles)
    (there : ∀ object, mPtr = some object →
      Held (lifetime object) (operation (lifetime object) (objects object))
        (handles object + one)) :
    AllHeld lifetime (Utils.onPointee lifetime operation mPtr objects)
      (handles + fun object => if mPtr = some object then one else 0) := by
  apply onPointee
  · intro object other
    rw [Pi.add_apply, if_neg other, add_zero]
    exact held object
  · intro object same
    rw [Pi.add_apply, if_pos same]
    exact there object same

/-- The object has one handle less. -/
theorem lose {operation : Lifetime → RefBase → RefBase} {one : Nat × Nat}
    (held : AllHeld lifetime objects
      (handles + fun object => if mPtr = some object then one else 0))
    (there : ∀ object, Held (lifetime object) (objects object) (handles object + one) →
      Held (lifetime object) (operation (lifetime object) (objects object)) (handles object)) :
    AllHeld lifetime (Utils.onPointee lifetime operation mPtr objects) handles := by
  apply onPointee
  · intro object other
    have same := held object
    rwa [Pi.add_apply, if_neg other, add_zero] at same
  · intro object same
    have before := held object
    rw [Pi.add_apply, if_pos same] at before
    exact there object before

theorem incStrong (held : AllHeld lifetime objects handles)
    (present : ∀ object, mPtr = some object → (objects object).destroyed = 0)
    (room : ∀ object, mPtr = some object → StrongRoom (handles object)) :
    AllHeld lifetime (Utils.onPointee lifetime RefBase.incStrong mPtr objects)
      (handles + (Handle.sp mPtr).count) :=
  held.gain fun object same => (held object).incStrong (present object same) (room object same)

theorem decStrong (held : AllHeld lifetime objects (handles + (Handle.sp mPtr).count)) :
    AllHeld lifetime (Utils.onPointee lifetime RefBase.decStrong mPtr objects) handles :=
  held.lose fun _ before => before.decStrong

theorem creatWeak (held : AllHeld lifetime objects handles)
    (present : ∀ object, mPtr = some object → (objects object).destroyed = 0)
    (room : ∀ object, mPtr = some object → WeakRoom (handles object)) :
    AllHeld lifetime (Utils.onPointee lifetime RefBase.creatWeak mPtr objects)
      (handles + (Handle.wp mPtr mRefs).count) :=
  held.gain fun object same => (held object).creatWeak (present object same) (room object same)

theorem incWeak (held : AllHeld lifetime objects handles)
    (counted : ∀ object, mPtr = some object → 0 < (handles object).1 + (handles object).2)
    (room : ∀ object, mPtr = some object → WeakRoom (handles object)) :
    AllHeld lifetime (Utils.onPointee lifetime RefBase.incWeak mPtr objects)
      (handles + (Handle.wp mPtr mRefs).count) :=
  held.gain fun object same => (held object).incWeak (counted object same) (room object same)

theorem decWeak (held : AllHeld lifetime objects (handles + (Handle.wp mPtr mRefs).count)) :
    AllHeld lifetime (Utils.onPointee lifetime RefBase.decWeak mPtr objects) handles :=
  held.lose fun _ before => before.decWeak

theorem onRefs_eq (sane : (Handle.wp mPtr mRefs).Sane)
    (operation : Lifetime → RefBase → RefBase) :
    onRefs lifetime operation mPtr mRefs objects =
      some (Utils.onPointee lifetime operation mPtr objects) := by
  cases mPtr with
  | none => rfl
  | some object =>
      cases (sane : mRefs = some object)
      rfl

theorem attempt (held : AllHeld lifetime objects handles) (sane : (Handle.wp mPtr mRefs).Sane)
    (counted : ∀ object, mPtr = some object → 0 < (handles object).1 + (handles object).2)
    (room : ∀ object, mPtr = some object → StrongRoom (handles object)) (allows : Bool) :
    ∃ after attempted, attemptOnRefs lifetime allows mPtr mRefs objects = some (after, attempted) ∧
      AllHeld lifetime after
        (handles + (Handle.sp (if attempted then mPtr else none)).count) := by
  cases mPtr with
  | none =>
      have nothing : (Handle.sp (none : Option ω)).count = 0 := rfl
      refine ⟨objects, false, rfl, ?_⟩
      rwa [ite_self, nothing, add_zero]
  | some pointee =>
      cases (sane : mRefs = some pointee)
      have attempted :=
        (held pointee).attemptIncStrong (counted pointee rfl) (room pointee rfl) allows
      refine ⟨Function.update objects pointee
        ((objects pointee).attemptIncStrong (lifetime pointee) allows).1,
        ((objects pointee).attemptIncStrong (lifetime pointee) allows).2, rfl, ?_⟩
      intro object
      rw [Pi.add_apply]
      by_cases same : object = pointee
      · subst same
        rw [Function.update_self]
        split
        next succeeds => rwa [if_pos succeeds, ← Handle.count_sp_self object] at attempted
        next fails => rwa [if_neg fails] at attempted
      · have nothing : (Handle.sp (if ((objects pointee).attemptIncStrong (lifetime pointee)
            allows).2 then some pointee else none)).count object = 0 := by
          split <;> simp [Handle.count, Ne.symm same]
        rw [Function.update_of_ne same, nothing, add_zero]
        exact held object

end AllHeld

/-! ## All handles -/

section States

variable {ι ω : Type*} [Fintype ι] [DecidableEq ω] {lifetime : ω → Lifetime}
  {state next : HandleState ι ω}

/-- There is room for the handle that a pointer is copied to. -/
def HandleState.RoomFor (state : HandleState ι ω) (room : Nat × Nat → Prop) (mPtr : Option ω) :
    Prop :=
  ∀ object, mPtr = some object → room (state.strongs object, state.weaks object)

/-- The pointer of a handle. -/
def Handle.mPtr : Handle ω → Option ω
  | .dead => none
  | .sp mPtr | .wp mPtr _ => mPtr

/-- The condition: both pointers of an assignment of `wp` are the same, and there is room for
the handles that are added. -/
def HandleState.Meets (state : HandleState ι ω) : HandleOp ι ω → Prop
  | .spNew _ other | .spAssignPtr _ other => state.RoomFor StrongRoom other
  | .spCopy _ j | .spAssign _ j | .promote _ j _ =>
      state.RoomFor StrongRoom (state.threads j).mPtr
  | .wpNew _ other => state.RoomFor WeakRoom other
  | .wpCopy _ j | .wpFromSp _ j => state.RoomFor WeakRoom (state.threads j).mPtr
  | .wpAssign i j => (state.threads i).mPtr = (state.threads j).mPtr
  | .spClear _ | .destroy _ => True

/-- A step that meets the condition. -/
def HandleState.MeetingStep [DecidableEq ι] (lifetime : ω → Lifetime) (state : HandleState ι ω)
    (op : HandleOp ι ω) (next : HandleState ι ω) : Prop :=
  state.Steps lifetime op next ∧ state.Meets op

/-- The invariant. -/
abbrev HandleState.Sound (lifetime : ω → Lifetime) (state : HandleState ι ω) : Prop :=
  Threads.Balanced Handle.count Handle.Sane (AllHeld lifetime) state

theorem tally_count (state : HandleState ι ω) (object : ω) :
    Threads.tally Handle.count state.threads object =
      (state.strongs object, state.weaks object) := by
  rw [Threads.tally, Finset.sum_apply]
  exact Prod.ext Prod.fst_sum Prod.snd_sum

namespace HandleState

theorem sound_init : Sound lifetime (init : HandleState ι ω) where
  each := fun _ => trivial
  lawful := by
    have nothing : Threads.tally Handle.count (init : HandleState ι ω).threads = 0 :=
      Finset.sum_eq_zero fun _ _ => rfl
    rw [nothing]
    exact fun _ => Held.init

namespace Sound

theorem held (sound : Sound lifetime state) (object : ω) :
    Held (lifetime object) (state.shared object) (state.strongs object, state.weaks object) := by
  rw [← tally_count]
  exact sound.lawful object

theorem sane (sound : Sound lifetime state) {i : ι} {mPtr mRefs : Option ω}
    (isWp : state.threads i = .wp mPtr mRefs) : (Handle.wp mPtr mRefs).Sane :=
  isWp ▸ sound.each i

theorem room {room : Nat × Nat → Prop} {mPtr : Option ω} (meets : state.RoomFor room mPtr)
    (object : ω) (same : mPtr = some object) :
    room (Threads.tally Handle.count state.threads object) := by
  rw [tally_count]
  exact meets object same

theorem copied {room : Nat × Nat → Prop} {i : ι} {handle : Handle ω}
    (isHandle : state.threads i = handle)
    (meets : state.RoomFor room (state.threads i).mPtr) : state.RoomFor room handle.mPtr :=
  isHandle ▸ meets

omit [Fintype ι] [DecidableEq ω] in
theorem usable {other : Option ω} (isUsable : state.usable other = true) (object : ω)
    (same : other = some object) : (state.shared object).destroyed = 0 := by
  subst same
  exact of_decide_eq_true isUsable

variable [DecidableEq ι]

/-- What a strong handle points to is there. -/
theorem present (sound : Sound lifetime state) {i : ι} {mPtr : Option ω}
    (isSp : state.threads i = .sp mPtr) (object : ω) (same : mPtr = some object) :
    (state.shared object).destroyed = 0 := by
  apply (sound.lawful object).present
  rw [Threads.tally_eq i, isSp, same, Pi.add_apply, Handle.count_sp_self]
  exact Nat.succ_pos _

/-- What a weak handle points to has a handle. -/
theorem counted {i : ι} {mPtr mRefs : Option ω}
    (isWp : state.threads i = .wp mPtr mRefs) (object : ω) (same : mPtr = some object) :
    0 < (Threads.tally Handle.count state.threads object).1 +
      (Threads.tally Handle.count state.threads object).2 := by
  rw [Threads.tally_eq i, isWp, same, Pi.add_apply, Handle.count_wp_self]
  exact Nat.succ_pos _

/-- The rule for a constructor. -/
theorem construct (sound : Sound lifetime state) {i : ι} (dead : state.threads i = .dead)
    {handle : Handle ω} (sane : handle.Sane) {objects : ω → RefBase}
    (held : AllHeld lifetime objects
      (Threads.tally Handle.count state.threads + handle.count)) :
    Sound lifetime (state.put i handle objects) := by
  apply sound.move
  intro _
  have nothing : (Handle.dead : Handle ω).count = 0 := rfl
  rw [Threads.tally_eq i, dead, nothing, add_zero] at held
  exact ⟨sane, held⟩

/-- The rule for an assignment to an `sp`. -/
theorem assign (sound : Sound lifetime state) {i : ι} {oldPtr other : Option ω}
    (isSp : state.threads i = .sp oldPtr) (meets : state.RoomFor StrongRoom other)
    (present : ∀ object, other = some object → (state.shared object).destroyed = 0) :
    Sound lifetime
      (state.put i (.sp other)
        (onPointee lifetime RefBase.decStrong oldPtr
          (onPointee lifetime RefBase.incStrong other state.shared))) := by
  apply sound.move
  intro _
  have taken := AllHeld.incStrong sound.lawful present (room meets)
  rw [Threads.tally_eq i, isSp, add_right_comm] at taken
  exact ⟨trivial, taken.decStrong⟩

/-- The rule for what a handle leaves behind. -/
theorem drop (sound : Sound lifetime state) {i : ι} {handle : Handle ω} (sane : handle.Sane)
    (nothing : handle.count = 0) {objects : ω → RefBase}
    (drops : AllHeld lifetime state.shared
        (Threads.others Handle.count state.threads i + (state.threads i).count) →
      AllHeld lifetime objects (Threads.others Handle.count state.threads i)) :
    Sound lifetime (state.put i handle objects) := by
  apply sound.move
  intro lawful
  refine ⟨sane, ?_⟩
  rw [nothing, add_zero]
  exact drops lawful

/-- Every step that meets the condition keeps the invariant. -/
theorem step (sound : Sound lifetime state) {op : HandleOp ι ω}
    (steps : state.Steps lifetime op next) (meets : state.Meets op) : Sound lifetime next := by
  cases op with
  | spNew i other =>
      simp only [Steps, HandleState.step] at steps
      split at steps
      next dead isUsable =>
        cases steps
        exact sound.construct dead (Handle.sane_sp _)
          (AllHeld.incStrong sound.lawful (usable isUsable) (room meets))
      next => cases steps
  | spCopy i j =>
      simp only [Steps, HandleState.step] at steps
      split at steps
      next dead isSp =>
        cases steps
        exact sound.construct dead (Handle.sane_sp _)
          (AllHeld.incStrong sound.lawful (sound.present isSp) (room (copied isSp meets)))
      next => cases steps
  | spAssignPtr i other =>
      simp only [Steps, HandleState.step] at steps
      split at steps
      next isSp isUsable =>
        cases steps
        exact sound.assign isSp meets (usable isUsable)
      next => cases steps
  | spAssign i j =>
      simp only [Steps, HandleState.step] at steps
      split at steps
      next isSp isOther =>
        cases steps
        exact sound.assign isSp (copied isOther meets) (sound.present isOther)
      next => cases steps
  | spClear i =>
      simp only [Steps, HandleState.step] at steps
      split at steps
      next isSp =>
        cases steps
        refine sound.drop (Handle.sane_sp none) rfl fun lawful => ?_
        rw [isSp] at lawful
        exact lawful.decStrong
      next => cases steps
  | wpNew i other =>
      simp only [Steps, HandleState.step] at steps
      split at steps
      next dead isUsable =>
        cases steps
        exact sound.construct dead (Handle.sane_wp other)
          (AllHeld.creatWeak sound.lawful (usable isUsable) (room meets))
      next => cases steps
  | wpCopy i j =>
      simp only [Steps, HandleState.step] at steps
      split at steps
      next dead isWp =>
        have sane := sound.sane isWp
        rw [AllHeld.onRefs_eq sane] at steps
        cases steps
        exact sound.construct dead sane
          (AllHeld.incWeak sound.lawful (counted isWp) (room (copied isWp meets)))
      next => cases steps
  | wpFromSp i j =>
      simp only [Steps, HandleState.step] at steps
      split at steps
      next dead isSp =>
        cases steps
        exact sound.construct dead (Handle.sane_wp _)
          (AllHeld.creatWeak sound.lawful (sound.present isSp) (room (copied isSp meets)))
      next => cases steps
  | wpAssign i j =>
      simp only [Steps, HandleState.step] at steps
      split at steps
      next isWp isOther =>
        cases steps
        apply sound.move
        intro lawful
        simp only [Meets, isWp, isOther, Handle.mPtr] at meets
        subst meets
        rw [isWp] at lawful
        exact ⟨sound.sane isOther, lawful⟩
      next => cases steps
  | promote i j allows =>
      simp only [Steps, HandleState.step] at steps
      split at steps
      next dead isWp =>
        obtain ⟨objects, attempted, attempts, held⟩ := AllHeld.attempt sound.lawful
          (sound.sane isWp) (counted isWp) (room (copied isWp meets)) allows
        rw [attempts] at steps
        cases steps
        exact sound.construct dead (Handle.sane_sp _) held
      next => cases steps
  | destroy i =>
      simp only [Steps, HandleState.step] at steps
      split at steps
      next => cases steps
      next isSp =>
        cases steps
        refine sound.drop Handle.sane_dead rfl fun lawful => ?_
        rw [isSp] at lawful
        exact lawful.decStrong
      next isWp =>
        rw [AllHeld.onRefs_eq (sound.sane isWp)] at steps
        cases steps
        refine sound.drop Handle.sane_dead rfl fun lawful => ?_
        rw [isWp] at lawful
        exact lawful.decWeak

end Sound

end HandleState

/-! ## The assignment -/

/-- `mWeak` of each object is the number of its handles. -/
def HandleState.CountsRight (state : HandleState ι ω) : Prop :=
  ∀ object, (state.shared object).mWeak = state.strongs object + state.weaks object

/-- An object or a `weakref_impl` is released once, not while a handle remains that keeps it,
and not used after that. -/
structure HandleState.Safe (lifetime : ω → Lifetime) (state : HandleState ι ω) : Prop where
  object : ∀ object, 0 < state.strongs object ∨ lifetime object = .weak ∧ 0 < state.weaks object →
    (state.shared object).destroyed = 0
  impl : ∀ object, 0 < state.strongs object + state.weaks object →
    (state.shared object).freed = 0
  once : ∀ object, (state.shared object).destroyed ≤ 1 ∧ (state.shared object).freed ≤ 1
  unused : ∀ object,
    (state.shared object).strayObject = false ∧ (state.shared object).strayImpl = false

/-- Handles are destroyed in an order: the states on the way. -/
def HandleState.destroyAll [DecidableEq ι] (lifetime : ω → Lifetime) :
    HandleState ι ω → List ι → Option (List (HandleState ι ω))
  | _, [] => some []
  | state, i :: order => do
      let next ← state.step lifetime (.destroy i)
      let later ← destroyAll lifetime next order
      some (next :: later)

/-- How often a count drops to zero on the way. -/
def falls {σ : Type*} (count : σ → Int) : σ → List σ → Nat
  | _, [] => 0
  | state, next :: later =>
      (if count state ≠ 0 ∧ count next = 0 then 1 else 0) + falls count next later

/-- The counts of each object that has handles drop to zero once, and nothing is released too
early. -/
structure HandleState.Unwinds (lifetime : ω → Lifetime) (state : HandleState ι ω)
    (path : List (HandleState ι ω)) : Prop where
  passed : ∀ passed ∈ path, passed.CountsRight ∧ passed.Safe lifetime
  mWeak : ∀ object, falls (fun passed => (passed.shared object).mWeak) state path =
    if 0 < state.strongs object + state.weaks object then 1 else 0
  mStrong : ∀ object, falls (fun passed => (passed.shared object).mStrong) state path =
    if 0 < state.strongs object then 1 else 0
  nothing : ∀ object, ((path.getLastD state).shared object).mWeak = 0

namespace HandleState.Sound

theorem countsRight (sound : Sound lifetime state) : state.CountsRight := by
  intro object
  rw [(sound.held object).settled.core.weak, Int.natCast_add]

theorem safe (sound : Sound lifetime state) : state.Safe lifetime where
  object := by
    rintro object (held | ⟨isWeak, held⟩)
    · exact (sound.held object).present held
    · have core := (sound.held object).settled.core
      have present := core.undestroyed (Nat.add_pos_right _ held) isWeak
      exact Nat.eq_zero_of_add_eq_zero_right present
  impl := fun object held =>
    Nat.eq_zero_of_add_eq_zero_right ((sound.held object).settled.core.unfreed held)
  once := fun object =>
    have core := (sound.held object).settled.core
    ⟨core.destroyed_le, Nat.le_of_add_right_le core.impl.1⟩
  unused := fun object => (sound.held object).settled.core.clean

variable [DecidableEq ι]

/-- A handle can be destroyed. -/
theorem destroys (sound : Sound lifetime state) {i : ι} (alive : state.threads i ≠ .dead) :
    ∃ objects, state.step lifetime (.destroy i) = some (state.put i .dead objects) ∧
      ∀ object, (objects object).strongTaken = (state.shared object).strongTaken := by
  have taken {operation : Lifetime → RefBase → RefBase} (mPtr : Option ω)
      (same : ∀ lifetime refs, (operation lifetime refs).strongTaken = refs.strongTaken)
      (object : ω) :
      (onPointee lifetime operation mPtr state.shared object).strongTaken =
        (state.shared object).strongTaken := by
    cases mPtr with
    | none => rfl
    | some pointee =>
        by_cases isPointee : object = pointee
        · subst isPointee
          simp [onPointee, same]
        · simp [onPointee, isPointee]
  cases isHandle : state.threads i with
  | dead => exact absurd isHandle alive
  | sp mPtr =>
      refine ⟨_, ?_, taken mPtr decStrong_taken⟩
      simp only [HandleState.step, isHandle]
  | wp mPtr mRefs =>
      refine ⟨_, ?_, taken mPtr decWeak_taken⟩
      simp only [HandleState.step, isHandle, AllHeld.onRefs_eq (sound.sane isHandle),
        Option.map_some]

/-- The handles that a destroyed one leaves. -/
theorem put_dead (state : HandleState ι ω) (i : ι) (objects : ω → RefBase) (object : ω) :
    (state.put i .dead objects).strongs object ≤ state.strongs object ∧
      (state.put i .dead objects).weaks object ≤ state.weaks object := by
  have after := tally_count (state.put i .dead objects) object
  have before := tally_count state object
  have nothing : (Handle.dead : Handle ω).count = 0 := rfl
  rw [HandleState.put, Threads.tally_update, nothing, add_zero] at after
  rw [Threads.tally_eq i, Pi.add_apply, after] at before
  have strongs := congrArg Prod.fst before
  have weaks := congrArg Prod.snd before
  simp only [Prod.fst_add, Prod.snd_add] at strongs weaks
  exact ⟨Nat.le.intro strongs, Nat.le.intro weaks⟩

omit [Fintype ι] [DecidableEq ω] [DecidableEq ι] in
/-- A count that does not rise drops to zero once. -/
theorem falls_cons {σ : Type*} {count : σ → Int} {before after : σ} {later : List σ} {n m : Nat}
    (fewer : m ≤ n) (drops : count before ≠ 0 ∧ count after = 0 ↔ 0 < n ∧ m = 0)
    (rest : falls count after later = if 0 < m then 1 else 0) :
    falls count before (after :: later) = if 0 < n then 1 else 0 := by
  rw [falls, rest]
  simp only [drops]
  split_ifs <;> omega

/-- Whatever the order in which the handles are destroyed. -/
theorem unwinds (sound : Sound lifetime state) {order : List ι} (once : order.Nodup)
    (live : ∀ i, i ∈ order ↔ state.threads i ≠ .dead) :
    ∃ path, state.destroyAll lifetime order = some path ∧ state.Unwinds lifetime path := by
  induction order generalizing state with
  | nil =>
      have dead (i : ι) : state.threads i = .dead := by
        simpa using live i
      have strongs (object : ω) : state.strongs object = 0 :=
        Finset.sum_eq_zero fun i _ => by rw [dead i]; rfl
      have weaks (object : ω) : state.weaks object = 0 :=
        Finset.sum_eq_zero fun i _ => by rw [dead i]; rfl
      refine ⟨[], rfl, ⟨nofun, ?_, ?_, ?_⟩⟩
      · intro object
        rw [strongs, weaks]
        rfl
      · intro object
        rw [strongs]
        rfl
      · intro object
        have right := sound.countsRight object
        rwa [strongs, weaks] at right
  | cons i order ih =>
      obtain ⟨notLater, once⟩ := List.nodup_cons.mp once
      have alive := (live i).mp List.mem_cons_self
      obtain ⟨objects, destroyed, taken⟩ := sound.destroys alive
      have after := sound.step destroyed trivial
      have liveAfter (j : ι) :
          j ∈ order ↔ (state.put i .dead objects).threads j ≠ .dead := by
        by_cases same : j = i
        · subst same
          simpa [put] using notLater
        · have others := live j
          simpa [put, same] using others
      obtain ⟨path, continues, unwinds⟩ := ih after once liveAfter
      refine ⟨state.put i .dead objects :: path, ?_, ?_, ?_, ?_, ?_⟩
      · simp [destroyAll, destroyed, continues]
      · intro passed isPassed
        rcases List.mem_cons.mp isPassed with rfl | later
        · exact ⟨after.countsRight, after.safe⟩
        · exact unwinds.passed passed later
      · intro object
        obtain ⟨strongs, weaks⟩ := put_dead state i objects object
        refine falls_cons (Nat.add_le_add strongs weaks) ?_ (unwinds.mWeak object)
        have before := sound.countsRight object
        have right := after.countsRight object
        omega
      · intro object
        obtain ⟨strongs, _⟩ := put_dead state i objects object
        refine falls_cons strongs ?_ (unwinds.mStrong object)
        rw [ne_eq, (sound.held object).mStrong_eq_zero, (after.held object).mStrong_eq_zero]
        rw [show (state.put i .dead objects).shared = objects from rfl, taken object]
        have started := (sound.held object).settled.core.started
        constructor
        · rintro ⟨some, none, isTaken⟩
          exact ⟨Nat.pos_of_ne_zero fun zero => some ⟨zero, isTaken⟩, none⟩
        · rintro ⟨some, none⟩
          exact ⟨fun both => Nat.ne_of_gt some both.1, none, started some⟩
      · intro object
        rw [List.getLastD_cons]
        exact unwinds.nothing object

end HandleState.Sound

variable [DecidableEq ι]

/-- The handles after the assignment of a `wp`. -/
theorem wpAssign_counts {i j : ι} (steps : state.Steps lifetime (.wpAssign i j) next)
    (object : ω) :
    (next.shared object).mWeak = (state.shared object).mWeak ∧
      next.strongs object + next.weaks object +
          (if (state.threads i).mPtr = some object then 1 else 0) =
        state.strongs object + state.weaks object +
          (if (state.threads j).mPtr = some object then 1 else 0) := by
  simp only [HandleState.Steps, HandleState.step] at steps
  split at steps
  next oldPtr oldRefs mPtr mRefs isWp isOther =>
    cases steps
    have before := tally_count state object
    have after := tally_count (state.put i (.wp mPtr mRefs) state.shared) object
    rw [Threads.tally_eq i, isWp, Pi.add_apply, Handle.count_wp, Prod.ext_iff] at before
    rw [HandleState.put, Threads.tally_update, Pi.add_apply, Handle.count_wp,
      Prod.ext_iff] at after
    simp only [Prod.fst_add, Prod.snd_add] at before after
    obtain ⟨strongs, weaks⟩ := before
    obtain ⟨strongs', weaks'⟩ := after
    refine ⟨rfl, ?_⟩
    simp only [isWp, isOther, Handle.mPtr, HandleState.put]
    omega
  next => cases steps

/-- The assignment keeps the counts right exactly where both pointers are the same. -/
theorem wpAssign_countsRight {i j : ι} (right : state.CountsRight)
    (steps : state.Steps lifetime (.wpAssign i j) next) :
    next.CountsRight ↔ (state.threads i).mPtr = (state.threads j).mPtr := by
  constructor
  · intro right'
    apply Option.ext
    intro object
    obtain ⟨same, counts⟩ := wpAssign_counts steps object
    have before := right object
    have after := right' object
    split_ifs at counts with isOld isNew <;> simp_all <;> omega
  · intro same object
    obtain ⟨unchanged, counts⟩ := wpAssign_counts steps object
    have before := right object
    rw [same] at counts
    omega

/-- The assignment of one `wp` to another keeps `mWeak` right exactly where both pointers are
the same.  In every run where they are, and where no object has more than `INITIAL_STRONG_VALUE`
strong handles or more handles than fit into `int32_t`, the counts are right, and they drop to
zero once when all handles are destroyed; nothing is released while a handle remains that keeps
it. -/
theorem wp_assignment :
    (∀ (state next : HandleState ι ω) (i j : ι), state.CountsRight →
      state.Steps lifetime (.wpAssign i j) next →
        (next.CountsRight ↔ (state.threads i).mPtr = (state.threads j).mPtr)) ∧
      ∀ (ops : List (HandleOp ι ω)) (state : HandleState ι ω),
        Run (HandleState.MeetingStep lifetime) .init ops state →
          state.CountsRight ∧ state.Safe lifetime ∧
            ∀ order : List ι, order.Nodup → (∀ i, i ∈ order ↔ state.threads i ≠ .dead) →
              ∃ path, state.destroyAll lifetime order = some path ∧
                state.Unwinds lifetime path := by
  constructor
  · intro state next i j right steps
    exact wpAssign_countsRight right steps
  · intro ops state run
    have sound : state.Sound lifetime :=
      run.invariant (HandleState.Sound lifetime) HandleState.sound_init fun sound steps =>
        sound.step steps.1 steps.2
    exact ⟨sound.countsRight, sound.safe, fun _ once live => sound.unwinds once live⟩

end States

section Examples

open HandleOp

/-- A `wp` that is assigned to itself. -/
theorem wp_assignment_self :
    ∃ state next : HandleState (Fin 2) Unit, ∃ path,
      Run (HandleState.MeetingStep fun _ => .strong) .init
          [spNew 0 (some ()), wpFromSp 1 0, wpAssign 1 1] state ∧
        state.CountsRight ∧ state.Steps (fun _ => .strong) (wpAssign 1 1) next ∧
        next.CountsRight ∧ state.destroyAll (fun _ => .strong) [0, 1] = some path ∧
        state.Unwinds (fun _ => .strong) path := by
  have runs : ∃ state next : HandleState (Fin 2) Unit,
      Run (HandleState.MeetingStep fun _ => .strong) .init
          [spNew 0 (some ()), wpFromSp 1 0, wpAssign 1 1] state ∧
        (∀ i, i ∈ [(0 : Fin 2), 1] ↔ state.threads i ≠ .dead) ∧
        state.Steps (fun _ => .strong) (wpAssign 1 1) next := by
    refine ⟨_, _, .cons ⟨rfl, ?_⟩ (.cons ⟨rfl, ?_⟩ (.single ⟨rfl, rfl⟩)), ?_, rfl⟩
    · exact fun () _ => by decide
    · exact fun () _ => by decide
    · decide
  obtain ⟨state, next, run, live, steps⟩ := runs
  obtain ⟨keeps, reaches⟩ := wp_assignment (ι := Fin 2) (ω := Unit)
  obtain ⟨right, _, unwinds⟩ := reaches _ _ run
  obtain ⟨path, destroyed, unwound⟩ := unwinds [0, 1] (by decide) live
  exact ⟨state, next, path, run, right, steps, (keeps state next 1 1 right steps).mpr rfl,
    destroyed, unwound⟩

/-- A strong and a weak handle to each of two objects. -/
def twoObjects : List (HandleOp (Fin 4) Bool) :=
  [spNew 0 (some false), spNew 1 (some true), wpFromSp 2 0, wpFromSp 3 1]

/-- One weak handle is assigned to the other: `mWeak` of either object is wrong, and the
`weakref_impl` of the second is freed while a handle to it remains. -/
theorem wp_assignment_other_object :
    ∃ state next final : HandleState (Fin 4) Bool,
      Run (HandleState.Steps fun _ => .strong) .init twoObjects state ∧ state.CountsRight ∧
        state.Steps (fun _ => .strong) (.wpAssign 2 3) next ∧ ¬ next.CountsRight ∧
        (next.shared false).mWeak = 2 ∧ next.strongs false + next.weaks false = 1 ∧
        (next.shared true).mWeak = 2 ∧ next.strongs true + next.weaks true = 3 ∧
        Run (HandleState.Steps fun _ => .strong) next [destroy 1, destroy 2] final ∧
        (final.shared true).freed = 1 ∧ final.weaks true = 1 := by
  refine ⟨_, _, _, .cons rfl (.cons rfl (.cons rfl (.single rfl))), ?_, rfl, ?_, rfl, rfl, rfl,
    rfl, .cons rfl (.single rfl), rfl, rfl⟩
  · intro object
    cases object <;> rfl
  · intro right
    have unequal : (2 : Int) = 3 := right true
    omega

end Examples

end DroidKernal.Utils
