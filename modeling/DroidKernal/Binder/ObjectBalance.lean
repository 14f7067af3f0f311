import DroidKernal.Binder.ObjectsKept
import DroidKernal.Binder.ProcessState
import DroidKernal.Utils.Uninterrupted

/-!
# The references that objects hold

`acquire_object` and `release_object` take and drop a strong reference to what an object
refers to, one for each time that it occurs in a Parcel.  No other thread counts
references meanwhile.
-/

namespace DroidKernal.Binder

open Lib Utils

/-- What the objects of a process are counted by: the local ones at their addresses, and
the proxies. -/
structure Referents where
  lifetime : Nat → Lifetime
  locals : Nat → RefBase
  process : ProcessState

namespace Referents

/-- A function applied to the local object at an address. -/
def setLocal (state : Referents) (cookie : Nat) (refs : RefBase) : Referents :=
  { state with locals := Function.update state.locals cookie refs }

/-- `incStrong` of the local object at an address. -/
def incStrong (state : Referents) (cookie : Nat) : Referents :=
  state.setLocal cookie ((state.locals cookie).incStrong (state.lifetime cookie))

/-- `decStrong` of the local object at an address. -/
def decStrong (state : Referents) (cookie : Nat) : Referents :=
  state.setLocal cookie ((state.locals cookie).decStrong (state.lifetime cookie))

end Referents

/-- `decStrong` of a proxy. -/
def ProcessState.decStrong (process : ProcessState) (pointer : Nat) : ProcessState :=
  { process with proxies := process.proxies.modify pointer BpBinder.decStrong }

/-- The case `BINDER_TYPE_HANDLE`, which is the same in `acquire_object` and
`release_object`.  The lookup returns a temporary reference, which is dropped at the end. -/
def decProxy (state : Referents) (obj : FlatObject) : Option Referents :=
  match state.process.getStrongProxyForHandle obj.handle.toInt32.toInt with
  | (.fault, _) => none
  | (.null, process) => some { state with process }
  | (.proxy b _, process) => some { state with process := (process.decStrong b).decStrong b }

/-- `acquire_object`. -/
def acquireObject (uapi : ObjectUapi) (state : Referents) (obj : FlatObject) :
    Option Referents :=
  if obj.type = uapi.binderTypeBinder then
    if obj.binder ≠ 0 then some (state.incStrong obj.cookie.toNat) else some state
  else if obj.type = uapi.binderTypeHandle then decProxy state obj
  else some state

/-- `release_object`. -/
def releaseObject (uapi : ObjectUapi) (state : Referents) (obj : FlatObject) :
    Option Referents :=
  if obj.type = uapi.binderTypeBinder then
    if obj.binder ≠ 0 then some (state.decStrong obj.cookie.toNat) else some state
  else if obj.type = uapi.binderTypeHandle then decProxy state obj
  else some state

namespace Parcel

/-- The flat objects. -/
def flats (uapi : ObjectUapi) (parcel : Parcel) : List FlatObject :=
  (List.range parcel.mObjectsSize).map fun i => parcel.flatAt uapi (parcel.objectAddr i)

/-- An effect on the objects of a Parcel; the owner releases all of them. -/
def perform (uapi : ObjectUapi) (parcel : Parcel) (state : Referents) :
    Effect → Option Referents
  | .acquire addr => acquireObject uapi state (parcel.flatAt uapi addr)
  | .release addr => releaseObject uapi state (parcel.flatAt uapi addr)
  | .owner => (parcel.flats uapi).foldlM (releaseObject uapi) state

end Parcel

/-! ## What objects refer to -/

/-- A local object or a proxy. -/
inductive Target where
  | binder (cookie : Nat)
  | proxy (pointer : Nat)
  deriving DecidableEq, Repr

/-- The strong count; a proxy that does not exist yet has none. -/
def Referents.strongCount (state : Referents) : Target → Int
  | .binder cookie => (state.locals cookie).mStrong
  | .proxy pointer => state.process.proxies[pointer]?.elim 0 fun proxy => proxy.refs.mStrong

/-- The local object that an object refers to. -/
def FlatObject.local? (uapi : ObjectUapi) (obj : FlatObject) : Option Nat :=
  if obj.type = uapi.binderTypeBinder ∧ obj.binder ≠ 0 then some obj.cookie.toNat else none

/-- What an object may refer to: a handle refers to some proxy. -/
def FlatObject.Refers (uapi : ObjectUapi) (obj : FlatObject) (target : Option Target) : Prop :=
  if obj.type = uapi.binderTypeHandle then ∃ pointer, target = some (.proxy pointer)
  else target = (obj.local? uapi).map .binder

/-- The references to some targets are among those that are counted. -/
def Referents.Holds (state : Referents) (targets : List (Option Target)) : Prop :=
  ∀ target, some target ∈ targets → (targets.count (some target) : Int) ≤ state.strongCount target

/-- The references of a Parcel to the targets of its objects are taken and dropped one for
each time that they occur, and taking over a buffer drops those of the objects that are not
kept. -/
structure Parcel.Balanced (uapi : ObjectUapi) (parcel : Parcel) (state : Referents)
    (targets : List (Option Target)) : Prop where
  refer : List.Forall₂ (FlatObject.Refers uapi) (parcel.flats uapi) targets
  acquires : ∃ effects after, parcel.acquireObjects = some effects ∧
    effects.foldlM (parcel.perform uapi) state = some after ∧
    ∀ target, after.strongCount target = state.strongCount target + targets.count (some target)
  cancels : ∃ acquires releases after, parcel.acquireObjects = some acquires ∧
    parcel.releaseObjects = some releases ∧
    (acquires ++ releases).foldlM (parcel.perform uapi) state = some after ∧
    ∀ target, after.strongCount target = state.strongCount target
  releases : state.Holds targets →
    ∃ effects after, parcel.releaseObjects = some effects ∧
      effects.foldlM (parcel.perform uapi) state = some after ∧
      ∀ target, after.strongCount target = state.strongCount target - targets.count (some target)
  takesOver : state.Holds targets →
    ∀ heap desired outcome, parcel.mOwner = true →
      parcel.continueWrite heap desired = some outcome → outcome.value = noError →
      ∃ after, outcome.effects.foldlM (parcel.perform uapi) state = some after ∧
        ∀ target, after.strongCount target = state.strongCount target -
          (targets.drop outcome.parcel.mObjectsSize).count (some target)

/-- For some choice of the proxies. -/
def Parcel.CancelsOut (uapi : ObjectUapi) (parcel : Parcel) (state : Referents) : Prop :=
  ∃ targets, parcel.Balanced uapi state targets

/-- The local objects that a Parcel refers to are alive, and their counters far from their
limits. -/
def Parcel.RefersAlive (uapi : ObjectUapi) (parcel : Parcel) (state : Referents) : Prop :=
  ∀ cookie ∈ (parcel.flats uapi).filterMap (FlatObject.local? uapi), ∃ s w,
    Counted (state.lifetime cookie) (state.locals cookie) s w ∧ 0 < s ∧ s ≤ w ∧
      w + parcel.mObjectsSize ≤ 2 ^ 28

/-! ## Local objects -/

namespace Referents

/-- The state after some strong references are taken and others dropped. -/
def moved (state : Referents) (up down : List Nat) : Referents :=
  { state with
    locals := fun cookie => (RefBase.decStrong (state.lifetime cookie))^[down.count cookie]
      ((RefBase.incStrong (state.lifetime cookie))^[up.count cookie] (state.locals cookie)) }

theorem incStrong_moved (state : Referents) (up : List Nat) (cookie : Nat) :
    (state.moved up []).incStrong cookie = state.moved (cookie :: up) [] := by
  rw [incStrong, setLocal, moved, moved]
  congr 1
  funext other
  by_cases same : other = cookie
  · subst same
    rw [Function.update_self, List.count_cons_self, Function.iterate_succ_apply']
    rfl
  · rw [Function.update_of_ne same, List.count_cons_of_ne (Ne.symm same)]

theorem decStrong_moved (state : Referents) (up down : List Nat) (cookie : Nat) :
    (state.moved up down).decStrong cookie = state.moved up (cookie :: down) := by
  rw [decStrong, setLocal, moved, moved]
  congr 1
  funext other
  by_cases same : other = cookie
  · subst same
    rw [Function.update_self, List.count_cons_self, Function.iterate_succ_apply']
  · rw [Function.update_of_ne same, List.count_cons_of_ne (Ne.symm same)]

/-- What the strong count of a local object becomes. -/
theorem strongCount_moved {state : Referents} {up down : List Nat} {cookie s w : Nat}
    (counted : Counted (state.lifetime cookie) (state.locals cookie) s w) (alive : 0 < s)
    (among : s ≤ w) (small : w + up.count cookie ≤ 2 ^ 28)
    (held : down.count cookie ≤ s + up.count cookie) :
    (state.moved up down).strongCount (.binder cookie) =
      state.strongCount (.binder cookie) + up.count cookie - down.count cookie := by
  have raised := counted.incStrong_iterate alive among (up.count cookie) small
  obtain ⟨s', isStrong⟩ := Nat.exists_eq_add_of_le' held
  obtain ⟨w', isWeak⟩ := Nat.exists_eq_add_of_le' (show down.count cookie ≤ w + up.count cookie by
    omega)
  rw [isStrong, isWeak] at raised
  have lowered := raised.decStrong_iterate (down.count cookie) (by omega) (by omega)
  have before := counted.mStrong_eq
  have after := lowered.mStrong_eq
  simp only [strongCount, moved, before, after]
  omega

end Referents

section Locals

variable {uapi : ObjectUapi} {objects : List FlatObject} {state : Referents}

/-- The addresses of the local objects that some objects refer to. -/
def cookies (uapi : ObjectUapi) (objects : List FlatObject) : List Nat :=
  objects.filterMap (FlatObject.local? uapi)

theorem acquireObject_moved {obj : FlatObject} (notHandle : obj.type ≠ uapi.binderTypeHandle)
    (up : List Nat) :
    acquireObject uapi (state.moved up []) obj =
      some (state.moved ((obj.local? uapi).toList ++ up) []) := by
  rw [acquireObject, FlatObject.local?, if_neg notHandle]
  split
  next isBinder =>
    split
    next notNull =>
      rw [if_pos ⟨isBinder, notNull⟩, Referents.incStrong_moved]
      rfl
    next isNull =>
      rw [if_neg fun both => isNull both.2]
      rfl
  next other =>
    rw [if_neg fun both => other both.1]
    rfl

theorem releaseObject_moved {obj : FlatObject} (notHandle : obj.type ≠ uapi.binderTypeHandle)
    (up down : List Nat) :
    releaseObject uapi (state.moved up down) obj =
      some (state.moved up ((obj.local? uapi).toList ++ down)) := by
  rw [releaseObject, FlatObject.local?, if_neg notHandle]
  split
  next isBinder =>
    split
    next notNull =>
      rw [if_pos ⟨isBinder, notNull⟩, Referents.decStrong_moved]
      rfl
    next isNull =>
      rw [if_neg fun both => isNull both.2]
      rfl
  next other =>
    rw [if_neg fun both => other both.1]
    rfl

/-- One object after the other. -/
theorem foldlM_cookies (objects : List FlatObject)
    (act : Referents → FlatObject → Option Referents) (move : List Nat → Referents)
    (steps : ∀ obj ∈ objects, ∀ ids,
      act (move ids) obj = some (move ((obj.local? uapi).toList ++ ids)))
    (ids : List Nat) :
    objects.foldlM act (move ids) = some (move ((cookies uapi objects).reverse ++ ids)) := by
  induction objects generalizing ids with
  | nil => rfl
  | cons obj objects ih =>
      obtain ⟨step, steps⟩ := List.forall_mem_cons.mp steps
      rw [List.foldlM_cons, step, Option.bind_eq_bind, Option.bind_some, ih steps]
      cases isLocal : obj.local? uapi <;> simp [cookies, isLocal]

/-- What objects that are no handles refer to. -/
def localTargets (uapi : ObjectUapi) (objects : List FlatObject) : List (Option Target) :=
  objects.map fun obj => (obj.local? uapi).map .binder

theorem count_localTargets (cookie : Nat) :
    (localTargets uapi objects).count (some (.binder cookie)) =
      (cookies uapi objects).count cookie := by
  rw [localTargets, cookies]
  induction objects with
  | nil => rfl
  | cons obj objects ih =>
      cases isLocal : obj.local? uapi with
      | none => simp [isLocal, ih]
      | some other =>
          by_cases same : other = cookie
          · simp [isLocal, ih, same]
          · simp [isLocal, ih, same]

theorem count_localTargets_proxy (pointer : Nat) :
    (localTargets uapi objects).count (some (.proxy pointer)) = 0 := by
  apply List.count_eq_zero.mpr
  intro member
  obtain ⟨obj, _, isTarget⟩ := List.mem_map.mp member
  cases isLocal : obj.local? uapi <;> simp [isLocal] at isTarget

theorem refers_localTargets (noHandle : ∀ obj ∈ objects, obj.type ≠ uapi.binderTypeHandle) :
    List.Forall₂ (FlatObject.Refers uapi) objects (localTargets uapi objects) := by
  rw [localTargets, List.forall₂_map_right_iff]
  refine List.forall₂_same.mpr fun obj member => ?_
  rw [FlatObject.Refers, if_neg (noHandle obj member)]

end Locals

namespace Parcel

variable {uapi : ObjectUapi} {parcel : Parcel} {state : Referents} {up down : List Nat}

theorem flats_length (uapi : ObjectUapi) (parcel : Parcel) :
    (parcel.flats uapi).length = parcel.mObjectsSize := by
  rw [flats, List.length_map, List.length_range]

/-- The counts after some of the references of the Parcel are taken and others dropped. -/
theorem RefersAlive.strongCount (alive : parcel.RefersAlive uapi state)
    (upWithin : ∀ cookie, up.count cookie ≤ (cookies uapi (parcel.flats uapi)).count cookie)
    (downWithin : ∀ cookie, down.count cookie ≤ (cookies uapi (parcel.flats uapi)).count cookie)
    (held : ∀ cookie ∈ cookies uapi (parcel.flats uapi),
      (down.count cookie : Int) ≤ state.strongCount (.binder cookie) + up.count cookie)
    (cookie : Nat) :
    (state.moved up down).strongCount (.binder cookie) =
      state.strongCount (.binder cookie) + up.count cookie - down.count cookie := by
  by_cases refers : cookie ∈ cookies uapi (parcel.flats uapi)
  · obtain ⟨s, w, counted, positive, among, small⟩ := alive cookie refers
    have few : (cookies uapi (parcel.flats uapi)).count cookie ≤ parcel.mObjectsSize :=
      calc
        _ ≤ (cookies uapi (parcel.flats uapi)).length := List.count_le_length
        _ ≤ (parcel.flats uapi).length := List.length_filterMap_le _ _
        _ = parcel.mObjectsSize := flats_length uapi parcel
    have most := upWithin cookie
    have enough := held cookie refers
    have isStrong : state.strongCount (.binder cookie) = s := counted.mStrong_eq
    rw [isStrong] at enough
    exact Referents.strongCount_moved counted positive among (by omega) (by omega)
  · have noUp : up.count cookie = 0 :=
      Nat.le_zero.mp (List.count_eq_zero.mpr refers ▸ upWithin cookie)
    have noDown : down.count cookie = 0 :=
      Nat.le_zero.mp (List.count_eq_zero.mpr refers ▸ downWithin cookie)
    simp [Referents.strongCount, Referents.moved, noUp, noDown]

/-- The effects on the objects with some indices. -/
theorem foldlM_perform (effect : Nat → Effect)
    (act : Referents → FlatObject → Option Referents)
    (performs : ∀ state addr,
      parcel.perform uapi state (effect addr) = act state (parcel.flatAt uapi addr))
    (indices : List Nat) :
    ((indices.map parcel.objectAddr).map effect).foldlM (parcel.perform uapi) state =
      (indices.map fun i => parcel.flatAt uapi (parcel.objectAddr i)).foldlM act state := by
  rw [List.foldlM_map, List.foldlM_map, List.foldlM_map]
  simp only [performs]

variable (noHandle : ∀ obj ∈ parcel.flats uapi, obj.type ≠ uapi.binderTypeHandle)

include noHandle

/-- The first objects are acquired. -/
theorem perform_acquires (state : Referents) {kept : Nat} (within : kept ≤ parcel.mObjectsSize) :
    (((List.range kept).reverse.map parcel.objectAddr).map Effect.acquire).foldlM
        (parcel.perform uapi) state =
      some (state.moved (cookies uapi ((parcel.flats uapi).take kept)) []) := by
  have first : (List.range kept).reverse.map
      (fun i => parcel.flatAt uapi (parcel.objectAddr i)) =
      ((parcel.flats uapi).take kept).reverse := by
    rw [flats, ← List.map_take, List.take_range, Nat.min_eq_left within, List.map_reverse]
  have moves := foldlM_cookies ((parcel.flats uapi).take kept).reverse (acquireObject uapi)
    (fun ids => state.moved ids [])
    (fun obj member ids => acquireObject_moved
      (noHandle obj (List.mem_of_mem_take (List.mem_reverse.mp member))) ids) []
  rw [cookies, List.filterMap_reverse, List.reverse_reverse, List.append_nil] at moves
  rw [foldlM_perform Effect.acquire (acquireObject uapi) (fun _ _ => rfl), first]
  exact moves

/-- All objects are released. -/
theorem perform_releases (state : Referents) (up : List Nat) :
    (((List.range parcel.mObjectsSize).reverse.map parcel.objectAddr).map Effect.release).foldlM
        (parcel.perform uapi) (state.moved up []) =
      some (state.moved up (cookies uapi (parcel.flats uapi))) := by
  have all : (List.range parcel.mObjectsSize).reverse.map
      (fun i => parcel.flatAt uapi (parcel.objectAddr i)) = (parcel.flats uapi).reverse := by
    rw [flats, List.map_reverse]
  have moves := foldlM_cookies (parcel.flats uapi).reverse (releaseObject uapi)
    (fun ids => state.moved up ids)
    (fun obj member ids =>
      releaseObject_moved (noHandle obj (List.mem_reverse.mp member)) up ids) []
  rw [cookies, List.filterMap_reverse, List.reverse_reverse, List.append_nil] at moves
  rw [foldlM_perform Effect.release (releaseObject uapi) (fun _ _ => rfl), all]
  exact moves

/-- The owner releases them as well. -/
theorem perform_owner (up : List Nat) :
    parcel.perform uapi (state.moved up []) .owner =
      some (state.moved up (cookies uapi (parcel.flats uapi)).reverse) := by
  have moves := foldlM_cookies (parcel.flats uapi) (releaseObject uapi)
    (fun ids => state.moved up ids)
    (fun obj member ids => releaseObject_moved (noHandle obj member) up ids) []
  rwa [List.append_nil] at moves

omit noHandle in
theorem RefersAlive.positive (alive : parcel.RefersAlive uapi state) {cookie : Nat}
    (refers : cookie ∈ cookies uapi (parcel.flats uapi)) :
    0 < state.strongCount (.binder cookie) := by
  obtain ⟨s, w, counted, positive, _⟩ := alive cookie refers
  have isStrong : state.strongCount (.binder cookie) = s := counted.mStrong_eq
  omega

omit noHandle in
theorem holds_cookies (holds : state.Holds (localTargets uapi (parcel.flats uapi))) {cookie : Nat}
    (refers : cookie ∈ cookies uapi (parcel.flats uapi)) :
    ((cookies uapi (parcel.flats uapi)).count cookie : Int) ≤
      state.strongCount (.binder cookie) := by
  rw [← count_localTargets]
  apply holds
  apply List.count_pos_iff.mp
  rw [count_localTargets]
  exact List.count_pos_iff.mpr refers

omit noHandle in
/-- Counts of local objects and of proxies, which are not touched. -/
theorem RefersAlive.counts (alive : parcel.RefersAlive uapi state)
    {taken dropped : List FlatObject} (isTaken : taken.Sublist (parcel.flats uapi))
    (isDropped : dropped.Sublist (parcel.flats uapi))
    (isUp : ∀ cookie, up.count cookie = (cookies uapi taken).count cookie)
    (isDown : ∀ cookie, down.count cookie = (cookies uapi dropped).count cookie)
    (held : ∀ cookie ∈ cookies uapi (parcel.flats uapi),
      ((cookies uapi dropped).count cookie : Int) ≤
        state.strongCount (.binder cookie) + (cookies uapi taken).count cookie)
    (target : Target) :
    (state.moved up down).strongCount target = state.strongCount target +
      (localTargets uapi taken).count (some target) -
        (localTargets uapi dropped).count (some target) := by
  cases target with
  | binder cookie =>
      rw [count_localTargets, count_localTargets, ← isUp, ← isDown]
      apply alive.strongCount
      · exact fun cookie => isUp cookie ▸ (isTaken.filterMap _).count_le cookie
      · exact fun cookie => isDown cookie ▸ (isDropped.filterMap _).count_le cookie
      · intro cookie refers
        rw [isUp, isDown]
        exact held cookie refers
  | proxy pointer =>
      rw [count_localTargets_proxy, count_localTargets_proxy]
      simp [Referents.strongCount, Referents.moved]

/-- Taking over a buffer acquires the kept objects, and its owner releases all. -/
theorem perform_takesOver (alive : parcel.RefersAlive uapi state)
    (holds : state.Holds (localTargets uapi (parcel.flats uapi))) {kept : Nat}
    (within : kept ≤ parcel.mObjectsSize) :
    ∃ after, ((List.range kept).reverse.map (fun i => Effect.acquire (parcel.objectAddr i)) ++
        [Effect.owner]).foldlM (parcel.perform uapi) state = some after ∧
      ∀ target, after.strongCount target = state.strongCount target -
        ((localTargets uapi (parcel.flats uapi)).drop kept).count (some target) := by
  have acquired := perform_acquires noHandle state within
  rw [List.map_map] at acquired
  refine ⟨state.moved (cookies uapi ((parcel.flats uapi).take kept))
    (cookies uapi (parcel.flats uapi)).reverse, ?_, fun target => ?_⟩
  · rw [List.foldlM_append]
    change Option.bind (((List.range kept).reverse.map (Effect.acquire ∘ parcel.objectAddr)).foldlM
      (parcel.perform uapi) state) _ = _
    rw [acquired]
    exact congrArg (·.bind some) (perform_owner noHandle _)
  · rw [alive.counts (List.take_sublist kept _) (List.Sublist.refl _) (fun _ => rfl)
      (fun _ => List.count_reverse)]
    · have targets : localTargets uapi (parcel.flats uapi) =
          localTargets uapi ((parcel.flats uapi).take kept) ++
            (localTargets uapi (parcel.flats uapi)).drop kept := by
        simp only [localTargets, ← List.map_drop, ← List.map_append, List.take_append_drop]
      have counts := congrArg (List.count (some target)) targets
      rw [List.count_append] at counts
      omega
    · intro cookie refers
      have enough := holds_cookies holds refers
      omega

/-- Without handles, acquiring and releasing cancel out. -/
theorem Backed.balanced (backed : parcel.Backed) (alive : parcel.RefersAlive uapi state) :
    parcel.Balanced uapi state (localTargets uapi (parcel.flats uapi)) := by
  have all := List.Sublist.refl (parcel.flats uapi)
  have none := List.nil_sublist (parcel.flats uapi)
  have acquires : parcel.acquireObjects = some
      (((List.range parcel.mObjectsSize).reverse.map parcel.objectAddr).map .acquire) := by
    rw [acquireObjects, backed.flatObjects_eq, Option.map_some]
  have releases : parcel.releaseObjects = some
      (((List.range parcel.mObjectsSize).reverse.map parcel.objectAddr).map .release) := by
    rw [releaseObjects, backed.flatObjects_eq, Option.map_some]
  have acquired := perform_acquires noHandle state (Nat.le_refl _)
  rw [List.take_of_length_le (Nat.le_of_eq (flats_length uapi parcel))] at acquired
  constructor
  case refer => exact refers_localTargets noHandle
  case acquires =>
    refine ⟨_, _, acquires, acquired, fun target => ?_⟩
    change (state.moved _ (cookies uapi [])).strongCount target = _
    rw [alive.counts all none (fun _ => rfl) (fun _ => rfl)]
    · simp [localTargets]
    · intro cookie refers
      have positive := alive.positive refers
      simp only [cookies, List.filterMap_nil, List.count_nil]
      omega
  case cancels =>
    have released := perform_releases noHandle state (cookies uapi (parcel.flats uapi))
    refine ⟨_, _, state.moved (cookies uapi (parcel.flats uapi)) (cookies uapi (parcel.flats uapi)),
      acquires, releases, ?_, fun target => ?_⟩
    · rw [List.foldlM_append, acquired]
      exact released
    · rw [alive.counts all all (fun _ => rfl) (fun _ => rfl), Int.add_sub_cancel]
      intro cookie refers
      have positive := alive.positive refers
      omega
  case releases =>
    intro holds
    refine ⟨_, _, releases, perform_releases noHandle state [], fun target => ?_⟩
    change (state.moved (cookies uapi []) _).strongCount target = _
    rw [alive.counts none all (fun _ => rfl) (fun _ => rfl)]
    · simp [localTargets]
    · intro cookie refers
      have enough := holds_cookies holds refers
      simp only [cookies, List.filterMap_nil, List.count_nil] at enough ⊢
      omega
  case takesOver =>
    intro holds heap desired outcome owned continues succeeds
    obtain ⟨same, isSame, continued⟩ := backed.continueWrite_continued heap desired
    cases continues.symm.trans isSame
    have refused : badValue ≠ noError := by decide
    have exhausted : noMemory ≠ noError := by decide
    cases continued with
    | tooBig => exact absurd succeeds refused
    | outOfMemory => exact absurd succeeds exhausted
    | cleared => exact perform_takesOver noHandle alive holds (Nat.zero_le _)
    | resized _ _ _ resized =>
        rw [resized.objectsSize, resizeEffects, if_pos owned]
        exact perform_takesOver noHandle alive holds (backed.objectsKept_eq desired).2

end Parcel

/-! ## Handles -/

section Handles

variable {uapi : ObjectUapi} {parcel : Parcel} {state after : Referents}

/-- The strong count of a proxy. -/
def proxyCount (proxies : List BpBinder) (pointer : Nat) : Int :=
  proxies[pointer]?.elim 0 fun proxy => proxy.refs.mStrong

/-- An attempt at a weak reference leaves the strong count alone. -/
theorem proxyCount_attemptIncWeak {proxies : List BpBinder} {pointer : Nat} {proxy : BpBinder}
    (isProxy : proxies[pointer]? = some proxy) (other : Nat) :
    proxyCount (proxies.set pointer { proxy with refs := proxy.refs.attemptIncWeak.1 }) other =
      proxyCount proxies other := by
  have same : proxy.refs.attemptIncWeak.1.mStrong = proxy.refs.mStrong := by
    rw [RefBase.attemptIncWeak]
    split <;> rfl
  have bound := (List.getElem?_eq_some_iff.mp isProxy).1
  rw [proxyCount, proxyCount]
  by_cases isOther : pointer = other
  · subst isOther
    rw [List.getElem?_set_self bound, isProxy]
    exact same
  · rw [List.getElem?_set_ne isOther]

/-- A lookup returns null or a new proxy; the counts of the old ones stay. -/
theorem getStrongProxyForHandle_cases (process : ProcessState) (handle : Int) :
    ∃ proxies, (∀ pointer, proxyCount proxies pointer = proxyCount process.proxies pointer) ∧
      ((process.getStrongProxyForHandle handle).1 = .fault ∨
        (process.getStrongProxyForHandle handle).1 = .null ∧
          (process.getStrongProxyForHandle handle).2.proxies = proxies ∨
        (process.getStrongProxyForHandle handle).1 = .proxy proxies.length handle ∧
          (process.getStrongProxyForHandle handle).2.proxies =
            proxies ++ [(BpBinder.create handle).incStrong]) := by
  rw [ProcessState.getStrongProxyForHandle]
  split
  next => exact ⟨process.proxies, fun _ => rfl, .inl rfl⟩
  next => exact ⟨process.proxies, fun _ => rfl, .inr (.inl ⟨rfl, rfl⟩)⟩
  next i table _ =>
    simp only
    split
    next => exact ⟨process.proxies, fun _ => rfl, .inl rfl⟩
    next => exact ⟨process.proxies, fun _ => rfl, .inr (.inr ⟨rfl, rfl⟩)⟩
    next => exact ⟨process.proxies, fun _ => rfl, .inl rfl⟩
    next pointer _ =>
      split
      next => exact ⟨process.proxies, fun _ => rfl, .inl rfl⟩
      next proxy isProxy =>
        refine ⟨_, proxyCount_attemptIncWeak isProxy, ?_⟩
        split
        next => exact .inl rfl
        next =>
          split
          next => exact .inr (.inl ⟨rfl, rfl⟩)
          next => exact .inr (.inr ⟨rfl, rfl⟩)

/-- Dropping both references to a new proxy leaves it with less than none. -/
theorem proxyCount_dropped (proxies : List BpBinder) (handle : Int) (pointer : Nat) :
    proxyCount (((proxies ++ [(BpBinder.create handle).incStrong]).modify proxies.length
      BpBinder.decStrong).modify proxies.length BpBinder.decStrong) pointer ≤
      proxyCount proxies pointer := by
  rw [proxyCount, proxyCount, List.getElem?_modify, List.getElem?_modify]
  rcases Nat.lt_trichotomy pointer proxies.length with old | new | beyond
  · rw [List.getElem?_append_left old]
    simp [Nat.ne_of_gt old]
  · subst new
    rw [List.getElem?_concat_length, List.getElem?_eq_none (Nat.le_refl _)]
    have lost : (BpBinder.create handle).incStrong.decStrong.decStrong.refs.mStrong = -1 := rfl
    simp [lost]
  · rw [List.getElem?_eq_none (by simp; omega), List.getElem?_eq_none (Nat.le_of_lt beyond)]
    exact Int.le_refl 0

/-- Acquiring an object raises the count of no proxy. -/
theorem acquireObject_le {obj : FlatObject} (acquired : acquireObject uapi state obj = some after)
    (pointer : Nat) : after.strongCount (.proxy pointer) ≤ state.strongCount (.proxy pointer) := by
  rw [acquireObject] at acquired
  split at acquired
  next =>
    split at acquired
    next =>
      cases acquired
      exact Int.le_refl _
    next =>
      cases acquired
      exact Int.le_refl _
  next =>
    split at acquired
    next =>
      obtain ⟨proxies, same, cases⟩ :=
        getStrongProxyForHandle_cases state.process obj.handle.toInt32.toInt
      rw [decProxy] at acquired
      change _ ≤ proxyCount state.process.proxies pointer
      rw [← same pointer]
      rcases lookup : state.process.getStrongProxyForHandle obj.handle.toInt32.toInt with
        ⟨answer, process⟩
      rw [lookup] at cases acquired
      rcases cases with isFault | ⟨isNull, isProxies⟩ | ⟨isProxy, isProxies⟩
      · subst isFault
        cases acquired
      · subst isNull isProxies
        cases acquired
        exact Int.le_refl _
      · subst isProxy
        cases acquired
        have dropped := proxyCount_dropped proxies obj.handle.toInt32.toInt pointer
        rw [← isProxies] at dropped
        exact dropped
    next =>
      cases acquired
      exact Int.le_refl _

theorem foldlM_acquire_le {addrs : List Nat}
    (acquired : (addrs.map Effect.acquire).foldlM (parcel.perform uapi) state = some after)
    (pointer : Nat) : after.strongCount (.proxy pointer) ≤ state.strongCount (.proxy pointer) := by
  induction addrs generalizing state with
  | nil =>
      cases acquired
      exact Int.le_refl _
  | cons addr addrs ih =>
      rw [List.map_cons, List.foldlM_cons] at acquired
      obtain ⟨next, step, rest⟩ := Option.bind_eq_some_iff.mp acquired
      exact Int.le_trans (ih rest) (acquireObject_le step pointer)

theorem exists_target {objects : List FlatObject} {targets : List (Option Target)}
    (refer : List.Forall₂ (FlatObject.Refers uapi) objects targets) {obj : FlatObject}
    (member : obj ∈ objects) : ∃ target ∈ targets, obj.Refers uapi target := by
  induction refer with
  | nil => cases member
  | cons refers _ ih =>
      rcases List.mem_cons.mp member with rfl | later
      · exact ⟨_, List.mem_cons_self, refers⟩
      · obtain ⟨target, isTarget, refersLater⟩ := ih later
        exact ⟨target, List.mem_cons_of_mem _ isTarget, refersLater⟩

/-- With a handle, no choice of proxies balances. -/
theorem Parcel.CancelsOut.noHandle (cancels : parcel.CancelsOut uapi state)
    (backed : parcel.Backed) :
    ∀ obj ∈ parcel.flats uapi, obj.type ≠ uapi.binderTypeHandle := by
  intro obj member isHandle
  obtain ⟨targets, balanced⟩ := cancels
  obtain ⟨target, isTarget, refers⟩ := exists_target balanced.refer member
  rw [FlatObject.Refers, if_pos isHandle] at refers
  obtain ⟨pointer, rfl⟩ := refers
  obtain ⟨effects, after, acquires, acquired, counts⟩ := balanced.acquires
  rw [acquireObjects, backed.flatObjects_eq, Option.map_some] at acquires
  cases acquires
  have notRaised := foldlM_acquire_le acquired pointer
  have raised := counts (.proxy pointer)
  have occurs := List.count_pos_iff.mpr isTarget
  omega

/-- Acquiring and releasing the objects of a Parcel cancel out exactly if none is a
handle. -/
theorem cancels_out_iff (uapi : ObjectUapi) (parcel : Parcel) (state : Referents)
    (backed : parcel.Backed) (alive : parcel.RefersAlive uapi state) :
    parcel.CancelsOut uapi state ↔
      ∀ obj ∈ parcel.flats uapi, obj.type ≠ uapi.binderTypeHandle := by
  constructor
  · exact fun cancels => cancels.noHandle backed
  · exact fun noHandle => ⟨_, backed.balanced noHandle alive⟩

end Handles

/-- A Parcel with a single object. -/
def Parcel.oneObject (obj : FlatObject) : Parcel where
  mError := noError
  mData := some
    { addr := 4096, cells := fun i => (linuxObjects.flatBinderObject.encode obj).getD i 0 }
  mDataSize := 24
  mDataCapacity := 24
  mDataPos := 24
  mObjects := some { addr := 8192, cells := fun _ => 0 }
  mObjectsSize := 1
  mObjectsCapacity := 1
  mOwner := false

theorem Parcel.oneObject_backed (obj : FlatObject) : (Parcel.oneObject obj).Backed where
  size := Nat.le_refl 24
  null := fun isNull => nomatch isNull
  block := by
    rintro data ⟨⟩
    change 0 < 4096 ∧ 4096 + 24 ≤ taskSize
    decide
  objects := fun _ => ⟨Option.some_ne_none _, Option.some_ne_none _⟩

/-- The flat object of a local object. -/
def localObject : FlatObject where
  type := linuxObjects.binderTypeBinder
  flags := 0
  binder := 1
  cookie := 64

/-- The flat object of a remote one. -/
def remoteObject : FlatObject where
  type := linuxObjects.binderTypeHandle
  flags := 0
  binder := 5
  cookie := 0

theorem flats_remoteObject :
    (Parcel.oneObject remoteObject).flats linuxObjects = [remoteObject] := by
  decide

/-- Every local object has one reference, and no proxy was created. -/
def heldOnce : Referents where
  lifetime _ := .strong
  locals _ := { RefBase.init with mStrong := 1, mWeak := 1, strongTaken := true, weakTaken := true }
  process := .init

theorem heldOnce_counted (cookie : Nat) :
    Counted (heldOnce.lifetime cookie) (heldOnce.locals cookie) 1 1 where
  core := {
    strong := rfl
    weak := rfl
    untaken := fun isFalse => nomatch isFalse
    single := by decide
    few := by decide
    object := fun _ => rfl
    extended := fun isWeak => nomatch isWeak
    impl := ⟨Nat.zero_le 1, fun freed => absurd freed (Nat.lt_irrefl 0)⟩
    fresh := fun isFalse => nomatch isFalse
    clean := ⟨rfl, rfl⟩ }
  started := rfl

theorem refersAlive_heldOnce (obj : FlatObject) :
    (Parcel.oneObject obj).RefersAlive linuxObjects heldOnce := by
  intro cookie _
  have few : 1 + 1 ≤ 2 ^ 28 := by decide
  exact ⟨1, 1, heldOnce_counted cookie, Nat.one_pos, Nat.le_refl 1, few⟩

/-- The reference to a local object is taken and dropped. -/
theorem cancels_out_local :
    (Parcel.oneObject localObject).CancelsOut linuxObjects heldOnce := by
  have noHandle : ∀ obj ∈ (Parcel.oneObject localObject).flats linuxObjects,
      obj.type ≠ linuxObjects.binderTypeHandle := by decide
  exact (cancels_out_iff linuxObjects _ heldOnce (Parcel.oneObject_backed localObject)
    (refersAlive_heldOnce localObject)).mpr noHandle

/-- Acquiring a handle drops a reference to its proxy. -/
theorem handle_not_acquired :
    ¬ ∀ (uapi : ObjectUapi) (parcel : Parcel) (state : Referents), parcel.Backed →
      parcel.RefersAlive uapi state → parcel.CancelsOut uapi state := by
  intro claim
  have backed := Parcel.oneObject_backed remoteObject
  have cancels := claim linuxObjects _ heldOnce backed (refersAlive_heldOnce remoteObject)
  have noHandle := cancels.noHandle backed remoteObject
  rw [flats_remoteObject] at noHandle
  exact noHandle List.mem_cons_self rfl

end DroidKernal.Binder
