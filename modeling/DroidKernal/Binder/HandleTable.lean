import DroidKernal.Binder.ProcessState
import DroidKernal.Lib.Run

/-!
# What the handle table returns

The first call stores its proxy in the first entry, whatever the handle, and every
later call finds it there.
-/

namespace DroidKernal.Binder

open Lib Utils ProcessState

/-- A handle that is not negative. -/
def IsHandle (handle : Int) : Prop := 0 ≤ handle ∧ handle < 2 ^ 31

/-- The handles of the calls. -/
def handles (events : List TableEvent) : List Int :=
  events.filterMap fun
    | .get handle _ => some handle
    | .drop _ => none

/-- The answers to a sequence of calls are right: each is a proxy of the handle asked
for; it is the same as before while the first result is held; and it is another one for
another handle. -/
structure AnswersRight (events : List TableEvent) : Prop where
  own : ∀ handle answer, .get handle answer ∈ events → ∃ pointer, answer = .proxy pointer handle
  same : ∀ before handle pointer middle answer,
    before ++ [.get handle (.proxy pointer handle)] ++ middle ++ [.get handle answer] <+: events →
      .drop pointer ∉ middle → answer = .proxy pointer handle
  different : ∀ handle other pointer pointer', .get handle (.proxy pointer handle) ∈ events →
    .get other (.proxy pointer' other) ∈ events → handle ≠ other → pointer ≠ pointer'

/-- A call does not change the entry of another handle. -/
def KeepsOthers (state : TableState) (event : TableEvent) (next : TableState) : Prop :=
  ∀ handle answer other, event = .get handle answer → IsHandle other → other ≠ handle →
    next.process.entryOf other = state.process.entryOf other

/-- A step that keeps the entries of other handles. -/
def KeepingStep (state : TableState) (event : TableEvent) (next : TableState) : Prop :=
  TableStep state event next ∧ KeepsOthers state event next

theorem toSize_eq {value : Int} (nonneg : 0 ≤ value) (small : value < 2 ^ 63) :
    (toSize value : Int) = value := by
  simp only [toSize]
  omega

/-! ## Lookups -/

section Lookup

variable {table : VectorImpl HandleEntry} {entries : List HandleEntry} {handle : Int}

/-- The pointer to any entry is the pointer to the first. -/
theorem editItemLocation_eq (holds : table.Holds handleEntryTraits entries)
    (nonempty : entries ≠ []) (index : Nat) : table.editItemLocation index = some 0 := by
  obtain ⟨buffer, isStorage⟩ := Option.ne_none_iff_exists'.mp (holds.storage nonempty)
  rw [VectorImpl.editItemLocation, isStorage]
  rfl

/-- The memory that a lookup asks for. -/
def Allocates (heap : Utils.Heap) (table : VectorImpl HandleEntry) (handle : Int) : Prop :=
  table.capacity handleEntryTraits < handle.toNat + 1 →
    heap.grantsBuffer (VectorImpl.growCapacity table.mCount (handle.toNat + 1 - table.mCount) *
      handleEntryTraits.itemSize) = true

/-- A lookup makes the table long enough. -/
theorem lookupHandleLocked_grows {heap : Utils.Heap} (holds : table.Holds handleEntryTraits entries)
    (short : entries.length ≤ 2 ^ 31) (nonneg : 0 ≤ handle) (small : handle < 2 ^ 31 - 1)
    (allocates : Allocates heap table handle) :
    ∃ grown, lookupHandleLocked heap table handle = (.slot 0, grown) ∧
      grown.Holds handleEntryTraits
        (entries ++ List.replicate (handle.toNat + 1 - entries.length)
          { binder := none, refs := none }) := by
  have size := toSize_eq nonneg (by omega)
  have sizeNext : (toSize (handle + 1) : Int) = handle + 1 := toSize_eq (by omega) (by omega)
  rw [lookupHandleLocked, holds.count]
  simp only
  split
  next new =>
    have amount : sizeSub (toSize (handle + 1)) entries.length =
        handle.toNat + 1 - entries.length := by
      rw [sizeSub_eq (by omega) (by omega)]
      omega
    have fits : table.GrowFits handleEntryTraits heap (handle.toNat + 1 - entries.length) := by
      constructor
      · rw [holds.count]
        simp only [handleEntryTraits, Traits.nontrivial, kMinVectorCapacity]
        omega
      · intro full
        rw [← holds.count] at full ⊢
        apply allocates
        rw [← holds.count] at new
        omega
    obtain ⟨grown, isGrown, holdsGrown⟩ := holds.insertAt
      { binder := none, refs := none } (Nat.le_refl _) (by omega) fits
    rw [List.take_length, List.drop_length, List.append_nil] at holdsGrown
    have noError : ¬ wrapInt32 (toSsize entries.length) < 0 := by
      simp only [wrapInt32, toSsize]
      omega
    refine ⟨grown, ?_, holdsGrown⟩
    rw [if_neg (by omega), amount, isGrown]
    simp only [if_neg noError]
    rw [editItemLocation_eq holdsGrown]
    intro isNil
    have length := congrArg List.length isNil
    simp at length
    omega
  next old =>
    have nothing : handle.toNat + 1 - entries.length = 0 := by omega
    refine ⟨table, ?_, by simpa [nothing] using holds⟩
    rw [editItemLocation_eq holds]
    rintro rfl
    simp at old

/-- Memory does not run out. -/
theorem lookupHandleLocked_eq (holds : table.Holds handleEntryTraits entries)
    (short : entries.length ≤ 2 ^ 31) (nonneg : 0 ≤ handle) (small : handle < 2 ^ 31 - 1) :
    ∃ grown, lookupHandleLocked (fun _ => true) table handle = (.slot 0, grown) ∧
      grown.Holds handleEntryTraits
        (entries ++ List.replicate (handle.toNat + 1 - entries.length)
          { binder := none, refs := none }) :=
  lookupHandleLocked_grows holds short nonneg small fun _ => rfl

end Lookup

/-! ## Calls -/

section Calls

variable {handle : Int} {state next : TableState} {events : List TableEvent}

/-- The table after the first call. -/
structure Taken (state : TableState) (handle : Int) : Prop where
  table : ∃ entries, state.process.mHandleToObject.Holds handleEntryTraits entries ∧
    entries.length = handle.toNat + 1 ∧
    entries[0]? = some { binder := some 0, refs := some 0 }
  small : handle < 2 ^ 31 - 1
  proxy :
    (state.process.proxies = [(BpBinder.create handle).incStrong] ∧ state.held = [0]) ∨
    (state.process.proxies = [(BpBinder.create handle).incStrong.decStrong] ∧ state.held = [])

/-- The first call. -/
theorem first_call (isHandle : IsHandle handle) :
    (∃ next, ProcessState.init.getStrongProxyForHandle handle = (.proxy 0 handle, next) ∧
        Taken { process := next, held := [0] } handle) ∨
      (handle ≠ 0 ∧ (ProcessState.init.getStrongProxyForHandle handle).1 = .fault) := by
  by_cases isMax : handle = 2 ^ 31 - 1
  · right
    subst isMax
    exact ⟨by decide, rfl⟩
  · left
    obtain ⟨nonneg, isInt32⟩ := isHandle
    have small : handle < 2 ^ 31 - 1 := by omega
    have holds : ProcessState.init.mHandleToObject.Holds handleEntryTraits [] :=
      VectorImpl.empty_holds
    obtain ⟨grown, found, holdsGrown⟩ := lookupHandleLocked_eq holds (by simp) nonneg small
    rw [List.nil_append, List.length_nil, Nat.sub_zero] at holdsGrown
    have isNull : grown.slot 0 = some { binder := none, refs := none } := by
      rw [holdsGrown.slots 0 (by simp), List.getElem?_replicate_of_lt (Nat.succ_pos _)]
    refine ⟨_, by simp only [getStrongProxyForHandle, found, isNull]; rfl, ?_⟩
    exact {
      table := by
        refine ⟨_, holdsGrown.store 0 { binder := some 0, refs := some 0 }, ?_, ?_⟩
        · rw [List.length_set, List.length_replicate]
        · rw [List.getElem?_set_self (by simp)]
      small := small
      proxy := .inl ⟨rfl, rfl⟩ }

/-- Every later call finds the first proxy, and returns no other one. -/
theorem later_call (taken : Taken state handle) {other : Int} (isHandle : IsHandle other) :
    (state.process.getStrongProxyForHandle other).1 = .null ∨
      (state.process.getStrongProxyForHandle other).1 = .fault := by
  obtain ⟨nonneg, isInt32⟩ := isHandle
  obtain ⟨⟨entries, holds, length, first⟩, small, proxy⟩ := taken
  by_cases isMax : other = 2 ^ 31 - 1
  · right
    have new : state.process.mHandleToObject.mCount ≤ toSize other := by
      have size := toSize_eq nonneg (by omega)
      rw [holds.count]
      omega
    simp only [getStrongProxyForHandle, lookupHandleLocked, if_pos new, if_pos isMax]
  · obtain ⟨grown, found, holdsGrown⟩ :=
      lookupHandleLocked_eq holds (by omega) nonneg (by omega)
    have isFirst : grown.slot 0 = some { binder := some 0, refs := some 0 } := by
      rw [holdsGrown.slots 0 (by simp; omega), List.getElem?_append_left (by omega), first]
    simp only [getStrongProxyForHandle, found, isFirst]
    rcases proxy with ⟨alive, _⟩ | ⟨dropped, _⟩
    · left
      rw [alive]
      rfl
    · right
      rw [dropped]
      rfl

/-- Dropping the first proxy. -/
theorem Taken.drop (taken : Taken state handle) {pointer : Nat} (holds : pointer ∈ state.held) :
    Taken
      { process := { state.process with
          proxies := state.process.proxies.modify pointer BpBinder.decStrong }
        held := state.held.erase pointer } handle := by
  rcases taken.proxy with ⟨alive, held⟩ | ⟨_, held⟩
  · rw [held, List.mem_singleton] at holds
    subst holds
    exact {
      table := taken.table
      small := taken.small
      proxy := .inr ⟨by rw [alive]; rfl, by rw [held]; rfl⟩ }
  · rw [held] at holds
    cases holds

/-- How far a process got: it made no call; it made one, for a handle of some kind,
which was answered by a new proxy; or some call, not a single one for handle 0, was not
answered by a proxy. -/
inductive Progress (kind : Int → Prop) (events : List TableEvent) (state : TableState) :
    Prop where
  | start (nothing : events = []) (isInit : state = .init)
  | one (handle : Int) (isKind : kind handle) (single : handles events = [handle])
      (taken : Taken state handle)
      (answers : ∀ other answer, .get other answer ∈ events → answer = .proxy 0 other)
  | failed (handle : Int) (answer : ProcessState.Answer) (called : .get handle answer ∈ events)
      (wrong : ∀ pointer mHandle, answer ≠ .proxy pointer mHandle)
      (notZero : handles events ≠ [0])

theorem handle_mem {answer : ProcessState.Answer} (called : .get handle answer ∈ events) :
    handle ∈ handles events :=
  List.mem_filterMap.mpr ⟨_, called, rfl⟩

theorem handles_snoc (event : TableEvent) :
    handles (events ++ [event]) = handles events ++ handles [event] :=
  List.filterMap_append

theorem Progress.step {kind : Int → Prop} (progress : Progress kind events state)
    {event : TableEvent} (step : TableStep state event next)
    (first : ∀ handle answer, state = .init → event = .get handle answer → Taken next handle →
      kind handle) : Progress kind (events ++ [event]) next := by
  cases progress with
  | start nothing isInit =>
      subst nothing isInit
      cases step with
      | drop holds => cases holds
      | get nonneg isInt32 got =>
          rcases first_call ⟨nonneg, isInt32⟩ with ⟨process, answered, taken⟩ | ⟨notZero, faults⟩
          · cases answered.symm.trans got
            refine .one _ (first _ _ rfl rfl taken) rfl taken ?_
            intro other answer isCall
            cases List.mem_singleton.mp isCall
            rfl
          · have answer := congrArg Prod.fst got
            rw [show (TableState.init.process) = ProcessState.init from rfl, faults] at answer
            subst answer
            refine .failed _ _ (List.mem_singleton_self _) nofun ?_
            intro isZero
            exact notZero (List.singleton_inj.mp isZero)
  | one handle isKind single taken answers =>
      cases step with
      | drop holds =>
          refine .one handle isKind ?_ (taken.drop holds) ?_
          · rw [handles_snoc, single]
            rfl
          · intro other answer isCall
            rcases List.mem_append.mp isCall with before | last
            · exact answers other answer before
            · cases List.mem_singleton.mp last
      | get nonneg isInt32 got =>
          have answer := congrArg Prod.fst got
          refine .failed _ _ (List.mem_append_right _ (List.mem_singleton_self _)) ?_ ?_
          · intro pointer mHandle isProxy
            rcases later_call taken ⟨nonneg, isInt32⟩ with isNull | isFault
            · rw [isNull, isProxy] at answer
              cases answer
            · rw [isFault, isProxy] at answer
              cases answer
          · rw [handles_snoc, single]
            nofun
  | failed handle answer called wrong notZero =>
      refine .failed handle answer (List.mem_append_left _ called) wrong ?_
      intro isZero
      rw [handles_snoc] at isZero
      have isCall := handle_mem called
      rcases List.append_eq_singleton_iff.mp isZero with ⟨isNil, _⟩ | ⟨isZero, _⟩
      · rw [isNil] at isCall
        cases isCall
      · exact notZero isZero

theorem progress_of_run (run : Run TableStep .init events state) :
    Progress (fun _ => True) events state :=
  run.history_invariant _ (.start rfl rfl) fun progress step =>
    progress.step step fun _ _ _ _ _ => trivial

/-- A first call for a handle other than 0 stores its proxy in the entry of 0. -/
theorem Taken.isZero {answer : ProcessState.Answer} (taken : Taken next handle)
    (keeps : KeepsOthers .init (.get handle answer) next) : handle = 0 := by
  by_contra other
  obtain ⟨entries, holds, length, first⟩ := taken.table
  have kept := keeps handle answer 0 rfl ⟨Int.le_refl 0, by decide⟩ (Ne.symm other)
  have inTable : toSize 0 < next.process.mHandleToObject.mCount := by
    rw [holds.count, length]
    exact Nat.succ_pos _
  have entry : next.process.mHandleToObject.slot (toSize 0) = entries[0]? :=
    holds.slots 0 (by omega)
  rw [entryOf, if_pos inTable, entry, first] at kept
  cases kept

/-- Where each call keeps the entries of the others, a single call is for handle 0. -/
theorem progress_of_keeping (run : Run KeepingStep .init events state) :
    Progress (· = 0) events state := by
  apply run.history_invariant _ (.start rfl rfl)
  intro events state event next progress step
  apply progress.step step.1
  intro handle answer isInit isCall taken
  subst isInit isCall
  exact taken.isZero step.2

/-- A table of one entry keeps the entries of all other handles. -/
theorem Taken.keeps {answer : ProcessState.Answer} (taken : Taken next 0) :
    KeepsOthers .init (.get 0 answer) next := by
  intro handle answer other isCall isHandle differ
  cases isCall
  obtain ⟨entries, holds, length, _⟩ := taken.table
  have beyond : ¬ toSize other < next.process.mHandleToObject.mCount := by
    have size := toSize_eq isHandle.1 (by have bound := isHandle.2; omega)
    have nonneg := isHandle.1
    rw [holds.count, length]
    simp only [Int.toNat_zero]
    omega
  rw [entryOf, if_neg beyond]
  rfl

/-- A run with at most one call, for handle 0, keeps the entries of other handles. -/
theorem keeping_of_run (run : Run TableStep .init events state)
    (calls : handles events = [] ∨ handles events = [0]) : Run KeepingStep .init events state := by
  induction run with
  | nil => exact .nil
  | snoc earlier step ih =>
      rename_i events state next event
      rw [handles_snoc] at calls
      cases event with
      | drop pointer =>
          have earlierCalls : handles events = [] ∨ handles events = [0] := by
            simpa [handles] using calls
          exact (ih earlierCalls).snoc ⟨step, nofun⟩
      | get handle answer =>
          have single : handles events = [] ∧ handle = 0 := by
            rcases calls with none | one
            · simp [handles] at none
            · cases isNil : handles events with
              | nil =>
                  rw [isNil] at one
                  exact ⟨rfl, List.singleton_inj.mp one⟩
              | cons first rest =>
                  rw [isNil] at one
                  simp [handles] at one
          obtain ⟨isNil, rfl⟩ := single
          cases progress_of_run earlier with
          | start nothing isInit =>
              subst nothing isInit
              refine (ih (.inl isNil)).snoc ⟨step, ?_⟩
              cases step with
              | get nonneg isInt32 got =>
                  rcases first_call ⟨nonneg, isInt32⟩ with ⟨process, answered, taken⟩ | ⟨notZero, _⟩
                  · cases answered.symm.trans got
                    exact taken.keeps
                  · exact absurd rfl notZero
          | one handle isKind single taken answers => simp [isNil] at single
          | failed handle answer called =>
              have isHandle := handle_mem called
              rw [isNil] at isHandle
              cases isHandle

/-- The answer to a single call is right. -/
theorem answersRight_of_single (single : handles events = [handle])
    (answers : ∀ other answer, .get other answer ∈ events → answer = .proxy 0 other) :
    AnswersRight events where
  own := fun other answer called => ⟨0, answers other answer called⟩
  same := by
    intro before other pointer middle answer isPrefix _
    have fewer := (isPrefix.filterMap fun
      | .get handle _ => some handle
      | .drop _ => none).length_le
    have one : (handles events).length = 1 := by rw [single]; rfl
    simp only [handles] at one
    simp [List.filterMap_append, one] at fewer
    omega
  different := by
    intro first second pointer pointer' called called' differ
    have isFirst := handle_mem called
    have isSecond := handle_mem called'
    rw [single, List.mem_singleton] at isFirst isSecond
    exact absurd (isFirst.trans isSecond.symm) differ

theorem answersRight_nil : AnswersRight [] where
  own := nofun
  same := by
    intro before handle pointer middle answer isPrefix
    simp at isPrefix
  different := nofun

/-- For every sequence of calls for handles that are not negative, with any of the
results dropped in between: the answers are right and no call changes the entry of
another handle if and only if there is no call, or a single one, for handle 0. -/
theorem handle_table_correct_iff (run : Run TableStep .init events state) :
    (Run KeepingStep .init events state ∧ AnswersRight events) ↔
      handles events = [] ∨ handles events = [0] := by
  constructor
  · rintro ⟨keeping, right⟩
    cases progress_of_keeping keeping with
    | start nothing isInit =>
        left
        rw [nothing]
        rfl
    | one handle isZero single taken answers =>
        right
        rw [single, isZero]
    | failed handle answer called wrong notZero =>
        obtain ⟨pointer, isProxy⟩ := right.own handle answer called
        exact absurd isProxy (wrong pointer handle)
  · intro calls
    refine ⟨keeping_of_run run calls, ?_⟩
    cases progress_of_run run with
    | start nothing isInit =>
        subst nothing
        exact answersRight_nil
    | one handle isKind single taken answers => exact answersRight_of_single single answers
    | failed handle answer called wrong notZero =>
        rcases calls with none | one
        · have isHandle := handle_mem called
          rw [none] at isHandle
          cases isHandle
        · exact absurd one notZero

/-- One call for handle 0. -/
theorem handle_table_correct_one :
    ∃ state, Run KeepingStep .init [.get 0 (.proxy 0 0)] state ∧
      AnswersRight [.get 0 (.proxy 0 0)] := by
  have got : ProcessState.init.getStrongProxyForHandle 0 =
      (.proxy 0 0, (ProcessState.init.getStrongProxyForHandle 0).2) := Prod.ext (by decide) rfl
  have run : Run TableStep .init [.get 0 (.proxy 0 0)] _ :=
    .single (.get (Int.le_refl 0) (by decide) got)
  exact ⟨_, (handle_table_correct_iff run).mpr (.inr rfl)⟩

/-- A second call, for handle 1, returns a null pointer. -/
theorem second_handle_null :
    ∃ state, Run TableStep .init [.get 0 (.proxy 0 0), .get 1 .null] state ∧
      ¬ AnswersRight [.get 0 (.proxy 0 0), .get 1 .null] := by
  let first : ProcessState := (ProcessState.init.getStrongProxyForHandle 0).2
  have got : ProcessState.init.getStrongProxyForHandle 0 = (.proxy 0 0, first) :=
    Prod.ext (by decide) rfl
  have again : first.getStrongProxyForHandle 1 = (.null, (first.getStrongProxyForHandle 1).2) :=
    Prod.ext (by decide) rfl
  have firstCall : TableStep .init (.get 0 (.proxy 0 0)) { process := first, held := [0] } :=
    .get (Int.le_refl 0) (by decide) got
  refine ⟨_, .cons firstCall (.single (.get (by decide) (by decide) again)), ?_⟩
  intro right
  obtain ⟨_, isProxy⟩ := right.own 1 .null (by decide)
  cases isProxy

end Calls

end DroidKernal.Binder
