import DroidKernal.Binder.ThreadStates

/-!
# One IPCThreadState for each thread

Whatever the order of the steps, the key is created once and used after that only, and what
`self` returns to a thread is an object of that thread, which lives until the thread ends.
-/

namespace DroidKernal.Binder

open Lib

/-! ## What the threads rely on -/

namespace TlsPc

/-- Between the lock and the unlock. -/
def Locks : TlsPc → Prop
  | .check | .create | .store | .unlock _ => True
  | _ => False

/-- The thread has seen the key. -/
def Opened : TlsPc → Prop
  | .unlock created => created = true
  | .getspecific | .construct | .setspecific _ | .getOrNull => True
  | _ => False

/-- The thread is about to create the key, or to say so. -/
def Closed : TlsPc → Prop
  | .create | .store => True
  | _ => False

/-- The thread has nothing under the key. -/
def Empty : TlsPc → Prop
  | .construct | .setspecific _ | .destructor _ | .exited => True
  | _ => False

/-- The thread has ended. -/
def Leaving : TlsPc → Prop
  | .destructor _ | .exited => True
  | _ => False

/-- The object that the thread has in hand. -/
def inHand : TlsPc → Option Nat
  | .setspecific state | .destructor state => some state
  | _ => none

/-- The call that comes next needs the key. -/
def UsesKey : TlsPc → Prop
  | .getspecific | .setspecific _ | .getOrNull => True
  | _ => False

theorem UsesKey.opened {pc : TlsPc} (uses : pc.UsesKey) : pc.Opened := by
  cases pc with
  | getspecific | setspecific | getOrNull => exact trivial
  | _ => exact absurd uses id

end TlsPc

section Threads

variable {ι : Type*}

/-- The object is there, and was constructed by the thread. -/
def TlsShared.Owns (shared : TlsShared ι) (i : ι) (state : Nat) : Prop :=
  shared.states.Live state ∧ shared.states.block state = some i

/-- `pthread_setspecific` has failed in the thread. -/
def Forgot (events : List (TlsEvent ι)) (i : ι) : Prop := ∃ state, .forgets i state ∈ events

/-- What holds of a thread. -/
structure TlsThread.Fine (events : List (TlsEvent ι)) (shared : TlsShared ι) (i : ι)
    (thread : TlsThread) : Prop where
  locks : thread.pc.Locks ↔ shared.gTLSMutex = some i
  opened : thread.pc.Opened → shared.gHaveTLS = true
  closed : thread.pc.Closed → shared.gHaveTLS = false
  creates : thread.pc = .create → shared.keys = 0
  stores : thread.pc = .store → shared.keys = 1
  specific : ∀ state, thread.specific = some state → shared.Owns i state
  inHand : ∀ state, thread.pc.inHand = some state → shared.Owns i state
  empty : thread.pc.Empty → thread.specific = none
  result : ∀ state, thread.result = some state → ¬ thread.pc.Leaving → shared.Owns i state
  same : ∀ state, thread.result = some state → ¬ thread.pc.Leaving → ¬ Forgot events i →
    thread.specific = some state

/-- What a step of one thread leaves alone for the others. -/
structure TlsShared.Spares (i : ι) (shared after : TlsShared ι) : Prop where
  mutex : ∀ j, j ≠ i → (after.gTLSMutex = some j ↔ shared.gTLSMutex = some j)
  opened : shared.gHaveTLS = true → after.gHaveTLS = true
  locked : ∀ j, j ≠ i → shared.gTLSMutex = some j →
    after.gHaveTLS = shared.gHaveTLS ∧ after.keys = shared.keys
  owns : ∀ j, j ≠ i → ∀ state, shared.Owns j state → after.Owns j state

/-- Where a thread has an object, or that it has lost it. -/
def TlsThread.Has (events : List (TlsEvent ι)) (i : ι) (thread : TlsThread) (state : Nat) : Prop :=
  thread.specific = some state ∨ thread.pc.inHand = some state ∨ .forgets i state ∈ events

/-- What holds of the key and the objects. -/
structure TlsSystem.Kept (events : List (TlsEvent ι)) (system : TlsSystem ι) : Prop where
  opened : system.shared.gHaveTLS = true → system.shared.keys = 1
  unopened : system.shared.gHaveTLS = false → system.shared.keys ≠ 0 →
    ∃ j, (system.threads j).pc = .store
  sane : system.shared.states.Sane
  kept : ∀ state, system.shared.states.Live state →
    ∃ i, system.shared.states.block state = some i ∧ (system.threads i).Has events i state

variable {events : List (TlsEvent ι)} {event : TlsEvent ι} {shared after : TlsShared ι} {i j : ι}
  {tls next : TlsThread}

/-- The thread of a step. -/
def TlsEvent.thread : TlsEvent ι → ι
  | .accesses thread | .forgets thread _ => thread

theorem forgot_snoc (other : event.thread ≠ j) : Forgot (events ++ [event]) j ↔ Forgot events j := by
  constructor
  · rintro ⟨state, member⟩
    obtain before | isLast := List.mem_append.mp member
    · exact ⟨state, before⟩
    · cases List.mem_singleton.mp isLast
      exact absurd rfl other
  · rintro ⟨state, before⟩
    exact ⟨state, List.mem_append_left _ before⟩

theorem TlsThread.Fine.spared (fine : tls.Fine events shared j) (spares : shared.Spares i after)
    (isOther : j ≠ i) (isEvent : event.thread = i) : tls.Fine (events ++ [event]) after j where
  locks := fine.locks.trans (spares.mutex j isOther).symm
  opened pc := spares.opened (fine.opened pc)
  closed pc := by
    have isLocked : shared.gTLSMutex = some j := by
      apply fine.locks.mp
      revert pc
      cases tls.pc <;> simp [TlsPc.Closed, TlsPc.Locks]
    exact (spares.locked j isOther isLocked).1.trans (fine.closed pc)
  creates pc := by
    have isLocked : shared.gTLSMutex = some j := fine.locks.mp (by rw [pc]; exact trivial)
    exact (spares.locked j isOther isLocked).2.trans (fine.creates pc)
  stores pc := by
    have isLocked : shared.gTLSMutex = some j := fine.locks.mp (by rw [pc]; exact trivial)
    exact (spares.locked j isOther isLocked).2.trans (fine.stores pc)
  specific state isSpecific := spares.owns j isOther state (fine.specific state isSpecific)
  inHand state isInHand := spares.owns j isOther state (fine.inHand state isInHand)
  empty := fine.empty
  result state isResult staying := spares.owns j isOther state (fine.result state isResult staying)
  same state isResult staying never := by
    apply fine.same state isResult staying
    rwa [forgot_snoc (isEvent.trans_ne isOther.symm)] at never

/-! ## A step of a thread -/

theorem not_forgot_of_snoc (never : ¬ Forgot (events ++ [event]) i) : ¬ Forgot events i := by
  rintro ⟨state, before⟩
  exact never ⟨state, List.mem_append_left _ before⟩

theorem TlsShared.spares_rfl : shared.Spares i shared where
  mutex _ _ := Iff.rfl
  opened isOpen := isOpen
  locked _ _ _ := ⟨rfl, rfl⟩
  owns _ _ _ owns := owns

/-- A thread that only goes somewhere else. -/
theorem TlsThread.Fine.goto (fine : tls.Fine events shared i) {pc : TlsPc}
    (sameStates : after.states = shared.states) (locks : pc.Locks ↔ after.gTLSMutex = some i)
    (opened : pc.Opened → after.gHaveTLS = true) (closed : pc.Closed → after.gHaveTLS = false)
    (creates : pc = .create → after.keys = 0) (stores : pc = .store → after.keys = 1)
    (inHand : pc.inHand = none) (empty : pc.Empty → tls.specific = none)
    (staying : ¬ tls.pc.Leaving) :
    TlsThread.Fine (events ++ [event]) after i { tls with pc } where
  locks := locks
  opened := opened
  closed := closed
  creates := creates
  stores := stores
  specific state isSpecific := by
    rw [TlsShared.Owns, sameStates]
    exact fine.specific state isSpecific
  inHand state isInHand := by cases inHand.symm.trans isInHand
  empty := empty
  result state isResult _ := by
    rw [TlsShared.Owns, sameStates]
    exact fine.result state isResult staying
  same state isResult _ never := fine.same state isResult staying (not_forgot_of_snoc never)

/-- A thread that neither has the lock nor ends goes where nothing is in hand. -/
theorem TlsThread.Fine.wanders (fine : tls.Fine events shared i) {pc : TlsPc}
    (unlocked : ¬ tls.pc.Locks) (staying : ¬ tls.pc.Leaving) (free : ¬ pc.Locks)
    (opened : pc.Opened → shared.gHaveTLS = true) (inHand : pc.inHand = none)
    (empty : pc.Empty → tls.specific = none) :
    TlsThread.Fine (events ++ [event]) shared i { tls with pc } := by
  have notOurs : ¬ shared.gTLSMutex = some i := fun ours => unlocked (fine.locks.mpr ours)
  refine fine.goto rfl (iff_of_false free notOurs) opened ?_ ?_ ?_ inHand empty staying
  · cases pc with
    | create | store => exact absurd trivial free
    | _ => exact fun impossible => absurd impossible id
  · rintro rfl
    exact absurd trivial free
  · rintro rfl
    exact absurd trivial free

/-- What a thread does to the mutex and the flags concerns the others only if they have the
lock. -/
theorem TlsShared.spares_of_states (sameStates : after.states = shared.states)
    (mutex : ∀ j, j ≠ i → (after.gTLSMutex = some j ↔ shared.gTLSMutex = some j))
    (opened : shared.gHaveTLS = true → after.gHaveTLS = true)
    (locked : ∀ j, j ≠ i → shared.gTLSMutex = some j →
      after.gHaveTLS = shared.gHaveTLS ∧ after.keys = shared.keys) : shared.Spares i after where
  mutex := mutex
  opened := opened
  locked := locked
  owns _ _ _ owns := by rwa [TlsShared.Owns, sameStates]

/-- The owner of the lock may do what it likes to the flags. -/
theorem TlsShared.spares_of_locked (ours : shared.gTLSMutex = some i)
    (sameStates : after.states = shared.states) (sameMutex : after.gTLSMutex = shared.gTLSMutex)
    (opened : shared.gHaveTLS = true → after.gHaveTLS = true) : shared.Spares i after := by
  refine TlsShared.spares_of_states sameStates (fun _ _ => by rw [sameMutex]) opened ?_
  intro j isOther theirs
  exact absurd (Option.some.inj (theirs.symm.trans ours)) isOther

/-- A thread gets an object of its own from `self` or `selfOrNull`. -/
theorem TlsThread.Fine.gets (fine : tls.Fine events shared i) (unlocked : ¬ tls.pc.Locks)
    {specific result : Option Nat} (owned : ∀ state, specific = some state → shared.Owns i state)
    (kept : ∀ state, result = some state → shared.Owns i state)
    (same : ∀ state, result = some state → ¬ Forgot (events ++ [event]) i →
      specific = some state) :
    TlsThread.Fine (events ++ [event]) shared i ⟨.outside, specific, result⟩ where
  locks := iff_of_false id fun ours => unlocked (fine.locks.mpr ours)
  opened := False.elim
  closed := False.elim
  creates same := by cases same
  stores same := by cases same
  specific := owned
  inHand state isInHand := by cases isInHand
  empty := False.elim
  result state isResult _ := kept state isResult
  same state isResult _ := same state isResult

theorem TlsShared.Owns.construct (state : Nat) (owns : shared.Owns j state) :
    TlsShared.Owns { shared with states := shared.states.add (some i) } j state := by
  obtain ⟨live, isOwner⟩ := owns
  exact ⟨live.add, (Blocks.add_block live.ne_new).trans isOwner⟩

theorem TlsShared.spares_construct :
    shared.Spares i { shared with states := shared.states.add (some i) } where
  mutex _ _ := Iff.rfl
  opened isOpen := isOpen
  locked _ _ _ := ⟨rfl, rfl⟩
  owns _ _ state owns := owns.construct state

theorem TlsThread.Fine.construct {specific result : Option Nat}
    (fine : TlsThread.Fine events shared i ⟨.construct, specific, result⟩)
    (sane : shared.states.Sane) :
    TlsThread.Fine (events ++ [event]) { shared with states := shared.states.add (some i) } i
      ⟨.setspecific shared.states.allocated, specific, result⟩ where
  locks := iff_of_false id fun ours => fine.locks.mpr ours
  opened _ := fine.opened trivial
  closed := False.elim
  creates same := by cases same
  stores same := by cases same
  specific state isSpecific := (fine.specific state isSpecific).construct state
  inHand state isInHand := by
    cases isInHand
    exact ⟨sane.live_new, Blocks.add_block_new⟩
  empty _ := fine.empty trivial
  result state isResult _ := (fine.result state isResult id).construct state
  same state isResult _ never := fine.same state isResult id (not_forgot_of_snoc never)

theorem TlsThread.Fine.destructor {specific result : Option Nat} {state : Nat}
    (fine : TlsThread.Fine events shared i ⟨.destructor state, specific, result⟩) :
    TlsThread.Fine (events ++ [event]) { shared with states := shared.states.free state } i
      ⟨.exited, specific, result⟩ where
  locks := iff_of_false id fun ours => fine.locks.mpr ours
  opened := False.elim
  closed := False.elim
  creates same := by cases same
  stores same := by cases same
  specific state isSpecific := by cases (fine.empty trivial).symm.trans isSpecific
  inHand state isInHand := by cases isInHand
  empty _ := fine.empty trivial
  result _ _ staying := absurd trivial staying
  same _ _ staying := absurd trivial staying

/-- The others own other objects. -/
theorem TlsShared.Owns.spares_free {state : Nat} (owns : shared.Owns i state) :
    shared.Spares i { shared with states := shared.states.free state } where
  mutex _ _ := Iff.rfl
  opened isOpen := isOpen
  locked _ _ _ := ⟨rfl, rfl⟩
  owns j isOther other ownsOther := by
    refine ⟨Blocks.live_free.mpr ⟨ownsOther.1, ?_⟩, ownsOther.2⟩
    rintro rfl
    exact isOther (Option.some.inj (ownsOther.2.symm.trans owns.2))

variable [DecidableEq ι]

theorem TlsThread.Fine.advances (fine : tls.Fine events shared i) {succeeds : Bool}
    (sane : shared.states.Sane)
    (unopened : tls.pc = .check → shared.gHaveTLS = false → shared.keys = 0)
    (goes : tls.advance i shared succeeds = some (after, next)) :
    next.Fine (events ++ [tls.event i succeeds]) after i ∧ shared.Spares i after := by
  obtain ⟨pc, specific, result⟩ := tls
  cases pc with
  | outside | exited => cases goes
  | loadHave =>
      cases goes
      refine ⟨fine.wanders id id ?_ ?_ ?_ ?_, shared.spares_rfl⟩
      all_goals cases shared.gHaveTLS
      all_goals simp [TlsPc.Locks, TlsPc.Opened, TlsPc.inHand, TlsPc.Empty]
  | loadShutdown =>
      cases goes
      refine ⟨fine.wanders id id ?_ ?_ ?_ ?_, shared.spares_rfl⟩
      all_goals cases shared.gShutdown
      all_goals simp [TlsPc.Locks, TlsPc.Opened, TlsPc.inHand, TlsPc.Empty]
  | lock =>
      rw [advance] at goes
      cases isFree : shared.gTLSMutex with
      | some owner => simp [isFree] at goes
      | none =>
          simp only [isFree] at goes
          cases goes
          constructor
          · exact fine.goto rfl (iff_of_true trivial rfl) False.elim False.elim
              (fun same => by cases same) (fun same => by cases same) rfl False.elim id
          · refine TlsShared.spares_of_states rfl (fun j isOther => ?_) id fun _ _ _ => ⟨rfl, rfl⟩
            rw [isFree]
            simp [isOther.symm]
  | check =>
      cases goes
      have ours := fine.locks.mp trivial
      refine ⟨?_, shared.spares_rfl⟩
      cases isOpen : shared.gHaveTLS with
      | true =>
          exact fine.goto rfl (iff_of_true trivial ours) (fun _ => isOpen) False.elim
            (fun same => by cases same) (fun same => by cases same) rfl False.elim id
      | false =>
          exact fine.goto rfl (iff_of_true trivial ours) False.elim (fun _ => isOpen)
            (fun _ => unopened rfl isOpen) (fun same => by cases same) rfl False.elim id
  | create =>
      have ours := fine.locks.mp trivial
      have isClosed := fine.closed trivial
      cases succeeds with
      | true =>
          cases goes
          refine ⟨?_, TlsShared.spares_of_locked ours rfl rfl id⟩
          exact fine.goto rfl (iff_of_true trivial ours) False.elim (fun _ => isClosed)
            (fun same => by cases same) (fun _ => by rw [fine.creates rfl]) rfl False.elim id
      | false =>
          cases goes
          refine ⟨?_, shared.spares_rfl⟩
          exact fine.goto rfl (iff_of_true trivial ours) (fun same => by cases same) False.elim
            (fun same => by cases same) (fun same => by cases same) rfl False.elim id
  | store =>
      have ours := fine.locks.mp trivial
      cases goes
      refine ⟨?_, TlsShared.spares_of_locked ours rfl rfl fun _ => rfl⟩
      exact fine.goto rfl (iff_of_true trivial ours) (fun _ => rfl) False.elim
        (fun same => by cases same) (fun same => by cases same) rfl False.elim id
  | unlock created =>
      have ours := fine.locks.mp trivial
      cases goes
      constructor
      · cases created with
        | true =>
            exact fine.goto rfl (iff_of_false id fun none => by cases none)
              (fun _ => fine.opened rfl) False.elim
              (fun same => by cases same) (fun same => by cases same) rfl False.elim id
        | false =>
            exact fine.goto rfl (iff_of_false id fun none => by cases none) False.elim False.elim
              (fun same => by cases same) (fun same => by cases same) rfl False.elim id
      · refine TlsShared.spares_of_states rfl (fun j isOther => ?_) id fun _ _ _ => ⟨rfl, rfl⟩
        rw [ours]
        simp [isOther.symm]
  | getspecific =>
      rw [advance] at goes
      cases specific with
      | some state =>
          cases goes
          refine ⟨fine.gets id fine.specific ?_ fun _ isState _ => isState, shared.spares_rfl⟩
          exact fun other isState => fine.specific other isState
      | none =>
          cases goes
          exact ⟨fine.wanders id id id (fun _ => fine.opened trivial) rfl fun _ => rfl,
            shared.spares_rfl⟩
  | construct =>
      cases goes
      exact ⟨fine.construct sane, TlsShared.spares_construct⟩
  | setspecific state =>
      cases goes
      have owns := fine.inHand state rfl
      refine ⟨fine.gets id ?_ ?_ ?_, shared.spares_rfl⟩
      · cases succeeds with
        | true =>
            intro other isOther
            cases isOther
            exact owns
        | false => exact fine.specific
      · intro other isOther
        cases isOther
        exact owns
      · cases succeeds with
        | true => exact fun _ isState _ => isState
        | false =>
            intro other isOther never
            cases isOther
            exact absurd ⟨_, List.mem_append_right _ (List.mem_singleton_self _)⟩ never
  | loadOrNull =>
      cases goes
      refine ⟨fine.wanders id id ?_ ?_ ?_ ?_, shared.spares_rfl⟩
      all_goals cases shared.gHaveTLS
      all_goals simp [TlsPc.Locks, TlsPc.Opened, TlsPc.inHand, TlsPc.Empty]
  | getOrNull =>
      cases goes
      refine ⟨fine.gets id fine.specific ?_ ?_, shared.spares_rfl⟩
      · intro state isState
        cases specific with
        | some other => exact fine.specific state isState
        | none => exact fine.result state isState id
      · intro state isState never
        cases specific with
        | some other => exact isState
        | none => exact fine.same state isState id (not_forgot_of_snoc never)
  | destructor state =>
      cases goes
      exact ⟨fine.destructor, (fine.inHand state rfl).spares_free⟩

/-! ## The key and the objects -/

/-- What a step does to the objects. -/
inductive TlsThread.Objects (events : List (TlsEvent ι)) (event : TlsEvent ι) (i : ι)
    (shared : TlsShared ι) (tls : TlsThread) (after : TlsShared ι) (next : TlsThread) : Prop where
  | same (isSame : after.states = shared.states)
      (keeps : ∀ state, tls.Has events i state → next.Has (events ++ [event]) i state)
  | adds (isMore : after.states = shared.states.add (some i))
      (inHand : next.pc.inHand = some shared.states.allocated)
      (keeps : ∀ state, tls.Has events i state → next.Has (events ++ [event]) i state)
  | frees (state : Nat) (isLess : after.states = shared.states.free state)
      (inHand : tls.pc.inHand = some state)
      (keeps : ∀ other, other ≠ state → tls.Has events i other →
        next.Has (events ++ [event]) i other)

omit [DecidableEq ι] in
theorem TlsThread.Objects.sane (objects : TlsThread.Objects events event i shared tls after next)
    (fine : tls.Fine events shared i) (sane : shared.states.Sane) : after.states.Sane := by
  cases objects with
  | same isSame _ => rwa [isSame]
  | adds isMore _ _ =>
      rw [isMore]
      exact sane.add
  | frees state isLess inHand _ =>
      rw [isLess]
      exact sane.free (fine.inHand state inHand).1

omit [DecidableEq ι] in
theorem TlsThread.Has.snoc {state : Nat} (has : tls.Has events i state)
    (specific : tls.specific = some state → next.specific = some state)
    (inHand : tls.pc.inHand = some state → next.Has (events ++ [event]) i state) :
    next.Has (events ++ [event]) i state := by
  rcases has with isSpecific | isInHand | lost
  · exact .inl (specific isSpecific)
  · exact inHand isInHand
  · exact .inr (.inr (List.mem_append_left _ lost))

theorem TlsThread.advance_objects {succeeds : Bool}
    (empty : tls.pc.Empty → tls.specific = none)
    (goes : tls.advance i shared succeeds = some (after, next)) :
    TlsThread.Objects events (tls.event i succeeds) i shared tls after next := by
  obtain ⟨pc, specific, result⟩ := tls
  cases pc with
  | outside | exited => cases goes
  | loadHave | loadShutdown | check | store | unlock | loadOrNull | getOrNull =>
      cases goes
      exact .same rfl fun _ has => has.snoc id fun none => by cases none
  | lock =>
      rw [advance] at goes
      cases isFree : shared.gTLSMutex with
      | some owner => simp [isFree] at goes
      | none =>
          simp only [isFree] at goes
          cases goes
          exact .same rfl fun _ has => has.snoc id fun none => by cases none
  | create =>
      cases succeeds with
      | true | false =>
          cases goes
          exact .same rfl fun _ has => has.snoc id fun none => by cases none
  | getspecific =>
      cases specific with
      | some _ | none =>
          cases goes
          exact .same rfl fun _ has => has.snoc id fun none => by cases none
  | construct =>
      cases goes
      exact .adds rfl rfl fun _ has => has.snoc id fun none => by cases none
  | setspecific state =>
      cases goes
      refine .same rfl fun other has => has.snoc ?_ ?_
      · intro isSpecific
        cases (empty trivial).symm.trans isSpecific
      · intro isInHand
        cases isInHand
        cases succeeds with
        | true => exact .inl rfl
        | false => exact .inr (.inr (List.mem_append_right _ (List.mem_singleton_self _)))
  | destructor state =>
      cases goes
      refine .frees state rfl rfl fun other isOther has => has.snoc id fun isInHand => ?_
      exact absurd (Option.some.inj isInHand).symm isOther

/-- What a step does to the key. -/
theorem TlsThread.Fine.advances_key (fine : tls.Fine events shared i) {succeeds : Bool}
    (opened : shared.gHaveTLS = true → shared.keys = 1)
    (goes : tls.advance i shared succeeds = some (after, next)) :
    (after.gHaveTLS = true → after.keys = 1) ∧
      (after.gHaveTLS = false → after.keys ≠ 0 →
        next.pc = .store ∨ tls.pc ≠ .store ∧ shared.gHaveTLS = false ∧ shared.keys ≠ 0) := by
  obtain ⟨pc, specific, result⟩ := tls
  cases pc with
  | outside | exited => cases goes
  | loadHave | loadShutdown | check | unlock | loadOrNull | getOrNull | construct | setspecific
  | destructor =>
      cases goes
      exact ⟨opened, fun isClosed some => .inr ⟨fun same => (by cases same), isClosed, some⟩⟩
  | lock =>
      rw [advance] at goes
      cases isFree : shared.gTLSMutex with
      | some owner => simp [isFree] at goes
      | none =>
          simp only [isFree] at goes
          cases goes
          exact ⟨opened, fun isClosed some => .inr ⟨fun same => (by cases same), isClosed, some⟩⟩
  | getspecific =>
      cases specific with
      | some _ | none =>
          cases goes
          exact ⟨opened, fun isClosed some => .inr ⟨fun same => (by cases same), isClosed, some⟩⟩
  | create =>
      have isClosed := fine.closed trivial
      cases succeeds with
      | true =>
          cases goes
          refine ⟨fun isOpen => ?_, fun _ _ => .inl rfl⟩
          cases isClosed.symm.trans isOpen
      | false =>
          cases goes
          exact ⟨opened, fun isClosed some => .inr ⟨fun same => (by cases same), isClosed, some⟩⟩
  | store =>
      cases goes
      exact ⟨fun _ => fine.stores rfl, fun isClosed => by cases isClosed⟩

/-! ## All threads -/

/-- What holds of the process. -/
structure TlsSystem.Fine (events : List (TlsEvent ι)) (system : TlsSystem ι) : Prop where
  threads : ∀ i, (system.threads i).Fine events system.shared i
  kept : TlsSystem.Kept events system

variable {system final : TlsSystem ι}

omit [DecidableEq ι] in
theorem TlsSystem.fine_init : TlsSystem.Fine [] (TlsSystem.init ι) where
  threads i := {
    locks := iff_of_false id fun none => by cases none
    opened := False.elim
    closed := False.elim
    creates := fun same => by cases same
    stores := fun same => by cases same
    specific := fun _ none => by cases none
    inHand := fun _ none => by cases none
    empty := False.elim
    result := fun _ none => by cases none
    same := fun _ none => by cases none }
  kept := {
    opened := fun isOpen => by cases isOpen
    unopened := fun _ some => absurd rfl some
    sane := ⟨fun _ none => absurd none List.not_mem_nil, List.nodup_nil⟩
    kept := fun state live => absurd live.1 (Nat.not_lt_zero state) }

omit [DecidableEq ι] in
/-- Before the key is created, nobody stores that it is. -/
theorem TlsSystem.Fine.unopened (fine : system.Fine events) (check : (system.threads i).pc = .check)
    (isClosed : system.shared.gHaveTLS = false) : system.shared.keys = 0 := by
  by_contra some
  obtain ⟨j, stores⟩ := fine.kept.unopened isClosed some
  have ours := (fine.threads i).locks.mp (by rw [check]; exact trivial)
  have theirs := (fine.threads j).locks.mp (by rw [stores]; exact trivial)
  cases ours.symm.trans theirs
  cases check.symm.trans stores

omit [DecidableEq ι] in
theorem TlsThread.Has.later {state : Nat} (has : tls.Has events i state) :
    tls.Has (events ++ [event]) i state :=
  has.snoc id fun inHand => .inr (.inl inHand)

/-- One thread moves. -/
theorem TlsSystem.Fine.moves (fine : system.Fine events) (isEvent : event.thread = i)
    (isFine : next.Fine (events ++ [event]) after i) (spares : system.shared.Spares i after)
    (objects : TlsThread.Objects events event i system.shared (system.threads i) after next)
    (sane : after.states.Sane) (opened : after.gHaveTLS = true → after.keys = 1)
    (unopened : after.gHaveTLS = false → after.keys ≠ 0 → next.pc = .store ∨
      (system.threads i).pc ≠ .store ∧ system.shared.gHaveTLS = false ∧ system.shared.keys ≠ 0) :
    TlsSystem.Fine (events ++ [event]) (system.move i after next) where
  threads j := by
    by_cases isSelf : j = i
    · cases isSelf
      simpa [TlsSystem.move] using isFine
    · simpa [TlsSystem.move, isSelf] using (fine.threads j).spared spares isSelf isEvent
  kept := {
    opened := opened
    unopened := by
      intro isClosed some
      obtain stores | ⟨elsewhere, wasClosed, before⟩ := unopened isClosed some
      · exact ⟨i, by simpa [TlsSystem.move] using stores⟩
      · obtain ⟨j, stores⟩ := fine.kept.unopened wasClosed before
        have isOther : j ≠ i := by
          rintro rfl
          exact elsewhere stores
        exact ⟨j, by simpa [TlsSystem.move, isOther] using stores⟩
    sane := sane
    kept := by
      have old : ∀ state, system.shared.states.Live state →
          ((system.threads i).Has events i state → next.Has (events ++ [event]) i state) →
          ∃ j, system.shared.states.block state = some j ∧
            (Function.update system.threads i next j).Has (events ++ [event]) j state := by
        intro state live keeps
        obtain ⟨j, isOwner, has⟩ := fine.kept.kept state live
        refine ⟨j, isOwner, ?_⟩
        by_cases isSelf : j = i
        · cases isSelf
          rw [Function.update_self]
          exact keeps has
        · rw [Function.update_of_ne isSelf]
          exact has.later
      intro state live
      cases objects with
      | same isSame keeps =>
          change after.states.Live state at live
          change ∃ j, after.states.block state = some j ∧ _
          rw [isSame] at live ⊢
          exact old state live (keeps state)
      | adds isMore inHand keeps =>
          change after.states.Live state at live
          change ∃ j, after.states.block state = some j ∧ _
          rw [isMore] at live ⊢
          obtain isOld | rfl := (Blocks.live_add fine.kept.sane).mp live
          · rw [Blocks.add_block isOld.ne_new]
            exact old state isOld (keeps state)
          · refine ⟨i, Blocks.add_block_new, .inr (.inl ?_)⟩
            simpa [TlsSystem.move] using inHand
      | frees freed isLess inHand keeps =>
          change after.states.Live state at live
          change ∃ j, after.states.block state = some j ∧ _
          rw [isLess] at live ⊢
          obtain ⟨isOld, isOther⟩ := Blocks.live_free.mp live
          exact old state isOld (keeps state isOther) }

omit [DecidableEq ι] in
theorem TlsThread.event_thread (succeeds : Bool) : (tls.event i succeeds).thread = i := by
  obtain ⟨pc, _, _⟩ := tls
  cases pc <;> cases succeeds <;> rfl

omit [DecidableEq ι] in
theorem TlsThread.Fine.exit (fine : tls.Fine events shared i) (isOutside : tls.pc = .outside) :
    tls.exit.Fine (events ++ [event]) shared i := by
  have notOurs : ¬ shared.gTLSMutex = some i := fun ours => by
    have locks := fine.locks.mpr ours
    rw [isOutside] at locks
    exact locks
  have staying : ¬ tls.pc.Leaving := by
    rw [isOutside]
    exact id
  rw [TlsThread.exit]
  split
  next state isSpecific =>
    exact {
      locks := iff_of_false id notOurs
      opened := False.elim
      closed := False.elim
      creates := fun same => by cases same
      stores := fun same => by cases same
      specific := fun _ none => by cases none
      inHand := fun _ isInHand => by cases isInHand; exact fine.specific state isSpecific
      empty := fun _ => rfl
      result := fun _ _ staying => absurd trivial staying
      same := fun _ _ staying => absurd trivial staying }
  next isSpecific =>
    exact {
      locks := iff_of_false id notOurs
      opened := False.elim
      closed := False.elim
      creates := fun same => by cases same
      stores := fun same => by cases same
      specific := fun _ none => by cases isSpecific.symm.trans none
      inHand := fun _ none => by cases none
      empty := fun _ => isSpecific
      result := fun _ _ staying => absurd trivial staying
      same := fun _ _ staying => absurd trivial staying }

theorem TlsStep.fine (step : TlsStep system event final) (fine : system.Fine events) :
    final.Fine (events ++ [event]) := by
  have unchanged : ∀ {i : ι} {next : TlsThread}, (system.threads i).pc = .outside →
      system.shared.gHaveTLS = false → system.shared.keys ≠ 0 → next.pc = .store ∨
        (system.threads i).pc ≠ .store ∧ system.shared.gHaveTLS = false ∧
          system.shared.keys ≠ 0 := by
    intro i next isOutside isClosed some
    exact .inr ⟨fun same => (by cases isOutside.symm.trans same), isClosed, some⟩
  cases step with
  | @calls i pc isOutside entry =>
      have unlocked : ¬ (system.threads i).pc.Locks := by rw [isOutside]; exact id
      have staying : ¬ (system.threads i).pc.Leaving := by rw [isOutside]; exact id
      have isFine : TlsThread.Fine (events ++ [.accesses i]) system.shared i
          { system.threads i with pc } := by
        rcases entry with rfl | rfl
        · exact (fine.threads i).wanders unlocked staying id False.elim rfl False.elim
        · exact (fine.threads i).wanders unlocked staying id False.elim rfl False.elim
      refine fine.moves rfl isFine system.shared.spares_rfl (.same rfl fun _ has => ?_)
        fine.kept.sane fine.kept.opened (unchanged isOutside)
      refine has.snoc id fun isInHand => ?_
      rw [isOutside] at isInHand
      cases isInHand
  | @advances i succeeds shared next goes =>
      have isFine := fine.threads i
      obtain ⟨isNext, spares⟩ := isFine.advances fine.kept.sane (fine.unopened) goes
      obtain ⟨opened, unopened⟩ := isFine.advances_key fine.kept.opened goes
      have objects : TlsThread.Objects events _ _ _ _ _ _ :=
        TlsThread.advance_objects isFine.empty goes
      exact fine.moves (TlsThread.event_thread succeeds) isNext spares objects
        (objects.sane isFine fine.kept.sane) opened unopened
  | @exits i isOutside =>
      refine fine.moves rfl ((fine.threads i).exit isOutside) system.shared.spares_rfl
        (.same rfl fun state has => ?_) fine.kept.sane fine.kept.opened ?_
      · rcases has with isSpecific | isInHand | lost
        · rw [TlsThread.exit, isSpecific]
          exact .inr (.inl rfl)
        · rw [isOutside] at isInHand
          cases isInHand
        · exact .inr (.inr (List.mem_append_left _ lost))
      · exact unchanged isOutside

omit [DecidableEq ι] in
/-- The key is created by the owner of the lock. -/
theorem TlsSystem.Fine.keys_le (fine : system.Fine events) : system.shared.keys ≤ 1 := by
  cases isOpen : system.shared.gHaveTLS with
  | true => exact (fine.kept.opened isOpen).le
  | false =>
      by_contra more
      obtain ⟨j, stores⟩ := fine.kept.unopened isOpen fun none => more (none ▸ Nat.zero_le 1)
      exact more ((fine.threads j).stores stores).le

/-- In every run there is at most one key, which is there whenever it is used; no object is
deleted twice; what `self` returned last to a thread is an object of that thread as long as
the thread lives, and the next call returns the same unless `pthread_setspecific` has failed
in the thread; and a thread that has ended leaves no other objects than those. -/
theorem thread_states (run : Run TlsStep (TlsSystem.init ι) events system) :
    system.shared.keys ≤ 1 ∧
    (∀ i, (system.threads i).pc.UsesKey → system.shared.keys = 1) ∧
    system.shared.states.Sane ∧
    (∀ i state, (system.threads i).result = some state → ¬ (system.threads i).pc.Leaving →
      system.shared.Owns i state ∧
        (¬ Forgot events i → (system.threads i).specific = some state)) ∧
    (∀ state, system.shared.states.Live state → ∃ i, system.shared.states.block state = some i ∧
      ((system.threads i).pc = .exited → .forgets i state ∈ events)) := by
  have fine : system.Fine events :=
    run.history_invariant TlsSystem.Fine TlsSystem.fine_init fun fine step => step.fine fine
  refine ⟨fine.keys_le, ?_, fine.kept.sane, ?_, ?_⟩
  · intro i uses
    exact fine.kept.opened ((fine.threads i).opened uses.opened)
  · intro i state isResult staying
    exact ⟨(fine.threads i).result state isResult staying,
      (fine.threads i).same state isResult staying⟩
  · intro state live
    obtain ⟨i, isOwner, has⟩ := fine.kept.kept state live
    refine ⟨i, isOwner, fun exited => ?_⟩
    rcases has with isSpecific | inHand | lost
    · have empty := (fine.threads i).empty (by rw [exited]; exact trivial)
      cases empty.symm.trans isSpecific
    · rw [exited] at inHand
      cases inHand
    · exact lost

end Threads

/-- A thread creates the key and gets its object. -/
theorem thread_states_first :
    ∃ events system, Run TlsStep (TlsSystem.init (Fin 2)) events system ∧
      (system.threads 0).result = some 0 ∧ system.shared.keys = 1 ∧ system.shared.Owns 0 0 := by
  have start : TlsStep (TlsSystem.init (Fin 2)) (.accesses 0) _ := .calls rfl (.inl rfl)
  have goOn : ∀ {events : List (TlsEvent (Fin 2))} {system : TlsSystem (Fin 2)} {shared thread},
      Run TlsStep (TlsSystem.init (Fin 2)) events system →
      (system.threads 0).advance 0 system.shared true = some (shared, thread) →
        Run TlsStep (TlsSystem.init (Fin 2)) _ _ := fun run goes => run.snoc (.advances goes)
  have opened := goOn (goOn (goOn (goOn (.single start) rfl) rfl) rfl) rfl
  have created := goOn (goOn (goOn opened rfl) rfl) rfl
  have run := goOn (goOn (goOn created rfl) rfl) rfl
  obtain ⟨-, -, -, returned, -⟩ := thread_states run
  exact ⟨_, _, run, rfl, rfl, (returned 0 0 rfl id).1⟩

end DroidKernal.Binder
