import DroidKernal.Binder.DriverFds

/-!
# Every descriptor has one owner

A `ProcessState` uses and closes the descriptor that it has opened itself, and no other, as
long as it is open.  What is left open behind it is at most descriptor 0, which the destructor
does not close.
-/

namespace DroidKernal.Binder

open Lib

namespace ProcessPc

/-- The descriptor that the object has. -/
def descriptor : ProcessPc → Option Nat
  | .unborn | .open | .gone => none
  | .version fd | .closeFailed fd | .mmap fd | .closeUnmapped fd => some fd
  | .closeMismatch fd | .maxThreads fd | .publish fd | .alive fd | .destructor fd => fd

/-- Under construction. -/
def Building : ProcessPc → Prop
  | .unborn | .alive _ | .destructor _ | .gone => False
  | _ => True

/-- Constructed, and not destroyed. -/
def Alive : ProcessPc → Prop
  | .alive _ => True
  | _ => False

end ProcessPc

section Objects

variable {ι D : Type*} {shared after : FdShared ι} {object other : ι} {pc next : ProcessPc}

/-- The object has opened this descriptor, and no other. -/
def FdShared.Owns (shared : FdShared ι) (object : ι) (descriptor : Option Nat) : Prop :=
  ∀ fd, shared.fds fd = some (some object) ↔ descriptor = some fd

/-- What holds of an object, also when its last reference was dropped just now. -/
structure ProcessObject.Sound (shared : FdShared ι) (object : ι) (state : ProcessObject D) :
    Prop where
  owns : state.pc ≠ .gone → shared.Owns object state.pc.descriptor
  gone : state.pc = .gone → ∀ fd, shared.fds fd = some (some object) → fd = 0
  building : state.pc.Building ↔ shared.gProcessMutex = some object
  current : shared.gProcess = some object → state.pc.Alive
  held : 0 < state.holders → state.pc.Alive

/-- What holds of an object. -/
structure ProcessObject.Fine (shared : FdShared ι) (object : ι) (state : ProcessObject D) : Prop
    extends state.Sound shared object where
  idle : state.pc.Alive → state.holders = 0 → shared.gProcess = some object

/-- What holds of the program. -/
structure FdSystem.Fine (system : FdSystem ι D) : Prop where
  objects : ∀ object, (system.threads object).Fine system.shared object
  stray : system.shared.stray = false

/-- The descriptors of the other objects stay. -/
def FdShared.Spares (object : ι) (shared after : FdShared ι) : Prop :=
  ∀ other, other ≠ object → ∀ fd,
    (after.fds fd = some (some other) ↔ shared.fds fd = some (some other))

theorem FdShared.spares_update {fd : Nat} {owner : Option (Option ι)}
    (before : ∀ other, other ≠ object → shared.fds fd ≠ some (some other))
    (behind : ∀ other, other ≠ object → owner ≠ some (some other))
    (isAfter : after.fds = Function.update shared.fds fd owner) : shared.Spares object after := by
  intro other isOther fd'
  rw [isAfter]
  by_cases same : fd' = fd
  · rw [same, Function.update_self]
    exact iff_of_false (behind other isOther) (before other isOther)
  · rw [Function.update_of_ne same]

variable [DecidableEq ι]

/-- A system call on a descriptor of one's own. -/
theorem FdShared.use_own {fd : Nat} (own : shared.fds fd = some (some object)) :
    shared.use object fd = shared := by
  simp [FdShared.use, own]

/-- What a step of an object does to the descriptors. -/
structure FdShared.Moves (object : ι) (shared : FdShared ι) (next : ProcessPc)
    (after : FdShared ι) : Prop where
  owns : next ≠ .gone → after.Owns object next.descriptor
  gone : next = .gone → ∀ fd, after.fds fd = some (some object) → fd = 0
  spares : shared.Spares object after
  stray : after.stray = shared.stray
  gProcess : after.gProcess = shared.gProcess
  gProcessMutex : after.gProcessMutex = shared.gProcessMutex

omit [DecidableEq ι] in
/-- No descriptor is opened or closed. -/
theorem FdShared.Owns.stays (owns : shared.Owns object pc.descriptor) (notGone : next ≠ .gone)
    (same : next.descriptor = pc.descriptor) : shared.Moves object next shared where
  owns _ := by rwa [same]
  gone isGone := absurd isGone notGone
  spares _ _ _ := Iff.rfl
  stray := rfl
  gProcess := rfl
  gProcessMutex := rfl

/-- The descriptor is closed, if there is one. -/
theorem FdShared.Owns.closes {fd : Option Nat} (owns : shared.Owns object fd)
    (none : next.descriptor = none) : shared.Moves object next (shared.close object fd) := by
  cases fd with
  | none =>
      have nothing : shared.Owns object next.descriptor := by rwa [none]
      exact {
        owns := fun _ => nothing
        gone := fun _ fd own => by cases (owns fd).mp own
        spares := fun _ _ _ => Iff.rfl
        stray := rfl
        gProcess := rfl
        gProcessMutex := rfl }
  | some fd =>
      have own := (owns fd).mpr rfl
      have closed : shared.close object (some fd) =
          { shared with fds := Function.update shared.fds fd Option.none } := by
        rw [FdShared.close, FdShared.use_own own]
      have noneOwned : ∀ fd',
          ¬ Function.update shared.fds fd Option.none fd' = some (some object) := by
        intro fd' owned
        by_cases same : fd' = fd
        · rw [same, Function.update_self] at owned
          cases owned
        · rw [Function.update_of_ne same] at owned
          exact same (Option.some.inj ((owns fd').mp owned)).symm
      rw [closed]
      exact {
        owns := fun _ fd' => by
          rw [none]
          exact iff_of_false (noneOwned fd') fun same => by cases same
        gone := fun _ fd' owned => absurd owned (noneOwned fd')
        spares := by
          refine FdShared.spares_update (fun other isOther theirs => ?_)
            (fun other _ same => by cases same) rfl
          exact isOther (Option.some.inj (Option.some.inj (theirs.symm.trans own)))
        stray := rfl
        gProcess := rfl
        gProcessMutex := rfl }

omit [DecidableEq ι] in
/-- An unused descriptor is taken. -/
theorem FdShared.Owns.opens (owns : shared.Owns object none) {fd : Nat}
    (unused : shared.fds fd = none) (notGone : next ≠ .gone)
    (isNew : next.descriptor = some fd) :
    shared.Moves object next (shared.opened (some object) fd) where
  owns _ fd' := by
    rw [isNew]
    change Function.update shared.fds fd (some (some object)) fd' = _ ↔ _
    by_cases same : fd' = fd
    · rw [same, Function.update_self]
      exact iff_of_true rfl rfl
    · rw [Function.update_of_ne same]
      refine iff_of_false (fun owned => ?_) fun isSame => same (Option.some.inj isSame).symm
      cases (owns fd').mp owned
  gone isGone := absurd isGone notGone
  spares := by
    refine FdShared.spares_update (fun _ _ theirs => ?_) (fun other isOther same => ?_) rfl
    · cases unused.symm.trans theirs
    · exact isOther (Option.some.inj (Option.some.inj same)).symm
  stray := rfl
  gProcess := rfl
  gProcessMutex := rfl

theorem FdAdvance.moves (goes : FdAdvance object shared pc after next)
    (owns : shared.Owns object pc.descriptor) : shared.Moves object next after := by
  cases goes with
  | opens unused => exact owns.opens unused (fun same => by cases same) rfl
  | openFails | maxThreadsFails => exact owns.stays (fun same => by cases same) rfl
  | @versionFails fd | @versionMismatch fd | @version fd | @maxThreads fd | @mmap fd
  | @mmapFails fd =>
      rw [FdShared.use_own ((owns fd).mpr rfl)]
      exact owns.stays (fun same => by cases same) rfl
  | closeFailed | closeMismatch | closeUnmapped => exact owns.closes rfl
  | @destructor fd =>
      split
      next isZero =>
        exact {
          owns := fun notGone => absurd rfl notGone
          gone := fun _ fd' own => by
            rw [isZero] at owns
            exact (Option.some.inj ((owns fd').mp own)).symm
          spares := fun _ _ _ => Iff.rfl
          stray := rfl
          gProcess := rfl
          gProcessMutex := rfl }
      next notZero => exact owns.closes rfl

/-! ## The objects -/

omit [DecidableEq ι] in
/-- An object that does nothing itself. -/
theorem ProcessObject.Sound.spared {state : ProcessObject D} (sound : state.Sound shared other)
    (isOther : other ≠ object) (spares : shared.Spares object after)
    (gProcess : after.gProcess = some other → shared.gProcess = some other)
    (gProcessMutex : after.gProcessMutex = some other ↔ shared.gProcessMutex = some other) :
    state.Sound after other where
  owns notGone fd := (spares other isOther fd).trans (sound.owns notGone fd)
  gone isGone fd own := sound.gone isGone fd ((spares other isOther fd).mp own)
  building := sound.building.trans gProcessMutex.symm
  current isCurrent := sound.current (gProcess isCurrent)
  held := sound.held

/-- One object changes. -/
theorem FdSystem.Fine.moves {system : FdSystem ι D} {state : ProcessObject D}
    (fine : system.Fine) (isFine : state.Fine after object)
    (spares : system.shared.Spares object after) (stray : after.stray = false)
    (gProcess : ∀ other, other ≠ object →
      (after.gProcess = some other ↔ system.shared.gProcess = some other))
    (gProcessMutex : ∀ other, other ≠ object →
      (after.gProcessMutex = some other ↔ system.shared.gProcessMutex = some other)) :
    (system.move object after state).Fine where
  objects other := by
    by_cases same : other = object
    · cases same
      simpa [FdSystem.move] using isFine
    · have sound := (fine.objects other).toSound.spared same spares (gProcess other same).mp
        (gProcessMutex other same)
      have isOther : (system.threads other).Fine after other := {
        toSound := sound
        idle := fun alive unheld =>
          (gProcess other same).mpr ((fine.objects other).idle alive unheld) }
      simpa [FdSystem.move, same] using isOther
  stray := stray

/-- Only the counts of the references to an object change. -/
theorem FdSystem.Fine.holds {system : FdSystem ι D} (fine : system.Fine)
    (alive : (system.threads object).pc.Alive) {holders : Nat} (some : holders ≠ 0) :
    (system.move object system.shared { system.threads object with holders }).Fine := by
  have isFine := fine.objects object
  refine fine.moves ?_ (fun _ _ _ => Iff.rfl) fine.stray (fun _ _ => Iff.rfl) fun _ _ => Iff.rfl
  exact {
    owns := isFine.owns
    gone := isFine.gone
    building := isFine.building
    current := isFine.current
    held := fun _ => alive
    idle := fun _ none => absurd none some }

/-- The last reference to an object may have been dropped, and that object is destroyed. -/
theorem FdSystem.release_fine {system : FdSystem ι D}
    (others : ∀ other, other ≠ object → (system.threads other).Fine system.shared other)
    (sound : (system.threads object).Sound system.shared object)
    (notCurrent : system.shared.gProcess ≠ some object) (stray : system.shared.stray = false) :
    (system.release object).Fine := by
  have kept : (¬ (system.threads object).pc.Alive ∨ (system.threads object).holders ≠ 0) →
      system.Fine := by
    intro either
    refine ⟨fun other => ?_, stray⟩
    by_cases same : other = object
    · cases same
      refine ⟨sound, fun alive unheld => ?_⟩
      rcases either with dead | held
      · exact absurd alive dead
      · exact absurd unheld held
    · exact others other same
  rw [release]
  split
  next fd isAlive =>
    split
    next unheld =>
      have isGoing : ProcessObject.Fine system.shared object
          { system.threads object with pc := .destructor fd } := {
        owns := fun _ => by
          have owns := sound.owns (by rw [isAlive]; exact fun same => by cases same)
          rwa [isAlive] at owns
        gone := fun isGone => by cases isGone
        building := by
          have building := sound.building
          rw [isAlive] at building
          exact iff_of_false id building.mpr
        current := fun isCurrent => absurd isCurrent notCurrent
        held := fun held => absurd unheld held.ne'
        idle := False.elim }
      refine ⟨fun other => ?_, stray⟩
      by_cases same : other = object
      · cases same
        simpa [move] using isGoing
      · simpa [move, same] using others other same
    next held => exact kept (.inr held)
  next notAlive =>
    refine kept (.inl fun alive => ?_)
    cases isPc : (system.threads object).pc with
    | alive fd => exact notAlive fd isPc
    | _ =>
        rw [isPc] at alive
        exact alive

theorem FdAdvance.building (goes : FdAdvance object shared pc after next) :
    (next.Building ↔ pc.Building) ∧ ¬ pc.Alive ∧ ¬ next.Alive := by
  cases goes <;> exact ⟨Iff.rfl, id, id⟩

theorem FdSystem.Fine.advances {system : FdSystem ι D} (fine : system.Fine)
    (goes : FdAdvance object system.shared (system.threads object).pc after next) :
    (system.move object after { system.threads object with pc := next }).Fine := by
  have isFine := fine.objects object
  obtain ⟨building, notAlive, notNext⟩ := goes.building
  have moves := goes.moves (isFine.owns fun isGone => by rw [isGone] at goes; cases goes)
  refine fine.moves ?_ moves.spares (moves.stray.trans fine.stray)
    (fun _ _ => by rw [moves.gProcess]) fun _ _ => by rw [moves.gProcessMutex]
  exact {
    owns := moves.owns
    gone := moves.gone
    building := by
      rw [moves.gProcessMutex, ← isFine.building]
      exact building
    current := fun isCurrent => by
      rw [moves.gProcess] at isCurrent
      exact absurd (isFine.current isCurrent) notAlive
    held := fun held => absurd (isFine.held held) notAlive
    idle := fun alive => absurd alive notNext }

/-- A new object is constructed under the lock. -/
theorem FdSystem.Fine.begins {system : FdSystem ι D} (fine : system.Fine)
    (unlocked : system.shared.gProcessMutex = none)
    (isNew : (system.threads object).pc = .unborn) (name : Option D) :
    (system.move object { system.shared with gProcessMutex := some object }
      { pc := .open, mDriverName := name, holders := 0 }).Fine := by
  have isFine := fine.objects object
  refine fine.moves ?_ (fun _ _ _ => Iff.rfl) fine.stray (fun _ _ => Iff.rfl) ?_
  · exact {
      owns := fun _ => by
        have owns := isFine.owns (by rw [isNew]; exact fun same => by cases same)
        rwa [isNew] at owns
      gone := fun isGone => by cases isGone
      building := iff_of_true trivial rfl
      current := fun isCurrent => by
        have alive := isFine.current isCurrent
        rw [isNew] at alive
        exact absurd alive id
      held := fun none => absurd none (Nat.lt_irrefl 0)
      idle := False.elim }
  · intro other isOther
    rw [unlocked]
    refine iff_of_false (fun same => ?_) fun none => by cases none
    exact isOther (Option.some.inj same).symm

theorem FdSystem.Fine.publish {system : FdSystem ι D} (fine : system.Fine) {fd : Option Nat}
    (isBuilt : (system.threads object).pc = .publish fd) : (system.publish object fd).Fine := by
  have isFine := fine.objects object
  have ours : system.shared.gProcessMutex = some object :=
    isFine.building.mp (by rw [isBuilt]; exact trivial)
  have isPublished : ProcessObject.Fine
      { system.shared with gProcess := some object, gProcessMutex := none } object
      { system.threads object with pc := .alive fd, holders := 1 } := {
    owns := fun _ => by
      have owns := isFine.owns (by rw [isBuilt]; exact fun same => by cases same)
      rwa [isBuilt] at owns
    gone := fun isGone => by cases isGone
    building := iff_of_false id fun none => by cases none
    current := fun _ => trivial
    held := fun _ => trivial
    idle := fun _ none => by cases none }
  have sound : ∀ other, other ≠ object → (system.threads other).Sound
      { system.shared with gProcess := some object, gProcessMutex := none } other := by
    intro other isOther
    refine (fine.objects other).toSound.spared isOther (fun _ _ _ => Iff.rfl) ?_ ?_
    · intro same
      exact absurd (Option.some.inj same).symm isOther
    · refine iff_of_false (fun none => by cases none) fun theirs => ?_
      exact isOther (Option.some.inj (theirs.symm.trans ours))
  -- only the old `gProcess` loses a reference
  have others : ∀ other, other ≠ object → system.shared.gProcess ≠ some other →
      (system.threads other).Fine
        { system.shared with gProcess := some object, gProcessMutex := none } other :=
    fun other isOther notOld => {
      toSound := sound other isOther
      idle := fun alive unheld => absurd ((fine.objects other).idle alive unheld) notOld }
  rw [FdSystem.publish]
  cases isOld : system.shared.gProcess with
  | none =>
      refine ⟨fun other => ?_, fine.stray⟩
      by_cases same : other = object
      · cases same
        simpa [move] using isPublished
      · have isOther := others other same (by rw [isOld]; exact fun none => by cases none)
        simpa [move, same] using isOther
  | some old =>
      have isOther : old ≠ object := by
        rintro rfl
        have alive := isFine.current isOld
        rw [isBuilt] at alive
        exact alive
      refine release_fine (fun other notOld => ?_) ?_ ?_ fine.stray
      · by_cases same : other = object
        · cases same
          simpa [move] using isPublished
        · have isFine' := others other same (by
            rw [isOld]
            exact fun same => notOld (Option.some.inj same).symm)
          simpa [move, same] using isFine'
      · simpa [move, isOther] using sound old isOther
      · exact fun same => isOther (Option.some.inj same).symm

/-- A reference other than `gProcess` goes away. -/
theorem FdSystem.Fine.drop {system : FdSystem ι D} (fine : system.Fine)
    (alive : (system.threads object).pc.Alive)
    (notCurrent : system.shared.gProcess ≠ some object) (holders : Nat) :
    ((system.move object system.shared
      { system.threads object with holders }).release object).Fine := by
  have isFine := fine.objects object
  refine release_fine (fun other isOther => ?_) ?_ notCurrent fine.stray
  · simpa [move, isOther] using fine.objects other
  · have isSound : ProcessObject.Sound system.shared object
        { system.threads object with holders } := {
      owns := isFine.owns
      gone := isFine.gone
      building := isFine.building
      current := isFine.current
      held := fun _ => alive }
    simpa [move] using isSound

omit [DecidableEq ι] in
/-- Only the rest of the program opens or closes a descriptor. -/
theorem FdSystem.Fine.others {system : FdSystem ι D} (fine : system.Fine) {fd : Nat}
    {owner : Option (Option ι)}
    (before : ∀ object, system.shared.fds fd ≠ some (some object))
    (behind : ∀ object, owner ≠ some (some object)) :
    FdSystem.Fine { system with
      shared := { system.shared with fds := Function.update system.shared.fds fd owner } } where
  objects object := by
    have same : ∀ fd', Function.update system.shared.fds fd owner fd' = some (some object) ↔
        system.shared.fds fd' = some (some object) := by
      intro fd'
      by_cases isSame : fd' = fd
      · rw [isSame, Function.update_self]
        exact iff_of_false (behind object) (before object)
      · rw [Function.update_of_ne isSame]
    have isFine := fine.objects object
    exact {
      owns := fun notGone fd' => (same fd').trans (isFine.owns notGone fd')
      gone := fun isGone fd' own => isFine.gone isGone fd' ((same fd').mp own)
      building := isFine.building
      current := isFine.current
      held := isFine.held
      idle := isFine.idle }
  stray := fine.stray

theorem FdStep.fine {defaultDriver : D} {system next : FdSystem ι D} {event : FdEvent ι D}
    (step : FdStep defaultDriver system event next) (fine : system.Fine) : next.Fine := by
  cases step with
  | @selfFound object _ isFound | @initFound object _ _ isFound =>
      exact fine.holds ((fine.objects object).current isFound) (Nat.succ_ne_zero _)
  | selfNew unlocked _ isNew => exact fine.begins unlocked isNew _
  | initNew unlocked _ isNew => exact fine.begins unlocked isNew _
  | advances goes => exact fine.advances goes
  | publishes isBuilt => exact fine.publish isBuilt
  | @copies object isHeld =>
      exact fine.holds ((fine.objects object).held isHeld) (Nat.succ_ne_zero _)
  | @drops object isHeld =>
      have alive := (fine.objects object).held isHeld
      dsimp only
      split
      next isCurrent =>
        have isFine := fine.objects object
        refine fine.moves ?_ (fun _ _ _ => Iff.rfl) fine.stray (fun _ _ => Iff.rfl)
          fun _ _ => Iff.rfl
        exact {
          owns := isFine.owns
          gone := isFine.gone
          building := isFine.building
          current := isFine.current
          held := fun _ => alive
          idle := fun _ _ => isCurrent }
      next notCurrent => exact fine.drop alive notCurrent _
  | @uses object fd isHeld isOpen =>
      have owns := (fine.objects object).owns (by rw [isOpen]; exact fun same => by cases same)
      rw [isOpen] at owns
      rw [FdShared.use_own ((owns fd).mpr rfl)]
      exact fine
  | othersOpen unused =>
      refine fine.others (fun _ theirs => ?_) fun _ same => by cases same
      cases unused.symm.trans theirs
  | othersClose isTheirs =>
      refine fine.others (fun _ theirs => ?_) fun _ same => by cases same
      cases isTheirs.symm.trans theirs

omit [DecidableEq ι] in
theorem FdSystem.init_fine (fds : Nat → Bool) : (FdSystem.init fds : FdSystem ι D).Fine where
  objects object := {
    owns := fun _ fd => by
      refine iff_of_false (fun own => ?_) fun same => by cases same
      change (if fds fd then some none else none) = some (some object) at own
      split at own <;> cases own
    gone := fun isGone => by cases isGone
    building := iff_of_false id fun none => by cases none
    current := fun none => by cases none
    held := fun none => absurd none (Nat.lt_irrefl 0)
    idle := False.elim }
  stray := rfl

/-- In every run, a `ProcessState` uses and closes only a descriptor that it has opened itself
and that is open still.  It lives exactly as long as something refers to it; until its
destructor is through, exactly the descriptor in its hands is open; and behind the destructor
nothing is left open, descriptor 0 apart. -/
theorem process_descriptors {defaultDriver : D} {fds : Nat → Bool} {events : List (FdEvent ι D)}
    {system : FdSystem ι D} (run : Run (FdStep defaultDriver) (FdSystem.init fds) events system) :
    system.shared.stray = false ∧
    (∀ object, (system.threads object).pc.Alive ↔
      system.shared.gProcess = some object ∨ 0 < (system.threads object).holders) ∧
    (∀ object, (system.threads object).pc ≠ .gone → ∀ fd,
      system.shared.fds fd = some (some object) ↔
        (system.threads object).pc.descriptor = some fd) ∧
    (∀ object, (system.threads object).pc = .gone → ∀ fd,
      system.shared.fds fd = some (some object) → fd = 0) := by
  have fine : system.Fine :=
    run.invariant FdSystem.Fine (FdSystem.init_fine fds) fun fine step => step.fine fine
  refine ⟨fine.stray, fun object => ?_, fun object => (fine.objects object).owns,
    fun object => (fine.objects object).gone⟩
  constructor
  · intro alive
    rcases Nat.eq_zero_or_pos (system.threads object).holders with unheld | isHeld
    · exact .inl ((fine.objects object).idle alive unheld)
    · exact .inr isHeld
  · rintro (isCurrent | isHeld)
    · exact (fine.objects object).current isCurrent
    · exact (fine.objects object).held isHeld

end Objects

/-- The default driver is opened, and then another one, which destroys the first object. -/
theorem process_descriptors_replaced :
    ∃ events, ∃ system : FdSystem Bool String,
      Run (FdStep "/dev/binder") (FdSystem.init fun fd => fd < 3) events system ∧
      (system.threads false).pc = .gone ∧ system.shared.gProcess = some true ∧
      system.shared.fds 3 = none ∧ system.shared.fds 4 = some (some true) ∧
      system.shared.stray = false := by
  have goOn : ∀ {events} {system : FdSystem Bool String} (object : Bool) {shared pc},
      Run (FdStep "/dev/binder") (FdSystem.init fun fd => fd < 3) events system →
      FdAdvance object system.shared (system.threads object).pc shared pc →
        Run (FdStep "/dev/binder") (FdSystem.init fun fd => fd < 3) _ _ :=
    fun _ _ _ run goes => run.snoc (.advances goes)
  have start : FdStep "/dev/binder" (FdSystem.init fun fd => fd < 3) (.self false) _ :=
    .selfNew rfl rfl rfl
  have opened := goOn false (.single start) (@FdAdvance.opens _ _ _ _ 3 rfl)
  have mapped := goOn false (goOn false (goOn false opened .version) .maxThreads) .mmap
  have published := mapped.snoc (@FdStep.publishes _ _ _ _ _ false _ rfl)
  have dropped := published.snoc (@FdStep.drops _ _ _ _ _ false Nat.one_pos)
  have again := dropped.snoc (@FdStep.initNew _ _ _ _ _ true "/dev/vndbinder" rfl
    (fun found isFound => by cases isFound; decide) rfl true)
  have reopened := goOn true again (@FdAdvance.opens _ _ _ _ 4 rfl)
  have remapped := goOn true (goOn true (goOn true reopened .version) .maxThreads) .mmap
  have replaced := remapped.snoc (@FdStep.publishes _ _ _ _ _ true _ rfl)
  have run := goOn false replaced .destructor
  obtain ⟨stray, -, owned, -⟩ := process_descriptors run
  refine ⟨_, _, run, rfl, rfl, ?_, (owned true (fun same => by cases same) 4).mpr rfl, stray⟩
  rfl

end DroidKernal.Binder
