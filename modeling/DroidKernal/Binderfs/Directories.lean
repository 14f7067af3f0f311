import DroidKernal.Binderfs.DeviceNames
import DroidKernal.Binderfs.Erasure

/-!
# What is in the directory of a mount

A mount that is complete holds `binder-control`, then the devices that the module was told
to create, and then those that were added to it, whatever other tasks do to this mount and
to others.  A mount that cannot be completed is killed.
-/

namespace DroidKernal.Binderfs

open Lib

/-! ## Where a task is with its mount -/

/-- The names in the directory of a mount. -/
def Mount.names (mount : Mount) : List (List UInt8) := mount.root.map Dentry.name

/-- The mount that a task fills, and the names that are still to come. -/
def Progress.pending : Progress → Option (Nat × List (List UInt8))
  | requesting sb name (.fillSuper rest) | numbered sb name (.fillSuper rest) _ =>
      some (sb, name :: rest)
  | ready sb (.fillSuper rest) _ device => some (sb, device.name :: rest)
  | filling sb rest => some (sb, rest)
  | controlling sb rest | controlled sb rest _ => some (sb, controlName :: rest)
  | _ => none

/-- The mount that a task is about to give its `binder-control`. -/
def Progress.controls : Progress → Option Nat
  | controlling sb _ | controlled sb _ _ => some sb
  | _ => none

/-- The error that a request is about to return. -/
def Progress.error : Progress → Option Int
  | failing _ _ ret _ _ | abandoning _ _ ret _ => some ret
  | _ => none

/-- The mount that a task is about to empty. -/
def Progress.kills : Progress → Option Nat
  | killing sb _ => some sb
  | _ => none

/-- The mounts are as far as a task relies on. -/
structure Fits (names : List (List UInt8)) (fs : Filesystem) (place : Progress) : Prop where
  pending : ∀ sb rest, place.pending = some (sb, rest) →
    (fs.mounts sb).names ++ rest = controlName :: names
  controls : ∀ sb, place.controls = some sb → (fs.mounts sb).names = []
  fills : ∀ sb, place.fills = some sb → (fs.mounts sb).status = .filling
  requests : ∀ sb, place.request = some (sb, .ctlIoctl) → (fs.mounts sb).status = .mounted
  kills : ∀ sb, place.kills = some sb → (fs.mounts sb).status = .killed
  error : ∀ ret, place.error = some ret → ret < 0

/-- A complete mount. -/
def Mount.Complete (names : List (List UInt8)) (mount : Mount) : Prop :=
  ∃ added, mount.names = controlName :: names ++ added

section Places

variable {names : List (List UInt8)} {fs next : Filesystem} {place after : Progress} {sb : Nat}

theorem Progress.pending_fills {rest : List (List UInt8)}
    (isPending : place.pending = some (sb, rest)) : place.fills = some sb := by
  cases place with
  | requesting _ _ caller =>
      cases caller with
      | ctlIoctl => cases isPending
      | fillSuper _ => cases isPending; rfl
  | numbered _ _ caller _ =>
      cases caller with
      | ctlIoctl => cases isPending
      | fillSuper _ => cases isPending; rfl
  | ready _ caller _ _ =>
      cases caller with
      | ctlIoctl => cases isPending
      | fillSuper _ => cases isPending; rfl
  | failing _ _ _ _ _ => cases isPending
  | abandoning _ _ _ _ => cases isPending
  | controlling _ _ => cases isPending; rfl
  | controlled _ _ _ => cases isPending; rfl
  | filling _ _ => cases isPending; rfl
  | _ => cases isPending

theorem Progress.controls_fills (isController : place.controls = some sb) :
    place.fills = some sb := by
  cases place with
  | controlling _ _ => exact isController
  | controlled _ _ _ => exact isController
  | _ => cases isController

theorem Progress.request_mount {caller : Caller} (isRequest : place.request = some (sb, caller)) :
    place.mount = some sb := by
  cases place <;> cases isRequest <;> rfl

theorem Progress.kills_mount (isKiller : place.kills = some sb) : place.mount = some sb := by
  cases place with
  | killing _ _ => exact isKiller
  | _ => cases isKiller

/-- A task relies on little of a mount that it does not fill. -/
theorem Fits.other (fits : Fits names fs place)
    (status : ∀ sb, place.mount = some sb → (next.mounts sb).status = (fs.mounts sb).status)
    (root : ∀ sb, place.fills = some sb → (next.mounts sb).names = (fs.mounts sb).names) :
    Fits names next place where
  pending sb rest isPending := by
    rw [root sb (Progress.pending_fills isPending)]
    exact fits.pending sb rest isPending
  controls sb isController := by
    rw [root sb (Progress.controls_fills isController)]
    exact fits.controls sb isController
  fills sb isFiller := by
    rw [status sb (Progress.fills_mount isFiller)]
    exact fits.fills sb isFiller
  requests sb isRequest := by
    rw [status sb (Progress.request_mount isRequest)]
    exact fits.requests sb isRequest
  kills sb isKiller := by
    rw [status sb (Progress.kills_mount isKiller)]
    exact fits.kills sb isKiller
  error := fits.error

/-- A task that relies on no more than before. -/
theorem Fits.less (fits : Fits names fs place)
    (pending : ∀ sb rest, after.pending = some (sb, rest) → place.pending = some (sb, rest))
    (controls : ∀ sb, after.controls = some sb → place.controls = some sb)
    (fills : ∀ sb, after.fills = some sb → place.fills = some sb)
    (requests : ∀ sb, after.request = some (sb, .ctlIoctl) → place.request = some (sb, .ctlIoctl))
    (kills : ∀ sb, after.kills = some sb → place.kills = some sb)
    (error : ∀ ret, after.error = some ret → ret < 0) : Fits names fs after where
  pending sb rest isPending := fits.pending sb rest (pending sb rest isPending)
  controls sb isController := fits.controls sb (controls sb isController)
  fills sb isFiller := fits.fills sb (fills sb isFiller)
  requests sb isRequest := fits.requests sb (requests sb isRequest)
  kills sb isKiller := fits.kills sb (kills sb isKiller)
  error := error

/-- A task that relies on nothing. -/
theorem Fits.free (mount : after.mount = none) (error : after.error = none) :
    Fits names fs after where
  pending sb rest isPending := by
    have isMount := Progress.fills_mount (Progress.pending_fills isPending)
    rw [mount] at isMount
    cases isMount
  controls sb isController := by
    have isMount := Progress.fills_mount (Progress.controls_fills isController)
    rw [mount] at isMount
    cases isMount
  fills sb isFiller := by
    have isMount := Progress.fills_mount isFiller
    rw [mount] at isMount
    cases isMount
  requests sb isRequest := by
    have isMount := Progress.request_mount isRequest
    rw [mount] at isMount
    cases isMount
  kills sb isKiller := by
    have isMount := Progress.kills_mount isKiller
    rw [mount] at isMount
    cases isMount
  error ret isError := by
    rw [error] at isError
    cases isError

/-- A task that empties a mount. -/
theorem Fits.killing {ret : Int} (status : (fs.mounts sb).status = .killed) :
    Fits names fs (.killing sb ret) where
  pending other rest isPending := by cases isPending
  controls other isController := by cases isController
  fills other isFiller := by cases isFiller
  requests other isRequest := by cases isRequest
  kills other isKiller := by
    cases isKiller
    exact status
  error error isError := by cases isError

/-- A task between two devices of the module. -/
theorem Fits.filling {rest : List (List UInt8)} (status : (fs.mounts sb).status = .filling)
    (held : (fs.mounts sb).names ++ rest = controlName :: names) :
    Fits names fs (.filling sb rest) where
  pending other rest isPending := by
    cases isPending
    exact held
  controls other isController := by cases isController
  fills other isFiller := by
    cases isFiller
    exact status
  requests other isRequest := by cases isRequest
  kills other isKiller := by cases isKiller
  error error isError := by cases isError

/-- After an error. -/
theorem Fits.resume {caller : Caller} {ret : Int} (fits : Fits names fs place)
    (isRequest : place.request = some (sb, caller)) (negative : ret < 0) :
    Fits names fs (caller.resume sb ret) := by
  cases caller with
  | ctlIoctl => exact .free rfl rfl
  | fillSuper rest =>
      rw [Caller.resume, if_neg (Int.ne_of_lt negative)]
      apply fits.less
      · intro other rest isPending
        cases isPending
      · intro other isController
        cases isController
      · rintro other ⟨⟩
        exact Progress.fills_request isRequest
      · intro other isRequest
        cases isRequest
      · intro other isKiller
        cases isKiller
      · intro error isError
        cases isError

theorem SameRoots.mountNames (same : SameRoots fs next) (sb : Nat) :
    (next.mounts sb).names = (fs.mounts sb).names :=
  congrArg (List.map Dentry.name) (same.root sb)

theorem SameRoots.iput {inode : Option Inode} : SameRoots fs (iput fs sb inode) := by
  cases inode with
  | none => exact .refl
  | some inode =>
      rw [Binderfs.iput, evictInode]
      split
      next =>
        split
        next => exact .refl
        next => exact .giveBack
      next => exact .refl

end Places

/-! ## Interleavings -/

variable {ι : Type*} [DecidableEq ι] {binderfsDev : UInt32} {names : List (List UInt8)}
  {system next : Tasks ι} {event : BinderfsEvent ι} {events : List (BinderfsEvent ι)}

/-- The directories fit the places of all tasks. -/
structure Directories (names : List (List UInt8)) (system : Tasks ι) : Prop where
  fits : ∀ task, Fits names system.shared (system.threads task)
  alone : ∀ task other sb, (system.threads task).fills = some sb →
    (system.threads other).fills = some sb → other = task
  born : ∀ task sb, (system.threads task).mount = some sb → sb < system.shared.mountCount
  mounted : ∀ sb, (system.shared.mounts sb).status = .mounted →
    (system.shared.mounts sb).Complete names
  distinct : ∀ sb, (system.shared.mounts sb).names.Nodup

omit [DecidableEq ι] in
theorem Directories.init : Directories names (Tasks.init ι) where
  fits task := .free rfl rfl
  alone task other sb isFiller := by cases isFiller
  born task sb isMount := by cases isMount
  mounted sb isMounted := by cases isMounted
  distinct _ := List.nodup_nil

/-- A task moves. -/
theorem Directories.goto (directories : Directories names system) {task : ι} {fs : Filesystem}
    {after : Progress} (count : system.shared.mountCount ≤ fs.mountCount)
    (others : ∀ other, other ≠ task → Fits names fs (system.threads other))
    (fits : Fits names fs after)
    (fills : ∀ sb, after.fills = some sb →
      (system.threads task).fills = some sb ∨ system.shared.mountCount ≤ sb)
    (born : ∀ sb, after.mount = some sb → sb < fs.mountCount)
    (mounted : ∀ sb, (fs.mounts sb).status = .mounted → (fs.mounts sb).Complete names)
    (distinct : ∀ sb, (fs.mounts sb).names.Nodup) :
    Directories names (system.goto task fs after) := by
  have self : (system.goto task fs after).threads task = after := Function.update_self ..
  have same : ∀ {other}, other ≠ task →
      (system.goto task fs after).threads other = system.threads other :=
    fun differ => Function.update_of_ne differ ..
  -- nobody else fills the mount that the task fills
  have only : ∀ sb other, other ≠ task → after.fills = some sb →
      (system.threads other).fills ≠ some sb := by
    intro sb other differ isFiller otherFills
    obtain already | fresh := fills sb isFiller
    · exact differ (directories.alone task other sb already otherFills)
    · exact absurd (directories.born other sb (Progress.fills_mount otherFills))
        (Nat.not_lt.mpr fresh)
  constructor
  · intro other
    by_cases isTask : other = task
    · rw [isTask, self]
      exact fits
    · rw [same isTask]
      exact others other isTask
  · intro first second sb isFirst isSecond
    by_cases firstTask : first = task
    · by_cases secondTask : second = task
      · rw [firstTask, secondTask]
      · rw [firstTask, self] at isFirst
        rw [same secondTask] at isSecond
        exact absurd isSecond (only sb second secondTask isFirst)
    · by_cases secondTask : second = task
      · rw [secondTask, self] at isSecond
        rw [same firstTask] at isFirst
        exact absurd isFirst (only sb first firstTask isSecond)
      · rw [same firstTask] at isFirst
        rw [same secondTask] at isSecond
        exact directories.alone first second sb isFirst isSecond
  · intro other sb isMount
    by_cases isTask : other = task
    · rw [isTask, self] at isMount
      exact born sb isMount
    · rw [same isTask] at isMount
      exact Nat.lt_of_lt_of_le (directories.born other sb isMount) count
  · exact mounted
  · exact distinct

/-! ### Sections that leave the directories alone -/

section Sections

variable {task : ι} {place after : Progress} {fs : Filesystem} {sb : Nat}

/-- A section after which a task relies on no more. -/
theorem Directories.stays (directories : Directories names system)
    (isPlace : system.threads task = place) (same : SameRoots system.shared fs)
    (fits : Fits names system.shared after)
    (fills : ∀ sb, after.fills = some sb → place.fills = some sb)
    (mount : ∀ sb, after.mount = some sb → place.mount = some sb) :
    Directories names (system.goto task fs after) := by
  apply directories.goto (Nat.le_of_eq same.count.symm)
  · intro other _
    exact (directories.fits other).other (fun sb _ => same.status sb) fun sb _ => same.mountNames sb
  · exact fits.other (fun sb _ => same.status sb) fun sb _ => same.mountNames sb
  · intro sb isFiller
    rw [isPlace]
    exact .inl (fills sb isFiller)
  · intro sb isMount
    rw [same.count]
    exact directories.born task sb (isPlace ▸ mount sb isMount)
  · intro sb isMounted
    rw [same.status] at isMounted
    obtain ⟨added, complete⟩ := directories.mounted sb isMounted
    exact ⟨added, by rw [same.mountNames, complete]⟩
  · intro sb
    rw [same.mountNames]
    exact directories.distinct sb

omit [DecidableEq ι] in
theorem Directories.fits_place (directories : Directories names system)
    (isPlace : system.threads task = place) : Fits names system.shared place :=
  isPlace ▸ directories.fits task

/-- A step inside of a request. -/
theorem Directories.requests (directories : Directories names system)
    (isPlace : system.threads task = place) (same : SameRoots system.shared fs) {caller : Caller}
    (isRequest : place.request = some (sb, caller)) (stays : after.request = some (sb, caller))
    (pending : ∀ sb rest, after.pending = some (sb, rest) → place.pending = some (sb, rest))
    (error : ∀ ret, after.error = some ret → ret < 0) :
    Directories names (system.goto task fs after) := by
  have fills : ∀ sb, after.fills = some sb → place.fills = some sb :=
    fun _ isFiller => Progress.fills_stays isRequest stays isFiller
  apply directories.stays isPlace same
  · apply (directories.fits_place isPlace).less pending
    · intro other isController
      cases after <;> cases stays <;> cases isController
    · exact fills
    · intro other isOther
      rw [isRequest, ← stays]
      exact isOther
    · intro other isKiller
      cases after <;> cases stays <;> cases isKiller
    · exact error
  · exact fills
  · intro other isMount
    rw [Progress.request_mount isRequest, ← Progress.request_mount stays]
    exact isMount

/-- A request that fails. -/
theorem Directories.fails (directories : Directories names system)
    (isPlace : system.threads task = place) (same : SameRoots system.shared fs) {caller : Caller}
    {ret : Int} (isRequest : place.request = some (sb, caller)) (negative : ret < 0) :
    Directories names (system.goto task fs (caller.resume sb ret)) := by
  apply directories.stays isPlace same
    ((directories.fits_place isPlace).resume isRequest negative)
  · intro other isFiller
    obtain ⟨rfl, rest, rfl⟩ := Caller.resume_fills isFiller
    exact Progress.fills_request isRequest
  · intro other isMount
    rw [Progress.request_mount isRequest]
    exact Caller.resume_mount isMount

/-- A task that gives its mount up. -/
theorem Directories.unfills (directories : Directories names system)
    (isPlace : system.threads task = place) (same : SameRoots system.shared fs) {ret : Int}
    (isFiller : place.fills = some sb) :
    Directories names (system.goto task fs (.unfilled sb ret)) := by
  apply directories.stays isPlace same
  · apply (directories.fits_place isPlace).less
    · intro other rest isPending
      cases isPending
    · intro other isController
      cases isController
    · rintro other ⟨⟩
      exact isFiller
    · intro other isRequest
      cases isRequest
    · intro other isKiller
      cases isKiller
    · intro error isError
      cases isError
  · rintro other ⟨⟩
    exact isFiller
  · rintro other ⟨⟩
    exact Progress.fills_mount isFiller

/-- A section that asks for an id. -/
theorem Directories.take (directories : Directories names system) {minor : Int}
    (taken : Take system.shared (system.threads task) minor fs after) :
    Directories names (system.goto task fs after) := by
  generalize isPlace : system.threads task = place at taken
  cases taken with
  | @numbered _ sb name caller ida minor _ taken =>
      rcases takeMinor_cases taken with ⟨negative, _⟩ | ⟨_, _, _, rfl⟩
      · exact absurd negative (Int.not_lt.mpr (Int.natCast_nonneg _))
      · apply directories.requests isPlace (SameRoots.setMinor (.updateMount rfl rfl)) rfl rfl
        · intro other rest isPending
          cases caller <;> exact isPending
        · intro ret isError
          cases isError
  | @refused _ sb name caller ida ret _ taken negative =>
      rcases takeMinor_cases taken with ⟨_, rfl⟩ | ⟨nonneg, _⟩
      · exact directories.fails isPlace .refl rfl negative
      · exact absurd nonneg (Int.not_le.mpr negative)
  | @controlled _ sb rest ida minor _ taken =>
      obtain ⟨rfl, ⟨negative, _⟩ | ⟨_, rfl⟩⟩ := takeControlMinor_cases taken
      · exact absurd negative (Int.not_lt.mpr (Int.natCast_nonneg _))
      · apply directories.stays isPlace (SameRoots.setMinor .refl)
        · apply (directories.fits_place isPlace).less
          · exact fun _ _ isPending => isPending
          · exact fun _ isController => isController
          · exact fun _ isFiller => isFiller
          · exact fun _ isRequest => isRequest
          · exact fun _ isKiller => isKiller
          · intro error isError
            cases isError
        · exact fun _ isFiller => isFiller
        · exact fun _ isMount => isMount
  | @uncontrolled _ sb rest ida ret _ taken negative =>
      obtain ⟨_, ⟨_, rfl⟩ | ⟨nonneg, _⟩⟩ := takeControlMinor_cases taken
      · exact directories.unfills isPlace .refl rfl
      · exact absurd nonneg (Int.not_le.mpr negative)

/-! ### Sections that change them -/

/-- An entry comes to a directory. -/
def Filesystem.append (fs : Filesystem) (sb : Nat) (dentry : Dentry) : Filesystem :=
  fs.updateMount sb fun m => { m with root := m.root ++ [dentry] }

theorem append_names (dentry : Dentry) :
    ((fs.append sb dentry).mounts sb).names = (fs.mounts sb).names ++ [dentry.name] := by
  rw [Filesystem.append, updateMount_self, Mount.names, Mount.names, List.map_append]
  rfl

theorem append_status (dentry : Dentry) (other : Nat) :
    ((fs.append sb dentry).mounts other).status = (fs.mounts other).status :=
  updateMount_field Mount.status rfl other

/-- A task adds an entry to a mount; nobody else fills that mount. -/
theorem Directories.append (directories : Directories names system)
    (isPlace : system.threads task = place) (isMount : place.mount = some sb) (dentry : Dentry)
    (fresh : dentry.name ∉ (system.shared.mounts sb).names)
    (others : ∀ other, other ≠ task → (system.threads other).fills ≠ some sb)
    (fits : Fits names (system.shared.append sb dentry) after)
    (fills : ∀ sb, after.fills = some sb → place.fills = some sb)
    (mount : ∀ other, after.mount = some other → some sb = some other) :
    Directories names (system.goto task (system.shared.append sb dentry) after) := by
  have count : system.shared.mountCount ≤ (system.shared.append sb dentry).mountCount :=
    Nat.le_refl _
  apply directories.goto count
  · intro other differ
    apply (directories.fits other).other
    · exact fun sb _ => append_status dentry sb
    · intro sb' isFiller
      have elsewhere : sb' ≠ sb := fun same => others other differ (same ▸ isFiller)
      rw [Filesystem.append, updateMount_other elsewhere]
  · exact fits
  · intro other isFiller
    rw [isPlace]
    exact .inl (fills other isFiller)
  · intro other isMount'
    cases mount other isMount'
    exact directories.born task sb (isPlace ▸ isMount)
  · intro other isMounted
    rw [append_status] at isMounted
    obtain ⟨added, complete⟩ := directories.mounted other isMounted
    by_cases here : other = sb
    · cases here
      exact ⟨added ++ [dentry.name], by rw [append_names, complete, List.append_assoc]⟩
    · rw [Filesystem.append, updateMount_other here]
      exact ⟨added, complete⟩
  · intro other
    by_cases here : other = sb
    · cases here
      rw [append_names, ← List.concat_eq_append]
      exact (directories.distinct sb).concat fresh
    · rw [Filesystem.append, updateMount_other here]
      exact directories.distinct other

/-- What a task can be at work on a mount for. -/
theorem Progress.mount_cases (isMount : place.mount = some sb) :
    place.fills = some sb ∨ place.request = some (sb, .ctlIoctl) ∨ place.kills = some sb := by
  cases place with
  | requesting _ _ caller =>
      cases caller with
      | ctlIoctl => cases isMount; exact .inr (.inl rfl)
      | fillSuper _ => exact .inl isMount
  | numbered _ _ caller _ =>
      cases caller with
      | ctlIoctl => cases isMount; exact .inr (.inl rfl)
      | fillSuper _ => exact .inl isMount
  | ready _ caller _ _ =>
      cases caller with
      | ctlIoctl => cases isMount; exact .inr (.inl rfl)
      | fillSuper _ => exact .inl isMount
  | failing _ caller _ _ _ =>
      cases caller with
      | ctlIoctl => cases isMount; exact .inr (.inl rfl)
      | fillSuper _ => exact .inl isMount
  | abandoning _ caller _ _ =>
      cases caller with
      | ctlIoctl => cases isMount; exact .inr (.inl rfl)
      | fillSuper _ => exact .inl isMount
  | killing _ _ => exact .inr (.inr isMount)
  | idle => cases isMount
  | returning _ => cases isMount
  | controlling _ _ => exact .inl isMount
  | controlled _ _ _ => exact .inl isMount
  | filling _ _ => exact .inl isMount
  | unfilled _ _ => exact .inl isMount

omit [DecidableEq ι] in
/-- Nobody else is at work on a mount that a task fills. -/
theorem Directories.elsewhere (directories : Directories names system)
    (isPlace : system.threads task = place) (isFiller : place.fills = some sb) {other : ι}
    (differ : other ≠ task) : (system.threads other).mount ≠ some sb := by
  intro isMount
  have filling := (directories.fits_place isPlace).fills sb isFiller
  obtain fills | request | kills := Progress.mount_cases isMount
  · exact differ (directories.alone task other sb (isPlace ▸ isFiller) fills)
  · rw [(directories.fits other).requests sb request] at filling
    cases filling
  · rw [(directories.fits other).kills sb kills] at filling
    cases filling

/-- A mount is complete, or it has failed. -/
theorem Directories.settles (directories : Directories names system)
    (isPlace : system.threads task = place) {status : MountStatus}
    (others : ∀ other, other ≠ task → (system.threads other).mount ≠ some sb)
    (fits : Fits names (system.shared.updateMount sb fun m => { m with status }) after)
    (fills : ∀ sb, after.fills ≠ some sb)
    (mount : ∀ other, after.mount = some other → place.mount = some other ∨
      other < system.shared.mountCount)
    (complete : status = .mounted → (system.shared.mounts sb).Complete names) :
    Directories names
      (system.goto task (system.shared.updateMount sb fun m => { m with status }) after) := by
  have count : system.shared.mountCount ≤
      (system.shared.updateMount sb fun m => { m with status }).mountCount := Nat.le_refl _
  apply directories.goto count
  · intro other differ
    have elsewhere : ∀ sb', (system.threads other).mount = some sb' → sb' ≠ sb :=
      fun sb' isMount same => others other differ (same ▸ isMount)
    apply (directories.fits other).other
    · intro sb' isMount
      rw [updateMount_other (elsewhere sb' isMount)]
    · intro sb' isFiller
      rw [updateMount_other (elsewhere sb' (Progress.fills_mount isFiller))]
  · exact fits
  · exact fun sb isFiller => absurd isFiller (fills sb)
  · intro other isMount
    obtain same | born := mount other isMount
    · exact directories.born task other (isPlace ▸ same)
    · exact born
  · intro other isMounted
    by_cases here : other = sb
    · cases here
      rw [updateMount_self] at isMounted ⊢
      exact complete isMounted
    · rw [updateMount_other here] at isMounted ⊢
      exact directories.mounted other isMounted
  · intro other
    by_cases here : other = sb
    · cases here
      rw [updateMount_self]
      exact directories.distinct sb
    · rw [updateMount_other here]
      exact directories.distinct other

/-- Any other section. -/
theorem Directories.advance (directories : Directories names system)
    (unabridged : ∀ name ∈ names, requestName name = name)
    (done : Advance binderfsDev system.shared (system.threads task) fs after) :
    Directories names (system.goto task fs after) := by
  generalize isPlace : system.threads task = place at done
  have before := directories.fits_place isPlace
  cases done with
  | @prepared sb minor name caller failure inode device done =>
      obtain ⟨rfl, rfl⟩ := prepareDevice_ok done
      apply directories.requests isPlace .refl rfl rfl
      · intro other rest isPending
        cases caller with
        | ctlIoctl => cases isPending
        | fillSuper rest =>
            cases isPending
            have held := before.pending sb (name :: rest) rfl
            have listed : name ∈ controlName :: names :=
              held ▸ List.mem_append_right _ List.mem_cons_self
            have whole : requestName name = name := by
              obtain rfl | listed := List.mem_cons.mp listed
              · decide
              · exact unabridged name listed
            rw [whole]
            rfl
      · intro ret isError
        cases isError
  | unprepared failed =>
      apply directories.requests isPlace .refl rfl rfl
      · intro other rest isPending
        cases isPending
      · rintro ret ⟨⟩
        exact (prepareDevice_error failed).1
  | @instantiated _ sb caller inode device lookup done =>
      obtain ⟨absent, rfl⟩ := instantiate_ok done
      have fresh : (deviceDentry inode device).name ∉ (system.shared.mounts sb).names := by
        intro member
        obtain ⟨dentry, isIn, sameName⟩ := List.mem_map.mp member
        exact absent dentry isIn sameName
      cases caller with
      | ctlIoctl =>
          apply directories.append isPlace rfl (deviceDentry inode device) fresh
          · intro other _ isFiller
            have filling := (directories.fits other).fills sb isFiller
            rw [before.requests sb rfl] at filling
            cases filling
          · exact .free rfl rfl
          · intro other isFiller
            cases isFiller
          · intro other isMount
            cases isMount
      | fillSuper rest =>
          rw [Caller.resume, if_pos rfl]
          apply directories.append isPlace rfl (deviceDentry inode device) fresh
          · intro other differ isFiller
            exact differ (directories.alone task other sb (isPlace ▸ rfl) isFiller)
          · apply Fits.filling
            · rw [append_status]
              exact before.fills sb rfl
            · rw [append_names, List.append_assoc]
              exact before.pending sb (device.name :: rest) rfl
          · exact fun _ isFiller => isFiller
          · exact fun _ isMount => isMount
  | uninstantiated negative failed =>
      apply directories.requests isPlace .refl rfl rfl
      · intro other rest isPending
        cases isPending
      · rintro ret ⟨⟩
        exact instantiate_error negative failed
  | givesBack =>
      apply directories.requests isPlace .giveBack rfl rfl
      · intro other rest isPending
        cases isPending
      · rintro ret ⟨⟩
        exact before.error _ rfl
  | puts => exact directories.fails isPlace .iput rfl (before.error _ rfl)
  | noControl => exact directories.unfills isPlace .refl rfl
  | noControlName => exact directories.unfills isPlace .iput rfl
  | @addsControl sb minor rest =>
      have empty := before.controls sb rfl
      rw [addControl_eq]
      apply directories.append isPlace rfl (controlDentry binderfsDev minor)
      · rw [empty]
        exact List.not_mem_nil
      · intro other differ isFiller
        exact differ (directories.alone task other sb (isPlace ▸ rfl) isFiller)
      · apply Fits.filling
        · rw [append_status]
          exact before.fills sb rfl
        · rw [append_names, List.append_assoc]
          exact before.pending sb (controlName :: rest) rfl
      · exact fun _ isFiller => isFiller
      · exact fun _ isMount => isMount
  | @fills sb name rest =>
      apply directories.stays isPlace .refl
      · apply before.less
        · exact fun _ _ isPending => isPending
        · intro other isController
          cases isController
        · exact fun _ isFiller => isFiller
        · intro other isRequest
          cases isRequest
        · intro other isKiller
          cases isKiller
        · intro error isError
          cases isError
      · exact fun _ isFiller => isFiller
      · exact fun _ isMount => isMount
  | @filled sb =>
      apply directories.settles isPlace fun other differ => directories.elsewhere isPlace rfl differ
      · exact .free rfl rfl
      · intro other isFiller
        cases isFiller
      · intro other isMount
        cases isMount
      · intro _
        have held := before.pending sb [] rfl
        exact ⟨[], by rw [List.append_nil, ← held, List.append_nil]⟩
  | @kills sb ret =>
      apply directories.settles isPlace fun other differ => directories.elsewhere isPlace rfl differ
      · exact .killing (congrArg Mount.status (updateMount_self _))
      · intro other isFiller
        cases isFiller
      · exact fun _ isMount => .inl isMount
      · intro isMounted
        cases isMounted
  | @evicts sb ret dentry rest first =>
      have killed := before.kills sb rfl
      have same : SameRoots (system.shared.updateMount sb fun m => { m with root := rest })
          (evictInode (system.shared.updateMount sb fun m => { m with root := rest }) sb
            dentry.inode) := (.iput : SameRoots _ (iput _ sb (some dentry.inode)))
      have status : ∀ other, ((system.shared.updateMount sb fun m => { m with root := rest }).mounts
          other).status = (system.shared.mounts other).status :=
        updateMount_field Mount.status rfl
      apply directories.goto (Nat.le_of_eq same.count.symm)
      · intro other _
        apply (directories.fits other).other
        · intro sb' _
          rw [same.status, status]
        · intro sb' isFiller
          have elsewhere : sb' ≠ sb := by
            rintro rfl
            rw [(directories.fits other).fills sb' isFiller] at killed
            cases killed
          rw [same.mountNames, updateMount_other elsewhere]
      · apply Fits.killing
        rw [same.status, status]
        exact killed
      · intro other isFiller
        cases isFiller
      · rintro other ⟨⟩
        rw [same.count]
        exact directories.born task sb (isPlace ▸ rfl)
      · intro other isMounted
        rw [same.status, status] at isMounted
        have elsewhere : other ≠ sb := by
          rintro rfl
          rw [killed] at isMounted
          cases isMounted
        obtain ⟨added, complete⟩ := directories.mounted other isMounted
        exact ⟨added, by rw [same.mountNames, updateMount_other elsewhere, complete]⟩
      · intro other
        rw [same.mountNames]
        by_cases here : other = sb
        · cases here
          have names := directories.distinct sb
          rw [Mount.names, first, List.map_cons] at names
          rw [updateMount_self]
          exact names.of_cons
        · rw [updateMount_other here]
          exact directories.distinct other
  | killed empty =>
      apply directories.stays isPlace .refl (.free rfl rfl)
      · intro other isFiller
        cases isFiller
      · intro other isMount
        cases isMount

/-- What one step preserves. -/
theorem Directories.step (directories : Directories names system)
    (unabridged : ∀ name ∈ names, requestName name = name)
    (taken : BinderfsStep binderfsDev names system event next) : Directories names next := by
  cases taken with
  | @mounts task isIdle useReserve max permitted =>
      have old : ∀ other, other ≠ system.shared.mountCount →
          (system.shared.mount useReserve max).mounts other = system.shared.mounts other :=
        fun other differ => Function.update_of_ne differ ..
      have fresh : (system.shared.mount useReserve max).mounts system.shared.mountCount =
          freshMount useReserve max := Function.update_self ..
      have count : system.shared.mountCount ≤ (system.shared.mount useReserve max).mountCount :=
        Nat.le_succ _
      apply directories.goto count
      · intro other _
        have isOld : ∀ sb, (system.threads other).mount = some sb → sb ≠ system.shared.mountCount :=
          fun sb isMount => Nat.ne_of_lt (directories.born other sb isMount)
        apply (directories.fits other).other
        · intro sb isMount
          rw [old sb (isOld sb isMount)]
        · intro sb isFiller
          rw [old sb (isOld sb (Progress.fills_mount isFiller))]
      · constructor
        · rintro sb rest ⟨⟩
          rw [fresh]
          rfl
        · rintro sb ⟨⟩
          rw [fresh]
          rfl
        · rintro sb ⟨⟩
          rw [fresh]
          rfl
        · intro sb isRequest
          cases isRequest
        · intro sb isKiller
          cases isKiller
        · intro ret isError
          cases isError
      · rintro sb ⟨⟩
        exact .inr (Nat.le_refl _)
      · rintro sb ⟨⟩
        exact Nat.lt_succ_self _
      · intro sb isMounted
        have isOld : sb ≠ system.shared.mountCount := by
          rintro rfl
          rw [fresh] at isMounted
          cases isMounted
        rw [old sb isOld] at isMounted ⊢
        exact directories.mounted sb isMounted
      · intro sb
        by_cases isOld : sb = system.shared.mountCount
        · cases isOld
          rw [fresh]
          exact List.nodup_nil
        · rw [old sb isOld]
          exact directories.distinct sb
  | @adds task sb isIdle isMounted name copied =>
      cases copied with
      | false =>
          apply directories.stays isIdle .refl (.free rfl rfl)
          · intro other isFiller
            cases isFiller
          · intro other isMount
            cases isMount
      | true =>
          apply directories.goto (Nat.le_refl _) fun other _ => directories.fits other
          · constructor
            · intro other rest isPending
              cases isPending
            · intro other isController
              cases isController
            · intro other isFiller
              cases isFiller
            · rintro other ⟨⟩
              exact isMounted.2
            · intro other isKiller
              cases isKiller
            · intro ret isError
              cases isError
          · intro other isFiller
            cases isFiller
          · rintro other ⟨⟩
            exact isMounted.1
          · exact directories.mounted
          · exact directories.distinct
  | takes taken => exact directories.take taken
  | advances done => exact directories.advance unabridged done
  | @returns task ret atEnd =>
      apply directories.stays atEnd .refl (.free rfl rfl)
      · intro other isFiller
        cases isFiller
      · intro other isMount
        cases isMount
  | @unmounts task sb isIdle isMounted unused =>
      apply directories.settles isIdle fun other _ => unused other
      · exact .killing (congrArg Mount.status (updateMount_self _))
      · intro other isFiller
        cases isFiller
      · rintro other ⟨⟩
        exact .inr isMounted.1
      · intro stillMounted
        cases stillMounted
  | @remounts sb isMounted max permitted =>
      have same : SameRoots system.shared (system.shared.updateMount sb fun m =>
          { m with max := max }) := .updateMount rfl rfl
      constructor
      · intro task
        exact (directories.fits task).other (fun sb _ => same.status sb)
          fun sb _ => same.mountNames sb
      · exact directories.alone
      · exact directories.born
      · intro other isMounted
        rw [same.status] at isMounted
        obtain ⟨added, complete⟩ := directories.mounted other isMounted
        exact ⟨added, by rw [same.mountNames, complete]⟩
      · intro other
        rw [same.mountNames]
        exact directories.distinct other

end Sections

/-- The names that the module is loaded with, if it loads, are the same for every mount and are
those between the commas, up to the first that is empty.  In every interleaving of mounts,
requests and unmounts, a mount that is complete holds `binder-control`, then these devices in
order, then the ones that were added to it; no two names in a directory are the same.  So a
list that names a device twice, or `binder-control`, lets no mount become complete. -/
theorem mounts_hold_devices {binderDevicesParam : CString}
    (loaded : initBinderfs binderDevicesParam = 0)
    (run : Run (BinderfsStep binderfsDev (fillSuperNames binderDevicesParam)) (Tasks.init ι)
      events system) (sb : Nat) :
    let listed := listedNames binderDevicesParam.bytes
    (∀ name ∈ listed, name.length ≤ binderfsMaxName) ∧
      (system.shared.mounts sb).names.Nodup ∧
      ((system.shared.mounts sb).status = .mounted →
        (∃ added, (system.shared.mounts sb).names = controlName :: listed ++ added) ∧
          (controlName :: listed).Nodup) := by
  intro listed
  have unabridged : ∀ name ∈ fillSuperNames binderDevicesParam, requestName name = name := by
    intro name member
    rw [fillSuperNames_eq] at member
    exact requestName_listed loaded member
  have directories : Directories (fillSuperNames binderDevicesParam) system :=
    run.invariant (Directories _) .init fun directories taken => directories.step unabridged taken
  refine ⟨(initBinderfs_eq_zero_iff _).mp loaded, directories.distinct sb, fun isMounted => ?_⟩
  obtain ⟨added, complete⟩ := directories.mounted sb isMounted
  rw [fillSuperNames_eq] at complete
  refine ⟨⟨added, complete⟩, ?_⟩
  have distinct := directories.distinct sb
  rw [complete] at distinct
  exact distinct.of_append_left

/-- The module is loaded with one device, `b`.  Two tasks mount it at the same time, and the
one that began last is the first to have its device. -/
theorem mounts_hold_devices_two :
    ∃ (events : List (BinderfsEvent Bool)) (system : Tasks Bool),
      Run (BinderfsStep 0 (fillSuperNames ⟨[98], by decide⟩)) (Tasks.init Bool) events system ∧
      ∀ sb < 2, (system.shared.mounts sb).status = .mounted ∧
        ∃ added, (system.shared.mounts sb).names = [controlName, [98]] ++ added := by
  let names := fillSuperNames ⟨[98], by decide⟩
  have starts : Run (BinderfsStep 0 names) (Tasks.init Bool) [.mounts false] _ :=
    .single (.mounts rfl true (by decide : (0 : Int) ≤ 1 ∧ (1 : Int) ≤ binderfsMaxMinor))
  have started := starts.snoc (show BinderfsStep 0 names _ (.mounts true) _ from
    .mounts rfl true (by decide : (0 : Int) ≤ 1 ∧ (1 : Int) ≤ binderfsMaxMinor))
  have numbers := started.snoc (show BinderfsStep 0 names _ (.takes false (0 : Nat)) _ from
    .takes (.controlled (.id rfl (by decide)) rfl))
  have numbered := numbers.snoc (show BinderfsStep 0 names _ (.takes true (1 : Nat)) _ from
    .takes (.controlled (.id rfl (by decide)) rfl))
  have controls := numbered.snoc (show BinderfsStep 0 names _ (.advances true) _ from
    .advances .addsControl)
  have controlled := controls.snoc (show BinderfsStep 0 names _ (.advances false) _ from
    .advances .addsControl)
  have requests := controlled.snoc (show BinderfsStep 0 names _ (.advances false) _ from
    .advances .fills)
  have requested := requests.snoc (show BinderfsStep 0 names _ (.advances true) _ from
    .advances .fills)
  have takes := requested.snoc (show BinderfsStep 0 names _ (.takes false (2 : Nat)) _ from
    .takes (.numbered (.id rfl (by decide)) (takeMinor_room (by exact Int.le_refl 1) 2)))
  have taken := takes.snoc (show BinderfsStep 0 names _ (.takes true (3 : Nat)) _ from
    .takes (.numbered (.id rfl (by decide)) (takeMinor_room (by exact Int.le_refl 1) 3)))
  have prepares := taken.snoc (show BinderfsStep 0 names _ (.advances false) _ from
    .advances (.prepared (show prepareDevice _ _ _ _ none = _ from rfl)))
  have prepared := prepares.snoc (show BinderfsStep 0 names _ (.advances true) _ from
    .advances (.prepared (show prepareDevice _ _ _ _ none = _ from rfl)))
  have creates := prepared.snoc (show BinderfsStep 0 names _ (.advances true) _ from
    .advances (.instantiated (show instantiate _ _ none _ _ = _ from rfl)))
  have created := creates.snoc (show BinderfsStep 0 names _ (.advances false) _ from
    .advances (.instantiated (show instantiate _ _ none _ _ = _ from rfl)))
  have fills := created.snoc (show BinderfsStep 0 names _ (.advances true) _ from
    .advances .filled)
  have filled := fills.snoc (show BinderfsStep 0 names _ (.advances false) _ from
    .advances .filled)
  refine ⟨_, _, filled, fun sb inRange => ?_⟩
  have complete := (mounts_hold_devices (by decide) filled sb).2.2
  obtain rfl | rfl : sb = 0 ∨ sb = 1 := by omega
  · exact ⟨rfl, (complete rfl).1⟩
  · exact ⟨rfl, (complete rfl).1⟩

end DroidKernal.Binderfs
