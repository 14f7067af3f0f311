import DroidKernal.Binder.Driver

/-!
# Attempts to become the context manager

The uid of a context is claimed before the node of its manager is allocated, and no error
takes it back.  A failed attempt leaves the context as it was in all other cases.
-/

namespace DroidKernal.Binder

open Lib

/-- An attempt by a process. -/
structure ManagerAttempt where
  proc : Nat
  euid : UInt32
  fbo : Option FlatBinderObject

namespace ManagerAttempt

/-- What `binder_ioctl_set_ctx_mgr` returns, and leaves behind. -/
def result (attempt : ManagerAttempt) (state : DriverState) : DriverResult :=
  binderIoctlSetCtxMgr state attempt.proc attempt.euid attempt.fbo

/-- The context of the process. -/
def context (attempt : ManagerAttempt) (state : DriverState) : BinderContext :=
  state.contexts (state.procs attempt.proc).context

/-- No uid is claimed for a node that is then not allocated. -/
def KeepsUid (attempt : ManagerAttempt) (state : DriverState) : Prop :=
  (attempt.context state).mgrNode.isSome ∨ (attempt.context state).mgrUid ≠ invalidUid ∨
    attempt.euid = invalidUid ∨ state.allocation state.allocations = true

section Results

variable {attempt : ManagerAttempt} {state : DriverState}

/-- The state after the uid was claimed. -/
def claim (attempt : ManagerAttempt) (state : DriverState) : DriverState :=
  state.updateContext (state.procs attempt.proc).context fun c =>
    { c with mgrUid := attempt.euid }

theorem result_eq : attempt.result state =
    if (attempt.context state).mgrNode.isSome then { ret := -EBUSY, state, fault := none }
    else if (attempt.context state).mgrUid ≠ invalidUid then
      if (attempt.context state).mgrUid ≠ attempt.euid then { ret := -EPERM, state, fault := none }
      else binderSetCtxMgrNode state attempt.proc (state.procs attempt.proc).context attempt.fbo
    else binderSetCtxMgrNode (attempt.claim state) attempt.proc (state.procs attempt.proc).context
      attempt.fbo := rfl

/-- The allocation of the node decides. -/
theorem setCtxMgrNode_ret (state : DriverState) (proc context : Nat)
    (fbo : Option FlatBinderObject) :
    (binderSetCtxMgrNode state proc context fbo).ret =
      if state.allocation state.allocations then 0 else -EPERM := by
  rw [binderSetCtxMgrNode, binderNewNode, DriverState.kzalloc]
  cases state.allocation state.allocations with
  | true =>
      simp only [if_true]
      split
      · rfl
      · rfl
  | false => rfl

/-- Without a node only an allocation was made. -/
theorem setCtxMgrNode_failed {proc context : Nat} {fbo : Option FlatBinderObject}
    (failed : (binderSetCtxMgrNode state proc context fbo).ret ≠ 0) :
    state.allocation state.allocations = false ∧
      (binderSetCtxMgrNode state proc context fbo).state = state.kzalloc.2 := by
  rw [setCtxMgrNode_ret] at failed
  cases allocates : state.allocation state.allocations with
  | true =>
      rw [allocates] at failed
      exact absurd rfl failed
  | false =>
      rw [binderSetCtxMgrNode, binderNewNode, DriverState.kzalloc, allocates]
      exact ⟨rfl, rfl⟩

/-- What the attempt returns, by the context and the outcome of the allocation. -/
theorem result_ret : (attempt.result state).ret =
    if (attempt.context state).mgrNode.isSome then -EBUSY
    else if (attempt.context state).mgrUid ≠ invalidUid ∧
      (attempt.context state).mgrUid ≠ attempt.euid then -EPERM
    else if state.allocation state.allocations then 0 else -EPERM := by
  rw [result_eq]
  split
  next => rfl
  next =>
    split
    next isValid =>
      split
      next differs => rw [if_pos ⟨isValid, differs⟩]
      next same => rw [if_neg fun both => same both.2, setCtxMgrNode_ret]
    next isInvalid =>
      rw [if_neg fun both => isInvalid both.1, setCtxMgrNode_ret]
      rfl

/-- A claim that changes nothing. -/
theorem claim_contexts_iff : (attempt.claim state).contexts = state.contexts ↔
    attempt.euid = (attempt.context state).mgrUid := by
  rw [claim, DriverState.updateContext, Function.update_eq_self_iff]
  constructor
  · exact fun same => congrArg BinderContext.mgrUid same
  · intro same
    rw [same]
    rfl

/-- What a failed attempt leaves behind. -/
theorem failed_cases (failed : (attempt.result state).ret ≠ 0) :
    (attempt.result state).state.procs = state.procs ∧
      ((attempt.result state).state.contexts = state.contexts ↔ attempt.KeepsUid state) := by
  rw [result_eq] at failed ⊢
  split at failed
  next busy =>
    rw [if_pos busy]
    exact ⟨rfl, fun _ => .inl busy, fun _ => rfl⟩
  next free =>
    rw [if_neg free]
    split at failed
    next isValid =>
      rw [if_pos isValid]
      split at failed
      next differs =>
        rw [if_pos differs]
        exact ⟨rfl, fun _ => .inr (.inl isValid), fun _ => rfl⟩
      next same =>
        rw [if_neg same, (setCtxMgrNode_failed failed).2]
        exact ⟨rfl, fun _ => .inr (.inl isValid), fun _ => rfl⟩
    next isInvalid =>
      obtain ⟨noMemory, left⟩ := setCtxMgrNode_failed failed
      rw [if_neg isInvalid, left]
      refine ⟨rfl, claim_contexts_iff.trans ?_⟩
      rw [not_not] at isInvalid
      rw [isInvalid, KeepsUid]
      constructor
      · exact fun nobody => .inr (.inr (.inl nobody))
      · rintro (busy | isValid | nobody | allocates)
        · exact absurd busy free
        · exact absurd isInvalid isValid
        · exact nobody
        · cases noMemory.symm.trans allocates

end Results

end ManagerAttempt

/-- A failed attempt that meets the condition. -/
def FailedAttempt (state : DriverState) (attempt : ManagerAttempt) (next : DriverState) : Prop :=
  (attempt.result state).ret ≠ 0 ∧ attempt.KeepsUid state ∧ next = (attempt.result state).state

/-- Failed attempts leave the contexts, and no process changes its context. -/
theorem FailedAttempt.kept {state next : DriverState} {attempts : List ManagerAttempt}
    (failed : Run FailedAttempt state attempts next) :
    next.contexts = state.contexts ∧ next.procs = state.procs := by
  refine failed.invariant (fun next => next.contexts = state.contexts ∧ next.procs = state.procs)
    ⟨rfl, rfl⟩ ?_
  rintro before attempt next ⟨contexts, procs⟩ ⟨error, keeps, rfl⟩
  obtain ⟨sameProcs, same⟩ := ManagerAttempt.failed_cases error
  exact ⟨(same.mpr keeps).trans contexts, sameProcs.trans procs⟩

/-- After any failed attempts that meet the condition the contexts are as before; a next one
that fails leaves them so just if it meets the condition as well; and what it returns does not
depend on the earlier ones. -/
theorem failed_attempts_change_nothing_iff {state next : DriverState}
    {attempts : List ManagerAttempt} (failed : Run FailedAttempt state attempts next)
    (attempt : ManagerAttempt) :
    next.contexts = state.contexts ∧
      (((attempt.result next).ret ≠ 0 →
          (attempt.result next).state.contexts = state.contexts) ↔ attempt.KeepsUid next) ∧
      (next.allocation next.allocations = state.allocation state.allocations →
        (attempt.result next).ret = (attempt.result state).ret) := by
  obtain ⟨contexts, procs⟩ := FailedAttempt.kept failed
  refine ⟨contexts, ⟨fun kept => ?_, fun keeps error => ?_⟩, fun allocates => ?_⟩
  · by_cases error : (attempt.result next).ret ≠ 0
    · exact (ManagerAttempt.failed_cases error).2.mp ((kept error).trans contexts.symm)
    · -- a success needs a node
      by_contra vain
      simp only [ManagerAttempt.KeepsUid, not_or, not_not] at vain
      obtain ⟨free, isInvalid, -, noMemory⟩ := vain
      rw [ManagerAttempt.result_ret, if_neg free, if_neg fun both => both.1 isInvalid,
        if_neg noMemory] at error
      exact error (by decide)
  · exact ((ManagerAttempt.failed_cases error).2.mpr keeps).trans contexts
  · have same : attempt.context next = attempt.context state := by
      rw [ManagerAttempt.context, ManagerAttempt.context, contexts, procs]
    rw [ManagerAttempt.result_ret, ManagerAttempt.result_ret, same, allocates]

/-- An attempt by another uid is refused. -/
theorem failed_attempts_change_nothing_foreign :
    ∃ state next : DriverState,
      Run FailedAttempt state [⟨0, 1000, none⟩] next ∧ next.contexts = state.contexts := by
  let opened : DriverState := (DriverState.init fun _ => true).updateContext 0 fun c =>
    { c with mgrUid := 2000 }
  have refused : FailedAttempt opened ⟨0, 1000, none⟩
      (ManagerAttempt.result ⟨0, 1000, none⟩ opened).state :=
    ⟨by decide, .inr (.inl (by decide)), rfl⟩
  exact ⟨opened, _, .single refused,
    (failed_attempts_change_nothing_iff (.single refused) ⟨0, 1000, none⟩).1⟩

/-- There is no memory for the node of the first that asks. -/
theorem uid_claimed_in_vain :
    ¬ ∀ (state : DriverState) (attempt : ManagerAttempt), (attempt.result state).ret ≠ 0 →
      (attempt.result state).state.contexts = state.contexts := by
  intro every
  have kept := congrFun (every (DriverState.init fun _ => false) ⟨0, 1000, none⟩ (by decide)) 0
  exact absurd (congrArg BinderContext.mgrUid kept) (by decide)

end DroidKernal.Binder
