import DroidKernal.Kernel
import DroidKernal.Lib.LinkedList

/-!
# The list of logs

`create_log` links a log into `log_list` before `misc_register`, its last step that can
fail.  The labels that undo the steps before that one do not unlink the log, so that it
stays on the list after it is freed.
-/

namespace DroidKernal.Log

open Lib

/-- The list heads that `log_list` threads through: its own, and that of a log. -/
inductive LogNode where
  | logList
  | logs (log : Nat)
  deriving DecidableEq

/-- What `create_log` sets in a `struct logger_log`.  Pointers are addresses. -/
structure LogObject where
  buffer : Nat
  miscMinor : Nat
  miscName : Nat
  wOff : Nat
  head : Nat
  size : Nat

/-- The blocks that are allocated, the logs by address, and their links. -/
structure Registry where
  live : List Nat
  logs : Nat → LogObject
  links : Links LogNode

namespace Registry

def alloc (reg : Registry) (block : Nat) : Registry := { reg with live := block :: reg.live }

/-- `kfree` and `vfree`. -/
def free (reg : Registry) (block : Nat) : Registry :=
  { reg with live := reg.live.filter (· ≠ block) }

def setLog (reg : Registry) (log : Nat) (object : LogObject) : Registry :=
  { reg with logs := Function.update reg.logs log object }

/-- What the loop of `logger_exit` does to one log.  `&cur->logs` is not the start of a
block, so the last `kfree` does not free the log. -/
def exitLog (reg : Registry) (log : Nat) : Registry :=
  let reg := (reg.free (reg.logs log).buffer).free (reg.logs log).miscName
  { reg with links := reg.links.listDel (.logs log) }

end Registry

/-- The arguments of a call of `create_log`, what the allocators return to it, and what
`misc_register` does. -/
structure Attempt where
  size : Int
  /-- `vmalloc`. -/
  buffer : Option Nat
  /-- `kzalloc`. -/
  log : Option Nat
  /-- `kstrdup`. -/
  miscName : Option Nat
  /-- The result of `misc_register`, and the minor that it assigns. -/
  registered : Int
  minor : Nat

namespace Attempt

def blocks (attempt : Attempt) : List Nat :=
  attempt.buffer.toList ++ attempt.log.toList ++ attempt.miscName.toList

/-- Allocators return blocks that are not allocated. -/
structure Fresh (attempt : Attempt) (live : List Nat) : Prop where
  distinct : attempt.blocks.Nodup
  unused : ∀ block ∈ attempt.blocks, block ∉ live

/-- If the device is reached, it is registered. -/
def Registers (attempt : Attempt) : Prop :=
  attempt.buffer.isSome → attempt.log.isSome → attempt.miscName.isSome → attempt.registered = 0

end Attempt

/-- `create_log`. -/
def Registry.createLog (reg : Registry) (attempt : Attempt) : Int × Registry :=
  match attempt.buffer with
  | none => (-ENOMEM, reg)
  | some buffer =>
      let reg := reg.alloc buffer
      match attempt.log with
      | none => (-ENOMEM, reg.free buffer)
      | some log =>
          let reg := reg.alloc log
          match attempt.miscName with
          | none =>
              let reg := reg.setLog log
                { buffer, miscMinor := 255, miscName := 0, wOff := 0, head := 0, size := 0 }
              (-ENOMEM, (reg.free log).free buffer)
          | some miscName =>
              let reg := (reg.alloc miscName).setLog log
                { buffer, miscMinor := 255, miscName, wOff := 0, head := 0,
                  size := (attempt.size % 2 ^ 64).toNat }
              let links := (reg.links.initListHead (.logs log)).listAddTail (.logs log) .logList
              let reg := { reg with links }
              if attempt.registered ≠ 0 then
                (attempt.registered, ((reg.free miscName).free log).free buffer)
              else
                (0, reg.setLog log { reg.logs log with miscMinor := attempt.minor })

/-- `get_log_from_minor`. -/
def getLogFromMinor (reg : Registry) (minor fuel : Nat) : Option (Option LogNode) :=
  reg.links.find .logList
    (fun node => match node with
      | .logList => false
      | .logs log => (reg.logs log).miscMinor = minor)
    fuel (reg.links.next .logList)

/-- The loop of `logger_exit`, from the current node and the next one: the logs that it
visits, and whether they are allocated then. -/
def exitLoop (reg : Registry) : Nat → LogNode → LogNode → Option (List (Nat × Bool))
  | 0, _, _ => none
  | _ + 1, .logList, _ => some []
  | fuel + 1, .logs log, next =>
      let after := reg.exitLog log
      (exitLoop after fuel next (after.links.next next)).map ((log, log ∈ reg.live) :: ·)

/-- `logger_exit`. -/
def loggerExit (reg : Registry) (fuel : Nat) : Option (List (Nat × Bool)) :=
  let cur := reg.links.next .logList
  exitLoop reg fuel cur (reg.links.next cur)

/-! ## Sequences of calls -/

/-- The registry, and the logs whose `create_log` returned 0. -/
structure Session where
  registry : Registry
  created : List Nat

namespace Session

def create (session : Session) (attempt : Attempt) : Session :=
  let (ret, registry) := session.registry.createLog attempt
  { registry
    created := if ret = 0 then session.created ++ attempt.log.toList else session.created }

def run (session : Session) (attempts : List Attempt) : Session := attempts.foldl create session

/-- In every call, the allocators return fresh blocks. -/
def Allocates (session : Session) : List Attempt → Prop
  | [] => True
  | attempt :: attempts =>
      attempt.Fresh session.registry.live ∧ (session.create attempt).Allocates attempts

/-- `log_list` holds exactly the created logs, none is freed, and traversals visit no
others. -/
structure OnlyLive (session : Session) : Prop where
  linked : session.registry.links.Holds .logList (session.created.map .logs)
  live : ∀ log ∈ session.created, log ∈ session.registry.live
  found : ∀ minor, ∃ fuel, getLogFromMinor session.registry minor fuel =
    some ((session.created.find? fun log =>
      (session.registry.logs log).miscMinor = minor).map .logs)
  exits : ∃ fuel, loggerExit session.registry fuel = some (session.created.map (·, true))

/-- The blocks of the created logs are allocated, and none is the log of another. -/
structure Owns (session : Session) : Prop where
  linked : session.registry.links.Holds .logList (session.created.map .logs)
  live : ∀ log ∈ session.created, log ∈ session.registry.live
  buffers : ∀ log ∈ session.created, (session.registry.logs log).buffer ∈ session.registry.live ∧
    (session.registry.logs log).buffer ∉ session.created
  names : ∀ log ∈ session.created, (session.registry.logs log).miscName ∈ session.registry.live ∧
    (session.registry.logs log).miscName ∉ session.created

end Session

variable {session : Session} {attempt : Attempt} {reg : Registry}

@[simp] theorem Registry.free_live (reg : Registry) (block : Nat) :
    (reg.free block).live = reg.live.filter (· ≠ block) := rfl

theorem filter_fresh {live : List Nat} {block : Nat} (fresh : block ∉ live) :
    (block :: live).filter (· ≠ block) = live := by
  rw [List.filter_cons_of_neg (by simp), List.filter_eq_self]
  intro other member
  exact decide_eq_true fun same => fresh (same ▸ member)

namespace Attempt.Fresh

variable {live : List Nat} {buffer log miscName : Nat} (fresh : attempt.Fresh live)

include fresh

theorem buffer_notMem (hasBuffer : attempt.buffer = some buffer) : buffer ∉ live :=
  fresh.unused buffer (by simp [blocks, hasBuffer])

theorem log_notMem (hasBuffer : attempt.buffer = some buffer) (hasLog : attempt.log = some log) :
    log ∉ buffer :: live := by
  have distinct := fresh.distinct
  have unused := fresh.unused log (by simp [blocks, hasLog])
  simp only [blocks, hasBuffer, hasLog, Option.toList_some, List.cons_append, List.nil_append,
    List.nodup_cons, List.mem_cons, not_or] at distinct
  rw [List.mem_cons, not_or]
  exact ⟨Ne.symm distinct.1.1, unused⟩

theorem miscName_notMem (hasBuffer : attempt.buffer = some buffer)
    (hasLog : attempt.log = some log) (hasName : attempt.miscName = some miscName) :
    miscName ∉ log :: buffer :: live := by
  have distinct := fresh.distinct
  have unused := fresh.unused miscName (by simp [blocks, hasName])
  simp only [blocks, hasBuffer, hasLog, hasName, Option.toList_some, List.cons_append,
    List.nil_append, List.nodup_cons, List.mem_cons, List.not_mem_nil, or_false, not_or]
    at distinct
  rw [List.mem_cons, List.mem_cons, not_or, not_or]
  exact ⟨Ne.symm distinct.2.1, Ne.symm distinct.1.2, unused⟩

end Attempt.Fresh

namespace Session

/-- A log in front of the head, as `create_log` links it. -/
def linkLog (links : Links LogNode) (log : Nat) : Links LogNode :=
  (links.initListHead (.logs log)).listAddTail (.logs log) .logList

/-- What a call does: nothing, or link a log and return it, or link a log that is free. -/
inductive Effect (session : Session) (attempt : Attempt) (next : Session) : Prop where
  | failed (registers : attempt.Registers) (created : next.created = session.created)
      (links : next.registry.links = session.registry.links)
      (live : next.registry.live = session.registry.live)
      (logs : ∀ log ∈ session.registry.live, next.registry.logs log = session.registry.logs log)
  | succeeded {buffer log miscName : Nat} {object : LogObject} (registers : attempt.Registers)
      (created : next.created = session.created ++ [log])
      (links : next.registry.links = linkLog session.registry.links log)
      (live : next.registry.live = miscName :: log :: buffer :: session.registry.live)
      (freshBuffer : buffer ∉ session.registry.live)
      (freshLog : log ∉ buffer :: session.registry.live)
      (freshName : miscName ∉ log :: buffer :: session.registry.live)
      (logs : next.registry.logs = Function.update session.registry.logs log object)
      (isBuffer : object.buffer = buffer) (isName : object.miscName = miscName)
  | leaked {log : Nat} (fails : ¬ attempt.Registers) (created : next.created = session.created)
      (freshLog : log ∉ session.registry.live)
      (links : next.registry.links = linkLog session.registry.links log)

theorem create_effect (fresh : attempt.Fresh session.registry.live) :
    session.Effect attempt (session.create attempt) := by
  cases hasBuffer : attempt.buffer with
  | none =>
      have registers : attempt.Registers := fun some => by simp [hasBuffer] at some
      have ends : session.registry.createLog attempt = (-ENOMEM, session.registry) := by
        simp only [Registry.createLog, hasBuffer]
      refine .failed registers ?_ ?_ ?_ ?_
      · simp [create, ends, ENOMEM]
      · simp [create, ends]
      · simp [create, ends]
      · simp [create, ends]
  | some buffer =>
      have unused := fresh.buffer_notMem hasBuffer
      cases hasLog : attempt.log with
      | none =>
          have registers : attempt.Registers := fun _ some => by simp [hasLog] at some
          have ends : session.registry.createLog attempt =
              (-ENOMEM, (session.registry.alloc buffer).free buffer) := by
            simp only [Registry.createLog, hasBuffer, hasLog]
          refine .failed registers ?_ ?_ ?_ ?_
          · simp [create, ends, ENOMEM]
          · simp [create, ends, Registry.free, Registry.alloc]
          · simp only [create, ends, Registry.free_live, Registry.alloc, filter_fresh unused]
          · simp [create, ends, Registry.free, Registry.alloc]
      | some log =>
          have unusedLog := fresh.log_notMem hasBuffer hasLog
          cases hasName : attempt.miscName with
          | none =>
              have registers : attempt.Registers := fun _ _ some => by simp [hasName] at some
              have ends : session.registry.createLog attempt =
                  (-ENOMEM, ((((session.registry.alloc buffer).alloc log).setLog log
                    { buffer, miscMinor := 255, miscName := 0, wOff := 0, head := 0,
                      size := 0 }).free log).free buffer) := by
                simp only [Registry.createLog, hasBuffer, hasLog, hasName]
              refine .failed registers ?_ ?_ ?_ fun other member => ?_
              · simp [create, ends, ENOMEM]
              · simp [create, ends, Registry.free, Registry.alloc, Registry.setLog]
              · simp only [create, ends, Registry.free_live, Registry.alloc, Registry.setLog,
                  filter_fresh unusedLog, filter_fresh unused]
              · have apart : other ≠ log :=
                  fun same => unusedLog (same ▸ List.mem_cons_of_mem _ member)
                simp only [create, ends, Registry.free, Registry.alloc, Registry.setLog,
                  Function.update_of_ne apart]
          | some miscName =>
              have unusedName := fresh.miscName_notMem hasBuffer hasLog hasName
              by_cases registered : attempt.registered = 0
              · have ends : session.registry.createLog attempt =
                    (0, { live := miscName :: log :: buffer :: session.registry.live
                          logs := Function.update session.registry.logs log
                            { buffer, miscMinor := attempt.minor, miscName, wOff := 0, head := 0,
                              size := (attempt.size % 2 ^ 64).toNat }
                          links := linkLog session.registry.links log }) := by
                  simp only [Registry.createLog, hasBuffer, hasLog, hasName, registered, ne_eq,
                    not_true_eq_false, if_false, Registry.setLog, Registry.alloc,
                    Function.update_self, Function.update_idem, linkLog]
                refine .succeeded (fun _ _ _ => registered) ?_ (congrArg (·.2.links) ends)
                  (congrArg (·.2.live) ends) unused unusedLog unusedName
                  (congrArg (·.2.logs) ends) rfl rfl
                simp [create, ends, hasLog]
              · have fails : ¬ attempt.Registers := by
                  simp [Attempt.Registers, hasBuffer, hasLog, hasName, registered]
                have freshLog : log ∉ session.registry.live :=
                  fun member => unusedLog (List.mem_cons_of_mem _ member)
                refine .leaked fails ?_ freshLog ?_
                · simp [create, Registry.createLog, hasBuffer, hasLog, hasName, registered]
                · simp [create, Registry.createLog, hasBuffer, hasLog, hasName, registered,
                    Registry.free, Registry.alloc, Registry.setLog, linkLog]

theorem linkLog_holds {links : Links LogNode} {created : List Nat} {log : Nat}
    (holds : links.Holds .logList (created.map .logs)) (fresh : log ∉ created) :
    (linkLog links log).Holds .logList ((created ++ [log]).map .logs) := by
  have apart : LogNode.logs log ∉ LogNode.logList :: created.map LogNode.logs := by
    simpa using fresh
  rw [List.map_append]
  exact (holds.join_of_notMem apart apart).listAddTail apart

/-- The loop of `logger_exit` visits every log of the list while it is allocated. -/
theorem exitLoop_eq {created : List Nat} (linked : reg.links.Holds .logList (created.map .logs))
    (live : ∀ log ∈ created, log ∈ reg.live)
    (buffers : ∀ log ∈ created, (reg.logs log).buffer ∉ created)
    (names : ∀ log ∈ created, (reg.logs log).miscName ∉ created) {fuel : Nat}
    (enough : created.length < fuel) :
    exitLoop reg fuel (reg.links.next .logList) (reg.links.next (reg.links.next .logList)) =
      some (created.map (·, true)) := by
  induction created generalizing reg fuel with
  | nil =>
      obtain ⟨fuel, rfl⟩ := Nat.exists_eq_succ_of_ne_zero (Nat.ne_zero_of_lt enough)
      rw [linked.closed.1, exitLoop, List.map_nil]
  | cons log created ih =>
      obtain ⟨fuel, rfl⟩ := Nat.exists_eq_succ_of_ne_zero (Nat.ne_zero_of_lt enough)
      obtain ⟨⟨isNext, isPrev⟩, _⟩ := linked.closed
      have rest : (reg.exitLog log).links.Holds .logList (created.map .logs) :=
        @Links.Holds.listDel _ _ _ _ [] _ _ linked
      have first : (reg.exitLog log).links.next .logList = reg.links.next (.logs log) := by
        have unlinked : (reg.exitLog log).links = reg.links.listDel (.logs log) := rfl
        rw [unlinked, Links.listDel, isPrev, Links.join_next_self]
      have keeps : ∀ other ∈ created, other ∈ (reg.exitLog log).live := by
        intro other member
        have isOther := List.mem_cons_of_mem log member
        have notBuffer : other ≠ (reg.logs log).buffer :=
          fun same => buffers log List.mem_cons_self (same ▸ isOther)
        have notName : other ≠ (reg.logs log).miscName :=
          fun same => names log List.mem_cons_self (same ▸ isOther)
        simp [Registry.exitLog, Registry.free, live other isOther, notBuffer, notName]
      have ends := ih rest keeps
        (fun other member found =>
          buffers other (List.mem_cons_of_mem _ member) (List.mem_cons_of_mem _ found))
        (fun other member found =>
          names other (List.mem_cons_of_mem _ member) (List.mem_cons_of_mem _ found))
        (Nat.lt_of_succ_lt_succ enough)
      rw [first] at ends
      simp only [isNext, exitLoop, ends, Option.map_some, List.map_cons,
        live log List.mem_cons_self, decide_true]

namespace Owns

variable {next : Session} (owns : session.Owns)

include owns

/-- A call that registers what it links keeps the logs apart. -/
theorem preserved (effect : session.Effect attempt next) (registers : attempt.Registers) :
    next.Owns := by
  cases effect with
  | failed _ created links live logs =>
      refine ⟨?_, ?_, fun log member => ?_, fun log member => ?_⟩
      · rw [links, created]
        exact owns.linked
      · rw [live, created]
        exact owns.live
      · rw [created] at member ⊢
        rw [live, logs log (owns.live log member)]
        exact owns.buffers log member
      · rw [created] at member ⊢
        rw [live, logs log (owns.live log member)]
        exact owns.names log member
  | @succeeded buffer log miscName object _ created links live freshBuffer freshLog freshName logs
      isBuffer isName =>
      simp only [List.mem_cons, not_or] at freshLog freshName
      have apart : ∀ other ∈ session.created, other ≠ log :=
        fun other member same => freshLog.2 (same ▸ owns.live other member)
      refine ⟨?_, fun other member => ?_, fun other member => ?_, fun other member => ?_⟩
      · rw [links, created]
        exact linkLog_holds owns.linked fun member => apart log member rfl
      · rw [created] at member
        rw [live]
        rcases List.mem_append.mp member with old | new
        · simp [owns.live other old]
        · simp [List.mem_singleton.mp new]
      · rw [created] at member ⊢
        rw [live, logs]
        rcases List.mem_append.mp member with old | new
        · have buffers := owns.buffers other old
          rw [Function.update_of_ne (apart other old)]
          have notLog : (session.registry.logs other).buffer ≠ log :=
            fun same => freshLog.2 (same ▸ buffers.1)
          simp [buffers, notLog]
        · rw [List.mem_singleton.mp new, Function.update_self, isBuffer]
          have old : buffer ∉ session.created := fun member => freshBuffer (owns.live _ member)
          simp [old, Ne.symm freshLog.1]
      · rw [created] at member ⊢
        rw [live, logs]
        rcases List.mem_append.mp member with old | new
        · have names := owns.names other old
          rw [Function.update_of_ne (apart other old)]
          have notLog : (session.registry.logs other).miscName ≠ log :=
            fun same => freshLog.2 (same ▸ names.1)
          simp [names, notLog]
        · rw [List.mem_singleton.mp new, Function.update_self, isName]
          have old : miscName ∉ session.created := fun member => freshName.2.2 (owns.live _ member)
          simp [old, freshName.1]
  | leaked fails => exact absurd registers fails

theorem onlyLive : session.OnlyLive where
  linked := owns.linked
  live := owns.live
  found := fun minor => by
    refine ⟨session.created.length + 1, ?_⟩
    rw [getLogFromMinor, owns.linked.find_eq _ (by simp), List.find?_map]
    rfl
  exits := ⟨session.created.length + 1, exitLoop_eq owns.linked owns.live
    (fun log member => (owns.buffers log member).2) (fun log member => (owns.names log member).2)
    (Nat.lt_succ_self _)⟩

/-- A call that links a log and frees it leaves it on the list. -/
theorem registers_of_onlyLive (effect : session.Effect attempt next) (onlyLive : next.OnlyLive) :
    attempt.Registers := by
  cases effect with
  | failed registers => exact registers
  | succeeded registers => exact registers
  | leaked _ created freshLog links =>
      have linked := onlyLive.linked
      rw [links, created] at linked
      have isNew := fun member => freshLog (owns.live _ member)
      have more := congrArg List.length ((linkLog_holds owns.linked isNew).unique linked)
      simp at more

end Owns

theorem Owns.run_iff (owns : session.Owns) {attempts : List Attempt}
    (allocates : session.Allocates attempts) :
    (∀ done, done <+: attempts → (session.run done).OnlyLive) ↔
      ∀ attempt ∈ attempts, attempt.Registers := by
  induction attempts generalizing session with
  | nil => simpa [run] using owns.onlyLive
  | cons attempt attempts ih =>
      have effect := create_effect allocates.1
      constructor
      · intro always
        have first := always [attempt] ⟨attempts, rfl⟩
        have registers := owns.registers_of_onlyLive effect first
        have later := (ih (owns.preserved effect registers) allocates.2).mp
          fun done isPrefix => always (attempt :: done) (List.cons_prefix_cons.mpr ⟨rfl, isPrefix⟩)
        rw [List.forall_mem_cons]
        exact ⟨registers, later⟩
      · intro registers done isPrefix
        rw [List.forall_mem_cons] at registers
        cases done with
        | nil => exact owns.onlyLive
        | cons other done =>
            obtain ⟨rfl, rest⟩ := List.cons_prefix_cons.mp isPrefix
            have kept := owns.preserved effect registers.1
            exact (ih kept allocates.2).mpr registers.2 done rest

/-- Before the first call, the list is empty. -/
structure Initial (session : Session) : Prop where
  linked : session.registry.links.Holds .logList []
  created : session.created = []

theorem Initial.owns (initial : session.Initial) : session.Owns where
  linked := by
    rw [initial.created]
    exact initial.linked
  live := by simp [initial.created]
  buffers := by simp [initial.created]
  names := by simp [initial.created]

end Session

/-- After every call of a sequence, `log_list` holds exactly the created logs and none
that is freed, if and only if `misc_register` fails in none of them. -/
theorem log_list_live_iff (session : Session) (attempts : List Attempt)
    (initial : session.Initial) (allocates : session.Allocates attempts) :
    (∀ done, done <+: attempts → (session.run done).OnlyLive) ↔
      ∀ attempt ∈ attempts, attempt.Registers :=
  initial.owns.run_iff allocates

/-- Nothing is allocated, and the list is empty. -/
def unloaded : Session where
  registry :=
    { live := []
      logs := fun _ =>
        { buffer := 0, miscMinor := 0, miscName := 0, wOff := 0, head := 0, size := 0 }
      links := ⟨id, id⟩ }
  created := []

theorem unloaded_initial : unloaded.Initial := ⟨⟨⟨rfl, rfl⟩, List.nodup_singleton _⟩, rfl⟩

/-- One call without memory for a name, and one that succeeds. -/
def someAttempts : List Attempt :=
  [{ size := 1024, buffer := some 1, log := some 2, miscName := none, registered := 0, minor := 0 },
    { size := 1024, buffer := some 1, log := some 2, miscName := some 3, registered := 0,
      minor := 60 }]

theorem someAttempts_allocated : unloaded.Allocates someAttempts :=
  ⟨⟨by decide, by decide⟩, ⟨by decide, by decide⟩, trivial⟩

/-- The log of the second call is on the list, and the first call leaves nothing there. -/
theorem log_list_live_two :
    (unloaded.run someAttempts).created = [2] ∧
      ∀ done, done <+: someAttempts → (unloaded.run done).OnlyLive := by
  refine ⟨rfl, ?_⟩
  have registers : ∀ attempt ∈ someAttempts, attempt.Registers := by
    simp [someAttempts, Attempt.Registers]
  exact (log_list_live_iff unloaded someAttempts unloaded_initial someAttempts_allocated).mpr
    registers

/-- The device of the first log cannot be registered. -/
def busyAttempt : Attempt where
  size := 1024
  buffer := some 1
  log := some 2
  miscName := some 3
  registered := -EBUSY
  minor := 0

/-- The list is left with a log that is freed. -/
theorem log_list_freed :
    ¬ ∀ (session : Session) (attempts : List Attempt), session.Initial →
      session.Allocates attempts → ∀ done, done <+: attempts → (session.run done).OnlyLive := by
  intro claim
  have allocates : unloaded.Allocates [busyAttempt] := ⟨⟨by decide, by decide⟩, trivial⟩
  have onlyLive := claim unloaded [busyAttempt] unloaded_initial allocates _ (List.prefix_refl _)
  have first : (unloaded.run [busyAttempt]).registry.links.next .logList = .logs 2 := rfl
  have empty := onlyLive.linked.closed.1
  rw [first] at empty
  cases empty

end DroidKernal.Log
