import DroidKernal.Utils.Looper

/-!
# Waking the Looper

The polling thread and the senders, taken apart at the lock, the event descriptor,
`epoll_wait` and the handler.  Any number of threads call `sendMessageAtTime`; the
polling thread calls it too, from a handler and between two passes.
`mMessageEnvelopes` is a list here, `epoll_wait` may return at any time, and other
file descriptors are left out, as is `mEpollRebuildRequired`, which nothing sets.
-/

namespace DroidKernal.Utils.Polling

open Lib

variable {H M ι : Type*}

/-- Where a thread is in `sendMessageAtTime`. -/
inductive CallPc (H M : Type*) where
  | idle
  /-- before the lock -/
  | entered (uptime : Int) (handler : H) (message : M)
  /-- with the lock -/
  | locked (uptime : Int) (handler : H) (message : M)
  /-- after the lock, before the comparison of `i` -/
  | unlocked (i : Nat)

/-- What `epoll_wait` returns: less than zero, zero, or events, among which may be
`EPOLLIN` on `mWakeEventFd`. -/
inductive PollResult where
  | error
  | timeout
  | events (awake : Bool)
  deriving DecidableEq, Repr

/-- Where the polling thread is. -/
inductive PollPc where
  /-- not in `pollInner`, or on the way to `epoll_wait`, or after the unlock at the end -/
  | outside
  /-- in `epoll_wait` -/
  | waiting
  /-- before the lock -/
  | returned (result : PollResult)
  /-- with the lock, before `Done` -/
  | locked (result : PollResult)
  /-- with the lock, in the loop -/
  | dispatching
  /-- in `handleMessage` -/
  | handling
  deriving DecidableEq, Repr

/-- The Looper and its threads.  The polling thread is `none`; the other threads are
named by `ι`. -/
structure State (H M ι : Type*) where
  mMessageEnvelopes : List (MessageEnvelope H M)
  mSendingMessage : Bool
  mNextMessageUptime : Int
  /-- the counter of `mWakeEventFd` -/
  mWakeEvent : Nat
  /-- the thread that holds `mLock` -/
  mLock : Option (Option ι)
  poller : PollPc
  calls : Option ι → CallPc H M
  sends : Nat

/-- The constructor. -/
def State.init : State H M ι where
  mMessageEnvelopes := []
  mSendingMessage := false
  mNextMessageUptime := llongMax
  mWakeEvent := 0
  mLock := none
  poller := .outside
  calls := fun _ => .idle
  sends := 0

/-- The `while` loop of `sendMessageAtTime`. -/
def insertionPoint (uptime : Int) : List (MessageEnvelope H M) → Nat
  | [] => 0
  | envelope :: rest => if uptime ≥ envelope.uptime then insertionPoint uptime rest + 1 else 0

/-- `wake`: a write of one to the event descriptor, which fails with `EAGAIN` where the
counter is at its largest value. -/
def wake (mWakeEvent : Nat) : Nat :=
  if mWakeEvent + 1 ≤ 2 ^ 64 - 2 then mWakeEvent + 1 else mWakeEvent

/-- `awoken`: a read of the event descriptor. -/
def awoken (_mWakeEvent : Nat) : Nat := 0

/-- The end of the dispatch loop: the head is not due, or there is none. -/
def nextMessageUptime (now mNextMessageUptime : Int) :
    List (MessageEnvelope H M) → Option Int
  | [] => some mNextMessageUptime
  | envelope :: _ => if envelope.uptime ≤ now then none else some envelope.uptime

/-- A step of one of the threads. -/
inductive Event (H M ι : Type*) where
  | call (thread : Option ι) (uptime : Int) (handler : H) (message : M)
  | lock (thread : Option ι)
  | unlock (thread : Option ι)
  | wake (thread : Option ι)
  | wait
  | returns (result : PollResult)
  | pollLock
  | done
  | dispatch (now : Int)
  | handled
  | finish (now : Int)

variable [DecidableEq ι]

/-- The thread goes on in `sendMessageAtTime`. -/
def State.at (state : State H M ι) (thread : Option ι) (pc : CallPc H M) : State H M ι :=
  { state with calls := Function.update state.calls thread pc }

/-- The steps, each up to the next lock, unlock, access to the event descriptor,
`epoll_wait` or handler. -/
inductive Step : State H M ι → Event H M ι → State H M ι → Prop where
  | call {state : State H M ι} {thread : Option ι} (uptime : Int) (handler : H) (message : M)
      (idle : state.calls thread = .idle)
      (own : thread = none → state.poller = .outside ∨ state.poller = .handling) :
      Step state (.call thread uptime handler message)
        (state.at thread (.entered uptime handler message))
  | lock {state : State H M ι} {thread : Option ι} {uptime : Int} {handler : H} {message : M}
      (entered : state.calls thread = .entered uptime handler message)
      (free : state.mLock = none) :
      Step state (.lock thread)
        { state.at thread (.locked uptime handler message) with mLock := some thread }
  | unlock {state : State H M ι} {thread : Option ι} {uptime : Int} {handler : H} {message : M}
      (locked : state.calls thread = .locked uptime handler message) :
      Step state (.unlock thread)
        { state.at thread (if state.mSendingMessage then .idle
            else .unlocked (insertionPoint uptime state.mMessageEnvelopes)) with
          mMessageEnvelopes := state.mMessageEnvelopes.insertIdx
            (insertionPoint uptime state.mMessageEnvelopes)
            { uptime, handler, message, order := state.sends }
          mLock := none
          sends := state.sends + 1 }
  | wake {state : State H M ι} {thread : Option ι} {i : Nat}
      (unlocked : state.calls thread = .unlocked i) :
      Step state (.wake thread)
        { state.at thread .idle with
          mWakeEvent := if i = 0 then Polling.wake state.mWakeEvent else state.mWakeEvent }
  | wait {state : State H M ι} (outside : state.poller = .outside)
      (idle : state.calls none = .idle) :
      Step state .wait { state with poller := .waiting }
  | returns {state : State H M ι} (result : PollResult) (waiting : state.poller = .waiting)
      (readable : result = .events true → 0 < state.mWakeEvent) :
      Step state (.returns result) { state with poller := .returned result }
  | pollLock {state : State H M ι} {result : PollResult}
      (returned : state.poller = .returned result) (free : state.mLock = none) :
      Step state .pollLock { state with poller := .locked result, mLock := some none }
  | done {state : State H M ι} {result : PollResult} (locked : state.poller = .locked result) :
      Step state .done
        { state with
          mWakeEvent :=
            if result = .events true then awoken state.mWakeEvent else state.mWakeEvent
          mNextMessageUptime := llongMax
          poller := .dispatching }
  | dispatch {state : State H M ι} {now : Int} {envelope : MessageEnvelope H M}
      {rest : List (MessageEnvelope H M)} (dispatching : state.poller = .dispatching)
      (first : state.mMessageEnvelopes = envelope :: rest) (due : envelope.uptime ≤ now) :
      Step state (.dispatch now)
        { state with
          mMessageEnvelopes := rest
          mSendingMessage := true
          mLock := none
          poller := .handling }
  | handled {state : State H M ι} (handling : state.poller = .handling)
      (idle : state.calls none = .idle) (free : state.mLock = none) :
      Step state .handled
        { state with mSendingMessage := false, mLock := some none, poller := .dispatching }
  | finish {state : State H M ι} {now uptime : Int} (dispatching : state.poller = .dispatching)
      (next : nextMessageUptime now state.mNextMessageUptime state.mMessageEnvelopes =
        some uptime) :
      Step state (.finish now)
        { state with mNextMessageUptime := uptime, mLock := none, poller := .outside }

/-- The order of the queue: the uptimes, and for equal ones the order of the calls. -/
def Before (first second : MessageEnvelope H M) : Prop :=
  first.uptime < second.uptime ∨ first.uptime = second.uptime ∧ first.order < second.order

/-- From the unlock at the end of a pass to the return of the next `epoll_wait`. -/
def PollPc.Asleep (poller : PollPc) : Prop := poller = .outside ∨ poller = .waiting

/-- No message is due before the time the polling thread knows of, or it has been
woken, or a thread that inserted at the head is about to wake it. -/
def State.Awaited (state : State H M ι) : Prop :=
  (∀ envelope ∈ state.mMessageEnvelopes, state.mNextMessageUptime ≤ envelope.uptime) ∨
    0 < state.mWakeEvent ∨ ∃ thread, state.calls thread = .unlocked 0

section Queue

variable {queue : List (MessageEnvelope H M)} {envelope : MessageEnvelope H M}

theorem insertionPoint_le (uptime : Int) (queue : List (MessageEnvelope H M)) :
    insertionPoint uptime queue ≤ queue.length := by
  induction queue with
  | nil => exact Nat.le_refl 0
  | cons first rest ih =>
      rw [insertionPoint]
      split
      next => exact Nat.succ_le_succ ih
      next => exact Nat.zero_le _

theorem mem_insert {other : MessageEnvelope H M} {uptime : Int} :
    other ∈ queue.insertIdx (insertionPoint uptime queue) envelope ↔
      other = envelope ∨ other ∈ queue :=
  List.mem_insertIdx (insertionPoint_le uptime queue)

/-- Inserting the latest message keeps the order. -/
theorem insert_pairwise (sorted : queue.Pairwise Before)
    (last : ∀ other ∈ queue, other.order < envelope.order) :
    (queue.insertIdx (insertionPoint envelope.uptime queue) envelope).Pairwise Before := by
  induction queue with
  | nil => exact List.pairwise_singleton Before envelope
  | cons first rest ih =>
      obtain ⟨firstBefore, restSorted⟩ := List.pairwise_cons.mp sorted
      rw [insertionPoint]
      split
      next after =>
        rw [List.insertIdx_succ_cons, List.pairwise_cons]
        constructor
        · intro other member
          rcases mem_insert.mp member with rfl | old
          · rcases Int.lt_or_eq_of_le after with later | same
            · exact .inl later
            · exact .inr ⟨same, last first List.mem_cons_self⟩
          · exact firstBefore other old
        · exact ih restSorted fun other member => last other (List.mem_cons_of_mem first member)
      next sooner =>
        have sooner := Int.lt_of_not_ge sooner
        rw [List.insertIdx_zero, List.pairwise_cons]
        refine ⟨?_, sorted⟩
        intro other member
        rcases List.mem_cons.mp member with rfl | old
        · exact .inl sooner
        · rcases firstBefore other old with later | ⟨same, _⟩
          · exact .inl (Int.lt_trans sooner later)
          · exact .inl (same ▸ sooner)

/-- A message that is not inserted at the head is due no sooner than the head. -/
theorem head_le_of_insertionPoint (inside : insertionPoint envelope.uptime queue ≠ 0) :
    ∃ first ∈ queue, first.uptime ≤ envelope.uptime := by
  cases queue with
  | nil => exact absurd rfl inside
  | cons first rest =>
      refine ⟨first, List.mem_cons_self, ?_⟩
      by_contra sooner
      exact inside (if_neg sooner)

end Queue

section Steps

variable {state next : State H M ι} {event : Event H M ι}

theorem wake_pos (mWakeEvent : Nat) : 0 < wake mWakeEvent := by
  rw [wake]
  split <;> omega

/-- A thread that is not about to wake the polling thread may go on. -/
theorem State.Awaited.at {thread : Option ι} (awaited : state.Awaited)
    (other : state.calls thread ≠ .unlocked 0) (pc : CallPc H M) : (state.at thread pc).Awaited := by
  rcases awaited with later | readable | ⟨waker, unlocked⟩
  · exact .inl later
  · exact .inr (.inl readable)
  · refine .inr (.inr ⟨waker, ?_⟩)
    have differ : waker ≠ thread := by
      rintro rfl
      exact other unlocked
    simpa only [State.at, Function.update_of_ne differ] using unlocked

/-- What holds after every step. -/
structure Invariant (state : State H M ι) : Prop where
  sorted : state.mMessageEnvelopes.Pairwise Before
  numbers : ∀ envelope ∈ state.mMessageEnvelopes, envelope.order < state.sends
  sending : state.mSendingMessage = true → state.poller = .handling
  awaited : state.poller.Asleep → state.Awaited

omit [DecidableEq ι] in
theorem Invariant.init : Invariant (State.init : State H M ι) where
  sorted := .nil
  numbers := by simp [State.init]
  sending := nofun
  awaited := fun _ => .inl (by simp [State.init])

/-- The section of `sendMessageAtTime` under the lock.  While the polling thread is
asleep, a message at the head leaves the sender about to wake it. -/
theorem Invariant.unlock (invariant : Invariant state) {thread : Option ι} {uptime : Int}
    {handler : H} {message : M}
    (locked : state.calls thread = .locked uptime handler message) :
    Invariant
      { state.at thread (if state.mSendingMessage then .idle
          else .unlocked (insertionPoint uptime state.mMessageEnvelopes)) with
        mMessageEnvelopes := state.mMessageEnvelopes.insertIdx
          (insertionPoint uptime state.mMessageEnvelopes)
          { uptime, handler, message, order := state.sends }
        mLock := none
        sends := state.sends + 1 } where
  sorted := insert_pairwise invariant.sorted invariant.numbers
  numbers := by
    intro envelope member
    rcases mem_insert.mp member with rfl | old
    · exact Nat.lt_succ_self _
    · exact Nat.lt_succ_of_lt (invariant.numbers envelope old)
  sending := invariant.sending
  awaited := by
    intro asleep
    have notSending : state.mSendingMessage = false := by
      by_contra sending
      have handling := invariant.sending (Bool.of_not_eq_false sending)
      rcases asleep with outside | waiting
      · exact PollPc.noConfusion (handling.symm.trans outside)
      · exact PollPc.noConfusion (handling.symm.trans waiting)
    simp only [State.at, notSending, Bool.false_eq_true, if_false]
    by_cases head : insertionPoint uptime state.mMessageEnvelopes = 0
    · refine .inr (.inr ⟨thread, ?_⟩)
      simp only [head, Function.update_self]
    · have notWaking : state.calls thread ≠ .unlocked 0 := by
        rw [locked]
        nofun
      rcases (invariant.awaited asleep).at notWaking
        (.unlocked (insertionPoint uptime state.mMessageEnvelopes)) with later | woken
      · left
        intro envelope member
        rcases mem_insert.mp member with rfl | old
        · let sent : MessageEnvelope H M := { uptime, handler, message, order := state.sends }
          have inside : insertionPoint sent.uptime state.mMessageEnvelopes ≠ 0 := head
          obtain ⟨first, isFirst, sooner⟩ := head_le_of_insertionPoint inside
          exact Int.le_trans (later first isFirst) sooner
        · exact later envelope old
      · exact .inr woken

omit [DecidableEq ι] in
/-- The end of a pass: the polling thread knows of the head of a queue in order. -/
theorem next_le_of_nextMessageUptime {now uptime : Int}
    (sorted : state.mMessageEnvelopes.Pairwise Before)
    (found : nextMessageUptime now state.mNextMessageUptime state.mMessageEnvelopes =
      some uptime) :
    ∀ envelope ∈ state.mMessageEnvelopes, uptime ≤ envelope.uptime := by
  intro envelope member
  cases queue : state.mMessageEnvelopes with
  | nil => simp [queue] at member
  | cons first rest =>
      rw [queue] at sorted member found
      rw [nextMessageUptime] at found
      split at found
      next => cases found
      next =>
        cases found
        rcases List.mem_cons.mp member with rfl | old
        · exact Int.le_refl _
        · rcases (List.pairwise_cons.mp sorted).1 envelope old with later | ⟨same, _⟩
          · exact Int.le_of_lt later
          · exact Int.le_of_eq same

theorem Invariant.step (invariant : Invariant state) (taken : Step state event next) :
    Invariant next := by
  cases taken with
  | call uptime handler message idle own =>
      exact { invariant with
        awaited := fun asleep => (invariant.awaited asleep).at (by rw [idle]; nofun) _ }
  | lock entered free =>
      exact { invariant with
        awaited := fun asleep => (invariant.awaited asleep).at (by rw [entered]; nofun) _ }
  | unlock locked => exact invariant.unlock locked
  | @wake thread i unlocked =>
      refine { invariant with awaited := ?_ }
      intro asleep
      by_cases head : i = 0
      · refine .inr (.inl ?_)
        simp only [head, if_true]
        exact wake_pos _
      · simp only [head, if_false]
        refine (invariant.awaited asleep).at ?_ _
        rw [unlocked]
        exact fun same => head (CallPc.unlocked.inj same)
  | wait outside idle =>
      exact { invariant with
        sending := fun sending =>
          PollPc.noConfusion ((invariant.sending sending).symm.trans outside)
        awaited := fun _ => invariant.awaited (.inl outside) }
  | returns result waiting readable =>
      exact { invariant with
        sending := fun sending =>
          PollPc.noConfusion ((invariant.sending sending).symm.trans waiting)
        awaited := nofun }
  | pollLock returned free =>
      exact { invariant with
        sending := fun sending =>
          PollPc.noConfusion ((invariant.sending sending).symm.trans returned)
        awaited := nofun }
  | done locked =>
      exact { invariant with
        sending := fun sending =>
          PollPc.noConfusion ((invariant.sending sending).symm.trans locked)
        awaited := nofun }
  | dispatch dispatching first due =>
      have sorted := invariant.sorted
      have numbers := invariant.numbers
      rw [first] at sorted numbers
      exact {
        sorted := (List.pairwise_cons.mp sorted).2
        numbers := fun envelope member => numbers envelope (List.mem_cons_of_mem _ member)
        sending := fun _ => rfl
        awaited := nofun }
  | handled handling idle free =>
      exact { invariant with
        sending := nofun
        awaited := nofun }
  | finish dispatching found =>
      have later := next_le_of_nextMessageUptime invariant.sorted found
      exact { invariant with
        sending := fun sending =>
          PollPc.noConfusion ((invariant.sending sending).symm.trans dispatching)
        awaited := fun _ => .inl later }

end Steps

/-- Whatever the threads do, the queue is in order, and the polling thread does not
sleep past a message unnoticed. -/
theorem looper_wakes {events : List (Event H M ι)} {state : State H M ι}
    (run : Run Step State.init events state) :
    state.mMessageEnvelopes.Pairwise Before ∧ (state.poller.Asleep → state.Awaited) := by
  have invariant : Invariant state :=
    run.invariant Invariant Invariant.init fun invariant taken => invariant.step taken
  exact ⟨invariant.sorted, invariant.awaited⟩

/-- A message arrives while the polling thread is in `epoll_wait`. -/
theorem looper_wakes_waiting :
    ∃ (events : List (Event Unit Nat Unit)) (state : State Unit Nat Unit),
      Run Step State.init events state ∧ state.poller = .waiting ∧
        state.mNextMessageUptime = llongMax ∧
        state.mMessageEnvelopes = [{ uptime := 5, handler := (), message := 7, order := 0 }] ∧
        state.Awaited := by
  let asleep : State Unit Nat Unit := { State.init with poller := .waiting }
  let entered := asleep.at (some ()) (.entered 5 () 7)
  let locked : State Unit Nat Unit :=
    { entered.at (some ()) (.locked 5 () 7) with mLock := some (some ()) }
  have called : Step asleep (.call (some ()) 5 () 7) entered := .call 5 () 7 rfl nofun
  have run : Run Step State.init [.wait, .call (some ()) 5 () 7, .lock (some ())] locked :=
    ((Run.single (.wait rfl rfl)).snoc called).snoc (.lock rfl rfl)
  have unlocked : Step locked (.unlock (some ())) _ := .unlock rfl
  have inserted := run.snoc unlocked
  exact ⟨_, _, inserted, rfl, rfl, rfl, (looper_wakes inserted).2 (.inr rfl)⟩

end DroidKernal.Utils.Polling
