import DroidKernal.Utils.Contents
import DroidKernal.Utils.Looper
import Mathlib.Data.List.Sort

/-!
# Delivery of messages

While every removal finds the queue less than half as long as its storage, the
Looper is a queue of timed items: no message is lost, repeated, early or out of
order.  Otherwise the queue is shortened in place, and its elements are overwritten
by the last one.
-/

namespace DroidKernal.Utils

open Lib

variable {H M : Type*}

/-- The condition on a step: inserting finds memory, and removing goes to new
storage, for which it finds memory. -/
def LooperEvent.Fits (state : LooperState H M) : LooperEvent H M → Prop
  | .send heap _ => state.looper.mMessageEnvelopes.GrowFits envelopeTraits heap 1
  | .dispatch heap _ _ => state.looper.mMessageEnvelopes.Reallocates envelopeTraits heap 1
  | _ => True

/-- A step that meets the condition. -/
def FittingStep (state : LooperState H M) (event : LooperEvent H M)
    (next : LooperState H M) : Prop :=
  LooperStep state event next ∧ event.Fits state

/-- The order in which messages are delivered. -/
abbrev Earlier : MessageEnvelope H M → MessageEnvelope H M → Prop :=
  TimedQueue.Earlier MessageEnvelope.uptime MessageEnvelope.order

section Queue

variable {envelopes : VectorImpl (MessageEnvelope H M)} {queue : List (MessageEnvelope H M)}

/-- The loop counts the messages that are due no later. -/
theorem insertionIndex_eq (holds : envelopes.Holds envelopeTraits queue) (uptime : Int)
    {left i : Nat} (rest : i + left = queue.length) :
    insertionIndex envelopes uptime left i =
      i + ((queue.drop i).takeWhile fun envelope => envelope.uptime ≤ uptime).length := by
  induction left generalizing i with
  | zero =>
      rw [insertionIndex, List.drop_of_length_le (by omega)]
      rfl
  | succ left ih =>
      have inside : i < queue.length := by omega
      rw [insertionIndex, holds.slots i inside, List.getElem?_eq_getElem inside,
        List.drop_eq_getElem_cons inside]
      simp only
      split
      next late =>
        rw [ih (by omega), List.takeWhile_cons_of_pos (by simpa using late), List.length_cons]
        omega
      next early =>
        rw [List.takeWhile_cons_of_neg (by simpa using early)]
        rfl

open Classical in
/-- A new message goes where it keeps the queue in order. -/
theorem insertion_sorted {envelope : MessageEnvelope H M}
    (last : ∀ other ∈ queue, other.order < envelope.order) :
    let index := (queue.takeWhile fun other => other.uptime ≤ envelope.uptime).length
    queue.take index ++ List.replicate 1 envelope ++ queue.drop index =
      queue.orderedInsert Earlier envelope := by
  induction queue with
  | nil => rfl
  | cons first rest ih =>
      have after := last first List.mem_cons_self
      rcases le_or_gt first.uptime envelope.uptime with before | sooner
      · have notEarlier : ¬ Earlier envelope first := by
          rintro (sooner | ⟨_, numbered⟩)
          · exact absurd sooner (not_lt.mpr before)
          · exact absurd after (Nat.not_lt.mpr numbered)
        rw [List.takeWhile_cons_of_pos (by simpa using before),
          List.orderedInsert_of_not_le _ rest notEarlier,
          ← ih fun other isRest => last other (List.mem_cons_of_mem first isRest)]
        rfl
      · rw [List.takeWhile_cons_of_neg (by simpa using sooner),
          List.orderedInsert_cons_of_le _ rest (.inl sooner)]
        rfl

end Queue

/-- The abstract queue behind a Looper. -/
structure Represents (state : LooperState H M) (abstract : TimedQueue.State (MessageEnvelope H M) Int)
    (queue : List (MessageEnvelope H M)) : Prop where
  holds : state.looper.mMessageEnvelopes.Holds envelopeTraits queue
  sorted : queue.Pairwise Earlier
  pending : abstract.pending.Perm queue
  numbers : ∀ envelope ∈ queue, envelope.order < state.sends
  count : abstract.count = state.sends
  clock : abstract.clock = state.clock

/-- The steps of the abstract queue. -/
abbrev QueueStep : TimedQueue.State (MessageEnvelope H M) Int →
    QueueEvent (MessageEnvelope H M) Int → TimedQueue.State (MessageEnvelope H M) Int → Prop :=
  TimedQueue.Step MessageEnvelope.uptime MessageEnvelope.order

section Steps

variable {state next : LooperState H M} {abstract : TimedQueue.State (MessageEnvelope H M) Int}
  {queue : List (MessageEnvelope H M)}

theorem Represents.init (clock : Int) :
    Represents (LooperState.init clock : LooperState H M)
      { pending := [], count := 0, clock } [] where
  holds := VectorImpl.empty_holds
  sorted := .nil
  pending := .nil
  numbers := by simp
  count := rfl
  clock := rfl

open Classical in
/-- Sending puts the message into the queue. -/
theorem Represents.send (represents : Represents state abstract queue) (heap : Heap)
    {envelope : MessageEnvelope H M} (numbered : envelope.order = state.sends)
    (fits : state.looper.mMessageEnvelopes.GrowFits envelopeTraits heap 1) :
    Represents
      { state with
        looper := (sendMessageAtTime heap state.looper envelope).1
        sends := state.sends + 1 }
      { abstract with
        pending := envelope :: abstract.pending
        count := abstract.count + 1 }
      (queue.orderedInsert Earlier envelope) := by
  have last : ∀ other ∈ queue, other.order < envelope.order := by
    rw [numbered]
    exact represents.numbers
  have count := represents.holds.count
  have index := insertionIndex_eq represents.holds envelope.uptime (Nat.zero_add queue.length)
  rw [Nat.zero_add, List.drop_zero] at index
  obtain ⟨inserted, isInserted, holds⟩ := represents.holds.insertAt envelope
    (List.takeWhile_prefix _).length_le Nat.one_pos fits
  rw [insertion_sorted last] at holds
  exact {
    holds := by
      simp only [sendMessageAtTime, count, index, isInserted]
      exact holds
    sorted := represents.sorted.orderedInsert envelope queue
    pending := (represents.pending.cons envelope).trans (List.perm_orderedInsert _ _ _).symm
    numbers := by
      intro other isQueued
      rcases (List.mem_orderedInsert _).mp isQueued with rfl | before
      · exact numbered ▸ Nat.lt_succ_self _
      · exact Nat.lt_succ_of_lt (represents.numbers other before)
    count := congrArg (· + 1) represents.count
    clock := represents.clock }

/-- The first message is the earliest. -/
theorem Represents.least {first : MessageEnvelope H M} {rest : List (MessageEnvelope H M)}
    (represents : Represents state abstract (first :: rest)) :
    ∀ other ∈ abstract.pending, Earlier first other := by
  intro other isPending
  rcases List.mem_cons.mp (represents.pending.mem_iff.mp isPending) with rfl | inRest
  · exact .inr ⟨rfl, Nat.le_refl _⟩
  · exact List.rel_of_pairwise_cons represents.sorted inRest

theorem Represents.first {first : MessageEnvelope H M} {rest : List (MessageEnvelope H M)}
    (represents : Represents state abstract (first :: rest)) :
    state.looper.mMessageEnvelopes.slot 0 = some first := by
  rw [represents.holds.slots 0 (Nat.zero_lt_succ _)]
  rfl

/-- A turn that handles a message takes the first one out of the queue. -/
theorem Represents.dispatch {first : MessageEnvelope H M} {rest : List (MessageEnvelope H M)}
    (represents : Represents state abstract (first :: rest)) {heap : Heap} {now : Int}
    {envelope : MessageEnvelope H M} {looper : Looper H M}
    (turn : dispatchTurn heap state.looper now = (some envelope, looper))
    (fits : state.looper.mMessageEnvelopes.Reallocates envelopeTraits heap 1) :
    envelope = first ∧ envelope.uptime ≤ now ∧
      Represents { state with looper, control := .handling, clock := now }
        { abstract with pending := rest, clock := now } rest := by
  obtain ⟨removed, isRemoved, holds⟩ :=
    represents.holds.removeItemsAt 0 1 (by simp) fits
  rw [dispatchTurn, represents.first] at turn
  simp only [isRemoved] at turn
  split at turn
  next due =>
    cases turn
    refine ⟨rfl, due, ?_⟩
    exact {
      holds := holds
      sorted := represents.sorted.of_cons
      pending := .refl rest
      numbers := fun other inRest => represents.numbers other (List.mem_cons_of_mem _ inRest)
      count := represents.count
      clock := rfl }
  next => cases turn

/-- A turn that ends the loop finds no message due. -/
theorem Represents.waiting {first : MessageEnvelope H M} {rest : List (MessageEnvelope H M)}
    (represents : Represents state abstract (first :: rest)) {heap : Heap} {now : Int}
    {looper : Looper H M} (turn : dispatchTurn heap state.looper now = (none, looper)) :
    (∀ envelope ∈ abstract.pending, now < envelope.uptime) ∧
      Represents { state with looper, control := .idle, clock := now }
        { abstract with clock := now } (first :: rest) := by
  rw [dispatchTurn, represents.first] at turn
  simp only at turn
  split at turn
  next => cases turn
  next notDue =>
    cases turn
    constructor
    · intro other isPending
      rcases represents.least other isPending with sooner | ⟨same, _⟩
      · exact lt_trans (not_le.mp notDue) sooner
      · exact same ▸ not_le.mp notDue
    · exact { represents with clock := rfl }

/-- Every step that meets the condition is a step of the abstract queue. -/
theorem Represents.step (represents : Represents state abstract queue) {event : LooperEvent H M}
    (step : FittingStep state event next) :
    ∃ abstract' queue', Run QueueStep abstract event.observe abstract' ∧
      Represents next abstract' queue' := by
  obtain ⟨taken, fits⟩ := step
  cases taken with
  | send heap unlocked numbered =>
      refine ⟨_, _, .single (.put ?_), represents.send heap numbered fits⟩
      rw [numbered, represents.count]
  | poll idle => exact ⟨abstract, queue, .nil, { represents with }⟩
  | handled handling => exact ⟨abstract, queue, .nil, { represents with }⟩
  | dispatch heap dispatching nonempty later turn =>
      cases queue with
      | nil => exact absurd represents.holds.count nonempty
      | cons first rest =>
          obtain ⟨rfl, due, next⟩ := represents.dispatch turn fits
          refine ⟨_, _, .single (.take represents.pending ?_ due represents.least), next⟩
          rw [represents.clock]
          exact later
  | waiting heap dispatching nonempty later turn =>
      cases queue with
      | nil => exact absurd represents.holds.count nonempty
      | cons first rest =>
          obtain ⟨notDue, next⟩ := represents.waiting turn
          refine ⟨_, _, .single (.settle ?_ notDue), next⟩
          rw [represents.clock]
          exact later
  | drained dispatching nothing =>
      cases queue with
      | nil =>
          exact ⟨abstract, [], .single (.drained (List.perm_nil.mp represents.pending)),
            { represents with }⟩
      | cons first rest =>
          rw [represents.holds.count] at nothing
          cases nothing

/-- In every run whose steps meet the condition, in every state that it reaches: no
message is lost, repeated, early or out of order, and the queue holds exactly the
messages that were sent and not yet handled. -/
theorem looper_delivers {clock : Int} {events : List (LooperEvent H M)}
    (run : Run FittingStep (.init clock) events state) :
    TimedQueue.Delivers MessageEnvelope.uptime MessageEnvelope.order
        (events.flatMap LooperEvent.observe) ∧
      ∃ queue, state.looper.mMessageEnvelopes.Holds envelopeTraits queue ∧
        queue.Pairwise Earlier ∧
        queue.Perm (TimedQueue.queued MessageEnvelope.order
          (events.flatMap LooperEvent.observe)) := by
  obtain ⟨abstract, abstractRun, queue, represents⟩ :=
    run.simulate (fun state abstract => ∃ queue, Represents state abstract queue)
      ⟨[], .init clock⟩ fun ⟨queue, represents⟩ step => by
        obtain ⟨abstract', queue', answer, next⟩ := represents.step step
        exact ⟨abstract', answer, queue', next⟩
  have recorded := TimedQueue.run_recorded abstractRun
  exact ⟨recorded.delivers, queue, represents.holds, represents.sorted,
    represents.pending.symm.trans recorded.pending⟩

/-- Two messages, of which the later one to be sent is due first. -/
theorem looper_delivers_two :
    let heap : Heap := fun _ => true
    let late : MessageEnvelope Nat Nat := { uptime := 5, handler := 1, message := 10, order := 0 }
    let early : MessageEnvelope Nat Nat := { uptime := 3, handler := 2, message := 20, order := 1 }
    let events : List (LooperEvent Nat Nat) :=
      [.send heap late, .send heap early, .poll, .dispatch heap 3 early, .handled,
        .dispatch heap 6 late, .handled, .finish none]
    ∃ state, Run FittingStep (.init 0) events state ∧
      TimedQueue.Delivers MessageEnvelope.uptime MessageEnvelope.order
        (events.flatMap LooperEvent.observe) := by
  intro heap late early events
  let one : Looper Nat Nat := (sendMessageAtTime heap Looper.init late).1
  let two : Looper Nat Nat :=
    { (sendMessageAtTime heap one early).1 with mNextMessageUptime := llongMax }
  let first : Looper Nat Nat := { (dispatchTurn heap two 3).2 with mSendingMessage := false }
  let second : Looper Nat Nat := { (dispatchTurn heap first 6).2 with mSendingMessage := false }
  have turn : dispatchTurn heap two 3 = (some early, (dispatchTurn heap two 3).2) :=
    Prod.ext (by decide) rfl
  have turn' : dispatchTurn heap first 6 = (some late, (dispatchTurn heap first 6).2) :=
    Prod.ext (by decide) rfl
  have sends : Run FittingStep (.init 0) [.send heap late, .send heap early, .poll]
      { looper := two, control := .dispatching, clock := 0, sends := 2 } := by
    refine .cons ⟨.send heap nofun rfl, ?_⟩ <| .cons ⟨.send heap nofun rfl, ?_⟩ <|
      .single ⟨.poll rfl, trivial⟩
    · exact { size := by decide, allocated := fun _ => rfl }
    · exact { size := by decide, allocated := fun _ => rfl }
  have takes : Run FittingStep { looper := two, control := .dispatching, clock := 0, sends := 2 }
      [.dispatch heap 3 early, .handled, .dispatch heap 6 late, .handled]
      { looper := second, control := .dispatching, clock := 6, sends := 2 } := by
    refine .cons ⟨.dispatch heap rfl (by decide) (by decide) turn, ?_⟩ <|
      .cons ⟨.handled rfl, trivial⟩ <|
      .cons ⟨.dispatch heap rfl (by decide) (by decide) turn', ?_⟩ <| .single ⟨.handled rfl, trivial⟩
    · exact { size := by decide, few := by decide, allocated := rfl }
    · exact { size := by decide, few := by decide, allocated := rfl }
  have finishes : FittingStep { looper := second, control := .dispatching, clock := 6, sends := 2 }
      (.finish none) _ := ⟨.drained rfl (by decide), trivial⟩
  have run := (sends.append takes).snoc finishes
  exact ⟨_, run, (looper_delivers run).1⟩

/-- A message is sent while no pass is on. -/
theorem send_step (looper : Looper H M) (clock : Int) {heap : Heap}
    (envelope : MessageEnvelope H M) :
    LooperStep { looper, control := .idle, clock, sends := envelope.order }
      (.send heap envelope)
      { looper := (sendMessageAtTime heap looper envelope).1, control := .idle, clock,
        sends := envelope.order + 1 } :=
  .send heap nofun rfl

/-- A pass begins. -/
theorem poll_step (looper : Looper H M) (clock : Int) (sends : Nat) :
    LooperStep { looper, control := .idle, clock, sends } .poll
      { looper := { looper with mNextMessageUptime := llongMax }, control := .dispatching, clock,
        sends } :=
  .poll rfl

/-- A turn takes a message. -/
theorem dispatch_step {looper : Looper H M} {clock now : Int} (sends : Nat) {heap : Heap}
    {envelope : MessageEnvelope H M} (nonempty : looper.mMessageEnvelopes.mCount ≠ 0)
    (later : clock ≤ now) (turn : (dispatchTurn heap looper now).1 = some envelope) :
    LooperStep { looper, control := .dispatching, clock, sends } (.dispatch heap now envelope)
      { looper := (dispatchTurn heap looper now).2, control := .handling, clock := now, sends } :=
  .dispatch heap rfl nonempty later (Prod.ext turn rfl)

/-- Its handler returns. -/
theorem handled_step (looper : Looper H M) (clock : Int) (sends : Nat) :
    LooperStep { looper, control := .handling, clock, sends } .handled
      { looper := { looper with mSendingMessage := false }, control := .dispatching, clock,
        sends } :=
  .handled rfl

/-- Three messages in a storage of four: removing the first overwrites the second by
the third. -/
theorem looper_replaces_message :
    let heap : Heap := fun _ => true
    let envelope (order : Nat) : MessageEnvelope Nat Unit :=
      { uptime := 0, handler := order, message := (), order }
    let events : List (LooperEvent Nat Unit) :=
      [.send heap (envelope 0), .send heap (envelope 1), .send heap (envelope 2), .poll,
        .dispatch heap 0 (envelope 0), .handled, .dispatch heap 0 (envelope 2)]
    ∃ state, Run LooperStep (.init 0) events state ∧
      ¬ TimedQueue.Delivers MessageEnvelope.uptime MessageEnvelope.order
        (events.flatMap LooperEvent.observe) := by
  intro heap envelope events
  let sent (looper : Looper Nat Unit) (order : Nat) : Looper Nat Unit :=
    (sendMessageAtTime heap looper (envelope order)).1
  let three : Looper Nat Unit :=
    { sent (sent (sent .init 0) 1) 2 with mNextMessageUptime := llongMax }
  let two : Looper Nat Unit := { (dispatchTurn heap three 0).2 with mSendingMessage := false }
  have sends : Run LooperStep (.init 0)
      [.send heap (envelope 0), .send heap (envelope 1), .send heap (envelope 2)]
      { looper := sent (sent (sent .init 0) 1) 2, control := .idle, clock := 0, sends := 3 } :=
    .cons (send_step _ 0 (envelope 0)) <| .cons (send_step _ 0 (envelope 1)) <|
      .single (send_step _ 0 (envelope 2))
  have polls : LooperStep _ .poll
      { looper := three, control := .dispatching, clock := 0, sends := 3 } := poll_step _ 0 3
  have takesFirst : Run LooperStep
      { looper := three, control := .dispatching, clock := 0, sends := 3 }
      [.dispatch heap 0 (envelope 0), .handled]
      { looper := two, control := .dispatching, clock := 0, sends := 3 } :=
    .cons (dispatch_step 3 (by decide) (by decide) (by decide)) <|
      .single (handled_step _ 0 3)
  have takesThird : LooperStep
      { looper := two, control := .dispatching, clock := 0, sends := 3 }
      (.dispatch heap 0 (envelope 2))
      { looper := (dispatchTurn heap two 0).2, control := .handling, clock := 0, sends := 3 } :=
    dispatch_step 3 (by decide) (by decide) (by decide)
  refine ⟨_, ((sends.snoc polls).append takesFirst).snoc takesThird, ?_⟩
  intro delivers
  have isPrefix : [.put (envelope 0), .put (envelope 1), .put (envelope 2),
      .take 0 (envelope 0)] ++ [.take 0 (envelope 2)] <+: events.flatMap LooperEvent.observe :=
    List.prefix_refl _
  obtain ⟨_, _, least⟩ := delivers.taken _ 0 (envelope 2) isPrefix
  have waiting : envelope 1 ∈ TimedQueue.queued MessageEnvelope.order
      ([.put (envelope 0), .put (envelope 1), .put (envelope 2), .take 0 (envelope 0)] :
        List (QueueEvent (MessageEnvelope Nat Unit) Int)) := by
    decide
  rcases least (envelope 1) waiting with sooner | ⟨_, before⟩
  · exact absurd sooner (by decide)
  · exact absurd before (by decide)

end Steps

end DroidKernal.Utils
