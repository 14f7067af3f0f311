import DroidKernal.Lib.Run
import Mathlib.Data.List.Perm.Basic
import Mathlib.Order.Lattice

/-!
# Queues of timed items

Items are put into the queue with a due time and are numbered in that order.  They
are taken out by passes that read a clock.  The machine below takes the earliest
item once it is due, and ends a pass only when nothing is due; `delivers` says what
that means for the history of such a queue.
-/

namespace Lib

/-- What happens to a queue: an item is put, an item is taken after the clock was
read, or a pass ends, possibly after a reading. -/
inductive QueueEvent (α τ : Type*) where
  | put (item : α)
  | take (now : τ) (item : α)
  | settle (now : Option τ)

namespace TimedQueue

variable {α τ : Type*}

/-- The items put. -/
def puts (events : List (QueueEvent α τ)) : List α :=
  events.filterMap fun
    | .put item => some item
    | _ => none

/-- The items taken. -/
def takes (events : List (QueueEvent α τ)) : List α :=
  events.filterMap fun
    | .take _ item => some item
    | _ => none

/-- The clock values read. -/
def clocks (events : List (QueueEvent α τ)) : List τ :=
  events.filterMap fun
    | .put _ => none
    | .take now _ => some now
    | .settle now => now

variable (due : α → τ) (number : α → Nat)

/-- The items put and not yet taken. -/
def queued (events : List (QueueEvent α τ)) : List α :=
  (puts events).filter fun item => number item ∉ (takes events).map number

section Snoc

variable {number} {events : List (QueueEvent α τ)}

theorem puts_snoc (event : QueueEvent α τ) :
    puts (events ++ [event]) = puts events ++ puts [event] :=
  List.filterMap_append

theorem takes_snoc (event : QueueEvent α τ) :
    takes (events ++ [event]) = takes events ++ takes [event] :=
  List.filterMap_append

theorem clocks_snoc (event : QueueEvent α τ) :
    clocks (events ++ [event]) = clocks events ++ clocks [event] :=
  List.filterMap_append

theorem queued_settle (now : Option τ) :
    queued number (events ++ [.settle now]) = queued number events := by
  have noPut : puts [QueueEvent.settle now] = ([] : List α) := rfl
  have noTake : takes [QueueEvent.settle now] = ([] : List α) := rfl
  rw [queued, puts_snoc, takes_snoc, noPut, noTake, List.append_nil, List.append_nil, queued]

theorem queued_take (now : τ) (item : α) :
    queued number (events ++ [.take now item]) =
      (queued number events).filter fun other => number other ≠ number item := by
  have noPut : puts [QueueEvent.take now item] = ([] : List α) := rfl
  have taken : takes [QueueEvent.take now item] = [item] := rfl
  rw [queued, puts_snoc, takes_snoc, noPut, taken, List.append_nil, queued, List.filter_filter]
  apply List.filter_congr
  intro other _
  rw [List.map_append, List.map_singleton]
  simp [or_comm]

theorem queued_put {item : α} (new : number item ∉ (takes events).map number) :
    queued number (events ++ [.put item]) = queued number events ++ [item] := by
  have isPut : puts [(QueueEvent.put item : QueueEvent α τ)] = [item] := rfl
  have noTake : takes [(QueueEvent.put item : QueueEvent α τ)] = [] := rfl
  rw [queued, puts_snoc, takes_snoc, isPut, noTake, List.append_nil, List.filter_append, queued,
    List.filter_singleton]
  simp only [new, not_false_eq_true, decide_true, cond_true]

end Snoc

variable [LinearOrder τ]

/-- An item goes before another: it is due sooner, or as soon and was put first. -/
def Earlier (first second : α) : Prop :=
  due first < due second ∨ due first = due second ∧ number first ≤ number second

instance : Std.Total (Earlier due number) where
  total first second := by
    rcases lt_trichotomy (due first) (due second) with sooner | same | later
    · exact .inl (.inl sooner)
    · rcases Nat.le_total (number first) (number second) with before | after
      · exact .inl (.inr ⟨same, before⟩)
      · exact .inr (.inr ⟨same.symm, after⟩)
    · exact .inr (.inl later)

instance : IsTrans α (Earlier due number) where
  trans first second third := by
    rintro (sooner | ⟨same, before⟩) (sooner' | ⟨same', before'⟩)
    · exact .inl (lt_trans sooner sooner')
    · exact .inl (same' ▸ sooner)
    · exact .inl (same ▸ sooner')
    · exact .inr ⟨same.trans same', Nat.le_trans before before'⟩

/-- A history in which no item is lost, repeated, early or out of order: each is
taken at most once, and only after it was put; it is due when it is taken, and the
earliest of those in the queue; and when a pass ends, no clock value read so far
had reached the due time of an item that stays behind. -/
structure Delivers (events : List (QueueEvent α τ)) : Prop where
  once : ((takes events).map number).Nodup
  own : ∀ item ∈ takes events, item ∈ puts events
  taken : ∀ before now item, before ++ [.take now item] <+: events →
    item ∈ queued number before ∧ due item ≤ now ∧
      ∀ other ∈ queued number before, Earlier due number item other
  settled : ∀ before now, before ++ [.settle now] <+: events →
    ∀ item ∈ queued number before, ∀ clock ∈ clocks (before ++ [.settle now]), clock < due item

/-- The state of the machine. -/
structure State (α τ : Type*) where
  pending : List α
  count : Nat
  clock : τ

/-- The machine. -/
inductive Step : State α τ → QueueEvent α τ → State α τ → Prop where
  | put {state : State α τ} {item : α} (numbered : number item = state.count) :
      Step state (.put item)
        { state with pending := item :: state.pending, count := state.count + 1 }
  | take {state : State α τ} {item : α} {rest : List α} {now : τ}
      (held : state.pending.Perm (item :: rest)) (later : state.clock ≤ now)
      (reached : due item ≤ now) (least : ∀ other ∈ state.pending, Earlier due number item other) :
      Step state (.take now item) { state with pending := rest, clock := now }
  | settle {state : State α τ} {now : τ} (later : state.clock ≤ now)
      (waiting : ∀ item ∈ state.pending, now < due item) :
      Step state (.settle (some now)) { state with clock := now }
  | drained {state : State α τ} (nothing : state.pending = []) :
      Step state (.settle none) state

section History

variable {due number}

/-- What relates the machine to its history. -/
structure Recorded (due : α → τ) (number : α → Nat) (events : List (QueueEvent α τ))
    (state : State α τ) : Prop where
  delivers : Delivers due number events
  pending : state.pending.Perm (queued number events)
  numbers : ∀ item ∈ puts events, number item < state.count
  distinct : ((puts events).map number).Nodup
  clock : ∀ clock ∈ clocks events, clock ≤ state.clock

theorem Recorded.init (start : τ) :
    Recorded due number [] { pending := [], count := 0, clock := start } where
  delivers := {
    once := .nil
    own := by simp [takes]
    taken := by
      intro before now item isPrefix
      simp at isPrefix
    settled := by
      intro before now isPrefix
      simp at isPrefix }
  pending := .nil
  numbers := by simp [puts]
  distinct := .nil
  clock := by simp [clocks]

variable {events : List (QueueEvent α τ)} {state : State α τ}

/-- A history goes on with an event that is in order. -/
theorem Delivers.snoc (delivers : Delivers due number events) {event : QueueEvent α τ}
    (once : ((takes (events ++ [event])).map number).Nodup)
    (own : ∀ item ∈ takes [event], item ∈ puts events)
    (taken : ∀ now item, event = .take now item →
      item ∈ queued number events ∧ due item ≤ now ∧
        ∀ other ∈ queued number events, Earlier due number item other)
    (settled : ∀ now, event = .settle now →
      ∀ item ∈ queued number events, ∀ clock ∈ clocks (events ++ [event]), clock < due item) :
    Delivers due number (events ++ [event]) where
  once := once
  own := by
    intro item isTaken
    rw [takes_snoc] at isTaken
    rw [puts_snoc]
    apply List.mem_append_left
    rcases List.mem_append.mp isTaken with before | last
    · exact delivers.own item before
    · exact own item last
  taken := by
    intro before now item isPrefix
    rcases List.prefix_concat_iff.mp isPrefix with whole | earlier
    · obtain ⟨rfl, last⟩ := List.append_inj' whole rfl
      exact taken now item (List.singleton_inj.mp last).symm
    · exact delivers.taken before now item earlier
  settled := by
    intro before now isPrefix
    rcases List.prefix_concat_iff.mp isPrefix with whole | earlier
    · obtain ⟨rfl, last⟩ := List.append_inj' whole rfl
      rw [List.singleton_inj.mp last]
      exact settled now (List.singleton_inj.mp last).symm
    · exact delivers.settled before now earlier

theorem Recorded.put (recorded : Recorded due number events state) {item : α}
    (numbered : number item = state.count) :
    Recorded due number (events ++ [.put item])
      { state with pending := item :: state.pending, count := state.count + 1 } := by
  have new : ∀ other ∈ puts events, number other ≠ number item := by
    intro other isPut same
    have := recorded.numbers other isPut
    omega
  have notTaken : number item ∉ (takes events).map number := by
    intro isTaken
    obtain ⟨other, taken, same⟩ := List.mem_map.mp isTaken
    exact new other (recorded.delivers.own other taken) same
  exact {
    delivers := recorded.delivers.snoc (by simpa [takes_snoc, takes] using recorded.delivers.once)
      (by simp [takes]) nofun nofun
    pending := by
      rw [queued_put notTaken]
      exact (recorded.pending.cons item).trans (List.perm_append_singleton item _).symm
    numbers := by
      intro other isPut
      rw [puts_snoc] at isPut
      rcases List.mem_append.mp isPut with before | last
      · exact Nat.lt_succ_of_lt (recorded.numbers other before)
      · cases List.mem_singleton.mp last
        exact numbered ▸ Nat.lt_succ_self _
    distinct := by
      rw [puts_snoc, List.map_append]
      refine List.nodup_append.mpr ⟨recorded.distinct, List.pairwise_singleton .., ?_⟩
      intro first isFirst second isSecond
      obtain ⟨other, isPut, rfl⟩ := List.mem_map.mp isFirst
      cases List.mem_singleton.mp isSecond
      exact new other isPut
    clock := by
      rw [clocks_snoc]
      simpa [clocks] using recorded.clock }

theorem Recorded.take (recorded : Recorded due number events state) {item : α} {rest : List α}
    {now : τ} (held : state.pending.Perm (item :: rest)) (later : state.clock ≤ now)
    (reached : due item ≤ now) (least : ∀ other ∈ state.pending, Earlier due number item other) :
    Recorded due number (events ++ [.take now item])
      { state with pending := rest, clock := now } := by
  have isPending : item ∈ state.pending := held.mem_iff.mpr List.mem_cons_self
  have isQueued : item ∈ queued number events := recorded.pending.mem_iff.mp isPending
  obtain ⟨isPut, notTaken⟩ := List.mem_filter.mp isQueued
  have distinct : ((queued number events).map number).Nodup :=
    recorded.distinct.sublist (List.filter_sublist.map number)
  have split : (queued number events).Perm (item :: rest) := recorded.pending.symm.trans held
  have others : ∀ other ∈ rest, number other ≠ number item := by
    have noRepeat := (split.map number).nodup_iff.mp distinct
    rw [List.map_cons, List.nodup_cons] at noRepeat
    intro other inRest same
    exact noRepeat.1 (List.mem_map.mpr ⟨other, inRest, same⟩)
  exact {
    delivers := by
      apply recorded.delivers.snoc
      · rw [takes_snoc, List.map_append]
        refine List.nodup_append.mpr ⟨recorded.delivers.once, List.pairwise_singleton .., ?_⟩
        intro first isFirst second isSecond same
        cases List.mem_singleton.mp isSecond
        rw [same] at isFirst
        simp [isFirst] at notTaken
      · intro other isTaken
        cases List.mem_singleton.mp isTaken
        exact isPut
      · intro clock other same
        cases same
        refine ⟨isQueued, reached, ?_⟩
        intro other otherQueued
        exact least other (recorded.pending.mem_iff.mpr otherQueued)
      · nofun
    pending := by
      rw [queued_take]
      apply List.Perm.trans _ (split.filter _).symm
      rw [List.filter_cons_of_neg (by simp), List.filter_eq_self.mpr]
      intro other inRest
      simpa using others other inRest
    numbers := by
      rw [puts_snoc]
      simpa [puts] using recorded.numbers
    distinct := by
      rw [puts_snoc]
      simpa [puts] using recorded.distinct
    clock := by
      intro clock isRead
      rw [clocks_snoc] at isRead
      rcases List.mem_append.mp isRead with before | last
      · exact le_trans (recorded.clock clock before) later
      · cases List.mem_singleton.mp last
        exact le_refl now }

/-- The end of a pass. -/
theorem Recorded.settle (recorded : Recorded due number events state) (now : Option τ) {clock : τ}
    (later : state.clock ≤ clock) (read : ∀ reading ∈ now, reading ≤ clock)
    (waiting : ∀ item ∈ state.pending, clock < due item) :
    Recorded due number (events ++ [.settle now]) { state with clock } := by
  have upTo : ∀ reading ∈ clocks (events ++ [.settle now]), reading ≤ clock := by
    intro reading isRead
    rw [clocks_snoc] at isRead
    rcases List.mem_append.mp isRead with before | last
    · exact le_trans (recorded.clock reading before) later
    · cases now with
      | none => simp [clocks] at last
      | some now =>
          exact read reading (List.mem_singleton.mp last ▸ rfl)
  exact {
    delivers := by
      apply recorded.delivers.snoc
      · simpa [takes_snoc, takes] using recorded.delivers.once
      · simp [takes]
      · nofun
      · intro _ _ item isQueued reading isRead
        have isPending := recorded.pending.mem_iff.mpr isQueued
        exact lt_of_le_of_lt (upTo reading isRead) (waiting item isPending)
    pending := by
      rw [queued_settle]
      exact recorded.pending
    numbers := by
      rw [puts_snoc]
      simpa [puts] using recorded.numbers
    distinct := by
      rw [puts_snoc]
      simpa [puts] using recorded.distinct
    clock := upTo }

/-- Every run of the machine delivers, and what it holds is what is queued. -/
theorem run_recorded {start : τ}
    (run : Run (Step due number) { pending := [], count := 0, clock := start } events state) :
    Recorded due number events state := by
  apply run.history_invariant (Recorded due number) (Recorded.init start)
  intro events state event next recorded step
  cases step with
  | put numbered => exact recorded.put numbered
  | take held later reached least => exact recorded.take held later reached least
  | settle later waiting => exact recorded.settle (some _) later (by simp) waiting
  | drained nothing => exact recorded.settle none (le_refl state.clock) nofun (by simp [nothing])

end History

end TimedQueue

end Lib
