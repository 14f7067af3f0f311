import Mathlib.Data.List.Basic

/-!
# Runs of labelled transition systems

A run records the events of its steps in order.  The four induction
principles below are the only ones the development uses: an invariant of
states, an invariant that also speaks about the events so far, the erasure of
events that leave no trace, and a forward simulation in which one concrete step
is answered by a list of abstract ones.
-/

namespace Lib

variable {σ ε : Type*}

/-- The states reachable from `start`, with the events on the way. -/
inductive Run (step : σ → ε → σ → Prop) (start : σ) : List ε → σ → Prop where
  | nil : Run step start [] start
  | snoc {events : List ε} {state next : σ} {event : ε} :
      Run step start events state → step state event next →
      Run step start (events ++ [event]) next

/-- The last event of a history, as far as it counts. -/
theorem filterMap_snoc {α : Type*} (f : ε → Option α) (events : List ε) (event : ε) :
    (events ++ [event]).filterMap f = events.filterMap f ++ (f event).toList := by
  rw [List.filterMap_append]
  cases counts : f event <;> simp [counts]

namespace Run

variable {step : σ → ε → σ → Prop} {start state : σ} {events : List ε}

theorem single {event : ε} {next : σ} (taken : step start event next) :
    Run step start [event] next :=
  .snoc .nil taken

theorem append {later : List ε} {final : σ} (first : Run step start events state)
    (second : Run step state later final) :
    Run step start (events ++ later) final := by
  induction second with
  | nil => simpa using first
  | snoc _ taken ih =>
      rw [← List.append_assoc]
      exact ih.snoc taken

/-- A run without events stays where it is. -/
theorem nil_inv (run : Run step start [] state) : state = start := by
  generalize nothing : ([] : List ε) = all at run
  cases run with
  | nil => rfl
  | snoc _ _ => exact absurd nothing.symm (List.append_ne_nil_of_right_ne_nil _ (by simp))

/-- The first step of a run. -/
theorem cons_inv {event : ε} (run : Run step start (event :: events) state) :
    ∃ middle, step start event middle ∧ Run step middle events state := by
  generalize whole : event :: events = all at run
  induction run generalizing events with
  | nil => cases whole
  | @snoc before middle next last earlier taken ih =>
      cases before with
      | nil =>
          cases earlier.nil_inv
          cases whole
          exact ⟨_, taken, .nil⟩
      | cons first rest =>
          cases whole
          obtain ⟨after, begins, goesOn⟩ := ih rfl
          exact ⟨after, begins, goesOn.snoc taken⟩

/-- A run whose first step is known. -/
theorem cons {event : ε} {middle : σ} (taken : step start event middle)
    (rest : Run step middle events state) :
    Run step start (event :: events) state :=
  (single taken).append rest

/-- An invariant that one step preserves holds after every run, also when it
relates the state to the events so far. -/
theorem history_invariant (invariant : List ε → σ → Prop) (initially : invariant [] start)
    (preserved : ∀ {events state event next}, invariant events state →
      step state event next → invariant (events ++ [event]) next)
    (run : Run step start events state) : invariant events state := by
  induction run with
  | nil => exact initially
  | snoc _ taken ih => exact preserved ih taken

/-- The special case of an invariant of states. -/
theorem invariant (invariant : σ → Prop) (initially : invariant start)
    (preserved : ∀ {state event next}, invariant state →
      step state event next → invariant next)
    (run : Run step start events state) : invariant state :=
  run.history_invariant (fun _ => invariant) initially preserved

/-- What is known of the last event of every run is known of all events. -/
theorem every_event {p : ε → Prop}
    (last : ∀ {events state event next}, Run step start events state →
      step state event next → p event)
    (run : Run step start events state) : ∀ event ∈ events, p event := by
  induction run with
  | nil => exact fun _ isIn => absurd isIn List.not_mem_nil
  | snoc run taken ih =>
      intro event isIn
      obtain earlier | isLast := List.mem_append.mp isIn
      · exact ih event earlier
      · cases List.mem_singleton.mp isLast
        exact last run taken

/-- A larger step relation has more runs. -/
theorem mono {wider : σ → ε → σ → Prop}
    (included : ∀ {state event next}, step state event next → wider state event next)
    (run : Run step start events state) : Run wider start events state := by
  induction run with
  | nil => exact .nil
  | snoc _ taken ih => exact ih.snoc (included taken)

/-- The steps of a run are those of a smaller relation, if its events are. -/
theorem restrict {allowed : ε → Prop} (run : Run step start events state)
    (within : ∀ event ∈ events, allowed event) :
    Run (fun state event next => step state event next ∧ allowed event) start events state := by
  induction run with
  | nil => exact .nil
  | snoc _ taken ih =>
      have earlier := ih fun event member => within event (List.mem_append_left _ member)
      exact earlier.snoc ⟨taken, within _ (List.mem_append_right _ (List.mem_singleton_self _))⟩

/-- Erasure.  Some events leave no trace in a projection of the states, and the others can
be answered there.  This is known of runs that end in a good state. -/
theorem erase (mine : ε → Prop) [DecidablePred mine] (project : σ → σ) (lawful good : σ → Prop)
    (preserved : ∀ {state event next}, lawful state → step state event next → lawful next)
    (before : ∀ {state event next}, step state event next → good next → good state)
    (own : ∀ {state event next}, lawful state → good next → step state event next →
      mine event → project next = project state)
    (answered : ∀ {state event next}, lawful state → good next → step state event next →
      ¬ mine event → step (project state) event (project next))
    (initially : lawful start) (run : Run step start events state) (isGood : good state) :
    Run step (project start) (events.filter fun event => ¬ mine event) (project state) := by
  have keeps : lawful state ∧
      Run step (project start) (events.filter fun event => ¬ mine event) (project state) := by
    induction run with
    | nil => exact ⟨initially, .nil⟩
    | @snoc events state next event _ taken ih =>
        obtain ⟨isLawful, erased⟩ := ih (before taken isGood)
        refine ⟨preserved isLawful taken, ?_⟩
        rw [List.filter_append]
        by_cases isMine : mine event
        · rw [own isLawful isGood taken isMine]
          simpa [isMine] using erased
        · have answer := erased.snoc (answered isLawful isGood taken isMine)
          simpa [isMine] using answer
  exact keeps.2

/-- Forward simulation.  Every concrete event is observed as a list of abstract
events, which the related abstract state can perform. -/
theorem simulate {τ δ : Type*} {abstractStep : τ → δ → τ → Prop}
    {observe : ε → List δ} {abstractStart : τ} (related : σ → τ → Prop)
    (initially : related start abstractStart)
    (answered : ∀ {state event next abstract}, related state abstract →
      step state event next → ∃ abstractNext,
        Run abstractStep abstract (observe event) abstractNext ∧
          related next abstractNext)
    (run : Run step start events state) :
    ∃ abstract, Run abstractStep abstractStart (events.flatMap observe) abstract ∧
      related state abstract := by
  induction run with
  | nil => exact ⟨abstractStart, .nil, initially⟩
  | snoc _ taken ih =>
      obtain ⟨abstract, abstractRun, relation⟩ := ih
      obtain ⟨abstractNext, answer, nextRelation⟩ := answered relation taken
      refine ⟨abstractNext, ?_, nextRelation⟩
      rw [List.flatMap_append]
      simpa using abstractRun.append answer

end Run

end Lib
