import DroidKernal.Lib.Run

/-!
# First-in first-out queues

The abstract machine a message buffer is meant to be: a list that grows at the
back and shrinks at the front.
-/

namespace Lib.Fifo

variable {ρ : Type*}

/-- What an outside observer of a queue sees. -/
inductive Event (ρ : Type*) where
  | enqueue (item : ρ)
  | dequeue (item : ρ)

/-- One queue operation. -/
inductive Step : List ρ → Event ρ → List ρ → Prop where
  | enqueue (pending : List ρ) (item : ρ) :
      Step pending (.enqueue item) (pending ++ [item])
  | dequeue (item : ρ) (pending : List ρ) :
      Step (item :: pending) (.dequeue item) pending

/-- The items put in, in order. -/
def enqueued : List (Event ρ) → List ρ
  | [] => []
  | .enqueue item :: events => item :: enqueued events
  | .dequeue _ :: events => enqueued events

/-- The items taken out, in order. -/
def dequeued : List (Event ρ) → List ρ
  | [] => []
  | .enqueue _ :: events => dequeued events
  | .dequeue item :: events => item :: dequeued events

@[simp] theorem enqueued_append (left right : List (Event ρ)) :
    enqueued (left ++ right) = enqueued left ++ enqueued right := by
  induction left with
  | nil => rfl
  | cons event left ih => cases event <;> simp [enqueued, ih]

@[simp] theorem dequeued_append (left right : List (Event ρ)) :
    dequeued (left ++ right) = dequeued left ++ dequeued right := by
  induction left with
  | nil => rfl
  | cons event left ih => cases event <;> simp [dequeued, ih]

@[simp] theorem enqueued_map_enqueue (items : List ρ) :
    enqueued (items.map Event.enqueue) = items := by
  induction items with
  | nil => rfl
  | cons item items ih => simp [enqueued, ih]

@[simp] theorem enqueued_map_dequeue (items : List ρ) :
    enqueued (items.map Event.dequeue) = [] := by
  induction items with
  | nil => rfl
  | cons item items ih => simp [enqueued, ih]

@[simp] theorem dequeued_map_enqueue (items : List ρ) :
    dequeued (items.map Event.enqueue) = [] := by
  induction items with
  | nil => rfl
  | cons item items ih => simp [dequeued, ih]

@[simp] theorem dequeued_map_dequeue (items : List ρ) :
    dequeued (items.map Event.dequeue) = items := by
  induction items with
  | nil => rfl
  | cons item items ih => simp [dequeued, ih]

/-- Conservation and order: what was put in is what was taken out followed by
what is still queued. -/
theorem enqueued_eq {events : List (Event ρ)} {pending : List ρ}
    (run : Run Step [] events pending) :
    enqueued events = dequeued events ++ pending := by
  refine run.history_invariant
    (fun events pending => enqueued events = dequeued events ++ pending) rfl ?_
  intro events pending event next conserved taken
  cases taken with
  | enqueue _ item => simp [conserved, enqueued, dequeued]
  | dequeue item _ => simp [conserved, enqueued, dequeued]

end Lib.Fifo
