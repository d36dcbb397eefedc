import TympanApo.Support.Run

/-!
# The bounded first-in first-out queue

The abstract object that a single-producer single-consumer ring implements:
a list of at most `capacity` items, with the two refusals as operations of
their own so that a refusal is only possible when it is justified.
-/

namespace TympanApo.Support.BoundedQueue

variable {α : Type*}

/-- Operations of a bounded queue, with their results. -/
inductive Op (α : Type*)
  | enqueue (value : α)
  | full
  | dequeue (value : α)
  | empty

/-- One operation on the contents of a queue of the given capacity. -/
inductive Step (capacity : ℕ) : List α → Op α → List α → Prop
  | enqueue {q : List α} {value : α} (h : q.length < capacity) :
      Step capacity q (.enqueue value) (q ++ [value])
  | full {q : List α} (h : q.length = capacity) : Step capacity q .full q
  | dequeue {q : List α} {value : α} :
      Step capacity (value :: q) (.dequeue value) q
  | empty : Step capacity [] .empty []

/-- The value an operation put into the queue. -/
def Op.enqueuedValue : Op α → Option α
  | .enqueue value => some value
  | _ => none

/-- The value an operation took out of the queue. -/
def Op.dequeuedValue : Op α → Option α
  | .dequeue value => some value
  | _ => none

/-- Along every path the values put in are those taken out followed by those
still held, in order. -/
theorem enqueued_eq_dequeued_append {capacity : ℕ} {ops : List (Op α)}
    {q : List α} (h : Path (Step capacity) [] ops q) :
    ops.filterMap Op.enqueuedValue = ops.filterMap Op.dequeuedValue ++ q := by
  induction h with
  | nil => rfl
  | snoc _ hstep ih =>
      rw [List.filterMap_append, List.filterMap_append, ih]
      cases hstep with
      | enqueue =>
          simp [List.filterMap_cons, Op.enqueuedValue, Op.dequeuedValue]
      | full =>
          simp [List.filterMap_cons, Op.enqueuedValue, Op.dequeuedValue]
      | dequeue =>
          simp [List.filterMap_cons, Op.enqueuedValue, Op.dequeuedValue]
      | empty =>
          simp [List.filterMap_cons, Op.enqueuedValue, Op.dequeuedValue]

/-- What a bounded queue has given out is a prefix of what it has taken in. -/
theorem dequeued_prefix_enqueued {capacity : ℕ} {ops : List (Op α)}
    {q : List α} (h : Path (Step capacity) [] ops q) :
    ops.filterMap Op.dequeuedValue <+: ops.filterMap Op.enqueuedValue :=
  ⟨q, (enqueued_eq_dequeued_append h).symm⟩

end TympanApo.Support.BoundedQueue
