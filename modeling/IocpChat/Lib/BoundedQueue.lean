import Mathlib.Data.List.Basic

/-!
# Bounded queues

A first-in first-out queue that never holds more than `bound` items.  An
operation that cannot be done as a whole is refused.
-/

/-- The items, oldest first. -/
structure BoundedQueue (Item : Type u) (bound : Nat) where
  items : List Item
  within : items.length ≤ bound

namespace BoundedQueue

variable {Item : Type u} {bound : Nat}

def empty : BoundedQueue Item bound :=
  { items := []
    within := Nat.zero_le _ }

def size (queue : BoundedQueue Item bound) : Nat :=
  queue.items.length

def free (queue : BoundedQueue Item bound) : Nat :=
  bound - queue.size

/-- Append a block behind the items. -/
def push (queue : BoundedQueue Item bound) (block : List Item) :
    Option (BoundedQueue Item bound) :=
  if fits : block.length ≤ queue.free then
    some
      { items := queue.items ++ block
        within := by
          have within := queue.within
          change block.length ≤ bound - queue.items.length at fits
          rw [List.length_append]
          omega }
  else none

/-- The oldest items. -/
def front (queue : BoundedQueue Item bound) (count : Nat) :
    Option (List Item) :=
  if count ≤ queue.size then some (queue.items.take count) else none

/-- Drop the oldest items. -/
def pop (queue : BoundedQueue Item bound) (count : Nat) :
    Option (BoundedQueue Item bound) :=
  if count ≤ queue.size then
    some
      { items := queue.items.drop count
        within := by
          have within := queue.within
          rw [List.length_drop]
          omega }
  else none

variable {queue : BoundedQueue Item bound}

theorem push_eq_none {block : List Item}
    (tooLong : queue.free < block.length) : queue.push block = none :=
  dif_neg (Nat.not_le_of_gt tooLong)

theorem front_eq_none {count : Nat} (tooMany : queue.size < count) :
    queue.front count = none :=
  if_neg (Nat.not_le_of_gt tooMany)

theorem pop_eq_none {count : Nat} (tooMany : queue.size < count) :
    queue.pop count = none :=
  if_neg (Nat.not_le_of_gt tooMany)

end BoundedQueue
