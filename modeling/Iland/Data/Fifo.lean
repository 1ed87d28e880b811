import Iland.Data.Ring

namespace Iland.Data

/-! Bounded queues with a record of what became of each element.

The elements that were pushed are, in order, those that are gone and those that
wait.  An element goes when it is taken, or when a push finds no room and
discards the oldest one.
-/

structure Fifo (α : Type*) where
  /-- The elements that left, and whether they were taken. -/
  gone : List (α × Bool)
  queue : List α

namespace Fifo

variable {α : Type*} {limit : ℕ} (fifo : Fifo α)

def pushed : List α := fifo.gone.map Prod.fst ++ fifo.queue

def taken : List α := fifo.gone.filterMap fun (x, wasTaken) => if wasTaken then some x else none

def push (limit : ℕ) (x : α) : Fifo α :=
  if fifo.queue.length < limit then { fifo with queue := fifo.queue ++ [x] }
  else
    match fifo.queue with
    | [] => { fifo with gone := fifo.gone ++ [(x, false)] }
    | oldest :: rest => ⟨fifo.gone ++ [(oldest, false)], rest ++ [x]⟩

def pop : Fifo α :=
  match fifo.queue with
  | [] => fifo
  | x :: rest => ⟨fifo.gone ++ [(x, true)], rest⟩

theorem pushed_push (x : α) : (fifo.push limit x).pushed = fifo.pushed ++ [x] := by
  simp only [push, pushed]
  split
  · simp
  · cases fifo.queue <;> simp

theorem taken_push (x : α) : (fifo.push limit x).taken = fifo.taken := by
  simp only [push, taken]
  split
  · rfl
  · cases fifo.queue <;> simp

theorem queue_push (fits : fifo.queue.length ≤ limit) (x : α) :
    (fifo.push limit x).queue = pushBounded limit fifo.queue x := by
  simp only [push, pushBounded]
  split
  · rename_i room
    rw [Nat.sub_eq_zero_of_le room, List.drop_zero]
  · rename_i full
    have one : fifo.queue.length + 1 - limit = 1 := by omega
    rw [one]
    cases fifo.queue <;> simp

theorem pushed_pop : fifo.pop.pushed = fifo.pushed := by
  cases queue : fifo.queue <;> simp [pop, pushed, queue]

theorem taken_pop : fifo.pop.taken = fifo.taken ++ fifo.queue.head?.toList := by
  cases queue : fifo.queue <;> simp [pop, taken, queue]

theorem queue_pop : fifo.pop.queue = fifo.queue.tail := by
  cases queue : fifo.queue <;> simp [pop, queue]

end Fifo

end Iland.Data
