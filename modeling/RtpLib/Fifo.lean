/-
This file is the library of bounded first-in first-out queues and of their
cyclic representation. A queue is a list with a bound on its length as a field,
so that no overfull queue can be built. Its cyclic representation reads the list
off a store of cells: `count` cells from a start position, counted modulo the
period of the store.

The period and the capacity are separate numbers. All that the representation
asks is that a push finds its cell free, which is the case as long as fewer
cells are in use than the period has.
-/

import Mathlib.Data.List.Basic
import Mathlib.Data.Nat.ModEq
import Mathlib.Logic.Function.Basic

namespace Fifo

variable {Item : Type}

/-! ### Bounded queues -/

/-- A queue of at most `capacity` items, the oldest one first. -/
structure Queue (Item : Type) (capacity : Nat) where
  items : List Item
  bounded : items.length ≤ capacity

namespace Queue

variable {capacity : Nat}

/-- The queue without items. -/
def empty : Queue Item capacity := ⟨[], Nat.zero_le _⟩

/-- Append an item, or refuse it when the queue is full. -/
def push (queue : Queue Item capacity) (item : Item) : Bool × Queue Item capacity :=
  if room : queue.items.length < capacity then
    (true, ⟨queue.items ++ [item], by rw [List.length_append]; exact room⟩)
  else (false, queue)

/-- Append as many items as there is room for, and count them. -/
def pushAll (queue : Queue Item capacity) (items : List Item) : Nat × Queue Item capacity :=
  (min items.length (capacity - queue.items.length),
    ⟨queue.items ++ items.take (capacity - queue.items.length), by
      have bounded := queue.bounded
      rw [List.length_append, List.length_take]
      omega⟩)

/-- Remove some of the oldest items. -/
def drop (queue : Queue Item capacity) (count : Nat) : Queue Item capacity :=
  ⟨queue.items.drop count, by
    rw [List.length_drop]
    exact (Nat.sub_le _ _).trans queue.bounded⟩

/-- Remove the oldest item, if there is one. -/
def pop (queue : Queue Item capacity) : Option Item × Queue Item capacity :=
  (queue.items.head?, ⟨queue.items.tail, by
    rw [List.length_tail]
    exact (Nat.sub_le _ _).trans queue.bounded⟩)

theorem push_of_room (queue : Queue Item capacity) (item : Item)
    (room : queue.items.length < capacity) :
    (queue.push item).1 = true ∧ (queue.push item).2.items = queue.items ++ [item] := by
  simp [push, room]

theorem push_of_full (queue : Queue Item capacity) (item : Item)
    (full : ¬ queue.items.length < capacity) : queue.push item = (false, queue) := by
  simp [push, full]

theorem pushAll_nil (queue : Queue Item capacity) : queue.pushAll [] = (0, queue) := by
  obtain ⟨items, bounded⟩ := queue
  simp [pushAll]

/-- While there is room, items are appended one after the other. -/
theorem pushAll_of_room (queue : Queue Item capacity) (item : Item) (rest : List Item)
    (room : queue.items.length < capacity) :
    queue.pushAll (item :: rest) =
      (((queue.push item).2.pushAll rest).1 + 1, ((queue.push item).2.pushAll rest).2) := by
  have more : capacity - queue.items.length = capacity - (queue.items.length + 1) + 1 := by omega
  simp only [pushAll, push, room, dif_pos, List.length_append, List.length_cons, List.length_nil,
    Nat.zero_add, more, List.take_succ_cons, List.append_assoc, List.singleton_append,
    Nat.add_min_add_right]

theorem pushAll_of_full (queue : Queue Item capacity) (items : List Item)
    (full : ¬ queue.items.length < capacity) : queue.pushAll items = (0, queue) := by
  have none_free : capacity - queue.items.length = 0 := by omega
  obtain ⟨queued, bounded⟩ := queue
  simp only [pushAll, none_free, Nat.min_zero, List.take_zero, List.append_nil]

end Queue

/-! ### Positions of a cyclic store -/

/-- The position after a position below the period. -/
theorem next_position {period position : Nat} (inside : position < period) :
    (if position + 1 ≥ period then 0 else position + 1) = (position + 1) % period := by
  split
  · have last : position + 1 = period := by omega
    rw [last, Nat.mod_self]
  · exact (Nat.mod_eq_of_lt (by omega)).symm

/-- Two distances below the period lead to two positions. -/
theorem position_injective {period start first second : Nat} (firstInside : first < period)
    (secondInside : second < period) (same : (start + first) % period = (start + second) % period) :
    first = second :=
  Nat.ModEq.eq_of_lt_of_lt (Nat.ModEq.add_left_cancel' start same) firstInside secondInside

/-! ### The contents of a cyclic store -/

/-- The items in `count` cells from `start` on, modulo the period. -/
def contents (cells : Nat → Item) (period start count : Nat) : List Item :=
  (List.range count).map fun index => cells ((start + index) % period)

variable {cells : Nat → Item} {period start count : Nat}

@[simp] theorem length_contents : (contents cells period start count).length = count := by
  rw [contents, List.length_map, List.length_range]

@[simp] theorem contents_zero : contents cells period start 0 = [] := rfl

/-- One cell more is one item more at the end. -/
theorem contents_succ_last :
    contents cells period start (count + 1) =
      contents cells period start count ++ [cells ((start + count) % period)] := by
  simp only [contents, List.range_succ, List.map_append, List.map_cons, List.map_nil]

/-- The first cell holds the oldest item, and the rest starts one position further. -/
theorem contents_succ_first :
    contents cells period start (count + 1) =
      cells (start % period) :: contents cells period ((start + 1) % period) count := by
  simp only [contents, List.range_succ_eq_map, List.map_cons, List.map_map, Nat.add_zero]
  refine congrArg (cells (start % period) :: ·) (List.map_congr_left fun index _ => ?_)
  simp only [Function.comp, Nat.mod_add_mod, Nat.succ_eq_add_one]
  rw [Nat.add_right_comm start 1 index, Nat.add_assoc]

/-- Writing the cell after the last one in use leaves the contents alone. -/
theorem contents_update_free (item : Item) (free : count < period) :
    contents (Function.update cells ((start + count) % period) item) period start count =
      contents cells period start count := by
  refine List.map_congr_left fun index member => ?_
  have used : index < count := List.mem_range.mp member
  refine Function.update_of_ne (fun same => ?_) _ _
  exact absurd (position_injective (used.trans free) free same) (Nat.ne_of_lt used)

/-- Writing an item to the cell after the last one in use, and counting it, is a push. -/
theorem contents_push (item : Item) (free : count < period) :
    contents (Function.update cells ((start + count) % period) item) period start (count + 1) =
      contents cells period start count ++ [item] := by
  rw [contents_succ_last, contents_update_free item free, Function.update_self]

end Fifo
