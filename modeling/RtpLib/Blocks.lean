/-
This file is the library of stores of cells and of stores cut into blocks. A store
is a total map from positions to items; a slice of it is the list of the items in
some successive cells; a copy overwrites successive cells with those of another
store.

Blocks of one size are read as one store, one block after the other. Filling the
blocks in order, each copy from where the last one ended and none across the end of
a block, appends to the slice that the joined store holds so far.
-/

import Mathlib.Data.List.Basic
import Mathlib.Order.Nat

namespace Blocks

variable {Item : Type}

/-! ### Slices and copies -/

/-- The items in `count` cells from `start` on. -/
def slice (cells : Nat → Item) (start count : Nat) : List Item :=
  (List.range count).map fun index => cells (start + index)

/-- `count` cells of a destination, from `start` on, overwritten with those of a source. -/
def copy (destination : Nat → Item) (start : Nat) (source : Nat → Item)
    (sourceStart count : Nat) (position : Nat) : Item :=
  if start ≤ position ∧ position < start + count then source (sourceStart + (position - start))
  else destination position

variable {cells destination source : Nat → Item} {start sourceStart count : Nat}

@[simp] theorem length_slice : (slice cells start count).length = count := by
  rw [slice, List.length_map, List.length_range]

@[simp] theorem slice_zero : slice cells start 0 = [] := rfl

/-- A slice is cut in two anywhere. -/
theorem slice_add (first second : Nat) :
    slice cells start (first + second) =
      slice cells start first ++ slice cells (start + first) second := by
  simp only [slice, List.range_add, List.map_append, List.map_map, Function.comp_def,
    Nat.add_assoc]

/-- Slices of two stores are equal when the stores agree on the cells. -/
theorem slice_congr {other : Nat → Item} {otherStart : Nat}
    (agree : ∀ index < count, cells (start + index) = other (otherStart + index)) :
    slice cells start count = slice other otherStart count :=
  List.map_congr_left fun index member => agree index (List.mem_range.mp member)

/-- The first items of a slice are a shorter one. -/
theorem take_slice {total : Nat} (within : count ≤ total) :
    (slice cells start total).take count = slice cells start count := by
  obtain ⟨rest, rfl⟩ := Nat.exists_eq_add_of_le within
  rw [slice_add, List.take_left' length_slice]

/-- A copy puts the slice of the source in its place. -/
theorem slice_copy :
    slice (copy destination start source sourceStart count) start count =
      slice source sourceStart count := by
  refine slice_congr fun index inside => ?_
  rw [copy, if_pos ⟨Nat.le_add_right _ _, Nat.add_lt_add_left inside _⟩, Nat.add_sub_cancel_left]

/-- A copy leaves the cells before its place as they were. -/
theorem slice_copy_before {before : Nat} (apart : before ≤ start) :
    slice (copy destination start source sourceStart count) 0 before =
      slice destination 0 before := by
  refine slice_congr fun index inside => ?_
  rw [copy, if_neg fun covered => ?_]
  omega

/-! ### Blocks read as one store -/

/-- Blocks of one size, one after the other. -/
def joined (blocks : Nat → Nat → Item) (size : Nat) (position : Nat) : Item :=
  blocks (position / size) (position % size)

variable {blocks : Nat → Nat → Item} {size block offset : Nat}

theorem joined_apply (inside : offset < size) :
    joined blocks size (block * size + offset) = blocks block offset := by
  have positive : 0 < size := Nat.zero_lt_of_lt inside
  rw [joined, Nat.add_comm, Nat.add_mul_div_right _ _ positive, Nat.add_mul_mod_self_right,
    Nat.div_eq_of_lt inside, Nat.mod_eq_of_lt inside, Nat.zero_add]

/-- A slice that does not leave a block is a slice of the block. -/
theorem slice_joined (within : offset + count ≤ size) :
    slice (joined blocks size) (block * size + offset) count =
      slice (blocks block) offset count := by
  refine slice_congr fun index inside => ?_
  rw [Nat.add_assoc, joined_apply (by omega)]

/-- The blocks one after the other, as lists. -/
theorem flatMap_slice (blocks : Nat → Nat → Item) (size count : Nat) :
    (List.range count).flatMap (fun block => slice (blocks block) 0 size) =
      slice (joined blocks size) 0 (count * size) := by
  induction count with
  | zero => rw [Nat.zero_mul, List.range_zero, List.flatMap_nil, slice_zero]
  | succ count inductionHypothesis =>
    have last : slice (joined blocks size) (count * size) size = slice (blocks count) 0 size :=
      slice_joined (Nat.zero_add size).le
    rw [List.range_succ, List.flatMap_append, inductionHypothesis, Nat.succ_mul, slice_add,
      Nat.zero_add, last, List.flatMap_singleton]

/-- The first items of some blocks of one size. -/
def gathered (size : Nat) (blocks : List (Nat → Item)) (length : Nat) : List Item :=
  (blocks.flatMap fun block => slice block 0 size).take length

/-- Joined blocks agree up to the first block that differs. -/
theorem slice_joined_congr {other : Nat → Nat → Item} (positive : 0 < size)
    (agree : ∀ index < block, other index = blocks index)
    (start_agree : slice (other block) 0 offset = slice (blocks block) 0 offset)
    (within : offset ≤ size) :
    slice (joined other size) 0 (block * size + offset) =
      slice (joined blocks size) 0 (block * size + offset) := by
  have earlier : slice (joined other size) 0 (block * size) =
      slice (joined blocks size) 0 (block * size) := by
    refine slice_congr fun index inside => ?_
    rw [Nat.zero_add, joined, joined, agree _ ((Nat.div_lt_iff_lt_mul positive).mpr inside)]
  have last : slice (joined other size) (block * size) offset =
      slice (joined blocks size) (block * size) offset := by
    have inside : 0 + offset ≤ size := (Nat.zero_add offset).le.trans within
    rw [← Nat.add_zero (block * size), slice_joined inside, slice_joined inside, start_agree]
  rw [slice_add, slice_add, earlier, Nat.zero_add, last]

/-- A copy into a block, from where the filled part ends and not across the end of the block,
appends to what the joined blocks hold. -/
theorem slice_joined_copy {other : Nat → Nat → Item} (positive : 0 < size)
    (agree : ∀ index < block, other index = blocks index)
    (copied : other block = copy (blocks block) offset source sourceStart count)
    (within : offset + count ≤ size) :
    slice (joined other size) 0 (block * size + offset + count) =
      slice (joined blocks size) 0 (block * size + offset) ++ slice source sourceStart count := by
  have earlier := slice_joined_congr positive agree
    (copied ▸ slice_copy_before le_rfl) (le_trans (Nat.le_add_right _ _) within)
  have appended : slice (joined other size) (block * size + offset) count =
      slice source sourceStart count := by
    rw [slice_joined within, copied, slice_copy]
  rw [slice_add, earlier, Nat.zero_add, appended]

/-! ### How many blocks are needed -/

/-- The number of blocks that hold `length` items: the quotient, rounded up. -/
def needed (size length : Nat) : Nat := (length + size - 1) / size

theorem lt_needed_iff {length : Nat} (positive : 0 < size) :
    block < needed size length ↔ block * size < length := by
  rw [needed, ← Nat.succ_le_iff, Nat.le_div_iff_mul_le positive, Nat.succ_mul]
  omega

theorem le_needed_mul (length : Nat) (positive : 0 < size) :
    length ≤ needed size length * size := by
  have not_more : ¬ needed size length < needed size length := lt_irrefl _
  rw [lt_needed_iff positive] at not_more
  exact Nat.le_of_not_lt not_more

theorem needed_le {length : Nat} (positive : 0 < size) (fits : length ≤ count * size) :
    needed size length ≤ count := by
  have not_more : ¬ count < needed size length := by
    rw [lt_needed_iff positive]
    exact Nat.not_lt_of_le fits
  exact Nat.le_of_not_lt not_more

/-- A block is reached only for an item: where items up to a place in a block have been taken,
and there are some in the block or still to come, the block starts before the last one. -/
theorem start_lt {length left total : Nat} (position : block * size + offset = length)
    (started : block = 0 ∨ 0 < offset + left) (reach : length + left ≤ total)
    (positive : 1 ≤ total) : block * size < total := by
  rcases started with rfl | started
  · rw [Nat.zero_mul]
    exact positive
  · omega

end Blocks
