/-
This file is the library of slots that are handed back and forth between a producer
and a consumer. The slots form a ring. The producer fills the slot after the last
one it filled, the consumer gives back the slot after the last one it gave back, and
a mark on each slot says whose turn it is; neither side sees a counter of the other.

The proofs count all the same. A place is the number of slots met before it, all
rounds together, and two places not further apart than the ring is long are two
slots. Below the places given back and filled the marks are determined, and what a
slot holds is what was filled in at its place.

Items that take several slots each are laid one after the other.
-/

import Mathlib.Data.Nat.ModEq
import Mathlib.Logic.Function.Basic

namespace Handoff

variable {Slot Content : Type}

/-! ### Places of a ring -/

/-- `count` slots, met again and again in one order. -/
structure Cyclic (slot : Nat → Slot) (count : Nat) : Prop where
  positive : 0 < count
  again : ∀ place, slot (place + count) = slot place
  apart : ∀ i < count, ∀ j < count, slot i = slot j → i = j

namespace Cyclic

variable {slot : Nat → Slot} {count : Nat}

theorem slot_mod (cyclic : Cyclic slot count) (place : Nat) :
    slot (place % count) = slot place := by
  have rounds : ∀ turns, slot (place % count + count * turns) = slot (place % count) := by
    intro turns
    induction turns with
    | zero => rfl
    | succ turns inductionHypothesis =>
      rw [Nat.mul_succ, ← Nat.add_assoc, cyclic.again, inductionHypothesis]
  rw [← rounds (place / count), Nat.mod_add_div]

theorem modEq (cyclic : Cyclic slot count) {first second : Nat}
    (same : slot first = slot second) : first ≡ second [MOD count] := by
  refine cyclic.apart _ (Nat.mod_lt _ cyclic.positive) _ (Nat.mod_lt _ cyclic.positive) ?_
  rw [cyclic.slot_mod, cyclic.slot_mod, same]

/-- Two places of one round are two slots. -/
theorem eq_of_slot_eq (cyclic : Cyclic slot count) {start first second : Nat}
    (same : slot first = slot second) (firstFrom : start ≤ first)
    (firstBelow : first < start + count) (secondFrom : start ≤ second)
    (secondBelow : second < start + count) : first = second := by
  obtain ⟨i, rfl⟩ := Nat.exists_eq_add_of_le firstFrom
  obtain ⟨j, rfl⟩ := Nat.exists_eq_add_of_le secondFrom
  have distances : i ≡ j [MOD count] := Nat.ModEq.add_left_cancel' start (cyclic.modEq same)
  rw [distances.eq_of_lt_of_lt (Nat.lt_of_add_lt_add_left firstBelow)
    (Nat.lt_of_add_lt_add_left secondBelow)]

end Cyclic

/-! ### Whose turn it is -/

/-- The slots below `filled` have been filled, those below `returned` given back: in the round
from `returned` on, the slots from `filled` on are free, and the ones before hold what was filled
in at their places. -/
structure Split (slot : Nat → Slot) (count : Nat) (free : Slot → Prop) (store : Slot → Content)
    (history : Nat → Content) (returned filled : Nat) : Prop where
  ordered : returned ≤ filled
  bounded : filled ≤ returned + count
  free_iff : ∀ place, returned ≤ place → place < returned + count →
    (free (slot place) ↔ filled ≤ place)
  held : ∀ place, returned ≤ place → place < filled → store (slot place) = history place

namespace Split

variable {slot : Nat → Slot} {count : Nat} {free later : Slot → Prop}
  {store stored : Slot → Content} {history : Nat → Content} {returned filled : Nat}

/-- At the start every slot is free. -/
theorem start (all : ∀ place, free (slot place)) : Split slot count free store history 0 0 where
  ordered := le_rfl
  bounded := Nat.zero_le _
  free_iff place _ _ := iff_of_true (all place) (Nat.zero_le _)
  held _ _ impossible := absurd impossible (Nat.not_lt_zero _)

/-- A slot in use is not free. -/
theorem not_free (split : Split slot count free store history returned filled) {place : Nat}
    (given : returned ≤ place) (used : place < filled) : ¬ free (slot place) := by
  rw [split.free_iff place given (used.trans_le split.bounded)]
  exact Nat.not_le_of_lt used

/-- The next slot to fill is free unless all are in use. -/
theorem free_filled_iff (split : Split slot count free store history returned filled)
    (cyclic : Cyclic slot count) : free (slot filled) ↔ filled < returned + count := by
  constructor
  · intro available
    refine lt_of_le_of_ne split.bounded fun full => ?_
    have used : returned < filled := full ▸ Nat.lt_add_of_pos_right cyclic.positive
    rw [full, cyclic.again] at available
    exact split.not_free le_rfl used available
  · exact fun room => (split.free_iff filled split.ordered room).mpr le_rfl

/-- Filling the next slots, as many as are free: what they hold by then is what counts. -/
theorem fills (split : Split slot count free store history returned filled)
    (cyclic : Cyclic slot count) {turns : Nat} (turns_le : turns ≤ count)
    (available : ∀ turn < turns, free (slot (filled + turn)))
    (marked : ∀ turn < turns, ¬ later (slot (filled + turn)))
    (others : ∀ place, (∀ turn < turns, slot place ≠ slot (filled + turn)) →
      (later (slot place) ↔ free (slot place)))
    (kept : ∀ place, ¬ free (slot place) → stored (slot place) = store (slot place))
    {longer : Nat → Content} (earlier : ∀ place < filled, longer place = history place)
    (latest : ∀ turn < turns, longer (filled + turn) = stored (slot (filled + turn))) :
    Split slot count later stored longer returned (filled + turns) := by
  have room : filled + turns ≤ returned + count := by
    by_contra beyond
    obtain ⟨turn, full⟩ := Nat.exists_eq_add_of_le split.bounded
    have inside : turn < turns := by omega
    have again := available turn inside
    rw [← full, cyclic.again, split.free_iff returned le_rfl
      (Nat.lt_add_of_pos_right cyclic.positive)] at again
    omega
  have apart : ∀ place, returned ≤ place → place < returned + count →
      (place < filled ∨ filled + turns ≤ place) →
        ∀ turn < turns, slot place ≠ slot (filled + turn) := by
    intro place given below outside turn inside same
    have equal := cyclic.eq_of_slot_eq same given below
      (split.ordered.trans (Nat.le_add_right _ _)) (by omega)
    omega
  refine ⟨split.ordered.trans (Nat.le_add_right _ _), room, ?_, ?_⟩
  · intro place given below
    by_cases outside : place < filled ∨ filled + turns ≤ place
    · rw [others place (apart place given below outside), split.free_iff place given below]
      omega
    · obtain ⟨turn, rfl⟩ := Nat.exists_eq_add_of_le (show filled ≤ place by omega)
      exact iff_of_false (marked turn (by omega)) (by omega)
  · intro place given below
    by_cases used : place < filled
    · rw [kept place (split.not_free given used), split.held place given used, earlier place used]
    · obtain ⟨turn, rfl⟩ := Nat.exists_eq_add_of_le (Nat.le_of_not_lt used)
      exact (latest turn (Nat.lt_of_add_lt_add_left below)).symm

/-- Filling the next slot. -/
theorem fill (split : Split slot count free store history returned filled)
    (cyclic : Cyclic slot count) (available : free (slot filled)) (marked : ¬ later (slot filled))
    {content : Content} (stores : stored (slot filled) = content)
    (others : ∀ place, slot place ≠ slot filled → (later (slot place) ↔ free (slot place)))
    (kept : ∀ place, slot place ≠ slot filled → stored (slot place) = store (slot place)) :
    Split slot count later stored (Function.update history filled content) returned
      (filled + 1) := by
  have first : ∀ turn < 1, filled + turn = filled := fun turn inside => by
    rw [Nat.lt_one_iff.mp inside, Nat.add_zero]
  refine split.fills cyclic cyclic.positive ?_ ?_ ?_ ?_ ?_ ?_
  · exact fun turn inside => by rwa [first turn inside]
  · exact fun turn inside => by rwa [first turn inside]
  · exact fun place apart => others place (apart 0 Nat.one_pos)
  · exact fun place used => kept place fun same => used (same ▸ available)
  · exact fun place before => Function.update_of_ne before.ne _ _
  · exact fun turn inside => by rw [first turn inside, Function.update_self, stores]

/-- Giving the oldest slot back. -/
theorem giveBack (split : Split slot count free store history returned filled)
    (cyclic : Cyclic slot count) (used : returned < filled) (marked : later (slot returned))
    (others : ∀ place, slot place ≠ slot returned → (later (slot place) ↔ free (slot place)))
    (kept : ∀ place, slot place ≠ slot returned → stored (slot place) = store (slot place)) :
    Split slot count later stored history (returned + 1) filled := by
  have below : ∀ place, returned < place → place < returned + count →
      slot place ≠ slot returned := fun place after inRound equal =>
    after.ne' (cyclic.eq_of_slot_eq equal after.le inRound le_rfl
      (Nat.lt_add_of_pos_right cyclic.positive))
  refine ⟨used, split.bounded.trans (Nat.add_le_add_right (Nat.le_succ _) _), ?_, ?_⟩
  · intro place given inRound
    by_cases last : place = returned + count
    · subst last
      rw [cyclic.again]
      exact iff_of_true marked split.bounded
    · have inRound : place < returned + count := by
        rw [Nat.add_right_comm] at inRound
        exact lt_of_le_of_ne (Nat.le_of_lt_succ inRound) last
      rw [others _ (below place given inRound)]
      exact split.free_iff place (Nat.le_of_succ_le given) inRound
  · intro place given beforeFilled
    rw [kept _ (below place given (beforeFilled.trans_le split.bounded))]
    exact split.held place (Nat.le_of_succ_le given) beforeFilled

/-- What is written to free slots, without a change of the marks, is of no account. -/
theorem scribble (split : Split slot count free store history returned filled)
    (kept : ∀ place, ¬ free (slot place) → stored (slot place) = store (slot place)) :
    Split slot count free stored history returned filled :=
  { split with
    held := fun place given used =>
      (kept _ (split.not_free given used)).trans (split.held place given used) }

end Split

/-! ### Stretches of the history -/

/-- What was filled in at some successive places. -/
def window (history : Nat → Content) (place count : Nat) : List Content :=
  (List.range count).map fun index => history (place + index)

section Window

variable {history longer : Nat → Content} {place count : Nat}

@[simp] theorem length_window : (window history place count).length = count := by
  rw [window, List.length_map, List.length_range]

theorem window_succ : window history place (count + 1) =
    window history place count ++ [history (place + count)] := by
  rw [window, List.range_succ, List.map_append]
  rfl

theorem window_add (second : Nat) : window history place (count + second) =
    window history place count ++ window history (place + count) second := by
  simp only [window, List.range_add, List.map_append, List.map_map, Function.comp_def,
    Nat.add_assoc]

/-- A stretch does not depend on the places after it. -/
theorem window_congr {filled : Nat} (earlier : ∀ here < filled, longer here = history here)
    (within : place + count ≤ filled) :
    window longer place count = window history place count :=
  List.map_congr_left fun _ member =>
    earlier _ ((Nat.add_lt_add_left (List.mem_range.mp member) place).trans_le within)

end Window

/-! ### Items that take several slots -/

section Laid

variable {Item : Type} (size : Item → Nat) (fits : Nat → Item → Prop)

/-- The number of slots that some items take. -/
def extent : List Item → Nat
  | [] => 0
  | item :: rest => size item + extent rest

/-- The items lie one after the other from a place on, each with what is said of it there. -/
def Laid : Nat → List Item → Prop
  | _, [] => True
  | place, item :: rest => fits place item ∧ Laid (place + size item) rest

variable {size fits}

theorem extent_concat (items : List Item) (item : Item) :
    extent size (items ++ [item]) = extent size items + size item := by
  induction items with
  | nil => exact Nat.add_comm _ _
  | cons first rest inductionHypothesis =>
    rw [List.cons_append, extent, inductionHypothesis, ← Nat.add_assoc]
    rfl

theorem laid_concat (place : Nat) (items : List Item) (item : Item) :
    Laid size fits place (items ++ [item]) ↔
      Laid size fits place items ∧ fits (place + extent size items) item := by
  induction items generalizing place with
  | nil => exact and_comm
  | cons first rest inductionHypothesis =>
    rw [List.cons_append, Laid, Laid, inductionHypothesis, extent, ← Nat.add_assoc, and_assoc]

/-- What is said of the items may change with the slots outside the ones they take. -/
theorem Laid.mono {other : Nat → Item → Prop} {place : Nat} {items : List Item}
    (laid : Laid size fits place items)
    (each : ∀ here item, place ≤ here → here + size item ≤ place + extent size items →
      fits here item → other here item) : Laid size other place items := by
  induction items generalizing place with
  | nil => trivial
  | cons first rest inductionHypothesis =>
    refine ⟨each place first le_rfl ?_ laid.1, inductionHypothesis laid.2 ?_⟩
    · rw [extent, ← Nat.add_assoc]
      exact Nat.le_add_right _ _
    · intro here item from_here inside
      refine each here item ((Nat.le_add_right _ _).trans from_here) ?_
      rwa [extent, ← Nat.add_assoc]

end Laid

end Handoff
