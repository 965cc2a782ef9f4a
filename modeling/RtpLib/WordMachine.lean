/-
This file is the library of small machines: a byte memory that is read and written by
words, the least byte first, and the cut points of a loop.

Addresses wrap around, and a place is inside a block when its distance from the
start, taken around, is less than the length. A store of what was loaded is a copy of
four bytes, and a loop of such steps a copy of a block, as long as the source lies
outside the block that is written.
-/

import Mathlib.Computability.StateTransition

namespace WordMachine

/-! ### Words in a byte memory -/

/-- The bytes of a word, the least one first. -/
def byte (word : UInt32) (index : Nat) : UInt8 :=
  .ofNat (word.toNat / 2 ^ (8 * index))

/-- The word at an address. -/
def load (memory : UInt32 → UInt8) (address : UInt32) : UInt32 :=
  .ofNat ((memory address).toNat + 2 ^ 8 * (memory (address + 1)).toNat +
    2 ^ 16 * (memory (address + 2)).toNat + 2 ^ 24 * (memory (address + 3)).toNat)

/-- A word written to an address. -/
def store (memory : UInt32 → UInt8) (address word : UInt32) (place : UInt32) : UInt8 :=
  if (place - address).toNat < 4 then byte word (place - address).toNat else memory place

/-- `count` bytes from `target` on, copied from `source`. -/
def copied (memory : UInt32 → UInt8) (source target : UInt32) (count : Nat) (place : UInt32) :
    UInt8 :=
  if (place - target).toNat < count then memory (source + (place - target)) else memory place

/-- `count` bytes from `target` on, cleared. -/
def cleared (memory : UInt32 → UInt8) (target : UInt32) (count : Nat) (place : UInt32) : UInt8 :=
  if (place - target).toNat < count then 0 else memory place

section Memory

variable {memory : UInt32 → UInt8} {source target : UInt32} {count : Nat}

theorem sub_add_eq (place target distance : UInt32) :
    place - (target + distance) = place - target - distance := by grind

theorem byte_zero (index : Nat) : byte 0 index = 0 := by
  rw [byte, UInt32.toNat_zero, Nat.zero_div]
  rfl

theorem byte_load (address : UInt32) {index : Nat} (inside : index < 4) :
    byte (load memory address) index = memory (address + .ofNat index) := by
  have first := (memory address).toNat_lt
  have second := (memory (address + 1)).toNat_lt
  have third := (memory (address + 2)).toNat_lt
  have fourth := (memory (address + 3)).toNat_lt
  refine UInt8.toNat_inj.mp ?_
  have bounded : (memory address).toNat + 2 ^ 8 * (memory (address + 1)).toNat +
      2 ^ 16 * (memory (address + 2)).toNat + 2 ^ 24 * (memory (address + 3)).toNat < 2 ^ 32 := by
    omega
  rw [byte, load, UInt8.toNat_ofNat', UInt32.toNat_ofNat_of_lt' bounded]
  match index, inside with
  | 0, _ => show _ = (memory (address + 0)).toNat; rw [UInt32.add_zero]; omega
  | 1, _ => show _ = (memory (address + 1)).toNat; omega
  | 2, _ => show _ = (memory (address + 2)).toNat; omega
  | 3, _ => show _ = (memory (address + 3)).toNat; omega

/-- A word can be read off its bytes. -/
theorem load_byte (word : UInt32) : load (fun place => byte word place.toNat) 0 = word := by
  have first : (byte word 0).toNat = word.toNat % 2 ^ 8 := by
    rw [byte, UInt8.toNat_ofNat', Nat.mul_zero, Nat.pow_zero, Nat.div_one]
  have second : (byte word 1).toNat = word.toNat / 2 ^ 8 % 2 ^ 8 := UInt8.toNat_ofNat'
  have third : (byte word 2).toNat = word.toNat / 2 ^ 16 % 2 ^ 8 := UInt8.toNat_ofNat'
  have fourth : (byte word 3).toNat = word.toNat / 2 ^ 24 % 2 ^ 8 := UInt8.toNat_ofNat'
  have bounded := word.toNat_lt
  have sum : word.toNat % 2 ^ 8 + 2 ^ 8 * (word.toNat / 2 ^ 8 % 2 ^ 8) +
      2 ^ 16 * (word.toNat / 2 ^ 16 % 2 ^ 8) + 2 ^ 24 * (word.toNat / 2 ^ 24 % 2 ^ 8) =
      word.toNat := by omega
  show UInt32.ofNat ((byte word 0).toNat + 2 ^ 8 * (byte word 1).toNat +
    2 ^ 16 * (byte word 2).toNat + 2 ^ 24 * (byte word 3).toNat) = _
  rw [first, second, third, fourth, sum, UInt32.ofNat_toNat]

theorem copied_zero : copied memory source target 0 = memory :=
  funext fun _ => if_neg (Nat.not_lt_zero _)

theorem cleared_zero : cleared memory target 0 = memory :=
  funext fun _ => if_neg (Nat.not_lt_zero _)

/-- The distance from a place `count` bytes further. -/
theorem toNat_sub_add (place target : UInt32) (small : count + 4 ≤ 2 ^ 32) :
    (place - (target + .ofNat count)).toNat < 4 ↔
      count ≤ (place - target).toNat ∧ (place - target).toNat < count + 4 := by
  have bounded := (place - target).toNat_lt
  rw [sub_add_eq, UInt32.toNat_sub, UInt32.toNat_ofNat_of_lt' (show count < 2 ^ 32 by omega)]
  omega

/-- The places of a block that does not wrap around. -/
theorem toNat_sub_lt_iff (place : UInt32) {start stop : UInt32} {length : Nat}
    (ends : start.toNat + length = stop.toNat) :
    (place - start).toNat < length ↔ start ≤ place ∧ place < stop := by
  have place_lt := place.toNat_lt
  have start_lt := start.toNat_lt
  have stop_lt := stop.toNat_lt
  rw [UInt32.toNat_sub, UInt32.le_iff_toNat_le, UInt32.lt_iff_toNat_lt]
  omega

/-- A word copied behind the bytes copied so far. -/
theorem store_load_copied (small : count + 4 ≤ 2 ^ 32)
    (apart : ∀ index < count + 4, count ≤ (source + .ofNat index - target).toNat) :
    store (copied memory source target count) (target + .ofNat count)
        (load (copied memory source target count) (source + .ofNat count)) =
      copied memory source target (count + 4) := by
  funext place
  rw [store, copied]
  by_cases inside : (place - (target + .ofNat count)).toNat < 4
  · obtain ⟨after, before⟩ := (toNat_sub_add place target small).mp inside
    have distance : source + .ofNat count + (place - (target + .ofNat count)) =
        source + (place - target) := by
      rw [sub_add_eq, UInt32.add_assoc, UInt32.add_comm (.ofNat count), UInt32.sub_add_cancel]
    have outside := apart (place - target).toNat before
    rw [UInt32.ofNat_toNat] at outside
    rw [if_pos inside, byte_load _ inside, UInt32.ofNat_toNat, distance, copied,
      if_neg (Nat.not_lt_of_le outside), copied, if_pos before]
  · have around := mt (toNat_sub_add place target small).mpr inside
    rw [if_neg inside, copied]
    by_cases before : (place - target).toNat < count
    · rw [if_pos before, if_pos (Nat.lt_add_right 4 before)]
    · rw [if_neg before, if_neg (by omega)]

/-- A word cleared behind the bytes cleared so far. -/
theorem store_zero_cleared (small : count + 4 ≤ 2 ^ 32) :
    store (cleared memory target count) (target + .ofNat count) 0 =
      cleared memory target (count + 4) := by
  funext place
  rw [store, cleared, cleared, byte_zero]
  by_cases inside : (place - (target + .ofNat count)).toNat < 4
  · obtain ⟨after, before⟩ := (toNat_sub_add place target small).mp inside
    rw [if_pos inside, if_pos before]
  · have around := mt (toNat_sub_add place target small).mpr inside
    rw [if_neg inside]
    by_cases before : (place - target).toNat < count
    · rw [if_pos before, if_pos (Nat.lt_add_right 4 before)]
    · rw [if_neg before, if_neg (by omega)]

end Memory

/-! ### Cut points -/

section Cuts

variable {State : Type} {step : State → Option State}

/-- The state after some steps. -/
def after (step : State → Option State) : Nat → State → Option State
  | 0, state => some state
  | count + 1, state => (step state).bind (after step count)

/-- A stretch without a branch. -/
theorem reaches_of_after (count : Nat) {state last : State}
    (run : after step count state = some last) : StateTransition.Reaches step state last := by
  induction count generalizing state with
  | zero =>
    rw [Option.some.inj run]
    exact .refl
  | succ count inductionHypothesis =>
    obtain ⟨next, taken, rest⟩ := Option.bind_eq_some_iff.mp run
    exact .head taken (inductionHypothesis rest)

/-- A loop that comes round from each cut point to the next comes to the last one. -/
theorem reaches_of_rounds {cut : Nat → State → Prop} {rounds : Nat}
    (round : ∀ turn < rounds, ∀ state, cut turn state →
      ∃ next, StateTransition.Reaches step state next ∧ cut (turn + 1) next)
    {state : State} (start : cut 0 state) :
    ∃ last, StateTransition.Reaches step state last ∧ cut rounds last := by
  induction rounds with
  | zero => exact ⟨state, .refl, start⟩
  | succ rounds inductionHypothesis =>
    obtain ⟨middle, before, here⟩ :=
      inductionHypothesis fun turn inside => round turn (Nat.lt_succ_of_lt inside)
    obtain ⟨last, after, there⟩ := round rounds (Nat.lt_succ_self rounds) middle here
    exact ⟨last, before.trans after, there⟩

end Cuts

end WordMachine
