/-
This file puts the wait of `ethernetif_update_config` on a clock that never returns to zero.
`HAL_GetTick` counts milliseconds in 32 bits and wraps every seven weeks, and the loop
compares a difference of two of its values, which is the time between them only as long
as that time fits.

The first look at the clock that finds the second over ends the wait, so that the one
before it was taken within the second. The difference fits exactly as long as looks are
less than a turn of the counter apart, less that second. With such looks the wait ends as
it would on the clock itself, wherever the counter stands at its start.
-/

import Mathlib.Algebra.Group.Nat.Defs
import RtpLib.AutoNegotiation

namespace RtpLib

/-! ### A counter of 32 bits -/

/-- The counter at a time. -/
def tickAt (time : Nat) : UInt32 := .ofNat time

/-- The difference of the counter is the time between, when it fits. -/
theorem tickAt_sub {before after : Nat} (ordered : before ≤ after)
    (fits : after - before < 2 ^ 32) : (tickAt after - tickAt before).toNat = after - before := by
  obtain ⟨elapsed, rfl⟩ := Nat.exists_eq_add_of_le ordered
  rw [Nat.add_sub_cancel_left] at fits ⊢
  have added : tickAt (before + elapsed) = UInt32.ofNat elapsed + tickAt before :=
    (UInt32.ofNat_add before elapsed).trans (UInt32.add_comm _ _)
  rw [added, UInt32.add_sub_cancel, UInt32.toNat_ofNat_of_lt' fits]

/-- The difference of the counter is more than a number of milliseconds when the time is. -/
theorem lt_tickAt_sub_iff {before after : Nat} (ordered : before ≤ after)
    (fits : after - before < 2 ^ 32) (limit : UInt32) :
    tickAt after - tickAt before > limit ↔ before + limit.toNat < after := by
  rw [gt_iff_lt, UInt32.lt_iff_toNat_lt, tickAt_sub ordered fits, Nat.lt_sub_iff_add_lt']

/-- Times in order, from the start on, with at most the gap between one and the next. -/
def Steady (gap start : Nat) (times : List Nat) : Prop :=
  List.IsChain (fun before after => before ≤ after ∧ after ≤ before + gap) (start :: times)

theorem steady_cons_iff {gap start time : Nat} {rest : List Nat} :
    Steady gap start (time :: rest) ↔ (start ≤ time ∧ time ≤ start + gap) ∧ Steady gap time rest :=
  List.isChain_cons_cons

/-! ### The wait on the clock -/

/-- A turn of the wait: what it reads of `PHY_BSR`, and when it looks at the clock. -/
structure Look where
  read : Option UInt32
  time : Nat

namespace Look

/-- What the loop sees of the turn. -/
def turn (look : Look) : Option UInt32 × UInt32 := (look.read, tickAt look.time)

/-- The second is over. -/
def late (start : Nat) (look : Look) : Bool := start + 1000 < look.time

/-- The turn that ends the wait: it is late, or reads a complete value. -/
def ends (constants : EthConstants) (start : Nat) (look : Look) : Bool :=
  look.late start || look.read.any (allSet constants.phyAutonegoComplete)

/-- How it ends the wait. -/
def result (start : Nat) (look : Look) : Option WaitResult :=
  if look.late start then some .timeout else look.read.map .complete

end Look

/-- The wait, as the clock has it. -/
def waitOnClock (constants : EthConstants) (start : Nat) (looks : List Look) :
    Option WaitResult :=
  (looks.find? (·.ends constants start)).bind (·.result start)

variable {constants : EthConstants}

/-- From a turn within the second on, with an incomplete value in the variable, the wait on the
counter is the wait on the clock. -/
theorem waitComplete_eq_waitOnClock {gap start : Nat} (short : gap + 1000 < 2 ^ 32)
    {regvalue : UInt32} (incomplete : ¬ allSet constants.phyAutonegoComplete regvalue = true)
    (last : Nat) (ordered : start ≤ last) (early : last ≤ start + 1000) (looks : List Look)
    (steady : Steady gap last (looks.map Look.time)) :
    waitComplete constants (tickAt start) regvalue (looks.map Look.turn) =
      waitOnClock constants start looks := by
  induction looks generalizing last regvalue with
  | nil => rfl
  | cons look rest inductionHypothesis =>
    obtain ⟨⟨after, near⟩, later⟩ := steady_cons_iff.mp steady
    have reached : start ≤ look.time := Nat.le_trans ordered after
    have late_iff : tickAt look.time - tickAt start > 1000 ↔ start + 1000 < look.time :=
      lt_tickAt_sub_iff reached (by omega) 1000
    rw [List.map_cons, Look.turn, waitComplete, waitOnClock, List.find?_cons, Look.ends, Look.late]
    by_cases late : start + 1000 < look.time
    · rw [if_pos (late_iff.mpr late), decide_eq_true late, Bool.true_or]
      exact (if_pos (decide_eq_true late)).symm
    · have in_time : look.time ≤ start + 1000 := Nat.not_lt.mp late
      rw [if_neg fun elapsed => late (late_iff.mp elapsed), decide_eq_false late, Bool.false_or]
      cases read : look.read with
      | none =>
        rw [readPhyRegister, Option.getD_none, if_neg incomplete, Option.any_none]
        exact inductionHypothesis incomplete look.time reached in_time later
      | some value =>
        rw [readPhyRegister, Option.getD_some, Option.any_some]
        by_cases complete : allSet constants.phyAutonegoComplete value = true
        · rw [if_pos complete, complete, Option.bind_some, Look.result, Look.late,
            decide_eq_false late, read]
          rfl
        · rw [if_neg complete, Bool.eq_false_iff.mpr complete]
          exact inductionHypothesis complete look.time reached in_time later

/-- The wait ends as the clock has it, wherever the counter stands and whatever is read of the
PHY, exactly for gaps between the looks that leave room for the second below the turn of the
counter. -/
theorem waitComplete_iff_waitOnClock (bits : constants.phyAutonegoComplete ≠ 0) (gap : Nat) :
    (∀ start looks, Steady gap start (looks.map Look.time) →
      waitComplete constants (tickAt start) 0 (looks.map Look.turn) =
        waitOnClock constants start looks) ↔ gap + 1000 < 2 ^ 32 := by
  refine ⟨fun agrees => ?_, fun short start looks steady => ?_⟩
  · -- A look when the second is almost over, and one when the counter is back at its start.
    by_contra long
    have steady : Steady gap 0 [1000, 2 ^ 32] := by
      refine steady_cons_iff.mpr ⟨⟨?_, ?_⟩, steady_cons_iff.mpr ⟨⟨?_, ?_⟩, .singleton _⟩⟩ <;> omega
    have waits : waitComplete constants (tickAt 0) 0
        [(none, tickAt 1000), (none, tickAt (2 ^ 32))] = none := by
      have incomplete := not_allSet_zero bits
      have counter : ¬ tickAt 1000 - tickAt 0 > 1000 ∧ ¬ tickAt (2 ^ 32) - tickAt 0 > 1000 := by
        decide
      rw [waitComplete, if_neg counter.1, readPhyRegister, Option.getD_none, if_neg incomplete,
        waitComplete, if_neg counter.2, readPhyRegister, Option.getD_none, if_neg incomplete,
        waitComplete]
    have same := waits.symm.trans (agrees 0 [⟨none, 1000⟩, ⟨none, 2 ^ 32⟩] steady)
    cases same
  · exact waitComplete_eq_waitOnClock short (not_allSet_zero bits) start (Nat.le_refl _)
      (Nat.le_add_right _ _) looks steady

/-- A wait in which the counter returns to zero. -/
theorem waitComplete_iff_waitOnClock_wraps :
    waitComplete .common (tickAt (2 ^ 32 - 1)) 0
      ([⟨none, 2 ^ 32 - 1⟩, ⟨some 0x782D, 2 ^ 32⟩].map Look.turn) = some (.complete 0x782D) := by
  have steady : Steady 1 (2 ^ 32 - 1) [2 ^ 32 - 1, 2 ^ 32] :=
    steady_cons_iff.mpr ⟨⟨by decide, by decide⟩,
      steady_cons_iff.mpr ⟨⟨by decide, by decide⟩, .singleton _⟩⟩
  exact (waitComplete_iff_waitOnClock (by decide) 1).mpr (by decide) _ _ steady

end RtpLib
