/-
This file models `_sbrk` of `syscalls.c`, with which the C library grows the heap, and
settles what its pointer arithmetic computes. The heap is the memory from `end` to a
break, a whole number; a call moves the break and returns where it was, unless the heap
would then reach above the stack pointer of the caller.

The code has a word for the break and a comparison of words, and its break is zero before
the first call. Stacks lie in the lower half of the address space, so that a sum that wraps
around is above every stack. What is missing is a comparison with `end`: a call that takes
back more than the heap has is granted, and the break is then below the heap.
-/

import Mathlib.Algebra.Group.Int.Defs
import Mathlib.Algebra.Group.Nat.Defs
import RtpLib.Runs

namespace RtpLib

/-! ### The function -/

/-- The static variable of `_sbrk`, zero for a null pointer, and whether `errno` is `ENOMEM`. -/
structure SbrkState where
  heapEnd : UInt32
  enomem : Bool

/-- A call: its argument, and the stack pointer of the caller, which is an address of the RAM. -/
structure SbrkCall where
  incr : Int32
  stackPtr : UInt32
  inRam : stackPtr.toNat < 2 ^ 31

/-- What a caller can see of a call: the block that it is given, if any, and `errno`. -/
structure SbrkAnswer where
  block : Option Nat
  enomem : Bool

/-- `(caddr_t) -1` -/
def sbrkFailed : UInt32 := 0xFFFFFFFF

namespace SbrkState

/-- Before the first call. -/
def start : SbrkState := ⟨0, false⟩

/-- `_sbrk`, with the symbol `end` of the linker script. -/
def sbrk (bottom : UInt32) (state : SbrkState) (call : SbrkCall) : UInt32 × SbrkState :=
  let state := if state.heapEnd = 0 then { state with heapEnd := bottom } else state
  let prevHeapEnd := state.heapEnd
  if state.heapEnd + call.incr.toUInt32 > call.stackPtr then
    (sbrkFailed, { state with enomem := true })
  else
    (prevHeapEnd, { state with heapEnd := state.heapEnd + call.incr.toUInt32 })

/-- A call, as its caller sees it. -/
def respond (bottom : UInt32) (state : SbrkState) (call : SbrkCall) : SbrkAnswer × SbrkState :=
  let (block, state) := state.sbrk bottom call
  (⟨if block = sbrkFailed then none else some block.toNat, state.enomem⟩, state)

end SbrkState

/-! ### The heap -/

/-- The heap: where it begins and ends, and whether a call has failed. -/
structure Heap where
  bottom : Nat
  brk : Nat
  enomem : Bool
  bounded : bottom ≤ brk

namespace Heap

/-- The empty heap. -/
def empty (bottom : Nat) : Heap := ⟨bottom, bottom, false, Nat.le_refl bottom⟩

/-- A call moves the break, if the heap does not reach above the stack pointer; no call takes
back more than the heap has. -/
def respond (heap : Heap) (call : SbrkCall) : SbrkAnswer × Heap :=
  if (call.stackPtr.toNat : Int) < heap.brk + call.incr.toInt then
    (⟨none, true⟩, { heap with enomem := true })
  else if kept : (heap.bottom : Int) ≤ heap.brk + call.incr.toInt then
    (⟨some heap.brk, heap.enomem⟩,
      { heap with brk := (heap.brk + call.incr.toInt).toNat, bounded := by omega })
  else (⟨none, true⟩, { heap with enomem := true })

/-- The call does not take back more than the heap has, or it would be refused anyway. -/
def Sound (heap : Heap) (call : SbrkCall) : Prop :=
  0 ≤ heap.brk + call.incr.toInt → (heap.brk + call.incr.toInt ≤ call.stackPtr.toNat) →
    (heap.bottom : Int) ≤ heap.brk + call.incr.toInt

end Heap

/-! ### The words compute the break -/

/-- A sum of a small address and an offset, in words: the number itself, or a large one. -/
theorem toNat_add_toUInt32 (pointer : UInt32) (incr : Int32) (small : pointer.toNat < 2 ^ 31) :
    ((pointer + incr.toUInt32).toNat : Int) =
      if 0 ≤ (pointer.toNat : Int) + incr.toInt then pointer.toNat + incr.toInt
      else pointer.toNat + incr.toInt + 2 ^ 32 := by
  have word : incr.toUInt32.toNat < 2 ^ 32 := UInt32.toNat_lt _
  have offset : incr.toInt =
      if 2 * incr.toUInt32.toNat < 2 ^ 32 then (incr.toUInt32.toNat : Int)
      else incr.toUInt32.toNat - 2 ^ 32 := BitVec.toInt_eq_toNat_cond incr.toBitVec
  rw [UInt32.toNat_add]
  split at offset <;> split <;> omega

namespace SbrkState

/-- The break that a state stands for. -/
def brk (bottom : UInt32) (state : SbrkState) : UInt32 :=
  if state.heapEnd = 0 then bottom else state.heapEnd

/-- A call on the break: it is refused, or it moves the break. -/
theorem respond_eq (bottom : UInt32) (state : SbrkState) (call : SbrkCall) :
    state.respond bottom call =
      if state.brk bottom + call.incr.toUInt32 > call.stackPtr then
        (⟨none, true⟩, ⟨state.brk bottom, true⟩)
      else
        (⟨if state.brk bottom = sbrkFailed then none else some (state.brk bottom).toNat,
            state.enomem⟩,
          ⟨state.brk bottom + call.incr.toUInt32, state.enomem⟩) := by
  by_cases first : state.heapEnd = 0
  · simp only [respond, sbrk, brk, if_pos first]
    split <;> rfl
  · simp only [respond, sbrk, brk, if_neg first]
    split <;> rfl

/-- The state stands for the heap. -/
structure Represents (bottom : UInt32) (state : SbrkState) (heap : Heap) : Prop where
  bottom_eq : heap.bottom = bottom.toNat
  brk_eq : (state.brk bottom).toNat = heap.brk
  small : heap.brk < 2 ^ 31
  enomem : state.enomem = heap.enomem

namespace Represents

variable {bottom : UInt32} {state : SbrkState} {heap : Heap}

/-- Whether a call is refused. -/
theorem refused_iff (represents : Represents bottom state heap) (call : SbrkCall) :
    state.brk bottom + call.incr.toUInt32 > call.stackPtr ↔
      heap.brk + call.incr.toInt < 0 ∨
        (call.stackPtr.toNat : Int) < heap.brk + call.incr.toInt := by
  have small : (state.brk bottom).toNat < 2 ^ 31 := represents.brk_eq ▸ represents.small
  have sum := toNat_add_toUInt32 (state.brk bottom) call.incr small
  have lower : -2 ^ 31 ≤ call.incr.toInt := Int32.le_toInt _
  have stack := call.inRam
  rw [represents.brk_eq] at sum
  rw [gt_iff_lt, UInt32.lt_iff_toNat_lt]
  split at sum <;> omega

/-- A break in the heap is no null pointer, and is not mistaken for a failure. -/
theorem word_eq {word : UInt32} (enomem : Bool) (inside : bottom.toNat ≤ word.toNat)
    (positive : bottom ≠ 0) : SbrkState.brk bottom ⟨word, enomem⟩ = word := by
  refine if_neg fun null => positive (UInt32.toNat_inj.mp ?_)
  have zero : word.toNat = 0 := congrArg UInt32.toNat null
  rw [UInt32.toNat_zero]
  omega

theorem brk_ne_failed (represents : Represents bottom state heap) :
    state.brk bottom ≠ sbrkFailed := by
  intro failed
  have large : (state.brk bottom).toNat = 0xFFFFFFFF := congrArg UInt32.toNat failed
  have small := represents.small
  rw [represents.brk_eq] at large
  omega

/-- A refused call leaves the break where it is. -/
theorem refused (represents : Represents bottom state heap) (positive : bottom ≠ 0) :
    Represents bottom ⟨state.brk bottom, true⟩ { heap with enomem := true } := by
  have inside : bottom.toNat ≤ (state.brk bottom).toNat := by
    rw [represents.brk_eq, ← represents.bottom_eq]
    exact heap.bounded
  refine ⟨represents.bottom_eq, ?_, represents.small, rfl⟩
  rw [word_eq true inside positive]
  exact represents.brk_eq

theorem respond_of_sound (positive : bottom ≠ 0) (represents : Represents bottom state heap)
    (call : SbrkCall) (sound : heap.Sound call) :
    (state.respond bottom call).1 = (heap.respond call).1 ∧
      Represents bottom (state.respond bottom call).2 (heap.respond call).2 := by
  rw [respond_eq, Heap.respond]
  by_cases high : (call.stackPtr.toNat : Int) < heap.brk + call.incr.toInt
  · rw [if_pos ((represents.refused_iff call).mpr (.inr high)), if_pos high]
    exact ⟨rfl, represents.refused positive⟩
  · rw [if_neg high]
    by_cases low : heap.brk + call.incr.toInt < 0
    · have outside : ¬ (heap.bottom : Int) ≤ heap.brk + call.incr.toInt := by omega
      rw [if_pos ((represents.refused_iff call).mpr (.inl low)), dif_neg outside]
      exact ⟨rfl, represents.refused positive⟩
    · have granted : ¬ state.brk bottom + call.incr.toUInt32 > call.stackPtr := fun refused =>
        ((represents.refused_iff call).mp refused).elim low high
      have kept := sound (Int.not_lt.mp low) (Int.not_lt.mp high)
      have sum := toNat_add_toUInt32 (state.brk bottom) call.incr
        (represents.brk_eq ▸ represents.small)
      rw [represents.brk_eq, if_pos (Int.not_lt.mp low)] at sum
      rw [if_neg granted, dif_pos kept, if_neg represents.brk_ne_failed, represents.brk_eq,
        represents.enomem]
      refine ⟨rfl, represents.bottom_eq, ?_, ?_, rfl⟩
      · have inside : bottom.toNat ≤ (state.brk bottom + call.incr.toUInt32).toNat := by
          rw [← represents.bottom_eq]
          omega
        rw [word_eq heap.enomem inside positive]
        show (state.brk bottom + call.incr.toUInt32).toNat = (heap.brk + call.incr.toInt).toNat
        omega
      · have stack := call.inRam
        show (heap.brk + call.incr.toInt).toNat < 2 ^ 31
        omega

/-- Otherwise memory below the heap is given back, which the heap refuses. -/
theorem respond_of_not_sound (represents : Represents bottom state heap)
    (call : SbrkCall) (unsound : ¬ heap.Sound call) :
    (state.respond bottom call).1 ≠ (heap.respond call).1 := by
  rw [Heap.Sound, Classical.not_imp, Classical.not_imp] at unsound
  obtain ⟨low, high, outside⟩ := unsound
  have granted : ¬ state.brk bottom + call.incr.toUInt32 > call.stackPtr := by
    rw [represents.refused_iff]
    omega
  rw [respond_eq, if_neg granted, if_neg represents.brk_ne_failed, Heap.respond,
    if_neg (Int.not_lt.mpr high), dif_neg outside]
  intro same
  exact Option.some_ne_none _ (congrArg SbrkAnswer.block same)

end Represents

end SbrkState

/-- For any calls on stacks in the RAM, `_sbrk` answers as a heap does that never takes back more
than it has given out, exactly when no call asks it to move the break below `end`, unless to an
address below zero, or to one above the stack pointer. -/
theorem answers_eq_heap_iff (bottom : UInt32) (positive : bottom ≠ 0)
    (inRam : bottom.toNat < 2 ^ 31) (calls : List SbrkCall) :
    Runs.answers (SbrkState.respond bottom) .start calls =
        Runs.answers Heap.respond (.empty bottom.toNat) calls ↔
      Runs.EveryCall Heap.respond Heap.Sound (.empty bottom.toNat) calls :=
  Runs.answers_eq_iff_everyCall (SbrkState.Represents bottom)
    (fun _ _ call represents sound => represents.respond_of_sound positive call sound)
    (fun _ _ call represents unsound => represents.respond_of_not_sound call unsound)
    ⟨rfl, rfl, inRam, rfl⟩ calls

/-- A call on a stack at the end of the RAM. -/
def SbrkCall.ofInt (incr : Int) : SbrkCall := ⟨.ofInt incr, 0x20050000, by decide⟩

/-- Sixteen bytes are given out and eight of them taken back. -/
theorem answers_eq_heap_iff_two :
    Runs.answers (SbrkState.respond 0x20010000) .start [.ofInt 16, .ofInt (-8)] =
      Runs.answers Heap.respond (.empty 0x20010000) [.ofInt 16, .ofInt (-8)] :=
  (answers_eq_heap_iff 0x20010000 (by decide) (by decide) _).mpr
    ⟨by unfold Heap.Sound; decide, by unfold Heap.Sound; decide, trivial⟩

/-- Eight bytes are given out and sixteen taken back: the call is granted. -/
example :
    ((SbrkState.start.sbrk 0x20010000 (.ofInt 8)).2.sbrk 0x20010000 (.ofInt (-16))).2.heapEnd =
      0x2000FFF8 := by decide

end RtpLib
