/-
This file settles where the ring operations dereference their pointers. The
cells of the ring are the `buffSize + 1` bytes from `buffer` on, the caller's
array only the first `buffSize` of them, so the last cell is the byte after the
array. A pointer reaches it after `buffSize` steps, whatever the fill level.

The count that decides is how many bytes were accepted since the ring was last
empty by initialisation or by `RingBuffer_Clear`. It is read off the sequence of
calls by the tally of a bounded queue, which knows no pointer. The pointers
follow the tally in every run, so that every access is inside the array exactly
as long as the tally stays within the capacity.
-/

import RtpLib.RingBuffer
import Mathlib.Data.List.Induction

namespace RtpLib

open RingBuffer

/-! ### The tally of a sequence of calls -/

/-- What a sequence of calls amounts to since the last initialisation or clear: how many
bytes are queued, and how many were accepted in all. -/
structure Tally where
  queued : Nat
  accepted : Nat

namespace Tally

/-- The tally of no calls. -/
def empty : Tally := ⟨0, 0⟩

/-- The tally after one more call on a queue of the given capacity. -/
def next (capacity : Nat) (tally : Tally) : RingCall → Tally
  | .putChar _ =>
    if tally.queued < capacity then ⟨tally.queued + 1, tally.accepted + 1⟩ else tally
  | .getChar => ⟨tally.queued - 1, tally.accepted⟩
  | .clear => empty
  | .isEmpty | .getLen | .getCapacity => tally

/-- The tally of a sequence of calls on a queue of the given capacity. -/
def after (capacity : Nat) (calls : List RingCall) : Tally :=
  calls.foldl (next capacity) empty

theorem after_concat (capacity : Nat) (calls : List RingCall) (call : RingCall) :
    after capacity (calls ++ [call]) = next capacity (after capacity calls) call :=
  List.foldl_concat _ _ _ _

end Tally

/-- No sequence of the first calls accepts more bytes, since the last initialisation or
clear, than the array has. -/
def AcceptsWithin (capacity : Nat) (calls : List RingCall) : Prop :=
  ∀ earlier, earlier <+: calls → (Tally.after capacity earlier).accepted ≤ capacity

theorem acceptsWithin_concat (capacity : Nat) (calls : List RingCall) (call : RingCall) :
    AcceptsWithin capacity (calls ++ [call]) ↔
      AcceptsWithin capacity calls ∧
        (Tally.next capacity (Tally.after capacity calls) call).accepted ≤ capacity := by
  rw [← Tally.after_concat]
  constructor
  · intro within
    exact ⟨fun earlier initial => within earlier (initial.trans (List.prefix_append _ _)),
      within _ (List.prefix_refl _)⟩
  · rintro ⟨within, last⟩ earlier initial
    rcases List.prefix_concat_iff.mp initial with rfl | initial
    · exact last
    · exact within earlier initial

/-! ### The pointers follow the tally -/

/-- A call only adds to the recorded addresses. -/
theorem respond_accesses (state : RingBuffer × Machine) (call : RingCall) :
    state.2.accesses <:+ (respond state call).2.2.accesses := by
  cases call with
  | putChar ch =>
    by_cases room : state.1.elementsCnt.toNat < state.1.buffSize.toNat
    · simp only [respond, putChar_of_room _ _ _ room]
      exact List.suffix_cons _ _
    · simp only [respond, putChar_of_full _ _ _ room]
      exact List.suffix_refl _
  | getChar =>
    by_cases empty : state.1.elementsCnt.toNat = 0
    · simp only [respond, getChar_of_empty _ _ empty]
      exact List.suffix_refl _
    · simp only [respond, getChar_of_nonempty _ _ empty]
      exact List.suffix_cons _ _
  | clear => exact List.suffix_refl _
  | isEmpty => exact List.suffix_refl _
  | getLen => exact List.suffix_refl _
  | getCapacity => exact List.suffix_refl _

/-- The byte at every recorded address belongs to the caller's array. -/
def InBounds (buffer : Nat) (bufferSize : UInt32) (accesses : List Nat) : Prop :=
  ∀ address ∈ accesses, buffer ≤ address ∧ address < buffer + bufferSize.toNat

instance (buffer : Nat) (bufferSize : UInt32) (accesses : List Nat) :
    Decidable (InBounds buffer bufferSize accesses) :=
  inferInstanceAs (Decidable (∀ address ∈ accesses, _))

theorem inBounds_cons (buffer : Nat) (bufferSize : UInt32) (address : Nat) (rest : List Nat) :
    InBounds buffer bufferSize (address :: rest) ↔
      (buffer ≤ address ∧ address < buffer + bufferSize.toNat) ∧
        InBounds buffer bufferSize rest := List.forall_mem_cons

/-- The pointers of a ring stand where the tally of its calls puts them. -/
structure Follows (ring : RingBuffer) (buffer : Nat) (bufferSize : UInt32) (tally : Tally) :
    Prop where
  buffer_eq : ring.buffer = buffer
  size_eq : ring.buffSize = bufferSize
  count_eq : ring.elementsCnt.toNat = tally.queued
  queued_le : tally.queued ≤ tally.accepted
  head_eq : ring.head = buffer + tally.accepted % (bufferSize.toNat + 1)
  tail_eq : ring.tail = buffer + (tally.accepted - tally.queued) % (bufferSize.toNat + 1)

namespace Follows

variable {ring : RingBuffer} {buffer : Nat} {bufferSize : UInt32} {tally : Tally}

theorem advance_eq (follows : Follows ring buffer bufferSize tally) (count : Nat) :
    ring.advance (buffer + count % (bufferSize.toNat + 1)) =
      buffer + (count + 1) % (bufferSize.toNat + 1) := by
  have step := ring.advance_eq (count % (bufferSize.toNat + 1)) (by
    rw [period, follows.size_eq]
    exact Nat.mod_lt _ (Nat.succ_pos _))
  rw [period, follows.size_eq, follows.buffer_eq, Nat.mod_add_mod] at step
  exact step

theorem clear (follows : Follows ring buffer bufferSize tally) :
    Follows ring.clear buffer bufferSize Tally.empty where
  buffer_eq := follows.buffer_eq
  size_eq := follows.size_eq
  count_eq := rfl
  queued_le := le_rfl
  head_eq := follows.buffer_eq
  tail_eq := follows.buffer_eq

theorem pushed (follows : Follows ring buffer bufferSize tally)
    (room : ring.elementsCnt.toNat < ring.buffSize.toNat) :
    Follows ring.pushed buffer bufferSize ⟨tally.queued + 1, tally.accepted + 1⟩ where
  buffer_eq := follows.buffer_eq
  size_eq := follows.size_eq
  count_eq := by rw [ring.pushed_count room, follows.count_eq]
  queued_le := Nat.succ_le_succ follows.queued_le
  head_eq := by
    show ring.advance ring.head = _
    rw [follows.head_eq, follows.advance_eq]
  tail_eq := by
    rw [Nat.add_sub_add_right]
    exact follows.tail_eq

theorem popped (follows : Follows ring buffer bufferSize tally)
    (nonempty : ring.elementsCnt.toNat ≠ 0) :
    Follows ring.popped buffer bufferSize ⟨tally.queued - 1, tally.accepted⟩ where
  buffer_eq := follows.buffer_eq
  size_eq := follows.size_eq
  count_eq := by rw [ring.popped_count nonempty, follows.count_eq]
  queued_le := (Nat.sub_le _ _).trans follows.queued_le
  head_eq := follows.head_eq
  tail_eq := by
    have queued := follows.count_eq
    have bound := follows.queued_le
    show ring.advance ring.tail =
      buffer + (tally.accepted - (tally.queued - 1)) % (bufferSize.toNat + 1)
    rw [follows.tail_eq, follows.advance_eq]
    congr 2
    omega

end Follows

/-- One call: the pointers follow, and while the tally was within the capacity the call's
own access is inside the array exactly when the tally still is. -/
theorem respond_follows {ring : RingBuffer} {buffer : Nat} {bufferSize : UInt32}
    {tally : Tally} (follows : Follows ring buffer bufferSize tally) (machine : Machine)
    (call : RingCall) :
    Follows (respond (ring, machine) call).2.1 buffer bufferSize
        (tally.next bufferSize.toNat call) ∧
      (tally.accepted ≤ bufferSize.toNat →
        (InBounds buffer bufferSize (respond (ring, machine) call).2.2.accesses ↔
          InBounds buffer bufferSize machine.accesses ∧
            (tally.next bufferSize.toNat call).accepted ≤ bufferSize.toNat)) := by
  cases call with
  | putChar ch =>
    have bounds : ring.elementsCnt.toNat < ring.buffSize.toNat ↔
        tally.queued < bufferSize.toNat := by
      rw [follows.count_eq, follows.size_eq]
    by_cases room : ring.elementsCnt.toNat < ring.buffSize.toNat
    · simp only [respond, Tally.next, putChar_of_room _ _ _ room, if_pos (bounds.mp room)]
      refine ⟨follows.pushed room, fun within => ?_⟩
      -- The write goes to cell `accepted`, which is the byte after the array when full up.
      have cell : ring.head = buffer + tally.accepted := by
        rw [follows.head_eq, Nat.mod_eq_of_lt (Nat.lt_succ_of_le within)]
      simp only [Machine.enableIrq_accesses, Machine.write_accesses,
        Machine.disableIrq_accesses, inBounds_cons, cell]
      rw [and_comm]
      exact and_congr_right' (by omega)
    · simp only [respond, Tally.next, putChar_of_full _ _ _ room,
        if_neg fun less => room (bounds.mpr less)]
      exact ⟨follows, fun within => (and_iff_left within).symm⟩
  | getChar =>
    by_cases empty : ring.elementsCnt.toNat = 0
    · have none_queued : tally.queued = 0 := follows.count_eq ▸ empty
      simp only [respond, Tally.next, getChar_of_empty _ _ empty]
      refine ⟨?_, fun within => (and_iff_left within).symm⟩
      rw [none_queued, Nat.zero_sub, ← none_queued]
      exact follows
    · simp only [respond, Tally.next, getChar_of_nonempty _ _ empty]
      refine ⟨follows.popped empty, fun within => ?_⟩
      -- The read stays behind the writes, so it is inside the array as long as they are.
      have some_queued : tally.queued ≠ 0 := follows.count_eq ▸ empty
      have cell : ring.tail = buffer + (tally.accepted - tally.queued) := by
        rw [follows.tail_eq, Nat.mod_eq_of_lt (by omega)]
      have bound := follows.queued_le
      simp only [Machine.enableIrq_accesses, Machine.read_accesses,
        Machine.disableIrq_accesses, inBounds_cons, cell]
      rw [and_iff_left within]
      exact and_iff_right ⟨by omega, by omega⟩
  | clear =>
    simp only [respond, Tally.next]
    exact ⟨follows.clear, fun _ => (and_iff_left (Nat.zero_le _)).symm⟩
  | isEmpty => exact ⟨follows, fun within => (and_iff_left within).symm⟩
  | getLen => exact ⟨follows, fun within => (and_iff_left within).symm⟩
  | getCapacity => exact ⟨follows, fun within => (and_iff_left within).symm⟩

/-! ### The bounds over a whole run -/

theorem follows_init {buffer : Nat} {bufferSize : UInt32} {ring : RingBuffer}
    (initialised : init buffer bufferSize = some ring) :
    Follows ring buffer bufferSize Tally.empty := by
  obtain ⟨cleared, rfl, rfl, _⟩ := init_eq_some initialised
  rw [cleared]
  exact ⟨rfl, rfl, rfl, le_rfl, rfl, rfl⟩

/-- The pointers follow the tally in every run, in bounds or not. -/
theorem after_follows {ring : RingBuffer} {buffer : Nat} {bufferSize : UInt32}
    (start : Follows ring buffer bufferSize Tally.empty) (machine : Machine)
    (calls : List RingCall) :
    Follows (Runs.after respond (ring, machine) calls).1 buffer bufferSize
      (Tally.after bufferSize.toNat calls) := by
  induction calls using List.reverseRecOn with
  | nil => exact start
  | append_singleton earlier call inductionHypothesis =>
    rw [Runs.after_concat, Tally.after_concat]
    exact (respond_follows inductionHypothesis _ call).1

/-- Every access of a run after `RingBuffer_Init` is inside the caller's array exactly when
no sequence of its first calls accepts more than `bufferSize` bytes since the last
initialisation or clear. -/
theorem accesses_inBounds_iff (buffer : Nat) (bufferSize : UInt32) (ring : RingBuffer)
    (machine : Machine) (initialised : init buffer bufferSize = some ring)
    (unaccessed : machine.accesses = []) (calls : List RingCall) :
    InBounds buffer bufferSize (Runs.after respond (ring, machine) calls).2.accesses ↔
      AcceptsWithin bufferSize.toNat calls := by
  have start := follows_init initialised
  induction calls using List.reverseRecOn with
  | nil =>
    refine iff_of_true ?_ ?_
    · show InBounds buffer bufferSize machine.accesses
      rw [unaccessed]
      exact List.forall_mem_nil _
    · intro earlier initial
      rw [List.prefix_nil.mp initial]
      exact Nat.zero_le _
  | append_singleton earlier call inductionHypothesis =>
    have step := (respond_follows (after_follows start machine earlier)
      (Runs.after respond (ring, machine) earlier).2 call).2
    rw [acceptsWithin_concat, Runs.after_concat]
    constructor
    · intro inside
      have earlierInside : InBounds buffer bufferSize
          (Runs.after respond (ring, machine) earlier).2.accesses := fun address member =>
        inside address ((respond_accesses _ call).subset member)
      have within := inductionHypothesis.mp earlierInside
      exact ⟨within, ((step (within earlier (List.prefix_refl _))).mp inside).2⟩
    · rintro ⟨within, last⟩
      exact (step (within earlier (List.prefix_refl _))).mpr
        ⟨inductionHypothesis.mpr within, last⟩

/-- Two bytes put and read in turn in a ring of size two stay inside its array. -/
theorem accesses_inBounds_iff_two :
    InBounds 64 2 (Runs.after respond (⟨64, 64, 64, 2, 0⟩, ⟨fun _ => 0, false, []⟩)
        [.putChar 7, .getChar, .putChar 8, .getChar]).2.accesses ↔
      AcceptsWithin 2 [.putChar 7, .getChar, .putChar 8, .getChar] :=
  accesses_inBounds_iff 64 2 _ _ rfl rfl _

/-- In a ring of size one, the second byte is written to the byte after the array. -/
theorem accesses_not_inBounds :
    ¬ ∀ (buffer : Nat) (bufferSize : UInt32) (ring : RingBuffer) (machine : Machine),
      init buffer bufferSize = some ring → machine.accesses = [] → ∀ calls : List RingCall,
        InBounds buffer bufferSize (Runs.after respond (ring, machine) calls).2.accesses := by
  intro claimed
  have inside := claimed 64 1 ⟨64, 64, 64, 1, 0⟩ ⟨fun _ => 0, false, []⟩ rfl rfl
    [.putChar 7, .getChar, .putChar 8]
  exact absurd inside (by decide)

end RtpLib
