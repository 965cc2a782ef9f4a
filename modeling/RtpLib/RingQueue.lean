/-
This file proves that the ring buffer is a bounded first-in first-out queue. The
queue is the abstract component: what the ring is for, in terms of lists. Every
answer the ring gives to a sequence of calls -- results, lengths, and the bytes
stored through `ch` -- is the answer of a queue of capacity `bufferSize`.

That the pointers use one cell more than the capacity does no harm to the order
of the bytes: all that a push needs is a cell no queued byte is in.
-/

import RtpLib.RingBuffer

namespace RtpLib

open RingBuffer

/-- One call on the queue the ring stands for. -/
def queueRespond {capacity : Nat} (queue : Fifo.Queue UInt8 capacity) :
    RingCall → RingReply × Fifo.Queue UInt8 capacity
  | .putChar ch => (.result (queue.push ch).1, (queue.push ch).2)
  | .getChar =>
    match queue.pop with
    | (some ch, rest) => (.char true ch, rest)
    | (none, _) => (.char false 0, queue)
  | .isEmpty => (.result queue.items.isEmpty, queue)
  | .clear => (.done, Fifo.Queue.empty)
  | .getLen => (.size queue.items.length, queue)
  | .getCapacity => (.size capacity, queue)

/-- A ring in memory represents a queue: its pointers and counter agree, its size is the
capacity, and the cells in use hold the items. -/
structure Represents {capacity : Nat} (state : RingBuffer × Machine)
    (queue : Fifo.Queue UInt8 capacity) : Prop where
  valid : state.1.Valid
  size : state.1.buffSize.toNat = capacity
  contents : state.1.contents state.2.memory = queue.items

namespace Represents

variable {capacity : Nat} {state : RingBuffer × Machine} {queue : Fifo.Queue UInt8 capacity}

theorem count_eq (represents : Represents state queue) :
    state.1.elementsCnt.toNat = queue.items.length := by
  rw [← represents.contents, length_contents]

theorem putChar (represents : Represents state queue) (ch : UInt8) :
    (state.1.putChar ch state.2).1 = (queue.push ch).1 ∧
      Represents (state.1.putChar ch state.2).2 (queue.push ch).2 := by
  have bounds : state.1.elementsCnt.toNat < state.1.buffSize.toNat ↔
      queue.items.length < capacity := by
    rw [represents.count_eq, represents.size]
  by_cases room : state.1.elementsCnt.toNat < state.1.buffSize.toNat
  · obtain ⟨accepted, items⟩ := queue.push_of_room ch (bounds.mp room)
    rw [putChar_of_room _ _ _ room]
    refine ⟨accepted.symm, valid_pushed _ represents.valid room, represents.size, ?_⟩
    rw [items, ← represents.contents]
    exact contents_pushed _ represents.valid room _ ch
  · rw [putChar_of_full _ _ _ room, queue.push_of_full ch fun less => room (bounds.mpr less)]
    exact ⟨rfl, represents.valid, represents.size, represents.contents⟩

theorem getChar (represents : Represents state queue) :
    (respond state .getChar).1 = (queueRespond queue .getChar).1 ∧
      Represents (respond state .getChar).2 (queueRespond queue .getChar).2 := by
  obtain ⟨items, bounded⟩ := queue
  cases items with
  | nil =>
    have empty : state.1.elementsCnt.toNat = 0 := represents.count_eq
    simp only [respond, getChar_of_empty _ _ empty]
    exact ⟨rfl, represents⟩
  | cons ch rest =>
    have nonempty : state.1.elementsCnt.toNat ≠ 0 := by
      rw [represents.count_eq]
      exact Nat.succ_ne_zero _
    have first := contents_popped _ represents.valid nonempty state.2.memory
    rw [represents.contents, List.cons.injEq] at first
    simp only [respond, getChar_of_nonempty _ _ nonempty, ← first.1]
    exact ⟨rfl, valid_popped _ represents.valid nonempty, represents.size, first.2.symm⟩

/-- One call gives equal answers and keeps the representation. -/
theorem respond_eq (represents : Represents state queue) (call : RingCall) :
    (respond state call).1 = (queueRespond queue call).1 ∧
      Represents (respond state call).2 (queueRespond queue call).2 := by
  cases call with
  | putChar ch =>
    obtain ⟨same, next⟩ := represents.putChar ch
    exact ⟨congrArg RingReply.result same, next⟩
  | getChar => exact represents.getChar
  | isEmpty =>
    refine ⟨congrArg RingReply.result ?_, represents⟩
    rw [Bool.eq_iff_iff, isEmpty_iff_contents _ state.2.memory, represents.contents,
      List.isEmpty_iff]
  | clear => exact ⟨rfl, valid_clear _, represents.size, contents_clear _ _⟩
  | getLen => exact ⟨congrArg RingReply.size represents.count_eq, represents⟩
  | getCapacity => exact ⟨congrArg RingReply.size represents.size, represents⟩

end Represents

/-- An initialised ring represents the empty queue of its size. -/
theorem represents_init {buffer : Nat} {bufferSize : UInt32} {ring : RingBuffer}
    (initialised : init buffer bufferSize = some ring) (machine : Machine) :
    Represents (ring, machine) (Fifo.Queue.empty : Fifo.Queue UInt8 bufferSize.toNat) where
  valid := valid_init initialised
  size := congrArg UInt32.toNat (init_eq_some initialised).2.2.1
  contents := contents_init initialised machine.memory

/-- After `RingBuffer_Init`, the ring answers every sequence of calls as a bounded
first-in first-out queue of capacity `bufferSize` does. -/
theorem answers_eq_queue (buffer : Nat) (bufferSize : UInt32) (ring : RingBuffer)
    (machine : Machine) (initialised : init buffer bufferSize = some ring)
    (calls : List RingCall) :
    Runs.answers respond (ring, machine) calls =
      Runs.answers queueRespond (Fifo.Queue.empty : Fifo.Queue UInt8 bufferSize.toNat) calls :=
  Runs.answers_eq_of_simulation Represents
    (fun _ _ call represents => represents.respond_eq call)
    (represents_init initialised machine) calls

/-- Two bytes into a ring of size two, a third refused, and both read back in order. -/
theorem answers_eq_queue_two :
    Runs.answers respond (⟨64, 64, 64, 2, 0⟩, ⟨fun _ => 0, false, []⟩)
        [.putChar 7, .putChar 8, .putChar 9, .getChar, .getChar] =
      Runs.answers queueRespond (Fifo.Queue.empty : Fifo.Queue UInt8 2)
        [.putChar 7, .putChar 8, .putChar 9, .getChar, .getChar] :=
  answers_eq_queue 64 2 _ _ rfl _

end RtpLib
