/-
This file settles what a `RingBuffer_Clear` leaves behind that is interrupted by
puts. The three stores of the source are taken one by one; in the two gaps between
them an interrupt handler may run any number of complete `RingBuffer_PutChar`
calls.

A byte accepted in a gap is written from the start of the array on and counted, but
the last store forgets the count: afterwards `head` stands that many cells further
than `tail` and the counter say. One cell too many is hidden by the spare cell of
the ring, and the bytes still come out in order, each one late. From two cells on, a
ring filled to its capacity has overwritten bytes that are yet to come.
-/

import RtpLib.RingBuffer

namespace RtpLib

/-! ### Clearing with interruptions -/

/-- A ring in memory, with the bytes it has accepted since a `RingBuffer_Clear` began and the
bytes it has returned since, both oldest first. -/
structure ClearState where
  ring : RingBuffer
  machine : Machine
  stored : List UInt8
  yielded : List UInt8

/-- A call on the ring after `RingBuffer_Clear`. -/
inductive RingUse
  | putChar (ch : UInt8)
  | getChar

namespace ClearState

/-- A complete `RingBuffer_PutChar`. -/
def put (state : ClearState) (ch : UInt8) : ClearState :=
  let (result, ring, machine) := state.ring.putChar ch state.machine
  { state with
    ring := ring
    machine := machine
    stored := if result then state.stored ++ [ch] else state.stored }

/-- A complete `RingBuffer_GetChar`. -/
def get (state : ClearState) : ClearState :=
  let ((result, ch), ring, machine) := state.ring.getChar state.machine
  { state with
    ring := ring
    machine := machine
    yielded := if result then state.yielded ++ [ch] else state.yielded }

/-- The puts of an interrupt handler, one after the other. -/
def putAll (state : ClearState) (bytes : List UInt8) : ClearState := bytes.foldl put state

def use (state : ClearState) : RingUse → ClearState
  | .putChar ch => state.put ch
  | .getChar => state.get

def useAll (state : ClearState) (uses : List RingUse) : ClearState := uses.foldl use state

/-- `rb->head = rb->buffer` -/
def storeHead (state : ClearState) : ClearState :=
  { state with ring := { state.ring with head := state.ring.buffer } }

/-- `rb->tail = rb->buffer` -/
def storeTail (state : ClearState) : ClearState :=
  { state with ring := { state.ring with tail := state.ring.buffer } }

/-- `rb->elementsCnt = 0` -/
def storeCount (state : ClearState) : ClearState :=
  { state with ring := { state.ring with elementsCnt := 0 } }

end ClearState

/-- `RingBuffer_Clear`, with the bytes that the interrupt handler puts between the first two
stores and between the last two. -/
def RingBuffer.clearInterrupted (ring : RingBuffer) (machine : Machine)
    (first second : List UInt8) : ClearState :=
  let state : ClearState := ⟨ring, machine, [], []⟩
  let state := (state.storeHead).putAll first
  let state := (state.storeTail).putAll second
  state.storeCount

/-- Without an interruption this is `RingBuffer_Clear`. -/
theorem RingBuffer.clearInterrupted_nil (ring : RingBuffer) (machine : Machine) :
    ring.clearInterrupted machine [] [] = ⟨ring.clear, machine, [], []⟩ := rfl

namespace ClearState

/-- Whatever calls follow, the bytes returned are bytes accepted since the clear began, in
order and each at most once. -/
def DeliversInOrder (state : ClearState) : Prop :=
  ∀ uses, (state.useAll uses).yielded.Sublist (state.useAll uses).stored

/-- The ring is a queue again: its pointers and its counter agree, and it delivers in order. -/
structure QueueAgain (state : ClearState) : Prop where
  valid : state.ring.Valid
  inOrder : state.DeliversInOrder

/-! ### What the calls do -/

variable {state : ClearState}

theorem put_of_room (ch : UInt8)
    (room : state.ring.elementsCnt.toNat < state.ring.buffSize.toNat) :
    state.put ch = {
      ring := state.ring.pushed
      machine := (state.machine.disableIrq.write state.ring.head ch).enableIrq
      stored := state.stored ++ [ch]
      yielded := state.yielded } := by
  rw [put, RingBuffer.putChar_of_room _ _ _ room]
  rfl

theorem put_of_full (ch : UInt8)
    (full : ¬ state.ring.elementsCnt.toNat < state.ring.buffSize.toNat) :
    state.put ch = { state with machine := state.machine.disableIrq.enableIrq } := by
  rw [put, RingBuffer.putChar_of_full _ _ _ full]
  rfl

theorem get_of_empty (empty : state.ring.elementsCnt.toNat = 0) : state.get = state := by
  rw [get, RingBuffer.getChar_of_empty _ _ empty]
  rfl

theorem get_of_nonempty (nonempty : state.ring.elementsCnt.toNat ≠ 0) :
    state.get = {
      ring := state.ring.popped
      machine := (state.machine.disableIrq.read state.ring.tail).2.enableIrq
      stored := state.stored
      yielded := state.yielded ++ [state.machine.memory state.ring.tail] } := by
  rw [get, RingBuffer.getChar_of_nonempty _ _ nonempty]
  rfl

/-- The cells of the ring, by their offsets. -/
def cells (state : ClearState) (offset : Nat) : UInt8 :=
  state.machine.memory (state.ring.buffer + offset)

/-- An accepted byte changes the cell at `head`. -/
theorem cells_put_of_room {offset : Nat} (ch : UInt8)
    (room : state.ring.elementsCnt.toNat < state.ring.buffSize.toNat)
    (head : state.ring.head = state.ring.buffer + offset) :
    (state.put ch).cells = Function.update state.cells offset ch := by
  rw [put_of_room ch room]
  funext other
  show Function.update state.machine.memory state.ring.head ch (state.ring.buffer + other) = _
  simp only [Function.update_apply, head, Nat.add_left_cancel_iff]
  rfl

/-! ### While the ring is being cleared -/

/-- Between the stores: `head` was set back to `buffer` when the counter stood at `count`, and
the bytes accepted since lie side by side from `buffer` on. -/
structure Filling (state : ClearState) (capacity count : Nat) : Prop where
  buffSize : state.ring.buffSize.toNat = capacity
  counted : state.ring.elementsCnt.toNat = count + state.stored.length
  head : state.ring.head = state.ring.buffer + state.stored.length
  within : state.stored.length ≤ capacity - count
  laid : Fifo.contents state.cells (capacity + 1) 0 state.stored.length = state.stored

variable {capacity count : Nat}

theorem Filling.put (filling : state.Filling capacity count) (ch : UInt8) :
    (state.put ch).Filling capacity count ∧
      (state.put ch).stored.length = min (state.stored.length + 1) (capacity - count) := by
  have within := filling.within
  by_cases room : state.ring.elementsCnt.toNat < state.ring.buffSize.toNat
  · have short : count + state.stored.length < capacity := by
      rw [← filling.counted, ← filling.buffSize]
      exact room
    have stored : (state.put ch).stored = state.stored ++ [ch] := by rw [put_of_room ch room]
    have length : (state.put ch).stored.length = state.stored.length + 1 := by
      rw [stored, List.length_append, List.length_singleton]
    have cells := cells_put_of_room ch room filling.head
    have inside : state.stored.length < state.ring.period := by
      rw [RingBuffer.period, filling.buffSize]
      omega
    have ring : (state.put ch).ring = state.ring.pushed := by rw [put_of_room ch room]
    refine ⟨⟨?_, ?_, ?_, ?_, ?_⟩, ?_⟩
    · rw [ring]
      exact filling.buffSize
    · rw [ring, state.ring.pushed_count room, filling.counted, length, Nat.add_assoc]
    · rw [ring, length]
      show state.ring.advance state.ring.head = state.ring.buffer + _
      rw [filling.head, state.ring.advance_eq _ inside, RingBuffer.period, filling.buffSize,
        Nat.mod_eq_of_lt (by omega)]
    · rw [length]
      omega
    · have free : state.stored.length < capacity + 1 := by omega
      have pushed := @Fifo.contents_push _ state.cells (capacity + 1) 0 _ ch free
      rw [Nat.zero_add, Nat.mod_eq_of_lt free] at pushed
      rw [length, cells, stored, pushed, filling.laid]
    · rw [length]
      omega
  · have full : capacity ≤ count + state.stored.length := by
      rw [← filling.counted, ← filling.buffSize]
      exact Nat.le_of_not_lt room
    rw [put_of_full ch room]
    refine ⟨⟨filling.buffSize, filling.counted, filling.head, within, filling.laid⟩, ?_⟩
    show state.stored.length = _
    omega

theorem Filling.putAll (filling : state.Filling capacity count) (bytes : List UInt8) :
    (state.putAll bytes).Filling capacity count ∧
      (state.putAll bytes).stored.length =
        min (state.stored.length + bytes.length) (capacity - count) := by
  induction bytes generalizing state with
  | nil => exact ⟨filling, (min_eq_left filling.within).symm⟩
  | cons ch rest inductionHypothesis =>
    obtain ⟨next, length⟩ := filling.put ch
    obtain ⟨last, lengths⟩ := inductionHypothesis next
    refine ⟨last, lengths.trans ?_⟩
    rw [length, List.length_cons]
    omega

/-! ### After the ring has been cleared -/

/-- After the last store: `head` stands `lag` cells further than `tail` and the counter say, and
the bytes returned, the bytes counted and the `lag` bytes after them are the bytes accepted. -/
structure Lagging (state : ClearState) (lag : Nat) : Prop where
  tail_ge : state.ring.buffer ≤ state.ring.tail
  tail_lt : state.ring.tailOffset < state.ring.period
  head_eq : state.ring.head = state.ring.buffer +
    (state.ring.tailOffset + (state.ring.elementsCnt.toNat + lag)) % state.ring.period
  count_le : state.ring.elementsCnt.toNat ≤ state.ring.buffSize.toNat
  balance : state.yielded ++ Fifo.contents state.cells state.ring.period state.ring.tailOffset
    (state.ring.elementsCnt.toNat + lag) = state.stored

variable {lag : Nat}

/-- The ring is a valid one exactly when `head` does not stand ahead. -/
theorem Lagging.valid_iff (lagging : state.Lagging lag) (short : lag ≤ state.ring.buffSize.toNat)
    (empty : state.ring.elementsCnt.toNat = 0) : state.ring.Valid ↔ lag = 0 := by
  have head := lagging.head_eq
  constructor
  · intro valid
    have same := head.symm.trans valid.head_eq
    rw [Nat.add_left_cancel_iff, empty] at same
    have inside : 0 + lag < state.ring.period := by
      rw [Nat.zero_add]
      exact Nat.lt_succ_of_le short
    have ahead := Fifo.position_injective inside (Nat.succ_pos _) same
    rwa [Nat.zero_add] at ahead
  · rintro rfl
    exact ⟨lagging.tail_ge, lagging.tail_lt, head, lagging.count_le⟩

/-- A put keeps the account while the spare cell of the ring makes up for the lag. -/
theorem Lagging.put (lagging : state.Lagging lag) (small : lag ≤ 1) (ch : UInt8) :
    (state.put ch).Lagging lag := by
  by_cases room : state.ring.elementsCnt.toNat < state.ring.buffSize.toNat
  · have free : state.ring.elementsCnt.toNat + lag < state.ring.period := by
      show _ < state.ring.buffSize.toNat + 1
      omega
    have cells := cells_put_of_room ch room lagging.head_eq
    have pushed := @Fifo.contents_push _ state.cells _ state.ring.tailOffset _ ch free
    have count := state.ring.pushed_count room
    have next : state.ring.elementsCnt.toNat + 1 + lag =
        state.ring.elementsCnt.toNat + lag + 1 := Nat.add_right_comm _ _ _
    rw [put_of_room ch room] at cells ⊢
    refine ⟨lagging.tail_ge, lagging.tail_lt, ?_, ?_, ?_⟩
    · show state.ring.advance state.ring.head = state.ring.buffer +
        (state.ring.tailOffset + (state.ring.pushed.elementsCnt.toNat + lag)) % state.ring.period
      rw [lagging.head_eq, state.ring.advance_eq _ (Nat.mod_lt _ (Nat.succ_pos _)), count,
        Nat.mod_add_mod, next, Nat.add_assoc state.ring.tailOffset]
    · show state.ring.pushed.elementsCnt.toNat ≤ state.ring.buffSize.toNat
      rw [count]
      exact room
    · rw [cells]
      show state.yielded ++ Fifo.contents _ state.ring.period state.ring.tailOffset
        (state.ring.pushed.elementsCnt.toNat + lag) = state.stored ++ [ch]
      rw [count, next, pushed, ← List.append_assoc, lagging.balance]
  · rw [put_of_full ch room]
    exact ⟨lagging.tail_ge, lagging.tail_lt, lagging.head_eq, lagging.count_le, lagging.balance⟩

/-- A get keeps the account, however far `head` stands ahead. -/
theorem Lagging.get (lagging : state.Lagging lag) : state.get.Lagging lag := by
  by_cases empty : state.ring.elementsCnt.toNat = 0
  · rw [get_of_empty empty]
    exact lagging
  · have count := state.ring.popped_count empty
    obtain ⟨rest, nonempty⟩ := Nat.exists_eq_succ_of_ne_zero empty
    obtain ⟨ge, offset⟩ := state.ring.popped_tail lagging.tail_ge lagging.tail_lt
    rw [get_of_nonempty empty]
    refine ⟨ge, ?_, ?_, ?_, ?_⟩
    · show state.ring.popped.tailOffset < state.ring.period
      rw [offset]
      exact Nat.mod_lt _ (Nat.succ_pos _)
    · show state.ring.head = state.ring.buffer +
        (state.ring.popped.tailOffset + (state.ring.popped.elementsCnt.toNat + lag)) %
          state.ring.period
      rw [lagging.head_eq, offset, count, nonempty, Nat.succ_sub_one, Nat.mod_add_mod]
      congr 2
      omega
    · show state.ring.popped.elementsCnt.toNat ≤ state.ring.buffSize.toNat
      rw [count]
      exact (Nat.sub_le _ _).trans lagging.count_le
    · show (state.yielded ++ [state.machine.memory state.ring.tail]) ++
        Fifo.contents state.cells state.ring.period state.ring.popped.tailOffset
          (state.ring.popped.elementsCnt.toNat + lag) = state.stored
      rw [← lagging.balance, offset, count, nonempty, Nat.succ_sub_one, Nat.succ_add,
        Fifo.contents_succ_first, List.append_assoc, List.singleton_append,
        ← state.ring.memory_tail state.machine.memory lagging.tail_ge lagging.tail_lt]
      rfl

theorem Lagging.useAll (lagging : state.Lagging lag) (small : lag ≤ 1) (uses : List RingUse) :
    (state.useAll uses).Lagging lag := by
  induction uses generalizing state with
  | nil => exact lagging
  | cons call rest inductionHypothesis =>
    cases call with
    | putChar ch => exact inductionHypothesis (lagging.put small ch)
    | getChar => exact inductionHypothesis lagging.get

/-- With at most one cell too many, the ring delivers in order. -/
theorem Lagging.inOrder (lagging : state.Lagging lag) (small : lag ≤ 1) :
    state.DeliversInOrder := by
  intro uses
  rw [← (lagging.useAll small uses).balance]
  exact List.sublist_append_left _ _

/-! ### A ring filled behind the back of its counter -/

/-- What puts of one byte into an empty counter do: they occupy the cells from `head` on, and
leave the others as they were. -/
structure Flooded (state next : ClearState) (start : Nat) (ch : UInt8) (count : Nat) : Prop where
  buffer : next.ring.buffer = state.ring.buffer
  tail : next.ring.tail = state.ring.tail
  buffSize : next.ring.buffSize = state.ring.buffSize
  counted : next.ring.elementsCnt.toNat = count
  head : next.ring.head = state.ring.buffer + (start + count) % state.ring.period
  stored : next.stored = state.stored ++ List.replicate count ch
  yielded : next.yielded = state.yielded
  written : ∀ index < count, next.cells ((start + index) % state.ring.period) = ch
  kept : ∀ offset, (∀ index < count, offset ≠ (start + index) % state.ring.period) →
    next.cells offset = state.cells offset

theorem flooded_puts {start : Nat} (empty : state.ring.elementsCnt.toNat = 0)
    (inside : start < state.ring.period) (head : state.ring.head = state.ring.buffer + start)
    (ch : UInt8) (count : Nat) (room : count ≤ state.ring.buffSize.toNat) :
    Flooded state (state.putAll (List.replicate count ch)) start ch count := by
  induction count with
  | zero =>
    refine ⟨rfl, rfl, rfl, empty, ?_, (List.append_nil _).symm, rfl, ?_, fun _ _ => rfl⟩
    · rw [Nat.add_zero, Nat.mod_eq_of_lt inside]
      exact head
    · exact fun index impossible => absurd impossible (Nat.not_lt_zero _)
  | succ count inductionHypothesis =>
    have flooded := inductionHypothesis (Nat.le_of_succ_le room)
    have split : state.putAll (List.replicate (count + 1) ch) =
        (state.putAll (List.replicate count ch)).put ch := by
      rw [putAll, List.replicate_succ', List.foldl_append]
      rfl
    rw [split]
    generalize state.putAll (List.replicate count ch) = next at flooded ⊢
    have less : next.ring.elementsCnt.toNat < next.ring.buffSize.toNat := by
      rw [flooded.counted, flooded.buffSize]
      exact room
    have period : next.ring.period = state.ring.period := by
      rw [RingBuffer.period, flooded.buffSize, RingBuffer.period]
    have headNext : next.ring.head = next.ring.buffer + (start + count) % state.ring.period := by
      rw [flooded.head, flooded.buffer]
    have cells := cells_put_of_room ch less headNext
    have advanced := next.ring.advance_eq ((start + count) % state.ring.period)
      (period ▸ Nat.mod_lt _ (Nat.succ_pos _))
    rw [put_of_room ch less] at cells ⊢
    refine ⟨flooded.buffer, flooded.tail, flooded.buffSize, ?_, ?_, ?_, flooded.yielded, ?_, ?_⟩
    · show next.ring.pushed.elementsCnt.toNat = count + 1
      rw [next.ring.pushed_count less, flooded.counted]
    · show next.ring.advance next.ring.head = _
      rw [headNext, advanced, flooded.buffer, period, Nat.mod_add_mod, Nat.add_assoc]
    · show next.stored ++ [ch] = _
      rw [flooded.stored, List.append_assoc, List.replicate_succ']
    · intro index before
      rw [cells, Function.update_apply]
      split
      · rfl
      · rename_i other
        refine flooded.written index ((Nat.lt_succ_iff_lt_or_eq.mp before).resolve_right ?_)
        rintro rfl
        exact other rfl
    · intro offset apart
      rw [cells, Function.update_of_ne (apart count (Nat.lt_succ_self _))]
      exact flooded.kept offset fun index before => apart index (Nat.lt_succ_of_lt before)

/-- Where `head` stands some cells ahead, a ring filled to its capacity has been flooded in all of
these cells but the last. -/
theorem Flooded.contents {next : ClearState} {front : Nat} {ch : UInt8}
    (flooded : Flooded state next (front + 2) ch state.ring.buffSize.toNat)
    (within : front + 2 ≤ state.ring.buffSize.toNat) :
    Fifo.contents next.cells state.ring.period 0 (front + 2) =
      List.replicate (front + 1) ch ++ [state.cells ((0 + (front + 1)) % state.ring.period)] := by
  have period : state.ring.period = state.ring.buffSize.toNat + 1 := rfl
  have flood : Fifo.contents next.cells state.ring.period 0 (front + 1) =
      List.replicate (front + 1) ch := by
    refine List.eq_replicate_iff.mpr ⟨Fifo.length_contents, fun byte member => ?_⟩
    obtain ⟨index, inside, rfl⟩ := List.mem_map.mp member
    have before : index < front + 1 := List.mem_range.mp inside
    have distance : front + 2 + (state.ring.period - (front + 2) + index) =
        state.ring.period + (0 + index) := by omega
    rw [← flooded.written (state.ring.period - (front + 2) + index) (by omega), distance,
      Nat.add_mod_left]
  have last : next.cells ((0 + (front + 1)) % state.ring.period) =
      state.cells ((0 + (front + 1)) % state.ring.period) := by
    refine flooded.kept _ fun index before same => ?_
    have distance : 0 + (front + 1) + state.ring.period =
        front + 2 + state.ring.buffSize.toNat := by omega
    rw [← Nat.add_mod_right, distance] at same
    exact absurd (Fifo.position_injective (Nat.lt_succ_self _) (by omega) same) (by omega)
  rw [Fifo.contents_succ_last, flood, last]

/-- Gets return the cells from `tail` on, whatever `head` says. -/
theorem yielded_gets (ge : state.ring.buffer ≤ state.ring.tail)
    (inside : state.ring.tailOffset < state.ring.period) (count : Nat)
    (enough : count ≤ state.ring.elementsCnt.toNat) :
    (state.useAll (List.replicate count .getChar)).stored = state.stored ∧
      (state.useAll (List.replicate count .getChar)).yielded = state.yielded ++
        Fifo.contents state.cells state.ring.period state.ring.tailOffset count := by
  induction count generalizing state with
  | zero => exact ⟨rfl, (List.append_nil _).symm⟩
  | succ count inductionHypothesis =>
    have nonempty : state.ring.elementsCnt.toNat ≠ 0 := by omega
    have left := state.ring.popped_count nonempty
    obtain ⟨nextGe, offset⟩ := state.ring.popped_tail ge inside
    have split : state.useAll (List.replicate (count + 1) .getChar) =
        state.get.useAll (List.replicate count .getChar) := rfl
    have rest := @inductionHypothesis state.get
    rw [split]
    rw [get_of_nonempty nonempty] at rest ⊢
    obtain ⟨stored, yielded⟩ := rest nextGe
      (offset ▸ Nat.mod_lt _ (Nat.succ_pos _) : state.ring.popped.tailOffset < state.ring.period)
      (show count ≤ state.ring.popped.elementsCnt.toNat by omega)
    refine ⟨stored, yielded.trans ?_⟩
    show (state.yielded ++ [state.machine.memory state.ring.tail]) ++
      Fifo.contents state.cells state.ring.period state.ring.popped.tailOffset count = _
    rw [offset, Fifo.contents_succ_first, List.append_assoc, List.singleton_append,
      ← state.ring.memory_tail state.machine.memory ge inside]
    rfl

/-- Bytes that end in another one than `ch` are no part of other bytes of the same number
followed by `ch` only, unless they are these other bytes. -/
theorem eq_of_sublist_flooded {returned during : List UInt8} {last ch : UInt8} {count : Nat}
    (other : last ≠ ch) (length : returned.length + 1 = during.length)
    (part : (returned ++ [last]).Sublist (during ++ List.replicate count ch)) :
    returned ++ [last] = during := by
  obtain ⟨first, second, split, inDuring, inFlood⟩ := List.sublist_append_iff.mp part
  rcases List.eq_nil_or_concat second with rfl | ⟨front, final, rfl⟩
  · rw [List.append_nil] at split
    rw [split]
    refine inDuring.eq_of_length ?_
    rw [← split, List.length_append, List.length_singleton]
    exact length
  · have member : final ∈ List.replicate count ch := inFlood.subset (by simp)
    have same : last = final := by
      rw [List.concat_eq_append, ← List.append_assoc] at split
      exact (List.append_inj' split rfl).2 |> List.singleton_inj.mp
    exact absurd (same.trans (List.eq_of_mem_replicate member)) other

/-- There is a byte that differs from two given ones. -/
theorem exists_other (first last : UInt8) : ∃ ch, first ≠ ch ∧ last ≠ ch := by
  by_cases same : last = first + 1
  · refine ⟨first + 2, ?_, ?_⟩
    · grind
    · rw [same]
      grind
  · exact ⟨first + 1, by grind, same⟩

/-! ### What the last store leaves -/

/-- After the three stores: nothing is counted and nothing has been returned, `tail` stands at
`buffer` and `head` after the bytes that were accepted meanwhile. -/
structure Cleared (state : ClearState) : Prop where
  empty : state.ring.elementsCnt.toNat = 0
  tail : state.ring.tail = state.ring.buffer
  head : state.ring.head = state.ring.buffer + state.stored.length
  within : state.stored.length ≤ state.ring.buffSize.toNat
  laid : Fifo.contents state.cells state.ring.period 0 state.stored.length = state.stored
  yielded : state.yielded = []

theorem Cleared.tailOffset (cleared : state.Cleared) : state.ring.tailOffset = 0 := by
  rw [RingBuffer.tailOffset, cleared.tail, Nat.sub_self]

theorem Cleared.lagging (cleared : state.Cleared) : state.Lagging state.stored.length where
  tail_ge := cleared.tail.ge
  tail_lt := cleared.tailOffset ▸ Nat.succ_pos _
  head_eq := by
    have inside : state.stored.length < state.ring.period := Nat.lt_succ_of_le cleared.within
    rw [cleared.tailOffset, cleared.empty, Nat.zero_add, Nat.zero_add, Nat.mod_eq_of_lt inside]
    exact cleared.head
  count_le := cleared.empty ▸ Nat.zero_le _
  balance := by
    rw [cleared.yielded, cleared.tailOffset, cleared.empty, Nat.zero_add, cleared.laid,
      List.nil_append]

theorem useAll_putChar (bytes : List UInt8) :
    state.useAll (bytes.map .putChar) = state.putAll bytes := by
  rw [useAll, List.foldl_map]
  rfl

/-- When two bytes or more were accepted meanwhile, a full ring of another byte has overwritten
all of them but the last, and returns that byte before it. -/
theorem Cleared.not_inOrder (cleared : state.Cleared) (many : 2 ≤ state.stored.length) :
    ¬ state.DeliversInOrder := by
  intro inOrder
  obtain ⟨front, length⟩ := Nat.exists_eq_add_of_le' many
  have laid := cleared.laid
  have within := cleared.within
  rw [length] at laid within
  have period : state.ring.period = state.ring.buffSize.toNat + 1 := rfl
  obtain ⟨ch, otherFirst, otherLast⟩ := exists_other (state.cells (0 % state.ring.period))
    (state.cells ((0 + (front + 1)) % state.ring.period))
  have flooded := flooded_puts cleared.empty (Nat.lt_succ_of_le within)
    (length ▸ cleared.head) ch _ le_rfl
  have part := inOrder ((List.replicate state.ring.buffSize.toNat ch).map .putChar ++
    List.replicate (front + 2) .getChar)
  rw [useAll, List.foldl_append] at part
  have puts := @useAll_putChar state (List.replicate state.ring.buffSize.toNat ch)
  rw [useAll] at puts
  rw [puts] at part
  generalize state.putAll (List.replicate state.ring.buffSize.toNat ch) = next at flooded part
  have nextPeriod : next.ring.period = state.ring.period := by
    rw [RingBuffer.period, flooded.buffSize, period]
  have offset : next.ring.tailOffset = 0 := by
    rw [RingBuffer.tailOffset, flooded.tail, flooded.buffer, cleared.tail, Nat.sub_self]
  obtain ⟨stored, yielded⟩ := yielded_gets (flooded.tail ▸ flooded.buffer ▸ cleared.tail.ge)
    (offset ▸ Nat.succ_pos _) (front + 2) (flooded.counted ▸ within)
  change (next.useAll _).yielded.Sublist (next.useAll _).stored at part
  rw [stored, yielded, flooded.stored, flooded.yielded, cleared.yielded, nextPeriod, offset,
    flooded.contents within, List.nil_append] at part
  have same := eq_of_sublist_flooded otherLast (by rw [List.length_replicate, length]) part
  rw [← laid, Fifo.contents_succ_first, List.replicate_succ, List.cons_append] at same
  exact otherFirst (List.cons.inj same).1.symm

theorem putAll_keeps (bytes : List UInt8) :
    (state.putAll bytes).ring.buffer = state.ring.buffer ∧
      (state.putAll bytes).ring.tail = state.ring.tail ∧
      (state.putAll bytes).yielded = state.yielded := by
  induction bytes generalizing state with
  | nil => exact ⟨rfl, rfl, rfl⟩
  | cons ch rest inductionHypothesis =>
    obtain ⟨buffer, tail, yielded⟩ := @inductionHypothesis (state.put ch)
    rw [putAll, List.foldl_cons]
    by_cases room : state.ring.elementsCnt.toNat < state.ring.buffSize.toNat
    · rw [put_of_room ch room] at buffer tail yielded ⊢
      exact ⟨buffer, tail, yielded⟩
    · rw [put_of_full ch room] at buffer tail yielded ⊢
      exact ⟨buffer, tail, yielded⟩

end ClearState

namespace RingBuffer

/-- The number of bytes accepted between the stores: what the handler puts, as far as the count
that the last store forgets leaves room. -/
def acceptedMeanwhile (ring : RingBuffer) (first second : List UInt8) : Nat :=
  min (first.length + second.length) (ring.buffSize.toNat - ring.elementsCnt.toNat)

theorem clearInterrupted_cleared (ring : RingBuffer) (machine : Machine)
    (first second : List UInt8) :
    (ring.clearInterrupted machine first second).Cleared ∧
      (ring.clearInterrupted machine first second).stored.length =
        ring.acceptedMeanwhile first second := by
  have start : (ClearState.storeHead ⟨ring, machine, [], []⟩).Filling ring.buffSize.toNat
      ring.elementsCnt.toNat := ⟨rfl, rfl, rfl, Nat.zero_le _, rfl⟩
  obtain ⟨filling, length⟩ := start.putAll first
  have keeps := @ClearState.putAll_keeps (ClearState.storeHead ⟨ring, machine, [], []⟩) first
  rw [clearInterrupted]
  generalize (ClearState.storeHead ⟨ring, machine, [], []⟩).putAll first = state at *
  have midway : state.storeTail.Filling ring.buffSize.toNat ring.elementsCnt.toNat :=
    ⟨filling.buffSize, filling.counted, filling.head, filling.within, filling.laid⟩
  obtain ⟨filled, lengths⟩ := midway.putAll second
  have kept := @ClearState.putAll_keeps state.storeTail second
  generalize state.storeTail.putAll second = last at *
  have period : last.ring.period = ring.buffSize.toNat + 1 := by rw [period, filled.buffSize]
  refine ⟨⟨rfl, ?_, filled.head, ?_, ?_, kept.2.2.trans keeps.2.2⟩, ?_⟩
  · exact kept.2.1.trans kept.1.symm
  · show last.stored.length ≤ last.ring.buffSize.toNat
    rw [filled.buffSize]
    exact filled.within.trans (Nat.sub_le _ _)
  · show Fifo.contents last.cells last.ring.period 0 last.stored.length = last.stored
    rw [period]
    exact filled.laid
  · show last.stored.length = _
    have midLength : state.storeTail.stored.length = _ := length
    rw [lengths, midLength, acceptedMeanwhile]
    show min (min (0 + first.length) _ + second.length) _ = _
    omega

/-- Whatever the ring and whatever the handler puts between the stores, the ring is a queue
again exactly when none of these bytes was accepted; and the bytes returned afterwards are
bytes accepted meanwhile or later, in order, exactly when at most one was. -/
theorem clearInterrupted_iff (ring : RingBuffer) (machine : Machine) (first second : List UInt8) :
    ((ring.clearInterrupted machine first second).QueueAgain ↔
        ring.acceptedMeanwhile first second = 0) ∧
      ((ring.clearInterrupted machine first second).DeliversInOrder ↔
        ring.acceptedMeanwhile first second ≤ 1) := by
  obtain ⟨cleared, length⟩ := ring.clearInterrupted_cleared machine first second
  have valid := cleared.lagging.valid_iff cleared.within cleared.empty
  rw [← length]
  refine ⟨⟨fun queue => valid.mp queue.valid, fun none => ⟨valid.mpr none, ?_⟩⟩, ?_⟩
  · exact cleared.lagging.inOrder (none ▸ Nat.zero_le _)
  · refine ⟨fun inOrder => ?_, cleared.lagging.inOrder⟩
    by_contra many
    exact cleared.not_inOrder (Nat.lt_of_not_le many) inOrder

/-- A ring of two bytes, cleared while the handler puts two bytes after the first store. -/
theorem clearInterrupted_not_inOrder :
    ¬ ∀ (buffer : Nat) (bufferSize : UInt32) (ring : RingBuffer) (machine : Machine)
        (calls : List RingCall) (first second : List UInt8),
      init buffer bufferSize = some ring →
        ((Runs.after respond (ring, machine) calls).1.clearInterrupted
          (Runs.after respond (ring, machine) calls).2 first second).DeliversInOrder := by
  intro claimed
  have inOrder := claimed 100 2 ⟨100, 100, 100, 2, 0⟩ ⟨fun _ => 0, false, []⟩ [] [65, 66] [] rfl
    [.putChar 67, .putChar 68, .getChar, .getChar]
  exact absurd inOrder (by decide)

end RingBuffer

end RtpLib
