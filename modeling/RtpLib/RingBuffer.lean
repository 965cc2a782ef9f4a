/-
This file models `ring_buffer.c`: the ring buffer structure, the memory it
points into, and its operations as the source computes them.

Memory is a total map from addresses to bytes, so that an access past the end of
the caller's array is an access to some byte rather than a fault. Every
dereference of `head` and `tail` is recorded, and so is the interrupt mask that
the two operations with a critical section switch. Pointers are addresses,
natural numbers without wrap-around; `size_t` is the 32-bit word of the target.

The two pointers wrap when they stand at `buffer + buffSize`, not one before it:
the cells of the ring are the `buffSize + 1` bytes from `buffer` on, while the
counter admits `buffSize` of them. The second half of the file states what the
pointers and the counter say about each other, and proves once for each
operation what it does to the queue of bytes they represent.
-/

import RtpLib.Fifo
import RtpLib.Runs

namespace RtpLib

/-- The null pointer. -/
def null : Nat := 0

/-! ### Memory and the interrupt mask -/

/-- What the ring operations act on besides the ring structure: the bytes of the memory,
the global interrupt mask, and the addresses dereferenced so far, newest first. -/
structure Machine where
  memory : Nat → UInt8
  primask : Bool
  accesses : List Nat

namespace Machine

/-- `__disable_irq` -/
def disableIrq (machine : Machine) : Machine := { machine with primask := true }

/-- `__enable_irq` -/
def enableIrq (machine : Machine) : Machine := { machine with primask := false }

/-- Read a byte through a pointer. -/
def read (machine : Machine) (address : Nat) : UInt8 × Machine :=
  (machine.memory address, { machine with accesses := address :: machine.accesses })

/-- Write a byte through a pointer. -/
def write (machine : Machine) (address : Nat) (ch : UInt8) : Machine :=
  { machine with
    memory := Function.update machine.memory address ch
    accesses := address :: machine.accesses }

@[simp] theorem disableIrq_accesses (machine : Machine) :
    machine.disableIrq.accesses = machine.accesses := rfl

@[simp] theorem enableIrq_accesses (machine : Machine) :
    machine.enableIrq.accesses = machine.accesses := rfl

@[simp] theorem read_accesses (machine : Machine) (address : Nat) :
    (machine.read address).2.accesses = address :: machine.accesses := rfl

@[simp] theorem write_accesses (machine : Machine) (address : Nat) (ch : UInt8) :
    (machine.write address ch).accesses = address :: machine.accesses := rfl

end Machine

/-! ### The ring buffer and its operations -/

/-- `RingBuffer_t` -/
structure RingBuffer where
  buffer : Nat
  head : Nat
  tail : Nat
  buffSize : UInt32
  elementsCnt : UInt32

namespace RingBuffer

/-- `RingBuffer_Init`. The assertions reject a null buffer and a zero size; what the test
after them would answer `false` to never reaches it. -/
def init (buffer : Nat) (bufferSize : UInt32) : Option RingBuffer :=
  if buffer ≠ null ∧ bufferSize > 0 then
    some {
      buffer := buffer
      head := buffer
      tail := buffer
      buffSize := bufferSize
      elementsCnt := 0 }
  else none

/-- The step that `RingBuffer_PutChar` takes with `head` and `RingBuffer_GetChar` with
`tail`: back to `buffer` from `buffer + buffSize` on, one byte further before. -/
def advance (ring : RingBuffer) (pointer : Nat) : Nat :=
  if pointer ≥ ring.buffer + ring.buffSize.toNat then ring.buffer else pointer + 1

/-- `RingBuffer_PutChar` -/
def putChar (ring : RingBuffer) (ch : UInt8) (machine : Machine) :
    Bool × RingBuffer × Machine :=
  let machine := machine.disableIrq
  if ring.elementsCnt < ring.buffSize then
    let machine := machine.write ring.head ch
    let ring := { ring with elementsCnt := ring.elementsCnt + 1 }
    let ring := { ring with head := ring.advance ring.head }
    (true, ring, machine.enableIrq)
  else
    (false, ring, machine.enableIrq)

/-- `RingBuffer_GetLen` -/
def getLen (ring : RingBuffer) : UInt32 := ring.elementsCnt

/-- `RingBuffer_GetCapacity` -/
def getCapacity (ring : RingBuffer) : UInt32 := ring.buffSize

/-- `RingBuffer_IsEmpty` -/
def isEmpty (ring : RingBuffer) : Bool := ring.getLen == 0

/-- The critical section of `RingBuffer_GetChar`, entered after its emptiness test. -/
def getSection (ring : RingBuffer) (machine : Machine) : UInt8 × RingBuffer × Machine :=
  let machine := machine.disableIrq
  let (ch, machine) := machine.read ring.tail
  let ring := { ring with elementsCnt := ring.elementsCnt - 1 }
  let ring := { ring with tail := ring.advance ring.tail }
  (ch, ring, machine.enableIrq)

/-- `RingBuffer_GetChar`: the result, and the byte stored through `ch`. -/
def getChar (ring : RingBuffer) (machine : Machine) : (Bool × UInt8) × RingBuffer × Machine :=
  if ring.isEmpty then
    ((false, 0), ring, machine)
  else
    let (ch, ring, machine) := ring.getSection machine
    ((true, ch), ring, machine)

/-- `RingBuffer_Clear` -/
def clear (ring : RingBuffer) : RingBuffer :=
  let ring := { ring with head := ring.buffer }
  let ring := { ring with tail := ring.buffer }
  { ring with elementsCnt := 0 }

/-! ### What the pointers and the counter represent -/

/-- The number of cells of the ring, one more than its capacity. -/
def period (ring : RingBuffer) : Nat := ring.buffSize.toNat + 1

/-- The position of `tail` in the cells of the ring. -/
def tailOffset (ring : RingBuffer) : Nat := ring.tail - ring.buffer

/-- The bytes queued in the ring: `elementsCnt` cells from `tail` on. -/
def contents (ring : RingBuffer) (memory : Nat → UInt8) : List UInt8 :=
  Fifo.contents (fun offset => memory (ring.buffer + offset)) ring.period ring.tailOffset
    ring.elementsCnt.toNat

/-- What every operation keeps: `tail` points at a cell of the ring, `head` stands
`elementsCnt` cells after it, and the counter is within the capacity. -/
structure Valid (ring : RingBuffer) : Prop where
  tail_ge : ring.buffer ≤ ring.tail
  tail_lt : ring.tailOffset < ring.period
  head_eq : ring.head = ring.buffer + (ring.tailOffset + ring.elementsCnt.toNat) % ring.period
  count_le : ring.elementsCnt.toNat ≤ ring.buffSize.toNat

@[simp] theorem length_contents (ring : RingBuffer) (memory : Nat → UInt8) :
    (ring.contents memory).length = ring.elementsCnt.toNat := Fifo.length_contents

theorem isEmpty_iff (ring : RingBuffer) : ring.isEmpty = true ↔ ring.elementsCnt.toNat = 0 := by
  rw [isEmpty, getLen, beq_iff_eq, ← UInt32.toNat_inj, UInt32.toNat_zero]

theorem isEmpty_iff_contents (ring : RingBuffer) (memory : Nat → UInt8) :
    ring.isEmpty = true ↔ ring.contents memory = [] := by
  rw [isEmpty_iff, ← length_contents ring memory, List.length_eq_zero_iff]

/-- A step of a pointer is one cell further, modulo the number of cells. -/
theorem advance_eq (ring : RingBuffer) (offset : Nat) (inside : offset < ring.period) :
    ring.advance (ring.buffer + offset) = ring.buffer + (offset + 1) % ring.period := by
  have bound : offset < ring.buffSize.toNat + 1 := inside
  rw [← Fifo.next_position inside, advance, period]
  split <;> split <;> omega

theorem advance_head (ring : RingBuffer) (valid : ring.Valid) :
    ring.advance ring.head =
      ring.buffer + (ring.tailOffset + (ring.elementsCnt.toNat + 1)) % ring.period := by
  rw [valid.head_eq, ring.advance_eq _ (Nat.mod_lt _ (Nat.succ_pos _)), Nat.mod_add_mod,
    Nat.add_assoc]

/-! ### What each operation does to the queue -/

/-- The ring after an accepted byte. -/
def pushed (ring : RingBuffer) : RingBuffer :=
  { ring with head := ring.advance ring.head, elementsCnt := ring.elementsCnt + 1 }

/-- The ring after the critical section of `RingBuffer_GetChar`. -/
def popped (ring : RingBuffer) : RingBuffer :=
  { ring with tail := ring.advance ring.tail, elementsCnt := ring.elementsCnt - 1 }

theorem putChar_of_room (ring : RingBuffer) (ch : UInt8) (machine : Machine)
    (room : ring.elementsCnt.toNat < ring.buffSize.toNat) :
    ring.putChar ch machine =
      (true, ring.pushed, (machine.disableIrq.write ring.head ch).enableIrq) := by
  rw [putChar, if_pos (UInt32.lt_iff_toNat_lt.mpr room)]
  rfl

theorem putChar_of_full (ring : RingBuffer) (ch : UInt8) (machine : Machine)
    (full : ¬ ring.elementsCnt.toNat < ring.buffSize.toNat) :
    ring.putChar ch machine = (false, ring, machine.disableIrq.enableIrq) := by
  rw [putChar, if_neg fun less => full (UInt32.lt_iff_toNat_lt.mp less)]

theorem getSection_eq (ring : RingBuffer) (machine : Machine) :
    ring.getSection machine =
      (machine.memory ring.tail, ring.popped,
        (machine.disableIrq.read ring.tail).2.enableIrq) := rfl

theorem getChar_of_empty (ring : RingBuffer) (machine : Machine)
    (empty : ring.elementsCnt.toNat = 0) :
    ring.getChar machine = ((false, 0), ring, machine) := by
  rw [getChar, if_pos (ring.isEmpty_iff.mpr empty)]

theorem getChar_of_nonempty (ring : RingBuffer) (machine : Machine)
    (nonempty : ring.elementsCnt.toNat ≠ 0) :
    ring.getChar machine =
      ((true, machine.memory ring.tail), ring.popped,
        (machine.disableIrq.read ring.tail).2.enableIrq) := by
  rw [getChar, if_neg fun empty => nonempty (ring.isEmpty_iff.mp empty)]
  rfl

theorem pushed_count (ring : RingBuffer)
    (room : ring.elementsCnt.toNat < ring.buffSize.toNat) :
    ring.pushed.elementsCnt.toNat = ring.elementsCnt.toNat + 1 := by
  have bound := ring.buffSize.toNat_lt
  show (ring.elementsCnt + 1).toNat = _
  rw [UInt32.toNat_add, UInt32.toNat_one, Nat.mod_eq_of_lt (by omega)]

theorem popped_count (ring : RingBuffer) (nonempty : ring.elementsCnt.toNat ≠ 0) :
    ring.popped.elementsCnt.toNat = ring.elementsCnt.toNat - 1 := by
  have bound := ring.elementsCnt.toNat_lt
  show (ring.elementsCnt - 1).toNat = _
  rw [UInt32.toNat_sub, UInt32.toNat_one]
  omega

/-- The critical section of `RingBuffer_GetChar` moves `tail` one cell further. -/
theorem popped_tail (ring : RingBuffer) (ge : ring.buffer ≤ ring.tail)
    (inside : ring.tailOffset < ring.period) :
    ring.buffer ≤ ring.popped.tail ∧
      ring.popped.tailOffset = (ring.tailOffset + 1) % ring.period := by
  have tail : ring.popped.tail = ring.buffer + (ring.tailOffset + 1) % ring.period := by
    rw [← ring.advance_eq _ inside, tailOffset, Nat.add_sub_cancel' ge]
    rfl
  refine ⟨tail ▸ Nat.le_add_right _ _, ?_⟩
  show ring.popped.tail - ring.buffer = _
  rw [tail, Nat.add_sub_cancel_left]

/-- The cell that `tail` points at. -/
theorem memory_tail (ring : RingBuffer) (memory : Nat → UInt8) (ge : ring.buffer ≤ ring.tail)
    (inside : ring.tailOffset < ring.period) :
    memory (ring.buffer + ring.tailOffset % ring.period) = memory ring.tail := by
  rw [Nat.mod_eq_of_lt inside, tailOffset, Nat.add_sub_cancel' ge]

theorem valid_pushed (ring : RingBuffer) (valid : ring.Valid)
    (room : ring.elementsCnt.toNat < ring.buffSize.toNat) : ring.pushed.Valid where
  tail_ge := valid.tail_ge
  tail_lt := valid.tail_lt
  head_eq := by
    rw [ring.pushed_count room]
    exact ring.advance_head valid
  count_le := by
    rw [ring.pushed_count room]
    exact room

theorem valid_popped (ring : RingBuffer) (valid : ring.Valid)
    (nonempty : ring.elementsCnt.toNat ≠ 0) : ring.popped.Valid := by
  obtain ⟨ge, offset⟩ := ring.popped_tail valid.tail_ge valid.tail_lt
  refine ⟨ge, ?_, ?_, ?_⟩
  · rw [offset]
    exact Nat.mod_lt _ (Nat.succ_pos _)
  · rw [offset, ring.popped_count nonempty]
    show ring.head = ring.buffer + _ % ring.period
    rw [valid.head_eq, Nat.mod_add_mod]
    congr 2
    omega
  · rw [ring.popped_count nonempty]
    exact (Nat.sub_le _ _).trans valid.count_le

/-- An accepted byte is appended to the queue. -/
theorem contents_pushed (ring : RingBuffer) (valid : ring.Valid)
    (room : ring.elementsCnt.toNat < ring.buffSize.toNat) (memory : Nat → UInt8) (ch : UInt8) :
    ring.pushed.contents (Function.update memory ring.head ch) = ring.contents memory ++ [ch] := by
  have cells : (fun offset => Function.update memory ring.head ch (ring.buffer + offset)) =
      Function.update (fun offset => memory (ring.buffer + offset))
        ((ring.tailOffset + ring.elementsCnt.toNat) % ring.period) ch := by
    funext offset
    simp only [Function.update_apply, valid.head_eq, Nat.add_left_cancel_iff]
  show Fifo.contents _ ring.period ring.tailOffset ring.pushed.elementsCnt.toNat = _
  rw [ring.pushed_count room]
  show Fifo.contents (fun offset => Function.update memory ring.head ch (ring.buffer + offset))
    ring.period ring.tailOffset (ring.elementsCnt.toNat + 1) = _
  rw [cells]
  exact Fifo.contents_push ch (room.trans (Nat.lt_succ_self _))

/-- The critical section removes the oldest byte. -/
theorem contents_popped (ring : RingBuffer) (valid : ring.Valid)
    (nonempty : ring.elementsCnt.toNat ≠ 0) (memory : Nat → UInt8) :
    ring.contents memory = memory ring.tail :: ring.popped.contents memory := by
  obtain ⟨_, offset⟩ := ring.popped_tail valid.tail_ge valid.tail_lt
  obtain ⟨rest, count⟩ := Nat.exists_eq_succ_of_ne_zero nonempty
  rw [contents, count, Fifo.contents_succ_first,
    ring.memory_tail memory valid.tail_ge valid.tail_lt]
  refine congrArg (memory ring.tail :: ·) ?_
  rw [contents, offset, ring.popped_count nonempty, count]
  rfl

theorem valid_clear (ring : RingBuffer) : ring.clear.Valid where
  tail_ge := le_rfl
  tail_lt := by
    show ring.buffer - ring.buffer < ring.period
    rw [Nat.sub_self]
    exact Nat.succ_pos _
  head_eq := by
    show ring.buffer = ring.buffer + (ring.buffer - ring.buffer + 0) % ring.period
    rw [Nat.sub_self, Nat.zero_mod, Nat.add_zero]
  count_le := Nat.zero_le _

@[simp] theorem contents_clear (ring : RingBuffer) (memory : Nat → UInt8) :
    ring.clear.contents memory = [] := Fifo.contents_zero

/-- An initialised ring is a cleared one of the given size, at the given place. -/
theorem init_eq_some {buffer : Nat} {bufferSize : UInt32} {ring : RingBuffer}
    (initialised : init buffer bufferSize = some ring) :
    ring = ring.clear ∧ ring.buffer = buffer ∧ ring.buffSize = bufferSize ∧ bufferSize > 0 := by
  rw [init] at initialised
  split at initialised
  · rename_i accepted
    cases initialised
    exact ⟨rfl, rfl, rfl, accepted.2⟩
  · cases initialised

theorem valid_init {buffer : Nat} {bufferSize : UInt32} {ring : RingBuffer}
    (initialised : init buffer bufferSize = some ring) : ring.Valid := by
  rw [(init_eq_some initialised).1]
  exact valid_clear ring

theorem contents_init {buffer : Nat} {bufferSize : UInt32} {ring : RingBuffer}
    (initialised : init buffer bufferSize = some ring) (memory : Nat → UInt8) :
    ring.contents memory = [] := by
  rw [(init_eq_some initialised).1, contents_clear]

end RingBuffer

/-! ### The bytes stored and the bytes yielded -/

/-- The ring accounts for its bytes: those yielded so far and those queued are the bytes
stored so far, in order. -/
structure Ledger (ring : RingBuffer) (memory : Nat → UInt8) (stored yielded : List UInt8) :
    Prop where
  valid : ring.Valid
  balance : yielded ++ ring.contents memory = stored

namespace Ledger

variable {ring : RingBuffer} {memory : Nat → UInt8} {stored yielded : List UInt8}

theorem init {buffer : Nat} {bufferSize : UInt32}
    (initialised : RingBuffer.init buffer bufferSize = some ring) : Ledger ring memory [] [] where
  valid := RingBuffer.valid_init initialised
  balance := RingBuffer.contents_init initialised memory

theorem pushed (ledger : Ledger ring memory stored yielded)
    (room : ring.elementsCnt.toNat < ring.buffSize.toNat) (ch : UInt8) :
    Ledger ring.pushed (Function.update memory ring.head ch) (stored ++ [ch]) yielded where
  valid := ring.valid_pushed ledger.valid room
  balance := by
    rw [ring.contents_pushed ledger.valid room, ← List.append_assoc, ledger.balance]

theorem popped (ledger : Ledger ring memory stored yielded)
    (nonempty : ring.elementsCnt.toNat ≠ 0) :
    Ledger ring.popped memory stored (yielded ++ [memory ring.tail]) where
  valid := ring.valid_popped ledger.valid nonempty
  balance := by
    rw [List.append_assoc, List.singleton_append,
      ← ring.contents_popped ledger.valid nonempty, ledger.balance]

/-- Every stored byte is yielded at most once, and in order. -/
theorem yielded_prefix (ledger : Ledger ring memory stored yielded) : yielded <+: stored :=
  ⟨_, ledger.balance⟩

/-- When the ring is empty, every stored byte has been yielded: one more is not a stored
byte's turn. -/
theorem not_prefix_of_empty (ledger : Ledger ring memory stored yielded)
    (empty : ring.elementsCnt.toNat = 0) (ch : UInt8) : ¬ yielded ++ [ch] <+: stored := by
  intro initial
  have none_queued : ring.contents memory = [] := by
    rw [← List.length_eq_zero_iff, RingBuffer.length_contents, empty]
  have all_yielded : yielded = stored := by
    rw [← ledger.balance, none_queued, List.append_nil]
  have longer := initial.length_le
  rw [all_yielded, List.length_append, List.length_singleton] at longer
  exact Nat.not_succ_le_self _ longer

end Ledger

/-! ### Sequences of calls -/

/-- A call of a ring operation. -/
inductive RingCall
  | putChar (ch : UInt8)
  | getChar
  | isEmpty
  | clear
  | getLen
  | getCapacity

/-- What a call returns, the byte stored through `ch` included. -/
inductive RingReply
  | done
  | result (ok : Bool)
  | char (ok : Bool) (ch : UInt8)
  | size (count : Nat)

/-- One call on a ring in memory, without an interrupt in it. -/
def RingBuffer.respond (state : RingBuffer × Machine) :
    RingCall → RingReply × (RingBuffer × Machine)
  | .putChar ch =>
    let (ok, next) := state.1.putChar ch state.2
    (.result ok, next)
  | .getChar =>
    let ((ok, ch), next) := state.1.getChar state.2
    (.char ok ch, next)
  | .isEmpty => (.result state.1.isEmpty, state)
  | .clear => (.done, state.1.clear, state.2)
  | .getLen => (.size state.1.getLen.toNat, state)
  | .getCapacity => (.size state.1.getCapacity.toNat, state)

end RtpLib
