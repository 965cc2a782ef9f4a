/-
This file gives the port its abstract level. To its callers and to the driver the port
is two bounded queues, one for each direction, with the handle of the driver, the flag
and the callback; neither pointers nor memory nor the static characters can be seen.

The abstract calls say in terms of lists what each call takes, delivers and drops, the
oddities of the code included: a call that writes takes a byte from the queue whether
the transmitter is idle or not, and a call that reads takes one byte more than it
delivers. Every call on the port refines the call on the queues, as long as the cells
of the two rings do not overlap.
-/

import RtpLib.ReadString
import RtpLib.RingQueue
import RtpLib.WriteString

namespace RtpLib

open UartPort

/-! ### The abstract port -/

/-- The port as its callers may think of it. -/
structure PortQueues where
  tx : Fifo.Queue UInt8 txBufferSize.toNat
  rx : Fifo.Queue UInt8 rxBufferSize.toNat
  handle : UartHandle
  flag : UInt8
  callback : Nat

/-- A call of a task, or an interrupt with its handler. -/
inductive PortInput
  | writeData (data : List UInt8)
  | writeString (string : List UInt8)
  | putChar (ch : UInt8) (ready : Bool)
  | getChar
  | readData (bytes : Nat → UInt8) (maxDataSize : Nat)
  | readString (bytes : Option (Nat → UInt8)) (maxDataSize : Nat)
  | setCallbackFunction (foo : Nat)
  /-- The byte in transmission has been sent. -/
  | txCplt
  | rxCplt (ch : UInt8)

/-- What a call returns or writes for its caller; a call through a null pointer and a failed
assertion are faults. -/
inductive PortReply
  | fault
  | done
  | result (ok : Bool)
  | char (ok : Bool) (ch : UInt8)
  | count (cnt : Nat)
  | data (cnt : Nat) (data : Option DataArray)

/-- What can be seen of the port after a call. -/
structure PortAnswer where
  reply : PortReply
  handle : UartHandle
  flag : UInt8

namespace PortQueues

/-- The port after its initialisation. -/
def start : PortQueues := ⟨.empty, .empty, ⟨none, true, false, []⟩, 0, null⟩

/-- The next byte leaves the queue for the transmitter. -/
def sendNext (queues : PortQueues) : PortQueues :=
  match queues.tx.items with
  | [] => queues
  | ch :: _ =>
    { queues with tx := queues.tx.pop.2, handle := (queues.handle.transmitIT ch).2 }

def writeData (queues : PortQueues) (data : List UInt8) : Option (Nat × PortQueues) :=
  if data = [] then none
  else
    let (cnt, tx) := queues.tx.pushAll data
    some (cnt, sendNext { queues with tx := tx })

def putChar (queues : PortQueues) (ch : UInt8) (ready : Bool) : Bool × PortQueues :=
  let (result, tx) := queues.tx.push ch
  let queues := { queues with tx := tx }
  (result, if ready then queues.sendNext else queues)

def readData (queues : PortQueues) (data : DataArray) (maxDataSize : Nat) :
    Nat × DataArray × PortQueues :=
  (min queues.rx.items.length maxDataSize, data.setAll 0 (queues.rx.items.take maxDataSize),
    { queues with rx := queues.rx.drop (maxDataSize + 1) })

def readString (queues : PortQueues) (data : DataArray) (maxDataSize : Nat) :
    Nat × DataArray × PortQueues :=
  let bytes := queues.rx.items.take (maxDataSize - 1)
  if 0 ∈ bytes then
    ((throughZero bytes).length, data.setAll 0 (throughZero bytes),
      { queues with rx := queues.rx.drop (throughZero bytes).length })
  else
    let cnt := min queues.rx.items.length (maxDataSize - 1) + 1
    (cnt, (data.setAll 0 bytes).set cnt 0, { queues with rx := queues.rx.drop cnt })

def rxCplt (queues : PortQueues) (ch : UInt8) : Option PortQueues :=
  let stored (ch : UInt8) (flag : UInt8) : PortQueues :=
    { queues with
      rx := (queues.rx.push ch).2
      flag := flag
      handle := queues.handle.received.receiveIT.2 }
  if ch = newline then if queues.callback = null then none else some (stored 0 1)
  else some (stored ch queues.flag)

/-- One call on the abstract port. -/
def reply (queues : PortQueues) : PortInput → PortReply × PortQueues
  | .writeData data =>
    match queues.writeData data with
    | some (cnt, next) => (.count cnt, next)
    | none => (.fault, queues)
  | .writeString string =>
    match queues.writeData string with
    | some (cnt, next) => (.result (cnt != 0), next)
    | none => (.fault, queues)
  | .putChar ch ready =>
    let (result, next) := queues.putChar ch ready
    (.result result, next)
  | .getChar =>
    match queues.rx.items with
    | [] => (.char false 0, queues)
    | ch :: _ => (.char true ch, { queues with rx := queues.rx.drop 1 })
  | .readData bytes maxDataSize =>
    let (cnt, data, next) := queues.readData (.ofBytes bytes) maxDataSize
    (.data cnt (some data), next)
  | .readString none _ => (.data 0 none, queues)
  | .readString (some bytes) maxDataSize =>
    let (cnt, data, next) := queues.readString (.ofBytes bytes) maxDataSize
    (.data cnt (some data), next)
  | .setCallbackFunction foo =>
    if foo = null then (.fault, queues) else (.result true, { queues with callback := foo })
  | .txCplt => (.done, sendNext { queues with handle := queues.handle.transmitted })
  | .rxCplt ch =>
    match queues.rxCplt ch with
    | some next => (.done, next)
    | none => (.fault, queues)

def respond (queues : PortQueues) (call : PortInput) : PortAnswer × PortQueues :=
  (⟨(queues.reply call).1, (queues.reply call).2.handle, (queues.reply call).2.flag⟩,
    (queues.reply call).2)

end PortQueues

/-! ### The port -/

namespace UartPort

/-- One call on the port, without an interrupt in it. -/
def reply (port : UartPort) : PortInput → PortReply × UartPort
  | .writeData data =>
    match port.writeData data with
    | some (cnt, next) => (.count cnt, next)
    | none => (.fault, port)
  | .writeString string =>
    match port.writeString string with
    | some (result, next) => (.result result, next)
    | none => (.fault, port)
  | .putChar ch ready =>
    let (result, next) := port.putChar ch ready
    (.result result, next)
  | .getChar =>
    let ((result, ch), next) := port.getRxChar
    (.char result ch, next)
  | .readData bytes maxDataSize =>
    let (cnt, data, next) := port.readData (.ofBytes bytes) maxDataSize
    (.data cnt (some data), next)
  | .readString bytes maxDataSize =>
    let (cnt, data, next) := port.readString (bytes.map .ofBytes) maxDataSize
    (.data cnt data, next)
  | .setCallbackFunction foo =>
    match port.setCallbackFunction foo with
    | some next => (.result true, next)
    | none => (.fault, port)
  | .txCplt => (.done, port.transmitted.txCpltCallbck)
  | .rxCplt ch =>
    match (port.receive ch).rxCpltCallbck with
    | some next => (.done, next)
    | none => (.fault, port)

def respond (port : UartPort) (call : PortInput) : PortAnswer × UartPort :=
  (⟨(port.reply call).1, (port.reply call).2.handle, (port.reply call).2.flag⟩,
    (port.reply call).2)

end UartPort

/-! ### Two rings in one memory -/

namespace RingBuffer

/-- The queue of a ring depends on the cells of the ring only. -/
theorem contents_congr (ring : RingBuffer) {memory other : Nat → UInt8}
    (same : ∀ offset < ring.period, other (ring.buffer + offset) = memory (ring.buffer + offset)) :
    ring.contents other = ring.contents memory :=
  List.map_congr_left fun _ _ => same _ (Nat.mod_lt _ (Nat.succ_pos _))

/-- A put writes to no cell but one of the ring. -/
theorem putChar_outside (ring : RingBuffer) (valid : ring.Valid) (ch : UInt8) (machine : Machine)
    {address : Nat} (outside : ∀ offset < ring.period, ring.buffer + offset ≠ address) :
    (ring.putChar ch machine).2.2.memory address = machine.memory address := by
  by_cases room : ring.elementsCnt.toNat < ring.buffSize.toNat
  · have different : address ≠ ring.head := by
      rw [valid.head_eq]
      exact (outside _ (Nat.mod_lt _ (Nat.succ_pos _))).symm
    rw [putChar_of_room _ _ _ room]
    exact Function.update_of_ne different _ _
  · rw [putChar_of_full _ _ _ room]
    rfl

/-- A put leaves the cells of the ring where they are. -/
theorem putChar_place (ring : RingBuffer) (ch : UInt8) (machine : Machine) :
    (ring.putChar ch machine).2.1.buffer = ring.buffer ∧
      (ring.putChar ch machine).2.1.period = ring.period := by
  rw [putChar]
  split <;> exact ⟨rfl, rfl⟩

end RingBuffer

/-- Two rings in one memory represent two queues, and have no cell in common. -/
structure Beside {capacity otherCapacity : Nat} (ring other : RingBuffer) (machine : Machine)
    (queue : Fifo.Queue UInt8 capacity) (otherQueue : Fifo.Queue UInt8 otherCapacity) : Prop where
  represents : Represents (ring, machine) queue
  otherRepresents : Represents (other, machine) otherQueue
  apart : ∀ offset < ring.period, ∀ otherOffset < other.period,
    ring.buffer + offset ≠ other.buffer + otherOffset

namespace Beside

variable {capacity otherCapacity : Nat} {ring other : RingBuffer} {machine : Machine}
variable {queue : Fifo.Queue UInt8 capacity} {otherQueue : Fifo.Queue UInt8 otherCapacity}

theorem swap (beside : Beside ring other machine queue otherQueue) :
    Beside other ring machine otherQueue queue where
  represents := beside.otherRepresents
  otherRepresents := beside.represents
  apart := fun offset inside otherOffset otherInside =>
    (beside.apart otherOffset otherInside offset inside).symm

/-- A put on one ring is a push on its queue, and leaves the other queue alone. -/
theorem putChar (beside : Beside ring other machine queue otherQueue) (ch : UInt8) :
    (ring.putChar ch machine).1 = (queue.push ch).1 ∧
      Beside (ring.putChar ch machine).2.1 other (ring.putChar ch machine).2.2
        (queue.push ch).2 otherQueue := by
  obtain ⟨same, next⟩ := beside.represents.putChar ch
  obtain ⟨buffer, period⟩ := ring.putChar_place ch machine
  refine ⟨same, next, ⟨beside.otherRepresents.valid, beside.otherRepresents.size, ?_⟩, ?_⟩
  · refine (other.contents_congr fun otherOffset inside => ?_).trans
      beside.otherRepresents.contents
    exact ring.putChar_outside beside.represents.valid ch machine
      fun offset own => beside.apart offset own otherOffset inside
  · rw [buffer, period]
    exact beside.apart

/-- A get yields the oldest item of the queue. -/
theorem getChar (beside : Beside ring other machine queue otherQueue) {ch : UInt8}
    {rest : List UInt8} (items : queue.items = ch :: rest) :
    ∃ next after, ring.getChar machine = ((true, ch), next, after) ∧
      Beside next other after queue.pop.2 otherQueue := by
  have valid := beside.represents.valid
  have nonempty : ring.elementsCnt.toNat ≠ 0 := by
    rw [beside.represents.count_eq, items]
    exact Nat.succ_ne_zero _
  have first := ring.contents_popped valid nonempty machine.memory
  rw [beside.represents.contents, items, List.cons.injEq] at first
  have taken : queue.pop.2.items = rest := congrArg List.tail items
  refine ⟨ring.popped, (machine.disableIrq.read ring.tail).2.enableIrq, ?_, ?_, ?_, beside.apart⟩
  · rw [ring.getChar_of_nonempty _ nonempty, ← first.1]
  · exact ⟨ring.valid_popped valid nonempty, beside.represents.size, first.2.symm.trans taken.symm⟩
  · exact ⟨beside.otherRepresents.valid, beside.otherRepresents.size,
      beside.otherRepresents.contents⟩

end Beside

/-! ### What reading changes -/

/-- All that the calls that read may change of the port: the places in the receive ring, and
the record of the accesses. -/
structure OnlyReads (port next : UartPort) : Prop where
  rest : next = { port with uartRxBuffer := next.uartRxBuffer, machine := next.machine }
  memory : next.machine.memory = port.machine.memory
  buffer : next.uartRxBuffer.buffer = port.uartRxBuffer.buffer
  size : next.uartRxBuffer.buffSize = port.uartRxBuffer.buffSize

namespace OnlyReads

theorem refl (port : UartPort) : OnlyReads port port := ⟨rfl, rfl, rfl, rfl⟩

theorem trans {first second third : UartPort} (before : OnlyReads first second)
    (after : OnlyReads second third) : OnlyReads first third where
  rest := by
    have inner := after.rest
    rw [before.rest] at inner
    exact inner
  memory := after.memory.trans before.memory
  buffer := after.buffer.trans before.buffer
  size := after.size.trans before.size

theorem getRxChar (port : UartPort) : OnlyReads port port.getRxChar.2 := by
  by_cases empty : port.uartRxBuffer.elementsCnt.toNat = 0
  · rw [UartPort.getRxChar, RingBuffer.getChar_of_empty _ _ empty]
    exact refl port
  · rw [UartPort.getRxChar, RingBuffer.getChar_of_nonempty _ _ empty]
    exact ⟨rfl, rfl, rfl, rfl⟩

theorem readDataLoop (maxDataSize cnt : Nat) (data : DataArray) (port : UartPort) :
    OnlyReads port (UartPort.readDataLoop maxDataSize cnt data port).2.2 := by
  have first := getRxChar port
  rw [UartPort.readDataLoop]
  rcases taken : port.getRxChar with ⟨⟨result, ch⟩, next⟩
  rw [taken] at first
  by_cases more : result = true ∧ cnt < maxDataSize
  · simp only [if_pos more]
    exact first.trans (readDataLoop maxDataSize (cnt + 1) (data.set cnt ch) next)
  · simp only [if_neg more]
    exact first
termination_by maxDataSize - cnt

theorem readStringLoop (maxDataSize cnt : Nat) (data : DataArray) (port : UartPort) :
    OnlyReads port (UartPort.readStringLoop maxDataSize cnt data port).2.2.2 := by
  have first := getRxChar port
  rw [UartPort.readStringLoop]
  by_cases space : cnt + 1 < maxDataSize
  · rw [if_pos space]
    rcases taken : port.getRxChar with ⟨⟨result, ch⟩, next⟩
    rw [taken] at first
    by_cases more : result = true ∧ ch ≠ 0
    · simp only [if_pos more.1, if_neg more.2]
      exact first.trans (readStringLoop maxDataSize (cnt + 1) (data.set cnt ch) next)
    · have last : OnlyReads port next := first
      dsimp only
      split
      · rw [if_pos (by_contra fun other => more ⟨‹_›, other⟩)]
        exact last
      · exact last
  · rw [if_neg space]
    exact refl port
termination_by maxDataSize - cnt

theorem readString (port : UartPort) (data : Option DataArray) (maxDataSize : Nat) :
    OnlyReads port (port.readString data maxDataSize).2.2 := by
  cases data with
  | none => exact refl port
  | some data =>
    have looped := readStringLoop maxDataSize 0 data port
    simp only [UartPort.readString]
    split
    · exact looped
    · exact looped.trans (getRxChar _)

end OnlyReads

/-! ### The port refines the queues -/

/-- The two rings of the port stand for the two queues, and the rest is the same. -/
structure Refines (port : UartPort) (queues : PortQueues) : Prop where
  rings : Beside port.uartTxBuffer port.uartRxBuffer port.machine queues.tx queues.rx
  handle : port.handle = queues.handle
  flag : port.flag = queues.flag
  callback : port.callback = queues.callback

namespace Refines

variable {port next : UartPort} {queues : PortQueues}

/-! #### The calls that transmit -/

theorem putTxChar (refines : Refines port queues) (ch : UInt8) :
    (port.putTxChar ch).1 = (queues.tx.push ch).1 ∧
      Refines (port.putTxChar ch).2 { queues with tx := (queues.tx.push ch).2 } := by
  obtain ⟨same, rings⟩ := refines.rings.putChar ch
  exact ⟨same, rings, refines.handle, refines.flag, refines.callback⟩

/-- The loop of `UartPort_WriteData` appends what there is room for. -/
theorem writeLoop (refines : Refines port queues) (cnt : Nat) (data : List UInt8) :
    (port.writeLoop cnt data).1 = cnt + (queues.tx.pushAll data).1 ∧
      Refines (port.writeLoop cnt data).2 { queues with tx := (queues.tx.pushAll data).2 } := by
  induction data generalizing port queues cnt with
  | nil =>
    rw [queues.tx.pushAll_nil]
    exact ⟨rfl, refines⟩
  | cons ch rest inductionHypothesis =>
    obtain ⟨result, put⟩ := refines.putTxChar ch
    simp only [UartPort.writeLoop]
    by_cases room : queues.tx.items.length < txBufferSize.toNat
    · obtain ⟨counted, looped⟩ := inductionHypothesis put (cnt + 1)
      rw [queues.tx.pushAll_of_room ch rest room, result, (queues.tx.push_of_room ch room).1,
        if_pos rfl]
      refine ⟨?_, looped⟩
      rw [counted, Nat.add_assoc, Nat.add_comm 1]
    · have full := queues.tx.push_of_full ch room
      rw [full] at put
      rw [queues.tx.pushAll_of_full _ room, result, full, if_neg Bool.false_ne_true]
      exact ⟨rfl, put⟩

theorem isEmpty_iff (refines : Refines port queues) :
    port.uartTxBuffer.isEmpty = true ↔ queues.tx.items = [] := by
  rw [RingBuffer.isEmpty_iff_contents _ port.machine.memory, refines.rings.represents.contents]

/-- What all the senders do with a ring that is not empty: the next byte is taken, and handed
to the transmitter. -/
theorem sendNext (refines : Refines port queues) :
    Refines (if port.uartTxBuffer.isEmpty then port else port.getTxChar.2.transmitTxChar)
      queues.sendNext := by
  rw [PortQueues.sendNext]
  cases items : queues.tx.items with
  | nil =>
    rw [if_pos (refines.isEmpty_iff.mpr items)]
    exact refines
  | cons ch rest =>
    have nonempty : ¬ port.uartTxBuffer.isEmpty = true := fun empty =>
      List.cons_ne_nil ch rest (items.symm.trans (refines.isEmpty_iff.mp empty))
    obtain ⟨ring, machine, taken, rings⟩ := refines.rings.getChar items
    rw [if_neg nonempty, getTxChar, taken]
    refine ⟨rings, ?_, refines.flag, refines.callback⟩
    show (port.handle.transmitIT ch).2 = (queues.handle.transmitIT ch).2
    rw [refines.handle]

/-- `UartPort_WriteData` fails its assertion when the abstract call does, and counts the same
bytes otherwise. -/
theorem writeData (refines : Refines port queues) (data : List UInt8) :
    (port.writeData data = none ∧ queues.writeData data = none) ∨
      ∃ cnt first second, port.writeData data = some (cnt, first) ∧
        queues.writeData data = some (cnt, second) ∧ Refines first second := by
  rw [UartPort.writeData, PortQueues.writeData]
  by_cases empty : data = []
  · rw [if_pos empty, if_pos empty]
    exact .inl ⟨rfl, rfl⟩
  · obtain ⟨counted, looped⟩ := refines.writeLoop 0 data
    rw [Nat.zero_add] at counted
    rw [if_neg empty, if_neg empty]
    exact .inr ⟨_, _, _, congrArg (fun cnt => some (cnt, _)) counted, rfl, looped.sendNext⟩

theorem putChar (refines : Refines port queues) (ch : UInt8) (ready : Bool) :
    (port.putChar ch ready).1 = (queues.putChar ch ready).1 ∧
      Refines (port.putChar ch ready).2 (queues.putChar ch ready).2 := by
  obtain ⟨result, put⟩ := refines.putTxChar ch
  have sent := put.sendNext
  cases ready with
  | false =>
    simp only [UartPort.putChar, PortQueues.putChar, Bool.and_false, Bool.false_eq_true, if_false]
    exact ⟨result, put⟩
  | true =>
    simp only [UartPort.putChar, PortQueues.putChar, Bool.and_true, if_true]
    refine ⟨?_, ?_⟩
    · split <;> exact result
    · cases empty : (port.putTxChar ch).2.uartTxBuffer.isEmpty <;>
        simpa only [empty, Bool.not_true, Bool.not_false, Bool.false_eq_true, if_true, if_false]
          using sent

/-! #### The calls that receive -/

theorem holds (refines : Refines port queues) : RxHolds port queues.rx.items :=
  ⟨refines.rings.otherRepresents.valid, refines.rings.otherRepresents.contents⟩

/-- A call that only reads removes items from the receive queue. -/
theorem reads (refines : Refines port queues) (only : OnlyReads port next) {count : Nat}
    (left : RxHolds next (queues.rx.items.drop count)) :
    Refines next { queues with rx := queues.rx.drop count } := by
  have tx : next.uartTxBuffer = port.uartTxBuffer := by rw [only.rest]
  refine ⟨⟨?_, ⟨left.valid, ?_, left.contents⟩, ?_⟩, ?_, ?_, ?_⟩
  · rw [tx]
    refine ⟨refines.rings.represents.valid, refines.rings.represents.size, ?_⟩
    rw [only.memory]
    exact refines.rings.represents.contents
  · rw [only.size]
    exact refines.rings.otherRepresents.size
  · rw [tx, only.buffer, RingBuffer.period, RingBuffer.period, only.size]
    exact refines.rings.apart
  · exact (congrArg UartPort.handle only.rest).trans refines.handle
  · exact (congrArg UartPort.flag only.rest).trans refines.flag
  · exact (congrArg UartPort.callback only.rest).trans refines.callback

theorem getChar (refines : Refines port queues) :
    (port.reply .getChar).1 = (queues.reply .getChar).1 ∧
      Refines (port.reply .getChar).2 (queues.reply .getChar).2 := by
  have holds := refines.holds
  have only := OnlyReads.getRxChar port
  simp only [UartPort.reply, PortQueues.reply]
  cases items : queues.rx.items with
  | nil =>
    rw [items] at holds
    rw [holds.getRxChar_nil]
    exact ⟨rfl, refines⟩
  | cons ch rest =>
    rw [items] at holds
    obtain ⟨next, taken, left⟩ := holds.getRxChar_cons
    rw [taken] at only ⊢
    refine ⟨rfl, refines.reads only ?_⟩
    rw [items]
    exact left

theorem readData (refines : Refines port queues) (data : DataArray) (maxDataSize : Nat) :
    ∃ next, port.readData data maxDataSize =
        ((queues.readData data maxDataSize).1, (queues.readData data maxDataSize).2.1, next) ∧
      Refines next (queues.readData data maxDataSize).2.2 := by
  have only := OnlyReads.readDataLoop maxDataSize 0 data port
  obtain ⟨next, read, left⟩ := readData_eq refines.holds maxDataSize data
  have looped : UartPort.readDataLoop maxDataSize 0 data port = _ := read
  rw [looped] at only
  exact ⟨next, read, refines.reads only left⟩

theorem readString (refines : Refines port queues) (data : DataArray) (maxDataSize : Nat) :
    ∃ next, port.readString (some data) maxDataSize =
        ((queues.readString data maxDataSize).1, some (queues.readString data maxDataSize).2.1,
          next) ∧
      Refines next (queues.readString data maxDataSize).2.2 := by
  have only := OnlyReads.readString port (some data) maxDataSize
  rw [PortQueues.readString]
  by_cases line : 0 ∈ queues.rx.items.take (maxDataSize - 1)
  · obtain ⟨next, read, left⟩ := readString_of_line refines.holds maxDataSize data line
    rw [read] at only
    simp only [if_pos line]
    exact ⟨next, read, refines.reads only left⟩
  · obtain ⟨next, read, left⟩ := readString_of_tail refines.holds maxDataSize data line
    rw [read] at only
    simp only [if_neg line]
    exact ⟨next, read, refines.reads only left⟩

/-! #### The interrupts -/

/-- The handler appends the byte in `rxChar`, and arms the next reception. -/
theorem rxStore (refines : Refines port queues) (ch : UInt8) (announced : Bool) :
    Refines (UartPort.rxStore { port.receive ch with rxChar := ch } announced).2
      { queues with
        rx := (queues.rx.push ch).2
        flag := if announced then 1 else queues.flag
        handle := queues.handle.received.receiveIT.2 } := by
  have rings := (refines.rings.swap.putChar ch).2.swap
  have handle : port.handle.received.receiveIT.2 = queues.handle.received.receiveIT.2 := by
    rw [refines.handle]
  cases announced with
  | true => exact ⟨rings, handle, rfl, refines.callback⟩
  | false => exact ⟨rings, handle, refines.flag, refines.callback⟩

/-- The Rx-complete handler faults when the abstract one does, and appends the byte, or the
terminator in place of a newline, otherwise. -/
theorem rxCplt (refines : Refines port queues) (ch : UInt8) :
    ((port.receive ch).rxCpltCallbck = none ∧ queues.rxCplt ch = none) ∨
      ∃ first second, (port.receive ch).rxCpltCallbck = some first ∧
        queues.rxCplt ch = some second ∧ Refines first second := by
  have callback : (port.receive ch).callback = queues.callback := refines.callback
  have received : (port.receive ch).rxChar = ch := rfl
  rw [rxCpltCallbck, rxAnnounce, PortQueues.rxCplt, received]
  by_cases ended : ch = newline
  · rw [if_pos ended, if_pos ended]
    by_cases unset : queues.callback = null
    · rw [if_pos unset, if_pos (callback.trans unset)]
      exact .inl ⟨rfl, rfl⟩
    · rw [if_neg unset, if_neg fun null => unset (callback.symm.trans null)]
      exact .inr ⟨_, _, rfl, rfl, refines.rxStore 0 true⟩
  · rw [if_neg ended, if_neg ended]
    exact .inr ⟨_, _, rfl, rfl, refines.rxStore ch false⟩

/-- The byte in transmission has been sent, and the Tx-complete handler sends the next. -/
theorem txCplt (refines : Refines port queues) :
    Refines port.transmitted.txCpltCallbck
      (PortQueues.sendNext { queues with handle := queues.handle.transmitted }) := by
  have sent : Refines port.transmitted { queues with handle := queues.handle.transmitted } :=
    ⟨refines.rings, congrArg UartHandle.transmitted refines.handle, refines.flag,
      refines.callback⟩
  exact sent.sendNext

/-! #### Every call -/

/-- One call gives equal replies and keeps the refinement. -/
theorem reply (refines : Refines port queues) (call : PortInput) :
    (port.reply call).1 = (queues.reply call).1 ∧
      Refines (port.reply call).2 (queues.reply call).2 := by
  cases call with
  | writeData data =>
    rw [UartPort.reply, PortQueues.reply]
    rcases refines.writeData data with ⟨first, second⟩ | ⟨cnt, _, _, first, second, next⟩
    · rw [first, second]
      exact ⟨rfl, refines⟩
    · rw [first, second]
      exact ⟨rfl, next⟩
  | writeString string =>
    rw [UartPort.reply, PortQueues.reply, UartPort.writeString]
    rcases refines.writeData string with ⟨first, second⟩ | ⟨cnt, _, _, first, second, next⟩
    · rw [first, second]
      exact ⟨rfl, refines⟩
    · rw [first, second]
      exact ⟨rfl, next⟩
  | putChar ch ready =>
    obtain ⟨same, next⟩ := refines.putChar ch ready
    exact ⟨congrArg PortReply.result same, next⟩
  | getChar => exact refines.getChar
  | readData bytes maxDataSize =>
    obtain ⟨next, read, refined⟩ := refines.readData (.ofBytes bytes) maxDataSize
    rw [UartPort.reply, PortQueues.reply, read]
    exact ⟨rfl, refined⟩
  | readString bytes maxDataSize =>
    cases bytes with
    | none => exact ⟨rfl, refines⟩
    | some bytes =>
      obtain ⟨next, read, refined⟩ := refines.readString (.ofBytes bytes) maxDataSize
      rw [UartPort.reply, PortQueues.reply, Option.map_some, read]
      exact ⟨rfl, refined⟩
  | setCallbackFunction foo =>
    rw [UartPort.reply, PortQueues.reply, UartPort.setCallbackFunction]
    by_cases unset : foo = null
    · rw [if_pos unset, if_pos unset]
      exact ⟨rfl, refines⟩
    · rw [if_neg unset, if_neg unset]
      exact ⟨rfl, refines.rings, refines.handle, refines.flag, rfl⟩
  | txCplt => exact ⟨rfl, refines.txCplt⟩
  | rxCplt ch =>
    rw [UartPort.reply, PortQueues.reply]
    rcases refines.rxCplt ch with ⟨first, second⟩ | ⟨_, _, first, second, next⟩
    · rw [first, second]
      exact ⟨rfl, refines⟩
    · rw [first, second]
      exact ⟨rfl, next⟩

theorem respond (refines : Refines port queues) (call : PortInput) :
    (port.respond call).1 = (queues.respond call).1 ∧
      Refines (port.respond call).2 (queues.respond call).2 := by
  obtain ⟨same, next⟩ := refines.reply call
  refine ⟨?_, next⟩
  rw [UartPort.respond, PortQueues.respond, same, next.handle, next.flag]

/-- After `UartPort_Init`, with the arrays apart, the port refines two empty queues. -/
theorem init {txData rxData : Nat} {machine : Machine}
    (initialised : UartPort.init txData rxData machine = some port)
    (apart : txData + txBufferSize.toNat < rxData ∨ rxData + rxBufferSize.toNat < txData) :
    Refines port .start := by
  obtain ⟨rxRing, rxInit, rest⟩ := Option.bind_eq_some_iff.mp initialised
  obtain ⟨txRing, txInit, rest⟩ := Option.bind_eq_some_iff.mp rest
  obtain ⟨_, txBuffer, txSize, _⟩ := RingBuffer.init_eq_some txInit
  obtain ⟨_, rxBuffer, rxSize, _⟩ := RingBuffer.init_eq_some rxInit
  cases rest
  refine ⟨⟨represents_init txInit machine, represents_init rxInit machine, ?_⟩, rfl, rfl, rfl⟩
  intro offset inside otherOffset otherInside
  show txRing.buffer + offset ≠ rxRing.buffer + otherOffset
  have inside : offset < txRing.buffSize.toNat + 1 := inside
  have otherInside : otherOffset < rxRing.buffSize.toNat + 1 := otherInside
  rw [txSize] at inside
  rw [rxSize] at otherInside
  rw [txBuffer, rxBuffer]
  omega

end Refines

end RtpLib
