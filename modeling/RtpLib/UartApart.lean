/-
This file settles when the port keeps its two directions apart. Each of its rings uses
one cell more than its array has bytes, so the arrays have to leave that cell free:
when one begins where the other ends, a byte written to the last cell of the one ring
overwrites a byte that waits in the other.

Apart, the port answers like two queues. Otherwise the rings can be led to the cell
they share, and then a byte put for transmission is what the next read delivers.
-/

import RtpLib.UartQueues

namespace RtpLib

open UartPort

/-! ### Rings led to a cell -/

namespace RingBuffer

/-- A ring without bytes, its pointers at the same cell. -/
def vacant (buffer : Nat) (size : UInt32) (offset : Nat) : RingBuffer :=
  ⟨buffer, buffer + offset, buffer + offset, size, 0⟩

theorem init_vacant {buffer : Nat} {size : UInt32} {ring : RingBuffer}
    (initialised : init buffer size = some ring) : ring = vacant buffer size 0 := by
  rw [init] at initialised
  split at initialised
  · cases initialised
    rfl
  · cases initialised

/-- A byte that is put and taken moves both pointers one cell further. -/
theorem vacant_turn (buffer : Nat) (size : UInt32) {offset : Nat} (inside : offset < size.toNat) :
    (vacant buffer size offset).pushed.popped = vacant buffer size (offset + 1) := by
  have further : (vacant buffer size offset).advance (buffer + offset) = buffer + (offset + 1) :=
    if_neg (not_le_of_gt (Nat.add_lt_add_left inside buffer))
  have kept : (0 : UInt32) + 1 - 1 = 0 := by decide
  show RingBuffer.mk buffer _ ((vacant buffer size offset).advance (buffer + offset)) size
    (0 + 1 - 1) = vacant buffer size (offset + 1)
  rw [further, kept]
  exact congrArg (fun pointer => RingBuffer.mk buffer pointer _ size 0) further

end RingBuffer

theorem reply_eq_of_alike {port : UartPort} {queues : PortQueues}
    (alike : ∀ calls,
      Runs.answers UartPort.respond port calls = Runs.answers PortQueues.respond queues calls)
    (call : PortInput) : (port.reply call).1 = (queues.reply call).1 :=
  congrArg PortAnswer.reply (Runs.answers_eq_next alike call).1

/-- A port that answers like the queues, while both rings and both queues are empty. -/
structure Vacant (txData rxData offset otherOffset : Nat) (port : UartPort)
    (queues : PortQueues) : Prop where
  alike : ∀ calls,
    Runs.answers UartPort.respond port calls = Runs.answers PortQueues.respond queues calls
  txRing : port.uartTxBuffer = .vacant txData txBufferSize offset
  rxRing : port.uartRxBuffer = .vacant rxData rxBufferSize otherOffset
  tx : queues.tx.items = []
  rx : queues.rx.items = []

namespace Vacant

variable {txData rxData offset otherOffset : Nat} {port : UartPort} {queues : PortQueues}

/-- A byte is put, and taken by the transmitter. -/
theorem txTurn (vacant : Vacant txData rxData offset otherOffset port queues)
    (inside : offset < txBufferSize.toNat) :
    ∃ next nextQueues, Vacant txData rxData (offset + 1) otherOffset next nextQueues := by
  have room : port.txCount < port.uartTxBuffer.buffSize.toNat := by
    rw [txCount, vacant.txRing]
    exact Nat.zero_lt_of_lt inside
  have put : (port.respond (.putChar 0 false)).2 = port.storedTxChar 0 := by
    show (port.putChar 0 false).2 = _
    simp only [UartPort.putChar, putTxChar_of_room port 0 room, Bool.and_false,
      Bool.false_eq_true, if_false]
  have nonempty : (port.storedTxChar 0).transmitted.txCount ≠ 0 := by
    rw [show (port.storedTxChar 0).transmitted.txCount = port.txCount + 1 from
      port.uartTxBuffer.pushed_count room]
    exact Nat.succ_ne_zero _
  have sent : ((port.storedTxChar 0).respond .txCplt).2 =
      (port.storedTxChar 0).transmitted.takeTxChar.transmitTxChar :=
    txCpltCallbck_of_nonempty _ nonempty
  have alike := (Runs.answers_eq_next
    (Runs.answers_eq_next vacant.alike (.putChar 0 false)).2 .txCplt).2
  rw [put, sent] at alike
  have items : (queues.tx.push 0).2.items = [0] := by
    rw [(queues.tx.push_of_room 0 _).2, vacant.tx, List.nil_append]
    rw [vacant.tx]
    exact Nat.zero_lt_of_lt inside
  refine ⟨_, _, alike, ?_, vacant.rxRing, ?_, ?_⟩
  · show port.uartTxBuffer.pushed.popped = _
    rw [vacant.txRing]
    exact RingBuffer.vacant_turn txData txBufferSize inside
  · show (PortQueues.sendNext { queues with tx := (queues.tx.push 0).2
                                            handle := queues.handle.transmitted }).tx.items = []
    rw [PortQueues.sendNext]
    simp only [items]
    exact congrArg List.tail items
  · show (PortQueues.sendNext { queues with tx := (queues.tx.push 0).2
                                            handle := queues.handle.transmitted }).rx.items = []
    rw [PortQueues.sendNext]
    simp only [items]
    exact vacant.rx

/-- A byte is received, and read. -/
theorem rxTurn (vacant : Vacant txData rxData offset otherOffset port queues)
    (inside : otherOffset < rxBufferSize.toNat) :
    ∃ next nextQueues, Vacant txData rxData offset (otherOffset + 1) next nextQueues := by
  have room : port.rxCount < port.uartRxBuffer.buffSize.toNat := by
    rw [rxCount, vacant.rxRing]
    exact Nat.zero_lt_of_lt inside
  have stored := (port.receive 0).rxStore_of_room false room
  have nonempty : ((port.receive 0).rxStore false).2.uartRxBuffer.elementsCnt.toNat ≠ 0 := by
    rw [stored.2.1, show (port.receive 0).uartRxBuffer.pushed.elementsCnt.toNat = _ from
      port.uartRxBuffer.pushed_count room]
    exact Nat.succ_ne_zero _
  have alike := (Runs.answers_eq_next
    (Runs.answers_eq_next vacant.alike (.rxCplt 0)).2 .getChar).2
  have items : (queues.rx.push 0).2.items = [0] := by
    rw [(queues.rx.push_of_room 0 _).2, vacant.rx, List.nil_append]
    rw [vacant.rx]
    exact Nat.zero_lt_of_lt inside
  let received : PortQueues :=
    { queues with rx := (queues.rx.push 0).2, handle := queues.handle.received.receiveIT.2 }
  have left : (received.reply .getChar).2 = { received with rx := received.rx.drop 1 } := by
    simp only [PortQueues.reply, received, items]
  refine ⟨_, _, alike, ?_, ?_, ?_, ?_⟩
  · show (((port.receive 0).rxStore false).2.getRxChar).2.uartTxBuffer = _
    rw [getRxChar, RingBuffer.getChar_of_nonempty _ _ nonempty]
    exact vacant.txRing
  · show (((port.receive 0).rxStore false).2.getRxChar).2.uartRxBuffer = _
    rw [getRxChar, RingBuffer.getChar_of_nonempty _ _ nonempty]
    show ((port.receive 0).rxStore false).2.uartRxBuffer.popped = _
    rw [stored.2.1]
    show port.uartRxBuffer.pushed.popped = _
    rw [vacant.rxRing]
    exact RingBuffer.vacant_turn rxData rxBufferSize inside
  · show (received.reply .getChar).2.tx.items = []
    rw [left]
    exact vacant.tx
  · show (received.reply .getChar).2.rx.items = []
    rw [left]
    exact congrArg (List.drop 1) items

/-- When the next cell of the two rings is the same, a byte put for transmission overwrites the
byte received before it. -/
theorem read_overwritten (vacant : Vacant txData rxData offset otherOffset port queues)
    (same : txData + offset = rxData + otherOffset) :
    (((port.respond (.rxCplt 65)).2.respond (.putChar 66 false)).2.reply .getChar).1 =
      .char true 66 := by
  have rxRoom : port.rxCount < port.uartRxBuffer.buffSize.toNat := by
    rw [rxCount, vacant.rxRing]
    exact (by decide : (0 : UInt32).toNat < rxBufferSize.toNat)
  obtain ⟨_, ring, _⟩ := (port.receive 65).rxStore_of_room false rxRoom
  let stored := ((port.receive 65).rxStore false).2
  have rxRing : stored.uartRxBuffer = port.uartRxBuffer.pushed := ring
  have txRing : stored.uartTxBuffer = .vacant txData txBufferSize offset := vacant.txRing
  have room : stored.txCount < stored.uartTxBuffer.buffSize.toNat := by
    rw [txCount, txRing]
    exact (by decide : (0 : UInt32).toNat < txBufferSize.toNat)
  have put : (stored.respond (.putChar 66 false)).2 = stored.storedTxChar 66 := by
    show (stored.putChar 66 false).2 = _
    simp only [UartPort.putChar, putTxChar_of_room stored 66 room, Bool.and_false,
      Bool.false_eq_true, if_false]
  have nonempty : (stored.storedTxChar 66).uartRxBuffer.elementsCnt.toNat ≠ 0 := by
    show stored.uartRxBuffer.elementsCnt.toNat ≠ 0
    rw [rxRing, port.uartRxBuffer.pushed_count rxRoom]
    exact Nat.succ_ne_zero _
  have head : stored.uartTxBuffer.head = stored.uartRxBuffer.tail := by
    rw [txRing, rxRing]
    show txData + offset = port.uartRxBuffer.tail
    rw [vacant.rxRing]
    exact same
  have overwritten : (stored.storedTxChar 66).machine.memory stored.uartRxBuffer.tail = 66 := by
    rw [← head]
    exact Function.update_self _ _ _
  show ((stored.respond (.putChar 66 false)).2.reply .getChar).1 = .char true 66
  rw [put]
  simp only [UartPort.reply, getRxChar, RingBuffer.getChar_of_nonempty _ _ nonempty]
  exact congrArg (PortReply.char true) overwritten

/-- The queues keep the byte. -/
theorem read_queued (vacant : Vacant txData rxData offset otherOffset port queues) :
    (((queues.respond (.rxCplt 65)).2.respond (.putChar 66 false)).2.reply .getChar).1 =
      .char true 65 := by
  have items : (queues.rx.push 65).2.items = [65] := by
    rw [(queues.rx.push_of_room 65 _).2, vacant.rx, List.nil_append]
    rw [vacant.rx]
    exact (by decide : 0 < rxBufferSize.toNat)
  let received : PortQueues :=
    { queues with
      tx := (queues.tx.push 66).2
      rx := (queues.rx.push 65).2
      handle := queues.handle.received.receiveIT.2 }
  show (received.reply .getChar).1 = .char true 65
  simp only [PortQueues.reply, received, items]

/-- The next cells of the two rings differ as long as the port answers like the queues. -/
theorem cells_ne (vacant : Vacant txData rxData offset otherOffset port queues) :
    txData + offset ≠ rxData + otherOffset := by
  intro same
  have replies := reply_eq_of_alike (Runs.answers_eq_next
    (Runs.answers_eq_next vacant.alike (.rxCplt 65)).2 (.putChar 66 false)).2 .getChar
  rw [vacant.read_overwritten same, vacant.read_queued] at replies
  exact absurd (PortReply.char.inj replies).2 (by decide)

/-- A port that answers like the queues can be led to any two next cells. -/
theorem turned (vacant : Vacant txData rxData 0 0 port queues) (offset otherOffset : Nat)
    (inside : offset ≤ txBufferSize.toNat) (otherInside : otherOffset ≤ rxBufferSize.toNat) :
    ∃ next nextQueues, Vacant txData rxData offset otherOffset next nextQueues := by
  induction offset with
  | zero =>
    induction otherOffset with
    | zero => exact ⟨port, queues, vacant⟩
    | succ otherOffset inductionHypothesis =>
      obtain ⟨_, _, vacant⟩ := inductionHypothesis (Nat.le_of_lt otherInside)
      exact vacant.rxTurn otherInside
  | succ offset inductionHypothesis =>
    obtain ⟨_, _, vacant⟩ := inductionHypothesis (Nat.le_of_lt inside)
    exact vacant.txTurn inside

end Vacant

/-! ### The two directions -/

/-- After `UartPort_Init`, the port answers every sequence of calls and interrupts as two
bounded queues do exactly when neither array begins within the cells of the other ring, of which
there is one more than the array has bytes. -/
theorem answers_eq_queues_iff (txData rxData : Nat) (machine : Machine) (port : UartPort)
    (initialised : UartPort.init txData rxData machine = some port) :
    (∀ calls, Runs.answers UartPort.respond port calls =
        Runs.answers PortQueues.respond .start calls) ↔
      txData + txBufferSize.toNat < rxData ∨ rxData + rxBufferSize.toNat < txData := by
  constructor
  · intro alike
    obtain ⟨txInit, rxInit, _⟩ := init_eq_some initialised
    have vacant : Vacant txData rxData 0 0 port .start :=
      ⟨alike, RingBuffer.init_vacant txInit, RingBuffer.init_vacant rxInit, rfl, rfl⟩
    by_contra overlapping
    by_cases order : txData ≤ rxData
    · obtain ⟨_, _, led⟩ := vacant.turned (rxData - txData) 0 (by omega) (Nat.zero_le _)
      exact led.cells_ne (by omega)
    · obtain ⟨_, _, led⟩ := vacant.turned 0 (txData - rxData) (Nat.zero_le _) (by omega)
      exact led.cells_ne (by omega)
  · intro apart calls
    exact Runs.answers_eq_of_simulation Refines (fun _ _ call refines => refines.respond call)
      (Refines.init initialised apart) calls

/-- Arrays that are apart. -/
theorem answers_eq_queues_iff_apart :
    (∀ calls, Runs.answers UartPort.respond UartPort.fresh calls =
        Runs.answers PortQueues.respond .start calls) ↔
      1024 + txBufferSize.toNat < 2048 ∨ 2048 + rxBufferSize.toNat < 1024 :=
  answers_eq_queues_iff 1024 2048 _ _ UartPort.init_fresh

end RtpLib
