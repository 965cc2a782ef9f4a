/-
This file settles what `UartPort_WriteString` tells its caller. It returns the
count of `UartPort_WriteData` as a truth value: true as soon as one byte was
accepted. And it hands an empty string on to `UartPort_WriteData`, which asserts
that there is something to write.

So the answer is truthful for a string that is not empty and that the transmit
ring takes either whole or not at all.
-/

import RtpLib.UartCalls

namespace RtpLib

namespace UartPort

/-- The number of bytes that the transmit ring can still take. -/
def txRoom (port : UartPort) : Nat := port.uartTxBuffer.buffSize.toNat - port.txCount

theorem storedTxChar_txRoom (port : UartPort) (ch : UInt8)
    (room : port.txCount < port.uartTxBuffer.buffSize.toNat) :
    (port.storedTxChar ch).txRoom = port.txRoom - 1 := by
  have counted : (port.storedTxChar ch).txCount = port.txCount + 1 :=
    port.uartTxBuffer.pushed_count room
  show port.uartTxBuffer.buffSize.toNat - (port.storedTxChar ch).txCount = _
  rw [counted, txRoom, Nat.sub_sub]

/-- The loop of `UartPort_WriteData` queues the first bytes, as many as there is room for. -/
theorem writeLoop_eq (port : UartPort) (valid : port.uartTxBuffer.Valid) (cnt : Nat)
    (data : List UInt8) :
    (port.writeLoop cnt data).1 = cnt + min data.length port.txRoom ∧
      (port.writeLoop cnt data).2.txContents = port.txContents ++ data.take port.txRoom := by
  induction data generalizing port cnt with
  | nil => simp [writeLoop]
  | cons ch rest inductionHypothesis =>
    by_cases room : port.txCount < port.uartTxBuffer.buffSize.toNat
    · have more : port.txRoom = port.txRoom - 1 + 1 := by
        rw [txRoom]
        omega
      obtain ⟨counted, queued⟩ :=
        inductionHypothesis (port.storedTxChar ch) (RingBuffer.valid_pushed _ valid room) (cnt + 1)
      rw [storedTxChar_txRoom port ch room] at counted queued
      rw [writeLoop, putTxChar_of_room port ch room, more, List.take_succ_cons, List.length_cons,
        Nat.succ_min_succ]
      refine ⟨?_, ?_⟩
      · simp only [if_true, counted]
        omega
      · simp only [if_true, queued, txContents_storedTxChar port valid ch room,
          List.append_assoc, List.singleton_append]
    · have full : port.txRoom = 0 := by
        rw [txRoom]
        omega
      have same : port.refusedTxChar.txContents = port.txContents := rfl
      rw [writeLoop, putTxChar_of_full port ch room, full]
      simp [same]

/-- The call queues the whole string before it takes a byte to transmit. -/
def QueuesWhole (port : UartPort) (string : List UInt8) : Prop :=
  (port.writeLoop 0 string).2.txContents = port.txContents ++ string

/-- The call completes, and answers whether the whole string was queued. -/
def WritesTruthfully (port : UartPort) (string : List UInt8) : Prop :=
  ∃ result next, port.writeString string = some (result, next) ∧
    (result = true ↔ port.QueuesWhole string)

theorem queuesWhole_iff (port : UartPort) (valid : port.uartTxBuffer.Valid)
    (string : List UInt8) : port.QueuesWhole string ↔ string.length ≤ port.txRoom := by
  rw [QueuesWhole, (port.writeLoop_eq valid 0 string).2, List.append_cancel_left_eq]
  refine ⟨fun whole => ?_, List.take_of_length_le⟩
  rw [← whole]
  exact List.length_take_le _ _

/-- On a string that is not empty, the call answers whether the ring had any room. -/
theorem writeString_eq (port : UartPort) (valid : port.uartTxBuffer.Valid)
    (string : List UInt8) (nonempty : string ≠ []) :
    ∃ next, port.writeString string = some (decide (port.txRoom ≠ 0), next) := by
  have counted := (port.writeLoop_eq valid 0 string).1
  have positive : 0 < string.length := List.length_pos_iff.mpr nonempty
  have answer : ((port.writeLoop 0 string).1 != 0) = decide (port.txRoom ≠ 0) := by
    rw [counted, Nat.zero_add, Bool.eq_iff_iff, bne_iff_ne, decide_eq_true_iff]
    omega
  rw [← answer, writeString, writeData, if_neg nonempty]
  exact ⟨_, rfl⟩

/-- Whatever the transmit ring holds, the answer is truthful exactly for a string that is not
empty and that finds either no room or room for all its bytes. -/
theorem writesTruthfully_iff (port : UartPort) (valid : port.uartTxBuffer.Valid)
    (string : List UInt8) :
    port.WritesTruthfully string ↔
      string ≠ [] ∧
        (port.txCount = port.uartTxBuffer.buffSize.toNat ∨
          port.txCount + string.length ≤ port.uartTxBuffer.buffSize.toNat) := by
  have bound : port.txCount ≤ port.uartTxBuffer.buffSize.toNat := valid.count_le
  by_cases empty : string = []
  · refine iff_of_false ?_ fun both => both.1 empty
    rintro ⟨result, next, written, _⟩
    rw [empty] at written
    cases written
  · obtain ⟨next, answered⟩ := port.writeString_eq valid string empty
    have positive : 0 < string.length := List.length_pos_iff.mpr empty
    have truthful : port.WritesTruthfully string ↔
        (decide (port.txRoom ≠ 0) = true ↔ port.QueuesWhole string) := by
      refine ⟨?_, fun truthful => ⟨_, next, answered, truthful⟩⟩
      rintro ⟨result, last, written, truthful⟩
      rw [answered] at written
      cases written
      exact truthful
    rw [truthful, port.queuesWhole_iff valid, decide_eq_true_iff, and_iff_right empty, txRoom]
    omega

/-- Two letters in an empty ring. -/
theorem writesTruthfully_iff_fresh : UartPort.fresh.WritesTruthfully [65, 66] :=
  (writesTruthfully_iff .fresh ⟨by decide, by decide, by decide, by decide⟩ _).mpr (by decide)

/-- Of two letters in a ring with room for one, the first is queued and the call answers true;
the empty string fails the assertion of `UartPort_WriteData`. -/
theorem not_writesTruthfully :
    (¬ ∀ port : UartPort, port.uartTxBuffer.Valid → ∀ string : List UInt8, string ≠ [] →
        port.WritesTruthfully string) ∧
      ¬ ∀ port : UartPort, port.uartTxBuffer.Valid → port.WritesTruthfully [] := by
  refine ⟨fun claimed => ?_, fun claimed => ?_⟩
  · have valid : RingBuffer.Valid ⟨1024, 1535, 1024, 512, 511⟩ :=
      ⟨by decide, by decide, by decide, by decide⟩
    obtain ⟨result, next, written, truthful⟩ :=
      claimed { fresh with uartTxBuffer := ⟨1024, 1535, 1024, 512, 511⟩ } valid [65, 66] nofun
    obtain ⟨last, answered⟩ := writeString_eq
      { fresh with uartTxBuffer := ⟨1024, 1535, 1024, 512, 511⟩ } valid [65, 66] nofun
    rw [answered] at written
    cases written
    have whole := (queuesWhole_iff _ valid _).mp (truthful.mp (by decide))
    exact absurd whole (by decide)
  · obtain ⟨result, next, written, _⟩ :=
      claimed .fresh ⟨by decide, by decide, by decide, by decide⟩
    cases written

end UartPort

end RtpLib
