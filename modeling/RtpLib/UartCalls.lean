/-
This file models the calls of `uart_port.c` as a task makes them when no
interrupt comes in between: the loops that put the bytes of a caller's array on
the transmit ring, and the loops that move bytes of the receive ring into it. A
call is a function on the port.

The caller's array is modelled as the ring's memory is: a total map from indices
to bytes that records the indices written, so that a write outside the array is a
write to some byte of its own. Counts are natural numbers: in every loop they
stay below the size they are compared to.
-/

import RtpLib.UartPort

namespace RtpLib

/-! ### The array of the caller -/

/-- An array of the caller: its bytes, and the indices written so far, newest first. -/
structure DataArray where
  bytes : Nat → UInt8
  written : List Nat

namespace DataArray

/-- An array before the call. -/
def ofBytes (bytes : Nat → UInt8) : DataArray := ⟨bytes, []⟩

/-- `data[index] = ch` -/
def set (data : DataArray) (index : Nat) (ch : UInt8) : DataArray where
  bytes := Function.update data.bytes index ch
  written := index :: data.written

/-- The array after bytes have been stored one after the other, from an index on. -/
def setAll (data : DataArray) (index : Nat) : List UInt8 → DataArray
  | [] => data
  | ch :: rest => (data.set index ch).setAll (index + 1) rest

@[simp] theorem setAll_nil (data : DataArray) (index : Nat) : data.setAll index [] = data := rfl

theorem setAll_written (data : DataArray) (index : Nat) (bytes : List UInt8) :
    (data.setAll index bytes).written =
      (List.range' index bytes.length).reverse ++ data.written := by
  induction bytes generalizing data index with
  | nil => rfl
  | cons ch rest inductionHypothesis =>
    rw [setAll, inductionHypothesis, List.length_cons, List.range'_succ, List.reverse_cons,
      List.append_assoc]
    rfl

/-- Bytes outside the indices written are left alone. -/
theorem setAll_bytes_outside (data : DataArray) (index : Nat) (bytes : List UInt8) (other : Nat)
    (outside : other < index ∨ index + bytes.length ≤ other) :
    (data.setAll index bytes).bytes other = data.bytes other := by
  induction bytes generalizing data index with
  | nil => rfl
  | cons ch rest inductionHypothesis =>
    rw [List.length_cons] at outside
    have different : other ≠ index := by omega
    rw [setAll, inductionHypothesis _ _ (by omega)]
    exact Function.update_of_ne different _ _

/-- The bytes stored are those of the list, in order. -/
theorem setAll_bytes_inside (data : DataArray) (index : Nat) (bytes : List UInt8) (offset : Nat)
    (inside : offset < bytes.length) :
    bytes[offset]? = some ((data.setAll index bytes).bytes (index + offset)) := by
  induction bytes generalizing data index offset with
  | nil => exact absurd inside (Nat.not_lt_zero _)
  | cons ch rest inductionHypothesis =>
    cases offset with
    | zero =>
      rw [List.getElem?_cons_zero, setAll, setAll_bytes_outside _ _ _ _ (.inl (by omega))]
      exact congrArg some (Function.update_self index ch data.bytes).symm
    | succ offset =>
      rw [List.getElem?_cons_succ, setAll, Nat.add_left_comm, Nat.add_comm offset]
      rw [List.length_cons] at inside
      exact inductionHypothesis (data.set index ch) (index + 1) offset (by omega)

end DataArray

namespace UartPort

/-! ### The calls that transmit -/

/-- The loop of `UartPort_WriteData`, from `data[cnt]` on. -/
def writeLoop (port : UartPort) (cnt : Nat) : List UInt8 → Nat × UartPort
  | [] => (cnt, port)
  | ch :: rest =>
    let (result, port) := port.putTxChar ch
    if result then port.writeLoop (cnt + 1) rest else (cnt, port)

/-- `UartPort_WriteData`; `none` when its assertion on the size fails. -/
def writeData (port : UartPort) (data : List UInt8) : Option (Nat × UartPort) :=
  if data = [] then none
  else
    let (cnt, port) := port.writeLoop 0 data
    let port := if port.uartTxBuffer.isEmpty then port else port.getTxChar.2.transmitTxChar
    some (cnt, port)

/-- `UartPort_WriteString`: the count of `UartPort_WriteData`, converted to `bool`. -/
def writeString (port : UartPort) (string : List UInt8) : Option (Bool × UartPort) :=
  (port.writeData string).map fun (cnt, port) => (cnt != 0, port)

/-- `UartPort_PutChar`; `ready` is what `HAL_UART_GetState` compares to. -/
def putChar (port : UartPort) (ch : UInt8) (ready : Bool) : Bool × UartPort :=
  let (result, port) := port.putTxChar ch
  if !port.uartTxBuffer.isEmpty && ready then (result, port.getTxChar.2.transmitTxChar)
  else (result, port)

/-! ### The calls that receive -/

/-- `RingBuffer_GetChar(&uartRxBuffer, &ch)`, and `UartPort_GetChar`. -/
def getRxChar (port : UartPort) : (Bool × UInt8) × UartPort :=
  let (reply, ring, machine) := port.uartRxBuffer.getChar port.machine
  (reply, { port with uartRxBuffer := ring, machine := machine })

/-- A get on an empty ring leaves the port alone. -/
theorem getRxChar_of_isEmpty {port : UartPort} (empty : port.uartRxBuffer.isEmpty = true) :
    port.getRxChar = ((false, 0), port) := by
  rw [getRxChar, RingBuffer.getChar, if_pos empty]

/-- The loop of `UartPort_ReadData`, from the index `cnt` on. -/
def readDataLoop (maxDataSize cnt : Nat) (data : DataArray) (port : UartPort) :
    Nat × DataArray × UartPort :=
  let ((result, ch), port) := port.getRxChar
  if result ∧ cnt < maxDataSize then
    readDataLoop maxDataSize (cnt + 1) (data.set cnt ch) port
  else (cnt, data, port)
termination_by maxDataSize - cnt

/-- `UartPort_ReadData` -/
def readData (port : UartPort) (data : DataArray) (maxDataSize : Nat) :
    Nat × DataArray × UartPort := readDataLoop maxDataSize 0 data port

/-- The loop of `UartPort_ReadString`, from the index `cnt` on, and whether the function has
returned from it. -/
def readStringLoop (maxDataSize cnt : Nat) (data : DataArray) (port : UartPort) :
    Bool × Nat × DataArray × UartPort :=
  if cnt + 1 < maxDataSize then
    let ((result, ch), port) := port.getRxChar
    if result then
      let data := data.set cnt ch
      let cnt := cnt + 1
      if ch = 0 then (true, cnt, data, port) else readStringLoop maxDataSize cnt data port
    else (false, cnt, data, port)
  else (false, cnt, data, port)
termination_by maxDataSize - cnt

/-- `UartPort_ReadString`; the array is `none` when `data` is a null pointer. -/
def readString (port : UartPort) (data : Option DataArray) (maxDataSize : Nat) :
    Nat × Option DataArray × UartPort :=
  match data with
  | some data =>
    let (returned, cnt, data, port) := readStringLoop maxDataSize 0 data port
    if returned then (cnt, some data, port)
    else
      let (_, port) := port.getRxChar
      let cnt := cnt + 1
      let data := data.set cnt 0
      (cnt, some data, port)
  | none => (0, none, port)

/-! ### What the receive ring holds -/

/-- The receive ring holds these bytes, the oldest one first. -/
structure RxHolds (port : UartPort) (bytes : List UInt8) : Prop where
  valid : port.uartRxBuffer.Valid
  contents : port.rxContents = bytes

/-- The port after `UartPort_Init` and the reception of bytes, for runs on fixed inputs. -/
def freshReceived (bytes : List UInt8) : UartPort :=
  bytes.foldl (fun port ch => ((port.receive ch).rxStore false).2) fresh

namespace RxHolds

variable {port : UartPort} {ch : UInt8} {rest bytes : List UInt8}

theorem rxCount_eq (holds : RxHolds port bytes) : port.rxCount = bytes.length := by
  rw [← holds.contents]
  exact (RingBuffer.length_contents _ _).symm

/-- An empty ring yields nothing, and is left alone. -/
theorem getRxChar_nil (holds : RxHolds port []) : port.getRxChar = ((false, 0), port) := by
  have empty : port.rxCount = 0 := holds.rxCount_eq
  rw [getRxChar, RingBuffer.getChar_of_empty _ _ empty]

/-- A ring that holds bytes yields the oldest one. -/
theorem getRxChar_cons (holds : RxHolds port (ch :: rest)) :
    ∃ next, port.getRxChar = ((true, ch), next) ∧ RxHolds next rest := by
  have nonempty : port.rxCount ≠ 0 := by
    rw [holds.rxCount_eq]
    exact Nat.succ_ne_zero _
  have first := RingBuffer.contents_popped _ holds.valid nonempty port.machine.memory
  have contents : port.uartRxBuffer.contents port.machine.memory = ch :: rest := holds.contents
  rw [contents, List.cons.injEq] at first
  rw [getRxChar, RingBuffer.getChar_of_nonempty _ _ nonempty, ← first.1]
  exact ⟨_, rfl, RingBuffer.valid_popped _ holds.valid nonempty, first.2.symm⟩

/-- One more call removes the oldest byte, if there is one. -/
theorem getRxChar (holds : RxHolds port bytes) : RxHolds port.getRxChar.2 bytes.tail := by
  cases bytes with
  | nil =>
    rw [holds.getRxChar_nil]
    exact holds
  | cons ch rest =>
    obtain ⟨next, taken, holds⟩ := holds.getRxChar_cons
    rw [taken]
    exact holds

end RxHolds

end UartPort

end RtpLib
