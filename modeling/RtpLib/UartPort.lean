/-
This file models `uart_port.c`: the state of the port, what its driver is
documented to do with the UART handle, and the two completion handlers.

The driver is not part of the source, so its handle is modelled by what the port
relies on: whether a byte is in transmission, whether reception of a byte is
armed, and whether a call holds the lock of the handle. A transmission is refused
while one is in progress or the lock is held, a reception while one is armed or
the lock is held; the bytes whose transmission has ended are the bytes on the
wire.

The handlers run to completion, so they are functions on the port. The calls of a
task can be interrupted between their sections and are modelled in `TxTask`.
-/

import RtpLib.RingBuffer

namespace RtpLib

/-! ### The UART handle -/

/-- The results of the driver's calls that the port can meet. -/
inductive HalStatus
  | ok
  | busy

/-- The driver's handle: the byte in transmission, whether reception of a byte is armed,
whether the handle is locked, and the bytes sent so far. -/
structure UartHandle where
  transmission : Option UInt8
  reception : Bool
  locked : Bool
  wire : List UInt8

namespace UartHandle

/-- The handle after `HAL_UART_Init`. -/
def reset : UartHandle := ⟨none, false, false, []⟩

/-- Whether `HAL_UART_Transmit_IT` answers `HAL_BUSY`. -/
def transmitRefused (handle : UartHandle) : Bool := handle.transmission.isSome || handle.locked

/-- `HAL_UART_Transmit_IT` for one byte. -/
def transmitIT (handle : UartHandle) (ch : UInt8) : HalStatus × UartHandle :=
  if handle.transmitRefused then (.busy, handle)
  else (.ok, { handle with transmission := some ch })

/-- `HAL_UART_Receive_IT` for one byte. -/
def receiveIT (handle : UartHandle) : HalStatus × UartHandle :=
  if handle.reception || handle.locked then (.busy, handle)
  else (.ok, { handle with reception := true })

/-- The byte in transmission has been sent. -/
def transmitted (handle : UartHandle) : UartHandle :=
  { handle with
    transmission := none
    wire := handle.wire ++ handle.transmission.toList }

/-- Reception is disarmed once its byte has arrived. -/
def received (handle : UartHandle) : UartHandle := { handle with reception := false }

theorem transmitRefused_eq_false_iff (handle : UartHandle) :
    handle.transmitRefused = false ↔ handle.transmission = none ∧ handle.locked = false := by
  rw [transmitRefused, Bool.or_eq_false_iff, Option.isSome_eq_false_iff, Option.isNone_iff_eq_none]

/-- A transmission is started on an idle transmitter whose handle is not locked. -/
theorem transmitIT_of_idle (handle : UartHandle) (ch : UInt8) (idle : handle.transmission = none)
    (unlocked : handle.locked = false) :
    handle.transmitIT ch = (.ok, { handle with transmission := some ch }) := by
  have granted := handle.transmitRefused_eq_false_iff.mpr ⟨idle, unlocked⟩
  rw [transmitIT, granted, if_neg Bool.false_ne_true]

end UartHandle

/-! ### The port -/

/-- The variables of the port. `UartPort_Callback` is a function pointer, `null` when unset. -/
structure UartPort where
  machine : Machine
  uartTxBuffer : RingBuffer
  uartRxBuffer : RingBuffer
  txChar : UInt8
  rxChar : UInt8
  flag : UInt8
  callback : Nat
  handle : UartHandle

/-- `TX_BUFFER_SIZE` -/
def txBufferSize : UInt32 := 512

/-- `RX_BUFFER_SIZE` -/
def rxBufferSize : UInt32 := 128

/-- The byte `'\n'`. -/
def newline : UInt8 := 10

namespace UartPort

/-- What `UartPort_PortInit` leaves of the handle: initialised, and armed for reception. -/
def portInit : UartHandle := UartHandle.reset.receiveIT.2

/-- `UartPort_Init`, with the arrays `txData` and `rxData` at the given addresses. The
characters are static variables that it leaves alone. -/
def init (txData rxData : Nat) (machine : Machine) : Option UartPort :=
  (RingBuffer.init rxData rxBufferSize).bind fun uartRxBuffer =>
    (RingBuffer.init txData txBufferSize).bind fun uartTxBuffer =>
      some {
        machine := machine
        uartTxBuffer := uartTxBuffer
        uartRxBuffer := uartRxBuffer
        txChar := 0
        rxChar := 0
        flag := 0
        callback := null
        handle := portInit.receiveIT.2 }

/-- `UartPort_SetCallbackFunction`; its assertion rejects a null pointer. -/
def setCallbackFunction (port : UartPort) (foo : Nat) : Option UartPort :=
  if foo = null then none else some { port with callback := foo }

/-- `RingBuffer_PutChar(&uartTxBuffer, ch)` -/
def putTxChar (port : UartPort) (ch : UInt8) : Bool × UartPort :=
  let (result, ring, machine) := port.uartTxBuffer.putChar ch port.machine
  (result, { port with uartTxBuffer := ring, machine := machine })

/-- The critical section of `RingBuffer_GetChar(&uartTxBuffer, &txChar)`. -/
def takeTxChar (port : UartPort) : UartPort :=
  let (ch, ring, machine) := port.uartTxBuffer.getSection port.machine
  { port with uartTxBuffer := ring, machine := machine, txChar := ch }

/-- `RingBuffer_GetChar(&uartTxBuffer, &txChar)` -/
def getTxChar (port : UartPort) : Bool × UartPort :=
  let ((result, ch), ring, machine) := port.uartTxBuffer.getChar port.machine
  (result, { port with uartTxBuffer := ring, machine := machine, txChar := ch })

/-- `HAL_UART_Transmit_IT(&UartPort_UartHandle, &txChar, 1)`, its result ignored. -/
def transmitTxChar (port : UartPort) : UartPort :=
  { port with handle := (port.handle.transmitIT port.txChar).2 }

/-- The lock of the handle is taken, or released. -/
def setLocked (port : UartPort) (locked : Bool) : UartPort :=
  { port with handle := { port.handle with locked := locked } }

/-- `UartPort_TxCpltCallbck` -/
def txCpltCallbck (port : UartPort) : UartPort :=
  if port.uartTxBuffer.isEmpty then port else port.getTxChar.2.transmitTxChar

/-- The first part of `UartPort_RxCpltCallbck`: on a newline, the terminator replaces it and
the call through `UartPort_Callback` is made, which faults when no function is set. The
function called is the application's; it is no part of the port. -/
def rxAnnounce (port : UartPort) : Option (Bool × UartPort) :=
  if port.rxChar = newline then
    if port.callback = null then none else some (true, { port with rxChar := 0 })
  else some (false, port)

/-- The rest of `UartPort_RxCpltCallbck`: the flag, the put, whose result is ignored, and
the next reception. -/
def rxStore (port : UartPort) (announced : Bool) : Bool × UartPort :=
  let port := if announced then { port with flag := 1 } else port
  let (result, ring, machine) := port.uartRxBuffer.putChar port.rxChar port.machine
  (result, { port with
    uartRxBuffer := ring
    machine := machine
    handle := port.handle.receiveIT.2 })

/-- `UartPort_RxCpltCallbck` -/
def rxCpltCallbck (port : UartPort) : Option UartPort :=
  port.rxAnnounce.map fun (announced, port) => (port.rxStore announced).2

/-- The critical section of `RingBuffer_GetChar(&uartRxBuffer, ..)`: the byte it yields. -/
def takeRxChar (port : UartPort) : UInt8 × UartPort :=
  let (ch, ring, machine) := port.uartRxBuffer.getSection port.machine
  (ch, { port with uartRxBuffer := ring, machine := machine })

/-- The byte in transmission has been sent when the Tx-complete handler is entered. -/
def transmitted (port : UartPort) : UartPort := { port with handle := port.handle.transmitted }

/-- A received byte is in `rxChar` and reception is disarmed when the handler is entered. -/
def receive (port : UartPort) (ch : UInt8) : UartPort :=
  { port with rxChar := ch, handle := port.handle.received }

/-- The port after `UartPort_Init` in a memory of zeros, for runs on fixed inputs. -/
def fresh : UartPort where
  machine := ⟨fun _ => 0, false, []⟩
  uartTxBuffer := ⟨1024, 1024, 1024, txBufferSize, 0⟩
  uartRxBuffer := ⟨2048, 2048, 2048, rxBufferSize, 0⟩
  txChar := 0
  rxChar := 0
  flag := 0
  callback := null
  handle := ⟨none, true, false, []⟩

theorem init_fresh : init 1024 2048 ⟨fun _ => 0, false, []⟩ = some fresh := rfl

theorem init_eq_some {txData rxData : Nat} {machine : Machine} {port : UartPort}
    (initialised : init txData rxData machine = some port) :
    RingBuffer.init txData txBufferSize = some port.uartTxBuffer ∧
      RingBuffer.init rxData rxBufferSize = some port.uartRxBuffer ∧
      port.machine = machine ∧ port.handle = ⟨none, true, false, []⟩ := by
  obtain ⟨rxRing, rxInit, rest⟩ := Option.bind_eq_some_iff.mp initialised
  obtain ⟨txRing, txInit, rest⟩ := Option.bind_eq_some_iff.mp rest
  cases rest
  exact ⟨txInit, rxInit, rfl, rfl⟩

/-! ### What the operations do to the transmit ring -/

/-- The bytes queued for transmission. -/
def txContents (port : UartPort) : List UInt8 := port.uartTxBuffer.contents port.machine.memory

/-- The number of bytes queued for transmission. -/
def txCount (port : UartPort) : Nat := port.uartTxBuffer.elementsCnt.toNat

theorem length_txContents (port : UartPort) : port.txContents.length = port.txCount :=
  RingBuffer.length_contents _ _

theorem tx_isEmpty_iff (port : UartPort) :
    port.uartTxBuffer.isEmpty = true ↔ port.txCount = 0 := RingBuffer.isEmpty_iff _

/-- The port after an accepted put. -/
def storedTxChar (port : UartPort) (ch : UInt8) : UartPort :=
  { port with
    uartTxBuffer := port.uartTxBuffer.pushed
    machine := (port.machine.disableIrq.write port.uartTxBuffer.head ch).enableIrq }

/-- The port after a refused put: interrupts were masked and are enabled again. -/
def refusedTxChar (port : UartPort) : UartPort :=
  { port with machine := port.machine.disableIrq.enableIrq }

theorem putTxChar_of_room (port : UartPort) (ch : UInt8)
    (room : port.txCount < port.uartTxBuffer.buffSize.toNat) :
    port.putTxChar ch = (true, port.storedTxChar ch) := by
  rw [putTxChar, RingBuffer.putChar_of_room _ _ _ room]
  rfl

theorem putTxChar_of_full (port : UartPort) (ch : UInt8)
    (full : ¬ port.txCount < port.uartTxBuffer.buffSize.toNat) :
    port.putTxChar ch = (false, port.refusedTxChar) := by
  rw [putTxChar, RingBuffer.putChar_of_full _ _ _ full]
  rfl

theorem getTxChar_of_nonempty (port : UartPort) (nonempty : port.txCount ≠ 0) :
    port.getTxChar = (true, port.takeTxChar) := by
  rw [getTxChar, RingBuffer.getChar_of_nonempty _ _ nonempty, takeTxChar,
    RingBuffer.getSection_eq]

/-- An accepted put appends its byte to the transmit queue. -/
theorem txContents_storedTxChar (port : UartPort) (valid : port.uartTxBuffer.Valid) (ch : UInt8)
    (room : port.txCount < port.uartTxBuffer.buffSize.toNat) :
    (port.storedTxChar ch).txContents = port.txContents ++ [ch] :=
  port.uartTxBuffer.contents_pushed valid room _ ch

/-- The critical section moves the oldest byte of the transmit queue to `txChar`. -/
theorem txContents_takeTxChar (port : UartPort) (valid : port.uartTxBuffer.Valid)
    (nonempty : port.txCount ≠ 0) :
    port.txContents = port.takeTxChar.txChar :: port.takeTxChar.txContents :=
  port.uartTxBuffer.contents_popped valid nonempty _

/-- The byte in `txChar` is started on an idle transmitter whose handle is not locked. -/
theorem transmitTxChar_of_idle (port : UartPort) (idle : port.handle.transmission = none)
    (unlocked : port.handle.locked = false) :
    port.transmitTxChar =
      { port with handle := { port.handle with transmission := some port.txChar } } := by
  rw [transmitTxChar, UartHandle.transmitIT_of_idle _ _ idle unlocked]

/-- The handler starts the byte it takes: the one sent before it left the transmitter idle. -/
theorem transmitted_started (port : UartPort) (unlocked : port.handle.locked = false) :
    port.transmitted.takeTxChar.transmitTxChar.handle =
      { port.handle.transmitted with
        transmission := some port.transmitted.takeTxChar.txChar } :=
  congrArg handle (port.transmitted.takeTxChar.transmitTxChar_of_idle rfl unlocked)

theorem txCpltCallbck_of_empty (port : UartPort) (empty : port.txCount = 0) :
    port.txCpltCallbck = port := by
  rw [txCpltCallbck, if_pos (port.tx_isEmpty_iff.mpr empty)]

theorem txCpltCallbck_of_nonempty (port : UartPort) (nonempty : port.txCount ≠ 0) :
    port.txCpltCallbck = port.takeTxChar.transmitTxChar := by
  rw [txCpltCallbck, if_neg fun empty => nonempty (port.tx_isEmpty_iff.mp empty),
    getTxChar_of_nonempty port nonempty]

/-! ### What the operations do to the receive ring -/

/-- The bytes received and not yet read. -/
def rxContents (port : UartPort) : List UInt8 := port.uartRxBuffer.contents port.machine.memory

/-- The number of bytes received and not yet read. -/
def rxCount (port : UartPort) : Nat := port.uartRxBuffer.elementsCnt.toNat

theorem rx_isEmpty_iff (port : UartPort) :
    port.uartRxBuffer.isEmpty = true ↔ port.rxCount = 0 := RingBuffer.isEmpty_iff _

/-- The handler announces exactly the newlines, and puts a terminator in their place. -/
theorem rxAnnounce_eq_some {port next : UartPort} {announced : Bool}
    (announcement : port.rxAnnounce = some (announced, next)) :
    announced = decide (port.rxChar = newline) ∧
      next = { port with rxChar := if port.rxChar = newline then 0 else port.rxChar } := by
  unfold rxAnnounce at announcement
  split at announcement
  · rename_i ended
    rw [if_pos ended, decide_eq_true ended]
    split at announcement
    · cases announcement
    · cases announcement
      exact ⟨rfl, rfl⟩
  · rename_i other
    rw [if_neg other, decide_eq_false other]
    cases announcement
    exact ⟨rfl, rfl⟩

/-- The put of the handler is accepted while the receive ring has room. -/
theorem rxStore_of_room (port : UartPort) (announced : Bool)
    (room : port.rxCount < port.uartRxBuffer.buffSize.toNat) :
    (port.rxStore announced).1 = true ∧
      (port.rxStore announced).2.uartRxBuffer = port.uartRxBuffer.pushed ∧
      (port.rxStore announced).2.machine.memory =
        Function.update port.machine.memory port.uartRxBuffer.head port.rxChar := by
  cases announced <;>
    simp only [rxStore, RingBuffer.putChar_of_room _ _ _ room, if_true, Bool.false_eq_true,
      if_false] <;>
    exact ⟨trivial, trivial, rfl⟩

theorem rxStore_of_full (port : UartPort) (announced : Bool)
    (full : ¬ port.rxCount < port.uartRxBuffer.buffSize.toNat) :
    (port.rxStore announced).1 = false ∧
      (port.rxStore announced).2.uartRxBuffer = port.uartRxBuffer ∧
      (port.rxStore announced).2.machine.memory = port.machine.memory := by
  cases announced <;>
    simp only [rxStore, RingBuffer.putChar_of_full _ _ _ full, if_true, Bool.false_eq_true,
      if_false] <;>
    exact ⟨trivial, trivial, rfl⟩

end UartPort

end RtpLib
