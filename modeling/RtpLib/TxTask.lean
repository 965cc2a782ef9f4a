/-
This file models a task that calls `UartPort_WriteData` and `UartPort_PutChar`
while the Tx-complete handler interrupts it. Interrupts are masked only inside
the critical sections of the ring, so the calls are cut into the sections
between which the handler can run: one put, one emptiness test, the test and the
critical section of `RingBuffer_GetChar`, and the driver's call, which is entered
and left in two steps since it holds the lock of the handle in between.

The events are the calls of the task, the next section of the call in progress,
and a run of the handler. Nothing here restricts when the handler runs or what
the driver reports; what the driver is documented to do is stated as guards on
the steps, to be assumed where it is needed.

Three histories are recorded beside the port: the bytes that calls of the task
reported as accepted, the bytes the transmit ring accepted, and the bytes that a
successful `RingBuffer_GetChar` yielded from it.
-/

import RtpLib.UartPort
import RtpLib.Runs

namespace RtpLib

/-! ### The calls of the task and where they can be interrupted -/

/-- A call past its puts, with what it will return: `cnt` of the data for
`UartPort_WriteData`, the result of the put for `UartPort_PutChar`. -/
inductive TxCall
  | writeData (data : List UInt8) (cnt : Nat)
  | putChar (ch : UInt8) (result : Bool)
  deriving DecidableEq

/-- The bytes that the returned value reports as accepted. -/
def TxCall.reported : TxCall → List UInt8
  | .writeData data cnt => data.take cnt
  | .putChar ch result => if result then [ch] else []

/-- Where the task is: the sections of its calls, named by what comes next. -/
inductive TxPhase
  /-- No call in progress. -/
  | idle
  /-- An assertion has failed. -/
  | aborted
  /-- At the condition of the loop of `UartPort_WriteData`. -/
  | writeLoop (data : List UInt8) (cnt : Nat)
  /-- At the put of `UartPort_PutChar`. -/
  | putSection (ch : UInt8)
  /-- At `RingBuffer_IsEmpty(&uartTxBuffer)`. -/
  | isEmptyTest (call : TxCall)
  /-- At `HAL_UART_GetState`, in `UartPort_PutChar` only. -/
  | getState (call : TxCall)
  /-- At the emptiness test of `RingBuffer_GetChar`. -/
  | getTest (call : TxCall)
  /-- At the critical section of `RingBuffer_GetChar`. -/
  | getSection (call : TxCall)
  /-- At `HAL_UART_Transmit_IT`. -/
  | transmit (call : TxCall)
  /-- Inside `HAL_UART_Transmit_IT`, with the handle locked. -/
  | transmitLocked (call : TxCall)
  deriving DecidableEq

/-- The task is at the emptiness test of `UartPort_WriteData`. -/
def TxPhase.atWriteTest : TxPhase → Bool
  | .isEmptyTest (.writeData _ _) => true
  | _ => false

/-- The task is at the put of `UartPort_PutChar`. -/
def TxPhase.atPut : TxPhase → Bool
  | .putSection _ => true
  | _ => false

/-- The task is at `HAL_UART_GetState`. -/
def TxPhase.atGetState : TxPhase → Bool
  | .getState _ => true
  | _ => false

/-- The task is at the critical section of `RingBuffer_GetChar`. -/
def TxPhase.atGetSection : TxPhase → Bool
  | .getSection _ => true
  | _ => false

/-- The handle is locked by the call in progress. -/
def TxPhase.locking : TxPhase → Bool
  | .transmitLocked _ => true
  | _ => false

/-- The port, the task, and the histories of the bytes reported, stored and yielded. -/
structure TxState where
  port : UartPort
  phase : TxPhase
  accepted : List UInt8
  stored : List UInt8
  yielded : List UInt8

inductive TxEvent
  /-- The task calls `UartPort_WriteData`. -/
  | writeData (data : List UInt8)
  /-- The task calls `UartPort_PutChar`. -/
  | putChar (ch : UInt8)
  /-- The task runs its next section; `ready` is what `HAL_UART_GetState` compares to if
  that is the section. -/
  | task (ready : Bool)
  /-- A Tx-complete interrupt. -/
  | txCplt

namespace TxState

/-- The call returns. -/
def finish (state : TxState) (call : TxCall) : TxState :=
  { state with phase := .idle, accepted := state.accepted ++ call.reported }

/-- The phase after a non-empty ring was found: `UartPort_PutChar` also looks at the state of
the handle, `UartPort_WriteData` does not. -/
def afterNonempty : TxCall → TxPhase
  | .writeData data cnt => .getTest (.writeData data cnt)
  | .putChar ch result => .getState (.putChar ch result)

/-- One put on the transmit ring, recorded. -/
def put (state : TxState) (ch : UInt8) : Bool × TxState :=
  let (result, port) := state.port.putTxChar ch
  (result, { state with
    port := port
    stored := if result then state.stored ++ [ch] else state.stored })

/-- One critical section of `RingBuffer_GetChar` on the transmit ring, recorded. -/
def take (state : TxState) : TxState :=
  let port := state.port.takeTxChar
  { state with port := port, yielded := state.yielded ++ [port.txChar] }

/-- The second half of `HAL_UART_Transmit_IT`: the lock is released and the byte started. -/
def unlocked (state : TxState) : TxState :=
  { state with port := (state.port.setLocked false).transmitTxChar }

/-- The next section of the call in progress. -/
def taskStep (state : TxState) (ready : Bool) : Option TxState :=
  match state.phase with
  | .idle | .aborted => none
  | .writeLoop data cnt =>
    match data[cnt]? with
    | some ch =>
      let (result, next) := state.put ch
      if result then some { next with phase := .writeLoop data (cnt + 1) }
      else some { next with phase := .isEmptyTest (.writeData data cnt) }
    | none => some { state with phase := .isEmptyTest (.writeData data cnt) }
  | .putSection ch =>
    let (result, next) := state.put ch
    some { next with phase := .isEmptyTest (.putChar ch result) }
  | .isEmptyTest call =>
    if state.port.uartTxBuffer.isEmpty then some (state.finish call)
    else some { state with phase := afterNonempty call }
  | .getState call =>
    if ready then some { state with phase := .getTest call } else some (state.finish call)
  | .getTest call =>
    if state.port.uartTxBuffer.isEmpty then
      some { state with port := { state.port with txChar := 0 }, phase := .transmit call }
    else some { state with phase := .getSection call }
  | .getSection call => some { state.take with phase := .transmit call }
  | .transmit call =>
    if state.port.handle.transmitRefused then some (state.finish call)
    else some { state with port := state.port.setLocked true, phase := .transmitLocked call }
  | .transmitLocked call => some (state.unlocked.finish call)

/-- A Tx-complete interrupt: the byte in transmission is sent, and the handler runs. -/
def txCplt (state : TxState) : TxState :=
  let port := state.port.transmitted.txCpltCallbck
  { state with
    port := port
    yielded := if state.port.uartTxBuffer.isEmpty then state.yielded
      else state.yielded ++ [port.txChar] }

/-- One event; the handler runs only where interrupts are enabled. -/
def step (state : TxState) : TxEvent → Option TxState
  | .writeData data =>
    match state.phase with
    | .idle =>
      if data = [] then some { state with phase := .aborted }
      else some { state with phase := .writeLoop data 0 }
    | _ => none
  | .putChar ch =>
    match state.phase with
    | .idle => some { state with phase := .putSection ch }
    | _ => none
  | .task ready => state.taskStep ready
  | .txCplt => if state.port.machine.primask then none else some state.txCplt

/-- The state after `UartPort_Init`, before the first call. -/
def start (port : UartPort) : TxState := ⟨port, .idle, [], [], []⟩

/-! ### What the driver is documented to do -/

/-- A Tx-complete interrupt is raised by a transmission in progress, once. -/
def RaisedByTransmission (state : TxState) : TxEvent → Prop
  | .txCplt => state.port.handle.transmission ≠ none
  | _ => True

/-- `HAL_UART_GetState` returns `HAL_UART_STATE_READY` only when no transmission is in
progress. -/
def ReadyWhenSent (state : TxState) : TxEvent → Prop
  | .task true => state.phase.atGetState = true → state.port.handle.transmission = none
  | _ => True

/-- `HAL_UART_GetState` returns `HAL_UART_STATE_READY` only when neither a transmission nor a
reception is in progress. -/
def ReadyWhenIdle (state : TxState) : TxEvent → Prop
  | .task true =>
    state.phase.atGetState = true →
      state.port.handle.transmission = none ∧ state.port.handle.reception = false
  | _ => True

instance (state : TxState) : DecidablePred (RaisedByTransmission state)
  | .txCplt => inferInstanceAs (Decidable (_ ≠ _))
  | .writeData _ | .putChar _ | .task _ => isTrue trivial

instance (state : TxState) : DecidablePred (ReadyWhenSent state)
  | .task true => inferInstanceAs (Decidable (_ → _))
  | .task false | .writeData _ | .putChar _ | .txCplt => isTrue trivial

instance (state : TxState) : DecidablePred (ReadyWhenIdle state)
  | .task true => inferInstanceAs (Decidable (_ → _ ∧ _))
  | .task false | .writeData _ | .putChar _ | .txCplt => isTrue trivial

/-- The step agrees with what the driver is documented to do when it transmits. -/
def TransmitDocumented (state : TxState) (event : TxEvent) : Prop :=
  RaisedByTransmission state event ∧ ReadyWhenSent state event

instance (state : TxState) : DecidablePred (TransmitDocumented state) :=
  fun _ => inferInstanceAs (Decidable (_ ∧ _))

/-- The step agrees with what the driver is documented to do. -/
def Documented (state : TxState) (event : TxEvent) : Prop :=
  RaisedByTransmission state event ∧ ReadyWhenIdle state event

instance (state : TxState) : DecidablePred (Documented state) :=
  fun _ => inferInstanceAs (Decidable (_ ∧ _))

/-! ### What a step can do -/

/-- Every way an event can take a state to the next one, with what was tested on the way. -/
inductive Step (state : TxState) : TxEvent → TxState → Prop
  | writeNothing (idle : state.phase = .idle) :
      Step state (.writeData []) { state with phase := .aborted }
  | writeData (idle : state.phase = .idle) (data : List UInt8) (nonempty : data ≠ []) :
      Step state (.writeData data) { state with phase := .writeLoop data 0 }
  | putChar (idle : state.phase = .idle) (ch : UInt8) :
      Step state (.putChar ch) { state with phase := .putSection ch }
  | loopStored (ready : Bool) (data : List UInt8) (cnt : Nat) (ch : UInt8)
      (phase : state.phase = .writeLoop data cnt) (next : data[cnt]? = some ch)
      (room : state.port.txCount < state.port.uartTxBuffer.buffSize.toNat) :
      Step state (.task ready) { state with
        port := state.port.storedTxChar ch
        phase := .writeLoop data (cnt + 1)
        stored := state.stored ++ [ch] }
  | loopRefused (ready : Bool) (data : List UInt8) (cnt : Nat) (ch : UInt8)
      (phase : state.phase = .writeLoop data cnt) (next : data[cnt]? = some ch)
      (full : ¬ state.port.txCount < state.port.uartTxBuffer.buffSize.toNat) :
      Step state (.task ready) { state with
        port := state.port.refusedTxChar
        phase := .isEmptyTest (.writeData data cnt) }
  | loopEnd (ready : Bool) (data : List UInt8) (cnt : Nat)
      (phase : state.phase = .writeLoop data cnt) (ended : data[cnt]? = none) :
      Step state (.task ready) { state with phase := .isEmptyTest (.writeData data cnt) }
  | putStored (ready : Bool) (ch : UInt8) (phase : state.phase = .putSection ch)
      (room : state.port.txCount < state.port.uartTxBuffer.buffSize.toNat) :
      Step state (.task ready) { state with
        port := state.port.storedTxChar ch
        phase := .isEmptyTest (.putChar ch true)
        stored := state.stored ++ [ch] }
  | putRefused (ready : Bool) (ch : UInt8) (phase : state.phase = .putSection ch)
      (full : ¬ state.port.txCount < state.port.uartTxBuffer.buffSize.toNat) :
      Step state (.task ready) { state with
        port := state.port.refusedTxChar
        phase := .isEmptyTest (.putChar ch false) }
  | foundEmpty (ready : Bool) (call : TxCall) (phase : state.phase = .isEmptyTest call)
      (empty : state.port.txCount = 0) : Step state (.task ready) (state.finish call)
  | foundBytes (ready : Bool) (call : TxCall) (phase : state.phase = .isEmptyTest call)
      (nonempty : state.port.txCount ≠ 0) :
      Step state (.task ready) { state with phase := afterNonempty call }
  | stateReady (call : TxCall) (phase : state.phase = .getState call) :
      Step state (.task true) { state with phase := .getTest call }
  | stateBusy (call : TxCall) (phase : state.phase = .getState call) :
      Step state (.task false) (state.finish call)
  | testEmpty (ready : Bool) (call : TxCall) (phase : state.phase = .getTest call)
      (empty : state.port.txCount = 0) :
      Step state (.task ready) { state with
        port := { state.port with txChar := 0 }
        phase := .transmit call }
  | testBytes (ready : Bool) (call : TxCall) (phase : state.phase = .getTest call)
      (nonempty : state.port.txCount ≠ 0) :
      Step state (.task ready) { state with phase := .getSection call }
  | section (ready : Bool) (call : TxCall) (phase : state.phase = .getSection call) :
      Step state (.task ready) { state.take with phase := .transmit call }
  | transmitBusy (ready : Bool) (call : TxCall) (phase : state.phase = .transmit call)
      (refused : state.port.handle.transmitRefused = true) :
      Step state (.task ready) (state.finish call)
  | transmitEntered (ready : Bool) (call : TxCall) (phase : state.phase = .transmit call)
      (granted : state.port.handle.transmitRefused = false) :
      Step state (.task ready) { state with
        port := state.port.setLocked true
        phase := .transmitLocked call }
  | transmitLeft (ready : Bool) (call : TxCall) (phase : state.phase = .transmitLocked call) :
      Step state (.task ready) (state.unlocked.finish call)
  | txCplt (enabled : state.port.machine.primask = false) : Step state .txCplt state.txCplt

/-- The second half of `HAL_UART_Transmit_IT` starts the byte on an idle transmitter. -/
theorem unlocked_handle (state : TxState) (idle : state.port.handle.transmission = none) :
    state.unlocked.port.handle = { state.port.handle with
      transmission := some state.port.txChar
      locked := false } :=
  congrArg UartPort.handle ((state.port.setLocked false).transmitTxChar_of_idle idle rfl)

theorem put_of_room (state : TxState) (ch : UInt8)
    (room : state.port.txCount < state.port.uartTxBuffer.buffSize.toNat) :
    state.put ch = (true, { state with
      port := state.port.storedTxChar ch
      stored := state.stored ++ [ch] }) := by
  simp only [put, UartPort.putTxChar_of_room _ _ room, if_true]

theorem put_of_full (state : TxState) (ch : UInt8)
    (full : ¬ state.port.txCount < state.port.uartTxBuffer.buffSize.toNat) :
    state.put ch = (false, { state with port := state.port.refusedTxChar }) := by
  simp only [put, UartPort.putTxChar_of_full _ _ full, Bool.false_eq_true, if_false]

theorem txCplt_of_empty (state : TxState) (empty : state.port.txCount = 0) :
    state.txCplt = { state with port := state.port.transmitted } := by
  have unchanged := state.port.transmitted.txCpltCallbck_of_empty empty
  simp only [txCplt, unchanged, if_pos (state.port.tx_isEmpty_iff.mpr empty)]

/-- With a byte queued, the handler takes it and hands it to the driver. -/
theorem txCplt_of_nonempty (state : TxState) (nonempty : state.port.txCount ≠ 0) :
    state.txCplt = { state with
      port := state.port.transmitted.takeTxChar.transmitTxChar
      yielded := state.yielded ++
        [state.port.machine.memory state.port.uartTxBuffer.tail] } := by
  have taken := state.port.transmitted.txCpltCallbck_of_nonempty nonempty
  simp only [txCplt, taken, if_neg fun empty => nonempty (state.port.tx_isEmpty_iff.mp empty)]
  rfl

theorem taskStep_cases {state next : TxState} {ready : Bool}
    (taken : state.taskStep ready = some next) : Step state (.task ready) next := by
  unfold taskStep at taken
  split at taken
  · cases taken
  · cases taken
  · rename_i data cnt phase
    cases found : data[cnt]? with
    | none =>
      rw [found] at taken
      cases taken
      exact .loopEnd ready data cnt phase found
    | some ch =>
      by_cases room : state.port.txCount < state.port.uartTxBuffer.buffSize.toNat
      · simp only [found, put_of_room state ch room, if_true] at taken
        cases taken
        exact .loopStored ready data cnt ch phase found room
      · simp only [found, put_of_full state ch room, Bool.false_eq_true, if_false] at taken
        cases taken
        exact .loopRefused ready data cnt ch phase found room
  · rename_i ch phase
    by_cases room : state.port.txCount < state.port.uartTxBuffer.buffSize.toNat
    · simp only [put_of_room state ch room] at taken
      cases taken
      exact .putStored ready ch phase room
    · simp only [put_of_full state ch room] at taken
      cases taken
      exact .putRefused ready ch phase room
  · rename_i call phase
    split at taken
    · rename_i empty
      cases taken
      exact .foundEmpty ready call phase (state.port.tx_isEmpty_iff.mp empty)
    · rename_i nonempty
      cases taken
      exact .foundBytes ready call phase
        fun empty => nonempty (state.port.tx_isEmpty_iff.mpr empty)
  · rename_i call phase
    cases ready with
    | false =>
      cases taken
      exact .stateBusy call phase
    | true =>
      cases taken
      exact .stateReady call phase
  · rename_i call phase
    split at taken
    · rename_i empty
      cases taken
      exact .testEmpty ready call phase (state.port.tx_isEmpty_iff.mp empty)
    · rename_i nonempty
      cases taken
      exact .testBytes ready call phase
        fun empty => nonempty (state.port.tx_isEmpty_iff.mpr empty)
  · rename_i call phase
    cases taken
    exact .section ready call phase
  · rename_i call phase
    split at taken
    · rename_i refused
      cases taken
      exact .transmitBusy ready call phase refused
    · rename_i granted
      cases taken
      exact .transmitEntered ready call phase (Bool.eq_false_iff.mpr granted)
  · rename_i call phase
    cases taken
    exact .transmitLeft ready call phase

theorem step_cases {state next : TxState} {event : TxEvent}
    (taken : state.step event = some next) : Step state event next := by
  cases event with
  | writeData data =>
    simp only [step] at taken
    split at taken
    · rename_i idle
      split at taken
      · rename_i nothing
        cases taken
        exact nothing ▸ .writeNothing idle
      · rename_i nonempty
        cases taken
        exact .writeData idle data nonempty
    · cases taken
  | putChar ch =>
    simp only [step] at taken
    split at taken
    · rename_i idle
      cases taken
      exact .putChar idle ch
    · cases taken
  | task ready => exact taskStep_cases taken
  | txCplt =>
    simp only [step] at taken
    split at taken
    · cases taken
    · rename_i enabled
      cases taken
      exact .txCplt (Bool.eq_false_iff.mpr enabled)

/-- The steps are complete: each of them is what its event does. -/
theorem Step.taken {state next : TxState} {event : TxEvent} (allowed : Step state event next) :
    state.step event = some next := by
  cases allowed with
  | writeNothing idle => simp only [step, idle, if_true]
  | writeData idle data nonempty => simp only [step, idle, if_neg nonempty]
  | putChar idle ch => simp only [step, idle]
  | loopStored ready data cnt ch phase found room =>
    simp only [step, taskStep, phase, found, put_of_room state ch room, if_true]
  | loopRefused ready data cnt ch phase found full =>
    simp only [step, taskStep, phase, found, put_of_full state ch full, Bool.false_eq_true,
      if_false]
  | loopEnd ready data cnt phase ended => simp only [step, taskStep, phase, ended]
  | putStored ready ch phase room => simp only [step, taskStep, phase, put_of_room state ch room]
  | putRefused ready ch phase full =>
    simp only [step, taskStep, phase, put_of_full state ch full]
  | foundEmpty ready call phase empty =>
    simp only [step, taskStep, phase, if_pos (state.port.tx_isEmpty_iff.mpr empty)]
  | foundBytes ready call phase nonempty =>
    simp only [step, taskStep, phase,
      if_neg fun empty => nonempty (state.port.tx_isEmpty_iff.mp empty)]
  | stateReady call phase => simp only [step, taskStep, phase, if_true]
  | stateBusy call phase => simp only [step, taskStep, phase, Bool.false_eq_true, if_false]
  | testEmpty ready call phase empty =>
    simp only [step, taskStep, phase, if_pos (state.port.tx_isEmpty_iff.mpr empty)]
  | testBytes ready call phase nonempty =>
    simp only [step, taskStep, phase,
      if_neg fun empty => nonempty (state.port.tx_isEmpty_iff.mp empty)]
  | «section» ready call phase => simp only [step, taskStep, phase]
  | transmitBusy ready call phase refused => simp only [step, taskStep, phase, if_pos refused]
  | transmitEntered ready call phase granted =>
    simp only [step, taskStep, phase, granted, Bool.false_eq_true, if_false]
  | transmitLeft ready call phase => simp only [step, taskStep, phase]
  | txCplt enabled => simp only [step, enabled, Bool.false_eq_true, if_false]

end TxState

end RtpLib
