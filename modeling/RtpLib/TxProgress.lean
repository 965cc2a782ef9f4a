/-
This file settles whether a queued byte can be left behind: whether there can be
bytes in the transmit ring, no call in progress and nothing in transmission, so
that no handler will come to drain the ring.

`UartPort_WriteData` starts the transmitter whenever it leaves bytes in the ring,
and the handler sends on as long as there are any. `UartPort_PutChar` starts the
transmitter only if `HAL_UART_GetState` answers `HAL_UART_STATE_READY`, which
means that neither a transmission nor a reception is in progress, and the port
keeps reception armed all the time. So `UartPort_PutChar` never starts it, and
its byte is left behind exactly when no transmission is in progress at the put.
-/

import RtpLib.TxTask

namespace RtpLib

/-- The call in progress starts the transmitter before it returns, unless it finds the ring
empty or the transmitter busy. -/
def TxPhase.starting : TxPhase → Bool
  | .writeLoop _ _ | .isEmptyTest (.writeData _ _) => true
  | .getTest _ | .getSection _ | .transmit _ | .transmitLocked _ => true
  | _ => false

/-- `UartPort_PutChar` is past its put and has not started the transmitter. -/
def TxPhase.putDone : TxPhase → Bool
  | .isEmptyTest (.putChar _ _) | .getState _ => true
  | _ => false

namespace TxState

/-- Between the calls, a transmission is in progress when the ring holds bytes. -/
def NotStranded (state : TxState) : Prop :=
  state.phase = .idle → state.port.txCount ≠ 0 → state.port.handle.transmission ≠ none

instance : DecidablePred NotStranded := fun _ => inferInstanceAs (Decidable (_ → _))

/-- The put of `UartPort_PutChar` is made while a transmission is in progress. -/
def PutWhileSending (state : TxState) : TxEvent → Prop
  | .task _ => state.phase.atPut = true → state.port.handle.transmission ≠ none
  | _ => True

instance (state : TxState) : DecidablePred (PutWhileSending state)
  | .task _ => inferInstanceAs (Decidable (_ → _))
  | .writeData _ | .putChar _ | .txCplt => isTrue trivial

/-- What keeps the ring from being left behind, in every state of a run: wherever the call in
progress will not start the transmitter any more, a transmission is in progress when the
ring holds bytes. -/
structure Draining (state : TxState) : Prop where
  armed : state.port.handle.reception = true
  room : 0 < state.port.uartTxBuffer.buffSize.toNat
  drained : state.phase.starting = false → state.port.txCount ≠ 0 →
    state.port.handle.transmission ≠ none
  entered : state.phase.locking = true → state.port.handle.transmission = none
  unlocked : state.phase.locking = false → state.port.handle.locked = false

namespace Draining

variable {state next : TxState}

theorem notStranded (draining : Draining state) : NotStranded state := by
  intro idle
  exact draining.drained (idle ▸ rfl)

/-- A step outside the driver that leaves the handle and the capacity of the ring alone. -/
theorem move (draining : Draining state) {earlier : TxPhase} (stands : state.phase = earlier)
    (handle : next.port.handle = state.port.handle)
    (capacity : next.port.uartTxBuffer.buffSize = state.port.uartTxBuffer.buffSize)
    (outside : earlier.locking = false) (after : next.phase.locking = false)
    (drained : next.phase.starting = false → next.port.txCount ≠ 0 →
      state.port.handle.transmission ≠ none) : Draining next := by
  refine ⟨by rw [handle]; exact draining.armed, by rw [capacity]; exact draining.room, ?_,
    fun locking => ?_, fun _ => by rw [handle]; exact draining.unlocked (stands ▸ outside)⟩
  · rw [handle]
    exact drained
  · rw [after] at locking
    exact absurd locking Bool.false_ne_true

/-- The same step into a phase that still starts the transmitter. -/
theorem moveStarting (draining : Draining state) {earlier : TxPhase}
    (stands : state.phase = earlier) (handle : next.port.handle = state.port.handle)
    (capacity : next.port.uartTxBuffer.buffSize = state.port.uartTxBuffer.buffSize)
    (outside : earlier.locking = false) (after : next.phase.locking = false)
    (starting : next.phase.starting = true) : Draining next := by
  refine draining.move stands handle capacity outside after fun settled => ?_
  rw [starting] at settled
  exact absurd settled.symm Bool.false_ne_true

/-- The driver starts the byte in `txChar`: a transmission is in progress when it returns. -/
theorem transmit (draining : Draining state) (call : TxCall)
    (phase : state.phase = .transmitLocked call) : Draining (state.unlocked.finish call) := by
  have idle := draining.entered (phase ▸ rfl)
  have started := state.unlocked_handle idle
  refine ⟨?_, draining.room, fun _ _ => ?_, nofun, fun _ => ?_⟩
  · show state.unlocked.port.handle.reception = true
    rw [started]
    exact draining.armed
  · show state.unlocked.port.handle.transmission ≠ none
    rw [started]
    exact Option.some_ne_none _
  · show state.unlocked.port.handle.locked = false
    rw [started]

/-- The handler sends on whatever the ring holds. -/
theorem txCplt (draining : Draining state) (sending : state.port.handle.transmission ≠ none) :
    Draining state.txCplt := by
  have outside : state.phase.locking = false := by
    rw [← Bool.not_eq_true]
    exact fun entered => sending (draining.entered entered)
  have unlocked := draining.unlocked outside
  by_cases empty : state.port.txCount = 0
  · rw [txCplt_of_empty state empty]
    exact ⟨draining.armed, draining.room, fun _ nonempty => absurd empty nonempty, fun _ => rfl,
      fun _ => unlocked⟩
  · have started := state.port.transmitted_started unlocked
    rw [txCplt_of_nonempty state empty]
    refine ⟨?_, draining.room, fun _ _ => ?_, fun entered => ?_, fun _ => ?_⟩
    · show state.port.transmitted.takeTxChar.transmitTxChar.handle.reception = true
      rw [started]
      exact draining.armed
    · show state.port.transmitted.takeTxChar.transmitTxChar.handle.transmission ≠ none
      rw [started]
      exact Option.some_ne_none _
    · exact absurd entered (by rw [outside]; exact Bool.false_ne_true)
    · show state.port.transmitted.takeTxChar.transmitTxChar.handle.locked = false
      rw [started]
      exact unlocked

/-- Every step keeps it, when `UartPort_PutChar` puts only while a transmission is in
progress. -/
theorem step {event : TxEvent} (draining : Draining state)
    (documented : Documented state event) (sending : PutWhileSending state event)
    (taken : state.step event = some next) : Draining next := by
  cases step_cases taken with
  | writeNothing idle =>
    exact draining.move idle rfl rfl rfl rfl fun _ => draining.drained (idle ▸ rfl)
  | writeData idle data nonempty => exact draining.moveStarting idle rfl rfl rfl rfl rfl
  | putChar idle ch =>
    exact draining.move idle rfl rfl rfl rfl fun _ => draining.drained (idle ▸ rfl)
  | loopStored _ data cnt ch phase found room =>
    exact draining.moveStarting phase rfl rfl rfl rfl rfl
  | loopRefused _ data cnt ch phase found full =>
    exact draining.moveStarting phase rfl rfl rfl rfl rfl
  | loopEnd _ data cnt phase ended =>
    exact draining.moveStarting phase rfl rfl rfl rfl rfl
  | putStored _ ch phase room =>
    exact draining.move phase rfl rfl rfl rfl fun _ _ => sending (phase ▸ rfl)
  | putRefused _ ch phase full =>
    exact draining.move phase rfl rfl rfl rfl fun _ _ => sending (phase ▸ rfl)
  | foundEmpty _ call phase empty =>
    exact draining.move phase rfl rfl rfl rfl fun _ nonempty => absurd empty nonempty
  | foundBytes _ call phase nonempty =>
    cases call with
    | writeData data cnt => exact draining.moveStarting phase rfl rfl rfl rfl rfl
    | putChar ch result =>
      exact draining.move phase rfl rfl rfl rfl fun _ => draining.drained (phase ▸ rfl)
  | stateReady call phase =>
    have ready := documented.2
    have disarmed := (ready (phase ▸ rfl)).2
    rw [draining.armed] at disarmed
    exact absurd disarmed.symm Bool.false_ne_true
  | stateBusy call phase =>
    exact draining.move phase rfl rfl rfl rfl fun _ => draining.drained (phase ▸ rfl)
  | testEmpty _ call phase empty =>
    exact draining.moveStarting phase rfl rfl rfl rfl rfl
  | testBytes _ call phase nonempty =>
    exact draining.moveStarting phase rfl rfl rfl rfl rfl
  | «section» _ call phase => exact draining.moveStarting phase rfl rfl rfl rfl rfl
  | transmitBusy _ call phase refused =>
    have unlocked := draining.unlocked (phase ▸ rfl)
    rw [UartHandle.transmitRefused, unlocked, Bool.or_false, Option.isSome_iff_ne_none] at refused
    exact draining.move phase rfl rfl rfl rfl fun _ _ => refused
  | transmitEntered _ call phase granted =>
    have idle := (UartHandle.transmitRefused_eq_false_iff _).mp granted
    exact ⟨draining.armed, draining.room, fun settled => absurd settled.symm Bool.false_ne_true,
      fun _ => idle.1, fun outside => absurd outside.symm Bool.false_ne_true⟩
  | transmitLeft _ call phase => exact draining.transmit call phase
  | txCplt enabled => exact draining.txCplt documented.1

theorem start {txData rxData : Nat} {machine : Machine} {port : UartPort}
    (initialised : UartPort.init txData rxData machine = some port) :
    Draining (TxState.start port) := by
  obtain ⟨txInit, _, _, handle⟩ := UartPort.init_eq_some initialised
  obtain ⟨cleared, _, capacity, _⟩ := RingBuffer.init_eq_some txInit
  have empty : port.txCount = 0 := by
    rw [UartPort.txCount, cleared]
    rfl
  refine ⟨?_, ?_, fun _ nonempty => absurd empty nonempty, nofun, fun _ => ?_⟩
  · show port.handle.reception = true
    rw [handle]
  · show 0 < port.uartTxBuffer.buffSize.toNat
    rw [capacity]
    decide
  · show port.handle.locked = false
    rw [handle]

end Draining

/-- The trap: bytes in the ring, nothing in transmission, and at most the rest of a
`UartPort_PutChar` to come before the call returns. -/
structure Stranded (state : TxState) : Prop where
  armed : state.port.handle.reception = true
  queued : state.port.txCount ≠ 0
  silent : state.port.handle.transmission = none
  returning : state.phase.putDone = true ∨ state.phase = .idle

namespace Stranded

variable {state next : TxState}

theorem leftBehind (stranded : Stranded state) (idle : state.phase = .idle) :
    ¬ NotStranded state := fun claimed => claimed idle stranded.queued stranded.silent

/-- A put made while nothing is in transmission leads into the trap. -/
theorem of_put {event : TxEvent} (draining : Draining state)
    (silent : ¬ PutWhileSending state event) (taken : state.step event = some next) :
    Stranded next := by
  have armed := draining.armed
  cases step_cases taken with
  | putStored _ ch phase room =>
    have silent := not_not.mp (Classical.not_imp.mp silent).2
    have counted : (state.port.storedTxChar ch).txCount = state.port.txCount + 1 :=
      state.port.uartTxBuffer.pushed_count room
    refine ⟨armed, ?_, silent, .inl rfl⟩
    rw [counted]
    exact Nat.succ_ne_zero _
  | putRefused _ ch phase full =>
    have silent := not_not.mp (Classical.not_imp.mp silent).2
    refine ⟨armed, fun empty => full ?_, silent, .inl rfl⟩
    have empty : state.port.txCount = 0 := empty
    rw [empty]
    exact draining.room
  | writeNothing | writeData | putChar | txCplt => exact absurd trivial silent
  | loopStored _ _ _ _ phase | loopRefused _ _ _ _ phase | loopEnd _ _ _ phase
  | foundEmpty _ _ phase | foundBytes _ _ phase | stateReady _ phase | stateBusy _ phase
  | testEmpty _ _ phase | testBytes _ _ phase | «section» _ _ phase | transmitBusy _ _ phase
  | transmitEntered _ _ phase | transmitLeft _ _ phase =>
    have putting := (Classical.not_imp.mp silent).1
    rw [phase] at putting
    exact absurd putting Bool.false_ne_true

/-- The task finds its byte queued and is told that the handle is busy, since reception is
armed; no handler runs, since nothing is in transmission. -/
theorem step {event : TxEvent} (stranded : Stranded state) (claimed : NotStranded state)
    (documented : Documented state event) (taken : state.step event = some next) :
    Stranded next := by
  rcases stranded.returning with putDone | idle
  · cases step_cases taken with
    | foundEmpty _ call phase empty => exact absurd empty stranded.queued
    | foundBytes _ call phase nonempty =>
      rw [phase] at putDone
      cases call with
      | writeData data cnt => exact absurd putDone Bool.false_ne_true
      | putChar ch result => exact ⟨stranded.armed, nonempty, stranded.silent, .inl rfl⟩
    | stateReady call phase =>
      have ready := documented.2
      have disarmed := (ready (phase ▸ rfl)).2
      rw [stranded.armed] at disarmed
      exact absurd disarmed.symm Bool.false_ne_true
    | stateBusy call phase => exact ⟨stranded.armed, stranded.queued, stranded.silent, .inr rfl⟩
    | txCplt enabled => exact absurd stranded.silent documented.1
    | writeNothing phase | writeData phase | putChar phase | loopStored _ _ _ _ phase
    | loopRefused _ _ _ _ phase | loopEnd _ _ _ phase | putStored _ _ phase
    | putRefused _ _ phase | testEmpty _ _ phase | testBytes _ _ phase | «section» _ _ phase
    | transmitBusy _ _ phase | transmitEntered _ _ phase | transmitLeft _ _ phase =>
      rw [phase] at putDone
      exact absurd putDone Bool.false_ne_true
  · exact absurd claimed (stranded.leftBehind idle)

end Stranded

/-- In every run after `UartPort_Init` that agrees with what the driver is documented to do,
no queued byte is left behind as long as `UartPort_PutChar` puts only while a transmission
is in progress; and in every run that ends between the calls, only then. -/
theorem notStranded_iff (txData rxData : Nat) (machine : Machine) (port : UartPort)
    (initialised : UartPort.init txData rxData machine = some port) (events : List TxEvent)
    (documented : Runs.EveryStep step Documented (start port) events) :
    (Runs.EveryStep step PutWhileSending (start port) events →
      Runs.EveryState step NotStranded (start port) events) ∧
    ∀ last, Runs.run step (start port) events = some last → last.phase = .idle →
      Runs.EveryState step NotStranded (start port) events →
      Runs.EveryStep step PutWhileSending (start port) events := by
  have start := Draining.start initialised
  refine ⟨fun sending => ?_, fun last reached returned => ?_⟩
  · exact Runs.everyState_of_everyStep (fun _ => Draining.notStranded)
      (fun _ _ _ draining guarded taken => draining.step guarded.1 guarded.2 taken) start
      (documented.and sending)
  · exact Runs.everyStep_of_everyState
      (fun _ _ _ draining conforming sending taken => draining.step conforming sending taken)
      (fun _ _ _ draining _ silent taken => Stranded.of_put draining silent taken)
      (fun _ _ _ stranded claimed conforming taken => stranded.step claimed conforming taken)
      (fun _ stranded => stranded.leftBehind) start documented reached returned

/-- A byte put while another is in transmission, and the handler after that one is sent. -/
theorem notStranded_iff_fresh :
    Runs.EveryState step NotStranded (start .fresh)
      ([.writeData [65]] ++ List.replicate 7 (.task false) ++ [.putChar 66] ++
        List.replicate 3 (.task false) ++ [.txCplt]) :=
  (notStranded_iff 1024 2048 ⟨fun _ => 0, false, []⟩ .fresh UartPort.init_fresh _
    (by decide)).1 (by decide)

/-- One `UartPort_PutChar` after `UartPort_Init`: the byte is queued, reception is armed, and
nothing is transmitted. -/
theorem not_notStranded :
    ¬ ∀ (txData rxData : Nat) (machine : Machine) (port : UartPort),
      UartPort.init txData rxData machine = some port → ∀ events : List TxEvent,
        Runs.EveryStep step Documented (start port) events →
          Runs.EveryState step NotStranded (start port) events := by
  intro claimed
  have drained := claimed 1024 2048 ⟨fun _ => 0, false, []⟩ .fresh UartPort.init_fresh
    ([.putChar 65] ++ List.replicate 3 (.task false)) (by decide)
  exact absurd drained (by decide)

end TxState

end RtpLib
