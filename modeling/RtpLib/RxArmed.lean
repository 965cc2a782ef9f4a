/-
This file settles whether reception can go dead. The task, the Tx-complete
handler and the Rx-complete handler now share one handle: the task of `TxTask`
is extended by received bytes, whose handler may run wherever interrupts are
enabled, also while the task is inside `HAL_UART_Transmit_IT`.

The Rx-complete handler is the only place that arms the next reception, and it
ignores the result of `HAL_UART_Receive_IT`. The driver refuses it while an
interrupted call holds the lock of the handle. So reception stays armed exactly
as long as no byte arrives while the task is inside `HAL_UART_Transmit_IT`; and
when one does, no further byte is ever received.
-/

import RtpLib.TxTask

namespace RtpLib

/-- The events of the whole port. -/
inductive PortEvent
  /-- The task or the Tx-complete handler. -/
  | tx (event : TxEvent)
  /-- A call of `UartPort_SetCallbackFunction`. -/
  | setCallbackFunction (foo : Nat)
  /-- A byte is received and the Rx-complete handler runs. -/
  | rxCplt (ch : UInt8)

/-! ### What the operations do to reception -/

theorem UartHandle.transmitIT_reception (handle : UartHandle) (ch : UInt8) :
    (handle.transmitIT ch).2.reception = handle.reception := by
  unfold transmitIT
  split <;> rfl

/-- A reception asked for while none is armed is armed unless the handle is locked. -/
theorem UartHandle.receiveIT_reception (handle : UartHandle) (disarmed : handle.reception = false) :
    handle.receiveIT.2.reception = !handle.locked := by
  unfold receiveIT
  rw [disarmed, Bool.false_or]
  split
  · rename_i locked
    rw [locked]
    exact disarmed
  · rename_i unlocked
    rw [Bool.eq_false_iff.mpr unlocked]
    rfl

/-- Whatever the byte is, the handler asks for the next reception last. -/
theorem UartPort.rxCpltCallbck_handle {port next : UartPort}
    (handled : port.rxCpltCallbck = some next) : next.handle = port.handle.receiveIT.2 := by
  obtain ⟨⟨announced, between⟩, announcement, rfl⟩ := Option.map_eq_some_iff.mp handled
  have same : between.handle = port.handle := by
    rw [(rxAnnounce_eq_some announcement).2]
  show (between.rxStore announced).2.handle = port.handle.receiveIT.2
  rw [← same]
  cases announced <;> rfl

namespace TxState

/-- The task and the Tx-complete handler leave reception alone. -/
theorem step_reception {state next : TxState} {event : TxEvent}
    (taken : state.step event = some next) :
    next.port.handle.reception = state.port.handle.reception := by
  cases step_cases taken with
  | transmitLeft _ call phase =>
    exact UartHandle.transmitIT_reception { state.port.handle with locked := false } _
  | txCplt enabled =>
    show state.port.transmitted.txCpltCallbck.handle.reception = _
    unfold UartPort.txCpltCallbck
    split
    · rfl
    · exact UartHandle.transmitIT_reception _ _
  | writeNothing | writeData | putChar | loopStored | loopRefused | loopEnd => rfl
  | putStored | putRefused | foundEmpty | foundBytes | stateReady | stateBusy => rfl
  | testEmpty | testBytes | «section» | transmitBusy | transmitEntered => rfl

/-! ### The whole port -/

/-- One event of the port; the handlers run only where interrupts are enabled. -/
def portStep (state : TxState) : PortEvent → Option TxState
  | .tx event => state.step event
  | .setCallbackFunction foo =>
    (state.port.setCallbackFunction foo).map fun port => { state with port := port }
  | .rxCplt ch =>
    if state.port.machine.primask then none
    else (state.port.receive ch).rxCpltCallbck.map fun port => { state with port := port }

/-- The step agrees with what the driver is documented to do; an Rx-complete interrupt is
raised by an armed reception. -/
def PortDocumented (state : TxState) : PortEvent → Prop
  | .tx event => Documented state event
  | .setCallbackFunction _ => True
  | .rxCplt _ => state.port.handle.reception = true

instance (state : TxState) : DecidablePred (PortDocumented state)
  | .tx event => inferInstanceAs (Decidable (Documented state event))
  | .setCallbackFunction _ => isTrue trivial
  | .rxCplt _ => inferInstanceAs (Decidable (_ = true))

/-- Reception of the next byte is armed. -/
def Armed (state : TxState) : Prop := state.port.handle.reception = true

instance : DecidablePred Armed := fun _ => inferInstanceAs (Decidable (_ = true))

/-- No byte is received while an interrupted call holds the lock of the handle. -/
def ReceivesUnlocked (state : TxState) : PortEvent → Prop
  | .rxCplt _ => state.port.handle.locked = false
  | _ => True

instance (state : TxState) : DecidablePred (ReceivesUnlocked state)
  | .rxCplt _ => inferInstanceAs (Decidable (_ = false))
  | .tx _ | .setCallbackFunction _ => isTrue trivial

/-- After the Rx-complete handler, reception is armed unless the lock was held. -/
theorem portStep_rxCplt {state next : TxState} {ch : UInt8}
    (taken : state.portStep (.rxCplt ch) = some next) :
    next.port.handle.reception = !state.port.handle.locked := by
  simp only [portStep] at taken
  split at taken
  · cases taken
  · obtain ⟨port, handled, rfl⟩ := Option.map_eq_some_iff.mp taken
    show port.handle.reception = _
    rw [UartPort.rxCpltCallbck_handle handled]
    exact UartHandle.receiveIT_reception (state.port.receive ch).handle rfl

/-- Every other event leaves reception alone. -/
theorem portStep_reception {state next : TxState} {event : PortEvent}
    (taken : state.portStep event = some next) (other : ∀ ch, event ≠ .rxCplt ch) :
    next.port.handle.reception = state.port.handle.reception := by
  cases event with
  | tx event => exact step_reception taken
  | setCallbackFunction foo =>
    obtain ⟨port, set, rfl⟩ := Option.map_eq_some_iff.mp taken
    unfold UartPort.setCallbackFunction at set
    split at set
    · cases set
    · cases set
      rfl
  | rxCplt ch => exact absurd rfl (other ch)

theorem armed_step {state next : TxState} {event : PortEvent} (armed : Armed state)
    (unlocked : ReceivesUnlocked state event) (taken : state.portStep event = some next) :
    Armed next := by
  cases event with
  | rxCplt ch =>
    have unlocked : state.port.handle.locked = false := unlocked
    rw [Armed, portStep_rxCplt taken, unlocked]
    rfl
  | tx event =>
    rw [Armed, portStep_reception taken nofun]
    exact armed
  | setCallbackFunction foo =>
    rw [Armed, portStep_reception taken nofun]
    exact armed

theorem not_armed_of_locked {state next : TxState} {event : PortEvent}
    (locked : ¬ ReceivesUnlocked state event) (taken : state.portStep event = some next) :
    ¬ Armed next := by
  cases event with
  | rxCplt ch =>
    have locked : state.port.handle.locked = true := Bool.eq_true_of_not_eq_false locked
    rw [Armed, portStep_rxCplt taken, locked]
    exact Bool.false_ne_true
  | tx event => exact absurd trivial locked
  | setCallbackFunction foo => exact absurd trivial locked

/-- In every run after `UartPort_Init`, reception is armed in every state exactly when no
byte is received while an interrupted call holds the lock of the handle. -/
theorem armed_iff (txData rxData : Nat) (machine : Machine) (port : UartPort)
    (initialised : UartPort.init txData rxData machine = some port) (events : List PortEvent) :
    Runs.EveryState portStep Armed (start port) events ↔
      Runs.EveryStep portStep ReceivesUnlocked (start port) events := by
  have armed : Armed (start port) := by
    show port.handle.reception = true
    rw [(UartPort.init_eq_some initialised).2.2.2]
  exact Runs.everyState_iff_everyStep (fun _ armed => armed)
    (fun _ _ _ armed unlocked taken => armed_step armed unlocked taken)
    (fun _ _ _ _ locked taken => not_armed_of_locked locked taken) events armed

/-- Two bytes received around a `UartPort_WriteData`. -/
theorem armed_iff_fresh :
    Runs.EveryState portStep Armed (start .fresh)
      ([.rxCplt 120, .tx (.writeData [65])] ++ List.replicate 7 (.tx (.task false)) ++
        [.rxCplt 121]) :=
  (armed_iff 1024 2048 ⟨fun _ => 0, false, []⟩ .fresh UartPort.init_fresh _).mpr (by decide)

/-- A byte received while `UartPort_WriteData` is inside `HAL_UART_Transmit_IT`. -/
theorem not_armed :
    ¬ ∀ (txData rxData : Nat) (machine : Machine) (port : UartPort),
      UartPort.init txData rxData machine = some port → ∀ events : List PortEvent,
        Runs.EveryStep portStep PortDocumented (start port) events →
          Runs.EveryState portStep Armed (start port) events := by
  intro claimed
  have armed := claimed 1024 2048 ⟨fun _ => 0, false, []⟩ .fresh UartPort.init_fresh
    ([.tx (.writeData [65])] ++ List.replicate 6 (.tx (.task false)) ++ [.rxCplt 120])
    (by decide)
  exact absurd armed (by decide)

/-- One missed arming is permanent: in a run that agrees with what the driver is documented to
do, reception that is not armed is never armed again. -/
theorem dead_reception (state : TxState) (events : List PortEvent) (dead : ¬ Armed state)
    (documented : Runs.EveryStep portStep PortDocumented state events) :
    Runs.EveryState portStep (fun state => ¬ Armed state) state events := by
  refine Runs.everyState_of_everyStep (fun _ dead => dead)
    (fun state event next dead conforming taken => ?_) dead documented
  cases event with
  | rxCplt ch => exact absurd conforming dead
  | tx event =>
    rw [Armed, portStep_reception taken nofun]
    exact dead
  | setCallbackFunction foo =>
    rw [Armed, portStep_reception taken nofun]
    exact dead

end TxState

end RtpLib
