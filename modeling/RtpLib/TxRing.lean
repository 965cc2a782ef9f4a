/-
This file settles what two consumers do to the transmit ring. The task and the
Tx-complete handler both take bytes from it, and `RingBuffer_GetChar` tests for
emptiness before its critical section: when the ring holds one byte, the handler
can take it between the test and the section of the task.

The section then counts down from zero and yields a byte that was never stored.
It is the only step that goes wrong: the ring is sound along a run exactly when
every critical section that the task enters still finds a byte. Nothing is
assumed of the moments at which the handler runs.
-/

import RtpLib.TxTask

namespace RtpLib

namespace TxState

/-- The transmit ring is sound: its counter is within the capacity, and each stored byte has
been yielded at most once, in the order of the puts. -/
def RingSound (state : TxState) : Prop :=
  state.port.txCount ≤ state.port.uartTxBuffer.buffSize.toNat ∧ state.yielded <+: state.stored

/-- A critical section of `RingBuffer_GetChar` that the task enters finds a byte queued. -/
def TakesQueued (state : TxState) : TxEvent → Prop
  | .task _ => state.phase.atGetSection = true → state.port.txCount ≠ 0
  | _ => True

instance : DecidablePred RingSound := fun _ => inferInstanceAs (Decidable (_ ∧ _))

instance (state : TxState) : DecidablePred (TakesQueued state)
  | .task _ => inferInstanceAs (Decidable (_ → _))
  | .writeData _ | .putChar _ | .txCplt => isTrue trivial

/-- The transmit ring accounts for its bytes. -/
def TxLedger (state : TxState) : Prop :=
  Ledger state.port.uartTxBuffer state.port.machine.memory state.stored state.yielded

theorem TxLedger.ringSound {state : TxState} (ledger : TxLedger state) : RingSound state :=
  ⟨ledger.valid.count_le, ledger.yielded_prefix⟩

theorem TxLedger.take {state : TxState} (ledger : TxLedger state)
    (nonempty : state.port.txCount ≠ 0) : TxLedger state.take := ledger.popped nonempty

theorem TxLedger.txCplt {state : TxState} (ledger : TxLedger state) :
    TxLedger state.txCplt := by
  by_cases empty : state.port.txCount = 0
  · rw [txCplt_of_empty state empty]
    exact ledger
  · rw [txCplt_of_nonempty state empty]
    exact ledger.popped empty

/-- Every step keeps the account when the task's critical sections find a byte. -/
theorem TxLedger.step {state next : TxState} {event : TxEvent} (ledger : TxLedger state)
    (queued : TakesQueued state event) (taken : state.step event = some next) :
    TxLedger next := by
  cases step_cases taken with
  | loopStored _ data cnt ch phase found room => exact ledger.pushed room ch
  | putStored _ ch phase room => exact ledger.pushed room ch
  | «section» _ call phase =>
    exact ledger.take (queued (by rw [phase]; rfl))
  | txCplt enabled => exact ledger.txCplt
  | writeNothing | writeData | putChar | loopRefused | loopEnd | putRefused => exact ledger
  | foundEmpty | foundBytes | stateReady | stateBusy | testEmpty | testBytes => exact ledger
  | transmitBusy | transmitEntered | transmitLeft => exact ledger

/-- A critical section that finds no byte yields one that was not stored. -/
theorem not_ringSound_of_stale {state next : TxState} {event : TxEvent}
    (ledger : TxLedger state) (stale : ¬ TakesQueued state event)
    (taken : state.step event = some next) : ¬ RingSound next := by
  cases step_cases taken with
  | «section» _ call phase =>
    have stale := (Classical.not_imp.mp stale).2
    rw [not_not] at stale
    exact fun sound => ledger.not_prefix_of_empty stale _ sound.2
  | writeNothing | writeData | putChar | txCplt => exact absurd trivial stale
  | loopStored _ _ _ _ phase | loopRefused _ _ _ _ phase | loopEnd _ _ _ phase
  | putStored _ _ phase | putRefused _ _ phase | foundEmpty _ _ phase | foundBytes _ _ phase
  | stateReady _ phase | stateBusy _ phase | testEmpty _ _ phase | testBytes _ _ phase
  | transmitBusy _ _ phase | transmitEntered _ _ phase | transmitLeft _ _ phase =>
    have inside := (Classical.not_imp.mp stale).1
    rw [phase] at inside
    exact absurd inside Bool.false_ne_true

/-- In every run from an initialised transmit ring, whenever the handler runs, the ring is
sound in every state exactly when every critical section of `RingBuffer_GetChar` that the
task enters still finds a byte. -/
theorem ringSound_iff (buffer : Nat) (bufferSize : UInt32) (port : UartPort)
    (initialised : RingBuffer.init buffer bufferSize = some port.uartTxBuffer)
    (events : List TxEvent) :
    Runs.EveryState step RingSound (start port) events ↔
      Runs.EveryStep step TakesQueued (start port) events :=
  Runs.everyState_iff_everyStep (fun _ ledger => TxLedger.ringSound ledger)
    (fun _ _ _ ledger queued taken => ledger.step queued taken)
    (fun _ _ _ ledger stale taken => not_ringSound_of_stale ledger stale taken) events
    (Ledger.init initialised)

/-- Two bytes written, and the handler after the first is sent: the ring stays sound. -/
theorem ringSound_iff_fresh :
    Runs.EveryState step RingSound (start .fresh)
      [.writeData [65, 66], .task false, .task false, .task false, .task false, .task false,
        .task false, .task false, .task false, .txCplt] :=
  (ringSound_iff 1024 512 .fresh rfl _).mpr (by decide)

/-- While `A` is being sent, `B` is put and found by the emptiness test of the task; then the
transmission ends, the handler takes `B`, and the section of the task counts down from
zero. -/
theorem not_ringSound :
    ¬ ∀ (buffer : Nat) (bufferSize : UInt32) (port : UartPort),
      RingBuffer.init buffer bufferSize = some port.uartTxBuffer → ∀ events : List TxEvent,
        Runs.EveryStep step RaisedByTransmission (start port) events →
          Runs.EveryState step RingSound (start port) events := by
  intro claimed
  have sound := claimed 1024 512 .fresh rfl
    [.writeData [65], .task false, .task false, .task false, .task false, .task false,
      .task false, .task false, .writeData [66], .task false, .task false, .task false,
      .task false, .txCplt, .task false] (by decide)
  exact absurd sound (by decide)

end TxState

end RtpLib
