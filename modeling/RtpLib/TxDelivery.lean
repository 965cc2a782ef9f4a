/-
This file settles whether the bytes a task gets accepted reach the wire, each
once and in order. A byte accepted is in one of four places: on the wire, in
transmission, in the transmit ring, or -- between its removal from the ring and
the start of its transmission -- in `txChar`.

The last place is the weak one: the call that put the byte there goes on to
`HAL_UART_Transmit_IT` whatever happens in between, and ignores its result. The
account balances as long as the transmitter is idle when the task commits itself
to take a byte: no handler can then run before the byte is started.
`UartPort_PutChar` asks for this, `UartPort_WriteData` does not. From the first
commitment made while a byte is still in transmission, a task that is not
interrupted any more loses the byte it takes.
-/

import RtpLib.TxTask

namespace RtpLib

/-- The task has committed itself to take a byte and transmit it. -/
def TxPhase.committed : TxPhase → Bool
  | .getTest _ | .getSection _ | .transmit _ | .transmitLocked _ => true
  | _ => false

/-- The byte the task has taken is still to come out of the ring. -/
def TxPhase.taking : TxPhase → Bool
  | .getTest _ | .getSection _ => true
  | _ => false

/-- The byte taken from the ring into `txChar` whose transmission is not started yet. -/
def TxPhase.held (txChar : UInt8) : TxPhase → List UInt8
  | .transmit _ | .transmitLocked _ => [txChar]
  | _ => []

/-- The bytes stored by the call in progress, which it will report as accepted. -/
def TxPhase.pending : TxPhase → List UInt8
  | .idle | .aborted | .putSection _ => []
  | .writeLoop data cnt => data.take cnt
  | .isEmptyTest call | .getState call | .getTest call | .getSection call | .transmit call
  | .transmitLocked call => call.reported

theorem TxPhase.held_of_uncommitted {phase : TxPhase} (uncommitted : phase.committed = false)
    (txChar : UInt8) : phase.held txChar = [] := by
  cases phase <;> first | rfl | cases uncommitted

theorem TxPhase.taking_of_uncommitted {phase : TxPhase} (uncommitted : phase.committed = false) :
    phase.taking = false := by
  cases phase <;> first | rfl | cases uncommitted

theorem TxPhase.locking_of_uncommitted {phase : TxPhase} (uncommitted : phase.committed = false) :
    phase.locking = false := by
  cases phase <;> first | rfl | cases uncommitted

namespace TxState

/-- Between the calls, the bytes sent, in transmission and queued are the bytes reported as
accepted. -/
def Delivered (state : TxState) : Prop :=
  state.phase = .idle →
    state.port.handle.wire ++ state.port.handle.transmission.toList ++ state.port.txContents =
      state.accepted

instance : DecidablePred Delivered := fun _ => inferInstanceAs (Decidable (_ → _))

/-- The task commits itself only while the transmitter is idle and the ring holds a byte:
`UartPort_WriteData` finds the ring not empty while nothing is in transmission, and
`UartPort_PutChar` is told `HAL_UART_STATE_READY` while the ring is still not empty. -/
def CommitsIdle (state : TxState) : TxEvent → Prop
  | .task ready =>
    (state.phase.atWriteTest = true → state.port.txCount ≠ 0 →
      state.port.handle.transmission = none) ∧
    (state.phase.atGetState = true → ready = true → state.port.txCount ≠ 0)
  | _ => True

instance (state : TxState) : DecidablePred (CommitsIdle state)
  | .task _ => inferInstanceAs (Decidable ((_ → _ → _) ∧ (_ → _ → _)))
  | .writeData _ | .putChar _ | .txCplt => isTrue trivial

/-- The account of the accepted bytes, in every state of a run. -/
structure Delivering (state : TxState) : Prop where
  valid : state.port.uartTxBuffer.Valid
  balance : state.port.handle.wire ++ state.port.handle.transmission.toList ++
      (state.phase.held state.port.txChar ++ state.port.txContents) =
    state.accepted ++ state.phase.pending
  exclusive : state.phase.committed = true → state.port.handle.transmission = none
  queued : state.phase.taking = true → state.port.txCount ≠ 0
  unlocked : state.phase.locking = false → state.port.handle.locked = false

namespace Delivering

variable {state next : TxState}

theorem delivered (delivering : Delivering state) : Delivered state := by
  intro idle
  have balance := delivering.balance
  simp only [idle, TxPhase.held, TxPhase.pending, List.nil_append, List.append_nil] at balance
  exact balance

/-- A step between phases that leaves the port alone. -/
theorem move (delivering : Delivering state) {earlier : TxPhase} (stands : state.phase = earlier)
    (phase : TxPhase) (held : ∀ txChar, phase.held txChar = earlier.held txChar)
    (pending : phase.pending = earlier.pending)
    (exclusive : phase.committed = true → state.port.handle.transmission = none)
    (queued : phase.taking = true → state.port.txCount ≠ 0)
    (free : earlier.locking = false) : Delivering { state with phase := phase } where
  valid := delivering.valid
  balance := by
    rw [held, pending, ← stands]
    exact delivering.balance
  exclusive := exclusive
  queued := queued
  unlocked _ := delivering.unlocked (stands ▸ free)

/-- Such a step into a phase where the task is not committed. -/
theorem moveUncommitted (delivering : Delivering state) {earlier : TxPhase}
    (stands : state.phase = earlier) (phase : TxPhase)
    (held : ∀ txChar, phase.held txChar = earlier.held txChar)
    (pending : phase.pending = earlier.pending) (uncommitted : phase.committed = false)
    (free : earlier.locking = false) : Delivering { state with phase := phase } := by
  refine delivering.move stands phase held pending (fun committed => ?_) (fun taking => ?_) free
  · rw [uncommitted] at committed
    exact absurd committed Bool.false_ne_true
  · rw [TxPhase.taking_of_uncommitted uncommitted] at taking
    exact absurd taking Bool.false_ne_true

/-- A call that returns without a byte in hand. -/
theorem finish (delivering : Delivering state) {earlier : TxPhase}
    (stands : state.phase = earlier) (call : TxCall) (held : ∀ txChar, earlier.held txChar = [])
    (pending : call.reported = earlier.pending)
    (free : earlier.locking = false) : Delivering (state.finish call) where
  valid := delivering.valid
  balance := by
    have balance := delivering.balance
    rw [stands, held, ← pending] at balance
    rw [TxState.finish, TxPhase.pending, List.append_nil]
    exact balance
  exclusive committed := absurd committed Bool.false_ne_true
  queued taking := absurd taking Bool.false_ne_true
  unlocked _ := delivering.unlocked (stands ▸ free)

/-- A stored byte joins the ring and the bytes to be reported. -/
theorem store (delivering : Delivering state) {earlier : TxPhase} (stands : state.phase = earlier)
    (phase : TxPhase) (ch : UInt8) (stored : List UInt8)
    (room : state.port.txCount < state.port.uartTxBuffer.buffSize.toNat)
    (held : ∀ txChar, earlier.held txChar = [] ∧ phase.held txChar = [])
    (pending : phase.pending = earlier.pending ++ [ch])
    (uncommitted : phase.committed = false) (untaking : phase.taking = false)
    (free : earlier.locking = false) :
    Delivering { state with
      port := state.port.storedTxChar ch
      phase := phase
      stored := stored } where
  valid := state.port.uartTxBuffer.valid_pushed delivering.valid room
  balance := by
    have balance := delivering.balance
    have appended := state.port.txContents_storedTxChar delivering.valid ch room
    rw [stands, (held _).1, List.nil_append] at balance
    rw [(held _).2, List.nil_append, appended, pending, ← List.append_assoc,
      ← List.append_assoc, ← balance]
    rfl
  exclusive committed := absurd committed (by rw [uncommitted]; exact Bool.false_ne_true)
  queued taking := absurd taking (by rw [untaking]; exact Bool.false_ne_true)
  unlocked _ := delivering.unlocked (stands ▸ free)

/-- The byte taken in the critical section moves from the ring to `txChar`. -/
theorem take (delivering : Delivering state) (call : TxCall)
    (phase : state.phase = .getSection call) :
    Delivering { state.take with phase := .transmit call } where
  valid := state.port.uartTxBuffer.valid_popped delivering.valid
    (delivering.queued (phase ▸ rfl))
  balance := by
    have balance := delivering.balance
    have nonempty := delivering.queued (phase ▸ rfl)
    have first := state.port.txContents_takeTxChar delivering.valid nonempty
    rw [first] at balance
    simp only [phase, TxPhase.held, TxPhase.pending, List.nil_append] at balance
    exact balance
  exclusive _ := delivering.exclusive (phase ▸ rfl)
  queued taking := absurd taking Bool.false_ne_true
  unlocked _ := delivering.unlocked (phase ▸ rfl)

/-- The driver starts the byte in `txChar`: the transmitter is idle and the lock released. -/
theorem transmit (delivering : Delivering state) (call : TxCall)
    (phase : state.phase = .transmitLocked call) : Delivering (state.unlocked.finish call) := by
  have idle := delivering.exclusive (phase ▸ rfl)
  have started := state.unlocked_handle idle
  refine ⟨delivering.valid, ?_, fun committed => absurd committed Bool.false_ne_true,
    fun taking => absurd taking Bool.false_ne_true, fun _ => ?_⟩
  · have balance := delivering.balance
    simp only [phase, idle, TxPhase.held, TxPhase.pending, Option.toList_none,
      List.append_nil] at balance
    show state.unlocked.port.handle.wire ++ state.unlocked.port.handle.transmission.toList ++
      ([] ++ state.port.txContents) = (state.accepted ++ call.reported) ++ []
    rw [started, List.append_nil, List.nil_append, Option.toList_some, List.append_assoc]
    exact balance
  · show state.unlocked.port.handle.locked = false
    rw [started]

/-- The handler sends on: the byte in transmission reaches the wire, and the oldest byte of
the ring takes its place. -/
theorem txCplt (delivering : Delivering state)
    (transmitting : state.port.handle.transmission ≠ none) : Delivering state.txCplt := by
  have uncommitted : state.phase.committed = false := by
    rw [← Bool.not_eq_true]
    exact fun committed => transmitting (delivering.exclusive committed)
  have outside := TxPhase.held_of_uncommitted uncommitted
  have untaking := TxPhase.taking_of_uncommitted uncommitted
  have free := TxPhase.locking_of_uncommitted uncommitted
  have balance := delivering.balance
  rw [outside, List.nil_append] at balance
  by_cases empty : state.port.txCount = 0
  · rw [txCplt_of_empty state empty]
    refine ⟨delivering.valid, ?_, fun _ => rfl,
      fun taking => absurd taking (by rw [untaking]; exact Bool.false_ne_true),
      fun _ => delivering.unlocked free⟩
    show state.port.handle.wire ++ state.port.handle.transmission.toList ++ [] ++
      (state.phase.held _ ++ state.port.txContents) = state.accepted ++ state.phase.pending
    rw [outside, List.nil_append, List.append_nil]
    exact balance
  · have first : state.port.txContents =
        state.port.transmitted.takeTxChar.txChar ::
          state.port.transmitted.takeTxChar.txContents :=
      state.port.transmitted.txContents_takeTxChar delivering.valid empty
    have started := state.port.transmitted_started (delivering.unlocked free)
    rw [txCplt_of_nonempty state empty]
    refine ⟨state.port.uartTxBuffer.valid_popped delivering.valid empty, ?_,
      fun committed => absurd committed (by rw [uncommitted]; exact Bool.false_ne_true),
      fun taking => absurd taking (by rw [untaking]; exact Bool.false_ne_true), fun _ => ?_⟩
    · show state.port.transmitted.takeTxChar.transmitTxChar.handle.wire ++
          state.port.transmitted.takeTxChar.transmitTxChar.handle.transmission.toList ++
          (state.phase.held _ ++ state.port.transmitted.takeTxChar.txContents) =
        state.accepted ++ state.phase.pending
      rw [outside, List.nil_append, started, Option.toList_some, List.append_assoc,
        List.singleton_append, ← first]
      exact balance
    · show state.port.transmitted.takeTxChar.transmitTxChar.handle.locked = false
      rw [started]
      exact delivering.unlocked free

/-- Every step of the task and of the handler keeps the account, when the task commits itself
only while the transmitter is idle and the ring holds a byte. -/
theorem step {event : TxEvent} (delivering : Delivering state)
    (documented : TransmitDocumented state event) (commits : CommitsIdle state event)
    (taken : state.step event = some next) : Delivering next := by
  cases step_cases taken with
  | writeNothing idle =>
    exact delivering.moveUncommitted idle .aborted (fun _ => rfl) rfl rfl rfl
  | writeData idle data nonempty =>
    exact delivering.moveUncommitted idle (.writeLoop data 0) (fun _ => rfl) rfl rfl rfl
  | putChar idle ch =>
    exact delivering.moveUncommitted idle (.putSection ch) (fun _ => rfl) rfl rfl rfl
  | loopStored _ data cnt ch phase found room =>
    have pending : (TxPhase.writeLoop data (cnt + 1)).pending =
        (TxPhase.writeLoop data cnt).pending ++ [ch] := by
      rw [TxPhase.pending, TxPhase.pending, List.take_add_one, found]
      rfl
    exact delivering.store phase (.writeLoop data (cnt + 1)) ch _ room (fun _ => ⟨rfl, rfl⟩)
      pending rfl rfl rfl
  | loopRefused _ data cnt ch phase found full =>
    have moved := delivering.moveUncommitted phase (.isEmptyTest (.writeData data cnt))
      (fun _ => rfl) rfl rfl rfl
    exact ⟨moved.valid, moved.balance, moved.exclusive, moved.queued, moved.unlocked⟩
  | loopEnd _ data cnt phase ended =>
    exact delivering.moveUncommitted phase (.isEmptyTest (.writeData data cnt)) (fun _ => rfl)
      rfl rfl rfl
  | putStored _ ch phase room =>
    exact delivering.store phase (.isEmptyTest (.putChar ch true)) ch _ room
      (fun _ => ⟨rfl, rfl⟩) rfl rfl rfl rfl
  | putRefused _ ch phase full =>
    have moved := delivering.moveUncommitted phase (.isEmptyTest (.putChar ch false))
      (fun _ => rfl) rfl rfl rfl
    exact ⟨moved.valid, moved.balance, moved.exclusive, moved.queued, moved.unlocked⟩
  | foundEmpty _ call phase empty =>
    exact delivering.finish phase call (fun _ => rfl) rfl rfl
  | foundBytes _ call phase nonempty =>
    cases call with
    | writeData data cnt =>
      have idle := commits.1 (phase ▸ rfl) nonempty
      exact delivering.move phase (.getTest (.writeData data cnt)) (fun _ => rfl) rfl
        (fun _ => idle) (fun _ => nonempty) rfl
    | putChar ch result =>
      exact delivering.moveUncommitted phase (.getState (.putChar ch result)) (fun _ => rfl) rfl
        rfl rfl
  | stateReady call phase =>
    have idle := documented.2 (phase ▸ rfl)
    have nonempty := commits.2 (phase ▸ rfl) rfl
    exact delivering.move phase (.getTest call) (fun _ => rfl) rfl (fun _ => idle)
      (fun _ => nonempty) rfl
  | stateBusy call phase =>
    exact delivering.finish phase call (fun _ => rfl) rfl rfl
  | testEmpty _ call phase empty =>
    exact absurd empty (delivering.queued (phase ▸ rfl))
  | testBytes _ call phase nonempty =>
    exact delivering.move phase (.getSection call) (fun _ => rfl) rfl
      (fun _ => delivering.exclusive (phase ▸ rfl)) (fun _ => nonempty) rfl
  | «section» _ call phase => exact delivering.take call phase
  | transmitBusy _ call phase refused =>
    have idle := delivering.exclusive (phase ▸ rfl)
    have unlocked := delivering.unlocked (phase ▸ rfl)
    rw [UartHandle.transmitRefused, idle, unlocked] at refused
    exact absurd refused Bool.false_ne_true
  | transmitEntered _ call phase granted =>
    have moved := delivering.move phase (.transmitLocked call) (fun _ => rfl) rfl
      (fun _ => delivering.exclusive (phase ▸ rfl))
      (fun taking => absurd taking Bool.false_ne_true) rfl
    exact ⟨moved.valid, moved.balance, moved.exclusive, moved.queued,
      fun outside => absurd outside.symm Bool.false_ne_true⟩
  | transmitLeft _ call phase => exact delivering.transmit call phase
  | txCplt enabled => exact delivering.txCplt documented.1

/-- `UartPort_WriteData` takes a byte while another is in transmission: the driver refuses it
and the byte is lost. -/
theorem lost (delivering : Delivering state) (ready : Bool) (data : List UInt8) (cnt : Nat)
    (phase : state.phase = .isEmptyTest (.writeData data cnt)) (nonempty : state.port.txCount ≠ 0)
    (transmitting : state.port.handle.transmission ≠ none) :
    ∃ last, Runs.run TxState.step state (.task ready :: List.replicate 3 (.task false)) =
        some last ∧ last.phase = .idle ∧ ¬ Delivered last := by
  have refused : state.port.handle.transmitRefused = true := by
    rw [UartHandle.transmitRefused, Option.isSome_iff_ne_none.mpr transmitting, Bool.true_or]
  have found := Step.foundBytes ready _ phase nonempty
  have tested : Step { state with phase := .getTest (.writeData data cnt) } (.task false)
      { state with phase := .getSection (.writeData data cnt) } :=
    .testBytes false _ rfl nonempty
  have taken : Step { state with phase := .getSection (.writeData data cnt) } (.task false)
      { state.take with phase := .transmit (.writeData data cnt) } := .section false _ rfl
  have busy : Step { state.take with phase := .transmit (.writeData data cnt) } (.task false)
      (state.take.finish (.writeData data cnt)) := .transmitBusy false _ rfl refused
  refine ⟨state.take.finish (.writeData data cnt), ?_, rfl, fun claimed => ?_⟩
  · show Runs.run TxState.step state [.task ready, .task false, .task false, .task false] = _
    rw [Runs.run_cons_of_step found.taken, afterNonempty, Runs.run_cons_of_step tested.taken,
      Runs.run_cons_of_step taken.taken, Runs.run_cons_of_step busy.taken, Runs.run]
  · have balance := delivering.balance
    have first := state.port.txContents_takeTxChar delivering.valid nonempty
    simp only [phase, TxPhase.held, TxPhase.pending, List.nil_append] at balance
    have shorter := List.append_cancel_left ((claimed rfl).trans balance.symm)
    rw [first] at shorter
    exact absurd shorter (List.cons_ne_self _ _).symm

/-- `UartPort_PutChar` is told that the transmitter is idle after the handler has emptied the
ring: it transmits the zero that `RingBuffer_GetChar` leaves in `txChar`. -/
theorem invented (delivering : Delivering state) (call : TxCall)
    (phase : state.phase = .getState call) (empty : state.port.txCount = 0)
    (idle : state.port.handle.transmission = none) :
    ∃ last, Runs.run TxState.step state (.task true :: List.replicate 3 (.task false)) =
        some last ∧ last.phase = .idle ∧ ¬ Delivered last := by
  have unlocked := delivering.unlocked (phase ▸ rfl)
  have granted := state.port.handle.transmitRefused_eq_false_iff.mpr ⟨idle, unlocked⟩
  have found := Step.stateReady call phase
  have tested : Step { state with phase := .getTest call } (.task false)
      { state with port := { state.port with txChar := 0 }, phase := .transmit call } :=
    .testEmpty false _ rfl empty
  have entered : Step
      { state with port := { state.port with txChar := 0 }, phase := .transmit call }
      (.task false)
      { state with
        port := UartPort.setLocked { state.port with txChar := 0 } true
        phase := .transmitLocked call } := .transmitEntered false _ rfl granted
  obtain ⟨last, left, returned, reported, port⟩ : ∃ last,
      Step { state with
          port := UartPort.setLocked { state.port with txChar := 0 } true
          phase := .transmitLocked call } (.task false) last ∧
        last.phase = .idle ∧ last.accepted = state.accepted ++ call.reported ∧
        last.port = { state.port with
          txChar := 0
          handle := { state.port.handle with transmission := some 0, locked := false } } :=
    ⟨_, .transmitLeft false call rfl, rfl, rfl, (UartPort.setLocked { state.port with
      txChar := 0 } false).transmitTxChar_of_idle idle rfl⟩
  refine ⟨last, ?_, returned, fun claimed => ?_⟩
  · show Runs.run TxState.step state [.task true, .task false, .task false, .task false] = _
    rw [Runs.run_cons_of_step found.taken, Runs.run_cons_of_step tested.taken,
      Runs.run_cons_of_step entered.taken, Runs.run_cons_of_step left.taken, Runs.run]
  · have balance := delivering.balance
    have nothing : state.port.txContents = [] :=
      List.eq_nil_of_length_eq_zero (state.port.length_txContents.trans empty)
    simp only [phase, idle, nothing, TxPhase.held, TxPhase.pending, Option.toList_none,
      List.append_nil] at balance
    have longer := claimed returned
    have queued : last.port.txContents = [] := by
      rw [port]
      exact nothing
    rw [queued, reported, ← balance, List.append_nil, port] at longer
    exact absurd (List.append_right_eq_self.mp longer) (List.cons_ne_nil _ _)

/-- A commitment made while a byte is in transmission, or after the handler has emptied the
ring, breaks the account as soon as the call has returned. -/
theorem spoiled (delivering : Delivering state) (ready : Bool)
    (documented : TransmitDocumented state (.task ready))
    (hasty : ¬ CommitsIdle state (.task ready)) :
    ∃ last, Runs.run TxState.step state (.task ready :: List.replicate 3 (.task false)) =
        some last ∧ last.phase = .idle ∧ ¬ Delivered last := by
  cases phase : state.phase with
  | isEmptyTest call =>
    rw [CommitsIdle, phase] at hasty
    cases call with
    | writeData data cnt =>
      have unmet : ¬ (state.port.txCount ≠ 0 → state.port.handle.transmission = none) :=
        fun met => hasty ⟨fun _ => met, nofun⟩
      obtain ⟨nonempty, transmitting⟩ := Classical.not_imp.mp unmet
      exact delivering.lost ready data cnt phase nonempty transmitting
    | putChar ch result => exact absurd ⟨nofun, nofun⟩ hasty
  | getState call =>
    rw [CommitsIdle, phase] at hasty
    have unmet : ¬ (ready = true → state.port.txCount ≠ 0) := fun met =>
      hasty ⟨nofun, fun _ => met⟩
    obtain ⟨rfl, empty⟩ := Classical.not_imp.mp unmet
    have idle := documented.2 (phase ▸ rfl)
    exact delivering.invented call phase (Classical.not_not.mp empty) idle
  | idle | aborted | writeLoop | putSection | getTest | getSection | transmit | transmitLocked =>
    rw [CommitsIdle, phase] at hasty
    exact absurd ⟨nofun, nofun⟩ hasty

theorem start {txData rxData : Nat} {machine : Machine} {port : UartPort}
    (initialised : UartPort.init txData rxData machine = some port) :
    Delivering (TxState.start port) := by
  obtain ⟨txInit, _, _, handle⟩ := UartPort.init_eq_some initialised
  have empty := RingBuffer.contents_init txInit port.machine.memory
  refine ⟨RingBuffer.valid_init txInit, ?_, nofun, nofun, fun _ => ?_⟩
  · show port.handle.wire ++ port.handle.transmission.toList ++ ([] ++ port.txContents) = [] ++ []
    rw [handle]
    exact empty
  · show port.handle.locked = false
    rw [handle]

end Delivering

/-- In every run after `UartPort_Init` that agrees with what the driver is documented to do
when it transmits, as long as the task commits itself only while the transmitter is idle and
the ring holds a byte, every accepted byte is sent, in transmission or queued, once and in
order, whenever no call is in progress. The condition is exact: after a run that met it, a
commitment that does not is followed by a state between the calls where the bytes do not add
up, when nothing interrupts the task. -/
theorem delivered_of_commitsIdle (txData rxData : Nat) (machine : Machine) (port : UartPort)
    (initialised : UartPort.init txData rxData machine = some port) (events : List TxEvent)
    (documented : Runs.EveryStep step TransmitDocumented (start port) events)
    (commits : Runs.EveryStep step CommitsIdle (start port) events) :
    Runs.EveryState step Delivered (start port) events ∧
      ∀ state ready, Runs.run step (start port) events = some state →
        TransmitDocumented state (.task ready) → ¬ CommitsIdle state (.task ready) →
        ∃ last, Runs.run step state (.task ready :: List.replicate 3 (.task false)) = some last ∧
          last.phase = .idle ∧ ¬ Delivered last := by
  have keep : ∀ state event next, Delivering state →
      TransmitDocumented state event ∧ CommitsIdle state event → step state event = some next →
      Delivering next :=
    fun _ _ _ delivering guarded taken => delivering.step guarded.1 guarded.2 taken
  have guarded := documented.and commits
  refine ⟨Runs.everyState_of_everyStep (fun _ => Delivering.delivered) keep
    (Delivering.start initialised) guarded, fun state ready reached conforming hasty => ?_⟩
  have delivering := Runs.run_invariant keep (Delivering.start initialised) guarded reached
  exact delivering.spoiled ready conforming hasty

/-- A byte written, sent while no call is in progress, and another one written. -/
theorem delivered_of_commitsIdle_fresh :
    Runs.EveryState step Delivered (start .fresh)
      ([.writeData [65]] ++ List.replicate 7 (.task false) ++ [.txCplt, .writeData [66]] ++
        List.replicate 7 (.task false)) :=
  (delivered_of_commitsIdle 1024 2048 ⟨fun _ => 0, false, []⟩ .fresh UartPort.init_fresh _
    (by decide) (by decide)).1

/-- `AB` is written, and `C` while `A` is still being sent: the second call takes `B` from the
ring, the driver answers `HAL_BUSY`, and `B` is gone. -/
theorem not_delivered :
    ¬ ∀ (txData rxData : Nat) (machine : Machine) (port : UartPort),
      UartPort.init txData rxData machine = some port → ∀ events : List TxEvent,
        Runs.EveryStep step Documented (start port) events →
          Runs.EveryState step Delivered (start port) events := by
  intro claimed
  have delivered := claimed 1024 2048 ⟨fun _ => 0, false, []⟩ .fresh UartPort.init_fresh
    ([.writeData [65, 66]] ++ List.replicate 8 (.task false) ++ [.writeData [67]] ++
      List.replicate 6 (.task false)) (by decide)
  exact absurd delivered (by decide)

end TxState

end RtpLib
