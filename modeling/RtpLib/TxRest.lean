/-
This file settles where the transmit side comes to rest. A call under way and the
Tx-complete handler take turns in any order. Each section of the call brings it nearer
to its return, and each run of the handler takes one byte from those on their way; so
both come to an end, in a number of steps that can be told beforehand.

What they leave behind is settled by the two accounts of the other files. No byte is
lost, as long as the task takes bytes only for an idle transmitter; and none is stranded,
as long as `UartPort_PutChar` puts only while one is being sent. Together with the end of
all steps this says that whatever a call reported as accepted has been sent.
-/

import RtpLib.TxDelivery
import RtpLib.TxProgress

namespace RtpLib

/-- The handler runs, or the task goes on with its call; no call begins. -/
def TxEvent.NoCall : TxEvent → Prop
  | .task _ => True
  | .txCplt => True
  | _ => False

/-- The sections that the call has still to run, with two for each byte that it may still put. -/
def TxPhase.work : TxPhase → Nat
  | .idle | .aborted => 0
  | .writeLoop data cnt => 2 * (data.length - cnt) + 7
  | .putSection _ => 8
  | .isEmptyTest _ => 6
  | .getState _ => 5
  | .getTest _ => 4
  | .getSection _ | .transmit _ => 3
  | .transmitLocked _ => 2

/-- The task has not yet found a byte in the ring. -/
def TxPhase.early : TxPhase → Bool
  | .idle | .aborted | .writeLoop _ _ | .putSection _ | .isEmptyTest _ => true
  | _ => false

namespace TxState

/-- The steps that are left, if no call begins: those of the call, and one interrupt for each byte
queued or in transmission. -/
def work (state : TxState) : Nat :=
  state.phase.work + state.port.txCount + state.port.handle.transmission.toList.length

/-- Nothing is going on between the calls, and what they reported as accepted has been sent. -/
structure AtRest (state : TxState) : Prop where
  returned : state.phase = .idle ∨ state.phase = .aborted
  silent : state.port.handle.transmission = none
  empty : state.port.txContents = []
  sent : state.port.handle.wire = state.accepted

/-- The driver does what it is documented to do, and the task neither loses a byte nor strands
one. -/
def Conforming (state : TxState) (event : TxEvent) : Prop :=
  Documented state event ∧ CommitsIdle state event ∧ PutWhileSending state event

instance (state : TxState) : DecidablePred (Conforming state) :=
  fun _ => inferInstanceAs (Decidable (_ ∧ _ ∧ _))

/-- Interrupts are masked at most before the first byte: a put enables them. -/
def MaskedBefore (state : TxState) : Prop :=
  state.port.machine.primask = true →
    state.port.txCount = 0 ∧ state.port.handle.transmission = none ∧ state.phase.early = true

/-- What holds wherever a run goes that conforms. -/
structure Settling (state : TxState) : Prop where
  delivering : Delivering state
  draining : Draining state
  masked : MaskedBefore state

variable {state next : TxState} {event : TxEvent}

/-- Ready only when neither sending nor receiving is in particular ready only when not sending. -/
theorem Documented.transmit (documented : Documented state event) :
    TransmitDocumented state event := by
  refine ⟨documented.1, ?_⟩
  have ready := documented.2
  cases event with
  | task answer =>
    cases answer with
    | false => trivial
    | true => exact fun stands => (ready stands).1
  | writeData _ | putChar _ | txCplt => trivial

/-! ### What every step keeps -/

theorem MaskedBefore.step (masked : MaskedBefore state)
    (raised : RaisedByTransmission state event) (taken : state.step event = some next) :
    MaskedBefore next := by
  -- Where the task has found a byte, interrupts are enabled.
  have late : ∀ {phase : TxPhase}, state.phase = phase → phase.early = false →
      ¬ state.port.machine.primask = true := by
    rintro _ rfl notEarly maskedNow
    rw [(masked maskedNow).2.2] at notEarly
    exact Bool.false_ne_true notEarly.symm
  cases step_cases taken with
  | writeNothing idle => exact fun primask => ⟨(masked primask).1, (masked primask).2.1, rfl⟩
  | writeData idle data nonempty =>
    exact fun primask => ⟨(masked primask).1, (masked primask).2.1, rfl⟩
  | putChar idle ch => exact fun primask => ⟨(masked primask).1, (masked primask).2.1, rfl⟩
  | loopEnd _ data cnt phase ended =>
    exact fun primask => ⟨(masked primask).1, (masked primask).2.1, rfl⟩
  | foundEmpty _ call phase empty =>
    exact fun primask => ⟨(masked primask).1, (masked primask).2.1, rfl⟩
  | loopStored | loopRefused | putStored | putRefused | «section» =>
    exact fun primask => absurd primask Bool.false_ne_true
  | foundBytes _ call phase nonempty =>
    exact fun primask => absurd (masked primask).1 nonempty
  | stateReady call phase => exact fun primask => absurd primask (late phase rfl)
  | stateBusy call phase => exact fun primask => absurd primask (late phase rfl)
  | testEmpty _ call phase empty => exact fun primask => absurd primask (late phase rfl)
  | testBytes _ call phase nonempty => exact fun primask => absurd primask (late phase rfl)
  | transmitBusy _ call phase refused => exact fun primask => absurd primask (late phase rfl)
  | transmitEntered _ call phase granted => exact fun primask => absurd primask (late phase rfl)
  | transmitLeft _ call phase => exact fun primask => absurd primask (late phase rfl)
  | txCplt enabled =>
    by_cases empty : state.port.txCount = 0
    · rw [txCplt_of_empty state empty]
      exact fun primask => absurd (enabled.symm.trans primask) Bool.false_ne_true
    · rw [txCplt_of_nonempty state empty]
      exact fun primask => absurd primask Bool.false_ne_true

theorem Settling.step (settling : Settling state) (conforming : Conforming state event)
    (taken : state.step event = some next) : Settling next where
  delivering := settling.delivering.step conforming.1.transmit conforming.2.1 taken
  draining := settling.draining.step conforming.1 conforming.2.2 taken
  masked := settling.masked.step conforming.1.1 taken

theorem Settling.start {txData rxData : Nat} {machine : Machine} {port : UartPort}
    (initialised : UartPort.init txData rxData machine = some port) :
    Settling (TxState.start port) := by
  obtain ⟨txInit, _, _, handle⟩ := UartPort.init_eq_some initialised
  refine ⟨.start initialised, .start initialised, fun _ => ⟨?_, ?_, rfl⟩⟩
  · show port.txCount = 0
    rw [← UartPort.length_txContents, UartPort.txContents, RingBuffer.contents_init txInit]
    rfl
  · show port.handle.transmission = none
    rw [handle]

/-! ### The end of all steps -/

/-- A step of the call to a phase with less left of it, the ring and the handle alike. -/
theorem work_lt_of_move {earlier : TxPhase} (stands : state.phase = earlier)
    (count : next.port.txCount = state.port.txCount)
    (sending : next.port.handle.transmission = state.port.handle.transmission)
    (fewer : next.phase.work < earlier.work) : next.work < state.work := by
  rw [work, work, stands, count, sending]
  exact Nat.add_lt_add_right (Nat.add_lt_add_right fewer _) _

/-- A put, which leaves a byte to be sent. -/
theorem work_lt_of_put {earlier : TxPhase} (stands : state.phase = earlier)
    (count : next.port.txCount = state.port.txCount + 1)
    (sending : next.port.handle.transmission = state.port.handle.transmission)
    (fewer : next.phase.work + 1 < earlier.work) : next.work < state.work := by
  rw [work, work, stands, count, sending]
  omega

/-- Each section of a call is one step less to take. -/
theorem Delivering.work_lt (delivering : Delivering state) {ready : Bool}
    (taken : state.step (.task ready) = some next) : next.work < state.work := by
  cases step_cases taken with
  | loopStored _ data cnt ch phase found room =>
    have inside := (List.getElem?_eq_some_iff.mp found).1
    refine work_lt_of_put phase (state.port.uartTxBuffer.pushed_count room) rfl ?_
    show 2 * (data.length - (cnt + 1)) + 7 + 1 < 2 * (data.length - cnt) + 7
    omega
  | loopRefused _ data cnt ch phase found full =>
    exact work_lt_of_move phase rfl rfl (show 6 < 2 * (data.length - cnt) + 7 by omega)
  | loopEnd _ data cnt phase ended =>
    exact work_lt_of_move phase rfl rfl (show 6 < 2 * (data.length - cnt) + 7 by omega)
  | putStored _ ch phase room =>
    exact work_lt_of_put phase (state.port.uartTxBuffer.pushed_count room) rfl
      (show 6 + 1 < 8 by decide)
  | putRefused _ ch phase full => exact work_lt_of_move phase rfl rfl (show 6 < 8 by decide)
  | foundEmpty _ call phase empty => exact work_lt_of_move phase rfl rfl (show 0 < 6 by decide)
  | foundBytes _ call phase nonempty =>
    cases call with
    | writeData data cnt => exact work_lt_of_move phase rfl rfl (show 4 < 6 by decide)
    | putChar ch result => exact work_lt_of_move phase rfl rfl (show 5 < 6 by decide)
  | stateReady call phase => exact work_lt_of_move phase rfl rfl (show 4 < 5 by decide)
  | stateBusy call phase => exact work_lt_of_move phase rfl rfl (show 0 < 5 by decide)
  | testEmpty _ call phase empty => exact work_lt_of_move phase rfl rfl (show 3 < 4 by decide)
  | testBytes _ call phase nonempty =>
    exact work_lt_of_move phase rfl rfl (show 3 < 4 by decide)
  | transmitBusy _ call phase refused =>
    exact work_lt_of_move phase rfl rfl (show 0 < 3 by decide)
  | transmitEntered _ call phase granted =>
    exact work_lt_of_move phase rfl rfl (show 2 < 3 by decide)
  | «section» _ call phase =>
    -- The byte leaves the ring, and is in the task's hand.
    have nonempty := delivering.queued (phase ▸ rfl)
    have counted : state.port.takeTxChar.txCount = state.port.txCount - 1 :=
      state.port.uartTxBuffer.popped_count nonempty
    rw [work, work, phase]
    show 3 + state.port.takeTxChar.txCount + state.port.handle.transmission.toList.length <
      3 + state.port.txCount + state.port.handle.transmission.toList.length
    omega
  | transmitLeft _ call phase =>
    have idle := delivering.exclusive (phase ▸ rfl)
    have started := congrArg UartHandle.transmission (state.unlocked_handle idle)
    rw [work, work, phase, idle]
    show 0 + state.port.txCount + state.unlocked.port.handle.transmission.toList.length <
      2 + state.port.txCount + 0
    rw [started, Option.toList_some, List.length_singleton]
    omega

/-- Each interrupt is one step less to take: a byte has been sent. -/
theorem Settling.work_lt_txCplt (settling : Settling state)
    (sending : state.port.handle.transmission ≠ none) : state.txCplt.work < state.work := by
  obtain ⟨sent, transmission⟩ := Option.ne_none_iff_exists'.mp sending
  by_cases empty : state.port.txCount = 0
  · rw [txCplt_of_empty state empty, work, work, transmission]
    exact Nat.lt_succ_self _
  · have outside : state.phase.locking = false := by
      rw [← Bool.not_eq_true]
      exact fun entered => sending (settling.draining.entered entered)
    have started := congrArg UartHandle.transmission
      (state.port.transmitted_started (settling.delivering.unlocked outside))
    have counted : state.port.takeTxChar.txCount = state.port.txCount - 1 :=
      state.port.uartTxBuffer.popped_count empty
    rw [txCplt_of_nonempty state empty, work, work, started, transmission]
    show state.phase.work + state.port.takeTxChar.txCount + 1 <
      state.phase.work + state.port.txCount + 1
    omega

theorem Settling.work_lt (settling : Settling state) (noCall : event.NoCall)
    (raised : RaisedByTransmission state event) (taken : state.step event = some next) :
    next.work < state.work := by
  cases event with
  | writeData data => exact absurd noCall id
  | putChar ch => exact absurd noCall id
  | task ready => exact settling.delivering.work_lt taken
  | txCplt =>
    cases step_cases taken with
    | txCplt enabled => exact settling.work_lt_txCplt raised

/-- In a call, the next section can always run. -/
theorem exists_section (state : TxState)
    (inside : ¬ (state.phase = .idle ∨ state.phase = .aborted)) :
    ∃ next, state.step (.task false) = some next := by
  show ∃ next, state.taskStep false = some next
  rw [taskStep]
  cases phase : state.phase with
  | idle => exact absurd (.inl phase) inside
  | aborted => exact absurd (.inr phase) inside
  | writeLoop data cnt =>
    dsimp only
    cases data[cnt]? with
    | none => exact ⟨_, rfl⟩
    | some ch =>
      dsimp only
      split
      · exact ⟨_, rfl⟩
      · exact ⟨_, rfl⟩
  | putSection ch => exact ⟨_, rfl⟩
  | isEmptyTest call =>
    dsimp only
    split
    · exact ⟨_, rfl⟩
    · exact ⟨_, rfl⟩
  | getState call => exact ⟨_, rfl⟩
  | getTest call =>
    dsimp only
    split
    · exact ⟨_, rfl⟩
    · exact ⟨_, rfl⟩
  | getSection call => exact ⟨_, rfl⟩
  | transmit call =>
    dsimp only
    split
    · exact ⟨_, rfl⟩
    · exact ⟨_, rfl⟩
  | transmitLocked call => exact ⟨_, rfl⟩

/-- Where no step is left, all is at rest. -/
theorem Settling.atRest (settling : Settling state)
    (stuck : ∀ event next, event.NoCall → Documented state event → state.step event ≠ some next) :
    AtRest state := by
  have returned : state.phase = .idle ∨ state.phase = .aborted := by
    by_contra inside
    obtain ⟨next, taken⟩ := exists_section state inside
    exact stuck (.task false) next trivial ⟨trivial, trivial⟩ taken
  have silent : state.port.handle.transmission = none := by
    by_contra sending
    have enabled : ¬ state.port.machine.primask = true := fun masked =>
      sending (settling.masked masked).2.1
    exact stuck .txCplt _ trivial ⟨sending, trivial⟩ (if_neg enabled)
  have settled : state.phase.starting = false := by
    rcases returned with idle | aborted
    · rw [idle]
      rfl
    · rw [aborted]
      rfl
  have none_queued : state.port.txCount = 0 := by
    by_contra queued
    exact settling.draining.drained settled queued silent
  have empty : state.port.txContents = [] := by
    rw [← List.length_eq_zero_iff, UartPort.length_txContents, none_queued]
  refine ⟨returned, silent, empty, ?_⟩
  have balance := settling.delivering.balance
  rw [silent, empty] at balance
  rcases returned with idle | aborted
  · rw [idle] at balance
    simpa [TxPhase.held, TxPhase.pending] using balance
  · rw [aborted] at balance
    simpa [TxPhase.held, TxPhase.pending] using balance

/-- From wherever a conforming run has led to, and in whatever order the call under way and the
interrupts go on, as long as these steps conform too, they come to an end in no more steps than
`work` says, and there every byte that a call has reported as accepted has been sent, once and in
order. -/
theorem sent_of_run (txData rxData : Nat) (machine : Machine) (port : UartPort)
    (initialised : UartPort.init txData rxData machine = some port) (events more : List TxEvent)
    (state last : TxState) (reached : Runs.run step (start port) events = some state)
    (conforming : Runs.EveryStep step Conforming (start port) events)
    (noCall : ∀ event ∈ more, event.NoCall) (goesOn : Runs.run step state more = some last)
    (conforming_more : Runs.EveryStep step Conforming state more) :
    more.length ≤ state.work ∧
      ((∀ event next, event.NoCall → Documented last event → step last event ≠ some next) →
        last.AtRest) := by
  have keep : ∀ state event next, Settling state → Conforming state event →
      step state event = some next → Settling next :=
    fun _ _ _ settling conforming taken => settling.step conforming taken
  have settling := Runs.run_invariant keep (Settling.start initialised) conforming reached
  have guarded : Runs.EveryStep step (fun state event =>
      (Settling state ∧ Conforming state event) ∧ event.NoCall) state more :=
    (Runs.EveryStep.with_invariant keep settling conforming_more).and
      (Runs.everyStep_of_mem noCall state)
  have bound := Runs.length_le_of_lowers
    (fun _ _ _ known taken => known.1.1.work_lt known.2 known.1.2.1.1 taken) guarded goesOn
  refine ⟨(Nat.le_add_left _ _).trans bound, fun stuck => ?_⟩
  exact (Runs.run_invariant keep settling conforming_more goesOn).atRest stuck

/-- A call that puts two bytes, up to its emptiness test. -/
def putsTwo : List TxEvent := .writeData [65, 66] :: List.replicate 3 (.task false)

/-- The rest of the call, and the interrupts of both bytes. -/
def sendsTwo : List TxEvent := List.replicate 5 (.task false) ++ [.txCplt, .txCplt]

def twoPut : TxState := (Runs.run step (start .fresh) putsTwo).get (by decide)

def twoSent : TxState := (Runs.run step twoPut sendsTwo).get (by decide)

/-- The handler sends the second byte after the first. -/
theorem sent_of_run_two : sendsTwo.length ≤ twoPut.work ∧ twoSent.AtRest := by
  obtain ⟨bound, settles⟩ := sent_of_run 1024 2048 ⟨fun _ => 0, false, []⟩ .fresh
    UartPort.init_fresh putsTwo sendsTwo twoPut twoSent (Option.some_get _).symm (by decide)
    (by simp [sendsTwo, TxEvent.NoCall]) (Option.some_get _).symm (by decide)
  have idle : twoSent.phase = .idle := by decide
  have silent : twoSent.port.handle.transmission = none := by decide
  refine ⟨bound, settles fun event next noCall documented taken => ?_⟩
  cases event with
  | writeData data => exact noCall
  | putChar ch => exact noCall
  | task ready =>
    have taken : twoSent.taskStep ready = some next := taken
    rw [taskStep, idle] at taken
    cases taken
  | txCplt => exact documented.1 silent

end TxState

end RtpLib
