/-
This file connects the two models of the calls that transmit. `TxTask` cuts
`UartPort_WriteData` and `UartPort_PutChar` into the sections between which a
handler can run; `UartCalls` gives each call as one function on the port. When
nothing interrupts the task, its sections lead where the function does, and
report what the function returns. Calls and interrupts that follow one another
are then the port of `UartQueues`, which answers as two bounded queues.
-/

import Mathlib.Logic.Relation
import RtpLib.InterruptMask
import RtpLib.TxTask
import RtpLib.UartQueues

namespace RtpLib

/-- A call that the driver refuses leaves the port alone. -/
theorem UartPort.transmitTxChar_of_refused (port : UartPort)
    (refused : port.handle.transmitRefused = true) : port.transmitTxChar = port := by
  rw [transmitTxChar, UartHandle.transmitIT, if_pos refused]

namespace TxState

/-- The task runs section after section, with nothing in between; `ready` is what
`HAL_UART_GetState` compares to. -/
def Sections (ready : Bool) : TxState → TxState → Prop :=
  Relation.ReflTransGen fun state next => state.step (.task ready) = some next

/-- The same port and histories, at another section. -/
def goto (state : TxState) (phase : TxPhase) : TxState := { state with phase := phase }

variable {state last : TxState} {ready : Bool}

/-- Sections are events of the task and no others. -/
theorem Sections.run (sections : Sections ready state last) :
    ∃ turns, Runs.run step state (List.replicate turns (.task ready)) = some last := by
  induction sections using Relation.ReflTransGen.head_induction_on with
  | refl => exact ⟨0, rfl⟩
  | head first _ inductionHypothesis =>
    obtain ⟨turns, reached⟩ := inductionHypothesis
    exact ⟨turns + 1, (Runs.run_cons_of_step first _).trans reached⟩

/-- One section, and then others. -/
theorem Step.sections {next : TxState} (first : Step state (.task ready) next)
    (rest : Sections ready next last) : Sections ready state last := .head first.taken rest

/-- From the condition of its loop on, the task puts what the loop of the function puts. -/
theorem sections_writeLoop (state : TxState) (ready : Bool) (data rest : List UInt8) (cnt : Nat)
    (left : data.drop cnt = rest) (phase : state.phase = .writeLoop data cnt) :
    ∃ next, Sections ready state next ∧
      next.phase = .isEmptyTest (.writeData data (state.port.writeLoop cnt rest).1) ∧
      next.port = (state.port.writeLoop cnt rest).2 ∧ next.accepted = state.accepted := by
  induction rest generalizing state cnt with
  | nil =>
    have ended : data[cnt]? = none := List.getElem?_eq_none (List.drop_eq_nil_iff.mp left)
    exact ⟨_, (Step.loopEnd ready data cnt phase ended).sections .refl, rfl, rfl, rfl⟩
  | cons ch rest inductionHypothesis =>
    have found : data[cnt]? = some ch := by rw [← List.head?_drop, left, List.head?_cons]
    have left : data.drop (cnt + 1) = rest := by rw [← List.tail_drop, left, List.tail_cons]
    by_cases room : state.port.txCount < state.port.uartTxBuffer.buffSize.toNat
    · have first := Step.loopStored ready data cnt ch phase found room
      obtain ⟨next, others, phase, port, accepted⟩ :=
        inductionHypothesis { state with
          port := state.port.storedTxChar ch
          phase := .writeLoop data (cnt + 1)
          stored := state.stored ++ [ch] } (cnt + 1) left rfl
      refine ⟨next, first.sections others, ?_, ?_, accepted⟩
      · rw [phase, UartPort.writeLoop, UartPort.putTxChar_of_room _ _ room]
        rfl
      · rw [port, UartPort.writeLoop, UartPort.putTxChar_of_room _ _ room]
        rfl
    · have first := Step.loopRefused ready data cnt ch phase found room
      refine ⟨_, first.sections .refl, ?_, ?_, rfl⟩
      · rw [UartPort.writeLoop, UartPort.putTxChar_of_full _ _ room]
        rfl
      · rw [UartPort.writeLoop, UartPort.putTxChar_of_full _ _ room]
        rfl

/-- From the emptiness test of `RingBuffer_GetChar` on a ring that is not empty, the task takes
a byte, hands it to the driver, and returns. -/
theorem sections_send (state : TxState) (ready : Bool) (call : TxCall)
    (phase : state.phase = .getTest call) (nonempty : state.port.txCount ≠ 0) :
    ∃ next, Sections ready state next ∧ next.phase = .idle ∧
      next.port = state.port.getTxChar.2.transmitTxChar ∧
      next.accepted = state.accepted ++ call.reported := by
  have test := Step.testBytes ready call phase nonempty
  have take := @Step.section (state.goto (.getSection call)) ready call rfl
  rw [state.port.getTxChar_of_nonempty nonempty]
  by_cases refused : state.port.handle.transmitRefused = true
  · have busy := @Step.transmitBusy (state.take.goto (.transmit call)) ready call rfl refused
    refine ⟨_, test.sections (take.sections (busy.sections .refl)), rfl, ?_, rfl⟩
    exact (state.port.takeTxChar.transmitTxChar_of_refused refused).symm
  · have granted := Bool.eq_false_iff.mpr refused
    have entered := @Step.transmitEntered (state.take.goto (.transmit call)) ready call rfl granted
    have left := @Step.transmitLeft { state.take with
      port := state.take.port.setLocked true
      phase := .transmitLocked call } ready call rfl
    refine ⟨_, test.sections (take.sections (entered.sections (left.sections .refl))), rfl, ?_,
      rfl⟩
    -- The lock was free before the call, so that its release leaves the handle as it was.
    have unlocked : state.port.takeTxChar.setLocked false = state.port.takeTxChar := by
      have free := (state.port.handle.transmitRefused_eq_false_iff.mp granted).2
      have same : { state.port.handle with locked := false } = state.port.handle := by
        rw [← free]
      exact congrArg (fun handle => { state.port.takeTxChar with handle := handle }) same
    exact congrArg UartPort.transmitTxChar unlocked

/-- Uninterrupted, the sections of `UartPort_WriteData` are the function. -/
theorem sections_writeData (state : TxState) (ready : Bool) (idle : state.phase = .idle)
    (data : List UInt8) (cnt : Nat) (port : UartPort)
    (written : state.port.writeData data = some (cnt, port)) :
    ∃ next last, state.step (.writeData data) = some next ∧ Sections ready next last ∧
      last.phase = .idle ∧ last.port = port ∧
      last.accepted = state.accepted ++ data.take cnt := by
  by_cases nonempty : data = []
  · rw [UartPort.writeData, if_pos nonempty] at written
    cases written
  · rw [UartPort.writeData, if_neg nonempty] at written
    obtain ⟨looped, puts, phase, same, accepted⟩ :=
      sections_writeLoop (state.goto (.writeLoop data 0)) ready data data 0 rfl rfl
    have same : looped.port = (state.port.writeLoop 0 data).2 := same
    have start := (Step.writeData idle data nonempty).taken
    rw [Option.some.injEq, Prod.mk.injEq] at written
    obtain ⟨rfl, rfl⟩ := written
    by_cases empty : looped.port.txCount = 0
    · have returned := Step.foundEmpty ready _ phase empty
      refine ⟨_, _, start, puts.trans (returned.sections .refl), rfl, ?_, ?_⟩
      · rw [if_pos (same ▸ looped.port.tx_isEmpty_iff.mpr empty)]
        exact same
      · show looped.accepted ++ _ = _
        rw [accepted]
        rfl
    · have found := Step.foundBytes ready _ phase empty
      obtain ⟨last, sent, idle, port, reported⟩ := sections_send
        (looped.goto (afterNonempty (.writeData data (state.port.writeLoop 0 data).1))) ready _ rfl
        empty
      refine ⟨_, last, start, puts.trans (found.sections sent), idle, ?_, ?_⟩
      · rw [if_neg fun nothing => empty (looped.port.tx_isEmpty_iff.mp (same ▸ nothing)), port]
        exact congrArg (fun port => port.getTxChar.2.transmitTxChar) same
      · rw [reported]
        show looped.accepted ++ _ = _
        rw [accepted]
        rfl

/-- From its emptiness test on, `UartPort_PutChar` starts the transmitter when it is told that
the handle is ready. -/
theorem sections_afterPut (state : TxState) (ready : Bool) (ch : UInt8) (result : Bool)
    (phase : state.phase = .isEmptyTest (.putChar ch result)) :
    ∃ next, Sections ready state next ∧ next.phase = .idle ∧
      next.port = (if !state.port.uartTxBuffer.isEmpty && ready then
        state.port.getTxChar.2.transmitTxChar else state.port) ∧
      next.accepted = state.accepted ++ TxCall.reported (.putChar ch result) := by
  by_cases empty : state.port.txCount = 0
  · have returned := Step.foundEmpty ready _ phase empty
    refine ⟨_, returned.sections .refl, rfl, ?_, rfl⟩
    rw [state.port.tx_isEmpty_iff.mpr empty]
    rfl
  · have nonempty : state.port.uartTxBuffer.isEmpty = false :=
      Bool.eq_false_iff.mpr fun nothing => empty (state.port.tx_isEmpty_iff.mp nothing)
    have found := Step.foundBytes ready _ phase empty
    rw [nonempty]
    cases ready with
    | false =>
      have busy := @Step.stateBusy (state.goto (.getState (.putChar ch result))) _ rfl
      exact ⟨_, found.sections (busy.sections .refl), rfl, rfl, rfl⟩
    | true =>
      have told := @Step.stateReady (state.goto (.getState (.putChar ch result))) _ rfl
      obtain ⟨last, sent, idle, port, reported⟩ :=
        sections_send (state.goto (.getTest (.putChar ch result))) true _ rfl empty
      exact ⟨last, found.sections (told.sections sent), idle, port, reported⟩

/-- Uninterrupted, the sections of `UartPort_PutChar` are the function. -/
theorem sections_putChar (state : TxState) (ready : Bool) (idle : state.phase = .idle)
    (ch : UInt8) :
    ∃ next last, state.step (.putChar ch) = some next ∧ Sections ready next last ∧
      last.phase = .idle ∧ last.port = (state.port.putChar ch ready).2 ∧
      last.accepted = state.accepted ++
        TxCall.reported (.putChar ch (state.port.putChar ch ready).1) := by
  have start := (Step.putChar idle ch).taken
  have choice : ∀ (choice : Bool) (first second : UartPort) (result : Bool),
      (if choice then (result, first) else (result, second)) =
        (result, if choice then first else second) := by
    intro choice first second result
    cases choice <;> rfl
  by_cases room : state.port.txCount < state.port.uartTxBuffer.buffSize.toNat
  · have put := @Step.putStored (state.goto (.putSection ch)) ready ch rfl room
    obtain ⟨last, sent, idle, port, reported⟩ := sections_afterPut { state with
      port := state.port.storedTxChar ch
      phase := .isEmptyTest (.putChar ch true)
      stored := state.stored ++ [ch] } ready ch true rfl
    simp only [UartPort.putChar, UartPort.putTxChar_of_room _ _ room, choice]
    exact ⟨_, last, start, put.sections sent, idle, port, reported⟩
  · have put := @Step.putRefused (state.goto (.putSection ch)) ready ch rfl room
    obtain ⟨last, sent, idle, port, reported⟩ := sections_afterPut { state with
      port := state.port.refusedTxChar
      phase := .isEmptyTest (.putChar ch false) } ready ch false rfl
    simp only [UartPort.putChar, UartPort.putTxChar_of_full _ _ room, choice]
    exact ⟨_, last, start, put.sections sent, idle, port, reported⟩

end TxState

/-! ### Calls that nothing interrupts -/

namespace PortInput

/-- A call of the task that transmits, with data if it has some to write, or a Tx-complete
interrupt. -/
def Transmits : PortInput → Prop
  | .writeData data => data ≠ []
  | .putChar _ _ | .txCplt => True
  | _ => False

/-- The events of an input when nothing comes in between: the call and its next sections, or
the interrupt. `UartPort_WriteData` does not look at the state of the handle. -/
def events (turns : Nat) : PortInput → List TxEvent
  | .writeData data => .writeData data :: List.replicate turns (.task false)
  | .putChar ch ready => .putChar ch :: List.replicate turns (.task ready)
  | .txCplt => [.txCplt]
  | _ => []

/-- The bytes that the reply to a call reports as accepted. -/
def reported : PortInput → PortReply → List UInt8
  | .writeData data, .count cnt => TxCall.reported (.writeData data cnt)
  | .putChar ch _, .result result => TxCall.reported (.putChar ch result)
  | _, _ => []

end PortInput

namespace TxState

variable {state last : TxState} {call : PortInput}

/-- The task is between two calls, and the handler can run. -/
structure Between (state : TxState) : Prop where
  idle : state.phase = .idle
  enabled : state.port.machine.primask = false

/-- The port has made one call, and the task has reported what it returned. -/
structure Replied (state : TxState) (call : PortInput) (last : TxState) : Prop extends
    Between last where
  port : last.port = (state.port.reply call).2
  accepted : last.accepted = state.accepted ++ call.reported (state.port.reply call).1

/-- A call that nothing interrupts comes to its end, by its own sections. -/
theorem run_reply (between : Between state) (transmits : call.Transmits) :
    ∃ turns last, Runs.run step state (call.events turns) = some last ∧
      Replied state call last := by
  cases call with
  | writeData data =>
    obtain ⟨⟨cnt, port⟩, written⟩ : ∃ result, state.port.writeData data = some result :=
      ⟨_, if_neg transmits⟩
    obtain ⟨next, last, start, sections, idle, same, accepted⟩ :=
      sections_writeData state false between.idle data cnt port written
    obtain ⟨turns, reached⟩ := sections.run
    have reply : state.port.reply (.writeData data) = (.count cnt, port) := by
      rw [UartPort.reply, written]
    refine ⟨turns, last, (Runs.run_cons_of_step start _).trans reached, ⟨idle, ?_⟩, ?_, ?_⟩
    · rw [same]
      exact UartPort.writeData_primask written
    · rw [same, reply]
    · rw [accepted, reply]
      rfl
  | putChar ch ready =>
    obtain ⟨next, last, start, sections, idle, same, accepted⟩ :=
      sections_putChar state ready between.idle ch
    obtain ⟨turns, reached⟩ := sections.run
    refine ⟨turns, last, (Runs.run_cons_of_step start _).trans reached, ⟨idle, ?_⟩, same, accepted⟩
    rw [same]
    exact state.port.putChar_primask ch ready
  | txCplt =>
    have taken : state.step .txCplt = some state.txCplt := by
      rw [step, between.enabled]
      rfl
    refine ⟨0, state.txCplt, (Runs.run_cons_of_step taken []).trans rfl, ⟨between.idle, ?_⟩, rfl,
      (List.append_nil _).symm⟩
    show state.port.transmitted.txCpltCallbck.machine.primask = false
    rw [UartPort.txCpltCallbck]
    split
    · exact between.enabled
    · exact state.port.transmitted.sendTxChar_primask between.enabled
  | writeString | getChar | readData | readString | setCallbackFunction | rxCplt =>
    exact absurd transmits not_false

/-- Calls that nothing interrupts come to their ends one after the other. -/
theorem exists_replies {calls : List PortInput} (between : Between state)
    (transmit : ∀ call ∈ calls, call.Transmits) :
    ∃ turns last, turns.length = calls.length ∧
      Runs.run step state (List.zipWith PortInput.events turns calls).flatten = some last ∧
      Between last ∧ last.port = Runs.after UartPort.respond state.port calls ∧
      last.accepted = state.accepted ++
        (List.zipWith (fun call answer => call.reported answer.reply) calls
          (Runs.answers UartPort.respond state.port calls)).flatten := by
  induction calls generalizing state with
  | nil => exact ⟨[], state, rfl, rfl, between, rfl, (List.append_nil _).symm⟩
  | cons call rest inductionHypothesis =>
    obtain ⟨head, tail⟩ := List.forall_mem_cons.mp transmit
    obtain ⟨count, next, reached, replied⟩ := run_reply between head
    obtain ⟨turns, last, length, goesOn, ends, port, accepted⟩ :=
      inductionHypothesis replied.toBetween tail
    rw [replied.port] at port accepted
    refine ⟨count :: turns, last, congrArg Nat.succ length, ?_, ends, port, ?_⟩
    · rw [List.zipWith_cons_cons, List.flatten_cons, Runs.run_append, reached]
      exact goesOn
    · rw [accepted, replied.accepted, List.append_assoc]
      rfl

/-- A task between two calls has no section to run. -/
theorem run_task_of_idle (idle : state.phase = .idle) (ready : Bool) (rest : List TxEvent) :
    Runs.run step state (.task ready :: rest) = none := by
  rw [Runs.run, step, taskStep, idle]
  rfl

/-- However many sections are asked for, a call returns in one state only. -/
theorem sections_determined {ready : Bool} {other : TxState} (turns counts : Nat)
    (reached : Runs.run step state (List.replicate turns (.task ready)) = some last)
    (returned : last.phase = .idle)
    (reached' : Runs.run step state (List.replicate counts (.task ready)) = some other)
    (returned' : other.phase = .idle) : other = last := by
  induction turns generalizing state counts with
  | zero =>
    cases reached
    cases counts with
    | zero => exact (Option.some.inj reached').symm
    | succ counts =>
      rw [List.replicate_succ, run_task_of_idle returned] at reached'
      cases reached'
  | succ turns inductionHypothesis =>
    cases counts with
    | zero =>
      cases reached'
      rw [List.replicate_succ, run_task_of_idle returned'] at reached
      cases reached
    | succ counts =>
      obtain ⟨next, taken, reached⟩ := Runs.run_cons_eq_some.mp reached
      rw [List.replicate_succ, Runs.run_cons_of_step taken] at reached'
      exact inductionHypothesis counts reached reached'

theorem reply_determined {other : TxState} (call : PortInput) (turns counts : Nat)
    (reached : Runs.run step state (call.events turns) = some last)
    (returned : last.phase = .idle)
    (reached' : Runs.run step state (call.events counts) = some other)
    (returned' : other.phase = .idle) : other = last := by
  cases call with
  | writeData data =>
    obtain ⟨next, taken, reached⟩ := Runs.run_cons_eq_some.mp reached
    rw [PortInput.events, Runs.run_cons_of_step taken] at reached'
    exact sections_determined turns counts reached returned reached' returned'
  | putChar ch ready =>
    obtain ⟨next, taken, reached⟩ := Runs.run_cons_eq_some.mp reached
    rw [PortInput.events, Runs.run_cons_of_step taken] at reached'
    exact sections_determined turns counts reached returned reached' returned'
  | txCplt | writeString | getChar | readData | readString | setCallbackFunction | rxCplt =>
    exact Option.some.inj (reached'.symm.trans reached)

/-- A call that has not returned keeps the task from every other one. -/
theorem phase_of_run {calls : List PortInput} {turns : List Nat} (busy : state.phase ≠ .idle)
    (reached : Runs.run step state (List.zipWith PortInput.events turns calls).flatten =
      some last) : last.phase = state.phase := by
  induction calls generalizing state turns with
  | nil =>
    rw [List.zipWith_nil_right] at reached
    exact congrArg phase (Option.some.inj reached).symm
  | cons call rest inductionHypothesis =>
    cases turns with
    | nil => exact congrArg phase (Option.some.inj reached).symm
    | cons count turns =>
      rw [List.zipWith_cons_cons, List.flatten_cons] at reached
      cases call with
      | writeData data =>
        obtain ⟨next, taken, -⟩ := Runs.run_cons_eq_some.mp reached
        cases step_cases taken with
        | writeNothing idle => exact absurd idle busy
        | writeData idle => exact absurd idle busy
      | putChar ch ready =>
        obtain ⟨next, taken, -⟩ := Runs.run_cons_eq_some.mp reached
        cases step_cases taken with
        | putChar idle => exact absurd idle busy
      | txCplt =>
        obtain ⟨next, taken, reached⟩ := Runs.run_cons_eq_some.mp reached
        cases step_cases taken with
        | txCplt enabled => exact @inductionHypothesis state.txCplt turns busy reached
      | writeString | getChar | readData | readString | setCallbackFunction | rxCplt =>
        exact inductionHypothesis busy reached

/-- However the sections are shared out, the calls all return in one state only. -/
theorem replies_determined {other : TxState} (calls : List PortInput) (turns counts : List Nat)
    (length : turns.length = calls.length)
    (reached : Runs.run step state (List.zipWith PortInput.events turns calls).flatten = some last)
    (returned : last.phase = .idle) (length' : counts.length = calls.length)
    (reached' : Runs.run step state (List.zipWith PortInput.events counts calls).flatten =
      some other) (returned' : other.phase = .idle) : other = last := by
  induction calls generalizing state turns counts with
  | nil =>
    rw [List.zipWith_nil_right] at reached reached'
    exact Option.some.inj (reached'.symm.trans reached)
  | cons call rest inductionHypothesis =>
    obtain ⟨turn, turns, rfl⟩ := List.exists_cons_of_length_eq_add_one length
    obtain ⟨count, counts, rfl⟩ := List.exists_cons_of_length_eq_add_one length'
    rw [List.zipWith_cons_cons, List.flatten_cons, Runs.run_append, Option.bind_eq_some_iff]
      at reached reached'
    obtain ⟨next, first, reached⟩ := reached
    obtain ⟨next', first', reached'⟩ := reached'
    have idle : next.phase = .idle := by
      by_contra busy
      exact busy ((phase_of_run busy reached).symm.trans returned)
    have idle' : next'.phase = .idle := by
      by_contra busy
      exact busy ((phase_of_run busy reached').symm.trans returned')
    obtain rfl : next' = next := reply_determined call turn count first idle first' idle'
    exact inductionHypothesis turns counts (Nat.succ.inj length) reached (Nat.succ.inj length')
      reached'

/-- Calls and interrupts that follow one another, none inside a call, do what the functions do:
their own sections, and no other step, lead to the port that has answered them, and what the
answers report has been accepted. However many sections each call is given, there is no other
state in which all of them have returned. -/
theorem run_replies (state : TxState) (between : Between state) (calls : List PortInput)
    (transmit : ∀ call ∈ calls, call.Transmits) :
    ∃ last, Between last ∧ last.port = Runs.after UartPort.respond state.port calls ∧
      last.accepted = state.accepted ++
        (List.zipWith (fun call answer => call.reported answer.reply) calls
          (Runs.answers UartPort.respond state.port calls)).flatten ∧
      (∃ turns : List Nat, turns.length = calls.length ∧
        Runs.run step state (List.zipWith PortInput.events turns calls).flatten = some last) ∧
      ∀ (turns : List Nat) other, turns.length = calls.length →
        Runs.run step state (List.zipWith PortInput.events turns calls).flatten = some other →
          other.phase = .idle → other = last := by
  obtain ⟨turns, last, length, reached, ends, port, accepted⟩ := exists_replies between transmit
  refine ⟨last, ends, port, accepted, ⟨turns, length, reached⟩, fun counts other length' => ?_⟩
  exact replies_determined calls turns counts length reached ends.idle length'

/-- `AB` is written, `A` is sent, and `C` is put while `B` is being sent. -/
theorem run_replies_three : ∃ last turns,
    Runs.run step (start .fresh) (List.zipWith PortInput.events turns
      [.writeData [65, 66], .txCplt, .putChar 67 false]).flatten = some last ∧
    last.accepted = [65, 66, 67] ∧ last.port.handle.wire = [65] ∧
    last.port.handle.transmission = some 66 ∧ last.port.txContents = [67] := by
  obtain ⟨last, -, port, accepted, ⟨turns, -, reached⟩, -⟩ := run_replies (start .fresh) ⟨rfl, rfl⟩
    [.writeData [65, 66], .txCplt, .putChar 67 false] (by simp [PortInput.Transmits])
  refine ⟨last, turns, reached, accepted, ?_, ?_, ?_⟩
  all_goals
    rw [port]
    rfl

end TxState

end RtpLib
