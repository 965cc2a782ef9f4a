/-
This file settles whether the announcement of a line runs ahead of the line. On a
newline the Rx-complete handler first calls the function that the application
has registered, and only then puts the terminator that stands for the newline on
the receive ring, ignoring whether there was room. So the handler is cut at that
call: while it is in progress, the function may read the ring; outside the
handler, the task may.

The announcements, the terminators stored and the terminators refused are
counted. They balance, with one more announcement while the function runs: so
every announcement is ahead of its terminator when it is made, and stays ahead
for good when the ring was full.
-/

import RtpLib.UartPort
import RtpLib.Runs

namespace RtpLib

/-- The Rx-complete handler: not running, or inside the function it has called, which may be
between the test and the section of a `RingBuffer_GetChar`. -/
inductive RxHandler
  | idle
  | inCallback (tested : Bool)

/-- The announcement being made, whose terminator is still to be put. -/
def RxHandler.pending : RxHandler → Nat
  | .idle => 0
  | .inCallback _ => 1

/-- The port, the handler, whether the task is between the test and the section of a
`RingBuffer_GetChar`, and the three counts. -/
structure AnnounceState where
  port : UartPort
  handler : RxHandler
  tested : Bool
  announced : Nat
  terminators : Nat
  refused : Nat

inductive AnnounceEvent
  /-- A byte is received; the handler runs to its end, or to the call on a newline. -/
  | rxCplt (ch : UInt8)
  /-- The function called returns, and the handler runs to its end. -/
  | callbackReturn
  /-- The emptiness test of a reader's `RingBuffer_GetChar`. -/
  | getTest
  /-- The critical section of a reader's `RingBuffer_GetChar`. -/
  | getSection

namespace AnnounceState

/-- Whether the reader that can run now is between its test and its section: the function
called by the handler, or else the task. -/
def readerTested (state : AnnounceState) : Bool :=
  match state.handler with
  | .idle => state.tested
  | .inCallback tested => tested

/-- The same reader gets past its test, or past its section. -/
def setReader (state : AnnounceState) (tested : Bool) : AnnounceState :=
  match state.handler with
  | .idle => { state with tested := tested }
  | .inCallback _ => { state with handler := .inCallback tested }

/-- The handler is entered with the received byte. -/
def rxCplt (state : AnnounceState) (ch : UInt8) : Option AnnounceState :=
  (state.port.receive ch).rxAnnounce.map fun (announced, port) =>
    if announced then
      { state with
        port := port
        handler := .inCallback false
        announced := state.announced + 1 }
    else { state with port := (port.rxStore false).2 }

/-- The handler goes on after the function it has called. -/
def callbackReturn (state : AnnounceState) : AnnounceState :=
  let (result, port) := state.port.rxStore true
  { state with
    port := port
    handler := .idle
    terminators := if result then state.terminators + 1 else state.terminators
    refused := if result then state.refused else state.refused + 1 }

/-- One event. The handler is entered only where interrupts are enabled and it is not running
already; the function it calls returns only after its own reads. -/
def step (state : AnnounceState) : AnnounceEvent → Option AnnounceState
  | .rxCplt ch =>
    match state.handler with
    | .idle => if state.port.machine.primask then none else state.rxCplt ch
    | .inCallback _ => none
  | .callbackReturn =>
    match state.handler with
    | .inCallback false => some state.callbackReturn
    | _ => none
  | .getTest =>
    if state.readerTested then none
    else if state.port.uartRxBuffer.isEmpty then some state
    else some (state.setReader true)
  | .getSection =>
    if state.readerTested then
      some { state.setReader false with port := state.port.takeRxChar.2 }
    else none

/-- The state before the first byte. -/
def start (port : UartPort) : AnnounceState := ⟨port, .idle, false, 0, 0, 0⟩

/-- As many terminators have been stored as lines have been announced. -/
def NotAhead (state : AnnounceState) : Prop := state.announced ≤ state.terminators

instance : DecidablePred NotAhead := fun _ => inferInstanceAs (Decidable (_ ≤ _))

/-- The byte received, if any, is no newline. -/
def NoNewline (_ : AnnounceState) : AnnounceEvent → Prop
  | .rxCplt ch => ch ≠ newline
  | _ => True

instance (state : AnnounceState) : DecidablePred (NoNewline state)
  | .rxCplt _ => inferInstanceAs (Decidable (_ ≠ _))
  | .callbackReturn | .getTest | .getSection => isTrue trivial

/-- The account of the announcements. -/
def Accounted (state : AnnounceState) : Prop :=
  state.announced = state.terminators + state.refused + state.handler.pending

/-- What a step can do to the counts. -/
inductive Counted (state next : AnnounceState) : AnnounceEvent → Prop
  /-- A newline is announced. -/
  | announced (outside : state.handler.pending = 0) (inside : next.handler.pending = 1)
      (announced : next.announced = state.announced + 1)
      (terminators : next.terminators = state.terminators)
      (refused : next.refused = state.refused) : Counted state next (.rxCplt newline)
  /-- The terminator of the newline announced is put, and stored or refused. -/
  | stored (inside : state.handler.pending = 1) (outside : next.handler.pending = 0)
      (announced : next.announced = state.announced)
      (put : next.terminators = state.terminators + 1 ∧ next.refused = state.refused ∨
        next.terminators = state.terminators ∧ next.refused = state.refused + 1) :
      Counted state next .callbackReturn
  /-- Nothing is counted. -/
  | same (event : AnnounceEvent) (quiet : NoNewline state event)
      (handler : next.handler.pending = state.handler.pending)
      (announced : next.announced = state.announced)
      (terminators : next.terminators = state.terminators)
      (refused : next.refused = state.refused) : Counted state next event

theorem setReader_handler (state : AnnounceState) (tested : Bool) :
    (state.setReader tested).handler.pending = state.handler.pending ∧
      (state.setReader tested).announced = state.announced ∧
      (state.setReader tested).terminators = state.terminators ∧
      (state.setReader tested).refused = state.refused := by
  unfold setReader
  split
  · exact ⟨rfl, rfl, rfl, rfl⟩
  · rename_i inside
    exact ⟨by rw [inside]; rfl, rfl, rfl, rfl⟩

/-- Entering the handler makes an announcement exactly on a newline. -/
theorem counted_rxCplt {state next : AnnounceState} {ch : UInt8}
    (outside : state.handler = .idle) (handled : state.rxCplt ch = some next) :
    Counted state next (.rxCplt ch) := by
  obtain ⟨⟨announced, port⟩, announcement, entered⟩ := Option.map_eq_some_iff.mp handled
  have on_newline := (UartPort.rxAnnounce_eq_some announcement).1
  cases announced with
  | true =>
    obtain rfl : ch = newline := of_decide_eq_true on_newline.symm
    cases entered
    exact .announced (by rw [outside]; rfl) rfl rfl rfl rfl
  | false =>
    cases entered
    exact .same _ (of_decide_eq_false on_newline.symm) rfl rfl rfl rfl

theorem counted_callbackReturn {state : AnnounceState}
    (inside : state.handler = .inCallback false) :
    Counted state state.callbackReturn .callbackReturn := by
  refine .stored (by rw [inside]; rfl) rfl rfl ?_
  unfold callbackReturn
  obtain ⟨result, port⟩ := state.port.rxStore true
  cases result with
  | true => exact .inl ⟨rfl, rfl⟩
  | false => exact .inr ⟨rfl, rfl⟩

theorem step_counted {state next : AnnounceState} {event : AnnounceEvent}
    (taken : state.step event = some next) : Counted state next event := by
  unfold step at taken
  split at taken
  · split at taken
    · rename_i outside
      split at taken
      · cases taken
      · exact counted_rxCplt outside taken
    · cases taken
  · split at taken
    · rename_i inside
      cases taken
      exact counted_callbackReturn inside
    · cases taken
  · split at taken
    · cases taken
    · split at taken
      · cases taken
        exact .same _ trivial rfl rfl rfl rfl
      · obtain ⟨handler, announced, terminators, refused⟩ := state.setReader_handler true
        cases taken
        exact .same _ trivial handler announced terminators refused
  · split at taken
    · obtain ⟨handler, announced, terminators, refused⟩ := state.setReader_handler false
      cases taken
      exact .same _ trivial handler announced terminators refused
    · cases taken

theorem accounted_step {state next : AnnounceState} {event : AnnounceEvent}
    (accounted : Accounted state) (taken : state.step event = some next) : Accounted next := by
  have accounted : state.announced = state.terminators + state.refused + _ := accounted
  show next.announced = next.terminators + next.refused + next.handler.pending
  cases step_counted taken with
  | announced outside inside announced terminators refused =>
    rw [announced, accounted, outside, inside, terminators, refused]
  | stored inside outside announced put =>
    rcases put with ⟨terminators, refused⟩ | ⟨terminators, refused⟩
    · rw [announced, accounted, outside, inside, terminators, refused]
      exact Nat.add_right_comm _ _ _
    · rw [announced, accounted, outside, inside, terminators, refused]
      exact Nat.add_assoc _ _ _
  | same _ _ handler announced terminators refused =>
    rw [announced, accounted, handler, terminators, refused]

/-- Without a newline, no announcement is made. -/
theorem notAhead_step {state next : AnnounceState} {event : AnnounceEvent}
    (together : NotAhead state) (quiet : NoNewline state event)
    (taken : state.step event = some next) : NotAhead next := by
  show next.announced ≤ next.terminators
  cases step_counted taken with
  | announced => exact absurd rfl quiet
  | stored _ _ announced put =>
    rcases put with ⟨terminators, _⟩ | ⟨terminators, _⟩
    · rw [announced, terminators]
      exact Nat.le_succ_of_le together
    · rw [announced, terminators]
      exact together
  | same _ _ _ announced terminators _ =>
    rw [announced, terminators]
    exact together

/-- A newline is announced ahead of its terminator. -/
theorem ahead_of_newline {state next : AnnounceState} {event : AnnounceEvent}
    (accounted : Accounted state) (ended : ¬ NoNewline state event)
    (taken : state.step event = some next) : ¬ NotAhead next := by
  have accounted : state.announced = state.terminators + state.refused + _ := accounted
  show ¬ next.announced ≤ next.terminators
  cases step_counted taken with
  | announced _ _ announced terminators _ =>
    rw [announced, terminators, accounted]
    omega
  | stored => exact absurd trivial ended
  | same _ quiet => exact absurd quiet ended

theorem accounted_start (port : UartPort) : Accounted (start port) := by
  show (0 : Nat) = 0 + 0 + 0
  rfl

/-- In every run the announcements balance with the terminators stored and refused, and with
the announcement being made. So outside the handler, the announcements that are ahead are
the ones whose terminator was refused. -/
theorem accounted_everyState (port : UartPort) (events : List AnnounceEvent) :
    Runs.EveryState step Accounted (start port) events :=
  Runs.everyState_of_step (fun _ accounted => accounted)
    (fun _ _ _ accounted taken => accounted_step accounted taken) (accounted_start port) events

/-- In every run, whatever is registered and whoever reads, the announcements are never ahead
of the terminators stored exactly when no newline is received. -/
theorem notAhead_iff (port : UartPort) (events : List AnnounceEvent) :
    Runs.EveryState step NotAhead (start port) events ↔
      Runs.EveryStep step NoNewline (start port) events := by
  have start : Accounted (start port) ∧ NotAhead (start port) :=
    ⟨accounted_start port, Nat.le_refl 0⟩
  refine Runs.everyState_iff_everyStep
    (fun state (both : Accounted state ∧ NotAhead state) => both.2)
    (fun _ _ _ both quiet taken => ?_)
    (fun _ _ _ both ended taken => ?_) events start
  · exact ⟨accounted_step both.1 taken, notAhead_step both.2 quiet taken⟩
  · exact ahead_of_newline both.1 ended taken

/-- The first line after a function is registered: when it is called, no terminator has been
stored. -/
theorem ahead_of_first_line :
    ¬ ∀ (txData rxData : Nat) (machine : Machine) (port registered : UartPort) (foo : Nat),
      UartPort.init txData rxData machine = some port →
        port.setCallbackFunction foo = some registered → ∀ events : List AnnounceEvent,
          Runs.EveryState step NotAhead (start registered) events := by
  intro claimed
  have together := claimed 1024 2048 ⟨fun _ => 0, false, []⟩ .fresh
    { UartPort.fresh with callback := 4096 } 4096 UartPort.init_fresh rfl
    [.rxCplt 65, .rxCplt newline]
  exact absurd together (by decide)

end AnnounceState

end RtpLib
