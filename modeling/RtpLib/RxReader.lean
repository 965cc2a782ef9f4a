/-
This file settles the receive ring, with one producer and one consumer. The
Rx-complete handler puts each received byte, run to completion; the task gets
bytes, and its `RingBuffer_GetChar` is cut between the emptiness test and the
critical section. Any number of runs of the handler fall in between.

Unlike the transmit ring, nobody else takes bytes: a byte found by the test is
still there when the section is entered, and the ring stays a queue.

The histories are the puts with their results and the room they found, the bytes that
successful calls yielded, and for each call its result with what the ring held at its
test.
-/

import RtpLib.UartPort
import RtpLib.Runs

namespace RtpLib

/-- A put of the handler: its byte, its result, and how many bytes there was room for. -/
structure RxPut where
  ch : UInt8
  result : Bool
  room : Nat

/-- The port, what the ring held at the emptiness test of the `RingBuffer_GetChar` in progress,
and the histories. -/
structure RxState where
  port : UartPort
  tested : Option (List UInt8)
  puts : List RxPut
  yielded : List UInt8
  reports : List (Bool × List UInt8)

inductive RxEvent
  /-- A byte is received and the Rx-complete handler runs. -/
  | rxCplt (ch : UInt8)
  /-- The emptiness test of `RingBuffer_GetChar`. -/
  | getTest
  /-- Its critical section. -/
  | getSection

namespace RxEvent

/-- The byte that the handler puts. -/
def put : RxEvent → Option UInt8
  | .rxCplt ch => some (if ch = newline then 0 else ch)
  | _ => none

/-- A call begins. -/
def call : RxEvent → Bool
  | .getTest => true
  | _ => false

end RxEvent

namespace RxState

/-- The bytes whose put was accepted. -/
def stored (state : RxState) : List UInt8 := (state.puts.filter RxPut.result).map RxPut.ch

/-- A run of the Rx-complete handler, recorded. -/
def rxCplt (state : RxState) (ch : UInt8) : Option RxState :=
  (state.port.receive ch).rxAnnounce.map fun (announced, port) =>
    let (result, next) := port.rxStore announced
    { state with
      port := next
      puts := state.puts ++ [{
        ch := port.rxChar
        result := result
        room := port.uartRxBuffer.buffSize.toNat - port.rxCount }] }

/-- The emptiness test; the call fails here or goes on to its section. -/
def getTest (state : RxState) : RxState :=
  if state.port.uartRxBuffer.isEmpty then
    { state with reports := state.reports ++ [(false, state.port.rxContents)] }
  else { state with tested := some state.port.rxContents }

/-- The critical section; the call succeeds. -/
def getSection (state : RxState) (found : List UInt8) : RxState :=
  let (ch, port) := state.port.takeRxChar
  { state with
    port := port
    tested := none
    yielded := state.yielded ++ [ch]
    reports := state.reports ++ [(true, found)] }

/-- One event; the handler runs only where interrupts are enabled. -/
def step (state : RxState) : RxEvent → Option RxState
  | .rxCplt ch => if state.port.machine.primask then none else state.rxCplt ch
  | .getTest => if state.tested.isSome then none else some state.getTest
  | .getSection => state.tested.map state.getSection

/-- The state before the first event. -/
def start (port : UartPort) : RxState := ⟨port, none, [], [], []⟩

/-- The receive ring is a queue: the bytes yielded and the bytes queued are the bytes stored,
in order; the counter is within the capacity; and a call reports failure only if the ring was
empty at its test. Nothing is refused without need: a put is accepted when there is room, a call
succeeds when the ring was not empty at its test, and yields one byte. -/
structure QueueSound (state : RxState) : Prop where
  balance : state.yielded ++ state.port.rxContents = state.stored
  bounded : state.port.rxCount ≤ state.port.uartRxBuffer.buffSize.toNat
  failed : ∀ report ∈ state.reports, report.1 = false → report.2 = []
  accepted : ∀ put ∈ state.puts, put.result = true ↔ 0 < put.room
  succeeded : ∀ report ∈ state.reports, report.2 ≠ [] → report.1 = true
  yields : state.yielded.length = state.reports.countP Prod.fst

/-- What every event keeps. -/
structure Reading (state : RxState) : Prop where
  ledger : Ledger state.port.uartRxBuffer state.port.machine.memory state.stored state.yielded
  held : state.tested ≠ none → state.port.rxCount ≠ 0
  reported : ∀ report ∈ state.reports, report.1 = false ↔ report.2 = []
  found : ∀ found ∈ state.tested, found ≠ []
  accepted : ∀ put ∈ state.puts, put.result = true ↔ 0 < put.room
  yields : state.yielded.length = state.reports.countP Prod.fst

namespace Reading

variable {state next : RxState}

theorem queueSound (reading : Reading state) : QueueSound state where
  balance := reading.ledger.balance
  bounded := reading.ledger.valid.count_le
  failed report listed := (reading.reported report listed).mp
  accepted := reading.accepted
  succeeded report listed nonempty :=
    Bool.eq_true_of_not_eq_false fun failed =>
      nonempty ((reading.reported report listed).mp failed)
  yields := reading.yields

/-- The bytes stored after one more put. -/
theorem stored_concat (puts : List RxPut) (put : RxPut) :
    ((puts ++ [put]).filter RxPut.result).map RxPut.ch =
      if put.result then (puts.filter RxPut.result).map RxPut.ch ++ [put.ch]
      else (puts.filter RxPut.result).map RxPut.ch := by
  rw [List.filter_append, List.map_append]
  cases accepted : put.result with
  | true => rw [List.filter_cons_of_pos accepted, if_pos rfl, List.filter_nil, List.map_singleton]
  | false =>
    rw [List.filter_cons_of_neg (Bool.eq_false_iff.mp accepted), if_neg Bool.false_ne_true,
      List.filter_nil, List.map_nil, List.append_nil]

/-- The handler's put is accepted exactly when there is room. -/
theorem rxStore_result_iff (port : UartPort) (announced : Bool) :
    (port.rxStore announced).1 = true ↔
      0 < port.uartRxBuffer.buffSize.toNat - port.rxCount := by
  rw [Nat.sub_pos_iff_lt]
  by_cases room : port.rxCount < port.uartRxBuffer.buffSize.toNat
  · exact iff_of_true (port.rxStore_of_room announced room).1 room
  · exact iff_of_false (Bool.eq_false_iff.mp (port.rxStore_of_full announced room).1) room

/-- The producer only adds to the queue, or is refused. -/
theorem rxCplt (reading : Reading state) (ch : UInt8) (handled : state.rxCplt ch = some next) :
    Reading next := by
  obtain ⟨⟨announced, port⟩, announcement, rfl⟩ := Option.map_eq_some_iff.mp handled
  have announced_port := (UartPort.rxAnnounce_eq_some announcement).2
  have same_ring : port.uartRxBuffer = state.port.uartRxBuffer := by rw [announced_port]; rfl
  have same_memory : port.machine.memory = state.port.machine.memory := by
    rw [announced_port]; rfl
  have accepted : ∀ put ∈ state.puts ++ [RxPut.mk port.rxChar (port.rxStore announced).1
      (port.uartRxBuffer.buffSize.toNat - port.rxCount)], put.result = true ↔ 0 < put.room := by
    intro put listed
    rcases List.mem_append.mp listed with earlier | latest
    · exact reading.accepted put earlier
    · rw [List.mem_singleton.mp latest]
      exact rxStore_result_iff port announced
  by_cases room : port.rxCount < port.uartRxBuffer.buffSize.toNat
  · obtain ⟨stored, ring, memory⟩ := port.rxStore_of_room announced room
    refine ⟨?_, fun pending => ?_, reading.reported, reading.found, accepted, reading.yields⟩
    · rw [RxState.stored, stored_concat, if_pos stored, ring, memory, same_ring, same_memory]
      rw [UartPort.rxCount, same_ring] at room
      exact reading.ledger.pushed room port.rxChar
    · show (port.rxStore announced).2.uartRxBuffer.elementsCnt.toNat ≠ 0
      rw [ring, RingBuffer.pushed_count _ room]
      exact Nat.succ_ne_zero _
  · obtain ⟨refused, ring, memory⟩ := port.rxStore_of_full announced room
    refine ⟨?_, fun pending => ?_, reading.reported, reading.found, accepted, reading.yields⟩
    · rw [RxState.stored, stored_concat, if_neg (Bool.eq_false_iff.mp refused), ring, memory,
        same_ring, same_memory]
      exact reading.ledger
    · show (port.rxStore announced).2.uartRxBuffer.elementsCnt.toNat ≠ 0
      rw [ring, same_ring]
      exact reading.held pending

theorem getTest (reading : Reading state) : Reading state.getTest := by
  unfold RxState.getTest
  split
  · rename_i empty
    refine ⟨reading.ledger, reading.held, fun report listed => ?_, reading.found,
      reading.accepted, ?_⟩
    · rcases List.mem_append.mp listed with earlier | latest
      · exact reading.reported report earlier
      · rw [List.mem_singleton.mp latest]
        exact iff_of_true rfl ((RingBuffer.isEmpty_iff_contents _ _).mp empty)
    · rw [List.countP_append, ← reading.yields]
      rfl
  · rename_i nonempty
    refine ⟨reading.ledger, fun _ empty => nonempty (state.port.rx_isEmpty_iff.mpr empty),
      reading.reported, fun found tested nothing => ?_, reading.accepted, reading.yields⟩
    obtain rfl := Option.some.inj tested
    exact nonempty ((RingBuffer.isEmpty_iff_contents _ _).mpr nothing)

/-- The consumer finds the byte its test has seen. -/
theorem getSection (reading : Reading state) (found : List UInt8)
    (pending : state.tested = some found) : Reading (state.getSection found) := by
  have nonempty := reading.held (by rw [pending]; exact Option.some_ne_none _)
  refine ⟨reading.ledger.popped nonempty, fun again => absurd rfl again, fun report listed => ?_,
    nofun, reading.accepted, ?_⟩
  · rcases List.mem_append.mp listed with earlier | latest
    · exact reading.reported report earlier
    · rw [List.mem_singleton.mp latest]
      exact iff_of_false nofun (reading.found found pending)
  · show (state.yielded ++ [_]).length = (state.reports ++ [_]).countP _
    rw [List.countP_append, List.length_append, reading.yields]
    rfl

theorem step {event : RxEvent} (reading : Reading state) (taken : state.step event = some next) :
    Reading next := by
  cases event with
  | rxCplt ch =>
    simp only [RxState.step] at taken
    split at taken
    · cases taken
    · exact reading.rxCplt ch taken
  | getTest =>
    simp only [RxState.step] at taken
    split at taken
    · cases taken
    · cases taken
      exact reading.getTest
  | getSection =>
    obtain ⟨found, pending, rfl⟩ := Option.map_eq_some_iff.mp taken
    exact reading.getSection found pending

end Reading

/-- The histories of a run: a put for each byte received, and a report for each call but the one
in progress. -/
theorem histories_of_run {state last : RxState} {events : List RxEvent}
    (reached : Runs.run step state events = some last) :
    last.puts.map RxPut.ch = state.puts.map RxPut.ch ++ events.filterMap RxEvent.put ∧
      last.reports.length + last.tested.toList.length =
        state.reports.length + state.tested.toList.length + events.countP RxEvent.call := by
  induction events generalizing state with
  | nil =>
    cases reached
    exact ⟨(List.append_nil _).symm, rfl⟩
  | cons event rest inductionHypothesis =>
    obtain ⟨next, taken, reached⟩ := Runs.run_cons_eq_some.mp reached
    obtain ⟨puts, reports⟩ := inductionHypothesis reached
    rw [puts, reports]
    cases event with
    | rxCplt ch =>
      simp only [RxState.step] at taken
      split at taken
      · cases taken
      · obtain ⟨⟨announced, port⟩, announcement, rfl⟩ := Option.map_eq_some_iff.mp taken
        have put : RxEvent.put (.rxCplt ch) = some port.rxChar := by
          rw [(UartPort.rxAnnounce_eq_some announcement).2]
          rfl
        refine ⟨?_, rfl⟩
        rw [List.filterMap_cons_some put, List.map_append, List.append_assoc]
        rfl
    | getTest =>
      simp only [RxState.step] at taken
      split at taken
      · cases taken
      · rename_i idle
        have idle : state.tested = none := Option.not_isSome_iff_eq_none.mp idle
        cases taken
        rw [List.countP_cons_of_pos rfl, RxState.getTest]
        split
        · refine ⟨rfl, ?_⟩
          rw [List.length_append, idle]
          show _ + 1 + 0 + _ = _ + 0 + (_ + 1)
          omega
        · refine ⟨rfl, ?_⟩
          rw [idle]
          show state.reports.length + 1 + _ = state.reports.length + 0 + (_ + 1)
          omega
    | getSection =>
      obtain ⟨found, pending, rfl⟩ := Option.map_eq_some_iff.mp taken
      rw [List.countP_cons_of_neg Bool.false_ne_true, pending]
      refine ⟨rfl, ?_⟩
      show (state.reports ++ [_]).length + 0 + _ = _ + 1 + _
      rw [List.length_append]
      rfl

/-- In every run from an initialised receive ring, wherever the handler runs, the ring is a
queue in every state, with a put for each byte received and a report for each call. -/
theorem queueSound_everyState (buffer : Nat) (bufferSize : UInt32) (port : UartPort)
    (initialised : RingBuffer.init buffer bufferSize = some port.uartRxBuffer)
    (events : List RxEvent) :
    Runs.EveryState step QueueSound (start port) events ∧
      ∀ last, Runs.run step (start port) events = some last →
        last.puts.map RxPut.ch = events.filterMap RxEvent.put ∧
          last.reports.length + last.tested.toList.length = events.countP RxEvent.call := by
  have reading : Reading (start port) :=
    ⟨Ledger.init initialised, fun pending => absurd rfl pending,
      fun _ listed => absurd listed List.not_mem_nil, nofun,
      fun _ listed => absurd listed List.not_mem_nil, rfl⟩
  refine ⟨Runs.everyState_of_step (fun _ => Reading.queueSound)
    (fun _ _ _ reading taken => reading.step taken) reading events, fun last reached => ?_⟩
  obtain ⟨puts, reports⟩ := histories_of_run reached
  exact ⟨puts, reports.trans (Nat.zero_add _)⟩

/-- Two bytes received around a test of the consumer, and one read. -/
theorem queueSound_everyState_fresh :
    let events : List RxEvent :=
      [.getTest, .rxCplt 65, .getTest, .rxCplt 66, .getSection, .getTest, .getSection]
    Runs.EveryState step QueueSound (start .fresh) events ∧
      ∀ last, Runs.run step (start .fresh) events = some last →
        last.puts.map RxPut.ch = events.filterMap RxEvent.put ∧
          last.reports.length + last.tested.toList.length = events.countP RxEvent.call :=
  queueSound_everyState 2048 128 .fresh rfl _

end RxState

end RtpLib
