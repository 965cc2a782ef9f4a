/-
This file models the reading of lines with both its parties: the Rx-complete handler,
which puts a terminator for each newline and announces it, and a task that calls
`UartPort_ReadString` for each line announced. The call is cut at its looks at the
ring and its critical sections, and the handler runs wherever it may in between.

The handler runs to completion before the task can see anything of it, the callback
included. A zero byte that is received ends a line for the reader as a newline does,
but it is not announced. The bytes typed, the strings returned, the lines announced and
the length of the line that is being typed are records only.
-/

import RtpLib.ReadString
import RtpLib.Runs

namespace RtpLib

namespace LineReader

/-! ### The state -/

/-- Where the call of `UartPort_ReadString` stands, with its `cnt`. -/
inductive Phase
  /-- No call is under way. -/
  | idle
  /-- At the head of the loop. -/
  | looping (cnt : Nat)
  /-- In the loop, before the critical section of `RingBuffer_GetChar`. -/
  | taking (cnt : Nat)
  /-- Behind the loop. -/
  | ending (cnt : Nat)
  /-- Behind the loop, before the critical section of `RingBuffer_GetChar`. -/
  | dropping (cnt : Nat)

/-- The port, the call under way and its array. -/
structure System where
  port : UartPort
  phase : Phase
  data : DataArray
  typed : List UInt8
  strings : List (List UInt8)
  announced : Nat
  unended : Nat

/-- The state before the first byte. -/
def System.start (port : UartPort) : System where
  port := port
  phase := .idle
  data := .ofBytes fun _ => 0
  typed := []
  strings := []
  announced := 0
  unended := 0

inductive Event
  /-- A byte is received and the Rx-complete handler runs. -/
  | rxCplt (ch : UInt8)
  /-- `UartPort_ReadString` is called with an array. -/
  | call (bytes : Nat → UInt8)
  /-- The next step of the call. -/
  | next

/-- What the handler puts for a byte. -/
def terminated (ch : UInt8) : UInt8 := if ch = newline then 0 else ch

/-- The `cnt` of a call. -/
def Phase.cnt : Phase → Nat
  | .idle => 0
  | .looping cnt => cnt
  | .taking cnt => cnt
  | .ending cnt => cnt
  | .dropping cnt => cnt

namespace System

/-- The bytes that the call has taken. -/
def taken (state : System) : List UInt8 := (List.range state.phase.cnt).map state.data.bytes

/-! ### The steps -/

/-- A run of the Rx-complete handler. -/
def rxCplt (state : System) (ch : UInt8) : Option System :=
  (state.port.receive ch).rxCpltCallbck.map fun port =>
    { state with
      port := port
      typed := state.typed ++ [ch]
      announced := if ch = newline then state.announced + 1 else state.announced
      unended := if terminated ch = 0 then 0 else state.unended + 1 }

/-- A call begins. -/
def call (state : System) (bytes : Nat → UInt8) : System :=
  { state with phase := .looping 0, data := .ofBytes bytes }

/-- A call returns. -/
def returns (state : System) (cnt : Nat) : System :=
  { state with
    phase := .idle
    strings := state.strings ++ [(List.range cnt).map state.data.bytes] }

/-- The condition of the loop, with the emptiness test of `RingBuffer_GetChar`. -/
def loop (maxDataSize : Nat) (state : System) (cnt : Nat) : System :=
  if cnt + 1 < maxDataSize ∧ state.port.uartRxBuffer.isEmpty = false then
    { state with phase := .taking cnt }
  else { state with phase := .ending cnt }

/-- The critical section in the loop, and what becomes of its byte. -/
def take (state : System) (cnt : Nat) : System :=
  let ch := state.port.takeRxChar.1
  let state := { state with port := state.port.takeRxChar.2, data := state.data.set cnt ch }
  if ch = 0 then state.returns (cnt + 1) else { state with phase := .looping (cnt + 1) }

/-- The end of the function, behind the last `RingBuffer_GetChar`. -/
def finish (state : System) (cnt : Nat) : System :=
  System.returns { state with data := state.data.set (cnt + 1) 0 } (cnt + 1)

/-- The next step of the call. -/
def next (maxDataSize : Nat) (state : System) : Option System :=
  match state.phase with
  | .idle => none
  | .looping cnt => some (state.loop maxDataSize cnt)
  | .taking cnt => some (state.take cnt)
  | .ending cnt =>
    some (if state.port.uartRxBuffer.isEmpty then state.finish cnt
      else { state with phase := .dropping cnt })
  | .dropping cnt => some (System.finish { state with port := state.port.takeRxChar.2 } cnt)

end System

/-- One event; a byte is received only while reception is armed and interrupts are enabled. -/
def step (maxDataSize : Nat) (state : System) : Event → Option System
  | .rxCplt ch =>
    if state.port.handle.reception = true ∧ state.port.machine.primask = false then
      state.rxCplt ch
    else none
  | .call bytes =>
    match state.phase with
    | .idle => some (state.call bytes)
    | _ => none
  | .next => state.next maxDataSize

/-! ### What is settled -/

/-- The complete lines of what was typed: what lies before each newline and each zero byte. -/
def lines (typed : List UInt8) : List (List UInt8) :=
  (typed.splitOnP fun ch => terminated ch == 0).dropLast

/-- The call, if there is one, is in its loop, and has not left it for want of a byte or of room. -/
def Phase.InLoop : Phase → Prop
  | .ending _ => False
  | .dropping _ => False
  | _ => True

/-- Every string returned is a line with its terminator, the strings, the bytes taken and the ring
are together what was typed, and no call has written outside its array. -/
structure System.Accounts (maxDataSize : Nat) (state : System) : Prop where
  ended : ∀ string ∈ state.strings, ∃ body, string = body ++ [0] ∧ 0 ∉ body
  account : state.strings.flatten ++ (state.taken ++ state.port.rxContents) =
    state.typed.map terminated
  inside : ∀ index ∈ state.data.written, index < maxDataSize

/-- The strings returned are the first lines typed, each with its terminator, and the call ends a
line nowhere but at its terminator. -/
structure System.Delivers (maxDataSize : Nat) (state : System) : Prop
    extends state.Accounts maxDataSize where
  lines : state.strings = ((lines state.typed).take state.strings.length).map (· ++ [0])
  inLoop : state.phase.InLoop

/-- The ring has room for every byte, each line fits into the array, and each call is for a line
that has been announced. -/
def Orderly (maxDataSize : Nat) (state : System) : Event → Prop
  | .rxCplt ch => state.port.rxCount < state.port.uartRxBuffer.buffSize.toNat ∧
      (terminated ch = 0 ∨ state.unended + 3 ≤ maxDataSize)
  | .call _ => state.strings.length < state.announced
  | .next => True

instance (maxDataSize : Nat) (state : System) :
    ∀ event, Decidable (Orderly maxDataSize state event)
  | .rxCplt _ => inferInstanceAs (Decidable (_ ∧ _))
  | .call _ => inferInstanceAs (Decidable (_ < _))
  | .next => inferInstanceAs (Decidable True)

/-! ### The lines returned -/

theorem terminated_of_ne {ch : UInt8} (goesOn : terminated ch ≠ 0) : terminated ch = ch := by
  rw [terminated] at goesOn ⊢
  split
  · rename_i ends
    rw [if_pos ends] at goesOn
    exact absurd rfl goesOn
  · rfl

/-- The bytes before the first terminator are the first line. -/
theorem lines_append_cons {body tail : List UInt8} {ch : UInt8} (without : 0 ∉ body.map terminated)
    (ends : terminated ch = 0) : lines (body ++ ch :: tail) = body :: lines tail := by
  have letters : ∀ letter ∈ body, (terminated letter == 0) = false := by
    intro letter member
    refine beq_eq_false_iff_ne.mpr fun zero => without ?_
    rw [← zero]
    exact List.mem_map_of_mem member
  rw [lines, List.splitOnP_append_cons_of_forall_mem letters ch (beq_iff_eq.mpr ends),
    List.dropLast_cons_of_ne_nil (List.splitOnP_ne_nil _ _), lines]

/-- Strings that end with their only terminator, and that are together the first bytes put for what
was typed, are the first lines of it. -/
theorem strings_eq_lines {strings : List (List UInt8)} {left typed : List UInt8}
    (ended : ∀ string ∈ strings, ∃ body, string = body ++ [0] ∧ 0 ∉ body)
    (account : strings.flatten ++ left = typed.map terminated) :
    strings = ((lines typed).take strings.length).map (· ++ [0]) := by
  induction strings generalizing typed with
  | nil => rfl
  | cons string rest inductionHypothesis =>
    obtain ⟨⟨body, rfl, without⟩, later⟩ := List.forall_mem_cons.mp ended
    have cut : typed.map terminated = body ++ 0 :: (rest.flatten ++ left) := by
      rw [← account, List.flatten_cons, List.append_assoc, List.append_assoc]
      rfl
    obtain ⟨front, back, rfl, front_eq, back_eq⟩ := List.map_eq_append_iff.mp cut
    obtain ⟨ch, tail, rfl, ends, tail_eq⟩ := List.map_eq_cons_iff.mp back_eq
    have same : front.map terminated = front := by
      refine (List.map_congr_left fun letter member => terminated_of_ne fun zero => ?_).trans
        (List.map_id front)
      refine without (front_eq ▸ ?_)
      rw [← zero]
      exact List.mem_map_of_mem member
    rw [lines_append_cons (front_eq ▸ without) ends, List.length_cons, List.take_succ_cons,
      List.map_cons, ← inductionHypothesis later tail_eq.symm, ← front_eq, same]

/-! ### The lines ahead -/

/-- Lines with their terminators, one after the other. -/
def delimited (bodies : List (List UInt8)) : List UInt8 := bodies.flatMap (· ++ [0])

theorem delimited_concat (bodies : List (List UInt8)) (body : List UInt8) :
    delimited (bodies ++ [body]) = delimited bodies ++ (body ++ [0]) := by
  rw [delimited, List.flatMap_append, List.flatMap_singleton]
  rfl

/-- What has been taken of a line without its terminator leaves the rest of the line. -/
theorem exists_more {taken queue body tail : List UInt8} (without : 0 ∉ taken)
    (ahead : taken ++ queue = body ++ 0 :: tail) :
    ∃ more, body = taken ++ more ∧ queue = more ++ 0 :: tail := by
  rcases List.append_eq_append_iff.mp ahead with ⟨more, body_eq, queue_eq⟩ | ⟨excess, taken_eq, cut⟩
  · exact ⟨more, body_eq, queue_eq⟩
  · cases excess with
    | nil =>
      rw [List.append_nil] at taken_eq
      exact ⟨[], taken_eq ▸ (List.append_nil _).symm, cut.symm⟩
    | cons ch rest =>
      obtain rfl := (List.cons.inj cut).1
      exact absurd (taken_eq ▸ List.mem_append_right body List.mem_cons_self) without

/-! ### The invariant -/

/-- Where a call stands, a line is complete ahead of it, and it has not met the terminator. -/
def Phase.Sound (port : UartPort) (bodies : List (List UInt8)) (taken : List UInt8) :
    Phase → Prop
  | .idle => True
  | .looping _ => bodies ≠ [] ∧ 0 ∉ taken
  | .taking _ => bodies ≠ [] ∧ 0 ∉ taken ∧ port.rxCount ≠ 0
  | .ending _ => False
  | .dropping _ => False

/-- The bytes taken and the ring are complete lines that fit and a line that is being typed. -/
structure Ahead (maxDataSize : Nat) (bodies : List (List UInt8)) (rest : List UInt8)
    (state : System) : Prop where
  ahead : state.taken ++ state.port.rxContents = delimited bodies ++ rest
  complete : ∀ body ∈ bodies, 0 ∉ body ∧ body.length + 2 ≤ maxDataSize
  incomplete : 0 ∉ rest
  length : rest.length = state.unended
  short : state.unended + 2 ≤ maxDataSize
  announced : state.announced ≤ state.strings.length + bodies.length
  phase : state.phase.Sound state.port bodies state.taken

structure Invariant (maxDataSize : Nat) (state : System) : Prop where
  valid : state.port.uartRxBuffer.Valid
  ahead : ∃ bodies rest, Ahead maxDataSize bodies rest state
  accounts : state.Accounts maxDataSize

section Steps

variable {maxDataSize : Nat} {state next : System}

/-- What a run of the handler does to the ring. -/
theorem rxCpltCallbck_stores {port next : UartPort} {ch : UInt8}
    (valid : port.uartRxBuffer.Valid) (room : port.rxCount < port.uartRxBuffer.buffSize.toNat)
    (handled : (port.receive ch).rxCpltCallbck = some next) :
    next.uartRxBuffer.Valid ∧ next.rxContents = port.rxContents ++ [terminated ch] ∧
      next.rxCount ≠ 0 := by
  obtain ⟨⟨announced, middle⟩, announcement, rfl⟩ := Option.map_eq_some_iff.mp handled
  obtain ⟨-, rfl⟩ := UartPort.rxAnnounce_eq_some announcement
  obtain ⟨-, ring, memory⟩ := UartPort.rxStore_of_room
    { port.receive ch with rxChar := if (port.receive ch).rxChar = newline then 0
      else (port.receive ch).rxChar } announced room
  refine ⟨?_, ?_, ?_⟩
  · rw [ring]
    exact RingBuffer.valid_pushed _ valid room
  · rw [UartPort.rxContents, ring, memory]
    exact RingBuffer.contents_pushed _ valid room _ _
  · rw [UartPort.rxCount, ring]
    show port.uartRxBuffer.pushed.elementsCnt.toNat ≠ 0
    rw [RingBuffer.pushed_count _ room]
    exact Nat.succ_ne_zero _

/-- A byte more in the ring takes nothing from a call under way. -/
theorem Phase.Sound.stored {phase : Phase} {port next : UartPort}
    {bodies others : List (List UInt8)} {taken : List UInt8}
    (sound : phase.Sound port bodies taken) (some : bodies ≠ [] → others ≠ [])
    (nonempty : next.rxCount ≠ 0) : phase.Sound next others taken := by
  revert sound
  cases phase with
  | idle => exact id
  | looping cnt => exact And.imp_left some
  | taking cnt => exact fun sound => ⟨some sound.1, sound.2.1, nonempty⟩
  | ending cnt => exact id
  | dropping cnt => exact id

/-- A newline completes the line that is being typed. -/
theorem Ahead.lineEnd {bodies : List (List UInt8)} {rest : List UInt8} {port : UartPort}
    {ch : UInt8} (ahead : Ahead maxDataSize bodies rest state) (ended : terminated ch = 0)
    (queue : port.rxContents = state.port.rxContents ++ [terminated ch])
    (nonempty : port.rxCount ≠ 0) :
    Ahead maxDataSize (bodies ++ [rest]) [] { state with
      port := port
      typed := state.typed ++ [ch]
      announced := if ch = newline then state.announced + 1 else state.announced
      unended := if terminated ch = 0 then 0 else state.unended + 1 } where
  ahead := by
    show state.taken ++ port.rxContents = _
    rw [queue, ← List.append_assoc, ahead.ahead, ended, delimited_concat, List.append_nil,
      List.append_assoc]
  complete := by
    intro body member
    rcases List.mem_append.mp member with earlier | last
    · exact ahead.complete body earlier
    · obtain rfl := List.mem_singleton.mp last
      exact ⟨ahead.incomplete, ahead.length ▸ ahead.short⟩
  incomplete := List.not_mem_nil
  length := (if_pos ended).symm
  short := by
    show (if terminated ch = 0 then 0 else state.unended + 1) + 2 ≤ maxDataSize
    rw [if_pos ended]
    exact (Nat.add_le_add_right (Nat.zero_le _) 2).trans ahead.short
  announced := by
    have announced := ahead.announced
    show (if ch = _ then _ else _) ≤ state.strings.length + (bodies ++ [rest]).length
    rw [List.length_append, List.length_singleton]
    split <;> omega
  phase := ahead.phase.stored
    (fun _ => List.append_ne_nil_of_right_ne_nil _ (List.cons_ne_nil _ _)) nonempty

/-- Any other byte is the next one of the line that is being typed. -/
theorem Ahead.typed {bodies : List (List UInt8)} {rest : List UInt8} {port : UartPort}
    {ch : UInt8} (ahead : Ahead maxDataSize bodies rest state) (goesOn : terminated ch ≠ 0)
    (fits : state.unended + 3 ≤ maxDataSize)
    (queue : port.rxContents = state.port.rxContents ++ [terminated ch])
    (nonempty : port.rxCount ≠ 0) :
    Ahead maxDataSize bodies (rest ++ [ch]) { state with
      port := port
      typed := state.typed ++ [ch]
      announced := if ch = newline then state.announced + 1 else state.announced
      unended := if terminated ch = 0 then 0 else state.unended + 1 } := by
  have notNewline : ch ≠ newline := fun same => goesOn (if_pos same)
  have same : terminated ch = ch := if_neg notNewline
  rw [same] at goesOn queue
  refine ⟨?_, ahead.complete, ?_, ?_, ?_, ?_, ahead.phase.stored id nonempty⟩
  · show state.taken ++ port.rxContents = _
    rw [queue, ← List.append_assoc, ahead.ahead, List.append_assoc]
  · intro member
    rcases List.mem_append.mp member with earlier | last
    · exact ahead.incomplete earlier
    · exact goesOn (List.mem_singleton.mp last).symm
  · rw [same, if_neg goesOn, List.length_append, ahead.length]
    rfl
  · rw [same, if_neg goesOn]
    exact fits
  · rw [if_neg notNewline]
    exact ahead.announced

theorem Invariant.rxCplt (invariant : Invariant maxDataSize state) {ch : UInt8}
    (room : state.port.rxCount < state.port.uartRxBuffer.buffSize.toNat)
    (fits : terminated ch = 0 ∨ state.unended + 3 ≤ maxDataSize)
    (handled : state.rxCplt ch = some next) : Invariant maxDataSize next := by
  obtain ⟨port, callback, rfl⟩ := Option.map_eq_some_iff.mp handled
  obtain ⟨valid, ⟨bodies, rest, ahead⟩, accounts⟩ := invariant
  obtain ⟨valid, queue, nonempty⟩ := rxCpltCallbck_stores valid room callback
  refine ⟨valid, ?_, accounts.ended, ?_, accounts.inside⟩
  · by_cases ended : terminated ch = 0
    · exact ⟨_, _, ahead.lineEnd ended queue nonempty⟩
    · exact ⟨_, _, ahead.typed ended (fits.resolve_left ended) queue nonempty⟩
  · show state.strings.flatten ++ (state.taken ++ port.rxContents) = _
    rw [queue, ← List.append_assoc state.taken, ← List.append_assoc, accounts.account,
      List.map_append]
    rfl

theorem Invariant.call (invariant : Invariant maxDataSize state) (idle : state.phase = .idle)
    (announced : state.strings.length < state.announced) (bytes : Nat → UInt8) :
    Invariant maxDataSize (state.call bytes) := by
  obtain ⟨valid, ⟨bodies, rest, ahead⟩, accounts⟩ := invariant
  have nothing : state.taken = [] := by
    rw [System.taken, idle]
    rfl
  have lineAhead : bodies ≠ [] := by
    rintro rfl
    have counted := ahead.announced
    rw [List.length_nil] at counted
    omega
  refine ⟨valid, ⟨bodies, rest, ?_, ahead.complete, ahead.incomplete, ahead.length, ahead.short,
    ahead.announced, lineAhead, List.not_mem_nil⟩, accounts.ended, ?_, ?_⟩
  · have contents := ahead.ahead
    rwa [nothing] at contents
  · have account := accounts.account
    rwa [nothing] at account
  · exact fun index listed => absurd listed List.not_mem_nil

/-- The line that a call is reading. -/
theorem Ahead.front {bodies : List (List UInt8)} {rest : List UInt8}
    (ahead : Ahead maxDataSize bodies rest state) (some : bodies ≠ [])
    (without : 0 ∉ state.taken) :
    ∃ more others, bodies = (state.taken ++ more) :: others ∧
      state.port.rxContents = more ++ 0 :: (delimited others ++ rest) := by
  obtain ⟨body, others, rfl⟩ := List.exists_cons_of_ne_nil some
  have contents : state.taken ++ state.port.rxContents =
      body ++ 0 :: (delimited others ++ rest) := by
    rw [ahead.ahead]
    simp only [delimited, List.flatMap_cons, List.append_assoc, List.cons_append, List.nil_append]
  obtain ⟨more, rfl, queue⟩ := exists_more without contents
  exact ⟨more, others, rfl, queue⟩

/-- In the loop there is always another byte, and room for it. -/
theorem Invariant.loop (invariant : Invariant maxDataSize state) {cnt : Nat}
    (looping : state.phase = .looping cnt) :
    Invariant maxDataSize (state.loop maxDataSize cnt) := by
  obtain ⟨valid, ⟨bodies, rest, ahead⟩, accounts⟩ := invariant
  have sound := ahead.phase
  rw [looping] at sound
  obtain ⟨some, without⟩ := sound
  obtain ⟨more, others, rfl, contents⟩ := ahead.front some without
  have length : state.taken.length = cnt := by
    rw [System.taken, looping, List.length_map, List.length_range]
    rfl
  have room : cnt + 1 < maxDataSize := by
    have fits := (ahead.complete _ List.mem_cons_self).2
    rw [List.length_append, length] at fits
    omega
  have nonempty : state.port.uartRxBuffer.isEmpty = false := by
    refine Bool.eq_false_iff.mpr fun empty => ?_
    have nothing : state.port.rxContents = [] :=
      (RingBuffer.isEmpty_iff_contents _ _).mp empty
    rw [contents] at nothing
    exact absurd nothing (List.append_ne_nil_of_right_ne_nil _ (List.cons_ne_nil _ _))
  have count : state.port.rxCount ≠ 0 := fun zero =>
    Bool.eq_false_iff.mp nonempty (state.port.rx_isEmpty_iff.mpr zero)
  have taken : { state with phase := Phase.taking cnt }.taken = state.taken := by
    rw [System.taken, System.taken, looping]
    rfl
  rw [System.loop, if_pos ⟨room, nonempty⟩]
  refine ⟨valid, ⟨_, rest, ?_, ahead.complete, ahead.incomplete, ahead.length, ahead.short,
    ahead.announced, some, ?_, count⟩, accounts.ended, ?_, accounts.inside⟩
  · rw [taken]
    exact ahead.ahead
  · rw [taken]
    exact without
  · rw [taken]
    exact accounts.account

/-- What the critical section takes. -/
theorem takeRxChar_takes {port : UartPort} (valid : port.uartRxBuffer.Valid)
    (nonempty : port.rxCount ≠ 0) :
    port.rxContents = port.takeRxChar.1 :: port.takeRxChar.2.rxContents ∧
      port.takeRxChar.2.uartRxBuffer.Valid :=
  ⟨RingBuffer.contents_popped _ valid nonempty _, RingBuffer.valid_popped _ valid nonempty⟩

/-- What the call has taken, with one byte more. -/
theorem taken_set {cnt : Nat} (taking : state.phase = .taking cnt) (ch : UInt8) :
    (List.range (cnt + 1)).map (state.data.set cnt ch).bytes = state.taken ++ [ch] := by
  rw [List.range_succ, List.map_append, System.taken, taking]
  refine congrArg₂ (· ++ ·) (List.map_congr_left fun index member => ?_) ?_
  · exact Function.update_of_ne (List.mem_range.mp member).ne _ _
  · exact congrArg (fun ch => [ch]) (Function.update_self _ _ _)

/-- After the terminator, the lines behind are ahead. -/
theorem Ahead.returns {line : List UInt8} {others : List (List UInt8)} {rest : List UInt8}
    (ahead : Ahead maxDataSize (line :: others) rest state) {port : UartPort}
    (left : port.rxContents = delimited others ++ rest) (data : DataArray) (cnt : Nat) :
    Ahead maxDataSize others rest
      (System.returns { state with port := port, data := data } cnt) where
  ahead := left
  complete body member := ahead.complete body (List.mem_cons_of_mem _ member)
  incomplete := ahead.incomplete
  length := ahead.length
  short := ahead.short
  announced := by
    have announced := ahead.announced
    rw [List.length_cons] at announced
    show state.announced ≤ (state.strings ++ [_]).length + others.length
    rw [List.length_append, List.length_singleton]
    omega
  phase := trivial

/-- After a letter, the rest of its line is ahead. -/
theorem Ahead.letter {bodies : List (List UInt8)} {rest : List UInt8}
    (ahead : Ahead maxDataSize bodies rest state) (some : bodies ≠ []) (without : 0 ∉ state.taken)
    {port : UartPort} {data : DataArray} {cnt : Nat} {ch : UInt8} (letter : ch ≠ 0)
    (taken : (List.range (cnt + 1)).map data.bytes = state.taken ++ [ch])
    (queue : state.port.rxContents = ch :: port.rxContents) :
    Ahead maxDataSize bodies rest
      { state with port := port, data := data, phase := .looping (cnt + 1) } where
  ahead := by
    show (List.range (cnt + 1)).map data.bytes ++ port.rxContents = _
    rw [taken, List.append_assoc, List.singleton_append, ← queue]
    exact ahead.ahead
  complete := ahead.complete
  incomplete := ahead.incomplete
  length := ahead.length
  short := ahead.short
  announced := ahead.announced
  phase := by
    refine ⟨some, fun member => ?_⟩
    have member : 0 ∈ state.taken ++ [ch] := taken ▸ member
    rcases List.mem_append.mp member with earlier | last
    · exact without earlier
    · exact letter (List.mem_singleton.mp last).symm

/-- A string is returned that is a line with its terminator. -/
theorem System.Accounts.returns (accounts : state.Accounts maxDataSize) {port : UartPort}
    {data : DataArray} {cnt : Nat} {body : List UInt8} (without : 0 ∉ body)
    (string : (List.range cnt).map data.bytes = body ++ [0])
    (moved : body ++ [0] ++ port.rxContents = state.taken ++ state.port.rxContents)
    (inside : ∀ index ∈ data.written, index < maxDataSize) :
    (System.returns { state with port := port, data := data } cnt).Accounts maxDataSize where
  ended returned member := by
    rcases List.mem_append.mp member with earlier | last
    · exact accounts.ended returned earlier
    · exact ⟨body, (List.mem_singleton.mp last).trans string, without⟩
  account := by
    show (state.strings ++ [(List.range cnt).map data.bytes]).flatten ++ ([] ++ port.rxContents) = _
    rw [string, List.flatten_append, List.flatten_singleton, List.nil_append, List.append_assoc,
      moved]
    exact accounts.account
  inside := inside

/-- A letter is taken from the ring into the array. -/
theorem System.Accounts.letter (accounts : state.Accounts maxDataSize) {port : UartPort}
    {data : DataArray} {cnt : Nat} {ch : UInt8}
    (taken : (List.range (cnt + 1)).map data.bytes = state.taken ++ [ch])
    (queue : state.port.rxContents = ch :: port.rxContents)
    (inside : ∀ index ∈ data.written, index < maxDataSize) :
    System.Accounts maxDataSize
      { state with port := port, data := data, phase := .looping (cnt + 1) } where
  ended := accounts.ended
  account := by
    show state.strings.flatten ++ ((List.range (cnt + 1)).map data.bytes ++ port.rxContents) = _
    rw [taken, List.append_assoc, List.singleton_append, ← queue]
    exact accounts.account
  inside := inside

/-- The byte taken is the next one of the line, or its terminator. -/
theorem Invariant.take (invariant : Invariant maxDataSize state) {cnt : Nat}
    (taking : state.phase = .taking cnt) : Invariant maxDataSize (state.take cnt) := by
  obtain ⟨valid, ⟨bodies, rest, ahead⟩, accounts⟩ := invariant
  have sound := ahead.phase
  rw [taking] at sound
  obtain ⟨some, without, nonempty⟩ := sound
  obtain ⟨more, others, rfl, contents⟩ := ahead.front some without
  obtain ⟨takes, valid⟩ := takeRxChar_takes valid nonempty
  obtain ⟨body, fits⟩ := ahead.complete _ List.mem_cons_self
  have length : state.taken.length = cnt := by
    rw [System.taken, taking, List.length_map, List.length_range]
    rfl
  have inside : ∀ index ∈ (state.data.set cnt state.port.takeRxChar.1).written,
      index < maxDataSize := by
    intro index listed
    rcases List.mem_cons.mp listed with rfl | earlier
    · rw [List.length_append, length] at fits
      omega
    · exact accounts.inside index earlier
  have stored := taken_set taking state.port.takeRxChar.1
  have queue := contents.symm.trans takes
  cases more with
  | nil =>
    -- The line is complete.
    obtain ⟨ended, left⟩ := List.cons.inj queue
    rw [List.append_nil] at body
    have string := stored.trans (congrArg (fun ch => state.taken ++ [ch]) ended.symm)
    have moved : state.taken ++ [0] ++ state.port.takeRxChar.2.rxContents =
        state.taken ++ state.port.rxContents := by
      rw [takes, ← ended, List.append_assoc]
      rfl
    rw [System.take, if_pos ended.symm]
    exact ⟨valid, ⟨others, rest, ahead.returns left.symm _ _⟩,
      accounts.returns body string moved inside⟩
  | cons ch more =>
    obtain ⟨same, -⟩ := List.cons.inj queue
    have letter : state.port.takeRxChar.1 ≠ 0 := by
      intro zero
      refine body (List.mem_append_right _ ?_)
      rw [same, zero]
      exact List.mem_cons_self
    rw [System.take, if_neg letter]
    exact ⟨valid, ⟨_, rest, ahead.letter some without letter stored takes⟩,
      accounts.letter stored takes inside⟩

theorem Invariant.step (invariant : Invariant maxDataSize state) {event : Event}
    (orderly : Orderly maxDataSize state event)
    (taken : LineReader.step maxDataSize state event = some next) :
    Invariant maxDataSize next := by
  cases event with
  | rxCplt ch =>
    simp only [LineReader.step] at taken
    split at taken
    · exact invariant.rxCplt orderly.1 orderly.2 taken
    · cases taken
  | call bytes =>
    simp only [LineReader.step] at taken
    split at taken
    · cases taken
      exact invariant.call ‹_› orderly bytes
    · cases taken
  | next =>
    obtain ⟨bodies, rest, ahead⟩ := invariant.ahead
    have sound := ahead.phase
    simp only [LineReader.step, System.next] at taken
    split at taken
    · cases taken
    · cases taken
      exact invariant.loop ‹_›
    · cases taken
      exact invariant.take ‹_›
    · rename_i ending
      rw [ending] at sound
      exact sound.elim
    · rename_i dropping
      rw [dropping] at sound
      exact sound.elim

theorem Invariant.start {port : UartPort} (valid : port.uartRxBuffer.Valid)
    (empty : port.rxContents = []) (two_le : 2 ≤ maxDataSize) :
    Invariant maxDataSize (.start port) where
  valid := valid
  ahead := ⟨[], [], empty, fun _ impossible => absurd impossible List.not_mem_nil,
    List.not_mem_nil, rfl, two_le, le_rfl, trivial⟩
  accounts := ⟨fun _ impossible => absurd impossible List.not_mem_nil, empty,
    fun _ impossible => absurd impossible List.not_mem_nil⟩

/-- Behind the loop there would be no line ahead. -/
theorem Invariant.delivers (invariant : Invariant maxDataSize state) :
    state.Delivers maxDataSize where
  toAccounts := invariant.accounts
  lines := strings_eq_lines invariant.accounts.ended invariant.accounts.account
  inLoop := by
    obtain ⟨bodies, rest, ahead⟩ := invariant.ahead
    have sound := ahead.phase
    revert sound
    cases state.phase with
    | ending cnt => exact id
    | dropping cnt => exact id
    | _ => exact fun _ => trivial

end Steps

/-! ### Every run -/

/-- Wherever the handler runs while lines are read, in a run in which the ring has room, the lines
fit and only lines announced are read, the strings returned are the lines typed, in order, and the
end of the loop that is not meant for lines is never reached: the one for an empty ring, nor the one
for a full array. -/
theorem everyState_delivers_lines (maxDataSize : Nat) (two_le : 2 ≤ maxDataSize) (buffer : Nat)
    (bufferSize : UInt32) (port : UartPort)
    (initialised : RingBuffer.init buffer bufferSize = some port.uartRxBuffer)
    (events : List Event)
    (orderly : Runs.EveryStep (step maxDataSize) (Orderly maxDataSize) (.start port) events) :
    Runs.EveryState (step maxDataSize) (System.Delivers maxDataSize) (.start port) events :=
  Runs.everyState_of_everyStep (fun _ invariant => invariant.delivers)
    (fun _ _ _ invariant orderly taken => invariant.step orderly taken)
    (Invariant.start (RingBuffer.valid_init initialised)
      (RingBuffer.contents_init initialised _) two_le) orderly

/-- The port with a function to call for each line. -/
def listening : UartPort := { UartPort.fresh with callback := 4096 }

/-- A line of two letters, read while the first letter of the next one comes in. -/
def twoLetters : List Event :=
  [.rxCplt 65, .rxCplt 66, .rxCplt newline, .call fun _ => 255, .next, .next, .next, .rxCplt 67,
    .next, .next, .next]

theorem everyState_delivers_lines_two :
    Runs.EveryState (step 4) (System.Delivers 4) (.start listening) twoLetters :=
  everyState_delivers_lines 4 (by decide) 2048 128 listening rfl twoLetters (by decide)

example : (Runs.run (step 4) (.start listening) twoLetters).map System.strings =
    some [[65, 66, 0]] := by decide

/-! ### The call left alone -/

section Alone

variable {maxDataSize : Nat} {state : System}

theorem getRxChar_of_not_isEmpty {port : UartPort} (some : ¬ port.uartRxBuffer.isEmpty = true) :
    port.getRxChar = ((true, port.takeRxChar.1), port.takeRxChar.2) := by
  rw [UartPort.getRxChar, RingBuffer.getChar, if_neg some]
  rfl

/-- Where the loop leads: out of the function or behind the loop. -/
def System.afterLoop (state : System) (result : Bool × Nat × DataArray × UartPort) : System :=
  let (returned, cnt, data, port) := result
  let state := { state with data := data, port := port }
  if returned then state.returns cnt else { state with phase := .ending cnt }

/-- Steps taken one after the other. -/
theorem run_next {next last : System} (taken : step maxDataSize state .next = some next)
    {count : Nat}
    (rest : Runs.run (step maxDataSize) next (List.replicate count .next) = some last) :
    Runs.run (step maxDataSize) state (List.replicate (count + 1) .next) = some last := by
  rw [List.replicate_succ, Runs.run_cons_of_step taken, rest]

theorem step_looping {cnt : Nat} (looping : state.phase = .looping cnt) :
    step maxDataSize state .next = some (state.loop maxDataSize cnt) := by
  rw [step, System.next, looping]

/-- The loop ends without a byte. -/
theorem run_loop_end {cnt : Nat} (looping : state.phase = .looping cnt)
    (ends : ¬ (cnt + 1 < maxDataSize ∧ state.port.uartRxBuffer.isEmpty = false)) :
    Runs.run (step maxDataSize) state (List.replicate 1 .next) =
      some (state.afterLoop (false, cnt, state.data, state.port)) := by
  refine run_next (step_looping looping) ?_
  rw [System.loop, if_neg ends]
  rfl

theorem run_loop (left cnt : Nat) (looping : state.phase = .looping cnt)
    (room : maxDataSize - cnt ≤ left) :
    ∃ count, Runs.run (step maxDataSize) state (List.replicate count .next) =
      some (state.afterLoop (UartPort.readStringLoop maxDataSize cnt state.data state.port)) := by
  induction left generalizing state cnt with
  | zero =>
    have full : ¬ cnt + 1 < maxDataSize := by omega
    rw [UartPort.readStringLoop, if_neg full]
    exact ⟨1, run_loop_end looping fun both => full both.1⟩
  | succ left inductionHypothesis =>
    by_cases space : cnt + 1 < maxDataSize
    · rw [UartPort.readStringLoop, if_pos space]
      by_cases empty : state.port.uartRxBuffer.isEmpty = true
      · rw [UartPort.getRxChar_of_isEmpty empty]
        refine ⟨1, run_loop_end looping fun both => ?_⟩
        exact Bool.false_ne_true (both.2.symm.trans empty)
      · have test : step maxDataSize state .next = some { state with phase := .taking cnt } := by
          rw [step_looping looping, System.loop,
            if_pos ⟨space, Bool.eq_false_iff.mpr empty⟩]
        have critical : step maxDataSize { state with phase := .taking cnt } .next =
            some (System.take { state with phase := .taking cnt } cnt) := rfl
        rw [getRxChar_of_not_isEmpty empty]
        simp only [if_true]
        by_cases ended : state.port.takeRxChar.1 = 0
        · rw [if_pos ended]
          refine ⟨2, run_next test (run_next critical ?_)⟩
          rw [System.take]
          simp only [if_pos ended]
          rfl
        · rw [if_neg ended]
          have goesOn : System.take { state with phase := .taking cnt } cnt = { state with
              port := state.port.takeRxChar.2
              data := state.data.set cnt state.port.takeRxChar.1
              phase := .looping (cnt + 1) } := if_neg ended
          obtain ⟨count, rest⟩ := @inductionHypothesis { state with
              port := state.port.takeRxChar.2
              data := state.data.set cnt state.port.takeRxChar.1
              phase := .looping (cnt + 1) } (cnt + 1) rfl (by omega)
          exact ⟨count + 2, run_next test (run_next critical (goesOn ▸ rest))⟩
    · rw [UartPort.readStringLoop, if_neg space]
      exact ⟨1, run_loop_end looping fun both => space both.1⟩

/-- The end of the function. -/
theorem run_ending {cnt : Nat} (ending : state.phase = .ending cnt) :
    ∃ count, Runs.run (step maxDataSize) state (List.replicate count .next) =
      some (System.finish { state with port := state.port.getRxChar.2 } cnt) := by
  by_cases empty : state.port.uartRxBuffer.isEmpty = true
  · rw [UartPort.getRxChar_of_isEmpty empty]
    have last : step maxDataSize state .next = some (state.finish cnt) := by
      rw [step, System.next, ending]
      exact congrArg some (if_pos empty)
    exact ⟨1, run_next last rfl⟩
  · rw [getRxChar_of_not_isEmpty empty]
    have test : step maxDataSize state .next = some { state with phase := .dropping cnt } := by
      rw [step, System.next, ending]
      exact congrArg some (if_neg empty)
    have critical : step maxDataSize { state with phase := .dropping cnt } .next =
        some (System.finish { state with port := state.port.takeRxChar.2 } cnt) := rfl
    exact ⟨2, run_next test (run_next critical rfl)⟩

/-- When the handler does not run in between, the steps of a call come to what
`UartPort_ReadString` does in one go. -/
theorem run_readString (maxDataSize : Nat) (state : System) (bytes : Nat → UInt8) :
    ∃ count cnt data port,
      state.port.readString (some (.ofBytes bytes)) maxDataSize = (cnt, some data, port) ∧
        Runs.run (step maxDataSize) { state with phase := .idle }
            (.call bytes :: List.replicate count .next) =
          some (System.returns { state with port := port, data := data } cnt) := by
  have begins : step maxDataSize { state with phase := .idle } (.call bytes) =
      some (state.call bytes) := rfl
  obtain ⟨count, loops⟩ := @run_loop maxDataSize (state.call bytes) _ 0 rfl le_rfl
  have whole : UartPort.readStringLoop maxDataSize 0 (.ofBytes bytes) state.port =
      UartPort.readStringLoop maxDataSize 0 (state.call bytes).data (state.call bytes).port := rfl
  rw [UartPort.readString, whole]
  generalize UartPort.readStringLoop maxDataSize 0 _ _ = result at loops ⊢
  obtain ⟨returned, cnt, data, port⟩ := result
  cases returned with
  | true => exact ⟨count, cnt, data, port, rfl, (Runs.run_cons_of_step begins _).trans loops⟩
  | false =>
    obtain ⟨more, ends⟩ := @run_ending maxDataSize
      { state with phase := .ending cnt, data := data, port := port } cnt rfl
    refine ⟨count + more, cnt + 1, data.set (cnt + 1) 0, port.getRxChar.2, rfl, ?_⟩
    rw [Runs.run_cons_of_step begins, List.replicate_add, Runs.run_append, loops, Option.bind_some]
    exact ends

end Alone

end LineReader

end RtpLib
