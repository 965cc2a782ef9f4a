/-
This file settles whether concurrent messages of `UartPort_Printf` are mixed up.
All callers format into one static buffer, `printfBuff`, which
`UartPort_WriteString` measures and `UartPort_WriteData` reads again byte by
byte, with interrupts enabled in between. Any number of callers run here, each
cut into the formatting, the `strlen`, the puts of the loop, and the sections of
`TxTask` for the rest of `UartPort_WriteData`; the Tx-complete handler may drain
the ring anywhere.

Each call queues a prefix of its own text, and all of it when no put is refused,
as long as no other call formats a different text over bytes that it has still to
read.
-/

import Mathlib.Data.Fintype.Defs
import Mathlib.Data.List.TakeWhile
import RtpLib.TxTask

namespace RtpLib

/-! ### The buffer and the texts -/

/-- `debug_level_e` -/
inductive DebugLevel
  | error
  | warning
  | info
  | debug
  | all

/-- The value of the enumerator. -/
def DebugLevel.value : DebugLevel → Nat
  | .error => 0
  | .warning => 1
  | .info => 2
  | .debug => 3
  | .all => 4

/-- `UARTPORT_DEBUG_LEVEL` -/
def debugLevel : DebugLevel := .all

/-- What a caller prints: a non-empty text without a zero, which fits into `printfBuff` with
its terminator. -/
structure Message where
  lvl : DebugLevel
  text : List UInt8
  nonempty : text ≠ []
  fits : text.length < txBufferSize.toNat
  nonzero : 0 ∉ text

/-- Two messages, for runs on fixed inputs. -/
def Message.pair : Bool → Message
  | true => ⟨.info, [65, 66], by decide, by decide, by decide⟩
  | false => ⟨.info, [67], by decide, by decide, by decide⟩

/-- `printfBuff` -/
structure PrintfBuff where
  bytes : List UInt8
  size : bytes.length = txBufferSize.toNat

namespace PrintfBuff

/-- The buffer of zeros before the first call. -/
def zeros : PrintfBuff := ⟨List.replicate txBufferSize.toNat 0, List.length_replicate⟩

/-- `vsprintf` writes the text and a zero after it. -/
def vsprintf (buff : PrintfBuff) (message : Message) : PrintfBuff where
  bytes := message.text ++ 0 :: buff.bytes.drop (message.text.length + 1)
  size := by
    have fits := message.fits
    rw [List.length_append, List.length_cons, List.length_drop, buff.size]
    omega

/-- The string in the buffer: the bytes before the first zero. -/
def string (buff : PrintfBuff) : List UInt8 := buff.bytes.takeWhile (· ≠ 0)

/-- `strlen(printfBuff)` -/
def strlen (buff : PrintfBuff) : Nat := buff.string.length

/-- `printfBuff[cnt]` -/
def read (buff : PrintfBuff) (cnt : Nat) : UInt8 := buff.bytes[cnt]?.getD 0

theorem string_vsprintf (buff : PrintfBuff) (message : Message) :
    (buff.vsprintf message).string = message.text := by
  have text : ∀ ch ∈ message.text, decide (ch ≠ 0) = true := fun ch member =>
    decide_eq_true fun zero => message.nonzero (zero ▸ member)
  unfold string vsprintf
  rw [List.takeWhile_append_of_pos text]
  simp only [ne_eq, not_true_eq_false, decide_false, Bool.false_eq_true, not_false_eq_true,
    List.takeWhile_cons_of_neg, List.append_nil]

/-- The bytes read below the length are those of the string. -/
theorem read_of_lt_strlen (buff : PrintfBuff) (cnt : Nat) (below : cnt < buff.strlen) :
    buff.string[cnt]? = some (buff.read cnt) := by
  have initial : buff.string <+: buff.bytes := List.takeWhile_prefix _
  have below : cnt < buff.string.length := below
  have inside : cnt < buff.bytes.length := below.trans_le initial.length_le
  have same : buff.string[cnt] = buff.bytes[cnt] := initial.getElem below
  rw [List.getElem?_eq_getElem below, same, read, List.getElem?_eq_getElem inside]
  rfl

end PrintfBuff

/-! ### The callers -/

/-- Where a call of `UartPort_Printf` is: its steps, named by what comes next. -/
inductive PrintfPhase
  /-- At `vsprintf`, or before. -/
  | start
  /-- At the `strlen` of `UartPort_WriteString`. -/
  | formatted
  /-- At the condition of the loop of `UartPort_WriteData`. -/
  | queueing (dataSize cnt : Nat)
  /-- Past the loop of `UartPort_WriteData`. -/
  | sending (rest : TxPhase)
  /-- An assertion of `UartPort_WriteData` has failed. -/
  | aborted
  | done
  deriving DecidableEq

/-- The port and the buffer that the callers share; for each caller where it is, the bytes it
has put on the transmit ring, and whether a put was refused. -/
structure PrintfState (Caller : Type) where
  port : UartPort
  printfBuff : PrintfBuff
  phase : Caller → PrintfPhase
  queued : Caller → List UInt8
  refused : Caller → Bool

inductive PrintfEvent (Caller : Type)
  /-- The caller takes its next step. -/
  | call (caller : Caller)
  /-- A Tx-complete interrupt. -/
  | txCplt

namespace PrintfState

variable {Caller : Type} [DecidableEq Caller]

/-- The caller gets to another phase. -/
def goto (state : PrintfState Caller) (caller : Caller) (phase : PrintfPhase) :
    PrintfState Caller :=
  { state with phase := Function.update state.phase caller phase }

/-- One put of the loop, of the byte that is in the buffer now. -/
def put (state : PrintfState Caller) (caller : Caller) (dataSize cnt : Nat) :
    PrintfState Caller :=
  let ch := state.printfBuff.read cnt
  let (result, port) := state.port.putTxChar ch
  if result then
    { state.goto caller (.queueing dataSize (cnt + 1)) with
      port := port
      queued := Function.update state.queued caller (state.queued caller ++ [ch]) }
  else
    { state.goto caller (.sending (.isEmptyTest (.writeData [] cnt))) with
      port := port
      refused := Function.update state.refused caller true }

/-- The next step of a call. What is left of `UartPort_WriteData` after its loop takes a byte
from the ring and starts it, as in `TxState`, and puts nothing. -/
def callStep (message : Caller → Message) (state : PrintfState Caller) (caller : Caller) :
    Option (PrintfState Caller) :=
  match state.phase caller with
  | .start =>
    if (message caller).lvl.value ≤ debugLevel.value then
      some { state.goto caller .formatted with
        printfBuff := state.printfBuff.vsprintf (message caller) }
    else some (state.goto caller .done)
  | .formatted =>
    if state.printfBuff.strlen = 0 then some (state.goto caller .aborted)
    else some (state.goto caller (.queueing state.printfBuff.strlen 0))
  | .queueing dataSize cnt =>
    if cnt < dataSize then some (state.put caller dataSize cnt)
    else some (state.goto caller (.sending (.isEmptyTest (.writeData [] cnt))))
  | .sending rest =>
    (TxState.taskStep ⟨state.port, rest, [], [], []⟩ false).map fun next =>
      { state.goto caller (if next.phase = .idle then .done else .sending next.phase) with
        port := next.port }
  | .aborted | .done => none

/-- One event; the handler runs only where interrupts are enabled. -/
def step (message : Caller → Message) (state : PrintfState Caller) :
    PrintfEvent Caller → Option (PrintfState Caller)
  | .call caller => callStep message state caller
  | .txCplt =>
    if state.port.machine.primask then none
    else some { state with port := state.port.transmitted.txCpltCallbck }

/-- The state before the calls. -/
def start (port : UartPort) : PrintfState Caller :=
  ⟨port, .zeros, fun _ => .start, fun _ => [], fun _ => false⟩

/-- What each call has queued is a prefix of its own text, and the whole text when it is done
and no put was refused. -/
def OwnText (message : Caller → Message) (state : PrintfState Caller) : Prop :=
  ∀ caller, state.queued caller <+: (message caller).text ∧
    (state.phase caller = .done → state.refused caller = false →
      state.queued caller = (message caller).text)

instance [Fintype Caller] (message : Caller → Message) : DecidablePred (OwnText message) :=
  fun _ => inferInstanceAs (Decidable (∀ _, _ ∧ (_ → _ → _)))

end PrintfState

/-- What a call at this phase has still to read in the buffer is left as it is. -/
def PrintfPhase.Undisturbed (before after : PrintfBuff) : PrintfPhase → Prop
  | .formatted => after.string = before.string
  | .queueing dataSize cnt => ∀ i < dataSize, cnt ≤ i → after.read i = before.read i
  | .start | .sending _ | .aborted | .done => True

instance (before after : PrintfBuff) : DecidablePred (PrintfPhase.Undisturbed before after)
  | .formatted => inferInstanceAs (Decidable (_ = _))
  | .queueing _ _ => inferInstanceAs (Decidable (∀ i < _, _ → _))
  | .start | .sending _ | .aborted | .done => isTrue trivial

namespace PrintfState

variable {Caller : Type} [DecidableEq Caller]

/-- A caller formats its text only over bytes that no other call has still to read, or that
it leaves as they are. -/
def FormatsApart (message : Caller → Message) (state : PrintfState Caller) :
    PrintfEvent Caller → Prop
  | .call caller =>
    state.phase caller = .start → ∀ other, (state.phase other).Undisturbed state.printfBuff
      (state.printfBuff.vsprintf (message caller))
  | .txCplt => True

instance [Fintype Caller] (message : Caller → Message) (state : PrintfState Caller) :
    DecidablePred (FormatsApart message state)
  | .call _ => inferInstanceAs (Decidable (_ → ∀ _, _))
  | .txCplt => isTrue trivial

end PrintfState

/-! ### What each call keeps -/

/-- What is known of a call at each phase: until its loop ends, it has queued the first bytes
of its text, and the rest of the text is in the buffer. -/
def PrintfPhase.Own (buff : PrintfBuff) (text queued : List UInt8) (refused : Bool) :
    PrintfPhase → Prop
  | .start => queued = [] ∧ refused = false
  | .formatted => queued = [] ∧ refused = false ∧ buff.string = text
  | .queueing dataSize cnt =>
    queued = text.take cnt ∧ refused = false ∧ dataSize = text.length ∧ cnt ≤ dataSize ∧
      ∀ i < dataSize, cnt ≤ i → text[i]? = some (buff.read i)
  | .sending _ | .done => queued <+: text ∧ (refused = false → queued = text)
  | .aborted => False

/-- A call does not notice what leaves alone the bytes it has still to read. -/
theorem PrintfPhase.Own.of_undisturbed {before after : PrintfBuff} {text queued : List UInt8}
    {refused : Bool} {phase : PrintfPhase} (own : phase.Own before text queued refused)
    (undisturbed : phase.Undisturbed before after) : phase.Own after text queued refused := by
  cases phase with
  | start | sending | aborted | done => exact own
  | formatted =>
    obtain ⟨queued, refused, string⟩ := own
    exact ⟨queued, refused, Eq.trans undisturbed string⟩
  | queueing dataSize cnt =>
    obtain ⟨queued, refused, size, bound, rest⟩ := own
    refine ⟨queued, refused, size, bound, fun i below unread => ?_⟩
    rw [undisturbed i below unread]
    exact rest i below unread

theorem PrintfPhase.undisturbed_refl (phase : PrintfPhase) (buff : PrintfBuff) :
    phase.Undisturbed buff buff := by
  cases phase with
  | start | sending | aborted | done => trivial
  | formatted => rfl
  | queueing dataSize cnt => exact fun _ _ _ => rfl

/-- Every level is printed. -/
theorem DebugLevel.printed (lvl : DebugLevel) : lvl.value ≤ debugLevel.value := by
  cases lvl <;> decide

namespace PrintfState

variable {Caller : Type} {message : Caller → Message} {state next : PrintfState Caller}
  {caller : Caller}

/-- Every call has what its phase says. -/
def Owned (message : Caller → Message) (state : PrintfState Caller) : Prop :=
  ∀ caller, (state.phase caller).Own state.printfBuff (message caller).text
    (state.queued caller) (state.refused caller)

theorem Owned.ownText (owned : Owned message state) : OwnText message state := by
  intro caller
  have own := owned caller
  cases phase : state.phase caller with
  | start =>
    rw [phase] at own
    rw [own.1]
    exact ⟨List.nil_prefix, nofun⟩
  | formatted =>
    rw [phase] at own
    rw [own.1]
    exact ⟨List.nil_prefix, nofun⟩
  | queueing dataSize cnt =>
    rw [phase] at own
    rw [own.1]
    exact ⟨List.take_prefix _ _, nofun⟩
  | sending rest =>
    rw [phase] at own
    exact ⟨own.1, nofun⟩
  | aborted =>
    rw [phase] at own
    exact own.elim
  | done =>
    rw [phase] at own
    exact ⟨own.1, fun _ => own.2⟩

/-- A step of one caller: the others are where they were, and have still to read what they
had. -/
theorem Owned.update (owned : Owned message state) (phase : PrintfPhase) {queued : List UInt8}
    {refused : Bool} (mine : phase.Own next.printfBuff (message caller).text queued refused)
    (own_phase : next.phase caller = phase) (own_queued : next.queued caller = queued)
    (own_refused : next.refused caller = refused)
    (undisturbed : ∀ other, (state.phase other).Undisturbed state.printfBuff next.printfBuff)
    (frame : ∀ other, other ≠ caller → next.phase other = state.phase other ∧
      next.queued other = state.queued other ∧ next.refused other = state.refused other) :
    Owned message next := by
  intro other
  by_cases same : other = caller
  · rw [same, own_phase, own_queued, own_refused]
    exact mine
  · obtain ⟨phase, queued, refused⟩ := frame other same
    rw [phase, queued, refused]
    exact (owned other).of_undisturbed (undisturbed other)

variable [DecidableEq Caller]

/-- A step of one caller that only touches the port. -/
theorem Owned.goto (owned : Owned message state) (phase : PrintfPhase) (port : UartPort)
    (mine : phase.Own state.printfBuff (message caller).text (state.queued caller)
      (state.refused caller)) :
    Owned message { state.goto caller phase with port := port } :=
  owned.update phase mine (Function.update_self _ _ _) rfl rfl
    (fun other => (state.phase other).undisturbed_refl _)
    fun _ distinct => ⟨Function.update_of_ne distinct _ _, rfl, rfl⟩

/-- Formatting: the buffer now holds the text of the caller. -/
theorem Owned.format (owned : Owned message state) (phase : state.phase caller = .start)
    (apart : ∀ other, (state.phase other).Undisturbed state.printfBuff
      (state.printfBuff.vsprintf (message caller))) :
    Owned message { state.goto caller .formatted with
      printfBuff := state.printfBuff.vsprintf (message caller) } := by
  have own := owned caller
  rw [phase] at own
  refine owned.update .formatted ?_ (Function.update_self _ _ _) rfl rfl apart
    fun _ distinct => ⟨Function.update_of_ne distinct _ _, rfl, rfl⟩
  exact ⟨own.1, own.2, state.printfBuff.string_vsprintf _⟩

/-- The `strlen`: the length is that of the text, and not zero. -/
theorem Owned.measure (owned : Owned message state) (phase : state.phase caller = .formatted) :
    state.printfBuff.strlen ≠ 0 ∧
      Owned message (state.goto caller (.queueing state.printfBuff.strlen 0)) := by
  have own := owned caller
  rw [phase] at own
  obtain ⟨queued, refused, string⟩ := own
  refine ⟨?_, owned.goto _ _ ⟨queued, refused, ?_, Nat.zero_le _, fun i below _ => ?_⟩⟩
  · rw [PrintfBuff.strlen, string, Ne, List.length_eq_zero_iff]
    exact (message caller).nonempty
  · rw [PrintfBuff.strlen, string]
  · rw [← string]
    exact state.printfBuff.read_of_lt_strlen i below

theorem put_cases (state : PrintfState Caller) (caller : Caller) (dataSize cnt : Nat) :
    ∃ port, state.put caller dataSize cnt =
        { state.goto caller (.queueing dataSize (cnt + 1)) with
          port := port
          queued := Function.update state.queued caller
            (state.queued caller ++ [state.printfBuff.read cnt]) } ∨
      state.put caller dataSize cnt =
        { state.goto caller (.sending (.isEmptyTest (.writeData [] cnt))) with
          port := port
          refused := Function.update state.refused caller true } := by
  obtain ⟨⟨result, port⟩, answered⟩ : ∃ answer,
      state.port.putTxChar (state.printfBuff.read cnt) = answer := ⟨_, rfl⟩
  refine ⟨port, ?_⟩
  simp only [PrintfState.put, answered]
  cases result with
  | true => exact .inl rfl
  | false => exact .inr rfl

/-- One put: the byte read is the next one of the text. -/
theorem Owned.put (owned : Owned message state) (dataSize cnt : Nat)
    (phase : state.phase caller = .queueing dataSize cnt) (more : cnt < dataSize) :
    Owned message (state.put caller dataSize cnt) := by
  have own := owned caller
  rw [phase] at own
  obtain ⟨queued, refused, size, bound, rest⟩ := own
  rcases state.put_cases caller dataSize cnt with ⟨port, stored | full⟩
  · rw [stored]
    refine owned.update (.queueing dataSize (cnt + 1)) ?_ (Function.update_self _ _ _)
      (Function.update_self _ _ _) rfl (fun other => (state.phase other).undisturbed_refl _)
      fun _ distinct => ⟨Function.update_of_ne distinct _ _, Function.update_of_ne distinct _ _,
        rfl⟩
    refine ⟨?_, refused, size, more, fun i below unread => ?_⟩
    · rw [queued, List.take_add_one, rest cnt more (Nat.le_refl cnt)]
      rfl
    · exact rest i below (Nat.le_of_succ_le unread)
  · rw [full]
    have mine : (PrintfPhase.sending (.isEmptyTest (.writeData [] cnt))).Own state.printfBuff
        (message caller).text ((message caller).text.take cnt) true :=
      ⟨List.take_prefix _ _, nofun⟩
    exact owned.update _ mine (Function.update_self _ _ _) queued (Function.update_self _ _ _)
      (fun other => (state.phase other).undisturbed_refl _)
      fun _ distinct => ⟨Function.update_of_ne distinct _ _, rfl,
        Function.update_of_ne distinct _ _⟩

/-- The loop is over: the whole text is queued. -/
theorem Owned.loopEnd (owned : Owned message state) (dataSize cnt : Nat)
    (phase : state.phase caller = .queueing dataSize cnt) (ended : ¬ cnt < dataSize) :
    Owned message (state.goto caller (.sending (.isEmptyTest (.writeData [] cnt)))) := by
  have own := owned caller
  rw [phase] at own
  obtain ⟨queued, refused, size, bound, rest⟩ := own
  have whole : state.queued caller = (message caller).text := by
    rw [queued, List.take_of_length_le (by omega)]
  exact owned.goto _ _ ⟨⟨[], by rw [whole, List.append_nil]⟩, fun _ => whole⟩

theorem Owned.callStep (owned : Owned message state)
    (apart : FormatsApart message state (.call caller))
    (taken : callStep message state caller = some next) : Owned message next := by
  unfold PrintfState.callStep at taken
  cases phase : state.phase caller with
  | start =>
    simp only [phase, (message caller).lvl.printed, if_true] at taken
    cases taken
    exact owned.format phase (apart phase)
  | formatted =>
    obtain ⟨measured, owned⟩ := owned.measure phase
    simp only [phase, if_neg measured] at taken
    cases taken
    exact owned
  | queueing dataSize cnt =>
    simp only [phase] at taken
    split at taken
    · rename_i more
      cases taken
      exact owned.put dataSize cnt phase more
    · rename_i ended
      cases taken
      exact owned.loopEnd dataSize cnt phase ended
  | sending rest =>
    have own := owned caller
    rw [phase] at own
    simp only [phase] at taken
    obtain ⟨sent, _, rfl⟩ := Option.map_eq_some_iff.mp taken
    refine owned.goto _ _ ?_
    split
    · exact own
    · exact own
  | aborted =>
    simp only [phase] at taken
    cases taken
  | done =>
    simp only [phase] at taken
    cases taken

theorem Owned.step {event : PrintfEvent Caller} (owned : Owned message state)
    (apart : FormatsApart message state event) (taken : step message state event = some next) :
    Owned message next := by
  cases event with
  | call caller => exact owned.callStep apart taken
  | txCplt =>
    simp only [PrintfState.step] at taken
    split at taken
    · cases taken
    · cases taken
      exact owned

/-- In every run of any callers with any messages, in which a caller formats its text only over
bytes that no other call has still to read, or that it leaves as they are, each call queues a
prefix of its own text, and the whole text when it is done and no put was refused. -/
theorem ownText_of_formatsApart (message : Caller → Message) (port : UartPort)
    (events : List (PrintfEvent Caller))
    (apart : Runs.EveryStep (step message) (FormatsApart message) (start port) events) :
    Runs.EveryState (step message) (OwnText message) (start port) events :=
  Runs.everyState_of_everyStep (fun _ => Owned.ownText)
    (fun _ _ _ owned apart taken => owned.step apart taken) (fun _ => ⟨rfl, rfl⟩) apart

/-- Two callers step in turn; the second one formats its text when the first one has read all of
its own, and is still to leave its loop. -/
def inTurn : List (PrintfEvent Bool) :=
  List.replicate 4 (.call true) ++ (List.replicate 6 [.call false, .call true]).flatten ++
    [.txCplt, .call false, .call false]

theorem ownText_of_formatsApart_pair :
    Runs.EveryState (step Message.pair) (OwnText Message.pair) (start .fresh) inTurn :=
  ownText_of_formatsApart Message.pair .fresh inTurn (by decide)

/-- Both come to their end, with their whole texts. -/
example : (Runs.run (step Message.pair) (start .fresh) inTurn).map (fun state =>
      ((state.phase true, state.queued true), (state.phase false, state.queued false))) =
    some ((.done, [65, 66]), (.done, [67])) := by decide

/-- Two callers format at the same time: the first one queues the text of the second. -/
theorem not_ownText :
    ¬ ∀ (message : Bool → Message) (txData rxData : Nat) (machine : Machine) (port : UartPort),
      UartPort.init txData rxData machine = some port → ∀ events : List (PrintfEvent Bool),
        Runs.EveryState (step message) (OwnText message) (start port) events := by
  intro claimed
  have own := claimed Message.pair 1024 2048 ⟨fun _ => 0, false, []⟩ .fresh UartPort.init_fresh
    [.call true, .call false, .call true, .call true]
  exact absurd own (by decide)

end PrintfState

end RtpLib
