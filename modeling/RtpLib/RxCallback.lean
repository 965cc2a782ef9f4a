/-
This file settles whether the Rx-complete handler can call a function that is not
set. `UartPort_Init` clears `UartPort_Callback` and starts reception in one go,
`UartPort_SetCallbackFunction` may come at any time later or not at all, and the
handler calls through the pointer on every newline without a test.

Whether the pointer is set when a newline comes is a matter of the order of the
events alone: it is once a function has been registered, and it was not before.
A call through the null pointer ends the run.
-/

import RtpLib.UartPort
import RtpLib.Runs

namespace RtpLib

/-- The port, `none` after a call through a null pointer, and the pointers that the handler has
called, oldest first. -/
structure CallbackState where
  port : Option UartPort
  called : List Nat

inductive CallbackEvent
  /-- A byte is received and the Rx-complete handler runs. -/
  | rxCplt (ch : UInt8)
  /-- A call of `UartPort_SetCallbackFunction` with a function. -/
  | setCallbackFunction (foo : { foo : Nat // foo ≠ null })

namespace CallbackState

/-- A run of the Rx-complete handler, and the call it makes, if it makes one. -/
def rxCplt (state : CallbackState) (port : UartPort) (ch : UInt8) : CallbackState where
  port := (port.receive ch).rxCpltCallbck
  called :=
    match (port.receive ch).rxAnnounce with
    | some (false, _) => state.called
    -- The call is made, and faults when the pointer is null.
    | _ => state.called ++ [port.callback]

/-- One event; there is none after a call through a null pointer. -/
def step (state : CallbackState) (event : CallbackEvent) : Option CallbackState :=
  state.port.bind fun port =>
    match event with
    | .rxCplt ch => some (state.rxCplt port ch)
    | .setCallbackFunction foo =>
      (port.setCallbackFunction foo.1).map fun port => { state with port := some port }

/-- The state after `UartPort_Init`. -/
def start (port : UartPort) : CallbackState := ⟨some port, []⟩

/-- No call has been made through a null pointer. -/
def NeverNull (state : CallbackState) : Prop := null ∉ state.called

/-- Every newline comes after the registration of a function. -/
def RegisteredFirst (events : List CallbackEvent) : Prop :=
  ∀ earlier later, events = earlier ++ .rxCplt newline :: later →
    ∃ foo, .setCallbackFunction foo ∈ earlier

/-! ### What each event does -/

/-- The handler calls on a newline, and on no other byte. -/
theorem called_rxCplt (state : CallbackState) (port : UartPort) (ch : UInt8) :
    (state.rxCplt port ch).called =
      if ch = newline then state.called ++ [port.callback] else state.called := by
  have received : (port.receive ch).rxChar = ch := rfl
  have callback : (port.receive ch).callback = port.callback := rfl
  rw [rxCplt, UartPort.rxAnnounce, received, callback]
  by_cases ended : ch = newline
  · by_cases unset : port.callback = null
    · simp only [if_pos ended, if_pos unset]
    · simp only [if_pos ended, if_neg unset]
  · simp only [if_neg ended]

/-- The handler keeps the pointer, and comes to its end unless it calls through a null one. -/
theorem rxCpltCallbck_callback (port : UartPort) (ch : UInt8)
    (safe : ch = newline → port.callback ≠ null) :
    ∃ next, (port.receive ch).rxCpltCallbck = some next ∧ next.callback = port.callback := by
  by_cases ended : ch = newline
  · have announcement : (port.receive ch).rxAnnounce =
        some (true, { port.receive ch with rxChar := 0 }) := by
      have received : (port.receive ch).rxChar = newline := ended
      have set : (port.receive ch).callback ≠ null := safe ended
      rw [UartPort.rxAnnounce, if_pos received, if_neg set]
    rw [UartPort.rxCpltCallbck, announcement]
    exact ⟨_, rfl, rfl⟩
  · have announcement : (port.receive ch).rxAnnounce = some (false, port.receive ch) :=
      if_neg ended
    rw [UartPort.rxCpltCallbck, announcement]
    exact ⟨_, rfl, rfl⟩

theorem registeredFirst_set (foo : { foo : Nat // foo ≠ null }) (rest : List CallbackEvent) :
    RegisteredFirst (.setCallbackFunction foo :: rest) := by
  intro earlier later split
  cases earlier with
  | nil => cases split
  | cons first earlier =>
    obtain ⟨rfl, _⟩ := List.cons.inj split
    exact ⟨foo, List.mem_cons_self⟩

theorem not_registeredFirst_newline (rest : List CallbackEvent) :
    ¬ RegisteredFirst (.rxCplt newline :: rest) := by
  intro registered
  obtain ⟨_, listed⟩ := registered [] rest rfl
  exact absurd listed List.not_mem_nil

/-- A byte that is no newline does not matter. -/
theorem registeredFirst_other {ch : UInt8} (other : ch ≠ newline) (rest : List CallbackEvent) :
    RegisteredFirst (.rxCplt ch :: rest) ↔ RegisteredFirst rest := by
  constructor
  · intro registered earlier later split
    obtain ⟨foo, listed⟩ := registered (.rxCplt ch :: earlier) later (by rw [split]; rfl)
    rcases List.mem_cons.mp listed with same | listed
    · cases same
    · exact ⟨foo, listed⟩
  · intro registered earlier later split
    cases earlier with
    | nil =>
      rw [List.nil_append, List.cons.injEq, CallbackEvent.rxCplt.injEq] at split
      exact absurd split.1 other
    | cons first earlier =>
      obtain ⟨foo, listed⟩ := registered earlier later (List.cons.inj split).2
      exact ⟨foo, List.mem_cons_of_mem _ listed⟩

/-! ### Runs -/

/-- From any state, no call is made through a null pointer exactly when a function is set, or
is registered before the first newline. -/
theorem neverNull_iff_of_port (port : UartPort) (state : CallbackState)
    (running : state.port = some port) (clean : NeverNull state) (events : List CallbackEvent) :
    Runs.EveryState step NeverNull state events ↔
      port.callback ≠ null ∨ RegisteredFirst events := by
  induction events generalizing port state with
  | nil =>
    refine iff_of_true clean (.inr fun earlier later split => ?_)
    exact absurd split (List.append_ne_nil_of_right_ne_nil _ (List.cons_ne_nil _ _)).symm
  | cons event rest inductionHypothesis =>
    cases event with
    | setCallbackFunction foo =>
      have set : port.setCallbackFunction foo.1 = some { port with callback := foo.1 } :=
        if_neg foo.2
      have taken : step state (.setCallbackFunction foo) =
          some { state with port := some { port with callback := foo.1 } } := by
        simp only [step, running, Option.bind_some, set, Option.map_some]
      have registered := registeredFirst_set foo rest
      rw [Runs.everyState_cons_of_step taken, and_iff_right clean,
        inductionHypothesis { port with callback := foo.1 }
          { state with port := some { port with callback := foo.1 } } rfl clean]
      exact iff_of_true (.inl foo.2) (.inr registered)
    | rxCplt ch =>
      have taken : step state (.rxCplt ch) = some (state.rxCplt port ch) := by
        rw [step, running, Option.bind_some]
      rw [Runs.everyState_cons_of_step taken, and_iff_right clean]
      by_cases ended : ch = newline
      · have called : (state.rxCplt port ch).called = state.called ++ [port.callback] :=
          (called_rxCplt state port ch).trans (if_pos ended)
        by_cases set : port.callback = null
        · -- The call through the null pointer.
          have null_called : ¬ NeverNull (state.rxCplt port ch) := by
            rw [NeverNull, called, set, not_not]
            exact List.mem_append_right _ List.mem_cons_self
          refine iff_of_false (fun all => null_called all.head) ?_
          rw [ended, not_or, not_not]
          exact ⟨set, not_registeredFirst_newline rest⟩
        · obtain ⟨next, handled, same⟩ := rxCpltCallbck_callback port ch fun _ => set
          have still : NeverNull (state.rxCplt port ch) := by
            rw [NeverNull, called, List.mem_append, List.mem_singleton, not_or]
            exact ⟨clean, Ne.symm set⟩
          rw [inductionHypothesis next _ handled still, same]
          exact iff_of_true (.inl set) (.inl set)
      · obtain ⟨next, handled, same⟩ :=
          rxCpltCallbck_callback port ch fun newline => absurd newline ended
        have still : NeverNull (state.rxCplt port ch) := by
          have called : (state.rxCplt port ch).called = state.called :=
            (called_rxCplt state port ch).trans (if_neg ended)
          rw [NeverNull, called]
          exact clean
        rw [inductionHypothesis next _ handled still, same, registeredFirst_other ended]

/-- In every run after `UartPort_Init`, the handler never calls through a null pointer exactly
when every newline comes after the registration of a function. -/
theorem neverNull_iff (txData rxData : Nat) (machine : Machine) (port : UartPort)
    (initialised : UartPort.init txData rxData machine = some port)
    (events : List CallbackEvent) :
    Runs.EveryState step NeverNull (start port) events ↔ RegisteredFirst events := by
  have unset : port.callback = null := by
    obtain ⟨rxRing, _, rest⟩ := Option.bind_eq_some_iff.mp initialised
    obtain ⟨txRing, _, rest⟩ := Option.bind_eq_some_iff.mp rest
    cases rest
    rfl
  rw [neverNull_iff_of_port port (start port) rfl List.not_mem_nil events]
  exact or_iff_right (not_not.mpr unset)

/-- A letter, the registration of a function, and a newline. -/
theorem neverNull_iff_fresh :
    Runs.EveryState step NeverNull (start .fresh)
      [.rxCplt 65, .setCallbackFunction ⟨4096, by decide⟩, .rxCplt newline] := by
  refine (neverNull_iff 1024 2048 ⟨fun _ => 0, false, []⟩ .fresh UartPort.init_fresh _).mpr ?_
  exact (registeredFirst_other (by decide) _).mpr (registeredFirst_set _ _)

/-- A newline before any registration, as when the program never makes one. -/
theorem not_neverNull :
    ¬ ∀ (txData rxData : Nat) (machine : Machine) (port : UartPort),
      UartPort.init txData rxData machine = some port → ∀ events : List CallbackEvent,
        Runs.EveryState step NeverNull (start port) events := by
  intro claimed
  have never := claimed 1024 2048 ⟨fun _ => 0, false, []⟩ .fresh UartPort.init_fresh
    [.rxCplt newline]
  have taken : step (start .fresh) (.rxCplt newline) = some ⟨none, [null]⟩ := rfl
  exact absurd List.mem_cons_self (never.2 _ taken)

end CallbackState

end RtpLib
