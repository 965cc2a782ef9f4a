/-
This file is the library of runs. A system is a guarded step function: an event
either takes a state to the next one or is disabled. A run is a list of events,
and the two things said of a run are that a property holds in every state it
visits and that every step it takes meets a guard, which reads the state before
the step.

The rules here carry an induction over the events once. An invariant that every
guarded step restores holds wherever a guarded run goes; and when every
unguarded step leads out of the property, the property holds all along a run
exactly when the guard does.

The second half compares two deterministic machines that answer calls: a
relation that every call restores, with equal answers, makes all answers equal.
-/

import Mathlib.Tactic.ByContra

namespace Runs

variable {State Event : Type}

/-! ### Runs, and what holds along them -/

/-- The state a list of events leads to, or `none` when one of them is disabled. -/
def run (step : State → Event → Option State) : State → List Event → Option State
  | state, [] => some state
  | state, event :: rest => (step state event).bind fun next => run step next rest

/-- The property holds in every state the run visits, the first one included. -/
def EveryState (step : State → Event → Option State) (property : State → Prop) :
    State → List Event → Prop
  | state, [] => property state
  | state, event :: rest =>
      property state ∧ ∀ next, step state event = some next → EveryState step property next rest

/-- Every step the run takes meets the guard, in the state before the step. -/
def EveryStep (step : State → Event → Option State) (guard : State → Event → Prop) :
    State → List Event → Prop
  | _, [] => True
  | state, event :: rest =>
      ∀ next, step state event = some next → guard state event ∧ EveryStep step guard next rest

variable {step : State → Event → Option State} {property invariant : State → Prop}
  {guard other : State → Event → Prop}

/-- Guards that can be decided can be decided along a run. -/
instance decidableEveryStep [∀ state event, Decidable (guard state event)] :
    ∀ (state : State) (events : List Event), Decidable (EveryStep step guard state events)
  | _, [] => isTrue trivial
  | state, event :: rest =>
    match taken : step state event with
    | none => isTrue fun next reached => by rw [taken] at reached; cases reached
    | some next =>
      have := decidableEveryStep next rest
      decidable_of_iff (guard state event ∧ EveryStep step guard next rest)
        ⟨fun both other reached => by rw [taken] at reached; cases reached; exact both,
          fun each => each next taken⟩

/-- Properties that can be decided can be decided along a run. -/
instance decidableEveryState [DecidablePred property] :
    ∀ (state : State) (events : List Event), Decidable (EveryState step property state events)
  | state, [] => inferInstanceAs (Decidable (property state))
  | state, event :: rest =>
    match taken : step state event with
    | none => decidable_of_iff (property state)
        ⟨fun first => ⟨first, fun next reached => by rw [taken] at reached; cases reached⟩,
          fun both => both.1⟩
    | some next =>
      have := decidableEveryState next rest
      decidable_of_iff (property state ∧ EveryState step property next rest)
        ⟨fun both => ⟨both.1, fun other reached => by
            rw [taken] at reached; cases reached; exact both.2⟩,
          fun both => ⟨both.1, both.2 next taken⟩⟩

theorem run_cons_eq_some {state last : State} {event : Event} {rest : List Event} :
    run step state (event :: rest) = some last ↔
      ∃ next, step state event = some next ∧ run step next rest = some last :=
  Option.bind_eq_some_iff

/-- A run goes on from the state its first event leads to. -/
theorem run_cons_of_step {state next : State} {event : Event} (taken : step state event = some next)
    (rest : List Event) : run step state (event :: rest) = run step next rest := by
  rw [run, taken, Option.bind_some]

/-- One run after another. -/
theorem run_append (state : State) (first second : List Event) :
    run step state (first ++ second) =
      (run step state first).bind fun next => run step next second := by
  induction first generalizing state with
  | nil => rfl
  | cons event rest inductionHypothesis =>
    rw [List.cons_append, run, run, Option.bind_assoc]
    exact congrArg _ (funext inductionHypothesis)

theorem EveryState.head {state : State} {events : List Event}
    (holds : EveryState step property state events) : property state := by
  cases events with
  | nil => exact holds
  | cons event rest => exact holds.1

/-- Where the first event is taken, the property holds along the run exactly when it holds
before the event and along the rest. -/
theorem everyState_cons_of_step {state next : State} {event : Event}
    (taken : step state event = some next) (rest : List Event) :
    EveryState step property state (event :: rest) ↔
      property state ∧ EveryState step property next rest := by
  refine and_congr_right fun _ => ⟨fun all => all next taken, fun tail other again => ?_⟩
  obtain rfl : next = other := Option.some.inj (taken.symm.trans again)
  exact tail

theorem EveryStep.and {state : State} {events : List Event}
    (first : EveryStep step guard state events) (second : EveryStep step other state events) :
    EveryStep step (fun state event => guard state event ∧ other state event) state events := by
  induction events generalizing state with
  | nil => trivial
  | cons event rest inductionHypothesis =>
    intro next taken
    exact ⟨⟨(first next taken).1, (second next taken).1⟩,
      inductionHypothesis (first next taken).2 (second next taken).2⟩

/-- A guard that holds everywhere is met by every run. -/
theorem everyStep_of_forall (holds : ∀ state event, guard state event) (state : State)
    (events : List Event) : EveryStep step guard state events := by
  induction events generalizing state with
  | nil => trivial
  | cons event rest inductionHypothesis =>
    exact fun next _ => ⟨holds state event, inductionHypothesis next⟩

/-- A guard that reads the events alone is met by every run of events that meet it. -/
theorem everyStep_of_mem {allowed : Event → Prop} {events : List Event}
    (holds : ∀ event ∈ events, allowed event) (state : State) :
    EveryStep step (fun _ event => allowed event) state events := by
  induction events generalizing state with
  | nil => trivial
  | cons event rest inductionHypothesis =>
    obtain ⟨head, tail⟩ := List.forall_mem_cons.mp holds
    exact fun next _ => ⟨head, inductionHypothesis tail next⟩

/-- A guard along one run after another. -/
theorem everyStep_append {state next : State} {first : List Event} (second : List Event)
    (reached : run step state first = some next) :
    EveryStep step guard state (first ++ second) ↔
      EveryStep step guard state first ∧ EveryStep step guard next second := by
  induction first generalizing state with
  | nil =>
    cases reached
    exact (and_iff_right trivial).symm
  | cons event rest inductionHypothesis =>
    obtain ⟨after, taken, reached⟩ := run_cons_eq_some.mp reached
    have only : ∀ other, step state event = some other → after = other := fun other again =>
      Option.some.inj (taken.symm.trans again)
    constructor
    · intro guarded
      obtain ⟨met, later⟩ := guarded after taken
      obtain ⟨front, back⟩ := (inductionHypothesis reached).mp later
      exact ⟨fun other again => only other again ▸ ⟨met, front⟩, back⟩
    · rintro ⟨front, back⟩ other again
      obtain ⟨met, later⟩ := front other again
      obtain rfl := only other again
      exact ⟨met, (inductionHypothesis reached).mpr ⟨later, back⟩⟩

/-- A list of events leads to a state, by guarded steps. -/
structure Leads (step : State → Event → Option State) (guard : State → Event → Prop)
    (state : State) (events : List Event) (last : State) : Prop where
  reached : run step state events = some last
  guarded : EveryStep step guard state events

namespace Leads

theorem nil (state : State) : Leads step guard state [] state := ⟨rfl, trivial⟩

theorem cons {state next last : State} {event : Event} {rest : List Event}
    (met : guard state event) (taken : step state event = some next)
    (later : Leads step guard next rest last) : Leads step guard state (event :: rest) last where
  reached := (run_cons_of_step taken rest).trans later.reached
  guarded other again := by
    obtain rfl : next = other := Option.some.inj (taken.symm.trans again)
    exact ⟨met, later.guarded⟩

theorem append {state next last : State} {first second : List Event}
    (front : Leads step guard state first next) (back : Leads step guard next second last) :
    Leads step guard state (first ++ second) last where
  reached := by rw [run_append, front.reached, Option.bind_some, back.reached]
  guarded := (everyStep_append second front.reached).mpr ⟨front.guarded, back.guarded⟩

end Leads

/-! ### The invariant rules -/

/-- An invariant that every guarded step restores holds at the end of a guarded run. -/
theorem run_invariant
    (keep : ∀ state event next, invariant state → guard state event →
      step state event = some next → invariant next)
    {state last : State} {events : List Event} (start : invariant state)
    (guarded : EveryStep step guard state events) (reached : run step state events = some last) :
    invariant last := by
  induction events generalizing state with
  | nil => exact Option.some.inj reached ▸ start
  | cons event rest inductionHypothesis =>
    obtain ⟨next, taken, reached⟩ := run_cons_eq_some.mp reached
    have step_guarded := guarded next taken
    exact inductionHypothesis (keep state event next start step_guarded.1 taken) step_guarded.2
      reached

/-- An invariant that every guarded step keeps holds before each step of a guarded run. -/
theorem EveryStep.with_invariant
    (keep : ∀ state event next, invariant state → guard state event →
      step state event = some next → invariant next)
    {state : State} {events : List Event} (start : invariant state)
    (guarded : EveryStep step guard state events) :
    EveryStep step (fun state event => invariant state ∧ guard state event) state events := by
  induction events generalizing state with
  | nil => trivial
  | cons event rest inductionHypothesis =>
    intro next taken
    obtain ⟨head, tail⟩ := guarded next taken
    exact ⟨⟨start, head⟩, inductionHypothesis (keep state event next start head taken) tail⟩

/-- An invariant that every guarded step restores, and that implies the property, makes the
property hold all along a guarded run. -/
theorem everyState_of_everyStep
    (sound : ∀ state, invariant state → property state)
    (keep : ∀ state event next, invariant state → guard state event →
      step state event = some next → invariant next)
    {state : State} {events : List Event} (start : invariant state)
    (guarded : EveryStep step guard state events) : EveryState step property state events := by
  induction events generalizing state with
  | nil => exact sound state start
  | cons event rest inductionHypothesis =>
    refine ⟨sound state start, fun next taken => ?_⟩
    have step_guarded := guarded next taken
    exact inductionHypothesis (keep state event next start step_guarded.1 taken) step_guarded.2

/-- An invariant that every step restores, and that implies the property, makes the property
hold all along every run. -/
theorem everyState_of_step
    (sound : ∀ state, invariant state → property state)
    (keep : ∀ state event next, invariant state → step state event = some next → invariant next)
    {state : State} (start : invariant state) (events : List Event) :
    EveryState step property state events := by
  have unguarded : EveryStep step (fun _ _ => True) state events :=
    everyStep_of_forall (fun _ _ => trivial) state events
  exact everyState_of_everyStep sound (fun _ _ _ holds _ taken => keep _ _ _ holds taken) start
    unguarded

/-- When moreover every unguarded step leads out of the property, the property holds all along a
run of conforming steps exactly when every step of the run is guarded. -/
theorem everyState_iff_everyStep_of_conforming {conforming : State → Event → Prop}
    (sound : ∀ state, invariant state → property state)
    (keep : ∀ state event next, invariant state → conforming state event → guard state event →
      step state event = some next → invariant next)
    (strict : ∀ state event next, invariant state → conforming state event →
      ¬ guard state event → step state event = some next → ¬ property next)
    {state : State} {events : List Event} (start : invariant state)
    (conforms : EveryStep step conforming state events) :
    EveryState step property state events ↔ EveryStep step guard state events := by
  constructor
  · intro holds
    induction events generalizing state with
    | nil => trivial
    | cons event rest inductionHypothesis =>
      intro next taken
      obtain ⟨conforming, conforms⟩ := conforms next taken
      have tail : EveryState step property next rest := holds.2 next taken
      have met : guard state event := by
        by_contra unmet
        exact strict state event next start conforming unmet taken tail.head
      exact ⟨met, inductionHypothesis (keep state event next start conforming met taken) conforms
        tail⟩
  · intro guarded
    exact everyState_of_everyStep sound
      (fun state event next holds both taken => keep state event next holds both.1 both.2 taken)
      start (conforms.and guarded)

/-- The same where every step conforms. -/
theorem everyState_iff_everyStep
    (sound : ∀ state, invariant state → property state)
    (keep : ∀ state event next, invariant state → guard state event →
      step state event = some next → invariant next)
    (strict : ∀ state event next, invariant state → ¬ guard state event →
      step state event = some next → ¬ property next)
    {state : State} (events : List Event) (start : invariant state) :
    EveryState step property state events ↔ EveryStep step guard state events := by
  have conforms : EveryStep step (fun _ _ => True) state events :=
    everyStep_of_forall (fun _ _ => trivial) state events
  exact everyState_iff_everyStep_of_conforming sound
    (fun _ _ _ holds _ met taken => keep _ _ _ holds met taken)
    (fun _ _ _ holds _ unmet taken => strict _ _ _ holds unmet taken) start conforms

/-- A run whose every step lowers a measure is no longer than the measure allows. -/
theorem length_le_of_lowers {measure : State → Nat}
    (lowers : ∀ state event next, guard state event → step state event = some next →
      measure next < measure state)
    {state last : State} {events : List Event} (guarded : EveryStep step guard state events)
    (reached : run step state events = some last) :
    measure last + events.length ≤ measure state := by
  induction events generalizing state with
  | nil => exact Nat.le_of_eq (congrArg measure (Option.some.inj reached).symm)
  | cons event rest inductionHypothesis =>
    obtain ⟨next, taken, reached⟩ := run_cons_eq_some.mp reached
    have step_guarded := guarded next taken
    have lower := lowers state event next step_guarded.1 taken
    exact Nat.lt_of_le_of_lt (inductionHypothesis step_guarded.2 reached) lower

section Traps

variable {conforming : State → Event → Prop} {trapped settled : State → Prop}

/-- From a trap that a conforming run does not leave while the property holds, a run that ends
in a settled state has visited a state without the property. -/
theorem not_everyState_of_trapped
    (stay : ∀ state event next, trapped state → property state → conforming state event →
      step state event = some next → trapped next)
    (closed : ∀ state, trapped state → settled state → ¬ property state)
    {state last : State} {events : List Event} (inside : trapped state)
    (conforms : EveryStep step conforming state events)
    (reached : run step state events = some last) (ended : settled last) :
    ¬ EveryState step property state events := by
  induction events generalizing state with
  | nil => exact closed state inside (Option.some.inj reached ▸ ended)
  | cons event rest inductionHypothesis =>
    intro holds
    obtain ⟨next, taken, reached⟩ := run_cons_eq_some.mp reached
    have conforming := conforms next taken
    have inside := stay state event next inside holds.1 conforming.1 taken
    exact inductionHypothesis inside conforming.2 reached (holds.2 next taken)

/-- When every unguarded step leads into such a trap, a conforming run that ends settled has
the property in every state only if all its steps are guarded. -/
theorem everyStep_of_everyState
    (keep : ∀ state event next, invariant state → conforming state event →
      guard state event → step state event = some next → invariant next)
    (trap : ∀ state event next, invariant state → conforming state event →
      ¬ guard state event → step state event = some next → trapped next)
    (stay : ∀ state event next, trapped state → property state → conforming state event →
      step state event = some next → trapped next)
    (closed : ∀ state, trapped state → settled state → ¬ property state)
    {state last : State} {events : List Event} (start : invariant state)
    (conforms : EveryStep step conforming state events)
    (reached : run step state events = some last) (ended : settled last)
    (holds : EveryState step property state events) : EveryStep step guard state events := by
  induction events generalizing state with
  | nil => trivial
  | cons event rest inductionHypothesis =>
    intro next taken
    obtain ⟨other, taken', reached⟩ := run_cons_eq_some.mp reached
    obtain rfl : next = other := Option.some.inj (taken.symm.trans taken')
    have conforming := conforms next taken
    have tail := holds.2 next taken
    have met : guard state event := by
      by_contra unmet
      have inside := trap state event next start conforming.1 unmet taken
      exact not_everyState_of_trapped stay closed inside conforming.2 reached ended tail
    exact ⟨met, inductionHypothesis (keep state event next start conforming.1 met taken)
      conforming.2 reached tail⟩

end Traps

/-! ### Machines that answer calls -/

section Answers

variable {Call Answer Concrete Abstract : Type}

/-- The answers a machine gives to a list of calls, oldest first. -/
def answers (respond : State → Call → Answer × State) : State → List Call → List Answer
  | _, [] => []
  | state, call :: rest =>
      (respond state call).1 :: answers respond (respond state call).2 rest

/-- The state a machine is in after a list of calls. -/
def after (respond : State → Call → Answer × State) (state : State) (calls : List Call) : State :=
  calls.foldl (fun state call => (respond state call).2) state

theorem after_concat (respond : State → Call → Answer × State) (state : State)
    (calls : List Call) (call : Call) :
    after respond state (calls ++ [call]) = (respond (after respond state calls) call).2 := by
  rw [after, List.foldl_append]
  rfl

/-- A relation that every call restores, with equal answers, makes all answers equal. -/
theorem answers_eq_of_simulation {concrete : Concrete → Call → Answer × Concrete}
    {abstract : Abstract → Call → Answer × Abstract} (related : Concrete → Abstract → Prop)
    (simulates : ∀ first second call, related first second →
      (concrete first call).1 = (abstract second call).1 ∧
        related (concrete first call).2 (abstract second call).2)
    {first : Concrete} {second : Abstract} (start : related first second) (calls : List Call) :
    answers concrete first calls = answers abstract second calls := by
  induction calls generalizing first second with
  | nil => rfl
  | cons call rest inductionHypothesis =>
    obtain ⟨same, next⟩ := simulates first second call start
    simp only [answers, same, inductionHypothesis next]

/-- Every call of a list is guarded in the state that it finds. -/
def EveryCall (respond : State → Call → Answer × State) (guard : State → Call → Prop) :
    State → List Call → Prop
  | _, [] => True
  | state, call :: rest =>
      guard state call ∧ EveryCall respond guard (respond state call).2 rest

/-- When guarded calls get equal answers and restore the relation, and other calls get different
answers, all answers are equal exactly when every call is guarded. -/
theorem answers_eq_iff_everyCall {concrete : Concrete → Call → Answer × Concrete}
    {abstract : Abstract → Call → Answer × Abstract} {guard : Abstract → Call → Prop}
    (related : Concrete → Abstract → Prop)
    (simulates : ∀ first second call, related first second → guard second call →
      (concrete first call).1 = (abstract second call).1 ∧
        related (concrete first call).2 (abstract second call).2)
    (strict : ∀ first second call, related first second → ¬ guard second call →
      (concrete first call).1 ≠ (abstract second call).1)
    {first : Concrete} {second : Abstract} (start : related first second) (calls : List Call) :
    answers concrete first calls = answers abstract second calls ↔
      EveryCall abstract guard second calls := by
  induction calls generalizing first second with
  | nil => exact iff_of_true rfl trivial
  | cons call rest inductionHypothesis =>
    rw [answers, answers, List.cons.injEq, EveryCall]
    by_cases guarded : guard second call
    · obtain ⟨same, next⟩ := simulates first second call start guarded
      rw [inductionHypothesis next, and_iff_right same, and_iff_right guarded]
    · refine iff_of_false (fun equal => ?_) fun every => guarded every.1
      exact strict first second call start guarded equal.1

/-- Machines that answer every list of calls alike answer one call alike, and are alike after
it. -/
theorem answers_eq_next {concrete : Concrete → Call → Answer × Concrete}
    {abstract : Abstract → Call → Answer × Abstract} {first : Concrete} {second : Abstract}
    (alike : ∀ calls, answers concrete first calls = answers abstract second calls)
    (call : Call) :
    (concrete first call).1 = (abstract second call).1 ∧
      ∀ calls, answers concrete (concrete first call).2 calls =
        answers abstract (abstract second call).2 calls :=
  ⟨(List.cons.inj (alike [call])).1, fun rest => (List.cons.inj (alike (call :: rest))).2⟩

end Answers

end Runs
