/-
This file settles when the receive thread misses nothing. An interrupt that comes
while the thread is busy is not lost, since the semaphore keeps its token, and a
thread that has run out of frames sleeps with nothing to do. There are two ways to
sleep on a frame. Without memory a frame is dropped and the loop ends, whatever lies
behind it; and when the HAL refuses the call, the loop ends as if there were no frame.
Only a later frame wakes the thread again.

The DMA can be asleep as well, when it has met a descriptor that was not its own.
The thread wakes it at the end of each turn, after the descriptors are back.

Last, the thread comes to rest: each of its steps is paid for by a frame or an
interrupt, and one of them can be taken as long as there is something to do.
-/

import RtpLib.EthReceived

namespace RtpLib

namespace EthReceiver

variable {Desc Buffer : Type}

/-! ### Asleep -/

/-- The thread is between the report of a frame and the write to `DMARPDR`. -/
def Phase.Working : Phase Desc → Prop
  | .reported _ => True
  | .releasing _ _ _ => True
  | _ => False

namespace System

/-- The thread waits, and nothing is on its way that would wake it. -/
structure Asleep (state : System Desc Buffer) : Prop where
  waiting : state.phase = .waiting
  no_token : state.semaphore = false
  no_interrupt : state.interrupt = false

/-- Whenever the thread is asleep, no completed frame waits for it, and the DMA waits for no
descriptor, unless a single frame has taken them all. -/
structure NotStalled (count : Nat) (state : System Desc Buffer) : Prop where
  none_waits : state.Asleep → state.completed = []
  running : state.Asleep → state.suspended = true → state.filling.length = count

/-- Nothing waits for the thread, or something is on its way to wake it. -/
def Covered (state : System Desc Buffer) : Prop :=
  state.completed = [] ∨ state.semaphore = true ∨ state.interrupt = true

/-- A turn that ends without a chain, for want of memory or since the HAL refuses, leaves no frame
behind, unless the thread will be woken. -/
def Attended (state : System Desc Buffer) : Event Desc Buffer → Prop
  | .input _ => state.phase = .passing [] → state.Covered
  | .getReceivedFrame none => state.Covered
  | _ => True

/-- A frame that waits for a waiting thread has something on its way to wake it. -/
def Awaited (state : System Desc Buffer) : Prop := state.phase = .waiting → state.Covered

/-- A suspended DMA has raised RBUS, and either it still has no descriptor or the thread will
see RBUS. -/
def Resumes (constants : DmaConstants) (state : System Desc Buffer) : Prop :=
  state.suspended = true → state.rbus = true ∧
    (¬ rxOwned constants state.eth.descs state.dmaDesc = true ∨ state.phase.Working)

theorem Asleep.not_woken {state : System Desc Buffer} (asleep : state.Asleep) :
    ¬ (state.semaphore = true ∨ state.interrupt = true) := by
  rw [asleep.no_token, asleep.no_interrupt]
  rintro (impossible | impossible)
  · exact Bool.false_ne_true impossible
  · exact Bool.false_ne_true impossible

end System

/-! ### What every step keeps -/

variable [DecidableEq Desc] [DecidableEq Buffer] {constants : DmaConstants}
  {table : Desc → DmaDesc Desc Buffer} {first : Desc} {count : Nat}
  {state next : System Desc Buffer} {event : Event Desc Buffer}

theorem System.Awaited.step (awaited : state.Awaited) (attended : state.Attended event)
    (documented : Documented constants state event)
    (taken : EthReceiver.step constants state event = some next) : next.Awaited := by
  cases move_of_step documented taken with
  | fill running owned cleared => exact awaited
  | complete started length_lt length_le => exact fun _ => .inr (.inr rfl)
  | starve none_owned => exact awaited
  | retry owned => exact awaited
  | interrupt pending => exact fun _ => .inr (.inl rfl)
  | noFrame polling => exact fun _ => attended
  | @input answer p passing =>
    by_cases none : p = []
    · subst none
      exact fun _ => attended passing
    · rw [System.input, if_pos none]
      intro impossible
      cases impossible
  | resume releasing done flag =>
    rw [System.resume]
    split <;> intro impossible <;> cases impossible
  | osSemaphoreWait waiting token =>
    intro impossible
    cases impossible
  | report polling waits reports =>
    intro impossible
    cases impossible
  | copyFrame reported =>
    intro impossible
    cases impossible
  | releaseDesc releasing more =>
    intro impossible
    cases impossible

theorem System.Resumes.step (resumes : state.Resumes constants)
    (documented : Documented constants state event)
    (taken : EthReceiver.step constants state event = some next) : next.Resumes constants := by
  -- Where the thread is not working, a suspended DMA has no descriptor.
  have idle : ¬ state.phase.Working → state.suspended = true →
      state.rbus = true ∧ ¬ rxOwned constants state.eth.descs state.dmaDesc = true :=
    fun resting suspended => ⟨(resumes suspended).1, (resumes suspended).2.resolve_right resting⟩
  cases move_of_step documented taken with
  | fill running owned cleared =>
    exact fun suspended => absurd (running.symm.trans suspended) Bool.false_ne_true
  | complete started length_lt length_le => exact resumes
  | starve none_owned => exact fun _ => ⟨rfl, .inl none_owned⟩
  | retry owned => exact fun impossible => absurd impossible Bool.false_ne_true
  | interrupt pending => exact resumes
  | osSemaphoreWait waiting token =>
    have resting := idle (by rw [waiting]; exact id)
    exact fun suspended => ⟨(resting suspended).1, .inl (resting suspended).2⟩
  | noFrame polling =>
    have resting := idle (by rw [polling]; exact id)
    exact fun suspended => ⟨(resting suspended).1, .inl (resting suspended).2⟩
  | report polling waits reports => exact fun suspended => ⟨(resumes suspended).1, .inr trivial⟩
  | copyFrame reported => exact fun suspended => ⟨(resumes suspended).1, .inr trivial⟩
  | releaseDesc releasing more => exact fun suspended => ⟨(resumes suspended).1, .inr trivial⟩
  | resume releasing done flag =>
    rw [System.resume]
    split
    · exact fun impossible => absurd impossible Bool.false_ne_true
    · rename_i unflagged
      intro suspended
      exact absurd (flag.trans (resumes suspended).1) unflagged
  | input passing =>
    have resting := idle (by rw [passing]; exact id)
    rw [System.input]
    split
    · exact fun suspended => ⟨(resting suspended).1, .inl (resting suspended).2⟩
    · exact fun suspended => ⟨(resting suspended).1, .inl (resting suspended).2⟩

/-- What holds wherever a run goes that leaves no frame behind. -/
structure Watchful (constants : DmaConstants) (table : Desc → DmaDesc Desc Buffer) (first : Desc)
    (count : Nat) (state : System Desc Buffer) : Prop where
  invariant : Invariant constants table first count state
  awaited : state.Awaited
  resumes : state.Resumes constants

theorem Watchful.step (watchful : Watchful constants table first count state)
    (ring : DmaDesc.Ring table first count) (positive : 0 < count) (count_lt : count < 2 ^ 32)
    (documented : Documented constants state event) (attended : state.Attended event)
    (taken : EthReceiver.step constants state event = some next) :
    Watchful constants table first count next where
  invariant := watchful.invariant.step ring positive count_lt documented taken
  awaited := watchful.awaited.step attended documented taken
  resumes := watchful.resumes.step documented taken

omit [DecidableEq Desc] [DecidableEq Buffer] in
theorem Watchful.start {eth : EthDma Desc Buffer}
    (owned : ∀ place, rxOwned constants eth.descs (DmaDesc.node eth.descs first place) = true) :
    Watchful constants eth.descs first count (.start eth first) where
  invariant := .start owned
  awaited _ := .inl rfl
  resumes impossible := absurd impossible Bool.false_ne_true

omit [DecidableEq Desc] [DecidableEq Buffer] in
theorem Watchful.notStalled (watchful : Watchful constants table first count state)
    (ring : DmaDesc.Ring table first count) (positive : 0 < count) : state.NotStalled count := by
  have none_waits : state.Asleep → state.completed = [] := fun asleep =>
    (watchful.awaited asleep.waiting).resolve_right asleep.not_woken
  refine ⟨none_waits, fun asleep suspended => ?_⟩
  obtain ⟨history, returned, filled, placed⟩ := watchful.invariant.placed
  have resting : ¬ state.phase.Working := by
    rw [asleep.waiting]
    exact id
  have full : ¬ filled < returned + count := by
    have taken := (watchful.resumes suspended).2.resolve_right resting
    rwa [placed.dmaDesc, placed.split.free_filled_iff (ring.cyclic positive)] at taken
  have layout := placed.layout
  rw [System.incoming, System.atHand, asleep.waiting, none_waits asleep] at layout
  have layout : returned + state.filling.length = filled := layout
  have bounded := placed.split.bounded
  omega

/-- In every run in which the DMA and the HAL do what their documents say, the thread never sleeps
on a frame, nor the DMA on a descriptor, exactly when no turn leaves a frame behind. -/
theorem everyState_notStalled_iff (constants : DmaConstants) (eth : EthDma Desc Buffer)
    (first : Desc) (count : Nat) (ring : DmaDesc.Ring eth.descs first count) (positive : 0 < count)
    (count_lt : count < 2 ^ 32)
    (owned : ∀ place, rxOwned constants eth.descs (DmaDesc.node eth.descs first place) = true)
    (events : List (Event Desc Buffer))
    (documented : Runs.EveryStep (EthReceiver.step constants) (Documented constants)
      (.start eth first) events) :
    Runs.EveryState (EthReceiver.step constants) (System.NotStalled count) (.start eth first)
        events ↔
      Runs.EveryStep (EthReceiver.step constants) System.Attended (.start eth first) events := by
  refine Runs.everyState_iff_everyStep_of_conforming
    (fun _ watchful => watchful.notStalled ring positive)
    (fun _ _ _ watchful documented attended taken =>
      watchful.step ring positive count_lt documented attended taken)
    (fun state event next _ documented unattended taken notStalled => ?_) (Watchful.start owned)
    documented
  -- The thread goes to sleep with nothing to wake it, and only a frame can wait for it there.
  have sleeps : ∀ sleeping : System Desc Buffer, sleeping.NotStalled count →
      sleeping.phase = .waiting → sleeping.Covered := by
    intro sleeping notStalled waiting
    by_contra uncovered
    rw [System.Covered, not_or, not_or] at uncovered
    obtain ⟨waits, no_token, no_interrupt⟩ := uncovered
    exact waits (notStalled.none_waits
      ⟨waiting, Bool.eq_false_iff.mpr no_token, Bool.eq_false_iff.mpr no_interrupt⟩)
  cases event with
  | input answer =>
    refine unattended fun passing => ?_
    have moved : some (state.input [] answer) = some next := by
      rw [← taken, EthReceiver.step, passing]
    cases moved
    have covered := sleeps _ notStalled rfl
    exact covered
  | getReceivedFrame report =>
    cases report with
    | none =>
      cases move_of_step documented taken with
      | noFrame polling =>
        have covered := sleeps _ notStalled rfl
        exact unattended covered
    | some infos => exact unattended trivial
  | _ => exact unattended trivial

/-- The run of a frame of three bytes in a ring of two buffers. -/
theorem everyState_notStalled_iff_pair :
    Runs.EveryState (EthReceiver.step .small) (System.NotStalled 2) (.start pairOwned false)
        (frameComes ++ frameTaken) ↔
      Runs.EveryStep (EthReceiver.step .small) System.Attended (.start pairOwned false)
        (frameComes ++ frameTaken) :=
  everyState_notStalled_iff .small pairOwned false 2 pairOwned_ring (by decide) (by decide)
    (fun _ => rxOwned_pairOwned _) (frameComes ++ frameTaken) documented_oneFrame

/-! ### Coming to rest -/

/-- A step of the thread or of the interrupt, not one of the DMA. -/
def Event.OfCpu : Event Desc Buffer → Prop
  | .fill _ _ => False
  | .complete _ => False
  | .starve => False
  | .retry => False
  | _ => True

/-- The steps that the thread has still to take before it looks for another frame. -/
def Phase.work (segCount : Nat) : Phase Desc → Nat
  | .waiting => 0
  | .polling => 1
  | .reported _ => segCount + 4
  | .releasing _ _ i => segCount - i + 3
  | .passing _ => 2

/-- The steps that a completed frame takes: its report, the copy, one for each descriptor, the
resumption and the input. -/
def Frame.work (frame : Frame Desc Buffer) : Nat := frame.segCount + 4

/-- The steps that the CPU has still to take, if nothing more comes in. -/
def System.work (state : System Desc Buffer) : Nat :=
  state.interrupt.toNat * 3 + state.semaphore.toNat * 2 +
    state.phase.work state.eth.rxFrameInfos.segCount.toNat +
    Handoff.extent Frame.work state.completed

/-- Each step of the CPU is one less to take. -/
theorem work_lt_of_step (invariant : Invariant constants table first count state)
    (ofCpu : event.OfCpu) (documented : Documented constants state event)
    (taken : EthReceiver.step constants state event = some next) : next.work < state.work := by
  cases move_of_step documented taken with
  | fill running owned cleared => exact absurd ofCpu id
  | complete started length_lt length_le => exact absurd ofCpu id
  | starve none_owned => exact absurd ofCpu id
  | retry owned => exact absurd ofCpu id
  | interrupt pending =>
    have token : state.semaphore.toNat ≤ 1 := Bool.toNat_le _
    simp only [System.work, pending, Bool.toNat_true, Bool.toNat_false]
    omega
  | osSemaphoreWait waiting token =>
    simp only [System.work, waiting, token, Phase.work, Bool.toNat_true, Bool.toNat_false]
    omega
  | noFrame polling =>
    simp only [System.work, polling, Phase.work]
    omega
  | @report infos frame rest polling waits reports =>
    obtain ⟨history, returned, filled, placed⟩ := invariant.placed
    have cost : Handoff.extent Frame.work (frame :: rest) =
        frame.infos.segCount.toNat + 4 + Handoff.extent Frame.work rest := rfl
    rw [reports (placed.segCount polling)]
    simp only [System.work, System.report, polling, waits, cost, Phase.work, List.tail_cons]
    omega
  | copyFrame reported =>
    simp only [System.work, System.copyFrame, reported, Phase.work]
    omega
  | releaseDesc releasing more =>
    simp only [System.work, System.releaseDesc, releasing, Phase.work]
    omega
  | resume releasing done flag =>
    rw [System.resume]
    split
    · simp only [System.work, releasing, Phase.work]
      omega
    · simp only [System.work, releasing, Phase.work]
      omega
  | input passing =>
    rw [System.input]
    split
    · simp only [System.work, passing, Phase.work]
      omega
    · simp only [System.work, passing, Phase.work]
      omega

/-- Unless all is asleep, the CPU has a step to take. -/
theorem exists_step_of_not_asleep (rbus_ne : constants.ethDmasrRbus ≠ 0)
    (state : System Desc Buffer) (awake : ¬ state.Asleep) :
    ∃ event : Event Desc Buffer, event.OfCpu ∧ Documented constants state event ∧
      (EthReceiver.step constants state event).isSome := by
  cases here : state.phase with
  | waiting =>
    by_cases pending : state.interrupt = true
    · refine ⟨.interrupt, trivial, trivial, ?_⟩
      rw [EthReceiver.step, if_pos pending]
      rfl
    · have token : state.semaphore = true := by
        by_contra no_token
        exact awake ⟨here, Bool.eq_false_iff.mpr no_token, Bool.eq_false_iff.mpr pending⟩
      refine ⟨.osSemaphoreWait, trivial, trivial, ?_⟩
      simp only [EthReceiver.step, here]
      rw [if_pos token]
      rfl
  | polling =>
    refine ⟨.getReceivedFrame none, trivial, trivial, ?_⟩
    simp only [EthReceiver.step, here]
    rfl
  | reported bytes =>
    refine ⟨.copyFrame .exhausted, trivial, trivial, ?_⟩
    simp only [EthReceiver.step, here]
    rfl
  | releasing p dmarxdesc i =>
    by_cases more : i < state.eth.rxFrameInfos.segCount.toNat
    · refine ⟨.releaseDesc, trivial, trivial, ?_⟩
      simp only [EthReceiver.step, here]
      rw [if_pos more]
      rfl
    · have flag : ((if state.rbus then constants.ethDmasrRbus else 0) &&&
          constants.ethDmasrRbus != 0) = state.rbus := by
        cases state.rbus with
        | true =>
          rw [if_pos rfl, UInt32.and_self]
          exact bne_iff_ne.mpr rbus_ne
        | false =>
          rw [if_neg Bool.false_ne_true, UInt32.zero_and]
          rfl
      refine ⟨.resume (if state.rbus then constants.ethDmasrRbus else 0), trivial, flag, ?_⟩
      simp only [EthReceiver.step, here]
      rw [if_neg more]
      rfl
  | passing p =>
    refine ⟨.input .errOk, trivial, trivial, ?_⟩
    simp only [EthReceiver.step, here]
    rfl

/-- The CPU has come to rest, with every frame that arrived passed up or dropped for want of
memory. -/
structure System.AtRest (state : System Desc Buffer) : Prop where
  asleep : state.Asleep
  none_left : state.granted.length = state.arrived.length
  offered : state.offered = kept state.arrived state.granted

omit [DecidableEq Desc] [DecidableEq Buffer] in
theorem Watchful.atRest (watchful : Watchful constants table first count state)
    (ring : DmaDesc.Ring table first count) (positive : 0 < count) (asleep : state.Asleep) :
    state.AtRest := by
  have delivers := watchful.invariant.read.delivers
  refine ⟨asleep, ?_, delivers.offered⟩
  have unread := delivers.unread
  rw [System.unread, asleep.waiting,
    (watchful.notStalled ring positive).none_waits asleep] at unread
  exact Nat.le_antisymm delivers.granted_le (List.drop_eq_nil_iff.mp unread)

/-- From wherever a run has led to, and in whatever order the interrupt and the thread go on, they
come to an end in no more steps than `work` says, and there the thread is asleep. When no turn of
the whole run has left a frame behind, all is at rest there. -/
theorem atRest_of_run (constants : DmaConstants) (rbus_ne : constants.ethDmasrRbus ≠ 0)
    (eth : EthDma Desc Buffer) (first : Desc) (count : Nat)
    (ring : DmaDesc.Ring eth.descs first count) (positive : 0 < count) (count_lt : count < 2 ^ 32)
    (owned : ∀ place, rxOwned constants eth.descs (DmaDesc.node eth.descs first place) = true)
    (events more : List (Event Desc Buffer)) (state last : System Desc Buffer)
    (reached : Runs.Leads (EthReceiver.step constants) (Documented constants) (.start eth first)
      events state)
    (goesOn : Runs.Leads (EthReceiver.step constants) (Documented constants) state more last)
    (ofCpu : ∀ event ∈ more, event.OfCpu) :
    more.length ≤ state.work ∧
      ((∀ event next, event.OfCpu → Documented constants last event →
          EthReceiver.step constants last event ≠ some next) →
        last.Asleep ∧ last.Delivers ∧
          (Runs.EveryStep (EthReceiver.step constants) System.Attended (.start eth first)
            (events ++ more) → last.AtRest)) := by
  have keep : ∀ (state : System Desc Buffer) event next,
      Invariant constants eth.descs first count state → Documented constants state event →
        EthReceiver.step constants state event = some next →
          Invariant constants eth.descs first count next :=
    fun _ _ _ invariant documented taken =>
      invariant.step ring positive count_lt documented taken
  have whole := reached.append goesOn
  have invariant := Runs.run_invariant keep (Invariant.start owned) reached.guarded reached.reached
  have guarded := (goesOn.guarded.with_invariant keep invariant).and
    (Runs.everyStep_of_mem ofCpu state)
  have bound := Runs.length_le_of_lowers
    (fun _ _ _ met taken => work_lt_of_step met.1.1 met.2 met.1.2 taken) guarded goesOn.reached
  refine ⟨(Nat.le_add_left _ _).trans bound, fun stuck => ?_⟩
  have asleep : last.Asleep := by
    by_contra awake
    obtain ⟨event, ofCpu, documented, some⟩ := exists_step_of_not_asleep rbus_ne last awake
    obtain ⟨next, taken⟩ := Option.isSome_iff_exists.mp some
    exact stuck event next ofCpu documented taken
  have invariant := Runs.run_invariant keep invariant goesOn.guarded goesOn.reached
  refine ⟨asleep, invariant.read.delivers, fun attended => ?_⟩
  have watchful := Runs.run_invariant
    (fun _ _ _ watchful met taken => watchful.step ring positive count_lt met.1 met.2 taken)
    (Watchful.start owned) (whole.guarded.and attended) whole.reached
  exact watchful.atRest ring positive asleep

/-- The thread takes a frame out, and there is no memory for it. -/
def frameDropped : List (Event Bool Bool) :=
  [.osSemaphoreWait, .getReceivedFrame (some threeBytes), .copyFrame .exhausted, .releaseDesc,
    .resume 0, .input .errOk]

/-- A frame of three bytes has come in, and there is no memory for it. -/
theorem atRest_of_run_pair : ∃ last : System Bool Bool,
    Runs.run (EthReceiver.step .small) frameCame frameDropped = some last ∧
    6 ≤ frameCame.work ∧ last.AtRest := by
  have dropped : Runs.Leads (EthReceiver.step .small) (Documented .small) frameCame
      frameDropped _ :=
    .cons trivial rfl <| .cons ⟨_, _, rfl, fun _ => rfl⟩ rfl <| .cons trivial rfl <|
      .cons trivial rfl <| .cons rfl rfl <| .cons trivial rfl <| .nil _
  have attended : Runs.Leads (EthReceiver.step .small) System.Attended (.start pairOwned false)
      (frameComes ++ frameDropped) _ :=
    .cons trivial rfl <| .cons trivial rfl <| .cons trivial rfl <| .cons trivial rfl <|
      .cons trivial rfl <| .cons trivial rfl <| .cons trivial rfl <| .cons trivial rfl <|
        .cons (fun _ => .inl rfl) rfl <| .nil _
  obtain ⟨bound, settled⟩ := atRest_of_run .small (by decide) pairOwned false 2 pairOwned_ring
    (by decide) (by decide) (fun _ => rxOwned_pairOwned _) frameComes frameDropped frameCame _
    leads_frameComes dropped (by simp [frameDropped, Event.OfCpu])
  refine ⟨_, dropped.reached, bound,
    (settled fun event next ofCpu _ taken => ?_).2.2 attended.guarded⟩
  cases event with
  | getReceivedFrame report => cases report <;> cases taken
  | _ => first | exact ofCpu | cases taken

end EthReceiver

end RtpLib
