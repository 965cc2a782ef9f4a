/-
This file settles that a call of `low_level_output` is one step of the system,
whatever the DMA does meanwhile. A call looks at one descriptor after the other, and
each may have changed since; yet a descriptor found free stays so, and the links and
the addresses never change. Had the call been made in one go when it last looked at a
descriptor, it would have met the same answers: that look is the point at which the
whole call may be thought to happen.

The proof follows a call from the other end. At each point, what is left to do, run
with any descriptors that can come about from those last seen, gives what the whole
call gives with them; at the end nothing is left to do.
-/

import RtpLib.EthTransmitted

namespace RtpLib

namespace EthTransmitter

variable {Desc Buffer : Type} [DecidableEq Buffer]

/-! ### What is left of a call -/

/-- What the loops come to from the head of the inner loop on. -/
def copyOn (constants : DmaConstants) (descs : Desc → DmaDesc Desc Buffer)
    (vars : OutputState Desc Buffer) (q : Pbuf) (rest : List Pbuf)
    (byteslefttocopy payloadoffset : Nat) :
    Except (OutputState Desc Buffer) (OutputState Desc Buffer) := do
  let (vars, byteslefttocopy, payloadoffset) ←
    fillBuffers constants descs q vars byteslefttocopy payloadoffset
  outputChain constants descs rest {
    vars.memcpy q payloadoffset byteslefttocopy with
    bufferoffset := vars.bufferoffset + byteslefttocopy
    framelength := vars.framelength + byteslefttocopy }

/-- What the loops come to from a place on, with the descriptors given. -/
def Phase.outcome (constants : DmaConstants) (descs : Desc → DmaDesc Desc Buffer)
    (vars : OutputState Desc Buffer) :
    Phase → Except (OutputState Desc Buffer) (OutputState Desc Buffer)
  | .nextPbuf rest => outputChain constants descs rest vars
  | .copying q rest byteslefttocopy payloadoffset =>
    copyOn constants descs vars q rest byteslefttocopy payloadoffset
  | .asking q rest byteslefttocopy payloadoffset =>
    let space := constants.ethTxBufSize - vars.bufferoffset
    if txOwned constants descs vars.dmaTxDesc then .error vars
    else copyOn constants descs
      { vars with
        buffer := (descs vars.dmaTxDesc).buffer1Addr
        framelength := vars.framelength + space
        bufferoffset := 0 }
      q rest (byteslefttocopy - space) (payloadoffset + space)
  | .leaving errval => if errval = .errOk then .ok vars else .error vars
  | .idle => .error vars

/-- The loops are not through. -/
def Phase.Looping : Phase → Prop
  | .idle => False
  | .leaving _ => False
  | _ => True

/-- What `HAL_ETH_TransmitFrame` has been given at a place, by the length of the frame. -/
def Phase.given (framelength : Nat) : Phase → List Nat
  | .leaving .errOk => [framelength]
  | _ => []

theorem Phase.Looping.given {phase : Phase} (looping : phase.Looping) (framelength : Nat) :
    phase.given framelength = [] := by
  cases phase with
  | leaving errval => exact looping.elim
  | _ => rfl

section Outcome

variable {constants : DmaConstants} {descs : Desc → DmaDesc Desc Buffer}
  {vars : OutputState Desc Buffer} {q : Pbuf} {rest : List Pbuf}
  {byteslefttocopy payloadoffset : Nat}

theorem outcome_refuse (busy : txOwned constants descs vars.dmaTxDesc = true) :
    (Phase.nextPbuf (q :: rest)).outcome constants descs vars = .error vars := by
  rw [Phase.outcome, outputChain, if_pos busy]

theorem outcome_enter (free : ¬ txOwned constants descs vars.dmaTxDesc = true) :
    (Phase.nextPbuf (q :: rest)).outcome constants descs vars =
      (Phase.copying q rest q.len.toNat 0).outcome constants descs vars := by
  rw [Phase.outcome, outputChain, if_neg free]
  rfl

theorem outcome_fillUp (more : byteslefttocopy + vars.bufferoffset > constants.ethTxBufSize) :
    (Phase.copying q rest byteslefttocopy payloadoffset).outcome constants descs vars =
      (Phase.asking q rest byteslefttocopy payloadoffset).outcome constants descs
        { vars.memcpy q payloadoffset (constants.ethTxBufSize - vars.bufferoffset) with
          dmaTxDesc := (descs vars.dmaTxDesc).buffer2NextDescAddr } := by
  show copyOn constants descs vars q rest byteslefttocopy payloadoffset = if _ then _ else _
  unfold copyOn
  rw [fillBuffers, if_pos more]
  by_cases busy : txOwned constants descs (descs vars.dmaTxDesc).buffer2NextDescAddr = true
  · simp only [if_pos busy]
    rfl
  · simp only [if_neg busy]
    rfl

theorem outcome_copyRest
    (room : ¬ byteslefttocopy + vars.bufferoffset > constants.ethTxBufSize) :
    (Phase.copying q rest byteslefttocopy payloadoffset).outcome constants descs vars =
      (Phase.nextPbuf rest).outcome constants descs
        { vars.memcpy q payloadoffset byteslefttocopy with
          bufferoffset := vars.bufferoffset + byteslefttocopy
          framelength := vars.framelength + byteslefttocopy } := by
  show copyOn constants descs vars q rest byteslefttocopy payloadoffset = outputChain _ _ _ _
  unfold copyOn
  rw [fillBuffers, if_neg room]
  rfl

theorem outcome_breakOff (busy : txOwned constants descs vars.dmaTxDesc = true) :
    (Phase.asking q rest byteslefttocopy payloadoffset).outcome constants descs vars =
      .error vars := by
  rw [Phase.outcome, if_pos busy]

theorem outcome_goOn (free : ¬ txOwned constants descs vars.dmaTxDesc = true) :
    (Phase.asking q rest byteslefttocopy payloadoffset).outcome constants descs vars =
      (Phase.copying q rest (byteslefttocopy - (constants.ethTxBufSize - vars.bufferoffset))
          (payloadoffset + (constants.ethTxBufSize - vars.bufferoffset))).outcome constants descs
        { vars with
          buffer := (descs vars.dmaTxDesc).buffer1Addr
          framelength := vars.framelength + (constants.ethTxBufSize - vars.bufferoffset)
          bufferoffset := 0 } := by
  unfold Phase.outcome
  exact if_neg free

end Outcome

/-! ### The invariant -/

section Invariant

variable (constants : DmaConstants) (state : System Desc Buffer)

/-- What is left to do completes what has been done to a call made in one go. -/
structure Consistent : Prop where
  fresh : Cleared constants state.begun.descs state.asked
  current : state.phase.Looping → Cleared constants state.asked state.eth.descs
  along : ∀ later, Cleared constants state.asked later →
    state.phase.Looping ∨ later = state.asked →
      outputChain constants later state.p (.start state.begun) =
        state.phase.outcome constants later state.vars
  errval : ∀ errval, state.phase = .leaving errval → errval = .errOk ∨ errval = .errUse
  memory : state.eth.memory = state.vars.memory
  writes : state.eth.writes = state.begun.writes
  transmitFrame : state.transmitFrame = state.phase.given state.vars.framelength

end Invariant

section Steps

variable {constants : DmaConstants} {state next : System Desc Buffer}

/-- The DMA is done with a descriptor. -/
theorem Consistent.close [DecidableEq Desc] (consistent : Consistent constants state)
    {frame : Flight} {rest : List Flight} {status : UInt32}
    (cleared : status &&& constants.ethDmaTxDescOwn = 0) :
    Consistent constants (state.close constants frame rest status) where
  fresh := consistent.fresh
  current looping := (consistent.current looping).trans (.update state.dmaDesc cleared)
  along := consistent.along
  errval := consistent.errval
  memory := consistent.memory
  writes := consistent.writes
  transmitFrame := consistent.transmitFrame

/-- A look at a descriptor: what can come about from now on could before. -/
theorem Consistent.look (consistent : Consistent constants state)
    (looping : state.phase.Looping) {vars : OutputState Desc Buffer} {phase : Phase}
    (memory : vars.memory = state.vars.memory)
    (along : ∀ later, Cleared constants state.eth.descs later →
      phase.Looping ∨ later = state.eth.descs →
        state.phase.outcome constants later state.vars = phase.outcome constants later vars)
    (errval : ∀ errval, phase = .leaving errval → errval = .errOk ∨ errval = .errUse)
    (given : ∀ framelength, phase.given framelength = []) :
    Consistent constants
      { state with vars := vars, phase := phase, asked := state.eth.descs } where
  fresh := consistent.fresh.trans (consistent.current looping)
  current _ := .refl constants _
  along later after which :=
    (consistent.along later ((consistent.current looping).trans after) (.inl looping)).trans
      (along later after which)
  errval := errval
  memory := consistent.memory.trans memory.symm
  writes := consistent.writes
  transmitFrame :=
    consistent.transmitFrame.trans ((looping.given _).trans (given vars.framelength).symm)

/-- A copy. -/
theorem Consistent.copy (consistent : Consistent constants state)
    (looping : state.phase.Looping) (stays : next.phase.Looping)
    (descs : next.eth.descs = state.eth.descs) (memory : next.eth.memory = next.vars.memory)
    (writes : next.eth.writes = state.eth.writes) (p : next.p = state.p)
    (begun : next.begun = state.begun) (asked : next.asked = state.asked)
    (transmitFrame : next.transmitFrame = state.transmitFrame)
    (along : ∀ later, Cleared constants state.asked later →
      state.phase.outcome constants later state.vars =
        next.phase.outcome constants later next.vars) :
    Consistent constants next := by
  refine ⟨?_, fun _ => ?_, ?_, ?_, memory, ?_, ?_⟩
  · rw [begun, asked]
    exact consistent.fresh
  · rw [asked, descs]
    exact consistent.current looping
  · rw [asked, p, begun]
    exact fun later after _ =>
      (consistent.along later after (.inl looping)).trans (along later after)
  · intro errval leaving
    rw [leaving] at stays
    exact stays.elim
  · rw [writes, begun, consistent.writes]
  · rw [transmitFrame, consistent.transmitFrame, looping.given, stays.given]

/-- The loops are through, and the HAL has been called. -/
theorem Consistent.leaving (consistent : Consistent constants state)
    (through : state.phase = .nextPbuf []) (phase : next.phase = .leaving .errOk)
    (memory : next.eth.memory = state.eth.memory) (writes : next.eth.writes = state.eth.writes)
    (vars : next.vars = state.vars) (p : next.p = state.p) (begun : next.begun = state.begun)
    (asked : next.asked = state.asked)
    (transmitFrame : next.transmitFrame = state.transmitFrame ++ [state.vars.framelength]) :
    Consistent constants next := by
  have along := consistent.along
  have given := consistent.transmitFrame
  rw [through] at along given
  refine ⟨?_, ?_, ?_, ?_, ?_, ?_, ?_⟩
  · rw [begun, asked]
    exact consistent.fresh
  · rw [phase]
    exact False.elim
  · rw [asked, p, begun, vars, phase]
    exact fun later after _ => along later after (.inl trivial)
  · rw [phase]
    exact fun errval same => .inl (Phase.leaving.inj same).symm
  · rw [memory, vars, consistent.memory]
  · rw [writes, begun, consistent.writes]
  · rw [transmitFrame, given, phase, vars]
    rfl

/-- Every step keeps what is left of the call in line with the whole of it. -/
theorem Consistent.step [DecidableEq Desc] {hal : HalTransmit}
    (consistent : state.phase ≠ .idle → Consistent constants state)
    {event : Event Desc Buffer} (documented : Documented constants hal state event)
    (taken : EthTransmitter.step constants state event = some next) :
    next.phase ≠ .idle → Consistent constants next := by
  intro busy
  cases move_of_step documented taken with
  | call idle =>
    exact ⟨.refl constants _, fun _ => .refl constants _, fun _ _ _ => rfl,
      fun _ impossible => Phase.noConfusion impossible, rfl, rfl, rfl⟩
  | refuse asking owned =>
    have here := consistent (by rw [asking]; exact Phase.noConfusion)
    refine here.look (by rw [asking]; trivial) rfl ?_
      (fun errval same => .inr (Phase.leaving.inj same).symm) fun _ => rfl
    rintro later - (impossible | rfl)
    · exact impossible.elim
    · rw [asking, outcome_refuse owned]
      rfl
  | enter asking free =>
    have here := consistent (by rw [asking]; exact Phase.noConfusion)
    refine here.look (by rw [asking]; trivial) rfl ?_
      (fun _ impossible => Phase.noConfusion impossible) fun _ => rfl
    intro later after _
    rw [asking]
    exact outcome_enter fun owned => free (after.owned _ owned)
  | fillUp copying more =>
    have here := consistent (by rw [copying]; exact Phase.noConfusion)
    have links := (here.current (by rw [copying]; trivial)).links
    refine here.copy (by rw [copying]; trivial) trivial rfl rfl rfl rfl rfl rfl rfl
      fun later after => ?_
    rw [copying, outcome_fillUp more, after.links, ← links]
    rfl
  | copyRest copying room =>
    have here := consistent (by rw [copying]; exact Phase.noConfusion)
    refine here.copy (by rw [copying]; trivial) trivial rfl rfl rfl rfl rfl rfl rfl
      fun later _ => ?_
    rw [copying]
    exact outcome_copyRest room
  | breakOff asking owned =>
    have here := consistent (by rw [asking]; exact Phase.noConfusion)
    refine here.look (by rw [asking]; trivial) rfl ?_
      (fun errval same => .inr (Phase.leaving.inj same).symm) fun _ => rfl
    rintro later - (impossible | rfl)
    · exact impossible.elim
    · rw [asking, outcome_breakOff owned]
      rfl
  | goOn asking free =>
    have here := consistent (by rw [asking]; exact Phase.noConfusion)
    refine here.look (by rw [asking]; trivial) rfl ?_
      (fun _ impossible => Phase.noConfusion impossible) fun _ => rfl
    intro later after _
    rw [asking, outcome_goOn fun owned => free (after.owned _ owned), after.addrs]
  | handOver through accepts =>
    exact (consistent (by rw [through]; exact Phase.noConfusion)).leaving through rfl rfl rfl rfl
      rfl rfl rfl rfl
  | lose through refuses =>
    exact (consistent (by rw [through]; exact Phase.noConfusion)).leaving through rfl rfl rfl rfl
      rfl rfl rfl rfl
  | leave leaving => exact absurd rfl busy
  | close flying owned cleared => exact (consistent busy).close cleared

end Steps

/-- When the call begins, the DMA has both descriptors; it is done with the first one before the
call looks at it. -/
example : (Runs.run (step .small) (.start .pair)
      [.call [⟨fun _ => 67, 8⟩], .ask, .copy, .askNext, .copy,
        .transmitFrame false (handedOver .small .pair 8), .leave 0, .call [⟨fun _ => 68, 1⟩],
        .close 0, .ask, .copy]).map
      (fun state => ((lowLevelOutput .small state.begun 0 state.p).errval,
        (lowLevelOutput .small { state.begun with descs := state.asked } 0 state.p).errval)) =
    some (.errUse, .errOk) := by decide +kernel

end EthTransmitter

end RtpLib
