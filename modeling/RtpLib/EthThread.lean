/-
This file settles whether the receive thread drains the ring before it sleeps. The
thread calls `low_level_input` until it returns a null pointer, and a null pointer
has two causes: there is no frame left, or there was no memory for this one. In the
second case the frame is dropped and its descriptors are given back, but the frames
behind it wait for the next interrupt.

Whether they do is a matter of the allocations alone: one that fails for the last
frame that waits stops the thread where it would have stopped anyway.
-/

import RtpLib.EthInput

namespace RtpLib

variable {Desc Buffer : Type}

/-! ### What a turn leaves alone -/

/-- Two states with the same buffers, reached over the same links. -/
structure EthDma.SameBuffers (eth other : EthDma Desc Buffer) : Prop where
  memory : other.memory = eth.memory
  links : ∀ desc, (other.descs desc).buffer2NextDescAddr = (eth.descs desc).buffer2NextDescAddr
  addrs : ∀ desc, (other.descs desc).buffer1Addr = (eth.descs desc).buffer1Addr

namespace EthDma.SameBuffers

variable {eth other : EthDma Desc Buffer}

theorem buffer (same : eth.SameBuffers other) (first : Desc) (index : Nat) :
    DmaDesc.buffer other.descs first index = DmaDesc.buffer eth.descs first index := by
  rw [DmaDesc.buffer, DmaDesc.node_congr same.links, same.addrs]
  rfl

theorem reported {constants : DmaConstants} {infos : RxFrameInfos Desc Buffer}
    (same : eth.SameBuffers other) (reported : infos.Reported constants eth.descs) :
    infos.Reported constants other.descs :=
  ⟨reported.buffer_eq.trans (same.buffer _ _).symm, reported.length_lt, reported.length_le⟩

theorem bytes (same : eth.SameBuffers other) (constants : DmaConstants)
    (infos : RxFrameInfos Desc Buffer) :
    infos.bytes constants other = infos.bytes constants eth := by
  simp only [RxFrameInfos.bytes, same.buffer, same.memory]

end EthDma.SameBuffers

/-- A frame taken out leaves the links and the buffers as they were. -/
theorem lowLevelInput_sameBuffers [DecidableEq Desc] (constants : DmaConstants)
    (eth : EthDma Desc Buffer) (infos : RxFrameInfos Desc Buffer) (pbufAlloc : PbufAlloc)
    (dmasr : UInt32) :
    eth.SameBuffers (lowLevelInput constants eth (some infos) pbufAlloc dmasr).eth := by
  obtain ⟨given, kept, _⟩ := releaseDescs_eq constants infos.segCount.toNat infos.fsRxDesc
    eth.descs
  have each : ∀ desc, ∀ last,
      (releaseDescs constants infos.segCount.toNat infos.fsRxDesc eth.descs).1 desc = last →
        last.buffer2NextDescAddr = (eth.descs desc).buffer2NextDescAddr ∧
          last.buffer1Addr = (eth.descs desc).buffer1Addr := by
    rintro desc _ rfl
    by_cases inFrame : infos.OfFrame eth.descs desc
    · obtain ⟨index, inside, rfl⟩ := inFrame
      rw [given index inside]
      exact ⟨rfl, rfl⟩
    · rw [kept desc fun index inside same => inFrame ⟨index, inside, same⟩]
      exact ⟨rfl, rfl⟩
  exact ⟨rfl, fun desc => (each desc _ rfl).1, fun desc => (each desc _ rfl).2⟩

/-! ### The turns of the thread -/

namespace Arrival

/-- There is no memory for the frame. -/
def AllocationFails (frame : Arrival Desc Buffer) : Prop :=
  frame.pbufAlloc.alloc frame.infos.length.toUInt16 = []

instance (frame : Arrival Desc Buffer) : Decidable frame.AllocationFails :=
  inferInstanceAs (Decidable (frame.pbufAlloc.alloc frame.infos.length.toUInt16 = []))

/-- The calls due to a frame: none when there is no memory for it, and otherwise one of
`netif->input` with its bytes, followed by one of `pbuf_free` when the input did not answer
`ERR_OK`. -/
def due (constants : DmaConstants) (eth : EthDma Desc Buffer) (frame : Arrival Desc Buffer) :
    List ThreadCall :=
  if frame.AllocationFails then []
  else if frame.input ≠ .errOk then
    [.input (frame.infos.bytes constants eth), .pbufFree (frame.infos.bytes constants eth)]
  else [.input (frame.infos.bytes constants eth)]

/-- The frame is one that the HAL reports, and not empty. -/
structure Received (constants : DmaConstants) (eth : EthDma Desc Buffer)
    (frame : Arrival Desc Buffer) : Prop where
  reported : frame.infos.Reported constants eth.descs
  positive : 0 < frame.infos.length.toNat

/-- A frame with bytes gets no pbufs only for want of memory. -/
theorem Received.allocateFrame_eq_nil_iff {constants : DmaConstants} {eth : EthDma Desc Buffer}
    {frame : Arrival Desc Buffer} (received : frame.Received constants eth) :
    allocateFrame frame.infos frame.pbufAlloc = [] ↔ frame.AllocationFails := by
  have some : frame.infos.length.toUInt16 > 0 := by
    refine UInt16.lt_iff_toNat_lt.mpr ?_
    rw [UInt32.toNat_toUInt16, Nat.mod_eq_of_lt received.reported.length_lt]
    exact received.positive
  rw [allocateFrame]
  simp only [if_pos some]
  rfl

end Arrival

variable [DecidableEq Desc] {constants : DmaConstants} {eth : EthDma Desc Buffer}
  {frame : Arrival Desc Buffer}

/-- A turn without memory ends the loop. -/
theorem ethernetifInput_of_fails (received : frame.Received constants eth)
    (fails : frame.AllocationFails) (rest : List (Arrival Desc Buffer)) (calls : List ThreadCall) :
    (ethernetifInput constants eth (frame :: rest) calls).waiting = rest ∧
      (ethernetifInput constants eth (frame :: rest) calls).calls = calls := by
  have empty := (inputChain_frame constants eth frame.infos frame.pbufAlloc received.reported _ _
    rfl).1.mpr (received.allocateFrame_eq_nil_iff.mpr fails)
  rw [ethernetifInput]
  simp only
  rw [if_neg fun obtained => obtained empty]
  exact ⟨rfl, rfl⟩

/-- A turn with memory makes the calls due to the frame, and the loop goes on. -/
theorem ethernetifInput_of_obtained (received : frame.Received constants eth)
    (obtained : ¬ frame.AllocationFails) (rest : List (Arrival Desc Buffer))
    (calls : List ThreadCall) :
    ∃ next, eth.SameBuffers next ∧
      ethernetifInput constants eth (frame :: rest) calls =
        ethernetifInput constants next rest (calls ++ frame.due constants eth) := by
  obtain ⟨empty, -, bytes, _⟩ := inputChain_frame constants eth frame.infos frame.pbufAlloc
    received.reported _ _ rfl
  have chain : (lowLevelInput constants eth (some frame.infos) frame.pbufAlloc
      frame.dmasr).p ≠ [] :=
    fun none => obtained (received.allocateFrame_eq_nil_iff.mp (empty.mp none))
  have passed : Pbuf.allBytes (lowLevelInput constants eth (some frame.infos) frame.pbufAlloc
      frame.dmasr).p = frame.infos.bytes constants eth := bytes chain
  refine ⟨_, lowLevelInput_sameBuffers constants eth frame.infos frame.pbufAlloc frame.dmasr, ?_⟩
  rw [ethernetifInput, Arrival.due]
  simp only
  rw [if_pos chain, if_neg obtained, passed]
  split
  · rw [List.append_assoc, List.singleton_append]
  · rfl

/-- Whatever the frames and whatever has been called before, the loop leaves none waiting exactly
when there was memory for all but the last, and then has made the calls due. -/
theorem ethernetifInput_run (frames : List (Arrival Desc Buffer)) (eth : EthDma Desc Buffer)
    (calls : List ThreadCall) (received : ∀ frame ∈ frames, frame.Received constants eth) :
    ((ethernetifInput constants eth frames calls).waiting = [] ↔
        ∀ frame ∈ frames.dropLast, ¬ frame.AllocationFails) ∧
      ((∀ frame ∈ frames.dropLast, ¬ frame.AllocationFails) →
        (ethernetifInput constants eth frames calls).calls =
          calls ++ frames.flatMap fun frame => frame.due constants eth) := by
  induction frames generalizing eth calls with
  | nil =>
    have vacuous : ∀ frame ∈ ([] : List (Arrival Desc Buffer)).dropLast,
        ¬ frame.AllocationFails := fun _ impossible => absurd impossible List.not_mem_nil
    exact ⟨iff_of_true rfl vacuous, fun _ => (List.append_nil _).symm⟩
  | cons frame rest inductionHypothesis =>
    have first := received frame List.mem_cons_self
    by_cases fails : frame.AllocationFails
    · obtain ⟨waiting, made⟩ := ethernetifInput_of_fails first fails rest calls
      rw [waiting, made]
      have none_due : frame.due constants eth = [] := if_pos fails
      cases rest with
      | nil =>
        refine ⟨iff_of_true rfl fun _ impossible => absurd impossible List.not_mem_nil, fun _ => ?_⟩
        rw [List.flatMap_singleton, none_due, List.append_nil]
      | cons second rest =>
        have lost : ¬ ∀ other ∈ (frame :: second :: rest).dropLast, ¬ other.AllocationFails :=
          fun all => all frame List.mem_cons_self fails
        exact ⟨iff_of_false (List.cons_ne_nil _ _) lost, fun all => absurd all lost⟩
    · obtain ⟨next, same, goes_on⟩ := ethernetifInput_of_obtained first fails rest calls
      have later : ∀ other ∈ rest, other.Received constants next := fun other member =>
        ⟨same.reported (received other (List.mem_cons_of_mem _ member)).reported,
          (received other (List.mem_cons_of_mem _ member)).positive⟩
      obtain ⟨waiting, made⟩ :=
        inductionHypothesis next (calls ++ frame.due constants eth) later
      have dues : (rest.flatMap fun frame => frame.due constants next) =
          rest.flatMap fun frame => frame.due constants eth := by
        simp only [Arrival.due, same.bytes]
      have condition : (∀ other ∈ (frame :: rest).dropLast, ¬ other.AllocationFails) ↔
          ∀ other ∈ rest.dropLast, ¬ other.AllocationFails := by
        cases rest with
        | nil => exact Iff.rfl
        | cons second rest =>
          rw [List.dropLast_cons_cons, List.forall_mem_cons]
          exact and_iff_right fails
      rw [goes_on, condition]
      refine ⟨waiting, fun all => ?_⟩
      rw [made all, dues, List.append_assoc, List.flatMap_cons]

/-- The thread has dealt with all the frames: none waits, and the calls made are those due. -/
structure Drained (constants : DmaConstants) (eth : EthDma Desc Buffer)
    (frames : List (Arrival Desc Buffer)) (state : ThreadState Desc Buffer) : Prop where
  none_waiting : state.waiting = []
  calls_due : state.calls = frames.flatMap fun frame => frame.due constants eth

/-- Whatever frames wait and whatever the allocations and the inputs answer, the thread deals with
all of them exactly when no allocation fails for a frame before the last. -/
theorem ethernetifInput_drained_iff (constants : DmaConstants) (eth : EthDma Desc Buffer)
    (frames : List (Arrival Desc Buffer))
    (received : ∀ frame ∈ frames, frame.Received constants eth) :
    Drained constants eth frames (ethernetifInput constants eth frames []) ↔
      ∀ frame ∈ frames.dropLast, ¬ frame.AllocationFails := by
  obtain ⟨waiting, made⟩ := ethernetifInput_run frames eth [] received
  exact ⟨fun drained => waiting.mp drained.none_waiting,
    fun condition => ⟨waiting.mpr condition, made condition⟩⟩

/-- Two frames of one byte, the second without memory. -/
theorem ethernetifInput_drained_iff_pair :
    Drained .small .pair [⟨⟨false, 1, 1, false⟩, .single, 0, .errUse⟩,
        ⟨⟨true, 1, 1, true⟩, .exhausted, 0, .errOk⟩]
      (ethernetifInput .small .pair [⟨⟨false, 1, 1, false⟩, .single, 0, .errUse⟩,
        ⟨⟨true, 1, 1, true⟩, .exhausted, 0, .errOk⟩] []) := by
  refine (ethernetifInput_drained_iff .small .pair _ fun frame member => ?_).mpr
    fun frame member => ?_
  · rcases List.mem_pair.mp member with rfl | rfl
    · exact ⟨⟨rfl, by decide, by decide⟩, by decide⟩
    · exact ⟨⟨rfl, by decide, by decide⟩, by decide⟩
  · rw [List.mem_singleton.mp member]
    exact List.cons_ne_nil _ _

/-- Two frames of one byte, the first without memory: the second is left waiting. -/
theorem ethernetifInput_not_drained :
    ¬ ∀ (constants : DmaConstants) (eth : EthDma Bool Bool) (frames : List (Arrival Bool Bool)),
      (∀ frame ∈ frames, frame.Received constants eth) →
        Drained constants eth frames (ethernetifInput constants eth frames []) := by
  intro claimed
  have drained := claimed .small .pair [⟨⟨false, 1, 1, false⟩, .exhausted, 0, .errOk⟩,
    ⟨⟨true, 1, 1, true⟩, .single, 0, .errOk⟩] fun frame member => by
      rcases List.mem_pair.mp member with rfl | rfl
      · exact ⟨⟨rfl, by decide, by decide⟩, by decide⟩
      · exact ⟨⟨rfl, by decide, by decide⟩, by decide⟩
  exact absurd drained.none_waiting (List.cons_ne_nil _ _)

end RtpLib
