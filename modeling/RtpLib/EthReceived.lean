/-
This file settles that the frames that come in reach the stack unharmed. The thread
and the DMA share nothing but the marks on the descriptors, and each looks only at
the one it stands at. Still no buffer is filled again before its frame is copied, no
frame is passed up twice or out of order, and the only frames that are missing are
those for which there was no memory.

The ring of descriptors is an instance of the library of handed slots: the DMA fills
them, the thread gives them back. What lies between is divided without a gap among
the frame that the thread has at hand, the completed ones and the one that is coming
in.
-/

import RtpLib.EthReceiver

namespace RtpLib

variable {Desc Buffer : Type}

namespace EthReceiver

/-! ### What has become of the frames -/

/-- The frames for which there was memory. -/
def kept (frames : List (List UInt8)) (granted : List Bool) : List (List UInt8) :=
  ((frames.zip granted).filter Prod.snd).map Prod.fst

theorem kept_append (frames rest : List (List UInt8)) (granted : List Bool)
    (same : frames.length = granted.length) :
    kept (frames ++ rest) granted = kept frames granted := by
  have apart : (frames ++ rest).zip (granted ++ []) = frames.zip granted ++ rest.zip [] :=
    List.zip_append same
  have truncated : (frames ++ rest).zip granted = frames.zip granted := by
    rwa [List.append_nil, List.zip_nil_right, List.append_nil] at apart
  rw [kept, truncated, kept]

theorem kept_concat (frames : List (List UInt8)) (granted : List Bool) (bytes : List UInt8)
    (grant : Bool) (same : frames.length = granted.length) :
    kept (frames ++ [bytes]) (granted ++ [grant]) =
      kept frames granted ++ if grant then [bytes] else [] := by
  rw [kept, List.zip_append same, List.filter_append, List.map_append]
  cases grant <;> rfl

namespace Phase

/-- The frame that the thread has been told of and has not copied. -/
def unread : Phase Desc → List (List UInt8)
  | .reported bytes => [bytes]
  | _ => []

/-- The chain that the thread has not passed up yet. -/
def inHand : Phase Desc → List (List UInt8)
  | .releasing p _ _ => if p.isEmpty then [] else [Pbuf.allBytes p]
  | .passing p => if p.isEmpty then [] else [Pbuf.allBytes p]
  | _ => []

/-- The number of descriptors that the thread has still to give back. -/
def atHand (segCount : Nat) : Phase Desc → Nat
  | .reported _ => segCount
  | .releasing _ _ i => segCount - i
  | _ => 0

end Phase

namespace System

/-- The frames that have arrived and that the thread has not copied. -/
def unread (state : System Desc Buffer) : List (List UInt8) :=
  state.phase.unread ++ state.completed.map Frame.bytes

/-- The chains passed to `netif->input`, and the one about to be. -/
def offered (state : System Desc Buffer) : List (List UInt8) :=
  state.calls.filterMap ThreadCall.inputBytes ++ state.phase.inHand

/-- The number of descriptors of the frame at hand. -/
def atHand (state : System Desc Buffer) : Nat :=
  state.phase.atHand state.eth.rxFrameInfos.segCount.toNat

/-- The stack has been offered the frames that arrived, in order and byte for byte, but for those
without memory and those not copied yet, which are the last ones. -/
structure Delivers (state : System Desc Buffer) : Prop where
  offered : state.offered = kept state.arrived state.granted
  unread : state.arrived.drop state.granted.length = state.unread
  granted_le : state.granted.length ≤ state.arrived.length

/-- The same, with the frames that have been copied. -/
def Read (state : System Desc Buffer) : Prop :=
  ∃ read, state.arrived = read ++ state.unread ∧ read.length = state.granted.length ∧
    state.offered = kept read state.granted

theorem Read.delivers {state : System Desc Buffer} (read : state.Read) : state.Delivers := by
  obtain ⟨frames, arrived, lengths, offered⟩ := read
  refine ⟨?_, ?_, ?_⟩
  · rw [offered, arrived, kept_append _ _ _ lengths]
  · rw [arrived, ← lengths, List.drop_left]
  · rw [arrived, List.length_append, ← lengths]
    exact Nat.le_add_right _ _

end System

/-! ### The invariant -/

/-- The number of descriptors of a completed frame. -/
def Frame.segCount (frame : Frame Desc Buffer) : Nat := frame.infos.segCount.toNat

section Invariant

variable (constants : DmaConstants) (table : Desc → DmaDesc Desc Buffer) (first : Desc)

/-- A completed frame lies in the ring from a place on. -/
structure Frame.At (history : Nat → Nat → UInt8) (place : Nat) (frame : Frame Desc Buffer) :
    Prop where
  fsRxDesc : frame.infos.fsRxDesc = DmaDesc.node table first place
  reported : frame.infos.Reported constants table
  bytes : frame.bytes = Blocks.gathered constants.ethRxBufSize
    (Handoff.window history place frame.segCount) frame.infos.length.toNat

/-- What holds of the place where the thread is. -/
def Phase.Sound (history : Nat → Nat → UInt8) (returned : Nat)
    (infos : RxFrameInfos Desc Buffer) : Phase Desc → Prop
  | .reported bytes => Frame.At constants table first history returned ⟨infos, bytes⟩
  | .releasing _ dmarxdesc i =>
    dmarxdesc = DmaDesc.node table first returned ∧ i ≤ infos.segCount.toNat
  -- Between two frames, `SegCount` is what `low_level_input` has left there.
  | _ => infos.segCount = 0

/-- The first place of the frame that is coming in: after the frame at hand and the completed
ones. -/
def System.incoming (state : System Desc Buffer) (returned : Nat) : Nat :=
  returned + state.atHand + Handoff.extent Frame.segCount state.completed

/-- The descriptors, with the places returned by the thread and filled by the DMA. -/
structure Placed (count : Nat) (history : Nat → Nat → UInt8) (returned filled : Nat)
    (state : System Desc Buffer) : Prop where
  links : ∀ desc, (state.eth.descs desc).buffer2NextDescAddr = (table desc).buffer2NextDescAddr
  addrs : ∀ desc, (state.eth.descs desc).buffer1Addr = (table desc).buffer1Addr
  split : Handoff.Split (DmaDesc.node table first) count
    (fun desc => rxOwned constants state.eth.descs desc = true)
    (fun desc => state.eth.memory (table desc).buffer1Addr) history returned filled
  dmaDesc : state.dmaDesc = DmaDesc.node table first filled
  frameDesc : state.filling.isEmpty = false →
    state.frameDesc = DmaDesc.node table first (state.incoming returned)
  filling : state.filling =
    Handoff.window history (state.incoming returned) state.filling.length
  layout : state.incoming returned + state.filling.length = filled
  completed : Handoff.Laid Frame.segCount (Frame.At constants table first history)
    (returned + state.atHand) state.completed
  phase : state.phase.Sound constants table first history returned state.eth.rxFrameInfos

/-- The descriptors are placed somehow, and the frames accounted for. -/
structure Invariant (count : Nat) (state : System Desc Buffer) : Prop where
  placed : ∃ history returned filled,
    Placed constants table first count history returned filled state
  read : state.Read

end Invariant

variable {constants : DmaConstants} {table : Desc → DmaDesc Desc Buffer} {first : Desc}
  {count returned filled : Nat} {history : Nat → Nat → UInt8} {state : System Desc Buffer}

theorem Frame.At.update {content : Nat → UInt8} {place here : Nat} {frame : Frame Desc Buffer}
    (lies : Frame.At constants table first history here frame)
    (below : here + frame.segCount ≤ place) :
    Frame.At constants table first (Function.update history place content) here frame :=
  { lies with
    bytes := lies.bytes.trans (by
      rw [Handoff.window_congr (fun _ before => Function.update_of_ne before.ne _ _) below]) }

namespace Placed

/-- What the HAL reports of the frame at hand is what came from the wire: its buffers have not
been filled again. -/
theorem bytes_eq (placed : Placed constants table first count history returned filled state)
    {frame : Frame Desc Buffer} (lies : Frame.At constants table first history returned frame)
    (inside : returned + frame.segCount ≤ filled) :
    frame.infos.bytes constants state.eth = frame.bytes := by
  have contents : ∀ index < frame.segCount,
      state.eth.memory (DmaDesc.buffer state.eth.descs frame.infos.fsRxDesc index) =
        history (returned + index) := by
    intro index index_lt
    rw [DmaDesc.buffer, placed.addrs, DmaDesc.node_congr placed.links, lies.fsRxDesc,
      DmaDesc.node_add]
    exact placed.split.held _ (Nat.le_add_right _ _)
      ((Nat.add_lt_add_left index_lt returned).trans_le inside)
  rw [lies.bytes, RxFrameInfos.bytes, Blocks.gathered, Handoff.window, List.flatMap_map]
  refine congrArg (List.take _) (List.flatMap_congr fun index member => ?_)
  rw [contents index (List.mem_range.mp member)]

theorem atHand_le (placed : Placed constants table first count history returned filled state) :
    returned + state.atHand ≤ filled := by
  rw [← placed.layout, System.incoming, Nat.add_assoc (returned + _)]
  exact Nat.le_add_right _ _

theorem incoming_le (placed : Placed constants table first count history returned filled state) :
    state.incoming returned ≤ filled := by
  rw [← placed.layout]
  exact Nat.le_add_right _ _

/-- A step that leaves the ring alone only has to place the thread. -/
theorem turn (placed : Placed constants table first count history returned filled state)
    {next : System Desc Buffer} (descs : next.eth.descs = state.eth.descs)
    (memory : next.eth.memory = state.eth.memory) (dmaDesc : next.dmaDesc = state.dmaDesc)
    (frameDesc : next.frameDesc = state.frameDesc) (filling : next.filling = state.filling)
    (completed : next.completed = state.completed) (atHand : next.atHand = state.atHand)
    (sound : next.phase.Sound constants table first history returned next.eth.rxFrameInfos) :
    Placed constants table first count history returned filled next := by
  have incoming : next.incoming returned = state.incoming returned := by
    rw [System.incoming, System.incoming, atHand, completed]
  refine ⟨?_, ?_, ?_, ?_, ?_, ?_, ?_, ?_, sound⟩
  · rw [descs]
    exact placed.links
  · rw [descs]
    exact placed.addrs
  · rw [descs, memory]
    exact placed.split
  · rw [dmaDesc]
    exact placed.dmaDesc
  · rw [frameDesc, filling, incoming]
    exact placed.frameDesc
  · rw [filling, incoming]
    exact placed.filling
  · rw [filling, incoming]
    exact placed.layout
  · rw [completed, atHand]
    exact placed.completed

end Placed

/-! ### The DMA -/

section Update

variable [DecidableEq Desc] {descs : Desc → DmaDesc Desc Buffer} {desc : Desc}

theorem rxOwned_update_of_ne {new : DmaDesc Desc Buffer} {other : Desc} (apart : other ≠ desc) :
    rxOwned constants (Function.update descs desc new) other = rxOwned constants descs other := by
  rw [rxOwned, rxOwned, Function.update_of_ne apart]

end Update

theorem Phase.Sound.update {content : Nat → UInt8} {place : Nat}
    {infos : RxFrameInfos Desc Buffer} {phase : Phase Desc}
    (sound : phase.Sound constants table first history returned infos)
    (below : returned + phase.atHand infos.segCount.toNat ≤ place) :
    phase.Sound constants table first (Function.update history place content) returned infos := by
  cases phase with
  | reported bytes => exact Frame.At.update sound below
  | releasing p dmarxdesc i => exact sound
  | waiting => exact sound
  | polling => exact sound
  | passing p => exact sound

variable [DecidableEq Desc]

/-- The DMA fills one more buffer of the frame that is coming in. -/
theorem Placed.fill [DecidableEq Buffer]
    (placed : Placed constants table first count history returned filled state)
    (ring : DmaDesc.Ring table first count) (positive : 0 < count)
    (owned : rxOwned constants state.eth.descs state.dmaDesc = true) {status : UInt32}
    (cleared : status &&& constants.ethDmaRxDescOwn = 0) (content : Nat → UInt8) :
    Placed constants table first count (Function.update history filled content) returned
      (filled + 1) (state.fill status content) := by
  have here := placed.dmaDesc
  have addr : (state.eth.descs state.dmaDesc).buffer1Addr =
      (table (DmaDesc.node table first filled)).buffer1Addr := by rw [placed.addrs, here]
  have end_eq : state.incoming returned + state.filling.length = filled := placed.layout
  have descs : (state.fill status content).eth.descs = Function.update state.eth.descs
      state.dmaDesc { state.eth.descs state.dmaDesc with status := status } := rfl
  refine ⟨?_, ?_, ?_, ?_, ?_, ?_, ?_, ?_, ?_⟩
  · intro desc
    rw [descs, ← placed.links]
    exact DmaDesc.update_view DmaDesc.buffer2NextDescAddr (by rfl) desc
  · intro desc
    rw [descs, ← placed.addrs]
    exact DmaDesc.update_view DmaDesc.buffer1Addr (by rfl) desc
  · refine placed.split.fill (ring.cyclic positive) (here ▸ owned) ?_ ?_ ?_ ?_
    · rw [descs, ← here, rxOwned, Function.update_self, cleared]
      exact Bool.false_ne_true
    · rw [← addr]
      exact Function.update_self _ _ _
    · intro place apart
      rw [← here] at apart
      exact iff_of_eq (congrArg (· = true) (rxOwned_update_of_ne apart))
    · intro place apart
      refine Function.update_of_ne ?_ _ _
      rw [addr]
      exact ring.addr_ne positive apart
  · show (state.eth.descs state.dmaDesc).buffer2NextDescAddr = _
    rw [placed.links, here, DmaDesc.node_succ]
  · intro _
    show (if state.filling.isEmpty then state.dmaDesc else state.frameDesc) =
      DmaDesc.node table first (state.incoming returned)
    by_cases started : state.filling.isEmpty = true
    · rw [if_pos started, here, ← end_eq, List.isEmpty_iff.mp started]
      rfl
    · rw [if_neg started]
      exact placed.frameDesc (Bool.eq_false_iff.mpr started)
  · show state.filling ++ [content] = Handoff.window (Function.update history filled content)
      (state.incoming returned) (state.filling ++ [content]).length
    rw [List.length_append, List.length_singleton, Handoff.window_succ,
      Handoff.window_congr (fun _ before => Function.update_of_ne before.ne _ _) end_eq.le, end_eq,
      Function.update_self, ← placed.filling]
  · show state.incoming returned + (state.filling ++ [content]).length = filled + 1
    rw [List.length_append, ← Nat.add_assoc, end_eq]
    rfl
  · refine placed.completed.mono fun place frame _ inside lies => lies.update ?_
    exact inside.trans placed.incoming_le
  · exact placed.phase.update placed.atHand_le

omit [DecidableEq Desc] in
/-- The DMA ends the frame that is coming in. -/
theorem Placed.complete
    (placed : Placed constants table first count history returned filled state)
    (count_lt : count < 2 ^ 32) {length : UInt32} (started : state.filling.isEmpty = false)
    (length_lt : length.toNat < 65536)
    (length_le : length.toNat ≤ state.filling.length * constants.ethRxBufSize) :
    Placed constants table first count history returned filled
      (state.complete constants length) := by
  have segCount : (UInt32.ofNat state.filling.length).toNat = state.filling.length := by
    refine UInt32.toNat_ofNat_of_lt' ?_
    have bounded := placed.split.bounded
    have layout := placed.layout
    have ordered : returned ≤ state.incoming returned := by
      rw [System.incoming, Nat.add_assoc]
      exact Nat.le_add_right _ _
    show state.filling.length < 2 ^ 32
    omega
  have here := placed.frameDesc started
  have lies : Frame.At constants table first history (state.incoming returned)
      ⟨⟨state.frameDesc, UInt32.ofNat state.filling.length, length,
        (state.eth.descs state.frameDesc).buffer1Addr⟩,
        Blocks.gathered constants.ethRxBufSize state.filling length.toNat⟩ := by
    refine ⟨here, ⟨placed.addrs _, length_lt, ?_⟩, ?_⟩
    · show length.toNat ≤ (UInt32.ofNat state.filling.length).toNat * _
      rw [segCount]
      exact length_le
    · show _ = Blocks.gathered constants.ethRxBufSize
        (Handoff.window history _ (UInt32.ofNat state.filling.length).toNat) _
      rw [segCount, ← placed.filling]
  have incoming : (state.complete constants length).incoming returned =
      state.incoming returned + state.filling.length := by
    show returned + state.atHand + Handoff.extent Frame.segCount (state.completed ++ [_]) = _
    rw [Handoff.extent_concat, ← Nat.add_assoc]
    exact congrArg (_ + ·) segCount
  refine ⟨placed.links, placed.addrs, placed.split, placed.dmaDesc, ?_, rfl, ?_, ?_, placed.phase⟩
  · exact fun impossible => absurd impossible.symm Bool.false_ne_true
  · rw [incoming]
    exact placed.layout
  · exact (Handoff.laid_concat _ _ _).mpr ⟨placed.completed, lies⟩

/-! ### The thread -/

/-- The thread gives one more descriptor of the frame at hand back. -/
theorem Placed.releaseDesc
    (placed : Placed constants table first count history returned filled state)
    (ring : DmaDesc.Ring table first count) (positive : 0 < count) {p : List Pbuf}
    {dmarxdesc : Desc} {i : Nat} (releasing : state.phase = .releasing p dmarxdesc i)
    (more : i < state.eth.rxFrameInfos.segCount.toNat) :
    Placed constants table first count history (returned + 1) filled
      (state.releaseDesc constants p dmarxdesc i) := by
  have sound := placed.phase
  rw [releasing] at sound
  obtain ⟨here, -⟩ := sound
  have atHand : state.atHand = (state.releaseDesc constants p dmarxdesc i).atHand + 1 := by
    rw [System.atHand, releasing]
    show state.eth.rxFrameInfos.segCount.toNat - i =
      state.eth.rxFrameInfos.segCount.toNat - (i + 1) + 1
    omega
  have place : returned + 1 + (state.releaseDesc constants p dmarxdesc i).atHand =
      returned + state.atHand := by
    rw [atHand, Nat.add_assoc, Nat.add_comm 1]
  have used : returned < filled := by
    refine lt_of_lt_of_le ?_ placed.atHand_le
    rw [atHand]
    exact Nat.lt_add_of_pos_right (Nat.succ_pos _)
  have incoming : (state.releaseDesc constants p dmarxdesc i).incoming (returned + 1) =
      state.incoming returned := by
    rw [System.incoming, place]
    rfl
  have descs : (state.releaseDesc constants p dmarxdesc i).eth.descs = Function.update
      state.eth.descs dmarxdesc ((state.eth.descs dmarxdesc).released constants) := rfl
  refine ⟨?_, ?_, ?_, placed.dmaDesc, ?_, ?_, ?_, ?_, ?_, more⟩
  · intro desc
    rw [descs, ← placed.links]
    exact DmaDesc.update_view DmaDesc.buffer2NextDescAddr (by rfl) desc
  · intro desc
    rw [descs, ← placed.addrs]
    exact DmaDesc.update_view DmaDesc.buffer1Addr (by rfl) desc
  · refine placed.split.giveBack (ring.cyclic positive) used ?_ ?_ fun _ _ => rfl
    · rw [descs, ← here, rxOwned, Function.update_self]
      exact bne_iff_ne.mpr (DmaDesc.released_owned constants _)
    · intro place apart
      rw [← here] at apart
      exact iff_of_eq (congrArg (· = true) (rxOwned_update_of_ne apart))
  · rw [incoming]
    exact placed.frameDesc
  · rw [incoming]
    exact placed.filling
  · rw [incoming]
    exact placed.layout
  · rw [place]
    exact placed.completed
  · show (state.eth.descs dmarxdesc).buffer2NextDescAddr = _
    rw [placed.links, here, DmaDesc.node_succ]

omit [DecidableEq Desc] in
/-- The code has set `SegCount` back, so that the HAL reports the oldest completed frame. -/
theorem Placed.segCount
    (placed : Placed constants table first count history returned filled state)
    (polling : state.phase = .polling) : state.eth.rxFrameInfos.segCount = 0 := by
  have sound := placed.phase
  rwa [polling] at sound

omit [DecidableEq Desc] in
/-- The HAL reports the oldest completed frame. -/
theorem Placed.report
    (placed : Placed constants table first count history returned filled state)
    {frame : Frame Desc Buffer} {rest : List (Frame Desc Buffer)}
    (polling : state.phase = .polling) (waits : state.completed = frame :: rest) :
    Placed constants table first count history returned filled (state.report frame.infos) := by
  have reported : state.report frame.infos = { state with
      eth := { state.eth with rxFrameInfos := frame.infos }
      completed := rest
      phase := .reported frame.bytes } := by
    rw [System.report, waits]
    rfl
  rw [reported]
  have none_at_hand : state.atHand = 0 := by
    rw [System.atHand, polling]
    rfl
  have laid := placed.completed
  rw [none_at_hand, waits] at laid
  obtain ⟨lies, laid⟩ := laid
  have incoming : state.incoming returned =
      returned + frame.segCount + Handoff.extent Frame.segCount rest := by
    rw [System.incoming, none_at_hand, waits, Handoff.extent, Nat.add_zero, Nat.add_assoc]
  have frameDesc := placed.frameDesc
  have filling := placed.filling
  have layout := placed.layout
  rw [incoming] at frameDesc filling layout
  exact ⟨placed.links, placed.addrs, placed.split, placed.dmaDesc, frameDesc, filling, layout,
    laid, lies⟩

omit [DecidableEq Desc] in
/-- What the thread copies of a frame is what came from the wire, and it copies it unless there is
no memory. -/
theorem Placed.copied
    (placed : Placed constants table first count history returned filled state)
    {bytes : List UInt8} (reported : state.phase = .reported bytes) (pbufAlloc : PbufAlloc)
    {p : List Pbuf} {last : InputState Desc Buffer}
    (copies : inputChain constants state.eth (allocateFrame state.eth.rxFrameInfos pbufAlloc)
      (.start state.eth.rxFrameInfos) = (p, last)) :
    (if p.isEmpty then [] else [Pbuf.allBytes p]) =
      if !(allocateFrame state.eth.rxFrameInfos pbufAlloc).isEmpty then [bytes] else [] := by
  have lies := placed.phase
  rw [reported] at lies
  have inside : returned + state.eth.rxFrameInfos.segCount.toNat ≤ filled := by
    have within := placed.atHand_le
    rwa [System.atHand, reported] at within
  have here : state.eth.rxFrameInfos.Reported constants state.eth.descs := by
    refine ⟨?_, lies.reported.length_lt, lies.reported.length_le⟩
    rw [lies.reported.buffer_eq, DmaDesc.buffer, DmaDesc.buffer, placed.addrs]
    rfl
  obtain ⟨empty, -, filled_bytes, -⟩ := inputChain_frame constants state.eth state.eth.rxFrameInfos
    pbufAlloc here p last copies
  by_cases none : p = []
  · rw [none, empty.mp none]
    rfl
  · have some : allocateFrame state.eth.rxFrameInfos pbufAlloc ≠ [] := fun nil =>
      none (empty.mpr nil)
    rw [List.isEmpty_eq_false_iff.mpr none, List.isEmpty_eq_false_iff.mpr some, filled_bytes none,
      placed.bytes_eq lies inside]
    rfl

/-! ### The account of the frames -/

namespace System

omit [DecidableEq Desc]

/-- A step that moves no frame. -/
theorem Read.turn (read : state.Read) {next : System Desc Buffer}
    (arrived : next.arrived = state.arrived) (granted : next.granted = state.granted)
    (unread : next.unread = state.unread) (offered : next.offered = state.offered) :
    next.Read := by
  rw [Read, arrived, granted, unread, offered]
  exact read

theorem Read.complete (read : state.Read) (length : UInt32) :
    (state.complete constants length).Read := by
  obtain ⟨frames, arrived, lengths, offered⟩ := read
  have unread : (state.complete constants length).unread =
      state.unread ++
        [Blocks.gathered constants.ethRxBufSize state.filling length.toNat] := by
    show state.phase.unread ++ (state.completed ++ [_]).map Frame.bytes = _
    rw [List.map_append, ← List.append_assoc]
    rfl
  refine ⟨frames, ?_, lengths, offered⟩
  show state.arrived ++ [_] = _
  rw [unread, arrived, List.append_assoc]

theorem Read.copied (read : state.Read) {bytes : List UInt8}
    (reported : state.phase = .reported bytes) {p : List Pbuf} {dmarxdesc : Desc} {grant : Bool}
    (copies : (if p.isEmpty then [] else [Pbuf.allBytes p]) = if grant then [bytes] else []) :
    System.Read { state with
      phase := .releasing p dmarxdesc 0
      granted := state.granted ++ [grant] } := by
  obtain ⟨frames, arrived, lengths, offered⟩ := read
  have unread : state.unread = bytes :: state.completed.map Frame.bytes := by
    rw [System.unread, reported]
    rfl
  have calls : state.calls.filterMap ThreadCall.inputBytes = kept frames state.granted := by
    rw [← offered, System.offered, reported]
    exact (List.append_nil _).symm
  refine ⟨frames ++ [bytes], ?_, ?_, ?_⟩
  · show state.arrived = _ ++ state.completed.map Frame.bytes
    rw [arrived, unread, List.append_assoc, List.singleton_append]
  · rw [List.length_append, List.length_append, lengths]
    rfl
  · rw [kept_concat _ _ _ _ lengths, ← calls, ← copies]
    rfl

theorem Read.input (read : state.Read) {p : List Pbuf} (passing : state.phase = .passing p)
    (answer : ErrT) : (state.input p answer).Read := by
  have offered : state.offered = state.calls.filterMap ThreadCall.inputBytes ++
      if p.isEmpty then [] else [Pbuf.allBytes p] := by
    rw [System.offered, passing]
    rfl
  have unread : state.unread = state.completed.map Frame.bytes := by
    rw [System.unread, passing]
    rfl
  by_cases none : p = []
  · subst none
    exact read.turn rfl rfl unread.symm offered.symm
  · rw [System.input, if_pos none]
    refine read.turn rfl rfl unread.symm ?_
    rw [offered, List.isEmpty_eq_false_iff.mpr none, System.offered]
    show List.filterMap _ (if _ then _ else _) ++ [] = _ ++ [Pbuf.allBytes p]
    rw [List.append_nil]
    by_cases refused : answer ≠ .errOk
    · rw [if_pos refused, List.filterMap_append, List.filterMap_append]
      exact List.append_nil _
    · rw [if_neg refused, List.filterMap_append]
      rfl

end System

/-! ### Every run -/

variable [DecidableEq Buffer]

omit [DecidableEq Desc] [DecidableEq Buffer] in
/-- The thread goes back to the semaphore when the HAL has reported no frame. -/
theorem Invariant.noFrame (invariant : Invariant constants table first count state)
    (polling : state.phase = .polling) :
    Invariant constants table first count { state with phase := .waiting } := by
  obtain ⟨⟨history, returned, filled, placed⟩, read⟩ := invariant
  refine ⟨⟨history, returned, filled, placed.turn rfl rfl rfl rfl rfl rfl ?_
    (placed.segCount polling)⟩, read.turn rfl rfl ?_ ?_⟩
  · rw [System.atHand, System.atHand, polling]
    rfl
  · rw [System.unread, System.unread, polling]
    rfl
  · rw [System.offered, System.offered, polling]
    rfl

/-- Every documented step of every party keeps the invariant. -/
theorem Invariant.step (invariant : Invariant constants table first count state)
    (ring : DmaDesc.Ring table first count) (positive : 0 < count) (count_lt : count < 2 ^ 32)
    {event : Event Desc Buffer} {next : System Desc Buffer}
    (documented : Documented constants state event)
    (taken : EthReceiver.step constants state event = some next) :
    Invariant constants table first count next := by
  have ⟨⟨history, returned, filled, placed⟩, read⟩ := invariant
  cases move_of_step documented taken with
  | fill running owned cleared =>
    exact ⟨⟨_, returned, filled + 1, placed.fill ring positive owned cleared _⟩, read⟩
  | complete started length_lt length_le =>
    exact ⟨⟨history, returned, filled, placed.complete count_lt started length_lt length_le⟩,
      read.complete _⟩
  | starve taken =>
    exact ⟨⟨history, returned, filled, placed.turn rfl rfl rfl rfl rfl rfl rfl placed.phase⟩, read⟩
  | retry owned =>
    exact ⟨⟨history, returned, filled, placed.turn rfl rfl rfl rfl rfl rfl rfl placed.phase⟩, read⟩
  | interrupt pending =>
    exact ⟨⟨history, returned, filled, placed.turn rfl rfl rfl rfl rfl rfl rfl placed.phase⟩, read⟩
  | osSemaphoreWait waiting token =>
    have sound := placed.phase
    rw [waiting] at sound
    refine ⟨⟨history, returned, filled, placed.turn rfl rfl rfl rfl rfl rfl ?_ sound⟩,
      read.turn rfl rfl ?_ ?_⟩
    · rw [System.atHand, System.atHand, waiting]
      rfl
    · rw [System.unread, System.unread, waiting]
      rfl
    · rw [System.offered, System.offered, waiting]
      rfl
  | noFrame polling => exact invariant.noFrame polling
  | report polling waits reports =>
    rw [reports (placed.segCount polling)]
    refine ⟨⟨history, returned, filled, placed.report polling waits⟩, read.turn rfl rfl ?_ ?_⟩
    · rw [System.unread, System.unread, System.report, polling, waits]
      rfl
    · rw [System.offered, System.offered, polling]
      rfl
  | @copyFrame pbufAlloc bytes reported =>
    have copies := placed.copied reported pbufAlloc rfl
    have sound := placed.phase
    rw [reported] at sound
    refine ⟨⟨history, returned, filled, placed.turn rfl rfl rfl rfl rfl rfl ?_
      ⟨sound.fsRxDesc, Nat.zero_le _⟩⟩, read.copied reported copies⟩
    rw [System.atHand, System.atHand, reported]
    rfl
  | releaseDesc releasing more =>
    refine ⟨⟨history, returned + 1, filled, placed.releaseDesc ring positive releasing more⟩,
      read.turn rfl rfl ?_ ?_⟩
    · rw [System.unread, System.unread, releasing]
      rfl
    · rw [System.offered, System.offered, releasing]
      rfl
  | resume releasing done flag =>
    have none_at_hand : state.atHand = 0 := by
      rw [System.atHand, releasing]
      exact Nat.sub_eq_zero_of_le (Nat.le_of_not_lt done)
    rw [System.resume]
    split
    · refine ⟨⟨history, returned, filled, placed.turn rfl rfl rfl rfl rfl rfl none_at_hand.symm
        rfl⟩, read.turn rfl rfl ?_ ?_⟩
      · rw [System.unread, System.unread, releasing]
        rfl
      · rw [System.offered, System.offered, releasing]
        rfl
    · refine ⟨⟨history, returned, filled, placed.turn rfl rfl rfl rfl rfl rfl none_at_hand.symm
        rfl⟩, read.turn rfl rfl ?_ ?_⟩
      · rw [System.unread, System.unread, releasing]
        rfl
      · rw [System.offered, System.offered, releasing]
        rfl
  | input passing =>
    refine ⟨⟨history, returned, filled, ?_⟩, read.input passing _⟩
    have none_at_hand : state.atHand = 0 := by
      rw [System.atHand, passing]
      rfl
    have sound := placed.phase
    rw [passing] at sound
    rw [System.input]
    split
    · exact placed.turn rfl rfl rfl rfl rfl rfl none_at_hand.symm sound
    · exact placed.turn rfl rfl rfl rfl rfl rfl none_at_hand.symm sound

omit [DecidableEq Desc] [DecidableEq Buffer] in
/-- The invariant holds at the start, when the DMA has all the descriptors. -/
theorem Invariant.start {eth : EthDma Desc Buffer}
    (owned : ∀ place, rxOwned constants eth.descs (DmaDesc.node eth.descs first place) = true) :
    Invariant constants eth.descs first count (.start eth first) where
  placed := ⟨fun _ _ => 0, 0, 0, fun _ => rfl, fun _ => rfl, .start owned, rfl,
    fun impossible => absurd impossible.symm Bool.false_ne_true, rfl, rfl, trivial, rfl⟩
  read := ⟨[], rfl, rfl, rfl⟩

/-- Whatever the DMA, the interrupt and the thread do, in whatever order, the stack is offered the
frames as they came in, as long as the DMA and the HAL do what their documents say. -/
theorem everyState_delivers (constants : DmaConstants) (eth : EthDma Desc Buffer) (first : Desc)
    (count : Nat) (ring : DmaDesc.Ring eth.descs first count) (positive : 0 < count)
    (count_lt : count < 2 ^ 32)
    (owned : ∀ place, rxOwned constants eth.descs (DmaDesc.node eth.descs first place) = true)
    (events : List (Event Desc Buffer))
    (documented : Runs.EveryStep (EthReceiver.step constants) (Documented constants)
      (.start eth first) events) :
    Runs.EveryState (EthReceiver.step constants) System.Delivers (.start eth first) events :=
  Runs.everyState_of_everyStep (fun _ invariant => invariant.read.delivers)
    (fun _ _ _ invariant documented taken =>
      invariant.step ring positive count_lt documented taken)
    (Invariant.start owned) documented

/-- A frame of three bytes in a ring of two buffers. -/
theorem everyState_delivers_pair :
    Runs.EveryState (EthReceiver.step .small) System.Delivers (.start pairOwned false)
      (frameComes ++ frameTaken) :=
  everyState_delivers .small pairOwned false 2 pairOwned_ring (by decide) (by decide)
    (fun _ => rxOwned_pairOwned _) (frameComes ++ frameTaken) documented_oneFrame

end EthReceiver

end RtpLib
