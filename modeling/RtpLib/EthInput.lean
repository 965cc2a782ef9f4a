/-
This file settles that `low_level_input` gathers a frame correctly and returns its
descriptors. As on output the chain and the buffers cut the frame in two unrelated
ways, and the number of bytes copied ties them; here it is the payloads that are
written, each a slice of the buffers read one after the other.

The loop that gives the descriptors back does not depend on the copies. It sets a
bit in as many descriptors as the frame has segments, along the links that it
leaves alone.
-/

import RtpLib.EthDma

namespace RtpLib

variable {Desc Buffer : Type}

namespace RxFrameInfos

/-- What the HAL reports of a frame: it lies in `SegCount` buffers from the one of `FSRxDesc` on,
and its length fits into the sixteen bits that lwIP has for it. -/
structure Reported (constants : DmaConstants) (descs : Desc → DmaDesc Desc Buffer)
    (infos : RxFrameInfos Desc Buffer) : Prop where
  buffer_eq : infos.buffer = DmaDesc.buffer descs infos.fsRxDesc 0
  length_lt : infos.length.toNat < 65536
  length_le : infos.length.toNat ≤ infos.segCount.toNat * constants.ethRxBufSize

/-- A descriptor of the frame. -/
def OfFrame (descs : Desc → DmaDesc Desc Buffer) (infos : RxFrameInfos Desc Buffer) (desc : Desc) :
    Prop :=
  ∃ index < infos.segCount.toNat, desc = DmaDesc.node descs infos.fsRxDesc index

/-- The bytes of the frame: as many as its length says, of the buffers of its descriptors. -/
def bytes (constants : DmaConstants) (eth : EthDma Desc Buffer)
    (infos : RxFrameInfos Desc Buffer) : List UInt8 :=
  ((List.range infos.segCount.toNat).flatMap fun index =>
    Blocks.slice (eth.memory (DmaDesc.buffer eth.descs infos.fsRxDesc index)) 0
      constants.ethRxBufSize).take infos.length.toNat

end RxFrameInfos

/-! ### The invariant of the copies -/

namespace InputState

section Gather

variable (constants : DmaConstants) (eth : EthDma Desc Buffer)

/-- The buffers from the first one of the frame on, read one after the other. -/
def stream (position : Nat) : UInt8 :=
  Blocks.joined
    (fun index => eth.memory (DmaDesc.buffer eth.descs eth.rxFrameInfos.fsRxDesc index))
    constants.ethRxBufSize position

/-- What has been copied and read lies in the frame, and each copy kept inside its buffer and its
payload. -/
structure WithinFrame (state : InputState Desc Buffer) : Prop where
  inside : ∀ copy ∈ state.copies, copy.Inside constants.ethRxBufSize ∧
    ∃ index < eth.rxFrameInfos.segCount.toNat,
      copy.buffer = DmaDesc.buffer eth.descs eth.rxFrameInfos.fsRxDesc index
  read : ∀ desc ∈ state.accessed, eth.rxFrameInfos.OfFrame eth.descs desc

/-- Where the variables stand: at the offset `bufferoffset` of the buffer at the place `block`,
after `length` bytes. -/
structure Cursor (state : InputState Desc Buffer) (block length : Nat) : Prop where
  desc : state.dmarxdesc = DmaDesc.node eth.descs eth.rxFrameInfos.fsRxDesc block
  buffer : state.buffer = DmaDesc.buffer eth.descs eth.rxFrameInfos.fsRxDesc block
  offset_le : state.bufferoffset ≤ constants.ethRxBufSize
  position : block * constants.ethRxBufSize + state.bufferoffset = length

variable {constants eth} {state : InputState Desc Buffer} {block length left total : Nat}

/-- The place reached belongs to the frame, as long as there is a byte of the frame in the buffer
or still to come. -/
theorem Cursor.lt_segCount (cursor : state.Cursor constants eth block length)
    (fits : total ≤ eth.rxFrameInfos.segCount.toNat * constants.ethRxBufSize) (positive : 1 ≤ total)
    (started : block = 0 ∨ 0 < state.bufferoffset + left) (reach : length + left ≤ total) :
    block < eth.rxFrameInfos.segCount.toNat := by
  have start := Blocks.start_lt cursor.position started reach positive
  exact Nat.lt_of_mul_lt_mul_right (start.trans_le fits)

/-- A `memcpy` appends to the bytes gathered in the payload. -/
theorem Cursor.received {q : Pbuf} {start payloadoffset count : Nat}
    (cursor : state.Cursor constants eth block (start + payloadoffset))
    (gathered : Blocks.slice q.payload 0 payloadoffset =
      Blocks.slice (stream constants eth) start payloadoffset)
    (within : state.bufferoffset + count ≤ constants.ethRxBufSize) :
    Blocks.slice (state.received eth.memory q payloadoffset count).payload 0
        (payloadoffset + count) =
      Blocks.slice (stream constants eth) start (payloadoffset + count) := by
  have before : Blocks.slice (state.received eth.memory q payloadoffset count).payload 0
      payloadoffset = Blocks.slice q.payload 0 payloadoffset := Blocks.slice_copy_before le_rfl
  have copied : Blocks.slice (state.received eth.memory q payloadoffset count).payload
      payloadoffset count = Blocks.slice (eth.memory state.buffer) state.bufferoffset count :=
    Blocks.slice_copy
  have place : Blocks.slice (stream constants eth) (start + payloadoffset) count =
      Blocks.slice (eth.memory state.buffer) state.bufferoffset count := by
    rw [← cursor.position, cursor.buffer]
    exact Blocks.slice_joined within
  rw [Blocks.slice_add, Blocks.slice_add, Nat.zero_add, before, copied, place, gathered]

/-- The record of a `memcpy` that stays inside. -/
theorem WithinFrame.record (framed : state.WithinFrame constants eth)
    (cursor : state.Cursor constants eth block length)
    (inFrame : block < eth.rxFrameInfos.segCount.toNat) (q : Pbuf) (payloadoffset count : Nat)
    (within : state.bufferoffset + count ≤ constants.ethRxBufSize)
    (inPayload : payloadoffset + count ≤ q.len.toNat) :
    (state.record q payloadoffset count).WithinFrame constants eth := by
  refine ⟨fun copy member => ?_, framed.read⟩
  rcases List.mem_append.mp member with earlier | last
  · exact framed.inside copy earlier
  · rw [List.mem_singleton.mp last]
    exact ⟨⟨within, inPayload⟩, block, inFrame, cursor.buffer⟩

/-! ### The loops -/

/-- What the inner loop leaves of a pbuf: the variables at a buffer that holds the rest of it,
and the bytes before the rest copied. -/
structure Filled (constants : DmaConstants) (eth : EthDma Desc Buffer) (q : Pbuf) (start : Nat)
    (result : Pbuf × InputState Desc Buffer × Nat × Nat) : Prop where
  cursor : ∃ block, result.2.1.Cursor constants eth block (start + result.2.2.2) ∧
    (block = 0 ∨ 0 < result.2.1.bufferoffset + result.2.2.1)
  framed : result.2.1.WithinFrame constants eth
  len_eq : result.1.len = q.len
  gathered : Blocks.slice result.1.payload 0 result.2.2.2 =
    Blocks.slice (stream constants eth) start result.2.2.2
  payload : result.2.2.2 + result.2.2.1 = q.len.toNat
  room : result.2.1.bufferoffset + result.2.2.1 ≤ constants.ethRxBufSize

variable (fits : total ≤ eth.rxFrameInfos.segCount.toNat * constants.ethRxBufSize)
  (positive : 1 ≤ total)

include fits positive

/-- The inner loop fills the payload of a pbuf in order, `original` being the pbuf before it. -/
theorem readBuffers_filled (original : Pbuf) (start : Nat) (q : Pbuf)
    (state : InputState Desc Buffer) (byteslefttocopy payloadoffset block : Nat)
    (cursor : state.Cursor constants eth block (start + payloadoffset))
    (framed : state.WithinFrame constants eth)
    (started : block = 0 ∨ 0 < state.bufferoffset + byteslefttocopy)
    (len_eq : q.len = original.len)
    (gathered : Blocks.slice q.payload 0 payloadoffset =
      Blocks.slice (stream constants eth) start payloadoffset)
    (payload : payloadoffset + byteslefttocopy = original.len.toNat)
    (within : start + original.len.toNat ≤ total) :
    Filled constants eth original start
      (readBuffers constants eth q state byteslefttocopy payloadoffset) := by
  induction q, state, byteslefttocopy, payloadoffset using
    readBuffers.induct constants eth generalizing block with
  | case1 q state byteslefttocopy payloadoffset more space copied dmarxdesc next
      inductionHypothesis =>
    have offset_le := cursor.offset_le
    have position := cursor.position
    have inFrame := cursor.lt_segCount fits positive started (by omega)
    have node : DmaDesc.node eth.descs eth.rxFrameInfos.fsRxDesc (block + 1) = dmarxdesc := by
      rw [DmaDesc.node_succ, ← cursor.desc]
    have position' : (block + 1) * constants.ethRxBufSize + 0 =
        start + (payloadoffset + space) := by
      rw [Nat.succ_mul]
      omega
    have inFrame' : block + 1 < eth.rxFrameInfos.segCount.toNat := by
      refine Nat.lt_of_mul_lt_mul_right (lt_of_lt_of_le ?_ fits)
      omega
    have recorded := framed.record cursor inFrame q payloadoffset space (by omega)
      (by rw [len_eq]; omega)
    rw [readBuffers, if_pos more]
    refine inductionHypothesis (block + 1) ⟨node.symm, ?_, Nat.zero_le _, position'⟩ ⟨?_, ?_⟩
      (.inr ?_) len_eq (cursor.received gathered ?_) ?_
    · show (eth.descs dmarxdesc).buffer1Addr = _
      rw [← node]
      rfl
    · exact recorded.inside
    · intro desc member
      rcases List.mem_append.mp member with earlier | last
      · exact recorded.read desc earlier
      · rcases List.mem_pair.mp last with rfl | rfl
        · exact ⟨block, inFrame, cursor.desc⟩
        · exact ⟨block + 1, inFrame', node.symm⟩
    · show 0 < 0 + (byteslefttocopy - space)
      omega
    · show state.bufferoffset + space ≤ constants.ethRxBufSize
      omega
    · show payloadoffset + space + (byteslefttocopy - space) = original.len.toNat
      omega
  | case2 q state byteslefttocopy payloadoffset room =>
    rw [readBuffers, if_neg room]
    exact ⟨⟨block, cursor, started⟩, framed, len_eq, gathered, payload,
      (Nat.add_comm _ _).trans_le (Nat.le_of_not_lt room)⟩

/-- The outer loop keeps the lengths of the chain and cuts the bytes of the buffers along them. -/
theorem inputChain_gathered (p : List Pbuf) (start : Nat) (state : InputState Desc Buffer)
    (block : Nat) (cursor : state.Cursor constants eth block start)
    (framed : state.WithinFrame constants eth) (started : block = 0 ∨ 0 < state.bufferoffset)
    (within : start + Pbuf.totalLength p ≤ total) :
    (inputChain constants eth p state).1.map Pbuf.len = p.map Pbuf.len ∧
      Pbuf.allBytes (inputChain constants eth p state).1 =
        Blocks.slice (stream constants eth) start (Pbuf.totalLength p) ∧
      (inputChain constants eth p state).2.WithinFrame constants eth := by
  induction p generalizing start state block with
  | nil => exact ⟨rfl, rfl, framed⟩
  | cons q rest inductionHypothesis =>
    rw [Pbuf.totalLength_cons] at within ⊢
    have filled := readBuffers_filled fits positive q start q state q.len.toNat 0 block cursor
      framed (started.imp_right fun offset => Nat.add_pos_left offset _) rfl rfl (Nat.zero_add _)
      (by omega)
    rw [inputChain]
    generalize readBuffers constants eth q state q.len.toNat 0 = result at filled ⊢
    obtain ⟨filledPbuf, next, byteslefttocopy, payloadoffset⟩ := result
    obtain ⟨⟨block, cursor, started⟩, framed, len_eq, gathered, payload, room⟩ := filled
    have payload : payloadoffset + byteslefttocopy = q.len.toNat := payload
    have inFrame := cursor.lt_segCount fits positive started
      (show start + payloadoffset + byteslefttocopy ≤ total by omega)
    have recorded := framed.record cursor inFrame filledPbuf payloadoffset byteslefttocopy room
      (len_eq ▸ payload.le)
    have position := cursor.position
    have place : block * constants.ethRxBufSize + (next.bufferoffset + byteslefttocopy) =
        start + q.len.toNat := by
      rw [← Nat.add_assoc, position, Nat.add_assoc, payload]
    obtain ⟨lens, bytes, last⟩ := inductionHypothesis (start + q.len.toNat)
      { next.record filledPbuf payloadoffset byteslefttocopy with
        bufferoffset := next.bufferoffset + byteslefttocopy }
      block ⟨cursor.desc, cursor.buffer, room, place⟩ ⟨recorded.inside, recorded.read⟩ started
      (by omega)
    refine ⟨?_, ?_, last⟩
    · exact congrArg₂ List.cons len_eq lens
    · have first := cursor.received gathered room
      rw [payload] at first
      rw [Blocks.slice_add, ← first, ← bytes]
      show Pbuf.bytes _ ++ _ = _
      rw [Pbuf.bytes]
      show Blocks.slice _ 0 filledPbuf.len.toNat ++ _ = _
      rw [len_eq]
      rfl

end Gather

end InputState

/-! ### Giving the descriptors back -/

/-- Two tables with the same links have the same lists. -/
theorem DmaDesc.node_congr {descs other : Desc → DmaDesc Desc Buffer}
    (links : ∀ desc, (other desc).buffer2NextDescAddr = (descs desc).buffer2NextDescAddr)
    (first : Desc) (index : Nat) : node other first index = node descs first index := by
  rw [node, node, funext links]

/-- Giving a descriptor back twice is giving it back once. -/
theorem DmaDesc.released_released (constants : DmaConstants) (desc : DmaDesc Desc Buffer) :
    (desc.released constants).released constants = desc.released constants := by
  rw [released, released, UInt32.or_assoc, UInt32.or_self]

section Release

variable [DecidableEq Desc]

/-- The loop gives back the descriptors on its way, no other one, and reads no other one. -/
theorem releaseDescs_eq (constants : DmaConstants) (count : Nat) (first : Desc)
    (descs : Desc → DmaDesc Desc Buffer) :
    (∀ index < count,
      (releaseDescs constants count first descs).1 (DmaDesc.node descs first index) =
        (descs (DmaDesc.node descs first index)).released constants) ∧
    (∀ desc, (∀ index < count, desc ≠ DmaDesc.node descs first index) →
      (releaseDescs constants count first descs).1 desc = descs desc) ∧
    ∀ desc ∈ (releaseDescs constants count first descs).2,
      ∃ index < count, desc = DmaDesc.node descs first index := by
  induction count generalizing first descs with
  | zero =>
    refine ⟨fun _ impossible => absurd impossible (Nat.not_lt_zero _), fun _ _ => rfl, ?_⟩
    exact fun _ impossible => absurd impossible List.not_mem_nil
  | succ count inductionHypothesis =>
    rw [releaseDescs]
    have self : Function.update descs first ((descs first).released constants) first =
        (descs first).released constants := Function.update_self _ _ _
    have other : ∀ desc, desc ≠ first →
        Function.update descs first ((descs first).released constants) desc = descs desc :=
      fun _ different => Function.update_of_ne different _ _
    generalize Function.update descs first ((descs first).released constants) = next at self other ⊢
    have once : ∀ desc, (next desc).released constants = (descs desc).released constants := by
      intro desc
      by_cases same : desc = first
      · rw [same, self, DmaDesc.released_released]
      · rw [other desc same]
    have links : ∀ desc, (next desc).buffer2NextDescAddr = (descs desc).buffer2NextDescAddr := by
      intro desc
      have same : ((next desc).released constants).buffer2NextDescAddr =
        ((descs desc).released constants).buffer2NextDescAddr := by rw [once desc]
      exact same
    have nodes : ∀ index, DmaDesc.node next (next first).buffer2NextDescAddr index =
        DmaDesc.node descs first (index + 1) := by
      intro index
      rw [DmaDesc.node_congr links, links]
      rfl
    obtain ⟨given, kept, read⟩ := inductionHypothesis (next first).buffer2NextDescAddr next
    refine ⟨?_, ?_, ?_⟩
    · intro index inside
      cases index with
      | zero =>
        show (releaseDescs constants count _ next).1 first = (descs first).released constants
        by_cases again : ∃ index < count,
            first = DmaDesc.node next (next first).buffer2NextDescAddr index
        · obtain ⟨index, inside, same⟩ := again
          have twice := given index inside
          rw [← same] at twice
          exact twice.trans (once first)
        · rw [kept first fun index inside same => again ⟨index, inside, same⟩, self]
      | succ index =>
        have later := given index (Nat.lt_of_succ_lt_succ inside)
        rw [nodes] at later
        exact later.trans (once _)
    · intro desc apart
      have later : ∀ index < count,
          desc ≠ DmaDesc.node next (next first).buffer2NextDescAddr index := by
        intro index inside
        rw [nodes]
        exact apart (index + 1) (Nat.succ_lt_succ inside)
      exact (kept desc later).trans (other desc (apart 0 (Nat.succ_pos _)))
    · intro desc member
      rcases List.mem_cons.mp member with rfl | later
      · exact ⟨0, Nat.succ_pos _, rfl⟩
      · obtain ⟨index, inside, same⟩ := read desc later
        exact ⟨index + 1, Nat.succ_lt_succ inside, same.trans (nodes index)⟩

end Release

/-! ### The call -/

/-- What the pbufs got for a frame add up to. -/
theorem totalLength_allocateFrame {constants : DmaConstants} {descs : Desc → DmaDesc Desc Buffer}
    {infos : RxFrameInfos Desc Buffer} (reported : infos.Reported constants descs)
    (pbufAlloc : PbufAlloc) (obtained : allocateFrame infos pbufAlloc ≠ []) :
    1 ≤ infos.length.toNat ∧
      Pbuf.totalLength (allocateFrame infos pbufAlloc) = infos.length.toNat := by
  have len : infos.length.toUInt16.toNat = infos.length.toNat := by
    rw [UInt32.toNat_toUInt16, Nat.mod_eq_of_lt reported.length_lt]
  rw [allocateFrame] at obtained ⊢
  by_cases some : infos.length.toUInt16 > 0
  · simp only [if_pos some] at obtained ⊢
    refine ⟨?_, ?_⟩
    · rw [← len]
      exact UInt16.lt_iff_toNat_lt.mp some
    · rw [(pbufAlloc.total _).resolve_left obtained, len]
  · simp only [if_neg some] at obtained
    exact absurd rfl obtained

/-- The chain returned for a frame is the one that was allocated, with the bytes of the frame. -/
theorem inputChain_frame (constants : DmaConstants) (eth : EthDma Desc Buffer)
    (infos : RxFrameInfos Desc Buffer) (pbufAlloc : PbufAlloc)
    (reported : infos.Reported constants eth.descs) (p : List Pbuf)
    (state : InputState Desc Buffer)
    (copied : inputChain constants { eth with rxFrameInfos := infos }
      (allocateFrame infos pbufAlloc) (.start infos) = (p, state)) :
    (p = [] ↔ allocateFrame infos pbufAlloc = []) ∧
      p.map Pbuf.len = (allocateFrame infos pbufAlloc).map Pbuf.len ∧
      (p ≠ [] → Pbuf.allBytes p = infos.bytes constants eth) ∧
      state.WithinFrame constants { eth with rxFrameInfos := infos } := by
  have start : (InputState.start infos).WithinFrame constants
      { eth with rxFrameInfos := infos } :=
    ⟨fun _ impossible => absurd impossible List.not_mem_nil,
      fun _ impossible => absurd impossible List.not_mem_nil⟩
  by_cases none : allocateFrame infos pbufAlloc = []
  · rw [none, inputChain] at copied
    cases copied
    exact ⟨iff_of_true rfl none, congrArg _ none.symm, fun impossible => absurd rfl impossible,
      start⟩
  · obtain ⟨positive, total⟩ := totalLength_allocateFrame reported pbufAlloc none
    obtain ⟨lens, bytes, framed⟩ := @InputState.inputChain_gathered _ _ constants
      { eth with rxFrameInfos := infos } _ reported.length_le positive
      (allocateFrame infos pbufAlloc) 0 (.start infos) 0
      ⟨rfl, reported.buffer_eq, Nat.zero_le _, Nat.zero_mul _⟩ start (.inl rfl)
      ((Nat.zero_add _).trans total).le
    rw [copied] at lens bytes framed
    refine ⟨⟨?_, fun empty => absurd empty none⟩, lens, fun _ => ?_, framed⟩
    · rintro rfl
      exact List.map_eq_nil_iff.mp lens.symm
    · rw [bytes, total, RxFrameInfos.bytes, Blocks.flatMap_slice,
        Blocks.take_slice reported.length_le]
      rfl

/-- What a call of `low_level_input` returns and leaves, given a reported frame: a chain whenever
one was allocated, cut as that one is and with the bytes of the frame; each copy stays inside a
buffer of the frame and inside the payload of its pbuf, and only descriptors of the frame are read;
and the descriptors of the frame, and no others, are given back to the DMA. -/
structure Gathers (constants : DmaConstants) (eth : EthDma Desc Buffer)
    (infos : RxFrameInfos Desc Buffer) (pbufAlloc : PbufAlloc)
    (result : InputResult Desc Buffer) : Prop where
  obtained : result.p = [] ↔ allocateFrame infos pbufAlloc = []
  chain : result.p.map Pbuf.len = (allocateFrame infos pbufAlloc).map Pbuf.len
  payload : result.p ≠ [] → Pbuf.allBytes result.p = infos.bytes constants eth
  inside : ∀ copy ∈ result.copies, copy.Inside constants.ethRxBufSize ∧
    ∃ index < infos.segCount.toNat, copy.buffer = DmaDesc.buffer eth.descs infos.fsRxDesc index
  read : ∀ desc ∈ result.accessed, infos.OfFrame eth.descs desc
  returned : ∀ desc, infos.OfFrame eth.descs desc →
    result.eth.descs desc = (eth.descs desc).released constants ∧
      (result.eth.descs desc).status &&& constants.ethDmaRxDescOwn ≠ 0
  others : ∀ desc, ¬ infos.OfFrame eth.descs desc → result.eth.descs desc = eth.descs desc
  cleared : result.eth.rxFrameInfos.segCount = 0

/-- A descriptor given back has its bit set. -/
theorem DmaDesc.released_owned (constants : DmaConstants) (desc : DmaDesc Desc Buffer) :
    (desc.released constants).status &&& constants.ethDmaRxDescOwn ≠ 0 := by
  have bits : (desc.status ||| constants.ethDmaRxDescOwn) &&& constants.ethDmaRxDescOwn =
      constants.ethDmaRxDescOwn := by
    refine UInt32.toBitVec_inj.mp ?_
    ext index bound
    simp only [UInt32.toBitVec_and, UInt32.toBitVec_or, BitVec.getElem_and, BitVec.getElem_or]
    exact Bool.and_eq_right_iff_imp.mpr fun set => by rw [set, Bool.or_true]
  rw [released, bits]
  exact constants.rxDescOwn_ne

/-- Whatever frame is reported and whether or not there is memory for it, it is gathered and its
descriptors are given back. -/
theorem lowLevelInput_gathers [DecidableEq Desc] (constants : DmaConstants)
    (eth : EthDma Desc Buffer) (infos : RxFrameInfos Desc Buffer) (pbufAlloc : PbufAlloc)
    (dmasr : UInt32) (reported : infos.Reported constants eth.descs) :
    Gathers constants eth infos pbufAlloc
      (lowLevelInput constants eth (some infos) pbufAlloc dmasr) := by
  obtain ⟨given, kept, visited⟩ := releaseDescs_eq constants infos.segCount.toNat infos.fsRxDesc
    eth.descs
  obtain ⟨obtained, chain, bytes, framed⟩ :=
    inputChain_frame constants eth infos pbufAlloc reported _ _ rfl
  refine ⟨obtained, chain, bytes, framed.inside, ?_, ?_, ?_, rfl⟩
  · intro desc member
    rcases List.mem_append.mp member with copying | releasing
    · exact framed.read desc copying
    · exact visited desc releasing
  · rintro _ ⟨index, inside, rfl⟩
    have returned : (lowLevelInput constants eth (some infos) pbufAlloc dmasr).eth.descs
        (DmaDesc.node eth.descs infos.fsRxDesc index) = _ := given index inside
    exact ⟨returned, returned ▸ DmaDesc.released_owned constants _⟩
  · exact fun desc apart => kept desc fun index inside same => apart ⟨index, inside, same⟩

/-- A frame of five bytes in two buffers of four. -/
theorem lowLevelInput_gathers_pair :
    Gathers .small .pair ⟨false, 2, 5, false⟩ .single
      (lowLevelInput .small .pair (some ⟨false, 2, 5, false⟩) .single 0) :=
  lowLevelInput_gathers .small .pair ⟨false, 2, 5, false⟩ .single 0
    ⟨rfl, by decide, by decide⟩

end RtpLib
