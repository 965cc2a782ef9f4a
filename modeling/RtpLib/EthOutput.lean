/-
This file settles that `low_level_output` scatters a frame correctly over the
transmit buffers. The pbufs of the chain and the buffers of the descriptors cut the
frame in two unrelated ways; what ties them is one number, the bytes copied so far,
which is the length sent of the chain and the place reached in the buffers read one
after the other.

A step to the next descriptor is put off until there is a byte to copy, so that a
frame that ends with a buffer takes no descriptor more than its length needs. The
descriptors looked at are therefore the first ones that the length needs, and the
first of them that belongs to the DMA ends the function.
-/

import RtpLib.EthDma

namespace RtpLib

variable {Desc Buffer : Type} [DecidableEq Buffer]

/-- A circular list of `count` descriptors, each with a buffer of its own. -/
structure DmaDesc.Ring {Desc Buffer : Type} (descs : Desc → DmaDesc Desc Buffer) (first : Desc)
    (count : Nat) : Prop where
  closes : node descs first count = first
  apart : ∀ i < count, ∀ j < count, buffer descs first i = buffer descs first j → i = j

namespace EthDma

/-- The transmit descriptor at a place of the list. -/
def txNode (eth : EthDma Desc Buffer) (index : Nat) : Desc :=
  DmaDesc.node eth.descs eth.txDesc index

/-- The buffer of the transmit descriptor at a place of the list. -/
def txBuffer (eth : EthDma Desc Buffer) (index : Nat) : Buffer :=
  DmaDesc.buffer eth.descs eth.txDesc index

/-- The descriptor at a place of the list belongs to the DMA. -/
def txBusy (constants : DmaConstants) (eth : EthDma Desc Buffer) (index : Nat) : Prop :=
  txOwned constants eth.descs (eth.txNode index) = true

/-- The first bytes of the buffers of the first `count` transmit descriptors. -/
def txBytes (constants : DmaConstants) (eth : EthDma Desc Buffer) (count length : Nat) :
    List UInt8 :=
  ((List.range count).flatMap fun index =>
    Blocks.slice (eth.memory (eth.txBuffer index)) 0 constants.ethTxBufSize).take length

end EthDma

/-! ### The invariant of the copies -/

namespace OutputState

section Scatter

variable (constants : DmaConstants) (eth : EthDma Desc Buffer) (count total : Nat)

/-- What the copies have left in the buffers: the bytes `sent`, from the first buffer on, and
nothing in a buffer of the DMA; and each copy kept inside its buffer and its payload. -/
structure Stored (state : OutputState Desc Buffer) (length : Nat) (sent : List UInt8) :
    Prop where
  laid : Blocks.slice (Blocks.joined (fun index => state.memory (eth.txBuffer index))
    constants.ethTxBufSize) 0 length = sent
  kept : ∀ index < count, eth.txBusy constants index →
    state.memory (eth.txBuffer index) = eth.memory (eth.txBuffer index)
  inside : ∀ copy ∈ state.copies, copy.Inside constants.ethTxBufSize ∧
    ∃ index < Blocks.needed constants.ethTxBufSize total,
      copy.buffer = eth.txBuffer index ∧ ¬ eth.txBusy constants index

/-- Where the variables stand: at the offset `bufferoffset` of the buffer at the place `block`,
after `framelength` bytes, all descriptors before belonging to the CPU. -/
structure Cursor (state : OutputState Desc Buffer) (block : Nat) : Prop where
  desc : state.dmaTxDesc = eth.txNode block
  buffer : state.buffer = eth.txBuffer block
  offset_le : state.bufferoffset ≤ constants.ethTxBufSize
  position : block * constants.ethTxBufSize + state.bufferoffset = state.framelength
  free : ∀ index < block, ¬ eth.txBusy constants index

/-- What an error leaves: one of the descriptors that the frame needs belongs to the DMA. -/
structure Failed (state : OutputState Desc Buffer) : Prop where
  busy : ∃ index < Blocks.needed constants.ethTxBufSize total, eth.txBusy constants index
  stored : ∃ length sent, state.Stored constants eth count total length sent

/-- How a loop ends: in an error, or with a result that is as it should be. -/
def Ends {Result : Type} (good : Result → Prop) : Except (OutputState Desc Buffer) Result → Prop
  | .ok result => good result
  | .error state => state.Failed constants eth count total

variable {constants eth count total} {state : OutputState Desc Buffer} {block left : Nat}

omit [DecidableEq Buffer] in
/-- The place reached is one that the frame needs, as long as there is a byte of the frame in
the buffer or still to come. -/
theorem Cursor.lt_needed (cursor : state.Cursor constants eth block) (positive : 1 ≤ total)
    (started : block = 0 ∨ 0 < state.bufferoffset + left)
    (reach : state.framelength + left ≤ total) :
    block < Blocks.needed constants.ethTxBufSize total := by
  rw [Blocks.lt_needed_iff constants.txBufSize_pos]
  exact Blocks.start_lt cursor.position started reach positive

omit [DecidableEq Buffer] in
theorem Cursor.node_succ (cursor : state.Cursor constants eth block) :
    eth.txNode (block + 1) = (eth.descs state.dmaTxDesc).buffer2NextDescAddr := by
  rw [cursor.desc]
  exact DmaDesc.node_succ _ _ _

omit [DecidableEq Buffer] in
/-- What the function asks before it moves on. -/
theorem Cursor.txBusy_succ_iff (cursor : state.Cursor constants eth block) :
    eth.txBusy constants (block + 1) ↔
      txOwned constants eth.descs (eth.descs state.dmaTxDesc).buffer2NextDescAddr = true := by
  rw [EthDma.txBusy, cursor.node_succ]

omit [DecidableEq Buffer] in
/-- The variables start at the first descriptor, with nothing copied. -/
theorem Cursor.start (constants : DmaConstants) (eth : EthDma Desc Buffer) :
    (OutputState.start eth).Cursor constants eth 0 :=
  ⟨rfl, rfl, Nat.zero_le _, Nat.zero_mul _,
    fun index before => absurd before (Nat.not_lt_zero index)⟩

omit [DecidableEq Buffer] in
/-- The next buffer starts where this one is full. -/
theorem Cursor.succ_mul (cursor : state.Cursor constants eth block) :
    (block + 1) * constants.ethTxBufSize =
      state.framelength + (constants.ethTxBufSize - state.bufferoffset) := by
  have offset_le := cursor.offset_le
  have position := cursor.position
  rw [Nat.succ_mul]
  omega

omit [DecidableEq Buffer] in
/-- Up to the place reached, every descriptor belongs to the CPU if the one there does. -/
theorem Cursor.not_busy_of_le (cursor : state.Cursor constants eth block)
    (free : ¬ eth.txBusy constants block) {index : Nat} (reached : index ≤ block) :
    ¬ eth.txBusy constants index := by
  rcases Nat.lt_or_eq_of_le reached with earlier | rfl
  · exact cursor.free index earlier
  · exact free

omit [DecidableEq Buffer] in
/-- A place before the length so far has been reached. -/
theorem Cursor.le_of_mul_lt (cursor : state.Cursor constants eth block) {index : Nat}
    (before : index * constants.ethTxBufSize < state.framelength) : index ≤ block := by
  refine Nat.le_of_lt_succ (Nat.lt_of_mul_lt_mul_right (before.trans_le ?_))
  rw [← cursor.position, Nat.succ_mul]
  exact Nat.add_le_add_left cursor.offset_le _

omit [DecidableEq Buffer] in
/-- The step to the next descriptor, once the buffer is full. -/
theorem Cursor.next {next : OutputState Desc Buffer} (cursor : state.Cursor constants eth block)
    (free : ¬ eth.txBusy constants block)
    (desc : next.dmaTxDesc = (eth.descs state.dmaTxDesc).buffer2NextDescAddr)
    (buffer : next.buffer = (eth.descs next.dmaTxDesc).buffer1Addr)
    (offset : next.bufferoffset = 0)
    (length : next.framelength =
      state.framelength + (constants.ethTxBufSize - state.bufferoffset)) :
    next.Cursor constants eth (block + 1) where
  desc := desc.trans cursor.node_succ.symm
  buffer := by
    rw [buffer, desc, ← cursor.node_succ]
    rfl
  offset_le := offset ▸ Nat.zero_le _
  position := by
    rw [offset, Nat.add_zero, cursor.succ_mul, length]
  free index before := cursor.not_busy_of_le free (Nat.le_of_lt_succ before)

variable (ring : DmaDesc.Ring eth.descs eth.txDesc count)
  (fits : total ≤ count * constants.ethTxBufSize) (positive : 1 ≤ total)

omit [DecidableEq Buffer] in
/-- Before the first copy nothing is stored. -/
theorem Stored.start (constants : DmaConstants) (eth : EthDma Desc Buffer) (count total : Nat) :
    (OutputState.start eth).Stored constants eth count total 0 [] :=
  ⟨rfl, fun _ _ _ => rfl, fun _ impossible => absurd impossible List.not_mem_nil⟩

include ring fits

/-- A copy from where the last one ended appends to the bytes sent. -/
theorem Stored.memcpy {sent : List UInt8}
    (stored : state.Stored constants eth count total state.framelength sent)
    (cursor : state.Cursor constants eth block)
    (needed : block < Blocks.needed constants.ethTxBufSize total)
    (free : ¬ eth.txBusy constants block) (q : Pbuf) (payloadoffset length : Nat)
    (within : state.bufferoffset + length ≤ constants.ethTxBufSize)
    (inPayload : payloadoffset + length ≤ q.len.toNat) :
    (state.memcpy q payloadoffset length).Stored constants eth count total
      (state.framelength + length) (sent ++ Blocks.slice q.payload payloadoffset length) := by
  have inside : block < count :=
    needed.trans_le (Blocks.needed_le constants.txBufSize_pos fits)
  have other : ∀ index < count, index ≠ block →
      (state.memcpy q payloadoffset length).memory (eth.txBuffer index) =
        state.memory (eth.txBuffer index) := by
    intro index bound different
    refine Function.update_of_ne (fun same => different ?_) _ _
    exact ring.apart index bound block inside (same.trans cursor.buffer)
  refine ⟨?_, ?_, ?_⟩
  · have copied : (state.memcpy q payloadoffset length).memory (eth.txBuffer block) =
        Blocks.copy (state.memory (eth.txBuffer block)) state.bufferoffset q.payload payloadoffset
          length := by
      rw [← cursor.buffer]
      exact Function.update_self _ _ _
    have appended := @Blocks.slice_joined_copy _ q.payload payloadoffset length
      (fun index => state.memory (eth.txBuffer index)) constants.ethTxBufSize block
      state.bufferoffset
      (fun index => (state.memcpy q payloadoffset length).memory (eth.txBuffer index))
      constants.txBufSize_pos
      (fun index before => other index (before.trans inside) before.ne) copied within
    rw [cursor.position, stored.laid] at appended
    exact appended
  · intro index bound busy
    rw [other index bound fun same => free (same ▸ busy)]
    exact stored.kept index bound busy
  · intro copy member
    rcases List.mem_append.mp member with earlier | last
    · exact stored.inside copy earlier
    · rw [List.mem_singleton.mp last]
      exact ⟨⟨within, inPayload⟩, block, needed, cursor.buffer, free⟩

/-! ### The loops -/

/-- What the inner loop leaves of a pbuf: the variables at a buffer that has room for the rest of
it, and the bytes before the rest copied. -/
structure Filled (constants : DmaConstants) (eth : EthDma Desc Buffer) (count total : Nat)
    (q : Pbuf) (before : List UInt8) (reached : Nat)
    (result : OutputState Desc Buffer × Nat × Nat) : Prop where
  cursor : ∃ block, result.1.Cursor constants eth block ∧ ¬ eth.txBusy constants block ∧
    (block = 0 ∨ 0 < result.1.bufferoffset + result.2.1)
  stored : result.1.Stored constants eth count total result.1.framelength
    (before ++ Blocks.slice q.payload 0 result.2.2)
  payload : result.2.2 + result.2.1 = q.len.toNat
  reach : result.1.framelength + result.2.1 = reached
  room : result.1.bufferoffset + result.2.1 ≤ constants.ethTxBufSize

/-- What the copy that fills a buffer up leaves. -/
theorem Stored.fillUp {q : Pbuf} {before : List UInt8} {payloadoffset : Nat}
    (stored : state.Stored constants eth count total state.framelength
      (before ++ Blocks.slice q.payload 0 payloadoffset))
    (cursor : state.Cursor constants eth block)
    (needed : block < Blocks.needed constants.ethTxBufSize total)
    (free : ¬ eth.txBusy constants block) (payload : payloadoffset + left = q.len.toNat)
    (more : left + state.bufferoffset > constants.ethTxBufSize) :
    (state.memcpy q payloadoffset (constants.ethTxBufSize - state.bufferoffset)).Stored constants
        eth count total (state.framelength + (constants.ethTxBufSize - state.bufferoffset))
        (before ++ Blocks.slice q.payload 0
          (payloadoffset + (constants.ethTxBufSize - state.bufferoffset))) := by
  have offset_le := cursor.offset_le
  have copied := stored.memcpy ring fits cursor needed free q payloadoffset
    (constants.ethTxBufSize - state.bufferoffset) (by omega) (by omega)
  have joined := @Blocks.slice_add _ q.payload 0 payloadoffset
    (constants.ethTxBufSize - state.bufferoffset)
  rw [Nat.zero_add] at joined
  rw [List.append_assoc, ← joined] at copied
  exact copied

include positive

/-- The inner loop steps to the next descriptor only when there is a byte left for it, so that
every descriptor it asks about is one that the frame needs. -/
theorem fillBuffers_ends (q : Pbuf) (before : List UInt8) (reached : Nat)
    (state : OutputState Desc Buffer) (byteslefttocopy payloadoffset block : Nat)
    (cursor : state.Cursor constants eth block) (free : ¬ eth.txBusy constants block)
    (started : block = 0 ∨ 0 < state.bufferoffset + byteslefttocopy)
    (stored : state.Stored constants eth count total state.framelength
      (before ++ Blocks.slice q.payload 0 payloadoffset))
    (payload : payloadoffset + byteslefttocopy = q.len.toNat)
    (reach : state.framelength + byteslefttocopy = reached) (within : reached ≤ total) :
    Ends constants eth count total (Filled constants eth count total q before reached)
      (fillBuffers constants eth.descs q state byteslefttocopy payloadoffset) := by
  induction state, byteslefttocopy, payloadoffset using
    fillBuffers.induct constants eth.descs q generalizing block with
  | case1 state byteslefttocopy payloadoffset more dmaTxDesc busy =>
    -- The next descriptor belongs to the DMA.
    have offset_le := cursor.offset_le
    have needed := cursor.lt_needed positive started (reach.trans_le within)
    have copied := stored.fillUp ring fits cursor needed free payload more
    rw [fillBuffers, if_pos more]
    simp only
    rw [if_pos busy]
    refine ⟨⟨block + 1, ?_, cursor.txBusy_succ_iff.mpr busy⟩, _, _,
      ⟨copied.laid, copied.kept, copied.inside⟩⟩
    rw [Blocks.lt_needed_iff constants.txBufSize_pos, cursor.succ_mul]
    omega
  | case2 state byteslefttocopy payloadoffset more space copied dmaTxDesc notBusy next
      inductionHypothesis =>
    have offset_le := cursor.offset_le
    have needed := cursor.lt_needed positive started (reach.trans_le within)
    have filled := stored.fillUp ring fits cursor needed free payload more
    have freeNext : ¬ eth.txBusy constants (block + 1) :=
      fun busy => notBusy (cursor.txBusy_succ_iff.mp busy)
    rw [fillBuffers, if_pos more]
    simp only
    rw [if_neg notBusy]
    refine inductionHypothesis (block + 1) (cursor.next free rfl rfl rfl rfl) freeNext
      (.inr ?_) ⟨filled.laid, filled.kept, filled.inside⟩ ?_ ?_
    · show 0 < 0 + (byteslefttocopy - space)
      omega
    · show payloadoffset + space + (byteslefttocopy - space) = q.len.toNat
      omega
    · show state.framelength + space + (byteslefttocopy - space) = reached
      omega
  | case3 state byteslefttocopy payloadoffset room =>
    rw [fillBuffers, if_neg room]
    exact ⟨⟨block, cursor, free, started⟩, stored, payload, reach,
      (Nat.add_comm _ _).trans_le (Nat.le_of_not_lt room)⟩

/-- What the outer loop leaves: the variables at the last buffer used, and the frame copied. -/
structure Copied (constants : DmaConstants) (eth : EthDma Desc Buffer) (count total : Nat)
    (sent : List UInt8) (state : OutputState Desc Buffer) : Prop where
  cursor : ∃ block, state.Cursor constants eth block ∧ ¬ eth.txBusy constants block
  reach : state.framelength = total
  stored : state.Stored constants eth count total total sent

omit ring fits positive in
omit [DecidableEq Buffer] in
/-- The frame copied is what the first buffers hold. -/
theorem Copied.txBytes {sent : List UInt8} {writes : List RegisterWrite}
    (copied : Copied constants eth count total sent state) :
    EthDma.txBytes constants { eth with memory := state.memory, writes := writes }
      (Blocks.needed constants.ethTxBufSize total) total = sent := by
  rw [EthDma.txBytes, Blocks.flatMap_slice,
    Blocks.take_slice (Blocks.le_needed_mul _ constants.txBufSize_pos)]
  exact copied.stored.laid

/-- The outer loop. A buffer that holds a byte of the frame has been found free; only before the
first byte has the first one still to be asked about. -/
theorem outputChain_ends (p : List Pbuf) (before : List UInt8) (state : OutputState Desc Buffer)
    (block : Nat) (cursor : state.Cursor constants eth block)
    (entered : state.framelength = 0 ∨ ¬ eth.txBusy constants block)
    (started : block = 0 ∨ 0 < state.bufferoffset)
    (stored : state.Stored constants eth count total state.framelength before)
    (reach : state.framelength + Pbuf.totalLength p = total) :
    Ends constants eth count total
      (Copied constants eth count total (before ++ Pbuf.allBytes p))
      (outputChain constants eth.descs p state) := by
  induction p generalizing before state block with
  | nil =>
    have length : state.framelength = total := reach
    have used : ¬ eth.txBusy constants block := entered.resolve_left (by omega)
    have all : before ++ Pbuf.allBytes [] = before := List.append_nil _
    rw [all, outputChain]
    exact ⟨⟨block, cursor, used⟩, length, length ▸ stored⟩
  | cons q rest inductionHypothesis =>
    rw [Pbuf.totalLength_cons] at reach
    rw [outputChain]
    by_cases busy : eth.txBusy constants block
    · have needed := cursor.lt_needed positive
        (started.imp_right fun offset => Nat.add_pos_left offset _) reach.le
      rw [if_pos (cursor.desc ▸ busy)]
      exact ⟨⟨block, needed, busy⟩, _, _, stored⟩
    · rw [if_neg (cursor.desc ▸ busy)]
      have filled := fillBuffers_ends ring fits positive q before
        (state.framelength + q.len.toNat) state q.len.toNat 0 block cursor busy
        (started.imp_right fun offset => Nat.add_pos_left offset _)
        (by rw [Blocks.slice_zero, List.append_nil]; exact stored) (Nat.zero_add _) rfl
        (by omega)
      generalize fillBuffers constants eth.descs q state q.len.toNat 0 = result at filled ⊢
      cases result with
      | error last => exact filled
      | ok result =>
        obtain ⟨next, byteslefttocopy, payloadoffset⟩ := result
        obtain ⟨⟨block, cursor, free, started⟩, stored, payload, reached, room⟩ := filled
        have position : block * constants.ethTxBufSize + next.bufferoffset = next.framelength :=
          cursor.position
        have reached : next.framelength + byteslefttocopy = state.framelength + q.len.toNat :=
          reached
        have needed := cursor.lt_needed positive started (by omega)
        have copied := stored.memcpy ring fits cursor needed free q payloadoffset
          byteslefttocopy room payload.le
        have joined := @Blocks.slice_add _ q.payload 0 payloadoffset byteslefttocopy
        rw [Nat.zero_add, payload] at joined
        rw [List.append_assoc, ← joined] at copied
        have all : before ++ Pbuf.allBytes (q :: rest) =
            before ++ Blocks.slice q.payload 0 q.len.toNat ++ Pbuf.allBytes rest :=
          (List.append_assoc _ _ _).symm
        rw [all]
        refine inductionHypothesis _ _ block ⟨cursor.desc, cursor.buffer, room, ?_, cursor.free⟩
          (.inr free) started ⟨copied.laid, copied.kept, copied.inside⟩ ?_
        · show block * constants.ethTxBufSize + (next.bufferoffset + byteslefttocopy) =
            next.framelength + byteslefttocopy
          omega
        · show next.framelength + byteslefttocopy + Pbuf.totalLength rest = total
          omega

end Scatter

end OutputState

/-! ### The call -/

/-- What a call of `low_level_output` with a chain returns and leaves, with `count` descriptors in
the list: when the descriptors that the length of the frame needs belong to the CPU, the frame is
passed on once, with its length and with its bytes in their buffers, and otherwise the call fails
without passing anything on. Each copy stays inside a buffer of the CPU and inside the payload of
its pbuf, and the buffers of the DMA keep their bytes. -/
structure Scatters (constants : DmaConstants) (eth : EthDma Desc Buffer) (p : List Pbuf)
    (count needed : Nat) (result : OutputResult Desc Buffer) : Prop where
  sent : (∀ index < needed, ¬ eth.txBusy constants index) →
    result.errval = .errOk ∧ result.transmitFrame = [Pbuf.totalLength p] ∧
      result.eth.txBytes constants needed (Pbuf.totalLength p) = Pbuf.allBytes p
  refused : (∃ index < needed, eth.txBusy constants index) →
    result.errval = .errUse ∧ result.transmitFrame = []
  inside : ∀ copy ∈ result.copies, copy.Inside constants.ethTxBufSize ∧
    ∃ index < needed, copy.buffer = eth.txBuffer index ∧ ¬ eth.txBusy constants index
  kept : ∀ index < count, eth.txBusy constants index →
    result.eth.memory (eth.txBuffer index) = eth.memory (eth.txBuffer index)

/-- Whatever the chain, the list of descriptors and the bits that say whose they are, a frame is
scattered over the descriptors that its length needs. -/
theorem lowLevelOutput_scatters (constants : DmaConstants) (eth : EthDma Desc Buffer)
    (dmasr : UInt32) (p : List Pbuf) (count : Nat)
    (ring : DmaDesc.Ring eth.descs eth.txDesc count) (nonempty : 1 ≤ Pbuf.totalLength p)
    (fits : Pbuf.totalLength p ≤ count * constants.ethTxBufSize) :
    Scatters constants eth p count
      (Blocks.needed constants.ethTxBufSize (Pbuf.totalLength p))
      (lowLevelOutput constants eth dmasr p) := by
  have ends := OutputState.outputChain_ends ring fits nonempty p [] (.start eth) 0
    (OutputState.Cursor.start constants eth) (.inl rfl) (.inl rfl)
    (OutputState.Stored.start constants eth count _) (Nat.zero_add _)
  rw [lowLevelOutput]
  generalize outputChain constants eth.descs p (.start eth) = ending at ends ⊢
  cases ending with
  | error last =>
    obtain ⟨⟨index, inside, busy⟩, _, _, stored⟩ := ends
    exact ⟨fun free => absurd busy (free index inside), fun _ => ⟨rfl, rfl⟩, stored.inside,
      stored.kept⟩
  | ok last =>
    have copied := ends
    obtain ⟨⟨block, cursor, free⟩, reach, stored⟩ := ends
    refine ⟨fun _ => ⟨rfl, congrArg (fun length => [length]) reach, copied.txBytes⟩, ?_,
      stored.inside, stored.kept⟩
    rintro ⟨index, inside, busy⟩
    rw [Blocks.lt_needed_iff constants.txBufSize_pos, ← reach] at inside
    exact absurd busy (cursor.not_busy_of_le free (cursor.le_of_mul_lt inside))

/-- Two pbufs of three and two bytes, over two buffers of four. -/
theorem lowLevelOutput_scatters_pair :
    Scatters .small .pair [⟨fun _ => 65, 3⟩, ⟨fun _ => 66, 2⟩] 2 2
      (lowLevelOutput .small .pair 0 [⟨fun _ => 65, 3⟩, ⟨fun _ => 66, 2⟩]) :=
  lowLevelOutput_scatters .small .pair 0 [⟨fun _ => 65, 3⟩, ⟨fun _ => 66, 2⟩] 2
    ⟨rfl, by decide⟩ (by decide) (by decide)

end RtpLib
