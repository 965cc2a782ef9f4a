/-
This file settles that the frames handed over leave unharmed. A call of
`low_level_output` writes into the buffers while the DMA reads others, and what
keeps them apart is that a call writes only where it has found the mark cleared: the
DMA clears marks and never sets one, so that a descriptor found free stays so until
the call hands it over.

As on reception, the ring is an instance of the library of handed slots, now with
the CPU as the producer. It writes into free slots for as long as it likes, which
counts for nothing until the HAL marks them, and the marks come for all descriptors
of a frame at once.
-/

import RtpLib.EthTransmitter

namespace RtpLib

variable {Desc Buffer : Type}

/-! ### Marks that are cleared -/

/-- The same descriptors later, when the DMA is done with some of them. -/
structure Cleared (constants : DmaConstants) (descs later : Desc → DmaDesc Desc Buffer) :
    Prop where
  links : ∀ desc, (later desc).buffer2NextDescAddr = (descs desc).buffer2NextDescAddr
  addrs : ∀ desc, (later desc).buffer1Addr = (descs desc).buffer1Addr
  owned : ∀ desc, txOwned constants later desc = true → txOwned constants descs desc = true

namespace Cleared

variable {constants : DmaConstants} {descs later last : Desc → DmaDesc Desc Buffer}

theorem refl (constants : DmaConstants) (descs : Desc → DmaDesc Desc Buffer) :
    Cleared constants descs descs := ⟨fun _ => rfl, fun _ => rfl, fun _ => id⟩

theorem trans (first : Cleared constants descs later) (second : Cleared constants later last) :
    Cleared constants descs last where
  links desc := (second.links desc).trans (first.links desc)
  addrs desc := (second.addrs desc).trans (first.addrs desc)
  owned desc marked := first.owned desc (second.owned desc marked)

/-- The DMA writes a status word without the mark. -/
theorem update [DecidableEq Desc] (desc : Desc) {status : UInt32}
    (cleared : status &&& constants.ethDmaTxDescOwn = 0) :
    Cleared constants descs
      (Function.update descs desc { descs desc with status := status }) where
  links := DmaDesc.update_view DmaDesc.buffer2NextDescAddr (by rfl)
  addrs := DmaDesc.update_view DmaDesc.buffer1Addr (by rfl)
  owned other marked := by
    by_cases here : other = desc
    · rw [here, txOwned, Function.update_self, cleared] at marked
      exact absurd marked Bool.false_ne_true
    · rwa [txOwned, Function.update_of_ne here] at marked

end Cleared

/-! ### The length of a chain -/

theorem Pbuf.length_allBytes (p : List Pbuf) :
    (Pbuf.allBytes p).length = Pbuf.totalLength p := by
  induction p with
  | nil => rfl
  | cons q rest inductionHypothesis =>
    rw [totalLength_cons, ← inductionHypothesis]
    show (q.bytes ++ allBytes rest).length = _
    rw [List.length_append, bytes, Blocks.length_slice]

/-- The same interface later, with the descriptors of the call where they were. -/
structure EthDma.Freed (constants : DmaConstants) (eth later : EthDma Desc Buffer) : Prop where
  txDesc : later.txDesc = eth.txDesc
  cleared : Cleared constants eth.descs later.descs

namespace EthDma.Freed

variable {constants : DmaConstants} {eth later : EthDma Desc Buffer}

theorem txNode (freed : eth.Freed constants later) (index : Nat) :
    later.txNode index = eth.txNode index := by
  rw [EthDma.txNode, EthDma.txNode, freed.txDesc, DmaDesc.node_congr freed.cleared.links]

theorem txBuffer (freed : eth.Freed constants later) (index : Nat) :
    later.txBuffer index = eth.txBuffer index := by
  have node := freed.txNode index
  rw [EthDma.txNode, EthDma.txNode] at node
  rw [EthDma.txBuffer, EthDma.txBuffer, DmaDesc.buffer, DmaDesc.buffer, node, freed.cleared.addrs]

theorem not_busy (freed : eth.Freed constants later) {index : Nat}
    (free : ¬ eth.txBusy constants index) : ¬ later.txBusy constants index := by
  intro busy
  rw [EthDma.txBusy, freed.txNode] at busy
  exact free (freed.cleared.owned _ busy)

theorem cursor (freed : eth.Freed constants later)
    {vars : OutputState Desc Buffer} {block : Nat} (cursor : vars.Cursor constants eth block) :
    vars.Cursor constants later block where
  desc := cursor.desc.trans (freed.txNode block).symm
  buffer := cursor.buffer.trans (freed.txBuffer block).symm
  offset_le := cursor.offset_le
  position := cursor.position
  free index before := freed.not_busy (cursor.free index before)

theorem stored (freed : eth.Freed constants later)
    {vars : OutputState Desc Buffer} {count total length : Nat} {sent : List UInt8}
    (stored : vars.Stored constants eth count total length sent)
    (memory : vars.memory = later.memory) :
    vars.Stored constants later count total length sent where
  laid := by
    rw [funext freed.txBuffer]
    exact stored.laid
  kept _ _ _ := by rw [memory]
  inside copy member := by
    obtain ⟨within, index, needed, buffer, free⟩ := stored.inside copy member
    exact ⟨within, index, needed, buffer.trans (freed.txBuffer index).symm, freed.not_busy free⟩

end EthDma.Freed

namespace EthTransmitter

/-! ### The copies under way -/

section Underway

variable (constants : DmaConstants) (eth : EthDma Desc Buffer) (count : Nat)
  (vars : OutputState Desc Buffer) (p : List Pbuf)

/-- The variables stand at the descriptor at the place `block`, the bytes `sent` are in the
buffers, and the bytes `ahead` of the chain are still to come. -/
structure Underway (block : Nat) (sent ahead : List UInt8) : Prop where
  cursor : vars.Cursor constants eth block
  stored : vars.Stored constants eth count (Pbuf.totalLength p) vars.framelength sent
  whole : sent ++ ahead = Pbuf.allBytes p
  memory : vars.memory = eth.memory

/-- The buffer at the place `block` is full, and of the variables only the descriptor has moved
on. -/
structure Full (q : Pbuf) (rest : List Pbuf) (byteslefttocopy payloadoffset block : Nat)
    (sent : List UInt8) : Prop where
  cursor : OutputState.Cursor constants eth { vars with dmaTxDesc := eth.txNode block } block
  free : ¬ eth.txBusy constants block
  desc : vars.dmaTxDesc = eth.txNode (block + 1)
  stored : vars.Stored constants eth count (Pbuf.totalLength p)
    (vars.framelength + (constants.ethTxBufSize - vars.bufferoffset))
    (sent ++ Blocks.slice q.payload 0
      (payloadoffset + (constants.ethTxBufSize - vars.bufferoffset)))
  whole : sent ++ (q.bytes ++ Pbuf.allBytes rest) = Pbuf.allBytes p
  memory : vars.memory = eth.memory
  more : byteslefttocopy + vars.bufferoffset > constants.ethTxBufSize
  payload : payloadoffset + byteslefttocopy = q.len.toNat

/-- What holds of the variables where the call stands. -/
def Phase.Sound : Phase → Prop
  | .nextPbuf rest => ∃ block sent,
    Underway constants eth count vars p block sent (Pbuf.allBytes rest) ∧
      (vars.framelength = 0 ∨ ¬ eth.txBusy constants block) ∧
      (block = 0 ∨ 0 < vars.bufferoffset)
  | .copying q rest byteslefttocopy payloadoffset => ∃ block sent,
    Underway constants eth count vars p block
      (sent ++ Blocks.slice q.payload 0 payloadoffset)
      (Blocks.slice q.payload payloadoffset byteslefttocopy ++ Pbuf.allBytes rest) ∧
      ¬ eth.txBusy constants block ∧
      (block = 0 ∨ 0 < vars.bufferoffset + byteslefttocopy) ∧
      payloadoffset + byteslefttocopy = q.len.toNat
  | .asking q rest byteslefttocopy payloadoffset => ∃ block sent,
    Full constants eth count vars p q rest byteslefttocopy payloadoffset block sent
  | _ => True

end Underway

section Sound

variable {constants : DmaConstants} {eth later : EthDma Desc Buffer} {count block : Nat}
  {vars : OutputState Desc Buffer} {p : List Pbuf} {sent ahead : List UInt8}
  {q : Pbuf} {rest : List Pbuf} {byteslefttocopy payloadoffset : Nat}

theorem Underway.reach (underway : Underway constants eth count vars p block sent ahead) :
    vars.framelength + ahead.length = Pbuf.totalLength p := by
  have length : sent.length = vars.framelength := by
    rw [← underway.stored.laid, Blocks.length_slice]
  rw [← length, ← List.length_append, underway.whole, Pbuf.length_allBytes]

theorem Underway.freed (underway : Underway constants eth count vars p block sent ahead)
    (freed : eth.Freed constants later) (memory : later.memory = eth.memory) :
    Underway constants later count vars p block sent ahead where
  cursor := freed.cursor underway.cursor
  stored := freed.stored underway.stored (underway.memory.trans memory.symm)
  whole := underway.whole
  memory := underway.memory.trans memory.symm

/-- What the DMA does meanwhile does not disturb the call. -/
theorem Phase.Sound.freed {phase : Phase}
    (sound : phase.Sound constants eth count vars p) (freed : eth.Freed constants later)
    (memory : later.memory = eth.memory) : phase.Sound constants later count vars p := by
  cases phase with
  | idle => trivial
  | leaving errval => trivial
  | nextPbuf rest =>
    obtain ⟨block, sent, underway, entered, started⟩ := sound
    exact ⟨block, sent, underway.freed freed memory, entered.imp_right freed.not_busy, started⟩
  | copying q rest byteslefttocopy payloadoffset =>
    obtain ⟨block, sent, underway, free, started, payload⟩ := sound
    exact ⟨block, sent, underway.freed freed memory, freed.not_busy free, started, payload⟩
  | asking q rest byteslefttocopy payloadoffset =>
    obtain ⟨block, sent, full⟩ := sound
    refine ⟨block, sent, ?_, freed.not_busy full.free, ?_, freed.stored full.stored ?_, full.whole,
      full.memory.trans memory.symm, full.more, full.payload⟩
    · rw [freed.txNode]
      exact freed.cursor full.cursor
    · rw [freed.txNode, full.desc]
    · exact full.memory.trans memory.symm

theorem Phase.Sound.call (constants : DmaConstants) (eth : EthDma Desc Buffer) (count : Nat)
    (p : List Pbuf) : (Phase.nextPbuf p).Sound constants eth count (.start eth) p :=
  ⟨0, [], ⟨.start constants eth, .start constants eth count _, rfl, rfl⟩, .inl rfl, .inl rfl⟩

theorem Phase.Sound.enter
    (sound : (Phase.nextPbuf (q :: rest)).Sound constants eth count vars p)
    (free : ¬ txOwned constants eth.descs vars.dmaTxDesc = true) :
    (Phase.copying q rest q.len.toNat 0).Sound constants eth count vars p := by
  obtain ⟨block, sent, underway, -, started⟩ := sound
  refine ⟨block, sent, ⟨underway.cursor, ?_, ?_, underway.memory⟩, ?_, ?_, Nat.zero_add _⟩
  · rw [Blocks.slice_zero, List.append_nil]
    exact underway.stored
  · rw [Blocks.slice_zero, List.append_nil]
    exact underway.whole
  · rwa [EthDma.txBusy, ← underway.cursor.desc]
  · exact started.imp_right fun offset => Nat.add_pos_left offset _

variable (ring : DmaDesc.Ring eth.descs eth.txDesc count)
  (fits : Pbuf.totalLength p ≤ count * constants.ethTxBufSize)
  (positive : 1 ≤ Pbuf.totalLength p)

include ring fits positive

theorem Phase.Sound.fillUp [DecidableEq Buffer]
    (sound : (Phase.copying q rest byteslefttocopy payloadoffset).Sound constants eth count vars p)
    (more : byteslefttocopy + vars.bufferoffset > constants.ethTxBufSize) :
    (Phase.asking q rest byteslefttocopy payloadoffset).Sound constants
      { eth with memory :=
        (vars.memcpy q payloadoffset (constants.ethTxBufSize - vars.bufferoffset)).memory }
      count
      { vars.memcpy q payloadoffset (constants.ethTxBufSize - vars.bufferoffset) with
        dmaTxDesc := (eth.descs vars.dmaTxDesc).buffer2NextDescAddr } p := by
  obtain ⟨block, sent, underway, free, started, payload⟩ := sound
  have reach := underway.reach
  rw [List.length_append, Blocks.length_slice] at reach
  have needed := underway.cursor.lt_needed positive started (by omega)
  have filled := underway.stored.fillUp ring fits underway.cursor needed free payload more
  have freed : eth.Freed constants { eth with memory :=
      (vars.memcpy q payloadoffset (constants.ethTxBufSize - vars.bufferoffset)).memory } :=
    ⟨rfl, .refl constants eth.descs⟩
  have same := freed.stored filled rfl
  have cursor := freed.cursor underway.cursor
  have whole := underway.whole
  rw [List.append_assoc, ← List.append_assoc (Blocks.slice q.payload 0 _)] at whole
  have bytes : Blocks.slice q.payload 0 payloadoffset ++
      Blocks.slice q.payload payloadoffset byteslefttocopy = q.bytes := by
    rw [Pbuf.bytes, ← payload, Blocks.slice_add, Nat.zero_add]
  rw [bytes] at whole
  exact ⟨block, sent, ⟨rfl, cursor.buffer, cursor.offset_le, cursor.position, cursor.free⟩, free,
    underway.cursor.node_succ.symm, ⟨same.laid, same.kept, same.inside⟩, whole, rfl, more, payload⟩

omit ring fits positive in
theorem Phase.Sound.goOn
    (sound : (Phase.asking q rest byteslefttocopy payloadoffset).Sound constants eth count vars p)
    (notBusy : ¬ txOwned constants eth.descs vars.dmaTxDesc = true) :
    (Phase.copying q rest (byteslefttocopy - (constants.ethTxBufSize - vars.bufferoffset))
        (payloadoffset + (constants.ethTxBufSize - vars.bufferoffset))).Sound constants eth count
      { vars with
        buffer := (eth.descs vars.dmaTxDesc).buffer1Addr
        framelength := vars.framelength + (constants.ethTxBufSize - vars.bufferoffset)
        bufferoffset := 0 } p := by
  obtain ⟨block, sent, full⟩ := sound
  have offset_le : vars.bufferoffset ≤ constants.ethTxBufSize := full.cursor.offset_le
  have more := full.more
  have payload := full.payload
  have left : payloadoffset + (constants.ethTxBufSize - vars.bufferoffset) +
      (byteslefttocopy - (constants.ethTxBufSize - vars.bufferoffset)) = q.len.toNat := by omega
  have desc : vars.dmaTxDesc = (eth.descs (eth.txNode block)).buffer2NextDescAddr := by
    rw [full.desc]
    exact DmaDesc.node_succ _ _ _
  have whole := full.whole
  rw [Pbuf.bytes, ← left, Blocks.slice_add, List.append_assoc, ← List.append_assoc,
    Nat.zero_add] at whole
  refine ⟨block + 1, sent, ⟨full.cursor.next full.free desc rfl rfl rfl,
    ⟨full.stored.laid, full.stored.kept, full.stored.inside⟩, whole, full.memory⟩, ?_, .inr ?_,
    left⟩
  · rwa [EthDma.txBusy, ← full.desc]
  · show 0 < 0 + (byteslefttocopy - (constants.ethTxBufSize - vars.bufferoffset))
    omega

theorem Phase.Sound.copyRest [DecidableEq Buffer]
    (sound : (Phase.copying q rest byteslefttocopy payloadoffset).Sound constants eth count vars p)
    (room : ¬ byteslefttocopy + vars.bufferoffset > constants.ethTxBufSize) :
    (Phase.nextPbuf rest).Sound constants
      { eth with memory := (vars.memcpy q payloadoffset byteslefttocopy).memory } count
      { vars.memcpy q payloadoffset byteslefttocopy with
        bufferoffset := vars.bufferoffset + byteslefttocopy
        framelength := vars.framelength + byteslefttocopy } p := by
  obtain ⟨block, sent, underway, free, started, payload⟩ := sound
  have reach := underway.reach
  rw [List.length_append, Blocks.length_slice] at reach
  have within : vars.bufferoffset + byteslefttocopy ≤ constants.ethTxBufSize := by omega
  have needed := underway.cursor.lt_needed positive started (by omega)
  have copied := underway.stored.memcpy ring fits underway.cursor needed free q payloadoffset
    byteslefttocopy within payload.le
  have freed : eth.Freed constants
      { eth with memory := (vars.memcpy q payloadoffset byteslefttocopy).memory } :=
    ⟨rfl, .refl constants eth.descs⟩
  have same := freed.stored copied rfl
  have cursor := freed.cursor underway.cursor
  have whole := underway.whole
  rw [← List.append_assoc] at whole
  refine ⟨block, _, ⟨⟨cursor.desc, cursor.buffer, within, ?_, cursor.free⟩,
    ⟨same.laid, same.kept, same.inside⟩, whole, rfl⟩, .inr free, started⟩
  show block * constants.ethTxBufSize + (vars.bufferoffset + byteslefttocopy) =
    vars.framelength + byteslefttocopy
  rw [← Nat.add_assoc, underway.cursor.position]

end Sound

/-! ### The invariant -/

section Invariant

variable (constants : DmaConstants) (table : Desc → DmaDesc Desc Buffer) (first : Desc)
  (count : Nat)

/-- A frame that the DMA has lies in the ring from a place on. -/
structure Flight.At (history : Nat → Nat → UInt8) (place : Nat) (frame : Flight) : Prop where
  positive : 0 < frame.segCount
  bytes : frame.bytes = Blocks.gathered constants.ethTxBufSize
    (Handoff.window history place frame.segCount) frame.length

/-- The descriptors, with the places that the CPU has handed over and the DMA has returned. -/
structure Placed (history : Nat → Nat → UInt8) (returned filled : Nat)
    (state : System Desc Buffer) : Prop where
  links : ∀ desc, (state.eth.descs desc).buffer2NextDescAddr = (table desc).buffer2NextDescAddr
  addrs : ∀ desc, (state.eth.descs desc).buffer1Addr = (table desc).buffer1Addr
  split : Handoff.Split (DmaDesc.node table first) count
    (fun desc => ¬ txOwned constants state.eth.descs desc = true)
    (fun desc => state.eth.memory (table desc).buffer1Addr) history returned filled
  txDesc : state.eth.txDesc = DmaDesc.node table first filled
  dmaDesc : state.dmaDesc = DmaDesc.node table first returned

/-- The frames that the DMA has fill the places from the one where it began to read. -/
structure Flying (history : Nat → Nat → UInt8) (returned filled begun : Nat)
    (state : System Desc Buffer) : Prop where
  begun_add : begun + state.reading.length = returned
  reading : state.reading = Handoff.window history begun state.reading.length
  laid : Handoff.Laid Flight.segCount (Flight.At constants history) begun state.flying
  extent : begun + Handoff.extent Flight.segCount state.flying = filled
  unfinished : ∀ frame rest, state.flying = frame :: rest →
    state.reading.length < frame.segCount
  accepted : state.accepted = state.wire ++ state.flying.map Flight.bytes

/-- A chain fits into the ring. -/
structure Fits (p : List Pbuf) : Prop where
  positive : 1 ≤ Pbuf.totalLength p
  short : Pbuf.totalLength p ≤ count * constants.ethTxBufSize

/-- What holds wherever a run goes. -/
structure Invariant (state : System Desc Buffer) : Prop where
  placed : ∃ history returned filled begun,
    Placed constants table first count history returned filled state ∧
      Flying constants history returned filled begun state
  fits : state.phase ≠ .idle → Fits constants count state.p
  sound : state.phase.Sound constants state.eth count state.vars state.p

end Invariant

section Steps

variable {constants : DmaConstants} {table : Desc → DmaDesc Desc Buffer} {first : Desc}
  {count returned filled begun : Nat} {history : Nat → Nat → UInt8}
  {state next : System Desc Buffer}

namespace Placed

theorem ring_txDesc (placed : Placed constants table first count history returned filled state)
    (ring : DmaDesc.Ring table first count) (positive : 0 < count) :
    DmaDesc.Ring state.eth.descs state.eth.txDesc count := by
  rw [placed.txDesc]
  exact (ring.shift positive filled).congr placed.links placed.addrs

theorem txNode_eq (placed : Placed constants table first count history returned filled state)
    (index : Nat) : state.eth.txNode index = DmaDesc.node table first (filled + index) := by
  rw [EthDma.txNode, DmaDesc.node_congr placed.links, placed.txDesc, DmaDesc.node_add]

theorem txBuffer_eq (placed : Placed constants table first count history returned filled state)
    (index : Nat) : state.eth.txBuffer index =
      (table (DmaDesc.node table first (filled + index))).buffer1Addr := by
  rw [← placed.txNode_eq, EthDma.txBuffer, DmaDesc.buffer, placed.addrs]
  rfl

/-- A step that leaves the descriptors, the buffers and the DMA alone. -/
theorem turn (placed : Placed constants table first count history returned filled state)
    (descs : next.eth.descs = state.eth.descs) (memory : next.eth.memory = state.eth.memory)
    (txDesc : next.eth.txDesc = state.eth.txDesc) (dmaDesc : next.dmaDesc = state.dmaDesc) :
    Placed constants table first count history returned filled next := by
  refine ⟨?_, ?_, ?_, txDesc.trans placed.txDesc, dmaDesc.trans placed.dmaDesc⟩
  · rw [descs]
    exact placed.links
  · rw [descs]
    exact placed.addrs
  · rw [descs, memory]
    exact placed.split

/-- A copy into a buffer of the CPU. -/
theorem scribble (placed : Placed constants table first count history returned filled state)
    (ring : DmaDesc.Ring table first count) (positive : 0 < count) {block : Nat}
    (free : ¬ state.eth.txBusy constants block) (descs : next.eth.descs = state.eth.descs)
    (txDesc : next.eth.txDesc = state.eth.txDesc) (dmaDesc : next.dmaDesc = state.dmaDesc)
    (kept : ∀ buffer, buffer ≠ state.eth.txBuffer block →
      next.eth.memory buffer = state.eth.memory buffer) :
    Placed constants table first count history returned filled next := by
  refine ⟨?_, ?_, ?_, txDesc.trans placed.txDesc, dmaDesc.trans placed.dmaDesc⟩
  · rw [descs]
    exact placed.links
  · rw [descs]
    exact placed.addrs
  · rw [descs]
    refine placed.split.scribble fun place used => kept _ ?_
    rw [placed.txBuffer_eq]
    refine ring.addr_ne positive fun same => used ?_
    rw [same, ← placed.txNode_eq]
    exact free

/-- The DMA stands at a descriptor that the CPU has handed over. -/
theorem returned_lt (placed : Placed constants table first count history returned filled state)
    (ring : DmaDesc.Ring table first count) (positive : 0 < count)
    (owned : txOwned constants state.eth.descs state.dmaDesc = true) : returned < filled := by
  refine lt_of_le_of_ne placed.split.ordered fun none => ?_
  rw [placed.dmaDesc, none] at owned
  exact (placed.split.free_filled_iff (ring.cyclic positive)).mpr
    (none ▸ Nat.lt_add_of_pos_right positive) owned

/-- The DMA is done with a descriptor. -/
theorem close [DecidableEq Desc]
    (placed : Placed constants table first count history returned filled state)
    (ring : DmaDesc.Ring table first count) (positive : 0 < count)
    (owned : txOwned constants state.eth.descs state.dmaDesc = true) {status : UInt32}
    (cleared : status &&& constants.ethDmaTxDescOwn = 0) (frame : Flight) (rest : List Flight) :
    Placed constants table first count history (returned + 1) filled
      (state.close constants frame rest status) := by
  have here := placed.dmaDesc
  have descs : (state.close constants frame rest status).eth.descs = Function.update
      state.eth.descs state.dmaDesc { state.eth.descs state.dmaDesc with status := status } := rfl
  refine ⟨?_, ?_, ?_, placed.txDesc, ?_⟩
  · intro desc
    rw [descs, ← placed.links]
    exact DmaDesc.update_view DmaDesc.buffer2NextDescAddr (by rfl) desc
  · intro desc
    rw [descs, ← placed.addrs]
    exact DmaDesc.update_view DmaDesc.buffer1Addr (by rfl) desc
  · refine placed.split.giveBack (ring.cyclic positive)
      (placed.returned_lt ring positive owned) ?_ ?_ fun _ _ => rfl
    · rw [descs, ← here, txOwned, Function.update_self, cleared]
      exact Bool.false_ne_true
    · intro place apart
      rw [← here] at apart
      rw [descs, txOwned, Function.update_of_ne apart]
      rfl
  · show (state.eth.descs state.dmaDesc).buffer2NextDescAddr = _
    rw [placed.links, here, DmaDesc.node_succ]

end Placed

/-- What the DMA reads is what was handed over. -/
theorem Flying.close [DecidableEq Desc]
    (flies : Flying constants history returned filled begun state)
    (placed : Placed constants table first count history returned filled state)
    (used : returned < filled) {status : UInt32} {frame : Flight} {rest : List Flight}
    (flying : state.flying = frame :: rest) :
    ∃ begun, Flying constants history (returned + 1) filled begun
      (state.close constants frame rest status) := by
  have stored : state.eth.memory (state.eth.descs state.dmaDesc).buffer1Addr =
      history returned := by
    rw [placed.addrs, placed.dmaDesc]
    exact placed.split.held returned le_rfl used
  have reading : state.reading ++ [state.eth.memory (state.eth.descs state.dmaDesc).buffer1Addr] =
      Handoff.window history begun (state.reading.length + 1) := by
    rw [Handoff.window_succ, ← flies.reading, flies.begun_add, stored]
  have laid := flies.laid
  have extent := flies.extent
  rw [flying] at laid extent
  rw [System.close, reading]
  by_cases last : state.reading.length + 1 = frame.segCount
  · have finished : ((Handoff.window history begun (state.reading.length + 1)).length ==
        frame.segCount) = true := by
      rw [Handoff.length_window]
      exact beq_iff_eq.mpr last
    refine ⟨returned + 1, ?_⟩
    simp only [finished, if_true]
    have after : begun + frame.segCount = returned + 1 := by
      rw [← last, ← Nat.add_assoc, flies.begun_add]
    refine ⟨rfl, rfl, after ▸ laid.2, ?_, ?_, ?_⟩
    · rw [← after, Nat.add_assoc]
      exact extent
    · rintro next others rfl
      exact laid.2.1.positive
    · rw [flies.accepted, flying, List.map_cons, laid.1.bytes, ← last, List.append_assoc]
      rfl
  · have unfinished : ((Handoff.window history begun (state.reading.length + 1)).length ==
        frame.segCount) = false := by
      rw [Handoff.length_window]
      exact beq_eq_false_iff_ne.mpr last
    refine ⟨begun, ?_⟩
    simp only [unfinished, Bool.false_eq_true, if_false]
    refine ⟨?_, ?_, flies.laid, flies.extent, ?_, flies.accepted⟩
    · rw [Handoff.length_window, ← Nat.add_assoc, flies.begun_add]
    · rw [Handoff.length_window]
    · intro head others same
      rw [Handoff.length_window]
      have short := flies.unfinished head others same
      have same : frame = head := (List.cons.inj (flying.symm.trans same)).1
      rw [← same] at short ⊢
      exact lt_of_le_of_ne short last

/-! ### The frame handed over -/

/-- A call that is through has found a descriptor for each part of the chain, and the chain lies in
their buffers. -/
theorem Phase.Sound.through {eth : EthDma Desc Buffer} {vars : OutputState Desc Buffer}
    {p : List Pbuf} (sound : (Phase.nextPbuf []).Sound constants eth count vars p)
    (positive : 1 ≤ Pbuf.totalLength p) :
    vars.framelength = Pbuf.totalLength p ∧
      (∀ index < Blocks.needed constants.ethTxBufSize (Pbuf.totalLength p),
        ¬ eth.txBusy constants index) ∧
      eth.txBytes constants (Blocks.needed constants.ethTxBufSize (Pbuf.totalLength p))
        (Pbuf.totalLength p) = Pbuf.allBytes p := by
  obtain ⟨block, sent, underway, entered, -⟩ := sound
  have length : vars.framelength = Pbuf.totalLength p := underway.reach
  have free : ¬ eth.txBusy constants block := entered.resolve_left (by omega)
  have whole : sent = Pbuf.allBytes p := (List.append_nil sent).symm.trans underway.whole
  refine ⟨length, fun index needed => ?_, ?_⟩
  · rw [Blocks.lt_needed_iff constants.txBufSize_pos, ← length] at needed
    exact underway.cursor.not_busy_of_le free (underway.cursor.le_of_mul_lt needed)
  · have copied : vars.Copied constants eth count (Pbuf.totalLength p) (Pbuf.allBytes p) :=
      ⟨⟨block, underway.cursor, free⟩, length, whole ▸ length ▸ underway.stored⟩
    have bytes := @OutputState.Copied.txBytes _ _ _ _ _ _ _ _ eth.writes copied
    rwa [underway.memory] at bytes

/-- The history with what the buffers of the CPU hold now. -/
def System.latest (table : Desc → DmaDesc Desc Buffer) (first : Desc)
    (state : System Desc Buffer) (history : Nat → Nat → UInt8) (filled place : Nat) :
    Nat → UInt8 :=
  if place < filled then history place
  else state.eth.memory (table (DmaDesc.node table first place)).buffer1Addr

theorem Flight.At.mono {longer : Nat → Nat → UInt8} {place : Nat} {frame : Flight}
    (lies : frame.At constants history place)
    (earlier : ∀ here < filled, longer here = history here)
    (below : place + frame.segCount ≤ filled) : frame.At constants longer place where
  positive := lies.positive
  bytes := by rw [Handoff.window_congr earlier below, lies.bytes]

/-- What the descriptors from the one of the call on hold is what the new places hold. -/
theorem Placed.gathered_latest
    (placed : Placed constants table first count history returned filled state)
    (turns length : Nat) :
    Blocks.gathered constants.ethTxBufSize
        (Handoff.window (state.latest table first history filled) filled turns) length =
      state.eth.txBytes constants turns length := by
  rw [EthDma.txBytes, Blocks.gathered, Handoff.window, List.flatMap_map]
  refine congrArg (List.take length) (List.flatMap_congr fun index _ => ?_)
  rw [System.latest, if_neg (Nat.not_lt_of_le (Nat.le_add_right _ _)), placed.txBuffer_eq]

section Marked

variable [DecidableEq Desc] {descs : Desc → DmaDesc Desc Buffer} {desc head : Desc} {turns : Nat}

/-- A mark that is set is there. -/
theorem or_own_and_own (status own : UInt32) : (status ||| own) &&& own = own := by
  refine UInt32.toBitVec_inj.mp ?_
  ext index bound
  simp only [UInt32.toBitVec_and, UInt32.toBitVec_or, BitVec.getElem_and, BitVec.getElem_or]
  exact Bool.and_eq_right_iff_imp.mpr fun set => by rw [set, Bool.or_true]

theorem marked_links : (marked constants descs head turns desc).buffer2NextDescAddr =
    (descs desc).buffer2NextDescAddr := by
  rw [marked]
  split <;> rfl

theorem marked_addrs : (marked constants descs head turns desc).buffer1Addr =
    (descs desc).buffer1Addr := by
  rw [marked]
  split <;> rfl

theorem txOwned_marked (own_ne : constants.ethDmaTxDescOwn ≠ 0)
    (member : ∃ turn < turns, DmaDesc.node descs head turn = desc) :
    txOwned constants (marked constants descs head turns) desc = true := by
  obtain ⟨turn, inside, here⟩ := member
  have listed : desc ∈ (List.range turns).map (DmaDesc.node descs head) :=
    List.mem_map.mpr ⟨turn, List.mem_range.mpr inside, here⟩
  rw [txOwned, marked, if_pos listed, or_own_and_own]
  exact bne_iff_ne.mpr own_ne

theorem txOwned_marked_of_not (other : ∀ turn < turns, DmaDesc.node descs head turn ≠ desc) :
    txOwned constants (marked constants descs head turns) desc =
      txOwned constants descs desc := by
  have unlisted : desc ∉ (List.range turns).map (DmaDesc.node descs head) := by
    intro member
    obtain ⟨turn, inside, here⟩ := List.mem_map.mp member
    exact other turn (List.mem_range.mp inside) here
  rw [txOwned, marked, if_neg unlisted, txOwned]

end Marked

/-- The descriptors of the frame are marked, and the call goes on behind them. -/
theorem Placed.handOver [DecidableEq Desc]
    (placed : Placed constants table first count history returned filled state)
    (ring : DmaDesc.Ring table first count) (positive : 0 < count)
    (own_ne : constants.ethDmaTxDescOwn ≠ 0) {turns : Nat} (turns_le : turns ≤ count)
    (free : ∀ index < turns, ¬ state.eth.txBusy constants index)
    (needed : Blocks.needed constants.ethTxBufSize state.vars.framelength = turns) :
    Placed constants table first count (state.latest table first history filled) returned
      (filled + turns)
      (state.transmit (handedOver constants state.eth state.vars.framelength)) := by
  have descs : (state.transmit
      (handedOver constants state.eth state.vars.framelength)).eth.descs =
        marked constants state.eth.descs state.eth.txDesc turns := by
    rw [← needed]
    rfl
  have node := placed.txNode_eq
  refine ⟨?_, ?_, ?_, ?_, placed.dmaDesc⟩
  · intro desc
    rw [descs, marked_links, placed.links]
  · intro desc
    rw [descs, marked_addrs, placed.addrs]
  · refine placed.split.fills (ring.cyclic positive) turns_le ?_ ?_ ?_ (fun _ _ => rfl) ?_ ?_
    · intro turn inside
      rw [← node]
      exact free turn inside
    · intro turn inside
      rw [descs]
      exact not_not_intro (txOwned_marked own_ne ⟨turn, inside, node turn⟩)
    · intro place apart
      rw [descs, txOwned_marked_of_not fun turn inside same =>
        apart turn inside (same.symm.trans (node turn))]
    · exact fun place before => if_pos before
    · exact fun turn _ => if_neg (Nat.not_lt_of_le (Nat.le_add_right _ _))
  · rw [← node, ← needed]
    rfl

/-- The frame handed over is the last one that the DMA has. -/
theorem Flying.handOver [DecidableEq Desc]
    (flies : Flying constants history returned filled begun state)
    (placed : Placed constants table first count history returned filled state)
    (positive : 1 ≤ Pbuf.totalLength state.p)
    (sound : (Phase.nextPbuf []).Sound constants state.eth count state.vars state.p) :
    Flying constants (state.latest table first history filled) returned
      (filled + Blocks.needed constants.ethTxBufSize (Pbuf.totalLength state.p)) begun
      (state.transmit (handedOver constants state.eth state.vars.framelength)) := by
  obtain ⟨length, -, bytes⟩ := sound.through positive
  have some : 0 < Blocks.needed constants.ethTxBufSize (Pbuf.totalLength state.p) := by
    rw [Blocks.lt_needed_iff constants.txBufSize_pos, Nat.zero_mul]
    exact positive
  have earlier : ∀ here < filled, state.latest table first history filled here = history here :=
    fun here before => if_pos before
  have read_le : begun + state.reading.length ≤ filled := flies.begun_add ▸ placed.split.ordered
  have lies : Flight.At constants (state.latest table first history filled) filled
      ⟨Blocks.needed constants.ethTxBufSize (Pbuf.totalLength state.p),
        Pbuf.totalLength state.p, Pbuf.allBytes state.p⟩ :=
    ⟨some, by rw [placed.gathered_latest, bytes]⟩
  have flying : (state.transmit
      (handedOver constants state.eth state.vars.framelength)).flying = state.flying ++
        [⟨Blocks.needed constants.ethTxBufSize (Pbuf.totalLength state.p),
          Pbuf.totalLength state.p, Pbuf.allBytes state.p⟩] := by
    rw [← length]
    rfl
  refine ⟨flies.begun_add, ?_, ?_, ?_, ?_, ?_⟩
  · exact flies.reading.trans (Handoff.window_congr earlier read_le).symm
  · rw [flying, Handoff.laid_concat, flies.extent]
    refine ⟨flies.laid.mono fun here frame _ inside lies => ?_, lies⟩
    exact lies.mono earlier (inside.trans flies.extent.le)
  · rw [flying, Handoff.extent_concat, ← Nat.add_assoc, flies.extent]
  · intro frame rest same
    rw [flying] at same
    cases none : state.flying with
    | nil =>
      rw [none] at same
      have extent := flies.extent
      rw [none] at extent
      obtain rfl := (List.cons.inj same).1
      have begun_eq : begun = filled := extent
      refine lt_of_le_of_lt ?_ some
      show state.reading.length ≤ 0
      omega
    | cons head others =>
      rw [none] at same
      obtain rfl := (List.cons.inj same).1
      exact flies.unfinished head others none
  · rw [flying, List.map_append, ← List.append_assoc]
    show state.accepted ++ [_] = state.wire ++ _ ++ [_]
    rw [flies.accepted]

/-- A step that moves no frame. -/
theorem Flying.turn (flies : Flying constants history returned filled begun state)
    (reading : next.reading = state.reading) (flying : next.flying = state.flying)
    (wire : next.wire = state.wire) (accepted : next.accepted = state.accepted) :
    Flying constants history returned filled begun next := by
  refine ⟨?_, ?_, ?_, ?_, ?_, ?_⟩
  · rw [reading]
    exact flies.begun_add
  · rw [reading]
    exact flies.reading
  · rw [flying]
    exact flies.laid
  · rw [flying]
    exact flies.extent
  · rw [reading, flying]
    exact flies.unfinished
  · rw [accepted, wire, flying]
    exact flies.accepted

/-! ### What leaves -/

/-- The bytes of the oldest frame: in the buffers that the DMA has read, and in those that it has
still to read, as they are. -/
def System.oldest (constants : DmaConstants) (state : System Desc Buffer) (frame : Flight) :
    List UInt8 :=
  Blocks.gathered constants.ethTxBufSize
    (state.reading ++ (List.range (frame.segCount - state.reading.length)).map fun index =>
      state.eth.memory (DmaDesc.buffer state.eth.descs state.dmaDesc index)) frame.length

/-- The frames on the wire and those that the DMA has are the chains that the HAL took, in their
order, and the buffers of the one that is leaving are as they were handed over. -/
structure System.Transmits (constants : DmaConstants) (state : System Desc Buffer) : Prop where
  accepted : state.accepted = state.wire ++ state.flying.map Flight.bytes
  intact : ∀ frame rest, state.flying = frame :: rest → state.oldest constants frame = frame.bytes

theorem Placed.oldest_eq
    (placed : Placed constants table first count history returned filled state)
    (flies : Flying constants history returned filled begun state)
    {frame : Flight} {rest : List Flight} (flying : state.flying = frame :: rest) :
    state.oldest constants frame = frame.bytes := by
  have laid := flies.laid
  have extent := flies.extent
  have begun_add := flies.begun_add
  have short := flies.unfinished frame rest flying
  rw [flying] at laid extent
  have within : begun + frame.segCount ≤ filled := by
    rw [← extent, Handoff.extent, ← Nat.add_assoc]
    exact Nat.le_add_right _ _
  have left : (List.range (frame.segCount - state.reading.length)).map (fun index =>
      state.eth.memory (DmaDesc.buffer state.eth.descs state.dmaDesc index)) =
        Handoff.window history returned (frame.segCount - state.reading.length) := by
    refine List.map_congr_left fun index member => ?_
    have inside := List.mem_range.mp member
    rw [DmaDesc.buffer, placed.addrs, DmaDesc.node_congr placed.links, placed.dmaDesc,
      DmaDesc.node_add]
    exact placed.split.held _ (Nat.le_add_right _ _) (by omega)
  have whole : state.reading ++
      Handoff.window history returned (frame.segCount - state.reading.length) =
        Handoff.window history begun frame.segCount := by
    have parts := @Handoff.window_add _ history begun state.reading.length
      (frame.segCount - state.reading.length)
    rw [← flies.reading, begun_add, Nat.add_sub_of_le short.le] at parts
    exact parts.symm
  rw [System.oldest, left, whole, laid.1.bytes]

theorem Invariant.transmits (invariant : Invariant constants table first count state) :
    state.Transmits constants := by
  obtain ⟨⟨history, returned, filled, begun, placed, flies⟩, -, -⟩ := invariant
  exact ⟨flies.accepted, fun frame rest flying => placed.oldest_eq flies flying⟩

/-! ### Every run -/

section Run

variable [DecidableEq Desc] [DecidableEq Buffer]

omit [DecidableEq Desc] [DecidableEq Buffer] in
/-- A step of the call that writes at most into a buffer of the CPU. -/
theorem Invariant.turn (invariant : Invariant constants table first count state)
    (placed : ∀ history returned filled,
      Placed constants table first count history returned filled state →
        Placed constants table first count history returned filled next)
    (reading : next.reading = state.reading) (flying : next.flying = state.flying)
    (wire : next.wire = state.wire) (accepted : next.accepted = state.accepted)
    (fits : next.phase ≠ .idle → Fits constants count next.p)
    (sound : next.phase.Sound constants next.eth count next.vars next.p) :
    Invariant constants table first count next := by
  obtain ⟨⟨history, returned, filled, begun, place, flies⟩, -, -⟩ := invariant
  exact ⟨⟨history, returned, filled, begun, placed _ _ _ place,
    flies.turn reading flying wire accepted⟩, fits, sound⟩

/-- Every documented step of the call and of the DMA keeps the invariant. -/
theorem Invariant.step {hal : HalTransmit}
    (invariant : Invariant constants table first count state)
    (ring : DmaDesc.Ring table first count) (positive : 0 < count)
    (own_ne : constants.ethDmaTxDescOwn ≠ 0) {event : Event Desc Buffer}
    (calls : ∀ p, event = .call p → Fits constants count p)
    (documented : Documented constants hal state event)
    (taken : EthTransmitter.step constants state event = some next) :
    Invariant constants table first count next := by
  have kept := invariant
  obtain ⟨⟨history, returned, filled, begun, placed, flies⟩, fits, sound⟩ := invariant
  have here := placed.ring_txDesc ring positive
  cases move_of_step documented taken with
  | call idle =>
    exact kept.turn (fun _ _ _ placed => placed.turn rfl rfl rfl rfl) rfl rfl rfl rfl
      (fun _ => calls _ rfl) (.call constants state.eth count _)
  | refuse asking busy =>
    exact kept.turn (fun _ _ _ placed => placed.turn rfl rfl rfl rfl) rfl rfl rfl rfl
      (fun _ => fits (by rw [asking]; exact Phase.noConfusion)) trivial
  | enter asking free =>
    have fits := fits (by rw [asking]; exact Phase.noConfusion)
    rw [asking] at sound
    exact kept.turn (fun _ _ _ placed => placed.turn rfl rfl rfl rfl) rfl rfl rfl rfl
      (fun _ => fits) (sound.enter free)
  | fillUp copying more =>
    have fits := fits (by rw [copying]; exact Phase.noConfusion)
    rw [copying] at sound
    have filled := sound.fillUp here fits.short fits.positive more
    obtain ⟨block, sent, underway, free, -⟩ := sound
    refine kept.turn (fun _ _ _ placed => placed.scribble ring positive free rfl rfl rfl ?_)
      rfl rfl rfl rfl (fun _ => fits) filled
    intro buffer apart
    rw [← underway.cursor.buffer] at apart
    exact (Function.update_of_ne apart _ _).trans (congrFun underway.memory buffer)
  | copyRest copying room =>
    have fits := fits (by rw [copying]; exact Phase.noConfusion)
    rw [copying] at sound
    have copied := sound.copyRest here fits.short fits.positive room
    obtain ⟨block, sent, underway, free, -⟩ := sound
    refine kept.turn (fun _ _ _ placed => placed.scribble ring positive free rfl rfl rfl ?_)
      rfl rfl rfl rfl (fun _ => fits) copied
    intro buffer apart
    rw [← underway.cursor.buffer] at apart
    exact (Function.update_of_ne apart _ _).trans (congrFun underway.memory buffer)
  | breakOff asking busy =>
    exact kept.turn (fun _ _ _ placed => placed.turn rfl rfl rfl rfl) rfl rfl rfl rfl
      (fun _ => fits (by rw [asking]; exact Phase.noConfusion)) trivial
  | goOn asking free =>
    have fits := fits (by rw [asking]; exact Phase.noConfusion)
    rw [asking] at sound
    exact kept.turn (fun _ _ _ placed => placed.turn rfl rfl rfl rfl) rfl rfl rfl rfl
      (fun _ => fits) (sound.goOn free)
  | handOver through accepts =>
    have fits := fits (by rw [through]; exact Phase.noConfusion)
    rw [through] at sound
    obtain ⟨length, free, -⟩ := sound.through fits.positive
    exact ⟨⟨_, returned, _, begun,
      placed.handOver ring positive own_ne (Blocks.needed_le constants.txBufSize_pos fits.short)
        free (by rw [length]),
      flies.handOver placed fits.positive sound⟩, fun _ => fits, trivial⟩
  | lose through refuses =>
    exact kept.turn (fun _ _ _ placed => placed.turn rfl rfl rfl rfl) rfl rfl rfl rfl
      (fun _ => fits (by rw [through]; exact Phase.noConfusion)) trivial
  | leave leaving =>
    exact kept.turn (fun _ _ _ placed => placed.turn rfl rfl rfl rfl) rfl rfl rfl rfl
      (fun impossible => absurd rfl impossible) trivial
  | close flying owned cleared =>
    obtain ⟨begun, flies⟩ := flies.close placed (placed.returned_lt ring positive owned) flying
    exact ⟨⟨history, returned + 1, filled, begun,
      placed.close ring positive owned cleared _ _, flies⟩, fits,
      sound.freed ⟨rfl, .update state.dmaDesc cleared⟩ rfl⟩

omit [DecidableEq Desc] [DecidableEq Buffer] in
theorem Invariant.start {eth : EthDma Desc Buffer}
    (free : ∀ index, ¬ eth.txBusy constants index) :
    Invariant constants eth.descs eth.txDesc count (.start eth) where
  placed := ⟨fun _ _ => 0, 0, 0, 0, ⟨fun _ => rfl, fun _ => rfl, .start free, rfl, rfl⟩,
    ⟨rfl, rfl, trivial, rfl, fun _ _ impossible => (List.cons_ne_nil _ _ impossible.symm).elim,
      rfl⟩⟩
  fits impossible := absurd rfl impossible
  sound := trivial

end Run

end Steps

end EthTransmitter

end RtpLib
