/-
This file settles what the result of `low_level_output` is worth. The function asks
for the descriptors that the chain needs and fails when one of them belongs to the
DMA; it then calls `HAL_ETH_TransmitFrame` and returns `ERR_OK` whatever the HAL
answers. The frames that the HAL refuses are lost with a report of success.

The copies play no part in whether a call succeeds. The loops are therefore followed
once more without them, over any list of descriptors, a ring or not, and for any
chain, an empty one included.
-/

import Mathlib.Order.MinMax
import RtpLib.EthOutput

namespace RtpLib

/-- `HAL_StatusTypeDef`, as the calls of the MAC driver return it. -/
inductive EthStatus
  | ok
  | error
  | busy
  | timeout
  deriving DecidableEq

/-- `HAL_ETH_TransmitFrame`: its answer, by whether the handle is locked and by the length it is
given. It refuses every frame while the handle is locked, and the empty frame always. -/
structure HalTransmit where
  answer : Bool → Nat → EthStatus
  refuses_locked : ∀ length, answer true length = .busy ∨ answer true length = .error
  refuses_empty : ∀ locked, answer locked 0 = .busy ∨ answer locked 0 = .error

namespace HalTransmit

theorem answer_empty_ne (hal : HalTransmit) (locked : Bool) : hal.answer locked 0 ≠ .ok := by
  intro accepted
  rcases hal.refuses_empty locked with busy | error
  · cases busy.symm.trans accepted
  · cases error.symm.trans accepted

/-- A MAC that takes every frame it may. -/
def ready : HalTransmit where
  answer locked length := if locked then .busy else if length = 0 then .error else .ok
  refuses_locked _ := .inl rfl
  refuses_empty
    | true => .inl rfl
    | false => .inr rfl

end HalTransmit

variable {Desc Buffer : Type} [DecidableEq Buffer]

/-! ### The descriptors that a call asks about -/

omit [DecidableEq Buffer] in
instance (constants : DmaConstants) (eth : EthDma Desc Buffer) (index : Nat) :
    Decidable (eth.txBusy constants index) :=
  inferInstanceAs (Decidable (_ = true))

/-- The number of descriptors that `low_level_output` asks about, as long as they belong to the
CPU: those that the length needs, at least the first one, and none for the empty chain. -/
def asked (constants : DmaConstants) (p : List Pbuf) : Nat :=
  if p = [] then 0 else max 1 (Blocks.needed constants.ethTxBufSize (Pbuf.totalLength p))

/-- A place is asked about for a byte that comes there, and the first one for any chain. -/
theorem lt_asked_iff (constants : DmaConstants) {p : List Pbuf} (nonempty : p ≠ []) (index : Nat) :
    index < asked constants p ↔
      index = 0 ∨ index * constants.ethTxBufSize < Pbuf.totalLength p := by
  rw [asked, if_neg nonempty, lt_max_iff, Nat.lt_one_iff,
    Blocks.lt_needed_iff constants.txBufSize_pos]

namespace OutputState

omit [DecidableEq Buffer] in
theorem start_framelength (eth : EthDma Desc Buffer) :
    (OutputState.start eth).framelength = 0 := rfl

/-- How a loop ends: with a result that is as it should be, or at a descriptor of the DMA that was
asked about on the way to the length `reached`. -/
def Walks {Result : Type} (constants : DmaConstants) (eth : EthDma Desc Buffer) (reached : Nat)
    (good : Result → Prop) : Except (OutputState Desc Buffer) Result → Prop
  | .ok result => good result
  | .error _ => ∃ index, eth.txBusy constants index ∧
      (index = 0 ∨ index * constants.ethTxBufSize < reached)

/-- The variables stand at a descriptor of the CPU, with the rest of a pbuf still to copy there,
and it is the first one or has a byte for this rest. -/
structure Stands (constants : DmaConstants) (eth : EthDma Desc Buffer) (reached : Nat)
    (state : OutputState Desc Buffer) (left block : Nat) : Prop where
  cursor : state.Cursor constants eth block
  free : ¬ eth.txBusy constants block
  started : block = 0 ∨ 0 < state.bufferoffset + left
  reach : state.framelength + left = reached

variable {constants : DmaConstants} {eth : EthDma Desc Buffer}

/-- The inner loop moves on only for a byte that comes to the next buffer. -/
theorem fillBuffers_walks (q : Pbuf) (reached : Nat) (state : OutputState Desc Buffer)
    (byteslefttocopy payloadoffset block : Nat)
    (stands : state.Stands constants eth reached byteslefttocopy block) :
    Walks constants eth reached
      (fun result => (∃ block, result.1.Stands constants eth reached result.2.1 block) ∧
        result.2.1 + result.1.bufferoffset ≤ constants.ethTxBufSize)
      (fillBuffers constants eth.descs q state byteslefttocopy payloadoffset) := by
  induction state, byteslefttocopy, payloadoffset using
    fillBuffers.induct constants eth.descs q generalizing block with
  | case1 state byteslefttocopy payloadoffset more dmaTxDesc busy =>
    have offset_le := stands.cursor.offset_le
    have reach := stands.reach
    rw [fillBuffers, if_pos more]
    simp only
    rw [if_pos busy]
    refine ⟨block + 1, stands.cursor.txBusy_succ_iff.mpr busy, .inr ?_⟩
    rw [stands.cursor.succ_mul]
    omega
  | case2 state byteslefttocopy payloadoffset more space copied dmaTxDesc notBusy next
      inductionHypothesis =>
    have offset_le := stands.cursor.offset_le
    have reach := stands.reach
    have freeNext : ¬ eth.txBusy constants (block + 1) :=
      fun busy => notBusy (stands.cursor.txBusy_succ_iff.mp busy)
    rw [fillBuffers, if_pos more]
    simp only
    rw [if_neg notBusy]
    refine inductionHypothesis (block + 1)
      ⟨stands.cursor.next stands.free rfl rfl rfl rfl, freeNext, .inr ?_, ?_⟩
    · show 0 < 0 + (byteslefttocopy - (constants.ethTxBufSize - state.bufferoffset))
      omega
    · show state.framelength + (constants.ethTxBufSize - state.bufferoffset) +
        (byteslefttocopy - (constants.ethTxBufSize - state.bufferoffset)) = reached
      omega
  | case3 state byteslefttocopy payloadoffset room =>
    rw [fillBuffers, if_neg room]
    exact ⟨⟨block, stands⟩, Nat.le_of_not_lt room⟩

/-- What the outer loop leaves when it is through: the length of the frame, at a descriptor that
belongs to the CPU like all before. -/
structure Through (constants : DmaConstants) (eth : EthDma Desc Buffer) (reached : Nat)
    (state : OutputState Desc Buffer) : Prop where
  reach : state.framelength = reached
  free : ∀ index, index = 0 ∨ index * constants.ethTxBufSize < reached →
    ¬ eth.txBusy constants index

omit [DecidableEq Buffer] in
/-- The place of the variables is the last one that the length so far comes to. -/
theorem Cursor.through {state : OutputState Desc Buffer} {block : Nat}
    (cursor : state.Cursor constants eth block) (free : ¬ eth.txBusy constants block) :
    Through constants eth state.framelength state := by
  refine ⟨rfl, fun index inside => cursor.not_busy_of_le free ?_⟩
  rcases inside with rfl | before
  · exact Nat.zero_le block
  · exact cursor.le_of_mul_lt before

/-- The outer loop asks again about the descriptor it is at before each pbuf, so that only the
empty chain leaves the first one unasked. -/
theorem outputChain_walks (p : List Pbuf) (state : OutputState Desc Buffer) (block : Nat)
    (cursor : state.Cursor constants eth block) (started : block = 0 ∨ 0 < state.bufferoffset)
    (entered : p = [] → ¬ eth.txBusy constants block) :
    Walks constants eth (state.framelength + Pbuf.totalLength p)
      (Through constants eth (state.framelength + Pbuf.totalLength p))
      (outputChain constants eth.descs p state) := by
  induction p generalizing state block with
  | nil => exact cursor.through (entered rfl)
  | cons q rest inductionHypothesis =>
    rw [Pbuf.totalLength_cons, outputChain]
    by_cases busy : eth.txBusy constants block
    · rw [if_pos (cursor.desc ▸ busy)]
      refine ⟨block, busy, started.imp_right fun offset => ?_⟩
      have position := cursor.position
      omega
    · rw [if_neg (cursor.desc ▸ busy)]
      have walked := fillBuffers_walks q (state.framelength + q.len.toNat) state q.len.toNat 0 block
        ⟨cursor, busy, started.imp_right fun offset => Nat.add_pos_left offset _, rfl⟩
      generalize fillBuffers constants eth.descs q state q.len.toNat 0 = result at walked ⊢
      cases result with
      | error last =>
        obtain ⟨index, indexBusy, asked⟩ := walked
        exact ⟨index, indexBusy, asked.imp_right fun before => by omega⟩
      | ok result =>
        obtain ⟨next, byteslefttocopy, payloadoffset⟩ := result
        obtain ⟨⟨block, stands⟩, room⟩ := walked
        have position : block * constants.ethTxBufSize + next.bufferoffset = next.framelength :=
          stands.cursor.position
        have reach : next.framelength + byteslefttocopy = state.framelength + q.len.toNat :=
          stands.reach
        rw [← Nat.add_assoc, ← reach]
        exact inductionHypothesis _ block
          ⟨stands.cursor.desc, stands.cursor.buffer, (Nat.add_comm _ _).trans_le room,
            (Nat.add_assoc _ _ _).symm.trans (congrArg (· + byteslefttocopy) position),
            stands.cursor.free⟩
          stands.started fun _ => stands.free

end OutputState

/-! ### What a call returns -/

variable (constants : DmaConstants) (eth : EthDma Desc Buffer) (dmasr : UInt32) (p : List Pbuf)

/-- When every descriptor asked about belongs to the CPU, the call passes the length on and
succeeds. -/
theorem lowLevelOutput_of_free (free : ∀ index < asked constants p, ¬ eth.txBusy constants index) :
    (lowLevelOutput constants eth dmasr p).errval = .errOk ∧
      (lowLevelOutput constants eth dmasr p).transmitFrame = [Pbuf.totalLength p] := by
  cases p with
  | nil => exact ⟨rfl, rfl⟩
  | cons q rest =>
    have walked := OutputState.outputChain_walks (q :: rest) (.start eth) 0
      (OutputState.Cursor.start constants eth) (.inl rfl)
      fun empty => absurd empty (List.cons_ne_nil _ _)
    rw [OutputState.start_framelength, Nat.zero_add] at walked
    rw [lowLevelOutput]
    generalize outputChain constants eth.descs (q :: rest) (.start eth) = ending at walked ⊢
    cases ending with
    | error last =>
      obtain ⟨index, busy, reached⟩ := walked
      have inside := (lt_asked_iff constants (List.cons_ne_nil q rest) index).mpr reached
      exact absurd busy (free index inside)
    | ok last => exact ⟨rfl, congrArg (fun length => [length]) walked.reach⟩

/-- When one of them belongs to the DMA, the call fails and passes nothing on. -/
theorem lowLevelOutput_of_busy (busy : ∃ index < asked constants p, eth.txBusy constants index) :
    (lowLevelOutput constants eth dmasr p).errval = .errUse ∧
      (lowLevelOutput constants eth dmasr p).transmitFrame = [] := by
  obtain ⟨index, inside, busy⟩ := busy
  have nonempty : p ≠ [] := by
    rintro rfl
    exact absurd inside (Nat.not_lt_zero index)
  have walked := OutputState.outputChain_walks p (.start eth) 0
    (OutputState.Cursor.start constants eth) (.inl rfl) fun empty => absurd empty nonempty
  rw [OutputState.start_framelength, Nat.zero_add] at walked
  rw [lowLevelOutput]
  generalize outputChain constants eth.descs p (.start eth) = ending at walked ⊢
  cases ending with
  | error last => exact ⟨rfl, rfl⟩
  | ok last =>
    exact absurd busy (walked.free index ((lt_asked_iff constants nonempty index).mp inside))

/-- What the HAL is given in a ring that has room for the frame. -/
theorem lowLevelOutput_txBytes (count : Nat) (ring : DmaDesc.Ring eth.descs eth.txDesc count)
    (fits : Pbuf.totalLength p ≤ count * constants.ethTxBufSize)
    (positive : 1 ≤ Pbuf.totalLength p)
    (sent : (lowLevelOutput constants eth dmasr p).errval = .errOk) :
    (lowLevelOutput constants eth dmasr p).eth.txBytes constants
      (Blocks.needed constants.ethTxBufSize (Pbuf.totalLength p)) (Pbuf.totalLength p) =
        Pbuf.allBytes p := by
  have ends := OutputState.outputChain_ends ring fits positive p [] (.start eth) 0
    (OutputState.Cursor.start constants eth) (.inl rfl) (.inl rfl)
    (OutputState.Stored.start constants eth count _) (Nat.zero_add _)
  rw [lowLevelOutput] at sent ⊢
  generalize outputChain constants eth.descs p (.start eth) = ending at ends sent ⊢
  cases ending with
  | error last => cases sent
  | ok last => exact ends.txBytes

/-! ### Whether the result tells the truth -/

/-- The DMA has the whole frame: the HAL was called once, with the length of the chain, and
accepted; and in a ring with room for it, the buffers hold the bytes of the chain. -/
structure HandedOver (hal : HalTransmit) (locked : Bool) (result : OutputResult Desc Buffer) :
    Prop where
  passed : result.transmitFrame = [Pbuf.totalLength p]
  accepted : ∀ length ∈ result.transmitFrame, hal.answer locked length = .ok
  bytes : ∀ count, DmaDesc.Ring eth.descs eth.txDesc count →
    Pbuf.totalLength p ≤ count * constants.ethTxBufSize →
      result.eth.txBytes constants (Blocks.needed constants.ethTxBufSize (Pbuf.totalLength p))
        (Pbuf.totalLength p) = Pbuf.allBytes p

/-- Success is reported only for a frame that the DMA has, and an error whenever it has it not. -/
structure Truthful (hal : HalTransmit) (locked : Bool) (result : OutputResult Desc Buffer) :
    Prop where
  success : result.errval = .errOk → HandedOver constants eth p hal locked result
  failure : ¬ HandedOver constants eth p hal locked result → result.errval ≠ .errOk

/-- Whatever the chain, the descriptors and the answers of the HAL, the result tells the truth
exactly when a descriptor asked about belongs to the DMA, so that the HAL is not called, or when
the HAL accepts the frame. -/
theorem lowLevelOutput_truthful_iff (hal : HalTransmit) (locked : Bool) :
    Truthful constants eth p hal locked (lowLevelOutput constants eth dmasr p) ↔
      (∃ index < asked constants p, eth.txBusy constants index) ∨
        hal.answer locked (Pbuf.totalLength p) = .ok := by
  by_cases busy : ∃ index < asked constants p, eth.txBusy constants index
  · obtain ⟨failed, _⟩ := lowLevelOutput_of_busy constants eth dmasr p busy
    have failure : (lowLevelOutput constants eth dmasr p).errval ≠ .errOk :=
      fun sent => ErrT.noConfusion (sent.symm.trans failed)
    exact iff_of_true ⟨fun sent => absurd sent failure, fun _ => failure⟩ (.inl busy)
  · have free : ∀ index < asked constants p, ¬ eth.txBusy constants index :=
      fun index inside owned => busy ⟨index, inside, owned⟩
    obtain ⟨sent, passed⟩ := lowLevelOutput_of_free constants eth dmasr p free
    rw [or_iff_right busy]
    refine ⟨fun truthful => ?_, fun accepts => ?_⟩
    · exact (truthful.success sent).accepted _ (passed ▸ List.mem_singleton_self _)
    · have positive : 1 ≤ Pbuf.totalLength p :=
        Nat.one_le_iff_ne_zero.mpr fun empty => hal.answer_empty_ne locked (empty ▸ accepts)
      have handed : HandedOver constants eth p hal locked
          (lowLevelOutput constants eth dmasr p) := by
        refine ⟨passed, fun length member => ?_, fun count ring fits => ?_⟩
        · rw [passed] at member
          rw [List.mem_singleton.mp member, accepts]
        · exact lowLevelOutput_txBytes constants eth dmasr p count ring fits positive sent
      exact ⟨fun _ => handed, fun lost => absurd handed lost⟩

/-- While the receive thread holds the handle, every frame that is passed on is lost. -/
theorem not_truthful_of_locked (hal : HalTransmit)
    (free : ∀ index < asked constants p, ¬ eth.txBusy constants index) :
    ¬ Truthful constants eth p hal true (lowLevelOutput constants eth dmasr p) := by
  intro truthful
  obtain ⟨sent, passed⟩ := lowLevelOutput_of_free constants eth dmasr p free
  have accepted := (truthful.success sent).accepted _ (passed ▸ List.mem_singleton_self _)
  rcases hal.refuses_locked (Pbuf.totalLength p) with busy | error
  · cases busy.symm.trans accepted
  · cases error.symm.trans accepted

/-- The frame of one byte, passed on while the receive thread holds the handle. -/
theorem lowLevelOutput_not_truthful :
    ¬ ∀ (constants : DmaConstants) (eth : EthDma Bool Bool) (dmasr : UInt32) (p : List Pbuf)
      (hal : HalTransmit) (locked : Bool),
        Truthful constants eth p hal locked (lowLevelOutput constants eth dmasr p) := by
  intro claimed
  exact not_truthful_of_locked .small .pair 0 [⟨fun _ => 65, 1⟩] .ready (by decide)
    (claimed .small .pair 0 [⟨fun _ => 65, 1⟩] .ready true)

end RtpLib
