/-
This file models the frame path of `ethernetif.c`: `low_level_output`, which
scatters a chain of pbufs into the transmit buffers, `low_level_input`, which
gathers a received frame into a chain, and the thread `ethernetif_input` that calls
the latter until it returns a null pointer.

A descriptor and a buffer are named by their addresses, of which only the identity
is used; each buffer is a store of bytes. A chain of pbufs is a list, the null
pointer the empty one. Lengths of pbufs and status words have the widths of the
source; offsets and counts are natural numbers, since a buffer and a payload are
disjoint parts of one 32-bit address space. Every `memcpy` is recorded, and so are
the descriptors read while a frame is received and the writes to the registers.

The HAL is no part of the source: a call of `HAL_ETH_TransmitFrame` is a record of
the length it is given, `HAL_ETH_GetReceivedFrame_IT` a report or none, `pbuf_alloc`
a parameter, and a register reads as any word.
-/

import Mathlib.Logic.Function.Iterate
import RtpLib.Blocks

namespace RtpLib

/-- The constants of the vendor's headers. -/
structure DmaConstants where
  ethTxBufSize : Nat
  ethRxBufSize : Nat
  ethDmaTxDescOwn : UInt32
  ethDmaRxDescOwn : UInt32
  ethDmasrTus : UInt32
  ethDmasrRbus : UInt32
  txBufSize_pos : 0 < ethTxBufSize
  rxBufSize_pos : 0 < ethRxBufSize
  rxDescOwn_ne : ethDmaRxDescOwn ≠ 0

/-- `err_t` -/
inductive ErrT
  | errOk
  | errUse
  | errOther (code : Int)
  deriving DecidableEq

/-! ### Pbufs, descriptors and registers -/

/-- `struct pbuf`, without its link. -/
structure Pbuf where
  payload : Nat → UInt8
  len : UInt16

namespace Pbuf

/-- The payload, as a list of bytes. -/
def bytes (q : Pbuf) : List UInt8 := Blocks.slice q.payload 0 q.len.toNat

/-- The payloads of a chain, one after the other. -/
def allBytes (p : List Pbuf) : List UInt8 := p.flatMap bytes

/-- The lengths of a chain, added up. -/
def totalLength : List Pbuf → Nat
  | [] => 0
  | q :: rest => q.len.toNat + totalLength rest

theorem totalLength_cons (q : Pbuf) (rest : List Pbuf) :
    totalLength (q :: rest) = q.len.toNat + totalLength rest := rfl

end Pbuf

/-- `ETH_DMADescTypeDef` -/
structure DmaDesc (Desc Buffer : Type) where
  status : UInt32
  buffer1Addr : Buffer
  buffer2NextDescAddr : Desc

/-- `EthHandle.RxFrameInfos` -/
structure RxFrameInfos (Desc Buffer : Type) where
  fsRxDesc : Desc
  segCount : UInt32
  length : UInt32
  buffer : Buffer

/-- A write to a register of the DMA. -/
inductive RegisterWrite
  | dmasr (value : UInt32)
  | dmatpdr (value : UInt32)
  | dmarpdr (value : UInt32)

/-- The descriptors, the buffers, the fields of `EthHandle` that the frame path uses, and the
writes to the registers, oldest first. -/
structure EthDma (Desc Buffer : Type) where
  descs : Desc → DmaDesc Desc Buffer
  memory : Buffer → Nat → UInt8
  txDesc : Desc
  rxFrameInfos : RxFrameInfos Desc Buffer
  writes : List RegisterWrite

/-- A `memcpy` between a buffer and the payload of a pbuf of length `len`. -/
structure MemCopy (Buffer : Type) where
  buffer : Buffer
  bufferoffset : Nat
  len : UInt16
  payloadoffset : Nat
  count : Nat

/-- The copy stays inside a buffer of `size` bytes and inside the payload of the pbuf. -/
structure MemCopy.Inside {Buffer : Type} (copy : MemCopy Buffer) (size : Nat) : Prop where
  buffer_le : copy.bufferoffset + copy.count ≤ size
  payload_le : copy.payloadoffset + copy.count ≤ copy.len.toNat

namespace DmaDesc

variable {Desc Buffer : Type}

/-- The descriptors of a linked list, by their places. -/
def node (descs : Desc → DmaDesc Desc Buffer) (first : Desc) (index : Nat) : Desc :=
  (fun desc => (descs desc).buffer2NextDescAddr)^[index] first

/-- The buffers of a linked list, by their places. -/
def buffer (descs : Desc → DmaDesc Desc Buffer) (first : Desc) (index : Nat) : Buffer :=
  (descs (node descs first index)).buffer1Addr

/-- A descriptor after `Status |= ETH_DMARXDESC_OWN`. -/
def released (constants : DmaConstants) (desc : DmaDesc Desc Buffer) : DmaDesc Desc Buffer :=
  { desc with status := desc.status ||| constants.ethDmaRxDescOwn }

theorem node_succ (descs : Desc → DmaDesc Desc Buffer) (first : Desc) (index : Nat) :
    node descs first (index + 1) = (descs (node descs first index)).buffer2NextDescAddr :=
  Function.iterate_succ_apply' _ _ _

end DmaDesc

/-! ### Output -/

/-- The variables of `low_level_output` while it copies, with the buffers and the copies made,
oldest first. -/
structure OutputState (Desc Buffer : Type) where
  dmaTxDesc : Desc
  buffer : Buffer
  framelength : Nat
  bufferoffset : Nat
  memory : Buffer → Nat → UInt8
  copies : List (MemCopy Buffer)

/-- The variables at the start of the copies. -/
def OutputState.start {Desc Buffer : Type} (eth : EthDma Desc Buffer) :
    OutputState Desc Buffer where
  dmaTxDesc := eth.txDesc
  buffer := (eth.descs eth.txDesc).buffer1Addr
  framelength := 0
  bufferoffset := 0
  memory := eth.memory
  copies := []

/-- What `low_level_output` returns and leaves, with the lengths given to
`HAL_ETH_TransmitFrame`, oldest first. -/
structure OutputResult (Desc Buffer : Type) where
  errval : ErrT
  transmitFrame : List Nat
  eth : EthDma Desc Buffer
  copies : List (MemCopy Buffer)

section Output

variable {Desc Buffer : Type} [DecidableEq Buffer]

/-- `memcpy` of `count` bytes from `q->payload + payloadoffset` to `buffer + bufferoffset`. -/
def OutputState.memcpy (state : OutputState Desc Buffer) (q : Pbuf) (payloadoffset count : Nat) :
    OutputState Desc Buffer :=
  { state with
    memory := Function.update state.memory state.buffer
      (Blocks.copy (state.memory state.buffer) state.bufferoffset q.payload payloadoffset count)
    copies := state.copies ++ [{
      buffer := state.buffer
      bufferoffset := state.bufferoffset
      len := q.len
      payloadoffset := payloadoffset
      count := count }] }

/-- `(desc->Status & ETH_DMATXDESC_OWN) != RESET` -/
def txOwned (constants : DmaConstants) (descs : Desc → DmaDesc Desc Buffer) (desc : Desc) : Bool :=
  (descs desc).status &&& constants.ethDmaTxDescOwn != 0

/-- The inner loop of `low_level_output`, with `byteslefttocopy` and `payloadoffset`; an error is
the jump to `error`. -/
def fillBuffers (constants : DmaConstants) (descs : Desc → DmaDesc Desc Buffer) (q : Pbuf)
    (state : OutputState Desc Buffer) (byteslefttocopy payloadoffset : Nat) :
    Except (OutputState Desc Buffer) (OutputState Desc Buffer × Nat × Nat) :=
  if byteslefttocopy + state.bufferoffset > constants.ethTxBufSize then
    let space := constants.ethTxBufSize - state.bufferoffset
    let copied := state.memcpy q payloadoffset space
    let dmaTxDesc := (descs state.dmaTxDesc).buffer2NextDescAddr
    if txOwned constants descs dmaTxDesc then .error { copied with dmaTxDesc := dmaTxDesc }
    else
      let next : OutputState Desc Buffer := {
        dmaTxDesc := dmaTxDesc
        buffer := (descs dmaTxDesc).buffer1Addr
        framelength := state.framelength + space
        bufferoffset := 0
        memory := copied.memory
        copies := copied.copies }
      fillBuffers constants descs q next (byteslefttocopy - space) (payloadoffset + space)
  else .ok (state, byteslefttocopy, payloadoffset)
termination_by byteslefttocopy + state.bufferoffset
decreasing_by
  have positive := constants.txBufSize_pos
  omega

/-- The outer loop of `low_level_output`, over the chain. -/
def outputChain (constants : DmaConstants) (descs : Desc → DmaDesc Desc Buffer) :
    List Pbuf → OutputState Desc Buffer → Except (OutputState Desc Buffer) (OutputState Desc Buffer)
  | [], state => .ok state
  | q :: rest, state =>
    if txOwned constants descs state.dmaTxDesc then .error state
    else do
      let (state, byteslefttocopy, payloadoffset) ←
        fillBuffers constants descs q state q.len.toNat 0
      let state := state.memcpy q payloadoffset byteslefttocopy
      outputChain constants descs rest {
        state with
        bufferoffset := state.bufferoffset + byteslefttocopy
        framelength := state.framelength + byteslefttocopy }

/-- `low_level_output`; `dmasr` is what the status register reads at the end. -/
def lowLevelOutput (constants : DmaConstants) (eth : EthDma Desc Buffer) (dmasr : UInt32)
    (p : List Pbuf) : OutputResult Desc Buffer :=
  let resume := if dmasr &&& constants.ethDmasrTus != 0 then
    [.dmasr constants.ethDmasrTus, .dmatpdr 0] else []
  match outputChain constants eth.descs p (.start eth) with
  | .ok state => {
      errval := .errOk
      transmitFrame := [state.framelength]
      eth := { eth with memory := state.memory, writes := eth.writes ++ resume }
      copies := state.copies }
  | .error state => {
      errval := .errUse
      transmitFrame := []
      eth := { eth with memory := state.memory, writes := eth.writes ++ resume }
      copies := state.copies }

end Output

/-! ### Input -/

/-- `pbuf_alloc(PBUF_RAW, len, PBUF_POOL)`: a null pointer, or a chain of the length asked for. -/
structure PbufAlloc where
  alloc : UInt16 → List Pbuf
  total : ∀ len, alloc len = [] ∨ Pbuf.totalLength (alloc len) = len.toNat

/-- The variables of `low_level_input` while it copies, with the copies made and the descriptors
read, oldest first. -/
structure InputState (Desc Buffer : Type) where
  dmarxdesc : Desc
  buffer : Buffer
  bufferoffset : Nat
  copies : List (MemCopy Buffer)
  accessed : List Desc

/-- The variables at the start of the copies. -/
def InputState.start {Desc Buffer : Type} (infos : RxFrameInfos Desc Buffer) :
    InputState Desc Buffer where
  dmarxdesc := infos.fsRxDesc
  buffer := infos.buffer
  bufferoffset := 0
  copies := []
  accessed := []

/-- What `low_level_input` returns and leaves. -/
structure InputResult (Desc Buffer : Type) where
  p : List Pbuf
  eth : EthDma Desc Buffer
  copies : List (MemCopy Buffer)
  accessed : List Desc

section Input

variable {Desc Buffer : Type}

/-- `memcpy` of `count` bytes from `buffer + bufferoffset` to `q->payload + payloadoffset`: the
pbuf. -/
def InputState.received (state : InputState Desc Buffer) (memory : Buffer → Nat → UInt8)
    (q : Pbuf) (payloadoffset count : Nat) : Pbuf :=
  { q with
    payload := Blocks.copy q.payload payloadoffset (memory state.buffer) state.bufferoffset count }

/-- The same `memcpy`: its record. -/
def InputState.record (state : InputState Desc Buffer) (q : Pbuf) (payloadoffset count : Nat) :
    InputState Desc Buffer :=
  { state with
    copies := state.copies ++ [{
      buffer := state.buffer
      bufferoffset := state.bufferoffset
      len := q.len
      payloadoffset := payloadoffset
      count := count }] }

/-- The inner loop of `low_level_input`, with `byteslefttocopy` and `payloadoffset`. -/
def readBuffers (constants : DmaConstants) (eth : EthDma Desc Buffer) (q : Pbuf)
    (state : InputState Desc Buffer) (byteslefttocopy payloadoffset : Nat) :
    Pbuf × InputState Desc Buffer × Nat × Nat :=
  if byteslefttocopy + state.bufferoffset > constants.ethRxBufSize then
    let space := constants.ethRxBufSize - state.bufferoffset
    let copied := state.record q payloadoffset space
    let dmarxdesc := (eth.descs state.dmarxdesc).buffer2NextDescAddr
    let next : InputState Desc Buffer := {
      dmarxdesc := dmarxdesc
      buffer := (eth.descs dmarxdesc).buffer1Addr
      bufferoffset := 0
      copies := copied.copies
      accessed := copied.accessed ++ [state.dmarxdesc, dmarxdesc] }
    readBuffers constants eth (state.received eth.memory q payloadoffset space) next
      (byteslefttocopy - space) (payloadoffset + space)
  else (q, state, byteslefttocopy, payloadoffset)
termination_by byteslefttocopy + state.bufferoffset
decreasing_by
  have positive := constants.rxBufSize_pos
  omega

/-- The outer loop of `low_level_input`, over the chain. -/
def inputChain (constants : DmaConstants) (eth : EthDma Desc Buffer) :
    List Pbuf → InputState Desc Buffer → List Pbuf × InputState Desc Buffer
  | [], state => ([], state)
  | q :: rest, state =>
    let (q, state, byteslefttocopy, payloadoffset) :=
      readBuffers constants eth q state q.len.toNat 0
    let copied := state.record q payloadoffset byteslefttocopy
    let (filled, last) := inputChain constants eth rest {
      copied with bufferoffset := state.bufferoffset + byteslefttocopy }
    (state.received eth.memory q payloadoffset byteslefttocopy :: filled, last)

variable [DecidableEq Desc]

/-- The loop of `low_level_input` that gives `count` descriptors from `dmarxdesc` on back to the
DMA, and the descriptors it reads. -/
def releaseDescs (constants : DmaConstants) :
    Nat → Desc → (Desc → DmaDesc Desc Buffer) → (Desc → DmaDesc Desc Buffer) × List Desc
  | 0, _, descs => (descs, [])
  | count + 1, dmarxdesc, descs =>
    let descs := Function.update descs dmarxdesc ((descs dmarxdesc).released constants)
    let next := (descs dmarxdesc).buffer2NextDescAddr
    let (descs, accessed) := releaseDescs constants count next descs
    (descs, dmarxdesc :: accessed)

/-- The pbufs that `low_level_input` gets for a frame: it asks for none when the length is 0 in the
sixteen bits that lwIP has for it. -/
def allocateFrame (infos : RxFrameInfos Desc Buffer) (pbufAlloc : PbufAlloc) : List Pbuf :=
  let len := infos.length.toUInt16
  if len > 0 then pbufAlloc.alloc len else []

/-- `low_level_input`; `report` is what `HAL_ETH_GetReceivedFrame_IT` leaves in `RxFrameInfos`
when it answers `HAL_OK`, and `dmasr` what the status register reads at the end. -/
def lowLevelInput (constants : DmaConstants) (eth : EthDma Desc Buffer)
    (report : Option (RxFrameInfos Desc Buffer)) (pbufAlloc : PbufAlloc) (dmasr : UInt32) :
    InputResult Desc Buffer :=
  match report with
  | none => { p := [], eth := eth, copies := [], accessed := [] }
  | some infos =>
    let eth := { eth with rxFrameInfos := infos }
    let (p, state) := inputChain constants eth (allocateFrame eth.rxFrameInfos pbufAlloc)
      (.start eth.rxFrameInfos)
    let (descs, accessed) := releaseDescs constants eth.rxFrameInfos.segCount.toNat
      eth.rxFrameInfos.fsRxDesc eth.descs
    let resume := if dmasr &&& constants.ethDmasrRbus != 0 then
      [.dmasr constants.ethDmasrRbus, .dmarpdr 0] else []
    { p := p
      eth := { eth with
        descs := descs
        rxFrameInfos := { eth.rxFrameInfos with segCount := 0 }
        writes := eth.writes ++ resume }
      copies := state.copies
      accessed := state.accessed ++ accessed }

end Input

/-! ### The receive thread -/

/-- A completed frame that waits in the ring of receive descriptors, and what its turn meets:
the allocation, the status register and the result of `netif->input`. -/
structure Arrival (Desc Buffer : Type) where
  infos : RxFrameInfos Desc Buffer
  pbufAlloc : PbufAlloc
  dmasr : UInt32
  input : ErrT

/-- A call that the thread makes, with the bytes of the chain it passes. -/
inductive ThreadCall
  | input (bytes : List UInt8)
  | pbufFree (bytes : List UInt8)
  deriving DecidableEq

/-- The state in which the thread returns to `osSemaphoreWait`: the frames that still wait, and
the calls made, oldest first. -/
structure ThreadState (Desc Buffer : Type) where
  eth : EthDma Desc Buffer
  waiting : List (Arrival Desc Buffer)
  calls : List ThreadCall

/-- The loop of `ethernetif_input` after the semaphore, on the frames that wait. -/
def ethernetifInput {Desc Buffer : Type} [DecidableEq Desc] (constants : DmaConstants) :
    EthDma Desc Buffer → List (Arrival Desc Buffer) → List ThreadCall → ThreadState Desc Buffer
  | eth, [], calls =>
    -- `HAL_ETH_GetReceivedFrame_IT` has no frame to report, and `low_level_input` returns NULL.
    { eth := eth, waiting := [], calls := calls }
  | eth, frame :: rest, calls =>
    let result := lowLevelInput constants eth (some frame.infos) frame.pbufAlloc frame.dmasr
    if result.p ≠ [] then
      let calls := calls ++ [.input (Pbuf.allBytes result.p)]
      let calls := if frame.input ≠ .errOk then
        calls ++ [.pbufFree (Pbuf.allBytes result.p)] else calls
      ethernetifInput constants result.eth rest calls
    else { eth := result.eth, waiting := rest, calls := calls }

/-! ### A small interface, for runs on fixed inputs -/

/-- Buffers of four bytes. -/
def DmaConstants.small : DmaConstants where
  ethTxBufSize := 4
  ethRxBufSize := 4
  ethDmaTxDescOwn := 0x80000000
  ethDmaRxDescOwn := 0x80000000
  ethDmasrTus := 0x20
  ethDmasrRbus := 0x80
  txBufSize_pos := by decide
  rxBufSize_pos := by decide
  rxDescOwn_ne := by decide

/-- Two descriptors of the CPU that are linked to each other, each with its own buffer. -/
def EthDma.pair : EthDma Bool Bool where
  descs desc := { status := 0, buffer1Addr := desc, buffer2NextDescAddr := !desc }
  memory buffer _ := if buffer then 66 else 65
  txDesc := false
  rxFrameInfos := { fsRxDesc := false, segCount := 0, length := 0, buffer := false }
  writes := []

/-- A pool with a single pbuf for any length. -/
def PbufAlloc.single : PbufAlloc where
  alloc len := [{ payload := fun _ => 0, len := len }]
  total _ := .inr (Nat.add_zero _)

/-- A pool that has no pbuf left. -/
def PbufAlloc.exhausted : PbufAlloc where
  alloc _ := []
  total _ := .inl rfl

end RtpLib
