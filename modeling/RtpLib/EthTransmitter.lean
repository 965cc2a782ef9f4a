/-
This file models the transmission of frames with both its parties: the calls of
`low_level_output`, cut into the steps between two looks at a descriptor, and the
DMA, which may be done with a descriptor at any of these points. The results about
a single call of `low_level_output` take the descriptors as they are for its length;
here they change under it.

The HAL and the MAC are no part of the source. A step takes whatever they do, and what
their documents say of it is an assumption of its own, `Documented`:
`HAL_ETH_TransmitFrame`, when it takes a frame, marks as many descriptors as its
length needs and goes on behind them; the DMA reads the buffer of the descriptor it
stands at, when it is marked, clears the mark and goes on. The frame is on the wire
when its last buffer has been read. The bytes of a frame handed over, the frames
accepted, the lengths given to the HAL, and how a call has found the interface and the
descriptors are records only.
-/

import RtpLib.EthRing
import RtpLib.EthSent
import RtpLib.Runs

namespace RtpLib

namespace EthTransmitter

variable {Desc Buffer : Type}

/-! ### The state -/

/-- Where the call of `low_level_output` stands. -/
inductive Phase
  /-- No call is under way. -/
  | idle
  /-- At the head of the loop over the chain, with the pbufs that are left. -/
  | nextPbuf (rest : List Pbuf)
  /-- At the head of the inner loop. -/
  | copying (q : Pbuf) (rest : List Pbuf) (byteslefttocopy payloadoffset : Nat)
  /-- In the inner loop, before the look at the next descriptor. -/
  | asking (q : Pbuf) (rest : List Pbuf) (byteslefttocopy payloadoffset : Nat)
  /-- At the label `error`. -/
  | leaving (errval : ErrT)

/-- A frame that the DMA has: its descriptors, its length and the bytes of its chain. -/
structure Flight where
  segCount : Nat
  length : Nat
  bytes : List UInt8

/-- What `HAL_ETH_TransmitFrame` answers and leaves: the descriptors, and the one for the next
frame; `segCount` of them belong to the frame. -/
structure Transmission (Desc Buffer : Type) where
  status : EthStatus
  segCount : Nat
  descs : Desc → DmaDesc Desc Buffer
  txDesc : Desc

/-- The interface, the call under way and the DMA. -/
structure System (Desc Buffer : Type) where
  eth : EthDma Desc Buffer
  vars : OutputState Desc Buffer
  phase : Phase
  p : List Pbuf
  /-- The descriptor that the DMA stands at. -/
  dmaDesc : Desc
  /-- The buffers that it has read of the oldest frame. -/
  reading : List (Nat → UInt8)
  flying : List Flight
  wire : List (List UInt8)
  results : List ErrT
  accepted : List (List UInt8)
  /-- The interface at the start of the call. -/
  begun : EthDma Desc Buffer
  /-- The descriptors when the call last looked at one. -/
  asked : Desc → DmaDesc Desc Buffer
  /-- The lengths that the call has given to `HAL_ETH_TransmitFrame`. -/
  transmitFrame : List Nat

/-- The start: the DMA has no frame. -/
def System.start (eth : EthDma Desc Buffer) : System Desc Buffer where
  eth := eth
  vars := .start eth
  phase := .idle
  p := []
  dmaDesc := eth.txDesc
  reading := []
  flying := []
  wire := []
  results := []
  accepted := []
  begun := eth
  asked := eth.descs
  transmitFrame := []

/-! ### The steps -/

/-- What can happen next. -/
inductive Event (Desc Buffer : Type)
  /-- `netif->linkoutput` is called with a chain. -/
  | call (p : List Pbuf)
  /-- The look at the descriptor before a pbuf. -/
  | ask
  /-- A `memcpy`. -/
  | copy
  /-- The look at the next descriptor. -/
  | askNext
  /-- `HAL_ETH_TransmitFrame`, with the handle locked or not, and what comes of it. -/
  | transmitFrame (locked : Bool) (result : Transmission Desc Buffer)
  | leave (dmasr : UInt32)
  /-- The DMA is done with a descriptor. -/
  | close (status : UInt32)

namespace System

/-- A call begins. -/
def call (state : System Desc Buffer) (p : List Pbuf) : System Desc Buffer :=
  { state with
    vars := .start state.eth
    phase := .nextPbuf p
    p := p
    begun := state.eth
    asked := state.eth.descs
    transmitFrame := [] }

/-- The jump to `error`. -/
def fail (state : System Desc Buffer) : System Desc Buffer :=
  { state with phase := .leaving .errUse, asked := state.eth.descs }

/-- The descriptor before a pbuf is the CPU's. -/
def enter (state : System Desc Buffer) (q : Pbuf) (rest : List Pbuf) : System Desc Buffer :=
  { state with phase := .copying q rest q.len.toNat 0, asked := state.eth.descs }

section Copy

variable [DecidableEq Buffer]

/-- The copy that fills a buffer up, and the step to the next descriptor. -/
def fillUp (constants : DmaConstants) (state : System Desc Buffer) (q : Pbuf) (rest : List Pbuf)
    (byteslefttocopy payloadoffset : Nat) : System Desc Buffer :=
  let copied := state.vars.memcpy q payloadoffset
    (constants.ethTxBufSize - state.vars.bufferoffset)
  { state with
    eth := { state.eth with memory := copied.memory }
    vars := { copied with
      dmaTxDesc := (state.eth.descs state.vars.dmaTxDesc).buffer2NextDescAddr }
    phase := .asking q rest byteslefttocopy payloadoffset }

/-- The copy of the rest of a pbuf. -/
def copyRest (state : System Desc Buffer) (q : Pbuf) (rest : List Pbuf)
    (byteslefttocopy payloadoffset : Nat) : System Desc Buffer :=
  let copied := state.vars.memcpy q payloadoffset byteslefttocopy
  { state with
    eth := { state.eth with memory := copied.memory }
    vars := { copied with
      bufferoffset := state.vars.bufferoffset + byteslefttocopy
      framelength := state.vars.framelength + byteslefttocopy }
    phase := .nextPbuf rest }

end Copy

/-- The next descriptor is the CPU's as well. -/
def goOn (constants : DmaConstants) (state : System Desc Buffer) (q : Pbuf) (rest : List Pbuf)
    (byteslefttocopy payloadoffset : Nat) : System Desc Buffer :=
  let space := constants.ethTxBufSize - state.vars.bufferoffset
  { state with
    vars := { state.vars with
      buffer := (state.eth.descs state.vars.dmaTxDesc).buffer1Addr
      framelength := state.vars.framelength + space
      bufferoffset := 0 }
    phase := .copying q rest (byteslefttocopy - space) (payloadoffset + space)
    asked := state.eth.descs }

/-- `HAL_ETH_TransmitFrame` has been called; whatever it answers, `errval` is `ERR_OK`. The DMA
has the frame when it answers `HAL_OK`. -/
def transmit (state : System Desc Buffer) (result : Transmission Desc Buffer) :
    System Desc Buffer :=
  let taken : List Flight := if result.status = .ok then
    [⟨result.segCount, state.vars.framelength, Pbuf.allBytes state.p⟩] else []
  { state with
    eth := { state.eth with descs := result.descs, txDesc := result.txDesc }
    phase := .leaving .errOk
    flying := state.flying ++ taken
    accepted := state.accepted ++ taken.map Flight.bytes
    transmitFrame := state.transmitFrame ++ [state.vars.framelength] }

variable [DecidableEq Desc]

omit [DecidableEq Desc] in
/-- The end of a call. -/
def leave (constants : DmaConstants) (state : System Desc Buffer) (errval : ErrT)
    (dmasr : UInt32) : System Desc Buffer :=
  let resume := if dmasr &&& constants.ethDmasrTus != 0 then
    [.dmasr constants.ethDmasrTus, .dmatpdr 0] else []
  { state with
    eth := { state.eth with writes := state.eth.writes ++ resume }
    phase := .idle
    results := state.results ++ [errval] }

/-- The DMA has read a buffer of the oldest frame. -/
def close (constants : DmaConstants) (state : System Desc Buffer) (frame : Flight)
    (rest : List Flight) (status : UInt32) : System Desc Buffer :=
  let desc := state.eth.descs state.dmaDesc
  let reading := state.reading ++ [state.eth.memory desc.buffer1Addr]
  let last := reading.length == frame.segCount
  { state with
    eth := { state.eth with
      descs := Function.update state.eth.descs state.dmaDesc { desc with status := status } }
    dmaDesc := desc.buffer2NextDescAddr
    reading := if last then [] else reading
    flying := if last then rest else state.flying
    wire := if last then
      state.wire ++ [Blocks.gathered constants.ethTxBufSize reading frame.length]
      else state.wire }

end System

variable [DecidableEq Desc] [DecidableEq Buffer]

/-- One step of the call or of the DMA, whatever the HAL and the DMA do; the stack passes frames on
one at a time. -/
def step (constants : DmaConstants) (state : System Desc Buffer) :
    Event Desc Buffer → Option (System Desc Buffer)
  | .call p =>
    match state.phase with
    | .idle => some (state.call p)
    | _ => none
  | .ask =>
    match state.phase with
    | .nextPbuf (q :: rest) =>
      if txOwned constants state.eth.descs state.vars.dmaTxDesc then some state.fail
      else some (state.enter q rest)
    | _ => none
  | .copy =>
    match state.phase with
    | .copying q rest byteslefttocopy payloadoffset =>
      if byteslefttocopy + state.vars.bufferoffset > constants.ethTxBufSize then
        some (state.fillUp constants q rest byteslefttocopy payloadoffset)
      else some (state.copyRest q rest byteslefttocopy payloadoffset)
    | _ => none
  | .askNext =>
    match state.phase with
    | .asking q rest byteslefttocopy payloadoffset =>
      if txOwned constants state.eth.descs state.vars.dmaTxDesc then some state.fail
      else some (state.goOn constants q rest byteslefttocopy payloadoffset)
    | _ => none
  | .transmitFrame _ result =>
    match state.phase with
    | .nextPbuf [] => some (state.transmit result)
    | _ => none
  | .leave dmasr =>
    match state.phase with
    | .leaving errval => some (state.leave constants errval dmasr)
    | _ => none
  | .close status =>
    match state.flying with
    | frame :: rest => some (state.close constants frame rest status)
    | [] => none

/-! ### What the documents say -/

/-- `count` descriptors from the first one on, marked for the DMA. -/
def marked (constants : DmaConstants) (descs : Desc → DmaDesc Desc Buffer) (first : Desc)
    (count : Nat) (desc : Desc) : DmaDesc Desc Buffer :=
  if desc ∈ (List.range count).map (DmaDesc.node descs first) then
    { descs desc with status := (descs desc).status ||| constants.ethDmaTxDescOwn }
  else descs desc

/-- `HAL_ETH_TransmitFrame` has taken a frame of the length given. -/
def handedOver (constants : DmaConstants) (eth : EthDma Desc Buffer) (length : Nat) :
    Transmission Desc Buffer :=
  let segCount := Blocks.needed constants.ethTxBufSize length
  { status := .ok
    segCount := segCount
    descs := marked constants eth.descs eth.txDesc segCount
    txDesc := DmaDesc.node eth.descs eth.txDesc segCount }

/-- What the documents of the MAC and of the HAL say of a step, in the state before it: the HAL
answers as `hal` does, and marks the descriptors of a frame that it takes and of no other; the DMA
is done with a descriptor that is marked, and clears the mark. -/
def Documented (constants : DmaConstants) (hal : HalTransmit) (state : System Desc Buffer) :
    Event Desc Buffer → Prop
  | .transmitFrame locked result =>
    result.status = hal.answer locked state.vars.framelength ∧
      (result.status = .ok → result = handedOver constants state.eth state.vars.framelength) ∧
      (result.status ≠ .ok →
        result.descs = state.eth.descs ∧ result.txDesc = state.eth.txDesc)
  | .close status =>
    txOwned constants state.eth.descs state.dmaDesc = true ∧
      status &&& constants.ethDmaTxDescOwn = 0
  | _ => True

/-! ### What a step can do -/

/-- The steps there are, with what is known before each. -/
inductive Move (constants : DmaConstants) (hal : HalTransmit) (state : System Desc Buffer) :
    Event Desc Buffer → System Desc Buffer → Prop
  | call {p : List Pbuf} (idle : state.phase = .idle) :
      Move constants hal state (.call p) (state.call p)
  | refuse {q : Pbuf} {rest : List Pbuf} (next : state.phase = .nextPbuf (q :: rest))
      (busy : txOwned constants state.eth.descs state.vars.dmaTxDesc = true) :
      Move constants hal state .ask state.fail
  | enter {q : Pbuf} {rest : List Pbuf} (next : state.phase = .nextPbuf (q :: rest))
      (free : ¬ txOwned constants state.eth.descs state.vars.dmaTxDesc = true) :
      Move constants hal state .ask (state.enter q rest)
  | fillUp {q : Pbuf} {rest : List Pbuf} {byteslefttocopy payloadoffset : Nat}
      (copying : state.phase = .copying q rest byteslefttocopy payloadoffset)
      (more : byteslefttocopy + state.vars.bufferoffset > constants.ethTxBufSize) :
      Move constants hal state .copy
        (state.fillUp constants q rest byteslefttocopy payloadoffset)
  | copyRest {q : Pbuf} {rest : List Pbuf} {byteslefttocopy payloadoffset : Nat}
      (copying : state.phase = .copying q rest byteslefttocopy payloadoffset)
      (room : ¬ byteslefttocopy + state.vars.bufferoffset > constants.ethTxBufSize) :
      Move constants hal state .copy (state.copyRest q rest byteslefttocopy payloadoffset)
  | breakOff {q : Pbuf} {rest : List Pbuf} {byteslefttocopy payloadoffset : Nat}
      (asking : state.phase = .asking q rest byteslefttocopy payloadoffset)
      (busy : txOwned constants state.eth.descs state.vars.dmaTxDesc = true) :
      Move constants hal state .askNext state.fail
  | goOn {q : Pbuf} {rest : List Pbuf} {byteslefttocopy payloadoffset : Nat}
      (asking : state.phase = .asking q rest byteslefttocopy payloadoffset)
      (free : ¬ txOwned constants state.eth.descs state.vars.dmaTxDesc = true) :
      Move constants hal state .askNext
        (state.goOn constants q rest byteslefttocopy payloadoffset)
  | handOver {locked : Bool} (through : state.phase = .nextPbuf [])
      (accepts : hal.answer locked state.vars.framelength = .ok) :
      Move constants hal state
        (.transmitFrame locked (handedOver constants state.eth state.vars.framelength))
        (state.transmit (handedOver constants state.eth state.vars.framelength))
  | lose {locked : Bool} {result : Transmission Desc Buffer}
      (through : state.phase = .nextPbuf [])
      (refuses : ¬ hal.answer locked state.vars.framelength = .ok) :
      Move constants hal state (.transmitFrame locked result)
        { state with
          phase := .leaving .errOk
          transmitFrame := state.transmitFrame ++ [state.vars.framelength] }
  | leave {dmasr : UInt32} {errval : ErrT} (leaving : state.phase = .leaving errval) :
      Move constants hal state (.leave dmasr) (state.leave constants errval dmasr)
  | close {status : UInt32} {frame : Flight} {rest : List Flight}
      (flying : state.flying = frame :: rest)
      (owned : txOwned constants state.eth.descs state.dmaDesc = true)
      (cleared : status &&& constants.ethDmaTxDescOwn = 0) :
      Move constants hal state (.close status) (state.close constants frame rest status)

omit [DecidableEq Desc] [DecidableEq Buffer] in
/-- A frame that the HAL refuses leaves the descriptors as they were. -/
theorem System.transmit_of_refused {state : System Desc Buffer}
    {result : Transmission Desc Buffer} (refused : result.status ≠ .ok)
    (descs : result.descs = state.eth.descs) (txDesc : result.txDesc = state.eth.txDesc) :
    state.transmit result = { state with
      phase := .leaving .errOk
      transmitFrame := state.transmitFrame ++ [state.vars.framelength] } := by
  rw [System.transmit, if_neg refused, descs, txDesc, List.append_nil, List.map_nil,
    List.append_nil]

/-- A step that is taken, and of which the documents hold, is one of them. -/
theorem move_of_step {constants : DmaConstants} {hal : HalTransmit}
    {state next : System Desc Buffer} {event : Event Desc Buffer}
    (documented : Documented constants hal state event)
    (taken : step constants state event = some next) : Move constants hal state event next := by
  cases event with
  | call p =>
    simp only [step] at taken
    split at taken
    · cases taken
      exact .call ‹_›
    · cases taken
  | ask =>
    simp only [step] at taken
    split at taken
    · split at taken
      · cases taken
        exact .refuse ‹_› ‹_›
      · cases taken
        exact .enter ‹_› ‹_›
    · cases taken
  | copy =>
    simp only [step] at taken
    split at taken
    · split at taken
      · cases taken
        exact .fillUp ‹_› ‹_›
      · cases taken
        exact .copyRest ‹_› ‹_›
    · cases taken
  | askNext =>
    simp only [step] at taken
    split at taken
    · split at taken
      · cases taken
        exact .breakOff ‹_› ‹_›
      · cases taken
        exact .goOn ‹_› ‹_›
    · cases taken
  | transmitFrame locked result =>
    obtain ⟨status, accepted, refused⟩ := documented
    simp only [step] at taken
    split at taken
    · cases taken
      by_cases accepts : result.status = .ok
      · obtain rfl := accepted accepts
        exact .handOver ‹_› (status.symm.trans accepts)
      · obtain ⟨descs, txDesc⟩ := refused accepts
        rw [System.transmit_of_refused accepts descs txDesc]
        exact .lose ‹_› (status ▸ accepts)
    · cases taken
  | leave dmasr =>
    simp only [step] at taken
    split at taken
    · cases taken
      exact .leave ‹_›
    · cases taken
  | close status =>
    obtain ⟨owned, cleared⟩ := documented
    simp only [step] at taken
    split at taken
    · cases taken
      exact .close ‹_› owned cleared
    · cases taken

end EthTransmitter

end RtpLib
