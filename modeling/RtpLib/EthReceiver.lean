/-
This file models the reception of frames with all its parties: the DMA that fills
the receive descriptors, the interrupt of the MAC, and the thread `ethernetif_input`.
They share the OWN bits of the descriptors, the buffers and the semaphore, and their
steps come in any order. The results about a single call of `low_level_input` take a
frame as given; here the frames come from the wire.

The thread moves by the turns of its own code: it waits for the semaphore, asks the
HAL for a frame, copies the frame into a chain, gives the descriptors back one by
one, resumes the DMA when it was out of buffers, and passes the chain up.

The MAC and the HAL are no part of the source. A step takes whatever they do, and what
their documents say of it is an assumption of its own, `Documented`. The DMA fills
only a descriptor that is marked as its own and clears the mark; it stops at one that
is not, and raises RBUS. The HAL reports completed frames in the order in which they
were completed. It counts the segments of a frame on from `SegCount`, so that it
reports them right only where the code has set this field back to 0. It may refuse a
call, as it does while another one holds its lock. Three fields are records only: the
bytes that came with a frame, the frames that arrived, and for which of them there was
memory.
-/

import RtpLib.EthRing
import RtpLib.Runs

namespace RtpLib

/-- The bytes that a call passes to `netif->input`, if it is one. -/
def ThreadCall.inputBytes : ThreadCall → Option (List UInt8)
  | .input bytes => some bytes
  | .pbufFree _ => none

namespace EthReceiver

variable {Desc Buffer : Type}

/-! ### The state -/

/-- A completed frame: what the HAL is to report of it, and the bytes that came from the wire. -/
structure Frame (Desc Buffer : Type) where
  infos : RxFrameInfos Desc Buffer
  bytes : List UInt8

/-- Where the thread stands. -/
inductive Phase (Desc : Type)
  /-- In `osSemaphoreWait`. -/
  | waiting
  /-- Before `HAL_ETH_GetReceivedFrame_IT`. -/
  | polling
  /-- A frame is reported, its bytes are not copied yet. -/
  | reported (bytes : List UInt8)
  /-- In the loop that gives the descriptors back. -/
  | releasing (p : List Pbuf) (dmarxdesc : Desc) (i : Nat)
  /-- Back from `low_level_input`. -/
  | passing (p : List Pbuf)

/-- The interface, the DMA, the semaphore and the thread. -/
structure System (Desc Buffer : Type) where
  eth : EthDma Desc Buffer
  /-- The descriptor that the DMA stands at. -/
  dmaDesc : Desc
  /-- The first descriptor of the frame that is coming in. -/
  frameDesc : Desc
  /-- The buffers of that frame, as filled so far. -/
  filling : List (Nat → UInt8)
  completed : List (Frame Desc Buffer)
  suspended : Bool
  /-- RBUS in `DMASR`. -/
  rbus : Bool
  interrupt : Bool
  semaphore : Bool
  phase : Phase Desc
  calls : List ThreadCall
  arrived : List (List UInt8)
  granted : List Bool

/-- The start: the semaphore is created with one token, and the thread waits for it. The handle is
a static variable, so that its `SegCount` is 0. -/
def System.start (eth : EthDma Desc Buffer) (first : Desc) : System Desc Buffer where
  eth := { eth with rxFrameInfos := { eth.rxFrameInfos with segCount := 0 } }
  dmaDesc := first
  frameDesc := first
  filling := []
  completed := []
  suspended := false
  rbus := false
  interrupt := false
  semaphore := true
  phase := .waiting
  calls := []
  arrived := []
  granted := []

/-! ### The steps -/

/-- What can happen next. -/
inductive Event (Desc Buffer : Type)
  /-- The DMA fills a buffer and writes the status word of its descriptor. -/
  | fill (status : UInt32) (content : Nat → UInt8)
  /-- The DMA ends a frame and raises the interrupt. -/
  | complete (length : UInt32)
  /-- The DMA finds no descriptor of its own. -/
  | starve
  /-- The DMA tries again, without having been asked to. -/
  | retry
  /-- `ETHERNET_IRQHandler`, and from it `HAL_ETH_RxCpltCallback`. -/
  | interrupt
  | osSemaphoreWait
  /-- `HAL_ETH_GetReceivedFrame_IT`, with what it leaves in `RxFrameInfos` when it answers
  `HAL_OK`. -/
  | getReceivedFrame (report : Option (RxFrameInfos Desc Buffer))
  | copyFrame (pbufAlloc : PbufAlloc)
  | releaseDesc
  | resume (dmasr : UInt32)
  /-- The rest of a turn of `ethernetif_input`, with the answer of `netif->input`. -/
  | input (answer : ErrT)

/-- `(desc->Status & ETH_DMARXDESC_OWN) != RESET` -/
def rxOwned (constants : DmaConstants) (descs : Desc → DmaDesc Desc Buffer) (desc : Desc) : Bool :=
  (descs desc).status &&& constants.ethDmaRxDescOwn != 0

namespace System

variable [DecidableEq Desc]

/-- The DMA fills the buffer of its descriptor and goes to the next one. -/
def fill [DecidableEq Buffer] (state : System Desc Buffer) (status : UInt32)
    (content : Nat → UInt8) : System Desc Buffer :=
  let desc := state.eth.descs state.dmaDesc
  { state with
    eth := { state.eth with
      descs := Function.update state.eth.descs state.dmaDesc { desc with status := status }
      memory := Function.update state.eth.memory desc.buffer1Addr content }
    dmaDesc := desc.buffer2NextDescAddr
    frameDesc := if state.filling.isEmpty then state.dmaDesc else state.frameDesc
    filling := state.filling ++ [content] }

omit [DecidableEq Desc] in
/-- What the HAL is to report of the frame that is coming in: its first descriptor, the number of
its descriptors, its length and its first buffer. -/
def incomingInfos (state : System Desc Buffer) (length : UInt32) : RxFrameInfos Desc Buffer where
  fsRxDesc := state.frameDesc
  segCount := UInt32.ofNat state.filling.length
  length := length
  buffer := (state.eth.descs state.frameDesc).buffer1Addr

omit [DecidableEq Desc] in
/-- The DMA ends the frame that is coming in. -/
def complete (constants : DmaConstants) (state : System Desc Buffer) (length : UInt32) :
    System Desc Buffer :=
  let bytes := Blocks.gathered constants.ethRxBufSize state.filling length.toNat
  { state with
    filling := []
    completed := state.completed ++ [⟨state.incomingInfos length, bytes⟩]
    interrupt := true
    arrived := state.arrived ++ [bytes] }

omit [DecidableEq Desc] in
/-- `HAL_ETH_GetReceivedFrame_IT` reports a frame, and the oldest one counts as reported. -/
def report (state : System Desc Buffer) (infos : RxFrameInfos Desc Buffer) :
    System Desc Buffer :=
  { state with
    eth := { state.eth with rxFrameInfos := infos }
    completed := state.completed.tail
    phase := .reported ((state.completed.map Frame.bytes).headD []) }

omit [DecidableEq Desc] in
/-- The part of `low_level_input` that copies the frame. -/
def copyFrame (constants : DmaConstants) (state : System Desc Buffer) (pbufAlloc : PbufAlloc) :
    System Desc Buffer :=
  let infos := state.eth.rxFrameInfos
  let allocated := allocateFrame infos pbufAlloc
  { state with
    phase := .releasing (inputChain constants state.eth allocated (.start infos)).1
      infos.fsRxDesc 0
    granted := state.granted ++ [!allocated.isEmpty] }

/-- A turn of the loop of `low_level_input` that gives the descriptors back. -/
def releaseDesc (constants : DmaConstants) (state : System Desc Buffer) (p : List Pbuf)
    (dmarxdesc : Desc) (i : Nat) : System Desc Buffer :=
  { state with
    eth := { state.eth with
      descs := Function.update state.eth.descs dmarxdesc
        ((state.eth.descs dmarxdesc).released constants) }
    phase := .releasing p (state.eth.descs dmarxdesc).buffer2NextDescAddr (i + 1) }

omit [DecidableEq Desc] in
/-- The end of `low_level_input`: a write to `DMARPDR` makes the DMA look at its descriptor. -/
def resume (constants : DmaConstants) (state : System Desc Buffer) (p : List Pbuf)
    (dmasr : UInt32) : System Desc Buffer :=
  let eth := { state.eth with
    rxFrameInfos := { state.eth.rxFrameInfos with segCount := 0 } }
  if dmasr &&& constants.ethDmasrRbus != 0 then
    { state with
      eth := { eth with writes := eth.writes ++ [.dmasr constants.ethDmasrRbus, .dmarpdr 0] }
      rbus := false
      suspended := false
      phase := .passing p }
  else { state with eth := eth, phase := .passing p }

omit [DecidableEq Desc] in
/-- The rest of a turn of `ethernetif_input`. -/
def input (state : System Desc Buffer) (p : List Pbuf) (answer : ErrT) : System Desc Buffer :=
  if p ≠ [] then
    let calls := state.calls ++ [.input (Pbuf.allBytes p)]
    { state with
      calls := if answer ≠ .errOk then calls ++ [.pbufFree (Pbuf.allBytes p)] else calls
      phase := .polling }
  else { state with phase := .waiting }

end System

variable [DecidableEq Desc] [DecidableEq Buffer]

/-- One step of one of the parties, whatever the DMA and the HAL do. -/
def step (constants : DmaConstants) (state : System Desc Buffer) :
    Event Desc Buffer → Option (System Desc Buffer)
  | .fill status content => some (state.fill status content)
  | .complete length => some (state.complete constants length)
  | .starve => some { state with suspended := true, rbus := true }
  | .retry => some { state with suspended := false }
  | .interrupt =>
    if state.interrupt = true then some { state with interrupt := false, semaphore := true }
    else none
  | .osSemaphoreWait =>
    match state.phase with
    | .waiting =>
      if state.semaphore = true then some { state with semaphore := false, phase := .polling }
      else none
    | _ => none
  | .getReceivedFrame none =>
    match state.phase with
    | .polling => some { state with phase := .waiting }
    | _ => none
  | .getReceivedFrame (some infos) =>
    match state.phase with
    | .polling => some (state.report infos)
    | _ => none
  | .copyFrame pbufAlloc =>
    match state.phase with
    | .reported _ => some (state.copyFrame constants pbufAlloc)
    | _ => none
  | .releaseDesc =>
    match state.phase with
    | .releasing p dmarxdesc i =>
      if i < state.eth.rxFrameInfos.segCount.toNat then
        some (state.releaseDesc constants p dmarxdesc i)
      else none
    | _ => none
  | .resume dmasr =>
    match state.phase with
    | .releasing p _ i =>
      if i < state.eth.rxFrameInfos.segCount.toNat then none
      else some (state.resume constants p dmasr)
    | _ => none
  | .input answer =>
    match state.phase with
    | .passing p => some (state.input p answer)
    | _ => none

/-! ### What the documents say -/

omit [DecidableEq Desc] [DecidableEq Buffer] in
/-- What the documents of the MAC and of the HAL say of a step, in the state before it. -/
def Documented (constants : DmaConstants) (state : System Desc Buffer) :
    Event Desc Buffer → Prop
  | .fill status _ =>
    state.suspended = false ∧ rxOwned constants state.eth.descs state.dmaDesc = true ∧
      status &&& constants.ethDmaRxDescOwn = 0
  | .complete length =>
    -- A frame without its checksum: it has its bytes in the buffers filled, and fewer than 2^16.
    state.filling.isEmpty = false ∧ length.toNat < 65536 ∧
      length.toNat ≤ state.filling.length * constants.ethRxBufSize
  | .starve => ¬ rxOwned constants state.eth.descs state.dmaDesc = true
  | .retry => rxOwned constants state.eth.descs state.dmaDesc = true
  | .getReceivedFrame (some infos) =>
    -- The HAL counts on from what the code has left in `SegCount`.
    ∃ frame rest, state.completed = frame :: rest ∧
      (state.eth.rxFrameInfos.segCount = 0 → infos = frame.infos)
  | .resume dmasr => (dmasr &&& constants.ethDmasrRbus != 0) = state.rbus
  | _ => True

/-! ### What a step can do -/

/-- The steps there are, with what is known before each. -/
inductive Move (constants : DmaConstants) (state : System Desc Buffer) :
    Event Desc Buffer → System Desc Buffer → Prop
  | fill {status : UInt32} {content : Nat → UInt8}
      (running : state.suspended = false)
      (owned : rxOwned constants state.eth.descs state.dmaDesc = true)
      (cleared : status &&& constants.ethDmaRxDescOwn = 0) :
      Move constants state (.fill status content) (state.fill status content)
  | complete {length : UInt32} (started : state.filling.isEmpty = false)
      (length_lt : length.toNat < 65536)
      (length_le : length.toNat ≤ state.filling.length * constants.ethRxBufSize) :
      Move constants state (.complete length) (state.complete constants length)
  | starve (taken : ¬ rxOwned constants state.eth.descs state.dmaDesc = true) :
      Move constants state .starve { state with suspended := true, rbus := true }
  | retry (owned : rxOwned constants state.eth.descs state.dmaDesc = true) :
      Move constants state .retry { state with suspended := false }
  | interrupt (pending : state.interrupt = true) :
      Move constants state .interrupt { state with interrupt := false, semaphore := true }
  | osSemaphoreWait (waiting : state.phase = .waiting) (token : state.semaphore = true) :
      Move constants state .osSemaphoreWait { state with semaphore := false, phase := .polling }
  | noFrame (polling : state.phase = .polling) :
      Move constants state (.getReceivedFrame none) { state with phase := .waiting }
  | report {infos : RxFrameInfos Desc Buffer} {frame : Frame Desc Buffer}
      {rest : List (Frame Desc Buffer)} (polling : state.phase = .polling)
      (waits : state.completed = frame :: rest)
      (reports : state.eth.rxFrameInfos.segCount = 0 → infos = frame.infos) :
      Move constants state (.getReceivedFrame (some infos)) (state.report infos)
  | copyFrame {pbufAlloc : PbufAlloc} {bytes : List UInt8}
      (reported : state.phase = .reported bytes) :
      Move constants state (.copyFrame pbufAlloc) (state.copyFrame constants pbufAlloc)
  | releaseDesc {p : List Pbuf} {dmarxdesc : Desc} {i : Nat}
      (releasing : state.phase = .releasing p dmarxdesc i)
      (more : i < state.eth.rxFrameInfos.segCount.toNat) :
      Move constants state .releaseDesc (state.releaseDesc constants p dmarxdesc i)
  | resume {dmasr : UInt32} {p : List Pbuf} {dmarxdesc : Desc} {i : Nat}
      (releasing : state.phase = .releasing p dmarxdesc i)
      (done : ¬ i < state.eth.rxFrameInfos.segCount.toNat)
      (flag : (dmasr &&& constants.ethDmasrRbus != 0) = state.rbus) :
      Move constants state (.resume dmasr) (state.resume constants p dmasr)
  | input {answer : ErrT} {p : List Pbuf} (passing : state.phase = .passing p) :
      Move constants state (.input answer) (state.input p answer)

/-- A step that is taken, and of which the documents hold, is one of them. -/
theorem move_of_step {constants : DmaConstants} {state next : System Desc Buffer}
    {event : Event Desc Buffer} (documented : Documented constants state event)
    (taken : step constants state event = some next) : Move constants state event next := by
  cases event with
  | fill status content =>
    obtain ⟨running, owned, cleared⟩ := documented
    cases taken
    exact .fill running owned cleared
  | complete length =>
    obtain ⟨started, length_lt, length_le⟩ := documented
    cases taken
    exact .complete started length_lt length_le
  | starve =>
    cases taken
    exact .starve documented
  | retry =>
    cases taken
    exact .retry documented
  | interrupt =>
    obtain ⟨pending, ⟨⟩⟩ := Option.ite_none_right_eq_some.mp taken
    exact .interrupt pending
  | osSemaphoreWait =>
    simp only [step] at taken
    split at taken
    · obtain ⟨token, ⟨⟩⟩ := Option.ite_none_right_eq_some.mp taken
      exact .osSemaphoreWait ‹_› token
    · cases taken
  | getReceivedFrame report =>
    cases report with
    | none =>
      simp only [step] at taken
      split at taken
      · cases taken
        exact .noFrame ‹_›
      · cases taken
    | some infos =>
      obtain ⟨frame, rest, waits, reports⟩ := documented
      simp only [step] at taken
      split at taken
      · cases taken
        exact .report ‹_› waits reports
      · cases taken
  | copyFrame pbufAlloc =>
    simp only [step] at taken
    split at taken
    · cases taken
      exact .copyFrame ‹_›
    · cases taken
  | releaseDesc =>
    simp only [step] at taken
    split at taken
    · obtain ⟨more, ⟨⟩⟩ := Option.ite_none_right_eq_some.mp taken
      exact .releaseDesc ‹_› more
    · cases taken
  | resume dmasr =>
    simp only [step] at taken
    split at taken
    · obtain ⟨done, ⟨⟩⟩ := Option.ite_none_left_eq_some.mp taken
      exact .resume ‹_› done documented
    · cases taken
  | input answer =>
    simp only [step] at taken
    split at taken
    · cases taken
      exact .input ‹_›
    · cases taken

/-! ### A small interface, for runs on fixed inputs -/

/-- The two descriptors of `EthDma.pair`, given to the DMA. -/
def pairOwned : EthDma Bool Bool :=
  { EthDma.pair with
    descs := fun desc =>
      { status := 0x80000000, buffer1Addr := desc, buffer2NextDescAddr := !desc } }

theorem pairOwned_ring : DmaDesc.Ring pairOwned.descs false 2 where
  closes := rfl
  apart := by decide

theorem rxOwned_pairOwned (desc : Bool) : rxOwned .small pairOwned.descs desc = true := by
  show ((0x80000000 : UInt32) &&& 0x80000000 != 0) = true
  decide

/-- What the HAL is to report of a frame of three bytes in the first buffer. -/
def threeBytes : RxFrameInfos Bool Bool where
  fsRxDesc := false
  segCount := 1
  length := 3
  buffer := false

/-- A frame of three bytes comes in. -/
def frameComes : List (Event Bool Bool) := [.fill 0 fun _ => 7, .complete 3, .interrupt]

/-- The thread takes it out. -/
def frameTaken : List (Event Bool Bool) :=
  [.osSemaphoreWait, .getReceivedFrame (some threeBytes), .copyFrame .single, .releaseDesc,
    .resume 0, .input .errOk]

/-- The frame has come in. -/
def frameCame : System Bool Bool :=
  { ((System.start pairOwned false).fill 0 fun _ => 7).complete .small 3 with
    interrupt := false
    semaphore := true }

theorem leads_frameComes :
    Runs.Leads (step .small) (Documented .small) (.start pairOwned false) frameComes frameCame :=
  .cons ⟨rfl, by decide, by decide⟩ rfl <| .cons ⟨rfl, by decide, by decide⟩ rfl <|
    .cons trivial rfl <| .nil _

theorem documented_oneFrame : Runs.EveryStep (step .small) (Documented .small)
    (.start pairOwned false) (frameComes ++ frameTaken) := by
  have taken : Runs.Leads (step .small) (Documented .small) frameCame frameTaken _ :=
    .cons trivial rfl <| .cons ⟨_, _, rfl, fun _ => rfl⟩ rfl <| .cons trivial rfl <|
      .cons trivial rfl <| .cons rfl rfl <| .cons trivial rfl <| .nil _
  exact (leads_frameComes.append taken).guarded

end EthReceiver

end RtpLib
