/-
This file connects the two models of the receive thread. The function
`ethernetifInput` takes a list of frames and works through them at once; the system
takes them out step by step, with the DMA in between. Left alone by the DMA, the
system does what the function says: a turn of the loop is a report, a copy, one
release for each descriptor, the resumption and the input, and together they are a
call of `lowLevelInput`. The steps of the loop are the turns of the frames that it
takes out, and a last call of the HAL when none of them ended it.
-/

import RtpLib.EthReceiver
import RtpLib.EthThread

namespace RtpLib

namespace EthReceiver

variable {Desc Buffer : Type} [DecidableEq Desc] [DecidableEq Buffer] {constants : DmaConstants}

/-! ### A turn of the loop -/

/-- The steps of one turn. -/
def turn (frame : Arrival Desc Buffer) : List (Event Desc Buffer) :=
  [.getReceivedFrame (some frame.infos), .copyFrame frame.pbufAlloc] ++
    (List.replicate frame.infos.segCount.toNat .releaseDesc ++
      [.resume frame.dmasr, .input frame.input])

/-- Whether `low_level_input` resumes the DMA. -/
def resumes (constants : DmaConstants) (dmasr : UInt32) : Bool :=
  dmasr &&& constants.ethDmasrRbus != 0

/-- The system after one turn, by the call of `lowLevelInput` that it makes. -/
def System.afterTurn (constants : DmaConstants) (state : System Desc Buffer)
    (frame : Arrival Desc Buffer) (rest : List (Frame Desc Buffer)) : System Desc Buffer :=
  let result := lowLevelInput constants state.eth (some frame.infos) frame.pbufAlloc frame.dmasr
  System.input { state with
    eth := result.eth
    completed := rest
    suspended := if resumes constants frame.dmasr then false else state.suspended
    rbus := if resumes constants frame.dmasr then false else state.rbus
    granted := state.granted ++ [!(allocateFrame frame.infos frame.pbufAlloc).isEmpty] }
    result.p frame.input

/-- The system after the loop that gives the descriptors back. -/
def System.givenBack (constants : DmaConstants) (state : System Desc Buffer) (p : List Pbuf)
    (dmarxdesc last : Desc) (turns : Nat) : System Desc Buffer :=
  { state with
    eth := { state.eth with
      descs := (releaseDescs constants turns dmarxdesc state.eth.descs).1 }
    phase := .releasing p last state.eth.rxFrameInfos.segCount.toNat }

/-- The loop that gives the descriptors back is as many steps as it has turns. -/
theorem leads_releaseDesc (p : List Pbuf) (turns : Nat) (state : System Desc Buffer)
    (dmarxdesc : Desc) (i : Nat) (releasing : state.phase = .releasing p dmarxdesc i)
    (left : i + turns = state.eth.rxFrameInfos.segCount.toNat) :
    ∃ last, Runs.Leads (step constants) (Documented constants) state
      (List.replicate turns .releaseDesc) (state.givenBack constants p dmarxdesc last turns) := by
  induction turns generalizing state dmarxdesc i with
  | zero =>
    have done : i = state.eth.rxFrameInfos.segCount.toNat := left
    refine ⟨dmarxdesc, ?_⟩
    rw [System.givenBack, ← done, ← releasing]
    exact .nil state
  | succ turns inductionHypothesis =>
    have inside : i < state.eth.rxFrameInfos.segCount.toNat :=
      left ▸ Nat.lt_add_of_pos_right (Nat.succ_pos turns)
    have taken : step constants state .releaseDesc =
        some (state.releaseDesc constants p dmarxdesc i) := by
      simp only [step, releasing]
      exact if_pos inside
    have descs : Function.update state.eth.descs dmarxdesc
        ((state.eth.descs dmarxdesc).released constants) dmarxdesc =
          (state.eth.descs dmarxdesc).released constants := Function.update_self _ _ _
    obtain ⟨last, goesOn⟩ := inductionHypothesis (state.releaseDesc constants p dmarxdesc i)
      (state.eth.descs dmarxdesc).buffer2NextDescAddr (i + 1) rfl
      ((Nat.succ_add_eq_add_succ i turns).trans left)
    have givenBack : (state.releaseDesc constants p dmarxdesc i).givenBack constants p
        (state.eth.descs dmarxdesc).buffer2NextDescAddr last turns =
          state.givenBack constants p dmarxdesc last (turns + 1) := by
      rw [System.givenBack, System.givenBack, releaseDescs, descs]
      rfl
    rw [givenBack] at goesOn
    exact ⟨last, .cons trivial taken goesOn⟩

/-- The end of a turn. -/
theorem leads_resume_input (state : System Desc Buffer) (p : List Pbuf) (dmarxdesc : Desc)
    (dmasr : UInt32) (answer : ErrT)
    (releasing : state.phase =
      .releasing p dmarxdesc state.eth.rxFrameInfos.segCount.toNat)
    (flag : resumes constants dmasr = state.rbus) :
    Runs.Leads (step constants) (Documented constants) state [.resume dmasr, .input answer]
      ((state.resume constants p dmasr).input p answer) := by
  have resume : step constants state (.resume dmasr) = some (state.resume constants p dmasr) := by
    simp only [step, releasing]
    exact if_neg (lt_irrefl _)
  have passing : (state.resume constants p dmasr).phase = .passing p := by
    rw [System.resume]
    split <;> rfl
  have input : step constants (state.resume constants p dmasr) (.input answer) =
      some ((state.resume constants p dmasr).input p answer) := by
    simp only [step, passing]
  exact .cons flag resume (.cons trivial input (.nil _))

/-- The steps of a turn do what a call of `lowLevelInput` and the calls after it do. -/
theorem leads_turn (state : System Desc Buffer) (frame : Arrival Desc Buffer)
    (bytes : List UInt8) (rest : List (Frame Desc Buffer)) (polling : state.phase = .polling)
    (completed : state.completed = ⟨frame.infos, bytes⟩ :: rest)
    (flag : resumes constants frame.dmasr = state.rbus) :
    Runs.Leads (step constants) (Documented constants) state (turn frame)
      (state.afterTurn constants frame rest) := by
  have report : step constants state (.getReceivedFrame (some frame.infos)) =
      some (state.report frame.infos) := by
    simp only [step, polling]
  have reported : state.report frame.infos = { state with
      eth := { state.eth with rxFrameInfos := frame.infos }
      completed := rest
      phase := .reported bytes } := by
    rw [System.report, completed]
    rfl
  obtain ⟨copied, copied_eq⟩ : ∃ copied : System Desc Buffer,
      copied = (state.report frame.infos).copyFrame constants frame.pbufAlloc := ⟨_, rfl⟩
  obtain ⟨p, p_eq⟩ : ∃ p, p = (inputChain constants (state.report frame.infos).eth
      (allocateFrame frame.infos frame.pbufAlloc) (.start frame.infos)).1 := ⟨_, rfl⟩
  have copy : step constants (state.report frame.infos) (.copyFrame frame.pbufAlloc) =
      some copied := by
    rw [copied_eq]
    rfl
  have releasing : copied.phase = .releasing p frame.infos.fsRxDesc 0 := by
    rw [copied_eq, p_eq]
    rfl
  have infos : copied.eth.rxFrameInfos = frame.infos := by
    rw [copied_eq]
    rfl
  have rbus : copied.rbus = state.rbus := by
    rw [copied_eq]
    rfl
  obtain ⟨last, released⟩ := leads_releaseDesc p frame.infos.segCount.toNat copied
    frame.infos.fsRxDesc 0 releasing (by rw [infos, Nat.zero_add])
  have ended := leads_resume_input (copied.givenBack constants p frame.infos.fsRxDesc last
    frame.infos.segCount.toNat) p last frame.dmasr frame.input rfl (flag.trans rbus.symm)
  have whole := Runs.Leads.cons ⟨_, rest, completed, fun _ => rfl⟩ report
    (.cons trivial copy (released.append ended))
  refine cast (congrArg (Runs.Leads _ _ state _) ?_) whole
  rw [copied_eq, p_eq, reported, System.afterTurn, System.resume]
  cases flagged : resumes constants frame.dmasr with
  | true =>
    have flagged : (frame.dmasr &&& constants.ethDmasrRbus != 0) = true := flagged
    simp only [lowLevelInput, if_pos flagged]
    rfl
  | false =>
    have flagged : ¬ (frame.dmasr &&& constants.ethDmasrRbus != 0) = true :=
      Bool.eq_false_iff.mp flagged
    simp only [lowLevelInput, if_neg flagged, List.append_nil]
    rfl

/-! ### The loop -/

/-- The reads of the status register that the frames meet, when the DMA does nothing in between:
RBUS is as it was for the first one, and not set for the others. -/
def Undisturbed (constants : DmaConstants) : Bool → List (Arrival Desc Buffer) → Prop
  | _, [] => True
  | rbus, frame :: rest =>
    resumes constants frame.dmasr = rbus ∧ Undisturbed constants false rest

/-- Left alone by the DMA, the turns of the frames that `ethernetifInput` takes out do what it
says, up to the state in which the thread waits for the semaphore. -/
theorem leads_ethernetifInput (constants : DmaConstants) (frames : List (Arrival Desc Buffer))
    (state : System Desc Buffer) (polling : state.phase = .polling)
    (completed : state.completed.map Frame.infos = frames.map Arrival.infos)
    (undisturbed : Undisturbed constants state.rbus frames) :
    ∃ taken ends last,
      frames = taken ++ (ethernetifInput constants state.eth frames state.calls).waiting ∧
      (ends = [] ∨ ends = [.getReceivedFrame none]) ∧
      Runs.Leads (step constants) (Documented constants) state (taken.flatMap turn ++ ends) last ∧
      last.phase = .waiting ∧
      last.eth = (ethernetifInput constants state.eth frames state.calls).eth ∧
      last.calls = (ethernetifInput constants state.eth frames state.calls).calls ∧
      last.completed.map Frame.infos =
        (ethernetifInput constants state.eth frames state.calls).waiting.map Arrival.infos := by
  induction frames generalizing state with
  | nil =>
    have taken : step constants state (.getReceivedFrame none) =
        some { state with phase := .waiting } := by
      simp only [step, polling]
    exact ⟨[], [.getReceivedFrame none], { state with phase := .waiting }, rfl, .inr rfl,
      .cons trivial taken (.nil _), rfl, rfl, rfl, completed⟩
  | cons frame frames inductionHypothesis =>
    obtain ⟨reported, rest, completed, infos, later⟩ := List.map_eq_cons_iff.mp completed
    obtain ⟨flag, quiet⟩ := undisturbed
    have completed : state.completed = ⟨frame.infos, reported.bytes⟩ :: rest := by
      rw [completed, ← infos]
    have turned := leads_turn state frame reported.bytes rest polling completed flag
    rw [ethernetifInput]
    by_cases obtained :
        (lowLevelInput constants state.eth (some frame.infos) frame.pbufAlloc frame.dmasr).p ≠ []
    · have unflagged : (state.afterTurn constants frame rest).rbus = false := by
        rw [System.afterTurn, System.input, if_pos obtained]
        show (if resumes constants frame.dmasr then false else state.rbus) = false
        rw [flag]
        cases state.rbus <;> rfl
      have going : (state.afterTurn constants frame rest).phase = .polling := by
        rw [System.afterTurn, System.input, if_pos obtained]
      have left : (state.afterTurn constants frame rest).completed.map Frame.infos =
          frames.map Arrival.infos := by
        rw [System.afterTurn, System.input, if_pos obtained]
        exact later
      obtain ⟨taken, ends, last, split, ended, leads, waiting, eth, calls, waits⟩ :=
        inductionHypothesis (state.afterTurn constants frame rest) going left (unflagged ▸ quiet)
      rw [System.afterTurn, System.input, if_pos obtained] at split eth calls waits
      simp only [if_pos obtained]
      refine ⟨frame :: taken, ends, last, congrArg (frame :: ·) split, ended, ?_, waiting, eth,
        calls, waits⟩
      rw [List.flatMap_cons, List.append_assoc]
      exact turned.append leads
    · simp only [if_neg obtained]
      refine ⟨[frame], [], state.afterTurn constants frame rest, rfl, .inl rfl, ?_, ?_, ?_, ?_, ?_⟩
      · rw [List.flatMap_singleton, List.append_nil]
        exact turned
      · rw [System.afterTurn, System.input, if_neg obtained]
      · rw [System.afterTurn, System.input, if_neg obtained]
      · rw [System.afterTurn, System.input, if_neg obtained]
      · rw [System.afterTurn, System.input, if_neg obtained]
        exact later

/-- A frame of one byte. -/
def oneByte : RxFrameInfos Bool Bool where
  fsRxDesc := false
  segCount := 1
  length := 1
  buffer := false

/-- A frame of one byte that waits for a thread about to look for it. -/
def oneWaiting : System Bool Bool :=
  { System.start .pair false with
    phase := .polling
    completed := [⟨oneByte, [65]⟩] }

/-- The frame of one byte, and memory for it. -/
theorem leads_ethernetifInput_one : ∃ taken ends last,
    [⟨oneByte, .single, 0, .errUse⟩] =
      taken ++ (ethernetifInput .small oneWaiting.eth
        [⟨oneByte, .single, 0, .errUse⟩] []).waiting ∧
    (ends = [] ∨ ends = [.getReceivedFrame none]) ∧
    Runs.Leads (step .small) (Documented .small) oneWaiting (taken.flatMap turn ++ ends) last ∧
    last.phase = .waiting ∧
    last.eth = (ethernetifInput .small oneWaiting.eth [⟨oneByte, .single, 0, .errUse⟩] []).eth ∧
    last.calls =
      (ethernetifInput .small oneWaiting.eth [⟨oneByte, .single, 0, .errUse⟩] []).calls ∧
    last.completed.map Frame.infos =
      (ethernetifInput .small oneWaiting.eth
        [⟨oneByte, .single, 0, .errUse⟩] []).waiting.map Arrival.infos :=
  leads_ethernetifInput .small [⟨oneByte, .single, 0, .errUse⟩] oneWaiting rfl rfl
    ⟨by decide, trivial⟩

end EthReceiver

end RtpLib
