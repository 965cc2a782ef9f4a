/-
This file follows the messages of `ip_addr_changed` down to the wire: through
`UartPort_Printf` with its buffer, `UartPort_WriteString`, the transmit ring and the
Tx-complete handler. A reader at the other end knows the changes of the address exactly
as long as each message is given to a transmitter that has sent the one before: the
first byte that `UartPort_WriteData` takes from the ring is lost otherwise.

The callback runs to its end without an interrupt, which changes nothing for a message
that finds the transmitter idle: its completion is the only interrupt that the transmit
side knows.
-/

import RtpLib.AddressLog
import RtpLib.WriteString

namespace RtpLib

/-! ### The sender -/

namespace UartPort

/-- What the senders do with the ring: the oldest byte leaves it, and is handed to the driver. -/
theorem txCpltCallbck_eq (port : UartPort) (valid : port.uartTxBuffer.Valid) :
    port.txCpltCallbck.uartTxBuffer.Valid ∧
      port.txCpltCallbck.uartTxBuffer.buffSize = port.uartTxBuffer.buffSize ∧
      port.txCpltCallbck.txContents = port.txContents.tail ∧
      port.txCpltCallbck.handle =
        match port.txContents with
        | [] => port.handle
        | ch :: _ => (port.handle.transmitIT ch).2 := by
  by_cases empty : port.txCount = 0
  · have nothing : port.txContents = [] := by
      rw [← List.length_eq_zero_iff, length_txContents, empty]
    rw [txCpltCallbck_of_empty port empty, nothing]
    exact ⟨valid, rfl, rfl, rfl⟩
  · rw [txCpltCallbck_of_nonempty port empty, txContents_takeTxChar port valid empty]
    exact ⟨RingBuffer.valid_popped _ valid empty, rfl, rfl, rfl⟩

/-- The loop of `UartPort_WriteData` does not touch the handle. -/
theorem writeLoop_keeps (port : UartPort) (valid : port.uartTxBuffer.Valid) (cnt : Nat)
    (data : List UInt8) :
    (port.writeLoop cnt data).2.uartTxBuffer.Valid ∧
      (port.writeLoop cnt data).2.uartTxBuffer.buffSize = port.uartTxBuffer.buffSize ∧
      (port.writeLoop cnt data).2.handle = port.handle := by
  induction data generalizing port cnt with
  | nil => exact ⟨valid, rfl, rfl⟩
  | cons ch rest inductionHypothesis =>
    by_cases room : port.txCount < port.uartTxBuffer.buffSize.toNat
    · rw [writeLoop, putTxChar_of_room port ch room]
      exact inductionHypothesis (port.storedTxChar ch) (RingBuffer.valid_pushed _ valid room)
        (cnt + 1)
    · rw [writeLoop, putTxChar_of_full port ch room]
      exact ⟨valid, rfl, rfl⟩

/-- `UartPort_WriteString` queues what there is room for, and takes a byte, whether the
transmitter is idle or not. -/
theorem writeString_sends (port : UartPort) (valid : port.uartTxBuffer.Valid)
    (string : List UInt8) (nonempty : string ≠ []) :
    ∃ result next, port.writeString string = some (result, next) ∧
      next.uartTxBuffer.Valid ∧ next.uartTxBuffer.buffSize = port.uartTxBuffer.buffSize ∧
      next.txContents = (port.txContents ++ string.take port.txRoom).tail ∧
      next.handle =
        match port.txContents ++ string.take port.txRoom with
        | [] => port.handle
        | ch :: _ => (port.handle.transmitIT ch).2 := by
  obtain ⟨kept, size, handle⟩ := port.writeLoop_keeps valid 0 string
  obtain ⟨sent, same, queue, started⟩ := txCpltCallbck_eq _ kept
  rw [(port.writeLoop_eq valid 0 string).2] at queue started
  rw [handle] at started
  refine ⟨(port.writeLoop 0 string).1 != 0, (port.writeLoop 0 string).2.txCpltCallbck, ?_, sent,
    same.trans size, queue, started⟩
  rw [writeString, writeData, if_neg nonempty]
  rfl

end UartPort

/-! ### The printer of the addresses -/

/-- The port with the buffer of `UartPort_Printf`, the static variable of `ip_addr_changed`, and
the addresses that the interface had at its calls, oldest first. -/
structure AddressPrinter where
  port : UartPort
  printfBuff : PrintfBuff
  address : UInt32
  addresses : List UInt32

inductive AddressEvent
  /-- lwIP calls `ip_addr_changed` for an interface with this address. -/
  | status (addr : UInt32)
  /-- The byte in transmission has been sent. -/
  | txCplt

namespace AddressPrinter

/-- The variables before the first call. -/
def start (port : UartPort) : AddressPrinter := ⟨port, .zeros, 0, []⟩

/-- `UartPort_Printf`, one caller alone; `none` when an assertion fails. -/
def print (state : AddressPrinter) (message : Message) : Option AddressPrinter :=
  if message.lvl.value ≤ debugLevel.value then
    let printfBuff := state.printfBuff.vsprintf message
    (state.port.writeString printfBuff.string).map fun (_, port) =>
      { state with port := port, printfBuff := printfBuff }
  else some state

/-- A call of the callback, or an interrupt, which is raised by a transmission. -/
def step (state : AddressPrinter) : AddressEvent → Option AddressPrinter
  | .status addr =>
    let (message, address) := ipAddrChanged state.address addr
    let state := { state with address := address, addresses := state.addresses ++ [addr] }
    match message with
    | some message => state.print message
    | none => some state
  | .txCplt =>
    if state.port.handle.transmission = none then none
    else some { state with port := state.port.transmitted.txCpltCallbck }

/-- The texts of the messages so far. -/
def texts (state : AddressPrinter) : List UInt8 :=
  (addressMessages 0 state.addresses).flatMap Message.text

/-- The texts are on the wire, but for the byte in transmission and those in the ring; and when
the transmitter is idle, a reader of the wire knows the changes of the address. -/
structure Reported (state : AddressPrinter) : Prop where
  account : state.port.handle.wire ++ state.port.handle.transmission.toList ++
    state.port.txContents = state.texts
  known : state.port.handle.transmission = none →
    0 :: readAddresses state.port.handle.wire = (0 :: state.addresses).destutter (· ≠ ·)

/-- A call that prints finds the transmitter idle. -/
def FindsIdle (state : AddressPrinter) : AddressEvent → Prop
  | .status addr => addr = state.address ∨ state.port.handle.transmission = none
  | .txCplt => True

/-- What every step keeps. -/
structure Printing (state : AddressPrinter) : Prop where
  valid : state.port.uartTxBuffer.Valid
  size : state.port.uartTxBuffer.buffSize = txBufferSize
  unlocked : state.port.handle.locked = false
  idle : state.port.handle.transmission = none → state.port.txContents = []
  address : state.address = state.addresses.getLastD 0
  account : state.port.handle.wire ++ state.port.handle.transmission.toList ++
    state.port.txContents = state.texts

variable {state next : AddressPrinter}

theorem Printing.reported (printing : Printing state) : Reported state where
  account := printing.account
  known := by
    intro idle
    have account := printing.account
    rw [idle, printing.idle idle] at account
    have wire : state.port.handle.wire = state.texts := by simpa using account
    rw [wire]
    exact readAddresses_addressMessages 0 state.addresses

/-- After a byte has been sent, the next one follows, if there is one. -/
theorem Printing.txCplt (printing : Printing state) :
    Printing { state with port := state.port.transmitted.txCpltCallbck } := by
  have valid : state.port.transmitted.uartTxBuffer.Valid := printing.valid
  obtain ⟨kept, size, queue, handle⟩ := UartPort.txCpltCallbck_eq _ valid
  have contents : state.port.transmitted.txContents = state.port.txContents := rfl
  have account := printing.account
  rw [contents] at queue handle
  cases items : state.port.txContents with
  | nil =>
    rw [items] at queue handle account
    refine ⟨kept, size.trans printing.size, ?_, fun _ => queue, printing.address, ?_⟩
    · rw [handle]
      exact printing.unlocked
    · rw [handle, queue]
      exact (congrArg (· ++ []) (List.append_nil _)).trans account
  | cons ch rest =>
    have started := UartHandle.transmitIT_of_idle state.port.transmitted.handle ch rfl
      printing.unlocked
    rw [items] at queue handle account
    dsimp only at handle
    rw [started] at handle
    refine ⟨kept, size.trans printing.size, ?_, fun idle => ?_, printing.address, ?_⟩
    · rw [handle]
      exact printing.unlocked
    · rw [handle] at idle
      cases idle
    · rw [handle, queue]
      refine Eq.trans ?_ account
      show _ ++ [ch] ++ rest = _ ++ ch :: rest
      rw [List.append_assoc]
      rfl

/-- A call for the address of the last one changes nothing of the port. -/
theorem step_status_same {addr : UInt32} (same : addr = state.address)
    (taken : state.step (.status addr) = some next) :
    next = { state with addresses := state.addresses ++ [addr] } := by
  have unchanged : ipAddrChanged state.address addr = (none, state.address) :=
    if_neg (not_not.mpr same)
  simp only [step, unchanged] at taken
  exact (Option.some.inj taken).symm

/-- A call for another address prints. -/
theorem step_status_other (printing : Printing state) {addr : UInt32}
    (other : addr ≠ state.address) (taken : state.step (.status addr) = some next) :
    next.address = addr ∧ next.addresses = state.addresses ++ [addr] ∧
      next.texts = state.texts ++ (addressMessage addr).text ∧
      next.port.uartTxBuffer.Valid ∧ next.port.uartTxBuffer.buffSize = txBufferSize ∧
      next.port.txContents =
        (state.port.txContents ++ (addressMessage addr).text.take state.port.txRoom).tail ∧
      next.port.handle =
        match state.port.txContents ++ (addressMessage addr).text.take state.port.txRoom with
        | [] => state.port.handle
        | ch :: _ => (state.port.handle.transmitIT ch).2 := by
  have changed : ipAddrChanged state.address addr = (some (addressMessage addr), addr) :=
    if_pos other
  have printed : (addressMessage addr).lvl.value ≤ debugLevel.value := DebugLevel.printed _
  obtain ⟨result, port, written, valid, size, queue, handle⟩ :=
    state.port.writeString_sends printing.valid _ (addressMessage addr).nonempty
  simp only [step, changed, print, if_pos printed, PrintfBuff.string_vsprintf, written] at taken
  obtain rfl := Option.some.inj taken
  refine ⟨rfl, rfl, ?_, valid, size.trans printing.size, queue, handle⟩
  rw [texts, addressMessages_concat, ← printing.address, changed, List.flatMap_append]
  exact congrArg (_ ++ ·) (List.append_nil _)

/-- The callback is called while the transmitter is idle: the whole text is queued. -/
theorem Printing.status (printing : Printing state) {addr : UInt32}
    (finds : state.FindsIdle (.status addr)) (taken : state.step (.status addr) = some next) :
    Printing next := by
  by_cases same : addr = state.address
  · rw [step_status_same same taken]
    have unchanged : ipAddrChanged (state.addresses.getLastD 0) addr = (none, state.address) := by
      rw [← printing.address]
      exact if_neg (not_not.mpr same)
    have texts : ({ state with addresses := state.addresses ++ [addr] } : AddressPrinter).texts =
        state.texts := by
      rw [AddressPrinter.texts, addressMessages_concat, unchanged]
      exact congrArg (List.flatMap Message.text) (List.append_nil _)
    refine ⟨printing.valid, printing.size, printing.unlocked, printing.idle, ?_,
      printing.account.trans texts.symm⟩
    rw [List.getLastD_concat]
    exact same.symm
  · obtain ⟨address, addresses, texts, valid, size, queue, handle⟩ :=
      step_status_other printing same taken
    have idle : state.port.handle.transmission = none := finds.resolve_left same
    have empty := printing.idle idle
    have room : (addressMessage addr).text.length ≤ state.port.txRoom := by
      have none_queued : state.port.txCount = 0 := by
        rw [← UartPort.length_txContents, empty, List.length_nil]
      rw [UartPort.txRoom, none_queued, printing.size]
      exact (addressMessage addr).fits.le
    obtain ⟨ch, rest, text⟩ := List.exists_cons_of_ne_nil (addressMessage addr).nonempty
    rw [empty, List.take_of_length_le room, List.nil_append, text] at queue handle
    dsimp only at handle
    rw [UartHandle.transmitIT_of_idle _ ch idle printing.unlocked] at handle
    refine ⟨valid, size, ?_, fun sent => ?_, ?_, ?_⟩
    · rw [handle]
      exact printing.unlocked
    · rw [handle] at sent
      cases sent
    · rw [address, addresses, List.getLastD_concat]
    · have account := printing.account
      rw [idle, empty, List.append_nil, Option.toList_none, List.append_nil] at account
      rw [handle, queue, texts, text, ← account]
      exact List.append_assoc _ _ _

/-- Otherwise the first byte that leaves the ring is lost. -/
theorem Printing.lost (printing : Printing state) {addr : UInt32}
    (busy : ¬ state.FindsIdle (.status addr)) (taken : state.step (.status addr) = some next) :
    ¬ Reported next := by
  obtain ⟨other, occupied⟩ := not_or.mp busy
  obtain ⟨_, _, texts, _, _, queue, handle⟩ := step_status_other printing other taken
  have refused : ∀ ch, (state.port.handle.transmitIT ch).2 = state.port.handle := by
    intro ch
    have some : state.port.handle.transmission.isSome = true :=
      Option.isSome_iff_ne_none.mpr occupied
    rw [UartHandle.transmitIT, UartHandle.transmitRefused, some, Bool.true_or, if_pos rfl]
  have same : next.port.handle = state.port.handle := by
    rw [handle]
    split
    · rfl
    · exact refused _
  intro reported
  have account := congrArg List.length reported.account
  have before := congrArg List.length printing.account
  have text := List.length_pos_iff.mpr (addressMessage addr).nonempty
  rw [same, queue, texts] at account
  simp only [List.length_append, List.length_tail, List.length_take] at account before
  omega

theorem Printing.step {event : AddressEvent} (printing : Printing state)
    (finds : state.FindsIdle event) (taken : state.step event = some next) : Printing next := by
  cases event with
  | status addr => exact printing.status finds taken
  | txCplt =>
    rw [AddressPrinter.step] at taken
    split at taken
    · cases taken
    · exact Option.some.inj taken ▸ printing.txCplt

theorem Printing.start {txData rxData : Nat} {machine : Machine} {port : UartPort}
    (initialised : UartPort.init txData rxData machine = some port) :
    Printing (start port) := by
  obtain ⟨txInit, _, _, handle⟩ := UartPort.init_eq_some initialised
  have queue : port.txContents = [] := RingBuffer.contents_init txInit _
  refine ⟨RingBuffer.valid_init txInit, (RingBuffer.init_eq_some txInit).2.2.1, ?_,
    fun _ => queue, rfl, ?_⟩
  · exact congrArg UartHandle.locked handle
  · show port.handle.wire ++ port.handle.transmission.toList ++ port.txContents = []
    rw [queue, handle]
    rfl

/-- After `UartPort_Init`, in every run of the callback and the interrupt, with any addresses, the
bytes of all messages are on the wire in every state, but for those that wait, and a reader of
what an idle transmitter has sent knows each change of the address, exactly when each call that
finds a new address finds the transmitter idle. -/
theorem everyState_reported_iff (txData rxData : Nat) (machine : Machine) (port : UartPort)
    (initialised : UartPort.init txData rxData machine = some port)
    (events : List AddressEvent) :
    Runs.EveryState step Reported (start port) events ↔
      Runs.EveryStep step FindsIdle (start port) events := by
  refine Runs.everyState_iff_everyStep (fun _ => Printing.reported)
    (fun _ _ _ printing finds taken => printing.step finds taken) ?_ events
    (Printing.start initialised)
  intro state event next printing busy taken
  cases event with
  | status addr => exact printing.lost busy taken
  | txCplt => exact absurd trivial busy

/-- The callback is called twice for one address. -/
theorem everyState_reported_iff_fresh :
    Runs.EveryState step Reported (start .fresh) [.status 0x9605A8C0, .status 0x9605A8C0] := by
  refine (everyState_reported_iff 1024 2048 _ _ UartPort.init_fresh _).mpr fun state first => ?_
  have printed := step_status_other (Printing.start UartPort.init_fresh) (by decide) first
  exact ⟨.inr rfl, fun _ _ => ⟨.inl printed.1.symm, trivial⟩⟩

end AddressPrinter

end RtpLib
