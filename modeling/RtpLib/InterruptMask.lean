/-
This file settles what the ring operations, and the calls of the port built from
them, do to the interrupt mask of their caller. A critical section masks
interrupts when it is entered and enables them when it is left, whatever the mask
was before; nothing saves it. So a call leaves the mask as it was when it enters
no section, and otherwise returns with interrupts enabled.

Which calls enter a section depends only on whether there is anything in the ring
they read: a put always does, even when the ring is full; a get does when the
ring is not empty.
-/

import RtpLib.UartCalls

namespace RtpLib

namespace RingBuffer

/-- A put enables interrupts, accepted or not. -/
theorem putChar_primask (ring : RingBuffer) (ch : UInt8) (machine : Machine) :
    (ring.putChar ch machine).2.2.primask = false := by
  unfold putChar
  split <;> rfl

/-- A get enables interrupts when the ring is not empty. -/
theorem getChar_primask (ring : RingBuffer) (machine : Machine) :
    (ring.getChar machine).2.2.primask = (machine.primask && ring.isEmpty) := by
  unfold getChar
  split
  · rename_i empty
    rw [empty, Bool.and_true]
  · rename_i nonempty
    rw [Bool.eq_false_iff.mpr nonempty, Bool.and_false]
    rfl

/-- A get succeeds when the ring is not empty. -/
theorem getChar_result (ring : RingBuffer) (machine : Machine) :
    (ring.getChar machine).1.1 = !ring.isEmpty := by
  unfold getChar
  split
  · rename_i empty
    rw [empty]
    rfl
  · rename_i nonempty
    rw [Bool.eq_false_iff.mpr nonempty]
    rfl

end RingBuffer

namespace UartPort

/-! ### What each loop does to the mask -/

theorem putTxChar_primask (port : UartPort) (ch : UInt8) :
    (port.putTxChar ch).2.machine.primask = false :=
  port.uartTxBuffer.putChar_primask ch port.machine

/-- A get succeeds, and enables interrupts, when the receive ring is not empty. -/
theorem getRxChar_mask {port next : UartPort} {result : Bool} {ch : UInt8}
    (taken : port.getRxChar = ((result, ch), next)) :
    result = !port.uartRxBuffer.isEmpty ∧
      next.machine.primask = (port.machine.primask && port.uartRxBuffer.isEmpty) := by
  have found : port.getRxChar.1.1 = _ := port.uartRxBuffer.getChar_result port.machine
  have mask : port.getRxChar.2.machine.primask = _ :=
    port.uartRxBuffer.getChar_primask port.machine
  rw [taken] at found mask
  exact ⟨found, mask⟩

/-- After a get that succeeded, interrupts are enabled. -/
theorem getRxChar_enabled {port next : UartPort} {ch : UInt8}
    (taken : port.getRxChar = ((true, ch), next)) :
    port.uartRxBuffer.isEmpty = false ∧ next.machine.primask = false := by
  obtain ⟨found, mask⟩ := getRxChar_mask taken
  have nonempty : port.uartRxBuffer.isEmpty = false := by
    rw [← Bool.not_eq_true', ← found]
  rw [nonempty, Bool.and_false] at mask
  exact ⟨nonempty, mask⟩

/-- Taking a byte to transmit leaves enabled interrupts enabled. -/
theorem sendTxChar_primask (port : UartPort) (enabled : port.machine.primask = false) :
    port.getTxChar.2.transmitTxChar.machine.primask = false := by
  show port.getTxChar.2.machine.primask = false
  have taken := port.uartTxBuffer.getChar_primask port.machine
  rw [enabled, Bool.false_and] at taken
  exact taken

/-- The loop of `UartPort_WriteData` enables interrupts once it puts a byte. -/
theorem writeLoop_primask (port : UartPort) (cnt : Nat) (data : List UInt8)
    (enabled : data = [] → port.machine.primask = false) :
    (port.writeLoop cnt data).2.machine.primask = false := by
  induction data generalizing port cnt with
  | nil => exact enabled rfl
  | cons ch rest inductionHypothesis =>
    have put := port.putTxChar_primask ch
    simp only [writeLoop]
    split
    · exact inductionHypothesis _ _ fun _ => put
    · exact put

theorem writeData_primask {port next : UartPort} {data : List UInt8} {cnt : Nat}
    (written : port.writeData data = some (cnt, next)) : next.machine.primask = false := by
  unfold writeData at written
  split at written
  · cases written
  · rename_i nonempty
    cases written
    have looped := port.writeLoop_primask 0 data fun nothing => absurd nothing nonempty
    split
    · exact looped
    · exact sendTxChar_primask _ looped

theorem putChar_primask (port : UartPort) (ch : UInt8) (ready : Bool) :
    (port.putChar ch ready).2.machine.primask = false := by
  have put := port.putTxChar_primask ch
  simp only [putChar]
  split
  · exact sendTxChar_primask _ put
  · exact put

/-- The loop of `UartPort_ReadData` enables interrupts when the ring is not empty. -/
theorem readDataLoop_primask (maxDataSize cnt : Nat) (data : DataArray) (port : UartPort) :
    (readDataLoop maxDataSize cnt data port).2.2.machine.primask =
      (port.machine.primask && port.uartRxBuffer.isEmpty) := by
  induction cnt, data, port using readDataLoop.induct maxDataSize with
  | case1 cnt data port result ch next taken more inductionHypothesis =>
    obtain ⟨rfl, space⟩ := more
    obtain ⟨nonempty, enabled⟩ := getRxChar_enabled taken
    rw [enabled, Bool.false_and] at inductionHypothesis
    rw [readDataLoop, taken, nonempty, Bool.and_false]
    simp only [space, and_self, if_true, inductionHypothesis]
  | case2 cnt data port result ch next taken stop =>
    rw [readDataLoop, taken]
    simp only [if_neg stop]
    exact (getRxChar_mask taken).2

/-- After the loop of `UartPort_ReadString`, interrupts are enabled and the ring was not empty,
or else it has done nothing. -/
theorem readStringLoop_primask (maxDataSize cnt : Nat) (data : DataArray) (port : UartPort) :
    (port.uartRxBuffer.isEmpty = false ∧
        (readStringLoop maxDataSize cnt data port).2.2.2.machine.primask = false) ∨
      (readStringLoop maxDataSize cnt data port).1 = false ∧
        (readStringLoop maxDataSize cnt data port).2.2.2 = port := by
  induction cnt, data, port using readStringLoop.induct maxDataSize with
  | case1 cnt data port room next taken =>
    rw [readStringLoop, if_pos room, taken]
    exact .inl (getRxChar_enabled taken)
  | case2 cnt data port room ch next data' cnt' more taken inductionHypothesis =>
    obtain ⟨nonempty, enabled⟩ := getRxChar_enabled taken
    rw [readStringLoop, if_pos room, taken]
    simp only [if_true, if_neg more]
    refine .inl ⟨nonempty, inductionHypothesis.elim And.right fun same => ?_⟩
    rw [same.2]
    exact enabled
  | case3 cnt data port room result ch next taken failed =>
    have empty : port.uartRxBuffer.isEmpty = true := by
      rw [← Bool.not_eq_false', ← (getRxChar_mask taken).1]
      exact Bool.eq_false_iff.mpr failed
    rw [readStringLoop, if_pos room, getRxChar_of_isEmpty empty]
    exact .inr ⟨rfl, rfl⟩
  | case4 cnt data port full =>
    rw [readStringLoop, if_neg full]
    exact .inr ⟨rfl, rfl⟩

/-- `UartPort_ReadString` enables interrupts when the ring is not empty. -/
theorem readString_primask (port : UartPort) (data : DataArray) (maxDataSize : Nat) :
    (port.readString (some data) maxDataSize).2.2.machine.primask =
      (port.machine.primask && port.uartRxBuffer.isEmpty) := by
  have tail : ∀ before : UartPort, before.getRxChar.2.machine.primask =
      (before.machine.primask && before.uartRxBuffer.isEmpty) := fun before =>
    before.uartRxBuffer.getChar_primask before.machine
  obtain ⟨⟨returned, cnt, delivered, next⟩, loop⟩ :
      ∃ outcome, readStringLoop maxDataSize 0 data port = outcome := ⟨_, rfl⟩
  have looped := readStringLoop_primask maxDataSize 0 data port
  rw [loop] at looped
  simp only [readString, loop]
  rcases looped with ⟨nonempty, enabled⟩ | ⟨rfl, rfl⟩
  · have enabled : next.machine.primask = false := enabled
    rw [nonempty, Bool.and_false]
    split
    · exact enabled
    · exact (tail next).trans (by rw [enabled, Bool.false_and])
  · exact tail next

/-! ### Calls and sequences of calls -/

/-- The two rings of the port. -/
inductive PortRing
  | tx
  | rx

/-- The ring of that name. -/
def ring (port : UartPort) : PortRing → RingBuffer
  | .tx => port.uartTxBuffer
  | .rx => port.uartRxBuffer

/-- The port with another ring of that name, and what has become of the machine. -/
def setRing (port : UartPort) (name : PortRing) (ring : RingBuffer) (machine : Machine) :
    UartPort :=
  match name with
  | .tx => { port with uartTxBuffer := ring, machine := machine }
  | .rx => { port with uartRxBuffer := ring, machine := machine }

/-- The calls that switch the mask, on a ring or on the port. -/
inductive PortCall
  | ringPutChar (name : PortRing) (ch : UInt8)
  | ringGetChar (name : PortRing)
  | writeData (data : List UInt8)
  | putChar (ch : UInt8) (ready : Bool)
  | readData (data : DataArray) (maxDataSize : Nat)
  | readString (data : Option DataArray) (maxDataSize : Nat)

/-- What a call leaves of the port; `none` when an assertion fails. -/
def call (port : UartPort) : PortCall → Option UartPort
  | .ringPutChar name ch =>
    let (_, ring, machine) := (port.ring name).putChar ch port.machine
    some (port.setRing name ring machine)
  | .ringGetChar name =>
    let (_, ring, machine) := (port.ring name).getChar port.machine
    some (port.setRing name ring machine)
  | .writeData data => (port.writeData data).map fun (_, port) => port
  | .putChar ch ready => some (port.putChar ch ready).2
  | .readData data maxDataSize => some (port.readData data maxDataSize).2.2
  | .readString data maxDataSize => some (port.readString data maxDataSize).2.2

/-- The call enters a critical section: a put does in any case, a get when its ring is not
empty. -/
def EntersSection (port : UartPort) : PortCall → Bool
  | .ringPutChar _ _ | .writeData _ | .putChar _ _ => true
  | .ringGetChar name => !(port.ring name).isEmpty
  | .readData _ _ => !port.uartRxBuffer.isEmpty
  | .readString data _ => data.isSome && !port.uartRxBuffer.isEmpty

theorem setRing_machine (port : UartPort) (name : PortRing) (ring : RingBuffer)
    (machine : Machine) : (port.setRing name ring machine).machine = machine := by
  cases name <;> rfl

/-- After a call, the mask is as before when no section was entered, and clear otherwise. -/
theorem call_primask {port next : UartPort} {call : PortCall}
    (returned : port.call call = some next) :
    next.machine.primask = (port.machine.primask && !port.EntersSection call) := by
  cases call with
  | ringPutChar name ch =>
    have put : port.setRing name ((port.ring name).putChar ch port.machine).2.1
        ((port.ring name).putChar ch port.machine).2.2 = next := Option.some.inj returned
    rw [← put, setRing_machine, RingBuffer.putChar_primask, EntersSection, Bool.not_true,
      Bool.and_false]
  | ringGetChar name =>
    have got : port.setRing name ((port.ring name).getChar port.machine).2.1
        ((port.ring name).getChar port.machine).2.2 = next := Option.some.inj returned
    rw [← got, setRing_machine, RingBuffer.getChar_primask, EntersSection, Bool.not_not]
  | writeData data =>
    obtain ⟨⟨cnt, last⟩, written, rfl⟩ := Option.map_eq_some_iff.mp returned
    rw [EntersSection, Bool.not_true, Bool.and_false]
    exact writeData_primask written
  | putChar ch ready =>
    rw [← Option.some.inj returned, putChar_primask, EntersSection, Bool.not_true,
      Bool.and_false]
  | readData data maxDataSize =>
    rw [← Option.some.inj returned, EntersSection, Bool.not_not]
    exact readDataLoop_primask _ _ _ _
  | readString data maxDataSize =>
    rw [← Option.some.inj returned]
    cases data with
    | none => exact (Bool.and_true _).symm
    | some data =>
      rw [EntersSection, Option.isSome_some, Bool.true_and, Bool.not_not, readString_primask]

/-- The call enters no critical section. -/
def EntersNone (port : UartPort) (call : PortCall) : Prop := port.EntersSection call = false

instance (port : UartPort) : DecidablePred (EntersNone port) :=
  fun _ => inferInstanceAs (Decidable (_ = false))

/-- Interrupts are enabled. -/
def Enabled (port : UartPort) : Prop := port.machine.primask = false

/-- A call leaves enabled interrupts enabled. -/
theorem call_enabled {port next : UartPort} {call : PortCall} (enabled : Enabled port)
    (returned : port.call call = some next) : Enabled next := by
  have enabled : port.machine.primask = false := enabled
  rw [Enabled, call_primask returned, enabled, Bool.false_and]

/-- A sequence of calls keeps a mask that is set exactly when none of them enters a section. -/
theorem run_masked_iff {port last : UartPort} {calls : List PortCall}
    (masked : port.machine.primask = true) (returned : Runs.run call port calls = some last) :
    last.machine.primask = true ↔ Runs.EveryStep call EntersNone port calls := by
  induction calls generalizing port with
  | nil =>
    cases returned
    exact iff_of_true masked trivial
  | cons first rest inductionHypothesis =>
    obtain ⟨next, taken, reached⟩ := Runs.run_cons_eq_some.mp returned
    have mask := call_primask taken
    rw [masked, Bool.true_and] at mask
    by_cases none : EntersNone port first
    · have still : next.machine.primask = true := by
        rw [mask, (none : port.EntersSection first = false)]
        rfl
      refine (inductionHypothesis still reached).trans ⟨fun others other again => ?_, fun all => ?_⟩
      · obtain rfl : next = other := Option.some.inj (taken.symm.trans again)
        exact ⟨none, others⟩
      · exact (all next taken).2
    · have enters : port.EntersSection first = true := Bool.eq_true_of_not_eq_false none
      rw [enters] at mask
      have enabled : Enabled last :=
        Runs.run_invariant (fun _ _ _ enabled _ taken => call_enabled enabled taken)
          (mask : Enabled next) (Runs.everyStep_of_forall (fun _ _ => trivial) next rest) reached
      refine iff_of_false ?_ fun all => none (all next taken).1
      rw [(enabled : last.machine.primask = false)]
      exact Bool.false_ne_true

/-- After any sequence of calls, the mask has the value it had before exactly when interrupts
were enabled before or no call entered a critical section; a single call leaves interrupts
enabled when it enters one; and enabled interrupts stay enabled after every call. -/
theorem mask_after_calls (port last : UartPort) (calls : List PortCall)
    (returned : Runs.run call port calls = some last) :
    (∀ (first : PortCall) (next : UartPort), port.call first = some next →
        next.machine.primask = (port.machine.primask && !port.EntersSection first)) ∧
      (last.machine.primask = port.machine.primask ↔
        port.machine.primask = false ∨ Runs.EveryStep call EntersNone port calls) ∧
      (port.machine.primask = false → Runs.EveryState call Enabled port calls) := by
  have stays : Enabled port → Runs.EveryState call Enabled port calls := fun enabled =>
    Runs.everyState_of_step (fun _ enabled => enabled)
      (fun _ _ _ enabled taken => call_enabled enabled taken) enabled calls
  refine ⟨fun first next taken => call_primask taken, ?_, stays⟩
  cases mask : port.machine.primask with
  | true =>
    rw [run_masked_iff mask returned]
    exact (or_iff_right Bool.false_ne_true.symm).symm
  | false =>
    refine iff_of_true ?_ (.inl rfl)
    exact Runs.run_invariant (fun _ _ _ enabled _ taken => call_enabled enabled taken)
      (mask : Enabled port) (Runs.everyStep_of_forall (fun _ _ => trivial) port calls) returned

/-- With interrupts masked, a read of the empty receive ring and a put on the transmit ring. -/
theorem mask_after_calls_fresh :
    Runs.EveryStep call EntersNone
        { fresh with machine := ⟨fun _ => 0, true, []⟩ } [.ringGetChar .rx] ∧
      ∀ next, call { fresh with machine := ⟨fun _ => 0, true, []⟩ } (.ringPutChar .tx 65) =
        some next → next.machine.primask = false := by
  have after := mask_after_calls { fresh with machine := ⟨fun _ => 0, true, []⟩ }
    { fresh with machine := ⟨fun _ => 0, true, []⟩ } [.ringGetChar .rx] rfl
  exact ⟨(after.2.1.mp rfl).resolve_left Bool.false_ne_true.symm,
    fun next taken => after.1 _ next taken⟩

/-- With interrupts masked, a put on the transmit ring enables them. -/
theorem mask_not_kept :
    ¬ ∀ (port next : UartPort) (first : PortCall), port.call first = some next →
      next.machine.primask = port.machine.primask := by
  intro claimed
  have kept := claimed { fresh with machine := ⟨fun _ => 0, true, []⟩ } _ (.ringPutChar .tx 65) rfl
  exact absurd kept (by decide)

end UartPort

end RtpLib
