/-
This file settles what `UartPort_ReadString` delivers and where it writes. Its
loop stops at a terminator, when the array is full but for one byte, or when the
ring is empty; the first exit returns, the other two share a tail. The tail takes
one more byte from the ring, moves the index on, and only then writes the
terminator: one byte after the place it belongs to.

So a line that is complete in the array is delivered as it should be, and nothing
else is: the tail leaves a byte unwritten before its terminator, drops the byte it
takes, and writes past the end of an array that the bytes before have filled.
-/

import RtpLib.ReadData

namespace RtpLib

open UartPort

/-! ### What the loop does -/

/-- The bytes up to the first zero, the zero included. -/
def throughZero : List UInt8 → List UInt8
  | [] => []
  | ch :: rest => if ch = 0 then [0] else ch :: throughZero rest

theorem throughZero_of_notMem {bytes : List UInt8} (without : 0 ∉ bytes) :
    throughZero bytes = bytes := by
  induction bytes with
  | nil => rfl
  | cons ch rest inductionHypothesis =>
    obtain ⟨different, without⟩ := List.ne_and_not_mem_of_not_mem_cons without
    rw [throughZero, if_neg different.symm, inductionHypothesis without]

/-- A list with a zero is cut after its first one. -/
theorem throughZero_of_first {bytes : List UInt8} {index : Nat} (found : bytes[index]? = some 0)
    (first : 0 ∉ bytes.take index) : throughZero bytes = bytes.take (index + 1) := by
  induction bytes generalizing index with
  | nil => cases found
  | cons ch rest inductionHypothesis =>
    cases index with
    | zero =>
      obtain rfl : ch = 0 := Option.some.inj found
      rfl
    | succ index =>
      obtain ⟨different, first⟩ := List.ne_and_not_mem_of_not_mem_cons first
      rw [throughZero, if_neg different.symm, inductionHypothesis found first,
        List.take_succ_cons]

theorem length_throughZero_le (bytes : List UInt8) : (throughZero bytes).length ≤ bytes.length := by
  induction bytes with
  | nil => exact le_rfl
  | cons ch rest inductionHypothesis =>
    rw [throughZero]
    split
    · exact Nat.succ_le_succ (Nat.zero_le _)
    · exact Nat.succ_le_succ inductionHypothesis

/-- From an index on, the loop delivers the bytes up to a zero, as many as there is room for,
and returns when it has found one. -/
theorem readStringLoop_eq {port : UartPort} {bytes : List UInt8} (holds : RxHolds port bytes)
    (maxDataSize cnt : Nat) (data : DataArray) :
    ∃ next, readStringLoop maxDataSize cnt data port =
        (decide (0 ∈ bytes.take (maxDataSize - 1 - cnt)),
          cnt + (throughZero (bytes.take (maxDataSize - 1 - cnt))).length,
          data.setAll cnt (throughZero (bytes.take (maxDataSize - 1 - cnt))), next) ∧
      RxHolds next
        (bytes.drop (throughZero (bytes.take (maxDataSize - 1 - cnt))).length) := by
  induction bytes generalizing port cnt data with
  | nil =>
    refine ⟨port, ?_, by simpa using holds⟩
    rw [readStringLoop, holds.getRxChar_nil]
    simp [throughZero]
  | cons ch rest inductionHypothesis =>
    by_cases space : cnt + 1 < maxDataSize
    · obtain ⟨next, taken, remaining⟩ := holds.getRxChar_cons
      have more : maxDataSize - 1 - cnt = maxDataSize - 1 - (cnt + 1) + 1 := by omega
      rw [readStringLoop, if_pos space, taken, more, List.take_succ_cons]
      by_cases zero : ch = 0
      · subst zero
        refine ⟨next, ?_, ?_⟩
        · simp [throughZero, DataArray.setAll]
        · simpa [throughZero] using remaining
      · obtain ⟨last, looped, left⟩ := inductionHypothesis remaining (cnt + 1) (data.set cnt ch)
        refine ⟨last, ?_, ?_⟩
        · simp only [if_true, if_neg zero, looped, throughZero, List.mem_cons, Ne.symm zero,
            false_or, List.length_cons, DataArray.setAll, Prod.mk.injEq, true_and, and_true]
          omega
        · rw [throughZero, if_neg zero]
          exact left
    · have full : maxDataSize - 1 - cnt = 0 := by omega
      rw [readStringLoop, if_neg space, full]
      exact ⟨port, by simp [throughZero], holds⟩

/-! ### What a call does -/

/-- A line that is complete in the ring and in the array is delivered, and nothing else is
taken. -/
theorem readString_of_line {port : UartPort} {bytes : List UInt8} (holds : RxHolds port bytes)
    (maxDataSize : Nat) (data : DataArray) (line : 0 ∈ bytes.take (maxDataSize - 1)) :
    ∃ next, port.readString (some data) maxDataSize =
        ((throughZero (bytes.take (maxDataSize - 1))).length,
          some (data.setAll 0 (throughZero (bytes.take (maxDataSize - 1)))), next) ∧
      RxHolds next (bytes.drop (throughZero (bytes.take (maxDataSize - 1))).length) := by
  obtain ⟨next, looped, left⟩ := readStringLoop_eq holds maxDataSize 0 data
  rw [Nat.sub_zero, Nat.zero_add, decide_eq_true line] at looped
  refine ⟨next, ?_, left⟩
  simp only [readString, looped, if_true]

/-- Otherwise the tail runs: the bytes that fit are delivered, the terminator is written one
byte after its place, and one more byte is taken, if there is one. -/
theorem readString_of_tail {port : UartPort} {bytes : List UInt8} (holds : RxHolds port bytes)
    (maxDataSize : Nat) (data : DataArray) (unended : 0 ∉ bytes.take (maxDataSize - 1)) :
    ∃ next, port.readString (some data) maxDataSize =
        (min bytes.length (maxDataSize - 1) + 1,
          some ((data.setAll 0 (bytes.take (maxDataSize - 1))).set
            (min bytes.length (maxDataSize - 1) + 1) 0), next) ∧
      RxHolds next (bytes.drop (min bytes.length (maxDataSize - 1) + 1)) := by
  obtain ⟨next, looped, left⟩ := readStringLoop_eq holds maxDataSize 0 data
  rw [Nat.sub_zero, throughZero_of_notMem unended, Nat.zero_add, decide_eq_false unended,
    List.length_take, min_comm] at looped
  rw [Nat.sub_zero, throughZero_of_notMem unended, List.length_take, min_comm] at left
  refine ⟨next.getRxChar.2, ?_, ?_⟩
  · simp only [readString, looped, Bool.false_eq_true, if_false]
  · have taken := left.getRxChar
    rw [List.tail_drop] at taken
    exact taken

/-! ### The string that is delivered -/

/-- What a call on a ring that holds these bytes has to return, deliver and leave: a line that
fits is delivered with its terminator; otherwise the bytes that fit are, and a terminator is
written after them, with no unwritten byte before it. -/
structure ProperString (bytes : List UInt8) (maxDataSize cnt : Nat) (data : DataArray)
    (left : List UInt8) : Prop where
  line : ∀ index < maxDataSize - 1, bytes[index]? = some 0 → 0 ∉ bytes.take index →
    (∀ i ≤ index, bytes[i]? = some (data.bytes i)) ∧ cnt = index + 1 ∧
      left = bytes.drop (index + 1)
  rest : 0 ∉ bytes.take (maxDataSize - 1) →
    (∀ i < min bytes.length (maxDataSize - 1), bytes[i]? = some (data.bytes i)) ∧
      data.bytes (min bytes.length (maxDataSize - 1)) = 0 ∧
      (∀ i ≤ min bytes.length (maxDataSize - 1), i ∈ data.written) ∧
      cnt = min bytes.length (maxDataSize - 1) + 1 ∧
      left = bytes.drop (min bytes.length (maxDataSize - 1))

namespace ReadCall

/-- The call of `UartPort_ReadString` with these arguments returns a proper string. -/
def ReturnsString (call : ReadCall) (port : UartPort) (bytes : List UInt8) : Prop :=
  ∃ cnt data next,
    port.readString (some (.ofBytes call.bytes)) call.maxDataSize = (cnt, some data, next) ∧
      ProperString bytes call.maxDataSize cnt data next.rxContents

/-- The call writes inside the array, and returns no more than its size. -/
def StaysInside (call : ReadCall) (port : UartPort) : Prop :=
  ∃ cnt data next,
    port.readString (some (.ofBytes call.bytes)) call.maxDataSize = (cnt, some data, next) ∧
      (∀ index ∈ data.written, index < call.maxDataSize) ∧ cnt ≤ call.maxDataSize

end ReadCall

/-- The indices written by bytes stored from the start of an array. -/
theorem mem_setAll_written (stored : Nat → UInt8) (bytes : List UInt8) (index : Nat) :
    index ∈ ((DataArray.ofBytes stored).setAll 0 bytes).written ↔ index < bytes.length := by
  rw [DataArray.setAll_written, DataArray.ofBytes, List.append_nil, List.mem_reverse,
    List.mem_range'_1, Nat.zero_add]
  exact and_iff_right (Nat.zero_le _)

/-- Whatever the receive ring holds, a call returns a proper string exactly when there is a
terminator among the bytes that fit into the array with one byte to spare. -/
theorem returnsString_iff (port : UartPort) (bytes : List UInt8) (holds : RxHolds port bytes)
    (call : ReadCall) :
    call.ReturnsString port bytes ↔ 0 ∈ bytes.take (call.maxDataSize - 1) := by
  by_cases line : 0 ∈ bytes.take (call.maxDataSize - 1)
  · refine iff_of_true ?_ line
    obtain ⟨next, read, left⟩ :=
      readString_of_line holds call.maxDataSize (.ofBytes call.bytes) line
    refine ⟨_, _, _, read, ?_, fun unended => absurd line unended⟩
    intro index inside found first
    have short : index + 1 ≤ call.maxDataSize - 1 := inside
    have delivered : throughZero (bytes.take (call.maxDataSize - 1)) = bytes.take (index + 1) := by
      rw [@throughZero_of_first _ index, List.take_take, min_eq_left short]
      · rw [List.getElem?_take_of_lt inside, found]
      · rw [List.take_take, min_eq_left inside.le]
        exact first
    have present : index < bytes.length := (List.getElem?_eq_some_iff.mp found).1
    have length : (bytes.take (index + 1)).length = index + 1 := by
      rw [List.length_take, min_eq_left present]
    rw [left.contents, delivered, length]
    refine ⟨fun i before => ?_, rfl, rfl⟩
    have stored := DataArray.setAll_bytes_inside (.ofBytes call.bytes) 0 (bytes.take (index + 1))
      i (by omega)
    rw [List.getElem?_take_of_lt (Nat.lt_succ_of_le before), Nat.zero_add] at stored
    exact stored
  · refine iff_of_false ?_ line
    rintro ⟨cnt, data, next, read, proper⟩
    obtain ⟨last, tail, _⟩ :=
      readString_of_tail holds call.maxDataSize (.ofBytes call.bytes) line
    rw [tail] at read
    cases read
    -- The place of the terminator is the one index that the tail leaves out.
    have written := (proper.rest line).2.2.1 _ le_rfl
    rcases List.mem_cons.mp written with same | earlier
    · exact absurd same.symm (Nat.succ_ne_self _)
    · rw [mem_setAll_written, List.length_take, min_comm] at earlier
      exact absurd earlier (lt_irrefl _)

/-- A line of one letter, with its terminator. -/
theorem returnsString_iff_line :
    ReadCall.ReturnsString ⟨fun _ => 255, 4⟩ (freshReceived [65, 0]) [65, 0] :=
  (returnsString_iff (freshReceived [65, 0]) [65, 0]
    ⟨⟨by decide, by decide, by decide, by decide⟩, by decide⟩ _).mpr (by decide)

/-- Two letters without a terminator, read into an array of eight: the byte after them is
left as it was. -/
theorem not_returnsString :
    ¬ ∀ (port : UartPort) (bytes : List UInt8), RxHolds port bytes →
      ∀ call : ReadCall, 2 ≤ call.maxDataSize → call.ReturnsString port bytes := by
  intro claimed
  have holds : RxHolds (freshReceived [65, 66]) [65, 66] :=
    ⟨⟨by decide, by decide, by decide, by decide⟩, by decide⟩
  obtain ⟨cnt, data, next, read, proper⟩ := claimed _ _ holds ⟨fun _ => 255, 8⟩ (by decide)
  obtain ⟨last, tail, _⟩ := readString_of_tail holds 8 (.ofBytes fun _ => 255) (by decide)
  rw [tail] at read
  cases read
  exact absurd (proper.rest (by decide)).2.1 (by decide)

/-- Whatever the receive ring holds, a call stays inside the array exactly when there is a
terminator among the bytes that fit with one byte to spare, or the ring holds fewer bytes. -/
theorem staysInside_iff (port : UartPort) (bytes : List UInt8) (holds : RxHolds port bytes)
    (call : ReadCall) :
    call.StaysInside port ↔
      0 ∈ bytes.take (call.maxDataSize - 1) ∨ bytes.length < call.maxDataSize - 1 := by
  by_cases line : 0 ∈ bytes.take (call.maxDataSize - 1)
  · refine iff_of_true ?_ (.inl line)
    obtain ⟨next, read, _⟩ :=
      readString_of_line holds call.maxDataSize (.ofBytes call.bytes) line
    have short := length_throughZero_le (bytes.take (call.maxDataSize - 1))
    rw [List.length_take] at short
    refine ⟨_, _, _, read, fun index written => ?_, by omega⟩
    rw [mem_setAll_written] at written
    omega
  · rw [or_iff_right line]
    obtain ⟨next, read, _⟩ :=
      readString_of_tail holds call.maxDataSize (.ofBytes call.bytes) line
    constructor
    · rintro ⟨cnt, data, last, again, inside, _⟩
      rw [read] at again
      cases again
      have terminator := inside _ List.mem_cons_self
      omega
    · intro room
      refine ⟨_, _, _, read, fun index written => ?_, by omega⟩
      rcases List.mem_cons.mp written with same | earlier
      · omega
      · rw [mem_setAll_written, List.length_take] at earlier
        omega

/-- Two letters without a terminator fit into an array of four. -/
theorem staysInside_iff_two :
    ReadCall.StaysInside ⟨fun _ => 255, 4⟩ (freshReceived [65, 66]) :=
  (staysInside_iff (freshReceived [65, 66]) [65, 66]
    ⟨⟨by decide, by decide, by decide, by decide⟩, by decide⟩ _).mpr (.inr (by decide))

/-- Two letters without a terminator, read into an array of three: the terminator is written
after the array. -/
theorem not_staysInside :
    ¬ ∀ (port : UartPort) (bytes : List UInt8), RxHolds port bytes →
      ∀ call : ReadCall, call.StaysInside port := by
  intro claimed
  have holds : RxHolds (freshReceived [65, 66]) [65, 66] :=
    ⟨⟨by decide, by decide, by decide, by decide⟩, by decide⟩
  obtain ⟨cnt, data, next, read, inside, _⟩ := claimed _ _ holds ⟨fun _ => 255, 3⟩
  obtain ⟨last, tail, _⟩ := readString_of_tail holds 3 (.ofBytes fun _ => 255) (by decide)
  rw [tail] at read
  cases read
  exact absurd (inside 3 (by decide)) (by decide)

end RtpLib
