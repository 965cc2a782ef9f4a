/-
This file settles what `UartPort_ReadData` takes from the receive ring. Its loop
takes a byte before it asks whether there is room for it: with `maxDataSize`
bytes delivered and more in the ring, one byte is taken and dropped. So a call
takes exactly what it delivers when the ring holds no more than the caller has
room for, and a stream read in chunks loses a byte at the end of every chunk that
leaves some behind.
-/

import RtpLib.UartCalls

namespace RtpLib

open UartPort

/-! ### What the loop does -/

/-- From an index on, the loop delivers bytes as long as there are any and there is room, and
has taken one more, if there is one. -/
theorem readDataLoop_eq {port : UartPort} {bytes : List UInt8} (holds : RxHolds port bytes)
    (maxDataSize cnt : Nat) (data : DataArray) :
    ∃ next, readDataLoop maxDataSize cnt data port =
        (cnt + min bytes.length (maxDataSize - cnt),
          data.setAll cnt (bytes.take (maxDataSize - cnt)), next) ∧
      RxHolds next (bytes.drop (maxDataSize - cnt + 1)) := by
  induction bytes generalizing port cnt data with
  | nil =>
    refine ⟨port, ?_, holds⟩
    rw [readDataLoop, holds.getRxChar_nil]
    simp
  | cons ch rest inductionHypothesis =>
    obtain ⟨next, taken, holds⟩ := holds.getRxChar_cons
    rw [readDataLoop, taken]
    by_cases space : cnt < maxDataSize
    · obtain ⟨last, looped, left⟩ := inductionHypothesis holds (cnt + 1) (data.set cnt ch)
      have more : maxDataSize - cnt = maxDataSize - (cnt + 1) + 1 := by omega
      refine ⟨last, ?_, ?_⟩
      · simp only [space, and_self, if_true, looped, more, List.take_succ_cons, List.length_cons,
          DataArray.setAll, Nat.succ_min_succ, Prod.mk.injEq, and_true]
        omega
      · rw [more]
        exact left
    · have full : maxDataSize - cnt = 0 := by omega
      refine ⟨next, ?_, ?_⟩
      · simp [space, full]
      · rw [full]
        exact holds

/-- A call delivers the first bytes, as many as there is room for, and takes one more, if there
is one. -/
theorem readData_eq {port : UartPort} {bytes : List UInt8} (holds : RxHolds port bytes)
    (maxDataSize : Nat) (data : DataArray) :
    ∃ next, port.readData data maxDataSize =
        (min bytes.length maxDataSize, data.setAll 0 (bytes.take maxDataSize), next) ∧
      RxHolds next (bytes.drop (maxDataSize + 1)) := by
  obtain ⟨next, looped, left⟩ := readDataLoop_eq holds maxDataSize 0 data
  rw [Nat.zero_add] at looped
  exact ⟨next, looped, left⟩

/-! ### Calls and sequences of calls -/

/-- The arguments of a call: the array before the call, and its size. -/
structure ReadCall where
  bytes : Nat → UInt8
  maxDataSize : Nat

namespace ReadCall

/-- The call on a port. -/
def read (call : ReadCall) (port : UartPort) : Nat × DataArray × UartPort :=
  port.readData (.ofBytes call.bytes) call.maxDataSize

/-- The number of bytes that the call has to deliver. -/
def share (call : ReadCall) (port : UartPort) : Nat :=
  min port.rxContents.length call.maxDataSize

/-- The call returns its share, delivers the first bytes of the ring, writes nothing else of
the array, and leaves the rest in the ring. -/
structure Exact (call : ReadCall) (port : UartPort) : Prop where
  count : (call.read port).1 = call.share port
  delivered : ∀ index < call.share port,
    port.rxContents[index]? = some ((call.read port).2.1.bytes index)
  confined : ∀ index ∈ (call.read port).2.1.written, index < call.share port
  left : (call.read port).2.2.rxContents = port.rxContents.drop (call.share port)

/-- The bytes that the call delivers. -/
def bytesRead (call : ReadCall) (port : UartPort) : List UInt8 :=
  (List.range (call.read port).1).map (call.read port).2.1.bytes

end ReadCall

/-- The bytes that a sequence of calls delivers, one call after the other. -/
def bytesReadAll (port : UartPort) : List ReadCall → List UInt8
  | [] => []
  | call :: rest => call.bytesRead port ++ bytesReadAll (call.read port).2.2 rest

/-- Every call of the sequence is exact. -/
def AllExact (port : UartPort) : List ReadCall → Prop
  | [] => True
  | call :: rest => call.Exact port ∧ AllExact (call.read port).2.2 rest

/-- Every call of the sequence is exact, and the calls deliver together what one call for all
their bytes has to. -/
def ChunksExact (port : UartPort) (calls : List ReadCall) : Prop :=
  AllExact port calls ∧
    bytesReadAll port calls = port.rxContents.take (calls.map ReadCall.maxDataSize).sum

namespace ReadCall

variable {port : UartPort} {bytes : List UInt8}

/-- A call is exact exactly when the ring holds no more bytes than there is room for: with
more, it takes one byte too many. -/
theorem exact_iff (holds : RxHolds port bytes) (call : ReadCall) :
    call.Exact port ↔ bytes.length ≤ call.maxDataSize := by
  obtain ⟨next, read, left⟩ := readData_eq holds call.maxDataSize (.ofBytes call.bytes)
  have read : call.read port = _ := read
  have share : call.share port = min bytes.length call.maxDataSize := by
    rw [ReadCall.share, holds.contents]
  constructor
  · intro exact
    have kept := exact.left
    rw [read, share, holds.contents, left.contents] at kept
    have lengths := congrArg List.length kept
    rw [List.length_drop, List.length_drop] at lengths
    omega
  · intro room
    have all : call.share port = bytes.length := by rw [share, min_eq_left room]
    have whole : bytes.take call.maxDataSize = bytes := List.take_of_length_le room
    rw [whole, min_eq_left room] at read
    refine ⟨?_, fun index inside => ?_, fun index listed => ?_, ?_⟩
    · rw [read, all]
    · rw [all] at inside
      rw [read, holds.contents, DataArray.setAll_bytes_inside (.ofBytes call.bytes) 0 bytes index
        inside, Nat.zero_add]
    · rw [read, DataArray.setAll_written, DataArray.ofBytes, List.append_nil,
        List.mem_reverse, List.mem_range'_1, Nat.zero_add] at listed
      rw [all]
      exact listed.2
    · rw [read, all, holds.contents, left.contents, List.drop_of_length_le (by omega),
        List.drop_of_length_le le_rfl]

/-- An exact call delivers its share of the ring. -/
theorem Exact.bytesRead {call : ReadCall} (exact : call.Exact port) :
    call.bytesRead port = port.rxContents.take (call.share port) := by
  have within : call.share port ≤ port.rxContents.length := min_le_left _ _
  refine List.ext_getElem? fun index => ?_
  rw [ReadCall.bytesRead, exact.count, List.getElem?_map]
  by_cases inside : index < call.share port
  · rw [List.getElem?_range inside, List.getElem?_take_of_lt inside,
      exact.delivered index inside]
    rfl
  · rw [List.getElem?_eq_none (by simpa using inside),
      List.getElem?_eq_none (by simpa [within] using inside)]
    rfl

/-- The ring after the call. -/
theorem rxHolds_read (holds : RxHolds port bytes) (call : ReadCall) :
    RxHolds (call.read port).2.2 (bytes.drop (call.maxDataSize + 1)) := by
  obtain ⟨next, read, left⟩ := readData_eq holds call.maxDataSize (.ofBytes call.bytes)
  have read : call.read port = _ := read
  rw [read]
  exact left

end ReadCall

/-- A sequence of calls is exact exactly when its first call has room for the whole ring. -/
theorem chunksExact_iff {port : UartPort} {bytes : List UInt8} (holds : RxHolds port bytes)
    (calls : List ReadCall) :
    ChunksExact port calls ↔ ∀ call ∈ calls.head?, bytes.length ≤ call.maxDataSize := by
  induction calls generalizing port bytes with
  | nil => exact iff_of_true ⟨trivial, rfl⟩ nofun
  | cons call rest inductionHypothesis =>
    constructor
    · rintro ⟨⟨exact, _⟩, _⟩ first member
      obtain rfl : call = first := Option.some.inj member
      exact (call.exact_iff holds).mp exact
    · intro room
      have room : bytes.length ≤ call.maxDataSize := room call rfl
      have exact := (call.exact_iff holds).mpr room
      have left := call.rxHolds_read holds
      rw [List.drop_of_length_le (by omega)] at left
      -- The first call empties the ring, so the others have nothing to deliver.
      obtain ⟨others, nothing⟩ :=
        (inductionHypothesis left).mpr fun _ _ => Nat.zero_le _
      rw [left.contents, List.take_nil] at nothing
      refine ⟨⟨exact, others⟩, ?_⟩
      rw [bytesReadAll, nothing, List.append_nil, exact.bytesRead, ReadCall.share,
        holds.contents, min_eq_left room, List.map_cons, List.sum_cons,
        List.take_of_length_le le_rfl, List.take_of_length_le (by omega)]

/-- Whatever the receive ring holds, a call takes exactly what it delivers exactly when the
ring holds no more bytes than the caller has room for; and reading in chunks takes and delivers
what reading at once has to exactly when the first chunk has that room. -/
theorem readData_exact_iff (port : UartPort) (bytes : List UInt8) (holds : RxHolds port bytes) :
    (∀ call : ReadCall, call.Exact port ↔ bytes.length ≤ call.maxDataSize) ∧
      ∀ calls : List ReadCall,
        ChunksExact port calls ↔ ∀ call ∈ calls.head?, bytes.length ≤ call.maxDataSize :=
  ⟨fun call => call.exact_iff holds, chunksExact_iff holds⟩

/-- Two bytes, read with room for three, and in chunks of three and one. -/
theorem readData_exact_iff_two :
    ReadCall.Exact ⟨fun _ => 255, 3⟩ (freshReceived [65, 66]) ∧
      ChunksExact (freshReceived [65, 66]) [⟨fun _ => 255, 3⟩, ⟨fun _ => 255, 1⟩] := by
  have exact := readData_exact_iff (freshReceived [65, 66]) [65, 66]
    ⟨⟨by decide, by decide, by decide, by decide⟩, by decide⟩
  exact ⟨(exact.1 _).mpr (by decide), (exact.2 _).mpr (by decide)⟩

/-- Two bytes, read with room for one: the second byte is taken and dropped. -/
theorem readData_not_exact :
    ¬ ∀ (port : UartPort) (bytes : List UInt8), RxHolds port bytes →
      ∀ call : ReadCall, call.Exact port := by
  intro claimed
  have holds : RxHolds (freshReceived [65, 66]) [65, 66] :=
    ⟨⟨by decide, by decide, by decide, by decide⟩, by decide⟩
  have exact := claimed _ _ holds ⟨fun _ => 255, 1⟩
  have taken := (ReadCall.rxHolds_read holds ⟨fun _ => 255, 1⟩).contents
  have left := exact.left.symm.trans taken
  exact absurd left (by decide)

end RtpLib
