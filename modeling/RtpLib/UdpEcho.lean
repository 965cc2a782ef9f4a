/-
This file models the loop of `udp_echo_socket` and settles whom it answers. The
length of the address is a parameter of `recvfrom` in both directions: it says how
much room there is for the address of the sender, and returns how much of it was
copied. The loop passes the same variable in every turn and never sets it, so the
room of one turn is what the turn before has left, and the room of the first is
whatever the variable holds.

Too little room stays too little. The address is then cut, and `sendto` accepts no
cut address, so that the task answers either everybody or nobody.

The calls of lwIP are modelled by their documented effect, with the size of a socket
address as a parameter.
-/

import RtpLib.Blocks

namespace RtpLib

/-! ### The calls of lwIP -/

/-- `MAXBUF` -/
def maxbuf : Nat := 1024 * 2

/-- The bytes of a `struct sockaddr_in` of a given size. -/
def SockaddrIn (size : UInt32) : Type := Fin size.toNat → UInt8

/-- A datagram that arrives, with its length and the address of its sender. -/
structure Datagram (size : UInt32) where
  sender : SockaddrIn size
  payload : Nat → UInt8
  length : Nat
  length_le : length ≤ maxbuf

/-- What a call of `recvfrom` meets: an error, or a datagram. -/
inductive RecvOutcome (size : UInt32)
  | failed (code : Int) (negative : code < 0)
  | received (datagram : Datagram size)

/-- The variables of `udp_echo_socket` that the loop uses, with the datagrams delivered for it and
whom they went to, oldest first. -/
structure UdpEcho (size : UInt32) where
  len : UInt32
  remote : SockaddrIn size
  bufin : Nat → UInt8
  sent : List (SockaddrIn size × List UInt8)

variable {size : UInt32}

/-- The payload, as a list of bytes. -/
def Datagram.bytes (datagram : Datagram size) : List UInt8 :=
  Blocks.slice datagram.payload 0 datagram.length

namespace UdpEcho

/-- `recvfrom(ld, bufin, MAXBUF, 0, &remote, &len)`, with its result. -/
def recvfrom (task : UdpEcho size) : RecvOutcome size → Int × UdpEcho size
  | .failed code _ => (code, task)
  | .received datagram =>
    let copied := if task.len < size then task.len else size
    (datagram.length, {
      task with
      len := copied
      remote := fun index =>
        if index.val < copied.toNat then datagram.sender index else task.remote index
      bufin := Blocks.copy task.bufin 0 datagram.payload 0 datagram.length })

/-- `sendto(ld, bufin, n, 0, &remote, len)`, which delivers only to an address of the right
length. -/
def sendto (n : Int) (task : UdpEcho size) : UdpEcho size :=
  if task.len = size then
    { task with sent := task.sent ++ [(task.remote, Blocks.slice task.bufin 0 n.toNat)] }
  else task

/-! ### The loop -/

/-- One turn of the loop of `udp_echo_socket`. -/
def turn (task : UdpEcho size) (outcome : RecvOutcome size) : UdpEcho size :=
  let (n, task) := task.recvfrom outcome
  if n < 0 then task else task.sendto n

/-- The loop of `udp_echo_socket`, over the outcomes of its calls of `recvfrom`. -/
def loop (task : UdpEcho size) (outcomes : List (RecvOutcome size)) : UdpEcho size :=
  outcomes.foldl turn task

end UdpEcho

namespace RecvOutcome

/-- The answers due to an outcome: the same bytes to the sender of a datagram, and nothing for an
error. -/
def due : RecvOutcome size → List (SockaddrIn size × List UInt8)
  | .failed _ _ => []
  | .received datagram => [(datagram.sender, datagram.bytes)]

/-- Answers are due to datagrams only. -/
theorem flatMap_due_eq_nil_iff (outcomes : List (RecvOutcome size)) :
    outcomes.flatMap due = [] ↔ ∀ datagram, received datagram ∉ outcomes := by
  rw [List.flatMap_eq_nil_iff]
  constructor
  · intro nothing_due datagram member
    exact absurd (nothing_due _ member) (List.cons_ne_nil _ _)
  · intro errors outcome member
    cases outcome with
    | failed code negative => rfl
    | received datagram => exact absurd member (errors datagram)

end RecvOutcome

namespace UdpEcho

/-- With room for a whole address, a turn makes the answers due, and leaves the room. -/
theorem turn_of_room (task : UdpEcho size) (room : size ≤ task.len) (outcome : RecvOutcome size) :
    (task.turn outcome).sent = task.sent ++ outcome.due ∧ size ≤ (task.turn outcome).len := by
  cases outcome with
  | failed code negative =>
    rw [turn, recvfrom]
    simp only
    rw [if_pos negative]
    exact ⟨(List.append_nil _).symm, room⟩
  | received datagram =>
    have whole : (if task.len < size then task.len else size) = size :=
      if_neg (UInt32.not_lt.mpr room)
    have address : (fun index : Fin size.toNat =>
        if index.val < size.toNat then datagram.sender index else task.remote index) =
          datagram.sender :=
      funext fun index => if_pos index.isLt
    rw [turn, recvfrom]
    simp only [whole, address]
    rw [if_neg (Int.not_lt.mpr (Int.natCast_nonneg _)), sendto, if_pos rfl, Int.toNat_natCast,
      Blocks.slice_copy]
    exact ⟨rfl, UInt32.le_refl size⟩

/-- Without, a turn sends nothing, and leaves no more room. -/
theorem turn_of_short (task : UdpEcho size) (short : task.len < size)
    (outcome : RecvOutcome size) :
    (task.turn outcome).sent = task.sent ∧ (task.turn outcome).len < size := by
  cases outcome with
  | failed code negative =>
    rw [turn, recvfrom]
    simp only
    rw [if_pos negative]
    exact ⟨rfl, short⟩
  | received datagram =>
    rw [turn, recvfrom]
    simp only [if_pos short]
    rw [if_neg (Int.not_lt.mpr (Int.natCast_nonneg _)), sendto, if_neg (UInt32.ne_of_lt short)]
    exact ⟨rfl, short⟩

/-- With room for a whole address, all answers due are made. -/
theorem loop_of_room (task : UdpEcho size) (room : size ≤ task.len)
    (outcomes : List (RecvOutcome size)) :
    (task.loop outcomes).sent = task.sent ++ outcomes.flatMap RecvOutcome.due := by
  induction outcomes generalizing task with
  | nil => exact (List.append_nil _).symm
  | cons outcome rest inductionHypothesis =>
    obtain ⟨answered, room⟩ := task.turn_of_room room outcome
    rw [loop, List.foldl_cons, ← loop, inductionHypothesis _ room, answered, List.append_assoc,
      List.flatMap_cons]

/-- Without, none is made. -/
theorem loop_of_short (task : UdpEcho size) (short : task.len < size)
    (outcomes : List (RecvOutcome size)) : (task.loop outcomes).sent = task.sent := by
  induction outcomes generalizing task with
  | nil => rfl
  | cons outcome rest inductionHypothesis =>
    obtain ⟨silent, short⟩ := task.turn_of_short short outcome
    rw [loop, List.foldl_cons, ← loop, inductionHypothesis _ short, silent]

end UdpEcho

/-! ### Whether everybody is answered -/

/-- The loop answers everybody: after each of its turns, what has been sent are the answers due to
the outcomes so far. -/
def AnswersAll (task : UdpEcho size) (outcomes : List (RecvOutcome size)) : Prop :=
  ∀ count, (task.loop (outcomes.take count)).sent =
    task.sent ++ (outcomes.take count).flatMap RecvOutcome.due

/-- Whatever the variables hold and whatever arrives, the loop answers everybody exactly when the
initial length has room for a whole address, or when no datagram arrives. -/
theorem answersAll_iff (task : UdpEcho size) (outcomes : List (RecvOutcome size)) :
    AnswersAll task outcomes ↔
      size ≤ task.len ∨ ∀ datagram, .received datagram ∉ outcomes := by
  by_cases room : size ≤ task.len
  · exact iff_of_true (fun count => task.loop_of_room room _) (.inl room)
  · have silent := task.loop_of_short (UInt32.not_le.mp room)
    have answers (count : Nat) : (task.loop (outcomes.take count)).sent =
        task.sent ++ (outcomes.take count).flatMap RecvOutcome.due ↔
          ∀ datagram, .received datagram ∉ outcomes.take count := by
      rw [silent, List.self_eq_append_right, RecvOutcome.flatMap_due_eq_nil_iff]
    rw [or_iff_right room, AnswersAll]
    simp only [answers]
    refine ⟨fun none_so_far datagram => ?_, fun none_comes count datagram member => ?_⟩
    · have all := none_so_far outcomes.length datagram
      rwa [List.take_length] at all
    · exact none_comes datagram (List.mem_of_mem_take member)

/-- A length of 0 and a single datagram: it is not answered. -/
theorem not_answersAll :
    ¬ ∀ (size : UInt32) (task : UdpEcho size) (outcomes : List (RecvOutcome size)),
      AnswersAll task outcomes := by
  intro claimed
  let task : UdpEcho 16 := { len := 0, remote := fun _ => 0, bufin := fun _ => 0, sent := [] }
  let datagram : Datagram 16 := ⟨fun _ => 7, fun _ => 65, 1, by decide⟩
  have answered := claimed 16 task [.received datagram] 1
  exact absurd answered.symm (List.cons_ne_nil _ _)

end RtpLib
