/-
This file reads a circular list of descriptors as a ring of slots. The library of
handed slots counts places; a place is a descriptor, the one that the links lead to
from the first one on, and two descriptors of the list have two buffers. Both
directions of the interface are instances.

What the DMA does to the descriptors it is done with is the same in both as well: it
writes their status words, and leaves the links and the addresses of the buffers.
-/

import RtpLib.EthInput
import RtpLib.EthOutput
import RtpLib.Handoff

namespace RtpLib

variable {Desc Buffer : Type}

namespace DmaDesc

variable {table : Desc → DmaDesc Desc Buffer} {first : Desc} {count : Nat}

theorem node_add (table : Desc → DmaDesc Desc Buffer) (first : Desc) (place index : Nat) :
    node table (node table first place) index = node table first (place + index) := by
  rw [Nat.add_comm, node, node, node, Function.iterate_add_apply]

theorem Ring.cyclic (ring : Ring table first count) (positive : 0 < count) :
    Handoff.Cyclic (node table first) count where
  positive := positive
  again place := by rw [Nat.add_comm, ← node_add, ring.closes]
  apart i i_lt j j_lt same := ring.apart i i_lt j j_lt (by rw [buffer, buffer, same])

/-- Two descriptors of the ring have two buffers. -/
theorem Ring.addr_ne (ring : Ring table first count) (positive : 0 < count) {place other : Nat}
    (apart : node table first place ≠ node table first other) :
    (table (node table first place)).buffer1Addr ≠
      (table (node table first other)).buffer1Addr := by
  intro same
  have cyclic := ring.cyclic positive
  rw [← cyclic.slot_mod place, ← cyclic.slot_mod other] at same apart
  exact apart (congrArg _ (ring.apart _ (Nat.mod_lt _ positive) _ (Nat.mod_lt _ positive) same))

/-- The list is a ring from any of its descriptors on. -/
theorem Ring.shift (ring : Ring table first count) (positive : 0 < count) (place : Nat) :
    Ring table (node table first place) count where
  closes := by rw [node_add, (ring.cyclic positive).again]
  apart i i_lt j j_lt same := by
    rw [buffer, buffer, node_add, node_add] at same
    have slots : node table first (place + i) = node table first (place + j) := by
      by_contra different
      exact ring.addr_ne positive different same
    exact Nat.add_left_cancel ((ring.cyclic positive).eq_of_slot_eq slots (Nat.le_add_right _ _)
      (Nat.add_lt_add_left i_lt place) (Nat.le_add_right _ _) (Nat.add_lt_add_left j_lt place))

/-- Two tables with the same links and addresses are rings alike. -/
theorem Ring.congr {descs : Desc → DmaDesc Desc Buffer} (ring : Ring table first count)
    (links : ∀ desc, (descs desc).buffer2NextDescAddr = (table desc).buffer2NextDescAddr)
    (addrs : ∀ desc, (descs desc).buffer1Addr = (table desc).buffer1Addr) :
    Ring descs first count where
  closes := by rw [node_congr links, ring.closes]
  apart i i_lt j j_lt same := by
    rw [buffer, buffer, addrs, addrs, node_congr links, node_congr links] at same
    exact ring.apart i i_lt j j_lt same

/-- What a new word for a descriptor leaves as it was, is as it was for all. -/
theorem update_view [DecidableEq Desc] {descs : Desc → DmaDesc Desc Buffer} {desc : Desc}
    {View : Type} (view : DmaDesc Desc Buffer → View) {new : DmaDesc Desc Buffer}
    (same : view new = view (descs desc)) (other : Desc) :
    view (Function.update descs desc new other) = view (descs other) := by
  by_cases here : other = desc
  · rw [here, Function.update_self, same]
  · rw [Function.update_of_ne here]

end DmaDesc

end RtpLib
