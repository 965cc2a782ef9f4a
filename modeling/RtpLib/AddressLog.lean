/-
This file models `ip_addr_changed`, the status callback of the interface, and settles
what its messages tell. lwIP calls it whenever the interface goes up or down or gets an
address, and the function keeps the last address that it has announced, so that only
changes are printed. The variable is zero at the start, so that no address is not
announced before there has been one.

The text is what `vsprintf` makes of the format: decimal numbers without leading zeros,
with points between them, and a newline at the end. A reader of the port can tell the
lines apart, and the numbers in a line, and so knows each change of the address.
-/

import Mathlib.Data.List.Destutter
import RtpLib.Printf
import RtpLib.WordMachine

namespace RtpLib

/-! ### The callback -/

/-- `ip4_addr1_16` to `ip4_addr4_16`: the bytes of an address, which is in network order. -/
def ip4AddrByte (addr : UInt32) (index : Nat) : Nat := (WordMachine.byte addr index).toNat

/-- The text before the address. -/
def addressPrefix : List Char := "IP address changed: ".toList

/-- `%u`, for a byte of an address. -/
def octetText (addr : UInt32) (index : Nat) : List Char := Nat.toDigits 10 (ip4AddrByte addr index)

/-- The text that `vsprintf` makes of `"IP address changed: %u.%u.%u.%u\n"`. -/
def addressText (addr : UInt32) : List Char :=
  addressPrefix ++ (octetText addr 0 ++ '.' :: (octetText addr 1 ++ '.' ::
    (octetText addr 2 ++ '.' :: (octetText addr 3 ++ ['\n']))))

theorem isDigit_of_mem_octetText {addr : UInt32} {index : Nat} {ch : Char}
    (member : ch ∈ octetText addr index) : 48 ≤ ch.toNat ∧ ch.toNat ≤ 57 := by
  have digit := Nat.isDigit_of_mem_toDigits (by decide) (by decide) member
  rw [Char.isDigit, Bool.and_eq_true, decide_eq_true_iff, decide_eq_true_iff] at digit
  exact ⟨UInt32.le_iff_toNat_le.mp digit.1, UInt32.le_iff_toNat_le.mp digit.2⟩

/-- Every character of the text is one of ASCII, and not the terminator. -/
theorem ascii_addressText {addr : UInt32} {ch : Char} (member : ch ∈ addressText addr) :
    0 < ch.toNat ∧ ch.toNat < 128 := by
  have ascii : (addressPrefix ++ ['.', '\n']).all
      (fun ch => decide (0 < ch.toNat ∧ ch.toNat < 128)) = true := by decide
  have literal : ∀ ch ∈ addressPrefix ++ ['.', '\n'], 0 < ch.toNat ∧ ch.toNat < 128 :=
    fun ch member => of_decide_eq_true (List.all_eq_true.mp ascii ch member)
  have octet : ∀ index, ch ∈ octetText addr index → 0 < ch.toNat ∧ ch.toNat < 128 := by
    intro index member
    have digit := isDigit_of_mem_octetText member
    omega
  simp only [addressText, List.mem_append, List.mem_cons, List.not_mem_nil, or_false] at member
  rcases member with text | text | point | text | point | text | point | text | newline
  · exact literal ch (List.mem_append_left _ text)
  · exact octet 0 text
  · exact point ▸ literal '.' (by decide)
  · exact octet 1 text
  · exact point ▸ literal '.' (by decide)
  · exact octet 2 text
  · exact point ▸ literal '.' (by decide)
  · exact octet 3 text
  · exact newline ▸ literal '\n' (by decide)

/-- An octet has at most three digits. -/
theorem length_octetText_le (addr : UInt32) (index : Nat) :
    (octetText addr index).length ≤ 3 := by
  have octet : ip4AddrByte addr index < 256 := (WordMachine.byte addr index).toNat_lt
  rw [octetText, Nat.length_toDigits_le_iff (by decide) (by decide)]
  omega

theorem length_addressText_le (addr : UInt32) : (addressText addr).length ≤ 36 := by
  have first := length_octetText_le addr 0
  have second := length_octetText_le addr 1
  have third := length_octetText_le addr 2
  have fourth := length_octetText_le addr 3
  have fixed : addressPrefix.length = 20 := rfl
  simp only [addressText, List.length_append, List.length_cons, List.length_nil, fixed]
  omega

/-- A character of ASCII is the one of its byte. -/
theorem ofUInt8_toUInt8 {ch : Char} (ascii : ch.toNat < 128) : Char.ofUInt8 ch.toUInt8 = ch := by
  refine Char.ext (UInt32.toNat_inj.mp ?_)
  show ch.val.toUInt8.toUInt32.toNat = ch.val.toNat
  have small : ch.val.toNat < 128 := ascii
  rw [UInt8.toNat_toUInt32, UInt32.toNat_toUInt8, Nat.mod_eq_of_lt (by omega)]

/-- The message of the callback, which fits into `printfBuff`. -/
def addressMessage (addr : UInt32) : Message where
  lvl := .info
  text := (addressText addr).map Char.toUInt8
  nonempty := by
    rw [ne_eq, List.map_eq_nil_iff]
    exact List.cons_ne_nil _ _
  fits := by
    rw [List.length_map]
    exact (length_addressText_le addr).trans_lt (by decide)
  nonzero := by
    intro zero
    obtain ⟨ch, member, terminator⟩ := List.mem_map.mp zero
    obtain ⟨positive, ascii⟩ := ascii_addressText member
    have same : Char.ofUInt8 0 = ch := terminator ▸ ofUInt8_toUInt8 ascii
    exact absurd positive (same ▸ by decide)

/-- `ip_addr_changed`: the call of `UartPort_Printf`, if one is made, and the static variable. -/
def ipAddrChanged (address addr : UInt32) : Option Message × UInt32 :=
  if addr ≠ address then (some (addressMessage addr), addr) else (none, address)

/-- The messages of a sequence of calls. -/
def addressMessages (address : UInt32) : List UInt32 → List Message
  | [] => []
  | addr :: rest =>
    let (message, address) := ipAddrChanged address addr
    message.toList ++ addressMessages address rest

/-- The static variable holds the address of the last call. -/
theorem ipAddrChanged_snd (address addr : UInt32) : (ipAddrChanged address addr).2 = addr := by
  rw [ipAddrChanged]
  split
  · rfl
  · rename_i same
    exact (not_not.mp same).symm

theorem addressMessages_cons (address addr : UInt32) (rest : List UInt32) :
    addressMessages address (addr :: rest) =
      (ipAddrChanged address addr).1.toList ++ addressMessages addr rest := by
  show (ipAddrChanged address addr).1.toList ++
    addressMessages (ipAddrChanged address addr).2 rest = _
  rw [ipAddrChanged_snd]

/-- One more call adds its message, if it prints one. -/
theorem addressMessages_concat (address : UInt32) (addresses : List UInt32) (addr : UInt32) :
    addressMessages address (addresses ++ [addr]) =
      addressMessages address addresses ++
        (ipAddrChanged (addresses.getLastD address) addr).1.toList := by
  induction addresses generalizing address with
  | nil => exact List.append_nil _
  | cons first rest inductionHypothesis =>
    rw [List.cons_append, addressMessages_cons, addressMessages_cons, inductionHypothesis first,
      List.append_assoc, List.getLastD_cons]

/-! ### What a reader makes of them -/

/-- The address in a line, if it is one of the callback. -/
def readAddress (line : List Char) : Option UInt32 :=
  if addressPrefix <+: line then
    let octets := ((line.drop addressPrefix.length).splitOn '.').map (Nat.ofDigitChars 10 · 0)
    some (WordMachine.load (fun place => .ofNat (octets.getD place.toNat 0)) 0)
  else none

/-- The addresses in the bytes that the port has sent, one for each line of the callback. -/
def readAddresses (bytes : List UInt8) : List UInt32 :=
  ((bytes.map Char.ofUInt8).splitOn '\n').filterMap readAddress

/-- A line, without its newline. -/
def addressLine (addr : UInt32) : List Char :=
  addressPrefix ++ (octetText addr 0 ++ '.' :: (octetText addr 1 ++ '.' ::
    (octetText addr 2 ++ '.' :: octetText addr 3)))

theorem addressText_eq (addr : UInt32) : addressText addr = addressLine addr ++ ['\n'] := by
  simp only [addressText, addressLine, List.append_assoc, List.cons_append]

theorem newline_notMem_addressLine (addr : UInt32) : '\n' ∉ addressLine addr := by
  have octet : ∀ index, '\n' ∉ octetText addr index := fun index member =>
    absurd (isDigit_of_mem_octetText member).1 (by decide)
  have literal : '\n' ∉ addressPrefix := by decide
  have point : '\n' ≠ '.' := by decide
  simp only [addressLine, List.mem_append, List.mem_cons, octet, literal, point, or_self,
    not_false_eq_true]

/-- The numbers of a line are those of its address. -/
theorem splitOn_octets (addr : UInt32) :
    ((addressLine addr).drop addressPrefix.length).splitOn '.' =
      [octetText addr 0, octetText addr 1, octetText addr 2, octetText addr 3] := by
  have octet : ∀ index, '.' ∉ octetText addr index := fun index member =>
    absurd (isDigit_of_mem_octetText member).1 (by decide)
  rw [addressLine, List.drop_left, List.splitOn_append_cons_self_of_not_mem (octet 0),
    List.splitOn_append_cons_self_of_not_mem (octet 1),
    List.splitOn_append_cons_self_of_not_mem (octet 2), List.splitOn_eq_singleton (octet 3)]

/-- The line of an address is read as that address. -/
theorem readAddress_addressLine (addr : UInt32) : readAddress (addressLine addr) = some addr := by
  have octet : ∀ index, UInt8.ofNat (Nat.ofDigitChars 10 (octetText addr index) 0) =
      WordMachine.byte addr index := fun index => by
    rw [octetText, Nat.ofDigitChars_ten_toDigits, ip4AddrByte, UInt8.ofNat_toNat]
  have starts : addressPrefix <+: addressLine addr := List.prefix_append _ _
  rw [readAddress, if_pos starts, splitOn_octets]
  refine congrArg some (Eq.trans ?_ (WordMachine.load_byte addr))
  show UInt32.ofNat ((UInt8.ofNat (Nat.ofDigitChars 10 (octetText addr 0) 0)).toNat +
    2 ^ 8 * (UInt8.ofNat (Nat.ofDigitChars 10 (octetText addr 1) 0)).toNat +
    2 ^ 16 * (UInt8.ofNat (Nat.ofDigitChars 10 (octetText addr 2) 0)).toNat +
    2 ^ 24 * (UInt8.ofNat (Nat.ofDigitChars 10 (octetText addr 3) 0)).toNat) = _
  rw [octet, octet, octet, octet]
  rfl

/-- The text of a message is read as one address. -/
theorem readAddresses_append (addr : UInt32) (rest : List UInt8) :
    readAddresses ((addressMessage addr).text ++ rest) = addr :: readAddresses rest := by
  have characters : (addressMessage addr).text.map Char.ofUInt8 = addressText addr := by
    refine List.map_map.trans ((List.map_congr_left fun ch member => ?_).trans (List.map_id' _))
    exact ofUInt8_toUInt8 (ascii_addressText member).2
  rw [readAddresses, List.map_append, characters, addressText_eq, List.append_assoc,
    List.singleton_append,
    List.splitOn_append_cons_self_of_not_mem (newline_notMem_addressLine addr),
    List.filterMap_cons_some (readAddress_addressLine addr)]
  rfl

theorem readAddresses_nil : readAddresses [] = [] := by
  decide

/-- The texts of messages are read as their addresses. -/
theorem readAddresses_flatMap (addresses : List UInt32) :
    readAddresses ((addresses.map addressMessage).flatMap Message.text) = addresses := by
  induction addresses with
  | nil => exact readAddresses_nil
  | cons addr rest inductionHypothesis =>
    rw [List.map_cons, List.flatMap_cons, readAddresses_append, inductionHypothesis]

/-! ### What the messages tell -/

/-- The calls of the callback print the changes of the address, each once and in order. -/
theorem cons_addressMessages (address : UInt32) (addresses : List UInt32) :
    addressMessage address :: addressMessages address addresses =
      ((address :: addresses).destutter (· ≠ ·)).map addressMessage := by
  induction addresses generalizing address with
  | nil => rfl
  | cons addr rest inductionHypothesis =>
    rw [addressMessages, ipAddrChanged, List.destutter_cons']
    by_cases changed : addr ≠ address
    · rw [if_pos changed, List.destutter'_cons_pos _ changed.symm, ← List.destutter_cons',
        List.map_cons, ← inductionHypothesis addr]
      rfl
    · rw [if_neg changed, List.destutter'_cons_neg _ fun other => changed other.symm,
        ← List.destutter_cons']
      exact inductionHypothesis address

/-- Whatever the address of the interface is at each call, the bytes that the calls print are read
as its changes. -/
theorem readAddresses_addressMessages (address : UInt32) (addresses : List UInt32) :
    address :: readAddresses ((addressMessages address addresses).flatMap Message.text) =
      (address :: addresses).destutter (· ≠ ·) := by
  have messages := cons_addressMessages address addresses
  calc address :: readAddresses ((addressMessages address addresses).flatMap Message.text)
      = readAddresses ((addressMessage address :: addressMessages address addresses).flatMap
          Message.text) := (readAddresses_append address _).symm
    _ = (address :: addresses).destutter (· ≠ ·) := by rw [messages, readAddresses_flatMap]

/-- The bytes that the callback prints for a sequence of calls tell the changes of the address,
and nothing else: they are the same for two sequences exactly when the changes are. -/
theorem flatMap_text_eq_iff (address : UInt32) (addresses others : List UInt32) :
    (addressMessages address addresses).flatMap Message.text =
        (addressMessages address others).flatMap Message.text ↔
      (address :: addresses).destutter (· ≠ ·) = (address :: others).destutter (· ≠ ·) := by
  constructor
  · intro printed
    rw [← readAddresses_addressMessages, ← readAddresses_addressMessages, printed]
  · intro changes
    have messages := congrArg (List.map addressMessage) changes
    rw [← cons_addressMessages, ← cons_addressMessages] at messages
    rw [(List.cons.inj messages).2]

end RtpLib
