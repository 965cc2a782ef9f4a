/-
This file models the link supervision of `ethernetif.c` and `app_ethernet.c`: the
loop that polls the PHY, the link callback that reconfigures the MAC, and the
notification that brings the interface and its DHCP client up and down.

The drivers and the network stack are no part of the source. Of lwIP, the model
has the flags of the interface and the documented effect of the calls on them; of
the MAC driver, the commands it is given; of the PHY, the values that the reads
return, where a read that fails leaves its variable alone. The constants of the
vendor's headers are a parameter.
-/

import Mathlib.Data.List.Basic

namespace RtpLib

/-- The constants of the vendor's headers. -/
structure EthConstants where
  phyAutonegotiation : UInt32
  phyAutonegoComplete : UInt32
  phyLinkedStatus : UInt32
  phyDuplexStatus : UInt32
  phySpeedStatus : UInt32
  ethAutonegotiationDisable : UInt32
  ethAutonegotiationEnable : UInt32
  ethSpeed10M : UInt32
  ethSpeed100M : UInt32
  ethModeHalfduplex : UInt32
  ethModeFullduplex : UInt32

/-! ### The handle of the MAC -/

/-- The commands given to the MAC. -/
inductive MacCommand
  | configMAC
  | start
  | stop
  deriving DecidableEq

/-- The fields of `EthHandle.Init` that the link supervision reads or writes. -/
structure EthInit where
  autoNegotiation : UInt32
  speed : UInt32
  duplexMode : UInt32

/-- `EthHandle`, with the values written to `PHY_BCR` and the commands given, oldest first. -/
structure EthHandle where
  init : EthInit
  phyBcr : List UInt32
  commands : List MacCommand

namespace EthHandle

/-- `HAL_ETH_WritePHYRegister(&EthHandle, PHY_BCR, ..)` -/
def writePhyBcr (handle : EthHandle) (value : UInt32) : EthHandle :=
  { handle with phyBcr := handle.phyBcr ++ [value] }

/-- `HAL_ETH_ConfigMAC`, `HAL_ETH_Start` or `HAL_ETH_Stop` -/
def command (handle : EthHandle) (command : MacCommand) : EthHandle :=
  { handle with commands := handle.commands ++ [command] }

/-- What `low_level_init` leaves of the handle. -/
def lowLevelInit (constants : EthConstants) : EthHandle :=
  let handle : EthHandle := {
    init := {
      autoNegotiation := constants.ethAutonegotiationEnable
      speed := constants.ethSpeed100M
      duplexMode := constants.ethModeFullduplex }
    phyBcr := []
    commands := [] }
  handle.command .start

end EthHandle

/-! ### The auto-negotiation -/

/-- A read of a PHY register into a variable; `none` when it fails. -/
def readPhyRegister (read : Option UInt32) (regvalue : UInt32) : UInt32 := read.getD regvalue

/-- `(regvalue & mask) == mask` -/
def allSet (mask regvalue : UInt32) : Bool := regvalue &&& mask == mask

/-- How the wait for the auto-negotiation ends. -/
inductive WaitResult
  | complete (regvalue : UInt32)
  | timeout

/-- The loop that waits for the auto-negotiation: each turn reads `PHY_BSR` and then the tick.
`none` when the reads are used up and the loop has not ended. -/
def waitComplete (constants : EthConstants) (tickstart : UInt32) :
    UInt32 → List (Option UInt32 × UInt32) → Option WaitResult
  | _, [] => none
  | regvalue, (read, tick) :: rest =>
    let regvalue := readPhyRegister read regvalue
    if tick - tickstart > 1000 then some .timeout
    else if allSet constants.phyAutonegoComplete regvalue then some (.complete regvalue)
    else waitComplete constants tickstart regvalue rest

/-- The loop ends by the first turn that is more than a second after its start. -/
theorem waitComplete_isSome (constants : EthConstants) (tickstart regvalue : UInt32)
    (turns : List (Option UInt32 × UInt32))
    (elapsed : ∃ turn ∈ turns, turn.2 - tickstart > 1000) :
    (waitComplete constants tickstart regvalue turns).isSome = true := by
  induction turns generalizing regvalue with
  | nil =>
    obtain ⟨turn, member, _⟩ := elapsed
    exact absurd member List.not_mem_nil
  | cons turn rest inductionHypothesis =>
    obtain ⟨read, tick⟩ := turn
    simp only [waitComplete]
    split
    · rfl
    · rename_i early
      split
      · rfl
      · refine inductionHypothesis _ ?_
        obtain ⟨late, member, elapsed⟩ := elapsed
        rcases List.mem_cons.mp member with rfl | member
        · exact absurd elapsed early
        · exact ⟨late, member, elapsed⟩

/-- What one run of `ethernetif_update_config` meets: the tick at the start of the wait, the
turns of the wait, among them the one that ends it, and the read of `PHY_SR`. -/
structure Negotiation (constants : EthConstants) where
  tickstart : UInt32
  turns : List (Option UInt32 × UInt32)
  status : Option UInt32
  ends : (waitComplete constants tickstart 0 turns).isSome = true

namespace Negotiation

variable {constants : EthConstants}

/-- How the wait ends. -/
def result (negotiation : Negotiation constants) : WaitResult :=
  (waitComplete constants negotiation.tickstart 0 negotiation.turns).get negotiation.ends

/-- A PHY that does not answer for more than a second. -/
def timedOut (constants : EthConstants) : Negotiation constants where
  tickstart := 0
  turns := [(none, 1001)]
  status := none
  ends := waitComplete_isSome constants 0 0 _ ⟨_, List.mem_singleton_self _, by decide⟩

end Negotiation

/-! ### The interface -/

/-- An IPv4 address, by `IP4_ADDR`. -/
structure Ip4Addr where
  addr : UInt8 × UInt8 × UInt8 × UInt8

/-- What lwIP keeps of `gnetif`: its flags, whether its DHCP client is active, and its
addresses. -/
structure Netif where
  linkUp : Bool
  up : Bool
  dhcp : Bool
  ipaddr : Ip4Addr
  netmask : Ip4Addr
  gw : Ip4Addr

/-- The interface and the MAC, with the link flag that each run of `ethernetif_update_config`
has found, oldest first. -/
structure Interface where
  netif : Netif
  ethHandle : EthHandle
  updates : List Bool

namespace Netif

/-- The addresses that `Netif_Config` and `ethernetif_notify_conn_changed` set. -/
def setAddr (netif : Netif) : Netif :=
  { netif with
    ipaddr := ⟨192, 168, 5, 150⟩
    netmask := ⟨255, 255, 255, 0⟩
    gw := ⟨192, 168, 5, 1⟩ }

/-- `netif_set_up` and `netif_set_down` -/
def setUp (netif : Netif) (up : Bool) : Netif := { netif with up := up }

/-- `dhcp_start`, which succeeds, and `dhcp_stop` -/
def setDhcp (netif : Netif) (dhcp : Bool) : Netif := { netif with dhcp := dhcp }

/-- `ethernetif_notify_conn_changed` -/
def notifyConnChanged (netif : Netif) : Netif :=
  if netif.linkUp then ((netif.setUp true).setAddr).setDhcp true
  else (netif.setDhcp false).setUp false

end Netif

namespace EthHandle

variable {constants : EthConstants}

/-- The modes that the value of `PHY_SR` stands for. -/
def setModes (constants : EthConstants) (regvalue : UInt32) (handle : EthHandle) : EthHandle :=
  let duplexMode := if regvalue &&& constants.phyDuplexStatus ≠ 0 then
    constants.ethModeFullduplex else constants.ethModeHalfduplex
  let speed := if regvalue &&& constants.phySpeedStatus ≠ 0 then
    constants.ethSpeed10M else constants.ethSpeed100M
  { handle with init := { handle.init with duplexMode := duplexMode, speed := speed } }

/-- From the label `error` on: the modes of the MAC are written to the PHY. -/
def writeModes (handle : EthHandle) : EthHandle :=
  handle.writePhyBcr ((handle.init.duplexMode >>> 3).toUInt16.toUInt32 |||
    (handle.init.speed >>> 1).toUInt16.toUInt32)

/-- The part of `ethernetif_update_config` for a link that is up. -/
def restart (negotiation : Negotiation constants) (handle : EthHandle) : EthHandle :=
  let handle :=
    if handle.init.autoNegotiation ≠ constants.ethAutonegotiationDisable then
      let handle := handle.writePhyBcr constants.phyAutonegotiation
      match negotiation.result with
      | .complete regvalue =>
        handle.setModes constants (readPhyRegister negotiation.status regvalue)
      | .timeout => handle.writeModes
    else handle.writeModes
  (handle.command .configMAC).command .start

end EthHandle

namespace Interface

variable {constants : EthConstants}

/-- `ethernetif_update_config`, recorded. -/
def updateConfig (negotiation : Negotiation constants) (interface : Interface) : Interface where
  ethHandle :=
    if interface.netif.linkUp then interface.ethHandle.restart negotiation
    else interface.ethHandle.command .stop
  netif := interface.netif.notifyConnChanged
  updates := interface.updates ++ [interface.netif.linkUp]

/-- `netif_set_link_up` and `netif_set_link_down`, which act only on a change, and then call the
link callback. -/
def setLink (callback : Interface → Interface) (linkUp : Bool) (interface : Interface) :
    Interface :=
  if interface.netif.linkUp = linkUp then interface
  else callback { interface with netif := { interface.netif with linkUp := linkUp } }

/-- What `Netif_Config` leaves: `netif_add` clears the flags, sets the addresses and runs
`ethernetif_init`. -/
def netifConfig (constants : EthConstants) : Interface where
  netif := Netif.setAddr ⟨false, false, false, ⟨0, 0, 0, 0⟩, ⟨0, 0, 0, 0⟩, ⟨0, 0, 0, 0⟩⟩
  ethHandle := .lowLevelInit constants
  updates := []

end Interface

/-! ### The loop of `ethernetif_set_link` -/

/-- The task: the interface, its variables, and the values of `PHY_BSR` it has had, oldest
first. -/
structure LinkTask where
  interface : Interface
  linkState : UInt8
  regvalue : UInt32
  values : List UInt32

/-- One turn of the loop: the read of `PHY_BSR`, and what a run of the link callback would
meet. -/
structure LinkPoll (constants : EthConstants) where
  read : Option UInt32
  negotiation : Negotiation constants

namespace LinkTask

variable {constants : EthConstants}

/-- The task before its loop; `2` is the unknown state. -/
def start (constants : EthConstants) : LinkTask := ⟨.netifConfig constants, 2, 0, []⟩

/-- One turn of the loop, with `ethernetif_update_config` as the link callback. -/
def turn (task : LinkTask) (poll : LinkPoll constants) : LinkTask :=
  let regvalue := readPhyRegister poll.read task.regvalue
  let task := { task with regvalue := regvalue, values := task.values ++ [regvalue] }
  let callback := Interface.updateConfig poll.negotiation
  if allSet constants.phyLinkedStatus regvalue ∧ task.linkState ≠ 1 then
    { task with linkState := 1, interface := task.interface.setLink callback true }
  else if ¬ allSet constants.phyLinkedStatus regvalue ∧ task.linkState ≠ 0 then
    { task with linkState := 0, interface := task.interface.setLink callback false }
  else task

/-- The loop never ends and no turn of it fails. -/
def step (task : LinkTask) (poll : LinkPoll constants) : Option LinkTask := some (task.turn poll)

end LinkTask

end RtpLib
