/-
This file says what a run of the link supervision does to the MAC and to the PHY, in
terms of the values read alone. The history of the link is the list of its changes:
a link that comes up, with the negotiation that is then made, or a link that is lost.
The handle of the MAC follows the history, whatever was read between two changes.

So the whole record can be read off the history: the commands given to the MAC, the
modes it has, which are those of the last negotiation that came to its end, and the
values written to the control register of the PHY, where a negotiation that is timed
out imposes these modes.
-/

import RtpLib.AutoNegotiation
import RtpLib.LinkSupervision

namespace RtpLib

variable {constants : EthConstants}

/-! ### The history of the link -/

/-- A change of the link: up, with the negotiation made, or down. -/
inductive LinkChange (constants : EthConstants)
  | up (negotiation : Negotiation constants)
  | down

/-- The changes of the link that a run of polls sees, after the value last read. -/
def linkChanges (linked : Bool) (regvalue : UInt32) :
    List (LinkPoll constants) → List (LinkChange constants)
  | [] => []
  | poll :: rest =>
    let value := readPhyRegister poll.read regvalue
    let test := allSet constants.phyLinkedStatus value
    if test = linked then linkChanges test value rest
    else (if test then .up poll.negotiation else .down) :: linkChanges test value rest

namespace Negotiation

/-- The modes that a negotiation agrees on, if it comes to its end. -/
def agreed (negotiation : Negotiation constants) : Option (UInt32 × UInt32) :=
  match negotiation.result with
  | .complete regvalue => some (phyModes constants (readPhyRegister negotiation.status regvalue))
  | .timeout => none

end Negotiation

namespace LinkChange

/-- The modes that a change agrees on. -/
def agreed : LinkChange constants → Option (UInt32 × UInt32)
  | .up negotiation => negotiation.agreed
  | .down => none

/-- The commands that a change gives to the MAC. -/
def commands : LinkChange constants → List MacCommand
  | .up _ => [.configMAC, .start]
  | .down => [.stop]

/-- The handle after a change. -/
def follow (handle : EthHandle) : LinkChange constants → EthHandle
  | .up negotiation => handle.restart negotiation
  | .down => handle.command .stop

end LinkChange

/-- The value of `PHY_BCR` that stands for the modes of the MAC. -/
def bcrOfModes (modes : UInt32 × UInt32) : UInt32 :=
  (modes.1 >>> 3).toUInt16.toUInt32 ||| (modes.2 >>> 1).toUInt16.toUInt32

/-- The values that a history writes to `PHY_BCR`, from the modes of the MAC on. -/
def bcrWrites (modes : UInt32 × UInt32) : List (LinkChange constants) → List UInt32
  | [] => []
  | .down :: rest => bcrWrites modes rest
  | .up negotiation :: rest =>
    constants.phyAutonegotiation ::
      match negotiation.agreed with
      | some modes => bcrWrites modes rest
      | none => bcrOfModes modes :: bcrWrites modes rest

/-- The modes that the MAC has before its first negotiation. -/
def initialModes (constants : EthConstants) : UInt32 × UInt32 :=
  (constants.ethModeFullduplex, constants.ethSpeed100M)

/-- What `assert_param` asks of the modes at the label `error`. -/
structure LegalModes (constants : EthConstants) (modes : UInt32 × UInt32) : Prop where
  duplex : modes.1 = constants.ethModeFullduplex ∨ modes.1 = constants.ethModeHalfduplex
  speed : modes.2 = constants.ethSpeed10M ∨ modes.2 = constants.ethSpeed100M

theorem legalModes_phyModes (value : UInt32) : LegalModes constants (phyModes constants value) where
  duplex := by
    unfold phyModes
    dsimp only
    split
    · exact .inl rfl
    · exact .inr rfl
  speed := by
    unfold phyModes
    dsimp only
    split
    · exact .inl rfl
    · exact .inr rfl

/-- A change agrees on legal modes only. -/
theorem LinkChange.legalModes_agreed {change : LinkChange constants} {modes : UInt32 × UInt32}
    (agreed : change.agreed = some modes) : LegalModes constants modes := by
  cases change with
  | down => cases agreed
  | up negotiation =>
    rw [LinkChange.agreed, Negotiation.agreed] at agreed
    cases ended : negotiation.result with
    | timeout =>
      rw [ended] at agreed
      cases agreed
    | complete regvalue =>
      rw [ended] at agreed
      cases agreed
      exact legalModes_phyModes _

/-! ### The handle follows the history -/

namespace LinkTask

namespace Supervised

variable {task : LinkTask}

/-- A turn that sees no change leaves the handle alone, and a turn that sees one is a step of
the history. -/
theorem turn_follows (supervised : Supervised constants task) (poll : LinkPoll constants)
    (value : UInt32) (read : value = readPhyRegister poll.read task.regvalue) (test : Bool)
    (tested : test = allSet constants.phyLinkedStatus value) :
    (task.turn poll).linked constants = test ∧ (task.turn poll).regvalue = value ∧
      (task.turn poll).interface.ethHandle =
        if test = task.linked constants then task.interface.ethHandle
        else LinkChange.follow task.interface.ethHandle
          (if test then .up poll.negotiation else .down) := by
  rw [supervised.turn_eq poll value read test tested]
  refine ⟨(linked_concat _ _ _ _).trans tested.symm, rfl, ?_⟩
  dsimp only
  by_cases same : test = task.linked constants
  · have level : task.interface.Level test := same ▸ supervised.level
    rw [Interface.setLink_same level, if_pos same]
  · have different : task.interface.netif.linkUp ≠ test := by
      rw [supervised.level.linkUp]
      exact Ne.symm same
    rw [Interface.setLink, if_neg different, if_neg same]
    cases test with
    | true => rfl
    | false => rfl

/-- Along a run, the handle follows the history of the link. -/
theorem run_follows (supervised : Supervised constants task) {polls : List (LinkPoll constants)}
    {last : LinkTask} (reached : Runs.run step task polls = some last) :
    last.interface.ethHandle =
      (linkChanges (task.linked constants) task.regvalue polls).foldl LinkChange.follow
        task.interface.ethHandle := by
  induction polls generalizing task with
  | nil =>
    cases reached
    rfl
  | cons poll rest inductionHypothesis =>
    obtain ⟨next, taken, reached⟩ := Runs.run_cons_eq_some.mp reached
    cases taken
    obtain ⟨linked, regvalue, handle⟩ := supervised.turn_follows poll _ rfl _ rfl
    rw [inductionHypothesis (supervised.turn poll) reached, linked, regvalue, handle, linkChanges]
    by_cases same : allSet constants.phyLinkedStatus (readPhyRegister poll.read task.regvalue) =
        task.linked constants
    · rw [if_pos same, if_pos same]
    · rw [if_neg same, if_neg same]
      rfl

end Supervised

end LinkTask

/-! ### The record of a history -/

namespace EthHandle

/-- What a run for a link that is up does to the handle: when the negotiation is timed out, the
modes of the MAC are kept and imposed on the PHY. -/
theorem restart_eq (negotiation : Negotiation constants) (handle : EthHandle)
    (enabled : handle.init.autoNegotiation ≠ constants.ethAutonegotiationDisable) :
    (handle.restart negotiation).init.autoNegotiation = handle.init.autoNegotiation ∧
      (handle.restart negotiation).commands = handle.commands ++ [.configMAC, .start] ∧
      (handle.restart negotiation).modes = negotiation.agreed.getD handle.modes ∧
      (handle.restart negotiation).phyBcr = handle.phyBcr ++
        constants.phyAutonegotiation :: match negotiation.agreed with
          | some _ => []
          | none => [bcrOfModes handle.modes] := by
  rw [restart, Negotiation.agreed]
  dsimp only
  rw [if_pos enabled]
  cases negotiation.result with
  | complete regvalue => exact ⟨rfl, List.append_assoc _ _ _, rfl, rfl⟩
  | timeout => exact ⟨rfl, List.append_assoc _ _ _, rfl, List.append_assoc _ _ _⟩

/-- What a handle is after a history: its commands, the values written to the PHY, and its
modes. -/
structure Records (changes : List (LinkChange constants)) (before after : EthHandle) : Prop where
  commands : after.commands = before.commands ++ changes.flatMap LinkChange.commands
  phyBcr : after.phyBcr = before.phyBcr ++ bcrWrites before.modes changes
  modes : after.modes = (changes.filterMap LinkChange.agreed).getLastD before.modes

/-- A handle with the auto-negotiation enabled records the history that it follows. -/
theorem records_follow (changes : List (LinkChange constants)) (handle : EthHandle)
    (enabled : handle.init.autoNegotiation ≠ constants.ethAutonegotiationDisable) :
    Records changes handle (changes.foldl LinkChange.follow handle) := by
  induction changes generalizing handle with
  | nil => exact ⟨(List.append_nil _).symm, (List.append_nil _).symm, rfl⟩
  | cons change rest inductionHypothesis =>
    cases change with
    | down =>
      obtain ⟨commands, phyBcr, modes⟩ := inductionHypothesis (handle.command .stop) enabled
      exact ⟨commands.trans (List.append_assoc _ _ _), phyBcr, modes⟩
    | up negotiation =>
      obtain ⟨init, given, modes_after, written⟩ := handle.restart_eq negotiation enabled
      obtain ⟨commands, phyBcr, modes⟩ :=
        inductionHypothesis (handle.restart negotiation) (init ▸ enabled)
      rw [given, List.append_assoc] at commands
      rw [written, modes_after, List.append_assoc] at phyBcr
      rw [modes_after] at modes
      refine ⟨commands, phyBcr.trans ?_, modes.trans ?_⟩
      · rw [bcrWrites]
        cases negotiation.agreed with
        | some modes => rfl
        | none => rfl
      · have agreed : (LinkChange.up negotiation).agreed = negotiation.agreed := rfl
        cases found : negotiation.agreed with
        | some modes =>
          rw [List.filterMap_cons_some (agreed.trans found), List.getLastD_cons]
          rfl
        | none =>
          rw [List.filterMap_cons_none (agreed.trans found)]
          rfl

end EthHandle

/-! ### Every run of the loop -/

/-- For any values read from the PHY and any outcomes of the negotiations, after a run of the loop
of `ethernetif_set_link` the commands given to the MAC are those of the changes of the link, the
modes of the MAC are those of the last negotiation that came to its end, and the PHY was told to
negotiate at each rise of the link and given these modes when it did not answer in time; and the
modes pass the assertions. -/
theorem handle_of_run (constants : EthConstants)
    (enabled : constants.ethAutonegotiationEnable ≠ constants.ethAutonegotiationDisable)
    (polls : List (LinkPoll constants)) (last : LinkTask)
    (reached : Runs.run LinkTask.step (LinkTask.start constants) polls = some last) :
    last.interface.ethHandle.commands =
        .start :: (linkChanges false 0 polls).flatMap LinkChange.commands ∧
      last.interface.ethHandle.modes =
        ((linkChanges false 0 polls).filterMap LinkChange.agreed).getLastD
          (initialModes constants) ∧
      last.interface.ethHandle.phyBcr =
        bcrWrites (initialModes constants) (linkChanges false 0 polls) ∧
      LegalModes constants last.interface.ethHandle.modes := by
  have follows : last.interface.ethHandle =
      (linkChanges false 0 polls).foldl LinkChange.follow (.lowLevelInit constants) :=
    (LinkTask.supervised_start constants).run_follows reached
  have records := EthHandle.records_follow (linkChanges false 0 polls) (.lowLevelInit constants)
    enabled
  rw [← follows] at records
  refine ⟨records.commands, records.modes, records.phyBcr, ?_⟩
  have found : last.interface.ethHandle.modes ∈ initialModes constants ::
      (linkChanges false 0 polls).filterMap LinkChange.agreed := by
    rw [records.modes]
    exact List.getLastD_mem_cons
  rcases List.mem_cons.mp found with initial | member
  · rw [initial]
    exact ⟨.inl rfl, .inr rfl⟩
  · obtain ⟨change, _, agreed⟩ := List.mem_filterMap.mp member
    exact change.legalModes_agreed agreed

/-- The link comes up and the PHY does not answer in time; the modes of the MAC are imposed. -/
theorem handle_of_run_timedOut :
    let polls : List (LinkPoll .common) := [⟨some 4, .timedOut _⟩, ⟨some 0, .timedOut _⟩]
    let handle := (polls.foldl LinkTask.turn (LinkTask.start .common)).interface.ethHandle
    handle.commands = [.start, .configMAC, .start, .stop] ∧
      handle.phyBcr = [0x1000, 0x2100] ∧ handle.modes = (0x800, 0x4000) := by
  intro polls handle
  obtain ⟨commands, modes, written, _⟩ := handle_of_run .common (by decide) polls _ (by rfl)
  refine ⟨commands.trans (by decide), ?_, ?_⟩
  · exact written.trans (by decide)
  · exact modes.trans (by decide)

end RtpLib
