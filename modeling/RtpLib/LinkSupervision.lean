/-
This file settles that link supervision keeps the layers of the interface in
agreement. Four of them are coupled: the local `linkState` of the loop, the flags
of the interface, the DHCP client and the MAC. After every turn of the loop they
agree with the last value read from the PHY, and `ethernetif_update_config` has
run once for each change of the observed state, the state before the first turn
being `down`: the unknown `linkState` makes the first turn call lwIP whatever it
reads, and lwIP drops the call for a link that is already down.
-/

import Mathlib.Data.List.Destutter
import RtpLib.Ethernetif
import RtpLib.Runs

namespace RtpLib

/-! ### The changes of a signal -/

/-- One more sample is a change exactly when it differs from the last one. -/
theorem destutter_concat {Sample : Type} [DecidableEq Sample] (first : Sample)
    (samples : List Sample) (sample : Sample) :
    (first :: (samples ++ [sample])).destutter (· ≠ ·) =
      (first :: samples).destutter (· ≠ ·) ++
        if sample = samples.getLastD first then [] else [sample] := by
  induction samples generalizing first with
  | nil =>
    rw [List.nil_append, List.destutter_pair, List.destutter_singleton, List.getLastD_nil]
    by_cases same : sample = first
    · rw [if_pos same, if_neg (not_not.mpr same.symm)]
      rfl
    · rw [if_neg same, if_pos (Ne.symm same)]
      rfl
  | cons second rest inductionHypothesis =>
    rw [List.cons_append, List.destutter_cons', List.destutter_cons', List.getLastD_cons]
    by_cases same : first = second
    · rw [List.destutter'_cons_neg _ (not_not.mpr same),
        List.destutter'_cons_neg _ (not_not.mpr same), ← same, ← List.destutter_cons',
        ← List.destutter_cons']
      exact inductionHypothesis first
    · rw [List.destutter'_cons_pos _ same, List.destutter'_cons_pos _ same, List.cons_append,
        ← List.destutter_cons', ← List.destutter_cons']
      exact congrArg (first :: ·) (inductionHypothesis second)

/-! ### What a run of the link callback does -/

namespace Interface

variable {constants : EthConstants}

/-- The interface is up with an active DHCP client exactly when the link is. -/
structure Level (interface : Interface) (linked : Bool) : Prop where
  linkUp : interface.netif.linkUp = linked
  up : interface.netif.up = linked
  dhcp : interface.netif.dhcp = linked

theorem notifyConnChanged_eq (netif : Netif) :
    netif.notifyConnChanged.linkUp = netif.linkUp ∧
      netif.notifyConnChanged.up = netif.linkUp ∧
      netif.notifyConnChanged.dhcp = netif.linkUp := by
  unfold Netif.notifyConnChanged
  split
  · rename_i linked
    exact ⟨rfl, linked.symm, linked.symm⟩
  · rename_i lost
    exact ⟨rfl, (Bool.eq_false_iff.mpr lost).symm, (Bool.eq_false_iff.mpr lost).symm⟩

/-- A call of lwIP with the flag that is set already does nothing. -/
theorem setLink_same {callback : Interface → Interface} {interface : Interface} {linked : Bool}
    (level : interface.Level linked) : interface.setLink callback linked = interface :=
  if_pos level.linkUp

/-- A call with the other flag brings the interface to the new level, runs
`ethernetif_update_config` once, and starts or stops the MAC last. -/
theorem setLink_change {interface : Interface} {linked : Bool}
    (negotiation : Negotiation constants) (level : interface.Level (!linked)) :
    (interface.setLink (updateConfig negotiation) linked).Level linked ∧
      (interface.setLink (updateConfig negotiation) linked).updates =
        interface.updates ++ [linked] ∧
      (interface.setLink (updateConfig negotiation) linked).ethHandle.commands.getLast? =
        some (if linked then .start else .stop) := by
  have different : interface.netif.linkUp ≠ linked := by
    rw [level.linkUp]
    cases linked <;> decide
  rw [setLink, if_neg different]
  obtain ⟨linkUp, up, dhcp⟩ := notifyConnChanged_eq { interface.netif with linkUp := linked }
  refine ⟨⟨linkUp, up, dhcp⟩, rfl, ?_⟩
  cases linked with
  | true => exact List.getLast?_concat
  | false => exact List.getLast?_concat

end Interface

/-! ### The agreement of the layers -/

namespace LinkTask

variable {constants : EthConstants}

/-- The link tests of the values read so far. -/
def tests (constants : EthConstants) (task : LinkTask) : List Bool :=
  task.values.map (allSet constants.phyLinkedStatus)

/-- The link test of the last value read; before the first one, the link is down. -/
def linked (constants : EthConstants) (task : LinkTask) : Bool :=
  (task.tests constants).getLastD false

theorem tests_concat (interface : Interface) (linkState : UInt8) (value : UInt32)
    (values : List UInt32) :
    tests constants ⟨interface, linkState, value, values ++ [value]⟩ =
      values.map (allSet constants.phyLinkedStatus) ++ [allSet constants.phyLinkedStatus value] :=
  List.map_append

theorem linked_concat (interface : Interface) (linkState : UInt8) (value : UInt32)
    (values : List UInt32) :
    linked constants ⟨interface, linkState, value, values ++ [value]⟩ =
      allSet constants.phyLinkedStatus value := by
  rw [linked, tests_concat, List.getLastD_concat]

/-- A link that is up has been seen up. -/
theorem mem_tests_of_linked {task : LinkTask} (linked : task.linked constants = true) :
    true ∈ task.tests constants := by
  rw [LinkTask.linked, List.getLastD_eq_getLast?] at linked
  cases last : (task.tests constants).getLast? with
  | none =>
    rw [last] at linked
    exact absurd linked Bool.false_ne_true
  | some test =>
    rw [last] at linked
    obtain rfl : test = true := linked
    exact List.mem_of_getLast? last

/-- The layers agree: the flags of the interface and the DHCP client with the last link test,
the runs of `ethernetif_update_config` with the changes of the test, which alternate, and,
once the link has been up, the MAC with the last test. -/
structure InAgreement (constants : EthConstants) (task : LinkTask) : Prop where
  level : task.interface.Level (task.linked constants)
  updates : false :: task.interface.updates = (false :: task.tests constants).destutter (· ≠ ·)
  alternate : task.interface.updates.IsChain (· ≠ ·)
  mac : true ∈ task.tests constants → task.interface.ethHandle.commands.getLast? =
    some (if task.linked constants then .start else .stop)

/-- The invariant of the loop. -/
structure Supervised (constants : EthConstants) (task : LinkTask) : Prop where
  level : task.interface.Level (task.linked constants)
  state : task.linkState = 1 ↔ task.linked constants = true
  updates : false :: task.interface.updates = (false :: task.tests constants).destutter (· ≠ ·)
  mac : true ∈ task.tests constants → task.interface.ethHandle.commands.getLast? =
    some (if task.linked constants then .start else .stop)

namespace Supervised

variable {task : LinkTask}

theorem inAgreement (supervised : Supervised constants task) : InAgreement constants task := by
  have alternate : (false :: task.interface.updates).IsChain (· ≠ ·) := by
    rw [supervised.updates]
    exact List.isChain_destutter _ _
  exact ⟨supervised.level, supervised.updates, alternate.tail, supervised.mac⟩

/-- Whatever `linkState` is, a turn calls lwIP with the test of the value read, or would have
called it to no effect. -/
theorem turn_eq (supervised : Supervised constants task) (poll : LinkPoll constants)
    (value : UInt32) (read : value = readPhyRegister poll.read task.regvalue) (test : Bool)
    (tested : test = allSet constants.phyLinkedStatus value) :
    task.turn poll = {
      interface := task.interface.setLink (Interface.updateConfig poll.negotiation) test
      linkState := if test then 1 else 0
      regvalue := value
      values := task.values ++ [value] } := by
  unfold turn
  simp only [← read, ← tested]
  cases test with
  | true =>
    by_cases known : task.linkState = 1
    · have linked : task.linked constants = true := supervised.state.mp known
      have same : task.interface.setLink (Interface.updateConfig poll.negotiation) true =
          task.interface := Interface.setLink_same (linked ▸ supervised.level)
      simp [known, same]
    · simp [known]
  | false =>
    by_cases known : task.linkState = 0
    · have unlinked : task.linked constants = false := by
        rw [← Bool.not_eq_true, ← supervised.state, known]
        decide
      have same : task.interface.setLink (Interface.updateConfig poll.negotiation) false =
          task.interface := Interface.setLink_same (unlinked ▸ supervised.level)
      simp [known, same]
    · simp [known]

/-- Every turn keeps the layers in agreement. -/
theorem turn (supervised : Supervised constants task) (poll : LinkPoll constants) :
    Supervised constants (task.turn poll) := by
  obtain ⟨value, read⟩ : ∃ value, value = readPhyRegister poll.read task.regvalue := ⟨_, rfl⟩
  obtain ⟨test, tested⟩ : ∃ test, test = allSet constants.phyLinkedStatus value := ⟨_, rfl⟩
  have updates : (false :: (task.tests constants ++ [test])).destutter (· ≠ ·) =
      false :: task.interface.updates ++
        if test = task.linked constants then [] else [test] := by
    rw [destutter_concat, ← supervised.updates]
    rfl
  have state : (if test then 1 else 0 : UInt8) = 1 ↔ test = true := by cases test <;> decide
  rw [supervised.turn_eq poll value read test tested]
  by_cases same : test = task.linked constants
  · have level : task.interface.Level test := same ▸ supervised.level
    rw [if_pos same, List.append_nil] at updates
    refine ⟨?_, ?_, ?_, ?_⟩
    all_goals simp only [linked_concat, tests_concat, ← tested, Interface.setLink_same level]
    · exact level
    · exact state
    · exact updates.symm
    · intro member
      have earlier : true ∈ task.tests constants := by
        rcases List.mem_append.mp member with earlier | latest
        · exact earlier
        · exact mem_tests_of_linked (same.symm.trans (List.mem_singleton.mp latest).symm)
      rw [same]
      exact supervised.mac earlier
  · have level : task.interface.Level (!test) := by
      rw [Bool.eq_not_of_ne same, Bool.not_not]
      exact supervised.level
    obtain ⟨level, recorded, mac⟩ := Interface.setLink_change poll.negotiation level
    rw [if_neg same] at updates
    refine ⟨?_, ?_, ?_, ?_⟩
    all_goals simp only [linked_concat, tests_concat, ← tested]
    · exact level
    · exact state
    · rw [recorded]
      exact updates.symm
    · exact fun _ => mac

end Supervised

/-- The layers are in agreement before the first turn. -/
theorem supervised_start (constants : EthConstants) :
    Supervised constants (start constants) := by
  have unknown : (2 : UInt8) ≠ 1 := by decide
  exact ⟨⟨rfl, rfl, rfl⟩, ⟨fun known => absurd known unknown, nofun⟩, rfl, nofun⟩

/-- The values that the loop reads, one a poll: what `HAL_ETH_ReadPHYRegister` leaves in
`regvalue`, which is the last value when the read fails. -/
def valuesRead : UInt32 → List (LinkPoll constants) → List UInt32
  | _, [] => []
  | regvalue, poll :: rest =>
    let value := readPhyRegister poll.read regvalue
    value :: valuesRead value rest

theorem turn_read (task : LinkTask) (poll : LinkPoll constants) :
    (task.turn poll).regvalue = readPhyRegister poll.read task.regvalue ∧
      (task.turn poll).values = task.values ++ [readPhyRegister poll.read task.regvalue] := by
  rw [turn]
  dsimp only
  split
  · exact ⟨rfl, rfl⟩
  · split <;> exact ⟨rfl, rfl⟩

theorem values_of_run {polls : List (LinkPoll constants)} {task last : LinkTask}
    (reached : Runs.run step task polls = some last) :
    last.values = task.values ++ valuesRead task.regvalue polls := by
  induction polls generalizing task with
  | nil =>
    cases reached
    exact (List.append_nil _).symm
  | cons poll rest inductionHypothesis =>
    obtain ⟨_, ⟨⟩, reached⟩ := Runs.run_cons_eq_some.mp reached
    obtain ⟨regvalue, values⟩ := task.turn_read poll
    rw [inductionHypothesis reached, regvalue, values, List.append_assoc]
    rfl

/-- After every turn of the loop, for any values read from the PHY and any outcomes of the
auto-negotiations, the layers of the interface are in agreement with the values that the polls have
left in `regvalue`. -/
theorem inAgreement_everyState (constants : EthConstants) (polls : List (LinkPoll constants)) :
    Runs.EveryState step (InAgreement constants) (start constants) polls ∧
      ∀ last, Runs.run step (start constants) polls = some last →
        last.values = valuesRead 0 polls := by
  have keep : ∀ task (poll : LinkPoll constants) next, Supervised constants task →
      step task poll = some next → Supervised constants next := by
    intro task poll next supervised taken
    cases taken
    exact supervised.turn poll
  exact ⟨Runs.everyState_of_step (fun _ => Supervised.inAgreement) keep
    (supervised_start constants) polls, fun _ => values_of_run⟩

/-- The link is down, comes up, stays up and is lost. -/
example :
    let constants : EthConstants := ⟨0x1000, 0x20, 4, 0x10, 4, 0, 1, 0, 0x4000, 0, 0x800⟩
    let poll (read : UInt32) : LinkPoll constants := ⟨some read, .timedOut constants⟩
    let task := [0, 4, 4, 0].foldl (fun task read => task.turn (poll read)) (start constants)
    task.interface.updates = [true, false] ∧
      task.interface.ethHandle.commands = [.start, .configMAC, .start, .stop] := by decide

end LinkTask

end RtpLib
