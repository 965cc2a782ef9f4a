/-
This file settles where `ethernetif_update_config` takes the modes of the MAC from.
One variable serves two registers: the wait polls `PHY_BSR` into it until the
auto-negotiation is complete, and the result is then read from `PHY_SR` into it. The
status of that read is ignored. When it fails, the modes are taken from the bits of
`PHY_BSR` that happen to stand where `PHY_SR` has its own.

The wait is described by its turns alone. It ends with a value exactly when one of
the turns reads it in time and complete, and no turn before was late or complete.
-/

import RtpLib.Ethernetif

namespace RtpLib

variable {constants : EthConstants}

/-! ### How the wait ends -/

/-- A turn of the wait that is more than a second after its start. -/
def Late (tickstart : UInt32) (turn : Option UInt32 × UInt32) : Prop := turn.2 - tickstart > 1000

/-- A turn of the wait that reads a value with the auto-negotiation complete. -/
def ReadsComplete (constants : EthConstants) (turn : Option UInt32 × UInt32) : Prop :=
  ∃ value, turn.1 = some value ∧ allSet constants.phyAutonegoComplete value = true

/-- Among the turns of the wait, one reads the value in time and complete, and no turn before it
is late or reads a complete value. -/
def Completes (constants : EthConstants) (tickstart : UInt32)
    (turns : List (Option UInt32 × UInt32)) (value : UInt32) : Prop :=
  ∃ before tick after, turns = before ++ (some value, tick) :: after ∧
    allSet constants.phyAutonegoComplete value = true ∧ ¬ Late tickstart (some value, tick) ∧
    ∀ turn ∈ before, ¬ Late tickstart turn ∧ ¬ ReadsComplete constants turn

theorem not_readsComplete_none (tick : UInt32) : ¬ ReadsComplete constants (none, tick) := by
  rintro ⟨_, read, _⟩
  cases read

theorem readsComplete_some_iff (value tick : UInt32) :
    ReadsComplete constants (some value, tick) ↔
      allSet constants.phyAutonegoComplete value = true := by
  refine ⟨fun reads => ?_, fun complete => ⟨value, rfl, complete⟩⟩
  obtain ⟨other, read, complete⟩ := reads
  cases read
  exact complete

theorem not_completes_nil (tickstart value : UInt32) :
    ¬ Completes constants tickstart [] value := by
  rintro ⟨before, tick, after, turns, _⟩
  cases before with
  | nil => cases turns
  | cons first before => cases turns

/-- The first turn completes the wait, or it lets the rest do so. -/
theorem completes_cons_iff (tickstart value : UInt32) (turn : Option UInt32 × UInt32)
    (rest : List (Option UInt32 × UInt32)) :
    Completes constants tickstart (turn :: rest) value ↔
      ¬ Late tickstart turn ∧
        (turn.1 = some value ∧ allSet constants.phyAutonegoComplete value = true ∨
          ¬ ReadsComplete constants turn ∧ Completes constants tickstart rest value) := by
  constructor
  · rintro ⟨before, tick, after, turns, complete, early, earlier⟩
    cases before with
    | nil =>
      obtain ⟨rfl, rfl⟩ := List.cons_eq_cons.mp turns
      exact ⟨early, .inl ⟨rfl, complete⟩⟩
    | cons first before =>
      obtain ⟨rfl, rfl⟩ := List.cons_eq_cons.mp turns
      obtain ⟨first_early, incomplete⟩ := earlier turn List.mem_cons_self
      exact ⟨first_early, .inr ⟨incomplete, before, tick, after, rfl, complete, early,
        fun other member => earlier other (List.mem_cons_of_mem _ member)⟩⟩
  · rintro ⟨early, ⟨read, complete⟩ | ⟨incomplete, completes⟩⟩
    · obtain ⟨_, tick⟩ := turn
      obtain rfl := read
      exact ⟨[], tick, rest, rfl, complete, early, fun _ member => absurd member List.not_mem_nil⟩
    · obtain ⟨before, tick, after, rfl, complete, last, earlier⟩ := completes
      refine ⟨turn :: before, tick, after, rfl, complete, last, fun other member => ?_⟩
      rcases List.mem_cons.mp member with rfl | member
      · exact ⟨early, incomplete⟩
      · exact earlier other member

/-- Started on an incomplete value, the wait ends with a value exactly when its turns complete
with it: a read that fails leaves the incomplete value alone. -/
theorem waitComplete_eq_complete_iff (tickstart value regvalue : UInt32)
    (incomplete : ¬ allSet constants.phyAutonegoComplete regvalue = true)
    (turns : List (Option UInt32 × UInt32)) :
    waitComplete constants tickstart regvalue turns = some (.complete value) ↔
      Completes constants tickstart turns value := by
  induction turns generalizing regvalue with
  | nil =>
    refine iff_of_false (fun ends => ?_) (not_completes_nil tickstart value)
    cases ends
  | cons turn rest inductionHypothesis =>
    obtain ⟨read, tick⟩ := turn
    rw [completes_cons_iff, waitComplete]
    simp only
    by_cases late : tick - tickstart > 1000
    · rw [if_pos late]
      refine iff_of_false (fun ends => ?_) fun completes => completes.1 late
      cases ends
    · rw [if_neg late, and_iff_right (show ¬ Late tickstart (read, tick) from late)]
      cases read with
      | none =>
        rw [readPhyRegister, Option.getD_none, if_neg incomplete,
          inductionHypothesis regvalue incomplete, and_iff_right (not_readsComplete_none tick)]
        refine (or_iff_right fun read => ?_).symm
        cases read.1
      | some other =>
        rw [readPhyRegister, Option.getD_some, readsComplete_some_iff]
        by_cases complete : allSet constants.phyAutonegoComplete other = true
        · rw [if_pos complete, or_iff_left fun later => later.1 complete]
          refine ⟨fun ends => ?_, fun read => ?_⟩
          · cases ends
            exact ⟨rfl, complete⟩
          · cases read.1
            rfl
        · rw [if_neg complete, inductionHypothesis other complete, and_iff_right complete]
          refine (or_iff_right fun read => ?_).symm
          cases read.1
          exact complete read.2

/-- A register value of zero is incomplete, whatever the bits of the mask, if it has any. -/
theorem not_allSet_zero {mask : UInt32} (bits : mask ≠ 0) : ¬ allSet mask 0 = true := by
  rw [allSet, UInt32.zero_and, beq_iff_eq]
  exact bits.symm

namespace Negotiation

/-- How the wait of a run ends, read off its turns. -/
theorem result_eq_complete_iff (bits : constants.phyAutonegoComplete ≠ 0)
    (negotiation : Negotiation constants) (value : UInt32) :
    negotiation.result = .complete value ↔
      Completes constants negotiation.tickstart negotiation.turns value := by
  rw [← waitComplete_eq_complete_iff _ _ 0 (not_allSet_zero bits), result,
    Option.eq_some_iff_get_eq]
  exact ⟨fun same => ⟨negotiation.ends, same⟩, fun ⟨_, same⟩ => same⟩

end Negotiation

/-! ### Where the modes come from -/

/-- The modes that a value of `PHY_SR` stands for. -/
def phyModes (constants : EthConstants) (value : UInt32) : UInt32 × UInt32 :=
  (if value &&& constants.phyDuplexStatus ≠ 0 then constants.ethModeFullduplex
    else constants.ethModeHalfduplex,
   if value &&& constants.phySpeedStatus ≠ 0 then constants.ethSpeed10M
    else constants.ethSpeed100M)

namespace EthHandle

/-- The modes that the MAC has. -/
def modes (handle : EthHandle) : UInt32 × UInt32 := (handle.init.duplexMode, handle.init.speed)

/-- The modes after a run for a link that is up: those of the last value in the variable when the
wait completes, and the old ones otherwise. -/
theorem restart_modes (negotiation : Negotiation constants) (handle : EthHandle)
    (enabled : handle.init.autoNegotiation ≠ constants.ethAutonegotiationDisable) :
    (handle.restart negotiation).modes =
      match negotiation.result with
      | .complete regvalue =>
        phyModes constants (readPhyRegister negotiation.status regvalue)
      | .timeout => handle.modes := by
  rw [restart]
  simp only
  rw [if_pos enabled]
  cases negotiation.result with
  | complete regvalue => rfl
  | timeout => rfl

end EthHandle

/-- The modes after a run are genuine: those of a value read from `PHY_SR` once the
auto-negotiation was seen complete, or those that the MAC had on entry. -/
def GenuineModes (negotiation : Negotiation constants) (entry after : UInt32 × UInt32) : Prop :=
  (∃ complete value, Completes constants negotiation.tickstart negotiation.turns complete ∧
    negotiation.status = some value ∧ after = phyModes constants value) ∨ after = entry

/-- Whatever the reads return and whenever they are made, the modes after a run for a link that is
up are genuine exactly when, if the wait completes, `PHY_SR` is read, or the value of `PHY_BSR`
stands for the modes that the MAC had already. -/
theorem updateConfig_genuineModes_iff (negotiation : Negotiation constants) (interface : Interface)
    (bits : constants.phyAutonegoComplete ≠ 0) (linkUp : interface.netif.linkUp = true)
    (enabled : interface.ethHandle.init.autoNegotiation ≠ constants.ethAutonegotiationDisable) :
    GenuineModes negotiation interface.ethHandle.modes
        (interface.updateConfig negotiation).ethHandle.modes ↔
      ∀ value, Completes constants negotiation.tickstart negotiation.turns value →
        negotiation.status ≠ none ∨ phyModes constants value = interface.ethHandle.modes := by
  have after : (interface.updateConfig negotiation).ethHandle.modes =
      (interface.ethHandle.restart negotiation).modes :=
    congrArg EthHandle.modes (if_pos linkUp)
  rw [after, EthHandle.restart_modes negotiation _ enabled, GenuineModes]
  simp only [← negotiation.result_eq_complete_iff bits]
  cases ended : negotiation.result with
  | timeout =>
    refine iff_of_true (.inr rfl) fun value completes => ?_
    cases completes
  | complete regvalue =>
    have unique : ∀ value, WaitResult.complete regvalue = .complete value ↔ regvalue = value :=
      fun value => ⟨WaitResult.complete.inj, congrArg WaitResult.complete⟩
    simp only [unique, forall_eq']
    cases read : negotiation.status with
    | none =>
      refine or_congr (iff_of_false ?_ (not_not.mpr rfl)) Iff.rfl
      rintro ⟨_, _, _, impossible, _⟩
      cases impossible
    | some value =>
      have genuine : ∃ complete other, regvalue = complete ∧ some value = some other ∧
          phyModes constants value = phyModes constants other :=
        ⟨regvalue, value, rfl, rfl, rfl⟩
      exact iff_of_true (.inl genuine) (.inl (Option.some_ne_none value))

/-- The bits of a common PHY. -/
def EthConstants.common : EthConstants := ⟨0x1000, 0x20, 4, 0x10, 4, 0, 1, 0, 0x4000, 0, 0x800⟩

/-- A PHY that is complete at once, with 10M and half-duplex in the places of `PHY_SR`. -/
def Negotiation.atOnce (status : Option UInt32) : Negotiation .common where
  tickstart := 0
  turns := [(some 0x782D, 0)]
  status := status
  ends := rfl

/-- The interface after `Netif_Config`, with the link up. -/
def Interface.linked : Interface :=
  let interface := Interface.netifConfig .common
  { interface with netif := { interface.netif with linkUp := true } }

/-- The result is read from `PHY_SR`. -/
theorem updateConfig_genuineModes_atOnce :
    GenuineModes (.atOnce (some 0x18)) Interface.linked.ethHandle.modes
      (Interface.linked.updateConfig (.atOnce (some 0x18))).ethHandle.modes :=
  (updateConfig_genuineModes_iff (.atOnce (some 0x18)) .linked (by decide) rfl (by decide)).mpr
    fun _ _ => .inl (Option.some_ne_none _)

/-- The read of `PHY_SR` fails: the full-duplex MAC of 100M becomes one of 10M half-duplex. -/
theorem updateConfig_not_genuineModes :
    ¬ ∀ (constants : EthConstants) (negotiation : Negotiation constants) (interface : Interface),
      constants.phyAutonegoComplete ≠ 0 → interface.netif.linkUp = true →
        interface.ethHandle.init.autoNegotiation ≠ constants.ethAutonegotiationDisable →
          GenuineModes negotiation interface.ethHandle.modes
            (interface.updateConfig negotiation).ethHandle.modes := by
  intro claimed
  rcases claimed .common (.atOnce none) .linked (by decide) rfl (by decide) with
    ⟨_, _, _, read, _⟩ | same
  · cases read
  · exact absurd same (by decide)

end RtpLib
