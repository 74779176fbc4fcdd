/-
Airoha.Pcs.ConfigLeft — what a PCS configuration leaves of earlier ones.

Which fields `airoha_pcs_config` and `airoha_pcs_link_up` write depends on the
interface, on whether the negotiation is in-band, and on the match data of
the port. `leftover` lists the fields that other calls of the same group of
interfaces write and the two last calls do not. After any two histories and
the same two calls, the fields of the group are the same exactly when the
histories left the same in these. Only 10GBASER without in-band negotiation
has none, and on a port that selects the XFI mode not even that.
-/
import Airoha.Pcs.Config

namespace Airoha.Pcs.Config

open Airoha.Lib Airoha.Lib.Masked

variable {α : Type} (priv : Priv α)

/-! ## The fields that a call writes -/

/-- A port that serves to list the fields. -/
def somePriv (data : MatchData) : Priv Unit := ⟨false, data, fun _ => 0#32, fun _ _ => 1⟩

/-- A negotiation mode that is in-band, or one that is not. -/
def someMode (inband : Bool) : BitVec 32 := if inband then pcsNegInbandEnabled else 0#32

/-- The fields that `airoha_pcs_config` writes. -/
def configFields (data : MatchData) (interface : PhyInterface) (inband : Bool) :
    List (Reg × BitVec 32) :=
  (airohaPcsConfig (somePriv data) 0 (someMode inband) interface () false).1.map shape

/-- The fields that `airoha_pcs_link_up` writes, at a speed of the interface. -/
def linkUpFields (interface : PhyInterface) (inband : Bool) : List (Reg × BitVec 32) :=
  (airohaPcsLinkUp (someMode inband) interface 1000).map shape

@[simp] theorem shape_updateBits (b : Block) (addr : Nat) (msk val : BitVec 32) :
    shape (updateBits b addr msk val) = ((b, addr), msk) := rfl

@[simp] theorem shape_setBits (b : Block) (addr : Nat) (msk : BitVec 32) :
    shape (setBits b addr msk) = ((b, addr), msk) := rfl

@[simp] theorem shape_clearBits (b : Block) (addr : Nat) (msk : BitVec 32) :
    shape (clearBits b addr msk) = ((b, addr), msk) := rfl

@[simp] theorem someMode_eq_iff (inband : Bool) :
    someMode inband = pcsNegInbandEnabled ↔ inband = true := by
  cases inband with
  | true => exact ⟨fun _ => rfl, fun _ => rfl⟩
  | false => exact ⟨fun h => absurd h (by decide), fun h => absurd h (by decide)⟩

theorem map_shape_configUsxgmii (data : MatchData) (negMode : BitVec 32)
    (interface : PhyInterface) : (configUsxgmii data negMode interface).map shape =
      (configUsxgmii data (someMode (decide (negMode = pcsNegInbandEnabled)))
        interface).map shape := by
  by_cases hin : negMode = pcsNegInbandEnabled
  · cases interface <;> simp [hin, configUsxgmii]
  · cases interface <;> simp [hin, configUsxgmii]

/-- Of the negotiation mode only one distinction matters to them. -/
theorem map_shape_config (hadv : ∀ a, 0 ≤ priv.encodeAdvertisement .sgmii a) (negMode : BitVec 32)
    (interface : PhyInterface) (advertising : α) (permitPauseToMac : Bool) :
    (airohaPcsConfig priv 0 negMode interface advertising permitPauseToMac).1.map shape =
      configFields priv.data interface (decide (negMode = pcsNegInbandEnabled)) := by
  have hno : ¬ (interface = .sgmii ∧ negMode = pcsNegInbandEnabled ∧
      priv.encodeAdvertisement interface advertising < 0) := by
    rintro ⟨rfl, -, hneg⟩
    exact absurd (hadv advertising) (Int.not_le.mpr hneg)
  have hsome : ¬ (somePriv priv.data).encodeAdvertisement interface () < 0 :=
    Int.not_lt.mpr Int.one_nonneg
  unfold configFields airohaPcsConfig
  rw [if_neg (not_not.mpr rfl), if_neg (not_not.mpr rfl)]
  dsimp only
  rw [if_neg hno, if_neg fun h => hsome h.2.2]
  have hfirst : (airohaPcsInit priv interface).map shape =
      (airohaPcsInit (somePriv priv.data) interface).map shape := by
    cases interface with
    | base2500x => simp [airohaPcsInit, airohaPcsInitHsgmii]
    | _ => rfl
  have husxgmii : (configUsxgmii priv.data negMode interface).map shape =
      (configUsxgmii (somePriv priv.data).data
        (someMode (decide (negMode = pcsNegInbandEnabled))) interface).map shape :=
    map_shape_configUsxgmii priv.data negMode interface
  simp only [List.map_append, hfirst, husxgmii]
  by_cases hin : negMode = pcsNegInbandEnabled
  · cases interface <;>
      simp [hin, toggleRateAdaption, setupLinkTimer, setupSgmiiAn, configSgmii, config1000,
        configFlowControl, apply_ite shape]
  · cases interface <;>
      simp [hin, toggleRateAdaption, setupLinkTimer, setupSgmiiAn, configSgmii, config1000,
        configFlowControl, apply_ite shape]

/-- The speed decides what is written and not where; SGMII has no 2500. -/
theorem map_shape_linkUp (negMode : BitVec 32) {interface : PhyInterface} {speed : Int}
    (h : ¬ (interface = .sgmii ∧ speed = 2500)) :
    (airohaPcsLinkUp negMode interface speed).map shape =
      linkUpFields interface (decide (negMode = pcsNegInbandEnabled)) := by
  unfold linkUpFields airohaPcsLinkUp
  by_cases hin : negMode = pcsNegInbandEnabled
  · simp [hin]
  · cases interface with
    | sgmii =>
      have hspeed : speed ≠ 2500 := fun h2500 => h ⟨rfl, h2500⟩
      simp [hin, hspeed, linkUpUsxgmii, linkUpSgmii, linkUpForceSpeed]
    | base1000x => simp [hin, linkUpUsxgmii, linkUpSgmii, linkUpForceSpeed]
    | base2500x => simp [hin, linkUpUsxgmii, linkUpSgmii, linkUpForceSpeed]
    | usxgmii => simp [hin, linkUpUsxgmii, linkUpSgmii, linkUpForceSpeed]
    | base10gr => simp [hin, linkUpUsxgmii, linkUpSgmii, linkUpForceSpeed]
    | other => simp [hin, linkUpUsxgmii, linkUpSgmii, linkUpForceSpeed]

/-- At any speed no other field is written. -/
theorem mem_linkUpFields {negMode : BitVec 32} {interface : PhyInterface} {speed : Int}
    {m : Reg × BitVec 32} (hm : m ∈ (airohaPcsLinkUp negMode interface speed).map shape) :
    m ∈ linkUpFields interface (decide (negMode = pcsNegInbandEnabled)) := by
  by_cases h : interface = .sgmii ∧ speed = 2500
  · obtain ⟨rfl, rfl⟩ := h
    unfold linkUpFields airohaPcsLinkUp
    unfold airohaPcsLinkUp at hm
    by_cases hin : negMode = pcsNegInbandEnabled
    · simpa [hin] using hm
    · simp only [hin, linkUpUsxgmii, linkUpSgmii, linkUpForceSpeed] at hm ⊢
      simp at hm ⊢
      grind
  · rwa [← map_shape_linkUp negMode h]

/-! ## The fields of a group -/

/-- The interfaces that share the fields of `interface`. -/
def group : PhyInterface → List PhyInterface
  | .sgmii | .base1000x | .base2500x => [.sgmii, .base1000x, .base2500x]
  | .usxgmii | .base10gr => [.usxgmii, .base10gr]
  | .other => []

/-- The blocks with those fields. -/
def blocksOf : PhyInterface → List Block
  | .sgmii | .base1000x | .base2500x => [.hsgmiiAn, .hsgmiiPcs, .multiSgmii]
  | .usxgmii | .base10gr => [.usxgmiiPcs, .hsgmiiRateAdp]
  | .other => []

/-- Bit `k` of a register of these blocks is written by some call for an interface of the group. -/
def Written (interface : PhyInterface) (a : Reg) (k : Nat) : Prop :=
  a.1 ∈ blocksOf interface ∧ ∃ call : Call α, call.interface ∈ group interface ∧
    (bitsAt ((call.writes priv).map shape) a).getLsbD k = true

/-- The fields of the group, from the lists of the calls. -/
def groupFields (data : MatchData) (interface : PhyInterface) : List (Reg × BitVec 32) :=
  ((group interface).flatMap fun i => configFields data i true ++ configFields data i false ++
    linkUpFields i true ++ linkUpFields i false).filter fun m => decide (m.1.1 ∈ blocksOf interface)

theorem getLsbD_groupFields (data : MatchData) (interface : PhyInterface) (a : Reg) (k : Nat) :
    (bitsAt (groupFields data interface) a).getLsbD k = true ↔ a.1 ∈ blocksOf interface ∧
      ∃ i ∈ group interface, ∃ inband, (bitsAt (configFields data i inband) a).getLsbD k = true ∨
        (bitsAt (linkUpFields i inband) a).getLsbD k = true := by
  unfold groupFields
  simp only [getLsbD_bitsAt, List.mem_filter, List.mem_flatMap, List.mem_append, decide_eq_true_eq]
  constructor
  · rintro ⟨m, ⟨⟨i, hi, hm⟩, hblock⟩, rfl, hbit⟩
    refine ⟨hblock, i, hi, ?_⟩
    rcases hm with ((hm | hm) | hm) | hm
    · exact ⟨true, .inl ⟨m, hm, rfl, hbit⟩⟩
    · exact ⟨false, .inl ⟨m, hm, rfl, hbit⟩⟩
    · exact ⟨true, .inr ⟨m, hm, rfl, hbit⟩⟩
    · exact ⟨false, .inr ⟨m, hm, rfl, hbit⟩⟩
  · rintro ⟨hblock, i, hi, inband, h⟩
    rcases h with ⟨m, hm, rfl, hbit⟩ | ⟨m, hm, rfl, hbit⟩
    · refine ⟨m, ⟨⟨i, hi, ?_⟩, hblock⟩, rfl, hbit⟩
      cases inband with
      | true => exact .inl (.inl (.inl hm))
      | false => exact .inl (.inl (.inr hm))
    · refine ⟨m, ⟨⟨i, hi, ?_⟩, hblock⟩, rfl, hbit⟩
      cases inband with
      | true => exact .inl (.inr hm)
      | false => exact .inr hm

theorem written_iff (hadv : ∀ a, 0 ≤ priv.encodeAdvertisement .sgmii a) (advertising : α)
    (interface : PhyInterface) (a : Reg) (k : Nat) :
    Written priv interface a k ↔
      (bitsAt (groupFields priv.data interface) a).getLsbD k = true := by
  rw [getLsbD_groupFields, Written]
  refine and_congr_right fun _ => ?_
  constructor
  · rintro ⟨call, hi, hbit⟩
    refine ⟨call.interface, hi, ?_⟩
    cases call with
    | config ret negMode i adv permit =>
      refine ⟨decide (negMode = pcsNegInbandEnabled), .inl ?_⟩
      by_cases hret : ret = 0
      · subst hret
        have hmap := map_shape_config priv hadv negMode i adv permit
        simp only [Call.writes, hmap] at hbit
        exact hbit
      · -- the bringup failed and nothing is written
        simp only [Call.writes, airohaPcsConfig, if_pos hret] at hbit
        simp [bitsAt] at hbit
    | linkUp negMode i speed =>
      refine ⟨decide (negMode = pcsNegInbandEnabled), .inr ?_⟩
      obtain ⟨m, hm, ha, hk⟩ := (getLsbD_bitsAt _ a k).mp hbit
      exact (getLsbD_bitsAt _ a k).mpr ⟨m, mem_linkUpFields hm, ha, hk⟩
  · rintro ⟨i, hi, inband, hbit⟩
    have hmode : decide (someMode inband = pcsNegInbandEnabled) = inband := by
      cases inband <;> rfl
    rcases hbit with hbit | hbit
    · refine ⟨.config 0 (someMode inband) i advertising false, hi, ?_⟩
      rw [← hmode, ← map_shape_config priv hadv _ i advertising false] at hbit
      exact hbit
    · exact ⟨.linkUp (someMode inband) i 1000, hi, hbit⟩

/-! ## What the last two calls leave -/

/-- What in-band negotiation with USXGMII or 10GBASER sets and nothing clears. -/
def leftXfiMode (data : MatchData) : List (Reg × BitVec 32) :=
  if data.usxgmiiXfiModeSel then
    [((.usxgmiiPcs, usxgmiiPcsAnControl7), xfiModeTxSel ||| xfiModeRxSel)]
  else []

/-- The fields of the group that `airoha_pcs_config` and `airoha_pcs_link_up` do not write. -/
def leftover (data : MatchData) : PhyInterface → Bool → List (Reg × BitVec 32)
  | .sgmii, inband =>
    [((.hsgmiiAn, regAn0), sgmiiResetPhy),
     ((.hsgmiiPcs, hsgmiiPcsCtrol1), sgmiiSendAnErrEn),
     ((.hsgmiiPcs, regAnForceCl37), forceAnDone)] ++
    if inband then [((.hsgmiiPcs, anSgmiiModeForce), forceCurSgmiiMode ||| forceCurSgmiiModeSel)]
    else [((.hsgmiiAn, regAn4), sgmiiDevAbility)]
  | .base1000x, inband =>
    [((.hsgmiiAn, regAn0), sgmiiResetPhy ||| sgmiiRaEnable),
     ((.hsgmiiAn, regAn4), sgmiiDevAbility),
     ((.hsgmiiPcs, anSgmiiModeForce), forceCurSgmiiMode ||| forceCurSgmiiModeSel)] ++
    if inband then
      [((.hsgmiiPcs, hsgmiiPcsCtrol1), sgmiiSendAnErrEn),
       ((.hsgmiiPcs, regAnForceCl37), forceAnDone)]
    else []
  | .base2500x, _ =>
    [((.hsgmiiAn, regAn4), sgmiiDevAbility),
     ((.hsgmiiAn, regAn11), sgmiiLinkTimer),
     ((.hsgmiiAn, regAn13), sgmiiRemoteFaultDis ||| sgmiiIfMode50),
     ((.hsgmiiPcs, hsgmiiPcsCtrol1), sgmiiSendAnErrEn),
     ((.hsgmiiPcs, regAnForceCl37), forceAnDone),
     ((.hsgmiiPcs, hsgmiiPcsCtrol3), linkStstime),
     ((.hsgmiiPcs, hsgmiiPcsCtrol6), spdForce10 ||| spdForce100 ||| spdForce1000 ||| macMode |||
       forceRateadaptVal ||| forceRateadapt ||| mode2En),
     ((.hsgmiiPcs, anSgmiiModeForce), forceCurSgmiiMode ||| forceCurSgmiiModeSel)]
  | .usxgmii, inband =>
    [((.hsgmiiRateAdp, rateAdaptCtrl11), forceRateAdaptModeEn ||| forceRateAdaptMode)] ++
    (if inband then [((.usxgmiiPcs, usxgmiiPcsAnControl7), usxgmiiMode)] else leftXfiMode data)
  | .base10gr, inband =>
    if inband then
      [((.hsgmiiRateAdp, rateAdaptCtrl11), forceRateAdaptModeEn ||| forceRateAdaptMode),
       ((.usxgmiiPcs, usxgmiiPcsAnControl7), usxgmiiMode)]
    else leftXfiMode data
  | .other, _ => []

/-- The three interfaces of the HSGMII PCS. -/
def SgmiiGroup (interface : PhyInterface) : Prop :=
  interface = .sgmii ∨ interface = .base1000x ∨ interface = .base2500x

/-- No flag of the match data matters to them. -/
theorem configFields_sgmii (data : MatchData) {interface : PhyInterface}
    (h : SgmiiGroup interface) (inband : Bool) :
    configFields data interface inband = configFields usbPcs interface inband := by
  rcases h with rfl | rfl | rfl
  · rfl
  · rfl
  · rfl

theorem groupFields_sgmii (data : MatchData) {interface : PhyInterface}
    (h : SgmiiGroup interface) : groupFields data interface = groupFields usbPcs interface := by
  have hgroup : group interface = [.sgmii, .base1000x, .base2500x] := by
    rcases h with rfl | rfl | rfl <;> rfl
  unfold groupFields
  rw [hgroup]
  simp only [List.flatMap_cons, List.flatMap_nil, configFields_sgmii data (.inl rfl),
    configFields_sgmii data (.inr (.inl rfl)), configFields_sgmii data (.inr (.inr rfl))]

theorem minus_leftover_sgmii (data : MatchData) {interface : PhyInterface}
    (h : SgmiiGroup interface) (inband : Bool) :
    Minus (groupFields data interface)
      (configFields data interface inband ++ linkUpFields interface inband)
      (leftover data interface inband) := by
  have hleft : leftover data interface inband = leftover usbPcs interface inband := by
    rcases h with rfl | rfl | rfl <;> rfl
  rw [groupFields_sgmii data h, hleft, configFields_sgmii data h]
  apply minus_of_forall_mem
  rcases h with rfl | rfl | rfl <;> cases inband <;> decide

theorem minus_leftover (data : MatchData) (interface : PhyInterface) (inband : Bool) :
    Minus (groupFields data interface)
      (configFields data interface inband ++ linkUpFields interface inband)
      (leftover data interface inband) := by
  cases interface with
  | sgmii => exact minus_leftover_sgmii data (.inl rfl) inband
  | base1000x => exact minus_leftover_sgmii data (.inr (.inl rfl)) inband
  | base2500x => exact minus_leftover_sgmii data (.inr (.inr rfl)) inband
  | usxgmii =>
    apply minus_of_forall_mem
    obtain ⟨hibernation, berTime, gbOutVld, xfiModeSel⟩ := data
    revert inband hibernation berTime gbOutVld xfiModeSel
    decide
  | base10gr =>
    apply minus_of_forall_mem
    obtain ⟨hibernation, berTime, gbOutVld, xfiModeSel⟩ := data
    revert inband hibernation berTime gbOutVld xfiModeSel
    decide
  | other =>
    apply minus_of_forall_mem
    cases inband <;> exact fun m hm => absurd hm List.not_mem_nil

/-- The speeds the PCS has for an interface. -/
def ValidSpeed : PhyInterface → Int → Prop
  | .sgmii, speed => speed = 10 ∨ speed = 100 ∨ speed = 1000
  | .base1000x, speed => speed = 1000
  | .base2500x, speed => speed = 2500
  | .usxgmii, speed => speed = 100 ∨ speed = 1000 ∨ speed = 2500 ∨ speed = 5000 ∨ speed = 10000
  | .base10gr, speed => speed = 10000
  | .other, _ => False

theorem ValidSpeed.not_sgmii_2500 {interface : PhyInterface} {speed : Int}
    (h : ValidSpeed interface speed) : ¬ (interface = .sgmii ∧ speed = 2500) := by
  rintro ⟨rfl, rfl⟩
  rcases h with h | h | h
  · exact absurd h (by decide)
  · exact absurd h (by decide)
  · exact absurd h (by decide)

/-- The fields of the group are the same after two histories, each with a last `airoha_pcs_config`
and a last `airoha_pcs_link_up` that have the same arguments. -/
def SameAfter (r : Blocks) (h h' : List (Call α)) (negMode : BitVec 32) (interface : PhyInterface)
    (advertising : α) (permitPauseToMac : Bool) (speed : Int) : Prop :=
  AgreeOn (Written priv interface)
    (after priv r (h ++ [.config 0 negMode interface advertising permitPauseToMac,
      .linkUp negMode interface speed]))
    (after priv r (h' ++ [.config 0 negMode interface advertising permitPauseToMac,
      .linkUp negMode interface speed]))

/-- Two histories leave the same in these fields. -/
def SameIn (fields : List (Reg × BitVec 32)) (r : Blocks) (h h' : List (Call α)) : Prop :=
  AgreeOn (fun a k => (bitsAt fields a).getLsbD k = true) (after priv r h) (after priv r h')

theorem after_append_pair (r : Blocks) (h : List (Call α)) (c c' : Call α) :
    after priv r (h ++ [c, c']) = run (after priv r h) (c.writes priv ++ c'.writes priv) := by
  rw [run_append, after, after, List.foldl_append]
  rfl

theorem sameAfter_iff (hadv : ∀ a, 0 ≤ priv.encodeAdvertisement .sgmii a) {interface : PhyInterface}
    {speed : Int} (hspeed : ValidSpeed interface speed) (r : Blocks) (h h' : List (Call α))
    (negMode : BitVec 32) (advertising : α) (permitPauseToMac : Bool) :
    SameAfter priv r h h' negMode interface advertising permitPauseToMac speed ↔
      SameIn priv
        (leftover priv.data interface (decide (negMode = pcsNegInbandEnabled))) r h h' := by
  have hmap : ((Call.config 0 negMode interface advertising permitPauseToMac).writes priv ++
      (Call.linkUp negMode interface speed).writes priv).map shape =
        configFields priv.data interface (decide (negMode = pcsNegInbandEnabled)) ++
          linkUpFields interface (decide (negMode = pcsNegInbandEnabled)) := by
    rw [List.map_append]
    exact congrArg₂ _ (map_shape_config priv hadv _ _ _ _)
      (map_shape_linkUp negMode hspeed.not_sgmii_2500)
  have hleft := minus_leftover priv.data interface (decide (negMode = pcsNegInbandEnabled))
  unfold SameAfter SameIn
  rw [after_append_pair, after_append_pair, agreeOn_run_iff, hmap]
  constructor
  · intro hagree a k hk
    obtain ⟨hgroup, hfree⟩ := (hleft.getLsbD_iff a k).mpr hk
    exact hagree a k ⟨(written_iff priv hadv advertising interface a k).mpr hgroup, hfree⟩
  · rintro hagree a k ⟨hwritten, hfree⟩
    exact hagree a k ((hleft.getLsbD_iff a k).mp
      ⟨(written_iff priv hadv advertising interface a k).mp hwritten, hfree⟩)

/-! ## Histories that differ -/

/-- A last call that sets a bit leaves it set. -/
theorem after_call {call : Call α} (pre post : List Write) {x : Write}
    (hcall : call.writes priv = pre ++ x :: post) (r : Blocks) {k : Nat}
    (hx : x.mask.getLsbD k = true) (hpost : (bitsAt (post.map shape) x.reg).getLsbD k = false) :
    (after priv r [call] x.reg).getLsbD k = x.val.getLsbD k := by
  have hafter : after priv r [call] = run (run r pre) (x :: post) := by
    rw [← run_append, ← hcall]
    rfl
  rw [hafter, getLsbD_run_cons_of_covered hx hpost]

/-- `SGMII_SEND_AN_ERR_EN` is set, and nothing clears it. -/
theorem after_sendAnErr (advertising : α) (r : Blocks) :
    (after priv r [.config 0 0#32 .base1000x advertising false]
      (.hsgmiiPcs, hsgmiiPcsCtrol1)).getLsbD 24 = true :=
  after_call priv _ _ (x := setBits .hsgmiiPcs hsgmiiPcsCtrol1 sgmiiSendAnErrEn)
    (List.take_append_drop 16 _).symm r (by decide) (by decide)

/-- `SGMII_RESET_PHY` is set, and nothing clears it. -/
theorem after_resetPhy (advertising : α) (r : Blocks) :
    (after priv r [.config 0 0#32 .base2500x advertising false] (.hsgmiiAn, regAn0)).getLsbD 15 =
      true :=
  after_call priv _ _ (x := setBits .hsgmiiAn regAn0 sgmiiResetPhy)
    (List.take_append_drop 10 _).symm r (by decide) (by decide)

/-- `FORCE_RATE_ADAPT_MODE_EN` is set, and nothing clears it. -/
theorem after_forceRateAdapt (r : Blocks) :
    (after priv r [.linkUp 0#32 .base10gr 10000] (.hsgmiiRateAdp, rateAdaptCtrl11)).getLsbD 8 =
      true :=
  after_call priv _ _ (x := updateBits .hsgmiiRateAdp rateAdaptCtrl11
    (forceRateAdaptModeEn ||| forceRateAdaptMode) (forceRateAdaptModeEn ||| fieldPrep 12 4 0x0#32))
    (List.take_append_drop 1 _).symm r (by decide) (by decide)

/-- `XFI_MODE_TX_SEL` is set where the match data says so, and nothing clears it. -/
theorem after_xfiModeSel (hxfi : priv.data.usxgmiiXfiModeSel = true) (advertising : α)
    (r : Blocks) :
    (after priv r [.config 0 pcsNegInbandEnabled .base10gr advertising false]
      (.usxgmiiPcs, usxgmiiPcsAnControl7)).getLsbD 20 = true := by
  refine after_call priv (airohaPcsInitUsxgmii priv.data ++ airohaPcsInterruptInitUsxgmii ++
      anAutoSettings .base10gr ++ [clearBits .usxgmiiPcs usxgmiiPcsAnControl0 usxgmiiAnEnable,
        setBits .usxgmiiPcs usxgmiiPcsAnControl7 rateUpdateMode])
    (configFlowControl false) (x := setBits .usxgmiiPcs usxgmiiPcsAnControl7
      (xfiModeTxSel ||| xfiModeRxSel)) ?_ r (by decide) (by decide)
  simp [Call.writes, airohaPcsConfig, airohaPcsInit, airohaPcsInterruptInit, configUsxgmii, hxfi,
    clearForceBits, toggleRateAdaption, setupLinkTimer, setupSgmiiAn, config2500, configSgmii,
    config1000, resetPhy2500, isSgmii]

/-- Where a field is left over, some history leaves another value than none at all. -/
theorem exists_differ (advertising : α) {interface : PhyInterface} {inband : Bool}
    (hne : leftover priv.data interface inband ≠ []) : ∃ h : List (Call α),
      ¬ SameIn priv (leftover priv.data interface inband) (fun _ => 0#32) [] h := by
  have hset : ∀ {h : List (Call α)} {a : Reg} {k : Nat},
      (after priv (fun _ => 0#32) h a).getLsbD k = true →
      (bitsAt (leftover priv.data interface inband) a).getLsbD k = true →
      ∃ h : List (Call α),
        ¬ SameIn priv (leftover priv.data interface inband) (fun _ => 0#32) [] h := by
    intro h a k hafter hk
    refine ⟨h, fun hsame => ?_⟩
    have heq := hsame a k hk
    rw [hafter] at heq
    exact absurd heq (by simp [after])
  cases interface with
  | sgmii =>
    refine hset (after_sendAnErr priv advertising _) ((getLsbD_bitsAt _ _ _).mpr ?_)
    exact ⟨_, List.mem_cons_of_mem _ List.mem_cons_self, rfl, by decide⟩
  | base1000x =>
    refine hset (after_resetPhy priv advertising _) ((getLsbD_bitsAt _ _ _).mpr ?_)
    exact ⟨_, List.mem_cons_self, rfl, by decide⟩
  | base2500x =>
    refine hset (after_sendAnErr priv advertising _) ((getLsbD_bitsAt _ _ _).mpr ?_)
    exact ⟨((.hsgmiiPcs, hsgmiiPcsCtrol1), sgmiiSendAnErrEn), by simp [leftover], rfl, by decide⟩
  | usxgmii =>
    refine hset (after_forceRateAdapt priv _) ((getLsbD_bitsAt _ _ _).mpr ?_)
    exact ⟨_, List.mem_cons_self, rfl, by decide⟩
  | base10gr =>
    cases inband with
    | true =>
      refine hset (after_forceRateAdapt priv _) ((getLsbD_bitsAt _ _ _).mpr ?_)
      exact ⟨_, List.mem_cons_self, rfl, by decide⟩
    | false =>
      have hxfi : priv.data.usxgmiiXfiModeSel = true := by
        by_contra hno
        exact hne (if_neg hno)
      refine hset (after_xfiModeSel priv hxfi advertising _) ?_
      rw [leftover, if_neg Bool.false_ne_true, leftXfiMode, if_pos hxfi]
      decide
  | other => exact absurd rfl hne

theorem leftover_eq_nil_iff (data : MatchData) {interface : PhyInterface} {speed : Int}
    (hspeed : ValidSpeed interface speed) (inband : Bool) : leftover data interface inband = [] ↔
      interface = .base10gr ∧ inband = false ∧ data.usxgmiiXfiModeSel = false := by
  cases interface <;> cases inband <;> first | exact hspeed.elim | simp [leftover, leftXfiMode]

/-- After two histories and the same two calls the fields of the group are the same exactly when
the histories left the same in the fields that these calls do not write; and for all histories
only with 10GBASER, without in-band negotiation and on a port that never selects the XFI mode. -/
theorem config_history_iff (hadv : ∀ a, 0 ≤ priv.encodeAdvertisement .sgmii a)
    {interface : PhyInterface} {speed : Int} (hspeed : ValidSpeed interface speed)
    (negMode : BitVec 32) (advertising : α) (permitPauseToMac : Bool) :
    (∀ r h h', SameAfter priv r h h' negMode interface advertising permitPauseToMac speed ↔
      SameIn priv (leftover priv.data interface (decide (negMode = pcsNegInbandEnabled))) r h h') ∧
    ((∀ r h h', SameAfter priv r h h' negMode interface advertising permitPauseToMac speed) ↔
      interface = .base10gr ∧ negMode ≠ pcsNegInbandEnabled ∧
        priv.data.usxgmiiXfiModeSel = false) := by
  have hpair : ∀ r h h',
      SameAfter priv r h h' negMode interface advertising permitPauseToMac speed ↔
        SameIn priv
          (leftover priv.data interface (decide (negMode = pcsNegInbandEnabled))) r h h' :=
    fun r h h' => sameAfter_iff priv hadv hspeed r h h' negMode advertising permitPauseToMac
  have hnil := leftover_eq_nil_iff priv.data hspeed
    (decide (negMode = pcsNegInbandEnabled))
  rw [decide_eq_false_iff_not] at hnil
  refine ⟨hpair, ?_⟩
  rw [ne_eq, ← hnil]
  constructor
  · intro hall
    by_contra hne
    obtain ⟨h, hdiffer⟩ := exists_differ priv advertising hne
    exact hdiffer ((hpair _ _ _).mp (hall _ _ _))
  · intro hempty r h h'
    rw [hpair, hempty]
    intro a k hk
    exact absurd hk (by simp [bitsAt])

theorem somePriv_encode (data : MatchData) (a : Unit) :
    0 ≤ (somePriv data).encodeAdvertisement .sgmii a := by
  show (0 : Int) ≤ 1
  decide

theorem validSpeed_sgmii : ValidSpeed .sgmii 1000 := Or.inr (Or.inr rfl)

/-- 10GBASER without in-band negotiation: on the AN7581 no history matters, on the AN7583 an
in-band one does. -/
theorem config_history_base10gr :
    (∀ r h h', SameAfter (somePriv an7581Pcs) r h h' 0#32 .base10gr () false 10000) ∧
      ¬ ∀ r h h', SameAfter (somePriv an7583Pcs) r h h' 0#32 .base10gr () false 10000 := by
  have hspeed : ValidSpeed .base10gr 10000 := rfl
  have h7581 := config_history_iff (somePriv an7581Pcs) (somePriv_encode an7581Pcs) hspeed 0#32 ()
    false
  have h7583 := config_history_iff (somePriv an7583Pcs) (somePriv_encode an7583Pcs) hspeed 0#32 ()
    false
  constructor
  · exact h7581.2.mpr ⟨rfl, by decide, rfl⟩
  · intro hall
    exact absurd (h7583.2.mp hall).2.2 (by decide)

/-- A 1000BASEX module without in-band negotiation, and then SGMII with it. -/
theorem not_sameAfter_sgmii : ¬ SameAfter (somePriv an7581Pcs) (fun _ => 0#32) []
    [.config 0 0#32 .base1000x () false] pcsNegInbandEnabled .sgmii () false 1000 := by
  rw [sameAfter_iff (somePriv an7581Pcs) (somePriv_encode an7581Pcs) validSpeed_sgmii]
  intro hsame
  have heq := hsame (.hsgmiiPcs, hsgmiiPcsCtrol1) 24 (by decide)
  rw [after_sendAnErr] at heq
  exact absurd heq (by decide)

end Airoha.Pcs.Config
