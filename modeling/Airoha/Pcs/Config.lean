/-
Airoha.Pcs.Config — how the PCS driver configures the digital blocks.

Translates `airoha_pcs_config` and `airoha_pcs_link_up` as all patches of the
series leave them: the driver of the AN7581, the flags of the match data that
came with the AN7583, and the default speeds added behind it. Both functions
write fields of the registers of a port's blocks and read none, so each is the
list of its writes, in the order of the source. The analog bringup and the
analog part of the link up do not touch these blocks; what the bringup returns
is an argument. Not in the model: the delays, and the resets between writes.
-/
import Airoha.Lib.Masked
import Airoha.Lib.Bits
import Airoha.Pcs.Prcal

namespace Airoha.Pcs.Config

open Airoha.Lib

/-! ## Registers -/

/-- The regmaps of `struct airoha_pcs_maps` that are written. -/
inductive Block where
  | hsgmiiAn
  | hsgmiiPcs
  | multiSgmii
  | usxgmiiPcs
  | hsgmiiRateAdp
  | pcsMac
deriving DecidableEq, Repr

/-- A register of a block. -/
abbrev Reg := Block × Nat

/-- The registers of the blocks. -/
abbrev Blocks := Reg → BitVec 32

/-- A write to a register. -/
abbrev Write := Masked Reg 32

/-- `regmap_update_bits` -/
def updateBits (b : Block) (addr : Nat) (msk val : BitVec 32) : Write := ⟨(b, addr), msk, val⟩

/-- `regmap_set_bits` -/
def setBits (b : Block) (addr : Nat) (msk : BitVec 32) : Write := updateBits b addr msk msk

/-- `regmap_clear_bits` -/
def clearBits (b : Block) (addr : Nat) (msk : BitVec 32) : Write := updateBits b addr msk 0#32

/-- `regmap_write` -/
def write (b : Block) (addr : Nat) (val : BitVec 32) : Write :=
  updateBits b addr (BitVec.allOnes 32) val

/-- `AIROHA_PCS_HSGMII_AN_SGMII_REG_AN_0` -/
def regAn0 : Nat := 0x0
/-- `AIROHA_PCS_HSGMII_AN_SGMII_REG_AN_4` -/
def regAn4 : Nat := 0x10
/-- `AIROHA_PCS_HSGMII_AN_SGMII_REG_AN_11` -/
def regAn11 : Nat := 0x2c
/-- `AIROHA_PCS_HSGMII_AN_SGMII_REG_AN_13` -/
def regAn13 : Nat := 0x34
/-- `AIROHA_PCS_HSGMII_AN_SGMII_REG_AN_FORCE_CL37` -/
def regAnForceCl37 : Nat := 0x60
/-- `AIROHA_PCS_HSGMII_PCS_CTROL_1` -/
def hsgmiiPcsCtrol1 : Nat := 0x0
/-- `AIROHA_PCS_HSGMII_PCS_CTROL_3` -/
def hsgmiiPcsCtrol3 : Nat := 0x8
/-- `AIROHA_PCS_HSGMII_PCS_CTROL_6` -/
def hsgmiiPcsCtrol6 : Nat := 0x14
/-- `AIROHA_PCS_HSGMII_PCS_HSGMII_MODE_INTERRUPT` -/
def hsgmiiModeInterrupt : Nat := 0x20
/-- `AIROHA_PCS_HSGMII_PCS_AN_SGMII_MODE_FORCE` -/
def anSgmiiModeForce : Nat := 0x24
/-- `AIROHA_PCS_MULTI_SGMII_SGMII_STS_CTRL_0` -/
def sgmiiStsCtrl0 : Nat := 0x18
/-- `AIROHA_PCS_MULTI_SGMII_MSG_RX_CTRL_0` -/
def msgRxCtrl0 : Nat := 0x100
/-- `AIROHA_PCS_HSGMII_RATE_ADAPT_CTRL_0` -/
def rateAdaptCtrl0 : Nat := 0x0
/-- `AIROHA_PCS_HSGMII_RATE_ADAPT_CTRL_1` -/
def rateAdaptCtrl1 : Nat := 0x4
/-- `AIROHA_PCS_HSGMII_RATE_ADAPT_CTRL_6` -/
def rateAdaptCtrl6 : Nat := 0x18
/-- `AIROHA_PCS_HSGMII_RATE_ADAPT_CTRL_8` -/
def rateAdaptCtrl8 : Nat := 0x20
/-- `AIROHA_PCS_HSGMII_RATE_ADAPT_CTRL_11` -/
def rateAdaptCtrl11 : Nat := 0x2c
/-- `AIROHA_PCS_HSGMII_RATE_ADP_P0_CTRL_0` -/
def rateAdpP0Ctrl0 : Nat := 0x100
/-- `AIROHA_PCS_USXGMII_PCS_CTROL_1` -/
def usxgmiiPcsCtrol1 : Nat := 0x0
/-- `AIROHA_PCS_USGMII_VENDOR_DEFINE_116` -/
def usgmiiVendorDefine116 : Nat := 0x22c
/-- `AIROHA_PCS_USXGMII_PCS_CTRL_0` -/
def usxgmiiPcsCtrl0 : Nat := 0x2c0
/-- `AIROHA_PCS_USXGMII_PCS_CTRL_1` -/
def usxgmiiPcsCtrl1 : Nat := 0x2c4
/-- `AIROHA_PCS_USXGMII_PCS_CTRL_2` -/
def usxgmiiPcsCtrl2 : Nat := 0x2c8
/-- `AIROHA_PCS_USXGMII_PCS_CTRL_3` -/
def usxgmiiPcsCtrl3 : Nat := 0x2cc
/-- `AIROHA_PCS_USXGMII_PCS_INT_STA_2` -/
def usxgmiiPcsIntSta2 : Nat := 0x2d8
/-- `AIROHA_PCS_USXGMII_PCS_INT_STA_3` -/
def usxgmiiPcsIntSta3 : Nat := 0x2dc
/-- `AIROHA_PCS_USXGMII_PCS_CTRL_4` -/
def usxgmiiPcsCtrl4 : Nat := 0x2e0
/-- `AIROHA_PCS_USXGMII_PCS_INT_STA_4` -/
def usxgmiiPcsIntSta4 : Nat := 0x2e4
/-- `AIROHA_PCS_USXGMII_PCS_AN_CONTROL_0` -/
def usxgmiiPcsAnControl0 : Nat := 0x2f8
/-- `AIROHA_PCS_USXGMII_PCS_AN_CONTROL_7` -/
def usxgmiiPcsAnControl7 : Nat := 0x320
/-- `AN7583_PCS_USXGMII_RTL_MODIFIED` -/
def usxgmiiRtlModified : Nat := 0x334
/-- `AIROHA_PCS_XFI_MAC_XFI_GIB_CFG` -/
def xfiGibCfg : Nat := 0x0

/-! ## Fields -/

/-- `AIROHA_PCS_HSGMII_AN_SGMII_RESET_PHY` -/
def sgmiiResetPhy : BitVec 32 := bit 32 15
/-- `AIROHA_PCS_HSGMII_AN_SGMII_RA_ENABLE` -/
def sgmiiRaEnable : BitVec 32 := bit 32 12
/-- `AIROHA_PCS_HSGMII_AN_SGMII_DEV_ABILITY` -/
def sgmiiDevAbility : BitVec 32 := mask 32 0 16
/-- `AIROHA_PCS_HSGMII_AN_SGMII_LINK_TIMER` -/
def sgmiiLinkTimer : BitVec 32 := mask 32 0 20
/-- `AIROHA_PCS_HSGMII_AN_SGMII_REMOTE_FAULT_DIS` -/
def sgmiiRemoteFaultDis : BitVec 32 := bit 32 8
/-- `AIROHA_PCS_HSGMII_AN_SGMII_IF_MODE_5_0` -/
def sgmiiIfMode50 : BitVec 32 := mask 32 0 6
/-- `AIROHA_PCS_HSGMII_AN_SGMII_COMPAT_EN` -/
def sgmiiCompatEn : BitVec 32 := bit 32 5
/-- `AIROHA_PCS_HSGMII_AN_SPEED_FORCE_MODE` -/
def speedForceMode : BitVec 32 := mask 32 2 2
/-- `AIROHA_PCS_HSGMII_AN_SIDEBAND_EN` -/
def sidebandEn : BitVec 32 := bit 32 1
/-- `AIROHA_PCS_HSGMII_AN_SGMII_EN` -/
def sgmiiEn : BitVec 32 := bit 32 0
/-- `AIROHA_PCS_HSGMII_AN_FORCE_AN_DONE` -/
def forceAnDone : BitVec 32 := bit 32 0
/-- `AIROHA_PCS_TBI_10B_MODE` -/
def tbi10bMode : BitVec 32 := bit 32 30
/-- `AIROHA_PCS_SGMII_SEND_AN_ERR_EN` -/
def sgmiiSendAnErrEn : BitVec 32 := bit 32 24
/-- `AIROHA_PCS_HSGMII_PCS_LINK_STSTIME` -/
def linkStstime : BitVec 32 := mask 32 0 20
/-- `AIROHA_PCS_HSGMII_PCS_SGMII_SPD_FORCE_10` -/
def spdForce10 : BitVec 32 := bit 32 14
/-- `AIROHA_PCS_HSGMII_PCS_SGMII_SPD_FORCE_100` -/
def spdForce100 : BitVec 32 := bit 32 13
/-- `AIROHA_PCS_HSGMII_PCS_SGMII_SPD_FORCE_1000` -/
def spdForce1000 : BitVec 32 := bit 32 12
/-- `AIROHA_PCS_HSGMII_PCS_MAC_MODE` -/
def macMode : BitVec 32 := bit 32 8
/-- `AIROHA_PCS_HSGMII_PCS_TX_ENABLE` -/
def txEnable : BitVec 32 := bit 32 4
/-- `AIROHA_PCS_HSGMII_PCS_FORCE_RATEADAPT_VAL` -/
def forceRateadaptVal : BitVec 32 := mask 32 2 2
/-- `AIROHA_PCS_HSGMII_PCS_FORCE_RATEADAPT` -/
def forceRateadapt : BitVec 32 := bit 32 1
/-- `AIROHA_PCS_HSGMII_PCS_MODE2_EN` -/
def mode2En : BitVec 32 := bit 32 0
/-- `AIROHA_PCS_HSGMII_PCS_FORCE_CUR_SGMII_MODE` -/
def forceCurSgmiiMode : BitVec 32 := mask 32 4 2
/-- `AIROHA_PCS_HSGMII_PCS_FORCE_CUR_SGMII_MODE_SEL` -/
def forceCurSgmiiModeSel : BitVec 32 := bit 32 0
/-- `AIROHA_PCS_LINK_MODE_P0` -/
def linkModeP0 : BitVec 32 := mask 32 4 2
/-- `AIROHA_PCS_FORCE_SPD_MODE_P0` -/
def forceSpdModeP0 : BitVec 32 := bit 32 2
/-- `AIROHA_PCS_FORCE_LINKDOWN_P0` -/
def forceLinkdownP0 : BitVec 32 := bit 32 1
/-- `AIROHA_PCS_FORCE_LINKUP_P0` -/
def forceLinkupP0 : BitVec 32 := bit 32 0
/-- `AIROHA_PCS_HSGMII_XFI_SEL` -/
def hsgmiiXfiSel : BitVec 32 := bit 32 28
/-- `AIROHA_PCS_HSGMII_RATE_ADAPT_RX_BYPASS` -/
def rxBypass : BitVec 32 := bit 32 27
/-- `AIROHA_PCS_HSGMII_RATE_ADAPT_TX_BYPASS` -/
def txBypass : BitVec 32 := bit 32 26
/-- `AIROHA_PCS_HSGMII_RATE_ADAPT_RX_EN` -/
def rxEn : BitVec 32 := bit 32 4
/-- `AIROHA_PCS_HSGMII_RATE_ADAPT_TX_EN` -/
def txEn : BitVec 32 := bit 32 0
/-- `AIROHA_PCS_HSGMII_RATE_ADAPT_RX_AFIFO_WR_THR` -/
def rxAfifoWrThr : BitVec 32 := mask 32 16 5
/-- `AIROHA_PCS_HSGMII_RATE_ADAPT_RX_AFIFO_RD_THR` -/
def rxAfifoRdThr : BitVec 32 := mask 32 24 5
/-- `AIROHA_PCS_HSGMII_RATE_ADAPT_RX_AFIFO_DOUT_L` -/
def rxAfifoDoutL : BitVec 32 := mask 32 0 32
/-- `AIROHA_PCS_HSGMII_RATE_ADAPT_RX_AFIFO_DOUT_C` -/
def rxAfifoDoutC : BitVec 32 := mask 32 0 8
/-- `AIROHA_PCS_HSGMII_RATE_ADPT_FORCE_RATE_ADAPT_MODE_EN` -/
def forceRateAdaptModeEn : BitVec 32 := bit 32 8
/-- `AIROHA_PCS_HSGMII_RATE_ADPT_FORCE_RATE_ADAPT_MODE` -/
def forceRateAdaptMode : BitVec 32 := mask 32 12 4
/-- `AIROHA_PCS_HSGMII_P0_DIS_MII_MODE` -/
def p0DisMiiMode : BitVec 32 := bit 32 31
/-- `AIROHA_PCS_USXGMII_SPEED_SEL_H` -/
def speedSelH : BitVec 32 := bit 32 13
/-- `AIROHA_PCS_USXGMII_AN_ENABLE` -/
def usxgmiiAnEnable : BitVec 32 := bit 32 0
/-- `AIROHA_PCS_USXGMII_XFI_MODE_TX_SEL` -/
def xfiModeTxSel : BitVec 32 := bit 32 20
/-- `AIROHA_PCS_USXGMII_XFI_MODE_RX_SEL` -/
def xfiModeRxSel : BitVec 32 := bit 32 16
/-- `AIROHA_PCS_USXGMII_MODIFIED_RX_GB_OUT_VLD` -/
def modifiedRxGbOutVld : BitVec 32 := bit 32 25
/-- `AIROHA_PCS_USXGMII_RATE_UPDATE_MODE` -/
def rateUpdateMode : BitVec 32 := bit 32 12
/-- `AIROHA_PCS_USXGMII_MODE` -/
def usxgmiiMode : BitVec 32 := mask 32 8 3
/-- `AIROHA_PCS_XFI_TX_FC_EN` -/
def xfiTxFcEn : BitVec 32 := bit 32 5
/-- `AIROHA_PCS_XFI_RX_FC_EN` -/
def xfiRxFcEn : BitVec 32 := bit 32 4

/-! ## Arguments -/

/-- `PHYLINK_PCS_NEG_INBAND` -/
def pcsNegInband : BitVec 32 := bit 32 6
/-- `PHYLINK_PCS_NEG_INBAND_ENABLED` -/
def pcsNegInbandEnabled : BitVec 32 := bit 32 6 ||| bit 32 4

/-- The flags of `struct airoha_pcs_match_data`. -/
structure MatchData where
  hibernationWorkaround : Bool
  usxgmiiBerTimeFixup : Bool
  usxgmiiRxGbOutVldTweak : Bool
  usxgmiiXfiModeSel : Bool

/-- `an7581_pcs_eth`, `an7581_pcs_pon` and `an7581_pcs_pcie` -/
def an7581Pcs : MatchData := ⟨true, true, false, false⟩

/-- `an7583_pcs_eth`, `an7583_pcs_pon` and `an7583_pcs_pcie` -/
def an7583Pcs : MatchData := ⟨false, false, true, true⟩

/-- `an7581_pcs_usb` and `an7583_pcs_usb` -/
def usbPcs : MatchData := ⟨false, false, false, false⟩

/-- What the driver knows of the port, whether `priv->phy` is set and the match data, and what it
asks phylink: `phylink_get_link_timer_ns` and `phylink_mii_c22_pcs_encode_advertisement`. -/
structure Priv (α : Type) where
  phy : Bool
  data : MatchData
  phylinkGetLinkTimerNs : PhyInterface → BitVec 32
  encodeAdvertisement : PhyInterface → α → Int

section Functions

variable {α : Type} (priv : Priv α)

/-! ## `airoha_pcs_init` -/

/-- `airoha_pcs_init_usxgmii` -/
def airohaPcsInitUsxgmii (data : MatchData) : List Write :=
  [setBits .multiSgmii msgRxCtrl0 hsgmiiXfiSel] ++
  -- `Disable Hibernation`
  (if data.hibernationWorkaround then
    [clearBits .usxgmiiPcs usxgmiiPcsCtrol1 speedSelH] else []) ++
  (if data.usxgmiiBerTimeFixup then
    [write .usxgmiiPcs usgmiiVendorDefine116 0#32] else []) ++
  (if data.usxgmiiRxGbOutVldTweak then
    [clearBits .usxgmiiPcs usxgmiiRtlModified modifiedRxGbOutVld] else [])

/-- `airoha_pcs_init_hsgmii` -/
def airohaPcsInitHsgmii : List Write :=
  [clearBits .multiSgmii msgRxCtrl0 hsgmiiXfiSel,
   updateBits .hsgmiiPcs hsgmiiPcsCtrol1 tbi10bMode (if priv.phy then 0#32 else tbi10bMode)]

/-- `airoha_pcs_init_sgmii` -/
def airohaPcsInitSgmii : List Write :=
  [clearBits .multiSgmii msgRxCtrl0 hsgmiiXfiSel,
   setBits .hsgmiiPcs hsgmiiPcsCtrol1 tbi10bMode,
   updateBits .hsgmiiRateAdp rateAdaptCtrl6 rxAfifoDoutL (fieldPrep 0 32 0x07070707#32),
   updateBits .hsgmiiRateAdp rateAdaptCtrl8 rxAfifoDoutC (fieldPrep 0 8 0xff#32)]

/-- `airoha_pcs_init` -/
def airohaPcsInit : PhyInterface → List Write
  | .sgmii | .base1000x => airohaPcsInitSgmii
  | .base2500x => airohaPcsInitHsgmii priv
  | .usxgmii | .base10gr => airohaPcsInitUsxgmii priv.data
  | .other => []

/-! ## `airoha_pcs_interrupt_init` -/

/-- The interrupt bits of `HSGMII_MODE_INTERRUPT`. -/
def hsgmiiModeInts : BitVec 32 := bit 32 10 ||| bit 32 8 ||| bit 32 4 ||| bit 32 1 ||| bit 32 0
/-- The bits of `HSGMII_MODE_INTERRUPT` that clear them. -/
def hsgmiiModeIntClears : BitVec 32 := bit 32 11 ||| bit 32 9 ||| bit 32 5 ||| bit 32 3 ||| bit 32 2
/-- The four bits of an interrupt register of the USXGMII PCS. -/
def usxgmiiInts : BitVec 32 := bit 32 24 ||| bit 32 16 ||| bit 32 8 ||| bit 32 0

/-- `airoha_pcs_interrupt_init_sgmii` -/
def airohaPcsInterruptInitSgmii : List Write :=
  [clearBits .hsgmiiPcs hsgmiiModeInterrupt hsgmiiModeInts,
   setBits .hsgmiiPcs hsgmiiModeInterrupt hsgmiiModeIntClears,
   clearBits .hsgmiiPcs hsgmiiModeInterrupt hsgmiiModeIntClears]

/-- `airoha_pcs_interrupt_init_usxgmii` -/
def airohaPcsInterruptInitUsxgmii : List Write :=
  [clearBits .usxgmiiPcs usxgmiiPcsCtrl0 usxgmiiInts,
   clearBits .usxgmiiPcs usxgmiiPcsCtrl1 usxgmiiInts,
   clearBits .usxgmiiPcs usxgmiiPcsCtrl2 usxgmiiInts,
   clearBits .usxgmiiPcs usxgmiiPcsCtrl3 usxgmiiInts,
   clearBits .usxgmiiPcs usxgmiiPcsCtrl4 (bit 32 0),
   setBits .usxgmiiPcs usxgmiiPcsIntSta2 usxgmiiInts,
   setBits .usxgmiiPcs usxgmiiPcsIntSta3 usxgmiiInts,
   setBits .usxgmiiPcs usxgmiiPcsIntSta4 (bit 32 0)]

/-- `airoha_pcs_interrupt_init` -/
def airohaPcsInterruptInit : PhyInterface → List Write
  | .sgmii | .base1000x | .base2500x => airohaPcsInterruptInitSgmii
  | .usxgmii | .base10gr => airohaPcsInterruptInitUsxgmii
  | .other => []

/-! ## `airoha_pcs_config` -/

/-- `AN Auto Settings (Rate Adaptation)` -/
def anAutoSettings (interface : PhyInterface) : List Write :=
  let rateAdapt := rxEn ||| txEn
  let rateAdapt := if interface = .sgmii then rateAdapt ||| (rxBypass ||| txBypass) else rateAdapt
  [updateBits .hsgmiiRateAdp rateAdaptCtrl0 (rxBypass ||| txBypass ||| rxEn ||| txEn) rateAdapt]

/-- The part for USXGMII and 10GBASER. `XFI_MODE_TX_SEL` and `XFI_MODE_RX_SEL` are set with in-band
negotiation, and nothing clears them. -/
def configUsxgmii (data : MatchData) (negMode : BitVec 32) (interface : PhyInterface) :
    List Write :=
  if interface = .usxgmii ∨ interface = .base10gr then
    (if interface = .usxgmii then
      [if negMode = pcsNegInbandEnabled then
          setBits .usxgmiiPcs usxgmiiPcsAnControl0 usxgmiiAnEnable
        else clearBits .usxgmiiPcs usxgmiiPcsAnControl0 usxgmiiAnEnable,
       clearBits .usxgmiiPcs usxgmiiPcsAnControl7 rateUpdateMode]
    else
      [clearBits .usxgmiiPcs usxgmiiPcsAnControl0 usxgmiiAnEnable,
       setBits .usxgmiiPcs usxgmiiPcsAnControl7 rateUpdateMode]) ++
    (if data.usxgmiiXfiModeSel ∧ negMode = pcsNegInbandEnabled then
      [setBits .usxgmiiPcs usxgmiiPcsAnControl7 (xfiModeTxSel ||| xfiModeRxSel)] else [])
  else []

/-- The three interfaces of the HSGMII PCS. -/
def isSgmii (interface : PhyInterface) : Bool :=
  interface = .sgmii || interface = .base1000x || interface = .base2500x

/-- `Clear any force bit that my be set by bootloader` -/
def clearForceBits (interface : PhyInterface) : List Write :=
  if isSgmii interface then
    [clearBits .multiSgmii sgmiiStsCtrl0
      (linkModeP0 ||| forceSpdModeP0 ||| forceLinkdownP0 ||| forceLinkupP0)]
  else []

/-- `Toggle Rate Adaption for SGMII/HSGMII mode` -/
def toggleRateAdaption (negMode : BitVec 32) (interface : PhyInterface) : List Write :=
  if isSgmii interface then
    if negMode = pcsNegInbandEnabled then [clearBits .hsgmiiRateAdp rateAdpP0Ctrl0 p0DisMiiMode]
    else [setBits .hsgmiiRateAdp rateAdpP0Ctrl0 p0DisMiiMode]
  else []

/-- `Setup AN Link Timer` -/
def setupLinkTimer (interface : PhyInterface) : List Write :=
  if interface = .sgmii ∨ interface = .base1000x then
    let anTimer := priv.phylinkGetLinkTimerNs interface
    [updateBits .hsgmiiAn regAn11 sgmiiLinkTimer (fieldPrep 0 20 (anTimer >>> 4)),
     updateBits .hsgmiiPcs hsgmiiPcsCtrol3 linkStstime (fieldPrep 0 20 (anTimer >>> 4))]
  else []

/-- `Setup SGMII AN and advertisement in DEV_ABILITY`, when `advertise` is no error. -/
def setupSgmiiAn (negMode : BitVec 32) (interface : PhyInterface) (advertise : Int) : List Write :=
  if interface = .sgmii then
    if negMode = pcsNegInbandEnabled then
      [updateBits .hsgmiiAn regAn4 sgmiiDevAbility (fieldPrep 0 16 (BitVec.ofInt 32 advertise)),
       setBits .hsgmiiAn regAn0 sgmiiRaEnable]
    else [clearBits .hsgmiiAn regAn0 sgmiiRaEnable]
  else []

/-- The first part for 2500BASEX alone. -/
def config2500 (interface : PhyInterface) : List Write :=
  if interface = .base2500x then
    [clearBits .hsgmiiAn regAn0 sgmiiRaEnable, setBits .hsgmiiPcs hsgmiiPcsCtrol6 txEnable]
  else []

/-- The part for SGMII and 1000BASEX. -/
def configSgmii (negMode : BitVec 32) (interface : PhyInterface) : List Write :=
  if interface = .sgmii ∨ interface = .base1000x then
    let ifMode := sidebandEn
    let ifMode := if interface = .sgmii then ifMode ||| sgmiiEn else ifMode
    -- with AN off, compatibility with the MAC PCS layer is enabled
    let ifMode := if negMode = pcsNegInbandEnabled then ifMode else ifMode ||| sgmiiCompatEn
    [if negMode &&& pcsNegInband ≠ 0#32 then setBits .hsgmiiAn regAn13 sgmiiRemoteFaultDis
      else clearBits .hsgmiiAn regAn13 sgmiiRemoteFaultDis,
     if negMode = pcsNegInbandEnabled then
        clearBits .hsgmiiPcs hsgmiiPcsCtrol6
          (spdForce10 ||| spdForce100 ||| spdForce1000 ||| macMode ||| forceRateadaptVal |||
            forceRateadapt)
      else setBits .hsgmiiPcs hsgmiiPcsCtrol6 (macMode ||| forceRateadapt),
     updateBits .hsgmiiAn regAn13 sgmiiIfMode50 ifMode,
     setBits .hsgmiiPcs hsgmiiPcsCtrol6 (txEnable ||| mode2En)]
  else []

/-- The part for 1000BASEX without in-band negotiation. The second write goes to `hsgmii_pcs`, at
the offset of a register of `hsgmii_an`. -/
def config1000 (negMode : BitVec 32) (interface : PhyInterface) : List Write :=
  if interface = .base1000x ∧ negMode ≠ pcsNegInbandEnabled then
    [setBits .hsgmiiPcs hsgmiiPcsCtrol1 sgmiiSendAnErrEn,
     setBits .hsgmiiPcs regAnForceCl37 forceAnDone]
  else []

/-- The second part for 2500BASEX alone. -/
def resetPhy2500 (interface : PhyInterface) : List Write :=
  if interface = .base2500x then [setBits .hsgmiiAn regAn0 sgmiiResetPhy] else []

/-- `Configure Flow Control on XFI` -/
def configFlowControl (permitPauseToMac : Bool) : List Write :=
  [updateBits .pcsMac xfiGibCfg (xfiTxFcEn ||| xfiRxFcEn)
    (if permitPauseToMac then xfiTxFcEn ||| xfiRxFcEn else 0#32)]

/-- `airoha_pcs_config`, where the bringup returns `ret`: the writes, and what it returns. -/
def airohaPcsConfig (ret : Int) (negMode : BitVec 32) (interface : PhyInterface) (advertising : α)
    (permitPauseToMac : Bool) : List Write × Int :=
  if ret ≠ 0 then ([], ret)
  else
    let first := airohaPcsInit priv interface ++ airohaPcsInterruptInit interface ++
      anAutoSettings interface ++ configUsxgmii priv.data negMode interface ++
      clearForceBits interface ++ toggleRateAdaption negMode interface ++
        setupLinkTimer priv interface
    let advertise := priv.encodeAdvertisement interface advertising
    if interface = .sgmii ∧ negMode = pcsNegInbandEnabled ∧ advertise < 0 then (first, advertise)
    else (first ++ setupSgmiiAn negMode interface advertise ++ config2500 interface ++
      configSgmii negMode interface ++ config1000 negMode interface ++ resetPhy2500 interface ++
      configFlowControl permitPauseToMac, 0)

/-! ## `airoha_pcs_link_up` -/

/-- The in-band part, which toggles the thresholds of the FIFO. -/
def linkUpInband (interface : PhyInterface) : List Write :=
  if interface = .sgmii then
    [updateBits .hsgmiiRateAdp rateAdaptCtrl1 (rxAfifoWrThr ||| rxAfifoRdThr)
      (fieldPrep 16 5 0x0#32 ||| fieldPrep 24 5 0x0#32),
     updateBits .hsgmiiRateAdp rateAdaptCtrl1 (rxAfifoWrThr ||| rxAfifoRdThr)
      (fieldPrep 16 5 0xf#32 ||| fieldPrep 24 5 0x5#32)]
  else []

/-- The part for USXGMII and 10GBASER. A speed without a case is taken for 10000. -/
def linkUpUsxgmii (interface : PhyInterface) (speed : Int) : List Write :=
  if interface = .usxgmii ∨ interface = .base10gr then
    let (rateAdapt, mode) := match speed with
      | 5000 => (fieldPrep 12 4 0x1#32, fieldPrep 8 3 0x1#32)
      | 2500 => (fieldPrep 12 4 0x2#32, fieldPrep 8 3 0x2#32)
      | 1000 => (fieldPrep 12 4 0x4#32, fieldPrep 8 3 0x3#32)
      | 100 => (fieldPrep 12 4 0x6#32, fieldPrep 8 3 0x4#32)
      | _ => (fieldPrep 12 4 0x0#32, fieldPrep 8 3 0x0#32)
    updateBits .usxgmiiPcs usxgmiiPcsAnControl7 usxgmiiMode mode ::
      if interface = .base10gr then
        [updateBits .hsgmiiRateAdp rateAdaptCtrl11 (forceRateAdaptModeEn ||| forceRateAdaptMode)
          (forceRateAdaptModeEn ||| rateAdapt)]
      else []
  else []

/-- The part for SGMII and 1000BASEX. A speed without a case is taken for 1000. -/
def linkUpSgmii (interface : PhyInterface) (speed : Int) : List Write :=
  if interface = .sgmii ∨ interface = .base1000x then
    let (forceSpeed, rateAdapt) := match speed with
      | 100 => (spdForce100, fieldPrep 2 2 0x1#32)
      | 10 => (spdForce10, fieldPrep 2 2 0x2#32)
      | _ => (spdForce1000, fieldPrep 2 2 0x0#32)
    [updateBits .hsgmiiPcs hsgmiiPcsCtrol6
      (spdForce10 ||| spdForce100 ||| spdForce1000 ||| forceRateadaptVal)
      (forceSpeed ||| rateAdapt)]
  else []

/-- `if_mode` and `ck_gen_mode` in the part for SGMII and 2500BASEX. At 2500 they are not set, and
not used. -/
def sgmiiModes (speed : Int) : BitVec 32 × BitVec 32 :=
  match speed with
  | 100 => (fieldPrep 2 2 0x1#32, fieldPrep 4 2 0x1#32)
  | 10 => (fieldPrep 2 2 0x0#32, fieldPrep 4 2 0x2#32)
  | _ => (fieldPrep 2 2 0x2#32, fieldPrep 4 2 0x0#32)

/-- The part for SGMII and 2500BASEX. A speed without a case is taken for 1000. -/
def linkUpForceSpeed (interface : PhyInterface) (speed : Int) : List Write :=
  if interface = .sgmii ∨ interface = .base2500x then
    let speedReg := match speed with
      | 2500 => fieldPrep 4 2 0x3#32
      -- that of 10 is the one of 100
      | 100 | 10 => fieldPrep 4 2 0x1#32
      | _ => fieldPrep 4 2 0x2#32
    (if interface = .sgmii ∧ speed ≠ 2500 then
      [updateBits .hsgmiiAn regAn13 speedForceMode (sgmiiModes speed).1,
       updateBits .hsgmiiPcs anSgmiiModeForce (forceCurSgmiiMode ||| forceCurSgmiiModeSel)
        ((sgmiiModes speed).2 ||| forceCurSgmiiModeSel)]
      else []) ++
    [updateBits .multiSgmii sgmiiStsCtrl0 (linkModeP0 ||| forceSpdModeP0)
      (speedReg ||| forceSpdModeP0)]
  else []

/-- `airoha_pcs_link_up` -/
def airohaPcsLinkUp (negMode : BitVec 32) (interface : PhyInterface) (speed : Int) : List Write :=
  (if negMode = pcsNegInbandEnabled then linkUpInband interface
    else linkUpUsxgmii interface speed ++ linkUpSgmii interface speed ++
      linkUpForceSpeed interface speed) ++
  -- `BPI BMI enable`
  [clearBits .pcsMac xfiGibCfg (bit 32 3 ||| bit 32 2 ||| bit 32 1 ||| bit 32 0)]

/-! ## Histories -/

/-- A call of phylink. -/
inductive Call (α : Type) where
  | config (ret : Int) (negMode : BitVec 32) (interface : PhyInterface) (advertising : α)
      (permitPauseToMac : Bool)
  | linkUp (negMode : BitVec 32) (interface : PhyInterface) (speed : Int)

/-- The interface of a call. -/
def Call.interface : Call α → PhyInterface
  | .config _ _ interface _ _ => interface
  | .linkUp _ interface _ => interface

/-- The writes of a call. -/
def Call.writes : Call α → List Write
  | .config ret negMode interface advertising permitPauseToMac =>
    (airohaPcsConfig priv ret negMode interface advertising permitPauseToMac).1
  | .linkUp negMode interface speed => airohaPcsLinkUp negMode interface speed

/-- The registers after the calls of a history. -/
def after (r : Blocks) (calls : List (Call α)) : Blocks :=
  calls.foldl (fun r call => Masked.run r (call.writes priv)) r

end Functions

end Airoha.Pcs.Config
