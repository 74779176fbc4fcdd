/-
Airoha.Fe.Retire — retiring a channel of the frame engine.

Translates `fe_get_hwfwd_channel`, `fe_set_hwfwd_channel`,
`fe_api_set_channel_retire`, `fe_channel_retire_one` and
`fe_api_set_channel_retire_one` of `arht_fe.c`, and `an7583_channel_retire`
with the three XSI MAC settings of `soc_an7583.c`. `isEN751221` is 0 and
`TCSUPPORT_CPU_EN7580` is not defined.

`hw k` is what the registers that the loops poll hold at the `k`-th poll; a
poll is one evaluation of the loop condition. Every other register keeps what
was written to it.
-/
import Airoha.Lib.Poll
import Airoha.Lib.Regmap

namespace Airoha.Fe

open Airoha.Lib

/-! ## §1 Registers -/

def cdm1Base : Nat := 0x0400
def gdm1Base : Nat := 0x0500
def cdm2Base : Nat := 0x1400
def gdm2Base : Nat := 0x1500

def gdma1ChnRls : Nat := gdm1Base + 0x20
def gdma1TxchnEn : Nat := gdm1Base + 0x24
def gdma1RxchnEn : Nat := gdm1Base + 0x28
def gdma2ChnRls : Nat := gdm2Base + 0x20
def gdma2TxchnEn : Nat := gdm2Base + 0x24
def gdma2RxchnEn : Nat := gdm2Base + 0x28
def cdma1HwfChnEn : Nat := cdm1Base + 0x0c
def cdma2HwfChnEn : Nat := cdm2Base + 0x0c

def gdma1TxChnVld : Nat := gdm1Base + 0x70
-- the table has `GDM1_BASE` here
def gdma2TxChnVld : Nat := gdm1Base + 0x70

/-- `GDMA_CHN_RLS_CHN_OFFSET`, `GDMA_CHN_RLS_EN_OFFSET` and `GDMA_CHN_RLS_STAT_OFFSET` -/
def gdmaChnRlsChnOffset : Nat := 4
def gdmaChnRlsEnOffset : Nat := 0
def gdmaChnRlsStatOffset : Nat := 1
def gdmaChnRlsTimeout : Nat := 10

/-- `FE_Gdma_Sel_t` and `FE_Cdma_Sel_t` -/
def feGdmSelGdma1 : Nat := 0
def feGdmSelGdma2 : Nat := 1
def feCdmSelCdma1 : Nat := 0
def feCdmSelCdma2 : Nat := 1

/-- `FE_LINKDOWN` and `FE_DISABLE` -/
def feLinkdown : Nat := 1
def feDisable : BitVec 32 := 0#32

/-- The registers whose value is the hardware's. -/
def isPolled (offset : Nat) : Bool :=
  offset = gdma1ChnRls || offset = gdma2ChnRls || offset = gdm1Base + 0x70 ||
    offset = gdm2Base + 0x70

/-- The registers of the frame engine, and the polls made of it. -/
structure FeState where
  regs : Regs
  polls : Nat

/-- `struct ecnt_fe_data`, as far as these functions use it. -/
structure EcntFeData where
  gdmSel : Nat := 0
  cdmSel : Nat := 0
  channel : Nat := 0
  regVal : Nat := 0
  enable : BitVec 32 := 0#32

variable (hw : Nat → Nat → BitVec 32)

/-- `airoha_fe_rr` -/
def airohaFeRr (offset : Nat) : StateM FeState (BitVec 32) := do
  let s ← get
  return if isPolled offset then hw s.polls offset else s.regs offset

/-- `airoha_fe_wr` -/
def airohaFeWr (offset : Nat) (v : BitVec 32) : StateM FeState PUnit :=
  modify fun s => { s with regs := Function.update s.regs offset v }

/-! ## §2 `arht_fe.c` -/

/-- The hardware-forward enable register of a CDM. -/
def hwfChnEn (cdmSel : Nat) : Option Nat :=
  if cdmSel = feCdmSelCdma1 then some cdma1HwfChnEn
  else if cdmSel = feCdmSelCdma2 then some cdma2HwfChnEn
  else none

/-- `fe_get_hwfwd_channel` -/
def feGetHwfwdChannel (d : EcntFeData) : StateM FeState (Int × EcntFeData) := do
  match hwfChnEn d.cdmSel with
  | none => return (-1, d)
  | some offset =>
      let value ← airohaFeRr hw offset
      let value := value &&& bit 32 d.channel
      return (0, { d with enable := value >>> d.channel })

/-- `fe_set_hwfwd_channel` -/
def feSetHwfwdChannel (d : EcntFeData) : StateM FeState Int := do
  match hwfChnEn d.cdmSel with
  | none => return -1
  | some offset =>
      let value ← airohaFeRr hw offset
      let value := value &&& ~~~bit 32 d.channel
      airohaFeWr offset (value ||| (d.enable <<< d.channel))
      return 0

/-- The registers `fe_api_set_channel_retire` picks. -/
structure RetireRegs where
  reg : Nat
  reg2 : Nat
  txreg : Nat
  rxreg : Nat

def retireRegs (gdmSel : Nat) : Option RetireRegs :=
  if gdmSel = feGdmSelGdma1 then
    some { reg := gdma1ChnRls, reg2 := gdma1TxChnVld, txreg := gdma1TxchnEn, rxreg := gdma1RxchnEn }
  else if gdmSel = feGdmSelGdma2 then
    some { reg := gdma2ChnRls, reg2 := gdma2TxChnVld, txreg := gdma2TxchnEn, rxreg := gdma2RxchnEn }
  else none

/-- The condition of the polling loops; it ends the poll. -/
def rlsBusy (reg reg2 channel : Nat) : StateM FeState Bool := do
  let sta ← airohaFeRr hw reg
  if sta &&& bit 32 gdmaChnRlsStatOffset = 0#32 then
    modify fun s => { s with polls := s.polls + 1 }
    return true
  else
    let vld ← airohaFeRr hw reg2
    modify fun s => { s with polls := s.polls + 1 }
    return vld &&& bit 32 channel != 0#32

/-- What is written to `CHN_RLS` to retire a channel. -/
def chnRlsValue (channel : Nat) : BitVec 32 :=
  (BitVec.ofNat 32 channel <<< gdmaChnRlsChnOffset) ||| bit 32 gdmaChnRlsEnOffset

/-- `fe_api_set_channel_retire` -/
def feApiSetChannelRetire (d : EcntFeData) : StateM FeState Int := do
  match retireRegs d.gdmSel with
  | none => return -1
  | some r =>
      let _mask ← airohaFeRr hw r.reg2
      let cdmSel := if d.gdmSel = feGdmSelGdma1 then feCdmSelCdma1 else feCdmSelCdma2
      let (_, cdm) ← feGetHwfwdChannel hw { cdmSel := cdmSel, channel := d.channel }
      let rxHwfwd := cdm.enable
      let _ ← feSetHwfwdChannel hw { cdm with enable := feDisable }
      let (txchn, rxchn) ← if d.regVal = feLinkdown then do
          let txchn ← airohaFeRr hw r.txreg
          let rxchn ← airohaFeRr hw r.rxreg
          airohaFeWr r.txreg 0#32
          airohaFeWr r.rxreg 0#32
          pure (txchn, rxchn)
        else pure (0#32, 0#32)
      airohaFeWr r.reg (chnRlsValue d.channel)
      let value ← pollWhile (rlsBusy hw r.reg r.reg2 d.channel) gdmaChnRlsTimeout 0
      let ret : Int := if value ≥ gdmaChnRlsTimeout then -1 else 0
      airohaFeWr r.reg 0#32
      if d.regVal = feLinkdown then
        airohaFeWr r.txreg txchn
        airohaFeWr r.rxreg rxchn
      let _ ← feSetHwfwdChannel hw { cdm with enable := rxHwfwd }
      return ret

/-- `fe_channel_retire_one`. The rounds are the values of `rlsCnt` below the timeout. -/
def feChannelRetireOne (idx chn : Nat) : StateM FeState Int := do
  match retireRegs idx with
  | none => return -1
  | some r =>
      let chn := chn &&& 0x1f
      airohaFeWr r.reg (chnRlsValue chn)
      let passed ← pollRows (rlsBusy hw r.reg r.reg2 chn) 10 (gdmaChnRlsTimeout - 1)
      airohaFeWr r.reg 0#32
      return if passed then 0 else -1

/-- `fe_api_set_channel_retire_one`, which drops the result of `fe_channel_retire_one` -/
def feApiSetChannelRetireOne (d : EcntFeData) : StateM FeState Int := do
  match (if d.gdmSel = feGdmSelGdma1 then some cdma1HwfChnEn
    else if d.gdmSel = feGdmSelGdma2 then some cdma2HwfChnEn else none) with
  | none => return -1
  | some hwreg =>
      let hwv ← airohaFeRr hw hwreg
      airohaFeWr hwreg (hwv &&& ~~~bit 32 d.channel)
      let _ ← feChannelRetireOne hw d.gdmSel d.channel
      airohaFeWr hwreg hwv
      return 0

/-! ## §3 `soc_an7583.c` -/

/-- `SERDES_ETH_IDX`, `SERDES_MAX_IDX` and `AIROHA_GDM3_IDX` -/
def serdesEthIdx : Nat := 4
def serdesMaxIdx : Nat := 5
def airohaGdm3Idx : Nat := 3

/-- `struct airoha_eth_soc_data`: the GDM and the channel to retire, by serdes. -/
structure SocData where
  gdm : Nat → Nat
  retireChannel : Nat → Nat

/-- A device: the id of its port, and its XFI MAC where it has one. -/
structure GdmDev where
  portId : Nat
  xfiMac : Option Regs

/-- `XSI_GLB_CFG` -/
def xsiGlbCfg : Nat := 0x0

/-- `xsi_check_index_valid` -/
def xsiCheckIndexValid (hsgmiiIndex : Nat) : Bool := !(hsgmiiIndex ≥ serdesMaxIdx)

/-- `xsi_mac_set_ipg` -/
def xsiMacSetIpg (dev : GdmDev) (hsgmiiIndex : Nat) (ipg : BitVec 32) : Int × GdmDev :=
  if xsiCheckIndexValid hsgmiiIndex = false then (-1, dev)
  else (0, { dev with xfiMac := dev.xfiMac.map (updateBits xsiGlbCfg (mask 32 10 6) (ipg <<< 10)) })

/-- `xsi_mac_set_tx_rx_frag_len` -/
def xsiMacSetTxRxFragLen (dev : GdmDev) (hsgmiiIndex : Nat) (fragLen : BitVec 32) : Int × GdmDev :=
  if xsiCheckIndexValid hsgmiiIndex = false then (-1, dev)
  else (0, { dev with
    xfiMac := (dev.xfiMac.map (updateBits xsiGlbCfg (mask 32 17 5) (fragLen <<< 17))).map
      (updateBits xsiGlbCfg (mask 32 22 5) (fragLen <<< 22)) })

/-- `xsi_mac_set_tx_rx_fc_en` -/
def xsiMacSetTxRxFcEn (dev : GdmDev) (hsgmiiIndex : Nat) : Int × GdmDev :=
  if xsiCheckIndexValid hsgmiiIndex = false then (-1, dev)
  else (0, { dev with
    xfiMac := (dev.xfiMac.map (updateBits xsiGlbCfg (bit 32 5) (bit 32 5))).map
      (updateBits xsiGlbCfg (bit 32 4) (bit 32 4)) })

/-- `an7583_channel_retire`, and the device after it. `retire_channle` has eight bits. -/
def an7583ChannelRetire (soc : SocData) (dev : GdmDev) : StateM FeState (Int × GdmDev) := do
  if dev.portId ≠ airohaGdm3Idx then return (-1, dev)
  else
    let hsgmiiIndex := serdesEthIdx
    let _ ← feApiSetChannelRetireOne hw
      { gdmSel := soc.gdm hsgmiiIndex, channel := soc.retireChannel hsgmiiIndex % 256 }
    let dev := (xsiMacSetIpg dev hsgmiiIndex 10#32).2
    let dev := (xsiMacSetTxRxFragLen dev hsgmiiIndex 4#32).2
    let dev := (xsiMacSetTxRxFcEn dev hsgmiiIndex).2
    return (0, dev)

/-! ## §4 What a poll sees -/

/-- The release-status bit of `reg` is set and the channel's bit of `reg2` clear. -/
def released (hw : Nat → Nat → BitVec 32) (reg reg2 channel k : Nat) : Bool :=
  (hw k reg).getLsbD gdmaChnRlsStatOffset && !(hw k reg2).getLsbD channel

theorem rlsBusy_run {reg reg2 : Nat} (hreg : isPolled reg) (hreg2 : isPolled reg2) (channel : Nat)
    (r : Regs) (k : Nat) :
    rlsBusy hw reg reg2 channel ⟨r, k⟩ = (!released hw reg reg2 channel k, ⟨r, k + 1⟩) := by
  have hsta := and_bit_bne_zero (hw k reg) gdmaChnRlsStatOffset
  have hvld := and_bit_bne_zero (hw k reg2) channel
  by_cases h : hw k reg &&& bit 32 gdmaChnRlsStatOffset = 0#32
  · have h0 : (hw k reg).getLsbD gdmaChnRlsStatOffset = false := by simpa [h] using hsta.symm
    simp [rlsBusy, airohaFeRr, bind, StateT.bind, get, getThe, MonadStateOf.get, StateT.get, pure,
      StateT.pure, modify, modifyGet, MonadStateOf.modifyGet, StateT.modifyGet, hreg, h,
        released, h0]
  · have h1 : (hw k reg).getLsbD gdmaChnRlsStatOffset = true := by
      rw [← hsta]
      simpa using h
    simp [rlsBusy, airohaFeRr, bind, StateT.bind, get, getThe, MonadStateOf.get, StateT.get, pure,
      StateT.pure, modify, modifyGet, MonadStateOf.modifyGet, StateT.modifyGet, hreg, hreg2,
        h, released,
      h1, hvld]

/-- The polls of `fe_api_set_channel_retire` from the poll `p` on: their number, and what the last
value says. The other registers do not matter to them. -/
theorem rlsWait_run {reg reg2 : Nat} (hreg : isPolled reg) (hreg2 : isPolled reg2)
    (channel p : Nat) :
    ∃ v m, (∀ r, pollWhile (rlsBusy hw reg reg2 channel) gdmaChnRlsTimeout 0 ⟨r, p⟩ =
        (v, ⟨r, p + m⟩)) ∧
      (gdmaChnRlsTimeout ≤ v ↔
        ∀ k < gdmaChnRlsTimeout, released hw reg reg2 channel (p + k) = false) ∧
      ∀ k, k < m ↔
        k ≤ gdmaChnRlsTimeout ∧ ∀ j < k, released hw reg reg2 channel (p + j) = false := by
  have hpoll (r : Regs) (k : Nat) := rlsBusy_run hw hreg hreg2 channel r k
  by_cases hseen : ∃ k, k ≤ gdmaChnRlsTimeout ∧ released hw reg reg2 channel (p + k) = true
  case pos =>
    obtain ⟨f, ⟨hf, hrel⟩, hmin⟩ : ∃ f, (f ≤ gdmaChnRlsTimeout ∧
        released hw reg reg2 channel (p + f) = true) ∧
        ∀ j < f, ¬ (j ≤ gdmaChnRlsTimeout ∧ released hw reg reg2 channel (p + j) = true) :=
      ⟨Nat.find hseen, Nat.find_spec hseen, fun _ hj => Nat.find_min hseen hj⟩
    have hbusy : ∀ j < f, released hw reg reg2 channel (p + j) = false := fun j hj =>
      Bool.eq_false_iff.mpr fun h => hmin j hj ⟨by omega, h⟩
    refine ⟨f, f + 1, fun r => ?_, ⟨fun hle k hk => hbusy k (by omega), fun h => ?_⟩,
      fun k => ⟨fun hk => ⟨by omega, fun j hj => hbusy j (by omega)⟩, fun hk => ?_⟩⟩
    · have h := pollWhile_of_idle (hpoll r) f _ 0 p hf (fun j hj => by simp [hbusy j hj])
        (by simp [hrel])
      rwa [Nat.zero_add] at h
    · by_contra hlt
      rw [h f (by omega)] at hrel
      cases hrel
    · by_contra hlt
      rw [hk.2 f (by omega)] at hrel
      cases hrel
  case neg =>
    have hbusy : ∀ j ≤ gdmaChnRlsTimeout, released hw reg reg2 channel (p + j) = false :=
      fun j hj =>
      Bool.eq_false_iff.mpr fun h => hseen ⟨j, hj, h⟩
    refine ⟨gdmaChnRlsTimeout + 1, gdmaChnRlsTimeout + 1, fun r => ?_,
      ⟨fun _ k hk => hbusy k (by omega), fun _ => by omega⟩,
      fun k => ⟨fun hk => ⟨by omega, fun j hj => hbusy j (by omega)⟩, fun hk => by omega⟩⟩
    have h := pollWhile_of_busy (hpoll r) gdmaChnRlsTimeout 0 p
      (fun j hj => by simp [hbusy j hj])
    rwa [Nat.zero_add] at h

/-! ## §5 What is restored -/

/-- The forward register of the channel's CDM, as both routines take it. -/
def hwfReg (gdmSel : Nat) : Nat :=
  if gdmSel = feGdmSelGdma1 then cdma1HwfChnEn else cdma2HwfChnEn

/-- The bit of a channel cleared and put back. -/
theorem hwfwd_restored (v : BitVec 32) (ch : Nat) :
    ((v &&& ~~~bit 32 ch ||| feDisable <<< ch) &&& ~~~bit 32 ch) |||
      (((v &&& bit 32 ch) >>> ch) <<< ch) = v := by
  apply BitVec.eq_of_getLsbD_eq
  intro i hi
  simp only [feDisable, BitVec.zero_shiftLeft, BitVec.or_zero, BitVec.getLsbD_or,
    BitVec.getLsbD_and,
    BitVec.getLsbD_not, BitVec.getLsbD_shiftLeft, BitVec.getLsbD_ushiftRight, getLsbD_bit]
  rcases Nat.lt_trichotomy i ch with h | h | h
  · have h1 : i ≠ ch := by omega
    simp [hi, h, h1]
  · subst h
    simp [hi]
  · have h1 : i ≠ ch := by omega
    have h2 : ¬ i < ch := by omega
    have h3 : ch + (i - ch) = i := by omega
    simp [hi, h1, h2, h3]

/-- The registers of a retired channel: two are polled, three are plain, all different. -/
structure RetireRegs.Apart (r : RetireRegs) (hwf : Nat) : Prop where
  reg_polled : isPolled r.reg
  reg2_polled : isPolled r.reg2
  hwf_plain : isPolled hwf = false
  txreg_plain : isPolled r.txreg = false
  rxreg_plain : isPolled r.rxreg = false
  hwf_ne_reg : hwf ≠ r.reg
  hwf_ne_txreg : hwf ≠ r.txreg
  hwf_ne_rxreg : hwf ≠ r.rxreg
  txreg_ne_reg : r.txreg ≠ r.reg
  txreg_ne_rxreg : r.txreg ≠ r.rxreg
  rxreg_ne_reg : r.rxreg ≠ r.reg

theorem retireRegs_apart {gdmSel : Nat} {r : RetireRegs} (hr : retireRegs gdmSel = some r) :
    r.Apart (hwfReg gdmSel) := by
  unfold retireRegs at hr
  split at hr
  case isTrue h1 =>
    cases hr
    rw [hwfReg, if_pos h1]
    constructor <;> decide
  case isFalse h1 =>
    split at hr <;> cases hr
    rw [hwfReg, if_neg h1]
    constructor <;> decide

theorem hwfChnEn_cdm (gdmSel : Nat) :
    hwfChnEn (if gdmSel = feGdmSelGdma1 then feCdmSelCdma1 else feCdmSelCdma2) =
      some (hwfReg gdmSel) := by
  unfold hwfReg
  split <;> rfl

/-- The run of `fe_api_set_channel_retire` on GDM 1 or 2, around its polls. -/
theorem feApiSetChannelRetire_run {gdmSel : Nat} {r : RetireRegs} (hr : retireRegs gdmSel = some r)
    (channel mode : Nat) (s : FeState) {v m : Nat}
    (hwait : ∀ rs, pollWhile (rlsBusy hw r.reg r.reg2 channel) gdmaChnRlsTimeout 0 ⟨rs, s.polls⟩ =
      (v, ⟨rs, s.polls + m⟩)) :
    ∃ rs, feApiSetChannelRetire hw { gdmSel := gdmSel, channel := channel, regVal := mode } s =
        (if v ≥ gdmaChnRlsTimeout then -1 else 0, ⟨rs, s.polls + m⟩) ∧
      rs (hwfReg gdmSel) = s.regs (hwfReg gdmSel) ∧
      (mode = feLinkdown → rs r.txreg = s.regs r.txreg ∧ rs r.rxreg = s.regs r.rxreg) := by
  have ha := retireRegs_apart hr
  have hcdm := hwfChnEn_cdm gdmSel
  have hres := hwfwd_restored (s.regs (hwfReg gdmSel)) channel
  by_cases hm : mode = feLinkdown
  · simp only [feApiSetChannelRetire, hr, feGetHwfwdChannel, feSetHwfwdChannel, hcdm, airohaFeRr,
      airohaFeWr, bind, StateT.bind, get, getThe, MonadStateOf.get, StateT.get, pure,
      StateT.pure, modify, modifyGet, MonadStateOf.modifyGet, StateT.modifyGet, hm, hwait,
      ha.hwf_plain, ha.txreg_plain, ha.rxreg_plain, if_true, Bool.false_eq_true, if_false]
    refine ⟨_, rfl, ?_, fun _ => ⟨?_, ?_⟩⟩
    · simp [Function.update_of_ne, ha.hwf_ne_reg, ha.hwf_ne_txreg, ha.hwf_ne_rxreg, hres]
    · simp [Function.update_of_ne, ha.hwf_ne_txreg.symm, ha.txreg_ne_rxreg]
    · simp [Function.update_of_ne, ha.hwf_ne_rxreg.symm]
  · simp only [feApiSetChannelRetire, hr, feGetHwfwdChannel, feSetHwfwdChannel, hcdm, airohaFeRr,
      airohaFeWr, bind, StateT.bind, get, getThe, MonadStateOf.get, StateT.get, pure,
      StateT.pure, modify, modifyGet, MonadStateOf.modifyGet, StateT.modifyGet, hm, hwait,
      ha.hwf_plain, Bool.false_eq_true, if_false]
    refine ⟨_, rfl, ?_, fun h => h.elim⟩
    simp [Function.update_of_ne, ha.hwf_ne_reg, hres]

/-- The run of `fe_channel_retire_one` on GDM 1 or 2. -/
theorem feChannelRetireOne_run {idx : Nat} {r : RetireRegs} (hr : retireRegs idx = some r)
    {chn : Nat} (hchn : chn < 32) (s : FeState) :
    ∃ ret m, feChannelRetireOne hw idx chn s =
        (ret, ⟨Function.update s.regs r.reg 0#32, s.polls + m⟩) ∧
      ∀ k, k < m ↔ Polled (fun k => !released hw r.reg r.reg2 chn k) 10 (gdmaChnRlsTimeout - 1)
        s.polls k := by
  have ha := retireRegs_apart hr
  have hand : chn &&& 0x1f = chn := Nat.and_two_pow_sub_one_of_lt_two_pow (n := 5) hchn
  obtain ⟨passed, m, hrun, hm⟩ := pollRows_polls
    (fun k => rlsBusy_run hw ha.reg_polled ha.reg2_polled chn
      (Function.update s.regs r.reg (chnRlsValue chn)) k) 10 (gdmaChnRlsTimeout - 1) s.polls
  refine ⟨if passed then 0 else -1, m, ?_, hm⟩
  simp [feChannelRetireOne, hr, hand, airohaFeWr, bind, StateT.bind, pure, StateT.pure, modify,
    modifyGet, MonadStateOf.modifyGet, StateT.modifyGet, hrun]

/-- The run of `fe_api_set_channel_retire_one`: whatever the polls saw, it returns 0. -/
theorem feApiSetChannelRetireOne_run {gdmSel : Nat} {r : RetireRegs}
    (hr : retireRegs gdmSel = some r) {channel : Nat} (hch : channel < 32) (s : FeState) :
    ∃ rs m, feApiSetChannelRetireOne hw { gdmSel := gdmSel, channel := channel } s =
        (0, ⟨rs, s.polls + m⟩) ∧
      (∀ a, a ≠ r.reg → rs a = s.regs a) ∧
      ∀ k, k < m ↔ Polled (fun k => !released hw r.reg r.reg2 channel k) 10 (gdmaChnRlsTimeout - 1)
        s.polls k := by
  have ha := retireRegs_apart hr
  have hreg : (if gdmSel = feGdmSelGdma1 then some cdma1HwfChnEn
      else if gdmSel = feGdmSelGdma2 then some cdma2HwfChnEn else none) = some (hwfReg gdmSel) := by
    unfold retireRegs at hr
    unfold hwfReg
    split at hr
    case isTrue h1 => rw [if_pos h1, if_pos h1]
    case isFalse h1 =>
      split at hr <;> cases hr
      case isTrue h2 => rw [if_neg h1, if_pos h2, if_neg h1]
  obtain ⟨ret, m, hrun, hm⟩ := feChannelRetireOne_run hw hr hch
    ⟨Function.update s.regs (hwfReg gdmSel) (s.regs (hwfReg gdmSel) &&& ~~~bit 32 channel), s.polls⟩
  refine ⟨Function.update (Function.update (Function.update s.regs (hwfReg gdmSel)
    (s.regs (hwfReg gdmSel) &&& ~~~bit 32 channel)) r.reg 0#32) (hwfReg gdmSel)
    (s.regs (hwfReg gdmSel)), m, ?_, ?_, hm⟩
  · simp only [feApiSetChannelRetireOne, hreg, airohaFeRr, airohaFeWr, bind, StateT.bind,
      get, getThe,
      MonadStateOf.get, StateT.get, pure, StateT.pure, modify, modifyGet, MonadStateOf.modifyGet,
      StateT.modifyGet, ha.hwf_plain, Bool.false_eq_true, if_false, hrun]
  · intro a h
    by_cases hhwf : a = hwfReg gdmSel
    · simp [hhwf]
    · simp [Function.update_of_ne, h, hhwf]

/-! ## §6 What a retirement reports -/

/-- The channel-valid register of a GDM, `GDM_BASE + 0x70`. -/
def txChnVld (gdmSel : Nat) : Nat :=
  (if gdmSel = feGdmSelGdma1 then gdm1Base else gdm2Base) + 0x70

/-- The release register of a GDM. -/
def chnRls (gdmSel : Nat) : Nat :=
  if gdmSel = feGdmSelGdma1 then gdma1ChnRls else gdma2ChnRls

/-- The poll `k` shows the channel of that GDM released. -/
def ChnReleased (hw : Nat → Nat → BitVec 32) (gdmSel channel k : Nat) : Prop :=
  released hw (chnRls gdmSel) (txChnVld gdmSel) channel k

/-- The polls from one state to another showed it released. -/
def ReleaseSeen (hw : Nat → Nat → BitVec 32) (gdmSel channel : Nat) (s s' : FeState) : Prop :=
  ∃ k, s.polls ≤ k ∧ k < s'.polls ∧ ChnReleased hw gdmSel channel k

/-- The forward register is as it was, and in a link-down the two channel enables are. -/
structure Restored (gdmSel mode : Nat) (s s' : FeState) : Prop where
  hwfwd : s'.regs (hwfReg gdmSel) = s.regs (hwfReg gdmSel)
  enables : ∀ r, retireRegs gdmSel = some r → mode = feLinkdown →
    s'.regs r.txreg = s.regs r.txreg ∧ s'.regs r.rxreg = s.regs r.rxreg

/-- `fe_api_set_channel_retire` fails exactly when no poll showed the release. -/
def RetireReports (hw : Nat → Nat → BitVec 32) (gdmSel channel mode : Nat) (s : FeState) : Prop :=
  let r := feApiSetChannelRetire hw { gdmSel := gdmSel, channel := channel, regVal := mode } s
  (r.1 = -1 ↔ ¬ ReleaseSeen hw gdmSel channel s r.2) ∧ Restored gdmSel mode s r.2

/-- `an7583_channel_retire` returns 0 only when a poll showed the release. -/
def HookReports (hw : Nat → Nat → BitVec 32) (soc : SocData) (dev : GdmDev) (s : FeState) : Prop :=
  let r := an7583ChannelRetire hw soc dev s
  (r.1.1 = 0 → ReleaseSeen hw (soc.gdm serdesEthIdx) (soc.retireChannel serdesEthIdx) s r.2) ∧
    Restored (soc.gdm serdesEthIdx) feLinkdown s r.2

/-- What both loops take for the release of a GDM's channel. -/
def LooksReleased (hw : Nat → Nat → BitVec 32) (gdmSel channel k : Nat) : Prop :=
  released hw (chnRls gdmSel) gdma1TxChnVld channel k

/-- When `fe_api_set_channel_retire` reports what happened. On GDM 1: not when the eleventh poll is
the first to show the release. On GDM 2: when the release is seen up to the first poll that looks
like it, or when neither is there. -/
def ReportsWhen (hw : Nat → Nat → BitVec 32) (gdmSel channel p : Nat) : Prop :=
  if gdmSel = feGdmSelGdma1 then
    (∃ k < 10, ChnReleased hw gdmSel channel (p + k)) ∨ ¬ ChnReleased hw gdmSel channel (p + 10)
  else
    ((∃ k < 10, LooksReleased hw gdmSel channel (p + k)) ∧
      ∃ k < 10, ChnReleased hw gdmSel channel (p + k) ∧
        ∀ j < k, ¬ LooksReleased hw gdmSel channel (p + j)) ∨
    ((∀ k < 10, ¬ LooksReleased hw gdmSel channel (p + k)) ∧
      ∀ k ≤ 10, ¬ ChnReleased hw gdmSel channel (p + k))

/-- When `an7583_channel_retire` does: the port is not its own, or one of the polls it makes shows
the release. On GDM 1 that is one of the first nine polls. -/
def HookReportsWhen (hw : Nat → Nat → BitVec 32) (soc : SocData) (dev : GdmDev) (p : Nat) : Prop :=
  let gdmSel := soc.gdm serdesEthIdx
  let channel := soc.retireChannel serdesEthIdx
  dev.portId ≠ airohaGdm3Idx ∨
    if gdmSel = feGdmSelGdma1 then ∃ k < 9, ChnReleased hw gdmSel channel (p + k)
    else gdmSel = feGdmSelGdma2 ∧
      ∃ k, Polled (fun k => !released hw (chnRls gdmSel) gdma1TxChnVld channel k) 10 9 p k ∧
        ChnReleased hw gdmSel channel (p + k)

/-! ## §7 When it is right -/

theorem retireRegs_of_gdm {gdmSel : Nat} (hg : gdmSel = feGdmSelGdma1 ∨ gdmSel = feGdmSelGdma2) :
    ∃ r, retireRegs gdmSel = some r ∧ r.reg = chnRls gdmSel ∧ r.reg2 = gdma1TxChnVld := by
  rcases hg with rfl | rfl <;> exact ⟨_, rfl, rfl, rfl⟩

section

variable (looks seen : Nat → Prop) (n : Nat)

/-- A loop that looks at what it should errs only on its last poll. -/
theorem wait_right_iff :
    ((∀ k < n, ¬ seen k) ↔ ¬ ∃ k, (k ≤ n ∧ ∀ j < k, ¬ seen j) ∧ seen k) ↔
      (∃ k < n, seen k) ∨ ¬ seen n := by
  by_cases h : ∃ k < n, seen k
  case pos =>
    refine iff_of_true ⟨fun hno => ?_, fun hno => ?_⟩ (Or.inl h)
    · obtain ⟨k, hk, hs⟩ := h
      exact absurd hs (hno k hk)
    · exfalso
      classical
      have hfind := Nat.find_spec h
      exact hno ⟨Nat.find h, ⟨Nat.le_of_lt hfind.1, fun j hj hs =>
        Nat.find_min h hj ⟨by omega, hs⟩⟩, hfind.2⟩
  case neg =>
    have hno : ∀ k < n, ¬ seen k := fun k hk hs => h ⟨k, hk, hs⟩
    rw [iff_true_left hno, or_iff_right h]
    refine not_congr ⟨fun ⟨k, hk, hs⟩ => ?_, fun hs => ⟨n, ⟨Nat.le_refl n, hno⟩, hs⟩⟩
    have hkn : k = n := by
      by_contra hne
      exact hno k (by omega) hs
    rwa [← hkn]

/-- One that looks at something else has to see the release before it stops. -/
theorem wait_else_right_iff :
    ((∀ k < n, ¬ looks k) ↔ ¬ ∃ k, (k ≤ n ∧ ∀ j < k, ¬ looks j) ∧ seen k) ↔
      ((∃ k < n, looks k) ∧ ∃ k < n, seen k ∧ ∀ j < k, ¬ looks j) ∨
      ((∀ k < n, ¬ looks k) ∧ ∀ k ≤ n, ¬ seen k) := by
  by_cases h : ∃ k < n, looks k
  case pos =>
    obtain ⟨f, hf, hl⟩ := h
    have hsome : ¬ ∀ k < n, ¬ looks k := fun hno => hno f hf hl
    rw [iff_false_left hsome, not_not, or_iff_left fun hc => hsome hc.1,
      and_iff_right ⟨f, hf, hl⟩]
    constructor
    · rintro ⟨k, ⟨hk, hno⟩, hs⟩
      have hkf : k ≤ f := by
        by_contra hlt
        exact hno f (by omega) hl
      exact ⟨k, by omega, hs, hno⟩
    · rintro ⟨k, hk, hs, hno⟩
      exact ⟨k, ⟨Nat.le_of_lt hk, hno⟩, hs⟩
  case neg =>
    have hno : ∀ k < n, ¬ looks k := fun k hk hs => h ⟨k, hk, hs⟩
    rw [iff_true_left hno, or_iff_right fun hc => h hc.1, and_iff_right hno]
    exact ⟨fun hx k hk hs => hx ⟨k, ⟨hk, fun j hj => hno j (by omega)⟩, hs⟩,
      fun hx ⟨k, hk, hs⟩ => hx k hk.1 hs⟩

end

theorem retireReports_iff_when {gdmSel channel mode : Nat} {s : FeState}
    (hg : gdmSel = feGdmSelGdma1 ∨ gdmSel = feGdmSelGdma2) :
    RetireReports hw gdmSel channel mode s ↔ ReportsWhen hw gdmSel channel s.polls := by
  obtain ⟨r, hr, hreg, hreg2⟩ := retireRegs_of_gdm hg
  have ha := retireRegs_apart hr
  obtain ⟨v, m, hwait, hv, hm⟩ :=
    rlsWait_run hw ha.reg_polled ha.reg2_polled channel s.polls
  obtain ⟨rs, hrun, hhwf, hen⟩ := feApiSetChannelRetire_run hw hr channel mode s hwait
  rw [hreg, hreg2] at hv hm
  have hret : (if v ≥ gdmaChnRlsTimeout then (-1 : Int) else 0) = -1 ↔
      ∀ k < 10, ¬ LooksReleased hw gdmSel channel (s.polls + k) := by
    simp only [LooksReleased, Bool.not_eq_true]
    refine Iff.trans ?_ hv
    by_cases hle : v ≥ gdmaChnRlsTimeout <;> simp [hle]
  have hseen : ReleaseSeen hw gdmSel channel s ⟨rs, s.polls + m⟩ ↔
      ∃ k, (k ≤ 10 ∧ ∀ j < k, ¬ LooksReleased hw gdmSel channel (s.polls + j)) ∧
        ChnReleased hw gdmSel channel (s.polls + k) := by
    simp only [LooksReleased, Bool.not_eq_true]
    constructor
    · rintro ⟨k, hle, hlt, hs⟩
      obtain ⟨k, rfl⟩ : ∃ k', k = s.polls + k' := ⟨k - s.polls, by omega⟩
      exact ⟨k, (hm k).mp (by simpa using hlt), hs⟩
    · rintro ⟨k, hk, hs⟩
      exact ⟨s.polls + k, by omega, by simpa using (hm k).mpr hk, hs⟩
  have hrest : Restored gdmSel mode s ⟨rs, s.polls + m⟩ := ⟨hhwf, fun r' hr' hmode => by
    cases hr.symm.trans hr'
    exact hen hmode⟩
  rw [RetireReports, hrun]
  simp only [hret, hseen, and_iff_left hrest]
  unfold ReportsWhen
  split
  case isTrue h1 =>
    have heq : LooksReleased hw gdmSel channel = ChnReleased hw gdmSel channel := by
      funext k
      rw [LooksReleased, ChnReleased, txChnVld, if_pos h1]
      rfl
    rw [heq]
    exact wait_right_iff (fun k => ChnReleased hw gdmSel channel (s.polls + k)) 10
  case isFalse h1 =>
    exact wait_else_right_iff (fun k => LooksReleased hw gdmSel channel (s.polls + k))
      (fun k => ChnReleased hw gdmSel channel (s.polls + k)) 10

/-- The polls of `fe_channel_retire_one` show a release of GDM 1 when one of the first nine does. -/
theorem polled_seen_iff (ok : Nat → Bool) {p n rows : Nat} (h : rows ≤ n) :
    (∃ k, Polled (fun k => !ok k) n rows p k ∧ ok (p + k)) ↔ ∃ k < rows, ok (p + k) := by
  constructor
  · rintro ⟨k, hk, hs⟩
    obtain ⟨f, ⟨hfk, hf⟩, hmin⟩ : ∃ f, (f ≤ k ∧ ok (p + f) = true) ∧
        ∀ j < f, ¬ (j ≤ k ∧ ok (p + j) = true) := by
      have hex : ∃ f, f ≤ k ∧ ok (p + f) = true := ⟨k, Nat.le_refl k, hs⟩
      exact ⟨Nat.find hex, Nat.find_spec hex, fun _ hj => Nat.find_min hex hj⟩
    have hall : Nat.count (fun j => (!ok (p + j)) = true) f = f := by
      rw [Nat.count_iff_forall]
      intro j hj
      have hj' : ¬ ok (p + j) = true := fun h => hmin j hj ⟨by omega, h⟩
      simpa using hj'
    have hle := Nat.count_monotone (fun j => (!ok (p + j)) = true) hfk
    have hlt : Nat.count (fun j => (!ok (p + j)) = true) k < rows := hk.1
    exact ⟨f, by omega, hf⟩
  · rintro ⟨k, hk, hs⟩
    exact ⟨k, ⟨Nat.lt_of_le_of_lt (Nat.count_le _) hk, fun i hi => by omega⟩, hs⟩

/-- On its own port the hook returns 0, and leaves the frame engine as its one retirement does. -/
theorem an7583ChannelRetire_run {soc : SocData} {dev : GdmDev} {s s' : FeState} {ret : Int}
    (hport : dev.portId = airohaGdm3Idx) (hch : soc.retireChannel serdesEthIdx < 32)
    (hrun : feApiSetChannelRetireOne hw
      { gdmSel := soc.gdm serdesEthIdx, channel := soc.retireChannel serdesEthIdx } s = (ret, s')) :
    (an7583ChannelRetire hw soc dev s).1.1 = 0 ∧ (an7583ChannelRetire hw soc dev s).2 = s' := by
  have hmod : soc.retireChannel serdesEthIdx % 256 = soc.retireChannel serdesEthIdx :=
    Nat.mod_eq_of_lt (by omega)
  simp [an7583ChannelRetire, hport, hmod, hrun, bind, StateT.bind, pure, StateT.pure]

theorem hookReports_iff_when {soc : SocData} {dev : GdmDev} {s : FeState}
    (hch : soc.retireChannel serdesEthIdx < 32) :
    HookReports hw soc dev s ↔ HookReportsWhen hw soc dev s.polls := by
  by_cases hport : dev.portId = airohaGdm3Idx
  case neg =>
    have hrun : an7583ChannelRetire hw soc dev s = ((-1, dev), s) := by
      simp [an7583ChannelRetire, hport, pure, StateT.pure]
    rw [HookReports, hrun]
    exact iff_of_true ⟨fun h => by simp at h, ⟨rfl, fun _ _ _ => ⟨rfl, rfl⟩⟩⟩ (Or.inl hport)
  case pos =>
    rw [HookReports, HookReportsWhen, or_iff_right fun h => h hport]
    by_cases hg : soc.gdm serdesEthIdx = feGdmSelGdma1 ∨ soc.gdm serdesEthIdx = feGdmSelGdma2
    case neg =>
      -- another GDM: nothing is polled
      have hg1 : ¬ soc.gdm serdesEthIdx = feGdmSelGdma1 := fun h => hg (Or.inl h)
      have hg2 : ¬ soc.gdm serdesEthIdx = feGdmSelGdma2 := fun h => hg (Or.inr h)
      have hone : feApiSetChannelRetireOne hw
          { gdmSel := soc.gdm serdesEthIdx, channel := soc.retireChannel serdesEthIdx } s =
            (-1, s) := by
        simp [feApiSetChannelRetireOne, hg1, hg2, pure, StateT.pure]
      obtain ⟨h0, hs⟩ := an7583ChannelRetire_run hw hport hch hone
      simp only [h0, hs, if_neg hg1]
      refine iff_of_false (fun h => ?_) (fun h => hg2 h.1)
      obtain ⟨k, hle, hlt, -⟩ := h.1 trivial
      omega
    case pos =>
      obtain ⟨r, hr, hreg, hreg2⟩ := retireRegs_of_gdm hg
      have ha := retireRegs_apart hr
      obtain ⟨rs, m, hone, hrs, hm⟩ := feApiSetChannelRetireOne_run hw hr hch s
      obtain ⟨h0, hs⟩ := an7583ChannelRetire_run hw hport hch hone
      rw [hreg, hreg2] at hm
      have hrest : Restored (soc.gdm serdesEthIdx) feLinkdown s ⟨rs, s.polls + m⟩ :=
        ⟨hrs _ ha.hwf_ne_reg, fun r' hr' _ => by
          cases hr.symm.trans hr'
          exact ⟨hrs _ ha.txreg_ne_reg, hrs _ ha.rxreg_ne_reg⟩⟩
      have hseen : ReleaseSeen hw (soc.gdm serdesEthIdx) (soc.retireChannel serdesEthIdx) s
            ⟨rs, s.polls + m⟩ ↔
          ∃ k, Polled (fun k => !released hw (chnRls (soc.gdm serdesEthIdx)) gdma1TxChnVld
              (soc.retireChannel serdesEthIdx) k) 10 9 s.polls k ∧
            ChnReleased hw (soc.gdm serdesEthIdx) (soc.retireChannel serdesEthIdx)
              (s.polls + k) := by
        constructor
        · rintro ⟨k, hle, hlt, hk⟩
          obtain ⟨k, rfl⟩ : ∃ k', k = s.polls + k' := ⟨k - s.polls, by omega⟩
          exact ⟨k, (hm k).mp (by simpa using hlt), hk⟩
        · rintro ⟨k, hpolled, hk⟩
          exact ⟨s.polls + k, by omega, by simpa using (hm k).mpr hpolled, hk⟩
      simp only [h0, hs, true_imp_iff, and_iff_left hrest, hseen]
      split
      case isFalse h1 => rw [and_iff_right (hg.resolve_left h1)]
      case isTrue h1 =>
        simp only [ChnReleased, txChnVld, if_pos h1]
        exact polled_seen_iff (released hw (chnRls (soc.gdm serdesEthIdx)) gdma1TxChnVld
          (soc.retireChannel serdesEthIdx)) (by decide)

/-- On GDM 1 or 2, the two routines report what they saw and restore what they touched exactly as
the conditions say. -/
theorem retireReports_iff (hw : Nat → Nat → BitVec 32) (gdmSel channel mode : Nat) (soc : SocData)
    (dev : GdmDev) (s : FeState) (hg : gdmSel = feGdmSelGdma1 ∨ gdmSel = feGdmSelGdma2)
    (hsoc : soc.retireChannel serdesEthIdx < 32) :
    (RetireReports hw gdmSel channel mode s ↔ ReportsWhen hw gdmSel channel s.polls) ∧
      (HookReports hw soc dev s ↔ HookReportsWhen hw soc dev s.polls) :=
  ⟨retireReports_iff_when hw hg, hookReports_iff_when hw hsoc⟩

/-- A GDM whose release is seen from the poll `k` on, with the channel-valid registers at rest. -/
def releasesAt (k : Nat) : Nat → Nat → BitVec 32 := fun n offset =>
  if offset = gdma1ChnRls ∧ k ≤ n then bit 32 gdmaChnRlsStatOffset else 0#32

/-- A GDM 2 whose channel stays valid while GDM 1's is not. -/
def gdm2Busy : Nat → Nat → BitVec 32 := fun _ offset =>
  if offset = gdma2ChnRls then bit 32 gdmaChnRlsStatOffset
  else if offset = gdm2Base + 0x70 then bit 32 0
  else 0#32

def atRest : FeState := { regs := fun _ => 0#32, polls := 0 }

/-- `an7583_soc_data` leaves both tables at zero. -/
def an7583SocData : SocData := { gdm := fun _ => feGdmSelGdma1, retireChannel := fun _ => 0 }

theorem retireReports_iff_releasesAt :
    (RetireReports (releasesAt 3) feGdmSelGdma1 0 feLinkdown atRest ↔
        ReportsWhen (releasesAt 3) feGdmSelGdma1 0 0) ∧
      (HookReports (releasesAt 3) an7583SocData ⟨airohaGdm3Idx, none⟩ atRest ↔
        HookReportsWhen (releasesAt 3) an7583SocData ⟨airohaGdm3Idx, none⟩ 0) :=
  retireReports_iff (releasesAt 3) feGdmSelGdma1 0 feLinkdown an7583SocData ⟨airohaGdm3Idx, none⟩
    atRest (Or.inl rfl) (by decide)

/-- The release on the last permitted poll, the other GDM's register, and the dropped result. -/
theorem not_retireReports :
    ¬ RetireReports (releasesAt 10) feGdmSelGdma1 0 feLinkdown atRest ∧
      ¬ RetireReports gdm2Busy feGdmSelGdma2 0 feLinkdown atRest ∧
      ¬ HookReports (releasesAt 10) an7583SocData ⟨airohaGdm3Idx, none⟩ atRest := by
  refine ⟨fun h => ?_, fun h => ?_, fun h => ?_⟩
  · rw [retireReports_iff_when _ (Or.inl rfl), ReportsWhen, if_pos rfl] at h
    revert h
    simp only [ChnReleased]
    decide
  · rw [retireReports_iff_when _ (Or.inr rfl), ReportsWhen, if_neg (by decide)] at h
    revert h
    simp only [ChnReleased, LooksReleased]
    decide
  · rw [hookReports_iff_when _ (by decide), HookReportsWhen, or_iff_right (by decide),
      if_pos (show an7583SocData.gdm serdesEthIdx = feGdmSelGdma1 from rfl)] at h
    revert h
    simp only [ChnReleased]
    decide

end Airoha.Fe
