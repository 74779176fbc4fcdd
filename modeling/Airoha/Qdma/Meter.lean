/-
Airoha.Qdma.Meter — the ingress meters of a QDMA engine.

Translates the ingress rate-limit part of `arht_qdma.c`: the parameter
accesses (`generalGet/SetRatelimitParaConfig`,
`airoha_generalGet/SetTrtcmParaConfig`), `qdma_general_check_index_valid`,
the mode and value setters and `airoha_generalGetTrtcmTokenRate`, up to the
four calls `airoha_dp_api_qdma_set_meter_cfg`, `…_set_meter_value`,
`…_get_meter_value` and `…_meter_default_config`. The module type is
`INGRESS_TRTCM` throughout and `trtcmCfgBase` is what `qdma_init_trtcm`
stores at probe.

A parameter is named by its type, its meter group and the eight bits from
bit 16 of the command. In rate-limit mode these are the meter index; the
trTCM accesses put the index one bit higher and the rate type into bit 16.
Both go through `getParaConfig` and `setParaConfig` here, with the command
as a parameter. Waiting for a register to read back is a loop with a bound
on its rounds.
-/
import Airoha.Lib.Bits
import Airoha.Lib.Ends
import Airoha.Qdma.Qos

namespace Airoha.Qdma

open Airoha.Lib

/-! ## §1 Registers -/

/-- `REG_INGRESS_TRTCM_CFG` -/
def regIngressTrtcmCfg : Nat := 0x0070
/-- `TRTCM_PARAM_CFG(trtcmBase)` -/
def trtcmParamCfg : Nat := regIngressTrtcmCfg + 0x4
/-- `TRTCM_DATA_LO(trtcmBase)` -/
def trtcmDataLo : Nat := regIngressTrtcmCfg + 0x8
/-- `TRTCM_DATA_HI(trtcmBase)` -/
def trtcmDataHi : Nat := regIngressTrtcmCfg + 0xc
/-- `TRTCM_PARA_RWCMD`, the same bit as `RATELIMIT_PARA_RWCMD` -/
def trtcmParaRwcmd : BitVec 32 := bit 32 31
/-- `TRTCM_PARAM_RW_DONE_MASK` -/
def trtcmParamRwDone : BitVec 32 := bit 32 30

/-- `TRTCM_MISC`, `TRTCM_TOKEN_RATE` and `TRTCM_BUCKETSIZE_SHIFT` of `GENERAL_TrtcmParaType_T`. -/
def trtcmMisc : Nat := 0
def trtcmTokenRate : Nat := 1
def trtcmBucketsizeShift : Nat := 2

/-- `TRTCM_TICK_SEL`, `TRTCM_PKT_MODE` and `TRTCM_METER_MODE` of the misc parameter. -/
def trtcmTickSel : BitVec 32 := bit 32 0
def trtcmPktMode : BitVec 32 := bit 32 1
def trtcmMeterMode : BitVec 32 := bit 32 2

def eTIMEDOUT : Int := -110

/-- The parameter a command names: type, meter group, and the bits from 16. -/
def paraKey (v : BitVec 32) : Nat × Nat × Nat :=
  ((fieldGet 28 2 v).toNat, (fieldGet 26 2 v).toNat, (fieldGet 16 8 v).toNat)

/-- The meter registers of an engine and the parameters behind them. -/
structure MeterRegs where
  regs : Nat → BitVec 32
  para : Nat × Nat × Nat → BitVec 32

/-- `airoha_qdma_wr`. A write to the command register stores the data register in the parameter,
or loads it from there, and is done at once. -/
def MeterRegs.wr (s : MeterRegs) (offset : Nat) (v : BitVec 32) : MeterRegs :=
  if offset = trtcmParamCfg then
    if v &&& trtcmParaRwcmd = 0#32 then
      { s with
        regs := Function.update (Function.update s.regs trtcmDataLo (s.para (paraKey v))) offset
          (v ||| trtcmParamRwDone) }
    else
      { regs := Function.update s.regs offset (v ||| trtcmParamRwDone)
        para := Function.update s.para (paraKey v) (s.regs trtcmDataLo) }
  else { s with regs := Function.update s.regs offset v }

/-- Driver code over the meter registers; `none` is a loop that has not ended, or a division by
zero. -/
abbrev Drv := StateT MeterRegs Option

/-- `a / b` -/
def divide (a b : Nat) : Drv Nat := if b = 0 then StateT.lift none else return a / b

/-- `airoha_qdma_rr` -/
def airohaQdmaRr (offset : Nat) : Drv (BitVec 32) := do
  return (← get).regs offset

/-- `airoha_qdma_wr` -/
def airohaQdmaWr (offset : Nat) (v : BitVec 32) : Drv PUnit :=
  modify fun s => s.wr offset v

/-! ## §2 Parameter accesses -/

/-- `QDMA_METER_IDX` and `GET_METER_IDX` -/
def qdmaMeterIdx (n : Nat) : Nat := n &&& 0xff
/-- `QDMA_METER_GROUP` and `GET_METER_GRP` -/
def qdmaMeterGroup (n : Nat) : Nat := (n >>> 8) &&& 0x3

/-- The command of `generalGetRatelimitParaConfig`. -/
def ratelimitParaCfg (index paraType : Nat) : BitVec 32 :=
  (fieldPrep 28 2 (BitVec.ofNat 32 paraType) |||
    fieldPrep 16 8 (BitVec.ofNat 32 (qdmaMeterIdx index)))
    ||| (BitVec.ofNat 32 (qdmaMeterGroup index) <<< 26)

/-- The command of `airoha_generalGetTrtcmParaConfig`. -/
def trtcmParaCfg (index rateType paraType : Nat) : BitVec 32 :=
  (fieldPrep 28 2 (BitVec.ofNat 32 paraType) |||
    fieldPrep 17 6 (BitVec.ofNat 32 (qdmaMeterIdx index)) |||
    fieldPrep 16 1 (BitVec.ofNat 32 rateType)) |||
    (BitVec.ofNat 32 (qdmaMeterGroup index) <<< 26)

/-- Reads a parameter, or times out. -/
def getParaConfig (trtcmParaCfg : BitVec 32) : Drv (Option (BitVec 32 × BitVec 32)) := do
  airohaQdmaWr trtcmParamCfg trtcmParaCfg
  let status ← airohaQdmaRr trtcmParamCfg
  if status &&& trtcmParamRwDone = 0#32 then return none
  else
    let valueLo ← airohaQdmaRr trtcmDataLo
    let valueHi ← airohaQdmaRr trtcmDataHi
    return some (valueLo, valueHi)

/-- Writes a parameter until it reads back; `tmp` is what the last round read. -/
def setParaConfig (trtcmParaCfg valueLo : BitVec 32) : Nat → BitVec 32 → Drv Int
  | 0, _ => StateT.lift none
  | rounds + 1, tmp => do
      airohaQdmaWr trtcmDataLo valueLo
      airohaQdmaWr trtcmParamCfg (trtcmParaRwcmd ||| trtcmParaCfg)
      let got ← getParaConfig trtcmParaCfg
      let tmp := (got.map Prod.fst).getD tmp
      if valueLo ≠ tmp then setParaConfig trtcmParaCfg valueLo rounds tmp
      else
        let status ← airohaQdmaRr trtcmParamCfg
        if status &&& trtcmParamRwDone = 0#32 then return eTIMEDOUT else return 0

/-- `generalSetRatelimitMeterMode`, `…PktMode`, `…TickSel` and their trTCM twins: one bit of the
misc parameter. -/
def setMiscBit (rounds : Nat) (para : Nat → BitVec 32) (msk : BitVec 32) (on : Bool) : Drv Int := do
  match ← getParaConfig (para trtcmMisc) with
  | none => return eFAULT
  | some (valueLo, _) =>
      let valueLo := if on then valueLo ||| msk else valueLo &&& ~~~msk
      let ret ← setParaConfig (para trtcmMisc) valueLo rounds 0#32
      if ret < 0 then return eFAULT else return 0

/-- `generalGetRatelimitTickSel` and its trTCM twin: a read that fails reads as zero. -/
def getMisc (para : Nat → BitVec 32) : Drv (BitVec 32) := do
  let got ← getParaConfig (para trtcmMisc)
  return (got.map Prod.fst).getD 0#32

/-- `airoha_generalGetTrtcmFastTick` -/
def fastTick (cfg : BitVec 32) : Nat := (fieldGet 0 16 cfg).toNat
/-- `airoha_generalGetTrtcmSlowTickRatio` -/
def slowTickRatio (cfg : BitVec 32) : Nat := (fieldGet 16 14 cfg).toNat

/-- Steps 1 and 2 of the token-rate functions: the tick, then the unit, an `unsigned short`.
Without a unit the callers return `-EINVAL`. -/
def rateLimitUnit (para : Nat → BitVec 32) : Drv (Option Nat) := do
  let misc ← getMisc para
  let cfg ← airohaQdmaRr regIngressTrtcmCfg
  let curTicksel :=
    if misc &&& trtcmTickSel = 0#32 then fastTick cfg else fastTick cfg * slowTickRatio cfg
  if curTicksel = 0 then return none
  else
    let misc ← getMisc para
    let unit ← divide (if misc &&& trtcmPktMode = 0#32 then 8000 else 1000000) curTicksel
    if unit % 65536 = 0 then return none else return some (unit % 65536)

/-! ## §3 The calls -/

/-- `GENERAL_TrtcmMeter_T`, `GENERAL_TrtcmPktMode_T` and `GENERAL_TrtcmTickSel_T`. -/
inductive MeterEn where
  | disable
  | enable
deriving DecidableEq

inductive PktMode where
  | byte
  | packet
deriving DecidableEq

inductive TickSel where
  | fast
  | slow
deriving DecidableEq

/-- `GENERAL_TrtcmRatelimitCfg_T` -/
structure RatelimitCfg where
  index : Nat
  meterEn : MeterEn
  pktMode : PktMode
  tickSel : TickSel

/-- `airoha_generalGetTrtcmMode`, and the correction for the meter groups without trTCM mode. -/
def isTrtcmMode (index : Nat) : Drv Bool := do
  let cfg ← airohaQdmaRr regIngressTrtcmCfg
  return if 0 < qdmaMeterGroup index then false else decide (fieldGet 30 1 cfg ≠ 0#32)

/-- `qdma_general_check_index_valid` for `INGRESS_TRTCM`. -/
def checkIndexValid (trtcm : Bool) (index : Nat) : Bool :=
  let max := ([127, 31, 15] : List Nat).getD (qdmaMeterGroup index) 0
  decide (qdmaMeterGroup index < 3) &&
    decide (qdmaMeterIdx index < if trtcm then max >>> 1 else max)

/-- The three mode bits of one parameter. -/
def setModeBits (rounds : Nat) (cfg : RatelimitCfg) (para : Nat → BitVec 32) : Drv Int := do
  let ret ← setMiscBit rounds para trtcmMeterMode (cfg.meterEn = .enable)
  if ret < 0 then return ret
  else
    let ret ← setMiscBit rounds para trtcmPktMode (cfg.pktMode = .packet)
    if ret < 0 then return ret
    else
      setMiscBit rounds para trtcmTickSel (cfg.tickSel = .slow)

/-- `airoha_qdma_general_set_ratelimit_mode_cfg` -/
def setRatelimitModeCfg (rounds : Nat) (cfg : RatelimitCfg) : Drv Int := do
  let trtcm ← isTrtcmMode cfg.index
  if checkIndexValid trtcm cfg.index = false then return eINVAL
  else if trtcm then
    let ret ← setModeBits rounds cfg (trtcmParaCfg cfg.index 0)
    if ret < 0 then return ret else setModeBits rounds cfg (trtcmParaCfg cfg.index 1)
  else setModeBits rounds cfg (ratelimitParaCfg cfg.index)

/-- `generalGetBucketSizeByRate` -/
def generalGetBucketSizeByRate (rateLimitValue : Nat) : Int :=
  if rateLimitValue ≤ 1000 <<< 2 then 64 <<< 10
  else if rateLimitValue ≤ 1000 <<< 3 then 512 <<< 10
  else if rateLimitValue ≤ 1000 <<< 4 then 1000 <<< 10
  else if rateLimitValue ≤ 1000 <<< 7 then (1000 <<< 10) * 8
  else if rateLimitValue ≤ 1000 <<< 8 then (1000 <<< 10) * 24
  else (1000 <<< 10) * 64

/-- `biSearchGetBucketSizeShift`, with the size of the interval as fuel. -/
def biSearchGetBucketSizeShift (value unit : Nat) : Nat → Nat → Nat → Int
  | 0, _, _ => eINVAL
  | fuel + 1, lo, hi =>
      if hi < lo then eINVAL
      else if 0 < value ∧ value < unit then 0
      else
        let mid := (lo + hi) / 2
        if unit <<< mid = value then mid
        else if unit <<< lo = value then lo
        else if unit <<< hi = value then hi
        else if value < unit <<< mid then
          if mid - lo ≤ 1 then mid else biSearchGetBucketSizeShift value unit fuel lo mid
        else if hi - mid ≤ 1 then hi
        else biSearchGetBucketSizeShift value unit fuel mid hi

/-- The token rate of step 3: 18 bits of integer over 6 bits of fraction. -/
def tokenRate (integer fraction : Nat) : BitVec 32 :=
  (BitVec.ofNat 32 integer <<< 6) ||| BitVec.ofNat 32 fraction

/-- `generalSetRatelimitTokenRate` and its trTCM twin: the bucket size, or an error. -/
def setTokenRate (rounds : Nat) (para : Nat → BitVec 32) (rateLimitValue : BitVec 32) :
    Drv Int := do
  match ← rateLimitUnit para with
  | none => return eINVAL
  | some unit =>
      let integer ← divide rateLimitValue.toNat unit
      let fraction ← divide (rateLimitValue.toNat % unit * 64) unit
      if 0x3FFFF < integer ∨ 0x3F < fraction then return eINVAL
      else
        let ret ← setParaConfig (para trtcmTokenRate) (tokenRate integer fraction) rounds 0#32
        if ret < 0 then return eFAULT
        else
          let misc ← getMisc para
          if misc &&& trtcmPktMode = 0#32 then
            return generalGetBucketSizeByRate rateLimitValue.toNat
          else return rateLimitValue.toInt

/-- `generalSetRatelimitBucketSize` and its trTCM twin. -/
def setBucketSize (rounds : Nat) (para : Nat → BitVec 32) (bucketSize : Int) : Drv Int := do
  if 0x8000000 < bucketSize then return eINVAL
  else
    let misc ← getMisc para
    let unit := if misc &&& trtcmPktMode = 0#32 then 1024 else 16
    let shift := biSearchGetBucketSizeShift bucketSize.toNat unit 18 0 17
    let ret ← setParaConfig (para trtcmBucketsizeShift) (BitVec.ofInt 32 shift) rounds 0#32
    if ret < 0 then return eFAULT else return 0

/-- Token rate, then bucket size, of one parameter. -/
def setRateAndBucket (rounds : Nat) (para : Nat → BitVec 32) (rateLimitValue : BitVec 32) :
    Drv Int := do
  let bucketSize ← setTokenRate rounds para rateLimitValue
  if bucketSize < 0 then return bucketSize else setBucketSize rounds para bucketSize

/-- `airoha_qdma_general_set_ratelimit_mode_value` -/
def setRatelimitModeValue (rounds index : Nat) (rateLimitValue : BitVec 32) : Drv Int := do
  let trtcm ← isTrtcmMode index
  if checkIndexValid trtcm index = false then return eINVAL
  else if trtcm then
    let ret ← setRateAndBucket rounds (trtcmParaCfg index 0) rateLimitValue
    if ret < 0 then return ret else setRateAndBucket rounds (trtcmParaCfg index 1) rateLimitValue
  else setRateAndBucket rounds (ratelimitParaCfg index) rateLimitValue

/-- `airoha_dp_api_qdma_set_meter_cfg`; the index is an `unsigned short`. -/
def airohaDpApiQdmaSetMeterCfg (rounds groupId meterIdx : Nat) (value : BitVec 32) : Drv Int :=
  setRatelimitModeCfg rounds
    { index := (groupId <<< 8 ||| meterIdx) % 65536
      meterEn := if value = 0#32 then .disable else .enable
      pktMode := .byte
      tickSel := .fast }

/-- `airoha_dp_api_qdma_set_meter_value` -/
def airohaDpApiQdmaSetMeterValue (rounds meterIdx : Nat) (value : BitVec 32) : Drv Int :=
  setRatelimitModeValue rounds (meterIdx % 65536) value

/-- `airoha_dp_api_qdma_get_meter_value`, with `airoha_generalGetTrtcmTokenRate` in it: the unit
is read as for `TRTCM_COMMIT_MODE`, the rate as a rate limit. -/
def airohaDpApiQdmaGetMeterValue (meterIdx : Nat) : Drv Int := do
  let index := meterIdx % 65536
  match ← rateLimitUnit (trtcmParaCfg index 0) with
  | none => return eINVAL
  | some unit =>
      let got ← getParaConfig (ratelimitParaCfg index trtcmTokenRate)
      let valueLo := (got.map Prod.fst).getD 0#32
      let integer := (fieldGet 6 18 valueLo).toNat
      let fraction := (fieldGet 0 6 valueLo).toNat
      return (BitVec.ofNat 32 (integer * unit + fraction * unit / 64)).toInt

/-- `tickerSel` of `airoha_dp_api_qdma_meter_default_config`. -/
def tickerSel (ringIdx : Nat) : TickSel :=
  if ringIdx = 0 ∨ ringIdx = 2 ∨ ringIdx = 8 then .slow else .fast

/-- `rateVal` of `airoha_dp_api_qdma_meter_default_config`. -/
def rateVal (ringIdx : Nat) : BitVec 32 :=
  BitVec.ofNat 32 (([4000, 1000000, 4000, 4000, 4000, 1000000, 1000000, 4000,
    200, 200, 1000000, 125000] : List Nat).getD ringIdx 1000000)

/-- One ring of `airoha_dp_api_qdma_meter_default_config`. -/
def defaultRing (rounds ringIdx : Nat) : Drv PUnit := do
  let _ ← setRatelimitModeCfg rounds
    { index := ringIdx, meterEn := .enable, pktMode := .packet, tickSel := tickerSel ringIdx }
  let _ ← setRatelimitModeValue rounds ringIdx (rateVal ringIdx)

/-- `airoha_dp_api_qdma_meter_default_config`, which ends with `generalSetTrtcmMode`. -/
def airohaDpApiQdmaMeterDefaultConfig (rounds : Nat) : Drv PUnit := do
  forM (List.range 32) (defaultRing rounds)
  let cfg ← airohaQdmaRr regIngressTrtcmCfg
  airohaQdmaWr regIngressTrtcmCfg (fieldPrep 30 1 0#32 ||| (cfg &&& ~~~mask 32 30 1))

end Airoha.Qdma
