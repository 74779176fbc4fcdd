/-
Airoha.Qdma.Acks — setting a meter value when accesses go unacknowledged.

The functions of `Airoha.Qdma.Meter` under `airoha_dp_api_qdma_set_meter_value`
once more, over a memory whose done bit need not be seen. Each access has an
`Ack`: whether the done bit is seen while the access waits for it, whether
somebody who looks again afterwards sees it, and whether an access that goes
unacknowledged takes effect. A read that fails leaves its caller's variable
as it was, and the write helper has no bound on its rounds, so the programs
here are `Looping`. The functions for one parameter of a meter and their trTCM
twins differ in the command word only, which is an argument.
-/
import Airoha.Lib.Looping
import Airoha.Qdma.MeterExact

namespace Airoha.Qdma.Acks

open Airoha.Lib

/-! ## §1 The accesses -/

/-- What becomes of one access. -/
structure Ack where
  seen : Bool
  late : Bool
  effect : Bool

/-- The module configuration, the parameters, and what becomes of each access; `used` have been
made. -/
structure AckMeters where
  cfg : BitVec 32
  para : Nat × Nat × Nat → BitVec 32
  acks : Nat → Ack
  used : Nat

/-- Driver code over meters that may not acknowledge. -/
abbrev AckDrv := Looping AckMeters

/-- An access `n` that is acknowledged takes effect, and one that is not may. -/
def AckMeters.takes (s : AckMeters) (n : Nat) : Bool := (s.acks n).seen || (s.acks n).effect

/-- The done bit of access `n`, looked at once more. -/
def AckMeters.answers (s : AckMeters) (n : Nat) : Bool := (s.acks n).seen || (s.acks n).late

/-- `generalGetRatelimitParaConfig` with this command; `none` is `-ETIMEDOUT`. -/
def generalGetRatelimitParaConfig (v : BitVec 32) : AckDrv (Option (BitVec 32)) :=
  .act fun s =>
    (if (s.acks s.used).seen then some (s.para (paraKey v)) else none,
      { s with used := s.used + 1 })

/-- The write command of `generalSetRatelimitParaConfig`; nobody waits for its done bit. -/
def writeParaConfig (v valueLo : BitVec 32) : AckDrv PUnit :=
  .act fun s =>
    (⟨⟩, { s with
      para := if s.takes s.used then Function.update s.para (paraKey v) valueLo else s.para
      used := s.used + 1 })

/-- `read_poll_timeout` on the command register after the last access. -/
def pollDone : AckDrv Bool :=
  .act fun s => (s.answers (s.used - 1), s)

/-- One round of `generalSetRatelimitParaConfig`: `valueLo_tmp` before it and after it. -/
def writeRound (v valueLo valueLoTmp : BitVec 32) : AckDrv (BitVec 32) := do
  writeParaConfig (trtcmParaRwcmd ||| v) valueLo
  let got ← generalGetRatelimitParaConfig v
  return got.getD valueLoTmp

/-- `generalSetRatelimitParaConfig` -/
def generalSetRatelimitParaConfig (v valueLo : BitVec 32) : AckDrv Int := do
  let _ ← Looping.doWhile (writeRound v valueLo)
    (fun valueLoTmp => decide (valueLo ≠ valueLoTmp)) 0#32
  let done ← pollDone
  if done then return 0 else return eTIMEDOUT

/-! ## §2 The calls -/

/-- The misc parameter as `generalGetRatelimitTickSel` and `generalGetRatelimitPktMode` read it. -/
def generalGetRatelimitMisc (para : Nat → BitVec 32) : AckDrv (BitVec 32) := do
  let got ← generalGetRatelimitParaConfig (para trtcmMisc)
  return got.getD 0#32

/-- The register `REG_INGRESS_TRTCM_CFG`, read directly. -/
def readCfg : AckDrv (BitVec 32) := .act fun s => (s.cfg, s)

/-- Steps 1 and 2 of `generalSetRatelimitTokenRate`: the unit. -/
def rateLimitUnit (para : Nat → BitVec 32) : AckDrv (Option Nat) := do
  let misc ← generalGetRatelimitMisc para
  let cfg ← readCfg
  let curTicksel :=
    if misc &&& trtcmTickSel = 0#32 then fastTick cfg else fastTick cfg * slowTickRatio cfg
  if curTicksel = 0 then return none
  else
    let misc ← generalGetRatelimitMisc para
    let unit := (if misc &&& trtcmPktMode = 0#32 then 8000 / curTicksel
      else 1000000 / curTicksel) % 65536
    if unit = 0 then return none else return some unit

/-- Step 4 of `generalSetRatelimitTokenRate` on this misc parameter. -/
def bucketOf (misc value : BitVec 32) : Int :=
  if misc &&& trtcmPktMode = 0#32 then generalGetBucketSizeByRate value.toNat else value.toInt

/-- `generalSetRatelimitTokenRate` and its trTCM twin. -/
def generalSetRatelimitTokenRate (para : Nat → BitVec 32) (rateLimitValue : BitVec 32) :
    AckDrv Int := do
  let got ← rateLimitUnit para
  match got with
  | none => return eINVAL
  | some unit =>
      let integer := rateLimitValue.toNat / unit
      let fraction := rateLimitValue.toNat % unit * 64 / unit
      if 0x3FFFF < integer ∨ 0x3F < fraction then return eINVAL
      else
        let ret ← generalSetRatelimitParaConfig (para trtcmTokenRate) (tokenRate integer fraction)
        if ret < 0 then return eFAULT
        else
          let misc ← generalGetRatelimitMisc para
          return bucketOf misc rateLimitValue

/-- The bucket shift of a size, for this misc parameter. -/
def shiftOf (misc : BitVec 32) (bucketSize : Int) : BitVec 32 :=
  BitVec.ofInt 32 (biSearchGetBucketSizeShift bucketSize.toNat
    (if misc &&& trtcmPktMode = 0#32 then 1024 else 16) 18 0 17)

/-- `generalSetRatelimitBucketSize` and its trTCM twin. -/
def generalSetRatelimitBucketSize (para : Nat → BitVec 32) (bucketSize : Int) : AckDrv Int := do
  if 0x8000000 < bucketSize then return eINVAL
  else
    let misc ← generalGetRatelimitMisc para
    let ret ← generalSetRatelimitParaConfig (para trtcmBucketsizeShift) (shiftOf misc bucketSize)
    if ret < 0 then return eFAULT else return 0

/-- Token rate, then bucket size, of one parameter. -/
def setRateAndBucket (para : Nat → BitVec 32) (rateLimitValue : BitVec 32) : AckDrv Int := do
  let bucketSize ← generalSetRatelimitTokenRate para rateLimitValue
  if bucketSize < 0 then return bucketSize else generalSetRatelimitBucketSize para bucketSize

/-- `airoha_qdma_general_set_ratelimit_mode_value` -/
def airohaQdmaGeneralSetRatelimitModeValue (index : Nat) (rateLimitValue : BitVec 32) :
    AckDrv Int := do
  let cfg ← readCfg
  let trtcm := if 0 < qdmaMeterGroup index then false else decide (fieldGet 30 1 cfg ≠ 0#32)
  if checkIndexValid trtcm index = false then return eINVAL
  else if trtcm then
    let ret ← setRateAndBucket (trtcmParaCfg index 0) rateLimitValue
    if ret < 0 then return ret else setRateAndBucket (trtcmParaCfg index 1) rateLimitValue
  else setRateAndBucket (ratelimitParaCfg index) rateLimitValue

/-- `airoha_dp_api_qdma_set_meter_value` -/
def airohaDpApiQdmaSetMeterValue (meterIdx : Nat) (value : BitVec 32) : AckDrv Int :=
  airohaQdmaGeneralSetRatelimitModeValue (meterIdx % 65536) value

/-! ## §3 What is asked -/

/-- A set of parameters, by its meter group and the bits from 16. -/
abbrev ParaSet := Nat × Nat

/-- The parameter of this type of a set. -/
def AckMeters.param (s : AckMeters) (a : ParaSet) (t : Nat) : BitVec 32 := s.para (t, a.1, a.2)

/-- The set of a meter in rate-limit mode. -/
def ratelimitSet (meterIdx : Nat) : ParaSet := (meterGroup meterIdx, meterIndex meterIdx)

/-- The set of one of the two rates of a meter in trTCM mode. -/
def trtcmSet (meterIdx rateType : Nat) : ParaSet :=
  (meterGroup meterIdx, 2 * (meterIndex meterIdx % 64) + rateType)

/-- The meter is in trTCM mode: the register says so, and its group has that mode. -/
def AckMeters.inTrtcm (s : AckMeters) (meterIdx : Nat) : Bool :=
  if 0 < meterGroup meterIdx then false else decide (fieldGet 30 1 s.cfg ≠ 0#32)

/-- The sets of a meter in its mode. -/
def AckMeters.sets (s : AckMeters) (meterIdx : Nat) : List ParaSet :=
  if s.inTrtcm meterIdx then [trtcmSet meterIdx 0, trtcmSet meterIdx 1] else [ratelimitSet meterIdx]

/-- The token rate and the bucket shift stored are those for the misc parameter stored. -/
structure Computed (s : AckMeters) (value : BitVec 32) (a : ParaSet) : Prop where
  rate : rateWord (unitOf s.cfg (s.param a trtcmMisc)) value = some (s.param a trtcmTokenRate)
  shift : shiftOf (s.param a trtcmMisc) (bucketOf (s.param a trtcmMisc) value) =
    s.param a trtcmBucketsizeShift

/-- The two parameters are what they were. -/
structure Unchanged (s s' : AckMeters) (a : ParaSet) : Prop where
  rate : s'.param a trtcmTokenRate = s.param a trtcmTokenRate
  shift : s'.param a trtcmBucketsizeShift = s.param a trtcmBucketsizeShift

/-- Every access of the call before access `n` was acknowledged. -/
def SeenTo (s : AckMeters) (n : Nat) : Prop :=
  ∀ m, s.used ≤ m → m < n → (s.acks m).seen = true

/-- Setting a meter value ends; when it succeeds the parameters of the meter are the computed ones,
and when it fails with every access acknowledged they are unchanged. -/
def AllOrNothing (s : AckMeters) (meterIdx : Nat) (value : BitVec 32) : Prop :=
  (airohaDpApiQdmaSetMeterValue meterIdx value).Ends s fun r s' =>
    (r = 0 → ∀ a ∈ s.sets meterIdx, Computed s' value a) ∧
      (r < 0 → SeenTo s s'.used → ∀ a ∈ s.sets meterIdx, Unchanged s s' a)

/-! ## §4 When the code does it -/

/-- What a caller makes of `x`, read with access `n`. -/
def heard (s : AckMeters) (n : Nat) (x : BitVec 32) : BitVec 32 :=
  if (s.acks n).seen then x else 0#32

/-- The quotient computed from two readings of the misc parameter. -/
def heardRaw (cfg tick pkt : BitVec 32) : Nat :=
  (if pkt &&& trtcmPktMode = 0#32 then 8000 / curTick cfg tick
    else 1000000 / curTick cfg tick) % 65536

/-- The unit computed from two readings of the misc parameter. -/
def heardUnit (cfg tick pkt : BitVec 32) : Option Nat :=
  if curTick cfg tick = 0 ∨ heardRaw cfg tick pkt = 0 then none else some (heardRaw cfg tick pkt)

/-- The token rate a value has by the misc parameter, heard with the accesses `p` and `p + 1`. -/
def heardRate (s : AckMeters) (p : Nat) (misc value : BitVec 32) : Option (BitVec 32) :=
  rateWord (heardUnit s.cfg (heard s p misc) (heard s (p + 1) misc)) value

/-- The accesses the unit takes: the packet mode is read only with a tick. -/
def unitAccesses (cfg tick : BitVec 32) : Nat := if curTick cfg tick = 0 then 1 else 2

/-- Round `k` of a write of `w` over `old`, begun with access `p`, reads back `w`: the round's read
is acknowledged and a write took effect or was not needed, or `w` is 0, which the variable holds
until a read is acknowledged. -/
def ReadsBack (s : AckMeters) (p : Nat) (old w : BitVec 32) (k : Nat) : Prop :=
  if (s.acks (p + 2 * k + 1)).seen then old = w ∨ ∃ j ≤ k, s.takes (p + 2 * j) = true
  else k = 0 ∧ w = 0#32

/-- Round `k` is the first to read back `w`. -/
def EndsAt (s : AckMeters) (p : Nat) (old w : BitVec 32) (k : Nat) : Prop :=
  ReadsBack s p old w k ∧ ∀ j < k, ¬ ReadsBack s p old w j

/-- A write of `w` over `old`, begun with access `p`, is over without a trace: `w` is 0, and the
first round neither takes effect nor is read back. -/
def Lost (s : AckMeters) (p : Nat) (old w : BitVec 32) : Prop :=
  w = 0#32 ∧ old ≠ 0#32 ∧ s.takes p = false ∧ (s.acks (p + 1)).seen = false

instance (s : AckMeters) (p : Nat) (old w : BitVec 32) : Decidable (Lost s p old w) :=
  inferInstanceAs (Decidable (_ ∧ _ ∧ _ ∧ _))

/-- The heard word `w` is the one that is asked for, and its write is not lost; or it is lost over
the one that is asked for. -/
def Lands (s : AckMeters) (p : Nat) (old w : BitVec 32) (asked : Option (BitVec 32)) : Prop :=
  if Lost s p old w then asked = some old else asked = some w

/-- The bucket size of a set is written for the misc parameter heard with access `q`, after the
token rate `w` from access `p` on. The write has to end; then its done bit is not seen, or the
call goes on, and `next` is asked of the accesses, the two words and whether they landed. -/
def BucketSettles (s : AckMeters) (a : ParaSet) (value : BitVec 32) (p : Nat) (w : BitVec 32)
    (bucket : Int) (q : Nat) (next : Nat → BitVec 32 → BitVec 32 → Prop → Prop) : Prop :=
  let misc := s.param a trtcmMisc
  let shift := s.param a trtcmBucketsizeShift
  let w' := shiftOf (heard s q misc) bucket
  ∃ k, EndsAt s (q + 1) shift w' k ∧ (s.answers (q + 1 + 2 * k + 1) = true →
    next (q + 1 + 2 * (k + 1)) w w'
      (Lands s p (s.param a trtcmTokenRate) w (rateWord (unitOf s.cfg misc) value) ∧
        Lands s (q + 1) shift w' (some (shiftOf misc (bucketOf misc value)))))

/-- The token rate `w` of a set is written, with access `p` the first. The write has to end; then
its done bit is not seen, or the bucket size is refused, and an access went unacknowledged, or the
parameter held `w` before and what was written before it is `kept`, or the bucket size settles. -/
def RateSettles (s : AckMeters) (a : ParaSet) (value w : BitVec 32) (p : Nat) (kept : Prop)
    (next : Nat → BitVec 32 → BitVec 32 → Prop → Prop) : Prop :=
  let rate := s.param a trtcmTokenRate
  ∃ k, EndsAt s p rate w k ∧ (s.answers (p + 2 * k + 1) = true →
    let q := p + 2 * (k + 1)
    let bucket := bucketOf (heard s q (s.param a trtcmMisc)) value
    if bucket < 0 ∨ 0x8000000 < bucket then SeenTo s (q + 1) → kept ∧ rate = w
    else BucketSettles s a value p w bucket (q + 1) next)

/-- The two parameters of a set, with access `p` the first: the heard misc parameter gives no token
rate, or the one it gives settles. -/
def SetSettles (s : AckMeters) (a : ParaSet) (value : BitVec 32) (p : Nat) (kept : Prop)
    (next : Nat → BitVec 32 → BitVec 32 → Prop → Prop) : Prop :=
  match heardRate s p (s.param a trtcmMisc) value with
  | none => SeenTo s (p + unitAccesses s.cfg (heard s p (s.param a trtcmMisc))) → kept
  | some w => RateSettles s a value w (p + 2) kept next

/-- The index is refused, or the set of the meter settles, or in trTCM mode those of its two rates
one after the other: an error in the second one keeps what the first one held before. -/
def Settles (s : AckMeters) (meterIdx : Nat) (value : BitVec 32) : Prop :=
  checkIndexValid (s.inTrtcm meterIdx) (meterIdx % 65536) = true →
    if s.inTrtcm meterIdx then
      SetSettles s (trtcmSet meterIdx 0) value s.used True fun n w w' lands =>
        SetSettles s (trtcmSet meterIdx 1) value n
          (s.param (trtcmSet meterIdx 0) trtcmTokenRate = w ∧
            s.param (trtcmSet meterIdx 0) trtcmBucketsizeShift = w')
          fun _ _ _ lands' => lands ∧ lands'
    else SetSettles s (ratelimitSet meterIdx) value s.used True fun _ _ _ lands => lands

end Airoha.Qdma.Acks
