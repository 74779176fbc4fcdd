/-
Airoha.Qdma.Limits — rate limits set through debugfs.

Translates the `set` and `get` branches of `airoha_gemport_ratelimit_value_write`
and `airoha_lan_ratelimit_value_write` of `arht_dp_api_debugfs.c`, from where
the command is parsed, and `get_meter_idx_by_gemport` and `get_meter_idx_by_lan`
of `arht_dp_api.c`, with what they look up in the packet as an argument. Both
sides keep flags beside the meters of the two engines.

`Airoha.Qdma.LimitsRuns` compares the two sides.

The text of a command is parsed by `sscanf`; here a command is its keyword and
its arguments. The copy from user space and the messages are left out.
-/
import Airoha.Qdma.MeterExact

namespace Airoha.Qdma

open Airoha.Lib

/-! ## §1 State -/

/-- `AIROHA_NUM_RX_RING` and `AIROHA_MAX_IDX_FOR_GEMPORT_RATELIMIT` -/
def airohaNumRxRing : Nat := 32
def airohaMaxIdxForGemportRatelimit : Nat := 31

/-- `dev_meter_map` -/
def devMeterMap : List (String × Nat) :=
  [("lan1", 0), ("lan2", 1), ("lan3", 2), ("lan4", 3), ("eth2", 4), ("eth3", 5), ("eth4", 6),
    ("eth5", 7)]

/-- The engines, and the arrays and flag of `arht_dp_api.c`. -/
structure RateSys where
  qdma : Nat → MeterRegs
  gemportRatelimitEnable : Nat → Nat
  lanRatelimitEnable : Nat → Nat → Nat
  gemportRatelimitFlag : Nat

abbrev RateDrv := StateT RateSys Option

/-- Driver code on the meters of one engine. -/
def onQdma {α : Type} (d : Nat) (m : Drv α) : RateDrv α := fun s =>
  (m (s.qdma d)).map fun r => (r.1, { s with qdma := Function.update s.qdma d r.2 })

/-! ## §2 `arht_dp_api_debugfs.c` -/

/-- `fuc_str` -/
inductive RateCmd where
  | set
  | get
  | other
deriving DecidableEq

/-- `ret |= …` -/
def orRet (ret ret' : Int) : Int := (BitVec.ofInt 32 ret ||| BitVec.ofInt 32 ret').toInt

/-- `airoha_dp_api_qdma_set_meter_cfg`, then `airoha_dp_api_qdma_set_meter_value`. -/
def setMeter (rounds d groupId meterIdx : Nat) (value : BitVec 32) : RateDrv Int := do
  let ret ← onQdma d (airohaDpApiQdmaSetMeterCfg rounds groupId meterIdx value)
  let ret' ← onQdma d (airohaDpApiQdmaSetMeterValue rounds (groupId <<< 8 ||| meterIdx) value)
  return orRet ret ret'

/-- The flags after a `set` on the GEM side. -/
def gemFlags (meterIdx : Nat) (value : BitVec 32) (ret : Int) (s : RateSys) : RateSys :=
  let s := if value ≠ 0#32 ∧ ret = 0 then
      { s with
        gemportRatelimitEnable :=
          Function.update s.gemportRatelimitEnable (meterIdx - airohaNumRxRing) 1
        gemportRatelimitFlag := 0 }
    else s
  if value = 0#32 then
    { s with
      gemportRatelimitEnable :=
        Function.update s.gemportRatelimitEnable (meterIdx - airohaNumRxRing) 0
      gemportRatelimitFlag := 1 }
  else s

/-- `airoha_gemport_ratelimit_value_write`, of `count` characters. `gemport_idx` is checked, and not
added to `meter_idx`. -/
def airohaGemportRatelimitValueWrite (rounds count : Nat) (cmd : RateCmd) (dir gemportIdx : Nat)
    (value : BitVec 32) : RateDrv Int := do
  if ¬ (dir ≤ 1 ∧ gemportIdx ≤ airohaMaxIdxForGemportRatelimit) then return eINVAL
  else
    let meterIdx := 0 + airohaNumRxRing
    match cmd with
    | .set =>
        let ret ← setMeter rounds dir 0 meterIdx value
        modify (gemFlags meterIdx value ret)
        if ret < 0 then return eINVAL else return count
    | .get =>
        let ret ← onQdma dir (airohaDpApiQdmaGetMeterValue (0 <<< 8 ||| meterIdx))
        if ret < 0 then return eINVAL else return count
    | .other => return eINVAL

/-- The loop over `dev_meter_map`: `meter_idx` stays 0 where no name matches. -/
def devMeterIdx (itfName : String) : Nat :=
  match devMeterMap.find? fun row => itfName = row.1 with
  | some row => row.2
  | none => 0

/-- The flags after a `set` on the LAN side. -/
def lanFlags (dir meterIdx : Nat) (value : BitVec 32) (ret : Int) (s : RateSys) : RateSys :=
  let enable (v : Nat) := Function.update s.lanRatelimitEnable dir
    (Function.update (s.lanRatelimitEnable dir) meterIdx v)
  if value = 0#32 then { s with lanRatelimitEnable := enable 0 }
  else if ret = 0 then { s with lanRatelimitEnable := enable 1 }
  else s

/-- `airoha_lan_ratelimit_value_write`, of `count` characters. -/
def airohaLanRatelimitValueWrite (rounds count : Nat) (cmd : RateCmd) (dir : Nat) (itfName : String)
    (value : BitVec 32) : RateDrv Int := do
  let meterIdx := devMeterIdx itfName
  if 2 ≤ dir then return eINVAL
  else
    match cmd with
    | .set =>
        let ret ← setMeter rounds dir 1 meterIdx value
        modify (lanFlags dir meterIdx value ret)
        if ret < 0 then return eINVAL else return count
    | .get =>
        let ret ← onQdma dir (airohaDpApiQdmaGetMeterValue (1 <<< 8 ||| meterIdx))
        if ret < 0 then return eINVAL else return count
    | .other => return eINVAL

/-! ## §3 `arht_dp_api.c` -/

/-- `fport` -/
inductive FePort where
  | gdm1
  | gdm2
  | gdm3
  | gdm4
  | other
deriving DecidableEq

/-- What `get_meter_idx_by_gemport` reads of a frame. -/
structure GemFrame where
  fport : FePort
  tsid : BitVec 8
  mark : BitVec 32

/-- The GEM port of a frame. -/
def gemportOf (f : GemFrame) : Nat :=
  match f.fport with
  | .gdm2 => f.tsid.toNat
  | _ => (fieldGet 26 6 f.mark).toNat

/-- `get_meter_idx_by_gemport` -/
def getMeterIdxByGemport (meterEnable : Bool) (s : RateSys) (f : GemFrame) : Nat :=
  if meterEnable then
    let meterIdx := gemportOf f
    if airohaMaxIdxForGemportRatelimit < meterIdx then 0x7F
    else if s.gemportRatelimitEnable meterIdx = 0 then 0x7F
    else meterIdx + airohaNumRxRing
  else 0x7F

/-- What `get_meter_idx_by_lan` finds for a frame: the device of `skb_iif`, the DSA user of the
tag, `skb->dev`, and the engine of its `airoha_gdm_dev` where that is one. -/
structure LanFrame where
  fport : FePort
  iifDev : Option String
  dsaUser : Option String
  dev : Option String
  gdmQdma : Option Nat

/-- `lan_dev` -/
def lanDevOf (f : LanFrame) : Option String :=
  match f.fport with
  | .gdm2 => f.iifDev
  | .gdm1 => f.dsaUser
  | .gdm3 | .gdm4 => f.dev
  | .other => none

/-- `dir` -/
def dirOf (f : LanFrame) : Nat :=
  match f.dev, f.gdmQdma with
  | some _, some d => if 2 ≤ d then 0 else d
  | _, _ => 1

/-- `get_meter_idx_by_lan`. The flag is asked by the position in the map. -/
def getMeterIdxByLan (meterEnable : Bool) (s : RateSys) (f : LanFrame) : Nat :=
  if meterEnable then
    match lanDevOf f with
    | none => 0x1F
    | some name =>
        match devMeterMap.zipIdx.find? fun row =>
          name = row.1.1 ∧ s.lanRatelimitEnable (dirOf f) row.2 = 1 with
        | some row => row.1.2
        | none => 0x1F
  else 0x1F

/-! ## §4 The control side -/

theorem onQdma_ends {α : Type} {d : Nat} {m : Drv α} {s : RateSys} {Q : α → MeterRegs → Prop}
    (h : Ends m (s.qdma d) Q) :
    Ends (onQdma d m) s fun r s' =>
      ∃ q, Q r q ∧ s' = { s with qdma := Function.update s.qdma d q } := by
  obtain ⟨r, q, hrun, hq⟩ := h
  have hrun' : m (s.qdma d) = some (r, q) := hrun
  exact ⟨r, { s with qdma := Function.update s.qdma d q },
    by simp [onQdma, StateT.run, hrun'], q, hq, rfl⟩

/-- What a meter does: its misc parameter and its token rate, where it is enabled. -/
def meterLimit (q : MeterRegs) (group index : Nat) : Option (BitVec 32 × BitVec 32) :=
  if (q.para (trtcmMisc, group, index)).getLsbD 2 then
    some (q.para (trtcmMisc, group, index), q.para (trtcmTokenRate, group, index))
  else none

/-- The unit of a byte meter in fast ticks. -/
def byteUnit (q : MeterRegs) : Option Nat := unitOf (q.regs regIngressTrtcmCfg) 0#32

/-- The configuration that `airoha_dp_api_qdma_set_meter_cfg` asks for. -/
def byteCfg (index : Nat) (value : BitVec 32) : RatelimitCfg where
  index := index
  meterEn := if value = 0#32 then .disable else .enable
  pktMode := .byte
  tickSel := .fast

/-- A meter is set to a value: its bits, its token rate where the value has a word, and nothing
else. -/
structure MeterSet (q q' : MeterRegs) (group index : Nat) (value : BitVec 32) : Prop where
  cfg : q'.regs regIngressTrtcmCfg = q.regs regIngressTrtcmCfg
  misc : q'.para (trtcmMisc, group, index) =
    cfgMisc (byteCfg index value) (q.para (trtcmMisc, group, index))
  rate : q'.para (trtcmTokenRate, group, index) =
    (rateWord (byteUnit q) value).getD (q.para (trtcmTokenRate, group, index))
  others : ∀ k, k.2 ≠ (group, index) → q'.para k = q.para k

/-- The meters that debugfs sets are valid in rate-limit mode. -/
structure Settable (groupId meterIdx : Nat) : Prop where
  cfgIndex : (groupId <<< 8 ||| meterIdx) % 65536 = groupId <<< 8 ||| meterIdx
  valid : checkIndexValid false (groupId <<< 8 ||| meterIdx) = true
  group : qdmaMeterGroup (groupId <<< 8 ||| meterIdx) = groupId
  index : qdmaMeterIdx (groupId <<< 8 ||| meterIdx) = meterIdx

theorem byteCfg_misc (cfg misc : BitVec 32) (index : Nat) (value : BitVec 32) :
    cfgMisc (byteCfg index value) misc &&& trtcmPktMode = 0#32 ∧
      unitOf cfg (cfgMisc (byteCfg index value) misc) = unitOf cfg 0#32 := by
  obtain ⟨h0, h1, -⟩ := cfgMisc_bits (byteCfg index value) misc
  refine ⟨?_, unitOf_congr (h0.trans ?_) (h1.trans ?_)⟩
  · rw [trtcmPktMode, and_bit_eq_zero_iff]
    exact h1
  · simp [byteCfg]
  · simp [byteCfg]

theorem setMeter_ends {s : RateSys} {d groupId meterIdx : Nat} (hs : RatelimitMode (s.qdma d))
    (hset : Settable groupId meterIdx) (rounds : Nat) (value : BitVec 32) :
    Ends (setMeter (rounds + 1) d groupId meterIdx value) s fun r s' =>
      (r = if (rateWord (byteUnit (s.qdma d)) value).isSome then 0 else eINVAL) ∧
        ∃ q, MeterSet (s.qdma d) q groupId meterIdx value ∧
          s' = { s with qdma := Function.update s.qdma d q } := by
  unfold setMeter airohaDpApiQdmaSetMeterCfg airohaDpApiQdmaSetMeterValue
  rw [hset.cfgIndex]
  refine Ends.bind (onQdma_ends (setRatelimitModeCfg_exact hs rounds
    (byteCfg (groupId <<< 8 ||| meterIdx) value) hset.valid)) ?_
  rintro _ _ ⟨q₁, ⟨rfl, h₁⟩, rfl⟩
  simp only [byteCfg, hset.group, hset.index] at h₁
  have hs₁ : RatelimitMode q₁ := h₁.within.ratelimitMode hs
  have hval := setRatelimitModeValue_exact hs₁ rounds (groupId <<< 8 ||| meterIdx) value hset.valid
  rw [hset.group, hset.index, ← Function.update_self d q₁ s.qdma] at hval
  refine Ends.bind (onQdma_ends (s := { s with qdma := Function.update s.qdma d q₁ }) hval) ?_
  rintro r _ ⟨q₂, h₂, rfl⟩
  rw [Function.update_self] at h₂
  have hmisc₁ : q₁.para (trtcmMisc, groupId, meterIdx) =
      cfgMisc (byteCfg meterIdx value) (s.qdma d |>.para (trtcmMisc, groupId, meterIdx)) := by
    rw [h₁.para, Function.update_self]
    rfl
  obtain ⟨hbyte, hunit⟩ := byteCfg_misc (q₁.regs regIngressTrtcmCfg)
    ((s.qdma d).para (trtcmMisc, groupId, meterIdx)) meterIdx value
  have hrate := h₂.rate
  have hr := h₂.success (by rw [hmisc₁]; exact hbyte)
  rw [hmisc₁, hunit, h₁.cfg] at hrate hr
  refine Ends.pure ⟨?_, q₂, ⟨h₂.within.cfg.trans h₁.cfg, ?_, ?_, fun k hk => ?_⟩, ?_⟩
  · rw [hr, byteUnit]
    split <;> decide
  · rw [h₂.within.para _ (by simp [RateKeys, trtcmMisc, trtcmTokenRate, trtcmBucketsizeShift]),
      hmisc₁]
  · rw [hrate, h₁.within.para _ rate_ne_misc]
    rfl
  · have hne : ∀ t, k ≠ (t, groupId, meterIdx) := fun t h => hk (by rw [h])
    rw [h₂.within.para k fun h => h.elim (hne _) (hne _), h₁.within.para k (hne _)]
  · simp

end Airoha.Qdma
