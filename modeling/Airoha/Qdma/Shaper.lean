/-
Airoha.Qdma.Shaper — the egress meters of a QDMA engine.

Translates `airoha_qdma_set_trtcm_config`, `airoha_qdma_set_trtcm_token_bucket`
and `airoha_qdma_set_tx_rate_limit` over `REG_EGRESS_TRTCM_CFG`, where every
register access succeeds: a parameter that is written is read back. A channel
has one meter, in two modes, and channels are below 32, so that they are all in
meter group 0 and the index of a meter is its channel. The size of the bucket
comes from `extra_ops.set_bucket_size`, an argument here.
-/
import Airoha.Lib.Bits

namespace Airoha.Qdma

open Airoha.Lib

/-! ## The parameters of a meter -/

/-- `enum trtcm_param_type`, the ones that are written. -/
inductive TrtcmParam where
  | miscMode
  | tokenRateMode
  | bucketsizeShiftMode
deriving DecidableEq

/-- `enum trtcm_mode_type` -/
inductive TrtcmMode where
  | commit
  | peak
deriving DecidableEq

/-- `REG_EGRESS_TRTCM_CFG`, and the parameters behind it by type, channel and mode. -/
structure EgressMeters where
  cfg : BitVec 32
  para : TrtcmParam → Nat → TrtcmMode → BitVec 32

/-- `airoha_qdma_set_trtcm_param` -/
def EgressMeters.put (m : EgressMeters) (param : TrtcmParam) (channel : Nat) (mode : TrtcmMode)
    (val : BitVec 32) : EgressMeters :=
  { m with
    para := fun p c i => if p = param ∧ c = channel ∧ i = mode then val else m.para p c i }

/-- `TRTCM_TICK_SEL`, `TRTCM_PKT_MODE` and `TRTCM_METER_MODE`. -/
def egressTickSel : BitVec 32 := bit 32 0
def egressPktMode : BitVec 32 := bit 32 1
def egressMeterMode : BitVec 32 := bit 32 2

/-- `airoha_qdma_set_trtcm_config` -/
def airohaQdmaSetTrtcmConfig (m : EgressMeters) (channel : Nat) (mode : TrtcmMode) (enable : Bool)
    (enableMask : BitVec 32) : EgressMeters :=
  let val := m.para .miscMode channel mode
  m.put .miscMode channel mode (if enable then val ||| enableMask else val &&& ~~~enableMask)

/-- `tick` of `airoha_qdma_set_trtcm_token_bucket` -/
def trtcmTick (cfg config : BitVec 32) : BitVec 32 :=
  let tick := fieldGet 0 16 cfg
  if config &&& egressTickSel ≠ 0#32 then tick * fieldGet 16 14 cfg else tick

/-- Its `unit`, none where it returns `-EINVAL`. -/
def trtcmUnit (cfg config : BitVec 32) : Option (BitVec 32) :=
  let tick := trtcmTick cfg config
  if tick = 0#32 then none
  else
    let unit := if config &&& egressPktMode ≠ 0#32 then 1000000#32 / tick else 8000#32 / tick
    if unit = 0#32 then none else some unit

/-- The token rate for `rate_val`. -/
def egressTokenRate (unit rateVal : BitVec 32) : BitVec 32 :=
  let rate := rateVal / unit
  let rateFrac := fieldPrep 6 18 (rateVal % unit) / unit
  fieldPrep 6 18 rate ||| fieldPrep 0 6 rateFrac

/-- `airoha_qdma_set_trtcm_token_bucket` -/
def airohaQdmaSetTrtcmTokenBucket (bucketShift : BitVec 32 → BitVec 32 → BitVec 32)
    (m : EgressMeters) (channel : Nat) (mode : TrtcmMode) (rateVal bucketSize : BitVec 32) :
    Int × EgressMeters :=
  let config := m.para .miscMode channel mode
  match trtcmUnit m.cfg config with
  | none => (-22, m)
  | some unit =>
      let m := m.put .tokenRateMode channel mode (egressTokenRate unit rateVal)
      (0, m.put .bucketsizeShiftMode channel mode (bucketShift config bucketSize))

/-- One round of `airoha_qdma_set_tx_rate_limit`. -/
def txRateLimitRound (bucketShift : BitVec 32 → BitVec 32 → BitVec 32) (m : EgressMeters)
    (channel : Nat) (mode : TrtcmMode) (rate bucketSize : BitVec 32) : Int × EgressMeters :=
  let m := airohaQdmaSetTrtcmConfig m channel mode (rate ≠ 0#32) egressMeterMode
  airohaQdmaSetTrtcmTokenBucket bucketShift m channel mode rate bucketSize

/-- `airoha_qdma_set_tx_rate_limit` -/
def airohaQdmaSetTxRateLimit (bucketShift : BitVec 32 → BitVec 32 → BitVec 32) (m : EgressMeters)
    (channel : Nat) (rate bucketSize : BitVec 32) : Int × EgressMeters :=
  let r := txRateLimitRound bucketShift m channel .commit rate bucketSize
  if r.1 ≠ 0 then r else txRateLimitRound bucketShift r.2 channel .peak rate bucketSize

/-! ## What a meter does -/

/-- The ticks as `airoha_qdma_init_qos` sets them: 25 us, and 40 of these. -/
structure HasTick (cfg : BitVec 32) : Prop where
  fast : fieldGet 0 16 cfg = 25#32
  ratio : fieldGet 16 14 cfg = 40#32

/-- The meter of a channel is on. -/
def EgressMeters.on (m : EgressMeters) (channel : Nat) (mode : TrtcmMode) : Bool :=
  m.para .miscMode channel mode &&& egressMeterMode ≠ 0#32

/-- The meter of a channel lets everything through. -/
def EgressMeters.Off (m : EgressMeters) (channel : Nat) : Prop := ∀ mode, m.on channel mode = false

/-- The parameters of a channel as `airoha_qdma_set_tx_rate_limit` leaves them for a rate in
kbit/s. -/
structure EgressMeters.Stores (m : EgressMeters) (channel : Nat) (rate : BitVec 32) : Prop where
  on : ∀ mode, m.on channel mode = decide (rate ≠ 0#32)
  token : ∀ mode, ∃ unit, trtcmUnit m.cfg (m.para .miscMode channel mode) = some unit ∧
    m.para .tokenRateMode channel mode = egressTokenRate unit rate

theorem EgressMeters.Stores.off {m : EgressMeters} {channel : Nat} (h : m.Stores channel 0#32) :
    m.Off channel := by
  intro mode
  simp [h.on mode]

/-- Only a channel's own parameters are looked at. -/
theorem EgressMeters.Off.congr {m m' : EgressMeters} {channel : Nat} (h : m.Off channel)
    (hpara : ∀ p i, m'.para p channel i = m.para p channel i) : m'.Off channel := by
  intro mode
  rw [← h mode, EgressMeters.on, EgressMeters.on, hpara]

/-! ## Setting a rate -/

/-- The driver's ticks give a unit in every mode. -/
theorem trtcmUnit_of_hasTick {cfg : BitVec 32} (h : HasTick cfg) (config : BitVec 32) :
    ∃ unit, trtcmUnit cfg config = some unit := by
  unfold trtcmUnit trtcmTick
  rw [h.fast, h.ratio]
  by_cases ht : config &&& egressTickSel = 0#32 <;>
    by_cases hp : config &&& egressPktMode = 0#32 <;>
    simp [ht, hp]

/-- The meter bit is neither of the two that a unit is computed from. -/
theorem trtcmUnit_meterMode (cfg x : BitVec 32) (enable : Bool) :
    trtcmUnit cfg (if enable then x ||| egressMeterMode else x &&& ~~~egressMeterMode) =
      trtcmUnit cfg x := by
  have hother : ∀ k, k ≠ 2 →
      ((if enable then x ||| egressMeterMode else x &&& ~~~egressMeterMode) &&& bit 32 k = 0#32 ↔
        x &&& bit 32 k = 0#32) := by
    intro k hk
    rw [and_bit_eq_zero_iff, and_bit_eq_zero_iff, egressMeterMode]
    cases enable with
    | true => rw [if_pos rfl, getLsbD_or_bit (by decide), decide_eq_false hk, Bool.or_false]
    | false =>
      rw [if_neg Bool.false_ne_true, getLsbD_and_not_bit, decide_eq_false hk, Bool.not_false,
        Bool.and_true]
  have htick := hother 0 (by decide)
  have hpkt := hother 1 (by decide)
  unfold trtcmUnit trtcmTick egressTickSel egressPktMode
  simp only [ne_eq, htick, hpkt]

section Round

variable {m : EgressMeters}

/-- What one round leaves, mode by mode. -/
structure RoundDone (m m' : EgressMeters) (channel : Nat) (mode : TrtcmMode) (rate : BitVec 32) :
    Prop where
  cfg : m'.cfg = m.cfg
  on : m'.on channel mode = decide (rate ≠ 0#32)
  token : ∃ unit, trtcmUnit m'.cfg (m'.para .miscMode channel mode) = some unit ∧
    m'.para .tokenRateMode channel mode = egressTokenRate unit rate
  unit : trtcmUnit m'.cfg (m'.para .miscMode channel mode) =
    trtcmUnit m.cfg (m.para .miscMode channel mode)
  frame : ∀ p c i, ¬ (c = channel ∧ i = mode) → m'.para p c i = m.para p c i

theorem meterMode_put (x : BitVec 32) (enable : Bool) :
    decide ((if enable then x ||| egressMeterMode else x &&& ~~~egressMeterMode) &&& egressMeterMode
      ≠ 0#32) = enable := by
  have hbit : ∀ y : BitVec 32, y &&& egressMeterMode = 0#32 ↔ y.getLsbD 2 = false :=
    fun y => and_bit_eq_zero_iff y 2
  have hset : (x ||| egressMeterMode).getLsbD 2 = true := by
    rw [egressMeterMode, getLsbD_or_bit (by decide)]
    simp
  have hclear : (x &&& ~~~egressMeterMode).getLsbD 2 = false := by
    rw [egressMeterMode, getLsbD_and_not_bit]
    simp
  cases enable
  · simpa using (hbit _).mpr hclear
  · have hne : (x ||| egressMeterMode) &&& egressMeterMode ≠ 0#32 := by
      rw [Ne, hbit, hset]
      decide
    simpa using hne

/-- A round turns the meter on or off and sets its rate. -/
theorem txRateLimitRound_done (bucketShift : BitVec 32 → BitVec 32 → BitVec 32) (ht : HasTick m.cfg)
    (channel : Nat) (mode : TrtcmMode) (rate bucketSize : BitVec 32) :
    ∃ m', txRateLimitRound bucketShift m channel mode rate bucketSize = (0, m') ∧
      RoundDone m m' channel mode rate := by
  let m1 := airohaQdmaSetTrtcmConfig m channel mode (rate ≠ 0#32) egressMeterMode
  obtain ⟨unit, hunit⟩ := trtcmUnit_of_hasTick ht (m1.para .miscMode channel mode)
  have heq : txRateLimitRound bucketShift m channel mode rate bucketSize =
      (0, (m1.put .tokenRateMode channel mode (egressTokenRate unit rate)).put
        .bucketsizeShiftMode channel
        mode (bucketShift (m1.para .miscMode channel mode) bucketSize)) := by
    have hunit' : trtcmUnit m1.cfg (m1.para .miscMode channel mode) = some unit := hunit
    simp only [txRateLimitRound, airohaQdmaSetTrtcmTokenBucket, m1] at hunit' ⊢
    rw [hunit']
  refine ⟨_, heq, rfl, ?_, ⟨unit, ?_, ?_⟩, ?_, ?_⟩
  · have h := meterMode_put (m.para .miscMode channel mode) (rate ≠ 0#32)
    simpa [EgressMeters.on, EgressMeters.put, m1, airohaQdmaSetTrtcmConfig] using h
  · simpa [EgressMeters.put, m1, airohaQdmaSetTrtcmConfig] using hunit
  · simp [EgressMeters.put]
  · rw [← trtcmUnit_meterMode m.cfg (m.para .miscMode channel mode) (rate ≠ 0#32)]
    simp [EgressMeters.put, m1, airohaQdmaSetTrtcmConfig]
  · intro p c i hne
    have hp : ∀ q, ¬ (p = q ∧ c = channel ∧ i = mode) := fun q h => hne h.2
    simp [EgressMeters.put, m1, airohaQdmaSetTrtcmConfig, hp]

end Round

/-- `airoha_qdma_set_tx_rate_limit` succeeds and stores the rate by the units there were, and the
meters of the other channels are as they were. -/
theorem setTxRateLimit_done (bucketShift : BitVec 32 → BitVec 32 → BitVec 32) {m : EgressMeters}
    (ht : HasTick m.cfg) (channel : Nat) (rate bucketSize : BitVec 32) :
    ∃ m', airohaQdmaSetTxRateLimit bucketShift m channel rate bucketSize = (0, m') ∧
      m'.cfg = m.cfg ∧ m'.Stores channel rate ∧
      (∀ mode, trtcmUnit m'.cfg (m'.para .miscMode channel mode) =
        trtcmUnit m.cfg (m.para .miscMode channel mode)) ∧
      ∀ p c i, c ≠ channel → m'.para p c i = m.para p c i := by
  obtain ⟨m1, heq1, h1⟩ := txRateLimitRound_done bucketShift ht channel .commit rate bucketSize
  have ht1 : HasTick m1.cfg := h1.cfg ▸ ht
  obtain ⟨m2, heq2, h2⟩ := txRateLimitRound_done bucketShift ht1 channel .peak rate bucketSize
  have hkeep : ∀ p, m2.para p channel .commit = m1.para p channel .commit := by
    intro p
    exact h2.frame p channel .commit (by simp)
  refine ⟨m2, ?_, h2.cfg.trans h1.cfg, ⟨?_, ?_⟩, ?_, ?_⟩
  · simp [airohaQdmaSetTxRateLimit, heq1, heq2]
  · intro mode
    cases mode with
    | commit =>
      rw [← h1.on, EgressMeters.on, EgressMeters.on, hkeep]
    | peak => exact h2.on
  · intro mode
    cases mode with
    | commit =>
      rw [hkeep, hkeep, h2.cfg]
      exact h1.token
    | peak => exact h2.token
  · intro mode
    cases mode with
    | commit => rw [hkeep, h2.cfg, h1.unit]
    | peak => rw [h2.unit, h1.cfg, h1.frame _ _ _ (by simp)]
  · intro p c i hne
    rw [h2.frame p c i fun h => hne h.1, h1.frame p c i fun h => hne h.1]

end Airoha.Qdma
