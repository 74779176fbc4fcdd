/-
Airoha.Qdma.Rates — the token rate of a rate limit, on the three encoders.

A token rate is 18 bits of units and 6 of sixty-fourths, where a unit is 8000
bits or 1000000 packets over the tick. `qdma_set_qdmalan_tx_ratelimit` packs
both parts with `FIELD_PREP` and checks neither, `airoha_generalSetTrtcmTokenRate`
and `generalSetRatelimitTokenRate` check them but keep the unit in an `unsigned
short`. `RateRight` says that what is stored is the rate asked for, up to one
fraction, `tokenRates_iff` when.
-/
import Airoha.Qdma.Lan
import Airoha.Qdma.MeterRuns

namespace Airoha.Qdma

open Airoha.Lib

/-! ## What is asked -/

/-- The unit of a meter with this module configuration and misc parameter. -/
def rateUnit (cfg misc : BitVec 32) : Nat :=
  if misc &&& trtcmPktMode = 0#32 then 8000 / curTick cfg misc else 1000000 / curTick cfg misc

/-- The rate a stored word stands for. -/
def decodedRate (unit : Nat) (stored : BitVec 32) : Nat :=
  (fieldGet 6 18 stored).toNat * unit + (fieldGet 0 6 stored).toNat * unit / 64

/-- The word stands for the rate, cut to a fraction of a unit, and the rate fits. -/
structure RateRight (unit rate : Nat) (stored : BitVec 32) : Prop where
  le : decodedRate unit stored ≤ rate
  near : rate ≤ decodedRate unit stored + (unit / 64 + 1)
  fits : rate / unit ≤ 0x3FFFF

section Numbers

variable {unit rate : Nat}

/-- A rate that fits and is packed by its own unit. -/
theorem rateRight_of_parts {stored : BitVec 32} (hu : 0 < unit) (hfit : rate / unit ≤ 0x3FFFF)
    (hint : (fieldGet 6 18 stored).toNat = rate / unit)
    (hfrac : (fieldGet 0 6 stored).toNat = rate % unit * 64 / unit) :
    RateRight unit rate stored := by
  obtain ⟨hle, hnear⟩ := @rate_close rate unit hu
  have hdec : decodedRate unit stored =
      rate / unit * unit + rate % unit * 64 / unit * unit / 64 := by
    rw [decodedRate, hint, hfrac]
  exact ⟨hdec ▸ hle, hdec ▸ hnear, hfit⟩

/-- Units and sixty-fourths together count the sixty-fourths. -/
theorem sixtyfourths {u : Nat} (hu : 0 < u) :
    rate / u * 64 + rate % u * 64 / u = 64 * rate / u := by
  have hsplit := Nat.div_add_mod rate u
  have hexp : 64 * rate = u * (rate / u * 64) + rate % u * 64 := by
    calc 64 * rate = 64 * (u * (rate / u) + rate % u) := by rw [hsplit]
      _ = u * (rate / u * 64) + rate % u * 64 := by ring
  rw [hexp, Nat.mul_add_div hu]

/-- What the encoders that check both parts store, packed by `u` and read by `unit`. -/
theorem decodedRate_tokenRate {u : Nat} (hu : 0 < u) (hfit : rate / u ≤ 0x3FFFF) :
    decodedRate unit (tokenRate (rate / u) (rate % u * 64 / u)) = 64 * rate / u * unit / 64 := by
  obtain ⟨hint, hfrac⟩ := tokenRate_fields hfit (fraction_lt hu)
  rw [decodedRate, hint, hfrac, ← sixtyfourths hu, Nat.add_mul]
  have hcomm : rate / u * 64 * unit = 64 * (rate / u * unit) := by ring
  rw [hcomm, Nat.mul_add_div (by decide)]

/-- A unit that does not fit 16 bits is that of a tick below 16. -/
theorem unit_wraps {tick : Nat} (h : 65536 ≤ 1000000 / tick) :
    0 < 1000000 / tick % 65536 ∧ 1000000 / tick % 65536 ≤ 65472 := by
  have hpos : 0 < tick := by
    rcases Nat.eq_zero_or_pos tick with h0 | hpos
    · rw [h0] at h
      omega
    · exact hpos
  have h16 : tick < 16 := by
    have hmul := (Nat.le_div_iff_mul_le hpos).mp h
    omega
  interval_cases tick <;> decide

/-- Packed by a unit cut to 16 bits, only a rate below one of its sixty-fourths is read back. -/
theorem rateRight_wrapped_iff {u : Nat} (hu : 0 < u) (hsmall : u ≤ 65472) (hbig : u + 65536 ≤ unit)
    (hfit : rate / u ≤ 0x3FFFF) :
    RateRight unit rate (tokenRate (rate / u) (rate % u * 64 / u)) ↔ 64 * rate < u := by
  have hdec := @decodedRate_tokenRate unit rate u hu hfit
  constructor
  · intro h
    by_contra hge
    have hn : 1 ≤ 64 * rate / u := (Nat.one_le_div_iff hu).mpr (by omega)
    have hle := h.le
    rw [hdec] at hle
    obtain ⟨n, hn'⟩ : ∃ n, 64 * rate / u = n := ⟨_, rfl⟩
    rw [hn'] at hle hn
    have hrate : 64 * rate < n * u + u := by
      have hlt := Nat.lt_div_mul_add hu (a := 64 * rate)
      rwa [hn'] at hlt
    have hscale : n * (u + 65536) ≤ n * unit := Nat.mul_le_mul_left n hbig
    have hexp : n * (u + 65536) = n * u + n * 65536 := Nat.mul_add n u 65536
    have hfloor : n * unit < (rate + 1) * 64 := by
      have hlt := Nat.lt_div_mul_add (by decide : 0 < 64) (a := n * unit)
      omega
    omega
  · intro hlt
    have hzero : 64 * rate / u = 0 := Nat.div_eq_of_lt hlt
    rw [hzero, Nat.zero_mul, Nat.zero_div] at hdec
    have hnear : rate ≤ unit / 64 + 1 := by omega
    have hdiv : rate / unit = 0 := Nat.div_eq_of_lt (by omega)
    exact ⟨by omega, by omega, by omega⟩

end Numbers

/-! ## The LAN engine -/

theorem curTick_lt (cfg misc : BitVec 32) : curTick cfg misc < 2 ^ 30 := by
  have hfast : fastTick cfg < 2 ^ 16 := toNat_fieldGet_lt 0 16 cfg
  have hslow : slowTickRatio cfg < 2 ^ 14 := toNat_fieldGet_lt 16 14 cfg
  unfold curTick
  split
  · omega
  · calc fastTick cfg * slowTickRatio cfg < 2 ^ 16 * 2 ^ 14 := Nat.mul_lt_mul'' hfast hslow
      _ = 2 ^ 30 := by decide

theorem rateUnit_le (cfg misc : BitVec 32) : rateUnit cfg misc ≤ 1000000 := by
  unfold rateUnit
  split
  · exact le_trans (Nat.div_le_self _ _) (by decide)
  · exact Nat.div_le_self _ _

/-- The tick and the unit of the token-bucket functions, in words. -/
theorem trtcmUnit_eq (cfg config : BitVec 32) :
    trtcmUnit cfg config =
      if curTick cfg config = 0 ∨ rateUnit cfg config = 0 then none
      else some (BitVec.ofNat 32 (rateUnit cfg config)) := by
  have hlt := curTick_lt cfg config
  obtain ⟨tick, htick⟩ : ∃ tick : BitVec 32, (if config &&& egressTickSel ≠ 0#32 then
      fieldGet 0 16 cfg * fieldGet 16 14 cfg else fieldGet 0 16 cfg) = tick := ⟨_, rfl⟩
  have hsel : egressTickSel = trtcmTickSel := rfl
  have hpkt : egressPktMode = trtcmPktMode := rfl
  have hnat : tick.toNat = curTick cfg config := by
    rw [← htick, hsel]
    unfold curTick fastTick slowTickRatio at *
    by_cases hs : config &&& trtcmTickSel = 0#32
    · simp [hs]
    · rw [if_neg hs] at hlt ⊢
      rw [if_pos hs, BitVec.toNat_mul, Nat.mod_eq_of_lt (by omega)]
  have hzero : tick = 0#32 ↔ curTick cfg config = 0 := by
    rw [← hnat]
    exact BitVec.toNat_inj.symm
  obtain ⟨unit, hunit⟩ : ∃ unit : BitVec 32, (if config &&& egressPktMode ≠ 0#32 then
      1000000#32 / tick else 8000#32 / tick) = unit := ⟨_, rfl⟩
  have hunat : unit.toNat = rateUnit cfg config := by
    rw [← hunit, hpkt, rateUnit, ← hnat]
    by_cases hp : config &&& trtcmPktMode = 0#32
    · simp [hp]
    · rw [if_pos hp, if_neg hp, BitVec.toNat_udiv]
      rfl
  have huzero : unit = 0#32 ↔ rateUnit cfg config = 0 := by
    rw [← hunat]
    exact BitVec.toNat_inj.symm
  have hof : BitVec.ofNat 32 (rateUnit cfg config) = unit := by
    rw [← hunat, BitVec.ofNat_toNat, BitVec.setWidth_eq]
  unfold trtcmUnit trtcmTick
  simp only [htick, hunit, hof, ← hzero, ← huzero]
  by_cases h0 : tick = 0#32
  · rw [if_pos h0, if_pos (Or.inl h0)]
  · rw [if_neg h0]
    by_cases hu0 : unit = 0#32
    · rw [if_pos hu0, if_pos (Or.inr hu0)]
    · rw [if_neg hu0, if_neg (by simp [h0, hu0])]

/-- The parts of the word the LAN engine packs: each one is cut to the width of its field. -/
theorem egressTokenRate_fields (unit v : BitVec 32) (hu : 0 < unit.toNat) :
    (fieldGet 6 18 (egressTokenRate unit v)).toNat = v.toNat / unit.toNat % 2 ^ 18 ∧
      (fieldGet 0 6 (egressTokenRate unit v)).toNat =
        v.toNat % unit.toNat % 2 ^ 18 * 64 / unit.toNat := by
  have h1 : fieldGet 6 18 (fieldPrep 0 6 (fieldPrep 6 18 (v % unit) / unit)) = 0#32 :=
    fieldGet_fieldPrep_of_disjoint (Or.inr (by decide)) _
  have h2 : fieldGet 0 6 (fieldPrep 6 18 (v / unit)) = 0#32 :=
    fieldGet_fieldPrep_of_disjoint (Or.inl (by decide)) _
  unfold egressTokenRate
  simp only
  constructor
  · rw [fieldGet_or, h1, BitVec.or_zero, fieldGet_fieldPrep_self (by decide),
      toNat_and_mask (by decide), BitVec.toNat_udiv]
  · rw [fieldGet_or, h2, BitVec.zero_or, fieldGet_fieldPrep_self (by decide),
      toNat_and_mask (by decide), BitVec.toNat_udiv, toNat_fieldPrep (by decide), BitVec.toNat_umod]
    apply Nat.mod_eq_of_lt
    have hmod := Nat.mod_lt v.toNat hu
    have hcut := Nat.mod_le (v.toNat % unit.toNat) (2 ^ 18)
    rw [Nat.div_lt_iff_lt_mul hu]
    omega

/-- What the LAN engine packs is right exactly when neither part is cut. -/
theorem rateRight_egress_iff {unit v : BitVec 32} (hu : 0 < unit.toNat)
    (hle : unit.toNat ≤ 1000000) :
    RateRight unit.toNat v.toNat (egressTokenRate unit v) ↔
      v.toNat / unit.toNat < 2 ^ 18 ∧ v.toNat % unit.toNat < 2 ^ 18 := by
  obtain ⟨hint, hfrac⟩ := egressTokenRate_fields unit v hu
  constructor
  · intro h
    have hfit : v.toNat / unit.toNat < 2 ^ 18 := by
      have := h.fits
      omega
    refine ⟨hfit, ?_⟩
    by_contra hbig
    have hnear := h.near
    rw [decodedRate, hint, hfrac, Nat.mod_eq_of_lt hfit] at hnear
    obtain ⟨r, hr⟩ : ∃ r, v.toNat % unit.toNat = r := ⟨_, rfl⟩
    have hsplit := Nat.div_add_mod v.toNat unit.toNat
    have hcomm : unit.toNat * (v.toNat / unit.toNat) = v.toNat / unit.toNat * unit.toNat :=
      Nat.mul_comm _ _
    rw [hr] at hnear hsplit hbig
    have hmul : r % 2 ^ 18 * 64 / unit.toNat * unit.toNat ≤ r % 2 ^ 18 * 64 :=
      Nat.div_mul_le_self _ _
    have hcut : r % 2 ^ 18 + 2 ^ 18 ≤ r := by
      omega
    omega
  · rintro ⟨hfit, hrem⟩
    apply rateRight_of_parts hu (by omega)
    · rw [hint, Nat.mod_eq_of_lt hfit]
    · rw [hfrac, Nat.mod_eq_of_lt hrem]

/-- The rate the LAN engine is asked for is the one it stores, in both modes. -/
def LanRateRight (m : EgressMeters) (channel : Nat) (rate : BitVec 32) : Prop :=
  (qdmaSetQdmalanTxRatelimit m channel rate).1 = 0 → ∀ mode,
    RateRight (rateUnit m.cfg (m.para .miscMode channel mode)) rate.toNat
      ((qdmaSetQdmalanTxRatelimit m channel rate).2.para .tokenRateMode channel mode)

/-- A mode has no unit, or both parts fit the field in each. -/
def LanFits (m : EgressMeters) (channel : Nat) (rate : BitVec 32) : Prop :=
  (∃ mode, trtcmUnit m.cfg (m.para .miscMode channel mode) = none) ∨
    ∀ mode, rate.toNat / rateUnit m.cfg (m.para .miscMode channel mode) < 2 ^ 18 ∧
      rate.toNat % rateUnit m.cfg (m.para .miscMode channel mode) < 2 ^ 18

section Lan

variable {m : EgressMeters} {channel : Nat} {mode : TrtcmMode} {rate bucketSize : BitVec 32}

/-- A round without a unit fails. -/
theorem qdmalanRound_none (h : trtcmUnit m.cfg (m.para .miscMode channel mode) = none) :
    (qdmalanRound m channel mode rate bucketSize).1 = -22 := by
  have hunit := trtcmUnit_meterMode m.cfg (m.para .miscMode channel mode) (rate ≠ 0#32)
  rw [h] at hunit
  simp only [qdmalanRound, qdmalanAirohaQdmaSetTrtcmTokenBucket, qdmalanAirohaQdmaSetTrtcmConfig,
    EgressMeters.put, and_self, if_true, hunit]

/-- What a round with a unit leaves. -/
structure LanRoundDone (m m' : EgressMeters) (channel : Nat) (mode : TrtcmMode)
    (rate unit : BitVec 32) : Prop where
  cfg : m'.cfg = m.cfg
  token : m'.para .tokenRateMode channel mode = egressTokenRate unit rate
  frame : ∀ p c i, ¬ (c = channel ∧ i = mode) → m'.para p c i = m.para p c i

theorem qdmalanRound_some {unit : BitVec 32}
    (h : trtcmUnit m.cfg (m.para .miscMode channel mode) = some unit) :
    ∃ m', qdmalanRound m channel mode rate bucketSize = (0, m') ∧
      LanRoundDone m m' channel mode rate unit := by
  have hunit := trtcmUnit_meterMode m.cfg (m.para .miscMode channel mode) (rate ≠ 0#32)
  rw [h] at hunit
  simp only [qdmalanRound, qdmalanAirohaQdmaSetTrtcmTokenBucket, qdmalanAirohaQdmaSetTrtcmConfig,
    EgressMeters.put, and_self, if_true, hunit]
  refine ⟨_, rfl, rfl, ?_, ?_⟩
  · simp
  · intro p c i hne
    have hp : ∀ q, ¬ (p = q ∧ c = channel ∧ i = mode) := fun q h => hne h.2
    simp [hp]

/-- Both modes have a unit, or the call fails. -/
theorem qdmaSetQdmalanTxRatelimit_none
    (h : ∃ mode, trtcmUnit m.cfg (m.para .miscMode channel mode) = none) :
    (qdmaSetQdmalanTxRatelimit m channel rate).1 ≠ 0 := by
  obtain ⟨mode, hmode⟩ := h
  unfold qdmaSetQdmalanTxRatelimit
  cases hc : trtcmUnit m.cfg (m.para .miscMode channel .commit) with
  | none => simp [qdmalanRound_none hc]
  | some unit =>
    obtain ⟨m', hround, hdone⟩ := @qdmalanRound_some m channel .commit rate
      (BitVec.ofNat 32 (qdmalanBucketSize m.cfg rate.toNat)) unit hc
    cases mode with
    | commit => simp [hc] at hmode
    | peak =>
      have hpeak : trtcmUnit m'.cfg (m'.para .miscMode channel .peak) = none := by
        rw [hdone.cfg, hdone.frame _ _ _ (by simp)]
        exact hmode
      simp [hround, qdmalanRound_none hpeak]

/-- With a unit in each mode, the call stores the rate by these. -/
theorem qdmaSetQdmalanTxRatelimit_some
    (h : ∀ mode, trtcmUnit m.cfg (m.para .miscMode channel mode) ≠ none) :
    (qdmaSetQdmalanTxRatelimit m channel rate).1 = 0 ∧ ∀ mode,
      (qdmaSetQdmalanTxRatelimit m channel rate).2.para .tokenRateMode channel mode =
        egressTokenRate (BitVec.ofNat 32 (rateUnit m.cfg (m.para .miscMode channel mode)))
          rate := by
  have hunit : ∀ mode, trtcmUnit m.cfg (m.para .miscMode channel mode) =
      some (BitVec.ofNat 32 (rateUnit m.cfg (m.para .miscMode channel mode))) := by
    intro mode
    have hm := h mode
    rw [trtcmUnit_eq] at hm ⊢
    split at hm
    · exact absurd rfl hm
    · rename_i hne
      rw [if_neg hne]
  obtain ⟨m1, hround1, hdone1⟩ := @qdmalanRound_some m channel .commit rate
    (BitVec.ofNat 32 (qdmalanBucketSize m.cfg rate.toNat)) _ (hunit .commit)
  have hpeak : trtcmUnit m1.cfg (m1.para .miscMode channel .peak) =
      some (BitVec.ofNat 32 (rateUnit m.cfg (m.para .miscMode channel .peak))) := by
    rw [hdone1.cfg, hdone1.frame _ _ _ (by simp)]
    exact hunit .peak
  obtain ⟨m2, hround2, hdone2⟩ := @qdmalanRound_some m1 channel .peak rate
    (BitVec.ofNat 32 (qdmalanBucketSize m.cfg rate.toNat)) _ hpeak
  have hrun : qdmaSetQdmalanTxRatelimit m channel rate = (0, m2) := by
    simp [qdmaSetQdmalanTxRatelimit, hround1, hround2]
  rw [hrun]
  refine ⟨rfl, ?_⟩
  intro mode
  cases mode with
  | commit =>
    simp only
    rw [hdone2.frame _ _ _ (by simp)]
    exact hdone1.token
  | peak => exact hdone2.token

theorem lanRateRight_iff : LanRateRight m channel rate ↔ LanFits m channel rate := by
  unfold LanRateRight LanFits
  by_cases hnone : ∃ mode, trtcmUnit m.cfg (m.para .miscMode channel mode) = none
  · have hfail := @qdmaSetQdmalanTxRatelimit_none m channel rate hnone
    simp only [hfail, hnone, true_or, IsEmpty.forall_iff]
  · have hsome : ∀ mode, trtcmUnit m.cfg (m.para .miscMode channel mode) ≠ none := by
      intro mode h
      exact hnone ⟨mode, h⟩
    obtain ⟨hret, hstored⟩ := @qdmaSetQdmalanTxRatelimit_some m channel rate hsome
    have hmode : ∀ mode, RateRight (rateUnit m.cfg (m.para .miscMode channel mode)) rate.toNat
        ((qdmaSetQdmalanTxRatelimit m channel rate).2.para .tokenRateMode channel mode) ↔
        rate.toNat / rateUnit m.cfg (m.para .miscMode channel mode) < 2 ^ 18 ∧
          rate.toNat % rateUnit m.cfg (m.para .miscMode channel mode) < 2 ^ 18 := by
      intro mode
      have hm := hsome mode
      rw [trtcmUnit_eq] at hm
      have hpos : 0 < rateUnit m.cfg (m.para .miscMode channel mode) := by
        by_contra hz
        exact hm (if_pos (Or.inr (by omega)))
      have hle := rateUnit_le m.cfg (m.para .miscMode channel mode)
      rw [hstored mode]
      have hnat : (BitVec.ofNat 32 (rateUnit m.cfg (m.para .miscMode channel mode))).toNat =
          rateUnit m.cfg (m.para .miscMode channel mode) := by
        rw [BitVec.toNat_ofNat]
        exact Nat.mod_eq_of_lt (by omega)
      have hiff := @rateRight_egress_iff
        (BitVec.ofNat 32 (rateUnit m.cfg (m.para .miscMode channel mode))) rate
      rw [hnat] at hiff
      exact hiff hpos hle
    simp only [hret, hnone, hmode, forall_const, false_or]

end Lan

/-! ## The other two -/

/-- `airoha_generalSetTrtcmTokenRate` and `generalSetRatelimitTokenRate` with the command as a
parameter, for every module: ingress has a bucket of its own. -/
def setTokenRateOf (type : TrtcmModule) (rounds : Nat) (para : Nat → BitVec 32)
    (rateLimitValue : BitVec 32) : Drv Int := do
  match ← rateLimitUnit para with
  | none => return eINVAL
  | some unit =>
      let integer ← divide rateLimitValue.toNat unit
      let fraction ← divide (rateLimitValue.toNat % unit * 64) unit
      if 0x3FFFF < integer ∨ 0x3F < fraction then return eINVAL
      else
        let ret ← setParaConfig (para trtcmTokenRate) (tokenRate integer fraction) rounds 0#32
        if ret < 0 then return eFAULT
        else if type = .ingress then
          let misc ← getMisc para
          if misc &&& trtcmPktMode = 0#32 then
            return generalGetBucketSizeByRate rateLimitValue.toNat
          else return rateLimitValue.toInt
        else return max (integer + 1) 4096

/-- `generalSetRatelimitTokenRate`, over the registers of its module. -/
def generalSetRatelimitTokenRate (type : TrtcmModule) (rounds : Nat) (rateLimitValue : BitVec 32)
    (index : Nat) : Drv Int :=
  setTokenRateOf type rounds (ratelimitParaCfg index) rateLimitValue

/-- `enum trtcm_mode_type` in a command. -/
def TrtcmMode.toNat : TrtcmMode → Nat
  | .commit => 0
  | .peak => 1

/-- `airoha_generalSetTrtcmTokenRate`, over the registers of its module. The parameter accesses
take the modules up to `EGRESS_TRTCM`: above, the misc parameter reads as zero and the rate is not
set. -/
def airohaGeneralSetTrtcmTokenRate (type : TrtcmModule) (rounds : Nat) (rateLimitValue : BitVec 32)
    (rateType : TrtcmMode) (index : Nat) : Drv Int := do
  if type = .glbRatectl then
    let cfg ← airohaQdmaRr regIngressTrtcmCfg
    if fastTick cfg = 0 then return eINVAL
    else
      let unit ← divide 8000 (fastTick cfg)
      if unit = 0 then return eINVAL
      else
        let integer ← divide rateLimitValue.toNat unit
        if 0x3FFFF < integer then return eINVAL else return eFAULT
  else setTokenRateOf type rounds (trtcmParaCfg index rateType.toNat) rateLimitValue

/-- What a call leaves: it fails, or it has stored the rate packed by the unit it computed, and then
only a bucket of packets that is negative as an `int` fails. -/
structure TokenRateDone (type : TrtcmModule) (misc value : BitVec 32) (unit : Option Nat) (r : Int)
    (stored : BitVec 32) : Prop where
  refused : (∀ u, unit = some u → 0x3FFFF < value.toNat / u) → r < 0
  set : ∀ u, unit = some u → value.toNat / u ≤ 0x3FFFF →
    stored = tokenRate (value.toNat / u) (value.toNat % u * 64 / u) ∧
      (r < 0 ↔ type = .ingress ∧ misc &&& trtcmPktMode ≠ 0#32 ∧ 2 ^ 31 ≤ value.toNat)

theorem generalGetBucketSizeByRate_nonneg (v : Nat) : ¬ generalGetBucketSizeByRate v < 0 := by
  unfold generalGetBucketSizeByRate
  split
  · decide
  · split
    · decide
    · split
      · decide
      · split
        · decide
        · split <;> decide

section General

variable {s : MeterRegs} {para : Nat → BitVec 32} {group index : Nat}

theorem setTokenRateOf_ends (ha : Addresses para group index) (type : TrtcmModule) (rounds : Nat)
    (value : BitVec 32) :
    Ends (setTokenRateOf type (rounds + 1) para value) s fun r s' =>
      TokenRateDone type (s.para (trtcmMisc, group, index)) value
        (unitOf (s.regs regIngressTrtcmCfg) (s.para (trtcmMisc, group, index))) r
        (s'.para (trtcmTokenRate, group, index)) := by
  unfold setTokenRateOf
  refine Ends.bind (rateLimitUnit_ends ha) ?_
  rintro got s₁ ⟨hgot, h₁⟩
  rw [← hgot]
  cases got with
  | none => exact Ends.pure ⟨fun _ => by decide, fun u hu => by cases hu⟩
  | some unit =>
    obtain ⟨hpos, -⟩ := unitOf_pos hgot.symm
    have hfrac : ¬ 0x3F < value.toNat % unit * 64 / unit := by
      have := @fraction_lt value.toNat unit hpos
      omega
    refine Ends.bind (divide_ends hpos) ?_
    rintro _ _ ⟨rfl, rfl⟩
    refine Ends.bind (divide_ends hpos) ?_
    rintro _ _ ⟨rfl, rfl⟩
    refine Ends.ite (fun hbig => ?_) fun hfit => ?_
    · refine Ends.pure ⟨fun _ => by decide, fun u hu hle => ?_⟩
      cases hu
      rcases hbig with hbig | hbig
      · exact absurd hbig (Nat.not_lt.mpr hle)
      · exact absurd hbig hfrac
    · obtain ⟨hint, -⟩ := not_or.mp hfit
      have hnever : ¬ ∀ u, some unit = some u → 0x3FFFF < value.toNat / u :=
        fun h => hint (h unit rfl)
      refine Ends.bind (setParaConfig_ends (ha.isAddress _) _ _ rounds) ?_
      rintro _ s₂ ⟨rfl, h₂⟩
      rw [ha.key _ (by decide)] at h₂
      refine Ends.ite (fun h => absurd h (by decide)) fun _ => ?_
      refine Ends.ite (fun htype => ?_) fun htype => ?_
      · refine Ends.bind (getMisc_ends ha) ?_
        rintro misc s₃ ⟨hmisc, h₃⟩
        have hmisc' : misc = s.para (trtcmMisc, group, index) := by
          rw [hmisc, h₂.within.para _ (by simp [trtcmMisc, trtcmTokenRate]), h₁.para]
        have hstored : s₃.para (trtcmTokenRate, group, index) =
            tokenRate (value.toNat / unit) (value.toNat % unit * 64 / unit) := by
          rw [h₃.para, h₂.para, Function.update_self]
        rw [hmisc']
        refine Ends.ite (fun hb => ?_) fun hb => ?_
        · refine Ends.pure ⟨fun h => absurd h hnever, fun u hu _ => ?_⟩
          cases hu
          refine ⟨hstored, ?_⟩
          have hnn := generalGetBucketSizeByRate_nonneg value.toNat
          simp [hnn, hb]
        · refine Ends.pure ⟨fun h => absurd h hnever, fun u hu _ => ?_⟩
          cases hu
          refine ⟨hstored, ?_⟩
          have hneg : value.toInt < 0 ↔ 2 ^ 31 ≤ value.toNat := by
            have hlt := value.isLt
            rw [BitVec.toInt_eq_toNat_cond]
            split <;> omega
          simp [hneg, hb, htype]
      · refine Ends.pure ⟨fun h => absurd h hnever, fun u hu _ => ?_⟩
        cases hu
        have hstored : s₂.para (trtcmTokenRate, group, index) =
            tokenRate (value.toNat / unit) (value.toNat % unit * 64 / unit) := by
          rw [h₂.para, Function.update_self]
        refine ⟨hstored, ?_⟩
        simp only [htype, false_and, iff_false]
        omega

end General

/-- The unit fits 16 bits, or nothing of the rate is read back, or the rate is refused, or the call
returns a bucket that is taken for an error. -/
def GeneralFits (type : TrtcmModule) (cfg misc value : BitVec 32) : Prop :=
  rateUnit cfg misc < 65536 ∨ 64 * value.toNat < rateUnit cfg misc % 65536 ∨
    0x3FFFF < value.toNat / (rateUnit cfg misc % 65536) ∨ (type = .ingress ∧ 2 ^ 31 ≤ value.toNat)

theorem rawUnit_eq (cfg misc : BitVec 32) : rawUnit cfg misc = rateUnit cfg misc % 65536 := rfl

/-- A unit that does not fit is one of packets, and is not cut to zero. -/
theorem rateUnit_wraps {cfg misc : BitVec 32} (h : 65536 ≤ rateUnit cfg misc) :
    misc &&& trtcmPktMode ≠ 0#32 ∧ curTick cfg misc ≠ 0 ∧ 0 < rateUnit cfg misc % 65536 ∧
      rateUnit cfg misc % 65536 ≤ 65472 := by
  unfold rateUnit at h ⊢
  by_cases hp : misc &&& trtcmPktMode = 0#32
  · rw [if_pos hp] at h
    have hle := Nat.div_le_self 8000 (curTick cfg misc)
    omega
  · rw [if_neg hp] at h ⊢
    refine ⟨hp, ?_, unit_wraps h⟩
    intro h0
    rw [h0] at h
    omega

theorem rateRight_general_iff {type : TrtcmModule} {cfg misc value stored : BitVec 32} {r : Int}
    (h : TokenRateDone type misc value (unitOf cfg misc) r stored) :
    (0 ≤ r → RateRight (rateUnit cfg misc) value.toNat stored) ↔
      GeneralFits type cfg misc value := by
  have hraw := rawUnit_eq cfg misc
  unfold GeneralFits
  by_cases hsmall : rateUnit cfg misc < 65536
  · rw [Nat.mod_eq_of_lt hsmall] at hraw
    refine iff_of_true ?_ (Or.inl hsmall)
    intro hr
    cases hu : unitOf cfg misc with
    | none =>
      have hneg := h.refused (by simp [hu])
      omega
    | some unit =>
      obtain ⟨hpos, -⟩ := unitOf_pos hu
      have hunit : unit = rateUnit cfg misc := by
        unfold unitOf at hu
        split at hu
        · cases hu
        · cases hu
          exact hraw
      have hfit : value.toNat / unit ≤ 0x3FFFF := by
        by_contra hbig
        have hneg := h.refused (by
          intro u hu'
          rw [hu] at hu'
          cases hu'
          omega)
        omega
      obtain ⟨hstored, -⟩ := h.set unit hu hfit
      obtain ⟨hint, hfrac⟩ := tokenRate_fields hfit (fraction_lt hpos)
      rw [hstored, ← hunit]
      exact rateRight_of_parts hpos hfit hint hfrac
  · obtain ⟨hpkt, htick, hpos, hle⟩ := rateUnit_wraps (Nat.not_lt.mp hsmall)
    obtain ⟨u, hu⟩ : ∃ u, rateUnit cfg misc % 65536 = u := ⟨_, rfl⟩
    rw [hu] at hraw hpos hle ⊢
    have hunit : unitOf cfg misc = some u := by
      rw [unitOf, hraw, if_neg]
      omega
    have hsplit : u + 65536 ≤ rateUnit cfg misc := by
      omega
    by_cases hbig : 0x3FFFF < value.toNat / u
    · have hneg := h.refused (by
        intro u' hu'
        rw [hunit] at hu'
        cases hu'
        exact hbig)
      exact iff_of_true (fun hr => by omega) (Or.inr (Or.inr (Or.inl hbig)))
    · obtain ⟨hstored, hneg⟩ := h.set u hunit (Nat.not_lt.mp hbig)
      have hwrap := rateRight_wrapped_iff hpos hle hsplit (Nat.not_lt.mp hbig)
      rw [hstored, hwrap, ← not_lt, hneg]
      simp only [hsmall, hbig, hpkt, ne_eq, not_false_eq_true, true_and, false_or]
      tauto

/-- The rate one of the two is asked for is the one it stores, in the meter's own parameter. -/
def GeneralRateRight (call : Drv Int) (s : MeterRegs) (value : BitVec 32) (group index : Nat) :
    Prop :=
  Ends call s fun r s' => 0 ≤ r →
    RateRight (rateUnit (s.regs regIngressTrtcmCfg) (s.para (trtcmMisc, group, index))) value.toNat
      (s'.para (trtcmTokenRate, group, index))

section Rates

variable {s : MeterRegs}

theorem ratelimit_iff (type : TrtcmModule) (rounds : Nat) (value : BitVec 32) (index : Nat) :
    GeneralRateRight (generalSetRatelimitTokenRate type (rounds + 1) value index) s value
        (qdmaMeterGroup index) (qdmaMeterIdx index) ↔
      GeneralFits type (s.regs regIngressTrtcmCfg)
        (s.para (trtcmMisc, qdmaMeterGroup index, qdmaMeterIdx index)) value := by
  refine Ends.iff_of (setTokenRateOf_ends (addresses_ratelimit index) type rounds value) ?_
  intro r s' h
  exact rateRight_general_iff h

theorem TrtcmMode.toNat_lt (mode : TrtcmMode) : mode.toNat < 2 := by
  cases mode <;> decide

theorem glbRatectl_fails (rounds : Nat) (value : BitVec 32) (rateType : TrtcmMode) (index : Nat) :
    Ends (airohaGeneralSetTrtcmTokenRate .glbRatectl rounds value rateType index) s
      fun r _ => r < 0 := by
  unfold airohaGeneralSetTrtcmTokenRate
  rw [if_pos rfl]
  refine Ends.bind (ends_rr (Q := fun _ _ => True) trivial) ?_
  intro cfg s' _
  refine Ends.ite (fun _ => Ends.pure (by decide)) fun htick => ?_
  refine Ends.bind (divide_ends (Nat.pos_of_ne_zero htick)) ?_
  rintro _ _ ⟨rfl, rfl⟩
  refine Ends.ite (fun _ => Ends.pure (by decide)) fun hunit => ?_
  refine Ends.bind (divide_ends (Nat.pos_of_ne_zero hunit)) ?_
  rintro _ _ ⟨rfl, rfl⟩
  exact Ends.ite (fun _ => Ends.pure (by decide)) fun _ => Ends.pure (by decide)

theorem trtcm_iff (type : TrtcmModule) (rounds : Nat) (value : BitVec 32) (rateType : TrtcmMode)
    (index : Nat) :
    GeneralRateRight (airohaGeneralSetTrtcmTokenRate type (rounds + 1) value rateType index) s value
        (qdmaMeterGroup index) (2 * (qdmaMeterIdx index % 64) + rateType.toNat) ↔
      type = .glbRatectl ∨ GeneralFits type (s.regs regIngressTrtcmCfg)
        (s.para (trtcmMisc, qdmaMeterGroup index, 2 * (qdmaMeterIdx index % 64) + rateType.toNat))
        value := by
  by_cases hglb : type = .glbRatectl
  · subst hglb
    refine iff_of_true ?_ (Or.inl rfl)
    refine Ends.mono (glbRatectl_fails rounds value rateType index) ?_
    intro r _ hneg hr
    omega
  · simp only [airohaGeneralSetTrtcmTokenRate, hglb, false_or]
    refine Ends.iff_of (setTokenRateOf_ends (addresses_trtcm index rateType.toNat_lt) type rounds
      value) ?_
    intro r s' h
    exact rateRight_general_iff h

theorem trtcm_ends (type : TrtcmModule) (rounds : Nat) (value : BitVec 32) (rateType : TrtcmMode)
    (index : Nat) :
    Ends (airohaGeneralSetTrtcmTokenRate type (rounds + 1) value rateType index) s
      fun _ _ => True := by
  by_cases hglb : type = .glbRatectl
  · subst hglb
    exact Ends.mono (glbRatectl_fails rounds value rateType index) fun _ _ _ => trivial
  · simp only [airohaGeneralSetTrtcmTokenRate, hglb]
    exact Ends.mono
      (setTokenRateOf_ends (addresses_trtcm index rateType.toNat_lt) type rounds value)
      fun _ _ _ => trivial

end Rates

/-! ## The divisions -/

/-- What `qdmalan_airoha_qdma_set_trtcm_token_bucket` divides by: the tick for the unit, and the
unit, where there is one, for the rate. -/
def tokenDivisors (cfg config : BitVec 32) : List (BitVec 32) :=
  if trtcmTick cfg config = 0#32 then []
  else trtcmTick cfg config :: (trtcmUnit cfg config).toList

/-- What `qdma_set_qdmalan_tx_ratelimit` divides by for the size of the bucket. -/
def bucketDivisors (cfg : BitVec 32) (rate : Nat) : List Nat :=
  if 5000000 ≤ rate then [] else [qdmalanTick cfg, qdmalanUnit cfg]

theorem zero_notMem_tokenDivisors (cfg config : BitVec 32) : 0#32 ∉ tokenDivisors cfg config := by
  unfold tokenDivisors
  split
  · exact List.not_mem_nil
  · rename_i htick
    have hsome : ∀ unit : BitVec 32, (if unit = 0#32 then none else some unit) ≠ some 0#32 := by
      intro unit h
      by_cases hunit : unit = 0#32
      · rw [if_pos hunit] at h
        cases h
      · rw [if_neg hunit] at h
        exact hunit (Option.some.inj h)
    rw [List.mem_cons, Option.mem_toList, not_or]
    refine ⟨Ne.symm htick, fun hunit => ?_⟩
    simp only [trtcmUnit, if_neg htick] at hunit
    exact hsome _ hunit

theorem zero_notMem_bucketDivisors (cfg : BitVec 32) (rate : Nat) :
    0 ∉ bucketDivisors cfg rate := by
  have hone : ∀ n : Nat, 0 ≠ if n = 0 then 1 else n := by
    intro n
    split <;> omega
  unfold bucketDivisors
  split
  · exact List.not_mem_nil
  · simp only [List.mem_cons, List.not_mem_nil, or_false, not_or]
    exact ⟨hone _, hone _⟩

/-- When the three encoders program the rate they accept: the LAN engine where neither part of the
rate is cut, the other two where the unit is not, or where it does not show. None divides by zero:
the other two would have no result then. -/
theorem tokenRates_iff (m : EgressMeters) (channel : Nat) (s : MeterRegs) (type : TrtcmModule)
    (rounds : Nat) (rate : BitVec 32) (rateType : TrtcmMode) (index : Nat) :
    (LanRateRight m channel rate ↔ LanFits m channel rate) ∧
    (GeneralRateRight (generalSetRatelimitTokenRate type (rounds + 1) rate index) s rate
        (qdmaMeterGroup index) (qdmaMeterIdx index) ↔
      GeneralFits type (s.regs regIngressTrtcmCfg)
        (s.para (trtcmMisc, qdmaMeterGroup index, qdmaMeterIdx index)) rate) ∧
    (GeneralRateRight (airohaGeneralSetTrtcmTokenRate type (rounds + 1) rate rateType index) s rate
        (qdmaMeterGroup index) (2 * (qdmaMeterIdx index % 64) + rateType.toNat) ↔
      type = .glbRatectl ∨ GeneralFits type (s.regs regIngressTrtcmCfg)
        (s.para (trtcmMisc, qdmaMeterGroup index, 2 * (qdmaMeterIdx index % 64) + rateType.toNat))
        rate) ∧
    0 ∉ bucketDivisors m.cfg rate.toNat ∧ (∀ config, 0#32 ∉ tokenDivisors m.cfg config) ∧
    (Ends (generalSetRatelimitTokenRate type (rounds + 1) rate index) s fun _ _ => True) ∧
    Ends (airohaGeneralSetTrtcmTokenRate type (rounds + 1) rate rateType index) s fun _ _ => True :=
  ⟨lanRateRight_iff, ratelimit_iff type rounds rate index,
    trtcm_iff type rounds rate rateType index,
    zero_notMem_bucketDivisors _ _, zero_notMem_tokenDivisors _,
    Ends.mono (setTokenRateOf_ends (addresses_ratelimit index) type rounds rate)
      fun _ _ _ => trivial,
    trtcm_ends type rounds rate rateType index⟩

/-- Meters as the driver sets them up, in byte mode at 25 us. -/
def byteMeters : EgressMeters where
  cfg := 0x280019#32
  para := fun _ _ _ => 0#32

/-- Meters in packet mode at 10 us. -/
def tenTickMeters : MeterRegs where
  regs := fun offset => if offset = regIngressTrtcmCfg then 10#32 else 0#32
  para := fun _ => trtcmPktMode

/-- 320 kbps times two to the 18 is accepted and stored as zero; 100000 packets are packed by a unit
of 34464. -/
theorem not_tokenRates_byteMeters :
    ¬ LanRateRight byteMeters 0 83886080#32 ∧
      ¬ GeneralRateRight (generalSetRatelimitTokenRate .ingress 1 100000#32 0)
        tenTickMeters 100000#32
        0 0 := by
  constructor
  · rw [lanRateRight_iff]
    rintro (⟨mode, hmode⟩ | hfits)
    · revert hmode
      simp only [byteMeters]
      decide
    · have hcommit := (hfits .commit).1
      revert hcommit
      simp only [byteMeters]
      decide
  · have hiff := @ratelimit_iff tenTickMeters .ingress 0 100000#32 0
    have hgroup : qdmaMeterGroup 0 = 0 := rfl
    have hindex : qdmaMeterIdx 0 = 0 := rfl
    rw [hgroup, hindex] at hiff
    rw [hiff]
    unfold GeneralFits
    decide

end Airoha.Qdma
