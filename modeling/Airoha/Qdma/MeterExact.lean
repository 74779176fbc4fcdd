/-
Airoha.Qdma.MeterExact — what a meter call stores, exactly.

`Airoha.Qdma.MeterSpec` says which parameters a call may change. Here is what
is in them afterwards: the three mode bits are those of the configuration,
and the token rate is the word for the value where the meter's unit gives
one, else what it was. In byte mode the value call succeeds exactly in the
first case.
-/
import Airoha.Qdma.Rates

namespace Airoha.Qdma

open Airoha.Lib

/-! ## The words -/

/-- A bit of the misc parameter set or cleared. -/
def withBit (msk : BitVec 32) (on : Bool) (misc : BitVec 32) : BitVec 32 :=
  if on then misc ||| msk else misc &&& ~~~msk

/-- The misc parameter with the three bits of a configuration. -/
def cfgMisc (cfg : RatelimitCfg) (misc : BitVec 32) : BitVec 32 :=
  withBit trtcmTickSel (cfg.tickSel = .slow)
    (withBit trtcmPktMode (cfg.pktMode = .packet)
      (withBit trtcmMeterMode (cfg.meterEn = .enable) misc))

/-- The token rate of a value in this unit, where it has one. -/
def rateWord (unit : Option Nat) (value : BitVec 32) : Option (BitVec 32) :=
  unit.bind fun unit =>
    if 0x3FFFF < value.toNat / unit then none
    else some (tokenRate (value.toNat / unit) (value.toNat % unit * 64 / unit))

theorem getLsbD_withBit {k : Nat} (hk : k < 32) (on : Bool) (misc : BitVec 32) (i : Nat) :
    (withBit (bit 32 k) on misc).getLsbD i = if i = k then on else misc.getLsbD i := by
  unfold withBit
  cases on
  · rw [if_neg (by decide), getLsbD_and_not_bit]
    by_cases h : i = k <;> simp [h]
  · rw [if_pos rfl, getLsbD_or_bit hk]
    by_cases h : i = k <;> simp [h]

/-- Whether one of the three bits is set is what the configuration says. -/
theorem cfgMisc_bits (cfg : RatelimitCfg) (misc : BitVec 32) :
    (cfgMisc cfg misc).getLsbD 0 = decide (cfg.tickSel = .slow) ∧
      (cfgMisc cfg misc).getLsbD 1 = decide (cfg.pktMode = .packet) ∧
      (cfgMisc cfg misc).getLsbD 2 = decide (cfg.meterEn = .enable) := by
  simp only [cfgMisc, trtcmTickSel, trtcmPktMode, trtcmMeterMode,
    getLsbD_withBit (by decide : 0 < 32),
    getLsbD_withBit (by decide : 1 < 32), getLsbD_withBit (by decide : 2 < 32)]
  simp

/-- A configuration that is there already changes nothing. -/
theorem cfgMisc_eq_self {cfg : RatelimitCfg} {misc : BitVec 32}
    (h0 : misc.getLsbD 0 = decide (cfg.tickSel = .slow))
    (h1 : misc.getLsbD 1 = decide (cfg.pktMode = .packet))
    (h2 : misc.getLsbD 2 = decide (cfg.meterEn = .enable)) : cfgMisc cfg misc = misc := by
  apply BitVec.eq_of_getLsbD_eq
  intro i _
  simp only [cfgMisc, trtcmTickSel, trtcmPktMode, trtcmMeterMode,
    getLsbD_withBit (by decide : 0 < 32),
    getLsbD_withBit (by decide : 1 < 32), getLsbD_withBit (by decide : 2 < 32)]
  split
  · subst_vars
    exact h0.symm
  · split
    · subst_vars
      exact h1.symm
    · split
      · subst_vars
        exact h2.symm
      · rfl

/-- The unit depends on the tick and the packet mode alone. -/
theorem unitOf_congr {cfg misc misc' : BitVec 32} (h0 : misc.getLsbD 0 = misc'.getLsbD 0)
    (h1 : misc.getLsbD 1 = misc'.getLsbD 1) : unitOf cfg misc = unitOf cfg misc' := by
  have ht : misc &&& trtcmTickSel = 0#32 ↔ misc' &&& trtcmTickSel = 0#32 := by
    rw [trtcmTickSel, and_bit_eq_zero_iff, and_bit_eq_zero_iff, h0]
  have hp : misc &&& trtcmPktMode = 0#32 ↔ misc' &&& trtcmPktMode = 0#32 := by
    rw [trtcmPktMode, and_bit_eq_zero_iff, and_bit_eq_zero_iff, h1]
  have htick : curTick cfg misc = curTick cfg misc' := if_congr ht rfl rfl
  have hraw : rawUnit cfg misc = rawUnit cfg misc' := by
    rw [rawUnit, rawUnit, htick]
    exact congrArg (· % 65536) (if_congr hp rfl rfl)
  rw [unitOf, unitOf, htick, hraw]

/-! ## The calls -/

section

variable {s : MeterRegs} {para : Nat → BitVec 32} {group index : Nat}

theorem setModeBits_exact (ha : Addresses para group index) (rounds : Nat) (cfg : RatelimitCfg) :
    Ends (setModeBits (rounds + 1) cfg para) s fun r s' => r = 0 ∧
      Leaves s (Function.update s.para (trtcmMisc, group, index)
        (cfgMisc cfg (s.para (trtcmMisc, group, index)))) s' := by
  unfold setModeBits
  refine Ends.bind (setMiscBit_ends ha rounds _ _) ?_
  rintro _ s₁ ⟨rfl, h₁⟩
  refine Ends.ite (fun h => absurd h (by decide)) fun _ => ?_
  refine Ends.bind (setMiscBit_ends ha rounds _ _) ?_
  rintro _ s₂ ⟨rfl, h₂⟩
  refine Ends.ite (fun h => absurd h (by decide)) fun _ => ?_
  refine Ends.mono (setMiscBit_ends ha rounds _ _) ?_
  rintro _ s₃ ⟨rfl, h₃⟩
  refine ⟨rfl, ?_, h₃.cfg.trans (h₂.cfg.trans h₁.cfg)⟩
  rw [h₃.para, h₂.para, h₁.para]
  simp [cfgMisc, withBit]

theorem setTokenRate_exact (ha : Addresses para group index) (rounds : Nat) (value : BitVec 32) :
    Ends (setTokenRate (rounds + 1) para value) s fun r s' =>
      Leaves s (Function.update s.para (trtcmTokenRate, group, index)
        ((rateWord (unitOf (s.regs regIngressTrtcmCfg) (s.para (trtcmMisc, group, index)))
          value).getD (s.para (trtcmTokenRate, group, index)))) s' ∧
      (s.para (trtcmMisc, group, index) &&& trtcmPktMode = 0#32 →
        r = if (rateWord (unitOf (s.regs regIngressTrtcmCfg) (s.para (trtcmMisc, group, index)))
          value).isSome then generalGetBucketSizeByRate value.toNat else eINVAL) := by
  unfold setTokenRate
  refine Ends.bind (rateLimitUnit_ends ha) ?_
  rintro got s₁ ⟨hgot, h₁⟩
  rw [← hgot]
  cases got with
  | none =>
    refine Ends.pure ⟨⟨?_, h₁.cfg⟩, fun _ => by simp [rateWord]⟩
    rw [h₁.para]
    simp [rateWord]
  | some unit =>
    obtain ⟨hpos, -⟩ := unitOf_pos hgot.symm
    have hfrac : ¬ 0x3F < value.toNat % unit * 64 / unit := by
      have := @fraction_lt value.toNat unit hpos
      omega
    refine Ends.bind (divide_ends hpos) ?_
    rintro _ _ ⟨rfl, rfl⟩
    refine Ends.bind (divide_ends hpos) ?_
    rintro _ _ ⟨rfl, rfl⟩
    refine Ends.ite (fun hbig => ?_) fun hfit => ?_
    · have hbig' := hbig.resolve_right hfrac
      refine Ends.pure ⟨⟨?_, h₁.cfg⟩, fun _ => by simp [rateWord, hbig']⟩
      rw [h₁.para]
      simp [rateWord, hbig']
    · obtain ⟨hint, -⟩ := not_or.mp hfit
      have hword : rateWord (some unit) value =
          some (tokenRate (value.toNat / unit) (value.toNat % unit * 64 / unit)) := by
        simp [rateWord, hint]
      rw [hword]
      refine Ends.bind (setParaConfig_ends (ha.isAddress _) _ _ rounds) ?_
      rintro _ s₂ ⟨rfl, h₂⟩
      rw [ha.key _ (by decide)] at h₂
      refine Ends.ite (fun h => absurd h (by decide)) fun _ => ?_
      refine Ends.bind (getMisc_ends ha) ?_
      rintro misc s₃ ⟨hmisc, h₃⟩
      have hmisc' : misc = s.para (trtcmMisc, group, index) := by
        rw [hmisc, h₂.within.para _ (by simp [trtcmMisc, trtcmTokenRate]), h₁.para]
      have hleaves : Leaves s (Function.update s.para (trtcmTokenRate, group, index)
          (tokenRate (value.toNat / unit) (value.toNat % unit * 64 / unit))) s₃ :=
        ⟨by rw [h₃.para, h₂.para, h₁.para], h₃.cfg.trans (h₂.cfg.trans h₁.cfg)⟩
      rw [hmisc']
      refine Ends.ite (fun _ => Ends.pure ⟨hleaves, fun _ => ?_⟩) fun hp => ?_
      · rw [Option.isSome_some, if_pos rfl]
      · exact Ends.pure ⟨hleaves, fun h => absurd h hp⟩

/-- The bucket of a byte meter is always set. -/
theorem setBucketSize_byRate (ha : Addresses para group index) (rounds v : Nat) :
    Ends (setBucketSize (rounds + 1) para (generalGetBucketSizeByRate v)) s fun r s' => r = 0 ∧
      Within (· = (trtcmBucketsizeShift, group, index)) s s' := by
  have hsmall : ¬ 0x8000000 < generalGetBucketSizeByRate v := by
    unfold generalGetBucketSizeByRate
    grind
  unfold setBucketSize
  refine Ends.ite (fun h => absurd h hsmall) fun _ => ?_
  refine Ends.bind (getMisc_ends ha) ?_
  rintro _ s₁ ⟨-, h₁⟩
  refine Ends.bind (setParaConfig_ends (ha.isAddress _) _ _ rounds) ?_
  rintro _ s₂ ⟨rfl, h₂⟩
  rw [ha.key _ (by decide)] at h₂
  refine Ends.ite (fun h => absurd h (by decide)) fun _ => ?_
  exact Ends.pure ⟨rfl, (h₁.within _).trans h₂.within⟩

/-- Token rate and bucket: the word for the value where there is one, and success in byte mode. -/
structure RateStored (s s' : MeterRegs) (group index : Nat) (value : BitVec 32) (r : Int) :
    Prop where
  within : Within (RateKeys group index) s s'
  rate : s'.para (trtcmTokenRate, group, index) =
    (rateWord (unitOf (s.regs regIngressTrtcmCfg) (s.para (trtcmMisc, group, index))) value).getD
      (s.para (trtcmTokenRate, group, index))
  success : s.para (trtcmMisc, group, index) &&& trtcmPktMode = 0#32 →
    r = if (rateWord (unitOf (s.regs regIngressTrtcmCfg)
      (s.para (trtcmMisc, group, index))) value).isSome then 0 else eINVAL

theorem setRateAndBucket_exact (ha : Addresses para group index) (rounds : Nat)
    (value : BitVec 32) :
    Ends (setRateAndBucket (rounds + 1) para value) s fun r s' =>
      RateStored s s' group index value r := by
  unfold setRateAndBucket
  refine Ends.bind (setTokenRate_exact ha rounds value) ?_
  rintro bucketSize s₁ ⟨h₁, hbyte⟩
  have hw₁ : Within (RateKeys group index) s s₁ := h₁.within.mono fun _ => Or.inl
  have hrate₁ := congrFun h₁.para (trtcmTokenRate, group, index)
  rw [Function.update_self] at hrate₁
  refine Ends.ite (fun hneg => ?_) fun hpos => ?_
  · refine Ends.pure ⟨hw₁, hrate₁, fun hb => ?_⟩
    have h := hbyte hb
    split at h
    · rw [h] at hneg
      exact absurd hneg (generalGetBucketSizeByRate_nonneg _)
    · rename_i hnone
      rw [if_neg hnone]
      exact h
  · by_cases hb : s.para (trtcmMisc, group, index) &&& trtcmPktMode = 0#32
    · have h := hbyte hb
      split at h
      · rename_i hsome
        rw [h]
        refine Ends.mono (setBucketSize_byRate ha rounds value.toNat) ?_
        rintro r s₂ ⟨rfl, h₂⟩
        refine ⟨hw₁.trans (h₂.mono fun _ => Or.inr), ?_, fun _ => (if_pos hsome).symm⟩
        rw [h₂.para _ (by simp [trtcmTokenRate, trtcmBucketsizeShift])]
        exact hrate₁
      · rw [h] at hpos
        exact absurd (by decide) hpos
    · refine Ends.mono (setBucketSize_ends ha rounds bucketSize) ?_
      intro r s₂ h₂
      refine ⟨hw₁.trans (h₂.mono fun _ => Or.inr), ?_, fun h => absurd h hb⟩
      rw [h₂.para _ (by simp [trtcmTokenRate, trtcmBucketsizeShift])]
      exact hrate₁

end

/-! ## Rate-limit mode -/

section

variable {s : MeterRegs}

theorem setRatelimitModeCfg_exact (hs : RatelimitMode s) (rounds : Nat) (cfg : RatelimitCfg)
    (hvalid : checkIndexValid false cfg.index = true) :
    Ends (setRatelimitModeCfg (rounds + 1) cfg) s fun r s' => r = 0 ∧
      Leaves s (Function.update s.para (trtcmMisc, qdmaMeterGroup cfg.index, qdmaMeterIdx cfg.index)
        (cfgMisc cfg (s.para (trtcmMisc, qdmaMeterGroup cfg.index, qdmaMeterIdx cfg.index))))
          s' := by
  unfold setRatelimitModeCfg
  refine Ends.bind (isTrtcmMode_ends hs _) ?_
  rintro _ _ ⟨rfl, rfl⟩
  refine Ends.ite (fun h => by simp [hvalid] at h) fun _ => ?_
  refine Ends.ite (fun h => absurd h Bool.false_ne_true) fun _ => ?_
  exact setModeBits_exact (addresses_ratelimit cfg.index) rounds cfg

theorem setRatelimitModeValue_exact (hs : RatelimitMode s) (rounds index : Nat) (value : BitVec 32)
    (hvalid : checkIndexValid false index = true) :
    Ends (setRatelimitModeValue (rounds + 1) index value) s fun r s' =>
      RateStored s s' (qdmaMeterGroup index) (qdmaMeterIdx index) value r := by
  unfold setRatelimitModeValue
  refine Ends.bind (isTrtcmMode_ends hs _) ?_
  rintro _ _ ⟨rfl, rfl⟩
  refine Ends.ite (fun h => by simp [hvalid] at h) fun _ => ?_
  refine Ends.ite (fun h => absurd h Bool.false_ne_true) fun _ => ?_
  exact setRateAndBucket_exact (addresses_ratelimit index) rounds value

end

end Airoha.Qdma
