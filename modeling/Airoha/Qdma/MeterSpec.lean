/-
Airoha.Qdma.MeterSpec — what each meter call does to the parameters.

One lemma per function of `Airoha.Qdma.Meter`, bottom up: a parameter
access reads or writes the parameter its command names and ends after one
round, the setters change the misc, token-rate and bucket parameters of
their own meter, and `unitOf` is the unit both the set and the get compute,
each from the misc parameter it reads. The register
`REG_INGRESS_TRTCM_CFG` stays as it is all along.
-/
import Airoha.Qdma.Meter

namespace Airoha.Qdma

open Airoha.Lib

/-! ## Commands -/

/-- The command of a parameter access, without `TRTCM_PARA_RWCMD`. -/
def IsAddress (v : BitVec 32) : Prop := v &&& trtcmParaRwcmd = 0#32

theorem qdmaMeterIdx_lt (n : Nat) : qdmaMeterIdx n < 256 := by
  have h : n &&& 0xff ≤ 0xff := Nat.and_le_right
  unfold qdmaMeterIdx
  omega

theorem qdmaMeterGroup_lt (n : Nat) : qdmaMeterGroup n < 4 := by
  have h : n >>> 8 &&& 0x3 ≤ 0x3 := Nat.and_le_right
  unfold qdmaMeterGroup
  omega

theorem groupShift_eq (n : Nat) :
    BitVec.ofNat 32 (qdmaMeterGroup n) <<< 26 =
      fieldPrep 26 2 (BitVec.ofNat 32 (qdmaMeterGroup n)) :=
  shiftLeft_eq_fieldPrep (ofNat_and_mask (n := 2) (qdmaMeterGroup_lt n)) 26

theorem isAddress_ratelimit (index t : Nat) : IsAddress (ratelimitParaCfg index t) := by
  unfold IsAddress trtcmParaRwcmd
  rw [and_bit_eq_zero_iff, ratelimitParaCfg, groupShift_eq]
  simp only [BitVec.getLsbD_or, getLsbD_fieldPrep]
  simp

theorem isAddress_trtcm (index rateType t : Nat) : IsAddress (trtcmParaCfg index rateType t) := by
  unfold IsAddress trtcmParaRwcmd
  rw [and_bit_eq_zero_iff, trtcmParaCfg, groupShift_eq]
  simp only [BitVec.getLsbD_or, getLsbD_fieldPrep]
  simp

/-- A rate-limit command names the meter's own parameter. -/
theorem paraKey_ratelimit (index : Nat) {t : Nat} (ht : t < 4) :
    paraKey (ratelimitParaCfg index t) = (t, qdmaMeterGroup index, qdmaMeterIdx index) := by
  have hself : ∀ s n k, s + n ≤ 32 → k < 2 ^ n →
      (fieldGet s n (fieldPrep s n (BitVec.ofNat 32 k))).toNat = k := fun _ _ _ => field_prep
  have hdis : ∀ s n s' n' (v : BitVec 32), s + n ≤ s' ∨ s' + n' ≤ s →
      fieldGet s n (fieldPrep s' n' v) = 0#32 :=
    fun _ _ _ _ v h => fieldGet_fieldPrep_of_disjoint h v
  unfold paraKey ratelimitParaCfg
  rw [groupShift_eq]
  simp only [fieldGet_or]
  rw [hdis 28 2 16 8 _ (by decide), hdis 28 2 26 2 _ (by decide), hdis 26 2 28 2 _ (by decide),
    hdis 26 2 16 8 _ (by decide), hdis 16 8 28 2 _ (by decide), hdis 16 8 26 2 _ (by decide)]
  simp only [BitVec.zero_or, BitVec.or_zero]
  rw [hself 28 2 t (by decide) ht, hself 26 2 _ (by decide) (qdmaMeterGroup_lt index),
    hself 16 8 _ (by decide) (qdmaMeterIdx_lt index)]

/-- A trTCM command names the parameter with twice the index, and the rate type in the lowest
bit. -/
theorem paraKey_trtcm (index : Nat) {rateType t : Nat} (hr : rateType < 2) (ht : t < 4) :
    paraKey (trtcmParaCfg index rateType t) =
      (t, qdmaMeterGroup index, 2 * (qdmaMeterIdx index % 64) + rateType) := by
  have hself : ∀ s n k, s + n ≤ 32 → k < 2 ^ n →
      (fieldGet s n (fieldPrep s n (BitVec.ofNat 32 k))).toNat = k := fun _ _ _ => field_prep
  have hdis : ∀ s n s' n' (v : BitVec 32), s + n ≤ s' ∨ s' + n' ≤ s →
      fieldGet s n (fieldPrep s' n' v) = 0#32 :=
    fun _ _ _ _ v h => fieldGet_fieldPrep_of_disjoint h v
  have hidx : ∀ k < 256, ∀ r < 2, (fieldGet 16 8 (fieldPrep 17 6 (BitVec.ofNat 32 k)) |||
      fieldGet 16 8 (fieldPrep 16 1 (BitVec.ofNat 32 r))).toNat = 2 * (k % 64) + r := by
    decide +kernel
  unfold paraKey trtcmParaCfg
  rw [groupShift_eq]
  simp only [fieldGet_or]
  rw [hdis 28 2 17 6 _ (by decide), hdis 28 2 16 1 _ (by decide), hdis 28 2 26 2 _ (by decide),
    hdis 26 2 28 2 _ (by decide), hdis 26 2 17 6 _ (by decide), hdis 26 2 16 1 _ (by decide),
    hdis 16 8 28 2 _ (by decide), hdis 16 8 26 2 _ (by decide)]
  simp only [BitVec.zero_or, BitVec.or_zero]
  rw [hself 28 2 t (by decide) ht, hself 26 2 _ (by decide) (qdmaMeterGroup_lt index),
    hidx _ (qdmaMeterIdx_lt index) _ hr]

/-! ## Parameter accesses -/

/-- `s'` has the parameters `para` and the module configuration of `s`. -/
structure Leaves (s : MeterRegs) (para : Nat × Nat × Nat → BitVec 32) (s' : MeterRegs) : Prop where
  para : s'.para = para
  cfg : s'.regs regIngressTrtcmCfg = s.regs regIngressTrtcmCfg

theorem ends_wr {s : MeterRegs} {offset : Nat} {v : BitVec 32} {Q : PUnit → MeterRegs → Prop}
    (h : Q ⟨⟩ (s.wr offset v)) : Ends (airohaQdmaWr offset v) s Q :=
  Ends.modify h

theorem ends_rr {s : MeterRegs} {offset : Nat} {Q : BitVec 32 → MeterRegs → Prop}
    (h : Q (s.regs offset) s) : Ends (airohaQdmaRr offset) s Q :=
  Ends.bind (Ends.get (Q := fun r s' => r = s ∧ s' = s) ⟨rfl, rfl⟩) (by
    rintro _ _ ⟨rfl, rfl⟩
    exact Ends.pure h)

/-- The registers after the parameter of command `v` was loaded. -/
def MeterRegs.loaded (s : MeterRegs) (v : BitVec 32) : MeterRegs :=
  { s with
    regs := Function.update (Function.update s.regs trtcmDataLo (s.para (paraKey v)))
      trtcmParamCfg (v ||| trtcmParamRwDone) }

/-- The registers after `x` was stored in the parameter of command `v`. -/
def MeterRegs.stored (s : MeterRegs) (v x : BitVec 32) : MeterRegs :=
  { regs := Function.update (Function.update s.regs trtcmDataLo x) trtcmParamCfg
      (trtcmParaRwcmd ||| v ||| trtcmParamRwDone)
    para := Function.update s.para (paraKey v) x }

@[simp] theorem loaded_param (s : MeterRegs) (v : BitVec 32) :
    (s.loaded v).regs trtcmParamCfg = v ||| trtcmParamRwDone := by
  simp [MeterRegs.loaded]

@[simp] theorem loaded_lo (s : MeterRegs) (v : BitVec 32) :
    (s.loaded v).regs trtcmDataLo = s.para (paraKey v) := by
  simp [MeterRegs.loaded, trtcmDataLo, trtcmParamCfg]

@[simp] theorem loaded_cfg (s : MeterRegs) (v : BitVec 32) :
    (s.loaded v).regs regIngressTrtcmCfg = s.regs regIngressTrtcmCfg := by
  simp [MeterRegs.loaded, trtcmDataLo, trtcmParamCfg, regIngressTrtcmCfg]

@[simp] theorem stored_cfg (s : MeterRegs) (v x : BitVec 32) :
    (s.stored v x).regs regIngressTrtcmCfg = s.regs regIngressTrtcmCfg := by
  simp [MeterRegs.stored, trtcmDataLo, trtcmParamCfg, regIngressTrtcmCfg]

theorem wr_loaded {s : MeterRegs} {v : BitVec 32} (hv : IsAddress v) :
    s.wr trtcmParamCfg v = s.loaded v := by
  unfold MeterRegs.wr
  rw [if_pos rfl]
  exact if_pos hv

theorem paraKey_rwcmd (v : BitVec 32) : paraKey (trtcmParaRwcmd ||| v) = paraKey v := by
  have h1 : fieldGet 28 2 trtcmParaRwcmd = 0#32 := by decide
  have h2 : fieldGet 26 2 trtcmParaRwcmd = 0#32 := by decide
  have h3 : fieldGet 16 8 trtcmParaRwcmd = 0#32 := by decide
  simp [paraKey, h1, h2, h3]

theorem wr_stored (s : MeterRegs) (v x : BitVec 32) :
    (s.wr trtcmDataLo x).wr trtcmParamCfg (trtcmParaRwcmd ||| v) = s.stored v x := by
  have hcmd : (trtcmParaRwcmd ||| v) &&& trtcmParaRwcmd ≠ 0#32 := by
    unfold trtcmParaRwcmd
    rw [Ne, and_bit_eq_zero_iff, BitVec.getLsbD_or, getLsbD_bit]
    simp
  have hlo : s.wr trtcmDataLo x = { s with regs := Function.update s.regs trtcmDataLo x } := by
    simp [MeterRegs.wr, trtcmDataLo, trtcmParamCfg]
  rw [hlo]
  unfold MeterRegs.wr
  rw [if_pos rfl, if_neg hcmd, paraKey_rwcmd]
  simp [MeterRegs.stored]

theorem done_ne_zero (v : BitVec 32) : (v ||| trtcmParamRwDone) &&& trtcmParamRwDone ≠ 0#32 := by
  unfold trtcmParamRwDone
  rw [Ne, and_bit_eq_zero_iff, BitVec.getLsbD_or, getLsbD_bit]
  simp

/-- Reading a parameter returns it and leaves the command register done. -/
theorem getParaConfig_ends {s : MeterRegs} {v : BitVec 32} (hv : IsAddress v) :
    Ends (getParaConfig v) s fun r s' => r.map Prod.fst = some (s.para (paraKey v)) ∧
      s' = s.loaded v := by
  unfold getParaConfig
  refine Ends.bind (ends_wr (Q := fun _ s' => s' = s.loaded v) (wr_loaded hv)) ?_
  rintro - _ rfl
  refine Ends.bind (ends_rr (Q := fun r s' => r = v ||| trtcmParamRwDone ∧ s' = s.loaded v)
    ⟨loaded_param s v, rfl⟩) ?_
  rintro _ _ ⟨rfl, rfl⟩
  refine Ends.ite (fun h => absurd h (done_ne_zero v)) fun _ => ?_
  refine Ends.bind (ends_rr (Q := fun r s' => r = s.para (paraKey v) ∧ s' = s.loaded v)
    ⟨loaded_lo s v, rfl⟩) ?_
  rintro _ _ ⟨rfl, rfl⟩
  refine Ends.bind (ends_rr (Q := fun _ s' => s' = s.loaded v) rfl) ?_
  rintro hi _ rfl
  exact Ends.pure ⟨rfl, rfl⟩

/-- Writing a parameter ends in its first round. -/
theorem setParaConfig_ends {s : MeterRegs} {v : BitVec 32} (hv : IsAddress v) (x tmp : BitVec 32)
    (rounds : Nat) : Ends (setParaConfig v x (rounds + 1) tmp) s fun r s' =>
      r = 0 ∧ Leaves s (Function.update s.para (paraKey v) x) s' := by
  unfold setParaConfig
  refine Ends.bind (ends_wr (Q := fun _ s' => s' = s.wr trtcmDataLo x) rfl) ?_
  rintro - _ rfl
  refine Ends.bind (ends_wr (Q := fun _ s' => s' = s.stored v x) (wr_stored s v x)) ?_
  rintro - _ rfl
  refine Ends.bind (getParaConfig_ends hv) ?_
  rintro r _ ⟨hr, rfl⟩
  have hread : (s.stored v x).para (paraKey v) = x := Function.update_self _ _ _
  simp only [hr, hread, Option.getD_some]
  refine Ends.ite (fun h => absurd rfl h) fun _ => ?_
  refine Ends.bind (ends_rr (Q := fun r s' => r = v ||| trtcmParamRwDone ∧
    s' = (s.stored v x).loaded v) ⟨loaded_param _ v, rfl⟩) ?_
  rintro _ _ ⟨rfl, rfl⟩
  refine Ends.ite (fun h => absurd h (done_ne_zero v)) fun _ => ?_
  exact Ends.pure ⟨rfl, rfl, by simp⟩

/-! ## Modes and units -/

/-- A `para` argument of the functions of §2 and §3: it names commands, one a parameter type. -/
structure Addresses (para : Nat → BitVec 32) (group index : Nat) : Prop where
  isAddress : ∀ t, IsAddress (para t)
  key : ∀ t, t < 4 → paraKey (para t) = (t, group, index)

theorem addresses_ratelimit (index : Nat) :
    Addresses (ratelimitParaCfg index) (qdmaMeterGroup index) (qdmaMeterIdx index) :=
  ⟨isAddress_ratelimit index, fun _ ht => paraKey_ratelimit index ht⟩

theorem addresses_trtcm (index : Nat) {rateType : Nat} (hr : rateType < 2) :
    Addresses (trtcmParaCfg index rateType) (qdmaMeterGroup index)
      (2 * (qdmaMeterIdx index % 64) + rateType) :=
  ⟨isAddress_trtcm index rateType, fun _ ht => paraKey_trtcm index hr ht⟩

/-- The tick a misc parameter selects. -/
def curTick (cfg misc : BitVec 32) : Nat :=
  if misc &&& trtcmTickSel = 0#32 then fastTick cfg else fastTick cfg * slowTickRatio cfg

/-- The quotient the driver keeps in an `unsigned short`. -/
def rawUnit (cfg misc : BitVec 32) : Nat :=
  (if misc &&& trtcmPktMode = 0#32 then 8000 / curTick cfg misc
    else 1000000 / curTick cfg misc) % 65536

theorem rawUnit_eq_div (cfg misc : BitVec 32) : rawUnit cfg misc =
    (if misc &&& trtcmPktMode = 0#32 then 8000 else 1000000) / curTick cfg misc % 65536 := by
  unfold rawUnit
  split <;> rfl

/-- The rate unit of a meter with this misc parameter; none where the driver returns an error. -/
def unitOf (cfg misc : BitVec 32) : Option Nat :=
  if curTick cfg misc = 0 ∨ rawUnit cfg misc = 0 then none else some (rawUnit cfg misc)

theorem unitOf_pos {cfg misc : BitVec 32} {unit : Nat} (h : unitOf cfg misc = some unit) :
    0 < unit ∧ unit < 65536 := by
  unfold unitOf at h
  split at h
  · cases h
  · rename_i hne
    cases h
    refine ⟨Nat.pos_of_ne_zero fun h0 => hne (Or.inr h0), Nat.mod_lt _ (by decide)⟩

/-- `s'` is `s` but for the access registers. -/
def Quiet (s s' : MeterRegs) : Prop := Leaves s s.para s'

theorem Quiet.trans {s s' s'' : MeterRegs} (h : Quiet s s') (h' : Quiet s' s'') : Quiet s s'' :=
  ⟨h'.para.trans h.para, h'.cfg.trans h.cfg⟩

/-- A division by what is not zero. -/
theorem divide_ends {a b : Nat} {s : MeterRegs} (hb : 0 < b) :
    Ends (divide a b) s fun r s' => r = a / b ∧ s' = s := by
  unfold divide
  rw [if_neg (Nat.ne_of_gt hb)]
  exact Ends.pure ⟨rfl, rfl⟩

section Functions

variable {s : MeterRegs} {para : Nat → BitVec 32} {group index : Nat}

theorem getMisc_ends (ha : Addresses para group index) :
    Ends (getMisc para) s fun r s' => r = s.para (trtcmMisc, group, index) ∧ Quiet s s' := by
  unfold getMisc
  refine Ends.bind (getParaConfig_ends (ha.isAddress _)) ?_
  rintro r _ ⟨hr, rfl⟩
  rw [hr, ha.key _ (by decide)]
  exact Ends.pure ⟨rfl, rfl, by simp⟩

theorem rateLimitUnit_ends (ha : Addresses para group index) :
    Ends (rateLimitUnit para) s fun r s' =>
      r = unitOf (s.regs regIngressTrtcmCfg) (s.para (trtcmMisc, group, index)) ∧ Quiet s s' := by
  unfold rateLimitUnit
  refine Ends.bind (getMisc_ends ha) ?_
  rintro _ s₁ ⟨rfl, h₁⟩
  refine Ends.bind (ends_rr (Q := fun r s' => r = s.regs regIngressTrtcmCfg ∧ s' = s₁)
    ⟨h₁.cfg, rfl⟩) ?_
  rintro _ _ ⟨rfl, rfl⟩
  unfold unitOf
  refine Ends.ite (fun h0 => ?_) fun h0 => ?_
  · exact Ends.pure ⟨(if_pos (Or.inl h0)).symm, h₁⟩
  · refine Ends.bind (getMisc_ends ha) ?_
    rintro _ s₂ ⟨rfl, h₂⟩
    rw [h₁.para]
    refine Ends.bind (divide_ends (Nat.pos_of_ne_zero h0)) ?_
    rintro _ _ ⟨rfl, rfl⟩
    have hraw := rawUnit_eq_div (s.regs regIngressTrtcmCfg) (s.para (trtcmMisc, group, index))
    unfold curTick at h0 hraw
    rw [← hraw]
    refine Ends.ite (fun hu => ?_) fun hu => ?_
    · exact Ends.pure ⟨(if_pos (Or.inr hu)).symm, h₁.trans h₂⟩
    · exact Ends.pure ⟨(if_neg fun h => h.elim h0 hu).symm, h₁.trans h₂⟩

theorem setMiscBit_ends (ha : Addresses para group index) (rounds : Nat) (msk : BitVec 32)
    (on : Bool) : Ends (setMiscBit (rounds + 1) para msk on) s fun r s' => r = 0 ∧
      Leaves s (Function.update s.para (trtcmMisc, group, index)
        (if on then s.para (trtcmMisc, group, index) ||| msk
          else s.para (trtcmMisc, group, index) &&& ~~~msk)) s' := by
  unfold setMiscBit
  refine Ends.bind (getParaConfig_ends (ha.isAddress _)) ?_
  rintro r _ ⟨hr, rfl⟩
  obtain ⟨⟨lo, hi⟩, rfl, hlo⟩ := Option.map_eq_some_iff.mp hr
  rw [ha.key _ (by decide)] at hlo
  subst hlo
  refine Ends.bind (setParaConfig_ends (ha.isAddress _) _ _ rounds) ?_
  rintro _ s' ⟨rfl, hpara, hcfg⟩
  rw [ha.key _ (by decide)] at hpara
  refine Ends.ite (fun h => absurd h (by decide)) fun _ => ?_
  exact Ends.pure ⟨rfl, hpara, hcfg.trans (loaded_cfg s _)⟩

end Functions

/-! ## Setters -/

/-- From `s` to `s'` only parameters in `P` changed. -/
structure Within (P : Nat × Nat × Nat → Prop) (s s' : MeterRegs) : Prop where
  para : ∀ k, ¬ P k → s'.para k = s.para k
  cfg : s'.regs regIngressTrtcmCfg = s.regs regIngressTrtcmCfg

theorem Within.refl (P : Nat × Nat × Nat → Prop) (s : MeterRegs) : Within P s s :=
  ⟨fun _ _ => rfl, rfl⟩

theorem Within.trans {P : Nat × Nat × Nat → Prop} {s s' s'' : MeterRegs} (h : Within P s s')
    (h' : Within P s' s'') : Within P s s'' :=
  ⟨fun k hk => (h'.para k hk).trans (h.para k hk), h'.cfg.trans h.cfg⟩

theorem Within.mono {P P' : Nat × Nat × Nat → Prop} {s s' : MeterRegs} (h : Within P s s')
    (hP : ∀ k, P k → P' k) : Within P' s s' :=
  ⟨fun k hk => h.para k fun hp => hk (hP k hp), h.cfg⟩

theorem Quiet.within {s s' : MeterRegs} (P : Nat × Nat × Nat → Prop) (h : Quiet s s') :
    Within P s s' :=
  ⟨fun k _ => by rw [h.para], h.cfg⟩

theorem Leaves.within {s s' : MeterRegs} {k : Nat × Nat × Nat} {x : BitVec 32}
    (h : Leaves s (Function.update s.para k x) s') : Within (· = k) s s' :=
  ⟨fun k' hk => by rw [h.para, Function.update_of_ne hk], h.cfg⟩

/-- The register says rate-limit mode. -/
def RatelimitMode (s : MeterRegs) : Prop := fieldGet 30 1 (s.regs regIngressTrtcmCfg) = 0#32

theorem Within.ratelimitMode {P : Nat × Nat × Nat → Prop} {s s' : MeterRegs} (h : Within P s s')
    (hs : RatelimitMode s) : RatelimitMode s' := by
  unfold RatelimitMode
  rw [h.cfg]
  exact hs

/-- The token rate stored for a value: the unit of the meter's own misc parameter, 18.6 bits. -/
structure Stored (s s' : MeterRegs) (group index : Nat) (value : BitVec 32) (unit : Nat) :
    Prop where
  unit_eq : unitOf (s.regs regIngressTrtcmCfg) (s.para (trtcmMisc, group, index)) = some unit
  integer : value.toNat / unit ≤ 0x3FFFF
  rate : s'.para (trtcmTokenRate, group, index) =
    tokenRate (value.toNat / unit) (value.toNat % unit * 64 / unit)
  value_lt : value.toNat < 2 ^ 31

section Setters

variable {s : MeterRegs} {para : Nat → BitVec 32} {group index : Nat}

theorem setModeBits_ends (ha : Addresses para group index) (rounds : Nat) (cfg : RatelimitCfg) :
    Ends (setModeBits (rounds + 1) cfg para) s fun r s' =>
      r = 0 ∧ Within (· = (trtcmMisc, group, index)) s s' := by
  unfold setModeBits
  refine Ends.bind (setMiscBit_ends ha rounds _ _) ?_
  rintro _ s₁ ⟨rfl, h₁⟩
  refine Ends.ite (fun h => absurd h (by decide)) fun _ => ?_
  refine Ends.bind (setMiscBit_ends ha rounds _ _) ?_
  rintro _ s₂ ⟨rfl, h₂⟩
  refine Ends.ite (fun h => absurd h (by decide)) fun _ => ?_
  refine Ends.mono (setMiscBit_ends ha rounds _ _) ?_
  rintro _ s₃ ⟨rfl, h₃⟩
  exact ⟨rfl, (h₁.within.trans h₂.within).trans h₃.within⟩

/-- In byte mode a rate that fits 18 bits is below two to the 31. -/
theorem value_lt_of_byte {cfg misc : BitVec 32} {unit v : Nat} (h : unitOf cfg misc = some unit)
    (hb : misc &&& trtcmPktMode = 0#32) (hv : v / unit ≤ 0x3FFFF) : v < 2 ^ 31 := by
  obtain ⟨hpos, -⟩ := unitOf_pos h
  have hle : unit ≤ 8000 := by
    unfold unitOf at h
    split at h
    · cases h
    · cases h
      rw [rawUnit, if_pos hb]
      exact Nat.le_trans (Nat.mod_le _ _) (Nat.div_le_self _ _)
  have h1 : v < (0x3FFFF + 1) * unit := (Nat.div_lt_iff_lt_mul hpos).mp (Nat.lt_succ_of_le hv)
  omega

theorem setTokenRate_ends (ha : Addresses para group index) (rounds : Nat) (value : BitVec 32) :
    Ends (setTokenRate (rounds + 1) para value) s fun r s' =>
      Within (· = (trtcmTokenRate, group, index)) s s' ∧
        (0 ≤ r → ∃ unit, Stored s s' group index value unit) := by
  unfold setTokenRate
  refine Ends.bind (rateLimitUnit_ends ha) ?_
  rintro got s₁ ⟨hgot, h₁⟩
  cases got with
  | none => exact Ends.pure ⟨h₁.within _, fun h => absurd h (by decide)⟩
  | some unit =>
    obtain ⟨hpos, -⟩ := unitOf_pos hgot.symm
    refine Ends.bind (divide_ends hpos) ?_
    rintro _ _ ⟨rfl, rfl⟩
    refine Ends.bind (divide_ends hpos) ?_
    rintro _ _ ⟨rfl, rfl⟩
    refine Ends.ite (fun _ => ?_) fun hfit => ?_
    · exact Ends.pure ⟨h₁.within _, fun h => absurd h (by decide)⟩
    · obtain ⟨hint, -⟩ := not_or.mp hfit
      refine Ends.bind (setParaConfig_ends (ha.isAddress _) _ _ rounds) ?_
      rintro _ s₂ ⟨rfl, h₂⟩
      rw [ha.key _ (by decide)] at h₂
      refine Ends.ite (fun h => absurd h (by decide)) fun _ => ?_
      refine Ends.bind (getMisc_ends ha) ?_
      rintro misc s₃ ⟨hmisc, h₃⟩
      have hwithin : Within (· = (trtcmTokenRate, group, index)) s s₃ :=
        ((h₁.within _).trans h₂.within).trans (h₃.within _)
      have hmisc' : misc = s.para (trtcmMisc, group, index) := by
        rw [hmisc, h₂.within.para _ (by simp [trtcmMisc, trtcmTokenRate]), h₁.para]
      have hrate : s₃.para (trtcmTokenRate, group, index) =
          tokenRate (value.toNat / unit) (value.toNat % unit * 64 / unit) := by
        rw [h₃.para, h₂.para, Function.update_self]
      refine Ends.ite (fun hb => ?_) fun hb => ?_
      · refine Ends.pure ⟨hwithin, fun _ => ⟨unit, hgot.symm, Nat.not_lt.mp hint, hrate, ?_⟩⟩
        rw [hmisc'] at hb
        exact value_lt_of_byte hgot.symm hb (Nat.not_lt.mp hint)
      · refine Ends.pure ⟨hwithin, fun hr => ⟨unit, hgot.symm, Nat.not_lt.mp hint, hrate, ?_⟩⟩
        rw [BitVec.toInt_eq_toNat_cond] at hr
        split at hr
        · omega
        · have := value.isLt
          omega

theorem setBucketSize_ends (ha : Addresses para group index) (rounds : Nat) (bucketSize : Int) :
    Ends (setBucketSize (rounds + 1) para bucketSize) s fun _ s' =>
      Within (· = (trtcmBucketsizeShift, group, index)) s s' := by
  unfold setBucketSize
  refine Ends.ite (fun _ => Ends.pure (Within.refl _ s)) fun _ => ?_
  refine Ends.bind (getMisc_ends ha) ?_
  rintro _ s₁ ⟨-, h₁⟩
  refine Ends.bind (setParaConfig_ends (ha.isAddress _) _ _ rounds) ?_
  rintro _ s₂ ⟨rfl, h₂⟩
  rw [ha.key _ (by decide)] at h₂
  refine Ends.ite (fun h => absurd h (by decide)) fun _ => ?_
  exact Ends.pure ((h₁.within _).trans h₂.within)

/-- The parameters a value setter may change. -/
def RateKeys (group index : Nat) (k : Nat × Nat × Nat) : Prop :=
  k = (trtcmTokenRate, group, index) ∨ k = (trtcmBucketsizeShift, group, index)

theorem setRateAndBucket_ends (ha : Addresses para group index) (rounds : Nat) (value : BitVec 32) :
    Ends (setRateAndBucket (rounds + 1) para value) s fun r s' =>
      Within (RateKeys group index) s s' ∧
        (r = 0 → ∃ unit, Stored s s' group index value unit) := by
  unfold setRateAndBucket
  refine Ends.bind (setTokenRate_ends ha rounds value) ?_
  rintro bucketSize s₁ ⟨h₁, hstored⟩
  refine Ends.ite (fun hneg => ?_) fun hpos => ?_
  · exact Ends.pure ⟨h₁.mono fun _ => Or.inl, fun h => absurd hneg (by omega)⟩
  · refine Ends.mono (setBucketSize_ends ha rounds bucketSize) ?_
    rintro r s₂ h₂
    refine ⟨(h₁.mono fun _ => Or.inl).trans (h₂.mono fun _ => Or.inr), fun _ => ?_⟩
    obtain ⟨unit, hst⟩ := hstored (by omega)
    refine ⟨unit, hst.unit_eq, hst.integer, ?_, hst.value_lt⟩
    rw [h₂.para _ (by simp [trtcmTokenRate, trtcmBucketsizeShift])]
    exact hst.rate

theorem isTrtcmMode_ends (hs : RatelimitMode s) (index : Nat) :
    Ends (isTrtcmMode index) s fun r s' => r = false ∧ s' = s := by
  unfold isTrtcmMode
  refine Ends.bind (ends_rr (Q := fun r s' => r = s.regs regIngressTrtcmCfg ∧ s' = s) ⟨rfl, rfl⟩) ?_
  rintro _ s' ⟨rfl, rfl⟩
  have h : fieldGet 30 1 (s'.regs regIngressTrtcmCfg) = 0#32 := hs
  refine Ends.pure ⟨?_, rfl⟩
  simp [h]

end Setters

/-! ## Calls -/

section Calls

variable {s : MeterRegs}

theorem setRatelimitModeCfg_ends (hs : RatelimitMode s) (rounds : Nat) (cfg : RatelimitCfg) :
    Ends (setRatelimitModeCfg (rounds + 1) cfg) s fun _ s' =>
      Within (· = (trtcmMisc, qdmaMeterGroup cfg.index, qdmaMeterIdx cfg.index)) s s' := by
  unfold setRatelimitModeCfg
  refine Ends.bind (isTrtcmMode_ends hs _) ?_
  rintro _ _ ⟨rfl, rfl⟩
  refine Ends.ite (fun _ => Ends.pure (Within.refl _ _)) fun _ => ?_
  refine Ends.ite (fun h => absurd h Bool.false_ne_true) fun _ => ?_
  refine Ends.mono (setModeBits_ends (addresses_ratelimit cfg.index) rounds cfg) ?_
  rintro _ s' ⟨-, h⟩
  exact h

theorem setRatelimitModeValue_ends (hs : RatelimitMode s) (rounds index : Nat)
    (value : BitVec 32) : Ends (setRatelimitModeValue (rounds + 1) index value) s fun r s' =>
      Within (RateKeys (qdmaMeterGroup index) (qdmaMeterIdx index)) s s' ∧
        (r = 0 → ∃ unit,
          Stored s s' (qdmaMeterGroup index) (qdmaMeterIdx index) value unit) := by
  unfold setRatelimitModeValue
  refine Ends.bind (isTrtcmMode_ends hs _) ?_
  rintro _ _ ⟨rfl, rfl⟩
  refine Ends.ite (fun _ => Ends.pure ⟨Within.refl _ _, fun h => absurd h (by decide)⟩) fun _ => ?_
  refine Ends.ite (fun h => absurd h Bool.false_ne_true) fun _ => ?_
  exact setRateAndBucket_ends (addresses_ratelimit index) rounds value

theorem tokenRate_fields {integer fraction : Nat} (hi : integer ≤ 0x3FFFF) (hf : fraction < 64) :
    (fieldGet 6 18 (tokenRate integer fraction)).toNat = integer ∧
      (fieldGet 0 6 (tokenRate integer fraction)).toNat = fraction := by
  have h0 : BitVec.ofNat 32 fraction = fieldPrep 0 6 (BitVec.ofNat 32 fraction) := by
    rw [← shiftLeft_eq_fieldPrep (ofNat_and_mask (n := 6) hf) 0, BitVec.shiftLeft_zero]
  have hi' : integer < 2 ^ 18 := by omega
  rw [tokenRate, shiftLeft_eq_fieldPrep (ofNat_and_mask hi') 6, h0]
  have h1 : fieldGet 6 18 (fieldPrep 0 6 (BitVec.ofNat 32 fraction)) = 0#32 :=
    fieldGet_fieldPrep_of_disjoint (Or.inr (by decide)) _
  have h2 : fieldGet 0 6 (fieldPrep 6 18 (BitVec.ofNat 32 integer)) = 0#32 :=
    fieldGet_fieldPrep_of_disjoint (Or.inl (by decide)) _
  constructor
  · rw [fieldGet_or, h1, BitVec.or_zero, field_prep (by decide) hi']
  · rw [fieldGet_or, h2, BitVec.zero_or, field_prep (by decide) hf]

/-- A get computes with the unit that the trTCM command reads and the rate of the meter itself. -/
theorem getMeterValue_ends {meterIdx index unit integer fraction : Nat}
    (hindex : meterIdx % 65536 = index)
    (hunit : unitOf (s.regs regIngressTrtcmCfg)
      (s.para (trtcmMisc, qdmaMeterGroup index, 2 * (qdmaMeterIdx index % 64))) = some unit)
    (hi : integer ≤ 0x3FFFF) (hf : fraction < 64)
    (hrate : s.para (trtcmTokenRate, qdmaMeterGroup index, qdmaMeterIdx index) =
      tokenRate integer fraction) :
    Ends (airohaDpApiQdmaGetMeterValue meterIdx) s fun r _ =>
      r = (BitVec.ofNat 32 (integer * unit + fraction * unit / 64)).toInt := by
  obtain ⟨hfi, hff⟩ := tokenRate_fields hi hf
  unfold airohaDpApiQdmaGetMeterValue
  rw [hindex]
  refine Ends.bind (rateLimitUnit_ends (addresses_trtcm index (by decide))) ?_
  rintro got s₁ ⟨hgot, h₁⟩
  rw [Nat.add_zero, hunit] at hgot
  subst hgot
  refine Ends.bind (getParaConfig_ends (isAddress_ratelimit index _)) ?_
  rintro r _ ⟨hr, rfl⟩
  rw [paraKey_ratelimit index (by decide), h₁.para, hrate] at hr
  simp only [hr, Option.getD_some, hfi, hff]
  exact Ends.pure rfl

/-- A get ends, whatever the meter holds. -/
theorem getMeterValue_total (meterIdx : Nat) :
    Ends (airohaDpApiQdmaGetMeterValue meterIdx) s fun _ _ => True := by
  unfold airohaDpApiQdmaGetMeterValue
  refine Ends.bind (rateLimitUnit_ends (addresses_trtcm _ (by decide))) ?_
  rintro got s₁ -
  cases got with
  | none => exact Ends.pure trivial
  | some unit =>
    refine Ends.bind (getParaConfig_ends (isAddress_ratelimit _ _)) ?_
    intro _ _ _
    exact Ends.pure trivial

end Calls

end Airoha.Qdma
