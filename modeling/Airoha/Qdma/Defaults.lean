/-
Airoha.Qdma.Defaults — the default meters and the mode they are set in.

`airoha_dp_api_qdma_meter_default_config` sets the thirty-two rings with the
addresses of the mode it finds, and changes the mode afterwards. In rate-limit
mode ring `r` is the parameter `r`; in trTCM mode its two rates are the
parameters `2r` and `2r + 1`, so parameter 1 is left with the slow tick of
ring 0: `defaultsRight_iff`.
-/
import Airoha.Qdma.MeterExact

namespace Airoha.Qdma

open Airoha.Lib

/-! ## §1 What is asked -/

/-- A parameter read through the rate-limit address of a ring. -/
def ringPara (s : MeterRegs) (ringIdx t : Nat) : BitVec 32 :=
  s.para (paraKey (ratelimitParaCfg ringIdx t))

/-- The configuration of a ring. -/
def ringCfg (ringIdx : Nat) : RatelimitCfg :=
  { index := ringIdx, meterEn := .enable, pktMode := .packet, tickSel := tickerSel ringIdx }

/-- A misc parameter with the configuration of a ring. -/
def ringMisc (ringIdx : Nat) : BitVec 32 := cfgMisc (ringCfg ringIdx) 0#32

/-- The unit of a default rate is not 0 as an `unsigned short`, and its integer part fits. -/
def Representable (cfg : BitVec 32) (ringIdx : Nat) : Prop :=
  ∃ unit, unitOf cfg (ringMisc ringIdx) = some unit ∧ (rateVal ringIdx).toNat / unit < 2 ^ 18

/-- A ring's meter is enabled, counts packets in the ring's tick, and its token rate is the ring's
rate up to one fraction. -/
structure RingRight (s : MeterRegs) (ringIdx : Nat) : Prop where
  enabled : (ringPara s ringIdx trtcmMisc).getLsbD 2 = true
  packets : (ringPara s ringIdx trtcmMisc).getLsbD 1 = true
  tick : (ringPara s ringIdx trtcmMisc).getLsbD 0 = decide (tickerSel ringIdx = .slow)
  rate : ∃ unit, unitOf (s.regs regIngressTrtcmCfg) (ringPara s ringIdx trtcmMisc) = some unit ∧
    RateRight unit (rateVal ringIdx).toNat (ringPara s ringIdx trtcmTokenRate)

/-- After the default configuration the module is in rate-limit mode and every ring right. -/
def DefaultsRight (rounds : Nat) (s : MeterRegs) : Prop :=
  Ends (airohaDpApiQdmaMeterDefaultConfig rounds) s fun _ s' =>
    RatelimitMode s' ∧ ∀ r < 32, RingRight s' r

/-! ## §2 One ring -/

theorem ring_address {r : Nat} (hr : r < 32) :
    qdmaMeterGroup r = 0 ∧ qdmaMeterIdx r = r ∧ checkIndexValid false r = true ∧
      checkIndexValid true r = true ∧ r % 64 = r := by
  revert r
  decide

theorem ringPara_eq (s : MeterRegs) {r t : Nat} (hr : r < 32) (ht : t < 4) :
    ringPara s r t = s.para (t, 0, r) := by
  obtain ⟨hgroup, hidx, -⟩ := ring_address hr
  rw [ringPara, paraKey_ratelimit r ht, hgroup, hidx]

/-- The word of a value is the value up to a fraction. -/
theorem rateRight_of_word {unit : Nat} {value word : BitVec 32} (hu : 0 < unit)
    (h : rateWord (some unit) value = some word) : RateRight unit value.toNat word := by
  simp only [rateWord, Option.bind_some] at h
  split at h
  · cases h
  · rename_i hfit
    cases h
    obtain ⟨hint, hfrac⟩ := tokenRate_fields (Nat.not_lt.mp hfit) (fraction_lt hu)
    exact rateRight_of_parts hu (Nat.not_lt.mp hfit) hint hfrac

/-- What a ring's meter is depends on two parameters and the module configuration. -/
theorem RingRight.congr {s s' : MeterRegs} {r : Nat} (hr : r < 32) (h : RingRight s r)
    (hmisc : s'.para (trtcmMisc, 0, r) = s.para (trtcmMisc, 0, r))
    (hrate : s'.para (trtcmTokenRate, 0, r) = s.para (trtcmTokenRate, 0, r))
    (hcfg : ∀ misc, unitOf (s'.regs regIngressTrtcmCfg) misc =
      unitOf (s.regs regIngressTrtcmCfg) misc) :
    RingRight s' r := by
  have hm : ringPara s' r trtcmMisc = ringPara s r trtcmMisc := by
    rw [ringPara_eq s' hr (by decide), ringPara_eq s hr (by decide), hmisc]
  have ht : ringPara s' r trtcmTokenRate = ringPara s r trtcmTokenRate := by
    rw [ringPara_eq s' hr (by decide), ringPara_eq s hr (by decide), hrate]
  refine ⟨hm ▸ h.enabled, hm ▸ h.packets, hm ▸ h.tick, ?_⟩
  rw [hm, ht, hcfg]
  exact h.rate

/-- In rate-limit mode a ring is set in its own parameters. -/
theorem defaultRing_right {s : MeterRegs} (hs : RatelimitMode s) (rounds : Nat) {r : Nat}
    (hr : r < 32) (hrep : Representable (s.regs regIngressTrtcmCfg) r) :
    Ends (defaultRing (rounds + 1) r) s fun _ s' =>
      RingRight s' r ∧ Within (fun k => k.2 = (0, r)) s s' := by
  obtain ⟨hgroup, hidx, hvalid, -⟩ := ring_address hr
  obtain ⟨unit, hunit, hfit⟩ := hrep
  obtain ⟨hpos, -⟩ := unitOf_pos hunit
  unfold defaultRing
  refine Ends.bind (setRatelimitModeCfg_exact hs rounds _ hvalid) ?_
  rintro _ s₁ ⟨-, h₁⟩
  simp only [hgroup, hidx] at h₁
  have hs₁ : RatelimitMode s₁ := h₁.within.ratelimitMode hs
  have hval := setRatelimitModeValue_exact hs₁ rounds r (rateVal r) hvalid
  rw [hgroup, hidx] at hval
  refine Ends.bind hval ?_
  intro _ s₂ h₂
  refine Ends.pure ⟨?_, (h₁.within.mono ?_).trans (h₂.within.mono ?_)⟩
  · -- The value call leaves the misc parameter that the mode call wrote.
    have hmisc₁ := congrFun h₁.para (trtcmMisc, 0, r)
    rw [Function.update_self] at hmisc₁
    have hmisc : s₂.para (trtcmMisc, 0, r) = s₁.para (trtcmMisc, 0, r) :=
      h₂.within.para _ (by simp [RateKeys, trtcmMisc, trtcmTokenRate, trtcmBucketsizeShift])
    obtain ⟨h0, h1, h2⟩ := cfgMisc_bits (ringCfg r) (s.para (trtcmMisc, 0, r))
    obtain ⟨h0', h1', -⟩ := cfgMisc_bits (ringCfg r) 0#32
    replace hmisc₁ : s₁.para (trtcmMisc, 0, r) =
        cfgMisc (ringCfg r) (s.para (trtcmMisc, 0, r)) := hmisc₁
    rw [← hmisc₁] at h0 h1 h2
    have hunit₁ : unitOf (s₁.regs regIngressTrtcmCfg) (s₁.para (trtcmMisc, 0, r)) = some unit := by
      rw [h₁.cfg, ← hunit]
      exact unitOf_congr (h0.trans h0'.symm) (h1.trans h1'.symm)
    have hword : rateWord (some unit) (rateVal r) =
        some (tokenRate ((rateVal r).toNat / unit) ((rateVal r).toNat % unit * 64 / unit)) := by
      have hint : ¬ 0x3FFFF < (rateVal r).toNat / unit := by omega
      simp [rateWord, hint]
    have hrate := h₂.rate
    rw [hunit₁, hword, Option.getD_some] at hrate
    have hm : ringPara s₂ r trtcmMisc = s₁.para (trtcmMisc, 0, r) := by
      rw [ringPara_eq s₂ hr (by decide), hmisc]
    have ht := ringPara_eq s₂ hr (by decide : trtcmTokenRate < 4)
    refine ⟨?_, ?_, ?_, unit, ?_, ?_⟩
    · rw [hm]
      exact h2
    · rw [hm]
      exact h1
    · rw [hm]
      exact h0
    · rw [hm, h₂.within.cfg]
      exact hunit₁
    · rw [ht, hrate]
      exact rateRight_of_word hpos hword
  · rintro _ rfl
    rfl
  · rintro _ (rfl | rfl)
    · rfl
    · rfl

/-- The meters of group 0 go by the mode of the register. -/
theorem isTrtcmMode_trtcm {s : MeterRegs} (hs : ¬ RatelimitMode s) {index : Nat}
    (hgroup : qdmaMeterGroup index = 0) :
    Ends (isTrtcmMode index) s fun r s' => r = true ∧ s' = s := by
  unfold isTrtcmMode
  refine Ends.bind (ends_rr (Q := fun r s' => r = s.regs regIngressTrtcmCfg ∧ s' = s) ⟨rfl, rfl⟩) ?_
  rintro _ s' ⟨rfl, rfl⟩
  refine Ends.pure ⟨?_, rfl⟩
  rw [if_neg (by omega)]
  exact decide_eq_true hs

/-- In trTCM mode a ring is set in the parameters of two meters. -/
theorem defaultRing_trtcm {s : MeterRegs} (hs : ¬ RatelimitMode s) (rounds : Nat) {r : Nat}
    (hr : r < 32) :
    Ends (defaultRing (rounds + 1) r) s fun _ s' =>
      Within (fun k => k.2 = (0, 2 * r) ∨ k.2 = (0, 2 * r + 1)) s s' ∧
        s'.para (trtcmMisc, 0, 2 * r + 1) =
          cfgMisc (ringCfg r) (s.para (trtcmMisc, 0, 2 * r + 1)) := by
  obtain ⟨hgroup, hidx, -, hvalid, hmod⟩ := ring_address hr
  have haddr : ∀ k < 2, Addresses (trtcmParaCfg r k) 0 (2 * r + k) := by
    intro k hk
    have ha := addresses_trtcm r hk
    rw [hgroup, hidx, hmod] at ha
    exact ha
  have hrates : ∀ k < 2, ∀ key, RateKeys 0 (2 * r + k) key → key.2 = (0, 2 * r + k) := by
    rintro k - _ (rfl | rfl)
    · rfl
    · rfl
  unfold defaultRing
  have hcfg : Ends (setRatelimitModeCfg (rounds + 1) (ringCfg r)) s fun _ s' =>
      Within (fun k => k.2 = (0, 2 * r) ∨ k.2 = (0, 2 * r + 1)) s s' ∧
        s'.para (trtcmMisc, 0, 2 * r + 1) =
          cfgMisc (ringCfg r) (s.para (trtcmMisc, 0, 2 * r + 1)) := by
    unfold setRatelimitModeCfg
    refine Ends.bind (isTrtcmMode_trtcm hs hgroup) ?_
    rintro _ _ ⟨rfl, rfl⟩
    refine Ends.ite (fun h => by simp [ringCfg, hvalid] at h) fun _ => ?_
    refine Ends.ite (fun _ => ?_) fun h => absurd rfl h
    refine Ends.bind (setModeBits_exact (haddr 0 (by decide)) rounds _) ?_
    rintro _ s₁ ⟨rfl, h₁⟩
    refine Ends.ite (fun h => absurd h (by decide)) fun _ => ?_
    refine Ends.mono (setModeBits_exact (haddr 1 (by decide)) rounds _) ?_
    rintro _ s₂ ⟨rfl, h₂⟩
    refine ⟨(h₁.within.mono ?_).trans (h₂.within.mono ?_), ?_⟩
    · rintro _ rfl
      exact Or.inl rfl
    · rintro _ rfl
      exact Or.inr rfl
    · rw [h₂.para, Function.update_self, h₁.within.para _ (by simp)]
  refine Ends.bind hcfg ?_
  rintro _ s₁ ⟨h₁, hmisc⟩
  have hs₁ : ¬ RatelimitMode s₁ := fun h => hs (by rwa [RatelimitMode, ← h₁.cfg])
  have hvalue : Ends (setRatelimitModeValue (rounds + 1) r (rateVal r)) s₁ fun _ s' =>
      Within (fun k => RateKeys 0 (2 * r + 0) k ∨ RateKeys 0 (2 * r + 1) k) s₁ s' := by
    unfold setRatelimitModeValue
    refine Ends.bind (isTrtcmMode_trtcm hs₁ hgroup) ?_
    rintro _ _ ⟨rfl, rfl⟩
    refine Ends.ite (fun h => by simp [hvalid] at h) fun _ => ?_
    refine Ends.ite (fun _ => ?_) fun h => absurd rfl h
    refine Ends.bind (setRateAndBucket_ends (haddr 0 (by decide)) rounds _) ?_
    rintro ret s₂ ⟨h₂, -⟩
    refine Ends.ite (fun _ => Ends.pure (h₂.mono fun _ => Or.inl)) fun _ => ?_
    refine Ends.mono (setRateAndBucket_ends (haddr 1 (by decide)) rounds _) ?_
    rintro _ s₃ ⟨h₃, -⟩
    exact (h₂.mono fun _ => Or.inl).trans (h₃.mono fun _ => Or.inr)
  refine Ends.bind hvalue ?_
  intro _ s₂ h₂
  refine Ends.pure ⟨h₁.trans (h₂.mono ?_), ?_⟩
  · rintro k (hk | hk)
    · exact Or.inl (hrates 0 (by decide) k hk)
    · exact Or.inr (hrates 1 (by decide) k hk)
  · rw [h₂.para _ (by simp [RateKeys, trtcmMisc, trtcmTokenRate, trtcmBucketsizeShift]), hmisc]

/-! ## §3 The thirty-two rings -/

/-- After the rings only the mode changes. -/
theorem defaultConfig_of_rings {s : MeterRegs} {rounds : Nat} {P : MeterRegs → Prop}
    (h : Ends (forM (List.range 32) (defaultRing rounds)) s fun _ s' => P s') :
    Ends (airohaDpApiQdmaMeterDefaultConfig rounds) s fun _ s' => ∃ s₁, P s₁ ∧ s'.para = s₁.para ∧
      s'.regs regIngressTrtcmCfg =
        fieldPrep 30 1 0#32 ||| (s₁.regs regIngressTrtcmCfg &&& ~~~mask 32 30 1) := by
  unfold airohaDpApiQdmaMeterDefaultConfig
  refine Ends.bind h ?_
  intro _ s₁ h₁
  refine Ends.bind (ends_rr (Q := fun r s' => r = s₁.regs regIngressTrtcmCfg ∧ s' = s₁)
    ⟨rfl, rfl⟩) ?_
  rintro _ s' ⟨rfl, rfl⟩
  have hwr : ∀ v, s'.wr regIngressTrtcmCfg v =
      { s' with regs := Function.update s'.regs regIngressTrtcmCfg v } :=
    fun v => if_neg (by decide)
  refine ends_wr ⟨s', h₁, ?_, ?_⟩
  · rw [hwr]
  · rw [hwr]
    simp only [Function.update_self]

/-- In rate-limit mode each ring is set in its own parameters, and stays as it is. -/
theorem defaultsRight_ratelimit {s : MeterRegs} (hs : RatelimitMode s) (rounds : Nat)
    (hrep : ∀ r < 32, Representable (s.regs regIngressTrtcmCfg) r) :
    DefaultsRight (rounds + 1) s := by
  have hrings : Ends (forM (List.range 32) (defaultRing (rounds + 1))) s fun _ s' =>
      s'.regs regIngressTrtcmCfg = s.regs regIngressTrtcmCfg ∧ ∀ r < 32, RingRight s' r := by
    refine Ends.mono (Ends.forM_each
      (fun s' => s'.regs regIngressTrtcmCfg = s.regs regIngressTrtcmCfg)
      (fun r s' => r < 32 → RingRight s' r) List.nodup_range ?_ rfl) ?_
    · intro i hi s₁ hcfg
      have hi' := List.mem_range.mp hi
      have hs₁ : RatelimitMode s₁ := by rwa [RatelimitMode, hcfg]
      refine Ends.mono (defaultRing_right hs₁ rounds hi' (hcfg ▸ hrep i hi')) ?_
      rintro _ s₂ ⟨hright, hwithin⟩
      refine ⟨hwithin.cfg.trans hcfg, fun _ => hright, fun j hne hj hlt => ?_⟩
      refine (hj hlt).congr hlt (hwithin.para _ ?_) (hwithin.para _ ?_) fun _ => by rw [hwithin.cfg]
      · exact fun h => hne (Prod.ext_iff.mp h).2
      · exact fun h => hne (Prod.ext_iff.mp h).2
    · rintro _ s' ⟨hcfg, hall, -⟩
      exact ⟨hcfg, fun r hr => hall r (List.mem_range.mpr hr) hr⟩
  refine Ends.mono (defaultConfig_of_rings hrings) ?_
  rintro _ s' ⟨s₁, ⟨hcfg, hright⟩, hpara, hcfg'⟩
  have hmode₁ : fieldGet 30 1 (s₁.regs regIngressTrtcmCfg) = 0#32 := by
    rw [hcfg]
    exact hs
  rw [set_mode_ratelimit hmode₁] at hcfg'
  refine ⟨?_, fun r hr => (hright r hr).congr hr ?_ ?_ fun _ => by rw [hcfg']⟩
  · rw [RatelimitMode, hcfg']
    exact hmode₁
  · rw [hpara]
  · rw [hpara]

/-- In trTCM mode the slow tick of ring 0 stays in parameter 1. -/
theorem defaultConfig_trtcm {s : MeterRegs} (hs : ¬ RatelimitMode s) (rounds : Nat) :
    Ends (airohaDpApiQdmaMeterDefaultConfig (rounds + 1)) s fun _ s' =>
      (s'.para (trtcmMisc, 0, 1)).getLsbD 0 = true := by
  have hrings : Ends (forM (List.range 32) (defaultRing (rounds + 1))) s fun _ s' =>
      (s'.para (trtcmMisc, 0, 1)).getLsbD 0 = true := by
    refine Ends.mono (Ends.forM_each (fun s' => ¬ RatelimitMode s')
      (fun r s' => r = 0 → (s'.para (trtcmMisc, 0, 1)).getLsbD 0 = true)
      List.nodup_range ?_ hs) ?_
    · intro i hi s₁ hs₁
      refine Ends.mono (defaultRing_trtcm hs₁ rounds (List.mem_range.mp hi)) ?_
      rintro _ s₂ ⟨hwithin, hmisc⟩
      refine ⟨fun h => hs₁ (by rwa [RatelimitMode, ← hwithin.cfg]), ?_, ?_⟩
      · rintro rfl
        obtain ⟨htick, -⟩ := cfgMisc_bits (ringCfg 0) (s₁.para (trtcmMisc, 0, 2 * 0 + 1))
        rw [← hmisc] at htick
        exact htick
      · rintro j hne hj rfl
        rw [hwithin.para _ (by simp; omega)]
        exact hj rfl
    · rintro _ s' ⟨-, hall, -⟩
      exact hall 0 (List.mem_range.mpr (by decide)) rfl
  refine Ends.mono (defaultConfig_of_rings hrings) ?_
  rintro _ s' ⟨s₁, htick, hpara, -⟩
  rw [hpara]
  exact htick

/-- In trTCM mode ring 1 is not set in fast ticks. -/
theorem not_defaultsRight_trtcm {s : MeterRegs} (hs : ¬ RatelimitMode s) (rounds : Nat) :
    ¬ DefaultsRight (rounds + 1) s := by
  rintro ⟨_, s', hrun, -, hright⟩
  have htick := (defaultConfig_trtcm hs rounds).of_run hrun
  have hring := (hright 1 (by decide)).tick
  rw [ringPara_eq s' (by decide) (by decide), htick] at hring
  exact absurd hring (by decide)

/-- The default configuration is right exactly from rate-limit mode. -/
theorem defaultsRight_iff (rounds : Nat) (s : MeterRegs)
    (hrep : ∀ r < 32, Representable (s.regs regIngressTrtcmCfg) r) :
    DefaultsRight (rounds + 1) s ↔ RatelimitMode s := by
  constructor
  · intro h
    by_contra hs
    exact not_defaultsRight_trtcm hs rounds h
  · intro hs
    exact defaultsRight_ratelimit hs rounds hrep

/-- A fast tick of 125 microseconds represents every default rate, in both modes. -/
theorem representable_ticks {cfg : BitVec 32} (hcfg : cfg = 0x8007d#32 ∨ cfg = 0x4008007d#32)
    (r : Nat) (hr : r < 32) : Representable cfg r := by
  have h : ∀ r < 32, (unitOf cfg (ringMisc r)).any
      (fun unit => decide ((rateVal r).toNat / unit < 2 ^ 18)) = true := by
    rcases hcfg with rfl | rfl
    · decide
    · decide
  obtain ⟨unit, hunit, hfit⟩ := (Option.any_eq_true _ _).mp (h r hr)
  exact ⟨unit, hunit, of_decide_eq_true hfit⟩

theorem defaultsRight_iff_idle :
    (∀ r < 32, Representable (idleMeters.regs regIngressTrtcmCfg) r) ∧
      (DefaultsRight 1 idleMeters ↔ RatelimitMode idleMeters) :=
  ⟨representable_ticks (Or.inl rfl),
    defaultsRight_iff 0 idleMeters (representable_ticks (Or.inl rfl))⟩

/-- The same meters, found in trTCM mode. -/
def idleTrtcm : MeterRegs :=
  { idleMeters with regs := Function.update idleMeters.regs regIngressTrtcmCfg 0x4008007d#32 }

/-- From trTCM mode every rate is representable, and ring 1 is left in slow ticks. -/
theorem not_defaultsRight_idleTrtcm :
    (∀ r < 32, Representable (idleTrtcm.regs regIngressTrtcmCfg) r) ∧
      ¬ DefaultsRight 1 idleTrtcm := by
  have hcfg : idleTrtcm.regs regIngressTrtcmCfg = 0x4008007d#32 := by
    simp only [idleTrtcm, Function.update_self]
  constructor
  · rw [hcfg]
    exact representable_ticks (Or.inr rfl)
  · apply not_defaultsRight_trtcm
    rw [RatelimitMode, hcfg]
    decide

end Airoha.Qdma
