/-
Airoha.Pwm.Reported — what `airoha_pwm_get_state` reports of a channel.

A state that `airoha_pwm_apply` has set should be reported as it was granted:
the period clamped to 1 s and rounded down to a tick, and a duty that is less
than 1/255 of the period below the one that was asked for; and to apply the
reported state should ask for the same ticks again.

The duty is kept in 255ths of the period in 8 bits, and it is turned back into
nanoseconds with a product in 32 bits. So there are two ways to go wrong. A
duty that is longer than the rounded period comes to more than 255 ticks, of
which the register has the lower 8 bits, and a product of 2^32 or more loses
its upper bits. `apply_reported_iff` says that the report is right in all other
cases and in none of these.
-/
import Airoha.Pwm.Generator

namespace Airoha.Pwm

open Airoha.Lib

/-! ## Reading back -/

/-- The reads of a call. -/
inductive Read where
  | flashMap
  | cycleCfg
  | flashPrd
deriving DecidableEq, Repr

/-- `airoha_pwm_get_bucket`, into the period and duty of `state`. `rd` has the error of each
read. -/
def airohaPwmGetBucket (rd : Read → Nat) (pc : AirohaPwm) (bucket : Nat) (state : State) :
    State × Int :=
  if rd .cycleCfg ≠ 0 then (state, -(rd .cycleCfg : Int))
  else
    let val := pc.regmap (regCycleCfgValue (bucket / 4))
    let periodTick := fieldGet 0 8 (val >>> (8 * (bucket % 4)))
    let state := { state with period := (airohaPwmGetPeriodNsFromTicks periodTick).setWidth 64 }
    if rd .flashPrd ≠ 0 then (state, -(rd .flashPrd : Int))
    else
      let val := pc.regmap (regGpioFlashPrdSet (bucket / 2))
      let dutyTick := fieldGet 0 8 (val >>> (16 * (bucket % 2)))
      ({ state with dutyCycle := (airohaPwmGetDutyNsFromTicks periodTick dutyTick).setWidth 64 }, 0)

/-- `airoha_pwm_get_state` -/
def airohaPwmGetState (rd : Read → Nat) (hwpwm : Nat) (pc : AirohaPwm) (state : State) :
    State × Int :=
  let addr := (airohaPwmGetFlashMapAddrAndShift hwpwm).1
  let shift := (airohaPwmGetFlashMapAddrAndShift hwpwm).2
  if rd .flashMap ≠ 0 then (state, -(rd .flashMap : Int))
  else
    let val := pc.regmap addr
    let state := { state with enabled := fieldGet 3 1 (val >>> shift) != 0#32 }
    if !state.enabled then (state, 0)
    else
      let state := { state with inversed := false }
      airohaPwmGetBucket rd pc (fieldGet 0 3 (val >>> shift)).toNat state

/-! ## What is asked -/

/-- The requested period, clamped to the maximum. -/
def clampedPeriod (state : State) : Nat := min state.period.toNat periodMaxNs

/-- The period that is granted, a multiple of the tick. -/
def grantedPeriod (state : State) : Nat := clampedPeriod state / periodTickNs * periodTickNs

/-- The requested duty, clamped to the granted period. -/
def askedDuty (state : State) : Nat := min state.dutyCycle.toNat (grantedPeriod state)

/-- `state'` is what a channel should report that `state` was applied to. -/
structure Reports (state state' : State) : Prop where
  enabled : state'.enabled = true
  normal : state'.inversed = false
  period : state'.period.toNat = grantedPeriod state
  duty_le_period : state'.dutyCycle.toNat ≤ grantedPeriod state
  duty_le : state'.dutyCycle.toNat ≤ askedDuty state
  duty_close : 255 * askedDuty state < 255 * state'.dutyCycle.toNat + grantedPeriod state
  again : state'.ticks = state.ticks

/-- Applying `state` to channel `c` and reading it back, with no access failing. -/
structure Agrees (pc : AirohaPwm) (c : Nat) (state : State) : Prop where
  applied : (airohaPwmApply (fun _ => 0) c state pc).2 = 0
  read : ∀ old,
    (airohaPwmGetState (fun _ => 0) c (airohaPwmApply (fun _ => 0) c state pc).1 old).2 = 0
  reports : ∀ old, Reports state
    (airohaPwmGetState (fun _ => 0) c (airohaPwmApply (fun _ => 0) c state pc).1 old).1

/-- No other channel is in use, and the counts are those of the channels. -/
structure Alone (pc : AirohaPwm) (c : Nat) : Prop where
  others : ∀ c' < 33, c' ≠ c → pc.initialized c' = false
  counted : Counted pc

/-! ## Ticks -/

/-- The duty that the ticks are computed from: it is clamped to the period before rounding. -/
def clampedDuty (state : State) : Nat := min state.dutyCycle.toNat (clampedPeriod state)

/-- An enabled state of normal polarity with a period of at least one tick. -/
structure Valid (state : State) : Prop where
  enabled : state.enabled = true
  normal : state.inversed = false
  period : periodTickNs ≤ state.period.toNat

theorem grantedPeriod_bounds {state : State} (h : periodTickNs ≤ state.period.toNat) :
    4000000 ≤ grantedPeriod state ∧ grantedPeriod state ≤ clampedPeriod state ∧
      clampedPeriod state < grantedPeriod state + 4000000 ∧ clampedPeriod state ≤ 1000000000 := by
  unfold grantedPeriod clampedPeriod
  unfold periodTickNs periodMaxNs at *
  omega

/-- The duty in 255ths of the granted period. -/
def dutyTicks (state : State) : Nat := clampedDuty state * 255 / grantedPeriod state

/-- Less than two full duties, since a period rounds down to half of it at worst. -/
theorem dutyTicks_lt {state : State} (h : periodTickNs ≤ state.period.toNat) :
    dutyTicks state < 510 := by
  obtain ⟨hlo, hle, hlt, hmax⟩ := grantedPeriod_bounds h
  have hduty : clampedDuty state ≤ clampedPeriod state := Nat.min_le_right _ _
  exact Nat.div_lt_of_lt_mul (by omega)

/-- The ticks that are asked for. -/
theorem ticks_eq {state : State} (h : Valid state) :
    ∃ pt dt : BitVec 32, state.ticks = some (pt, dt) ∧
      pt.toNat * periodTickNs = grantedPeriod state ∧
      dt.toNat = dutyTicks state := by
  obtain ⟨hlo, hle, hlt, hmax⟩ := grantedPeriod_bounds h.period
  have hperiod : ∃ x : BitVec 32, (if periodMaxNs < state.period.toNat then
      BitVec.ofNat 32 periodMaxNs else state.period.setWidth 32) = x ∧
      x.toNat = clampedPeriod state := by
    refine ⟨_, rfl, ?_⟩
    unfold clampedPeriod at hmax ⊢
    split
    · rw [Nat.min_eq_right (by omega)]
      rfl
    · rw [BitVec.toNat_setWidth]
      unfold periodMaxNs at *
      omega
  obtain ⟨x, hx, hxnat⟩ := hperiod
  have hduty : ∃ y : BitVec 32, (if x.toNat < state.dutyCycle.toNat then x
      else state.dutyCycle.setWidth 32) = y ∧ y.toNat = clampedDuty state := by
    refine ⟨_, rfl, ?_⟩
    unfold clampedDuty
    split
    · omega
    · rw [BitVec.toNat_setWidth]
      omega
  obtain ⟨y, hy, hynat⟩ := hduty
  have hpt : (airohaPwmGetPeriodTicksFromNs x).toNat = clampedPeriod state / periodTickNs := by
    rw [airohaPwmGetPeriodTicksFromNs, hxnat, BitVec.toNat_ofNat]
    unfold periodTickNs
    omega
  have hns : (airohaPwmGetPeriodNsFromTicks (airohaPwmGetPeriodTicksFromNs x)).toNat =
      grantedPeriod state := by
    have hlt32 : grantedPeriod state < 2 ^ 32 := by omega
    rw [airohaPwmGetPeriodNsFromTicks, hpt, BitVec.toNat_ofNat]
    exact Nat.mod_eq_of_lt hlt32
  refine ⟨airohaPwmGetPeriodTicksFromNs x, airohaPwmGetDutyTicksFromNs
    (airohaPwmGetPeriodNsFromTicks (airohaPwmGetPeriodTicksFromNs x)) y, ?_, ?_, ?_⟩
  · rw [State.ticks, h.normal, if_neg (by simp), if_neg (Nat.not_lt.mpr h.period)]
    simp only [hx, hy]
  · rw [hpt]
    rfl
  · rw [airohaPwmGetDutyTicksFromNs, hns, hynat, BitVec.toNat_ofNat]
    have hticks := dutyTicks_lt h.period
    exact Nat.mod_eq_of_lt (Nat.lt_trans hticks (by decide))

/-! ## The registers -/

/-- The period and the high part of the duty that a bucket is programmed with. -/
theorem wave_applyBucketConfig {io : Io} (h : BucketOk io) {b : Nat} (hb : b < 8)
    (d p : BitVec 32) (pc : AirohaPwm) :
    (wave (airohaPwmApplyBucketConfig io b d p pc).1.regmap b).1 = p &&& mask 32 0 8 ∧
      (wave (airohaPwmApplyBucketConfig io b d p pc).1.regmap b).2.1 = d &&& mask 32 0 8 := by
  obtain ⟨h1, h2, h3⟩ := h
  have hne : regCycleCfgValue (b / 4) ≠ regGpioFlashPrdSet (b / 2) := by
    unfold regCycleCfgValue regGpioFlashPrdSet
    omega
  unfold airohaPwmApplyBucketConfig waveGenCycle flashPrdHigh flashPrdLow Step.andThen
  simp only [mask_shiftLeft, fieldPrep_shiftLeft, access, h1, h2, h3, if_true, ne_eq,
    not_true_eq_false, if_false, wave, Nat.zero_add]
  constructor
  · rw [field_updateBits_of_ne (Or.inl hne), field_updateBits_of_ne (Or.inl hne),
      field_updateBits_self, fieldGet_fieldPrep_self (by omega)]
  · rw [field_updateBits_of_ne (Or.inr (by omega)), field_updateBits_self,
      fieldGet_fieldPrep_self (by omega)]

theorem configFlashMap_enables {io : Io} (h : MapOk io) (c b : Nat) (pc : AirohaPwm) :
    Enabled (airohaPwmConfigFlashMap io c b pc).1.regmap c := by
  obtain ⟨h1, h2⟩ := h
  have hshift := flashMap_shift c
  unfold airohaPwmConfigFlashMap flashSetId flashEn Step.andThen
  simp only [mask_shiftLeft, access, h1, h2, if_true, ne_eq, not_true_eq_false, if_false]
  rw [Enabled, mapEn, field_updateBits_self, fieldGet_mask_self (by omega)]
  decide

/-! ## The only channel -/

/-- Any bucket is free once the channel has given up its own. -/
theorem programs_of_alone {pc : AirohaPwm} {c : Nat} (hc : c < 33) (h : Alone pc c) {b : Nat}
    (hb : b < 8) : Programs pc c b := by
  have htally := tally_update hc (holding pc) none b
  have hzero : tally 33 (Function.update (holding pc) c none) b = 0 := by
    rw [tally_eq_zero_iff]
    intro c' hc'
    rcases eq_or_ne c' c with rfl | hne
    · rw [Function.update_self]
      exact Option.some_ne_none b ∘ Eq.symm
    · rw [Function.update_of_ne hne, holding, h.others c' hc' hne]
      exact Option.some_ne_none b ∘ Eq.symm
  rw [Programs, used_release, h.counted b hb]
  rw [hzero] at htally
  by_cases hh : holding pc c = some b
  · simp only [hh, if_true] at htally ⊢
    simp at htally
    omega
  · simp only [hh, if_false] at htally ⊢
    simp at htally
    omega

/-- One of any two buckets has no user. -/
theorem unused_of_alone {pc : AirohaPwm} {c : Nat} (hc : c < 33) (h : Alone pc c) :
    ∃ b < 8, (pc.buckets b).used = 0 := by
  have hrelease : ∀ b < 8, (pc.buckets b).used = if holding pc c = some b then 1 else 0 := by
    intro b hb
    have hprog := programs_of_alone hc h hb
    rw [Programs, used_release] at hprog
    omega
  by_cases h0 : holding pc c = some 0
  · refine ⟨1, by decide, ?_⟩
    rw [hrelease 1 (by decide), h0]
    rfl
  · refine ⟨0, by decide, ?_⟩
    rw [hrelease 0 (by decide), if_neg h0]

/-- The generator that the only channel gets. -/
theorem getGenerator_of_alone {pc : AirohaPwm} {c : Nat} (hc : c < 33) (h : Alone pc c)
    (d p : BitVec 32) : ∃ b : Nat, b < 8 ∧ airohaPwmGetGenerator pc d p = (b : Int) := by
  by_cases hmatch : ∃ i < 8, Matches pc.buckets d p i
  · obtain ⟨b, hb, -, hret⟩ := getGenerator_match pc hmatch
    exact ⟨b, hb, hret⟩
  · obtain ⟨b, hb, -, hret⟩ := getGenerator_unused pc hmatch (unused_of_alone hc h)
    exact ⟨b, hb, hret⟩

/-- What the only channel finds in its registers when no access has failed. -/
structure Programmed (pc : AirohaPwm) (c : Nat) (p d : BitVec 32) : Prop where
  enabled : Enabled pc.regmap c
  period : (output pc.regmap c).1 = p &&& mask 32 0 8
  duty : (output pc.regmap c).2.1 = d &&& mask 32 0 8

theorem config_programmed {io : Io} (hio : ∀ a, io a = 0) {pc : AirohaPwm} {c : Nat} (hc : c < 33)
    (h : Alone pc c) (p d : BitVec 32) :
    (airohaPwmConfig io c p d pc).2 = 0 ∧ Programmed (airohaPwmConfig io c p d pc).1 c p d := by
  obtain ⟨b, hb, hgen⟩ := getGenerator_of_alone hc h d p
  have hbucket : BucketOk io := ⟨hio _, hio _, hio _⟩
  have hmap : MapOk io := ⟨hio _, hio _⟩
  have hprog := programs_of_alone hc h hb
  have hneg : ¬ (b : Int) < 0 := by omega
  -- the bucket is programmed
  obtain ⟨q, hq, hwave⟩ : ∃ q, airohaPwmConsumeGenerator io d p c pc = (q, (b : Int)) ∧
      (wave q.regmap b).1 = p &&& mask 32 0 8 ∧ (wave q.regmap b).2.1 = d &&& mask 32 0 8 := by
    unfold airohaPwmConsumeGenerator
    unfold Programs at hprog
    dsimp only
    rw [hgen, if_neg hneg, Int.toNat_natCast, if_pos hprog,
      if_neg (not_not.mpr (applyBucketConfig_ret_iff.mpr hbucket))]
    exact ⟨_, rfl, wave_applyBucketConfig hbucket hb d p _⟩
  -- the channel is mapped to it
  obtain ⟨m, hm, hsame⟩ := configFlashMap_keeps io hc b q
  have hmaps := configFlashMap_maps hmap (c := c) hb q
  have henables := configFlashMap_enables hmap c b q
  rw [hm] at hmaps henables
  have hmwave : wave m b = wave q.regmap b := hsame.wave b hb trivial
  have hfound : ∀ r : Regs, Same (fun _ => True) (fun _ => True) m r →
      Enabled r c ∧ output r c = wave q.regmap b := by
    intro r hr
    rw [Enabled, hr.mapEn c hc trivial, output, hr.mapId c hc trivial, hmaps,
      hr.wave b hb trivial, hmwave]
    exact ⟨henables, rfl⟩
  unfold airohaPwmConfig
  rw [hq]
  dsimp only
  rw [if_neg hneg, Int.toNat_natCast, if_neg (not_not.mpr (configFlashMap_ret_iff.mpr hmap)), hm]
  dsimp only
  split
  · rename_i h16
    have hsipo : SipoOk io := ⟨hio _, hio _, hio _, hio _, hio _, hio _, hio _⟩
    rw [if_neg (not_not.mpr (sipoInit_ret_iff.mpr hsipo))]
    obtain ⟨r, hr, hsame'⟩ := sipoInit_keeps io { q with
      regmap := m, initialized := Function.update q.initialized c true,
      channelBucket := Function.update q.channelBucket c b }
    obtain ⟨hen, hout⟩ := hfound r hsame'
    rw [hr]
    exact ⟨rfl, hen, by rw [hout]; exact hwave.1, by rw [hout]; exact hwave.2⟩
  · obtain ⟨hen, hout⟩ := hfound m (Same.refl _ _ m)
    exact ⟨rfl, hen, by rw [hout]; exact hwave.1, by rw [hout]; exact hwave.2⟩

/-- What is reported of a channel with the ticks `p` and `d`. -/
def reportOf (p d : BitVec 32) : State where
  enabled := true
  inversed := false
  period := (airohaPwmGetPeriodNsFromTicks p).setWidth 64
  dutyCycle := (airohaPwmGetDutyNsFromTicks p d).setWidth 64

theorem getState_programmed {rd : Read → Nat} (hrd : ∀ a, rd a = 0) {pc : AirohaPwm} {c : Nat}
    {p d : BitVec 32} (h : Programmed pc c p d) (old : State) :
    airohaPwmGetState rd c pc old = (reportOf (p &&& mask 32 0 8) (d &&& mask 32 0 8), 0) := by
  have hen : (fieldGet (3 + (airohaPwmGetFlashMapAddrAndShift c).2) 1
      (pc.regmap (airohaPwmGetFlashMapAddrAndShift c).1) != 0#32) = true := bne_iff_ne.mpr h.enabled
  have hid : fieldGet (airohaPwmGetFlashMapAddrAndShift c).2 3
      (pc.regmap (airohaPwmGetFlashMapAddrAndShift c).1) = mapId pc.regmap c := rfl
  have hperiod := h.period
  have hduty := h.duty
  unfold output wave Regs.field at hperiod hduty
  dsimp only at hperiod hduty
  unfold airohaPwmGetState airohaPwmGetBucket
  simp only [hrd, ne_eq, not_true_eq_false, if_false, fieldGet_ushiftRight, Nat.zero_add, hen,
    Bool.not_true, Bool.false_eq_true, hid, hperiod, hduty]
  rfl

/-! ## The report -/

/-- The duty that is reported for `t` 255ths of the period `P`. -/
def reportedDuty (t P : Nat) : Nat := (t % 256 * P % 2 ^ 32 + 254) / 255

theorem toNat_reportOf {state : State} (h : Valid state) {p d : BitVec 32}
    (hp : p.toNat * periodTickNs = grantedPeriod state) (hd : d.toNat = dutyTicks state) :
    (reportOf (p &&& mask 32 0 8) (d &&& mask 32 0 8)).period.toNat = grantedPeriod state ∧
      (reportOf (p &&& mask 32 0 8) (d &&& mask 32 0 8)).dutyCycle.toNat =
        reportedDuty (dutyTicks state) (grantedPeriod state) := by
  obtain ⟨hlo, hle, hlt, hmax⟩ := grantedPeriod_bounds h.period
  have hp250 : p.toNat < 256 := by
    unfold periodTickNs at hp
    omega
  have hpmask : (p &&& mask 32 0 8).toNat = p.toNat := by
    rw [toNat_and_mask (by decide)]
    exact Nat.mod_eq_of_lt hp250
  have hdmask : (d &&& mask 32 0 8).toNat = dutyTicks state % 256 := by
    rw [toNat_and_mask (by decide), hd]
    rfl
  have hduty := (airohaPwmGetDutyNsFromTicks (p &&& mask 32 0 8) (d &&& mask 32 0 8)).isLt
  rw [reportOf, BitVec.toNat_setWidth, BitVec.toNat_setWidth, airohaPwmGetPeriodNsFromTicks,
    BitVec.toNat_ofNat, hpmask, hp, reportedDuty, ← hdmask]
  refine ⟨by omega, ?_⟩
  rw [Nat.mod_eq_of_lt (by omega), toNat_dutyNsFromTicks, hpmask, hp]

/-- The duty is a proper fraction of the granted period, and the product with it fits 32 bits. -/
def Reportable (state : State) : Prop :=
  255 * clampedDuty state < 256 * grantedPeriod state ∧
    dutyTicks state * grantedPeriod state < 2 ^ 32

instance (state : State) : Decidable (Reportable state) := inferInstanceAs (Decidable (_ ∧ _))

/-- The ticks are the quotient: a duty lies less than one of them above what they stand for. -/
theorem dutyTicks_bounds {state : State} (h : periodTickNs ≤ state.period.toNat) :
    dutyTicks state * grantedPeriod state ≤ 255 * clampedDuty state ∧
      255 * clampedDuty state < dutyTicks state * grantedPeriod state + grantedPeriod state := by
  obtain ⟨hlo, -⟩ := grantedPeriod_bounds h
  have hle := Nat.div_mul_le_self (clampedDuty state * 255) (grantedPeriod state)
  have hlt := Nat.lt_div_mul_add (a := clampedDuty state * 255) (b := grantedPeriod state)
    (by omega)
  unfold dutyTicks
  omega

/-- The asked duty is not above the one that the ticks are computed from, and it is that one unless
it has been cut down to the granted period. -/
theorem askedDuty_cases {state : State} (h : periodTickNs ≤ state.period.toNat) :
    askedDuty state ≤ clampedDuty state ∧
      (askedDuty state = clampedDuty state ∨ askedDuty state = grantedPeriod state) := by
  obtain ⟨-, hle, -⟩ := grantedPeriod_bounds h
  unfold askedDuty clampedDuty
  omega

theorem reportedDuty_of_reportable {state : State} (hr : Reportable state) :
    dutyTicks state * grantedPeriod state ≤
        255 * reportedDuty (dutyTicks state) (grantedPeriod state) ∧
      255 * reportedDuty (dutyTicks state) (grantedPeriod state) ≤
        dutyTicks state * grantedPeriod state + 254 := by
  obtain ⟨hduty, hprod⟩ := hr
  have h256 : dutyTicks state < 256 := by
    unfold dutyTicks
    exact Nat.div_lt_of_lt_mul (by omega)
  rw [reportedDuty, Nat.mod_eq_of_lt h256, Nat.mod_eq_of_lt hprod]
  omega

/-- What the ticks of a report are: those that were granted. -/
theorem ticks_of_reported {state state' : State} (h : Valid state) (h' : Valid state')
    (hperiod : state'.period.toNat = grantedPeriod state)
    (hlo : dutyTicks state * grantedPeriod state ≤ 255 * state'.dutyCycle.toNat)
    (hhi : 255 * state'.dutyCycle.toNat < (dutyTicks state + 1) * grantedPeriod state)
    (hle : state'.dutyCycle.toNat ≤ grantedPeriod state) : state'.ticks = state.ticks := by
  obtain ⟨-, hgle, -, hmax⟩ := grantedPeriod_bounds h.period
  obtain ⟨p, d, hticks, hp, hd⟩ := ticks_eq h
  obtain ⟨p', d', hticks', hp', hd'⟩ := ticks_eq h'
  have hclamped : clampedPeriod state' = grantedPeriod state := by
    have hmax' : grantedPeriod state ≤ periodMaxNs := by
      unfold periodMaxNs
      omega
    rw [clampedPeriod, hperiod, Nat.min_eq_left hmax']
  have hgranted : grantedPeriod state' = grantedPeriod state := by
    rw [grantedPeriod, hclamped, ← hp, Nat.mul_div_cancel _ (by decide)]
  have hduty : clampedDuty state' = state'.dutyCycle.toNat := by
    unfold clampedDuty
    rw [hclamped]
    omega
  have hdt : dutyTicks state' = dutyTicks state := by
    rw [dutyTicks, hgranted, hduty]
    exact Nat.div_eq_of_lt_le (by omega) (by omega)
  rw [hticks, hticks']
  have hpeq : p' = p := by
    apply BitVec.eq_of_toNat_eq
    rw [hgranted, ← hp] at hp'
    exact Nat.eq_of_mul_eq_mul_right (by decide) hp'
  have hdeq : d' = d := BitVec.eq_of_toNat_eq (by rw [hd', hdt, hd])
  rw [hpeq, hdeq]

/-- The report of a state is right exactly for a state that is reportable. -/
theorem reports_iff {state : State} (h : Valid state) {p d : BitVec 32}
    (hp : p.toNat * periodTickNs = grantedPeriod state) (hd : d.toNat = dutyTicks state) :
    Reports state (reportOf (p &&& mask 32 0 8) (d &&& mask 32 0 8)) ↔ Reportable state := by
  obtain ⟨hperiod, hduty⟩ := toNat_reportOf h hp hd
  obtain ⟨hlo, hle, hlt, hmax⟩ := grantedPeriod_bounds h.period
  obtain ⟨hticks, hticks'⟩ := dutyTicks_bounds h.period
  obtain ⟨hasked, hcases⟩ := askedDuty_cases h.period
  constructor
  · intro hreports
    have hclose := hreports.duty_close
    rw [hduty, reportedDuty] at hclose
    have hmod : dutyTicks state % 256 * grantedPeriod state % 2 ^ 32 ≤
        dutyTicks state % 256 * grantedPeriod state := Nat.mod_le _ _
    have h256 : dutyTicks state < 256 := by
      by_contra hge
      -- the duty is above the granted period, and of its ticks at most 253 are left
      have hover : 256 * grantedPeriod state ≤ dutyTicks state * grantedPeriod state :=
        Nat.mul_le_mul_right _ (Nat.not_lt.mp hge)
      have hlt510 := dutyTicks_lt h.period
      have hleft : dutyTicks state % 256 ≤ 253 := by omega
      have hmul := Nat.mul_le_mul_right (grantedPeriod state) hleft
      omega
    rw [Nat.mod_eq_of_lt h256] at hclose hmod
    refine ⟨?_, ?_⟩
    · have hmul : (dutyTicks state + 1) * grantedPeriod state ≤ 256 * grantedPeriod state :=
        Nat.mul_le_mul_right _ h256
      rw [Nat.add_mul, Nat.one_mul] at hmul
      omega
    · by_contra hge
      -- the product loses at least 2^32, which is more than the whole period
      have hmul : dutyTicks state * grantedPeriod state ≤ 255 * grantedPeriod state :=
        Nat.mul_le_mul_right _ (Nat.le_of_lt_succ h256)
      omega
  · intro hr
    have hbounds := reportedDuty_of_reportable hr
    rw [← hduty] at hbounds
    have hproper := hr.1
    have hvalid : Valid (reportOf (p &&& mask 32 0 8) (d &&& mask 32 0 8)) :=
      ⟨rfl, rfl, by rw [hperiod]; exact hlo⟩
    have h255 : dutyTicks state * grantedPeriod state ≤ 255 * grantedPeriod state := by
      have h256 : dutyTicks state < 256 := Nat.div_lt_of_lt_mul (by omega)
      exact Nat.mul_le_mul_right _ (Nat.le_of_lt_succ h256)
    have hbelow : (reportOf (p &&& mask 32 0 8) (d &&& mask 32 0 8)).dutyCycle.toNat ≤
        grantedPeriod state := by omega
    exact {
      enabled := rfl
      normal := rfl
      period := hperiod
      duty_le_period := hbelow
      duty_le := by rcases hcases with hcase | hcase <;> rw [hcase] <;> omega
      duty_close := by omega
      again := ticks_of_reported h hvalid hperiod hbounds.1
        (by rw [Nat.add_mul, Nat.one_mul]; omega) hbelow }

/-! ## Runs -/

/-- The registers enable no channel that the driver does not have as initialized. -/
def Shown (pc : AirohaPwm) : Prop := ∀ c < 33, Enabled pc.regmap c → pc.initialized c = true

theorem guard_of_shown {pc : AirohaPwm} (h : Shown pc) {call : Call} (hio : ∀ a, call.io a = 0) :
    Guard pc call := by
  intro _ p d _ b _
  exact {
    stray := fun _ c' hc' _ hen hinit => by
      rw [h c' hc' hen] at hinit
      cases hinit
    again := fun _ => ⟨fun _ => ⟨hio _, hio _, hio _⟩, hio _, hio _⟩
    sipo := fun _ _ _ => ⟨hio _, hio _, hio _, hio _, hio _, hio _, hio _⟩ }

/-- A channel whose disabling has not failed is not enabled. -/
theorem disable_disables {io : Io} (hio : ∀ a, io a = 0) (pc : AirohaPwm) {c : Nat} (hc : c < 33) :
    ¬ Enabled (airohaPwmDisable io c pc).regmap c := by
  have hoff : ¬ Enabled (airohaPwmConfigFlashMapOff io c pc).1.regmap c := by
    unfold airohaPwmConfigFlashMapOff flashEn access
    simp only [mask_shiftLeft, hio, if_true]
    rw [Enabled, mapEn, field_updateBits_self]
    simp [fieldGet]
  have hsipo : ∀ q : AirohaPwm, mapEn (access io .sipoOff
      (updateBits regSipoFlashModeCfg (mask 32 1 1) 0#32) q).1.regmap c = mapEn q.regmap c := by
    intro q
    unfold access
    split
    · exact (same_update (by decide)).mapEn c hc trivial
    · rfl
  unfold airohaPwmDisable
  dsimp only
  split
  · rw [release_regmap]
    exact hoff
  · rw [Enabled, hsipo]
    dsimp only
    rw [release_regmap]
    exact hoff

theorem shown_apply {pc : AirohaPwm} (h : Shown pc) (call : Call) (hio : ∀ a, call.io a = 0) :
    Shown (airohaPwmApply call.io call.hwpwm call.state pc).1 := by
  unfold airohaPwmApply
  cases hen : call.state.enabled with
  | false =>
    obtain ⟨hregs, hinit, -, -⟩ := disable_spec call.io pc call.lt
    intro c hc hc'
    rcases eq_or_ne c call.hwpwm with rfl | hne
    · exact absurd hc' (disable_disables hio pc hc)
    · have hc'' : Enabled pc.regmap c := by
        rw [Enabled, ← hregs.mapEn c hc hne]
        exact hc'
      show (airohaPwmDisable call.io call.hwpwm pc).initialized c = true
      rw [hinit, Function.update_of_ne hne]
      exact h c hc hc''
  | true =>
    rw [if_pos rfl]
    cases hticks : call.state.ticks with
    | none => exact h
    | some t =>
      obtain ⟨p, d⟩ := t
      dsimp only
      rcases lt_or_ge (airohaPwmGetGenerator pc d p) 0 with hneg | hpos
      · rw [airohaPwmConfig, airohaPwmConsumeGenerator]
        simp only [if_pos hneg]
        exact h
      · obtain ⟨b, hgen⟩ := Int.eq_ofNat_of_zero_le hpos
        have hconf := config_spec call.lt hgen (guard_of_shown h hio hen p d hticks b hgen)
        rcases hconf.outcome with ⟨hinit, -⟩ | ⟨-, -, -, hbad⟩
        · intro c hc hc'
          rw [hinit]
          rcases eq_or_ne c call.hwpwm with rfl | hne
          · exact Function.update_self _ _ _
          · rw [Function.update_of_ne hne]
            rw [Enabled, hconf.regs.mapEn c hc hne] at hc'
            exact h c hc hc'
        · exact absurd ⟨fun _ => ⟨hio _, hio _, hio _⟩, hio _, hio _⟩ hbad

/-- After any calls in which no access failed the counts are those of the channels. -/
theorem alone_of_run {pc : AirohaPwm} (h : Idle pc) {calls : List Call}
    (hio : ∀ call ∈ calls, ∀ a, call.io a = 0) {c : Nat}
    (hothers : ∀ c' < 33, c' ≠ c → (after pc calls).initialized c' = false) :
    Alone (after pc calls) c := by
  suffices hrun : Inv (after pc calls) ∧ Shown (after pc calls) from ⟨hothers, hrun.1.counted⟩
  clear hothers
  induction calls with
  | nil => exact ⟨inv_idle h, fun c hc hen => absurd hen (h.disabled c hc)⟩
  | cons call calls ih =>
    obtain ⟨hinv, hshown⟩ := ih fun call' hcall' => hio call' (List.mem_cons_of_mem _ hcall')
    have hcall := hio call List.mem_cons_self
    exact ⟨(apply_step hinv call (guard_of_shown hshown hcall)).1, shown_apply hshown call hcall⟩

/-! ## The result -/

/-- Applying a state and reading it back agree exactly for a state that is reportable. -/
theorem apply_reported_iff {pc : AirohaPwm} {c : Nat} (hc : c < 33) (halone : Alone pc c)
    {state : State} (h : Valid state) : Agrees pc c state ↔ Reportable state := by
  obtain ⟨p, d, hticks, hp, hd⟩ := ticks_eq h
  have hio : ∀ a, (fun _ => 0 : Io) a = 0 := fun _ => rfl
  have hrd : ∀ a, (fun _ => 0 : Read → Nat) a = 0 := fun _ => rfl
  obtain ⟨happlied, hprog⟩ := config_programmed hio hc halone p d
  have happly : airohaPwmApply (fun _ => 0) c state pc = airohaPwmConfig (fun _ => 0) c p d pc := by
    rw [airohaPwmApply, if_pos h.enabled, hticks]
  have hread := getState_programmed hrd hprog
  rw [← reports_iff h hp hd]
  constructor
  · intro hagrees
    have hreports := hagrees.reports state
    rwa [happly, hread] at hreports
  · intro hreports
    exact {
      applied := by rw [happly, happlied]
      read := fun old => by rw [happly, hread]
      reports := fun old => by
        rw [happly, hread]
        exact hreports }

theorem alone_idleChip (c : Nat) : Alone idleChip c :=
  ⟨fun _ _ _ => rfl, (inv_idle idle_idleChip).counted⟩

/-- Half of 4 ms is 127 ticks, and they are read back. -/
theorem apply_reported_halfDuty : Agrees idleChip 0 halfDuty :=
  (apply_reported_iff (by decide) (alone_idleChip 0) ⟨rfl, rfl, by decide⟩).mpr (by decide)

/-- 1 s, half of it high: the product of 127 and 10^9 does not fit 32 bits. -/
def halfSecond : State where
  enabled := true
  inversed := false
  period := 1000000000#64
  dutyCycle := 500000000#64

/-- 6 ms, all of it high: 382 of 255 ticks of the 4 ms that are granted. -/
def fullSixMs : State where
  enabled := true
  inversed := false
  period := 6000000#64
  dutyCycle := 6000000#64

theorem not_agrees_halfSecond :
    ¬ Agrees idleChip 0 halfSecond ∧ ¬ Agrees idleChip 0 fullSixMs := by
  constructor
  · intro h
    have hclose := (h.reports halfDuty).duty_close
    revert hclose
    decide
  · intro h
    have hclose := (h.reports halfDuty).duty_close
    revert hclose
    decide

end Airoha.Pwm
