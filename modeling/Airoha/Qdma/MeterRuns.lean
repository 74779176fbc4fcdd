/-
Airoha.Qdma.MeterRuns — reading back a meter value.

A run is any list of configuration, default-configuration and value calls,
then a value `v` set on one meter, then any list of calls that leaves the
meter's value alone, then a get. The rounding of the 18.6 token rate costs
at most `unit / 64 + 1` (`rate_close`), so the get is that close to `v`
provided it computes with the unit the set used. It takes the tick and the
packet mode from the parameter with twice the index, the meter's own only
for index 0, hence `SameUnit` in `get_close`.
-/
import Airoha.Qdma.MeterSpec

namespace Airoha.Qdma

open Airoha.Lib

/-! ## Runs -/

/-- A call between the set and the get, with its arguments. -/
inductive MeterCall where
  | setMeterCfg (groupId meterIdx : Nat) (value : BitVec 32)
  | defaultConfig
  | setMeterValue (meterIdx : Nat) (value : BitVec 32)

/-- Runs one call; nobody looks at its result. -/
def MeterCall.exec (rounds : Nat) : MeterCall → Drv PUnit
  | .setMeterCfg groupId meterIdx value => do
      let _ ← airohaDpApiQdmaSetMeterCfg rounds groupId meterIdx value
  | .defaultConfig => airohaDpApiQdmaMeterDefaultConfig rounds
  | .setMeterValue meterIdx value => do
      let _ ← airohaDpApiQdmaSetMeterValue rounds meterIdx value

/-- The calls one after another. -/
def runCalls (rounds : Nat) (calls : List MeterCall) : Drv PUnit :=
  forM calls (MeterCall.exec rounds)

/-- Meter group and index of a meter number, an `unsigned short`. -/
def meterGroup (meterIdx : Nat) : Nat := qdmaMeterGroup (meterIdx % 65536)
def meterIndex (meterIdx : Nat) : Nat := qdmaMeterIdx (meterIdx % 65536)

/-- The misc parameter of a meter: its configuration. -/
def miscOf (s : MeterRegs) (meterIdx : Nat) : BitVec 32 :=
  s.para (trtcmMisc, meterGroup meterIdx, meterIndex meterIdx)

/-- The call sets the value of this meter. -/
def MeterCall.SetsValue (meterIdx : Nat) : MeterCall → Prop
  | .setMeterValue m _ => meterGroup m = meterGroup meterIdx ∧ meterIndex m = meterIndex meterIdx
  | _ => False

/-- The meter is one of the 32 rings the default configuration sets. -/
def IsRing (meterIdx : Nat) : Prop := meterGroup meterIdx = 0 ∧ meterIndex meterIdx < 32

/-- The get of this meter computes with the unit of the meter's own configuration. -/
def SameUnit (s : MeterRegs) (meterIdx : Nat) : Prop :=
  unitOf (s.regs regIngressTrtcmCfg)
      (s.para (trtcmMisc, meterGroup meterIdx, 2 * (meterIndex meterIdx % 64))) =
    unitOf (s.regs regIngressTrtcmCfg) (miscOf s meterIdx)

instance (s : MeterRegs) (meterIdx : Nat) : Decidable (SameUnit s meterIdx) :=
  inferInstanceAs (Decidable (_ = _))

/-- `r` is a faithful reading of `v` with this unit. -/
def Close (unit : Nat) (v : BitVec 32) (r : Int) : Prop :=
  r ≤ v.toNat ∧ v.toNat - r ≤ unit / 64 + 1

/-! ## Rounding -/

/-- An 18.6 fixed-point rate loses at most one 64th of the unit, and one. -/
theorem rate_close {v unit : Nat} (h : 0 < unit) :
    v / unit * unit + v % unit * 64 / unit * unit / 64 ≤ v ∧
      v ≤ v / unit * unit + v % unit * 64 / unit * unit / 64 + (unit / 64 + 1) := by
  have hv : v / unit * unit + v % unit = v := by
    rw [Nat.mul_comm]
    exact Nat.div_add_mod v unit
  have h1 : v % unit * 64 / unit * unit ≤ v % unit * 64 := Nat.div_mul_le_self _ _
  have h2 : v % unit * 64 < (v % unit * 64 / unit + 1) * unit := by
    rw [Nat.mul_comm _ unit]
    exact Nat.lt_mul_div_succ _ h
  rw [Nat.add_mul, Nat.one_mul] at h2
  generalize v % unit * 64 / unit * unit = p at h1 h2 ⊢
  generalize v / unit * unit = q at hv ⊢
  omega

theorem fraction_lt {v unit : Nat} (h : 0 < unit) : v % unit * 64 / unit < 64 := by
  rw [Nat.div_lt_iff_lt_mul h, Nat.mul_comm]
  exact Nat.mul_lt_mul_of_pos_left (Nat.mod_lt v h) (by decide)

/-! ## What the other calls leave alone -/

/-- Configuration and default configuration of other meters, and values of other meters. -/
def Untouched (meterIdx : Nat) (s s' : MeterRegs) : Prop :=
  s'.para (trtcmTokenRate, meterGroup meterIdx, meterIndex meterIdx) =
      s.para (trtcmTokenRate, meterGroup meterIdx, meterIndex meterIdx) ∧
    s'.regs regIngressTrtcmCfg = s.regs regIngressTrtcmCfg

section Calls

variable {s : MeterRegs}

theorem rate_ne_misc {k : Nat × Nat} {g i : Nat} : (trtcmTokenRate, k) ≠ (trtcmMisc, g, i) := by
  simp [trtcmTokenRate, trtcmMisc]

/-- The parameters of the 32 rings. -/
def RingKeys (k : Nat × Nat × Nat) : Prop := k.2.1 = 0 ∧ k.2.2 < 32

/-- One ring of the default configuration stays within the parameters of that ring. -/
theorem defaultRing_ends (hs : RatelimitMode s) (rounds : Nat) {ringIdx : Nat} (hr : ringIdx < 32) :
    Ends (defaultRing (rounds + 1) ringIdx) s fun _ s' =>
      Within RingKeys s s' := by
  have hall : ∀ i < 32, qdmaMeterGroup i = 0 ∧ qdmaMeterIdx i = i := by decide
  obtain ⟨hgroup, hidx⟩ := hall ringIdx hr
  unfold defaultRing
  refine Ends.bind (setRatelimitModeCfg_ends hs rounds _) ?_
  intro _ s₁ h₁
  refine Ends.bind (setRatelimitModeValue_ends (h₁.ratelimitMode hs) rounds ringIdx _) ?_
  rintro _ s₂ ⟨h₂, -⟩
  dsimp only at h₁
  rw [hgroup, hidx] at h₁ h₂
  refine Ends.pure ((h₁.mono ?_).trans (h₂.mono ?_))
  · rintro _ rfl
    exact ⟨rfl, hr⟩
  · rintro _ (rfl | rfl)
    · exact ⟨rfl, hr⟩
    · exact ⟨rfl, hr⟩

/-- Storing the rate-limit mode changes nothing in rate-limit mode. -/
theorem set_mode_ratelimit {cfg : BitVec 32} (h : fieldGet 30 1 cfg = 0#32) :
    fieldPrep 30 1 0#32 ||| (cfg &&& ~~~mask 32 30 1) = cfg := by
  have hbit : cfg.getLsbD 30 = false := by
    have h0 : (fieldGet 30 1 cfg).getLsbD 0 = false := by
      rw [h]
      exact BitVec.getLsbD_zero
    rw [getLsbD_fieldGet] at h0
    exact h0
  apply BitVec.eq_of_getLsbD_eq
  intro i hi
  rw [BitVec.getLsbD_or, getLsbD_fieldPrep, BitVec.getLsbD_and, BitVec.getLsbD_not, getLsbD_mask]
  rcases eq_or_ne i 30 with rfl | hne
  · rw [hbit, BitVec.getLsbD_zero]
    rfl
  · have h1 : (decide (30 ≤ i) && decide (i < 30 + 1)) = false := by
      rw [Bool.and_eq_false_iff, decide_eq_false_iff_not, decide_eq_false_iff_not]
      omega
    simp only [hi, decide_true, Bool.true_and, h1, Bool.false_and, Bool.false_or, Bool.not_false,
      Bool.and_true]

theorem defaultConfig_ends (hs : RatelimitMode s) (rounds : Nat) :
    Ends (airohaDpApiQdmaMeterDefaultConfig (rounds + 1)) s fun _ s' =>
      Within RingKeys s s' := by
  unfold airohaDpApiQdmaMeterDefaultConfig
  have hloop : Ends (forM (List.range 32) (defaultRing (rounds + 1))) s
      fun _ s' => Within RingKeys s s' := by
    refine Ends.forM ?_ (Within.refl _ s)
    intro ringIdx hmem s₁ h₁
    refine Ends.mono (defaultRing_ends (h₁.ratelimitMode hs) rounds (List.mem_range.mp hmem)) ?_
    intro _ s₂ h₂
    exact h₁.trans h₂
  refine Ends.bind hloop ?_
  intro _ s₁ h₁
  refine Ends.bind (ends_rr (Q := fun r s' => r = s₁.regs regIngressTrtcmCfg ∧ s' = s₁)
    ⟨rfl, rfl⟩) ?_
  rintro _ s' ⟨rfl, rfl⟩
  have hmode : RatelimitMode s' := h₁.ratelimitMode hs
  have hwr : ∀ v, s'.wr regIngressTrtcmCfg v =
      { s' with regs := Function.update s'.regs regIngressTrtcmCfg v } :=
    fun v => if_neg (by decide)
  rw [set_mode_ratelimit hmode]
  refine ends_wr ⟨fun k hk => ?_, ?_⟩
  · rw [hwr]
    exact h₁.para k hk
  · rw [hwr]
    simp only [Function.update_eq_self]
    exact h₁.cfg

/-- A call that does not set the value of a meter leaves its token rate, and every call leaves
the module configuration. -/
theorem exec_ends (hs : RatelimitMode s) (rounds : Nat) {call : MeterCall} {meterIdx : Nat}
    (hvalue : ¬ call.SetsValue meterIdx) (hring : call = .defaultConfig → ¬ IsRing meterIdx) :
    Ends (call.exec (rounds + 1)) s fun _ s' => Untouched meterIdx s s' := by
  cases call with
  | setMeterCfg groupId m value =>
    refine Ends.bind (setRatelimitModeCfg_ends hs rounds _) ?_
    intro _ s' h
    exact Ends.pure ⟨h.para _ rate_ne_misc, h.cfg⟩
  | defaultConfig =>
    refine Ends.mono (defaultConfig_ends hs rounds) ?_
    intro _ s' h
    exact ⟨h.para _ fun hk => hring rfl hk, h.cfg⟩
  | setMeterValue m value =>
    refine Ends.bind (setRatelimitModeValue_ends hs rounds _ value) ?_
    rintro _ s' ⟨h, -⟩
    refine Ends.pure ⟨h.para _ ?_, h.cfg⟩
    rintro (hk | hk)
    · simp only [Prod.mk.injEq, true_and] at hk
      exact hvalue ⟨hk.1.symm, hk.2.symm⟩
    · simp [trtcmTokenRate, trtcmBucketsizeShift] at hk

/-- Every call ends, and stays in rate-limit mode. -/
theorem exec_ratelimitMode (hs : RatelimitMode s) (rounds : Nat) (call : MeterCall) :
    Ends (call.exec (rounds + 1)) s fun _ s' => RatelimitMode s' := by
  cases call with
  | setMeterCfg groupId m value =>
    refine Ends.bind (setRatelimitModeCfg_ends hs rounds _) ?_
    intro _ s' h
    exact Ends.pure (h.ratelimitMode hs)
  | defaultConfig =>
    refine Ends.mono (defaultConfig_ends hs rounds) ?_
    intro _ s' h
    exact h.ratelimitMode hs
  | setMeterValue m value =>
    refine Ends.bind (setRatelimitModeValue_ends hs rounds _ value) ?_
    rintro _ s' ⟨h, -⟩
    exact Ends.pure (h.ratelimitMode hs)

theorem Untouched.ratelimitMode {meterIdx : Nat} {s s' : MeterRegs} (h : Untouched meterIdx s s')
    (hs : RatelimitMode s) : RatelimitMode s' := by
  unfold RatelimitMode
  rw [h.2]
  exact hs

theorem runCalls_ratelimitMode (hs : RatelimitMode s) (rounds : Nat) (calls : List MeterCall) :
    Ends (runCalls (rounds + 1) calls) s fun _ s' => RatelimitMode s' :=
  Ends.forM (fun call _ _ h => exec_ratelimitMode h rounds call) hs

theorem runCalls_untouched (hs : RatelimitMode s) (rounds : Nat) {calls : List MeterCall}
    {meterIdx : Nat} (hvalue : ∀ call ∈ calls, ¬ call.SetsValue meterIdx)
    (hring : MeterCall.defaultConfig ∈ calls → ¬ IsRing meterIdx) :
    Ends (runCalls (rounds + 1) calls) s fun _ s' => Untouched meterIdx s s' := by
  refine Ends.forM ?_ (⟨rfl, rfl⟩ : Untouched meterIdx s s)
  intro call hmem s₁ h₁
  refine Ends.mono (exec_ends (h₁.ratelimitMode hs) rounds (hvalue call hmem) ?_) ?_
  · rintro rfl
    exact hring hmem
  · intro _ s₂ h₂
    exact ⟨h₂.1.trans h₁.1, h₂.2.trans h₁.2⟩

end Calls

/-! ## The result -/

/-- A value set on a meter is read back, if the set succeeded and the meter's configuration is
the same as then; `P` is what else the state before the get has to satisfy. -/
def ReadsBack (rounds : Nat) (s₀ : MeterRegs) (before after : List MeterCall) (meterIdx : Nat)
    (v : BitVec 32) (P : MeterRegs → Prop) : Prop :=
  Ends (runCalls rounds before) s₀ fun _ s₁ =>
    Ends (airohaDpApiQdmaSetMeterValue rounds meterIdx v) s₁ fun ret s₂ =>
      Ends (runCalls rounds after) s₂ fun _ s₃ =>
        ret = 0 → miscOf s₃ meterIdx = miscOf s₁ meterIdx → P s₃ →
          Ends (airohaDpApiQdmaGetMeterValue meterIdx) s₃ fun r _ =>
            ∃ unit, unitOf (s₁.regs regIngressTrtcmCfg) (miscOf s₁ meterIdx) = some unit ∧
              Close unit v r

/-- In every run, a get reads a meter back to within the rounding, if no later default
configuration set the ring again and the parameter the get takes the modes from gives the
same unit. -/
theorem reads_back (rounds : Nat) {s₀ : MeterRegs} (h₀ : RatelimitMode s₀)
    (before after : List MeterCall) (meterIdx : Nat) (v : BitVec 32)
    (hlast : ∀ call ∈ after, ¬ call.SetsValue meterIdx)
    (hring : MeterCall.defaultConfig ∈ after → ¬ IsRing meterIdx) :
    ReadsBack (rounds + 1) s₀ before after meterIdx v fun s₃ => SameUnit s₃ meterIdx := by
  refine Ends.mono (runCalls_ratelimitMode h₀ rounds before) ?_
  intro _ s₁ h₁
  refine Ends.mono (setRatelimitModeValue_ends h₁ rounds _ v) ?_
  rintro ret s₂ ⟨h₂, hstored⟩
  refine Ends.mono (runCalls_untouched (h₂.ratelimitMode h₁) rounds hlast hring) ?_
  rintro _ s₃ ⟨hrate, hcfg⟩ hret hmisc hsame
  obtain ⟨unit, hst⟩ := hstored hret
  obtain ⟨hpos, -⟩ := unitOf_pos hst.unit_eq
  have hunit : unitOf (s₃.regs regIngressTrtcmCfg)
      (s₃.para (trtcmMisc, meterGroup meterIdx, 2 * (meterIndex meterIdx % 64))) = some unit := by
    rw [hsame, hmisc, hcfg, h₂.cfg]
    exact hst.unit_eq
  refine Ends.mono (getMeterValue_ends rfl hunit hst.integer (fraction_lt hpos)
    (hrate.trans hst.rate)) ?_
  rintro _ _ rfl
  obtain ⟨hle, hge⟩ := rate_close (v := v.toNat) hpos
  have hlt := hst.value_lt
  refine ⟨unit, hst.unit_eq, ?_⟩
  generalize v.toNat / unit * unit + v.toNat % unit * 64 / unit * unit / 64 = r at hle hge ⊢
  rw [Close, BitVec.toInt_eq_toNat_cond, BitVec.toNat_ofNat, Nat.mod_eq_of_lt (by omega),
    if_pos (by omega)]
  constructor
  · omega
  · omega

/-- The calls before the set, the set, the calls after it and the get: the result of the set, the
states before the set and before the get, and what the get returns. -/
def readBackRun (rounds : Nat) (before after : List MeterCall) (meterIdx : Nat) (v : BitVec 32) :
    Drv (Int × MeterRegs × MeterRegs × Int) := do
  runCalls rounds before
  let s₁ ← get
  let ret ← airohaDpApiQdmaSetMeterValue rounds meterIdx v
  runCalls rounds after
  let s₃ ← get
  let r ← airohaDpApiQdmaGetMeterValue meterIdx
  return (ret, s₁, s₃, r)

/-- What `ReadsBack` says of the four, as one run. -/
theorem ReadsBack.ends {rounds : Nat} {s₀ : MeterRegs} {before after : List MeterCall}
    {meterIdx : Nat} {v : BitVec 32} {P : MeterRegs → Prop}
    (h : ReadsBack rounds s₀ before after meterIdx v P) :
    Ends (readBackRun rounds before after meterIdx v) s₀ fun (ret, s₁, s₃, r) _ =>
      ret = 0 → miscOf s₃ meterIdx = miscOf s₁ meterIdx → P s₃ →
        ∃ unit, unitOf (s₁.regs regIngressTrtcmCfg) (miscOf s₁ meterIdx) = some unit ∧
          Close unit v r := by
  unfold readBackRun
  refine Ends.bind h fun _ s₁ h₁ => ?_
  refine Ends.bind (Ends.get (Q := fun r s => r = s₁ ∧ s = s₁) ⟨rfl, rfl⟩) ?_
  rintro _ s₁ ⟨rfl, rfl⟩
  refine Ends.bind h₁ fun ret s₂ h₂ => ?_
  refine Ends.bind h₂ fun _ s₃ h₃ => ?_
  refine Ends.bind (Ends.get (Q := fun r s => r = s₃ ∧ s = s₃) ⟨rfl, rfl⟩) ?_
  rintro _ s₃ ⟨rfl, rfl⟩
  rcases Classical.em (ret = 0 ∧ miscOf s₃ meterIdx = miscOf s₁ meterIdx ∧ P s₃) with hok | hok
  · refine Ends.bind (h₃ hok.1 hok.2.1 hok.2.2) fun r _ hr => ?_
    exact Ends.pure fun _ _ _ => hr
  · refine Ends.bind (getMeterValue_total meterIdx) fun r _ _ => ?_
    exact Ends.pure fun h0 hm hp => absurd ⟨h0, hm, hp⟩ hok

/-! ## Rings with the default configuration -/

/-- A fast tick of 125 microseconds, a slow tick eight times as long, nothing configured. -/
def idleMeters : MeterRegs :=
  { regs := fun offset => if offset = regIngressTrtcmCfg then 0x8007d#32 else 0#32
    para := fun _ => 0#32 }

theorem ratelimitMode_idle : RatelimitMode idleMeters := by
  unfold RatelimitMode
  decide

/-- A set of ring 5 between calls for other meters, and the get of ring 5. -/
def ringFiveRun : Drv (Int × MeterRegs × MeterRegs × Int) :=
  readBackRun 1 [.defaultConfig] [.setMeterValue 1 5000#32, .setMeterCfg 0 2 1#32] 5 12345#32

/-- Rings 5 and 10 are configured alike: in fast ticks the unit is 8000, and 12345 reads back
within 126. -/
theorem reads_back_ringFive :
    Ends ringFiveRun idleMeters fun (ret, s₁, s₃, r) _ =>
      ret = 0 ∧ miscOf s₃ 5 = miscOf s₁ 5 ∧ SameUnit s₃ 5 ∧ Close 8000 12345#32 r := by
  have hback : ReadsBack 1 idleMeters [.defaultConfig]
      [.setMeterValue 1 5000#32, .setMeterCfg 0 2 1#32] 5 12345#32 fun s₃ => SameUnit s₃ 5 := by
    refine reads_back 0 ratelimitMode_idle _ _ _ _ ?_ ?_
    · simp [MeterCall.SetsValue, meterIndex, meterGroup, qdmaMeterIdx]
    · simp
  have hrun : (ringFiveRun.run idleMeters).map (fun ((ret, s₁, s₃, _), _) =>
      (ret, miscOf s₁ 5, miscOf s₃ 5, unitOf (s₁.regs regIngressTrtcmCfg) (miscOf s₁ 5),
        decide (SameUnit s₃ 5))) = some (0, 6#32, 6#32, some 8000, true) := by
    decide +kernel
  obtain ⟨⟨⟨ret, s₁, s₃, r⟩, s'⟩, hrun', heq⟩ := Option.map_eq_some_iff.mp hrun
  simp only [Prod.mk.injEq, decide_eq_true_eq] at heq
  obtain ⟨hret, hm₁, hm₃, hunit, hsame⟩ := heq
  have hmisc : miscOf s₃ 5 = miscOf s₁ 5 := hm₃.trans hm₁.symm
  obtain ⟨unit, hu, hclose⟩ := hback.ends.of_run hrun' hret hmisc hsame
  obtain rfl : 8000 = unit := Option.some.inj (hunit.symm.trans hu)
  exact ⟨_, _, hrun', hret, hmisc, hsame, hclose⟩

/-- Ring 1 is in fast ticks, ring 2 in slow ticks: 8000 set on ring 1 reads back as 1000. -/
theorem not_reads_back_ringOne :
    ¬ ReadsBack 1 idleMeters [.defaultConfig] [] 1 8000#32 fun _ => True := by
  intro h
  have hrun : ((readBackRun 1 [.defaultConfig] [] 1 8000#32).run idleMeters).map
      (fun ((ret, s₁, s₃, r), _) =>
        (ret, miscOf s₁ 1, miscOf s₃ 1, unitOf (s₁.regs regIngressTrtcmCfg) (miscOf s₁ 1), r)) =
      some (0, 6#32, 6#32, some 8000, 1000) := by
    decide +kernel
  obtain ⟨⟨⟨ret, s₁, s₃, r⟩, s'⟩, hrun', heq⟩ := Option.map_eq_some_iff.mp hrun
  simp only [Prod.mk.injEq] at heq
  obtain ⟨hret, hm₁, hm₃, hunit, rfl⟩ := heq
  obtain ⟨unit, hu, hclose⟩ := h.ends.of_run hrun' hret (hm₃.trans hm₁.symm) trivial
  obtain rfl : 8000 = unit := Option.some.inj (hunit.symm.trans hu)
  simp [Close] at hclose

end Airoha.Qdma
