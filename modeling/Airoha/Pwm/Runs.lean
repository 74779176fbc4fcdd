/-
Airoha.Pwm.Runs — the buckets over any sequence of calls.

Started with every channel disabled, the counts of the buckets should be the
numbers of channels that use them (`Counted`), and no call should change the
waveform of another channel that stays enabled (`Isolated`). `Inv` is what
carries this: the counts are right and the registers map each initialized
channel to the bucket it holds.

Two error paths give a bucket back and leave the channel initialized, and a
channel whose disabling failed is no longer counted although the registers
still map it. `Guarded` is a run that keeps clear of these; for it
`holds_of_guarded` has both.
-/
import Airoha.Pwm.Spec

namespace Airoha.Pwm

open Airoha.Lib

/-! ## What is asked -/

/-- The bucket that a channel counts for. -/
def holding (pc : AirohaPwm) (c : Nat) : Option Nat :=
  if pc.initialized c then some (pc.channelBucket c) else none

/-- Each bucket is used as often as channels hold it. -/
def Counted (pc : AirohaPwm) : Prop :=
  ∀ b < 8, (pc.buckets b).used = (tally 33 (holding pc) b : Int)

/-- No other channel that stays enabled gets another waveform. -/
def Isolated (pc pc' : AirohaPwm) (c : Nat) : Prop :=
  ∀ c' < 33, c' ≠ c → Enabled pc.regmap c' → Enabled pc'.regmap c' →
    output pc'.regmap c' = output pc.regmap c'

/-- A call of `airoha_pwm_apply`, with the errors of its register accesses. -/
structure Call where
  io : Io
  hwpwm : Nat
  lt : hwpwm < 33
  state : State

/-- The state after the calls, the newest first. -/
def after (pc : AirohaPwm) : List Call → AirohaPwm
  | [] => pc
  | call :: calls => (airohaPwmApply call.io call.hwpwm call.state (after pc calls)).1

/-- After every call. -/
def Holds (pc : AirohaPwm) : List Call → Prop
  | [] => True
  | call :: calls => Holds pc calls ∧ Counted (after pc (call :: calls)) ∧
      Isolated (after pc calls) (after pc (call :: calls)) call.hwpwm

/-- Every channel disabled, no bucket used. -/
structure Idle (pc : AirohaPwm) : Prop where
  initialized : ∀ c < 33, pc.initialized c = false
  disabled : ∀ c < 33, ¬ Enabled pc.regmap c
  unused : ∀ b < 8, (pc.buckets b).used = 0

/-! ## What a run has to keep clear of -/

/-- The bucket has no user once channel `c` has given up its own, so that it gets programmed. -/
def Programs (pc : AirohaPwm) (c b : Nat) : Prop :=
  ((airohaPwmReleaseBucketConfig pc c).buckets b).used = 0

/-- The accesses to the registers of a bucket succeed. -/
def BucketOk (io : Io) : Prop := io .cycleCfg = 0 ∧ io .flashPrdHigh = 0 ∧ io .flashPrdLow = 0

/-- The accesses to the flash map succeed. -/
def MapOk (io : Io) : Prop := io .flashSetId = 0 ∧ io .flashEn = 0

/-- The set-up of the shift register succeeds. -/
def SipoOk (io : Io) : Prop :=
  io .sipoMode = 0 ∧ io .sipoDivr = 0 ∧ io .sipoDly = 0 ∧ io .sipoPoll = 0 ∧ io .sipoData = 0 ∧
    io .sipoPollData = 0 ∧ io .sipoFlash = 0

/-- Channel `c` may be given bucket `b`. -/
structure Clear (pc : AirohaPwm) (io : Io) (c b : Nat) : Prop where
  stray : Programs pc c b → ∀ c' < 33, c' ≠ c → Enabled pc.regmap c' →
    pc.initialized c' = false → (mapId pc.regmap c').toNat ≠ b
  again : pc.initialized c = true → (Programs pc c b → BucketOk io) ∧ MapOk io
  sipo : 16 ≤ c → (Programs pc c b → BucketOk io) → MapOk io → SipoOk io

/-- The call gets no bucket, or may be given the one it gets. -/
def Guard (pc : AirohaPwm) (call : Call) : Prop :=
  call.state.enabled = true → ∀ p d, call.state.ticks = some (p, d) →
    ∀ b : Nat, airohaPwmGetGenerator pc d p = b → Clear pc call.io call.hwpwm b

/-- Every call of the run. -/
def Guarded (pc : AirohaPwm) : List Call → Prop
  | [] => True
  | call :: calls => Guarded pc calls ∧ Guard (after pc calls) call

/-! ## The invariant -/

/-- The counts are right, and an enabled channel that holds a bucket is mapped to it. -/
structure Inv (pc : AirohaPwm) : Prop where
  counted : Counted pc
  lt : ∀ c < 33, pc.initialized c = true → pc.channelBucket c < 8
  mapped : ∀ c < 33, Enabled pc.regmap c → pc.initialized c = true →
    (mapId pc.regmap c).toNat = pc.channelBucket c

theorem inv_idle {pc : AirohaPwm} (h : Idle pc) : Inv pc := by
  refine ⟨fun b hb => ?_, fun c hc hinit => ?_, fun c hc hen => absurd hen (h.disabled c hc)⟩
  · rw [h.unused b hb, tally_eq_zero_iff.mpr]
    · rfl
    · intro c hc
      simp [holding, h.initialized c hc]
  · rw [h.initialized c hc] at hinit
    cases hinit

/-! ## Counting -/

theorem used_addUsed (pc : AirohaPwm) (b b' : Nat) (d : Int) :
    ((pc.addUsed b d).buckets b').used = (pc.buckets b').used + if b' = b then d else 0 := by
  unfold AirohaPwm.addUsed
  dsimp only
  rcases eq_or_ne b' b with rfl | hne
  · rw [Function.update_self, if_pos rfl]
  · rw [Function.update_of_ne hne, if_neg hne, Int.add_zero]

@[simp] theorem addUsed_initialized (pc : AirohaPwm) (b : Nat) (d : Int) :
    (pc.addUsed b d).initialized = pc.initialized := rfl

@[simp] theorem addUsed_channelBucket (pc : AirohaPwm) (b : Nat) (d : Int) :
    (pc.addUsed b d).channelBucket = pc.channelBucket := rfl

@[simp] theorem addUsed_regmap (pc : AirohaPwm) (b : Nat) (d : Int) :
    (pc.addUsed b d).regmap = pc.regmap := rfl

@[simp] theorem release_initialized (pc : AirohaPwm) (c : Nat) :
    (airohaPwmReleaseBucketConfig pc c).initialized = pc.initialized := by
  unfold airohaPwmReleaseBucketConfig
  split <;> rfl

@[simp] theorem release_channelBucket (pc : AirohaPwm) (c : Nat) :
    (airohaPwmReleaseBucketConfig pc c).channelBucket = pc.channelBucket := by
  unfold airohaPwmReleaseBucketConfig
  split <;> rfl

@[simp] theorem release_regmap (pc : AirohaPwm) (c : Nat) :
    (airohaPwmReleaseBucketConfig pc c).regmap = pc.regmap := by
  unfold airohaPwmReleaseBucketConfig
  split <;> rfl

theorem used_release (pc : AirohaPwm) (c b : Nat) :
    ((airohaPwmReleaseBucketConfig pc c).buckets b).used =
      (pc.buckets b).used - if holding pc c = some b then 1 else 0 := by
  unfold airohaPwmReleaseBucketConfig holding
  cases pc.initialized c with
  | false => simp
  | true =>
    rw [if_pos rfl, if_pos rfl, used_addUsed]
    simp only [Option.some.injEq]
    by_cases h : b = pc.channelBucket c
    · rw [if_pos h, if_pos h.symm]
      omega
    · rw [if_neg h, if_neg (Ne.symm h)]
      omega

/-- A channel that held nothing has nothing to give up. -/
theorem release_of_not {pc : AirohaPwm} {c : Nat} (h : pc.initialized c = false) :
    airohaPwmReleaseBucketConfig pc c = pc := by
  rw [airohaPwmReleaseBucketConfig, h]
  rfl

/-- The counts once channel `c` holds `x` instead of what it held. -/
theorem counted_of_used {pc pc' : AirohaPwm} {c : Nat} (hc : c < 33) {x : Option Nat}
    (h : Counted pc)
    (hhold : holding pc' = Function.update (holding pc) c x)
    (hused : ∀ b < 8, (pc'.buckets b).used =
      ((airohaPwmReleaseBucketConfig pc c).buckets b).used + if x = some b then 1 else 0) :
    Counted pc' := by
  intro b hb
  have htally := tally_update hc (holding pc) x b
  rw [hused b hb, used_release, h b hb, hhold]
  by_cases h1 : holding pc c = some b
  · by_cases h2 : x = some b
    · simp only [h1, h2, if_true] at htally ⊢
      omega
    · simp only [h1, h2, if_true, if_false] at htally ⊢
      omega
  · by_cases h2 : x = some b
    · simp only [h1, h2, if_true, if_false] at htally ⊢
      omega
    · simp only [h1, h2, if_false] at htally ⊢
      omega

/-! ## The generator -/

theorem generatorLoop_range (buckets : Nat → Bucket) (dutyTicks periodTicks dutyNs : BitVec 32) :
    ∀ (n i : Nat) (s : Search), i + n ≤ 8 → (s.best < 0 ∨ 0 ≤ s.best ∧ s.best < 8) →
      s.unused < 8 →
      generatorLoop buckets dutyTicks periodTicks dutyNs i n s < 8 := by
  intro n
  induction n with
  | zero =>
    intro i s _ hbest hunused
    rw [generatorLoop]
    split
    · exact hunused
    · omega
  | succ n ih =>
    intro i s hi hbest hunused
    rw [generatorLoop]
    dsimp only
    split
    · exact ih (i + 1) _ (by omega) hbest (by dsimp only; omega)
    · split
      · omega
      · split
        · omega
        · split
          · exact ih (i + 1) s (by omega) hbest hunused
          · split
            · exact ih (i + 1) s (by omega) hbest hunused
            · split
              · split
                · exact ih (i + 1) s (by omega) hbest hunused
                · split
                  · exact ih (i + 1) _ (by omega) (by dsimp only; omega) hunused
                  · exact ih (i + 1) s (by omega) hbest hunused
              · exact ih (i + 1) s (by omega) hbest hunused

/-- A generator is one of the eight buckets. -/
theorem getGenerator_lt (pc : AirohaPwm) (d p : BitVec 32) : airohaPwmGetGenerator pc d p < 8 :=
  generatorLoop_range _ _ _ _ 8 0 _ (by decide) (Or.inl (by decide)) (by decide)

/-! ## `airoha_pwm_consume_generator` -/

/-- What it leaves when it gets bucket `b`. -/
structure Consumed (pc : AirohaPwm) (io : Io) (c b : Nat) (r : AirohaPwm × Int) : Prop where
  initialized : r.1.initialized = pc.initialized
  channelBucket : r.1.channelBucket = pc.channelBucket
  regs : Same (fun b' => Programs pc c b → b' ≠ b) (fun _ => True) pc.regmap r.1.regmap
  ret : r.2 = b ∧ (∀ b', (r.1.buckets b').used =
      ((airohaPwmReleaseBucketConfig pc c).buckets b').used + if b' = b then 1 else 0) ∧
      (Programs pc c b → BucketOk io) ∨
    r.2 < 0 ∧ (∀ b', (r.1.buckets b').used =
      ((airohaPwmReleaseBucketConfig pc c).buckets b').used) ∧ Programs pc c b ∧ ¬ BucketOk io

theorem andThen_ret_iff {f g : Step} {pc : AirohaPwm} :
    (Step.andThen f g pc).2 = 0 ↔ (f pc).2 = 0 ∧ (g (f pc).1).2 = 0 := by
  unfold Step.andThen
  dsimp only
  split
  · rename_i h
    simp [h]
  · rename_i h
    rw [not_not] at h
    simp [h]

theorem access_ret_iff {io : Io} {a : Access} {g : Regs → Regs} {pc : AirohaPwm} :
    (access io a g pc).2 = 0 ↔ io a = 0 := by
  unfold access
  split
  · rename_i h
    simp [h]
  · rename_i h
    simp [h]

theorem access_nonpos (io : Io) (a : Access) (g : Regs → Regs) (pc : AirohaPwm) :
    (access io a g pc).2 ≤ 0 := by
  unfold access
  split
  · exact Int.le_refl 0
  · simp

theorem andThen_nonpos {f g : Step} (hf : ∀ pc, (f pc).2 ≤ 0) (hg : ∀ pc, (g pc).2 ≤ 0)
    (pc : AirohaPwm) :
    (Step.andThen f g pc).2 ≤ 0 := by
  unfold Step.andThen
  dsimp only
  split
  · exact hf pc
  · exact hg _

theorem applyBucketConfig_ret_iff {io : Io} {b : Nat} {d p : BitVec 32} {pc : AirohaPwm} :
    (airohaPwmApplyBucketConfig io b d p pc).2 = 0 ↔ BucketOk io := by
  unfold airohaPwmApplyBucketConfig BucketOk
  rw [andThen_ret_iff, andThen_ret_iff, access_ret_iff, access_ret_iff, access_ret_iff]

theorem applyBucketConfig_nonpos (io : Io) (b : Nat) (d p : BitVec 32) (pc : AirohaPwm) :
    (airohaPwmApplyBucketConfig io b d p pc).2 ≤ 0 :=
  andThen_nonpos (access_nonpos io _ _)
    (andThen_nonpos (access_nonpos io _ _) (access_nonpos io _ _)) pc

theorem configFlashMap_ret_iff {io : Io} {c b : Nat} {pc : AirohaPwm} :
    (airohaPwmConfigFlashMap io c b pc).2 = 0 ↔ MapOk io := by
  unfold airohaPwmConfigFlashMap MapOk
  rw [andThen_ret_iff, access_ret_iff, access_ret_iff]

theorem sipoInit_ret_iff {io : Io} {pc : AirohaPwm} :
    (airohaPwmSipoInit io pc).2 = 0 ↔ SipoOk io := by
  unfold airohaPwmSipoInit SipoOk
  rw [andThen_ret_iff, andThen_ret_iff, andThen_ret_iff, andThen_ret_iff, andThen_ret_iff,
    andThen_ret_iff, access_ret_iff, access_ret_iff, access_ret_iff, access_ret_iff, access_ret_iff,
    access_ret_iff, access_ret_iff]

/-- The ticks that are noted for a bucket do not count. -/
theorem used_ticks (pc : AirohaPwm) (b b' : Nat) (p d : BitVec 32) :
    (Function.update pc.buckets b
      { pc.buckets b with periodTicks := p, dutyTicks := d } b').used = (pc.buckets b').used := by
  rcases eq_or_ne b' b with rfl | hne
  · rw [Function.update_self]
  · rw [Function.update_of_ne hne]

theorem consumeGenerator_spec {io : Io} {pc : AirohaPwm} {c b : Nat} {d p : BitVec 32}
    (hgen : airohaPwmGetGenerator pc d p = b) :
    Consumed pc io c b (airohaPwmConsumeGenerator io d p c pc) := by
  have hb : b < 8 := by
    have hlt := getGenerator_lt pc d p
    rw [hgen] at hlt
    omega
  have hneg : ¬ (b : Int) < 0 := by omega
  unfold airohaPwmConsumeGenerator
  dsimp only
  rw [hgen, if_neg hneg, Int.toNat_natCast]
  by_cases hprog : Programs pc c b
  · have hprog' := hprog
    unfold Programs at hprog'
    rw [if_pos hprog']
    generalize hq : ({ (airohaPwmReleaseBucketConfig pc c).addUsed b 1 with
      buckets := Function.update ((airohaPwmReleaseBucketConfig pc c).addUsed b 1).buckets b
        { ((airohaPwmReleaseBucketConfig pc c).addUsed b 1).buckets b with
          periodTicks := p, dutyTicks := d } } : AirohaPwm) = q
    have hqused : ∀ b', (q.buckets b').used =
        ((airohaPwmReleaseBucketConfig pc c).buckets b').used + if b' = b then 1 else 0 := by
      intro b'
      rw [← hq]
      dsimp only
      rw [used_ticks, used_addUsed]
    have hqinit : q.initialized = pc.initialized := by rw [← hq]; simp
    have hqbucket : q.channelBucket = pc.channelBucket := by rw [← hq]; simp
    have hqregs : q.regmap = pc.regmap := by rw [← hq]; simp
    obtain ⟨r, hr, hsame⟩ := applyBucketConfig_keeps io hb d p q
    rw [hqregs] at hsame
    have hsame' : Same (fun b' => Programs pc c b → b' ≠ b) (fun _ => True) pc.regmap r :=
      hsame.mono (fun b' h => h hprog) fun _ h => h
    split
    · rename_i hret
      have hle := applyBucketConfig_nonpos io b d p q
      refine ⟨?_, ?_, ?_, Or.inr ⟨?_, fun b' => ?_, hprog, fun hok => hret ?_⟩⟩
      · rw [hr]
        exact hqinit
      · rw [hr]
        exact hqbucket
      · rw [hr]
        exact hsame'
      · dsimp only
        omega
      · rw [used_addUsed, hr]
        dsimp only
        rw [hqused]
        split <;> omega
      · exact applyBucketConfig_ret_iff.mpr hok
    · rename_i hret
      rw [not_not] at hret
      refine ⟨?_, ?_, ?_, Or.inl ⟨rfl, fun b' => ?_, fun _ => applyBucketConfig_ret_iff.mp hret⟩⟩
      · rw [hr]
        exact hqinit
      · rw [hr]
        exact hqbucket
      · rw [hr]
        exact hsame'
      · rw [hr]
        exact hqused b'
  · have hprog' := hprog
    unfold Programs at hprog'
    rw [if_neg hprog']
    refine ⟨by simp, by simp, ?_,
      Or.inl ⟨rfl, fun b' => used_addUsed _ _ _ _, fun h => absurd h hprog⟩⟩
    rw [addUsed_regmap, release_regmap]
    exact Same.refl _ _ _

/-- When the accesses to the flash map succeed the channel is enabled and mapped to the bucket. -/
theorem configFlashMap_maps {io : Io} (h : MapOk io) {c b : Nat} (hb : b < 8) (pc : AirohaPwm) :
    (mapId (airohaPwmConfigFlashMap io c b pc).1.regmap c).toNat = b := by
  obtain ⟨h1, h2⟩ := h
  have hshift := flashMap_shift c
  unfold airohaPwmConfigFlashMap flashSetId flashEn Step.andThen
  simp only [mask_shiftLeft, fieldPrep_shiftLeft, access, h1, h2, if_true, ne_eq,
    not_true_eq_false, if_false]
  rw [mapId, field_updateBits_of_ne (Or.inr (by omega)), Nat.zero_add, field_updateBits_self,
    fieldGet_fieldPrep_self (by omega), ofNat_and_mask (n := 3) hb, BitVec.toNat_ofNat]
  omega

/-! ## `airoha_pwm_config` -/

/-- What a call leaves that is given bucket `b`: nothing but the bucket and the registers of the
channel is touched, and the channel holds `b` or what it held. -/
structure Configured (pc : AirohaPwm) (io : Io) (c b : Nat) (pc' : AirohaPwm) : Prop where
  regs : Same (fun b' => Programs pc c b → b' ≠ b) (· ≠ c) pc.regmap pc'.regmap
  outcome :
    (pc'.initialized = Function.update pc.initialized c true ∧
      pc'.channelBucket = Function.update pc.channelBucket c b ∧
      (∀ b', (pc'.buckets b').used =
        ((airohaPwmReleaseBucketConfig pc c).buckets b').used + if b' = b then 1 else 0) ∧
      (mapId pc'.regmap c).toNat = b) ∨
    (pc'.initialized = pc.initialized ∧ pc'.channelBucket = pc.channelBucket ∧
      (∀ b', (pc'.buckets b').used = ((airohaPwmReleaseBucketConfig pc c).buckets b').used) ∧
      ¬ ((Programs pc c b → BucketOk io) ∧ MapOk io))

theorem config_spec {io : Io} {pc : AirohaPwm} {c b : Nat} (hc : c < 33) {d p : BitVec 32}
    (hgen : airohaPwmGetGenerator pc d p = b) (hclear : Clear pc io c b) :
    Configured pc io c b (airohaPwmConfig io c p d pc).1 := by
  have hb : b < 8 := by
    have hlt := getGenerator_lt pc d p
    rw [hgen] at hlt
    omega
  have hcons : Consumed pc io c b _ := consumeGenerator_spec hgen
  unfold airohaPwmConfig
  generalize airohaPwmConsumeGenerator io d p c pc = r at hcons
  dsimp only
  rcases hcons.ret with ⟨hret, hused, hbucket⟩ | ⟨hret, hused, hprog, hbad⟩
  · have hneg : ¬ r.2 < 0 := by omega
    rw [if_neg hneg, hret, Int.toNat_natCast]
    obtain ⟨m, hm, hsame⟩ := configFlashMap_keeps io hc b r.1
    have hregs : Same (fun b' => Programs pc c b → b' ≠ b) (· ≠ c) pc.regmap m :=
      (hcons.regs.mono (fun _ h => h) fun _ _ => trivial).trans
        (hsame.mono (fun _ _ => trivial) fun _ h => h)
    by_cases hmap : MapOk io
    · have hmaps := configFlashMap_maps hmap (c := c) hb r.1
      rw [if_neg (not_not.mpr (configFlashMap_ret_iff.mpr hmap))]
      rw [hm] at hmaps ⊢
      dsimp only at hmaps ⊢
      rw [hcons.initialized, hcons.channelBucket]
      split
      · rename_i h16
        rw [if_neg (not_not.mpr (sipoInit_ret_iff.mpr (hclear.sipo h16 hbucket hmap)))]
        generalize hq : ({ r.1 with
          regmap := m, initialized := Function.update pc.initialized c true,
          channelBucket := Function.update pc.channelBucket c b } : AirohaPwm) = q
        obtain ⟨m', hm', hsame'⟩ := sipoInit_keeps io q
        rw [hm']
        rw [← hq] at hsame' ⊢
        dsimp only at hsame' ⊢
        refine ⟨hregs.trans (hsame'.mono (fun _ _ => trivial) fun _ _ => trivial),
          Or.inl ⟨rfl, rfl, hused, ?_⟩⟩
        rw [hsame'.mapId c hc trivial]
        exact hmaps
      · exact ⟨hregs, Or.inl ⟨rfl, rfl, hused, hmaps⟩⟩
    · rw [if_pos fun h => hmap (configFlashMap_ret_iff.mp h)]
      refine ⟨?_, Or.inr ⟨?_, ?_, fun b' => ?_, fun h => hmap h.2⟩⟩
      · rw [addUsed_regmap, hm]
        exact hregs
      · rw [addUsed_initialized, hm]
        exact hcons.initialized
      · rw [addUsed_channelBucket, hm]
        exact hcons.channelBucket
      · rw [used_addUsed, hm]
        dsimp only
        rw [hused]
        split <;> omega
  · rw [if_pos hret]
    exact ⟨hcons.regs.mono (fun _ h => h) fun _ _ => trivial, Or.inr ⟨hcons.initialized,
      hcons.channelBucket, hused, fun h => hbad (h.1 hprog)⟩⟩

/-! ## One call -/

/-- A bucket that gets programmed is held by no other channel. -/
theorem not_held_of_programs {pc : AirohaPwm} {c b : Nat} (hc : c < 33) (hb : b < 8)
    (h : Counted pc) (hprog : Programs pc c b) : ∀ c' < 33, c' ≠ c → holding pc c' ≠ some b := by
  intro c' hc' hne
  have htally := tally_update hc (holding pc) none b
  unfold Programs at hprog
  rw [used_release, h b hb] at hprog
  have hzero : tally 33 (Function.update (holding pc) c none) b = 0 := by
    by_cases hh : holding pc c = some b
    · simp only [hh, if_true] at htally hprog
      simp at htally
      omega
    · simp only [hh, if_false] at htally hprog
      simp at htally
      omega
  have hnot := tally_eq_zero_iff.mp hzero c' hc'
  rwa [Function.update_of_ne hne] at hnot

theorem isolated_of_same {pc : AirohaPwm} {io : Io} {c b : Nat} (hc : c < 33) (hb : b < 8)
    (hinv : Inv pc) (hclear : Clear pc io c b) {pc' : AirohaPwm}
    (hregs : Same (fun b' => Programs pc c b → b' ≠ b) (· ≠ c) pc.regmap pc'.regmap) :
    Isolated pc pc' c := by
  intro c' hc' hne hen _
  have hlt : (mapId pc.regmap c').toNat < 8 := toNat_fieldGet_lt _ 3 _
  rw [output, output, hregs.mapId c' hc' hne]
  refine hregs.wave _ hlt fun hprog => ?_
  cases hinit : pc.initialized c' with
  | false => exact hclear.stray hprog c' hc' hne hen hinit
  | true =>
    rw [hinv.mapped c' hc' hen hinit]
    intro heq
    refine not_held_of_programs hc hb hinv.counted hprog c' hc' hne ?_
    rw [holding, hinit, heq]
    rfl

/-- A call that is given a bucket keeps the invariant. -/
theorem inv_config {pc : AirohaPwm} {io : Io} {c b : Nat} (hc : c < 33) (hb : b < 8) (hinv : Inv pc)
    (hclear : Clear pc io c b) {pc' : AirohaPwm} (h : Configured pc io c b pc') : Inv pc' := by
  rcases h.outcome with ⟨hinit, hbucket, hused, hmap⟩ | ⟨hinit, hbucket, hused, hbad⟩
  · have hhold : holding pc' = Function.update (holding pc) c (some b) := by
      funext x
      unfold holding
      rw [hinit, hbucket]
      rcases eq_or_ne x c with rfl | hne
      · simp
      · simp [hne]
    refine ⟨counted_of_used hc hinv.counted hhold fun b' _ => ?_, fun c' hc' hi => ?_,
      fun c' hc' hen hi => ?_⟩
    · rw [hused b']
      simp only [Option.some.injEq, eq_comm]
    · rw [hbucket]
      rcases eq_or_ne c' c with rfl | hne
      · rw [Function.update_self]
        exact hb
      · rw [hinit, Function.update_of_ne hne] at hi
        rw [Function.update_of_ne hne]
        exact hinv.lt c' hc' hi
    · rw [hbucket]
      rcases eq_or_ne c' c with rfl | hne
      · rw [Function.update_self]
        exact hmap
      · rw [hinit, Function.update_of_ne hne] at hi
        rw [Function.update_of_ne hne, h.regs.mapId c' hc' hne]
        rw [Enabled, h.regs.mapEn c' hc' hne] at hen
        exact hinv.mapped c' hc' hen hi
  · have hnot : pc.initialized c = false := by
      cases hi : pc.initialized c with
      | false => rfl
      | true => exact absurd (hclear.again hi) hbad
    rw [release_of_not hnot] at hused
    have hhold : holding pc' = holding pc := by
      unfold holding
      rw [hinit, hbucket]
    refine ⟨fun b' hb' => ?_, fun c' hc' hi => ?_, fun c' hc' hen hi => ?_⟩
    · rw [hused b', hhold]
      exact hinv.counted b' hb'
    · rw [hinit] at hi
      rw [hbucket]
      exact hinv.lt c' hc' hi
    · rw [hinit] at hi
      have hne : c' ≠ c := by
        rintro rfl
        rw [hnot] at hi
        cases hi
      rw [hbucket, h.regs.mapId c' hc' hne]
      rw [Enabled, h.regs.mapEn c' hc' hne] at hen
      exact hinv.mapped c' hc' hen hi

/-- What disabling leaves. -/
theorem disable_spec (io : Io) (pc : AirohaPwm) {c : Nat} (hc : c < 33) :
    Same (fun _ => True) (· ≠ c) pc.regmap (airohaPwmDisable io c pc).regmap ∧
      (airohaPwmDisable io c pc).initialized = Function.update pc.initialized c false ∧
      (airohaPwmDisable io c pc).channelBucket = pc.channelBucket ∧
      ∀ b, ((airohaPwmDisable io c pc).buckets b).used =
        ((airohaPwmReleaseBucketConfig pc c).buckets b).used := by
  obtain ⟨m, hm, hsame⟩ := configFlashMapOff_keeps io hc pc
  have hrel : airohaPwmReleaseBucketConfig { pc with regmap := m } c =
      { airohaPwmReleaseBucketConfig pc c with regmap := m } := by
    unfold airohaPwmReleaseBucketConfig
    dsimp only
    split <;> rfl
  unfold airohaPwmDisable
  rw [hm]
  dsimp only
  rw [hrel]
  dsimp only
  rw [release_initialized, release_channelBucket]
  split
  · exact ⟨hsame, rfl, rfl, fun _ => rfl⟩
  · unfold access
    split
    · refine ⟨hsame.trans ?_, rfl, rfl, fun _ => rfl⟩
      exact (same_update (by decide)).mono (fun _ _ => trivial) fun _ _ => trivial
    · exact ⟨hsame, rfl, rfl, fun _ => rfl⟩

theorem inv_disable {io : Io} {pc : AirohaPwm} {c : Nat} (hc : c < 33) (hinv : Inv pc) :
    Inv (airohaPwmDisable io c pc) := by
  obtain ⟨hregs, hinit, hbucket, hused⟩ := disable_spec io pc hc
  have hhold : holding (airohaPwmDisable io c pc) = Function.update (holding pc) c none := by
    funext x
    unfold holding
    rw [hinit, hbucket]
    rcases eq_or_ne x c with rfl | hne
    · simp
    · simp [hne]
  refine ⟨counted_of_used hc hinv.counted hhold fun b _ => ?_, fun c' hc' hi => ?_,
    fun c' hc' hen hi => ?_⟩
  · rw [hused b]
    simp
  · rw [hbucket]
    rcases eq_or_ne c' c with rfl | hne
    · rw [hinit, Function.update_self] at hi
      cases hi
    · rw [hinit, Function.update_of_ne hne] at hi
      exact hinv.lt c' hc' hi
  · rcases eq_or_ne c' c with rfl | hne
    · rw [hinit, Function.update_self] at hi
      cases hi
    · rw [hinit, Function.update_of_ne hne] at hi
      rw [Enabled, hregs.mapEn c' hc' hne] at hen
      rw [hbucket, hregs.mapId c' hc' hne]
      exact hinv.mapped c' hc' hen hi

theorem isolated_disable {io : Io} {pc : AirohaPwm} {c : Nat} (hc : c < 33) :
    Isolated pc (airohaPwmDisable io c pc) c := by
  intro c' hc' hne _ _
  obtain ⟨hregs, -, -, -⟩ := disable_spec io pc hc
  have hlt : (mapId pc.regmap c').toNat < 8 := toNat_fieldGet_lt _ 3 _
  rw [output, output, hregs.mapId c' hc' hne, hregs.wave _ hlt trivial]

/-- A call that keeps to the guard keeps the invariant and the other channels. -/
theorem apply_step {pc : AirohaPwm} (hinv : Inv pc) (call : Call) (hguard : Guard pc call) :
    Inv (airohaPwmApply call.io call.hwpwm call.state pc).1 ∧
      Isolated pc (airohaPwmApply call.io call.hwpwm call.state pc).1 call.hwpwm := by
  have hsame : Isolated pc pc call.hwpwm := fun _ _ _ _ _ => rfl
  unfold airohaPwmApply
  cases hen : call.state.enabled with
  | false => exact ⟨inv_disable call.lt hinv, isolated_disable call.lt⟩
  | true =>
    rw [if_pos rfl]
    cases hticks : call.state.ticks with
    | none => exact ⟨hinv, hsame⟩
    | some t =>
      obtain ⟨p, d⟩ := t
      dsimp only
      rcases lt_or_ge (airohaPwmGetGenerator pc d p) 0 with hneg | hpos
      · have hcons : airohaPwmConsumeGenerator call.io d p call.hwpwm pc =
            (pc, airohaPwmGetGenerator pc d p) := by
          rw [airohaPwmConsumeGenerator]
          exact if_pos hneg
        rw [airohaPwmConfig, hcons]
        dsimp only
        rw [if_pos hneg]
        exact ⟨hinv, hsame⟩
      · obtain ⟨b, hgen⟩ := Int.eq_ofNat_of_zero_le hpos
        have hb : b < 8 := by
          have hlt := getGenerator_lt pc d p
          omega
        have hclear := hguard hen p d hticks b hgen
        have hconf := config_spec call.lt hgen hclear
        exact ⟨inv_config call.lt hb hinv hclear hconf,
          isolated_of_same call.lt hb hinv hclear hconf.regs⟩

/-! ## The result -/

theorem inv_of_guarded {pc : AirohaPwm} (h : Idle pc) (calls : List Call)
    (hguard : Guarded pc calls) : Inv (after pc calls) ∧ Holds pc calls := by
  induction calls with
  | nil => exact ⟨inv_idle h, trivial⟩
  | cons call calls ih =>
    obtain ⟨hinv, hholds⟩ := ih hguard.1
    obtain ⟨hinv', hiso⟩ := apply_step hinv call hguard.2
    exact ⟨hinv', hholds, hinv'.counted, hiso⟩

/-- In a guarded run from an idle chip the counts stay right and no channel disturbs another. -/
theorem holds_of_guarded {pc : AirohaPwm} (h : Idle pc) (calls : List Call)
    (hguard : Guarded pc calls) : Holds pc calls :=
  (inv_of_guarded h calls hguard).2

/-! ## Two channels on one bucket -/

/-- Registers that read zero, nothing in use. -/
def idleChip : AirohaPwm where
  regmap _ := 0#32
  initialized _ := false
  buckets _ := { used := 0, periodTicks := 0#32, dutyTicks := 0#32 }
  channelBucket _ := 0

theorem idle_idleChip : Idle idleChip := by
  refine ⟨fun _ _ => rfl, fun c _ hen => hen ?_, fun _ _ => rfl⟩
  rw [mapEn, Regs.field, fieldGet, idleChip]
  simp

/-- 4 ms, half of it high. -/
def halfDuty : State where
  enabled := true
  inversed := false
  period := 4000000#64
  dutyCycle := 2000000#64

/-- Channel `c` is asked for `halfDuty`. -/
def askHalf (io : Io) (c : Nat) (h : c < 33) : Call :=
  { io := io, hwpwm := c, lt := h, state := halfDuty }

theorem ticks_halfDuty : halfDuty.ticks = some (1#32, 127#32) := by decide

theorem apply_halfDuty (io : Io) (c : Nat) (pc : AirohaPwm) :
    airohaPwmApply io c halfDuty pc = airohaPwmConfig io c 1#32 127#32 pc := by
  unfold airohaPwmApply
  rw [if_pos (show halfDuty.enabled = true from rfl), ticks_halfDuty]

/-- Bucket 7 runs `halfDuty` for `n` channels and the others are unused. -/
structure OnSeven (pc : AirohaPwm) (n : Int) : Prop where
  unused : ∀ b < 7, (pc.buckets b).used = 0
  used : (pc.buckets 7).used = n
  periodTicks : (pc.buckets 7).periodTicks = 1#32
  dutyTicks : (pc.buckets 7).dutyTicks = 127#32

theorem OnSeven.getGenerator {pc : AirohaPwm} {n : Int} (h : OnSeven pc n) (hn : n ≠ 0) :
    airohaPwmGetGenerator pc 127#32 1#32 = 7 := by
  have hunused := h.unused
  simp only [Nat.forall_lt_succ_left] at hunused
  simp [airohaPwmGetGenerator, generatorLoop, numBuckets, hunused, h.used, h.periodTicks,
    h.dutyTicks, hn]

theorem OnSeven.addUsed {pc : AirohaPwm} {n : Int} (h : OnSeven pc n) (d : Int) :
    OnSeven (pc.addUsed 7 d) (n + d) := by
  refine ⟨fun b hb => ?_, ?_, ?_, ?_⟩
  · rw [used_addUsed, h.unused b hb, if_neg (by omega)]
    rfl
  · rw [used_addUsed, h.used, if_pos rfl]
  · simp [AirohaPwm.addUsed, h.periodTicks]
  · simp [AirohaPwm.addUsed, h.dutyTicks]

theorem OnSeven.consume {pc : AirohaPwm} {n : Int} (h : OnSeven pc n) (hn : n ≠ 0) (io : Io)
    {c : Nat} (hinit : pc.initialized c = false) :
    airohaPwmConsumeGenerator io 127#32 1#32 c pc = (pc.addUsed 7 1, 7) := by
  simp [airohaPwmConsumeGenerator, h.getGenerator hn, release_of_not hinit, h.used, hn]

/-- A further GPIO channel joins. -/
theorem OnSeven.joins {pc : AirohaPwm} {n : Int} (h : OnSeven pc n) (hn : n ≠ 0) {io : Io}
    (hmap : MapOk io) {c : Nat} (hinit : pc.initialized c = false) (hc : c < 33) (hgpio : c < 16) :
    let pc' := (airohaPwmApply io c halfDuty pc).1
    OnSeven pc' (n + 1) ∧ pc'.initialized = Function.update pc.initialized c true ∧
      pc'.channelBucket = Function.update pc.channelBucket c 7 := by
  obtain ⟨r, hr, -⟩ := configFlashMap_keeps io hc 7 (pc.addUsed 7 1)
  have hret : (airohaPwmConfigFlashMap io c 7 (pc.addUsed 7 1)).2 = 0 :=
    configFlashMap_ret_iff.mpr hmap
  have hrun : (airohaPwmApply io c halfDuty pc).1 =
      { pc.addUsed 7 1 with
        regmap := r
        initialized := Function.update pc.initialized c true
        channelBucket := Function.update pc.channelBucket c 7 } := by
    rw [apply_halfDuty]
    simp [airohaPwmConfig, h.consume hn io hinit, hret, hr, numGpio, Nat.not_le.mpr hgpio]
  rw [hrun]
  have h' := h.addUsed 1
  exact ⟨⟨h'.unused, h'.used, h'.periodTicks, h'.dutyTicks⟩, rfl, rfl⟩

/-- Its flash map fails, and it gives the bucket back. -/
theorem OnSeven.stays {pc : AirohaPwm} {n : Int} (h : OnSeven pc n) (hn : n ≠ 0) {io : Io}
    (hmap : ¬ MapOk io) {c : Nat} (hinit : pc.initialized c = false) (hc : c < 33) :
    let pc' := (airohaPwmApply io c halfDuty pc).1
    OnSeven pc' n ∧ pc'.initialized = pc.initialized ∧ pc'.channelBucket = pc.channelBucket := by
  obtain ⟨r, hr, -⟩ := configFlashMap_keeps io hc 7 (pc.addUsed 7 1)
  have hret : (airohaPwmConfigFlashMap io c 7 (pc.addUsed 7 1)).2 ≠ 0 :=
    fun h => hmap (configFlashMap_ret_iff.mp h)
  have hrun : (airohaPwmApply io c halfDuty pc).1 =
      { (pc.addUsed 7 1).addUsed 7 (-1) with regmap := r } := by
    rw [apply_halfDuty]
    simp [airohaPwmConfig, h.consume hn io hinit, hret, hr]
    rfl
  rw [hrun]
  have h' := (h.addUsed 1).addUsed (-1)
  rw [Int.add_neg_cancel_right] at h'
  exact ⟨⟨h'.unused, h'.used, h'.periodTicks, h'.dutyTicks⟩, rfl, rfl⟩

/-- A GPIO channel that is not initialized may fail as it likes when its bucket has a user. -/
theorem guard_onSeven {pc : AirohaPwm} {n : Int} (h : OnSeven pc n) (hn : n ≠ 0) (io : Io)
    {c : Nat} (hc : c < 33) (hgpio : c < 16) (hinit : pc.initialized c = false) :
    Guard pc (askHalf io c hc) := by
  intro _ p d hticks b hb
  obtain ⟨rfl, rfl⟩ := Prod.mk.inj (Option.some.inj (ticks_halfDuty.symm.trans hticks))
  obtain rfl : 7 = b := by
    rw [h.getGenerator hn] at hb
    omega
  refine ⟨fun hprog => ?_, fun hi => ?_, fun h16 => absurd h16 (Nat.not_le.mpr hgpio)⟩
  · have hzero : ((airohaPwmReleaseBucketConfig pc c).buckets 7).used = 0 := hprog
    rw [release_of_not hinit, h.used] at hzero
    exact absurd hzero hn
  · cases hinit.symm.trans hi

theorem after_askHalf (pc : AirohaPwm) (io : Io) {c : Nat} (h : c < 33) (calls : List Call) :
    after pc (askHalf io c h :: calls) = (airohaPwmApply io c halfDuty (after pc calls)).1 := rfl

theorem after_disable (pc : AirohaPwm) {call : Call} (h : call.state.enabled = false)
    (calls : List Call) :
    after pc (call :: calls) = airohaPwmDisable call.io call.hwpwm (after pc calls) := by
  rw [after, airohaPwmApply, h]
  rfl

/-- Channel 1 gets bucket 7. -/
def oneUser : List Call := [askHalf (fun _ => 0) 1 (by decide)]

/-- The flash map fails for channel 0. -/
def stillOne : List Call :=
  askHalf (fun a => if a = .flashSetId then 110 else 0) 0 (by decide) :: oneUser

/-- Channel 2 joins channel 1. -/
def twoUsers : List Call := askHalf (fun _ => 0) 2 (by decide) :: stillOne

/-- Channel 1 is disabled, and the register that maps it cannot be written. -/
def oneLeft : List Call :=
  { io := fun a => if a = .flashOff then 110 else 0, hwpwm := 1, lt := by decide,
    state := { halfDuty with enabled := false } } :: twoUsers

/-- The bucket has one user in the end. -/
theorem holds_of_guarded_oneLeft :
    Holds idleChip oneLeft ∧ ((after idleChip twoUsers).buckets 7).used = 2 ∧
      ((after idleChip oneLeft).buckets 7).used = 1 := by
  have h₁ : OnSeven (after idleChip oneUser) 1 := by
    refine ⟨?_, ?_, ?_, ?_⟩ <;> decide
  have hinit₁ : (after idleChip oneUser).initialized = Function.update (fun _ => false) 1 true :=
    rfl
  have hseven₁ : (after idleChip oneUser).channelBucket 1 = 7 := by decide
  have h0 : (after idleChip oneUser).initialized 0 = false := by rw [hinit₁]; rfl
  obtain ⟨h₂, hinit₂, hseven₂⟩ : OnSeven (after idleChip stillOne) 1 ∧
      (after idleChip stillOne).initialized = (after idleChip oneUser).initialized ∧
      (after idleChip stillOne).channelBucket = (after idleChip oneUser).channelBucket := by
    rw [stillOne, after_askHalf]
    exact h₁.stays (by decide) (fun h => absurd h.1 (by decide)) h0 (by decide)
  have h2 : (after idleChip stillOne).initialized 2 = false := by
    rw [hinit₂, hinit₁]
    rfl
  obtain ⟨h₃, hinit₃, hseven₃⟩ : OnSeven (after idleChip twoUsers) 2 ∧
      (after idleChip twoUsers).initialized =
        Function.update (after idleChip stillOne).initialized 2 true ∧
      (after idleChip twoUsers).channelBucket =
        Function.update (after idleChip stillOne).channelBucket 2 7 := by
    rw [twoUsers, after_askHalf]
    exact h₂.joins (by decide) ⟨rfl, rfl⟩ h2 (by decide) (by decide)
  have hholding : holding (after idleChip twoUsers) 1 = some 7 := by
    rw [holding, hinit₃, hseven₃, hinit₂, hseven₂, hinit₁]
    rw [if_pos (by rfl), Function.update_of_ne (by decide), hseven₁]
  have hguard : Guarded idleChip oneLeft := by
    refine ⟨⟨⟨⟨trivial, ?_⟩, ?_⟩, ?_⟩, nofun⟩
    · intro _ p d _ b _
      exact ⟨fun _ _ _ _ hen => absurd hen (idle_idleChip.disabled _ ‹_›), nofun,
        fun h16 => absurd h16 (by decide)⟩
    · exact guard_onSeven h₁ (by decide) _ _ (by decide) h0
    · exact guard_onSeven h₂ (by decide) _ _ (by decide) h2
  have hlast : after idleChip oneLeft =
      airohaPwmDisable (fun a => if a = .flashOff then 110 else 0) 1 (after idleChip twoUsers) :=
    after_disable idleChip rfl twoUsers
  refine ⟨holds_of_guarded idle_idleChip oneLeft hguard, h₃.used, ?_⟩
  obtain ⟨-, -, -, hused⟩ := disable_spec (fun a => if a = .flashOff then 110 else 0)
    (after idleChip twoUsers) (c := 1) (by decide)
  rw [hlast, hused, used_release, h₃.used, if_pos hholding]
  rfl

/-- The shift register stays busy: the bucket is given back, the channel stays initialized. -/
theorem not_holds_busySipo :
    ¬ Holds idleChip [askHalf (fun a => if a = .sipoPoll then 110 else 0) 16 (by decide)] := by
  intro h
  have h7 := h.2.1 7 (by decide)
  have hused : ((after idleChip
      [askHalf (fun a => if a = .sipoPoll then 110 else 0) 16 (by decide)]).buckets 7).used =
        0 := by
    decide
  rw [hused] at h7
  have hnone := tally_eq_zero_iff.mp (Int.natCast_eq_zero.mp h7.symm) 16 (by decide)
  exact hnone (by decide)

end Airoha.Pwm
