/-
Airoha.Pwm.Spec — what the register accesses change.

The registers give each bucket a waveform and each channel a bucket. Every
access of the driver is to one of these fields, or to a register that has
none of them, and a chain of accesses (`Step.andThen`) changes at most what
its accesses do: `Keeps` with `Keeps.access` and `Keeps.andThen`.
-/
import Airoha.Pwm.Driver
import Airoha.Lib.SlotSet

namespace Airoha.Pwm

open Airoha.Lib

/-! ## What the registers give -/

/-- The period, and the high and low part of the duty, of a bucket. -/
def wave (r : Regs) (b : Nat) : BitVec 32 × BitVec 32 × BitVec 32 :=
  (r.field (regCycleCfgValue (b / 4)) (8 * (b % 4)) 8,
    r.field (regGpioFlashPrdSet (b / 2)) (16 * (b % 2)) 8,
    r.field (regGpioFlashPrdSet (b / 2)) (8 + 16 * (b % 2)) 8)

/-- The bucket of a channel. -/
def mapId (r : Regs) (c : Nat) : BitVec 32 :=
  r.field (airohaPwmGetFlashMapAddrAndShift c).1 (airohaPwmGetFlashMapAddrAndShift c).2 3

/-- Its enable bit. -/
def mapEn (r : Regs) (c : Nat) : BitVec 32 :=
  r.field (airohaPwmGetFlashMapAddrAndShift c).1 (3 + (airohaPwmGetFlashMapAddrAndShift c).2) 1

/-- The channel is enabled. -/
def Enabled (r : Regs) (c : Nat) : Prop := mapEn r c ≠ 0#32

/-- The waveform of a channel. -/
def output (r : Regs) (c : Nat) : BitVec 32 × BitVec 32 × BitVec 32 := wave r (mapId r c).toNat

/-- The two give the same for these buckets and channels. -/
structure Same (waves chans : Nat → Prop) (r r' : Regs) : Prop where
  wave : ∀ b < 8, waves b → wave r' b = wave r b
  mapId : ∀ c < 33, chans c → mapId r' c = mapId r c
  mapEn : ∀ c < 33, chans c → mapEn r' c = mapEn r c

theorem Same.refl (waves chans : Nat → Prop) (r : Regs) : Same waves chans r r :=
  ⟨fun _ _ _ => rfl, fun _ _ _ => rfl, fun _ _ _ => rfl⟩

theorem Same.trans {waves chans : Nat → Prop} {r r' r'' : Regs} (h : Same waves chans r r')
    (h' : Same waves chans r' r'') : Same waves chans r r'' :=
  ⟨fun b hb hw => (h'.wave b hb hw).trans (h.wave b hb hw),
    fun c hc hw => (h'.mapId c hc hw).trans (h.mapId c hc hw),
    fun c hc hw => (h'.mapEn c hc hw).trans (h.mapEn c hc hw)⟩

theorem Same.mono {waves chans waves' chans' : Nat → Prop} {r r' : Regs}
    (h : Same waves chans r r') (hw : ∀ b, waves' b → waves b) (hc : ∀ c, chans' c → chans c) :
    Same waves' chans' r r' :=
  ⟨fun b hb h' => h.wave b hb (hw b h'), fun c hc' h' => h.mapId c hc' (hc c h'),
    fun c hc' h' => h.mapEn c hc' (hc c h')⟩

/-- The code changes registers only, and none that give the named waveforms and channels. -/
def Keeps (waves chans : Nat → Prop) (f : Step) : Prop :=
  ∀ pc, ∃ r, (f pc).1 = { pc with regmap := r } ∧ Same waves chans pc.regmap r

section Keeps

variable {waves chans : Nat → Prop} {io : Io}

theorem Keeps.access {a : Access} {g : Regs → Regs} (h : ∀ r, Same waves chans r (g r)) :
    Keeps waves chans (access io a g) := by
  intro pc
  unfold Pwm.access
  split
  · exact ⟨g pc.regmap, rfl, h pc.regmap⟩
  · exact ⟨pc.regmap, rfl, Same.refl waves chans pc.regmap⟩

theorem Keeps.andThen {f g : Step} (hf : Keeps waves chans f) (hg : Keeps waves chans g) :
    Keeps waves chans (Step.andThen f g) := by
  intro pc
  obtain ⟨r, hr, hsame⟩ := hf pc
  unfold Step.andThen
  dsimp only
  split
  · exact ⟨r, hr, hsame⟩
  · obtain ⟨r', hr', hsame'⟩ := hg (f pc).1
    rw [hr] at hr' hsame'
    refine ⟨r', ?_, hsame.trans hsame'⟩
    rw [hr]
    exact hr'

end Keeps

/-! ## Where the fields are -/

/-- The flash map registers lie between the duty and the cycle registers. -/
theorem flashMap_addr {c : Nat} (hc : c < 33) :
    0x4c ≤ (airohaPwmGetFlashMapAddrAndShift c).1 ∧
      (airohaPwmGetFlashMapAddrAndShift c).1 < 0x60 := by
  unfold airohaPwmGetFlashMapAddrAndShift regSipoFlashMap regGpioFlashMap numGpio
  split
  · dsimp only
    omega
  · dsimp only
    omega

theorem flashMap_shift (c : Nat) : (airohaPwmGetFlashMapAddrAndShift c).2 ≤ 28 := by
  unfold airohaPwmGetFlashMapAddrAndShift
  split
  · dsimp only
    omega
  · dsimp only
    omega

/-- Two channels do not share a register, or their bits in it lie apart. -/
theorem flashMap_disjoint {c c' : Nat} (h : c' ≠ c) :
    (airohaPwmGetFlashMapAddrAndShift c').1 ≠ (airohaPwmGetFlashMapAddrAndShift c).1 ∨
      (airohaPwmGetFlashMapAddrAndShift c').2 + 4 ≤ (airohaPwmGetFlashMapAddrAndShift c).2 ∨
      (airohaPwmGetFlashMapAddrAndShift c).2 + 4 ≤ (airohaPwmGetFlashMapAddrAndShift c').2 := by
  unfold airohaPwmGetFlashMapAddrAndShift regSipoFlashMap regGpioFlashMap numGpio
  split <;> split <;> dsimp only <;> omega

/-- Writing a register that gives nothing. -/
theorem same_update {r : Regs} {addr : Nat} {x : BitVec 32} (h : addr < 0x3c) :
    Same (fun _ => True) (fun _ => True) r (Function.update r addr x) := by
  have hne : ∀ a, 0x3c ≤ a → a ≠ addr := by
    intro a ha
    omega
  refine ⟨fun b _ _ => ?_, fun c hc _ => ?_, fun c hc _ => ?_⟩
  · have h1 : 0x3c ≤ regCycleCfgValue (b / 4) := by unfold regCycleCfgValue; omega
    have h2 : 0x3c ≤ regGpioFlashPrdSet (b / 2) := by unfold regGpioFlashPrdSet; omega
    unfold wave
    rw [field_update_of_ne (hne _ h1), field_update_of_ne (hne _ h2), field_update_of_ne (hne _ h2)]
  · have h1 := (flashMap_addr hc).1
    exact field_update_of_ne (hne _ (by omega))
  · have h1 := (flashMap_addr hc).1
    exact field_update_of_ne (hne _ (by omega))

/-- Writing a field of the flash map of channel `c`. -/
theorem same_flashMap {r : Regs} {c s n : Nat} {val : BitVec 32} (hc : c < 33) (hn : s + n ≤ 4) :
    Same (fun _ => True) (· ≠ c) r (updateBits (airohaPwmGetFlashMapAddrAndShift c).1
      (mask 32 (s + (airohaPwmGetFlashMapAddrAndShift c).2) n) val r) := by
  have haddr := flashMap_addr hc
  refine ⟨fun b hb _ => ?_, fun c' _ hne => ?_, fun c' _ hne => ?_⟩
  · have h1 : regCycleCfgValue (b / 4) ≠ (airohaPwmGetFlashMapAddrAndShift c).1 := by
      unfold regCycleCfgValue
      omega
    have h2 : regGpioFlashPrdSet (b / 2) ≠ (airohaPwmGetFlashMapAddrAndShift c).1 := by
      unfold regGpioFlashPrdSet
      omega
    unfold wave
    rw [field_updateBits_of_ne (Or.inl h1), field_updateBits_of_ne (Or.inl h2),
      field_updateBits_of_ne (Or.inl h2)]
  · apply field_updateBits_of_ne
    rcases flashMap_disjoint hne with h | h | h
    · exact Or.inl h
    · exact Or.inr (by omega)
    · exact Or.inr (by omega)
  · apply field_updateBits_of_ne
    rcases flashMap_disjoint hne with h | h | h
    · exact Or.inl h
    · exact Or.inr (by omega)
    · exact Or.inr (by omega)

/-- Writing a field of bucket `b`: its period, or a part of its duty. -/
theorem same_bucket {r : Regs} {b addr s n : Nat} {val : BitVec 32} (hb : b < 8)
    (h : addr = regCycleCfgValue (b / 4) ∧ s = 8 * (b % 4) ∧ n = 8 ∨
      addr = regGpioFlashPrdSet (b / 2) ∧ (s = 16 * (b % 2) ∨ s = 8 + 16 * (b % 2)) ∧ n = 8) :
    Same (· ≠ b) (fun _ => True) r (updateBits addr (mask 32 s n) val r) := by
  have haddr : addr < 0x4c ∨ 0x60 ≤ addr := by
    unfold regCycleCfgValue regGpioFlashPrdSet at h
    omega
  refine ⟨fun b' hb' hne => ?_, fun c hc _ => ?_, fun c hc _ => ?_⟩
  · unfold regCycleCfgValue regGpioFlashPrdSet at h
    unfold wave
    rw [field_updateBits_of_ne, field_updateBits_of_ne, field_updateBits_of_ne]
    · unfold regGpioFlashPrdSet
      omega
    · unfold regGpioFlashPrdSet
      omega
    · unfold regCycleCfgValue
      omega
  · have h1 := flashMap_addr hc
    exact field_updateBits_of_ne (Or.inl (by omega))
  · have h1 := flashMap_addr hc
    exact field_updateBits_of_ne (Or.inl (by omega))

/-! ## The functions -/

theorem applyBucketConfig_keeps (io : Io) {b : Nat} (hb : b < 8)
    (dutyTicks periodTicks : BitVec 32) :
    Keeps (· ≠ b) (fun _ => True) (airohaPwmApplyBucketConfig io b dutyTicks periodTicks) := by
  unfold airohaPwmApplyBucketConfig waveGenCycle flashPrdHigh flashPrdLow
  simp only [mask_shiftLeft]
  refine Keeps.andThen (Keeps.access fun r => ?_)
    (Keeps.andThen (Keeps.access fun r => ?_) (Keeps.access fun r => ?_))
  · exact same_bucket hb (Or.inl ⟨rfl, by omega, rfl⟩)
  · exact same_bucket hb (Or.inr ⟨rfl, by omega, rfl⟩)
  · exact same_bucket hb (Or.inr ⟨rfl, by omega, rfl⟩)

theorem sipoInit_keeps (io : Io) :
    Keeps (fun _ => True) (fun _ => True) (airohaPwmSipoInit io) := by
  unfold airohaPwmSipoInit
  refine Keeps.andThen (Keeps.access fun r => same_update (by decide)) ?_
  refine Keeps.andThen (Keeps.access fun r => same_update (by decide)) ?_
  refine Keeps.andThen (Keeps.access fun r => same_update (by decide)) ?_
  refine Keeps.andThen (Keeps.access fun r => Same.refl _ _ r) ?_
  refine Keeps.andThen (Keeps.access fun r => same_update (by decide)) ?_
  refine Keeps.andThen (Keeps.access fun r => Same.refl _ _ r) ?_
  exact Keeps.access fun r => same_update (by decide)

theorem configFlashMap_keeps (io : Io) {c : Nat} (hc : c < 33) (index : Nat) :
    Keeps (fun _ => True) (· ≠ c) (airohaPwmConfigFlashMap io c index) := by
  unfold airohaPwmConfigFlashMap flashSetId flashEn
  simp only [mask_shiftLeft]
  exact Keeps.andThen (Keeps.access fun r => same_flashMap hc (by decide))
    (Keeps.access fun r => same_flashMap hc (by decide))

theorem configFlashMapOff_keeps (io : Io) {c : Nat} (hc : c < 33) :
    Keeps (fun _ => True) (· ≠ c) (airohaPwmConfigFlashMapOff io c) := by
  unfold airohaPwmConfigFlashMapOff flashEn
  simp only [mask_shiftLeft]
  exact Keeps.access fun r => same_flashMap hc (by decide)

end Airoha.Pwm
