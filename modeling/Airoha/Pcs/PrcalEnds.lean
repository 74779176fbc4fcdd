/-
Airoha.Pcs.PrcalEnds — when the receive calibration comes to an end.

For every detector the minor search ends, with its argument and low bits
added or with a division by 0. It returns, and the calibration loads a
setting of the IDAC, exactly when no round of its path has the target as its
reference and another level as what it measures.
-/
import Airoha.Pcs.PrcalPath

namespace Airoha.Pcs.Prcal

open Airoha.Lib Airoha.Lib.Faulting

variable {det : Detector} {target : BitVec 32} {p : Pma}

/-! ## The calibration -/

/-- A setting that fits the IDAC. -/
def FitsIdac (v : BitVec 32) : Prop := v.toNat < 2 ^ 11

theorem fitsIdac_fieldPrep (k : BitVec 32) : FitsIdac (fieldPrep 8 3 k) := by
  rw [FitsIdac, toNat_fieldPrep (by decide)]
  omega

theorem FitsIdac.or_low {major v : BitVec 32} (h : FitsIdac major) (hv : AddsLowBits major v) :
    FitsIdac v := by
  obtain ⟨x, rfl⟩ := hv
  rw [FitsIdac, BitVec.toNat_or]
  refine Nat.or_lt_two_pow h ?_
  rw [BitVec.toNat_setWidth]
  omega

theorem major_returns :
    Returns (an7581PcsRxPrcalIdacMajor det target) p fun m _ => FitsIdac m := by
  unfold an7581PcsRxPrcalIdacMajor
  rw [returns_bind]
  refine Ends.mono (Ends.foldlM (fun s _ => FitsIdac s.cdrPrIdac) ?_ ?_)
    (fun _ _ h => ends_pure.mpr h) fun _ he => he
  · intro i _ s q hs
    unfold majorRound
    rw [ends_bind, ends_apply, ends_pure]
    split
    · exact fitsIdac_fieldPrep _
    · exact hs
  · exact Nat.two_pow_pos 11

/-- The calibration returns exactly when every round that starts on the target stays there. -/
theorem calibrate_returns_iff : (Returns (calibrate det target) p fun v _ => FitsIdac v) ↔
    ∀ m q, MinorCall det target p m q → ∀ s q', FineRound det target m q s q' →
      OnTarget det target s q' := by
  have hmajor := @major_returns det target p
  unfold calibrate
  rw [returns_bind, hmajor.iff_forall]
  constructor
  · intro h m q hcall
    cases hcall with
    | first hm =>
      have hfirst := (returns_bind.mp (h m q hm)).mono (fun _ _ _ => trivial) fun _ he => he
      exact (minor_returns_iff (Q := fun _ => True) fun _ _ => trivial).mp hfirst
    | @second m v p₁ p₂ hm hv hfar hpos =>
      have hrest := (returns_bind.mp (h m p₁ hm)).of_gives hv
      rw [returns_bind, Returns, ends_apply] at hrest
      dsimp only at hrest
      rw [if_pos hfar] at hrest
      unfold calibrateAgain at hrest
      dsimp only at hrest
      rw [if_pos hpos] at hrest
      have hsecond := (returns_bind.mp hrest).mono (fun _ _ _ => trivial) fun _ he => he
      exact (minor_returns_iff (Q := fun _ => True) fun _ _ => trivial).mp hsecond
  · intro h m p₁ hm
    have hfits := hmajor.of_gives hm
    have hfirst := (minor_returns_iff fun _ => hfits.or_low).mpr (h m p₁ (.first hm))
    rw [returns_bind, hfirst.iff_forall]
    intro v p₂ hv
    have hv11 := hfirst.of_gives hv
    rw [returns_bind, Returns, ends_apply]
    dsimp only
    split
    · rename_i hfar
      unfold calibrateAgain
      dsimp only
      split
      · rename_i hpos
        have hcall := MinorCall.second hm hv hfar hpos
        have hsecond := (minor_returns_iff fun _ => (fitsIdac_fieldPrep _).or_low).mpr
          (h _ _ hcall)
        refine returns_bind.mpr (hsecond.mono (fun w p₃ hw => ?_) fun _ he => he)
        rw [returns_bind, Returns, ends_apply, Returns, ends_pure]
        split
        · exact hw
        · exact hv11
      · exact ends_pure.mpr hv11
    · exact ends_pure.mpr hv11

/-- The calibration of `interface` ends, and loads a value that is inside the field. -/
def Programs (det : Detector) (interface : PhyInterface) (p : Pma) : Prop :=
  ∃ target cyclecnt, targetOf interface = some (target, cyclecnt) ∧
    Returns (an7581PcsRxPrcal det interface) p fun _ p' =>
      ∃ v q, Gives (calibrate det target) { p with regs := setupCal target cyclecnt p.regs } v q ∧
        FitsIdac v ∧ Regs.field p'.regs rxFll1 0 11 = v

/-- `LPATH_IDAC` holds the value loaded, cut to its width. -/
theorem field_loadBand_and (v : BitVec 32) (r : Regs) :
    Regs.field (loadBand v r) rxFll1 0 11 = v &&& mask 32 0 11 := by
  have hother : ∀ {addr : Nat} {msk val : BitVec 32} {r : Regs}, rxFll1 ≠ addr →
      Regs.field (updateBits addr msk val r) rxFll1 0 11 = Regs.field r rxFll1 0 11 := by
    intro addr msk val r h
    rw [Regs.field, updateBits, Function.update_of_ne h]
    rfl
  unfold loadBand setBits clearBits
  dsimp only
  rw [hother (by decide), hother (by decide), hother (by decide), hother (by decide),
    field_updateBits_self, fieldGet_fieldPrep_self (by decide)]

theorem field_loadBand {v : BitVec 32} (hv : FitsIdac v) (r : Regs) :
    Regs.field (loadBand v r) rxFll1 0 11 = v := by
  rw [field_loadBand_and, ← BitVec.toNat_inj, toNat_and_mask (by decide)]
  exact Nat.mod_eq_of_lt hv

theorem programs_iff {interface : PhyInterface} {target cyclecnt : BitVec 32}
    (hi : targetOf interface = some (target, cyclecnt)) : Programs det interface p ↔
      Returns (calibrate det target) { p with regs := setupCal target cyclecnt p.regs }
        fun v _ => FitsIdac v := by
  have hreturns : ∀ Q : Unit → Pma → Prop, Returns (an7581PcsRxPrcal det interface) p Q ↔
      Returns (calibrate det target) { p with regs := setupCal target cyclecnt p.regs }
        fun v q => Q () { q with regs := loadBand v q.regs } := by
    intro Q
    unfold an7581PcsRxPrcal
    rw [hi]
    unfold prcalTo onRegs
    rw [returns_bind, Returns, ends_act, returns_bind]
    exact ends_congr fun v q => ends_act
  constructor
  · rintro ⟨target', cyclecnt', hi', hret⟩
    cases hi.symm.trans hi'
    obtain ⟨w, q, hg, v, q', hg', hv, -⟩ := ((hreturns _).mp hret).gives
    obtain ⟨rfl, rfl⟩ := Returns.of_gives hg' hg
    refine Ends.mono hg ?_ fun _ he => he
    rintro _ _ ⟨rfl, rfl⟩
    exact hv
  · intro hcal
    refine ⟨target, cyclecnt, hi, (hreturns _).mpr ?_⟩
    rw [hcal.iff_forall]
    intro v q hg
    have hv := hcal.of_gives hg
    exact ⟨v, q, hg, hv, field_loadBand hv q.regs⟩

/-- Every round whose reference reads the target measures the target. -/
def StaysOnTarget (det : Detector) (target : BitVec 32) (rounds : List Round) : Prop :=
  ∀ x ∈ rounds, x.ref.level det = target → x.new.level det = target

theorem diff_eq_zero_iff (x : Measured) : x.diff det target = 0#32 ↔ x.level det = target := by
  unfold Measured.diff
  rw [abs_eq_zero_iff, sub_eq_zero_iff]

theorem staysOnTarget_iff {rounds : List Round} : StaysOnTarget det target rounds ↔
    AllRounds det target (fun d e => d = 0#32 → e = 0#32) rounds := by
  unfold StaysOnTarget AllRounds
  simp only [diff_eq_zero_iff]

theorem onTarget_iff {s : FineTune} : OnTarget det target s p ↔
    AtRound det target (fun d e => d = 0#32 → e = 0#32) s p := by
  unfold OnTarget AtRound
  dsimp only
  rw [abs_eq_zero_iff, sub_eq_zero_iff]

/-- The minor search ends, with bits 0 to 7 added at most or with a division by 0. It returns, and
the calibration programs a value that fits, exactly when every round of the path that has the
target as its reference measures the target. -/
theorem prcal_total_iff (det : Detector) (p : Pma) :
    (∀ target major,
      Ends (an7581PcsRxPrcalIdacMinor det target major) p (fun v _ => AddsLowBits major v)
        (fun e => e = .divideByZero) ∧
      ((Returns (an7581PcsRxPrcalIdacMinor det target major) p fun v _ =>
          AddsLowBits major v) ↔
        StaysOnTarget det target (minorPath det target major p.tried.length).rounds)) ∧
    ∀ interface, Programs det interface p ↔
      ∃ target cyclecnt, targetOf interface = some (target, cyclecnt) ∧
        StaysOnTarget det target (calibrationRounds det target p.tried.length) := by
  have hkeeps : KeepsTarget fun d e => d = 0#32 → e = 0#32 := fun _ _ h => h
  constructor
  · intro target major
    refine ⟨minor_ends major, ?_⟩
    rw [minor_returns_iff fun _ h => h, staysOnTarget_iff, ← fineRound_path hkeeps]
    simp only [onTarget_iff]
  · intro interface
    have hpath : ∀ {target cyclecnt : BitVec 32},
        targetOf interface = some (target, cyclecnt) → (Programs det interface p ↔
          StaysOnTarget det target (calibrationRounds det target p.tried.length)) := by
      intro target cyclecnt hi
      rw [programs_iff hi, calibrate_returns_iff, staysOnTarget_iff]
      simp only [onTarget_iff]
      exact minorCall_path hkeeps
    constructor
    · intro hprograms
      obtain ⟨target, cyclecnt, hi, -⟩ := id hprograms
      exact ⟨target, cyclecnt, hi, (hpath hi).mp hprograms⟩
    · rintro ⟨target, cyclecnt, hi, hstays⟩
      exact (hpath hi).mpr hstays

/-- A level that rises through the target at the setting 0x180. -/
def through (idac : BitVec 11) : BitVec 16 :=
  if idac < 0x100#11 then 0x8000#16
  else if idac < 0x180#11 then 0x9000#16
  else if idac = 0x180#11 then 0xa000#16
  else 0xb001#16

theorem not_returns_of_fault {m : Cal (BitVec 32)} {Q : BitVec 32 → Pma → Prop} (n : Nat)
    (h : (match m.run.run n p with
      | some (.error .divideByZero, _) => true
      | _ => false) = true) : ¬ Returns m p Q := by
  intro hret
  split at h
  · rename_i s' hrun
    exact Looping.Ends.of_run hret hrun
  · cases h

/-- The fine tune starts at 0x180, which is on the target, and divides by 0 at 0x181. -/
theorem not_returns_through :
    ¬ (Returns (an7581PcsRxPrcalIdacMinor (fun _ => through) 0xa000#32 0x100#32)
        ⟨fun _ => 0#32, []⟩ fun v _ => AddsLowBits 0x100#32 v) ∧
    ¬ Programs (fun _ => through) .base2500x ⟨fun _ => 0#32, []⟩ := by
  constructor
  · exact not_returns_of_fault 2 (by decide)
  · intro h
    exact not_returns_of_fault 2 (by decide +kernel) ((programs_iff rfl).mp h)

end Airoha.Pcs.Prcal
