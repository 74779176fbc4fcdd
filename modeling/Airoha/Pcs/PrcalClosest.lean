/-
Airoha.Pcs.PrcalClosest — when the calibration keeps the closest setting.

The fine tune also moves its reference to a farther setting, if that is
within the tolerance, and compares the next one with that. The detector does
not fall as the setting rises, so all that comes behind such a round is at
least as far, and the second search of the calibration, which stays below
the first, does not make up for it. So the setting loaded is the closest one
measured exactly when the path that `Airoha.Pcs.PrcalPath` computes from the
detector has no such round.
-/
import Airoha.Pcs.PrcalKept

namespace Airoha.Pcs.Prcal

open Airoha.Lib Airoha.Lib.Faulting

variable {f : BitVec 11 → BitVec 16} {target : BitVec 16} {p q : Pma}

/-! ## A farther setting that is kept -/

/-- `f` does not fall. -/
def Rising (f : BitVec 11 → BitVec 16) : Prop := ∀ v w, v ≤ w → f v ≤ f w

/-- The reference is above the target, with a closer setting measured. One measured is closer than
the argument `m`. -/
structure Spoiled (f : BitVec 11 → BitVec 16) (target : BitVec 16) (m v : BitVec 32) (q : Pma) :
    Prop where
  above : target.toNat < (f (v.setWidth 11)).toNat
  closer : ∃ u ∈ q.tried, dist f target u < dist f target (v.setWidth 11)
  start : ∃ u ∈ q.tried, dist f target u < dist f target (m.setWidth 11)

/-- Above the target a higher level is farther. -/
theorem dist_le_of_above {v w : BitVec 11} (hv : target.toNat ≤ (f v).toNat) (h : f v ≤ f w) :
    dist f target v ≤ dist f target w := by
  rw [BitVec.le_def] at h
  unfold dist
  omega

/-- Below the target a higher level is closer. -/
theorem dist_le_of_below {v w : BitVec 11} (hw : (f w).toNat ≤ target.toNat) (h : f v ≤ f w) :
    dist f target w ≤ dist f target v := by
  rw [BitVec.le_def] at h
  unfold dist
  omega

/-- A higher level that is farther is above the target. -/
theorem above_of_dist_lt {v w : BitVec 11} (h : f v ≤ f w)
    (hlt : dist f target v < dist f target w) : target.toNat < (f w).toNat := by
  by_contra hno
  exact absurd (dist_le_of_below (Nat.le_of_not_lt hno) h) (Nat.not_le_of_lt hlt)

/-- A higher level that is closer is behind one below the target. -/
theorem below_of_dist_lt {v w : BitVec 11} (h : f v ≤ f w)
    (hlt : dist f target w < dist f target v) : (f v).toNat < target.toNat := by
  by_contra hno
  exact absurd (dist_le_of_above (Nat.le_of_not_lt hno) h) (Nat.not_le_of_lt hlt)

theorem Spoiled.stay {m v : BitVec 32} (h : Spoiled f target m v q) (x : BitVec 32) :
    Spoiled f target m v (q.measured x) where
  above := h.above
  closer := h.closer.imp fun _ hu => ⟨List.mem_append_left _ hu.1, hu.2⟩
  start := h.start.imp fun _ hu => ⟨List.mem_append_left _ hu.1, hu.2⟩

theorem Spoiled.move (hf : Rising f) {m v x : BitVec 32} (h : Spoiled f target m v q)
    (hle : v.setWidth 11 ≤ x.setWidth 11) : Spoiled f target m x (q.measured x) where
  above := Nat.lt_of_lt_of_le h.above (hf _ _ hle)
  closer := h.closer.imp fun _ hu => ⟨List.mem_append_left _ hu.1,
    Nat.lt_of_lt_of_le hu.2 (dist_le_of_above (Nat.le_of_lt h.above) (hf _ _ hle))⟩
  start := h.start.imp fun _ hu => ⟨List.mem_append_left _ hu.1, hu.2⟩

/-- What the fine tune starts with. -/
def Improved (f : BitVec 11 → BitVec 16) (target : BitVec 16) (m v : BitVec 32) (q : Pma) : Prop :=
  v.setWidth 11 ∈ q.tried ∧ ∃ u ∈ q.tried, dist f target u < dist f target (m.setWidth 11)

theorem not_farther_zero (new : BitVec 32) : ¬ farther new 0#32 := by
  intro h
  have hdiv := h.2
  rw [BitVec.udiv_zero] at hdiv
  exact absurd hdiv (by decide)

/-- A round that keeps a farther setting spoils the reference. -/
theorem round_spoils (hf : Rising f) {m : BitVec 32} {s : FineTune}
    (hs : Tuned f target m (Improved f target m) s q)
    (hbad : ¬ StopsFarther (fun _ => f) (target.setWidth 32) s q) :
    Ends (fineTuneRound (fun _ => f) (target.setWidth 32) s) q
      (fun s' q' => TunedDone f target m (Spoiled f target m) s s' q') fun _ => True := by
  refine tuned_round hs (fun _ => trivial) ?_
  rintro v ⟨hv, hstart⟩ hdiff hle
  unfold StopsFarther at hbad
  rw [Classical.not_imp, hdiff] at hbad
  obtain ⟨hlt, hno⟩ := hbad
  have hdist := (@gap_lt_iff f target v s.tmp).mp hlt
  constructor
  · intro hfar
    refine absurd ⟨?_, hfar⟩ hno
    intro h0
    rw [h0] at hfar
    exact not_farther_zero _ hfar
  · intro _
    exact ⟨above_of_dist_lt (hf _ _ hle) hdist, ⟨_, List.mem_append_left _ hv, hdist⟩,
      hstart.imp fun _ hu => ⟨List.mem_append_left _ hu.1, hu.2⟩⟩

/-- A round of the fine tune comes behind a first measurement below the target. -/
theorem FineRound.improved (hf : Rising f) {m : BitVec 32} (hm : LowClear m) {s : FineTune}
    {q' : Pma}
    (h : FineRound (fun _ => f) (target.setWidth 32) m q s q') :
    (f (m.setWidth 11)).toNat < target.toNat ∧ Tuned f target m (Improved f target m) s q' := by
  obtain ⟨best, p₁, s₀, p₂, hg₁, hg₂, hagain, hreach⟩ := h
  have hbest := (deadlineSearch_kept m).of_gives hg₁
  have hs₀ := (setBest_tuned hm hbest (R := fun v q => v.setWidth 11 ∈ q.tried ∧
    (0 ≤ best.bestPrcalSearchBit → ∃ u ∈ q.tried, dist f target u < dist f target (m.setWidth 11)))
    ⟨hbest.kept.measured, fun h0 => ⟨_, hbest.kept.measured,
      (gap_lt_iff _ _).mp (hbest.closer h0)⟩⟩).of_gives hg₂
  rw [if_pos hagain] at hs₀
  obtain ⟨⟨r, b, idac, rfl, hb, hr, hlow, hclear, hv, hu⟩, h0⟩ := hs₀
  constructor
  · have hle : m.setWidth 11 ≤ (best.ref m).setWidth 11 := by
      rw [Deadline.ref, if_pos h0]
      exact le_or m _
    exact below_of_dist_lt (hf _ _ hle) ((gap_lt_iff _ _).mp (hbest.closer h0))
  · refine hreach.inv ⟨r, b, idac, rfl, hb, hr, hlow, hclear, hv, hu h0⟩ ?_
    intro s q s' q' hs hg ha
    have hround : Ends (fineTuneRound (fun _ => f) (target.setWidth 32) s) q (fun s' q' =>
        TunedDone f target m (Improved f target m) s s' q') fun _ => True := by
      refine tuned_round hs (fun _ => trivial) ?_
      rintro v ⟨hv, hu⟩ - -
      have hu' : ∃ u ∈ (q.measured s.tmp).tried, dist f target u < dist f target (m.setWidth 11) :=
        hu.imp fun _ hu => ⟨List.mem_append_left _ hu.1, hu.2⟩
      exact ⟨fun _ => ⟨List.mem_append_left _ hv, hu'⟩, fun _ => ⟨by simp, hu'⟩⟩
    have hdone := hround.of_gives hg
    unfold TunedDone at hdone
    rw [if_pos ha] at hdone
    exact hdone.1

/-- What a round that keeps a farther setting means for the result. -/
theorem minor_spoiled (hf : Rising f) {m : BitVec 32} (hm : LowClear m) {s : FineTune} {q' : Pma}
    (h : FineRound (fun _ => f) (target.setWidth 32) m q s q')
    (hbad : ¬ StopsFarther (fun _ => f) (target.setWidth 32) s q') :
    Ends (an7581PcsRxPrcalIdacMinor (fun _ => f) (target.setWidth 32) m) q
      (fun v q => Spoiled f target m v q) fun _ => True := by
  have hs := (h.improved hf hm).2
  obtain ⟨best, p₁, s₀, p₂, hg₁, hg₂, hagain, hreach⟩ := h
  have hrest : Ends (doWhile (fineTuneRound (fun _ => f) (target.setWidth 32)) FineTune.again s) q'
      (fun s' q'' => AddsLowBits m s'.cdrPrIdac ∧ Spoiled f target m s'.cdrPrIdac q'')
      fun _ => True := by
    refine ends_doWhile.mpr ((round_spoils hf hs hbad).mono ?_ fun _ he => he)
    intro s' q'' hdone
    unfold TunedDone at hdone
    split
    · rename_i ha
      rw [if_pos ha] at hdone
      refine ends_doWhile_of_rounds (fun s q => Tuned f target m (Spoiled f target m) s q)
        FineTune.measure hdone.1 fun s q _ hs => ?_
      refine tuned_round hs (fun _ => trivial) ?_
      intro v hv _ hle
      exact ⟨fun _ => hv.stay s.tmp, fun _ => hv.move hf hle⟩
    · rename_i ha
      rw [if_neg ha] at hdone
      exact hdone
  unfold an7581PcsRxPrcalIdacMinor
  rw [ends_bind]
  refine Ends.mono hg₁ ?_ fun _ he => he.elim
  rintro _ _ ⟨rfl, rfl⟩
  rw [ends_bind]
  refine Ends.mono hg₂ ?_ fun _ he => he.elim
  rintro _ _ ⟨rfl, rfl⟩
  rw [if_pos hagain, ends_bind]
  exact (hreach.ends.mp hrest).mono (fun _ _ h => ends_pure.mpr h.2) fun _ he => he

/-! ## The calibration -/

/-- The rounds that the calibration comes to all stop at a farther setting. -/
def AllStop (f : BitVec 11 → BitVec 16) (target : BitVec 16) (p : Pma) : Prop :=
  ∀ m q, MinorCall (fun _ => f) (target.setWidth 32) p m q →
    ∀ s q', FineRound (fun _ => f) (target.setWidth 32) m q s q' →
      StopsFarther (fun _ => f) (target.setWidth 32) s q'

theorem calibrate_kept (hall : AllStop f target p) :
    Returns (calibrate (fun _ => f) (target.setWidth 32)) p fun v q => Kept f target p v q := by
  unfold calibrate
  rw [returns_bind]
  refine major_kept.and_gives.mono ?_ fun _ he => he
  rintro m p₁ ⟨⟨hm, k, hk⟩, hg⟩
  have hfirst := minor_kept (hk ▸ lowClear_fieldPrep k) (hall m p₁ (.first hg))
  rw [returns_bind]
  refine hfirst.and_gives.mono ?_ fun _ he => he
  rintro v p₂ ⟨⟨-, hv, hvm⟩, hg'⟩
  have hkept := (hm.join hv hv.measured hvm (Nat.le_refl _)).stay (x := v) (Nat.le_refl _)
  rw [returns_bind, Returns, ends_apply]
  dsimp only
  split
  · rename_i hfar
    unfold calibrateAgain
    dsimp only
    split
    · rename_i hpos
      have hsecond := minor_kept (lowClear_fieldPrep _) (hall _ _ (.second hg hg' hfar hpos))
      refine returns_bind.mpr (hsecond.mono ?_ fun _ he => he)
      rintro w p₃ ⟨-, hw, -⟩
      rw [returns_bind, Returns, ends_apply, Returns, ends_pure]
      change Kept f target p (if gap f target w < gap f target v then w else v) _
      have hwv := @gap_lt_iff f target w v
      split
      · rename_i hlt
        have hle := Nat.le_of_lt (hwv.mp hlt)
        exact (hkept.join hw hw.measured hle (Nat.le_refl _)).stay (Nat.le_refl _)
      · rename_i hlt
        have hle := Nat.le_of_not_lt fun h => hlt (hwv.mpr h)
        exact (hkept.join hw (hw.before _ hkept.measured) (Nat.le_refl _) hle).stay hle
    · exact ends_pure.mpr hkept
  · exact ends_pure.mpr hkept

/-- `v` is measured, and the closest of all that are. -/
def Selected (f : BitVec 11 → BitVec 16) (target : BitVec 16) (v : BitVec 32) (q : Pma) : Prop :=
  v.setWidth 11 ∈ q.tried ∧ ∀ u ∈ q.tried, dist f target (v.setWidth 11) ≤ dist f target u

theorem Spoiled.not_selected {m v : BitVec 32} {q' : Pma} (h : Spoiled f target m v q)
    (hgrow : ∀ u ∈ q.tried, u ∈ q'.tried) : ¬ Selected f target v q' := by
  rintro ⟨-, hall⟩
  obtain ⟨u, hu, hlt⟩ := h.closer
  exact absurd (hall u (hgrow u hu)) (Nat.not_le_of_lt hlt)

theorem toNat_setWidth_of_fits {v : BitVec 32} (h : FitsIdac v) :
    (v.setWidth 11).toNat = v.toNat := by
  rw [BitVec.toNat_setWidth]
  exact Nat.mod_eq_of_lt h

/-- What the second search measures is below the argument of the first. -/
theorem second_le_major {k w : BitVec 32} (hpos : 0#32 < fieldGet 8 3 (fieldPrep 8 3 k))
    (hw : AddsLowBits (fieldPrep 8 3 (fieldGet 8 3 (fieldPrep 8 3 k) - 1#32)) w) :
    w.setWidth 11 ≤ (fieldPrep 8 3 k).setWidth 11 := by
  set g := fieldGet 8 3 (fieldPrep 8 3 k) with hg
  have hg8 : g.toNat = k.toNat % 2 ^ 3 := by
    rw [hg, fieldGet_fieldPrep_self (by decide), toNat_and_mask (by decide)]
  have hg0 : 0 < g.toNat := hpos
  have hsub : (g - 1#32).toNat = g.toNat - 1 := by
    rw [BitVec.toNat_sub_of_le]
    · rfl
    · exact hg0
  have hw11 := toNat_setWidth_of_fits ((fitsIdac_fieldPrep _).or_low hw)
  obtain ⟨x, hx⟩ := hw
  have hlt := x.isLt
  have hxw : (x.setWidth 32).toNat = x.toNat := by
    rw [BitVec.toNat_setWidth]
    omega
  have hprep : (fieldPrep 8 3 (g - 1#32)).toNat = 2 ^ 8 * ((g.toNat - 1) % 2 ^ 3) := by
    rw [toNat_fieldPrep (by decide), hsub, Nat.mul_comm]
  rw [BitVec.le_def, hw11, toNat_setWidth_of_fits (fitsIdac_fieldPrep k), hx, BitVec.toNat_or,
    hprep, ← Nat.two_pow_add_eq_or_of_lt (hxw ▸ hlt), hxw, toNat_fieldPrep (by decide)]
  omega

/-- A calibration that selects the closest setting comes to no round that keeps a farther one. -/
theorem allStop_of_selected (hf : Rising f)
    (h : Returns (calibrate (fun _ => f) (target.setWidth 32)) p fun v q => Selected f target v q) :
    AllStop f target p := by
  intro m q hcall s q' hround
  by_contra hbad
  unfold calibrate at h
  cases hcall with
  | first hm =>
    obtain ⟨hkept, k, rfl⟩ := major_kept.of_gives hm
    have hclear := lowClear_fieldPrep k
    obtain ⟨v, p₂, hv, hrest⟩ := (returns_bind.mp ((returns_bind.mp h).of_gives hm)).gives
    have hspoil := (minor_spoiled hf hclear hround hbad).of_gives hv
    have hbelow := (hround.improved hf hclear).1
    have hmeasured : ∀ u ∈ p₂.tried, u ∈ (p₂.measured v).tried := fun u hu =>
      List.mem_append_left _ hu
    rw [returns_bind, Returns, ends_apply] at hrest
    dsimp only at hrest
    split at hrest
    · unfold calibrateAgain at hrest
      dsimp only at hrest
      split at hrest
      · rename_i hpos
        obtain ⟨w, p₃, hw, hlast⟩ := (returns_bind.mp hrest).gives
        obtain ⟨hlow, hgrow⟩ := (minor_grows (lowClear_fieldPrep _)).of_gives hw
        rw [returns_bind, Returns, ends_apply, Returns, ends_pure] at hlast
        have hgrow' : ∀ u ∈ p₂.tried, u ∈ (p₃.measured w).tried := fun u hu =>
          List.mem_append_left _ (hgrow u (hmeasured u hu))
        split at hlast
        · -- the second search stays below the first measurement, which was not the closest
          have hle := dist_le_of_below (Nat.le_of_lt hbelow) (hf _ _ (second_le_major hpos hlow))
          obtain ⟨u, hu, hlt⟩ := hspoil.start
          exact absurd (hlast.2 u (hgrow' u hu)) (Nat.not_le_of_lt (Nat.lt_of_lt_of_le hlt hle))
        · exact hspoil.not_selected hgrow' hlast
      · exact hspoil.not_selected hmeasured (ends_pure.mp hrest)
    · exact hspoil.not_selected hmeasured (ends_pure.mp hrest)
  | @second m v p₁ p₂ hm hv hfar hpos =>
    obtain ⟨hkept, k, rfl⟩ := major_kept.of_gives hm
    obtain ⟨hvlow, -⟩ := (minor_grows (lowClear_fieldPrep k)).of_gives hv
    have hrest := (returns_bind.mp ((returns_bind.mp h).of_gives hm)).of_gives hv
    rw [returns_bind, Returns, ends_apply] at hrest
    dsimp only at hrest
    rw [if_pos hfar] at hrest
    unfold calibrateAgain at hrest
    dsimp only at hrest
    rw [if_pos hpos] at hrest
    obtain ⟨w, p₃, hw, hlast⟩ := (returns_bind.mp hrest).gives
    have hspoil := (minor_spoiled hf (lowClear_fieldPrep _) hround hbad).of_gives hw
    obtain ⟨hlow, -⟩ := (minor_grows (lowClear_fieldPrep _)).of_gives hw
    have hgrow : ∀ u ∈ p₃.tried, u ∈ (p₃.measured w).tried := fun u hu => List.mem_append_left _ hu
    rw [returns_bind, Returns, ends_apply, Returns, ends_pure] at hlast
    split at hlast
    · exact hspoil.not_selected hgrow hlast
    · -- the result of the first search is above it too, and not closer
      have hvw : w.setWidth 11 ≤ v.setWidth 11 := by
        obtain ⟨x, rfl⟩ := hvlow
        exact BitVec.le_trans (second_le_major hpos hlow) (le_or _ _)
      have hle := dist_le_of_above (Nat.le_of_lt hspoil.above) (hf _ _ hvw)
      obtain ⟨u, hu, hlt⟩ := hspoil.closer
      exact absurd (hlast.2 u (hgrow u hu)) (Nat.not_le_of_lt (Nat.lt_of_lt_of_le hlt hle))

/-- The calibration to `target` loads a setting it measured, the closest of all it measured. -/
def LoadsClosest (f : BitVec 11 → BitVec 16) (target : BitVec 16) (cyclecnt : BitVec 32)
    (r : Regs) : Prop :=
  Returns (prcalTo (fun _ => f) (target.setWidth 32) cyclecnt) ⟨r, []⟩ fun _ p' =>
    ∃ v ∈ p'.tried, Regs.field p'.regs rxFll1 0 11 = v.setWidth 32 ∧
      ∀ u ∈ p'.tried, dist f target v ≤ dist f target u

theorem loadsClosest_iff_selected {cyclecnt : BitVec 32} {r : Regs} :
    LoadsClosest f target cyclecnt r ↔ Returns (calibrate (fun _ => f) (target.setWidth 32))
      ⟨setupCal (target.setWidth 32) cyclecnt r, []⟩ fun v q => Selected f target v q := by
  have hloaded : ∀ (v : BitVec 32) (r : Regs),
      Regs.field (loadBand v r) rxFll1 0 11 = (v.setWidth 11).setWidth 32 := by
    intro v r
    rw [field_loadBand_and]
    apply BitVec.eq_of_getLsbD_eq
    intro i hi
    rw [BitVec.getLsbD_and, getLsbD_mask, BitVec.getLsbD_setWidth, BitVec.getLsbD_setWidth]
    by_cases h : i < 11
    · simp [hi, h]
    · simp [hi, h]
  unfold LoadsClosest prcalTo onRegs
  rw [returns_bind, Returns, ends_act, returns_bind]
  refine ends_congr fun v q => ?_
  rw [Returns, ends_act]
  constructor
  · rintro ⟨w, hw, hfield, hall⟩
    rw [hloaded] at hfield
    have hwv : v.setWidth 11 = w := by
      have hcut : ∀ x : BitVec 11, (x.setWidth 32).setWidth 11 = x := fun x => by simp
      rw [← hcut w, ← hfield, hcut]
    exact ⟨hwv ▸ hw, hwv ▸ hall⟩
  · rintro ⟨hv, hall⟩
    exact ⟨v.setWidth 11, hv, hloaded v q.regs, hall⟩

/-- Every round that measures a farther setting than its reference is past a deadline: the
reference is not on the target, and the new distance is over the tolerance. -/
def DeadlineIfFarther (f : BitVec 11 → BitVec 16) (target : BitVec 16) (rounds : List Round) :
    Prop :=
  ∀ x ∈ rounds, gap f target x.ref.idac < gap f target x.new.idac →
    gap f target x.ref.idac ≠ 0#32 ∧
      farther (gap f target x.new.idac) (gap f target x.ref.idac)

theorem allStop_iff : AllStop f target p ↔ DeadlineIfFarther f target
    (calibrationRounds (fun _ => f) (target.setWidth 32) p.tried.length) := by
  refine minorCall_path (P := fun d e => d < e → d ≠ 0#32 ∧ farther e d) ?_
  intro d e hstop h0
  by_contra hne
  exact (hstop (h0 ▸ (BitVec.pos_iff_ne_zero e).mpr hne)).1 h0

/-- For a detector that does not fall, the calibration loads the closest setting it measured
exactly when on its path every setting that is farther than the reference is past a deadline. -/
theorem loadsClosest_iff (hf : Rising f) (target : BitVec 16) (cyclecnt : BitVec 32) (r : Regs) :
    LoadsClosest f target cyclecnt r ↔
      DeadlineIfFarther f target (calibrationRounds (fun _ => f) (target.setWidth 32) 0) := by
  have hstop := @allStop_iff f target ⟨setupCal (target.setWidth 32) cyclecnt r, []⟩
  rw [List.length_nil] at hstop
  rw [loadsClosest_iff_selected, ← hstop]
  constructor
  · exact allStop_of_selected hf
  · intro hall
    refine (calibrate_kept hall).mono
      (fun v q hkept => ⟨hkept.measured, fun u hu => ?_⟩) fun _ he => he
    exact (hkept.closest u hu).resolve_left List.not_mem_nil

/-- A level that rises by `k` with each setting, from `c`. -/
def slope (k c : Nat) (idac : BitVec 11) : BitVec 16 := BitVec.ofNat 16 (c + k * idac.toNat)

theorem rising_slope {k c : Nat} (h : c + k * 2047 < 65536) : Rising (slope k c) := by
  intro v w hle
  have hvw : k * v.toNat ≤ k * w.toNat := Nat.mul_le_mul_left k (BitVec.le_def.mp hle)
  have hw : k * w.toNat ≤ k * 2047 := Nat.mul_le_mul_left k (Nat.le_of_lt_succ w.isLt)
  rw [BitVec.le_def, slope, slope, BitVec.toNat_ofNat, BitVec.toNat_ofNat,
    Nat.mod_eq_of_lt (by omega), Nat.mod_eq_of_lt (by omega)]
  omega

/-- With 20 for each setting, 0x641 is tried behind 0x640, is farther and past a deadline. -/
theorem calibrationRounds_slope : calibrationRounds (fun _ => slope 20 9003) 0xa000#32 0 =
    [⟨⟨10, 0x640#32⟩, ⟨17, 0x641#32⟩⟩] := by
  have hmajor : majorOf (fun _ => slope 20 9003) 0xa000#32 0 = 0x600#32 := by
    decide +kernel
  have hbit : closestBit (fun _ => slope 20 9003) 0xa000#32 0x600#32 [7, 6, 5, 4, 3, 2, 1, 0] 9
      (none, ⟨8, 0x600#32⟩) = (some 6, ⟨10, 0x640#32⟩) := by decide +kernel
  have hfine : finePath (fun _ => slope 20 9003) 0xa000#32 6 0 0x640#32 ⟨10, 0x640#32⟩ 17 =
      ⟨[⟨⟨10, 0x640#32⟩, ⟨17, 0x641#32⟩⟩], 0x640#32, 18⟩ := by
    rw [finePath_of_lt (by decide), fineRest, if_pos (by decide), if_pos rfl]
    rfl
  have hpath : minorPath (fun _ => slope 20 9003) 0xa000#32 0x600#32 8 =
      ⟨[⟨⟨10, 0x640#32⟩, ⟨17, 0x641#32⟩⟩], 0x640#32, 18⟩ := by
    rw [minorPath, hbit]
    exact hfine
  unfold calibrationRounds
  rw [hmajor]
  dsimp only
  rw [hpath, if_neg (by decide)]

/-- It loads the closest setting that it measured. -/
theorem loadsClosest_slope : LoadsClosest (slope 20 9003) 0xa000#16 20000#32 fun _ => 0#32 := by
  refine (loadsClosest_iff (rising_slope (by decide)) 0xa000#16 20000#32 fun _ => 0#32).mpr ?_
  rw [show BitVec.setWidth 32 0xa000#16 = 0xa000#32 from rfl, calibrationRounds_slope]
  intro x hx
  rw [List.mem_singleton.mp hx]
  decide

theorem not_returns_of_value {m : Cal (BitVec 32)} {p : Pma} {Q : BitVec 32 → Pma → Prop} (n : Nat)
    (test : BitVec 32 → Pma → Bool) (h : (match m.run.run n p with
      | some (.ok v, q) => test v q
      | _ => false) = true) (htest : ∀ v q, test v q = true → ¬ Q v q) : ¬ Returns m p Q := by
  intro hret
  split at h
  · rename_i v q hrun
    have hends := Looping.Ends.of_run (m := m.run) hret hrun
    exact htest v q h hends
  · cases h

/-- It loads 135, which is 93 from the target, where it measured one 65 from it. -/
theorem not_loadsClosest_slope :
    ¬ LoadsClosest (slope 4 40513) 0xa000#16 20000#32 fun _ => 0#32 := by
  rw [loadsClosest_iff_selected]
  refine not_returns_of_value 20 (fun v q => v == 135#32 && q.tried.contains 128#11)
    (by decide) ?_
  intro v q htest hsel
  obtain ⟨hv135, htried⟩ := Bool.and_eq_true_iff.mp htest
  have hle := hsel.2 128#11 (List.contains_iff_mem.mp htried)
  rw [eq_of_beq hv135] at hle
  exact absurd hle (by decide)

end Airoha.Pcs.Prcal
