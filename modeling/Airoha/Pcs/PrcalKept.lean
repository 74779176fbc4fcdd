/-
Airoha.Pcs.PrcalKept — the settings that the searches of the calibration keep.

The detector is a function of the setting. Each search keeps a reference,
the setting its difference belongs to, and `Kept` says that it is the closest
of those measured since some point. The major search and the deadline search
move the reference to closer settings only; the fine tune does so as long as
every round that measures a farther setting takes it for a deadline.
-/
import Airoha.Pcs.PrcalEnds

namespace Airoha.Pcs.Prcal

open Airoha.Lib Airoha.Lib.Faulting

variable {f : BitVec 11 → BitVec 16} {target : BitVec 16} {p q : Pma}

/-! ## Distances -/

/-- How far the level of a setting is from the target. -/
def dist (f : BitVec 11 → BitVec 16) (target : BitVec 16) (v : BitVec 11) : Nat :=
  (((f v).toNat : Int) - target.toNat).natAbs

/-- The distance as the code has it. -/
def gap (f : BitVec 11 → BitVec 16) (target : BitVec 16) (v : BitVec 32) : BitVec 32 :=
  abs ((f (v.setWidth 11)).setWidth 32 - target.setWidth 32)

theorem toNat_abs_sub (x y : BitVec 16) :
    (abs (x.setWidth 32 - y.setWidth 32)).toNat = ((x.toNat : Int) - y.toNat).natAbs := by
  have hx := x.isLt
  have hy := y.isLt
  have hsub : (x.setWidth 32 - y.setWidth 32).toNat = (2 ^ 32 - y.toNat + x.toNat) % 2 ^ 32 := by
    rw [BitVec.toNat_sub, BitVec.toNat_setWidth, BitVec.toNat_setWidth,
      Nat.mod_eq_of_lt (show x.toNat < 2 ^ 32 by omega),
      Nat.mod_eq_of_lt (show y.toNat < 2 ^ 32 by omega)]
  unfold abs
  by_cases hle : y.toNat ≤ x.toNat
  · have hnat : (x.setWidth 32 - y.setWidth 32).toNat = x.toNat - y.toNat := by omega
    have hslt : (x.setWidth 32 - y.setWidth 32).slt 0#32 = false := by
      rw [BitVec.slt_zero_eq_msb, BitVec.msb_eq_false_iff_two_mul_lt]
      omega
    rw [hslt, if_neg Bool.false_ne_true, hnat]
    omega
  · have hnat : (x.setWidth 32 - y.setWidth 32).toNat = 4294967296 - (y.toNat - x.toNat) := by omega
    have hslt : (x.setWidth 32 - y.setWidth 32).slt 0#32 = true := by
      rw [BitVec.slt_zero_eq_msb, BitVec.msb_eq_true_iff_two_mul_ge]
      omega
    rw [hslt, if_pos rfl, BitVec.toNat_neg, hnat]
    omega

theorem toNat_gap (v : BitVec 32) : (gap f target v).toNat = dist f target (v.setWidth 11) :=
  toNat_abs_sub _ _

theorem gap_lt_iff (v w : BitVec 32) : gap f target v < gap f target w ↔
    dist f target (v.setWidth 11) < dist f target (w.setWidth 11) := by
  rw [BitVec.lt_def, toNat_gap, toNat_gap]

/-! ## Settings kept -/

/-- `v` is measured since `p`, and the closest of those measured since. -/
structure Kept (f : BitVec 11 → BitVec 16) (target : BitVec 16) (p : Pma) (v : BitVec 32)
    (q : Pma) : Prop where
  measured : v.setWidth 11 ∈ q.tried
  before : ∀ u ∈ p.tried, u ∈ q.tried
  closest : ∀ u ∈ q.tried, u ∈ p.tried ∨ dist f target (v.setWidth 11) ≤ dist f target u

theorem Kept.start (v : BitVec 32) : Kept f target p v (p.measured v) where
  measured := by simp
  before u hu := by simp [hu]
  closest u hu := by
    rcases List.mem_append.mp hu with hu | hu
    · exact .inl hu
    · rw [List.mem_singleton.mp hu]
      exact .inr (Nat.le_refl _)

/-- A farther setting is measured. -/
theorem Kept.stay {v x : BitVec 32} (h : Kept f target p v q)
    (hx : dist f target (v.setWidth 11) ≤ dist f target (x.setWidth 11)) :
    Kept f target p v (q.measured x) where
  measured := List.mem_append_left _ h.measured
  before u hu := List.mem_append_left _ (h.before u hu)
  closest u hu := by
    rcases List.mem_append.mp hu with hu | hu
    · exact h.closest u hu
    · rw [List.mem_singleton.mp hu]
      exact .inr hx

/-- A closer setting is measured and kept. -/
theorem Kept.move {v x : BitVec 32} (h : Kept f target p v q)
    (hx : dist f target (x.setWidth 11) ≤ dist f target (v.setWidth 11)) :
    Kept f target p x (q.measured x) where
  measured := by simp
  before u hu := List.mem_append_left _ (h.before u hu)
  closest u hu := by
    rcases List.mem_append.mp hu with hu | hu
    · exact (h.closest u hu).imp_right hx.trans
    · rw [List.mem_singleton.mp hu]
      exact .inr (Nat.le_refl _)

/-- Of two searches the closer result is kept. -/
theorem Kept.join {v w x : BitVec 32} {q' : Pma} (h : Kept f target p v q)
    (h' : Kept f target q w q')
    (hx : x.setWidth 11 ∈ q'.tried)
    (hxv : dist f target (x.setWidth 11) ≤ dist f target (v.setWidth 11))
    (hxw : dist f target (x.setWidth 11) ≤ dist f target (w.setWidth 11)) :
    Kept f target p x q' where
  measured := hx
  before u hu := h'.before u (h.before u hu)
  closest u hu := by
    rcases h'.closest u hu with hq | hle
    · exact (h.closest u hq).imp_right hxv.trans
    · exact .inr (hxw.trans hle)

/-! ## The major search -/

/-- The result of the major search. -/
def MajorKept (f : BitVec 11 → BitVec 16) (target : BitVec 16) (p : Pma) (m : BitVec 32)
    (q : Pma) : Prop :=
  Kept f target p m q ∧ ∃ k, m = fieldPrep 8 3 k

theorem ends_majorRound {s : Major} {i : Nat} {Q : Major → Pma → Prop} {E : Fault → Prop} :
    Ends (majorRound (fun _ => f) (target.setWidth 32) s i) p Q E ↔
      let tmp := fieldPrep 8 3 (BitVec.ofNat 32 i)
      Q (if gap f target tmp < s.flOutDiff then ⟨tmp, gap f target tmp⟩ else s)
        (p.measured tmp) := by
  unfold majorRound
  rw [ends_bind, ends_apply, ends_pure]
  exact Iff.rfl

theorem majorRound_kept {s : Major} (i : Nat)
    (h : MajorKept f target p s.cdrPrIdac q ∧ s.flOutDiff = gap f target s.cdrPrIdac) :
    Returns (majorRound (fun _ => f) (target.setWidth 32) s i) q fun s' q' =>
      MajorKept f target p s'.cdrPrIdac q' ∧ s'.flOutDiff = gap f target s'.cdrPrIdac := by
  obtain ⟨⟨hkept, hk⟩, hdiff⟩ := h
  rw [Returns, ends_majorRound, hdiff]
  dsimp only
  split
  · rename_i hlt
    exact ⟨⟨hkept.move (Nat.le_of_lt ((gap_lt_iff _ _).mp hlt)), _, rfl⟩, rfl⟩
  · rename_i hlt
    rw [gap_lt_iff] at hlt
    exact ⟨⟨hkept.stay (Nat.le_of_not_lt hlt), hk⟩, hdiff⟩

/-- `UINT_MAX` is farther than any level. -/
theorem gap_lt_allOnes (v : BitVec 32) : gap f target v < BitVec.allOnes 32 := by
  have h1 := (f (v.setWidth 11)).isLt
  have h2 := target.isLt
  rw [BitVec.lt_def, toNat_gap, BitVec.toNat_allOnes]
  unfold dist
  omega

/-- The first round keeps its setting. -/
theorem majorRound_first (i : Nat) :
    Returns (majorRound (fun _ => f) (target.setWidth 32) ⟨0#32, BitVec.allOnes 32⟩ i) p fun s q =>
      MajorKept f target p s.cdrPrIdac q ∧ s.flOutDiff = gap f target s.cdrPrIdac := by
  rw [Returns, ends_majorRound]
  dsimp only
  rw [if_pos (gap_lt_allOnes _)]
  exact ⟨⟨Kept.start _, BitVec.ofNat 32 i, rfl⟩, rfl⟩

theorem major_kept : Returns (an7581PcsRxPrcalIdacMajor (fun _ => f) (target.setWidth 32)) p
    fun m q => MajorKept f target p m q := by
  unfold an7581PcsRxPrcalIdacMajor
  rw [returns_bind, List.foldlM_cons, returns_bind]
  refine (majorRound_first 0).mono (fun s₀ q₀ h₀ => ?_) fun _ he => he
  refine Ends.mono (Ends.foldlM (fun s q => MajorKept f target p s.cdrPrIdac q ∧
    s.flOutDiff = gap f target s.cdrPrIdac) (fun i _ s q => majorRound_kept i) h₀)
    (fun s q h => ends_pure.mpr h.1) fun _ he => he

/-! ## The deadline search -/

/-- The setting that the deadline search would go on with. -/
def Deadline.ref (m : BitVec 32) (s : Deadline) : BitVec 32 :=
  if 0 ≤ s.bestPrcalSearchBit then m ||| bit 32 s.bestPrcalSearchBit.toNat else m

/-- The reference is the closest so far, and closer than the argument if a bit is added. -/
structure DeadlineKept (f : BitVec 11 → BitVec 16) (target : BitVec 16) (m : BitVec 32) (p : Pma)
    (s : Deadline) (q : Pma) : Prop where
  kept : Kept f target p (s.ref m) q
  diff : s.flOutDiff = gap f target (s.ref m)
  inRange : s.InRange
  start : m.setWidth 11 ∈ q.tried
  closer : 0 ≤ s.bestPrcalSearchBit → gap f target (s.ref m) < gap f target m

theorem ends_deadlineRound {m : BitVec 32} {s : Deadline} {i : Int} (hi : 0 ≤ i ∧ i < 64)
    {Q : Deadline → Pma → Prop} {E : Fault → Prop} :
    Ends (deadlineRound (fun _ => f) (target.setWidth 32) m s i) p Q E ↔
      let tmp := m ||| bit 32 i.toNat
      Q (if gap f target tmp < s.flOutDiff then ⟨i, gap f target tmp⟩ else s) (p.measured tmp) := by
  unfold deadlineRound
  rw [ends_bind, ends_bitAt hi, ends_bind, ends_apply, ends_pure]
  exact Iff.rfl

theorem deadlineRound_kept {m : BitVec 32} {s : Deadline} {i : Int} (hi : 0 ≤ i ∧ i ≤ 7)
    (h : DeadlineKept f target m p s q) :
    Returns (deadlineRound (fun _ => f) (target.setWidth 32) m s i) q fun s' q' =>
      DeadlineKept f target m p s' q' := by
  rw [Returns, ends_deadlineRound ⟨hi.1, by omega⟩, h.diff]
  dsimp only
  split
  · rename_i hlt
    have href : Deadline.ref m ⟨i, gap f target (m ||| bit 32 i.toNat)⟩ = m ||| bit 32 i.toNat :=
      if_pos hi.1
    refine ⟨?_, ?_, ⟨?_, hi.2⟩, List.mem_append_left _ h.start, ?_⟩
    · rw [href]
      exact h.kept.move (Nat.le_of_lt ((gap_lt_iff _ _).mp hlt))
    · rw [href]
    · show -1 ≤ i
      omega
    · intro _
      rw [href]
      by_cases hbest : 0 ≤ s.bestPrcalSearchBit
      · exact BitVec.lt_trans hlt (h.closer hbest)
      · rwa [Deadline.ref, if_neg hbest] at hlt
  · rename_i hlt
    rw [gap_lt_iff] at hlt
    exact ⟨h.kept.stay (Nat.le_of_not_lt hlt), h.diff, h.inRange, List.mem_append_left _ h.start,
      h.closer⟩

theorem deadlineSearch_kept (m : BitVec 32) :
    Returns (deadlineSearch (fun _ => f) (target.setWidth 32) m) p fun s q =>
      DeadlineKept f target m p s q := by
  unfold deadlineSearch
  rw [returns_bind, Returns, ends_apply]
  refine Ends.foldlM (fun s q => DeadlineKept f target m p s q) ?_ ?_
  · intro i hi s q h
    refine deadlineRound_kept ?_ h
    simp only [List.mem_cons, List.not_mem_nil, or_false] at hi
    omega
  · have hnone : ¬ (0 : Int) ≤ -1 := by decide
    have href : ∀ d, Deadline.ref m ⟨-1, d⟩ = m := fun d => if_neg hnone
    refine ⟨?_, ?_, ⟨Int.le_refl _, ?_⟩, by simp, fun h => absurd h hnone⟩
    · rw [href]
      exact Kept.start m
    · rw [href]
      rfl
    · show (-1 : Int) ≤ 7
      decide

/-! ## The fine tune -/

/-- The setting that the difference at bit `b` belongs to. -/
def refAt (idac : BitVec 32) : Nat → BitVec 32
  | 0 => idac
  | b + 1 => idac ||| bit 32 b

/-- The fine tune of `m`, where `R` holds of the reference. The bits that are left are not set. -/
def Tuned (f : BitVec 11 → BitVec 16) (target : BitVec 16) (m : BitVec 32)
    (R : BitVec 32 → Pma → Prop) (s : FineTune) (q : Pma) : Prop :=
  ∃ r b idac, s = tune r b idac (gap f target (refAt idac b)) ∧ b < r ∧ r ≤ 7 ∧
    AddsLowBits m idac ∧ (∀ i < r, idac.getLsbD i = false) ∧ R (refAt idac b) q

/-- What a round leaves of it. -/
def TunedDone (f : BitVec 11 → BitVec 16) (target : BitVec 16) (m : BitVec 32)
    (R : BitVec 32 → Pma → Prop) (s s' : FineTune) (q' : Pma) : Prop :=
  if s'.again then Tuned f target m R s' q' ∧ s'.measure < s.measure
  else AddsLowBits m s'.cdrPrIdac ∧ R s'.cdrPrIdac q'

theorem toNat_or_bit {x : BitVec 11} {c : Nat} (hc : c < 11) (h : x.getLsbD c = false) :
    (x ||| bit 11 c).toNat = x.toNat + 2 ^ c := by
  have hand : x &&& bit 11 c = 0#11 := (and_bit_eq_zero_iff x c).mpr h
  rw [← BitVec.add_eq_or_of_and_eq_zero x _ hand, BitVec.toNat_add_of_and_eq_zero hand, bit,
    BitVec.toNat_shiftLeft, BitVec.toNat_ofNat, Nat.one_mod_two_pow (by decide), Nat.one_shiftLeft,
    Nat.mod_eq_of_lt (Nat.pow_lt_pow_right (by decide) hc)]

theorem setWidth_or_bit (x : BitVec 32) (c : Nat) :
    (x ||| bit 32 c).setWidth 11 = x.setWidth 11 ||| bit 11 c := by
  apply BitVec.eq_of_getLsbD_eq
  intro i hi
  have h32 : i < 32 := by omega
  simp only [BitVec.getLsbD_setWidth, BitVec.getLsbD_or, getLsbD_bit, hi, h32, decide_true,
    Bool.true_and]

theorem le_or (x y : BitVec 32) : x.setWidth 11 ≤ (x ||| y).setWidth 11 := by
  rw [BitVec.setWidth_or, BitVec.le_def, BitVec.toNat_or]
  exact Nat.left_le_or

/-- The settings measured rise. -/
theorem refAt_le {r b : Nat} {idac : BitVec 32} (hb : b < r) (hr : r ≤ 7)
    (hclear : ∀ i < r, idac.getLsbD i = false) :
    (refAt idac b).setWidth 11 ≤ (idac ||| bit 32 b).setWidth 11 := by
  have hclear11 : ∀ i < r, (idac.setWidth 11).getLsbD i = false := by
    intro i hi
    rw [BitVec.getLsbD_setWidth, hclear i hi, Bool.and_false]
  rw [BitVec.le_def, setWidth_or_bit idac, toNat_or_bit (by omega) (hclear11 b hb)]
  cases b with
  | zero => exact Nat.le_add_right _ _
  | succ b =>
    unfold refAt
    rw [setWidth_or_bit idac, toNat_or_bit (by omega) (hclear11 b (by omega)), Nat.pow_succ]
    omega

section Round

variable {m : BitVec 32} {R R' : BitVec 32 → Pma → Prop} {r b : Nat} {idac d : BitVec 32}
  (hb : b < r) (hr : r ≤ 7) (hlow : AddsLowBits m idac) (hclear : ∀ i < r, idac.getLsbD i = false)
include hb hr hlow hclear

theorem tunedDone_keep {c : Nat} (hc : c ≤ b) (hR : R' (idac ||| bit 32 c) q) :
    TunedDone f target m R' (tune r b idac d)
      (tune c 0 (idac ||| bit 32 c) (gap f target (idac ||| bit 32 c))) q := by
  have hdone : RoundDone m (tune r b idac d) (tune c 0 (idac ||| bit 32 c) _) :=
    roundDone_keep hb hr hlow hc (gap f target (idac ||| bit 32 c))
  unfold RoundDone at hdone
  unfold TunedDone
  split
  · rename_i hagain
    rw [if_pos hagain] at hdone
    have h0 := (again_tune (by omega)).mp hagain
    refine ⟨⟨c, 0, _, rfl, by omega, by omega, hlow.or_bit (by omega), fun i hi => ?_, hR⟩, hdone.2⟩
    rw [BitVec.getLsbD_or, hclear i (by omega), getLsbD_bit, decide_eq_false (by omega : ¬ i = c)]
    simp
  · exact ⟨hlow.or_bit (by omega), hR⟩

theorem tunedDone_pastDeadline (hR : R' (refAt idac b) q) :
    TunedDone f target m R' (tune r b idac d)
      (pastDeadline r idac (gap f target (refAt idac b)) b) q := by
  cases b with
  | zero => exact ⟨hlow, hR⟩
  | succ b => exact tunedDone_keep hb hr hlow hclear (Nat.le_succ b) hR

theorem tunedDone_onward (hR : R' (idac ||| bit 32 b) q) :
    TunedDone f target m R' (tune r b idac d)
      (onward r b idac (gap f target (idac ||| bit 32 b))) q := by
  unfold onward
  split
  · exact tunedDone_keep hb hr hlow hclear (Nat.le_refl b) hR
  · rename_i hlast
    unfold TunedDone
    rw [if_pos ((again_tune hr).mpr (by omega)), measure_tune hr, measure_tune hr]
    exact ⟨⟨r, b + 1, idac, rfl, by omega, hr, hlow, hclear, hR⟩, by omega⟩

end Round

/-- A round measures a setting that is not below the reference, and keeps one of the two. -/
theorem tuned_round {m : BitVec 32} {R R' : BitVec 32 → Pma → Prop} {s : FineTune}
    {E : Fault → Prop}
    (hs : Tuned f target m R s q)
    (hzero : ¬ OnTarget (fun _ => f) (target.setWidth 32) s q → E .divideByZero)
    (hstep : ∀ v, R v q → s.flOutDiff = gap f target v → v.setWidth 11 ≤ s.tmp.setWidth 11 →
      (farther (gap f target s.tmp) (gap f target v) → R' v (q.measured s.tmp)) ∧
      (¬ farther (gap f target s.tmp) (gap f target v) → R' s.tmp (q.measured s.tmp))) :
    Ends (fineTuneRound (fun _ => f) (target.setWidth 32) s) q
      (fun s' q' => TunedDone f target m R' s s' q') E := by
  obtain ⟨r, b, idac, rfl, hb, hr, hlow, hclear, hR⟩ := hs
  obtain ⟨hfar, hnear⟩ := hstep _ hR rfl (refAt_le hb hr hclear)
  rw [ends_fineTuneRound hb hr]
  dsimp only
  split
  · rename_i h0
    exact hzero fun hon => onTarget_tune_iff.mp hon h0
  · split
    · rename_i h
      exact tunedDone_pastDeadline hb hr hlow hclear (hfar h)
    · rename_i h
      exact tunedDone_onward hb hr hlow hclear (hnear h)

/-! ## The minor search -/

/-- No bit of the argument that the minor search may add is set. -/
def LowClear (m : BitVec 32) : Prop := ∀ i < 8, m.getLsbD i = false

theorem lowClear_fieldPrep (k : BitVec 32) : LowClear (fieldPrep 8 3 k) := by
  intro i hi
  rw [getLsbD_fieldPrep, decide_eq_false (by omega : ¬ 8 ≤ i)]
  simp

/-- The fine tune begins with the result of the deadline search as its reference. -/
theorem setBest_tuned {m : BitVec 32} (hm : LowClear m) {R : BitVec 32 → Pma → Prop} {s : Deadline}
    (hs : DeadlineKept f target m p s q) (hR : R (s.ref m) q) :
    Returns (setBest m s) q fun s' q' => if s'.again then
        Tuned f target m R s' q' ∧ 0 ≤ s.bestPrcalSearchBit
      else AddsLowBits m s'.cdrPrIdac ∧ R s'.cdrPrIdac q' := by
  have hdiff := hs.diff
  have h7 := hs.inRange.2
  unfold Deadline.ref at hR hdiff
  unfold setBest
  split
  · rename_i h0
    obtain ⟨b, hb⟩ := Int.eq_ofNat_of_zero_le h0
    have hb7 : b ≤ 7 := by omega
    rw [if_pos h0, hb, Int.toNat_natCast] at hR hdiff
    rw [hb, returns_bind, Returns, ends_bitAt ⟨by omega, by omega⟩, Returns, ends_pure,
      BitVec.ofInt_natCast, hdiff]
    have hlow := (addsLowBits_self m).or_bit (show b < 8 by omega)
    split
    · rename_i hagain
      have hne : b ≠ 0 := (again_tune hb7).mp hagain
      refine ⟨⟨b, 0, _, rfl, by omega, hb7, hlow, fun i hi => ?_, hR⟩, by omega⟩
      rw [Int.toNat_natCast, BitVec.getLsbD_or, hm i (by omega), getLsbD_bit,
        decide_eq_false (by omega : ¬ i = b)]
      simp
    · exact ⟨hlow, hR⟩
  · rename_i h0
    rw [if_neg h0] at hR
    exact ends_pure.mpr ⟨addsLowBits_self m, hR⟩

/-- What the deadline search leaves and every round keeps holds of the result. -/
theorem minor_tuned {m : BitVec 32} (hm : LowClear m) {R : BitVec 32 → Pma → Prop}
    {E : Fault → Prop}
    (hstart : ∀ s q, DeadlineKept f target m p s q → R (s.ref m) q)
    (hround : ∀ s q, FineRound (fun _ => f) (target.setWidth 32) m p s q →
      Tuned f target m R s q → Ends (fineTuneRound (fun _ => f) (target.setWidth 32) s) q
        (fun s' q' => TunedDone f target m R s s' q') E) :
    Ends (an7581PcsRxPrcalIdacMinor (fun _ => f) (target.setWidth 32) m) p
      (fun v q => AddsLowBits m v ∧ R v q) E := by
  unfold an7581PcsRxPrcalIdacMinor
  rw [ends_bind]
  refine (deadlineSearch_kept m).and_gives.mono ?_ fun _ he => he.elim
  rintro best p₁ ⟨hbest, hg₁⟩
  rw [ends_bind]
  refine (setBest_tuned hm hbest (hstart best p₁ hbest)).and_gives.mono ?_ fun _ he => he.elim
  rintro s₀ p₂ ⟨hs₀, hg₂⟩
  split
  · rename_i hagain
    rw [if_pos hagain] at hs₀
    rw [ends_bind]
    refine Ends.mono (ends_doWhile_of_rounds (fun s q => Tuned f target m R s q) FineTune.measure
      hs₀.1 fun s q hr hi => ?_) (fun _ _ h => ends_pure.mpr h) fun _ he => he
    exact hround s q ⟨best, p₁, s₀, p₂, hg₁, hg₂, hagain, hr⟩ hi
  · rename_i hagain
    rw [if_neg hagain] at hs₀
    exact ends_pure.mpr hs₀

/-- A round that measures a farther setting finds a deadline. -/
def StopsFarther (det : Detector) (target : BitVec 32) (s : FineTune) (q : Pma) : Prop :=
  s.flOutDiff < abs (level det q s.tmp - target) →
    s.flOutDiff ≠ 0#32 ∧ farther (abs (level det q s.tmp - target)) s.flOutDiff

theorem StopsFarther.onTarget {det : Detector} {t : BitVec 32} {s : FineTune}
    (h : StopsFarther det t s q) : OnTarget det t s q := by
  intro h0
  by_contra hne
  have hpos : s.flOutDiff < abs (level det q s.tmp - t) := by
    rw [h0, BitVec.pos_iff_ne_zero, ne_eq, abs_eq_zero_iff, sub_eq_zero_iff]
    exact hne
  exact (h hpos).1 h0

/-- If no round keeps a farther setting, the minor search keeps the closest one. -/
theorem minor_kept {m : BitVec 32} (hm : LowClear m)
    (hall : ∀ s q, FineRound (fun _ => f) (target.setWidth 32) m p s q →
      StopsFarther (fun _ => f) (target.setWidth 32) s q) :
    Returns (an7581PcsRxPrcalIdacMinor (fun _ => f) (target.setWidth 32) m) p fun v q =>
      AddsLowBits m v ∧ Kept f target p v q ∧
        dist f target (v.setWidth 11) ≤ dist f target (m.setWidth 11) := by
  refine minor_tuned hm (R := fun v q => Kept f target p v q ∧
    dist f target (v.setWidth 11) ≤ dist f target (m.setWidth 11)) ?_ ?_
  · intro s q hs
    refine ⟨hs.kept, ?_⟩
    by_cases hbest : 0 ≤ s.bestPrcalSearchBit
    · exact Nat.le_of_lt ((gap_lt_iff _ _).mp (hs.closer hbest))
    · rw [Deadline.ref, if_neg hbest]
  · intro s q hreach hs
    have hstop := hall s q hreach
    refine tuned_round hs (fun hno => hno hstop.onTarget) ?_
    rintro v ⟨hkept, hle⟩ hdiff -
    constructor
    · intro hfar
      exact ⟨hkept.stay (Nat.le_of_lt ((gap_lt_iff _ _).mp hfar.1)), hle⟩
    · intro hnear
      -- a farther setting would be over the tolerance
      have hcloser : dist f target (s.tmp.setWidth 11) ≤ dist f target (v.setWidth 11) := by
        rw [← Nat.not_lt, ← gap_lt_iff]
        intro hlt
        have hfar := (hstop (hdiff ▸ hlt)).2
        rw [hdiff] at hfar
        exact hnear hfar
      exact ⟨hkept.move hcloser, hcloser.trans hle⟩

/-- The minor search forgets no measurement. -/
theorem minor_grows {m : BitVec 32} (hm : LowClear m) :
    Ends (an7581PcsRxPrcalIdacMinor (fun _ => f) (target.setWidth 32) m) p (fun v q =>
      AddsLowBits m v ∧ ∀ u ∈ p.tried, u ∈ q.tried) fun _ => True := by
  refine minor_tuned hm (R := fun _ q => ∀ u ∈ p.tried, u ∈ q.tried)
    (fun s q hs => hs.kept.before) ?_
  intro s q _ hs
  refine tuned_round hs (fun _ => trivial) ?_
  intro v hv _ _
  exact ⟨fun _ u hu => List.mem_append_left _ (hv u hu), fun _ u hu =>
    List.mem_append_left _ (hv u hu)⟩

end Airoha.Pcs.Prcal
