/-
Airoha.Pcs.PrcalRounds — the rounds of the fine tune.

The fine tune restarts its scan of the bits whenever it keeps one, but a
round either leaves, goes to the next bit, or goes on with fewer bits, and
every shift is by a bit below 8. So for every detector it ends. What can go
wrong is the division: a round that starts on the target, with a difference
of 0, and measures any other level divides by that 0. `FineRound` says which
rounds the fine tune comes to and `MinorCall` which minor searches the
calibration makes; both speak of the running code, and `Airoha.Pcs.PrcalPath`
puts what the detector answers in their place.
-/
import Airoha.Pcs.Prcal

namespace Airoha.Pcs.Prcal

open Airoha.Lib Airoha.Lib.Faulting

variable {det : Detector} {target : BitVec 32} {p : Pma}

/-! ## Measuring -/

/-- The level that a measurement of `v` reads. -/
def level (det : Detector) (p : Pma) (v : BitVec 32) : BitVec 32 :=
  (det p.tried.length (v.setWidth 11)).setWidth 32

/-- What a measurement of `v` leaves. -/
def Pma.measured (p : Pma) (v : BitVec 32) : Pma where
  regs := updateBits ssRxFreqDet4 (mask 32 0 3) (fieldPrep 0 3 3#32)
    (updateBits ssRxFreqDet4 (mask 32 0 3) (fieldPrep 0 3 0#32)
      (updateBits pxpCdrPrIdac (mask 32 0 11) (fieldPrep 0 11 v) p.regs))
  tried := p.tried ++ [v.setWidth 11]

@[simp] theorem measured_tried (v : BitVec 32) :
    (p.measured v).tried = p.tried ++ [v.setWidth 11] := rfl

/-- The field is the setting, cut to its width. -/
theorem setWidth_and_mask (v : BitVec 32) : (v &&& mask 32 0 11).setWidth 11 = v.setWidth 11 := by
  apply BitVec.eq_of_getLsbD_eq
  intro i hi
  have h32 : i < 32 := by omega
  simp [getLsbD_mask, hi, h32]

theorem ends_apply {v : BitVec 32} {Q : BitVec 32 → Pma → Prop} {E : Fault → Prop} :
    Ends (an7581PcsApplyCdrPrIdac det v) p Q E ↔ Q (level det p v) (p.measured v) := by
  have hidac : (Regs.field (p.measured v).regs pxpCdrPrIdac 0 11).setWidth 11 = v.setWidth 11 := by
    unfold Pma.measured
    rw [field_updateBits_of_ne (.inl (by decide)), field_updateBits_of_ne (.inl (by decide)),
      field_updateBits_self, fieldGet_fieldPrep_self (by decide), setWidth_and_mask]
  have hstate : p.measured v = ⟨(p.measured v).regs, p.tried ++
      [(Regs.field (p.measured v).regs pxpCdrPrIdac 0 11).setWidth 11]⟩ := by
    rw [hidac]
    rfl
  unfold an7581PcsApplyCdrPrIdac
  rw [ends_act, level, ← hidac, hstate]
  rfl

theorem ends_bitAt {n : Int} (h : 0 ≤ n ∧ n < 64) {Q : BitVec 32 → Pma → Prop} {E : Fault → Prop} :
    Ends (bitAt n) p Q E ↔ Q (bit 32 n.toNat) p := by
  unfold bitAt
  rw [if_pos h]
  exact ends_pure

@[simp] theorem abs_eq_zero_iff (x : BitVec 32) : abs x = 0#32 ↔ x = 0#32 := by
  unfold abs
  split
  · rw [BitVec.neg_eq_zero_iff]
  · rfl

theorem sub_eq_zero_iff (x y : BitVec 32) : x - y = 0#32 ↔ x = y := by
  constructor
  · intro h
    rw [← BitVec.sub_add_cancel x y, h, BitVec.zero_add]
  · rintro rfl
    exact BitVec.sub_self x

/-! ## One round of the fine tune -/

/-- The fine tune with bits below `r` left, about to try bit `b`. -/
def tune (r b : Nat) (idac diff : BitVec 32) : FineTune :=
  ⟨BitVec.ofNat 32 r, idac, diff, (b : Int), false⟩

/-- Past a deadline: out of the loop, or with the bits below the last one. -/
def pastDeadline (r : Nat) (idac diff : BitVec 32) : Nat → FineTune
  | 0 => { tune r 0 idac diff with stopped := true }
  | b + 1 => tune b 0 (idac ||| bit 32 b) diff

/-- Without a deadline: to the next bit, or with the bits below this one. -/
def onward (r b : Nat) (idac new : BitVec 32) : FineTune :=
  if b + 1 = r then tune b 0 (idac ||| bit 32 b) new else tune r (b + 1) idac new

/-- `new` is farther than `diff`, by more than the tolerance. -/
def farther (new diff : BitVec 32) : Prop :=
  diff < new ∧ 10#32 < abs (new - diff) * 100#32 / diff

instance (new diff : BitVec 32) : Decidable (farther new diff) :=
  inferInstanceAs (Decidable (_ ∧ _))

theorem ends_foundDeadline {r b : Nat} {idac diff : BitVec 32} (hb : b < 8)
    {Q : FineTune → Pma → Prop} {E : Fault → Prop} :
    Ends (foundDeadline (tune r b idac diff)) p Q E ↔ Q (pastDeadline r idac diff b) p := by
  unfold foundDeadline tune
  cases b with
  | zero => exact ends_pure
  | succ b =>
    have hbit : ((b + 1 : Nat) : Int) - 1 = (b : Int) := by omega
    have hne : ((b + 1 : Nat) : Int) ≠ 0 := by omega
    simp only [hbit, if_neg hne]
    rw [ends_bind, ends_bitAt ⟨by omega, by omega⟩, ends_pure, BitVec.ofInt_natCast]
    rfl

theorem ofNat_eq_sub_one_iff {r b : Nat} (hb : b < r) (hr : r ≤ 7) :
    BitVec.ofInt 32 (b : Int) = BitVec.ofNat 32 r - 1#32 ↔ b + 1 = r := by
  rw [BitVec.ofInt_natCast, ← BitVec.toNat_inj]
  have h1 : (BitVec.ofNat 32 r - 1#32).toNat = r - 1 := by
    rw [BitVec.toNat_sub_of_le]
    · simp [Nat.mod_eq_of_lt (show r < 4294967296 by omega)]
    · simp only [BitVec.le_def, BitVec.toNat_ofNat]
      omega
  rw [h1, BitVec.toNat_ofNat, Nat.mod_eq_of_lt (by omega)]
  omega

theorem ends_noDeadline {r b : Nat} {idac diff new : BitVec 32} (hb : b < r) (hr : r ≤ 7)
    {Q : FineTune → Pma → Prop} {E : Fault → Prop} :
    Ends (noDeadline (tune r b idac diff) new) p Q E ↔ Q (onward r b idac new) p := by
  unfold noDeadline tune onward
  simp only [ofNat_eq_sub_one_iff hb hr]
  split
  · rw [ends_bind, ends_bitAt ⟨by omega, by omega⟩, ends_pure, BitVec.ofInt_natCast]
    rfl
  · rw [ends_pure]
    rfl

/-- All that a round can do. -/
theorem ends_fineTuneRound {r b : Nat} {idac diff : BitVec 32} (hb : b < r) (hr : r ≤ 7)
    {Q : FineTune → Pma → Prop} {E : Fault → Prop} :
    Ends (fineTuneRound det target (tune r b idac diff)) p Q E ↔
      let tmp := idac ||| bit 32 b
      let new := abs (level det p tmp - target)
      if diff = 0#32 ∧ new ≠ 0#32 then E .divideByZero
      else if farther new diff then Q (pastDeadline r idac diff b) (p.measured tmp)
      else Q (onward r b idac new) (p.measured tmp) := by
  unfold fineTuneRound
  rw [ends_bind]
  simp only [tune]
  rw [ends_bitAt ⟨by omega, by omega⟩, ends_bind, ends_apply, ends_bind, Int.toNat_natCast]
  set tmp := idac ||| bit 32 b with htmp
  set new := abs (level det p tmp - target) with hnew
  have hzero : (0#32 < new) ↔ new ≠ 0#32 := BitVec.pos_iff_ne_zero new
  have hfound := @ends_foundDeadline (p.measured tmp) r b idac diff (by omega) Q E
  have hno := @ends_noDeadline (p.measured tmp) r b idac diff new hb hr Q E
  unfold tune at hfound hno
  unfold overDeadline
  by_cases hlt : diff < new
  · rw [if_pos hlt]
    by_cases h0 : diff = 0#32
    · rw [if_pos h0, if_pos ⟨h0, hzero.mp (h0 ▸ hlt)⟩]
      exact ends_throw
    · rw [if_neg h0, if_neg fun h => h0 h.1, ends_pure]
      by_cases hten : 10#32 < abs (new - diff) * 100#32 / diff
      · rw [if_pos (decide_eq_true hten), if_pos ⟨hlt, hten⟩]
        exact hfound
      · rw [if_neg (by simpa using hten), if_neg fun h => hten h.2]
        exact hno
  · have h0 : ¬ (diff = 0#32 ∧ new ≠ 0#32) := fun h => hlt (h.1 ▸ hzero.mpr h.2)
    rw [if_neg hlt, if_neg h0, if_neg fun h => hlt h.1, ends_pure, if_neg Bool.false_ne_true]
    exact hno

/-! ## The rounds of the fine tune -/

/-- `v` is `major` with bits 0 to 7 added at most. -/
def AddsLowBits (major v : BitVec 32) : Prop := ∃ x : BitVec 8, v = major ||| x.setWidth 32

theorem addsLowBits_self (major : BitVec 32) : AddsLowBits major major := ⟨0#8, by simp⟩

theorem bit_eq_setWidth {b : Nat} (hb : b < 8) : bit 32 b = (bit 8 b).setWidth 32 := by
  apply BitVec.eq_of_getLsbD_eq
  intro i hi
  rw [getLsbD_bit, BitVec.getLsbD_setWidth, getLsbD_bit]
  by_cases h : i = b
  · simp [h, hb, show b < 32 by omega]
  · simp [h]

theorem AddsLowBits.or_bit {major v : BitVec 32} (h : AddsLowBits major v) {b : Nat} (hb : b < 8) :
    AddsLowBits major (v ||| bit 32 b) := by
  obtain ⟨x, rfl⟩ := h
  refine ⟨x ||| bit 8 b, ?_⟩
  rw [bit_eq_setWidth hb, BitVec.setWidth_or, BitVec.or_assoc]

/-- Within the loop, a bit that is left is tried. -/
def InLoop (major : BitVec 32) (s : FineTune) : Prop :=
  ∃ r b idac diff, s = tune r b idac diff ∧ b < r ∧ r ≤ 7 ∧ AddsLowBits major idac

/-- Falls with every round. -/
def FineTune.measure (s : FineTune) : Nat :=
  8 * s.remainingPrcalSearchBits.toNat + 8 - s.prcalSearchBit.toNat

theorem measure_tune {r b : Nat} {idac diff : BitVec 32} (hr : r ≤ 7) :
    (tune r b idac diff).measure = 8 * r + 8 - b := by
  unfold FineTune.measure tune
  simp [Nat.mod_eq_of_lt (show r < 4294967296 by omega)]

theorem again_tune {r b : Nat} {idac diff : BitVec 32} (hr : r ≤ 7) :
    (tune r b idac diff).again = true ↔ r ≠ 0 := by
  unfold FineTune.again tune
  rw [Bool.not_false, Bool.true_and, bne_iff_ne, ne_eq, ← BitVec.toNat_inj, BitVec.toNat_ofNat,
    Nat.mod_eq_of_lt (by omega), BitVec.toNat_ofNat, Nat.zero_mod]

/-- A round that does not divide by 0 goes on with less, or ends with a setting. -/
def RoundDone (major : BitVec 32) (s s' : FineTune) : Prop :=
  if s'.again then InLoop major s' ∧ s'.measure < s.measure else AddsLowBits major s'.cdrPrIdac

section Rounds

variable {major idac diff : BitVec 32} {r b : Nat} (hb : b < r) (hr : r ≤ 7)
include hb hr

theorem roundDone_keep (hlow : AddsLowBits major idac) {c : Nat} (hc : c ≤ b) (new : BitVec 32) :
    RoundDone major (tune r b idac diff) (tune c 0 (idac ||| bit 32 c) new) := by
  have hlow' := hlow.or_bit (show c < 8 by omega)
  unfold RoundDone
  split
  · rename_i hagain
    have h0 := (again_tune (by omega)).mp hagain
    refine ⟨⟨c, 0, _, _, rfl, by omega, by omega, hlow'⟩, ?_⟩
    rw [measure_tune hr, measure_tune (by omega)]
    omega
  · exact hlow'

theorem roundDone_pastDeadline (hlow : AddsLowBits major idac) :
    RoundDone major (tune r b idac diff) (pastDeadline r idac diff b) := by
  cases b with
  | zero => exact hlow
  | succ b => exact roundDone_keep hb hr hlow (Nat.le_succ b) diff

theorem roundDone_onward (hlow : AddsLowBits major idac) (new : BitVec 32) :
    RoundDone major (tune r b idac diff) (onward r b idac new) := by
  unfold onward
  split
  · exact roundDone_keep hb hr hlow (Nat.le_refl b) new
  · rename_i hlast
    unfold RoundDone
    rw [if_pos ((again_tune hr).mpr (by omega)), measure_tune hr, measure_tune hr]
    exact ⟨⟨r, b + 1, idac, new, rfl, by omega, hr, hlow⟩, by omega⟩

end Rounds

/-- The setting that a round measures. -/
def FineTune.tmp (s : FineTune) : BitVec 32 := s.cdrPrIdac ||| bit 32 s.prcalSearchBit.toNat

/-- If the round starts on the target, it measures the target. -/
def OnTarget (det : Detector) (target : BitVec 32) (s : FineTune) (p : Pma) : Prop :=
  s.flOutDiff = 0#32 → level det p s.tmp = target

theorem onTarget_tune_iff {r b : Nat} {idac diff : BitVec 32} :
    OnTarget det target (tune r b idac diff) p ↔
      ¬ (diff = 0#32 ∧ abs (level det p (idac ||| bit 32 b) - target) ≠ 0#32) := by
  rw [not_and, not_not, abs_eq_zero_iff, sub_eq_zero_iff]
  exact Iff.rfl

theorem fineTuneRound_returns {major : BitVec 32} {s : FineTune} (hs : InLoop major s)
    (h : OnTarget det target s p) :
    Returns (fineTuneRound det target s) p fun s' _ => RoundDone major s s' := by
  obtain ⟨r, b, idac, diff, rfl, hb, hr, hlow⟩ := hs
  rw [Returns, ends_fineTuneRound hb hr]
  dsimp only
  rw [if_neg (onTarget_tune_iff.mp h)]
  split
  · exact roundDone_pastDeadline hb hr hlow
  · exact roundDone_onward hb hr hlow _

theorem fineTuneRound_not_returns {major : BitVec 32} {s : FineTune} (hs : InLoop major s)
    (h : ¬ OnTarget det target s p) : ¬ Returns (fineTuneRound det target s) p fun _ _ => True := by
  obtain ⟨r, b, idac, diff, rfl, hb, hr, -⟩ := hs
  rw [Returns, ends_fineTuneRound hb hr]
  dsimp only
  rw [if_pos (not_not.mp fun hno => h (onTarget_tune_iff.mpr hno))]
  exact id

/-! ## The minor search -/

/-- The best bit is one of the eight, or none. -/
def Deadline.InRange (s : Deadline) : Prop := -1 ≤ s.bestPrcalSearchBit ∧ s.bestPrcalSearchBit ≤ 7

theorem deadlineSearch_returns (major : BitVec 32) :
    Returns (deadlineSearch det target major) p fun s _ => s.InRange := by
  unfold deadlineSearch
  rw [returns_bind, Returns, ends_apply]
  refine Ends.foldlM (fun (s : Deadline) _ => s.InRange) ?_
    ⟨Int.le_refl _, by show (-1 : Int) ≤ 7; omega⟩
  intro i hi s q hs
  have hrange : 0 ≤ i ∧ i ≤ 7 := by
    simp only [List.mem_cons, List.not_mem_nil, or_false] at hi
    omega
  unfold deadlineRound
  rw [ends_bind, ends_bitAt ⟨hrange.1, by omega⟩, ends_bind, ends_apply, ends_pure]
  split
  · exact ⟨(by show -1 ≤ i; omega), hrange.2⟩
  · exact hs

theorem setBest_returns (major : BitVec 32) {s : Deadline} (hs : s.InRange) :
    Returns (setBest major s) p fun s' _ =>
      if s'.again then InLoop major s' else AddsLowBits major s'.cdrPrIdac := by
  unfold setBest
  split
  · rename_i h0
    obtain ⟨b, hb⟩ := Int.eq_ofNat_of_zero_le h0
    have hb7 : b ≤ 7 := by
      have := hs.2
      omega
    rw [hb, returns_bind, Returns, ends_bitAt ⟨by omega, by omega⟩, Returns, ends_pure,
      BitVec.ofInt_natCast]
    have hlow := (addsLowBits_self major).or_bit (show b < 8 by omega)
    split
    · rename_i hagain
      have hne : b ≠ 0 := (again_tune hb7).mp hagain
      exact ⟨b, 0, _, _, rfl, by omega, hb7, hlow⟩
    · exact hlow
  · exact ends_pure.mpr (addsLowBits_self major)

/-- The fine tune of `an7581_pcs_rx_prcal_idac_minor` comes to a round with the locals `s`. -/
def FineRound (det : Detector) (target major : BitVec 32) (p : Pma) (s : FineTune) (q : Pma) :
    Prop :=
  ∃ best p₁ s₀ p₂, Gives (deadlineSearch det target major) p best p₁ ∧
    Gives (setBest major best) p₁ s₀ p₂ ∧ s₀.again = true ∧
      Reaches (fineTuneRound det target) FineTune.again s₀ p₂ s q

/-- The minor search returns exactly when every round that starts on the target stays there. -/
theorem minor_returns_iff {major : BitVec 32} {Q : BitVec 32 → Prop}
    (hQ : ∀ v, AddsLowBits major v → Q v) :
    (Returns (an7581PcsRxPrcalIdacMinor det target major) p fun v _ => Q v) ↔
      ∀ s q, FineRound det target major p s q → OnTarget det target s q := by
  have hfine : ∀ {s₀ p₂}, InLoop major s₀ →
      ((Returns (doWhile (fineTuneRound det target) FineTune.again s₀) p₂ fun s _ =>
          Q s.cdrPrIdac) ↔
        ∀ s q, Reaches (fineTuneRound det target) FineTune.again s₀ p₂ s q →
          OnTarget det target s q) := by
    intro s₀ p₂ hs₀
    refine returns_doWhile_iff (fun s _ => InLoop major s) FineTune.measure ?_ ?_ hs₀
    · intro s q hs hok
      refine (fineTuneRound_returns hs hok).mono (fun s' q' h => ?_) fun _ he => he
      unfold RoundDone at h
      split at h
      · rename_i hagain
        rw [if_pos hagain]
        exact h
      · rename_i hagain
        rw [if_neg hagain]
        exact hQ _ h
    · intro s q hs hbad
      exact fineTuneRound_not_returns hs hbad
  have hbest := @deadlineSearch_returns det target p major
  unfold an7581PcsRxPrcalIdacMinor
  rw [returns_bind, hbest.iff_forall]
  constructor
  · rintro h s q ⟨best, p₁, s₀, p₂, hg₁, hg₂, hagain, hreach⟩
    have hs₀ := (setBest_returns major (hbest.of_gives hg₁)).of_gives hg₂
    have hrest := (returns_bind.mp (h best p₁ hg₁)).of_gives hg₂
    rw [if_pos hagain] at hs₀ hrest
    have hloop := returns_bind.mp hrest
    exact (hfine hs₀).mp (hloop.mono (fun _ _ => ends_pure.mp) fun _ he => he) s q hreach
  · intro h best p₁ hg₁
    have hset := setBest_returns (p := p₁) major (hbest.of_gives hg₁)
    rw [returns_bind, hset.iff_forall]
    intro s₀ p₂ hg₂
    have hs₀ := hset.of_gives hg₂
    split
    · rename_i hagain
      rw [if_pos hagain] at hs₀
      refine returns_bind.mpr (Ends.mono ((hfine hs₀).mpr ?_) (fun _ _ h => ends_pure.mpr h)
        fun _ he => he)
      intro s q hreach
      exact h s q ⟨best, p₁, s₀, p₂, hg₁, hg₂, hagain, hreach⟩
    · rename_i hagain
      rw [if_neg hagain] at hs₀
      exact ends_pure.mpr (hQ _ hs₀)

/-- For every detector the minor search ends: with its argument and bits 0 to 7 added at most, or
with a division by 0. -/
theorem minor_ends (major : BitVec 32) : Ends (an7581PcsRxPrcalIdacMinor det target major) p
    (fun v _ => AddsLowBits major v) fun e => e = .divideByZero := by
  have hround : ∀ s q, InLoop major s → Ends (fineTuneRound det target s) q
      (fun s' _ => RoundDone major s s') fun e => e = .divideByZero := by
    intro s q hs
    by_cases hon : OnTarget det target s q
    · exact (fineTuneRound_returns hs hon).mono (fun _ _ h => h) fun _ he => he.elim
    · obtain ⟨r, b, idac, diff, rfl, hb, hr, hlow⟩ := hs
      rw [ends_fineTuneRound hb hr]
      dsimp only
      rw [if_pos (not_not.mp fun hno => hon (onTarget_tune_iff.mpr hno))]
  unfold an7581PcsRxPrcalIdacMinor
  rw [ends_bind]
  refine (deadlineSearch_returns major).mono (fun best p₁ hbest => ?_) fun _ he => he.elim
  rw [ends_bind]
  refine (setBest_returns major hbest).mono (fun s₀ p₂ hs₀ => ?_) fun _ he => he.elim
  split
  · rename_i hagain
    rw [if_pos hagain] at hs₀
    rw [ends_bind]
    refine Ends.mono (ends_doWhile_of_rounds (fun s _ => InLoop major s) FineTune.measure hs₀
      fun s q _ => hround s q)
      (fun _ _ h => ends_pure.mpr h) fun _ he => he
  · rename_i hagain
    rw [if_neg hagain] at hs₀
    exact ends_pure.mpr hs₀

/-- The calibration calls the minor search, with the argument `m`. -/
inductive MinorCall (det : Detector) (target : BitVec 32) (p : Pma) : BitVec 32 → Pma → Prop
  | first {m : BitVec 32} {p₁ : Pma} : Gives (an7581PcsRxPrcalIdacMajor det target) p m p₁ →
      MinorCall det target p m p₁
  | second {m v : BitVec 32} {p₁ p₂ : Pma} :
      Gives (an7581PcsRxPrcalIdacMajor det target) p m p₁ →
      Gives (an7581PcsRxPrcalIdacMinor det target m) p₁ v p₂ →
      100#32 < abs (level det p₂ v - target) → 0#32 < fieldGet 8 3 m →
      MinorCall det target p (fieldPrep 8 3 (fieldGet 8 3 m - 1#32)) (p₂.measured v)

end Airoha.Pcs.Prcal
