/-
Airoha.Clk.Search — what `en75xx_get_vals_for_rate` finds.

The search is followed from the inside out: `baseLoop_spec` for the base
values, `divLoop_spec` for the dividers, `getVals_spec` for the three shapes of
a descriptor. Up to a divider field of 30 bits it finds a selection if there is
one before the index of the base wraps. Above that the loop over the dividers
ends because its variable wraps, which the test after it does not see:
`getVals_of_wide`.
-/
import Airoha.Clk.Driver

namespace Airoha.Clk

open Airoha.Lib

variable {desc : EnClkDesc}

theorem neg_einval : -einval < 0 := by decide

/-! ## The base values -/

theorem baseLoop_spec (div : BitVec 32) (rate : BitVec 64) (values : List (BitVec 32)) : ∀ i : Nat,
    i ≤ 2 ^ 31 →
      (∃ j value, baseLoop div rate i values = ((i + j : Nat) : Int) ∧ i + j < 2 ^ 31 ∧
        values[j]? = some value ∧ rate = (value / div).setWidth 64) ∨
      baseLoop div rate i values = -einval ∧ ∀ j value, i + j < 2 ^ 31 →
        values[j]? = some value → rate ≠ (value / div).setWidth 64 := by
  induction values with
  | nil => exact fun i _ => .inr ⟨rfl, fun j value _ h => by simp at h⟩
  | cons value values ih =>
    intro i hi
    rw [baseLoop]
    by_cases hwrap : i = 2 ^ 31
    · rw [if_pos hwrap]
      exact .inr ⟨rfl, fun j _ hj => by omega⟩
    rw [if_neg hwrap]
    by_cases hrate : rate = (value / div).setWidth 64
    · rw [if_pos hrate]
      exact .inl ⟨0, value, rfl, by omega, rfl, hrate⟩
    rw [if_neg hrate]
    rcases ih (i + 1) (by omega) with ⟨j, value', hloop, hj, hvalue, hrate'⟩ | ⟨hloop, hnone⟩
    · refine .inl ⟨j + 1, value', ?_, by omega, hvalue, hrate'⟩
      rw [hloop]
      congr 1
      omega
    · refine .inr ⟨hloop, fun j value' hj hvalue => ?_⟩
      cases j with
      | zero =>
        obtain rfl : value = value' := Option.some.inj hvalue
        exact hrate
      | succ j => exact hnone j value' (by omega) hvalue

/-- Some base that can be selected, before the index wraps, gives the rate with the divider. -/
def BaseGives (desc : EnClkDesc) (div : BitVec 32) (rate : BitVec 64) (b : Nat) : Prop :=
  b < 2 ^ 31 ∧ ∃ base, Base desc b base ∧ rate = (base / div).setWidth 64

theorem getBaseVal_spec (desc : EnClkDesc) (div : BitVec 32) (rate : BitVec 64) :
    (∃ b : Nat, en75xxGetBaseValForRate desc div rate = (b : Int) ∧ BaseGives desc div rate b) ∨
      en75xxGetBaseValForRate desc div rate = -einval ∧ ∀ b, ¬ BaseGives desc div rate b := by
  unfold en75xxGetBaseValForRate BaseGives Base
  by_cases hbits : desc.baseBits = 0
  · simp only [if_pos hbits]
    by_cases hrate : rate = (desc.baseValue / div).setWidth 64
    · rw [if_neg (not_not.mpr hrate)]
      exact .inl ⟨0, rfl, by decide, desc.baseValue, ⟨rfl, rfl⟩, hrate⟩
    · rw [if_pos hrate]
      refine .inr ⟨rfl, ?_⟩
      rintro b ⟨-, base, ⟨-, rfl⟩, hb⟩
      exact hrate hb
  · simp only [if_neg hbits]
    rcases baseLoop_spec div rate desc.baseValues 0 (by decide) with
      ⟨j, value, hloop, hj, hvalue, hrate⟩ | ⟨hloop, hnone⟩
    · rw [Nat.zero_add] at hloop hj
      exact .inl ⟨j, hloop, hj, value, hvalue, hrate⟩
    · refine .inr ⟨hloop, ?_⟩
      rintro b ⟨hb, base, hbase, hrate⟩
      exact hnone b base (by omega) hbase hrate

/-! ## The dividers -/

theorem divLoop_spec (desc : EnClkDesc) (rate : BitVec 64) (n : Nat) : ∀ (tmp : Nat) (last : Int),
    tmp ≤ 2 ^ 31 →
      (∃ v b : Nat, divLoop desc rate n tmp last = ⟨true, b, v⟩ ∧ tmp ≤ v ∧ v < tmp + n ∧
        v < 2 ^ 31 ∧ BaseGives desc (desc.step v) rate b) ∨
      (∃ b, divLoop desc rate n tmp last = ⟨false, b, min (tmp + n) (2 ^ 31)⟩) ∧
        ∀ v b, tmp ≤ v → v < tmp + n → v < 2 ^ 31 → ¬ BaseGives desc (desc.step v) rate b := by
  induction n with
  | zero =>
    intro tmp last htmp
    refine .inr ⟨⟨last, ?_⟩, fun v b hv hlt => by omega⟩
    rw [divLoop, Nat.add_zero, Nat.min_eq_left htmp]
  | succ n ih =>
    intro tmp last htmp
    rw [divLoop]
    by_cases hwrap : tmp = 2 ^ 31
    · rw [if_pos hwrap]
      refine .inr ⟨⟨last, ?_⟩, fun v b hv hlt hv31 => by omega⟩
      rw [Nat.min_eq_right (by omega), hwrap]
    rw [if_neg hwrap]
    rcases getBaseVal_spec desc (desc.step tmp) rate with ⟨b, hb, hgives⟩ | ⟨hb, hnone⟩
    · rw [hb]
      exact .inl ⟨tmp, b, if_pos (by omega), le_rfl, by omega, by omega, hgives⟩
    · rw [hb]
      simp only [if_neg (not_le.mpr neg_einval)]
      have hsum : tmp + 1 + n = tmp + (n + 1) := by omega
      rcases ih (tmp + 1) (-einval) (by omega) with
        ⟨v, b, hloop, hv, hlt, h31, hgives⟩ | ⟨hloop, hrest⟩
      · exact .inl ⟨v, b, hloop, by omega, by omega, h31, hgives⟩
      · rw [hsum] at hloop hrest
        refine .inr ⟨hloop, fun v b hv hlt h31 => ?_⟩
        rcases Nat.eq_or_lt_of_le hv with rfl | hgt
        · exact hnone b
        · exact hrest v b hgt hlt h31

/-! ## The search -/

/-- The selections of the search: those of a clock with a divider, -/
theorem gives_iff_of_div (h : desc.divBits ≠ 0) {rate : BitVec 64} {b v : Nat} :
    b < 2 ^ 31 ∧ Gives desc rate b v ↔
      v < 2 ^ desc.divBits ∧ BaseGives desc (desc.divOf v) rate b := by
  unfold Gives Divider BaseGives
  simp only [if_neg h]
  constructor
  · rintro ⟨hb, base, div, hbase, ⟨hv, rfl⟩, hrate⟩
    exact ⟨hv, hb, base, hbase, hrate⟩
  · rintro ⟨hv, hb, base, hbase, hrate⟩
    exact ⟨hb, base, _, hbase, ⟨hv, rfl⟩, hrate⟩

/-- and of one without. -/
theorem gives_iff_of_none (h : desc.divBits = 0) {rate : BitVec 64} {b v : Nat} :
    b < 2 ^ 31 ∧ Gives desc rate b v ↔ v = 0 ∧ BaseGives desc 1#32 rate b := by
  unfold Gives Divider BaseGives
  simp only [if_pos h]
  constructor
  · rintro ⟨hb, base, div, hbase, ⟨hv, rfl⟩, hrate⟩
    exact ⟨hv, hb, base, hbase, hrate⟩
  · rintro ⟨hv, hb, base, hbase, hrate⟩
    exact ⟨hb, base, _, hbase, ⟨hv, rfl⟩, hrate⟩

theorem divOf_pos {v : Nat} (h : v ≠ 0) : desc.divOf v = desc.step v := if_neg fun hc => h hc.1

theorem divOf_of_val0 (h : ¬ desc.divVal0 ≠ 0#32) (v : Nat) : desc.divOf v = desc.step v :=
  if_neg fun hc => h hc.2

/-- As an `unsigned long` the `int` still is the power of two up to 2^30, -/
theorem signExtend_pow : ∀ k ≤ 30,
    (BitVec.ofNat 32 (2 ^ k)).signExtend 64 = BitVec.ofNat 64 (2 ^ k) := by
  decide

/-- and once it has wrapped it is none. -/
theorem signExtend_wrapped : ∀ k ≤ 32,
    (BitVec.ofNat 32 (2 ^ 31)).signExtend 64 ≠ BitVec.ofNat 64 (2 ^ k) := by
  decide

/-- A loop that has seen every divider ends in the error, -/
theorem vals_of_all {k : Nat} (hk : k ≤ 30) (b : Int) :
    (DivSearch.mk false b (2 ^ k)).vals k = none :=
  if_pos ⟨rfl, signExtend_pow k hk⟩

/-- and one that ends since the variable wraps does not. -/
theorem vals_of_wrapped {k : Nat} (hk : k ≤ 32) (b : Int) :
    (DivSearch.mk false b (2 ^ 31)).vals k ≠ none := by
  rw [DivSearch.vals, if_neg fun h => signExtend_wrapped k hk h.2]
  exact Option.some_ne_none _

theorem vals_of_found (b v k : Nat) : (DivSearch.mk true b v).vals k =
    some (BitVec.ofInt 32 b, BitVec.ofNat 32 v) :=
  if_neg fun h => by cases h.1

/-- What `en75xx_get_vals_for_rate` finds for a divider field of up to 30 bits: a selection with a
base index below 2^31, if there is one and the clock has a selector. -/
theorem getVals_spec (hbits : desc.divBits ≤ 30) (rate : BitVec 64) :
    (∃ b v : Nat, en75xxGetValsForRate desc rate =
        some (BitVec.ofInt 32 b, BitVec.ofNat 32 v) ∧ (b < 2 ^ 31 ∧ Gives desc rate b v) ∧
        HasSelector desc) ∨
      en75xxGetValsForRate desc rate = none ∧
        ∀ b v, b < 2 ^ 31 ∧ Gives desc rate b v → ¬ HasSelector desc := by
  unfold en75xxGetValsForRate
  by_cases hnone : desc.baseBits = 0 ∧ desc.divBits = 0
  · rw [if_pos hnone]
    exact .inr ⟨rfl, fun b v _ hsel => hsel.elim (fun h => h hnone.1) fun h => h hnone.2⟩
  rw [if_neg hnone]
  have hsel : HasSelector desc := by
    by_cases hb : desc.baseBits = 0
    · exact .inr fun hd => hnone ⟨hb, hd⟩
    · exact .inl hb
  by_cases hdiv : desc.divBits = 0
  · rw [if_pos hdiv]
    rcases getBaseVal_spec desc 1#32 rate with ⟨b, hb, hgives⟩ | ⟨hb, hno⟩
    · refine .inl ⟨b, 0, ?_, (gives_iff_of_none hdiv).mpr ⟨rfl, hgives⟩, hsel⟩
      simp only [hb, if_neg (show ¬ (b : Int) < 0 by omega)]
    · refine .inr ⟨?_, fun b v hgives => absurd ((gives_iff_of_none hdiv).mp hgives).2 (hno b)⟩
      simp only [hb]
      exact if_pos neg_einval
  rw [if_neg hdiv]
  have hpow : 2 ^ desc.divBits ≤ 2 ^ 30 := Nat.pow_le_pow_right (by decide) hbits
  have hpos : 1 ≤ 2 ^ desc.divBits := Nat.one_le_two_pow
  by_cases hval0 : desc.divVal0 ≠ 0#32
  · rw [if_pos hval0]
    have hfirst : desc.divOf 0 = desc.divVal0 := if_pos ⟨rfl, hval0⟩
    rcases getBaseVal_spec desc desc.divVal0 rate with ⟨b, hb, hgives⟩ | ⟨hb, hno⟩
    · refine .inl ⟨b, 0, ?_, (gives_iff_of_div hdiv).mpr ⟨hpos, hfirst ▸ hgives⟩, hsel⟩
      simp only [hb, if_pos (show (0 : Int) ≤ (b : Int) by omega)]
    · simp only [hb, if_neg (not_le.mpr neg_einval)]
      rcases divLoop_spec desc rate (2 ^ desc.divBits - 1) 1 (-einval) (by decide) with
        ⟨v, b, hloop, hv, hlt, h31, hgives⟩ | ⟨⟨b, hloop⟩, hrest⟩
      · rw [hloop, vals_of_found]
        have hne : v ≠ 0 := by omega
        refine .inl ⟨b, v, rfl, (gives_iff_of_div hdiv).mpr ⟨by omega, ?_⟩, hsel⟩
        rw [divOf_pos hne]
        exact hgives
      · rw [hloop, Nat.add_sub_cancel' hpos, Nat.min_eq_left (by omega), vals_of_all hbits]
        refine .inr ⟨rfl, fun b v hgives => ?_⟩
        obtain ⟨hv, hgives⟩ := (gives_iff_of_div hdiv).mp hgives
        rcases Nat.eq_zero_or_pos v with rfl | hvpos
        · rw [hfirst] at hgives
          exact absurd hgives (hno b)
        · rw [divOf_pos (by omega)] at hgives
          exact absurd hgives (hrest v b hvpos (by omega) (by omega))
  · rw [if_neg hval0]
    rcases divLoop_spec desc rate (2 ^ desc.divBits) 0 0 (by decide) with
      ⟨v, b, hloop, hv, hlt, h31, hgives⟩ | ⟨⟨b, hloop⟩, hrest⟩
    · rw [hloop, vals_of_found]
      refine .inl ⟨b, v, rfl, (gives_iff_of_div hdiv).mpr ⟨by omega, ?_⟩, hsel⟩
      rw [divOf_of_val0 hval0]
      exact hgives
    · rw [hloop, Nat.zero_add, Nat.min_eq_left (by omega), vals_of_all hbits]
      refine .inr ⟨rfl, fun b v hgives => ?_⟩
      obtain ⟨hv, hgives⟩ := (gives_iff_of_div hdiv).mp hgives
      rw [divOf_of_val0 hval0] at hgives
      exact absurd hgives (hrest v b (Nat.zero_le v) (by omega) (by omega))

/-- With a divider field of 31 or 32 bits every rate is accepted. -/
theorem getVals_of_wide (hlo : 31 ≤ desc.divBits) (hhi : desc.divBits ≤ 32) (rate : BitVec 64) :
    en75xxGetValsForRate desc rate ≠ none := by
  have hdiv : desc.divBits ≠ 0 := by omega
  have hpow : 2 ^ 31 ≤ 2 ^ desc.divBits := Nat.pow_le_pow_right (by decide) hlo
  have hloop : ∀ tmp last, tmp ≤ 1 → (divLoop desc rate (2 ^ desc.divBits - tmp) tmp last).vals
      desc.divBits ≠ none := by
    intro tmp last htmp
    rcases divLoop_spec desc rate (2 ^ desc.divBits - tmp) tmp last (by omega) with
      ⟨v, b, hloop, -⟩ | ⟨⟨b, hloop⟩, -⟩
    · rw [hloop, vals_of_found]
      exact Option.some_ne_none _
    · rw [hloop, Nat.min_eq_right (by omega)]
      exact vals_of_wrapped hhi b
  unfold en75xxGetValsForRate
  rw [if_neg fun h => hdiv h.2, if_neg hdiv]
  split
  · dsimp only
    split
    · exact Option.some_ne_none _
    · exact hloop 1 _ le_rfl
  · exact hloop 0 0 (Nat.zero_le 1)

end Airoha.Clk
