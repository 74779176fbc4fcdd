/-
Airoha.Lib.Bits — fields and single bits of a machine word.

Register code packs fields into a word with `(v << S) & MASK`, takes them
out with `(x & MASK) >> S`, and clears them with `x & ~MASK`. A mask here
is the `n` bits from position `s`, so the laws need two numbers and not a
table of masks: a field read back after it was packed, a field read from a
word where another, disjoint field was packed, and a field read through
`|` and through `& ~MASK`. All of them follow from which bit of the result
is set, which is what the three `getLsbD` lemmas say.

Single bits (`1 << k`) get the same treatment for set, clear and test.
-/
import Mathlib

namespace Airoha.Lib

variable {w : Nat}

/-! ## Masks and fields -/

/-- The `n` bits from bit `s` up: `GENMASK(s + n - 1, s)`. -/
def mask (w s n : Nat) : BitVec w := BitVec.ofNat w (2 ^ n - 1) <<< s

/-- `FIELD_GET`, or `(x & MASK) >> S`. -/
def fieldGet (s n : Nat) (x : BitVec w) : BitVec w := (x &&& mask w s n) >>> s

/-- `FIELD_PREP`, or `(v << S) & MASK`. -/
def fieldPrep (s n : Nat) (v : BitVec w) : BitVec w := (v <<< s) &&& mask w s n

theorem getLsbD_mask (w s n i : Nat) :
    (mask w s n).getLsbD i = (decide (i < w) && decide (s ≤ i) && decide (i < s + n)) := by
  unfold mask
  rw [BitVec.getLsbD_shiftLeft, BitVec.getLsbD_ofNat, Nat.testBit_two_pow_sub_one]
  rcases Nat.lt_or_ge i s with hs | hs
  · simp [hs]
  · rcases Nat.lt_or_ge i w with hw | hw
    · have h1 : i - s < w := by omega
      have h2 : i - s < n ↔ i < s + n := by omega
      simp [hs, hw, h1, h2, Nat.not_lt.mpr hs]
    · simp [Nat.not_lt.mpr hw]

theorem getLsbD_fieldGet (s n : Nat) (x : BitVec w) (i : Nat) :
    (fieldGet s n x).getLsbD i = (decide (i < n) && x.getLsbD (s + i)) := by
  simp only [fieldGet, BitVec.getLsbD_ushiftRight, BitVec.getLsbD_and, getLsbD_mask]
  cases h : x.getLsbD (s + i) with
  | false => simp
  | true =>
    have hlt := BitVec.lt_of_getLsbD h
    simp [hlt]

theorem getLsbD_fieldPrep (s n : Nat) (v : BitVec w) (i : Nat) :
    (fieldPrep s n v).getLsbD i =
      (decide (i < w) && decide (s ≤ i) && decide (i < s + n) && v.getLsbD (i - s)) := by
  simp only [fieldPrep, BitVec.getLsbD_and, BitVec.getLsbD_shiftLeft, getLsbD_mask]
  rcases Nat.lt_or_ge i s with hs | hs
  · simp [hs, Nat.not_le.mpr hs]
  · cases hv : v.getLsbD (i - s) with
    | false => simp
    | true => simp [hs, Nat.not_lt.mpr hs]

@[simp] theorem fieldGet_or (s n : Nat) (x y : BitVec w) :
    fieldGet s n (x ||| y) = fieldGet s n x ||| fieldGet s n y := by
  apply BitVec.eq_of_getLsbD_eq
  intro i _
  simp [getLsbD_fieldGet, Bool.and_or_distrib_left]

/-- A field that was packed is read back, cut to its width. -/
theorem fieldGet_fieldPrep_self {s n : Nat} (h : s + n ≤ w) (v : BitVec w) :
    fieldGet s n (fieldPrep s n v) = v &&& mask w 0 n := by
  apply BitVec.eq_of_getLsbD_eq
  intro i hi
  rw [getLsbD_fieldGet, getLsbD_fieldPrep, BitVec.getLsbD_and, getLsbD_mask]
  rcases Nat.lt_or_ge i n with hn | hn
  · have h1 : s + i < w := by omega
    simp [hn, h1, hi]
  · simp [Nat.not_lt.mpr hn]

/-- A field does not see one packed beside it. -/
theorem fieldGet_fieldPrep_of_disjoint {s n s' n' : Nat} (h : s + n ≤ s' ∨ s' + n' ≤ s)
    (v : BitVec w) : fieldGet s n (fieldPrep s' n' v) = 0#w := by
  apply BitVec.eq_of_getLsbD_eq
  intro i _
  rw [getLsbD_fieldGet, getLsbD_fieldPrep, BitVec.getLsbD_zero]
  rcases Nat.lt_or_ge i n with hn | hn
  · rcases h with h | h
    · have h1 : ¬ s' ≤ s + i := by omega
      simp [h1]
    · have h1 : ¬ s + i < s' + n' := by omega
      simp [h1]
  · simp [Nat.not_lt.mpr hn]

/-- `x & ~MASK` clears the field. -/
theorem fieldGet_clear_self (s n : Nat) (x : BitVec w) :
    fieldGet s n (x &&& ~~~mask w s n) = 0#w := by
  apply BitVec.eq_of_getLsbD_eq
  intro i _
  rw [getLsbD_fieldGet, BitVec.getLsbD_and, BitVec.getLsbD_not, getLsbD_mask, BitVec.getLsbD_zero]
  rcases Nat.lt_or_ge i n with hn | hn
  · rcases Nat.lt_or_ge (s + i) w with hw | hw
    · simp [hn, hw]
    · simp [Nat.not_lt.mpr hw]
  · simp [Nat.not_lt.mpr hn]

/-- `x & ~MASK` leaves every field beside it alone. -/
theorem fieldGet_clear_of_disjoint {s n s' n' : Nat} (h : s + n ≤ s' ∨ s' + n' ≤ s)
    (x : BitVec w) : fieldGet s n (x &&& ~~~mask w s' n') = fieldGet s n x := by
  apply BitVec.eq_of_getLsbD_eq
  intro i _
  rw [getLsbD_fieldGet, getLsbD_fieldGet, BitVec.getLsbD_and, BitVec.getLsbD_not, getLsbD_mask]
  rcases Nat.lt_or_ge i n with hn | hn
  · have h1 : ¬ (s' ≤ s + i ∧ s + i < s' + n') := by omega
    cases hx : x.getLsbD (s + i) with
    | false => simp
    | true =>
      have hw := BitVec.lt_of_getLsbD hx
      have h2 : (decide (s' ≤ s + i) && decide (s + i < s' + n')) = false := by
        simpa using h1
      simp [hw, hn, h2]
  · simp [Nat.not_lt.mpr hn]

/-- A number that fits the field keeps its value. -/
theorem ofNat_and_mask {n k : Nat} (hk : k < 2 ^ n) :
    BitVec.ofNat w k &&& mask w 0 n = BitVec.ofNat w k := by
  apply BitVec.eq_of_getLsbD_eq
  intro i hi
  rw [BitVec.getLsbD_and, BitVec.getLsbD_ofNat, getLsbD_mask]
  rcases Nat.lt_or_ge i n with hn | hn
  · simp [hn, hi]
  · have h1 : k.testBit i = false :=
      Nat.testBit_lt_two_pow (Nat.lt_of_lt_of_le hk (Nat.pow_le_pow_right (by decide) hn))
    simp [h1]

/-- `val << S` needs no mask when the value fits. -/
theorem shiftLeft_eq_fieldPrep {n : Nat} {v : BitVec w} (hv : v &&& mask w 0 n = v) (s : Nat) :
    v <<< s = fieldPrep s n v := by
  apply BitVec.eq_of_getLsbD_eq
  intro i hi
  rw [getLsbD_fieldPrep, BitVec.getLsbD_shiftLeft]
  rcases Nat.lt_or_ge i s with hs | hs
  · simp [hs, Nat.not_le.mpr hs]
  · cases hb : v.getLsbD (i - s) with
    | false => simp
    | true =>
      rw [← hv, BitVec.getLsbD_and, getLsbD_mask] at hb
      simp only [Bool.and_eq_true, decide_eq_true_eq] at hb
      have h1 : i < s + n := by omega
      simp [hi, hs, h1, Nat.not_lt.mpr hs]

/-- A field written over itself. -/
theorem clear_or_fieldPrep_fieldGet (s n : Nat) (x : BitVec w) :
    (x &&& ~~~mask w s n) ||| fieldPrep s n (fieldGet s n x) = x := by
  apply BitVec.eq_of_getLsbD_eq
  intro i hi
  rw [BitVec.getLsbD_or, BitVec.getLsbD_and, BitVec.getLsbD_not, getLsbD_mask, getLsbD_fieldPrep,
    getLsbD_fieldGet]
  by_cases h : s ≤ i ∧ i < s + n
  · have h1 : i - s < n := by omega
    have h2 : s + (i - s) = i := by omega
    simp [hi, h.1, h.2, h1, h2]
  · have hout : (decide (s ≤ i) && decide (i < s + n)) = false := by
      simpa using h
    simp [hi, hout]

/-- A field is less than two to its width. -/
theorem toNat_fieldGet_lt (s n : Nat) (x : BitVec w) : (fieldGet s n x).toNat < 2 ^ n := by
  apply Nat.lt_pow_two_of_testBit
  intro i hi
  have h := getLsbD_fieldGet s n x i
  rw [BitVec.getLsbD] at h
  rw [h]
  simp [Nat.not_lt.mpr hi]

/-- A field is no wider than its width. -/
theorem fieldGet_and_mask_width (s n : Nat) (x : BitVec w) :
    fieldGet s n x &&& mask w 0 n = fieldGet s n x := by
  apply BitVec.eq_of_getLsbD_eq
  intro i hi
  rw [BitVec.getLsbD_and, getLsbD_fieldGet, getLsbD_mask]
  by_cases hn : i < n
  · simp [hn, hi]
  · simp [hn]

/-- A field as a word of its own width. -/
theorem setWidth_fieldGet (s n : Nat) (x : BitVec w) :
    (fieldGet s n x).setWidth n = x.extractLsb' s n := by
  apply BitVec.eq_of_getLsbD_eq
  intro i hi
  rw [BitVec.getLsbD_setWidth, getLsbD_fieldGet, BitVec.getLsbD_extractLsb']
  simp [hi]

/-- Cutting to a width is taking the remainder. -/
theorem toNat_and_mask {n : Nat} (hn : n ≤ w) (x : BitVec w) :
    (x &&& mask w 0 n).toNat = x.toNat % 2 ^ n := by
  have hmask : (mask w 0 n).toNat = 2 ^ n - 1 := by
    have hpos : 0 < 2 ^ n := Nat.two_pow_pos n
    have hle : 2 ^ n ≤ 2 ^ w := Nat.pow_le_pow_right (by decide) hn
    rw [mask, BitVec.shiftLeft_zero, BitVec.toNat_ofNat, Nat.mod_eq_of_lt (by omega)]
  rw [BitVec.toNat_and, hmask, Nat.and_two_pow_sub_one_eq_mod]

/-- A packed field is the value cut to its width, moved up. -/
theorem toNat_fieldPrep {s n : Nat} (h : s + n ≤ w) (x : BitVec w) :
    (fieldPrep s n x).toNat = x.toNat % 2 ^ n * 2 ^ s := by
  have hcut : (x &&& mask w 0 n) &&& mask w 0 n = x &&& mask w 0 n := by
    rw [BitVec.and_assoc, BitVec.and_self]
  have hprep : fieldPrep s n x = (x &&& mask w 0 n) <<< s := by
    rw [shiftLeft_eq_fieldPrep hcut s]
    apply BitVec.eq_of_getLsbD_eq
    intro i hi
    rw [getLsbD_fieldPrep, getLsbD_fieldPrep, BitVec.getLsbD_and, getLsbD_mask]
    by_cases hs : s ≤ i ∧ i < s + n
    · have h1 : i - s < w := by omega
      have h2 : i - s < n := by omega
      simp [h1, h2]
    · have hout : (decide (s ≤ i) && decide (i < s + n)) = false := by
        simpa using hs
      simp [hi, hout]
  have hlt : x.toNat % 2 ^ n * 2 ^ s < 2 ^ w :=
    calc x.toNat % 2 ^ n * 2 ^ s < 2 ^ n * 2 ^ s :=
          Nat.mul_lt_mul_of_pos_right (Nat.mod_lt _ (Nat.two_pow_pos n)) (Nat.two_pow_pos s)
      _ = 2 ^ (s + n) := by rw [Nat.mul_comm, Nat.pow_add]
      _ ≤ 2 ^ w := Nat.pow_le_pow_right (by decide) h
  rw [hprep, BitVec.toNat_shiftLeft, toNat_and_mask (by omega), Nat.shiftLeft_eq,
    Nat.mod_eq_of_lt hlt]

/-! ## Single bits -/

/-- `1 << k` -/
def bit (w k : Nat) : BitVec w := 1#w <<< k

theorem getLsbD_bit (w k i : Nat) : (bit w k).getLsbD i = (decide (i < w) && decide (i = k)) := by
  unfold bit
  rw [← BitVec.twoPow_eq, BitVec.getLsbD_twoPow]
  rcases Nat.lt_or_ge k w with hk | hk
  · rcases eq_or_ne i k with rfl | h
    · simp [hk]
    · simp [h, Ne.symm h]
  · rcases eq_or_ne i k with rfl | h
    · simp [Nat.not_lt.mpr hk]
    · simp [h, Ne.symm h]

theorem getLsbD_or_bit {k : Nat} (hk : k < w) (x : BitVec w) (i : Nat) :
    (x ||| bit w k).getLsbD i = (x.getLsbD i || decide (i = k)) := by
  rw [BitVec.getLsbD_or, getLsbD_bit]
  rcases eq_or_ne i k with rfl | h
  · simp [hk]
  · simp [h]

theorem getLsbD_and_not_bit (k : Nat) (x : BitVec w) (i : Nat) :
    (x &&& ~~~bit w k).getLsbD i = (x.getLsbD i && !decide (i = k)) := by
  rw [BitVec.getLsbD_and, BitVec.getLsbD_not, getLsbD_bit]
  cases hx : x.getLsbD i with
  | false => simp
  | true =>
    have hw := BitVec.lt_of_getLsbD hx
    simp [hw]

/-- `x & (1 << k)` is nonzero exactly when bit `k` is set. -/
theorem and_bit_eq_zero_iff (x : BitVec w) (k : Nat) :
    x &&& bit w k = 0#w ↔ x.getLsbD k = false := by
  constructor
  · intro h
    cases hx : x.getLsbD k with
    | false => rfl
    | true =>
      have hw := BitVec.lt_of_getLsbD hx
      have h1 : (x &&& bit w k).getLsbD k = false := by rw [h]; simp
      rw [BitVec.getLsbD_and, getLsbD_bit, hx] at h1
      simp [hw] at h1
  · intro h
    apply BitVec.eq_of_getLsbD_eq
    intro i _
    rw [BitVec.getLsbD_and, getLsbD_bit, BitVec.getLsbD_zero]
    rcases eq_or_ne i k with rfl | hik
    · simp [h]
    · simp [hik]

/-- `x & (1 << k)` as a truth value is bit `k`. -/
theorem and_bit_bne_zero (x : BitVec w) (k : Nat) : (x &&& bit w k != 0#w) = x.getLsbD k := by
  have h := and_bit_eq_zero_iff x k
  cases hb : x.getLsbD k with
  | false =>
    rw [h.mpr hb]
    rfl
  | true =>
    have hne : x &&& bit w k ≠ 0#w := by
      intro h0
      rw [h.mp h0] at hb
      cases hb
    exact bne_iff_ne.mpr hne

/-- A word that is disjoint from a mask has none of the mask's bits. -/
theorem getLsbD_of_and_eq_zero {x m : BitVec w} (h : x &&& m = 0#w) {i : Nat}
    (hi : m.getLsbD i = true) : x.getLsbD i = false := by
  have hb := congrArg (fun y => y.getLsbD i) h
  simpa [hi] using hb

theorem or_eq_right_iff (x y : BitVec w) : x ||| y = y ↔ x &&& ~~~y = 0#w := by
  constructor
  · intro h
    apply BitVec.eq_of_getLsbD_eq
    intro i hi
    have hb := congrArg (fun z => z.getLsbD i) h
    simp only [BitVec.getLsbD_or] at hb
    rw [BitVec.getLsbD_and, BitVec.getLsbD_not, BitVec.getLsbD_zero, ← hb]
    cases x.getLsbD i <;> simp
  · intro h
    apply BitVec.eq_of_getLsbD_eq
    intro i hi
    have hb := congrArg (fun z => z.getLsbD i) h
    simp only [BitVec.getLsbD_and, BitVec.getLsbD_not, hi, BitVec.getLsbD_zero] at hb
    rw [BitVec.getLsbD_or]
    cases hx : x.getLsbD i with
    | false => rw [Bool.false_or]
    | true => simpa [hx] using hb

/-! ## Pieces of a word -/

theorem append_inj {v w : Nat} {x x' : BitVec v} {y y' : BitVec w} (h : x ++ y = x' ++ y') :
    x = x' ∧ y = y' := by
  constructor
  · apply BitVec.eq_of_getLsbD_eq
    intro i hi
    have hbit := congrArg (fun z => z.getLsbD (w + i)) h
    simpa [BitVec.getLsbD_append] using hbit
  · apply BitVec.eq_of_getLsbD_eq
    intro i hi
    have hbit := congrArg (fun z => z.getLsbD i) h
    simpa [BitVec.getLsbD_append, hi] using hbit

/-- Two pieces that meet are one piece. -/
theorem extract_append_extract (x : BitVec w) (s m n : Nat) :
    x.extractLsb' (s + n) m ++ x.extractLsb' s n = x.extractLsb' s (m + n) := by
  apply BitVec.eq_of_getLsbD_eq
  intro i hi
  rw [BitVec.getLsbD_append, BitVec.getLsbD_extractLsb', BitVec.getLsbD_extractLsb',
    BitVec.getLsbD_extractLsb']
  rcases Nat.lt_or_ge i n with hn | hn
  · simp [hn, hi]
  · have h1 : i - n < m := by omega
    have h2 : s + n + (i - n) = s + i := by omega
    simp [Nat.not_lt.mpr hn, h1, h2, hi]

theorem extract_all (x : BitVec w) : x.extractLsb' 0 w = x := by
  apply BitVec.eq_of_getLsbD_eq
  intro i hi
  simp [hi]

/-- A byte of four. -/
theorem extract_append_four (b : Nat → BitVec 8) {j : Nat} (hj : j < 4) :
    (b 3 ++ b 2 ++ b 1 ++ b 0).extractLsb' (8 * j) 8 = b j := by
  apply BitVec.eq_of_getLsbD_eq
  intro m hm
  rw [BitVec.getLsbD_extractLsb', BitVec.getLsbD_append, BitVec.getLsbD_append,
    BitVec.getLsbD_append]
  interval_cases j <;> grind

/-! ## Halves of a word -/

/-- The lower half. -/
def lo16 (x : BitVec 32) : BitVec 16 := x.extractLsb' 0 16
/-- The upper half. -/
def hi16 (x : BitVec 32) : BitVec 16 := x.extractLsb' 16 16
/-- Another lower half. -/
def putLo16 (x : BitVec 32) (v : BitVec 16) : BitVec 32 := hi16 x ++ v
/-- Another upper half. -/
def putHi16 (x : BitVec 32) (v : BitVec 16) : BitVec 32 := v ++ lo16 x

variable {x y : BitVec 32} {v : BitVec 16}

theorem hi16_append_lo16 (x : BitVec 32) : hi16 x ++ lo16 x = x := by
  have h := extract_append_extract x 0 16 16
  rwa [extract_all] at h

@[simp] theorem hi16_append (a b : BitVec 16) : hi16 (a ++ b) = a :=
  (append_inj (hi16_append_lo16 (a ++ b))).1

@[simp] theorem lo16_append (a b : BitVec 16) : lo16 (a ++ b) = b :=
  (append_inj (hi16_append_lo16 (a ++ b))).2

@[simp] theorem lo16_putLo16 : lo16 (putLo16 x v) = v := lo16_append (hi16 x) v
@[simp] theorem hi16_putLo16 : hi16 (putLo16 x v) = hi16 x := hi16_append (hi16 x) v
@[simp] theorem lo16_putHi16 : lo16 (putHi16 x v) = lo16 x := lo16_append v (lo16 x)
@[simp] theorem hi16_putHi16 : hi16 (putHi16 x v) = v := hi16_append v (lo16 x)

theorem getLsbD_lo16 (x : BitVec 32) (i : Nat) :
    (lo16 x).getLsbD i = (decide (i < 16) && x.getLsbD i) := by
  simp [lo16, BitVec.getLsbD_extractLsb']

theorem getLsbD_hi16 (x : BitVec 32) (i : Nat) :
    (hi16 x).getLsbD i = (decide (i < 16) && x.getLsbD (16 + i)) := by
  rw [hi16, BitVec.getLsbD_extractLsb']

theorem hi16_or_fieldPrep (x v : BitVec 32) :
    hi16 (x ||| fieldPrep 16 16 v) = hi16 x ||| lo16 v := by
  apply BitVec.eq_of_getLsbD_eq
  intro i hi
  have h1 : 16 + i < 32 := by omega
  have h3 : 16 + i - 16 = i := Nat.add_sub_cancel_left 16 i
  simp only [getLsbD_hi16, getLsbD_lo16, BitVec.getLsbD_or, getLsbD_fieldPrep, hi, h1, h3]
  simp

@[simp] theorem lo16_setWidth (v : BitVec 16) : lo16 (v.setWidth 32) = v := by
  apply BitVec.eq_of_getLsbD_eq
  intro i hi
  rw [getLsbD_lo16, BitVec.getLsbD_setWidth]
  have h32 : i < 32 := by omega
  simp [hi, h32]

/-- A field of the lower half is the same in words with the same lower half. -/
theorem fieldGet_of_lo16 {s n : Nat} (hsn : s + n ≤ 16) (h : lo16 x = lo16 y) :
    fieldGet s n x = fieldGet s n y := by
  apply BitVec.eq_of_getLsbD_eq
  intro i _
  rw [getLsbD_fieldGet, getLsbD_fieldGet]
  rcases Nat.lt_or_ge i n with hn | hn
  · have h16 : s + i < 16 := by omega
    have hbit : (lo16 x).getLsbD (s + i) = (lo16 y).getLsbD (s + i) := by rw [h]
    simp only [getLsbD_lo16, h16, decide_true, Bool.true_and] at hbit
    simp [hn, hbit]
  · simp [Nat.not_lt.mpr hn]

theorem eq_iff_halves : x = y ↔ hi16 x = hi16 y ∧ lo16 x = lo16 y := by
  constructor
  · intro h
    rw [h]
    exact ⟨rfl, rfl⟩
  · rintro ⟨h1, h2⟩
    rw [← hi16_append_lo16 x, ← hi16_append_lo16 y, h1, h2]

end Airoha.Lib
