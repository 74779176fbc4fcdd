/-
Airoha.Qdma.BucketShift — the shift for a bucket size.

Translates `biSearchGetBucketSizeShift` of `arht_qdma.c`, which rounds a bucket
size up to the unit times a power of two by bisection. The bounds are unsigned
and `(lo + hi) / 2` is taken of a sum that may wrap: then the middle is below
`lo`. All callers search 0 to 17.

C does not say what a shift by 32 or more is. `Shl` is a shift of which it is
known that it is the usual one below 32 and that it leaves 0 as it is; the
results are for every such shift.
-/
import Airoha.Lib.Bisect
import Airoha.Lib.Bits

namespace Airoha.Qdma.BucketShift

open Airoha.Lib

/-! ## The search -/

/-- The shift `<<` of the processor. -/
structure Shl where
  shl : BitVec 32 → BitVec 32 → BitVec 32
  of_lt : ∀ x {k : BitVec 32}, k.toNat < 32 → shl x k = x <<< k.toNat
  zero : ∀ k, shl 0#32 k = 0#32

/-- `-EINVAL` -/
def einval : BitVec 32 := -22#32

variable (c : Shl)

/-- How a call goes on: it returns, or it returns what the call with other bounds does. -/
inductive Next where
  | ret (r : BitVec 32)
  | call (lo hi : BitVec 32)

/-- The body of `biSearchGetBucketSizeShift`. -/
def body (value lo hi unit : BitVec 32) : Next :=
  if lo > hi then .ret einval
  else if value > 0#32 ∧ value < unit then .ret 0#32
  else
    let mid := (lo + hi) / 2#32
    if c.shl unit mid = value then .ret mid
    else if c.shl unit lo = value then .ret lo
    else if c.shl unit hi = value then .ret hi
    else if c.shl unit mid > value then
      if mid - lo ≤ 1#32 then .ret mid else .call lo mid
    else
      if hi - mid ≤ 1#32 then .ret hi else .call mid hi

/-- `biSearchGetBucketSizeShift`, cut off after a number of calls. -/
def biSearchGetBucketSizeShift : Nat → BitVec 32 → BitVec 32 → BitVec 32 → BitVec 32 →
    Option (BitVec 32)
  | 0, _, _, _, _ => none
  | n + 1, value, lo, hi, unit =>
    match body c value lo hi unit with
    | .ret r => some r
    | .call lo hi => biSearchGetBucketSizeShift n value lo hi unit

/-- The call returns `r`. -/
def Returns (value lo hi unit r : BitVec 32) : Prop :=
  ∃ n, biSearchGetBucketSizeShift c n value lo hi unit = some r

/-- The call comes back. -/
def Terminates (value lo hi unit : BitVec 32) : Prop := ∃ r, Returns c value lo hi unit r

/-- The bucket of shift `s` has room for `value`. -/
def Fits (value unit : BitVec 32) (s : Nat) : Prop := value ≤ unit <<< s

/-- A unit and a value, and no bucket size up to `hi` that wraps. -/
structure InRange (value hi unit : BitVec 32) : Prop where
  unit_pos : 1 ≤ unit.toNat
  value_pos : 1 ≤ value.toNat
  top : unit.toNat * 2 ^ hi.toNat < 2 ^ 32

/-- What is asked of a search between `lo` and `hi`. -/
structure Searches (lo hi : BitVec 32) : Prop where
  terminates : lo ≤ hi → ∀ value unit, Terminates c value lo hi unit
  least : lo = 0#32 → ∀ value unit, InRange value hi unit →
    ∃ s, Returns c value lo hi unit s ∧ LeastOr (Fits value unit) hi.toNat s.toNat
  monotone : lo = 0#32 → ∀ value value' unit s s', InRange value hi unit →
    InRange value' hi unit → value ≤ value' → Returns c value lo hi unit s →
      Returns c value' lo hi unit s' → s ≤ s'
  enough : lo = 0#32 → ∀ value unit s, InRange value hi unit → value ≤ unit <<< hi.toNat →
    Returns c value lo hi unit s → value ≤ unit <<< s.toNat

/-! ## Calls -/

variable {c} {value unit : BitVec 32}

theorem returns_iff {lo hi r : BitVec 32} : Returns c value lo hi unit r ↔
    match body c value lo hi unit with
    | .ret r' => r' = r
    | .call lo hi => Returns c value lo hi unit r := by
  constructor
  · rintro ⟨n, h⟩
    cases n with
    | zero => exact absurd h (by simp [biSearchGetBucketSizeShift])
    | succ n =>
      rw [biSearchGetBucketSizeShift] at h
      cases hbody : body c value lo hi unit with
      | ret r' =>
        rw [hbody] at h
        exact Option.some.inj h
      | call lo hi =>
        rw [hbody] at h
        exact ⟨n, h⟩
  · intro h
    cases hbody : body c value lo hi unit with
    | ret r' =>
      rw [hbody] at h
      exact ⟨1, by rw [biSearchGetBucketSizeShift, hbody, ← h]⟩
    | call lo hi =>
      rw [hbody] at h
      obtain ⟨n, hn⟩ := h
      exact ⟨n + 1, by rw [biSearchGetBucketSizeShift, hbody, ← hn]⟩

theorem returns_of_ret {lo hi r : BitVec 32} (h : body c value lo hi unit = .ret r) :
    Returns c value lo hi unit r := by
  rw [returns_iff, h]

theorem terminates_of_call {lo hi lo' hi' : BitVec 32}
    (h : body c value lo hi unit = .call lo' hi') (hends : Terminates c value lo' hi' unit) :
    Terminates c value lo hi unit := by
  obtain ⟨r, hr⟩ := hends
  refine ⟨r, ?_⟩
  rw [returns_iff, h]
  exact hr

theorem toNat_mid {lo hi : BitVec 32} (h : lo.toNat + hi.toNat < 2 ^ 32) :
    ((lo + hi) / 2#32).toNat = (lo.toNat + hi.toNat) / 2 := by
  rw [BitVec.toNat_udiv, BitVec.toNat_add, Nat.mod_eq_of_lt h]
  rfl

theorem sub_le_one_iff {x y : BitVec 32} (h : y.toNat ≤ x.toNat) :
    x - y ≤ 1#32 ↔ x.toNat - y.toNat ≤ 1 := by
  rw [BitVec.le_def, BitVec.toNat_sub_of_le (BitVec.le_def.mpr h)]
  rfl

/-! ## Termination -/

/-- While no sum can wrap, the interval gets shorter. -/
theorem body_shorter {lo hi lo' hi' : BitVec 32} (hlo : lo.toNat < 2 ^ 31) (hhi : hi.toNat ≤ 2 ^ 31)
    (h : body c value lo hi unit = .call lo' hi') :
    lo'.toNat < 2 ^ 31 ∧ hi'.toNat ≤ 2 ^ 31 ∧ hi'.toNat - lo'.toNat < hi.toNat - lo.toNat := by
  have hmid : ((lo + hi) / 2#32).toNat = (lo.toNat + hi.toNat) / 2 := toNat_mid (by omega)
  simp only [body] at h
  split at h
  · cases h
  rename_i hle
  have hle : lo.toNat ≤ hi.toNat := Nat.not_lt.mp hle
  split at h
  · cases h
  split at h
  · cases h
  split at h
  · cases h
  split at h
  · cases h
  split at h
  · split at h
    · cases h
    · rename_i hgap
      rw [sub_le_one_iff (by omega)] at hgap
      cases h
      omega
  · split at h
    · cases h
    · rename_i hgap
      rw [sub_le_one_iff (by omega)] at hgap
      cases h
      omega

theorem terminates_of_lt (n : Nat) : ∀ {lo hi : BitVec 32}, hi.toNat - lo.toNat < n →
    lo.toNat < 2 ^ 31 → hi.toNat ≤ 2 ^ 31 → Terminates c value lo hi unit := by
  induction n with
  | zero => exact fun h => absurd h (Nat.not_lt_zero _)
  | succ n ih =>
    intro lo hi hn hlo hhi
    cases hbody : body c value lo hi unit with
    | ret r => exact ⟨r, returns_of_ret hbody⟩
    | call lo' hi' =>
      obtain ⟨hlo', hhi', hless⟩ := body_shorter hlo hhi hbody
      exact terminates_of_call hbody (ih (by omega) hlo' hhi')

theorem body_of_gt {lo hi : BitVec 32} (h : lo > hi) : body c value lo hi unit = .ret einval :=
  if_pos h

/-- With both bounds 2^31 the sum wraps to 0, and the search is one from 0. -/
theorem terminates_of_half : Terminates c value 0x80000000#32 0x80000000#32 unit := by
  have hmid : (0x80000000#32 + 0x80000000#32) / 2#32 = 0#32 := by decide
  cases hbody : body c value 0x80000000#32 0x80000000#32 unit with
  | ret r => exact ⟨r, returns_of_ret hbody⟩
  | call lo' hi' =>
    refine terminates_of_call hbody ?_
    simp only [body, hmid] at hbody
    split at hbody
    · cases hbody
    split at hbody
    · cases hbody
    split at hbody
    · cases hbody
    split at hbody
    · cases hbody
    split at hbody
    · split at hbody
      · cases hbody
      · cases hbody
        exact ⟨einval, returns_of_ret (body_of_gt (by decide))⟩
    · split at hbody
      · cases hbody
      · cases hbody
        exact terminates_of_lt (2 ^ 32) (by decide) (by decide) (by decide)

theorem terminates_of_hi_le {lo hi : BitVec 32} (hle : lo ≤ hi) (hhi : hi.toNat ≤ 2 ^ 31) :
    Terminates c value lo hi unit := by
  rw [BitVec.le_def] at hle
  rcases Nat.lt_or_ge lo.toNat (2 ^ 31) with hlo | hlo
  · exact terminates_of_lt (hi.toNat + 1) (by omega) hlo hhi
  · have hlo' : lo = 0x80000000#32 := BitVec.eq_of_toNat_eq (by simp; omega)
    have hhi' : hi = 0x80000000#32 := BitVec.eq_of_toNat_eq (by simp; omega)
    rw [hlo', hhi']
    exact terminates_of_half

/-! ## Above 2^31 -/

/-- A value above all bucket sizes is looked for above the middle, which is below 2^31. -/
theorem body_of_above {lo hi : BitVec 32} (hle : lo ≤ hi) (hhi : 2 ^ 31 < hi.toNat)
    (hvalue : ¬ (value > 0#32 ∧ value < unit)) (habove : ∀ k, c.shl unit k < value) :
    body c value lo hi unit = .call ((lo + hi) / 2#32) hi ∧ (lo + hi) / 2#32 ≤ hi := by
  have hmid : ((lo + hi) / 2#32).toNat < 2 ^ 31 := by
    have hlt := (lo + hi).isLt
    rw [BitVec.toNat_udiv]
    show (lo + hi).toNat / 2 < 2 ^ 31
    omega
  have hne : ∀ k, c.shl unit k ≠ value := fun k => BitVec.ne_of_lt (habove k)
  have hngt : ¬ c.shl unit ((lo + hi) / 2#32) > value := by
    have := habove ((lo + hi) / 2#32)
    rw [BitVec.lt_def] at this
    rw [gt_iff_lt, BitVec.lt_def]
    omega
  have hgap : ¬ hi - (lo + hi) / 2#32 ≤ 1#32 := by
    rw [sub_le_one_iff (by omega)]
    omega
  have hnlt : ¬ lo > hi := by
    rw [BitVec.le_def] at hle
    rw [gt_iff_lt, BitVec.lt_def]
    omega
  refine ⟨?_, BitVec.le_def.mpr (by omega)⟩
  simp only [body, if_neg hnlt, if_neg hvalue, if_neg (hne _), if_neg hngt, if_neg hgap]

theorem not_terminates {lo hi : BitVec 32} (hle : lo ≤ hi) (hhi : 2 ^ 31 < hi.toNat)
    (hvalue : ¬ (value > 0#32 ∧ value < unit)) (habove : ∀ k, c.shl unit k < value) :
    ¬ Terminates c value lo hi unit := by
  rintro ⟨r, n, h⟩
  induction n generalizing lo with
  | zero => exact absurd h (by simp [biSearchGetBucketSizeShift])
  | succ n ih =>
    obtain ⟨hbody, hle'⟩ := body_of_above hle hhi hvalue habove
    rw [biSearchGetBucketSizeShift, hbody] at h
    exact ih hle' h

/-! ## The shift that is found -/

theorem InRange.hi_lt {hi : BitVec 32} (h : InRange value hi unit) : hi.toNat < 32 := by
  by_contra hge
  have hpow : 2 ^ 32 ≤ 2 ^ hi.toNat := Nat.pow_le_pow_right (by decide) (Nat.not_lt.mp hge)
  have hmul : 1 * 2 ^ 32 ≤ unit.toNat * 2 ^ hi.toNat := Nat.mul_le_mul h.unit_pos hpow
  exact absurd h.top (Nat.not_lt.mpr (by omega))

/-- No bucket size up to `hi` loses a bit. -/
theorem InRange.toNat_shiftLeft {hi : BitVec 32} (h : InRange value hi unit) {s : Nat}
    (hs : s ≤ hi.toNat) : (unit <<< s).toNat = unit.toNat * 2 ^ s := by
  have hpow : 2 ^ s ≤ 2 ^ hi.toNat := Nat.pow_le_pow_right (by decide) hs
  have hmul := Nat.mul_le_mul_left unit.toNat hpow
  rw [BitVec.toNat_shiftLeft, Nat.shiftLeft_eq]
  exact Nat.mod_eq_of_lt (Nat.lt_of_le_of_lt hmul h.top)

/-- A larger bucket has room for what a smaller one has. -/
theorem InRange.fits_mono {hi : BitVec 32} (h : InRange value hi unit) {s t : Nat} (hst : s ≤ t)
    (ht : t ≤ hi.toNat) (hs : Fits value unit s) : Fits value unit t := by
  unfold Fits at hs ⊢
  rw [BitVec.le_def, h.toNat_shiftLeft (hst.trans ht)] at hs
  rw [BitVec.le_def, h.toNat_shiftLeft ht]
  exact hs.trans (Nat.mul_le_mul_left _ (Nat.pow_le_pow_right (by decide) hst))

theorem InRange.mono {hi hi' : BitVec 32} (h : InRange value hi unit) (hle : hi'.toNat ≤ hi.toNat) :
    InRange value hi' unit where
  unit_pos := h.unit_pos
  value_pos := h.value_pos
  top := Nat.lt_of_le_of_lt (Nat.mul_le_mul_left _ (Nat.pow_le_pow_right (by decide) hle)) h.top

/-- The shift by a bound or a middle is the usual one. -/
theorem InRange.shl_eq {hi k : BitVec 32} (h : InRange value hi unit) (hk : k.toNat ≤ hi.toNat) :
    c.shl unit k = unit <<< k.toNat :=
  c.of_lt unit (Nat.lt_of_le_of_lt hk h.hi_lt)

/-- A bucket that is the value itself is the least. -/
theorem leastOr_of_eq {hi : BitVec 32} (h : InRange value hi unit) {s : Nat} (hs : s ≤ hi.toNat)
    (heq : unit <<< s = value) : LeastOr (Fits value unit) hi.toNat s where
  le := hs
  below := fun t ht hfits => by
    have hle := BitVec.le_def.mp hfits
    rw [← heq, h.toNat_shiftLeft hs, h.toNat_shiftLeft (by omega)] at hle
    have hlt : 2 ^ t < 2 ^ s := Nat.pow_lt_pow_right (by decide) ht
    exact absurd hle (Nat.not_le.mpr (Nat.mul_lt_mul_of_pos_left hlt h.unit_pos))
  holds := .inl (BitVec.le_def.mpr (heq ▸ le_rfl))

/-- What a call does while the value is above the bucket of `lo`: it returns the shift, or goes on
in an interval of which the same is known and that has the shift. -/
theorem body_least {lo hi : BitVec 32} (h : InRange value hi unit) (hle : lo.toNat ≤ hi.toNat)
    (hlo : lo = 0#32 ∨ ¬ Fits value unit lo.toNat) :
    match body c value lo hi unit with
    | .ret r => LeastOr (Fits value unit) hi.toNat r.toNat
    | .call lo' hi' => lo'.toNat ≤ hi'.toNat ∧ hi'.toNat ≤ hi.toNat ∧
        hi'.toNat - lo'.toNat < hi.toNat - lo.toNat ∧ ¬ Fits value unit lo'.toNat ∧
        (Fits value unit hi'.toNat ∨ hi' = hi) := by
  have hhi := h.hi_lt
  have hmid : ((lo + hi) / 2#32).toNat = (lo.toNat + hi.toNat) / 2 := toNat_mid (by omega)
  have hmidle : ((lo + hi) / 2#32).toNat ≤ hi.toNat := by omega
  unfold body
  rw [if_neg (show ¬ lo > hi from Nat.not_lt.mpr hle)]
  by_cases hsmall : value > 0#32 ∧ value < unit
  · rw [if_pos hsmall]
    refine LeastOr.zero (.inl ?_)
    rw [Fits, BitVec.shiftLeft_zero]
    exact BitVec.le_of_lt hsmall.2
  rw [if_neg hsmall]
  simp only [h.shl_eq hmidle, h.shl_eq hle, h.shl_eq le_rfl]
  generalize (lo + hi) / 2#32 = mid at hmid hmidle
  by_cases hmideq : unit <<< mid.toNat = value
  · rw [if_pos hmideq]
    exact leastOr_of_eq h hmidle hmideq
  rw [if_neg hmideq]
  by_cases hloeq : unit <<< lo.toNat = value
  · rw [if_pos hloeq]
    exact leastOr_of_eq h hle hloeq
  rw [if_neg hloeq]
  by_cases hhieq : unit <<< hi.toNat = value
  · rw [if_pos hhieq]
    exact leastOr_of_eq h le_rfl hhieq
  rw [if_neg hhieq]
  -- from here on the bucket of `lo` is too small
  have hbelow : ¬ Fits value unit lo.toNat := by
    rcases hlo with rfl | hlo
    · intro hfits
      have hpos : value > 0#32 := BitVec.lt_def.mpr h.value_pos
      have hne : value ≠ unit := fun heq => hloeq (by rw [heq]; exact BitVec.shiftLeft_zero unit)
      have hvle : value ≤ unit := by
        rw [← BitVec.shiftLeft_zero unit]
        exact hfits
      exact hsmall ⟨hpos, BitVec.lt_of_le_ne hvle hne⟩
    · exact hlo
  by_cases hgt : unit <<< mid.toNat > value
  · rw [if_pos hgt]
    have hfits : Fits value unit mid.toNat := BitVec.le_of_lt hgt
    have hne : lo.toNat ≠ mid.toNat := fun heq => hbelow (heq ▸ hfits)
    by_cases hgap : mid - lo ≤ 1#32
    · rw [if_pos hgap]
      rw [sub_le_one_iff (by omega)] at hgap
      have hnext : mid.toNat = lo.toNat + 1 := by omega
      show LeastOr (Fits value unit) hi.toNat mid.toNat
      rw [hnext] at hfits ⊢
      exact LeastOr.of_gap h.fits_mono hbelow (by omega) (.inl hfits)
    · rw [if_neg hgap]
      rw [sub_le_one_iff (by omega)] at hgap
      exact ⟨by omega, hmidle, by omega, hbelow, .inl hfits⟩
  · rw [if_neg hgt]
    have hmidbelow : ¬ Fits value unit mid.toNat := by
      intro hfits
      exact hgt (BitVec.lt_of_le_ne hfits (Ne.symm hmideq))
    by_cases hgap : hi - mid ≤ 1#32
    · rw [if_pos hgap]
      rw [sub_le_one_iff hmidle] at hgap
      exact {
        le := le_rfl
        below := fun t ht hfits => hmidbelow (h.fits_mono (by omega) hmidle hfits)
        holds := .inr rfl }
    · rw [if_neg hgap]
      rw [sub_le_one_iff hmidle] at hgap
      exact ⟨hmidle, le_rfl, by omega, hmidbelow, .inr rfl⟩

theorem leastOr_of_returns (n : Nat) : ∀ {lo hi r : BitVec 32}, hi.toNat - lo.toNat < n →
    InRange value hi unit → lo.toNat ≤ hi.toNat → (lo = 0#32 ∨ ¬ Fits value unit lo.toNat) →
    Returns c value lo hi unit r → LeastOr (Fits value unit) hi.toNat r.toNat := by
  induction n with
  | zero => exact fun h => absurd h (Nat.not_lt_zero _)
  | succ n ih =>
    intro lo hi r hn h hle hlo hr
    have hstep := body_least h hle hlo (c := c)
    rw [returns_iff] at hr
    cases hbody : body c value lo hi unit with
    | ret r' =>
      rw [hbody] at hstep hr
      rw [← hr]
      exact hstep
    | call lo' hi' =>
      rw [hbody] at hstep hr
      obtain ⟨hle', hhi', hless, hbelow, htop⟩ := hstep
      have hfound := ih (by omega) (h.mono hhi') hle' (.inr hbelow) hr
      rcases htop with hfits | rfl
      · exact hfound.widen hhi' hfits
      · exact hfound

/-! ## The result -/

theorem searches_least {hi : BitVec 32} (h : InRange value hi unit) {s : BitVec 32}
    (hs : Returns c value 0#32 hi unit s) : LeastOr (Fits value unit) hi.toNat s.toNat :=
  leastOr_of_returns (hi.toNat + 1) (by simp) h (Nat.zero_le _) (.inl rfl) hs

theorem searches_of_terminates {lo hi : BitVec 32}
    (hends : lo ≤ hi → ∀ value unit, Terminates c value lo hi unit) : Searches c lo hi where
  terminates := hends
  least := by
    rintro rfl value unit h
    obtain ⟨s, hs⟩ := hends (BitVec.le_def.mpr (Nat.zero_le _)) value unit
    exact ⟨s, hs, searches_least h hs⟩
  monotone := by
    rintro rfl value value' unit s s' h h' hle hs hs'
    exact BitVec.le_def.mpr ((searches_least h hs).le_of_imp (searches_least h' hs')
      fun t _ hfits => BitVec.le_trans hle hfits)
  enough := by
    rintro rfl value unit s h htop hs
    rcases (searches_least h hs).holds with hfits | heq
    · exact hfits
    · rw [heq]
      exact htop

/-- The search does what is asked of it exactly up to 2^31. -/
theorem searches_iff (c : Shl) (lo hi : BitVec 32) :
    Searches c lo hi ↔ hi < lo ∨ hi.toNat ≤ 2 ^ 31 := by
  constructor
  · intro h
    rcases Nat.lt_or_ge hi.toNat lo.toNat with hlt | hle
    · exact .inl hlt
    · refine .inr (Nat.not_lt.mp fun hhi => ?_)
      have habove : ∀ k, c.shl 0#32 k < 1#32 := fun k => by
        rw [c.zero]
        decide
      exact not_terminates hle hhi (by decide) habove (h.terminates hle 1#32 0#32)
  · intro h
    apply searches_of_terminates
    intro hle value unit
    rcases h with hlt | hhi
    · exact absurd hlt (Nat.not_lt.mpr hle)
    · exact terminates_of_hi_le hle hhi

/-- The shift of an A64 processor, which takes the amount modulo 32. -/
def lslv : Shl where
  shl := fun x k => x <<< (k.toNat % 32)
  of_lt := fun x k hk => by rw [Nat.mod_eq_of_lt hk]
  zero := fun k => BitVec.zero_shiftLeft _

/-- From 0 to the largest bound, for a value above all units that are shifted. -/
theorem not_searches_max : ¬ Searches lslv 0#32 0xffffffff#32 := by
  intro h
  have hbits : ∀ j < 32, 1#32 <<< j < 0xffffffff#32 := by decide
  have habove : ∀ k, lslv.shl 1#32 k < 0xffffffff#32 := fun k => hbits _ (Nat.mod_lt _ (by decide))
  exact not_terminates (by decide) (by decide) (by decide) habove (h.terminates (by decide) _ _)

end Airoha.Qdma.BucketShift
