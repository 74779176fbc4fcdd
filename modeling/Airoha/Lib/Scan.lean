/-
Airoha.Lib.Scan — bounded linear scans over the naturals.

A driver loop of the shape `for (i = lo; i < hi; i++) if (p(i)) return i;`
is `scanUp p lo n`, its mirror image `for (i = hi; ...; i--)` is
`scanDown p hi n`, with `n` the number of positions the loop visits. Both
are structural on that count, so a concrete scan evaluates.

The two characterisations `scanUp_eq_some_iff` and `scanDown_eq_some_iff`
say the same thing in the two directions: the result satisfies `p` and
no position visited before it does. Everything else (congruence, what a
failed scan says) follows from them.
-/
import Mathlib

namespace Airoha.Lib

variable {p q : Nat → Bool}

/-! ## Scanning upwards -/

/-- The first `i` of `lo, lo + 1, …, lo + n - 1` with `p i`. -/
def scanUp (p : Nat → Bool) : Nat → Nat → Option Nat
  | _, 0 => none
  | lo, n + 1 => if p lo then some lo else scanUp p (lo + 1) n

theorem scanUp_eq_none_iff : ∀ {n lo : Nat},
    scanUp p lo n = none ↔ ∀ i, lo ≤ i → i < lo + n → p i = false
  | 0, lo => by
      simp only [scanUp, true_iff]
      intro i h1 h2
      omega
  | n + 1, lo => by
      by_cases h : p lo
      · simp only [scanUp, h, if_true]
        constructor
        · intro hc; cases hc
        · intro hall
          have := hall lo (Nat.le_refl lo) (by omega)
          simp [h] at this
      · simp only [scanUp, h, Bool.false_eq_true, if_false]
        rw [scanUp_eq_none_iff]
        constructor
        · intro hall i h1 h2
          rcases Nat.eq_or_lt_of_le h1 with rfl | h3
          · simpa using h
          · exact hall i h3 (by omega)
        · intro hall i h1 h2
          exact hall i (by omega) (by omega)

theorem scanUp_eq_some_iff : ∀ {n lo i : Nat},
    scanUp p lo n = some i ↔
      lo ≤ i ∧ i < lo + n ∧ p i = true ∧ ∀ j, lo ≤ j → j < i → p j = false
  | 0, lo, i => by
      simp only [scanUp]
      constructor
      · intro hc; cases hc
      · rintro ⟨h1, h2, -⟩; omega
  | n + 1, lo, i => by
      by_cases h : p lo
      · simp only [scanUp, h, if_true, Option.some.injEq]
        constructor
        · rintro rfl
          exact ⟨Nat.le_refl lo, by omega, h, fun j h1 h2 => by omega⟩
        · rintro ⟨h1, -, -, hmin⟩
          rcases Nat.eq_or_lt_of_le h1 with heq | hlt
          · exact heq
          · have := hmin lo (Nat.le_refl lo) hlt
            simp [h] at this
      · simp only [scanUp, h, Bool.false_eq_true, if_false]
        rw [scanUp_eq_some_iff]
        constructor
        · rintro ⟨h1, h2, h3, hmin⟩
          refine ⟨by omega, by omega, h3, fun j hj1 hj2 => ?_⟩
          rcases Nat.eq_or_lt_of_le hj1 with rfl | hlt
          · simpa using h
          · exact hmin j hlt hj2
        · rintro ⟨h1, h2, h3, hmin⟩
          have hne : lo ≠ i := by
            rintro rfl
            exact h h3
          exact ⟨by omega, by omega, h3, fun j hj1 hj2 => hmin j (by omega) hj2⟩

/-! ## Scanning downwards -/

/-- The first `i` of `hi, hi - 1, …, hi + 1 - n` with `p i`. -/
def scanDown (p : Nat → Bool) : Nat → Nat → Option Nat
  | _, 0 => none
  | hi, n + 1 => if p hi then some hi else scanDown p (hi - 1) n

theorem scanDown_eq_none_iff : ∀ {n hi : Nat}, n ≤ hi + 1 →
    (scanDown p hi n = none ↔ ∀ i, hi + 1 ≤ i + n → i ≤ hi → p i = false)
  | 0, hi, _ => by
      simp only [scanDown, true_iff]
      intro i h1 h2
      omega
  | n + 1, hi, hn => by
      by_cases h : p hi
      · simp only [scanDown, h, if_true]
        constructor
        · intro hc; cases hc
        · intro hall
          have := hall hi (by omega) (Nat.le_refl hi)
          simp [h] at this
      · simp only [scanDown, h, Bool.false_eq_true, if_false]
        rcases Nat.eq_zero_or_pos n with rfl | hpos
        · simp only [scanDown, true_iff]
          intro i h1 h2
          have : i = hi := by omega
          subst this
          simpa using h
        · rw [scanDown_eq_none_iff (by omega)]
          constructor
          · intro hall i h1 h2
            rcases Nat.eq_or_lt_of_le h2 with rfl | h3
            · simpa using h
            · exact hall i (by omega) (by omega)
          · intro hall i h1 h2
            exact hall i (by omega) (by omega)

theorem scanDown_eq_some_iff : ∀ {n hi i : Nat}, n ≤ hi + 1 →
    (scanDown p hi n = some i ↔
      hi + 1 ≤ i + n ∧ i ≤ hi ∧ p i = true ∧ ∀ j, i < j → j ≤ hi → p j = false)
  | 0, hi, i, _ => by
      simp only [scanDown]
      constructor
      · intro hc; cases hc
      · rintro ⟨h1, h2, -⟩; omega
  | n + 1, hi, i, hn => by
      by_cases h : p hi
      · simp only [scanDown, h, if_true, Option.some.injEq]
        constructor
        · rintro rfl
          exact ⟨by omega, Nat.le_refl hi, h, fun j h1 h2 => by omega⟩
        · rintro ⟨-, h1, -, hmax⟩
          rcases Nat.eq_or_lt_of_le h1 with heq | hlt
          · exact heq.symm
          · have := hmax hi hlt (Nat.le_refl hi)
            simp [h] at this
      · simp only [scanDown, h, Bool.false_eq_true, if_false]
        rcases Nat.eq_zero_or_pos n with rfl | hpos
        · simp only [scanDown]
          constructor
          · intro hc; cases hc
          · rintro ⟨h1, h2, h3, -⟩
            have : i = hi := by omega
            subst this
            exact absurd h3 h
        · rw [scanDown_eq_some_iff (by omega)]
          constructor
          · rintro ⟨h1, h2, h3, hmax⟩
            refine ⟨by omega, by omega, h3, fun j hj1 hj2 => ?_⟩
            rcases Nat.eq_or_lt_of_le hj2 with rfl | hlt
            · simpa using h
            · exact hmax j hj1 (by omega)
          · rintro ⟨h1, h2, h3, hmax⟩
            have hne : i ≠ hi := by
              rintro rfl
              exact h h3
            exact ⟨by omega, by omega, h3, fun j hj1 hj2 => hmax j hj1 (by omega)⟩

theorem scanDown_congr : ∀ {n hi : Nat}, n ≤ hi + 1 →
    (∀ i, hi + 1 ≤ i + n → i ≤ hi → p i = q i) →
    scanDown p hi n = scanDown q hi n
  | 0, _, _, _ => rfl
  | n + 1, hi, hn, h => by
      simp only [scanDown]
      rw [h hi (by omega) (Nat.le_refl hi)]
      rcases Nat.eq_zero_or_pos n with rfl | hpos
      · rfl
      · rw [scanDown_congr (by omega) (fun i h1 h2 => h i (by omega) (by omega))]

end Airoha.Lib
