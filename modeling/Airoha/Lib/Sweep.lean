/-
Airoha.Lib.Sweep — a loop over the cells of a table.

The body of `for (i = lo; i < lo + n; i++)` sees the cell at `i` and what the
earlier rounds carry in local variables; it may write that cell, and it may
leave the loop. So a cell comes out as the body makes it from the cell itself
and from `carried`, which depends on the cells before it: `sweep_cell`.
-/
import Mathlib

namespace Airoha.Lib

variable {κ ε : Type}

/-- The loop. `none` from the body is a `return`. -/
def sweep (body : Nat → κ → ε → Option (κ × ε)) : Nat → Nat → κ → (Nat → ε) → Nat → ε
  | _, 0, _, t => t
  | i, n + 1, k, t =>
      match body i k (t i) with
      | none => t
      | some (k', e) => sweep body (i + 1) n k' (Function.update t i e)

/-- What the body has at hand after `n` rounds; none when one of them left the loop. -/
def carried (body : Nat → κ → ε → Option (κ × ε)) (t : Nat → ε) : Nat → Nat → κ → Option κ
  | _, 0, k => some k
  | i, n + 1, k => (body i k (t i)).bind fun r => carried body t (i + 1) n r.1

/-- What the body makes of a cell. -/
def outcome (body : Nat → κ → ε → Option (κ × ε)) (i : Nat) (k : Option κ) (e : ε) : ε :=
  ((k.bind fun k => body i k e).map Prod.snd).getD e

variable {body : Nat → κ → ε → Option (κ × ε)} {t t' : Nat → ε}

theorem carried_congr : ∀ {n i : Nat} {k : κ}, (∀ j, i ≤ j → j < i + n → t j = t' j) →
    carried body t i n k = carried body t' i n k
  | 0, _, _, _ => rfl
  | n + 1, i, k, h => by
      rw [carried, carried, h i (Nat.le_refl i) (by omega)]
      congr 1
      funext r
      exact carried_congr fun j h1 h2 => h j (by omega) (by omega)

theorem carried_succ : ∀ {n i : Nat} {k : κ}, carried body t i (n + 1) k =
    (carried body t i n k).bind fun k' => (body (i + n) k' (t (i + n))).map Prod.fst
  | 0, i, k => by
      simp only [carried, Option.bind_some, Nat.add_zero]
      cases body i k (t i) <;> rfl
  | n + 1, i, k => by
      have hstep : i + 1 + n = i + (n + 1) := by omega
      rw [carried, carried]
      cases h : body i k (t i) with
      | none => rfl
      | some r =>
        simp only [Option.bind_some]
        rw [carried_succ, hstep]

/-- A cell the loop does not come to stays. -/
theorem sweep_outside : ∀ {n i : Nat} {k : κ} {t : Nat → ε} {j : Nat}, j < i ∨ i + n ≤ j →
    sweep body i n k t j = t j
  | 0, _, _, _, _, _ => rfl
  | n + 1, i, k, t, j, h => by
      rw [sweep]
      cases hb : body i k (t i) with
      | none => rfl
      | some r =>
        have hne : j ≠ i := by omega
        have hout : j < i + 1 ∨ i + 1 + n ≤ j := by omega
        simp only
        rw [sweep_outside hout, Function.update_of_ne hne]

/-- A cell the loop comes to is what the body makes of it. -/
theorem sweep_cell : ∀ {n i : Nat} {k : κ} {t : Nat → ε} {m : Nat}, m < n →
    sweep body i n k t (i + m) = outcome body (i + m) (carried body t i m k) (t (i + m))
  | 0, _, _, _, _, h => absurd h (Nat.not_lt_zero _)
  | n + 1, i, k, t, m, h => by
      rw [sweep]
      cases hb : body i k (t i) with
      | none =>
        cases m with
        | zero => simp [outcome, carried, hb]
        | succ m => simp [outcome, carried, hb]
      | some r =>
        cases m with
        | zero =>
          have hout : i < i + 1 ∨ i + 1 + n ≤ i := by omega
          simp only [Nat.add_zero]
          rw [sweep_outside hout, Function.update_self]
          simp [outcome, carried, hb]
        | succ m =>
          have hstep : i + (m + 1) = i + 1 + m := by omega
          have hne : i + 1 + m ≠ i := by omega
          simp only
          rw [hstep, sweep_cell (Nat.lt_of_succ_lt_succ h), Function.update_of_ne hne, carried, hb]
          congr 1
          exact carried_congr fun j h1 _ => Function.update_of_ne (by omega) _ _

/-- A loop from zero. -/
theorem sweep_zero {n : Nat} {k : κ} {m : Nat} (h : m < n) :
    sweep body 0 n k t m = outcome body m (carried body t 0 m k) (t m) := by
  have hcell : sweep body 0 n k t (0 + m) = _ := sweep_cell h
  rwa [Nat.zero_add] at hcell

theorem carried_zero_succ {n : Nat} {k : κ} : carried body t 0 (n + 1) k =
    (carried body t 0 n k).bind fun k' => (body n k' (t n)).map Prod.fst := by
  rw [carried_succ, Nat.zero_add]

/-- A body that replaces a cell by another value shows whether it did. -/
theorem iff_of_ite_eq {α : Type} {a b : α} {p q : Prop} [Decidable p] [Decidable q] (hne : a ≠ b)
    (heq : (if p then a else b) = if q then a else b) : p ↔ q := by
  by_cases hp : p <;> by_cases hq : q
  · simp [hp, hq]
  · rw [if_pos hp, if_neg hq] at heq
    exact absurd heq hne
  · rw [if_neg hp, if_pos hq] at heq
    exact absurd heq.symm hne
  · simp [hp, hq]

end Airoha.Lib
