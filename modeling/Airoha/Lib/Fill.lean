/-
Airoha.Lib.Fill — parallel arrays filled from a list.

Code that collects into arrays keeps one index for all of them, and at that
index it stores into each array or leaves it. `fillFrom a c ys` is the array `a`
after the entries `ys` have been so handled from the index `c` on, where an
entry `none` leaves its slot. The arrays are functions of the index, so a store
outside of the real array would be seen; `fillFrom_of_lt` and `fillFrom_of_ge` say that
there is none beyond the entries.
-/
import Mathlib.Logic.Function.Basic

namespace Airoha.Lib

variable {β : Type}

/-- One slot of the array. -/
def putAt (a : Nat → β) (c : Nat) : Option β → Nat → β
  | some y => Function.update a c y
  | none => a

/-- The array after the entries, from the index `c` on. -/
def fillFrom (a : Nat → β) (c : Nat) : List (Option β) → Nat → β
  | [] => a
  | y :: ys => fillFrom (putAt a c y) (c + 1) ys

theorem putAt_of_ne (a : Nat → β) {c i : Nat} (h : i ≠ c) (y : Option β) : putAt a c y i = a i := by
  cases y with
  | none => rfl
  | some y => exact Function.update_of_ne h y a

theorem putAt_self (a : Nat → β) (c : Nat) (y : Option β) : putAt a c y c = y.getD (a c) := by
  cases y with
  | none => rfl
  | some y => exact Function.update_self c y a

@[simp] theorem fillFrom_nil (a : Nat → β) (c : Nat) : fillFrom a c [] = a := rfl

@[simp] theorem fillFrom_cons (a : Nat → β) (c : Nat) (y : Option β) (ys : List (Option β)) :
    fillFrom a c (y :: ys) = fillFrom (putAt a c y) (c + 1) ys := rfl

theorem fillFrom_of_lt (ys : List (Option β)) :
    ∀ (a : Nat → β) {c i : Nat}, i < c → fillFrom a c ys i = a i := by
  induction ys with
  | nil => intro a c i _; rfl
  | cons y ys ih =>
    intro a c i hi
    rw [fillFrom_cons, ih _ (Nat.lt_succ_of_lt hi), putAt_of_ne a (Nat.ne_of_lt hi)]

theorem fillFrom_of_ge (ys : List (Option β)) :
    ∀ (a : Nat → β) {c i : Nat}, c + ys.length ≤ i → fillFrom a c ys i = a i := by
  induction ys with
  | nil => intro a c i _; rfl
  | cons y ys ih =>
    intro a c i hi
    rw [List.length_cons] at hi
    rw [fillFrom_cons, ih _ (by omega), putAt_of_ne a (by omega)]

/-- The entry at an index, or what was there if it leaves the slot. -/
theorem fillFrom_at (ys : List (Option β)) :
    ∀ (a : Nat → β) (c : Nat) {i : Nat} (h : i < ys.length),
      fillFrom a c ys (c + i) = ys[i].getD (a (c + i)) := by
  induction ys with
  | nil =>
    intro a c i h
    exact absurd h (Nat.not_lt_zero i)
  | cons y ys ih =>
    intro a c i h
    cases i with
    | zero =>
      show fillFrom (putAt a c y) (c + 1) ys c = y.getD (a c)
      rw [fillFrom_of_lt ys _ (Nat.lt_succ_self c), putAt_self]
    | succ i =>
      have hi : i < ys.length := Nat.lt_of_succ_lt_succ h
      have hne : c + (i + 1) ≠ c := by omega
      have hstep := ih (putAt a c y) (c + 1) hi
      rw [show c + 1 + i = c + (i + 1) by omega, putAt_of_ne a hne] at hstep
      rw [fillFrom_cons, hstep]
      rfl

end Airoha.Lib
