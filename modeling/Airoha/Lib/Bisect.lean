/-
Airoha.Lib.Bisect — the first position that has a property, by bisection.

`LeastOr p hi s` says that `s` is the least position up to `hi` with `p`, and
that it is `hi` where there is none. For a search that halves an interval and
keeps its ends, `LeastOr.of_gap` is the end of the search, where the two ends
are next to each other, and `LeastOr.widen` is the step to the lower half.
`LeastOr.le_of_imp` compares the results of two searches.
-/
import Mathlib.Order.Bounds.Basic

namespace Airoha.Lib

variable {p q : Nat → Prop} {lo mid hi s t : Nat}

/-- `s` is the least position up to `hi` with `p`, or `hi` if there is none. -/
structure LeastOr (p : Nat → Prop) (hi s : Nat) : Prop where
  le : s ≤ hi
  below : ∀ t < s, ¬ p t
  holds : p s ∨ s = hi

/-- A property that holds of less is found no earlier. -/
theorem LeastOr.le_of_imp (hs : LeastOr p hi s) (ht : LeastOr q hi t) (h : ∀ u ≤ hi, q u → p u) :
    s ≤ t := by
  by_contra hlt
  have hlt : t < s := Nat.not_le.mp hlt
  rcases ht.holds with hq | rfl
  · exact hs.below t hlt (h t ht.le hq)
  · exact absurd hs.le (Nat.not_le.mpr hlt)

/-- What is found in the lower half is what there is, if its end has the property. -/
theorem LeastOr.widen (hs : LeastOr p mid s) (hmid : mid ≤ hi) (hp : p mid) : LeastOr p hi s where
  le := hs.le.trans hmid
  below := hs.below
  holds := .inl (hs.holds.elim id fun h => h ▸ hp)

/-- Two neighbours, the lower of which does not have the property. -/
theorem LeastOr.of_gap (hmono : ∀ {t u : Nat}, t ≤ u → u ≤ hi → p t → p u) (hlo : ¬ p lo)
    (hle : lo + 1 ≤ hi) (h : p (lo + 1) ∨ lo + 1 = hi) : LeastOr p hi (lo + 1) where
  le := hle
  below := fun t ht hpt => hlo (hmono (Nat.le_of_lt_succ ht) (by omega) hpt)
  holds := h

/-- The first position of all. -/
theorem LeastOr.zero (h : p 0 ∨ hi = 0) : LeastOr p hi 0 where
  le := Nat.zero_le hi
  below := fun t ht => absurd ht (Nat.not_lt_zero t)
  holds := h.imp id Eq.symm

end Airoha.Lib
