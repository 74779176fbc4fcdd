/-
Airoha.Lib.Ids — a table that gives out the smallest free number.

A number is given out until it is taken back, so at every moment no two owners
have the same one. `Assigned` says who has which number; taking a number back
forgets its owner only.
-/
import Mathlib.Logic.Function.Basic

namespace Airoha.Lib

/-- Who has which number. -/
abbrev Ids (ω : Type) := Nat → Option ω

namespace Ids

variable {ω : Type}

/-- The smallest free number below `n` is given to `a`. -/
def alloc (n : Nat) (t : Ids ω) (a : ω) : Option (Nat × Ids ω) :=
  ((List.range n).find? fun i => (t i).isNone).map fun i => (i, Function.update t i (some a))

/-- The number is taken back. -/
def remove (t : Ids ω) (i : Nat) : Ids ω := Function.update t i none

variable {t : Ids ω} {n i : Nat} {a : ω}

theorem alloc_eq_some {t' : Ids ω} (h : alloc n t a = some (i, t')) :
    i < n ∧ t i = none ∧ t' = Function.update t i (some a) := by
  obtain ⟨j, hj, he⟩ := Option.map_eq_some_iff.1 h
  cases he
  have hn := List.find?_some (p := fun i => (t i).isNone) hj
  exact ⟨List.mem_range.1 (List.mem_of_find?_eq_some hj), Option.isNone_iff_eq_none.1 hn, rfl⟩

/-- The table says who has which number. -/
def Assigned (t : Ids ω) (has : ω → Nat → Prop) : Prop := ∀ i a, t i = some a ↔ has a i

variable {has has' : ω → Nat → Prop}

/-- A number that was free is given out. -/
theorem Assigned.insert (h : Assigned t has) (hfree : t i = none)
    (hhas : ∀ b j, has' b j ↔ has b j ∨ (b = a ∧ j = i)) :
    Assigned (Function.update t i (some a)) has' := by
  intro j b
  rw [hhas]
  by_cases hj : j = i
  · subst hj
    rw [Function.update_self, Option.some_inj, ← h j b, hfree]
    constructor
    · rintro rfl
      exact Or.inr ⟨rfl, rfl⟩
    · rintro (hb | ⟨rfl, -⟩)
      · cases hb
      · rfl
  · rw [Function.update_of_ne hj, h j b]
    constructor
    · exact Or.inl
    · rintro (hb | ⟨-, hji⟩)
      · exact hb
      · exact absurd hji hj

/-- A number is taken back. -/
theorem Assigned.erase (h : Assigned t has) (hhas : ∀ b j, has' b j ↔ has b j ∧ j ≠ i) :
    Assigned (remove t i) has' := by
  intro j b
  rw [hhas, remove]
  by_cases hj : j = i
  · subst hj
    rw [Function.update_self]
    constructor
    · intro hb
      cases hb
    · rintro ⟨-, hne⟩
      exact absurd rfl hne
  · rw [Function.update_of_ne hj, h j b]
    exact ⟨fun hb => ⟨hb, hj⟩, fun hb => hb.1⟩

end Ids

end Airoha.Lib
