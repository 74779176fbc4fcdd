/-
Airoha.Lib.SlotSet — a set kept in the slots of an array.

`slot i` is the key in slot `i`, or none. `held n slot` is the set of keys in
the first `n` slots, and `Unique` says that no key is in two of them. Putting
a fresh key into a free slot inserts it, emptying the slot of a key removes
it, and both keep `Unique`. Where several slots may have the same key,
`tally` counts them.
-/
import Mathlib

namespace Airoha.Lib

variable {κ : Type} {n : Nat} {slot : Nat → Option κ}

/-- The keys in the first `n` slots. -/
def held (n : Nat) (slot : Nat → Option κ) : Set κ := {k | ∃ i < n, slot i = some k}

/-- No key is in two slots. -/
def Unique (n : Nat) (slot : Nat → Option κ) : Prop :=
  ∀ i < n, ∀ j < n, ∀ k, slot i = some k → slot j = some k → i = j

/-- A slot that is free gets a key. -/
theorem held_put {i : Nat} {k : κ} (hi : i < n) (hfree : slot i = none) :
    held n (Function.update slot i (some k)) = insert k (held n slot) := by
  ext x
  constructor
  · rintro ⟨j, hj, hx⟩
    rcases eq_or_ne j i with rfl | hne
    · rw [Function.update_self, Option.some.injEq] at hx
      exact Or.inl hx.symm
    · rw [Function.update_of_ne hne] at hx
      exact Or.inr ⟨j, hj, hx⟩
  · rintro (rfl | ⟨j, hj, hx⟩)
    · exact ⟨i, hi, Function.update_self _ _ _⟩
    · have hne : j ≠ i := by
        rintro rfl
        rw [hfree] at hx
        cases hx
      exact ⟨j, hj, by rw [Function.update_of_ne hne]; exact hx⟩

theorem unique_put {i : Nat} {k : κ} (h : Unique n slot) (hfresh : k ∉ held n slot) :
    Unique n (Function.update slot i (some k)) := by
  intro a ha b hb x hxa hxb
  rcases eq_or_ne a i with rfl | hna
  · rcases eq_or_ne b a with rfl | hnb
    · rfl
    · rw [Function.update_self, Option.some.injEq] at hxa
      rw [Function.update_of_ne hnb, ← hxa] at hxb
      exact absurd ⟨b, hb, hxb⟩ hfresh
  · rw [Function.update_of_ne hna] at hxa
    rcases eq_or_ne b i with rfl | hnb
    · rw [Function.update_self, Option.some.injEq] at hxb
      rw [← hxb] at hxa
      exact absurd ⟨a, ha, hxa⟩ hfresh
    · rw [Function.update_of_ne hnb] at hxb
      exact h a ha b hb x hxa hxb

/-- The slot of a key is emptied. -/
theorem held_remove {i : Nat} {k : κ} (h : Unique n slot) (hi : i < n) (hk : slot i = some k) :
    held n (Function.update slot i none) = held n slot \ {k} := by
  ext x
  constructor
  · rintro ⟨j, hj, hx⟩
    rcases eq_or_ne j i with rfl | hne
    · rw [Function.update_self] at hx
      cases hx
    · rw [Function.update_of_ne hne] at hx
      refine ⟨⟨j, hj, hx⟩, ?_⟩
      rintro rfl
      exact hne (h j hj i hi x hx hk)
  · rintro ⟨⟨j, hj, hx⟩, hne⟩
    have hji : j ≠ i := by
      rintro rfl
      rw [hk, Option.some.injEq] at hx
      exact hne hx.symm
    exact ⟨j, hj, by rw [Function.update_of_ne hji]; exact hx⟩

theorem unique_remove {i : Nat} (h : Unique n slot) : Unique n (Function.update slot i none) := by
  have hold : ∀ a x, Function.update slot i none a = some x → slot a = some x := by
    intro a x hx
    rcases eq_or_ne a i with rfl | hne
    · rw [Function.update_self] at hx
      cases hx
    · rwa [Function.update_of_ne hne] at hx
  intro a ha b hb x hxa hxb
  exact h a ha b hb x (hold a x hxa) (hold b x hxb)

theorem held_congr {slot' : Nat → Option κ} (h : ∀ i < n, slot i = slot' i) :
    held n slot = held n slot' := by
  ext x
  constructor
  · rintro ⟨i, hi, hx⟩
    exact ⟨i, hi, (h i hi) ▸ hx⟩
  · rintro ⟨i, hi, hx⟩
    exact ⟨i, hi, (h i hi).symm ▸ hx⟩

theorem unique_congr {slot' : Nat → Option κ} (h : ∀ i < n, slot i = slot' i)
    (hu : Unique n slot) : Unique n slot' := by
  intro a ha b hb x hxa hxb
  exact hu a ha b hb x ((h a ha).trans hxa) ((h b hb).trans hxb)

/-! ## Counting -/

section Tally

variable [DecidableEq κ]

/-- How many of the first `n` slots have the key. -/
def tally (n : Nat) (slot : Nat → Option κ) (k : κ) : Nat :=
  ((Finset.range n).filter fun i => slot i = some k).card

/-- One slot gets another key. -/
theorem tally_update {i : Nat} (hi : i < n) (slot : Nat → Option κ) (x : Option κ) (k : κ) :
    tally n (Function.update slot i x) k + (if slot i = some k then 1 else 0) =
      tally n slot k + (if x = some k then 1 else 0) := by
  have hmem : i ∈ Finset.range n := Finset.mem_range.mpr hi
  have hrest : ∀ j ∈ (Finset.range n).erase i,
      (if Function.update slot i x j = some k then 1 else 0) =
        if slot j = some k then 1 else 0 := by
    intro j hj
    rw [Function.update_of_ne (Finset.ne_of_mem_erase hj)]
  unfold tally
  rw [Finset.card_filter, Finset.card_filter, ← Finset.add_sum_erase _ _ hmem,
    ← Finset.add_sum_erase (Finset.range n) (fun j => if slot j = some k then 1 else 0) hmem,
    Finset.sum_congr rfl hrest, Function.update_self]
  omega

theorem tally_eq_zero_iff {k : κ} : tally n slot k = 0 ↔ ∀ i < n, slot i ≠ some k := by
  unfold tally
  rw [Finset.card_eq_zero, Finset.filter_eq_empty_iff]
  simp only [Finset.mem_range]

end Tally

end Airoha.Lib
