/-
Airoha.Lib.Changes — the changes of a value that is looked at again and again.

An observer that keeps the last value it has seen, and acts where the next one
is different, acts on `changes`: what `List.destutter'` leaves of the values
behind the first one. `foldl_view` is for an observer of several things: each
round sees all of them, and what concerns one of them is what its own part of
the round makes of it.
-/
import Mathlib.Data.List.Destutter

namespace Airoha.Lib

variable {α β σ : Type}

/-- The values that differ from the one before, the first one from `a`. -/
def changes [DecidableEq α] (a : α) (l : List α) : List α := (l.destutter' (· ≠ ·) a).tail

section Changes

variable [DecidableEq α] {a b : α} {l : List α}

theorem destutter'_eq_cons_changes (a : α) (l : List α) :
    l.destutter' (· ≠ ·) a = a :: changes a l := by
  induction l generalizing a with
  | nil => rfl
  | cons b l ih =>
    by_cases h : a ≠ b
    · rw [changes, List.destutter'_cons_pos l h, List.tail_cons]
    · rw [changes, List.destutter'_cons_neg l h]
      exact ih a

theorem changes_cons_self : changes a (a :: l) = changes a l := by
  rw [changes, List.destutter'_cons_neg l (not_not_intro rfl), changes]

theorem changes_cons_of_ne (h : a ≠ b) : changes a (b :: l) = b :: changes b l := by
  rw [changes, List.destutter'_cons_pos l h, List.tail_cons, destutter'_eq_cons_changes]

/-- One value more. -/
theorem changes_cons : changes a (b :: l) = (if a = b then [] else [b]) ++ changes b l := by
  by_cases h : a = b
  · rw [if_pos h, ← h, changes_cons_self, List.nil_append]
  · rw [if_neg h, changes_cons_of_ne h, List.singleton_append]

end Changes

/-- A loop over several things: the view of one of them is changed by its own round only. -/
theorem foldl_view {f : σ → α → σ} (view : σ → β) (g : β → β) {a : α} {l : List α}
    (hnd : l.Nodup) (ha : a ∈ l) (hown : ∀ s, view (f s a) = g (view s))
    (hother : ∀ s, ∀ b ∈ l, b ≠ a → view (f s b) = view s) (s : σ) :
    view (l.foldl f s) = g (view s) := by
  have hframe : ∀ (l' : List α) (s : σ), (∀ b ∈ l', b ∈ l ∧ b ≠ a) →
      view (l'.foldl f s) = view s := by
    intro l'
    induction l' with
    | nil => intro s _; rfl
    | cons b l' ih =>
      intro s hb
      obtain ⟨hmem, hne⟩ := hb b List.mem_cons_self
      rw [List.foldl_cons, ih _ fun c hc => hb c (List.mem_cons_of_mem b hc), hother s b hmem hne]
  obtain ⟨l1, l2, rfl⟩ := List.append_of_mem ha
  have hnd' := List.nodup_middle.1 hnd
  have hne : ∀ b ∈ l1 ++ l2, b ≠ a := fun b hb he => (List.nodup_cons.1 hnd').1 (he ▸ hb)
  rw [List.foldl_append, List.foldl_cons,
    hframe l2 _ fun b hb => ⟨by simp [hb], hne b (List.mem_append_right _ hb)⟩, hown,
    hframe l1 _ fun b hb => ⟨by simp [hb], hne b (List.mem_append_left _ hb)⟩]

end Airoha.Lib
