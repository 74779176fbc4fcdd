/-
Airoha.Lib.Keyed — lists of rows with a key, searched from the front.

`lookup key k rows` is the first row with key `k`, `put key r rows` replaces the
first row with `r`'s key or adds `r` at the end. Keys may repeat: a later
row with the same key is simply never found, which is why the laws
`lookup_put_self` and `lookup_put_of_ne` need no uniqueness.
`nodup_put` says that `put` does not introduce a repeated key.
-/
import Mathlib

namespace Airoha.Lib

variable {α κ : Type} [DecidableEq κ] {key : α → κ}

def lookup (key : α → κ) (k : κ) (rows : List α) : Option α :=
  rows.find? (fun r => decide (key r = k))

def put (key : α → κ) (r : α) : List α → List α
  | [] => [r]
  | x :: rows => if key x = key r then r :: rows else x :: put key r rows

theorem put_nil (r : α) : put key r [] = [r] := rfl

theorem put_cons_of_eq {r x : α} (h : key x = key r) (rows : List α) :
    put key r (x :: rows) = r :: rows :=
  if_pos h

theorem put_cons_of_ne {r x : α} (h : key x ≠ key r) (rows : List α) :
    put key r (x :: rows) = x :: put key r rows :=
  if_neg h

theorem lookup_cons_of_eq {k : κ} {x : α} (h : key x = k) (rows : List α) :
    lookup key k (x :: rows) = some x :=
  List.find?_cons_of_pos (decide_eq_true h)

theorem lookup_cons_of_ne {k : κ} {x : α} (h : key x ≠ k) (rows : List α) :
    lookup key k (x :: rows) = lookup key k rows :=
  List.find?_cons_of_neg (by simpa using h)

theorem lookup_key {k : κ} {rows : List α} {r : α} (h : lookup key k rows = some r) :
    key r = k := by
  simpa using List.find?_some h

theorem lookup_mem {k : κ} {rows : List α} {r : α} (h : lookup key k rows = some r) :
    r ∈ rows :=
  List.mem_of_find?_eq_some h

theorem lookup_eq_none_iff {k : κ} {rows : List α} :
    lookup key k rows = none ↔ ∀ r ∈ rows, key r ≠ k := by
  show rows.find? (fun r => decide (key r = k)) = none ↔ _
  simp [List.find?_eq_none]

theorem lookup_put_self (r : α) (rows : List α) : lookup key (key r) (put key r rows) = some r := by
  induction rows with
  | nil => rw [put_nil, lookup_cons_of_eq rfl]
  | cons x rows ih =>
    by_cases h : key x = key r
    · rw [put_cons_of_eq h, lookup_cons_of_eq rfl]
    · rw [put_cons_of_ne h, lookup_cons_of_ne h, ih]

theorem lookup_put_of_ne {k : κ} {r : α} (hk : key r ≠ k) (rows : List α) :
    lookup key k (put key r rows) = lookup key k rows := by
  induction rows with
  | nil => rw [put_nil, lookup_cons_of_ne hk]
  | cons x rows ih =>
    by_cases h : key x = key r
    · have hx : key x ≠ k := h ▸ hk
      rw [put_cons_of_eq h, lookup_cons_of_ne hk, lookup_cons_of_ne hx]
    · rw [put_cons_of_ne h]
      by_cases hx : key x = k
      · rw [lookup_cons_of_eq hx, lookup_cons_of_eq hx]
      · rw [lookup_cons_of_ne hx, lookup_cons_of_ne hx, ih]

theorem mem_put {r x : α} {rows : List α} (h : x ∈ put key r rows) : x = r ∨ x ∈ rows := by
  induction rows with
  | nil => simpa [put_nil] using h
  | cons y rows ih =>
    by_cases hy : key y = key r
    · rw [put_cons_of_eq hy] at h
      rcases List.mem_cons.mp h with rfl | h
      · exact Or.inl rfl
      · exact Or.inr (List.mem_cons_of_mem _ h)
    · rw [put_cons_of_ne hy] at h
      rcases List.mem_cons.mp h with rfl | h
      · exact Or.inr List.mem_cons_self
      · rcases ih h with rfl | h
        · exact Or.inl rfl
        · exact Or.inr (List.mem_cons_of_mem _ h)

/-- With unique keys, a row that stays after `put` was not the replaced one. -/
theorem key_ne_of_mem_put {r x : α} {rows : List α} (hn : (rows.map key).Nodup)
    (h : x ∈ put key r rows) (hx : x ≠ r) : key x ≠ key r := by
  induction rows with
  | nil =>
    simp only [put_nil, List.mem_singleton] at h
    exact absurd h hx
  | cons y rows ih =>
    rw [List.map_cons, List.nodup_cons] at hn
    by_cases hy : key y = key r
    · rw [put_cons_of_eq hy] at h
      rcases List.mem_cons.mp h with rfl | h
      · exact absurd rfl hx
      · intro hk
        exact hn.1 (List.mem_map.mpr ⟨x, h, hk.trans hy.symm⟩)
    · rw [put_cons_of_ne hy] at h
      rcases List.mem_cons.mp h with rfl | h
      · exact hy
      · exact ih hn.2 h

theorem mem_map_key_put {k : κ} {r : α} {rows : List α} (h : k ∈ (put key r rows).map key) :
    k = key r ∨ k ∈ rows.map key := by
  obtain ⟨x, hx, rfl⟩ := List.mem_map.mp h
  rcases mem_put hx with rfl | hx
  · exact Or.inl rfl
  · exact Or.inr (List.mem_map_of_mem hx)

theorem nodup_put (r : α) {rows : List α} (hn : (rows.map key).Nodup) :
    ((put key r rows).map key).Nodup := by
  induction rows with
  | nil => simp [put_nil]
  | cons y rows ih =>
    rw [List.map_cons, List.nodup_cons] at hn
    by_cases hy : key y = key r
    · rw [put_cons_of_eq hy, List.map_cons, List.nodup_cons]
      exact ⟨hy ▸ hn.1, hn.2⟩
    · rw [put_cons_of_ne hy, List.map_cons, List.nodup_cons]
      refine ⟨fun hm => ?_, ih hn.2⟩
      rcases mem_map_key_put hm with hk | hk
      · exact hy hk
      · exact hn.1 hk

/-- A second column stays free of repetitions when the new row's value is new. -/
theorem nodup_map_put {ι : Type} {val : α → ι} {r : α} {rows : List α}
    (hn : (rows.map val).Nodup) (hnew : ∀ x ∈ rows, val x ≠ val r) :
    ((put key r rows).map val).Nodup := by
  induction rows with
  | nil => simp [put_nil]
  | cons y rows ih =>
    rw [List.map_cons, List.nodup_cons] at hn
    have hr : val r ∉ rows.map val := by
      intro hm
      obtain ⟨x, hx, he⟩ := List.mem_map.mp hm
      exact hnew x (List.mem_cons_of_mem _ hx) he
    by_cases hy : key y = key r
    · rw [put_cons_of_eq hy, List.map_cons, List.nodup_cons]
      exact ⟨hr, hn.2⟩
    · rw [put_cons_of_ne hy, List.map_cons, List.nodup_cons]
      refine ⟨fun hm => ?_, ih hn.2 (fun x hx => hnew x (List.mem_cons_of_mem _ hx))⟩
      obtain ⟨x, hx, he⟩ := List.mem_map.mp hm
      rcases mem_put hx with rfl | hx
      · exact hnew y List.mem_cons_self he.symm
      · exact hn.1 (List.mem_map.mpr ⟨x, hx, he⟩)

/-! ## `put` as a search for an index -/

theorem put_of_findIdx?_none {r : α} {rows : List α}
    (h : rows.findIdx? (fun x => decide (key x = key r)) = none) :
    put key r rows = rows ++ [r] := by
  induction rows with
  | nil => rfl
  | cons y rows ih =>
    rw [List.findIdx?_cons] at h
    by_cases hy : key y = key r
    · simp [hy] at h
    · have h' : rows.findIdx? (fun x => decide (key x = key r)) = none := by
        simpa [hy] using h
      rw [put_cons_of_ne hy, ih h', List.cons_append]

theorem put_of_findIdx?_some {r : α} {rows : List α} {i : Nat}
    (h : rows.findIdx? (fun x => decide (key x = key r)) = some i) :
    put key r rows = rows.set i r := by
  induction rows generalizing i with
  | nil => simp at h
  | cons y rows ih =>
    rw [List.findIdx?_cons] at h
    by_cases hy : key y = key r
    · have hi : i = 0 := by
        have := h
        simp [hy] at this
        exact this.symm
      rw [put_cons_of_eq hy, hi, List.set_cons_zero]
    · simp only [hy, decide_false, Bool.false_eq_true, if_false, Option.map_eq_some_iff] at h
      obtain ⟨j, hj, rfl⟩ := h
      rw [put_cons_of_ne hy, ih hj, List.set_cons_succ]

end Airoha.Lib
