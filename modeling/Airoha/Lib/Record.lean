/-
Airoha.Lib.Record — the records of a scan.

A scan over the positions 0, 1, 2 … keeps one of them. A position that `offers`
itself replaces the one that is kept if it `beats` it, and is then a record.
`lastRecord n` is the position kept after the first `n`. For a relation that is
transitive a record beats all the records before it (`isRecord_iff`), and a
record stays for good if nothing after it that offers itself beats it
(`lastRecord_eq_some_iff`), and then nothing at all beats it if nothing beats
itself (`not_beats_lastRecord`); whether there is a record at all does not depend on
the relation (`lastRecord_eq_none_iff`).
-/
import Mathlib.Data.Option.Basic
import Mathlib.Logic.Basic

namespace Airoha.Lib

variable (offers : Nat → Prop) (beats : Nat → Nat → Prop)
  [DecidablePred offers] [DecidableRel beats]

/-- The position that is kept after the first `n`. -/
def lastRecord : Nat → Option Nat
  | 0 => none
  | n + 1 => if offers n ∧ ∀ k ∈ lastRecord n, beats k n then some n else lastRecord n

/-- The position is kept when the scan comes to it. -/
def IsRecord (n : Nat) : Prop := offers n ∧ ∀ k ∈ lastRecord offers beats n, beats k n

variable {offers beats} {k n : Nat}

theorem lastRecord_succ_of_record (h : IsRecord offers beats n) :
    lastRecord offers beats (n + 1) = some n :=
  if_pos h

theorem lastRecord_succ_of_not (h : ¬ IsRecord offers beats n) :
    lastRecord offers beats (n + 1) = lastRecord offers beats n :=
  if_neg h

variable (offers beats) in
/-- What is kept is the latest record. -/
theorem lastRecord_spec (n : Nat) :
    (∃ k < n, lastRecord offers beats n = some k ∧ IsRecord offers beats k ∧
      ∀ j, k < j → j < n → ¬ IsRecord offers beats j) ∨
      lastRecord offers beats n = none ∧ ∀ j < n, ¬ IsRecord offers beats j := by
  induction n with
  | zero => exact .inr ⟨rfl, fun j hj => absurd hj (Nat.not_lt_zero j)⟩
  | succ n ih =>
    by_cases h : IsRecord offers beats n
    · exact .inl ⟨n, Nat.lt_succ_self n, lastRecord_succ_of_record h, h, fun j hj hjn => by omega⟩
    · rw [lastRecord_succ_of_not h]
      rcases ih with ⟨k, hk, hlast, hrec, hafter⟩ | ⟨hnone, hall⟩
      · refine .inl ⟨k, Nat.lt_succ_of_lt hk, hlast, hrec, fun j hkj hj => ?_⟩
        rcases Nat.lt_succ_iff_lt_or_eq.mp hj with hj | rfl
        · exact hafter j hkj hj
        · exact h
      · refine .inr ⟨hnone, fun j hj => ?_⟩
        rcases Nat.lt_succ_iff_lt_or_eq.mp hj with hj | rfl
        · exact hall j hj
        · exact h

/-- A record beats all the records before it, not only the last. -/
theorem isRecord_iff (htrans : ∀ i j k, beats i j → beats j k → beats i k) :
    IsRecord offers beats n ↔ offers n ∧ ∀ k < n, IsRecord offers beats k → beats k n := by
  induction n using Nat.strongRecOn with
  | ind n ih =>
    rcases lastRecord_spec offers beats n with
      ⟨l, hl, hlast, hrec, hafter⟩ | ⟨hnone, hall⟩
    · constructor
      · rintro ⟨hoffers, hbeats⟩
        refine ⟨hoffers, fun k hk hkrec => ?_⟩
        have hln : beats l n := hbeats l hlast
        rcases Nat.lt_trichotomy k l with hkl | rfl | hlk
        · exact htrans _ _ _ (((ih l hl).mp hrec).2 k hkl hkrec) hln
        · exact hln
        · exact absurd hkrec (hafter k hlk hk)
      · rintro ⟨hoffers, hbeats⟩
        refine ⟨hoffers, fun k hk => ?_⟩
        rw [hlast] at hk
        obtain rfl : l = k := Option.some.inj hk
        exact hbeats l hl hrec
    · constructor
      · rintro ⟨hoffers, -⟩
        exact ⟨hoffers, fun k hk hkrec => absurd hkrec (hall k hk)⟩
      · rintro ⟨hoffers, -⟩
        refine ⟨hoffers, fun k hk => ?_⟩
        rw [hnone] at hk
        cases hk

/-- The position kept in the end is the record that nothing after it beats. -/
theorem lastRecord_eq_some_iff (htrans : ∀ i j k, beats i j → beats j k → beats i k) :
    lastRecord offers beats n = some k ↔
      k < n ∧ IsRecord offers beats k ∧ ∀ j, k < j → j < n → ¬ (offers j ∧ beats k j) := by
  constructor
  · intro h
    rcases lastRecord_spec offers beats n with
      ⟨l, hl, hlast, hrec, hafter⟩ | ⟨hnone, -⟩
    · obtain rfl : l = k := Option.some.inj (hlast.symm.trans h)
      refine ⟨hl, hrec, ?_⟩
      rintro j hlj hj ⟨hoffers, hbeats⟩
      refine hafter j hlj hj ((isRecord_iff htrans).mpr ⟨hoffers, fun i hi hirec => ?_⟩)
      rcases Nat.lt_trichotomy i l with hil | rfl | hli
      · exact htrans _ _ _ (((isRecord_iff htrans).mp hrec).2 i hil hirec) hbeats
      · exact hbeats
      · exact absurd hirec (hafter i hli (Nat.lt_trans hi hj))
    · rw [hnone] at h
      cases h
  · rintro ⟨hk, hrec, hafter⟩
    rcases lastRecord_spec offers beats n with
      ⟨l, hl, hlast, hlrec, hlafter⟩ | ⟨-, hall⟩
    · rcases Nat.lt_trichotomy l k with hlk | rfl | hkl
      · exact absurd hrec (hlafter k hlk hk)
      · exact hlast
      · have hbeats := ((isRecord_iff htrans).mp hlrec).2 k hkl hrec
        exact absurd ⟨hlrec.1, hbeats⟩ (hafter l hkl hl)
    · exact absurd hrec (hall k hk)

/-- Nothing that offers itself beats the position kept in the end, before it or after it. -/
theorem not_beats_lastRecord (htrans : ∀ i j k, beats i j → beats j k → beats i k)
    (hirrefl : ∀ i, ¬ beats i i) (h : lastRecord offers beats n = some k) :
    ∀ j < n, offers j → ¬ beats k j := by
  obtain ⟨-, hrec, hafter⟩ := (lastRecord_eq_some_iff htrans).mp h
  have hbefore := ((isRecord_iff htrans).mp hrec).2
  intro j hj hoffers hbeats
  rcases Nat.lt_trichotomy j k with hjk | rfl | hkj
  · have hjrec : IsRecord offers beats j := (isRecord_iff htrans).mpr
      ⟨hoffers, fun i hi hirec => htrans _ _ _ (hbefore i (Nat.lt_trans hi hjk) hirec) hbeats⟩
    exact hirrefl j (htrans _ _ _ (hbefore j hjk hjrec) hbeats)
  · exact hirrefl j hbeats
  · exact hafter j hkj hj ⟨hoffers, hbeats⟩

theorem lastRecord_eq_none_iff : lastRecord offers beats n = none ↔ ∀ j < n, ¬ offers j := by
  constructor
  · intro h
    induction n with
    | zero => exact fun j hj => absurd hj (Nat.not_lt_zero j)
    | succ n ih =>
      by_cases hrec : IsRecord offers beats n
      · rw [lastRecord_succ_of_record hrec] at h
        cases h
      · rw [lastRecord_succ_of_not hrec] at h
        intro j hj hoffers
        rcases Nat.lt_succ_iff_lt_or_eq.mp hj with hj | rfl
        · exact ih h j hj hoffers
        · exact hrec ⟨hoffers, fun k hk => by rw [h] at hk; cases hk⟩
  · intro h
    rcases lastRecord_spec offers beats n with ⟨l, hl, -, hrec, -⟩ | ⟨hnone, -⟩
    · exact absurd hrec.1 (h l hl)
    · exact hnone

end Airoha.Lib
