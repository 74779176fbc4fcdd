/-
Airoha.Ppe.Clean — the loops that delete flows.

Translates `airoha_ppe_delete_entry`, and what the loops of the
`airoha_ppe_clean_entry_by_…` functions share: an entry that cannot be read is
passed over, so is one that is not in state BIND, and one that the test of the
function picks is deleted. The test may use what it kept from the entries
before. `commit` is what `airoha_ppe_foe_commit_entry` makes of an entry:
`stampCommit`, and when flow statistics are on it rewrites the meter and egress
fields besides. Whether the commit reached the SRAM nobody asks
(`PpeHw.Writable`). Not translated: the conntrack entries that some of the loops
delete beside a flow, and `foe_ext[entry_idx].lan_ifindex`.
-/
import Airoha.Lib.Sweep
import Airoha.Ppe.Foe

namespace Airoha.Ppe

open Airoha.Lib

/-! ## Deleting an entry -/

/-- State INVALID, put over the one there is. -/
def FoeEntry.invalidate (e : FoeEntry) : FoeEntry :=
  e.put 0 ((e.ib1 &&& ~~~mask 32 28 2) ||| fieldPrep 28 2 0#32)

/-- `airoha_ppe_delete_entry` -/
def airohaPpeDeleteEntry (hw : PpeHw) (commit : Nat → FoeEntry → FoeEntry) (entryIdx : Nat)
    (c : FoeCell) : FoeCell :=
  let hwe := commit entryIdx c.foe.invalidate
  { foe := hwe
    sram := if entryIdx < hw.sramNum ∧ hw.npu = true ∧ hw.writeAcks entryIdx = true then hwe
      else c.sram }

/-- `airoha_ppe_foe_commit_entry` of an entry of the table, without flow statistics. -/
def stampCommit (ts : BitVec 32) (_ : Nat) (e : FoeEntry) : FoeEntry :=
  let ib1 := (e.ib1 &&& ~~~mask 32 0 15) ||| fieldPrep 0 15 ts
  e.put 0
    (if e.state = .unbind then (ib1 &&& ~~~mask 32 28 2) ||| fieldPrep 28 2 2#32 else ib1)

/-- A commit leaves an invalid entry invalid: it sets BIND on unbound entries only. -/
def CommitKeeps (commit : Nat → FoeEntry → FoeEntry) : Prop :=
  ∀ i e, FoeEntry.state e = .invalid → (commit i e).state = .invalid

theorem ib1_stampCommit (ts : BitVec 32) (i : Nat) (e : FoeEntry) :
    (stampCommit ts i e).ib1 =
      if e.state = .unbind then
        (((e.ib1 &&& ~~~mask 32 0 15) ||| fieldPrep 0 15 ts) &&& ~~~mask 32 28 2) |||
          fieldPrep 28 2 2#32
      else (e.ib1 &&& ~~~mask 32 0 15) ||| fieldPrep 0 15 ts :=
  FoeEntry.ib1_put_zero e _

/-- A commit binds unbound entries only. -/
theorem state_stampCommit (ts : BitVec 32) (i : Nat) {e : FoeEntry} (h : e.state ≠ .unbind) :
    (stampCommit ts i e).state = e.state := by
  rw [FoeEntry.state, ib1_stampCommit, if_neg h, fieldGet_or,
    fieldGet_clear_of_disjoint (Or.inr (by decide)),
    fieldGet_fieldPrep_of_disjoint (Or.inr (by decide)), BitVec.or_zero, FoeEntry.state]

theorem commitKeeps_stampCommit (ts : BitVec 32) : CommitKeeps (stampCommit ts) := by
  intro i e h
  have hne : e.state ≠ .unbind := by
    rw [h]
    decide
  rw [state_stampCommit ts i hne, h]

/-! ## The loop -/

section Loop

variable {κ : Type}

/-- One round. `judge` is the test of the function: none for `continue`. -/
def cleanRound (hw : PpeHw) (commit : Nat → FoeEntry → FoeEntry)
    (judge : κ → FoeEntry → Option (κ × Bool)) (idx : Nat) (k : κ) (c : FoeCell) :
    Option (κ × FoeCell) :=
  match airohaPpeFoeGetEntry hw idx c with
  | none => some (k, c)
  | some c =>
      if c.foe.state ≠ .bind then some (k, c)
      else
        match judge k c.foe with
        | none => some (k, c)
        | some (k, true) => some (k, airohaPpeDeleteEntry hw commit idx c)
        | some (k, false) => some (k, c)

/-- The loop over all entries. -/
def cleanWhere (hw : PpeHw) (commit : Nat → FoeEntry → FoeEntry)
    (judge : κ → FoeEntry → Option (κ × Bool)) (k : κ) (t : Nat → FoeCell) : Nat → FoeCell :=
  sweep (cleanRound hw commit judge) 0 hw.numEntries k t

end Loop

/-! ## What the loop does -/

theorem FoeEntry.state_invalidate (e : FoeEntry) : e.invalidate.state = .invalid := by
  have hib1 : e.invalidate.ib1 = (e.ib1 &&& ~~~mask 32 28 2) ||| fieldPrep 28 2 0#32 :=
    Vector.getElem_set_self _
  have hzero : fieldPrep 28 2 0#32 = 0#32 := by decide
  rw [FoeEntry.state, hib1, hzero, fieldGet_or, fieldGet_clear_self]
  decide

theorem deleted_ne {commit : Nat → FoeEntry → FoeEntry} (hc : CommitKeeps commit) {i : Nat}
    {e : FoeEntry} (h : e.state = .bind) : commit i e.invalidate ≠ e := by
  intro heq
  have hstate := hc i e.invalidate e.state_invalidate
  rw [heq, h] at hstate
  exact absurd hstate (by decide)

section Loop

variable {κ : Type} {hw : PpeHw} {commit : Nat → FoeEntry → FoeEntry}
  {judge : κ → FoeEntry → Option (κ × Bool)} {t t' : Nat → FoeCell} {i : Nat} {k : κ} {c : FoeCell}

/-- What the test keeps behind an entry. -/
def nextKept (hw : PpeHw) (judge : κ → FoeEntry → Option (κ × Bool)) (i : Nat) (k : κ)
    (c : FoeCell) : κ :=
  if hw.Readable i ∧ (c.entry hw i).state = .bind then
    ((judge k (c.entry hw i)).map Prod.fst).getD k
  else k

/-- The round picks the entry. -/
def Picks (hw : PpeHw) (judge : κ → FoeEntry → Option (κ × Bool)) (i : Nat) (k : κ)
    (e : FoeEntry) : Prop :=
  hw.Readable i ∧ e.state = .bind ∧ (judge k e).map Prod.snd = some true

instance (hw : PpeHw) (judge : κ → FoeEntry → Option (κ × Bool)) (i : Nat) (k : κ) (e : FoeEntry) :
    Decidable (Picks hw judge i k e) :=
  inferInstanceAs (Decidable (_ ∧ _ ∧ _))

/-- The round deletes the entry: it picks it, and the commit is not lost. -/
def Deletes (hw : PpeHw) (judge : κ → FoeEntry → Option (κ × Bool)) (i : Nat) (k : κ)
    (e : FoeEntry) : Prop :=
  hw.Writable i ∧ Picks hw judge i k e

instance (hw : PpeHw) (judge : κ → FoeEntry → Option (κ × Bool)) (i : Nat) (k : κ) (e : FoeEntry) :
    Decidable (Deletes hw judge i k e) :=
  inferInstanceAs (Decidable (_ ∧ _))

theorem entry_deleteEntry :
    (airohaPpeDeleteEntry hw commit i c).entry hw i =
      if hw.Writable i then commit i c.foe.invalidate else c.entry hw i := by
  unfold airohaPpeDeleteEntry PpeHw.Writable FoeCell.entry
  by_cases hs : i < hw.sramNum
  · simp [hs]
  · simp [hs]

theorem cleanRound_spec (hw : PpeHw) (commit : Nat → FoeEntry → FoeEntry)
    (judge : κ → FoeEntry → Option (κ × Bool)) (i : Nat) (k : κ) (c : FoeCell) :
    ∃ c', cleanRound hw commit judge i k c = some (nextKept hw judge i k c, c') ∧
      c'.entry hw i = if Deletes hw judge i k (c.entry hw i) then commit i (c.entry hw i).invalidate
        else c.entry hw i := by
  by_cases hr : hw.Readable i
  · obtain ⟨c1, hget, hfoe, hentry⟩ := airohaPpeFoeGetEntry_of_readable (c := c) hr
    rw [cleanRound, hget]
    by_cases hb : (c.entry hw i).state = .bind
    · by_cases hp : Picks hw judge i k (c.entry hw i)
      · obtain ⟨⟨k', del⟩, hj, hdel⟩ := Option.map_eq_some_iff.mp hp.2.2
        simp only at hdel
        subst hdel
        refine ⟨airohaPpeDeleteEntry hw commit i c1, by simp [nextKept, hfoe, hr, hb, hj], ?_⟩
        rw [entry_deleteEntry, hfoe, hentry]
        simp only [Deletes, hp, and_true]
      · refine ⟨c1, ?_, by rw [if_neg fun hd => hp hd.2, hentry]⟩
        cases hj : judge k (c.entry hw i) with
        | none => simp [nextKept, hfoe, hb, hj]
        | some r =>
          obtain ⟨k', del⟩ := r
          have hdel : del = false := by
            cases del with
            | true => exact absurd ⟨hr, hb, by rw [hj]; rfl⟩ hp
            | false => rfl
          subst hdel
          simp [nextKept, hfoe, hr, hb, hj]
    · refine ⟨c1, by simp [nextKept, hfoe, hb], ?_⟩
      rw [if_neg fun hd => hb hd.2.2.1, hentry]
  · refine ⟨c, ?_, by rw [if_neg fun hd => hr hd.2.1]⟩
    rw [cleanRound, airohaPpeFoeGetEntry_of_not_readable hr]
    simp [nextKept, hr]

/-- What the test has kept when the loop comes to entry `i`. -/
def keptAt (hw : PpeHw) (judge : κ → FoeEntry → Option (κ × Bool)) (k : κ) (t : Nat → FoeCell) :
    Nat → κ
  | 0 => k
  | i + 1 => nextKept hw judge i (keptAt hw judge k t i) (t i)

theorem carried_cleanRound : ∀ i : Nat,
    carried (cleanRound hw commit judge) t 0 i k = some (keptAt hw judge k t i)
  | 0 => rfl
  | i + 1 => by
      obtain ⟨c', hround, -⟩ := cleanRound_spec hw commit judge i (keptAt hw judge k t i) (t i)
      rw [carried_zero_succ, carried_cleanRound i, Option.bind_some, hround,
        Option.map_some, keptAt]

/-- An entry is deleted when the test picks it and the commit is not lost. -/
theorem entry_cleanWhere (hi : i < hw.numEntries) :
    (cleanWhere hw commit judge k t i).entry hw i =
      if Deletes hw judge i (keptAt hw judge k t i) ((t i).entry hw i) then
        commit i ((t i).entry hw i).invalidate
      else (t i).entry hw i := by
  obtain ⟨c', hround, hentry⟩ := cleanRound_spec hw commit judge i (keptAt hw judge k t i) (t i)
  rw [cleanWhere, sweep_zero hi, carried_cleanRound, ← hentry]
  simp [outcome, hround]

end Loop

end Airoha.Ppe
