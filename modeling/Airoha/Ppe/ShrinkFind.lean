/-
Airoha.Ppe.ShrinkFind — a search of the shrink table finds or inserts.

The loop of `find_and_update_shrink_table` looks for the content, expires
slots and picks a victim at once. `searchLoop_spec` takes the three apart:
the match is the first slot that holds the content, the victim the first
that can be taken, and the slots passed before the match are expired.
`findRow_row` then gives every slot after the call, and
`findAndUpdateShrinkTable_findOrInsert` the table and the engine's copy of
it.
-/
import Airoha.Ppe.ShrinkReuse
import Airoha.Ppe.Updmem

namespace Airoha.Ppe

open Airoha.Lib

/-! ## The search -/

section Find

variable {α : Type} {jiffies : BitVec 64} {content : α} {row : Nat → Slot α}

/-- The slot can be taken: invalid, or timed out. -/
def Takeable (jiffies : BitVec 64) (row : Nat → Slot α) (k : Nat) : Bool :=
  !((row k).expire jiffies).valid

/-- The slot a search without a match writes. -/
def victim (jiffies : BitVec 64) (row : Nat → Slot α) : Option Nat :=
  scanUp (Takeable jiffies row) 0 updmemNum

theorem takeable_iff {k : Nat} : Takeable jiffies row k = true ↔
    (row k).valid = false ∨ (row k).timedOut jiffies = true := by
  unfold Takeable Slot.expire
  cases hv : (row k).valid <;> cases ht : (row k).timedOut jiffies <;> simp [hv]

theorem victim_eq_some_iff {m : Nat} : victim jiffies row = some m ↔
    m < updmemNum ∧ Takeable jiffies row m = true ∧ ∀ k < m, Takeable jiffies row k = false := by
  rw [victim, scanUp_eq_some_iff]
  simp

variable [DecidableEq α]

/-- The slot is a match. -/
def Matches (content : α) (row : Nat → Slot α) (k : Nat) : Bool :=
  (row k).valid && (row k).content == content

/-- The first matching slot. -/
def firstMatch (content : α) (row : Nat → Slot α) : Option Nat :=
  scanUp (Matches content row) 0 updmemNum

/-- What the search loop ends with, when it starts without a match and the slots from `index` on
are those of `row`. -/
structure SearchDone (jiffies : BitVec 64) (content : α) (row : Nat → Slot α)
    (index n : Nat) (s r : Search α) : Prop where
  found : r.found = scanUp (Matches content row) index n
  row_eq : ∀ k, r.row k =
    if index ≤ k ∧ k < r.found.getD (index + n) then (row k).expire jiffies else s.row k
  taken : r.found = none → s.invldIdx < index → r.invldIdx = s.invldIdx
  free : r.found = none → s.invldIdx = updmemNum →
    r.invldIdx = (scanUp (Takeable jiffies row) index n).getD updmemNum

theorem searchLoop_spec : ∀ (n index : Nat) (s : Search α), index + n ≤ updmemNum → s.found = none →
    (∀ k, index ≤ k → s.row k = row k) →
      SearchDone jiffies content row index n s (searchLoop jiffies content index n s) := by
  intro n
  induction n with
  | zero =>
    intro index s _ hfound _
    refine ⟨hfound, fun k => ?_, fun _ _ => rfl, fun _ h => h⟩
    have h : ¬ (index ≤ k ∧ k < (searchLoop jiffies content index 0 s).found.getD (index + 0)) := by
      rw [searchLoop, hfound, Option.getD_none]
      omega
    rw [if_neg h, searchLoop]
  | succ n ih =>
    intro index s hn hfound hrow
    have hself := hrow index (Nat.le_refl index)
    rw [searchLoop, hself]
    cases hm : Matches content row index with
    | true =>
      have hcond : ((row index).valid && (row index).content == content) = true := hm
      rw [if_pos hcond]
      refine ⟨?_, fun k => ?_, nofun, nofun⟩
      · rw [scanUp, if_pos hm]
      · have h : ¬ (index ≤ k ∧ k < (some index).getD (index + (n + 1))) := by
          rw [Option.getD_some]
          omega
        rw [if_neg h]
    | false =>
      have hcond : ¬ ((row index).valid && (row index).content == content) = true := by
        rw [Matches] at hm
        rw [hm]
        exact Bool.false_ne_true
      rw [if_neg hcond]
      dsimp only
      have hstep := ih (index + 1)
        { row := Function.update s.row index ((row index).expire jiffies), found := none,
          invldIdx := if (Function.update s.row index ((row index).expire jiffies) index).valid =
            false ∧ index < s.invldIdx then index else s.invldIdx } (by omega) rfl (by
          intro k hk
          have hne : k ≠ index := by omega
          simp only [Function.update_of_ne hne]
          exact hrow k (by omega))
      have hscan : scanUp (Matches content row) index (n + 1) =
          scanUp (Matches content row) (index + 1) n := by
        rw [scanUp, if_neg (by rw [hm]; exact Bool.false_ne_true)]
      refine ⟨hstep.found.trans hscan.symm, fun k => ?_, fun hnone hlt => ?_, fun hnone hfree => ?_⟩
      · rw [hstep.row_eq k]
        have hend : index + 1 + n = index + (n + 1) := by omega
        rw [hend]
        have hlow : ∀ m, scanUp (Matches content row) (index + 1) n = some m → index < m := by
          intro m hscan'
          have := (scanUp_eq_some_iff.mp hscan').1
          omega
        rcases eq_or_ne k index with rfl | hne
        · have h1 : ¬ (k + 1 ≤ k ∧
              k < (scanUp (Matches content row) (k + 1) n).getD (k + (n + 1))) := by omega
          have h2 : k ≤ k ∧ k < (scanUp (Matches content row) (k + 1) n).getD (k + (n + 1)) := by
            refine ⟨Nat.le_refl k, ?_⟩
            cases hs : scanUp (Matches content row) (k + 1) n with
            | none =>
              rw [Option.getD_none]
              omega
            | some m => exact hlow m hs
          rw [hstep.found, if_neg h1, if_pos h2]
          exact Function.update_self _ _ _
        · have h1 : index + 1 ≤ k ↔ index ≤ k := by omega
          simp only [h1, Function.update_of_ne hne]
      · have hne : ¬ index < s.invldIdx := by omega
        have hsame := hstep.taken hnone
        simp only [hne, and_false, if_false] at hsame hnone ⊢
        exact hsame (by omega)
      · have hlt : index < s.invldIdx := by
          rw [hfree]
          omega
        cases ht : Takeable jiffies row index with
        | true =>
          have hval : (Function.update s.row index ((row index).expire jiffies) index).valid =
              false := by
            rw [Function.update_self]
            rw [Takeable, Bool.not_eq_true'] at ht
            exact ht
          have hsame := hstep.taken hnone
          simp only [hval, hlt, and_self, if_true] at hsame ⊢
          rw [hsame (Nat.lt_succ_self index), scanUp, if_pos ht, Option.getD_some]
        | false =>
          have hval : ¬ (Function.update s.row index ((row index).expire jiffies) index).valid =
              false := by
            rw [Function.update_self]
            rw [Takeable, Bool.not_eq_false'] at ht
            rw [ht]
            exact fun h => Bool.false_ne_true h.symm
          rw [hstep.free hnone (by rw [if_neg fun h => hval h.1]; exact hfree), scanUp,
            if_neg (by rw [ht]; exact Bool.false_ne_true)]

theorem firstMatch_eq_some_iff {m : Nat} : firstMatch content row = some m ↔
    m < updmemNum ∧ Matches content row m = true ∧ ∀ k < m, Matches content row k = false := by
  rw [firstMatch, scanUp_eq_some_iff]
  simp

theorem firstMatch_eq_none_iff : firstMatch content row = none ↔
    ∀ k < updmemNum, Matches content row k = false := by
  rw [firstMatch, scanUp_eq_none_iff]
  simp

/-! ## `findRow` -/

variable {maxEntries foeIdx : Nat}

/-- The search passes slot `k`. -/
def Passed (content : α) (row : Nat → Slot α) (k : Nat) : Prop :=
  k < (firstMatch content row).getD updmemNum

instance (k : Nat) : Decidable (Passed content row k) :=
  inferInstanceAs (Decidable (k < (firstMatch content row).getD updmemNum))

/-- What the loop leaves of slot `k`. -/
def searched (jiffies : BitVec 64) (content : α) (row : Nat → Slot α) (k : Nat) : Slot α :=
  if Passed content row k then (row k).expire jiffies else row k

/-- The loop as `findRow` runs it. -/
structure Searched (jiffies : BitVec 64) (content : α) (row : Nat → Slot α) (r : Search α) :
    Prop where
  found : r.found = firstMatch content row
  row_eq : ∀ k, r.row k = searched jiffies content row k
  invldIdx : r.found = none → r.invldIdx = (victim jiffies row).getD updmemNum

theorem searchLoop_searched (jiffies : BitVec 64) (content : α) (row : Nat → Slot α) :
    Searched jiffies content row (searchLoop jiffies content 0 updmemNum
      { row := row, found := none, invldIdx := updmemNum }) := by
  have hdone : SearchDone jiffies content row 0 updmemNum
      { row := row, found := none, invldIdx := updmemNum } _ :=
    searchLoop_spec updmemNum 0 _ (by decide) rfl fun _ _ => rfl
  refine ⟨hdone.found, fun k => ?_, fun hnone => hdone.free hnone rfl⟩
  rw [hdone.row_eq k, hdone.found]
  unfold searched Passed firstMatch
  rw [Nat.zero_add]
  simp only [Nat.zero_le, true_and]
  rfl

/-- What `findRow` returns: the match or else the victim, made the most recent and, if it was
the victim, written. -/
structure FoundDone (maxEntries : Nat) (jiffies : BitVec 64) (content : α) (foeIdx : Nat)
    (row : Nat → Slot α) (r : Found α) : Prop where
  index : r.index = (firstMatch content row).or (victim jiffies row)
  wrote : r.wrote = ((firstMatch content row).isNone && (victim jiffies row).isSome)
  row_eq : ∀ k, r.row k = if r.index = some k then
    ({ row k with content := content } : Slot α).use maxEntries jiffies foeIdx
    else searched jiffies content row k

theorem findRow_done (maxEntries : Nat) (jiffies : BitVec 64) (content : α) (foeIdx : Nat)
    (row : Nat → Slot α) : FoundDone maxEntries jiffies content foeIdx row
      (findRow maxEntries jiffies content foeIdx row) := by
  have hs := searchLoop_searched jiffies content row
  unfold findRow
  generalize searchLoop jiffies content 0 updmemNum
    { row := row, found := none, invldIdx := updmemNum } = s at hs
  dsimp only
  cases hm : firstMatch content row with
  | some m =>
    have hfound : s.found = some m := hs.found.trans hm
    obtain ⟨-, hmatch, -⟩ := firstMatch_eq_some_iff.mp hm
    rw [hfound]
    refine ⟨by simp [hm], by simp [hm], fun k => ?_⟩
    rcases eq_or_ne k m with rfl | hne
    · have hnot : ¬ Passed content row k := by
        unfold Passed
        rw [hm, Option.getD_some]
        exact Nat.lt_irrefl k
      have hcontent : (row k).content = content := by
        rw [Matches, Bool.and_eq_true, beq_iff_eq] at hmatch
        exact hmatch.2
      rw [if_pos rfl]
      dsimp only
      rw [Function.update_self, hs.row_eq k, searched, if_neg hnot, ← hcontent]
    · have hne' : ¬ some m = some k := fun h => hne (Option.some.inj h).symm
      rw [if_neg hne']
      dsimp only
      rw [Function.update_of_ne hne, hs.row_eq k]
  | none =>
    have hfound : s.found = none := hs.found.trans hm
    have hinv := hs.invldIdx hfound
    rw [hfound]
    dsimp only
    cases hv : victim jiffies row with
    | none =>
      rw [hv, Option.getD_none] at hinv
      rw [if_pos hinv]
      exact ⟨by simp [hm, hv], by simp [hm, hv], fun k => by simp [hs.row_eq k]⟩
    | some v =>
      rw [hv, Option.getD_some] at hinv
      obtain ⟨hlt, -, -⟩ := victim_eq_some_iff.mp hv
      have hne : s.invldIdx ≠ updmemNum := by
        rw [hinv]
        exact Nat.ne_of_lt hlt
      rw [if_neg hne, hinv]
      refine ⟨by simp [hm, hv], by simp [hm, hv], fun k => ?_⟩
      rcases eq_or_ne k v with rfl | hkv
      · rw [if_pos rfl]
        dsimp only
        rw [Function.update_self, hs.row_eq k]
        unfold searched Slot.expire Slot.use
        split
        · split <;> rfl
        · rfl
      · have hne' : ¬ some v = some k := fun h => hkv (Option.some.inj h).symm
        rw [if_neg hne']
        dsimp only
        rw [Function.update_of_ne hkv, hs.row_eq k]

end Find

/-! ## One slot after a search -/

section Row

variable {α : Type} {maxEntries foeIdx : Nat} {jiffies : BitVec 64} {content : α}
  {row : Nat → Slot α}

@[simp] theorem expire_content (e : Slot α) : (e.expire jiffies).content = e.content := by
  unfold Slot.expire
  split <;> rfl

@[simp] theorem expire_pinned (e : Slot α) : (e.expire jiffies).pinned = e.pinned := by
  unfold Slot.expire
  split <;> rfl

theorem expire_valid (e : Slot α) : (e.expire jiffies).valid = true ↔
    e.valid = true ∧ e.timedOut jiffies = false := by
  unfold Slot.expire
  cases hv : e.valid <;> cases ht : e.timedOut jiffies <;> simp [hv]

@[simp] theorem use_timedOut (e : Slot α) :
    (e.use maxEntries jiffies foeIdx).timedOut jiffies = false :=
  timedOut_fresh rfl

variable [DecidableEq α]

@[simp] theorem searched_content (k : Nat) :
    (searched jiffies content row k).content = (row k).content := by
  unfold searched
  split
  · exact expire_content _
  · rfl

@[simp] theorem searched_pinned (k : Nat) :
    (searched jiffies content row k).pinned = (row k).pinned := by
  unfold searched
  split
  · exact expire_pinned _
  · rfl

theorem searched_valid {k : Nat} : (searched jiffies content row k).valid = true ↔
    (row k).valid = true ∧ (Passed content row k → (row k).timedOut jiffies = false) := by
  unfold searched
  split
  · rename_i h
    simp [expire_valid, h]
  · rename_i h
    simp [h]

namespace FoundDone

variable {r : Found α} (h : FoundDone maxEntries jiffies content foeIdx row r)

include h

theorem row_self {k : Nat} (hk : r.index = some k) :
    r.row k = ({ row k with content := content } : Slot α).use maxEntries jiffies foeIdx := by
  rw [h.row_eq k, if_pos hk]

theorem row_other {k : Nat} (hk : r.index ≠ some k) :
    r.row k = searched jiffies content row k := by
  rw [h.row_eq k, if_neg hk]

theorem index_lt {k : Nat} (hk : r.index = some k) : k < updmemNum := by
  rw [h.index, Option.or_eq_some_iff] at hk
  rcases hk with hk | ⟨-, hk⟩
  · exact (firstMatch_eq_some_iff.mp hk).1
  · exact (victim_eq_some_iff.mp hk).1

theorem pinned (k : Nat) : (r.row k).pinned = (row k).pinned := by
  rcases Classical.em (r.index = some k) with hk | hk
  · rw [h.row_self hk]
    rfl
  · rw [h.row_other hk, searched_pinned]

theorem content_of_ne {k : Nat} (hk : r.index ≠ some k) : (r.row k).content = (row k).content := by
  rw [h.row_other hk, searched_content]

/-- A slot in use that is pinned is not the victim. -/
theorem content_of_pinned {k : Nat} (hpin : (row k).pinned = true) (hvalid : (row k).valid = true) :
    (r.row k).content = (row k).content := by
  rcases Classical.em (r.index = some k) with hk | hk
  · rw [h.row_self hk]
    rw [h.index, Option.or_eq_some_iff] at hk
    rcases hk with hk | ⟨-, hk⟩
    · have hmatch := (firstMatch_eq_some_iff.mp hk).2.1
      rw [Matches, Bool.and_eq_true, beq_iff_eq] at hmatch
      exact hmatch.2.symm
    · have htake := takeable_iff.mp (victim_eq_some_iff.mp hk).2.1
      rw [timedOut_iff, hvalid, hpin] at htake
      simp at htake
  · exact h.content_of_ne hk

theorem valid_of_pinned {k : Nat} (hpin : (row k).pinned = true) (hvalid : (row k).valid = true) :
    (r.row k).valid = true := by
  rcases Classical.em (r.index = some k) with hk | hk
  · rw [h.row_self hk]
    rfl
  · rw [h.row_other hk, searched_valid]
    refine ⟨hvalid, fun _ => ?_⟩
    simp [Slot.timedOut, hpin]

/-- Where the search found nothing, nothing is found after it, the slot returned apart. -/
theorem matches_of_ne {k : Nat} (hk : r.index ≠ some k) (hno : Matches content row k = false) :
    Matches content r.row k = false := by
  cases hmatch : Matches content r.row k with
  | false => rfl
  | true =>
    rw [Matches, Bool.and_eq_true, beq_iff_eq, h.row_other hk, searched_content,
      searched_valid] at hmatch
    simp [Matches, hmatch.1.1, hmatch.2] at hno

/-- The slots below the one returned do not match. -/
theorem no_match_below {k m : Nat} (hm : r.index = some m) (hk : k < m) :
    Matches content row k = false := by
  have hlt := h.index_lt hm
  rw [h.index, Option.or_eq_some_iff] at hm
  rcases hm with hm | ⟨hnone, -⟩
  · exact (firstMatch_eq_some_iff.mp hm).2.2 k hk
  · exact firstMatch_eq_none_iff.mp hnone k (by omega)

end FoundDone

end Row

/-! ## The call -/

/-- The slots that hold the content. -/
def Holding {α : Type} (content : α) (row : Nat → Slot α) : Set Nat :=
  {k | k < updmemNum ∧ (row k).valid = true ∧ (row k).content = content}

/-- The slots that are not in use, or can be given up. -/
def Free {α : Type} (jiffies : BitVec 64) (row : Nat → Slot α) : Set Nat :=
  {k | k < updmemNum ∧ ((row k).valid = false ∨ (row k).pinned = false ∧
    timeAfter jiffies ((row k).timestamp + timeOutVal) = true)}

/-- No slot has other contents than before, in software and in the engine, but the excepted. -/
def SameBut (except : Select → Nat → Prop) (s s' : Shrink) : Prop :=
  ∀ select, ∀ k < updmemNum, ¬ except select k →
    (s'.shnkTbl select k).content = (s.shnkTbl select k).content ∧
      s'.updmem.content k select = s.updmem.content k select

/-- The call finds the content or inserts it: `ret` is what it returns, `again` what the same
call returns right after it. -/
structure FindOrInsert (jiffies : BitVec 64) (select : Select) (field : ShrinkField) (s s' : Shrink)
    (ret : Option Nat) (again : Nat → (Nat → Option FoeState) → BitVec 64 → Option Nat) : Prop where
  hit : ∀ m, IsLeast (Holding (field.content select) (s.shnkTbl select)) m →
    ret = some m ∧ SameBut (fun _ _ => False) s s'
  insert : Holding (field.content select) (s.shnkTbl select) = ∅ →
    ∀ v, IsLeast (Free jiffies (s.shnkTbl select)) v →
      ret = some v ∧ (s'.shnkTbl select v).content = field.content select ∧
        s'.updmem.content v select = field.content select ∧
        SameBut (fun select' k => select' = select ∧ k = v) s s'
  full : Holding (field.content select) (s.shnkTbl select) = ∅ →
    Free jiffies (s.shnkTbl select) = ∅ → ret = none ∧ SameBut (fun _ _ => False) s s'
  pinned : ∀ select', ∀ k < updmemNum, (s.shnkTbl select' k).pinned = true →
    (s.shnkTbl select' k).valid = true → (s'.shnkTbl select' k).pinned = true ∧
      (s'.shnkTbl select' k).valid = true ∧
      (s'.shnkTbl select' k).content = (s.shnkTbl select' k).content
  twice : ∀ r, ret = some r → ∀ maxEntries foe jiffies', again maxEntries foe jiffies' = some r

theorem firstMatch_iff_isLeast {α : Type} [DecidableEq α] {content : α} {row : Nat → Slot α}
    {m : Nat} : firstMatch content row = some m ↔ IsLeast (Holding content row) m := by
  rw [firstMatch_eq_some_iff]
  constructor
  · rintro ⟨hlt, hm, hmin⟩
    rw [Matches, Bool.and_eq_true, beq_iff_eq] at hm
    refine ⟨⟨hlt, hm⟩, fun k hk => Nat.le_of_not_lt fun hkm => ?_⟩
    have hno := hmin k hkm
    simp [Matches, hk.2.1, hk.2.2] at hno
  · rintro ⟨⟨hlt, hm⟩, hmin⟩
    refine ⟨hlt, by simp [Matches, hm.1, hm.2], fun k hk => ?_⟩
    cases hmatch : Matches content row k with
    | false => rfl
    | true =>
      rw [Matches, Bool.and_eq_true, beq_iff_eq] at hmatch
      have hle : m ≤ k := hmin ⟨by omega, hmatch⟩
      omega

theorem firstMatch_iff_empty {α : Type} [DecidableEq α] {content : α} {row : Nat → Slot α} :
    firstMatch content row = none ↔ Holding content row = ∅ := by
  rw [firstMatch_eq_none_iff, Set.eq_empty_iff_forall_notMem]
  constructor
  · intro h k hk
    have hno := h k hk.1
    simp [Matches, hk.2.1, hk.2.2] at hno
  · intro h k hlt
    cases hmatch : Matches content row k with
    | false => rfl
    | true =>
      rw [Matches, Bool.and_eq_true, beq_iff_eq] at hmatch
      exact absurd ⟨hlt, hmatch⟩ (h k)

theorem takeable_mem_free {α : Type} {jiffies : BitVec 64} {row : Nat → Slot α} {k : Nat}
    (hlt : k < updmemNum) : Takeable jiffies row k = true ↔ k ∈ Free jiffies row := by
  rw [takeable_iff, timedOut_iff]
  exact ⟨fun h => ⟨hlt, h⟩, fun h => h.2⟩

theorem victim_iff_isLeast {α : Type} {jiffies : BitVec 64} {row : Nat → Slot α} {v : Nat} :
    victim jiffies row = some v ↔ IsLeast (Free jiffies row) v := by
  rw [victim_eq_some_iff]
  constructor
  · rintro ⟨hlt, hv, hmin⟩
    refine ⟨(takeable_mem_free hlt).mp hv, fun k hk => Nat.le_of_not_lt fun hkv => ?_⟩
    have hno := hmin k hkv
    rw [(takeable_mem_free hk.1).mpr hk] at hno
    cases hno
  · rintro ⟨hv, hmin⟩
    refine ⟨hv.1, (takeable_mem_free hv.1).mpr hv, fun k hk => ?_⟩
    have hlt := hv.1
    cases htake : Takeable jiffies row k with
    | false => rfl
    | true =>
      have hle : v ≤ k := hmin ((takeable_mem_free (by omega)).mp htake)
      omega

theorem victim_iff_empty {α : Type} {jiffies : BitVec 64} {row : Nat → Slot α} :
    victim jiffies row = none ↔ Free jiffies row = ∅ := by
  have h0 : (∀ i, 0 ≤ i → i < 0 + updmemNum → Takeable jiffies row i = false) ↔
      ∀ i, i ∉ Free jiffies row := by
    constructor
    · intro h k hk
      have hno := h k (Nat.zero_le k) (by rw [Nat.zero_add]; exact hk.1)
      rw [(takeable_mem_free hk.1).mpr hk] at hno
      cases hno
    · intro h k _ hlt
      rw [Nat.zero_add] at hlt
      cases htake : Takeable jiffies row k with
      | false => rfl
      | true => exact absurd ((takeable_mem_free hlt).mp htake) (h k)
  rw [victim, scanUp_eq_none_iff, Set.eq_empty_iff_forall_notMem]
  exact h0

section Call

variable {maxEntries : Nat} {foe : Nat → Option FoeState} {jiffies : BitVec 64} {select : Select}
  {field : ShrinkField} {s : Shrink}

/-- The slots of the kind searched, when `reuse_shrink_table` is called. -/
abbrev foundIn (maxEntries : Nat) (jiffies : BitVec 64) (select : Select) (field : ShrinkField)
    (s : Shrink) : Found (Content select) :=
  findRow maxEntries jiffies (field.content select) field.foeIdx (s.shnkTbl select)

theorem foundIn_done (maxEntries : Nat) (jiffies : BitVec 64) (select : Select)
    (field : ShrinkField) (s : Shrink) : FoundDone maxEntries jiffies (field.content select)
      field.foeIdx (s.shnkTbl select) (foundIn maxEntries jiffies select field s) :=
  findRow_done maxEntries jiffies (field.content select) field.foeIdx (s.shnkTbl select)

theorem find_slot_self {k : Nat} (hk : k < updmemNum) :
    (findAndUpdateShrinkTable maxEntries foe jiffies select field s).1.shnkTbl select k =
      ((foundIn maxEntries jiffies select field s).row k).reuse maxEntries foe jiffies := by
  simp [findAndUpdateShrinkTable, reuseShrinkTable, hk]

theorem find_slot_other {select' : Select} {k : Nat} (hk : k < updmemNum) (h : select' ≠ select) :
    (findAndUpdateShrinkTable maxEntries foe jiffies select field s).1.shnkTbl select' k =
      (s.shnkTbl select' k).reuse maxEntries foe jiffies := by
  simp [findAndUpdateShrinkTable, reuseShrinkTable, hk, h]

/-- Every slot keeps its content but the one returned. -/
theorem find_content {select' : Select} {k : Nat} (hk : k < updmemNum)
    (h : ¬ (select' = select ∧
      (findAndUpdateShrinkTable maxEntries foe jiffies select field s).2 = some k)) :
    ((findAndUpdateShrinkTable maxEntries foe jiffies select field s).1.shnkTbl select' k).content =
      (s.shnkTbl select' k).content := by
  rcases eq_or_ne select' select with rfl | hne
  · rw [find_slot_self hk, reuse_content]
    exact (foundIn_done maxEntries jiffies select' field s).content_of_ne fun hidx => h ⟨rfl, hidx⟩
  · rw [find_slot_other hk hne, reuse_content]

theorem find_content_self {k : Nat}
    (h : (findAndUpdateShrinkTable maxEntries foe jiffies select field s).2 = some k) :
    ((findAndUpdateShrinkTable maxEntries foe jiffies select field s).1.shnkTbl select k).content =
      field.content select := by
  have hdone := foundIn_done maxEntries jiffies select field s
  rw [find_slot_self (hdone.index_lt h), reuse_content, hdone.row_self h]
  rfl

theorem find_valid_self {k : Nat}
    (h : (findAndUpdateShrinkTable maxEntries foe jiffies select field s).2 = some k) :
    ((findAndUpdateShrinkTable maxEntries foe jiffies select field s).1.shnkTbl select k).valid =
      true := by
  have hdone := foundIn_done maxEntries jiffies select field s
  rw [find_slot_self (hdone.index_lt h), reuse_valid, hdone.row_self h]
  refine ⟨rfl, fun htime => ?_⟩
  rw [use_timedOut] at htime
  cases htime

/-- The call returned `k`; a search for the same content finds it there. -/
theorem find_again {k : Nat}
    (h : (findAndUpdateShrinkTable maxEntries foe jiffies select field s).2 = some k) :
    firstMatch (field.content select)
      ((findAndUpdateShrinkTable maxEntries foe jiffies select field s).1.shnkTbl select) =
        some k := by
  have hdone := foundIn_done maxEntries jiffies select field s
  have hlt := hdone.index_lt h
  rw [firstMatch_eq_some_iff]
  refine ⟨hlt, ?_, fun j hj => ?_⟩
  · rw [Matches, find_valid_self h, find_content_self h]
    simp
  · have hne : (foundIn maxEntries jiffies select field s).index ≠ some j := by
      intro hj'
      have heq : k = j := Option.some.inj (h.symm.trans hj')
      omega
    have hno := hdone.matches_of_ne hne (hdone.no_match_below h hj)
    cases hmatch : Matches (field.content select) ((findAndUpdateShrinkTable maxEntries foe jiffies
        select field s).1.shnkTbl select) j with
    | false => rfl
    | true =>
      rw [Matches, find_slot_self (by omega), reuse_content, Bool.and_eq_true,
        reuse_valid] at hmatch
      rw [Matches, hmatch.1.1, hmatch.2] at hno
      cases hno

/-- The engine's copy is written for a victim, and for it only. -/
theorem find_updmem (maxEntries : Nat) (foe : Nat → Option FoeState) (jiffies : BitVec 64)
    (select : Select) (field : ShrinkField) (s : Shrink) :
    (findAndUpdateShrinkTable maxEntries foe jiffies select field s).1.updmem =
      if (firstMatch (field.content select) (s.shnkTbl select)).isNone then
        match victim jiffies (s.shnkTbl select) with
        | some v => ppeSetShrinkField select v field s.updmem
        | none => s.updmem
      else s.updmem := by
  have hdone := foundIn_done maxEntries jiffies select field s
  have hwrote := hdone.wrote
  have hindex := hdone.index
  simp only [findAndUpdateShrinkTable]
  rw [hwrote, hindex]
  cases firstMatch (field.content select) (s.shnkTbl select) with
  | some m => rfl
  | none => cases victim jiffies (s.shnkTbl select) <;> rfl

theorem find_sameBut_of_updmem {except : Select → Nat → Prop}
    (hret : ∀ k, (findAndUpdateShrinkTable maxEntries foe jiffies select field s).2 = some k →
      ¬ except select k → (s.shnkTbl select k).content = field.content select)
    (hupd : ∀ select', ∀ k < updmemNum, ¬ except select' k →
      (findAndUpdateShrinkTable maxEntries foe jiffies select field s).1.updmem.content k select' =
        s.updmem.content k select') :
    SameBut except s (findAndUpdateShrinkTable maxEntries foe jiffies select field s).1 := by
  intro select' k hk hno
  refine ⟨?_, hupd select' k hk hno⟩
  rcases Classical.em (select' = select ∧
      (findAndUpdateShrinkTable maxEntries foe jiffies select field s).2 = some k) with h | h
  · obtain ⟨rfl, hidx⟩ := h
    rw [find_content_self hidx, hret k hidx hno]
  · exact find_content hk h

/-- `find_and_update_shrink_table` is find-or-insert. -/
theorem findAndUpdateShrinkTable_findOrInsert (maxEntries : Nat) (foe : Nat → Option FoeState)
    (jiffies : BitVec 64) (select : Select) (field : ShrinkField) (s : Shrink) :
    FindOrInsert jiffies select field s
      (findAndUpdateShrinkTable maxEntries foe jiffies select field s).1
      (findAndUpdateShrinkTable maxEntries foe jiffies select field s).2
      fun maxEntries' foe' jiffies' => (findAndUpdateShrinkTable maxEntries' foe' jiffies' select
        field (findAndUpdateShrinkTable maxEntries foe jiffies select field s).1).2 := by
  have hdone := foundIn_done maxEntries jiffies select field s
  have hupd := find_updmem maxEntries foe jiffies select field s
  have hindex : (findAndUpdateShrinkTable maxEntries foe jiffies select field s).2 = _ :=
    hdone.index
  constructor
  case hit =>
    intro m hm
    rw [← firstMatch_iff_isLeast] at hm
    have hmatch := (firstMatch_eq_some_iff.mp hm).2.1
    rw [Matches, Bool.and_eq_true, beq_iff_eq] at hmatch
    rw [hm] at hindex hupd
    refine ⟨hindex, find_sameBut_of_updmem (fun k hk _ => ?_) fun _ _ _ _ => by rw [hupd]; rfl⟩
    have heq : m = k := Option.some.inj (hindex.symm.trans hk)
    rw [← heq]
    exact hmatch.2
  case insert =>
    intro hnone v hv
    rw [← firstMatch_iff_empty] at hnone
    rw [← victim_iff_isLeast] at hv
    have hlt := (victim_eq_some_iff.mp hv).1
    rw [hnone, hv] at hindex hupd
    refine ⟨hindex, find_content_self hindex, ?_, find_sameBut_of_updmem (fun k hk hno => ?_) ?_⟩
    · rw [hupd]
      exact setShrinkField_self field s.updmem hlt
    · exact absurd ⟨rfl, (Option.some.inj (hindex.symm.trans hk)).symm⟩ hno
    · intro select' k hk hno
      rw [hupd]
      exact setShrinkField_other field s.updmem hlt hk hno
  case full =>
    intro hnone hfree
    rw [← firstMatch_iff_empty] at hnone
    rw [← victim_iff_empty] at hfree
    rw [hnone, hfree] at hindex hupd
    refine ⟨hindex, find_sameBut_of_updmem (fun k hk _ => ?_) fun _ _ _ _ => by rw [hupd]; rfl⟩
    rw [hindex] at hk
    cases hk
  case pinned =>
    intro select' k hk hpin hvalid
    rcases eq_or_ne select' select with rfl | hne
    · have htime :
          ((foundIn maxEntries jiffies select' field s).row k).timedOut jiffies = false := by
        simp [Slot.timedOut, hdone.pinned k, hpin]
      rw [find_slot_self hk, reuse_pinned, reuse_valid, reuse_content, htime, hdone.pinned k]
      exact ⟨hpin, ⟨hdone.valid_of_pinned hpin hvalid, fun h => absurd h Bool.false_ne_true⟩,
        hdone.content_of_pinned hpin hvalid⟩
    · have htime : (s.shnkTbl select' k).timedOut jiffies = false := by
        simp [Slot.timedOut, hpin]
      rw [find_slot_other hk hne, reuse_pinned, reuse_valid, reuse_content, htime]
      exact ⟨hpin, ⟨hvalid, fun h => absurd h Bool.false_ne_true⟩, rfl⟩
  case twice =>
    intro r hr maxEntries' foe' jiffies'
    have hagain := (foundIn_done maxEntries' jiffies' select field
      (findAndUpdateShrinkTable maxEntries foe jiffies select field s).1).index
    rw [find_again hr] at hagain
    exact hagain

end Call

/-! ## A pinned slot that is not in use -/

/-- No slot that is pinned loses its content or its validity. -/
def PinnedKept (s s' : Shrink) : Prop :=
  ∀ select, ∀ k < updmemNum, (s.shnkTbl select k).pinned = true →
    (s'.shnkTbl select k).content = (s.shnkTbl select k).content ∧
      ((s.shnkTbl select k).valid = true → (s'.shnkTbl select k).valid = true)

/-- A table without a valid slot, whose slot 0 is pinned for source MACs. -/
def unusedPinned : Shrink where
  shnkTbl
    | .smac, k => ⟨false, k == 0, 0#64, fun _ => 0#64, Vector.replicate 6 0#8⟩
    | .ipv6, _ => ⟨false, false, 0#64, fun _ => 0#64, Vector.replicate 8 0#32⟩
    | .ipv4, _ => ⟨false, false, 0#64, fun _ => 0#64, Vector.replicate 2 0#32⟩
  updmem := { data := 0#32, mem := fun _ _ _ => 0#32 }

/-- The MAC 02:02:02:02:02:02, for flow 1. -/
def otherMac : ShrinkField where
  smac := Vector.replicate 6 2#8
  egIpv4 := Vector.replicate 2 0#32
  egIpv6 := Vector.replicate 8 0#32
  foeIdx := 1

/-- The search looks at `valid` only, so the pinned slot is the lowest that it takes. -/
theorem not_pinnedKept_unusedPinned : ¬ PinnedKept unusedPinned
    (findAndUpdateShrinkTable 8192 (fun _ => none) 0#64 .smac otherMac unusedPinned).1 := by
  intro h
  have hcontent := (h .smac 0 (by decide) rfl).1
  revert hcontent
  decide

end Airoha.Ppe
