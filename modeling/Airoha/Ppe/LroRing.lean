/-
Airoha.Ppe.LroRing — which flow holds which LRO ring.

Translates `airoha_get_free_lro_ring` of `arht_dp_api.c` and
`ppe_entry_is_valid` of `arht_ppe.c`. A slot of `lro_ring_reserve` stands for a
receive ring and records the index of the flow that it is reserved for. One pass
looks for a slot whose flow has aged out and for the caller's own slot, and
takes what comes first: a caller whose slot stands behind an aged one gets a
second ring. `lroRuns_iff`: no flow holds two rings, and a flow keeps its ring,
in the runs where no call is made so.
-/
import Airoha.Lib.Scan
import Airoha.Lib.SlotSet
import Airoha.Ppe.Egress

namespace Airoha.Ppe

open Airoha.Lib

/-! ## The slots -/

/-- `LRO_RING_NUM`, `LRO_RING_START` and `LRO_RING_END`. -/
def lroRingNum : Nat := 4
def lroRingStart : Nat := 12
def lroRingEnd : Nat := 15

/-- `LRO_RING_FREE` and `LRO_RING_RESERVED`. -/
inductive LroState where
  | free
  | reserved
deriving DecidableEq, Repr

/-- A row of `lro_ring_reserve`. -/
structure LroSlot where
  state : LroState
  idx : BitVec 32
deriving DecidableEq

/-- `lro_ring_reserve`, of which `2 * LRO_RING_NUM` rows are used. -/
abbrev LroRings := Nat → LroSlot

/-- `ppe_entry_is_valid`; `foe` is what `airoha_ppe_foe_get_entry_locked` gives. -/
def ppeEntryIsValid (foe : BitVec 32 → Option FoeEntry) (foeEntryIdx : BitVec 32) (ringIdx : Nat) :
    Int :=
  let check (curState : FoeState) (curNbq : BitVec 32) : Int :=
    if curState = .invalid ∨
        curNbq.toNat ≠ (if ringIdx ≤ lroRingEnd then ringIdx else ringIdx - lroRingNum) then 1
    else 0
  match foe foeEntryIdx with
  | none => -1
  | some hwe =>
      match hwe.pktType with
      | .ipv4Hnapt => check hwe.state (fieldGet 0 5 (hwe.ib2 .ipv4))
      | .ipv6Route5t => check hwe.state (fieldGet 0 5 (hwe.ib2 .ipv6))
      | _ => -1

/-- The first loop of `airoha_get_free_lro_ring`, from row `i` on. -/
def lroCheckBinded (foe : BitVec 32 → Option FoeEntry) (foeEntryIdx : BitVec 32)
    (rings : LroRings) :
    Nat → Nat → Option (Nat × LroRings)
  | _, 0 => none
  | i, n + 1 =>
      -- the flow of the row has aged out
      if (rings i).state = .reserved ∧ ppeEntryIsValid foe (rings i).idx (lroRingStart + i) ≠ 0 then
        some (lroRingStart + i, Function.update rings i { rings i with idx := foeEntryIdx })
      else if (rings i).state = .reserved ∧ (rings i).idx = foeEntryIdx then
        some (lroRingStart + i, rings)
      else lroCheckBinded foe foeEntryIdx rings (i + 1) n

/-- The second loop. -/
def lroScanFree (foeEntryIdx : BitVec 32) (rings : LroRings) : Nat → Nat → Option (Nat × LroRings)
  | _, 0 => none
  | i, n + 1 =>
      if (rings i).state = .free then
        some (lroRingStart + i,
          Function.update rings i { state := .reserved, idx := foeEntryIdx })
      else lroScanFree foeEntryIdx rings (i + 1) n

/-- `airoha_get_free_lro_ring`: the ring, and the rows it leaves. -/
def airohaGetFreeLroRing (foe : BitVec 32 → Option FoeEntry) (rings : LroRings)
    (foeEntryIdx : BitVec 32) : Nat × LroRings :=
  match lroCheckBinded foe foeEntryIdx rings 0 (2 * lroRingNum) with
  | some r => r
  | none => (lroScanFree foeEntryIdx rings 0 (2 * lroRingNum)).getD (1, rings)

/-! ## Who holds what -/

/-- The flow a row is reserved for. -/
def lroHolder (rings : LroRings) (i : Nat) : Option (BitVec 32) :=
  if (rings i).state = .reserved then some (rings i).idx else none

/-- The row is reserved and its flow has aged out. -/
def LroAged (foe : BitVec 32 → Option FoeEntry) (rings : LroRings) (i : Nat) : Prop :=
  (rings i).state = .reserved ∧ ppeEntryIsValid foe (rings i).idx (lroRingStart + i) ≠ 0

instance (foe : BitVec 32 → Option FoeEntry) (rings : LroRings) (i : Nat) :
    Decidable (LroAged foe rings i) := by
  unfold LroAged
  infer_instance

theorem lroHolder_eq_some {rings : LroRings} {i : Nat} {idx : BitVec 32} :
    lroHolder rings i = some idx ↔ (rings i).state = .reserved ∧ (rings i).idx = idx := by
  unfold lroHolder
  by_cases h : (rings i).state = .reserved <;> simp [h]

theorem lroHolder_update (rings : LroRings) (i : Nat) {slot : LroSlot}
    (h : slot.state = .reserved) :
    lroHolder (Function.update rings i slot) =
      Function.update (lroHolder rings) i (some slot.idx) := by
  funext j
  rcases eq_or_ne j i with rfl | hne
  · simp [lroHolder, h]
  · simp [lroHolder, hne]

/-! ## One call -/

section Call

variable {foe : BitVec 32 → Option FoeEntry} {rings : LroRings} {idx : BitVec 32}

/-- The first loop ends at the first row that is aged or the caller's own. -/
theorem lroCheckBinded_eq : ∀ {n i : Nat}, lroCheckBinded foe idx rings i n =
    (scanUp (fun j => decide (LroAged foe rings j ∨ lroHolder rings j = some idx)) i n).map fun j =>
      (lroRingStart + j, if LroAged foe rings j then
        Function.update rings j { rings j with idx := idx } else rings) := by
  intro n
  induction n with
  | zero =>
    intro i
    rfl
  | succ n ih =>
    intro i
    rw [lroCheckBinded, scanUp, ih]
    by_cases haged : LroAged foe rings i
    · have hraw := haged
      unfold LroAged at hraw
      simp [haged, hraw]
    · have hraw := haged
      unfold LroAged at hraw
      rw [if_neg hraw]
      by_cases hown : lroHolder rings i = some idx
      · rw [if_pos (lroHolder_eq_some.mp hown)]
        simp [haged, hown]
      · have hne : ¬ ((rings i).state = .reserved ∧ (rings i).idx = idx) :=
          fun h => hown (lroHolder_eq_some.mpr h)
        rw [if_neg hne]
        simp [haged, hown]

theorem lroScanFree_eq : ∀ {n i : Nat}, lroScanFree idx rings i n =
    (scanUp (fun j => decide ((rings j).state = .free)) i n).map fun j =>
      (lroRingStart + j, Function.update rings j { state := .reserved, idx := idx }) := by
  intro n
  induction n with
  | zero =>
    intro i
    rfl
  | succ n ih =>
    intro i
    rw [lroScanFree, scanUp, ih]
    by_cases hfree : (rings i).state = .free <;> simp [hfree]

/-- What one call may do. -/
inductive LroOutcome (foe : BitVec 32 → Option FoeEntry) (rings : LroRings) (idx : BitVec 32) :
    Nat × LroRings → Prop
  | recycled (i : Nat) (hi : i < 8) (haged : LroAged foe rings i)
      (hfirst : ∀ j < i, ¬ LroAged foe rings j ∧ lroHolder rings j ≠ some idx) :
      LroOutcome foe rings idx
        (lroRingStart + i, Function.update rings i { rings i with idx := idx })
  | own (i : Nat) (hi : i < 8) (hown : lroHolder rings i = some idx)
      (hfirst : ∀ j ≤ i, ¬ LroAged foe rings j) : LroOutcome foe rings idx (lroRingStart + i, rings)
  | fresh (i : Nat) (hi : i < 8)
      (hnone : ∀ j < 8, ¬ LroAged foe rings j ∧ lroHolder rings j ≠ some idx) :
      LroOutcome foe rings idx
        (lroRingStart + i, Function.update rings i { state := .reserved, idx := idx })
  | full (hnone : ∀ j < 8, ¬ LroAged foe rings j ∧ lroHolder rings j ≠ some idx) :
      LroOutcome foe rings idx (1, rings)

theorem getFreeLroRing_outcome (foe : BitVec 32 → Option FoeEntry) (rings : LroRings)
    (idx : BitVec 32) : LroOutcome foe rings idx (airohaGetFreeLroRing foe rings idx) := by
  have hrows : 2 * lroRingNum = 8 := rfl
  unfold airohaGetFreeLroRing
  rw [lroCheckBinded_eq, hrows]
  cases hscan :
    scanUp (fun j => decide (LroAged foe rings j ∨ lroHolder rings j = some idx)) 0 8 with
  | some i =>
    obtain ⟨-, hi, htaken, hbefore⟩ := scanUp_eq_some_iff.mp hscan
    have hfirst : ∀ j < i, ¬ LroAged foe rings j ∧ lroHolder rings j ≠ some idx := by
      intro j hj
      simpa using hbefore j (Nat.zero_le j) hj
    simp only [Option.map_some]
    by_cases haged : LroAged foe rings i
    · rw [if_pos haged]
      exact .recycled i (by omega) haged hfirst
    · rw [if_neg haged]
      have hown : lroHolder rings i = some idx := by
        simpa [haged] using htaken
      refine .own i (by omega) hown ?_
      intro j hj
      rcases Nat.eq_or_lt_of_le hj with rfl | hlt
      · exact haged
      · exact (hfirst j hlt).1
  | none =>
    have hnone : ∀ j < 8, ¬ LroAged foe rings j ∧ lroHolder rings j ≠ some idx := by
      intro j hj
      simpa using scanUp_eq_none_iff.mp hscan j (Nat.zero_le j) (by omega)
    simp only [Option.map_none]
    rw [lroScanFree_eq]
    cases hfree : scanUp (fun j => decide ((rings j).state = .free)) 0 8 with
    | some i =>
      obtain ⟨-, hi, -, -⟩ := scanUp_eq_some_iff.mp hfree
      exact .fresh i (by omega) hnone
    | none => exact .full hnone

/-- No flow holds two rings. -/
def LroUnique (rings : LroRings) : Prop := Unique 8 (lroHolder rings)

/-- A call for a flow with a ring that is still valid gives that ring. -/
def LroCallRight (foe : BitVec 32 → Option FoeEntry) (rings : LroRings) (idx : BitVec 32) : Prop :=
  ∀ j < 8, lroHolder rings j = some idx → ppeEntryIsValid foe idx (lroRingStart + j) = 0 →
    (airohaGetFreeLroRing foe rings idx).1 = lroRingStart + j

/-- No aged row comes before the caller's own. -/
def LroOwnFirst (foe : BitVec 32 → Option FoeEntry) (rings : LroRings) (idx : BitVec 32) : Prop :=
  ∀ i j, i < j → j < 8 → LroAged foe rings i → lroHolder rings j ≠ some idx

/-- A row that gets the caller's index keeps the rows distinct when no other row has it. -/
theorem unique_update {slot : Nat → Option (BitVec 32)} {i : Nat} (h : Unique 8 slot)
    (hother : ∀ j < 8, j ≠ i → slot j ≠ some idx) :
    Unique 8 (Function.update slot i (some idx)) := by
  by_cases hself : slot i = some idx
  · rw [← hself, Function.update_eq_self]
    exact h
  · refine unique_put h ?_
    rintro ⟨j, hj, hidx⟩
    rcases eq_or_ne j i with rfl | hne
    · exact hself hidx
    · exact hother j hj hne hidx

/-- What one call keeps, and when. -/
theorem lroCall_iff (h : LroUnique rings) :
    (LroUnique (airohaGetFreeLroRing foe rings idx).2 ∧ LroCallRight foe rings idx) ↔
      LroOwnFirst foe rings idx := by
  have hout := getFreeLroRing_outcome foe rings idx
  unfold LroCallRight LroUnique at *
  cases hcall : airohaGetFreeLroRing foe rings idx with
  | mk ring left =>
  rw [hcall] at hout
  cases hout with
  | recycled i hi haged hfirst =>
    have hupd : lroHolder (Function.update rings i { rings i with idx := idx }) =
        Function.update (lroHolder rings) i (some idx) := lroHolder_update rings i haged.1
    simp only
    rw [hupd]
    constructor
    · rintro ⟨hu, -⟩ k j hkj hj hk hown
      have hik : i ≤ k := by
        by_contra hlt
        exact (hfirst k (by omega)).1 hk
      have hne : j ≠ i := by omega
      -- the recycled row and the caller's own
      have heq := hu i hi j hj idx
      rw [Function.update_self, Function.update_of_ne hne] at heq
      exact hne (heq rfl hown).symm
    · intro hkeep
      have hother : ∀ j < 8, j ≠ i → lroHolder rings j ≠ some idx := by
        intro j hj hne
        rcases Nat.lt_or_gt_of_ne hne with hlt | hgt
        · exact (hfirst j hlt).2
        · exact hkeep i j hgt hj haged
      constructor
      · exact unique_update h hother
      · intro j hj hown _
        have hji : j = i := by
          by_contra hne
          exact hother j hj hne hown
        rw [hji]
  | own i hi hown hfirst =>
    have hsame : ∀ j < 8, lroHolder rings j = some idx → j = i :=
      fun j hj hj' => h j hj i hi idx hj' hown
    refine iff_of_true ⟨h, ?_⟩ ?_
    · intro j hj hj' _
      rw [hsame j hj hj']
    · intro k j hkj hj hk hj'
      have hji := hsame j hj hj'
      exact hfirst k (by omega) hk
  | fresh i hi hnone =>
    refine iff_of_true ⟨?_, ?_⟩ ?_
    · simp only
      rw [lroHolder_update rings i rfl]
      exact unique_update h fun j hj _ => (hnone j hj).2
    · intro j hj hown _
      exact absurd hown (hnone j hj).2
    · intro k j hkj hj hk
      exact absurd hk (hnone k (by omega)).1
  | full hnone =>
    refine iff_of_true ⟨h, ?_⟩ ?_
    · intro j hj hown _
      exact absurd hown (hnone j hj).2
    · intro k j hkj hj hk
      exact absurd hk (hnone k (by omega)).1

end Call

/-! ## Runs -/

/-- A call, with the flow table it sees. -/
structure LroCall where
  foe : BitVec 32 → Option FoeEntry
  idx : BitVec 32

/-- `lro_ring_reserve` as it is initialised. -/
def lroInit : LroRings := fun _ => { state := .free, idx := 0#32 }

/-- What is asked of a run: of every state it goes through, and of every call. -/
def LroRunRight : List LroCall → LroRings → Prop
  | [], rings => LroUnique rings
  | c :: calls, rings => LroUnique rings ∧ LroCallRight c.foe rings c.idx ∧
      LroRunRight calls (airohaGetFreeLroRing c.foe rings c.idx).2

/-- In every call of a run no aged row comes before the caller's own. -/
def LroRunOwnFirst : List LroCall → LroRings → Prop
  | [], _ => True
  | c :: calls, rings => LroOwnFirst c.foe rings c.idx ∧
      LroRunOwnFirst calls (airohaGetFreeLroRing c.foe rings c.idx).2

theorem LroRunRight.unique {calls : List LroCall} {rings : LroRings} (h : LroRunRight calls rings) :
    LroUnique rings := by
  cases calls with
  | nil => exact h
  | cons c calls => exact h.1

theorem lroUnique_init : LroUnique lroInit := by
  intro i _ j _ k hk
  simp [lroHolder, lroInit] at hk

theorem lroRun_iff : ∀ {calls : List LroCall} {rings : LroRings}, LroUnique rings →
    (LroRunRight calls rings ↔ LroRunOwnFirst calls rings) := by
  intro calls
  induction calls with
  | nil =>
    intro rings h
    exact iff_of_true h trivial
  | cons c calls ih =>
    intro rings h
    have hcall := @lroCall_iff c.foe rings c.idx h
    constructor
    · rintro ⟨-, hright, hrest⟩
      exact ⟨hcall.mp ⟨hrest.unique, hright⟩, (ih hrest.unique).mp hrest⟩
    · rintro ⟨hfirst, hrest⟩
      obtain ⟨hu, hright⟩ := hcall.mpr hfirst
      exact ⟨h, hright, (ih hu).mpr hrest⟩

/-- No flow holds two rings and none loses its own, in the runs where each caller's row comes before
the aged ones. -/
theorem lroRuns_iff (calls : List LroCall) :
    LroRunRight calls lroInit ↔ LroRunOwnFirst calls lroInit :=
  lroRun_iff lroUnique_init

/-- An IPv4 flow that is bound to a ring. -/
def boundToRing (nbq : BitVec 32) : FoeEntry :=
  (FoeEntry.put (Vector.replicate 20 0#32) 0 0x20000000#32).put 4 nbq

/-- Flow 5 takes the first ring, flow 9 the second; flow 5 ages out, and flow 9 asks again. -/
def agedRun : List LroCall :=
  let table : BitVec 32 → Option FoeEntry := fun idx =>
    if idx = 5#32 then some (boundToRing 12#32) else some (boundToRing 13#32)
  let aged : BitVec 32 → Option FoeEntry := fun idx =>
    if idx = 5#32 then some (Vector.replicate 20 0#32) else some (boundToRing 13#32)
  [⟨table, 5#32⟩, ⟨table, 9#32⟩, ⟨aged, 9#32⟩]

theorem not_lroRunRight_agedRun : ¬ LroRunRight agedRun lroInit := by
  rintro ⟨-, -, -, -, -, hright, -⟩
  have h := hright 1 (by decide) (by decide) (by decide)
  revert h
  decide

end Airoha.Ppe
