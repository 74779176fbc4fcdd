/-
Airoha.Ppe.L2b — the table of ether types the L2 bridge leaves alone.

Translates the "L2B Ether Type Configuration Functions" of `arht_ppe.c`. A
table has sixteen slots. Bit `i` of `REG_PPE_L2B_ETYPE_EN` enables slot `i`,
bit `i + 16` says that its type is a PPP protocol, and the values are packed
two to a register. Slots are looked up in the registers of the first PPE; on
a 7581 the words written are written to the second one too.

The table is a set of pairs of a value and the PPPoE flag: `l2b_implements_set` says so
for any sequence of sets and clears.
-/
import Airoha.Lib.Bits
import Airoha.Lib.Scan
import Airoha.Lib.SlotSet

namespace Airoha.Ppe.L2b

open Airoha.Lib

/-! ## The functions -/

/-- `REG_PPE_L2B_ETYPE_EN(m)`, and `REG_PPE_L2B_ETYPE_N(m, 2 * k)` by `k`. -/
structure Regs where
  etypeEn : BitVec 32
  etypeN : Nat → BitVec 32

/-- The registers of both PPEs. -/
structure Sys where
  ppe1 : Regs
  ppe2 : Regs

/-- `L2B_ETYPE_MAX_INDEX` -/
def l2bEtypeMaxIndex : Nat := 16
/-- `ENOENT` -/
def enoent : Int := 2
/-- `EINVAL` -/
def einval : Int := 22
/-- `ENOSPC` -/
def enospc : Int := 28

/-- `ppe_get_l2b_ether_type` -/
def ppeGetL2bEtherType (s : Sys) (index : Nat) : BitVec 16 :=
  if 15 < index then 0#16
  else ((s.ppe1.etypeN (index / 2) >>> (16 * (index % 2))) &&& 0xffff#32).setWidth 16

/-- `ppe_is_l2b_ether_type_enabled` -/
def ppeIsL2bEtherTypeEnabled (s : Sys) (index : Nat) : Bool :=
  if 15 < index then false else s.ppe1.etypeEn &&& bit 32 index ≠ 0#32

/-- `ppe_is_l2b_ether_type_pppoe` -/
def ppeIsL2bEtherTypePppoe (s : Sys) (index : Nat) : Bool :=
  if 15 < index then false else s.ppe1.etypeEn &&& bit 32 (index + 16) ≠ 0#32

/-- The loop of a lookup: the first index of the sixteen, or the error. -/
def firstIndex (p : Nat → Bool) (error : Int) : Int :=
  match scanUp p 0 l2bEtypeMaxIndex with
  | some i => i
  | none => -error

/-- `ppe_find_l2b_ether_type_index` -/
def ppeFindL2bEtherTypeIndex (s : Sys) (etype : BitVec 16) (isPppoe : BitVec 32) : Int :=
  firstIndex (fun i => ppeIsL2bEtherTypeEnabled s i && ppeGetL2bEtherType s i == etype &&
    ppeIsL2bEtherTypePppoe s i == (isPppoe != 0#32)) enoent

/-- `ppe_find_free_l2b_ether_type_index` -/
def ppeFindFreeL2bEtherTypeIndex (s : Sys) : Int :=
  firstIndex (fun i => !ppeIsL2bEtherTypeEnabled s i && ppeGetL2bEtherType s i == 0#16) enospc

/-- The enable register that is written. -/
def enWord (index : Nat) (enable isPppoe : BitVec 32) (val : BitVec 32) : BitVec 32 :=
  if enable ≠ 0#32 then
    if isPppoe ≠ 0#32 then (val ||| bit 32 index) ||| bit 32 (index + 16)
    else (val ||| bit 32 index) &&& ~~~bit 32 (index + 16)
  else (val &&& ~~~bit 32 index) &&& ~~~bit 32 (index + 16)

/-- The value register that is written. -/
def typeWord (index : Nat) (value : BitVec 32) (type : BitVec 32) : BitVec 32 :=
  (type &&& ~~~(0xffff#32 <<< (16 * (index % 2)))) |||
    (value &&& 0xffff#32) <<< (16 * (index % 2))

/-- `ppe_set_l2b_ether_type` -/
def ppeSetL2bEtherType (is7581 : Bool) (index : Nat) (enable isPppoe value : BitVec 32)
    (s : Sys) : Sys × Int :=
  if 15 < index then (s, -einval)
  else
    let val := enWord index enable isPppoe s.ppe1.etypeEn
    let type := typeWord index value (s.ppe1.etypeN (index / 2))
    ({ ppe1 := { etypeEn := val, etypeN := Function.update s.ppe1.etypeN (index / 2) type }
       ppe2 :=
         if is7581 then
           { etypeEn := val, etypeN := Function.update s.ppe2.etypeN (index / 2) type }
         else s.ppe2 },
      0)

/-- What `ppe_set_l2b_ether_type_auto` returns, and what it writes to `*existed`, if anything. -/
structure SetResult where
  ret : Int
  existed : Option Bool
deriving DecidableEq, Repr

/-- `ppe_set_l2b_ether_type_auto` -/
def ppeSetL2bEtherTypeAuto (is7581 : Bool) (etype : BitVec 16) (isPppoe : BitVec 32) (s : Sys) :
    Sys × SetResult :=
  let idx := ppeFindL2bEtherTypeIndex s etype isPppoe
  if 0 ≤ idx then (s, { ret := idx, existed := some true })
  else
    let idx := ppeFindFreeL2bEtherTypeIndex s
    if idx < 0 then (s, { ret := -enospc, existed := none })
    else
      let r := ppeSetL2bEtherType is7581 idx.toNat 1#32 isPppoe (etype.setWidth 32) s
      if r.2 ≠ 0 then (r.1, { ret := r.2, existed := none })
      else (r.1, { ret := idx, existed := some false })

/-- `ppe_clear_l2b_ether_type_auto` -/
def ppeClearL2bEtherTypeAuto (is7581 : Bool) (etype : BitVec 16) (isPppoe : BitVec 32) (s : Sys) :
    Sys × Int :=
  let idx := ppeFindL2bEtherTypeIndex s etype isPppoe
  if idx < 0 then (s, 0)
  else
    let r := ppeSetL2bEtherType is7581 idx.toNat 0#32 isPppoe 0#32 s
    if r.2 ≠ 0 then (r.1, r.2) else (r.1, 0)

/-! ## Slots -/

/-- A value and whether it is a PPP protocol. -/
abbrev Pair := BitVec 16 × Bool

/-- What an enabled slot holds. -/
def Sys.slot (s : Sys) (i : Nat) : Option Pair :=
  if ppeIsL2bEtherTypeEnabled s i then some (ppeGetL2bEtherType s i, ppeIsL2bEtherTypePppoe s i)
  else none

/-- The enabled pairs. -/
def Sys.pairs (s : Sys) : Set Pair := held 16 s.slot

variable {s : Sys}

theorem enabled_eq {i : Nat} (hi : i < 16) :
    ppeIsL2bEtherTypeEnabled s i = s.ppe1.etypeEn.getLsbD i := by
  have h15 : ¬ 15 < i := by omega
  rw [ppeIsL2bEtherTypeEnabled, if_neg h15]
  cases hb : s.ppe1.etypeEn.getLsbD i with
  | false => simp [(and_bit_eq_zero_iff _ _).mpr hb]
  | true =>
    have hne : s.ppe1.etypeEn &&& bit 32 i ≠ 0#32 := by
      rw [ne_eq, and_bit_eq_zero_iff, hb]
      exact Bool.noConfusion
    simp [hne]

theorem pppoe_eq {i : Nat} (hi : i < 16) :
    ppeIsL2bEtherTypePppoe s i = s.ppe1.etypeEn.getLsbD (i + 16) := by
  have h15 : ¬ 15 < i := by omega
  rw [ppeIsL2bEtherTypePppoe, if_neg h15]
  cases hb : s.ppe1.etypeEn.getLsbD (i + 16) with
  | false => simp [(and_bit_eq_zero_iff _ _).mpr hb]
  | true =>
    have hne : s.ppe1.etypeEn &&& bit 32 (i + 16) ≠ 0#32 := by
      rw [ne_eq, and_bit_eq_zero_iff, hb]
      exact Bool.noConfusion
    simp [hne]

/-- The half of a value register that slot `i` has. -/
def halfOf (i : Nat) (x : BitVec 32) : BitVec 16 :=
  ((x >>> (16 * (i % 2))) &&& 0xffff#32).setWidth 16

theorem halfOf_typeWord (i j : Nat) (value type : BitVec 32) : halfOf j (typeWord i value type) =
    if j % 2 = i % 2 then value.setWidth 16 else halfOf j type := by
  unfold halfOf typeWord
  rcases Nat.mod_two_eq_zero_or_one i with hi | hi <;>
    rcases Nat.mod_two_eq_zero_or_one j with hj | hj <;>
    rw [hi, hj] <;>
    (apply BitVec.eq_of_getLsbD_eq
     intro k hk
     interval_cases k <;> simp)

/-- Bit `j` of the enable register after slot `i` was set or cleared, for both kinds of bits. -/
theorem getLsbD_enWord {i : Nat} (hi : i < 16) (enable isPppoe val : BitVec 32) (j : Nat) :
    (enWord i enable isPppoe val).getLsbD j =
      if j = i then enable != 0#32
      else if j = i + 16 then enable != 0#32 && isPppoe != 0#32
      else val.getLsbD j := by
  have h2 : i < 32 := by omega
  have h3 : i + 16 < 32 := by omega
  unfold enWord
  by_cases he : enable = 0#32
  · rw [if_neg (not_not.mpr he), getLsbD_and_not_bit, getLsbD_and_not_bit]
    by_cases hji : j = i
    · simp [hji, he]
    · by_cases hj16 : j = i + 16
      · simp [hj16, he]
      · simp [hji, hj16]
  · rw [if_pos he]
    by_cases hp : isPppoe = 0#32
    · rw [if_neg (not_not.mpr hp), getLsbD_and_not_bit, getLsbD_or_bit h2]
      by_cases hji : j = i
      · simp [hji, he]
      · by_cases hj16 : j = i + 16
        · simp [hj16, hp]
        · simp [hji, hj16]
    · rw [if_pos hp, getLsbD_or_bit h3, getLsbD_or_bit h2]
      by_cases hji : j = i
      · simp [hji, he]
      · by_cases hj16 : j = i + 16
        · simp [hj16, he, hp]
        · simp [hji, hj16]

section Set

variable (is7581 : Bool) {i j : Nat} (hi : i < 16) (hj : j < 16) (enable isPppoe value : BitVec 32)
  (s : Sys)

include hi hj

theorem value_set :
    ppeGetL2bEtherType (ppeSetL2bEtherType is7581 i enable isPppoe value s).1 j =
      if j = i then value.setWidth 16 else ppeGetL2bEtherType s j := by
  have h15 : ¬ 15 < i := by omega
  have hj15 : ¬ 15 < j := by omega
  rw [ppeGetL2bEtherType, if_neg hj15, ppeGetL2bEtherType, if_neg hj15, ppeSetL2bEtherType,
    if_neg h15]
  dsimp only
  by_cases hword : j / 2 = i / 2
  · rw [hword, Function.update_self]
    have hiff : j % 2 = i % 2 ↔ j = i := by omega
    simp only [← hiff]
    exact halfOf_typeWord i j value _
  · have hji : j ≠ i := fun heq => hword (by rw [heq])
    rw [Function.update_of_ne hword, if_neg hji]

theorem enabled_set :
    ppeIsL2bEtherTypeEnabled (ppeSetL2bEtherType is7581 i enable isPppoe value s).1 j =
      if j = i then enable != 0#32 else ppeIsL2bEtherTypeEnabled s j := by
  have h15 : ¬ 15 < i := by omega
  have hne : j ≠ i + 16 := by omega
  rw [enabled_eq hj, enabled_eq hj, ppeSetL2bEtherType, if_neg h15]
  dsimp only
  rw [getLsbD_enWord hi, if_neg hne]

theorem pppoe_set :
    ppeIsL2bEtherTypePppoe (ppeSetL2bEtherType is7581 i enable isPppoe value s).1 j =
      if j = i then enable != 0#32 && isPppoe != 0#32 else ppeIsL2bEtherTypePppoe s j := by
  have h15 : ¬ 15 < i := by omega
  have hji : j + 16 ≠ i := by omega
  rw [pppoe_eq hj, pppoe_eq hj, ppeSetL2bEtherType, if_neg h15]
  dsimp only
  rw [getLsbD_enWord hi, if_neg hji]
  simp only [Nat.add_right_cancel_iff]

/-- What `ppe_set_l2b_ether_type` does to the slots. -/
theorem slot_set : (ppeSetL2bEtherType is7581 i enable isPppoe value s).1.slot j =
    if j = i then
      if enable = 0#32 then none else some (value.setWidth 16, isPppoe != 0#32)
    else s.slot j := by
  unfold Sys.slot
  rw [value_set is7581 hi hj, enabled_set is7581 hi hj, pppoe_set is7581 hi hj]
  by_cases h : j = i
  · by_cases he : enable = 0#32
    · simp [h, he]
    · simp [h, he]
  · simp only [h, if_false]

end Set

/-! ## What the calls do -/

/-- The pair a call is about. -/
def pairOf (etype : BitVec 16) (isPppoe : BitVec 32) : Pair := (etype, isPppoe != 0#32)

/-- The slot is disabled and its value is zero. -/
def Sys.Free (s : Sys) (i : Nat) : Prop :=
  ppeIsL2bEtherTypeEnabled s i = false ∧ ppeGetL2bEtherType s i = 0#16

instance (s : Sys) : DecidablePred s.Free := fun i =>
  inferInstanceAs (Decidable (ppeIsL2bEtherTypeEnabled s i = false ∧ ppeGetL2bEtherType s i = 0#16))

/-- The slots an insertion may take. -/
def Sys.freeSlots (s : Sys) : Finset Nat := (Finset.range 16).filter s.Free

theorem firstIndex_cases (p : Nat → Bool) (error : Int) :
    (∃ i : Nat, i < 16 ∧ firstIndex p error = i ∧ p i = true) ∨
      (firstIndex p error = -error ∧ ∀ i < 16, p i = false) := by
  unfold firstIndex
  cases hscan : scanUp p 0 l2bEtypeMaxIndex with
  | some i =>
    obtain ⟨-, hlt, hp, -⟩ := scanUp_eq_some_iff.mp hscan
    rw [Nat.zero_add] at hlt
    exact Or.inl ⟨i, hlt, rfl, hp⟩
  | none =>
    refine Or.inr ⟨rfl, fun i hi => scanUp_eq_none_iff.mp hscan i (Nat.zero_le i) ?_⟩
    rw [Nat.zero_add]
    exact hi

theorem find_cases (s : Sys) (etype : BitVec 16) (isPppoe : BitVec 32) :
    (∃ i : Nat, i < 16 ∧ ppeFindL2bEtherTypeIndex s etype isPppoe = i ∧
        s.slot i = some (pairOf etype isPppoe)) ∨
      (ppeFindL2bEtherTypeIndex s etype isPppoe = -2 ∧ pairOf etype isPppoe ∉ s.pairs) := by
  rcases firstIndex_cases (fun i => ppeIsL2bEtherTypeEnabled s i &&
    ppeGetL2bEtherType s i == etype &&
      ppeIsL2bEtherTypePppoe s i == (isPppoe != 0#32)) enoent with ⟨i, hi, hfind, hp⟩ | ⟨hfind, hno⟩
  · simp only [Bool.and_eq_true, beq_iff_eq] at hp
    refine Or.inl ⟨i, hi, hfind, ?_⟩
    rw [Sys.slot, if_pos hp.1.1, hp.1.2, hp.2, pairOf]
  · refine Or.inr ⟨hfind, ?_⟩
    rintro ⟨i, hi, hslot⟩
    have hfalse := hno i hi
    unfold Sys.slot at hslot
    split at hslot
    · rename_i hen
      rw [Option.some.injEq, pairOf, Prod.mk.injEq] at hslot
      simp [hen, hslot.1, hslot.2] at hfalse
    · cases hslot

theorem free_cases (s : Sys) :
    (∃ i : Nat, i < 16 ∧ ppeFindFreeL2bEtherTypeIndex s = i ∧ s.Free i) ∨
      (ppeFindFreeL2bEtherTypeIndex s = -28 ∧ ∀ i < 16, ¬ s.Free i) := by
  rcases firstIndex_cases (fun i => !ppeIsL2bEtherTypeEnabled s i && ppeGetL2bEtherType s i == 0#16)
      enospc with ⟨i, hi, hfind, hp⟩ | ⟨hfind, hno⟩
  · simp only [Bool.and_eq_true, Bool.not_eq_true', beq_iff_eq] at hp
    exact Or.inl ⟨i, hi, hfind, hp⟩
  · refine Or.inr ⟨hfind, fun i hi hfree => ?_⟩
    have hfalse := hno i hi
    simp [hfree.1, hfree.2] at hfalse

/-- All a set can do. -/
theorem set_cases (is7581 : Bool) (etype : BitVec 16) (isPppoe : BitVec 32) (s : Sys) :
    (∃ i : Nat, i < 16 ∧ s.slot i = some (pairOf etype isPppoe) ∧
      ppeSetL2bEtherTypeAuto is7581 etype isPppoe s = (s, { ret := i, existed := some true })) ∨
    (∃ i : Nat, i < 16 ∧ pairOf etype isPppoe ∉ s.pairs ∧ s.Free i ∧
      ppeSetL2bEtherTypeAuto is7581 etype isPppoe s =
        ((ppeSetL2bEtherType is7581 i 1#32 isPppoe (etype.setWidth 32) s).1,
          { ret := i, existed := some false })) ∨
    (pairOf etype isPppoe ∉ s.pairs ∧ (∀ i < 16, ¬ s.Free i) ∧
      ppeSetL2bEtherTypeAuto is7581 etype isPppoe s = (s, { ret := -28, existed := none })) := by
  unfold ppeSetL2bEtherTypeAuto
  rcases find_cases s etype isPppoe with ⟨i, hi, hfind, hslot⟩ | ⟨hfind, hno⟩
  · refine Or.inl ⟨i, hi, hslot, ?_⟩
    rw [hfind]
    exact if_pos (Int.natCast_nonneg i)
  · rw [hfind]
    rcases free_cases s with ⟨i, hi, hfree, hslot⟩ | ⟨hfree, hno'⟩
    · refine Or.inr (Or.inl ⟨i, hi, hno, hslot, ?_⟩)
      have h15 : ¬ 15 < i := by omega
      have hneg : ¬ (i : Int) < 0 := by omega
      have hret : (ppeSetL2bEtherType is7581 i 1#32 isPppoe (etype.setWidth 32) s).2 = 0 := by
        rw [ppeSetL2bEtherType, if_neg h15]
      rw [hfree]
      dsimp only
      rw [if_neg (by decide), if_neg hneg, Int.toNat_natCast, hret, if_neg (by decide)]
    · refine Or.inr (Or.inr ⟨hno, hno', ?_⟩)
      rw [hfree]
      rfl

/-- All a clear can do. -/
theorem clear_cases (is7581 : Bool) (etype : BitVec 16) (isPppoe : BitVec 32) (s : Sys) :
    (∃ i : Nat, i < 16 ∧ s.slot i = some (pairOf etype isPppoe) ∧
      ppeClearL2bEtherTypeAuto is7581 etype isPppoe s =
        ((ppeSetL2bEtherType is7581 i 0#32 isPppoe 0#32 s).1, 0)) ∨
    (pairOf etype isPppoe ∉ s.pairs ∧
      ppeClearL2bEtherTypeAuto is7581 etype isPppoe s = (s, 0)) := by
  unfold ppeClearL2bEtherTypeAuto
  rcases find_cases s etype isPppoe with ⟨i, hi, hfind, hslot⟩ | ⟨hfind, hno⟩
  · refine Or.inl ⟨i, hi, hslot, ?_⟩
    have h15 : ¬ 15 < i := by omega
    have hneg : ¬ (i : Int) < 0 := by omega
    have hret : (ppeSetL2bEtherType is7581 i 0#32 isPppoe 0#32 s).2 = 0 := by
      rw [ppeSetL2bEtherType, if_neg h15]
    rw [hfind]
    dsimp only
    rw [if_neg hneg, Int.toNat_natCast, hret, if_neg (by decide)]
  · refine Or.inr ⟨hno, ?_⟩
    rw [hfind]
    rfl

theorem slot_of_free {i : Nat} (h : s.Free i) : s.slot i = none := by
  rw [Sys.slot, h.1]
  rfl

/-- The slots after a set, as an update of those before. -/
theorem slot_enable (is7581 : Bool) {i : Nat} (hi : i < 16) (etype : BitVec 16)
    (isPppoe : BitVec 32) (s : Sys) : ∀ j < 16,
      (ppeSetL2bEtherType is7581 i 1#32 isPppoe (etype.setWidth 32) s).1.slot j =
        Function.update s.slot i (some (pairOf etype isPppoe)) j := by
  intro j hj
  rw [slot_set is7581 hi hj]
  rcases eq_or_ne j i with rfl | hne
  · simp [pairOf]
  · rw [if_neg hne, Function.update_of_ne hne]

theorem slot_disable (is7581 : Bool) {i : Nat} (hi : i < 16) (isPppoe : BitVec 32) (s : Sys) :
    ∀ j < 16, (ppeSetL2bEtherType is7581 i 0#32 isPppoe 0#32 s).1.slot j =
      Function.update s.slot i none j := by
  intro j hj
  rw [slot_set is7581 hi hj]
  rcases eq_or_ne j i with rfl | hne
  · simp
  · rw [if_neg hne, Function.update_of_ne hne]

/-- An insertion takes one of the free slots. -/
theorem freeSlots_enable (is7581 : Bool) {i : Nat} (hi : i < 16) (etype : BitVec 16)
    (isPppoe : BitVec 32) (s : Sys) :
    (ppeSetL2bEtherType is7581 i 1#32 isPppoe (etype.setWidth 32) s).1.freeSlots =
      s.freeSlots.erase i := by
  ext j
  simp only [Sys.freeSlots, Finset.mem_filter, Finset.mem_range, Finset.mem_erase]
  rcases eq_or_ne j i with rfl | hne
  · simp [Sys.Free, enabled_set is7581 hi hi]
  · simp only [ne_eq, hne, not_false_eq_true, true_and]
    refine and_congr_right fun hj => ?_
    simp [Sys.Free, enabled_set is7581 hi hj, value_set is7581 hi hj, hne]

theorem card_freeSlots_enable (is7581 : Bool) {i : Nat} (hi : i < 16) (hfree : s.Free i)
    (etype : BitVec 16) (isPppoe : BitVec 32) :
    (ppeSetL2bEtherType is7581 i 1#32 isPppoe (etype.setWidth 32) s).1.freeSlots.card + 1 =
      s.freeSlots.card := by
  rw [freeSlots_enable is7581 hi]
  refine Finset.card_erase_add_one ?_
  exact Finset.mem_filter.mpr ⟨Finset.mem_range.mpr hi, hfree⟩

theorem freeSlots_of_full (h : ∀ i < 16, ¬ s.Free i) : s.freeSlots = ∅ :=
  Finset.filter_eq_empty_iff.mpr fun i hi => h i (Finset.mem_range.mp hi)

/-! ## Histories -/

/-- A call. -/
inductive Op where
  | set (etype : BitVec 16) (isPppoe : BitVec 32)
  | clear (etype : BitVec 16) (isPppoe : BitVec 32)

/-- Its effect and what it returns; a clear reports no `existed`. -/
def Sys.step (is7581 : Bool) (s : Sys) : Op → Sys × SetResult
  | .set etype isPppoe => ppeSetL2bEtherTypeAuto is7581 etype isPppoe s
  | .clear etype isPppoe =>
      let r := ppeClearL2bEtherTypeAuto is7581 etype isPppoe s
      (r.1, { ret := r.2, existed := none })

/-- The registers after the calls, the newest first. -/
def after (is7581 : Bool) (s : Sys) : List Op → Sys
  | [] => s
  | op :: ops => ((after is7581 s ops).step is7581 op).1

/-- A successful set adds its pair, a clear removes it. -/
def track (op : Op) (ret : Int) (S : Set Pair) : Set Pair :=
  match op with
  | .set etype isPppoe => if 0 ≤ ret then insert (pairOf etype isPppoe) S else S
  | .clear etype isPppoe => S \ {pairOf etype isPppoe}

/-- The pairs that should be enabled after the calls. -/
def tracked (is7581 : Bool) (s : Sys) : List Op → Set Pair
  | [] => s.pairs
  | op :: ops => track op ((after is7581 s ops).step is7581 op).2.ret (tracked is7581 s ops)

/-- What is promised of one call in a state. -/
structure Sound (is7581 : Bool) (s : Sys) (op : Op) : Prop where
  noSpace : ∀ etype isPppoe, op = .set etype isPppoe →
    ((s.step is7581 op).2.ret = -28 ↔
      pairOf etype isPppoe ∉ s.pairs ∧ ∀ i < 16, ¬ s.Free i)
  unchanged : (s.step is7581 op).2.ret = -28 → (s.step is7581 op).1 = s
  placed : ∀ etype isPppoe, op = .set etype isPppoe → (s.step is7581 op).2.ret ≠ -28 →
    ∃ i : Nat, i < 16 ∧ (s.step is7581 op).2.ret = i ∧
      (s.step is7581 op).1.slot i = some (pairOf etype isPppoe)
  existed : ∀ etype isPppoe, op = .set etype isPppoe →
    ((s.step is7581 op).2.existed = some true ↔ pairOf etype isPppoe ∈ s.pairs)
  inserted : ∀ etype isPppoe, op = .set etype isPppoe → (s.step is7581 op).2.ret ≠ -28 →
    ((s.step is7581 op).2.existed = some false ↔ pairOf etype isPppoe ∉ s.pairs)
  present : ∀ etype isPppoe, op = .set etype isPppoe → pairOf etype isPppoe ∈ s.pairs →
    (s.step is7581 op).1 = s
  defaults : ∀ i < 16, ppeIsL2bEtherTypeEnabled s i = false → ppeGetL2bEtherType s i ≠ 0#16 →
    ppeIsL2bEtherTypeEnabled (s.step is7581 op).1 i = false ∧
      ppeGetL2bEtherType (s.step is7581 op).1 i = ppeGetL2bEtherType s i
  absent : ∀ etype isPppoe, op = .clear etype isPppoe → pairOf etype isPppoe ∉ s.pairs →
    (s.step is7581 op).1 = s

/-! ## One call -/

section Step

variable {is7581 : Bool}

/-- A slot that is not free keeps its value and stays disabled, unless it is enabled. -/
theorem defaults_set {i j : Nat} (hi : i < 16) (hj : j < 16) (hne : j ≠ i)
    (enable isPppoe value : BitVec 32) (hoff : ppeIsL2bEtherTypeEnabled s j = false) :
    ppeIsL2bEtherTypeEnabled (ppeSetL2bEtherType is7581 i enable isPppoe value s).1 j = false ∧
      ppeGetL2bEtherType (ppeSetL2bEtherType is7581 i enable isPppoe value s).1 j =
        ppeGetL2bEtherType s j := by
  rw [enabled_set is7581 hi hj, value_set is7581 hi hj, if_neg hne, if_neg hne]
  exact ⟨hoff, rfl⟩

theorem enabled_of_slot {i : Nat} {p : Pair} (h : s.slot i = some p) :
    ppeIsL2bEtherTypeEnabled s i = true := by
  cases hen : ppeIsL2bEtherTypeEnabled s i with
  | true => rfl
  | false =>
    rw [Sys.slot, hen] at h
    cases h

theorem sound_set (etype : BitVec 16) (isPppoe : BitVec 32) (s : Sys) :
    Sound is7581 s (.set etype isPppoe) := by
  have hstep : s.step is7581 (.set etype isPppoe) = ppeSetL2bEtherTypeAuto is7581 etype isPppoe s :=
    rfl
  rcases set_cases is7581 etype isPppoe s with ⟨i, hi, hslot, heq⟩ | ⟨i, hi, hno, hfree, heq⟩ |
    ⟨hno, hfull, heq⟩
  · have hmem : pairOf etype isPppoe ∈ s.pairs := ⟨i, hi, hslot⟩
    have hret : (i : Int) ≠ -28 := by omega
    constructor
    case noSpace =>
      rintro _ _ ⟨rfl, rfl⟩
      simp [hstep, heq, hmem, hret]
    case unchanged =>
      intro _
      rw [hstep, heq]
    case placed =>
      rintro _ _ ⟨rfl, rfl⟩ _
      rw [hstep, heq]
      exact ⟨i, hi, rfl, hslot⟩
    case existed =>
      rintro _ _ ⟨rfl, rfl⟩
      simp [hstep, heq, hmem]
    case inserted =>
      rintro _ _ ⟨rfl, rfl⟩ _
      simp [hstep, heq, hmem]
    case present =>
      rintro _ _ ⟨rfl, rfl⟩ _
      rw [hstep, heq]
    case defaults =>
      intro j hj hoff _
      rw [hstep, heq]
      exact ⟨hoff, rfl⟩
    case absent => nofun
  · have hret : (i : Int) ≠ -28 := by omega
    constructor
    case noSpace =>
      rintro _ _ ⟨rfl, rfl⟩
      rw [hstep, heq]
      constructor
      · intro h
        exact absurd h hret
      · intro h
        exact absurd hfree (h.2 i hi)
    case unchanged =>
      intro h
      rw [hstep, heq] at h
      exact absurd h hret
    case placed =>
      rintro _ _ ⟨rfl, rfl⟩ _
      rw [hstep, heq]
      refine ⟨i, hi, rfl, ?_⟩
      rw [slot_enable is7581 hi _ _ _ i hi, Function.update_self]
    case existed =>
      rintro _ _ ⟨rfl, rfl⟩
      simp [hstep, heq, hno]
    case inserted =>
      rintro _ _ ⟨rfl, rfl⟩ _
      simp [hstep, heq, hno]
    case present =>
      rintro _ _ ⟨rfl, rfl⟩ hmem
      exact absurd hmem hno
    case defaults =>
      intro j hj hoff hvalue
      have hne : j ≠ i := by
        rintro rfl
        exact hvalue hfree.2
      rw [hstep, heq]
      exact defaults_set hi hj hne _ _ _ hoff
    case absent => nofun
  · constructor
    case noSpace =>
      rintro _ _ ⟨rfl, rfl⟩
      simp only [hstep, heq, true_iff]
      exact ⟨hno, hfull⟩
    case unchanged =>
      intro _
      rw [hstep, heq]
    case placed =>
      intro _ _ _ hret
      rw [hstep, heq] at hret
      exact absurd rfl hret
    case existed =>
      rintro _ _ ⟨rfl, rfl⟩
      simp [hstep, heq, hno]
    case inserted =>
      intro _ _ _ hret
      rw [hstep, heq] at hret
      exact absurd rfl hret
    case present =>
      intro _ _ _ _
      rw [hstep, heq]
    case defaults =>
      intro j hj hoff _
      rw [hstep, heq]
      exact ⟨hoff, rfl⟩
    case absent => nofun

theorem sound_clear (etype : BitVec 16) (isPppoe : BitVec 32) (s : Sys) :
    Sound is7581 s (.clear etype isPppoe) := by
  have hstep : s.step is7581 (.clear etype isPppoe) =
      ((ppeClearL2bEtherTypeAuto is7581 etype isPppoe s).1,
        { ret := (ppeClearL2bEtherTypeAuto is7581 etype isPppoe s).2, existed := none }) := rfl
  rcases clear_cases is7581 etype isPppoe s with ⟨i, hi, hslot, heq⟩ | ⟨hno, heq⟩
  · rw [heq] at hstep
    refine ⟨nofun, ?_, nofun, nofun, nofun, nofun, ?_, ?_⟩
    · intro h
      rw [hstep] at h
      exact absurd h (show (0 : Int) ≠ -28 by decide)
    · intro j hj hoff _
      have hne : j ≠ i := by
        rintro rfl
        rw [enabled_of_slot hslot] at hoff
        cases hoff
      rw [hstep]
      exact defaults_set hi hj hne _ _ _ hoff
    · rintro _ _ ⟨rfl, rfl⟩ hno
      exact absurd ⟨i, hi, hslot⟩ hno
  · rw [heq] at hstep
    refine ⟨nofun, ?_, nofun, nofun, nofun, nofun, ?_, ?_⟩
    · intro _
      rw [hstep]
    · intro j hj hoff _
      rw [hstep]
      exact ⟨hoff, rfl⟩
    · intro _ _ _ _
      rw [hstep]

theorem sound (is7581 : Bool) (s : Sys) (op : Op) : Sound is7581 s op := by
  cases op with
  | set etype isPppoe => exact sound_set etype isPppoe s
  | clear etype isPppoe => exact sound_clear etype isPppoe s

/-- A call changes the set of enabled pairs as it should, and enables no pair twice. -/
theorem step_pairs (h : Unique 16 s.slot) (op : Op) :
    (s.step is7581 op).1.pairs = track op (s.step is7581 op).2.ret s.pairs ∧
      Unique 16 (s.step is7581 op).1.slot := by
  cases op with
  | set etype isPppoe =>
    rw [Sys.step]
    rcases set_cases is7581 etype isPppoe s with ⟨i, hi, hslot, heq⟩ | ⟨i, hi, hno, hfree, heq⟩ |
      ⟨hno, hfull, heq⟩
    · rw [heq, track, if_pos (Int.natCast_nonneg i), Set.insert_eq_of_mem]
      · exact ⟨rfl, h⟩
      · exact ⟨i, hi, hslot⟩
    · have hslots := slot_enable is7581 hi etype isPppoe s
      rw [heq, track, if_pos (Int.natCast_nonneg i)]
      constructor
      · exact (held_congr hslots).trans (held_put hi (slot_of_free hfree))
      · exact unique_congr (fun j hj => (hslots j hj).symm) (unique_put h hno)
    · rw [heq]
      exact ⟨rfl, h⟩
  | clear etype isPppoe =>
    rw [Sys.step, track]
    rcases clear_cases is7581 etype isPppoe s with ⟨i, hi, hslot, heq⟩ | ⟨hno, heq⟩
    · have hslots := slot_disable is7581 hi isPppoe s
      rw [heq]
      constructor
      · exact (held_congr hslots).trans (held_remove h hi hslot)
      · exact unique_congr (fun j hj => (hslots j hj).symm) (unique_remove h)
    · rw [heq]
      exact ⟨(Set.sdiff_singleton_eq_self hno).symm, h⟩

/-- On a 7581 what is written is written to both. -/
theorem setL2b_same (h : s.ppe1 = s.ppe2) (i : Nat) (enable isPppoe value : BitVec 32) :
    (ppeSetL2bEtherType true i enable isPppoe value s).1.ppe1 =
      (ppeSetL2bEtherType true i enable isPppoe value s).1.ppe2 := by
  unfold ppeSetL2bEtherType
  split
  · exact h
  · simp [h]

theorem step_same (h : s.ppe1 = s.ppe2) (op : Op) :
    (s.step true op).1.ppe1 = (s.step true op).1.ppe2 := by
  cases op with
  | set etype isPppoe =>
    rw [Sys.step]
    rcases set_cases true etype isPppoe s with ⟨i, _, _, heq⟩ | ⟨i, _, _, _, heq⟩ | ⟨_, _, heq⟩
    · rw [heq]
      exact h
    · rw [heq]
      exact setL2b_same h _ _ _ _
    · rw [heq]
      exact h
  | clear etype isPppoe =>
    rw [Sys.step]
    rcases clear_cases true etype isPppoe s with ⟨i, _, _, heq⟩ | ⟨_, heq⟩
    · rw [heq]
      exact setL2b_same h _ _ _ _
    · rw [heq]
      exact h

end Step

/-! ## The result -/

/-- The table implements a set: for any calls on registers that enable no pair twice. -/
theorem l2b_implements_set (is7581 : Bool) (s : Sys) (h : Unique 16 s.slot) (ops : List Op) :
    (after is7581 s ops).pairs = tracked is7581 s ops ∧
      Unique 16 (after is7581 s ops).slot ∧
      (is7581 = true → s.ppe1 = s.ppe2 →
        (after is7581 s ops).ppe1 = (after is7581 s ops).ppe2) ∧
      ∀ op, Sound is7581 (after is7581 s ops) op := by
  induction ops with
  | nil => exact ⟨rfl, h, fun _ hsame => hsame, sound is7581 s⟩
  | cons op ops ih =>
    obtain ⟨hpairs, hunique, hsame, -⟩ := ih
    obtain ⟨hpairs', hunique'⟩ := step_pairs hunique op
    refine ⟨?_, hunique', ?_, sound is7581 _⟩
    · rw [after, tracked, hpairs', hpairs]
    · rintro rfl heq
      exact step_same (hsame rfl heq) op

/-- Registers that read zero. -/
def zeroRegs : Sys where
  ppe1 := ⟨0#32, fun _ => 0#32⟩
  ppe2 := ⟨0#32, fun _ => 0#32⟩

theorem unique_zeroRegs : Unique 16 zeroRegs.slot := by
  intro i hi j hj k hik
  have hnone : zeroRegs.slot i = none := by
    rw [Sys.slot, enabled_eq hi, zeroRegs]
    simp
  rw [hnone] at hik
  cases hik

theorem l2b_implements_set_zeroRegs :
    let ops := [Op.clear 0x0800#16 0#32, .set 0x0021#16 1#32, .set 0x0800#16 0#32]
    (after true zeroRegs ops).pairs = tracked true zeroRegs ops ∧
      Unique 16 (after true zeroRegs ops).slot ∧
      (true = true → zeroRegs.ppe1 = zeroRegs.ppe2 →
        (after true zeroRegs ops).ppe1 = (after true zeroRegs ops).ppe2) ∧
      ∀ op, Sound true (after true zeroRegs ops) op :=
  l2b_implements_set true zeroRegs unique_zeroRegs _

end Airoha.Ppe.L2b
