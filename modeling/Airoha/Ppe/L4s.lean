/-
Airoha.Ppe.L4s — what the L4S redirect of an entry saves.

`arht_ppe_l4s_apply` sends the packets of an entry to the NPU. The channel and
queue it overwrites go to ACTDP of `data`, the control bits of `ib2` to
TUNNEL_MTU, the upper half of the meter word. ACTDP is cleared first,
TUNNEL_MTU is not, and nothing before clears it either:
`l4sBackup_iff` says that the bits are saved exactly when what was left in it are
some of them.

The function is `arhtPpeL4sApply` of `Airoha.Ppe.Egress`, which the functions
there call. Its messages are left out.
-/
import Airoha.Ppe.Egress

namespace Airoha.Ppe

open Airoha.Lib

/-- The bits the redirect writes: ACTDP, TUNNEL_MTU and NBQ, PSE_PORT and PSE_QOS of `ib2`. -/
def l4sWrites (type : PktType) (k : Fin 20) (i : Nat) : Prop :=
  (k = 10 ∧ 24 ≤ i) ∨ (k = 16 ∧ 16 ≤ i) ∨ (k = (l4sView type).ib2 ∧ i < 10)

/-- `ib2` as it was: its control bits from the upper half of the meter word. -/
def l4sRestoredIb2 (e : FoeEntry) (type : PktType) : BitVec 32 :=
  (e.ib2 (l4sView type) &&& ~~~l4sBackup) ||| (hi16 (e.get 16)).setWidth 32

/-- What is asked of the redirect of `e` to `e'`. -/
structure L4sBackedUp (type : PktType) (e e' : FoeEntry) : Prop where
  actdp : fieldGet 24 8 e'.data = fieldGet 8 8 e.data
  tunnelMtu : hi16 (e'.get 16) = lo16 (e.ib2 (l4sView type) &&& l4sBackup)
  kept : ∀ k i, ¬ l4sWrites type k i → (e'.get k).getLsbD i = (e.get k).getLsbD i
  restored : l4sRestoredIb2 e' type = e.ib2 (l4sView type)

/-- Nothing is in TUNNEL_MTU but control bits that are set in `ib2`. -/
def L4sNoStale (type : PktType) (e : FoeEntry) : Prop :=
  hi16 (e.get 16) &&& ~~~lo16 (e.ib2 (l4sView type) &&& l4sBackup) = 0#16

instance (type : PktType) (e : FoeEntry) : Decidable (L4sNoStale type e) :=
  inferInstanceAs (Decidable (_ = _))

section Redirect

variable {type : PktType} {e : FoeEntry} {l4sFlag : Bool} {dscp : BitVec 8}

/-- The control bits are the lower eleven. -/
theorem l4sBackup_eq : l4sBackup = mask 32 0 11 := by decide

theorem l4sView_ib2_ne (type : PktType) : (l4sView type).ib2 ≠ 10 ∧ (l4sView type).ib2 ≠ 16 := by
  cases l4sView type <;> decide

theorem FoeEntry.data_eq : e.data = e.get 10 := rfl

/-- The redirected `ib2`: bits 10 and up stay. -/
def l4sIb2 (ib2 : BitVec 32) : BitVec 32 :=
  let nbq : BitVec 32 := if psePort ib2 = 1#32 then 2#32 else 1#32
  (ib2 &&& ~~~(mask 32 0 5 ||| mask 32 5 4 ||| mask 32 9 1)) |||
    (fieldPrep 5 4 6#32 ||| fieldPrep 0 5 nbq)

theorem getLsbD_l4sIb2 (ib2 : BitVec 32) {i : Nat} (hi : 10 ≤ i) :
    (l4sIb2 ib2).getLsbD i = ib2.getLsbD i := by
  have h5 : ¬ i < 0 + 5 := by omega
  have h9 : ¬ i < 5 + 4 := by omega
  have h10 : ¬ i < 9 + 1 := by omega
  cases hb : ib2.getLsbD i with
  | false =>
    simp only [l4sIb2, BitVec.getLsbD_or, BitVec.getLsbD_and, getLsbD_fieldPrep, hb, h5, h9]
    simp
  | true =>
    have hlt := BitVec.lt_of_getLsbD hb
    simp only [l4sIb2, BitVec.getLsbD_or, BitVec.getLsbD_and, BitVec.getLsbD_not, getLsbD_fieldPrep,
      getLsbD_mask, hb, h5, h9, h10, hlt]
    simp

/-- The words of a redirected entry. -/
theorem get_arhtPpeL4sApply (h : l4sApplies l4sFlag dscp = true) (k : Fin 20) :
    (arhtPpeL4sApply l4sFlag e type dscp).get k =
      if k = 10 then (e.data &&& ~~~mask 32 24 8) ||| fieldPrep 24 8 (fieldGet 8 8 e.data)
      else if k = 16 then e.get 16 ||| fieldPrep 16 16 (e.ib2 (l4sView type) &&& l4sBackup)
      else if k = (l4sView type).ib2 then l4sIb2 (e.ib2 (l4sView type))
      else e.get k := by
  obtain ⟨h10, h16⟩ := l4sView_ib2_ne type
  have hne : (16 : Fin 20) ≠ 10 := by decide
  unfold arhtPpeL4sApply
  rw [if_pos h]
  simp only [FoeEntry.putIb2, FoeEntry.ib2, FoeEntry.putData, FoeEntry.get_put, h10.symm, h16.symm,
    hne.symm, if_false, if_true, eq_comm (a := k)]
  by_cases hk : (l4sView type).ib2 = k
  · subst hk
    rw [if_pos rfl, if_neg h10.symm, if_neg h16.symm, if_pos rfl]
    rfl
  · rw [if_neg hk, if_neg hk, if_neg hk]
    by_cases hk16 : 16 = k
    · subst hk16
      rw [if_pos rfl, if_pos rfl, if_neg hne.symm]
    · rw [if_neg hk16, if_neg hk16]

/-- A word is its control bits and the rest. -/
theorem control_or_rest (x : BitVec 32) :
    (x &&& ~~~l4sBackup) ||| (lo16 (x &&& l4sBackup)).setWidth 32 = x := by
  apply BitVec.eq_of_getLsbD_eq
  intro i hi
  simp only [l4sBackup_eq, BitVec.getLsbD_or, BitVec.getLsbD_and, BitVec.getLsbD_not,
    BitVec.getLsbD_setWidth, getLsbD_lo16, getLsbD_mask, hi]
  by_cases h11 : i < 11
  · have h16 : i < 16 := by omega
    simp [h11, h16]
  · simp [h11]

/-- Everything but TUNNEL_MTU is as it should be, whatever the entry held. -/
theorem kept_arhtPpeL4sApply (h : l4sApplies l4sFlag dscp = true) (k : Fin 20) (i : Nat)
    (hout : ¬ l4sWrites type k i) :
    ((arhtPpeL4sApply l4sFlag e type dscp).get k).getLsbD i = (e.get k).getLsbD i := by
  simp only [l4sWrites, not_or, not_and, not_le, not_lt] at hout
  obtain ⟨hdata, hmeter, hib2⟩ := hout
  rw [get_arhtPpeL4sApply h]
  by_cases h10 : k = 10
  · subst h10
    have h24 : ¬ 24 ≤ i := by simpa using hdata rfl
    simp only [if_true, FoeEntry.data_eq, BitVec.getLsbD_or, BitVec.getLsbD_and, BitVec.getLsbD_not,
      getLsbD_mask, getLsbD_fieldPrep, h24]
    cases hb : (e.get 10).getLsbD i with
    | false => simp
    | true => simp [BitVec.lt_of_getLsbD hb]
  · rw [if_neg h10]
    by_cases h16 : k = 16
    · subst h16
      have hlow : ¬ 16 ≤ i := by simpa using hmeter rfl
      simp [getLsbD_fieldPrep, hlow]
    · rw [if_neg h16]
      by_cases hk : k = (l4sView type).ib2
      · subst hk
        rw [if_pos rfl]
        exact getLsbD_l4sIb2 _ (hib2 rfl)
      · rw [if_neg hk]

/-- The bits are saved exactly when TUNNEL_MTU held no others. -/
theorem l4sBackedUp_iff (h : l4sApplies l4sFlag dscp = true) :
    L4sBackedUp type e (arhtPpeL4sApply l4sFlag e type dscp) ↔ L4sNoStale type e := by
  obtain ⟨h10, h16⟩ := l4sView_ib2_ne type
  have hmeter : hi16 ((arhtPpeL4sApply l4sFlag e type dscp).get 16) =
      hi16 (e.get 16) ||| lo16 (e.ib2 (l4sView type) &&& l4sBackup) := by
    rw [get_arhtPpeL4sApply h, if_neg (by decide), if_pos rfl, hi16_or_fieldPrep]
  constructor
  · intro hb
    have hmtu := hb.tunnelMtu
    rw [hmeter] at hmtu
    exact (or_eq_right_iff _ _).mp hmtu
  · intro hs
    have hmtu := hmeter.trans ((or_eq_right_iff _ _).mpr hs)
    constructor
    · have hdata : (arhtPpeL4sApply l4sFlag e type dscp).data =
          (e.data &&& ~~~mask 32 24 8) ||| fieldPrep 24 8 (fieldGet 8 8 e.data) := by
        exact (get_arhtPpeL4sApply h 10).trans (if_pos rfl)
      rw [hdata, fieldGet_or, fieldGet_clear_self, fieldGet_fieldPrep_self (by decide),
        BitVec.zero_or, fieldGet_and_mask_width]
    · exact hmtu
    · exact kept_arhtPpeL4sApply h
    · rw [l4sRestoredIb2, hmtu]
      have hword : (arhtPpeL4sApply l4sFlag e type dscp).ib2 (l4sView type) &&& ~~~l4sBackup =
          e.ib2 (l4sView type) &&& ~~~l4sBackup := by
        apply BitVec.eq_of_getLsbD_eq
        intro i hi
        rw [FoeEntry.ib2, get_arhtPpeL4sApply h, if_neg h10, if_neg h16, if_pos rfl]
        simp only [BitVec.getLsbD_and, BitVec.getLsbD_not, l4sBackup_eq, getLsbD_mask]
        by_cases h11 : i < 11
        · simp [h11, hi]
        · rw [getLsbD_l4sIb2 _ (by omega)]
      rw [hword, control_or_rest]

/-- The redirect saves what it overwrites exactly when it is not made or TUNNEL_MTU has nothing left
that `ib2` does not have, and an entry it is not made for stays as it is. -/
theorem l4sApply_iff (l4sFlag : Bool) (e : FoeEntry) (type : PktType) (dscp : BitVec 8) :
    (if l4sApplies l4sFlag dscp then L4sBackedUp type e (arhtPpeL4sApply l4sFlag e type dscp)
      else arhtPpeL4sApply l4sFlag e type dscp = e) ↔
      (l4sApplies l4sFlag dscp = true → L4sNoStale type e) := by
  by_cases h : l4sApplies l4sFlag dscp = true
  · rw [if_pos h, l4sBackedUp_iff h]
    simp [h]
  · rw [if_neg h, arhtPpeL4sApply, if_neg h]
    simp [h]

/-- A recycled entry with bit 11 left in TUNNEL_MTU. -/
def recycledEntry : FoeEntry := Vector.ofFn fun k => if k = 16 then 0x08000000#32 else 0#32

theorem not_l4sBackedUp_recycledEntry :
    ¬ (if l4sApplies true 1#8 then
        L4sBackedUp .ipv4Hnapt recycledEntry (arhtPpeL4sApply true recycledEntry .ipv4Hnapt 1#8)
      else arhtPpeL4sApply true recycledEntry .ipv4Hnapt 1#8 = recycledEntry) := by
  rw [if_pos (by decide)]
  intro h
  have hmtu := h.tunnelMtu
  revert hmtu
  decide

end Redirect

end Airoha.Ppe
