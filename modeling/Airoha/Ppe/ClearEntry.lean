/-
Airoha.Ppe.ClearEntry — the two functions that clear an entry behind its key.

Translates `PpeClearEntryInfo` of `arht_ppe.c`, which has offsets and lengths
written by hand, and `clear_foe_entry` of `arht_dp_api.c`, which takes the
offset of a member of the view. Both are a `memset` with zero.

`clearsToKey_iff` says when they leave `ib1` and the key and nothing else. The
length for a DS-Lite entry is the one of another offset and misses the last
eight bytes; the member taken of the view `bridge` is `data`, sixteen
bytes behind the key.
-/
import Airoha.Ppe.Foe

namespace Airoha.Ppe

open Airoha.Lib

/-! ## Bytes -/

namespace FoeEntry

/-- Byte `i` of the entry. -/
def byte (e : FoeEntry) (i : Fin 80) : BitVec 8 :=
  (e.get ⟨i / 4, by omega⟩).extractLsb' (8 * (i % 4)) 8

/-- `memset((char *)hwe + off, 0, n)` -/
def memset0 (e : FoeEntry) (off n : Nat) : FoeEntry :=
  Vector.ofFn fun k =>
    let b (j : Nat) : BitVec 8 :=
      if off ≤ 4 * k + j ∧ 4 * k + j < off + n then 0#8 else (e.get k).extractLsb' (8 * j) 8
    b 3 ++ b 2 ++ b 1 ++ b 0

theorem byte_memset0 (e : FoeEntry) (off n : Nat) (i : Fin 80) :
    (e.memset0 off n).byte i = if off ≤ i ∧ i < off + n then 0#8 else e.byte i := by
  have hi : 4 * (i.val / 4) + i.val % 4 = i := Nat.div_add_mod i.val 4
  have h := extract_append_four (fun j =>
    if off ≤ 4 * (i.val / 4) + j ∧ 4 * (i.val / 4) + j < off + n then 0#8
    else (e.get ⟨i / 4, by omega⟩).extractLsb' (8 * j) 8) (Nat.mod_lt i.val (by decide : 0 < 4))
  rw [byte, memset0, Vector.get_ofFn]
  simp only [hi] at h
  exact h

/-- An entry is its bytes. -/
theorem ext_byte {e e' : FoeEntry} (h : ∀ i, e.byte i = e'.byte i) : e = e' := by
  apply Vector.ext
  intro k hk
  apply BitVec.eq_of_getLsbD_eq
  intro m hm
  have hb := congrArg (fun b => b.getLsbD (m % 8)) (h ⟨4 * k + m / 8, by omega⟩)
  have hdiv : (4 * k + m / 8) / 4 = k := by omega
  have hmod : (4 * k + m / 8) % 4 = m / 8 := by omega
  have hsum : 8 * (m / 8) + m % 8 = m := Nat.div_add_mod m 8
  have hlt : m % 8 < 8 := Nat.mod_lt m (by decide)
  simpa [byte, hdiv, hmod, BitVec.getLsbD_extractLsb', hsum, hlt, Vector.get_eq_getElem] using hb

end FoeEntry

/-! ## The functions -/

/-- `PPE_CLEAR_OFFSET1` to `PPE_CLEAR_OFFSET4` -/
def ppeClearOffset1 : Nat := 16
def ppeClearOffset2 : Nat := 40
def ppeClearOffset3 : Nat := 40
def ppeClearOffset4 : Nat := 24
/-- `SIZE_OF_FOE_ENTRY` and `PPE_ENTRY_SIZE` -/
def sizeOfFoeEntry : Nat := 80

/-- `PpeClearEntryInfo` -/
def ppeClearEntryInfo (e : FoeEntry) : FoeEntry :=
  match e.pktType with
  | .bridge => e.memset0 ppeClearOffset4 (sizeOfFoeEntry - ppeClearOffset4)
  -- the length is the one that goes with offset 4
  | .ipv4Dslite => e.memset0 ppeClearOffset1 (sizeOfFoeEntry - ppeClearOffset4)
  | .ipv4Hnapt | .ipv4Route => e.memset0 ppeClearOffset1 (sizeOfFoeEntry - ppeClearOffset1)
  | .ipv6Route3t | .ipv6Route5t => e.memset0 ppeClearOffset2 (sizeOfFoeEntry - ppeClearOffset2)
  | .ipv66rd => e.memset0 ppeClearOffset3 (sizeOfFoeEntry - ppeClearOffset3)
  | .reserved => e

/-- `sizeof(ib1)` and the offset of `bridge.data`, `ipv6.data` or `ipv4.ib2` -/
def clearOffset (type : PktType) : Nat :=
  if type = .bridge then 4 + 36
  else if PktType.ipv6Route3t.code ≤ type.code then 4 + 36
  else 4 + 12

/-- `clear_foe_entry` -/
def clearFoeEntry (e : FoeEntry) : FoeEntry :=
  e.memset0 (clearOffset e.pktType) (sizeOfFoeEntry - clearOffset e.pktType)

/-! ## The key -/

/-- Where the key of a type ends. -/
def keyEnd (type : PktType) : Nat :=
  match type with
  | .ipv4Hnapt | .ipv4Route | .ipv4Dslite => 16
  | .bridge => 24
  | .ipv6Route3t | .ipv6Route5t | .ipv66rd | .reserved => 40

/-- The words of the key. -/
def FoeEntry.key (e : FoeEntry) : List (BitVec 32) :=
  (e.toList.take (keyEnd e.pktType / 4)).tail

/-- The entry with this `ib1` and key and nothing else. -/
def FoeEntry.ofKey (ib1 : BitVec 32) (key : List (BitVec 32)) : FoeEntry :=
  Vector.ofFn fun k => (ib1 :: key).getD k 0#32

/-- `ib1` and the key of the entry, everything else zero. -/
def FoeEntry.keyOnly (e : FoeEntry) : FoeEntry :=
  e.memset0 (keyEnd e.pktType) (sizeOfFoeEntry - keyEnd e.pktType)

section Cleared

variable {e : FoeEntry}

/-- The bytes from `ke` on are zero and those below it are `e`'s. -/
def KeepsBelow (ke : Nat) (e f : FoeEntry) : Prop :=
  ∀ i : Fin 80, f.byte i = if i.val < ke then e.byte i else 0#8

theorem KeepsBelow.unique {ke : Nat} {f g : FoeEntry} (hf : KeepsBelow ke e f)
    (hg : KeepsBelow ke e g) : f = g :=
  FoeEntry.ext_byte fun i => (hf i).trans (hg i).symm

/-- A `memset` behind the key leaves what lies between the key and it, and what lies behind it. -/
theorem keepsBelow_memset0_iff {ke off n : Nat} (h : ke ≤ off) :
    KeepsBelow ke e (e.memset0 off n) ↔
      ∀ i : Fin 80, ke ≤ i.val → (i.val < off ∨ off + n ≤ i.val) → e.byte i = 0#8 := by
  constructor
  · intro hk i hi hout
    have hmiss : ¬ (off ≤ i.val ∧ i.val < off + n) := by omega
    have hbyte := hk i
    rwa [FoeEntry.byte_memset0, if_neg hmiss, if_neg (Nat.not_lt.mpr hi)] at hbyte
  · intro hz i
    rw [FoeEntry.byte_memset0]
    by_cases hin : off ≤ i.val ∧ i.val < off + n
    · have hbehind : ¬ i.val < ke := by omega
      rw [if_pos hin, if_neg hbehind]
    · rw [if_neg hin]
      by_cases hi : i.val < ke
      · rw [if_pos hi]
      · rw [if_neg hi]
        exact hz i (by omega) (by omega)

/-- One that begins at the key and ends with the entry leaves the key. -/
theorem keepsBelow_memset0 {ke n : Nat} (h : ke + n = 80) : KeepsBelow ke e (e.memset0 ke n) := by
  rw [keepsBelow_memset0_iff (Nat.le_refl ke)]
  intro i hi hout
  omega

theorem get_ofKey (k : Fin 20) : (FoeEntry.ofKey e.ib1 e.key).get k =
    if k.val < keyEnd e.pktType / 4 then e.get k else 0#32 := by
  obtain ⟨m, hm⟩ : ∃ m, keyEnd e.pktType / 4 = m + 1 :=
    Nat.exists_eq_succ_of_ne_zero (by cases e.pktType <;> decide)
  have hlist : e.ib1 :: e.key = e.toList.take (m + 1) := by
    have hcons : e.toList = e.ib1 :: e.toList.tail := by
      rw [FoeEntry.ib1, ← Vector.getElem_toList (by simp), ← List.drop_one,
        ← List.drop_eq_getElem_cons, List.drop_zero]
    rw [FoeEntry.key, hm, hcons, List.take_succ_cons, List.tail_cons]
  rw [FoeEntry.ofKey, Vector.get_ofFn, hlist, hm, List.getD_eq_getElem?_getD, List.getElem?_take]
  by_cases hk : k.val < m + 1
  · rw [if_pos hk, if_pos hk, List.getElem?_eq_getElem (by simp)]
    simp [Vector.get_eq_getElem]
  · rw [if_neg hk, if_neg hk, Option.getD_none]

theorem keyOnly_eq_ofKey : e.keyOnly = FoeEntry.ofKey e.ib1 e.key := by
  apply FoeEntry.ext_byte
  intro i
  have hdvd : 4 * (keyEnd e.pktType / 4) = keyEnd e.pktType ∧ keyEnd e.pktType ≤ 80 := by
    cases e.pktType <;> decide
  have hbelow : i.val / 4 < keyEnd e.pktType / 4 ↔ i.val < keyEnd e.pktType := by omega
  rw [FoeEntry.keyOnly, sizeOfFoeEntry, keepsBelow_memset0 (Nat.add_sub_cancel' hdvd.2) i,
    FoeEntry.byte, FoeEntry.byte, get_ofKey]
  simp only [hbelow]
  split
  · rfl
  · simp

/-! ## When only the key is left -/

/-- What is asked of both functions: `ib1` and the key stay, every other byte is zero. -/
structure ClearsToKey (e : FoeEntry) : Prop where
  ppe : KeepsBelow (keyEnd e.pktType) e (ppeClearEntryInfo e)
  foe : KeepsBelow (keyEnd e.pktType) e (clearFoeEntry e)
  agree : ppeClearEntryInfo e = clearFoeEntry e
  fromKey : ppeClearEntryInfo e = FoeEntry.ofKey e.ib1 e.key

/-- The bytes that one of the functions misses. -/
def missedBytes (type : PktType) (i : Nat) : Prop :=
  match type with
  | .ipv4Dslite => 72 ≤ i
  | .bridge => 24 ≤ i ∧ i < 40
  | .ipv4Hnapt | .ipv4Route | .ipv6Route3t | .ipv6Route5t | .ipv66rd | .reserved => False

/-- They are zero. -/
def NoLeftover (e : FoeEntry) : Prop := ∀ i : Fin 80, missedBytes e.pktType i → e.byte i = 0#8

theorem keepsBelow_ppe_iff (h : e.pktType ≠ .reserved) :
    KeepsBelow (keyEnd e.pktType) e (ppeClearEntryInfo e) ↔
      (e.pktType = .ipv4Dslite → NoLeftover e) := by
  unfold NoLeftover
  cases ht : e.pktType with
  | ipv4Dslite =>
    simp only [ppeClearEntryInfo, ht, keyEnd, missedBytes, true_implies]
    rw [keepsBelow_memset0_iff (by decide : 16 ≤ ppeClearOffset1)]
    constructor
    · intro hz i hi
      exact hz i (by omega) (Or.inr hi)
    · intro hz i hi hout
      apply hz i
      simp only [ppeClearOffset1, ppeClearOffset4, sizeOfFoeEntry] at hout
      omega
  | reserved => exact absurd ht h
  | ipv4Hnapt | ipv4Route | bridge | ipv6Route3t | ipv6Route5t | ipv66rd =>
    simp only [ppeClearEntryInfo, ht, keyEnd, reduceCtorEq, false_implies, iff_true]
    exact keepsBelow_memset0 rfl

theorem keepsBelow_clearFoeEntry_iff (h : e.pktType ≠ .reserved) :
    KeepsBelow (keyEnd e.pktType) e (clearFoeEntry e) ↔ (e.pktType = .bridge → NoLeftover e) := by
  unfold NoLeftover
  cases ht : e.pktType with
  | bridge =>
    simp only [clearFoeEntry, ht, keyEnd, missedBytes, true_implies]
    rw [keepsBelow_memset0_iff (by decide)]
    constructor
    · intro hz i hi
      exact hz i hi.1 (Or.inl hi.2)
    · intro hz i hi hout
      apply hz i
      simp only [clearOffset, sizeOfFoeEntry, if_true] at hout
      omega
  | reserved => exact absurd ht h
  | ipv4Hnapt | ipv4Route | ipv4Dslite | ipv6Route3t | ipv6Route5t | ipv66rd =>
    simp only [clearFoeEntry, ht, keyEnd, reduceCtorEq, false_implies, iff_true]
    exact keepsBelow_memset0 rfl

/-- Both leave the key and nothing else exactly when the bytes they miss are zero already. -/
theorem clearsToKey_iff (e : FoeEntry) (h : e.pktType ≠ .reserved) :
    ClearsToKey e ↔ NoLeftover e := by
  constructor
  · intro hc
    have hppe := (keepsBelow_ppe_iff h).mp hc.ppe
    have hfoe := (keepsBelow_clearFoeEntry_iff h).mp hc.foe
    cases ht : e.pktType with
    | ipv4Dslite => exact hppe ht
    | bridge => exact hfoe ht
    | ipv4Hnapt | ipv4Route | ipv6Route3t | ipv6Route5t | ipv66rd | reserved =>
      intro i hi
      rw [ht] at hi
      exact hi.elim
  · intro hz
    have hppe := (keepsBelow_ppe_iff h).mpr fun _ => hz
    have hfoe := (keepsBelow_clearFoeEntry_iff h).mpr fun _ => hz
    have hkey : KeepsBelow (keyEnd e.pktType) e e.keyOnly :=
      keepsBelow_memset0 (by cases e.pktType <;> rfl)
    exact ⟨hppe, hfoe, hppe.unique hfoe, (hppe.unique hkey).trans keyOnly_eq_ofKey⟩

end Cleared

/-- An IPv6 entry with all bytes set. -/
def usedRoute : FoeEntry := Vector.ofFn fun _ => 0xabababab#32

theorem clearsToKey_usedRoute : ClearsToKey usedRoute :=
  (clearsToKey_iff usedRoute (by decide)).mpr fun _ hi => hi.elim

/-- A DS-Lite entry whose last word is left from an earlier flow. -/
def usedDslite : FoeEntry := Vector.ofFn fun k => if k = 0 then 0x06000000#32 else 0xabababab#32

theorem not_clearsToKey_usedDslite : ¬ ClearsToKey usedDslite := by
  intro h
  have hbyte := h.ppe 79
  revert hbyte
  decide

end Airoha.Ppe
