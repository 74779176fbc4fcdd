/-
Airoha.Ppe.SetMac — the MAC addresses of a flow that is bound.

Translates `airoha_set_ppe_mac`, with `set_ppe_entry_smac_index`. The types up
to DS-Lite have both addresses in the entry, the IPv6 types the number of a
slot of the shrink table for the source, of which 15 stands for "keep". The
function writes the source of a bridged flow through `struct airoha_foe_mac_info`
although the entry ends in `meter` and `tunnel_mtu` there.

`Resolves` says that the addresses are read back as given and the rest is left
alone, `resolves_iff` when.
-/
import Airoha.Ppe.Foe
import Airoha.Ppe.ShrinkFind

namespace Airoha.Ppe

open Airoha.Lib

/-! ## The functions -/

/-- `set_ppe_entry_smac_index` -/
def setPpeEntrySmacIndex (e : FoeEntry) (value : BitVec 8) : FoeEntry :=
  if 0x10#8 = value then
    e.putSrcMacHi .ipv6 ((e.srcMacHi .ipv6 &&& ~~~mask 32 16 5) ||| fieldPrep 16 5 0xf#32)
  else
    e.putSrcMacHi .ipv6
      ((e.srcMacHi .ipv6 &&& ~~~mask 32 16 5) ||| fieldPrep 16 5 (value.setWidth 32))

/-- `airoha_is_bridge_packet` -/
def airohaIsBridgePacket (devAddr srcAddr : Mac) : Bool := !decide (devAddr = srcAddr)

/-- The `l2` of `airoha_set_ppe_mac`, none for `NULL`. -/
def setMacL2 (type : PktType) : Option L2 :=
  match type with
  | .ipv4Route | .ipv4Hnapt => some .ipv4
  | .bridge => some .ipv6
  | .ipv6Route3t | .ipv6Route5t | .ipv66rd => some .ipv6
  | .ipv4Dslite => some .ipv4
  | .reserved => none

/-- What the shrink table is searched with. -/
structure FindCtx where
  maxEntries : Nat
  foe : Nat → Option FoeState
  jiffies : BitVec 64

/-- `shrinkField`, with the address copied to it. -/
def smacField (srcMac : Mac) : ShrinkField :=
  { smac := srcMac, egIpv4 := Vector.replicate 2 0#32, egIpv6 := Vector.replicate 8 0#32,
    foeIdx := 0 }

/-- `find_and_update_shrink_table(PPE_UPDMEM_SEL_SMAC, &shrinkField)` -/
def findSmac (ctx : FindCtx) (srcMac : Mac) (s : Shrink) : Shrink × Option Nat :=
  findAndUpdateShrinkTable ctx.maxEntries ctx.foe ctx.jiffies .smac (smacField srcMac) s

/-- The source of a type up to DS-Lite. -/
def setMacIpv4 (l2 : L2) (srcMac : Mac) (pppid : BitVec 16) (e : FoeEntry) : FoeEntry :=
  let e := (e.putSrcMacHi l2 srcMac.hi).putSrcMacLo l2 srcMac.lo
  if pppid ≠ 0#16 then e.putPppoeId l2 pppid else e

/-- The number of the slot of the source of an IPv6 type. -/
def setMacSlot (ctx : FindCtx) (dev : Option Mac) (srcMac : Mac) (e : FoeEntry) (s : Shrink) :
    FoeEntry × Shrink :=
  if dev.any fun devAddr => airohaIsBridgePacket devAddr srcMac then
    (setPpeEntrySmacIndex e 0x10#8, s)
  else
    match findSmac ctx srcMac s with
    | (s, some index) => (setPpeEntrySmacIndex e (BitVec.ofNat 8 index), s)
    | (s, none) => (e, s)

/-- The PPPoE id of an IPv6 type. -/
def setMacPppoe (l2 : L2) (pppid : BitVec 16) (e : FoeEntry) : FoeEntry :=
  if pppid ≠ 0#16 then
    e.putSrcMacHi l2 (e.srcMacHi l2 ||| fieldPrep 0 16 (pppid.setWidth 32))
  else e

/-- `airoha_set_ppe_mac`. `dev` is the address of the device, none for `NULL`. -/
def airohaSetPpeMac (ctx : FindCtx) (dev : Option Mac) (srcMac dstMac : Mac) (pppid : BitVec 16)
    (e : FoeEntry) (s : Shrink) : Int × FoeEntry × Shrink :=
  match setMacL2 e.pktType with
  | none => (-1, e, s)
  | some l2 =>
      let e1 := (e.putDestMacHi l2 dstMac.hi).putDestMacLo l2 dstMac.lo
      if e.pktType.code ≤ PktType.ipv4Dslite.code then (0, setMacIpv4 l2 srcMac pppid e1, s)
      else
        let r := setMacSlot ctx dev srcMac e1 s
        (0, setMacPppoe l2 pppid r.1, r.2)

/-! ## What is meant -/

/-- The flow keeps the source it comes with. -/
def Keeps (dev : Option Mac) (srcMac : Mac) : Prop :=
  ∃ devAddr, dev = some devAddr ∧ airohaIsBridgePacket devAddr srcMac = true

theorem keeps_iff (dev : Option Mac) (srcMac : Mac) :
    (dev.any fun devAddr => airohaIsBridgePacket devAddr srcMac) = true ↔ Keeps dev srcMac := by
  cases dev <;> simp [Keeps]

instance (dev : Option Mac) (srcMac : Mac) : Decidable (Keeps dev srcMac) :=
  decidable_of_iff _ (keeps_iff dev srcMac)

/-- The PPPoE id of an entry. -/
def pppoeIdOf (e : FoeEntry) (l2 : L2) : BitVec 16 :=
  if e.pktType.code ≤ PktType.ipv4Dslite.code then lo16 (e.get (l2.at 4))
  else lo16 (e.srcMacHi l2)

/-- The bits of an entry that are MAC addresses, the number of a slot, or a PPPoE id. -/
def macBits (type : PktType) (k : Fin 20) : BitVec 32 :=
  match type with
  | .ipv4Hnapt | .ipv4Route | .ipv4Dslite =>
      if k = 12 ∨ k = 14 ∨ k = 15 then mask 32 0 32
      else if k = 13 then mask 32 16 16
      else 0#32
  | .bridge =>
      if k = 13 ∨ k = 15 then mask 32 0 32 else if k = 14 then mask 32 16 16 else 0#32
  | .ipv6Route3t | .ipv6Route5t | .ipv66rd =>
      if k = 13 then mask 32 0 32
      else if k = 14 then mask 32 16 16
      else if k = 15 then mask 32 0 21
      else 0#32
  | .reserved => 0#32

/-- The addresses and the PPPoE id are read back from `e'` as they were given, and the rest is as in
`e`. -/
structure Resolves (dev : Option Mac) (srcMac dstMac : Mac) (pppid : BitVec 16) (e e' : FoeEntry)
    (tbl : Table) (l2 : L2) : Prop where
  dest : Mac.of (e'.destMacHi l2) (e'.destMacLo l2) = dstMac
  source : e.pktType.code ≤ PktType.ipv4Dslite.code →
    Mac.of (e'.srcMacHi l2) (hi16 (e'.get (l2.at 4))) = srcMac
  keep : PktType.ipv4Dslite.code < e.pktType.code →
    (getPpeEntrySmacIndex e' .ipv6Route5t = 0x10 ↔ Keeps dev srcMac)
  slot : PktType.ipv4Dslite.code < e.pktType.code → ¬ Keeps dev srcMac →
    getPpeEntrySmacIndex e' .ipv6Route5t < updmemNum ∧
      (tbl .smac (getPpeEntrySmacIndex e' .ipv6Route5t)).content = srcMac
  pppoe : pppid ≠ 0#16 → pppoeIdOf e' l2 = pppid
  frame : ∀ k, e'.get k &&& ~~~macBits e.pktType k = e.get k &&& ~~~macBits e.pktType k

/-- When `airoha_set_ppe_mac` returns 0 it has done so. -/
def SetsMac (ctx : FindCtx) (dev : Option Mac) (srcMac dstMac : Mac) (pppid : BitVec 16)
    (e : FoeEntry) (s : Shrink) : Prop :=
  let r := airohaSetPpeMac ctx dev srcMac dstMac pppid e s
  r.1 = 0 → ∀ l2, setMacL2 e.pktType = some l2 →
    Resolves dev srcMac dstMac pppid e r.2.1 r.2.2.shnkTbl l2

/-- The slot a search for the address ends at. -/
def slotFor (ctx : FindCtx) (srcMac : Mac) (s : Shrink) : Option Nat :=
  (firstMatch srcMac (s.shnkTbl .smac)).or (victim ctx.jiffies (s.shnkTbl .smac))

/-- `tunnel_mtu` and `meter` of a bridged flow happen to be what is written there; an IPv6 flow
keeps its source or has it in a slot before the last, and has no PPPoE bits that are not in the
id. -/
def MacGuarded (ctx : FindCtx) (dev : Option Mac) (srcMac : Mac) (pppid : BitVec 16)
    (e : FoeEntry) (s : Shrink) : Prop :=
  match e.pktType with
  | .ipv4Hnapt | .ipv4Route | .ipv4Dslite | .reserved => True
  | .bridge => hi16 (e.get 16) = srcMac.lo ∧ (pppid ≠ 0#16 → lo16 (e.get 16) = pppid)
  | .ipv6Route3t | .ipv6Route5t | .ipv66rd =>
      (Keeps dev srcMac ∨ ∃ k < 15, slotFor ctx srcMac s = some k) ∧
        (pppid ≠ 0#16 → lo16 (e.srcMacHi .ipv6) ||| pppid = pppid)

/-! ## The words that are written -/

section Words

variable {e : FoeEntry} {l2 : L2} {srcMac dstMac : Mac} {pppid : BitVec 16}

theorem get_putDest (e : FoeEntry) (l2 : L2) (hi : BitVec 32) (lo : BitVec 16) (k : Fin 20) :
    ((e.putDestMacHi l2 hi).putDestMacLo l2 lo).get k =
      if k = l2.at 1 then hi
      else if k = l2.at 2 then lo ++ lo16 (e.get (l2.at 2))
      else e.get k := by
  have h12 : l2.at 1 ≠ l2.at 2 := by
    rw [Ne, L2.at_inj]
    decide
  unfold FoeEntry.putDestMacHi FoeEntry.putDestMacLo
  simp only [FoeEntry.get_put, h12, if_false, putHi16]
  grind

theorem get_setMacIpv4 (l2 : L2) (srcMac : Mac) (pppid : BitVec 16) (e : FoeEntry) (k : Fin 20) :
    (setMacIpv4 l2 srcMac pppid e).get k =
      if k = l2.at 3 then srcMac.hi
      else if k = l2.at 4 then
        srcMac.lo ++ if pppid = 0#16 then lo16 (e.get (l2.at 4)) else pppid
      else e.get k := by
  have h34 : l2.at 3 ≠ l2.at 4 := by
    rw [Ne, L2.at_inj]
    decide
  unfold setMacIpv4 FoeEntry.putSrcMacHi FoeEntry.putSrcMacLo FoeEntry.putPppoeId
  by_cases hp : pppid = 0#16
  · simp only [hp, ne_eq, not_true_eq_false, if_false, if_true, FoeEntry.get_put, h34, putHi16]
    grind
  · simp only [hp, ne_eq, not_false_eq_true, if_true, if_false, FoeEntry.get_put, h34, putHi16,
      putLo16, hi16_append]
    grind

/-- `src_mac_hi` of an IPv6 type behind the choice of a number and of an id. -/
def srcWord (number : Option (BitVec 32)) (pppid : BitVec 16) (w : BitVec 32) : BitVec 32 :=
  let w :=
    match number with
    | some v => (w &&& ~~~mask 32 16 5) ||| fieldPrep 16 5 v
    | none => w
  if pppid ≠ 0#16 then w ||| fieldPrep 0 16 (pppid.setWidth 32) else w

theorem getLsbD_srcWord (number : Option (BitVec 32)) (pppid : BitVec 16) (w : BitVec 32) {i : Nat}
    (hi : i < 32) : (srcWord number pppid w).getLsbD i =
      (if i < 16 then w.getLsbD i || pppid.getLsbD i
      else if i < 21 then
        match number with
        | some v => v.getLsbD (i - 16)
        | none => w.getLsbD i
      else w.getLsbD i) := by
  have hnum : ∀ v : BitVec 32, ((w &&& ~~~mask 32 16 5) ||| fieldPrep 16 5 v).getLsbD i =
      if 16 ≤ i ∧ i < 21 then v.getLsbD (i - 16) else w.getLsbD i := by
    intro v
    rw [BitVec.getLsbD_or, BitVec.getLsbD_and, BitVec.getLsbD_not, getLsbD_mask, getLsbD_fieldPrep]
    by_cases h1 : 16 ≤ i <;> by_cases h2 : i < 21 <;> simp [hi, h1, h2]
  have hid : (fieldPrep 0 16 (pppid.setWidth 32)).getLsbD i =
      (decide (i < 16) && pppid.getLsbD i) := by
    rw [getLsbD_fieldPrep, BitVec.getLsbD_setWidth]
    simp [hi]
  unfold srcWord
  by_cases h1 : i < 16
  · have hlow : ¬ 16 ≤ i := by omega
    cases number with
    | none => by_cases hp : pppid = 0#16 <;> simp [hp, h1, hid]
    | some v =>
      by_cases hp : pppid = 0#16 <;> simp only [hp, ne_eq, not_true_eq_false, not_false_eq_true,
        if_true, if_false, BitVec.getLsbD_or, hnum, hid, h1, hlow, false_and] <;> simp
  · have hge : 16 ≤ i := by omega
    cases number with
    | none => by_cases hp : pppid = 0#16 <;> simp [hp, h1, hid]
    | some v =>
      by_cases hp : pppid = 0#16 <;> by_cases h2 : i < 21 <;>
        simp only [hp, ne_eq, not_true_eq_false, not_false_eq_true,
          if_true, if_false, BitVec.getLsbD_or, hnum, hid, h1, h2, hge] <;> simp

theorem fieldGet_srcWord_some (v : BitVec 32) (pppid : BitVec 16) (w : BitVec 32) :
    fieldGet 16 5 (srcWord (some v) pppid w) = v &&& mask 32 0 5 := by
  apply BitVec.eq_of_getLsbD_eq
  intro i hi
  rw [getLsbD_fieldGet, BitVec.getLsbD_and, getLsbD_mask]
  by_cases h : i < 5
  · have h1 : 16 + i < 32 := by omega
    have h2 : ¬ 16 + i < 16 := by omega
    have h3 : 16 + i < 21 := by omega
    rw [getLsbD_srcWord _ _ _ h1]
    simp [h, h2, h3, hi]
  · simp [h]

theorem fieldGet_srcWord_none (pppid : BitVec 16) (w : BitVec 32) :
    fieldGet 16 5 (srcWord none pppid w) = fieldGet 16 5 w := by
  apply BitVec.eq_of_getLsbD_eq
  intro i hi
  rw [getLsbD_fieldGet, getLsbD_fieldGet]
  by_cases h : i < 5
  · have h1 : 16 + i < 32 := by omega
    have h2 : ¬ 16 + i < 16 := by omega
    rw [getLsbD_srcWord _ _ _ h1]
    simp [h2]
  · simp [h]

theorem lo16_srcWord (number : Option (BitVec 32)) (pppid : BitVec 16) (w : BitVec 32) :
    lo16 (srcWord number pppid w) = lo16 w ||| pppid := by
  apply BitVec.eq_of_getLsbD_eq
  intro i hi
  have h1 : 0 + i < 32 := by omega
  have h2 : 0 + i < 16 := by omega
  rw [lo16, BitVec.getLsbD_extractLsb', getLsbD_srcWord _ _ _ h1, BitVec.getLsbD_or, lo16,
    BitVec.getLsbD_extractLsb']
  simp [hi]

/-- Only the number and the id are written. -/
theorem srcWord_and_not_mask (number : Option (BitVec 32)) (pppid : BitVec 16) (w : BitVec 32) :
    srcWord number pppid w &&& ~~~mask 32 0 21 = w &&& ~~~mask 32 0 21 := by
  apply BitVec.eq_of_getLsbD_eq
  intro i hi
  rw [BitVec.getLsbD_and, BitVec.getLsbD_and, BitVec.getLsbD_not, getLsbD_mask]
  by_cases h : i < 21
  · simp [h]
  · have h1 : ¬ i < 16 := by omega
    rw [getLsbD_srcWord _ _ _ hi]
    simp [h, h1]

/-- The number that is written. -/
def numberFor (ctx : FindCtx) (dev : Option Mac) (srcMac : Mac) (s : Shrink) : Option (BitVec 32) :=
  if dev.any fun devAddr => airohaIsBridgePacket devAddr srcMac then some 0xf#32
  else (slotFor ctx srcMac s).map fun k => BitVec.ofNat 32 k

theorem findSmac_index (ctx : FindCtx) (srcMac : Mac) (s : Shrink) :
    (findSmac ctx srcMac s).2 = slotFor ctx srcMac s :=
  (foundIn_done ctx.maxEntries ctx.jiffies .smac (smacField srcMac) s).index

theorem slotFor_lt {ctx : FindCtx} {s : Shrink} {k : Nat} (h : slotFor ctx srcMac s = some k) :
    k < updmemNum := by
  rw [← findSmac_index] at h
  exact (foundIn_done ctx.maxEntries ctx.jiffies .smac (smacField srcMac) s).index_lt h

theorem setPpeEntrySmacIndex_slot {k : Nat} (h : k < updmemNum) :
    setPpeEntrySmacIndex e (BitVec.ofNat 8 k) = e.putSrcMacHi .ipv6
      ((e.srcMacHi .ipv6 &&& ~~~mask 32 16 5) ||| fieldPrep 16 5 (BitVec.ofNat 32 k)) := by
  have h16 : k < 16 := h
  have hne : ¬ 0x10#8 = BitVec.ofNat 8 k := by
    intro heq
    have hnat := congrArg BitVec.toNat heq
    simp at hnat
    omega
  have hset : (BitVec.ofNat 8 k).setWidth 32 = BitVec.ofNat 32 k := by
    apply BitVec.eq_of_toNat_eq
    simp
    omega
  rw [setPpeEntrySmacIndex, if_neg hne, hset]

theorem get_putSrcMacHi (e : FoeEntry) (x : BitVec 32) (k : Fin 20) :
    (e.putSrcMacHi .ipv6 x).get k = if k = 15 then x else e.get k := by
  have hat : L2.at .ipv6 3 = 15 := rfl
  rw [FoeEntry.putSrcMacHi, FoeEntry.get_put, hat]
  simp only [eq_comm]

theorem get_setMacSlot (ctx : FindCtx) (dev : Option Mac) (srcMac : Mac) (e : FoeEntry) (s : Shrink)
    (k : Fin 20) :
    (setMacSlot ctx dev srcMac e s).1.get k =
      if k = 15 then srcWord (numberFor ctx dev srcMac s) 0#16 (e.srcMacHi .ipv6) else e.get k := by
  unfold setMacSlot numberFor
  by_cases hb : (dev.any fun devAddr => airohaIsBridgePacket devAddr srcMac) = true
  · simp only [hb, if_true]
    exact get_putSrcMacHi e _ k
  · simp only [hb, Bool.false_eq_true, if_false]
    have hidx := findSmac_index ctx srcMac s
    cases hk : slotFor ctx srcMac s with
    | none =>
      rw [hk] at hidx
      cases hf : findSmac ctx srcMac s with
      | mk s' index =>
        rw [hf] at hidx
        subst hidx
        by_cases h15 : k = 15
        · subst h15
          rfl
        · rw [if_neg h15]
    | some m =>
      rw [hk] at hidx
      cases hf : findSmac ctx srcMac s with
      | mk s' index =>
        rw [hf] at hidx
        subst hidx
        simp only [setPpeEntrySmacIndex_slot (slotFor_lt hk)]
        exact get_putSrcMacHi e _ k

theorem get_setMacPppoe (pppid : BitVec 16) (number : Option (BitVec 32)) (w : BitVec 32)
    {e' : FoeEntry} (he : e'.srcMacHi .ipv6 = srcWord number 0#16 w) (k : Fin 20) :
    (setMacPppoe .ipv6 pppid e').get k = if k = 15 then srcWord number pppid w else e'.get k := by
  have h15 : e'.get 15 = srcWord number 0#16 w := he
  unfold setMacPppoe
  by_cases hp : pppid = 0#16
  · simp only [hp, ne_eq, not_true_eq_false, if_false]
    by_cases hk : k = 15
    · rw [if_pos hk, hk, h15]
    · rw [if_neg hk]
  · simp only [hp, ne_eq, not_false_eq_true, if_true]
    rw [get_putSrcMacHi, he]
    simp [srcWord, hp]

end Words

/-! ## What is left alone -/

theorem and_not_mask_all (x : BitVec 32) : x &&& ~~~mask 32 0 32 = 0#32 := by
  have h : ~~~mask 32 0 32 = 0#32 := by decide
  rw [h, BitVec.and_zero]

theorem and_not_mask_hi {x y : BitVec 32} (h : lo16 x = lo16 y) :
    x &&& ~~~mask 32 16 16 = y &&& ~~~mask 32 16 16 := by
  apply BitVec.eq_of_getLsbD_eq
  intro i hi
  rw [BitVec.getLsbD_and, BitVec.getLsbD_and, BitVec.getLsbD_not, getLsbD_mask]
  by_cases h16 : i < 16
  · have hbit := congrArg (fun z => z.getLsbD i) h
    simp only [lo16, BitVec.getLsbD_extractLsb', h16, decide_true, Bool.true_and,
      Nat.zero_add] at hbit
    rw [hbit]
  · have hge : 16 ≤ i := by omega
    simp [hi, hge]

theorem pktType_congr {e e' : FoeEntry} (h : e'.get 0 = e.get 0) : e'.pktType = e.pktType := by
  have hib1 : e'.ib1 = e.ib1 := h
  rw [FoeEntry.pktType, FoeEntry.pktType, hib1]

theorem Mac.of_hi_lo (mac : Mac) : Mac.of mac.hi mac.lo = mac := by
  rw [Mac.eq_iff, Mac.hi_of, Mac.lo_of]
  exact ⟨rfl, rfl⟩

section Result

variable (ctx : FindCtx) (dev : Option Mac) (srcMac dstMac : Mac) (pppid : BitVec 16) (s : Shrink)
  {e : FoeEntry}

/-- The entry of a type up to DS-Lite, word by word. -/
theorem get_setPpeMac_ipv4 {l2 : L2} (hl2 : setMacL2 e.pktType = some l2)
    (ht : e.pktType.code ≤ PktType.ipv4Dslite.code) (k : Fin 20) :
    (airohaSetPpeMac ctx dev srcMac dstMac pppid e s).2.1.get k =
      if k = l2.at 3 then srcMac.hi
      else if k = l2.at 4 then srcMac.lo ++ if pppid = 0#16 then lo16 (e.get (l2.at 4)) else pppid
      else if k = l2.at 1 then dstMac.hi
      else if k = l2.at 2 then dstMac.lo ++ lo16 (e.get (l2.at 2))
      else e.get k := by
  have h41 : l2.at 4 ≠ l2.at 1 := by
    rw [Ne, L2.at_inj]
    decide
  have h42 : l2.at 4 ≠ l2.at 2 := by
    rw [Ne, L2.at_inj]
    decide
  simp only [airohaSetPpeMac, hl2, ht, if_true, get_setMacIpv4, get_putDest, h41, h42, if_false]

/-- The entry of an IPv6 type. -/
theorem get_setPpeMac_ipv6 (hl2 : setMacL2 e.pktType = some .ipv6)
    (ht : ¬ e.pktType.code ≤ PktType.ipv4Dslite.code) (k : Fin 20) :
    (airohaSetPpeMac ctx dev srcMac dstMac pppid e s).2.1.get k =
      if k = 15 then srcWord (numberFor ctx dev srcMac s) pppid (e.srcMacHi .ipv6)
      else if k = 13 then dstMac.hi
      else if k = 14 then dstMac.lo ++ lo16 (e.get 14)
      else e.get k := by
  have hsrc : ((e.putDestMacHi .ipv6 dstMac.hi).putDestMacLo .ipv6 dstMac.lo).srcMacHi .ipv6 =
      e.srcMacHi .ipv6 := get_putDest e .ipv6 dstMac.hi dstMac.lo 15
  have hslot : (setMacSlot ctx dev srcMac
      ((e.putDestMacHi .ipv6 dstMac.hi).putDestMacLo .ipv6 dstMac.lo) s).1.srcMacHi .ipv6 =
      srcWord (numberFor ctx dev srcMac s) 0#16 (e.srcMacHi .ipv6) := by
    rw [← hsrc]
    exact get_setMacSlot ctx dev srcMac _ s 15
  simp only [airohaSetPpeMac, hl2, ht, if_false]
  rw [get_setMacPppoe pppid _ _ hslot, get_setMacSlot, get_putDest]
  have h13 : L2.at .ipv6 1 = 13 := rfl
  have h14 : L2.at .ipv6 2 = 14 := rfl
  rw [h13, h14]
  split_ifs <;> rfl

/-- Up to DS-Lite the addresses and the id are right, and the rest has to be looked at. -/
theorem resolves_ipv4_iff {l2 : L2} (hl2 : setMacL2 e.pktType = some l2)
    (ht : e.pktType.code ≤ PktType.ipv4Dslite.code) (tbl : Table) :
    Resolves dev srcMac dstMac pppid e
      (airohaSetPpeMac ctx dev srcMac dstMac pppid e s).2.1 tbl l2 ↔
      ∀ k, (airohaSetPpeMac ctx dev srcMac dstMac pppid e s).2.1.get k &&& ~~~macBits e.pktType k =
        e.get k &&& ~~~macBits e.pktType k := by
  have hget := get_setPpeMac_ipv4 ctx dev srcMac dstMac pppid s hl2 ht
  have hne : ∀ j k : Fin 8, j ≠ k → l2.at j ≠ l2.at k := fun j k h => mt L2.at_inj.mp h
  have h0 : ∀ k : Fin 8, (0 : Fin 20) ≠ l2.at k := by
    cases l2 <;> decide
  constructor
  · exact fun h => h.frame
  · intro hframe
    constructor
    · rw [FoeEntry.destMacHi, FoeEntry.destMacLo, hget, hget]
      simp only [hne 1 3 (by decide), hne 1 4 (by decide), hne 2 3 (by decide), hne 2 4 (by decide),
        hne 2 1 (by decide), if_true, if_false, hi16_append]
      exact Mac.of_hi_lo dstMac
    · intro _
      rw [FoeEntry.srcMacHi, hget, hget]
      simp only [hne 4 3 (by decide), if_true, if_false, hi16_append]
      exact Mac.of_hi_lo srcMac
    · intro hlt
      exact absurd hlt (Nat.not_lt.mpr ht)
    · intro hlt
      exact absurd hlt (Nat.not_lt.mpr ht)
    · intro hp
      have hib1 : (airohaSetPpeMac ctx dev srcMac dstMac pppid e s).2.1.get 0 = e.get 0 := by
        rw [hget]
        simp only [h0, if_false]
      have htype := pktType_congr hib1
      rw [pppoeIdOf, htype, if_pos ht, hget]
      simp only [hne 4 3 (by decide), if_true, if_false, hp, lo16_append]
    · exact hframe

/-- The types whose MAC information ends in the id and the last bytes of the source. -/
theorem setsMac_ipv4
    (ht : e.pktType = .ipv4Hnapt ∨ e.pktType = .ipv4Route ∨ e.pktType = .ipv4Dslite) :
    SetsMac ctx dev srcMac dstMac pppid e s := by
  have hl2 : setMacL2 e.pktType = some .ipv4 := by
    rcases ht with ht | ht | ht <;> rw [ht] <;> rfl
  have hle : e.pktType.code ≤ PktType.ipv4Dslite.code := by
    rcases ht with ht | ht | ht <;> rw [ht] <;> decide
  have hbits : ∀ k, macBits e.pktType k =
      if k = 12 ∨ k = 14 ∨ k = 15 then mask 32 0 32
      else if k = 13 then mask 32 16 16
      else 0#32 := by
    intro k
    rcases ht with ht | ht | ht <;> rw [ht] <;> rfl
  intro _ l2 hl
  rw [hl2, Option.some.injEq] at hl
  subst hl
  rw [resolves_ipv4_iff ctx dev srcMac dstMac pppid s hl2 hle]
  intro k
  rw [get_setPpeMac_ipv4 ctx dev srcMac dstMac pppid s hl2 hle, hbits]
  have h1 : L2.at .ipv4 1 = 12 := rfl
  have h2 : L2.at .ipv4 2 = 13 := rfl
  have h3 : L2.at .ipv4 3 = 14 := rfl
  have h4 : L2.at .ipv4 4 = 15 := rfl
  rw [h1, h2, h3, h4]
  by_cases hall : k = 12 ∨ k = 14 ∨ k = 15
  · rw [if_pos hall, and_not_mask_all, and_not_mask_all]
  · by_cases h13 : k = 13
    · subst h13
      exact and_not_mask_hi (lo16_append dstMac.lo (lo16 (e.get 13)))
    · obtain ⟨h12, h14, h15⟩ : k ≠ 12 ∧ k ≠ 14 ∧ k ≠ 15 := by
        simpa using hall
      simp only [h12, h13, h14, h15, if_false]

/-- A bridged flow ends in `meter` and `tunnel_mtu` there. -/
theorem setsMac_bridge_iff (ht : e.pktType = .bridge) :
    SetsMac ctx dev srcMac dstMac pppid e s ↔
      hi16 (e.get 16) = srcMac.lo ∧ (pppid ≠ 0#16 → lo16 (e.get 16) = pppid) := by
  have hl2 : setMacL2 e.pktType = some .ipv6 := by
    rw [ht]
    rfl
  have hle : e.pktType.code ≤ PktType.ipv4Dslite.code := by
    rw [ht]
    decide
  have hret : (airohaSetPpeMac ctx dev srcMac dstMac pppid e s).1 = 0 := by
    simp only [airohaSetPpeMac, hl2, hle, if_true]
  have h1 : L2.at .ipv6 1 = 13 := rfl
  have h2 : L2.at .ipv6 2 = 14 := rfl
  have h3 : L2.at .ipv6 3 = 15 := rfl
  have h4 : L2.at .ipv6 4 = 16 := rfl
  have hword : srcMac.lo ++ (if pppid = 0#16 then lo16 (e.get 16) else pppid) = e.get 16 ↔
      hi16 (e.get 16) = srcMac.lo ∧ (pppid ≠ 0#16 → lo16 (e.get 16) = pppid) := by
    rw [eq_iff_halves, hi16_append, lo16_append]
    by_cases hp : pppid = 0#16
    · simp [hp, eq_comm]
    · simp [hp, eq_comm]
  rw [← hword]
  have hget := get_setPpeMac_ipv4 ctx dev srcMac dstMac pppid s hl2 hle
  rw [h1, h2, h3, h4] at hget
  constructor
  · intro h
    have hframe := (h hret .ipv6 hl2).frame 16
    have hzero : macBits .bridge 16 = 0#32 := rfl
    rw [hget, ht, hzero, BitVec.not_zero, BitVec.and_allOnes, BitVec.and_allOnes] at hframe
    exact hframe
  · intro h _ l2 hl
    rw [hl2, Option.some.injEq] at hl
    subst hl
    rw [resolves_ipv4_iff ctx dev srcMac dstMac pppid s hl2 hle]
    intro k
    rw [hget, ht]
    by_cases h16 : k = 16
    · subst h16
      rw [if_neg (by decide), if_pos rfl, h]
    · by_cases hall : k = 13 ∨ k = 15
      · rw [macBits, if_pos hall, and_not_mask_all, and_not_mask_all]
      · obtain ⟨h13, h15⟩ : k ≠ 13 ∧ k ≠ 15 := by
          simpa using hall
        by_cases h14 : k = 14
        · subst h14
          exact and_not_mask_hi (lo16_append dstMac.lo (lo16 (e.get 14)))
        · simp only [h13, h14, h15, h16, if_false]

/-- The number that is read back. -/
theorem smacIndex_setPpeMac (hl2 : setMacL2 e.pktType = some .ipv6)
    (ht : ¬ e.pktType.code ≤ PktType.ipv4Dslite.code) :
    getPpeEntrySmacIndex (airohaSetPpeMac ctx dev srcMac dstMac pppid e s).2.1 .ipv6Route5t =
      if Keeps dev srcMac then 16
      else
        match slotFor ctx srcMac s with
        | some k => if k = 15 then 16 else k
        | none => getPpeEntrySmacIndex e .ipv6Route5t := by
  have hsrc : (airohaSetPpeMac ctx dev srcMac dstMac pppid e s).2.1.srcMacHi .ipv6 =
      srcWord (numberFor ctx dev srcMac s) pppid (e.srcMacHi .ipv6) :=
    get_setPpeMac_ipv6 ctx dev srcMac dstMac pppid s hl2 ht 15
  rw [getPpeEntrySmacIndex_eq, getPpeEntrySmacIndex_eq, hsrc, numberFor]
  by_cases hk : Keeps dev srcMac
  · rw [if_pos ((keeps_iff dev srcMac).mpr hk), fieldGet_srcWord_some, if_pos hk]
    decide
  · rw [if_neg (mt (keeps_iff dev srcMac).mp hk), if_neg hk]
    cases hslot : slotFor ctx srcMac s with
    | none => rw [Option.map_none, fieldGet_srcWord_none]
    | some m =>
      have h16 : m < 16 := slotFor_lt hslot
      have hfit : m < 2 ^ 5 := by omega
      have hnat : (BitVec.ofNat 32 m).toNat = m := by
        rw [BitVec.toNat_ofNat]
        omega
      rw [Option.map_some, fieldGet_srcWord_some, ofNat_and_mask hfit, hnat]

theorem shrink_setPpeMac (hl2 : setMacL2 e.pktType = some .ipv6)
    (ht : ¬ e.pktType.code ≤ PktType.ipv4Dslite.code) (hk : ¬ Keeps dev srcMac) :
    (airohaSetPpeMac ctx dev srcMac dstMac pppid e s).2.2 = (findSmac ctx srcMac s).1 := by
  have hb := mt (keeps_iff dev srcMac).mp hk
  simp only [airohaSetPpeMac, hl2, ht, if_false, setMacSlot, hb]
  cases hf : findSmac ctx srcMac s with
  | mk s' index => cases index <;> rfl

/-- When no slot could be had, none holds the address. -/
theorem content_ne_of_no_slot (hslot : slotFor ctx srcMac s = none) {k : Nat} (hk : k < updmemNum) :
    ((findSmac ctx srcMac s).1.shnkTbl .smac k).content ≠ srcMac := by
  obtain ⟨hmatch, hvictim⟩ := Option.or_eq_none_iff.mp hslot
  have hret : (findSmac ctx srcMac s).2 ≠ some k := by
    rw [findSmac_index, hslot]
    simp
  have hsame : ((findSmac ctx srcMac s).1.shnkTbl .smac k).content = (s.shnkTbl .smac k).content :=
    find_content hk fun h => hret h.2
  have hno := firstMatch_eq_none_iff.mp hmatch k hk
  have hfull : Takeable ctx.jiffies (s.shnkTbl .smac) k = false := by
    rw [victim, scanUp_eq_none_iff] at hvictim
    exact hvictim k (Nat.zero_le k) (by omega)
  have hvalid : (s.shnkTbl .smac k).valid = true := by
    by_contra hv
    rw [takeable_iff.mpr (Or.inl (by simpa using hv))] at hfull
    exact absurd hfull (by decide)
  rw [hsame]
  intro heq
  rw [Matches, hvalid, heq] at hno
  simp at hno

/-- The IPv6 types. -/
theorem setsMac_ipv6_iff
    (ht : e.pktType = .ipv6Route3t ∨ e.pktType = .ipv6Route5t ∨ e.pktType = .ipv66rd) :
    SetsMac ctx dev srcMac dstMac pppid e s ↔
      (Keeps dev srcMac ∨ ∃ k < 15, slotFor ctx srcMac s = some k) ∧
        (pppid ≠ 0#16 → lo16 (e.srcMacHi .ipv6) ||| pppid = pppid) := by
  have hl2 : setMacL2 e.pktType = some .ipv6 := by
    rcases ht with ht | ht | ht <;> rw [ht] <;> rfl
  have hgt : ¬ e.pktType.code ≤ PktType.ipv4Dslite.code := by
    rcases ht with ht | ht | ht <;> rw [ht] <;> decide
  have hlt : PktType.ipv4Dslite.code < e.pktType.code := Nat.not_le.mp hgt
  have hbits : ∀ k, macBits e.pktType k =
      if k = 13 then mask 32 0 32
      else if k = 14 then mask 32 16 16
      else if k = 15 then mask 32 0 21
      else 0#32 := by
    intro k
    rcases ht with ht | ht | ht <;> rw [ht] <;> rfl
  have hret : (airohaSetPpeMac ctx dev srcMac dstMac pppid e s).1 = 0 := by
    simp only [airohaSetPpeMac, hl2, hgt, if_false]
  have hget := get_setPpeMac_ipv6 ctx dev srcMac dstMac pppid s hl2 hgt
  have hindex := smacIndex_setPpeMac ctx dev srcMac dstMac pppid s hl2 hgt
  have htype : (airohaSetPpeMac ctx dev srcMac dstMac pppid e s).2.1.pktType = e.pktType :=
    pktType_congr (hget 0)
  have hid : pppoeIdOf (airohaSetPpeMac ctx dev srcMac dstMac pppid e s).2.1 .ipv6 =
      lo16 (e.srcMacHi .ipv6) ||| pppid := by
    rw [pppoeIdOf, htype, if_neg hgt, ← lo16_srcWord (numberFor ctx dev srcMac s) pppid
      (e.srcMacHi .ipv6)]
    exact congrArg lo16 (hget 15)
  constructor
  · intro h
    have hr := h hret .ipv6 hl2
    constructor
    · by_cases hk : Keeps dev srcMac
      · exact Or.inl hk
      · obtain ⟨hnum, hcontent⟩ := hr.slot hlt hk
        have hkeep := mt (hr.keep hlt).mp hk
        rw [hindex, if_neg hk] at hnum hcontent hkeep
        cases hslot : slotFor ctx srcMac s with
        | none =>
          simp only [hslot] at hnum hcontent
          rw [shrink_setPpeMac ctx dev srcMac dstMac pppid s hl2 hgt hk] at hcontent
          exact absurd hcontent (content_ne_of_no_slot ctx srcMac s hslot hnum)
        | some m =>
          simp only [hslot] at hkeep
          have hm : m ≠ 15 := by
            intro h15
            exact hkeep (if_pos h15)
          have h16 : m < 16 := slotFor_lt hslot
          exact Or.inr ⟨m, by omega, rfl⟩
    · intro hp
      rw [← hid]
      exact hr.pppoe hp
  · rintro ⟨hsource, hpppoe⟩ _ l2 hl
    rw [hl2, Option.some.injEq] at hl
    subst hl
    constructor
    · rw [FoeEntry.destMacHi, FoeEntry.destMacLo, hget, hget]
      have h1 : L2.at .ipv6 1 = 13 := rfl
      have h2 : L2.at .ipv6 2 = 14 := rfl
      rw [h1, h2, if_neg (by decide), if_pos rfl, if_neg (by decide), if_neg (by decide),
        if_pos rfl, hi16_append]
      exact Mac.of_hi_lo dstMac
    · intro hle
      exact absurd hle hgt
    · intro _
      rw [hindex]
      by_cases hk : Keeps dev srcMac
      · simp [hk]
      · obtain ⟨m, hm, hslot⟩ := hsource.resolve_left hk
        have h15 : m ≠ 15 := by omega
        have h16 : m ≠ 16 := by omega
        simp [hk, hslot, h15, h16]
    · intro _ hk
      obtain ⟨m, hm, hslot⟩ := hsource.resolve_left hk
      have h15 : m ≠ 15 := by omega
      have hmem : m < updmemNum := slotFor_lt hslot
      have hm' : getPpeEntrySmacIndex (airohaSetPpeMac ctx dev srcMac dstMac pppid e s).2.1
          .ipv6Route5t = m := by
        rw [hindex]
        simp [hk, hslot, h15]
      rw [hm', shrink_setPpeMac ctx dev srcMac dstMac pppid s hl2 hgt hk]
      refine ⟨hmem, ?_⟩
      apply find_content_self
      exact (findSmac_index ctx srcMac s).trans hslot
    · intro hp
      rw [hid]
      exact hpppoe hp
    · intro k
      rw [hget, hbits]
      by_cases h13 : k = 13
      · subst h13
        exact (and_not_mask_all dstMac.hi).trans (and_not_mask_all (e.get 13)).symm
      · by_cases h14 : k = 14
        · subst h14
          exact and_not_mask_hi (lo16_append dstMac.lo (lo16 (e.get 14)))
        · by_cases h15 : k = 15
          · subst h15
            exact srcWord_and_not_mask (numberFor ctx dev srcMac s) pppid (e.srcMacHi .ipv6)
          · simp only [h13, h14, h15, if_false]

/-- `airoha_set_ppe_mac` does what it should exactly where `MacGuarded` says. -/
theorem setsMac_iff (e : FoeEntry) :
    SetsMac ctx dev srcMac dstMac pppid e s ↔ MacGuarded ctx dev srcMac pppid e s := by
  unfold MacGuarded
  cases ht : e.pktType with
  | ipv4Hnapt => exact iff_true_intro (setsMac_ipv4 ctx dev srcMac dstMac pppid s (Or.inl ht))
  | ipv4Route =>
    exact iff_true_intro (setsMac_ipv4 ctx dev srcMac dstMac pppid s (Or.inr (Or.inl ht)))
  | ipv4Dslite =>
    exact iff_true_intro (setsMac_ipv4 ctx dev srcMac dstMac pppid s (Or.inr (Or.inr ht)))
  | bridge => exact setsMac_bridge_iff ctx dev srcMac dstMac pppid s ht
  | ipv6Route3t => exact setsMac_ipv6_iff ctx dev srcMac dstMac pppid s (Or.inl ht)
  | ipv6Route5t => exact setsMac_ipv6_iff ctx dev srcMac dstMac pppid s (Or.inr (Or.inl ht))
  | ipv66rd => exact setsMac_ipv6_iff ctx dev srcMac dstMac pppid s (Or.inr (Or.inr ht))
  | reserved =>
    refine iff_true_intro ?_
    intro hret
    simp [airohaSetPpeMac, setMacL2, ht] at hret

end Result

/-! ## A bridged flow that loses its `tunnel_mtu` -/

/-- The table without a slot in use, and the engine's copy. -/
def emptyShrink : Shrink :=
  { shnkTbl := emptyTable, updmem := { data := 0#32, mem := fun _ _ _ => 0#32 } }

/-- The entry of a bridged flow whose `tunnel_mtu` is 1500. -/
def bridgeEntry : FoeEntry :=
  (FoeEntry.put (Vector.replicate 20 0#32) 0 0x14000000#32).put 16 0x05dcffff#32

theorem not_setsMac_bridgeEntry :
    ¬ SetsMac { maxEntries := 16384, foe := fun _ => none, jiffies := 0#64 } none
      #v[2#8, 0#8, 0#8, 0#8, 0#8, 1#8] #v[2#8, 0#8, 0#8, 0#8, 0#8, 2#8] 0#16 bridgeEntry
      emptyShrink := by
  intro h
  have hframe := (h rfl .ipv6 rfl).frame 16
  revert hframe
  decide

end Airoha.Ppe
