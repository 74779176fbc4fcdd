/-
Airoha.Ppe.McastMac — the MAC address of a multicast flow.

Translates `PpeFillInL2Info` with `setMcastDstMacv4` and `setMcastDstMacv6`.
A group has the MAC address its members listen on: `01:00:5e` and the lower 23
bits of an IPv4 group, `33:33` and the lower 32 bits of an IPv6 one.
`setMcastDstMacv4` takes 24 bits, so half of the IPv4 groups get the address of no group:
`mcastMac_iff`.
-/
import Airoha.Ppe.SetMac
import Airoha.Ppe.CleanMac

namespace Airoha.Ppe

open Airoha.Lib

/-! ## The functions -/

/-- `IS_IPV4_GRP` -/
def isIpv4Grp (type : PktType) : Bool :=
  type = .ipv4Hnapt || type = .ipv4Route || type = .ipv4Dslite

/-- `IS_IPV6_GRP` -/
def isIpv6Grp (type : PktType) : Bool :=
  type = .ipv6Route3t || type = .ipv6Route5t || type = .ipv66rd

/-- The addresses at `mac_hdr`. -/
structure MacHdr where
  dst : Mac
  src : Mac

/-- `ipv6.dest_ip[3]` -/
def FoeEntry.ipv6DestIp3 (e : FoeEntry) : BitVec 32 := e.get 8

/-- `setMcastDstMacv4` -/
def setMcastDstMacv4 (e : FoeEntry) : Mac :=
  #v[0x01#8, 0x00#8, 0x5e#8,
    ((e.origDestIp &&& 0xff0000#32) >>> 16).setWidth 8,
    ((e.origDestIp &&& 0xff00#32) >>> 8).setWidth 8,
    (e.origDestIp &&& 0xff#32).setWidth 8]

/-- `setMcastDstMacv6` -/
def setMcastDstMacv6 (e : FoeEntry) : Mac :=
  #v[0x33#8, 0x33#8,
    ((e.ipv6DestIp3 &&& 0xff000000#32) >>> 24).setWidth 8,
    ((e.ipv6DestIp3 &&& 0xff0000#32) >>> 16).setWidth 8,
    ((e.ipv6DestIp3 &&& 0xff00#32) >>> 8).setWidth 8,
    (e.ipv6DestIp3 &&& 0xff#32).setWidth 8]

/-- `FoeSetEntryMac(mac_hdr, &l2->dest_mac_hi, &l2->dest_mac_lo)` -/
def foeSetEntryMac (dst : Mac) (l2 : L2) (e : FoeEntry) : FoeEntry :=
  (e.putDestMacHi l2 dst.hi).putDestMacLo l2 dst.lo

/-- `FoeSetEntrySrcMac(mac_hdr, &l2.common.src_mac_hi, &l2.src_mac_lo)` -/
def foeSetEntrySrcMac (src : Mac) (l2 : L2) (e : FoeEntry) : FoeEntry :=
  (e.putSrcMacHi l2 src.hi).putSrcMacLo l2 src.lo

/-- What `airoha_ppe_foe_get_vlan_info` finds in the packet. -/
structure VlanInfo where
  vn : BitVec 16
  vid1 : BitVec 16
  vid2 : BitVec 16

/-- `ppe_set_vlan_info` -/
def ppeSetVlanInfo (v : VlanInfo) (e : FoeEntry) : FoeEntry :=
  if e.state = .bind then e
  else
    let vpm : BitVec 32 := if v.vn ≠ 0#16 then 1#32 else 0#32
    let e := e.put 0 ((e.ib1 &&& ~~~(mask 32 16 4 ||| mask 32 20 2)) |||
      (fieldPrep 16 4 (v.vn.setWidth 32) ||| fieldPrep 20 2 vpm))
    if isIpv4Grp e.pktType then (e.putVlan1 .ipv4 v.vid1).putVlan2 .ipv4 v.vid2
    else if isIpv6Grp e.pktType then (e.putVlan1 .ipv6 v.vid1).putVlan2 .ipv6 v.vid2
    else if e.pktType = .bridge then (e.putVlan1 .ipv4 v.vid1).putVlan2 .ipv4 v.vid2
    else e

/-- What `PpeFillInL2Info` leaves. -/
structure L2Filled where
  ret : Int
  entry : FoeEntry
  hdr : MacHdr

/-- `PpeFillInL2Info` -/
def ppeFillInL2Info (ponSfuMode : Bool) (v : VlanInfo) (hdr : MacHdr) (e : FoeEntry) : L2Filled :=
  if e.state = .bind then { ret := 1, entry := e, hdr := hdr }
  else if isIpv4Grp e.pktType then
    let hdr := { hdr with dst := setMcastDstMacv4 e }
    let e :=
      if e.pktType = .ipv4Dslite then
        foeSetEntryMac hdr.dst .ipv4 (foeSetEntrySrcMac hdr.src .ipv4 e)
      else foeSetEntrySrcMac hdr.src .ipv4 (foeSetEntryMac hdr.dst .ipv4 e)
    { ret := 0, entry := if ponSfuMode then ppeSetVlanInfo v e else e, hdr := hdr }
  else if isIpv6Grp e.pktType then
    let hdr := { hdr with dst := setMcastDstMacv6 e }
    let e := foeSetEntryMac hdr.dst .ipv6 (setPpeEntrySmacIndex e 0x10#8)
    { ret := 0, entry := if ponSfuMode then ppeSetVlanInfo v e else e, hdr := hdr }
  else { ret := 0, entry := e, hdr := hdr }

/-! ## The addresses of groups -/

/-- The address of an IPv4 group: `01:00:5e`, a zero and its lower 23 bits. -/
def groupMacv4 (group : BitVec 32) : Mac :=
  Mac.of (0x01005e#24 ++ (0#1 ++ group.extractLsb' 16 7)) (group.extractLsb' 0 16)

/-- The address of an IPv6 group: `33:33` and its lower 32 bits. -/
def groupMacv6 (group : BitVec 32) : Mac :=
  Mac.of (0x3333#16 ++ group.extractLsb' 16 16) (group.extractLsb' 0 16)

/-- 224.0.0.0/4 -/
def isGroupv4 (ip : BitVec 32) : Bool := ip.extractLsb' 28 4 = 0xe#4

/-- Two IPv4 groups share an address exactly when they agree on 23 bits. -/
theorem groupMacv4_eq_iff {g g' : BitVec 32} :
    groupMacv4 g = groupMacv4 g' ↔ g.extractLsb' 0 23 = g'.extractLsb' 0 23 := by
  have h23 := fun x : BitVec 32 => extract_append_extract x 0 7 16
  rw [groupMacv4, groupMacv4, Mac.eq_iff, Mac.hi_of, Mac.hi_of, Mac.lo_of, Mac.lo_of]
  constructor
  · intro ⟨hhi, hlo⟩
    have h7 := (append_inj (append_inj hhi).2).2
    have hg : g.extractLsb' (0 + 16) 7 ++ g.extractLsb' 0 16 =
        g'.extractLsb' (0 + 16) 7 ++ g'.extractLsb' 0 16 := by
      rw [Nat.zero_add, h7, hlo]
    rwa [h23, h23] at hg
  · intro h
    have hg : g.extractLsb' (0 + 16) 7 ++ g.extractLsb' 0 16 =
        g'.extractLsb' (0 + 16) 7 ++ g'.extractLsb' 0 16 := by
      rw [h23, h23]
      exact h
    obtain ⟨h7, hlo⟩ := append_inj hg
    rw [Nat.zero_add] at h7
    exact ⟨by rw [h7], hlo⟩

/-- Two IPv6 groups share one exactly when they agree on 32. -/
theorem groupMacv6_eq_iff {g g' : BitVec 32} : groupMacv6 g = groupMacv6 g' ↔ g = g' := by
  rw [groupMacv6, groupMacv6, Mac.eq_iff, Mac.hi_of, Mac.hi_of, Mac.lo_of, Mac.lo_of]
  constructor
  · intro ⟨hhi, hlo⟩
    exact eq_iff_halves.mpr ⟨(append_inj hhi).2, hlo⟩
  · intro h
    rw [h]
    exact ⟨rfl, rfl⟩

/-! ## What the functions write -/

section Fill

variable {e : FoeEntry}

theorem setMcastDstMacv6_eq : setMcastDstMacv6 e = groupMacv6 e.ipv6DestIp3 := by
  have hsplit16 := extract_append_extract e.ipv6DestIp3 16 8 8
  have hsplit0 := extract_append_extract e.ipv6DestIp3 0 8 8
  have hhi : (setMcastDstMacv6 e).hi =
      0x33#8 ++ 0x33#8 ++ e.ipv6DestIp3.extractLsb' 24 8 ++ e.ipv6DestIp3.extractLsb' 16 8 := by
    rw [← setWidth_fieldGet, ← setWidth_fieldGet]
    rfl
  have hlo : (setMcastDstMacv6 e).lo =
      e.ipv6DestIp3.extractLsb' 8 8 ++ e.ipv6DestIp3.extractLsb' 0 8 := by
    rw [← setWidth_fieldGet, ← setWidth_fieldGet]
    rfl
  rw [Mac.eq_iff, hhi, hlo, groupMacv6, Mac.hi_of, Mac.lo_of, ← hsplit0, ← hsplit16,
    BitVec.append_assoc]
  exact ⟨rfl, rfl⟩

/-- Bit 23 of the group is in the address `setMcastDstMacv4` makes. -/
theorem setMcastDstMacv4_eq_iff :
    setMcastDstMacv4 e = groupMacv4 e.origDestIp ↔ e.origDestIp.getLsbD 23 = false := by
  have hsplit := extract_append_extract e.origDestIp 0 8 8
  have htop : e.origDestIp.extractLsb' 23 1 ++ e.origDestIp.extractLsb' 16 7 =
      e.origDestIp.extractLsb' 16 8 := extract_append_extract e.origDestIp 16 1 7
  have hbit : e.origDestIp.extractLsb' 23 1 = 0#1 ↔ e.origDestIp.getLsbD 23 = false := by
    constructor
    · intro h
      have hb := congrArg (fun x => x.getLsbD 0) h
      simpa only [BitVec.getLsbD_extractLsb', BitVec.getLsbD_zero, decide_true, Bool.true_and,
        Nat.zero_lt_one] using hb
    · intro h
      apply BitVec.eq_of_getLsbD_eq
      intro i hi
      have hi0 : i = 0 := by omega
      rw [hi0, BitVec.getLsbD_extractLsb', h, Bool.and_false, BitVec.getLsbD_zero]
  have hhi : (setMcastDstMacv4 e).hi = 0x01005e#24 ++ e.origDestIp.extractLsb' 16 8 := by
    have hhead : 0x01005e#24 = 0x01#8 ++ 0x00#8 ++ 0x5e#8 := by decide
    rw [← setWidth_fieldGet, hhead]
    rfl
  have hlo : (setMcastDstMacv4 e).lo =
      e.origDestIp.extractLsb' 8 8 ++ e.origDestIp.extractLsb' 0 8 := by
    rw [← setWidth_fieldGet, ← setWidth_fieldGet]
    rfl
  rw [Mac.eq_iff, hhi, hlo, groupMacv4, Mac.hi_of, Mac.lo_of, ← hsplit, ← htop, ← hbit]
  constructor
  · intro ⟨h, _⟩
    exact (append_inj (append_inj h).2).1
  · intro h
    rw [h]
    exact ⟨rfl, rfl⟩

/-- The destination address in the entry. -/
def FoeEntry.dst (e : FoeEntry) (l2 : L2) : Mac := Mac.of (e.destMacHi l2) (e.destMacLo l2)

theorem dst_foeSetEntryMac (mac : Mac) (l2 : L2) : (foeSetEntryMac mac l2 e).dst l2 = mac := by
  have h12 : (2 : Fin 8) ≠ 1 := by decide
  have hhi : (foeSetEntryMac mac l2 e).destMacHi l2 = mac.hi := by
    simp only [foeSetEntryMac, FoeEntry.destMacHi, FoeEntry.putDestMacLo, FoeEntry.putDestMacHi,
      FoeEntry.get_put, L2.at_inj, h12, if_false, if_true]
  have hlo : (foeSetEntryMac mac l2 e).destMacLo l2 = mac.lo := by
    simp only [foeSetEntryMac, FoeEntry.destMacLo, FoeEntry.putDestMacLo, FoeEntry.get_put, if_true,
      hi16_putHi16]
  rw [FoeEntry.dst, hhi, hlo, Mac.eq_iff, Mac.hi_of, Mac.lo_of]
  exact ⟨rfl, rfl⟩

theorem dst_foeSetEntrySrcMac (mac : Mac) (l2 : L2) :
    (foeSetEntrySrcMac mac l2 e).dst l2 = e.dst l2 := by
  have h1 : (4 : Fin 8) ≠ 1 ∧ (3 : Fin 8) ≠ 1 := by decide
  have h2 : (4 : Fin 8) ≠ 2 ∧ (3 : Fin 8) ≠ 2 := by decide
  simp only [FoeEntry.dst, foeSetEntrySrcMac, FoeEntry.destMacHi, FoeEntry.destMacLo,
    FoeEntry.putSrcMacLo, FoeEntry.putSrcMacHi, FoeEntry.get_put, L2.at_inj, h1, h2, if_false]

theorem dst_putVlans (vid1 vid2 : BitVec 16) (l2 : L2) :
    ((e.putVlan1 l2 vid1).putVlan2 l2 vid2).dst l2 = e.dst l2 := by
  have h1 : (2 : Fin 8) ≠ 1 ∧ (0 : Fin 8) ≠ 1 := by decide
  have h2 : (0 : Fin 8) ≠ 2 := by decide
  simp only [FoeEntry.dst, FoeEntry.destMacHi, FoeEntry.destMacLo, FoeEntry.putVlan1,
    FoeEntry.putVlan2, FoeEntry.get_put, L2.at_inj, h1, h2, if_false, if_true, hi16_putLo16]

theorem dst_put_zero (x : BitVec 32) (l2 : L2) : (e.put 0 x).dst l2 = e.dst l2 := by
  have h0 : ∀ k : Fin 8, 0 ≠ l2.at k := by
    intro k
    cases l2 <;> simp only [L2.at, ne_eq, Fin.ext_iff, Fin.val_zero] <;> omega
  simp only [FoeEntry.dst, FoeEntry.destMacHi, FoeEntry.destMacLo, FoeEntry.get_put, h0, if_false]

/-- The tags are written in the view of the type, and the type stays. -/
theorem dst_ppeSetVlanInfo (v : VlanInfo) (l2 : L2)
    (h : if isIpv4Grp e.pktType then l2 = .ipv4 else isIpv6Grp e.pktType ∧ l2 = .ipv6) :
    (ppeSetVlanInfo v e).dst l2 = e.dst l2 := by
  have hmask : mask 32 16 4 ||| mask 32 20 2 = mask 32 16 6 := by decide
  have htype : ∀ vpm : BitVec 32, (e.put 0 ((e.ib1 &&& ~~~(mask 32 16 4 ||| mask 32 20 2)) |||
      (fieldPrep 16 4 (v.vn.setWidth 32) ||| fieldPrep 20 2 vpm))).pktType = e.pktType := by
    intro vpm
    rw [FoeEntry.pktType, FoeEntry.ib1_put_zero, fieldGet_or, fieldGet_or, hmask,
      fieldGet_clear_of_disjoint (by decide), fieldGet_fieldPrep_of_disjoint (by decide),
      fieldGet_fieldPrep_of_disjoint (by decide), BitVec.or_zero, BitVec.or_zero, FoeEntry.pktType]
  unfold ppeSetVlanInfo
  by_cases hb : e.state = .bind
  · rw [if_pos hb]
  · rw [if_neg hb]
    simp only [htype]
    by_cases h4 : isIpv4Grp e.pktType
    · rw [if_pos h4] at h ⊢
      rw [h, dst_putVlans, dst_put_zero]
    · rw [if_neg h4] at h ⊢
      rw [if_pos h.1, h.2, dst_putVlans, dst_put_zero]

/-! ## Which groups -/

/-- What is asked: the frame and the entry have the address of the group. -/
structure McastMac (x : L2Filled) (e : FoeEntry) : Prop where
  v4 : x.ret = 0 → isIpv4Grp e.pktType → isGroupv4 e.origDestIp →
    x.hdr.dst = groupMacv4 e.origDestIp ∧ x.entry.dst .ipv4 = groupMacv4 e.origDestIp
  v6 : x.ret = 0 → isIpv6Grp e.pktType →
    x.hdr.dst = groupMacv6 e.ipv6DestIp3 ∧ x.entry.dst .ipv6 = groupMacv6 e.ipv6DestIp3

/-- Bit 23 of an IPv4 group that is filled in is clear. -/
def McastFits (e : FoeEntry) : Prop :=
  e.state ≠ .bind → isIpv4Grp e.pktType → isGroupv4 e.origDestIp →
    e.origDestIp.getLsbD 23 = false

variable {ponSfuMode : Bool} {v : VlanInfo} {hdr : MacHdr}

theorem pktType_foeSetEntry (mac : Mac) (l2 : L2) :
    (foeSetEntryMac mac l2 e).pktType = e.pktType ∧
      (foeSetEntrySrcMac mac l2 e).pktType = e.pktType := by
  have h0 : ∀ k : Fin 8, l2.at k ≠ 0 := by
    intro k
    cases l2 <;> simp only [L2.at, ne_eq, Fin.ext_iff, Fin.val_zero] <;> omega
  have hput : ∀ (e : FoeEntry) (k : Fin 8) (x : BitVec 32),
      (e.put (l2.at k) x).pktType = e.pktType := by
    intro e k x
    have hib1 : (e.put (l2.at k) x).ib1 = e.ib1 := (FoeEntry.get_put e _ 0 x).trans (if_neg (h0 k))
    rw [FoeEntry.pktType, hib1, FoeEntry.pktType]
  constructor
  · rw [foeSetEntryMac, FoeEntry.putDestMacLo, FoeEntry.putDestMacHi, hput, hput]
  · rw [foeSetEntrySrcMac, FoeEntry.putSrcMacLo, FoeEntry.putSrcMacHi, hput, hput]

/-- What is filled in for an IPv4 type. -/
theorem filled_v4 (hb : e.state ≠ .bind) (h4 : isIpv4Grp e.pktType) :
    (ppeFillInL2Info ponSfuMode v hdr e).ret = 0 ∧
      (ppeFillInL2Info ponSfuMode v hdr e).hdr.dst = setMcastDstMacv4 e ∧
      (ppeFillInL2Info ponSfuMode v hdr e).entry.dst .ipv4 = setMcastDstMacv4 e := by
  have hvlan : ∀ e' : FoeEntry, e'.pktType = e.pktType → e'.dst .ipv4 = setMcastDstMacv4 e →
      (if ponSfuMode then ppeSetVlanInfo v e' else e').dst .ipv4 = setMcastDstMacv4 e := by
    intro e' ht hdst
    have h4' : isIpv4Grp e'.pktType := ht ▸ h4
    cases ponSfuMode with
    | false => exact hdst
    | true => exact (dst_ppeSetVlanInfo v .ipv4 (by rw [if_pos h4'])).trans hdst
  unfold ppeFillInL2Info
  rw [if_neg hb, if_pos h4]
  refine ⟨rfl, rfl, ?_⟩
  apply hvlan
  · split
    · rw [(pktType_foeSetEntry _ _).1, (pktType_foeSetEntry _ _).2]
    · rw [(pktType_foeSetEntry _ _).2, (pktType_foeSetEntry _ _).1]
  · split
    · exact dst_foeSetEntryMac _ _
    · rw [dst_foeSetEntrySrcMac]
      exact dst_foeSetEntryMac _ _

theorem filled_v6 (hb : e.state ≠ .bind) (h6 : isIpv6Grp e.pktType) :
    (ppeFillInL2Info ponSfuMode v hdr e).ret = 0 ∧
      (ppeFillInL2Info ponSfuMode v hdr e).hdr.dst = groupMacv6 e.ipv6DestIp3 ∧
      (ppeFillInL2Info ponSfuMode v hdr e).entry.dst .ipv6 = groupMacv6 e.ipv6DestIp3 := by
  have h4 : ¬ isIpv4Grp e.pktType := by
    revert h6
    cases e.pktType <;> decide
  have hsmac : (setPpeEntrySmacIndex e 0x10#8).pktType = e.pktType := by
    have hib1 : (setPpeEntrySmacIndex e 0x10#8).ib1 = e.ib1 :=
      (FoeEntry.get_put e (L2.ipv6.at 3) 0 _).trans (if_neg (by decide))
    rw [FoeEntry.pktType, hib1, FoeEntry.pktType]
  have ht : (foeSetEntryMac (setMcastDstMacv6 e) .ipv6 (setPpeEntrySmacIndex e 0x10#8)).pktType =
      e.pktType := by
    rw [(pktType_foeSetEntry _ _).1, hsmac]
  unfold ppeFillInL2Info
  rw [if_neg hb, if_neg h4, if_pos h6, ← setMcastDstMacv6_eq]
  refine ⟨rfl, rfl, ?_⟩
  simp only
  cases ponSfuMode with
  | false => exact dst_foeSetEntryMac _ _
  | true =>
    have hview : if isIpv4Grp (foeSetEntryMac (setMcastDstMacv6 e) .ipv6
          (setPpeEntrySmacIndex e 0x10#8)).pktType then L2.ipv6 = .ipv4
        else isIpv6Grp (foeSetEntryMac (setMcastDstMacv6 e) .ipv6
          (setPpeEntrySmacIndex e 0x10#8)).pktType ∧ L2.ipv6 = .ipv6 := by
      rw [ht, if_neg h4]
      exact ⟨h6, rfl⟩
    exact (dst_ppeSetVlanInfo v .ipv6 hview).trans (dst_foeSetEntryMac _ _)

/-- The address is the group's exactly when bit 23 of an IPv4 group is clear. -/
theorem mcastMac_iff_fits :
    McastMac (ppeFillInL2Info ponSfuMode v hdr e) e ↔ McastFits e := by
  constructor
  · intro h hb h4 hg
    obtain ⟨hret, hdst, -⟩ := @filled_v4 e ponSfuMode v hdr hb h4
    rw [← setMcastDstMacv4_eq_iff, ← hdst]
    exact (h.v4 hret h4 hg).1
  · intro h
    by_cases hb : e.state = .bind
    · have hret : (ppeFillInL2Info ponSfuMode v hdr e).ret = 1 := by
        rw [ppeFillInL2Info, if_pos hb]
      constructor <;> intro h0 <;> rw [hret] at h0 <;> exact absurd h0 (by decide)
    · constructor
      · intro _ h4 hg
        obtain ⟨-, hdst, hentry⟩ := @filled_v4 e ponSfuMode v hdr hb h4
        rw [hdst, hentry, setMcastDstMacv4_eq_iff.mpr (h hb h4 hg)]
        exact ⟨rfl, rfl⟩
      · intro _ h6
        exact (filled_v6 hb h6).2

/-- A frame and its entry have the address of their group exactly when bit 23 of an IPv4 group is
clear, and then two groups share it exactly when they agree on the bits that go into it. -/
theorem mcastMac_iff (ponSfuMode : Bool) (v : VlanInfo) (hdr hdr' : MacHdr) (e e' : FoeEntry) :
    (McastMac (ppeFillInL2Info ponSfuMode v hdr e) e ↔ McastFits e) ∧
    (McastFits e → McastFits e' → e.state ≠ .bind → e'.state ≠ .bind →
      isIpv4Grp e.pktType → isIpv4Grp e'.pktType →
      isGroupv4 e.origDestIp → isGroupv4 e'.origDestIp →
      ((ppeFillInL2Info ponSfuMode v hdr e).hdr.dst =
        (ppeFillInL2Info ponSfuMode v hdr' e').hdr.dst ↔
        e.origDestIp.extractLsb' 0 23 = e'.origDestIp.extractLsb' 0 23)) ∧
    (e.state ≠ .bind → e'.state ≠ .bind → isIpv6Grp e.pktType → isIpv6Grp e'.pktType →
      ((ppeFillInL2Info ponSfuMode v hdr e).hdr.dst =
        (ppeFillInL2Info ponSfuMode v hdr' e').hdr.dst ↔
        e.ipv6DestIp3 = e'.ipv6DestIp3)) := by
  refine ⟨mcastMac_iff_fits, ?_, ?_⟩
  · intro hf hf' hb hb' h4 h4' hg hg'
    rw [(filled_v4 hb h4).2.1, (filled_v4 hb' h4').2.1, setMcastDstMacv4_eq_iff.mpr (hf hb h4 hg),
      setMcastDstMacv4_eq_iff.mpr (hf' hb' h4' hg')]
    exact groupMacv4_eq_iff
  · intro hb hb' h6 h6'
    rw [(filled_v6 hb h6).2.1, (filled_v6 hb' h6').2.1]
    exact groupMacv6_eq_iff

/-- An HNAPT entry for 224.128.0.1. -/
def group224128 : FoeEntry := Vector.ofFn fun k => if k = 2 then 0xe0800001#32 else 0#32

theorem not_mcastMac_group224128 :
    ¬ McastMac (ppeFillInL2Info false { vn := 0#16, vid1 := 0#16, vid2 := 0#16 }
      { dst := Mac.zero, src := Mac.zero } group224128) group224128 := by
  intro h
  have hdst := (h.v4 (by decide) (by decide) (by decide)).1
  revert hdst
  decide

end Fill

end Airoha.Ppe
