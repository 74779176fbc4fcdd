/-
Airoha.Ppe.EgressWords — what binding and updating leave in an entry.

For each of the paths of `Airoha.Ppe.Egress`: the words of the key, the word
the cleaning functions take for `ib2` and the one with the channel, when the
path is through. `SameKey` says that the key is the one it was.
-/
import Airoha.Ppe.Egress

namespace Airoha.Ppe

open Airoha.Lib

/-! ## The key -/

/-- The types the law is about. -/
def Covered (type : PktType) : Prop :=
  type = .ipv4Hnapt ∨ type = .ipv4Route ∨ type = .bridge ∨ type = .ipv6Route3t ∨ type = .ipv6Route5t

instance (type : PktType) : Decidable (Covered type) := inferInstanceAs (Decidable (_ ∨ _))

/-- The last word of the tuple that is looked up, or of the key of a bridged flow. -/
def keyLast (type : PktType) : Nat :=
  match type with
  | .ipv4Hnapt | .ipv4Route | .ipv4Dslite => 3
  | .bridge => 5
  | .ipv6Route3t | .ipv6Route5t | .ipv66rd => 9
  | .reserved => 0

/-- The two entries are looked up by the same key. -/
structure SameKey (e e' : FoeEntry) : Prop where
  type : fieldGet 25 3 e'.ib1 = fieldGet 25 3 e.ib1
  udp : fieldGet 30 1 e'.ib1 = fieldGet 30 1 e.ib1
  tuple : ∀ k : Fin 20, 1 ≤ k.val → k.val ≤ keyLast e.pktType → e'.get k = e.get k

/-! ## What the shared steps write -/

section Steps

variable {e : FoeEntry} {type : PktType} {k : Fin 20}

theorem get_putTags {l2 : L2} (stag vid1 vid2 : BitVec 16) (h0 : k ≠ l2.at 0) (h2 : k ≠ l2.at 2) :
    (putTags e l2 stag vid1 vid2).get k = e.get k := by
  simp [putTags, FoeEntry.putEtype, FoeEntry.putVlan1, FoeEntry.putVlan2, FoeEntry.get_put, h0.symm,
    h2.symm]

theorem lo16_putTags (e : FoeEntry) (l2 : L2) (stag vid1 vid2 : BitVec 16) :
    lo16 ((putTags e l2 stag vid1 vid2).get (l2.at 0)) = vid1 := by
  have h : l2.at 2 ≠ l2.at 0 := by
    rw [Ne, L2.at_inj]
    decide
  simp [putTags, FoeEntry.putEtype, FoeEntry.putVlan1, FoeEntry.putVlan2, FoeEntry.get_put, h]

theorem get_setDefault (h16 : k ≠ 16) (hview : k ≠ (l2Of type).ib2) :
    (airohaSetDefaultAcntMeterIdx e type).get k = e.get k := by
  simp [airohaSetDefaultAcntMeterIdx, FoeEntry.putMeter, FoeEntry.putIb2,
    FoeEntry.get_put, h16.symm, hview.symm]

theorem psePort_setDefault (e : FoeEntry) (type : PktType) :
    psePort ((airohaSetDefaultAcntMeterIdx e type).ib2 (l2Of type)) =
      psePort (e.ib2 (l2Of type)) := by
  have h16 : (16 : Fin 20) ≠ (l2Of type).ib2 := by
    cases l2Of type <;> decide
  have hword : (airohaSetDefaultAcntMeterIdx e type).ib2 (l2Of type) =
      (e.ib2 (l2Of type) &&& ~~~mask 32 13 11) ||| fieldPrep 13 11 0x7ff#32 := by
    simp [airohaSetDefaultAcntMeterIdx, FoeEntry.putMeter, FoeEntry.putIb2, FoeEntry.ib2,
      FoeEntry.get_put, h16]
  simp (disch := decide) [hword, psePort, fieldGet_clear_of_disjoint,
    fieldGet_fieldPrep_of_disjoint]

theorem get_l4sApply {l4sFlag : Bool} {dscp : BitVec 8} (h10 : k ≠ 10) (h16 : k ≠ 16)
    (hview : k ≠ (l4sView type).ib2) :
    (arhtPpeL4sApply l4sFlag e type dscp).get k = e.get k := by
  cases h : l4sApplies l4sFlag dscp <;>
    simp [arhtPpeL4sApply, h, FoeEntry.putData, FoeEntry.putIb2, FoeEntry.get_put,
      h10.symm, h16.symm, hview.symm]

theorem channel_l4sApply (l4sFlag : Bool) (e : FoeEntry) (type : PktType) (dscp : BitVec 8) :
    dataChannel ((arhtPpeL4sApply l4sFlag e type dscp).get 10) = dataChannel (e.get 10) := by
  have hview : (l4sView type).ib2 ≠ 10 := by
    cases l4sView type <;> decide
  cases h : l4sApplies l4sFlag dscp
  · simp [arhtPpeL4sApply, h]
  · have hword : (arhtPpeL4sApply l4sFlag e type dscp).get 10 =
        (e.data &&& ~~~mask 32 24 8) ||| fieldPrep 24 8 (fieldGet 8 8 e.data) := by
      simp [arhtPpeL4sApply, h, FoeEntry.putData, FoeEntry.putIb2, FoeEntry.get_put, hview]
    rw [hword]
    simp (disch := decide) [dataChannel, fieldGet_clear_of_disjoint, fieldGet_fieldPrep_of_disjoint]
    rfl

theorem psePort_l4sApply (l4sFlag : Bool) (e : FoeEntry) (type : PktType) (dscp : BitVec 8) :
    psePort ((arhtPpeL4sApply l4sFlag e type dscp).ib2 (l4sView type)) =
      if l4sApplies l4sFlag dscp then 6#32 else psePort (e.ib2 (l4sView type)) := by
  have hview : 10 ≠ (l4sView type).ib2 ∧ 16 ≠ (l4sView type).ib2 := by
    cases l4sView type <;> decide
  have hsix : 6#32 &&& mask 32 0 4 = 6#32 := by decide
  cases h : l4sApplies l4sFlag dscp
  · simp [arhtPpeL4sApply, h]
  · have hword : ∃ x nbq, (arhtPpeL4sApply l4sFlag e type dscp).ib2 (l4sView type) =
        (((x &&& ~~~mask 32 0 5) &&& ~~~mask 32 5 4) &&& ~~~mask 32 9 1) |||
          (fieldPrep 5 4 6#32 ||| fieldPrep 0 5 nbq) := by
      refine ⟨e.ib2 (l4sView type),
        if psePort (e.ib2 (l4sView type)) = 1#32 then 2#32 else 1#32, ?_⟩
      simp [arhtPpeL4sApply, h, FoeEntry.putData, FoeEntry.putIb2, FoeEntry.ib2, FoeEntry.get_put,
        hview, BitVec.not_or, BitVec.and_assoc]
      rfl
    obtain ⟨x, nbq, hword⟩ := hword
    rw [hword]
    simp (disch := decide) [psePort, fieldGet_clear_of_disjoint, fieldGet_clear_self,
      fieldGet_fieldPrep_of_disjoint, fieldGet_fieldPrep_self, hsix]

/-- The MAC addresses are behind `ib2`. -/
theorem get_macSet (m : MacArgs) (pppid : BitVec 16) (e : FoeEntry) (hk : k.val < 12) :
    (m.set pppid e).get k = e.get k := by
  unfold MacArgs.set
  cases hl2 : setMacL2 e.pktType with
  | none => simp [airohaSetPpeMac, hl2]
  | some l2 =>
    by_cases ht : e.pktType.code ≤ PktType.ipv4Dslite.code
    · have hat : ∀ j : Fin 8, 1 ≤ j.val → k ≠ l2.at j := by
        intro j hj heq
        subst heq
        cases l2 <;> simp only [L2.at] at hk <;> omega
      simp [get_setPpeMac_ipv4 _ _ _ _ _ _ hl2 ht, hat 1, hat 2, hat 3, hat 4]
    · have hipv6 : l2 = .ipv6 := by
        revert hl2 ht
        cases e.pktType <;> simp [setMacL2, PktType.code, eq_comm]
      subst hipv6
      have hne : k ≠ 15 ∧ k ≠ 13 ∧ k ≠ 14 := by
        simp only [Ne, Fin.ext_iff]
        omega
      simp [get_setPpeMac_ipv6 _ _ _ _ _ _ hl2 ht, hne]

theorem get_stampCommit {ts : BitVec 32} {i : Nat} (hk : k ≠ 0) :
    (stampCommit ts i e).get k = e.get k := by
  have h := FoeEntry.get_put e 0 k ((stampCommit ts i e).get 0)
  rw [if_neg hk.symm] at h
  rw [← h]
  simp [stampCommit, FoeEntry.put, Vector.get_eq_getElem]

/-- A commit leaves what is in `ib1` beside the time and the state. -/
theorem field_stampCommit (ts : BitVec 32) (i : Nat) (e : FoeEntry) {s n : Nat} (hs : 15 ≤ s)
    (hn : s + n ≤ 28 ∨ 30 ≤ s) : fieldGet s n (stampCommit ts i e).ib1 = fieldGet s n e.ib1 := by
  have h15 : s + n ≤ 0 ∨ 0 + 15 ≤ s := by omega
  have h28 : s + n ≤ 28 ∨ 28 + 2 ≤ s := by omega
  rw [ib1_stampCommit]
  split_ifs <;>
    simp [fieldGet_clear_of_disjoint h15, fieldGet_clear_of_disjoint h28,
      fieldGet_fieldPrep_of_disjoint h15, fieldGet_fieldPrep_of_disjoint h28]

end Steps

theorem pktType_of_field {e e' : FoeEntry} (h : fieldGet 25 3 e'.ib1 = fieldGet 25 3 e.ib1) :
    e'.pktType = e.pktType := by
  rw [FoeEntry.pktType, FoeEntry.pktType, h]

/-- The tags and the MAC addresses are behind the words that are read or looked up. -/
theorem get_tagsMac {e : FoeEntry} {k : Fin 20} (m : MacArgs) (pppid : BitVec 16) (l2 : L2)
    (stag vid1 vid2 : BitVec 16) (hk : k.val < 12) (h0 : k ≠ l2.at 0) :
    (m.set pppid (putTags e l2 stag vid1 vid2)).get k = e.get k := by
  have h2 : k ≠ l2.at 2 := by
    intro h
    subst h
    cases l2 <;> revert hk <;> decide
  rw [get_macSet m pppid _ hk, get_putTags stag vid1 vid2 h0 h2]

section Shared

variable {type : PktType} {e : FoeEntry} {k : Fin 20}

theorem l4sView_of_ne_bridge (hb : type ≠ .bridge) : l4sView type = l2Of type := by
  simp [l4sView, l2Of, hb]

/-- A bridged flow has no DSCP, so it is never under L4S. -/
theorem l4sApplies_bridge (l4sFlag : Bool) (tos : BitVec 8) :
    l4sApplies l4sFlag (getDscpFromSkb tos .bridge) = false := by
  simp [l4sApplies, getDscpFromSkb]

theorem l4sApply_bridge (l4sFlag : Bool) (e : FoeEntry) (tos : BitVec 8) :
    arhtPpeL4sApply l4sFlag e .bridge (getDscpFromSkb tos .bridge) = e := by
  simp [arhtPpeL4sApply, l4sApplies_bridge]

/-- The words behind the key of the IPv4 types, and behind that of the others. -/
theorem ipv4Key_ne (hlast : k.val ≤ 3) :
    4 ≠ k ∧ 5 ≠ k ∧ 6 ≠ k ∧ 7 ≠ k ∧ 10 ≠ k ∧ 16 ≠ k := by
  revert k
  decide

theorem ipv6Key_ne (hlast : k.val ≤ 9) : 10 ≠ k ∧ 11 ≠ k ∧ 16 ≠ k := by
  revert k
  decide

/-- No key reaches the word of `ib2` of its own view. -/
theorem key_ne_view (hlast : k.val ≤ keyLast type) : k ≠ (l2Of type).ib2 := by
  cases type <;> revert hlast k <;> decide

theorem key_lt (hlast : k.val ≤ keyLast type) : k.val ≤ 9 := by
  cases type <;> simp only [keyLast] at hlast <;> omega

theorem key_ne {n : Fin 20} (hlast : k.val ≤ keyLast type) (hn : 10 ≤ n.val) : k ≠ n := by
  intro h
  have hk := key_lt hlast
  rw [h] at hk
  omega

theorem get_l4sApply_key (l4sFlag : Bool) (tos : BitVec 8) (hlast : k.val ≤ keyLast type) :
    (arhtPpeL4sApply l4sFlag e type (getDscpFromSkb tos type)).get k = e.get k := by
  by_cases hb : type = .bridge
  · subst hb
    rw [l4sApply_bridge]
  · refine get_l4sApply (key_ne hlast (by decide)) (key_ne hlast (by decide)) ?_
    rw [l4sView_of_ne_bridge hb]
    exact key_ne_view hlast

theorem port_l4sApply (l4sFlag : Bool) (tos : BitVec 8) :
    psePort ((arhtPpeL4sApply l4sFlag e type (getDscpFromSkb tos type)).get (l2Of type).ib2) =
      if l4sApplies l4sFlag (getDscpFromSkb tos type) then 6#32
      else psePort (e.get (l2Of type).ib2) := by
  by_cases hb : type = .bridge
  · subst hb
    simp [l4sApply_bridge, l4sApplies_bridge]
  · rw [← l4sView_of_ne_bridge hb]
    exact psePort_l4sApply l4sFlag e type (getDscpFromSkb tos type)

/-- `ib2` is before the tags. -/
theorem view_ne_tags (l2 : L2) : l2.ib2 ≠ l2.at 0 ∧ l2.ib2.val < 12 ∧ l2.ib2 ≠ 0 ∧ l2.ib2 ≠ 10 := by
  cases l2 <;> decide

theorem key_ne_tags (l2 : L2) (hlast : k.val ≤ keyLast type) : k ≠ l2.at 0 := by
  apply key_ne hlast
  cases l2 <;> decide

theorem key_ne_zero (h1 : 1 ≤ k.val) : k ≠ 0 := by
  intro h
  subst h
  exact absurd h1 (by decide)

theorem key_lt_tags (hlast : k.val ≤ keyLast type) : k.val < 12 := by
  have hk := key_lt hlast
  omega

theorem data_ne_tags (l2 : L2) : (10 : Fin 20) ≠ l2.at 0 := by
  cases l2 <;> decide

end Shared

/-! ## Binding -/

section GeneralBind

variable (x : BindArgs) {e : FoeEntry} {type : PktType} {dscp : BitVec 8} {k : Fin 20}

theorem channel_data : dataChannel x.data = x.pinfo.channel.setWidth 32 &&& mask 32 0 5 := by
  simp (disch := decide) [dataChannel, BindArgs.data, fieldGet_fieldPrep_of_disjoint,
    fieldGet_fieldPrep_self]

theorem psePort_fqos : psePort x.fqos = 0#32 := by
  unfold BindArgs.fqos
  split_ifs <;> decide

theorem psePort_fast : psePort x.fast = 0#32 := by
  unfold BindArgs.fast
  split <;> first | decide | (split_ifs <;> decide)

theorem psePort_ib2 (dscp : Option (BitVec 8)) :
    psePort (x.ib2 dscp) = x.fport.setWidth 32 &&& mask 32 0 4 := by
  have hfqos := psePort_fqos x
  have hfast := psePort_fast x
  unfold psePort at *
  cases dscp <;>
    simp (disch := decide) [BindArgs.ib2, fieldGet_fieldPrep_of_disjoint, fieldGet_fieldPrep_self,
      hfqos, hfast]

/-- The types it fills are filled in the view the cleaning functions take. -/
theorem fill_bind (e : FoeEntry) (dscp : BitVec 8) (hc : Covered type) :
    (x.fill e type dscp).2 = some (l2Of type) ∧ (x.fill e type dscp).1.get 10 = x.data ∧
      psePort ((x.fill e type dscp).1.get (l2Of type).ib2) =
        x.fport.setWidth 32 &&& mask 32 0 4 := by
  rcases hc with rfl | rfl | rfl | rfl | rfl
  all_goals
    refine ⟨rfl, ?_, ?_⟩ <;>
      simp [BindArgs.fill, setPpeFoeEntryMeterGrp2, FoeEntry.putMeter, FoeEntry.putData,
        FoeEntry.putIb2, FoeEntry.get_put, L2.ib2, l2Of, PktType.code, psePort_ib2]

theorem fill_bind_key (e : FoeEntry) (dscp : BitVec 8) (hc : Covered type)
    (hlast : k.val ≤ keyLast type) : (x.fill e type dscp).1.get k = e.get k := by
  rcases hc with rfl | rfl | rfl | rfl | rfl
  case inl | inr.inl =>
    have hne := ipv4Key_ne hlast
    simp [BindArgs.fill, setPpeFoeEntryMeterGrp2, FoeEntry.putMeter, FoeEntry.putData,
      FoeEntry.putIb2, FoeEntry.get_put, L2.ib2, hne]
  all_goals
    have hne := ipv6Key_ne (key_lt hlast)
    simp [BindArgs.fill, setPpeFoeEntryMeterGrp2, FoeEntry.putMeter, FoeEntry.putData,
      FoeEntry.putIb2, FoeEntry.get_put, L2.ib2, hne]

theorem get_commit {e : FoeEntry} {k : Fin 20} (hk : k ≠ 0) : (x.commit e).get k = e.get k := by
  unfold BindArgs.commit
  cases x.commitTs with
  | none => rfl
  | some ts => exact get_stampCommit hk

/-- The type and the UDP bit are not among the bits of `ib1` that are rewritten. -/
theorem field_bind (vn : BitVec 16) (e : FoeEntry) (ib1 : BitVec 32) {s n : Nat} (hs : 23 ≤ s)
    (hn : s + n ≤ 28 ∨ 30 ≤ s) :
    fieldGet s n (x.commit (e.putIb1 (x.ib1 vn ib1))).ib1 = fieldGet s n ib1 := by
  have hput : (e.putIb1 (x.ib1 vn ib1)).ib1 = x.ib1 vn ib1 :=
    (FoeEntry.get_put e 0 0 _).trans (if_pos rfl)
  have hib1 : fieldGet s n (x.ib1 vn ib1) = fieldGet s n ib1 := by
    simp (disch := omega) [BindArgs.ib1, BitVec.not_or, ← BitVec.and_assoc,
      fieldGet_clear_of_disjoint, fieldGet_fieldPrep_of_disjoint]
  unfold BindArgs.commit
  cases x.commitTs with
  | none => rw [hput, hib1]
  | some ts => rw [field_stampCommit ts 0 _ (by omega) hn, hput, hib1]

/-- `airoha_ppe_general_bind`, step by step. -/
theorem generalBind_eq {vn vid1 vid2 : BitVec 16} (hp : x.passes e = some (vn, vid1, vid2))
    (hc : Covered e.pktType) :
    airohaPpeGeneralBind x e =
      x.commit ((x.mac.set 0#16 (putTags (arhtPpeL4sApply x.l4sFlag
        (x.fill (airohaSetDefaultAcntMeterIdx e e.pktType) e.pktType
          (getDscpFromSkb x.tos e.pktType)).1 e.pktType (getDscpFromSkb x.tos e.pktType))
        (l2Of e.pktType) x.pinfo.stag vid1 vid2)).putIb1 (x.ib1 vn e.ib1)) := by
  obtain ⟨hl2, -, -⟩ := fill_bind x (airohaSetDefaultAcntMeterIdx e e.pktType)
    (getDscpFromSkb x.tos e.pktType) hc
  simp only [airohaPpeGeneralBind, hp, hl2]

/-- What `airoha_ppe_general_bind` leaves in the key, the port and the channel. -/
theorem generalBind_words {tags : BitVec 16 × BitVec 16 × BitVec 16} (hp : x.passes e = some tags)
    (hc : Covered e.pktType) :
    SameKey e (airohaPpeGeneralBind x e) ∧
      psePort ((airohaPpeGeneralBind x e).get (l2Of e.pktType).ib2) =
        (if l4sApplies x.l4sFlag (getDscpFromSkb x.tos e.pktType) then 6#32
          else x.fport.setWidth 32 &&& mask 32 0 4) ∧
      dataChannel ((airohaPpeGeneralBind x e).get 10) =
        x.pinfo.channel.setWidth 32 &&& mask 32 0 5 := by
  obtain ⟨vn, vid1, vid2⟩ := tags
  obtain ⟨-, hdata, hport⟩ := fill_bind x (airohaSetDefaultAcntMeterIdx e e.pktType)
    (getDscpFromSkb x.tos e.pktType) hc
  have heq := generalBind_eq x hp hc
  have hword : ∀ k : Fin 20, k ≠ 0 → k.val < 12 → k ≠ (l2Of e.pktType).at 0 →
      (airohaPpeGeneralBind x e).get k = (arhtPpeL4sApply x.l4sFlag
        (x.fill (airohaSetDefaultAcntMeterIdx e e.pktType) e.pktType
          (getDscpFromSkb x.tos e.pktType)).1
          e.pktType (getDscpFromSkb x.tos e.pktType)).get k := by
    intro k hk hlt htag
    rw [heq, get_commit x hk, FoeEntry.putIb1, FoeEntry.get_put, if_neg hk.symm]
    exact get_tagsMac _ _ _ _ _ _ hlt htag
  obtain ⟨htag, hlt, h0, -⟩ := view_ne_tags (l2Of e.pktType)
  refine ⟨⟨?_, ?_, ?_⟩, ?_, ?_⟩
  · rw [heq]
    exact field_bind x vn _ e.ib1 (by decide) (by decide)
  · rw [heq]
    exact field_bind x vn _ e.ib1 (by decide) (by decide)
  · intro k h1 hlast
    rw [hword k (key_ne_zero h1) (key_lt_tags hlast) (key_ne_tags _ hlast),
      get_l4sApply_key _ _ hlast, fill_bind_key x _ _ hc hlast]
    exact get_setDefault (key_ne hlast (by decide)) (key_ne_view hlast)
  · rw [hword _ h0 hlt htag, port_l4sApply, hport]
  · rw [hword 10 (by decide) (by decide) (data_ne_tags _), channel_l4sApply, hdata, channel_data]

end GeneralBind

/-! ## The update for the PON -/

section Pon

variable (x : PonArgs) {e : FoeEntry} {type : PktType} {dscp : BitVec 8} {k : Fin 20}

theorem channel_ponData : dataChannel x.data = x.pinfo.channel.setWidth 32 &&& mask 32 0 5 := by
  simp (disch := decide) [dataChannel, PonArgs.data, fieldGet_fieldPrep_of_disjoint,
    fieldGet_fieldPrep_self]

theorem fill_pon (e : FoeEntry) (dscp : BitVec 8) (hc : Covered type) (hb : type ≠ .bridge) :
    (x.fill e type dscp).2 = some (l2Of type) ∧ (x.fill e type dscp).1.get 10 = x.data ∧
      psePort ((x.fill e type dscp).1.get (l2Of type).ib2) = psePort (e.get (l2Of type).ib2) := by
  rcases hc with rfl | rfl | rfl | rfl | rfl
  case inr.inr.inl => exact absurd rfl hb
  all_goals
    refine ⟨rfl, ?_, ?_⟩ <;>
      simp (disch := decide) [PonArgs.fill, PonArgs.putNbq, putDscp, setPpeFoeEntryMeterGrp2,
        FoeEntry.putMeter, FoeEntry.putData, FoeEntry.putIb2, FoeEntry.ib2,
          FoeEntry.get_put, L2.ib2,
        l2Of, PktType.code, psePort, fieldGet_clear_of_disjoint, fieldGet_fieldPrep_of_disjoint]

theorem fill_pon_key (e : FoeEntry) (dscp : BitVec 8) (hc : Covered type) (hb : type ≠ .bridge)
    (hlast : k.val ≤ keyLast type) : (x.fill e type dscp).1.get k = e.get k := by
  rcases hc with rfl | rfl | rfl | rfl | rfl
  case inr.inr.inl => exact absurd rfl hb
  case inl | inr.inl =>
    have hne := ipv4Key_ne hlast
    simp [PonArgs.fill, PonArgs.putNbq, putDscp, setPpeFoeEntryMeterGrp2, FoeEntry.putMeter,
      FoeEntry.putData, FoeEntry.putIb2, FoeEntry.ib2, FoeEntry.get_put, L2.ib2, hne]
  all_goals
    have hne := ipv6Key_ne (key_lt hlast)
    simp [PonArgs.fill, PonArgs.putNbq, putDscp, setPpeFoeEntryMeterGrp2, FoeEntry.putMeter,
      FoeEntry.putData, FoeEntry.putIb2, FoeEntry.ib2, FoeEntry.get_put, L2.ib2, hne]

/-- A bridged flow: NBQ is written to the fifth word. -/
theorem get_fill_pon_bridge (e : FoeEntry) (dscp : BitVec 8) (k : Fin 20) :
    (x.fill e .bridge dscp).1.get k =
      if 4 = k then
        (e.get 4 &&& ~~~mask 32 0 5) ||| fieldPrep 0 5 (x.pinfo.channel.setWidth 32)
      else if 10 = k then x.data
      else e.get k := by
  have h10 : (10 : Fin 20) ≠ 4 := by decide
  simp only [PonArgs.fill, PonArgs.putNbq, FoeEntry.putData, FoeEntry.putIb2, FoeEntry.ib2,
    FoeEntry.get_put, L2.ib2, h10, if_true, if_false]
  by_cases h4 : 4 = k <;> simp [h4]

theorem field_pon (ib1 : BitVec 32) {s n : Nat} (hs : 23 ≤ s) :
    fieldGet s n (x.ib1 ib1) = fieldGet s n ib1 := by
  simp (disch := omega) [PonArgs.ib1, fieldGet_fieldPrep_of_disjoint]

/-- The entry when the switch is reached. -/
def PonArgs.start (x : PonArgs) (e : FoeEntry) : FoeEntry :=
  let e := airohaSetDefaultAcntMeterIdx e e.pktType
  e.putIb1 (x.ib1 e.ib1)

theorem get_start (hk : k ≠ 0) (h16 : k ≠ 16) (hview : k ≠ (l2Of e.pktType).ib2) :
    (x.start e).get k = e.get k := by
  rw [PonArgs.start, FoeEntry.putIb1, FoeEntry.get_put, if_neg hk.symm, get_setDefault h16 hview]

theorem ib1_start : (x.start e).ib1 = x.ib1 e.ib1 := by
  have h0 : (0 : Fin 20) ≠ (l2Of e.pktType).ib2 := by
    cases l2Of e.pktType <;> decide
  have hib1 : (airohaSetDefaultAcntMeterIdx e e.pktType).ib1 = e.ib1 :=
    get_setDefault (by decide) h0
  rw [PonArgs.start, hib1]
  exact (FoeEntry.get_put _ 0 0 _).trans (if_pos rfl)

theorem psePort_start : psePort ((x.start e).get (l2Of e.pktType).ib2) =
    psePort (e.get (l2Of e.pktType).ib2) := by
  obtain ⟨-, -, h0, -⟩ := view_ne_tags (l2Of e.pktType)
  rw [PonArgs.start, FoeEntry.putIb1, FoeEntry.get_put, if_neg h0.symm]
  exact psePort_setDefault e e.pktType

/-- `airoha_ppe_foe_flow_update_pon_offload`, step by step. -/
theorem flowUpdatePonOffload_eq {l2 : L2} (htx : x.txModified = false)
    (hl2 : (x.fill (x.start e) e.pktType (getDscpFromSkb x.tos e.pktType)).2 = some l2) :
    airohaPpeFoeFlowUpdatePonOffload x e =
      x.mac.set x.pppid (putTags (arhtPpeL4sApply x.l4sFlag
        (x.fill (x.start e) e.pktType (getDscpFromSkb x.tos e.pktType)).1 e.pktType
          (getDscpFromSkb x.tos e.pktType)) l2 x.pinfo.stag x.vid1 x.vid2) := by
  unfold PonArgs.start at hl2 ⊢
  simp only [airohaPpeFoeFlowUpdatePonOffload, htx, hl2]
  rfl

/-- The types other than a bridged flow. -/
theorem ponOffload_words (htx : x.txModified = false) (hc : Covered e.pktType)
    (hb : e.pktType ≠ .bridge) :
    SameKey e (airohaPpeFoeFlowUpdatePonOffload x e) ∧
      psePort ((airohaPpeFoeFlowUpdatePonOffload x e).get (l2Of e.pktType).ib2) =
        (if l4sApplies x.l4sFlag (getDscpFromSkb x.tos e.pktType) then 6#32
          else psePort (e.get (l2Of e.pktType).ib2)) ∧
      dataChannel ((airohaPpeFoeFlowUpdatePonOffload x e).get 10) =
        x.pinfo.channel.setWidth 32 &&& mask 32 0 5 := by
  obtain ⟨hl2, hdata, hport⟩ := fill_pon x (x.start e) (getDscpFromSkb x.tos e.pktType) hc hb
  have heq := flowUpdatePonOffload_eq x htx hl2
  have hkey : ∀ k : Fin 20, k.val ≤ keyLast e.pktType →
      (airohaPpeFoeFlowUpdatePonOffload x e).get k = (x.start e).get k := by
    intro k hlast
    rw [heq, get_tagsMac _ _ _ _ _ _ (key_lt_tags hlast) (key_ne_tags _ hlast),
      get_l4sApply_key _ _ hlast, fill_pon_key x _ _ hc hb hlast]
  have hib1 : (airohaPpeFoeFlowUpdatePonOffload x e).ib1 = x.ib1 e.ib1 :=
    (hkey 0 (Nat.zero_le _)).trans (ib1_start x)
  obtain ⟨htag, hlt, -, -⟩ := view_ne_tags (l2Of e.pktType)
  refine ⟨⟨?_, ?_, ?_⟩, ?_, ?_⟩
  · rw [hib1, field_pon x e.ib1 (by decide)]
  · rw [hib1, field_pon x e.ib1 (by decide)]
  · intro k h1 hlast
    rw [hkey k hlast]
    exact get_start x (key_ne_zero h1) (key_ne hlast (by decide)) (key_ne_view hlast)
  · rw [heq, get_tagsMac _ _ _ _ _ _ hlt htag, port_l4sApply, hport, psePort_start]
  · rw [heq, get_tagsMac _ _ _ _ _ _ (by decide) (data_ne_tags _), channel_l4sApply, hdata,
      channel_ponData]

/-- The words of a bridged flow that are looked up or read. -/
theorem ponOffload_bridge (htx : x.txModified = false) (hb : e.pktType = .bridge) :
    (airohaPpeFoeFlowUpdatePonOffload x e).ib1 = x.ib1 e.ib1 ∧
      (∀ k : Fin 20, 1 ≤ k.val → k.val ≤ 5 → 4 ≠ k →
        (airohaPpeFoeFlowUpdatePonOffload x e).get k = e.get k) ∧
      (airohaPpeFoeFlowUpdatePonOffload x e).get 4 =
        (e.get 4 &&& ~~~mask 32 0 5) ||| fieldPrep 0 5 (x.pinfo.channel.setWidth 32) ∧
      dataChannel ((airohaPpeFoeFlowUpdatePonOffload x e).get 10) =
        x.pinfo.channel.setWidth 32 &&& mask 32 0 5 ∧
      psePort ((airohaPpeFoeFlowUpdatePonOffload x e).get 11) = psePort (x.vid1.setWidth 32) := by
  have hl2 : (x.fill (x.start e) e.pktType (getDscpFromSkb x.tos e.pktType)).2 = some .ipv4 := by
    rw [hb]
    rfl
  have heq := flowUpdatePonOffload_eq x htx hl2
  rw [hb, l4sApply_bridge] at heq
  have hget : ∀ k : Fin 20, k.val < 11 → (airohaPpeFoeFlowUpdatePonOffload x e).get k =
      if 4 = k then
        ((x.start e).get 4 &&& ~~~mask 32 0 5) ||| fieldPrep 0 5 (x.pinfo.channel.setWidth 32)
      else if 10 = k then x.data
      else (x.start e).get k := by
    intro k hk
    have htag : k ≠ L2.ipv4.at 0 := by
      intro h
      subst h
      exact absurd hk (by decide)
    rw [heq, get_tagsMac _ _ _ _ _ _ (by omega) htag, get_fill_pon_bridge]
  have hstart : ∀ k : Fin 20, 1 ≤ k.val → k.val < 11 → (x.start e).get k = e.get k := by
    intro k h1 hk
    refine get_start x (key_ne_zero h1) ?_ ?_
    · intro h
      subst h
      exact absurd hk (by decide)
    · rw [hb]
      intro h
      subst h
      exact absurd hk (by decide)
  refine ⟨?_, ?_, ?_, ?_, ?_⟩
  · exact (hget 0 (by decide)).trans (ib1_start x)
  · intro k h1 h5 h4
    have h10 : 10 ≠ k := (ipv6Key_ne (by omega)).1
    rw [hget k (by omega), if_neg h4, if_neg h10, hstart k h1 (by omega)]
  · rw [hget 4 (by decide), if_pos rfl, hstart 4 (by decide) (by decide)]
  · rw [hget 10 (by decide), if_neg (by decide), if_pos rfl, channel_ponData]
  · have hlow : lo16 ((airohaPpeFoeFlowUpdatePonOffload x e).get 11) = x.vid1 := by
      rw [heq, get_macSet _ _ _ (by decide)]
      exact lo16_putTags _ .ipv4 x.pinfo.stag x.vid1 x.vid2
    exact fieldGet_of_lo16 (by decide) (hlow.trans (lo16_setWidth x.vid1).symm)

end Pon

/-! ## Multicast and dropped flows -/

section Rest

variable {e : FoeEntry} {k : Fin 20}

/-- The multicast handler writes `data` and `ib2`, the upper half of the word of the tags, and the
new addresses of an IPv4 flow. -/
theorem multicastFill_words (data val : BitVec 32) (stagDp : BitVec 16) (hc : Covered e.pktType) :
    (multicastFill data val stagDp e).get 10 = data ∧
      (multicastFill data val stagDp e).get (l4sView e.pktType).ib2 = val ∧
      lo16 ((multicastFill data val stagDp e).get ((l4sView e.pktType).at 0)) =
        lo16 (e.get ((l4sView e.pktType).at 0)) := by
  rcases hc with ht | ht | ht | ht | ht <;> rw [ht] <;>
    simp [multicastFill, ht, FoeEntry.putData, FoeEntry.putIb2, FoeEntry.putEtype, FoeEntry.get_put,
      l4sView, L2.ib2, L2.at, PktType.code]

theorem multicastFill_key (data val : BitVec 32) (stagDp : BitVec 16) (hc : Covered e.pktType)
    (hlast : k.val ≤ keyLast e.pktType) (hview : k ≠ (l4sView e.pktType).ib2) :
    (multicastFill data val stagDp e).get k = e.get k := by
  have hne := ipv6Key_ne (key_lt hlast)
  have h4 := hview.symm
  rcases hc with ht | ht | ht | ht | ht <;> rw [ht] at hlast h4
  case inl | inr.inl =>
    have hnew := ipv4Key_ne hlast
    simp [multicastFill, ht, FoeEntry.putData, FoeEntry.putIb2, FoeEntry.putEtype, FoeEntry.get_put,
      L2.ib2, L2.at, hne, hnew]
  case inr.inr.inl =>
    have h4' : 4 ≠ k := h4
    simp [multicastFill, ht, FoeEntry.putData, FoeEntry.putIb2, FoeEntry.putEtype, FoeEntry.get_put,
      L2.ib2, L2.at, hne, h4']
  all_goals
    have h12 : 12 ≠ k := (key_ne hlast (by decide)).symm
    simp [multicastFill, ht, FoeEntry.putData, FoeEntry.putIb2, FoeEntry.putEtype, FoeEntry.get_put,
      L2.ib2, L2.at, hne, h12]

theorem ib1_multicastFill (data val : BitVec 32) (stagDp : BitVec 16) (hc : Covered e.pktType) :
    (multicastFill data val stagDp e).ib1 = e.ib1 := by
  refine multicastFill_key data val stagDp hc (Nat.zero_le _) ?_
  cases l4sView e.pktType <;> decide

theorem field_putBind (e : FoeEntry) {s n : Nat} (h : s + n ≤ 28 ∨ 30 ≤ s) :
    fieldGet s n e.putBind.ib1 = fieldGet s n e.ib1 := by
  have h28 : s + n ≤ 28 ∨ 28 + 2 ≤ s := h
  have hword : e.putBind.ib1 = (e.ib1 &&& ~~~mask 32 28 2) ||| fieldPrep 28 2 2#32 := by
    have h1 := FoeEntry.get_put e 0 0 (e.ib1 &&& ~~~mask 32 28 2)
    have h2 := FoeEntry.get_put (e.putIb1 (e.ib1 &&& ~~~mask 32 28 2)) 0 0
      ((e.putIb1 (e.ib1 &&& ~~~mask 32 28 2)).ib1 ||| fieldPrep 28 2 2#32)
    rw [if_pos rfl] at h1 h2
    exact h2.trans (congrArg (fun x => x ||| fieldPrep 28 2 2#32) h1)
  rw [hword]
  simp [fieldGet_clear_of_disjoint h28, fieldGet_fieldPrep_of_disjoint h28]

theorem get_putBind (hk : k ≠ 0) : e.putBind.get k = e.get k := by
  simp [FoeEntry.putBind, FoeEntry.putIb1, FoeEntry.get_put, hk.symm]

/-- The drop handler writes `ib2`. -/
theorem get_dropFill (hc : Covered e.pktType) (k : Fin 20) :
    (dropFill e).get k = if (l4sView e.pktType).ib2 = k then dropIb2 else e.get k := by
  rcases hc with ht | ht | ht | ht | ht <;> rw [ht] <;>
    simp [dropFill, ht, FoeEntry.putIb2, FoeEntry.get_put, l4sView, PktType.code]

end Rest

end Airoha.Ppe
