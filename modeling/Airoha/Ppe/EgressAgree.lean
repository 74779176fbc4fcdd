/-
Airoha.Ppe.EgressAgree — binding and cleaning, side by side.

`BindsAgree` says that the port and channel a path leaves in an entry are those
the cleaning functions read there, and that the path leaves the key alone;
`bindsAgree_iff` when. A path that takes a bridged flow for a `bridge` writes
its `ib2` over the fifth word of the key, and the cleaning functions look for it
where that path has the tags.
-/
import Airoha.Ppe.EgressWords

namespace Airoha.Ppe

open Airoha.Lib

/-! ## What is meant -/

/-- Where a flow leaves. -/
structure Egress where
  psePort : Nat
  channel : Nat
deriving DecidableEq

/-- A path that binds a flow or updates it, with what it finds. -/
inductive EgressPath where
  | generalBind (x : BindArgs)
  | flowUpdatePonOffload (x : PonArgs)
  | multicastHwnat (data val : BitVec 32) (stagDp : BitVec 16) (ts : BitVec 32)
  | dropPacket (x : DropArgs)

/-- The entry behind the path. -/
def EgressPath.run (p : EgressPath) (e : FoeEntry) : FoeEntry :=
  match p with
  | .generalBind x => airohaPpeGeneralBind x e
  | .flowUpdatePonOffload x => airohaPpeFoeFlowUpdatePonOffload x e
  | .multicastHwnat data val stagDp ts => arhtMulticastHwnatStateHandlerCommon data val stagDp ts e
  | .dropPacket x => airohaPpeDropPacketHandler x e

/-- The view a path other than `airoha_ppe_general_bind` takes for a type. -/
def updateView (type : PktType) : L2 := l4sView type

/-- The port and the channel in what the path writes, none when it leaves the entry alone. A
packet under L4S goes to port 6; the update for the PON keeps the port in the `ib2` it writes, and
a dropped flow keeps its channel. -/
def EgressPath.wrote (p : EgressPath) (e : FoeEntry) : Option Egress :=
  match p with
  | .generalBind x =>
      (x.passes e).map fun _ =>
        { psePort := if l4sApplies x.l4sFlag (getDscpFromSkb x.tos e.pktType) then 6
            else x.fport.toNat % 16
          channel := x.pinfo.channel.toNat }
  | .flowUpdatePonOffload x =>
      if x.txModified then none
      else
        some
          { psePort := if l4sApplies x.l4sFlag (getDscpFromSkb x.tos e.pktType) then 6
              else (psePort (e.ib2 (updateView e.pktType))).toNat
            channel := x.pinfo.channel.toNat }
  | .multicastHwnat data val _ _ =>
      some { psePort := (psePort val).toNat, channel := (dataChannel data).toNat }
  | .dropPacket x =>
      if x.passes then some { psePort := 15, channel := (dataChannel e.data).toNat } else none

/-- The entry is bound, in the table at `i`, and neither a read nor a write of it is lost. -/
structure HoldsAt (hw : PpeHw) (t : Nat → FoeCell) (i : Nat) (e : FoeEntry) : Prop where
  lt : i < hw.numEntries
  readable : hw.Readable i
  writable : hw.Writable i
  entry : (t i).entry hw i = e
  bound : e.state = .bind

/-- The cleaning functions read the port and the channel, and find the entry by them. They delete it
where its read and the write that deletes it come through (`HoldsAt`). -/
structure FoundBy (w : Egress) (e : FoeEntry) : Prop where
  port : (psePort (e.ib2 (l2Of e.pktType))).toNat = w.psePort
  channel : (dataChannel e.data).toNat = w.channel
  byFportAndChannel : ∀ hw commit t i, HoldsAt hw t i e → ∀ targetFport channelIdx : Int,
    ((airohaPpeCleanEntryByFportAndChannel hw commit targetFport channelIdx t).2 i).entry hw i =
      if targetFport = w.psePort ∧ channelIdx = w.channel then commit i e.invalidate else e
  byChannel : ∀ hw commit t i, HoldsAt hw t i e → ∀ channelIdx : Int,
    (airohaPpeCleanEntryByChannel hw commit channelIdx t i).entry hw i =
      if w.psePort = 2 ∧ channelIdx = w.channel then commit i e.invalidate else e
  byGemport : ∀ hw commit t i, HoldsAt hw t i e → ∀ gemportId : BitVec 32,
    (airohaPpeCleanEntryByGemport hw commit gemportId t i).entry hw i =
      if w.psePort = 2 ∧ (e.etype (l2Of e.pktType)).setWidth 32 = gemportId
        then commit i e.invalidate else e

/-- Binding and cleaning agree. -/
def BindsAgree (p : EgressPath) (e : FoeEntry) : Prop :=
  Covered e.pktType → SameKey e (p.run e) ∧ ∀ w, p.wrote e = some w → FoundBy w (p.run e)

/-- A path that takes a bridged flow for a `bridge` happens to find in its key what it writes there,
and the port where the cleaning functions look for it. -/
def EgressGuarded (p : EgressPath) (e : FoeEntry) : Prop :=
  e.pktType = .bridge →
    match p with
    | .generalBind _ => True
    | .flowUpdatePonOffload x => x.txModified = false →
        fieldGet 0 5 (e.get 4) = x.pinfo.channel.setWidth 32 ∧
          psePort (x.vid1.setWidth 32) = psePort (e.get 4)
    | .multicastHwnat _ val _ _ => e.get 4 = val ∧ psePort (e.get 11) = psePort val
    | .dropPacket x => x.passes = true → e.get 4 = dropIb2 ∧ psePort (e.get 11) = 15#32

/-! ## Cleaning by what is read -/

theorem not_fits {w : Egress} {e : FoeEntry}
    (hp : (psePort (e.ib2 (l2Of e.pktType))).toNat = w.psePort)
    (hc : (dataChannel e.data).toNat = w.channel) : w.psePort < 16 ∧ w.channel < 32 := by
  rw [← hp, ← hc]
  exact ⟨toNat_fieldGet_lt 5 4 (e.ib2 (l2Of e.pktType)), toNat_fieldGet_lt 11 5 e.data⟩

/-- An entry is found by the port and the channel that are read there. -/
theorem foundBy_iff (w : Egress) (e : FoeEntry) :
    FoundBy w e ↔ (psePort (e.ib2 (l2Of e.pktType))).toNat = w.psePort ∧
      (dataChannel e.data).toNat = w.channel := by
  constructor
  · intro h
    exact ⟨h.port, h.channel⟩
  · rintro ⟨hp, hc⟩
    have hfits := not_fits hp hc
    refine ⟨hp, hc, ?_, ?_, ?_⟩
    · intro hw commit t i h targetFport channelIdx
      by_cases hch : channelIdx < 0 ∨ 31 < channelIdx
      · have hne : ¬ (targetFport = w.psePort ∧ channelIdx = w.channel) := by omega
        simp [airohaPpeCleanEntryByFportAndChannel, hch, hne, h.entry]
      by_cases hfp : targetFport < 0 ∨ 15 < targetFport
      · have hne : ¬ (targetFport = w.psePort ∧ channelIdx = w.channel) := by omega
        simp [airohaPpeCleanEntryByFportAndChannel, hch, hfp, hne, h.entry]
      · rw [airohaPpeCleanEntryByFportAndChannel, if_neg hch, if_neg hfp, entry_cleanWhere h.lt,
          h.entry]
        simp [Deletes, Picks, judgeChannel, h.readable, h.writable, h.bound, hp, hc,
          @eq_comm Int targetFport, @eq_comm Int channelIdx]
    · intro hw commit t i h channelIdx
      rw [airohaPpeCleanEntryByChannel, entry_cleanWhere h.lt, h.entry]
      have h2 : (w.psePort : Int) = 2 ↔ w.psePort = 2 := by omega
      simp [Deletes, Picks, judgeChannel, h.readable, h.writable, h.bound, hp, hc, h2,
        @eq_comm Int channelIdx]
    · intro hw commit t i h gemportId
      rw [airohaPpeCleanEntryByGemport, entry_cleanWhere h.lt, h.entry]
      simp [Deletes, Picks, judgeGemport, h.readable, h.writable, h.bound, hp]

/-! ## Path by path -/

section Paths

variable {e : FoeEntry}

/-- A path that keeps the type is judged by two words. -/
theorem foundBy_words {e' : FoeEntry} (w : Egress) (h : SameKey e e') :
    FoundBy w e' ↔ (psePort (e'.get (l2Of e.pktType).ib2)).toNat = w.psePort ∧
      (dataChannel (e'.get 10)).toNat = w.channel := by
  rw [foundBy_iff, FoeEntry.ib2, pktType_of_field h.type]
  rfl

theorem SameKey.refl (e : FoeEntry) : SameKey e e := ⟨rfl, rfl, fun _ _ _ => rfl⟩

theorem channel_toNat (channel : BitVec 5) :
    (channel.setWidth 32 &&& mask 32 0 5).toNat = channel.toNat := by
  have hlt := channel.isLt
  rw [toNat_and_mask (by decide), BitVec.toNat_setWidth]
  omega

theorem ite_toNat {p : Prop} [Decidable p] (x y : BitVec 32) :
    (if p then x else y).toNat = if p then x.toNat else y.toNat := by
  split_ifs <;> rfl

theorem agrees_generalBind (x : BindArgs) (hc : Covered e.pktType) :
    SameKey e (airohaPpeGeneralBind x e) ∧
      ∀ w, (EgressPath.generalBind x).wrote e = some w → FoundBy w (airohaPpeGeneralBind x e) := by
  cases hp : x.passes e with
  | none => simp [airohaPpeGeneralBind, EgressPath.wrote, hp, SameKey.refl]
  | some tags =>
    obtain ⟨hkey, hport, hchannel⟩ := generalBind_words x hp hc
    have hfport : (x.fport.setWidth 32 &&& mask 32 0 4).toNat = x.fport.toNat % 16 := by
      have hlt := x.fport.isLt
      rw [toNat_and_mask (by decide), BitVec.toNat_setWidth]
      omega
    refine ⟨hkey, ?_⟩
    intro w hw
    simp only [EgressPath.wrote, hp, Option.map_some, Option.some.injEq] at hw
    rw [foundBy_words w hkey, hport, hchannel, ite_toNat, hfport, channel_toNat, ← hw]
    exact ⟨rfl, rfl⟩

theorem agrees_ponOffload (x : PonArgs) (hc : Covered e.pktType) (hb : e.pktType ≠ .bridge) :
    SameKey e (airohaPpeFoeFlowUpdatePonOffload x e) ∧
      ∀ w, (EgressPath.flowUpdatePonOffload x).wrote e = some w →
        FoundBy w (airohaPpeFoeFlowUpdatePonOffload x e) := by
  cases htx : x.txModified with
  | true => simp [airohaPpeFoeFlowUpdatePonOffload, EgressPath.wrote, htx, SameKey.refl]
  | false =>
    obtain ⟨hkey, hport, hchannel⟩ := ponOffload_words x htx hc hb
    refine ⟨hkey, ?_⟩
    intro w hw
    simp [EgressPath.wrote, htx, FoeEntry.ib2, updateView, l4sView_of_ne_bridge hb] at hw
    rw [foundBy_words w hkey, hport, hchannel, ite_toNat, channel_toNat, ← hw]
    exact ⟨rfl, rfl⟩

/-- A bridged flow that the update for the PON reaches. -/
theorem agrees_ponOffload_bridge_iff (x : PonArgs) (htx : x.txModified = false)
    (hb : e.pktType = .bridge) :
    (SameKey e (airohaPpeFoeFlowUpdatePonOffload x e) ∧
      ∀ w, (EgressPath.flowUpdatePonOffload x).wrote e = some w →
        FoundBy w (airohaPpeFoeFlowUpdatePonOffload x e)) ↔
      fieldGet 0 5 (e.get 4) = x.pinfo.channel.setWidth 32 ∧
        psePort (x.vid1.setWidth 32) = psePort (e.get 4) := by
  obtain ⟨hib1, htuple, h4, h10, h11⟩ := ponOffload_bridge x htx hb
  have hwrote : (EgressPath.flowUpdatePonOffload x).wrote e =
      some { psePort := (psePort (e.get 4)).toNat, channel := x.pinfo.channel.toNat } := by
    simp [EgressPath.wrote, htx, hb, l4sApplies_bridge, updateView, l4sView, FoeEntry.ib2, L2.ib2]
  have hchannel : x.pinfo.channel.setWidth 32 &&& mask 32 0 5 = x.pinfo.channel.setWidth 32 := by
    have hlt := x.pinfo.channel.isLt
    rw [BitVec.toNat_eq, channel_toNat, BitVec.toNat_setWidth]
    omega
  have hview : (l2Of e.pktType).ib2 = 11 := by
    rw [hb]
    rfl
  constructor
  · rintro ⟨hkey, hfound⟩
    have h44 := hkey.tuple 4 (by decide) (by rw [hb]; decide)
    have hnbq := congrArg (fieldGet 0 5) (h4.symm.trans h44)
    rw [fieldGet_or, fieldGet_clear_self, fieldGet_fieldPrep_self (by decide), hchannel,
      BitVec.zero_or] at hnbq
    have hport := ((foundBy_words _ hkey).mp (hfound _ hwrote)).1
    rw [hview, h11] at hport
    exact ⟨hnbq.symm, BitVec.eq_of_toNat_eq hport⟩
  · rintro ⟨hnbq, hport⟩
    have hkey : SameKey e (airohaPpeFoeFlowUpdatePonOffload x e) := by
      refine ⟨?_, ?_, ?_⟩
      · rw [hib1, field_pon x e.ib1 (by decide)]
      · rw [hib1, field_pon x e.ib1 (by decide)]
      · intro k h1 hlast
        rw [hb] at hlast
        by_cases hk : 4 = k
        · subst hk
          rw [h4, ← hnbq, clear_or_fieldPrep_fieldGet]
        · exact htuple k h1 hlast hk
    refine ⟨hkey, ?_⟩
    intro w hw
    rw [hwrote, Option.some.injEq] at hw
    rw [foundBy_words w hkey, hview, h11, h10, channel_toNat, hport, ← hw]
    exact ⟨rfl, rfl⟩

/-- A path that writes the whole of `ib2`, in the view it takes, and nothing else of the key. -/
theorem agrees_view_iff {e' : FoeEntry} {val : BitVec 32} {channel : Nat}
    (htype : fieldGet 25 3 e'.ib1 = fieldGet 25 3 e.ib1)
    (hudp : fieldGet 30 1 e'.ib1 = fieldGet 30 1 e.ib1)
    (hval : e'.get (l4sView e.pktType).ib2 = val)
    (htag : e.pktType = .bridge → lo16 (e'.get 11) = lo16 (e.get 11))
    (htuple : ∀ k : Fin 20, 1 ≤ k.val → k.val ≤ keyLast e.pktType → k ≠ (l4sView e.pktType).ib2 →
      e'.get k = e.get k)
    (hchannel : (dataChannel (e'.get 10)).toNat = channel) :
    (SameKey e e' ∧ FoundBy { psePort := (psePort val).toNat, channel := channel } e') ↔
      (e.pktType = .bridge → e.get 4 = val ∧ psePort (e.get 11) = psePort val) := by
  by_cases hb : e.pktType = .bridge
  · have hview : (l4sView e.pktType).ib2 = 4 ∧ (l2Of e.pktType).ib2 = 11 := by
      rw [hb]
      exact ⟨rfl, rfl⟩
    have hport : psePort (e'.get 11) = psePort (e.get 11) := fieldGet_of_lo16 (by decide) (htag hb)
    rw [hview.1] at hval htuple
    constructor
    · rintro ⟨hkey, hfound⟩ _
      have h4 := hkey.tuple 4 (by decide) (by rw [hb]; decide)
      have h11 := ((foundBy_words _ hkey).mp hfound).1
      rw [hview.2, hport] at h11
      exact ⟨h4.symm.trans hval, BitVec.eq_of_toNat_eq h11⟩
    · intro h
      obtain ⟨h4, h11⟩ := h hb
      have hkey : SameKey e e' := by
        refine ⟨htype, hudp, ?_⟩
        intro k h1 hlast
        by_cases hk : k = 4
        · rw [hk, hval, h4]
        · exact htuple k h1 hlast hk
      rw [foundBy_words _ hkey, hview.2, hport, h11]
      exact ⟨hkey, rfl, hchannel⟩
  · rw [l4sView_of_ne_bridge hb] at hval htuple
    have hkey : SameKey e e' :=
      ⟨htype, hudp, fun k h1 hlast => htuple k h1 hlast (key_ne_view hlast)⟩
    rw [foundBy_words _ hkey, hval]
    simp [hkey, hchannel, hb]

theorem agrees_multicast_iff (data val : BitVec 32) (stagDp : BitVec 16) (ts : BitVec 32)
    (hc : Covered e.pktType) :
    (SameKey e (arhtMulticastHwnatStateHandlerCommon data val stagDp ts e) ∧
      FoundBy { psePort := (psePort val).toNat, channel := (dataChannel data).toNat }
        (arhtMulticastHwnatStateHandlerCommon data val stagDp ts e)) ↔
      (e.pktType = .bridge → e.get 4 = val ∧ psePort (e.get 11) = psePort val) := by
  obtain ⟨hdata, hib2, htag⟩ := multicastFill_words data val stagDp hc
  have hib1 := ib1_multicastFill data val stagDp hc
  have hview : (l4sView e.pktType).ib2 ≠ 0 := (view_ne_tags _).2.2.1
  unfold arhtMulticastHwnatStateHandlerCommon
  apply agrees_view_iff
  · rw [field_stampCommit ts 0 _ (by decide) (by decide), hib1]
  · rw [field_stampCommit ts 0 _ (by decide) (by decide), hib1]
  · rw [get_stampCommit hview, hib2]
  · intro hb
    rw [get_stampCommit (by decide)]
    rwa [hb] at htag
  · intro k h1 hlast hk
    rw [get_stampCommit (key_ne_zero h1), multicastFill_key data val stagDp hc hlast hk]
  · rw [get_stampCommit (by decide), hdata]

theorem agrees_dropPacket_iff (x : DropArgs) (hx : x.passes = true) (hc : Covered e.pktType) :
    (SameKey e (airohaPpeDropPacketHandler x e) ∧
      FoundBy { psePort := (psePort dropIb2).toNat, channel := (dataChannel e.data).toNat }
        (airohaPpeDropPacketHandler x e)) ↔
      (e.pktType = .bridge → e.get 4 = dropIb2 ∧ psePort (e.get 11) = psePort dropIb2) := by
  have htype : e.putBind.pktType = e.pktType :=
    pktType_of_field (field_putBind e (Or.inl (by decide)))
  have hget : ∀ k : Fin 20, k ≠ 0 → (airohaPpeDropPacketHandler x e).get k =
      if (l4sView e.pktType).ib2 = k then dropIb2 else e.get k := by
    intro k hk
    rw [airohaPpeDropPacketHandler, if_pos hx, get_stampCommit hk, get_dropFill (htype ▸ hc), htype,
      get_putBind hk]
  have hfield : ∀ s n, 15 ≤ s → s + n ≤ 28 ∨ 30 ≤ s →
      fieldGet s n (airohaPpeDropPacketHandler x e).ib1 = fieldGet s n e.ib1 := by
    intro s n hs hn
    have h0 : (dropFill e.putBind).ib1 = e.putBind.ib1 := by
      refine (get_dropFill (htype ▸ hc) 0).trans (if_neg ?_)
      cases l4sView e.putBind.pktType <;> decide
    rw [airohaPpeDropPacketHandler, if_pos hx, field_stampCommit x.ts 0 _ hs hn, h0,
      field_putBind e hn]
  obtain ⟨-, -, h0, h10⟩ := view_ne_tags (l4sView e.pktType)
  apply agrees_view_iff
  · exact hfield 25 3 (by decide) (by decide)
  · exact hfield 30 1 (by decide) (by decide)
  · rw [hget _ h0, if_pos rfl]
  · intro hb
    rw [hget 11 (by decide), hb]
    rfl
  · intro k h1 hlast hk
    rw [hget k (key_ne_zero h1), if_neg hk.symm]
  · rw [hget 10 (by decide), if_neg h10]
    rfl

/-- Binding and cleaning agree exactly where `EgressGuarded` says. -/
theorem bindsAgree_iff (p : EgressPath) (e : FoeEntry) : BindsAgree p e ↔ EgressGuarded p e := by
  by_cases hc : Covered e.pktType
  · have hone : ∀ {e' : FoeEntry} (w0 : Egress),
        (∀ w, some w0 = some w → FoundBy w e') ↔ FoundBy w0 e' := by
      intro e' w0
      simp
    unfold BindsAgree EgressGuarded
    rw [imp_iff_right hc]
    cases p with
    | generalBind x => simpa [EgressPath.run] using agrees_generalBind x hc
    | flowUpdatePonOffload x =>
      by_cases hb : e.pktType = .bridge
      · cases htx : x.txModified with
        | true =>
          simp [EgressPath.run, EgressPath.wrote, airohaPpeFoeFlowUpdatePonOffload, htx,
            SameKey.refl]
        | false => simpa [EgressPath.run, hb, htx] using agrees_ponOffload_bridge_iff x htx hb
      · simpa [EgressPath.run, hb] using agrees_ponOffload x hc hb
    | multicastHwnat data val stagDp ts =>
      rw [← agrees_multicast_iff data val stagDp ts hc]
      exact and_congr_right fun _ => hone _
    | dropPacket x =>
      cases hx : x.passes with
      | false =>
        simp [EgressPath.run, EgressPath.wrote, airohaPpeDropPacketHandler, hx, SameKey.refl]
      | true =>
        have h15 : (psePort dropIb2).toNat = 15 ∧ psePort dropIb2 = 15#32 := by decide
        have h := agrees_dropPacket_iff x hx hc
        rw [h15.1, h15.2, ← hone] at h
        simpa [EgressPath.run, EgressPath.wrote, hx] using h
  · have hb : e.pktType ≠ .bridge := by
      intro h
      rw [h] at hc
      exact hc (by decide)
    simp [BindsAgree, EgressGuarded, hc, hb]

end Paths

/-! ## A bridged flow that is dropped -/

/-- A bridged flow, unbound, between two stations. -/
def bridgedFlow : FoeEntry :=
  ((((FoeEntry.put (Vector.replicate 20 0#32) 0 0x14000000#32).put 1 0x02000000#32).put 2
    0x00010000#32).put 4 0x02000000#32).put 5 0x00020000#32

theorem not_bindsAgree_bridgedFlow :
    ¬ BindsAgree (.dropPacket { ponSfuMode := true
                                validFoeEntry := true
                                gotEntry := true
                                multicast := false
                                transparentMode := false
                                ts := 7#32 }) bridgedFlow := by
  intro h
  have hkey := (h (by decide)).1.tuple 4 (by decide) (by decide)
  revert hkey
  decide

end Airoha.Ppe
