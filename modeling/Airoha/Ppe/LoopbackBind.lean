/-
Airoha.Ppe.LoopbackBind — a flow bound for the loopback.

Translates `airoha_ppe_hwnat_loopback_bind` and the helpers of `arht_loopback.c`,
with `airoha_ppe_foe_get_vlan_info` and `airoha_ppe_foe_get_vlan_vpm`. The frame
is what is in memory at `skb->data`. The entry is edited in `ppe->foe`, where the
read puts it, and the commit at the end moves it to the engine.

`LoopbackBinds` says that an error leaves all as it was and that a bound entry
says what the frame and the caller say, `loopbackBinds_iff` when.

Whether the loopback and the MAC swap are on is told by arguments. Locks and
messages are left out.
-/
import Airoha.Ppe.EgressWords

namespace Airoha.Ppe

open Airoha.Lib

/-! ## The frame -/

/-- The bytes at `skb->data`, and `skb_headlen(skb)`. -/
structure Frame where
  data : Nat → BitVec 8
  headlen : Nat

namespace Frame

variable (f : Frame)

/-- `ntohs(*(u16 *)(skb->data + off))` -/
def be16 (off : Nat) : BitVec 16 := f.data off ++ f.data (off + 1)

/-- Six bytes. -/
def mac (off : Nat) : Mac := Vector.ofFn fun i => f.data (off + i)

/-- `skb_swap_mac_addr` -/
def swapMacAddr : Frame :=
  { f with data := fun i =>
      if i < 6 then f.data (i + 6) else if i < 12 then f.data (i - 6) else f.data i }

end Frame

/-- `airoha_ppe_is_vlan_proto` -/
def airohaPpeIsVlanProto (etype : BitVec 16) : Bool :=
  etype = 0x8100#16 || etype = 0x88a8#16 || etype = 0x9100#16 || etype = 0x884c#16

/-- `MAX_VLAN_DEPTH` -/
def maxVlanDepth : Nat := 5

/-- The tags from `ptr` on, `n` at most. -/
def vlanTags (f : Frame) : Nat → Nat → List (BitVec 16)
  | 0, _ => []
  | n + 1, ptr =>
      if f.headlen < ptr + 4 then []
      else if airohaPpeIsVlanProto (f.be16 ptr) then f.be16 (ptr + 2) :: vlanTags f n (ptr + 4)
      else []

/-- `vn`, `vid1` and `vid2` of `airoha_ppe_foe_get_vlan_info`, none for `-EINVAL`. -/
def airohaPpeFoeGetVlanInfo (sramNum hash extVlanCount : Nat) (f : Frame) :
    Option (BitVec 16 × BitVec 16 × BitVec 16) :=
  if sramNum ≤ hash then some (0#16, 0#16, 0#16)
  else
    let tags := vlanTags f maxVlanDepth 12
    if maxVlanDepth ≤ tags.length ∨ maxVlanDepth ≤ extVlanCount then none
    else some (BitVec.ofNat 16 tags.length, tags.getD 0 0#16, tags.getD 1 0#16)

/-- `airoha_ppe_foe_get_vlan_vpm` -/
def airohaPpeFoeGetVlanVpm (f : Frame) : BitVec 16 :=
  if airohaPpeIsVlanProto (f.be16 12) then if f.be16 12 = 0x88a8#16 then 2#16 else 1#16 else 0#16

/-- `airoha_loopback_get_pppoe_sid` -/
def airohaLoopbackGetPppoeSid (f : Frame) (vlanNum : Nat) : BitVec 16 :=
  if f.be16 (12 + vlanNum * 4) = 0x8864#16 then f.be16 (14 + vlanNum * 4 + 2) else 0#16

/-! ## The entry -/

/-- What the function is called with and finds in the device and the engine. -/
structure LoopbackArgs where
  hwnatLoopbackEnable : Bool
  hwnatLoopbackMacSwap : Bool
  hw : PpeHw
  /-- `FOE_ENTRY_NUM(skb)` -/
  hash : Nat
  l4Hash : Bool
  swHash : Bool
  /-- `skb->sk` is not `NULL`. -/
  sk : Bool
  /-- `foe_ext[hash].vlan_count` -/
  extVlanCount : Nat
  tos : BitVec 8
  pinfo : PortInfo
  crsn : BitVec 32
  fport : BitVec 8
  lanFastpath : Bool
  wanFastpath : Bool
  xsiEtherFastpath : Bool
  /-- `REG_FE_FOE_TS` -/
  feFoeTs : BitVec 32
  /-- The address of `skb->dev`. -/
  dev : Option Mac
  ctx : FindCtx
  /-- The time of the commit, and whether the engine takes the entry. -/
  commitTs : BitVec 32
  commits : Bool

namespace LoopbackArgs

variable (x : LoopbackArgs)

/-- `is_Valid_Foe_Entry` -/
def isValidFoeEntry : Bool := x.hash < x.hw.sramNum && x.l4Hash && !x.swHash && !x.sk

/-- `airoha_ppe_loopback_get_timestamp` -/
def getTimestamp : BitVec 32 := fieldGet 0 15 ((x.feFoeTs.setWidth 16).setWidth 32)

/-- `airoha_loopback_is_bound_or_not_ready`, with `PPE_CPU_REASON_HIT_UNBIND_RATE_REACHED`. -/
def isBoundOrNotReady (hwe : FoeEntry) : Bool := hwe.state = .bind || x.crsn != 0x0f#32

/-- `airoha_loopback_prepare_ib1` -/
def prepareIb1 (ib1 : BitVec 32) (vn vpm pppoe : BitVec 16) : BitVec 32 :=
  (ib1 &&& ~~~(mask 32 16 4 ||| mask 32 20 2 ||| mask 32 22 1 ||| mask 32 0 15 |||
    mask 32 28 2)) |||
    fieldPrep 16 4 (vn.setWidth 32) ||| fieldPrep 20 2 (vpm.setWidth 32) |||
    fieldPrep 22 1 (if pppoe ≠ 0#16 then 1#32 else 0#32) ||| fieldPrep 0 15 x.getTimestamp |||
    fieldPrep 28 2 2#32

/-- `airoha_loopback_prepare_data` -/
def prepareData : BitVec 32 :=
  fieldPrep 24 8 (x.pinfo.udf.setWidth 32) ||| fieldPrep 11 5 (x.pinfo.channel.setWidth 32) |||
    fieldPrep 8 3 x.pinfo.qid ||| fieldPrep 16 8 0x7f#32

/-- `fast` -/
def fast : Bool :=
  x.pinfo.fast ||
    match x.fport.toNat with
    | 1 => x.lanFastpath
    | 2 => x.wanFastpath
    | 3 | 9 => x.xsiEtherFastpath
    | _ => false

/-- `airoha_loopback_prepare_ib2` -/
def prepareIb2 : BitVec 32 :=
  let ib2 := fieldPrep 0 5 (x.pinfo.nbq.setWidth 32) ||| fieldPrep 5 4 (x.fport.setWidth 32) |||
    bit 32 9
  if x.fast then ib2 ||| bit 32 10 else ib2

end LoopbackArgs

/-- `meter |= meter_grp2` -/
def orMeterGrp2 (e : FoeEntry) : FoeEntry := e.putMeter (e.meter ||| fieldPrep 0 5 0x1f#16)

/-- `airoha_loopback_configure_entry`, with the `l2` it returns. -/
def airohaLoopbackConfigureEntry (hwe : FoeEntry) (type : PktType) (data ib2 : BitVec 32)
    (dscp : BitVec 8) : FoeEntry × Option L2 :=
  match type with
  | .ipv4Hnapt | .ipv4Route =>
      let hwe :=
        if type = .ipv4Hnapt then
          let hwe := hwe.put 7 (putHi16 (hwe.get 7) hwe.origSrcPort)
          hwe.put 7 (putLo16 (hwe.get 7) hwe.origDestPort)
        else hwe
      let hwe := (hwe.putData data).putIb2 .ipv4 (ib2 ||| fieldPrep 24 8 (dscp.setWidth 32))
      let hwe := (hwe.put 5 hwe.origSrcIp).put 6 hwe.origDestIp
      (orMeterGrp2 hwe, some .ipv4)
  | .bridge => (orMeterGrp2 ((hwe.putData data).putIb2 .ipv6 ib2), some .ipv6)
  | .ipv6Route3t | .ipv6Route5t =>
      (orMeterGrp2 ((hwe.putData data).putIb2 .ipv6 (ib2 ||| fieldPrep 24 8 (dscp.setWidth 32))),
        some .ipv6)
  | .ipv4Dslite | .reserved | .ipv66rd => (hwe, none)

/-- What the function may change: the frame, the entry and the shrink table. -/
structure LoopbackState where
  frame : Frame
  cell : FoeCell
  shrink : Shrink

/-- `airoha_ppe_hwnat_loopback_bind` -/
def airohaPpeHwnatLoopbackBind (x : LoopbackArgs) (s : LoopbackState) : Int × LoopbackState :=
  if !x.hwnatLoopbackEnable || !x.isValidFoeEntry then (-22, s)
  else
    match airohaPpeFoeGetEntry x.hw x.hash s.cell with
    | none => (-2, s)
    | some c =>
        let s := { s with cell := c }
        let hwe := c.foe
        if x.isBoundOrNotReady hwe then
          (0, if x.hwnatLoopbackMacSwap then { s with frame := s.frame.swapMacAddr } else s)
        else
          match airohaPpeFoeGetVlanInfo x.hw.sramNum x.hash x.extVlanCount s.frame with
          | none => (-22, s)
          | some (vn, vid1, vid2) =>
              let vpm := airohaPpeFoeGetVlanVpm s.frame
              let pppid := airohaLoopbackGetPppoeSid s.frame vn.toNat
              let type := hwe.pktType
              let hwe := airohaSetDefaultAcntMeterIdx hwe type
              let ib1 := x.prepareIb1 hwe.ib1 vn vpm pppid
              let r := airohaLoopbackConfigureEntry hwe type x.prepareData x.prepareIb2
                (getDscpFromSkb x.tos type)
              match r.2 with
              | none => (-22, { s with cell := { c with foe := r.1 } })
              | some l2 =>
                  let hwe := putTags r.1 l2 x.pinfo.stag vid1 vid2
                  let frame :=
                    if x.hwnatLoopbackMacSwap && type != .bridge then s.frame.swapMacAddr
                    else s.frame
                  let m := airohaSetPpeMac x.ctx (if x.hwnatLoopbackMacSwap then none else x.dev)
                    (frame.mac 6) (frame.mac 0) pppid hwe s.shrink
                  let hwe := m.2.1.putIb1 ib1
                  let cell :=
                    if x.hash < x.hw.sramNum then
                      let hwe := stampCommit x.commitTs x.hash hwe
                      { foe := hwe, sram := if x.commits then hwe else c.sram }
                    else { c with foe := hwe }
                  (0, { frame := frame, cell := cell, shrink := m.2.2 })

/-! ## What is meant -/

/-- Whether the addresses of the frame are swapped for a type. -/
def LoopbackArgs.swaps (x : LoopbackArgs) (type : PktType) : Bool :=
  x.hwnatLoopbackMacSwap && type != .bridge

/-- The source the engine sends the frames of an entry with, which arrive with `own`: the one in the
entry, or that of the slot an IPv6 entry names, where "keep" is `own`. -/
def sentSource (tbl : Table) (own : Mac) (e : FoeEntry) : Option Mac :=
  let l2 := l2Of e.pktType
  if e.pktType.code ≤ PktType.ipv4Dslite.code then
    some (Mac.of (e.srcMacHi l2) (hi16 (e.get (l2.at 4))))
  else
    let index := getPpeEntrySmacIndex e .ipv6Route5t
    if index = 0x10 then some own
    else if index < updmemNum then some (tbl .smac index).content
    else none

/-- The entry says what the frame `f` and the caller say. -/
structure LoopbackDecodes (x : LoopbackArgs) (f : Frame) (tbl : Table) (e : FoeEntry) : Prop where
  dest : Mac.of (e.destMacHi (l2Of e.pktType)) (e.destMacLo (l2Of e.pktType)) =
    if x.swaps e.pktType then f.mac 6 else f.mac 0
  source : sentSource tbl (f.mac 6) e = some (if x.swaps e.pktType then f.mac 0 else f.mac 6)
  vlan1 : lo16 (e.get ((l2Of e.pktType).at 0)) = (vlanTags f maxVlanDepth 12).getD 0 0#16
  vlan2 : lo16 (e.get ((l2Of e.pktType).at 2)) = (vlanTags f maxVlanDepth 12).getD 1 0#16
  layers : (fieldGet 16 4 e.ib1).toNat = (vlanTags f maxVlanDepth 12).length
  pppoe : (if fieldGet 22 1 e.ib1 = 1#32 then pppoeIdOf e (l2Of e.pktType) else 0#16) =
    airohaLoopbackGetPppoeSid f (vlanTags f maxVlanDepth 12).length
  stag : e.etype (l2Of e.pktType) = x.pinfo.stag
  channel : dataChannel e.data = x.pinfo.channel.setWidth 32
  nbq : fieldGet 0 5 (e.ib2 (l2Of e.pktType)) = x.pinfo.nbq.setWidth 32
  port : psePort (e.ib2 (l2Of e.pktType)) = x.fport.setWidth 32
  addresses : e.pktType = .ipv4Hnapt ∨ e.pktType = .ipv4Route →
    e.newSrcIp = e.origSrcIp ∧ e.newDestIp = e.origDestIp
  ports : e.pktType = .ipv4Hnapt →
    e.newSrcPort = e.origSrcPort ∧ e.newDestPort = e.origDestPort

/-- The entry as the function finds it: `ppe->foe` has what the engine has once it was read. -/
def LoopbackArgs.found (x : LoopbackArgs) (s : LoopbackState) : FoeCell :=
  if x.hwnatLoopbackEnable && x.isValidFoeEntry then
    (airohaPpeFoeGetEntry x.hw x.hash s.cell).getD s.cell
  else s.cell

/-- An error leaves the frame and the entry as they were found, and an entry that is bound now
decodes. -/
structure LoopbackBinds (x : LoopbackArgs) (s : LoopbackState) : Prop where
  failed : (airohaPpeHwnatLoopbackBind x s).1 ≠ 0 →
    (airohaPpeHwnatLoopbackBind x s).2.frame = s.frame ∧
      (airohaPpeHwnatLoopbackBind x s).2.cell = x.found s
  bound : (airohaPpeHwnatLoopbackBind x s).1 = 0 → (s.cell.entry x.hw x.hash).state ≠ .bind →
    (airohaPpeHwnatLoopbackBind x s).2.cell.foe.state = .bind →
    LoopbackDecodes x s.frame (airohaPpeHwnatLoopbackBind x s).2.shrink.shnkTbl
      (airohaPpeHwnatLoopbackBind x s).2.cell.foe

/-- The tags of a frame whose entry is written. -/
def LoopbackArgs.passes (x : LoopbackArgs) (s : LoopbackState) :
    Option (BitVec 16 × BitVec 16 × BitVec 16) :=
  if !x.hwnatLoopbackEnable || !x.isValidFoeEntry || !x.hw.acks x.hash then none
  else if x.isBoundOrNotReady (s.cell.entry x.hw x.hash) then none
  else airohaPpeFoeGetVlanInfo x.hw.sramNum x.hash x.extVlanCount s.frame

/-- The source address the entry is to have. -/
def LoopbackArgs.source (x : LoopbackArgs) (f : Frame) (type : PktType) : Mac :=
  if x.swaps type then f.mac 0 else f.mac 6

/-- The source can be named: it is kept as it should be, or it has a slot before the last, or it is
the frame's own and the entry says "keep" in the end. -/
def NamesSource (x : LoopbackArgs) (s : LoopbackState) (e : FoeEntry) : Prop :=
  let src := x.source s.frame e.pktType
  Keeps (if x.hwnatLoopbackMacSwap then none else x.dev) src ∨
    (∃ k < 15, slotFor x.ctx src s.shrink = some k) ∨
    (src = s.frame.mac 6 ∧ (slotFor x.ctx src s.shrink = some 15 ∨
      (slotFor x.ctx src s.shrink = none ∧ getPpeEntrySmacIndex e .ipv6Route5t = 0x10)))

/-- A type that is refused has the default meters already; another has a port of four bits, an IPv6
one a source that can be named and no PPPoE bits that are not in the id. -/
def LoopbackGuarded (x : LoopbackArgs) (s : LoopbackState) : Prop :=
  let e := s.cell.entry x.hw x.hash
  let pppid := airohaLoopbackGetPppoeSid s.frame (vlanTags s.frame maxVlanDepth 12).length
  x.passes s ≠ none →
    match e.pktType with
    | .ipv4Dslite | .reserved | .ipv66rd => airohaSetDefaultAcntMeterIdx e e.pktType = e
    | .ipv4Hnapt | .ipv4Route | .bridge => x.fport.toNat < 16
    | .ipv6Route3t | .ipv6Route5t =>
        x.fport.toNat < 16 ∧ NamesSource x s e ∧
          (pppid ≠ 0#16 → lo16 (e.srcMacHi .ipv6) ||| pppid = pppid)

/-! ## The words -/

section Words

variable {e : FoeEntry} {type : PktType} {data ib2 : BitVec 32} {dscp : BitVec 8}

theorem get_orMeterGrp2 {k : Fin 20} (h16 : k ≠ 16) : (orMeterGrp2 e).get k = e.get k := by
  simp [orMeterGrp2, FoeEntry.putMeter, FoeEntry.get_put, h16.symm]

/-- The `switch`, of a type it has a case for. -/
theorem configure_words (e : FoeEntry) (data ib2 : BitVec 32) (dscp : BitVec 8)
    (hc : Covered type) :
    (airohaLoopbackConfigureEntry e type data ib2 dscp).2 = some (l2Of type) ∧
      (airohaLoopbackConfigureEntry e type data ib2 dscp).1.get 10 = data ∧
      ∀ s n, s + n ≤ 24 →
        fieldGet s n ((airohaLoopbackConfigureEntry e type data ib2 dscp).1.get (l2Of type).ib2) =
          fieldGet s n ib2 := by
  rcases hc with rfl | rfl | rfl | rfl | rfl
  all_goals
    refine ⟨rfl, ?_, ?_⟩
    · simp [airohaLoopbackConfigureEntry, get_orMeterGrp2, FoeEntry.putData, FoeEntry.putIb2,
        FoeEntry.get_put, L2.ib2]
    · intro s n hn
      have hdscp : ∀ v : BitVec 32, fieldGet s n (fieldPrep 24 8 v) = 0#32 :=
        fieldGet_fieldPrep_of_disjoint (Or.inl hn)
      simp [airohaLoopbackConfigureEntry, get_orMeterGrp2, FoeEntry.putData, FoeEntry.putIb2,
        FoeEntry.get_put, L2.ib2, l2Of, PktType.code, hdscp]

/-- What it leaves alone. -/
theorem configure_other (e : FoeEntry) (data ib2 : BitVec 32) (dscp : BitVec 8) (type : PktType)
    {k : Fin 20} (hk : k.val < 4 ∨ 12 ≤ k.val) (h16 : k ≠ 16) :
    (airohaLoopbackConfigureEntry e type data ib2 dscp).1.get k = e.get k := by
  have hne : 4 ≠ k ∧ 5 ≠ k ∧ 6 ≠ k ∧ 7 ≠ k ∧ 10 ≠ k ∧ 11 ≠ k := by
    revert hk
    revert k
    decide
  cases type <;>
    simp [airohaLoopbackConfigureEntry, get_orMeterGrp2, FoeEntry.putData, FoeEntry.putIb2,
      FoeEntry.get_put, L2.ib2, hne, h16]

/-- The new tuple. -/
theorem configure_tuple (e : FoeEntry) (data ib2 : BitVec 32) (dscp : BitVec 8)
    (ht : type = .ipv4Hnapt ∨ type = .ipv4Route) :
    (airohaLoopbackConfigureEntry e type data ib2 dscp).1.get 5 = e.get 1 ∧
      (airohaLoopbackConfigureEntry e type data ib2 dscp).1.get 6 = e.get 2 ∧
      (type = .ipv4Hnapt →
        (airohaLoopbackConfigureEntry e type data ib2 dscp).1.get 7 = e.get 3) := by
  have hsrc : ∀ e : FoeEntry, e.origSrcIp = e.get 1 := fun _ => rfl
  have hdest : ∀ e : FoeEntry, e.origDestIp = e.get 2 := fun _ => rfl
  have hports : ∀ e : FoeEntry, e.origSrcPort = hi16 (e.get 3) ∧ e.origDestPort = lo16 (e.get 3) :=
    fun _ => ⟨rfl, rfl⟩
  rcases ht with rfl | rfl
  · refine ⟨?_, ?_, fun _ => ?_⟩
    · simp [airohaLoopbackConfigureEntry, get_orMeterGrp2, FoeEntry.putData, FoeEntry.putIb2,
        FoeEntry.get_put, L2.ib2, hsrc]
    · simp [airohaLoopbackConfigureEntry, get_orMeterGrp2, FoeEntry.putData, FoeEntry.putIb2,
        FoeEntry.get_put, L2.ib2, hdest]
    · have hword := hi16_append_lo16 (e.get 3)
      simp [airohaLoopbackConfigureEntry, get_orMeterGrp2, FoeEntry.putData, FoeEntry.putIb2,
        FoeEntry.get_put, L2.ib2, hports, putLo16, hword]
  · refine ⟨?_, ?_, fun hnapt => ?_⟩
    · simp [airohaLoopbackConfigureEntry, get_orMeterGrp2, FoeEntry.putData, FoeEntry.putIb2,
        FoeEntry.get_put, L2.ib2, hsrc]
    · simp [airohaLoopbackConfigureEntry, get_orMeterGrp2, FoeEntry.putData, FoeEntry.putIb2,
        FoeEntry.get_put, L2.ib2, hdest]
    · cases hnapt

end Words

/-! ## The frame and the tags -/

section FrameFacts

variable (f : Frame)

theorem mac_swapMacAddr : f.swapMacAddr.mac 6 = f.mac 0 ∧ f.swapMacAddr.mac 0 = f.mac 6 := by
  constructor
  · apply Vector.ext
    intro i hi
    have hlow : ¬ 6 + i < 6 := by omega
    have hmid : 6 + i < 12 := by omega
    have hsub : 6 + i - 6 = 0 + i := by omega
    simp only [Frame.mac, Frame.swapMacAddr, Vector.getElem_ofFn, hlow, hmid, if_true,
      if_false, hsub]
  · apply Vector.ext
    intro i hi
    have hadd : 0 + i + 6 = 6 + i := by omega
    have hlow : 0 + i < 6 := by omega
    simp only [Frame.mac, Frame.swapMacAddr, Vector.getElem_ofFn, hlow, if_true, hadd]

/-- The tags of a frame that is not refused. -/
theorem getVlanInfo_eq {sramNum hash ext : Nat} {vn vid1 vid2 : BitVec 16} (hs : hash < sramNum)
    (h : airohaPpeFoeGetVlanInfo sramNum hash ext f = some (vn, vid1, vid2)) :
    vn.toNat = (vlanTags f maxVlanDepth 12).length ∧ vn.toNat < 5 ∧
      vid1 = (vlanTags f maxVlanDepth 12).getD 0 0#16 ∧
      vid2 = (vlanTags f maxVlanDepth 12).getD 1 0#16 := by
  unfold airohaPpeFoeGetVlanInfo at h
  rw [if_neg (Nat.not_le.mpr hs)] at h
  simp only at h
  split_ifs at h with hmany
  · rw [not_or] at hmany
    have hlt : (vlanTags f maxVlanDepth 12).length < 5 := Nat.not_le.mp hmany.1
    simp only [Option.some.injEq, Prod.mk.injEq] at h
    obtain ⟨rfl, rfl, rfl⟩ := h
    have hnat : (BitVec.ofNat 16 (vlanTags f maxVlanDepth 12).length).toNat =
        (vlanTags f maxVlanDepth 12).length := by
      rw [BitVec.toNat_ofNat]
      omega
    exact ⟨hnat, by omega, rfl, rfl⟩

end FrameFacts

/-! ## The call -/

section Call

variable (x : LoopbackArgs) (s : LoopbackState)

/-- The entry before the addresses. -/
def LoopbackArgs.filled (e : FoeEntry) (vid1 vid2 : BitVec 16) : FoeEntry :=
  putTags (airohaLoopbackConfigureEntry (airohaSetDefaultAcntMeterIdx e e.pktType) e.pktType
    x.prepareData x.prepareIb2 (getDscpFromSkb x.tos e.pktType)).1
      (l2Of e.pktType) x.pinfo.stag vid1
    vid2

/-- What `airoha_set_ppe_mac` makes of it. -/
def LoopbackArgs.addressed (e : FoeEntry) (pppid vid1 vid2 : BitVec 16) : Int × FoeEntry × Shrink :=
  airohaSetPpeMac x.ctx (if x.hwnatLoopbackMacSwap then none else x.dev)
    (x.source s.frame e.pktType)
    (if x.swaps e.pktType then s.frame.mac 6 else s.frame.mac 0)
    pppid (x.filled e vid1 vid2) s.shrink

/-- The entry that is committed. -/
def LoopbackArgs.committed (e : FoeEntry) (vn vid1 vid2 : BitVec 16) : FoeEntry :=
  let pppid := airohaLoopbackGetPppoeSid s.frame vn.toNat
  stampCommit x.commitTs x.hash ((x.addressed s e pppid vid1 vid2).2.1.putIb1
    (x.prepareIb1 e.ib1 vn (airohaPpeFoeGetVlanVpm s.frame) pppid))

variable {x s}

theorem isValid_lt (h : x.isValidFoeEntry = true) : x.hash < x.hw.sramNum := by
  unfold LoopbackArgs.isValidFoeEntry at h
  simp only [Bool.and_eq_true, decide_eq_true_eq] at h
  exact h.1.1.1

/-- What is known of a frame whose entry is written. -/
theorem passes_eq_some {tags : BitVec 16 × BitVec 16 × BitVec 16} (h : x.passes s = some tags) :
    x.hwnatLoopbackEnable = true ∧ x.isValidFoeEntry = true ∧ x.hw.acks x.hash = true ∧
      x.isBoundOrNotReady s.cell.sram = false ∧
      airohaPpeFoeGetVlanInfo x.hw.sramNum x.hash x.extVlanCount s.frame = some tags := by
  unfold LoopbackArgs.passes at h
  split_ifs at h with h1 h2
  · simp only [Bool.or_eq_true, Bool.not_eq_true', not_or, Bool.not_eq_false] at h1
    obtain ⟨⟨he, hv⟩, ha⟩ := h1
    rw [FoeCell.entry, if_pos (isValid_lt hv), Bool.not_eq_true] at h2
    exact ⟨he, hv, ha, h2, h⟩

/-- A frame whose entry is not written. -/
theorem bind_of_not_passes (h : x.passes s = none) :
    ((airohaPpeHwnatLoopbackBind x s).1 = 0 →
      (airohaPpeHwnatLoopbackBind x s).2.cell.foe = s.cell.entry x.hw x.hash) ∧
    ((airohaPpeHwnatLoopbackBind x s).1 ≠ 0 →
      (airohaPpeHwnatLoopbackBind x s).2.frame = s.frame ∧
        (airohaPpeHwnatLoopbackBind x s).2.cell = x.found s) := by
  unfold airohaPpeHwnatLoopbackBind LoopbackArgs.found
  by_cases hstart : (!x.hwnatLoopbackEnable || !x.isValidFoeEntry) = true
  · have hoff : (x.hwnatLoopbackEnable && x.isValidFoeEntry) = false := by
      rw [← Bool.not_eq_true', Bool.not_and]
      exact hstart
    rw [if_pos hstart, hoff]
    exact ⟨fun hret => absurd hret (Int.negSucc_ne_zero 21), fun _ => ⟨rfl, rfl⟩⟩
  · rw [if_neg hstart]
    have hon := hstart
    simp only [Bool.or_eq_true, Bool.not_eq_true', not_or, Bool.not_eq_false] at hon
    have hs := isValid_lt hon.2
    have hentry : s.cell.entry x.hw x.hash = s.cell.sram := if_pos hs
    simp only [hon.1, hon.2, Bool.and_self, if_true]
    cases ha : x.hw.acks x.hash with
    | false =>
      have hget : airohaPpeFoeGetEntry x.hw x.hash s.cell = none := by
        simp [airohaPpeFoeGetEntry, hs, ha]
      rw [hget]
      exact ⟨fun hret => absurd hret (Int.negSucc_ne_zero 1), fun _ => ⟨rfl, rfl⟩⟩
    | true =>
      have hget : airohaPpeFoeGetEntry x.hw x.hash s.cell =
          some { foe := s.cell.sram, sram := s.cell.sram } := by
        simp [airohaPpeFoeGetEntry, hs, ha]
      rw [hget, hentry]
      simp only
      by_cases hb : x.isBoundOrNotReady s.cell.sram = true
      · rw [if_pos hb]
        refine ⟨fun _ => ?_, fun hret => absurd rfl hret⟩
        split_ifs <;> rfl
      · rw [if_neg hb]
        have hvlan : airohaPpeFoeGetVlanInfo x.hw.sramNum x.hash x.extVlanCount s.frame = none := by
          simpa [LoopbackArgs.passes, hon.1, hon.2, ha, hentry, hb] using h
        rw [hvlan]
        exact ⟨fun hret => absurd hret (Int.negSucc_ne_zero 21), fun _ => ⟨rfl, rfl⟩⟩

variable {vn vid1 vid2 : BitVec 16}

/-- A type that is refused. -/
theorem bind_of_refused (h : x.passes s = some (vn, vid1, vid2))
    (hc : ¬ Covered s.cell.sram.pktType) :
    airohaPpeHwnatLoopbackBind x s = (-22, { s with
      cell := { foe := airohaSetDefaultAcntMeterIdx s.cell.sram s.cell.sram.pktType
                sram := s.cell.sram } }) := by
  obtain ⟨he, hv, ha, hb, hvlan⟩ := passes_eq_some h
  have hs := isValid_lt hv
  have hget : airohaPpeFoeGetEntry x.hw x.hash s.cell =
      some { foe := s.cell.sram, sram := s.cell.sram } := by
    simp [airohaPpeFoeGetEntry, hs, ha]
  have hconf : airohaLoopbackConfigureEntry
      (airohaSetDefaultAcntMeterIdx s.cell.sram s.cell.sram.pktType) s.cell.sram.pktType
        x.prepareData
      x.prepareIb2 (getDscpFromSkb x.tos s.cell.sram.pktType) =
      (airohaSetDefaultAcntMeterIdx s.cell.sram s.cell.sram.pktType, none) := by
    generalize s.cell.sram.pktType = type at hc
    cases type <;> first | rfl | exact absurd (by decide) hc
  unfold airohaPpeHwnatLoopbackBind
  simp [he, hv, hget, hb, hvlan, hconf]

/-- A type that is bound. -/
theorem bind_of_covered (h : x.passes s = some (vn, vid1, vid2))
    (hc : Covered s.cell.sram.pktType) :
    airohaPpeHwnatLoopbackBind x s = (0,
      { frame := if x.swaps s.cell.sram.pktType then s.frame.swapMacAddr else s.frame
        cell :=
          { foe := x.committed s s.cell.sram vn vid1 vid2
            sram := if x.commits then x.committed s s.cell.sram vn vid1 vid2 else s.cell.sram }
        shrink := (x.addressed s s.cell.sram (airohaLoopbackGetPppoeSid s.frame vn.toNat) vid1
          vid2).2.2 }) := by
  obtain ⟨he, hv, ha, hb, hvlan⟩ := passes_eq_some h
  have hs := isValid_lt hv
  have hget : airohaPpeFoeGetEntry x.hw x.hash s.cell =
      some { foe := s.cell.sram, sram := s.cell.sram } := by
    simp [airohaPpeFoeGetEntry, hs, ha]
  obtain ⟨hl2, -, -⟩ :=
    configure_words (airohaSetDefaultAcntMeterIdx s.cell.sram s.cell.sram.pktType)
    x.prepareData x.prepareIb2 (getDscpFromSkb x.tos s.cell.sram.pktType) hc
  have hib1 :
      (airohaSetDefaultAcntMeterIdx s.cell.sram s.cell.sram.pktType).ib1 = s.cell.sram.ib1 :=
    get_setDefault (k := 0) (by decide) (by cases l2Of s.cell.sram.pktType <;> decide)
  obtain ⟨hsrc, hdst⟩ := mac_swapMacAddr s.frame
  have hswap : (x.hwnatLoopbackMacSwap && s.cell.sram.pktType != .bridge) =
      x.swaps s.cell.sram.pktType := rfl
  unfold airohaPpeHwnatLoopbackBind LoopbackArgs.committed LoopbackArgs.addressed
    LoopbackArgs.filled
    LoopbackArgs.source
  simp only [he, hv, hget, hb, hvlan, hl2, hs, hib1, hswap, Bool.not_true, Bool.or_self,
    Bool.false_eq_true, if_false, if_true]
  cases x.swaps s.cell.sram.pktType with
  | false => rfl
  | true => simp only [if_true, hsrc, hdst]

end Call

/-! ## The entry that is committed -/

section Committed

variable (x : LoopbackArgs) (s : LoopbackState) {e : FoeEntry} (vn vid1 vid2 pppid : BitVec 16)

theorem get_filled {k : Fin 20} (h0 : k ≠ (l2Of e.pktType).at 0) (h2 : k ≠ (l2Of e.pktType).at 2) :
    (x.filled e vid1 vid2).get k =
      (airohaLoopbackConfigureEntry
        (airohaSetDefaultAcntMeterIdx e e.pktType) e.pktType x.prepareData
        x.prepareIb2 (getDscpFromSkb x.tos e.pktType)).1.get k :=
  get_putTags _ _ _ h0 h2

theorem tags_filled : (x.filled e vid1 vid2).get ((l2Of e.pktType).at 0) = x.pinfo.stag ++ vid1 ∧
    lo16 ((x.filled e vid1 vid2).get ((l2Of e.pktType).at 2)) = vid2 := by
  have h : (l2Of e.pktType).at 2 ≠ (l2Of e.pktType).at 0 := by
    rw [Ne, L2.at_inj]
    decide
  unfold LoopbackArgs.filled putTags FoeEntry.putEtype FoeEntry.putVlan1 FoeEntry.putVlan2
  simp [FoeEntry.get_put, h, h.symm, putLo16]

/-- The words that no step of the filling writes. -/
theorem get_filled_kept {k : Fin 20} (h0 : k ≠ (l2Of e.pktType).at 0)
    (h2 : k ≠ (l2Of e.pktType).at 2) (hk : k.val < 4 ∨ 12 ≤ k.val) (h16 : k ≠ 16) :
    (x.filled e vid1 vid2).get k = e.get k := by
  have hview : k ≠ (l2Of e.pktType).ib2 := by
    intro h
    rw [h] at hk
    revert hk
    cases l2Of e.pktType <;> decide
  rw [get_filled x vid1 vid2 h0 h2, configure_other _ _ _ _ _ hk h16, get_setDefault h16 hview]

theorem pktType_filled : (x.filled e vid1 vid2).pktType = e.pktType := by
  apply pktType_congr
  refine get_filled_kept x vid1 vid2 ?_ ?_ (Or.inl (by decide)) (by decide) <;>
    cases l2Of e.pktType <;> decide

theorem setMacL2_of_covered {type : PktType} (hc : Covered type) :
    setMacL2 type = some (l2Of type) := by
  rcases hc with rfl | rfl | rfl | rfl | rfl <;> rfl

theorem l2Of_of_ipv6 {type : PktType} (ht : ¬ type.code ≤ PktType.ipv4Dslite.code) :
    l2Of type = .ipv6 := by
  revert ht
  cases type <;> decide

/-- What the addresses leave of the words, of a type that has its source in the entry. -/
theorem get_addressed_ipv4 (hc : Covered e.pktType) (ht : e.pktType.code ≤ PktType.ipv4Dslite.code)
    (k : Fin 20) : (x.addressed s e pppid vid1 vid2).2.1.get k =
      if k = (l2Of e.pktType).at 3 then (x.source s.frame e.pktType).hi
      else if k = (l2Of e.pktType).at 4 then (x.source s.frame e.pktType).lo ++
        if pppid = 0#16 then lo16 ((x.filled e vid1 vid2).get ((l2Of e.pktType).at 4)) else pppid
      else if k = (l2Of e.pktType).at 1 then
        (if x.swaps e.pktType then s.frame.mac 6 else s.frame.mac 0).hi
      else if k = (l2Of e.pktType).at 2 then
        (if x.swaps e.pktType then s.frame.mac 6 else s.frame.mac 0).lo ++
          lo16 ((x.filled e vid1 vid2).get ((l2Of e.pktType).at 2))
      else (x.filled e vid1 vid2).get k := by
  have htype := pktType_filled x vid1 vid2 (e := e)
  exact get_setPpeMac_ipv4 _ _ _ _ _ _ (by rw [htype]; exact setMacL2_of_covered hc)
    (by rw [htype]; exact ht) k

/-- The same, of an IPv6 type. -/
theorem get_addressed_ipv6 (hc : Covered e.pktType)
    (ht : ¬ e.pktType.code ≤ PktType.ipv4Dslite.code) (k : Fin 20) :
    (x.addressed s e pppid vid1 vid2).2.1.get k =
      if k = 15 then srcWord (numberFor x.ctx (if x.hwnatLoopbackMacSwap then none else x.dev)
        (x.source s.frame e.pktType) s.shrink) pppid (e.get 15)
      else if k = 13 then (if x.swaps e.pktType then s.frame.mac 6 else s.frame.mac 0).hi
      else if k = 14 then (if x.swaps e.pktType then s.frame.mac 6 else s.frame.mac 0).lo ++
        lo16 ((x.filled e vid1 vid2).get 14)
      else (x.filled e vid1 vid2).get k := by
  have htype := pktType_filled x vid1 vid2 (e := e)
  have hl2 := l2Of_of_ipv6 ht
  have hsrc : (x.filled e vid1 vid2).srcMacHi .ipv6 = e.get 15 := by
    refine get_filled_kept x vid1 vid2 ?_ ?_ (Or.inr (by decide)) (by decide) <;>
      rw [hl2] <;> decide
  rw [← hsrc]
  exact get_setPpeMac_ipv6 _ _ _ _ _ _ (by rw [htype, setMacL2_of_covered hc, hl2])
    (by rw [htype]; exact ht) k

/-- The words before the MAC information. -/
theorem get_addressed_low {k : Fin 20} (hk : k.val < 12) (h0 : k ≠ (l2Of e.pktType).at 0) :
    (x.addressed s e pppid vid1 vid2).2.1.get k =
      (airohaLoopbackConfigureEntry
        (airohaSetDefaultAcntMeterIdx e e.pktType) e.pktType x.prepareData
        x.prepareIb2 (getDscpFromSkb x.tos e.pktType)).1.get k :=
  get_tagsMac { ctx := x.ctx, dev := if x.hwnatLoopbackMacSwap then none else x.dev
                srcMac := x.source s.frame e.pktType
                dstMac := if x.swaps e.pktType then s.frame.mac 6 else s.frame.mac 0
                shrink := s.shrink } pppid _ _ _ _ hk h0

/-- The tags and the destination stand in every view. -/
theorem addressed_tags (hc : Covered e.pktType) :
    (x.addressed s e pppid vid1 vid2).2.1.get ((l2Of e.pktType).at 0) = x.pinfo.stag ++ vid1 ∧
      (x.addressed s e pppid vid1 vid2).2.1.get ((l2Of e.pktType).at 1) =
        (if x.swaps e.pktType then s.frame.mac 6 else s.frame.mac 0).hi ∧
      (x.addressed s e pppid vid1 vid2).2.1.get ((l2Of e.pktType).at 2) =
        (if x.swaps e.pktType then s.frame.mac 6 else s.frame.mac 0).lo ++ vid2 := by
  obtain ⟨h0, h2⟩ := tags_filled x vid1 vid2 (e := e)
  by_cases ht : e.pktType.code ≤ PktType.ipv4Dslite.code
  · have hne : ∀ j k : Fin 8, j ≠ k → (l2Of e.pktType).at j ≠ (l2Of e.pktType).at k :=
      fun j k h => mt L2.at_inj.mp h
    simp [get_addressed_ipv4 x s vid1 vid2 pppid hc ht, hne, h0, h2]
  · have hl2 := l2Of_of_ipv6 ht
    rw [hl2] at h0 h2 ⊢
    have h12 : L2.at .ipv6 0 = 12 := rfl
    have h13 : L2.at .ipv6 1 = 13 := rfl
    have h14 : L2.at .ipv6 2 = 14 := rfl
    rw [h12] at h0
    rw [h14] at h2
    rw [h12, h13, h14]
    simp [get_addressed_ipv6 x s vid1 vid2 pppid hc ht, h0, h2]

/-- The committed entry beside `ib1`. -/
theorem get_committed {k : Fin 20} (hk : k ≠ 0) : (x.committed s e vn vid1 vid2).get k =
    (x.addressed s e (airohaLoopbackGetPppoeSid s.frame vn.toNat) vid1 vid2).2.1.get k := by
  unfold LoopbackArgs.committed FoeEntry.putIb1
  rw [get_stampCommit hk, FoeEntry.get_put, if_neg hk.symm]

theorem ib1_committed {s' n : Nat} (hs : 15 ≤ s') (hn : s' + n ≤ 28 ∨ 30 ≤ s') :
    fieldGet s' n (x.committed s e vn vid1 vid2).ib1 =
      fieldGet s' n (x.prepareIb1 e.ib1 vn (airohaPpeFoeGetVlanVpm s.frame)
        (airohaLoopbackGetPppoeSid s.frame vn.toNat)) := by
  unfold LoopbackArgs.committed FoeEntry.putIb1
  rw [field_stampCommit _ _ _ hs hn, FoeEntry.ib1_put_zero]

theorem pktType_committed : (x.committed s e vn vid1 vid2).pktType = e.pktType := by
  apply pktType_of_field
  rw [ib1_committed x s vn vid1 vid2 (by decide) (by decide)]
  unfold LoopbackArgs.prepareIb1
  simp (disch := decide) [BitVec.not_or, ← BitVec.and_assoc, fieldGet_clear_of_disjoint,
    fieldGet_fieldPrep_of_disjoint]

theorem state_committed : (x.committed s e vn vid1 vid2).state = .bind := by
  have htwo : 2#32 &&& mask 32 0 2 = 2#32 := by decide
  have hmask : ∀ y : BitVec 32, fieldGet 28 2 (y &&& ~~~mask 32 28 2) = 0#32 :=
    fun y => fieldGet_clear_self 28 2 y
  have hput : ∀ E : FoeEntry, (E.putIb1 (x.prepareIb1 e.ib1 vn (airohaPpeFoeGetVlanVpm s.frame)
      (airohaLoopbackGetPppoeSid s.frame vn.toNat))).state = .bind := by
    intro E
    rw [FoeEntry.state, FoeEntry.putIb1, FoeEntry.ib1_put_zero]
    unfold LoopbackArgs.prepareIb1
    simp (disch := decide) [BitVec.not_or, ← BitVec.and_assoc, hmask,
      fieldGet_fieldPrep_of_disjoint, fieldGet_fieldPrep_self, htwo, FoeState.ofCode]
  unfold LoopbackArgs.committed
  have hne : ∀ E : FoeEntry, (E.putIb1 (x.prepareIb1 e.ib1 vn (airohaPpeFoeGetVlanVpm s.frame)
      (airohaLoopbackGetPppoeSid s.frame vn.toNat))).state ≠ .unbind := by
    intro E
    rw [hput]
    decide
  rw [state_stampCommit _ _ (hne _), hput]

theorem layers_committed (hvn : vn.toNat < 5) :
    (fieldGet 16 4 (x.committed s e vn vid1 vid2).ib1).toNat = vn.toNat := by
  have hfit : vn.toNat < 2 ^ 4 := by omega
  have hset : vn.setWidth 32 = BitVec.ofNat 32 vn.toNat := (BitVec.ofNat_toNat 32 vn).symm
  have hcut : vn.setWidth 32 &&& mask 32 0 4 = BitVec.ofNat 32 vn.toNat := by
    rw [hset, ofNat_and_mask hfit]
  rw [ib1_committed x s vn vid1 vid2 (by decide) (by decide)]
  unfold LoopbackArgs.prepareIb1
  simp (disch := decide) only [fieldGet_or, fieldGet_fieldPrep_of_disjoint,
    fieldGet_fieldPrep_self, BitVec.or_zero, hcut, BitVec.not_or]
  have hclear : fieldGet 16 4
    (e.ib1 &&& (~~~mask 32 16 4 &&& ~~~mask 32 20 2 &&& ~~~mask 32 22 1 &&&
      ~~~mask 32 0 15 &&& ~~~mask 32 28 2)) = 0#32 := by
    simp (disch := decide) only [← BitVec.and_assoc, fieldGet_clear_of_disjoint,
      fieldGet_clear_self]
  rw [hclear, BitVec.zero_or, BitVec.toNat_ofNat]
  omega

theorem pppoeBit_committed :
    fieldGet 22 1 (x.committed s e vn vid1 vid2).ib1 =
      if airohaLoopbackGetPppoeSid s.frame vn.toNat ≠ 0#16 then 1#32 else 0#32 := by
  rw [ib1_committed x s vn vid1 vid2 (by decide) (by decide)]
  unfold LoopbackArgs.prepareIb1
  have hclear : fieldGet 22 1
    (e.ib1 &&& (~~~mask 32 16 4 &&& ~~~mask 32 20 2 &&& ~~~mask 32 22 1 &&&
      ~~~mask 32 0 15 &&& ~~~mask 32 28 2)) = 0#32 := by
    simp (disch := decide) only [← BitVec.and_assoc, fieldGet_clear_of_disjoint,
      fieldGet_clear_self]
  simp (disch := decide) only [fieldGet_or, fieldGet_fieldPrep_of_disjoint,
    fieldGet_fieldPrep_self, BitVec.or_zero, BitVec.not_or, hclear, BitVec.zero_or]
  split_ifs <;> decide

/-- The port, NBQ and channel. -/
theorem ports_committed (hc : Covered e.pktType) :
    dataChannel (x.committed s e vn vid1 vid2).data = x.pinfo.channel.setWidth 32 ∧
      fieldGet 0 5 ((x.committed s e vn vid1 vid2).ib2 (l2Of e.pktType)) =
        x.pinfo.nbq.setWidth 32 ∧
      psePort ((x.committed s e vn vid1 vid2).ib2 (l2Of e.pktType)) =
        x.fport.setWidth 32 &&& mask 32 0 4 := by
  obtain ⟨-, hdata, hib2⟩ :=
    configure_words (airohaSetDefaultAcntMeterIdx e e.pktType) x.prepareData
    x.prepareIb2 (getDscpFromSkb x.tos e.pktType) hc
  obtain ⟨htag, hlt, h0, -⟩ := view_ne_tags (l2Of e.pktType)
  have hcut : ∀ v : BitVec 5, v.setWidth 32 &&& mask 32 0 5 = v.setWidth 32 := by decide
  have hten : (x.committed s e vn vid1 vid2).data = x.prepareData := by
    show (x.committed s e vn vid1 vid2).get 10 = _
    rw [get_committed x s vn vid1 vid2 (by decide),
      get_addressed_low x s vid1 vid2 _ (by decide) (data_ne_tags _), hdata]
  have hview : ∀ s' n, s' + n ≤ 24 →
      fieldGet s' n ((x.committed s e vn vid1 vid2).ib2 (l2Of e.pktType)) =
        fieldGet s' n x.prepareIb2 := by
    intro s' n hn
    rw [FoeEntry.ib2, get_committed x s vn vid1 vid2 h0, get_addressed_low x s vid1 vid2 _ hlt htag,
      hib2 s' n hn]
  have hbits : ∀ s' n, s' + n ≤ 9 → fieldGet s' n (bit 32 9) = 0#32 ∧
      fieldGet s' n (bit 32 10) = 0#32 := by
    intro s' n hn
    constructor <;>
    · apply BitVec.eq_of_getLsbD_eq
      intro i _
      rw [getLsbD_fieldGet, getLsbD_bit, BitVec.getLsbD_zero]
      by_cases hi : i < n
      · have h9 : s' + i ≠ 9 := by omega
        have h10 : s' + i ≠ 10 := by omega
        simp [h9, h10]
      · simp [hi]
  refine ⟨?_, ?_, ?_⟩
  · rw [hten]
    simp (disch := decide) [dataChannel, LoopbackArgs.prepareData, fieldGet_fieldPrep_of_disjoint,
      fieldGet_fieldPrep_self, hcut]
  · obtain ⟨h9, h10⟩ := hbits 0 5 (by decide)
    rw [hview 0 5 (by decide)]
    unfold LoopbackArgs.prepareIb2
    split_ifs <;>
      simp (disch := decide) [fieldGet_fieldPrep_of_disjoint, fieldGet_fieldPrep_self,
        hcut, h9, h10]
  · obtain ⟨h9, h10⟩ := hbits 5 4 (by decide)
    rw [psePort, hview 5 4 (by decide)]
    unfold LoopbackArgs.prepareIb2
    split_ifs <;>
      simp (disch := decide) [fieldGet_fieldPrep_of_disjoint, fieldGet_fieldPrep_self, h9, h10]

theorem tuple_committed (ht : e.pktType = .ipv4Hnapt ∨ e.pktType = .ipv4Route) :
    (x.committed s e vn vid1 vid2).newSrcIp = (x.committed s e vn vid1 vid2).origSrcIp ∧
      (x.committed s e vn vid1 vid2).newDestIp = (x.committed s e vn vid1 vid2).origDestIp ∧
      (e.pktType = .ipv4Hnapt →
        (x.committed s e vn vid1 vid2).newSrcPort = (x.committed s e vn vid1 vid2).origSrcPort ∧
          (x.committed s e vn vid1 vid2).newDestPort =
            (x.committed s e vn vid1 vid2).origDestPort) := by
  obtain ⟨h5, h6, h7⟩ := configure_tuple (airohaSetDefaultAcntMeterIdx e e.pktType) x.prepareData
    x.prepareIb2 (getDscpFromSkb x.tos e.pktType) ht
  have hl2 : l2Of e.pktType = .ipv4 := by
    rcases ht with h | h <;> rw [h] <;> rfl
  have hlow : ∀ k : Fin 20, k ≠ 0 → k.val < 8 → (x.committed s e vn vid1 vid2).get k =
      (airohaLoopbackConfigureEntry (airohaSetDefaultAcntMeterIdx e e.pktType) e.pktType
        x.prepareData x.prepareIb2 (getDscpFromSkb x.tos e.pktType)).1.get k := by
    intro k hk hlt
    rw [get_committed x s vn vid1 vid2 hk]
    refine get_addressed_low x s vid1 vid2 _ (by omega) ?_
    rw [hl2]
    intro h
    rw [h] at hlt
    exact absurd hlt (by decide)
  have hold : ∀ k : Fin 20, k ≠ 0 → k.val < 4 → (x.committed s e vn vid1 vid2).get k =
      (airohaSetDefaultAcntMeterIdx e e.pktType).get k := by
    intro k hk hlt
    rw [hlow k hk (by omega), configure_other _ _ _ _ _ (Or.inl hlt) (by
      intro h
      rw [h] at hlt
      exact absurd hlt (by decide))]
  have h1 := hold 1 (by decide) (by decide)
  have h2 := hold 2 (by decide) (by decide)
  have h3 := hold 3 (by decide) (by decide)
  have h5' := (hlow 5 (by decide) (by decide)).trans h5
  have h6' := (hlow 6 (by decide) (by decide)).trans h6
  refine ⟨h5'.trans h1.symm, h6'.trans h2.symm, fun hn => ?_⟩
  have h7' := ((hlow 7 (by decide) (by decide)).trans (h7 hn)).trans h3.symm
  exact ⟨congrArg hi16 h7', congrArg lo16 h7'⟩

variable {x s vn vid1 vid2 pppid}

/-- The source of a type that has it in the entry. -/
theorem sentSource_ipv4 (tbl : Table) (hc : Covered e.pktType)
    (ht : e.pktType.code ≤ PktType.ipv4Dslite.code) :
    sentSource tbl (s.frame.mac 6) (x.committed s e vn vid1 vid2) =
      some (x.source s.frame e.pktType) := by
  have h0 : ∀ k : Fin 8, (l2Of e.pktType).at k ≠ 0 := by
    intro k
    cases l2Of e.pktType <;> revert k <;> decide
  have h43 : (l2Of e.pktType).at 4 ≠ (l2Of e.pktType).at 3 := by
    rw [Ne, L2.at_inj]
    decide
  unfold sentSource
  simp only [pktType_committed, ht, if_true, FoeEntry.srcMacHi]
  rw [get_committed x s vn vid1 vid2 (h0 3), get_committed x s vn vid1 vid2 (h0 4),
    get_addressed_ipv4 x s vid1 vid2 _ hc ht, get_addressed_ipv4 x s vid1 vid2 _ hc ht, if_pos rfl,
    if_neg h43, if_pos rfl, hi16_append, Mac.of_hi_lo]

theorem smacIndex_congr {e e' : FoeEntry} (h : e'.srcMacHi .ipv6 = e.srcMacHi .ipv6) :
    getPpeEntrySmacIndex e' .ipv6Route5t = getPpeEntrySmacIndex e .ipv6Route5t := by
  rw [getPpeEntrySmacIndex_eq, getPpeEntrySmacIndex_eq, h]

/-- The number the entry of an IPv6 type has in the end. -/
theorem smacIndex_committed (hc : Covered e.pktType)
    (ht : ¬ e.pktType.code ≤ PktType.ipv4Dslite.code) :
    getPpeEntrySmacIndex (x.committed s e vn vid1 vid2) .ipv6Route5t =
      if Keeps (if x.hwnatLoopbackMacSwap then none else x.dev) (x.source s.frame e.pktType) then 16
      else
        match slotFor x.ctx (x.source s.frame e.pktType) s.shrink with
        | some k => if k = 15 then 16 else k
        | none => getPpeEntrySmacIndex e .ipv6Route5t := by
  have htype := pktType_filled x vid1 vid2 (e := e)
  have hl2 := l2Of_of_ipv6 ht
  have hkept : (x.filled e vid1 vid2).get 15 = e.get 15 := by
    refine get_filled_kept x vid1 vid2 ?_ ?_ (Or.inr (by decide)) (by decide) <;>
      rw [hl2] <;> decide
  have hword : (x.committed s e vn vid1 vid2).srcMacHi .ipv6 = (x.addressed s e
      (airohaLoopbackGetPppoeSid s.frame vn.toNat) vid1 vid2).2.1.srcMacHi .ipv6 :=
    get_committed x s vn vid1 vid2 (by decide)
  have hold : (x.filled e vid1 vid2).srcMacHi .ipv6 = e.srcMacHi .ipv6 := hkept
  rw [smacIndex_congr hword, ← smacIndex_congr hold]
  exact smacIndex_setPpeMac x.ctx (if x.hwnatLoopbackMacSwap then none else x.dev)
    (x.source s.frame e.pktType) (if x.swaps e.pktType then s.frame.mac 6 else s.frame.mac 0)
    (airohaLoopbackGetPppoeSid s.frame vn.toNat) s.shrink (e := x.filled e vid1 vid2)
    (by rw [htype, setMacL2_of_covered hc, hl2]) (by rw [htype]; exact ht)

/-- The source of an IPv6 type, which is right when it can be named. -/
theorem sentSource_ipv6_iff (hc : Covered e.pktType)
    (ht : ¬ e.pktType.code ≤ PktType.ipv4Dslite.code) :
    sentSource (x.addressed s e (airohaLoopbackGetPppoeSid s.frame vn.toNat) vid1 vid2).2.2.shnkTbl
        (s.frame.mac 6) (x.committed s e vn vid1 vid2) = some (x.source s.frame e.pktType) ↔
      NamesSource x s e := by
  have htype := pktType_filled x vid1 vid2 (e := e)
  have hl2 := l2Of_of_ipv6 ht
  unfold sentSource NamesSource
  simp only [pktType_committed, ht, if_false, smacIndex_committed hc ht]
  by_cases hk : Keeps (if x.hwnatLoopbackMacSwap then none else x.dev) (x.source s.frame e.pktType)
  · -- a device is only given when nothing is swapped
    have hown : s.frame.mac 6 = x.source s.frame e.pktType := by
      obtain ⟨dev, hdev, -⟩ := hk
      have hno : x.hwnatLoopbackMacSwap = false := by
        by_contra h
        rw [if_pos (by simpa using h)] at hdev
        cases hdev
      simp [LoopbackArgs.source, LoopbackArgs.swaps, hno]
    simp [hk, hown]
  · have htbl := shrink_setPpeMac x.ctx (if x.hwnatLoopbackMacSwap then none else x.dev)
      (x.source s.frame e.pktType) (if x.swaps e.pktType then s.frame.mac 6 else s.frame.mac 0)
      (airohaLoopbackGetPppoeSid s.frame vn.toNat) s.shrink (e := x.filled e vid1 vid2)
      (by rw [htype, setMacL2_of_covered hc, hl2]) (by rw [htype]; exact ht) hk
    simp only [hk, if_false, false_or, LoopbackArgs.addressed, htbl]
    cases hslot : slotFor x.ctx (x.source s.frame e.pktType) s.shrink with
    | none =>
      by_cases hkeep : getPpeEntrySmacIndex e .ipv6Route5t = 0x10
      · simp [hkeep, eq_comm]
      · by_cases hlt : getPpeEntrySmacIndex e .ipv6Route5t < updmemNum
        · have hno := content_ne_of_no_slot x.ctx (x.source s.frame e.pktType) s.shrink hslot hlt
          simp [hkeep, hlt, hno]
        · simp [hkeep, hlt]
    | some m =>
      have h16 : m < updmemNum := slotFor_lt hslot
      by_cases h15 : m = 15
      · simp [h15, eq_comm]
      · have hcontent : ((findSmac x.ctx (x.source s.frame e.pktType) s.shrink).1.shnkTbl .smac
            m).content = x.source s.frame e.pktType :=
          find_content_self ((findSmac_index x.ctx _ s.shrink).trans hslot)
        have hne : m ≠ 16 := Nat.ne_of_lt h16
        have hlt : m < 15 := by
          have h : m < 16 := h16
          omega
        simp [h15, hne, h16, hcontent, hlt]

/-- The id of a type that has it in the entry. -/
theorem pppoe_ipv4 (hc : Covered e.pktType) (ht : e.pktType.code ≤ PktType.ipv4Dslite.code) :
    (if fieldGet 22 1 (x.committed s e vn vid1 vid2).ib1 = 1#32 then
      pppoeIdOf (x.committed s e vn vid1 vid2) (l2Of e.pktType) else 0#16) =
      airohaLoopbackGetPppoeSid s.frame vn.toNat := by
  rw [pppoeBit_committed]
  by_cases hp : airohaLoopbackGetPppoeSid s.frame vn.toNat = 0#16
  · simp [hp]
  · have h0 : (l2Of e.pktType).at 4 ≠ 0 := by
      cases l2Of e.pktType <;> decide
    have h43 : (l2Of e.pktType).at 4 ≠ (l2Of e.pktType).at 3 := by
      rw [Ne, L2.at_inj]
      decide
    have hid : pppoeIdOf (x.committed s e vn vid1 vid2) (l2Of e.pktType) =
        airohaLoopbackGetPppoeSid s.frame vn.toNat := by
      rw [pppoeIdOf, pktType_committed, if_pos ht, get_committed x s vn vid1 vid2 h0,
        get_addressed_ipv4 x s vid1 vid2 _ hc ht, if_neg h43, if_pos rfl, lo16_append, if_neg hp]
    simp [hp, hid]

/-- The id of an IPv6 type is put over what is there. -/
theorem pppoe_ipv6_iff (hc : Covered e.pktType)
    (ht : ¬ e.pktType.code ≤ PktType.ipv4Dslite.code) :
    (if fieldGet 22 1 (x.committed s e vn vid1 vid2).ib1 = 1#32 then
      pppoeIdOf (x.committed s e vn vid1 vid2) (l2Of e.pktType) else 0#16) =
      airohaLoopbackGetPppoeSid s.frame vn.toNat ↔
    (airohaLoopbackGetPppoeSid s.frame vn.toNat ≠ 0#16 →
      lo16 (e.srcMacHi .ipv6) ||| airohaLoopbackGetPppoeSid s.frame vn.toNat =
        airohaLoopbackGetPppoeSid s.frame vn.toNat) := by
  rw [pppoeBit_committed]
  by_cases hp : airohaLoopbackGetPppoeSid s.frame vn.toNat = 0#16
  · simp [hp]
  · have hl2 := l2Of_of_ipv6 ht
    have hid : pppoeIdOf (x.committed s e vn vid1 vid2) (l2Of e.pktType) =
        lo16 (e.srcMacHi .ipv6) ||| airohaLoopbackGetPppoeSid s.frame vn.toNat := by
      have hword : (x.committed s e vn vid1 vid2).srcMacHi .ipv6 = _ :=
        (get_committed x s vn vid1 vid2 (k := 15) (by decide)).trans
          (get_addressed_ipv6 x s vid1 vid2 _ hc ht 15)
      rw [pppoeIdOf, pktType_committed, if_neg ht, hl2, hword, if_pos rfl, lo16_srcWord]
      rfl
    simp [hp, hid]

/-- What a committed entry says. -/
theorem decodes_iff (hc : Covered e.pktType)
    (hvn : vn.toNat = (vlanTags s.frame maxVlanDepth 12).length) (hlt : vn.toNat < 5)
    (hvid1 : vid1 = (vlanTags s.frame maxVlanDepth 12).getD 0 0#16)
    (hvid2 : vid2 = (vlanTags s.frame maxVlanDepth 12).getD 1 0#16) :
    LoopbackDecodes x s.frame
        (x.addressed s e (airohaLoopbackGetPppoeSid s.frame vn.toNat) vid1 vid2).2.2.shnkTbl
        (x.committed s e vn vid1 vid2) ↔
      x.fport.toNat < 16 ∧ (¬ e.pktType.code ≤ PktType.ipv4Dslite.code → NamesSource x s e ∧
        (airohaLoopbackGetPppoeSid s.frame vn.toNat ≠ 0#16 →
          lo16 (e.srcMacHi .ipv6) ||| airohaLoopbackGetPppoeSid s.frame vn.toNat =
            airohaLoopbackGetPppoeSid s.frame vn.toNat)) := by
  obtain ⟨hchannel, hnbq, hport⟩ := ports_committed x s vn vid1 vid2 hc
  have hport_iff : x.fport.setWidth 32 &&& mask 32 0 4 = x.fport.setWidth 32 ↔
      x.fport.toNat < 16 := by
    rw [BitVec.toNat_eq, toNat_and_mask (by decide), BitVec.toNat_setWidth]
    have h8 := x.fport.isLt
    omega
  constructor
  · intro h
    refine ⟨?_, fun ht => ⟨?_, ?_⟩⟩
    · have hp := h.port
      rw [pktType_committed, hport] at hp
      exact hport_iff.mp hp
    · have hsrc := h.source
      rw [pktType_committed] at hsrc
      exact (sentSource_ipv6_iff hc ht).mp hsrc
    · have hp := h.pppoe
      rw [pktType_committed, ← hvn] at hp
      exact (pppoe_ipv6_iff hc ht).mp hp
  · rintro ⟨hfport, hipv6⟩
    have h0 : ∀ k : Fin 8, (l2Of e.pktType).at k ≠ 0 := by
      intro k
      cases l2Of e.pktType <;> revert k <;> decide
    obtain ⟨htags, hhi, hlo⟩ := addressed_tags x s vid1 vid2
      (airohaLoopbackGetPppoeSid s.frame vn.toNat) hc
    rw [← get_committed x s vn vid1 vid2 (h0 _)] at htags hhi hlo
    constructor <;> try simp only [pktType_committed]
    case dest =>
      rw [FoeEntry.destMacHi, FoeEntry.destMacLo, hhi, hlo, hi16_append, Mac.of_hi_lo]
    case source =>
      by_cases ht : e.pktType.code ≤ PktType.ipv4Dslite.code
      · exact sentSource_ipv4 _ hc ht
      · exact (sentSource_ipv6_iff hc ht).mpr (hipv6 ht).1
    case vlan1 => rw [htags, lo16_append, hvid1]
    case vlan2 => rw [hlo, lo16_append, hvid2]
    case layers => rw [layers_committed x s vn vid1 vid2 hlt, hvn]
    case pppoe =>
      rw [← hvn]
      by_cases ht : e.pktType.code ≤ PktType.ipv4Dslite.code
      · exact pppoe_ipv4 hc ht
      · exact (pppoe_ipv6_iff hc ht).mpr (hipv6 ht).2
    case stag => rw [FoeEntry.etype, htags, hi16_append]
    case channel => exact hchannel
    case nbq => exact hnbq
    case port => rw [hport, hport_iff.mpr hfport]
    case addresses =>
      intro ht
      exact ⟨(tuple_committed x s vn vid1 vid2 ht).1, (tuple_committed x s vn vid1 vid2 ht).2.1⟩
    case ports =>
      intro ht
      exact (tuple_committed x s vn vid1 vid2 (Or.inl ht)).2.2 ht

end Committed

/-! ## The law -/

/-- The loopback binds a flow as it should, or leaves everything alone, exactly where
`LoopbackGuarded` says. -/
theorem loopbackBinds_iff (x : LoopbackArgs) (s : LoopbackState) :
    LoopbackBinds x s ↔ LoopbackGuarded x s := by
  cases hp : x.passes s with
  | none =>
    have hguard : LoopbackGuarded x s := fun h => absurd hp h
    obtain ⟨hfoe, hfailed⟩ := bind_of_not_passes hp
    refine iff_of_true ⟨hfailed, fun hret hold hbind => ?_⟩ hguard
    rw [hfoe hret] at hbind
    exact absurd hbind hold
  | some tags =>
    obtain ⟨vn, vid1, vid2⟩ := tags
    obtain ⟨henable, hv, hacks, hb, hvlan⟩ := passes_eq_some hp
    have hs := isValid_lt hv
    have hentry : s.cell.entry x.hw x.hash = s.cell.sram := if_pos hs
    obtain ⟨hvn, hlt, hvid1, hvid2⟩ := getVlanInfo_eq s.frame hs hvlan
    have hgo : x.passes s ≠ none := by
      rw [hp]
      exact Option.some_ne_none _
    have hstate : s.cell.sram.state ≠ .bind := by
      intro h
      simp [LoopbackArgs.isBoundOrNotReady, h] at hb
    by_cases hc : Covered s.cell.sram.pktType
    · have hret := bind_of_covered hp hc
      have hdecodes := decodes_iff (x := x) hc hvn hlt hvid1 hvid2
      have hbinds : LoopbackBinds x s ↔ LoopbackDecodes x s.frame (x.addressed s s.cell.sram
          (airohaLoopbackGetPppoeSid s.frame vn.toNat) vid1 vid2).2.2.shnkTbl
          (x.committed s s.cell.sram vn vid1 vid2) := by
        constructor
        · intro h
          have hbound := h.bound
          rw [hret, hentry] at hbound
          exact hbound rfl hstate (state_committed x s vn vid1 vid2)
        · intro h
          refine ⟨fun hne => ?_, fun _ _ _ => ?_⟩
          · rw [hret] at hne
            exact absurd rfl hne
          · rw [hret]
            exact h
      rw [hbinds, hdecodes, LoopbackGuarded, hentry, ← hvn]
      generalize s.cell.sram = e at hc
      rcases hc with ht | ht | ht | ht | ht <;> simp [ht, hgo, PktType.code]
    · have hret := bind_of_refused hp hc
      have hfound : x.found s = { foe := s.cell.sram, sram := s.cell.sram } := by
        simp [LoopbackArgs.found, henable, hv, airohaPpeFoeGetEntry, hs, hacks]
      have hbinds : LoopbackBinds x s ↔
          airohaSetDefaultAcntMeterIdx s.cell.sram s.cell.sram.pktType = s.cell.sram := by
        constructor
        · intro h
          have hfailed := h.failed
          rw [hret, hfound] at hfailed
          exact congrArg FoeCell.foe (hfailed (Int.negSucc_ne_zero 21)).2
        · intro h
          refine ⟨fun _ => ?_, fun hzero => ?_⟩
          · rw [hret, hfound, h]
            exact ⟨rfl, rfl⟩
          · rw [hret] at hzero
            exact absurd hzero (Int.negSucc_ne_zero 21)
      rw [hbinds, LoopbackGuarded, hentry]
      generalize s.cell.sram = e at hc
      cases ht : e.pktType with
      | ipv4Dslite | reserved | ipv66rd => simp [hgo]
      | ipv4Hnapt | ipv4Route | bridge | ipv6Route3t | ipv6Route5t =>
        rw [ht] at hc
        exact absurd (by decide) hc

/-! ## An IPv6 flow without a slot -/

/-- Every slot holds the address 02:00:00:00:00:63, and none may be taken. -/
def fullTable : Table := fun select k =>
  { emptyTable select k with
    valid := true
    pinned := true
    content :=
      match select with
      | .smac => #v[2#8, 0#8, 0#8, 0#8, 0#8, 0x63#8]
      | .ipv6 => Vector.replicate 8 0#32
      | .ipv4 => Vector.replicate 2 0#32 }

/-- A frame from 02:00:00:00:00:01 to 02:00:00:00:00:02. -/
def ipv6Frame : Frame where
  data := fun i => if i = 0 ∨ i = 6 then 2#8 else if i = 5 then 2#8 else if i = 11 then 1#8 else 0#8
  headlen := 60

/-- An unbound entry of the type 5T whose number is 3. -/
def ipv6Unbound : FoeEntry :=
  (FoeEntry.put (Vector.replicate 20 0#32) 0 0x1a000000#32).put 15 0x00030000#32

/-- The frame reaches the unbind rate, with the addresses to be swapped. -/
def ipv6Loopback : LoopbackArgs where
  hwnatLoopbackEnable := true
  hwnatLoopbackMacSwap := true
  hw :=
    { sramNum := 16384
      numEntries := 32768
      acks := fun _ => true
      writeAcks := fun _ => true
      npu := true }
  hash := 7
  l4Hash := true
  swHash := false
  sk := false
  extVlanCount := 0
  tos := 0#8
  pinfo := { channel := 0#5, nbq := 0#5, fast := false, txq := 0#4, stag := 0#16, udf := 0#8 }
  crsn := 0x0f#32
  fport := 1#8
  lanFastpath := false
  wanFastpath := false
  xsiEtherFastpath := false
  feFoeTs := 0#32
  dev := none
  ctx := { maxEntries := 16384, foe := fun _ => none, jiffies := 0#64 }
  commitTs := 0#32
  commits := true

theorem not_loopbackBinds_ipv6Unbound :
    ¬ LoopbackBinds ipv6Loopback
      { frame := ipv6Frame
        cell := { foe := ipv6Unbound, sram := ipv6Unbound }
        shrink :=
          { shnkTbl := fullTable, updmem := { data := 0#32, mem := fun _ _ _ => 0#32 } } } := by
  intro h
  have hsource := (h.bound (by decide) (by decide) (by decide)).source
  revert hsource
  decide

end Airoha.Ppe
