/-
Airoha.Ppe.Egress — where the egress port and channel of a flow are.

Translates the four functions that bind a flow or update it,
`airoha_ppe_general_bind`, `airoha_ppe_foe_flow_update_pon_offload`,
`arht_multicast_hwnat_state_handler_common` and
`airoha_ppe_drop_packet_handler`, and the three that clean by what is there.
The channel is in `data`, at byte 40 of every view; the port in `ib2`, at byte 16
in the views `ipv4`, `dslite` and `bridge` and at byte 44, behind the longer
keys, in `ipv6` and `bridge32`. The cleaning functions and the first of the four
take a bridged flow for a `bridge32`, the others for a `bridge`. What a function
reads off the packet is an argument here.

Left out: `ra_sw_nat_update_acnt_info_hook` and `fe_resource_mark_meter_hook`,
which belong to modules that are not here, and `arht_set_ppe_lanif`, which
notes the interface beside the table.
-/
import Airoha.Ppe.Clean
import Airoha.Ppe.CleanMac
import Airoha.Ppe.SetMac

namespace Airoha.Ppe

open Airoha.Lib

/-! ## The fields -/

/-- The word of `ib2` in the views whose MAC information begins there. -/
def L2.ib2 (view : L2) : Fin 20 :=
  match view with
  | .ipv4 => 4
  | .ipv6 => 11

namespace FoeEntry

/-- `ib2` -/
def ib2 (e : FoeEntry) (view : L2) : BitVec 32 := e.get view.ib2
def putIb2 (e : FoeEntry) (view : L2) (v : BitVec 32) : FoeEntry := e.put view.ib2 v

def putIb1 (e : FoeEntry) (v : BitVec 32) : FoeEntry := e.put 0 v
def putData (e : FoeEntry) (v : BitVec 32) : FoeEntry := e.put 10 v

/-- `meter`, the lower half of a word in every view, below `tunnel_mtu`. -/
def meter (e : FoeEntry) : BitVec 16 := lo16 (e.get 16)
def putMeter (e : FoeEntry) (v : BitVec 16) : FoeEntry := e.put 16 (putLo16 (e.get 16) v)

/-- `l2->etype` -/
def etype (e : FoeEntry) (l2 : L2) : BitVec 16 := hi16 (e.get (l2.at 0))

end FoeEntry

/-- `FIELD_GET(AIROHA_FOE_IB2_PSE_PORT, ib2)` -/
def psePort (ib2 : BitVec 32) : BitVec 32 := fieldGet 5 4 ib2

/-- `FIELD_GET(AIROHA_FOE_CHANNEL, data)` -/
def dataChannel (data : BitVec 32) : BitVec 32 := fieldGet 11 5 data

/-! ## What the functions share -/

/-- `struct port_info`, the fields that are read. -/
structure PortInfo where
  channel : BitVec 5
  nbq : BitVec 5
  fast : Bool
  txq : BitVec 4
  stag : BitVec 16
  udf : BitVec 8

/-- `(AIROHA_NUM_QOS_QUEUES - 1) - (txq % AIROHA_NUM_QOS_QUEUES)` -/
def PortInfo.qid (pinfo : PortInfo) : BitVec 32 := BitVec.ofNat 32 (7 - pinfo.txq.toNat % 8)

/-- `airoha_set_default_acnt_meter_idx` -/
def airohaSetDefaultAcntMeterIdx (e : FoeEntry) (type : PktType) : FoeEntry :=
  let view := l2Of type
  let e := e.putIb2 view ((e.ib2 view &&& ~~~mask 32 13 11) ||| fieldPrep 13 11 0x7ff#32)
  let e := e.putMeter ((e.meter &&& ~~~mask 16 9 7) ||| fieldPrep 9 7 0x7f#16)
  let e := e.putMeter ((e.meter &&& ~~~mask 16 5 4) ||| fieldPrep 5 4 0xf#16)
  e.putMeter ((e.meter &&& ~~~mask 16 0 5) ||| fieldPrep 0 5 0x1f#16)

/-- `set_ppe_foe_entry_meter_grp2` -/
def setPpeFoeEntryMeterGrp2 (e : FoeEntry) (meter1Idx : BitVec 32) : FoeEntry :=
  e.putMeter ((e.meter &&& ~~~mask 16 0 5) ||| fieldPrep 0 5 (meter1Idx.setWidth 16))

/-- `get_dscp_from_skb`, of a packet whose traffic class is `tos`. -/
def getDscpFromSkb (tos : BitVec 8) (type : PktType) : BitVec 8 :=
  match type with
  | .ipv4Route | .ipv4Hnapt | .ipv4Dslite => tos
  | .ipv6Route3t | .ipv6Route5t | .ipv66rd => tos
  | .bridge | .reserved => 0#8

/-- The view `arht_ppe_l4s_apply` takes. -/
def l4sView (type : PktType) : L2 :=
  if type = .bridge then .ipv4
  else if PktType.ipv6Route3t.code ≤ type.code then .ipv6
  else .ipv4

/-- Whether `arht_ppe_l4s_apply` returns true: it is switched on and the packet is marked ECT(1). -/
def l4sApplies (l4sFlag : Bool) (dscp : BitVec 8) : Bool :=
  l4sFlag && decide (dscp &&& 3#8 = 1#8)

/-- The bits of `ib2` that are kept in `tunnel_mtu`: NBQ, PSE_PORT, PSE_QOS and FAST_PATH. -/
def l4sBackup : BitVec 32 := mask 32 0 5 ||| mask 32 5 4 ||| mask 32 9 1 ||| mask 32 10 1

/-- `arht_ppe_l4s_apply` -/
def arhtPpeL4sApply (l4sFlag : Bool) (e : FoeEntry) (type : PktType) (dscp : BitVec 8) : FoeEntry :=
  let view := l4sView type
  if l4sApplies l4sFlag dscp then
    -- CHANNEL and QID are adjacent
    let e := e.putData ((e.data &&& ~~~mask 32 24 8) ||| fieldPrep 24 8 (fieldGet 8 8 e.data))
    let e := e.put 16 (e.get 16 ||| fieldPrep 16 16 (e.ib2 view &&& l4sBackup))
    let nbq : BitVec 32 := if psePort (e.ib2 view) = 1#32 then 2#32 else 1#32
    let e := e.putIb2 view (e.ib2 view &&& ~~~(mask 32 0 5 ||| mask 32 5 4 ||| mask 32 9 1))
    e.putIb2 view (e.ib2 view ||| (fieldPrep 5 4 6#32 ||| fieldPrep 0 5 nbq))
  else e

/-- `l2->etype`, `l2->vlan1` and `l2->vlan2`. -/
def putTags (e : FoeEntry) (l2 : L2) (stag vid1 vid2 : BitVec 16) : FoeEntry :=
  ((e.putEtype l2 stag).putVlan1 l2 vid1).putVlan2 l2 vid2

/-- What `airoha_set_ppe_mac` is given besides the entry. -/
structure MacArgs where
  ctx : FindCtx
  dev : Option Mac
  srcMac : Mac
  dstMac : Mac
  shrink : Shrink

/-- The entry behind `airoha_set_ppe_mac`. -/
def MacArgs.set (m : MacArgs) (pppid : BitVec 16) (e : FoeEntry) : FoeEntry :=
  (airohaSetPpeMac m.ctx m.dev m.srcMac m.dstMac pppid e m.shrink).2.1

/-! ## Binding and updating -/

/-- What `airoha_ppe_general_bind` finds in the packet, the device and the engine. -/
structure BindArgs where
  validFoeEntry : Bool
  unbindRateReached : Bool
  /-- `vn`, `vid1` and `vid2`, none when `airoha_ppe_foe_get_vlan_info` fails. -/
  vlanInfo : Option (BitVec 16 × BitVec 16 × BitVec 16)
  vpm : BitVec 16
  hashCollision : Bool
  tos : BitVec 8
  l4sFlag : Bool
  meter0Idx : BitVec 32
  meter1Idx : BitVec 32
  pinfo : PortInfo
  fport : BitVec 8
  rxWlan : Bool
  is7581 : Bool
  lanFastpath : Bool
  wanFastpath : Bool
  xsiEtherFastpath : Bool
  ts : BitVec 32
  mac : MacArgs
  /-- The time of the commit, none when `ppe_sram_etry_num` is not above the hash. -/
  commitTs : Option (BitVec 32)

/-- `fqos` -/
def BindArgs.fqos (x : BindArgs) : BitVec 32 := if x.fport = 7#8 then 0#32 else bit 32 9

/-- `fast` -/
def BindArgs.fast (x : BindArgs) : BitVec 32 :=
  match x.fport.toNat with
  | 1 => if x.lanFastpath || (x.is7581 && x.rxWlan) then bit 32 10 else 0#32
  | 2 => if x.wanFastpath || x.pinfo.fast then bit 32 10 else 0#32
  | 3 | 9 => if x.xsiEtherFastpath || x.pinfo.fast then bit 32 10 else 0#32
  | _ => 0#32

/-- `data` -/
def BindArgs.data (x : BindArgs) : BitVec 32 :=
  fieldPrep 24 8 (x.pinfo.udf.setWidth 32) ||| fieldPrep 11 5 (x.pinfo.channel.setWidth 32) |||
    fieldPrep 8 3 x.pinfo.qid ||| fieldPrep 16 8 x.meter0Idx

/-- `ib1` -/
def BindArgs.ib1 (x : BindArgs) (vn : BitVec 16) (ib1 : BitVec 32) : BitVec 32 :=
  (ib1 &&& ~~~(mask 32 16 4 ||| mask 32 20 2 ||| mask 32 22 1 ||| mask 32 0 15 |||
    mask 32 28 2)) |||
    (fieldPrep 16 4 (vn.setWidth 32) ||| fieldPrep 20 2 (x.vpm.setWidth 32) |||
      fieldPrep 0 15 x.ts ||| fieldPrep 28 2 2#32)

/-- `ib2`, with the DSCP of the types that have one. -/
def BindArgs.ib2 (x : BindArgs) (dscp : Option (BitVec 8)) : BitVec 32 :=
  let ib2 := fieldPrep 13 11 0x7ff#32
  let ib2 := ib2 ||| fieldPrep 0 5 (x.pinfo.nbq.setWidth 32)
  let ib2 :=
    match dscp with
    | some dscp => ib2 ||| fieldPrep 24 8 (dscp.setWidth 32)
    | none => ib2
  ib2 ||| (fieldPrep 5 4 (x.fport.setWidth 32) ||| x.fqos ||| x.fast)

/-- The `switch` of `airoha_ppe_general_bind`, with the `l2` it chooses. -/
def BindArgs.fill (x : BindArgs) (e : FoeEntry) (type : PktType) (dscp : BitVec 8) :
    FoeEntry × Option L2 :=
  match type with
  | .ipv4Hnapt | .ipv4Route =>
      let e := if type = .ipv4Hnapt then e.put 7 (e.get 3) else e
      let e := (e.putData x.data).putIb2 .ipv4 (x.ib2 (some dscp))
      let e := (e.put 5 e.origSrcIp).put 6 e.origDestIp
      (setPpeFoeEntryMeterGrp2 e x.meter1Idx, some .ipv4)
  | .bridge =>
      let e := (e.putData x.data).putIb2 .ipv6 (x.ib2 none)
      (setPpeFoeEntryMeterGrp2 e x.meter1Idx, some .ipv6)
  | .ipv6Route3t | .ipv6Route5t =>
      let e := (e.putData x.data).putIb2 .ipv6 (x.ib2 (some dscp))
      (setPpeFoeEntryMeterGrp2 e x.meter1Idx, some .ipv6)
  | .ipv4Dslite | .reserved | .ipv66rd => (e, none)

/-- The tags of `airoha_ppe_general_bind`, when the packet passes its checks. -/
def BindArgs.passes (x : BindArgs) (e : FoeEntry) : Option (BitVec 16 × BitVec 16 × BitVec 16) :=
  if e.state = .bind then none
  else if !x.validFoeEntry then none
  else if !x.unbindRateReached then none
  else if x.hashCollision then none
  else x.vlanInfo

/-- The commit at the end. -/
def BindArgs.commit (x : BindArgs) (e : FoeEntry) : FoeEntry :=
  match x.commitTs with
  | some ts => stampCommit ts 0 e
  | none => e

/-- `airoha_ppe_general_bind` -/
def airohaPpeGeneralBind (x : BindArgs) (e : FoeEntry) : FoeEntry :=
  match x.passes e with
  | none => e
  | some (vn, vid1, vid2) =>
      let type := e.pktType
      let ib1 := x.ib1 vn e.ib1
      let dscp := getDscpFromSkb x.tos type
      let (e, l2) := x.fill (airohaSetDefaultAcntMeterIdx e type) type dscp
      let e := arhtPpeL4sApply x.l4sFlag e type dscp
      let e :=
        match l2 with
        | some l2 => putTags e l2 x.pinfo.stag vid1 vid2
        | none => e
      let e := x.mac.set 0#16 e
      x.commit (e.putIb1 ib1)

/-- What `airoha_ppe_foe_flow_update_pon_offload` finds. -/
structure PonArgs where
  /-- `e->tx_modified` -/
  txModified : Bool
  vn : BitVec 16
  vid1 : BitVec 16
  vid2 : BitVec 16
  pppid : BitVec 16
  tos : BitVec 8
  l4sFlag : Bool
  meter0Idx : BitVec 32
  meter1Idx : BitVec 32
  pinfo : PortInfo
  mac : MacArgs

/-- `data` -/
def PonArgs.data (x : PonArgs) : BitVec 32 :=
  fieldPrep 11 5 (x.pinfo.channel.setWidth 32) ||| fieldPrep 8 3 x.pinfo.qid |||
    fieldPrep 16 8 x.meter0Idx

/-- `!!n` -/
def nonzero (n : BitVec 16) : BitVec 32 := if n = 0#16 then 0#32 else 1#32

/-- `ib1` -/
def PonArgs.ib1 (x : PonArgs) (ib1 : BitVec 32) : BitVec 32 :=
  ib1 ||| (fieldPrep 16 4 (nonzero x.vn) ||| fieldPrep 20 2 (nonzero x.vn) |||
    fieldPrep 22 1 (nonzero x.pppid))

/-- NBQ, and DSCP, written to the `ib2` of a view. -/
def PonArgs.putNbq (x : PonArgs) (e : FoeEntry) (view : L2) : FoeEntry :=
  let e := e.putIb2 view (e.ib2 view &&& ~~~mask 32 0 5)
  e.putIb2 view (e.ib2 view ||| fieldPrep 0 5 (x.pinfo.channel.setWidth 32))
def putDscp (e : FoeEntry) (view : L2) (dscp : BitVec 8) : FoeEntry :=
  let e := e.putIb2 view (e.ib2 view &&& ~~~mask 32 24 8)
  e.putIb2 view (e.ib2 view ||| fieldPrep 24 8 (dscp.setWidth 32))

/-- The `switch` of `airoha_ppe_foe_flow_update_pon_offload`, with the `l2` it chooses. -/
def PonArgs.fill (x : PonArgs) (e : FoeEntry) (type : PktType) (dscp : BitVec 8) :
    FoeEntry × Option L2 :=
  match type with
  | .ipv4Route | .ipv4Hnapt | .ipv4Dslite =>
      let e := putDscp (x.putNbq (e.putData x.data) .ipv4) .ipv4 dscp
      (setPpeFoeEntryMeterGrp2 e x.meter1Idx, some .ipv4)
  | .bridge => (x.putNbq (e.putData x.data) .ipv4, some .ipv4)
  | .ipv6Route3t | .ipv6Route5t | .ipv66rd =>
      let e := putDscp (x.putNbq (e.putData x.data) .ipv6) .ipv6 dscp
      (setPpeFoeEntryMeterGrp2 e x.meter1Idx, some .ipv6)
  | .reserved => (e, none)

/-- `airoha_ppe_foe_flow_update_pon_offload`, on the `data` of the flow it finds. -/
def airohaPpeFoeFlowUpdatePonOffload (x : PonArgs) (e : FoeEntry) : FoeEntry :=
  if x.txModified then e
  else
    let type := e.pktType
    let dscp := getDscpFromSkb x.tos type
    let e := airohaSetDefaultAcntMeterIdx e type
    let e := e.putIb1 (x.ib1 e.ib1)
    let (e, l2) := x.fill e type dscp
    let e := arhtPpeL4sApply x.l4sFlag e type dscp
    let e :=
      match l2 with
      | some l2 => putTags e l2 x.pinfo.stag x.vid1 x.vid2
      | none => e
    x.mac.set x.pppid e

/-- The `switch` of `arht_multicast_hwnat_state_handler_common`. -/
def multicastFill (data val : BitVec 32) (stagDp : BitVec 16) (e : FoeEntry) : FoeEntry :=
  match e.pktType with
  | .ipv4Route | .ipv4Hnapt =>
      let e := ((e.putData data).putIb2 .ipv4 val).putEtype .ipv4 stagDp
      (e.put 5 e.origSrcIp).put 6 e.origDestIp
  | .bridge | .ipv4Dslite => ((e.putData data).putIb2 .ipv4 val).putEtype .ipv4 stagDp
  | .ipv6Route3t | .ipv6Route5t | .ipv66rd =>
      ((e.putData data).putIb2 .ipv6 val).putEtype .ipv6 stagDp
  | .reserved => e

/-- `arht_multicast_hwnat_state_handler_common`, at the time `ts`. -/
def arhtMulticastHwnatStateHandlerCommon (data val : BitVec 32) (stagDp : BitVec 16)
    (ts : BitVec 32) (e : FoeEntry) : FoeEntry :=
  stampCommit ts 0 (multicastFill data val stagDp e)

/-- What `airoha_ppe_drop_packet_handler` finds. -/
structure DropArgs where
  ponSfuMode : Bool
  validFoeEntry : Bool
  /-- The engine gave the entry, twice for a multicast one that is learnt in between. -/
  gotEntry : Bool
  multicast : Bool
  transparentMode : Bool
  ts : BitVec 32

/-- The checks of `airoha_ppe_drop_packet_handler`. -/
def DropArgs.passes (x : DropArgs) : Bool :=
  x.ponSfuMode && x.validFoeEntry && x.gotEntry && !(x.multicast && x.transparentMode)

/-- `val` -/
def dropIb2 : BitVec 32 := fieldPrep 13 11 0x1f#32 ||| fieldPrep 5 4 0xf#32

/-- State BIND, put over the one there is. -/
def FoeEntry.putBind (e : FoeEntry) : FoeEntry :=
  let e := e.putIb1 (e.ib1 &&& ~~~mask 32 28 2)
  e.putIb1 (e.ib1 ||| fieldPrep 28 2 2#32)

/-- The `switch` of `airoha_ppe_drop_packet_handler`. -/
def dropFill (e : FoeEntry) : FoeEntry :=
  match e.pktType with
  | .ipv4Route | .ipv4Hnapt | .bridge | .ipv4Dslite => e.putIb2 .ipv4 dropIb2
  | .ipv6Route3t | .ipv6Route5t | .ipv66rd => e.putIb2 .ipv6 dropIb2
  | .reserved => e

/-- `airoha_ppe_drop_packet_handler` -/
def airohaPpeDropPacketHandler (x : DropArgs) (e : FoeEntry) : FoeEntry :=
  if x.passes then stampCommit x.ts 0 (dropFill e.putBind) else e

/-! ## Cleaning -/

/-- The test for a port and a channel. -/
def judgeChannel (targetFport channelIdx : Int) (_ : Unit) (e : FoeEntry) : Option (Unit × Bool) :=
  let fpidx := (psePort (e.ib2 (l2Of e.pktType))).toNat
  let curChannel := (dataChannel e.data).toNat
  some ((), decide ((fpidx : Int) = targetFport) && decide ((curChannel : Int) = channelIdx))

/-- `airoha_ppe_clean_entry_by_fport_and_channel` -/
def airohaPpeCleanEntryByFportAndChannel (hw : PpeHw) (commit : Nat → FoeEntry → FoeEntry)
    (targetFport channelIdx : Int) (t : Nat → FoeCell) : Int × (Nat → FoeCell) :=
  if channelIdx < 0 ∨ 31 < channelIdx then (-22, t)
  else if targetFport < 0 ∨ 15 < targetFport then (-22, t)
  else (0, cleanWhere hw commit (judgeChannel targetFport channelIdx) () t)

/-- `airoha_ppe_clean_entry_by_channel`, of the flows that leave by GDM2. -/
def airohaPpeCleanEntryByChannel (hw : PpeHw) (commit : Nat → FoeEntry → FoeEntry)
    (channelIdx : Int) (t : Nat → FoeCell) : Nat → FoeCell :=
  cleanWhere hw commit (judgeChannel 2 channelIdx) () t

/-- The test for a GEM port. -/
def judgeGemport (gemportId : BitVec 32) (_ : Unit) (e : FoeEntry) : Option (Unit × Bool) :=
  let fpidx := (psePort (e.ib2 (l2Of e.pktType))).toNat
  some ((), decide (fpidx = 2) && decide ((e.etype (l2Of e.pktType)).setWidth 32 = gemportId))

/-- `airoha_ppe_clean_entry_by_gemport` -/
def airohaPpeCleanEntryByGemport (hw : PpeHw) (commit : Nat → FoeEntry → FoeEntry)
    (gemportId : BitVec 32) (t : Nat → FoeCell) : Nat → FoeCell :=
  cleanWhere hw commit (judgeGemport gemportId) () t

end Airoha.Ppe
