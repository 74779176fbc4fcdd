/-
Airoha.Ppe.McastUpdate — another set of ports for a multicast flow.

Translates `arht_multicast_hwnat_list_update` and its `_lan` sibling with the
five state handlers below them. A multicast flow has a software entry, with the
mask of the ports it goes to, and an entry of the flow table. The update writes
the software entry first; a handler, chosen by the classes of ports in the mask,
then checks that the flow is valid and rewrites and commits the other one. The
arguments `update_mode` and `local` are read by nothing here.

The list of the software entries, its lock and the messages are left out: a
call is given the flow that was found.
-/
import Airoha.Ppe.Egress
import Airoha.Ppe.McastMac

namespace Airoha.Ppe

open Airoha.Lib

/-! ## The software entry and the tables -/

/-- `PPE_MULTICAST_HWNATENTRY_STATE_…` -/
inductive HwnatEntryState where
  | unbind
  | binded
  | drop
deriving DecidableEq, Repr

/-- `MULTICAST_HWNATENTRY_t` -/
structure MulticastHwnatEntry where
  foeIndex : Nat
  portMask : BitVec 32
  state : HwnatEntryState

/-- `SERDES_…_IDX`, of the four that are in the masks. -/
inductive Serdes where
  | pcie0
  | pcie1
  | usb
  | eth
deriving DecidableEq, Repr

/-- The position of `IS_…_SERDES`. -/
def Serdes.bit : Serdes → Nat
  | .eth => 4
  | .usb => 5
  | .pcie0 => 6
  | .pcie1 => 7

/-- `port_mask & IS_…_SERDES` -/
def Serdes.isIn (s : Serdes) (portMask : BitVec 32) : Bool := portMask &&& Lib.bit 32 s.bit != 0#32

/-- `fport`, `nbq` and `chnl` of `struct airoha_eth_soc_data`. -/
structure SerdesTable where
  fport : Serdes → BitVec 32
  nbq : Serdes → BitVec 32
  chnl : Serdes → BitVec 32

/-- What the functions find: the engine, the time, the tables and the flows, and who answers for
`foe_index`. -/
structure McastEnv where
  hw : PpeHw
  ts : BitVec 32
  soc : SerdesTable
  gswSpeed : Nat → BitVec 32
  /-- `arht_multicast_hwnat_get_valid_hook`, none when it is `NULL`. -/
  getValidHook : Option (Nat → Int)
  /-- The `data` of the flows in `foe_flow`, bucket after bucket. -/
  foeFlow : List FoeEntry

/-! ## The classes of ports -/

/-- `MULTICAST_GSW_EXIST`, `MULTICAST_HSGMII_EXIST` and `MULTICAST_WLAN_EXIST` -/
def multicastGswExist (portMask : BitVec 32) : Bool := portMask &&& 0xF#32 != 0#32
def multicastHsgmiiExist (portMask : BitVec 32) : Bool := portMask &&& 0xF0#32 != 0#32
def multicastWlanExist (portMask : BitVec 32) : Bool := portMask &&& 0x80000000#32 != 0#32

/-- `PPE_MULTICAST_FORWARD_STATE_…`, the ones that are chosen. -/
inductive FwdState where
  | lanOnly
  | wlanOnly
  | xsiOnly
  | lanHsgmii1toN
  | unknown
deriving DecidableEq, Repr

/-- `arht_muliticast_get_forward_state` -/
def arhtMuliticastGetForwardState (portMask : BitVec 32) : FwdState :=
  if multicastHsgmiiExist portMask then
    if multicastGswExist portMask then .lanHsgmii1toN else .xsiOnly
  else if multicastGswExist portMask then .lanOnly
  else if multicastWlanExist portMask then .wlanOnly
  else .unknown

/-! ## Whether the flow is valid -/

/-- `arht_ppe_multicast_get_valid` -/
def arhtPpeMulticastGetValid (x : McastEnv) (foeIndex : Nat) : Int :=
  match x.getValidHook with
  | some hook => hook foeIndex
  | none => 0

/-- Whether a flow is for the addresses of an entry, none for a flow of the other types. -/
def flowMatches (e hwe : FoeEntry) : Option Bool :=
  match e.pktType with
  | .ipv4Hnapt => some (hwe.origSrcIp = e.origSrcIp ∧ hwe.origDestIp = e.origDestIp)
  | .ipv6Route5t => some (∀ k : Fin 20, 1 ≤ k.val ∧ k.val ≤ 8 → hwe.get k = e.get k)
  | _ => none

/-- `arht_multicast_match_foe_flow`, none when it reads `hwe` and `hwe` is `NULL`. -/
def arhtMulticastMatchFoeFlow (hwe : Option FoeEntry) : List FoeEntry → Option Bool
  | [] => some false
  | e :: rest =>
      match hwe with
      | some hwe =>
          if flowMatches e hwe = some true then some true
          else arhtMulticastMatchFoeFlow (some hwe) rest
      | none =>
          if e.pktType = .ipv4Hnapt ∨ e.pktType = .ipv6Route5t then none
          else arhtMulticastMatchFoeFlow none rest

/-- `arht_ppe_multicast_check_valid`. 1 is `HWNAT_MCAST_VALID`. -/
def arhtPpeMulticastCheckValid (x : McastEnv) (hwe : Option FoeEntry) (foeIndex : Nat) :
    Option Bool :=
  if arhtPpeMulticastGetValid x foeIndex = 1 then some true
  else arhtMulticastMatchFoeFlow hwe x.foeFlow

/-! ## What the handlers write -/

/-- What a handler gives `arht_multicast_hwnat_state_handler_common`. -/
structure HwnatFields where
  data : BitVec 32
  val : BitVec 32
  stagDp : BitVec 16

/-- `stag_dp`: the bit of each switch port, one higher. -/
def stagDpOf (portMask : BitVec 32) : BitVec 32 :=
  [0, 1, 2, 3].foldl
    (fun stagDp i =>
      if portMask &&& bit 32 i = 0#32 then stagDp else stagDp ||| bit 32 (i + 1)) 0#32

/-- The loop of `arht_multicast_get_channel_by_stag` from `i` on. -/
def channelLoop (gswSpeed : Nat → BitVec 32) (stagDp : BitVec 32) :
    List Nat → BitVec 32 → Nat → Nat
  | [], _, channel => channel
  | i :: rest, maxSpeed, channel =>
      if stagDp &&& bit 32 (i + 1) = 0#32 then channelLoop gswSpeed stagDp rest maxSpeed channel
      else
        let (maxSpeed, channel) :=
          if maxSpeed ≤ gswSpeed i then (gswSpeed i, i + 1) else (maxSpeed, channel)
        if maxSpeed = 1000#32 then channel
        else channelLoop gswSpeed stagDp rest maxSpeed channel

/-- `arht_multicast_get_channel_by_stag` -/
def arhtMulticastGetChannelByStag (gswSpeed : Nat → BitVec 32) (stagDp : BitVec 32) : BitVec 32 :=
  BitVec.ofNat 32 (channelLoop gswSpeed stagDp [0, 1, 2, 3] 0#32 1)

/-- `FIELD_PREP(AIROHA_FOE_IB2_MULTICAST, wifi_flag)` -/
def wifiFlag (portMask : BitVec 32) : BitVec 32 :=
  fieldPrep 11 1 (if multicastWlanExist portMask then 1#32 else 0#32)

/-- `lan_only` -/
def lanOnlyFields (x : McastEnv) (portMask : BitVec 32) : HwnatFields :=
  let stagDp := stagDpOf portMask
  let channel := arhtMulticastGetChannelByStag x.gswSpeed stagDp
  { data := fieldPrep 11 5 channel ||| fieldPrep 16 8 0x7F#32
    val := fieldPrep 13 11 0x1f#32 ||| fieldPrep 5 4 1#32 ||| bit 32 9 ||| fieldPrep 0 5 channel |||
      wifiFlag portMask
    stagDp := stagDp.setWidth 16 }

/-- `wlan_only`. 0xA1 is `PPE_UDF_MULTICAST`. -/
def wlanOnlyFields : HwnatFields where
  data := fieldPrep 11 5 0#32 ||| fieldPrep 16 8 0x7F#32
  val := fieldPrep 13 11 0x1f#32 ||| fieldPrep 5 4 0#32 ||| fieldPrep 0 5 11#32
  stagDp := 0xA1#16

/-- One `if (port_mask & IS_…_SERDES)` of `xsi_only`, on `val`, `nbq` and `channel`. -/
def xsiSerdes (soc : SerdesTable) (portMask : BitVec 32) (v : BitVec 32 × BitVec 32 × BitVec 32)
    (s : Serdes) : BitVec 32 × BitVec 32 × BitVec 32 :=
  if s.isIn portMask then
    (fieldPrep 13 11 0x1f#32 ||| bit 32 9 ||| fieldPrep 5 4 (soc.fport s), soc.nbq s, soc.chnl s)
  else v

/-- `xsi_only` -/
def xsiOnlyFields (x : McastEnv) (portMask : BitVec 32) (priority : Nat) : HwnatFields :=
  let (val, nbq, channel) :=
    [.eth, .usb, .pcie0, .pcie1].foldl (xsiSerdes x.soc portMask) (0#32, 0#32, 1#32)
  { data := fieldPrep 11 5 channel ||| fieldPrep 8 3 (BitVec.ofNat 32 (7 - priority % 8)) |||
      fieldPrep 16 8 0x7F#32
    val := val ||| (fieldPrep 0 5 nbq ||| wifiFlag portMask)
    stagDp := 0#16 }

/-- `x |= (1 << k)` of a serdes. -/
def orIf (c : Bool) (k : Nat) (v : BitVec 32) : BitVec 32 := if c then v ||| bit 32 k else v

/-- `lan_hsgmii_1toN` -/
def lanHsgmii1toNFields (portMask : BitVec 32) : HwnatFields :=
  let nbq := orIf (Serdes.eth.isIn portMask) 2 0#32
  let nbq := orIf (Serdes.usb.isIn portMask) 1 nbq
  let channel := orIf (Serdes.pcie0.isIn portMask) 4 0#32
  let nbq := orIf (Serdes.pcie1.isIn portMask) 0 nbq
  { data := fieldPrep 11 5 channel ||| fieldPrep 16 8 0x7F#32
    val := fieldPrep 13 11 0x1f#32 ||| fieldPrep 5 4 0xe#32 ||| bit 32 9 ||| fieldPrep 0 5 nbq |||
      wifiFlag portMask
    stagDp := (stagDpOf portMask).setWidth 16 }

/-! ## The handlers -/

/-- What a handler leaves: its result, none when it reads through `NULL`, the entry `hwe` points to,
and what the commit returned, none when it made none. -/
structure Handled where
  ret : Option Int
  hwe : Option FoeCell
  commit : Option Int

/-- What `airoha_ppe_foe_commit_entry` returns: `-ENODEV` without an NPU, `-ETIMEDOUT` when a
write of the SRAM is not acknowledged. -/
def McastEnv.commitErr (x : McastEnv) (foeIndex : Nat) : Int :=
  if !x.hw.npu then -19
  else if foeIndex < x.hw.sramNum ∧ x.hw.writeAcks foeIndex = false then -110
  else 0

/-- State BIND, the fields that `write` writes, and the commit. -/
def bindCommit (x : McastEnv) (hwe : Option FoeCell) (foeIndex : Nat)
    (write : FoeEntry → FoeEntry) :
    Handled :=
  match hwe with
  | none => { ret := none, hwe := none, commit := none }
  | some c =>
      let c := { c with foe := write c.foe.putBind }
      { ret := some 0
        hwe := some
          (if x.commitErr foeIndex = 0 then airohaPpeFoeCommitEntry x.hw foeIndex c else c)
        commit := some (x.commitErr foeIndex) }

/-- The handlers that check the flow, up to the fields they write. -/
def checkedHandler (x : McastEnv) (hwe : Option FoeCell) (foeIndex : Nat) (f : HwnatFields) :
    Handled :=
  match arhtPpeMulticastCheckValid x (hwe.map (·.foe)) foeIndex with
  | none => { ret := none, hwe := hwe, commit := none }
  | some false => { ret := some 0, hwe := hwe, commit := none }
  | some true =>
      bindCommit x hwe foeIndex (arhtMulticastHwnatStateHandlerCommon f.data f.val f.stagDp x.ts)

/-- `arht_multicast_hwnat_state_handler_lan_only` -/
def arhtMulticastHwnatStateHandlerLanOnly (x : McastEnv) (hwe : Option FoeCell) (foeIndex : Nat)
    (portMask : BitVec 32) : Handled :=
  checkedHandler x hwe foeIndex (lanOnlyFields x portMask)

/-- `arht_multicast_hwnat_state_handler_wlan_only` -/
def arhtMulticastHwnatStateHandlerWlanOnly (x : McastEnv) (hwe : Option FoeCell) (foeIndex : Nat) :
    Handled :=
  checkedHandler x hwe foeIndex wlanOnlyFields

/-- `arht_multicast_hwnat_state_handler_xsi_only` -/
def arhtMulticastHwnatStateHandlerXsiOnly (x : McastEnv) (hwe : Option FoeCell) (foeIndex : Nat)
    (portMask : BitVec 32) (priority : Nat) : Handled :=
  checkedHandler x hwe foeIndex (xsiOnlyFields x portMask priority)

/-- `arht_multicast_hwnat_state_handler_lan_hsgmii_1toN` -/
def arhtMulticastHwnatStateHandlerLanHsgmii1toN (x : McastEnv) (hwe : Option FoeCell)
    (foeIndex : Nat) (portMask : BitVec 32) : Handled :=
  checkedHandler x hwe foeIndex (lanHsgmii1toNFields portMask)

/-- `arht_multicast_hwnat_state_handler_unknown`: no check, and `ib2` only. -/
def arhtMulticastHwnatStateHandlerUnknown (x : McastEnv) (hwe : Option FoeCell) (foeIndex : Nat) :
    Handled :=
  bindCommit x hwe foeIndex fun e => stampCommit x.ts foeIndex (dropFill e)

/-- `arht_multicast_hwnat_state_handler` -/
def arhtMulticastHwnatStateHandler (x : McastEnv) (hwe : Option FoeCell) (foeIndex : Nat)
    (portMask : BitVec 32) (priority : Nat) : Handled :=
  match arhtMuliticastGetForwardState portMask with
  | .lanOnly => arhtMulticastHwnatStateHandlerLanOnly x hwe foeIndex portMask
  | .wlanOnly => arhtMulticastHwnatStateHandlerWlanOnly x hwe foeIndex
  | .xsiOnly => arhtMulticastHwnatStateHandlerXsiOnly x hwe foeIndex portMask priority
  | .lanHsgmii1toN => arhtMulticastHwnatStateHandlerLanHsgmii1toN x hwe foeIndex portMask
  | .unknown => arhtMulticastHwnatStateHandlerUnknown x hwe foeIndex

/-! ## The update -/

/-- What an update leaves: its result, none when it reads through `NULL`, the software entry, the
flow table, and what the commit returned, none when there was none. -/
structure Updated where
  ret : Option Int
  entry : MulticastHwnatEntry
  foe : Nat → FoeCell
  commit : Option Int

/-- The table with what `hwe` points to. -/
def putHwe (t : Nat → FoeCell) (foeIndex : Nat) (hwe : Option FoeCell) : Nat → FoeCell :=
  match hwe with
  | some c => Function.update t foeIndex c
  | none => t

/-- The software entry as both functions write it. -/
def MulticastHwnatEntry.renew (entry : MulticastHwnatEntry) (portMask : BitVec 32) :
    MulticastHwnatEntry :=
  { entry with
    portMask := portMask
    state := if portMask = 0#32 then .drop else .binded }

/-- Neither function goes on. -/
def MulticastHwnatEntry.refuses (entry : MulticastHwnatEntry) (portMask : BitVec 32) : Bool :=
  entry.state = .unbind || entry.portMask = portMask

/-- `arht_multicast_hwnat_list_update` -/
def arhtMulticastHwnatListUpdate (x : McastEnv) (entry : MulticastHwnatEntry) (portMask : BitVec 32)
    (t : Nat → FoeCell) : Updated :=
  if entry.refuses portMask then { ret := some (-1), entry := entry, foe := t, commit := none }
  else
    let hwe := airohaPpeFoeGetEntry x.hw entry.foeIndex (t entry.foeIndex)
    let h := arhtMulticastHwnatStateHandler x hwe entry.foeIndex portMask 0
    { ret := h.ret.map fun _ => 0
      entry := entry.renew portMask
      foe := putHwe t entry.foeIndex h.hwe
      commit := h.commit }

/-- The addresses of an IPv4 flow, copied to its new tuple. -/
def copyNewTuple (e : FoeEntry) : FoeEntry :=
  if isIpv4Grp e.pktType then (e.put 5 e.origSrcIp).put 6 e.origDestIp else e

/-- `arht_multicast_hwnat_list_update_lan` -/
def arhtMulticastHwnatListUpdateLan (x : McastEnv) (entry : MulticastHwnatEntry)
    (portMask : BitVec 32) (t : Nat → FoeCell) : Updated :=
  if entry.refuses portMask then { ret := some (-1), entry := entry, foe := t, commit := none }
  else
    match airohaPpeFoeGetEntry x.hw entry.foeIndex (t entry.foeIndex) with
    | none => { ret := some (-1), entry := entry.renew portMask, foe := t, commit := none }
    | some c =>
        let hwe := some { c with foe := copyNewTuple c.foe }
        let h := arhtMulticastHwnatStateHandler x hwe entry.foeIndex portMask 0
        { ret := h.ret.map fun _ => 0
          entry := entry.renew portMask
          foe := putHwe t entry.foeIndex h.hwe
          commit := h.commit }

end Airoha.Ppe
