/-
Airoha.Ppe.LinkDown — deleting the flows of a link that goes down.

`airoha_flow_table_entries_lan` of `arht_dp_api.c` walks the flow table and
deletes the conntrack entry of each bound flow whose egress or ingress field
is the number of the device. The numbers are written by
`airoha_set_flow_destination`, from the device's name or, for a flow to the
port CDM4, as WIFI; by `airoha_get_entry_bind`, from the switch tag of a frame;
and by `npu_get_entry_bind`, for a frame from the WLAN. 0 is what a field has
that nobody wrote, and what `airoha_get_lan_id` gives for a device it does not
know. `Misjudged` names the ways in which these numbers fail to stand for the
devices, and `deletesRight_iff` says that there are no others. Left out are
`tx_modified`, which no deletion reads, and the messages.

A walk is what `rhashtable_walk_next` returns one after another: entries, by
cookie, and `-EAGAIN` wherever the table was resized. Starting it may report
`-EAGAIN` as well. Which entry a hash leads to is an argument.
-/
import Airoha.Ppe.Egress

namespace Airoha.Ppe

open Airoha.Lib

/-! ## §1 Devices and their numbers -/

/-- A `struct net_device`: its name, and for a VLAN device that of the real one. -/
structure NetDevice where
  name : List Char
  vlanRealName : Option (List Char)
deriving DecidableEq, Repr

/-- `enum magic`; 0 is none of them. -/
def magicPon : Nat := 1
def magicEth2 : Nat := 2
def magicLan1 : Nat := 3
def magicLan2 : Nat := 4
def magicLan3 : Nat := 5
def magicLan4 : Nat := 6
def magicWifi : Nat := 7

/-- `WIFI_DEV` -/
def wifiDev : Nat := 0xcc

/-- `airoha_ppe_is_pon_dev` -/
def airohaPpeIsPonDev (dev : NetDevice) : Bool :=
  let name := dev.vlanRealName.getD dev.name
  name[0]? = some 'p' ∧ name[1]? = some 'o' ∧ name[2]? = some 'n'

/-- `airoha_get_lan_id`, of a device. -/
def airohaGetLanId (dev : NetDevice) : Nat :=
  let eth :=
    if dev.name[0]? = some 'e' ∧ dev.name[1]? = some 't' ∧ dev.name[2]? = some 'h' ∧
        dev.name[3]? ≠ some '1' ∧ dev.name[3]? ≠ some '0' then magicEth2
    else 0
  if dev.name[0]? = some 'l' ∧ dev.name[1]? = some 'a' ∧ dev.name[2]? = some 'n' then
    if dev.name[3]? = some '1' then magicLan1
    else if dev.name[3]? = some '2' then magicLan2
    else if dev.name[3]? = some '3' then magicLan3
    else if dev.name[3]? = some '4' then magicLan4
    else eth
  else eth

/-- `LAN_IDX_FROM_SPTAG` -/
def lanIdxFromSptag (sptag : Nat) : Nat :=
  if sptag = 4 then magicLan4
  else if sptag = 3 then magicLan3
  else if sptag = 2 then magicLan2
  else if sptag = 1 then magicLan1
  else 0

/-! ## §2 The flow table -/

/-- `struct airoha_flow_table_entry`, as far as a link that goes down is concerned. -/
structure FlowTableEntry where
  eMagic : Nat
  ingressDevIdx : Nat
  data : FoeEntry

/-- The entries by their cookies. -/
abbrev FlowTable := Nat → Option FlowTableEntry

/-- `arht_foe_entry_is_wifi`. `bridge.ib2` is the word of `ipv4.ib2`, and 7 is
`FE_PSE_PORT_CDM4`. -/
def arhtFoeEntryIsWifi (hwe : FoeEntry) : Bool :=
  let ib2 :=
    if hwe.pktType = .bridge then hwe.ib2 .ipv4
    else if PktType.ipv6Route3t.code ≤ hwe.pktType.code then hwe.ib2 .ipv6
    else hwe.ib2 .ipv4
  psePort ib2 = 7#32

/-- `airoha_set_flow_destination` on an entry; `none` is `NULL`. -/
def airohaSetFlowDestination (dev : Option NetDevice) (e : FlowTableEntry) : FlowTableEntry :=
  match dev with
  | none => e
  | some dev =>
      let e := if airohaPpeIsPonDev dev then { e with eMagic := magicPon } else e
      let e := if airohaGetLanId dev ≠ 0 then { e with eMagic := airohaGetLanId dev } else e
      if arhtFoeEntryIsWifi e.data then { e with eMagic := magicWifi } else e

/-- `PPE_CPU_REASON_HIT_UNBIND_RATE_REACHED` -/
def ppeCpuReasonHitUnbindRateReached : Nat := 0x0f

/-- What `airoha_get_entry_bind` does to the entry of the frame's hash. -/
def airohaGetEntryBind (reason : Nat) (dev : NetDevice) (sptag : Nat) (e : FlowTableEntry) :
    FlowTableEntry :=
  if reason = ppeCpuReasonHitUnbindRateReached then
    let e := { e with ingressDevIdx := lanIdxFromSptag sptag }
    if airohaGetLanId dev = magicEth2 then { e with ingressDevIdx := magicEth2 } else e
  else e

/-- What `npu_get_entry_bind` does to the entry of the frame's hash. -/
def npuGetEntryBind (reason : Nat) (e : FlowTableEntry) : FlowTableEntry :=
  if reason = ppeCpuReasonHitUnbindRateReached then { e with ingressDevIdx := wifiDev } else e

/-- What happens to the table. Allocating an entry leaves its fields zero; `change` is whatever the
driver does to `data`; `egress`, `ingress` and `npu` are the calls that record a device. -/
inductive FlowEvent where
  | create (cookie : Nat) (data : FoeEntry)
  | change (cookie : Nat) (data : FoeEntry)
  | remove (cookie : Nat)
  | egress (dev : Option NetDevice) (cookie : Option Nat)
  | ingress (reason : Nat) (cookie : Option Nat) (dev : NetDevice) (sptag : Nat)
  | npu (reason : Nat) (cookie : Option Nat) (dev : NetDevice)

/-- An entry that is there changed. -/
def FlowTable.modify (tbl : FlowTable) (cookie : Nat) (f : FlowTableEntry → FlowTableEntry) :
    FlowTable :=
  Function.update tbl cookie ((tbl cookie).map f)

/-- One event. -/
def FlowEvent.step (tbl : FlowTable) : FlowEvent → FlowTable
  | .create cookie data =>
      Function.update tbl cookie (some { eMagic := 0, ingressDevIdx := 0, data := data })
  | .change cookie data => tbl.modify cookie fun e => { e with data := data }
  | .remove cookie => Function.update tbl cookie none
  | .egress _ none => tbl
  | .egress dev (some cookie) => tbl.modify cookie (airohaSetFlowDestination dev)
  | .ingress _ none _ _ => tbl
  | .ingress reason (some cookie) dev sptag =>
    tbl.modify cookie (airohaGetEntryBind reason dev sptag)
  | .npu _ none _ => tbl
  | .npu reason (some cookie) _ => tbl.modify cookie (npuGetEntryBind reason)

/-- The table after a history. -/
def flowTable (history : List FlowEvent) : FlowTable := history.foldl FlowEvent.step fun _ => none

/-! ## §3 The walk -/

/-- A `struct nf_conntrack_tuple`, in network byte order. -/
structure CtTuple where
  l3num : Nat
  src : List (BitVec 32)
  dst : List (BitVec 32)
  srcPort : BitVec 16
  dstPort : BitVec 16
  protonum : Nat
deriving DecidableEq

/-- `ntohl` and `ntohs` on the little-endian CPU. -/
def ntohl (x : BitVec 32) : BitVec 32 :=
  x.extractLsb' 0 8 ++ x.extractLsb' 8 8 ++ x.extractLsb' 16 8 ++ x.extractLsb' 24 8
def ntohs (x : BitVec 16) : BitVec 16 := x.extractLsb' 0 8 ++ x.extractLsb' 8 8

def afInet : Nat := 2
def afInet6 : Nat := 10
def ipprotoTcp : Nat := 6
def ipprotoUdp : Nat := 17

/-- The tuple `delete_conntrack_by_tuple` looks for. -/
def deleteConntrackByTuple (srcIp dstIp : BitVec 32) (srcPort dstPort : BitVec 16) (l4proto : Nat) :
    CtTuple :=
  { l3num := afInet, src := [srcIp], dst := [dstIp], srcPort, dstPort, protonum := l4proto }

/-- The tuple `delete_conntrack_by_tuple6` looks for, which swaps the addresses itself. -/
def deleteConntrackByTuple6 (srcIp dstIp : List (BitVec 32)) (srcPort dstPort : BitVec 16)
    (l4proto : Nat) : CtTuple :=
  { l3num := afInet6, src := srcIp.map ntohl, dst := dstIp.map ntohl, srcPort, dstPort,
    protonum := l4proto }

/-- `ipv6.src_ip` and `ipv6.dest_ip` -/
def FoeEntry.ipv6SrcIp (e : FoeEntry) : List (BitVec 32) := [e.get 1, e.get 2, e.get 3, e.get 4]
def FoeEntry.ipv6DestIp (e : FoeEntry) : List (BitVec 32) := [e.get 5, e.get 6, e.get 7, e.get 8]

/-- The body of the walk: the conntrack deletion attempted for an entry. -/
def flowTableEntryLan (lanIdx : Nat) (e : FlowTableEntry) : Option CtTuple :=
  if lanIdx = e.eMagic ∨ lanIdx = e.ingressDevIdx then
    let l4proto := if fieldGet 30 1 e.data.ib1 ≠ 0#32 then ipprotoUdp else ipprotoTcp
    if e.data.state ≠ .bind then none
    else
      match e.data.pktType with
      | .ipv4Hnapt | .ipv4Route | .ipv4Dslite =>
          some (deleteConntrackByTuple (ntohl e.data.origSrcIp) (ntohl e.data.origDestIp)
            (ntohs e.data.origSrcPort) (ntohs e.data.origDestPort) l4proto)
      | .ipv6Route3t | .ipv6Route5t | .ipv66rd =>
          some (deleteConntrackByTuple6 e.data.ipv6SrcIp e.data.ipv6DestIp
            (ntohs e.data.ipv6SrcPort) (ntohs e.data.ipv6DestPort) l4proto)
      | .bridge | .reserved => none
  else none

/-- What `rhashtable_walk_start_check` and `rhashtable_walk_next` report; `none` is `-EAGAIN`. -/
structure Walk where
  startAgain : Bool
  next : List (Option Nat)

/-- The loop of `airoha_flow_table_entries_lan`, which leaves at any error. -/
def flowTableWalk (tbl : FlowTable) (lanIdx : Nat) : List (Option Nat) → List (Nat × CtTuple)
  | [] => []
  | none :: _ => []
  | some cookie :: rest =>
      (((tbl cookie).bind (flowTableEntryLan lanIdx)).map fun t => (cookie, t)).toList ++
        flowTableWalk tbl lanIdx rest

/-- `airoha_flow_table_entries_lan`: the deletions attempted, with the entry of each. -/
def airohaFlowTableEntriesLan (tbl : FlowTable) (walk : Walk) (dev : NetDevice) :
    List (Nat × CtTuple) :=
  if walk.startAgain then [] else flowTableWalk tbl (airohaGetLanId dev) walk.next

/-! ## §4 What is asked -/

/-- The original tuple of an entry. -/
def FoeEntry.origTuple (e : FoeEntry) : CtTuple :=
  let protonum := if fieldGet 30 1 e.ib1 ≠ 0#32 then ipprotoUdp else ipprotoTcp
  if 4 ≤ e.pktType.code then
    { l3num := afInet6, src := e.ipv6SrcIp.map ntohl, dst := e.ipv6DestIp.map ntohl,
      srcPort := ntohs e.ipv6SrcPort, dstPort := ntohs e.ipv6DestPort, protonum }
  else
    { l3num := afInet, src := [ntohl e.origSrcIp], dst := [ntohl e.origDestIp],
      srcPort := ntohs e.origSrcPort, dstPort := ntohs e.origDestPort, protonum }

/-- A bound entry of an IPv4 or IPv6 routed type. -/
def FoeEntry.BoundRouted (e : FoeEntry) : Prop :=
  e.state = .bind ∧ e.pktType ≠ .bridge ∧ e.pktType ≠ .reserved

/-- An egress device recorded, and whether the entry was one to the port CDM4 then. -/
structure EgressRecord where
  dev : NetDevice
  cdm4 : Bool
deriving DecidableEq

/-- A frame recorded: the device it came from, with its switch tag where it came through the
QDMA. -/
inductive IngressRecord where
  | eth (dev : NetDevice) (sptag : Nat)
  | npu (dev : NetDevice)

/-- The device of a frame: the switch port that the tag names on the device the frame came from,
where there is one, else that device. -/
def IngressRecord.device (ports : NetDevice → Nat → Option NetDevice) : IngressRecord → NetDevice
  | .eth dev sptag => (ports dev sptag).getD dev
  | .npu dev => dev

/-- The devices recorded for an entry, one after another. -/
structure Recorded where
  egress : List EgressRecord
  ingress : List IngressRecord

/-- What an event on the table records for the entry of a cookie. -/
def FlowEvent.record (tbl : FlowTable) (cookie : Nat) (r : Recorded) : FlowEvent → Recorded
  | .create cookie' _ => if cookie' = cookie then { egress := [], ingress := [] } else r
  | .egress (some dev) (some cookie') =>
      match tbl cookie with
      | some e =>
          if cookie' = cookie then
            { r with egress := r.egress ++ [{ dev := dev, cdm4 := arhtFoeEntryIsWifi e.data }] }
          else r
      | none => r
  | .ingress reason (some cookie') dev sptag =>
      if cookie' = cookie ∧ reason = ppeCpuReasonHitUnbindRateReached then
        { r with ingress := r.ingress ++ [.eth dev sptag] }
      else r
  | .npu reason (some cookie') dev =>
      if cookie' = cookie ∧ reason = ppeCpuReasonHitUnbindRateReached then
        { r with ingress := r.ingress ++ [.npu dev] }
      else r
  | _ => r

/-- What the events of a history record for the entry of a cookie, from the table and the record
before them. -/
def recordFrom (cookie : Nat) : FlowTable → Recorded → List FlowEvent → Recorded
  | _, r, [] => r
  | tbl, r, ev :: history => recordFrom cookie (ev.step tbl) (ev.record tbl cookie r) history

/-- What a history records for the entry of a cookie. -/
def recorded (history : List FlowEvent) (cookie : Nat) : Recorded :=
  recordFrom cookie (fun _ => none) { egress := [], ingress := [] } history

/-- The recorded egress device. -/
def Recorded.egressDev (r : Recorded) : Option NetDevice := r.egress.getLast?.map (·.dev)

/-- The recorded ingress device. -/
def Recorded.ingressDev (ports : NetDevice → Nat → Option NetDevice) (r : Recorded) :
    Option NetDevice :=
  r.ingress.getLast?.map (·.device ports)

/-- One of the two recorded devices is this one. -/
def Recorded.IsFor (ports : NetDevice → Nat → Option NetDevice) (r : Recorded) (dev : NetDevice) :
    Prop :=
  r.egressDev = some dev ∨ r.ingressDev ports = some dev

/-- Conntrack deletions are attempted for exactly the bound routed entries recorded for the device,
each with the entry's own tuple. -/
def DeletesRight (ports : NetDevice → Nat → Option NetDevice) (history : List FlowEvent)
    (walk : Walk) (dev : NetDevice) : Prop :=
  ∀ cookie t, (cookie, t) ∈ airohaFlowTableEntriesLan (flowTable history) walk dev ↔
    ∃ e, flowTable history cookie = some e ∧ e.data.BoundRouted ∧
      (recorded history cookie).IsFor ports dev ∧ t = e.data.origTuple

/-- The walk visits the entries of the table and no others. -/
def Walk.Visits (walk : Walk) (tbl : FlowTable) : Prop :=
  ∀ cookie, some cookie ∈ walk.next ↔ (tbl cookie).isSome = true

/-! ## §5 When the numbers stand for the devices -/

/-- The name of the device is one that `airoha_get_lan_id` knows: lan1 to lan4, or an eth but eth0
and eth1. -/
def NetDevice.Named (dev : NetDevice) : Prop := airohaGetLanId dev ≠ 0

/-- The recording leaves a number: the flow is to CDM4, or the device has a known name or is PON. -/
def EgressRecord.Numbered (x : EgressRecord) : Prop :=
  x.cdm4 = true ∨ x.dev.Named ∨ airohaPpeIsPonDev x.dev = true

instance (x : EgressRecord) : Decidable x.Numbered :=
  inferInstanceAs (Decidable (_ ∨ airohaGetLanId x.dev ≠ 0 ∨ _))

/-- The last egress recording that left a number. -/
def Recorded.lastNumbered (r : Recorded) : Option EgressRecord :=
  (r.egress.filter fun x => decide x.Numbered).getLast?

/-- The last egress recording that left a number is for a device of this device's name, and not to
CDM4. -/
def Recorded.EgressSays (r : Recorded) (dev : NetDevice) : Prop :=
  ∃ x, r.lastNumbered = some x ∧ x.cdm4 = false ∧ airohaGetLanId x.dev = airohaGetLanId dev

/-- The last frame came from an eth device but eth0 and eth1 and this device is one of them; or it
came from another, and its switch tag is the number in this device's name. -/
def Recorded.IngressSays (r : Recorded) (dev : NetDevice) : Prop :=
  ∃ d sptag, r.ingress.getLast? = some (.eth d sptag) ∧
    if airohaGetLanId d = magicEth2 then airohaGetLanId dev = magicEth2
    else airohaGetLanId dev = lanIdxFromSptag sptag

/-- No frame was recorded, or the last one has no switch tag from 1 to 4 and is not from an eth
device but eth0 and eth1. -/
def Recorded.IngressBlank (r : Recorded) : Prop :=
  ∀ x, r.ingress.getLast? = some x →
    ∃ d sptag, x = .eth d sptag ∧ airohaGetLanId d ≠ magicEth2 ∧ lanIdxFromSptag sptag = 0

/-- The entry is visited before the walk first reports `-EAGAIN`. -/
def Walk.Reaches (walk : Walk) (cookie : Nat) : Prop :=
  walk.startAgain = false ∧ some cookie ∈ walk.next.takeWhile Option.isSome

/-- What goes wrong with an entry when the link of `dev` goes down. -/
inductive Misjudged (ports : NetDevice → Nat → Option NetDevice) (walk : Walk) (cookie : Nat)
    (r : Recorded) (dev : NetDevice) : Prop where
  /-- A flow of the link that the walk does not come to. -/
  | unreached (hfor : r.IsFor ports dev) (h : ¬ walk.Reaches cookie)
  /-- A flow of a link with a known name: its egress is to CDM4 or of another name, its frames came
  with another tag. -/
  | unseen (hname : dev.Named) (hfor : r.IsFor ports dev) (hegress : ¬ r.EgressSays dev)
      (hingress : ¬ r.IngressSays dev)
  /-- A flow of another link, that left the number of this one. -/
  | mistaken (hname : dev.Named) (hreach : walk.Reaches cookie) (hfor : ¬ r.IsFor ports dev)
      (h : r.EgressSays dev ∨ r.IngressSays dev)
  /-- A flow of a link with an unknown name, with a number in both fields. -/
  | numbered (hname : ¬ dev.Named) (hfor : r.IsFor ports dev) (hegress : r.lastNumbered ≠ none)
      (hingress : ¬ r.IngressBlank)
  /-- A flow of another link than one with an unknown name, with no number in a field. -/
  | blank (hname : ¬ dev.Named) (hreach : walk.Reaches cookie) (hfor : ¬ r.IsFor ports dev)
      (h : r.lastNumbered = none ∨ r.IngressBlank)

/-! ## §6 The numbers kept -/

/-- The number an egress recording leaves, if it leaves one. -/
def egressNumber (x : EgressRecord) : Option Nat :=
  if x.cdm4 then some magicWifi
  else if airohaGetLanId x.dev ≠ 0 then some (airohaGetLanId x.dev)
  else if airohaPpeIsPonDev x.dev then some magicPon
  else none

/-- The number a frame leaves. -/
def ingressNumber : IngressRecord → Nat
  | .eth dev sptag => if airohaGetLanId dev = magicEth2 then magicEth2 else lanIdxFromSptag sptag
  | .npu _ => wifiDev

/-- The number of the last egress recording that leaves one, or 0. -/
def Recorded.keptEgress (r : Recorded) : Nat := (r.lastNumbered.bind egressNumber).getD 0

/-- The number of the last frame, or 0. -/
def Recorded.keptIngress (r : Recorded) : Nat := (r.ingress.getLast?.map ingressNumber).getD 0

section

variable {history : List FlowEvent} {walk : Walk} {dev : NetDevice}

theorem airohaGetLanId_cases (dev : NetDevice) :
    airohaGetLanId dev = 0 ∨ 2 ≤ airohaGetLanId dev ∧ airohaGetLanId dev ≤ 6 := by
  unfold airohaGetLanId magicLan1 magicLan2 magicLan3 magicLan4 magicEth2
  dsimp only
  split_ifs <;> simp

theorem numbered_iff (x : EgressRecord) : x.Numbered ↔ ∃ n, egressNumber x = some n ∧ n ≠ 0 := by
  unfold EgressRecord.Numbered egressNumber NetDevice.Named
  by_cases hcdm4 : x.cdm4 = true
  · simp [hcdm4, magicWifi]
  · by_cases hlan : airohaGetLanId x.dev = 0
    · by_cases hpon : airohaPpeIsPonDev x.dev = true
      · simp [hcdm4, hlan, hpon, magicPon]
      · simp [hcdm4, hlan, hpon]
    · simp [hcdm4, hlan]

theorem egressNumber_of_not_numbered {x : EgressRecord} (h : ¬ x.Numbered) :
    egressNumber x = none := by
  cases hx : egressNumber x with
  | none => rfl
  | some n =>
    refine absurd ((numbered_iff x).mpr ⟨n, hx, ?_⟩) h
    unfold egressNumber at hx
    split_ifs at hx with hcdm4 hlan hpon
    · cases hx
      decide
    · cases hx
      exact hlan
    · cases hx
      decide

theorem setFlowDestination_eMagic (dev : NetDevice) (e : FlowTableEntry) :
    (airohaSetFlowDestination (some dev) e).eMagic =
      (egressNumber { dev := dev, cdm4 := arhtFoeEntryIsWifi e.data }).getD e.eMagic := by
  unfold airohaSetFlowDestination egressNumber
  cases hwifi : arhtFoeEntryIsWifi e.data <;> cases hpon : airohaPpeIsPonDev dev <;>
    by_cases hlan : airohaGetLanId dev = 0 <;> simp [hlan, hpon, hwifi]

theorem setFlowDestination_ingress (dev : Option NetDevice) (e : FlowTableEntry) :
    (airohaSetFlowDestination dev e).ingressDevIdx = e.ingressDevIdx := by
  cases dev with
  | none => rfl
  | some dev =>
    unfold airohaSetFlowDestination
    dsimp only
    split_ifs <;> rfl

theorem getEntryBind_eMagic (reason : Nat) (dev : NetDevice) (sptag : Nat) (e : FlowTableEntry) :
    (airohaGetEntryBind reason dev sptag e).eMagic = e.eMagic := by
  unfold airohaGetEntryBind
  split
  · dsimp only
    split
    · rfl
    · rfl
  · rfl

theorem getEntryBind_ingress (reason : Nat) (dev : NetDevice) (sptag : Nat) (e : FlowTableEntry) :
    (airohaGetEntryBind reason dev sptag e).ingressDevIdx =
      if reason = ppeCpuReasonHitUnbindRateReached then ingressNumber (.eth dev sptag)
      else e.ingressDevIdx := by
  unfold airohaGetEntryBind ingressNumber
  split
  · dsimp only
    split
    · rfl
    · rfl
  · rfl

theorem npuGetEntryBind_eMagic (reason : Nat) (e : FlowTableEntry) :
    (npuGetEntryBind reason e).eMagic = e.eMagic := by
  unfold npuGetEntryBind
  split_ifs <;> rfl

theorem npuGetEntryBind_ingress (reason : Nat) (dev : NetDevice) (e : FlowTableEntry) :
    (npuGetEntryBind reason e).ingressDevIdx =
      if reason = ppeCpuReasonHitUnbindRateReached then ingressNumber (.npu dev)
      else e.ingressDevIdx := by
  unfold npuGetEntryBind ingressNumber
  split_ifs <;> rfl

/-- The fields of an entry are the numbers kept of what was recorded. -/
def KeepsNumbers (e : FlowTableEntry) (r : Recorded) : Prop :=
  e.eMagic = r.keptEgress ∧ e.ingressDevIdx = r.keptIngress

theorem keptEgress_append (r : Recorded) (x : EgressRecord) :
    ({ r with egress := r.egress ++ [x] } : Recorded).keptEgress =
      (egressNumber x).getD r.keptEgress := by
  unfold Recorded.keptEgress Recorded.lastNumbered
  rw [List.filter_append]
  by_cases hx : x.Numbered
  · obtain ⟨n, hn, -⟩ := (numbered_iff x).mp hx
    simp [hx, hn]
  · simp [hx, egressNumber_of_not_numbered hx]

theorem keptIngress_append (r : Recorded) (x : IngressRecord) :
    ({ r with ingress := r.ingress ++ [x] } : Recorded).keptIngress = ingressNumber x := by
  simp [Recorded.keptIngress]

theorem FlowTable.modify_some {tbl : FlowTable} {cookie c : Nat}
    {f : FlowTableEntry → FlowTableEntry}
    {e : FlowTableEntry} (h : tbl.modify c f cookie = some e) :
    ∃ e', tbl cookie = some e' ∧ e = if c = cookie then f e' else e' := by
  unfold FlowTable.modify at h
  by_cases hc : c = cookie
  · subst hc
    rw [Function.update_self] at h
    obtain ⟨e', he', rfl⟩ := Option.map_eq_some_iff.mp h
    exact ⟨e', he', (if_pos rfl).symm⟩
  · rw [Function.update_of_ne (Ne.symm hc)] at h
    exact ⟨e, h, (if_neg hc).symm⟩

/-- A frame records an ingress for the entry of its cookie, when its reason is the one for it. -/
theorem KeepsNumbers.bind {tbl : FlowTable} {r : Recorded} {cookie c reason : Nat}
    {f : FlowTableEntry → FlowTableEntry} {x : IngressRecord} {e : FlowTableEntry}
    (h : ∀ e, tbl cookie = some e → KeepsNumbers e r) (hegress : ∀ e, (f e).eMagic = e.eMagic)
    (hingress : ∀ e, (f e).ingressDevIdx =
      if reason = ppeCpuReasonHitUnbindRateReached then ingressNumber x else e.ingressDevIdx)
    (he : tbl.modify c f cookie = some e) :
    KeepsNumbers e (if c = cookie ∧ reason = ppeCpuReasonHitUnbindRateReached then
      { r with ingress := r.ingress ++ [x] } else r) := by
  obtain ⟨e', he', rfl⟩ := FlowTable.modify_some he
  obtain ⟨hegress', hingress'⟩ := h e' he'
  by_cases hc : c = cookie
  · rw [if_pos hc]
    by_cases hreason : reason = ppeCpuReasonHitUnbindRateReached
    · rw [if_pos ⟨hc, hreason⟩]
      refine ⟨?_, ?_⟩
      · rw [hegress]
        exact hegress'
      · rw [hingress, if_pos hreason, keptIngress_append]
    · rw [if_neg fun hboth => hreason hboth.2]
      refine ⟨?_, ?_⟩
      · rw [hegress, hegress']
      · rw [hingress, if_neg hreason, hingress']
  · rw [if_neg hc, if_neg fun hboth => hc hboth.1]
    exact ⟨hegress', hingress'⟩

theorem step_keepsNumbers {tbl : FlowTable} {r : Recorded} {cookie : Nat}
    (h : ∀ e, tbl cookie = some e → KeepsNumbers e r) (ev : FlowEvent)
    (e : FlowTableEntry) (he : ev.step tbl cookie = some e) :
    KeepsNumbers e (ev.record tbl cookie r) := by
  cases ev with
  | create c data =>
    by_cases hc : c = cookie
    · subst hc
      rw [FlowEvent.step, Function.update_self] at he
      cases he
      simp only [FlowEvent.record, if_true]
      exact ⟨rfl, rfl⟩
    · rw [FlowEvent.step, Function.update_of_ne (Ne.symm hc)] at he
      simp only [FlowEvent.record, if_neg hc]
      exact h e he
  | change c data =>
    obtain ⟨e', he', rfl⟩ := FlowTable.modify_some he
    obtain ⟨hegress, hingress⟩ := h e' he'
    refine ⟨?_, ?_⟩
    · rw [apply_ite FlowTableEntry.eMagic, ite_self]
      exact hegress
    · rw [apply_ite FlowTableEntry.ingressDevIdx, ite_self]
      exact hingress
  | remove c =>
    by_cases hc : c = cookie
    · subst hc
      rw [FlowEvent.step, Function.update_self] at he
      cases he
    · rw [FlowEvent.step, Function.update_of_ne (Ne.symm hc)] at he
      exact h e he
  | egress dev c =>
    cases c with
    | none =>
      cases dev with
      | none => exact h e he
      | some dev => exact h e he
    | some c =>
      obtain ⟨e', he', rfl⟩ := FlowTable.modify_some he
      obtain ⟨hegress, hingress⟩ := h e' he'
      cases dev with
      | none =>
        have hsame : airohaSetFlowDestination none e' = e' := rfl
        rw [hsame, ite_self]
        exact ⟨hegress, hingress⟩
      | some dev =>
        simp only [FlowEvent.record, he']
        by_cases hc : c = cookie
        · rw [if_pos hc, if_pos hc]
          refine ⟨?_, ?_⟩
          · rw [setFlowDestination_eMagic, keptEgress_append, hegress]
          · rw [setFlowDestination_ingress]
            exact hingress
        · rw [if_neg hc, if_neg hc]
          exact ⟨hegress, hingress⟩
  | ingress reason c dev sptag =>
    cases c with
    | none => exact h e he
    | some c =>
      exact .bind h (getEntryBind_eMagic reason dev sptag)
        (getEntryBind_ingress reason dev sptag) he
  | npu reason c dev =>
    cases c with
    | none => exact h e he
    | some c =>
      exact .bind h (npuGetEntryBind_eMagic reason) (npuGetEntryBind_ingress reason dev) he

theorem recordFrom_keepsNumbers {cookie : Nat} {e : FlowTableEntry} {history : List FlowEvent} :
    ∀ {tbl : FlowTable} {r : Recorded}, (∀ e, tbl cookie = some e → KeepsNumbers e r) →
      history.foldl FlowEvent.step tbl cookie = some e →
        KeepsNumbers e (recordFrom cookie tbl r history) := by
  induction history with
  | nil => exact fun h he => h e he
  | cons ev history ih => exact fun h he => ih (step_keepsNumbers h ev) he

/-- After every history each entry keeps the numbers of what was recorded for it. -/
theorem flowTable_keepsNumbers (history : List FlowEvent) (cookie : Nat) (e : FlowTableEntry)
    (he : flowTable history cookie = some e) : KeepsNumbers e (recorded history cookie) := by
  refine recordFrom_keepsNumbers ?_ he
  intro e he
  cases he

/-! ### What they say -/

theorem lastNumbered_numbered {r : Recorded} {x : EgressRecord} (h : r.lastNumbered = some x) :
    x.Numbered := by
  have hmem := List.mem_of_getLast? h
  simpa using (List.mem_filter.mp hmem).2

/-- The egress field of a known name: it says the name or it does not. -/
theorem egressSays_iff {r : Recorded} (hname : dev.Named) :
    airohaGetLanId dev = r.keptEgress ↔ r.EgressSays dev := by
  have hrange := (airohaGetLanId_cases dev).resolve_left hname
  unfold Recorded.keptEgress Recorded.EgressSays
  cases hlast : r.lastNumbered with
  | none =>
    simp only [Option.bind_none, Option.getD_none, reduceCtorEq, false_and, exists_false, iff_false]
    exact hname
  | some x =>
    simp only [Option.bind_some, Option.some.injEq, exists_eq_left']
    unfold egressNumber
    split_ifs with hcdm4 hlan hpon
    · simp only [hcdm4, Option.getD_some, magicWifi]
      constructor
      · intro h
        omega
      · intro h
        cases h.1
    · simp only [Bool.not_eq_true] at hcdm4
      simp only [hcdm4, Option.getD_some, true_and]
      exact eq_comm
    · simp only [not_not] at hlan
      simp only [Bool.not_eq_true] at hcdm4
      simp only [hcdm4, Option.getD_some, magicPon, hlan, true_and]
      omega
    · simp only [not_not] at hlan
      simp only [Bool.not_eq_true] at hcdm4
      simp only [hcdm4, Option.getD_none, hlan, true_and]
      exact eq_comm

theorem ingressSays_iff {r : Recorded} (hname : dev.Named) :
    airohaGetLanId dev = r.keptIngress ↔ r.IngressSays dev := by
  have hrange := (airohaGetLanId_cases dev).resolve_left hname
  unfold Recorded.keptIngress Recorded.IngressSays
  cases hlast : r.ingress.getLast? with
  | none =>
    simp only [Option.map_none, Option.getD_none, reduceCtorEq, false_and, exists_false, iff_false]
    exact hname
  | some x =>
    cases x with
    | eth d sptag =>
      simp only [Option.map_some, Option.getD_some, ingressNumber, Option.some.injEq,
        IngressRecord.eth.injEq]
      constructor
      · intro h
        refine ⟨d, sptag, ⟨rfl, rfl⟩, ?_⟩
        split_ifs at h ⊢ <;> exact h
      · intro h
        obtain ⟨d', sptag', ⟨rfl, rfl⟩, h⟩ := h
        split_ifs at h ⊢ <;> exact h
    | npu d =>
      simp only [Option.map_some, Option.getD_some, ingressNumber, wifiDev, Option.some.injEq,
        reduceCtorEq, false_and, exists_false, iff_false]
      omega

/-- A field without a number, which is what an unknown name is taken for. -/
theorem egressBlank_iff {r : Recorded} : r.keptEgress = 0 ↔ r.lastNumbered = none := by
  unfold Recorded.keptEgress
  cases hlast : r.lastNumbered with
  | none => simp
  | some x =>
    obtain ⟨n, hn, h0⟩ := (numbered_iff x).mp (lastNumbered_numbered hlast)
    simp [hn, h0]

theorem ingressBlank_iff {r : Recorded} : r.keptIngress = 0 ↔ r.IngressBlank := by
  unfold Recorded.keptIngress Recorded.IngressBlank
  cases hlast : r.ingress.getLast? with
  | none => simp
  | some x =>
    cases x with
    | eth d sptag =>
      by_cases heth : airohaGetLanId d = magicEth2
      · simp [ingressNumber, heth, magicEth2]
      · simp [ingressNumber, heth]
    | npu d => simp [ingressNumber, wifiDev]

/-! ## §7 The deletions -/

theorem flowTableEntryLan_iff {lanIdx : Nat} {e : FlowTableEntry} {t : CtTuple} :
    flowTableEntryLan lanIdx e = some t ↔
      (lanIdx = e.eMagic ∨ lanIdx = e.ingressDevIdx) ∧ e.data.BoundRouted ∧
        t = e.data.origTuple := by
  unfold flowTableEntryLan FoeEntry.BoundRouted
  by_cases hnum : lanIdx = e.eMagic ∨ lanIdx = e.ingressDevIdx
  · by_cases hbind : e.data.state = .bind
    · rw [if_pos hnum, if_neg (not_not.mpr hbind)]
      simp only [hnum, hbind, true_and]
      unfold FoeEntry.origTuple
      cases htype : e.data.pktType <;>
        simp [PktType.code, deleteConntrackByTuple, deleteConntrackByTuple6, eq_comm]
    · rw [if_pos hnum, if_pos hbind]
      exact ⟨fun h => absurd h.symm (Option.some_ne_none t), fun h => absurd h.2.1.1 hbind⟩
  · rw [if_neg hnum]
    exact ⟨fun h => absurd h.symm (Option.some_ne_none t), fun h => absurd h.1 hnum⟩

theorem mem_flowTableWalk {tbl : FlowTable} {lanIdx cookie : Nat} {t : CtTuple}
    {next : List (Option Nat)} : (cookie, t) ∈ flowTableWalk tbl lanIdx next ↔
      some cookie ∈ next.takeWhile Option.isSome ∧
        ∃ e, tbl cookie = some e ∧ flowTableEntryLan lanIdx e = some t := by
  induction next with
  | nil => simp [flowTableWalk]
  | cons item next ih =>
    cases item with
    | none => simp [flowTableWalk]
    | some c =>
      rw [flowTableWalk, List.mem_append, ih, Option.mem_toList,
        Option.map_eq_some_iff, List.takeWhile_cons_of_pos rfl, List.mem_cons]
      constructor
      · rintro (⟨t', ht', heq⟩ | ⟨hmem, h⟩)
        · cases heq
          exact ⟨Or.inl rfl, Option.bind_eq_some_iff.mp ht'⟩
        · exact ⟨Or.inr hmem, h⟩
      · rintro ⟨hmem | hmem, h⟩
        · cases hmem
          exact Or.inl ⟨t, Option.bind_eq_some_iff.mpr h, rfl⟩
        · exact Or.inr ⟨hmem, h⟩

/-- What is attempted, in terms of what was recorded. -/
theorem mem_entriesLan {cookie : Nat} {t : CtTuple} :
    (cookie, t) ∈ airohaFlowTableEntriesLan (flowTable history) walk dev ↔
      walk.Reaches cookie ∧ ∃ e, flowTable history cookie = some e ∧ e.data.BoundRouted ∧
        (airohaGetLanId dev = (recorded history cookie).keptEgress ∨
          airohaGetLanId dev = (recorded history cookie).keptIngress) ∧ t = e.data.origTuple := by
  unfold airohaFlowTableEntriesLan Walk.Reaches
  by_cases hstart : walk.startAgain = true
  · simp [hstart]
  · rw [if_neg hstart, mem_flowTableWalk, Bool.eq_false_iff.mpr hstart]
    simp only [true_and]
    refine and_congr_right fun _ => exists_congr fun e => and_congr_right fun he => ?_
    obtain ⟨hegress, hingress⟩ := flowTable_keepsNumbers history cookie e he
    rw [flowTableEntryLan_iff, hegress, hingress]
    tauto

/-- Whether an entry is judged rightly, by the name of the link. -/
theorem not_misjudged_iff {ports : NetDevice → Nat → Option NetDevice} {cookie : Nat}
    {r : Recorded} :
    ¬ Misjudged ports walk cookie r dev ↔
      (walk.Reaches cookie ∧
        (airohaGetLanId dev = r.keptEgress ∨ airohaGetLanId dev = r.keptIngress) ↔
        r.IsFor ports dev) := by
  by_cases hname : dev.Named
  · rw [egressSays_iff hname, ingressSays_iff hname]
    constructor
    · intro h
      constructor
      · intro ⟨hreach, hsays⟩
        by_contra hfor
        exact h (.mistaken hname hreach hfor hsays)
      · intro hfor
        have hreach : walk.Reaches cookie := by
          by_contra hno
          exact h (.unreached hfor hno)
        refine ⟨hreach, ?_⟩
        by_contra hno
        rw [not_or] at hno
        exact h (.unseen hname hfor hno.1 hno.2)
    · intro h hbad
      cases hbad with
      | unreached hfor hno => exact hno (h.mpr hfor).1
      | unseen _ hfor hegress hingress => exact (h.mpr hfor).2.elim hegress hingress
      | mistaken _ hreach hfor hsays => exact hfor (h.mp ⟨hreach, hsays⟩)
      | numbered hno => exact hno hname
      | blank hno => exact hno hname
  · have hzero : airohaGetLanId dev = 0 := not_not.mp hname
    rw [hzero, eq_comm (b := r.keptEgress), eq_comm (b := r.keptIngress), egressBlank_iff,
      ingressBlank_iff]
    constructor
    · intro h
      constructor
      · intro ⟨hreach, hblank⟩
        by_contra hfor
        exact h (.blank hname hreach hfor hblank)
      · intro hfor
        have hreach : walk.Reaches cookie := by
          by_contra hno
          exact h (.unreached hfor hno)
        refine ⟨hreach, ?_⟩
        by_contra hno
        rw [not_or] at hno
        exact h (.numbered hname hfor hno.1 hno.2)
    · intro h hbad
      cases hbad with
      | unreached hfor hno => exact hno (h.mpr hfor).1
      | unseen hno => exact hname hno
      | mistaken hno => exact hname hno
      | numbered _ hfor hegress hingress => exact (h.mpr hfor).2.elim hegress hingress
      | blank _ hreach hfor hblank => exact hfor (h.mp ⟨hreach, hblank⟩)

/-- The flows of the link and no others are deleted exactly when no bound flow is misjudged. -/
theorem deletesRight_iff (ports : NetDevice → Nat → Option NetDevice) (history : List FlowEvent)
    (walk : Walk) (dev : NetDevice) :
    DeletesRight ports history walk dev ↔
      ∀ cookie e, flowTable history cookie = some e → e.data.BoundRouted →
        ¬ Misjudged ports walk cookie (recorded history cookie) dev := by
  constructor
  · intro h cookie e he hbound
    have hc := h cookie e.data.origTuple
    rw [mem_entriesLan] at hc
    rw [not_misjudged_iff]
    constructor
    · rintro ⟨hreach, hnum⟩
      obtain ⟨_, _, _, hfor, _⟩ := hc.mp ⟨hreach, e, he, hbound, hnum, rfl⟩
      exact hfor
    · intro hfor
      obtain ⟨hreach, _, _, _, hnum, _⟩ := hc.mpr ⟨e, he, hbound, hfor, rfl⟩
      exact ⟨hreach, hnum⟩
  · intro h cookie t
    rw [mem_entriesLan]
    constructor
    · rintro ⟨hreach, e, he, hbound, hnum, ht⟩
      exact ⟨e, he, hbound, (not_misjudged_iff.mp (h cookie e he hbound)).mp ⟨hreach, hnum⟩, ht⟩
    · rintro ⟨e, he, hbound, hfor, ht⟩
      obtain ⟨hreach, hnum⟩ := (not_misjudged_iff.mp (h cookie e he hbound)).mpr hfor
      exact ⟨hreach, e, he, hbound, hnum, ht⟩

/-- The device's name is its own: no other device recorded has it, every egress device has a known
name or is a PON device, no flow is to CDM4, and each frame came with the tag of its port. -/
structure OwnName (ports : NetDevice → Nat → Option NetDevice) (r : Recorded) (dev : NetDevice) :
    Prop where
  named : dev.Named
  egress : ∀ x ∈ r.egress, x.Numbered ∧ x.cdm4 = false ∧
    (airohaGetLanId x.dev = airohaGetLanId dev ↔ x.dev = dev)
  ingress : ∀ x ∈ r.ingress, ingressNumber x = airohaGetLanId dev ↔ x.device ports = dev

theorem egressSays_of_ownName {ports : NetDevice → Nat → Option NetDevice} {r : Recorded}
    (h : OwnName ports r dev) : r.EgressSays dev ↔ r.egressDev = some dev := by
  have hall : (r.egress.filter fun x => decide x.Numbered) = r.egress := by
    rw [List.filter_eq_self]
    intro x hx
    exact decide_eq_true (h.egress x hx).1
  unfold Recorded.EgressSays Recorded.lastNumbered Recorded.egressDev
  rw [hall]
  cases hlast : r.egress.getLast? with
  | none => simp
  | some x =>
    have hx := h.egress x (List.mem_of_getLast? hlast)
    simp [hx.2.1, hx.2.2]

theorem ingressSays_of_ownName {ports : NetDevice → Nat → Option NetDevice} {r : Recorded}
    (h : OwnName ports r dev) : r.IngressSays dev ↔ r.ingressDev ports = some dev := by
  rw [← ingressSays_iff h.named]
  unfold Recorded.keptIngress Recorded.ingressDev
  cases hlast : r.ingress.getLast? with
  | none =>
    simp only [Option.map_none, Option.getD_none, reduceCtorEq, iff_false]
    exact h.named
  | some x =>
    have hx := h.ingress x (List.mem_of_getLast? hlast)
    simp only [Option.map_some, Option.getD_some, Option.some.injEq]
    rw [← hx, eq_comm]

/-- A walk that goes through finds the flows of a device whose name is its own. -/
theorem deletesRight_of_ownName {ports : NetDevice → Nat → Option NetDevice}
    (hvisits : walk.Visits (flowTable history)) (hstart : walk.startAgain = false)
    (hnext : none ∉ walk.next) (hown : ∀ cookie, OwnName ports (recorded history cookie) dev) :
    DeletesRight ports history walk dev := by
  rw [deletesRight_iff]
  intro cookie e he _
  have hall : walk.next.takeWhile Option.isSome = walk.next := by
    rw [List.takeWhile_eq_self_iff]
    intro item hmem
    cases item with
    | none => exact absurd hmem hnext
    | some _ => rfl
  have hreach : walk.Reaches cookie := by
    refine ⟨hstart, ?_⟩
    rw [hall, hvisits, he]
    rfl
  have hname := (hown cookie).named
  rw [not_misjudged_iff, egressSays_iff hname, ingressSays_iff hname,
    egressSays_of_ownName (hown cookie), ingressSays_of_ownName (hown cookie)]
  exact and_iff_right hreach

end

/-! ## §8 Flows that are missed and flows that are hit -/

def lan1 : NetDevice := { name := ['l', 'a', 'n', '1'], vlanRealName := none }
def pon0 : NetDevice := { name := ['p', 'o', 'n', '0'], vlanRealName := none }

/-- A bound flow to lan1, with no ingress recorded. -/
def lanFlow : List FlowEvent :=
  [.create 7 (Vector.replicate 20 0x20000000#32), .egress (some lan1) (some 7)]

/-- A resize before the flow is reached hides it when lan1 goes down; the link of pon0, which the
flow does not touch, deletes it. -/
theorem not_deletesRight_lanFlow :
    ¬ DeletesRight (fun _ _ => none) lanFlow { startAgain := false, next := [none, some 7] } lan1 ∧
      ¬ DeletesRight (fun _ _ => none) lanFlow { startAgain := false, next := [some 7] } pon0 := by
  have hentry : flowTable lanFlow 7 = some
      { eMagic := magicLan1, ingressDevIdx := 0, data := Vector.replicate 20 0x20000000#32 } := by
    rfl
  have hbound : FoeEntry.BoundRouted (Vector.replicate 20 0x20000000#32) := by
    unfold FoeEntry.BoundRouted
    decide
  constructor
  · intro h
    have hmem := (h 7 _).mpr ⟨_, hentry, hbound, Or.inl rfl, rfl⟩
    exact absurd hmem List.not_mem_nil
  · intro h
    have hzero : airohaGetLanId pon0 = (recorded lanFlow 7).keptIngress := rfl
    have hreach : Walk.Reaches { startAgain := false, next := [some 7] } 7 :=
      ⟨rfl, List.mem_cons_self⟩
    have hmem := mem_entriesLan.mpr ⟨hreach, _, hentry, hbound, Or.inr hzero, rfl⟩
    obtain ⟨_, _, _, hfor, _⟩ := (h 7 _).mp hmem
    rcases hfor with hegress | hingress
    · exact absurd hegress (by decide)
    · cases hingress

end Airoha.Ppe
