/-
Airoha.Dp.Priority — which packets go to the first transmit queue.

Translates `isPriorityPkt` of `arht_dp_api.c`. The parser walks a pointer
`cp` over the frame: up to two 802.1Q tags, then PPPoE, ARP, IPv6 or IPv4.
Its two labels are definitions here, `ipHeader` for the IPv4 part and
`ipv6Header` for what both IP versions run into, called with the pointer and
the variables set so far.

What is asked of it is that a packet is judged alike however it is carried.
The two ways of carrying IPv6 differ in one test, that for DNS.

The frame is the list of its bytes from `skb->data` on; a read behind the end
gives none. Ports and types are compared as numbers, where the source has both
sides in the order of the wire.
-/
import Airoha.Lib.Frame

namespace Airoha.Dp

open Airoha.Lib

/-! ## The parser -/

/-- `ICMPV6_ROUTE_SOL`, `ICMPV6_ROUTE_ADV`, `ICMPV6_NEIGH_SOL` and `ICMPV6_NEIGH_ADV`. -/
def isNeighDiscovery (ipv6Type : BitVec 8) : Bool :=
  ipv6Type == 133 || ipv6Type == 134 || ipv6Type == 135 || ipv6Type == 136

/-- The header length `(ipVerLen & 0x0f) << 2`. -/
def headerLen (ipVerLen : BitVec 8) : Nat := ((ipVerLen &&& 0x0f#8).toNat) <<< 2

/-- From `ipv6_header:` on. -/
def ipv6Header (f : List (BitVec 8)) (cp : Nat) (ipVerLen ipProtocol ipv6Type : BitVec 8) :
    Option Nat := do
  if isNeighDiscovery ipv6Type then return 1
  if ipProtocol = 17#8 then
    let sport ← rd16 f (cp + headerLen ipVerLen)
    let dport ← rd16 f (cp + headerLen ipVerLen + 2)
    if sport = 0x0223#16 ∧ dport = 0x0222#16 then return 1
    if sport = 0x0222#16 ∧ dport = 0x0223#16 then return 1
  if ipProtocol ≠ 6#8 then return 0
  let tcpFlags ← rd8 f (cp + headerLen ipVerLen + 13)
  if tcpFlags &&& 0x01#8 = 0x01#8 ∨ tcpFlags &&& 0x02#8 = 0x02#8 ∨ tcpFlags &&& 0x04#8 = 0x04#8 then
    return 1
  return 0

/-- From the version check of IPv4 on. -/
def ipv4Header (f : List (BitVec 8)) (cp : Nat) : Option Nat := do
  let ipVerLen ← rd8 f cp
  if ipVerLen &&& 0xf0#8 ≠ 0x40#8 then return 0
  let ipProtocol ← rd8 f (cp + 9)
  if ipProtocol = 0x11#8 then
    let sport ← rd16 f (cp + headerLen ipVerLen)
    let dport ← rd16 f (cp + headerLen ipVerLen + 2)
    if sport = 68#16 ∧ dport = 67#16 ∨ sport = 67#16 ∧ dport = 68#16 then return 1
    if dport = 0x0035#16 then return 1
  if ipProtocol = 2#8 ∨ ipProtocol = 1#8 then return 1
  ipv6Header f cp ipVerLen ipProtocol 0#8

/-- What follows the Ethernet and PPPoE headers, if not IPv6. -/
def ipHeader (f : List (BitVec 8)) (cp : Nat) : Option Nat := do
  let pppProtocol ← rd16 f cp
  if pppProtocol = 0xc021#16 then return 1
  if pppProtocol = 0x0021#16 then ipv4Header f (cp + 2)
  else ipv4Header f cp

/-- `ipv6_type`, read for ICMPv6 only. -/
def ipv6Type (f : List (BitVec 8)) (cp : Nat) (ipProtocol : BitVec 8) : Option (BitVec 8) :=
  if ipProtocol = 0x3a#8 then rd8 f cp else some 0#8

/-- PPP protocol `0x0057`, from the packet on. -/
def pppIpv6 (f : List (BitVec 8)) (cp : Nat) : Option Nat := do
  let ipProtocol ← rd8 f (cp + 6)
  let type ← ipv6Type f (cp + 40) ipProtocol
  ipv6Header f (cp + 40) 0#8 ipProtocol type

/-- Ether type `0x86dd`, from the packet on. -/
def etherIpv6 (f : List (BitVec 8)) (cp : Nat) : Option Nat := do
  let ipv6Protocol ← rd8 f (cp + 6)
  let type ← ipv6Type f (cp + 40) ipv6Protocol
  if ipv6Protocol = 0x11#8 then
    let dport ← rd16 f (cp + 40 + 2)
    if dport = 0x0035#16 then return 1
  ipv6Header f (cp + 40) 0#8 ipv6Protocol type

/-- A PPPoE session frame, from its header on. -/
def pppoeSession (f : List (BitVec 8)) (cp : Nat) : Option Nat := do
  let pppProtocol ← rd16 f (cp + 6)
  if pppProtocol = 0xc021#16 ∨ pppProtocol = 0x8021#16 ∨ pppProtocol = 0x8057#16 ∨
      pppProtocol = 0xc223#16 ∨ pppProtocol = 0xc057#16 then
    return 1
  if pppProtocol = 0x0057#16 then pppIpv6 f (cp + 6 + 2)
  else if pppProtocol ≠ 0x0021#16 then return 0
  else ipHeader f (cp + 6 + 2)

/-- What follows the ether type. -/
def etherPayload (f : List (BitVec 8)) (cp : Nat) (etherType : BitVec 16) : Option Nat :=
  if etherType = 0x8864#16 then pppoeSession f cp
  else if etherType = 0x8863#16 then some 1
  else if etherType = 0x0806#16 then some 1
  else if etherType = 0x86dd#16 then etherIpv6 f cp
  else if etherType ≠ 0x0800#16 then some 0
  else ipHeader f cp

/-- "parse if vlan exists": the pointer and the ether type behind a tag, if there is one. -/
def skipVlan (f : List (BitVec 8)) (cp : Nat) (etherType : BitVec 16) :
    Option (Nat × BitVec 16) := do
  if etherType = 0x8100#16 then
    let etherType ← rd16 f (cp + 2)
    return (cp + 2 + 2, etherType)
  return (cp, etherType)

/-- `isPriorityPkt`. Ports and protocols are compared in network order. -/
def isPriorityPkt (f : List (BitVec 8)) : Option Nat := do
  let etherType ← rd16 f 12
  let (cp, etherType) ← skipVlan f 14 etherType
  let (cp, etherType) ← skipVlan f cp etherType
  etherPayload f cp etherType

/-! ## Behind a header -/

section Behind

variable (pre p : List (BitVec 8)) (k : Nat)

theorem ipv6Header_append (v pr t : BitVec 8) :
    ipv6Header (pre ++ p) (pre.length + k) v pr t = ipv6Header p k v pr t := by
  simp only [ipv6Header, Nat.add_assoc, rd8_append, rd16_append]

theorem ipv4Header_append : ipv4Header (pre ++ p) (pre.length + k) = ipv4Header p k := by
  simp only [ipv4Header, Nat.add_assoc, rd8_append, rd16_append, ipv6Header_append]

theorem ipHeader_append : ipHeader (pre ++ p) (pre.length + k) = ipHeader p k := by
  simp only [ipHeader, Nat.add_assoc, rd16_append, ipv4Header_append]

theorem ipv6Type_append (pr : BitVec 8) :
    ipv6Type (pre ++ p) (pre.length + k) pr = ipv6Type p k pr := by
  simp only [ipv6Type, rd8_append]

theorem pppIpv6_append : pppIpv6 (pre ++ p) (pre.length + k) = pppIpv6 p k := by
  simp only [pppIpv6, Nat.add_assoc, rd8_append, ipv6Type_append, ipv6Header_append]

theorem etherIpv6_append : etherIpv6 (pre ++ p) (pre.length + k) = etherIpv6 p k := by
  simp only [etherIpv6, Nat.add_assoc, rd8_append, rd16_append, ipv6Type_append,
    ipv6Header_append]

end Behind

/-! ## Frames -/

/-- The IP version of a packet. -/
inductive Version where
  | ipv4
  | ipv6
deriving DecidableEq, Repr

/-- Its ether type. -/
def Version.etherType : Version → BitVec 16
  | .ipv4 => 0x0800#16
  | .ipv6 => 0x86dd#16

/-- Its PPP protocol. -/
def Version.pppProtocol : Version → BitVec 16
  | .ipv4 => 0x0021#16
  | .ipv6 => 0x0057#16

/-- What a packet is carried in: both MAC addresses, up to two 802.1Q tags, and a PPPoE header
or none. -/
structure Encap where
  macs : Vector (BitVec 8) 12
  tags : List (BitVec 16)
  tags_le : tags.length ≤ 2
  pppoe : Option (Vector (BitVec 8) 6)

/-- An 802.1Q tag. -/
def vlanTag (tci : BitVec 16) : List (BitVec 8) := be16 0x8100#16 ++ be16 tci

/-- The addresses and the tags. -/
def Encap.link (e : Encap) : List (BitVec 8) := e.macs.toList ++ e.tags.flatMap vlanTag

/-- The frame that carries the packet. -/
def Encap.frame (e : Encap) (ver : Version) (p : List (BitVec 8)) : List (BitVec 8) :=
  match e.pppoe with
  | none => e.link ++ (be16 ver.etherType ++ p)
  | some hdr => e.link ++ (be16 0x8864#16 ++ (hdr.toList ++ (be16 ver.pppProtocol ++ p)))

theorem length_link (e : Encap) : e.link.length = 12 + 4 * e.tags.length := by
  have h : ∀ tags : List (BitVec 16), (tags.flatMap vlanTag).length = 4 * tags.length := by
    intro tags
    induction tags with
    | nil => rfl
    | cons t tags ih =>
      rw [List.flatMap_cons, List.length_append, ih, List.length_cons]
      simp only [vlanTag, be16, List.length_append, List.length_cons, List.length_nil]
      omega
  rw [Encap.link, List.length_append, h, Vector.length_toList]

/-- The parser gets past the tags, if there are no more than two. -/
theorem isPriorityPkt_link (e : Encap) {et : BitVec 16} (het : et ≠ 0x8100#16)
    (rest : List (BitVec 8)) : isPriorityPkt (e.link ++ (be16 et ++ rest)) =
      etherPayload (e.link ++ (be16 et ++ rest)) (e.link.length + 2) et := by
  obtain ⟨macs, tags, hle, pppoe⟩ := e
  have hm : macs.toList.length = 12 := Vector.length_toList
  have hlen := length_link ⟨macs, tags, hle, pppoe⟩
  generalize hf : Encap.link ⟨macs, tags, hle, pppoe⟩ ++ (be16 et ++ rest) = f
  rw [hlen]
  match tags, hle with
  | [], _ =>
    have h12 : rd16 f 12 = some et := rd16_be16 _ rest hf.symm hlen
    simp [isPriorityPkt, h12, skipVlan, het]
  | [t], _ =>
    have hf' : f = macs.toList ++ (be16 0x8100#16 ++ (be16 t ++ (be16 et ++ rest))) := by
      rw [← hf]
      simp only [Encap.link, List.flatMap_cons, List.flatMap_nil, vlanTag, List.append_assoc,
        List.nil_append]
    have h12 : rd16 f 12 = some 0x8100#16 := rd16_be16 _ _ hf' hm
    have h16 : rd16 f 16 = some et := rd16_be16 _ rest hf.symm hlen
    simp [isPriorityPkt, h12, h16, skipVlan, het]
  | [t, t'], _ =>
    have hf' : f = macs.toList ++ (be16 0x8100#16 ++ (be16 t ++ (be16 0x8100#16 ++
        (be16 t' ++ (be16 et ++ rest))))) := by
      rw [← hf]
      simp only [Encap.link, List.flatMap_cons, List.flatMap_nil, vlanTag, List.append_assoc,
        List.nil_append]
    have hf'' : f = (macs.toList ++ vlanTag t) ++ (be16 0x8100#16 ++
        (be16 t' ++ (be16 et ++ rest))) := by
      rw [hf']
      simp only [vlanTag, List.append_assoc]
    have h12 : rd16 f 12 = some 0x8100#16 := rd16_be16 _ _ hf' hm
    have h16 : rd16 f 16 = some 0x8100#16 := rd16_be16 _ _ hf'' (by
      rw [List.length_append, hm]
      rfl)
    have h20 : rd16 f 20 = some et := rd16_be16 _ rest hf.symm hlen
    simp [isPriorityPkt, h12, h16, h20, skipVlan]

/-- What is left to decide on the packet. -/
def Encap.decide (e : Encap) : Version → List (BitVec 8) → Option Nat
  | .ipv4, p => ipHeader p 0
  | .ipv6, p => if e.pppoe.isSome then pppIpv6 p 0 else etherIpv6 p 0

/-- The parser gets to the packet, by whatever headers. -/
theorem isPriorityPkt_frame (e : Encap) (ver : Version) (p : List (BitVec 8)) :
    isPriorityPkt (e.frame ver p) = e.decide ver p := by
  unfold Encap.frame Encap.decide
  cases hp : e.pppoe with
  | none =>
    have het : ver.etherType ≠ 0x8100#16 := by cases ver <;> decide
    have hlen : (e.link ++ be16 ver.etherType).length = e.link.length + 2 := by simp [be16]
    rw [isPriorityPkt_link e het, ← List.append_assoc, ← hlen]
    cases ver with
    | ipv4 => exact ipHeader_append _ p 0
    | ipv6 => exact etherIpv6_append _ p 0
  | some hdr =>
    have hlen : (e.link ++ (be16 0x8864#16 ++ (hdr.toList ++ be16 ver.pppProtocol))).length =
        e.link.length + 2 + 6 + 2 := by simp [be16]
    have hproto : rd16 (e.link ++ (be16 0x8864#16 ++ (hdr.toList ++ (be16 ver.pppProtocol ++ p))))
        (e.link.length + 2 + 6) = some ver.pppProtocol :=
      rd16_be16 (e.link ++ (be16 0x8864#16 ++ hdr.toList)) p (by simp only [List.append_assoc])
        (by simp [be16])
    have hpacket : e.link ++ (be16 0x8864#16 ++ (hdr.toList ++ (be16 ver.pppProtocol ++ p))) =
        (e.link ++ (be16 0x8864#16 ++ (hdr.toList ++ be16 ver.pppProtocol))) ++ p := by
      simp only [List.append_assoc]
    rw [isPriorityPkt_link e (by decide), etherPayload, if_pos rfl, pppoeSession, hproto]
    cases ver with
    | ipv4 =>
      rw [hpacket, ← hlen]
      exact ipHeader_append _ p 0
    | ipv6 =>
      rw [hpacket, ← hlen]
      exact pppIpv6_append _ p 0

/-! ## Judged alike -/

/-- The packet has every byte the parser looks at, and is an IPv4 packet if it is carried as
one. -/
def Whole : Version → List (BitVec 8) → Prop
  | .ipv4, p => 10 ≤ p.length ∧ p.getD 0 0#8 &&& 0xf0#8 = 0x40#8 ∧
      (p.getD 9 0#8 = 17#8 → headerLen (p.getD 0 0#8) + 4 ≤ p.length) ∧
      (p.getD 9 0#8 = 6#8 → headerLen (p.getD 0 0#8) + 14 ≤ p.length)
  | .ipv6, p => 7 ≤ p.length ∧ (p.getD 6 0#8 = 0x3a#8 → 41 ≤ p.length) ∧
      (p.getD 6 0#8 = 17#8 → 44 ≤ p.length) ∧ (p.getD 6 0#8 = 6#8 → 54 ≤ p.length)

/-- The frame is judged alike whatever it is carried in. -/
def JudgedAlike (ver : Version) (p : List (BitVec 8)) : Prop :=
  ∃ v, ∀ e : Encap, isPriorityPkt (e.frame ver p) = some v

/-- UDP to port 53 over IPv6. -/
def IsDnsIpv6 (ver : Version) (p : List (BitVec 8)) : Prop :=
  ver = .ipv6 ∧ p.getD 6 0#8 = 17#8 ∧ p.getD 42 0#8 ++ p.getD 43 0#8 = 0x0035#16

section Judged

variable {p : List (BitVec 8)}

theorem headerLen_zero : headerLen 0#8 = 0 := rfl

/-- With the bytes of the transport header there, the tail decides. -/
theorem ipv6Header_isSome {cp : Nat} {v pr t : BitVec 8}
    (hudp : pr = 17#8 → cp + headerLen v + 4 ≤ p.length)
    (htcp : pr = 6#8 → cp + headerLen v + 14 ≤ p.length) :
    ∃ r, ipv6Header p cp v pr t = some r := by
  unfold ipv6Header
  cases isNeighDiscovery t with
  | true => exact ⟨1, rfl⟩
  | false =>
    rcases eq_or_ne pr 17#8 with rfl | hne
    · have hlen := hudp rfl
      rw [rd16_of_lt (by omega), rd16_of_lt (by omega)]
      simp
      split
      · exact ⟨1, rfl⟩
      · split
        · exact ⟨1, rfl⟩
        · exact ⟨0, rfl⟩
    · rcases eq_or_ne pr 6#8 with rfl | hne'
      · have hlen := htcp rfl
        rw [rd8_of_lt (by omega)]
        simp
        split
        · exact ⟨1, rfl⟩
        · exact ⟨0, rfl⟩
      · simp [hne, hne']

/-- An IPv4 packet does not start with a PPP protocol number. -/
theorem append_ne_of_version {a b : BitVec 8} (h : a &&& 0xf0#8 = 0x40#8) {c : BitVec 16}
    (hc : c.extractLsb' 8 8 &&& 0xf0#8 ≠ 0x40#8) : a ++ b ≠ c := by
  intro heq
  have hhi := congrArg (BitVec.extractLsb' 8 8) heq
  rw [BitVec.extractLsb'_append_eq_left] at hhi
  exact hc (hhi ▸ h)

theorem ipHeader_isSome (h : Whole .ipv4 p) : ∃ r, ipHeader p 0 = some r := by
  obtain ⟨hlen, hver, hudp, htcp⟩ := h
  have h1 := append_ne_of_version hver (b := p.getD 1 0#8) (c := 0xc021#16) (by decide)
  have h2 := append_ne_of_version (b := p.getD 1 0#8) hver (c := 0x0021#16) (by decide)
  rw [ipHeader, rd16_of_lt (by omega)]
  simp only [Option.bind_eq_bind, Option.bind_some, h1, h2, if_false]
  rw [ipv4Header, rd8_of_lt (by omega), rd8_of_lt (by omega)]
  simp only [Option.bind_eq_bind, Option.bind_some, hver, Nat.zero_add, ne_eq, not_true_eq_false,
    if_false]
  have htail : ∃ r, ipv6Header p 0 (p.getD 0 0#8) (p.getD 9 0#8) 0#8 = some r :=
    ipv6Header_isSome (fun h => by rw [Nat.zero_add]; exact hudp h)
      (fun h => by rw [Nat.zero_add]; exact htcp h)
  rcases eq_or_ne (p.getD 9 0#8) 17#8 with h17 | h17
  · have hl := hudp h17
    rw [rd16_of_lt (by omega), rd16_of_lt (by omega)]
    rw [h17] at htail ⊢
    simp only [Option.bind_some, if_true]
    split
    · exact ⟨1, rfl⟩
    · split
      · exact ⟨1, rfl⟩
      · exact htail
  · simp only [h17, if_false]
    split
    · exact ⟨1, rfl⟩
    · exact htail

/-- The type of an ICMPv6 packet is there to be read. -/
theorem ipv6Type_isSome (h : Whole .ipv6 p) : ∃ t, ipv6Type p 40 (p.getD 6 0#8) = some t := by
  obtain ⟨-, hicmp, -, -⟩ := h
  unfold ipv6Type
  split
  · rename_i heq
    have hl := hicmp heq
    exact ⟨_, rd8_of_lt (by omega)⟩
  · exact ⟨0#8, rfl⟩

theorem pppIpv6_isSome (h : Whole .ipv6 p) : ∃ r, pppIpv6 p 0 = some r := by
  obtain ⟨t, ht⟩ := ipv6Type_isSome h
  obtain ⟨hlen, -, hudp, htcp⟩ := h
  rw [pppIpv6, rd8_of_lt (by omega)]
  simp only [Option.bind_eq_bind, Option.bind_some, Nat.zero_add, ht]
  exact ipv6Header_isSome (fun h => by rw [headerLen_zero]; exact hudp h)
    (fun h => by rw [headerLen_zero]; exact htcp h)

/-- Carried directly, IPv6 has the DNS test before what both have. -/
theorem etherIpv6_eq (h : Whole .ipv6 p) : etherIpv6 p 0 =
    if p.getD 6 0#8 = 17#8 ∧ p.getD 42 0#8 ++ p.getD 43 0#8 = 0x0035#16 then some 1
    else pppIpv6 p 0 := by
  obtain ⟨t, ht⟩ := ipv6Type_isSome h
  obtain ⟨hlen, -, hudp, -⟩ := h
  rw [etherIpv6, pppIpv6, rd8_of_lt (by omega)]
  simp only [Option.bind_eq_bind, Option.bind_some, Nat.zero_add, ht]
  rcases eq_or_ne (p.getD 6 0#8) 17#8 with h17 | h17
  · have hl := hudp h17
    rw [rd16_of_lt (by omega)]
    simp only [h17, Option.bind_some, true_and, if_true]
    rfl
  · simp only [h17, false_and, if_false]

/-- In PPPoE a DNS packet is no priority packet. -/
theorem pppIpv6_dns (h : Whole .ipv6 p) (hdns : IsDnsIpv6 .ipv6 p) : pppIpv6 p 0 = some 0 := by
  obtain ⟨-, h17, hport⟩ := hdns
  obtain ⟨hlen, -, hudp, -⟩ := h
  have hl := hudp h17
  have ht : ipv6Type p 40 17#8 = some 0#8 := rfl
  rw [pppIpv6, rd8_of_lt (by omega)]
  simp only [Option.bind_eq_bind, Option.bind_some, Nat.zero_add, h17, ht]
  rw [ipv6Header, headerLen_zero, rd16_of_lt (by omega), rd16_of_lt (by omega)]
  rw [List.getD_eq_getElem?_getD, List.getD_eq_getElem?_getD] at hport
  simp [isNeighDiscovery, hport]

end Judged

/-- An untagged frame. -/
def Encap.plain (pppoe : Option (Vector (BitVec 8) 6)) : Encap where
  macs := Vector.replicate 12 0#8
  tags := []
  tags_le := Nat.zero_le 2
  pppoe := pppoe

/-- A packet is judged alike in all frames exactly when it is not DNS over IPv6. -/
theorem judgedAlike_iff {ver : Version} {p : List (BitVec 8)} (h : Whole ver p) :
    JudgedAlike ver p ↔ ¬ IsDnsIpv6 ver p := by
  cases ver with
  | ipv4 =>
    obtain ⟨r, hr⟩ := ipHeader_isSome h
    constructor
    · intro _ hdns
      cases hdns.1
    · intro _
      refine ⟨r, fun e => ?_⟩
      rw [isPriorityPkt_frame]
      exact hr
  | ipv6 =>
    constructor
    · intro halike hdns
      obtain ⟨v, hv⟩ := halike
      have h1 := hv (Encap.plain none)
      have h0 := hv (Encap.plain (some (Vector.replicate 6 0#8)))
      rw [isPriorityPkt_frame] at h0 h1
      have h1' : etherIpv6 p 0 = some v := h1
      have h0' : pppIpv6 p 0 = some v := h0
      rw [etherIpv6_eq h, if_pos hdns.2] at h1'
      rw [pppIpv6_dns h hdns] at h0'
      cases h1'
      cases h0'
    · intro hdns
      obtain ⟨r, hr⟩ := pppIpv6_isSome h
      refine ⟨r, fun e => ?_⟩
      have hether : etherIpv6 p 0 = some r := by
        rw [etherIpv6_eq h, if_neg fun hh => hdns ⟨rfl, hh⟩]
        exact hr
      rw [isPriorityPkt_frame, Encap.decide]
      split
      · exact hr
      · exact hether

/-! ## DNS over IPv6 -/

/-- An IPv6 header with next header UDP, and a UDP header to port 53. -/
def dnsQuery : List (BitVec 8) :=
  [0x60#8, 0#8, 0#8, 0#8, 0#8, 8#8, 17#8, 64#8] ++ List.replicate 32 0#8 ++
    [0xc0#8, 0x00#8, 0x00#8, 0x35#8, 0#8, 8#8, 0#8, 0#8]

theorem whole_dnsQuery : Whole .ipv6 dnsQuery := by
  refine ⟨?_, ?_, ?_, ?_⟩ <;> decide

/-- Without PPPoE the query goes to the first queue, in PPPoE it does not. -/
theorem not_judgedAlike_dnsQuery : ¬ JudgedAlike .ipv6 dnsQuery := by
  rintro ⟨v, hv⟩
  have h1 : isPriorityPkt ((Encap.plain none).frame .ipv6 dnsQuery) = some 1 := by decide
  have h0 : isPriorityPkt ((Encap.plain (some (Vector.replicate 6 0#8))).frame .ipv6 dnsQuery) =
      some 0 := by decide
  rw [hv] at h0 h1
  cases h1
  cases h0

theorem judgedAlike_iff_dnsQuery :
    JudgedAlike .ipv6 dnsQuery ↔ ¬ IsDnsIpv6 .ipv6 dnsQuery :=
  judgedAlike_iff whole_dnsQuery

end Airoha.Dp
