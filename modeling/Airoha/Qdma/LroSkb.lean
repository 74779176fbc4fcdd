/-
Airoha.Qdma.LroSkb — the skb of an aggregated TCP frame.

Translates `airoha_qdma_lro_rx_skb`. The hardware has put the payloads of several
segments behind the headers of the first; the headers are made those of one
large segment, copied, and the payload stays where it is. `l2_len` has 16 bits,
the other lengths 32, and a comparison with a `sizeof` is made in 64.

The buffer is a `Window`: an access behind its end gives none. The page the
payload stays in and what the caller does with the skb are left out.
-/
import Airoha.Lib.Csum

namespace Airoha.Qdma.LroSkb

open Airoha.Lib

/-! ## The descriptor -/

/-- `struct airoha_qdma_desc`, of the fields that are read. -/
structure QdmaDesc where
  tcpTsReply : BitVec 32
  ctrl : BitVec 32
  data : BitVec 32
  msg1 : BitVec 32
  msg2 : BitVec 32
  msg3 : BitVec 32

variable (desc : QdmaDesc)

/-- `QDMA_ETH_RXMSG_IP4_MASK`, bit 29. -/
def QdmaDesc.ipv4 : Bool := desc.msg1.getLsbD 29

/-- `QDMA_ETH_RXMSG_IP6_MASK`, bit 30. -/
def QdmaDesc.ipv6 : Bool := desc.msg1.getLsbD 30

/-- `QDMA_DESC_LEN_MASK`, `GENMASK(15, 0)`. -/
def QdmaDesc.len : Nat := (fieldGet 0 16 desc.ctrl).toNat

/-- `QDMA_ETH_RXMSG_L2_LEN_MASK`, `GENMASK(6, 0)`, less 14, in the 16 bits of `l2_len`. -/
def QdmaDesc.l2Len : Nat := ((fieldGet 0 7 desc.msg2 - 14#32).setWidth 16).toNat

/-- `QDMA_ETH_RXMSG_AGG_COUNT_MASK`, `GENMASK(31, 24)`. -/
def QdmaDesc.aggCount : Nat := (fieldGet 24 8 desc.msg2).toNat

/-- `QDMA_ETH_RXMSG_TCP_WIN_MASK`, `GENMASK(15, 0)`. -/
def QdmaDesc.tcpWin : BitVec 16 := (fieldGet 0 16 desc.msg3).setWidth 16

/-! ## Numbers -/

/-- A sum in a `u32`. -/
def u32 (n : Nat) : Nat := n % 2 ^ 32

/-- A difference in a `u32`. -/
def sub32 (a b : Nat) : Nat := (a + 2 ^ 32 - b) % 2 ^ 32

/-- `cpu_to_be16` of a `u32`. -/
def cpuToBe16 (n : Nat) : BitVec 16 := BitVec.ofNat 16 n

/-- `DIV_ROUND_UP` -/
def divRoundUp (n d : Nat) : Nat := u32 (n + d - 1) / d

/-! ## Checksums -/

/-- `ip_fast_csum`, of `ihl` words of 32 bits. -/
def ipFastCsum (lim : Nat) (m : Mem) (iph ihl : Nat) : Option (BitVec 16) := do
  within lim iph (4 * ihl)
  return csumFold (wordSum m iph (2 * ihl))

/-- `tcp_v4_check` with a base of 0: the addresses, the protocol and the length. -/
def tcpV4Check (lim : Nat) (m : Mem) (len saddr daddr : Nat) : Option (BitVec 16) := do
  within lim saddr 4
  within lim daddr 4
  return csumFold (wordSum m saddr 2 + wordSum m daddr 2 + 6 + len)

/-- `tcp_v6_check` with a base of 0. -/
def tcpV6Check (lim : Nat) (m : Mem) (len saddr daddr : Nat) : Option (BitVec 16) := do
  within lim saddr 16
  within lim daddr 16
  return csumFold (wordSum m saddr 8 + wordSum m daddr 8 + 6 + len)

/-! ## The headers -/

/-- `iph->ihl` -/
def ihl (b : BitVec 8) : Nat := (fieldGet 0 4 b).toNat

/-- `th->doff` -/
def doff (b : BitVec 8) : Nat := (fieldGet 4 4 b).toNat

/-- The IPv4 header, none for NULL, else `th_off`. -/
def ipv4Header (lim len l2Len : Nat) (m : Mem) : Option (Option Nat × Mem) := do
  if len < l2Len + 20 then return (none, m)
  let protocol ← ld8 lim m (l2Len + 9)
  if protocol ≠ 6#8 then return (none, m)
  let verIhl ← ld8 lim m l2Len
  if ihl verIhl < 5 then return (none, m)
  let thOff := u32 (l2Len + ihl verIhl * 4)
  if len < thOff then return (none, m)
  let m ← st16 lim m (l2Len + 2) (cpuToBe16 (sub32 len l2Len))
  let m ← st16 lim m (l2Len + 10) 0#16
  let check ← ipFastCsum lim m l2Len (ihl verIhl)
  let m ← st16 lim m (l2Len + 10) check
  return (some thOff, m)

/-- The IPv6 header. -/
def ipv6Header (lim len l2Len : Nat) (m : Mem) : Option (Option Nat × Mem) := do
  let thOff := u32 (l2Len + 40)
  if len < thOff then return (none, m)
  let nexthdr ← ld8 lim m (l2Len + 6)
  if nexthdr ≠ 6#8 then return (none, m)
  let m ← st16 lim m (l2Len + 4) (cpuToBe16 (sub32 len thOff))
  return (some thOff, m)

/-- The reply of a timestamp option that is the only option: `ptr` is behind `tsval`. -/
def tsReply (lim thOff doff : Nat) (m : Mem) : Option Mem :=
  if doff = (20 + 12) / 4 then do
    let topt ← ld32 lim m (thOff + 20)
    if topt = 0x0101080a#32 then st32 lim m (thOff + 20 + 2 * 4) desc.tcpTsReply else return m
  else return m

/-- The check over the addresses of the IP header. -/
def tcpCheck (lim len l2Len : Nat) (m : Mem) : Option (BitVec 16) :=
  if desc.ipv4 then tcpV4Check lim m len (l2Len + 12) (l2Len + 16)
  else tcpV6Check lim m len (l2Len + 8) (l2Len + 24)

/-- The TCP header, none for NULL, else `data_off`. -/
def tcpHeader (lim len l2Len thOff : Nat) (m : Mem) : Option (Option Nat × Mem) := do
  if len < thOff + 20 then return (none, m)
  let off ← ld8 lim m (thOff + 12)
  if doff off < 5 then return (none, m)
  let dataOff := u32 (thOff + doff off * 4)
  if len < dataOff then return (none, m)
  let m ← st32 lim m (thOff + 8) desc.data
  let m ← st16 lim m (thOff + 14) desc.tcpWin
  let m ← tsReply desc lim thOff (doff off) m
  let check ← tcpCheck desc lim (sub32 len thOff) l2Len m
  let m ← st16 lim m (thOff + 16) (~~~check)
  return (some dataOff, m)

/-! ## The skb -/

/-- A skb: its linear part, the place and size of its fragment in the buffer, and what is said of it
in `skb_shared_info`. `csumStart` counts from the first byte. -/
structure Skb where
  head : Mem
  headLen : Nat
  fragOff : Nat
  fragLen : Nat
  tcpV4 : Bool
  gsoSize : BitVec 16
  gsoSegs : BitVec 16
  csumStart : Nat
  csumOffset : Nat

/-- Behind the headers. `alloc` says whether `napi_alloc_skb` comes through. -/
def buildSkb (lim len thOff dataOff : Nat) (alloc : Bool) (m : Mem) : Option (Option Skb) := do
  if !alloc then return none
  let head ← memcpy lim m dataOff
  let dataLen := sub32 len dataOff
  return some {
    head := head
    headLen := dataOff
    fragOff := dataOff
    fragLen := dataLen
    tcpV4 := desc.ipv4
    gsoSize := BitVec.ofNat 16 (divRoundUp dataLen desc.aggCount)
    gsoSegs := BitVec.ofNat 16 desc.aggCount
    csumStart := thOff
    csumOffset := 16 }

/-- `airoha_qdma_lro_rx_skb`, and the buffer behind it; none is an access at or beyond `lim`. -/
def airohaQdmaLroRxSkb (lim : Nat) (alloc : Bool) (m : Mem) : Option (Option Skb × Mem) := do
  if !desc.ipv4 && !desc.ipv6 then return (none, m)
  let ip ←
    if desc.ipv4 then ipv4Header lim desc.len desc.l2Len m
    else ipv6Header lim desc.len desc.l2Len m
  match ip with
  | (none, m) => return (none, m)
  | (some thOff, m) =>
      match ← tcpHeader desc lim desc.len desc.l2Len thOff m with
      | (none, m) => return (none, m)
      | (some dataOff, m) =>
          return (← buildSkb desc lim desc.len thOff dataOff alloc m, m)

/-! ## What is meant -/

/-- Where the TCP header is. -/
def thAt (m : Mem) : Nat := desc.l2Len + if desc.ipv4 then 4 * ihl (m desc.l2Len) else 40

/-- Where the payload is. -/
def dataAt (m : Mem) : Nat := thAt desc m + 4 * doff (m (thAt desc m + 12))

/-- The buffer holds an IP header with TCP behind it, whole within the length. -/
structure Accepts (m : Mem) : Prop where
  ip : (desc.ipv4 = true ∧ m (desc.l2Len + 9) = 6#8 ∧ 5 ≤ ihl (m desc.l2Len)) ∨
    (desc.ipv4 = false ∧ desc.ipv6 = true ∧ m (desc.l2Len + 6) = 6#8)
  tcp : thAt desc m + 20 ≤ desc.len
  doff : 5 ≤ doff (m (thAt desc m + 12))
  options : dataAt desc m ≤ desc.len

/-- The TCP options are one timestamp, behind two NOPs. -/
def LoneTimestamp (m : Mem) : Prop :=
  doff (m (thAt desc m + 12)) = 8 ∧ get32 m (thAt desc m + 20) = 0x0101080a#32

/-- The bytes that may change: total length and checksum of IPv4 or payload length of IPv6,
acknowledgement, window and checksum of TCP, and the echo reply of a lone timestamp. -/
def MayChange (m : Mem) (i : Nat) : Prop :=
  (desc.ipv4 = true ∧ ∃ k < 2, i = desc.l2Len + 2 + k ∨ i = desc.l2Len + 10 + k) ∨
    (desc.ipv4 = false ∧ ∃ k < 2, i = desc.l2Len + 4 + k) ∨
    (∃ k < 4, i = thAt desc m + 8 + k) ∨
    (∃ k < 2, i = thAt desc m + 14 + k ∨ i = thAt desc m + 16 + k) ∨
    (LoneTimestamp desc m ∧ ∃ k < 4, i = thAt desc m + 28 + k)

/-- The sum over the pseudo header that `CHECKSUM_PARTIAL` wants in the field. -/
def pseudoSum (head : Mem) (segment : Nat) : BitVec 16 :=
  let addresses :=
    if desc.ipv4 then wordSum head (desc.l2Len + 12) 2 + wordSum head (desc.l2Len + 16) 2
    else wordSum head (desc.l2Len + 8) 8 + wordSum head (desc.l2Len + 24) 8
  ~~~csumFold (addresses + 6 + segment)

/-- The pieces `n` bytes are cut into, each of `g` but the last. -/
def pieces (n g : Nat) : Nat :=
  if h : 0 < n ∧ 0 < g then pieces (n - g) g + 1 else 0
termination_by n
decreasing_by omega

/-- A super-segment of the bytes of `m` below the length. -/
structure SuperSegment (m m' : Mem) (skb : Skb) : Prop where
  headLen : skb.headLen = dataAt desc m
  head : ∀ i < skb.headLen, ¬ MayChange desc m i → skb.head i = m i
  frag : skb.fragOff = dataAt desc m ∧ skb.fragLen = desc.len - dataAt desc m
  payload : ∀ i, dataAt desc m ≤ i → m' i = m i
  ipLen : if desc.ipv4
    then get16 skb.head (desc.l2Len + 2) = BitVec.ofNat 16 (desc.len - desc.l2Len)
    else get16 skb.head (desc.l2Len + 4) = BitVec.ofNat 16 (desc.len - thAt desc m)
  ipCheck : desc.ipv4 = true →
    csumFold (wordSum skb.head desc.l2Len (2 * ihl (skb.head desc.l2Len))) = 0#16
  tcpCheck : get16 skb.head (thAt desc m + 16) =
    pseudoSum desc skb.head (desc.len - thAt desc m)
  csumPartial : skb.csumStart = thAt desc m ∧ skb.csumOffset = 16
  gsoType : skb.tcpV4 = desc.ipv4
  gsoSize : 0 < skb.gsoSize.toNat
  gsoSegs : pieces skb.fragLen skb.gsoSize.toNat = skb.gsoSegs.toNat

/-- No access at or beyond the length, and a super-segment if there is a skb. -/
def LroRight (alloc : Bool) (m : Mem) : Prop :=
  ∃ skb m', airohaQdmaLroRxSkb desc desc.len alloc m = some (skb, m') ∧
    ∀ s, skb = some s → SuperSegment desc m m' s

/-- `n` bytes and `a` pieces: there are some, and what is left over by the division, with the
quotient, makes up for the pieces. -/
def Fills (n a : Nat) : Prop := 0 < n ∧ (n % a = 0 ∨ a ≤ n / a + n % a)

end Airoha.Qdma.LroSkb
