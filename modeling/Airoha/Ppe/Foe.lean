/-
Airoha.Ppe.Foe — the flow table of the packet processing engine.

A FOE entry is eighty bytes, `struct airoha_foe_entry`, that several views
share: which one applies is said by the packet type in `ib1`. The engine
moves an entry as twenty words, so an entry here is its twenty words and a
view says in which word, or half of a word, a field lies. The MAC information
begins at word 11, or behind the longer keys of the IPv6 and `bridge32` views
at word 12. A `u16` is the lower half of a word, or the upper half two bytes
further on.

Of the table the entries below `sramNum` are in the engine's SRAM, with a
copy in `ppe->foe` that is refreshed when the entry is read; a read that the
engine does not acknowledge in time gives `NULL`. The others are in
`ppe->foe` only. A write of the SRAM can time out as well, and the functions
that delete and clear entries drop what the commit returns. What a command
without an acknowledgement leaves in the SRAM the source does not say: it is
lost here.
-/
import Airoha.Lib.Bits
import Airoha.Ppe.Shrink

namespace Airoha.Ppe

open Airoha.Lib

/-! ## Entries -/

/-- `struct airoha_foe_entry`, by words. -/
abbrev FoeEntry := Vector (BitVec 32) 20

instance foeWords_neZero : NeZero 20 := ⟨by decide⟩

/-- The `PPE_PKT_TYPE_`s. 6 is none of them. -/
inductive PktType where
  | ipv4Hnapt
  | ipv4Route
  | bridge
  | ipv4Dslite
  | ipv6Route3t
  | ipv6Route5t
  | reserved
  | ipv66rd
deriving DecidableEq, Repr

/-- The number of a type. -/
def PktType.code : PktType → Nat
  | .ipv4Hnapt => 0
  | .ipv4Route => 1
  | .bridge => 2
  | .ipv4Dslite => 3
  | .ipv6Route3t => 4
  | .ipv6Route5t => 5
  | .reserved => 6
  | .ipv66rd => 7

/-- The type with a number of three bits. -/
def PktType.ofCode : Nat → PktType
  | 0 => .ipv4Hnapt
  | 1 => .ipv4Route
  | 2 => .bridge
  | 3 => .ipv4Dslite
  | 4 => .ipv6Route3t
  | 5 => .ipv6Route5t
  | 6 => .reserved
  | _ => .ipv66rd

/-- The state with a number of two bits. -/
def FoeState.ofCode : Nat → FoeState
  | 0 => .invalid
  | 1 => .unbind
  | 2 => .bind
  | _ => .fin

/-- `&ipv4.l2.common` and `&dslite.l2.common`, or `&ipv6.l2` and `&bridge32.l2`. -/
inductive L2 where
  | ipv4
  | ipv6
deriving DecidableEq, Repr

instance l2Words_neZero : NeZero 8 := ⟨by decide⟩

/-- The `k`th word from there. -/
def L2.at (l2 : L2) (k : Fin 8) : Fin 20 :=
  match l2 with
  | .ipv4 => ⟨11 + k, by omega⟩
  | .ipv6 => ⟨12 + k, by omega⟩

theorem L2.at_inj {l2 : L2} {j k : Fin 8} : l2.at j = l2.at k ↔ j = k := by
  cases l2 <;> revert j k <;> decide

namespace FoeEntry

/-- `ib1` -/
def ib1 (e : FoeEntry) : BitVec 32 := e[0]

/-- `FIELD_GET(AIROHA_FOE_IB1_BIND_STATE, ib1)` -/
def state (e : FoeEntry) : FoeState := FoeState.ofCode (fieldGet 28 2 e.ib1).toNat

/-- `FIELD_GET(AIROHA_FOE_IB1_BIND_PACKET_TYPE, ib1)` -/
def pktType (e : FoeEntry) : PktType := PktType.ofCode (fieldGet 25 3 e.ib1).toNat

/-- `data`, at byte 40 of every view. -/
def data (e : FoeEntry) : BitVec 32 := e[10]

/-! ### The tuples: `ipv4`, `dslite`, `ipv6` -/

/-- `orig_tuple`, or `ip4` of a DS-Lite entry. -/
def origSrcIp (e : FoeEntry) : BitVec 32 := e[1]
def origDestIp (e : FoeEntry) : BitVec 32 := e[2]
def origDestPort (e : FoeEntry) : BitVec 16 := lo16 e[3]
def origSrcPort (e : FoeEntry) : BitVec 16 := hi16 e[3]

/-- `ipv4.new_tuple` -/
def newSrcIp (e : FoeEntry) : BitVec 32 := e[5]
def newDestIp (e : FoeEntry) : BitVec 32 := e[6]
def newDestPort (e : FoeEntry) : BitVec 16 := lo16 e[7]
def newSrcPort (e : FoeEntry) : BitVec 16 := hi16 e[7]

/-- `ipv6.dest_port`, `ipv6.src_port` -/
def ipv6DestPort (e : FoeEntry) : BitVec 16 := lo16 e[9]
def ipv6SrcPort (e : FoeEntry) : BitVec 16 := hi16 e[9]

/-! ### The MAC addresses -/

/-- `l2->dest_mac_hi`, `l2->dest_mac_lo`, `l2->src_mac_hi` -/
def destMacHi (e : FoeEntry) (l2 : L2) : BitVec 32 := e.get (l2.at 1)
def destMacLo (e : FoeEntry) (l2 : L2) : BitVec 16 := hi16 (e.get (l2.at 2))
def srcMacHi (e : FoeEntry) (l2 : L2) : BitVec 32 := e.get (l2.at 3)

/-- `ipv4.l2.src_mac_lo`, `dslite.l2.src_mac_lo` -/
def srcMacLo (e : FoeEntry) : BitVec 16 := hi16 e[15]

/-- The key of a bridged flow, in the view `bridge32`. -/
def bridgeDestMacHi (e : FoeEntry) : BitVec 32 := e[1]
def bridgeDestMacLo (e : FoeEntry) : BitVec 16 := hi16 e[2]
def bridgeSrcMacHi (e : FoeEntry) : BitVec 32 := e[4]
def bridgeSrcMacLo (e : FoeEntry) : BitVec 16 := hi16 e[5]

/-! ### Writing -/

/-- A word written. -/
def put (e : FoeEntry) (k : Fin 20) (v : BitVec 32) : FoeEntry := e.set k v

theorem get_put (e : FoeEntry) (k j : Fin 20) (v : BitVec 32) :
    (e.put k v).get j = if k = j then v else e.get j := by
  simp only [put, Vector.get_eq_getElem, Vector.getElem_set, Fin.ext_iff]

theorem ib1_put_zero (e : FoeEntry) (v : BitVec 32) : (e.put 0 v).ib1 = v :=
  (get_put e 0 0 v).trans (if_pos rfl)

/-- `l2->vlan1`, `l2->etype`, `l2->dest_mac_hi`, `l2->vlan2`, `l2->dest_mac_lo` and
`l2->src_mac_hi`. -/
def putVlan1 (e : FoeEntry) (l2 : L2) (v : BitVec 16) : FoeEntry :=
  e.put (l2.at 0) (putLo16 (e.get (l2.at 0)) v)
def putEtype (e : FoeEntry) (l2 : L2) (v : BitVec 16) : FoeEntry :=
  e.put (l2.at 0) (putHi16 (e.get (l2.at 0)) v)
def putDestMacHi (e : FoeEntry) (l2 : L2) (v : BitVec 32) : FoeEntry := e.put (l2.at 1) v
def putVlan2 (e : FoeEntry) (l2 : L2) (v : BitVec 16) : FoeEntry :=
  e.put (l2.at 2) (putLo16 (e.get (l2.at 2)) v)
def putDestMacLo (e : FoeEntry) (l2 : L2) (v : BitVec 16) : FoeEntry :=
  e.put (l2.at 2) (putHi16 (e.get (l2.at 2)) v)
def putSrcMacHi (e : FoeEntry) (l2 : L2) (v : BitVec 32) : FoeEntry := e.put (l2.at 3) v

/-- `mac_info->pppoe_id` and `mac_info->src_mac_lo`, where `mac_info` is `l2` cast. -/
def putPppoeId (e : FoeEntry) (l2 : L2) (v : BitVec 16) : FoeEntry :=
  e.put (l2.at 4) (putLo16 (e.get (l2.at 4)) v)
def putSrcMacLo (e : FoeEntry) (l2 : L2) (v : BitVec 16) : FoeEntry :=
  e.put (l2.at 4) (putHi16 (e.get (l2.at 4)) v)

end FoeEntry

/-- `get_ppe_entry_smac_index` -/
def getPpeEntrySmacIndex (e : FoeEntry) (type : PktType) : Nat :=
  if type = .ipv6Route3t ∨ type = .ipv6Route5t then
    if 0xf#32 = fieldGet 16 5 (e.srcMacHi .ipv6) then 0x10
    else (fieldGet 16 5 (e.srcMacHi .ipv6)).toNat
  else 0

theorem getPpeEntrySmacIndex_eq {e : FoeEntry} : getPpeEntrySmacIndex e .ipv6Route5t =
    if (fieldGet 16 5 (e.srcMacHi .ipv6)).toNat = 15 then 16
    else (fieldGet 16 5 (e.srcMacHi .ipv6)).toNat := by
  have hkeep : 0xf#32 = fieldGet 16 5 (e.srcMacHi .ipv6) ↔
      (fieldGet 16 5 (e.srcMacHi .ipv6)).toNat = 15 := by
    rw [BitVec.toNat_eq, eq_comm]
    rfl
  simp [getPpeEntrySmacIndex, hkeep]

/-! ## MAC addresses in memory -/

/-- `unsigned char [ETH_ALEN]` -/
abbrev Mac := Vector (BitVec 8) 6

/-- `*((__be32 *)mac) = cpu_to_be32(hi)` -/
def Mac.putHi (mac : Mac) (hi : BitVec 32) : Mac :=
  #v[hi.extractLsb' 24 8, hi.extractLsb' 16 8, hi.extractLsb' 8 8, hi.extractLsb' 0 8,
    mac[4], mac[5]]

/-- `*((__be16 *)&mac[4]) = cpu_to_be16(lo)` -/
def Mac.putLo (mac : Mac) (lo : BitVec 16) : Mac :=
  #v[mac[0], mac[1], mac[2], mac[3], lo.extractLsb' 8 8, lo.extractLsb' 0 8]

/-- `{0}` -/
def Mac.zero : Mac := Vector.replicate 6 0#8

/-- The address with these first four and last two bytes. -/
def Mac.of (hi : BitVec 32) (lo : BitVec 16) : Mac := (Mac.zero.putHi hi).putLo lo

/-- The first four bytes. -/
def Mac.hi (mac : Mac) : BitVec 32 := mac[0] ++ mac[1] ++ mac[2] ++ mac[3]
/-- The last two. -/
def Mac.lo (mac : Mac) : BitVec 16 := mac[4] ++ mac[5]

namespace Mac

variable {mac mac' : Mac} {hi : BitVec 32} {lo : BitVec 16}

@[simp] theorem hi_putHi : (mac.putHi hi).hi = hi := by
  have h1 := extract_append_extract hi 16 8 8
  have h2 := extract_append_extract hi 8 16 8
  have h3 := extract_append_extract hi 0 24 8
  have hall : (mac.putHi hi).hi = hi.extractLsb' 24 8 ++ hi.extractLsb' 16 8 ++
      hi.extractLsb' 8 8 ++ hi.extractLsb' 0 8 := rfl
  rw [hall, h1, h2, h3, extract_all]

@[simp] theorem lo_putHi : (mac.putHi hi).lo = mac.lo := rfl

@[simp] theorem hi_putLo : (mac.putLo lo).hi = mac.hi := rfl

@[simp] theorem lo_putLo : (mac.putLo lo).lo = lo := by
  have h1 := extract_append_extract lo 0 8 8
  have hall : (mac.putLo lo).lo = lo.extractLsb' 8 8 ++ lo.extractLsb' 0 8 := rfl
  rw [hall, h1, extract_all]

@[simp] theorem hi_of : (Mac.of hi lo).hi = hi := by
  rw [Mac.of, hi_putLo, hi_putHi]

@[simp] theorem lo_of : (Mac.of hi lo).lo = lo := lo_putLo

/-- An address is its first four bytes and its last two. -/
theorem eq_iff : mac = mac' ↔ mac.hi = mac'.hi ∧ mac.lo = mac'.lo := by
  constructor
  · intro h
    subst h
    exact ⟨rfl, rfl⟩
  · rintro ⟨h1, h2⟩
    obtain ⟨h3, e3⟩ := append_inj h1
    obtain ⟨h4, e2⟩ := append_inj h3
    obtain ⟨e0, e1⟩ := append_inj h4
    obtain ⟨e4, e5⟩ := append_inj h2
    apply Vector.ext
    intro i hi
    match i, hi with
    | 0, _ => exact e0
    | 1, _ => exact e1
    | 2, _ => exact e2
    | 3, _ => exact e3
    | 4, _ => exact e4
    | 5, _ => exact e5

end Mac

/-! ## The table -/

/-- One index of the table. -/
structure FoeCell where
  foe : FoeEntry
  sram : FoeEntry

/-- The engine: `ppe_sram_etry_num`, `airoha_ppe_get_total_num_entries`, which reads and which
writes of its SRAM it acknowledges, and whether there is an NPU. -/
structure PpeHw where
  sramNum : Nat
  numEntries : Nat
  acks : Nat → Bool
  writeAcks : Nat → Bool
  npu : Bool

/-- `airoha_ppe_foe_get_entry`: the cell when it is back, with the entry in `foe`. -/
def airohaPpeFoeGetEntry (hw : PpeHw) (hash : Nat) (c : FoeCell) : Option FoeCell :=
  if hash < hw.sramNum then
    if hw.acks hash then some { c with foe := c.sram } else none
  else some c

/-- A commit of this index reaches the SRAM. -/
def PpeHw.Commits (hw : PpeHw) (hash : Nat) : Prop := hash < hw.sramNum ∧ hw.writeAcks hash = true

instance (hw : PpeHw) (hash : Nat) : Decidable (hw.Commits hash) :=
  inferInstanceAs (Decidable (_ ∧ _))

/-- `__airoha_ppe_foe_commit_entry`, without its result: `-1` above the SRAM, `-ETIMEDOUT` where the
write is not acknowledged. -/
def airohaPpeFoeCommitEntry (hw : PpeHw) (hash : Nat) (c : FoeCell) : FoeCell :=
  if hw.Commits hash then { c with sram := c.foe } else c

/-- The entry the engine looks up. -/
def FoeCell.entry (hw : PpeHw) (hash : Nat) (c : FoeCell) : FoeEntry :=
  if hash < hw.sramNum then c.sram else c.foe

/-- A read of this index is not lost. -/
def PpeHw.Readable (hw : PpeHw) (hash : Nat) : Prop := hash < hw.sramNum → hw.acks hash = true

instance (hw : PpeHw) (hash : Nat) : Decidable (hw.Readable hash) :=
  inferInstanceAs (Decidable (_ → _))

/-- What `airoha_ppe_foe_commit_entry` makes of this index is not lost: without an NPU it leaves the
SRAM alone. -/
def PpeHw.Writable (hw : PpeHw) (hash : Nat) : Prop :=
  hash < hw.sramNum → hw.npu = true ∧ hw.writeAcks hash = true

instance (hw : PpeHw) (hash : Nat) : Decidable (hw.Writable hash) :=
  inferInstanceAs (Decidable (_ → _))

theorem airohaPpeFoeGetEntry_of_readable {hw : PpeHw} {hash : Nat} {c : FoeCell}
    (h : hw.Readable hash) :
    ∃ c', airohaPpeFoeGetEntry hw hash c = some c' ∧ c'.foe = c.entry hw hash ∧
      c'.entry hw hash = c.entry hw hash := by
  unfold airohaPpeFoeGetEntry FoeCell.entry
  by_cases hs : hash < hw.sramNum
  · simp [hs, h hs]
  · simp [hs]

theorem airohaPpeFoeGetEntry_of_not_readable {hw : PpeHw} {hash : Nat} {c : FoeCell}
    (h : ¬ hw.Readable hash) : airohaPpeFoeGetEntry hw hash c = none := by
  obtain ⟨hs, ha⟩ := Classical.not_imp.mp h
  simp [airohaPpeFoeGetEntry, hs, ha]

/-- A shrink table without a slot in use. -/
def emptyTable : Table := fun select _ =>
  { valid := false
    pinned := false
    timestamp := 0#64
    bitmap := fun _ => 0#64
    content :=
      match select with
      | .smac => Vector.replicate 6 0#8
      | .ipv6 => Vector.replicate 8 0#32
      | .ipv4 => Vector.replicate 2 0#32 }

end Airoha.Ppe
