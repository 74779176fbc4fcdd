/-
Airoha.Ppe.CleanTuple — cleaning the flows of an IP address or of a port.

Translates `airoha_ppe_clean_entry_by_ip` and `airoha_ppe_clean_entry_by_port`.
The addresses of a 6RD flow are in the shrink table, under a number of six
bits for a table of sixteen slots; for the other numbers `ip3` and `ip4` stay
what the entry before left there, and an address that a type does not have is
zero. The ports are set to zero for every entry. Above debug level 0 the
addresses of a flow that is found are swapped in place to be printed, and stay
so for the entry behind it. `CleansByTuple` says that both functions look at one
entry at a time, `cleansByTuple_iff` when they do, at every debug level.

Left out are the conntrack entries that are deleted beside a flow, up to
`PPE_MAX_CT_DELETE_PER_CLEAN` of them, and the messages.
-/
import Airoha.Ppe.Clean
import Airoha.Ppe.CleanMac

namespace Airoha.Ppe

open Airoha.Lib

/-! ## The functions -/

/-- `get_ppe_entry_tunnel_ip_index` -/
def getPpeEntryTunnelIpIndex (e : FoeEntry) (type : PktType) : Nat :=
  if type = .ipv66rd then (fieldGet 0 6 e.data).toNat
  else if type = .ipv4Dslite then (fieldGet 0 6 e.data).toNat
  else 0

/-- `ip1`, `ip2`, `ip3` and `ip4`. -/
structure Ips where
  ip1 : BitVec 32
  ip2 : BitVec 32
  ip3 : BitVec 32
  ip4 : BitVec 32

/-- `ip1` to `ip4` when the loop starts. -/
def Ips.zero : Ips := { ip1 := 0#32, ip2 := 0#32, ip3 := 0#32, ip4 := 0#32 }

/-- The `switch` of `airoha_ppe_clean_entry_by_ip`, none for `continue`. -/
def ipsOf (tbl : Table) (k : Ips) (e : FoeEntry) : Option Ips :=
  match e.pktType with
  | .ipv4Hnapt | .ipv4Route =>
      some { ip1 := e.origSrcIp, ip2 := e.origDestIp, ip3 := e.newSrcIp, ip4 := e.newDestIp }
  | .ipv4Dslite => some { ip1 := e.origSrcIp, ip2 := e.origDestIp, ip3 := 0#32, ip4 := 0#32 }
  | .ipv66rd =>
      let index := getPpeEntryTunnelIpIndex e .ipv66rd
      if index < updmemNum then
        let egIpv4 := (tbl .ipv4 index).content
        some { ip1 := 0#32, ip2 := 0#32, ip3 := egIpv4[0], ip4 := egIpv4[1] }
      else some { k with ip1 := 0#32, ip2 := 0#32 }
  | .bridge | .ipv6Route3t | .ipv6Route5t | .reserved => none

/-- One of the four is the address. -/
def Ips.has (k : Ips) (ipAddr : BitVec 32) : Bool :=
  !(k.ip1 != ipAddr && k.ip2 != ipAddr && k.ip3 != ipAddr && k.ip4 != ipAddr)

/-- `htonl`, on a little-endian CPU. -/
def htonl (x : BitVec 32) : BitVec 32 :=
  x.extractLsb' 0 8 ++ x.extractLsb' 8 8 ++ x.extractLsb' 16 8 ++ x.extractLsb' 24 8

theorem htonl_htonl (x : BitVec 32) : htonl (htonl x) = x := by
  apply BitVec.eq_of_getLsbD_eq
  intro i hi
  simp only [htonl, BitVec.getLsbD_append, BitVec.getLsbD_extractLsb']
  interval_cases i <;> simp

/-- The four as they are printed. -/
def Ips.htonl (k : Ips) : Ips :=
  { ip1 := Ppe.htonl k.ip1, ip2 := Ppe.htonl k.ip2, ip3 := Ppe.htonl k.ip3, ip4 := Ppe.htonl k.ip4 }

/-- The test of a round, with what `airoha_debug_level > 0` does to the four of a flow it picks. -/
def judgeIp (debugLevel : Int) (tbl : Table) (ipAddr : BitVec 32) (k : Ips) (e : FoeEntry) :
    Option (Ips × Bool) :=
  (ipsOf tbl k e).map fun k =>
    if k.has ipAddr then (if 0 < debugLevel then k.htonl else k, true) else (k, false)

/-- `airoha_ppe_clean_entry_by_ip`, without what it does to the conntrack. -/
def airohaPpeCleanEntryByIp (hw : PpeHw) (commit : Nat → FoeEntry → FoeEntry) (debugLevel : Int)
    (tbl : Table) (ipAddr : BitVec 32) (t : Nat → FoeCell) : Nat → FoeCell :=
  cleanWhere hw commit (judgeIp debugLevel tbl ipAddr) Ips.zero t

/-- `sp1`, `dp1`, `sp2` and `dp2`. -/
structure Ports where
  sp1 : BitVec 16
  dp1 : BitVec 16
  sp2 : BitVec 16
  dp2 : BitVec 16

/-- The `switch` of `airoha_ppe_clean_entry_by_port`, none for `continue`. -/
def portsOf (e : FoeEntry) : Option Ports :=
  match e.pktType with
  | .ipv4Hnapt =>
      some
        { sp1 := e.origSrcPort, dp1 := e.origDestPort, sp2 := e.newSrcPort, dp2 := e.newDestPort }
  | .ipv4Dslite => some { sp1 := e.origSrcPort, dp1 := e.origDestPort, sp2 := 0#16, dp2 := 0#16 }
  | .ipv6Route5t | .ipv66rd =>
      some { sp1 := e.ipv6SrcPort, dp1 := e.ipv6DestPort, sp2 := 0#16, dp2 := 0#16 }
  | .ipv4Route | .bridge | .ipv6Route3t | .reserved => none

/-- `matched` -/
def Ports.matched (p : Ports) (srcPort destPort : BitVec 16) : Bool :=
  (destPort != 0#16 && (p.dp1 == destPort || p.dp2 == destPort)) ||
    (srcPort != 0#16 && (p.sp1 == srcPort || p.sp2 == srcPort))

/-- The test of a round, which keeps nothing. -/
def judgePort (srcPort destPort : BitVec 16) (_ : Unit) (e : FoeEntry) : Option (Unit × Bool) :=
  (portsOf e).map fun p => ((), p.matched srcPort destPort)

/-- `airoha_ppe_clean_entry_by_port`, which refuses with `-EINVAL` to look for no port at all. -/
def airohaPpeCleanEntryByPort (hw : PpeHw) (commit : Nat → FoeEntry → FoeEntry)
    (srcPort destPort : BitVec 16) (t : Nat → FoeCell) : Int × (Nat → FoeCell) :=
  if srcPort = 0#16 ∧ destPort = 0#16 then (-22, t)
  else
    (0, cleanWhere hw commit (judgePort srcPort destPort) () t)

/-! ## What is meant -/

/-- The slot of the tunnel addresses, when the number names one. -/
def tunnelSlot (e : FoeEntry) : Option Nat :=
  let n := (fieldGet 0 6 e.data).toNat
  if n < updmemNum then some n else none

/-- The IPv4 addresses stored for an entry. -/
def ownIps (tbl : Table) (e : FoeEntry) : List (BitVec 32) :=
  match e.pktType with
  | .ipv4Hnapt | .ipv4Route => [e.origSrcIp, e.origDestIp, e.newSrcIp, e.newDestIp]
  | .ipv4Dslite => [e.origSrcIp, e.origDestIp]
  | .ipv66rd =>
      match tunnelSlot e with
      | some n => [(tbl .ipv4 n).content[0], (tbl .ipv4 n).content[1]]
      | none => []
  | .bridge | .ipv6Route3t | .ipv6Route5t | .reserved => []

/-- The source ports stored for an entry. -/
def ownSrcPorts (e : FoeEntry) : List (BitVec 16) :=
  match e.pktType with
  | .ipv4Hnapt => [e.origSrcPort, e.newSrcPort]
  | .ipv4Dslite => [e.origSrcPort]
  | .ipv6Route5t | .ipv66rd => [e.ipv6SrcPort]
  | .ipv4Route | .bridge | .ipv6Route3t | .reserved => []

/-- The destination ports. -/
def ownDestPorts (e : FoeEntry) : List (BitVec 16) :=
  match e.pktType with
  | .ipv4Hnapt => [e.origDestPort, e.newDestPort]
  | .ipv4Dslite => [e.origDestPort]
  | .ipv6Route5t | .ipv66rd => [e.ipv6DestPort]
  | .ipv4Route | .bridge | .ipv6Route3t | .reserved => []

/-- A bound flow with the address. -/
def WantedByIp (tbl : Table) (ipAddr : BitVec 32) (e : FoeEntry) : Prop :=
  e.state = .bind ∧ ipAddr ∈ ownIps tbl e

/-- A bound flow with the source port or with the destination port; zero is no port. -/
def WantedByPort (srcPort destPort : BitVec 16) (e : FoeEntry) : Prop :=
  e.state = .bind ∧
    ((srcPort ≠ 0#16 ∧ srcPort ∈ ownSrcPorts e) ∨ (destPort ≠ 0#16 ∧ destPort ∈ ownDestPorts e))

instance (tbl : Table) (ipAddr : BitVec 32) (e : FoeEntry) : Decidable (WantedByIp tbl ipAddr e) :=
  inferInstanceAs (Decidable (_ ∧ _))

instance (srcPort destPort : BitVec 16) (e : FoeEntry) :
    Decidable (WantedByPort srcPort destPort e) :=
  inferInstanceAs (Decidable (_ ∧ (_ ∨ _)))

/-- Both functions delete exactly the flows that are meant, and what becomes of an entry does not
depend on any other. -/
structure CleansByTuple (hw : PpeHw) (commit : Nat → FoeEntry → FoeEntry) (debugLevel : Int)
    (tbl : Table) (ipAddr : BitVec 32) (srcPort destPort : BitVec 16) (t : Nat → FoeCell) :
    Prop where
  ip : ∀ i < hw.numEntries,
    (airohaPpeCleanEntryByIp hw commit debugLevel tbl ipAddr t i).entry hw i =
      if WantedByIp tbl ipAddr ((t i).entry hw i) then commit i ((t i).entry hw i).invalidate
      else (t i).entry hw i
  port : ∀ i < hw.numEntries,
    ((airohaPpeCleanEntryByPort hw commit srcPort destPort t).2 i).entry hw i =
      if WantedByPort srcPort destPort ((t i).entry hw i) then
        commit i ((t i).entry hw i).invalidate
      else (t i).entry hw i
  ipAlone : ∀ i < hw.numEntries, ∀ t', t' i = t i →
    (airohaPpeCleanEntryByIp hw commit debugLevel tbl ipAddr t' i).entry hw i =
      (airohaPpeCleanEntryByIp hw commit debugLevel tbl ipAddr t i).entry hw i
  portAlone : ∀ i < hw.numEntries, ∀ t', t' i = t i →
    ((airohaPpeCleanEntryByPort hw commit srcPort destPort t').2 i).entry hw i =
      ((airohaPpeCleanEntryByPort hw commit srcPort destPort t).2 i).entry hw i

/-- A flow that is meant can be read and written; address zero is looked for only when a DS-Lite or
6RD flow has it; and no entry that can be read stands before a 6RD flow without a slot. What cannot
be written stays anyway. -/
structure EntryGuard (hw : PpeHw) (tbl : Table) (ipAddr : BitVec 32) (srcPort destPort : BitVec 16)
    (i : Nat) (e : FoeEntry) : Prop where
  reached : WantedByIp tbl ipAddr e ∨ WantedByPort srcPort destPort e →
    hw.Readable i ∧ hw.Writable i
  zero : hw.Readable i → hw.Writable i → e.state = .bind →
    e.pktType = .ipv4Dslite ∨ e.pktType = .ipv66rd → ipAddr = 0#32 → 0#32 ∈ ownIps tbl e
  slot : hw.Readable i → hw.Writable i → e.state = .bind → e.pktType = .ipv66rd →
    tunnelSlot e = none → ∀ j < i, ¬ hw.Readable j

/-- Every entry is such. -/
def TupleGuard (hw : PpeHw) (tbl : Table) (ipAddr : BitVec 32) (srcPort destPort : BitVec 16)
    (t : Nat → FoeCell) : Prop :=
  ∀ i < hw.numEntries, EntryGuard hw tbl ipAddr srcPort destPort i ((t i).entry hw i)

/-! ## What the tests pick -/

section Tests

variable {debugLevel : Int} {tbl : Table} {ipAddr : BitVec 32} {srcPort destPort : BitVec 16}
  {e : FoeEntry} {k : Ips}

theorem has_iff : k.has ipAddr = true ↔
    ipAddr = k.ip1 ∨ ipAddr = k.ip2 ∨ ipAddr = k.ip3 ∨ ipAddr = k.ip4 := by
  simp [Ips.has, or_iff_not_imp_left, eq_comm (a := ipAddr)]

theorem matched_iff {p : Ports} : p.matched srcPort destPort = true ↔
    (srcPort ≠ 0#16 ∧ (srcPort = p.sp1 ∨ srcPort = p.sp2)) ∨
      (destPort ≠ 0#16 ∧ (destPort = p.dp1 ∨ destPort = p.dp2)) := by
  simp [Ports.matched, or_comm, eq_comm (a := srcPort), eq_comm (a := destPort)]

theorem judgeIp_iff : (judgeIp debugLevel tbl ipAddr k e).map Prod.snd = some true ↔
    ∃ k', ipsOf tbl k e = some k' ∧ k'.has ipAddr = true := by
  unfold judgeIp
  cases ipsOf tbl k e with
  | none => simp
  | some k' => cases h : k'.has ipAddr <;> simp [h]

/-- The ports are the entry's own. -/
theorem judgePort_iff : (judgePort srcPort destPort () e).map Prod.snd = some true ↔
    (srcPort ≠ 0#16 ∧ srcPort ∈ ownSrcPorts e) ∨ (destPort ≠ 0#16 ∧ destPort ∈ ownDestPorts e) := by
  have hjudge : (judgePort srcPort destPort () e).map Prod.snd = some true ↔
      ∃ p, portsOf e = some p ∧ p.matched srcPort destPort = true := by
    unfold judgePort
    cases portsOf e <;> simp
  rw [hjudge]
  have hzero : ∀ x y : BitVec 16, x ≠ 0#16 ∧ (x = y ∨ x = 0#16) ↔ x ≠ 0#16 ∧ x = y := by
    intro x y
    constructor
    · rintro ⟨h1, h2 | h2⟩
      · exact ⟨h1, h2⟩
      · exact absurd h2 h1
    · rintro ⟨h1, h2⟩
      exact ⟨h1, Or.inl h2⟩
  unfold portsOf ownSrcPorts ownDestPorts
  cases ht : e.pktType with
  | ipv4Hnapt => simp [matched_iff]
  | ipv4Dslite =>
    simp only [Option.some.injEq, exists_eq_left', matched_iff, hzero, List.mem_singleton]
  | ipv6Route5t =>
    simp only [Option.some.injEq, exists_eq_left', matched_iff, hzero, List.mem_singleton]
  | ipv66rd =>
    simp only [Option.some.injEq, exists_eq_left', matched_iff, hzero, List.mem_singleton]
  | ipv4Route => simp
  | bridge => simp
  | ipv6Route3t => simp
  | reserved => simp

/-- The addresses are the entry's own, and zero for those it does not have. -/
theorem judgeIp_own (h : ¬(e.pktType = .ipv66rd ∧ tunnelSlot e = none)) :
    (judgeIp debugLevel tbl ipAddr k e).map Prod.snd = some true ↔
      ipAddr ∈ ownIps tbl e ∨
        (ipAddr = 0#32 ∧ (e.pktType = .ipv4Dslite ∨ e.pktType = .ipv66rd)) := by
  rw [judgeIp_iff]
  unfold ipsOf ownIps
  cases ht : e.pktType with
  | ipv4Hnapt => simp [has_iff]
  | ipv4Route => simp [has_iff]
  | ipv4Dslite =>
    simp only [Option.some.injEq, exists_eq_left', has_iff, List.mem_cons, List.not_mem_nil]
    grind
  | ipv66rd =>
    have hslot : tunnelSlot e ≠ none := fun hnone => h ⟨ht, hnone⟩
    unfold tunnelSlot at hslot ⊢
    have hlt : (fieldGet 0 6 e.data).toNat < updmemNum := by
      by_contra hge
      simp [hge] at hslot
    simp only [getPpeEntryTunnelIpIndex, if_true, hlt, Option.some.injEq, exists_eq_left', has_iff,
      List.mem_cons, List.not_mem_nil]
    grind
  | bridge => simp
  | ipv6Route3t => simp
  | ipv6Route5t => simp
  | reserved => simp

/-- Without a slot they are another entry's. -/
theorem judgeIp_no_slot (ht : e.pktType = .ipv66rd) (hs : tunnelSlot e = none) :
    (judgeIp debugLevel tbl ipAddr k e).map Prod.snd = some true ↔
      ipAddr = 0#32 ∨ ipAddr = k.ip3 ∨ ipAddr = k.ip4 := by
  have hge : ¬ (fieldGet 0 6 e.data).toNat < updmemNum := by
    intro hlt
    simp [tunnelSlot, hlt] at hs
  rw [judgeIp_iff]
  simp only [ipsOf, ht, getPpeEntryTunnelIpIndex, if_true, hge, if_false, Option.some.injEq,
    exists_eq_left', has_iff]
  grind

theorem ownIps_no_slot (ht : e.pktType = .ipv66rd) (hs : tunnelSlot e = none) :
    ownIps tbl e = [] := by
  simp [ownIps, ht, hs]

end Tests

/-! ## What the loops do -/

section Loops

variable {hw : PpeHw} {commit : Nat → FoeEntry → FoeEntry} {debugLevel : Int} {tbl : Table}
  {ipAddr : BitVec 32} {srcPort destPort : BitVec 16} {t t' : Nat → FoeCell} {i : Nat}
  {e : FoeEntry} {k : Ips}

/-- `ip1` to `ip4` when it comes to entry `i`. -/
def ipsAt (hw : PpeHw) (debugLevel : Int) (tbl : Table) (ipAddr : BitVec 32) (t : Nat → FoeCell)
    (i : Nat) : Ips :=
  keptAt hw (judgeIp debugLevel tbl ipAddr) Ips.zero t i

theorem entry_cleanEntryByIp (hi : i < hw.numEntries) :
    (airohaPpeCleanEntryByIp hw commit debugLevel tbl ipAddr t i).entry hw i =
      if Deletes hw (judgeIp debugLevel tbl ipAddr) i (ipsAt hw debugLevel tbl ipAddr t i)
        ((t i).entry hw i) then
        commit i ((t i).entry hw i).invalidate
      else (t i).entry hw i :=
  entry_cleanWhere hi

theorem deletes_iff_wantedByPort {u : Unit} : Deletes hw (judgePort srcPort destPort) i u e ↔
    hw.Writable i ∧ hw.Readable i ∧ WantedByPort srcPort destPort e := by
  rw [Deletes, Picks, judgePort_iff, WantedByPort]

theorem entry_cleanEntryByPort (hi : i < hw.numEntries) :
    ((airohaPpeCleanEntryByPort hw commit srcPort destPort t).2 i).entry hw i =
      if hw.Writable i ∧ hw.Readable i ∧ WantedByPort srcPort destPort ((t i).entry hw i) then
        commit i ((t i).entry hw i).invalidate
      else (t i).entry hw i := by
  unfold airohaPpeCleanEntryByPort
  by_cases hz : srcPort = 0#16 ∧ destPort = 0#16
  · have hw1 : ¬ WantedByPort srcPort destPort ((t i).entry hw i) := by
      simp [WantedByPort, hz.1, hz.2]
    rw [if_pos hz, if_neg fun h => hw1 h.2.2]
  · rw [if_neg hz, entry_cleanWhere hi]
    simp only [deletes_iff_wantedByPort]

/-- While no entry could be read, nothing was kept. -/
theorem ipsAt_of_not_readable (h : ∀ j < i, ¬ hw.Readable j) :
    ipsAt hw debugLevel tbl ipAddr t i = Ips.zero := by
  unfold ipsAt
  induction i with
  | zero => rfl
  | succ i ih =>
    have hr := h i (Nat.lt_succ_self i)
    rw [keptAt, ih fun j hj => h j (by omega), nextKept, if_neg fun hc => hr hc.1]

/-- An entry of the guard is judged as it should be, in any table. -/
theorem deletes_iff_wantedByIp (hg : EntryGuard hw tbl ipAddr srcPort destPort i e) :
    Deletes hw (judgeIp debugLevel tbl ipAddr) i (ipsAt hw debugLevel tbl ipAddr t i) e ↔
      WantedByIp tbl ipAddr e := by
  unfold Deletes Picks
  constructor
  · rintro ⟨hwr, hr, hb, hj⟩
    refine ⟨hb, ?_⟩
    by_cases hs : e.pktType = .ipv66rd ∧ tunnelSlot e = none
    · rw [judgeIp_no_slot hs.1 hs.2, ipsAt_of_not_readable (hg.slot hr hwr hb hs.1 hs.2)] at hj
      have hip : ipAddr = 0#32 := by simpa [Ips.zero] using hj
      rw [hip]
      exact hg.zero hr hwr hb (Or.inr hs.1) hip
    · rcases (judgeIp_own hs).mp hj with hown | ⟨hip, ht⟩
      · exact hown
      · rw [hip]
        exact hg.zero hr hwr hb ht hip
  · intro hw1
    obtain ⟨hr, hwr⟩ := hg.reached (Or.inl hw1)
    refine ⟨hwr, hr, hw1.1, ?_⟩
    by_cases hs : e.pktType = .ipv66rd ∧ tunnelSlot e = none
    · have hown := hw1.2
      rw [ownIps_no_slot hs.1 hs.2] at hown
      exact absurd hown List.not_mem_nil
    · exact (judgeIp_own hs).mpr (Or.inl hw1.2)

theorem cleansByTuple_of_tupleGuard (hg : TupleGuard hw tbl ipAddr srcPort destPort t) :
    CleansByTuple hw commit debugLevel tbl ipAddr srcPort destPort t where
  ip i hi := by
    rw [entry_cleanEntryByIp hi]
    simp only [deletes_iff_wantedByIp (hg i hi)]
  port i hi := by
    have hr : hw.Writable i ∧ hw.Readable i ∧ WantedByPort srcPort destPort ((t i).entry hw i) ↔
        WantedByPort srcPort destPort ((t i).entry hw i) := by
      refine ⟨fun h => h.2.2, fun h => ?_⟩
      obtain ⟨h1, h2⟩ := (hg i hi).reached (Or.inr h)
      exact ⟨h2, h1, h⟩
    rw [entry_cleanEntryByPort hi]
    simp only [hr]
  ipAlone i hi t' ht := by
    rw [entry_cleanEntryByIp hi, entry_cleanEntryByIp hi, ht]
    simp only [deletes_iff_wantedByIp (hg i hi)]
  portAlone i hi t' ht := by
    rw [entry_cleanEntryByPort hi, entry_cleanEntryByPort hi, ht]

end Loops

/-! ## An entry before it that lends its addresses -/

section Lender

variable {hw : PpeHw} {debugLevel : Int} {tbl : Table} {ipAddr : BitVec 32} {t : Nat → FoeCell}
  {i m : Nat}

/-- A bound flow of this address, to the address with its bytes swapped: printing it turns one into
the other. -/
def ipLender (ipAddr : BitVec 32) : FoeCell :=
  let e := ((FoeEntry.put (Vector.replicate 20 0#32) 0 0x20000000#32).put 5 ipAddr).put 6
    (htonl ipAddr)
  { foe := e, sram := e }

/-- An entry that is not in use. -/
def freeCell : FoeCell := { foe := Vector.replicate 20 0#32, sram := Vector.replicate 20 0#32 }

theorem nextKept_ipLender {k : Ips} (hr : hw.Readable i) :
    ipAddr = (nextKept hw (judgeIp debugLevel tbl ipAddr) i k (ipLender ipAddr)).ip3 ∨
      ipAddr = (nextKept hw (judgeIp debugLevel tbl ipAddr) i k (ipLender ipAddr)).ip4 := by
  have hentry : (ipLender ipAddr).entry hw i = (ipLender ipAddr).foe := ite_self _
  have hib1 : (ipLender ipAddr).foe.ib1 = 0x20000000#32 := rfl
  have hstate : (ipLender ipAddr).foe.state = .bind := by
    rw [FoeEntry.state, hib1]
    decide
  have htype : (ipLender ipAddr).foe.pktType = .ipv4Hnapt := by
    rw [FoeEntry.pktType, hib1]
    decide
  obtain ⟨k', hips, h3, h4⟩ : ∃ k', ipsOf tbl k (ipLender ipAddr).foe = some k' ∧
      k'.ip3 = ipAddr ∧ k'.ip4 = htonl ipAddr := by
    rw [ipsOf, htype]
    exact ⟨_, rfl, rfl, rfl⟩
  have hhas : k'.has ipAddr = true := has_iff.mpr (Or.inr (Or.inr (Or.inl h3.symm)))
  have hnext : nextKept hw (judgeIp debugLevel tbl ipAddr) i k (ipLender ipAddr) =
      if 0 < debugLevel then k'.htonl else k' := by
    rw [nextKept, hentry, if_pos ⟨hr, hstate⟩, judgeIp, hips, Option.map_some, if_pos hhas]
    rfl
  rw [hnext]
  by_cases hd : 0 < debugLevel
  · right
    rw [if_pos hd]
    show ipAddr = htonl k'.ip4
    rw [h4, htonl_htonl]
  · left
    rw [if_neg hd, h3]

/-- Behind a lender that can be read, `ip3` or `ip4` is the address up to entry `i`. -/
theorem ipsAt_lenders (hm : m ≤ i) (h : ∃ j < m, hw.Readable j) :
    ipAddr = (ipsAt hw debugLevel tbl ipAddr
        (Function.update (fun _ => ipLender ipAddr) i (t i)) m).ip3 ∨
      ipAddr = (ipsAt hw debugLevel tbl ipAddr
        (Function.update (fun _ => ipLender ipAddr) i (t i)) m).ip4 := by
  unfold ipsAt
  induction m with
  | zero =>
    obtain ⟨j, hj, -⟩ := h
    exact absurd hj (Nat.not_lt_zero j)
  | succ m ih =>
    have hcell : Function.update (fun _ => ipLender ipAddr) i (t i) m = ipLender ipAddr :=
      Function.update_of_ne (by omega) _ _
    rw [keptAt, hcell]
    by_cases hr : hw.Readable m
    · exact nextKept_ipLender hr
    · rw [nextKept, if_neg fun hc => hr hc.1]
      apply ih (by omega)
      obtain ⟨j, hj, hjr⟩ := h
      refine ⟨j, ?_, hjr⟩
      have hne : j ≠ m := fun heq => hr (heq ▸ hjr)
      omega

/-- Behind entries that are not in use nothing was kept. -/
theorem ipsAt_free (hm : m ≤ i) :
    ipsAt hw debugLevel tbl ipAddr (Function.update (fun _ => freeCell) i (t i)) m = Ips.zero := by
  unfold ipsAt
  induction m with
  | zero => rfl
  | succ m ih =>
    have hcell : Function.update (fun _ => freeCell) i (t i) m = freeCell :=
      Function.update_of_ne (by omega) _ _
    have hentry : freeCell.entry hw m = freeCell.foe := ite_self _
    have hstate : freeCell.foe.state ≠ .bind := by decide
    rw [keptAt, hcell, ih (by omega), nextKept, hentry, if_neg fun hc => hstate hc.2]

end Lender

/-! ## When they do -/

section Exact

variable {hw : PpeHw} {commit : Nat → FoeEntry → FoeEntry} {debugLevel : Int} {tbl : Table}
  {ipAddr : BitVec 32} {srcPort destPort : BitVec 16} {t : Nat → FoeCell}

theorem tupleGuard_of_cleansByTuple (hc : CommitKeeps commit)
    (h : CleansByTuple hw commit debugLevel tbl ipAddr srcPort destPort t) :
    TupleGuard hw tbl ipAddr srcPort destPort t := by
  intro i hi
  have hip := h.ip i hi
  have hport := h.port i hi
  rw [entry_cleanEntryByIp hi] at hip
  rw [entry_cleanEntryByPort hi] at hport
  have hzero : hw.Readable i → hw.Writable i → ((t i).entry hw i).state = .bind →
      ((t i).entry hw i).pktType = .ipv4Dslite ∨ ((t i).entry hw i).pktType = .ipv66rd →
      ipAddr = 0#32 → 0#32 ∈ ownIps tbl ((t i).entry hw i) := by
    intro hr hwr hb ht hz
    have hdel : Deletes hw (judgeIp debugLevel tbl ipAddr) i (ipsAt hw debugLevel tbl ipAddr t i)
        ((t i).entry hw i) := by
      refine ⟨hwr, hr, hb, ?_⟩
      by_cases hs : ((t i).entry hw i).pktType = .ipv66rd ∧ tunnelSlot ((t i).entry hw i) = none
      · exact (judgeIp_no_slot hs.1 hs.2).mpr (Or.inl hz)
      · exact (judgeIp_own hs).mpr (Or.inr ⟨hz, ht⟩)
    have hown := ((iff_of_ite_eq (deleted_ne hc hb) hip).mp hdel).2
    rwa [hz] at hown
  constructor
  · rintro (hw1 | hw1)
    · obtain ⟨hwr, hr, -⟩ := (iff_of_ite_eq (deleted_ne hc hw1.1) hip).mpr hw1
      exact ⟨hr, hwr⟩
    · obtain ⟨hwr, hr, -⟩ := (iff_of_ite_eq (deleted_ne hc hw1.1) hport).mpr hw1
      exact ⟨hr, hwr⟩
  · exact hzero
  · intro hr hwr hb ht hs j hj hjr
    have hne : ipAddr ≠ 0#32 := by
      intro hz
      have hmem := hzero hr hwr hb (Or.inr ht) hz
      rw [ownIps_no_slot ht hs] at hmem
      exact List.not_mem_nil hmem
    -- Behind flows of the address the entry goes, behind entries not in use it stays.
    have h1 := h.ipAlone i hi (Function.update (fun _ => ipLender ipAddr) i (t i))
      (Function.update_self _ _ _)
    have h2 := h.ipAlone i hi (Function.update (fun _ => freeCell) i (t i))
      (Function.update_self _ _ _)
    rw [entry_cleanEntryByIp hi, Function.update_self] at h1 h2
    have hiff := iff_of_ite_eq (deleted_ne hc hb) (h1.trans h2.symm)
    have hfree := hiff.mp ⟨hwr, hr, hb, (judgeIp_no_slot ht hs).mpr
      (Or.inr (ipsAt_lenders (Nat.le_refl i) ⟨j, hj, hjr⟩))⟩
    have hpick := (judgeIp_no_slot ht hs).mp hfree.2.2.2
    rw [ipsAt_free (Nat.le_refl i)] at hpick
    simp [Ips.zero, hne] at hpick

/-- Both functions look at one entry at a time exactly for the tables of `TupleGuard`, at every
debug level. -/
theorem cleansByTuple_iff (hw : PpeHw) (commit : Nat → FoeEntry → FoeEntry) (debugLevel : Int)
    (tbl : Table) (ipAddr : BitVec 32) (srcPort destPort : BitVec 16) (t : Nat → FoeCell)
    (hc : CommitKeeps commit) :
    CleansByTuple hw commit debugLevel tbl ipAddr srcPort destPort t ↔
      TupleGuard hw tbl ipAddr srcPort destPort t :=
  ⟨tupleGuard_of_cleansByTuple hc, cleansByTuple_of_tupleGuard⟩

end Exact

/-! ## Two tables -/

/-- A translated and a routed flow of 10.0.0.1. -/
def routedTable : Nat → FoeCell
  | 0 => ipLender 0x0a000001#32
  | _ =>
      let e := (((FoeEntry.put (Vector.replicate 20 0#32) 0 0x22000000#32).put 1
        0x0a000001#32).put 2
        0x0a000002#32)
      { foe := e, sram := e }

theorem cleansByTuple_routedTable :
    CleansByTuple twoEntries (stampCommit 7#32) 1 emptyTable 0x0a000001#32 80#16 0#16 routedTable ∧
      WantedByIp emptyTable 0x0a000001#32 ((routedTable 1).entry twoEntries 1) := by
  refine ⟨(cleansByTuple_iff _ (stampCommit 7#32) 1 emptyTable 0x0a000001#32 80#16 0#16 routedTable
    (commitKeeps_stampCommit 7#32)).mpr ?_, by decide⟩
  intro i hi
  have hz : (0x0a000001#32 : BitVec 32) ≠ 0#32 := by decide
  have htype : ((routedTable i).entry twoEntries i).pktType ≠ .ipv66rd := by
    have hi2 : i < 2 := hi
    interval_cases i <;> decide
  exact ⟨fun _ => ⟨fun _ => rfl, fun _ => ⟨rfl, rfl⟩⟩, fun _ _ _ _ h => absurd h hz,
    fun _ _ _ h => absurd h htype⟩

/-- Behind it a 6RD flow whose tunnel number is 16. -/
def tunnelTable : Nat → FoeCell
  | 0 => ipLender 0x0a000001#32
  | _ =>
      let e := (FoeEntry.put (Vector.replicate 20 0#32) 0 0x2e000000#32).put 10 16#32
      { foe := e, sram := e }

theorem not_cleansByTuple_tunnelTable :
    ¬ CleansByTuple twoEntries (stampCommit 7#32) 0 emptyTable 0x0a000001#32 80#16 0#16
      tunnelTable := by
  intro h
  have hip := h.ip 1 (by decide)
  revert hip
  decide

end Airoha.Ppe
