/-
Airoha.Bridge.FwdPorts — the forwarding ports of a multicast group.

Translates `br_multicast_get_fwd_ports`, which the PON multicast offload asks
for the ports of a group. It walks the port groups of the group's entry and
collects the devices and, where a port is in multicast-to-unicast mode, the
group's address, into two arrays of `nport` slots that the caller gives it.

The test for the end of the arrays comes after the store and before the next
group is looked at, so that the call also fails with exactly `nport` ports:
`getFwdPorts_exact_iff`. It never stores behind the arrays, with any number.

What the patch takes from the kernel is given: `br_mdb_ip_get_rcu` by `Mdb`,
the flags and modes of the bridge by `BrHeaders`. The list of groups does not
change during a call.
-/
import Airoha.Lib.Fill
import Airoha.Lib.Bits

namespace Airoha.Bridge

open Airoha.Lib

/-! ## The database -/

/-- `struct br_ip` -/
structure BrIp where
  src : BitVec 128
  dst : BitVec 128
  proto : BitVec 16
  vid : BitVec 16
deriving DecidableEq

/-- `struct net_bridge_port`, with what the offload reads of it. -/
structure BridgePort (δ : Type) where
  dev : δ
  flags : BitVec 64

/-- `struct net_bridge_port_group` -/
structure PortGroup (δ ε : Type) where
  port : BridgePort δ
  filterMode : BitVec 8
  flags : BitVec 8
  ethAddr : ε

/-- `struct net_bridge_mdb_entry` -/
structure MdbEntry (δ ε : Type) where
  addr : BrIp
  ports : List (PortGroup δ ε)

/-- The multicast database of a bridge, by `br_mdb_ip_get_rcu`. -/
structure Mdb (δ ε : Type) where
  get : BrIp → Option (MdbEntry δ ε)
  addr_of_get : ∀ {addr : BrIp} {mdst : MdbEntry δ ε}, get addr = some mdst → mdst.addr = addr

/-- A network device as the function sees it: whether it is a bridge, and its database if so. -/
structure NetDevice (δ ε : Type) where
  isBridgeMaster : Bool
  mdb : Mdb δ ε

/-- What the bridge's own headers define. -/
structure BrHeaders where
  isStarG : BrIp → Bool
  mcastInclude : BitVec 8
  mdbPgFlagsBlocked : BitVec 8
  multicastToUnicast : BitVec 64

/-! ## The function -/

variable {δ ε : Type} (br : BrHeaders)

/-- `ports` and `uni_addrs` -/
structure Arrays (δ ε : Type) where
  ports : Nat → δ
  uniAddrs : Nat → ε

/-- The groups that the loop skips. -/
def skipped (allowModeInclude : Bool) (p : PortGroup δ ε) : Bool :=
  (!allowModeInclude && p.filterMode == br.mcastInclude) || p.flags &&& br.mdbPgFlagsBlocked != 0#8

/-- `p->key.port->flags & BR_MULTICAST_TO_UNICAST` -/
def toUnicast (p : PortGroup δ ε) : Bool := p.port.flags &&& br.multicastToUnicast != 0#64

/-- The stores of one round. -/
def storePort (a : Arrays δ ε) (cnt : Nat) (p : PortGroup δ ε) : Arrays δ ε :=
  let a := if toUnicast br p then
      { a with uniAddrs := Function.update a.uniAddrs cnt p.ethAddr }
    else a
  { a with ports := Function.update a.ports cnt p.port.dev }

/-- The loop over `mdst->ports`. -/
def fwdLoop (allowModeInclude : Bool) (nport : Nat) :
    List (PortGroup δ ε) → Nat → Arrays δ ε → Int × Arrays δ ε
  | [], cnt, a => (cnt, a)
  | p :: ps, cnt, a =>
    if skipped br allowModeInclude p then fwdLoop allowModeInclude nport ps cnt a
    else
      let a := storePort br a cnt p
      let cnt := cnt + 1
      if cnt ≥ nport then (-1, a) else fwdLoop allowModeInclude nport ps cnt a

/-- The loop over the ports of an entry. -/
def entryPorts (mdst : MdbEntry δ ε) (nport : Nat) (a : Arrays δ ε) : Int × Arrays δ ε :=
  fwdLoop br (!br.isStarG mdst.addr) nport mdst.ports 0 a

/-- `br_multicast_get_fwd_ports`. It also leaves the caller's `addr` with the source cleared when
it had to ask a second time. -/
def brMulticastGetFwdPorts (brDev : Option (NetDevice δ ε)) (addr : BrIp) (nport : Nat)
    (a : Arrays δ ε) : Int × BrIp × Arrays δ ε :=
  match brDev with
  | none => (0, addr, a)
  | some dev =>
    if !dev.isBridgeMaster then (0, addr, a)
    else
      match dev.mdb.get addr with
      | some mdst =>
        let r := entryPorts br mdst nport a
        (r.1, addr, r.2)
      | none =>
        let addr := { addr with src := 0#128 }
        match dev.mdb.get addr with
        | none => (0, addr, a)
        | some mdst =>
          let r := entryPorts br mdst nport a
          (r.1, addr, r.2)

/-! ## What is asked of it -/

/-- The entry of a group: that of (S,G), or else that of (*,G). -/
def entryOf (mdb : Mdb δ ε) (addr : BrIp) : Option (MdbEntry δ ε) :=
  (mdb.get addr).or (mdb.get { addr with src := 0#128 })

/-- A group that is to be forwarded to: it is not blocked, and not in include mode if the entry is
for any source. -/
def Forwards (mdst : MdbEntry δ ε) (p : PortGroup δ ε) : Prop :=
  p.flags &&& br.mdbPgFlagsBlocked = 0#8 ∧
    ¬ (br.isStarG mdst.addr = true ∧ p.filterMode = br.mcastInclude)

instance (mdst : MdbEntry δ ε) : DecidablePred (Forwards br mdst) := fun _ =>
  inferInstanceAs (Decidable (_ ∧ _))

/-- The groups to forward to, in the order of the list. -/
def forwarding (mdb : Mdb δ ε) (addr : BrIp) : List (PortGroup δ ε) :=
  match entryOf mdb addr with
  | none => []
  | some mdst => mdst.ports.filter fun p => Forwards br mdst p

/-- The arrays have exactly the groups `ms`, and behind these what they had before. -/
structure Holds (ms : List (PortGroup δ ε)) (a a' : Arrays δ ε) : Prop where
  ports : ∀ i (h : i < ms.length), a'.ports i = ms[i].port.dev
  uniAddrs : ∀ i (h : i < ms.length),
    a'.uniAddrs i = if toUnicast br ms[i] then ms[i].ethAddr else a.uniAddrs i
  portsRest : ∀ i, ms.length ≤ i → a'.ports i = a.ports i
  uniAddrsRest : ∀ i, ms.length ≤ i → a'.uniAddrs i = a.uniAddrs i

/-- The ports are reported exactly. -/
structure Exact (mdb : Mdb δ ε) (addr : BrIp) (nport : Nat) (a : Arrays δ ε)
    (r : Int × BrIp × Arrays δ ε) : Prop where
  fails : r.1 = -1 ↔ nport < (forwarding br mdb addr).length
  count : r.1 ≠ -1 → r.1 = (forwarding br mdb addr).length
  holds : r.1 ≠ -1 → Holds br (forwarding br mdb addr) a r.2.2
  bounded : ∀ i, nport ≤ i → r.2.2.ports i = a.ports i ∧ r.2.2.uniAddrs i = a.uniAddrs i

/-! ## The loop -/

/-- What a group puts into the slot of `uni_addrs`. -/
def uniAddr (p : PortGroup δ ε) : Option ε := if toUnicast br p then some p.ethAddr else none

/-- The arrays with the groups `ms` from the index `cnt` on. -/
def Arrays.store (a : Arrays δ ε) (cnt : Nat) (ms : List (PortGroup δ ε)) : Arrays δ ε where
  ports := fillFrom a.ports cnt (ms.map fun p => some p.port.dev)
  uniAddrs := fillFrom a.uniAddrs cnt (ms.map (uniAddr br))

@[simp] theorem store_nil (a : Arrays δ ε) (cnt : Nat) : a.store br cnt [] = a := rfl

theorem store_cons (a : Arrays δ ε) (cnt : Nat) (p : PortGroup δ ε) (ms : List (PortGroup δ ε)) :
    a.store br cnt (p :: ms) = (storePort br a cnt p).store br (cnt + 1) ms := by
  have huni : putAt a.uniAddrs cnt (uniAddr br p) = (storePort br a cnt p).uniAddrs := by
    unfold uniAddr storePort
    split <;> rfl
  have hports : putAt a.ports cnt (some p.port.dev) = (storePort br a cnt p).ports := by
    unfold storePort
    split <;> rfl
  simp only [Arrays.store, List.map_cons, fillFrom_cons, huni, hports]

/-- The loop collects the groups it does not skip until the arrays are full, and then fails. -/
theorem fwdLoop_eq (allow : Bool) (nport : Nat) (ps : List (PortGroup δ ε)) :
    ∀ {cnt : Nat} (a : Arrays δ ε), cnt < nport →
      fwdLoop br allow nport ps cnt a =
        (if cnt + (ps.filter fun p => !skipped br allow p).length < nport
          then ((cnt + (ps.filter fun p => !skipped br allow p).length : Nat) : Int) else -1,
          a.store br cnt ((ps.filter fun p => !skipped br allow p).take (nport - cnt))) := by
  induction ps with
  | nil =>
    intro cnt a hcnt
    simp [fwdLoop, hcnt]
  | cons p ps ih =>
    intro cnt a hcnt
    by_cases hskip : skipped br allow p = true
    · rw [fwdLoop, if_pos hskip, ih a hcnt, List.filter_cons_of_neg (by simp [hskip])]
    · have hone : nport - cnt = (nport - (cnt + 1)) + 1 := by omega
      rw [fwdLoop, if_neg hskip, List.filter_cons_of_pos (by simp [hskip]), hone,
        List.take_succ_cons, store_cons]
      by_cases hfull : cnt + 1 ≥ nport
      · -- the store into the last slot: the loop fails before it looks at the next group
        have hzero : nport - (cnt + 1) = 0 := by omega
        have hge : ¬ cnt + (p :: ps.filter fun p => !skipped br allow p).length < nport := by
          rw [List.length_cons]
          omega
        rw [if_neg hge, hzero, List.take_zero, store_nil]
        exact if_pos hfull
      · have hlen : cnt + (p :: ps.filter fun p => !skipped br allow p).length =
            cnt + 1 + (ps.filter fun p => !skipped br allow p).length := by
          rw [List.length_cons]
          omega
        rw [hlen, ← ih (storePort br a cnt p) (by omega)]
        exact if_neg hfull

/-- The groups that are not skipped are those to forward to. -/
theorem filter_skipped (mdst : MdbEntry δ ε) :
    (mdst.ports.filter fun p => !skipped br (!br.isStarG mdst.addr) p) =
      mdst.ports.filter fun p => Forwards br mdst p := by
  apply List.filter_congr
  intro p _
  rw [Bool.eq_iff_iff]
  simp only [skipped, Forwards, Bool.not_not, Bool.not_eq_true', Bool.or_eq_false_iff,
    Bool.and_eq_false_iff, bne_eq_false_iff_eq, beq_eq_false_iff_ne, decide_eq_true_eq, not_and,
    ne_eq]
  constructor
  · rintro ⟨hmode, hblocked⟩
    refine ⟨hblocked, fun hstar hinc => ?_⟩
    rcases hmode with h | h
    · rw [h] at hstar
      exact absurd hstar (by decide)
    · exact h hinc
  · rintro ⟨hblocked, hmode⟩
    refine ⟨?_, hblocked⟩
    cases hstar : br.isStarG mdst.addr with
    | false => exact .inl rfl
    | true => exact .inr (hmode hstar)

theorem entryPorts_eq (mdst : MdbEntry δ ε) {nport : Nat} (hn : 1 ≤ nport) (a : Arrays δ ε) :
    entryPorts br mdst nport a =
      (if (mdst.ports.filter fun p => Forwards br mdst p).length < nport
        then (((mdst.ports.filter fun p => Forwards br mdst p).length : Nat) : Int) else -1,
        a.store br 0 ((mdst.ports.filter fun p => Forwards br mdst p).take nport)) := by
  rw [entryPorts, fwdLoop_eq br _ nport mdst.ports a hn, filter_skipped, Nat.zero_add, Nat.sub_zero]

/-- The two lookups are that of the entry. -/
theorem getFwdPorts_entry {dev : NetDevice δ ε} (hdev : dev.isBridgeMaster = true) (addr : BrIp)
    (nport : Nat) (a : Arrays δ ε) :
    ((brMulticastGetFwdPorts br (some dev) addr nport a).1,
        (brMulticastGetFwdPorts br (some dev) addr nport a).2.2) =
      match entryOf dev.mdb addr with
      | none => (0, a)
      | some mdst => entryPorts br mdst nport a := by
  unfold brMulticastGetFwdPorts entryOf
  simp only [hdev, Bool.not_true, Bool.false_eq_true, if_false]
  cases dev.mdb.get addr with
  | some mdst => rfl
  | none => cases dev.mdb.get { addr with src := 0#128 } <;> rfl

/-- What the call does on a bridge: the groups to forward to, as far as the arrays have room. -/
theorem getFwdPorts_eq {dev : NetDevice δ ε} (hdev : dev.isBridgeMaster = true) (addr : BrIp)
    {nport : Nat} (hn : 1 ≤ nport) (a : Arrays δ ε) :
    ((brMulticastGetFwdPorts br (some dev) addr nport a).1,
        (brMulticastGetFwdPorts br (some dev) addr nport a).2.2) =
      (if (forwarding br dev.mdb addr).length < nport
        then ((forwarding br dev.mdb addr).length : Int) else -1,
        a.store br 0 ((forwarding br dev.mdb addr).take nport)) := by
  rw [getFwdPorts_entry br hdev]
  unfold forwarding
  cases entryOf dev.mdb addr with
  | some mdst => exact entryPorts_eq br mdst hn a
  | none =>
    have hpos : ([] : List (PortGroup δ ε)).length < nport := hn
    simp only [if_pos hpos, List.take_nil, store_nil]
    rfl

/-- The call leaves the caller's address as it was, but for the source. -/
theorem getFwdPorts_addr (brDev : Option (NetDevice δ ε)) (addr : BrIp) (nport : Nat)
    (a : Arrays δ ε) :
    (brMulticastGetFwdPorts br brDev addr nport a).2.1 = addr ∨
      (brMulticastGetFwdPorts br brDev addr nport a).2.1 = { addr with src := 0#128 } := by
  unfold brMulticastGetFwdPorts
  split
  · exact .inl rfl
  split
  · exact .inl rfl
  split
  · exact .inl rfl
  dsimp only
  split
  · exact .inr rfl
  · exact .inr rfl

/-! ## The arrays -/

theorem store_holds (a : Arrays δ ε) (ms : List (PortGroup δ ε)) :
    Holds br ms a (a.store br 0 ms) where
  ports := fun i h => by
    have hat := fillFrom_at (ms.map fun p => some p.port.dev) a.ports 0
      (by rw [List.length_map]; exact h)
    rw [Nat.zero_add, List.getElem_map] at hat
    exact hat
  uniAddrs := fun i h => by
    have hat := fillFrom_at (ms.map (uniAddr br)) a.uniAddrs 0 (by rw [List.length_map]; exact h)
    rw [Nat.zero_add, List.getElem_map] at hat
    refine hat.trans ?_
    unfold uniAddr
    split <;> rfl
  portsRest := fun i h => fillFrom_of_ge _ _ (by rw [List.length_map]; omega)
  uniAddrsRest := fun i h => fillFrom_of_ge _ _ (by rw [List.length_map]; omega)

/-- The arrays have `nport` slots, and no store goes behind them. -/
theorem store_take_bounded (a : Arrays δ ε) (ms : List (PortGroup δ ε)) {nport i : Nat}
    (h : nport ≤ i) :
    (a.store br 0 (ms.take nport)).ports i = a.ports i ∧
      (a.store br 0 (ms.take nport)).uniAddrs i = a.uniAddrs i := by
  have hholds := store_holds br a (ms.take nport)
  have hlen : (ms.take nport).length ≤ i := (List.length_take_le nport ms).trans h
  exact ⟨hholds.portsRest i hlen, hholds.uniAddrsRest i hlen⟩

/-- The ports are reported exactly for every number of groups to forward to but one: where they
are as many as the arrays have slots, the call fails. -/
theorem getFwdPorts_exact_iff {dev : NetDevice δ ε} (hdev : dev.isBridgeMaster = true)
    (addr : BrIp) {nport : Nat} (hn : 1 ≤ nport) (a : Arrays δ ε) :
    Exact br dev.mdb addr nport a (brMulticastGetFwdPorts br (some dev) addr nport a) ↔
      (forwarding br dev.mdb addr).length ≠ nport := by
  obtain ⟨hret, harr⟩ := Prod.mk.inj (getFwdPorts_eq br hdev addr hn a)
  have hneg : ((forwarding br dev.mdb addr).length : Int) ≠ -1 := by omega
  constructor
  · intro hexact hfull
    have hfails : (brMulticastGetFwdPorts br (some dev) addr nport a).1 = -1 := by
      rw [hret, if_neg (by omega)]
    have hmore := hexact.fails.mp hfails
    omega
  · intro hne
    rcases Nat.lt_or_ge (forwarding br dev.mdb addr).length nport with hlt | hge
    · rw [if_pos hlt] at hret
      rw [List.take_of_length_le (Nat.le_of_lt hlt)] at harr
      exact {
        fails := by
          rw [hret]
          constructor
          · intro h
            exact absurd h hneg
          · intro h
            omega
        count := fun _ => hret
        holds := fun _ => by
          rw [harr]
          exact store_holds br a _
        bounded := fun i hi => by
          rw [harr, ← List.take_of_length_le (Nat.le_of_lt hlt)]
          exact store_take_bounded br a _ hi }
    · rw [if_neg (by omega)] at hret
      exact {
        fails := by
          rw [hret]
          constructor
          · intro _
            omega
          · intro _
            rfl
        count := fun h => absurd hret h
        holds := fun h => absurd hret h
        bounded := fun i hi => by
          rw [harr]
          exact store_take_bounded br a _ hi }

/-! ## A bridge with one port -/

/-- The flags as bits, and the source 0 for any source. -/
def someHeaders : BrHeaders where
  isStarG := fun addr => addr.src == 0#128
  mcastInclude := 1#8
  mdbPgFlagsBlocked := 0x10#8
  multicastToUnicast := 0x1000#64

/-- 239.1.1.1 from any source. -/
def someGroup : BrIp where
  src := 0#128
  dst := 0xef010101#128
  proto := 0x0800#16
  vid := 0#16

/-- A bridge with the group at port 7. -/
def onePort : NetDevice Nat Nat where
  isBridgeMaster := true
  mdb :=
    { get := fun addr =>
        if addr = someGroup then
          some
            { addr := addr
              ports := [{ port := { dev := 7, flags := 0x1000#64 }, filterMode := 0#8, flags := 0#8,
                          ethAddr := 9 }] }
        else none
      addr_of_get := by
        intro addr mdst h
        by_cases haddr : addr = someGroup
        · rw [if_pos haddr] at h
          rw [← Option.some.inj h]
        · rw [if_neg haddr] at h
          exact absurd h (by simp) }

def noPorts : Arrays Nat Nat where
  ports := fun _ => 0
  uniAddrs := fun _ => 0

/-- Two slots for the one port: it is stored and counted. -/
theorem getFwdPorts_exact_onePort :
    Exact someHeaders onePort.mdb someGroup 2 noPorts
        (brMulticastGetFwdPorts someHeaders (some onePort) someGroup 2 noPorts) ∧
      (brMulticastGetFwdPorts someHeaders (some onePort) someGroup 2 noPorts).1 = 1 :=
  ⟨(getFwdPorts_exact_iff someHeaders rfl someGroup (by decide) noPorts).mpr (by decide),
    by decide⟩

/-- One slot for the one port: the call fails, but there are not more ports than slots. -/
theorem not_exact_onePort :
    ¬ Exact someHeaders onePort.mdb someGroup 1 noPorts
      (brMulticastGetFwdPorts someHeaders (some onePort) someGroup 1 noPorts) := by
  intro h
  have hmore := h.fails.mp (by decide)
  exact absurd hmore (by decide)

end Airoha.Bridge
