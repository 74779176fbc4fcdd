/-
Airoha.Ppe.McastAgree — the ports of a multicast flow, in software and in the engine.

`Route.reaches` says to which ports an entry sends a packet, from the fields the
engine reads: the PSE port with NBQ, the bits of the switch ports in `etype`, and
behind the port MCST the channels of the QDMA. `UpdateAgrees` says that an update
that returns 0 leaves an entry that reaches the ports of the mask, and that one
that does not bind leaves the software entry alone; `multicastUpdate_iff` when.

The ports of a mask are those of the comment at `port_mask`: bits 0 to 3 are the
switch ports and bits 16 to 31 the interfaces `ra0` to `ra7` and `rai0` to `rai7`.
The engine has one mark for all of these, so that the WLAN is one port here. The
handlers look for it in bit 31 alone, `MULTICAST_WLAN_EXIST`.
-/
import Airoha.Ppe.EgressWords
import Airoha.Ppe.L4s
import Airoha.Ppe.McastUpdate

namespace Airoha.Ppe

open Airoha.Lib

/-! ## Where an entry sends a packet -/

/-- The fields that decide. -/
structure Route where
  ib2 : BitVec 32
  etype : BitVec 16
  data : BitVec 32

/-- Those of an entry, in the view its type is read in. -/
def FoeEntry.route (e : FoeEntry) : Route :=
  { ib2 := e.ib2 (l2Of e.pktType), etype := e.etype (l2Of e.pktType), data := e.data }

/-- A port of a multicast flow. -/
inductive McastPort where
  | lan (i : Fin 4)
  | serdes (s : Serdes)
  | wlan
deriving DecidableEq

/-- The mask names the port. -/
def McastPort.isIn (p : McastPort) (portMask : BitVec 32) : Bool :=
  match p with
  | .lan i => portMask.getLsbD i
  | .serdes s => portMask.getLsbD s.bit
  | .wlan => portMask &&& 0xFFFF0000#32 != 0#32

/-- The channel of the port MCST that `airoha_qdma_multicast_init` gives the PSE port and NBQ of a
serdes, on a 7581. -/
def Serdes.mcstChannel : Serdes → Fin 16
  | .pcie0 => 10
  | .pcie1 => 11
  | .usb => 12
  | .eth => 13

/-- `en7581_soc_data` -/
def en7581SerdesTable : SerdesTable where
  fport
    | .pcie0 | .pcie1 => 3#32
    | .eth | .usb => 9#32
  nbq
    | .pcie0 => 4#32
    | .pcie1 => 5#32
    | .eth => 0#32
    | .usb => 1#32
  chnl
    | .pcie0 => 10#32
    | .pcie1 => 11#32
    | .eth => 13#32
    | .usb => 12#32

/-- The PSE port and NBQ of a serdes. -/
def SerdesTable.ib2 (soc : SerdesTable) (s : Serdes) : BitVec 32 :=
  fieldPrep 5 4 (soc.fport s) ||| fieldPrep 0 5 (soc.nbq s)

namespace Route

/-- `FIELD_GET(AIROHA_FOE_IB2_NBQ, ib2)` -/
def nbq (r : Route) : BitVec 32 := fieldGet 0 5 r.ib2

/-- The channel is among those of the port MCST: six bits of `etype`, CHANNEL above them, NBQ on
top. -/
def mcst (r : Route) (c : Nat) : Bool :=
  if c < 6 then r.etype.getLsbD c
  else if c < 11 then (dataChannel r.data).getLsbD (c - 6)
  else r.nbq.getLsbD (c - 11)

/-- A packet that comes to the CPU is taken for the WLAN when it has the mark of a multicast
flow. -/
def toWlan (r : Route) : Bool :=
  r.ib2.getLsbD 11 || (psePort r.ib2 == 0#32 && r.etype == 0xA1#16)

/-- The packet is dropped: port DROP. -/
def drops (r : Route) : Bool := psePort r.ib2 == 15#32

/-- The packet leaves by the port. -/
def reaches (soc : SerdesTable) (r : Route) (p : McastPort) : Bool :=
  match p with
  | .lan i => (psePort r.ib2 == 1#32 || psePort r.ib2 == 14#32) && r.mcst (i + 1)
  | .serdes s =>
      if psePort r.ib2 = 14#32 then r.mcst s.mcstChannel
      else if psePort r.ib2 = 0#32 ∨ psePort r.ib2 = 1#32 ∨ psePort r.ib2 = 15#32 then false
      else fieldPrep 5 4 (psePort r.ib2) ||| fieldPrep 0 5 r.nbq == soc.ib2 s
  | .wlan => !r.drops && r.toWlan

/-- The packet leaves by the ports of the mask, and is dropped when there are none. -/
structure For (soc : SerdesTable) (r : Route) (portMask : BitVec 32) : Prop where
  ports : ∀ p, r.reaches soc p = McastPort.isIn p portMask
  drop : r.drops = true ↔ portMask = 0#32

end Route

/-! ## What is meant, and when it is so -/

/-- Software and engine agree behind the update of `entry`. -/
structure UpdateAgrees (x : McastEnv) (entry : MulticastHwnatEntry) (portMask : BitVec 32)
    (u : Updated) : Prop where
  returned : u.ret = some 0 →
    let e := (u.foe entry.foeIndex).entry x.hw entry.foeIndex
    u.commit = some 0 ∧ e.state = .bind ∧ Route.For x.soc e.route portMask ∧
      u.entry.state = if portMask = 0#32 then .drop else .binded
  unbound : u.commit ≠ some 0 → u.entry.state = entry.state ∧ u.entry.portMask = entry.portMask

/-- The fields the chosen handler writes, none for `unknown`. -/
def handlerFields (x : McastEnv) (portMask : BitVec 32) (priority : Nat) : Option HwnatFields :=
  match arhtMuliticastGetForwardState portMask with
  | .lanOnly => some (lanOnlyFields x portMask)
  | .wlanOnly => some wlanOnlyFields
  | .xsiOnly => some (xsiOnlyFields x portMask priority)
  | .lanHsgmii1toN => some (lanHsgmii1toNFields portMask)
  | .unknown => none

/-- The serdes that is tested last. -/
def lastSerdes (portMask : BitVec 32) : Serdes :=
  if Serdes.pcie1.isIn portMask then .pcie1
  else if Serdes.pcie0.isIn portMask then .pcie0
  else if Serdes.usb.isIn portMask then .usb
  else .eth

/-- Where the PSE port, NBQ and channel of a serdes lead. -/
def SerdesTable.route (soc : SerdesTable) (s : Serdes) : Route :=
  { ib2 := soc.ib2 s, etype := 0#16, data := fieldPrep 11 5 (soc.chnl s) }

/-- What the table has for the last serdes leads to the serdes ports of the mask and no other. -/
def LastReaches (soc : SerdesTable) (portMask : BitVec 32) : Prop :=
  ∀ s : Serdes, (soc.route (lastSerdes portMask)).reaches soc (.serdes s) = s.isIn portMask

/-- A mask with an interface of the WLAN has the one that is looked for, `rai7`. -/
def WlanSeen (portMask : BitVec 32) : Prop :=
  McastPort.isIn .wlan portMask = true → portMask.getLsbD 31 = true

/-- What the port fields an entry has ask of the mask, where no handler writes them. `channel` is
the bit of CHANNEL that is PCIE0 behind the port MCST. -/
def StaleRight (soc : SerdesTable) (r : Route) (channel : Bool) (portMask : BitVec 32) : Prop :=
  if psePort r.ib2 = 15#32 then portMask = 0#32
  else portMask ≠ 0#32 ∧ McastPort.isIn .wlan portMask = r.toWlan ∧
    if psePort r.ib2 = 0#32 then portMask &&& 0xF#32 = 0#32 ∧ portMask &&& 0xF0#32 = 0#32
    else if psePort r.ib2 = 1#32 then
      portMask &&& 0xF0#32 = 0#32 ∧ ∀ i : Fin 4, portMask.getLsbD i = r.etype.getLsbD (i + 1)
    else if psePort r.ib2 = 14#32 then
      (∀ i : Fin 4, portMask.getLsbD i = r.etype.getLsbD (i + 1)) ∧
        portMask.getLsbD 4 = r.nbq.getLsbD 2 ∧ portMask.getLsbD 5 = r.nbq.getLsbD 1 ∧
        portMask.getLsbD 6 = channel ∧ portMask.getLsbD 7 = r.nbq.getLsbD 0
    else portMask &&& 0xF#32 = 0#32 ∧ ∀ s : Serdes, portMask.getLsbD s.bit =
      (fieldPrep 5 4 (psePort r.ib2) ||| fieldPrep 0 5 r.nbq == soc.ib2 s)

/-- That bit behind the handlers, which all write `data` but for `unknown`. -/
def pcie0Channel (soc : SerdesTable) (e : FoeEntry) (portMask : BitVec 32) : Bool :=
  match arhtMuliticastGetForwardState portMask with
  | .lanOnly | .wlanOnly => false
  | .xsiOnly => (soc.chnl (lastSerdes portMask)).getLsbD 4
  | .lanHsgmii1toN => portMask.getLsbD 6
  | .unknown => (dataChannel e.data).getLsbD 4

/-- The ports come out right. A bridged entry keeps the port fields of the view that is read, an
entry of the type that is none keeps all. -/
def PortsRight (x : McastEnv) (e : FoeEntry) (portMask : BitVec 32) : Prop :=
  match e.pktType with
  | .bridge => StaleRight x.soc e.route (pcie0Channel x.soc e portMask) portMask
  | .reserved => StaleRight x.soc e.route ((dataChannel e.data).getLsbD 4) portMask
  | _ =>
      match arhtMuliticastGetForwardState portMask with
      | .unknown => portMask = 0#32
      | .xsiOnly => WlanSeen portMask ∧ LastReaches x.soc portMask
      | _ => WlanSeen portMask

/-- The entry can be read, the flow is valid where that is checked, the commit is taken and the
ports are right. `copy` is what is done to the entry before the handler. -/
structure Updatable (x : McastEnv) (entry : MulticastHwnatEntry) (portMask : BitVec 32)
    (t : Nat → FoeCell) (copy : FoeEntry → FoeEntry) : Prop where
  readable : x.hw.Readable entry.foeIndex
  valid : arhtMuliticastGetForwardState portMask = .unknown ∨ arhtPpeMulticastCheckValid x
    (some (copy ((t entry.foeIndex).entry x.hw entry.foeIndex))) entry.foeIndex = some true
  commits : x.commitErr entry.foeIndex = 0
  ports : PortsRight x ((t entry.foeIndex).entry x.hw entry.foeIndex) portMask

/-! ## The masks -/

section Masks

variable {portMask : BitVec 32}

@[simp] theorem serdes_isIn (s : Serdes) : s.isIn portMask = portMask.getLsbD s.bit :=
  and_bit_bne_zero portMask s.bit

theorem wlanExist_eq : multicastWlanExist portMask = portMask.getLsbD 31 := by
  have hbit : 0x80000000#32 = bit 32 31 := by decide
  rw [multicastWlanExist, hbit, and_bit_bne_zero]

theorem isIn_wlan_of_bit (h : portMask.getLsbD 31 = true) :
    McastPort.isIn .wlan portMask = true := by
  rw [McastPort.isIn, bne_iff_ne]
  intro h0
  have h31 := getLsbD_of_and_eq_zero h0 (i := 31) (by decide)
  rw [h] at h31
  cases h31

theorem wlanSeen_iff : WlanSeen portMask ↔ portMask.getLsbD 31 = McastPort.isIn .wlan portMask := by
  constructor
  · intro h
    cases hw : McastPort.isIn .wlan portMask with
    | true => exact h hw
    | false =>
      by_contra hbit
      rw [Bool.not_eq_false] at hbit
      rw [isIn_wlan_of_bit hbit] at hw
      cases hw
  · intro h hw
    rw [h, hw]

theorem lan_of_not_gsw (h : multicastGswExist portMask = false) (i : Fin 4) :
    portMask.getLsbD i = false := by
  have h0 : portMask &&& 0xF#32 = 0#32 := by simpa [multicastGswExist] using h
  refine getLsbD_of_and_eq_zero h0 ?_
  revert i
  decide

theorem serdes_of_not_hsgmii (h : multicastHsgmiiExist portMask = false) (s : Serdes) :
    portMask.getLsbD s.bit = false := by
  have h0 : portMask &&& 0xF0#32 = 0#32 := by simpa [multicastHsgmiiExist] using h
  refine getLsbD_of_and_eq_zero h0 ?_
  cases s <;> decide

/-- Four bits in a row are all there is to `0xF0`. -/
theorem exists_serdes (h : multicastHsgmiiExist portMask = true) :
    ∃ s : Serdes, portMask.getLsbD s.bit = true := by
  by_contra hno
  simp only [not_exists, Bool.not_eq_true] at hno
  have hzero : portMask &&& 0xF0#32 = 0#32 := by
    have h4 := hno .eth
    have h5 := hno .usb
    have h6 := hno .pcie0
    have h7 := hno .pcie1
    have hbits : 0xF0#32 = bit 32 4 ||| bit 32 5 ||| bit 32 6 ||| bit 32 7 := by decide
    simp only [Serdes.bit] at h4 h5 h6 h7
    rw [← and_bit_eq_zero_iff] at h4 h5 h6 h7
    simp [hbits, BitVec.and_or_distrib_left, h4, h5, h6, h7]
  simp [multicastHsgmiiExist, hzero] at h

end Masks

/-! ## What the handlers write -/

theorem getLsbD_foldl_stag (portMask : BitVec 32) (j : Nat) :
    ∀ {is : List Nat} {stagDp : BitVec 32}, (∀ i ∈ is, i + 1 < 32) →
      (is.foldl (fun stagDp i => if portMask &&& bit 32 i = 0#32 then stagDp
        else stagDp ||| bit 32 (i + 1)) stagDp).getLsbD j =
      (stagDp.getLsbD j || is.any fun i => portMask.getLsbD i && decide (j = i + 1)) := by
  intro is
  induction is with
  | nil => simp
  | cons i is ih =>
    intro stagDp h
    have hi : i + 1 < 32 := h i List.mem_cons_self
    rw [List.foldl_cons, ih fun k hk => h k (List.mem_cons_of_mem i hk), List.any_cons]
    simp only [and_bit_eq_zero_iff]
    cases hb : portMask.getLsbD i <;> simp [getLsbD_or_bit hi, Bool.or_assoc]

/-- The bit of a switch port in `stag_dp`. -/
theorem getLsbD_stagDpOf (portMask : BitVec 32) (i : Fin 4) :
    ((stagDpOf portMask).setWidth 16).getLsbD (i + 1) = portMask.getLsbD i := by
  have h16 : (i : Nat) + 1 < 16 := by omega
  rw [BitVec.getLsbD_setWidth, stagDpOf, getLsbD_foldl_stag portMask _ (by decide)]
  simp only [h16, BitVec.getLsbD_zero]
  revert i
  simp [Fin.forall_fin_succ]

theorem psePort_bit9 : psePort (bit 32 9) = 0#32 := by decide

theorem psePort_wifiFlag (portMask : BitVec 32) : psePort (wifiFlag portMask) = 0#32 :=
  fieldGet_fieldPrep_of_disjoint (by decide) _

theorem getLsbD_wifiFlag (portMask : BitVec 32) :
    (wifiFlag portMask).getLsbD 11 = portMask.getLsbD 31 := by
  rw [wifiFlag, getLsbD_fieldPrep, wlanExist_eq]
  cases portMask.getLsbD 31 <;> decide

/-- What the fields of a handler say, beside what is left in the entry. -/
def HwnatFields.route (f : HwnatFields) : Route :=
  { ib2 := f.val, etype := f.stagDp, data := f.data }

section Fields

variable {x : McastEnv} {portMask : BitVec 32} {priority : Nat}

theorem psePort_lanOnly : psePort (lanOnlyFields x portMask).val = 1#32 := by
  have hbit9 := psePort_bit9
  have hwifi := psePort_wifiFlag portMask
  have hone : 1#32 &&& mask 32 0 4 = 1#32 := by decide
  unfold psePort at *
  simp (disch := decide) [lanOnlyFields, fieldGet_fieldPrep_of_disjoint, fieldGet_fieldPrep_self,
    hbit9, hwifi, hone]

theorem wifi_lanOnly : (lanOnlyFields x portMask).val.getLsbD 11 = portMask.getLsbD 31 := by
  simp only [lanOnlyFields, BitVec.getLsbD_or, getLsbD_wifiFlag, getLsbD_fieldPrep, getLsbD_bit]
  simp

/-- The switch and serdes ports come out as in the mask, and the WLAN as its bit 31. -/
theorem for_iff_wlanSeen {soc : SerdesTable} {r : Route}
    (hlan : ∀ i : Fin 4, r.reaches soc (.lan i) = portMask.getLsbD i)
    (hserdes : ∀ s : Serdes, r.reaches soc (.serdes s) = portMask.getLsbD s.bit)
    (hwlan : r.reaches soc .wlan = portMask.getLsbD 31) (hdrops : r.drops = false)
    (hmask : portMask ≠ 0#32) : Route.For soc r portMask ↔ WlanSeen portMask := by
  rw [wlanSeen_iff, ← hwlan]
  constructor
  · intro h
    exact h.ports .wlan
  · intro h
    constructor
    · intro p
      cases p with
      | lan i => exact hlan i
      | serdes s => exact hserdes s
      | wlan => exact h
    · simp [hdrops, hmask]

theorem ne_zero_of_gsw (h : multicastGswExist portMask = true) : portMask ≠ 0#32 := by
  intro h0
  subst h0
  exact absurd h (by decide)

theorem ne_zero_of_hsgmii (h : multicastHsgmiiExist portMask = true) : portMask ≠ 0#32 := by
  intro h0
  subst h0
  exact absurd h (by decide)

/-- Switch ports only: they are in `etype`. -/
theorem for_lanOnly_iff (hg : multicastGswExist portMask = true)
    (hh : multicastHsgmiiExist portMask = false) :
    Route.For x.soc (lanOnlyFields x portMask).route portMask ↔ WlanSeen portMask := by
  have hport : psePort (lanOnlyFields x portMask).route.ib2 = 1#32 := psePort_lanOnly
  apply for_iff_wlanSeen
  · intro i
    have h6 : (i : Nat) + 1 < 6 := by omega
    simp only [Route.reaches, hport, Route.mcst, h6, if_true]
    exact getLsbD_stagDpOf portMask i
  · intro s
    simp [Route.reaches, hport, serdes_of_not_hsgmii hh s]
  · have hwifi : (lanOnlyFields x portMask).route.ib2.getLsbD 11 = portMask.getLsbD 31 :=
      wifi_lanOnly
    rw [← hwifi]
    simp [Route.reaches, Route.drops, Route.toWlan, hport]
  · rw [Route.drops, hport]
    rfl
  · exact ne_zero_of_gsw hg

/-- The WLAN only: to the CPU, with the mark. -/
theorem for_wlanOnly_iff (soc : SerdesTable) (hg : multicastGswExist portMask = false)
    (hh : multicastHsgmiiExist portMask = false) (hw : multicastWlanExist portMask = true) :
    Route.For soc wlanOnlyFields.route portMask ↔ WlanSeen portMask := by
  have hport : psePort wlanOnlyFields.route.ib2 = 0#32 := by decide
  rw [wlanExist_eq] at hw
  apply for_iff_wlanSeen
  · intro i
    simp [Route.reaches, hport, lan_of_not_gsw hg i]
  · intro s
    simp [Route.reaches, hport, serdes_of_not_hsgmii hh s]
  · rw [hw]
    rfl
  · rw [Route.drops, hport]
    rfl
  · intro h0
    subst h0
    exact absurd hw (by decide)

/-- No port that is known: port DROP. -/
theorem for_drop_iff {soc : SerdesTable} {r : Route} (hr : r.ib2 = dropIb2)
    (hu : arhtMuliticastGetForwardState portMask = .unknown) :
    Route.For soc r portMask ↔ portMask = 0#32 := by
  have hport : psePort r.ib2 = 15#32 := by
    rw [hr]
    decide
  constructor
  · intro h
    refine h.drop.mp ?_
    rw [Route.drops, hport]
    rfl
  · intro h
    subst h
    constructor
    · intro p
      cases p with
      | lan i => simp [Route.reaches, hport, McastPort.isIn]
      | serdes s => simp [Route.reaches, hport, McastPort.isIn]
      | wlan => simp [Route.reaches, Route.drops, hport, McastPort.isIn]
    · simp [Route.drops, hport]

theorem getLsbD_orIf {c : Bool} {k : Nat} (hk : k < 32) (v : BitVec 32) (j : Nat) :
    (orIf c k v).getLsbD j = (v.getLsbD j || (c && decide (j = k))) := by
  cases c with
  | false => simp [orIf]
  | true => simp [orIf, getLsbD_or_bit hk]

theorem psePort_lanHsgmii1toN : psePort (lanHsgmii1toNFields portMask).val = 14#32 := by
  have hbit9 := psePort_bit9
  have hwifi := psePort_wifiFlag portMask
  have hport : 0xe#32 &&& mask 32 0 4 = 14#32 := by decide
  unfold psePort at *
  simp (disch := decide) [lanHsgmii1toNFields, fieldGet_fieldPrep_of_disjoint,
    fieldGet_fieldPrep_self, hbit9, hwifi, hport]

theorem wifi_lanHsgmii1toN :
    (lanHsgmii1toNFields portMask).val.getLsbD 11 = portMask.getLsbD 31 := by
  simp only [lanHsgmii1toNFields, BitVec.getLsbD_or, getLsbD_wifiFlag, getLsbD_fieldPrep,
    getLsbD_bit]
  simp

/-- Each serdes has its bit, in NBQ or in CHANNEL. -/
theorem mcst_lanHsgmii1toN (s : Serdes) :
    (lanHsgmii1toNFields portMask).route.mcst s.mcstChannel = portMask.getLsbD s.bit := by
  have hbit9 : fieldGet 0 5 (bit 32 9) = 0#32 := by decide
  have hnbq : (lanHsgmii1toNFields portMask).route.nbq = orIf (Serdes.pcie1.isIn portMask) 0
      (orIf (Serdes.usb.isIn portMask) 1 (orIf (Serdes.eth.isIn portMask) 2 0#32)) &&&
        mask 32 0 5 := by
    simp (disch := decide) [Route.nbq, HwnatFields.route, lanHsgmii1toNFields, wifiFlag,
      fieldGet_fieldPrep_of_disjoint, fieldGet_fieldPrep_self, hbit9]
  have hchannel : dataChannel (lanHsgmii1toNFields portMask).route.data =
      orIf (Serdes.pcie0.isIn portMask) 4 0#32 &&& mask 32 0 5 := by
    simp (disch := decide) [dataChannel, HwnatFields.route, lanHsgmii1toNFields,
      fieldGet_fieldPrep_of_disjoint, fieldGet_fieldPrep_self]
  rw [Route.mcst, hnbq, hchannel]
  cases s <;>
    simp (disch := decide) only [Serdes.mcstChannel, Serdes.bit, serdes_isIn, BitVec.getLsbD_and,
      getLsbD_mask, getLsbD_orIf] <;>
    simp

/-- Switch ports and serdes ports: channels of the port MCST. -/
theorem for_lanHsgmii1toN_iff (soc : SerdesTable) (hg : multicastGswExist portMask = true) :
    Route.For soc (lanHsgmii1toNFields portMask).route portMask ↔ WlanSeen portMask := by
  have hport : psePort (lanHsgmii1toNFields portMask).route.ib2 = 14#32 := psePort_lanHsgmii1toN
  apply for_iff_wlanSeen
  · intro i
    have h6 : (i : Nat) + 1 < 6 := by omega
    simp only [Route.reaches, hport, Route.mcst, h6, if_true]
    exact getLsbD_stagDpOf portMask i
  · intro s
    simp only [Route.reaches, hport, if_true]
    exact mcst_lanHsgmii1toN s
  · have hwifi : (lanHsgmii1toNFields portMask).route.ib2.getLsbD 11 = portMask.getLsbD 31 :=
      wifi_lanHsgmii1toN
    rw [← hwifi]
    simp [Route.reaches, Route.drops, Route.toWlan, hport]
  · rw [Route.drops, hport]
    rfl
  · exact ne_zero_of_gsw hg

/-! ### Serdes ports only -/

/-- Of several serdes ports the last one is kept. -/
theorem foldl_xsiSerdes (soc : SerdesTable) (h : multicastHsgmiiExist portMask = true)
    (v : BitVec 32 × BitVec 32 × BitVec 32) :
    [.eth, .usb, .pcie0, .pcie1].foldl (xsiSerdes soc portMask) v =
      (fieldPrep 13 11 0x1f#32 ||| bit 32 9 ||| fieldPrep 5 4 (soc.fport (lastSerdes portMask)),
        soc.nbq (lastSerdes portMask), soc.chnl (lastSerdes portMask)) := by
  obtain ⟨s, hs⟩ := exists_serdes h
  rw [← serdes_isIn] at hs
  unfold lastSerdes
  simp only [List.foldl, xsiSerdes]
  cases s <;> simp only [hs, if_true] <;> split_ifs <;> rfl

theorem xsiOnlyFields_eq (h : multicastHsgmiiExist portMask = true) :
    xsiOnlyFields x portMask priority =
      { data := fieldPrep 11 5 (x.soc.chnl (lastSerdes portMask)) |||
          fieldPrep 8 3 (BitVec.ofNat 32 (7 - priority % 8)) ||| fieldPrep 16 8 0x7F#32
        val := fieldPrep 13 11 0x1f#32 ||| bit 32 9 |||
          fieldPrep 5 4 (x.soc.fport (lastSerdes portMask)) |||
          (fieldPrep 0 5 (x.soc.nbq (lastSerdes portMask)) ||| wifiFlag portMask)
        stagDp := 0#16 } := by
  simp only [xsiOnlyFields, foldl_xsiSerdes x.soc h]

/-- The fields are those of the last serdes in the table. -/
theorem xsiOnly_route (h : multicastHsgmiiExist portMask = true) :
    psePort (xsiOnlyFields x portMask priority).route.ib2 =
        psePort (x.soc.route (lastSerdes portMask)).ib2 ∧
      (xsiOnlyFields x portMask priority).route.nbq = (x.soc.route (lastSerdes portMask)).nbq ∧
      dataChannel (xsiOnlyFields x portMask priority).route.data =
        dataChannel (x.soc.route (lastSerdes portMask)).data ∧
      (xsiOnlyFields x portMask priority).route.ib2.getLsbD 11 = portMask.getLsbD 31 := by
  have hbit9 : fieldGet 0 5 (bit 32 9) = 0#32 := by decide
  have hbit9' := psePort_bit9
  unfold psePort at *
  rw [xsiOnlyFields_eq h]
  refine ⟨?_, ?_, ?_, ?_⟩
  · simp (disch := decide) [HwnatFields.route, SerdesTable.route, SerdesTable.ib2, wifiFlag,
      fieldGet_fieldPrep_of_disjoint, hbit9']
  · simp (disch := decide) [HwnatFields.route, SerdesTable.route, SerdesTable.ib2, wifiFlag,
      Route.nbq, fieldGet_fieldPrep_of_disjoint, hbit9]
  · simp (disch := decide) [HwnatFields.route, SerdesTable.route, dataChannel,
      fieldGet_fieldPrep_of_disjoint]
  · simp only [HwnatFields.route, BitVec.getLsbD_or, getLsbD_wifiFlag, getLsbD_fieldPrep,
      getLsbD_bit]
    simp

/-- Where a packet goes by its fields: the PSE port, NBQ, CHANNEL, `etype` and the mark. -/
theorem reaches_congr {soc : SerdesTable} {r r' : Route} (hport : psePort r.ib2 = psePort r'.ib2)
    (hnbq : r.nbq = r'.nbq) (hchannel : dataChannel r.data = dataChannel r'.data)
    (hetype : r.etype = r'.etype) {p : McastPort} (hp : p = .wlan → r.toWlan = r'.toWlan) :
    r.reaches soc p = r'.reaches soc p := by
  have hmcst : ∀ c, r.mcst c = r'.mcst c := by
    intro c
    simp only [Route.mcst, hnbq, hchannel, hetype]
  cases p with
  | lan i => simp only [Route.reaches, hport, hmcst]
  | serdes s => simp only [Route.reaches, hport, hmcst, hnbq]
  | wlan => simp only [Route.reaches, Route.drops, hport, hp rfl]

/-- Serdes ports only: the entry has what the table has for the last one. -/
theorem for_xsiOnly_iff (hg : multicastGswExist portMask = false)
    (hh : multicastHsgmiiExist portMask = true) :
    Route.For x.soc (xsiOnlyFields x portMask priority).route portMask ↔
      WlanSeen portMask ∧ LastReaches x.soc portMask := by
  obtain ⟨hport, hnbq, hchannel, hwifi⟩ := @xsiOnly_route x portMask priority hh
  have hetype : (xsiOnlyFields x portMask priority).route.etype =
      (x.soc.route (lastSerdes portMask)).etype := by
    rw [xsiOnlyFields_eq hh]
    rfl
  have hserdes : ∀ s, (xsiOnlyFields x portMask priority).route.reaches x.soc (.serdes s) =
      (x.soc.route (lastSerdes portMask)).reaches x.soc (.serdes s) := by
    intro s
    refine reaches_congr hport hnbq hchannel hetype ?_
    intro h
    cases h
  have hfor : LastReaches x.soc portMask →
      (Route.For x.soc (xsiOnlyFields x portMask priority).route portMask ↔ WlanSeen portMask) := by
    intro h
    obtain ⟨s, hs⟩ := exists_serdes hh
    have hreach := (hserdes s).trans (h s)
    rw [serdes_isIn, hs] at hreach
    -- the last serdes reaches a port, so its PSE port is none of the others
    have h0 : psePort (xsiOnlyFields x portMask priority).route.ib2 ≠ 0#32 := by
      intro h0
      simp [Route.reaches, h0] at hreach
    have h15 : psePort (xsiOnlyFields x portMask priority).route.ib2 ≠ 15#32 := by
      intro h15
      simp [Route.reaches, h15] at hreach
    apply for_iff_wlanSeen
    · intro i
      have h6 : (i : Nat) + 1 < 6 := by omega
      simp [Route.reaches, Route.mcst, h6, hetype, SerdesTable.route, lan_of_not_gsw hg i]
    · intro t
      rw [hserdes, h t, serdes_isIn]
    · have hcpu := beq_eq_false_iff_ne.mpr h0
      have hdrop := beq_eq_false_iff_ne.mpr h15
      rw [← hwifi]
      simp [Route.reaches, Route.drops, Route.toWlan, hcpu, hdrop]
    · simp [Route.drops, h15]
    · exact ne_zero_of_hsgmii hh
  constructor
  · intro h
    have hlast : LastReaches x.soc portMask := by
      intro s
      rw [← hserdes, h.ports, serdes_isIn]
      rfl
    exact ⟨(hfor hlast).mp h, hlast⟩
  · intro h
    exact (hfor h.2).mpr h.1

/-! ### Port fields no handler writes -/

/-- Six bits of `etype` stand below the channels of the serdes ports. -/
theorem mcst_serdes (r : Route) (s : Serdes) :
    r.mcst s.mcstChannel =
      match s with
      | .pcie0 => (dataChannel r.data).getLsbD 4
      | .pcie1 => r.nbq.getLsbD 0
      | .usb => r.nbq.getLsbD 1
      | .eth => r.nbq.getLsbD 2 := by
  cases s <;> rfl

theorem mcst_lan (r : Route) (i : Fin 4) : r.mcst (i + 1) = r.etype.getLsbD (i + 1) := by
  have h6 : (i : Nat) + 1 < 6 := by omega
  simp only [Route.mcst, h6, if_true]

theorem lan_eq_false_iff :
    (∀ i : Fin 4, portMask.getLsbD i = false) ↔ portMask &&& 0xF#32 = 0#32 := by
  constructor
  · intro h
    have hbits : 0xF#32 = bit 32 0 ||| bit 32 1 ||| bit 32 2 ||| bit 32 3 := by decide
    have h0 := (and_bit_eq_zero_iff portMask 0).mpr (h 0)
    have h1 := (and_bit_eq_zero_iff portMask 1).mpr (h 1)
    have h2 := (and_bit_eq_zero_iff portMask 2).mpr (h 2)
    have h3 := (and_bit_eq_zero_iff portMask 3).mpr (h 3)
    simp [hbits, BitVec.and_or_distrib_left, h0, h1, h2, h3]
  · intro h
    exact lan_of_not_gsw (by simp [multicastGswExist, h])

theorem serdes_eq_false_iff :
    (∀ s : Serdes, portMask.getLsbD s.bit = false) ↔ portMask &&& 0xF0#32 = 0#32 := by
  constructor
  · intro h
    by_contra hne
    have hexist : multicastHsgmiiExist portMask = true := by simpa [multicastHsgmiiExist] using hne
    obtain ⟨s, hs⟩ := exists_serdes hexist
    rw [h s] at hs
    cases hs
  · intro h
    exact serdes_of_not_hsgmii (by simp [multicastHsgmiiExist, h])

theorem for_iff {soc : SerdesTable} {r : Route} :
    Route.For soc r portMask ↔
      (∀ i : Fin 4, r.reaches soc (.lan i) = portMask.getLsbD i) ∧
      (∀ s : Serdes, r.reaches soc (.serdes s) = portMask.getLsbD s.bit) ∧
      r.reaches soc .wlan = McastPort.isIn .wlan portMask ∧
      (r.drops = true ↔ portMask = 0#32) := by
  constructor
  · intro h
    exact ⟨fun i => h.ports (.lan i), fun s => h.ports (.serdes s), h.ports .wlan, h.drop⟩
  · intro h
    obtain ⟨hlan, hserdes, hwlan, hdrop⟩ := h
    constructor
    · intro p
      cases p with
      | lan i => exact hlan i
      | serdes s => exact hserdes s
      | wlan => exact hwlan
    · exact hdrop

theorem forall_serdes {p : Serdes → Prop} :
    (∀ s, p s) ↔ p .eth ∧ p .usb ∧ p .pcie0 ∧ p .pcie1 := by
  constructor
  · intro h
    exact ⟨h .eth, h .usb, h .pcie0, h .pcie1⟩
  · intro h s
    cases s with
    | pcie0 => exact h.2.2.1
    | pcie1 => exact h.2.2.2
    | usb => exact h.2.1
    | eth => exact h.1

/-- By the PSE port the entry has. -/
theorem for_iff_staleRight (soc : SerdesTable) (r : Route) (portMask : BitVec 32) :
    Route.For soc r portMask ↔ StaleRight soc r ((dataChannel r.data).getLsbD 4) portMask := by
  rw [for_iff, StaleRight]
  simp only [Route.reaches, Route.drops, mcst_lan, mcst_serdes, eq_comm (b := portMask.getLsbD _),
    eq_comm (b := McastPort.isIn .wlan portMask)]
  by_cases h15 : psePort r.ib2 = 15#32
  · -- DROP
    simp only [h15, if_true]
    constructor
    · intro h
      exact h.2.2.2.mp rfl
    · intro h
      subst h
      simp [McastPort.isIn]
  by_cases h0 : psePort r.ib2 = 0#32
  · -- the CPU
    simp [h0, lan_eq_false_iff, serdes_eq_false_iff]
    tauto
  by_cases h1 : psePort r.ib2 = 1#32
  · -- the switch
    simp [h1, serdes_eq_false_iff]
    tauto
  by_cases h14 : psePort r.ib2 = 14#32
  · -- the port MCST
    simp [h14, forall_serdes, Serdes.bit]
    tauto
  · -- the port of one serdes, or of none
    have hne := beq_eq_false_iff_ne.mpr h15
    have hne1 := beq_eq_false_iff_ne.mpr h1
    have hne14 := beq_eq_false_iff_ne.mpr h14
    simp [h15, h0, h1, h14, hne, hne1, hne14, lan_eq_false_iff]
    tauto

end Fields

/-! ## The bound entry -/

section Entry

variable {e e' : FoeEntry}

/-- The fields are not in the first word, but for the type. -/
theorem route_congr (htype : e'.pktType = e.pktType)
    (h : ∀ k : Fin 20, k ≠ 0 → e'.get k = e.get k) :
    e'.route = e.route := by
  have hib2 : (l2Of e.pktType).ib2 ≠ 0 := (view_ne_tags _).2.2.1
  have hat : (l2Of e.pktType).at 0 ≠ 0 := by
    cases l2Of e.pktType <;> decide
  simp only [FoeEntry.route, FoeEntry.ib2, FoeEntry.etype, FoeEntry.data_eq, htype,
    h _ hib2, h _ hat, h 10 (by decide)]

theorem pktType_stampCommit (ts : BitVec 32) (i : Nat) : (stampCommit ts i e).pktType = e.pktType :=
  pktType_of_field (field_stampCommit ts i e (by decide) (by decide))

theorem pktType_putBind : e.putBind.pktType = e.pktType :=
  pktType_of_field (field_putBind e (by decide))

theorem route_stampCommit (ts : BitVec 32) (i : Nat) : (stampCommit ts i e).route = e.route :=
  route_congr (pktType_stampCommit ts i) fun _ hk => get_stampCommit hk

theorem route_putBind : e.putBind.route = e.route :=
  route_congr pktType_putBind fun _ hk => get_putBind hk

theorem state_putBind (e : FoeEntry) : e.putBind.state = .bind := by
  have htwo : 2#32 &&& mask 32 0 2 = 2#32 := by decide
  have hib1 : e.putBind.ib1 = (e.ib1 &&& ~~~mask 32 28 2) ||| fieldPrep 28 2 2#32 := by
    simp [FoeEntry.putBind, FoeEntry.putIb1, FoeEntry.ib1, FoeEntry.put]
  simp (disch := decide) [FoeEntry.state, hib1, fieldGet_clear_self, fieldGet_fieldPrep_self, htwo,
    FoeState.ofCode]

theorem stampCommit_keeps_bind (ts : BitVec 32) (i : Nat) (h : e.state = .bind) :
    (stampCommit ts i e).state = .bind := by
  have hne : e.state ≠ .unbind := by
    rw [h]
    decide
  rw [state_stampCommit ts i hne, h]

theorem get_zero_multicastFill (data val : BitVec 32) (stagDp : BitVec 16) :
    (multicastFill data val stagDp e).get 0 = e.get 0 := by
  unfold multicastFill
  cases e.pktType <;>
    simp [FoeEntry.putData, FoeEntry.putIb2, FoeEntry.putEtype, FoeEntry.get_put, L2.ib2, L2.at]

theorem get_zero_dropFill : (dropFill e).get 0 = e.get 0 := by
  unfold dropFill
  cases e.pktType <;> simp [FoeEntry.putIb2, FoeEntry.get_put, L2.ib2]

/-- What a first word says. -/
theorem said_of_get_zero (h : e'.get 0 = e.get 0) :
    e'.pktType = e.pktType ∧ e'.state = e.state := by
  have hib1 : e'.ib1 = e.ib1 := h
  simp only [FoeEntry.pktType, FoeEntry.state, hib1, and_self]

/-- A type is filled in the view it is read in, but for a bridged flow, whose `ib2` of that view
gets `stag_dp` for its upper half, and the type that is none. -/
theorem route_multicastFill (f : HwnatFields) :
    (multicastFill f.data f.val f.stagDp e).route =
      match e.pktType with
      | .bridge => { e.route with ib2 := putHi16 e.route.ib2 f.stagDp, data := f.data }
      | .reserved => e.route
      | _ => f.route := by
  have htype := (said_of_get_zero (get_zero_multicastFill f.data f.val f.stagDp (e := e))).1
  simp only [FoeEntry.route, htype]
  cases h : e.pktType <;>
    simp [multicastFill, h, FoeEntry.putData, FoeEntry.putIb2, FoeEntry.putEtype, FoeEntry.ib2,
      FoeEntry.etype, FoeEntry.data_eq, FoeEntry.get_put, L2.ib2, L2.at, l2Of, PktType.code,
      HwnatFields.route]

theorem route_dropFill :
    (dropFill e).route =
      match e.pktType with
      | .bridge | .reserved => e.route
      | _ => { e.route with ib2 := dropIb2 } := by
  have htype := (said_of_get_zero (get_zero_dropFill (e := e))).1
  simp only [FoeEntry.route, htype]
  cases h : e.pktType <;>
    simp [dropFill, h, FoeEntry.putIb2, FoeEntry.ib2, FoeEntry.etype, FoeEntry.data_eq,
      FoeEntry.get_put, L2.ib2, L2.at, l2Of, PktType.code]

end Entry

/-- The entry a handler binds, once the flow has passed. -/
def boundEntry (x : McastEnv) (foeIndex : Nat) (portMask : BitVec 32) (e : FoeEntry) : FoeEntry :=
  match handlerFields x portMask 0 with
  | some f => arhtMulticastHwnatStateHandlerCommon f.data f.val f.stagDp x.ts e
  | none => stampCommit x.ts foeIndex (dropFill e)

section Bound

variable {x : McastEnv} {i : Nat} {portMask : BitVec 32} {e : FoeEntry}

theorem state_boundEntry : (boundEntry x i portMask e.putBind).state = .bind := by
  cases hf : handlerFields x portMask 0 with
  | none =>
    have hfill : (dropFill e.putBind).state = .bind :=
      (said_of_get_zero get_zero_dropFill).2.trans (state_putBind e)
    simp only [boundEntry, hf, stampCommit_keeps_bind x.ts i hfill]
  | some f =>
    have hfill : (multicastFill f.data f.val f.stagDp e.putBind).state = .bind :=
      (said_of_get_zero (get_zero_multicastFill f.data f.val f.stagDp)).2.trans (state_putBind e)
    simp only [boundEntry, hf, arhtMulticastHwnatStateHandlerCommon,
      stampCommit_keeps_bind x.ts 0 hfill]

/-- Only the lower half of `ib2` is looked at. -/
theorem for_of_lo16 {soc : SerdesTable} {r r' : Route} (hlo : lo16 r.ib2 = lo16 r'.ib2)
    (hetype : r.etype = r'.etype) (hdata : r.data = r'.data) (h : Route.For soc r portMask) :
    Route.For soc r' portMask := by
  have hport : psePort r.ib2 = psePort r'.ib2 := fieldGet_of_lo16 (by decide) hlo
  have hnbq : r.nbq = r'.nbq := fieldGet_of_lo16 (by decide) hlo
  have hmark : r.ib2.getLsbD 11 = r'.ib2.getLsbD 11 := by
    have hbit := congrArg (fun v => v.getLsbD 11) hlo
    simp only [getLsbD_lo16] at hbit
    simpa only [Nat.reduceLT, decide_true, Bool.true_and] using hbit
  have hwlan : r.toWlan = r'.toWlan := by
    simp only [Route.toWlan, hmark, hport, hetype]
  have hdrops : r.drops = r'.drops := by
    simp only [Route.drops, hport]
  constructor
  · intro p
    rw [← reaches_congr hport hnbq (congrArg dataChannel hdata) hetype fun _ => hwlan]
    exact h.ports p
  · rw [← hdrops]
    exact h.drop

/-- The classes and their states. -/
theorem fwdState_cases (portMask : BitVec 32) :
    match arhtMuliticastGetForwardState portMask with
    | .lanOnly => multicastHsgmiiExist portMask = false ∧ multicastGswExist portMask = true
    | .wlanOnly => multicastHsgmiiExist portMask = false ∧ multicastGswExist portMask = false ∧
        multicastWlanExist portMask = true
    | .xsiOnly => multicastHsgmiiExist portMask = true ∧ multicastGswExist portMask = false
    | .lanHsgmii1toN => multicastHsgmiiExist portMask = true ∧ multicastGswExist portMask = true
    | .unknown => True := by
  unfold arhtMuliticastGetForwardState
  cases multicastHsgmiiExist portMask <;> cases multicastGswExist portMask <;>
    cases multicastWlanExist portMask <;> simp

/-- The fields of a handler, in the view that is read. -/
theorem for_handlerFields_iff {f : HwnatFields} (hf : handlerFields x portMask 0 = some f) :
    Route.For x.soc f.route portMask ↔
      match arhtMuliticastGetForwardState portMask with
      | .unknown => portMask = 0#32
      | .xsiOnly => WlanSeen portMask ∧ LastReaches x.soc portMask
      | _ => WlanSeen portMask := by
  have hclass := fwdState_cases portMask
  unfold handlerFields at hf
  cases hs : arhtMuliticastGetForwardState portMask with
  | lanOnly =>
    rw [hs] at hf hclass
    cases hf
    exact for_lanOnly_iff hclass.2 hclass.1
  | wlanOnly =>
    rw [hs] at hf hclass
    cases hf
    exact for_wlanOnly_iff x.soc hclass.2.1 hclass.1 hclass.2.2
  | xsiOnly =>
    rw [hs] at hf hclass
    cases hf
    exact for_xsiOnly_iff hclass.2 hclass.1
  | lanHsgmii1toN =>
    rw [hs] at hf hclass
    cases hf
    exact for_lanHsgmii1toN_iff x.soc hclass.2
  | unknown =>
    rw [hs] at hf
    cases hf

theorem handlerFields_eq_none_iff :
    handlerFields x portMask 0 = none ↔ arhtMuliticastGetForwardState portMask = .unknown := by
  unfold handlerFields
  cases arhtMuliticastGetForwardState portMask <;> simp

/-- No switch port has a channel above 4. -/
theorem channelLoop_le (gswSpeed : Nat → BitVec 32) (stagDp : BitVec 32) {is : List Nat}
    (his : ∀ i ∈ is, i < 4) :
    ∀ {maxSpeed : BitVec 32} {channel : Nat}, channel ≤ 4 →
      channelLoop gswSpeed stagDp is maxSpeed channel ≤ 4 := by
  induction is with
  | nil => exact fun h => h
  | cons i is ih =>
    intro maxSpeed channel h
    have hi : i < 4 := his i List.mem_cons_self
    have hrest : ∀ {maxSpeed : BitVec 32} {channel : Nat}, channel ≤ 4 →
        channelLoop gswSpeed stagDp is maxSpeed channel ≤ 4 :=
      ih fun k hk => his k (List.mem_cons_of_mem i hk)
    rw [channelLoop]
    split_ifs
    · exact hrest h
    · dsimp only
      split_ifs
      · exact hi
      · exact hrest hi
    · dsimp only
      split_ifs
      · exact h
      · exact hrest h

theorem pcie0_dataChannel (data : BitVec 32) : (dataChannel data).getLsbD 4 = data.getLsbD 15 := by
  rw [dataChannel, getLsbD_fieldGet]
  simp

/-- CHANNEL of the data that a handler writes, at the bit of PCIE0. -/
theorem pcie0Channel_eq {f : HwnatFields} (hf : handlerFields x portMask 0 = some f) :
    (dataChannel f.data).getLsbD 4 = pcie0Channel x.soc e portMask := by
  have hclass := fwdState_cases portMask
  unfold handlerFields at hf
  unfold pcie0Channel
  cases hs : arhtMuliticastGetForwardState portMask with
  | lanOnly =>
    rw [hs] at hf
    cases hf
    have hle : channelLoop x.gswSpeed (stagDpOf portMask) [0, 1, 2, 3] 0#32 1 ≤ 4 :=
      channelLoop_le x.gswSpeed (stagDpOf portMask) (by decide) (by decide)
    have hbit :
        (arhtMulticastGetChannelByStag x.gswSpeed (stagDpOf portMask)).getLsbD 4 = false := by
      rw [arhtMulticastGetChannelByStag, BitVec.getLsbD_ofNat, Nat.testBit_lt_two_pow (by omega)]
      rfl
    rw [pcie0_dataChannel]
    simp only [lanOnlyFields, BitVec.getLsbD_or, getLsbD_fieldPrep, hbit]
    decide
  | wlanOnly =>
    rw [hs] at hf
    cases hf
    rfl
  | xsiOnly =>
    rw [hs] at hf hclass
    cases hf
    rw [xsiOnlyFields_eq hclass.1, pcie0_dataChannel]
    simp only [BitVec.getLsbD_or, getLsbD_fieldPrep]
    simp
  | lanHsgmii1toN =>
    rw [hs] at hf
    cases hf
    exact mcst_lanHsgmii1toN .pcie0
  | unknown =>
    rw [hs] at hf
    cases hf

theorem for_boundEntry_iff :
    Route.For x.soc (boundEntry x i portMask e.putBind).route portMask ↔
      PortsRight x e portMask := by
  cases hf : handlerFields x portMask 0 with
  | none =>
    have hu := handlerFields_eq_none_iff.mp hf
    simp only [boundEntry, PortsRight, hf, hu, route_stampCommit, route_dropFill, pktType_putBind,
      route_putBind]
    have hdrop : Route.For x.soc { e.route with ib2 := dropIb2 } portMask ↔ portMask = 0#32 :=
      for_drop_iff rfl hu
    have hstale := for_iff_staleRight x.soc e.route portMask
    cases e.pktType <;> simp only [hdrop, hstale, pcie0Channel, hu]
    · exact Iff.rfl
    · exact Iff.rfl
  | some f =>
    have hiff := for_handlerFields_iff hf
    simp only [boundEntry, PortsRight, hf, arhtMulticastHwnatStateHandlerCommon, route_stampCommit,
      route_multicastFill, pktType_putBind, route_putBind]
    have hlo : Route.For x.soc
        { e.route with ib2 := putHi16 e.route.ib2 f.stagDp, data := f.data } portMask ↔
          Route.For x.soc { e.route with data := f.data } portMask :=
      ⟨for_of_lo16 lo16_putHi16 rfl rfl, for_of_lo16 lo16_putHi16.symm rfl rfl⟩
    cases e.pktType <;> simp only [hiff, hlo, for_iff_staleRight]
    · rw [pcie0Channel_eq hf]
      exact Iff.rfl
    · exact Iff.rfl

/-! ## The handlers -/

/-- With an entry to look at, the check has an answer. -/
theorem matchFoeFlow_some (hwe : FoeEntry) (flows : List FoeEntry) :
    ∃ b, arhtMulticastMatchFoeFlow (some hwe) flows = some b := by
  induction flows with
  | nil => exact ⟨false, rfl⟩
  | cons f flows ih =>
    rw [arhtMulticastMatchFoeFlow]
    split_ifs
    · exact ⟨true, rfl⟩
    · exact ih

theorem checkedHandler_none (f : HwnatFields) : (checkedHandler x none i f).commit = none := by
  unfold checkedHandler
  split <;> rfl

theorem checkedHandler_some (c : FoeCell) (f : HwnatFields) :
    checkedHandler x (some c) i f =
      if arhtPpeMulticastCheckValid x (some c.foe) i = some true then
        bindCommit x (some c) i (arhtMulticastHwnatStateHandlerCommon f.data f.val f.stagDp x.ts)
      else { ret := some 0, hwe := some c, commit := none } := by
  have hanswer : ∃ b, arhtPpeMulticastCheckValid x (some c.foe) i = some b := by
    unfold arhtPpeMulticastCheckValid
    split_ifs
    · exact ⟨true, rfl⟩
    · exact matchFoeFlow_some c.foe x.foeFlow
  obtain ⟨b, hb⟩ := hanswer
  cases b <;> simp [checkedHandler, hb]

/-- Every handler that checks is `checkedHandler` with its fields. -/
theorem stateHandler_eq (hwe : Option FoeCell) :
    arhtMulticastHwnatStateHandler x hwe i portMask 0 =
      match handlerFields x portMask 0 with
      | some f => checkedHandler x hwe i f
      | none => bindCommit x hwe i fun e => stampCommit x.ts i (dropFill e) := by
  unfold arhtMulticastHwnatStateHandler handlerFields
  cases arhtMuliticastGetForwardState portMask <;> rfl

theorem stateHandler_none : (arhtMulticastHwnatStateHandler x none i portMask 0).commit = none := by
  rw [stateHandler_eq]
  cases handlerFields x portMask 0 with
  | none => rfl
  | some f => exact checkedHandler_none f

theorem stateHandler_some (c : FoeCell) :
    arhtMulticastHwnatStateHandler x (some c) i portMask 0 =
      if arhtMuliticastGetForwardState portMask = .unknown ∨
          arhtPpeMulticastCheckValid x (some c.foe) i = some true then
        bindCommit x (some c) i (boundEntry x i portMask)
      else { ret := some 0, hwe := some c, commit := none } := by
  have hclass := @handlerFields_eq_none_iff x portMask
  rw [stateHandler_eq]
  cases hf : handlerFields x portMask 0 with
  | none => simp [hclass.mp hf, bindCommit, boundEntry, hf]
  | some f =>
    have hknown : arhtMuliticastGetForwardState portMask ≠ .unknown := by
      simp [← hclass, hf]
    simp [hknown, checkedHandler_some, bindCommit, boundEntry, hf]

end Bound

/-! ## The update -/

section Update

variable {x : McastEnv} {entry : MulticastHwnatEntry} {portMask : BitVec 32} {t : Nat → FoeCell}

/-- The update behind the read of the entry. -/
def updateBehind (x : McastEnv) (entry : MulticastHwnatEntry) (portMask : BitVec 32)
    (t : Nat → FoeCell) (hwe : Option FoeCell) : Updated :=
  let h := arhtMulticastHwnatStateHandler x hwe entry.foeIndex portMask 0
  { ret := h.ret.map fun _ => 0
    entry := entry.renew portMask
    foe := putHwe t entry.foeIndex h.hwe
    commit := h.commit }

/-- Nothing is bound, and the software entry has the new mask. -/
theorem not_agrees_of_commit {u : Updated} (hm : entry.portMask ≠ portMask)
    (hentry : u.entry = entry.renew portMask) (hc : u.commit ≠ some 0) :
    ¬UpdateAgrees x entry portMask u := by
  intro h
  have hmask := (h.unbound hc).2
  rw [hentry] at hmask
  exact hm hmask.symm

/-- What a commit that is taken leaves for the engine. -/
theorem entry_foeCommitEntry {i : Nat} (c : FoeCell) (h : x.commitErr i = 0) :
    (airohaPpeFoeCommitEntry x.hw i c).entry x.hw i = c.foe := by
  have hacks : i < x.hw.sramNum → x.hw.Commits i := by
    intro hi
    unfold McastEnv.commitErr at h
    split_ifs at h with hnpu hlost
    exact ⟨hi, by simpa [hi] using hlost⟩
  unfold airohaPpeFoeCommitEntry FoeCell.entry
  by_cases hi : i < x.hw.sramNum
  · simp [hi, hacks hi]
  · have hno : ¬x.hw.Commits i := fun hc => hi hc.1
    simp [hi, hno]

theorem agrees_updateBehind_iff (hm : entry.portMask ≠ portMask) (c : FoeCell) {e : FoeEntry}
    (hports : PortsRight x c.foe portMask ↔ PortsRight x e portMask) :
    UpdateAgrees x entry portMask (updateBehind x entry portMask t (some c)) ↔
      (arhtMuliticastGetForwardState portMask = .unknown ∨
        arhtPpeMulticastCheckValid x (some c.foe) entry.foeIndex = some true) ∧
      x.commitErr entry.foeIndex = 0 ∧ PortsRight x e portMask := by
  by_cases hpass : arhtMuliticastGetForwardState portMask = .unknown ∨
      arhtPpeMulticastCheckValid x (some c.foe) entry.foeIndex = some true
  · by_cases herr : x.commitErr entry.foeIndex = 0
    · have hu : updateBehind x entry portMask t (some c) =
          { ret := some 0
            entry := entry.renew portMask
            foe := Function.update t entry.foeIndex (airohaPpeFoeCommitEntry x.hw entry.foeIndex
              { c with foe := boundEntry x entry.foeIndex portMask c.foe.putBind })
            commit := some 0 } := by
        simp [updateBehind, stateHandler_some, hpass, bindCommit, herr, putHwe]
      have hentry : ((updateBehind x entry portMask t (some c)).foe entry.foeIndex).entry x.hw
          entry.foeIndex = boundEntry x entry.foeIndex portMask c.foe.putBind := by
        simp only [hu, Function.update_self, entry_foeCommitEntry _ herr]
      simp only [hpass, herr, true_and, ← hports]
      constructor
      · intro h
        have hret := h.returned (by rw [hu])
        rw [hentry] at hret
        exact for_boundEntry_iff.mp hret.2.2.1
      · intro h
        constructor
        · intro _
          rw [hentry]
          exact ⟨by rw [hu], state_boundEntry, for_boundEntry_iff.mpr h, by rw [hu]; rfl⟩
        · intro hc
          exact absurd (by rw [hu]) hc
    · have hc : (updateBehind x entry portMask t (some c)).commit ≠ some 0 := by
        simp [updateBehind, stateHandler_some, hpass, bindCommit, herr]
      simp [not_agrees_of_commit hm rfl hc, herr]
  · have hc : (updateBehind x entry portMask t (some c)).commit ≠ some 0 := by
      simp [updateBehind, stateHandler_some, hpass]
    simp [not_agrees_of_commit hm rfl hc, hpass]

/-- The new tuple is not among what the ports are read from. -/
theorem portsRight_copyNewTuple (e : FoeEntry) :
    PortsRight x (copyNewTuple e) portMask ↔ PortsRight x e portMask := by
  have htype : (copyNewTuple e).pktType = e.pktType := by
    refine (said_of_get_zero ?_).1
    unfold copyNewTuple
    split_ifs <;> simp [FoeEntry.get_put]
  cases h : isIpv4Grp e.pktType with
  | false => simp [copyNewTuple, h]
  | true =>
    simp only [PortsRight, htype]
    cases ht : e.pktType <;> simp_all [isIpv4Grp]

theorem listUpdate_eq (hs : entry.state ≠ .unbind) (hm : entry.portMask ≠ portMask) :
    arhtMulticastHwnatListUpdate x entry portMask t = updateBehind x entry portMask t
      (airohaPpeFoeGetEntry x.hw entry.foeIndex (t entry.foeIndex)) := by
  simp [arhtMulticastHwnatListUpdate, MulticastHwnatEntry.refuses, hs, hm, updateBehind]

theorem listUpdateLan_eq (hs : entry.state ≠ .unbind) (hm : entry.portMask ≠ portMask) :
    arhtMulticastHwnatListUpdateLan x entry portMask t =
      match airohaPpeFoeGetEntry x.hw entry.foeIndex (t entry.foeIndex) with
      | none => { ret := some (-1), entry := entry.renew portMask, foe := t, commit := none }
      | some c => updateBehind x entry portMask t (some { c with foe := copyNewTuple c.foe }) := by
  simp only [arhtMulticastHwnatListUpdateLan, MulticastHwnatEntry.refuses, hs, hm, updateBehind]
  rfl

/-- Both updates, on every entry that takes one: software and engine agree behind it exactly when
the entry can be read, the flow is valid, the commit is taken and the handler has the ports
right. -/
theorem multicastUpdate_iff (x : McastEnv) (entry : MulticastHwnatEntry) (portMask : BitVec 32)
    (t : Nat → FoeCell) (hs : entry.state ≠ .unbind) (hm : entry.portMask ≠ portMask) :
    (UpdateAgrees x entry portMask (arhtMulticastHwnatListUpdate x entry portMask t) ↔
        Updatable x entry portMask t id) ∧
      (UpdateAgrees x entry portMask (arhtMulticastHwnatListUpdateLan x entry portMask t) ↔
        Updatable x entry portMask t copyNewTuple) := by
  rw [listUpdate_eq hs hm, listUpdateLan_eq hs hm]
  by_cases hr : x.hw.Readable entry.foeIndex
  · obtain ⟨c, hget, hfoe, -⟩ := airohaPpeFoeGetEntry_of_readable (c := t entry.foeIndex) hr
    have hok : ∀ copy, Updatable x entry portMask t copy ↔
        (arhtMuliticastGetForwardState portMask = .unknown ∨
          arhtPpeMulticastCheckValid x (some (copy c.foe)) entry.foeIndex = some true) ∧
        x.commitErr entry.foeIndex = 0 ∧ PortsRight x c.foe portMask := by
      intro copy
      rw [hfoe]
      exact ⟨fun h => ⟨h.valid, h.commits, h.ports⟩, fun h => ⟨hr, h.1, h.2.1, h.2.2⟩⟩
    rw [hget, hok, hok]
    exact ⟨agrees_updateBehind_iff hm c Iff.rfl,
      agrees_updateBehind_iff hm { c with foe := copyNewTuple c.foe }
        (portsRight_copyNewTuple c.foe)⟩
  · rw [airohaPpeFoeGetEntry_of_not_readable hr]
    have hno : ∀ copy, ¬Updatable x entry portMask t copy := fun _ h => hr h.readable
    have hc : (updateBehind x entry portMask t none).commit ≠ some 0 := by
      simp [updateBehind, stateHandler_none]
    have hlan : ¬UpdateAgrees x entry portMask
        { ret := some (-1), entry := entry.renew portMask, foe := t, commit := none } := by
      refine not_agrees_of_commit hm rfl ?_
      simp
    simp [hno, not_agrees_of_commit hm rfl hc, hlan]

end Update

/-- On an EN7581 the PSE port and NBQ of a serdes are no other's. -/
theorem reaches_en7581 (s s' : Serdes) :
    (en7581SerdesTable.route s').reaches en7581SerdesTable (.serdes s) = decide (s = s') := by
  cases s <;> cases s' <;> decide

/-- On an EN7581 a mask of serdes ports only is right when it has one of them. -/
theorem lastReaches_en7581_iff {portMask : BitVec 32} (h : multicastHsgmiiExist portMask = true) :
    LastReaches en7581SerdesTable portMask ↔ ∃! s : Serdes, s.isIn portMask = true := by
  have hlast : Serdes.isIn (lastSerdes portMask) portMask = true := by
    obtain ⟨s, hs⟩ := exists_serdes h
    rw [← serdes_isIn] at hs
    unfold lastSerdes
    split_ifs with h1 h0 hu
    · exact h1
    · exact h0
    · exact hu
    · cases s with
      | eth => exact hs
      | usb => exact absurd hs hu
      | pcie0 => exact absurd hs h0
      | pcie1 => exact absurd hs h1
  simp only [LastReaches, reaches_en7581]
  constructor
  · intro hall
    refine ⟨lastSerdes portMask, hlast, ?_⟩
    intro s hs
    rw [← hall s] at hs
    exact of_decide_eq_true hs
  · intro hone s
    by_cases hs : s = lastSerdes portMask
    · rw [hs, hlast]
      exact decide_eq_true rfl
    · cases hin : s.isIn portMask with
      | false => exact decide_eq_false hs
      | true => exact absurd (hone.unique hin hlast) hs

/-- A valid IPv4 flow on an EN7581, its engine and its software entry. -/
def mcastEnv : McastEnv where
  hw :=
    { sramNum := 1, numEntries := 1, acks := fun _ => true, writeAcks := fun _ => true,
      npu := true }
  ts := 7#32
  soc := en7581SerdesTable
  gswSpeed := fun _ => 1000#32
  getValidHook := some fun _ => 1
  foeFlow := []

def mcastEntry : MulticastHwnatEntry where
  foeIndex := 0
  portMask := 0x1#32
  state := .binded

def mcastTable : Nat → FoeCell := fun _ =>
  { foe := Vector.replicate 20 0#32, sram := Vector.replicate 20 0#32 }

/-- Two switch ports, ETH and an interface of the WLAN, the one that is looked for: right. -/
theorem multicastUpdate_mixedPorts :
    UpdateAgrees mcastEnv mcastEntry 0x80000013#32
      (arhtMulticastHwnatListUpdate mcastEnv mcastEntry 0x80000013#32 mcastTable) := by
  refine (multicastUpdate_iff mcastEnv mcastEntry 0x80000013#32 mcastTable (by decide)
    (by decide)).1.mpr ?_
  constructor
  · decide
  · exact Or.inr rfl
  · rfl
  · intro _
    rfl

/-- ETH and USB: only USB is kept. -/
theorem not_multicastUpdate_twoSerdes :
    mcastEntry.state ≠ .unbind ∧ mcastEntry.portMask ≠ 0x30#32 ∧
      ¬UpdateAgrees mcastEnv mcastEntry 0x30#32
        (arhtMulticastHwnatListUpdate mcastEnv mcastEntry 0x30#32 mcastTable) := by
  refine ⟨by decide, by decide, ?_⟩
  intro h
  have hport := (h.returned rfl).2.2.1.ports (.serdes .eth)
  revert hport
  decide

end Airoha.Ppe
