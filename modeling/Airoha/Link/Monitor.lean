/-
Airoha.Link.Monitor — the link monitor.

Translates `airoha_eth_monitor` of `arht_dp_api.c` with all it does on a change
of a link: the channels of the GDM, the four stop bits of the XFI MAC, the queues
of the QDMA channel, the release of GDM4 and the arbiter resets, the rate limit of
the channel, and the calls that delete flows. The operations are those of the
EN7581. What the monitor reads of the net devices is given by `Obs`, and `hw k`
says whether the `k`-th `read_poll_timeout` sees its condition in time.

Left out: `arht_switch_set_mfc_hook` and `EphyMonitor`, which concern the
switch, the pauses between the writes, and the messages.
-/
import Airoha.Lib.Changes
import Airoha.Lib.Regmap

namespace Airoha.Link

open Airoha.Lib

/-! ## Devices -/

/-- `struct airoha_gdm_dev`: `port->id`, `nbq`, whether the net device uses DSA, `qdma` and
`xfi_mac`. -/
structure GdmDev where
  id : Nat
  nbq : Nat
  dsa : Bool
  qdma : Nat
  xfiMac : Option Nat
  deriving DecidableEq

/-- `struct airoha_eth_soc_data`, by serdes. -/
structure SocData where
  fport : Nat → Nat
  nbq : Nat → Nat
  chnl : Nat → Nat

def airohaGdm3Idx : Nat := 3
def airohaGdm4Idx : Nat := 4
def fePsePortGdm3 : Nat := 3
def fePsePortGdm4 : Nat := 9

def serdesPcie0Idx : Nat := 0
def serdesPcie1Idx : Nat := 1
def serdesUsbIdx : Nat := 2
def serdesEthIdx : Nat := 4
def serdesMaxIdx : Nat := 5

/-- `en7581_soc_data`. What it does not name is zero. -/
def en7581SocData : SocData where
  fport i := if i ≤ serdesPcie1Idx then fePsePortGdm3
    else if i = serdesEthIdx ∨ i = serdesUsbIdx then fePsePortGdm4 else 0
  nbq i := if i = serdesPcie0Idx then 4 else if i = serdesPcie1Idx then 5
    else if i = serdesUsbIdx then 1 else 0
  chnl i := if i = serdesPcie0Idx then 10 else if i = serdesPcie1Idx then 11
    else if i = serdesEthIdx then 13 else if i = serdesUsbIdx then 12 else 0

/-- `airoha_get_fe_port` -/
def airohaGetFePort (dev : GdmDev) : Nat := if dev.id = airohaGdm4Idx then fePsePortGdm4 else dev.id

/-- `expected_port_id` -/
def expectedPortId (fport : Nat) : Option Nat :=
  if fport = fePsePortGdm3 then some airohaGdm3Idx
  else if fport = fePsePortGdm4 then some airohaGdm4Idx else none

/-- `get_serdes_info_from_dev`: the serdes and its channel. -/
def getSerdesInfoFromDev (soc : SocData) (dev : GdmDev) : Option (Nat × Nat) :=
  ((List.range serdesMaxIdx).find? fun i =>
    soc.nbq i == dev.nbq && expectedPortId (soc.fport i) == some dev.id).map
      fun i => (i, soc.chnl i)

/-- The entry of `eth_lastlinks` for a serdes: `ARHT_ETH_PORT_2`, `ARHT_ETH_PORT_3` or
`ARHT_ETH_PORT_4`. -/
def serdesPort (idx : Nat) : Option Nat :=
  if idx = serdesEthIdx then some 6
  else if idx = serdesPcie0Idx ∨ idx = serdesPcie1Idx then some 7
  else if idx = serdesUsbIdx then some 8 else none

/-- `en7581_support_eth_monitor` -/
def en7581SupportEthMonitor (p : Nat) : Bool := p != 1 && p != 2

/-! ## The state -/

/-- What is called, or printed, with its arguments. Interfaces are told by their entry of
`eth_lastlinks`. -/
inductive Call where
  /-- `qdma_set_qdmalan_tx_ratelimit` -/
  | rate (chnlIdx : Nat) (value : BitVec 32)
  /-- `Link Up Check Success!` -/
  | up (itf : Nat)
  /-- `airoha_flow_table_entries_lan` -/
  | flows (itf : Nat)
  /-- `ra_sw_nat_hook_clean_entry_by_fport_and_channel` -/
  | clean (fport channel : Nat)
  /-- `Link Down GDM…` -/
  | down (itf : Nat) (released : Option Bool)
  deriving DecidableEq

/-- The registers of the frame engine, of each QDMA and of each XFI MAC, `eth_lastlinks`,
`gsw_speed`, `xsi_speed`, the polls made, and the calls. -/
structure Mon where
  fe : Regs
  qdma : Nat → Regs
  xfi : Nat → Regs
  lastlinks : Nat → Bool
  gswSpeed : Nat → BitVec 32
  xsiSpeed : Nat → BitVec 32
  polls : Nat
  calls : List Call

/-- What is read of a net device: the speed, if it tells one, and whether the link is up. -/
structure Itf where
  speed : Option (BitVec 32)
  link : Bool

/-- What a run of the monitor reads: `lan1` to `lan4` where they are there and running, and the
devices of the serdes ports, whose link is up where they run and have a carrier. -/
structure Obs where
  lan : Nat → Option Itf
  dev : GdmDev → Itf

/-! ## Registers -/

def gdmBase (n : Nat) : Nat :=
  if n = 4 then 0x2500 else if n = 3 then 0x1100 else if n = 2 then 0x1500 else 0x0500

def regGdmTxchnEn (n : Nat) : Nat := gdmBase n + 0x24
def regGdmRxchnEn (n : Nat) : Nat := gdmBase n + 0x28
def regGdm4ChnRls : Nat := gdmBase 4 + 0x20
def feResetGlo : Nat := 0x0004

def regQueueCloseCfg (n : Nat) : Nat := 0x00a0 + (n &&& 0xfc)
def txqDisableChanQueueMask (n m : Nat) : BitVec 32 := bit 32 (m + ((n &&& 3) <<< 3))

def xfiGibCfg : Nat := 0x0
def xfiLogicRst : Nat := 0x10

/-- `RXMPI_STOP`, `RXMBI_STOP`, `TXMPI_STOP` and `TXMBI_STOP` -/
def xfiRxmpiStop : BitVec 32 := bit 32 3
def xfiRxmbiStop : BitVec 32 := bit 32 2
def xfiTxmpiStop : BitVec 32 := bit 32 1
def xfiTxmbiStop : BitVec 32 := bit 32 0

/-- `airoha_rmw` -/
def rmw (offset : Nat) (msk val : BitVec 32) (r : Regs) : Regs :=
  Function.update r offset ((r offset &&& ~~~msk) ||| val)

/-- `regmap_set_bits` -/
def regmapSetBits (reg : Nat) (bits : BitVec 32) (r : Regs) : Regs := updateBits reg bits bits r

/-- `regmap_clear_bits` -/
def regmapClearBits (reg : Nat) (bits : BitVec 32) (r : Regs) : Regs := updateBits reg bits 0#32 r

/-- `airoha_gdma_start_TxRx_channel` -/
def gdmaStartTxRxChannel (dev : GdmDev) (s : Mon) : Mon :=
  { s with
    fe := Function.update (Function.update s.fe (regGdmTxchnEn dev.id) 0xffffffff#32)
      (regGdmRxchnEn dev.id) 0xffff#32 }

/-- `airoha_gdma_stop_TxRx_channel` -/
def gdmaStopTxRxChannel (dev : GdmDev) (s : Mon) : Mon :=
  { s with
    fe := Function.update (Function.update s.fe (regGdmTxchnEn dev.id) 0#32)
      (regGdmRxchnEn dev.id) 0#32 }

/-- Something done to the XFI MAC of a device, if it has one. -/
def onXfi (dev : GdmDev) (f : Regs → Regs) (s : Mon) : Mon :=
  { s with
    xfi := match dev.xfiMac with
      | none => s.xfi
      | some x => Function.update s.xfi x (f (s.xfi x)) }

/-- `airoha_xsi_mac_start` -/
def xsiMacStart (dev : GdmDev) : Mon → Mon :=
  onXfi dev fun r =>
    regmapClearBits xfiGibCfg xfiTxmbiStop <| regmapClearBits xfiGibCfg xfiTxmpiStop <|
      regmapClearBits xfiGibCfg xfiRxmpiStop <| regmapClearBits xfiGibCfg xfiRxmbiStop r

/-- `airoha_xsi_mac_stop` -/
def xsiMacStop (dev : GdmDev) : Mon → Mon :=
  onXfi dev fun r =>
    regmapSetBits xfiGibCfg xfiTxmpiStop <| regmapSetBits xfiGibCfg xfiTxmbiStop <|
      regmapSetBits xfiGibCfg xfiRxmbiStop <| regmapSetBits xfiGibCfg xfiRxmpiStop r

/-- `airoha_xsi_mac_reset` -/
def xsiMacReset (dev : GdmDev) : Mon → Mon :=
  onXfi dev fun r => regmapSetBits xfiLogicRst (bit 32 0) (regmapClearBits xfiLogicRst (bit 32 0) r)

/-- `AIROHA_NUM_QOS_QUEUES` -/
def numQosQueues : Nat := 8

/-- `airoha_qdma_start_channel` -/
def qdmaStartChannel (dev : GdmDev) (channel : Nat) (s : Mon) : Mon :=
  { s with
    qdma := Function.update s.qdma dev.qdma
      ((List.range numQosQueues).foldl
        (fun r i => rmw (regQueueCloseCfg channel) (txqDisableChanQueueMask channel i) 0#32 r)
        (s.qdma dev.qdma)) }

/-- `airoha_qdma_stop_channel` -/
def qdmaStopChannel (dev : GdmDev) (channel : Nat) (s : Mon) : Mon :=
  { s with
    qdma := Function.update s.qdma dev.qdma
      ((List.range numQosQueues).foldl
        (fun r i => rmw (regQueueCloseCfg channel) 0#32 (txqDisableChanQueueMask channel i) r)
        (s.qdma dev.qdma)) }

/-! ## The release of GDM4 -/

section Poll

variable (hw : Nat → Bool)

/-- `read_poll_timeout` of a register that the hardware changes: whether it ran out of time. -/
def readPollTimeout (s : Mon) : Bool × Mon := (!hw s.polls, { s with polls := s.polls + 1 })

/-- `airoha_fe_gdm_rls` -/
def feGdmRls (id : Nat) (s : Mon) : Int × Mon :=
  if id ≠ 4 then
    (-22, s)
  else
    let s := { s with fe := rmw regGdm4ChnRls (mask 32 4 5 ||| bit 32 0) (bit 32 0) s.fe }
    let r := readPollTimeout hw s
    (if r.1 then -110 else 0,
      { r.2 with fe := rmw regGdm4ChnRls (mask 32 4 5 ||| bit 32 0) 0#32 r.2.fe })

/-- A direction of `airoha_eth_mbi_hang_unlock_by_arbit_reset`. Both writes are of 1. -/
def mbiTerminate (shift : Nat) (s : Mon) : Mon :=
  let r := readPollTimeout hw s
  if r.1 then
    let rst := rmw feResetGlo (mask 32 shift 2) (fieldPrep shift 2 1#32)
    let s := (readPollTimeout hw { r.2 with fe := rst r.2.fe }).2
    (readPollTimeout hw { s with fe := rst s.fe }).2
  else
    r.2

/-- `airoha_eth_mbi_hang_unlock_by_arbit_reset`: `GDM4_MBI_ARB_TX_RST` and
`GDM4_MBI_ARB_RX_RST` -/
def ethMbiHangUnlockByArbitReset (s : Mon) : Mon := mbiTerminate hw 8 (mbiTerminate hw 10 s)

/-! ## The protections -/

/-- Something called or printed. -/
def Mon.call (c : Call) (s : Mon) : Mon := { s with calls := s.calls ++ [c] }

/-- `airoha_eth_monitor_link_up_protection` -/
def linkUpProtection (dev : GdmDev) (itf channel : Nat) (s : Mon) : Mon :=
  let s := gdmaStartTxRxChannel dev s
  let s := if dev.id ≠ 1 then xsiMacStart dev s else s
  let s := qdmaStartChannel dev channel s
  s.call (.up itf)

/-- `airoha_eth_monitor_link_down_protection`. There is no `set_channel_retire`. -/
def linkDownProtection (dev : GdmDev) (itf channel : Nat) (s : Mon) : Mon :=
  let s := s.call (.flows itf)
  if dev.id ≠ 1 then
    let s := qdmaStopChannel dev channel s
    let s := xsiMacStop dev s
    let s := gdmaStopTxRxChannel dev s
    let s := s.call (.clean (airohaGetFePort dev) channel)
    let r := feGdmRls hw dev.id s
    let s := ethMbiHangUnlockByArbitReset hw r.2
    let s := xsiMacReset dev s
    s.call (.down itf (some (decide (0 ≤ r.1))))
  else
    let s := s.call (.clean (airohaGetFePort dev) channel)
    s.call (.down itf none)

/-! ## The monitor -/

/-- `SPEED_UNKNOWN` -/
def speedUnknown : BitVec 32 := 0xffffffff#32

/-- `airoha_eth_link_rate_update`, for `idx` one less than the channel; `chnlIdx` is a byte. -/
def ethLinkRateUpdate (channel : Nat) (speed : BitVec 32) (s : Mon) : Mon :=
  s.call (.rate (channel % 256) (speed * 1000#32))

/-- A speed that is known, and is not the one before. -/
def newSpeed (last : BitVec 32) (speed : Option (BitVec 32)) : Option (BitVec 32) :=
  speed.filter fun v => v != speedUnknown && v != last

/-- The second half of both handlers: what the change of the link asks for. -/
def linkStatus (dev : GdmDev) (itf channel : Nat) (link : Bool) (s : Mon) : Mon :=
  if !s.lastlinks itf && link then
    let s := linkUpProtection dev itf channel s
    { s with lastlinks := Function.update s.lastlinks itf true }
  else if s.lastlinks itf && !link then
    let s := linkDownProtection hw dev itf channel s
    { s with lastlinks := Function.update s.lastlinks itf false }
  else
    s

/-- The body of the loop of `airoha_eth_monitor_gsw_process`. -/
def gswPort (dev : GdmDev) (o : Obs) (s : Mon) (i : Nat) : Mon :=
  match o.lan i with
  | none => s
  | some e =>
    let s := match newSpeed (s.gswSpeed i) e.speed with
      | none => s
      | some v =>
        let s := ethLinkRateUpdate (i + 1) v s
        { s with gswSpeed := Function.update s.gswSpeed i v }
    linkStatus hw dev i (i + 1) e.link s

/-- `AIROHA_MAX_GSW_LAN_PORTS` -/
def maxGswLanPorts : Nat := 4

/-- `airoha_eth_monitor_gsw_process` -/
def gswProcess (dev : GdmDev) (o : Obs) (s : Mon) : Mon :=
  (List.range maxGswLanPorts).foldl (gswPort hw dev o) s

/-- `airoha_eth_monitor_serdes_link_status_handler` -/
def serdesLinkStatusHandler (soc : SocData) (dev : GdmDev) (o : Obs) (s : Mon) : Mon :=
  match getSerdesInfoFromDev soc dev with
  | none => s
  | some (idx, channel) =>
    match serdesPort idx with
    | none => s
    | some itf =>
      let e := o.dev dev
      let s := match newSpeed (s.xsiSpeed idx) e.speed with
        | none => s
        | some v =>
          let s := ethLinkRateUpdate (soc.chnl idx) v s
          { s with xsiSpeed := Function.update s.xsiSpeed idx v }
      linkStatus hw dev itf channel e.link s

/-- One device of `airoha_eth_monitor`. -/
def monitorDev (soc : SocData) (o : Obs) (s : Mon) (dev : GdmDev) : Mon :=
  if dev.dsa then gswProcess hw dev o s else serdesLinkStatusHandler hw soc dev o s

/-- `airoha_eth_monitor`, for the devices of each port. -/
def ethMonitor (soc : SocData) (ports : List (List GdmDev)) (s : Mon) (o : Obs) : Mon :=
  ports.zipIdx.foldl
    (fun s p => if en7581SupportEthMonitor p.2 then p.1.foldl (monitorDev hw soc o) s else s) s

end Poll

/-- Before the first run, whatever the registers hold. -/
def monInit (fe : Regs) (qdma xfi : Nat → Regs) : Mon where
  fe := fe
  qdma := qdma
  xfi := xfi
  lastlinks _ := false
  gswSpeed _ := 0#32
  xsiSpeed _ := 0#32
  polls := 0
  calls := []

end Airoha.Link
