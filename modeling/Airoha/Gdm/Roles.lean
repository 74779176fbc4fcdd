/-
Airoha.Gdm.Roles — which device is the WAN, and which QDMA a device uses.

Translates the functions that open and stop a GDM device, that move it between
the two QDMA blocks, and that make it the WAN for the HTB offload. QDMA0 is for
LAN devices and QDMA1 for the WAN. Hardware QoS needs the traffic of GDM3 and
GDM4 to be looped back through GDM2, so a CREATE on one of their devices takes
the role from the device that has it. What fails in a call is an argument of the
call; all calls are made under RTNL. The devices are registered in the order of
their ports, so that GDM2, where it exists, has the role before GDM3 and GDM4
ask who has it.

Registers are kept as far as they tell a role: the two DMA enable bits,
`LPBK_EN` and `WAN0`. The other writes of the loopback and of the forwarding
are left out, and so is the wait for the DMA to go idle, which only warns.
-/
import Mathlib.Logic.Function.Basic
import Airoha.Lib.Census

namespace Airoha.Gdm

open Airoha.Lib

/-! ## Devices -/

/-- `enum airoha_gdm_index` -/
inductive GdmIdx where
  | gdm1
  | gdm2
  | gdm3
  | gdm4
deriving DecidableEq, Repr

/-- The value of an index. -/
def GdmIdx.toNat : GdmIdx → Nat
  | gdm1 => 1
  | gdm2 => 2
  | gdm3 => 3
  | gdm4 => 4

/-- The devices of a board, in the order of `eth->ports` and `port->devs`. GDM2 has one. -/
structure Board (δ : Type) where
  portId : δ → GdmIdx
  devs : List δ
  nodup : devs.Nodup
  ordered : devs.Pairwise fun d e => (portId d).toNat ≤ (portId e).toNat
  complete : ∀ d, d ∈ devs
  gdm2Single : ∀ d d', portId d = .gdm2 → portId d' = .gdm2 → d = d'

/-- `struct airoha_gdm_dev`: the two flags of `flags`, `qdma`, and whether the netdev is running. -/
structure GdmDev where
  wan : Bool
  qos : Bool
  qdma : Option (Fin 2)
  running : Bool

/-- `struct airoha_qdma`, and the two enable bits of `REG_QDMA_GLOBAL_CFG`. -/
structure Qdma where
  users : Int
  txDmaEn : Bool
  rxDmaEn : Bool

/-- The devices, the QDMA blocks, `LPBK_EN` of GDM2 and the device `WAN0` names. -/
structure Eth (δ : Type) where
  dev : δ → GdmDev
  qdma : Fin 2 → Qdma
  lpbkEn : Bool
  wan0 : Option δ

section Functions

variable {δ : Type} [DecidableEq δ]

/-- One device written. -/
def Eth.setDev (s : Eth δ) (d : δ) (v : GdmDev) : Eth δ :=
  { s with dev := Function.update s.dev d v }

/-- One QDMA written. -/
def Eth.setQdma (s : Eth δ) (q : Fin 2) (v : Qdma) : Eth δ :=
  { s with qdma := Function.update s.qdma q v }

/-! ## QDMA blocks -/

/-- `airoha_qdma_start` -/
def airohaQdmaStart (q : Fin 2) (s : Eth δ) : Eth δ :=
  s.setQdma q { users := (s.qdma q).users + 1, txDmaEn := true, rxDmaEn := true }

/-- `airoha_qdma_stop` -/
def airohaQdmaStop (q : Fin 2) (s : Eth δ) : Eth δ :=
  let users := (s.qdma q).users - 1
  if users ≠ 0 then s.setQdma q { s.qdma q with users := users }
  else s.setQdma q { users := users, txDmaEn := false, rxDmaEn := false }

/-- `&eth->qdma[!airoha_is_lan_gdm_dev(dev)]` -/
def qdmaOf (wan : Bool) : Fin 2 := if wan then 1 else 0

/-- `airoha_dev_set_qdma` -/
def airohaDevSetQdma (d : δ) (s : Eth δ) : Eth δ :=
  let qdma := qdmaOf (s.dev d).wan
  let curQdma := (s.dev d).qdma
  let s := if (s.dev d).running then airohaQdmaStart qdma s else s
  let s := s.setDev d { s.dev d with qdma := some qdma }
  match curQdma with
  | none => s
  | some curQdma => if (s.dev d).running then airohaQdmaStop curQdma s else s

/-! ## The loopback through GDM2 -/

/-- `airoha_enable_gdm2_loopback`. `sport` is what `get_sport` returns. -/
def airohaEnableGdm2Loopback (sport : Int) (d : δ) (s : Eth δ) : Int × Eth δ :=
  if sport < 0 then (sport, s) else (0, { s with lpbkEn := true, wan0 := some d })

/-- `airoha_disable_gdm2_loopback`, which sets `WAN0` back to GDM2. -/
def airohaDisableGdm2Loopback (sport : Int) (s : Eth δ) : Int × Eth δ :=
  if sport < 0 then (sport, s) else (0, { s with lpbkEn := false, wan0 := none })

/-- The device that is looped back. -/
def Eth.loopedBack (s : Eth δ) : Option δ := if s.lpbkEn then s.wan0 else none

/-! ## The role of the WAN -/

variable (b : Board δ)

/-- `airoha_get_wan_gdm_dev` -/
def airohaGetWanGdmDev (s : Eth δ) : Option δ := b.devs.find? fun d => (s.dev d).wan

/-- `port->id` is `AIROHA_GDM3_IDX` or `AIROHA_GDM4_IDX`. -/
def isGdm34 (d : δ) : Bool := b.portId d = .gdm3 || b.portId d = .gdm4

/-- The flag `AIROHA_PRIV_F_WAN` of a device. -/
def Eth.setWan (s : Eth δ) (d : δ) (wan : Bool) : Eth δ := s.setDev d { s.dev d with wan := wan }

/-- `airoha_dev_init` -/
def airohaDevInit (sport : Int) (d : δ) (s : Eth δ) : Int × Eth δ :=
  let wan :=
    match b.portId d with
    | .gdm3 | .gdm4 => (airohaGetWanGdmDev b s).isNone
    | .gdm2 => true
    | .gdm1 => false
  let s := if wan then s.setWan d true else s
  let s := airohaDevSetQdma d s
  if (s.dev d).wan && isGdm34 b d then airohaEnableGdm2Loopback sport d s else (0, s)

/-- `airoha_disable_qos_for_gdm34` -/
def airohaDisableQosForGdm34 (sport : Int) (d : δ) (s : Eth δ) : Eth δ :=
  if !isGdm34 b d then s
  else airohaDevSetQdma d ((airohaDisableGdm2Loopback sport s).2.setWan d false)

/-- What the calls of a CREATE return: `get_sport` for the device that loses the role, for the one
that gets it and for the latter where it is undone, and `airoha_set_macaddr`. -/
structure CreateAnswers where
  wanSport : Int
  sport : Int
  undoSport : Int
  macaddr : Int

/-- `error_disable_wan` -/
def errorDisableWan (d : δ) (s : Eth δ) : Eth δ := airohaDevSetQdma d (s.setWan d false)

/-- `airoha_enable_qos_for_gdm34` behind the choice of `wan_dev`. -/
def promote (x : CreateAnswers) (d : δ) (s : Eth δ) : Int × Eth δ :=
  let s := airohaDevSetQdma d (s.setWan d true)
  let (err, s) := airohaEnableGdm2Loopback x.sport d s
  if err ≠ 0 then (err, errorDisableWan d s)
  else if x.macaddr ≠ 0 then
    (x.macaddr, errorDisableWan d (airohaDisableGdm2Loopback x.undoSport s).2)
  else (0, s)

/-- `airoha_enable_qos_for_gdm34`. -16 is `-EBUSY`. -/
def airohaEnableQosForGdm34 (x : CreateAnswers) (d : δ) (s : Eth δ) : Int × Eth δ :=
  if !isGdm34 b d then (0, s)
  else if (s.dev d).wan then (0, s)
  else
    match airohaGetWanGdmDev b s with
    | some w =>
        if (s.dev w).qos || b.portId w = .gdm2 then (-16, s)
        else promote x d (airohaDisableQosForGdm34 b x.wanSport w s)
    | none => promote x d s

/-- `TC_HTB_CREATE` of `airoha_tc_setup_qdisc_htb` -/
def tcHtbCreate (x : CreateAnswers) (d : δ) (s : Eth δ) : Int × Eth δ :=
  let (err, s) := airohaEnableQosForGdm34 b x d s
  if err ≠ 0 then (err, s) else (0, s.setDev d { s.dev d with qos := true })

/-- `airoha_tc_htb_destroy`, of the flags. -/
def airohaTcHtbDestroy (d : δ) (s : Eth δ) : Eth δ := s.setDev d { s.dev d with qos := false }

/-! ## Opening and stopping -/

/-- `netif_running` -/
def Eth.setRunning (s : Eth δ) (d : δ) (running : Bool) : Eth δ :=
  s.setDev d { s.dev d with running := running }

/-- What `airoha_dev_open` finds: `airoha_fe_lro_is_enabled`, and the first error of the calls
before it counts the device, 0 when there is none. -/
structure OpenAnswers where
  lroEnabled : Bool
  err : Int

/-- `airoha_dev_open`. The pointer to the QDMA is set since `airoha_dev_init`. -/
def airohaDevOpen (x : OpenAnswers) (d : δ) (s : Eth δ) : Int × Eth δ :=
  match (s.dev d).qdma with
  | none => (-14, s)
  | some qdma =>
      if (s.qdma qdma).users ≠ 0 ∧ x.lroEnabled = true then (-16, s)
      else if x.err ≠ 0 then (x.err, s)
      else (0, airohaQdmaStart qdma s)

/-- `airoha_dev_stop` -/
def airohaDevStop (d : δ) (s : Eth δ) : Eth δ :=
  match (s.dev d).qdma with
  | none => s
  | some qdma => airohaQdmaStop qdma s

/-- The net core opens a device that is not up. -/
def devOpen (x : OpenAnswers) (d : δ) (s : Eth δ) : Int × Eth δ :=
  if (s.dev d).running then (0, s)
  else
    let (err, s) := airohaDevOpen x d (s.setRunning d true)
    if err ≠ 0 then (err, s.setRunning d false) else (0, s)

/-- The net core stops a device that is up. -/
def devStop (d : δ) (s : Eth δ) : Eth δ :=
  if (s.dev d).running then airohaDevStop d (s.setRunning d false) else s

/-! ## Runs -/

/-- A call from outside. -/
inductive Op (δ : Type) where
  | ndoOpen (d : δ) (x : OpenAnswers)
  | ndoStop (d : δ)
  | htbCreate (d : δ) (x : CreateAnswers)
  | htbDestroy (d : δ)

/-- What a call returns, and the state behind it. -/
def Eth.step (s : Eth δ) : Op δ → Int × Eth δ
  | .ndoOpen d x => devOpen x d s
  | .ndoStop d => (0, devStop d s)
  | .htbCreate d x => tcHtbCreate b x d s
  | .htbDestroy d => (0, airohaTcHtbDestroy d s)

/-- Before the first device is registered. -/
def Eth.reset : Eth δ where
  dev := fun _ => { wan := false, qos := false, qdma := none, running := false }
  qdma := fun _ => { users := 0, txDmaEn := false, rxDmaEn := false }
  lpbkEn := false
  wan0 := none

/-- The loop of `airoha_register_gdm_devices`, none when a device is refused. -/
def airohaRegisterGdmDevices (sport : δ → Int) : List δ → Eth δ → Option (Eth δ)
  | [], s => some s
  | d :: rest, s =>
      let (err, s) := airohaDevInit b (sport d) d s
      if err ≠ 0 then none else airohaRegisterGdmDevices sport rest s

end Functions

end Airoha.Gdm
