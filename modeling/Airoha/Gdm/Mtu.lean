/-
Airoha.Gdm.Mtu — the egress MTU the packet engine keeps for each GDM port.

Translates `airoha_ppe_set_mtu` and the calls that lead to it: a device is opened
or stopped, its MTU is changed, or it takes or loses the role of the WAN. A
register of a PPE holds the fields of two ports. The devices of a port share its
field, which is why the greatest of their MTUs is written.

The receive lengths, which the same patch sets for a port, are left out.
-/
import Airoha.Gdm.RolesKept
import Airoha.Lib.Regmap

namespace Airoha.Gdm.Mtu

open Airoha.Lib

/-! ## Registers -/

/-- `ETH_MIN_MTU`, the bound the net core puts below. -/
def ethMinMtu : Nat := 68

/-- `AIROHA_MAX_MTU` -/
def airohaMaxMtu : Nat := 9220

/-- `VLAN_ETH_HLEN` -/
def vlanEthHlen : Nat := 18

/-- `port->id == AIROHA_GDM4_IDX ? 7 : port->id` -/
def mtuIndex : GdmIdx → Nat
  | .gdm1 => 1
  | .gdm2 => 2
  | .gdm3 => 3
  | .gdm4 => 7

/-- Where `REG_PPE_MTU(_m, _n)` is behind `REG_PPE_MTU_BASE(_m)`. -/
def regPpeMtu (n : Nat) : Nat := n / 2 * 4

/-- The lowest bit of `FP_EGRESS_MTU_MASK(_n)`, which has 14. -/
def fpShift (n : Nat) : Nat := n % 2 * 16

/-- `airoha_rmw` -/
def airohaRmw (addr : Nat) (msk val : BitVec 32) (r : Regs) : Regs :=
  Function.update r addr ((r addr &&& ~~~msk) ||| val)

/-- The devices with their roles, `netdev->mtu`, `port->users`, the MTU registers of each PPE, and
`REG_WAN_MTU0`. -/
structure MtuEth (δ : Type) where
  eth : Eth δ
  mtu : δ → Nat
  users : GdmIdx → Int
  ppe : Fin 2 → Regs
  wanMtu0 : BitVec 32

section Functions

variable {δ : Type} [DecidableEq δ] (b : Board δ) (ppe2 : Bool)

/-! ## Writing the MTU -/

/-- The loop of `airoha_ppe_set_mtu`, over the devices of the port that are left. -/
def lenLoop (s : MtuEth δ) (d : δ) (len : Nat) (devs : List δ) : Nat :=
  devs.foldl (fun len e =>
    if (s.eth.dev e).qdma ≠ (s.eth.dev d).qdma then len
    else if (s.eth.dev e).running then max len (s.mtu e) else len) len

/-- `port->devs` -/
def portDevs (d : δ) : List δ := b.devs.filter fun e => b.portId e = b.portId d

scoped instance ppes_neZero : NeZero 2 := ⟨by decide⟩

/-- `!airoha_is_lan_gdm_dev(dev) && airoha_ppe_is_enabled(eth, 1)` -/
def ppeId (s : Eth δ) (d : δ) : Fin 2 := if (s.dev d).wan && ppe2 then 1 else 0

/-- `airoha_ppe_set_mtu`. `ppe2` is `airoha_ppe_is_enabled(eth, 1)`. -/
def airohaPpeSetMtu (d : δ) (s : MtuEth δ) : MtuEth δ :=
  let len := lenLoop s d 0 (portDevs b d) + vlanEthHlen
  let ppeId := ppeId ppe2 s.eth d
  let index := mtuIndex (b.portId d)
  let regs := airohaRmw (regPpeMtu index) (mask 32 (fpShift index) 14)
    (fieldPrep (fpShift index) 14 (BitVec.ofNat 32 len)) (s.ppe ppeId)
  { s with ppe := Function.update s.ppe ppeId regs }

/-- `airoha_dev_set_mtu` -/
def airohaDevSetMtu (d : δ) (s : MtuEth δ) : MtuEth δ :=
  let s := airohaPpeSetMtu b ppe2 d s
  if (s.eth.dev d).wan then
    { s with wanMtu0 := (s.wanMtu0 &&& ~~~mask 32 0 14) |||
        fieldPrep 0 14 (BitVec.ofNat 32 (s.mtu d + vlanEthHlen)) }
  else s

/-! ## The calls -/

/-- `port->users` of the port of a device. -/
def MtuEth.setUsers (s : MtuEth δ) (d : δ) (users : Int) : MtuEth δ :=
  { s with users := Function.update s.users (b.portId d) users }

/-- `airoha_dev_open` -/
def airohaDevOpen (x : OpenAnswers) (d : δ) (s : MtuEth δ) : Int × MtuEth δ :=
  match (s.eth.dev d).qdma with
  | none => (-14, s)
  | some qdma =>
      if (s.eth.qdma qdma).users ≠ 0 ∧ x.lroEnabled = true then (-16, s)
      else if x.err ≠ 0 then (x.err, s)
      else
        let s := airohaDevSetMtu b ppe2 d s
        let s := s.setUsers b d (s.users (b.portId d) + 1)
        (0, { s with eth := airohaQdmaStart qdma s.eth })

/-- `airoha_dev_stop` -/
def airohaDevStop (d : δ) (s : MtuEth δ) : MtuEth δ :=
  match (s.eth.dev d).qdma with
  | none => s
  | some qdma =>
      let users := s.users (b.portId d) - 1
      let s := s.setUsers b d users
      let s := if users ≠ 0 then airohaPpeSetMtu b ppe2 d s else s
      { s with eth := airohaQdmaStop qdma s.eth }

/-- `airoha_dev_change_mtu` -/
def airohaDevChangeMtu (d : δ) (mtu : Nat) (s : MtuEth δ) : MtuEth δ :=
  let s := { s with mtu := Function.update s.mtu d mtu }
  if s.users (b.portId d) ≠ 0 then airohaDevSetMtu b ppe2 d s else s

/-- `airoha_disable_qos_for_gdm34` -/
def airohaDisableQosForGdm34 (sport : Int) (d : δ) (s : MtuEth δ) : MtuEth δ :=
  if !isGdm34 b d then s
  else airohaDevSetMtu b ppe2 d { s with eth := Gdm.airohaDisableQosForGdm34 b sport d s.eth }

/-- `airoha_enable_qos_for_gdm34` behind the choice of `wan_dev`: the MTU is written once nothing
can fail any more. -/
def promote (x : CreateAnswers) (d : δ) (s : MtuEth δ) : Int × MtuEth δ :=
  let (err, eth) := Gdm.promote x d s.eth
  if err ≠ 0 then (err, { s with eth := eth })
  else (0, airohaDevSetMtu b ppe2 d { s with eth := eth })

/-- `airoha_enable_qos_for_gdm34` -/
def airohaEnableQosForGdm34 (x : CreateAnswers) (d : δ) (s : MtuEth δ) : Int × MtuEth δ :=
  if !isGdm34 b d then (0, s)
  else if (s.eth.dev d).wan then (0, s)
  else
    match airohaGetWanGdmDev b s.eth with
    | some w =>
        if (s.eth.dev w).qos || b.portId w = .gdm2 then (-16, s)
        else promote b ppe2 x d (airohaDisableQosForGdm34 b ppe2 x.wanSport w s)
    | none => promote b ppe2 x d s

/-- `TC_HTB_CREATE` of `airoha_tc_setup_qdisc_htb` -/
def tcHtbCreate (x : CreateAnswers) (d : δ) (s : MtuEth δ) : Int × MtuEth δ :=
  let (err, s) := airohaEnableQosForGdm34 b ppe2 x d s
  if err ≠ 0 then (err, s)
  else (0, { s with eth := s.eth.setDev d { s.eth.dev d with qos := true } })

/-- `netif_running` -/
def MtuEth.setRunning (s : MtuEth δ) (d : δ) (running : Bool) : MtuEth δ :=
  { s with eth := s.eth.setRunning d running }

/-- The net core opens a device that is not up. -/
def devOpen (x : OpenAnswers) (d : δ) (s : MtuEth δ) : Int × MtuEth δ :=
  if (s.eth.dev d).running then (0, s)
  else
    let (err, s) := airohaDevOpen b ppe2 x d (s.setRunning d true)
    if err ≠ 0 then (err, s.setRunning d false) else (0, s)

/-- The net core stops a device that is up. -/
def devStop (d : δ) (s : MtuEth δ) : MtuEth δ :=
  if (s.eth.dev d).running then airohaDevStop b ppe2 d (s.setRunning d false) else s

/-- The net core asks for no MTU out of bounds. -22 is `-EINVAL`. -/
def devSetMtu (d : δ) (mtu : Nat) (s : MtuEth δ) : Int × MtuEth δ :=
  if mtu < ethMinMtu ∨ airohaMaxMtu < mtu then (-22, s)
  else (0, airohaDevChangeMtu b ppe2 d mtu s)

/-! ## Runs -/

/-- A call from outside. -/
inductive Op (δ : Type) where
  | ndoOpen (d : δ) (x : OpenAnswers)
  | ndoStop (d : δ)
  | ndoChangeMtu (d : δ) (mtu : Nat)
  | htbCreate (d : δ) (x : CreateAnswers)
  | htbDestroy (d : δ)

/-- What a call returns, and the state behind it. -/
def MtuEth.step (s : MtuEth δ) : Op δ → Int × MtuEth δ
  | .ndoOpen d x => devOpen b ppe2 x d s
  | .ndoStop d => (0, devStop b ppe2 d s)
  | .ndoChangeMtu d mtu => devSetMtu b ppe2 d mtu s
  | .htbCreate d x => tcHtbCreate b ppe2 x d s
  | .htbDestroy d => (0, { s with eth := airohaTcHtbDestroy d s.eth })

/-- The device that is called. -/
def Op.device : Op δ → δ
  | .ndoOpen d _ | .ndoStop d | .ndoChangeMtu d _ | .htbCreate d _ | .htbDestroy d => d

/-- The device a CREATE takes the role from. -/
def loses (s : Eth δ) (d : δ) : Option δ :=
  if !isGdm34 b d || (s.dev d).wan then none
  else (airohaGetWanGdmDev b s).filter fun w => !((s.dev w).qos || b.portId w = .gdm2)

/-- The steps of a call, each with its device and the state it leaves. A CREATE that takes the role
from a device is one step for that device and one for its own. -/
def MtuEth.stages (s : MtuEth δ) (op : Op δ) : List (δ × MtuEth δ) :=
  (match op with
    | .htbCreate d x =>
        (loses b s.eth d).toList.map fun w =>
          (w, airohaDisableQosForGdm34 b ppe2 x.wanSport w s)
    | _ => []) ++ [(op.device, (s.step b ppe2 op).2)]

/-- When all devices are registered: none is up, and each has the MTU of Ethernet. -/
def MtuEth.registered (eth : Eth δ) (ppe : Fin 2 → Regs) (wanMtu0 : BitVec 32) : MtuEth δ where
  eth := eth
  mtu := fun _ => 1500
  users := fun _ => 0
  ppe := ppe
  wanMtu0 := wanMtu0

/-! ## What is meant -/

/-- The field of an index in a PPE. -/
def MtuEth.field (s : MtuEth δ) (ppe : Fin 2) (index : Nat) : Nat :=
  ((s.ppe ppe).field (regPpeMtu index) (fpShift index) 14).toNat

/-- No running device is undercut. -/
def Covered (s : MtuEth δ) : Prop :=
  ∀ d, (s.eth.dev d).running = true →
    s.mtu d + vlanEthHlen ≤ s.field (ppeId ppe2 s.eth d) (mtuIndex (b.portId d))

/-- Only the field of the port of `d` is written. -/
def OnlyPort (d : δ) (s s' : MtuEth δ) : Prop :=
  ∀ ppe index, index ≠ mtuIndex (b.portId d) → s'.field ppe index = s.field ppe index

/-- Every step leaves every running device covered, and writes its own field only. -/
def StagesRight (s : MtuEth δ) : List (δ × MtuEth δ) → Prop
  | [] => True
  | (d, s') :: rest => Covered b ppe2 s' ∧ OnlyPort b d s s' ∧ StagesRight s' rest

/-- So does every step of every call of a run. -/
def MtuRun (s : MtuEth δ) : List (Op δ) → Prop
  | [] => Covered b ppe2 s
  | op :: ops =>
      Covered b ppe2 s ∧ StagesRight b ppe2 s (s.stages b ppe2 op) ∧
        MtuRun (s.step b ppe2 op).2 ops

/-- With one PPE, LAN and WAN devices of a port share its field: what a running device in the other
role needs must be needed by one in the role of `d`. -/
def Spared (running wan : δ → Bool) (mtu : δ → Nat) (d : δ) : Prop :=
  ppe2 = true ∨ ∀ e, running e = true → b.portId e = b.portId d → wan e ≠ wan d →
    ∃ f, running f = true ∧ b.portId f = b.portId d ∧ wan f = wan d ∧ mtu e ≤ mtu f

/-- A call with nothing against it gives its device the role. -/
def TakesRole (s : Eth δ) (d : δ) (x : CreateAnswers) : Prop :=
  isGdm34 b d = true ∧ (s.dev d).wan = false ∧
    (∀ w, airohaGetWanGdmDev b s = some w → (s.dev w).qos = false ∧ b.portId w ≠ .gdm2) ∧
    0 ≤ x.sport ∧ x.macaddr = 0

/-- A device that is down and can be opened. -/
def Opens (s : Eth δ) (d : δ) (x : OpenAnswers) : Prop :=
  (s.dev d).running = false ∧
    ((s.qdma (qdmaOf (s.dev d).wan)).users = 0 ∨ x.lroEnabled = false) ∧ x.err = 0

/-- What a call needs, in the state it finds, to undercut none. -/
def OpSpares (s : MtuEth δ) (op : Op δ) : Prop :=
  let running := fun d => (s.eth.dev d).running
  let wan := fun d => (s.eth.dev d).wan
  match op with
  | .ndoOpen d x =>
      Opens s.eth d x → Spared b ppe2 (Function.update running d true) wan s.mtu d
  | .ndoStop d =>
      running d = true → Spared b ppe2 (Function.update running d false) wan s.mtu d
  | .ndoChangeMtu d mtu =>
      ethMinMtu ≤ mtu ∧ mtu ≤ airohaMaxMtu →
        Spared b ppe2 running wan (Function.update s.mtu d mtu) d
  | .htbCreate d x => TakesRole b s.eth d x → Spared b ppe2 running (fun e => e = d) s.mtu d
  | .htbDestroy _ => True

/-- Every call of the run has it. -/
def OpsSpare (s : MtuEth δ) : List (Op δ) → Prop
  | [] => True
  | op :: ops => OpSpares b ppe2 s op ∧ OpsSpare (s.step b ppe2 op).2 ops

end Functions

end Airoha.Gdm.Mtu
