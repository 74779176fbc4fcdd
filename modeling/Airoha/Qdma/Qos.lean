/-
Airoha.Qdma.Qos — the per-channel QoS calls of the two QDMA engines.

Translates the TX QoS part of `arht_qdma.c`: `qdmaSetQueueClose_sw`,
`qdmaSetQueueOpen_sw`, `qdmaIsQueueClosed_sw`,
`qdmaSet/GetTxQosSchedulerUpstream`, `qdma_set/get_tx_qos_upstream`. An
engine is its registers by offset together with the weight table that
`QDMA_CSR_TXWRR_WEIGHT_CFG` gives access to; `TXQ_DIS_CFG_VALUE` is one
array beside both engines, as in the driver.

§1 is the code, §2 the registers behind it, §3 what one set does to
everything a get or the hardware reads (`set_spec`, `get_spec`).
-/
import Airoha.Lib.Bits

namespace Airoha.Qdma

open Airoha.Lib

/-! ## §1 The code -/

/-- `QDMA_CSR_TXWRR_WEIGHT_CFG` -/
def qdmaCsrTxwrrWeightCfg : Nat := 0x1024
/-- `TXWRR_RWCMD`, bit 31 -/
def txwrrRwcmd : BitVec 32 := bit 32 31
/-- `TXWRR_RWCMD_DONE`, bit 30 -/
def txwrrRwcmdDone : BitVec 32 := bit 32 30
/-- `QDMA_CSR_PERCHNL_QOS_MODE(0, i)` -/
def qdmaCsrPerchnlQosMode (i : Nat) : Nat := 0x1040 + (i <<< 2)
/-- `TXQOS_CHNL_QOS_MODE_SHIFT` -/
def txqosChnlQosModeShift (idx : Nat) : Nat := (idx &&& 0x7) <<< 2
/-- `QDMA_CSR_QUEUE_CLOSE_CFG` -/
def qdmaCsrQueueCloseCfg (idx : Nat) : Nat := 0x00a0 + (idx &&& 0xFC)
/-- The bit of `TXQ_DIS_CHANNEL_QUEUE_OFFSET` -/
def txqDisChannelQueueShift (chnl queue : Nat) : Nat := queue + (chnl &&& 0x03) * 8
/-- `TXQ_DIS_CFG_REG_NUM` -/
def txqDisCfgRegNum : Nat := 8
/-- `CONFIG_QDMA_CHANNEL` -/
def configQdmaChannel : Nat := 32
/-- `CONFIG_QDMA_QUEUE` -/
def configQdmaQueue : Nat := 8
/-- `QDMA_TXQOS_TYPE_NUMS` -/
def qdmaTxqosTypeNums : Nat := 8

def eINVAL : Int := -22
def eFAULT : Int := -14
def eTIME : Int := -62

/-- One QDMA engine. `wrr` is what a command to `QDMA_CSR_TXWRR_WEIGHT_CFG`
reads or writes, by channel and queue. -/
structure Engine where
  regs : Nat → BitVec 32
  wrr : Nat → Nat → BitVec 32

/-- `airoha_qdma_rr` -/
def Engine.rr (e : Engine) (offset : Nat) : BitVec 32 := e.regs offset

/-- The channel a weight command names. -/
def cmdChannel (v : BitVec 32) : Nat := (fieldGet 19 5 v).toNat
/-- The queue a weight command names. -/
def cmdQueue (v : BitVec 32) : Nat := (fieldGet 16 3 v).toNat

/-- What a reading command leaves in the weight register. -/
def Engine.wrrReply (e : Engine) (v : BitVec 32) : BitVec 32 :=
  (v &&& ~~~mask 32 0 8) ||| fieldPrep 0 8 (e.wrr (cmdChannel v) (cmdQueue v))

/-- `airoha_qdma_wr`. The weight register is a command: with `TXWRR_RWCMD` it stores the value
field, without it the stored weight appears there. Either way it is done at once. -/
def Engine.wr (e : Engine) (offset : Nat) (v : BitVec 32) : Engine :=
  if offset = qdmaCsrTxwrrWeightCfg then
    if v &&& txwrrRwcmd = 0#32 then
      { e with regs := Function.update e.regs offset (e.wrrReply v ||| txwrrRwcmdDone) }
    else
      { regs := Function.update e.regs offset (v ||| txwrrRwcmdDone)
        wrr := Function.update e.wrr (cmdChannel v)
          (Function.update (e.wrr (cmdChannel v)) (cmdQueue v) (fieldGet 0 8 v)) }
  else { e with regs := Function.update e.regs offset v }

/-- `airoha_qdma_rmw` -/
def Engine.rmw (e : Engine) (offset : Nat) (msk val : BitVec 32) : Engine :=
  e.wr offset (val ||| (e.rr offset &&& ~~~msk))

/-- `qdmaGetPerChnlQosMode` -/
def qdmaGetPerChnlQosMode (e : Engine) (chnl : Nat) : BitVec 32 :=
  fieldGet (txqosChnlQosModeShift chnl) 3 (e.rr (qdmaCsrPerchnlQosMode (chnl >>> 3)))

/-- `qdmaSetPerChnlQosMode` -/
def qdmaSetPerChnlQosMode (e : Engine) (chnl : Nat) (val : BitVec 32) : Engine :=
  e.rmw (qdmaCsrPerchnlQosMode (chnl >>> 3)) (mask 32 (txqosChnlQosModeShift chnl) 3)
    (val <<< txqosChnlQosModeShift chnl)

/-- `qdmaChecConfigDone`: three reads at most. -/
def qdmaChecConfigDone (e : Engine) (offset : Nat) (doneBit : BitVec 32) : Nat → Bool
  | 0 => false
  | retry + 1 =>
      if e.rr offset &&& doneBit = 0#32 then qdmaChecConfigDone e offset doneBit retry else true

/-- The value of `mainType`: `ECNT_QDMA_LAN` picks `glb_eth->qdma[0]`, anything else `qdma[1]`. -/
inductive Main where
  | lan
  | wan
deriving DecidableEq, Repr

/-- `glb_eth->qdma` and `TXQ_DIS_CFG_VALUE`. -/
structure Sys where
  qdma : Main → Engine
  txqDisCfgValue : Nat → BitVec 32

/-- `QDMA_TxQosScheduler_T` -/
structure TxQosScheduler where
  channel : Nat
  qosType : Nat
  weight : Nat → Nat

/-- Changes the word of `TXQ_DIS_CFG_VALUE` and writes it out to the engine. -/
def Sys.putTxqDisCfg (s : Sys) (base : Main) (channel : Nat) (f : BitVec 32 → BitVec 32) : Sys :=
  let v := f (s.txqDisCfgValue (channel >>> 2))
  { qdma := Function.update s.qdma base ((s.qdma base).wr (qdmaCsrQueueCloseCfg channel) v)
    txqDisCfgValue := Function.update s.txqDisCfgValue (channel >>> 2) v }

/-- `qdmaSetQueueClose_sw`, whose result nobody reads. -/
def qdmaSetQueueClose (s : Sys) (base : Main) (channel queue : Nat) : Sys :=
  if txqDisCfgRegNum ≤ channel >>> 2 then s
  else s.putTxqDisCfg base channel fun v => v ||| bit 32 (txqDisChannelQueueShift channel queue)

/-- `qdmaSetQueueOpen_sw` -/
def qdmaSetQueueOpen (s : Sys) (base : Main) (channel queue : Nat) : Sys :=
  if txqDisCfgRegNum ≤ channel >>> 2 then s
  else s.putTxqDisCfg base channel fun v => v &&& ~~~bit 32 (txqDisChannelQueueShift channel queue)

/-- `qdmaIsQueueClosed_sw` -/
def qdmaIsQueueClosed (s : Sys) (channel queue : Nat) : BitVec 32 :=
  if txqDisCfgRegNum ≤ channel >>> 2 then 0#32
  else s.txqDisCfgValue (channel >>> 2) &&& bit 32 (txqDisChannelQueueShift channel queue)

/-- The address part of a weight command. -/
def wrrAddress (channel i : Nat) : BitVec 32 :=
  fieldPrep 19 5 (BitVec.ofNat 32 channel) ||| fieldPrep 16 3 (BitVec.ofNat 32 i)

/-- The loop of `qdmaSetTxQosSchedulerUpstream` from queue `i` on, `n` queues to go. -/
def setWrrLoop (channel : Nat) (weight : Nat → Nat) : Nat → Nat → Engine → Engine × Int
  | _, 0, e => (e, 0)
  | i, n + 1, e =>
      let wrrCfg := txwrrRwcmd ||| fieldPrep 0 8 (BitVec.ofNat 32 (weight i)) |||
        wrrAddress channel i
      let e := e.wr qdmaCsrTxwrrWeightCfg wrrCfg
      if qdmaChecConfigDone e qdmaCsrTxwrrWeightCfg txwrrRwcmdDone 3 then
        setWrrLoop channel weight (i + 1) n e
      else (e, eTIME)

/-- `qdmaSetTxQosSchedulerUpstream` -/
def qdmaSetTxQosSchedulerUpstream (e : Engine) (channel mode : Nat) (weight : Nat → Nat) :
    Engine × Int :=
  let r := setWrrLoop channel weight 0 configQdmaQueue e
  if r.2 < 0 then r else (qdmaSetPerChnlQosMode r.1 channel (BitVec.ofNat 32 mode), 0)

/-- The loop of `qdmaGetTxQosSchedulerUpstream`: the weights read so far are in `weight`. -/
def getWrrLoop (channel : Nat) : Nat → Nat → Engine → (Nat → Nat) → Engine × (Nat → Nat) × Int
  | _, 0, e, weight => (e, weight, 0)
  | i, n + 1, e, weight =>
      let e := e.wr qdmaCsrTxwrrWeightCfg (wrrAddress channel i)
      if qdmaChecConfigDone e qdmaCsrTxwrrWeightCfg txwrrRwcmdDone 3 then
        getWrrLoop channel (i + 1) n e
          (Function.update weight i (fieldGet 0 8 (e.rr qdmaCsrTxwrrWeightCfg)).toNat)
      else (e, weight, eTIME)

/-- `weightNum[qosType]`: the queues scheduled by WRR. -/
def weightNum (qosType : Nat) : Nat := ([8, 0, 7, 6, 5, 4, 3, 2] : List Nat).getD qosType 0

/-- The first loop of `qdma_set_tx_qos_upstream`, for one queue. -/
def setQueueState (base : Main) (pTxQos : TxQosScheduler) (s : Sys) (i : Nat) : Sys :=
  if weightNum pTxQos.qosType ≤ i then qdmaSetQueueOpen s base pTxQos.channel i
  else if pTxQos.weight i = 0 then qdmaSetQueueClose s base pTxQos.channel i
  else qdmaSetQueueOpen s base pTxQos.channel i

/-- The second loop of `qdma_set_tx_qos_upstream`, which also changes the caller's structure. -/
def TxQosScheduler.noZero (pTxQos : TxQosScheduler) : TxQosScheduler :=
  { pTxQos with weight := fun i =>
      if i < configQdmaQueue ∧ pTxQos.weight i = 0 then 1 else pTxQos.weight i }

/-- `qdma_set_tx_qos_upstream`: the state, the caller's structure and the result. -/
def qdmaSetTxQosUpstream (mainType : Main) (pTxQos : TxQosScheduler) (s : Sys) :
    Sys × TxQosScheduler × Int :=
  if configQdmaChannel ≤ pTxQos.channel then (s, pTxQos, eINVAL)
  else if qdmaTxqosTypeNums ≤ pTxQos.qosType then (s, pTxQos, eINVAL)
  else
    let s := (List.range configQdmaQueue).foldl (setQueueState mainType pTxQos) s
    let pTxQos := pTxQos.noZero
    let r := qdmaSetTxQosSchedulerUpstream (s.qdma mainType) pTxQos.channel pTxQos.qosType
      pTxQos.weight
    ({ s with qdma := Function.update s.qdma mainType r.1 }, pTxQos, r.2)

/-- `qdma_get_tx_qos_upstream` -/
def qdmaGetTxQosUpstream (mainType : Main) (pTxQos : TxQosScheduler) (s : Sys) :
    Sys × TxQosScheduler × Int :=
  if configQdmaChannel ≤ pTxQos.channel then (s, pTxQos, eINVAL)
  else
    let qosType := (qdmaGetPerChnlQosMode (s.qdma mainType) pTxQos.channel).toNat
    let r := getWrrLoop pTxQos.channel 0 configQdmaQueue (s.qdma mainType) fun _ => 0
    let weight := r.2.1
    let after := { s with qdma := Function.update s.qdma mainType r.1 }
    if r.2.2 < 0 then (after, pTxQos, eFAULT)
    else
      (after,
        { pTxQos with
          qosType := qosType
          weight := fun i =>
            if i < configQdmaQueue then
              if weight i = 1 ∧ qdmaIsQueueClosed s pTxQos.channel i ≠ 0#32 then 0 else weight i
            else pTxQos.weight i }, 0)


/-! ## §2 Registers and weight commands -/

section Register

theorem wr_of_ne {e : Engine} {offset : Nat} (h : offset ≠ qdmaCsrTxwrrWeightCfg) (v : BitVec 32) :
    e.wr offset v = { e with regs := Function.update e.regs offset v } := by
  simp [Engine.wr, h]

theorem wr_command {e : Engine} {v : BitVec 32} (h : v &&& txwrrRwcmd ≠ 0#32) :
    e.wr qdmaCsrTxwrrWeightCfg v =
      { regs := Function.update e.regs qdmaCsrTxwrrWeightCfg (v ||| txwrrRwcmdDone)
        wrr := Function.update e.wrr (cmdChannel v)
          (Function.update (e.wrr (cmdChannel v)) (cmdQueue v) (fieldGet 0 8 v)) } := by
  simp [Engine.wr, h]

theorem closeCfg_ne_weightCfg (c : Nat) : qdmaCsrQueueCloseCfg c ≠ qdmaCsrTxwrrWeightCfg := by
  have h : c &&& 0xFC ≤ 0xFC := Nat.and_le_right
  unfold qdmaCsrQueueCloseCfg qdmaCsrTxwrrWeightCfg
  omega

theorem qosMode_ne_weightCfg (i : Nat) : qdmaCsrPerchnlQosMode i ≠ qdmaCsrTxwrrWeightCfg := by
  unfold qdmaCsrPerchnlQosMode qdmaCsrTxwrrWeightCfg
  omega

theorem qosMode_ne_closeCfg (i c : Nat) : qdmaCsrPerchnlQosMode i ≠ qdmaCsrQueueCloseCfg c := by
  have h : c &&& 0xFC ≤ 0xFC := Nat.and_le_right
  unfold qdmaCsrQueueCloseCfg qdmaCsrPerchnlQosMode
  omega

theorem qosMode_injective {i j : Nat} (h : qdmaCsrPerchnlQosMode i = qdmaCsrPerchnlQosMode j) :
    i = j := by
  simp only [qdmaCsrPerchnlQosMode, Nat.shiftLeft_eq] at h
  omega

theorem closeCfg_eq {c : Nat} (h : c < 32) : qdmaCsrQueueCloseCfg c = 0xa0 + 4 * (c / 4) := by
  have hall : ∀ c < 32, qdmaCsrQueueCloseCfg c = 0xa0 + 4 * (c / 4) := by decide
  exact hall c h

theorem closeShift_eq {c : Nat} (q : Nat) (h : c < 32) :
    txqDisChannelQueueShift c q = q + c % 4 * 8 := by
  have hall : ∀ c < 32, (c &&& 3) = c % 4 := by decide
  rw [txqDisChannelQueueShift, hall c h]

theorem modeShift_eq {c : Nat} (h : c < 32) : txqosChnlQosModeShift c = 4 * (c % 8) := by
  have hall : ∀ c < 32, txqosChnlQosModeShift c = 4 * (c % 8) := by decide
  exact hall c h

theorem field_prep {s n k : Nat} (hs : s + n ≤ 32) (hk : k < 2 ^ n) :
    (fieldGet s n (fieldPrep s n (BitVec.ofNat 32 k))).toNat = k := by
  have h1 : 2 ^ n ≤ 2 ^ 32 := Nat.pow_le_pow_right (by decide) (by omega)
  rw [fieldGet_fieldPrep_self hs, ofNat_and_mask hk, BitVec.toNat_ofNat,
    Nat.mod_eq_of_lt (by omega)]

end Register

section Weights

variable {c q : Nat}

theorem cmdChannel_address (hc : c < 32) {u : BitVec 32} (hu : fieldGet 19 5 u = 0#32) :
    cmdChannel (u ||| wrrAddress c q) = c := by
  have h1 : fieldGet 19 5 (fieldPrep 16 3 (BitVec.ofNat 32 q)) = 0#32 :=
    fieldGet_fieldPrep_of_disjoint (Or.inr (by decide)) _
  unfold cmdChannel wrrAddress
  rw [fieldGet_or, fieldGet_or, hu, h1, BitVec.zero_or, BitVec.or_zero, field_prep (by decide) hc]

theorem cmdQueue_address (hq : q < 8) {u : BitVec 32} (hu : fieldGet 16 3 u = 0#32) :
    cmdQueue (u ||| wrrAddress c q) = q := by
  have h1 : fieldGet 16 3 (fieldPrep 19 5 (BitVec.ofNat 32 c)) = 0#32 :=
    fieldGet_fieldPrep_of_disjoint (Or.inl (by decide)) _
  unfold cmdQueue wrrAddress
  rw [fieldGet_or, fieldGet_or, hu, h1, BitVec.zero_or, BitVec.zero_or, field_prep (by decide) hq]

theorem fieldGet_address : fieldGet 0 8 (wrrAddress c q) = 0#32 := by
  have h1 : fieldGet 0 8 (fieldPrep 19 5 (BitVec.ofNat 32 c)) = 0#32 :=
    fieldGet_fieldPrep_of_disjoint (Or.inl (by decide)) _
  have h2 : fieldGet 0 8 (fieldPrep 16 3 (BitVec.ofNat 32 q)) = 0#32 :=
    fieldGet_fieldPrep_of_disjoint (Or.inl (by decide)) _
  rw [wrrAddress, fieldGet_or, h1, h2, BitVec.zero_or]

/-- The command that stores weight `x`. -/
def wrrStore (c q x : Nat) : BitVec 32 :=
  txwrrRwcmd ||| fieldPrep 0 8 (BitVec.ofNat 32 x) ||| wrrAddress c q

theorem wrrStore_rwcmd (x : Nat) : wrrStore c q x &&& txwrrRwcmd ≠ 0#32 := by
  unfold txwrrRwcmd
  rw [Ne, and_bit_eq_zero_iff, wrrStore, BitVec.getLsbD_or, BitVec.getLsbD_or, txwrrRwcmd,
    getLsbD_bit]
  simp

theorem wrrAddress_rwcmd : wrrAddress c q &&& txwrrRwcmd = 0#32 := by
  unfold txwrrRwcmd
  rw [and_bit_eq_zero_iff, wrrAddress, BitVec.getLsbD_or, getLsbD_fieldPrep, getLsbD_fieldPrep]
  simp

theorem wr_store (hc : c < 32) (hq : q < 8) {x : Nat} (hx : x < 256) (e : Engine) :
    e.wr qdmaCsrTxwrrWeightCfg (wrrStore c q x) =
      { regs := Function.update e.regs qdmaCsrTxwrrWeightCfg (wrrStore c q x ||| txwrrRwcmdDone)
        wrr := Function.update e.wrr c (Function.update (e.wrr c) q (BitVec.ofNat 32 x)) } := by
  have hval : fieldGet 0 8 (wrrStore c q x) = BitVec.ofNat 32 x := by
    have h1 : fieldGet 0 8 txwrrRwcmd = 0#32 := by decide
    rw [wrrStore, fieldGet_or, fieldGet_or, h1, fieldGet_address,
      fieldGet_fieldPrep_self (by decide), ofNat_and_mask hx, BitVec.zero_or, BitVec.or_zero]
  have hch : cmdChannel (wrrStore c q x) = c := by
    have h1 : fieldGet 19 5 txwrrRwcmd = 0#32 := by decide
    have h2 : fieldGet 19 5 (fieldPrep 0 8 (BitVec.ofNat 32 x)) = 0#32 :=
      fieldGet_fieldPrep_of_disjoint (Or.inr (by decide)) _
    refine cmdChannel_address hc ?_
    rw [fieldGet_or, h1, h2, BitVec.zero_or]
  have hqu : cmdQueue (wrrStore c q x) = q := by
    have h1 : fieldGet 16 3 txwrrRwcmd = 0#32 := by decide
    have h2 : fieldGet 16 3 (fieldPrep 0 8 (BitVec.ofNat 32 x)) = 0#32 :=
      fieldGet_fieldPrep_of_disjoint (Or.inr (by decide)) _
    refine cmdQueue_address hq ?_
    rw [fieldGet_or, h1, h2, BitVec.zero_or]
  rw [wr_command (wrrStore_rwcmd x), hval, hch, hqu]

theorem wr_load (hc : c < 32) (hq : q < 8) (e : Engine) :
    e.wr qdmaCsrTxwrrWeightCfg (wrrAddress c q) =
      { e with
        regs := Function.update e.regs qdmaCsrTxwrrWeightCfg
          (e.wrrReply (wrrAddress c q) ||| txwrrRwcmdDone) } ∧
    fieldGet 0 8 (e.wrrReply (wrrAddress c q) ||| txwrrRwcmdDone) = e.wrr c q &&& mask 32 0 8 := by
  have hch : cmdChannel (wrrAddress c q) = c := by
    have h := cmdChannel_address (q := q) hc (u := 0#32) (by decide)
    rwa [BitVec.zero_or] at h
  have hqu : cmdQueue (wrrAddress c q) = q := by
    have h := cmdQueue_address (c := c) hq (u := 0#32) (by decide)
    rwa [BitVec.zero_or] at h
  constructor
  · rw [Engine.wr, if_pos rfl, if_pos wrrAddress_rwcmd]
  · have h1 : fieldGet 0 8 txwrrRwcmdDone = 0#32 := by decide
    rw [fieldGet_or, h1, BitVec.or_zero, Engine.wrrReply, hch, hqu, fieldGet_or,
      fieldGet_clear_self, BitVec.zero_or, fieldGet_fieldPrep_self (by decide)]

/-- A weight command is done by the first read. -/
theorem configDone {e : Engine} {v : BitVec 32}
    (h : e.rr qdmaCsrTxwrrWeightCfg = v ||| txwrrRwcmdDone) :
    qdmaChecConfigDone e qdmaCsrTxwrrWeightCfg txwrrRwcmdDone 3 = true := by
  have h1 : (v ||| txwrrRwcmdDone) &&& txwrrRwcmdDone ≠ 0#32 := by
    unfold txwrrRwcmdDone
    rw [Ne, and_bit_eq_zero_iff, BitVec.getLsbD_or, getLsbD_bit]
    simp
  rw [qdmaChecConfigDone, h, if_neg h1]

/-- The weights `setWrrLoop` leaves behind. -/
def wrrStored (e : Engine) (c : Nat) (weight : Nat → Nat) (i n : Nat) (c' q : Nat) : BitVec 32 :=
  if c' = c ∧ i ≤ q ∧ q < i + n then BitVec.ofNat 32 (weight q) else e.wrr c' q

theorem setWrrLoop_spec {weight : Nat → Nat} (hc : c < 32) (hw : ∀ i < 8, weight i < 256) :
    ∀ (n i : Nat) (e : Engine), i + n ≤ 8 → ∃ e', setWrrLoop c weight i n e = (e', 0) ∧
      (∀ off, off ≠ qdmaCsrTxwrrWeightCfg → e'.regs off = e.regs off) ∧
      ∀ c' q, e'.wrr c' q = wrrStored e c weight i n c' q := by
  intro n
  induction n with
  | zero =>
    intro i e _
    refine ⟨e, rfl, fun _ _ => rfl, fun c' q => ?_⟩
    have h : ¬ (c' = c ∧ i ≤ q ∧ q < i + 0) := by omega
    rw [wrrStored, if_neg h]
  | succ n ih =>
    intro i e hin
    have hwr := wr_store hc (show i < 8 by omega) (hw i (by omega)) e
    obtain ⟨e', hloop, hregs, hwrr⟩ :=
      ih (i + 1) (e.wr qdmaCsrTxwrrWeightCfg (wrrStore c i (weight i))) (by omega)
    refine ⟨e', ?_, fun off hoff => ?_, fun c' q => ?_⟩
    · have hdone : qdmaChecConfigDone (e.wr qdmaCsrTxwrrWeightCfg (wrrStore c i (weight i)))
          qdmaCsrTxwrrWeightCfg txwrrRwcmdDone 3 = true := by
        refine configDone (v := wrrStore c i (weight i)) ?_
        simp only [hwr, Engine.rr, Function.update_self]
      rw [setWrrLoop]
      exact (if_pos hdone).trans hloop
    · rw [hregs off hoff, hwr]
      exact Function.update_of_ne hoff _ _
    · rw [hwrr c' q, hwr]
      simp only [wrrStored]
      rcases eq_or_ne c' c with rfl | hcc
      · rcases eq_or_ne q i with rfl | hqi
        · simp
        · have h1 : i + 1 ≤ q ∧ q < i + 1 + n ↔ i ≤ q ∧ q < i + (n + 1) := by omega
          simp only [true_and, h1, Function.update_self, Function.update_of_ne hqi]
      · simp [hcc]

/-- The loop of the get reads every weight and only touches the command register. -/
theorem getWrrLoop_spec (hc : c < 32) : ∀ (n i : Nat) (e : Engine) (weight : Nat → Nat),
    i + n ≤ 8 → ∃ e' weight', getWrrLoop c i n e weight = (e', weight', 0) ∧
      (∀ j, i ≤ j → j < i + n → weight' j = (e.wrr c j &&& mask 32 0 8).toNat) ∧
      ∀ j, j < i → weight' j = weight j := by
  intro n
  induction n with
  | zero =>
    intro i e weight _
    exact ⟨e, weight, rfl, fun j h1 h2 => absurd h2 (by omega), fun j _ => rfl⟩
  | succ n ih =>
    intro i e weight hin
    obtain ⟨hwr, hval⟩ := wr_load hc (show i < 8 by omega) e
    obtain ⟨e', weight', hloop, hread, hkeep⟩ :=
      ih (i + 1) (e.wr qdmaCsrTxwrrWeightCfg (wrrAddress c i))
        (Function.update weight i
          (fieldGet 0 8 ((e.wr qdmaCsrTxwrrWeightCfg (wrrAddress c i)).rr
            qdmaCsrTxwrrWeightCfg)).toNat) (by omega)
    have hrr : (e.wr qdmaCsrTxwrrWeightCfg (wrrAddress c i)).rr qdmaCsrTxwrrWeightCfg =
        e.wrrReply (wrrAddress c i) ||| txwrrRwcmdDone := by
      simp only [hwr, Engine.rr, Function.update_self]
    refine ⟨e', weight', ?_, fun j h1 h2 => ?_, fun j hj => ?_⟩
    · rw [getWrrLoop]
      exact (if_pos (configDone hrr)).trans hloop
    · rcases eq_or_ne j i with rfl | hji
      · rw [hkeep j (by omega), Function.update_self, hrr, hval]
      · rw [hread j (by omega) (by omega), hwr]
    · rw [hkeep j (by omega), Function.update_of_ne (by omega)]

end Weights

/-! ## §3 What one call does

What the hardware closes, what the driver remembers as closed, the mode and
the weights are the four things a get or the engine reads. -/

/-- Whether the engine keeps queue `q` of channel `c` closed. -/
def Sys.closed (s : Sys) (m : Main) (c q : Nat) : Bool :=
  ((s.qdma m).rr (qdmaCsrQueueCloseCfg c)).getLsbD (txqDisChannelQueueShift c q)

/-- Whether `TXQ_DIS_CFG_VALUE` has queue `q` of channel `c` closed. -/
def Sys.noted (s : Sys) (c q : Nat) : Bool :=
  (s.txqDisCfgValue (c >>> 2)).getLsbD (txqDisChannelQueueShift c q)

/-- Whether a set closes queue `q`: weight zero on a queue scheduled by WRR. -/
def TxQosScheduler.closes (cfg : TxQosScheduler) (q : Nat) : Bool :=
  decide (q < weightNum cfg.qosType) && decide (cfg.weight q = 0)

/-- The word of `TXQ_DIS_CFG_VALUE` after queue `i` was opened or closed. -/
def TxQosScheduler.apply (cfg : TxQosScheduler) (v : BitVec 32) (i : Nat) : BitVec 32 :=
  if cfg.closes i then v ||| bit 32 (txqDisChannelQueueShift cfg.channel i)
  else v &&& ~~~bit 32 (txqDisChannelQueueShift cfg.channel i)

section Queues

variable {cfg : TxQosScheduler} {m : Main}

theorem shiftRight_two_lt {c : Nat} (hc : c < 32) : ¬ txqDisCfgRegNum ≤ c >>> 2 := by
  rw [Nat.shiftRight_eq_div_pow, txqDisCfgRegNum]
  omega

theorem setQueueState_eq (hc : cfg.channel < 32) (s : Sys) (i : Nat) :
    setQueueState m cfg s i = s.putTxqDisCfg m cfg.channel fun v => cfg.apply v i := by
  unfold setQueueState qdmaSetQueueOpen qdmaSetQueueClose TxQosScheduler.apply
    TxQosScheduler.closes
  simp only [if_neg (shiftRight_two_lt hc)]
  rcases Nat.lt_or_ge i (weightNum cfg.qosType) with h | h
  · cases Nat.eq_zero_or_pos (cfg.weight i) with
    | inl hz => simp [h, hz]
    | inr hz => simp [h, Nat.pos_iff_ne_zero.mp hz]
  · simp [h, Nat.not_lt.mpr h]

theorem putTxqDisCfg_put (s : Sys) (c : Nat) (f g : BitVec 32 → BitVec 32) :
    (s.putTxqDisCfg m c f).putTxqDisCfg m c g = s.putTxqDisCfg m c fun v => g (f v) := by
  simp [Sys.putTxqDisCfg, wr_of_ne (closeCfg_ne_weightCfg c)]

theorem foldl_setQueueState (hc : cfg.channel < 32) : ∀ (is : List Nat) (i : Nat) (s : Sys),
    (i :: is).foldl (setQueueState m cfg) s =
      s.putTxqDisCfg m cfg.channel fun v => (i :: is).foldl cfg.apply v := by
  intro is
  induction is with
  | nil =>
    intro i s
    exact setQueueState_eq hc s i
  | cons j is ih =>
    intro i s
    rw [List.foldl_cons, ih, setQueueState_eq hc, putTxqDisCfg_put]
    rfl

/-- The bits of the word after a run of opens and closes. -/
theorem getLsbD_foldl_apply (hc : cfg.channel < 32) : ∀ (is : List Nat) (v : BitVec 32) (k : Nat),
    (∀ i ∈ is, i < 8) → (is.foldl cfg.apply v).getLsbD k =
      if k / 8 = cfg.channel % 4 ∧ k % 8 ∈ is then cfg.closes (k % 8) else v.getLsbD k := by
  intro is
  induction is with
  | nil => simp
  | cons i is ih =>
    intro v k his
    have hi : i < 8 := his i (List.mem_cons_self)
    have hshift := closeShift_eq i hc
    rw [List.foldl_cons, ih _ _ fun j hj => his j (List.mem_cons_of_mem _ hj)]
    have hbit : k = txqDisChannelQueueShift cfg.channel i ↔
        k / 8 = cfg.channel % 4 ∧ k % 8 = i := by
      rw [hshift]
      omega
    have happly : (cfg.apply v i).getLsbD k =
        if k / 8 = cfg.channel % 4 ∧ k % 8 = i then cfg.closes i else v.getLsbD k := by
      have hlt : txqDisChannelQueueShift cfg.channel i < 32 := by
        rw [hshift]
        omega
      unfold TxQosScheduler.apply
      cases hcl : cfg.closes i with
      | true =>
        rw [if_pos rfl, getLsbD_or_bit hlt]
        split
        · rename_i h
          simp [hbit.mpr h]
        · rename_i h
          simp [mt hbit.mp h]
      | false =>
        rw [if_neg Bool.false_ne_true, getLsbD_and_not_bit]
        split
        · rename_i h
          simp [hbit.mpr h]
        · rename_i h
          simp [mt hbit.mp h]
    rw [happly]
    rcases eq_or_ne (k % 8) i with rfl | hki
    · rcases eq_or_ne (k / 8) (cfg.channel % 4) with h | h
      · simp [h]
      · simp [h]
    · simp [hki]

theorem rr_of_queueWord (hc : cfg.channel < 32) {c q : Nat} (hcc : c < 32) (hq : q < 8)
    (v : BitVec 32) (hword : c / 4 = cfg.channel / 4) :
    ((List.range configQdmaQueue).foldl cfg.apply v).getLsbD (txqDisChannelQueueShift c q) =
      if c = cfg.channel then cfg.closes q else v.getLsbD (txqDisChannelQueueShift c q) := by
  unfold configQdmaQueue
  rw [getLsbD_foldl_apply hc _ _ _ fun i hi => List.mem_range.mp hi, closeShift_eq q hcc]
  have h1 : (q + c % 4 * 8) % 8 = q := by omega
  have h2 : (q + c % 4 * 8) / 8 = cfg.channel % 4 ↔ c = cfg.channel := by omega
  have h3 : q ∈ List.range 8 := List.mem_range.mpr hq
  simp only [h1, h2, h3, and_true]

end Queues

/-! ### The mode register -/

theorem mode_set_self {e : Engine} {c k : Nat} (hc : c < 32) (hk : k < 8) :
    (qdmaGetPerChnlQosMode (qdmaSetPerChnlQosMode e c (BitVec.ofNat 32 k)) c).toNat = k := by
  have hs : txqosChnlQosModeShift c + 3 ≤ 32 := by
    rw [modeShift_eq hc]
    omega
  unfold qdmaGetPerChnlQosMode qdmaSetPerChnlQosMode Engine.rmw
  rw [wr_of_ne (qosMode_ne_weightCfg _)]
  simp only [Engine.rr, Function.update_self]
  rw [shiftLeft_eq_fieldPrep (ofNat_and_mask (n := 3) hk), fieldGet_or, fieldGet_clear_self,
    BitVec.or_zero, field_prep hs hk]

theorem mode_set_of_ne {e : Engine} {c c' k : Nat} (hc : c < 32) (hc' : c' < 32) (hk : k < 8)
    (hne : c' ≠ c) : qdmaGetPerChnlQosMode (qdmaSetPerChnlQosMode e c (BitVec.ofNat 32 k)) c' =
      qdmaGetPerChnlQosMode e c' := by
  unfold qdmaGetPerChnlQosMode qdmaSetPerChnlQosMode Engine.rmw
  rw [wr_of_ne (qosMode_ne_weightCfg _)]
  rcases eq_or_ne (c' >>> 3) (c >>> 3) with h | h
  · have hdis : txqosChnlQosModeShift c' + 3 ≤ txqosChnlQosModeShift c ∨
        txqosChnlQosModeShift c + 3 ≤ txqosChnlQosModeShift c' := by
      rw [modeShift_eq hc, modeShift_eq hc']
      simp only [Nat.shiftRight_eq_div_pow] at h
      omega
    simp only [Engine.rr, h, Function.update_self]
    rw [shiftLeft_eq_fieldPrep (ofNat_and_mask (n := 3) hk), fieldGet_or,
      fieldGet_fieldPrep_of_disjoint hdis, BitVec.zero_or, fieldGet_clear_of_disjoint hdis]
  · have hoff : qdmaCsrPerchnlQosMode (c' >>> 3) ≠ qdmaCsrPerchnlQosMode (c >>> 3) :=
      fun heq => h (qosMode_injective heq)
    simp only [Engine.rr, Function.update_of_ne hoff]

theorem mode_congr {e e' : Engine} {c : Nat}
    (h : e'.rr (qdmaCsrPerchnlQosMode (c >>> 3)) = e.rr (qdmaCsrPerchnlQosMode (c >>> 3))) :
    qdmaGetPerChnlQosMode e' c = qdmaGetPerChnlQosMode e c := by
  rw [qdmaGetPerChnlQosMode, h, qdmaGetPerChnlQosMode]

/-! ### The whole call -/

/-- What the callers of the QoS set keep to. -/
structure TxQosScheduler.Valid (cfg : TxQosScheduler) : Prop where
  channel_lt : cfg.channel < 32
  qosType_lt : cfg.qosType < 8
  weight_le : ∀ i < 8, cfg.weight i ≤ 255

/-- Everything observable after a set of `cfg` on `m`, in terms of what was before. -/
structure SetDone (m : Main) (cfg : TxQosScheduler) (s s' : Sys) : Prop where
  noted : ∀ c q, c < 32 → q < 8 →
    s'.noted c q = if c = cfg.channel then cfg.closes q else s.noted c q
  closed : ∀ m' c q, c < 32 → q < 8 →
    s'.closed m' c q =
      if m' = m ∧ c / 4 = cfg.channel / 4 then s'.noted c q else s.closed m' c q
  mode_self : (qdmaGetPerChnlQosMode (s'.qdma m) cfg.channel).toNat = cfg.qosType
  mode_of_ne : ∀ m' c, c < 32 → ¬ (m' = m ∧ c = cfg.channel) →
    qdmaGetPerChnlQosMode (s'.qdma m') c = qdmaGetPerChnlQosMode (s.qdma m') c
  wrr_self : ∀ q < 8, (s'.qdma m).wrr cfg.channel q = BitVec.ofNat 32 (cfg.noZero.weight q)
  wrr_of_ne : ∀ m' c q, ¬ (m' = m ∧ c = cfg.channel) →
    (s'.qdma m').wrr c q = (s.qdma m').wrr c q

/-- The engine after the queue phase: the close word of the channel is `v`. -/
theorem closeCfg_wr {e : Engine} {c c' : Nat} (hc : c < 32) (hc' : c' < 32) (v : BitVec 32) :
    (e.wr (qdmaCsrQueueCloseCfg c) v).rr (qdmaCsrQueueCloseCfg c') =
      if c' / 4 = c / 4 then v else e.rr (qdmaCsrQueueCloseCfg c') := by
  rw [wr_of_ne (closeCfg_ne_weightCfg c), closeCfg_eq hc, closeCfg_eq hc']
  simp only [Engine.rr]
  rcases eq_or_ne (c' / 4) (c / 4) with h | h
  · rw [h, Function.update_self, if_pos rfl]
  · rw [if_neg h, Function.update_of_ne (by omega)]

theorem mode_closeCfg_wr {e : Engine} {c c' : Nat} (v : BitVec 32) :
    qdmaGetPerChnlQosMode (e.wr (qdmaCsrQueueCloseCfg c) v) c' = qdmaGetPerChnlQosMode e c' := by
  refine mode_congr ?_
  rw [wr_of_ne (closeCfg_ne_weightCfg c)]
  exact Function.update_of_ne (qosMode_ne_closeCfg _ _) _ _

theorem closeCfg_setMode {e : Engine} {c c' k : Nat} :
    (qdmaSetPerChnlQosMode e c (BitVec.ofNat 32 k)).rr (qdmaCsrQueueCloseCfg c') =
      e.rr (qdmaCsrQueueCloseCfg c') := by
  unfold qdmaSetPerChnlQosMode Engine.rmw
  rw [wr_of_ne (qosMode_ne_weightCfg _)]
  exact Function.update_of_ne (qosMode_ne_closeCfg _ _).symm _ _

theorem wrr_setMode {e : Engine} {c k : Nat} :
    (qdmaSetPerChnlQosMode e c (BitVec.ofNat 32 k)).wrr = e.wrr := by
  unfold qdmaSetPerChnlQosMode Engine.rmw
  rw [wr_of_ne (qosMode_ne_weightCfg _)]

/-- The engine part of a set: weights, then mode. -/
structure Scheduled (cfg : TxQosScheduler) (e e' : Engine) : Prop where
  closeCfg : ∀ c, e'.rr (qdmaCsrQueueCloseCfg c) = e.rr (qdmaCsrQueueCloseCfg c)
  mode_self : (qdmaGetPerChnlQosMode e' cfg.channel).toNat = cfg.qosType
  mode_of_ne : ∀ c, c < 32 → c ≠ cfg.channel →
    qdmaGetPerChnlQosMode e' c = qdmaGetPerChnlQosMode e c
  wrr_self : ∀ q < 8, e'.wrr cfg.channel q = BitVec.ofNat 32 (cfg.noZero.weight q)
  wrr_of_ne : ∀ c q, c ≠ cfg.channel → e'.wrr c q = e.wrr c q

theorem noZero_weight_lt {cfg : TxQosScheduler} (hv : cfg.Valid) {i : Nat} (hi : i < 8) :
    cfg.noZero.weight i < 256 := by
  have h1 := hv.weight_le i hi
  unfold TxQosScheduler.noZero
  dsimp only
  split <;> omega

theorem scheduler_spec {cfg : TxQosScheduler} (hv : cfg.Valid) (e : Engine) : ∃ e',
    qdmaSetTxQosSchedulerUpstream e cfg.channel cfg.qosType cfg.noZero.weight = (e', 0) ∧
      Scheduled cfg e e' := by
  have hc := hv.channel_lt
  obtain ⟨e₁, hloop, hregs, hwrr⟩ :=
    setWrrLoop_spec hc (fun i hi => noZero_weight_lt hv hi) 8 0 e (by omega)
  refine ⟨qdmaSetPerChnlQosMode e₁ cfg.channel (BitVec.ofNat 32 cfg.qosType), ?_, ?_, ?_,
    ?_, ?_, ?_⟩
  · unfold qdmaSetTxQosSchedulerUpstream configQdmaQueue
    rw [hloop]
    rfl
  · intro c
    rw [closeCfg_setMode]
    exact hregs _ (closeCfg_ne_weightCfg c)
  · exact mode_set_self hc hv.qosType_lt
  · intro c hcc hne
    rw [mode_set_of_ne hc hcc hv.qosType_lt hne]
    exact mode_congr (hregs _ (qosMode_ne_weightCfg _))
  · intro q hq
    have h1 : cfg.channel = cfg.channel ∧ 0 ≤ q ∧ q < 0 + 8 := by omega
    rw [wrr_setMode, hwrr, wrrStored, if_pos h1]
  · intro c q hne
    rw [wrr_setMode, hwrr, wrrStored, if_neg fun h => hne h.1]

theorem setDone {cfg : TxQosScheduler} (hv : cfg.Valid) (m : Main) {s : Sys} {v : BitVec 32}
    {e' : Engine} (hword : ∀ c q, c < 32 → q < 8 → c / 4 = cfg.channel / 4 →
      v.getLsbD (txqDisChannelQueueShift c q) =
        if c = cfg.channel then cfg.closes q else s.noted c q)
    (he : Scheduled cfg ((s.qdma m).wr (qdmaCsrQueueCloseCfg cfg.channel) v) e') :
    SetDone m cfg s
      { txqDisCfgValue := Function.update s.txqDisCfgValue (cfg.channel >>> 2) v
        qdma := Function.update s.qdma m e' } := by
  have hc := hv.channel_lt
  have hidx : ∀ c, c >>> 2 = cfg.channel >>> 2 ↔ c / 4 = cfg.channel / 4 := by
    intro c
    simp [Nat.shiftRight_eq_div_pow]
  refine ⟨?noted, ?closed, ?modeSelf, ?mode, ?wrrSelf, ?wrr⟩
  case noted =>
    intro c q hcc hq
    simp only [Sys.noted]
    rcases eq_or_ne (c / 4) (cfg.channel / 4) with h | h
    · rw [(hidx c).mpr h, Function.update_self, hword c q hcc hq h, Sys.noted, (hidx c).mpr h]
    · have hne : c ≠ cfg.channel := fun heq => h (by rw [heq])
      rw [Function.update_of_ne (mt (hidx c).mp h), if_neg hne]
  case closed =>
    intro m' c q hcc _
    simp only [Sys.closed, Sys.noted]
    rcases eq_or_ne m' m with rfl | hm
    · rw [Function.update_self, he.closeCfg, closeCfg_wr hc hcc]
      rcases eq_or_ne (c / 4) (cfg.channel / 4) with h | h
      · rw [if_pos h, if_pos ⟨rfl, h⟩, (hidx c).mpr h, Function.update_self]
      · rw [if_neg h, if_neg fun hh => h hh.2]
    · rw [Function.update_of_ne hm, if_neg fun hh => hm hh.1]
  case modeSelf =>
    simp only [Function.update_self]
    exact he.mode_self
  case mode =>
    intro m' c hcc hne
    dsimp only
    rcases eq_or_ne m' m with rfl | hm
    · rw [Function.update_self, he.mode_of_ne c hcc fun h => hne ⟨rfl, h⟩, mode_closeCfg_wr]
    · rw [Function.update_of_ne hm]
  case wrrSelf =>
    intro q hq
    simp only [Function.update_self]
    exact he.wrr_self q hq
  case wrr =>
    intro m' c q hne
    dsimp only
    rcases eq_or_ne m' m with rfl | hm
    · rw [Function.update_self, he.wrr_of_ne c q fun h => hne ⟨rfl, h⟩,
        wr_of_ne (closeCfg_ne_weightCfg _)]
    · rw [Function.update_of_ne hm]

/-- A valid set succeeds, and `SetDone` says what it did. -/
theorem set_spec {cfg : TxQosScheduler} (hv : cfg.Valid) (m : Main) (s : Sys) :
    ∃ s', qdmaSetTxQosUpstream m cfg s = (s', cfg.noZero, 0) ∧ SetDone m cfg s s' := by
  have hc := hv.channel_lt
  have hfold : (List.range configQdmaQueue).foldl (setQueueState m cfg) s =
      s.putTxqDisCfg m cfg.channel fun v => (List.range configQdmaQueue).foldl cfg.apply v :=
    foldl_setQueueState hc [1, 2, 3, 4, 5, 6, 7] 0 s
  obtain ⟨e', hsched, he⟩ := scheduler_spec hv ((s.qdma m).wr (qdmaCsrQueueCloseCfg cfg.channel)
    ((List.range configQdmaQueue).foldl cfg.apply (s.txqDisCfgValue (cfg.channel >>> 2))))
  refine ⟨_, ?_, setDone hv m (fun c q hcc hq hword => ?_) he⟩
  · unfold qdmaSetTxQosUpstream
    rw [if_neg (show ¬ configQdmaChannel ≤ cfg.channel from Nat.not_le.mpr hc),
      if_neg (show ¬ qdmaTxqosTypeNums ≤ cfg.qosType from Nat.not_le.mpr hv.qosType_lt), hfold]
    simp only [TxQosScheduler.noZero, Sys.putTxqDisCfg, Function.update_self] at hsched ⊢
    rw [hsched]
    simp only [Function.update_idem]
  · have hidx : c >>> 2 = cfg.channel >>> 2 := by
      simpa [Nat.shiftRight_eq_div_pow] using hword
    rw [rr_of_queueWord hc hcc hq _ hword, Sys.noted, hidx]

/-- What a get returns, in terms of mode, weights and the remembered bits. -/
theorem get_spec {cfg : TxQosScheduler} (hc : cfg.channel < 32) (m : Main) (s : Sys) :
    ∃ s' out, qdmaGetTxQosUpstream m cfg s = (s', out, 0) ∧
      out.qosType = (qdmaGetPerChnlQosMode (s.qdma m) cfg.channel).toNat ∧
      ∀ i < 8, out.weight i =
        if ((s.qdma m).wrr cfg.channel i &&& mask 32 0 8).toNat = 1 ∧ s.noted cfg.channel i = true
        then 0 else ((s.qdma m).wrr cfg.channel i &&& mask 32 0 8).toNat := by
  obtain ⟨e', weight, hloop, hread, -⟩ :=
    getWrrLoop_spec hc 8 0 (s.qdma m) (fun _ => 0) (by omega)
  have hnoted : ∀ i, qdmaIsQueueClosed s cfg.channel i ≠ 0#32 ↔ s.noted cfg.channel i = true := by
    intro i
    rw [qdmaIsQueueClosed, if_neg (shiftRight_two_lt hc), Ne, and_bit_eq_zero_iff, Sys.noted,
      Bool.not_eq_false]
  have hget : qdmaGetTxQosUpstream m cfg s =
      ({ s with qdma := Function.update s.qdma m e' },
        { cfg with
          qosType := (qdmaGetPerChnlQosMode (s.qdma m) cfg.channel).toNat
          weight := fun i =>
            if i < 8 then
              if weight i = 1 ∧ qdmaIsQueueClosed s cfg.channel i ≠ 0#32 then 0 else weight i
            else cfg.weight i }, 0) := by
    unfold qdmaGetTxQosUpstream configQdmaQueue
    rw [if_neg (show ¬ configQdmaChannel ≤ cfg.channel from Nat.not_le.mpr hc), hloop]
    rfl
  refine ⟨_, _, hget, rfl, fun i hi => ?_⟩
  simp only [hi, if_true, hnoted, hread i (Nat.zero_le i) (by omega)]

end Airoha.Qdma
