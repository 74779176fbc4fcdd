/-
Airoha.Qdma.Htb — HTB classes on the channels of a QDMA engine.

Translates `airoha_tc_htb_modify_queue`, `airoha_tc_htb_alloc_leaf_queue`,
`airoha_tc_htb_delete_leaf_queue`, `airoha_tc_get_htb_get_leaf_queue` and
`airoha_tc_htb_destroy`, which `airoha_tc_setup_qdisc_htb` calls. A class is on
the channel its minor number gives: modulo `AIROHA_NUM_QOS_CHANNELS` where a
queue is allocated or deleted, modulo `AIROHA_MAX_NUM_CHANNELS` where a rate is
set or the queue is asked for. `netif_set_real_num_tx_queues` succeeds. The
bitmaps are one `unsigned long` each.

Of an offload request what the calls read is kept: the class, its parent, the
quantum and the rate, in bytes per second. The messages for `extack` are left
out.
-/
import Airoha.Lib.Scan
import Airoha.Qdma.Shaper

namespace Airoha.Qdma

open Airoha.Lib

/-! ## State -/

def airohaMaxNumChannels : Nat := 32
def airohaNumQosChannels : Nat := 4
def airohaNumTxRing : Nat := 32

/-- `struct airoha_gdm_dev`, and `real_num_tx_queues` of its `net_device`. -/
structure HtbDev where
  qosSqBmap : BitVec 64
  realNumTxQueues : Nat

/-- `struct airoha_qdma` -/
structure HtbQdma where
  qosChannelMap : BitVec 64
  meters : EgressMeters

/-- The devices and the engines. -/
structure HtbState (δ κ : Type) where
  dev : δ → HtbDev
  qdma : κ → HtbQdma

/-- `dev->qdma` of every device, and `extra_ops.set_bucket_size`. -/
structure HtbHw (δ κ : Type) where
  qdma : δ → κ
  bucketShift : BitVec 32 → BitVec 32 → BitVec 32

/-- `struct tc_htb_qopt_offload` -/
structure TcHtbQopt where
  classid : BitVec 32
  parentClassid : BitVec 32
  rate : BitVec 64
  quantum : BitVec 32

/-- `TC_H_MIN` -/
def tcHMin (classid : BitVec 32) : Nat := (classid &&& 0xffff#32).toNat

/-- `TC_HTB_CLASSID_ROOT` -/
def tcHtbClassidRoot : BitVec 32 := 0xffffffff#32

/-- `div_u64(opt->rate, 1000) << 3`, a `u32`. -/
def TcHtbQopt.kbps (opt : TcHtbQopt) : BitVec 32 := ((opt.rate / 1000#64) <<< 3).setWidth 32

/-- `airoha_tc_get_htb_get_leaf_queue`, with `opt->qid`. -/
def airohaTcGetHtbGetLeafQueue {δ κ : Type} (d : δ) (classid : BitVec 32) (s : HtbState δ κ) :
    Except Int Nat :=
  let channel := tcHMin classid % airohaMaxNumChannels
  if (s.dev d).qosSqBmap.getLsbD channel then .ok (airohaNumTxRing + channel) else .error (-22)

/-- `num_tx_queues` of `airoha_tc_remove_htb_queue`: up to the queue of the last channel. -/
def numTxQueuesFor (qosSqBmap : BitVec 64) : Nat :=
  match scanDown (fun k => qosSqBmap.getLsbD k) (airohaNumQosChannels - 1) airohaNumQosChannels with
  | some last => airohaNumTxRing + (last + 1)
  | none => airohaNumTxRing

section Ops

variable {δ κ : Type} [DecidableEq δ] [DecidableEq κ] (hw : HtbHw δ κ)

def HtbState.putDev (s : HtbState δ κ) (d : δ) (v : HtbDev) : HtbState δ κ :=
  { s with dev := Function.update s.dev d v }

def HtbState.putQdma (s : HtbState δ κ) (q : κ) (v : HtbQdma) : HtbState δ κ :=
  { s with qdma := Function.update s.qdma q v }

/-! ## The commands -/

/-- `airoha_qdma_set_tx_rate_limit`, on the engine of a device. -/
def setDevRateLimit (d : δ) (channel : Nat) (rate bucketSize : BitVec 32) (s : HtbState δ κ) :
    Int × HtbState δ κ :=
  let q := s.qdma (hw.qdma d)
  let r := airohaQdmaSetTxRateLimit hw.bucketShift q.meters channel rate bucketSize
  (r.1, s.putQdma (hw.qdma d) { q with meters := r.2 })

/-- `set_bit` and `clear_bit` in `qos_channel_map` and in `qos_sq_bmap`. -/
def putChannel (d : δ) (channel : Nat) (on : Bool) (s : HtbState δ κ) : HtbState δ κ :=
  let q := s.qdma (hw.qdma d)
  s.putQdma (hw.qdma d)
    { q with
      qosChannelMap := if on then q.qosChannelMap ||| bit 64 channel
        else q.qosChannelMap &&& ~~~bit 64 channel }

def putSq (d : δ) (channel : Nat) (on : Bool) (s : HtbState δ κ) : HtbState δ κ :=
  let v := s.dev d
  s.putDev d
    { v with
      qosSqBmap :=
        if on then v.qosSqBmap ||| bit 64 channel else v.qosSqBmap &&& ~~~bit 64 channel }

/-- `netif_set_real_num_tx_queues` -/
def netifSetRealNumTxQueues (d : δ) (n : Nat) (s : HtbState δ κ) : HtbState δ κ :=
  s.putDev d { s.dev d with realNumTxQueues := n }

/-- `airoha_tc_htb_modify_queue` -/
def airohaTcHtbModifyQueue (d : δ) (opt : TcHtbQopt) (s : HtbState δ κ) : Int × HtbState δ κ :=
  let channel := tcHMin opt.classid % airohaMaxNumChannels
  if opt.parentClassid ≠ tcHtbClassidRoot then (-22, s)
  else setDevRateLimit hw d channel opt.kbps opt.quantum s

/-- `airoha_tc_htb_alloc_leaf_queue`, with `opt->qid`. -/
def airohaTcHtbAllocLeafQueue (d : δ) (opt : TcHtbQopt) (s : HtbState δ κ) :
    Except Int Nat × HtbState δ κ :=
  let channel := tcHMin opt.classid % airohaNumQosChannels
  let numTxQueues := airohaNumTxRing + channel + 1
  if (s.qdma (hw.qdma d)).qosChannelMap.getLsbD channel then (.error (-16), s)
  else
    let s := putChannel hw d channel true s
    match airohaTcHtbModifyQueue hw d opt s with
    | (0, s) =>
        let s :=
          if (s.dev d).realNumTxQueues < numTxQueues then netifSetRealNumTxQueues d numTxQueues s
          else s
        (.ok (airohaNumTxRing + channel), putSq d channel true s)
    | (err, s) => (.error err, putChannel hw d channel false s)

/-- `airoha_tc_remove_htb_queue` -/
def airohaTcRemoveHtbQueue (d : δ) (queue : Nat) (s : HtbState δ κ) : HtbState δ κ :=
  let s := (setDevRateLimit hw d queue 0#32 0#32 s).2
  let s := putSq d queue false (putChannel hw d queue false s)
  netifSetRealNumTxQueues d (numTxQueuesFor (s.dev d).qosSqBmap) s

/-- `airoha_tc_htb_delete_leaf_queue` -/
def airohaTcHtbDeleteLeafQueue (d : δ) (classid : BitVec 32) (s : HtbState δ κ) :
    Int × HtbState δ κ :=
  let channel := tcHMin classid % airohaNumQosChannels
  if (s.dev d).qosSqBmap.getLsbD channel then (0, airohaTcRemoveHtbQueue hw d channel s)
  else (-22, s)

/-- `airoha_tc_htb_destroy` -/
def airohaTcHtbDestroy (d : δ) (s : HtbState δ κ) : HtbState δ κ :=
  (List.range airohaMaxNumChannels).foldl
    (fun s q => if (s.dev d).qosSqBmap.getLsbD q then airohaTcRemoveHtbQueue hw d q s else s) s

/-! ## Runs -/

/-- What `sch_htb` knows of a class: its queue, and the rate it was last given, in bytes a
second. -/
structure HtbClass where
  qid : Nat
  rate : BitVec 64

/-- The state, and the classes of every device. -/
structure HtbSys (δ κ : Type) where
  state : HtbState δ κ
  live : δ → BitVec 32 → Option HtbClass

/-- A command of `airoha_tc_setup_qdisc_htb`. -/
inductive HtbCmd (δ : Type) where
  | leafAllocQueue (d : δ) (opt : TcHtbQopt)
  | nodeModify (d : δ) (opt : TcHtbQopt)
  | leafDel (d : δ) (classid : BitVec 32)
  | leafQueryQueue (d : δ) (classid : BitVec 32)
  | destroy (d : δ)

/-- The class `classid` of a device becomes `c`. -/
def putClass (live : δ → BitVec 32 → Option HtbClass) (d : δ) (classid : BitVec 32)
    (c : Option HtbClass) : δ → BitVec 32 → Option HtbClass :=
  Function.update live d (Function.update (live d) classid c)

/-- One command. A class is allocated, given a rate or deleted when the command succeeds. -/
def htbStep (t : HtbSys δ κ) (cmd : HtbCmd δ) : HtbSys δ κ :=
  match cmd with
  | .leafAllocQueue d opt =>
      match airohaTcHtbAllocLeafQueue hw d opt t.state with
      | (.ok qid, s) =>
          { state := s, live := putClass t.live d opt.classid (some { qid, rate := opt.rate }) }
      | (.error _, s) => { t with state := s }
  | .nodeModify d opt =>
      match airohaTcHtbModifyQueue hw d opt t.state with
      | (0, s) =>
          { state := s
            live := putClass t.live d opt.classid
              ((t.live d opt.classid).map fun c => { c with rate := opt.rate }) }
      | (_, s) => { t with state := s }
  | .leafDel d classid =>
      match airohaTcHtbDeleteLeafQueue hw d classid t.state with
      | (0, s) => { state := s, live := putClass t.live d classid none }
      | (_, s) => { t with state := s }
  | .leafQueryQueue _ _ => t
  | .destroy d =>
      { state := airohaTcHtbDestroy hw d t.state, live := Function.update t.live d fun _ => none }

end Ops

end Airoha.Qdma
