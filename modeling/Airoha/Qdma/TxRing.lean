/-
Airoha.Qdma.TxRing — the descriptors of a transmit queue.

Translates `airoha_eth_transmit_packet`, `qdma_wan_tx` and `airoha_eth_fast_tx`,
as far as they concern the queue. The free entries of a queue are in `tx_list`.
A packet takes one for each of its fragments from the front, and the descriptor
of an entry names the one that is in front then: the descriptor of the next
fragment, and behind the last one that of the next packet. What the packet and
the device bring along (the message words, the mapped addresses, `xmit_more`) are
arguments. A function that takes an entry from an empty `tx_list` reads past the
list; the result is `empty` then.

Left out: byte queue limits, the timestamp of a packet, the counters of the
device, and the DMA calls but for a mapping that fails.
-/
import Mathlib.Data.List.Nodup
import Mathlib.Logic.Function.Basic

namespace Airoha.Qdma

/-! ## The queue -/

/-- `struct airoha_queue_entry`, beside the list. -/
structure QueueEntry (σ : Type) where
  skb : Option σ
  dmaAddr : BitVec 64
  dmaLen : BitVec 16

/-- `struct airoha_qdma_desc`. LEN and MORE are in `ctrl`, NEXT_ID in `data`. -/
structure QdmaDesc where
  len : BitVec 16
  more : Bool
  addr : BitVec 32
  nextId : BitVec 16
  msg0 : BitVec 32
  msg1 : BitVec 32
  msg2 : BitVec 32

/-- `struct airoha_queue`, with `REG_TX_CPU_IDX`; `stopped` is the state the driver gives the
`netdev_queue`. -/
structure TxQueue (σ : Type) where
  ndesc : Nat
  freeThr : Nat
  entry : Nat → QueueEntry σ
  desc : BitVec 16 → QdmaDesc
  txList : List Nat
  queued : Nat
  cpuIdx : BitVec 16
  stopped : Bool

/-- A fragment: its length, and what `dma_map_single` makes of it, none for an error. -/
structure Frag where
  len : BitVec 32
  addr : Option (BitVec 64)

/-- A packet: its head and its fragments, and what else the functions ask for. `cowFails` says that
`skb_cow_head` fails for a GSO packet, `keepAlive` that the packet is a keepalive duplicate, `kick`
that the queue is stopped or no packet follows. -/
structure Skb (σ : Type) where
  skb : σ
  head : Frag
  frags : List Frag
  msg0 : BitVec 32
  msg1 : BitVec 32
  msg2 : BitVec 32
  cowFails : Bool
  keepAlive : Bool
  kick : Bool

section Functions

variable {σ : Type}

/-- `nr_frags` -/
def Skb.nrFrags (x : Skb σ) : Nat := 1 + x.frags.length

/-- `index = e - q->entry` -/
def indexOf (e : Nat) : BitVec 16 := BitVec.ofNat 16 e

/-- `airoha_qdma_init_tx_queue`: the entries are in order. -/
def airohaQdmaInitTxQueue (size freeThr : Nat) (entry : Nat → QueueEntry σ)
    (desc : BitVec 16 → QdmaDesc) : TxQueue σ where
  ndesc := size
  freeThr := freeThr
  entry := entry
  desc := desc
  txList := List.range size
  queued := 0
  cpuIdx := 0#16
  stopped := false

/-! ## Transmission -/

/-- How the loop over the fragments ends, with the local `tx_list`. -/
inductive LoopEnd (σ : Type) where
  | done (q : TxQueue σ) (index : BitVec 16) (txList : List Nat)
  | errorUnmap (q : TxQueue σ) (txList : List Nat)
  | empty (q : TxQueue σ)

/-- The entry is moved to the local list and filled in. -/
def TxQueue.take (q : TxQueue σ) (e : Nat) (entry : QueueEntry σ) : TxQueue σ :=
  { q with txList := q.txList.erase e, entry := Function.update q.entry e entry }

/-- A descriptor written. `msg2` is written by `qdma_wan_tx` only. -/
def TxQueue.writeDesc (q : TxQueue σ) (index : BitVec 16) (v : QdmaDesc) (withMsg2 : Bool) :
    TxQueue σ :=
  let v := if withMsg2 then v else { v with msg2 := (q.desc index).msg2 }
  { q with desc := Function.update q.desc index v }

/-- The loop over the fragments, from fragment `i` with entry `e` on. -/
def txLoop (withMsg2 : Bool) (x : Skb σ) :
    List Frag → Nat → Nat → TxQueue σ → List Nat → LoopEnd σ
  | [], _, e, q, txList => .done q (indexOf e) txList
  | frag :: rest, i, e, q, txList =>
      match frag.addr with
      | none => .errorUnmap q txList
      | some addr =>
          let desc := indexOf e
          let q := q.take e
            { skb := if i = 0 then some x.skb else none
              dmaAddr := addr
              dmaLen := frag.len.setWidth 16 }
          match q.txList with
          | [] => .empty q
          | e' :: _ =>
              let q := q.writeDesc desc
                { len := frag.len.setWidth 16
                  more := decide (i < x.nrFrags - 1)
                  addr := addr.setWidth 32
                  nextId := indexOf e'
                  msg0 := x.msg0
                  msg1 := x.msg1
                  msg2 := x.msg2 } withMsg2
              txLoop withMsg2 x rest (i + 1) e' q (txList ++ [e])

/-- `error_unmap` -/
def errorUnmap : List Nat → TxQueue σ → TxQueue σ
  | [], q => q
  | e :: txList, q =>
      errorUnmap txList
        { q with
          entry := Function.update q.entry e { q.entry e with dmaAddr := 0#64 }
          txList := q.txList ++ [e] }

/-- What becomes of a packet. -/
inductive TxResult where
  /-- The packet is queued, with the entries it took. -/
  | accepted (used : List Nat)
  | dropped
  /-- Given back to the caller. -/
  | busy
  | empty
deriving DecidableEq, Repr

/-- What one function does and another does not. -/
structure TxKind where
  dropsKeepAlive : Bool
  /-- Stops the queue when it is full or nearly so, and leaves the packet to the caller. -/
  stops : Bool
  withMsg2 : Bool

/-- Behind the loop: the register is written, and the queue stopped when few entries are left. -/
def TxQueue.kick (k : TxKind) (x : Skb σ) (index : BitVec 16) (q : TxQueue σ) : TxQueue σ :=
  let q := if !k.stops || x.kick then { q with cpuIdx := index } else q
  if k.stops && decide (q.ndesc - q.queued < q.freeThr) then { q with stopped := true } else q

/-- What the three functions do with the queue under its lock. -/
def queueSkb (k : TxKind) (x : Skb σ) (q : TxQueue σ) : TxResult × TxQueue σ :=
  match q.txList with
  | [] => (.empty, q)
  | e :: _ =>
      match txLoop k.withMsg2 x (x.head :: x.frags) 0 e q [] with
      | .done q index txList =>
          (.accepted txList, TxQueue.kick k x index { q with queued := q.queued + x.nrFrags })
      | .errorUnmap q txList => (.dropped, errorUnmap txList q)
      | .empty q => (.empty, q)

/-- What comes before: the packets that are dropped, and the queue that is full. -/
def transmit (k : TxKind) (x : Skb σ) (q : TxQueue σ) : TxResult × TxQueue σ :=
  if x.cowFails then (.dropped, q)
  else if q.ndesc = 0 then (.dropped, q)
  else if k.dropsKeepAlive && x.keepAlive then (.dropped, q)
  else if q.ndesc ≤ q.queued + x.nrFrags then
    if k.stops then (.busy, { q with stopped := true }) else (.dropped, q)
  else queueSkb k x q

/-- What is particular to each of the three. -/
def transmitPacketKind : TxKind := { dropsKeepAlive := true, stops := true, withMsg2 := false }
def wanTxKind : TxKind := { dropsKeepAlive := true, stops := true, withMsg2 := true }
def fastTxKind : TxKind := { dropsKeepAlive := false, stops := false, withMsg2 := false }

/-- `airoha_eth_transmit_packet` -/
def airohaEthTransmitPacket (x : Skb σ) (q : TxQueue σ) : TxResult × TxQueue σ :=
  transmit transmitPacketKind x q

/-- `qdma_wan_tx` -/
def qdmaWanTx (x : Skb σ) (q : TxQueue σ) : TxResult × TxQueue σ := transmit wanTxKind x q

/-- `airoha_eth_fast_tx` -/
def airohaEthFastTx (x : Skb σ) (q : TxQueue σ) : TxResult × TxQueue σ := transmit fastTxKind x q

/-- `airoha_qdma_tx_napi_poll`, of one entry that is not free. -/
def txComplete (e : Nat) (q : TxQueue σ) : TxQueue σ :=
  if e < q.ndesc ∧ e ∉ q.txList then
    { q with
      entry := Function.update q.entry e { q.entry e with dmaAddr := 0#64 }
      txList := q.txList ++ [e]
      queued := q.queued - 1 }
  else q

/-! ## Runs -/

/-- A call of one of the three functions, or a completion. -/
inductive TxOp (σ : Type) where
  | transmitPacket (x : Skb σ)
  | wanTx (x : Skb σ)
  | fastTx (x : Skb σ)
  | complete (e : Nat)

/-- What becomes of the packet, none for a completion, and the queue behind it. -/
def TxQueue.step (q : TxQueue σ) : TxOp σ → Option TxResult × TxQueue σ
  | .transmitPacket x => (some (airohaEthTransmitPacket x q).1, (airohaEthTransmitPacket x q).2)
  | .wanTx x => (some (qdmaWanTx x q).1, (qdmaWanTx x q).2)
  | .fastTx x => (some (airohaEthFastTx x q).1, (airohaEthFastTx x q).2)
  | .complete e => (none, txComplete e q)

end Functions

end Airoha.Qdma
