/-
Airoha.Eip93.Hash — a hash request in blocks of 64 bytes.

Translates `eip93_hash_init`, `eip93_hash_update`, `eip93_hash_final` and
`eip93_send_hash_req`. The blocks of a request are numbered as they are
allocated; a descriptor names the block the engine is to read, which it may do at
any later time. The last block is kept back, because only `final` knows that it
is the last one. The log is not in the source: it has every write to a block
and every descriptor put, with what the block held then, in their order.

Left out are the record the engine computes with, the copy of its state that an
export carries, and the freeing of the blocks.
-/
import Mathlib.Algebra.Group.Nat.Defs
import Mathlib.Data.List.Basic

namespace Airoha.Eip93

/-! ## Requests -/

/-- `SHA256_BLOCK_SIZE` -/
def blockSize : Nat := 64

/-- A descriptor of a hash request: the block, `EIP93_PE_LENGTH_LENGTH`, `EIP93_DESC_LAST`, whether
`sa_addr` is the record with `CMD_HMAC`, and `EIP93_PE_CTRL_PE_HASH_FINAL`. -/
structure HashDesc where
  block : Nat
  length : Nat
  last : Bool
  hmac : Bool
  final : Bool
  deriving DecidableEq

/-- Bytes are copied into a block, or a descriptor is put whose block holds `bytes`. -/
inductive HashEvent where
  | write (block : Nat)
  | put (d : HashDesc) (bytes : List (BitVec 8))
  deriving DecidableEq

/-- `struct eip93_hash_reqctx`, with `IS_HMAC(ctx->flags)`, the blocks that have been allocated, the
descriptors that have been put, and the log of both. -/
structure HashCtx where
  isHmac : Bool
  noFinalize : Bool
  len : Nat
  leftLast : Nat
  blocks : List Nat
  data : List (List (BitVec 8))
  sent : List HashDesc
  log : List HashEvent
  deriving DecidableEq

/-- What the engine reads for a descriptor. -/
def HashCtx.read (s : HashCtx) (d : HashDesc) : List (BitVec 8) :=
  (s.data.getD d.block []).take d.length

/-- The data of an `ahash_request`, as long as `nbytes` says. `kzalloc` and `mapped` tell which of
the calls in the loop succeed, `mappedFirst` the same for the block of an earlier update. From
2 GiB on `read` and `to_read`, which are an `int`, would be negative. -/
structure HashChunk where
  src : List (BitVec 8)
  nbytes : Nat
  kzalloc : Nat → Bool
  mapped : Nat → Bool
  mappedFirst : Bool
  enough : nbytes ≤ src.length
  fits : nbytes < 2 ^ 31

/-- What a chunk adds to the message. -/
def HashChunk.bytes (c : HashChunk) : List (BitVec 8) := c.src.take c.nbytes

/-- Bytes written into a block. -/
def copyIn (data : List (BitVec 8)) (off : Nat) (bytes : List (BitVec 8)) : List (BitVec 8) :=
  data.take off ++ bytes ++ data.drop (off + bytes.length)

/-- `list_first_entry(&rctx->blocks, struct mkt_hash_block, list)` -/
def HashCtx.first (s : HashCtx) : Nat := s.blocks.headD 0

/-- `eip93_hash_init`, where nothing fails. -/
def eip93HashInit (isHmac noFinalize : Bool) (ipad : List (BitVec 8)) : HashCtx where
  isHmac := isHmac
  noFinalize := noFinalize
  len := if isHmac then blockSize else 0
  leftLast := 0
  blocks := if isHmac then [0] else []
  data := if isHmac then [ipad] else []
  sent := []
  log := if isHmac then [.write 0] else []

/-- `eip93_send_hash_req` -/
def eip93SendHashReq (block length : Nat) (last : Bool) (s : HashCtx) : HashCtx :=
  let d : HashDesc :=
    { block := block, length := length, last := last, hmac := last && s.isHmac,
      final := last && !s.noFinalize }
  { s with
    sent := s.sent ++ [d]
    log := s.log ++ [.put d (s.read d)] }

/-- `eip93_hash_update`: the first block is filled; the number of bytes read. -/
def hashFill (c : HashChunk) (s : HashCtx) : Nat × HashCtx :=
  if 0 < s.leftLast then
    let read := min c.nbytes s.leftLast
    (read,
      { s with
        data := s.data.modify s.first fun data =>
          copyIn data (blockSize - s.leftLast) (c.src.take read)
        leftLast := s.leftLast - read
        log := s.log ++ [.write s.first] })
  else
    (0, s)

/-- A new block. -/
def hashBlock (bytes : List (BitVec 8)) (s : HashCtx) : HashCtx :=
  { s with
    data := s.data ++ [copyIn (List.replicate blockSize 0) 0 bytes]
    blocks := s.data.length :: s.blocks
    leftLast := blockSize - bytes.length
    log := s.log ++ [.write s.data.length] }

/-- The loop over the data that is left. -/
def hashLoop (c : HashChunk) (read toConsume i : Nat) (s : HashCtx) : Int × HashCtx :=
  if 0 < toConsume then
    if c.kzalloc i then
      let toRead := min toConsume blockSize
      let s1 := hashBlock ((c.src.drop read).take toRead) s
      if 0 < toConsume - toRead then
        if c.mapped i then
          hashLoop c (read + toRead) (toConsume - toRead) (i + 1)
            (eip93SendHashReq s.data.length blockSize false s1)
        else
          (-12, s1)
      else
        (0, s1)
    else
      (-12, s)
  else
    (0, s)
termination_by toConsume
decreasing_by
  simp only [blockSize]
  omega

/-- The rest of `eip93_hash_update`. -/
def hashConsume (c : HashChunk) (read : Nat) (s : HashCtx) : Int × HashCtx :=
  match hashLoop c read (c.nbytes - read) 0 s with
  | (0, s') => (0, { s' with len := s'.len + c.nbytes })
  | r => r

/-- `eip93_hash_update` -/
def eip93HashUpdate (c : HashChunk) (s : HashCtx) : Int × HashCtx :=
  if c.nbytes = 0 then
    (0, s)
  else if 0 < s.len then
    let r := hashFill c s
    if 0 < c.nbytes - r.1 then
      if c.mappedFirst then
        hashConsume c r.1 (eip93SendHashReq s.first blockSize false r.2)
      else
        (-12, r.2)
    else
      hashConsume c r.1 r.2
  else
    hashConsume c 0 s

/-- What `eip93_hash_final` does: it has the digest of the empty message, or has put the last
descriptor, or fails. -/
inductive HashFinal where
  | zeroMessage
  | inProgress (s : HashCtx)
  | error (ret : Int)

/-- `eip93_hash_final` -/
def eip93HashFinal (mapped : Bool) (s : HashCtx) : HashFinal :=
  if s.len = 0 ∧ s.isHmac = false then
    .zeroMessage
  else if mapped then
    .inProgress (eip93SendHashReq s.first (blockSize - s.leftLast) true s)
  else
    .error (-12)

/-- Updates that succeed. -/
def hashRun : HashCtx → List HashChunk → Option HashCtx
  | s, [] => some s
  | s, c :: cs =>
    if (eip93HashUpdate c s).1 = 0 then hashRun (eip93HashUpdate c s).2 cs else none

/-! ## The log -/

/-- The descriptors that have been put, each with what its block held then. -/
def putsOf (log : List HashEvent) : List (HashDesc × List (BitVec 8)) :=
  log.filterMap fun
    | .write _ => none
    | .put d bytes => some (d, bytes)

/-- No block is written behind a descriptor that names it. -/
def Untouched : List HashEvent → Prop
  | [] => True
  | .write _ :: log => Untouched log
  | .put d _ :: log => .write d.block ∉ log ∧ Untouched log

@[simp] theorem putsOf_append_write (log : List HashEvent) (block : Nat) :
    putsOf (log ++ [.write block]) = putsOf log := by
  rw [putsOf, List.filterMap_append]
  exact List.append_nil _

@[simp] theorem putsOf_append_put (log : List HashEvent) (d : HashDesc)
    (bytes : List (BitVec 8)) :
    putsOf (log ++ [.put d bytes]) = putsOf log ++ [(d, bytes)] := by
  rw [putsOf, List.filterMap_append]
  rfl

/-- A block that has not been handed over may be written. -/
theorem Untouched.write {log : List HashEvent} {block : Nat} (h : Untouched log)
    (hfresh : ∀ x ∈ putsOf log, x.1.block ≠ block) : Untouched (log ++ [.write block]) := by
  induction log with
  | nil => trivial
  | cons e log ih =>
    cases e with
    | write b => exact ih h hfresh
    | put d bytes =>
      have hd : d.block ≠ block := hfresh (d, bytes) List.mem_cons_self
      refine ⟨fun hmem => ?_, ih h.2 fun x hx => hfresh x (List.mem_cons_of_mem _ hx)⟩
      rcases List.mem_append.1 hmem with hmem | hmem
      · exact h.1 hmem
      · cases List.mem_singleton.1 hmem
        exact hd rfl

theorem Untouched.put {log : List HashEvent} (h : Untouched log) (d : HashDesc)
    (bytes : List (BitVec 8)) : Untouched (log ++ [.put d bytes]) := by
  induction log with
  | nil => exact ⟨List.not_mem_nil, trivial⟩
  | cons e log ih =>
    cases e with
    | write b => exact ih h
    | put d' bytes' =>
      refine ⟨fun hmem => ?_, ih h.2⟩
      rcases List.mem_append.1 hmem with hmem | hmem
      · exact h.1 hmem
      · cases List.mem_singleton.1 hmem

/-! ## What is kept -/

variable {s s' s'' : HashCtx} {c : HashChunk} {msg : List (BitVec 8)}
  {full : List (List (BitVec 8))} {cur : List (BitVec 8)}

/-- The descriptors of the first `n` blocks. -/
def bodyDescs (n : Nat) : List HashDesc :=
  (List.range n).map fun i =>
    { block := i, length := blockSize, last := false, hmac := false, final := false }

/-- The blocks that have been put hold what they held then, and nothing was written to them. -/
structure LogRight (s : HashCtx) : Prop where
  puts : putsOf s.log = s.sent.map fun d => (d, s.read d)
  untouched : Untouched s.log

/-- Every block is full, and has been put. -/
structure Closed (s : HashCtx) (msg : List (BitVec 8)) : Prop where
  lens : ∀ b ∈ s.data, b.length = blockSize
  blocks : s.blocks = (List.range s.data.length).reverse
  sent : s.sent = bodyDescs s.data.length
  log : LogRight s
  msg : msg = s.data.flatten

/-- The block in front is begun, and has not been put. -/
structure Open (s : HashCtx) (msg : List (BitVec 8)) (full : List (List (BitVec 8)))
    (cur : List (BitVec 8)) : Prop where
  data : s.data = full ++ [cur]
  lens : ∀ b ∈ full, b.length = blockSize
  cur_len : cur.length = blockSize
  blocks : s.blocks = (List.range s.data.length).reverse
  sent : s.sent = bodyDescs full.length
  log : LogRight s
  left : s.leftLast < blockSize
  msg : msg = full.flatten ++ cur.take (blockSize - s.leftLast)

/-- A block that no descriptor names is written, and no other. -/
theorem LogRight.write {block : Nat} (h : LogRight s) (hsent : s'.sent = s.sent)
    (hlog : s'.log = s.log ++ [.write block])
    (hfresh : ∀ d ∈ s.sent, d.block ≠ block ∧ s'.data[d.block]? = s.data[d.block]?) :
    LogRight s' where
  puts := by
    rw [hlog, putsOf_append_write, h.puts, hsent]
    refine List.map_congr_left fun d hd => ?_
    rw [HashCtx.read, HashCtx.read, List.getD_eq_getElem?_getD, List.getD_eq_getElem?_getD,
      (hfresh d hd).2]
  untouched := by
    rw [hlog]
    refine h.untouched.write fun x hx => ?_
    rw [h.puts] at hx
    obtain ⟨d, hd, rfl⟩ := List.mem_map.1 hx
    exact (hfresh d hd).1

theorem LogRight.put (h : LogRight s) (block length : Nat) (last : Bool) :
    LogRight (eip93SendHashReq block length last s) where
  puts := by
    rw [eip93SendHashReq, putsOf_append_put, h.puts, List.map_append]
    rfl
  untouched := h.untouched.put _ _

theorem mem_bodyDescs {n : Nat} {d : HashDesc} (h : d ∈ bodyDescs n) :
    d.block < n ∧ d.length = blockSize ∧ d.last = false := by
  obtain ⟨i, hi, rfl⟩ := List.mem_map.1 h
  exact ⟨List.mem_range.1 hi, rfl, rfl⟩

theorem bodyDescs_succ (n : Nat) : bodyDescs (n + 1) = bodyDescs n ++
    [{ block := n, length := blockSize, last := false, hmac := false, final := false }] := by
  rw [bodyDescs, List.range_succ, List.map_append]
  rfl

theorem Open.first (h : Open s msg full cur) : s.first = full.length := by
  have hl : s.data.length = full.length + 1 := by rw [h.data]; simp
  rw [HashCtx.first, h.blocks, hl, List.range_succ, List.reverse_append]
  rfl

/-- Bytes are written behind what the block has. -/
theorem copyIn_length {data bytes : List (BitVec 8)} {off : Nat}
    (h : off + bytes.length ≤ data.length) : (copyIn data off bytes).length = data.length := by
  simp only [copyIn, List.length_append, List.length_take, List.length_drop]
  omega

theorem copyIn_take {data : List (BitVec 8)} (bytes : List (BitVec 8)) {off : Nat}
    (h : off ≤ data.length) :
    (copyIn data off bytes).take (off + bytes.length) = data.take off ++ bytes := by
  have hl : (data.take off ++ bytes).length = off + bytes.length := by
    rw [List.length_append, List.length_take]
    omega
  rw [copyIn, ← hl, List.take_left']
  rfl

/-! ## The steps of an update -/

/-- A new block begins the rest of the message. -/
theorem Closed.open_block (h : Closed s msg) (bytes : List (BitVec 8)) (hpos : 0 < bytes.length)
    (hle : bytes.length ≤ blockSize) :
    Open (hashBlock bytes s) (msg ++ bytes) s.data
      (copyIn (List.replicate blockSize 0) 0 bytes) where
  data := rfl
  lens := h.lens
  cur_len := by
    rw [copyIn_length (by rw [List.length_replicate]; omega), List.length_replicate]
  blocks := by
    simp only [hashBlock, List.length_append, List.length_singleton, List.range_succ,
      List.reverse_append, ← h.blocks]
    rfl
  sent := h.sent
  log := by
    refine h.log.write rfl rfl fun d hd => ?_
    rw [h.sent] at hd
    have hb := (mem_bodyDescs hd).1
    exact ⟨Nat.ne_of_lt hb, List.getElem?_append_left hb⟩
  left := by simp only [hashBlock]; omega
  msg := by
    have ht := copyIn_take bytes (Nat.zero_le (List.replicate blockSize (0 : BitVec 8)).length)
    rw [Nat.zero_add] at ht
    simp only [hashBlock]
    rw [show blockSize - (blockSize - bytes.length) = bytes.length by omega, ht, h.msg]
    rfl

/-- The block in front is put once it is full. -/
theorem Open.close (h : Open s msg full cur) (hfull : s.leftLast = 0) :
    Closed (eip93SendHashReq full.length blockSize false s) msg where
  lens := by
    intro b hb
    simp only [eip93SendHashReq, h.data] at hb
    rcases List.mem_append.1 hb with hb | hb
    · exact h.lens b hb
    · rw [List.mem_singleton.1 hb]
      exact h.cur_len
  blocks := h.blocks
  sent := by
    simp only [eip93SendHashReq, h.sent, h.data, List.length_append, List.length_singleton,
      bodyDescs_succ]
    rfl
  log := h.log.put _ _ _
  msg := by
    simp only [eip93SendHashReq, h.data, List.flatten_append]
    rw [h.msg, hfull, Nat.sub_zero, List.take_of_length_le (Nat.le_of_eq h.cur_len)]
    simp

/-- What an update is to give, from a state in which `msg` has been taken. -/
structure Fed (s : HashCtx) (r : Int × HashCtx) (msg : List (BitVec 8)) : Prop where
  opened : ∃ full cur, Open r.2 msg full cur
  len : r.2.len = s.len
  hmac : r.2.isHmac = s.isHmac

/-- The loop, from blocks that are all full. -/
theorem hashLoop_fed (toConsume read i : Nat) (h : Closed s msg) (hpos : 0 < toConsume)
    (hle : read + toConsume ≤ c.src.length) (hret : (hashLoop c read toConsume i s).1 = 0) :
    Fed s (hashLoop c read toConsume i s) (msg ++ (c.src.drop read).take toConsume) := by
  induction toConsume using Nat.strongRecOn generalizing s read i msg with
  | _ toConsume ih =>
    rw [hashLoop, if_pos hpos] at hret ⊢
    cases hk : c.kzalloc i with
    | false => simp [hk] at hret
    | true =>
      simp only [hk, if_true] at hret ⊢
      have hlen : ((c.src.drop read).take (min toConsume blockSize)).length =
          min toConsume blockSize := by
        rw [List.length_take, List.length_drop]
        omega
      have hb : 0 < min toConsume blockSize := by simp only [blockSize]; omega
      have hopen := h.open_block ((c.src.drop read).take (min toConsume blockSize)) (by omega)
        (by omega)
      by_cases hmore : 0 < toConsume - min toConsume blockSize
      · simp only [hmore, if_true] at hret ⊢
        have hmin : min toConsume blockSize = blockSize := by omega
        cases hm : c.mapped i with
        | false => simp [hm] at hret
        | true =>
          simp only [hm, if_true] at hret ⊢
          have hfull : (hashBlock ((c.src.drop read).take (min toConsume blockSize)) s).leftLast
              = 0 := by
            show blockSize - ((c.src.drop read).take (min toConsume blockSize)).length = 0
            omega
          have hclosed := hopen.close hfull
          obtain ⟨ho, hn, hh⟩ := ih (toConsume - min toConsume blockSize) (by omega) _ _ hclosed
            hmore (by omega) hret
          refine ⟨?_, hn, hh⟩
          have hsplit : (c.src.drop read).take toConsume =
              (c.src.drop read).take (min toConsume blockSize) ++
                (c.src.drop (read + min toConsume blockSize)).take
                  (toConsume - min toConsume blockSize) := by
            rw [← List.drop_drop, ← List.take_add]
            congr 1
            omega
          rw [hsplit, ← List.append_assoc]
          exact ho
      · simp only [hmore, if_false] at hret ⊢
        have hmin : min toConsume blockSize = toConsume := by omega
        rw [hmin] at hopen ⊢
        exact ⟨⟨_, _, hopen⟩, rfl, rfl⟩

/-- Nothing is left. -/
theorem hashConsume_done {read : Nat} (h : c.nbytes - read = 0) :
    hashConsume c read s = (0, { s with len := s.len + c.nbytes }) := by
  have hloop : hashLoop c read (c.nbytes - read) 0 s = (0, s) := by
    rw [h, hashLoop, if_neg (Nat.lt_irrefl 0)]
  simp only [hashConsume, hloop]

/-- The rest of the data, behind a block that has been filled and put. -/
theorem hashConsume_fed {read : Nat} (h : Closed s msg) (hlt : read < c.nbytes)
    (hret : (hashConsume c read s).1 = 0) :
    ∃ r, Fed s r (msg ++ c.bytes.drop read) ∧
      (hashConsume c read s).2 = { r.2 with len := r.2.len + c.nbytes } := by
  have henough := c.enough
  rw [hashConsume] at hret ⊢
  have hfed := hashLoop_fed (c := c) (c.nbytes - read) read 0 h (by omega) (by omega)
  cases hr : hashLoop c read (c.nbytes - read) 0 s with
  | mk ret s1 =>
    rw [hr] at hfed hret
    have h0 : ret = 0 := by
      by_contra hne
      revert hret
      split
      · intro _
        exact hne (Prod.mk.inj ‹_ = _›).1
      · intro hret
        exact hne hret
    subst h0
    refine ⟨(0, s1), ?_, rfl⟩
    have hbytes : c.bytes.drop read = (c.src.drop read).take (c.nbytes - read) := by
      rw [HashChunk.bytes, List.drop_take]
    rw [hbytes]
    exact hfed rfl

theorem modify_last {α : Type} (xs : List α) (x : α) (f : α → α) :
    (xs ++ [x]).modify xs.length f = xs ++ [f x] := by
  induction xs with
  | nil => rfl
  | cons y ys ih => rw [List.cons_append, List.length_cons, List.modify_succ_cons, ih]; rfl

/-- The bytes that fill the block in front. -/
theorem hashFill_open (h : Open s msg full cur) :
    (hashFill c s).1 ≤ c.nbytes ∧
      (∃ cur', Open (hashFill c s).2 (msg ++ c.bytes.take (hashFill c s).1) full cur') ∧
      (hashFill c s).2.len = s.len ∧
      (hashFill c s).2.isHmac = s.isHmac ∧
      (hashFill c s).2.leftLast = s.leftLast - (hashFill c s).1 ∧
      ((hashFill c s).1 = c.nbytes ∨ (hashFill c s).2.leftLast = 0) := by
  have henough := c.enough
  have hleft := h.left
  rw [hashFill]
  by_cases hpos : 0 < s.leftLast
  · simp only [hpos, if_true]
    have hbytes : c.bytes.take (min c.nbytes s.leftLast) =
        c.src.take (min c.nbytes s.leftLast) := by
      rw [HashChunk.bytes, List.take_take]
      congr 1
      omega
    have hlen : (c.src.take (min c.nbytes s.leftLast)).length = min c.nbytes s.leftLast := by
      rw [List.length_take]
      omega
    have hcur := h.cur_len
    have hdata : s.data.modify s.first (fun data => copyIn data (blockSize - s.leftLast)
        (c.src.take (min c.nbytes s.leftLast))) =
        full ++ [copyIn cur (blockSize - s.leftLast) (c.src.take (min c.nbytes s.leftLast))] := by
      rw [h.first, h.data, modify_last]
    refine ⟨by omega,
      ⟨copyIn cur (blockSize - s.leftLast) (c.src.take (min c.nbytes s.leftLast)), ?_⟩, trivial,
      trivial, trivial, by omega⟩
    · exact
        { data := hdata
          lens := h.lens
          cur_len := by rw [copyIn_length (by omega), hcur]
          blocks := by simpa only [List.length_modify] using h.blocks
          sent := h.sent
          log := by
            refine h.log.write rfl rfl fun d hd => ?_
            rw [h.sent] at hd
            have hb := (mem_bodyDescs hd).1
            refine ⟨h.first ▸ Nat.ne_of_lt hb, ?_⟩
            simp only [hdata]
            rw [h.data, List.getElem?_append_left hb, List.getElem?_append_left hb]
          left := by simp only; omega
          msg := by
            have ht := copyIn_take (c.src.take (min c.nbytes s.leftLast))
              (show blockSize - s.leftLast ≤ cur.length by omega)
            rw [hlen] at ht
            simp only
            rw [show blockSize - (s.leftLast - min c.nbytes s.leftLast) =
              blockSize - s.leftLast + min c.nbytes s.leftLast by omega, ht, hbytes, h.msg,
              List.append_assoc] }
  · simp only [hpos, if_false]
    refine ⟨Nat.zero_le _, ⟨cur, ?_⟩, trivial, trivial, by omega, Or.inr (by omega)⟩
    rw [List.take_zero, List.append_nil]
    exact h

/-! ## Updates -/

/-- The request has taken `msg`. -/
structure Taken (s : HashCtx) (msg : List (BitVec 8)) : Prop where
  len : s.len = msg.length
  state : (msg = [] ∧ Closed s [] ∧ s.data = []) ∨ (msg ≠ [] ∧ ∃ full cur, Open s msg full cur)

theorem HashChunk.bytes_length (c : HashChunk) : c.bytes.length = c.nbytes := by
  rw [HashChunk.bytes, List.length_take]
  exact Nat.min_eq_left c.enough

/-- The end of an update: the counter. -/
theorem Fed.taken {r : Int × HashCtx} (h : Fed s r (msg ++ c.bytes)) (hlen : s.len = msg.length)
    (hpos : 0 < c.nbytes) : Taken { r.2 with len := r.2.len + c.nbytes } (msg ++ c.bytes) where
  len := by rw [List.length_append, c.bytes_length, ← hlen, ← h.len]
  state := by
    obtain ⟨full, cur, ho⟩ := h.opened
    refine Or.inr ⟨?_, full, cur,
      ⟨ho.data, ho.lens, ho.cur_len, ho.blocks, ho.sent, ⟨ho.log.puts, ho.log.untouched⟩, ho.left,
        ho.msg⟩⟩
    intro hnil
    have hl := congrArg List.length hnil
    rw [List.length_append, c.bytes_length, List.length_nil] at hl
    omega

theorem update_taken (h : Taken s msg) (hret : (eip93HashUpdate c s).1 = 0) :
    Taken (eip93HashUpdate c s).2 (msg ++ c.bytes) ∧
      (eip93HashUpdate c s).2.isHmac = s.isHmac := by
  have hbl := c.bytes_length
  rw [eip93HashUpdate] at hret ⊢
  by_cases h0 : c.nbytes = 0
  · rw [if_pos h0]
    have hnil : c.bytes = [] := List.eq_nil_of_length_eq_zero (by omega)
    rw [hnil, List.append_nil]
    exact ⟨h, rfl⟩
  · rw [if_neg h0] at hret ⊢
    obtain ⟨hlen, ⟨rfl, hclosed, hdata⟩ | ⟨hne, full, cur, hopen⟩⟩ := h
    · rw [if_neg (by rw [hlen]; simp)] at hret ⊢
      obtain ⟨r, hfed, hr⟩ := hashConsume_fed hclosed (show 0 < c.nbytes by omega) hret
      rw [List.drop_zero] at hfed
      rw [hr]
      exact ⟨hfed.taken hlen (by omega), hfed.hmac⟩
    · have hlpos : 0 < s.len := by
        rw [hlen]
        exact List.length_pos_iff.2 hne
      rw [if_pos hlpos] at hret ⊢
      obtain ⟨hle, ⟨cur', ho⟩, hl, hh, hleft, hdone⟩ := hashFill_open (c := c) hopen
      simp only at hret ⊢
      by_cases hmore : 0 < c.nbytes - (hashFill c s).1
      · rw [if_pos hmore] at hret ⊢
        cases hm : c.mappedFirst with
        | false => simp [hm] at hret
        | true =>
          simp only [hm, if_true] at hret ⊢
          have hfull : (hashFill c s).2.leftLast = 0 := by omega
          have hfirst : s.first = full.length := hopen.first
          rw [hfirst] at hret ⊢
          obtain ⟨r, hfed, hr⟩ := hashConsume_fed (ho.close hfull) (by omega) hret
          rw [List.append_assoc, List.take_append_drop] at hfed
          rw [hr]
          exact ⟨hfed.taken (hl.trans hlen) (by omega), hfed.hmac.trans hh⟩
      · rw [if_neg hmore] at hret ⊢
        have hall : (hashFill c s).1 = c.nbytes := by omega
        rw [hashConsume_done (by omega)]
        rw [hall, ← hbl, List.take_length] at ho
        have hfed : Fed s (0, (hashFill c s).2) (msg ++ c.bytes) :=
          ⟨⟨full, cur', ho⟩, hl, hh⟩
        exact ⟨hfed.taken hlen (by omega), hh⟩

theorem init_taken (isHmac noFinalize : Bool) {ipad : List (BitVec 8)}
    (hipad : ipad.length = blockSize) :
    Taken (eip93HashInit isHmac noFinalize ipad) (if isHmac then ipad else []) := by
  cases isHmac with
  | false =>
    exact ⟨rfl, Or.inl ⟨rfl, ⟨by simp [eip93HashInit], rfl, rfl, ⟨rfl, trivial⟩, rfl⟩, rfl⟩⟩
  | true =>
    refine ⟨hipad.symm, Or.inr ⟨?_, [], ipad, ?_⟩⟩
    · intro hnil
      simp only [if_true] at hnil
      rw [hnil] at hipad
      cases hipad
    · exact
        { data := rfl
          lens := by simp
          cur_len := hipad
          blocks := rfl
          sent := rfl
          log := ⟨rfl, trivial⟩
          left := by simp [eip93HashInit, blockSize]
          msg := by simp [eip93HashInit, ← hipad] }

/-- A run of updates takes the chunks in order. -/
theorem run_taken {cs : List HashChunk} (h : Taken s msg) (hr : hashRun s cs = some s') :
    Taken s' (msg ++ (cs.map HashChunk.bytes).flatten) ∧ s'.isHmac = s.isHmac := by
  induction cs generalizing s msg with
  | nil =>
    cases hr
    simpa using h
  | cons c cs ih =>
    rw [hashRun] at hr
    by_cases hret : (eip93HashUpdate c s).1 = 0
    · rw [if_pos hret] at hr
      obtain ⟨ht, hh⟩ := update_taken h hret
      obtain ⟨ht', hh'⟩ := ih ht hr
      rw [List.map_cons, List.flatten_cons, ← List.append_assoc]
      exact ⟨ht', hh'.trans hh⟩
    · rw [if_neg hret] at hr
      cases hr

/-! ## The message -/

/-- What the descriptors of the full blocks read. -/
theorem read_bodyDescs {full : List (List (BitVec 8))} (hdata : ∀ i, i < full.length →
    s.data[i]? = full[i]?) (hlens : ∀ b ∈ full, b.length = blockSize) :
    (bodyDescs full.length).map s.read = full := by
  refine List.ext_getElem? fun i => ?_
  rw [List.getElem?_map, bodyDescs, List.getElem?_map]
  rcases Nat.lt_or_ge i full.length with hi | hi
  · rw [List.getElem?_range hi, Option.map_some, Option.map_some, HashCtx.read,
      List.getD_eq_getElem?_getD, hdata i hi, List.getElem?_eq_getElem hi, Option.getD_some,
      List.take_of_length_le (Nat.le_of_eq (hlens _ (List.getElem_mem hi)))]
  · rw [List.getElem?_eq_none (by rw [List.length_range]; exact hi), List.getElem?_eq_none hi]
    rfl

/-- After the last descriptor what the engine reads is the message. -/
theorem final_reads (h : Open s msg full cur) :
    ∃ d, (eip93SendHashReq s.first (blockSize - s.leftLast) true s).sent =
        bodyDescs full.length ++ [d] ∧
      d.last = true ∧ d.block = s.first ∧ 0 < d.length ∧ d.length ≤ blockSize ∧
      ((bodyDescs full.length ++ [d]).map s.read).flatten = msg := by
  have hleft := h.left
  refine ⟨_, by rw [eip93SendHashReq, h.sent], rfl, rfl, by simp only; omega,
    Nat.sub_le _ _, ?_⟩
  have hfull : ∀ i, i < full.length → s.data[i]? = full[i]? := by
    intro i hi
    rw [h.data, List.getElem?_append_left hi]
  have hcur : s.data.getD s.first [] = cur := by
    rw [h.first, h.data, List.getD_eq_getElem?_getD, List.getElem?_append_right (Nat.le_refl _),
      Nat.sub_self]
    rfl
  rw [List.map_append, read_bodyDescs hfull h.lens, List.map_singleton, HashCtx.read, hcur,
    List.flatten_append, h.msg]
  simp

/-- A request has been put as a whole: every descriptor but the last one is for a full block, the
last one is marked, and each of them finds its bytes in its block; the engine reads `msg`, whenever
it does, for each block held the same when its descriptor was put and is not written behind it. -/
structure Sends (msg : List (BitVec 8)) (s : HashCtx) : Prop where
  sent : ∃ n d, s.sent = bodyDescs n ++ [d] ∧ d.last = true ∧ 0 < d.length ∧ d.length ≤ blockSize
  held : ∀ d ∈ s.sent, (s.read d).length = d.length
  reads : (s.sent.map s.read).flatten = msg
  log : LogRight s

/-- The last descriptor completes the message. -/
theorem Open.sends (h : Open s msg full cur) :
    Sends msg (eip93SendHashReq s.first (blockSize - s.leftLast) true s) := by
  obtain ⟨d, hsent, hlast, hblock, hpos, hle, hread⟩ := final_reads h
  refine ⟨⟨full.length, d, hsent, hlast, hpos, hle⟩, ?_, ?_, h.log.put _ _ _⟩
  · rw [hsent]
    intro e he
    have hget : ∀ b, s.data[e.block]? = some b → b.length = blockSize → e.length ≤ blockSize →
        ((eip93SendHashReq s.first (blockSize - s.leftLast) true s).read e).length = e.length := by
      intro b hb hlen hele
      have hdata : (eip93SendHashReq s.first (blockSize - s.leftLast) true s).data = s.data := rfl
      rw [HashCtx.read, hdata, List.getD_eq_getElem?_getD, hb, Option.getD_some, List.length_take,
        hlen]
      exact Nat.min_eq_left hele
    rcases List.mem_append.1 he with he | he
    · obtain ⟨hb, hlen, -⟩ := mem_bodyDescs he
      refine hget full[e.block] ?_ (h.lens _ (List.getElem_mem hb)) (Nat.le_of_eq hlen)
      rw [h.data, List.getElem?_append_left hb, List.getElem?_eq_getElem hb]
    · rw [List.mem_singleton.1 he] at hget ⊢
      refine hget cur ?_ h.cur_len hle
      rw [hblock, h.first, h.data, List.getElem?_append_right (Nat.le_refl _), Nat.sub_self]
      rfl
  · rw [hsent]
    exact hread

/-- A request whose updates succeed, in whatever pieces the data comes. Exactly the empty message
without a key is answered by its digest, and nothing has been put for it; any other request is put
as a whole, the message behind the block of the key. -/
theorem hash_message (isHmac noFinalize : Bool) {ipad : List (BitVec 8)}
    (hipad : ipad.length = blockSize) {cs : List HashChunk}
    (hr : hashRun (eip93HashInit isHmac noFinalize ipad) cs = some s) :
    (eip93HashFinal true s = .zeroMessage ↔
      isHmac = false ∧ (cs.map HashChunk.bytes).flatten = []) ∧
    (eip93HashFinal true s = .zeroMessage → s.sent = []) ∧
    (¬ (isHmac = false ∧ (cs.map HashChunk.bytes).flatten = []) →
      ∃ s', eip93HashFinal true s = .inProgress s' ∧
        Sends ((if isHmac then ipad else []) ++ (cs.map HashChunk.bytes).flatten) s') := by
  obtain ⟨ht, hh⟩ := run_taken (init_taken isHmac noFinalize hipad) hr
  have hh : s.isHmac = isHmac := hh
  -- a key is never empty
  have hempty : (if isHmac then ipad else []) ++ (cs.map HashChunk.bytes).flatten = [] ↔
      isHmac = false ∧ (cs.map HashChunk.bytes).flatten = [] := by
    rw [List.append_eq_nil_iff]
    cases isHmac with
    | false => simp
    | true =>
      have hne : ipad ≠ [] := by
        rintro rfl
        cases hipad
      simp [hne]
  have hlen0 : s.len = 0 ↔
      (if isHmac then ipad else []) ++ (cs.map HashChunk.bytes).flatten = [] := by
    rw [ht.len, List.length_eq_zero_iff]
  have hzero : eip93HashFinal true s = .zeroMessage ↔
      isHmac = false ∧ (cs.map HashChunk.bytes).flatten = [] := by
    unfold eip93HashFinal
    split
    · rename_i h
      exact ⟨fun _ => hempty.1 (hlen0.1 h.1), fun _ => rfl⟩
    · rename_i h
      rw [if_pos rfl]
      exact ⟨nofun, fun hmsg => absurd ⟨hlen0.2 (hempty.2 hmsg), hh.trans hmsg.1⟩ h⟩
  refine ⟨hzero, fun hfinal => ?_, fun hmsg => ?_⟩
  · have hnil := hempty.2 (hzero.1 hfinal)
    obtain ⟨-, hclosed, hdata⟩ | ⟨hne, -⟩ := ht.state
    · rw [hclosed.sent, hdata]
      rfl
    · exact absurd hnil hne
  · obtain ⟨hnil, -⟩ | ⟨hne, full, cur, hopen⟩ := ht.state
    · exact absurd (hempty.1 hnil) hmsg
    · refine ⟨_, ?_, hopen.sends⟩
      rw [eip93HashFinal, if_neg fun h => hmsg (hempty.1 (hlen0.1 h.1)), if_pos rfl]

theorem probeChunk_enough : 65 ≤ (List.replicate 65 (7 : BitVec 8)).length :=
  Nat.le_of_eq List.length_replicate.symm

theorem probeChunk_fits : 65 < 2 ^ 31 := by decide

/-- A block and a byte, with every allocation and mapping. -/
def probeChunk : HashChunk where
  src := List.replicate 65 7
  nbytes := 65
  kzalloc := fun _ => true
  mapped := fun _ => true
  mappedFirst := true
  enough := probeChunk_enough
  fits := probeChunk_fits

/-- The key, a block and a byte are put; without key and data there is nothing to put. -/
theorem hash_message_probe :
    (∃ s s', hashRun (eip93HashInit true false (List.replicate 64 1)) [probeChunk] = some s ∧
      eip93HashFinal true s = .inProgress s' ∧
      Sends (List.replicate 64 1 ++ List.replicate 65 7) s') ∧
    eip93HashFinal true (eip93HashInit false false (List.replicate 64 1)) = .zeroMessage := by
  have hlen : (List.replicate 64 (1 : BitVec 8)).length = blockSize := List.length_replicate
  have hret :
      (eip93HashUpdate probeChunk (eip93HashInit true false (List.replicate 64 1))).1 = 0 := by
    simp [eip93HashUpdate, eip93HashInit, hashFill, hashConsume, hashLoop, probeChunk, blockSize,
      eip93SendHashReq, hashBlock, HashCtx.first]
  have hrun : hashRun (eip93HashInit true false (List.replicate 64 1)) [probeChunk] =
      some (eip93HashUpdate probeChunk (eip93HashInit true false (List.replicate 64 1))).2 :=
    if_pos hret
  have hbytes : ([probeChunk].map HashChunk.bytes).flatten = List.replicate 65 7 := by
    simp [HashChunk.bytes, probeChunk]
  constructor
  · obtain ⟨s', hfinal, hsends⟩ := (hash_message true false hlen hrun).2.2 nofun
    rw [hbytes] at hsends
    exact ⟨_, s', hrun, hfinal, hsends⟩
  · have hnone : hashRun (eip93HashInit false false (List.replicate 64 1)) [] =
        some (eip93HashInit false false (List.replicate 64 1)) := rfl
    exact (hash_message false false hlen hnone).1.2 ⟨rfl, rfl⟩

end Airoha.Eip93
