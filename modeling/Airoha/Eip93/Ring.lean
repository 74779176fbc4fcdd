/-
Airoha.Eip93.Ring — the descriptor rings of the EIP-93 crypto engine.

Translates `eip93_set_ring`, `eip93_ring_next_wptr`, `eip93_ring_next_rptr`,
`eip93_put_descriptor`, `eip93_get_descriptor`, `eip93_desc_init` and the loop of
`eip93_handle_result_descriptor`. A put and a get hold different locks, so one of
each can be under way; each is cut into the accesses it makes to what the other
side or the engine sees, and the run takes them in any order. The engine is what
the registers describe: it takes a command for every one written to
`EIP93_REG_PE_CD_COUNT`, walks both rings from their bases, and raises
`EIP93_REG_PE_RD_COUNT`, before or after the result has reached the memory.

A ring is as large as `EIP93_RING_NUM`, its addresses are numbers of bytes. The
interrupt, which only schedules the handler, is left out: the handler may start
at any time it is not running. Its wait for a result to be ready is the step
`load`, which cannot be taken before.
-/
import Airoha.Lib.Ring

namespace Airoha.Eip93

open Airoha.Lib

/-! ## Descriptors -/

/-- `struct eip93_descriptor` -/
structure Descriptor where
  peCtrlStatWord : BitVec 32
  srcAddr : BitVec 32
  dstAddr : BitVec 32
  saAddr : BitVec 32
  stateAddr : BitVec 32
  arc4Addr : BitVec 32
  userId : BitVec 32
  peLengthWord : BitVec 32
  deriving DecidableEq

/-- `memset(desc, 0, sizeof(struct eip93_descriptor))` -/
def Descriptor.zero : Descriptor := ⟨0, 0, 0, 0, 0, 0, 0, 0⟩

/-- `EIP93_PE_CTRL_PE_READY` in `EIP93_PE_CTRL_PE_READY_DES_TRING_OWN` and
`EIP93_PE_LENGTH_PE_READY` in `EIP93_PE_LENGTH_HOST_PE_READY`: what the handler waits for. -/
def Descriptor.peReady (d : Descriptor) : Bool :=
  d.peCtrlStatWord.extractLsb' 0 2 == 2#2 && d.peLengthWord.extractLsb' 22 2 == 2#2

/-- `EIP93_PE_USER_ID_DESC_FLAGS` -/
def Descriptor.descFlags (d : Descriptor) : BitVec 16 := d.userId.extractLsb' 16 16

/-- `EIP93_PE_USER_ID_CRYPTO_IDR` -/
def Descriptor.cryptoIdr (d : Descriptor) : BitVec 16 := d.userId.extractLsb' 0 16

/-- `desc_flags & EIP93_DESC_LAST` -/
def Descriptor.last (d : Descriptor) : Bool := d.descFlags.getLsbD 3

theorem zero_not_peReady : Descriptor.zero.peReady = false := rfl

/-! ## One ring -/

/-- `EIP93_RING_NUM` -/
def ringNum : Nat := 512

/-- `struct eip93_desc_ring`, with the memory its addresses point to. -/
structure DescRing where
  base : Int
  baseEnd : Int
  read : Int
  write : Int
  offset : Int
  mem : Int → Descriptor

/-- `eip93_set_ring`, for a ring that has been allocated at `base`. -/
def eip93SetRing (base : Int) (mem : Int → Descriptor) : DescRing where
  base := base
  baseEnd := base + 32 * (ringNum - 1)
  read := base
  write := base
  offset := 32
  mem := mem

/-- `eip93_ring_next_wptr`; none for `ERR_PTR(-ENOMEM)`. -/
def eip93RingNextWptr (ring : DescRing) : Option (Int × DescRing) :=
  if ring.write = ring.read - ring.offset ∨
      (ring.read = ring.base ∧ ring.write = ring.baseEnd) then
    none
  else if ring.write = ring.baseEnd then
    some (ring.write, { ring with write := ring.base })
  else
    some (ring.write, { ring with write := ring.write + ring.offset })

/-- `eip93_ring_next_rptr`; none for `ERR_PTR(-ENOENT)`. -/
def eip93RingNextRptr (ring : DescRing) : Option (Int × DescRing) :=
  if ring.write = ring.read then
    none
  else if ring.read = ring.baseEnd then
    some (ring.read, { ring with read := ring.base })
  else
    some (ring.read, { ring with read := ring.read + ring.offset })

/-- A store to the memory of a ring. -/
def DescRing.store (ring : DescRing) (p : Int) (d : Descriptor) : DescRing :=
  { ring with mem := Function.update ring.mem p d }

/-! ## Who stands where -/

/-- How far the holder of `write_lock` is in `eip93_put_descriptor`. -/
inductive Writer where
  | idle
  | rdrTaken (rdesc : Int) (desc : Descriptor)
  | bothTaken (rdesc cdesc : Int) (desc : Descriptor)
  | cleared (cdesc : Int) (desc : Descriptor)
  | copied

/-- How far `eip93_handle_result_descriptor` is, with `left` and with what `eip93_get_descriptor`
has got. `more` is the label `get_more`, `loop` the head of the inner loop. -/
inductive Reader where
  | idle
  | more
  | loop (left : Nat)
  | cdrTaken (left : Nat) (cdesc : Int)
  | cleared (left : Nat)
  | rdrTaken (left : Nat) (rdesc : Int)
  | waiting (left : Nat) (rdesc : Int)
  | loaded (left : Nat) (rdesc : Descriptor)

/-- What the engine makes of a command: the result, and what it leaves in the command ring
(`EIP93_PE_CONFIG_EN_CDR_UPDATE`). -/
structure Engine where
  process : Descriptor → Descriptor
  release : Descriptor → Descriptor

/-- `struct eip93_ring`, the registers of the engine and where everybody stands. `kicks` are the
descriptors put whose count is still to be written. Of the engine: the commands it has fetched, the
results it has stored, those it has not, and the commands that `RD_COUNT` has not been raised for.
`accepted` and `taken` record what has been put and what the handler has read, `refused` the
descriptors that found no room. `torn` counts the puts and gets that had moved one ring and found
the other full or empty. -/
structure Sys where
  cdr : DescRing
  rdr : DescRing
  free : Int
  writer : Writer
  reader : Reader
  kicks : Nat
  cdCount : Nat
  rdCount : Nat
  fetched : Nat
  stored : Nat
  results : List Descriptor
  uncounted : Nat
  accepted : List Descriptor
  taken : List Descriptor
  refused : List Descriptor
  torn : Nat

/-- `eip93_desc_init`, for rings allocated at these addresses. -/
def eip93DescInit (cdrBase rdrBase : Int) (cmem rmem : Int → Descriptor) : Sys where
  cdr := eip93SetRing cdrBase cmem
  rdr := eip93SetRing rdrBase rmem
  free := ringNum - 1
  writer := .idle
  reader := .idle
  kicks := 0
  cdCount := 0
  rdCount := 0
  fetched := 0
  stored := 0
  results := []
  uncounted := 0
  accepted := []
  taken := []
  refused := []
  torn := 0

/-- Who moves. -/
inductive Act where
  | putRdr (desc : Descriptor)
  | putCdr
  | putClear
  | putCopy
  | putFree
  | kick
  | fetch
  | count
  | store
  | schedule
  | poll
  | getCdr
  | getClear
  | getRdr
  | getFree
  | load
  | ack

/-! ## Steps -/

/-- `eip93_put_descriptor`: an entry of the result ring. -/
def putRdr (desc : Descriptor) (s : Sys) : Option Sys :=
  match s.writer with
  | .idle =>
    match eip93RingNextWptr s.rdr with
    | none => some { s with refused := s.refused ++ [desc] }
    | some (rdesc, rdr) => some { s with rdr := rdr, writer := .rdrTaken rdesc desc }
  | _ => none

/-- An entry of the command ring. -/
def putCdr (s : Sys) : Option Sys :=
  match s.writer with
  | .rdrTaken rdesc desc =>
    match eip93RingNextWptr s.cdr with
    | none => some { s with writer := .idle, refused := s.refused ++ [desc], torn := s.torn + 1 }
    | some (cdesc, cdr) => some { s with cdr := cdr, writer := .bothTaken rdesc cdesc desc }
  | _ => none

/-- `memset(rdesc, 0, …)` -/
def putClear (s : Sys) : Option Sys :=
  match s.writer with
  | .bothTaken rdesc cdesc desc =>
    some { s with rdr := s.rdr.store rdesc .zero, writer := .cleared cdesc desc }
  | _ => none

/-- `memcpy(cdesc, desc, …)` -/
def putCopy (s : Sys) : Option Sys :=
  match s.writer with
  | .cleared cdesc desc =>
    some { s with
      cdr := s.cdr.store cdesc desc, writer := .copied, accepted := s.accepted ++ [desc] }
  | _ => none

/-- `atomic_dec(&mtk->ring->free)`, and the lock is free. -/
def putFree (s : Sys) : Option Sys :=
  match s.writer with
  | .copied => some { s with free := s.free - 1, writer := .idle, kicks := s.kicks + 1 }
  | _ => none

/-- `writel(1, mtk->base + EIP93_REG_PE_CD_COUNT)` -/
def kick (s : Sys) : Option Sys :=
  if 0 < s.kicks then some { s with kicks := s.kicks - 1, cdCount := s.cdCount + 1 } else none

/-- The address of an entry for the engine. -/
def engineSlot (ring : DescRing) (k : Nat) : Int := ring.base + 32 * (k % ringNum : Nat)

/-- The engine takes a command. -/
def fetch (pe : Engine) (s : Sys) : Option Sys :=
  if 0 < s.cdCount then
    let p := engineSlot s.cdr s.fetched
    let d := s.cdr.mem p
    some { s with
      cdr := s.cdr.store p (pe.release d)
      cdCount := s.cdCount - 1
      fetched := s.fetched + 1
      results := s.results ++ [pe.process d]
      uncounted := s.uncounted + 1 }
  else
    none

/-- The engine raises `EIP93_REG_PE_RD_COUNT`. -/
def count (s : Sys) : Option Sys :=
  if 0 < s.uncounted then
    some { s with uncounted := s.uncounted - 1, rdCount := s.rdCount + 1 }
  else
    none

/-- A result reaches the memory. -/
def store (s : Sys) : Option Sys :=
  match s.results with
  | [] => none
  | d :: results =>
    some { s with
      rdr := s.rdr.store (engineSlot s.rdr s.stored) d, stored := s.stored + 1
      results := results }

/-- `tasklet_schedule(&mtk->ring->done_task)` -/
def schedule (s : Sys) : Option Sys :=
  match s.reader with
  | .idle => some { s with reader := .more }
  | _ => none

/-- `left = readl(mtk->base + EIP93_REG_PE_RD_COUNT) & EIP93_PE_RD_COUNT` -/
def poll (s : Sys) : Option Sys :=
  match s.reader with
  | .more =>
    let left := s.rdCount % 2 ^ 11
    some { s with reader := if left = 0 then .idle else .loop left }
  | _ => none

/-- `while (left)`, and the entry of the command ring in `eip93_get_descriptor`. -/
def getCdr (s : Sys) : Option Sys :=
  match s.reader with
  | .loop left =>
    if left = 0 then
      some { s with reader := .more }
    else
      match eip93RingNextRptr s.cdr with
      | none => some { s with reader := .more, torn := s.torn + 1 }
      | some (cdesc, cdr) => some { s with cdr := cdr, reader := .cdrTaken left cdesc }
  | _ => none

/-- `memset(cdesc, 0, …)` -/
def getClear (s : Sys) : Option Sys :=
  match s.reader with
  | .cdrTaken left cdesc => some { s with cdr := s.cdr.store cdesc .zero, reader := .cleared left }
  | _ => none

/-- The entry of the result ring. -/
def getRdr (s : Sys) : Option Sys :=
  match s.reader with
  | .cleared left =>
    match eip93RingNextRptr s.rdr with
    | none => some { s with reader := .more, torn := s.torn + 1 }
    | some (rdesc, rdr) => some { s with rdr := rdr, reader := .rdrTaken left rdesc }
  | _ => none

/-- `atomic_inc(&mtk->ring->free)`, and the lock is free. -/
def getFree (s : Sys) : Option Sys :=
  match s.reader with
  | .rdrTaken left rdesc => some { s with free := s.free + 1, reader := .waiting left rdesc }
  | _ => none

/-- The handler has waited for the descriptor to be ready, and reads it. -/
def load (s : Sys) : Option Sys :=
  match s.reader with
  | .waiting left rdesc =>
    let d := s.rdr.mem rdesc
    if d.peReady then
      some { s with reader := .loaded left d, taken := s.taken ++ [d] }
    else
      none
  | _ => none

/-- `writel(1, mtk->base + EIP93_REG_PE_RD_COUNT)`; after the last descriptor of a request the
handler begins anew. -/
def ack (s : Sys) : Option Sys :=
  match s.reader with
  | .loaded left d =>
    some { s with
      rdCount := s.rdCount - 1, reader := if d.last then .more else .loop (left - 1) }
  | _ => none

/-- One step of the run; none where it is not this one's turn. -/
def step (pe : Engine) (s : Sys) : Act → Option Sys
  | .putRdr desc => putRdr desc s
  | .putCdr => putCdr s
  | .putClear => putClear s
  | .putCopy => putCopy s
  | .putFree => putFree s
  | .kick => kick s
  | .fetch => fetch pe s
  | .count => count s
  | .store => store s
  | .schedule => schedule s
  | .poll => poll s
  | .getCdr => getCdr s
  | .getClear => getClear s
  | .getRdr => getRdr s
  | .getFree => getFree s
  | .load => load s
  | .ack => ack s

/-- A run. -/
def run (pe : Engine) : Sys → List Act → Option Sys
  | s, [] => some s
  | s, a :: as => (step pe s a).bind fun s' => run pe s' as

/-! ## A ring whose cursors have come to entries `lo` and `hi` -/

/-- The slots of a ring. -/
def ringSlots (base : Int) : RingSlots Int where
  size := ringNum
  pos := Nat.succ_pos 511
  addr i := base + 32 * (i : Int)
  inj i j _ _ h := by omega

theorem ringSlots_size (base : Int) : (ringSlots base).size = 512 := rfl

theorem engineSlot_eq (ring : DescRing) (k : Nat) :
    engineSlot ring k = (ringSlots ring.base).slot k := rfl

/-- The cursors of the ring at `base` stand for entries `lo` and `hi` of its log. -/
structure DescRing.Tracks (ring : DescRing) (base : Int) (lo hi : Nat) : Prop where
  base_eq : ring.base = base
  baseEnd_eq : ring.baseEnd = base + 32 * 511
  offset_eq : ring.offset = 32
  read_eq : ring.read = (ringSlots base).slot lo
  write_eq : ring.write = (ringSlots base).slot hi

variable {ring : DescRing} {base : Int} {lo hi k : Nat}

theorem tracks_set (base : Int) (mem : Int → Descriptor) :
    (eip93SetRing base mem).Tracks base 0 0 where
  base_eq := rfl
  baseEnd_eq := rfl
  offset_eq := rfl
  read_eq := by simp [eip93SetRing, RingSlots.slot_zero, ringSlots]
  write_eq := by simp [eip93SetRing, RingSlots.slot_zero, ringSlots]

theorem DescRing.Tracks.store (h : ring.Tracks base lo hi) (p : Int) (d : Descriptor) :
    (ring.store p d).Tracks base lo hi :=
  ⟨h.base_eq, h.baseEnd_eq, h.offset_eq, h.read_eq, h.write_eq⟩

theorem slot_eq (base : Int) (k : Nat) :
    (ringSlots base).slot k = base + 32 * (k % 512 : Nat) := rfl

/-- The next slot, as the driver finds it. -/
theorem slot_next (base : Int) (k : Nat) :
    (ringSlots base).slot (k + 1) =
      if (ringSlots base).slot k = base + 32 * 511 then base
      else (ringSlots base).slot k + 32 := by
  by_cases h : k % (ringSlots base).size = (ringSlots base).size - 1
  · rw [RingSlots.slot_succ_of_last _ h]
    have hk : k % 512 = 511 := h
    have hend : base + 32 * ((511 : Nat) : Int) = base + 32 * 511 := rfl
    rw [slot_eq, hk, if_pos hend]
    simp [ringSlots]
  · have hk : ¬ k % 512 = 511 := h
    rw [RingSlots.slot_succ_of_not_last _ h, slot_eq, if_neg (by omega)]
    show base + 32 * ((k % 512 + 1 : Nat) : Int) = _
    omega

/-- The test for a full ring is whether the next slot is the one to be read. -/
theorem full_iff (base : Int) (lo hi : Nat) :
    ((ringSlots base).slot hi = (ringSlots base).slot lo - 32 ∨
      ((ringSlots base).slot lo = base ∧ (ringSlots base).slot hi = base + 32 * 511)) ↔
    (ringSlots base).slot (hi + 1) = (ringSlots base).slot lo := by
  rw [slot_next, slot_eq base hi, slot_eq base lo]
  have h1 : lo % 512 < 512 := Nat.mod_lt _ (by decide)
  have h2 : hi % 512 < 512 := Nat.mod_lt _ (by decide)
  split <;> omega

theorem eip93RingNextWptr_none (h : ring.Tracks base lo hi) (hfull : hi = lo + 511) :
    eip93RingNextWptr ring = none := by
  have hs : (ringSlots base).slot (hi + 1) = (ringSlots base).slot lo := by
    rw [hfull, slot_eq, slot_eq, Nat.add_assoc, Nat.add_mod_right]
  have hf := (full_iff base lo hi).2 hs
  rw [eip93RingNextWptr, h.write_eq, h.read_eq, h.offset_eq, h.base_eq, h.baseEnd_eq, if_pos hf]

theorem eip93RingNextWptr_some (h : ring.Tracks base lo hi) (hle : lo ≤ hi)
    (hroom : hi < lo + 511) :
    ∃ ring', eip93RingNextWptr ring = some ((ringSlots base).slot hi, ring') ∧
      ring'.Tracks base lo (hi + 1) ∧ ring'.mem = ring.mem := by
  have hne : ¬ (ringSlots base).slot (hi + 1) = (ringSlots base).slot lo :=
    RingSlots.slot_ne _ (by rw [ringSlots_size]; omega) (by rw [ringSlots_size]; omega) (by omega)
  have hf := fun hf => hne ((full_iff base lo hi).1 hf)
  have hnext := slot_next base hi
  rw [eip93RingNextWptr, h.write_eq, h.read_eq, h.offset_eq, h.base_eq, h.baseEnd_eq, if_neg hf]
  by_cases hend : (ringSlots base).slot hi = base + 32 * 511
  · rw [if_pos hend] at hnext ⊢
    exact ⟨_, rfl, ⟨rfl, rfl, rfl, rfl, hnext.symm⟩, rfl⟩
  · rw [if_neg hend] at hnext ⊢
    exact ⟨_, rfl, ⟨rfl, rfl, rfl, rfl, hnext.symm⟩, rfl⟩

theorem eip93RingNextRptr_some (h : ring.Tracks base lo hi) (hlt : lo < hi)
    (hroom : hi ≤ lo + 511) :
    ∃ ring', eip93RingNextRptr ring = some ((ringSlots base).slot lo, ring') ∧
      ring'.Tracks base (lo + 1) hi ∧ ring'.mem = ring.mem := by
  have hne : ¬ (ringSlots base).slot hi = (ringSlots base).slot lo :=
    RingSlots.slot_ne _ (by rw [ringSlots_size]; omega) (by rw [ringSlots_size]; omega) (by omega)
  have hnext := slot_next base lo
  rw [eip93RingNextRptr, h.write_eq, h.read_eq, h.offset_eq, h.base_eq, h.baseEnd_eq, if_neg hne]
  by_cases hend : (ringSlots base).slot lo = base + 32 * 511
  · rw [if_pos hend] at hnext ⊢
    exact ⟨_, rfl, ⟨rfl, rfl, rfl, hnext.symm, rfl⟩, rfl⟩
  · rw [if_neg hend] at hnext ⊢
    exact ⟨_, rfl, ⟨rfl, rfl, rfl, hnext.symm, rfl⟩, rfl⟩

end Airoha.Eip93
