/-
Airoha.Bmt.Driver — the functions of `airoha_bmt.c`.

The driver's globals are `Ram`; `Machine` puts them next to the flash. Each
flash step is recorded in `Machine.log` together with the flash before
it: the flashes of the log are the states a power loss can leave behind.
`writeFails` decides which `_write_oob` calls fail (the n-th one is number
n), a failed write leaves the block as it was. Reads and erases succeed.

A function returns `Except Fault` where the C code can leave the behaviour
a model can describe: it stores past `table[249]`, it works on block
-1 because `find_available_block` found none, or (`system_blks == 0`, where
`i >= system_blks` is an unsigned comparison) it loops for ever.

Left out: the `debug` hook with `mark_good`, through which a user rewrites the
tables, `unmap_block`, which does nothing, and the module parameters.
-/
import Airoha.Bmt.Flash
import Airoha.Lib.Keyed
import Airoha.Lib.Scan

namespace Airoha.Bmt

open Airoha.Lib

inductive Fault where
  /-- a store past the end of `bmt.table` or `bbt.table` -/
  | tableOverflow
  /-- the tables would be put into block -1 -/
  | noPoolBlock
  /-- `reconstruct_from_oob` never leaves its first loop -/
  | noReturn
  deriving DecidableEq, Repr

/-! ## State -/

/-- The globals of `airoha_bmt.c`. `beyond` is the memory after `bmt`. -/
structure Ram where
  bbt : BbtTable
  bmt : BmtTable
  bmtIndex : Nat
  bbtIndex : Nat
  systemBlks : Nat
  bmtBlks : Nat
  mtdSize : Nat
  beyond : Nat → UInt8

/-- `bmt_index` and `bbt_index` before a block was chosen. -/
def noIndex : Nat := 0xffff

/-- The globals when the module is loaded. -/
def Ram.boot (beyond : Nat → UInt8) : Ram where
  bbt := BbtTable.zero
  bmt := BmtTable.zero
  bmtIndex := noIndex
  bbtIndex := noIndex
  systemBlks := 0
  bmtBlks := 0
  mtdSize := 0
  beyond := beyond

structure Machine where
  flash : Flash
  ram : Ram
  writeFails : Nat → Bool
  writes : Nat
  log : List (FlashOp × Flash)

/-- A flash step that cannot fail: erase and copy. -/
def Machine.step (g : Geometry) (op : FlashOp) (m : Machine) : Machine :=
  { m with flash := op.apply g m.flash, log := m.log ++ [(op, m.flash)] }

/-- `_write_oob`, with its success. -/
def Machine.writeOob (g : Geometry) (op : FlashOp) (m : Machine) : Machine × Bool :=
  if m.writeFails m.writes then
    ({ m with writes := m.writes + 1, log := m.log ++ [(op, m.flash)] }, false)
  else
    ({ m with flash := op.apply g m.flash, writes := m.writes + 1,
              log := m.log ++ [(op, m.flash)] }, true)

/-! ## Reading the OOB bytes -/

/-- `is_bad_raw` -/
def isBadRaw (f : Flash) (block : Nat) : Bool :=
  (f block).oob.fdm0 != 0xff

/-- `is_bad` -/
def isBad (f : Flash) (block : Nat) : Bool :=
  (f block).oob.fdm0 != 0xff || (f block).oob.fdm1 != 0xff

/-- `is_mapped` -/
def isMapped (f : Flash) (block : Nat) : Bool :=
  !((f block).oob.fdm2 == 0xff && (f block).oob.fdm3 == 0xff)

/-- `memcpy(&mapped_block, fdm + 2, 2)` -/
def mappedBlock (f : Flash) (block : Nat) : UInt16 :=
  join16 (f block).oob.fdm2 (f block).oob.fdm3

/-! ## Writing the OOB bytes -/

/-- The bytes `mark_bad` programs. -/
def badMark (systemBlks block : Nat) : Oob :=
  if block < systemBlks then ⟨0x00, 0xff, 0xff, 0xff⟩ else ⟨0xff, 0x00, 0xff, 0xff⟩

/-- `mark_bad` -/
def Machine.markBad (g : Geometry) (block : Nat) (m : Machine) : Machine :=
  (m.writeOob g (.writeFdm block (badMark m.ram.systemBlks block))).1

/-- The bytes `make_mapping` programs for the block number `target`. -/
def mappingMark (target : UInt16) : Oob := ⟨0xff, 0xff, lo16 target, hi16 target⟩

/-- `make_mapping` -/
def Machine.makeMapping (g : Geometry) (fromBlk : Nat) (target : UInt16) (m : Machine) :
    Machine :=
  (m.writeOob g (.writeFdm fromBlk (mappingMark target))).1

/-! ## The tables in RAM -/

/-- `bmt.table[bmt.header.size++] = e` -/
def BmtTable.push (t : BmtTable) (e : BmtEntry) : Except Fault BmtTable :=
  if t.size.toNat < maxBmtSize then
    .ok { t with table := t.table.set t.size.toNat e, size := t.size + 1,
                 table_length := by rw [List.length_set]; exact t.table_length }
  else .error .tableOverflow

/-- `bbt.table[bbt.header.size++] = b` -/
def BbtTable.push (t : BbtTable) (b : UInt16) : Except Fault BbtTable :=
  if t.size.toNat < maxRawBadBlockSize then
    .ok { t with table := t.table.set t.size.toNat b, size := t.size + 1,
                 table_length := by rw [List.length_set]; exact t.table_length }
  else .error .tableOverflow

/-- What the loops over `bmt.table` compare. -/
def BmtEntry.key (e : BmtEntry) : Nat := e.fromBlk.toNat

/-- The entry the loops over `bmt.table` stop at. -/
def BmtTable.find (t : BmtTable) (block : Nat) : Option BmtEntry :=
  lookup BmtEntry.key block t.live

/-- `is_in_bmt` -/
def BmtTable.isIn (t : BmtTable) (block : Nat) : Bool :=
  t.live.any (fun e => e.key == block)

/-- The first loop of `remap_block`: point the entry of `block` to
`newBlock`, or add one. -/
def BmtTable.remap (t : BmtTable) (block newBlock : UInt16) : Except Fault BmtTable :=
  match t.live.findIdx? (fun e => decide (e.key = block.toNat)) with
  | some i => .ok { t with table := t.table.set i ⟨block, newBlock⟩,
                           table_length := by rw [List.length_set]; exact t.table_length }
  | none => t.push ⟨block, newBlock⟩

/-- The second loop of `remap_block` and the two additions after it. The
loop stops at the first entry that is `mapped_block` or `block`. -/
def BbtTable.remap (t : BbtTable) (block mapped : UInt16) : Except Fault BbtTable := do
  let hit := t.live.find? (fun b => b == mapped || b == block)
  let mappedAlreadyInBbt := hit == some mapped
  let blockAlreadyInBbt := hit.isSome && !mappedAlreadyInBbt
  let t ← if mappedAlreadyInBbt then pure t else t.push mapped
  if mapped != block && !blockAlreadyInBbt then t.push block else pure t

/-! ## Geometry of the pool -/

/-- The loop of `variable_setup`: from `lastBlk` down to the block that
brings the number of good blocks to `need`, or to 0. -/
def lastBlk (bad : Nat → Bool) (need : Nat) : Nat → Nat → Nat
  | 0, _ => 0
  | l + 1, validBlks =>
      if bad (l + 1) then lastBlk bad need l validBlks
      else if validBlks + 1 = need then l + 1
      else lastBlk bad need l (validBlks + 1)

/-- `variable_setup`; `mtd->size` is computed in 32 bits. -/
def variableSetup (g : Geometry) (f : Flash) (ram : Ram) : Ram :=
  let needValidBlockNum := g.totalBlks * 8 / 100
  let last := lastBlk (isBadRaw f) needValidBlockNum (g.totalBlks - 1) 0
  { ram with
    bmtBlks := g.totalBlks - last
    systemBlks := g.totalBlks - (g.totalBlks - last)
    mtdSize := (g.totalBlks - g.totalBlks * 1 / 8) * g.eraseSize % 2 ^ 32 }

/-- What `find_available_block` accepts. -/
def available (f : Flash) (ram : Ram) (i : Nat) : Bool :=
  !(ram.bmtIndex == i || ram.bbtIndex == i || isBad f i || isMapped f i)

/-- `find_available_block`, with `none` for -1. -/
def findAvailableBlock (g : Geometry) (f : Flash) (ram : Ram) (startFromEnd : Bool) : Option Nat :=
  if startFromEnd then scanDown (available f ram) (g.totalBlks - 1) (g.totalBlks - ram.systemBlks)
  else scanUp (available f ram) ram.systemBlks (g.totalBlks - ram.systemBlks)

/-! ## Reading the tables back -/

/-- What `parse_bbt` accepts. -/
def bbtAt (f : Flash) (i : Nat) : Bool :=
  !isBad f i && (BbtTable.decode (f i).data).accepted

/-- The block `parse_bbt` stops at. -/
def parseBbt (g : Geometry) (f : Flash) (systemBlks : Nat) : Option Nat :=
  scanUp (bbtAt f) systemBlks (g.totalBlks - systemBlks)

/-- What `parse_bmt` accepts. -/
def bmtAt (beyond : Nat → UInt8) (bmtBlks : Nat) (f : Flash) (i : Nat) : Bool :=
  !isBad f i && (BmtTable.decode (f i).data).accepted beyond bmtBlks

/-- The block `parse_bmt` stops at; it never looks at `system_blks` itself. -/
def parseBmt (g : Geometry) (f : Flash) (ram : Ram) : Option Nat :=
  scanDown (bmtAt ram.beyond ram.bmtBlks f) (g.totalBlks - 1) (g.totalBlks - 1 - ram.systemBlks)

/-! ## Writing the tables -/

/-- `retry_bmt`: `n` is how far `bmt_index` is above `system_blks`. -/
def retryBmt (g : Geometry) : Nat → Machine → Machine × Bool
  | n, m =>
      let (m, ok) := m.writeOob g (.writeBmt m.ram.bmtIndex m.ram.bmt)
      if ok then (m, true)
      else
        let m := m.markBad g m.ram.bmtIndex
        match n with
        | 0 => (m, false)
        | n + 1 => retryBmt g n { m with ram := { m.ram with bmtIndex := m.ram.bmtIndex - 1 } }

/-- `retry_bbt`: `n` is how far `bbt_index` is below `total_blks`. -/
def retryBbt (g : Geometry) : Nat → Machine → Machine
  | n, m =>
      let (m, ok) := m.writeOob g (.writeBbt m.ram.bbtIndex m.ram.bbt)
      if ok then m
      else
        let m := m.markBad g m.ram.bbtIndex
        match n with
        | 0 => m
        | n + 1 => retryBbt g n { m with ram := { m.ram with bbtIndex := m.ram.bbtIndex + 1 } }

/-- `update_bmt_bbt` after the two indexes are chosen. -/
def writeTables (g : Geometry) (m : Machine) : Machine :=
  let m := m.step g (.erase m.ram.bmtIndex)
  let m := m.step g (.erase m.ram.bbtIndex)
  let (m, ok) := retryBmt g (m.ram.bmtIndex - m.ram.systemBlks) m
  if ok then retryBbt g (g.totalBlks - m.ram.bbtIndex) m else m

/-- The checksums `update_bmt_bbt` stores first. -/
def Ram.sealed (ram : Ram) : Ram :=
  { ram with
    bbt := { ram.bbt with checksum := ram.bbt.computeChecksum.toUInt32 }
    bmt := { ram.bmt with checksum := ram.bmt.computeChecksum ram.beyond ram.bmtBlks } }

/-- The choice of `bbt_index`, then of `bmt_index`. -/
def chooseIndexes (g : Geometry) (f : Flash) (ram : Ram) : Except Fault Ram := do
  let ram ← if ram.bbtIndex = noIndex then
      match findAvailableBlock g f ram false with
      | some i => pure { ram with bbtIndex := i }
      | none => throw Fault.noPoolBlock
    else pure ram
  if ram.bmtIndex = noIndex then
    match findAvailableBlock g f ram true with
    | some i => pure { ram with bmtIndex := i }
    | none => throw Fault.noPoolBlock
  else pure ram

/-- `update_bmt_bbt` -/
def updateBmtBbt (g : Geometry) (m : Machine) : Except Fault Machine := do
  let ram ← chooseIndexes g m.flash m.ram.sealed
  pure (writeTables g { m with ram := ram })

/-! ## Start-up -/

/-- The pool blocks in the order `reconstruct_from_oob` visits them. -/
def poolDown (g : Geometry) (systemBlks : Nat) : List Nat :=
  (List.range' systemBlks (g.totalBlks - systemBlks)).reverse

/-- The entry `reconstruct_from_oob` takes from pool block `i`. -/
def oobEntry (f : Flash) (systemBlks i : Nat) : Option BmtEntry :=
  if isBad f i then none
  else if systemBlks ≤ (mappedBlock f i).toNat then none
  else some ⟨mappedBlock f i, UInt16.ofNat i⟩

/-- The `bmt` `reconstruct_from_oob` builds. -/
def reconstructBmt (g : Geometry) (f : Flash) (systemBlks : Nat) : Except Fault BmtTable :=
  ((poolDown g systemBlks).filterMap (oobEntry f systemBlks)).foldlM BmtTable.push
    { BmtTable.zero with signature := bmtSignature, version := 1, size := 0 }

/-- The `bbt` `reconstruct_from_oob` builds. -/
def reconstructBbt (f : Flash) (systemBlks : Nat) (bmt : BmtTable) : Except Fault BbtTable :=
  ((List.range systemBlks).filter (fun i => isBadRaw f i && !bmt.isIn i)).foldlM
    (fun t i => t.push (UInt16.ofNat i))
    { BbtTable.zero with signature := bbtSignature, version := 1, size := 0 }

/-- `reconstruct_from_oob` -/
def reconstructFromOob (g : Geometry) (m : Machine) : Except Fault Machine := do
  if m.ram.systemBlks = 0 then throw Fault.noReturn
  let bmt ← reconstructBmt g m.flash m.ram.systemBlks
  let bbt ← reconstructBbt m.flash m.ram.systemBlks bmt
  updateBmtBbt g { m with ram := { m.ram with bmt := bmt, bbt := bbt } }

/-- `init`, on a machine that was just powered up. `parse_bbt` stores
`bbt_index` even when `parse_bmt` then fails. -/
def init (g : Geometry) (m : Machine) : Except Fault Machine :=
  let ram := variableSetup g m.flash m.ram
  match parseBbt g m.flash ram.systemBlks with
  | none => reconstructFromOob g { m with ram := ram }
  | some i =>
      let ram := { ram with bbt := BbtTable.decode (m.flash i).data, bbtIndex := i }
      match parseBmt g m.flash ram with
      | none => reconstructFromOob g { m with ram := ram }
      | some j => .ok { m with
          ram := { ram with bmt := BmtTable.decode (m.flash j).data, bmtIndex := j } }

/-! ## Mapping and remapping -/

/-- `get_mapping_block` -/
def getMappingBlock (ram : Ram) (block : Nat) : Nat :=
  if ram.systemBlks < block then block
  else
    match ram.bmt.find block with
    | some e => e.toBlk.toNat
    | none => block

/-- `u16 new_block = find_available_block(false)` -/
def newBlock (g : Geometry) (f : Flash) (ram : Ram) : Nat :=
  (findAvailableBlock g f ram false).getD 0xffff

/-- `remap_block`; `block` and `mapped` are `u16` values. -/
def remapBlock (g : Geometry) (block mapped copyLen : Nat) (m : Machine) :
    Except Fault Machine := do
  let new := newBlock g m.flash m.ram
  let m := m.step g (.erase new)
  let m := if copyLen ≠ 0 then m.step g (.copy new mapped copyLen) else m
  let bmt ← m.ram.bmt.remap (UInt16.ofNat block) (UInt16.ofNat new)
  let bbt ← m.ram.bbt.remap (UInt16.ofNat block) (UInt16.ofNat mapped)
  let m := { m with ram := { m.ram with bmt := bmt, bbt := bbt } }
  let m := if mapped ≠ block then m.markBad g mapped else m
  let m := m.markBad g block
  let m := m.makeMapping g new (UInt16.ofNat block)
  updateBmtBbt g m

end Airoha.Bmt
