/-
Airoha.Ppe.Shrink — the shrink table of the packet processing engine.

Translates `find_and_update_shrink_table`, `ppeSetShrinkField`,
`reuse_shrink_table`, `ppe_dump_shrink_table` and `UpdateShrinkTable` of
`arht_ppe.c`. A bound IPv6 or tunnel flow does not carry its source MAC or
tunnel addresses, only the number of one of sixteen slots that hold them,
one set of sixteen for each kind (`select`). A slot is kept while its bitmap
names a flow that is still bound, reclaimed when it has not been looked up
for `timeOutVal` ticks.

The bitmap is an array of 64-bit words, of which the loop of
`reuse_shrink_table` reads word `i` for the flows `32 * i` to `32 * i + 31`
while `test_bit` reads word `idx / 64`. Time is the 64-bit `jiffies`, which
wraps; a read of a FOE entry can fail. The engine has its own copy of the
contents, `Updmem`, behind a data and a command register.
-/
import Airoha.Lib.Bits
import Airoha.Lib.Scan

namespace Airoha.Ppe

open Airoha.Lib

/-! ## Slots -/

/-- `AIROHA_FOE_IB1_BIND_STATE` of a FOE entry. -/
inductive FoeState where
  | invalid
  | unbind
  | bind
  | fin
deriving DecidableEq, Repr

/-- `PPE_UPDMEM_SEL_SMAC`, `PPE_UPDMEM_SEL_IPv6` and `PPE_UPDMEM_SEL_IPv4`. -/
inductive Select where
  | smac
  | ipv6
  | ipv4
deriving DecidableEq, Repr

/-- The number of a kind. -/
def Select.code : Select → Nat
  | .smac => 0
  | .ipv6 => 1
  | .ipv4 => 2

/-- `UPDMEM_NUM` -/
def updmemNum : Nat := 16
/-- `BITMAP_IDX_SIZE` -/
def bitmapIdxSize : Nat := (16384 + 31) / 32
/-- `timeOutVal` as initialised, 30 s -/
def timeOutVal : BitVec 64 := 3000#64

/-- `smac`, `eg_ipv6` and `eg_ipv4`. -/
abbrev Content : Select → Type
  | .smac => Vector (BitVec 8) 6
  | .ipv6 => Vector (BitVec 32) 8
  | .ipv4 => Vector (BitVec 32) 2

instance (select : Select) : DecidableEq (Content select) :=
  match select with
  | .smac => inferInstanceAs (DecidableEq (Vector (BitVec 8) 6))
  | .ipv6 => inferInstanceAs (DecidableEq (Vector (BitVec 32) 8))
  | .ipv4 => inferInstanceAs (DecidableEq (Vector (BitVec 32) 2))

/-- What `struct hwnat_shrink_table` has for one `select`, whose content is an `α`. -/
structure Slot (α : Type) where
  valid : Bool
  pinned : Bool
  timestamp : BitVec 64
  bitmap : Nat → BitVec 64
  content : α

/-- `shnkTbl`, by kind and index. -/
abbrev Table := (select : Select) → Nat → Slot (Content select)

/-- `struct hwnat_shrink_field` -/
structure ShrinkField where
  smac : Vector (BitVec 8) 6
  egIpv4 : Vector (BitVec 32) 2
  egIpv6 : Vector (BitVec 32) 8
  foeIdx : Nat
deriving DecidableEq

/-- What `memcmp` and `memcpy` take of a field. -/
def ShrinkField.content (field : ShrinkField) : (select : Select) → Content select
  | .smac => field.smac
  | .ipv6 => field.egIpv6
  | .ipv4 => field.egIpv4

/-- `time_after(a, b)`: the signed difference is negative. -/
def timeAfter (a b : BitVec 64) : Bool := (b - a).msb

/-- `test_bit(idx, bitmap)` -/
def testBit (idx : Nat) (bitmap : Nat → BitVec 64) : Bool := (bitmap (idx / 64)).getLsbD (idx % 64)

/-- `set_bit(idx, bitmap)` -/
def setBit (idx : Nat) (bitmap : Nat → BitVec 64) : Nat → BitVec 64 :=
  Function.update bitmap (idx / 64) (bitmap (idx / 64) ||| bit 64 (idx % 64))

/-- `clear_bit(idx, bitmap)` -/
def clearBit (idx : Nat) (bitmap : Nat → BitVec 64) : Nat → BitVec 64 :=
  Function.update bitmap (idx / 64) (bitmap (idx / 64) &&& ~~~bit 64 (idx % 64))

/-- The test both reclaiming loops make. -/
def Slot.timedOut {α : Type} (e : Slot α) (jiffies : BitVec 64) : Bool :=
  !e.pinned && timeAfter jiffies (e.timestamp + timeOutVal)

/-! ## The engine's copy -/

/-- `REG_UPDMEM_DATA`, and the memory that `REG_UPDMEM_CTRL` writes it to, by the `SEL`, `ADDR`
and `OFST` fields of the command. -/
structure Updmem where
  data : BitVec 32
  mem : BitVec 32 → BitVec 32 → BitVec 32 → BitVec 32

/-- `ppeSetUpdMemData` -/
def ppeSetUpdMemData (macData : BitVec 32) (u : Updmem) : Updmem := { u with data := macData }

/-- The word `ppeSetUpdateMemCtrl` writes to `REG_UPDMEM_CTRL`. -/
def updmemCtrl (select addr offset : BitVec 32) : BitVec 32 :=
  1#32 ||| 2#32 ||| fieldPrep 8 4 addr ||| fieldPrep 4 4 offset ||| fieldPrep 2 2 select

/-- What the engine does with a command. -/
def Updmem.command (val : BitVec 32) (u : Updmem) : Updmem :=
  { u with
    mem := fun select addr offset =>
      if select = fieldGet 2 2 val ∧ addr = fieldGet 8 4 val ∧ offset = fieldGet 4 4 val then u.data
      else u.mem select addr offset }

/-- `ppeSetUpdateMemCtrl`. The wait for the acknowledgement changes nothing. -/
def ppeSetUpdateMemCtrl (select : Select) (addr offset : Nat) (u : Updmem) : Updmem :=
  u.command (updmemCtrl (BitVec.ofNat 32 select.code) (BitVec.ofNat 32 addr)
    (BitVec.ofNat 32 offset))

/-- One round of the loops of `ppeSetShrinkField`. -/
def setWord (select : Select) (index offset : Nat) (macData : BitVec 32) (u : Updmem) : Updmem :=
  ppeSetUpdateMemCtrl select index offset (ppeSetUpdMemData macData u)

instance macBytes_neZero : NeZero 6 := ⟨by decide⟩

/-- The words `ppeSetShrinkField` writes for a kind, each with its offset. -/
def shrinkWords : (select : Select) → Content select → List (Nat × BitVec 32)
  | .smac, smac =>
      [(0, (smac.get 2).setWidth 32 <<< 24 ||| (smac.get 3).setWidth 32 <<< 16 |||
          (smac.get 4).setWidth 32 <<< 8 ||| (smac.get 5).setWidth 32),
        (1, (smac.get 0).setWidth 32 <<< 8 ||| (smac.get 1).setWidth 32)]
  | .ipv4, egIpv4 => (List.finRange 2).map fun i => (i.val, egIpv4[i])
  | .ipv6, egIpv6 =>
      (List.finRange 8).map fun i => (if i.val ≤ 3 then 3 - i.val else 11 - i.val, egIpv6[i])

/-- `ppeSetShrinkField` -/
def ppeSetShrinkField (select : Select) (index : Nat) (field : ShrinkField) (u : Updmem) : Updmem :=
  (shrinkWords select (field.content select)).foldl (fun u w => setWord select index w.1 w.2 u) u

/-! ## `reuse_shrink_table` -/

/-- `airoha_ppe_foe_get_entry`, of which only the state is used; none for `NULL`, when the read
fails. -/
def foeGetEntry (fails : Nat → Bool) (foe : Nat → FoeState) (idx : Nat) : Option FoeState :=
  if fails idx then none else some (foe idx)

/-- The bitmap being looked at, and `need_reuse`. -/
structure Reuse where
  bitmap : Nat → BitVec 64
  needReuse : Bool

/-- One `idx`. `foe` is what `airoha_ppe_foe_get_entry` returns. -/
def reuseIdx (foe : Nat → Option FoeState) (idx : Nat) (r : Reuse) : Reuse :=
  if testBit idx r.bitmap then
    match foe idx with
    | some .bind => { r with needReuse := false }
    | some .unbind => { r with bitmap := clearBit idx r.bitmap }
    | _ => r
  else r

/-- The loop over `j`, from `j` on with `n` to go. -/
def reuseWord (maxEntries : Nat) (foe : Nat → Option FoeState) (i : Nat) :
    Nat → Nat → Reuse → Reuse
  | _, 0, r => r
  | j, n + 1, r =>
      if maxEntries ≤ i * 32 + j then r
      else reuseWord maxEntries foe i (j + 1) n (reuseIdx foe (i * 32 + j) r)

/-- The loop over `i`, from `i` on with `n` to go. -/
def reuseBitmap (maxEntries : Nat) (foe : Nat → Option FoeState) : Nat → Nat → Reuse → Reuse
  | _, 0, r => r
  | i, n + 1, r =>
      if r.bitmap i = 0#64 then reuseBitmap maxEntries foe (i + 1) n r
      else reuseBitmap maxEntries foe (i + 1) n (reuseWord maxEntries foe i 0 32 r)

/-- The body of `reuse_shrink_table` for one slot. -/
def Slot.reuse {α : Type} (maxEntries : Nat) (foe : Nat → Option FoeState) (jiffies : BitVec 64)
    (e : Slot α) : Slot α :=
  if e.timedOut jiffies then
    let r := reuseBitmap maxEntries foe 0 bitmapIdxSize { bitmap := e.bitmap, needReuse := true }
    { e with bitmap := r.bitmap, valid := if r.needReuse then false else e.valid }
  else e

/-- `reuse_shrink_table` -/
def reuseShrinkTable (maxEntries : Nat) (foe : Nat → Option FoeState) (jiffies : BitVec 64)
    (t : Table) : Table :=
  fun select index =>
    if index < updmemNum then (t select index).reuse maxEntries foe jiffies else t select index

/-! ## `find_and_update_shrink_table` -/

section Find

variable {α : Type}

/-- What the search has when it ends: the slots, the match, and `invldIdx`. -/
structure Search (α : Type) where
  row : Nat → Slot α
  found : Option Nat
  invldIdx : Nat

/-- A slot that the search passes is made invalid when it has timed out. -/
def Slot.expire (e : Slot α) (jiffies : BitVec 64) : Slot α :=
  if e.valid && e.timedOut jiffies then { e with valid := false } else e

/-- From `success:` on, for the slot that was found or written. -/
def Slot.use (maxEntries : Nat) (jiffies : BitVec 64) (foeIdx : Nat) (e : Slot α) : Slot α :=
  { e with
    valid := true
    bitmap := if 0 < foeIdx ∧ foeIdx < maxEntries then setBit foeIdx e.bitmap else e.bitmap
    timestamp := jiffies }

/-- The slots when `reuse_shrink_table` is called, the index that is returned (none for -1), and
whether its content was written. -/
structure Found (α : Type) where
  row : Nat → Slot α
  index : Option Nat
  wrote : Bool

variable [DecidableEq α]

/-- The search loop, from `index` on with `n` slots to go. -/
def searchLoop (jiffies : BitVec 64) (content : α) : Nat → Nat → Search α → Search α
  | _, 0, s => s
  | index, n + 1, s =>
      if (s.row index).valid && (s.row index).content == content then { s with found := some index }
      else
        let row := Function.update s.row index ((s.row index).expire jiffies)
        searchLoop jiffies content (index + 1) n
          { row := row
            found := none
            invldIdx :=
              if (row index).valid = false ∧ index < s.invldIdx then index else s.invldIdx }

/-- `find_and_update_shrink_table` up to `fail:`, for the slots of one kind. -/
def findRow (maxEntries : Nat) (jiffies : BitVec 64) (content : α) (foeIdx : Nat)
    (row : Nat → Slot α) : Found α :=
  let s := searchLoop jiffies content 0 updmemNum
    { row := row, found := none, invldIdx := updmemNum }
  match s.found with
  | some index =>
      { row := Function.update s.row index ((s.row index).use maxEntries jiffies foeIdx)
        index := some index
        wrote := false }
  | none =>
      if s.invldIdx = updmemNum then { row := s.row, index := none, wrote := false }
      else
        let e := { s.row s.invldIdx with content := content }
        { row := Function.update s.row s.invldIdx (e.use maxEntries jiffies foeIdx)
          index := some s.invldIdx
          wrote := true }

end Find

/-- The table and the engine's copy of the contents. -/
structure Shrink where
  shnkTbl : Table
  updmem : Updmem

/-- `find_and_update_shrink_table` -/
def findAndUpdateShrinkTable (maxEntries : Nat) (foe : Nat → Option FoeState) (jiffies : BitVec 64)
    (select : Select) (field : ShrinkField) (s : Shrink) : Shrink × Option Nat :=
  let r := findRow maxEntries jiffies (field.content select) field.foeIdx (s.shnkTbl select)
  ({ shnkTbl := reuseShrinkTable maxEntries foe jiffies (Function.update s.shnkTbl select r.row)
     updmem :=
       match r.wrote, r.index with
       | true, some index => ppeSetShrinkField select index field s.updmem
       | _, _ => s.updmem },
    r.index)

/-- `ppe_dump_shrink_table`, without what it prints. -/
def ppeDumpShrinkTable (maxEntries : Nat) (foe : Nat → Option FoeState) (jiffies : BitVec 64)
    (s : Shrink) : Shrink :=
  { s with shnkTbl := reuseShrinkTable maxEntries foe jiffies s.shnkTbl }

/-- `UpdateShrinkTable` -/
def updateShrinkTable (index : Int) (addr : Vector (BitVec 8) 6) (s : Shrink) : Shrink :=
  if 0 ≤ index ∧ index < updmemNum then
    let e := s.shnkTbl .smac index.toNat
    { s with
      shnkTbl := Function.update s.shnkTbl .smac (Function.update (s.shnkTbl .smac) index.toNat
        { e with content := addr, valid := true, pinned := true }) }
  else s

end Airoha.Ppe
