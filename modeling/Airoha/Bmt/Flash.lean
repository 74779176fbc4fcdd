/-
Airoha.Bmt.Flash — the NAND flash the bad-block manager works on.

A block is its data bytes and the four OOB bytes (`fdm`) of its first page.
The steps the manager makes are `FlashOp`: erasing a block, copying pages
and writing OOB bytes or a table. They come from `mtk_bmt`, which this
repository does not hold. What is assumed of it:

- a step is atomic: power is lost before it or after it;
- programming can only clear bits, so a write ands the new bytes onto the old
  ones and only an erase brings `0xff` back;
- `bbt_nand_copy` copies the data of whole pages and leaves the four OOB bytes
  of the target as they are (`FlashOp.result`);
- the chip is below 2 GiB, so that a byte address fits the `int` it is kept in
  and every block below `total_blks` can be reached (`FlashOp.apply`).

`FlashOp.oob_apply_of_ne` and `FlashOp.data_apply_of_ne` are the frame
lemmas (a step changes one block), the `@[simp]` lemmas after them say
what each step does to that block.
-/
import Mathlib
import Airoha.Bmt.Tables

namespace Airoha.Bmt

/-! ## Blocks -/

/-- `u8 fdm[4]`. -/
structure Oob where
  fdm0 : UInt8
  fdm1 : UInt8
  fdm2 : UInt8
  fdm3 : UInt8
  deriving DecidableEq, Repr

/-- The OOB bytes of an erased block. -/
def Oob.blank : Oob := ⟨0xff, 0xff, 0xff, 0xff⟩

def Oob.program (old new : Oob) : Oob :=
  ⟨old.fdm0 &&& new.fdm0, old.fdm1 &&& new.fdm1, old.fdm2 &&& new.fdm2, old.fdm3 &&& new.fdm3⟩

structure Blk where
  data : Nat → UInt8
  oob : Oob

abbrev Flash := Nat → Blk

theorem sizeofBmt_le_page : sizeofBmt ≤ 2048 := by decide

/-- What the manager is told about the chip (`struct bmt_desc`):
`total_blks` is a `u16` there, and a page holds either table. -/
structure Geometry where
  totalBlks : Nat
  pgSize : Nat
  eraseSize : Nat
  totalBlks_pos : 0 < totalBlks
  totalBlks_u16 : totalBlks ≤ 0xffff
  page_holds_table : sizeofBmt ≤ pgSize

/-- `bbt_nand_copy` copies whole pages as long as their offset is below
`max_offset`. -/
def Geometry.copied (g : Geometry) (maxOffset : Nat) : Nat :=
  (maxOffset + g.pgSize - 1) / g.pgSize * g.pgSize

theorem Geometry.sizeofBmt_le_copied (g : Geometry) {len : Nat} (h : 0 < len) :
    sizeofBmt ≤ g.copied len := by
  have hpg : 0 < g.pgSize := Nat.lt_of_lt_of_le (by decide) g.page_holds_table
  have hq : 1 ≤ (len + g.pgSize - 1) / g.pgSize :=
    (Nat.le_div_iff_mul_le hpg).mpr (by omega)
  calc sizeofBmt ≤ 1 * g.pgSize := by rw [Nat.one_mul]; exact g.page_holds_table
    _ ≤ g.copied len := Nat.mul_le_mul_right g.pgSize hq

/-! ## Flash steps -/

inductive FlashOp where
  /-- `bbt_nand_erase` -/
  | erase (blk : Nat)
  /-- `bbt_nand_copy` -/
  | copy (dst src maxOffset : Nat)
  /-- `_write_oob` of four OOB bytes and no data -/
  | writeFdm (blk : Nat) (fdm : Oob)
  /-- `_write_oob` of the object `bmt` and no OOB bytes -/
  | writeBmt (blk : Nat) (t : BmtTable)
  /-- `_write_oob` of the object `bbt` and no OOB bytes -/
  | writeBbt (blk : Nat) (t : BbtTable)

/-- The block a step changes. -/
def FlashOp.blk : FlashOp → Nat
  | .erase b => b
  | .copy dst _ _ => dst
  | .writeFdm b _ => b
  | .writeBmt b _ => b
  | .writeBbt b _ => b

def programData (old : Nat → UInt8) (len : Nat) (new : Nat → UInt8) : Nat → UInt8 :=
  fun o => if o < len then old o &&& new o else old o

/-- The changed block after the step. -/
def FlashOp.result (g : Geometry) (f : Flash) : FlashOp → Blk
  | .erase _ => ⟨fun _ => 0xff, Oob.blank⟩
  | .copy dst src len => ⟨programData (f dst).data (g.copied len) (f src).data, (f dst).oob⟩
  | .writeFdm b fdm => ⟨(f b).data, (f b).oob.program fdm⟩
  | .writeBmt b t => ⟨programData (f b).data sizeofBmt t.byte, (f b).oob⟩
  | .writeBbt b t => ⟨programData (f b).data sizeofBbt t.byte, (f b).oob⟩

/-- A step on an address outside the device changes nothing. -/
def FlashOp.apply (g : Geometry) (op : FlashOp) (f : Flash) : Flash :=
  if op.blk < g.totalBlks then Function.update f op.blk (op.result g f) else f

/-- The flash after a list of steps. -/
def applyAll (g : Geometry) (ops : List FlashOp) (f : Flash) : Flash :=
  ops.foldl (fun f op => op.apply g f) f

@[simp] theorem applyAll_nil (g : Geometry) (f : Flash) : applyAll g [] f = f := rfl

@[simp] theorem applyAll_cons (g : Geometry) (op : FlashOp) (ops : List FlashOp) (f : Flash) :
    applyAll g (op :: ops) f = applyAll g ops (op.apply g f) := rfl

theorem applyAll_append (g : Geometry) (as bs : List FlashOp) (f : Flash) :
    applyAll g (as ++ bs) f = applyAll g bs (applyAll g as f) := by
  simp [applyAll, List.foldl_append]

/-! ## What a step does -/

theorem and_ff (x : UInt8) : 0xff &&& x = x := by
  have h : (255 : UInt8) = -1 := rfl
  rw [h, UInt8.neg_one_and]

theorem FlashOp.apply_of_ne {g : Geometry} {op : FlashOp} {f : Flash} {b : Nat}
    (h : b ≠ op.blk) : op.apply g f b = f b := by
  unfold FlashOp.apply
  split
  · exact Function.update_of_ne h _ _
  · rfl

theorem FlashOp.apply_of_ge {g : Geometry} {op : FlashOp} {f : Flash}
    (h : g.totalBlks ≤ op.blk) : op.apply g f = f := by
  unfold FlashOp.apply
  rw [if_neg (by omega)]

theorem FlashOp.apply_self {g : Geometry} {f : Flash} (op : FlashOp)
    (h : op.blk < g.totalBlks) : op.apply g f op.blk = op.result g f := by
  unfold FlashOp.apply
  rw [if_pos h, Function.update_self]

theorem apply_erase {g : Geometry} {f : Flash} {b : Nat} (h : b < g.totalBlks) :
    (FlashOp.erase b).apply g f b = ⟨fun _ => 0xff, Oob.blank⟩ :=
  FlashOp.apply_self (.erase b) h

theorem apply_copy {g : Geometry} {f : Flash} {d s len : Nat} (h : d < g.totalBlks) :
    (FlashOp.copy d s len).apply g f d =
      ⟨programData (f d).data (g.copied len) (f s).data, (f d).oob⟩ :=
  FlashOp.apply_self (.copy d s len) h

theorem apply_writeFdm {g : Geometry} {f : Flash} {b : Nat} {fdm : Oob} (h : b < g.totalBlks) :
    (FlashOp.writeFdm b fdm).apply g f b = ⟨(f b).data, (f b).oob.program fdm⟩ :=
  FlashOp.apply_self (.writeFdm b fdm) h

theorem apply_writeBmt {g : Geometry} {f : Flash} {b : Nat} {t : BmtTable} (h : b < g.totalBlks) :
    (FlashOp.writeBmt b t).apply g f b =
      ⟨programData (f b).data sizeofBmt t.byte, (f b).oob⟩ :=
  FlashOp.apply_self (.writeBmt b t) h

theorem apply_writeBbt {g : Geometry} {f : Flash} {b : Nat} {t : BbtTable} (h : b < g.totalBlks) :
    (FlashOp.writeBbt b t).apply g f b =
      ⟨programData (f b).data sizeofBbt t.byte, (f b).oob⟩ :=
  FlashOp.apply_self (.writeBbt b t) h

/-- Steps that spare a block leave it as it was. -/
theorem applyAll_of_ne {g : Geometry} {b : Nat} : ∀ {ops : List FlashOp} {f : Flash},
    (∀ op ∈ ops, b ≠ op.blk) → applyAll g ops f b = f b
  | [], _, _ => rfl
  | op :: ops, f, h => by
      rw [applyAll_cons, applyAll_of_ne (fun o ho => h o (List.mem_cons_of_mem _ ho)),
        FlashOp.apply_of_ne (h op List.mem_cons_self)]

end Airoha.Bmt
