/-
Airoha.Bmt.Oob — what flash steps do to the OOB bytes, as the driver reads them.

The driver reads the OOB bytes through four functions: `isBad`, `isBadRaw`,
`isMapped` and `mappedBlock`. Most steps leave them all alone
(`SameOob`): copying and writing a table touch no OOB byte, and every
erase of the driver hits a block whose bytes are blank already
(`sameOob_applyAll`). The other steps are the three marks of
`remap_block`. `isBad_markBad` and its neighbours say how one mark changes
each reading, `MarksView` puts the three together.
-/
import Airoha.Bmt.Spec

namespace Airoha.Bmt

open Airoha.Lib

variable {g : Geometry} {f f' f'' : Flash}

/-! ## Readings -/

theorem isMapped_eq (f : Flash) (b : Nat) : isMapped f b = !(mappedBlock f b == 0xffff) := by
  unfold isMapped mappedBlock
  congr 1
  rw [Bool.eq_iff_iff]
  simp only [Bool.and_eq_true, beq_iff_eq]
  exact join16_eq_ffff.symm

theorem isMapped_of_mappedBlock {b : Nat} {x : UInt16} (h : mappedBlock f b = x)
    (hx : x.toNat < 0xffff) : isMapped f b = true := by
  rw [isMapped_eq, h]
  have hne : x ≠ 0xffff := by
    rintro rfl
    exact absurd hx (by decide)
  simp [hne]

/-- Neither bad nor mapped. -/
def free (f : Flash) (b : Nat) : Bool := !isBad f b && !isMapped f b

theorem free_iff {b : Nat} : free f b = true ↔ isBad f b = false ∧ isMapped f b = false := by
  simp [free]

/-- A free block is one whose OOB bytes are erased. -/
theorem free_iff_blank {b : Nat} : free f b = true ↔ (f b).oob = Oob.blank := by
  rw [free_iff]
  unfold isBad isMapped Oob.blank
  generalize (f b).oob = o
  cases o
  simp only [Bool.or_eq_false_iff, bne_eq_false_iff_eq, Bool.not_eq_false', Bool.and_eq_true,
    beq_iff_eq, Oob.mk.injEq]
  tauto

theorem available_iff {ram : Ram} {i : Nat} :
    available f ram i = true ↔ free f i = true ∧ i ≠ ram.bmtIndex ∧ i ≠ ram.bbtIndex := by
  rw [free_iff]
  simp only [available, Bool.not_or, Bool.and_eq_true, Bool.not_eq_true', beq_eq_false_iff_ne,
    ne_eq, eq_comm (a := i)]
  tauto

/-! ## Steps that leave the OOB bytes alone -/

def SameOob (f f' : Flash) : Prop := ∀ b, (f' b).oob = (f b).oob

theorem SameOob.refl (f : Flash) : SameOob f f := fun _ => rfl

theorem SameOob.trans (h : SameOob f f') (h' : SameOob f' f'') : SameOob f f'' :=
  fun b => (h' b).trans (h b)

theorem SameOob.isBad (h : SameOob f f') (b : Nat) : isBad f' b = isBad f b := by
  unfold Bmt.isBad
  rw [h b]

theorem SameOob.isBadRaw (h : SameOob f f') (b : Nat) : isBadRaw f' b = isBadRaw f b := by
  unfold Bmt.isBadRaw
  rw [h b]

theorem SameOob.isMapped (h : SameOob f f') (b : Nat) : isMapped f' b = isMapped f b := by
  unfold Bmt.isMapped
  rw [h b]

theorem SameOob.mappedBlock (h : SameOob f f') (b : Nat) : mappedBlock f' b = mappedBlock f b := by
  unfold Bmt.mappedBlock
  rw [h b]

theorem SameOob.free (h : SameOob f f') (b : Nat) : free f' b = free f b := by
  unfold Bmt.free
  rw [h.isBad, h.isMapped]

/-- Steps that cannot change an OOB byte. -/
def FlashOp.SparesOob (f : Flash) : FlashOp → Prop
  | .erase b => (f b).oob = Oob.blank
  | .writeFdm _ _ => False
  | _ => True

theorem FlashOp.SparesOob.sameOob {op : FlashOp} (h : op.SparesOob f) :
    SameOob f (op.apply g f) := by
  intro b
  by_cases hb : b = op.blk
  · subst hb
    by_cases hlt : op.blk < g.totalBlks
    · rw [FlashOp.apply_self op hlt]
      cases op with
      | erase b => exact h.symm
      | copy d s len => rfl
      | writeFdm b fdm => exact absurd h id
      | writeBmt b t => rfl
      | writeBbt b t => rfl
    · rw [FlashOp.apply_of_ge (by omega)]
  · rw [FlashOp.apply_of_ne hb]

theorem FlashOp.SparesOob.congr {op : FlashOp} (h : op.SparesOob f) (hs : SameOob f f') :
    op.SparesOob f' := by
  cases op with
  | erase b => exact (hs b).trans h
  | copy d s len => exact trivial
  | writeFdm b fdm => exact absurd h id
  | writeBmt b t => exact trivial
  | writeBbt b t => exact trivial

theorem sameOob_applyAll {ops : List FlashOp} (h : ∀ op ∈ ops, op.SparesOob f) :
    SameOob f (applyAll g ops f) := by
  induction ops generalizing f with
  | nil => exact SameOob.refl f
  | cons op ops ih =>
    have h1 : SameOob f (op.apply g f) := (h op List.mem_cons_self).sameOob
    have h2 := ih (f := op.apply g f) fun o ho => (h o (List.mem_cons_of_mem _ ho)).congr h1
    exact h1.trans h2

/-- Preparing a free block changes no OOB byte. -/
theorem sparesOob_prepareOps {new : Nat} (h : free f new = true) (mapped copyLen : Nat) :
    ∀ op ∈ prepareOps new mapped copyLen, op.SparesOob f := by
  intro op hop
  unfold prepareOps at hop
  rcases List.mem_cons.mp hop with rfl | hop
  · exact free_iff_blank.mp h
  · split at hop
    · rw [List.mem_singleton.mp hop]
      exact trivial
    · cases hop

/-- Writing the tables to free blocks changes no OOB byte. -/
theorem sparesOob_tableOps {ram : Ram} (h1 : free f ram.bmtIndex = true)
    (h2 : free f ram.bbtIndex = true) : ∀ op ∈ tableOps ram, op.SparesOob f := by
  intro op hop
  simp only [tableOps, List.mem_cons, List.not_mem_nil, or_false] at hop
  rcases hop with rfl | rfl | rfl | rfl
  · exact free_iff_blank.mp h1
  · exact free_iff_blank.mp h2
  · exact trivial
  · exact trivial

/-! ## The marks of `remap_block` -/

theorem oob_writeFdm {b : Nat} {fdm : Oob} (hb : b < g.totalBlks) (x : Nat) :
    ((FlashOp.writeFdm b fdm).apply g f x).oob =
      if x = b then (f b).oob.program fdm else (f x).oob := by
  by_cases hx : x = b
  · subst hx
    rw [apply_writeFdm hb, if_pos rfl]
  · have hne : x ≠ (FlashOp.writeFdm b fdm).blk := hx
    rw [if_neg hx, FlashOp.apply_of_ne hne]

section MarkBad

variable {b sys : Nat}

theorem isBad_markBad (hb : b < g.totalBlks) (x : Nat) :
    isBad ((FlashOp.writeFdm b (badMark sys b)).apply g f) x = (isBad f x || x == b) := by
  unfold isBad
  rw [oob_writeFdm hb]
  by_cases hx : x = b
  · subst hx
    have h0 : ∀ y : UInt8, y &&& 0 = 0 := fun y => UInt8.and_zero
    unfold badMark Oob.program
    by_cases hs : x < sys <;> simp [hs, h0]
  · simp [hx]

theorem isBadRaw_markBad (hb : b < g.totalBlks) (x : Nat) :
    isBadRaw ((FlashOp.writeFdm b (badMark sys b)).apply g f) x =
      (isBadRaw f x || (x == b && decide (b < sys))) := by
  unfold isBadRaw
  rw [oob_writeFdm hb]
  by_cases hx : x = b
  · subst hx
    have h1 : ∀ y : UInt8, y &&& 0xff = y := fun y => by rw [UInt8.and_comm, and_ff]
    unfold badMark Oob.program
    by_cases hs : x < sys <;> simp [hs, h1]
  · simp [hx]

theorem mappedBlock_markBad (hb : b < g.totalBlks) (x : Nat) :
    mappedBlock ((FlashOp.writeFdm b (badMark sys b)).apply g f) x = mappedBlock f x := by
  unfold mappedBlock
  rw [oob_writeFdm hb]
  by_cases hx : x = b
  · subst hx
    have h1 : ∀ y : UInt8, y &&& 0xff = y := fun y => by rw [UInt8.and_comm, and_ff]
    unfold badMark Oob.program
    by_cases hs : x < sys <;> simp [hs, h1]
  · simp [hx]

end MarkBad

section MakeMapping

variable {n : Nat} {t : UInt16}

theorem isBad_makeMapping (hn : n < g.totalBlks) (x : Nat) :
    isBad ((FlashOp.writeFdm n (mappingMark t)).apply g f) x = isBad f x := by
  unfold isBad
  rw [oob_writeFdm hn]
  by_cases hx : x = n
  · subst hx
    have h1 : ∀ y : UInt8, y &&& 0xff = y := fun y => by rw [UInt8.and_comm, and_ff]
    simp [mappingMark, Oob.program, h1]
  · simp [hx]

theorem isBadRaw_makeMapping (hn : n < g.totalBlks) (x : Nat) :
    isBadRaw ((FlashOp.writeFdm n (mappingMark t)).apply g f) x = isBadRaw f x := by
  unfold isBadRaw
  rw [oob_writeFdm hn]
  by_cases hx : x = n
  · subst hx
    have h1 : ∀ y : UInt8, y &&& 0xff = y := fun y => by rw [UInt8.and_comm, and_ff]
    simp [mappingMark, Oob.program, h1]
  · simp [hx]

/-- The mapping bytes come out as written, the block being blank before. -/
theorem mappedBlock_makeMapping (hn : n < g.totalBlks) (hfree : free f n = true) (x : Nat) :
    mappedBlock ((FlashOp.writeFdm n (mappingMark t)).apply g f) x =
      if x = n then t else mappedBlock f x := by
  unfold mappedBlock
  rw [oob_writeFdm hn]
  by_cases hx : x = n
  · subst hx
    rw [if_pos rfl, free_iff_blank.mp hfree]
    simp [mappingMark, Oob.program, Oob.blank, and_ff]
  · simp [hx]

end MakeMapping

/-- How the OOB bytes of `f'` read after `remap_block` marked `mapped` and
`block` bad in `f` and mapped `new` to `block`. -/
structure MarksView (new block mapped : Nat) (f f' : Flash) : Prop where
  bad : ∀ x, isBad f' x = (isBad f x || x == mapped || x == block)
  raw : ∀ x, isBadRaw f' x = (isBadRaw f x || x == block)
  back : ∀ x, mappedBlock f' x = if x = new then UInt16.ofNat block else mappedBlock f x

theorem MarksView.congr {new block mapped : Nat} {f1 f2 : Flash}
    (h : MarksView new block mapped f f') (h1 : SameOob f1 f) (h2 : SameOob f' f2) :
    MarksView new block mapped f1 f2 where
  bad x := by rw [h2.isBad, h.bad, h1.isBad]
  raw x := by rw [h2.isBadRaw, h.raw, h1.isBadRaw]
  back x := by rw [h2.mappedBlock, h.back, h1.mappedBlock]

/-- `mark_bad(mapped)`, skipped when nothing was mapped yet. -/
def markMapped (sys block mapped : Nat) : List FlashOp :=
  if mapped ≠ block then [.writeFdm mapped (badMark sys mapped)] else []

theorem markOps_eq (sys new block mapped : Nat) :
    markOps sys new block mapped = markMapped sys block mapped ++
      [.writeFdm block (badMark sys block), .writeFdm new (mappingMark (UInt16.ofNat block))] := rfl

theorem badMarkView {sys block mapped : Nat}
    (hm : mapped ≠ block → sys ≤ mapped ∧ mapped < g.totalBlks) (x : Nat) :
    isBad (applyAll g (markMapped sys block mapped) f) x =
        (isBad f x || (x == mapped && mapped != block)) ∧
      isBadRaw (applyAll g (markMapped sys block mapped) f) x = isBadRaw f x ∧
      mappedBlock (applyAll g (markMapped sys block mapped) f) x = mappedBlock f x := by
  unfold markMapped
  by_cases hne : mapped = block
  · subst hne
    rw [if_neg (by simp)]
    exact ⟨by simp, rfl, rfl⟩
  · obtain ⟨h1, h2⟩ := hm hne
    have hs : ¬ mapped < sys := by omega
    have hne' : (mapped != block) = true := bne_iff_ne.mpr hne
    rw [if_pos hne]
    refine ⟨?_, ?_, ?_⟩
    · simp [isBad_markBad h2, hne']
    · simp [isBadRaw_markBad h2, hs]
    · simp [mappedBlock_markBad h2]

theorem marksView_markOps {sys new block mapped : Nat} (hblock : block < g.totalBlks)
    (hsys : block < sys) (hm : mapped ≠ block → sys ≤ mapped ∧ mapped < g.totalBlks)
    (hnew : new < g.totalBlks) (hfree : free f new = true) (hne : new ≠ mapped)
    (hne' : new ≠ block) :
    MarksView new block mapped f (applyAll g (markOps sys new block mapped) f) := by
  have hview := badMarkView (f := f) hm
  rw [markOps_eq, applyAll_append]
  generalize applyAll g (markMapped sys block mapped) f = f1 at hview ⊢
  simp only [applyAll_cons, applyAll_nil]
  obtain ⟨hbad, hmap⟩ := free_iff.mp hfree
  have hfree2 : free ((FlashOp.writeFdm block (badMark sys block)).apply g f1) new = true := by
    obtain ⟨h1, -, h3⟩ := hview new
    rw [free_iff, isMapped_eq, mappedBlock_markBad hblock, h3, ← isMapped_eq,
      isBad_markBad hblock, h1]
    simp [hbad, hmap, hne, hne']
  refine ⟨fun x => ?_, fun x => ?_, fun x => ?_⟩
  · rw [isBad_makeMapping hnew, isBad_markBad hblock, (hview x).1]
    by_cases hxm : x = mapped
    · subst hxm
      by_cases hxb : x = block <;> simp [hxb]
    · have hxm' : (x == mapped) = false := beq_eq_false_iff_ne.mpr hxm
      simp [hxm']
  · rw [isBadRaw_makeMapping hnew, isBadRaw_markBad hblock, (hview x).2.1]
    simp [hsys]
  · rw [mappedBlock_makeMapping hnew hfree2, mappedBlock_markBad hblock, (hview x).2.2]

end Airoha.Bmt
