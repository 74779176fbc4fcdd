/-
Airoha.Bmt.Persist — what a `remap_block` keeps for the next reboot.

`Running` is the invariant of a driver whose tables are on the flash, at the
ends of the pool. `Marking` is what the marks of a `remap_block` may do to the
OOB bytes, all of them or the first few: they keep the pool in order
(`Housed.marking`) and move no other block (`Marking.target_of_ne`). A
successful `remap_block` preserves `Running` (`RemapDone.running`), so does
`reconstruct_from_oob`.
-/
import Airoha.Bmt.Pool

namespace Airoha.Bmt

open Airoha.Lib

/-- A driver with its tables on the flash. -/
structure Running (g : Geometry) (sys β μ : Nat) (s : State) : Prop where
  based : Based g s
  placed : Placed g sys β μ s.flash
  sealed : Sealed g sys β μ s.ram
  intact : Intact g sys β μ s.flash s.ram.bmt s.ram.bbt

variable {g : Geometry} {sys β μ : Nat} {f f' : Flash} {s : State} {block new mapped : Nat}

/-! ## The marks in the pool -/

/-- What any of the marks of a `remap_block` may do to the OOB bytes. -/
structure Marking (sys new block mapped : Nat) (f f' : Flash) : Prop where
  bad_mono : ∀ x, isBad f x = true → isBad f' x = true
  bad : ∀ x, isBad f' x = true → isBad f x = true ∨ x = block ∨ x = mapped
  raw : ∀ x, sys ≤ x → isBadRaw f' x = isBadRaw f x
  back : ∀ x, x ≠ new → mappedBlock f' x = mappedBlock f x
  back_new : mappedBlock f' new = mappedBlock f new ∨ mappedBlock f' new = UInt16.ofNat block

theorem MarksView.marking (hb : block < sys) (hv : MarksView new block mapped f f') :
    Marking sys new block mapped f f' where
  bad_mono x hx := by
    rw [hv.bad, hx]
    rfl
  bad x hx := by
    rw [hv.bad] at hx
    simp only [Bool.or_eq_true, beq_iff_eq] at hx
    tauto
  raw x hx := by
    have hne : (x == block) = false := beq_eq_false_iff_ne.mpr (by omega)
    rw [hv.raw, hne, Bool.or_false]
  back x hx := by rw [hv.back, if_neg hx]
  back_new := by
    rw [hv.back, if_pos rfl]
    exact Or.inr rfl

theorem SameOob.marking (hs : SameOob f f') : Marking sys new block mapped f f' where
  bad_mono x hx := by rw [hs.isBad]; exact hx
  bad x hx := by rw [hs.isBad] at hx; exact Or.inl hx
  raw x _ := hs.isBadRaw x
  back x _ := hs.mappedBlock x
  back_new := Or.inl (hs.mappedBlock new)

namespace Marking

variable (h : Marking sys new block mapped f f')

include h

theorem congr {f'' : Flash} (hs : SameOob f' f'') : Marking sys new block mapped f f'' where
  bad_mono x hx := by rw [hs.isBad]; exact h.bad_mono x hx
  bad x hx := by rw [hs.isBad] at hx; exact h.bad x hx
  raw x hx := by rw [hs.isBadRaw]; exact h.raw x hx
  back x hx := by rw [hs.mappedBlock]; exact h.back x hx
  back_new := by rw [hs.mappedBlock]; exact h.back_new

theorem isMapped_of_ne {x : Nat} (hx : x ≠ new) : isMapped f' x = isMapped f x := by
  rw [isMapped_eq, h.back x hx, ← isMapped_eq]

theorem free_of_free (hnew : free f new = true) {y : Nat} (hy : free f' y = true) :
    free f y = true := by
  obtain ⟨hbad, hmap⟩ := free_iff.mp hy
  by_cases hne : y = new
  · rw [hne]
    exact hnew
  · rw [h.isMapped_of_ne hne] at hmap
    refine free_iff.mpr ⟨?_, hmap⟩
    by_contra hb
    rw [h.bad_mono y (by simpa using hb)] at hbad
    cases hbad

theorem free_of_ne {i : Nat} (hf : free f i = true) (h1 : i ≠ new) (h2 : i ≠ mapped)
    (h3 : i ≠ block) : free f' i = true := by
  obtain ⟨hbad, hmap⟩ := free_iff.mp hf
  refine free_iff.mpr ⟨?_, ?_⟩
  · by_contra hb
    rcases h.bad i (by simpa using hb) with hc | hc | hc
    · rw [hbad] at hc
      cases hc
    · exact h3 hc
    · exact h2 hc
  · rw [h.isMapped_of_ne h1]
    exact hmap

end Marking

section Pool

variable (hr : Sealed g sys β μ s.ram) (h : Plan g s block new mapped)
  (hv : Marking sys new block mapped s.flash f')

include hr h hv

theorem Housed.marking (hp : Housed g sys β μ s.flash) : Housed g sys β μ f' := by
  have h1 := h.block_lt
  have h2 := hp.bbt_ge
  have h3 := hp.bmt_gt
  have hsys := hr.sys_eq
  have hne1 := h.new_ne_bmt
  have hne2 := h.new_ne_bbt
  rw [hr.bmt_index] at hne1
  rw [hr.bbt_index] at hne2
  refine hp.change hv.raw ?_ ?_ (fun y _ hy => hv.free_of_free h.new_free hy)
    fun x hx1 hx2 hx3 => ?_
  · exact hv.free_of_ne hp.bbt_free hne2.symm (h.free_ne_mapped (by omega) hp.bbt_free) (by omega)
  · exact hv.free_of_ne hp.bmt_free hne1.symm (h.free_ne_mapped (by omega) hp.bmt_free) (by omega)
  · by_cases hxn : x = new
    · subst hxn
      refine Or.inr fun y hy1 hy2 hy3 hy4 hy5 => ?_
      have hle := h.lowest y (by omega) (hv.free_of_free h.new_free hy3)
        (by rw [hr.bmt_index]; exact hy5) (by rw [hr.bbt_index]; exact hy4)
      have hne : y ≠ x := by
        rintro rfl
        rw [(free_iff.mp hy3).2] at hx3
        cases hx3
      omega
    · rw [hv.isMapped_of_ne hxn] at hx3
      exact Or.inl hx3

theorem Placed.marking (hp : Placed g sys β μ s.flash) : Placed g sys β μ f' :=
  hp.of_housed (hp.housed.marking hr h hv) hv.bad_mono

/-- The marks for one block do not move another one. -/
theorem Marking.target_of_ne {b : Nat} (hb : b ≠ block) :
    target g f' sys b = target g s.flash sys b := by
  have h1 := h.block_lt
  have h2 := h.new_pool
  have h16 := g.totalBlks_u16
  have hsys := hr.sys_eq
  have hnat : (UInt16.ofNat block).toNat = block := toNat_ofNat_of_lt (by omega)
  by_cases hbs : b < sys
  · refine target_congr (by omega) fun i hi1 hi2 => ?_
    -- `new` names no block before and at most `block` after
    by_cases hin : i = new
    · subst hin
      have hold : (mappedBlock s.flash i).toNat ≠ b := by
        intro heq
        have hmap : isMapped s.flash i = true := isMapped_of_mappedBlock rfl (by omega)
        rw [(free_iff.mp h.new_free).2] at hmap
        cases hmap
      have hnew : (mappedBlock f' i).toNat ≠ b := by
        rcases hv.back_new with hc | hc
        · rw [hc]
          exact hold
        · rw [hc, hnat]
          exact fun heq => hb heq.symm
      unfold owns
      rw [beq_eq_false_iff_ne.mpr hold, beq_eq_false_iff_ne.mpr hnew, Bool.and_false,
        Bool.and_false]
    · by_cases hname : (mappedBlock s.flash i).toNat = b
      · -- a block that names `b` is not marked bad
        have hbad : isBad f' i = isBad s.flash i := by
          rw [Bool.eq_iff_iff]
          refine ⟨fun hc => ?_, hv.bad_mono i⟩
          rcases hv.bad i hc with hc | hc | hc
          · exact hc
          · omega
          · rcases h.mapped_cases with hm | ⟨-, -, hm, -⟩
            · omega
            · rw [← hc, hname] at hm
              exact absurd hm hb
        unfold owns
        rw [hbad, hv.back i hin]
      · unfold owns
        rw [hv.back i hin, beq_eq_false_iff_ne.mpr hname, Bool.and_false, Bool.and_false]
  · unfold target
    rw [if_neg hbs, if_neg hbs]

end Pool

/-- The marks move `block` to `new` and no other block. -/
theorem MarksView.target (hp : Housed g sys β μ s.flash) (hr : Sealed g sys β μ s.ram)
    (h : Plan g s block new mapped) (hv : MarksView new block mapped s.flash f') (b : Nat) :
    target g f' sys b = if b = block then new else target g s.flash sys b := by
  have h1 := h.block_lt
  have h2 := h.new_pool
  have h16 := g.totalBlks_u16
  have hsys := hr.sys_eq
  have hnat : (UInt16.ofNat block).toNat = block := toNat_ofNat_of_lt (by omega)
  by_cases hb : b = block
  · subst hb
    rw [if_pos rfl]
    refine target_eq_of_newest (by omega) (by omega) h2.2 ?_ fun j hj1 hj2 => ?_
    · have hnm : (new == mapped) = false :=
        beq_eq_false_iff_ne.mpr (h.free_ne_mapped h2.1 h.new_free)
      have hnb : (new == b) = false := beq_eq_false_iff_ne.mpr (by omega)
      unfold owns
      rw [hv.bad, hv.back, if_pos rfl, hnat, (free_iff.mp h.new_free).1, hnm, hnb]
      simp
    · -- a block above `new` carries no mapping yet
      have hjn : j ≠ new := by omega
      have hunmapped : (mappedBlock f' j).toNat ≠ b := by
        intro heq
        rw [hv.back, if_neg hjn] at heq
        have hmap : isMapped s.flash j = true := isMapped_of_mappedBlock rfl (by omega)
        have hlt := hp.frontier j new (by omega) hj2 hmap (by omega) h2.2 h.new_free
          (by rw [← hr.bbt_index]; exact h.new_ne_bbt)
          (by rw [← hr.bmt_index]; exact h.new_ne_bmt)
        omega
      unfold owns
      rw [beq_eq_false_iff_ne.mpr hunmapped, Bool.and_false]
  · rw [if_neg hb]
    exact Marking.target_of_ne hr h (hv.marking (by omega)) hb

/-! ## One call -/

theorem RemapDone.running {copyLen : Nat} {m' : Machine} (hs : Running g sys β μ s)
    (hplan : Plan g s block new mapped) (h : RemapDone g s block new mapped copyLen m') :
    Running g sys β μ m'.state := by
  have hseal := h.sealed hs.sealed
  have hsys := hs.sealed.sys_eq
  have hblock := hplan.block_lt
  have hplaced := hs.placed.marking hs.sealed hplan (h.marks.marking (by omega))
  refine ⟨h.based hs.based hplan, hplaced, hseal, ?_⟩
  -- the last four steps write the tables
  have hmarks := hplan.marksView (hplan.sameOob_prepare copyLen)
  have hpm := hs.placed.marking hs.sealed hplan (hmarks.marking (by omega))
  have hflash := h.did.flash
  unfold remapOps at hflash
  rw [applyAll_append, applyAll_append, h.consts.2.2.1] at hflash
  show Intact g sys β μ m'.flash m'.ram.bmt m'.ram.bbt
  rw [hflash]
  exact intact_tableOps hpm.housed hseal

theorem Rebuilt.running {ram : Ram} {m' : Machine} (hp : Placed g sys β μ f)
    (hsys : ram.systemBlks = sys) (hblks : ram.bmtBlks = g.totalBlks - sys)
    (hstale : ram.bbtIndex = noIndex ∨ ram.bbtIndex = β) (h : Rebuilt g f ram β μ m') :
    Running g sys β μ m'.state ∧ ∀ b, getMappingBlock m'.ram b = target g f sys b := by
  have h1 := hp.bbt_ge
  have h2 := hp.index_lt
  have h3 := hp.bmt_lt
  have hseal := h.sealed hsys hblks
  have hbased : Based g m'.state := by
    refine h.based (by omega) ?_
    rcases hstale with hst | hst
    · exact Or.inl hst
    · rw [hst]
      exact Or.inr ⟨by omega, by omega, hp.bbt_free⟩
  have hoob := h.sameOob hp.bbt_free hp.bmt_free
  refine ⟨⟨hbased, hp.congr hoob, hseal, ?_⟩, fun b => ?_⟩
  · show Intact g sys β μ m'.flash m'.ram.bmt m'.ram.bbt
    rw [h.did.flash]
    exact intact_tableOps hp.housed hseal
  · have hlive := h.live
    obtain ⟨-, -, hs', -, -⟩ := h.consts
    rw [← hs'] at hlive
    rw [getMappingBlock_of_oobEntries hlive (by omega), hs', hsys]

/-! ## Rebuilding -/

/-- On a chip without mappings all raw bad system blocks go into the rebuilt bbt. -/
theorem Rebuilt.rawBad_le {ram : Ram} {m' : Machine} (hno : NoMappings g f)
    (hsys : ram.systemBlks = poolStart g f) (h : Rebuilt g f ram β μ m') :
    ((List.range (poolStart g f)).filter (isBadRaw f)).length ≤ maxRawBadBlockSize := by
  have hlt := poolStart_lt g f
  obtain ⟨bmt, bbt, hbmt, hbbt, -⟩ := h.tables
  have hcount := (reconstructBbt_ok hbbt).2
  have hlive : bmt.live = [] := by
    rw [(reconstructBmt_ok hbmt).1]
    exact oobEntries_of_noMappings hno (by omega)
  have hpred : (fun i => isBadRaw f i && !bmt.isIn i) = isBadRaw f := by
    funext i
    simp [BmtTable.isIn, hlive]
  rw [hpred, hsys] at hcount
  exact hcount

/-- A block the OOB bytes move is in the rebuilt table. -/
theorem isIn_of_target_ne {bmt : BmtTable} {b : Nat} (hsys : sys ≤ g.totalBlks)
    (hbmt : reconstructBmt g f sys = .ok bmt) (h : target g f sys b ≠ b) :
    bmt.isIn b = true := by
  obtain ⟨h1, h2, h3, h4⟩ := exists_owns_of_target_ne hsys h
  unfold owns at h4
  simp only [Bool.and_eq_true, Bool.not_eq_true', beq_iff_eq] at h4
  have hmem : (⟨mappedBlock f (target g f sys b), UInt16.ofNat (target g f sys b)⟩ : BmtEntry) ∈
      bmt.live := by
    rw [(reconstructBmt_ok hbmt).1]
    refine List.mem_filterMap.mpr ⟨target g f sys b, (mem_poolDown hsys).mpr ⟨h2, h3⟩, ?_⟩
    exact oobEntry_eq_some.mpr ⟨h4.1, by omega, rfl⟩
  unfold BmtTable.isIn
  refine List.any_eq_true.mpr ⟨_, hmem, ?_⟩
  exact beq_iff_eq.mpr h4.2

/-- The rebuilt bbt has room when the raw bad blocks that stay in place do not exceed it. -/
theorem rawBad_room {bmt : BmtTable} (hsys : sys ≤ g.totalBlks)
    (hbmt : reconstructBmt g f sys = .ok bmt)
    (hraw : ((List.range sys).filter
      (fun b => isBadRaw f b && target g f sys b == b)).length ≤ maxRawBadBlockSize) :
    ((List.range sys).filter (fun b => isBadRaw f b && !bmt.isIn b)).length ≤
      maxRawBadBlockSize := by
  refine Nat.le_trans (List.Sublist.length_le ?_) hraw
  refine List.monotone_filter_right _ fun b hb => ?_
  simp only [Bool.and_eq_true, Bool.not_eq_true', beq_iff_eq] at hb ⊢
  refine ⟨hb.1, ?_⟩
  by_contra hne
  rw [isIn_of_target_ne hsys hbmt hne] at hb
  exact absurd hb.2 (by decide)

/-- `reconstruct_from_oob` on a chip whose tables lie where `Placed` says. -/
theorem rebuilt_of_placed {ram : Ram} (hp : Placed g sys β μ f) (hsys : ram.systemBlks = sys)
    (hb : ram.bbtIndex = noIndex ∨ ram.bbtIndex = β) (hm : ram.bmtIndex = noIndex)
    (hraw : ((List.range sys).filter
      (fun b => isBadRaw f b && target g f sys b == b)).length ≤ maxRawBadBlockSize) :
    ∃ m', reconstructFromOob g (State.machine ⟨f, ram⟩) = .ok m' ∧ Rebuilt g f ram β μ m' := by
  have h1 := hp.bbt_ge
  have h2 := hp.index_lt
  have h3 := hp.bmt_lt
  have h16 := g.totalBlks_u16
  have hno : noIndex = 0xffff := rfl
  refine rebuilt_exists hm ?_ ?_ (fun bmt hbmt => ?_) ?_ ?_
  · rw [hsys]
    exact hp.sys_pos
  · rw [hsys]
    exact hp.size
  · rw [hsys] at hbmt ⊢
    exact rawBad_room (by omega) hbmt hraw
  · rcases hb with hb | hb
    · rw [if_pos hb]
      exact hp.bbt_found hsys hb hm
    · rw [if_neg (by omega)]
      exact hb.symm
  · have hsys' : ({ ram with bbtIndex := β } : Ram).systemBlks = sys := hsys
    exact hp.bmt_found hsys' rfl hm

end Airoha.Bmt
