/-
Airoha.Bmt.Settled — the invariant of runs without power loss.

`Settled` says that the tables are on the flash and found there, that the OOB
bytes tell the same mapping as the tables, and which system blocks are raw
bad. `init` establishes it on a chip without mappings whose tables, if it has
any, have no rows (`settled_boot`), a successful `remap_block` preserves it
(`RemapDone.settled`).

A remap copies the data of a block without looking at it. Where pool blocks in
front of the tables are good, data that passes as a table can so come to stand
before the driver's own. `Guarded` excludes that: the tables lie at the ends of
the good pool blocks, as `init` places them (`AtEnds`), or no system block
carries such data (`PlainData`).
-/
import Airoha.Bmt.Cut

namespace Airoha.Bmt

open Airoha.Lib

variable {g : Geometry} {sys β μ : Nat} {f f' : Flash} {s : State} {block new mapped : Nat}

/-! ## What stands in front of the tables -/

/-- All pool blocks in front of the tables are bad. -/
def AtEnds (g : Geometry) (f : Flash) (ram : Ram) : Prop :=
  ∀ i, ram.systemBlks ≤ i → i < g.totalBlks → i < ram.bbtIndex ∨ ram.bmtIndex < i →
    isBad f i = true

/-- No system block carries data that passes as a table. -/
def PlainData (g : Geometry) (f : Flash) : Prop :=
  ∀ b, b < poolStart g f → Plain (g.totalBlks - poolStart g f) (f b).data

/-- Why no block comes to stand in front of the tables: there is none to be had, or nothing that a
remap may copy passes as a table. -/
inductive Guarded (g : Geometry) (sys β μ : Nat) (f : Flash) : Prop where
  | ends (h : ∀ i, sys ≤ i → i < g.totalBlks → i < β ∨ μ < i → isBad f i = true)
  | plain (h : ∀ b, b < g.totalBlks → b < sys ∨ isMapped f b = true →
      Plain (g.totalBlks - sys) (f b).data)

/-- A page that is not taken for a table is not, however the memory after the object reads. -/
theorem bmtAt_congr {n i : Nat} (hn : n ≤ maxBmtSize) (b b' : Nat → UInt8) :
    bmtAt b n f i = bmtAt b' n f i := by
  unfold bmtAt
  rw [BmtTable.accepted_congr hn b b']

/-- Blocks that become bad, or whose data does not change, do not hide the tables. -/
theorem Unhidden.change (hu : Unhidden g sys β μ f)
    (hbad : ∀ x, isBad f x = true → isBad f' x = true)
    (hdata : ∀ i, sys ≤ i → i < g.totalBlks → i < β ∨ μ < i → isBad f i = false →
      (f' i).data = (f i).data ∨ Plain (g.totalBlks - sys) (f' i).data)
    (hβ : β < g.totalBlks) (hμ : sys ≤ μ) : Unhidden g sys β μ f' where
  below i h1 h2 := by
    cases hb' : isBad f' i with
    | true => simp [bbtAt, hb']
    | false =>
      have hb : isBad f i = false := by
        by_contra hne
        rw [hbad i (by simpa using hne)] at hb'
        cases hb'
      have hold := hu.below i h1 h2
      rcases hdata i h1 (by omega) (Or.inl h2) hb with hd | hp
      · unfold bbtAt at hold ⊢
        rw [hb, hb'] at *
        rw [hd]
        exact hold
      · simp [bbtAt, hp.1]
  above i h1 h2 beyond := by
    cases hb' : isBad f' i with
    | true => simp [bmtAt, hb']
    | false =>
      have hb : isBad f i = false := by
        by_contra hne
        rw [hbad i (by simpa using hne)] at hb'
        cases hb'
      have hold := hu.above i h1 h2 beyond
      rcases hdata i (by omega) h2 (Or.inr h1) hb with hd | hp
      · unfold bmtAt at hold ⊢
        rw [hb, hb'] at *
        rw [hd]
        exact hold
      · simp [bmtAt, hp.2 beyond]

/-! ## The data after the steps of a call -/

theorem tableOps_of_ne {ram : Ram} {b : Nat} (h1 : b ≠ ram.bmtIndex) (h2 : b ≠ ram.bbtIndex) :
    applyAll g (tableOps ram) f b = f b := by
  refine applyAll_of_ne fun op hop => ?_
  simp only [tableOps, List.mem_cons, List.not_mem_nil, or_false] at hop
  rcases hop with rfl | rfl | rfl | rfl
  · exact h1
  · exact h2
  · exact h1
  · exact h2

/-- Neither table passes as the other, so writing them hides neither. -/
theorem Unhidden.tables {ram : Ram} (hu : Unhidden g sys β μ f) (hh : Housed g sys β μ f)
    (hr : Sealed g sys β μ ram) : Unhidden g sys β μ (applyAll g (tableOps ram) f) := by
  have h1 := hh.bbt_lt
  have h2 := hh.bmt_lt
  have h3 := hh.index_ne
  have hi := intact_tableOps hh hr
  have hi1 := hr.bmt_index
  have hi2 := hr.bbt_index
  constructor
  · intro i hi1' hi2'
    by_cases him : i = μ
    · subst him
      have hno : (BbtTable.decode (applyAll g (tableOps ram) f i).data).accepted = false := by
        by_contra hacc
        have hown := hi.bmt_accepted ram.beyond
        rw [← hi.bmt] at hown
        exact not_both_accepted (by simpa using hacc) hown
      simp [bbtAt, hno]
    · have hsame : applyAll g (tableOps ram) f i = f i :=
        tableOps_of_ne (by omega) (by omega)
      have hold := hu.below i hi1' hi2'
      unfold bbtAt isBad at hold ⊢
      rw [hsame]
      exact hold
  · intro i hi1' hi2' beyond
    by_cases hib : i = β
    · subst hib
      have hno : (BmtTable.decode (applyAll g (tableOps ram) f i).data).accepted beyond
          (g.totalBlks - sys) = false := by
        by_contra hacc
        have hown := hi.bbt_accepted
        rw [← hi.bbt] at hown
        exact not_both_accepted hown (by simpa using hacc)
      simp [bmtAt, hno]
    · have hsame : applyAll g (tableOps ram) f i = f i :=
        tableOps_of_ne (by omega) (by omega)
      have hold := hu.above i hi1' hi2' beyond
      unfold bmtAt isBad at hold ⊢
      rw [hsame]
      exact hold

/-- Marks leave the data alone. -/
theorem data_marked_eq (g : Geometry) (sys new block mapped : Nat) (f : Flash) (b : Nat) :
    (applyAll g (markOps sys new block mapped) f b).data = (f b).data :=
  data_marks (fun _ hop => markOps_writeFdm hop) b

/-- The data of a block before the tables are written: `new` has a copy, the others what they
had. -/
theorem data_marked (copyLen b : Nat) (hb : b ≠ new) :
    (applyAll g (markOps sys new block mapped)
      (applyAll g (prepareOps new mapped copyLen) f) b).data =
      (f b).data := by
  have hprep : applyAll g (prepareOps new mapped copyLen) f b = f b := by
    refine applyAll_of_ne fun op hop => ?_
    rw [prepareOps_blk hop]
    exact hb
  rw [data_marked_eq, hprep]

theorem plain_marked {n : Nat} (copyLen : Nat) (hnew : new < g.totalBlks) (hne : mapped ≠ new)
    (hm : Plain n (f mapped).data) :
    Plain n (applyAll g (markOps sys new block mapped)
      (applyAll g (prepareOps new mapped copyLen) f) new).data := by
  rw [data_marked_eq]
  exact plain_copied copyLen hnew hne hm

/-- A remap leaves the first page of the old block in the new one. -/
theorem RemapDone.data_new {copyLen o : Nat} {m' : Machine}
    (h : RemapDone g s block new mapped copyLen m') (hplan : Plan g s block new mapped)
    (hc : copyLen ≠ 0) (ho : o < sizeofBmt) :
    (m'.flash new).data o = (s.flash mapped).data o := by
  obtain ⟨h1, h2, -⟩ := h.consts
  have hne : mapped ≠ new := (hplan.free_ne_mapped hplan.new_pool.1 hplan.new_free).symm
  have hops := h.did.flash
  unfold remapOps at hops
  rw [applyAll_append, applyAll_append] at hops
  have hbmt : new ≠ m'.ram.bmtIndex := by
    rw [h1]
    exact hplan.new_ne_bmt
  have hbbt : new ≠ m'.ram.bbtIndex := by
    rw [h2]
    exact hplan.new_ne_bbt
  rw [hops, tableOps_of_ne hbmt hbbt, data_marked_eq]
  exact data_copied hplan.new_pool.2 hne hc ho

/-! ## Nothing comes to stand in front of the tables -/

section Call

variable (hr : Sealed g sys β μ s.ram) (h : Plan g s block new mapped) (copyLen : Nat)

include hr h

/-- The flash before the tables are written. -/
theorem Plan.marking :
    Marking sys new block mapped s.flash (applyAll g (markOps sys new block mapped)
      (applyAll g (prepareOps new mapped copyLen) s.flash)) := by
  have hsys := hr.sys_eq
  have hb := h.block_lt
  have hmarks := h.marksView (h.sameOob_prepare copyLen)
  rw [hsys] at hmarks
  exact hmarks.marking (by omega)

theorem Guarded.marked (hg : Guarded g sys β μ s.flash) :
    Guarded g sys β μ (applyAll g (markOps sys new block mapped)
      (applyAll g (prepareOps new mapped copyLen) s.flash)) := by
  have hv := Plan.marking hr h copyLen
  have hsys := hr.sys_eq
  have hb := h.block_lt
  obtain ⟨hn1, hn2⟩ := h.new_pool
  have hne : mapped ≠ new := (h.free_ne_mapped hn1 h.new_free).symm
  cases hg with
  | ends hbad => exact .ends fun i h1 h2 h3 => hv.bad_mono i (hbad i h1 h2 h3)
  | plain hp =>
    refine .plain fun b hb1 hb2 => ?_
    by_cases hbn : b = new
    · -- the new block has its data from a block that was in use
      subst hbn
      refine plain_marked copyLen hn2 hne ?_
      rcases h.mapped_cases with hm | ⟨-, hm2, -, -, -, hm3⟩
      · exact hp mapped (by omega) (Or.inl (by omega))
      · exact hp mapped hm2 (Or.inr hm3)
    · rw [data_marked copyLen b hbn]
      refine hp b hb1 (hb2.imp_right fun hmap => ?_)
      rw [hv.isMapped_of_ne hbn] at hmap
      exact hmap

theorem Unhidden.marked (hh : Housed g sys β μ s.flash) (hg : Guarded g sys β μ s.flash)
    (hu : Unhidden g sys β μ s.flash) :
    Unhidden g sys β μ (applyAll g (markOps sys new block mapped)
      (applyAll g (prepareOps new mapped copyLen) s.flash)) := by
  have hv := Plan.marking hr h copyLen
  have hsys := hr.sys_eq
  have hb := h.block_lt
  obtain ⟨hn1, hn2⟩ := h.new_pool
  have hne : mapped ≠ new := (h.free_ne_mapped hn1 h.new_free).symm
  refine hu.change hv.bad_mono (fun i h1 h2 h3 hgood => ?_) hh.bbt_lt (Nat.le_of_lt hh.bmt_gt)
  by_cases hin : i = new
  · cases hg with
    | ends hbad =>
      rw [hbad i h1 h2 h3] at hgood
      cases hgood
    | plain hp =>
      subst hin
      refine Or.inr (plain_marked copyLen hn2 hne ?_)
      rcases h.mapped_cases with hm | ⟨-, hm2, -, -, -, hm3⟩
      · exact hp mapped (by omega) (Or.inl (by omega))
      · exact hp mapped hm2 (Or.inr hm3)
  · exact Or.inl (data_marked copyLen i hin)

end Call

theorem sameOob_tables {ram : Ram} (hh : Housed g sys β μ f) (hr : Sealed g sys β μ ram) :
    SameOob f (applyAll g (tableOps ram) f) := by
  refine sameOob_applyAll (sparesOob_tableOps ?_ ?_)
  · rw [hr.bmt_index]
    exact hh.bmt_free
  · rw [hr.bbt_index]
    exact hh.bbt_free

/-- The index blocks are neither system blocks nor mapped. -/
theorem Guarded.tables {ram : Ram} (hg : Guarded g sys β μ f) (hh : Housed g sys β μ f)
    (hr : Sealed g sys β μ ram) : Guarded g sys β μ (applyAll g (tableOps ram) f) := by
  have hoob := sameOob_tables hh hr
  have h1 := hh.bbt_ge
  have h2 := hh.bmt_gt
  cases hg with
  | ends hbad =>
    refine .ends fun i h1 h2 h3 => ?_
    rw [hoob.isBad]
    exact hbad i h1 h2 h3
  | plain hp =>
    refine .plain fun b hb1 hb2 => ?_
    rw [hoob.isMapped] at hb2
    have hne : ∀ x, sys ≤ x → free f x = true → b ≠ x := by
      rintro x hx hfree rfl
      rcases hb2 with hlt | hmap
      · omega
      · rw [(free_iff.mp hfree).2] at hmap
        cases hmap
    have hβ := hne β h1 hh.bbt_free
    have hμ := hne μ (by omega) hh.bmt_free
    rw [← hr.bbt_index] at hβ
    rw [← hr.bmt_index] at hμ
    rw [tableOps_of_ne hμ hβ]
    exact hp b hb1 hb2

/-! ## Runs without power loss -/

/-- A running driver whose tables are found and whose OOB bytes agree with them; `f₀` is the flash
it was started on. -/
structure Settled (g : Geometry) (sys β μ : Nat) (f₀ : Flash) (s : State) : Prop where
  based : Based g s
  housed : Housed g sys β μ s.flash
  sealed : Sealed g sys β μ s.ram
  intact : Intact g sys β μ s.flash s.ram.bmt s.ram.bbt
  unhidden : Unhidden g sys β μ s.flash
  guarded : Guarded g sys β μ s.flash
  agrees : ∀ b, target g s.flash sys b = getMappingBlock s.ram b
  raw : ∀ b, b < sys → isBadRaw s.flash b = true →
    isBadRaw f₀ b = true ∨ getMappingBlock s.ram b ≠ b

theorem RemapDone.settled {f₀ : Flash} {copyLen : Nat} {m' : Machine}
    (hs : Settled g sys β μ f₀ s) (hplan : Plan g s block new mapped)
    (h : RemapDone g s block new mapped copyLen m') : Settled g sys β μ f₀ m'.state := by
  have h1 := hplan.block_lt
  have h2 := hplan.new_pool
  have hseal := h.sealed hs.sealed
  have hv := Plan.marking hs.sealed hplan copyLen
  have hhouse := hs.housed.marking hs.sealed hplan hv
  -- the last four steps write the tables
  have hflash : m'.flash = applyAll g (tableOps m'.ram)
      (applyAll g (markOps sys new block mapped)
        (applyAll g (prepareOps new mapped copyLen) s.flash)) := by
    have hops := h.did.flash
    unfold remapOps at hops
    rw [applyAll_append, applyAll_append, h.consts.2.2.1, hs.sealed.sys_eq] at hops
    exact hops
  have hoob := sameOob_tables hhouse hseal
  refine ⟨h.based hs.based hplan, ?_, hseal, ?_, ?_, ?_, fun b => ?_, fun b hb hraw => ?_⟩
  · show Housed g sys β μ m'.flash
    rw [hflash]
    exact hhouse.congr hoob
  · show Intact g sys β μ m'.flash m'.ram.bmt m'.ram.bbt
    rw [hflash]
    exact intact_tableOps hhouse hseal
  · show Unhidden g sys β μ m'.flash
    rw [hflash]
    exact (Unhidden.marked hs.sealed hplan copyLen hs.housed hs.guarded hs.unhidden).tables
      hhouse hseal
  · show Guarded g sys β μ m'.flash
    rw [hflash]
    exact (Guarded.marked hs.sealed hplan copyLen hs.guarded).tables hhouse hseal
  · show target g m'.flash sys b = getMappingBlock m'.ram b
    rw [h.marks.target hs.housed hs.sealed hplan, h.mapping hplan, hs.agrees]
  · show isBadRaw f₀ b = true ∨ getMappingBlock m'.ram b ≠ b
    have hraw' : isBadRaw m'.flash b = true := hraw
    rw [h.mapping hplan]
    by_cases hbb : b = block
    · rw [if_pos hbb]
      exact Or.inr (by omega)
    · rw [if_neg hbb]
      rw [h.marks.raw, beq_eq_false_iff_ne.mpr hbb, Bool.or_false] at hraw'
      exact hs.raw b hb hraw'

theorem Remaps.settled {f₀ : Flash} {s' : State} (hs : Settled g sys β μ f₀ s)
    (hrun : Remaps g s s') : Settled g sys β μ f₀ s' := by
  induction hrun with
  | refl => exact hs
  | remap hrun hblock hnew hok ih =>
    have hplan := ih.based.plan hblock hnew
    exact (remapDone ih.based hblock hnew hok).settled ih hplan

/-! ## After `init` -/

/-- What is known of the index blocks of a chip without mappings, once they are chosen. -/
theorem housed_of_noMappings (hno : NoMappings g f)
    (hsize : g.totalBlks - poolStart g f ≤ maxBmtSize) (hpos : 0 < poolStart g f)
    (hβ : poolStart g f ≤ β ∧ β < g.totalBlks ∧ isBad f β = false)
    (hμ : poolStart g f < μ ∧ μ < g.totalBlks ∧ isBad f μ = false) (hne : μ ≠ β) :
    Housed g (poolStart g f) β μ f where
  start := rfl
  sys_pos := hpos
  size := hsize
  bbt_ge := hβ.1
  bbt_lt := hβ.2.1
  bmt_gt := hμ.1
  bmt_lt := hμ.2.1
  index_ne := hne
  bbt_free := free_iff.mpr ⟨hβ.2.2, hno β hβ.2.1⟩
  bmt_free := free_iff.mpr ⟨hμ.2.2, hno μ hμ.2.1⟩
  frontier x _ _ h2 h3 _ _ _ _ _ := by
    rw [hno x h2] at h3
    cases h3

/-- `init` did not overlook a table in front of those it uses. -/
theorem unhidden_of_found {i : Nat} {beyond : Nat → UInt8}
    (hsize : g.totalBlks - poolStart g f ≤ maxBmtSize)
    (hi : parseBbt g f (poolStart g f) = some i)
    (hj : ∀ j, μ < j → j < g.totalBlks →
      bmtAt beyond (g.totalBlks - poolStart g f) f j = false) :
    Unhidden g (poolStart g f) i μ f where
  below j h1 h2 := (scanUp_eq_some_iff.mp hi).2.2.2 j h1 h2
  above j h1 h2 beyond' := by
    rw [bmtAt_congr hsize beyond' beyond]
    exact hj j h1 h2

theorem guarded_of_atEnds {ram : Ram} (h1 : ram.systemBlks = sys) (h2 : ram.bbtIndex = β)
    (h3 : ram.bmtIndex = μ) (h : AtEnds g f ram) : Guarded g sys β μ f := by
  subst h1 h2 h3
  exact .ends h

theorem guarded_of_plainData (hno : NoMappings g f) (h : PlainData g f) :
    Guarded g (poolStart g f) β μ f := by
  refine .plain fun b hb1 hb2 => ?_
  rcases hb2 with hlt | hmap
  · exact h b hlt
  · rw [hno b hb1] at hmap
    cases hmap

/-- What keeps a later reboot from finding another table first, where `init` found a bbt. -/
def Fronted (g : Geometry) (f : Flash) (ram : Ram) : Prop :=
  ∀ i, parseBbt g f (poolStart g f) = some i →
    AtEnds g f ram ∨ (PlainData g f ∧ ram.bmtIndex ≠ ram.systemBlks)

section Boot

variable {beyond : Nat → UInt8} {m : Machine} (hno : NoMappings g f)
  (hsize : g.totalBlks - poolStart g f ≤ maxBmtSize) (hpos : 0 < poolStart g f)

include hno hsize hpos

/-- The parse path, on a table without rows. -/
theorem settled_parsed {i j : Nat} (hi : parseBbt g f (poolStart g f) = some i)
    (hj : parseBmt g f (setupRam g f beyond) = some j)
    (hempty : (BmtTable.decode (f j).data).live = [])
    (hfront : Fronted g f (parsedRam g f beyond i j)) :
    Settled g (poolStart g f) i j f ⟨f, parsedRam g f beyond i j⟩ := by
  have hlt := poolStart_lt g f
  have hsys := setupRam_systemBlks g f beyond
  have hi' : parseBbt g f (setupRam g f beyond).systemBlks = some i := by
    rw [hsys]
    exact hi
  obtain ⟨hi1, hi2, hi3, hi4⟩ := parseBbt_spec (by omega) hi
  obtain ⟨hj1, hj2, hj3, hj4⟩ := parseBmt_spec hj
  rw [hsys] at hj1
  have hne : j ≠ i := by
    rintro rfl
    exact not_both_accepted hi4 hj4
  have hbased := (based_boot hno (fun t ht => by
    rw [loadedBmt_of_parsed hi' hj] at ht
    cases ht
    exact hempty) (boot_eq_of_parsed hi' hj)).1
  have habove : ∀ k, j < k → k < g.totalBlks →
      bmtAt beyond (g.totalBlks - poolStart g f) f k = false := by
    intro k h1 h2
    have hscan := (scanDown_eq_some_iff (by omega)).mp hj
    exact hscan.2.2.2 k h1 (by omega)
  refine ⟨hbased, ?_, ?_, ?_, ?_, ?_, fun b => ?_, fun b _ hraw => Or.inl hraw⟩
  · exact housed_of_noMappings hno hsize hpos ⟨hi1, hi2, hi3⟩ ⟨hj1, hj2, hj3⟩ hne
  · exact ⟨hsys, setupRam_bmtBlks g f beyond, rfl, rfl, hj4, hi4⟩
  · refine ⟨rfl, rfl, fun beyond' => ?_, hi4⟩
    rw [BmtTable.accepted_congr hsize beyond' beyond]
    exact hj4
  · exact unhidden_of_found hsize hi habove
  · have hk : (parsedRam g f beyond i j).systemBlks = poolStart g f := hsys
    show Guarded g _ i j f
    rcases hfront i hi with hends | ⟨hplain, -⟩
    · exact guarded_of_atEnds hk rfl rfl hends
    · exact guarded_of_plainData hno hplain
  · have hlive : (parsedRam g f beyond i j).bmt.live = [] := hempty
    show target g f _ b = getMappingBlock _ b
    rw [target_of_noMappings hno (by omega), getMappingBlock_eq, hlive]
    split <;> rfl

omit hno hsize hpos in
/-- A bbt that was parsed keeps its block. -/
theorem Rebuilt.bbt_kept {ram : Ram} {i : Nat} (hr : Rebuilt g f ram β μ m)
    (hidx : ram.bbtIndex = i) (hi : i < g.totalBlks) : β = i := by
  have hset : ram.bbtIndex ≠ noIndex := by
    have h16 := g.totalBlks_u16
    unfold noIndex
    omega
  have hchosen := hr.bbt_chosen
  rw [if_neg hset] at hchosen
  rw [hchosen, hidx]

/-- Where the rebuilding path has put the tables, and what stands in front of them. -/
theorem rebuilt_places {ram : Ram} (hun : Unparsed g f (setupRam g f beyond) ram)
    (hr : Rebuilt g f ram β μ m) (hfront : Fronted g f m.ram) :
    poolStart g f < μ ∧ Unhidden g (poolStart g f) β μ f ∧ Guarded g (poolStart g f) β μ f := by
  have hlt := poolStart_lt g f
  obtain ⟨hc1, hc2, -, -⟩ := hun.consts
  obtain ⟨hk1, hk2, hk3, -⟩ := hr.consts
  obtain ⟨hμ1, hμ2, hμ3, hne⟩ := hr.bmt_spec (by omega)
  rw [hc1] at hμ1 hk3
  rcases hun with ⟨-, hram⟩ | ⟨i, hi, hj, hram⟩
  -- no bbt was found: the tables are at the ends of the pool
  · have hp := hr.placed hno hc1 hsize (by rw [hram]; rfl) hc2
    refine ⟨hp.housed.bmt_gt, hp.unhidden, .ends fun k h1 h2 h3 => ?_⟩
    rcases h3 with h3 | h3
    · exact hp.below k h1 h3
    · exact hp.above k h3 h2
  -- a bbt was found, and no bmt
  · rw [setupRam_systemBlks] at hi
    obtain ⟨hi1, hi2, -, -⟩ := parseBbt_spec (by omega) hi
    obtain rfl := hr.bbt_kept (by rw [hram]; rfl) hi2
    have hnone : ∀ k, poolStart g f < k → k < g.totalBlks →
        bmtAt beyond (g.totalBlks - poolStart g f) f k = false := by
      intro k h1 h2
      have hscan := (scanDown_eq_none_iff (by omega)).mp hj
      rw [setupRam_systemBlks] at hscan
      exact hscan k (by omega) (by omega)
    have hgt : poolStart g f < μ ∧ Guarded g (poolStart g f) β μ f := by
      rcases hfront β hi with hends | ⟨hplain, hsys⟩
      · have hg := guarded_of_atEnds hk3 hk2 hk1 hends
        refine ⟨?_, hg⟩
        by_contra hle
        have hbad := hends μ (by omega) hμ2 (Or.inl (by omega))
        rw [(free_iff.mp hμ3).1] at hbad
        cases hbad
      · rw [hk1, hk3] at hsys
        exact ⟨by omega, guarded_of_plainData hno hplain⟩
    exact ⟨hgt.1, unhidden_of_found hsize hi fun k h1 h2 => hnone k (by omega) h2, hgt.2⟩

/-- The rebuilding path. -/
theorem settled_rebuilt {ram : Ram} (hun : Unparsed g f (setupRam g f beyond) ram)
    (hr : Rebuilt g f ram β μ m) (hfront : Fronted g f m.ram) :
    Settled g (poolStart g f) β μ f m.state := by
  have hlt := poolStart_lt g f
  obtain ⟨hgt, hu, hg⟩ := rebuilt_places hno hsize hpos hun hr hfront
  obtain ⟨hc1, -, hc3, -⟩ := hun.consts
  obtain ⟨-, -, hk3, -⟩ := hr.consts
  have hstale : ram.bbtIndex = noIndex ∨ (ram.systemBlks ≤ ram.bbtIndex ∧
      ram.bbtIndex < g.totalBlks ∧ free f ram.bbtIndex = true) := by
    rcases hun.stale with hs | ⟨h1, h2, h3⟩
    · exact Or.inl hs
    · rw [hc1]
      exact Or.inr ⟨h1, h2, free_iff.mpr ⟨h3, hno _ h2⟩⟩
  obtain ⟨hβ1, hβ2, hβ3⟩ := hr.bbt_spec (by omega) hstale
  obtain ⟨-, hμ2, hμ3, hne⟩ := hr.bmt_spec (by omega)
  rw [hc1] at hβ1 hk3
  have hh := housed_of_noMappings hno hsize hpos ⟨hβ1, hβ2, (free_iff.mp hβ3).1⟩
    ⟨hgt, hμ2, (free_iff.mp hμ3).1⟩ hne
  have hseal := hr.sealed hc1 hc3
  have hoob := sameOob_tables hh hseal
  have hflash : m.flash = applyAll g (tableOps m.ram) f := hr.did.flash
  refine ⟨hr.based (by omega) hstale, ?_, hseal, ?_, ?_, ?_, fun b => ?_,
    fun b _ hraw => Or.inl ?_⟩
  · show Housed g _ β μ m.flash
    rw [hflash]
    exact hh.congr hoob
  · show Intact g _ β μ m.flash m.ram.bmt m.ram.bbt
    rw [hflash]
    exact intact_tableOps hh hseal
  · show Unhidden g _ β μ m.flash
    rw [hflash]
    exact hu.tables hh hseal
  · show Guarded g _ β μ m.flash
    rw [hflash]
    exact hg.tables hh hseal
  · have hlive := hr.live
    rw [hc1, ← hk3] at hlive
    show target g m.flash _ b = getMappingBlock m.ram b
    rw [hflash, hoob.target, getMappingBlock_of_oobEntries hlive (by omega), hk3]
  · have hraw' : isBadRaw m.flash b = true := hraw
    rw [hflash, hoob.isBadRaw] at hraw'
    exact hraw'

theorem settled_boot (hempty : ∀ t, loadedBmt g f beyond = some t → t.live = [])
    (hboot : boot g f beyond = .ok m) (hfront : Fronted g f m.ram) :
    ∃ β μ, Settled g (poolStart g f) β μ f m.state := by
  have hsys := setupRam_systemBlks g f beyond
  rcases boot_cases g f beyond with ⟨i, j, hi, hj⟩ | ⟨ram, hun⟩
  · rw [boot_eq_of_parsed hi hj] at hboot
    cases hboot
    have hlive := hempty _ (loadedBmt_of_parsed hi hj)
    rw [hsys] at hi
    exact ⟨i, j, settled_parsed hno hsize hpos hi hj hlive hfront⟩
  · rw [boot_eq_of_unparsed hun] at hboot
    obtain ⟨β, μ, hr⟩ := rebuilt_of_ok hun.consts.2.1 hboot
    exact ⟨β, μ, settled_rebuilt hno hsize hpos hun hr hfront⟩

end Boot

end Airoha.Bmt
