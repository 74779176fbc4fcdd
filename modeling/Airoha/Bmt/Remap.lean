/-
Airoha.Bmt.Remap — what one `remap_block` does to the driver's invariant.

A running driver is a `State` (flash and globals). `boot` is `init` on
freshly cleared globals, `State.remap` is
`remap_block(block, get_mapping_block(block))`. No write fails here.

`Based` is the part of the invariant every later development uses: the two
index blocks are free pool blocks, and each row of `bmt.table` points to a
pool block that names the row's block in its OOB bytes. `Unique`
adds that no block is used twice and no target is bad. `Plan` collects what is
known about the blocks of a `remap_block` before its first flash step,
`RemapDone` what holds after the last one; `RemapDone.based` and
`RemapDone.unique` are the step lemmas.
-/
import Airoha.Bmt.Oob

namespace Airoha.Bmt

open Airoha.Lib

/-! ## Running drivers -/

structure State where
  flash : Flash
  ram : Ram

/-- The driver about to run a function: no write will fail, no step is logged. -/
def State.machine (s : State) : Machine := ⟨s.flash, s.ram, fun _ => false, 0, []⟩

def Machine.state (m : Machine) : State := ⟨m.flash, m.ram⟩

theorem State.quiet (s : State) : Quiet s.machine := fun _ => rfl

/-- `init` after power-up. -/
def boot (g : Geometry) (f : Flash) (beyond : Nat → UInt8) : Except Fault Machine :=
  init g (State.machine ⟨f, Ram.boot beyond⟩)

/-- `remap_block(block, get_mapping_block(block), copy_len)` -/
def State.remap (g : Geometry) (block copyLen : Nat) (s : State) : Except Fault Machine :=
  remapBlock g block (getMappingBlock s.ram block) copyLen s.machine

/-- No block of the device carries a mapping in its OOB bytes. -/
def NoMappings (g : Geometry) (f : Flash) : Prop :=
  ∀ b, b < g.totalBlks → isMapped f b = false

/-! ## `get_mapping_block` -/

theorem getMappingBlock_eq (ram : Ram) (b : Nat) :
    getMappingBlock ram b = if ram.systemBlks < b then b
      else ((lookup BmtEntry.key b ram.bmt.live).map (fun e => e.toBlk.toNat)).getD b := by
  unfold getMappingBlock BmtTable.find
  split
  · rfl
  · cases lookup BmtEntry.key b ram.bmt.live <;> rfl

theorem getMappingBlock_cases (ram : Ram) (b : Nat) :
    getMappingBlock ram b = b ∨
      ∃ e ∈ ram.bmt.live, e.key = b ∧ getMappingBlock ram b = e.toBlk.toNat := by
  rw [getMappingBlock_eq]
  split
  · exact Or.inl rfl
  · cases h : lookup BmtEntry.key b ram.bmt.live with
    | none => exact Or.inl rfl
    | some e => exact Or.inr ⟨e, lookup_mem h, lookup_key h, rfl⟩

/-- Adding or replacing a row changes the mapping of its block only. -/
theorem getMappingBlock_put {ram ram' : Ram} {e : BmtEntry}
    (hsys : ram'.systemBlks = ram.systemBlks)
    (hlive : ram'.bmt.live = put BmtEntry.key e ram.bmt.live) (he : e.key ≤ ram.systemBlks)
    (x : Nat) :
    getMappingBlock ram' x = if x = e.key then e.toBlk.toNat else getMappingBlock ram x := by
  rw [getMappingBlock_eq, getMappingBlock_eq, hsys, hlive]
  by_cases hx : x = e.key
  · subst hx
    rw [if_neg (by omega), lookup_put_self, if_pos rfl]
    rfl
  · rw [lookup_put_of_ne (fun h => hx h.symm), if_neg hx]

theorem toNat_ofNat_of_lt {n : Nat} (h : n < 0x10000) : (UInt16.ofNat n).toNat = n := by
  rw [UInt16.toNat_ofNat']
  omega

/-! ## The invariant -/

/-- A row of `bmt.table` points to a pool block that points back. -/
structure EntryOk (g : Geometry) (s : State) (e : BmtEntry) : Prop where
  below : e.key < s.ram.systemBlks
  pool : s.ram.systemBlks ≤ e.toBlk.toNat ∧ e.toBlk.toNat < g.totalBlks
  back : mappedBlock s.flash e.toBlk.toNat = e.fromBlk
  ne_bmt : e.toBlk.toNat ≠ s.ram.bmtIndex
  ne_bbt : e.toBlk.toNat ≠ s.ram.bbtIndex

structure Based (g : Geometry) (s : State) : Prop where
  bmt_pool : s.ram.systemBlks ≤ s.ram.bmtIndex ∧ s.ram.bmtIndex < g.totalBlks
  bbt_pool : s.ram.systemBlks ≤ s.ram.bbtIndex ∧ s.ram.bbtIndex < g.totalBlks
  index_ne : s.ram.bmtIndex ≠ s.ram.bbtIndex
  bmt_free : free s.flash s.ram.bmtIndex = true
  bbt_free : free s.flash s.ram.bbtIndex = true
  entry : ∀ e ∈ s.ram.bmt.live, EntryOk g s e

namespace Based

variable {g : Geometry} {s : State} (h : Based g s)

include h

theorem bmt_chosen : s.ram.bmtIndex ≠ noIndex := by
  have h1 := h.bmt_pool.2
  have h2 := g.totalBlks_u16
  unfold noIndex
  omega

theorem bbt_chosen : s.ram.bbtIndex ≠ noIndex := by
  have h1 := h.bbt_pool.2
  have h2 := g.totalBlks_u16
  unfold noIndex
  omega

theorem entry_mapped {e : BmtEntry} (he : e ∈ s.ram.bmt.live) :
    isMapped s.flash e.toBlk.toNat = true := by
  have h1 := h.entry e he
  have h2 := g.totalBlks_u16
  have h3 : e.fromBlk.toNat < s.ram.systemBlks := h1.below
  have h4 := h1.pool
  exact isMapped_of_mappedBlock h1.back (by omega)

theorem free_ne_target {e : BmtEntry} {b : Nat} (he : e ∈ s.ram.bmt.live)
    (hb : free s.flash b = true) : e.toBlk.toNat ≠ b := by
  rintro rfl
  have h1 := h.entry_mapped he
  rw [(free_iff.mp hb).2] at h1
  cases h1

/-- Where the data of a system block lives: in place, or in a mapped pool block. -/
theorem mapped_cases (b : Nat) :
    getMappingBlock s.ram b = b ∨
      (s.ram.systemBlks ≤ getMappingBlock s.ram b ∧ getMappingBlock s.ram b < g.totalBlks ∧
        (mappedBlock s.flash (getMappingBlock s.ram b)).toNat = b ∧
        getMappingBlock s.ram b ≠ s.ram.bmtIndex ∧ getMappingBlock s.ram b ≠ s.ram.bbtIndex ∧
        isMapped s.flash (getMappingBlock s.ram b) = true) := by
  rcases getMappingBlock_cases s.ram b with hb | ⟨e, he, hk, hb⟩
  · exact Or.inl hb
  · have h1 := h.entry e he
    rw [hb]
    refine Or.inr ⟨h1.pool.1, h1.pool.2, ?_, h1.ne_bmt, h1.ne_bbt, h.entry_mapped he⟩
    rw [h1.back]
    exact hk

end Based

/-- What `find_available_block(false)` found. -/
theorem newBlock_spec {g : Geometry} {f : Flash} {ram : Ram}
    (h : (findAvailableBlock g f ram false).isSome = true) :
    scanUp (available f ram) ram.systemBlks (g.totalBlks - ram.systemBlks) =
        some (newBlock g f ram) ∧
      ram.systemBlks ≤ newBlock g f ram ∧ newBlock g f ram < g.totalBlks ∧
      free f (newBlock g f ram) = true ∧ newBlock g f ram ≠ ram.bmtIndex ∧
      newBlock g f ram ≠ ram.bbtIndex := by
  obtain ⟨n, hn⟩ := Option.isSome_iff_exists.mp h
  have hnew : newBlock g f ram = n := by rw [newBlock, hn]; rfl
  rw [hnew]
  simp only [findAvailableBlock, Bool.false_eq_true, if_false] at hn
  obtain ⟨h1, h2, h3, -⟩ := scanUp_eq_some_iff.mp hn
  obtain ⟨h4, h5, h6⟩ := available_iff.mp h3
  exact ⟨hn, h1, by omega, h4, h5, h6⟩

/-! ## One `remap_block` -/

/-- The blocks a `remap_block` works on, before its first flash step. -/
structure Plan (g : Geometry) (s : State) (block new mapped : Nat) : Prop where
  block_lt : block < s.ram.systemBlks
  new_pool : s.ram.systemBlks ≤ new ∧ new < g.totalBlks
  new_free : free s.flash new = true
  new_ne_bmt : new ≠ s.ram.bmtIndex
  new_ne_bbt : new ≠ s.ram.bbtIndex
  lowest : ∀ y, s.ram.systemBlks ≤ y → free s.flash y = true → y ≠ s.ram.bmtIndex →
    y ≠ s.ram.bbtIndex → new ≤ y
  mapped_cases : mapped = block ∨
    (s.ram.systemBlks ≤ mapped ∧ mapped < g.totalBlks ∧
      (mappedBlock s.flash mapped).toNat = block ∧ mapped ≠ s.ram.bmtIndex ∧
      mapped ≠ s.ram.bbtIndex ∧ isMapped s.flash mapped = true)

variable {g : Geometry} {s : State} {block new mapped : Nat}

theorem Based.plan (hs : Based g s) (hblock : block < s.ram.systemBlks)
    (hnew : (findAvailableBlock g s.flash s.ram false).isSome = true) :
    Plan g s block (newBlock g s.flash s.ram) (getMappingBlock s.ram block) := by
  obtain ⟨hscan, hn1, hn2, hfree, hn3, hn4⟩ := newBlock_spec hnew
  refine ⟨hblock, ⟨hn1, hn2⟩, hfree, hn3, hn4, fun y h1 h2 h3 h4 => ?_, hs.mapped_cases block⟩
  by_contra hlt
  have hav := (scanUp_eq_some_iff.mp hscan).2.2.2 y h1 (by omega)
  rw [available_iff.mpr ⟨h2, h3, h4⟩] at hav
  cases hav

namespace Plan

variable (h : Plan g s block new mapped)

include h

theorem mapped_pool (hne : mapped ≠ block) : s.ram.systemBlks ≤ mapped ∧ mapped < g.totalBlks := by
  rcases h.mapped_cases with hb | ⟨h1, h2, -⟩
  · exact absurd hb hne
  · exact ⟨h1, h2⟩

/-- A free pool block is not the one `block` lives in. -/
theorem free_ne_mapped {i : Nat} (hi : s.ram.systemBlks ≤ i) (hf : free s.flash i = true) :
    i ≠ mapped := by
  rintro rfl
  rcases h.mapped_cases with hb | ⟨-, -, -, -, -, h1⟩
  · have := h.block_lt
    omega
  · rw [(free_iff.mp hf).2] at h1
    cases h1

theorem sameOob_prepare (copyLen : Nat) :
    SameOob s.flash (applyAll g (prepareOps new mapped copyLen) s.flash) :=
  sameOob_applyAll (sparesOob_prepareOps h.new_free mapped copyLen)

theorem marksView {f : Flash} (hf : SameOob s.flash f) :
    MarksView new block mapped s.flash
      (applyAll g (markOps s.ram.systemBlks new block mapped) f) := by
  have h1 := h.block_lt
  have h2 := h.new_pool
  have hfree : free f new = true := by rw [hf.free]; exact h.new_free
  exact (marksView_markOps (by omega) h1 h.mapped_pool h2.2 hfree
    (h.free_ne_mapped h2.1 h.new_free) (by omega)).congr hf (SameOob.refl _)

end Plan

/-- The marks leave the other free pool blocks free. -/
theorem MarksView.free_of_ne {f f' : Flash} {i : Nat} (h : MarksView new block mapped f f')
    (hf : free f i = true) (h1 : i ≠ new) (h2 : i ≠ mapped) (h3 : i ≠ block) :
    free f' i = true := by
  obtain ⟨hb, hm⟩ := free_iff.mp hf
  have h2' : (i == mapped) = false := beq_eq_false_iff_ne.mpr h2
  have h3' : (i == block) = false := beq_eq_false_iff_ne.mpr h3
  rw [free_iff, h.bad, isMapped_eq, h.back, if_neg h1, ← isMapped_eq, hb, hm, h2', h3']
  exact ⟨rfl, rfl⟩

/-- The index blocks are free when the tables are written. -/
theorem Plan.index_free (h : Plan g s block new mapped) (hs : Based g s) {f : Flash}
    (hf : MarksView new block mapped s.flash f) :
    free f s.ram.bmtIndex = true ∧ free f s.ram.bbtIndex = true := by
  have h1 := h.block_lt
  have h2 := hs.bmt_pool.1
  have h3 := hs.bbt_pool.1
  exact ⟨hf.free_of_ne hs.bmt_free h.new_ne_bmt.symm (h.free_ne_mapped h2 hs.bmt_free) (by omega),
    hf.free_of_ne hs.bbt_free h.new_ne_bbt.symm (h.free_ne_mapped h3 hs.bbt_free) (by omega)⟩

/-- What `remap_block` on `block` did when it moved its data to `new`. -/
structure RemapDone (g : Geometry) (s : State) (block new mapped copyLen : Nat) (m' : Machine) :
    Prop where
  live : m'.ram.bmt.live =
    put BmtEntry.key ⟨UInt16.ofNat block, UInt16.ofNat new⟩ s.ram.bmt.live
  ram : ∃ bmt bbt, bmt.signature = s.ram.bmt.signature ∧ bbt.signature = s.ram.bbt.signature ∧
    m'.ram = ({ s.ram with bmt := bmt, bbt := bbt } : Ram).sealed
  did : s.machine.Did g (remapOps m'.ram new block mapped copyLen) m'
  marks : MarksView new block mapped s.flash m'.flash

theorem RemapDone.consts {copyLen : Nat} {m' : Machine}
    (h : RemapDone g s block new mapped copyLen m') :
    m'.ram.bmtIndex = s.ram.bmtIndex ∧ m'.ram.bbtIndex = s.ram.bbtIndex ∧
      m'.ram.systemBlks = s.ram.systemBlks ∧ m'.ram.bmtBlks = s.ram.bmtBlks ∧
      m'.ram.beyond = s.ram.beyond := by
  obtain ⟨bmt, bbt, -, -, h⟩ := h.ram
  rw [h]
  exact ⟨rfl, rfl, rfl, rfl, rfl⟩

theorem remapDone {copyLen : Nat} {m' : Machine} (hs : Based g s)
    (hblock : block < s.ram.systemBlks)
    (hnew : (findAvailableBlock g s.flash s.ram false).isSome = true)
    (h : s.remap g block copyLen = .ok m') :
    RemapDone g s block (newBlock g s.flash s.ram) (getMappingBlock s.ram block) copyLen m' := by
  have hplan := hs.plan hblock hnew
  obtain ⟨bmt, bbt, hbmt, hbbt, hram, hdid⟩ :=
    remapBlock_ok s.quiet hs.bbt_chosen hs.bmt_chosen h
  change m'.ram = ({ s.ram with bmt := bmt, bbt := bbt } : Ram).sealed at hram
  change s.machine.Did g (remapOps m'.ram (newBlock g s.flash s.ram) _ _ _) m' at hdid
  refine ⟨?_, ⟨bmt, bbt, BmtTable.signature_remap hbmt, BbtTable.signature_remap hbbt, hram⟩,
    hdid, ?_⟩
  · rw [hram]
    show bmt.live = _
    exact BmtTable.live_remap hbmt
  · have hsys : m'.ram.systemBlks = s.ram.systemBlks := by rw [hram]; rfl
    have hmarks := hplan.marksView (hplan.sameOob_prepare copyLen)
    have hfree := hplan.index_free hs hmarks
    have htables : SameOob _ (applyAll g (tableOps m'.ram) _) :=
      sameOob_applyAll (sparesOob_tableOps (by rw [hram]; exact hfree.1)
        (by rw [hram]; exact hfree.2))
    have hflash := hdid.flash
    unfold remapOps at hflash
    rw [applyAll_append, applyAll_append, hsys] at hflash
    rw [hflash]
    exact hmarks.congr (SameOob.refl _) htables

theorem key_ofNat {n m : Nat} (h : n < 0x10000) :
    BmtEntry.key ⟨UInt16.ofNat n, UInt16.ofNat m⟩ = n :=
  toNat_ofNat_of_lt h

theorem RemapDone.mapping {copyLen : Nat} {m' : Machine} (hplan : Plan g s block new mapped)
    (h : RemapDone g s block new mapped copyLen m') (x : Nat) :
    getMappingBlock m'.ram x = if x = block then new else getMappingBlock s.ram x := by
  have h1 := hplan.block_lt
  have h2 := hplan.new_pool
  have h3 := g.totalBlks_u16
  have hkey : BmtEntry.key ⟨UInt16.ofNat block, UInt16.ofNat new⟩ = block :=
    key_ofNat (by omega)
  rw [getMappingBlock_put h.consts.2.2.1 h.live (by omega), hkey]
  split
  · exact toNat_ofNat_of_lt (by omega)
  · rfl

/-- A row of the new table is the new row or an old row of another block. -/
theorem RemapDone.mem_live {copyLen : Nat} {m' : Machine} {e : BmtEntry}
    (h : RemapDone g s block new mapped copyLen m') (he : e ∈ m'.ram.bmt.live) :
    e = ⟨UInt16.ofNat block, UInt16.ofNat new⟩ ∨ e ∈ s.ram.bmt.live := by
  rw [h.live] at he
  exact mem_put he

theorem RemapDone.based {copyLen : Nat} {m' : Machine} (hs : Based g s)
    (hplan : Plan g s block new mapped) (h : RemapDone g s block new mapped copyLen m') :
    Based g m'.state := by
  have h1 := hplan.block_lt
  have h2 := hplan.new_pool
  have h3 := g.totalBlks_u16
  obtain ⟨hi1, hi2, hi3, -, -⟩ := h.consts
  obtain ⟨hf1, hf2⟩ := hplan.index_free hs h.marks
  refine ⟨?_, ?_, ?_, ?_, ?_, fun e he => ?_⟩
  · show m'.ram.systemBlks ≤ m'.ram.bmtIndex ∧ m'.ram.bmtIndex < _
    rw [hi1, hi3]
    exact hs.bmt_pool
  · show m'.ram.systemBlks ≤ m'.ram.bbtIndex ∧ m'.ram.bbtIndex < _
    rw [hi2, hi3]
    exact hs.bbt_pool
  · show m'.ram.bmtIndex ≠ m'.ram.bbtIndex
    rw [hi1, hi2]
    exact hs.index_ne
  · show free m'.flash m'.ram.bmtIndex = true
    rw [hi1]
    exact hf1
  · show free m'.flash m'.ram.bbtIndex = true
    rw [hi2]
    exact hf2
  · rcases h.mem_live he with rfl | he
    · have hnew : (UInt16.ofNat new).toNat = new := toNat_ofNat_of_lt (by omega)
      refine ⟨?_, ?_, ?_, ?_, ?_⟩
      · show BmtEntry.key _ < m'.ram.systemBlks
        rw [key_ofNat (by omega), hi3]
        exact h1
      · show m'.ram.systemBlks ≤ (UInt16.ofNat new).toNat ∧ (UInt16.ofNat new).toNat < _
        rw [hnew, hi3]
        exact h2
      · show mappedBlock m'.flash (UInt16.ofNat new).toNat = _
        rw [hnew, h.marks.back, if_pos rfl]
      · show (UInt16.ofNat new).toNat ≠ m'.ram.bmtIndex
        rw [hnew, hi1]
        exact hplan.new_ne_bmt
      · show (UInt16.ofNat new).toNat ≠ m'.ram.bbtIndex
        rw [hnew, hi2]
        exact hplan.new_ne_bbt
    · have hold := hs.entry e he
      refine ⟨?_, ?_, ?_, ?_, ?_⟩
      · show e.key < m'.ram.systemBlks
        rw [hi3]
        exact hold.below
      · show m'.ram.systemBlks ≤ _ ∧ _
        rw [hi3]
        exact hold.pool
      · show mappedBlock m'.flash _ = _
        rw [h.marks.back, if_neg (hs.free_ne_target he hplan.new_free)]
        exact hold.back
      · show _ ≠ m'.ram.bmtIndex
        rw [hi1]
        exact hold.ne_bmt
      · show _ ≠ m'.ram.bbtIndex
        rw [hi2]
        exact hold.ne_bbt

/-! ## No block is used twice -/

structure Unique (s : State) : Prop where
  fromNodup : (s.ram.bmt.live.map BmtEntry.key).Nodup
  toNodup : (s.ram.bmt.live.map fun e => e.toBlk.toNat).Nodup
  good : ∀ e ∈ s.ram.bmt.live, isBad s.flash e.toBlk.toNat = false

/-- With unique targets a row that points to the block of `b` is the row of `b`. -/
theorem Unique.target_ne {e : BmtEntry} {b : Nat} (hu : Unique s) (hs : Based g s)
    (hb : b < s.ram.systemBlks) (he : e ∈ s.ram.bmt.live) (hne : e.key ≠ b) :
    e.toBlk.toNat ≠ getMappingBlock s.ram b := by
  intro heq
  rcases getMappingBlock_cases s.ram b with hid | ⟨e', he', hk, hto⟩
  · have := (hs.entry e he).pool
    omega
  · have h1 : e = e' := List.inj_on_of_nodup_map hu.toNodup he he' (heq.trans hto)
    exact hne (h1 ▸ hk)

theorem RemapDone.unique {copyLen : Nat} {m' : Machine} (hs : Based g s) (hu : Unique s)
    (hplan : Plan g s block new (getMappingBlock s.ram block))
    (h : RemapDone g s block new (getMappingBlock s.ram block) copyLen m') :
    Unique m'.state := by
  have h1 := hplan.block_lt
  have h2 := hplan.new_pool
  have h3 := g.totalBlks_u16
  have hnew : (UInt16.ofNat new).toNat = new := toNat_ofNat_of_lt (by omega)
  have hkey : BmtEntry.key ⟨UInt16.ofNat block, UInt16.ofNat new⟩ = block :=
    key_ofNat (by omega)
  refine ⟨?_, ?_, fun e he => ?_⟩
  · show (m'.ram.bmt.live.map _).Nodup
    rw [h.live]
    exact nodup_put _ hu.fromNodup
  · show (m'.ram.bmt.live.map _).Nodup
    rw [h.live]
    refine nodup_map_put hu.toNodup fun x hx => ?_
    show x.toBlk.toNat ≠ (UInt16.ofNat new).toNat
    rw [hnew]
    exact hs.free_ne_target hx hplan.new_free
  · show isBad m'.flash _ = false
    rw [h.marks.bad]
    by_cases heq : e = ⟨UInt16.ofNat block, UInt16.ofNat new⟩
    · have hn1 := hplan.free_ne_mapped h2.1 hplan.new_free
      have hn2 : new ≠ block := by omega
      rw [heq]
      show (isBad s.flash (UInt16.ofNat new).toNat || _ == _ || _ == _) = false
      rw [hnew, (free_iff.mp hplan.new_free).1, beq_eq_false_iff_ne.mpr hn1,
        beq_eq_false_iff_ne.mpr hn2]
      rfl
    · have hold : e ∈ s.ram.bmt.live := (h.mem_live he).resolve_left heq
      have hk : e.key ≠ block := by
        have hm : e ∈ put BmtEntry.key ⟨UInt16.ofNat block, UInt16.ofNat new⟩ s.ram.bmt.live :=
          h.live ▸ he
        rw [← hkey]
        exact key_ne_of_mem_put hu.fromNodup hm heq
      have hn1 := hu.target_ne hs h1 hold hk
      have hn2 : e.toBlk.toNat ≠ block := by
        have := (hs.entry e hold).pool
        omega
      rw [hu.good e hold, beq_eq_false_iff_ne.mpr hn1, beq_eq_false_iff_ne.mpr hn2]
      rfl

end Airoha.Bmt
