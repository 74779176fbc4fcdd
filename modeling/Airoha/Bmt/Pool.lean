/-
Airoha.Bmt.Pool — how the pool is laid out, and what a reboot finds there.

`Housed g sys β μ f` describes the pool of a chip that was started without
mappings: the bbt is in block `β`, the bmt in block `μ`, and the blocks handed
out to remaps fill the pool from below (`frontier`). `find_available_block`
therefore always returns a block above every block that carries a mapping, so
the newest mapping of a block is the one `reconstruct_from_oob` meets first.
Where `init` has placed the tables itself (`Placed`), they are in the lowest and
the highest good block and everything outside is bad.

`Intact` says that both tables are on the flash, `Unhidden` that no other block
is taken for one of them. `boot_of_intact` is the parse path.
-/
import Airoha.Bmt.Layout

namespace Airoha.Bmt

open Airoha.Lib

/-- Where a driver has its two tables, and how its remaps fill the pool: a block that is left lies
above every block with a mapping. -/
structure Housed (g : Geometry) (sys β μ : Nat) (f : Flash) : Prop where
  start : poolStart g f = sys
  sys_pos : 0 < sys
  size : g.totalBlks - sys ≤ maxBmtSize
  bbt_ge : sys ≤ β
  bbt_lt : β < g.totalBlks
  bmt_gt : sys < μ
  bmt_lt : μ < g.totalBlks
  index_ne : μ ≠ β
  bbt_free : free f β = true
  bmt_free : free f μ = true
  frontier : ∀ x y, sys ≤ x → x < g.totalBlks → isMapped f x = true → sys ≤ y →
    y < g.totalBlks → free f y = true → y ≠ β → y ≠ μ → x < y

structure Placed (g : Geometry) (sys β μ : Nat) (f : Flash) : Prop where
  start : poolStart g f = sys
  sys_pos : 0 < sys
  size : g.totalBlks - sys ≤ maxBmtSize
  bbt_ge : sys ≤ β
  index_lt : β < μ
  bmt_lt : μ < g.totalBlks
  bbt_free : free f β = true
  bmt_free : free f μ = true
  below : ∀ i, sys ≤ i → i < β → isBad f i = true
  above : ∀ i, μ < i → i < g.totalBlks → isBad f i = true
  frontier : ∀ x y, sys ≤ x → x < g.totalBlks → isMapped f x = true → sys ≤ y →
    y < g.totalBlks → free f y = true → y ≠ β → y ≠ μ → x < y

variable {g : Geometry} {sys β μ : Nat} {f f' : Flash}

theorem Placed.housed (h : Placed g sys β μ f) : Housed g sys β μ f where
  start := h.start
  sys_pos := h.sys_pos
  size := h.size
  bbt_ge := h.bbt_ge
  bbt_lt := Nat.lt_trans h.index_lt h.bmt_lt
  bmt_gt := Nat.lt_of_le_of_lt h.bbt_ge h.index_lt
  bmt_lt := h.bmt_lt
  index_ne := Nat.ne_of_gt h.index_lt
  bbt_free := h.bbt_free
  bmt_free := h.bmt_free
  frontier := h.frontier

/-- Blocks that were bad stay bad, so the tables stay at the ends. -/
theorem Placed.of_housed (h : Placed g sys β μ f) (hh : Housed g sys β μ f')
    (hbad : ∀ x, isBad f x = true → isBad f' x = true) : Placed g sys β μ f' where
  start := hh.start
  sys_pos := hh.sys_pos
  size := hh.size
  bbt_ge := hh.bbt_ge
  index_lt := h.index_lt
  bmt_lt := hh.bmt_lt
  bbt_free := hh.bbt_free
  bmt_free := hh.bmt_free
  below i h1 h2 := hbad i (h.below i h1 h2)
  above i h1 h2 := hbad i (h.above i h1 h2)
  frontier := hh.frontier

/-- What a change of OOB bytes has to respect. -/
theorem Housed.change (h : Housed g sys β μ f)
    (hraw : ∀ x, sys ≤ x → isBadRaw f' x = isBadRaw f x)
    (hβ : free f' β = true) (hμ : free f' μ = true)
    (hfree : ∀ y, sys ≤ y → free f' y = true → free f y = true)
    (hmap : ∀ x, sys ≤ x → x < g.totalBlks → isMapped f' x = true → isMapped f x = true ∨
      ∀ y, sys ≤ y → y < g.totalBlks → free f' y = true → y ≠ β → y ≠ μ → x < y) :
    Housed g sys β μ f' where
  start := by
    rw [← h.start]
    exact poolStart_congr fun i h1 _ => hraw i (h.start ▸ h1)
  sys_pos := h.sys_pos
  size := h.size
  bbt_ge := h.bbt_ge
  bbt_lt := h.bbt_lt
  bmt_gt := h.bmt_gt
  bmt_lt := h.bmt_lt
  index_ne := h.index_ne
  bbt_free := hβ
  bmt_free := hμ
  frontier x y h1 h2 h3 h4 h5 h6 h7 h8 := by
    rcases hmap x h1 h2 h3 with hold | hnew
    · exact h.frontier x y h1 h2 hold h4 h5 (hfree y h4 h6) h7 h8
    · exact hnew y h4 h5 h6 h7 h8

theorem Housed.congr (h : Housed g sys β μ f) (hs : SameOob f f') : Housed g sys β μ f' := by
  refine h.change (fun x _ => hs.isBadRaw x) ?_ ?_ (fun y _ hy => ?_) fun x _ _ hx => Or.inl ?_
  · rw [hs.free]; exact h.bbt_free
  · rw [hs.free]; exact h.bmt_free
  · rw [hs.free] at hy; exact hy
  · rw [hs.isMapped] at hx; exact hx

theorem Placed.congr (h : Placed g sys β μ f) (hs : SameOob f f') : Placed g sys β μ f' :=
  h.of_housed (h.housed.congr hs) fun x hx => by rw [hs.isBad]; exact hx

/-! ## The indexes `init` finds -/

section Found

variable {ram : Ram} (h : Placed g sys β μ f) (hsys : ram.systemBlks = sys)

include h hsys

theorem Placed.bbt_found (hb : ram.bbtIndex = noIndex) (hm : ram.bmtIndex = noIndex) :
    scanUp (available f ram) ram.systemBlks (g.totalBlks - ram.systemBlks) = some β := by
  have h1 := h.bbt_ge
  have h2 := h.index_lt
  have h3 := h.bmt_lt
  have h16 := g.totalBlks_u16
  have hno : noIndex = 0xffff := rfl
  rw [hsys]
  refine scanUp_eq_some_iff.mpr ⟨h1, by omega, ?_, fun j hj1 hj2 => ?_⟩
  · rw [available_iff, hb, hm]
    exact ⟨h.bbt_free, by omega, by omega⟩
  · have hbad := h.below j hj1 hj2
    simp [available, hbad]

theorem Placed.bmt_found (hb : ram.bbtIndex = β) (hm : ram.bmtIndex = noIndex) :
    scanDown (available f ram) (g.totalBlks - 1) (g.totalBlks - ram.systemBlks) = some μ := by
  have h1 := h.bbt_ge
  have h2 := h.index_lt
  have h3 := h.bmt_lt
  have h16 := g.totalBlks_u16
  have hno : noIndex = 0xffff := rfl
  rw [hsys]
  refine (scanDown_eq_some_iff (by omega)).mpr ⟨by omega, by omega, ?_, fun j hj1 hj2 => ?_⟩
  · rw [available_iff, hb, hm]
    exact ⟨h.bmt_free, by omega, by omega⟩
  · have hbad := h.above j hj1 (by omega)
    simp [available, hbad]

end Found

/-- On a chip without mappings the tables go to the two ends of the good pool blocks. -/
theorem Rebuilt.placed {ram : Ram} {m' : Machine} (hno : NoMappings g f)
    (hstart : ram.systemBlks = poolStart g f) (hsize : g.totalBlks - poolStart g f ≤ maxBmtSize)
    (hb : ram.bbtIndex = noIndex) (hm : ram.bmtIndex = noIndex) (h : Rebuilt g f ram β μ m') :
    Placed g (poolStart g f) β μ f := by
  have hlt := poolStart_lt g f
  have h16 := g.totalBlks_u16
  have hnoidx : noIndex = 0xffff := rfl
  have hβ := h.bbt_chosen
  rw [if_pos hb] at hβ
  obtain ⟨hβ1, hβ2, hβ3, hβ4⟩ := scanUp_eq_some_iff.mp hβ
  obtain ⟨hμ1, hμ2, hμ3, hμ4⟩ := (scanDown_eq_some_iff (by omega)).mp h.bmt_chosen
  obtain ⟨hβfree, -⟩ := available_iff.mp hβ3
  obtain ⟨hμfree, -, hne⟩ := available_iff.mp hμ3
  have hne' : μ ≠ β := hne
  -- a block that was not available, but is no index, is bad
  have hbad : ∀ (r : Ram) (i : Nat), available f r i = false → i ≠ r.bmtIndex → i ≠ r.bbtIndex →
      i < g.totalBlks → isBad f i = true := by
    intro r i hi h1 h2 h3
    by_contra hnb
    have hfree : free f i = true := free_iff.mpr ⟨by simpa using hnb, hno i h3⟩
    rw [available_iff.mpr ⟨hfree, h1, h2⟩] at hi
    cases hi
  have hle : β ≤ μ := by
    by_contra hlt'
    have hμ' := hβ4 μ (by omega) (by omega)
    have hbad' := hbad ram μ hμ' (by rw [hm]; omega) (by rw [hb]; omega) (by omega)
    rw [(free_iff.mp hμfree).1] at hbad'
    cases hbad'
  refine ⟨rfl, ?_, hsize, by omega, by omega, by omega, hβfree, hμfree, fun i h1 h2 => ?_,
    fun i h1 h2 => ?_, fun x y h1 h2 h3 => ?_⟩
  · rw [← hstart]
    exact h.sys_pos
  · exact hbad ram i (hβ4 i (by omega) h2) (by rw [hm]; omega) (by rw [hb]; omega) (by omega)
  · refine hbad { ram with bbtIndex := β } i (hμ4 i h1 (by omega)) ?_ ?_ h2
    · show i ≠ ram.bmtIndex
      rw [hm]
      omega
    · show i ≠ β
      omega
  · rw [hno x h2] at h3
    cases h3

/-! ## Both tables on the flash -/

theorem BmtTable.accepted_congr {t : BmtTable} {n : Nat} (hn : n ≤ maxBmtSize)
    (b b' : Nat → UInt8) : t.accepted b n = t.accepted b' n := by
  have hsum : t.computeChecksum b n = t.computeChecksum b' n := by
    unfold BmtTable.computeChecksum
    refine List.foldl_ext _ _ _ fun c i hi => ?_
    have hi' : i < maxBmtSize * 4 := by
      have := List.mem_range.mp hi
      omega
    simp only [hi', if_true]
  unfold BmtTable.accepted
  rw [hsum]

structure Intact (g : Geometry) (sys β μ : Nat) (f : Flash) (t : BmtTable) (u : BbtTable) :
    Prop where
  bmt : BmtTable.decode (f μ).data = t
  bbt : BbtTable.decode (f β).data = u
  bmt_accepted : ∀ beyond, t.accepted beyond (g.totalBlks - sys) = true
  bbt_accepted : u.accepted = true

/-- The globals of a driver that read both tables. -/
def parsedRam (g : Geometry) (f : Flash) (beyond : Nat → UInt8) (β μ : Nat) : Ram :=
  ((setupRam g f beyond).withBbt f β).withBmt f μ

/-- `parse_bbt` and `parse_bmt` stop at no block before they come to the tables. -/
structure Unhidden (g : Geometry) (sys β μ : Nat) (f : Flash) : Prop where
  below : ∀ i, sys ≤ i → i < β → bbtAt f i = false
  above : ∀ i, μ < i → i < g.totalBlks → ∀ beyond, bmtAt beyond (g.totalBlks - sys) f i = false

theorem Placed.unhidden (h : Placed g sys β μ f) : Unhidden g sys β μ f where
  below i h1 h2 := by
    unfold bbtAt
    rw [h.below i h1 h2]
    rfl
  above i h1 h2 beyond := by
    unfold bmtAt
    rw [h.above i h1 h2]
    rfl

theorem parsed_of_intact {t : BmtTable} {u : BbtTable} (h : Housed g sys β μ f)
    (hu : Unhidden g sys β μ f) (hi : Intact g sys β μ f t u) (beyond : Nat → UInt8) :
    parseBbt g f (setupRam g f beyond).systemBlks = some β ∧
      parseBmt g f (setupRam g f beyond) = some μ := by
  have h1 := h.bbt_ge
  have h2 := h.bbt_lt
  have h3 := h.bmt_gt
  have h4 := h.bmt_lt
  have hsys : (setupRam g f beyond).systemBlks = sys := by
    rw [setupRam_systemBlks, h.start]
  have hblks : (setupRam g f beyond).bmtBlks = g.totalBlks - sys := by
    rw [setupRam_bmtBlks, h.start]
  constructor
  · rw [hsys]
    refine scanUp_eq_some_iff.mpr ⟨h1, by omega, ?_, hu.below⟩
    unfold bbtAt
    rw [(free_iff.mp h.bbt_free).1, hi.bbt, hi.bbt_accepted]
    rfl
  · unfold parseBmt
    rw [hsys]
    refine (scanDown_eq_some_iff (by omega)).mpr
      ⟨by omega, by omega, ?_, fun j hj1 hj2 => ?_⟩
    · unfold bmtAt
      rw [(free_iff.mp h.bmt_free).1, hi.bmt, hblks, hi.bmt_accepted]
      rfl
    · rw [hblks]
      exact hu.above j hj1 (by omega) _

theorem boot_of_intact {t : BmtTable} {u : BbtTable} (h : Housed g sys β μ f)
    (hu : Unhidden g sys β μ f) (hi : Intact g sys β μ f t u) (beyond : Nat → UInt8) :
    boot g f beyond = .ok (State.machine ⟨f, parsedRam g f beyond β μ⟩) :=
  boot_eq_of_parsed (parsed_of_intact h hu hi beyond).1 (parsed_of_intact h hu hi beyond).2

/-! ## Writing the tables -/

/-- The data of an erased block after `t` was written to it. -/
theorem decode_programmed_bmt (t : BmtTable) :
    BmtTable.decode (programData (fun _ => 0xff) sizeofBmt t.byte) = t := by
  refine BmtTable.decode_eq fun o ho => ?_
  unfold programData
  rw [if_pos ho, and_ff]

theorem decode_programmed_bbt (t : BbtTable) :
    BbtTable.decode (programData (fun _ => 0xff) sizeofBbt t.byte) = t := by
  refine BbtTable.decode_eq fun o ho => ?_
  unfold programData
  rw [if_pos ho, and_ff]

theorem bmt_data_tableOps {ram : Ram} (h : ram.bmtIndex < g.totalBlks)
    (hne : ram.bmtIndex ≠ ram.bbtIndex) :
    (applyAll g (tableOps ram) f ram.bmtIndex).data =
      programData (fun _ => 0xff) sizeofBmt ram.bmt.byte := by
  have e1 : ∀ f : Flash, (FlashOp.erase ram.bbtIndex).apply g f ram.bmtIndex = f ram.bmtIndex :=
    fun f => FlashOp.apply_of_ne hne
  have e2 : ∀ f : Flash, (FlashOp.writeBbt ram.bbtIndex ram.bbt).apply g f ram.bmtIndex =
      f ram.bmtIndex := fun f => FlashOp.apply_of_ne hne
  simp only [tableOps, applyAll_cons, applyAll_nil]
  rw [e2, apply_writeBmt h, e1, apply_erase h]

theorem bbt_data_tableOps {ram : Ram} (h : ram.bbtIndex < g.totalBlks)
    (hne : ram.bmtIndex ≠ ram.bbtIndex) :
    (applyAll g (tableOps ram) f ram.bbtIndex).data =
      programData (fun _ => 0xff) sizeofBbt ram.bbt.byte := by
  have e1 : ∀ f : Flash, (FlashOp.writeBmt ram.bmtIndex ram.bmt).apply g f ram.bbtIndex =
      f ram.bbtIndex := fun f => FlashOp.apply_of_ne hne.symm
  simp only [tableOps, applyAll_cons, applyAll_nil]
  rw [apply_writeBbt h, e1, apply_erase h]

/-- The globals `update_bmt_bbt` writes tables from. -/
structure Sealed (g : Geometry) (sys β μ : Nat) (ram : Ram) : Prop where
  sys_eq : ram.systemBlks = sys
  blks : ram.bmtBlks = g.totalBlks - sys
  bmt_index : ram.bmtIndex = μ
  bbt_index : ram.bbtIndex = β
  bmt_accepted : ram.bmt.accepted ram.beyond ram.bmtBlks = true
  bbt_accepted : ram.bbt.accepted = true

theorem intact_tableOps {ram : Ram} (h : Housed g sys β μ f) (hr : Sealed g sys β μ ram) :
    Intact g sys β μ (applyAll g (tableOps ram) f) ram.bmt ram.bbt := by
  have h1 := h.bbt_lt
  have h2 := h.index_ne
  have h3 := h.bmt_lt
  have hi1 := hr.bmt_index
  have hi2 := hr.bbt_index
  refine ⟨?_, ?_, fun beyond => ?_, hr.bbt_accepted⟩
  · rw [← hi1, bmt_data_tableOps (by omega) (by omega)]
    exact decode_programmed_bmt _
  · rw [← hi2, bbt_data_tableOps (by omega) (by omega)]
    exact decode_programmed_bbt _
  · have hacc := hr.bmt_accepted
    rw [hr.blks] at hacc
    rw [BmtTable.accepted_congr h.size beyond ram.beyond]
    exact hacc

theorem sealed_of_signatures {ram : Ram} (h1 : ram.systemBlks = sys)
    (h2 : ram.bmtBlks = g.totalBlks - sys) (h3 : ram.bmtIndex = μ) (h4 : ram.bbtIndex = β)
    (h5 : ram.bmt.signature = bmtSignature) (h6 : ram.bbt.signature = bbtSignature) :
    Sealed g sys β μ ram.sealed where
  sys_eq := h1
  blks := h2
  bmt_index := h3
  bbt_index := h4
  bmt_accepted := BmtTable.accepted_sealed h5
  bbt_accepted := BbtTable.accepted_sealed h6

theorem RemapDone.sealed {s : State} {block new mapped copyLen : Nat} {m' : Machine}
    (h : RemapDone g s block new mapped copyLen m') (hs : Sealed g sys β μ s.ram) :
    Sealed g sys β μ m'.ram := by
  obtain ⟨bmt, bbt, h1, h2, hram⟩ := h.ram
  rw [hram]
  refine sealed_of_signatures hs.sys_eq hs.blks hs.bmt_index hs.bbt_index ?_ ?_
  · rw [h1]
    exact accepted_signature hs.bmt_accepted
  · rw [h2]
    exact bbt_accepted_signature hs.bbt_accepted

theorem Rebuilt.sealed {ram : Ram} {m' : Machine} (h : Rebuilt g f ram β μ m')
    (h1 : ram.systemBlks = sys) (h2 : ram.bmtBlks = g.totalBlks - sys) :
    Sealed g sys β μ m'.ram := by
  obtain ⟨bmt, bbt, hbmt, hbbt, hram⟩ := h.tables
  rw [hram]
  exact ⟨h1, h2, rfl, rfl, BmtTable.accepted_sealed (reconstructBmt_ok hbmt).2,
    BbtTable.accepted_sealed (reconstructBbt_ok hbbt).1⟩

/-! ## The newest mapping wins -/

theorem target_congr {b : Nat} (hsys : sys ≤ g.totalBlks)
    (h : ∀ i, sys ≤ i → i < g.totalBlks → owns f' b i = owns f b i) :
    target g f' sys b = target g f sys b := by
  have hpos := g.totalBlks_pos
  unfold target
  rw [scanDown_congr (by omega) fun i h1 h2 => h i (by omega) (by omega)]

theorem SameOob.target (hs : SameOob f f') (b : Nat) : target g f' sys b = target g f sys b := by
  have howns : owns f' b = owns f b := by
    funext i
    unfold owns
    rw [hs.isBad, hs.mappedBlock]
  unfold Bmt.target
  rw [howns]

theorem target_eq_of_newest {b i : Nat} (hb : b < sys) (hi : sys ≤ i) (hlt : i < g.totalBlks)
    (ho : owns f b i = true) (hnew : ∀ j, i < j → j < g.totalBlks → owns f b j = false) :
    target g f sys b = i := by
  have hscan : scanDown (owns f b) (g.totalBlks - 1) (g.totalBlks - sys) = some i :=
    (scanDown_eq_some_iff (by omega)).mpr
      ⟨by omega, by omega, ho, fun j h1 h2 => hnew j h1 (by omega)⟩
  unfold target
  rw [if_pos hb, hscan]
  rfl

/-- A block without an owner stays in place. -/
theorem exists_owns_of_target_ne {b : Nat} (hsys : sys ≤ g.totalBlks)
    (h : target g f sys b ≠ b) :
    b < sys ∧ sys ≤ target g f sys b ∧ target g f sys b < g.totalBlks ∧
      owns f b (target g f sys b) = true := by
  have hpos := g.totalBlks_pos
  unfold target at h ⊢
  by_cases hb : b < sys
  · rw [if_pos hb] at h ⊢
    cases hscan : scanDown (owns f b) (g.totalBlks - 1) (g.totalBlks - sys) with
    | none => rw [hscan] at h; exact absurd rfl h
    | some i =>
      obtain ⟨h1, h2, h3, -⟩ := (scanDown_eq_some_iff (by omega)).mp hscan
      show b < sys ∧ sys ≤ i ∧ i < g.totalBlks ∧ owns f b i = true
      exact ⟨hb, by omega, by omega, h3⟩
  · rw [if_neg hb] at h
    exact absurd rfl h

/-- Without mappings every block is in place. -/
theorem target_of_noMappings (hno : NoMappings g f) (hsys : sys ≤ g.totalBlks) (b : Nat) :
    target g f sys b = b := by
  by_contra hne
  obtain ⟨h1, -, h3, h4⟩ := exists_owns_of_target_ne hsys hne
  have h16 := g.totalBlks_u16
  unfold owns at h4
  simp only [Bool.and_eq_true, beq_iff_eq] at h4
  have hmap : isMapped f (target g f sys b) = true :=
    isMapped_of_mappedBlock rfl (by omega)
  rw [hno _ h3] at hmap
  cases hmap

end Airoha.Bmt
