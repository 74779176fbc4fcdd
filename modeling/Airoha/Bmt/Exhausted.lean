/-
Airoha.Bmt.Exhausted — remapping when there is no room.

`remap_block` uses what `find_available_block` returns before it looks at it:
minus one becomes block 0xffff in a `u16`, and goes into `bmt.table`. It adds up
to one row to `bmt.table` and two to `bbt.table` without asking how many they
have, and so do the loops of `reconstruct_from_oob`. `remapSafe_iff` says that no
remap leaves things as they were, and when the stores stay in the tables.
-/
import Airoha.Bmt.Layout

namespace Airoha.Bmt

open Airoha.Lib

/-! ## Adding rows -/

/-- Rows are added one by one to a table with room for `max` of them: a list fits when it is empty
or its last row does. -/
theorem foldlM_room {τ α ε : Type} {push : τ → α → Except ε τ} {size : τ → Nat} {max : Nat}
    (hroom : ∀ t a, size t < max → ∃ t', push t a = .ok t' ∧ size t' = size t + 1)
    (hfull : ∀ t a, max ≤ size t → ∃ e, push t a = .error e) : ∀ {as : List α} {t : τ},
    (∃ t', as.foldlM push t = .ok t') ↔ as = [] ∨ size t + as.length ≤ max := by
  intro as
  induction as with
  | nil =>
    intro t
    exact iff_of_true ⟨t, rfl⟩ (Or.inl rfl)
  | cons a as ih =>
    intro t
    simp only [List.foldlM_cons, List.length_cons, bind, Except.bind]
    rcases Nat.lt_or_ge (size t) max with hlt | hge
    · obtain ⟨u, hu, hsize⟩ := hroom t a hlt
      simp only [hu, ih, hsize]
      constructor
      · rintro (rfl | h)
        · exact Or.inr (by simpa using hlt)
        · exact Or.inr (by omega)
      · rintro (h | h)
        · cases h
        · exact Or.inr (by omega)
    · obtain ⟨e, he⟩ := hfull t a hge
      simp only [he]
      constructor
      · rintro ⟨_, h⟩
        cases h
      · rintro (h | h)
        · cases h
        · omega

theorem BmtTable.push_full {t : BmtTable} (e : BmtEntry) (h : maxBmtSize ≤ t.size.toNat) :
    t.push e = .error .tableOverflow := by
  unfold BmtTable.push
  rw [if_neg (by omega)]

theorem BbtTable.push_full {t : BbtTable} (b : UInt16) (h : maxRawBadBlockSize ≤ t.size.toNat) :
    t.push b = .error .tableOverflow := by
  unfold BbtTable.push
  rw [if_neg (by omega)]

theorem BbtTable.push_room {t : BbtTable} (b : UInt16) (h : t.size.toNat < maxRawBadBlockSize) :
    ∃ t', t.push b = .ok t' := by
  unfold BbtTable.push
  rw [if_pos h]
  exact ⟨_, rfl⟩

theorem BmtTable.foldlM_push_iff {es : List BmtEntry} {t : BmtTable} :
    (∃ t', es.foldlM BmtTable.push t = .ok t') ↔
      es = [] ∨ t.size.toNat + es.length ≤ maxBmtSize := by
  refine @foldlM_room _ _ _ BmtTable.push (fun t => t.size.toNat) maxBmtSize ?_ ?_ es t
  · intro t e h
    obtain ⟨t', ht'⟩ := BmtTable.push_room e h
    exact ⟨t', ht', (BmtTable.push_ok ht').2.2.2⟩
  · intro t e h
    exact ⟨_, BmtTable.push_full e h⟩

theorem BbtTable.foldlM_push_iff {α : Type} {row : α → UInt16} {bs : List α} {t : BbtTable} :
    (∃ t', bs.foldlM (fun t b => t.push (row b)) t = .ok t') ↔
      bs = [] ∨ t.size.toNat + bs.length ≤ maxRawBadBlockSize := by
  refine @foldlM_room _ _ _ (fun t b => BbtTable.push t (row b)) (fun t => t.size.toNat)
    maxRawBadBlockSize ?_ ?_ bs t
  · intro t b h
    obtain ⟨t', ht'⟩ := BbtTable.push_room (row b) h
    exact ⟨t', ht', (BbtTable.push_ok ht').2.2.2⟩
  · intro t b h
    exact ⟨_, BbtTable.push_full _ h⟩

/-! ## The rows of a remap -/

/-- The rows `remap_block` adds to `bbt.table`; its loop stops at the first that is one of the
two. -/
def BbtTable.added (t : BbtTable) (block mapped : UInt16) : List UInt16 :=
  let hit := t.live.find? (fun b => b == mapped || b == block)
  (if hit == some mapped then [] else [mapped]) ++
    if mapped != block && !(hit.isSome && !(hit == some mapped)) then [block] else []

theorem BbtTable.remap_eq (t : BbtTable) (block mapped : UInt16) :
    t.remap block mapped = (t.added block mapped).foldlM (fun t b => t.push b) t := by
  unfold BbtTable.remap BbtTable.added
  dsimp only
  generalize t.live.find? (fun b => b == mapped || b == block) = hit
  generalize (hit == some mapped) = seen
  generalize (mapped != block && !(hit.isSome && !seen)) = more
  cases seen <;> cases more <;> simp

/-- When nothing is added, the block is where it was and is in the table already. -/
theorem BbtTable.added_eq_nil {t : BbtTable} {block mapped : UInt16}
    (h : t.added block mapped = []) : mapped = block := by
  unfold BbtTable.added at h
  generalize t.live.find? (fun b => b == mapped || b == block) = hit at h
  rw [List.append_eq_nil_iff] at h
  obtain ⟨h1, h2⟩ := h
  have hm : (hit == some mapped) = true := by
    by_contra hm
    rw [if_neg hm] at h1
    cases h1
  by_contra hne
  simp [hm, hne] at h2

theorem BbtTable.live_remap {t t' : BbtTable} {block mapped : UInt16}
    (h : t.remap block mapped = .ok t') : t'.live = t.live ++ t.added block mapped := by
  have happend : ∀ (bs : List UInt16) (u : BbtTable),
      bs.foldlM (fun t b => BbtTable.push t b) u = .ok t' → t'.live = u.live ++ bs := by
    intro bs
    induction bs with
    | nil =>
      intro u hu
      cases hu
      simp
    | cons b bs ih =>
      intro u hu
      simp only [List.foldlM_cons, bind, Except.bind] at hu
      split at hu
      · cases hu
      · rename_i v hv
        rw [ih v hu, (BbtTable.push_ok hv).1]
        simp
  rw [BbtTable.remap_eq] at h
  exact happend _ t h

/-- The stores of a remap stay in both tables. -/
structure RemapRoom (ram : Ram) (block mapped : UInt16) : Prop where
  bmt : ram.bmt.isIn block.toNat = true ∨ ram.bmt.size.toNat < maxBmtSize
  bbt : ram.bbt.added block mapped = [] ∨
    ram.bbt.size.toNat + (ram.bbt.added block mapped).length ≤ maxRawBadBlockSize

theorem BmtTable.isIn_eq (t : BmtTable) (b : Nat) :
    t.isIn b = (t.live.findIdx? (fun e => decide (e.key = b))).isSome := by
  rw [List.findIdx?_isSome]
  rfl

theorem BmtTable.remap_iff {t : BmtTable} {block new : UInt16} :
    (∃ t', t.remap block new = .ok t') ↔
      t.isIn block.toNat = true ∨ t.size.toNat < maxBmtSize := by
  rw [BmtTable.isIn_eq]
  unfold BmtTable.remap
  cases hfind : t.live.findIdx? (fun e => decide (e.key = block.toNat)) with
  | some i => exact iff_of_true ⟨_, rfl⟩ (Or.inl rfl)
  | none =>
    simp only [Option.isSome_none, Bool.false_eq_true, false_or]
    constructor
    · rintro ⟨t', ht'⟩
      exact (BmtTable.push_ok ht').2.2.1
    · intro h
      exact BmtTable.push_room _ h

theorem BmtTable.remap_error {t : BmtTable} {block new : UInt16} {e : Fault}
    (h : t.remap block new = .error e) : e = .tableOverflow := by
  unfold BmtTable.remap at h
  split at h
  · cases h
  · unfold BmtTable.push at h
    split at h
    · cases h
    · cases h
      rfl

theorem BbtTable.remap_error {t : BbtTable} {block mapped : UInt16} {e : Fault}
    (h : t.remap block mapped = .error e) : e = .tableOverflow := by
  have hfold : ∀ (bs : List UInt16) (u : BbtTable),
      bs.foldlM (fun t b => BbtTable.push t b) u = .error e → e = .tableOverflow := by
    intro bs
    induction bs with
    | nil =>
      intro u hu
      cases hu
    | cons b bs ih =>
      intro u hu
      simp only [List.foldlM_cons, bind, Except.bind] at hu
      split at hu
      · rename_i e' he'
        unfold BbtTable.push at he'
        split at he'
        · cases he'
        · cases he'
          cases hu
          rfl
      · exact ih _ hu
  rw [BbtTable.remap_eq] at h
  exact hfold _ t h

/-! ## What the tables are left with -/

/-- The rows in use, and where the pool begins. -/
structure SameRows (r r' : Ram) : Prop where
  bmt : r'.bmt.live = r.bmt.live
  bbt : r'.bbt.live = r.bbt.live
  sys : r'.systemBlks = r.systemBlks

theorem SameRows.refl (r : Ram) : SameRows r r := ⟨rfl, rfl, rfl⟩

theorem SameRows.trans {r r' r'' : Ram} (h : SameRows r r') (h' : SameRows r' r'') :
    SameRows r r'' :=
  ⟨h'.bmt.trans h.bmt, h'.bbt.trans h.bbt, h'.sys.trans h.sys⟩

section Write

variable {g : Geometry}

theorem retryBmt_rows : ∀ {n : Nat} {m : Machine}, SameRows m.ram (retryBmt g n m).1.ram := by
  intro n
  induction n with
  | zero =>
    intro m
    unfold retryBmt
    dsimp only
    split
    · rw [ram_writeOob]
      exact SameRows.refl _
    · rw [ram_markBad, ram_writeOob]
      exact SameRows.refl _
  | succ n ih =>
    intro m
    unfold retryBmt
    dsimp only
    split
    · rw [ram_writeOob]
      exact SameRows.refl _
    · refine SameRows.trans ?_ ih
      simp only [ram_markBad, ram_writeOob]
      exact ⟨rfl, rfl, rfl⟩

theorem retryBbt_rows : ∀ {n : Nat} {m : Machine}, SameRows m.ram (retryBbt g n m).ram := by
  intro n
  induction n with
  | zero =>
    intro m
    unfold retryBbt
    dsimp only
    split
    · rw [ram_writeOob]
      exact SameRows.refl _
    · rw [ram_markBad, ram_writeOob]
      exact SameRows.refl _
  | succ n ih =>
    intro m
    unfold retryBbt
    dsimp only
    split
    · rw [ram_writeOob]
      exact SameRows.refl _
    · refine SameRows.trans ?_ ih
      simp only [ram_markBad, ram_writeOob]
      exact ⟨rfl, rfl, rfl⟩

theorem writeTables_rows (m : Machine) : SameRows m.ram (writeTables g m).ram := by
  unfold writeTables
  dsimp only
  generalize hm1 : (m.step g (.erase m.ram.bmtIndex)).step g
    (.erase (m.step g (.erase m.ram.bmtIndex)).ram.bbtIndex) = m1
  have hram : m1.ram = m.ram := by
    rw [← hm1, ram_step, ram_step]
  rw [← hram]
  split
  · exact retryBmt_rows.trans retryBbt_rows
  · exact retryBmt_rows

/-- The indexes are chosen and nothing else changes, or there is no block to choose. -/
theorem chooseIndexes_cases (f : Flash) (ram : Ram) :
    (∃ β μ, chooseIndexes g f ram = .ok { ram with bbtIndex := β, bmtIndex := μ }) ∨
      chooseIndexes g f ram = .error .noPoolBlock := by
  simp only [chooseIndexes, bind, Except.bind, pure, Except.pure, throw, throwThe,
    MonadExceptOf.throw]
  by_cases hb : ram.bbtIndex = noIndex
  · simp only [hb, if_true]
    cases findAvailableBlock g f ram false with
    | none => exact Or.inr rfl
    | some i =>
      by_cases hm : ram.bmtIndex = noIndex
      · simp only [if_pos hm]
        cases findAvailableBlock g f { ram with bbtIndex := i } true with
        | none => exact Or.inr rfl
        | some j => exact Or.inl ⟨i, j, rfl⟩
      · simp only [hm, if_false]
        exact Or.inl ⟨i, ram.bmtIndex, rfl⟩
  · simp only [hb, if_false]
    by_cases hm : ram.bmtIndex = noIndex
    · simp only [if_pos hm]
      cases findAvailableBlock g f ram true with
      | none => exact Or.inr rfl
      | some j => exact Or.inl ⟨ram.bbtIndex, j, rfl⟩
    · simp only [hm, if_false]
      exact Or.inl ⟨ram.bbtIndex, ram.bmtIndex, rfl⟩

/-- `update_bmt_bbt` keeps the rows, or finds no block for a table. -/
theorem updateBmtBbt_cases (m : Machine) :
    (∃ m', updateBmtBbt g m = .ok m' ∧ SameRows m.ram m'.ram) ∨
      updateBmtBbt g m = .error .noPoolBlock := by
  simp only [updateBmtBbt, bind, Except.bind, pure, Except.pure]
  rcases @chooseIndexes_cases g m.flash m.ram.sealed with ⟨β, μ, hchosen⟩ | hnone
  · rw [hchosen]
    refine Or.inl ⟨_, rfl, ?_⟩
    have hwritten := @writeTables_rows g
      { m with ram := { m.ram.sealed with bbtIndex := β, bmtIndex := μ } }
    exact ⟨hwritten.bmt, hwritten.bbt, hwritten.sys⟩
  · rw [hnone]
    exact Or.inr rfl

/-- All a remap can do, whichever writes fail. -/
theorem remapBlock_cases (g : Geometry) (block mapped copyLen : Nat) (m : Machine) :
    (∃ bmt bbt m₁,
      m.ram.bmt.remap (UInt16.ofNat block) (UInt16.ofNat (newBlock g m.flash m.ram)) = .ok bmt ∧
      m.ram.bbt.remap (UInt16.ofNat block) (UInt16.ofNat mapped) = .ok bbt ∧
      m₁.ram = { m.ram with bmt := bmt, bbt := bbt } ∧
      remapBlock g block mapped copyLen m = updateBmtBbt g m₁) ∨
    (remapBlock g block mapped copyLen m = .error .tableOverflow ∧
      ¬ RemapRoom m.ram (UInt16.ofNat block) (UInt16.ofNat mapped)) := by
  have hram : (if copyLen ≠ 0 then (m.step g (.erase (newBlock g m.flash m.ram))).step g
      (.copy (newBlock g m.flash m.ram) mapped copyLen)
      else m.step g (.erase (newBlock g m.flash m.ram))).ram = m.ram := by
    split <;> rfl
  simp only [remapBlock, bind, Except.bind, hram]
  cases hbmt : m.ram.bmt.remap (UInt16.ofNat block) (UInt16.ofNat (newBlock g m.flash m.ram)) with
  | error e =>
    refine Or.inr ⟨by rw [BmtTable.remap_error hbmt], fun hroom => ?_⟩
    obtain ⟨t', ht'⟩ := (@BmtTable.remap_iff m.ram.bmt (UInt16.ofNat block)
      (UInt16.ofNat (newBlock g m.flash m.ram))).mpr hroom.bmt
    rw [hbmt] at ht'
    cases ht'
  | ok bmt =>
    cases hbbt : m.ram.bbt.remap (UInt16.ofNat block) (UInt16.ofNat mapped) with
    | error e =>
      refine Or.inr ⟨by rw [BbtTable.remap_error hbbt], fun hroom => ?_⟩
      obtain ⟨t', ht'⟩ := (@BbtTable.foldlM_push_iff _ id _ m.ram.bbt).mpr hroom.bbt
      rw [BbtTable.remap_eq] at hbbt
      simp only [id, hbbt] at ht'
      cases ht'
    | ok bbt =>
      refine Or.inl ⟨bmt, bbt, _, rfl, rfl, ?_, rfl⟩
      simp only [ram_makeMapping, ram_markBad]
      split <;> simp

end Write

/-! ## A remap without room -/

/-- `remap_block(block, get_mapping_block(block), copy_len)`, with any writes failing. -/
def remapCall (g : Geometry) (block copyLen : Nat) (m : Machine) : Except Fault Machine :=
  remapBlock g block (getMappingBlock m.ram block) copyLen m

/-- No block is found, or a table is full. -/
def Exhausted (g : Geometry) (m : Machine) : Prop :=
  findAvailableBlock g m.flash m.ram false = none ∨ maxBmtSize ≤ m.ram.bmt.size.toNat ∨
    maxRawBadBlockSize ≤ m.ram.bbt.size.toNat

/-- Flash, tables and indexes are as they were. -/
structure Unchanged (m m' : Machine) : Prop where
  flash : m'.flash = m.flash
  bmt : m'.ram.bmt = m.ram.bmt
  bbt : m'.ram.bbt = m.ram.bbt
  bmtIndex : m'.ram.bmtIndex = m.ram.bmtIndex
  bbtIndex : m'.ram.bbtIndex = m.ram.bbtIndex

/-- A remap without room stores nothing outside the tables and changes nothing. -/
def RemapSafe (g : Geometry) (block copyLen : Nat) (m : Machine) : Prop :=
  Exhausted g m → ∃ m', remapCall g block copyLen m = .ok m' ∧ Unchanged m m'

section Remap

variable {g : Geometry} {m : Machine} {block : Nat}

/-- The block that is put into the table is in the pool, or is block 0xffff. -/
theorem newBlock_ge (hsys : m.ram.systemBlks ≤ g.totalBlks) :
    m.ram.systemBlks ≤ newBlock g m.flash m.ram ∧ newBlock g m.flash m.ram < 0x10000 := by
  have h16 := g.totalBlks_u16
  cases hfind : findAvailableBlock g m.flash m.ram false with
  | none =>
    rw [newBlock, hfind, Option.getD_none]
    omega
  | some i =>
    obtain ⟨-, hge, hlt, -⟩ := newBlock_spec (by rw [hfind]; rfl)
    exact ⟨hge, by omega⟩

/-- A remap that returns has its block in the table, in another place than its own. -/
theorem remapCall_ok {copyLen : Nat} {m' : Machine} (hblock : block < m.ram.systemBlks)
    (hsys : m.ram.systemBlks ≤ g.totalBlks) (h : remapCall g block copyLen m = .ok m') :
    m'.ram.systemBlks = m.ram.systemBlks ∧
      getMappingBlock m'.ram block = newBlock g m.flash m.ram ∧
      m'.ram.bbt.live = m.ram.bbt.live ++
        m.ram.bbt.added (UInt16.ofNat block) (UInt16.ofNat (getMappingBlock m.ram block)) := by
  have h16 := g.totalBlks_u16
  obtain ⟨hge, hlt⟩ := newBlock_ge hsys
  rcases remapBlock_cases g block (getMappingBlock m.ram block) copyLen m with
    ⟨bmt, bbt, m₁, hbmt, hbbt, hram, hcall⟩ | ⟨hcall, -⟩
  · rw [remapCall, hcall] at h
    rcases updateBmtBbt_cases m₁ with ⟨m₂, hm₂, hrows⟩ | hnone
    · rw [hm₂] at h
      cases h
      rw [hram] at hrows
      have hput := BmtTable.live_remap hbmt
      have hkey :
          BmtEntry.key ⟨UInt16.ofNat block, UInt16.ofNat (newBlock g m.flash m.ram)⟩ = block :=
        toNat_ofNat_of_lt (by omega)
      refine ⟨hrows.sys, ?_, ?_⟩
      · rw [@getMappingBlock_put m.ram m'.ram
          ⟨UInt16.ofNat block, UInt16.ofNat (newBlock g m.flash m.ram)⟩ hrows.sys
          (hrows.bmt.trans hput) (by omega), hkey, if_pos rfl]
        exact toNat_ofNat_of_lt hlt
      · rw [hrows.bbt]
        exact BbtTable.live_remap hbbt
    · rw [hnone] at h
      cases h
  · rw [remapCall, hcall] at h
    cases h

/-- No remap leaves things as they were. -/
theorem remapCall_changes {copyLen : Nat} {m' : Machine} (hblock : block < m.ram.systemBlks)
    (hsys : m.ram.systemBlks ≤ g.totalBlks) (h : remapCall g block copyLen m = .ok m') :
    ¬ Unchanged m m' := by
  intro hsame
  have h16 := g.totalBlks_u16
  obtain ⟨hge, hlt⟩ := newBlock_ge hsys
  obtain ⟨hsysEq, hmap, hlive⟩ := remapCall_ok hblock hsys h
  rw [hsame.bbt] at hlive
  -- nothing was added to the bad blocks, so that the block was not remapped before
  have hnil :
      m.ram.bbt.added (UInt16.ofNat block) (UInt16.ofNat (getMappingBlock m.ram block)) = [] :=
    List.self_eq_append_right.mp hlive
  have hown := BbtTable.added_eq_nil hnil
  -- but the table has it in its new place
  have hbefore : getMappingBlock m.ram block = newBlock g m.flash m.ram := by
    rw [← hmap, getMappingBlock, getMappingBlock, hsame.bmt, hsysEq]
  rw [hbefore] at hown
  have hnat := congrArg UInt16.toNat hown
  rw [toNat_ofNat_of_lt hlt, toNat_ofNat_of_lt (by omega)] at hnat
  omega

/-- The stores of a remap leave a table exactly when its rows do not fit. -/
theorem remapCall_overflow_iff {copyLen : Nat} :
    remapCall g block copyLen m = .error .tableOverflow ↔
      ¬ RemapRoom m.ram (UInt16.ofNat block) (UInt16.ofNat (getMappingBlock m.ram block)) := by
  rcases remapBlock_cases g block (getMappingBlock m.ram block) copyLen m with
    ⟨bmt, bbt, m₁, hbmt, hbbt, -, hcall⟩ | ⟨hcall, hroom⟩
  · have hroom : RemapRoom m.ram (UInt16.ofNat block)
        (UInt16.ofNat (getMappingBlock m.ram block)) := by
      constructor
      · exact BmtTable.remap_iff.mp ⟨bmt, hbmt⟩
      · rw [BbtTable.remap_eq] at hbbt
        exact (@BbtTable.foldlM_push_iff _ id _ m.ram.bbt).mp ⟨bbt, hbbt⟩
    have hne : remapCall g block copyLen m ≠ .error .tableOverflow := by
      rw [remapCall, hcall]
      rcases updateBmtBbt_cases m₁ with ⟨m₂, hm₂, -⟩ | hnone
      · rw [hm₂]
        simp
      · rw [hnone]
        simp
    exact iff_of_false hne (not_not.mpr hroom)
  · exact iff_of_true hcall hroom

end Remap

/-! ## Reconstructing the tables -/

/-- The rows the first loop of `reconstruct_from_oob` finds. -/
def oobEntries (g : Geometry) (f : Flash) (systemBlks : Nat) : List BmtEntry :=
  (poolDown g systemBlks).filterMap (oobEntry f systemBlks)

/-- The bad blocks that no pool block says it replaces. -/
def strandedBlocks (g : Geometry) (f : Flash) (systemBlks : Nat) : List Nat :=
  (List.range systemBlks).filter fun i =>
    isBadRaw f i && !(oobEntries g f systemBlks).any (fun e => e.key == i)

/-- The loops of `reconstruct_from_oob` store nothing outside the tables. -/
def ReconstructBounded (g : Geometry) (f : Flash) (systemBlks : Nat) : Prop :=
  ∃ bmt bbt, reconstructBmt g f systemBlks = .ok bmt ∧ reconstructBbt f systemBlks bmt = .ok bbt

theorem reconstructBounded_iff (g : Geometry) (f : Flash) (systemBlks : Nat) :
    ReconstructBounded g f systemBlks ↔
      (oobEntries g f systemBlks).length ≤ maxBmtSize ∧
        (strandedBlocks g f systemBlks).length ≤ maxRawBadBlockSize := by
  have hempty : ∀ {α : Type} {as : List α} {max : Nat}, as = [] ∨ 0 + as.length ≤ max ↔
      as.length ≤ max := by
    intro α as max
    constructor
    · rintro (rfl | h)
      · exact Nat.zero_le _
      · omega
    · intro h
      exact Or.inr (by omega)
  have hbmt : (∃ bmt, reconstructBmt g f systemBlks = .ok bmt) ↔
      (oobEntries g f systemBlks).length ≤ maxBmtSize := BmtTable.foldlM_push_iff.trans hempty
  have hbbt : ∀ bmt, reconstructBmt g f systemBlks = .ok bmt →
      ((∃ bbt, reconstructBbt f systemBlks bmt = .ok bbt) ↔
        (strandedBlocks g f systemBlks).length ≤ maxRawBadBlockSize) := by
    intro bmt hok
    have hisIn : ∀ i, bmt.isIn i = (oobEntries g f systemBlks).any (fun e => e.key == i) := by
      intro i
      rw [BmtTable.isIn, (reconstructBmt_ok hok).1]
      rfl
    have hfilter : (List.range systemBlks).filter (fun i => isBadRaw f i && !bmt.isIn i) =
        strandedBlocks g f systemBlks := by
      unfold strandedBlocks
      simp only [hisIn]
    rw [← hfilter]
    exact (@BbtTable.foldlM_push_iff _ UInt16.ofNat _ _).trans hempty
  constructor
  · rintro ⟨bmt, bbt, hok, hok'⟩
    exact ⟨hbmt.mp ⟨bmt, hok⟩, (hbbt bmt hok).mp ⟨bbt, hok'⟩⟩
  · rintro ⟨hrows, hblocks⟩
    obtain ⟨bmt, hok⟩ := hbmt.mpr hrows
    obtain ⟨bbt, hok'⟩ := (hbbt bmt hok).mpr hblocks
    exact ⟨bmt, bbt, hok, hok'⟩

/-! ## The result -/

/-- A remap is safe only where it has room: without, it never leaves things as they were, and a
block that was not found is put into the table as 0xffff. The stores of a remap, and of
`reconstruct_from_oob`, stay in the tables exactly when the rows fit. -/
theorem remapSafe_iff {g : Geometry} {m : Machine} {block : Nat} (copyLen : Nat)
    (hblock : block < m.ram.systemBlks) (hsys : m.ram.systemBlks ≤ g.totalBlks) :
    (RemapSafe g block copyLen m ↔ ¬ Exhausted g m) ∧
    (∀ m', findAvailableBlock g m.flash m.ram false = none → remapCall g block copyLen m = .ok m' →
      getMappingBlock m'.ram block = 0xffff) ∧
    (remapCall g block copyLen m = .error .tableOverflow ↔
      ¬ RemapRoom m.ram (UInt16.ofNat block) (UInt16.ofNat (getMappingBlock m.ram block))) ∧
    ∀ f systemBlks, ReconstructBounded g f systemBlks ↔
      (oobEntries g f systemBlks).length ≤ maxBmtSize ∧
        (strandedBlocks g f systemBlks).length ≤ maxRawBadBlockSize := by
  refine ⟨⟨?_, ?_⟩, ?_, remapCall_overflow_iff, fun f sys => reconstructBounded_iff g f sys⟩
  · intro hsafe hexhausted
    obtain ⟨m', hcall, hsame⟩ := hsafe hexhausted
    exact remapCall_changes hblock hsys hcall hsame
  · intro hroom hexhausted
    exact absurd hexhausted hroom
  · intro m' hnone hcall
    rw [(remapCall_ok hblock hsys hcall).2.1, newBlock, hnone, Option.getD_none]

/-- A chip of 25 blocks: its pool is the two blocks the tables are in. -/
def chip25 : Geometry where
  totalBlks := 25
  pgSize := 2048
  eraseSize := 131072
  totalBlks_pos := by decide
  totalBlks_u16 := by decide
  page_holds_table := sizeofBmt_le_page

/-- The erased chip after start-up. -/
theorem exhausted_chip25 : ∃ m, boot chip25 erasedFlash zeroMemory = .ok m ∧
    m.ram.systemBlks = 23 ∧ findAvailableBlock chip25 m.flash m.ram false = none := by
  have hrun : (boot chip25 erasedFlash zeroMemory >>= fun m =>
      if m.ram.systemBlks = 23 ∧ (findAvailableBlock chip25 m.flash m.ram false).isNone = true then
        .ok m else .error .noPoolBlock).toBool = true := by decide +kernel
  cases hboot : boot chip25 erasedFlash zeroMemory with
  | error e => rw [hboot] at hrun; cases hrun
  | ok m =>
    rw [hboot] at hrun
    simp only [bind, Except.bind] at hrun
    split at hrun
    · rename_i hc
      exact ⟨m, rfl, hc.1, Option.isNone_iff_eq_none.mp hc.2⟩
    · cases hrun

theorem remapSafe_chip25 : ∃ m, boot chip25 erasedFlash zeroMemory = .ok m ∧
    (RemapSafe chip25 0 2048 m ↔ ¬ Exhausted chip25 m) ∧
    (∀ m', findAvailableBlock chip25 m.flash m.ram false = none →
      remapCall chip25 0 2048 m = .ok m' → getMappingBlock m'.ram 0 = 0xffff) ∧
    (remapCall chip25 0 2048 m = .error .tableOverflow ↔
      ¬ RemapRoom m.ram (UInt16.ofNat 0) (UInt16.ofNat (getMappingBlock m.ram 0))) ∧
    ∀ f systemBlks, ReconstructBounded chip25 f systemBlks ↔
      (oobEntries chip25 f systemBlks).length ≤ maxBmtSize ∧
        (strandedBlocks chip25 f systemBlks).length ≤ maxRawBadBlockSize := by
  obtain ⟨m, hboot, hsys, -⟩ := exhausted_chip25
  exact ⟨m, hboot, remapSafe_iff 2048 (by omega) (by rw [hsys]; decide)⟩

/-- On it every remap goes wrong, from the start. -/
theorem not_remapSafe_chip25 : ∃ m, boot chip25 erasedFlash zeroMemory = .ok m ∧
    findAvailableBlock chip25 m.flash m.ram false = none ∧ ¬ RemapSafe chip25 0 2048 m := by
  obtain ⟨m, hboot, hsys, hnone⟩ := exhausted_chip25
  refine ⟨m, hboot, hnone, ?_⟩
  intro hsafe
  obtain ⟨m', hcall, hsame⟩ := hsafe (Or.inl hnone)
  exact remapCall_changes (by omega) (by rw [hsys]; decide) hcall hsame

end Airoha.Bmt
