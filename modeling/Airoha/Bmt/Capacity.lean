/-
Airoha.Bmt.Capacity — the size of the pool.

`variable_setup` gives the user seven eighths of the blocks whatever the chip
looks like, and takes for the pool as many blocks from the end as it needs to
find eight good ones in a hundred. `lastBlk_ge_iff` says where that ends.
`poolRight_iff`: the user area stays below the pool, and the pool within the 250
rows of `bmt.table`, exactly when the blocks behind both bounds have enough good
ones.
-/
import Airoha.Bmt.Startup

namespace Airoha.Bmt

/-! ## Where the scan ends -/

/-- The good blocks from `lo` up to `hi`. -/
def goodBlocks (bad : Nat → Bool) (lo hi : Nat) : Nat :=
  ((Finset.Ico lo hi).filter fun i => bad i = false).card

section Scan

variable {bad : Nat → Bool} {lo hi : Nat}

theorem goodBlocks_empty (h : hi ≤ lo) : goodBlocks bad lo hi = 0 := by
  rw [goodBlocks, Finset.Ico_eq_empty (by omega)]
  rfl

/-- The last block counts if it is good. -/
theorem goodBlocks_succ (h : lo ≤ hi) :
    goodBlocks bad lo (hi + 1) = goodBlocks bad lo hi + if bad hi = false then 1 else 0 := by
  have hinsert : Finset.Ico lo (hi + 1) = insert hi (Finset.Ico lo hi) := by
    ext k
    simp only [Finset.mem_Ico, Finset.mem_insert]
    omega
  unfold goodBlocks
  rw [hinsert, Finset.filter_insert]
  by_cases hb : bad hi = false
  · rw [if_pos hb, if_pos hb, Finset.card_insert_of_notMem (by simp)]
  · rw [if_neg hb, if_neg hb, Nat.add_zero]

/-- The scan ends at `lo` or above when it finds what it needs down to `lo`. -/
theorem lastBlk_ge_iff {need : Nat} (hlo : 0 < lo) : ∀ {l v : Nat}, v < need → lo ≤ l + 1 →
    (lo ≤ lastBlk bad need l v ↔ need ≤ v + goodBlocks bad lo (l + 1)) := by
  intro l
  induction l with
  | zero =>
    intro v hv hl
    have hempty := @goodBlocks_empty bad lo (0 + 1) (by omega)
    rw [lastBlk, hempty]
    omega
  | succ l ih =>
    intro v hv hl
    rcases Nat.eq_or_lt_of_le hl with heq | hlt
    · -- nothing is counted yet, and the scan never goes up
      have hle := lastBlk_le bad need (l + 1) v
      have hempty := @goodBlocks_empty bad lo (l + 1 + 1) (by omega)
      rw [hempty]
      omega
    · rw [goodBlocks_succ (by omega)]
      unfold lastBlk
      by_cases hb : bad (l + 1) = true
      · have hih := ih hv (by omega)
        simp [hb, hih]
      · have hgood : bad (l + 1) = false := by simpa using hb
        rw [if_neg hb, if_pos hgood]
        by_cases hneed : v + 1 = need
        · rw [if_pos hneed]
          omega
        · have hih := @ih (v + 1) (by omega) (by omega)
          rw [if_neg hneed, hih]
          omega

/-- With nothing to find the scan runs to the first block. -/
theorem lastBlk_zero : ∀ {l v : Nat}, lastBlk bad 0 l v = 0 := by
  intro l
  induction l with
  | zero =>
    intro v
    rfl
  | succ l ih =>
    intro v
    unfold lastBlk
    split
    · exact ih
    · rw [if_neg (by omega)]
      exact ih

end Scan

/-! ## What is asked of the pool -/

/-- `need_valid_block_num` -/
def needValidBlocks (g : Geometry) : Nat := g.totalBlks * 8 / 100

/-- What is asked of the globals `variable_setup` leaves. -/
structure PoolRight (g : Geometry) (f : Flash) (ram : Ram) : Prop where
  user : ∀ a < ram.mtdSize, a / g.eraseSize < ram.systemBlks
  good : needValidBlocks g ≤ goodBlocks (isBadRaw f) ram.systemBlks g.totalBlks
  table : ram.bmtBlks ≤ maxBmtSize
  -- what `bmt_checksum` reads of `bmt.table`, four bytes a row
  checksum : ∀ i < ram.bmtBlks * 4, i < maxBmtSize * 4

/-- The blocks that `mtd->size` covers. -/
def userBlks (g : Geometry) : Nat :=
  ((g.totalBlks - g.totalBlks / 8) * g.eraseSize % 2 ^ 32 + g.eraseSize - 1) / g.eraseSize

/-- Where the pool may begin: behind the user area, and 250 blocks from the end. -/
def poolLimit (g : Geometry) : Nat := max (userBlks g) (g.totalBlks - maxBmtSize)

/-- Enough of the blocks from there on are good. -/
def PoolFits (g : Geometry) (f : Flash) : Prop :=
  needValidBlocks g ≤ goodBlocks (isBadRaw f) (poolLimit g) g.totalBlks ∧
    (needValidBlocks g = 0 → poolLimit g = 0)

section Setup

variable {g : Geometry} {f : Flash}

theorem userBlks_le (g : Geometry) : userBlks g ≤ g.totalBlks := by
  unfold userBlks
  rcases Nat.eq_zero_or_pos g.eraseSize with h0 | hpos
  · rw [h0, Nat.div_zero]
    exact Nat.zero_le _
  · have hmod := Nat.mod_le ((g.totalBlks - g.totalBlks / 8) * g.eraseSize) (2 ^ 32)
    have hmul : (g.totalBlks - g.totalBlks / 8) * g.eraseSize ≤ g.totalBlks * g.eraseSize :=
      Nat.mul_le_mul_right _ (Nat.sub_le _ _)
    refine Nat.le_of_lt_succ ((Nat.div_lt_iff_lt_mul hpos).mpr ?_)
    rw [Nat.succ_mul]
    omega

/-- All addresses below the size are in blocks below `n`. -/
theorem user_iff (g : Geometry) (n : Nat) :
    (∀ a < (g.totalBlks - g.totalBlks / 8) * g.eraseSize % 2 ^ 32, a / g.eraseSize < n) ↔
      userBlks g ≤ n := by
  unfold userBlks
  obtain ⟨size, hsize⟩ : ∃ size, (g.totalBlks - g.totalBlks / 8) * g.eraseSize % 2 ^ 32 = size :=
    ⟨_, rfl⟩
  rw [hsize]
  rcases Nat.eq_zero_or_pos g.eraseSize with h0 | hpos
  · have hzero : size = 0 := by
      rw [← hsize, h0]
      rfl
    rw [hzero, h0]
    simp
  · rcases Nat.eq_zero_or_pos size with hz | hsz
    · have hdiv : (0 + g.eraseSize - 1) / g.eraseSize = 0 := Nat.div_eq_of_lt (by omega)
      rw [hz, hdiv]
      simp
    · have hlast : (size + g.eraseSize - 1) / g.eraseSize = (size - 1) / g.eraseSize + 1 := by
        have hsum : size + g.eraseSize - 1 = size - 1 + g.eraseSize := by omega
        rw [hsum, Nat.add_div_right _ hpos]
      rw [hlast]
      constructor
      · intro h
        exact h (size - 1) (by omega)
      · intro h a ha
        have hle : a / g.eraseSize ≤ (size - 1) / g.eraseSize := Nat.div_le_div_right (by omega)
        omega

theorem variableSetup_systemBlks (ram : Ram) :
    (variableSetup g f ram).systemBlks = poolStart g f := by
  have hlt := poolStart_lt g f
  have hdef : (variableSetup g f ram).systemBlks = g.totalBlks - (g.totalBlks - poolStart g f) :=
    rfl
  rw [hdef]
  omega

theorem variableSetup_bmtBlks (ram : Ram) :
    (variableSetup g f ram).bmtBlks = g.totalBlks - poolStart g f := rfl

/-- The pool begins at `lo` or above. -/
theorem poolStart_ge_iff {lo : Nat} (hlo : 0 < lo) (hle : lo ≤ g.totalBlks)
    (hneed : 0 < needValidBlocks g) :
    lo ≤ poolStart g f ↔ needValidBlocks g ≤ goodBlocks (isBadRaw f) lo g.totalBlks := by
  have hpos := g.totalBlks_pos
  have hlast : g.totalBlks - 1 + 1 = g.totalBlks := by omega
  have hiff := @lastBlk_ge_iff (isBadRaw f) lo (needValidBlocks g) hlo (g.totalBlks - 1) 0 hneed
    (by omega)
  rwa [hlast, Nat.zero_add] at hiff

/-- The user area is below the pool, the pool has its good blocks and fits the table, exactly when
the blocks from `poolLimit` on have enough good ones. -/
theorem poolRight_iff (g : Geometry) (f : Flash) (ram : Ram) :
    PoolRight g f (variableSetup g f ram) ↔ PoolFits g f := by
  have hlt := poolStart_lt g f
  have hsize : (variableSetup g f ram).mtdSize =
      (g.totalBlks - g.totalBlks / 8) * g.eraseSize % 2 ^ 32 := by
    rw [variableSetup, Nat.mul_one]
  have hsys := @variableSetup_systemBlks g f ram
  have hblks := @variableSetup_bmtBlks g f ram
  have hright : PoolRight g f (variableSetup g f ram) ↔ poolLimit g ≤ poolStart g f ∧
      needValidBlocks g ≤ goodBlocks (isBadRaw f) (poolStart g f) g.totalBlks := by
    constructor
    · intro h
      have huser := h.user
      rw [hsize, hsys, user_iff] at huser
      have htable := h.table
      rw [hblks] at htable
      have hgood := h.good
      rw [hsys] at hgood
      exact ⟨max_le huser (by omega), hgood⟩
    · rintro ⟨hlimit, hgood⟩
      obtain ⟨huser, htable⟩ := max_le_iff.mp hlimit
      have hfits : (variableSetup g f ram).bmtBlks ≤ maxBmtSize := by
        rw [hblks]
        omega
      refine ⟨?_, ?_, hfits, ?_⟩
      · rw [hsize, hsys, user_iff]
        exact huser
      · rw [hsys]
        exact hgood
      · intro i hi
        exact lt_of_lt_of_le hi (Nat.mul_le_mul_right 4 hfits)
  rw [hright]
  unfold PoolFits
  have hlimit : poolLimit g ≤ g.totalBlks := max_le (userBlks_le g) (Nat.sub_le _ _)
  rcases Nat.eq_zero_or_pos (needValidBlocks g) with hzero | hneed
  · have hstart : poolStart g f = 0 := by
      have hdef : poolStart g f = lastBlk (isBadRaw f) (needValidBlocks g) (g.totalBlks - 1) 0 :=
        rfl
      rw [hdef, hzero, lastBlk_zero]
    rw [hstart, hzero]
    simp
  · have hne : needValidBlocks g ≠ 0 := by omega
    simp only [hne, false_imp_iff, and_true]
    rcases Nat.eq_zero_or_pos (poolLimit g) with hl0 | hlpos
    · rw [hl0]
      rcases Nat.eq_zero_or_pos (poolStart g f) with hs0 | hspos
      · rw [hs0]
        simp
      · -- what the scan found from its end on, it found from the first block on
        have hfound := (poolStart_ge_iff hspos (Nat.le_of_lt hlt) hneed).mp (Nat.le_refl _)
        have hmono : goodBlocks (isBadRaw f) (poolStart g f) g.totalBlks ≤
            goodBlocks (isBadRaw f) 0 g.totalBlks :=
          Finset.card_le_card
            (Finset.filter_subset_filter _ (Finset.Ico_subset_Ico_left (by omega)))
        exact iff_of_true ⟨Nat.zero_le _, hfound⟩ (le_trans hfound hmono)
    · rw [poolStart_ge_iff hlpos hlimit hneed]
      constructor
      · exact fun h => h.1
      · intro h
        have hstart := (poolStart_ge_iff hlpos hlimit hneed).mpr h
        exact ⟨h, (poolStart_ge_iff (by omega) (Nat.le_of_lt hlt) hneed).mp (Nat.le_refl _)⟩

end Setup

/-- A chip of 16 blocks. -/
def chip16 : Geometry where
  totalBlks := 16
  pgSize := 2048
  eraseSize := 131072
  totalBlks_pos := by decide
  totalBlks_u16 := by decide
  page_holds_table := sizeofBmt_le_page

/-- Its last two blocks are bad. -/
def badEndFlash : Flash := fun b =>
  ⟨fun _ => 0xff, if 14 ≤ b then ⟨0x00, 0xff, 0xff, 0xff⟩ else Oob.blank⟩

/-- The pool is the last three blocks, and the user has fourteen. -/
theorem not_poolRight_badEnd :
    ¬ PoolRight chip16 badEndFlash (variableSetup chip16 badEndFlash (Ram.boot fun _ => 0)) := by
  intro h
  have hlast := h.user (13 * 131072) (by decide)
  revert hlast
  decide

end Airoha.Bmt
