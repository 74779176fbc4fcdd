/-
Airoha.Bmt.Startup — what `init` makes of the flash it finds.

`variable_setup` computes the pool boundary from the raw bad marks;
`lastBlk_congr` says that only the marks above the boundary matter, which is
why the marks of `remap_block` do not move it. `boot_cases` splits `init`
into its two paths. On the parse path the tables come from the flash
(`parsed_indexes`), on the other one `reconstruct_from_oob` reads the
mapping off the OOB bytes: block `b` goes to `target f sys b`, the highest
good pool block that names it (`lookup_oobEntries`).
-/
import Airoha.Bmt.Remap

namespace Airoha.Bmt

open Airoha.Lib

variable {g : Geometry} {f : Flash}

/-! ## The pool boundary -/

theorem lastBlk_le (bad : Nat → Bool) (need : Nat) : ∀ l v, lastBlk bad need l v ≤ l
  | 0, _ => Nat.le_refl 0
  | l + 1, v => by
      unfold lastBlk
      split
      · exact Nat.le_succ_of_le (lastBlk_le bad need l v)
      · split
        · exact Nat.le_refl _
        · exact Nat.le_succ_of_le (lastBlk_le bad need l (v + 1))

/-- The loop looks at no block below the one it returns. -/
theorem lastBlk_congr {bad bad' : Nat → Bool} {need : Nat} : ∀ l v,
    (∀ i, lastBlk bad need l v ≤ i → i ≤ l → bad' i = bad i) →
    lastBlk bad' need l v = lastBlk bad need l v
  | 0, _, _ => rfl
  | l + 1, v, h => by
      have h1 : bad' (l + 1) = bad (l + 1) := h _ (lastBlk_le bad need (l + 1) v) (Nat.le_refl _)
      unfold lastBlk at h ⊢
      rw [h1]
      by_cases hb : bad (l + 1) = true
      · simp only [hb, if_true] at h ⊢
        exact lastBlk_congr l v fun i hi hl => h i hi (by omega)
      · rw [if_neg hb] at h
        rw [if_neg hb, if_neg hb]
        by_cases hn : v + 1 = need
        · rw [if_pos hn, if_pos hn]
        · rw [if_neg hn] at h
          rw [if_neg hn, if_neg hn]
          exact lastBlk_congr l (v + 1) fun i hi hl => h i hi (by omega)

/-- The first block of the pool. -/
def poolStart (g : Geometry) (f : Flash) : Nat :=
  lastBlk (isBadRaw f) (g.totalBlks * 8 / 100) (g.totalBlks - 1) 0

theorem poolStart_lt (g : Geometry) (f : Flash) : poolStart g f < g.totalBlks := by
  have h1 := lastBlk_le (isBadRaw f) (g.totalBlks * 8 / 100) (g.totalBlks - 1) 0
  have h2 := g.totalBlks_pos
  unfold poolStart
  omega

theorem poolStart_congr {f' : Flash}
    (h : ∀ i, poolStart g f ≤ i → i < g.totalBlks → isBadRaw f' i = isBadRaw f i) :
    poolStart g f' = poolStart g f := by
  have hpos := g.totalBlks_pos
  exact lastBlk_congr _ _ fun i h1 h2 => h i h1 (by omega)

/-- The globals after `variable_setup` at power-up. -/
def setupRam (g : Geometry) (f : Flash) (beyond : Nat → UInt8) : Ram :=
  variableSetup g f (Ram.boot beyond)

theorem setupRam_systemBlks (g : Geometry) (f : Flash) (beyond : Nat → UInt8) :
    (setupRam g f beyond).systemBlks = poolStart g f := by
  have h := poolStart_lt g f
  show g.totalBlks - (g.totalBlks - poolStart g f) = poolStart g f
  omega

theorem setupRam_bmtBlks (g : Geometry) (f : Flash) (beyond : Nat → UInt8) :
    (setupRam g f beyond).bmtBlks = g.totalBlks - poolStart g f := rfl

/-! ## The two paths of `init` -/

/-- The globals after a successful `parse_bbt`. -/
def Ram.withBbt (ram : Ram) (f : Flash) (i : Nat) : Ram :=
  { ram with bbt := BbtTable.decode (f i).data, bbtIndex := i }

/-- The globals after a successful `parse_bmt`. -/
def Ram.withBmt (ram : Ram) (f : Flash) (j : Nat) : Ram :=
  { ram with bmt := BmtTable.decode (f j).data, bmtIndex := j }

/-- The globals `reconstruct_from_oob` starts with: `parse_bbt` may have set `bbt_index`. -/
def Unparsed (g : Geometry) (f : Flash) (ram ram' : Ram) : Prop :=
  (parseBbt g f ram.systemBlks = none ∧ ram' = ram) ∨
    ∃ i, parseBbt g f ram.systemBlks = some i ∧ parseBmt g f ram = none ∧
      ram' = ram.withBbt f i

theorem boot_eq_of_parsed {beyond : Nat → UInt8} {i j : Nat}
    (hi : parseBbt g f (setupRam g f beyond).systemBlks = some i)
    (hj : parseBmt g f (setupRam g f beyond) = some j) :
    boot g f beyond =
      .ok (State.machine ⟨f, ((setupRam g f beyond).withBbt f i).withBmt f j⟩) := by
  show init g _ = _
  unfold init
  dsimp only
  split
  · rename_i hi'
    cases hi.symm.trans hi'
  · rename_i i' hi'
    cases hi.symm.trans hi'
    split
    · rename_i hj'
      cases hj.symm.trans hj'
    · rename_i j' hj'
      cases hj.symm.trans hj'
      rfl

theorem boot_eq_of_unparsed {beyond : Nat → UInt8} {ram' : Ram}
    (h : Unparsed g f (setupRam g f beyond) ram') :
    boot g f beyond = reconstructFromOob g (State.machine ⟨f, ram'⟩) := by
  show init g _ = _
  unfold init
  dsimp only
  rcases h with ⟨hi, rfl⟩ | ⟨i, hi, hj, rfl⟩
  · split
    · rfl
    · rename_i i' hi'
      cases hi.symm.trans hi'
  · split
    · rename_i hi'
      cases hi.symm.trans hi'
    · rename_i i' hi'
      cases hi.symm.trans hi'
      split
      · rfl
      · rename_i j' hj'
        cases hj.symm.trans hj'

/-- `init` either takes the tables from the flash or rebuilds them. -/
theorem boot_cases (g : Geometry) (f : Flash) (beyond : Nat → UInt8) :
    (∃ i j, parseBbt g f (setupRam g f beyond).systemBlks = some i ∧
      parseBmt g f (setupRam g f beyond) = some j) ∨
    ∃ ram', Unparsed g f (setupRam g f beyond) ram' := by
  cases hi : parseBbt g f (setupRam g f beyond).systemBlks with
  | none => exact Or.inr ⟨_, Or.inl ⟨hi, rfl⟩⟩
  | some i =>
    cases hj : parseBmt g f (setupRam g f beyond) with
    | none => exact Or.inr ⟨_, Or.inr ⟨i, hi, hj, rfl⟩⟩
    | some j => exact Or.inl ⟨i, j, rfl, rfl⟩

/-! ## The parse path -/

theorem parseBbt_spec {sys i : Nat} (hsys : sys ≤ g.totalBlks)
    (h : parseBbt g f sys = some i) :
    sys ≤ i ∧ i < g.totalBlks ∧ isBad f i = false ∧
      (BbtTable.decode (f i).data).accepted = true := by
  obtain ⟨h1, h2, h3, -⟩ := scanUp_eq_some_iff.mp h
  simp only [bbtAt, Bool.and_eq_true, Bool.not_eq_true'] at h3
  exact ⟨h1, by omega, h3.1, h3.2⟩

theorem parseBmt_spec {ram : Ram} {j : Nat} (h : parseBmt g f ram = some j) :
    ram.systemBlks < j ∧ j < g.totalBlks ∧ isBad f j = false ∧
      (BmtTable.decode (f j).data).accepted ram.beyond ram.bmtBlks = true := by
  have hpos := g.totalBlks_pos
  obtain ⟨h1, h2, h3, -⟩ := (scanDown_eq_some_iff (by omega)).mp h
  simp only [bmtAt, Bool.and_eq_true, Bool.not_eq_true'] at h3
  exact ⟨by omega, by omega, h3.1, h3.2⟩

theorem accepted_signature {t : BmtTable} {beyond : Nat → UInt8} {n : Nat}
    (h : t.accepted beyond n = true) : t.signature = bmtSignature := by
  simp only [BmtTable.accepted, Bool.and_eq_true, beq_iff_eq] at h
  exact h.1

theorem bbt_accepted_signature {t : BbtTable} (h : t.accepted = true) :
    t.signature = bbtSignature := by
  simp only [BbtTable.accepted, Bool.and_eq_true, beq_iff_eq] at h
  exact h.1

/-! The checksum does not cover itself, so a table that was just sealed passes. -/

theorem BmtTable.computeChecksum_congr {t u : BmtTable} {beyond : Nat → UInt8} {n : Nat}
    (h1 : t.version = u.version) (h2 : t.size = u.size) (h3 : t.table = u.table) :
    t.computeChecksum beyond n = u.computeChecksum beyond n := by
  unfold BmtTable.computeChecksum BmtTable.tableByte
  rw [h1, h2, h3]

theorem BmtTable.accepted_sealed {t : BmtTable} {beyond : Nat → UInt8} {n : Nat}
    (h : t.signature = bmtSignature) :
    ({ t with checksum := t.computeChecksum beyond n } : BmtTable).accepted beyond n = true := by
  have hsum : ({ t with checksum := t.computeChecksum beyond n } : BmtTable).computeChecksum
      beyond n = t.computeChecksum beyond n := BmtTable.computeChecksum_congr rfl rfl rfl
  unfold BmtTable.accepted
  rw [hsum]
  simp [h]

theorem BbtTable.computeChecksum_congr {t u : BbtTable} (h1 : t.version = u.version)
    (h2 : t.size = u.size) (h3 : t.table = u.table) : t.computeChecksum = u.computeChecksum := by
  unfold BbtTable.computeChecksum BbtTable.tableByte
  rw [h1, h2, h3]

theorem BbtTable.accepted_sealed {t : BbtTable} (h : t.signature = bbtSignature) :
    ({ t with checksum := t.computeChecksum.toUInt32 } : BbtTable).accepted = true := by
  have hsum : ({ t with checksum := t.computeChecksum.toUInt32 } : BbtTable).computeChecksum =
      t.computeChecksum := BbtTable.computeChecksum_congr rfl rfl rfl
  unfold BbtTable.accepted
  rw [hsum]
  simp [h]

/-- No page passes as both tables. -/
theorem not_both_accepted {p : Nat → UInt8} {beyond : Nat → UInt8} {n : Nat}
    (h1 : (BbtTable.decode p).accepted = true)
    (h2 : (BmtTable.decode p).accepted beyond n = true) : False := by
  have e1 : p 0 = 0x52 := congrArg Prod.fst (bbt_accepted_signature h1)
  have e2 : p 0 = 0x42 := congrArg Prod.fst (accepted_signature h2)
  rw [e1] at e2
  exact absurd e2 (by decide)

/-! ## Choosing the index blocks -/

/-- `bbt_index` is the lowest available block unless it is set, `bmt_index` the
highest available one. -/
theorem chooseIndexes_ok {ram ram' : Ram} (hm : ram.bmtIndex = noIndex)
    (h : chooseIndexes g f ram = .ok ram') :
    ∃ β μ, ram' = { ram with bbtIndex := β, bmtIndex := μ } ∧
      (if ram.bbtIndex = noIndex then
        scanUp (available f ram) ram.systemBlks (g.totalBlks - ram.systemBlks) = some β
      else β = ram.bbtIndex) ∧
      scanDown (available f { ram with bbtIndex := β }) (g.totalBlks - 1)
        (g.totalBlks - ram.systemBlks) = some μ := by
  unfold chooseIndexes at h
  simp only [findAvailableBlock, Bool.false_eq_true, if_false, if_true, bind, Except.bind,
    pure, Except.pure] at h
  by_cases hb : ram.bbtIndex = noIndex
  · simp only [hb, if_true] at h ⊢
    cases hβ : scanUp (available f ram) ram.systemBlks (g.totalBlks - ram.systemBlks) with
    | none => rw [hβ] at h; cases h
    | some β =>
      rw [hβ] at h
      simp only [hm, if_true] at h
      cases hμ : scanDown (available f { ram with bbtIndex := β }) (g.totalBlks - 1)
          (g.totalBlks - ram.systemBlks) with
      | none =>
        simp only [hm] at hμ
        rw [hμ] at h; cases h
      | some μ =>
        have hμ' := hμ
        simp only [hm] at hμ'
        rw [hμ'] at h
        cases h
        exact ⟨β, μ, rfl, rfl, hμ⟩
  · simp only [hb, hm, if_false, if_true] at h ⊢
    have hβ : { ram with bbtIndex := ram.bbtIndex } = ram := rfl
    cases hμ : scanDown (available f ram) (g.totalBlks - 1) (g.totalBlks - ram.systemBlks) with
    | none => rw [hμ] at h; cases h
    | some μ =>
      rw [hμ] at h
      cases h
      refine ⟨ram.bbtIndex, μ, rfl, rfl, ?_⟩
      rw [← hm]
      exact hμ

theorem chooseIndexes_of_found {ram : Ram} {β μ : Nat} (hm : ram.bmtIndex = noIndex)
    (hβ : if ram.bbtIndex = noIndex then
        scanUp (available f ram) ram.systemBlks (g.totalBlks - ram.systemBlks) = some β
      else β = ram.bbtIndex)
    (hμ : scanDown (available f { ram with bbtIndex := β }) (g.totalBlks - 1)
        (g.totalBlks - ram.systemBlks) = some μ) :
    chooseIndexes g f ram = .ok { ram with bbtIndex := β, bmtIndex := μ } := by
  unfold chooseIndexes
  simp only [findAvailableBlock, Bool.false_eq_true, if_false, if_true, bind, Except.bind,
    pure, Except.pure]
  by_cases hb : ram.bbtIndex = noIndex
  · simp only [hb, if_true] at hβ ⊢
    rw [hβ]
    simp only [hm, if_true] at hμ ⊢
    rw [hμ]
  · simp only [hb, if_false] at hβ ⊢
    subst hβ
    simp only [hm, if_true]
    have hμ' : scanDown (available f ram) (g.totalBlks - 1) (g.totalBlks - ram.systemBlks) =
        some μ := hμ
    rw [hμ']

/-! ## The mapping in the OOB bytes -/

/-- Pool block `i` is good and names `b` in its OOB bytes. -/
def owns (f : Flash) (b i : Nat) : Bool := !isBad f i && (mappedBlock f i).toNat == b

/-- Where the OOB bytes put system block `b`: the highest pool block that
names it, or its own place. -/
def target (g : Geometry) (f : Flash) (sys b : Nat) : Nat :=
  if b < sys then (scanDown (owns f b) (g.totalBlks - 1) (g.totalBlks - sys)).getD b else b

theorem mem_poolDown {sys i : Nat} (hsys : sys ≤ g.totalBlks) :
    i ∈ poolDown g sys ↔ sys ≤ i ∧ i < g.totalBlks := by
  simp only [poolDown, List.mem_reverse, List.mem_range'_1]
  omega

theorem length_poolDown (sys : Nat) : (poolDown g sys).length = g.totalBlks - sys := by
  simp [poolDown]

theorem oobEntry_eq_some {sys i : Nat} {e : BmtEntry} :
    oobEntry f sys i = some e ↔
      isBad f i = false ∧ (mappedBlock f i).toNat < sys ∧
        e = ⟨mappedBlock f i, UInt16.ofNat i⟩ := by
  unfold oobEntry
  cases h1 : isBad f i with
  | true => simp
  | false =>
    rcases Nat.lt_or_ge (mappedBlock f i).toNat sys with h2 | h2
    · simp only [Bool.false_eq_true, if_false, Nat.not_le.mpr h2, Option.some.injEq, h2, true_and,
        eq_comm]
    · simp only [Bool.false_eq_true, if_false, h2, if_true, reduceCtorEq, Nat.not_lt.mpr h2,
        false_and, and_false]

/-- Searching the rows built from `n` blocks down from `hi` is scanning these blocks. -/
theorem lookup_filterMap_oobEntry {sys b : Nat} (hb : b < sys) : ∀ n lo,
    lookup BmtEntry.key b ((List.range' lo n).reverse.filterMap (oobEntry f sys)) =
      (scanDown (owns f b) (lo + n - 1) n).map
        (fun i => (⟨mappedBlock f i, UInt16.ofNat i⟩ : BmtEntry))
  | 0, _ => rfl
  | n + 1, lo => by
      have hlast : lo + (n + 1) - 1 = lo + n := by omega
      have hrange : (List.range' lo (n + 1)).reverse = (lo + n) :: (List.range' lo n).reverse := by
        rw [List.range'_concat, List.reverse_append]
        simp
      rw [hrange, hlast, scanDown, List.filterMap_cons]
      have ih := lookup_filterMap_oobEntry hb n lo
      by_cases ho : owns f b (lo + n) = true
      · have ho' := ho
        simp only [owns, Bool.and_eq_true, Bool.not_eq_true', beq_iff_eq] at ho'
        have he : oobEntry f sys (lo + n) =
            some ⟨mappedBlock f (lo + n), UInt16.ofNat (lo + n)⟩ :=
          oobEntry_eq_some.mpr ⟨ho'.1, by omega, rfl⟩
        rw [he, ho]
        simp [lookup, BmtEntry.key, ho'.2]
      · rw [if_neg ho, ← ih]
        cases he : oobEntry f sys (lo + n) with
        | none => rfl
        | some e =>
          obtain ⟨h1, h2, rfl⟩ := oobEntry_eq_some.mp he
          have hk : (mappedBlock f (lo + n)).toNat ≠ b := by
            intro hk
            exact ho (by simp [owns, h1, hk])
          simp [lookup, BmtEntry.key, hk]

theorem lookup_oobEntries {sys b : Nat} (hb : b < sys) (hsys : sys ≤ g.totalBlks) :
    lookup BmtEntry.key b ((poolDown g sys).filterMap (oobEntry f sys)) =
      (scanDown (owns f b) (g.totalBlks - 1) (g.totalBlks - sys)).map
        (fun i => (⟨mappedBlock f i, UInt16.ofNat i⟩ : BmtEntry)) := by
  have h : sys + (g.totalBlks - sys) - 1 = g.totalBlks - 1 := by omega
  rw [poolDown, lookup_filterMap_oobEntry hb, h]

/-- A driver whose rows were read off the OOB bytes maps as they say. -/
theorem getMappingBlock_of_oobEntries {ram : Ram}
    (hlive : ram.bmt.live =
      (poolDown g ram.systemBlks).filterMap (oobEntry f ram.systemBlks))
    (hsys : ram.systemBlks ≤ g.totalBlks) (b : Nat) :
    getMappingBlock ram b = target g f ram.systemBlks b := by
  have h16 := g.totalBlks_u16
  rw [getMappingBlock_eq, target, hlive]
  by_cases hb : b < ram.systemBlks
  · rw [if_neg (by omega), if_pos hb, lookup_oobEntries hb hsys]
    cases hs : scanDown (owns f b) (g.totalBlks - 1) (g.totalBlks - ram.systemBlks) with
    | none => rfl
    | some i =>
      have hpos := g.totalBlks_pos
      obtain ⟨-, h2, -⟩ := (scanDown_eq_some_iff (by omega)).mp hs
      exact toNat_ofNat_of_lt (by omega)
  · rw [if_neg hb]
    split
    · rfl
    · -- no row names `system_blks` itself
      have hnone : lookup BmtEntry.key b
          ((poolDown g ram.systemBlks).filterMap (oobEntry f ram.systemBlks)) = none := by
        refine lookup_eq_none_iff.mpr fun e he => ?_
        obtain ⟨i, -, hi⟩ := List.mem_filterMap.mp he
        obtain ⟨-, h2, rfl⟩ := oobEntry_eq_some.mp hi
        show (mappedBlock f i).toNat ≠ b
        omega
      rw [hnone]
      rfl

/-! ## `reconstruct_from_oob` -/

theorem reconstructBmt_ok {sys : Nat} {t : BmtTable} (h : reconstructBmt g f sys = .ok t) :
    t.live = (poolDown g sys).filterMap (oobEntry f sys) ∧ t.signature = bmtSignature := by
  obtain ⟨h1, h2⟩ := BmtTable.foldlM_push_ok h
  refine ⟨?_, h2⟩
  rw [h1]
  simp [BmtTable.live]

theorem reconstructBbt_ok {sys : Nat} {bmt : BmtTable} {t : BbtTable}
    (h : reconstructBbt f sys bmt = .ok t) :
    t.signature = bbtSignature ∧
      ((List.range sys).filter (fun i => isBadRaw f i && !bmt.isIn i)).length ≤
        maxRawBadBlockSize := by
  obtain ⟨h1, h2, h3⟩ := BbtTable.foldlM_push_ok h
  refine ⟨h1, ?_⟩
  have h4 := h3 (Nat.zero_le _)
  rw [h2] at h4
  exact Nat.le_trans (Nat.le_add_left _ _) h4

/-- What `reconstruct_from_oob` leaves behind, with the index blocks `β` and `μ`. -/
structure Rebuilt (g : Geometry) (f : Flash) (ram : Ram) (β μ : Nat) (m' : Machine) : Prop where
  sys_pos : 0 < ram.systemBlks
  tables : ∃ bmt bbt, reconstructBmt g f ram.systemBlks = .ok bmt ∧
    reconstructBbt f ram.systemBlks bmt = .ok bbt ∧
    m'.ram = { ({ ram with bmt := bmt, bbt := bbt } : Ram).sealed with
      bbtIndex := β, bmtIndex := μ }
  bbt_chosen : if ram.bbtIndex = noIndex then
      scanUp (available f ram) ram.systemBlks (g.totalBlks - ram.systemBlks) = some β
    else β = ram.bbtIndex
  bmt_chosen : scanDown (available f { ram with bbtIndex := β }) (g.totalBlks - 1)
    (g.totalBlks - ram.systemBlks) = some μ
  did : (State.mk f ram).machine.Did g (tableOps m'.ram) m'

theorem Rebuilt.live {ram : Ram} {β μ : Nat} {m' : Machine} (h : Rebuilt g f ram β μ m') :
    m'.ram.bmt.live = (poolDown g ram.systemBlks).filterMap (oobEntry f ram.systemBlks) := by
  obtain ⟨bmt, bbt, hbmt, -, hram⟩ := h.tables
  rw [hram]
  exact (reconstructBmt_ok hbmt).1

theorem rebuilt_of_ok {ram : Ram} {m' : Machine} (hm : ram.bmtIndex = noIndex)
    (h : reconstructFromOob g (State.machine ⟨f, ram⟩) = .ok m') :
    ∃ β μ, Rebuilt g f ram β μ m' := by
  unfold reconstructFromOob at h
  by_cases hpos : (State.machine ⟨f, ram⟩).ram.systemBlks = 0
  · rw [if_pos hpos] at h
    cases h
  · rw [if_neg hpos] at h
    cases hbmt : reconstructBmt g f ram.systemBlks with
    | error e =>
      simp only [State.machine, hbmt, bind, Except.bind] at h
      cases h
    | ok bmt =>
      cases hbbt : reconstructBbt f ram.systemBlks bmt with
      | error e =>
        simp only [State.machine, hbmt, hbbt, bind, Except.bind] at h
        cases h
      | ok bbt =>
        simp only [State.machine, hbmt, hbbt, bind, Except.bind] at h
        obtain ⟨ram', hch, hdid, hram⟩ := updateBmtBbt_ok (fun _ => rfl) h
        have hm' : ({ ram with bmt := bmt, bbt := bbt } : Ram).sealed.bmtIndex = noIndex := hm
        obtain ⟨β, μ, heq, hβ, hμ⟩ := chooseIndexes_ok hm' hch
        have hsys : ram.systemBlks ≠ 0 := hpos
        refine ⟨β, μ, by omega, ⟨bmt, bbt, hbmt, hbbt, hram.trans heq⟩, hβ, hμ, ?_⟩
        rw [hram]
        exact ⟨hdid.flash, hdid.log, hdid.writeFails⟩

/-- `reconstruct_from_oob` returns when its tables hold what it finds and two
pool blocks are left for them. -/
theorem rebuilt_exists {ram : Ram} {β μ : Nat} (hm : ram.bmtIndex = noIndex)
    (hpos : 0 < ram.systemBlks) (hpool : g.totalBlks - ram.systemBlks ≤ maxBmtSize)
    (hraw : ∀ bmt, reconstructBmt g f ram.systemBlks = .ok bmt →
      ((List.range ram.systemBlks).filter (fun i => isBadRaw f i && !bmt.isIn i)).length ≤
        maxRawBadBlockSize)
    (hβ : if ram.bbtIndex = noIndex then
        scanUp (available f ram) ram.systemBlks (g.totalBlks - ram.systemBlks) = some β
      else β = ram.bbtIndex)
    (hμ : scanDown (available f { ram with bbtIndex := β }) (g.totalBlks - 1)
      (g.totalBlks - ram.systemBlks) = some μ) :
    ∃ m', reconstructFromOob g (State.machine ⟨f, ram⟩) = .ok m' ∧ Rebuilt g f ram β μ m' := by
  have hlen : ((poolDown g ram.systemBlks).filterMap
      (oobEntry f ram.systemBlks)).length ≤ maxBmtSize :=
    Nat.le_trans (List.length_filterMap_le _ _) (by rw [length_poolDown]; exact hpool)
  obtain ⟨bmt, hbmt⟩ : ∃ bmt, reconstructBmt g f ram.systemBlks = .ok bmt :=
    BmtTable.foldlM_push_room (by simpa using hlen)
  obtain ⟨bbt, hbbt⟩ : ∃ bbt, reconstructBbt f ram.systemBlks bmt = .ok bbt :=
    BbtTable.foldlM_push_room (by simpa using hraw bmt hbmt)
  have hch : chooseIndexes g f ({ ram with bmt := bmt, bbt := bbt } : Ram).sealed = _ :=
    chooseIndexes_of_found hm hβ hμ
  have hret : ∃ m', reconstructFromOob g (State.machine ⟨f, ram⟩) = .ok m' := by
    unfold reconstructFromOob updateBmtBbt
    have hne : (State.machine ⟨f, ram⟩).ram.systemBlks ≠ 0 := by
      show ram.systemBlks ≠ 0
      omega
    simp only [State.machine] at hne ⊢
    simp only [hne, if_false, hbmt, hbbt, hch, bind, Except.bind, pure, Except.pure]
    exact ⟨_, rfl⟩
  obtain ⟨m', hm'⟩ := hret
  obtain ⟨β', μ', hr⟩ := rebuilt_of_ok hm hm'
  have hββ : β' = β := by
    have h1 := hr.bbt_chosen
    by_cases hb : ram.bbtIndex = noIndex
    · rw [if_pos hb] at h1 hβ
      exact Option.some.inj (h1.symm.trans hβ)
    · rw [if_neg hb] at h1 hβ
      exact h1.trans hβ.symm
  subst hββ
  have hμμ : μ' = μ := Option.some.inj (hr.bmt_chosen.symm.trans hμ)
  subst hμμ
  exact ⟨m', hm', hr⟩

/-! ## The invariant after `init` -/

theorem Unparsed.consts {beyond : Nat → UInt8} {ram : Ram}
    (h : Unparsed g f (setupRam g f beyond) ram) :
    ram.systemBlks = poolStart g f ∧ ram.bmtIndex = noIndex ∧
      ram.bmtBlks = g.totalBlks - poolStart g f ∧ ram.beyond = beyond := by
  rcases h with ⟨-, rfl⟩ | ⟨i, -, -, rfl⟩
  · exact ⟨setupRam_systemBlks g f beyond, rfl, rfl, rfl⟩
  · exact ⟨setupRam_systemBlks g f beyond, rfl, rfl, rfl⟩

/-- A `bbt_index` left over from `parse_bbt` is a good pool block. -/
theorem Unparsed.stale {beyond : Nat → UInt8} {ram : Ram}
    (h : Unparsed g f (setupRam g f beyond) ram) :
    ram.bbtIndex = noIndex ∨
      (poolStart g f ≤ ram.bbtIndex ∧ ram.bbtIndex < g.totalBlks ∧
        isBad f ram.bbtIndex = false) := by
  rcases h with ⟨-, rfl⟩ | ⟨i, hi, -, rfl⟩
  · exact Or.inl rfl
  · have hlt := poolStart_lt g f
    rw [setupRam_systemBlks] at hi
    obtain ⟨h1, h2, h3, -⟩ := parseBbt_spec (by omega) hi
    exact Or.inr ⟨h1, h2, h3⟩

variable {ram : Ram} {β μ : Nat} {m' : Machine}

theorem Rebuilt.bbt_spec (h : Rebuilt g f ram β μ m') (hsys : ram.systemBlks ≤ g.totalBlks)
    (hstale : ram.bbtIndex = noIndex ∨ (ram.systemBlks ≤ ram.bbtIndex ∧
      ram.bbtIndex < g.totalBlks ∧ free f ram.bbtIndex = true)) :
    ram.systemBlks ≤ β ∧ β < g.totalBlks ∧ free f β = true := by
  have hβ := h.bbt_chosen
  by_cases hb : ram.bbtIndex = noIndex
  · rw [if_pos hb] at hβ
    obtain ⟨h1, h2, h3, -⟩ := scanUp_eq_some_iff.mp hβ
    exact ⟨h1, by omega, (available_iff.mp h3).1⟩
  · rw [if_neg hb] at hβ
    rw [hβ]
    exact hstale.resolve_left hb

theorem Rebuilt.bmt_spec (h : Rebuilt g f ram β μ m') (hsys : ram.systemBlks ≤ g.totalBlks) :
    ram.systemBlks ≤ μ ∧ μ < g.totalBlks ∧ free f μ = true ∧ μ ≠ β := by
  have hpos := g.totalBlks_pos
  obtain ⟨h1, h2, h3, -⟩ := (scanDown_eq_some_iff (by omega)).mp h.bmt_chosen
  obtain ⟨h4, -, h5⟩ := available_iff.mp h3
  exact ⟨by omega, by omega, h4, h5⟩

theorem Rebuilt.consts (h : Rebuilt g f ram β μ m') :
    m'.ram.bmtIndex = μ ∧ m'.ram.bbtIndex = β ∧ m'.ram.systemBlks = ram.systemBlks ∧
      m'.ram.bmtBlks = ram.bmtBlks ∧ m'.ram.beyond = ram.beyond := by
  obtain ⟨bmt, bbt, -, -, hram⟩ := h.tables
  rw [hram]
  exact ⟨rfl, rfl, rfl, rfl, rfl⟩

theorem Rebuilt.sameOob (h : Rebuilt g f ram β μ m') (hβ : free f β = true)
    (hμ : free f μ = true) : SameOob f m'.flash := by
  obtain ⟨hi1, hi2, -⟩ := h.consts
  rw [h.did.flash]
  exact sameOob_applyAll (sparesOob_tableOps (by rw [hi1]; exact hμ) (by rw [hi2]; exact hβ))

theorem Rebuilt.based (h : Rebuilt g f ram β μ m') (hsys : ram.systemBlks ≤ g.totalBlks)
    (hstale : ram.bbtIndex = noIndex ∨ (ram.systemBlks ≤ ram.bbtIndex ∧
      ram.bbtIndex < g.totalBlks ∧ free f ram.bbtIndex = true)) : Based g m'.state := by
  obtain ⟨hβ1, hβ2, hβ⟩ := h.bbt_spec hsys hstale
  obtain ⟨hμ1, hμ2, hμ, hne⟩ := h.bmt_spec hsys
  have hoob := h.sameOob hβ hμ
  have h16 := g.totalBlks_u16
  obtain ⟨hi1, hi2, hi3, -⟩ := h.consts
  refine ⟨?_, ?_, ?_, ?_, ?_, fun e he => ?_⟩
  · show m'.ram.systemBlks ≤ m'.ram.bmtIndex ∧ m'.ram.bmtIndex < g.totalBlks
    rw [hi1, hi3]
    exact ⟨hμ1, hμ2⟩
  · show m'.ram.systemBlks ≤ m'.ram.bbtIndex ∧ m'.ram.bbtIndex < g.totalBlks
    rw [hi2, hi3]
    exact ⟨hβ1, hβ2⟩
  · show m'.ram.bmtIndex ≠ m'.ram.bbtIndex
    rw [hi1, hi2]
    exact hne
  · show free m'.flash m'.ram.bmtIndex = true
    rw [hi1, hoob.free]
    exact hμ
  · show free m'.flash m'.ram.bbtIndex = true
    rw [hi2, hoob.free]
    exact hβ
  · have he' : e ∈ (poolDown g ram.systemBlks).filterMap (oobEntry f ram.systemBlks) := by
      rw [← h.live]
      exact he
    obtain ⟨i, hi, hie⟩ := List.mem_filterMap.mp he'
    obtain ⟨h1, h2, rfl⟩ := oobEntry_eq_some.mp hie
    obtain ⟨h3, h4⟩ := (mem_poolDown hsys).mp hi
    have hnat : (UInt16.ofNat i).toNat = i := toNat_ofNat_of_lt (by omega)
    have hmap : isMapped f i = true := isMapped_of_mappedBlock rfl (by omega)
    have hfree : ∀ b, free f b = true → i ≠ b := by
      rintro b hb rfl
      rw [(free_iff.mp hb).2] at hmap
      cases hmap
    refine ⟨?_, ?_, ?_, ?_, ?_⟩
    · show (mappedBlock f i).toNat < m'.ram.systemBlks
      rw [hi3]
      exact h2
    · show m'.ram.systemBlks ≤ (UInt16.ofNat i).toNat ∧ (UInt16.ofNat i).toNat < g.totalBlks
      rw [hnat, hi3]
      exact ⟨h3, h4⟩
    · show mappedBlock m'.flash (UInt16.ofNat i).toNat = mappedBlock f i
      rw [hnat, hoob.mappedBlock]
    · show (UInt16.ofNat i).toNat ≠ m'.ram.bmtIndex
      rw [hnat, hi1]
      exact hfree μ hμ
    · show (UInt16.ofNat i).toNat ≠ m'.ram.bbtIndex
      rw [hnat, hi2]
      exact hfree β hβ

/-- Without mappings in the OOB bytes nothing is remapped. -/
theorem oobEntries_of_noMappings {sys : Nat} (hno : NoMappings g f) (hsys : sys ≤ g.totalBlks) :
    (poolDown g sys).filterMap (oobEntry f sys) = [] := by
  refine List.filterMap_eq_nil_iff.mpr fun i hi => ?_
  obtain ⟨-, hlt⟩ := (mem_poolDown hsys).mp hi
  have h16 := g.totalBlks_u16
  cases he : oobEntry f sys i with
  | none => rfl
  | some e =>
    obtain ⟨-, h2, -⟩ := oobEntry_eq_some.mp he
    have hmap : isMapped f i = true := isMapped_of_mappedBlock rfl (by omega)
    rw [hno i hlt] at hmap
    cases hmap

end Airoha.Bmt
