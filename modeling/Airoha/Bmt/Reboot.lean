/-
Airoha.Bmt.Reboot — a reboot between two calls changes nothing.

In a `Settled` state the parse path of `init` reads back the tables in RAM and
`reconstruct_from_oob` rebuilds the same mapping (`reboot_persists`). The
rebuilt tables may go to other blocks than before: `rebuilt_of_housed` only
says that there is room for them, since the blocks of the old ones are free.

`not_reboot_persists` has a chip for each condition; the tables on it were not
written by `init`.
-/
import Airoha.Bmt.Settled

namespace Airoha.Bmt

open Airoha.Lib

variable {g : Geometry} {sys β μ : Nat} {f : Flash} {s : State}

/-! ## The next boot -/

/-- With both index blocks free `reconstruct_from_oob` finds room for its tables. -/
theorem rebuilt_of_housed {ram : Ram} (hh : Housed g sys β μ f) (hsys : ram.systemBlks = sys)
    (hb : ram.bbtIndex = noIndex) (hm : ram.bmtIndex = noIndex)
    (hraw : ((List.range sys).filter
      (fun b => isBadRaw f b && target g f sys b == b)).length ≤ maxRawBadBlockSize) :
    ∃ β' μ' m', reconstructFromOob g (State.machine ⟨f, ram⟩) = .ok m' ∧
      Rebuilt g f ram β' μ' m' := by
  have h1 := hh.bbt_ge
  have h2 := hh.bmt_gt
  have h3 := hh.bbt_lt
  have h4 := hh.bmt_lt
  have h16 := g.totalBlks_u16
  have hno : noIndex = 0xffff := rfl
  have hβ : ∃ β', scanUp (available f ram) ram.systemBlks (g.totalBlks - ram.systemBlks) =
      some β' := by
    cases hscan : scanUp (available f ram) ram.systemBlks (g.totalBlks - ram.systemBlks) with
    | some β' => exact ⟨β', rfl⟩
    | none =>
      have hall := scanUp_eq_none_iff.mp hscan β (by omega) (by omega)
      rw [available_iff.mpr ⟨hh.bbt_free, by omega, by omega⟩] at hall
      cases hall
  obtain ⟨β', hβ'⟩ := hβ
  -- one of the two blocks is left
  have hμ : ∃ μ', scanDown (available f { ram with bbtIndex := β' }) (g.totalBlks - 1)
      (g.totalBlks - ram.systemBlks) = some μ' := by
    cases hscan : scanDown (available f { ram with bbtIndex := β' }) (g.totalBlks - 1)
        (g.totalBlks - ram.systemBlks) with
    | some μ' => exact ⟨μ', rfl⟩
    | none =>
      have hall := (scanDown_eq_none_iff (by omega)).mp hscan
      have hleft : ∀ x, sys ≤ x → x < g.totalBlks → free f x = true → x = β' := by
        intro x hx1 hx2 hx3
        by_contra hne
        have hx := hall x (by omega) (by omega)
        have hav : available f { ram with bbtIndex := β' } x = true :=
          available_iff.mpr ⟨hx3, by show x ≠ ram.bmtIndex; omega, hne⟩
        rw [hav] at hx
        cases hx
      exact absurd ((hleft μ (by omega) h4 hh.bmt_free).trans
        (hleft β h1 h3 hh.bbt_free).symm) hh.index_ne
  obtain ⟨μ', hμ'⟩ := hμ
  refine ⟨β', μ', rebuilt_exists hm ?_ ?_ (fun bmt hbmt => ?_) ?_ hμ'⟩
  · rw [hsys]
    exact hh.sys_pos
  · rw [hsys]
    exact hh.size
  · rw [hsys] at hbmt ⊢
    exact rawBad_room (by omega) hbmt hraw
  · rw [if_pos hb]
    exact hβ'

/-- What a reboot in state `s` finds: the pool boundary, both tables and their indexes on the parse
path, and the same mapping when `reconstruct_from_oob` runs instead. -/
structure Persists (g : Geometry) (s : State) (beyond : Nat → UInt8) : Prop where
  boundary : (setupRam g s.flash beyond).systemBlks = s.ram.systemBlks
  bbt_found : parseBbt g s.flash s.ram.systemBlks = some s.ram.bbtIndex
  bmt_found : parseBmt g s.flash (setupRam g s.flash beyond) = some s.ram.bmtIndex
  parsed : ∃ m', boot g s.flash beyond = .ok m' ∧ m'.flash = s.flash ∧ m'.ram.bmt = s.ram.bmt ∧
    m'.ram.bbt = s.ram.bbt ∧ m'.ram.bmtIndex = s.ram.bmtIndex ∧ m'.ram.bbtIndex = s.ram.bbtIndex
  rebuilt : ∃ m',
    reconstructFromOob g (State.machine ⟨s.flash, setupRam g s.flash beyond⟩) = .ok m' ∧
      ∀ b, b < s.ram.systemBlks → getMappingBlock m'.ram b = getMappingBlock s.ram b

theorem Settled.persists {f₀ : Flash} (hs : Settled g sys β μ f₀ s)
    (hfit : ((List.range sys).filter (isBadRaw f₀)).length ≤ maxRawBadBlockSize)
    (beyond : Nat → UInt8) : Persists g s beyond := by
  have hh := hs.housed
  have h1 := hh.bbt_ge
  have h2 := hh.bbt_lt
  have hsys : (setupRam g s.flash beyond).systemBlks = sys := by
    rw [setupRam_systemBlks, hh.start]
  have hsys' := hs.sealed.sys_eq
  obtain ⟨hi, hj⟩ := parsed_of_intact hh hs.unhidden hs.intact beyond
  refine ⟨hsys.trans hsys'.symm, ?_, ?_, ?_, ?_⟩
  · rw [hsys', hs.sealed.bbt_index, ← hsys]
    exact hi
  · rw [hs.sealed.bmt_index]
    exact hj
  · exact ⟨_, boot_of_intact hh hs.unhidden hs.intact beyond, rfl, hs.intact.bmt, hs.intact.bbt,
      hs.sealed.bmt_index.symm, hs.sealed.bbt_index.symm⟩
  · -- a raw bad block that was good at first has a row
    have hroom : ((List.range sys).filter
        (fun b => isBadRaw s.flash b && target g s.flash sys b == b)).length ≤
          maxRawBadBlockSize := by
      refine Nat.le_trans ?_ hfit
      rw [← List.countP_eq_length_filter, ← List.countP_eq_length_filter]
      refine List.countP_mono_left fun b hb hraw => ?_
      simp only [Bool.and_eq_true, beq_iff_eq] at hraw
      rcases hs.raw b (List.mem_range.mp hb) hraw.1 with h0 | hne
      · exact h0
      · rw [← hs.agrees] at hne
        exact absurd hraw.2 hne
    obtain ⟨β', μ', m', hm', hr⟩ := rebuilt_of_housed hh hsys rfl rfl hroom
    obtain ⟨-, -, hk, -, -⟩ := hr.consts
    have hlive := hr.live
    rw [hsys] at hk hlive
    rw [← hk] at hlive
    refine ⟨m', hm', fun b _ => ?_⟩
    rw [getMappingBlock_of_oobEntries hlive (by omega), hk, hs.agrees]

/-- In every state reached by successful remaps from a chip without mappings, whose tables, if
`init` found any, have no rows and cannot be hidden by what a remap copies, a reboot finds what the
driver had. -/
theorem reboot_persists {beyond : Nat → UInt8} {m : Machine} (hno : NoMappings g f)
    (hsize : g.totalBlks - poolStart g f ≤ maxBmtSize) (hpos : 0 < poolStart g f)
    (hfit : ((List.range (poolStart g f)).filter (isBadRaw f)).length ≤ maxRawBadBlockSize)
    (hempty : ∀ t, loadedBmt g f beyond = some t → t.live = [])
    (hboot : boot g f beyond = .ok m) (hfront : Fronted g f m.ram)
    (hrun : Remaps g m.state s) (beyond' : Nat → UInt8) : Persists g s beyond' := by
  obtain ⟨β, μ, hs⟩ := settled_boot hno hsize hpos hempty hboot hfront
  exact (hrun.settled hs).persists hfit beyond'

/-! ## Tables on the first flash -/

/-- A bmt without rows as `update_bmt_bbt` writes it. -/
def sealedBmt : BmtTable :=
  { BmtTable.zero with signature := bmtSignature, version := 1, checksum := 1 }

/-- A chip that holds a bbt in block `β` and `t` in block `μ`. -/
def tabledFlash (β μ : Nat) (t : BmtTable) : Flash := fun b =>
  { data := if b = β then sealedBbt.byte else if b = μ then t.byte else fun _ => 0xff
    oob := Oob.blank }

theorem BmtEntry.byte_zero (k : Nat) : BmtEntry.byte ⟨0, 0⟩ k = 0 := by
  unfold BmtEntry.byte
  split <;> rfl

/-- Its rows add nothing to the sum. -/
theorem accepted_sealedBmt (n : Nat) : sealedBmt.accepted zeroMemory n = true := by
  have hbyte : ∀ i, sealedBmt.tableByte i = 0 := by
    intro i
    show BmtEntry.byte ((List.replicate maxBmtSize ⟨0, 0⟩).getD (i / 4) ⟨0, 0⟩) (i % 4) = 0
    rw [List.getD_eq_getElem?_getD, List.getElem?_getD_replicate_default_eq, BmtEntry.byte_zero]
  have hsum : sealedBmt.computeChecksum zeroMemory n = 1 := by
    unfold BmtTable.computeChecksum
    refine List.foldl_fixed' (fun i => ?_) _
    rw [hbyte]
    split <;> rfl
  unfold BmtTable.accepted
  rw [hsum]
  rfl

/-- The bmt is in the last block. -/
theorem parseBmt_of_last (h : (setupRam g f zeroMemory).systemBlks < g.totalBlks - 1)
    (hgood : isBad f (g.totalBlks - 1) = false)
    (hbmt : BmtTable.decode (f (g.totalBlks - 1)).data = sealedBmt) :
    parseBmt g f (setupRam g f zeroMemory) = some (g.totalBlks - 1) := by
  have hat : bmtAt zeroMemory (setupRam g f zeroMemory).bmtBlks f (g.totalBlks - 1) = true := by
    unfold bmtAt
    rw [hgood, hbmt, accepted_sealedBmt]
    rfl
  exact (scanDown_eq_some_iff (by omega)).mpr ⟨by omega, Nat.le_refl _, hat,
    fun i h1 h2 => by omega⟩

/-- The bbt is in the second block of the pool. -/
theorem parseBbt_of_second (h : sys + 1 < g.totalBlks) (hno : bbtAt f sys = false)
    (hat : bbtAt f (sys + 1) = true) : parseBbt g f sys = some (sys + 1) := by
  refine scanUp_eq_some_iff.mpr ⟨Nat.le_succ _, by omega, hat, fun j h1 h2 => ?_⟩
  rwa [Nat.le_antisymm (Nat.le_of_lt_succ h2) h1]

/-- The erased chip after its first `init`. -/
def startedFlash : Flash := tabledFlash 46 49 sealedBmt

theorem parsed_startedFlash :
    parseBbt chip50 startedFlash (setupRam chip50 startedFlash zeroMemory).systemBlks = some 46 ∧
      parseBmt chip50 startedFlash (setupRam chip50 startedFlash zeroMemory) = some 49 ∧
      BmtTable.decode (startedFlash 49).data = sealedBmt := by
  have hsys : (setupRam chip50 startedFlash zeroMemory).systemBlks = 46 := by decide
  have hbmt : BmtTable.decode (startedFlash 49).data = sealedBmt :=
    BmtTable.decode_eq fun o _ => rfl
  refine ⟨?_, parseBmt_of_last (by rw [hsys]; decide) rfl hbmt, hbmt⟩
  rw [hsys]
  exact parseBbt_of_first (by decide) (bbtAt_of_sealed rfl (BbtTable.decode_eq fun o _ => rfl))

theorem startedFlash_run : ∃ m m', boot chip50 startedFlash zeroMemory = .ok m ∧
    m = State.machine ⟨startedFlash, parsedRam chip50 startedFlash zeroMemory 46 49⟩ ∧
    m.state.remap chip50 0 1 = .ok m' ∧ Remaps chip50 m.state m'.state ∧
    getMappingBlock m'.ram 0 = 47 := by
  obtain ⟨hi, hj, -⟩ := parsed_startedFlash
  have hrun : ((State.mk startedFlash (parsedRam chip50 startedFlash zeroMemory 46 49)).remap
      chip50 0 1).toOption.map (fun m' => getMappingBlock m'.ram 0) = some 47 := by
    decide +kernel
  obtain ⟨m', hm', hmap⟩ := exists_of_toOption_map hrun
  exact ⟨_, m', boot_eq_of_parsed hi hj, rfl, hm',
    Remaps.refl.remap (by decide) (by decide) hm', hmap⟩

/-- A remap on the started chip, and the reboot after it. -/
theorem reboot_persists_startedFlash : ∃ m m', boot chip50 startedFlash zeroMemory = .ok m ∧
    m.state.remap chip50 0 1 = .ok m' ∧ getMappingBlock m'.ram 0 = 47 ∧
    Persists chip50 m'.state zeroMemory := by
  obtain ⟨m, m', hboot, hm, hm', hrun, hmap⟩ := startedFlash_run
  obtain ⟨hi, hj, hbmt⟩ := parsed_startedFlash
  have hsys : poolStart chip50 startedFlash = 46 := by decide
  refine ⟨m, m', hboot, hm', hmap, ?_⟩
  refine reboot_persists (f := startedFlash) (fun _ _ => rfl) (by decide)
    (by decide) (by decide) (fun t ht => ?_) hboot (fun i hi' => Or.inl ?_)
    hrun zeroMemory
  · rw [loadedBmt_of_parsed hi hj, Option.some.injEq] at ht
    rw [← ht, hbmt]
    decide
  · rw [hm]
    intro b h1 h2 h3
    have h1' : 46 ≤ b := by
      rw [← hsys, ← setupRam_systemBlks chip50 startedFlash zeroMemory]
      exact h1
    have h2' : b < 50 := h2
    have h3' : b < 46 ∨ 49 < b := h3
    omega

theorem noMappings_of_oob (h : ∀ b, (f b).oob.fdm2 = 0xff ∧ (f b).oob.fdm3 = 0xff) :
    NoMappings g f := by
  intro b _
  unfold isMapped
  rw [(h b).1, (h b).2]
  rfl

/-- No reboot after any run from `f` loses anything. -/
def PersistsFrom (g : Geometry) (f : Flash) : Prop :=
  ∀ beyond m s beyond', boot g f beyond = .ok m → Remaps g m.state s → Persists g s beyond'

/-- A row on the first flash that the OOB bytes know nothing of is lost by
`reconstruct_from_oob`. -/
theorem not_persistsFrom_forged : ¬ PersistsFrom chip50 forgedFlash := by
  intro h
  obtain ⟨hi, hj, hbmt⟩ := parsed_forgedFlash
  have hno : NoMappings chip50 forgedFlash := fun b _ => rfl
  obtain ⟨m', hm', hmap⟩ := (h zeroMemory _ _ zeroMemory (boot_eq_of_parsed hi hj)
    Remaps.refl).rebuilt
  obtain ⟨β, μ, hr⟩ := rebuilt_of_ok rfl hm'
  have hlive : m'.ram.bmt.live = [] := by
    rw [hr.live]
    refine oobEntries_of_noMappings hno ?_
    rw [setupRam_systemBlks]
    exact Nat.le_of_lt (poolStart_lt _ _)
  have hzero : getMappingBlock m'.ram 0 = 0 := by
    rw [getMappingBlock_eq, hlive]
    rfl
  have hrow : getMappingBlock (((setupRam chip50 forgedFlash zeroMemory).withBbt
      forgedFlash 46).withBmt forgedFlash 49) 0 = 47 := by
    rw [getMappingBlock_eq]
    show (if _ then _ else ((lookup BmtEntry.key 0
      (BmtTable.decode (forgedFlash 49).data).live).map _).getD 0) = 47
    rw [hbmt]
    decide
  have hsys : 0 < (setupRam chip50 forgedFlash zeroMemory).systemBlks := by decide
  have hsame := hmap 0 hsys
  rw [hzero] at hsame
  exact absurd (hsame.trans hrow) (by decide)

/-- The bbt is in block 47, and the data of block 0 passes as another one. -/
def copiedFlash : Flash :=
  Function.update (tabledFlash 47 49 sealedBmt) 0 ⟨sealedBbt.byte, Oob.blank⟩

theorem noMappings_copied : NoMappings chip50 copiedFlash := by
  refine noMappings_of_oob fun b => ?_
  unfold copiedFlash
  by_cases hb : b = 0
  · rw [hb, Function.update_self]
    exact ⟨rfl, rfl⟩
  · rw [Function.update_of_ne hb]
    exact ⟨rfl, rfl⟩

theorem parsed_copiedFlash :
    parseBbt chip50 copiedFlash (setupRam chip50 copiedFlash zeroMemory).systemBlks = some 47 ∧
      parseBmt chip50 copiedFlash (setupRam chip50 copiedFlash zeroMemory) = some 49 ∧
      BmtTable.decode (copiedFlash 49).data = sealedBmt := by
  have hsys : (setupRam chip50 copiedFlash zeroMemory).systemBlks = 46 := by decide
  have hbmt : BmtTable.decode (copiedFlash 49).data = sealedBmt :=
    BmtTable.decode_eq fun o _ => rfl
  refine ⟨?_, parseBmt_of_last (by rw [hsys]; decide) rfl hbmt, hbmt⟩
  rw [hsys]
  exact parseBbt_of_second (by decide) (by decide)
    (bbtAt_of_sealed rfl (BbtTable.decode_eq fun o _ => rfl))

/-- The copied chip after `init`. -/
def copiedState : State := ⟨copiedFlash, parsedRam chip50 copiedFlash zeroMemory 47 49⟩

theorem boot_copiedFlash : boot chip50 copiedFlash zeroMemory = .ok copiedState.machine :=
  boot_eq_of_parsed parsed_copiedFlash.1 parsed_copiedFlash.2.1

theorem based_copiedState : Based chip50 copiedState := by
  obtain ⟨hi, hj, hbmt⟩ := parsed_copiedFlash
  refine (based_boot noMappings_copied (fun t ht => ?_) boot_copiedFlash).1
  rw [loadedBmt_of_parsed hi hj, Option.some.injEq] at ht
  rw [← ht, hbmt]
  decide

/-- The remap copies the data of block 0 to block 46, where the next `parse_bbt` meets it first. -/
theorem not_persistsFrom_copied : ¬ PersistsFrom chip50 copiedFlash := by
  intro h
  have hsys : copiedState.ram.systemBlks = 46 := by decide
  have hblock : 0 < copiedState.ram.systemBlks := by omega
  have hsome :
      (findAvailableBlock chip50 copiedState.flash copiedState.ram false).isSome = true := by
    decide
  have hnew : newBlock chip50 copiedState.flash copiedState.ram = 46 := by decide
  have hhome : getMappingBlock copiedState.ram 0 = 0 := by decide
  have hcall : (copiedState.remap chip50 0 1).toOption.map (fun m' => isBad m'.flash 46) =
      some false := by
    decide +kernel
  obtain ⟨m', hm', hgood⟩ := exists_of_toOption_map hcall
  have hplan := based_copiedState.plan hblock hsome
  have hdone := remapDone based_copiedState hblock hsome hm'
  rw [hnew, hhome] at hplan hdone
  -- the copy passes
  have hcopy : BbtTable.decode (m'.flash 46).data = sealedBbt :=
    BbtTable.decode_eq fun o ho => hdone.data_new hplan (by decide) (Nat.lt_trans ho (by decide))
  obtain ⟨-, h47, h46, -⟩ := hdone.consts
  have hfound : parseBbt chip50 m'.flash m'.ram.systemBlks = some m'.ram.bbtIndex :=
    (h zeroMemory _ _ zeroMemory boot_copiedFlash
      (Remaps.refl.remap hblock hsome hm')).bbt_found
  rw [h46, h47, hsys, parseBbt_of_first (by decide) (bbtAt_of_sealed hgood hcopy)] at hfound
  exact absurd hfound (by decide)

/-- A bbt in block 47, no bmt, and bad blocks above: `init` puts the bmt in the first pool block. -/
def lowFlash : Flash := fun b =>
  { data := if b = 47 then sealedBbt.byte else fun _ => 0xff
    oob := if 47 < b then badMark 46 b else Oob.blank }

/-- `parse_bmt` does not look at the first pool block. -/
theorem not_persistsFrom_low : ¬ PersistsFrom chip50 lowFlash := by
  intro h
  have hsys : (setupRam chip50 lowFlash zeroMemory).systemBlks = 46 := by decide
  have hi : parseBbt chip50 lowFlash (setupRam chip50 lowFlash zeroMemory).systemBlks =
      some 47 := by
    rw [hsys]
    exact parseBbt_of_second (by decide) (by decide)
      (bbtAt_of_sealed rfl (BbtTable.decode_eq fun o _ => rfl))
  have hj : parseBmt chip50 lowFlash (setupRam chip50 lowFlash zeroMemory) = none := by
    decide
  have hrun : (boot chip50 lowFlash zeroMemory).toOption.map
      (fun m => (m.ram.bmtIndex, poolStart chip50 m.flash)) = some (46, 46) := by
    rw [boot_eq_of_unparsed (Or.inr ⟨47, hi, hj, rfl⟩)]
    decide +kernel
  obtain ⟨m, hm, hpair⟩ := exists_of_toOption_map hrun
  have h1 : m.ram.bmtIndex = 46 := congrArg Prod.fst hpair
  have h2 : poolStart chip50 m.flash = 46 := congrArg Prod.snd hpair
  have hfound := (h zeroMemory m _ zeroMemory hm Remaps.refl).bmt_found
  obtain ⟨hlt, -⟩ := parseBmt_spec hfound
  rw [setupRam_systemBlks] at hlt
  have hlt' : poolStart chip50 m.flash < m.ram.bmtIndex := hlt
  omega

/-- 40 of its blocks are the pool, 460 to 499. -/
def chip500 : Geometry where
  totalBlks := 500
  pgSize := 2048
  eraseSize := 131072
  totalBlks_pos := by decide
  totalBlks_u16 := by decide
  page_holds_table := sizeofBmt_le_page

/-- A chip with tables and 251 bad system blocks. -/
def crowdedFlash : Flash := fun b =>
  { tabledFlash 460 499 sealedBmt b with oob := if b < 251 then badMark 460 b else Oob.blank }

theorem noMappings_crowded : NoMappings chip500 crowdedFlash := by
  refine noMappings_of_oob fun b => ?_
  unfold crowdedFlash badMark
  dsimp only
  split
  · split <;> exact ⟨rfl, rfl⟩
  · exact ⟨rfl, rfl⟩

/-- The rebuilt bbt has no room for the bad blocks. -/
theorem not_persistsFrom_crowded : ¬ PersistsFrom chip500 crowdedFlash := by
  intro h
  have hsys : poolStart chip500 crowdedFlash = 460 := by decide
  have hi : parseBbt chip500 crowdedFlash
      (setupRam chip500 crowdedFlash zeroMemory).systemBlks = some 460 := by
    rw [setupRam_systemBlks, hsys]
    exact parseBbt_of_first (by decide) (bbtAt_of_sealed rfl (BbtTable.decode_eq fun o _ => rfl))
  have hj : parseBmt chip500 crowdedFlash (setupRam chip500 crowdedFlash zeroMemory) =
      some 499 :=
    parseBmt_of_last (by rw [setupRam_systemBlks, hsys]; decide) rfl
      (BmtTable.decode_eq fun o _ => rfl)
  obtain ⟨m', hm', -⟩ := (h zeroMemory _ _ zeroMemory (boot_eq_of_parsed hi hj)
    Remaps.refl).rebuilt
  obtain ⟨β, μ, hr⟩ := rebuilt_of_ok rfl hm'
  have hle := hr.rawBad_le noMappings_crowded (setupRam_systemBlks _ _ _)
  rw [hsys] at hle
  exact absurd hle (by decide +kernel)

/-- All of its blocks are the pool. -/
def chip12 : Geometry where
  totalBlks := 12
  pgSize := 2048
  eraseSize := 131072
  totalBlks_pos := by decide
  totalBlks_u16 := by decide
  page_holds_table := sizeofBmt_le_page

/-- Without system blocks `reconstruct_from_oob` does not end. -/
theorem not_persistsFrom_tiny : ¬ PersistsFrom chip12 (tabledFlash 0 11 sealedBmt) := by
  intro h
  have hsys : poolStart chip12 (tabledFlash 0 11 sealedBmt) = 0 := by decide
  have hi : parseBbt chip12 (tabledFlash 0 11 sealedBmt)
      (setupRam chip12 (tabledFlash 0 11 sealedBmt) zeroMemory).systemBlks = some 0 := by
    rw [setupRam_systemBlks, hsys]
    exact parseBbt_of_first (by decide) (bbtAt_of_sealed rfl (BbtTable.decode_eq fun o _ => rfl))
  have hj : parseBmt chip12 (tabledFlash 0 11 sealedBmt)
      (setupRam chip12 (tabledFlash 0 11 sealedBmt) zeroMemory) = some 11 :=
    parseBmt_of_last (by rw [setupRam_systemBlks, hsys]; decide) rfl
      (BmtTable.decode_eq fun o _ => rfl)
  obtain ⟨m', hm', -⟩ := (h zeroMemory _ _ zeroMemory (boot_eq_of_parsed hi hj)
    Remaps.refl).rebuilt
  obtain ⟨β, μ, hr⟩ := rebuilt_of_ok rfl hm'
  have hpos := hr.sys_pos
  rw [setupRam_systemBlks] at hpos
  have hpos' : 0 < poolStart chip12 (tabledFlash 0 11 sealedBmt) := hpos
  omega

/-- Chips without mappings on which a reboot loses something: a table with a row, data that passes
as a table, a bmt where it is not looked for, more bad blocks than a bbt holds, no system block. -/
theorem not_reboot_persists :
    (NoMappings chip50 forgedFlash ∧ ¬ PersistsFrom chip50 forgedFlash) ∧
      (NoMappings chip50 copiedFlash ∧ ¬ PersistsFrom chip50 copiedFlash) ∧
      (NoMappings chip50 lowFlash ∧ ¬ PersistsFrom chip50 lowFlash) ∧
      (NoMappings chip500 crowdedFlash ∧ ¬ PersistsFrom chip500 crowdedFlash) ∧
      NoMappings chip12 (tabledFlash 0 11 sealedBmt) ∧
      ¬ PersistsFrom chip12 (tabledFlash 0 11 sealedBmt) := by
  refine ⟨⟨?_, not_persistsFrom_forged⟩, ⟨?_, not_persistsFrom_copied⟩,
    ⟨?_, not_persistsFrom_low⟩, ⟨?_, not_persistsFrom_crowded⟩, ?_, not_persistsFrom_tiny⟩
  · exact fun _ _ => rfl
  · exact noMappings_copied
  · refine noMappings_of_oob fun b => ?_
    unfold lowFlash badMark
    dsimp only
    split
    · split <;> exact ⟨rfl, rfl⟩
    · exact ⟨rfl, rfl⟩
  · exact noMappings_crowded
  · exact fun _ _ => rfl

end Airoha.Bmt
