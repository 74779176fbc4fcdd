/-
Airoha.Bmt.Layout — no two blocks share a replacement, in any run without faults.

`Remaps g s s'` is a run of `remap_block` calls from `s` to `s'`. The
invariant `TableInv` is what the callers of `get_mapping_block` rely on: rows
with distinct blocks and distinct targets, every target a good pool block
that names its own row, and therefore an injective mapping
(`getMappingBlock_injective`). It holds after every run that starts from an
empty table. A table that `init` reads from the flash is not checked against
the OOB bytes: `not_tableInv_forged` starts from a flash whose table maps two
blocks to one.
-/
import Airoha.Bmt.Startup

namespace Airoha.Bmt

open Airoha.Lib

variable {g : Geometry} {s : State}

/-- Any number of successful `remap_block` calls. -/
inductive Remaps (g : Geometry) (s : State) : State → Prop where
  | refl : Remaps g s s
  | remap {s' : State} {m' : Machine} {block copyLen : Nat} (hrun : Remaps g s s')
      (hblock : block < s'.ram.systemBlks)
      (hnew : (findAvailableBlock g s'.flash s'.ram false).isSome = true)
      (hok : s'.remap g block copyLen = .ok m') : Remaps g s m'.state

/-- The bad-block table seen by the users of the driver. -/
structure TableInv (g : Geometry) (s : State) : Prop where
  fromNodup : (s.ram.bmt.live.map BmtEntry.fromBlk).Nodup
  below : ∀ e ∈ s.ram.bmt.live, e.fromBlk.toNat < s.ram.systemBlks
  toNodup : (s.ram.bmt.live.map BmtEntry.toBlk).Nodup
  pool : ∀ e ∈ s.ram.bmt.live,
    s.ram.systemBlks ≤ e.toBlk.toNat ∧ e.toBlk.toNat < g.totalBlks
  good : ∀ e ∈ s.ram.bmt.live, isBad s.flash e.toBlk.toNat = false
  back : ∀ e ∈ s.ram.bmt.live, mappedBlock s.flash e.toBlk.toNat = e.fromBlk
  notIndex : ∀ e ∈ s.ram.bmt.live,
    e.toBlk.toNat ≠ s.ram.bmtIndex ∧ e.toBlk.toNat ≠ s.ram.bbtIndex
  injective : ∀ a b, a < s.ram.systemBlks → b < s.ram.systemBlks →
    getMappingBlock s.ram a = getMappingBlock s.ram b → a = b

theorem getMappingBlock_injective (hs : Based g s) (hu : Unique s) {a b : Nat}
    (ha : a < s.ram.systemBlks) (hb : b < s.ram.systemBlks)
    (h : getMappingBlock s.ram a = getMappingBlock s.ram b) : a = b := by
  rcases getMappingBlock_cases s.ram a with h1 | ⟨e, he, hk, hto⟩
  · rcases getMappingBlock_cases s.ram b with h2 | ⟨e, he, hk, hto⟩
    · rw [← h1, h, h2]
    · have hpool := (hs.entry e he).pool
      omega
  · by_contra hne
    have hk' : e.key ≠ b := by rw [hk]; exact hne
    exact hu.target_ne hs hb he hk' (hto.symm.trans h)

theorem TableInv.of_unique (hs : Based g s) (hu : Unique s) : TableInv g s where
  fromNodup := by
    have h := hu.fromNodup
    have heq : s.ram.bmt.live.map BmtEntry.key =
        (s.ram.bmt.live.map BmtEntry.fromBlk).map UInt16.toNat := by
      rw [List.map_map]
      rfl
    rw [heq] at h
    exact h.of_map
  below e he := (hs.entry e he).below
  toNodup := by
    have h := hu.toNodup
    have heq : s.ram.bmt.live.map (fun e => e.toBlk.toNat) =
        (s.ram.bmt.live.map BmtEntry.toBlk).map UInt16.toNat := by
      rw [List.map_map]
      rfl
    rw [heq] at h
    exact h.of_map
  pool e he := (hs.entry e he).pool
  good := hu.good
  back e he := (hs.entry e he).back
  notIndex e he := ⟨(hs.entry e he).ne_bmt, (hs.entry e he).ne_bbt⟩
  injective _ _ ha hb h := getMappingBlock_injective hs hu ha hb h

/-- The invariant survives any run of `remap_block`. -/
theorem Remaps.unique {s' : State} (hs : Based g s) (hu : Unique s) (hrun : Remaps g s s') :
    Based g s' ∧ Unique s' := by
  induction hrun with
  | refl => exact ⟨hs, hu⟩
  | remap hrun hblock hnew hok ih =>
    obtain ⟨hs', hu'⟩ := ih
    have hplan := hs'.plan hblock hnew
    have hdone := remapDone hs' hblock hnew hok
    exact ⟨hdone.based hs' hplan, hdone.unique hs' hu' hplan⟩

/-- The `bmt` that `init` takes from the flash, if it finds both tables. -/
def loadedBmt (g : Geometry) (f : Flash) (beyond : Nat → UInt8) : Option BmtTable :=
  match parseBbt g f (setupRam g f beyond).systemBlks, parseBmt g f (setupRam g f beyond) with
  | some _, some j => some (BmtTable.decode (f j).data)
  | _, _ => none

theorem loadedBmt_of_parsed {f : Flash} {beyond : Nat → UInt8} {i j : Nat}
    (hi : parseBbt g f (setupRam g f beyond).systemBlks = some i)
    (hj : parseBmt g f (setupRam g f beyond) = some j) :
    loadedBmt g f beyond = some (BmtTable.decode (f j).data) := by
  unfold loadedBmt
  rw [hi, hj]

theorem based_boot {f : Flash} {beyond : Nat → UInt8} {m : Machine} (hno : NoMappings g f)
    (hempty : ∀ t, loadedBmt g f beyond = some t → t.live = [])
    (h : boot g f beyond = .ok m) : Based g m.state ∧ m.ram.bmt.live = [] := by
  have hlt := poolStart_lt g f
  have hsys := setupRam_systemBlks g f beyond
  rcases boot_cases g f beyond with ⟨i, j, hi, hj⟩ | ⟨ram, hun⟩
  · rw [boot_eq_of_parsed hi hj] at h
    cases h
    have hlive := hempty _ (loadedBmt_of_parsed hi hj)
    obtain ⟨hi1, hi2, hi3, hi4⟩ := parseBbt_spec (by omega) hi
    obtain ⟨hj1, hj2, hj3, hj4⟩ := parseBmt_spec hj
    have hne : j ≠ i := by
      rintro rfl
      exact not_both_accepted hi4 hj4
    refine ⟨⟨⟨by exact Nat.le_of_lt hj1, hj2⟩, ⟨hi1, hi2⟩, hne, ?_, ?_, fun e he => ?_⟩, hlive⟩
    · exact free_iff.mpr ⟨hj3, hno j hj2⟩
    · exact free_iff.mpr ⟨hi3, hno i hi2⟩
    · have he' : e ∈ (BmtTable.decode (f j).data).live := he
      rw [hlive] at he'
      cases he'
  · rw [boot_eq_of_unparsed hun] at h
    obtain ⟨hc1, hc2, -, -⟩ := hun.consts
    obtain ⟨β, μ, hr⟩ := rebuilt_of_ok hc2 h
    refine ⟨hr.based (by omega) ?_, ?_⟩
    · rcases hun.stale with hs | ⟨h1, h2, h3⟩
      · exact Or.inl hs
      · rw [hc1]
        exact Or.inr ⟨h1, h2, free_iff.mpr ⟨h3, hno _ h2⟩⟩
    · rw [hr.live]
      exact oobEntries_of_noMappings hno (by omega)

/-- In every state reached from `init` on a flash without OOB mappings by
successful remaps the table is a one-to-one assignment of good pool blocks,
provided a table that `init` finds on the flash is empty. -/
theorem tableInv_reachable {f : Flash} {beyond : Nat → UInt8} {m : Machine}
    (hno : NoMappings g f) (hempty : ∀ t, loadedBmt g f beyond = some t → t.live = [])
    (hboot : boot g f beyond = .ok m) (hrun : Remaps g m.state s) : TableInv g s := by
  obtain ⟨hs, hlive⟩ := based_boot hno hempty hboot
  have hu : Unique m.state := by
    refine ⟨?_, ?_, fun e he => ?_⟩
    · show (m.ram.bmt.live.map _).Nodup
      rw [hlive]
      exact List.nodup_nil
    · show (m.ram.bmt.live.map _).Nodup
      rw [hlive]
      exact List.nodup_nil
    · have he' : e ∈ m.ram.bmt.live := he
      rw [hlive] at he'
      cases he'
  obtain ⟨hs', hu'⟩ := hrun.unique hs hu
  exact TableInv.of_unique hs' hu'

/-! ## A chip with 50 blocks -/

/-- Four of its blocks are the pool, 46 to 49. -/
def chip50 : Geometry where
  totalBlks := 50
  pgSize := 2048
  eraseSize := 131072
  totalBlks_pos := by decide
  totalBlks_u16 := by decide
  page_holds_table := sizeofBmt_le_page

def erasedFlash : Flash := fun _ => ⟨fun _ => 0xff, Oob.blank⟩

def zeroMemory : Nat → UInt8 := fun _ => 0

theorem exists_ok {α ε : Type} {x : Except ε α} (h : x.toBool = true) : ∃ a, x = .ok a := by
  cases x with
  | error e => cases h
  | ok a => exact ⟨a, rfl⟩

theorem exists_of_toOption_map {α γ ε : Type} {x : Except ε α} {k : α → γ} {c : γ}
    (h : x.toOption.map k = some c) : ∃ a, x = .ok a ∧ k a = c := by
  cases x with
  | error e => cases h
  | ok a => exact ⟨a, rfl, Option.some.inj h⟩

/-- Starting the erased chip and remapping block 0. -/
theorem erasedFlash_run : ∃ m m', boot chip50 erasedFlash zeroMemory = .ok m ∧
    m.state.remap chip50 0 0 = .ok m' ∧ Remaps chip50 m.state m'.state := by
  have hrun : (boot chip50 erasedFlash zeroMemory >>= fun m =>
      if 0 < m.ram.systemBlks ∧ (findAvailableBlock chip50 m.flash m.ram false).isSome = true then
        m.state.remap chip50 0 0 else .error .noPoolBlock).toBool = true := by decide +kernel
  cases hboot : boot chip50 erasedFlash zeroMemory with
  | error e => rw [hboot] at hrun; cases hrun
  | ok m =>
    rw [hboot] at hrun
    simp only [bind, Except.bind] at hrun
    split at hrun
    · rename_i hc
      obtain ⟨m', hm'⟩ := exists_ok hrun
      exact ⟨m, m', rfl, hm', Remaps.refl.remap hc.1 hc.2 hm'⟩
    · cases hrun

theorem tableInv_erasedFlash : ∃ m m', boot chip50 erasedFlash zeroMemory = .ok m ∧
    m.state.remap chip50 0 0 = .ok m' ∧ TableInv chip50 m'.state := by
  obtain ⟨m, m', hboot, hm', hrun⟩ := erasedFlash_run
  refine ⟨m, m', hboot, hm', ?_⟩
  refine tableInv_reachable (f := erasedFlash) (fun b _ => rfl) (fun t ht => ?_) hboot hrun
  have hnone : (loadedBmt chip50 erasedFlash zeroMemory).isSome = false := by decide
  rw [ht] at hnone
  cases hnone

/-- A table that maps blocks 0 and 1 to block 47. -/
def doubleBmt : BmtTable where
  signature := bmtSignature
  version := 1
  badCount := 0
  size := 2
  checksum := 98
  reserved := fun _ => 0
  table := ⟨0, 47⟩ :: ⟨1, 47⟩ :: List.replicate 248 ⟨0, 0⟩
  table_length := by
    rw [List.length_cons, List.length_cons, List.length_replicate]
    rfl

def emptyBbt : BbtTable := { BbtTable.zero with signature := bbtSignature, version := 1 }

/-- `emptyBbt` as `update_bmt_bbt` writes it. -/
def sealedBbt : BbtTable := { emptyBbt with checksum := emptyBbt.computeChecksum.toUInt32 }

theorem bbtAt_of_sealed {f : Flash} {b : Nat} (hgood : isBad f b = false)
    (h : BbtTable.decode (f b).data = sealedBbt) : bbtAt f b = true := by
  have hseal : sealedBbt.accepted = true := BbtTable.accepted_sealed (t := emptyBbt) rfl
  unfold bbtAt
  rw [hgood, h, hseal]
  rfl

theorem parseBbt_of_first {g : Geometry} {sys : Nat} {f : Flash} (h : sys < g.totalBlks)
    (hat : bbtAt f sys = true) : parseBbt g f sys = some sys :=
  scanUp_eq_some_iff.mpr ⟨Nat.le_refl _, by omega, hat, fun j h1 h2 => by omega⟩

/-- An erased chip with tables in blocks 46 and 49. -/
def forgedFlash : Flash := fun b =>
  { data := if b = 46 then sealedBbt.byte else if b = 49 then doubleBmt.byte
      else fun _ => 0xff
    oob := Oob.blank }

theorem parsed_forgedFlash :
    parseBbt chip50 forgedFlash (setupRam chip50 forgedFlash zeroMemory).systemBlks = some 46 ∧
      parseBmt chip50 forgedFlash (setupRam chip50 forgedFlash zeroMemory) = some 49 ∧
      BmtTable.decode (forgedFlash 49).data = doubleBmt := by
  have hsys : (setupRam chip50 forgedFlash zeroMemory).systemBlks = 46 := by decide
  refine ⟨?_, by decide +kernel, BmtTable.decode_eq fun o _ => rfl⟩
  rw [hsys]
  exact parseBbt_of_first (by decide) (bbtAt_of_sealed rfl (BbtTable.decode_eq fun o _ => rfl))

/-- `init` takes a table from the flash as it is, two rows with one target included. -/
theorem not_tableInv_forged : ∃ m, NoMappings chip50 forgedFlash ∧
    boot chip50 forgedFlash zeroMemory = .ok m ∧ Remaps chip50 m.state m.state ∧
    ¬ TableInv chip50 m.state := by
  obtain ⟨hi, hj, hbmt⟩ := parsed_forgedFlash
  refine ⟨_, fun b _ => rfl, boot_eq_of_parsed hi hj, Remaps.refl, fun h => ?_⟩
  have hnodup : ((BmtTable.decode (forgedFlash 49).data).live.map BmtEntry.toBlk).Nodup :=
    h.toNodup
  rw [hbmt] at hnodup
  exact absurd hnodup (by decide)

end Airoha.Bmt
