/-
Airoha.Ppe.CleanMac — cleaning the flows of a MAC address.

Translates `airoha_ppe_clean_entry_by_mac_common`, with
`get_ppe_entry_smac_index` and `airoha_ppe_clear_sram_table_flow`. The loop
gathers the source address of an entry in `h_source`, an array that lives
outside the loop: what an entry does not write there is left from the entries
before it. `Wanted` says which entries the address is one of, `CleansByMac`
that those are the ones cleared, and `cleansByMac_iff` when that is so. An entry is
cleared when it is cleared where the engine looks it up: the zeros of `ppe->foe`
are not enough when the SRAM does not take them.
-/
import Airoha.Lib.Sweep
import Airoha.Ppe.Foe

namespace Airoha.Ppe

open Airoha.Lib

/-! ## The functions -/

/-- `SRC_MAC`, `DST_MAC` and `SRC_DST_MAC`. -/
inductive MacType where
  | srcMac
  | dstMac
  | srcDstMac
deriving DecidableEq, Repr

/-- `airoha_ppe_clear_sram_table_flow` -/
def airohaPpeClearSramTableFlow (hw : PpeHw) (entryIdx : Nat) (c : FoeCell) : FoeCell :=
  if hw.sramNum ≤ entryIdx then c
  else airohaPpeFoeCommitEntry hw entryIdx { c with foe := Vector.replicate 20 0#32 }

/-- The `l2` that the cleaning functions take for a type. -/
def l2Of (type : PktType) : L2 :=
  if PktType.ipv6Route3t.code ≤ type.code then .ipv6
  else if type = .bridge then .ipv6
  else .ipv4

/-- `h_dest` of a round. -/
def hDest (e : FoeEntry) : Mac :=
  if e.pktType = .bridge then Mac.of e.bridgeDestMacHi e.bridgeDestMacLo
  else Mac.of (e.destMacHi (l2Of e.pktType)) (e.destMacLo (l2Of e.pktType))

/-- The types that have no branch of their own where `l2` is chosen. -/
def elseIpv4 (type : PktType) : Bool :=
  !decide (PktType.ipv6Route3t.code ≤ type.code) && type != .bridge && type != .ipv4Dslite

/-- `h_source` behind the choice of `l2` and the copy. -/
def hSourceCopied (e : FoeEntry) (hSource : Mac) : Mac :=
  let hSource := if elseIpv4 e.pktType then hSource.putLo e.srcMacLo else hSource
  if e.pktType = .bridge then (hSource.putHi e.bridgeSrcMacHi).putLo e.bridgeSrcMacLo
  else hSource.putHi (e.srcMacHi (l2Of e.pktType))

/-- `h_source` of a round, from that of the round before. -/
def hSourceOf (tbl : Table) (e : FoeEntry) (hSource : Mac) : Mac :=
  let hSource := hSourceCopied e hSource
  if e.pktType = .ipv6Route3t ∨ e.pktType = .ipv6Route5t ∨ e.pktType = .ipv66rd then
    let index := getPpeEntrySmacIndex e .ipv6Route5t
    if index ≠ 0x10 then
      if index < updmemNum then (tbl .smac index).content else hSource
    else hSource
  else hSource

/-- `del_flag` of a round. -/
def delFlag (macType : MacType) (mac hSource hDest : Mac) : Bool :=
  match macType with
  | .srcMac => hSource == mac
  | .dstMac => hDest == mac
  | .srcDstMac => hSource == mac || hDest == mac

/-- One round of the loop, which leaves it when the entry cannot be read. -/
def cleanMacRound (hw : PpeHw) (tbl : Table) (mac : Mac) (macType : MacType) (idx : Nat)
    (hSource : Mac) (c : FoeCell) : Option (Mac × FoeCell) :=
  match airohaPpeFoeGetEntry hw idx c with
  | none => none
  | some c =>
      if c.foe.state ≠ .bind then some (hSource, c)
      else
        let hSource := hSourceOf tbl c.foe hSource
        if delFlag macType mac hSource (hDest c.foe) then
          some (hSource, airohaPpeClearSramTableFlow hw idx c)
        else some (hSource, c)

/-- `airoha_ppe_clean_entry_by_mac_common`, for a `mac` that is not `NULL`. -/
def airohaPpeCleanEntryByMacCommon (hw : PpeHw) (tbl : Table) (mac : Mac) (macType : MacType)
    (t : Nat → FoeCell) : Nat → FoeCell :=
  sweep (cleanMacRound hw tbl mac macType) 0 hw.numEntries Mac.zero t

/-! ## What is meant -/

/-- The slot an IPv6 entry has its source address in. The number for "keep" is none, and neither are
those the table does not go up to. -/
def smacSlot (e : FoeEntry) : Option Nat :=
  let n := (fieldGet 16 5 (e.srcMacHi .ipv6)).toNat
  if n < 15 then some n else none

/-- The source address of an entry. -/
def ownSource (tbl : Table) (e : FoeEntry) : Option Mac :=
  match e.pktType with
  | .ipv4Hnapt | .ipv4Route | .ipv4Dslite => some (Mac.of (e.srcMacHi .ipv4) e.srcMacLo)
  | .bridge => some (Mac.of e.bridgeSrcMacHi e.bridgeSrcMacLo)
  | .ipv6Route3t | .ipv6Route5t | .ipv66rd => (smacSlot e).map fun k => (tbl .smac k).content
  | .reserved => none

/-- The address is the one that `mac_type` asks for. -/
def Selected (macType : MacType) (mac : Mac) (source : Option Mac) (dest : Mac) : Prop :=
  match macType with
  | .srcMac => source = some mac
  | .dstMac => dest = mac
  | .srcDstMac => source = some mac ∨ dest = mac

/-- A bound flow of the address. -/
def WantedByMac (tbl : Table) (mac : Mac) (macType : MacType) (e : FoeEntry) : Prop :=
  e.state = .bind ∧ Selected macType mac (ownSource tbl e) (hDest e)

instance (macType : MacType) (mac : Mac) (source : Option Mac) (dest : Mac) :
    Decidable (Selected macType mac source dest) :=
  match macType with
  | .srcMac => inferInstanceAs (Decidable (source = some mac))
  | .dstMac => inferInstanceAs (Decidable (dest = mac))
  | .srcDstMac => inferInstanceAs (Decidable (source = some mac ∨ dest = mac))

instance (tbl : Table) (mac : Mac) (macType : MacType) (e : FoeEntry) :
    Decidable (WantedByMac tbl mac macType e) :=
  inferInstanceAs (Decidable (_ ∧ _))

/-- Exactly the flows of the address are cleared, and what becomes of an entry does not depend on
any other. -/
structure CleansByMac (hw : PpeHw) (tbl : Table) (mac : Mac) (macType : MacType)
    (t : Nat → FoeCell) : Prop where
  exact : ∀ i < hw.numEntries,
    (airohaPpeCleanEntryByMacCommon hw tbl mac macType t i).entry hw i =
      if WantedByMac tbl mac macType ((t i).entry hw i) then Vector.replicate 20 0#32
      else (t i).entry hw i
  alone : ∀ i < hw.numEntries, ∀ t', t' i = t i →
    (airohaPpeCleanEntryByMacCommon hw tbl mac macType t' i).entry hw i =
      (airohaPpeCleanEntryByMacCommon hw tbl mac macType t i).entry hw i

/-! ## When it is so -/

/-- The entry does not write the last two bytes of `h_source`: a DS-Lite entry, one of the undefined
type, and an IPv6 entry without a slot. -/
def Borrows (e : FoeEntry) : Prop :=
  match e.pktType with
  | .ipv4Hnapt | .ipv4Route | .bridge => False
  | .ipv4Dslite | .reserved => True
  | .ipv6Route3t | .ipv6Route5t | .ipv66rd => smacSlot e = none

/-- A bound entry whose fate is decided by those two bytes. -/
def Exposed (mac : Mac) (macType : MacType) (e : FoeEntry) : Prop :=
  e.state = .bind ∧ Borrows e ∧ macType ≠ .dstMac ∧ e.srcMacHi (l2Of e.pktType) = mac.hi ∧
    ¬(macType = .srcDstMac ∧ hDest e = mac)

/-- Every entry up to this one can be read. -/
def PpeHw.Reaches (hw : PpeHw) (i : Nat) : Prop := ∀ j ≤ i, hw.Readable j

/-- The flows of the address are in the SRAM, are come to, and can be written; of the entries whose
fate the two bytes decide only the first is come to and can be written, and for it they are zero. -/
def MacGuard (hw : PpeHw) (tbl : Table) (mac : Mac) (macType : MacType) (t : Nat → FoeCell) :
    Prop :=
  ∀ i < hw.numEntries,
    (WantedByMac tbl mac macType ((t i).entry hw i) → hw.Commits i ∧ hw.Reaches i) ∧
    (Exposed mac macType ((t i).entry hw i) → hw.Commits i → hw.Reaches i →
      i = 0 ∧ (mac.lo = 0#16 ↔ ownSource tbl ((t i).entry hw i) = some mac))

/-! ## What a round takes for the source -/

section Source

variable {tbl : Table} {e : FoeEntry} {hSource : Mac}

/-- An IPv6 entry with a slot takes its source from there. -/
theorem hSourceOf_slot {k : Nat} (hk : smacSlot e = some k)
    (ht : e.pktType = .ipv6Route3t ∨ e.pktType = .ipv6Route5t ∨ e.pktType = .ipv66rd) :
    hSourceOf tbl e hSource = (tbl .smac k).content := by
  unfold smacSlot at hk
  simp only [Option.ite_none_right_eq_some, Option.some.injEq] at hk
  obtain ⟨hlt, rfl⟩ := hk
  have hne : (fieldGet 16 5 (e.srcMacHi .ipv6)).toNat ≠ 15 := by omega
  have h16 : (fieldGet 16 5 (e.srcMacHi .ipv6)).toNat ≠ 16 := by omega
  have hnum : (fieldGet 16 5 (e.srcMacHi .ipv6)).toNat < updmemNum := by
    rw [updmemNum]
    omega
  simp [hSourceOf, getPpeEntrySmacIndex_eq, ht, hne, h16, hnum]

/-- One without keeps what was copied. -/
theorem hSourceOf_no_slot (hk : smacSlot e = none) :
    hSourceOf tbl e hSource = hSourceCopied e hSource := by
  unfold smacSlot at hk
  have hge : ¬ (fieldGet 16 5 (e.srcMacHi .ipv6)).toNat < 15 := by
    intro h
    simp [h] at hk
  unfold hSourceOf
  rw [getPpeEntrySmacIndex_eq, updmemNum]
  simp only
  split_ifs with h1 h2 h3 h4 <;> first | rfl | omega

theorem hSourceCopied_ipv6 (h : PktType.ipv6Route3t.code ≤ e.pktType.code) :
    hSourceCopied e hSource = hSource.putHi (e.srcMacHi (l2Of e.pktType)) := by
  have hb : e.pktType ≠ .bridge := by
    intro hb
    rw [hb] at h
    exact absurd h (by decide)
  simp [hSourceCopied, elseIpv4, h, hb]

/-- An entry that borrows nothing is compared with its own source. -/
theorem hSourceOf_of_not_borrows (tbl : Table) (hSource : Mac) (h : ¬ Borrows e) :
    ownSource tbl e = some (hSourceOf tbl e hSource) := by
  have hipv4 : (hSource.putLo e.srcMacLo).putHi (e.srcMacHi .ipv4) =
      Mac.of (e.srcMacHi .ipv4) e.srcMacLo := by
    simp [Mac.eq_iff]
  have hbridge : (hSource.putHi e.bridgeSrcMacHi).putLo e.bridgeSrcMacLo =
      Mac.of e.bridgeSrcMacHi e.bridgeSrcMacLo := by
    simp [Mac.eq_iff]
  have hslot : smacSlot e ≠ none →
      (e.pktType = .ipv6Route3t ∨ e.pktType = .ipv6Route5t ∨ e.pktType = .ipv66rd) →
      (smacSlot e).map (fun k => (tbl .smac k).content) = some (hSourceOf tbl e hSource) := by
    intro hne ht
    obtain ⟨k, hk⟩ := Option.ne_none_iff_exists'.mp hne
    rw [hSourceOf_slot hk ht, hk, Option.map_some]
  unfold ownSource
  unfold Borrows at h
  cases ht : e.pktType with
  | ipv4Hnapt => simp [hSourceOf, hSourceCopied, elseIpv4, l2Of, PktType.code, ht, hipv4]
  | ipv4Route => simp [hSourceOf, hSourceCopied, elseIpv4, l2Of, PktType.code, ht, hipv4]
  | bridge => simp [hSourceOf, hSourceCopied, elseIpv4, ht, hbridge]
  | ipv4Dslite => simp [ht] at h
  | reserved => simp [ht] at h
  | ipv6Route3t => exact hslot (by simpa [ht] using h) (Or.inl ht)
  | ipv6Route5t => exact hslot (by simpa [ht] using h) (Or.inr (Or.inl ht))
  | ipv66rd => exact hslot (by simpa [ht] using h) (Or.inr (Or.inr ht))

/-- An entry that borrows is compared with its first four bytes and the last two of another. -/
theorem hSourceOf_of_borrows (h : Borrows e) :
    hSourceOf tbl e hSource = hSource.putHi (e.srcMacHi (l2Of e.pktType)) := by
  unfold Borrows at h
  cases ht : e.pktType with
  | ipv4Hnapt => simp [ht] at h
  | ipv4Route => simp [ht] at h
  | bridge => simp [ht] at h
  | ipv4Dslite => simp [hSourceOf, hSourceCopied, elseIpv4, ht]
  | reserved => simp [hSourceOf, hSourceCopied, elseIpv4, PktType.code, ht]
  | ipv6Route3t | ipv6Route5t | ipv66rd =>
    rw [hSourceOf_no_slot (by simpa [ht] using h),
      hSourceCopied_ipv6 (by simp [ht, PktType.code]), ht]

theorem delFlag_iff {macType : MacType} {mac dest : Mac} :
    delFlag macType mac hSource dest = true ↔ Selected macType mac (some hSource) dest := by
  cases macType <;> simp [delFlag, Selected]

end Source

/-! ## What a round does -/

/-- `h_source` behind an entry. -/
def nextSource (tbl : Table) (e : FoeEntry) (hSource : Mac) : Mac :=
  if e.state = .bind then hSourceOf tbl e hSource else hSource

/-- The round clears the entry. -/
def ClearedByMac (hw : PpeHw) (tbl : Table) (mac : Mac) (macType : MacType) (i : Nat)
    (hSource : Mac) (e : FoeEntry) : Prop :=
  e.state = .bind ∧ hw.Commits i ∧ Selected macType mac (some (hSourceOf tbl e hSource)) (hDest e)

instance (hw : PpeHw) (tbl : Table) (mac : Mac) (macType : MacType) (i : Nat) (hSource : Mac)
    (e : FoeEntry) : Decidable (ClearedByMac hw tbl mac macType i hSource e) :=
  inferInstanceAs (Decidable (_ ∧ _ ∧ _))

variable {hw : PpeHw} {tbl : Table} {mac : Mac} {macType : MacType} {t t' : Nat → FoeCell} {i : Nat}
  {hSource : Mac} {c : FoeCell}

theorem entry_clearSramTableFlow :
    (airohaPpeClearSramTableFlow hw i c).entry hw i =
      if hw.Commits i then Vector.replicate 20 0#32 else c.entry hw i := by
  unfold airohaPpeClearSramTableFlow airohaPpeFoeCommitEntry PpeHw.Commits FoeCell.entry
  by_cases h : i < hw.sramNum
  · by_cases hack : hw.writeAcks i = true
    · simp [h, hack, Nat.not_le.mpr h]
    · simp [h, hack, Nat.not_le.mpr h]
  · simp [h, Nat.not_lt.mp h]

theorem cleanMacRound_of_readable (tbl : Table) (mac : Mac) (macType : MacType) (hSource : Mac)
    (c : FoeCell) (h : hw.Readable i) :
    ∃ c', cleanMacRound hw tbl mac macType i hSource c =
        some (nextSource tbl (c.entry hw i) hSource, c') ∧
      c'.entry hw i = if ClearedByMac hw tbl mac macType i hSource (c.entry hw i) then
        Vector.replicate 20 0#32 else c.entry hw i := by
  obtain ⟨c1, hget, hfoe, hentry⟩ := airohaPpeFoeGetEntry_of_readable (c := c) h
  rw [cleanMacRound, hget]
  simp only [hfoe, nextSource, ClearedByMac]
  by_cases hb : (c.entry hw i).state = .bind
  · by_cases hd : delFlag macType mac (hSourceOf tbl (c.entry hw i) hSource)
        (hDest (c.entry hw i)) = true
    · refine ⟨airohaPpeClearSramTableFlow hw i c1, ?_, ?_⟩
      · simp [hb, hd]
      · simp [hb, entry_clearSramTableFlow, hentry, delFlag_iff.mp hd]
    · refine ⟨c1, ?_, ?_⟩
      · simp [hb, hd]
      · rw [delFlag_iff] at hd
        simp [hd, hentry]
  · exact ⟨c1, by simp [hb], by simp [hb, hentry]⟩

theorem cleanMacRound_of_not_readable (h : ¬ hw.Readable i) :
    cleanMacRound hw tbl mac macType i hSource c = none := by
  rw [cleanMacRound, airohaPpeFoeGetEntry_of_not_readable h]

/-! ## What the loop does -/

/-- `h_source` when the loop comes to entry `i`. -/
def sourceAt (hw : PpeHw) (tbl : Table) (mac : Mac) (macType : MacType) (t : Nat → FoeCell)
    (i : Nat) : Option Mac :=
  carried (cleanMacRound hw tbl mac macType) t 0 i Mac.zero

theorem sourceAt_succ {hSource : Mac} (hs : sourceAt hw tbl mac macType t i = some hSource)
    (h : hw.Readable i) :
    sourceAt hw tbl mac macType t (i + 1) = some (nextSource tbl ((t i).entry hw i) hSource) := by
  obtain ⟨c', hround, -⟩ := cleanMacRound_of_readable tbl mac macType hSource (t i) h
  rw [sourceAt, carried_zero_succ, ← sourceAt, hs, Option.bind_some, hround, Option.map_some]

theorem exists_sourceAt (tbl : Table) (mac : Mac) (macType : MacType) (t : Nat → FoeCell)
    (h : ∀ j < i, hw.Readable j) :
    ∃ hSource, sourceAt hw tbl mac macType t i = some hSource := by
  induction i with
  | zero => exact ⟨Mac.zero, rfl⟩
  | succ i ih =>
    obtain ⟨hSource, hs⟩ := ih fun j hj => h j (by omega)
    exact ⟨_, sourceAt_succ hs (h i (by omega))⟩

theorem sourceAt_of_not_readable {j : Nat} (hj : j < i) (h : ¬ hw.Readable j) :
    sourceAt hw tbl mac macType t i = none := by
  induction i with
  | zero => exact absurd hj (Nat.not_lt_zero j)
  | succ i ih =>
    rw [sourceAt, carried_zero_succ, ← sourceAt]
    rcases Nat.lt_succ_iff_lt_or_eq.mp hj with hlt | rfl
    · rw [ih hlt, Option.bind_none]
    · cases sourceAt hw tbl mac macType t j with
      | none => rfl
      | some hSource => rw [Option.bind_some, cleanMacRound_of_not_readable h, Option.map_none]

/-- An entry the loop comes to. -/
theorem entry_cleanEntryByMac (hi : i < hw.numEntries) (hr : hw.Readable i)
    (hs : sourceAt hw tbl mac macType t i = some hSource) :
    (airohaPpeCleanEntryByMacCommon hw tbl mac macType t i).entry hw i =
      if ClearedByMac hw tbl mac macType i hSource ((t i).entry hw i) then Vector.replicate 20 0#32
      else (t i).entry hw i := by
  obtain ⟨c', hround, hentry⟩ := cleanMacRound_of_readable tbl mac macType hSource (t i) hr
  rw [airohaPpeCleanEntryByMacCommon, sweep_zero hi, ← sourceAt, hs, ← hentry]
  simp [outcome, hround]

/-- An entry it does not come to. -/
theorem cleanEntryByMac_of_not_reaches (hi : i < hw.numEntries) (hr : ¬ hw.Reaches i) :
    airohaPpeCleanEntryByMacCommon hw tbl mac macType t i = t i := by
  rw [airohaPpeCleanEntryByMacCommon, sweep_zero hi, ← sourceAt]
  obtain ⟨j, hj, hnr⟩ : ∃ j ≤ i, ¬ hw.Readable j := by
    simpa [PpeHw.Reaches] using hr
  rcases Nat.lt_or_eq_of_le hj with hlt | rfl
  · rw [sourceAt_of_not_readable hlt hnr]
    rfl
  · cases hs : sourceAt hw tbl mac macType t j with
    | none => rfl
    | some hSource => simp [outcome, cleanMacRound_of_not_readable hnr]

/-! ## Which entries come out right -/

section Entries

variable {e : FoeEntry}

theorem ownSource_hi (hb : Borrows e) (h : ownSource tbl e = some mac) :
    e.srcMacHi (l2Of e.pktType) = mac.hi := by
  unfold Borrows at hb
  unfold ownSource at h
  cases ht : e.pktType with
  | ipv4Dslite =>
    simp only [ht, Option.some.injEq] at h
    rw [← h, Mac.hi_of]
    rfl
  | ipv4Hnapt | ipv4Route | bridge | reserved | ipv6Route3t | ipv6Route5t | ipv66rd =>
    simp_all

/-- Away from the exposed entries the loop judges as it should, whatever it carries. -/
theorem clearedByMac_iff (h : ¬ Exposed mac macType e) :
    ClearedByMac hw tbl mac macType i hSource e ↔
      hw.Commits i ∧ WantedByMac tbl mac macType e := by
  have hsel : e.state = .bind → (Selected macType mac (some (hSourceOf tbl e hSource)) (hDest e) ↔
      Selected macType mac (ownSource tbl e) (hDest e)) := by
    intro hbind
    by_cases hb : Borrows e
    · by_cases hhi : e.srcMacHi (l2Of e.pktType) = mac.hi
      · cases macType with
        | srcMac => exact absurd ⟨hbind, hb, by decide, hhi, by simp⟩ h
        | dstMac => rfl
        | srcDstMac =>
          have hd : hDest e = mac := by
            by_contra hd
            exact h ⟨hbind, hb, by decide, hhi, by simp [hd]⟩
          simp [Selected, hd]
      · have h1 : hSourceOf tbl e hSource ≠ mac := by
          intro heq
          rw [hSourceOf_of_borrows hb] at heq
          exact hhi (by rw [← heq, Mac.hi_putHi])
        have h2 : ownSource tbl e ≠ some mac := fun heq => hhi (ownSource_hi hb heq)
        cases macType <;> simp [Selected, h1, h2]
    · rw [hSourceOf_of_not_borrows tbl hSource hb]
  unfold ClearedByMac WantedByMac
  constructor
  · rintro ⟨h1, h2, h3⟩
    exact ⟨h2, h1, (hsel h1).mp h3⟩
  · rintro ⟨h1, h2, h3⟩
    exact ⟨h2, h1, (hsel h2).mpr h3⟩

/-- An exposed entry is judged by what the loop carries. -/
theorem clearedByMac_of_exposed (h : Exposed mac macType e) :
    ClearedByMac hw tbl mac macType i hSource e ↔ hw.Commits i ∧ hSource.lo = mac.lo := by
  obtain ⟨hbind, hb, hne, hhi, hd⟩ := h
  have heq : hSourceOf tbl e hSource = mac ↔ hSource.lo = mac.lo := by
    rw [hSourceOf_of_borrows hb, Mac.eq_iff, Mac.hi_putHi, Mac.lo_putHi, hhi]
    simp
  unfold ClearedByMac
  cases macType with
  | srcMac => simp [Selected, hbind, heq]
  | dstMac => exact absurd rfl hne
  | srcDstMac =>
    have hd' : hDest e ≠ mac := by simpa using hd
    simp [Selected, hbind, heq, hd']

theorem wantedByMac_of_exposed (h : Exposed mac macType e) :
    WantedByMac tbl mac macType e ↔ ownSource tbl e = some mac := by
  obtain ⟨hbind, -, hne, -, hd⟩ := h
  unfold WantedByMac
  cases macType with
  | srcMac => simp [Selected, hbind]
  | dstMac => exact absurd rfl hne
  | srcDstMac =>
    have hd' : hDest e ≠ mac := by simpa using hd
    simp [Selected, hbind, hd']

theorem ne_zero_of_bind (h : e.state = .bind) : Vector.replicate 20 0#32 ≠ e := by
  intro heq
  rw [← heq] at h
  exact absurd h (by decide)

end Entries

/-! ## An entry before it that lends the two bytes -/

/-- A bound flow whose source address ends in these two bytes. -/
def lender (lo : BitVec 16) : FoeCell :=
  let e := (FoeEntry.put (Vector.replicate 20 0#32) 0 0x20000000#32).put 15 (lo ++ 0#16)
  { foe := e, sram := e }

theorem nextSource_lender (lo : BitVec 16) :
    (nextSource tbl ((lender lo).entry hw i) hSource).lo = lo := by
  have hentry : (lender lo).entry hw i = (lender lo).foe := ite_self _
  have hib1 : (lender lo).foe.ib1 = 0x20000000#32 := rfl
  have htype : (lender lo).foe.pktType = .ipv4Hnapt := by
    rw [FoeEntry.pktType, hib1]
    decide
  have hb : ¬ Borrows (lender lo).foe := by
    rw [Borrows, htype]
    exact fun h => h
  have hown := hSourceOf_of_not_borrows tbl hSource hb
  rw [ownSource, htype] at hown
  have hstate : (lender lo).foe.state = .bind := by
    rw [FoeEntry.state, hib1]
    decide
  rw [hentry, nextSource, if_pos hstate, ← Option.some.inj hown, Mac.lo_of]
  apply BitVec.eq_of_getLsbD_eq
  intro j hj
  have h1 : ¬ 16 + j < 16 := by omega
  have hword : (lender lo).foe.srcMacLo = (lo ++ 0#16).extractLsb' 16 16 := rfl
  rw [hword, BitVec.getLsbD_extractLsb', BitVec.getLsbD_append]
  simp [hj]

/-- The table with every other entry replaced by that flow. -/
def lent (t : Nat → FoeCell) (i : Nat) (lo : BitVec 16) : Nat → FoeCell :=
  Function.update (fun _ => lender lo) i (t i)

theorem entry_lent {lo : BitVec 16} (hi : i + 1 < hw.numEntries) (hr : hw.Reaches (i + 1))
    (hx : Exposed mac macType ((t (i + 1)).entry hw (i + 1))) :
    (airohaPpeCleanEntryByMacCommon hw tbl mac macType
      (lent t (i + 1) lo) (i + 1)).entry hw (i + 1) =
      if hw.Commits (i + 1) ∧ lo = mac.lo then Vector.replicate 20 0#32
      else (t (i + 1)).entry hw (i + 1) := by
  obtain ⟨h0, hs⟩ := exists_sourceAt tbl mac macType (lent t (i + 1) lo) (i := i)
    fun j hj => hr j (by omega)
  have hsucc := sourceAt_succ hs (hr i (by omega))
  have hprev : lent t (i + 1) lo i = lender lo := Function.update_of_ne (by omega) _ _
  have hself : lent t (i + 1) lo (i + 1) = t (i + 1) := Function.update_self _ _ _
  have hcell := entry_cleanEntryByMac hi (hr (i + 1) (Nat.le_refl _)) hsucc
  rw [hcell, hself]
  simp only [clearedByMac_of_exposed hx, hprev, nextSource_lender]

/-! ## The claim and its exact condition -/

theorem entry_of_unreached (hi : i < hw.numEntries) (hr : ¬ hw.Reaches i) :
    (airohaPpeCleanEntryByMacCommon hw tbl mac macType t i).entry hw i = (t i).entry hw i := by
  rw [cleanEntryByMac_of_not_reaches hi hr]

theorem macGuard_of_cleansByMac (h : CleansByMac hw tbl mac macType t) :
    MacGuard hw tbl mac macType t := by
  intro i hi
  have hexact := h.exact i hi
  constructor
  · intro hw1
    have hr : hw.Reaches i := by
      by_contra hr
      rw [entry_of_unreached hi hr, if_pos hw1] at hexact
      exact ne_zero_of_bind hw1.1 hexact.symm
    obtain ⟨hSource, hs⟩ := exists_sourceAt tbl mac macType t (i := i)
      fun j hj => hr j (Nat.le_of_lt hj)
    rw [entry_cleanEntryByMac hi (hr i (Nat.le_refl i)) hs] at hexact
    exact ⟨((iff_of_ite_eq (ne_zero_of_bind hw1.1) hexact).mpr hw1).2.1, hr⟩
  · intro hx hsram hr
    cases i with
    | zero =>
      have hs : sourceAt hw tbl mac macType t 0 = some Mac.zero := rfl
      rw [entry_cleanEntryByMac hi (hr 0 (Nat.le_refl 0)) hs] at hexact
      have hiff := iff_of_ite_eq (ne_zero_of_bind hx.1) hexact
      rw [clearedByMac_of_exposed hx, wantedByMac_of_exposed hx] at hiff
      refine ⟨rfl, ?_⟩
      rw [← hiff]
      constructor
      · intro hlo
        exact ⟨hsram, by rw [hlo]; rfl⟩
      · rintro ⟨-, hlo⟩
        rw [← hlo]
        rfl
    | succ i =>
      -- The neighbour decides: with one that ends as the address does the entry goes, with another
      -- it stays.
      have h1 := h.alone (i + 1) hi (lent t (i + 1) mac.lo) (Function.update_self _ _ _)
      have h2 := h.alone (i + 1) hi (lent t (i + 1) (~~~mac.lo)) (Function.update_self _ _ _)
      rw [entry_lent hi hr hx] at h1 h2
      have hiff := iff_of_ite_eq (ne_zero_of_bind hx.1) (h1.trans h2.symm)
      have hnot : ~~~mac.lo = mac.lo := (hiff.mp ⟨hsram, rfl⟩).2
      have hbit := congrArg (fun x => x.getLsbD 0) hnot
      simp at hbit

theorem clearedByMac_iff_wanted (hg : MacGuard hw tbl mac macType t) (hi : i < hw.numEntries)
    (hr : hw.Reaches i) (hs : sourceAt hw tbl mac macType t i = some hSource) :
    ClearedByMac hw tbl mac macType i hSource ((t i).entry hw i) ↔
      WantedByMac tbl mac macType ((t i).entry hw i) := by
  obtain ⟨g1, g2⟩ := hg i hi
  by_cases hx : Exposed mac macType ((t i).entry hw i)
  · rw [clearedByMac_of_exposed hx, wantedByMac_of_exposed hx]
    constructor
    · rintro ⟨hsram, hlo⟩
      obtain ⟨rfl, hzero⟩ := g2 hx hsram hr
      cases hs
      exact hzero.mp hlo.symm
    · intro hown
      have hsram := (g1 ((wantedByMac_of_exposed hx).mpr hown)).1
      obtain ⟨rfl, hzero⟩ := g2 hx hsram hr
      cases hs
      exact ⟨hsram, (hzero.mpr hown).symm⟩
  · rw [clearedByMac_iff hx]
    exact ⟨fun h => h.2, fun h => ⟨(g1 h).1, h⟩⟩

theorem cleansByMac_of_macGuard (hg : MacGuard hw tbl mac macType t) :
    CleansByMac hw tbl mac macType t := by
  constructor
  · intro i hi
    by_cases hr : hw.Reaches i
    · obtain ⟨hSource, hs⟩ := exists_sourceAt tbl mac macType t (i := i)
        fun j hj => hr j (Nat.le_of_lt hj)
      rw [entry_cleanEntryByMac hi (hr i (Nat.le_refl i)) hs]
      simp only [clearedByMac_iff_wanted hg hi hr hs]
    · have hw1 : ¬ WantedByMac tbl mac macType ((t i).entry hw i) :=
        fun hw1 => hr ((hg i hi).1 hw1).2
      rw [entry_of_unreached hi hr, if_neg hw1]
  · intro i hi t' ht
    by_cases hr : hw.Reaches i
    · have hall : ∀ j < i, hw.Readable j := fun j hj => hr j (Nat.le_of_lt hj)
      have hread := hr i (Nat.le_refl i)
      obtain ⟨hSource, hs⟩ := exists_sourceAt tbl mac macType t hall
      obtain ⟨hSource', hs'⟩ := exists_sourceAt tbl mac macType t' hall
      have hiff : ClearedByMac hw tbl mac macType i hSource' ((t i).entry hw i) ↔
          ClearedByMac hw tbl mac macType i hSource ((t i).entry hw i) := by
        by_cases hx : Exposed mac macType ((t i).entry hw i)
        · rw [clearedByMac_of_exposed hx, clearedByMac_of_exposed hx]
          by_cases hsram : hw.Commits i
          · obtain ⟨rfl, -⟩ := (hg i hi).2 hx hsram hr
            cases hs
            cases hs'
            rfl
          · simp [hsram]
        · rw [clearedByMac_iff hx, clearedByMac_iff hx]
      rw [entry_cleanEntryByMac hi hread hs', entry_cleanEntryByMac hi hread hs, ht]
      simp only [hiff]
    · rw [entry_of_unreached hi hr, entry_of_unreached hi hr, ht]

/-- Cleaning by MAC does what it should exactly for the tables of `MacGuard`. -/
theorem cleansByMac_iff (hw : PpeHw) (tbl : Table) (mac : Mac) (macType : MacType)
    (t : Nat → FoeCell) :
    CleansByMac hw tbl mac macType t ↔ MacGuard hw tbl mac macType t :=
  ⟨macGuard_of_cleansByMac, cleansByMac_of_macGuard⟩

/-! ## A DS-Lite flow cleared for the address of its neighbour -/

/-- An engine with two entries, both in the SRAM, that acknowledges everything. -/
def twoEntries : PpeHw where
  sramNum := 2
  numEntries := 2
  acks := fun _ => true
  writeAcks := fun _ => true
  npu := true

/-- A routed flow whose source ends in 05:06, and a DS-Lite flow from 01:02:03:04:00:00. -/
def mixedTable : Nat → FoeCell
  | 0 => lender 0x0506#16
  | _ =>
      let e := (FoeEntry.put (Vector.replicate 20 0#32) 0 0x26000000#32).put 14 0x01020304#32
      { foe := e, sram := e }

theorem not_cleansByMac_mixedTable :
    ¬ CleansByMac twoEntries emptyTable
      #v[1#8, 2#8, 3#8, 4#8, 5#8, 6#8] .srcMac mixedTable := by
  intro h
  have hexact := h.exact 1 (by decide)
  revert hexact
  decide

end Airoha.Ppe
