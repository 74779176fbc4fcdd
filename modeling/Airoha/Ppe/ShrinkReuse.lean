/-
Airoha.Ppe.ShrinkReuse — what `reuse_shrink_table` does to a slot.

The loop over the bitmap decides one thing, whether a slot that has timed
out is spared: some bound flow must be in its bitmap *and* the word the loop
looks at for that flow must not be zero (`SeenAt`). The words below the one
looked at may have lost bits by then, that one not, which is what the
induction carries (`Reviewed`). `freesOnlyUnreferenced_iff` compares the loop
with what it is for: a slot is given up when it has timed out and no bound
flow refers to it.
-/
import Airoha.Ppe.Shrink

namespace Airoha.Ppe

open Airoha.Lib

/-! ## Bitmaps -/

theorem testBit_clearBit (k idx : Nat) (b : Nat → BitVec 64) :
    testBit idx (clearBit k b) = (testBit idx b && !decide (idx = k)) := by
  unfold testBit clearBit
  rcases eq_or_ne (idx / 64) (k / 64) with h | h
  · have hiff : idx % 64 = k % 64 ↔ idx = k := by omega
    rw [h, Function.update_self, getLsbD_and_not_bit]
    simp [hiff]
  · have hne : idx ≠ k := fun heq => h (by rw [heq])
    simp [Function.update_of_ne h, hne]

/-- Words with the same bits are the same word. -/
theorem word_eq_of_testBit {b b' : Nat → BitVec 64} {i : Nat}
    (h : ∀ idx, 64 * i ≤ idx → testBit idx b = testBit idx b') : b i = b' i := by
  apply BitVec.eq_of_getLsbD_eq
  intro j hj
  have hbit := h (64 * i + j) (Nat.le_add_right _ _)
  unfold testBit at hbit
  have h1 : (64 * i + j) / 64 = i := by omega
  have h2 : (64 * i + j) % 64 = j := by omega
  rwa [h1, h2] at hbit

/-! ## `reuse_shrink_table` -/

section Reuse

variable {maxEntries : Nat} {foe : Nat → Option FoeState} {b : Nat → BitVec 64}

/-- The loop finds flow `idx` bound: its bit is set, the read works, and word `idx / 32` is not
zero. -/
def SeenAt (maxEntries : Nat) (foe : Nat → Option FoeState) (b : Nat → BitVec 64) (idx : Nat) :
    Prop :=
  idx < maxEntries ∧ testBit idx b = true ∧ foe idx = some .bind ∧ b (idx / 32) ≠ 0#64

/-- After the flows below `k`: only unbound ones of them were cleared, and `need_reuse` is still
set unless one was found bound. -/
structure Reviewed (maxEntries : Nat) (foe : Nat → Option FoeState) (b : Nat → BitVec 64) (k : Nat)
    (r : Reuse) : Prop where
  sub : ∀ idx, testBit idx r.bitmap = true → testBit idx b = true
  bits : ∀ idx, ¬ (idx < k ∧ foe idx = some .unbind) → testBit idx r.bitmap = testBit idx b
  need : r.needReuse = false ↔ ∃ idx, idx < k ∧ SeenAt maxEntries foe b idx

theorem Reviewed.word {k i : Nat} {r : Reuse} (h : Reviewed maxEntries foe b k r)
    (hk : k ≤ 64 * i) : r.bitmap i = b i := by
  apply word_eq_of_testBit
  intro idx hidx
  exact h.bits idx fun hlt => by omega

/-- Flows that cannot be found bound may be skipped. -/
theorem Reviewed.skip {k k' : Nat} {r : Reuse} (h : Reviewed maxEntries foe b k r) (hk : k ≤ k')
    (hno : ∀ idx, k ≤ idx → idx < k' → ¬ SeenAt maxEntries foe b idx) :
    Reviewed maxEntries foe b k' r := by
  refine ⟨h.sub, ?_, ?_⟩
  · intro idx hidx
    exact h.bits idx fun hlt => hidx ⟨by omega, hlt.2⟩
  · rw [h.need]
    constructor
    · rintro ⟨idx, hlt, hseen⟩
      exact ⟨idx, by omega, hseen⟩
    · rintro ⟨idx, hlt, hseen⟩
      rcases Nat.lt_or_ge idx k with hlt' | hge
      · exact ⟨idx, hlt', hseen⟩
      · exact absurd hseen (hno idx hge hlt)

theorem Reviewed.idx {k : Nat} {r : Reuse} (h : Reviewed maxEntries foe b k r)
    (hk : k < maxEntries) (hword : b (k / 32) ≠ 0#64) :
    Reviewed maxEntries foe b (k + 1) (reuseIdx foe k r) := by
  have hbit : testBit k r.bitmap = testBit k b := h.bits k fun hlt => by omega
  unfold reuseIdx
  cases htest : testBit k r.bitmap with
  | false =>
    rw [if_neg Bool.false_ne_true]
    refine h.skip (Nat.le_succ k) fun idx h1 h2 hseen => ?_
    have hidx : idx = k := by omega
    subst hidx
    obtain ⟨_, hset, _⟩ := hseen
    rw [← hbit, htest] at hset
    exact absurd hset Bool.false_ne_true
  | true =>
    rw [if_pos rfl]
    have hnot : foe k ≠ some .bind → ∀ idx, k ≤ idx → idx < k + 1 →
        ¬ SeenAt maxEntries foe b idx := by
      intro hfoe idx h1 h2 hseen
      have hidx : idx = k := by omega
      subst hidx
      exact hfoe hseen.2.2.1
    cases hfoe : foe k with
    | none => exact h.skip (Nat.le_succ k) (hnot (by rw [hfoe]; nofun))
    | some st =>
      cases st with
      | invalid => exact h.skip (Nat.le_succ k) (hnot (by rw [hfoe]; nofun))
      | fin => exact h.skip (Nat.le_succ k) (hnot (by rw [hfoe]; nofun))
      | bind =>
        refine ⟨h.sub, fun idx hidx => h.bits idx fun hlt => hidx ⟨by omega, hlt.2⟩, ?_⟩
        refine ⟨fun _ => ⟨k, Nat.lt_succ_self k, hk, ?_, hfoe, hword⟩, fun _ => rfl⟩
        rw [← hbit, htest]
      | unbind =>
        have hskip := h.skip (Nat.le_succ k) (hnot (by rw [hfoe]; nofun))
        refine ⟨fun idx hidx => ?_, fun idx hidx => ?_, hskip.need⟩
        · rw [testBit_clearBit, Bool.and_eq_true] at hidx
          exact h.sub idx hidx.1
        have hne : idx ≠ k := fun heq => hidx ⟨by omega, by rw [heq]; exact hfoe⟩
        rw [testBit_clearBit]
        simp [hne, h.bits idx fun hlt => hidx ⟨by omega, hlt.2⟩]

theorem Reviewed.wordLoop {i : Nat} (hword : b i ≠ 0#64) : ∀ (n j : Nat) (r : Reuse), j + n ≤ 32 →
    Reviewed maxEntries foe b (i * 32 + j) r →
      Reviewed maxEntries foe b (i * 32 + j + n) (reuseWord maxEntries foe i j n r) := by
  intro n
  induction n with
  | zero =>
    intro j r _ h
    exact h
  | succ n ih =>
    intro j r hj h
    rw [reuseWord]
    split
    · rename_i hge
      refine h.skip (Nat.le_add_right _ _) fun idx h1 _ hseen => ?_
      have := hseen.1
      omega
    · rename_i hlt
      have hdiv : (i * 32 + j) / 32 = i := by omega
      have hstep := ih (j + 1) (reuseIdx foe (i * 32 + j) r) (by omega)
        (h.idx (Nat.not_le.mp hlt) (by rwa [hdiv]))
      have heq : i * 32 + j + (n + 1) = i * 32 + (j + 1) + n := by omega
      rw [heq]
      exact hstep

theorem Reviewed.bitmapLoop : ∀ (n i : Nat) (r : Reuse),
    Reviewed maxEntries foe b (i * 32) r →
      Reviewed maxEntries foe b ((i + n) * 32) (reuseBitmap maxEntries foe i n r) := by
  intro n
  induction n with
  | zero =>
    intro i r h
    exact h
  | succ n ih =>
    intro i r h
    have hw : r.bitmap i = b i := h.word (by omega)
    have heq : (i + (n + 1)) * 32 = (i + 1 + n) * 32 := by omega
    rw [reuseBitmap, heq, hw]
    split
    · rename_i hzero
      apply ih
      refine h.skip (by omega) fun idx h1 h2 hseen => ?_
      have hdiv : idx / 32 = i := by omega
      rw [SeenAt, hdiv] at hseen
      exact hseen.2.2.2 hzero
    · rename_i hne
      apply ih
      have hend : (i + 1) * 32 = i * 32 + 0 + 32 := by omega
      rw [hend]
      exact Reviewed.wordLoop hne 32 0 r (by decide) h

theorem reviewed_start : Reviewed maxEntries foe b 0 { bitmap := b, needReuse := true } := by
  refine ⟨fun _ h => h, fun _ _ => rfl, ?_⟩
  simp

end Reuse

/-- `reuse_shrink_table` finds a bound flow for this slot. -/
def Slot.Seen {α : Type} (maxEntries : Nat) (foe : Nat → Option FoeState) (e : Slot α) : Prop :=
  ∃ idx, idx < 16384 ∧ SeenAt maxEntries foe e.bitmap idx

section ReuseSlot

variable {α : Type} {maxEntries : Nat} {foe : Nat → Option FoeState} {jiffies : BitVec 64}
  {e : Slot α}

theorem reviewed_slot (maxEntries : Nat) (foe : Nat → Option FoeState) (e : Slot α) :
    Reviewed maxEntries foe e.bitmap 16384
    (reuseBitmap maxEntries foe 0 bitmapIdxSize { bitmap := e.bitmap, needReuse := true }) :=
  reviewed_start.bitmapLoop 512 0 _

@[simp] theorem reuse_content : (e.reuse maxEntries foe jiffies).content = e.content := by
  unfold Slot.reuse
  split <;> rfl

@[simp] theorem reuse_pinned : (e.reuse maxEntries foe jiffies).pinned = e.pinned := by
  unfold Slot.reuse
  split <;> rfl

@[simp] theorem reuse_timestamp : (e.reuse maxEntries foe jiffies).timestamp = e.timestamp := by
  unfold Slot.reuse
  split <;> rfl

/-- A slot stays valid when it has not timed out or is seen in use. -/
theorem reuse_valid : (e.reuse maxEntries foe jiffies).valid = true ↔
    e.valid = true ∧ (e.timedOut jiffies = true → e.Seen maxEntries foe) := by
  unfold Slot.reuse
  cases htime : e.timedOut jiffies with
  | false => simp
  | true =>
    rw [if_pos rfl]
    have hneed := (reviewed_slot maxEntries foe e).need
    dsimp only
    split
    · rename_i hr
      have hno : ¬ e.Seen maxEntries foe := by
        intro hseen
        rw [hneed.mpr hseen] at hr
        exact absurd hr Bool.false_ne_true
      simp [hno]
    · rename_i hr
      have hseen : e.Seen maxEntries foe := hneed.mp (Bool.not_eq_true _ ▸ hr)
      simp [hseen]

theorem reuse_sub {idx : Nat}
    (h : testBit idx (e.reuse maxEntries foe jiffies).bitmap = true) :
    testBit idx e.bitmap = true := by
  unfold Slot.reuse at h
  split at h
  · exact (reviewed_slot maxEntries foe e).sub idx h
  · exact h

/-- The bit of a flow that does not read as unbound is kept. -/
theorem reuse_testBit {idx : Nat} (h : foe idx ≠ some .unbind) :
    testBit idx (e.reuse maxEntries foe jiffies).bitmap = testBit idx e.bitmap := by
  unfold Slot.reuse
  split
  · exact (reviewed_slot maxEntries foe e).bits idx fun hlt => h hlt.2
  · rfl

theorem timedOut_fresh (h : e.timestamp = jiffies) : e.timedOut jiffies = false := by
  have h1 : jiffies + timeOutVal - jiffies = timeOutVal := by
    rw [BitVec.add_comm, BitVec.add_sub_cancel]
  have h2 : timeOutVal.msb = false := by decide
  rw [Slot.timedOut, timeAfter, h, h1, h2, Bool.and_false]

end ReuseSlot

/-! ## What it is for -/

section Unreferenced

variable {α : Type}

/-- A bound flow refers to the slot. -/
def Slot.Referenced (maxEntries : Nat) (foe : Nat → FoeState) (e : Slot α) : Prop :=
  ∃ idx < maxEntries, testBit idx e.bitmap = true ∧ foe idx = .bind

/-- One of them can be read, and word `idx / 32` of the bitmap is not zero for it. -/
def Slot.Noticed (maxEntries : Nat) (fails : Nat → Bool) (foe : Nat → FoeState) (e : Slot α) :
    Prop :=
  ∃ idx < maxEntries, testBit idx e.bitmap = true ∧ foe idx = .bind ∧ fails idx = false ∧
    e.bitmap (idx / 32) ≠ 0#64

/-- `e'` is `e` given up when it has timed out and no bound flow refers to it, with at most the
bits of unbound flows cleared. -/
structure FreesUnreferenced (maxEntries : Nat) (foe : Nat → FoeState) (jiffies : BitVec 64)
    (e e' : Slot α) : Prop where
  valid : e'.valid = true ↔ e.valid = true ∧ ¬ (e.pinned = false ∧
    timeAfter jiffies (e.timestamp + timeOutVal) = true ∧ ¬ e.Referenced maxEntries foe)
  bits : ∀ idx, testBit idx e'.bitmap ≠ testBit idx e.bitmap →
    testBit idx e.bitmap = true ∧ foe idx = .unbind
  content : e'.content = e.content
  pinned : e'.pinned = e.pinned
  timestamp : e'.timestamp = e.timestamp

variable {maxEntries : Nat} {fails : Nat → Bool} {foe : Nat → FoeState} {jiffies : BitVec 64}
  {e : Slot α}

theorem foeGetEntry_eq_some_iff {idx : Nat} {st : FoeState} :
    foeGetEntry fails foe idx = some st ↔ foe idx = st ∧ fails idx = false := by
  unfold foeGetEntry
  cases fails idx <;> simp

theorem timedOut_iff : e.timedOut jiffies = true ↔
    e.pinned = false ∧ timeAfter jiffies (e.timestamp + timeOutVal) = true := by
  simp [Slot.timedOut]

theorem seen_iff_noticed (hmax : maxEntries ≤ 16384) :
    e.Seen maxEntries (foeGetEntry fails foe) ↔ e.Noticed maxEntries fails foe := by
  constructor
  · rintro ⟨idx, -, hlt, hbit, hfoe, hword⟩
    obtain ⟨hbind, hread⟩ := foeGetEntry_eq_some_iff.mp hfoe
    exact ⟨idx, hlt, hbit, hbind, hread, hword⟩
  · rintro ⟨idx, hlt, hbit, hbind, hread, hword⟩
    exact ⟨idx, Nat.lt_of_lt_of_le hlt hmax, hlt, hbit,
      foeGetEntry_eq_some_iff.mpr ⟨hbind, hread⟩, hword⟩

theorem noticed_referenced (h : e.Noticed maxEntries fails foe) : e.Referenced maxEntries foe := by
  obtain ⟨idx, hlt, hbit, hbind, -, -⟩ := h
  exact ⟨idx, hlt, hbit, hbind⟩

/-- Whatever is read, only bits of unbound flows go. -/
theorem reuse_bits {idx : Nat}
    (h : testBit idx (e.reuse maxEntries (foeGetEntry fails foe) jiffies).bitmap ≠
      testBit idx e.bitmap) : testBit idx e.bitmap = true ∧ foe idx = .unbind := by
  have hfoe : foeGetEntry fails foe idx = some .unbind := by
    by_contra hne
    exact h (reuse_testBit hne)
  refine ⟨?_, (foeGetEntry_eq_some_iff.mp hfoe).1⟩
  cases hbit : testBit idx e.bitmap with
  | true => rfl
  | false =>
    cases hbit' : testBit idx (e.reuse maxEntries (foeGetEntry fails foe) jiffies).bitmap with
    | false => exact absurd (hbit'.trans hbit.symm) h
    | true => exact hbit.symm.trans (reuse_sub hbit')

/-- One slot is handled right exactly when it is not to be spared or the loop notices why. -/
theorem reuse_freesUnreferenced_iff (hmax : maxEntries ≤ 16384) :
    FreesUnreferenced maxEntries foe jiffies e
        (e.reuse maxEntries (foeGetEntry fails foe) jiffies) ↔
      (e.valid = true → e.timedOut jiffies = true → e.Referenced maxEntries foe →
        e.Noticed maxEntries fails foe) := by
  constructor
  · intro h hvalid htime href
    have hkeep := h.valid.mpr ⟨hvalid, fun hno => hno.2.2 href⟩
    exact (seen_iff_noticed hmax).mp ((reuse_valid.mp hkeep).2 htime)
  · intro h
    refine ⟨?_, fun idx => reuse_bits, reuse_content, reuse_pinned, reuse_timestamp⟩
    rw [reuse_valid, seen_iff_noticed hmax]
    constructor
    · rintro ⟨hvalid, hseen⟩
      refine ⟨hvalid, fun hno => hno.2.2 ?_⟩
      exact noticed_referenced (hseen (timedOut_iff.mpr ⟨hno.1, hno.2.1⟩))
    · rintro ⟨hvalid, hno⟩
      refine ⟨hvalid, fun htime => h hvalid htime ?_⟩
      by_contra href
      obtain ⟨hpin, hafter⟩ := timedOut_iff.mp htime
      exact hno ⟨hpin, hafter, href⟩

/-- `reuse_shrink_table` gives up exactly the unreferenced slots when, for each slot in use that
has timed out, a bound flow that refers to it is noticed. -/
theorem reuseShrinkTable_freesUnreferenced_iff (hmax : maxEntries ≤ 16384) (fails : Nat → Bool)
    (foe : Nat → FoeState) (jiffies : BitVec 64) (t : Table) :
    (∀ select, ∀ index < updmemNum, FreesUnreferenced maxEntries foe jiffies (t select index)
        (reuseShrinkTable maxEntries (foeGetEntry fails foe) jiffies t select index)) ↔
      ∀ select, ∀ index < updmemNum, (t select index).valid = true →
        (t select index).timedOut jiffies = true → (t select index).Referenced maxEntries foe →
          (t select index).Noticed maxEntries fails foe := by
  constructor
  · intro h select index hlt
    have hone := h select index hlt
    rw [reuseShrinkTable, if_pos hlt] at hone
    exact (reuse_freesUnreferenced_iff hmax).mp hone
  · intro h select index hlt
    rw [reuseShrinkTable, if_pos hlt]
    exact (reuse_freesUnreferenced_iff hmax).mpr (h select index hlt)

end Unreferenced

/-- Flow 64 is the only one in the bitmap, in bit 0 of word 1. -/
def slotOfFlow64 {α : Type} (content : α) : Slot α where
  valid := true
  pinned := false
  timestamp := 0#64
  bitmap i := if i = 1 then 1#64 else 0#64
  content := content

/-- A table with one such slot for each kind and index. -/
def tableOfFlow64 : Table
  | .smac, _ => slotOfFlow64 (Vector.replicate 6 0#8)
  | .ipv6, _ => slotOfFlow64 (Vector.replicate 8 0#32)
  | .ipv4, _ => slotOfFlow64 (Vector.replicate 2 0#32)

/-- The loop looks at word 2 for flow 64 and finds nothing. -/
theorem reuseShrinkTable_not_freesUnreferenced : ¬ ∀ select, ∀ index < updmemNum,
    FreesUnreferenced 16384 (fun _ => .bind) 3001#64 (tableOfFlow64 select index)
      (reuseShrinkTable 16384 (foeGetEntry (fun _ => false) fun _ => .bind) 3001#64
        tableOfFlow64 select index) := by
  intro h
  have hone := (h .smac 0 (by decide)).valid
  have hkeep := hone.mpr ⟨rfl, fun hno => hno.2.2 ⟨64, by decide, by decide, rfl⟩⟩
  rw [reuseShrinkTable, if_pos (by decide)] at hkeep
  obtain ⟨idx, -, -, hbit, -, hword⟩ := (reuse_valid.mp hkeep).2 (by decide)
  have hidx : idx = 64 := by
    by_contra hne
    have hor : idx / 64 ≠ 1 ∨ idx / 64 = 1 ∧ idx % 64 ≠ 0 := by omega
    rcases hor with hdiv | ⟨hdiv, hmod⟩
    · simp [testBit, tableOfFlow64, slotOfFlow64, hdiv] at hbit
    · simp [testBit, tableOfFlow64, slotOfFlow64, hdiv, hmod] at hbit
  subst hidx
  exact hword rfl

theorem reuseShrinkTable_freesUnreferenced_iff_flow64 :
    (∀ select, ∀ index < updmemNum, FreesUnreferenced 16384 (fun _ => .bind) 3001#64
        (tableOfFlow64 select index) (reuseShrinkTable 16384
          (foeGetEntry (fun _ => false) fun _ => .bind) 3001#64 tableOfFlow64 select index)) ↔
      ∀ select, ∀ index < updmemNum, (tableOfFlow64 select index).valid = true →
        (tableOfFlow64 select index).timedOut 3001#64 = true →
          (tableOfFlow64 select index).Referenced 16384 (fun _ => .bind) →
            (tableOfFlow64 select index).Noticed 16384 (fun _ => false) fun _ => .bind :=
  reuseShrinkTable_freesUnreferenced_iff (by decide) _ _ _ _

end Airoha.Ppe
