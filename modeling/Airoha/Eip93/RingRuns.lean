/-
Airoha.Eip93.RingRuns — what the descriptor rings keep over a run.

Entry `k` of both rings belongs to the `k`-th descriptor accepted. The writer is
at most one entry ahead of the accepted ones and the reader at most one ahead of
the taken ones, in each ring on its own; the result ring is taken first and given
back last, so a test that passes there passes in the command ring. The slot that
a full ring leaves free is the one the handler is still reading.
-/
import Airoha.Eip93.Ring

namespace Airoha.Eip93

open Airoha.Lib

variable {pe : Engine} {cb rb : Int} {s s' : Sys} {desc : Descriptor}

/-! ## How far each side is ahead -/

/-- Entries of the result ring that the writer has and that no descriptor is in. -/
def Writer.rdr : Writer → Nat
  | .rdrTaken _ _ | .bothTaken _ _ _ | .cleared _ _ => 1
  | .idle | .copied => 0

/-- The same for the command ring. -/
def Writer.cdr : Writer → Nat
  | .bothTaken _ _ _ | .cleared _ _ => 1
  | .idle | .rdrTaken _ _ | .copied => 0

/-- Entries beyond the accepted ones whose result has been cleared. -/
def Writer.blank : Writer → Nat
  | .cleared _ _ => 1
  | .idle | .rdrTaken _ _ | .bothTaken _ _ _ | .copied => 0

/-- Descriptors accepted that `free` does not show yet. -/
def Writer.due : Writer → Nat
  | .copied => 1
  | .idle | .rdrTaken _ _ | .bothTaken _ _ _ | .cleared _ _ => 0

/-- What the writer holds are the slots of the next entry. -/
def Writer.At (cb rb : Int) (n : Nat) : Writer → Prop
  | .rdrTaken rdesc _ => rdesc = (ringSlots rb).slot n
  | .bothTaken rdesc cdesc _ => rdesc = (ringSlots rb).slot n ∧ cdesc = (ringSlots cb).slot n
  | .cleared cdesc _ => cdesc = (ringSlots cb).slot n
  | .idle | .copied => True

/-- Entries of the command ring given back, whose result has not been read. -/
def Reader.cdr : Reader → Nat
  | .cdrTaken _ _ | .cleared _ | .rdrTaken _ _ | .waiting _ _ => 1
  | .idle | .more | .loop _ | .loaded _ _ => 0

/-- The same for the result ring. -/
def Reader.rdr : Reader → Nat
  | .rdrTaken _ _ | .waiting _ _ => 1
  | .idle | .more | .loop _ | .cdrTaken _ _ | .cleared _ | .loaded _ _ => 0

/-- The same for `free`. -/
def Reader.freed : Reader → Nat
  | .waiting _ _ => 1
  | .idle | .more | .loop _ | .cdrTaken _ _ | .cleared _ | .rdrTaken _ _ | .loaded _ _ => 0

/-- Results read that `RD_COUNT` still counts. -/
def Reader.due : Reader → Nat
  | .loaded _ _ => 1
  | .idle | .more | .loop _ | .cdrTaken _ _ | .cleared _ | .rdrTaken _ _ | .waiting _ _ => 0

/-- `left` is covered by the register, and not zero within the loop. -/
def Reader.Within (n : Nat) : Reader → Prop
  | .idle | .more => True
  | .loop left => left ≤ n
  | .cdrTaken left _ | .cleared left | .rdrTaken left _ | .waiting left _ | .loaded left _ =>
    1 ≤ left ∧ left ≤ n

/-- What the reader holds are the slots of the next entry. -/
def Reader.At (cb rb : Int) (n : Nat) : Reader → Prop
  | .cdrTaken _ cdesc => cdesc = (ringSlots cb).slot n
  | .rdrTaken _ rdesc | .waiting _ rdesc => rdesc = (ringSlots rb).slot n
  | .idle | .more | .loop _ | .cleared _ | .loaded _ _ => True

/-! ## The invariant -/

/-- How the counters stand to each other. -/
structure Counts (s : Sys) : Prop where
  accepted_eq : s.accepted.length = s.fetched + s.cdCount + s.kicks + s.writer.due
  fetched_eq : s.fetched = s.stored + s.results.length
  counted_eq : s.fetched + s.reader.due = s.uncounted + s.rdCount + s.taken.length
  taken_le : s.taken.length ≤ s.stored
  room : s.accepted.length + s.writer.rdr ≤ s.taken.length + s.reader.rdr + 511
  free_eq : s.free + s.accepted.length = 511 + s.taken.length + s.reader.freed + s.writer.due
  within : s.reader.Within s.rdCount
  torn_eq : s.torn = 0

/-- Where the cursors and those who hold a slot are. -/
structure Cursors (cb rb : Int) (s : Sys) : Prop where
  cdr : s.cdr.Tracks cb (s.taken.length + s.reader.cdr) (s.accepted.length + s.writer.cdr)
  rdr : s.rdr.Tracks rb (s.taken.length + s.reader.rdr) (s.accepted.length + s.writer.rdr)
  writer : s.writer.At cb rb s.accepted.length
  reader : s.reader.At cb rb s.taken.length

/-- What is in the slots. -/
structure Contents (pe : Engine) (cb rb : Int) (s : Sys) : Prop where
  commands : (ringSlots cb).Held s.cdr.mem (fun k d => s.accepted[k]? = some d)
    s.fetched s.accepted.length
  done : (ringSlots rb).Held s.rdr.mem (fun k d => (s.accepted.map pe.process)[k]? = some d)
    s.taken.length s.stored
  blank : (ringSlots rb).Held s.rdr.mem (fun _ d => d.peReady = false)
    s.stored (s.accepted.length + s.writer.blank)
  results : s.results = ((s.accepted.map pe.process).take s.fetched).drop s.stored
  taken : s.taken = (s.accepted.map pe.process).take s.taken.length
  loaded : ∀ left d, s.reader = .loaded left d → s.taken.getLast? = some d

/-- What every state of a run is like. -/
structure Inv (pe : Engine) (cb rb : Int) (s : Sys) : Prop where
  counts : Counts s
  cursors : Cursors cb rb s
  contents : Contents pe cb rb s

theorem inv_init (cmem rmem : Int → Descriptor) :
    Inv pe cb rb (eip93DescInit cb rb cmem rmem) where
  counts := by
    constructor <;>
      simp [eip93DescInit, ringNum, Writer.due, Writer.rdr, Reader.due, Reader.rdr, Reader.freed,
        Reader.Within]
  cursors :=
    { cdr := tracks_set cb cmem
      rdr := tracks_set rb rmem
      writer := trivial
      reader := trivial }
  contents :=
    { commands := RingSlots.Held.empty (Nat.le_refl 0)
      done := RingSlots.Held.empty (Nat.le_refl 0)
      blank := RingSlots.Held.empty (Nat.le_refl 0)
      results := rfl
      taken := rfl
      loaded := by simp [eip93DescInit] }

/-! ## Bounds -/

/-- The handler is behind the engine, and the engine behind the writer. -/
theorem Counts.ahead (h : Counts s) :
    s.taken.length + s.reader.cdr ≤ s.fetched ∧ s.reader.rdr ≤ s.reader.cdr ∧
      s.fetched ≤ s.accepted.length ∧ s.stored ≤ s.fetched := by
  have ha := h.accepted_eq
  have hf := h.fetched_eq
  have hc := h.counted_eq
  have hw := h.within
  cases hr : s.reader <;> simp only [hr, Reader.cdr, Reader.rdr, Reader.due, Reader.Within] at * <;>
    omega

/-- The window that is in use is shorter than the ring. -/
theorem Counts.short (h : Counts s) :
    s.accepted.length + s.writer.rdr ≤ s.taken.length + 512 := by
  have hr := h.room
  cases hc : s.reader <;> simp only [hc, Reader.rdr] at hr <;> omega

theorem Writer.cdr_le (w : Writer) : w.cdr ≤ w.rdr := by
  cases w <;> simp [Writer.cdr, Writer.rdr]

theorem Writer.blank_le (w : Writer) : w.blank ≤ w.rdr := by
  cases w <;> simp [Writer.blank, Writer.rdr]

/-! ## A put -/

theorem putRdr_inv (h : Inv pe cb rb s) (hs : putRdr desc s = some s') : Inv pe cb rb s' := by
  obtain ⟨hc, hp, hm⟩ := h
  have hahead := hc.ahead
  unfold putRdr at hs
  split at hs
  case h_2 => cases hs
  case h_1 hw =>
    have hrdr := hp.rdr
    have hroom := hc.room
    simp only [hw, Writer.rdr, Nat.add_zero] at hrdr hroom
    rcases Nat.lt_or_ge s.accepted.length (s.taken.length + s.reader.rdr + 511) with hlt | hge
    · obtain ⟨rdr, hn, ht, hmem⟩ := eip93RingNextWptr_some hrdr (by omega) hlt
      rw [hn] at hs
      cases hs
      constructor
      · exact
          { hc with
            accepted_eq := by simpa only [hw, Writer.due] using hc.accepted_eq
            room := by simp only [Writer.rdr]; omega
            free_eq := by simpa only [hw, Writer.due] using hc.free_eq }
      · exact
          { cdr := by simpa only [hw, Writer.cdr] using hp.cdr
            rdr := ht
            writer := rfl
            reader := hp.reader }
      · exact
          { hm with
            done := by simpa only [hmem] using hm.done
            blank := by simpa only [hmem, hw, Writer.blank] using hm.blank }
    · rw [eip93RingNextWptr_none hrdr (by omega)] at hs
      cases hs
      exact ⟨{ hc with }, { hp with }, { hm with }⟩

theorem putCdr_inv (h : Inv pe cb rb s) (hs : putCdr s = some s') : Inv pe cb rb s' := by
  obtain ⟨hc, hp, hm⟩ := h
  have hahead := hc.ahead
  unfold putCdr at hs
  split at hs
  case h_2 => cases hs
  case h_1 rdesc desc hw =>
    have hcdr := hp.cdr
    have hroom := hc.room
    simp only [hw, Writer.rdr, Writer.cdr, Nat.add_zero] at hcdr hroom
    -- the result ring had room, and the command ring has given back at least as much
    obtain ⟨cdr, hn, ht, hmem⟩ := eip93RingNextWptr_some hcdr (by omega) (by omega)
    rw [hn] at hs
    cases hs
    constructor
    · exact
        { hc with
          accepted_eq := by simpa only [hw, Writer.due] using hc.accepted_eq
          room := by simpa only [hw, Writer.rdr] using hc.room
          free_eq := by simpa only [hw, Writer.due] using hc.free_eq }
    · exact
        { cdr := ht
          rdr := by simpa only [hw, Writer.rdr] using hp.rdr
          writer := ⟨by simpa only [hw, Writer.At] using hp.writer, rfl⟩
          reader := hp.reader }
    · exact
        { hm with
          commands := by simpa only [hmem] using hm.commands
          blank := by simpa only [hw, Writer.blank] using hm.blank }

theorem putClear_inv (h : Inv pe cb rb s) (hs : putClear s = some s') : Inv pe cb rb s' := by
  obtain ⟨hc, hp, hm⟩ := h
  have hahead := hc.ahead
  have htk := hc.taken_le
  unfold putClear at hs
  split at hs
  case h_2 => cases hs
  case h_1 rdesc cdesc desc hw =>
    have hwr := hp.writer
    have hshort := hc.short
    have hblank := hm.blank
    simp only [hw, Writer.rdr, Writer.At, Writer.blank, Nat.add_zero] at hwr hshort hblank
    obtain ⟨rfl, rfl⟩ := hwr
    cases hs
    constructor
    · exact
        { hc with
          accepted_eq := by simpa only [hw, Writer.due] using hc.accepted_eq
          room := by simpa only [hw, Writer.rdr] using hc.room
          free_eq := by simpa only [hw, Writer.due] using hc.free_eq }
    · exact
        { cdr := by simpa only [hw, Writer.cdr] using hp.cdr
          rdr := by simpa only [hw, Writer.rdr] using hp.rdr.store _ _
          writer := rfl
          reader := hp.reader }
    · exact
        { hm with
          done := hm.done.store (Or.inr (by omega)) (by rw [ringSlots_size]; omega)
            (by rw [ringSlots_size]; omega)
          blank := hblank.push zero_not_peReady (by rw [ringSlots_size]; omega) }

theorem putCopy_inv (h : Inv pe cb rb s) (hs : putCopy s = some s') : Inv pe cb rb s' := by
  obtain ⟨hc, hp, hm⟩ := h
  obtain ⟨hahead, -, hfa, hsf⟩ := hc.ahead
  have htk := hc.taken_le
  unfold putCopy at hs
  split at hs
  case h_2 => cases hs
  case h_1 cdesc desc hw =>
    have hwr := hp.writer
    have hshort := hc.short
    have hacc := hc.accepted_eq
    have hroom := hc.room
    have hfree := hc.free_eq
    simp only [hw, Writer.rdr, Writer.At, Writer.due] at hwr hshort hacc hroom hfree
    subst hwr
    cases hs
    have hlen : (s.accepted ++ [desc]).length = s.accepted.length + 1 := by simp
    constructor
    · exact
        { hc with
          accepted_eq := by simp only [hlen, Writer.due]; omega
          room := by simp only [hlen, Writer.rdr]; omega
          free_eq := by simp only [hlen, Writer.due]; push_cast; omega }
    · exact
        { cdr := by simpa only [hw, hlen, Writer.cdr] using hp.cdr.store _ _
          rdr := by simpa only [hw, hlen, Writer.rdr] using hp.rdr
          writer := trivial
          reader := hp.reader }
    · have htake : ∀ n, n ≤ s.accepted.length →
          ((s.accepted ++ [desc]).map pe.process).take n = (s.accepted.map pe.process).take n := by
        intro n hn
        rw [List.map_append, List.take_append_of_le_length (by rw [List.length_map]; exact hn)]
      exact
        { hm with
          commands := by
            simp only [hlen]
            refine RingSlots.Held.push (hm.commands.imp ?_) ?_ (by rw [ringSlots_size]; omega)
            · intro k d _ hk hd
              rw [List.getElem?_append_left hk, hd]
            · rw [List.getElem?_append_right (Nat.le_refl _), Nat.sub_self]
              rfl
          done := by
            refine hm.done.imp ?_
            intro k d _ hk hd
            rw [List.map_append, List.getElem?_append_left (by rw [List.length_map]; omega), hd]
          blank := by simpa only [hw, hlen, Writer.blank] using hm.blank
          results := by simpa only [htake s.fetched hfa] using hm.results
          taken := by simpa only [htake s.taken.length (by omega)] using hm.taken }

theorem putFree_inv (h : Inv pe cb rb s) (hs : putFree s = some s') : Inv pe cb rb s' := by
  obtain ⟨hc, hp, hm⟩ := h
  unfold putFree at hs
  split at hs
  case h_2 => cases hs
  case h_1 hw =>
    have hacc := hc.accepted_eq
    have hfree := hc.free_eq
    simp only [hw, Writer.due] at hacc hfree
    cases hs
    constructor
    · exact
        { hc with
          accepted_eq := by simp only [Writer.due]; omega
          room := by simpa only [hw, Writer.rdr] using hc.room
          free_eq := by simp only [Writer.due]; push_cast at hfree ⊢; omega }
    · exact
        { cdr := by simpa only [hw, Writer.cdr] using hp.cdr
          rdr := by simpa only [hw, Writer.rdr] using hp.rdr
          writer := trivial
          reader := hp.reader }
    · exact { hm with blank := by simpa only [hw, Writer.blank] using hm.blank }

theorem kick_inv (h : Inv pe cb rb s) (hs : kick s = some s') : Inv pe cb rb s' := by
  obtain ⟨hc, hp, hm⟩ := h
  have hacc := hc.accepted_eq
  unfold kick at hs
  split at hs
  case isFalse => cases hs
  case isTrue hk =>
    cases hs
    exact ⟨{ hc with accepted_eq := by simp only; omega }, { hp with }, { hm with }⟩

/-! ## The engine -/

theorem fetch_inv (h : Inv pe cb rb s) (hs : fetch pe s = some s') : Inv pe cb rb s' := by
  obtain ⟨hc, hp, hm⟩ := h
  obtain ⟨hahead, -, hfa, hsf⟩ := hc.ahead
  have hacc := hc.accepted_eq
  have hfe := hc.fetched_eq
  have hco := hc.counted_eq
  have hshort := hc.short
  unfold fetch at hs
  split at hs
  case isFalse => cases hs
  case isTrue hk =>
    cases hs
    have hslot : engineSlot s.cdr s.fetched = (ringSlots cb).slot s.fetched := by
      rw [engineSlot_eq, hp.cdr.base_eq]
    have hcmd := hm.commands s.fetched (Nat.le_refl _) (by omega)
    simp only [hslot]
    constructor
    · exact
        { hc with
          accepted_eq := by simp only; omega
          fetched_eq := by simp only [List.length_append, List.length_singleton]; omega
          counted_eq := by simp only; omega }
    · exact { hp with cdr := hp.cdr.store _ _ }
    · exact
        { hm with
          commands := hm.commands.pop (by rw [ringSlots_size]; omega)
          results := by
            have hd : (s.accepted.map pe.process)[s.fetched]? =
                some (pe.process (s.cdr.mem ((ringSlots cb).slot s.fetched))) := by
              rw [List.getElem?_map, hcmd, Option.map_some]
            have hlen : s.stored ≤ ((s.accepted.map pe.process).take s.fetched).length := by
              rw [List.length_take, List.length_map]
              omega
            rw [List.take_add_one, hd, List.drop_append_of_le_length hlen, ← hm.results]
            rfl }

theorem count_inv (h : Inv pe cb rb s) (hs : count s = some s') : Inv pe cb rb s' := by
  obtain ⟨hc, hp, hm⟩ := h
  have hco := hc.counted_eq
  have hwi := hc.within
  unfold count at hs
  split at hs
  case isFalse => cases hs
  case isTrue hk =>
    cases hs
    refine ⟨{ hc with counted_eq := by simp only; omega, within := ?_ }, { hp with }, { hm with }⟩
    cases hr : s.reader <;> simp only [hr, Reader.Within] at hwi ⊢ <;> omega

theorem store_inv (h : Inv pe cb rb s) (hs : store s = some s') : Inv pe cb rb s' := by
  obtain ⟨hc, hp, hm⟩ := h
  obtain ⟨hahead, -, hfa, hsf⟩ := hc.ahead
  have hfe := hc.fetched_eq
  have htk := hc.taken_le
  have hshort := hc.short
  have hbl := s.writer.blank_le
  unfold store at hs
  split at hs
  case h_1 => cases hs
  case h_2 d results hres =>
    cases hs
    have hslot : engineSlot s.rdr s.stored = (ringSlots rb).slot s.stored := by
      rw [engineSlot_eq, hp.rdr.base_eq]
    rw [hres] at hfe
    have hr := hm.results
    rw [hres, List.drop_eq_getElem_cons (by simp; simp at hfe; omega)] at hr
    obtain ⟨hd, hrest⟩ := List.cons.inj hr
    rw [List.length_cons] at hfe
    simp only [hslot]
    constructor
    · exact { hc with fetched_eq := by simp only; omega, taken_le := by simp only; omega }
    · exact { hp with rdr := hp.rdr.store _ _ }
    · exact
        { hm with
          done := hm.done.push (by
            rw [hd, List.getElem_take]
            exact List.getElem?_eq_getElem _) (by rw [ringSlots_size]; omega)
          blank := hm.blank.pop (by rw [ringSlots_size]; omega)
          results := hrest }

/-! ## The handler -/

/-- The handler comes to a point where it holds nothing. -/
theorem Inv.rest (h : Inv pe cb rb s) {r : Reader} (hcdr : s.reader.cdr = 0)
    (hdue : s.reader.due = 0) (hr : r = .idle ∨ r = .more ∨ ∃ left, r = .loop left)
    (hw : r.Within s.rdCount) : Inv pe cb rb { s with reader := r } := by
  obtain ⟨hc, hp, hm⟩ := h
  have hrdr : s.reader.rdr = 0 ∧ s.reader.freed = 0 := by
    cases hs : s.reader <;> simp only [hs, Reader.cdr] at hcdr <;>
      simp only [Reader.rdr, Reader.freed, and_self] <;> omega
  have h0 : r.cdr = 0 ∧ r.rdr = 0 ∧ r.freed = 0 ∧ r.due = 0 ∧ r.At cb rb s.taken.length := by
    rcases hr with rfl | rfl | ⟨left, rfl⟩ <;>
      exact ⟨rfl, rfl, rfl, rfl, trivial⟩
  obtain ⟨hr1, hr2, hr3, hr4, hat⟩ := h0
  constructor
  · exact
      { hc with
        counted_eq := by simpa only [hdue, hr4] using hc.counted_eq
        room := by simpa only [hrdr.1, hr2] using hc.room
        free_eq := by simpa only [hrdr.2, hr3] using hc.free_eq
        within := hw }
  · exact
      { hp with
        cdr := by simpa only [hcdr, hr1] using hp.cdr
        rdr := by simpa only [hrdr.1, hr2] using hp.rdr
        reader := hat }
  · refine { hm with loaded := ?_ }
    rintro left d rfl
    rcases hr with hr | hr | ⟨_, hr⟩ <;> cases hr

theorem schedule_inv (h : Inv pe cb rb s) (hs : schedule s = some s') : Inv pe cb rb s' := by
  unfold schedule at hs
  split at hs
  case h_2 => cases hs
  case h_1 hr =>
    cases hs
    exact h.rest (by rw [hr]; rfl) (by rw [hr]; rfl) (Or.inr (Or.inl rfl)) trivial

theorem poll_inv (h : Inv pe cb rb s) (hs : poll s = some s') : Inv pe cb rb s' := by
  unfold poll at hs
  split at hs
  case h_2 => cases hs
  case h_1 hr =>
    cases hs
    refine h.rest (by rw [hr]; rfl) (by rw [hr]; rfl) ?_ ?_
    · split
      · exact Or.inl rfl
      · exact Or.inr (Or.inr ⟨_, rfl⟩)
    · split
      · trivial
      · exact Nat.mod_le _ _

theorem getCdr_inv (h : Inv pe cb rb s) (hs : getCdr s = some s') : Inv pe cb rb s' := by
  unfold getCdr at hs
  split at hs
  case h_2 => cases hs
  case h_1 left hr =>
    rcases Nat.eq_zero_or_pos left with h0 | hpos
    · rw [if_pos h0] at hs
      cases hs
      exact h.rest (by rw [hr]; rfl) (by rw [hr]; rfl) (Or.inr (Or.inl rfl)) trivial
    · rw [if_neg (by omega)] at hs
      obtain ⟨hc, hp, hm⟩ := h
      have hwi := hc.within
      have hco := hc.counted_eq
      have hroom := hc.room
      have hahead := hc.ahead
      have hwl := s.writer.cdr_le
      have hcdr := hp.cdr
      simp only [hr, Reader.Within, Reader.due, Reader.rdr, Reader.cdr, Nat.add_zero]
        at hwi hco hroom hahead hcdr
      -- the register counts what the engine has fetched, so the command ring is not empty
      obtain ⟨cdr, hn, ht, hmem⟩ := eip93RingNextRptr_some hcdr (by omega) (by omega)
      rw [hn] at hs
      cases hs
      constructor
      · exact
          { hc with
            counted_eq := by simpa only [hr, Reader.due] using hc.counted_eq
            room := by simpa only [hr, Reader.rdr] using hc.room
            free_eq := by simpa only [hr, Reader.freed] using hc.free_eq
            within := ⟨hpos, hwi⟩ }
      · exact
          { hp with
            cdr := ht
            rdr := by simpa only [hr, Reader.rdr] using hp.rdr
            reader := rfl }
      · exact
          { hm with
            commands := by simpa only [hmem] using hm.commands
            loaded := by intro left d hl; cases hl }

theorem getClear_inv (h : Inv pe cb rb s) (hs : getClear s = some s') : Inv pe cb rb s' := by
  obtain ⟨hc, hp, hm⟩ := h
  unfold getClear at hs
  split at hs
  case h_2 => cases hs
  case h_1 left cdesc hr =>
    have hat := hp.reader
    have hahead := hc.ahead
    have hshort := hc.short
    have hwi := hc.within
    simp only [hr, Reader.At, Reader.cdr, Reader.Within] at hat hahead hwi
    subst hat
    cases hs
    constructor
    · exact
        { hc with
          counted_eq := by simpa only [hr, Reader.due] using hc.counted_eq
          room := by simpa only [hr, Reader.rdr] using hc.room
          free_eq := by simpa only [hr, Reader.freed] using hc.free_eq
          within := hwi }
    · exact
        { hp with
          cdr := by simpa only [hr, Reader.cdr] using hp.cdr.store _ _
          rdr := by simpa only [hr, Reader.rdr] using hp.rdr
          reader := trivial }
    · exact
        { hm with
          commands := hm.commands.store (Or.inl (by omega)) (by rw [ringSlots_size]; omega)
            (by rw [ringSlots_size]; omega)
          loaded := by intro left d hl; cases hl }

theorem getRdr_inv (h : Inv pe cb rb s) (hs : getRdr s = some s') : Inv pe cb rb s' := by
  obtain ⟨hc, hp, hm⟩ := h
  unfold getRdr at hs
  split at hs
  case h_2 => cases hs
  case h_1 left hr =>
    have hwi := hc.within
    have hroom := hc.room
    have hahead := hc.ahead
    have hrdr := hp.rdr
    simp only [hr, Reader.Within, Reader.rdr, Reader.cdr, Nat.add_zero]
      at hwi hroom hahead hrdr
    -- the result ring is given back last, so it has the entry as well
    obtain ⟨rdr, hn, ht, hmem⟩ := eip93RingNextRptr_some hrdr (by omega) (by omega)
    rw [hn] at hs
    cases hs
    constructor
    · exact
        { hc with
          counted_eq := by simpa only [hr, Reader.due] using hc.counted_eq
          room := by simp only [Reader.rdr]; omega
          free_eq := by simpa only [hr, Reader.freed] using hc.free_eq
          within := hwi }
    · exact
        { hp with
          cdr := by simpa only [hr, Reader.cdr] using hp.cdr
          rdr := ht
          reader := rfl }
    · exact
        { hm with
          done := by simpa only [hmem] using hm.done
          blank := by simpa only [hmem] using hm.blank
          loaded := by intro left d hl; cases hl }

theorem getFree_inv (h : Inv pe cb rb s) (hs : getFree s = some s') : Inv pe cb rb s' := by
  obtain ⟨hc, hp, hm⟩ := h
  unfold getFree at hs
  split at hs
  case h_2 => cases hs
  case h_1 left rdesc hr =>
    have hfree := hc.free_eq
    have hwi := hc.within
    simp only [hr, Reader.freed, Reader.Within] at hfree hwi
    cases hs
    constructor
    · exact
        { hc with
          counted_eq := by simpa only [hr, Reader.due] using hc.counted_eq
          room := by simpa only [hr, Reader.rdr] using hc.room
          free_eq := by simp only [Reader.freed]; push_cast at hfree ⊢; omega
          within := hwi }
    · exact
        { hp with
          cdr := by simpa only [hr, Reader.cdr] using hp.cdr
          rdr := by simpa only [hr, Reader.rdr] using hp.rdr
          reader := by simpa only [hr, Reader.At] using hp.reader }
    · exact { hm with loaded := by intro left d hl; cases hl }

/-- A ready descriptor in the slot the handler waits on is the result of its own entry. -/
theorem Inv.ready (h : Inv pe cb rb s) {left : Nat} {rdesc : Int}
    (hr : s.reader = .waiting left rdesc) (hready : (s.rdr.mem rdesc).peReady = true) :
    s.taken.length < s.stored ∧
      (s.accepted.map pe.process)[s.taken.length]? = some (s.rdr.mem rdesc) := by
  obtain ⟨hc, hp, hm⟩ := h
  have hat := hp.reader
  have hahead := hc.ahead
  simp only [hr, Reader.At, Reader.cdr] at hat hahead
  subst hat
  have hlt : s.taken.length < s.stored := by
    by_contra hge
    have hb : (s.rdr.mem ((ringSlots rb).slot s.taken.length)).peReady = false :=
      hm.blank s.taken.length (by omega) (by omega)
    rw [hready] at hb
    cases hb
  exact ⟨hlt, hm.done s.taken.length (Nat.le_refl _) hlt⟩

theorem load_inv (h : Inv pe cb rb s) (hs : load s = some s') : Inv pe cb rb s' := by
  unfold load at hs
  split at hs
  case h_2 => cases hs
  case h_1 left rdesc hr =>
    by_cases hready : (s.rdr.mem rdesc).peReady = true
    · obtain ⟨hlt, hd⟩ := h.ready hr hready
      obtain ⟨hc, hp, hm⟩ := h
      have hco := hc.counted_eq
      have hroom := hc.room
      have hfree := hc.free_eq
      have hwi := hc.within
      have hcdr := hp.cdr
      have hrdr := hp.rdr
      simp only [hr, Reader.due, Reader.rdr, Reader.freed, Reader.Within, Reader.cdr]
        at hco hroom hfree hwi hcdr hrdr
      simp only [hready, if_true] at hs
      cases hs
      have hlen : (s.taken ++ [s.rdr.mem rdesc]).length = s.taken.length + 1 := by simp
      constructor
      · exact
          { hc with
            counted_eq := by simp only [hlen, Reader.due]; omega
            taken_le := by simp only [hlen]; omega
            room := by simp only [hlen, Reader.rdr]; omega
            free_eq := by simp only [hlen, Reader.freed]; push_cast at hfree ⊢; omega
            within := hwi }
      · exact
          { cdr := by simpa only [hlen, Reader.cdr, Nat.add_zero] using hcdr
            rdr := by simpa only [hlen, Reader.rdr, Nat.add_zero] using hrdr
            writer := hp.writer
            reader := trivial }
      · exact
          { hm with
            done := by simpa only [hlen] using hm.done.mono (Nat.le_succ _) (Nat.le_refl _)
            taken := by
              simp only [hlen]
              rw [List.take_add_one, hd, ← hm.taken]
              rfl
            loaded := by
              intro left' d' hl
              cases hl
              simp }
    · simp only [hready, Bool.false_eq_true, if_false] at hs
      cases hs

theorem ack_inv (h : Inv pe cb rb s) (hs : ack s = some s') : Inv pe cb rb s' := by
  unfold ack at hs
  split at hs
  case h_2 => cases hs
  case h_1 left d hr =>
    obtain ⟨hc, hp, hm⟩ := h
    have hco := hc.counted_eq
    have hwi := hc.within
    simp only [hr, Reader.due, Reader.Within] at hco hwi
    cases hs
    have hrest : ∀ r : Reader, (r = .more ∨ r = .loop (left - 1)) → r.Within (s.rdCount - 1) →
        Inv pe cb rb { s with rdCount := s.rdCount - 1, reader := r } := by
      rintro r (rfl | rfl) hw
      all_goals
        constructor
        · exact
            { hc with
              counted_eq := by simp only [Reader.due]; omega
              room := by simpa only [hr, Reader.rdr] using hc.room
              free_eq := by simpa only [hr, Reader.freed] using hc.free_eq
              within := hw }
        · exact
            { hp with
              cdr := by simpa only [hr, Reader.cdr] using hp.cdr
              rdr := by simpa only [hr, Reader.rdr] using hp.rdr
              reader := trivial }
        · exact { hm with loaded := by intro left d hl; cases hl }
    split
    · exact hrest _ (Or.inl rfl) trivial
    · exact hrest _ (Or.inr rfl) (show left - 1 ≤ s.rdCount - 1 by omega)

/-! ## Runs -/

theorem step_inv (h : Inv pe cb rb s) {a : Act} (hs : step pe s a = some s') :
    Inv pe cb rb s' := by
  cases a with
  | putRdr desc => exact putRdr_inv h hs
  | putCdr => exact putCdr_inv h hs
  | putClear => exact putClear_inv h hs
  | putCopy => exact putCopy_inv h hs
  | putFree => exact putFree_inv h hs
  | kick => exact kick_inv h hs
  | fetch => exact fetch_inv h hs
  | count => exact count_inv h hs
  | store => exact store_inv h hs
  | schedule => exact schedule_inv h hs
  | poll => exact poll_inv h hs
  | getCdr => exact getCdr_inv h hs
  | getClear => exact getClear_inv h hs
  | getRdr => exact getRdr_inv h hs
  | getFree => exact getFree_inv h hs
  | load => exact load_inv h hs
  | ack => exact ack_inv h hs

theorem run_inv {as : List Act} (h : Inv pe cb rb s) (hs : run pe s as = some s') :
    Inv pe cb rb s' := by
  induction as generalizing s with
  | nil =>
    cases hs
    exact h
  | cons a as ih =>
    obtain ⟨s1, h1, h2⟩ := Option.bind_eq_some_iff.1 hs
    exact ih (step_inv h h1) h2

variable {cmem rmem : Int → Descriptor} {as : List Act}

/-- In whatever order the sides move, the handler reads the results of the descriptors accepted,
each once and in their order, and no put or get is left with one ring moved. -/
theorem taken_in_order (hr : run pe (eip93DescInit cb rb cmem rmem) as = some s) :
    s.taken <+: s.accepted.map pe.process ∧ s.torn = 0 := by
  have h := run_inv (inv_init cmem rmem) hr
  refine ⟨?_, h.counts.torn_eq⟩
  rw [h.contents.taken]
  exact List.take_prefix _ _

/-- An engine that gives every word back and marks the descriptor done. -/
def echo : Engine where
  process d := { d with peCtrlStatWord := 2#32, peLengthWord := 0x800000#32 }
  release d := d

/-- A descriptor that is told by its source address. -/
def probe (n : Nat) : Descriptor := { Descriptor.zero with srcAddr := BitVec.ofNat 32 n }

/-- A put, and its count. -/
def putAll (d : Descriptor) : List Act := [.putRdr d, .putCdr, .putClear, .putCopy, .putFree, .kick]

/-- A second put comes between the accesses of a get. -/
def pairRun : Option Sys :=
  run echo (eip93DescInit 64 0x10000 (fun _ => .zero) fun _ => .zero)
    (putAll (probe 1) ++ [.fetch, .count, .schedule, .poll, .putRdr (probe 2), .getCdr, .putCdr,
      .getClear, .putClear, .getRdr, .store, .putCopy, .getFree, .load, .ack, .putFree])

theorem taken_in_order_pair : ∃ s, pairRun = some s ∧ s.accepted = [probe 1, probe 2] ∧
    s.taken.length = 1 ∧ s.taken <+: s.accepted.map echo.process ∧ s.torn = 0 := by
  have hl : pairRun.map (fun s => (s.accepted, s.taken.length)) = some ([probe 1, probe 2], 1) := by
    decide
  obtain ⟨s, hs, he⟩ := Option.map_eq_some_iff.1 hl
  obtain ⟨ha, ht⟩ := Prod.mk.inj he
  exact ⟨s, hs, ha, ht, taken_in_order hs⟩

/-- While no put is under way and the handler has no result to read, `free` is what 511 leaves of
the descriptors accepted and not taken, and a put is refused, with nothing changed, only at zero. -/
theorem refused_iff_none_free (hr : run pe (eip93DescInit cb rb cmem rmem) as = some s)
    (hw : s.writer = .idle) (hi : s.reader.rdr = 0) (desc : Descriptor) :
    s.free = 511 - (s.accepted.length - s.taken.length : Int) ∧ 0 ≤ s.free ∧
      (putRdr desc s = some { s with refused := s.refused ++ [desc] } ↔ s.free = 0) := by
  obtain ⟨hc, hp, hm⟩ := run_inv (inv_init cmem rmem) hr
  have hfree := hc.free_eq
  have hroom := hc.room
  have hahead := hc.ahead
  have hrdr := hp.rdr
  have hfr : s.reader.freed ≤ s.reader.rdr := by
    cases s.reader <;> simp [Reader.freed, Reader.rdr]
  simp only [hw, hi, Writer.due, Writer.rdr, Nat.add_zero] at hfree hroom hahead hrdr
  refine ⟨by omega, by omega, ?_⟩
  constructor
  · intro h
    by_contra hne
    obtain ⟨rdr, hn, -, -⟩ := eip93RingNextWptr_some hrdr (by omega) (by omega)
    rw [putRdr, hw] at h
    simp only [hn] at h
    have hwr := congrArg Sys.writer (Option.some.inj h)
    cases hwr
  · intro h
    rw [putRdr, hw]
    simp only [eip93RingNextWptr_none hrdr (show _ = _ by omega)]

theorem refused_iff_none_free_pair : ∃ s, pairRun = some s ∧ s.free = 510 ∧
    (putRdr (probe 3) s = some { s with refused := s.refused ++ [probe 3] } ↔ s.free = 0) := by
  have hw : pairRun.map (fun s => (s.writer.rdr + s.writer.due, s.reader.rdr, s.free)) =
      some (0, 0, 510) := by
    decide
  obtain ⟨s, hs, he⟩ := Option.map_eq_some_iff.1 hw
  simp only [Prod.mk.injEq] at he
  obtain ⟨h1, h2, h3⟩ := he
  have hidle : s.writer = .idle := by
    cases hc : s.writer <;> simp [hc, Writer.rdr, Writer.due] at h1 ⊢
  exact ⟨s, hs, h3, (refused_iff_none_free hs hidle h2 (probe 3)).2.2⟩

end Airoha.Eip93
