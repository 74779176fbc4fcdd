/-
Airoha.Eip93.RingDrain — the descriptor rings never get stuck.

From every state that a run can come to, the accesses that are left, without any
new put, bring the handler to the result of every descriptor accepted. First the
put under way ends and the engine works off its counts; then the handler goes
round until the register is zero.
-/
import Airoha.Eip93.RingRuns

namespace Airoha.Eip93

open Airoha.Lib

variable {pe : Engine} {cb rb : Int} {s s' s'' : Sys} {as bs : List Act}

theorem run_append (s : Sys) (as bs : List Act) :
    run pe s (as ++ bs) = (run pe s as).bind fun s' => run pe s' bs := by
  induction as generalizing s with
  | nil => rfl
  | cons a as ih =>
    rw [List.cons_append, run, run, Option.bind_assoc]
    exact congrArg _ (funext ih)

/-- A step that is not the start of a put. -/
def Act.inside : Act → Bool
  | .putRdr _ => false
  | _ => true

/-- `s'` is reached from `s` without the start of a put. -/
def Leads (pe : Engine) (s s' : Sys) : Prop :=
  ∃ as : List Act, (∀ a ∈ as, a.inside = true) ∧ run pe s as = some s'

theorem Leads.refl (s : Sys) : Leads pe s s :=
  ⟨[], fun _ ha => absurd ha List.not_mem_nil, rfl⟩

theorem Leads.step {a : Act} (ha : a.inside = true) (hs : step pe s a = some s')
    (h : Leads pe s' s'') : Leads pe s s'' := by
  obtain ⟨as, hin, hr⟩ := h
  refine ⟨a :: as, ?_, ?_⟩
  · intro b hb
    rcases List.mem_cons.1 hb with rfl | hb
    · exact ha
    · exact hin b hb
  · rw [run, hs, Option.bind_some, hr]

theorem Leads.trans (h : Leads pe s s') (h' : Leads pe s' s'') : Leads pe s s'' := by
  obtain ⟨as, hin, hr⟩ := h
  obtain ⟨bs, hin', hr'⟩ := h'
  refine ⟨as ++ bs, ?_, ?_⟩
  · intro a ha
    exact (List.mem_append.1 ha).elim (hin a) (hin' a)
  · rw [run_append, hr, Option.bind_some, hr']

theorem Leads.inv (h : Leads pe s s') (hi : Inv pe cb rb s) : Inv pe cb rb s' := by
  obtain ⟨as, -, hr⟩ := h
  exact run_inv hi hr

/-! ## The put under way, and the engine -/

/-- The accesses of a put that are left, and what they make the engine do. -/
def Writer.left : Writer → Nat
  | .idle => 0
  | .copied => 5
  | .cleared _ _ => 6
  | .bothTaken _ _ _ => 7
  | .rdrTaken _ _ => 8

/-- What the writer and the engine have left to do. -/
def Sys.pending (s : Sys) : Nat :=
  s.writer.left + 4 * s.kicks + 3 * s.cdCount + s.uncounted + s.results.length

/-- `a` can be done in `s` and leaves less. -/
def Lessens (pe : Engine) (a : Act) (s : Sys) : Prop :=
  ∃ s', step pe s a = some s' ∧ s'.pending < s.pending ∧ s.accepted <+: s'.accepted

theorem putCdr_lessens (h : Inv pe cb rb s) {rdesc : Int} {desc : Descriptor}
    (hw : s.writer = .rdrTaken rdesc desc) : Lessens pe .putCdr s := by
  obtain ⟨hc, hp, -⟩ := h
  have hcdr := hp.cdr
  have hroom := hc.room
  have hahead := hc.ahead
  simp only [hw, Writer.rdr, Writer.cdr, Nat.add_zero] at hcdr hroom
  obtain ⟨cdr, hn, -, -⟩ := eip93RingNextWptr_some hcdr (by omega) (by omega)
  rw [Lessens, step, putCdr, hw]
  simp only [hn]
  refine ⟨_, rfl, ?_, List.prefix_rfl⟩
  simp only [Sys.pending, hw, Writer.left]
  omega

theorem put_lessens {w : Writer} {a : Act} (hw : s.writer = w)
    (ha : (∃ p c d, w = .bothTaken p c d ∧ a = .putClear) ∨
      (∃ c d, w = .cleared c d ∧ a = .putCopy) ∨ (w = .copied ∧ a = .putFree)) :
    Lessens pe a s := by
  rw [Lessens]
  rcases ha with ⟨p, c, d, rfl, rfl⟩ | ⟨c, d, rfl, rfl⟩ | ⟨rfl, rfl⟩
  · rw [step, putClear, hw]
    refine ⟨_, rfl, ?_, List.prefix_rfl⟩
    simp only [Sys.pending, hw, Writer.left]
    omega
  · rw [step, putCopy, hw]
    refine ⟨_, rfl, ?_, List.prefix_append _ _⟩
    simp only [Sys.pending, hw, Writer.left]
    omega
  · rw [step, putFree, hw]
    refine ⟨_, rfl, ?_, List.prefix_rfl⟩
    simp only [Sys.pending, hw, Writer.left]
    omega

theorem kick_lessens (h : 0 < s.kicks) : Lessens pe .kick s := by
  rw [Lessens, step, kick, if_pos h]
  refine ⟨_, rfl, ?_, List.prefix_rfl⟩
  simp only [Sys.pending]
  omega

theorem fetch_lessens (h : 0 < s.cdCount) : Lessens pe .fetch s := by
  rw [Lessens, step, fetch, if_pos h]
  refine ⟨_, rfl, ?_, List.prefix_rfl⟩
  simp only [Sys.pending, List.length_append, List.length_singleton]
  omega

theorem count_lessens (h : 0 < s.uncounted) : Lessens pe .count s := by
  rw [Lessens, step, count, if_pos h]
  refine ⟨_, rfl, ?_, List.prefix_rfl⟩
  simp only [Sys.pending]
  omega

theorem store_lessens {d : Descriptor} {results : List Descriptor} (h : s.results = d :: results) :
    Lessens pe .store s := by
  rw [Lessens, step, store, h]
  refine ⟨_, rfl, ?_, List.prefix_rfl⟩
  simp only [Sys.pending, h, List.length_cons]
  omega

/-- While anything is left, one of the two can move. -/
theorem pending_lessens (h : Inv pe cb rb s) (hpos : s.pending ≠ 0) :
    ∃ a : Act, a.inside = true ∧ Lessens pe a s := by
  cases hw : s.writer with
  | rdrTaken rdesc desc => exact ⟨.putCdr, rfl, putCdr_lessens h hw⟩
  | bothTaken rdesc cdesc desc => exact ⟨.putClear, rfl, put_lessens hw (by simp)⟩
  | cleared cdesc desc => exact ⟨.putCopy, rfl, put_lessens hw (by simp)⟩
  | copied => exact ⟨.putFree, rfl, put_lessens hw (by simp)⟩
  | idle =>
    rcases Nat.eq_zero_or_pos s.kicks with hk | hk
    · rcases Nat.eq_zero_or_pos s.cdCount with hd | hd
      · rcases Nat.eq_zero_or_pos s.uncounted with hu | hu
        · cases hr : s.results with
          | nil => simp [Sys.pending, hw, Writer.left, hk, hd, hu, hr] at hpos
          | cons d results => exact ⟨.store, rfl, store_lessens hr⟩
        · exact ⟨.count, rfl, count_lessens hu⟩
      · exact ⟨.fetch, rfl, fetch_lessens hd⟩
    · exact ⟨.kick, rfl, kick_lessens hk⟩

theorem leads_settled (n : Nat) (h : Inv pe cb rb s) (hn : s.pending ≤ n) :
    ∃ s', Leads pe s s' ∧ s'.pending = 0 ∧ s.accepted <+: s'.accepted := by
  induction n generalizing s with
  | zero => exact ⟨s, Leads.refl s, Nat.le_zero.1 hn, List.prefix_rfl⟩
  | succ n ih =>
    by_cases h0 : s.pending = 0
    · exact ⟨s, Leads.refl s, h0, List.prefix_rfl⟩
    · obtain ⟨a, ha, s1, hs, hlt, hacc⟩ := pending_lessens h h0
      obtain ⟨s', hl, hz, hacc'⟩ := ih (step_inv h hs) (by omega)
      exact ⟨s', Leads.step ha hs hl, hz, hacc.trans hacc'⟩

/-! ## The handler -/

/-- Where the handler is in its round, and the rounds it has left. -/
def Sys.toGo (s : Sys) : Nat :=
  10 * (s.accepted.length - s.taken.length) +
    match s.reader with
    | .idle => if s.taken.length < s.accepted.length then 9 else 0
    | .more => 8
    | .loop left => if left = 0 then 9 else 7
    | .cdrTaken _ _ => 6
    | .cleared _ => 5
    | .rdrTaken _ _ => 4
    | .waiting _ _ => 3
    | .loaded _ _ => 10

/-- The writer is out and the engine has worked off everything. -/
theorem settled_counts (h : Inv pe cb rb s) (hz : s.pending = 0) :
    s.accepted.length + s.reader.due = s.rdCount + s.taken.length ∧
      s.stored = s.accepted.length ∧ s.writer = .idle := by
  have hc := h.counts
  have hw : s.writer = .idle := by
    cases hw : s.writer <;> simp [Sys.pending, hw, Writer.left] at hz ⊢
  have ha := hc.accepted_eq
  have hf := hc.fetched_eq
  have hco := hc.counted_eq
  simp only [Sys.pending, hw, Writer.left, Writer.due] at hz ha
  exact ⟨by omega, by omega, hw⟩

/-- `a` can be done in `s`, and the handler has less to go then. -/
def Nears (pe : Engine) (a : Act) (s : Sys) : Prop :=
  ∃ s', step pe s a = some s' ∧ s'.toGo < s.toGo ∧ s'.pending = s.pending ∧
    s'.accepted = s.accepted

theorem schedule_nears (hr : s.reader = .idle) (hpos : s.toGo ≠ 0) : Nears pe .schedule s := by
  rw [Nears, step, schedule, hr]
  refine ⟨_, rfl, ?_, rfl, rfl⟩
  simp only [Sys.toGo, hr] at hpos ⊢
  split at hpos
  · rw [if_pos ‹_›]
    omega
  · omega

theorem poll_nears (h : Inv pe cb rb s) (hz : s.pending = 0) (hr : s.reader = .more) :
    Nears pe .poll s := by
  obtain ⟨hac, -, hw⟩ := settled_counts h hz
  have hroom := h.counts.room
  simp only [hr, hw, Reader.due, Reader.rdr, Writer.rdr] at hac hroom
  rw [Nears, step, poll, hr]
  refine ⟨_, rfl, ?_, rfl, rfl⟩
  rw [Nat.mod_eq_of_lt (by omega)]
  rcases Nat.eq_zero_or_pos s.rdCount with h0 | h0
  · rw [if_pos h0]
    simp only [Sys.toGo, hr]
    rw [if_neg (by omega)]
    omega
  · rw [if_neg (by omega)]
    simp only [Sys.toGo, hr]
    rw [if_neg (by omega)]
    omega

theorem getCdr_nears (h : Inv pe cb rb s) {left : Nat} (hr : s.reader = .loop left) :
    Nears pe .getCdr s := by
  rw [Nears, step, getCdr, hr]
  rcases Nat.eq_zero_or_pos left with h0 | hpos
  · simp only [if_pos h0]
    refine ⟨_, rfl, ?_, rfl, rfl⟩
    simp only [Sys.toGo, hr, if_pos h0]
    omega
  · obtain ⟨hc, hp, -⟩ := h
    have hwi := hc.within
    have hco := hc.counted_eq
    have hroom := hc.room
    have hahead := hc.ahead
    have hwl := s.writer.cdr_le
    have hcdr := hp.cdr
    simp only [hr, Reader.Within, Reader.due, Reader.rdr, Reader.cdr, Nat.add_zero]
      at hwi hco hroom hahead hcdr
    obtain ⟨cdr, hn, -, -⟩ := eip93RingNextRptr_some hcdr (by omega) (by omega)
    simp only [if_neg (show ¬ left = 0 by omega), hn]
    refine ⟨_, rfl, ?_, rfl, rfl⟩
    simp only [Sys.toGo, hr, if_neg (show ¬ left = 0 by omega)]
    omega

theorem getRdr_nears (h : Inv pe cb rb s) {left : Nat} (hr : s.reader = .cleared left) :
    Nears pe .getRdr s := by
  obtain ⟨hc, hp, -⟩ := h
  have hroom := hc.room
  have hahead := hc.ahead
  have hrdr := hp.rdr
  simp only [hr, Reader.rdr, Reader.cdr, Nat.add_zero] at hroom hahead hrdr
  obtain ⟨rdr, hn, -, -⟩ := eip93RingNextRptr_some hrdr (by omega) (by omega)
  rw [Nears, step, getRdr, hr]
  simp only [hn]
  refine ⟨_, rfl, ?_, rfl, rfl⟩
  simp only [Sys.toGo, hr]
  omega

/-- The engine marks what it has done. -/
def Engine.Marks (pe : Engine) : Prop := ∀ d, (pe.process d).peReady = true

theorem load_nears (hpe : pe.Marks) (h : Inv pe cb rb s) (hz : s.pending = 0) {left : Nat}
    {rdesc : Int} (hr : s.reader = .waiting left rdesc) : Nears pe .load s := by
  obtain ⟨hac, hst, hw⟩ := settled_counts h hz
  have hat := h.cursors.reader
  have hahead := h.counts.ahead
  simp only [hr, Reader.At, Reader.cdr] at hat hahead
  have hd : (s.accepted.map pe.process)[s.taken.length]? =
      some (s.rdr.mem ((ringSlots rb).slot s.taken.length)) :=
    h.contents.done s.taken.length (Nat.le_refl _) (by omega)
  rw [List.getElem?_map] at hd
  obtain ⟨d, -, hd⟩ := Option.map_eq_some_iff.1 hd
  have hready : (s.rdr.mem rdesc).peReady = true := by
    rw [hat, ← hd]
    exact hpe d
  rw [Nears, step, load, hr]
  simp only [hready, if_true]
  refine ⟨_, rfl, ?_, rfl, rfl⟩
  simp only [Sys.toGo, hr, List.length_append, List.length_singleton]
  omega

/-- Until the register is zero the handler can move. -/
theorem toGo_nears (hpe : pe.Marks) (h : Inv pe cb rb s) (hz : s.pending = 0)
    (hpos : s.toGo ≠ 0) : ∃ a : Act, a.inside = true ∧ Nears pe a s := by
  cases hr : s.reader with
  | idle => exact ⟨.schedule, rfl, schedule_nears hr hpos⟩
  | more => exact ⟨.poll, rfl, poll_nears h hz hr⟩
  | loop left => exact ⟨.getCdr, rfl, getCdr_nears h hr⟩
  | cdrTaken left cdesc =>
    refine ⟨.getClear, rfl, ?_⟩
    rw [Nears, step, getClear, hr]
    refine ⟨_, rfl, ?_, rfl, rfl⟩
    simp only [Sys.toGo, hr]
    omega
  | cleared left => exact ⟨.getRdr, rfl, getRdr_nears h hr⟩
  | rdrTaken left rdesc =>
    refine ⟨.getFree, rfl, ?_⟩
    rw [Nears, step, getFree, hr]
    refine ⟨_, rfl, ?_, rfl, rfl⟩
    simp only [Sys.toGo, hr]
    omega
  | waiting left rdesc => exact ⟨.load, rfl, load_nears hpe h hz hr⟩
  | loaded left d =>
    refine ⟨.ack, rfl, ?_⟩
    rw [Nears, step, ack, hr]
    refine ⟨_, rfl, ?_, rfl, rfl⟩
    cases hl : d.last <;> simp only [Sys.toGo, hr, if_true, Bool.false_eq_true, if_false]
    · split <;> omega
    · omega

theorem leads_done (hpe : pe.Marks) (n : Nat) (h : Inv pe cb rb s) (hz : s.pending = 0)
    (hn : s.toGo ≤ n) :
    ∃ s', Leads pe s s' ∧ s'.pending = 0 ∧ s'.toGo = 0 ∧ s'.accepted = s.accepted := by
  induction n generalizing s with
  | zero => exact ⟨s, Leads.refl s, hz, Nat.le_zero.1 hn, rfl⟩
  | succ n ih =>
    by_cases h0 : s.toGo = 0
    · exact ⟨s, Leads.refl s, hz, h0, rfl⟩
    · obtain ⟨a, ha, s1, hs, hlt, hz1, hacc⟩ := toGo_nears hpe h hz h0
      obtain ⟨s', hl, hz', hg, hacc'⟩ := ih (step_inv h hs) (hz1.trans hz) (by omega)
      exact ⟨s', Leads.step ha hs hl, hz', hg, hacc'.trans hacc⟩

/-! ## Draining -/

theorem drains_of_inv (hpe : pe.Marks) (h : Inv pe cb rb s) :
    ∃ s', Leads pe s s' ∧ s.accepted <+: s'.accepted ∧
      s'.taken = s'.accepted.map pe.process ∧ s'.writer = .idle ∧ s'.reader = .idle ∧
      s'.cdr.read = s'.cdr.write ∧ s'.rdr.read = s'.rdr.write ∧ s'.rdCount = 0 ∧
      s'.free = 511 := by
  obtain ⟨s1, hl1, hz1, hacc1⟩ := leads_settled _ h (Nat.le_refl _)
  obtain ⟨s2, hl2, hz2, hg2, hacc2⟩ := leads_done hpe _ (hl1.inv h) hz1 (Nat.le_refl _)
  have h2 := hl2.inv (hl1.inv h)
  obtain ⟨hac, hst, hw⟩ := settled_counts h2 hz2
  have hfree := h2.counts.free_eq
  have hle := h2.counts.ahead
  have hidle : s2.reader = .idle := by
    cases hr : s2.reader <;> simp only [Sys.toGo, hr] at hg2 ⊢ <;> first | omega | skip
    all_goals split at hg2 <;> omega
  simp only [Sys.toGo, hidle] at hg2
  simp only [hidle, hw, Reader.due, Reader.freed, Writer.due] at hac hfree
  have heq : s2.taken.length = s2.accepted.length := by omega
  have hcdr := h2.cursors.cdr
  have hrdr := h2.cursors.rdr
  simp only [hidle, hw, Reader.cdr, Reader.rdr, Writer.cdr, Writer.rdr, Nat.add_zero, heq]
    at hcdr hrdr
  refine ⟨s2, hl1.trans hl2, hacc2 ▸ hacc1, ?_, hw, hidle, hcdr.read_eq.trans hcdr.write_eq.symm,
    hrdr.read_eq.trans hrdr.write_eq.symm, by omega, by omega⟩
  rw [h2.contents.taken, heq, ← List.length_map pe.process, List.take_length]

/-- From every state of every run the handler can come to the results of all the descriptors that
were accepted, with both rings empty and nothing but the accesses that are under way or due. -/
theorem drains (hpe : pe.Marks) {cmem rmem : Int → Descriptor}
    (hr : run pe (eip93DescInit cb rb cmem rmem) as = some s) :
    ∃ s', Leads pe s s' ∧ s.accepted <+: s'.accepted ∧
      s'.taken = s'.accepted.map pe.process ∧ s'.writer = .idle ∧ s'.reader = .idle ∧
      s'.cdr.read = s'.cdr.write ∧ s'.rdr.read = s'.rdr.write ∧ s'.rdCount = 0 ∧ s'.free = 511 :=
  drains_of_inv hpe (run_inv (inv_init cmem rmem) hr)

theorem echo_marks : echo.Marks := by
  intro d
  simp [echo, Descriptor.peReady]

theorem drains_pair : echo.Marks ∧ ∃ s, pairRun = some s ∧ ∃ s', Leads echo s s' ∧
    s.accepted <+: s'.accepted ∧ s'.taken = s'.accepted.map echo.process ∧ s'.writer = .idle ∧
      s'.reader = .idle ∧ s'.cdr.read = s'.cdr.write ∧ s'.rdr.read = s'.rdr.write ∧
      s'.rdCount = 0 ∧ s'.free = 511 := by
  have hm := echo_marks
  have hl : pairRun.isSome = true := by decide
  obtain ⟨s, hs⟩ := Option.isSome_iff_exists.1 hl
  exact ⟨hm, s, hs, drains hm hs⟩

end Airoha.Eip93
