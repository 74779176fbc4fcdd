/-
Airoha.Bmt.Spec — what each driver function does, as one lemma each.

The first part is about the tables in RAM: `live_push` and `live_remap` turn the
array stores into list operations (`put` of `Lib.Keyed`). The second part
is about flash steps: `Machine.Did g m ops m'` says that `m'` is `m` after
the steps `ops`, with the flash, the log and nothing else accounted for.
On a machine whose writes all succeed (`Quiet`) every function is a list
of steps computed from the state it starts in: `tableOps` for
`update_bmt_bbt`, `remapOps` for `remap_block`. The last part reads the
scans (`find_available_block`, `parse_bbt`, `parse_bmt`,
`variable_setup`).
-/
import Airoha.Bmt.Driver

namespace Airoha.Bmt

open Airoha.Lib

/-! ## Tables in RAM -/

theorem BmtTable.push_ok {t t' : BmtTable} {e : BmtEntry} (h : t.push e = .ok t') :
    t'.live = t.live ++ [e] ∧ t'.signature = t.signature ∧ t.size.toNat < maxBmtSize ∧
      t'.size.toNat = t.size.toNat + 1 := by
  unfold BmtTable.push at h
  split at h
  · rename_i hlt
    have hlen : t.size.toNat < t.table.length := by rw [t.table_length]; exact hlt
    have hsize : (t.size + 1).toNat = t.size.toNat + 1 := by
      have : maxBmtSize = 250 := rfl
      rw [UInt8.toNat_add]
      simp only [UInt8.reduceToNat]
      omega
    cases h
    refine ⟨?_, rfl, hlt, hsize⟩
    simp only [BmtTable.live, hsize]
    rw [List.take_add_one, List.take_set, List.getElem?_set_self hlen]
    rw [List.set_eq_of_length_le (by rw [List.length_take]; omega)]
    rfl
  · cases h

theorem BbtTable.push_ok {t t' : BbtTable} {b : UInt16} (h : t.push b = .ok t') :
    t'.live = t.live ++ [b] ∧ t'.signature = t.signature ∧ t.size.toNat < maxRawBadBlockSize ∧
      t'.size.toNat = t.size.toNat + 1 := by
  unfold BbtTable.push at h
  split at h
  · rename_i hlt
    have hlen : t.size.toNat < t.table.length := by rw [t.table_length]; exact hlt
    have hsize : (t.size + 1).toNat = t.size.toNat + 1 := by
      have : maxRawBadBlockSize = 250 := rfl
      rw [UInt8.toNat_add]
      simp only [UInt8.reduceToNat]
      omega
    cases h
    refine ⟨?_, rfl, hlt, hsize⟩
    simp only [BbtTable.live, hsize]
    rw [List.take_add_one, List.take_set, List.getElem?_set_self hlen]
    rw [List.set_eq_of_length_le (by rw [List.length_take]; omega)]
    rfl
  · cases h

/-- The first loop of `remap_block` replaces or adds the row of `block`. -/
theorem BmtTable.live_remap {t t' : BmtTable} {block new : UInt16}
    (h : t.remap block new = .ok t') : t'.live = put BmtEntry.key ⟨block, new⟩ t.live := by
  unfold BmtTable.remap at h
  split at h
  · rename_i i hi
    cases h
    rw [put_of_findIdx?_some hi]
    simp only [BmtTable.live, List.take_set]
  · rename_i hnone
    rw [put_of_findIdx?_none hnone, (BmtTable.push_ok h).1]

theorem BmtTable.signature_remap {t t' : BmtTable} {block new : UInt16}
    (h : t.remap block new = .ok t') : t'.signature = t.signature := by
  unfold BmtTable.remap at h
  split at h
  · cases h; rfl
  · exact (BmtTable.push_ok h).2.1

theorem BbtTable.signature_remap {t t' : BbtTable} {block mapped : UInt16}
    (h : t.remap block mapped = .ok t') : t'.signature = t.signature := by
  unfold BbtTable.remap at h
  generalize t.live.find? (fun b => b == mapped || b == block) = hit at h
  by_cases hm : hit == some mapped
  · simp only [hm, if_true, bind, Except.bind, pure, Except.pure] at h
    split at h
    · exact (BbtTable.push_ok h).2.1
    · cases h; rfl
  · simp only [hm, if_false, bind, Except.bind, pure, Except.pure, Bool.false_eq_true] at h
    cases hu : t.push mapped with
    | error e => rw [hu] at h; cases h
    | ok u =>
      rw [hu] at h
      simp only at h
      have hsig := (BbtTable.push_ok hu).2.1
      split at h
      · rw [(BbtTable.push_ok h).2.1, hsig]
      · cases h; exact hsig

/-- Pushing a whole list appends it. -/
theorem BmtTable.foldlM_push_ok {es : List BmtEntry} {t t' : BmtTable}
    (h : es.foldlM BmtTable.push t = .ok t') :
    t'.live = t.live ++ es ∧ t'.signature = t.signature := by
  induction es generalizing t with
  | nil => cases h; simp
  | cons e es ih =>
    simp only [List.foldlM_cons, bind, Except.bind] at h
    split at h
    · cases h
    · rename_i u hu
      obtain ⟨hlive, hsig, -⟩ := BmtTable.push_ok hu
      obtain ⟨h1, h2⟩ := ih h
      rw [h1, hlive, h2, hsig]
      simp

theorem BmtTable.push_room {t : BmtTable} (e : BmtEntry) (h : t.size.toNat < maxBmtSize) :
    ∃ t', t.push e = .ok t' := by
  unfold BmtTable.push
  rw [if_pos h]
  exact ⟨_, rfl⟩

theorem BmtTable.foldlM_push_room {es : List BmtEntry} {t : BmtTable}
    (h : t.size.toNat + es.length ≤ maxBmtSize) : ∃ t', es.foldlM BmtTable.push t = .ok t' := by
  induction es generalizing t with
  | nil => exact ⟨t, rfl⟩
  | cons e es ih =>
    rw [List.length_cons] at h
    obtain ⟨u, hu⟩ := BmtTable.push_room (t := t) e (by omega)
    obtain ⟨t', ht'⟩ := ih (t := u) (by rw [(BmtTable.push_ok hu).2.2.2]; omega)
    refine ⟨t', ?_⟩
    simp only [List.foldlM_cons, hu, bind, Except.bind]
    exact ht'

theorem BbtTable.foldlM_push_room {bs : List Nat} {t : BbtTable}
    (h : t.size.toNat + bs.length ≤ maxRawBadBlockSize) :
    ∃ t', bs.foldlM (fun t i => BbtTable.push t (UInt16.ofNat i)) t = .ok t' := by
  induction bs generalizing t with
  | nil => exact ⟨t, rfl⟩
  | cons b bs ih =>
    rw [List.length_cons] at h
    have hu : ∃ u, t.push (UInt16.ofNat b) = .ok u := by
      unfold BbtTable.push
      rw [if_pos (by omega)]
      exact ⟨_, rfl⟩
    obtain ⟨u, hu⟩ := hu
    obtain ⟨t', ht'⟩ := ih (t := u) (by rw [(BbtTable.push_ok hu).2.2.2]; omega)
    refine ⟨t', ?_⟩
    simp only [List.foldlM_cons, hu, bind, Except.bind]
    exact ht'

theorem BbtTable.foldlM_push_ok {bs : List Nat} {t t' : BbtTable}
    (h : bs.foldlM (fun t i => BbtTable.push t (UInt16.ofNat i)) t = .ok t') :
    t'.signature = t.signature ∧ t'.size.toNat = t.size.toNat + bs.length ∧
      (t.size.toNat ≤ maxRawBadBlockSize → t'.size.toNat ≤ maxRawBadBlockSize) := by
  induction bs generalizing t with
  | nil => cases h; simp
  | cons b bs ih =>
    simp only [List.foldlM_cons, bind, Except.bind] at h
    split at h
    · cases h
    · rename_i u hu
      obtain ⟨-, hsig, hroom, hsize⟩ := BbtTable.push_ok hu
      obtain ⟨h1, h2, h3⟩ := ih h
      refine ⟨h1.trans hsig, ?_, fun _ => h3 (by omega)⟩
      rw [h2, hsize, List.length_cons]
      omega

/-! ## Flash steps -/

/-- All `_write_oob` calls of this machine succeed. -/
def Quiet (m : Machine) : Prop := ∀ n, m.writeFails n = false

/-- Each step of a list with the flash before it. -/
def trace (g : Geometry) : List FlashOp → Flash → List (FlashOp × Flash)
  | [], _ => []
  | op :: ops, f => (op, f) :: trace g ops (op.apply g f)

theorem trace_append (g : Geometry) : ∀ (as bs : List FlashOp) (f : Flash),
    trace g (as ++ bs) f = trace g as f ++ trace g bs (applyAll g as f)
  | [], _, _ => rfl
  | op :: as, bs, f => by
      simp only [List.cons_append, trace, trace_append g as bs, applyAll_cons]

@[simp] theorem length_trace (g : Geometry) : ∀ (ops : List FlashOp) (f : Flash),
    (trace g ops f).length = ops.length
  | [], _ => rfl
  | op :: ops, f => by simp [trace, length_trace g ops]

/-- The flash before step `k` is the one the first `k` steps leave. -/
theorem getElem?_trace (g : Geometry) : ∀ (ops : List FlashOp) (f : Flash) (k : Nat),
    k < ops.length → ((trace g ops f)[k]?).map Prod.snd = some (applyAll g (ops.take k) f)
  | [], _, k, h => by simp at h
  | op :: ops, f, 0, _ => by simp [trace]
  | op :: ops, f, k + 1, h => by
      have hk : k < ops.length := by simpa using h
      simp only [trace, List.getElem?_cons_succ, List.take_succ_cons, applyAll_cons]
      exact getElem?_trace g ops (op.apply g f) k hk

/-- `m'` is `m` after the steps `ops`. -/
structure Machine.Did (g : Geometry) (m : Machine) (ops : List FlashOp) (m' : Machine) : Prop where
  flash : m'.flash = applyAll g ops m.flash
  log : m'.log = m.log ++ trace g ops m.flash
  writeFails : m'.writeFails = m.writeFails

theorem Machine.Did.trans {g : Geometry} {m m' m'' : Machine} {as bs : List FlashOp}
    (h : m.Did g as m') (h' : m'.Did g bs m'') : m.Did g (as ++ bs) m'' where
  flash := by rw [h'.flash, h.flash, applyAll_append]
  log := by rw [h'.log, h.log, h.flash, trace_append, List.append_assoc]
  writeFails := h'.writeFails.trans h.writeFails

theorem Machine.Did.quiet {g : Geometry} {m m' : Machine} {ops : List FlashOp}
    (h : m.Did g ops m') (hq : Quiet m) : Quiet m' := by
  intro n
  rw [h.writeFails]
  exact hq n

theorem did_step (g : Geometry) (op : FlashOp) (m : Machine) : m.Did g [op] (m.step g op) :=
  ⟨rfl, rfl, rfl⟩

theorem writeOob_quiet {g : Geometry} {m : Machine} (hq : Quiet m) (op : FlashOp) :
    (m.writeOob g op).2 = true ∧ m.Did g [op] (m.writeOob g op).1 ∧
      (m.writeOob g op).1.ram = m.ram := by
  unfold Machine.writeOob
  rw [if_neg (by rw [hq]; simp)]
  exact ⟨rfl, ⟨rfl, rfl, rfl⟩, rfl⟩

@[simp] theorem ram_step (g : Geometry) (op : FlashOp) (m : Machine) :
    (m.step g op).ram = m.ram := rfl

@[simp] theorem ram_writeOob (g : Geometry) (op : FlashOp) (m : Machine) :
    (m.writeOob g op).1.ram = m.ram := by
  unfold Machine.writeOob
  split <;> rfl

@[simp] theorem ram_markBad (g : Geometry) (b : Nat) (m : Machine) :
    (m.markBad g b).ram = m.ram :=
  ram_writeOob g _ m

@[simp] theorem ram_makeMapping (g : Geometry) (b : Nat) (t : UInt16) (m : Machine) :
    (m.makeMapping g b t).ram = m.ram :=
  ram_writeOob g _ m

theorem did_markBad {g : Geometry} {m : Machine} (hq : Quiet m) (b : Nat) :
    m.Did g [.writeFdm b (badMark m.ram.systemBlks b)] (m.markBad g b) :=
  (writeOob_quiet hq _).2.1

theorem did_makeMapping {g : Geometry} {m : Machine} (hq : Quiet m) (b : Nat) (t : UInt16) :
    m.Did g [.writeFdm b (mappingMark t)] (m.makeMapping g b t) :=
  (writeOob_quiet hq _).2.1

/-! ### `update_bmt_bbt` -/

/-- The steps of `update_bmt_bbt` when no write fails. -/
def tableOps (ram : Ram) : List FlashOp :=
  [.erase ram.bmtIndex, .erase ram.bbtIndex, .writeBmt ram.bmtIndex ram.bmt,
    .writeBbt ram.bbtIndex ram.bbt]

theorem retryBmt_quiet {g : Geometry} {m : Machine} (hq : Quiet m) (n : Nat) :
    retryBmt g n m = ((m.writeOob g (.writeBmt m.ram.bmtIndex m.ram.bmt)).1, true) := by
  have h := (writeOob_quiet (g := g) hq (.writeBmt m.ram.bmtIndex m.ram.bmt)).1
  cases n <;> simp [retryBmt, h]

theorem retryBbt_quiet {g : Geometry} {m : Machine} (hq : Quiet m) (n : Nat) :
    retryBbt g n m = (m.writeOob g (.writeBbt m.ram.bbtIndex m.ram.bbt)).1 := by
  have h := (writeOob_quiet (g := g) hq (.writeBbt m.ram.bbtIndex m.ram.bbt)).1
  cases n <;> simp [retryBbt, h]

theorem did_writeTables {g : Geometry} {m : Machine} (hq : Quiet m) :
    m.Did g (tableOps m.ram) (writeTables g m) ∧ (writeTables g m).ram = m.ram := by
  have d1 := did_step g (.erase m.ram.bmtIndex) m
  have d2 := did_step g (.erase m.ram.bbtIndex) (m.step g (.erase m.ram.bmtIndex))
  have d12 := d1.trans d2
  have w3 := writeOob_quiet (g := g) (d12.quiet hq) (.writeBmt m.ram.bmtIndex m.ram.bmt)
  have d123 := d12.trans w3.2.1
  have w4 := writeOob_quiet (g := g) (d123.quiet hq) (.writeBbt m.ram.bbtIndex m.ram.bbt)
  have heq : writeTables g m =
      ((((m.step g (.erase m.ram.bmtIndex)).step g (.erase m.ram.bbtIndex)).writeOob g
        (.writeBmt m.ram.bmtIndex m.ram.bmt)).1.writeOob g
          (.writeBbt m.ram.bbtIndex m.ram.bbt)).1 := by
    simp only [writeTables, retryBmt_quiet (d12.quiet hq), ram_step, if_true,
      retryBbt_quiet (d123.quiet hq), ram_writeOob]
  rw [heq]
  exact ⟨d123.trans w4.2.1, by simp⟩

theorem updateBmtBbt_ok {g : Geometry} {m m' : Machine} (hq : Quiet m)
    (h : updateBmtBbt g m = .ok m') :
    ∃ ram, chooseIndexes g m.flash m.ram.sealed = .ok ram ∧ m.Did g (tableOps ram) m' ∧
      m'.ram = ram := by
  simp only [updateBmtBbt, bind, Except.bind] at h
  split at h
  · cases h
  · rename_i ram hram
    cases h
    have hq' : Quiet { m with ram := ram } := hq
    have hd := did_writeTables (g := g) hq'
    exact ⟨ram, hram, ⟨hd.1.flash, hd.1.log, hd.1.writeFails⟩, hd.2⟩

theorem chooseIndexes_of_chosen {g : Geometry} {f : Flash} {ram : Ram}
    (hb : ram.bbtIndex ≠ noIndex) (hm : ram.bmtIndex ≠ noIndex) :
    chooseIndexes g f ram = .ok ram := by
  simp only [chooseIndexes, hb, hm, if_false, bind, Except.bind, pure, Except.pure]

/-! ### `remap_block` -/

/-- The steps that prepare the new block. -/
def prepareOps (new mapped copyLen : Nat) : List FlashOp :=
  .erase new :: if copyLen ≠ 0 then [.copy new mapped copyLen] else []

/-- The OOB bytes `remap_block` writes. -/
def markOps (systemBlks new block mapped : Nat) : List FlashOp :=
  (if mapped ≠ block then [.writeFdm mapped (badMark systemBlks mapped)] else []) ++
    [.writeFdm block (badMark systemBlks block), .writeFdm new (mappingMark (UInt16.ofNat block))]

/-- The steps of `remap_block` when no write fails; `ram` is the RAM it
leaves. -/
def remapOps (ram : Ram) (new block mapped copyLen : Nat) : List FlashOp :=
  prepareOps new mapped copyLen ++ markOps ram.systemBlks new block mapped ++ tableOps ram

theorem remapBlock_ok {g : Geometry} {m m' : Machine} {block mapped copyLen : Nat}
    (hq : Quiet m) (hb : m.ram.bbtIndex ≠ noIndex) (hm : m.ram.bmtIndex ≠ noIndex)
    (h : remapBlock g block mapped copyLen m = .ok m') :
    ∃ bmt bbt,
      m.ram.bmt.remap (UInt16.ofNat block) (UInt16.ofNat (newBlock g m.flash m.ram)) = .ok bmt ∧
      m.ram.bbt.remap (UInt16.ofNat block) (UInt16.ofNat mapped) = .ok bbt ∧
      m'.ram = ({ m.ram with bmt := bmt, bbt := bbt } : Ram).sealed ∧
      m.Did g (remapOps m'.ram (newBlock g m.flash m.ram) block mapped copyLen) m' := by
  generalize hnew : newBlock g m.flash m.ram = new at h ⊢
  simp only [remapBlock, hnew] at h
  generalize hm1 : (if copyLen ≠ 0 then
    (m.step g (.erase new)).step g (.copy new mapped copyLen) else m.step g (.erase new)) = m1 at h
  have d1 : m.Did g (prepareOps new mapped copyLen) m1 := by
    rw [← hm1, prepareOps]
    split
    · exact (did_step g _ m).trans (did_step g _ _)
    · exact did_step g _ m
  have r1 : m1.ram = m.ram := by rw [← hm1]; split <;> rfl
  rw [r1] at h
  simp only [bind, Except.bind] at h
  split at h
  · cases h
  rename_i bmt hbmt
  split at h
  · cases h
  rename_i bbt hbbt
  generalize hram : ({ m.ram with bmt := bmt, bbt := bbt } : Ram) = ram at h
  generalize hm2 : (if mapped ≠ block then
    ({ m1 with ram := ram } : Machine).markBad g mapped else { m1 with ram := ram }) = m2 at h
  have hq1 : Quiet { m1 with ram := ram } := d1.quiet hq
  have r2 : m2.ram = ram := by rw [← hm2]; split <;> simp
  have d2 : m1.Did g (if mapped ≠ block then [.writeFdm mapped (badMark ram.systemBlks mapped)]
      else []) m2 := by
    rw [← hm2]
    split
    · have hd := did_markBad (g := g) hq1 mapped
      exact ⟨hd.flash, hd.log, hd.writeFails⟩
    · exact ⟨rfl, by simp [trace], rfl⟩
  have hq2 : Quiet m2 := d2.quiet (d1.quiet hq)
  have d3 := did_markBad (g := g) hq2 block
  have d4 := did_makeMapping (g := g) (d3.quiet hq2) new (UInt16.ofNat block)
  obtain ⟨ram', hch, d5, r5⟩ := updateBmtBbt_ok (d4.quiet (d3.quiet hq2)) h
  have hsys : ram.systemBlks = m.ram.systemBlks := by rw [← hram]
  simp only [ram_makeMapping, ram_markBad, r2] at hch
  rw [chooseIndexes_of_chosen (by rw [← hram]; exact hb) (by rw [← hram]; exact hm)] at hch
  cases hch
  refine ⟨bmt, bbt, hbmt, hbbt, by rw [r5, hram], ?_⟩
  have hall := (((d1.trans d2).trans d3).trans d4).trans d5
  rw [r2] at hall
  rw [r5]
  simpa only [remapOps, markOps, List.append_assoc, List.cons_append, List.nil_append,
    Ram.sealed] using hall

end Airoha.Bmt
