/-
Airoha.Bmt.Cut — the flash a power loss leaves behind.

`cutFlash m k` is the flash after the first `k` steps of a call
(`cutFlash_eq`). A cut inside `prepareOps` changes no OOB byte and no
table, a cut inside `markOps` leaves the tables alone (`marking_take`),
and a cut inside `tableOps` leaves at most one table (`cut_tables`).

`Unforged` says that no block but the two index blocks passes the checks of
`parse_bbt` and `parse_bmt`. It is what makes a flash with a missing table
a flash that `init` rebuilds from the OOB bytes (`unparsed_of_lost`).
-/
import Airoha.Bmt.Persist

namespace Airoha.Bmt

open Airoha.Lib

variable {g : Geometry} {sys β μ : Nat} {f f' : Flash} {s : State} {block new mapped : Nat}

/-- The flash when the power is lost after `done` flash steps of a call that
would have ended in `m'`. -/
def cutFlash (m' : Machine) (done : Nat) : Flash :=
  match m'.log[done]? with
  | some (_, f) => f
  | none => m'.flash

theorem cutFlash_eq {ops : List FlashOp} {m' : Machine} (h : s.machine.Did g ops m') (k : Nat) :
    cutFlash m' k = applyAll g (ops.take k) s.flash := by
  have hlog : m'.log = trace g ops s.flash := h.log
  unfold cutFlash
  rw [hlog]
  by_cases hk : k < ops.length
  · have hget := getElem?_trace g ops s.flash k hk
    cases he : (trace g ops s.flash)[k]? with
    | none => rw [he] at hget; cases hget
    | some p =>
      rw [he] at hget
      exact Option.some.inj hget
  · have hnone : (trace g ops s.flash)[k]? = none := by
      rw [List.getElem?_eq_none_iff, length_trace]
      omega
    rw [hnone, List.take_of_length_le (by omega)]
    exact h.flash

/-! ## Pages that pass as tables -/

/-- The page passes neither as a bbt nor as the bmt of a pool of `n` blocks. -/
def Plain (n : Nat) (p : Nat → UInt8) : Prop :=
  (BbtTable.decode p).accepted = false ∧
    ∀ beyond, (BmtTable.decode p).accepted beyond n = false

theorem plain_erased (n : Nat) : Plain n (fun _ => 0xff) := by
  refine ⟨?_, fun beyond => ?_⟩
  · unfold BbtTable.accepted
    have hsig : ((BbtTable.decode fun _ => 0xff).signature == bbtSignature) = false := by decide
    rw [hsig, Bool.false_and]
  · unfold BmtTable.accepted
    have hsig : ((BmtTable.decode fun _ => 0xff).signature == bmtSignature) = false := by decide
    rw [hsig, Bool.false_and]

theorem Plain.congr {n : Nat} {p q : Nat → UInt8} (h : Plain n p)
    (heq : ∀ o, o < sizeofBmt → q o = p o) : Plain n q := by
  have hle : sizeofBbt ≤ sizeofBmt := by decide
  have h1 : BbtTable.decode q = BbtTable.decode p :=
    BbtTable.decode_congr fun o ho => heq o (by omega)
  have h2 : BmtTable.decode q = BmtTable.decode p := BmtTable.decode_congr heq
  unfold Plain
  rw [h1, h2]
  exact h

/-- Only the index blocks hold tables, and each only its own. -/
structure Unforged (g : Geometry) (sys β μ : Nat) (f : Flash) : Prop where
  plain : ∀ b, b < g.totalBlks → b ≠ β → b ≠ μ → Plain (g.totalBlks - sys) (f b).data
  no_bmt : ∀ beyond, (BmtTable.decode (f β).data).accepted beyond (g.totalBlks - sys) = false
  no_bbt : (BbtTable.decode (f μ).data).accepted = false

theorem Unforged.congr (h : Unforged g sys β μ f) (hd : ∀ b, (f' b).data = (f b).data) :
    Unforged g sys β μ f' where
  plain b h1 h2 h3 := by rw [hd]; exact h.plain b h1 h2 h3
  no_bmt := by rw [hd]; exact h.no_bmt
  no_bbt := by rw [hd]; exact h.no_bbt

theorem Unforged.change {n : Nat} (h : Unforged g sys β μ f) (hβ : n ≠ β) (hμ : n ≠ μ)
    (hd : ∀ b, b ≠ n → (f' b).data = (f b).data)
    (hn : Plain (g.totalBlks - sys) (f' n).data) : Unforged g sys β μ f' where
  plain b h1 h2 h3 := by
    by_cases hb : b = n
    · rw [hb]
      exact hn
    · rw [hd b hb]
      exact h.plain b h1 h2 h3
  no_bmt := by rw [hd β hβ.symm]; exact h.no_bmt
  no_bbt := by rw [hd μ hμ.symm]; exact h.no_bbt

/-- At least one of the tables is not on the flash. -/
def Lost (g : Geometry) (sys β μ : Nat) (f : Flash) : Prop :=
  (BbtTable.decode (f β).data).accepted = false ∨
    ∀ beyond, (BmtTable.decode (f μ).data).accepted beyond (g.totalBlks - sys) = false

/-- Without both tables `init` rebuilds them. -/
theorem unparsed_of_lost (hp : Placed g sys β μ f) (hu : Unforged g sys β μ f)
    (hl : Lost g sys β μ f) (beyond : Nat → UInt8) :
    ∃ ram, Unparsed g f (setupRam g f beyond) ram ∧
      (ram.bbtIndex = noIndex ∨ ram.bbtIndex = β) := by
  have h1 := hp.bbt_ge
  have h2 := hp.index_lt
  have h3 := hp.bmt_lt
  have hsys : (setupRam g f beyond).systemBlks = sys := by rw [setupRam_systemBlks, hp.start]
  have hblks : (setupRam g f beyond).bmtBlks = g.totalBlks - sys := by
    rw [setupRam_bmtBlks, hp.start]
  cases hi : parseBbt g f (setupRam g f beyond).systemBlks with
  | none => exact ⟨_, Or.inl ⟨hi, rfl⟩, Or.inl rfl⟩
  | some i =>
    obtain ⟨-, hi2, -, hi4⟩ := parseBbt_spec (by omega) hi
    have hib : i = β := by
      by_contra hne
      by_cases him : i = μ
      · rw [him, hu.no_bbt] at hi4
        cases hi4
      · rw [(hu.plain i hi2 hne him).1] at hi4
        cases hi4
    cases hj : parseBmt g f (setupRam g f beyond) with
    | none => exact ⟨_, Or.inr ⟨i, hi, hj, rfl⟩, Or.inr hib⟩
    | some j =>
      obtain ⟨-, hj2, -, hj4⟩ := parseBmt_spec hj
      rw [hblks] at hj4
      by_cases hjm : j = μ
      · rcases hl with hl | hl
        · rw [hib, hl] at hi4
          cases hi4
        · rw [hjm, hl] at hj4
          cases hj4
      · by_cases hjb : j = β
        · rw [hjb, hu.no_bmt] at hj4
          cases hj4
        · rw [(hu.plain j hj2 hjb hjm).2] at hj4
          cases hj4

/-! ## Cuts while the new block is prepared -/

theorem Plan.new_ne (h : Plan g s block new mapped) (hr : Sealed g sys β μ s.ram) :
    new ≠ β ∧ new ≠ μ := by
  have h1 := h.new_ne_bbt
  have h2 := h.new_ne_bmt
  rw [hr.bbt_index] at h1
  rw [hr.bmt_index] at h2
  exact ⟨h1, h2⟩

theorem Plan.mapped_ne (h : Plan g s block new mapped) (hr : Sealed g sys β μ s.ram)
    (hp : Placed g sys β μ s.flash) : mapped < g.totalBlks ∧ mapped ≠ β ∧ mapped ≠ μ := by
  have h1 := h.block_lt
  have h2 := hp.bbt_ge
  have h3 := hp.index_lt
  have h4 := hp.bmt_lt
  have h5 := hr.sys_eq
  rcases h.mapped_cases with hm | ⟨-, hm1, -, hm2, hm3, -⟩
  · omega
  · rw [hr.bmt_index] at hm2
    rw [hr.bbt_index] at hm3
    exact ⟨hm1, hm3, hm2⟩

theorem prepareOps_blk {copyLen : Nat} {op : FlashOp}
    (h : op ∈ prepareOps new mapped copyLen) : op.blk = new := by
  unfold prepareOps at h
  rcases List.mem_cons.mp h with rfl | h
  · rfl
  · split at h
    · rw [List.mem_singleton.mp h]
      rfl
    · cases h

theorem prepare_of_ne {copyLen b : Nat} (k : Nat) (hb : b ≠ new) :
    applyAll g ((prepareOps new mapped copyLen).take k) f b = f b :=
  applyAll_of_ne fun op hop => by
    rw [prepareOps_blk (List.mem_of_mem_take hop)]
    exact hb

/-- The first page of the copy is the one of `mapped`. -/
theorem data_copied {copyLen o : Nat} (hnew : new < g.totalBlks) (hne : mapped ≠ new)
    (hc : copyLen ≠ 0) (ho : o < sizeofBmt) :
    (applyAll g (prepareOps new mapped copyLen) f new).data o = (f mapped).data o := by
  unfold prepareOps
  rw [if_pos hc]
  simp only [applyAll_cons, applyAll_nil]
  have hsrc : (FlashOp.erase new).apply g f mapped = f mapped := FlashOp.apply_of_ne hne
  have hlen := g.sizeofBmt_le_copied (Nat.pos_of_ne_zero hc)
  rw [apply_copy hnew, apply_erase hnew, hsrc]
  show programData (fun _ => 0xff) (g.copied copyLen) (f mapped).data o = _
  unfold programData
  rw [if_pos (by omega), and_ff]

theorem plain_copied {n : Nat} (copyLen : Nat) (hnew : new < g.totalBlks) (hne : mapped ≠ new)
    (hm : Plain n (f mapped).data) :
    Plain n (applyAll g (prepareOps new mapped copyLen) f new).data := by
  by_cases hc : copyLen = 0
  · unfold prepareOps
    rw [if_neg (by simpa using hc), applyAll_cons, applyAll_nil, apply_erase hnew]
    exact plain_erased n
  · exact hm.congr fun o ho => data_copied hnew hne hc ho

theorem plain_prepare {copyLen n : Nat} (k : Nat) (hnew : new < g.totalBlks) (hne : mapped ≠ new)
    (h1 : Plain n (f new).data) (h2 : Plain n (f mapped).data) :
    Plain n (applyAll g ((prepareOps new mapped copyLen).take k) f new).data := by
  rcases k with _ | _ | k
  · exact h1
  · show Plain n ((FlashOp.erase new).apply g f new).data
    rw [apply_erase hnew]
    exact plain_erased n
  · have hlen : (prepareOps new mapped copyLen).length ≤ k + 2 := by
      unfold prepareOps
      split <;> simp
    rw [List.take_of_length_le hlen]
    exact plain_copied copyLen hnew hne h2

theorem Unforged.prepare (hu : Unforged g sys β μ s.flash) (hp : Placed g sys β μ s.flash)
    (hr : Sealed g sys β μ s.ram) (h : Plan g s block new mapped) (copyLen k : Nat) :
    Unforged g sys β μ (applyAll g ((prepareOps new mapped copyLen).take k) s.flash) := by
  obtain ⟨h1, h2⟩ := h.new_ne hr
  obtain ⟨h3, h4, h5⟩ := h.mapped_ne hr hp
  have hne : mapped ≠ new := (h.free_ne_mapped h.new_pool.1 h.new_free).symm
  refine hu.change h1 h2 (fun b hb => ?_) ?_
  · rw [prepare_of_ne k hb]
  · exact plain_prepare k h.new_pool.2 hne (hu.plain new h.new_pool.2 h1 h2)
      (hu.plain mapped h3 h4 h5)

/-! ## Cuts between the marks -/

theorem data_writeFdm (b : Nat) (fdm : Oob) (x : Nat) :
    ((FlashOp.writeFdm b fdm).apply g f x).data = (f x).data := by
  by_cases hx : x = b
  · subst hx
    by_cases hlt : x < g.totalBlks
    · rw [apply_writeFdm hlt]
    · rw [FlashOp.apply_of_ge (by exact Nat.le_of_not_lt hlt)]
  · have hne : x ≠ (FlashOp.writeFdm b fdm).blk := hx
    rw [FlashOp.apply_of_ne hne]

theorem data_marks {ops : List FlashOp} (h : ∀ op ∈ ops, ∃ b fdm, op = .writeFdm b fdm) (x : Nat) :
    (applyAll g ops f x).data = (f x).data := by
  induction ops generalizing f with
  | nil => rfl
  | cons op ops ih =>
    obtain ⟨b, fdm, rfl⟩ := h op List.mem_cons_self
    rw [applyAll_cons, ih fun o ho => h o (List.mem_cons_of_mem _ ho), data_writeFdm]

theorem markOps_writeFdm {op : FlashOp} (h : op ∈ markOps sys new block mapped) :
    ∃ b fdm, op = .writeFdm b fdm := by
  unfold markOps at h
  rcases List.mem_append.mp h with h | h
  · split at h
    · exact ⟨_, _, List.mem_singleton.mp h⟩
    · cases h
  · rcases List.mem_cons.mp h with rfl | h
    · exact ⟨_, _, rfl⟩
    · exact ⟨_, _, List.mem_singleton.mp h⟩

theorem data_markOps (k x : Nat) :
    (applyAll g ((markOps sys new block mapped).take k) f x).data = (f x).data :=
  data_marks (fun _ hop => markOps_writeFdm (List.mem_of_mem_take hop)) x

/-- One bad mark is a `Marking`. -/
theorem Marking.markBad {f'' : Flash} {b : Nat} (h : Marking sys new block mapped f f')
    (hb : b < g.totalBlks) (hbm : b = block ∨ b = mapped)
    (heq : f'' = (FlashOp.writeFdm b (badMark sys b)).apply g f') :
    Marking sys new block mapped f f'' where
  bad_mono x hx := by rw [heq, isBad_markBad hb, h.bad_mono x hx]; rfl
  bad x hx := by
    rw [heq, isBad_markBad hb] at hx
    simp only [Bool.or_eq_true, beq_iff_eq] at hx
    rcases hx with hx | rfl
    · exact h.bad x hx
    · exact Or.inr hbm
  raw x hx := by
    have hne : (x == b && decide (b < sys)) = false := by
      by_cases hxb : x = b
      · subst hxb
        simp
        omega
      · rw [beq_eq_false_iff_ne.mpr hxb, Bool.false_and]
    rw [heq, isBadRaw_markBad hb, hne, Bool.or_false]
    exact h.raw x hx
  back x hx := by rw [heq, mappedBlock_markBad hb]; exact h.back x hx
  back_new := by rw [heq, mappedBlock_markBad hb]; exact h.back_new

theorem length_markOps :
    (markOps sys new block mapped).length = if mapped = block then 2 else 3 := by
  unfold markOps
  by_cases h : mapped = block <;> simp [h]

/-- Any number of marks, from the first on, is a `Marking`. -/
theorem marking_take (h : Plan g s block new mapped) (hr : Sealed g sys β μ s.ram)
    (hf : SameOob s.flash f) (k : Nat) :
    Marking sys new block mapped s.flash
      (applyAll g ((markOps sys new block mapped).take k) f) := by
  have h1 := h.block_lt
  have h2 := h.new_pool
  have hsys := hr.sys_eq
  by_cases hfull : (markOps sys new block mapped).length ≤ k
  · rw [List.take_of_length_le hfull, ← hsys]
    exact (h.marksView hf).marking h1
  · have hstart : Marking sys new block mapped s.flash f := hf.marking
    rw [length_markOps] at hfull
    unfold markOps
    by_cases hm : mapped = block
    · rw [if_pos hm] at hfull
      rw [if_neg (by simpa using hm)]
      rcases k with _ | _ | k
      · exact hstart
      · exact hstart.markBad (by omega) (Or.inl rfl) rfl
      · omega
    · obtain ⟨hm1, hm2⟩ := h.mapped_pool hm
      rw [if_neg hm] at hfull
      rw [if_pos hm]
      have hfirst : Marking sys new block mapped s.flash
          ((FlashOp.writeFdm mapped (badMark sys mapped)).apply g f) :=
        hstart.markBad hm2 (Or.inr rfl) rfl
      rcases k with _ | _ | _ | k
      · exact hstart
      · exact hfirst
      · exact hfirst.markBad (by omega) (Or.inl rfl) rfl
      · omega

/-- While a block that was never remapped has only its own bad mark, the OOB
bytes still name the same blocks. -/
theorem target_first_mark (h : Plan g s block new mapped) (hr : Sealed g sys β μ s.ram)
    (hf : SameOob s.flash f) (hm : mapped = block) {k : Nat} (hk : k < 2) (b : Nat) :
    target g (applyAll g ((markOps sys new block mapped).take k) f) sys b =
      target g s.flash sys b := by
  have h1 := h.block_lt
  have h2 := h.new_pool
  have hsys := hr.sys_eq
  unfold markOps
  rw [if_neg (by simpa using hm)]
  rcases k with _ | _ | k
  · exact hf.target b
  · rw [← hf.target b]
    refine target_congr (by omega) fun i hi1 hi2 => ?_
    have hne : (i == block) = false := beq_eq_false_iff_ne.mpr (by omega)
    show owns ((FlashOp.writeFdm block (badMark sys block)).apply g f) b i = owns f b i
    unfold owns
    rw [isBad_markBad (by omega), mappedBlock_markBad (by omega), hne, Bool.or_false]
  · omega

/-! ## Cuts while the tables are written -/

/-- After one, two or three of the four steps the flash has at most one table. -/
theorem cut_tables {ram : Ram} (hp : Placed g sys β μ f) (hr : Sealed g sys β μ ram)
    (hu : Unforged g sys β μ f) {k : Nat} (hk : 0 < k) (hk4 : k < 4) :
    Unforged g sys β μ (applyAll g ((tableOps ram).take k) f) ∧
      Lost g sys β μ (applyAll g ((tableOps ram).take k) f) := by
  have h2 := hp.index_lt
  have h3 := hp.bmt_lt
  have hβ : β < g.totalBlks := by omega
  have hi1 := hr.bmt_index
  have hi2 := hr.bbt_index
  obtain ⟨hpe1, hpe2⟩ := plain_erased (g.totalBlks - sys)
  have hother : ∀ b, b ≠ β → b ≠ μ → applyAll g ((tableOps ram).take k) f b = f b := by
    intro b hb1 hb2
    refine applyAll_of_ne fun op hop => ?_
    have hmem := List.mem_of_mem_take hop
    simp only [tableOps, List.mem_cons, List.not_mem_nil, or_false, hi1, hi2] at hmem
    rcases hmem with rfl | rfl | rfl | rfl
    · exact hb2
    · exact hb1
    · exact hb2
    · exact hb1
  have hμ1 : ∀ f : Flash, (FlashOp.erase β).apply g f μ = f μ := fun f =>
    FlashOp.apply_of_ne (by show μ ≠ β; omega)
  have hβ1 : ∀ f : Flash, (FlashOp.erase μ).apply g f β = f β := fun f =>
    FlashOp.apply_of_ne (by show β ≠ μ; omega)
  have hβ2 : ∀ f : Flash, (FlashOp.writeBmt μ ram.bmt).apply g f β = f β := fun f =>
    FlashOp.apply_of_ne (by show β ≠ μ; omega)
  have hplain : ∀ b, b < g.totalBlks → b ≠ β → b ≠ μ → Plain (g.totalBlks - sys)
      (applyAll g ((tableOps ram).take k) f b).data := by
    intro b hb1 hb2 hb3
    rw [hother b hb2 hb3]
    exact hu.plain b hb1 hb2 hb3
  unfold tableOps at hplain ⊢
  rw [hi1, hi2] at hplain ⊢
  rcases k with _ | _ | _ | _ | k
  · omega
  · -- the bmt is erased, the bbt still there
    refine ⟨⟨hplain, ?_, ?_⟩, Or.inr ?_⟩
    · show ∀ beyond, (BmtTable.decode ((FlashOp.erase μ).apply g f β).data).accepted _ _ = _
      rw [hβ1]
      exact hu.no_bmt
    · show (BbtTable.decode ((FlashOp.erase μ).apply g f μ).data).accepted = _
      rw [apply_erase h3]
      exact hpe1
    · show ∀ beyond, (BmtTable.decode ((FlashOp.erase μ).apply g f μ).data).accepted _ _ = _
      rw [apply_erase h3]
      exact hpe2
  · -- both are erased
    have e1 : (applyAll g [.erase μ, .erase β] f μ).data = fun _ => 0xff := by
      simp only [applyAll_cons, applyAll_nil]
      rw [hμ1, apply_erase h3]
    have e2 : (applyAll g [.erase μ, .erase β] f β).data = fun _ => 0xff := by
      simp only [applyAll_cons, applyAll_nil]
      rw [apply_erase hβ]
    refine ⟨⟨hplain, ?_, ?_⟩, Or.inl ?_⟩
    · show ∀ beyond, (BmtTable.decode (applyAll g [.erase μ, .erase β] f β).data).accepted _ _ = _
      rw [e2]
      exact hpe2
    · show (BbtTable.decode (applyAll g [.erase μ, .erase β] f μ).data).accepted = _
      rw [e1]
      exact hpe1
    · show (BbtTable.decode (applyAll g [.erase μ, .erase β] f β).data).accepted = _
      rw [e2]
      exact hpe1
  · -- the bmt is written, the bbt not yet
    have e1 : (applyAll g [.erase μ, .erase β, .writeBmt μ ram.bmt] f μ).data =
        programData (fun _ => 0xff) sizeofBmt ram.bmt.byte := by
      simp only [applyAll_cons, applyAll_nil]
      rw [apply_writeBmt h3, hμ1, apply_erase h3]
    have e2 : (applyAll g [.erase μ, .erase β, .writeBmt μ ram.bmt] f β).data =
        fun _ => 0xff := by
      simp only [applyAll_cons, applyAll_nil]
      rw [hβ2, apply_erase hβ]
    refine ⟨⟨hplain, ?_, ?_⟩, Or.inl ?_⟩
    · show ∀ beyond, (BmtTable.decode (applyAll g [.erase μ, .erase β, .writeBmt μ ram.bmt]
        f β).data).accepted _ _ = _
      rw [e2]
      exact hpe2
    · show (BbtTable.decode (applyAll g [.erase μ, .erase β, .writeBmt μ ram.bmt]
        f μ).data).accepted = _
      rw [e1]
      by_contra hacc
      have hbmt := hr.bmt_accepted
      rw [← decode_programmed_bmt ram.bmt] at hbmt
      exact not_both_accepted (by simpa using hacc) hbmt
    · show (BbtTable.decode (applyAll g [.erase μ, .erase β, .writeBmt μ ram.bmt]
        f β).data).accepted = _
      rw [e2]
      exact hpe1
  · omega

theorem Unforged.tables {ram : Ram} (hp : Placed g sys β μ f) (hr : Sealed g sys β μ ram)
    (hu : Unforged g sys β μ f) : Unforged g sys β μ (applyAll g (tableOps ram) f) := by
  have h2 := hp.index_lt
  have h3 := hp.bmt_lt
  have hi1 := hr.bmt_index
  have hi2 := hr.bbt_index
  have hbmt : (applyAll g (tableOps ram) f ram.bmtIndex).data = _ :=
    bmt_data_tableOps (by omega) (by omega)
  have hbbt : (applyAll g (tableOps ram) f ram.bbtIndex).data = _ :=
    bbt_data_tableOps (by omega) (by omega)
  rw [hi1] at hbmt
  rw [hi2] at hbbt
  refine ⟨fun b hb1 hb2 hb3 => ?_, fun beyond => ?_, ?_⟩
  · have hsame : applyAll g (tableOps ram) f b = f b := by
      refine applyAll_of_ne fun op hop => ?_
      simp only [tableOps, List.mem_cons, List.not_mem_nil, or_false, hi1, hi2] at hop
      rcases hop with rfl | rfl | rfl | rfl
      · exact hb3
      · exact hb2
      · exact hb3
      · exact hb2
    rw [hsame]
    exact hu.plain b hb1 hb2 hb3
  · rw [hbbt]
    by_contra hacc
    have hown := hr.bbt_accepted
    rw [← decode_programmed_bbt ram.bbt] at hown
    exact not_both_accepted hown (by simpa using hacc)
  · rw [hbmt]
    by_contra hacc
    have hown := hr.bmt_accepted
    rw [← decode_programmed_bmt ram.bmt] at hown
    exact not_both_accepted (by simpa using hacc) hown

end Airoha.Bmt
