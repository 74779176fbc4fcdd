/-
Airoha.Bmt.Crash — power losses at any flash step.

`Sys` is the chip with the driver on or off, `Sys.next` one event: a boot, a
`remap_block`, or one of them cut short after any number of flash
steps. `Before.Keeps` is what the users of the chip expect of a reboot.

A cut between the first OOB mark of a remap and the erase of the bmt leaves
intact tables and OOB bytes that already name another block. The next boot
takes the tables and does not repair the OOB bytes, and they stay wrong until
the same block is remapped again (`Sys.unsettled` collects these blocks). A
second cut, with the tables gone, makes `init` believe them:
`not_keeps_twoCuts`. `survives_of_guarded` says that this is the only way to
lose a mapping: as long as no remap of another block is torn while a block
is unsettled, every reboot finds the mapping it left.
-/
import Airoha.Bmt.Cut

namespace Airoha.Bmt

open Airoha.Lib

/-! ## Events -/

/-- What was mapped where when the power was lost, and the block a
`remap_block` was moving, with its new place. -/
structure Before where
  mapping : Nat → Nat
  remapping : Option (Nat × Nat)

/-- After a reboot every block is where it was, but for the one that was being
remapped, which may be in its new place. -/
def Before.Keeps (before : Before) (mapping : Nat → Nat) : Prop :=
  ∀ b, mapping b = before.mapping b ∨ ∃ new, before.remapping = some (b, new) ∧ mapping b = new

inductive Sys where
  | off (f : Flash) (before : Option Before)
  | on (s : State)

inductive Event where
  /-- `init` runs to its end -/
  | boot (beyond : Nat → UInt8)
  /-- the power is lost after `done` flash steps of `init` -/
  | bootCut (beyond : Nat → UInt8) (done : Nat)
  /-- `remap_block(block, get_mapping_block(block), copy_len)` -/
  | remap (block copyLen : Nat)
  /-- the power is lost after `done` flash steps of that call -/
  | remapCut (block copyLen done : Nat)
  /-- the power is lost between two calls -/
  | powerOff

/-- One event, or `none` when it cannot happen or the driver runs into a `Fault`. -/
def Sys.next (g : Geometry) : Sys → Event → Option Sys
  | .off f _, .boot beyond => (boot g f beyond).toOption.map fun m => .on m.state
  | .off f before, .bootCut beyond done =>
      (boot g f beyond).toOption.map fun m => .off (cutFlash m done) before
  | .on s, .remap block copyLen =>
      if block < s.ram.systemBlks then
        (s.remap g block copyLen).toOption.map fun m => .on m.state
      else none
  | .on s, .remapCut block copyLen done =>
      if block < s.ram.systemBlks then
        (s.remap g block copyLen).toOption.map fun m => .off (cutFlash m done)
          (some ⟨getMappingBlock s.ram, some (block, newBlock g s.flash s.ram)⟩)
      else none
  | .on s, .powerOff => some (.off s.flash (some ⟨getMappingBlock s.ram, none⟩))
  | _, _ => none

def Sys.run (g : Geometry) : Sys → List Event → Option Sys
  | sys, [] => some sys
  | sys, e :: es => (sys.next g e).bind fun sys' => sys'.run g es

/-! ## Where a remap is cut -/

inductive Phase where
  /-- the OOB bytes still name the old place -/
  | early
  /-- the OOB bytes name another place, the tables are untouched -/
  | marked
  /-- at least one table is missing -/
  | torn
  /-- all steps are done -/
  | complete
  deriving DecidableEq, Repr

/-- The number of steps before the marks, and of the marks. -/
def prepareSteps (copyLen : Nat) : Nat := if copyLen = 0 then 1 else 2

def markSteps (block mapped : Nat) : Nat := if mapped = block then 2 else 3

/-- The phase of `remap_block` after `done` flash steps. The bad mark of `block`
itself is no phase of its own: `reconstruct_from_oob` does not look at it. -/
def cutPhase (block mapped copyLen done : Nat) : Phase :=
  if done ≤ prepareSteps copyLen then .early
  else if mapped = block ∧ done < prepareSteps copyLen + markSteps block mapped then .early
  else if done ≤ prepareSteps copyLen + markSteps block mapped then .marked
  else if done < prepareSteps copyLen + markSteps block mapped + 4 then .torn
  else .complete

theorem cutPhase_spec (block mapped copyLen k : Nat) :
    match cutPhase block mapped copyLen k with
    | .early => (k - prepareSteps copyLen = 0 ∨ (mapped = block ∧ k - prepareSteps copyLen < 2)) ∧
        k ≤ prepareSteps copyLen + markSteps block mapped
    | .marked =>
        ¬ (k - prepareSteps copyLen = 0 ∨ (mapped = block ∧ k - prepareSteps copyLen < 2)) ∧
        k ≤ prepareSteps copyLen + markSteps block mapped
    | .torn => prepareSteps copyLen + markSteps block mapped < k ∧
        k < prepareSteps copyLen + markSteps block mapped + 4
    | .complete => prepareSteps copyLen + markSteps block mapped + 4 ≤ k := by
  unfold cutPhase
  by_cases hm : mapped = block
  · have hms : markSteps block mapped = 2 := if_pos hm
    rw [hms]
    simp only [hm, true_and]
    split_ifs <;> simp only <;> omega
  · have hms : markSteps block mapped = 3 := if_neg hm
    rw [hms]
    simp only [hm, false_and, if_false, or_false]
    split_ifs <;> simp only <;> omega

/-- The blocks whose OOB bytes do not name the place the tables give them. -/
def Sys.unsettled : Sys → Event → List Nat → List Nat
  | .on _, .remap block _, bs => bs.filter (fun b => b != block)
  | .on s, .remapCut block copyLen done, bs =>
      match cutPhase block (getMappingBlock s.ram block) copyLen done with
      | .early => bs
      | .marked => block :: bs
      | .torn => []
      | .complete => bs.filter (fun b => b != block)
  | _, _, bs => bs

/-- The raw bad blocks below `system_blks` that are nowhere in the table, `block` left out. -/
def unmappedBad (s : State) (block : Nat) : List Nat :=
  (List.range s.ram.systemBlks).filter fun b =>
    isBadRaw s.flash b && b != block && getMappingBlock s.ram b == b

/-- A remap needs a pool block, and while the tables are missing no block but
the one being remapped may be unsettled. The rebuilt bbt has to hold the
blocks it is rebuilt from. -/
def Sys.guard (g : Geometry) : Sys → Event → List Nat → Bool
  | .on s, .remap _ _, _ => (findAvailableBlock g s.flash s.ram false).isSome
  | .on s, .remapCut block copyLen done, bs =>
      (findAvailableBlock g s.flash s.ram false).isSome &&
        (cutPhase block (getMappingBlock s.ram block) copyLen done != .torn ||
          (bs.all (fun b => b == block) &&
            decide ((unmappedBad s block).length ≤ maxRawBadBlockSize)))
  | _, _, _ => true

/-- Every event of the run meets `Sys.guard`. -/
def Sys.guarded (g : Geometry) : Sys → List Nat → List Event → Bool
  | _, _, [] => true
  | sys, bs, e :: es =>
      sys.guard g e bs &&
        match sys.next g e with
        | some sys' => sys'.guarded g (sys.unsettled e bs) es
        | none => true

/-- A chip as it comes from the factory: bad blocks, but no OOB mappings and
nothing that reads as one of the driver's tables. -/
structure Fresh (g : Geometry) (f : Flash) : Prop where
  noMappings : NoMappings g f
  size : g.totalBlks - poolStart g f ≤ maxBmtSize
  plain : ∀ b, b < g.totalBlks → Plain (g.totalBlks - poolStart g f) (f b).data

/-- After every run of `es` that ends with the power lost, `init` returns and
keeps the mapping. -/
def Survives (g : Geometry) (f : Flash) (es : List Event) : Prop :=
  ∀ f' before, Sys.run g (.off f none) es = some (.off f' (some before)) →
    ∀ beyond, ∃ m, boot g f' beyond = .ok m ∧ before.Keeps (getMappingBlock m.ram)

/-! ## Invariants -/

variable {g : Geometry} {sys β μ : Nat} {f f' : Flash} {s : State} {block new : Nat}
  {bs : List Nat} {M : Nat → Nat}

/-- A driver that runs, with the blocks `bs` unsettled. -/
structure OnInv (g : Geometry) (sys β μ : Nat) (bs : List Nat) (s : State) : Prop
    extends Running g sys β μ s where
  unforged : Unforged g sys β μ s.flash
  agrees : ∀ b, b ∉ bs → target g s.flash sys b = getMappingBlock s.ram b

/-- The raw bad blocks that stay in place. -/
def staying (g : Geometry) (sys : Nat) (f : Flash) : List Nat :=
  (List.range sys).filter fun b => isBadRaw f b && target g f sys b == b

theorem SameOob.staying (hs : SameOob f f') : staying g sys f' = staying g sys f := by
  unfold Bmt.staying
  congr 1
  funext b
  rw [hs.isBadRaw, hs.target]

/-- A chip without power from which the next boot reads the mapping `M`. -/
inductive OffInv (g : Geometry) (sys β μ : Nat) (M : Nat → Nat) (bs : List Nat) (f : Flash) :
    Prop where
  | kept (ram : Ram) (hon : OnInv g sys β μ bs ⟨f, ram⟩) (hM : ∀ b, getMappingBlock ram b = M b)
  | lost (hp : Placed g sys β μ f) (hu : Unforged g sys β μ f) (hl : Lost g sys β μ f)
      (hbs : bs = []) (hM : ∀ b, target g f sys b = M b)
      (hroom : (staying g sys f).length ≤ maxRawBadBlockSize)

/-! ## Booting -/

theorem Based.congr {r r' : Ram} (h : Based g ⟨f, r⟩) (h1 : r'.systemBlks = r.systemBlks)
    (h2 : r'.bmtIndex = r.bmtIndex) (h3 : r'.bbtIndex = r.bbtIndex) (h4 : r'.bmt = r.bmt) :
    Based g ⟨f, r'⟩ := by
  cases r
  cases r'
  simp only at h1 h2 h3 h4
  subst h1 h2 h3 h4
  exact ⟨h.bmt_pool, h.bbt_pool, h.index_ne, h.bmt_free, h.bbt_free,
    fun e he => ⟨(h.entry e he).below, (h.entry e he).pool, (h.entry e he).back,
      (h.entry e he).ne_bmt, (h.entry e he).ne_bbt⟩⟩

/-- The parse path gives the driver the globals it had. -/
theorem OnInv.parsed {ram : Ram} (h : OnInv g sys β μ bs ⟨f, ram⟩) (beyond : Nat → UInt8) :
    OnInv g sys β μ bs ⟨f, parsedRam g f beyond β μ⟩ ∧
      ∀ b, getMappingBlock (parsedRam g f beyond β μ) b = getMappingBlock ram b := by
  have hbmt : (parsedRam g f beyond β μ).bmt = ram.bmt := h.intact.bmt
  have hbbt : (parsedRam g f beyond β μ).bbt = ram.bbt := h.intact.bbt
  have hsys : (parsedRam g f beyond β μ).systemBlks = sys := by
    show (setupRam g f beyond).systemBlks = sys
    rw [setupRam_systemBlks]
    exact h.placed.start
  have hblks : (parsedRam g f beyond β μ).bmtBlks = g.totalBlks - sys := by
    show (setupRam g f beyond).bmtBlks = g.totalBlks - sys
    rw [setupRam_bmtBlks]
    exact congrArg (g.totalBlks - ·) h.placed.start
  have hmap : ∀ b, getMappingBlock (parsedRam g f beyond β μ) b = getMappingBlock ram b := by
    intro b
    have h1 : ram.systemBlks = sys := h.sealed.sys_eq
    rw [getMappingBlock_eq, getMappingBlock_eq, hbmt, hsys, h1]
  have hbased : Based g ⟨f, parsedRam g f beyond β μ⟩ :=
    h.based.congr (hsys.trans h.sealed.sys_eq.symm) h.sealed.bmt_index.symm
      h.sealed.bbt_index.symm hbmt
  refine ⟨⟨⟨hbased, h.placed, ⟨hsys, hblks, rfl, rfl, ?_, ?_⟩, ?_⟩, h.unforged, ?_⟩, hmap⟩
  · show (parsedRam g f beyond β μ).bmt.accepted _ _ = true
    rw [hbmt, hblks]
    exact h.intact.bmt_accepted _
  · show (parsedRam g f beyond β μ).bbt.accepted = true
    rw [hbbt]
    exact h.intact.bbt_accepted
  · show Intact g sys β μ f (parsedRam g f beyond β μ).bmt (parsedRam g f beyond β μ).bbt
    rw [hbmt, hbbt]
    exact h.intact
  · intro b hb
    show target g f sys b = getMappingBlock (parsedRam g f beyond β μ) b
    rw [hmap]
    exact h.agrees b hb

/-- From a chip in `OffInv` the driver boots, with the mapping `M`; a boot that
is cut short leaves the chip in `OffInv`. -/
theorem OffInv.boot (h : OffInv g sys β μ M bs f) (beyond : Nat → UInt8) :
    ∃ m, Bmt.boot g f beyond = .ok m ∧ OnInv g sys β μ bs m.state ∧
      (∀ b, getMappingBlock m.ram b = M b) ∧ ∀ k, OffInv g sys β μ M bs (cutFlash m k) := by
  cases h with
  | kept ram hon hM =>
    obtain ⟨hon', hmap⟩ := hon.parsed beyond
    refine ⟨_, boot_of_intact hon.placed.housed hon.placed.unhidden hon.intact beyond, hon',
      fun b => (hmap b).trans (hM b), fun k => ?_⟩
    have hflash : cutFlash (State.machine ⟨f, parsedRam g f beyond β μ⟩) k = f := rfl
    rw [hflash]
    exact .kept ram hon hM
  | lost hp hu hl hbs hM hroom =>
    obtain ⟨ram, hun, hidx⟩ := unparsed_of_lost hp hu hl beyond
    obtain ⟨hc1, hc2, hc3, -⟩ := hun.consts
    rw [hp.start] at hc1 hc3
    obtain ⟨m, hm, hr⟩ := rebuilt_of_placed hp hc1 hidx hc2 hroom
    obtain ⟨hrun, hmap⟩ := hr.running hp hc1 hc3 hidx
    have hseal := hr.sealed hc1 hc3
    have hflash := hr.did.flash
    have hoob : SameOob f m.flash := hr.sameOob hp.bbt_free hp.bmt_free
    have hon : OnInv g sys β μ bs m.state := by
      refine ⟨hrun, ?_, fun b _ => ?_⟩
      · show Unforged g sys β μ m.flash
        rw [hflash]
        exact hu.tables hp hseal
      · show target g m.flash sys b = getMappingBlock m.ram b
        rw [hoob.target, hmap]
    refine ⟨m, ?_, hon, fun b => (hmap b).trans (hM b), fun k => ?_⟩
    · rw [boot_eq_of_unparsed hun]
      exact hm
    · rw [cutFlash_eq hr.did]
      show OffInv g sys β μ M bs (applyAll g ((tableOps m.ram).take k) f)
      by_cases hk : k = 0
      · subst hk
        exact .lost hp hu hl hbs hM hroom
      · by_cases hk4 : k < 4
        · obtain ⟨hu', hl'⟩ := cut_tables hp hseal hu (Nat.pos_of_ne_zero hk) hk4
          have hsame : SameOob f (applyAll g ((tableOps m.ram).take k) f) :=
            sameOob_applyAll fun op hop => sparesOob_tableOps (by rw [hseal.bmt_index]; exact
              hp.bmt_free) (by rw [hseal.bbt_index]; exact hp.bbt_free) op
                (List.mem_of_mem_take hop)
          refine .lost (hp.congr hsame) hu' hl' hbs (fun b => ?_) ?_
          · rw [hsame.target]
            exact hM b
          · rw [hsame.staying]
            exact hroom
        · rw [List.take_of_length_le (by show 4 ≤ k; omega)]
          refine .kept m.ram ?_ fun b => (hmap b).trans (hM b)
          have hfl : applyAll g (tableOps m.ram) f = m.flash := hflash.symm
          rw [hfl]
          exact hon

/-! ## Remapping -/

/-- The tables stay readable while the OOB bytes are marked. -/
theorem OnInv.marked {bs' : List Nat} (h : OnInv g sys β μ bs s)
    (hplan : Plan g s block new (getMappingBlock s.ram block))
    (hv : Marking sys new block (getMappingBlock s.ram block) s.flash f')
    (hβ : (f' β).data = (s.flash β).data) (hμ : (f' μ).data = (s.flash μ).data)
    (hu : Unforged g sys β μ f')
    (hagree : ∀ b, b ∉ bs' → target g f' sys b = getMappingBlock s.ram b) :
    OnInv g sys β μ bs' ⟨f', s.ram⟩ := by
  have hp := h.placed.marking h.sealed hplan hv
  have hs := h.based
  refine ⟨⟨⟨hs.bmt_pool, hs.bbt_pool, hs.index_ne, ?_, ?_, fun e he => ?_⟩, hp, h.sealed, ?_⟩,
    hu, hagree⟩
  · show free f' s.ram.bmtIndex = true
    rw [h.sealed.bmt_index]
    exact hp.bmt_free
  · show free f' s.ram.bbtIndex = true
    rw [h.sealed.bbt_index]
    exact hp.bbt_free
  · have hold := hs.entry e he
    refine ⟨hold.below, hold.pool, ?_, hold.ne_bmt, hold.ne_bbt⟩
    show mappedBlock f' e.toBlk.toNat = e.fromBlk
    rw [hv.back _ (hs.free_ne_target he hplan.new_free)]
    exact hold.back
  · have hi := h.intact
    refine ⟨?_, ?_, hi.bmt_accepted, hi.bbt_accepted⟩
    · show BmtTable.decode (f' μ).data = s.ram.bmt
      rw [hμ]
      exact hi.bmt
    · show BbtTable.decode (f' β).data = s.ram.bbt
      rw [hβ]
      exact hi.bbt

theorem length_prepareOps (new mapped copyLen : Nat) :
    (prepareOps new mapped copyLen).length = prepareSteps copyLen := by
  unfold prepareOps prepareSteps
  by_cases h : copyLen = 0 <;> simp [h]

/-- The flash after `k` steps of a remap, section by section. -/
theorem remapOps_take (ram : Ram) (new block mapped copyLen k : Nat) (f : Flash) :
    applyAll g ((remapOps ram new block mapped copyLen).take k) f =
      applyAll g ((tableOps ram).take (k - prepareSteps copyLen - markSteps block mapped))
        (applyAll g ((markOps ram.systemBlks new block mapped).take (k - prepareSteps copyLen))
          (applyAll g ((prepareOps new mapped copyLen).take k) f)) := by
  have hlen : (markOps ram.systemBlks new block mapped).length = markSteps block mapped :=
    length_markOps
  unfold remapOps
  rw [List.take_append, List.take_append, applyAll_append, applyAll_append, List.length_append,
    length_prepareOps, hlen, Nat.sub_sub]

section Remap

variable {copyLen : Nat} {m' : Machine} (h : OnInv g sys β μ bs s)
  (hplan : Plan g s block new (getMappingBlock s.ram block))

include h hplan

/-- Facts about a flash in the middle of the marks. -/
theorem OnInv.middle (copyLen k j : Nat) :
    SameOob s.flash (applyAll g ((prepareOps new (getMappingBlock s.ram block) copyLen).take k)
        s.flash) ∧
      Unforged g sys β μ (applyAll g ((markOps sys new block
          (getMappingBlock s.ram block)).take j)
        (applyAll g ((prepareOps new (getMappingBlock s.ram block) copyLen).take k) s.flash)) ∧
      ∀ b, b ≠ new → (applyAll g ((markOps sys new block
          (getMappingBlock s.ram block)).take j)
        (applyAll g ((prepareOps new (getMappingBlock s.ram block) copyLen).take k)
          s.flash) b).data = (s.flash b).data := by
  refine ⟨?_, ?_, fun b hb => ?_⟩
  · exact sameOob_applyAll fun op hop =>
      sparesOob_prepareOps hplan.new_free _ copyLen op (List.mem_of_mem_take hop)
  · exact (h.unforged.prepare h.placed h.sealed hplan copyLen k).congr fun b => data_markOps j b
  · rw [data_markOps, prepare_of_ne k hb]

/-- A cut before the tables are touched. -/
theorem OnInv.cut_marks (copyLen k j : Nat) :
    OnInv g sys β μ
      (if j = 0 ∨ (getMappingBlock s.ram block = block ∧ j < 2) then bs else block :: bs)
      ⟨applyAll g ((markOps sys new block (getMappingBlock s.ram block)).take j)
        (applyAll g ((prepareOps new (getMappingBlock s.ram block) copyLen).take k) s.flash),
        s.ram⟩ := by
  obtain ⟨hsame, hu, hdata⟩ := h.middle hplan copyLen k j
  obtain ⟨hne1, hne2⟩ := hplan.new_ne h.sealed
  have hv := marking_take hplan h.sealed hsame j
  refine h.marked hplan hv (hdata β hne1.symm) (hdata μ hne2.symm) hu fun b hb => ?_
  by_cases hc : j = 0 ∨ (getMappingBlock s.ram block = block ∧ j < 2)
  · rw [if_pos hc] at hb
    rcases hc with rfl | ⟨hm, hj⟩
    · rw [List.take_zero, applyAll_nil, hsame.target]
      exact h.agrees b hb
    · rw [target_first_mark hplan h.sealed hsame hm hj]
      exact h.agrees b hb
  · rw [if_neg hc, List.mem_cons, not_or] at hb
    rw [hv.target_of_ne h.sealed hplan hb.1]
    exact h.agrees b hb.2

/-- The flash when the tables are about to be written. -/
theorem OnInv.all_marked (copyLen : Nat) {fm : Flash}
    (hfm : fm = applyAll g (markOps sys new block (getMappingBlock s.ram block))
      (applyAll g (prepareOps new (getMappingBlock s.ram block) copyLen) s.flash)) :
    MarksView new block (getMappingBlock s.ram block) s.flash fm ∧ Placed g sys β μ fm ∧
      Unforged g sys β μ fm := by
  obtain ⟨hsame, hu, -⟩ := h.middle hplan copyLen
    (prepareOps new (getMappingBlock s.ram block) copyLen).length
    (markOps sys new block (getMappingBlock s.ram block)).length
  rw [List.take_length] at hsame
  rw [List.take_length, List.take_length, ← hfm] at hu
  have hsys := h.sealed.sys_eq
  have hblock := hplan.block_lt
  have hv := hplan.marksView hsame
  rw [hsys, ← hfm] at hv
  exact ⟨hv, h.placed.marking h.sealed hplan (hv.marking (by omega)), hu⟩

variable (hdone : RemapDone g s block new (getMappingBlock s.ram block) copyLen m')

include hdone

theorem OnInv.remapDone : OnInv g sys β μ (bs.filter fun b => b != block) m'.state := by
  have hsys := h.sealed.sys_eq
  obtain ⟨-, hp, hu⟩ := h.all_marked hplan copyLen rfl
  have hflash := hdone.did.flash
  unfold remapOps at hflash
  rw [applyAll_append, applyAll_append, hdone.consts.2.2.1, hsys] at hflash
  refine ⟨hdone.running h.toRunning hplan, ?_, fun b hb => ?_⟩
  · show Unforged g sys β μ m'.flash
    rw [hflash]
    exact hu.tables hp (hdone.sealed h.sealed)
  · show target g m'.flash sys b = getMappingBlock m'.ram b
    rw [hdone.marks.target h.placed.housed h.sealed hplan, hdone.mapping hplan]
    by_cases hbb : b = block
    · rw [if_pos hbb, if_pos hbb]
    · rw [if_neg hbb, if_neg hbb]
      refine h.agrees b fun hmem => hb (List.mem_filter.mpr ⟨hmem, ?_⟩)
      exact bne_iff_ne.mpr hbb

/-- A cut between the table steps, when no other block is unsettled. -/
theorem OnInv.cut_torn (hbs : ∀ b ∈ bs, b = block)
    (hroom : (unmappedBad s block).length ≤ maxRawBadBlockSize) {j : Nat} (hj : 0 < j)
    (hj4 : j < 4) :
    OffInv g sys β μ (getMappingBlock m'.ram) []
      (applyAll g ((tableOps m'.ram).take j)
        (applyAll g (markOps sys new block (getMappingBlock s.ram block))
          (applyAll g (prepareOps new (getMappingBlock s.ram block) copyLen) s.flash))) := by
  obtain ⟨hv, hp, hu⟩ := h.all_marked hplan copyLen rfl
  have hseal := hdone.sealed h.sealed
  have hnew := hplan.new_pool
  have hblock := hplan.block_lt
  have hsys := h.sealed.sys_eq
  generalize applyAll g (markOps sys new block (getMappingBlock s.ram block))
    (applyAll g (prepareOps new (getMappingBlock s.ram block) copyLen) s.flash) = fm at *
  obtain ⟨hu', hl'⟩ := cut_tables hp hseal hu hj hj4
  have hsame : SameOob fm (applyAll g ((tableOps m'.ram).take j) fm) :=
    sameOob_applyAll fun op hop => sparesOob_tableOps (by rw [hseal.bmt_index]; exact hp.bmt_free)
      (by rw [hseal.bbt_index]; exact hp.bbt_free) op (List.mem_of_mem_take hop)
  have hmap : ∀ b, target g fm sys b = getMappingBlock m'.ram b := by
    intro b
    rw [hv.target h.placed.housed h.sealed hplan, hdone.mapping hplan]
    by_cases hbb : b = block
    · rw [if_pos hbb, if_pos hbb]
    · rw [if_neg hbb, if_neg hbb]
      exact h.agrees b fun hmem => hbb (hbs b hmem)
  refine .lost (hp.congr hsame) hu' hl' rfl (fun b => ?_) ?_
  · rw [hsame.target]
    exact hmap b
  · rw [hsame.staying]
    refine Nat.le_trans ?_ hroom
    unfold staying unmappedBad
    rw [hsys, ← List.countP_eq_length_filter, ← List.countP_eq_length_filter]
    refine List.countP_mono_left fun b hb hst => ?_
    have hlt : b < sys := List.mem_range.mp hb
    simp only [Bool.and_eq_true, Bool.or_eq_true, beq_iff_eq, bne_iff_ne, hv.raw, hmap,
      hdone.mapping hplan] at hst ⊢
    by_cases hbb : b = block
    · rw [if_pos hbb] at hst
      omega
    · rw [if_neg hbb] at hst
      exact ⟨⟨hst.1.resolve_right hbb, hbb⟩, hst.2⟩

/-- What a cut remap leaves: the old mapping, or the new one. -/
theorem OnInv.remapCut (k : Nat)
    (hguard : cutPhase block (getMappingBlock s.ram block) copyLen k = .torn →
      (∀ b ∈ bs, b = block) ∧ (unmappedBad s block).length ≤ maxRawBadBlockSize) :
    ∃ M, OffInv g sys β μ M
        (match cutPhase block (getMappingBlock s.ram block) copyLen k with
          | .early => bs
          | .marked => block :: bs
          | .torn => []
          | .complete => bs.filter fun b => b != block) (cutFlash m' k) ∧
      ∀ b, M b = getMappingBlock s.ram b ∨ (b = block ∧ M b = new) := by
  have hsys := h.sealed.sys_eq
  have hcut := cutFlash_eq hdone.did k
  have hnewmap : ∀ b, getMappingBlock m'.ram b = getMappingBlock s.ram b ∨
      (b = block ∧ getMappingBlock m'.ram b = new) := by
    intro b
    rw [hdone.mapping hplan]
    by_cases hbb : b = block
    · rw [if_pos hbb]
      exact Or.inr ⟨hbb, rfl⟩
    · rw [if_neg hbb]
      exact Or.inl rfl
  rw [remapOps_take, hdone.consts.2.2.1, hsys] at hcut
  have hmarks := h.cut_marks hplan copyLen k (k - prepareSteps copyLen)
  have hlen : (markOps sys new block (getMappingBlock s.ram block)).length =
      markSteps block (getMappingBlock s.ram block) := length_markOps
  -- before the table steps the RAM of the driver is on the flash
  have hbefore : k ≤ prepareSteps copyLen + markSteps block (getMappingBlock s.ram block) →
      (tableOps m'.ram).take (k - prepareSteps copyLen -
        markSteps block (getMappingBlock s.ram block)) = [] := by
    intro hk
    rw [Nat.sub_sub, Nat.sub_eq_zero_of_le hk, List.take_zero]
  have hk := cutPhase_spec block (getMappingBlock s.ram block) copyLen k
  cases hc : cutPhase block (getMappingBlock s.ram block) copyLen k with
  | early =>
    rw [hc] at hk
    rw [if_pos hk.1] at hmarks
    rw [hcut, hbefore hk.2]
    exact ⟨_, .kept s.ram hmarks fun b => rfl, fun b => Or.inl rfl⟩
  | marked =>
    rw [hc] at hk
    rw [if_neg hk.1] at hmarks
    rw [hcut, hbefore hk.2]
    exact ⟨_, .kept s.ram hmarks fun b => rfl, fun b => Or.inl rfl⟩
  | torn =>
    rw [hc] at hk
    obtain ⟨hk1, hk2⟩ := hk
    obtain ⟨hbs, hroom⟩ := hguard hc
    have hall1 : (prepareOps new (getMappingBlock s.ram block) copyLen).length ≤ k := by
      rw [length_prepareOps]
      omega
    have hall2 : (markOps sys new block (getMappingBlock s.ram block)).length ≤
        k - prepareSteps copyLen := by
      rw [hlen]
      omega
    rw [hcut, List.take_of_length_le hall1, List.take_of_length_le hall2]
    exact ⟨_, h.cut_torn hplan hdone hbs hroom (by omega) (by omega), hnewmap⟩
  | complete =>
    rw [hc] at hk
    have hle : (remapOps m'.ram new block (getMappingBlock s.ram block) copyLen).length ≤ k := by
      unfold remapOps
      rw [List.length_append, List.length_append, length_prepareOps, hdone.consts.2.2.1, hsys, hlen]
      exact hk
    have hall : cutFlash m' k = m'.flash := by
      rw [cutFlash_eq hdone.did, List.take_of_length_le hle]
      exact hdone.did.flash.symm
    rw [hall]
    exact ⟨_, .kept m'.ram (h.remapDone hplan hdone) fun b => rfl, hnewmap⟩

end Remap

/-! ## Runs -/

/-- A fresh chip that boots at all is one the driver can rebuild. -/
theorem Fresh.offInv {beyond : Nat → UInt8} {m : Machine} (hf : Fresh g f)
    (h : boot g f beyond = .ok m) :
    ∃ β μ, OffInv g (poolStart g f) β μ (fun b => b) [] f := by
  have hlt := poolStart_lt g f
  have htable : parseBbt g f (poolStart g f) = none := by
    cases hi : parseBbt g f (poolStart g f) with
    | none => rfl
    | some i =>
      obtain ⟨-, hi2, -, hi4⟩ := parseBbt_spec (by omega) hi
      rw [(hf.plain i hi2).1] at hi4
      cases hi4
  have hun : Unparsed g f (setupRam g f beyond) (setupRam g f beyond) :=
    Or.inl ⟨by rw [setupRam_systemBlks]; exact htable, rfl⟩
  rw [boot_eq_of_unparsed hun] at h
  obtain ⟨hc1, hc2, -⟩ := hun.consts
  obtain ⟨β, μ, hr⟩ := rebuilt_of_ok hc2 h
  have hp := hr.placed hf.noMappings hc1 hf.size rfl hc2
  have hβ : β < g.totalBlks := Nat.lt_trans hp.index_lt hp.bmt_lt
  refine ⟨β, μ, .lost hp ⟨fun b hb _ _ => hf.plain b hb, (hf.plain β hβ).2,
    (hf.plain μ hp.bmt_lt).1⟩ (Or.inl (hf.plain β hβ).1) rfl
    (target_of_noMappings hf.noMappings (by omega)) ?_⟩
  refine Nat.le_trans ?_ (hr.rawBad_le hf.noMappings hc1)
  unfold staying
  rw [← List.countP_eq_length_filter, ← List.countP_eq_length_filter]
  refine List.countP_mono_left fun b _ hst => ?_
  simp only [Bool.and_eq_true] at hst
  exact hst.1

/-- The invariant of runs that start on the flash `f₀`. -/
def Good (g : Geometry) (f₀ : Flash) : Sys → List Nat → Prop
  | .off f none, bs =>
      bs = [] ∧ (f = f₀ ∨ ∃ β μ, OffInv g (poolStart g f₀) β μ (fun b => b) [] f)
  | .off f (some before), bs =>
      ∃ β μ M, OffInv g (poolStart g f₀) β μ M bs f ∧ before.Keeps M
  | .on s, bs => ∃ β μ, OnInv g (poolStart g f₀) β μ bs s

theorem Good.offInv {f₀ : Flash} {before : Option Before} {beyond : Nat → UInt8} {m : Machine}
    (hf : Fresh g f₀) (h : Good g f₀ (.off f before) bs) (hb : boot g f beyond = .ok m) :
    ∃ β μ M, OffInv g (poolStart g f₀) β μ M bs f ∧ ∀ b, before = some b → b.Keeps M := by
  cases before with
  | none =>
    obtain ⟨rfl, hc⟩ := h
    rcases hc with rfl | ⟨β, μ, hoff⟩
    · obtain ⟨β, μ, hoff⟩ := hf.offInv hb
      exact ⟨β, μ, _, hoff, fun b hb => by cases hb⟩
    · exact ⟨β, μ, _, hoff, fun b hb => by cases hb⟩
  | some before =>
    obtain ⟨β, μ, M, hoff, hk⟩ := h
    refine ⟨β, μ, M, hoff, fun b hb => ?_⟩
    cases hb
    exact hk

/-- One event that meets the guard keeps the invariant. -/
theorem Good.next {f₀ : Flash} {sys sys' : Sys} {e : Event} (hf : Fresh g f₀)
    (h : Good g f₀ sys bs) (hguard : sys.guard g e bs = true) (hnext : sys.next g e = some sys') :
    Good g f₀ sys' (sys.unsettled e bs) := by
  cases sys with
  | off f before =>
    cases e with
    | boot beyond =>
      obtain ⟨m, hm, rfl⟩ := exists_of_toOption_map hnext
      obtain ⟨β, μ, M, hoff, -⟩ := h.offInv hf hm
      obtain ⟨m', hm', hon, -⟩ := hoff.boot beyond
      rw [hm] at hm'
      cases hm'
      exact ⟨β, μ, hon⟩
    | bootCut beyond done =>
      obtain ⟨m, hm, rfl⟩ := exists_of_toOption_map hnext
      obtain ⟨β, μ, M, hoff, hk⟩ := h.offInv hf hm
      obtain ⟨m', hm', -, -, hcut⟩ := hoff.boot beyond
      rw [hm] at hm'
      cases hm'
      cases before with
      | some before => exact ⟨β, μ, M, hcut done, hk before rfl⟩
      | none =>
        obtain ⟨rfl, hc⟩ := h
        rcases hc with rfl | ⟨β', μ', hoff'⟩
        · obtain ⟨β', μ', hoff'⟩ := hf.offInv hm
          obtain ⟨m', hm', -, -, hcut'⟩ := hoff'.boot beyond
          rw [hm] at hm'
          cases hm'
          exact ⟨rfl, Or.inr ⟨β', μ', hcut' done⟩⟩
        · obtain ⟨m', hm', -, -, hcut'⟩ := hoff'.boot beyond
          rw [hm] at hm'
          cases hm'
          exact ⟨rfl, Or.inr ⟨β', μ', hcut' done⟩⟩
    | remap block copyLen => cases hnext
    | remapCut block copyLen done => cases hnext
    | powerOff => cases hnext
  | on s =>
    obtain ⟨β, μ, hon⟩ := h
    cases e with
    | boot beyond => cases hnext
    | bootCut beyond done => cases hnext
    | remap block copyLen =>
      simp only [Sys.next] at hnext
      split at hnext
      · rename_i hblock
        obtain ⟨m', hm', rfl⟩ := exists_of_toOption_map hnext
        have hplan := hon.based.plan hblock hguard
        exact ⟨β, μ, hon.remapDone hplan (remapDone hon.based hblock hguard hm')⟩
      · cases hnext
    | remapCut block copyLen done =>
      simp only [Sys.next] at hnext
      split at hnext
      · rename_i hblock
        obtain ⟨m', hm', rfl⟩ := exists_of_toOption_map hnext
        simp only [Sys.guard, Bool.and_eq_true, Bool.or_eq_true, bne_iff_ne, List.all_eq_true,
          beq_iff_eq, decide_eq_true_eq] at hguard
        obtain ⟨hnew, hg⟩ := hguard
        have hplan := hon.based.plan hblock hnew
        obtain ⟨M, hoff, hM⟩ := hon.remapCut hplan (remapDone hon.based hblock hnew hm') done
          fun hc => hg.resolve_left fun hne => hne hc
        refine ⟨β, μ, M, hoff, fun b => ?_⟩
        rcases hM b with hb | ⟨rfl, hb⟩
        · exact Or.inl hb
        · exact Or.inr ⟨_, rfl, hb⟩
      · cases hnext
    | powerOff =>
      cases hnext
      exact ⟨β, μ, getMappingBlock s.ram, .kept s.ram hon fun b => rfl, fun b => Or.inl rfl⟩

theorem Good.run {f₀ : Flash} {es : List Event} {sys sys' : Sys} (h : Good g f₀ sys bs)
    (hf : Fresh g f₀) (hguard : sys.guarded g bs es = true)
    (hrun : sys.run g es = some sys') : ∃ bs', Good g f₀ sys' bs' := by
  induction es generalizing sys bs with
  | nil =>
    cases hrun
    exact ⟨bs, h⟩
  | cons e es ih =>
    simp only [Sys.guarded, Bool.and_eq_true] at hguard
    obtain ⟨h1, h2⟩ := hguard
    simp only [Sys.run] at hrun
    cases hnext : sys.next g e with
    | none =>
      rw [hnext] at hrun
      cases hrun
    | some mid =>
      rw [hnext] at hrun h2
      exact ih (Good.next hf h h1 hnext) h2 hrun

/-- On a fresh chip every run whose events meet the guard keeps the mapping:
whenever the power is lost, the next `init` returns and finds every block
where it was, but for the one being remapped, which may be in its new place. -/
theorem survives_of_guarded (hf : Fresh g f) (es : List Event)
    (hg : Sys.guarded g (.off f none) [] es = true) : Survives g f es := by
  intro f' before hrun beyond
  have hstart : Good g f (.off f none) [] := ⟨rfl, Or.inl rfl⟩
  obtain ⟨bs', hgood⟩ := hstart.run hf hg hrun
  obtain ⟨β, μ, M, hoff, hk⟩ := hgood
  obtain ⟨m, hm, -, hM, -⟩ := hoff.boot beyond
  refine ⟨m, hm, fun b => ?_⟩
  rw [hM]
  exact hk b

/-- A cut in the boot asks for nothing, so it may end any run that meets the guard. -/
theorem guarded_bootCut (es : List Event) (beyond : Nat → UInt8) (done : Nat) {sys : Sys}
    (h : sys.guarded g bs es = true) : sys.guarded g bs (es ++ [.bootCut beyond done]) = true := by
  induction es generalizing sys bs with
  | nil =>
    have hguard : sys.guard g (.bootCut beyond done) bs = true := by cases sys <;> rfl
    simp only [List.nil_append, Sys.guarded, hguard, Bool.true_and]
    split <;> rfl
  | cons e es ih =>
    simp only [List.cons_append, Sys.guarded, Bool.and_eq_true] at h ⊢
    obtain ⟨h1, h2⟩ := h
    refine ⟨h1, ?_⟩
    cases hnext : sys.next g e with
    | none => rfl
    | some sys' =>
      rw [hnext] at h2
      exact ih h2

theorem fresh_erasedFlash : Fresh chip50 erasedFlash where
  noMappings _ _ := rfl
  size := (Nat.sub_le _ _).trans (by decide)
  plain _ _ := plain_erased _

/-- Two remaps, the second one torn, and the power lost again in the boot that follows. -/
theorem survives_erasedFlash : Survives chip50 erasedFlash
    [.boot zeroMemory, .remap 0 0, .remapCut 1 0 4, .bootCut zeroMemory 2] :=
  survives_of_guarded fresh_erasedFlash _
    (guarded_bootCut [.boot zeroMemory, .remap 0 0, .remapCut 1 0 4] zeroMemory 2
      (by decide +kernel))

/-- Remapping block 0 is cut after its marks, remapping block 1 after the first erase. -/
def twoCuts : List Event :=
  [.boot zeroMemory, .remapCut 0 0 3, .boot zeroMemory, .remapCut 1 0 4]

/-- Where block 0 was when the power was lost, what was being remapped then, and where the reboot
has block 0. -/
def Sys.zeroPlaces : Sys → Option (Nat × Option (Nat × Nat) × Nat)
  | .off f (some before) => (boot chip50 f zeroMemory).toOption.map fun m =>
      (before.mapping 0, before.remapping, getMappingBlock m.ram 0)
  | _ => none

/-- The second reboot moves block 0, which was at home and not being remapped. -/
theorem not_keeps_twoCuts : ∃ f before m, NoMappings chip50 erasedFlash ∧
    Sys.run chip50 (.off erasedFlash none) twoCuts = some (.off f (some before)) ∧
    boot chip50 f zeroMemory = .ok m ∧ ¬ before.Keeps (getMappingBlock m.ram) := by
  have hrun : (Sys.run chip50 (.off erasedFlash none) twoCuts).bind Sys.zeroPlaces =
      some (0, some (1, 48), 47) := by
    decide +kernel
  obtain ⟨sys, hsys, hzero⟩ := Option.bind_eq_some_iff.mp hrun
  cases sys with
  | on s => cases hzero
  | off f before =>
    cases before with
    | none => cases hzero
    | some before =>
      obtain ⟨m, hm, hplaces⟩ := exists_of_toOption_map hzero
      simp only [Prod.mk.injEq] at hplaces
      obtain ⟨h1, h2, h3⟩ := hplaces
      refine ⟨f, before, m, fun b _ => rfl, hsys, hm, fun hkeep => ?_⟩
      rcases hkeep 0 with h | ⟨new, h, -⟩
      · omega
      · rw [h2] at h
        cases h

end Airoha.Bmt
