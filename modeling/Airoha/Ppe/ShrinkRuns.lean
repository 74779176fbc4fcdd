/-
Airoha.Ppe.ShrinkRuns — what a bound flow can rely on.

A history is a list of actions, the newest first, run from any table, clock
and FOE states. A search that returns a slot to a flow that is bound makes a
promise, kept as long as the flow stays bound (`live`). `Holds` asks that
every slot promised has the content it was promised for, after every action.

A slot changes its content in two places only: a search without a match takes
the first slot that is free, and `UpdateShrinkTable` writes the slot it is
given. Neither looks at the bitmap. `promises_kept_iff_guarded` says that nothing
else can break a promise.
-/
import Airoha.Ppe.ShrinkFind

namespace Airoha.Ppe

/-! ## Histories -/

/-- The table, the clock and the FOE states. -/
structure Sys where
  shrink : Shrink
  jiffies : BitVec 64
  foe : Nat → FoeState

/-- What can happen. `fails` says which reads of a FOE entry fail in the call. -/
inductive Act where
  | find (select : Select) (field : ShrinkField) (fails : Nat → Bool)
  | dump (fails : Nat → Bool)
  | update (index : Int) (addr : Vector (BitVec 8) 6)
  | tick (d : BitVec 64)
  | foeState (idx : Nat) (st : FoeState)

/-- The effect of an action. -/
def Sys.step (maxEntries : Nat) (s : Sys) : Act → Sys
  | .find select field fails =>
      { s with
        shrink := (findAndUpdateShrinkTable maxEntries (foeGetEntry fails s.foe) s.jiffies select
          field s.shrink).1 }
  | .dump fails =>
      { s with
        shrink := ppeDumpShrinkTable maxEntries (foeGetEntry fails s.foe) s.jiffies s.shrink }
  | .update index addr => { s with shrink := updateShrinkTable index addr s.shrink }
  | .tick d => { s with jiffies := s.jiffies + d }
  | .foeState idx st => { s with foe := Function.update s.foe idx st }

/-- The state after the actions, the newest first. -/
def after (maxEntries : Nat) (s : Sys) : List Act → Sys
  | [] => s
  | a :: acts => (after maxEntries s acts).step maxEntries a

/-- A search for `field` returned `slot`. -/
structure Promise where
  select : Select
  field : ShrinkField
  slot : Nat
deriving DecidableEq

/-- The promise that an action makes, when the flow it is made to is bound. -/
def Sys.makes (maxEntries : Nat) (s : Sys) : Act → List Promise
  | .find select field fails =>
      match (findAndUpdateShrinkTable maxEntries (foeGetEntry fails s.foe) s.jiffies select field
          s.shrink).2 with
      | some slot =>
          if 0 < field.foeIdx ∧ field.foeIdx < maxEntries ∧ s.foe field.foeIdx = .bind then
            [{ select := select, field := field, slot := slot }]
          else []
      | none => []
  | _ => []

/-- The promises whose flows have stayed bound since. -/
def live (maxEntries : Nat) (s : Sys) : List Act → List Promise
  | [] => []
  | a :: acts =>
      (after maxEntries s acts).makes maxEntries a ++
        (live maxEntries s acts).filter fun p =>
          (after maxEntries s (a :: acts)).foe p.field.foeIdx = .bind

/-- The slot has the content it was promised for. -/
def Promise.Kept (p : Promise) (s : Sys) : Prop :=
  (s.shrink.shnkTbl p.select p.slot).content = p.field.content p.select

/-- Every promise is kept, after every action of the history. -/
def Holds (maxEntries : Nat) (s : Sys) : List Act → Prop
  | [] => True
  | a :: acts => Holds maxEntries s acts ∧
      ∀ p ∈ live maxEntries s (a :: acts), p.Kept (after maxEntries s (a :: acts))

/-- What one action has to keep to, for a slot that was promised. A search for a content that no
slot has must not find this slot as the first that is invalid or has timed out, unless for the
content promised; `UpdateShrinkTable` must not write it, unless with that content. -/
def Spares (s : Sys) (p : Promise) : Act → Prop
  | .find select field _ =>
      p.select = select → Holding (field.content p.select) (s.shrink.shnkTbl p.select) = ∅ →
        IsLeast (Free s.jiffies (s.shrink.shnkTbl p.select)) p.slot →
          p.field.content p.select = field.content p.select
  | .update index addr => p.select = .smac → index = p.slot → p.field.smac = addr
  | _ => True

/-- Every action keeps to it, for all promises to flows that are still bound. -/
def Guarded (maxEntries : Nat) (s : Sys) : List Act → Prop
  | [] => True
  | a :: acts => Guarded maxEntries s acts ∧
      ∀ p ∈ live maxEntries s acts, (after maxEntries s (a :: acts)).foe p.field.foeIdx = .bind →
        Spares (after maxEntries s acts) p a

/-! ## One action -/

section Step

variable {maxEntries : Nat} {s : Sys}

/-- A slot that is returned to a bound flow has what it asked for. -/
theorem makes_kept {a : Act} {p : Promise} (h : p ∈ s.makes maxEntries a) :
    p.slot < updmemNum ∧ p.Kept (s.step maxEntries a) := by
  cases a with
  | find select field fails =>
    rw [Sys.makes] at h
    split at h
    · rename_i slot hslot
      split at h
      · rw [List.mem_singleton] at h
        subst h
        exact ⟨(foundIn_done maxEntries s.jiffies select field s.shrink).index_lt hslot,
          find_content_self hslot⟩
      · cases h
    · cases h
  | dump _ => cases h
  | update _ _ => cases h
  | tick _ => cases h
  | foeState _ _ => cases h

theorem reuseShrinkTable_content {foe : Nat → Option FoeState} {jiffies : BitVec 64} {t : Table}
    (select : Select) (k : Nat) :
    (reuseShrinkTable maxEntries foe jiffies t select k).content = (t select k).content := by
  unfold reuseShrinkTable
  split
  · exact reuse_content
  · rfl

/-- A search keeps a promise exactly when it spares the slot. -/
theorem find_kept_iff {p : Promise} (hlt : p.slot < updmemNum) (hkept : p.Kept s)
    (select : Select) (field : ShrinkField) (fails : Nat → Bool) :
    p.Kept (s.step maxEntries (.find select field fails)) ↔
      Spares s p (.find select field fails) := by
  have hdone := foundIn_done maxEntries s.jiffies select field s.shrink
  have hindex : (findAndUpdateShrinkTable maxEntries (foeGetEntry fails s.foe) s.jiffies select
    field s.shrink).2 = _ := hdone.index
  rcases Classical.em (p.select = select ∧ (findAndUpdateShrinkTable maxEntries
      (foeGetEntry fails s.foe) s.jiffies select field s.shrink).2 = some p.slot) with h | h
  · obtain ⟨rfl, hret⟩ := h
    have hnow : ((s.step maxEntries (.find p.select field fails)).shrink.shnkTbl p.select
        p.slot).content = field.content p.select := find_content_self hret
    unfold Promise.Kept Spares
    rw [hnow]
    constructor
    · intro heq _ _ _
      exact heq.symm
    · intro hspare
      cases hm : firstMatch (field.content p.select) (s.shrink.shnkTbl p.select) with
      | some m =>
        rw [hm, hret] at hindex
        have hslot : p.slot = m := Option.some.inj hindex
        have hmatch := (firstMatch_eq_some_iff.mp hm).2.1
        rw [Matches, Bool.and_eq_true, beq_iff_eq, ← hslot, hkept] at hmatch
        exact hmatch.2.symm
      | none =>
        rw [hm, hret] at hindex
        exact (hspare rfl (firstMatch_iff_empty.mp hm) (victim_iff_isLeast.mp hindex.symm)).symm
  · constructor
    · intro _ hsel hnone hleast
      subst hsel
      rw [← firstMatch_iff_empty] at hnone
      rw [← victim_iff_isLeast] at hleast
      rw [hnone, hleast] at hindex
      exact absurd ⟨rfl, hindex⟩ h
    · intro _
      exact (find_content hlt h).trans hkept

theorem update_kept_iff {p : Promise} (hlt : p.slot < updmemNum) (hkept : p.Kept s)
    (index : Int) (addr : Vector (BitVec 8) 6) :
    p.Kept (s.step maxEntries (.update index addr)) ↔ Spares s p (.update index addr) := by
  obtain ⟨select, field, slot⟩ := p
  dsimp only at hlt
  unfold Promise.Kept at hkept
  unfold Promise.Kept Spares Sys.step updateShrinkTable
  dsimp only at hkept ⊢
  rcases Classical.em (select = .smac ∧ index = slot) with h | h
  · obtain ⟨rfl, rfl⟩ := h
    have hin : (0 : Int) ≤ slot ∧ (slot : Int) < updmemNum := by omega
    rw [if_pos hin]
    dsimp only
    rw [Function.update_self, Int.toNat_natCast, Function.update_self]
    constructor
    · intro heq _ _
      exact heq.symm
    · intro heq
      exact (heq rfl rfl).symm
  · constructor
    · intro _ hsel hidx
      exact absurd ⟨hsel, hidx⟩ h
    · intro _
      split
      · rename_i hin
        rcases eq_or_ne select .smac with rfl | hne
        · have hne : slot ≠ index.toNat := by
            intro heq
            exact h ⟨rfl, by omega⟩
          dsimp only
          rw [Function.update_self, Function.update_of_ne hne]
          exact hkept
        · dsimp only
          rw [Function.update_of_ne hne]
          exact hkept
      · exact hkept

/-- An action keeps a promise exactly when it spares the slot. -/
theorem kept_iff_spares {p : Promise} (hlt : p.slot < updmemNum) (hkept : p.Kept s) (a : Act) :
    p.Kept (s.step maxEntries a) ↔ Spares s p a := by
  cases a with
  | find select field fails => exact find_kept_iff hlt hkept select field fails
  | update index addr => exact update_kept_iff hlt hkept index addr
  | dump fails =>
    have heq : p.Kept (s.step maxEntries (.dump fails)) :=
      (reuseShrinkTable_content p.select p.slot).trans hkept
    exact ⟨fun _ => trivial, fun _ => heq⟩
  | tick d => exact ⟨fun _ => trivial, fun _ => hkept⟩
  | foeState idx st => exact ⟨fun _ => trivial, fun _ => hkept⟩

end Step

/-! ## The result -/

section Runs

variable {maxEntries : Nat} {s : Sys}

theorem mem_live_cons {a : Act} {acts : List Act} {p : Promise} :
    p ∈ live maxEntries s (a :: acts) ↔ p ∈ (after maxEntries s acts).makes maxEntries a ∨
      p ∈ live maxEntries s acts ∧
        (after maxEntries s (a :: acts)).foe p.field.foeIdx = .bind := by
  rw [live, List.mem_append, List.mem_filter, decide_eq_true_eq]

theorem live_slot_lt {p : Promise} : ∀ acts, p ∈ live maxEntries s acts → p.slot < updmemNum := by
  intro acts
  induction acts with
  | nil =>
    intro h
    cases h
  | cons a acts ih =>
    intro h
    rcases mem_live_cons.mp h with h | ⟨h, -⟩
    · exact (makes_kept h).1
    · exact ih h

theorem holds_live {acts : List Act} (h : Holds maxEntries s acts) :
    ∀ p ∈ live maxEntries s acts, p.Kept (after maxEntries s acts) := by
  cases acts with
  | nil =>
    intro p hp
    cases hp
  | cons a acts => exact h.2

/-- The slots of bound flows keep their contents exactly in the guarded histories. -/
theorem promises_kept_iff_guarded (maxEntries : Nat) (s : Sys) (acts : List Act) :
    Holds maxEntries s acts ↔ Guarded maxEntries s acts := by
  induction acts with
  | nil => exact Iff.rfl
  | cons a acts ih =>
    rw [Holds, Guarded, ← ih]
    constructor
    · rintro ⟨hholds, hkept⟩
      refine ⟨hholds, fun p hp hbind => ?_⟩
      have hone := hkept p (mem_live_cons.mpr (Or.inr ⟨hp, hbind⟩))
      exact (kept_iff_spares (live_slot_lt acts hp) (holds_live hholds p hp) a).mp hone
    · rintro ⟨hholds, hspares⟩
      refine ⟨hholds, fun p hp => ?_⟩
      rcases mem_live_cons.mp hp with hnew | ⟨hold, hbind⟩
      · exact (makes_kept hnew).2
      · exact (kept_iff_spares (live_slot_lt acts hold) (holds_live hholds p hold) a).mpr
          (hspares p hold hbind)

end Runs

/-! ## A slot that is looked up once -/

/-- No slot in use, every flow bound. -/
def allBound : Sys where
  shrink :=
    { shnkTbl := fun select _ =>
        { valid := false, pinned := false, timestamp := 0#64, bitmap := fun _ => 0#64,
          content := match select with
            | .smac => Vector.replicate 6 0#8
            | .ipv6 => Vector.replicate 8 0#32
            | .ipv4 => Vector.replicate 2 0#32 }
      updmem := { data := 0#32, mem := fun _ _ _ => 0#32 } }
  jiffies := 0#64
  foe _ := .bind

/-- A search for the MAC address `b:b:b:b:b:b` for flow `idx`. -/
def macField (b : BitVec 8) (idx : Nat) : ShrinkField where
  smac := Vector.replicate 6 b
  egIpv4 := Vector.replicate 2 0#32
  egIpv6 := Vector.replicate 8 0#32
  foeIdx := idx

/-- Flow 1 asks for one address; 3001 ticks later flow 2 asks for another. -/
def twoAddresses : List Act :=
  [.find .smac (macField 2#8 2) fun _ => false, .tick 3001#64,
    .find .smac (macField 1#8 1) fun _ => false]

/-- Slot 0, promised to flow 1, is written for flow 2. -/
theorem not_holds_twoAddresses : ¬ Holds 16384 allBound twoAddresses := by
  intro h
  have hmem : { select := .smac, field := macField 1#8 1, slot := 0 } ∈
      live 16384 allBound twoAddresses := by
    decide
  have hkept := holds_live h _ hmem
  revert hkept
  unfold Promise.Kept
  decide

end Airoha.Ppe
