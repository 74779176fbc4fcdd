/-
Airoha.Ppe.Loopback — MAC swapping of the loopback.

Translates `hwnat_loopback_mac_swap_enable`, `hwnat_loopback_mac_swap_disable`
and the `airoha_hwnat_loopback_write` of `arht_loopback.c`, over the table of
`Airoha.Ppe.L2b`. Enabling inserts four pairs and undoes the insertions it made
when one finds no room; disabling removes the pairs whose index is remembered.
The write handler is taken from where it has its command and value.

What comes before that in the handler, the copy from user space and the parsing
of the text, is left out, and so are the messages.
-/
import Airoha.Ppe.L2b

namespace Airoha.Ppe.L2b

open Airoha.Lib

/-! ## The functions -/

/-- The four types that are inserted. -/
inductive SwapType where
  | ipv4
  | ipv6
  | pppoeIpv4
  | pppoeIpv6
deriving DecidableEq, Repr

def SwapType.etype : SwapType → BitVec 16
  | .ipv4 => 0x0800#16
  | .ipv6 => 0x86dd#16
  | .pppoeIpv4 => 0x0021#16
  | .pppoeIpv6 => 0x0057#16

def SwapType.isPppoe : SwapType → BitVec 32
  | .ipv4 | .ipv6 => 0#32
  | .pppoeIpv4 | .pppoeIpv6 => 1#32

/-- `L2B_ETYPE_INVALID_INDEX` -/
def l2bEtypeInvalidIndex : Int := -1

/-- The statics of `arht_loopback.c`, with `l2b_ipv4_etype_index` and its like by their type, and
the registers. -/
structure Loopback where
  sys : Sys
  etypeIndex : SwapType → Int
  macSwap : Bool
  enable : Bool

/-- One insertion, and its index remembered unless the pair existed. -/
def Loopback.setType (is7581 : Bool) (s : Loopback) (t : SwapType) : Loopback × SetResult :=
  let r := ppeSetL2bEtherTypeAuto is7581 t.etype t.isPppoe s.sys
  let etypeIndex :=
    if r.2.ret < 0 then s.etypeIndex
    else if r.2.existed.getD false then s.etypeIndex
    else Function.update s.etypeIndex t r.2.ret
  ({ s with sys := r.1, etypeIndex := etypeIndex }, r.2)

/-- A pair removed, and its index forgotten. -/
def Loopback.clearType (is7581 : Bool) (s : Loopback) (t : SwapType) : Loopback :=
  { s with
    sys := (ppeClearL2bEtherTypeAuto is7581 t.etype t.isPppoe s.sys).1
    etypeIndex := Function.update s.etypeIndex t l2bEtypeInvalidIndex }

/-- One rung of the `err_` ladder. -/
def Loopback.undoType (is7581 : Bool) (s : Loopback) (t : SwapType) (r : SetResult) : Loopback :=
  if r.existed.getD false then s else s.clearType is7581 t

/-- `hwnat_loopback_mac_swap_enable` -/
def hwnatLoopbackMacSwapEnable (is7581 : Bool) (s : Loopback) : Loopback × Int :=
  let (s, ipv4) := s.setType is7581 .ipv4
  if ipv4.ret < 0 then (s, ipv4.ret)
  else
    let (s, ipv6) := s.setType is7581 .ipv6
    if ipv6.ret < 0 then (s.undoType is7581 .ipv4 ipv4, ipv6.ret)
    else
      let (s, pppoeIpv4) := s.setType is7581 .pppoeIpv4
      if pppoeIpv4.ret < 0 then
        ((s.undoType is7581 .ipv6 ipv6).undoType is7581 .ipv4 ipv4, pppoeIpv4.ret)
      else
        let (s, pppoeIpv6) := s.setType is7581 .pppoeIpv6
        if pppoeIpv6.ret < 0 then
          (((s.undoType is7581 .pppoeIpv4 pppoeIpv4).undoType is7581 .ipv6 ipv6).undoType is7581
            .ipv4 ipv4, pppoeIpv6.ret)
        else ({ s with macSwap := true }, 0)

/-- A pair removed if this module inserted it. -/
def Loopback.dropType (is7581 : Bool) (s : Loopback) (t : SwapType) : Loopback :=
  if s.etypeIndex t ≠ l2bEtypeInvalidIndex then s.clearType is7581 t else s

/-- `hwnat_loopback_mac_swap_disable` -/
def hwnatLoopbackMacSwapDisable (is7581 : Bool) (s : Loopback) : Loopback :=
  let s := s.dropType is7581 .ipv4
  let s := s.dropType is7581 .ipv6
  let s := s.dropType is7581 .pppoeIpv4
  let s := s.dropType is7581 .pppoeIpv6
  { s with macSwap := false }

/-- A command of the loopback file, with its value. -/
inductive LoopbackCmd where
  | enable (val : Int)
  | macSwap (val : Int)
  | other

/-- `airoha_hwnat_loopback_write`, of `count` characters. -/
def airohaHwnatLoopbackWrite (is7581 : Bool) (count : Nat) (cmd : LoopbackCmd) (s : Loopback) :
    Loopback × Int :=
  match cmd with
  | .enable val => ({ s with enable := val ≠ 0 }, count)
  | .macSwap val =>
      if val ≠ 0 ∧ s.macSwap = false then
        let r := hwnatLoopbackMacSwapEnable is7581 s
        if r.2 ≠ 0 then r else (r.1, count)
      else if val = 0 ∧ s.macSwap = true then (hwnatLoopbackMacSwapDisable is7581 s, count)
      else (s, count)
  | .other => (s, -einval)

/-! ## One insertion, one removal -/

/-- The pair of a type. -/
def SwapType.pair (t : SwapType) : Pair := pairOf t.etype t.isPppoe

theorem SwapType.pair_inj {t u : SwapType} : t.pair = u.pair ↔ t = u := by
  cases t <;> cases u <;> decide

section Steps

variable {is7581 : Bool} {s : Loopback}

/-- All an insertion can do. -/
theorem setType_cases (h : Unique 16 s.sys.slot) (t : SwapType) :
    (t.pair ∈ s.sys.pairs ∧ ∃ r, s.setType is7581 t = (s, r) ∧ 0 ≤ r.ret ∧ r.existed = some true) ∨
    (t.pair ∉ s.sys.pairs ∧ ∃ sys r, s.setType is7581 t =
        ({ s with sys := sys, etypeIndex := Function.update s.etypeIndex t r.ret }, r) ∧
      0 ≤ r.ret ∧ r.existed = some false ∧ Unique 16 sys.slot ∧
      sys.pairs = insert t.pair s.sys.pairs ∧ sys.freeSlots.card + 1 = s.sys.freeSlots.card) ∨
    (t.pair ∉ s.sys.pairs ∧ s.sys.freeSlots.card = 0 ∧
      ∃ r, s.setType is7581 t = (s, r) ∧ r.ret < 0) := by
  have hstep := @step_pairs s.sys is7581 h (.set t.etype t.isPppoe)
  unfold Loopback.setType
  rcases set_cases is7581 t.etype t.isPppoe s.sys with ⟨i, hi, hslot, heq⟩ | ⟨i, hi, hno,
    hfree, heq⟩ |
    ⟨hno, hfull, heq⟩
  · refine Or.inl ⟨⟨i, hi, hslot⟩, { ret := i, existed := some true }, ?_, by simp, rfl⟩
    rw [heq]
    simp
  · rw [Sys.step, heq, track] at hstep
    simp only [Int.natCast_nonneg, if_true] at hstep
    refine Or.inr (Or.inl ⟨hno, _, { ret := i, existed := some false }, ?_, by simp, rfl, hstep.2,
      hstep.1, card_freeSlots_enable is7581 hi hfree t.etype t.isPppoe⟩)
    rw [heq]
    have hneg : ¬ (i : Int) < 0 := by omega
    simp [hneg]
  · refine Or.inr (Or.inr ⟨hno, ?_, { ret := -28, existed := none }, ?_, by simp⟩)
    · rw [freeSlots_of_full hfull, Finset.card_empty]
    · rw [heq]
      simp

theorem clearType_pairs (h : Unique 16 s.sys.slot) (t : SwapType) :
    (s.clearType is7581 t).sys.pairs = s.sys.pairs \ {t.pair} ∧
      Unique 16 (s.clearType is7581 t).sys.slot :=
  @step_pairs s.sys is7581 h (.clear t.etype t.isPppoe)

end Steps

/-! ## Enabling -/

/-- The insertions of a list of types, undone from the one that fails. -/
def enableFrom (is7581 : Bool) : List SwapType → Loopback → Loopback × Int
  | [], s => ({ s with macSwap := true }, 0)
  | t :: ts, s =>
      let r := s.setType is7581 t
      if r.2.ret < 0 then (r.1, r.2.ret)
      else
        let q := enableFrom is7581 ts r.1
        if q.2 < 0 then (q.1.undoType is7581 t r.2, q.2) else q

/-- The four of them. -/
def swapTypes : List SwapType := [.ipv4, .ipv6, .pppoeIpv4, .pppoeIpv6]

theorem mem_swapTypes (t : SwapType) : t ∈ swapTypes := by
  cases t <;> decide

instance : Finite SwapType :=
  Set.finite_univ_iff.mp ((List.finite_toSet swapTypes).subset fun t _ => mem_swapTypes t)

/-- The ladder undoes what the insertions before it did. -/
theorem macSwapEnable_eq (is7581 : Bool) (s : Loopback) :
    hwnatLoopbackMacSwapEnable is7581 s = enableFrom is7581 swapTypes s := by
  unfold hwnatLoopbackMacSwapEnable swapTypes
  simp only [enableFrom]
  by_cases h1 : (s.setType is7581 .ipv4).2.ret < 0
  · simp [h1]
  · simp only [h1, if_false]
    by_cases h2 : ((s.setType is7581 .ipv4).1.setType is7581 .ipv6).2.ret < 0
    · simp [h2]
    · simp only [h2, if_false]
      by_cases h3 : (((s.setType is7581 .ipv4).1.setType is7581 .ipv6).1.setType is7581
          .pppoeIpv4).2.ret < 0
      · simp [h3]
      · simp only [h3, if_false]
        by_cases h4 : ((((s.setType is7581 .ipv4).1.setType is7581 .ipv6).1.setType is7581
            .pppoeIpv4).1.setType is7581 .pppoeIpv6).2.ret < 0
        · simp [h4]
        · simp [h4]

/-- The types of a list whose pairs are not in the table. -/
def Sys.missing (s : Sys) (ts : List SwapType) : Set SwapType := {t | t ∈ ts ∧ t.pair ∉ s.pairs}

section Missing

variable {s s' : Sys} {t : SwapType} {ts : List SwapType}

theorem missing_cons_of_mem (h : t.pair ∈ s.pairs) : s.missing (t :: ts) = s.missing ts := by
  ext u
  simp only [Sys.missing, Set.mem_ofPred_eq, List.mem_cons]
  constructor
  · rintro ⟨rfl | hu, hno⟩
    · exact absurd h hno
    · exact ⟨hu, hno⟩
  · rintro ⟨hu, hno⟩
    exact ⟨Or.inr hu, hno⟩

/-- A pair that is inserted is one fewer to insert. -/
theorem ncard_missing_insert (hts : t ∉ ts) (h : t.pair ∉ s.pairs)
    (hpairs : s'.pairs = insert t.pair s.pairs) :
    (s.missing (t :: ts)).ncard = (s'.missing ts).ncard + 1 := by
  have heq : s.missing (t :: ts) = insert t (s'.missing ts) := by
    ext u
    simp only [Sys.missing, hpairs, Set.mem_ofPred_eq, List.mem_cons, Set.mem_insert_iff,
      SwapType.pair_inj, not_or]
    constructor
    · rintro ⟨rfl | hu, hno⟩
      · exact Or.inl rfl
      · have hne : u ≠ t := fun hut => hts (hut ▸ hu)
        exact Or.inr ⟨hu, hne, hno⟩
    · rintro (rfl | ⟨hu, -, hno⟩)
      · exact ⟨Or.inl rfl, h⟩
      · exact ⟨Or.inr hu, hno⟩
  rw [heq]
  exact Set.ncard_insert_of_notMem (fun hmem => hts hmem.1) (Set.toFinite _)

theorem ncard_missing_pos (h : t.pair ∉ s.pairs) : 0 < (s.missing (t :: ts)).ncard :=
  (Set.ncard_pos (Set.toFinite _)).mpr ⟨t, List.mem_cons_self, h⟩

end Missing

/-- What enabling a list of types leaves. -/
inductive Enabled (ts : List SwapType) (s : Loopback) : Loopback × Int → Prop
  | done (s' : Loopback) (hswap : s'.macSwap = true) (hunique : Unique 16 s'.sys.slot)
      (hpairs : s'.sys.pairs = s.sys.pairs ∪ {p | ∃ t ∈ ts, p = t.pair})
      (hindex : ∀ t ∈ ts, s'.etypeIndex t = l2bEtypeInvalidIndex ↔ t.pair ∈ s.sys.pairs)
      (hframe : ∀ t ∉ ts, s'.etypeIndex t = s.etypeIndex t)
      (hroom : (s.sys.missing ts).ncard ≤ s.sys.freeSlots.card) : Enabled ts s (s', 0)
  | failed (s' : Loopback) (ret : Int) (hret : ret < 0) (hunique : Unique 16 s'.sys.slot)
      (hpairs : s'.sys.pairs = s.sys.pairs) (hindex : s'.etypeIndex = s.etypeIndex)
      (hswap : s'.macSwap = s.macSwap)
      (hfull : s.sys.freeSlots.card < (s.sys.missing ts).ncard) : Enabled ts s (s', ret)

section Enabling

variable {ts : List SwapType} {t : SwapType} {s : Loopback} {q : Loopback × Int}

/-- A pair that is in the table already is passed over. -/
theorem Enabled.cons_of_mem (hmem : t.pair ∈ s.sys.pairs) (htts : t ∉ ts)
    (hinvalid : s.etypeIndex t = l2bEtypeInvalidIndex) (h : Enabled ts s q) :
    Enabled (t :: ts) s q := by
  have hmissing : s.sys.missing (t :: ts) = s.sys.missing ts := missing_cons_of_mem hmem
  cases h with
  | done _ hswap hu hp hindex hframe hroom =>
    refine .done _ hswap hu ?_ ?_ ?_ (hmissing ▸ hroom)
    · rw [hp]
      ext p
      simp only [Set.mem_union, Set.mem_ofPred_eq, List.mem_cons, exists_eq_or_imp]
      constructor
      · rintro (h | h)
        · exact Or.inl h
        · exact Or.inr (Or.inr h)
      · rintro (h | rfl | h)
        · exact Or.inl h
        · exact Or.inl hmem
        · exact Or.inr h
    · intro u hu
      rcases List.mem_cons.mp hu with rfl | hmem'
      · rw [hframe _ htts]
        exact iff_of_true hinvalid hmem
      · exact hindex u hmem'
    · intro u hu
      exact hframe u fun h => hu (List.mem_cons_of_mem t h)
  | failed _ _ hret hu hp hindex hswap hfull =>
    exact .failed _ _ hret hu hp hindex hswap (hmissing ▸ hfull)

/-- A pair that is inserted stays with the ones behind it, or is taken out again. -/
theorem Enabled.cons_of_insert {is7581 : Bool} {sys : Sys} {ret : Int} (hret : 0 ≤ ret)
    (hno : t.pair ∉ s.sys.pairs) (hpairs : sys.pairs = insert t.pair s.sys.pairs)
    (hcard : sys.freeSlots.card + 1 = s.sys.freeSlots.card) (htts : t ∉ ts)
    (hinvalid : s.etypeIndex t = l2bEtypeInvalidIndex)
    (h : Enabled ts { s with sys := sys, etypeIndex := Function.update s.etypeIndex t ret } q) :
    Enabled (t :: ts) s (if q.2 < 0 then (q.1.clearType is7581 t, q.2) else q) := by
  have hmissing := ncard_missing_insert htts hno hpairs
  cases h with
  | done _ hswap hu hp hindex hframe hroom =>
    simp only [lt_irrefl, if_false]
    refine .done _ hswap hu ?_ ?_ ?_ ?_
    · rw [hp, hpairs]
      ext p
      simp only [Set.mem_union, Set.mem_insert_iff, Set.mem_ofPred_eq, List.mem_cons,
        exists_eq_or_imp]
      tauto
    · intro u hu
      rcases List.mem_cons.mp hu with rfl | hmem
      · rw [hframe _ htts]
        refine iff_of_false ?_ hno
        simp only [Function.update_self, l2bEtypeInvalidIndex]
        omega
      · have hne : u ≠ t := fun h => htts (h ▸ hmem)
        rw [hindex u hmem, hpairs, Set.mem_insert_iff, SwapType.pair_inj]
        simp [hne]
    · intro u hu
      have hne : u ≠ t := fun h => hu (h ▸ List.mem_cons_self)
      rw [hframe u fun h => hu (List.mem_cons_of_mem t h)]
      exact Function.update_of_ne hne _ _
    · dsimp only at hroom
      omega
  | failed s' _ hret' hu hp hindex hswap hfull =>
    simp only [hret', if_true]
    obtain ⟨hclear, huclear⟩ := @clearType_pairs is7581 s' hu t
    refine .failed _ _ hret' huclear ?_ ?_ hswap ?_
    · rw [hclear, hp, hpairs]
      exact Set.insert_sdiff_self_of_notMem hno
    · rw [Loopback.clearType, hindex]
      simp only [Function.update_idem]
      rw [← hinvalid, Function.update_eq_self]
    · dsimp only at hfull
      omega

end Enabling

theorem enableFrom_enabled {is7581 : Bool} : ∀ {ts : List SwapType} {s : Loopback}, ts.Nodup →
    Unique 16 s.sys.slot → (∀ t ∈ ts, s.etypeIndex t = l2bEtypeInvalidIndex) →
    Enabled ts s (enableFrom is7581 ts s) := by
  intro ts
  induction ts with
  | nil =>
    intro s _ hu _
    exact .done _ rfl hu (by simp) (by simp) (fun _ _ => rfl) (by simp [Sys.missing])
  | cons t ts ih =>
    intro s hnodup hu hinvalid
    obtain ⟨htts, hnodup'⟩ := List.nodup_cons.mp hnodup
    rw [enableFrom]
    rcases @setType_cases is7581 s hu t with ⟨hmem, r, hset, hret, hex⟩ |
      ⟨hno, sys, r, hset, hret, hex, husys, hpairs, hcard⟩ | ⟨hno, hcard, r, hset, hret⟩
    · -- the pair is there already
      have hneg : ¬ r.ret < 0 := by omega
      have hrest := ih hnodup' hu fun u hu' => hinvalid u (List.mem_cons_of_mem t hu')
      simp only [hset, hneg, if_false, Loopback.undoType, hex, Option.getD_some, if_true, ite_self]
      exact hrest.cons_of_mem hmem htts (hinvalid t List.mem_cons_self)
    · -- the pair is inserted
      have hneg : ¬ r.ret < 0 := by omega
      have hinvalid' : ∀ u ∈ ts,
          Function.update s.etypeIndex t r.ret u = l2bEtypeInvalidIndex := by
        intro u hu'
        have hne : u ≠ t := fun h => htts (h ▸ hu')
        rw [Function.update_of_ne hne]
        exact hinvalid u (List.mem_cons_of_mem t hu')
      have hrest := @ih { s with sys := sys, etypeIndex := Function.update s.etypeIndex t r.ret }
        hnodup' husys hinvalid'
      simp only [hset, hneg, if_false, Loopback.undoType, hex, Option.getD_some,
        Bool.false_eq_true]
      exact hrest.cons_of_insert hret hno hpairs hcard htts (hinvalid t List.mem_cons_self)
    · simp only [hset, hret, if_true]
      refine .failed _ _ hret hu rfl rfl rfl ?_
      rw [hcard]
      exact ncard_missing_pos hno

/-! ## Disabling -/

/-- The removals of a list of types. -/
def dropAll (is7581 : Bool) (ts : List SwapType) (s : Loopback) : Loopback :=
  ts.foldl (fun s t => s.dropType is7581 t) s

theorem macSwapDisable_eq (is7581 : Bool) (s : Loopback) :
    hwnatLoopbackMacSwapDisable is7581 s =
      { dropAll is7581 swapTypes s with macSwap := false } := rfl

/-- What the removals leave. -/
structure Dropped (ts : List SwapType) (s s' : Loopback) : Prop where
  unique : Unique 16 s'.sys.slot
  pairs : s'.sys.pairs = s.sys.pairs \
    {p | ∃ t ∈ ts, s.etypeIndex t ≠ l2bEtypeInvalidIndex ∧ p = t.pair}
  index : ∀ t, s'.etypeIndex t = if t ∈ ts then l2bEtypeInvalidIndex else s.etypeIndex t

theorem dropType_dropped {is7581 : Bool} {s : Loopback} (hu : Unique 16 s.sys.slot) (t : SwapType) :
    Dropped [t] s (s.dropType is7581 t) := by
  unfold Loopback.dropType
  by_cases hindex : s.etypeIndex t = l2bEtypeInvalidIndex
  · rw [if_neg (not_not.mpr hindex)]
    refine ⟨hu, by simp [hindex], ?_⟩
    intro u
    by_cases hut : u = t
    · simp [hut, hindex]
    · simp [hut]
  · rw [if_pos hindex]
    obtain ⟨hclear, huclear⟩ := @clearType_pairs is7581 s hu t
    refine ⟨huclear, ?_, ?_⟩
    · rw [hclear]
      ext p
      simp [hindex]
    · intro u
      by_cases hut : u = t
      · simp [Loopback.clearType, hut]
      · simp [Loopback.clearType, hut]

theorem dropAll_dropped {is7581 : Bool} : ∀ {ts : List SwapType} {s : Loopback}, ts.Nodup →
    Unique 16 s.sys.slot → Dropped ts s (dropAll is7581 ts s) := by
  intro ts
  induction ts with
  | nil =>
    intro s _ hu
    exact ⟨hu, by simp [dropAll], by simp [dropAll]⟩
  | cons t ts ih =>
    intro s hnodup hu
    obtain ⟨htts, hnodup'⟩ := List.nodup_cons.mp hnodup
    have h1 := @dropType_dropped is7581 s hu t
    have h2 := ih hnodup' h1.unique
    have hrest : dropAll is7581 (t :: ts) s = dropAll is7581 ts (s.dropType is7581 t) := rfl
    rw [hrest]
    refine ⟨h2.unique, ?_, ?_⟩
    · -- an index of the rest is not touched by the first removal
      have hsame : ∀ u ∈ ts, (s.dropType is7581 t).etypeIndex u = s.etypeIndex u := by
        intro u hu'
        have hne : u ∉ [t] := by
          rw [List.mem_singleton]
          exact fun h => htts (h ▸ hu')
        rw [h1.index, if_neg hne]
      rw [h2.pairs, h1.pairs]
      ext p
      have hiff : (∃ u ∈ ts, (s.dropType is7581 t).etypeIndex u ≠ l2bEtypeInvalidIndex ∧
        p = u.pair) ↔
          ∃ u ∈ ts, s.etypeIndex u ≠ l2bEtypeInvalidIndex ∧ p = u.pair := by
        refine exists_congr fun u => and_congr_right fun hu' => ?_
        rw [hsame u hu']
      simp only [Set.mem_sdiff, Set.mem_ofPred_eq, hiff, List.mem_cons, List.not_mem_nil, or_false,
        exists_eq_left, exists_eq_or_imp]
      rw [not_or, and_assoc]
    · intro u
      rw [h2.index, h1.index]
      by_cases hut : u = t
      · simp [hut]
      · simp [hut]

/-! ## Runs -/

/-- The requests, the newest first. -/
def afterRequests (is7581 : Bool) (count : Nat) (s : Loopback) : List LoopbackCmd → Loopback
  | [] => s
  | cmd :: cmds => (airohaHwnatLoopbackWrite is7581 count cmd (afterRequests is7581 count s cmds)).1

/-- The statics as they are initialised, over registers. -/
def freshLoopback (sys : Sys) : Loopback where
  sys := sys
  etypeIndex := fun _ => l2bEtypeInvalidIndex
  macSwap := false
  enable := false

/-- The table while swapping is off, and while it is on: the pairs that were there and the four,
with an index for each that was not there. -/
structure SwapInv (S : Set Pair) (s : Loopback) : Prop where
  unique : Unique 16 s.sys.slot
  off : s.macSwap = false → s.sys.pairs = S ∧ ∀ t, s.etypeIndex t = l2bEtypeInvalidIndex
  on : s.macSwap = true → s.sys.pairs = S ∪ Set.range SwapType.pair ∧
    ∀ t, s.etypeIndex t = l2bEtypeInvalidIndex ↔ t.pair ∈ S

theorem exists_swapTypes :
    {p | ∃ t ∈ swapTypes, p = SwapType.pair t} = Set.range SwapType.pair := by
  ext p
  simp [mem_swapTypes, eq_comm]

section Runs

variable {is7581 : Bool} {S : Set Pair} {s : Loopback}

theorem macSwapEnable_inv (h : SwapInv S s) (hoff : s.macSwap = false) :
    SwapInv S (hwnatLoopbackMacSwapEnable is7581 s).1 ∧
      ((hwnatLoopbackMacSwapEnable is7581 s).2 = 0 ∧
        (hwnatLoopbackMacSwapEnable is7581 s).1.macSwap = true ∧
        (s.sys.missing swapTypes).ncard ≤ s.sys.freeSlots.card ∨
        (hwnatLoopbackMacSwapEnable is7581 s).2 < 0 ∧
        s.sys.freeSlots.card < (s.sys.missing swapTypes).ncard ∧
        (hwnatLoopbackMacSwapEnable is7581 s).1.sys.pairs = s.sys.pairs ∧
        (hwnatLoopbackMacSwapEnable is7581 s).1.etypeIndex = s.etypeIndex ∧
        (hwnatLoopbackMacSwapEnable is7581 s).1.macSwap = s.macSwap) := by
  obtain ⟨hpairs, hindex⟩ := h.off hoff
  have hrun := @enableFrom_enabled is7581 swapTypes s (by decide) h.unique fun t _ => hindex t
  rw [macSwapEnable_eq]
  cases hq : enableFrom is7581 swapTypes s with
  | mk s' ret =>
  rw [hq] at hrun
  cases hrun with
  | done _ hswap hu hp hi hframe hroom =>
    refine ⟨⟨hu, ?_, ?_⟩, Or.inl ⟨rfl, hswap, hroom⟩⟩
    · intro hfalse
      rw [hswap] at hfalse
      cases hfalse
    · intro _
      rw [exists_swapTypes, hpairs] at hp
      rw [← hpairs] at hp ⊢
      exact ⟨hp, fun t => hi t (mem_swapTypes t)⟩
  | failed _ _ hret hu hp hi hswap hfull =>
    refine ⟨⟨hu, ?_, ?_⟩, Or.inr ⟨hret, hfull, hp, hi, hswap⟩⟩
    · intro _
      exact ⟨hp.trans hpairs, fun t => (congrFun hi t).trans (hindex t)⟩
    · intro htrue
      rw [hswap, hoff] at htrue
      cases htrue

theorem macSwapDisable_inv (h : SwapInv S s) (hon : s.macSwap = true) :
    SwapInv S (hwnatLoopbackMacSwapDisable is7581 s) := by
  obtain ⟨hpairs, hindex⟩ := h.on hon
  have hrun := @dropAll_dropped is7581 swapTypes s (by decide) h.unique
  rw [macSwapDisable_eq]
  refine ⟨hrun.unique, ?_, nofun⟩
  intro _
  refine ⟨?_, fun t => (hrun.index t).trans (if_pos (mem_swapTypes t))⟩
  refine hrun.pairs.trans ?_
  rw [hpairs]
  ext p
  simp only [Set.mem_sdiff, Set.mem_union, Set.mem_range, Set.mem_ofPred_eq,
    mem_swapTypes, true_and, ne_eq, hindex]
  constructor
  · rintro ⟨hp | ⟨t, rfl⟩, hnot⟩
    · exact hp
    · by_contra hno
      exact hnot ⟨t, hno, rfl⟩
  · intro hp
    refine ⟨Or.inl hp, ?_⟩
    rintro ⟨t, hno, rfl⟩
    exact hno hp

/-- What is asked of one request: a request for a value brings that value about, and it is refused
only when swapping is to be turned on and the table has too few free slots for the pairs that are
missing; then nothing has changed. -/
structure RequestRight (is7581 : Bool) (count : Nat) (s : Loopback) (cmd : LoopbackCmd) : Prop where
  swapped : ∀ val, cmd = .macSwap val → 0 ≤ (airohaHwnatLoopbackWrite is7581 count cmd s).2 →
    (airohaHwnatLoopbackWrite is7581 count cmd s).1.macSwap = decide (val ≠ 0)
  refused : ∀ val, cmd = .macSwap val → ((airohaHwnatLoopbackWrite is7581 count cmd s).2 < 0 ↔
    val ≠ 0 ∧ s.macSwap = false ∧ s.sys.freeSlots.card < (s.sys.missing swapTypes).ncard)
  failed : (airohaHwnatLoopbackWrite is7581 count cmd s).2 < 0 →
    (airohaHwnatLoopbackWrite is7581 count cmd s).1.sys.pairs = s.sys.pairs ∧
    (airohaHwnatLoopbackWrite is7581 count cmd s).1.etypeIndex = s.etypeIndex ∧
    (airohaHwnatLoopbackWrite is7581 count cmd s).1.macSwap = s.macSwap

/-- A request that is met. -/
theorem RequestRight.of_met {count : Nat} {val : Int} {s' : Loopback}
    (hwrite : airohaHwnatLoopbackWrite is7581 count (.macSwap val) s = (s', (count : Int)))
    (hswap : s'.macSwap = decide (val ≠ 0))
    (hroom : ¬ (val ≠ 0 ∧ s.macSwap = false ∧
      s.sys.freeSlots.card < (s.sys.missing swapTypes).ncard)) :
    RequestRight is7581 count s (.macSwap val) := by
  have hcount : ¬ (count : Int) < 0 := by omega
  refine ⟨?_, ?_, fun hneg => ?_⟩
  · rintro _ ⟨rfl⟩ _
    rw [hwrite]
    exact hswap
  · rintro _ ⟨rfl⟩
    rw [hwrite]
    exact iff_of_false hcount hroom
  · rw [hwrite] at hneg
    exact absurd hneg hcount

theorem write_inv (h : SwapInv S s) (count : Nat) (cmd : LoopbackCmd) :
    SwapInv S (airohaHwnatLoopbackWrite is7581 count cmd s).1 ∧
      RequestRight is7581 count s cmd := by
  cases cmd with
  | enable val =>
    have hcount : ¬ (count : Int) < 0 := by omega
    exact ⟨⟨h.unique, h.off, h.on⟩, ⟨nofun, nofun, fun hneg => absurd hneg hcount⟩⟩
  | other => exact ⟨h, ⟨nofun, nofun, fun _ => ⟨rfl, rfl, rfl⟩⟩⟩
  | macSwap val =>
    by_cases hon : val ≠ 0 ∧ s.macSwap = false
    · obtain ⟨hinv, hret⟩ := @macSwapEnable_inv is7581 S s h hon.2
      rcases hret with ⟨hzero, hswap, hroom⟩ | ⟨hneg, hfull, hsame⟩
      · have hwrite : airohaHwnatLoopbackWrite is7581 count (.macSwap val) s =
            ((hwnatLoopbackMacSwapEnable is7581 s).1, (count : Int)) := by
          rw [airohaHwnatLoopbackWrite, if_pos hon]
          simp [hzero]
        exact ⟨hwrite ▸ hinv, .of_met hwrite (hswap.trans (decide_eq_true hon.1).symm)
          fun hlt => absurd hlt.2.2 (Nat.not_lt.mpr hroom)⟩
      · have hne : (hwnatLoopbackMacSwapEnable is7581 s).2 ≠ 0 := by omega
        have hwrite : airohaHwnatLoopbackWrite is7581 count (.macSwap val) s =
            hwnatLoopbackMacSwapEnable is7581 s := by
          rw [airohaHwnatLoopbackWrite, if_pos hon]
          simp [hne]
        refine ⟨hwrite ▸ hinv, ⟨?_, ?_, fun _ => hwrite ▸ hsame⟩⟩
        · rintro _ ⟨rfl⟩ hpos
          rw [hwrite] at hpos
          exact absurd hneg (not_lt.mpr hpos)
        · rintro _ ⟨rfl⟩
          rw [hwrite]
          exact iff_of_true hneg ⟨hon.1, hon.2, hfull⟩
    · have hrefused : ¬ (val ≠ 0 ∧ s.macSwap = false ∧
          s.sys.freeSlots.card < (s.sys.missing swapTypes).ncard) :=
        fun hlt => hon ⟨hlt.1, hlt.2.1⟩
      by_cases hoff : val = 0 ∧ s.macSwap = true
      · have hwrite : airohaHwnatLoopbackWrite is7581 count (.macSwap val) s =
            (hwnatLoopbackMacSwapDisable is7581 s, (count : Int)) := by
          rw [airohaHwnatLoopbackWrite, if_neg hon, if_pos hoff]
        refine ⟨hwrite ▸ macSwapDisable_inv h hoff.2, .of_met hwrite ?_ hrefused⟩
        rw [hoff.1]
        rfl
      · -- swapping is as it is asked to be
        have hwrite : airohaHwnatLoopbackWrite is7581 count (.macSwap val) s =
            (s, (count : Int)) := by
          rw [airohaHwnatLoopbackWrite, if_neg hon, if_neg hoff]
        refine ⟨hwrite ▸ h, .of_met hwrite ?_ hrefused⟩
        cases hswap : s.macSwap with
        | false =>
          have hzero : val = 0 := by
            by_contra hne
            exact hon ⟨hne, hswap⟩
          simp [hzero]
        | true =>
          have hne : val ≠ 0 := fun hzero => hoff ⟨hzero, hswap⟩
          simp [hne]

theorem swapInv_after (sys : Sys) (hu : Unique 16 sys.slot) (count : Nat)
    (cmds : List LoopbackCmd) :
    SwapInv sys.pairs (afterRequests is7581 count (freshLoopback sys) cmds) := by
  induction cmds with
  | nil => exact ⟨hu, fun _ => ⟨rfl, fun _ => rfl⟩, nofun⟩
  | cons cmd cmds ih => exact (write_inv ih count cmd).1

end Runs

/-- Setting up MAC swapping is a transaction, over any requests on registers that enable no pair
twice. -/
theorem macSwap_transaction (is7581 : Bool) (count : Nat) (sys : Sys) (h : Unique 16 sys.slot)
    (cmds : List LoopbackCmd) :
    let s := afterRequests is7581 count (freshLoopback sys) cmds
    (s.macSwap = true → ∀ t : SwapType, t.pair ∈ s.sys.pairs) ∧
      (s.macSwap = false → s.sys.pairs = sys.pairs) ∧
      sys.pairs ⊆ s.sys.pairs ∧
      ∀ cmd, RequestRight is7581 count s cmd := by
  have hinv := @swapInv_after is7581 sys h count cmds
  refine ⟨?_, ?_, ?_, fun cmd => (write_inv hinv count cmd).2⟩
  · intro hon t
    rw [(hinv.on hon).1]
    exact Or.inr ⟨t, rfl⟩
  · intro hoff
    exact (hinv.off hoff).1
  · cases hswap : (afterRequests is7581 count (freshLoopback sys) cmds).macSwap with
    | false => rw [(hinv.off hswap).1]
    | true =>
      rw [(hinv.on hswap).1]
      exact Set.subset_union_left

/-- Swapping turned on over registers that read zero, and off again. -/
theorem macSwap_transaction_zeroRegs :
    let on := afterRequests true 10 (freshLoopback zeroRegs) [.macSwap 1]
    let off := afterRequests true 10 (freshLoopback zeroRegs) [.macSwap 0, .macSwap 1]
    (on.macSwap = true ∧ ∀ t : SwapType, t.pair ∈ on.sys.pairs) ∧
      off.macSwap = false ∧ off.sys.pairs = zeroRegs.pairs := by
  have htransaction := macSwap_transaction true 10 zeroRegs unique_zeroRegs
  obtain ⟨-, -, -, hfresh⟩ := htransaction []
  obtain ⟨honPairs, -, -, hon⟩ := htransaction [.macSwap 1]
  obtain ⟨-, hoffPairs, -, -⟩ := htransaction [.macSwap 0, .macSwap 1]
  have hswapOn := (hfresh (.macSwap 1)).swapped 1 rfl (by decide)
  have hswapOff := (hon (.macSwap 0)).swapped 0 rfl (by decide)
  exact ⟨⟨hswapOn, honPairs hswapOn⟩, hswapOff, hoffPairs hswapOff⟩

end Airoha.Ppe.L2b
