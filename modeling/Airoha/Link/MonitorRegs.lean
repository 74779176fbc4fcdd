/-
Airoha.Link.MonitorRegs — the registers behind the links.

After every run of the monitor the queues of a serdes channel, and the stop bits
of its MAC, are as the last change of the link asks for. The channels of a GDM are
shared by its links, and are as the last change of any of them has left them: on
GDM4 a port that goes down stops the other one.
-/
import Airoha.Link.MonitorRuns

namespace Airoha.Link

open Airoha.Lib

/-! ## The queues of a channel -/

/-- Where the queues of a channel start in their register. -/
def queueShift (channel : Nat) : Nat := 8 * (channel % 4)

theorem closeCfg_eq {c : Nat} (h : c < 32) : regQueueCloseCfg c = 0xa0 + 4 * (c / 4) := by
  have hall : ∀ c < 32, regQueueCloseCfg c = 0xa0 + 4 * (c / 4) := by decide
  exact hall c h

theorem queueMask_eq {c : Nat} (h : c < 32) (i : Nat) :
    txqDisableChanQueueMask c i = bit 32 (i + queueShift c) := by
  have hall : ∀ c < 32, (c &&& 3) <<< 3 = 8 * (c % 4) := by decide
  rw [txqDisableChanQueueMask, hall c h, queueShift]

/-- Whether a queue is closed. -/
def queueClosed (r : Regs) (channel i : Nat) : Bool :=
  (r (regQueueCloseCfg channel)).getLsbD (i + queueShift channel)

/-- The bits of the first `n` queues of a channel. -/
def inQueues (c n j : Nat) : Bool := decide (queueShift c ≤ j ∧ j < queueShift c + n)

theorem inQueues_zero (c j : Nat) : inQueues c 0 j = false := by
  simp only [inQueues, decide_eq_false_iff_not]
  omega

theorem inQueues_succ (c n j : Nat) :
    inQueues c (n + 1) j = (inQueues c n j || decide (j = n + queueShift c)) := by
  simp only [inQueues, ← Bool.decide_or]
  congr 1
  exact propext ⟨fun h => by omega, fun h => by omega⟩

/-- The loop of `airoha_qdma_start_channel`, after `n` rounds. -/
theorem startLoop_bits {c : Nat} (hc : c < 32) (r : Regs) (n : Nat) :
    (∀ a, a ≠ regQueueCloseCfg c → (List.range n).foldl
        (fun r i => rmw (regQueueCloseCfg c) (txqDisableChanQueueMask c i) 0#32 r) r a = r a) ∧
      ∀ j, ((List.range n).foldl
        (fun r i => rmw (regQueueCloseCfg c) (txqDisableChanQueueMask c i) 0#32 r) r
          (regQueueCloseCfg c)).getLsbD j =
        ((r (regQueueCloseCfg c)).getLsbD j && !inQueues c n j) := by
  induction n with
  | zero => exact ⟨fun _ _ => rfl, fun j => by rw [inQueues_zero]; simp⟩
  | succ n ih =>
    obtain ⟨h1, h2⟩ := ih
    rw [List.range_succ, List.foldl_append]
    refine ⟨fun a ha => ?_, fun j => ?_⟩
    · rw [List.foldl_cons, List.foldl_nil, rmw_of_ne ha, h1 a ha]
    · rw [List.foldl_cons, List.foldl_nil, rmw, Function.update_self, BitVec.or_zero,
        queueMask_eq hc, getLsbD_and_not_bit, h2 j, inQueues_succ, Bool.not_or, Bool.and_assoc]

/-- The loop of `airoha_qdma_stop_channel`, after `n` rounds. -/
theorem stopLoop_bits {c : Nat} (hc : c < 32) (r : Regs) (n : Nat) :
    (∀ a, a ≠ regQueueCloseCfg c → (List.range n).foldl
        (fun r i => rmw (regQueueCloseCfg c) 0#32 (txqDisableChanQueueMask c i) r) r a = r a) ∧
      ∀ j < 32, ((List.range n).foldl
        (fun r i => rmw (regQueueCloseCfg c) 0#32 (txqDisableChanQueueMask c i) r) r
          (regQueueCloseCfg c)).getLsbD j =
        ((r (regQueueCloseCfg c)).getLsbD j || inQueues c n j) := by
  induction n with
  | zero => exact ⟨fun _ _ => rfl, fun j _ => by rw [inQueues_zero]; simp⟩
  | succ n ih =>
    obtain ⟨h1, h2⟩ := ih
    rw [List.range_succ, List.foldl_append]
    refine ⟨fun a ha => ?_, fun j hj => ?_⟩
    · rw [List.foldl_cons, List.foldl_nil, rmw_of_ne ha, h1 a ha]
    · have hz : ∀ x : BitVec 32, x &&& ~~~0#32 = x := fun x => by
        rw [BitVec.not_zero, BitVec.and_allOnes]
      rw [List.foldl_cons, List.foldl_nil, rmw, Function.update_self, hz, queueMask_eq hc,
        BitVec.getLsbD_or, getLsbD_bit, h2 j hj, inQueues_succ, Bool.or_assoc, decide_eq_true hj,
        Bool.true_and]

/-- The queues of two channels are not the same bits. -/
theorem inQueues_other {c c' : Nat} (hc : c < 32) (hc' : c' < 32) (hne : c ≠ c')
    (hreg : regQueueCloseCfg c = regQueueCloseCfg c') {i : Nat} (hi : i < 8) :
    inQueues c' 8 (i + queueShift c) = false := by
  rw [closeCfg_eq hc, closeCfg_eq hc'] at hreg
  rw [inQueues, decide_eq_false_iff_not]
  unfold queueShift
  omega

theorem inQueues_own {c i : Nat} (hi : i < 8) : inQueues c 8 (i + queueShift c) = true := by
  simp only [inQueues, decide_eq_true_eq]
  omega

theorem queue_lt {c i : Nat} (hi : i < 8) : i + queueShift c < 32 := by
  rw [queueShift]
  omega

section Queues

variable {dev : GdmDev} {q c c' i : Nat} {s : Mon}

/-- The queues of a channel are opened, and those of the others stay. -/
theorem start_queues (hc : c < 32) (hc' : c' < 32) (hi : i < 8) :
    queueClosed ((qdmaStartChannel dev c' s).qdma q) c i =
      if q = dev.qdma ∧ c = c' then false else queueClosed (s.qdma q) c i := by
  by_cases hq : q = dev.qdma
  · obtain ⟨h1, h2⟩ := startLoop_bits hc' (s.qdma dev.qdma) 8
    simp only [qdmaStartChannel, hq, Function.update_self, queueClosed, numQosQueues]
    by_cases hreg : regQueueCloseCfg c = regQueueCloseCfg c'
    · rw [hreg, h2]
      by_cases he : c = c'
      · rw [if_pos ⟨trivial, he⟩, he, inQueues_own hi]
        simp
      · rw [if_neg fun h => he h.2, inQueues_other hc hc' he hreg hi]
        simp
    · rw [h1 _ hreg, if_neg]
      rintro ⟨-, rfl⟩
      exact hreg rfl
  · rw [if_neg fun h => hq h.1]
    simp only [qdmaStartChannel, Function.update_of_ne hq]

/-- They are closed, and those of the others stay. -/
theorem stop_queues (hc : c < 32) (hc' : c' < 32) (hi : i < 8) :
    queueClosed ((qdmaStopChannel dev c' s).qdma q) c i =
      if q = dev.qdma ∧ c = c' then true else queueClosed (s.qdma q) c i := by
  by_cases hq : q = dev.qdma
  · obtain ⟨h1, h2⟩ := stopLoop_bits hc' (s.qdma dev.qdma) 8
    simp only [qdmaStopChannel, hq, Function.update_self, queueClosed, numQosQueues]
    by_cases hreg : regQueueCloseCfg c = regQueueCloseCfg c'
    · rw [hreg, h2 _ (queue_lt hi)]
      by_cases he : c = c'
      · rw [if_pos ⟨trivial, he⟩, he, inQueues_own hi]
        simp
      · rw [if_neg fun h => he h.2, inQueues_other hc hc' he hreg hi]
        simp
    · rw [h1 _ hreg, if_neg]
      rintro ⟨-, rfl⟩
      exact hreg rfl
  · rw [if_neg fun h => hq h.1]
    simp only [qdmaStopChannel, Function.update_of_ne hq]

end Queues

/-! ## The MAC -/

/-- A stop bit of a MAC. -/
def macStopped (r : Regs) (k : Nat) : Bool := (r xfiGibCfg).getLsbD k

theorem setBits_getLsbD (reg : Nat) (k : Nat) (r : Regs) (j : Nat) (hj : j < 32) :
    (regmapSetBits reg (bit 32 k) r reg).getLsbD j = ((r reg).getLsbD j || decide (j = k)) := by
  rw [regmapSetBits, updateBits, Function.update_self, BitVec.and_self, BitVec.getLsbD_or,
    getLsbD_and_not_bit, getLsbD_bit, decide_eq_true hj, Bool.true_and]
  cases (r reg).getLsbD j <;> cases decide (j = k) <;> rfl

theorem clearBits_getLsbD (reg : Nat) (k : Nat) (r : Regs) (j : Nat) :
    (regmapClearBits reg (bit 32 k) r reg).getLsbD j = ((r reg).getLsbD j && !decide (j = k)) := by
  rw [regmapClearBits, updateBits, Function.update_self, BitVec.zero_and, BitVec.or_zero,
    getLsbD_and_not_bit]

section Mac

variable {dev : GdmDev} {x k : Nat} {s : Mon}

theorem start_mac (hk : k < 4) : macStopped ((xsiMacStart dev s).xfi x) k =
    if dev.xfiMac = some x then false else macStopped (s.xfi x) k := by
  rw [xsiMacStart, onXfi]
  cases hx : dev.xfiMac with
  | none => rfl
  | some y =>
    by_cases hxy : x = y
    · rw [hxy, if_pos rfl]
      simp only [Function.update_self, macStopped, xfiTxmbiStop, xfiTxmpiStop, xfiRxmpiStop,
        xfiRxmbiStop, clearBits_getLsbD]
      have hcases : k = 0 ∨ k = 1 ∨ k = 2 ∨ k = 3 := by omega
      rcases hcases with rfl | rfl | rfl | rfl <;> simp
    · rw [if_neg fun h => hxy (Option.some.inj h).symm]
      simp only [Function.update_of_ne hxy]

theorem stop_mac (hk : k < 4) : macStopped ((xsiMacReset dev (xsiMacStop dev s)).xfi x) k =
    if dev.xfiMac = some x then true else macStopped (s.xfi x) k := by
  rw [xsiMacReset, onXfi, xsiMacStop, onXfi]
  cases hx : dev.xfiMac with
  | none => rfl
  | some y =>
    by_cases hxy : x = y
    · rw [hxy, if_pos rfl]
      have hreset : ∀ r : Regs, regmapSetBits xfiLogicRst (bit 32 0)
          (regmapClearBits xfiLogicRst (bit 32 0) r) xfiGibCfg = r xfiGibCfg := fun r => by
        rw [regmapSetBits, updateBits, Function.update_of_ne (by decide), regmapClearBits,
          updateBits, Function.update_of_ne (by decide)]
      have hk32 : k < 32 := by omega
      simp only [Function.update_self, macStopped, hreset, xfiTxmbiStop, xfiTxmpiStop,
        xfiRxmpiStop, xfiRxmbiStop, setBits_getLsbD _ _ _ _ hk32]
      have hcases : k = 0 ∨ k = 1 ∨ k = 2 ∨ k = 3 := by omega
      rcases hcases with rfl | rfl | rfl | rfl <;> simp
    · rw [if_neg fun h => hxy (Option.some.inj h).symm]
      simp only [Function.update_of_ne hxy]

end Mac

/-! ## The registers of a link -/

variable {hw : Nat → Bool} {soc : SocData} {ports : List (List GdmDev)}

variable (hw) in
theorem linkStatus_cases (dev : GdmDev) (itf channel : Nat) (link : Bool) (s : Mon) :
    (s.lastlinks itf = link ∧ linkStatus hw dev itf channel link s = s) ∨
      (s.lastlinks itf = false ∧ link = true ∧ linkStatus hw dev itf channel link s =
        { linkUpProtection dev itf channel s with
          lastlinks := Function.update (linkUpProtection dev itf channel s).lastlinks itf true }) ∨
      (s.lastlinks itf = true ∧ link = false ∧ linkStatus hw dev itf channel link s =
        { linkDownProtection hw dev itf channel s with
          lastlinks :=
            Function.update (linkDownProtection hw dev itf channel s).lastlinks itf false }) := by
  unfold linkStatus
  cases hl : s.lastlinks itf <;> cases link <;> simp

theorem rateStep_regs (l : Watch) (v : Option (BitVec 32)) (s : Mon) :
    (rateStep l v s).fe = s.fe ∧ (rateStep l v s).qdma = s.qdma ∧ (rateStep l v s).xfi = s.xfi ∧
      (rateStep l v s).lastlinks = s.lastlinks := by
  unfold rateStep
  cases newSpeed (l.speed s) v with
  | none => exact ⟨rfl, rfl, rfl, rfl⟩
  | some v =>
    simp only [Watch.setSpeed]
    cases l.dev.dsa <;> exact ⟨rfl, rfl, rfl, rfl⟩

/-- Links whose registers are their own. -/
structure Drives (ls : List Watch) : Prop where
  channel_lt : ∀ l ∈ ls, l.channel < 32
  xfi : ∀ a ∈ ls, ∀ b ∈ ls, a ≠ b → a.dev.id ≠ 1 → b.dev.id ≠ 1 →
    ∀ x, a.dev.xfiMac = some x → b.dev.xfiMac ≠ some x
  id : ∀ l ∈ ls, l.dev.id ∈ [1, 2, 3, 4]

/-- The registers that are a link's own, and its last state. -/
@[ext]
structure RegView where
  last : Bool
  closed : Fin 8 → Bool
  stopped : Fin 4 → Option Bool

def Watch.regView (l : Watch) (s : Mon) : RegView where
  last := s.lastlinks l.itf
  closed i := queueClosed (s.qdma l.dev.qdma) l.channel i
  stopped k := l.dev.xfiMac.map fun x => macStopped (s.xfi x) k

/-- The registers behind a change to `link`. -/
def RegView.after (v : RegView) (link : Bool) : RegView where
  last := link
  closed _ := !link
  stopped k := (v.stopped k).map fun _ => !link

/-- What a visit makes of them. -/
def RegView.next (v : RegView) : Option Itf → RegView
  | none => v
  | some e => if v.last = e.link then v else v.after e.link

theorem regView_congr {l : Watch} {s s' : Mon} (hq : s'.qdma = s.qdma) (hx : s'.xfi = s.xfi)
    (hl : s'.lastlinks l.itf = s.lastlinks l.itf) : l.regView s' = l.regView s := by
  unfold Watch.regView
  rw [hq, hx, hl]

theorem linkUp_regView {l : Watch} (hc : l.channel < 32) (hid : l.dev.id ≠ 1) (s : Mon) :
    l.regView { linkUpProtection l.dev l.itf l.channel s with
      lastlinks :=
        Function.update (linkUpProtection l.dev l.itf l.channel s).lastlinks l.itf true } =
      (l.regView s).after true := by
  simp only [Watch.regView, RegView.after, linkUp_eq, if_pos hid, Function.update_self,
    start_queues hc hc (Fin.is_lt _), true_and, if_true, Bool.not_true, RegView.mk.injEq]
  funext k
  cases hx : l.dev.xfiMac with
  | none => rfl
  | some x =>
    simp only [Option.map_some, start_mac k.is_lt, hx, if_true]

theorem linkDown_regView {l : Watch} (hc : l.channel < 32) (hid : l.dev.id ≠ 1) (s : Mon) :
    l.regView { linkDownProtection hw l.dev l.itf l.channel s with
      lastlinks :=
        Function.update (linkDownProtection hw l.dev l.itf l.channel s).lastlinks l.itf false } =
      (l.regView s).after false := by
  have hd := linkDown_serdes hw hid l.itf l.channel s
  simp only [Watch.regView, RegView.after, hd.qdma, hd.xfi, Function.update_self,
    stop_queues hc hc (Fin.is_lt _), true_and, if_true, Bool.not_false, RegView.mk.injEq]
  funext k
  cases hx : l.dev.xfiMac with
  | none => rfl
  | some x =>
    simp only [Option.map_some, stop_mac k.is_lt, hx, if_true]

theorem visit_regs_own {l : Watch} (hc : l.channel < 32) (hid : l.dev.id ≠ 1) (o : Obs) (s : Mon) :
    l.regView (visit hw o s l) = (l.regView s).next (l.seen o) := by
  unfold visit
  cases l.seen o with
  | none => rfl
  | some e =>
    obtain ⟨-, hq, hx, hl⟩ := rateStep_regs l e.speed s
    have hs : l.regView (rateStep l e.speed s) = l.regView s := regView_congr hq hx (by rw [hl])
    have hlast : (l.regView s).last = (rateStep l e.speed s).lastlinks l.itf := by rw [hl]; rfl
    simp only [RegView.next, ← hs]
    rcases linkStatus_cases hw l.dev l.itf l.channel e.link (rateStep l e.speed s) with
      ⟨h0, he⟩ | ⟨h0, h1, he⟩ | ⟨h0, h1, he⟩
    · rw [he, if_pos (by rw [hs, hlast, h0])]
    · rw [he, if_neg (by rw [hs, hlast, h0, h1]; decide), h1, linkUp_regView hc hid]
    · rw [he, if_neg (by rw [hs, hlast, h0, h1]; decide), h1, linkDown_regView hc hid]

/-- Two links, one of which is visited. -/
structure Other (l b : Watch) : Prop where
  itf : l.itf ≠ b.itf
  channel : l.channel ≠ b.channel
  lt : l.channel < 32 ∧ b.channel < 32
  xfi : b.dev.id ≠ 1 → ∀ x, l.dev.xfiMac = some x → b.dev.xfiMac ≠ some x

theorem linkUp_other {l b : Watch} (h : Other l b) (s : Mon) :
    l.regView { linkUpProtection b.dev b.itf b.channel s with
      lastlinks :=
        Function.update (linkUpProtection b.dev b.itf b.channel s).lastlinks b.itf true } =
      l.regView s := by
  simp only [Watch.regView, linkUp_eq, Function.update_of_ne h.itf,
    start_queues h.lt.1 h.lt.2 (Fin.is_lt _), h.channel, and_false, if_false, RegView.mk.injEq,
    true_and]
  funext k
  cases hx : l.dev.xfiMac with
  | none => rfl
  | some x =>
    by_cases hid : b.dev.id = 1
    · simp only [Option.map_some, hid, ne_eq, not_true, if_false]
    · simp only [Option.map_some, ne_eq, hid, not_false_iff, if_true, start_mac k.is_lt,
        h.xfi hid x hx, if_false]

theorem linkDown_other {l b : Watch} (h : Other l b) (s : Mon) :
    l.regView { linkDownProtection hw b.dev b.itf b.channel s with
      lastlinks :=
        Function.update (linkDownProtection hw b.dev b.itf b.channel s).lastlinks b.itf false } =
      l.regView s := by
  by_cases hid : b.dev.id = 1
  · rw [linkDown_gdm1 hid]
    exact regView_congr rfl rfl (Function.update_of_ne h.itf _ _)
  · have hd := linkDown_serdes hw hid b.itf b.channel s
    have hlast : (linkDownProtection hw b.dev b.itf b.channel s).lastlinks = s.lastlinks := by
      rw [hd.rest]
    simp only [Watch.regView, hd.qdma, hd.xfi, Function.update_of_ne h.itf, hlast,
      stop_queues h.lt.1 h.lt.2 (Fin.is_lt _), h.channel, and_false, if_false, RegView.mk.injEq,
      true_and]
    funext k
    cases hx : l.dev.xfiMac with
    | none => rfl
    | some x => simp only [Option.map_some, stop_mac k.is_lt, h.xfi hid x hx, if_false]

theorem visit_regs_other {l b : Watch} (h : Other l b) (o : Obs) (s : Mon) :
    l.regView (visit hw o s b) = l.regView s := by
  unfold visit
  cases b.seen o with
  | none => rfl
  | some e =>
    obtain ⟨-, hq, hx, hl⟩ := rateStep_regs b e.speed s
    have hs : l.regView (rateStep b e.speed s) = l.regView s := regView_congr hq hx (by rw [hl])
    simp only
    rcases linkStatus_cases hw b.dev b.itf b.channel e.link (rateStep b e.speed s) with
      ⟨-, he⟩ | ⟨-, -, he⟩ | ⟨-, -, he⟩
    · rw [he, hs]
    · rw [he, linkUp_other h, hs]
    · rw [he, linkDown_other h, hs]

theorem other_of_ne (ha : Apart (links soc ports)) (hd : Drives (links soc ports)) {l b : Watch}
    (hl : l ∈ links soc ports) (hb : b ∈ links soc ports) (hne : b ≠ l) (hid : l.dev.id ≠ 1) :
    Other l b where
  itf := ne_of_nodup_map ha.itf hb hl hne.symm
  channel he := ne_of_nodup_map ha.channel hb hl hne.symm (by rw [he])
  lt := ⟨hd.channel_lt l hl, hd.channel_lt b hb⟩
  xfi hb1 x hx := hd.xfi l hl b hb hne.symm hid hb1 x hx

theorem ethMonitor_regView (ha : Apart (links soc ports)) (hd : Drives (links soc ports))
    {l : Watch} (hl : l ∈ links soc ports) (hid : l.dev.id ≠ 1) (s : Mon) (o : Obs) :
    l.regView (ethMonitor hw soc ports s o) = (l.regView s).next (l.seen o) := by
  rw [ethMonitor_eq]
  exact foldl_view l.regView (fun v => v.next (l.seen o)) (List.Nodup.of_map _ ha.itf) hl
    (fun s => visit_regs_own (hd.channel_lt l hl) hid o s)
    (fun s b hb hne => visit_regs_other (other_of_ne ha hd hl hb hne hid) o s) s

theorem after_after (v : RegView) (a b : Bool) : (v.after a).after b = v.after b := by
  ext1
  · rfl
  · rfl
  · funext k
    exact Option.map_map _ _ _

/-- Where the registers settle: as the last change asks for. -/
def RegView.settled (v : RegView) (bs : List Bool) : RegView :=
  ((changes v.last bs).getLast?.map v.after).getD v

theorem settled_cons (v : RegView) (b : Bool) (bs : List Bool) :
    v.settled (b :: bs) = (if v.last = b then v else v.after b).settled bs := by
  rw [RegView.settled, changes_cons]
  by_cases h : v.last = b
  · rw [if_pos h, if_pos h, List.nil_append, ← h, RegView.settled]
  · rw [if_neg h, if_neg h, List.singleton_append, List.getLast?_cons, Option.map_some,
      Option.getD_some, RegView.settled]
    show v.after (((changes b bs).getLast?).getD b) =
      ((changes b bs).getLast?.map (v.after b).after).getD (v.after b)
    cases (changes b bs).getLast? with
    | none => rfl
    | some c => exact (after_after v b c).symm

theorem monitorRun_regView (ha : Apart (links soc ports)) (hd : Drives (links soc ports))
    {l : Watch} (hl : l ∈ links soc ports) (hid : l.dev.id ≠ 1) (os : List Obs) (s : Mon) :
    l.regView (monitorRun hw soc ports s os) = (l.regView s).settled (l.linksSeen os) := by
  induction os generalizing s with
  | nil => rfl
  | cons o os ih =>
    have hrun : monitorRun hw soc ports s (o :: os) =
        monitorRun hw soc ports (ethMonitor hw soc ports s o) os := rfl
    rw [hrun, ih, ethMonitor_regView ha hd hl hid, linksSeen_cons]
    cases l.seen o with
    | none => rfl
    | some e => exact (settled_cons (l.regView s) e.link (l.linksSeen os)).symm

/-! ## The channels of a GDM -/

/-- The interfaces on a GDM. -/
def gdmItfs (ls : List Watch) (n : Nat) : List Nat :=
  (ls.filter fun l => l.dev.id == n).map Watch.itf

/-- The change of a link on a GDM, as a call shows it. -/
def Call.gdmMove (itfs : List Nat) : Call → Option Bool
  | .up i => if i ∈ itfs then some true else none
  | .flows i => if i ∈ itfs then some false else none
  | _ => none

/-- Where the channels of a GDM are. -/
def gdmChannels (fe : Regs) (n : Nat) : BitVec 32 × BitVec 32 :=
  (fe (regGdmTxchnEn n), fe (regGdmRxchnEn n))

/-- Where they are behind a change. Those of GDM1 are not stopped. -/
def gdmAfter (n : Nat) (link : Bool) : BitVec 32 × BitVec 32 :=
  if link || n == 1 then (0xffffffff#32, 0xffff#32) else (0#32, 0#32)

theorem gdmAfter_gdm1 {n : Nat} (h : n = 1) (a b : Bool) : gdmAfter n a = gdmAfter n b := by
  rw [h]
  cases a <;> cases b <;> rfl

theorem gdm_apart {n m : Nat} (hn : n ∈ [1, 2, 3, 4]) (hm : m ∈ [1, 2, 3, 4]) (hne : n ≠ m) :
    regGdmTxchnEn n ≠ regGdmTxchnEn m ∧ regGdmTxchnEn n ≠ regGdmRxchnEn m ∧
      regGdmRxchnEn n ≠ regGdmTxchnEn m ∧ regGdmRxchnEn n ≠ regGdmRxchnEn m := by
  have hall : ∀ n ∈ [1, 2, 3, 4], ∀ m ∈ [1, 2, 3, 4], n ≠ m →
      regGdmTxchnEn n ≠ regGdmTxchnEn m ∧ regGdmTxchnEn n ≠ regGdmRxchnEn m ∧
        regGdmRxchnEn n ≠ regGdmTxchnEn m ∧ regGdmRxchnEn n ≠ regGdmRxchnEn m := by decide
  exact hall n hn m hm hne

theorem gdm_quiet {n : Nat} (hn : n ∈ [1, 2, 3, 4]) :
    regGdmTxchnEn n ≠ regGdm4ChnRls ∧ regGdmTxchnEn n ≠ feResetGlo ∧
      regGdmRxchnEn n ≠ regGdm4ChnRls ∧ regGdmRxchnEn n ≠ feResetGlo ∧
      regGdmTxchnEn n ≠ regGdmRxchnEn n := by
  have hall : ∀ n ∈ [1, 2, 3, 4], regGdmTxchnEn n ≠ regGdm4ChnRls ∧
      regGdmTxchnEn n ≠ feResetGlo ∧ regGdmRxchnEn n ≠ regGdm4ChnRls ∧
      regGdmRxchnEn n ≠ feResetGlo ∧ regGdmTxchnEn n ≠ regGdmRxchnEn n := by decide
  exact hall n hn

theorem gdmStart_channels {dev : GdmDev} {n : Nat} (hn : n ∈ [1, 2, 3, 4])
    (hm : dev.id ∈ [1, 2, 3, 4]) (s : Mon) : gdmChannels (gdmaStartTxRxChannel dev s).fe n =
      if dev.id = n then (0xffffffff#32, 0xffff#32) else gdmChannels s.fe n := by
  by_cases h : dev.id = n
  · obtain ⟨-, -, -, -, hne⟩ := gdm_quiet hn
    rw [if_pos h]
    simp only [gdmChannels, gdmaStartTxRxChannel, h, Function.update_self,
      Function.update_of_ne hne]
  · obtain ⟨h1, h2, h3, h4⟩ := gdm_apart hn hm (Ne.symm h)
    rw [if_neg h]
    simp only [gdmChannels, gdmaStartTxRxChannel, Function.update_of_ne h1,
      Function.update_of_ne h2, Function.update_of_ne h3, Function.update_of_ne h4]

theorem gdmStop_channels {dev : GdmDev} {n : Nat} (hn : n ∈ [1, 2, 3, 4])
    (hm : dev.id ∈ [1, 2, 3, 4]) (s : Mon) : gdmChannels (gdmaStopTxRxChannel dev s).fe n =
      if dev.id = n then (0#32, 0#32) else gdmChannels s.fe n := by
  by_cases h : dev.id = n
  · obtain ⟨-, -, -, -, hne⟩ := gdm_quiet hn
    rw [if_pos h]
    simp only [gdmChannels, gdmaStopTxRxChannel, h, Function.update_self,
      Function.update_of_ne hne]
  · obtain ⟨h1, h2, h3, h4⟩ := gdm_apart hn hm (Ne.symm h)
    rw [if_neg h]
    simp only [gdmChannels, gdmaStopTxRxChannel, Function.update_of_ne h1,
      Function.update_of_ne h2, Function.update_of_ne h3, Function.update_of_ne h4]

/-- The channels of a GDM are as the last change of any of its links has left them, and there was
one if a link is up. -/
structure GdmInv (ls : List Watch) (n : Nat) (c0 : BitVec 32 × BitVec 32) (s : Mon) : Prop where
  channels : gdmChannels s.fe n =
    ((s.calls.filterMap (Call.gdmMove (gdmItfs ls n))).getLast?.map (gdmAfter n)).getD c0
  moved : ∀ l ∈ ls, l.dev.id = n → s.lastlinks l.itf = true →
    s.calls.filterMap (Call.gdmMove (gdmItfs ls n)) ≠ []

theorem mem_gdmItfs {ls : List Watch} (hi : (ls.map Watch.itf).Nodup) {b : Watch} (hb : b ∈ ls)
    (n : Nat) : b.itf ∈ gdmItfs ls n ↔ b.dev.id = n := by
  rw [gdmItfs, List.mem_map]
  constructor
  · rintro ⟨l, hl, he⟩
    obtain ⟨hl, hid⟩ := List.mem_filter.1 hl
    obtain rfl := List.inj_on_of_nodup_map hi hl hb he
    exact eq_of_beq hid
  · intro h
    exact ⟨b, List.mem_filter.2 ⟨hb, by simp [h]⟩, rfl⟩

theorem rateStep_gdmMove (l : Watch) (v : Option (BitVec 32)) (itfs : List Nat) (s : Mon) :
    (rateStep l v s).calls.filterMap (Call.gdmMove itfs) =
      s.calls.filterMap (Call.gdmMove itfs) := by
  unfold rateStep
  cases newSpeed (l.speed s) v with
  | none => rfl
  | some v =>
    simp only [(setSpeed_calls l v _).1, ethLinkRateUpdate, Mon.call]
    simp [Call.gdmMove]

theorem gdmMove_up {itfs : List Nat} {itf : Nat} {p : Prop} [Decidable p] (h : itf ∈ itfs ↔ p) :
    [Call.up itf].filterMap (Call.gdmMove itfs) = if p then [true] else [] := by
  by_cases hp : p
  · simp [Call.gdmMove, h.2 hp, hp]
  · simp [Call.gdmMove, mt h.1 hp, hp]

theorem gdmMove_down {itfs : List Nat} {itf : Nat} {p : Prop} [Decidable p] (h : itf ∈ itfs ↔ p)
    (fport channel : Nat) (r : Option Bool) :
    [Call.flows itf, .clean fport channel, .down itf r].filterMap (Call.gdmMove itfs) =
      if p then [false] else [] := by
  by_cases hp : p
  · simp [Call.gdmMove, h.2 hp, hp]
  · simp [Call.gdmMove, mt h.1 hp, hp]

/-- A change is the last one. -/
theorem gdmInv_change {ls : List Watch} {n : Nat} {c0 : BitVec 32 × BitVec 32} {s s' : Mon}
    (h : GdmInv ls n c0 s) {b : Watch} {link : Bool} {ds : List Call}
    (hcalls : s'.calls = s.calls ++ ds)
    (hds : ds.filterMap (Call.gdmMove (gdmItfs ls n)) = if b.dev.id = n then [link] else [])
    (hlast : s'.lastlinks = Function.update s.lastlinks b.itf link)
    (hmem : ∀ l ∈ ls, l.itf = b.itf → l = b)
    (hc : gdmChannels s'.fe n = if b.dev.id = n then gdmAfter n link else gdmChannels s.fe n) :
    GdmInv ls n c0 s' where
  channels := by
    rw [hcalls, List.filterMap_append, hds, hc]
    by_cases hp : b.dev.id = n
    · simp [hp]
    · simp [hp, h.channels]
  moved l hl hid hup := by
    rw [hcalls, List.filterMap_append, hds]
    by_cases he : l.itf = b.itf
    · rw [← hmem l hl he, if_pos hid]
      simp
    · rw [hlast, Function.update_of_ne he] at hup
      simp [h.moved l hl hid hup]

theorem visit_gdmInv {ls : List Watch} (hi : (ls.map Watch.itf).Nodup) (hd : Drives ls) {n : Nat}
    (hn : n ∈ [1, 2, 3, 4]) {c0 : BitVec 32 × BitVec 32} {b : Watch} (hb : b ∈ ls) (o : Obs)
    {s : Mon} (h : GdmInv ls n c0 s) : GdmInv ls n c0 (visit hw o s b) := by
  unfold visit
  cases b.seen o with
  | none => exact h
  | some e =>
    obtain ⟨hfe, -, -, hlast⟩ := rateStep_regs b e.speed s
    have h' : GdmInv ls n c0 (rateStep b e.speed s) :=
      { channels := by rw [rateStep_gdmMove, hfe]; exact h.channels
        moved := by rw [rateStep_gdmMove, hlast]; exact h.moved }
    have hitf := mem_gdmItfs hi hb n
    have hid := hd.id b hb
    have hmem : ∀ l ∈ ls, l.itf = b.itf → l = b := fun l hl he =>
      List.inj_on_of_nodup_map hi hl hb he
    simp only
    generalize rateStep b e.speed s = s1 at h'
    rcases linkStatus_cases hw b.dev b.itf b.channel e.link s1 with
      ⟨-, he⟩ | ⟨-, -, he⟩ | ⟨hup, -, he⟩
    · rw [he]
      exact h'
    · rw [he, linkUp_eq]
      exact gdmInv_change h' rfl (gdmMove_up hitf) rfl hmem (gdmStart_channels hn hid s1)
    · rw [he]
      by_cases h1 : b.dev.id = 1
      · rw [linkDown_gdm1 h1]
        refine gdmInv_change h' rfl (gdmMove_down hitf _ _ _) rfl hmem ?_
        by_cases hbn : b.dev.id = n
        · -- the channels of GDM1 have been started, since this link is up
          have hmoved := h'.moved b hb hbn hup
          have hn1 : n = 1 := hbn ▸ h1
          have hch := h'.channels
          rw [List.getLast?_eq_some_getLast hmoved, Option.map_some, Option.getD_some] at hch
          rw [if_pos hbn]
          exact hch.trans (gdmAfter_gdm1 hn1 _ _)
        · rw [if_neg hbn]
      · have hdown := linkDown_serdes hw h1 b.itf b.channel s1
        obtain ⟨r, hr⟩ := hdown.calls
        obtain ⟨q1, q2, q3, q4, -⟩ := gdm_quiet hn
        have hlast' : (linkDownProtection hw b.dev b.itf b.channel s1).lastlinks =
            s1.lastlinks := by rw [hdown.rest]
        refine gdmInv_change h' hr (gdmMove_down hitf _ _ _) (by simp only [hlast']) hmem ?_
        have hg := gdmStop_channels hn hid s1
        simp only [gdmChannels, hdown.fe _ q1 q2, hdown.fe _ q3 q4] at hg ⊢
        rw [hg]
        by_cases hbn : b.dev.id = n
        · have hn1 : n ≠ 1 := hbn ▸ h1
          simp [hbn, gdmAfter, hn1]
        · simp [hbn]

theorem foldl_gdmInv {ls : List Watch} (hi : (ls.map Watch.itf).Nodup) (hd : Drives ls) {n : Nat}
    (hn : n ∈ [1, 2, 3, 4]) {c0 : BitVec 32 × BitVec 32} (o : Obs) :
    ∀ (bs : List Watch) (s : Mon), (∀ b ∈ bs, b ∈ ls) → GdmInv ls n c0 s →
      GdmInv ls n c0 (bs.foldl (visit hw o) s) := by
  intro bs
  induction bs with
  | nil => exact fun _ _ h => h
  | cons b bs ih =>
    intro s hb h
    exact ih _ (fun c hc => hb c (List.mem_cons_of_mem b hc))
      (visit_gdmInv hi hd hn (hb b List.mem_cons_self) o h)

theorem monitorRun_gdmInv (hi : ((links soc ports).map Watch.itf).Nodup)
    (hd : Drives (links soc ports)) {n : Nat} (hn : n ∈ [1, 2, 3, 4])
    {c0 : BitVec 32 × BitVec 32} (os : List Obs) (s : Mon) (h : GdmInv (links soc ports) n c0 s) :
    GdmInv (links soc ports) n c0 (monitorRun hw soc ports s os) := by
  induction os generalizing s with
  | nil => exact h
  | cons o os ih =>
    refine ih (ethMonitor hw soc ports s o) ?_
    rw [ethMonitor_eq]
    exact foldl_gdmInv hi hd hn o _ s (fun _ hb => hb) h

/-! ## Every run -/

/-- The links of a board drive registers of their own. -/
theorem Board.drives (b : Board) (gdm2 gdm3 : List GdmDev) :
    Drives (links en7581SocData (b.gdms gdm2 gdm3)) := by
  rw [b.links_eq]
  have hlan := b.lan_id
  obtain ⟨-, he, -⟩ := b.eth_serdes
  obtain ⟨-, hu, -⟩ := b.usb_serdes
  have hx := b.xfi_apart
  refine ⟨by simp, ?_, by simp [hlan, he, hu]⟩
  have hx' : ∀ x, b.usb.xfiMac = some x → b.eth.xfiMac ≠ some x := fun x h1 h2 => hx x h2 h1
  simp only [List.mem_cons, List.not_mem_nil, or_false]
  rintro l hl m hm hne h1 h2
  rcases hl with rfl | rfl | rfl | rfl | rfl | rfl <;>
    first
    | exact absurd hlan h1
    | (rcases hm with rfl | rfl | rfl | rfl | rfl | rfl <;>
        first
        | exact absurd hlan h2
        | exact absurd rfl hne
        | exact hx
        | exact hx')

/-- In every run the queues of the channel of a serdes link, and the four parts of its MAC, are
stopped if and only if the last change of the link was to down; before its first change they are as
they were. -/
theorem registers_follow (hw : Nat → Bool) (ha : Apart (links soc ports))
    (hd : Drives (links soc ports)) {l : Watch} (hl : l ∈ links soc ports) (hid : l.dev.id ≠ 1)
    (fe : Regs) (qdma xfi : Nat → Regs) (os : List Obs) :
    (∀ i < 8, queueClosed ((monitorRun hw soc ports (monInit fe qdma xfi) os).qdma l.dev.qdma)
        l.channel i =
      ((changes false (l.linksSeen os)).getLast?.map not).getD
        (queueClosed (qdma l.dev.qdma) l.channel i)) ∧
      ∀ x, l.dev.xfiMac = some x → ∀ k < 4,
        macStopped ((monitorRun hw soc ports (monInit fe qdma xfi) os).xfi x) k =
          ((changes false (l.linksSeen os)).getLast?.map not).getD (macStopped (xfi x) k) := by
  have hv : l.regView (monitorRun hw soc ports (monInit fe qdma xfi) os) =
      ((changes false (l.linksSeen os)).getLast?.map (l.regView (monInit fe qdma xfi)).after).getD
        (l.regView (monInit fe qdma xfi)) := monitorRun_regView ha hd hl hid os _
  constructor
  · intro i hi
    have h := congrFun (congrArg RegView.closed hv) ⟨i, hi⟩
    cases hc : (changes false (l.linksSeen os)).getLast? with
    | none => rwa [hc] at h
    | some link => rwa [hc] at h
  · intro x hx k hk
    have h := congrFun (congrArg RegView.stopped hv) ⟨k, hk⟩
    cases hc : (changes false (l.linksSeen os)).getLast? with
    | none =>
      rw [hc] at h
      simpa only [Watch.regView, monInit, hx, Option.map_some, Option.map_none, Option.getD_none,
        Option.some.injEq] using h
    | some link =>
      rw [hc] at h
      simpa only [Watch.regView, RegView.after, hx, Option.map_some, Option.getD_some,
        Option.some.injEq] using h

theorem registers_follow_usb :
    (∀ i < 8, queueClosed ((monitorRun (fun _ => true) en7581SocData (probeBoard.gdms [] [])
        (monInit (fun _ => 0) (fun _ _ => 0) fun _ _ => 0) probeObs).qdma 0) 12 i =
      ((changes false (Watch.linksSeen ⟨probeBoard.usb, 2, 8, 12⟩ probeObs)).getLast?.map not).getD
        (queueClosed (fun _ => 0) 12 i)) ∧
      ∀ x, some 1 = some x → ∀ k < 4, macStopped ((monitorRun (fun _ => true) en7581SocData
          (probeBoard.gdms [] []) (monInit (fun _ => 0) (fun _ _ => 0) fun _ _ => 0)
            probeObs).xfi x) k =
        ((changes false (Watch.linksSeen ⟨probeBoard.usb, 2, 8, 12⟩ probeObs)).getLast?.map
          not).getD (macStopped (fun _ => 0) k) :=
  registers_follow (fun _ => true) (probeBoard.apart [] []) (probeBoard.drives [] [])
    (l := ⟨probeBoard.usb, 2, 8, 12⟩) (by rw [probeBoard.links_eq]; simp) (by decide) (fun _ => 0)
    (fun _ _ => 0) (fun _ _ => 0) probeObs

/-- In every run the channels of a GDM are all on if the last change of any of its links was to up,
and all off if it was to down; those of GDM1 are not switched off. -/
theorem channels_follow (hw : Nat → Bool) (ha : Apart (links soc ports))
    (hd : Drives (links soc ports)) {n : Nat} (hn : n ∈ [1, 2, 3, 4]) (fe : Regs)
    (qdma xfi : Nat → Regs) (os : List Obs) :
    gdmChannels (monitorRun hw soc ports (monInit fe qdma xfi) os).fe n =
      (((monitorRun hw soc ports (monInit fe qdma xfi) os).calls.filterMap
        (Call.gdmMove (gdmItfs (links soc ports) n))).getLast?.map (gdmAfter n)).getD
          (gdmChannels fe n) :=
  (monitorRun_gdmInv ha.itf hd hn os _
    { channels := rfl, moved := fun _ _ _ h => absurd h Bool.false_ne_true }).channels

/-- `eth` stays up when `usb` goes down, and both have lost their channels. -/
theorem channels_follow_gdm4 :
    Watch.linksSeen ⟨probeBoard.eth, 4, 6, 13⟩ probeObs = [true, true] ∧
      gdmChannels (monitorRun (fun _ => true) en7581SocData (probeBoard.gdms [] [])
        (monInit (fun _ => 0) (fun _ _ => 0) fun _ _ => 0) probeObs).fe 4 = (0#32, 0#32) ∧
      gdmChannels (monitorRun (fun _ => true) en7581SocData (probeBoard.gdms [] [])
          (monInit (fun _ => 0) (fun _ _ => 0) fun _ _ => 0) probeObs).fe 4 =
        (((monitorRun (fun _ => true) en7581SocData (probeBoard.gdms [] [])
            (monInit (fun _ => 0) (fun _ _ => 0) fun _ _ => 0) probeObs).calls.filterMap
          (Call.gdmMove (gdmItfs (links en7581SocData (probeBoard.gdms [] [])) 4))).getLast?.map
            (gdmAfter 4)).getD (gdmChannels (fun _ => 0) 4) :=
  ⟨by decide, by decide, channels_follow (fun _ => true) (probeBoard.apart [] [])
    (probeBoard.drives [] []) (by decide) (fun _ => 0) (fun _ _ => 0) (fun _ _ => 0) probeObs⟩

end Airoha.Link
