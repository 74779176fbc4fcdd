/-
Airoha.Gdm.RolesRuns — roles and users over whole runs.

`Consistent` says that the users of a QDMA are the running devices on it, that
its DMA is on while it has some, and that the one device on QDMA1 is the WAN.
Every call keeps it. A CREATE that fails does not always leave the roles as they
were: `CreateKeeps` says for which it does.
-/
import Airoha.Gdm.Roles

namespace Airoha.Gdm

open Airoha.Lib

section Runs

variable {δ : Type} [DecidableEq δ] {b : Board δ}

/-! ## What is meant -/

/-- The QDMA a running device uses. -/
def Eth.uses (s : Eth δ) (d : δ) : Option (Fin 2) :=
  if (s.dev d).running then (s.dev d).qdma else none

/-- The running devices on a QDMA. -/
def Eth.usersOf (b : Board δ) (s : Eth δ) (q : Fin 2) : Nat := holders b.devs s.uses q

/-- Users, DMA and roles belong together. -/
structure Consistent (b : Board δ) (s : Eth δ) : Prop where
  users : ∀ q, (s.qdma q).users = s.usersOf b q
  dma : ∀ q, ((s.qdma q).txDmaEn = true ↔ 0 < s.usersOf b q) ∧
    ((s.qdma q).rxDmaEn = true ↔ 0 < s.usersOf b q)
  oneWan : ∀ d e, (s.dev d).wan = true → (s.dev e).wan = true → d = e
  onQdma : ∀ d, (s.dev d).qdma = some (qdmaOf (s.dev d).wan)

/-- Flags, QDMA and the loopback are as they were. -/
structure SameRoles (s s' : Eth δ) : Prop where
  dev : ∀ d, (s'.dev d).wan = (s.dev d).wan ∧ (s'.dev d).qos = (s.dev d).qos ∧
    (s'.dev d).qdma = (s.dev d).qdma
  loopedBack : s'.loopedBack = s.loopedBack

/-- A CREATE that fails leaves the roles as they were. -/
def Kept (s : Eth δ) (op : Op δ) (r : Int × Eth δ) : Prop :=
  match op with
  | .htbCreate _ _ => r.1 ≠ 0 → SameRoles s r.2
  | _ => True

/-- Every state of the run is consistent, and every CREATE that fails leaves the roles. -/
def RolesRun (b : Board δ) (s : Eth δ) : List (Op δ) → Prop
  | [] => Consistent b s
  | op :: ops => Consistent b s ∧ Kept s op (s.step b op) ∧ RolesRun b (s.step b op).2 ops

/-- A CREATE that takes no role, is refused, comes through, or has nothing to give back but what it
gives back. -/
def CreateKeeps (b : Board δ) (s : Eth δ) (d : δ) (x : CreateAnswers) : Prop :=
  isGdm34 b d = false ∨ (s.dev d).wan = true ∨
    match airohaGetWanGdmDev b s with
    | some w => (s.dev w).qos = true ∨ b.portId w = .gdm2 ∨ (0 ≤ x.sport ∧ x.macaddr = 0)
    | none => x.sport < 0 ∨ x.macaddr = 0 ∨
        s.loopedBack = if x.undoSport < 0 then some d else none

/-- The same of any call: only a CREATE can fail to. -/
def OpKeeps (b : Board δ) (s : Eth δ) : Op δ → Prop
  | .htbCreate d x => CreateKeeps b s d x
  | _ => True

/-- Every CREATE of the run does, in the state it finds. -/
def CreatesKeep (b : Board δ) (s : Eth δ) : List (Op δ) → Prop
  | [] => True
  | op :: ops => OpKeeps b s op ∧ CreatesKeep b (s.step b op).2 ops

end Runs

/-! ## Starting and stopping a QDMA -/

section StartStop

variable {δ : Type} {s : Eth δ} {q : Fin 2}

/-- The DMA is on while there are users, and their number is none below 0. -/
def Enabled (s : Eth δ) : Prop :=
  ∀ q, 0 ≤ (s.qdma q).users ∧ ((s.qdma q).txDmaEn = true ↔ 0 < (s.qdma q).users) ∧
    ((s.qdma q).rxDmaEn = true ↔ 0 < (s.qdma q).users)

/-- A QDMA with one user less. -/
def Qdma.stopped (v : Qdma) : Qdma :=
  if v.users - 1 ≠ 0 then { v with users := v.users - 1 }
  else { users := v.users - 1, txDmaEn := false, rxDmaEn := false }

theorem stop_eq : airohaQdmaStop q s = s.setQdma q (s.qdma q).stopped := by
  unfold airohaQdmaStop Qdma.stopped
  by_cases h : (s.qdma q).users - 1 = 0 <;> simp [h]

theorem users_stopped (v : Qdma) : v.stopped.users = v.users - 1 := by
  unfold Qdma.stopped
  split_ifs <;> rfl

@[simp] theorem dev_start : (airohaQdmaStart q s).dev = s.dev := rfl
@[simp] theorem loopedBack_start : (airohaQdmaStart q s).loopedBack = s.loopedBack := rfl

@[simp] theorem dev_stop : (airohaQdmaStop q s).dev = s.dev := by
  rw [stop_eq]
  rfl

@[simp] theorem loopedBack_stop : (airohaQdmaStop q s).loopedBack = s.loopedBack := by
  rw [stop_eq]
  rfl

theorem users_setQdma (v : Qdma) (n : Int) (hv : v.users = (s.qdma q).users + n) (r : Fin 2) :
    ((s.setQdma q v).qdma r).users = (s.qdma r).users + n * share (some q) r := by
  by_cases h : r = q
  · subst h
    simp [Eth.setQdma, share, hv]
  · simp [Eth.setQdma, share, Function.update_of_ne h, Ne.symm h]

theorem users_start (r : Fin 2) :
    ((airohaQdmaStart q s).qdma r).users = (s.qdma r).users + share (some q) r := by
  rw [airohaQdmaStart, users_setQdma _ 1 rfl, one_mul]

theorem users_stop (r : Fin 2) :
    ((airohaQdmaStop q s).qdma r).users = (s.qdma r).users - share (some q) r := by
  rw [stop_eq, users_setQdma _ (-1) (users_stopped _), neg_one_mul, sub_eq_add_neg]

theorem Enabled.setQdma (h : Enabled s) {v : Qdma} (h0 : 0 ≤ v.users)
    (htx : v.txDmaEn = true ↔ 0 < v.users) (hrx : v.rxDmaEn = true ↔ 0 < v.users) :
    Enabled (s.setQdma q v) := by
  intro r
  by_cases hr : r = q
  · subst hr
    simp only [Eth.setQdma, Function.update_self]
    exact ⟨h0, htx, hrx⟩
  · simp only [Eth.setQdma, Function.update_of_ne hr]
    exact h r

theorem Enabled.start (h : Enabled s) : Enabled (airohaQdmaStart q s) := by
  have hpos := (h q).1
  refine h.setQdma ?_ ?_ ?_ <;> simp only [true_iff] <;> omega

theorem Enabled.stop (h : Enabled s) (hq : 0 < (s.qdma q).users) :
    Enabled (airohaQdmaStop q s) := by
  obtain ⟨-, htx, hrx⟩ := h q
  rw [stop_eq]
  have h0 : 0 ≤ (s.qdma q).stopped.users := by
    rw [users_stopped]
    omega
  refine h.setQdma h0 ?_ ?_ <;> unfold Qdma.stopped <;> split_ifs with hlast
  · simp only [htx, hq, true_iff]
    omega
  · simp only [false_iff]
    omega
  · simp only [hrx, hq, true_iff]
    omega
  · simp only [false_iff]
    omega

end StartStop

/-! ## What a call leaves in the devices -/

section Devices

variable {δ : Type} [DecidableEq δ] {s : Eth δ} {d : δ}

@[simp] theorem dev_setDev (v : GdmDev) : (s.setDev d v).dev = Function.update s.dev d v := rfl
@[simp] theorem qdma_setDev (v : GdmDev) : (s.setDev d v).qdma = s.qdma := rfl
@[simp] theorem loopedBack_setDev (v : GdmDev) : (s.setDev d v).loopedBack = s.loopedBack := rfl

omit [DecidableEq δ] in
theorem uses_of_dev {s' : Eth δ} (h : s'.dev = s.dev) : s'.uses = s.uses := by
  unfold Eth.uses
  rw [h]

theorem uses_setDev (v : GdmDev) :
    (s.setDev d v).uses = Function.update s.uses d (if v.running then v.qdma else none) := by
  funext e
  by_cases h : e = d
  · subst h
    simp [Eth.uses]
  · simp [Eth.uses, h]

/-- `airoha_dev_set_qdma` writes the pointer of its device. -/
theorem dev_devSetQdma : (airohaDevSetQdma d s).dev =
    Function.update s.dev d { s.dev d with qdma := some (qdmaOf (s.dev d).wan) } := by
  unfold airohaDevSetQdma
  cases (s.dev d).qdma <;> cases h : (s.dev d).running <;> simp [h]

theorem loopedBack_devSetQdma : (airohaDevSetQdma d s).loopedBack = s.loopedBack := by
  unfold airohaDevSetQdma
  cases (s.dev d).qdma <;> cases h : (s.dev d).running <;> simp [h]

/-- A device with a role and the QDMA that goes with it. -/
def GdmDev.withRole (v : GdmDev) (wan : Bool) : GdmDev :=
  { v with wan := wan, qdma := some (qdmaOf wan) }

/-- A role given or taken. -/
def Eth.setRole (s : Eth δ) (d : δ) (wan : Bool) : Eth δ := airohaDevSetQdma d (s.setWan d wan)

theorem dev_setRole (wan : Bool) :
    (s.setRole d wan).dev = Function.update s.dev d ((s.dev d).withRole wan) := by
  rw [Eth.setRole, dev_devSetQdma]
  simp [Eth.setWan, GdmDev.withRole]

theorem loopedBack_setRole (wan : Bool) : (s.setRole d wan).loopedBack = s.loopedBack :=
  loopedBack_devSetQdma

omit [DecidableEq δ] in
theorem dev_disableLoopback (sport : Int) : (airohaDisableGdm2Loopback sport s).2.dev = s.dev := by
  unfold airohaDisableGdm2Loopback
  split_ifs <;> rfl

end Devices

/-! ## Users -/

section Users

variable {δ : Type} [DecidableEq δ] {b : Board δ} {s s' : Eth δ} {d : δ}

/-- The users are counted right, and the DMA follows them. -/
structure Balanced (b : Board δ) (s : Eth δ) : Prop where
  counted : Counted b.devs s.uses fun q => (s.qdma q).users
  enabled : Enabled s

omit [DecidableEq δ] in
theorem balanced_iff : Balanced b s ↔ (∀ q, (s.qdma q).users = s.usersOf b q) ∧
    ∀ q, ((s.qdma q).txDmaEn = true ↔ 0 < s.usersOf b q) ∧
      ((s.qdma q).rxDmaEn = true ↔ 0 < s.usersOf b q) := by
  constructor
  · intro h
    have hu : ∀ q, (s.qdma q).users = s.usersOf b q := h.counted
    refine ⟨hu, ?_⟩
    intro q
    have hq := h.enabled q
    rw [hu q, Int.natCast_pos] at hq
    exact hq.2
  · intro h
    refine ⟨h.1, ?_⟩
    intro q
    rw [h.1 q, Int.natCast_pos]
    exact ⟨Int.natCast_nonneg _, h.2 q⟩

omit [DecidableEq δ] in
/-- Nothing but what is used and the QDMA blocks counts. -/
theorem Balanced.congr (h : Balanced b s) (huses : s'.uses = s.uses) (hqdma : s'.qdma = s.qdma) :
    Balanced b s' := by
  constructor
  · rw [huses, hqdma]
    exact h.counted
  · unfold Enabled
    rw [hqdma]
    exact h.enabled

/-- A device that is written without a change of what it uses. -/
theorem Balanced.setDev (h : Balanced b s) {v : GdmDev}
    (hv : (if v.running then v.qdma else none) = s.uses d) : Balanced b (s.setDev d v) := by
  refine h.congr ?_ rfl
  rw [uses_setDev, hv, Function.update_eq_self]

omit [DecidableEq δ] in
/-- A running device is one of the users of its QDMA. -/
theorem Balanced.users_pos (h : Balanced b s) {q : Fin 2} (hd : s.uses d = some q) :
    0 < (s.qdma q).users := by
  have hc : (s.qdma q).users = (holders b.devs s.uses q : Int) := h.counted q
  rw [hc, Int.natCast_pos, holders, List.countP_pos_iff]
  exact ⟨d, b.complete d, by simp [hd]⟩

/-- A device that begins to use a QDMA. -/
theorem Balanced.start (h : Balanced b s) {q : Fin 2} {v : GdmDev} (hd : s.uses d = none)
    (hv : (if v.running then v.qdma else none) = some q) :
    Balanced b (airohaQdmaStart q (s.setDev d v)) := by
  constructor
  · have huses : (airohaQdmaStart q (s.setDev d v)).uses = Function.update s.uses d (some q) := by
      rw [← hv]
      exact uses_setDev v
    rw [huses]
    refine h.counted.update b.nodup (b.complete d) (some q) ?_
    intro r
    simp [users_start, hd]
  · exact Enabled.start (s := s.setDev d v) h.enabled

/-- A device that uses one no more. -/
theorem Balanced.stop (h : Balanced b s) {q : Fin 2} {v : GdmDev} (hd : s.uses d = some q)
    (hv : (if v.running then v.qdma else none) = none) :
    Balanced b (airohaQdmaStop q (s.setDev d v)) := by
  constructor
  · have huses : (airohaQdmaStop q (s.setDev d v)).uses = Function.update s.uses d none := by
      rw [uses_of_dev dev_stop, uses_setDev, hv]
    rw [huses]
    refine h.counted.update b.nodup (b.complete d) none ?_
    intro r
    simp [users_stop, hd]
  · exact Enabled.stop (s := s.setDev d v) h.enabled (h.users_pos hd)

/-- A device that goes from one QDMA to another: counted on both for a while. -/
theorem Balanced.devSetQdma (h : Balanced b s)
    (hq : (s.dev d).running = true → (s.dev d).qdma ≠ none) :
    Balanced b (airohaDevSetQdma d s) := by
  cases hrun : (s.dev d).running with
  | false =>
    have hset : airohaDevSetQdma d s =
        s.setDev d { s.dev d with qdma := some (qdmaOf (s.dev d).wan) } := by
      unfold airohaDevSetQdma
      cases (s.dev d).qdma <;> simp [hrun]
    rw [hset]
    refine h.setDev ?_
    simp [Eth.uses, hrun]
  | true =>
    obtain ⟨cur, hcur⟩ := Option.ne_none_iff_exists'.mp (hq hrun)
    have hset : airohaDevSetQdma d s = airohaQdmaStop cur
        ((airohaQdmaStart (qdmaOf (s.dev d).wan) s).setDev d
          { s.dev d with qdma := some (qdmaOf (s.dev d).wan) }) := by
      unfold airohaDevSetQdma
      simp [hrun, hcur]
    have hd : s.uses d = some cur := by simp [Eth.uses, hrun, hcur]
    rw [hset]
    constructor
    · have huses : (airohaQdmaStop cur ((airohaQdmaStart (qdmaOf (s.dev d).wan) s).setDev d
          { s.dev d with qdma := some (qdmaOf (s.dev d).wan) })).uses =
          Function.update s.uses d (some (qdmaOf (s.dev d).wan)) := by
        rw [uses_of_dev dev_stop, uses_setDev, uses_of_dev dev_start, if_pos hrun]
      rw [huses]
      refine h.counted.update b.nodup (b.complete d) _ ?_
      intro r
      rw [users_stop, qdma_setDev, users_start, hd]
      ring
    · refine Enabled.stop (h.enabled.start (q := qdmaOf (s.dev d).wan)) ?_
      have hpos := h.users_pos hd
      rw [qdma_setDev, users_start]
      unfold share
      split_ifs <;> omega

/-! ## Roles -/

/-- The WAN, and only it, is on QDMA1. -/
structure Roled (s : Eth δ) : Prop where
  oneWan : ∀ d e, (s.dev d).wan = true → (s.dev e).wan = true → d = e
  onQdma : ∀ d, (s.dev d).qdma = some (qdmaOf (s.dev d).wan)

omit [DecidableEq δ] in
theorem consistent_iff : Consistent b s ↔ Balanced b s ∧ Roled s := by
  rw [balanced_iff]
  constructor
  · intro h
    exact ⟨⟨h.users, h.dma⟩, h.oneWan, h.onQdma⟩
  · intro h
    exact ⟨h.1.1, h.1.2, h.2.oneWan, h.2.onQdma⟩

omit [DecidableEq δ] in
theorem Consistent.congr (h : Consistent b s) (hdev : s'.dev = s.dev) (hqdma : s'.qdma = s.qdma) :
    Consistent b s' := by
  obtain ⟨hb, hr⟩ := consistent_iff.mp h
  refine consistent_iff.mpr ⟨hb.congr (uses_of_dev hdev) hqdma, ?_, ?_⟩
  · rw [hdev]
    exact hr.oneWan
  · rw [hdev]
    exact hr.onQdma

/-- A device that is written without a change of its role. -/
theorem Roled.setDev (h : Roled s) {v : GdmDev} (hwan : v.wan = (s.dev d).wan)
    (hqdma : v.qdma = (s.dev d).qdma) {s' : Eth δ} (hs' : s'.dev = Function.update s.dev d v) :
    Roled s' := by
  have hdev : ∀ e, (s'.dev e).wan = (s.dev e).wan ∧ (s'.dev e).qdma = (s.dev e).qdma := by
    intro e
    rw [hs']
    by_cases he : e = d
    · subst he
      simp [hwan, hqdma]
    · simp [he]
  constructor
  · intro d e hd he
    rw [(hdev d).1] at hd
    rw [(hdev e).1] at he
    exact h.oneWan d e hd he
  · intro e
    rw [(hdev e).2, (hdev e).1]
    exact h.onQdma e

/-- A role can be taken, and be given when no other device has it. -/
theorem Consistent.setRole (h : Consistent b s) {wan : Bool}
    (hfree : wan = true → ∀ e, e ≠ d → (s.dev e).wan = false) : Consistent b (s.setRole d wan) := by
  obtain ⟨hb, hr⟩ := consistent_iff.mp h
  refine consistent_iff.mpr ⟨?_, ?_, ?_⟩
  · refine Balanced.devSetQdma (hb.setDev ?_) ?_
    · rfl
    · intro _
      simp [Eth.setWan, hr.onQdma d]
  · have hother : wan = true → ∀ e, (((s.setRole d wan).dev e).wan = true) → e = d := by
      intro hw e he
      by_contra hne
      rw [dev_setRole, Function.update_of_ne hne, hfree hw e hne] at he
      cases he
    intro e f he hf
    cases wan with
    | true => rw [hother rfl e he, hother rfl f hf]
    | false =>
      have hne : ∀ g, ((s.setRole d false).dev g).wan = true → g ≠ d ∧ (s.dev g).wan = true := by
        intro g hg
        rw [dev_setRole] at hg
        by_cases hgd : g = d
        · subst hgd
          simp [GdmDev.withRole] at hg
        · rw [Function.update_of_ne hgd] at hg
          exact ⟨hgd, hg⟩
      exact hr.oneWan e f (hne e he).2 (hne f hf).2
  · intro e
    rw [dev_setRole]
    by_cases he : e = d
    · subst he
      simp [GdmDev.withRole]
    · simp [he, hr.onQdma e]

omit [DecidableEq δ] in
theorem Consistent.disableLoopback (h : Consistent b s) (sport : Int) :
    Consistent b (airohaDisableGdm2Loopback sport s).2 := by
  unfold airohaDisableGdm2Loopback
  split_ifs
  · exact h
  · exact h.congr rfl rfl

theorem Consistent.setQos (h : Consistent b s) (qos : Bool) :
    Consistent b (s.setDev d { s.dev d with qos := qos }) := by
  obtain ⟨hb, hr⟩ := consistent_iff.mp h
  refine consistent_iff.mpr ⟨hb.setDev rfl, ?_⟩
  exact hr.setDev (d := d) (v := { s.dev d with qos := qos }) rfl rfl rfl

/-! ## Each call -/

omit [DecidableEq δ] in
theorem find_wan {w : δ} (h : airohaGetWanGdmDev b s = some w) : (s.dev w).wan = true := by
  unfold airohaGetWanGdmDev at h
  simpa using List.find?_some h

omit [DecidableEq δ] in
theorem wan_of_find_none (h : airohaGetWanGdmDev b s = none) (e : δ) : (s.dev e).wan = false := by
  have he := List.find?_eq_none.mp h e (b.complete e)
  simpa using he

/-- The device that had the role is the only one. -/
theorem wan_demoted (h : Consistent b s) {w : δ} (hw : airohaGetWanGdmDev b s = some w) (e : δ) :
    ((s.setRole w false).dev e).wan = false := by
  rw [dev_setRole]
  by_cases he : e = w
  · subst he
    simp [GdmDev.withRole]
  · rw [Function.update_of_ne he]
    cases hwan : (s.dev e).wan with
    | false => rfl
    | true => exact absurd (h.oneWan e w hwan (find_wan hw)) he

/-- A device of GDM3 or GDM4 that loses the role. -/
theorem disableQos_eq {w : δ} (hw : isGdm34 b w = true) (sport : Int) :
    airohaDisableQosForGdm34 b sport w s =
      (airohaDisableGdm2Loopback sport s).2.setRole w false := by
  simp [airohaDisableQosForGdm34, hw, Eth.setRole]

/-- Consistent, and GDM1 is no WAN. -/
structure RolesInv (b : Board δ) (s : Eth δ) : Prop where
  consistent : Consistent b s
  notGdm1 : ∀ d, (s.dev d).wan = true → b.portId d ≠ .gdm1

omit [DecidableEq δ] in
/-- The role goes to devices of GDM3 and GDM4 only. -/
theorem notGdm1_of_dev (h : ∀ d, (s.dev d).wan = true → b.portId d ≠ .gdm1)
    (hs' : ∀ d, (s'.dev d).wan = true → (s.dev d).wan = true ∨ isGdm34 b d = true) :
    ∀ d, (s'.dev d).wan = true → b.portId d ≠ .gdm1 := by
  intro d hd
  rcases hs' d hd with hwan | h34
  · exact h d hwan
  · intro h1
    simp [isGdm34, h1] at h34

omit [DecidableEq δ] in
theorem isGdm34_of_wan (h : RolesInv b s) {w : δ} (hw : (s.dev w).wan = true)
    (h2 : b.portId w ≠ .gdm2) : isGdm34 b w = true := by
  have h1 := h.notGdm1 w hw
  unfold isGdm34
  cases hp : b.portId w <;> simp_all

/-- The device has the role, and is looped back. -/
def promoted (s : Eth δ) (d : δ) : Eth δ := { s.setRole d true with lpbkEn := true, wan0 := some d }

theorem promote_eq (x : CreateAnswers) (d : δ) : promote x d s =
    if x.sport < 0 then (x.sport, errorDisableWan d (s.setRole d true))
    else if x.macaddr = 0 then (0, promoted s d)
    else (x.macaddr,
      errorDisableWan d (airohaDisableGdm2Loopback x.undoSport (promoted s d)).2) := by
  by_cases hsport : x.sport < 0
  · have hne : x.sport ≠ 0 := by omega
    simp [promote, airohaEnableGdm2Loopback, hsport, hne, Eth.setRole]
  · by_cases hmac : x.macaddr = 0 <;>
      simp [promote, airohaEnableGdm2Loopback, hsport, hmac, Eth.setRole, promoted]

theorem dev_errorDisableWan (h : s'.dev = (s.setRole d true).dev) :
    (errorDisableWan d s').dev = Function.update s.dev d ((s.dev d).withRole false) := by
  have hrole : (errorDisableWan d s').dev = Function.update s'.dev d ((s'.dev d).withRole false) :=
    dev_setRole false
  rw [hrole, h, dev_setRole, Function.update_idem, Function.update_self]
  rfl

theorem ret_promote (x : CreateAnswers) (d : δ) :
    (promote x d s).1 = 0 ↔ 0 ≤ x.sport ∧ x.macaddr = 0 := by
  rw [promote_eq]
  split_ifs with hsport hmac
  · show x.sport = 0 ↔ _
    omega
  · simpa [hmac] using hsport
  · simp [hmac]

/-- What a promotion leaves of the devices. -/
theorem dev_promote (x : CreateAnswers) (d : δ) : (promote x d s).2.dev =
    Function.update s.dev d ((s.dev d).withRole (decide ((promote x d s).1 = 0))) := by
  have hret := ret_promote x d (s := s)
  cases hw : decide ((promote x d s).1 = 0) with
  | true =>
    have hok := hret.mp (of_decide_eq_true hw)
    rw [promote_eq, if_neg (by omega), if_pos hok.2]
    exact dev_setRole true
  | false =>
    have hfail := mt hret.mpr (of_decide_eq_false hw)
    rw [promote_eq]
    split_ifs with hsport hmac
    · exact dev_errorDisableWan rfl
    · exact absurd ⟨by omega, hmac⟩ hfail
    · exact dev_errorDisableWan (dev_disableLoopback x.undoSport)

/-- What a promotion that fails leaves of the loopback. -/
theorem loopedBack_promote (x : CreateAnswers) (d : δ) (hfail : (promote x d s).1 ≠ 0) :
    (promote x d s).2.loopedBack =
      if x.sport < 0 then s.loopedBack else if x.undoSport < 0 then some d else none := by
  have hundo : ∀ {s' : Eth δ}, (errorDisableWan d s').loopedBack = s'.loopedBack :=
    loopedBack_setRole false
  rw [promote_eq] at hfail ⊢
  by_cases hsport : x.sport < 0
  · rw [if_pos hsport, if_pos hsport]
    exact hundo.trans (loopedBack_setRole true)
  · rw [if_neg hsport] at hfail ⊢
    rw [if_neg hsport]
    by_cases hmac : x.macaddr = 0
    · rw [if_pos hmac] at hfail
      exact absurd rfl hfail
    · rw [if_neg hmac, hundo, airohaDisableGdm2Loopback]
      split_ifs <;> rfl

/-! ## Each call -/

/-- The ways through `airoha_enable_qos_for_gdm34`. -/
inductive EnableCase (b : Board δ) (x : CreateAnswers) (d : δ) (s : Eth δ) :
    Int × Eth δ → Prop where
  | idle (h : isGdm34 b d = false ∨ (s.dev d).wan = true) : EnableCase b x d s (0, s)
  | refused (w : δ) (hw : airohaGetWanGdmDev b s = some w)
      (h : (s.dev w).qos = true ∨ b.portId w = .gdm2) (h34 : isGdm34 b d = true)
      (hlan : (s.dev d).wan = false) : EnableCase b x d s (-16, s)
  | taken (w : δ) (hw : airohaGetWanGdmDev b s = some w) (hqos : (s.dev w).qos = false)
      (h2 : b.portId w ≠ .gdm2) (h34 : isGdm34 b d = true) (hlan : (s.dev d).wan = false) :
      EnableCase b x d s (promote x d (airohaDisableQosForGdm34 b x.wanSport w s))
  | given (hw : airohaGetWanGdmDev b s = none) (h34 : isGdm34 b d = true)
      (hlan : (s.dev d).wan = false) : EnableCase b x d s (promote x d s)

theorem enableQos_cases (b : Board δ) (x : CreateAnswers) (d : δ) (s : Eth δ) :
    EnableCase b x d s (airohaEnableQosForGdm34 b x d s) := by
  unfold airohaEnableQosForGdm34
  cases h34 : isGdm34 b d with
  | false => exact EnableCase.idle (Or.inl h34)
  | true =>
    cases hlan : (s.dev d).wan with
    | true => exact EnableCase.idle (Or.inr hlan)
    | false =>
      cases hw : airohaGetWanGdmDev b s with
      | none => exact EnableCase.given hw h34 hlan
      | some w =>
        by_cases h : (s.dev w).qos = true ∨ b.portId w = .gdm2
        · have hif : ((s.dev w).qos || decide (b.portId w = .gdm2)) = true := by simpa using h
          simp only [Bool.not_true, Bool.false_eq_true, if_false, hif, if_true]
          exact EnableCase.refused w hw h h34 hlan
        · have hif : ((s.dev w).qos || decide (b.portId w = .gdm2)) = false := by simpa using h
          obtain ⟨hqos, h2⟩ := not_or.mp h
          simp only [Bool.not_true, Bool.false_eq_true, if_false, hif]
          exact EnableCase.taken w hw (by simpa using hqos) h2 h34 hlan

theorem Consistent.promote (h : Consistent b s) (hnone : ∀ e, (s.dev e).wan = false)
    (x : CreateAnswers) (d : δ) : Consistent b (promote x d s).2 := by
  have hwan : Consistent b (s.setRole d true) := h.setRole fun _ e _ => hnone e
  have hundo : ∀ {s' : Eth δ}, Consistent b s' → Consistent b (errorDisableWan d s') := by
    intro s' h'
    have hrole : Consistent b (s'.setRole d false) := h'.setRole (by simp)
    exact hrole
  have hloop : Consistent b (promoted s d) := hwan.congr rfl rfl
  rw [promote_eq]
  split_ifs
  · exact hundo hwan
  · exact hloop
  · exact hundo (hloop.disableLoopback x.undoSport)

/-- The state the device that loses the role leaves. -/
theorem demoted (h : RolesInv b s) {w : δ} (hw : airohaGetWanGdmDev b s = some w)
    (h2 : b.portId w ≠ .gdm2) (sport : Int) :
    Consistent b (airohaDisableQosForGdm34 b sport w s) ∧
      (airohaDisableQosForGdm34 b sport w s).dev =
        Function.update s.dev w ((s.dev w).withRole false) ∧
      ∀ e, ((airohaDisableQosForGdm34 b sport w s).dev e).wan = false := by
  have hdev : (airohaDisableQosForGdm34 b sport w s).dev =
      Function.update s.dev w ((s.dev w).withRole false) := by
    rw [disableQos_eq (isGdm34_of_wan h (find_wan hw) h2), dev_setRole, dev_disableLoopback]
  refine ⟨?_, hdev, ?_⟩
  · rw [disableQos_eq (isGdm34_of_wan h (find_wan hw) h2)]
    exact (h.consistent.disableLoopback sport).setRole (by simp)
  · intro e
    rw [hdev, ← dev_setRole]
    exact wan_demoted h.consistent hw e

theorem RolesInv.enableQos (h : RolesInv b s) (x : CreateAnswers) (d : δ) :
    RolesInv b (airohaEnableQosForGdm34 b x d s).2 := by
  have hcases := enableQos_cases b x d s
  generalize airohaEnableQosForGdm34 b x d s = r at hcases
  cases hcases with
  | idle => exact h
  | refused => exact h
  | taken w hw _ h2 h34 hlan =>
    obtain ⟨hc, hdev, hnone⟩ := demoted h hw h2 x.wanSport
    refine ⟨hc.promote hnone x d, ?_⟩
    refine notGdm1_of_dev h.notGdm1 ?_
    intro e he
    rw [dev_promote] at he
    by_cases hed : e = d
    · subst hed
      exact Or.inr h34
    · rw [Function.update_of_ne hed, hnone e] at he
      cases he
  | given hw h34 hlan =>
    refine ⟨h.consistent.promote (wan_of_find_none hw) x d, ?_⟩
    refine notGdm1_of_dev h.notGdm1 ?_
    intro e he
    rw [dev_promote] at he
    by_cases hed : e = d
    · subst hed
      exact Or.inr h34
    · rw [Function.update_of_ne hed] at he
      exact Or.inl he

/-- Writing the flag QOS. -/
theorem RolesInv.setQos (h : RolesInv b s) (qos : Bool) :
    RolesInv b (s.setDev d { s.dev d with qos := qos }) := by
  refine ⟨h.consistent.setQos qos, notGdm1_of_dev h.notGdm1 ?_⟩
  intro e he
  by_cases hed : e = d
  · subst hed
    exact Or.inl (by simpa using he)
  · exact Or.inl (by simpa [hed] using he)

theorem RolesInv.create (h : RolesInv b s) (x : CreateAnswers) (d : δ) :
    RolesInv b (tcHtbCreate b x d s).2 := by
  simp only [tcHtbCreate]
  split_ifs
  · exact h.enableQos x d
  · exact (h.enableQos x d).setQos true

/-- A call that leaves the roles alone. -/
theorem RolesInv.of_balanced (h : RolesInv b s) (running : Bool)
    (hdev : s'.dev = Function.update s.dev d { s.dev d with running := running })
    (hb : Balanced b s') : RolesInv b s' := by
  obtain ⟨-, hr⟩ := consistent_iff.mp h.consistent
  have hrole : Roled s' :=
    hr.setDev (d := d) (v := { s.dev d with running := running }) rfl rfl hdev
  refine ⟨consistent_iff.mpr ⟨hb, hrole⟩, notGdm1_of_dev h.notGdm1 ?_⟩
  intro e he
  rw [hdev] at he
  by_cases hed : e = d
  · subst hed
    exact Or.inl (by simpa using he)
  · exact Or.inl (by simpa [hed] using he)

theorem setRunning_back (hrun : (s.dev d).running = false) :
    (s.setRunning d true).setRunning d false = s := by
  have hv : ({ s.dev d with running := false } : GdmDev) = s.dev d := by rw [← hrun]
  simp [Eth.setRunning, Eth.setDev, Function.update_idem, hv]

/-- An open that fails leaves the state, one that does not counts the device. -/
theorem open_eq (x : OpenAnswers) {q : Fin 2} (hrun : (s.dev d).running = false)
    (hq : (s.dev d).qdma = some q) :
    (devOpen x d s).2 = s ∨ (devOpen x d s).2 = airohaQdmaStart q (s.setRunning d true) := by
  have hup : ((s.setRunning d true).dev d).qdma = some q := by simp [Eth.setRunning, hq]
  simp only [devOpen, hrun, Bool.false_eq_true, if_false, airohaDevOpen, hup]
  by_cases hbusy : ((s.setRunning d true).qdma q).users ≠ 0 ∧ x.lroEnabled = true
  · simp [hbusy, setRunning_back hrun]
  · rw [if_neg hbusy]
    by_cases herr : x.err = 0
    · simp [herr]
    · simp [herr, setRunning_back hrun]

/-- A device that is brought up. -/
theorem RolesInv.open (h : RolesInv b s) (x : OpenAnswers) (d : δ) :
    RolesInv b (devOpen x d s).2 := by
  obtain ⟨hb, hr⟩ := consistent_iff.mp h.consistent
  cases hrun : (s.dev d).running with
  | true => simpa [devOpen, hrun] using h
  | false =>
    rcases open_eq x hrun (hr.onQdma d) with hs | hs
    · rw [hs]
      exact h
    · rw [hs]
      refine h.of_balanced (d := d) true rfl ?_
      refine hb.start ?_ ?_
      · simp [Eth.uses, hrun]
      · simp [hr.onQdma d]

/-- A device that is brought down. -/
theorem RolesInv.stop (h : RolesInv b s) (d : δ) : RolesInv b (devStop d s) := by
  obtain ⟨hb, hr⟩ := consistent_iff.mp h.consistent
  unfold devStop
  cases hrun : (s.dev d).running with
  | false => exact h
  | true =>
    have hdown : ((s.setRunning d false).dev d).qdma = some (qdmaOf (s.dev d).wan) := by
      simp [Eth.setRunning, hr.onQdma d]
    simp only [if_true, airohaDevStop, hdown]
    refine h.of_balanced (d := d) false ?_ ?_
    · rw [dev_stop]
      rfl
    · refine hb.stop ?_ ?_
      · simp [Eth.uses, hrun, hr.onQdma d]
      · simp

/-- Every call keeps roles and users together. -/
theorem RolesInv.step (h : RolesInv b s) (op : Op δ) : RolesInv b (s.step b op).2 := by
  cases op with
  | ndoOpen d x => exact h.open x d
  | ndoStop d => exact h.stop d
  | htbCreate d x => exact h.create x d
  | htbDestroy d => exact h.setQos false

end Users

end Airoha.Gdm
