/-
Airoha.Gdm.RolesKept — the roles after registration, and what a CREATE that fails
leaves of them.

`RolesInv.register`: once every device is registered, roles and users belong
together. `create_kept_iff`: a CREATE that fails leaves the roles as they were
unless another device of GDM3 or GDM4 lost its role to it, or the loopback it
switches off again was not off before.
-/
import Airoha.Gdm.RolesRuns

namespace Airoha.Gdm

open Airoha.Lib

section Kept

variable {δ : Type} [DecidableEq δ] {b : Board δ} {s s' : Eth δ} {d : δ}

/-! ## Registration -/

/-- The role `airoha_dev_init` gives. -/
def firstRole (b : Board δ) (d : δ) (s : Eth δ) : Bool :=
  match b.portId d with
  | .gdm3 | .gdm4 => (airohaGetWanGdmDev b s).isNone
  | .gdm2 => true
  | .gdm1 => false

/-- A device that is registered for the first time gets its role and its QDMA. -/
theorem devInit_eq (hwan : (s.dev d).wan = false) (sport : Int) :
    airohaDevInit b sport d s =
      if firstRole b d s && isGdm34 b d then
        airohaEnableGdm2Loopback sport d (s.setRole d (firstRole b d s))
      else (0, s.setRole d (firstRole b d s)) := by
  have hset : (if firstRole b d s then s.setWan d true else s) = s.setWan d (firstRole b d s) := by
    cases firstRole b d s with
    | true => rfl
    | false =>
      have hv : ({ s.dev d with wan := false } : GdmDev) = s.dev d := by rw [← hwan]
      simp [Eth.setWan, Eth.setDev, hv]
  have hrole : ((s.setRole d (firstRole b d s)).dev d).wan = firstRole b d s := by
    simp [dev_setRole, GdmDev.withRole]
  have hdef : airohaDevInit b sport d s =
      (let s' := airohaDevSetQdma d (if firstRole b d s then s.setWan d true else s)
        if (s'.dev d).wan && isGdm34 b d then airohaEnableGdm2Loopback sport d s'
        else (0, s')) := rfl
  rw [hdef, hset, ← Eth.setRole]
  simp only [hrole]

/-- While devices are registered: `rest` are those still to come, and none of the others has a
later port. -/
structure Registering (b : Board δ) (rest : List δ) (s : Eth δ) : Prop where
  before : ∀ d, d ∉ rest → ∀ e ∈ rest, (b.portId d).toNat ≤ (b.portId e).toNat
  idle : s.qdma = fun _ => { users := 0, txDmaEn := false, rxDmaEn := false }
  down : ∀ d, (s.dev d).running = false
  fresh : ∀ d ∈ rest, (s.dev d).wan = false ∧ (s.dev d).qdma = none
  onQdma : ∀ d, d ∉ rest → (s.dev d).qdma = some (qdmaOf (s.dev d).wan)
  oneWan : ∀ d e, (s.dev d).wan = true → (s.dev e).wan = true → d = e
  wanPort : ∀ d, (s.dev d).wan = true → b.portId d ≠ .gdm1

omit [DecidableEq δ] in
theorem registering_reset : Registering b b.devs (Eth.reset : Eth δ) where
  before := fun d hd => absurd (b.complete d) hd
  idle := rfl
  down := fun _ => rfl
  fresh := fun _ _ => ⟨rfl, rfl⟩
  onQdma := fun d hd => absurd (b.complete d) hd
  oneWan := fun _ _ hd => by cases hd
  wanPort := fun _ hd => by cases hd

omit [DecidableEq δ] in
/-- A device gets the role only while no other has it. -/
theorem wan_free {rest : List δ} (h : Registering b rest s) (hd : d ∈ rest)
    (hrole : firstRole b d s = true) (e : δ) : (s.dev e).wan = false := by
  unfold firstRole at hrole
  cases hp : b.portId d with
  | gdm1 => simp [hp] at hrole
  | gdm2 =>
    by_contra hwan
    rw [Bool.not_eq_false] at hwan
    have hold : e ∉ rest := by
      intro he
      rw [(h.fresh e he).1] at hwan
      cases hwan
    -- registered before GDM2 are the devices of GDM1 only
    have hle := h.before e hold d hd
    have he2 : b.portId e = .gdm2 := by
      have hne := h.wanPort e hwan
      cases hpe : b.portId e <;> simp_all [GdmIdx.toNat]
    rw [b.gdm2Single e d he2 hp] at hold
    exact hold hd
  | gdm3 =>
    simp only [hp, Option.isNone_iff_eq_none] at hrole
    exact wan_of_find_none hrole e
  | gdm4 =>
    simp only [hp, Option.isNone_iff_eq_none] at hrole
    exact wan_of_find_none hrole e

omit [DecidableEq δ] in
theorem firstRole_port (hrole : firstRole b d s = true) : b.portId d ≠ .gdm1 := by
  intro h1
  unfold firstRole at hrole
  rw [h1] at hrole
  cases hrole

/-- One device more. -/
theorem Registering.setRole {rest : List δ} (h : Registering b (d :: rest) s) (hl : d ∉ rest)
    (hle : ∀ e ∈ rest, (b.portId d).toNat ≤ (b.portId e).toNat)
    (hs : s' = s.setRole d (firstRole b d s)) : Registering b rest s' := by
  have hmem : d ∈ d :: rest := List.mem_cons_self
  obtain ⟨hwan, hqdma⟩ := h.fresh d hmem
  have hdev : ∀ e, e ≠ d → s'.dev e = s.dev e := by
    intro e he
    rw [hs, dev_setRole, Function.update_of_ne he]
  have hself : s'.dev d = (s.dev d).withRole (firstRole b d s) := by
    rw [hs, dev_setRole, Function.update_self]
  constructor
  · intro c hc e he
    by_cases hcd : c = d
    · subst hcd
      exact hle e he
    · exact h.before c (by simp [hcd, hc]) e (List.mem_cons_of_mem d he)
  · rw [hs, ← h.idle, Eth.setRole, airohaDevSetQdma]
    simp [Eth.setWan, h.down d, hqdma]
  · intro e
    by_cases he : e = d
    · subst he
      rw [hself]
      exact h.down e
    · rw [hdev e he]
      exact h.down e
  · intro e he
    have hne : e ≠ d := by
      intro heq
      exact hl (heq ▸ he)
    rw [hdev e hne]
    exact h.fresh e (List.mem_cons_of_mem d he)
  · intro e he
    by_cases hed : e = d
    · subst hed
      rw [hself]
      rfl
    · rw [hdev e hed]
      exact h.onQdma e (by simp [hed, he])
  · intro e f he hf
    cases hrole : firstRole b d s with
    | false =>
      have hold : ∀ g, (s'.dev g).wan = true → (s.dev g).wan = true := by
        intro g hg
        by_cases hgd : g = d
        · subst hgd
          rw [hself, hrole] at hg
          cases hg
        · rwa [hdev g hgd] at hg
      exact h.oneWan e f (hold e he) (hold f hf)
    | true =>
      have honly : ∀ g, (s'.dev g).wan = true → g = d := by
        intro g hg
        by_contra hgd
        rw [hdev g hgd, wan_free h hmem hrole g] at hg
        cases hg
      rw [honly e he, honly f hf]
  · intro e he
    by_cases hed : e = d
    · subst hed
      rw [hself] at he
      exact firstRole_port he
    · rw [hdev e hed] at he
      exact h.wanPort e he

omit [DecidableEq δ] in
/-- The loopback is no part of it. -/
theorem Registering.congr {rest : List δ} (h : Registering b rest s) (hdev : s'.dev = s.dev)
    (hqdma : s'.qdma = s.qdma) : Registering b rest s' := by
  constructor
  · exact h.before
  · rw [hqdma]
    exact h.idle
  all_goals rw [hdev]
  · exact h.down
  · exact h.fresh
  · exact h.onQdma
  · exact h.oneWan
  · exact h.wanPort

theorem Registering.devInit {rest : List δ} (h : Registering b (d :: rest) s) (hl : d ∉ rest)
    (hle : ∀ e ∈ rest, (b.portId d).toNat ≤ (b.portId e).toNat) (sport : Int) :
    Registering b rest (airohaDevInit b sport d s).2 := by
  have hrole := h.setRole hl hle rfl
  rw [devInit_eq (h.fresh d List.mem_cons_self).1]
  split_ifs
  · unfold airohaEnableGdm2Loopback
    split_ifs
    · exact hrole
    · exact hrole.congr rfl rfl
  · exact hrole

/-- The whole loop, by induction over the devices to come. -/
theorem Registering.register (sport : δ → Int) {rest : List δ} (h : Registering b rest s)
    (hl : rest.Nodup) (ho : rest.Pairwise fun d e => (b.portId d).toNat ≤ (b.portId e).toNat)
    (hs : airohaRegisterGdmDevices b sport rest s = some s') : Registering b [] s' := by
  induction rest generalizing s with
  | nil =>
    cases hs
    exact h
  | cons d rest ih =>
    obtain ⟨hd, hrest⟩ := List.nodup_cons.mp hl
    obtain ⟨hle, hordered⟩ := List.pairwise_cons.mp ho
    simp only [airohaRegisterGdmDevices] at hs
    split_ifs at hs
    exact ih (h.devInit hd hle (sport d)) hrest hordered hs

omit [DecidableEq δ] in
/-- Once all are registered, roles and users belong together. -/
theorem Registering.rolesInv (h : Registering b [] s) : RolesInv b s := by
  have huses : s.uses = fun _ => none := by
    funext e
    simp [Eth.uses, h.down e]
  refine ⟨consistent_iff.mpr ⟨⟨?_, ?_⟩, h.oneWan, fun e => h.onQdma e (by simp)⟩, ?_⟩
  · intro q
    simp [h.idle, huses, holders]
  · intro q
    simp [h.idle]
  · intro e he h1
    exact h.wanPort e he h1

theorem RolesInv.register (sport : δ → Int)
    (hs : airohaRegisterGdmDevices b sport b.devs Eth.reset = some s) : RolesInv b s :=
  (registering_reset.register sport b.nodup b.ordered hs).rolesInv

/-! ## A CREATE that fails -/

omit [DecidableEq δ] in
theorem SameRoles.refl (s : Eth δ) : SameRoles s s := ⟨fun _ => ⟨rfl, rfl, rfl⟩, rfl⟩

/-- Only the choice of the WAN can fail. -/
theorem kept_create (x : CreateAnswers) : Kept s (.htbCreate d x) (tcHtbCreate b x d s) ↔
    ((airohaEnableQosForGdm34 b x d s).1 ≠ 0 →
      SameRoles s (airohaEnableQosForGdm34 b x d s).2) := by
  simp only [Kept, tcHtbCreate]
  by_cases herr : (airohaEnableQosForGdm34 b x d s).1 = 0 <;> simp [herr]

/-- Another device lost the role, and gets it back from nobody. -/
theorem kept_taken (h : RolesInv b s) {w : δ} (x : CreateAnswers)
    (hw : airohaGetWanGdmDev b s = some w) (h2 : b.portId w ≠ .gdm2)
    (hlan : (s.dev d).wan = false) :
    ((promote x d (airohaDisableQosForGdm34 b x.wanSport w s)).1 ≠ 0 →
      SameRoles s (promote x d (airohaDisableQosForGdm34 b x.wanSport w s)).2) ↔
      0 ≤ x.sport ∧ x.macaddr = 0 := by
  obtain ⟨-, -, hnone⟩ := demoted h hw h2 x.wanSport
  have hne : w ≠ d := by
    intro hwd
    have hwan := find_wan hw
    rw [hwd, hlan] at hwan
    cases hwan
  constructor
  · intro hkept
    by_contra hfail
    have hsame := (hkept (mt (ret_promote x d).mp hfail)).dev w
    rw [dev_promote, Function.update_of_ne hne, hnone w, find_wan hw] at hsame
    cases hsame.1
  · intro hok hret
    exact absurd ((ret_promote x d).mpr hok) hret

/-- The device goes back to what it was, the loopback to what the undo leaves. -/
theorem kept_given (h : RolesInv b s) (x : CreateAnswers) (hlan : (s.dev d).wan = false) :
    ((promote x d s).1 ≠ 0 → SameRoles s (promote x d s).2) ↔
      x.sport < 0 ∨ x.macaddr = 0 ∨ s.loopedBack = if x.undoSport < 0 then some d else none := by
  constructor
  · intro hkept
    by_cases hsport : x.sport < 0
    · exact Or.inl hsport
    · by_cases hmac : x.macaddr = 0
      · exact Or.inr (Or.inl hmac)
      · have hfail : (promote x d s).1 ≠ 0 := by simp [ret_promote, hmac]
        have hloop := (hkept hfail).loopedBack
        rw [loopedBack_promote x d hfail, if_neg hsport] at hloop
        exact Or.inr (Or.inr hloop.symm)
  · intro hkeeps hfail
    constructor
    · intro e
      rw [dev_promote]
      by_cases he : e = d
      · subst he
        have hqdma := h.consistent.onQdma e
        rw [hlan] at hqdma
        simp [GdmDev.withRole, hfail, hlan, hqdma]
      · rw [Function.update_of_ne he]
        exact ⟨rfl, rfl, rfl⟩
    · rw [loopedBack_promote x d hfail]
      by_cases hsport : x.sport < 0
      · rw [if_pos hsport]
      · have hret := mt (ret_promote x d).mpr hfail
        rw [if_neg hsport]
        rcases hkeeps with hneg | hmac | hloop
        · exact absurd hneg hsport
        · exact absurd ⟨by omega, hmac⟩ hret
        · exact hloop.symm

/-- A CREATE leaves the roles when it fails, if and only if it is one that keeps them. -/
theorem create_kept_iff (h : RolesInv b s) (x : CreateAnswers) (d : δ) :
    Kept s (.htbCreate d x) (tcHtbCreate b x d s) ↔ CreateKeeps b s d x := by
  rw [kept_create]
  have hcases := enableQos_cases b x d s
  generalize airohaEnableQosForGdm34 b x d s = r at hcases
  unfold CreateKeeps
  cases hcases with
  | idle hidle =>
    refine iff_of_true (fun hne => absurd rfl hne) ?_
    rcases hidle with h34 | hwan
    · exact Or.inl h34
    · exact Or.inr (Or.inl hwan)
  | refused w hw hbusy h34 hlan =>
    rw [hw]
    exact iff_of_true (fun _ => SameRoles.refl s)
      (Or.inr (Or.inr (hbusy.imp_right Or.inl)))
  | taken w hw hqos h2 h34 hlan =>
    rw [kept_taken h x hw h2 hlan, hw]
    simp [h34, hlan, hqos, h2]
  | given hw h34 hlan =>
    rw [kept_given h x hlan, hw]
    simp [h34, hlan]

/-- One call. -/
theorem kept_step_iff (h : RolesInv b s) (op : Op δ) :
    Kept s op (s.step b op) ↔ OpKeeps b s op := by
  cases op with
  | htbCreate d x => exact create_kept_iff h x d
  | ndoOpen d x => rfl
  | ndoStop d => rfl
  | htbDestroy d => rfl

/-! ## Whole runs -/

/-- By induction over the calls: roles and users are carried along, the rest is each CREATE's. -/
theorem run_iff (h : RolesInv b s) (ops : List (Op δ)) :
    RolesRun b s ops ↔ CreatesKeep b s ops := by
  induction ops generalizing s with
  | nil => exact iff_of_true h.consistent trivial
  | cons op ops ih =>
    simp only [RolesRun, CreatesKeep]
    rw [kept_step_iff h op, ih (h.step op)]
    simp [h.consistent]

/-- From registration on, roles and users belong together, and every CREATE that fails leaves the
roles, if and only if each CREATE is one that keeps them. -/
theorem rolesRun_iff (b : Board δ) (sport : δ → Int) (s : Eth δ)
    (hs : airohaRegisterGdmDevices b sport b.devs Eth.reset = some s) (ops : List (Op δ)) :
    RolesRun b s ops ↔ CreatesKeep b s ops :=
  run_iff (RolesInv.register sport hs) ops

end Kept

/-! ## A board with one device on GDM3 and one on GDM4 -/

/-- `false` is the device of GDM3, which is registered first. -/
def twoPorts : Board Bool where
  portId := fun d => if d then .gdm4 else .gdm3
  devs := [false, true]
  nodup := by decide
  complete := by decide
  ordered := by decide
  gdm2Single := by decide

/-- Both are brought up, and GDM4 takes the role over. -/
theorem rolesRun_twoPorts :
    ∃ s, airohaRegisterGdmDevices twoPorts (fun _ => 0) twoPorts.devs Eth.reset = some s ∧
      RolesRun twoPorts s [.ndoOpen false ⟨false, 0⟩, .ndoOpen true ⟨false, 0⟩,
        .htbCreate true ⟨0, 0, 0, 0⟩] := by
  refine ⟨_, rfl, (rolesRun_iff twoPorts (fun _ => 0) _ rfl _).mpr ?_⟩
  refine ⟨trivial, trivial, Or.inr (Or.inr ?_), trivial⟩
  exact Or.inr (Or.inr ⟨by decide, rfl⟩)

/-- GDM3 is the WAN. A CREATE on GDM4 takes the role from it, `get_sport` fails for GDM4, and none
of the two has the role. -/
theorem not_rolesRun_twoPorts :
    ∃ s, airohaRegisterGdmDevices twoPorts (fun _ => 0) twoPorts.devs Eth.reset = some s ∧
      ¬ RolesRun twoPorts s [.htbCreate true ⟨0, -19, 0, 0⟩] := by
  refine ⟨_, rfl, ?_⟩
  intro hrun
  have hkept := hrun.2.1 (by decide)
  have hwan := (hkept.dev false).1
  revert hwan
  decide

end Airoha.Gdm
