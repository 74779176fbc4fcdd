/-
Airoha.Gdm.MtuRuns — when the egress MTU undercuts no running device.

`Sets.covered_iff` is about one write of the field: it covers the devices in the
role of its device, and with one PPE those in the other role only as far as a
device in this role needs as much. What a call needs follows for each call, and
`mtuRun_iff` is about whole runs.
-/
import Airoha.Gdm.Mtu

namespace Airoha.Gdm.Mtu

open Airoha.Lib

/-! ## One field -/

theorem rmw_fieldPrep (addr s n : Nat) (v : BitVec 32) (r : Regs) :
    airohaRmw addr (mask 32 s n) (fieldPrep s n v) r =
      updateBits addr (mask 32 s n) (fieldPrep s n v) r := by
  have hcut : fieldPrep s n v &&& mask 32 s n = fieldPrep s n v := by
    rw [fieldPrep, BitVec.and_assoc, BitVec.and_self]
  rw [airohaRmw, updateBits, hcut]

/-- Two indices are in different registers, or in different halves of one. -/
theorem apart_of_ne {m n : Nat} (h : m ≠ n) :
    regPpeMtu m ≠ regPpeMtu n ∨ fpShift m + 14 ≤ fpShift n ∨ fpShift n + 14 ≤ fpShift m := by
  unfold regPpeMtu fpShift
  omega

/-- The ports have different indices. -/
theorem mtuIndex_inj {p q : GdmIdx} : mtuIndex p = mtuIndex q ↔ p = q := by
  cases p <;> cases q <;> decide

section Field

variable {δ : Type} {b : Board δ} {ppe2 : Bool} {s : MtuEth δ} {d : δ}

/-- What the loop finds of the devices of the port. -/
def portLen (b : Board δ) (s : MtuEth δ) (d : δ) : Nat := lenLoop s d 0 (portDevs b d)

theorem field_setMtu_self (ppe2 : Bool) (hlen : portLen b s d + vlanEthHlen < 2 ^ 14) :
    (airohaPpeSetMtu b ppe2 d s).field (ppeId ppe2 s.eth d) (mtuIndex (b.portId d)) =
      portLen b s d + vlanEthHlen := by
  have h14 : fpShift (mtuIndex (b.portId d)) + 14 ≤ 32 := by
    unfold fpShift
    omega
  rw [portLen] at hlen ⊢
  simp only [airohaPpeSetMtu, MtuEth.field, Function.update_self, rmw_fieldPrep]
  rw [field_updateBits_self, fieldGet_fieldPrep_self h14, ofNat_and_mask hlen, BitVec.toNat_ofNat,
    Nat.mod_eq_of_lt]
  exact lt_trans hlen (by decide)

theorem field_setMtu_of_ne {ppe : Fin 2} {index : Nat}
    (h : ppe ≠ ppeId ppe2 s.eth d ∨ index ≠ mtuIndex (b.portId d)) :
    (airohaPpeSetMtu b ppe2 d s).field ppe index = s.field ppe index := by
  simp only [airohaPpeSetMtu, MtuEth.field]
  by_cases hppe : ppe = ppeId ppe2 s.eth d
  · have hindex := h.resolve_left (not_not_intro hppe)
    rw [hppe, Function.update_self, rmw_fieldPrep, field_updateBits_of_ne (apart_of_ne hindex)]
  · rw [Function.update_of_ne hppe]

/-! ## The loop -/

/-- A bound of what the loop found so far, and of the devices it counts. -/
theorem lenLoop_le_iff {n : Nat} (len : Nat) (devs : List δ) :
    lenLoop s d len devs ≤ n ↔ len ≤ n ∧ ∀ e ∈ devs, (s.eth.dev e).qdma = (s.eth.dev d).qdma →
      (s.eth.dev e).running = true → s.mtu e ≤ n := by
  induction devs generalizing len with
  | nil => simp [lenLoop]
  | cons e rest ih =>
    have hstep : lenLoop s d len (e :: rest) = lenLoop s d
        (if (s.eth.dev e).qdma ≠ (s.eth.dev d).qdma then len
          else if (s.eth.dev e).running then max len (s.mtu e) else len) rest := rfl
    rw [hstep, ih, List.forall_mem_cons]
    by_cases hq : (s.eth.dev e).qdma = (s.eth.dev d).qdma
    · cases hrun : (s.eth.dev e).running with
      | true => simp [hq, and_assoc]
      | false => simp [hq]
    · simp [hq]

/-- The devices the loop counts: running, of the port, and in the role of `d`. -/
def Counts (b : Board δ) (s : MtuEth δ) (d e : δ) : Prop :=
  (s.eth.dev e).running = true ∧ b.portId e = b.portId d ∧ (s.eth.dev e).wan = (s.eth.dev d).wan

theorem qdmaOf_inj {v w : Bool} : qdmaOf v = qdmaOf w ↔ v = w := by
  cases v <;> cases w <;> decide

theorem portLen_le_iff (hq : ∀ e, (s.eth.dev e).qdma = some (qdmaOf (s.eth.dev e).wan)) {n : Nat} :
    portLen b s d ≤ n ↔ ∀ e, Counts b s d e → s.mtu e ≤ n := by
  rw [portLen, lenLoop_le_iff]
  constructor
  · intro h e he
    refine h.2 e ?_ ?_ he.1
    · simp [portDevs, b.complete e, he.2.1]
    · rw [hq, hq, he.2.2]
  · intro h
    refine ⟨Nat.zero_le n, ?_⟩
    intro e he hqdma hrun
    have hport : b.portId e = b.portId d := by simpa [portDevs] using (List.mem_filter.mp he).2
    rw [hq, hq, Option.some.injEq, qdmaOf_inj] at hqdma
    exact h e ⟨hrun, hport, hqdma⟩

theorem le_portLen_iff (hq : ∀ e, (s.eth.dev e).qdma = some (qdmaOf (s.eth.dev e).wan)) {n : Nat}
    (hn : 0 < n) : n ≤ portLen b s d ↔ ∃ e, Counts b s d e ∧ n ≤ s.mtu e := by
  constructor
  · intro h
    by_contra hnone
    have hle : portLen b s d ≤ n - 1 := by
      refine (portLen_le_iff hq).mpr ?_
      intro e he
      by_contra hlt
      exact hnone ⟨e, he, by omega⟩
    omega
  · rintro ⟨e, he, hle⟩
    exact hle.trans ((portLen_le_iff hq).mp le_rfl e he)

/-! ## One write -/

/-- What is assumed of the devices: they are on the QDMA of their role, and the MTU of each is in
the bounds of the net core. -/
structure Sound (s : MtuEth δ) : Prop where
  onQdma : ∀ e, (s.eth.dev e).qdma = some (qdmaOf (s.eth.dev e).wan)
  bounds : ∀ e, ethMinMtu ≤ s.mtu e ∧ s.mtu e ≤ airohaMaxMtu

/-- The devices whose field is not that of `d` are covered. -/
def Beside (b : Board δ) (ppe2 : Bool) (s : MtuEth δ) (d : δ) : Prop :=
  ∀ e, (s.eth.dev e).running = true →
    ppeId ppe2 s.eth e ≠ ppeId ppe2 s.eth d ∨ b.portId e ≠ b.portId d →
    s.mtu e + vlanEthHlen ≤ s.field (ppeId ppe2 s.eth e) (mtuIndex (b.portId e))

/-- Who runs, in which role, and with which MTU is as in `t`. -/
structure Same (t r : MtuEth δ) : Prop where
  dev : ∀ e, (r.eth.dev e).running = (t.eth.dev e).running ∧ (r.eth.dev e).wan = (t.eth.dev e).wan
  mtu : r.mtu = t.mtu

/-- The registers of `r` are those of `t` with the field of `d` written. -/
structure Sets (b : Board δ) (ppe2 : Bool) (d : δ) (t r : MtuEth δ) : Prop where
  same : Same t r
  ppe : r.ppe = (airohaPpeSetMtu b ppe2 d t).ppe

variable {t r : MtuEth δ}

theorem field_of_ppe (h : r.ppe = t.ppe) (ppe : Fin 2) (index : Nat) :
    r.field ppe index = t.field ppe index := by
  rw [MtuEth.field, h, MtuEth.field]

/-- Coverage is about these and the registers. -/
theorem Same.covered_iff (b : Board δ) (ppe2 : Bool) (h : Same t r) (hppe : r.ppe = t.ppe) :
    Covered b ppe2 r ↔ Covered b ppe2 t := by
  have hid : ∀ e, ppeId ppe2 r.eth e = ppeId ppe2 t.eth e := by
    intro e
    rw [ppeId, (h.dev e).2, ppeId]
  simp only [Covered, (h.dev _).1, h.mtu, hid, field_of_ppe hppe]

theorem portLen_lt (ht : Sound t) : portLen b t d + vlanEthHlen < 2 ^ 14 := by
  have hle : portLen b t d ≤ airohaMaxMtu :=
    (portLen_le_iff ht.onQdma).mpr fun e _ => (ht.bounds e).2
  unfold airohaMaxMtu at hle
  unfold vlanEthHlen
  omega

/-- After a write the devices that share the field need no more than what the loop found. -/
theorem covered_setMtu (ht : Sound t) (hbeside : Beside b ppe2 t d) :
    Covered b ppe2 (airohaPpeSetMtu b ppe2 d t) ↔
      ∀ e, (t.eth.dev e).running = true → ppeId ppe2 t.eth e = ppeId ppe2 t.eth d →
        b.portId e = b.portId d → t.mtu e ≤ portLen b t d := by
  have hself := field_setMtu_self ppe2 (portLen_lt (b := b) (d := d) ht)
  constructor
  · intro h e hrun hppe hport
    have he : t.mtu e + vlanEthHlen ≤ (airohaPpeSetMtu b ppe2 d t).field (ppeId ppe2 t.eth e)
        (mtuIndex (b.portId e)) := h e hrun
    rw [hppe, hport, hself] at he
    omega
  · intro h e hrun
    show t.mtu e + vlanEthHlen ≤ (airohaPpeSetMtu b ppe2 d t).field (ppeId ppe2 t.eth e)
        (mtuIndex (b.portId e))
    by_cases hsame : ppeId ppe2 t.eth e = ppeId ppe2 t.eth d ∧ b.portId e = b.portId d
    · rw [hsame.1, hsame.2, hself]
      exact Nat.add_le_add_right (h e hrun hsame.1 hsame.2) _
    · have hne := not_and_or.mp hsame
      rw [field_setMtu_of_ne (hne.imp_right (mt mtuIndex_inj.mp))]
      exact hbeside e hrun hne

/-- One write: with two PPEs it covers the port, with one it does as far as the devices in the role
of `d` need as much as the others. -/
theorem Sets.covered_iff (h : Sets b ppe2 d t r) (ht : Sound t) (hbeside : Beside b ppe2 t d) :
    Covered b ppe2 r ↔ Spared b ppe2 (fun e => (t.eth.dev e).running)
      (fun e => (t.eth.dev e).wan) t.mtu d := by
  have hset : Covered b ppe2 r ↔ Covered b ppe2 (airohaPpeSetMtu b ppe2 d t) :=
    Same.covered_iff b ppe2 (t := airohaPpeSetMtu b ppe2 d t) ⟨h.same.dev, h.same.mtu⟩ h.ppe
  have hpos : ∀ e, 0 < t.mtu e := fun e => lt_of_lt_of_le (by decide) (ht.bounds e).1
  have hrole : ∀ e, (t.eth.dev e).running = true → b.portId e = b.portId d →
      (t.eth.dev e).wan = (t.eth.dev d).wan → t.mtu e ≤ portLen b t d := by
    intro e hrun hport hwan
    exact (le_portLen_iff ht.onQdma (hpos e)).mpr ⟨e, ⟨hrun, hport, hwan⟩, le_rfl⟩
  rw [hset, covered_setMtu ht hbeside]
  cases hppe2 : ppe2 with
  | true =>
    refine iff_of_true ?_ (Or.inl rfl)
    intro e hrun hppe hport
    refine hrole e hrun hport ?_
    cases he : (t.eth.dev e).wan <;> cases hd : (t.eth.dev d).wan <;> simp_all [ppeId]
  | false =>
    have hppe : ∀ e, ppeId false t.eth e = ppeId false t.eth d := by simp [ppeId]
    simp only [hppe, Spared, Bool.false_eq_true, false_or, true_implies]
    constructor
    · intro hall e hrun hport _
      obtain ⟨f, hf, hle⟩ := (le_portLen_iff ht.onQdma (hpos e)).mp (hall e hrun hport)
      exact ⟨f, hf.1, hf.2.1, hf.2.2, hle⟩
    · intro hspared e hrun hport
      by_cases hwan : (t.eth.dev e).wan = (t.eth.dev d).wan
      · exact hrole e hrun hport hwan
      · obtain ⟨f, hfrun, hfport, hfwan, hle⟩ := hspared e hrun hport hwan
        exact (le_portLen_iff ht.onQdma (hpos e)).mpr ⟨f, ⟨hfrun, hfport, hfwan⟩, hle⟩

/-- One write is of one field. -/
theorem Sets.onlyPort (h : Sets b ppe2 d t r) (hs : t.ppe = s.ppe) : OnlyPort b d s r := by
  intro ppe index hindex
  rw [field_of_ppe h.ppe, field_setMtu_of_ne (Or.inr hindex), field_of_ppe hs]

theorem onlyPort_of_ppe (h : r.ppe = s.ppe) : OnlyPort b d s r := by
  intro ppe index _
  exact field_of_ppe h ppe index

end Field

/-! ## What the calls leave beside the registers -/

section Roles

variable {δ : Type} [DecidableEq δ] {b : Board δ} {ppe2 : Bool} {s t : MtuEth δ} {d : δ}

omit [DecidableEq δ] in
@[simp] theorem eth_devSetMtu : (airohaDevSetMtu b ppe2 d s).eth = s.eth := by
  simp only [airohaDevSetMtu]
  split_ifs <;> rfl

omit [DecidableEq δ] in
@[simp] theorem mtu_devSetMtu : (airohaDevSetMtu b ppe2 d s).mtu = s.mtu := by
  simp only [airohaDevSetMtu]
  split_ifs <;> rfl

omit [DecidableEq δ] in
@[simp] theorem users_devSetMtu : (airohaDevSetMtu b ppe2 d s).users = s.users := by
  simp only [airohaDevSetMtu]
  split_ifs <;> rfl

omit [DecidableEq δ] in
@[simp] theorem ppe_devSetMtu :
    (airohaDevSetMtu b ppe2 d s).ppe = (airohaPpeSetMtu b ppe2 d s).ppe := by
  simp only [airohaDevSetMtu]
  split_ifs <;> rfl

omit [DecidableEq δ] in
theorem Sets.devSetMtu : Sets b ppe2 d t (airohaDevSetMtu b ppe2 d t) := by
  refine ⟨⟨?_, mtu_devSetMtu⟩, ppe_devSetMtu⟩
  intro e
  rw [eth_devSetMtu]
  exact ⟨rfl, rfl⟩

@[simp] theorem mtu_disableQos (sport : Int) (w : δ) :
    (airohaDisableQosForGdm34 b ppe2 sport w s).mtu = s.mtu := by
  unfold airohaDisableQosForGdm34
  split_ifs <;> simp

@[simp] theorem users_disableQos (sport : Int) (w : δ) :
    (airohaDisableQosForGdm34 b ppe2 sport w s).users = s.users := by
  unfold airohaDisableQosForGdm34
  split_ifs <;> simp

@[simp] theorem eth_disableQos (ppe2 : Bool) (sport : Int) (w : δ) :
    (airohaDisableQosForGdm34 b ppe2 sport w s).eth =
      Gdm.airohaDisableQosForGdm34 b sport w s.eth := by
  unfold airohaDisableQosForGdm34
  cases h : isGdm34 b w with
  | true => simp
  | false => simp [Gdm.airohaDisableQosForGdm34, h]

theorem promote_of_ne (x : CreateAnswers) (h : (Gdm.promote x d s.eth).1 ≠ 0) :
    promote b ppe2 x d s =
      ((Gdm.promote x d s.eth).1, { s with eth := (Gdm.promote x d s.eth).2 }) := by
  simp only [promote]
  rw [if_pos h]

theorem promote_of_eq (x : CreateAnswers) (h : (Gdm.promote x d s.eth).1 = 0) :
    promote b ppe2 x d s =
      (0, airohaDevSetMtu b ppe2 d { s with eth := (Gdm.promote x d s.eth).2 }) := by
  simp only [promote]
  rw [if_neg (not_not_intro h)]

theorem promote_eth (x : CreateAnswers) :
    (promote b ppe2 x d s).1 = (Gdm.promote x d s.eth).1 ∧
      (promote b ppe2 x d s).2.eth = (Gdm.promote x d s.eth).2 := by
  by_cases h : (Gdm.promote x d s.eth).1 = 0
  · rw [promote_of_eq x h]
    exact ⟨h.symm, eth_devSetMtu⟩
  · rw [promote_of_ne x h]
    exact ⟨rfl, rfl⟩

theorem promote_rest (x : CreateAnswers) : (promote b ppe2 x d s).2.mtu = s.mtu ∧
    (promote b ppe2 x d s).2.users = s.users := by
  by_cases h : (Gdm.promote x d s.eth).1 = 0
  · rw [promote_of_eq x h]
    exact ⟨mtu_devSetMtu, users_devSetMtu⟩
  · rw [promote_of_ne x h]
    exact ⟨rfl, rfl⟩

/-- The ways through `airoha_enable_qos_for_gdm34`, by the device that loses the role. -/
inductive CreateCase (b : Board δ) (ppe2 : Bool) (x : CreateAnswers) (d : δ) (s : MtuEth δ) :
    Option δ → Int × MtuEth δ → Prop where
  | kept (err : Int) (h : ¬ TakesRole b s.eth d x) (hg : Gdm.airohaEnableQosForGdm34 b x d s.eth =
      (err, s.eth)) : CreateCase b ppe2 x d s none (err, s)
  | taken (w : δ) (hw : airohaGetWanGdmDev b s.eth = some w) (hqos : (s.eth.dev w).qos = false)
      (h2 : b.portId w ≠ .gdm2) (h34 : isGdm34 b d = true) (hlan : (s.eth.dev d).wan = false) :
      CreateCase b ppe2 x d s (some w)
        (promote b ppe2 x d (airohaDisableQosForGdm34 b ppe2 x.wanSport w s))
  | given (hw : airohaGetWanGdmDev b s.eth = none) (h34 : isGdm34 b d = true)
      (hlan : (s.eth.dev d).wan = false) : CreateCase b ppe2 x d s none (promote b ppe2 x d s)

theorem create_cases (b : Board δ) (ppe2 : Bool) (x : CreateAnswers) (d : δ) (s : MtuEth δ) :
    CreateCase b ppe2 x d s (loses b s.eth d) (airohaEnableQosForGdm34 b ppe2 x d s) := by
  unfold airohaEnableQosForGdm34 loses
  cases h34 : isGdm34 b d with
  | false =>
    refine CreateCase.kept 0 (fun h => ?_) ?_
    · rw [h.1] at h34
      cases h34
    · simp [Gdm.airohaEnableQosForGdm34, h34]
  | true =>
    cases hlan : (s.eth.dev d).wan with
    | true =>
      refine CreateCase.kept 0 (fun h => ?_) ?_
      · rw [h.2.1] at hlan
        cases hlan
      · simp [Gdm.airohaEnableQosForGdm34, h34, hlan]
    | false =>
      cases hw : airohaGetWanGdmDev b s.eth with
      | none => exact CreateCase.given hw h34 hlan
      | some w =>
        cases hbusy : (s.eth.dev w).qos || decide (b.portId w = .gdm2) with
        | true =>
          simp only [Bool.not_true, Bool.or_self, Bool.false_eq_true, if_false, if_true, hbusy,
            Option.filter_some]
          refine CreateCase.kept (-16) (fun h => ?_) ?_
          · obtain ⟨hqos, h2⟩ := h.2.2.1 w hw
            simp [hqos, h2] at hbusy
          · simp [Gdm.airohaEnableQosForGdm34, h34, hlan, hw, hbusy]
        | false =>
          simp only [Bool.not_true, Bool.or_self, Bool.false_eq_true, if_false, hbusy,
            Option.filter_some, Bool.not_false, if_true]
          obtain ⟨hqos, h2⟩ := Bool.or_eq_false_iff.mp hbusy
          exact CreateCase.taken w hw hqos (of_decide_eq_false h2) h34 hlan

theorem eth_enableQos (b : Board δ) (ppe2 : Bool) (x : CreateAnswers) (d : δ) (s : MtuEth δ) :
    (airohaEnableQosForGdm34 b ppe2 x d s).1 = (Gdm.airohaEnableQosForGdm34 b x d s.eth).1 ∧
      (airohaEnableQosForGdm34 b ppe2 x d s).2.eth =
        (Gdm.airohaEnableQosForGdm34 b x d s.eth).2 := by
  have hcases := create_cases b ppe2 x d s
  generalize loses b s.eth d = o at hcases
  generalize airohaEnableQosForGdm34 b ppe2 x d s = r at hcases
  cases hcases with
  | kept err h hg => simp [hg]
  | taken w hw hqos h2 h34 hlan =>
    have hg : Gdm.airohaEnableQosForGdm34 b x d s.eth =
        Gdm.promote x d (Gdm.airohaDisableQosForGdm34 b x.wanSport w s.eth) := by
      simp [Gdm.airohaEnableQosForGdm34, h34, hlan, hw, hqos, h2]
    rw [hg, ← eth_disableQos ppe2]
    exact promote_eth x
  | given hw h34 hlan =>
    have hg : Gdm.airohaEnableQosForGdm34 b x d s.eth = Gdm.promote x d s.eth := by
      simp [Gdm.airohaEnableQosForGdm34, h34, hlan, hw]
    rw [hg]
    exact promote_eth x

theorem enableQos_rest (b : Board δ) (ppe2 : Bool) (x : CreateAnswers) (d : δ) (s : MtuEth δ) :
    (airohaEnableQosForGdm34 b ppe2 x d s).2.mtu = s.mtu ∧
      (airohaEnableQosForGdm34 b ppe2 x d s).2.users = s.users := by
  have hcases := create_cases b ppe2 x d s
  generalize loses b s.eth d = o at hcases
  generalize airohaEnableQosForGdm34 b ppe2 x d s = r at hcases
  cases hcases with
  | kept => exact ⟨rfl, rfl⟩
  | taken w =>
    rw [(promote_rest x).1, (promote_rest x).2]
    simp
  | given => exact promote_rest x

/-- A CREATE writes the flag QOS at most behind that. -/
theorem tcHtbCreate_eq (x : CreateAnswers) : tcHtbCreate b ppe2 x d s =
    if (airohaEnableQosForGdm34 b ppe2 x d s).1 ≠ 0 then airohaEnableQosForGdm34 b ppe2 x d s
    else (0, { (airohaEnableQosForGdm34 b ppe2 x d s).2 with
      eth := (airohaEnableQosForGdm34 b ppe2 x d s).2.eth.setDev d
        { (airohaEnableQosForGdm34 b ppe2 x d s).2.eth.dev d with qos := true } }) := rfl

theorem eth_tcHtbCreate (x : CreateAnswers) :
    (tcHtbCreate b ppe2 x d s).2.eth = (Gdm.tcHtbCreate b x d s.eth).2 := by
  obtain ⟨hret, heth⟩ := eth_enableQos b ppe2 x d s
  rw [tcHtbCreate_eq, Gdm.tcHtbCreate]
  simp only [hret, heth]
  split_ifs
  · exact heth
  · rfl

theorem tcHtbCreate_rest (b : Board δ) (ppe2 : Bool) (x : CreateAnswers) (d : δ) (s : MtuEth δ) :
    Same (airohaEnableQosForGdm34 b ppe2 x d s).2 (tcHtbCreate b ppe2 x d s).2 ∧
      (tcHtbCreate b ppe2 x d s).2.users = s.users ∧
      (tcHtbCreate b ppe2 x d s).2.ppe = (airohaEnableQosForGdm34 b ppe2 x d s).2.ppe := by
  have husers := (enableQos_rest b ppe2 x d s).2
  rw [tcHtbCreate_eq]
  split_ifs
  · exact ⟨⟨fun _ => ⟨rfl, rfl⟩, rfl⟩, husers, rfl⟩
  · refine ⟨⟨?_, rfl⟩, husers, rfl⟩
    intro e
    by_cases he : e = d
    · subst he
      simp
    · simp [he]

/-- An open that is refused, or that finds the device up, leaves all as it was. -/
theorem devOpen_of_not (hq : (s.eth.dev d).qdma = some (qdmaOf (s.eth.dev d).wan))
    (x : OpenAnswers) (h : ¬ Opens s.eth d x) : (devOpen b ppe2 x d s).2 = s := by
  unfold devOpen
  cases hrun : (s.eth.dev d).running with
  | true => simp
  | false =>
    have hup : ((s.setRunning d true).eth.dev d).qdma = some (qdmaOf (s.eth.dev d).wan) := by
      simpa [MtuEth.setRunning, Eth.setRunning] using hq
    have hback : (s.setRunning d true).setRunning d false = s := by
      rw [MtuEth.setRunning, MtuEth.setRunning, setRunning_back hrun]
    simp only [Bool.false_eq_true, if_false, airohaDevOpen, hup]
    by_cases hbusy : ((s.setRunning d true).eth.qdma (qdmaOf (s.eth.dev d).wan)).users ≠ 0 ∧
        x.lroEnabled = true
    · simp [hbusy, hback]
    · by_cases herr : x.err = 0
      · refine absurd ⟨hrun, ?_, herr⟩ h
        rcases not_and_or.mp hbusy with h0 | h0
        · exact Or.inl (not_not.mp h0)
        · exact Or.inr (by simpa using h0)
      · rw [if_neg hbusy, if_pos herr]
        simp [herr, hback]

/-- A device that is opened: the MTU is written with it up, and it is counted. -/
theorem devOpen_of (hq : (s.eth.dev d).qdma = some (qdmaOf (s.eth.dev d).wan))
    (x : OpenAnswers) (h : Opens s.eth d x) : (devOpen b ppe2 x d s).2 =
      { (airohaDevSetMtu b ppe2 d (s.setRunning d true)).setUsers b d
          (s.users (b.portId d) + 1) with
        eth := airohaQdmaStart (qdmaOf (s.eth.dev d).wan) (s.eth.setRunning d true) } := by
  obtain ⟨hrun, hfree, herr⟩ := h
  have hup : ((s.setRunning d true).eth.dev d).qdma = some (qdmaOf (s.eth.dev d).wan) := by
    simpa [MtuEth.setRunning, Eth.setRunning] using hq
  have hbusy : ¬ (((s.setRunning d true).eth.qdma (qdmaOf (s.eth.dev d).wan)).users ≠ 0 ∧
      x.lroEnabled = true) := by
    rintro ⟨h0, h1⟩
    rcases hfree with h2 | h2
    · exact h0 h2
    · rw [h1] at h2
      cases h2
  simp only [devOpen, hrun, Bool.false_eq_true, if_false, airohaDevOpen, hup]
  rw [if_neg hbusy, if_neg (not_not_intro herr)]
  simp only [ne_eq, not_true_eq_false, if_false, MtuEth.setUsers, eth_devSetMtu, users_devSetMtu]
  rfl

/-- A device that is stopped: the MTU is written with it down, unless it was the last of the
port. -/
theorem devStop_of (hq : (s.eth.dev d).qdma = some (qdmaOf (s.eth.dev d).wan))
    (hrun : (s.eth.dev d).running = true) : devStop b ppe2 d s =
      { (if s.users (b.portId d) - 1 ≠ 0
          then airohaPpeSetMtu b ppe2 d
            ((s.setRunning d false).setUsers b d (s.users (b.portId d) - 1))
          else (s.setRunning d false).setUsers b d (s.users (b.portId d) - 1)) with
        eth := airohaQdmaStop (qdmaOf (s.eth.dev d).wan) (s.eth.setRunning d false) } := by
  have hdown : ((s.setRunning d false).eth.dev d).qdma = some (qdmaOf (s.eth.dev d).wan) := by
    simpa [MtuEth.setRunning, Eth.setRunning] using hq
  simp only [devStop, hrun, if_true, airohaDevStop, hdown]
  have husers : (s.setRunning d false).users = s.users := rfl
  rw [husers]
  by_cases hlast : s.users (b.portId d) - 1 = 0
  · rw [if_neg (not_not_intro hlast)]
    rfl
  · rw [if_pos hlast]
    rfl

theorem devStop_of_not (hrun : (s.eth.dev d).running = false) : devStop b ppe2 d s = s := by
  simp [devStop, hrun]

theorem mtu_devOpen (hq : (s.eth.dev d).qdma = some (qdmaOf (s.eth.dev d).wan))
    (x : OpenAnswers) : (devOpen b ppe2 x d s).2.mtu = s.mtu := by
  by_cases hopens : Opens s.eth d x
  · rw [devOpen_of hq x hopens]
    exact mtu_devSetMtu
  · rw [devOpen_of_not hq x hopens]

theorem mtu_devStop (hq : (s.eth.dev d).qdma = some (qdmaOf (s.eth.dev d).wan)) :
    (devStop b ppe2 d s).mtu = s.mtu := by
  cases hrun : (s.eth.dev d).running with
  | false => rw [devStop_of_not hrun]
  | true =>
    rw [devStop_of hq hrun]
    split_ifs <;> rfl

end Roles

/-! ## Each call -/

section Calls

variable {δ : Type} [DecidableEq δ] {b : Board δ} {ppe2 : Bool} {s t r : MtuEth δ} {d : δ}

/-- The port a running device is counted on. -/
def MtuEth.port (b : Board δ) (s : MtuEth δ) (d : δ) : Option GdmIdx :=
  if (s.eth.dev d).running then some (b.portId d) else none

/-- What every call keeps, as long as no device is undercut. -/
structure Ready (b : Board δ) (ppe2 : Bool) (s : MtuEth δ) : Prop where
  roles : RolesInv b s.eth
  bounds : ∀ e, ethMinMtu ≤ s.mtu e ∧ s.mtu e ≤ airohaMaxMtu
  users : Counted b.devs (s.port b) s.users
  covered : Covered b ppe2 s

omit [DecidableEq δ] in
theorem Ready.sound (h : Ready b ppe2 s) : Sound s := ⟨h.roles.consistent.onQdma, h.bounds⟩

omit [DecidableEq δ] in
/-- A port with no users has no running device. -/
theorem users_eq_zero {users : GdmIdx → Int} (h : Counted b.devs (s.port b) users) {p : GdmIdx} :
    users p = 0 ↔ ∀ e, (s.eth.dev e).running = true → b.portId e ≠ p := by
  have hcount : users p = (holders b.devs (s.port b) p : Int) := h p
  rw [hcount, Int.natCast_eq_zero, holders, List.countP_eq_zero]
  constructor
  · intro hnone e hrun hport
    exact hnone e (b.complete e) (by simp [MtuEth.port, hrun, hport])
  · intro hnone e _ he
    by_cases hrun : (s.eth.dev e).running = true
    · have hport : b.portId e = p := by simpa [MtuEth.port, hrun] using he
      exact hnone e hrun hport
    · simp [MtuEth.port, hrun] at he

omit [DecidableEq δ] in
/-- A call changes nothing that the fields of the other ports and PPEs have to cover. -/
theorem Covered.beside (h : Covered b ppe2 s) (hdev : ∀ e, e ≠ d → t.eth.dev e = s.eth.dev e)
    (hmtu : ∀ e, e ≠ d → t.mtu e = s.mtu e) (hppe : t.ppe = s.ppe) : Beside b ppe2 t d := by
  intro e hrun hne
  have hed : e ≠ d := by
    rintro rfl
    rcases hne with h1 | h1 <;> exact h1 rfl
  have hid : ppeId ppe2 t.eth e = ppeId ppe2 s.eth e := by rw [ppeId, hdev e hed, ppeId]
  rw [hmtu e hed, hid, field_of_ppe hppe]
  rw [hdev e hed] at hrun
  exact h e hrun

theorem dev_setRunning (running : Bool) : (s.setRunning d running).eth.dev =
    Function.update s.eth.dev d { s.eth.dev d with running := running } := rfl

theorem running_setRunning (running : Bool) :
    (fun e => ((s.setRunning d running).eth.dev e).running) =
      Function.update (fun e => (s.eth.dev e).running) d running := by
  funext e
  rw [dev_setRunning]
  by_cases he : e = d
  · subst he
    simp
  · simp [he]

theorem wan_setRunning (running : Bool) :
    (fun e => ((s.setRunning d running).eth.dev e).wan) = fun e => (s.eth.dev e).wan := by
  funext e
  rw [dev_setRunning]
  by_cases he : e = d
  · subst he
    simp
  · simp [he]

theorem Sound.setRunning (h : Sound s) (running : Bool) : Sound (s.setRunning d running) := by
  refine ⟨?_, h.bounds⟩
  intro e
  rw [dev_setRunning]
  by_cases he : e = d
  · subst he
    simpa using h.onQdma e
  · simpa [he] using h.onQdma e

theorem port_setRunning (running : Bool) : (s.setRunning d running).port b =
    Function.update (s.port b) d (if running then some (b.portId d) else none) := by
  funext e
  simp only [MtuEth.port, dev_setRunning]
  by_cases he : e = d
  · subst he
    simp
  · simp [MtuEth.port, he]

/-- A device that goes up or down is counted on its port. -/
theorem counted_setRunning (h : Counted b.devs (s.port b) s.users) (d : δ) (running : Bool)
    (hrun : (s.eth.dev d).running = !running) :
    Counted b.devs ((s.setRunning d running).port b) (Function.update s.users (b.portId d)
      (s.users (b.portId d) + if running then 1 else -1)) := by
  rw [port_setRunning]
  refine h.update b.nodup (b.complete d) _ ?_
  intro p
  by_cases hp : p = b.portId d
  · subst hp
    cases running <;> simp_all [MtuEth.port, share, sub_eq_add_neg]
  · have hne : some (b.portId d) ≠ some p := fun heq => hp (Option.some.inj heq).symm
    cases running <;> simp_all [MtuEth.port, share]

theorem Covered.setRunning (h : Covered b ppe2 s) (d : δ) (running : Bool) :
    Beside b ppe2 (s.setRunning d running) d := by
  refine h.beside ?_ (fun _ _ => rfl) rfl
  intro e he
  rw [dev_setRunning, Function.update_of_ne he]

/-- One write behind a device that goes up or down. -/
theorem Ready.setRunning_iff (h : Ready b ppe2 s) (running : Bool)
    (hr : Sets b ppe2 d (s.setRunning d running) r) : Covered b ppe2 r ↔
      Spared b ppe2 (Function.update (fun e => (s.eth.dev e).running) d running)
        (fun e => (s.eth.dev e).wan) s.mtu d := by
  rw [hr.covered_iff (h.sound.setRunning running) (h.covered.setRunning d running),
    running_setRunning, wan_setRunning]
  rfl

/-- `ndo_open` -/
theorem Ready.open_iff (h : Ready b ppe2 s) (d : δ) (x : OpenAnswers) :
    (Covered b ppe2 (devOpen b ppe2 x d s).2 ∧ OnlyPort b d s (devOpen b ppe2 x d s).2) ↔
      OpSpares b ppe2 s (.ndoOpen d x) := by
  have hq := h.sound.onQdma d
  by_cases hopens : Opens s.eth d x
  · have hr : Sets b ppe2 d (s.setRunning d true) (devOpen b ppe2 x d s).2 := by
      rw [devOpen_of hq x hopens]
      exact ⟨⟨fun _ => ⟨rfl, rfl⟩, mtu_devSetMtu⟩, ppe_devSetMtu⟩
    rw [h.setRunning_iff true hr]
    simp only [OpSpares, hopens, true_implies]
    exact and_iff_left (hr.onlyPort rfl)
  · rw [devOpen_of_not hq x hopens]
    simp only [OpSpares, hopens, false_implies, iff_true]
    exact ⟨h.covered, onlyPort_of_ppe rfl⟩

/-- `ndo_stop` -/
theorem Ready.stop_iff (h : Ready b ppe2 s) (d : δ) :
    (Covered b ppe2 (devStop b ppe2 d s) ∧ OnlyPort b d s (devStop b ppe2 d s)) ↔
      OpSpares b ppe2 s (.ndoStop d) := by
  have hq := h.sound.onQdma d
  cases hrun : (s.eth.dev d).running with
  | false =>
    rw [devStop_of_not hrun]
    simp only [OpSpares, hrun, Bool.false_eq_true, false_implies, iff_true]
    exact ⟨h.covered, onlyPort_of_ppe rfl⟩
  | true =>
    simp only [OpSpares, hrun, true_implies]
    have hdev : ∀ e, ((devStop b ppe2 d s).eth.dev e).running =
          ((s.setRunning d false).eth.dev e).running ∧
        ((devStop b ppe2 d s).eth.dev e).wan = ((s.setRunning d false).eth.dev e).wan := by
      intro e
      rw [devStop_of hq hrun]
      simp only [dev_stop]
      exact ⟨rfl, rfl⟩
    by_cases hlast : s.users (b.portId d) - 1 = 0
    · -- the last of its port: nothing is written, and none is left to share the field
      have hppe : (devStop b ppe2 d s).ppe = s.ppe := by
        rw [devStop_of hq hrun, if_neg (not_not_intro hlast)]
        rfl
      have hzero : Function.update s.users (b.portId d) (s.users (b.portId d) + -1) (b.portId d) =
          0 := by
        rw [Function.update_self]
        omega
      have hidle := (users_eq_zero (counted_setRunning h.users d false hrun)).mp hzero
      have hsame : Same (s.setRunning d false) (devStop b ppe2 d s) := ⟨hdev, mtu_devStop hq⟩
      refine iff_of_true ⟨?_, onlyPort_of_ppe hppe⟩ (Or.inr ?_)
      · refine (Same.covered_iff b ppe2 hsame hppe).mpr ?_
        intro e he
        exact h.covered.setRunning d false e he (Or.inr (hidle e he))
      · intro e he hport
        rw [← running_setRunning] at he
        exact absurd hport (hidle e he)
    · have hr : Sets b ppe2 d (s.setRunning d false) (devStop b ppe2 d s) := by
        refine ⟨⟨hdev, mtu_devStop hq⟩, ?_⟩
        rw [devStop_of hq hrun, if_pos hlast]
        rfl
      rw [h.setRunning_iff false hr]
      exact and_iff_left (hr.onlyPort rfl)

/-- `ndo_change_mtu`, within the bounds. -/
theorem Ready.changeMtu_iff (h : Ready b ppe2 s) (d : δ) {mtu : Nat}
    (hmtu : ethMinMtu ≤ mtu ∧ mtu ≤ airohaMaxMtu) :
    (Covered b ppe2 (airohaDevChangeMtu b ppe2 d mtu s) ∧
      OnlyPort b d s (airohaDevChangeMtu b ppe2 d mtu s)) ↔
      Spared b ppe2 (fun e => (s.eth.dev e).running) (fun e => (s.eth.dev e).wan)
        (Function.update s.mtu d mtu) d := by
  have hbounds : ∀ e, ethMinMtu ≤ Function.update s.mtu d mtu e ∧
      Function.update s.mtu d mtu e ≤ airohaMaxMtu := by
    intro e
    by_cases he : e = d
    · subst he
      simpa using hmtu
    · simpa [he] using h.bounds e
  have hbeside : Beside b ppe2 { s with mtu := Function.update s.mtu d mtu } d := by
    refine h.covered.beside (fun _ _ => rfl) ?_ rfl
    intro e he
    exact Function.update_of_ne he _ _
  simp only [airohaDevChangeMtu]
  by_cases hzero : s.users (b.portId d) = 0
  · -- no device of the port runs
    have hidle := (users_eq_zero h.users).mp hzero
    rw [if_neg (not_not_intro hzero)]
    refine iff_of_true ⟨?_, onlyPort_of_ppe rfl⟩ (Or.inr ?_)
    · intro e he
      exact hbeside e he (Or.inr (hidle e he))
    · intro e he hport
      exact absurd hport (hidle e he)
  · rw [if_pos hzero]
    have hr : Sets b ppe2 d { s with mtu := Function.update s.mtu d mtu }
        (airohaDevSetMtu b ppe2 d { s with mtu := Function.update s.mtu d mtu }) := Sets.devSetMtu
    rw [hr.covered_iff ⟨h.sound.onQdma, hbounds⟩ hbeside]
    exact and_iff_left (hr.onlyPort rfl)

/-- `ndo_change_mtu` -/
theorem Ready.setMtu_iff (h : Ready b ppe2 s) (d : δ) (mtu : Nat) :
    (Covered b ppe2 (devSetMtu b ppe2 d mtu s).2 ∧
      OnlyPort b d s (devSetMtu b ppe2 d mtu s).2) ↔
      OpSpares b ppe2 s (.ndoChangeMtu d mtu) := by
  unfold devSetMtu
  by_cases hmtu : mtu < ethMinMtu ∨ airohaMaxMtu < mtu
  · rw [if_pos hmtu]
    have hout : ¬ (ethMinMtu ≤ mtu ∧ mtu ≤ airohaMaxMtu) := by omega
    simp only [OpSpares, hout, false_implies, iff_true]
    exact ⟨h.covered, onlyPort_of_ppe rfl⟩
  · rw [if_neg hmtu]
    have hin : ethMinMtu ≤ mtu ∧ mtu ≤ airohaMaxMtu := by omega
    simp only [OpSpares, hin, and_self, true_implies]
    exact h.changeMtu_iff d hin

/-! ## The roles -/

/-- A state in which no device is the WAN. -/
structure NoWan (b : Board δ) (ppe2 : Bool) (s : MtuEth δ) : Prop where
  sound : Sound s
  covered : Covered b ppe2 s
  lan : ∀ e, (s.eth.dev e).wan = false

theorem wan_promote (h : NoWan b ppe2 s) (x : CreateAnswers) (d e : δ) :
    ((Gdm.promote x d s.eth).2.dev e).running = (s.eth.dev e).running ∧
      ((Gdm.promote x d s.eth).2.dev e).wan =
        (decide (e = d) && decide ((Gdm.promote x d s.eth).1 = 0)) := by
  rw [dev_promote]
  by_cases he : e = d
  · subst he
    simp [GdmDev.withRole]
  · simp [he, h.lan e]

/-- A device that takes the role, or does not come through. -/
theorem NoWan.promote_iff (h : NoWan b ppe2 s) (x : CreateAnswers) (d : δ) :
    (Covered b ppe2 (promote b ppe2 x d s).2 ∧ OnlyPort b d s (promote b ppe2 x d s).2) ↔
      (0 ≤ x.sport ∧ x.macaddr = 0 →
        Spared b ppe2 (fun e => (s.eth.dev e).running) (fun e => e = d) s.mtu d) := by
  have hwan := wan_promote h x d
  rw [← ret_promote x d (s := s.eth)]
  by_cases hret : (Gdm.promote x d s.eth).1 = 0
  · rw [promote_of_eq x hret]
    simp only [hret, true_implies]
    have hr : Sets b ppe2 d { s with eth := (Gdm.promote x d s.eth).2 }
        (airohaDevSetMtu b ppe2 d { s with eth := (Gdm.promote x d s.eth).2 }) := Sets.devSetMtu
    have hsound : Sound { s with eth := (Gdm.promote x d s.eth).2 } := by
      refine ⟨?_, h.sound.bounds⟩
      intro e
      simp only [dev_promote]
      by_cases he : e = d
      · subst he
        simp [GdmDev.withRole]
      · simpa [he] using h.sound.onQdma e
    have hbeside : Beside b ppe2 { s with eth := (Gdm.promote x d s.eth).2 } d := by
      refine h.covered.beside ?_ (fun _ _ => rfl) rfl
      intro e he
      simp only [dev_promote, Function.update_of_ne he]
    rw [hr.covered_iff hsound hbeside]
    simp only [(hwan _).1, (hwan _).2, hret, decide_true, Bool.and_true]
    exact and_iff_left (hr.onlyPort rfl)
  · rw [promote_of_ne x hret]
    simp only [hret, false_implies, iff_true]
    have hsame : Same s { s with eth := (Gdm.promote x d s.eth).2 } := by
      refine ⟨?_, rfl⟩
      intro e
      refine ⟨(hwan e).1, ?_⟩
      rw [(hwan e).2, h.lan e]
      simp [hret]
    exact ⟨(Same.covered_iff b ppe2 hsame rfl).mpr h.covered, onlyPort_of_ppe rfl⟩

/-- The device that loses the role: its port is covered by its field in the PPE of the LAN. -/
theorem Ready.demote (h : Ready b ppe2 s) {w : δ} (hw : airohaGetWanGdmDev b s.eth = some w)
    (h2 : b.portId w ≠ .gdm2) (sport : Int) :
    NoWan b ppe2 (airohaDisableQosForGdm34 b ppe2 sport w s) ∧
      OnlyPort b w s (airohaDisableQosForGdm34 b ppe2 sport w s) ∧
      ∀ e, ((airohaDisableQosForGdm34 b ppe2 sport w s).eth.dev e).running =
        (s.eth.dev e).running := by
  obtain ⟨hc, hdev, hnone⟩ := demoted h.roles hw h2 sport
  have h34 := isGdm34_of_wan h.roles (find_wan hw) h2
  have hr : Sets b ppe2 w { s with eth := Gdm.airohaDisableQosForGdm34 b sport w s.eth }
      (airohaDisableQosForGdm34 b ppe2 sport w s) := by
    simp only [airohaDisableQosForGdm34, h34]
    exact Sets.devSetMtu
  have hsound : Sound { s with eth := Gdm.airohaDisableQosForGdm34 b sport w s.eth } :=
    ⟨hc.onQdma, h.bounds⟩
  have hbeside :
      Beside b ppe2 { s with eth := Gdm.airohaDisableQosForGdm34 b sport w s.eth } w := by
    refine h.covered.beside ?_ (fun _ _ => rfl) rfl
    intro e he
    simp only [hdev, Function.update_of_ne he]
  refine ⟨⟨⟨?_, ?_⟩, ?_, ?_⟩, hr.onlyPort rfl, ?_⟩
  · rw [eth_disableQos]
    exact hc.onQdma
  · rw [mtu_disableQos]
    exact h.bounds
  · refine (hr.covered_iff hsound hbeside).mpr (Or.inr ?_)
    intro e _ _ hne
    simp only [hnone, ne_eq, not_true_eq_false] at hne
  · rw [eth_disableQos]
    exact hnone
  · intro e
    rw [eth_disableQos, hdev]
    by_cases he : e = w
    · subst he
      simp [GdmDev.withRole]
    · simp [he]

omit [DecidableEq δ] in
theorem stagesRight_one (s s' : MtuEth δ) : StagesRight b ppe2 s [(d, s')] ↔
    Covered b ppe2 s' ∧ OnlyPort b d s s' := by
  simp [StagesRight]

/-- `TC_HTB_CREATE` -/
theorem Ready.create_iff (h : Ready b ppe2 s) (d : δ) (x : CreateAnswers) :
    StagesRight b ppe2 s (s.stages b ppe2 (.htbCreate d x)) ↔
      OpSpares b ppe2 s (.htbCreate d x) := by
  obtain ⟨hsame, -, hppe⟩ := tcHtbCreate_rest b ppe2 x d s
  have hcovered := Same.covered_iff b ppe2 hsame hppe
  have honly : ∀ s₀, OnlyPort b d s₀ (tcHtbCreate b ppe2 x d s).2 ↔
      OnlyPort b d s₀ (airohaEnableQosForGdm34 b ppe2 x d s).2 := by
    intro s₀
    simp only [OnlyPort, field_of_ppe hppe]
  simp only [MtuEth.stages, MtuEth.step, Op.device, OpSpares]
  generalize (tcHtbCreate b ppe2 x d s).2 = r at hcovered honly
  have hcases := create_cases b ppe2 x d s
  generalize loses b s.eth d = o at hcases
  generalize airohaEnableQosForGdm34 b ppe2 x d s = q at hcases hcovered honly
  cases hcases with
  | kept err hnot hg =>
    simp only [Option.toList_none, List.map_nil, List.nil_append, stagesRight_one, hcovered, honly,
      hnot, false_implies, iff_true]
    exact ⟨h.covered, onlyPort_of_ppe rfl⟩
  | taken w hw hqos h2 h34 hlan =>
    obtain ⟨hno, hport, hrun⟩ := h.demote hw h2 x.wanSport
    have htakes : TakesRole b s.eth d x ↔ 0 ≤ x.sport ∧ x.macaddr = 0 := by
      simp [TakesRole, h34, hlan, hw, hqos, h2]
    simp only [Option.toList_some, List.map_cons, List.map_nil, List.cons_append, List.nil_append,
      StagesRight, hno.covered, hport, true_and, and_true, hcovered, honly]
    rw [hno.promote_iff x d, htakes, mtu_disableQos]
    simp only [hrun]
  | given hw h34 hlan =>
    have hno : NoWan b ppe2 s := ⟨h.sound, h.covered, wan_of_find_none hw⟩
    have htakes : TakesRole b s.eth d x ↔ 0 ≤ x.sport ∧ x.macaddr = 0 := by
      simp [TakesRole, h34, hlan, hw]
    simp only [Option.toList_none, List.map_nil, List.nil_append, stagesRight_one, hcovered, honly]
    rw [hno.promote_iff x d, htakes]

/-- One call: every step of it is right if and only if it has what it needs. -/
theorem Ready.stages_iff (h : Ready b ppe2 s) (op : Op δ) :
    StagesRight b ppe2 s (s.stages b ppe2 op) ↔ OpSpares b ppe2 s op := by
  cases op with
  | ndoOpen d x =>
    rw [← h.open_iff d x]
    exact stagesRight_one _ _
  | ndoStop d =>
    rw [← h.stop_iff d]
    exact stagesRight_one _ _
  | ndoChangeMtu d mtu =>
    rw [← h.setMtu_iff d mtu]
    exact stagesRight_one _ _
  | htbCreate d x => exact h.create_iff d x
  | htbDestroy d =>
    simp only [OpSpares, iff_true]
    refine (stagesRight_one _ _).mpr ⟨?_, onlyPort_of_ppe rfl⟩
    have hsame : Same s { s with eth := airohaTcHtbDestroy d s.eth } := by
      refine ⟨?_, rfl⟩
      intro e
      by_cases he : e = d
      · subst he
        simp [airohaTcHtbDestroy]
      · simp [airohaTcHtbDestroy, he]
    exact (Same.covered_iff b ppe2 hsame rfl).mpr h.covered

/-! ## Whole runs -/

theorem eth_devOpen (x : OpenAnswers) (d : δ) :
    (devOpen b ppe2 x d s).2.eth = (Gdm.devOpen x d s.eth).2 := by
  have hset : (s.setRunning d true).eth = s.eth.setRunning d true := rfl
  unfold devOpen Gdm.devOpen airohaDevOpen Gdm.airohaDevOpen
  rw [hset]
  cases hrun : (s.eth.dev d).running with
  | true => rfl
  | false =>
    cases hq : ((s.eth.setRunning d true).dev d).qdma with
    | none => rfl
    | some q =>
      simp only [Bool.false_eq_true, if_false]
      by_cases hbusy : ((s.eth.setRunning d true).qdma q).users ≠ 0 ∧ x.lroEnabled = true
      · simp [hbusy, MtuEth.setRunning]
      · rw [if_neg hbusy, if_neg hbusy]
        by_cases herr : x.err = 0
        · simp [herr, MtuEth.setUsers, hset]
        · simp [herr, MtuEth.setRunning]

theorem eth_devStop (d : δ) : (devStop b ppe2 d s).eth = Gdm.devStop d s.eth := by
  have hset : (s.setRunning d false).eth = s.eth.setRunning d false := rfl
  unfold devStop Gdm.devStop airohaDevStop Gdm.airohaDevStop
  rw [hset]
  split_ifs
  · cases hq : ((s.eth.setRunning d false).dev d).qdma with
    | none => rfl
    | some q =>
      simp only
      split_ifs <;> rfl
  · rfl

/-- The calls on roles and users, as they are without the MTU. -/
def Op.onRoles : Op δ → Option (Gdm.Op δ)
  | .ndoOpen d x => some (.ndoOpen d x)
  | .ndoStop d => some (.ndoStop d)
  | .ndoChangeMtu _ _ => none
  | .htbCreate d x => some (.htbCreate d x)
  | .htbDestroy d => some (.htbDestroy d)

/-- A call does to roles and users what it does without the MTU. -/
theorem eth_step (op : Op δ) : (s.step b ppe2 op).2.eth =
    op.onRoles.elim s.eth fun op' => (s.eth.step b op').2 := by
  cases op with
  | ndoOpen d x => exact eth_devOpen x d
  | ndoStop d => exact eth_devStop d
  | ndoChangeMtu d mtu =>
    simp only [MtuEth.step, devSetMtu, airohaDevChangeMtu, Op.onRoles, Option.elim_none]
    split_ifs <;> simp
  | htbCreate d x => exact eth_tcHtbCreate x
  | htbDestroy d => rfl

theorem rolesInv_step (h : RolesInv b s.eth) (op : Op δ) :
    RolesInv b (s.step b ppe2 op).2.eth := by
  rw [eth_step]
  cases op.onRoles with
  | none => exact h
  | some op' => exact h.step op'

/-! ## Whole runs -/

omit [DecidableEq δ] in
/-- The users of the ports are counted by who runs. -/
theorem port_congr (h : ∀ e, (r.eth.dev e).running = (t.eth.dev e).running) :
    r.port b = t.port b := by
  funext e
  rw [MtuEth.port, h, MtuEth.port]

theorem running_promote (e : Eth δ) (x : CreateAnswers) (d f : δ) :
    ((Gdm.promote x d e).2.dev f).running = (e.dev f).running := by
  rw [dev_promote]
  by_cases hf : f = d
  · subst hf
    simp [GdmDev.withRole]
  · simp [hf]

theorem running_disableQos (e : Eth δ) (sport : Int) (w f : δ) :
    ((Gdm.airohaDisableQosForGdm34 b sport w e).dev f).running = (e.dev f).running := by
  cases h34 : isGdm34 b w with
  | false => simp [Gdm.airohaDisableQosForGdm34, h34]
  | true =>
    rw [disableQos_eq h34, dev_setRole, dev_disableLoopback]
    by_cases hf : f = w
    · subst hf
      simp [GdmDev.withRole]
    · simp [hf]

theorem running_create (x : CreateAnswers) (d f : δ) :
    ((tcHtbCreate b ppe2 x d s).2.eth.dev f).running = (s.eth.dev f).running := by
  rw [((tcHtbCreate_rest b ppe2 x d s).1.dev f).1]
  have hcases := create_cases b ppe2 x d s
  generalize loses b s.eth d = o at hcases
  generalize airohaEnableQosForGdm34 b ppe2 x d s = q at hcases
  cases hcases with
  | kept => rfl
  | taken w => rw [(promote_eth x).2, running_promote, eth_disableQos, running_disableQos]
  | given => rw [(promote_eth x).2, running_promote]

/-- The MTUs stay in bounds: only a change of one writes it. -/
theorem bounds_step (hs : Sound s) (op : Op δ) (e : δ) :
    ethMinMtu ≤ (s.step b ppe2 op).2.mtu e ∧ (s.step b ppe2 op).2.mtu e ≤ airohaMaxMtu := by
  have h := hs.bounds
  cases op with
  | ndoOpen d x =>
    simp only [MtuEth.step, mtu_devOpen (hs.onQdma d)]
    exact h e
  | ndoStop d =>
    simp only [MtuEth.step, mtu_devStop (hs.onQdma d)]
    exact h e
  | ndoChangeMtu d mtu =>
    simp only [MtuEth.step, devSetMtu]
    by_cases hmtu : mtu < ethMinMtu ∨ airohaMaxMtu < mtu
    · rw [if_pos hmtu]
      exact h e
    · have hchange : (airohaDevChangeMtu b ppe2 d mtu s).mtu = Function.update s.mtu d mtu := by
        simp only [airohaDevChangeMtu]
        split_ifs <;> simp
      rw [if_neg hmtu]
      simp only [hchange]
      by_cases he : e = d
      · subst he
        rw [Function.update_self]
        omega
      · rw [Function.update_of_ne he]
        exact h e
  | htbCreate d x =>
    simp only [MtuEth.step, (tcHtbCreate_rest b ppe2 x d s).1.mtu, (enableQos_rest b ppe2 x d s).1]
    exact h e
  | htbDestroy d => exact h e

/-- The ports count who runs. -/
theorem users_step (h : Ready b ppe2 s) (op : Op δ) :
    Counted b.devs ((s.step b ppe2 op).2.port b) (s.step b ppe2 op).2.users := by
  have hq := h.sound.onQdma
  cases op with
  | ndoOpen d x =>
    by_cases hopens : Opens s.eth d x
    · have hdev : (devOpen b ppe2 x d s).2.port b = (s.setRunning d true).port b := by
        rw [devOpen_of (hq d) x hopens]
        exact port_congr fun _ => rfl
      have husers : (devOpen b ppe2 x d s).2.users =
          Function.update s.users (b.portId d) (s.users (b.portId d) + 1) := by
        rw [devOpen_of (hq d) x hopens]
        simp only [MtuEth.setUsers, users_devSetMtu]
        rfl
      have hcount := counted_setRunning h.users d true hopens.1
      simp only [MtuEth.step]
      rw [hdev, husers]
      exact hcount
    · simp only [MtuEth.step]
      rw [devOpen_of_not (hq d) x hopens]
      exact h.users
  | ndoStop d =>
    simp only [MtuEth.step]
    cases hrun : (s.eth.dev d).running with
    | false =>
      rw [devStop_of_not hrun]
      exact h.users
    | true =>
      have hdev : (devStop b ppe2 d s).port b = (s.setRunning d false).port b := by
        rw [devStop_of (hq d) hrun]
        refine port_congr fun _ => ?_
        simp only [dev_stop]
        rfl
      have husers : (devStop b ppe2 d s).users =
          Function.update s.users (b.portId d) (s.users (b.portId d) + -1) := by
        rw [devStop_of (hq d) hrun]
        split_ifs <;> rfl
      have hcount := counted_setRunning h.users d false hrun
      rw [hdev, husers]
      exact hcount
  | ndoChangeMtu d mtu =>
    simp only [MtuEth.step, devSetMtu, airohaDevChangeMtu]
    split_ifs
    · exact h.users
    · rw [users_devSetMtu, port_congr (t := s)]
      · exact h.users
      · simp
    · exact h.users
  | htbCreate d x =>
    simp only [MtuEth.step]
    rw [(tcHtbCreate_rest b ppe2 x d s).2.1, port_congr (running_create x d)]
    exact h.users
  | htbDestroy d =>
    simp only [MtuEth.step]
    rw [port_congr (t := s)]
    · exact h.users
    · intro e
      by_cases he : e = d
      · subst he
        simp [airohaTcHtbDestroy]
      · simp [airohaTcHtbDestroy, he]

omit [DecidableEq δ] in
theorem StagesRight.last {l : List (δ × MtuEth δ)} {s' : MtuEth δ}
    (h : StagesRight b ppe2 s (l ++ [(d, s')])) : Covered b ppe2 s' := by
  induction l generalizing s with
  | nil => exact h.1
  | cons x l ih => exact ih h.2.2

theorem Ready.step (h : Ready b ppe2 s) (op : Op δ)
    (hop : StagesRight b ppe2 s (s.stages b ppe2 op)) : Ready b ppe2 (s.step b ppe2 op).2 where
  roles := rolesInv_step h.roles op
  bounds := bounds_step h.sound op
  users := users_step h op
  covered := hop.last

/-- By induction over the calls: a call that is right leaves a state from which the next one is
looked at. -/
theorem Ready.run_iff (h : Ready b ppe2 s) (ops : List (Op δ)) :
    MtuRun b ppe2 s ops ↔ OpsSpare b ppe2 s ops := by
  induction ops generalizing s with
  | nil => exact iff_of_true h.covered trivial
  | cons op ops ih =>
    simp only [MtuRun, OpsSpare, h.covered, true_and]
    constructor
    · intro hrun
      exact ⟨(h.stages_iff op).mp hrun.1, (ih (h.step op hrun.1)).mp hrun.2⟩
    · intro hspare
      have hop := (h.stages_iff op).mpr hspare.1
      exact ⟨hop, (ih (h.step op hop)).mpr hspare.2⟩

theorem ready_registered (sport : δ → Int) {eth : Eth δ}
    (heth : airohaRegisterGdmDevices b sport b.devs Eth.reset = some eth) (ppe : Fin 2 → Regs)
    (wanMtu0 : BitVec 32) : Ready b ppe2 (MtuEth.registered eth ppe wanMtu0) := by
  have hreg := registering_reset.register sport b.nodup b.ordered heth
  constructor
  · exact hreg.rolesInv
  · intro _
    show ethMinMtu ≤ 1500 ∧ 1500 ≤ airohaMaxMtu
    decide
  · intro p
    simp [MtuEth.registered, MtuEth.port, hreg.down, holders]
  · intro e he
    rw [MtuEth.registered, hreg.down e] at he
    cases he

/-- From registration on, whatever the registers hold: no step of any call undercuts a running
device or writes another field, if and only if each call has what it needs. -/
theorem mtuRun_iff (b : Board δ) (ppe2 : Bool) (sport : δ → Int) (eth : Eth δ)
    (heth : airohaRegisterGdmDevices b sport b.devs Eth.reset = some eth) (ppe : Fin 2 → Regs)
    (wanMtu0 : BitVec 32) (ops : List (Op δ)) :
    MtuRun b ppe2 (MtuEth.registered eth ppe wanMtu0) ops ↔
      OpsSpare b ppe2 (MtuEth.registered eth ppe wanMtu0) ops :=
  (ready_registered sport heth ppe wanMtu0).run_iff ops

/-- With two PPEs every call has. -/
theorem mtuRun_twoPpe (h : Ready b true s) (ops : List (Op δ)) : MtuRun b true s ops := by
  have hop : ∀ (t : MtuEth δ) (op : Op δ), OpSpares b true t op := by
    intro t op
    cases op with
    | htbDestroy => trivial
    | _ => exact fun _ => Or.inl rfl
  refine (h.run_iff ops).mpr ?_
  generalize s = t
  induction ops generalizing t with
  | nil => trivial
  | cons op ops ih => exact ⟨hop t op, ih _⟩

end Calls

/-! ## Two devices of one port -/

theorem bools_nodup : [false, true].Nodup := by decide

theorem mem_bools : ∀ d : Bool, d ∈ [false, true] := by decide

/-- Two devices of GDM4. -/
def oneport : Board Bool where
  portId := fun _ => .gdm4
  devs := [false, true]
  nodup := bools_nodup
  complete := mem_bools
  ordered := by decide
  gdm2Single := by decide

/-- The first of them is the WAN. Both are opened on a board with one PPE, with one MTU. -/
theorem mtuRun_oneport :
    ∃ eth, airohaRegisterGdmDevices oneport (fun _ => 0) oneport.devs Eth.reset = some eth ∧
      MtuRun oneport false (MtuEth.registered eth (fun _ _ => 0#32) 0#32)
        [.ndoOpen false ⟨false, 0⟩, .ndoOpen true ⟨false, 0⟩] := by
  refine ⟨_, rfl, (mtuRun_iff oneport false (fun _ => 0) _ rfl _ _ _).mpr ?_⟩
  refine ⟨fun _ => Or.inr ?_, fun _ => Or.inr ?_, trivial⟩
  · decide
  · decide

/-- The LAN device is stopped again: the loop finds none in its role, and 18 is left for the WAN. -/
theorem not_mtuRun_oneport :
    ∃ eth, airohaRegisterGdmDevices oneport (fun _ => 0) oneport.devs Eth.reset = some eth ∧
      ¬ MtuRun oneport false (MtuEth.registered eth (fun _ _ => 0#32) 0#32)
        [.ndoOpen false ⟨false, 0⟩, .ndoOpen true ⟨false, 0⟩, .ndoStop true] := by
  refine ⟨_, rfl, ?_⟩
  intro hrun
  have hlast := hrun.2.2.2.2.2.2 false rfl
  revert hlast
  decide

end Airoha.Gdm.Mtu
