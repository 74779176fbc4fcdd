/-
Airoha.Qdma.AcksRuns — a meter value is set all or nothing, or not.

One equivalence for each function of `Airoha.Qdma.Acks`: it ends well exactly
when what it leaves is well. From these, `allOrNothing_iff` says for which
parameters, value and acknowledgements the call is all or nothing.
-/
import Airoha.Qdma.Acks

namespace Airoha.Qdma.Acks

open Airoha.Lib Looping

/-! ## §1 The accesses -/

/-- The meters with these parameters after `n` accesses. -/
def AckMeters.at (s : AckMeters) (para : Nat × Nat × Nat → BitVec 32) (n : Nat) : AckMeters :=
  { s with para := para, used := n }

@[simp] theorem at_cfg (s : AckMeters) (para : Nat × Nat × Nat → BitVec 32) (n : Nat) :
    (s.at para n).cfg = s.cfg := rfl
@[simp] theorem at_para (s : AckMeters) (para : Nat × Nat × Nat → BitVec 32) (n : Nat) :
    (s.at para n).para = para := rfl
@[simp] theorem at_acks (s : AckMeters) (para : Nat × Nat × Nat → BitVec 32) (n : Nat) :
    (s.at para n).acks = s.acks := rfl
@[simp] theorem at_used (s : AckMeters) (para : Nat × Nat × Nat → BitVec 32) (n : Nat) :
    (s.at para n).used = n := rfl
@[simp] theorem at_at (s : AckMeters) (para para' : Nat × Nat × Nat → BitVec 32) (n n' : Nat) :
    (s.at para n).at para' n' = s.at para' n' := rfl
@[simp] theorem at_takes (s : AckMeters) (para : Nat × Nat × Nat → BitVec 32) (n m : Nat) :
    (s.at para n).takes m = s.takes m := rfl
@[simp] theorem at_answers (s : AckMeters) (para : Nat × Nat × Nat → BitVec 32) (n m : Nat) :
    (s.at para n).answers m = s.answers m := rfl
@[simp] theorem heard_at (s : AckMeters) (para : Nat × Nat × Nat → BitVec 32) (n m : Nat)
    (x : BitVec 32) : heard (s.at para n) m x = heard s m x := rfl
@[simp] theorem endsAt_at (s : AckMeters) (para : Nat × Nat × Nat → BitVec 32) (n p : Nat)
    (old w : BitVec 32) (k : Nat) : EndsAt (s.at para n) p old w k = EndsAt s p old w k := rfl
@[simp] theorem at_param (s : AckMeters) (n : Nat) (a : ParaSet) (t : Nat) :
    (s.at s.para n).param a t = s.param a t := rfl

theorem seen_false_of_answers {s : AckMeters} {n : Nat} (h : ¬ s.answers n = true) :
    ¬ (s.acks n).seen = true := by
  intro hseen
  rw [AckMeters.answers, hseen, Bool.true_or] at h
  exact h rfl

variable {s : AckMeters}

/-- What `k` rounds leave in the parameter. -/
def written (s : AckMeters) (p : Nat) (old w : BitVec 32) (k : Nat) : BitVec 32 :=
  if ∃ j < k, s.takes (p + 2 * j) = true then w else old

theorem written_zero (p : Nat) (old w : BitVec 32) : written s p old w 0 = old := by
  rw [written, if_neg]
  rintro ⟨j, hj, -⟩
  exact absurd hj (Nat.not_lt_zero j)

theorem written_succ (p : Nat) (old w : BitVec 32) (k : Nat) :
    written s p old w (k + 1) = if s.takes (p + 2 * k) then w else written s p old w k := by
  unfold written
  by_cases hk : s.takes (p + 2 * k) = true
  · rw [if_pos hk, if_pos ⟨k, Nat.lt_succ_self k, hk⟩]
  · rw [if_neg hk]
    refine if_congr ⟨?_, ?_⟩ rfl rfl
    · rintro ⟨j, hj, htake⟩
      rcases Nat.lt_succ_iff_lt_or_eq.mp hj with hlt | rfl
      · exact ⟨j, hlt, htake⟩
      · exact absurd htake hk
    · rintro ⟨j, hj, htake⟩
      exact ⟨j, Nat.lt_succ_of_lt hj, htake⟩

/-- The variable of the write helper before round `k`. -/
def tmpBefore (s : AckMeters) (p : Nat) (old w : BitVec 32) : Nat → BitVec 32
  | 0 => 0#32
  | k + 1 => if (s.acks (p + 2 * k + 1)).seen then written s p old w (k + 1)
      else tmpBefore s p old w k

/-- As long as no round has read back the value, the next one does if its variable says so. -/
theorem readsBack_iff {p : Nat} {old w : BitVec 32} {k : Nat}
    (hgo : ∀ j < k, tmpBefore s p old w (j + 1) ≠ w) :
    ReadsBack s p old w k ↔ tmpBefore s p old w (k + 1) = w := by
  rw [ReadsBack, tmpBefore]
  by_cases hseen : (s.acks (p + 2 * k + 1)).seen = true
  · rw [if_pos hseen, if_pos hseen, written]
    by_cases htake : ∃ j < k + 1, s.takes (p + 2 * j) = true
    · rw [if_pos htake]
      obtain ⟨j, hj, h⟩ := htake
      exact ⟨fun _ => rfl, fun _ => Or.inr ⟨j, Nat.le_of_lt_succ hj, h⟩⟩
    · rw [if_neg htake]
      refine ⟨fun h => h.resolve_right ?_, Or.inl⟩
      rintro ⟨j, hj, h⟩
      exact htake ⟨j, Nat.lt_succ_of_le hj, h⟩
  · rw [if_neg hseen, if_neg hseen]
    cases k with
    | zero =>
      rw [tmpBefore]
      exact ⟨fun h => h.2.symm, fun h => ⟨rfl, h.symm⟩⟩
    | succ k =>
      exact ⟨fun h => absurd h.1 (Nat.succ_ne_zero k),
        fun h => absurd h (hgo k (Nat.lt_succ_self k))⟩

theorem endsAt_iff {p : Nat} {old w : BitVec 32} {k : Nat} :
    EndsAt s p old w k ↔
      tmpBefore s p old w (k + 1) = w ∧ ∀ j < k, tmpBefore s p old w (j + 1) ≠ w := by
  have hgo : ∀ k, (∀ j < k, ¬ ReadsBack s p old w j) ↔
      ∀ j < k, tmpBefore s p old w (j + 1) ≠ w := by
    intro k
    induction k with
    | zero =>
      exact ⟨fun _ j hj => absurd hj (Nat.not_lt_zero j),
        fun _ j hj => absurd hj (Nat.not_lt_zero j)⟩
    | succ k ih =>
      rw [Nat.forall_lt_succ_right, Nat.forall_lt_succ_right, ih]
      refine and_congr_right fun h => ?_
      rw [readsBack_iff h]
  rw [EndsAt, hgo, and_comm, and_comm (a := tmpBefore s p old w (k + 1) = w)]
  exact and_congr_right fun h => readsBack_iff h

/-- One round of the write helper. -/
theorem writeRound_ends {v : BitVec 32} {key : Nat × Nat × Nat} (hv : paraKey v = key)
    (w tmp : BitVec 32) {P : BitVec 32 → AckMeters → Prop} : (writeRound v w tmp).Ends s P ↔
      P (if (s.acks (s.used + 1)).seen then if s.takes s.used then w else s.para key else tmp)
        (s.at (if s.takes s.used then Function.update s.para key w else s.para) (s.used + 2)) := by
  have hcmd : paraKey (trtcmParaRwcmd ||| v) = key := (paraKey_rwcmd v).trans hv
  rw [writeRound, ends_bind, writeParaConfig, ends_act, ends_bind, generalGetRatelimitParaConfig,
    ends_act, ends_pure, hcmd, hv]
  dsimp only
  by_cases hseen : (s.acks (s.used + 1)).seen = true
  · rw [if_pos hseen, if_pos hseen]
    by_cases htake : s.takes s.used = true
    · rw [if_pos htake, if_pos htake, Option.getD_some, Function.update_self]
      rfl
    · rw [if_neg htake, if_neg htake]
      rfl
  · rw [if_neg hseen, if_neg hseen]
    rfl

/-- What a write that ends leaves in the parameter. -/
def behind (s : AckMeters) (p : Nat) (old w : BitVec 32) : BitVec 32 :=
  if Lost s p old w then old else w

@[simp] theorem behind_at (s : AckMeters) (para : Nat × Nat × Nat → BitVec 32) (n p : Nat)
    (old w : BitVec 32) : behind (s.at para n) p old w = behind s p old w := rfl

theorem behind_of_seen {p : Nat} {old w : BitVec 32} (h : (s.acks (p + 1)).seen = true) :
    behind s p old w = w := by
  rw [behind, if_neg]
  intro hlost
  rw [hlost.2.2.2] at h
  cases h

/-- The word asked for is the one that is left. -/
theorem lands_iff {p : Nat} {old w : BitVec 32} {asked : Option (BitVec 32)} :
    Lands s p old w asked ↔ asked = some (behind s p old w) := by
  unfold Lands behind
  split_ifs <;> exact Iff.rfl

/-- A write that ends has left its word, or the first round ended it without a trace. -/
theorem written_of_endsAt {p : Nat} {old w : BitVec 32} {k : Nat} (h : EndsAt s p old w k) :
    written s p old w (k + 1) = behind s p old w := by
  obtain ⟨hback, hfirst⟩ := h
  unfold written behind
  by_cases htake : ∃ j < k + 1, s.takes (p + 2 * j) = true
  · have hkept : ¬ Lost s p old w := by
      intro hlost
      have hzero : ReadsBack s p old w 0 := by
        rw [ReadsBack, if_neg (by simp [hlost.2.2.2])]
        exact ⟨rfl, hlost.1⟩
      obtain ⟨j, hj, h⟩ := htake
      have hk : k = 0 := by
        by_contra hk
        exact hfirst 0 (Nat.pos_of_ne_zero hk) hzero
      have hj0 : j = 0 := by omega
      rw [hj0, Nat.mul_zero, Nat.add_zero, hlost.2.2.1] at h
      cases h
    rw [if_pos htake, if_neg hkept]
  · rw [if_neg htake]
    by_cases hlost : Lost s p old w
    · rw [if_pos hlost]
    · rw [if_neg hlost]
      unfold ReadsBack at hback
      split_ifs at hback with hseen
      · refine hback.resolve_right ?_
        intro h
        obtain ⟨j, hj, h⟩ := h
        exact htake ⟨j, Nat.lt_succ_of_le hj, h⟩
      · obtain ⟨hk, hw⟩ := hback
        subst hk
        have hstill : s.takes p = false := by
          rw [Bool.eq_false_iff]
          intro h
          exact htake ⟨0, Nat.zero_lt_one, h⟩
        by_contra hne
        refine hlost ⟨hw, ?_, hstill, by simpa using hseen⟩
        intro h0
        exact hne (h0.trans hw.symm)

/-- The write helper ends with the first round that reads back the value. -/
theorem setParaConfig_rounds {v : BitVec 32} {key : Nat × Nat × Nat} (hv : paraKey v = key)
    (w : BitVec 32) {Q : Int → AckMeters → Prop} :
    (generalSetRatelimitParaConfig v w).Ends s Q ↔ ∃ k, EndsAt s s.used (s.para key) w k ∧
      Q (if s.answers (s.used + 2 * k + 1) then 0 else eTIMEDOUT)
        (s.at (Function.update s.para key (written s s.used (s.para key) w (k + 1)))
          (s.used + 2 * (k + 1))) := by
  obtain ⟨st, hst⟩ : ∃ st : Nat → AckMeters, ∀ k, st k =
      s.at (Function.update s.para key (written s s.used (s.para key) w k)) (s.used + 2 * k) :=
    ⟨_, fun _ => rfl⟩
  have hst0 : st 0 = s := by
    rw [hst, written_zero, Function.update_eq_self]
    rfl
  have hround : ∀ (k : Nat) (P : BitVec 32 → AckMeters → Prop),
      (writeRound v w (tmpBefore s s.used (s.para key) w k)).Ends (st k) P ↔
        P (tmpBefore s s.used (s.para key) w (k + 1)) (st (k + 1)) := by
    intro k P
    rw [writeRound_ends hv, hst k, hst (k + 1), tmpBefore, written_succ]
    rw [at_used, at_takes, at_acks, at_para, at_at, Function.update_self]
    by_cases htake : s.takes (s.used + 2 * k) = true
    · rw [if_pos htake, if_pos htake, Function.update_idem]
      exact Iff.rfl
    · rw [if_neg htake, if_neg htake]
      exact Iff.rfl
  unfold generalSetRatelimitParaConfig
  rw [ends_bind]
  conv_lhs => rw [← hst0]
  rw [show (0#32 : BitVec 32) = tmpBefore s s.used (s.para key) w 0 from rfl,
    ends_doWhile_seq hround]
  refine exists_congr fun k => ?_
  rw [endsAt_iff, and_assoc, ends_bind, pollDone, ends_act, ends_ite, ends_pure, ends_pure, hst,
    at_used, at_answers]
  have hlast : s.used + 2 * (k + 1) - 1 = s.used + 2 * k + 1 := by omega
  rw [hlast]
  refine and_congr ?_ (and_congr ?_ ?_)
  · rw [decide_eq_false_iff_not, not_not, eq_comm]
  · refine forall₂_congr fun j _ => ?_
    rw [decide_eq_true_iff, ne_comm]
  · by_cases hdone : s.answers (s.used + 2 * k + 1) = true
    · rw [if_pos hdone, if_pos hdone]
    · rw [if_neg hdone, if_neg hdone]

theorem setParaConfig_ends {v : BitVec 32} {key : Nat × Nat × Nat} (hv : paraKey v = key)
    (w : BitVec 32) {Q : Int → AckMeters → Prop} :
    (generalSetRatelimitParaConfig v w).Ends s Q ↔ ∃ k, EndsAt s s.used (s.para key) w k ∧
      Q (if s.answers (s.used + 2 * k + 1) then 0 else eTIMEDOUT)
        (s.at (Function.update s.para key (behind s s.used (s.para key) w))
          (s.used + 2 * (k + 1))) := by
  rw [setParaConfig_rounds hv]
  refine exists_congr fun k => and_congr_right fun hk => ?_
  rw [written_of_endsAt hk]

/-! ## §2 The calls -/

section Calls

variable {cmd : Nat → BitVec 32} {a : ParaSet} {value : BitVec 32} {Q : Int → AckMeters → Prop}

theorem misc_ends (ha : Addresses cmd a.1 a.2) {P : BitVec 32 → AckMeters → Prop} :
    (generalGetRatelimitMisc cmd).Ends s P ↔
      P (heard s s.used (s.param a trtcmMisc)) (s.at s.para (s.used + 1)) := by
  rw [generalGetRatelimitMisc, ends_bind, generalGetRatelimitParaConfig, ends_act, ends_pure,
    ha.key _ (by decide), heard]
  by_cases hseen : (s.acks s.used).seen = true
  · rw [if_pos hseen, if_pos hseen]
    rfl
  · rw [if_neg hseen, if_neg hseen]
    rfl

theorem rateLimitUnit_ends (ha : Addresses cmd a.1 a.2) {P : Option Nat → AckMeters → Prop} :
    (rateLimitUnit cmd).Ends s P ↔
      P (heardUnit s.cfg (heard s s.used (s.param a trtcmMisc))
          (heard s (s.used + 1) (s.param a trtcmMisc)))
        (s.at s.para (s.used + unitAccesses s.cfg (heard s s.used (s.param a trtcmMisc)))) := by
  rw [rateLimitUnit, ends_bind, misc_ends ha, ends_bind, readCfg, ends_act]
  rw [at_cfg, heardUnit, unitAccesses]
  obtain ⟨tick, htick⟩ : ∃ tick, heard s s.used (s.param a trtcmMisc) = tick := ⟨_, rfl⟩
  have hcur : (if tick &&& trtcmTickSel = 0#32 then fastTick s.cfg
      else fastTick s.cfg * slowTickRatio s.cfg) = curTick s.cfg tick := rfl
  rw [htick]
  dsimp only
  rw [hcur, ends_ite]
  by_cases h0 : curTick s.cfg tick = 0
  · rw [if_pos h0, if_pos (Or.inl h0), if_pos h0, ends_pure]
  · obtain ⟨pkt, hpkt⟩ : ∃ pkt, heard s (s.used + 1) (s.param a trtcmMisc) = pkt := ⟨_, rfl⟩
    have hraw : (if pkt &&& trtcmPktMode = 0#32 then 8000 / curTick s.cfg tick
        else 1000000 / curTick s.cfg tick) % 65536 = heardRaw s.cfg tick pkt := rfl
    rw [if_neg h0, if_neg h0, ends_bind, misc_ends ha, ends_ite, ends_pure, ends_pure, at_used,
      at_param, at_at, heard_at, hpkt, hraw]
    by_cases hu : heardRaw s.cfg tick pkt = 0
    · rw [if_pos hu, if_pos (Or.inr hu)]
      rfl
    · rw [if_neg hu, if_neg (not_or.mpr ⟨h0, hu⟩)]
      rfl

theorem heardUnit_some {cfg tick pkt : BitVec 32} {unit : Nat}
    (h : heardUnit cfg tick pkt = some unit) :
    curTick cfg tick ≠ 0 ∧ 0 < unit := by
  unfold heardUnit at h
  split at h
  · cases h
  · rename_i hne
    cases h
    exact ⟨fun h0 => hne (Or.inl h0), Nat.pos_of_ne_zero fun h0 => hne (Or.inr h0)⟩

/-- The meters with these two parameters of a set, after `n` accesses. -/
def AckMeters.put (s : AckMeters) (a : ParaSet) (rate shift : BitVec 32) (n : Nat) : AckMeters :=
  s.at (Function.update (Function.update s.para (trtcmTokenRate, a.1, a.2) rate)
    (trtcmBucketsizeShift, a.1, a.2) shift) n

@[simp] theorem put_used (s : AckMeters) (a : ParaSet) (rate shift : BitVec 32) (n : Nat) :
    (s.put a rate shift n).used = n := rfl
@[simp] theorem put_cfg (s : AckMeters) (a : ParaSet) (rate shift : BitVec 32) (n : Nat) :
    (s.put a rate shift n).cfg = s.cfg := rfl

@[simp] theorem put_shift (s : AckMeters) (a : ParaSet) (rate shift : BitVec 32) (n : Nat) :
    (s.put a rate shift n).param a trtcmBucketsizeShift = shift := by
  simp [AckMeters.put, AckMeters.param, AckMeters.at]

@[simp] theorem put_rate (s : AckMeters) (a : ParaSet) (rate shift : BitVec 32) (n : Nat) :
    (s.put a rate shift n).param a trtcmTokenRate = rate := by
  simp [AckMeters.put, AckMeters.param, AckMeters.at, trtcmTokenRate, trtcmBucketsizeShift]

@[simp] theorem put_misc (s : AckMeters) (a b : ParaSet) (rate shift : BitVec 32) (n : Nat) :
    (s.put b rate shift n).param a trtcmMisc = s.param a trtcmMisc := by
  simp [AckMeters.put, AckMeters.param, AckMeters.at, trtcmMisc, trtcmTokenRate,
    trtcmBucketsizeShift]

/-- Another set is left alone. -/
theorem put_of_ne {a b : ParaSet} (h : a ≠ b) (s : AckMeters) (rate shift : BitVec 32) (n t : Nat) :
    (s.put b rate shift n).param a t = s.param a t := by
  have hne : ∀ t' : Nat, (t, a.1, a.2) ≠ (t', b.1, b.2) := by
    intro t' heq
    simp only [Prod.mk.injEq] at heq
    exact h (Prod.ext heq.2.1 heq.2.2)
  simp [AckMeters.put, AckMeters.param, AckMeters.at, Function.update_of_ne (hne _)]

theorem rate_eq_put (s : AckMeters) (a : ParaSet) (rate : BitVec 32) (n : Nat) :
    s.at (Function.update s.para (trtcmTokenRate, a.1, a.2) rate) n =
      s.put a rate (s.param a trtcmBucketsizeShift) n := by
  have hother : s.param a trtcmBucketsizeShift =
      Function.update s.para (trtcmTokenRate, a.1, a.2) rate (trtcmBucketsizeShift, a.1, a.2) := by
    simp [AckMeters.param, trtcmTokenRate, trtcmBucketsizeShift]
  rw [AckMeters.put, hother, Function.update_eq_self]

theorem at_eq_put (s : AckMeters) (a : ParaSet) (n : Nat) :
    s.at s.para n = s.put a (s.param a trtcmTokenRate) (s.param a trtcmBucketsizeShift) n := by
  rw [← rate_eq_put, AckMeters.param, Function.update_eq_self]

theorem shift_eq_put (s : AckMeters) (a : ParaSet) (rate shift shift' : BitVec 32) (n n' : Nat) :
    (s.put a rate shift n).at (Function.update (s.put a rate shift n).para
      (trtcmBucketsizeShift, a.1, a.2) shift') n' = s.put a rate shift' n' := by
  simp [AckMeters.put, AckMeters.at]

/-- Without a token rate nothing is written. -/
theorem tokenRate_ends_none (ha : Addresses cmd a.1 a.2)
    (hrate : heardRate s s.used (s.param a trtcmMisc) value = none) :
    (generalSetRatelimitTokenRate cmd value).Ends s Q ↔ Q eINVAL (s.at s.para
      (s.used + unitAccesses s.cfg (heard s s.used (s.param a trtcmMisc)))) := by
  rw [generalSetRatelimitTokenRate, ends_bind, rateLimitUnit_ends ha]
  unfold heardRate rateWord at hrate
  cases hunit : heardUnit s.cfg (heard s s.used (s.param a trtcmMisc))
      (heard s (s.used + 1) (s.param a trtcmMisc)) with
  | none => exact ends_pure
  | some unit =>
    rw [hunit, Option.bind_some] at hrate
    have hbig : 0x3FFFF < value.toNat / unit := by
      by_contra hfit
      rw [if_neg hfit] at hrate
      cases hrate
    dsimp only
    rw [if_pos (Or.inl hbig), ends_pure]

/-- With a token rate it is written, and the bucket size computed. -/
theorem tokenRate_ends_some (ha : Addresses cmd a.1 a.2) {w : BitVec 32}
    (hrate : heardRate s s.used (s.param a trtcmMisc) value = some w) :
    (generalSetRatelimitTokenRate cmd value).Ends s Q ↔
      ∃ k, EndsAt s (s.used + 2) (s.param a trtcmTokenRate) w k ∧
        if s.answers (s.used + 2 + 2 * k + 1) then
          Q (bucketOf (heard s (s.used + 2 + 2 * (k + 1)) (s.param a trtcmMisc)) value)
            (s.put a (behind s (s.used + 2) (s.param a trtcmTokenRate) w)
              (s.param a trtcmBucketsizeShift) (s.used + 2 + 2 * (k + 1) + 1))
        else Q eFAULT (s.put a (behind s (s.used + 2) (s.param a trtcmTokenRate) w)
          (s.param a trtcmBucketsizeShift) (s.used + 2 + 2 * (k + 1))) := by
  rw [generalSetRatelimitTokenRate, ends_bind, rateLimitUnit_ends ha]
  unfold heardRate rateWord at hrate
  cases hunit : heardUnit s.cfg (heard s s.used (s.param a trtcmMisc))
      (heard s (s.used + 1) (s.param a trtcmMisc)) with
  | none =>
    rw [hunit, Option.bind_none] at hrate
    cases hrate
  | some unit =>
    rw [hunit, Option.bind_some] at hrate
    have hfit : ¬ 0x3FFFF < value.toNat / unit := by
      intro hbig
      rw [if_pos hbig] at hrate
      cases hrate
    rw [if_neg hfit] at hrate
    obtain ⟨hticks, hpos⟩ := heardUnit_some hunit
    have hfrac : ¬ 0x3F < value.toNat % unit * 64 / unit := by
      have := @fraction_lt value.toNat unit hpos
      omega
    dsimp only
    rw [if_neg (not_or.mpr ⟨hfit, hfrac⟩), Option.some.inj hrate, ends_bind,
      setParaConfig_ends (ha.key _ (by decide)), unitAccesses, if_neg hticks]
    refine exists_congr fun k => and_congr Iff.rfl ?_
    rw [at_used, at_para, at_answers, at_at, behind_at]
    have hput := rate_eq_put s a (behind s (s.used + 2) (s.param a trtcmTokenRate) w)
    rw [AckMeters.param] at hput
    rw [AckMeters.param, hput]
    by_cases hdone : s.answers (s.used + 2 + 2 * k + 1) = true
    · rw [if_pos hdone, if_pos hdone, if_neg (by decide), ends_bind, misc_ends ha,
        ends_pure, put_misc]
      rfl
    · rw [if_neg hdone, if_neg hdone, if_pos (by decide), ends_pure]
      rfl

/-- The bucket shift is written. -/
theorem bucketSize_ends (ha : Addresses cmd a.1 a.2) {bucket : Int} (hfit : ¬ 0x8000000 < bucket) :
    (generalSetRatelimitBucketSize cmd bucket).Ends s Q ↔
      ∃ k, EndsAt s (s.used + 1) (s.param a trtcmBucketsizeShift)
          (shiftOf (heard s s.used (s.param a trtcmMisc)) bucket) k ∧
        Q (if s.answers (s.used + 1 + 2 * k + 1) then 0 else eFAULT)
          (s.at (Function.update s.para (trtcmBucketsizeShift, a.1, a.2)
            (behind s (s.used + 1) (s.param a trtcmBucketsizeShift)
              (shiftOf (heard s s.used (s.param a trtcmMisc)) bucket)))
            (s.used + 1 + 2 * (k + 1))) := by
  rw [generalSetRatelimitBucketSize, if_neg hfit, ends_bind, misc_ends ha, ends_bind,
    setParaConfig_ends (ha.key _ (by decide))]
  refine exists_congr fun k => and_congr Iff.rfl ?_
  rw [at_used, at_para, at_answers, at_at, behind_at]
  by_cases hdone : s.answers (s.used + 1 + 2 * k + 1) = true
  · rw [if_pos hdone, if_pos hdone, if_neg (by decide), ends_pure]
    rfl
  · rw [if_neg hdone, if_neg hdone, if_pos (by decide), ends_pure]
    rfl

end Calls

/-! ## §3 One set -/

section OneSet

variable {cmd : Nat → BitVec 32} {a : ParaSet} {value : BitVec 32} {Q : Int → AckMeters → Prop}
  {para : Nat × Nat × Nat → BitVec 32} {p : Nat} {kept : Prop}
  {next : Nat → BitVec 32 → BitVec 32 → Prop → Prop}

/-- What the rest of a call asks of the calls for a set, begun after `p` accesses from parameters
`para`, says so of a failure and of a success. -/
structure Asks (s : AckMeters) (a : ParaSet) (value : BitVec 32)
    (para : Nat × Nat × Nat → BitVec 32) (p : Nat) (kept : Prop)
    (next : Nat → BitVec 32 → BitVec 32 → Prop → Prop) (Q : Int → AckMeters → Prop) : Prop where
  failed : ∀ {r : Int} {rate shift : BitVec 32} {n : Nat}, r < 0 → p ≤ n →
    (Q r ((s.at para p).put a rate shift n) ↔ (SeenTo s n → kept ∧
      s.param a trtcmTokenRate = rate ∧ s.param a trtcmBucketsizeShift = shift))
  done : ∀ {p' q' n : Nat} {w w' : BitVec 32}, s.used ≤ p' → p' + 1 < n → s.used ≤ q' → q' + 1 < n →
    p ≤ n → (Q 0 ((s.at para p).put a (behind s p' (s.param a trtcmTokenRate) w)
        (behind s q' (s.param a trtcmBucketsizeShift) w') n) ↔
      next n w w' (Lands s p' (s.param a trtcmTokenRate) w
          (rateWord (unitOf s.cfg (s.param a trtcmMisc)) value) ∧
        Lands s q' (s.param a trtcmBucketsizeShift) w'
          (some (shiftOf (s.param a trtcmMisc) (bucketOf (s.param a trtcmMisc) value)))))

/-- The bucket size of a token rate just written. -/
theorem bucket_iff (ha : Addresses cmd a.1 a.2)
    (hsame : ∀ t, (s.at para p).param a t = s.param a t) (hasks : Asks s a value para p kept next Q)
    {p' q : Nat} (hp' : s.used ≤ p') (hpq : p' + 1 < q) (hpn : p ≤ q) (w : BitVec 32) {bucket : Int}
    (hfit : ¬ 0x8000000 < bucket) :
    (generalSetRatelimitBucketSize cmd bucket).Ends
        ((s.at para p).put a (behind s p' (s.param a trtcmTokenRate) w)
          (s.param a trtcmBucketsizeShift) q) Q ↔
      BucketSettles s a value p' w bucket q next := by
  rw [bucketSize_ends ha hfit, put_misc, put_shift, hsame, BucketSettles]
  refine exists_congr fun k => and_congr Iff.rfl ?_
  rw [shift_eq_put, put_used]
  have hanswers : ((s.at para p).put a (behind s p' (s.param a trtcmTokenRate) w)
      (s.param a trtcmBucketsizeShift) q).answers (q + 1 + 2 * k + 1) =
        s.answers (q + 1 + 2 * k + 1) := rfl
  rw [hanswers]
  by_cases hdone : s.answers (q + 1 + 2 * k + 1) = true
  · rw [if_pos hdone, imp_iff_right hdone]
    exact hasks.done hp' (by omega) (by omega) (by omega) (by omega)
  · rw [if_neg hdone]
    refine ⟨fun _ h => absurd h hdone, fun _ => ?_⟩
    refine (hasks.failed (by decide) (by omega)).mpr ?_
    intro hall
    exact absurd (hall (q + 1 + 2 * k + 1) (by omega) (by omega)) (seen_false_of_answers hdone)

/-- A refusal after the token rate was written. -/
theorem refused_iff (hasks : Asks s a value para p kept next Q) {r : Int} (hr : r < 0) {p' n : Nat}
    (hp' : s.used ≤ p') (hpn : p' + 1 < n) (hn : p ≤ n) (w : BitVec 32) :
    Q r ((s.at para p).put a (behind s p' (s.param a trtcmTokenRate) w)
        (s.param a trtcmBucketsizeShift) n) ↔
      (SeenTo s n → kept ∧ s.param a trtcmTokenRate = w) := by
  rw [hasks.failed hr hn]
  refine forall_congr' fun hall => ?_
  rw [behind_of_seen (hall (p' + 1) (by omega) hpn)]
  simp

theorem rate_iff (ha : Addresses cmd a.1 a.2)
    (hsame : ∀ t, (s.at para p).param a t = s.param a t) (hp : s.used ≤ p)
    (hasks : Asks s a value para p kept next Q) :
    (setRateAndBucket cmd value).Ends (s.at para p) Q ↔ SetSettles s a value p kept next := by
  have hheard : heardRate (s.at para p) p ((s.at para p).param a trtcmMisc) value =
      heardRate s p (s.param a trtcmMisc) value := by
    rw [hsame]
    rfl
  rw [setRateAndBucket, ends_bind, SetSettles]
  cases hrate : heardRate s p (s.param a trtcmMisc) value with
  | none =>
    rw [tokenRate_ends_none ha (hheard.trans hrate), if_pos (by decide), ends_pure, at_eq_put _ a]
    simp only [hsame, at_used, at_cfg, heard_at]
    rw [hasks.failed (by decide : eINVAL < 0) (Nat.le_add_right ..)]
    simp
  | some w =>
    rw [tokenRate_ends_some ha (hheard.trans hrate)]
    simp only [hsame, at_used, endsAt_at, at_answers, heard_at, behind_at]
    rw [RateSettles]
    refine exists_congr fun k => and_congr Iff.rfl ?_
    by_cases hdone : s.answers (p + 2 + 2 * k + 1) = true
    · rw [if_pos hdone, imp_iff_right hdone]
      obtain ⟨bucket, hbucket⟩ : ∃ bucket, bucketOf (heard s (p + 2 + 2 * (k + 1))
          (s.param a trtcmMisc)) value = bucket := ⟨_, rfl⟩
      dsimp only
      rw [hbucket, ends_ite, ends_pure]
      by_cases hneg : bucket < 0
      · rw [if_pos hneg, if_pos (Or.inl hneg)]
        exact refused_iff hasks hneg (by omega) (by omega) (by omega) w
      · rw [if_neg hneg]
        by_cases hbig : 0x8000000 < bucket
        · rw [if_pos (Or.inr hbig), generalSetRatelimitBucketSize, if_pos hbig, ends_pure]
          exact refused_iff hasks (by decide) (by omega) (by omega) (by omega) w
        · rw [if_neg (not_or.mpr ⟨hneg, hbig⟩)]
          exact bucket_iff ha hsame hasks (by omega) (by omega) (by omega) w hbig
    · rw [if_neg hdone, if_pos (by decide), ends_pure]
      refine ⟨fun _ h => absurd h hdone, fun _ => ?_⟩
      refine (hasks.failed (by decide) (by omega)).mpr ?_
      intro hall
      exact absurd (hall (p + 2 + 2 * k + 1) (by omega) (by omega)) (seen_false_of_answers hdone)

end OneSet

/-! ## §4 All or nothing -/

section Meter

variable {meterIdx : Nat} {value : BitVec 32}

/-- What is asked of a result and the meters it leaves. -/
def Post (s : AckMeters) (meterIdx : Nat) (value : BitVec 32) (r : Int) (s' : AckMeters) : Prop :=
  (r = 0 → ∀ a ∈ s.sets meterIdx, Computed s' value a) ∧
    (r < 0 → SeenTo s s'.used → ∀ a ∈ s.sets meterIdx, Unchanged s s' a)

theorem post_failed_iff {r : Int} (hr : r < 0) {s' : AckMeters} :
    Post s meterIdx value r s' ↔ (SeenTo s s'.used → ∀ a ∈ s.sets meterIdx, Unchanged s s' a) := by
  have hne : r ≠ 0 := by omega
  simp [Post, hr, hne]

theorem post_done_iff {s' : AckMeters} :
    Post s meterIdx value 0 s' ↔ ∀ a ∈ s.sets meterIdx, Computed s' value a := by
  simp [Post]

theorem unchanged_put_iff {a : ParaSet} {c : AckMeters} {rate shift : BitVec 32} {n : Nat} :
    Unchanged s (c.put a rate shift n) a ↔
      s.param a trtcmTokenRate = rate ∧ s.param a trtcmBucketsizeShift = shift := by
  constructor
  · intro h
    exact ⟨by simpa using h.rate.symm, by simpa using h.shift.symm⟩
  · intro h
    exact ⟨by simpa using h.1.symm, by simpa using h.2.symm⟩

theorem unchanged_put_of_ne {a b : ParaSet} (h : a ≠ b) {c : AckMeters} {rate shift : BitVec 32}
    {n : Nat} : Unchanged s (c.put b rate shift n) a ↔ Unchanged s c a := by
  constructor
  · intro hu
    exact ⟨by simpa [put_of_ne h] using hu.rate, by simpa [put_of_ne h] using hu.shift⟩
  · intro hu
    exact ⟨by simpa [put_of_ne h] using hu.rate, by simpa [put_of_ne h] using hu.shift⟩

theorem computed_put_iff {a : ParaSet} {c : AckMeters} (hcfg : c.cfg = s.cfg)
    (hmisc : c.param a trtcmMisc = s.param a trtcmMisc) {p q : Nat} {w w' : BitVec 32} {n : Nat} :
    Computed (c.put a (behind s p (s.param a trtcmTokenRate) w)
        (behind s q (s.param a trtcmBucketsizeShift) w') n) value a ↔
      Lands s p (s.param a trtcmTokenRate) w (rateWord (unitOf s.cfg (s.param a trtcmMisc)) value) ∧
        Lands s q (s.param a trtcmBucketsizeShift) w'
          (some (shiftOf (s.param a trtcmMisc) (bucketOf (s.param a trtcmMisc) value))) := by
  rw [lands_iff, lands_iff, Option.some.injEq]
  constructor
  · intro h
    exact ⟨by simpa [hcfg, hmisc] using h.rate, by simpa [hmisc] using h.shift⟩
  · intro h
    exact ⟨by simpa [hcfg, hmisc] using h.1, by simpa [hmisc] using h.2⟩

theorem computed_put_of_ne {a b : ParaSet} (h : a ≠ b) {c : AckMeters} {rate shift : BitVec 32}
    {n : Nat} : Computed (c.put b rate shift n) value a ↔ Computed c value a := by
  constructor
  · intro hc
    exact ⟨by simpa [put_of_ne h] using hc.rate, by simpa [put_of_ne h] using hc.shift⟩
  · intro hc
    exact ⟨by simpa [put_of_ne h] using hc.rate, by simpa [put_of_ne h] using hc.shift⟩

/-- In rate-limit mode nothing comes before the set or after it. -/
theorem asks_ratelimit (hmode : s.inTrtcm meterIdx = false) :
    Asks s (ratelimitSet meterIdx) value s.para s.used True (fun _ _ _ lands => lands)
      (Post s meterIdx value) := by
  have hsets : s.sets meterIdx = [ratelimitSet meterIdx] := by
    simp [AckMeters.sets, hmode]
  constructor
  · intro r rate shift n hr _
    rw [post_failed_iff hr, hsets, List.forall_mem_singleton, unchanged_put_iff, put_used]
    simp
  · intro p' q' n w w' _ _ _ _ _
    rw [post_done_iff, hsets, List.forall_mem_singleton]
    exact computed_put_iff rfl rfl

theorem trtcmSet_ne : trtcmSet meterIdx 0 ≠ trtcmSet meterIdx 1 := by
  simp [trtcmSet]

/-- The set of the second rate, when that of the first is written. -/
theorem asks_peak (hmode : s.inTrtcm meterIdx = true) {p' q' p : Nat} {w w' : BitVec 32}
    (hp' : s.used ≤ p') (hpp : p' + 1 < p) (hq' : s.used ≤ q') (hqp : q' + 1 < p) :
    Asks s (trtcmSet meterIdx 1) value
      (s.put (trtcmSet meterIdx 0) (behind s p' (s.param (trtcmSet meterIdx 0) trtcmTokenRate) w)
        (behind s q' (s.param (trtcmSet meterIdx 0) trtcmBucketsizeShift) w') p).para p
      (s.param (trtcmSet meterIdx 0) trtcmTokenRate = w ∧
        s.param (trtcmSet meterIdx 0) trtcmBucketsizeShift = w')
      (fun _ _ _ lands =>
        (Lands s p' (s.param (trtcmSet meterIdx 0) trtcmTokenRate) w
            (rateWord (unitOf s.cfg (s.param (trtcmSet meterIdx 0) trtcmMisc)) value) ∧
          Lands s q' (s.param (trtcmSet meterIdx 0) trtcmBucketsizeShift) w'
            (some (shiftOf (s.param (trtcmSet meterIdx 0) trtcmMisc)
              (bucketOf (s.param (trtcmSet meterIdx 0) trtcmMisc) value)))) ∧ lands)
      (Post s meterIdx value) := by
  have hsets : s.sets meterIdx = [trtcmSet meterIdx 0, trtcmSet meterIdx 1] := by
    simp [AckMeters.sets, hmode]
  have hne := @trtcmSet_ne meterIdx
  constructor
  · intro r rate shift n hr hn
    rw [post_failed_iff hr, hsets, put_used]
    refine forall_congr' fun hall => ?_
    rw [behind_of_seen (hall (p' + 1) (by omega) (by omega)),
      behind_of_seen (hall (q' + 1) (by omega) (by omega))]
    simp only [List.forall_mem_cons, List.not_mem_nil, false_imp_iff, implies_true, and_true]
    rw [unchanged_put_of_ne hne, unchanged_put_iff]
    exact and_congr unchanged_put_iff Iff.rfl
  · intro p'' q'' n v v' _ _ _ _ _
    rw [post_done_iff, hsets]
    simp only [List.forall_mem_cons, List.not_mem_nil, false_imp_iff, implies_true, and_true]
    rw [computed_put_of_ne hne]
    refine and_congr (computed_put_iff rfl rfl) (computed_put_iff (s := s) (c := s.at _ p) rfl ?_)
    exact put_misc s (trtcmSet meterIdx 1) (trtcmSet meterIdx 0) _ _ p

/-- The set of the first rate. -/
theorem asks_commit (hmode : s.inTrtcm meterIdx = true) :
    Asks s (trtcmSet meterIdx 0) value s.para s.used True
      (fun n w w' lands => SetSettles s (trtcmSet meterIdx 1) value n
        (s.param (trtcmSet meterIdx 0) trtcmTokenRate = w ∧
          s.param (trtcmSet meterIdx 0) trtcmBucketsizeShift = w')
          fun _ _ _ lands' => lands ∧ lands')
      (fun r s' => if r < 0 then Post s meterIdx value r s'
        else (setRateAndBucket (trtcmParaCfg (meterIdx % 65536) 1) value).Ends s'
          (Post s meterIdx value)) := by
  have hsets : s.sets meterIdx = [trtcmSet meterIdx 0, trtcmSet meterIdx 1] := by
    simp [AckMeters.sets, hmode]
  have hne := @trtcmSet_ne meterIdx
  constructor
  · intro r rate shift n hr _
    rw [if_pos hr, post_failed_iff hr, hsets, put_used]
    refine forall_congr' fun hall => ?_
    simp only [List.forall_mem_cons, List.not_mem_nil, false_imp_iff, implies_true,
      and_true, true_and]
    rw [unchanged_put_of_ne hne.symm, unchanged_put_iff]
    exact and_iff_left ⟨rfl, rfl⟩
  · intro p' q' n w w' hp' hpn hq' hqn hn
    rw [if_neg (by decide)]
    refine rate_iff (addresses_trtcm _ (by decide)) ?_ hn (asks_peak hmode hp' hpn hq' hqn)
    intro t
    exact put_of_ne hne.symm s _ _ n t

/-- The call is all or nothing exactly when what its accesses hear and leave settles. -/
theorem allOrNothing_iff (s : AckMeters) (meterIdx : Nat) (value : BitVec 32) :
    AllOrNothing s meterIdx value ↔ Settles s meterIdx value := by
  have hrefused : Post s meterIdx value eINVAL s := by
    rw [post_failed_iff (by decide)]
    intro _ a _
    exact ⟨rfl, rfl⟩
  rw [AllOrNothing, airohaDpApiQdmaSetMeterValue, airohaQdmaGeneralSetRatelimitModeValue, ends_bind,
    readCfg, ends_act, Settles]
  have htrtcm : (if 0 < qdmaMeterGroup (meterIdx % 65536) then false
      else decide (fieldGet 30 1 s.cfg ≠ 0#32)) = s.inTrtcm meterIdx := rfl
  dsimp only
  rw [htrtcm, ends_ite, ends_pure]
  by_cases hvalid : checkIndexValid (s.inTrtcm meterIdx) (meterIdx % 65536) = true
  · rw [if_neg (by rw [hvalid]; decide), imp_iff_right hvalid, ends_ite]
    cases hmode : s.inTrtcm meterIdx with
    | false =>
      rw [if_neg Bool.false_ne_true, if_neg Bool.false_ne_true]
      exact rate_iff (addresses_ratelimit _) (fun _ => rfl) le_rfl (asks_ratelimit hmode)
    | true =>
      rw [if_pos rfl, if_pos rfl, ends_bind]
      have hseq : ∀ (r : Int) (s' : AckMeters), (ite (r < 0) (pure r)
          (setRateAndBucket (trtcmParaCfg (meterIdx % 65536) 1) value) : AckDrv Int).Ends s'
            (Post s meterIdx value) ↔
          if r < 0 then Post s meterIdx value r s'
          else (setRateAndBucket (trtcmParaCfg (meterIdx % 65536) 1) value).Ends s'
            (Post s meterIdx value) := by
        intro r s'
        rw [ends_ite, ends_pure]
      rw [show s = s.at s.para s.used from rfl]
      refine (ends_congr hseq).trans ?_
      exact rate_iff (addresses_trtcm _ (by decide)) (fun _ => rfl) le_rfl (asks_commit hmode)
  · rw [if_pos (Bool.eq_false_iff.mpr hvalid)]
    exact ⟨fun _ h => absurd h hvalid, fun _ => hrefused⟩

end Meter

/-! ## §5 Meters that fail -/

/-- A packet meter with a fast tick of 125 microseconds; `acks` is what becomes of its accesses. -/
def packetMeters (acks : Nat → Ack) : AckMeters :=
  { cfg := 0x8007d#32
    para := fun k => if k.1 = trtcmMisc then 2#32 else 0#32
    acks := acks
    used := 0 }

/-- An access that is acknowledged, and one that does nothing. -/
def answering : Ack := { seen := true, late := false, effect := true }
def dead : Ack := { seen := false, late := false, effect := false }

/-- The first two accesses do nothing. -/
def deafAtFirst (n : Nat) : Ack := if n < 2 then dead else answering

/-- A value above 0x8000000 is refused when its token rate is already stored; a memory that does not
answer keeps the write helper for ever; with both readings of the misc parameter lost the rate
is that of a byte meter. -/
theorem not_allOrNothing_packet :
    ¬ AllOrNothing (packetMeters fun _ => answering) 0 0x8000001#32 ∧
      ¬ AllOrNothing (packetMeters fun _ => dead) 0 1000#32 ∧
      ¬ AllOrNothing (packetMeters deafAtFirst) 0 1000#32 := by
  refine ⟨fun h => ?_, fun h => ?_, fun h => ?_⟩
  · have hrun : ((airohaDpApiQdmaSetMeterValue 0 0x8000001#32).run 1
        (packetMeters fun _ => answering)).map
          (fun x => (x.1, x.2.param (ratelimitSet 0) trtcmTokenRate)) =
            some (eINVAL, 1073741#32) := by
      decide
    obtain ⟨⟨r, s'⟩, hrun', heq⟩ := Option.map_eq_some_iff.mp hrun
    obtain ⟨rfl, hrate⟩ := Prod.mk.inj heq
    have hsame := ((h.of_run hrun').2 (by decide) (fun _ _ _ => rfl) (ratelimitSet 0)
      (by decide)).rate
    rw [hrate] at hsame
    exact absurd hsame (by decide)
  · have hsettles := (allOrNothing_iff _ 0 1000#32).mp h (by decide)
    rw [if_neg (by decide)] at hsettles
    have hrate : heardRate (packetMeters fun _ => dead) 0
        ((packetMeters fun _ => dead).param (ratelimitSet 0) trtcmMisc) 1000#32 = some 1000#32 := by
      decide
    unfold SetSettles at hsettles
    rw [show (packetMeters fun _ => dead).used = 0 from rfl, hrate] at hsettles
    obtain ⟨k, ⟨hback, -⟩, -⟩ := hsettles
    rw [ReadsBack, if_neg (by simp [packetMeters, dead])] at hback
    exact absurd hback.2 (by decide)
  · have hrun : ((airohaDpApiQdmaSetMeterValue 0 1000#32).run 1 (packetMeters deafAtFirst)).map
        (fun x => (x.1, rateWord (unitOf x.2.cfg (x.2.param (ratelimitSet 0) trtcmMisc)) 1000#32,
          x.2.param (ratelimitSet 0) trtcmTokenRate)) = some (0, some 8#32, 1000#32) := by
      decide
    obtain ⟨⟨r, s'⟩, hrun', heq⟩ := Option.map_eq_some_iff.mp hrun
    obtain ⟨rfl, hpair⟩ := Prod.mk.inj heq
    obtain ⟨hword, hrate⟩ := Prod.mk.inj hpair
    have hcomputed := ((h.of_run hrun').1 rfl (ratelimitSet 0) (by decide)).rate
    rw [hrate, hword] at hcomputed
    exact absurd hcomputed (by decide)

end Airoha.Qdma.Acks
