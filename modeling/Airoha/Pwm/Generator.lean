/-
Airoha.Pwm.Generator — which generator is picked.

`airoha_pwm_get_generator` returns a bucket that gives the requested waveform
as it is, or else one that nobody uses, or else it recycles one: of the buckets
that are not longer, in period and in on-time, than what is requested it should
be one with the longest period and among these with the longest on-time.

The scan for the last takes a bucket only if both the period is not shorter and
the on-time is longer than those of the bucket it has, and it compares on-times
that are computed in 32 bits. `getGenerator_bestMatch_iff` says for which
tables that comes to the documented choice, and `Aligned.bestMatch` that it does
where no product wraps and a longer period comes with a longer on-time.
-/
import Airoha.Pwm.Runs
import Airoha.Lib.Record

namespace Airoha.Pwm

open Airoha.Lib

/-! ## What is asked -/

variable (t : Nat → Bucket) (d p : BitVec 32)

/-- A used bucket with equal period and duty, or both at full duty. -/
def Matches (i : Nat) : Prop :=
  (t i).used ≠ 0 ∧ (d = (t i).dutyTicks ∧ p = (t i).periodTicks ∨
    d = dutyFull ∧ (t i).dutyTicks = dutyFull)

/-- The on-time, in 255ths of a tick. -/
def onTime (periodTicks dutyTicks : BitVec 32) : Nat := periodTicks.toNat * dutyTicks.toNat

/-- A used bucket of which neither period nor on-time is longer than requested. -/
structure Candidate (i : Nat) : Prop where
  used : (t i).used ≠ 0
  period : (t i).periodTicks ≤ p
  onTime : onTime (t i).periodTicks (t i).dutyTicks ≤ onTime p d

/-- A candidate of maximal period and, among those, of maximal on-time. -/
structure Best (i : Nat) : Prop where
  candidate : Candidate t d p i
  maximal : ∀ j < 8, Candidate t d p j → (t j).periodTicks < (t i).periodTicks ∨
    (t j).periodTicks = (t i).periodTicks ∧
      onTime (t j).periodTicks (t j).dutyTicks ≤ onTime (t i).periodTicks (t i).dutyTicks

/-- Nothing in the table matches, and nothing in it is unused. -/
structure Recycles : Prop where
  noMatch : ¬ ∃ i < 8, Matches t d p i
  noUnused : ¬ ∃ i < 8, (t i).used = 0

/-- `r` is the documented choice. -/
structure BestMatch (r : Int) : Prop where
  matching : (∃ i < 8, Matches t d p i) → ∃ i < 8, Matches t d p i ∧ r = (i : Int)
  unused : (¬ ∃ i < 8, Matches t d p i) → (∃ i < 8, (t i).used = 0) →
    ∃ i < 8, (t i).used = 0 ∧ r = (i : Int)
  recycled : Recycles t d p → (∃ i < 8, Candidate t d p i) → ∃ i < 8, Best t d p i ∧ r = (i : Int)
  missing : Recycles t d p → (¬ ∃ i < 8, Candidate t d p i) → r = -enoent

/-! ## The scan -/

/-- The on-time of a bucket as the driver computes it. -/
def dutyNs (i : Nat) : BitVec 32 := airohaPwmGetDutyNsFromTicks (t i).periodTicks (t i).dutyTicks

/-- A bucket that the scan may take: its period is not longer and its computed on-time is positive
and not longer than the requested one. -/
def Offers (i : Nat) : Prop :=
  (t i).periodTicks ≤ p ∧ 0#32 < dutyNs t i ∧ dutyNs t i ≤ airohaPwmGetDutyNsFromTicks p d

/-- The scan gives up bucket `k` for bucket `i`. -/
def Beats (k i : Nat) : Prop := (t k).periodTicks ≤ (t i).periodTicks ∧ dutyNs t k < dutyNs t i

instance : DecidablePred (Offers t d p) := fun _ => inferInstanceAs (Decidable (_ ∧ _ ∧ _))

instance : DecidableRel (Beats t) := fun _ _ => inferInstanceAs (Decidable (_ ∧ _))

/-- A bucket that the scan takes: it beats every bucket taken before. -/
def Taken (i : Nat) : Prop := IsRecord (Offers t d p) (Beats t) i

/-- The buckets of the table are such that recycling comes to the documented choice: a best bucket
is taken and nothing after it beats it, or there is no candidate and nothing that offers itself. -/
def Recyclable : Prop :=
  (∃ i < 8, Best t d p i ∧ Taken t d p i ∧ ∀ j, i < j → j < 8 → ¬ (Offers t d p j ∧ Beats t i j)) ∨
    (¬ ∃ i < 8, Candidate t d p i) ∧ ∀ i < 8, ¬ Offers t d p i

variable {t d p}

theorem beats_trans (i j k : Nat) (hij : Beats t i j) (hjk : Beats t j k) : Beats t i k :=
  ⟨BitVec.le_trans hij.1 hjk.1, BitVec.lt_trans hij.2 hjk.2⟩

/-! ## One round -/

/-- The variables of the scan after the first `i` buckets: those of the bucket it has, if any. -/
structure Scanned (t : Nat → Bucket) (d p : BitVec 32) (i : Nat) (s : Search) : Prop where
  unused : s.unused < 0
  best : s.best = (lastRecord (Offers t d p) (Beats t) i).elim (-enoent) fun k => (k : Int)
  period : s.bestPeriodTicks =
    (lastRecord (Offers t d p) (Beats t) i).elim 0#32 fun k => (t k).periodTicks
  duty : s.bestDutyNs = (lastRecord (Offers t d p) (Beats t) i).elim 0#32 (dutyNs t)

/-- The three comparisons of a round are those of a bucket that is taken. -/
theorem taken_iff_of_scanned {i : Nat} {s : Search} (h : Scanned t d p i s) :
    Taken t d p i ↔ (t i).periodTicks ≤ p ∧ s.bestPeriodTicks ≤ (t i).periodTicks ∧
      dutyNs t i ≤ airohaPwmGetDutyNsFromTicks p d ∧ s.bestDutyNs < dutyNs t i := by
  rw [h.period, h.duty, Taken, IsRecord]
  cases lastRecord (Offers t d p) (Beats t) i with
  | none =>
    constructor
    · rintro ⟨⟨hperiod, hpos, hle⟩, -⟩
      exact ⟨hperiod, BitVec.le_def.mpr (Nat.zero_le _), hle, hpos⟩
    · rintro ⟨hperiod, -, hle, hpos⟩
      exact ⟨⟨hperiod, hpos, hle⟩, fun k hk => by cases hk⟩
  | some k =>
    constructor
    · rintro ⟨⟨hperiod, -, hle⟩, hbeats⟩
      obtain ⟨hk, hlt⟩ := hbeats k rfl
      exact ⟨hperiod, hk, hle, hlt⟩
    · rintro ⟨hperiod, hk, hle, hlt⟩
      refine ⟨⟨hperiod, ?_, hle⟩, fun k' hk' => ?_⟩
      · exact BitVec.lt_def.mpr (Nat.lt_of_le_of_lt (Nat.zero_le _) (BitVec.lt_def.mp hlt))
      · obtain rfl : k = k' := Option.some.inj hk'
        exact ⟨hk, hlt⟩

/-- A round of the loop at a used bucket that does not match, with no unused bucket before. -/
theorem generatorLoop_used {i n : Nat} {s : Search} (hused : (t i).used ≠ 0)
    (hmatch : ¬ Matches t d p i) (h : Scanned t d p i s) :
    ∃ s', Scanned t d p (i + 1) s' ∧
      generatorLoop t d p (airohaPwmGetDutyNsFromTicks p d) i (n + 1) s =
        generatorLoop t d p (airohaPwmGetDutyNsFromTicks p d) (i + 1) n s' := by
  have hequal : ¬ (d = (t i).dutyTicks ∧ p = (t i).periodTicks) := fun he => hmatch ⟨hused, .inl he⟩
  have hfull : ¬ (d = dutyFull ∧ (t i).dutyTicks = dutyFull) := fun hf => hmatch ⟨hused, .inr hf⟩
  have hunused : ¬ 0 ≤ s.unused := Int.not_le.mpr h.unused
  rw [generatorLoop]
  simp only [if_neg hused, if_neg hequal, if_neg hfull, if_neg hunused]
  by_cases htaken : Taken t d p i
  · obtain ⟨hperiod, hbest, hle, hlt⟩ := (taken_iff_of_scanned h).mp htaken
    rw [if_neg (BitVec.not_lt.mpr hperiod), if_pos hbest, ← dutyNs, if_neg (BitVec.not_lt.mpr hle),
      if_pos hlt]
    refine ⟨{ s with bestPeriodTicks := (t i).periodTicks, bestDutyNs := dutyNs t i, best := i },
      ⟨h.unused, ?_, ?_, ?_⟩, rfl⟩
    · rw [lastRecord_succ_of_record htaken]
      rfl
    · rw [lastRecord_succ_of_record htaken]
      rfl
    · rw [lastRecord_succ_of_record htaken]
      rfl
  · refine ⟨s, ⟨h.unused, ?_, ?_, ?_⟩, ?_⟩
    · rw [lastRecord_succ_of_not htaken]
      exact h.best
    · rw [lastRecord_succ_of_not htaken]
      exact h.period
    · rw [lastRecord_succ_of_not htaken]
      exact h.duty
    · rw [← dutyNs]
      split
      · rfl
      split
      · split
        · rfl
        split
        · rename_i hperiod hbest hle hlt
          exact absurd ((taken_iff_of_scanned h).mpr ⟨BitVec.not_lt.mp hperiod, hbest,
            BitVec.not_lt.mp hle, hlt⟩) htaken
        · rfl
      · rfl

/-! ## The loop -/

/-- A match that is still to come is returned. -/
theorem generatorLoop_match (n : Nat) : ∀ {i : Nat} (o : BitVec 32) (s : Search),
    (∃ j, i ≤ j ∧ j < i + n ∧ Matches t d p j) →
      ∃ j < i + n, Matches t d p j ∧ generatorLoop t d p o i n s = (j : Int) := by
  induction n with
  | zero =>
    rintro i o s ⟨j, hij, hj, -⟩
    omega
  | succ n ih =>
    rintro i o s ⟨j, hij, hj, hmatch⟩
    rw [generatorLoop]
    by_cases hi : Matches t d p i
    · obtain ⟨hused, hequal⟩ := hi
      refine ⟨i, by omega, ⟨hused, hequal⟩, ?_⟩
      simp only [if_neg hused]
      rcases hequal with hequal | hfull
      · rw [if_pos hequal]
      · split
        · rfl
        · rfl
    · have hne : j ≠ i := fun heq => hi (heq ▸ hmatch)
      have hlater : ∃ j, i + 1 ≤ j ∧ j < i + 1 + n ∧ Matches t d p j :=
        ⟨j, by omega, by omega, hmatch⟩
      have hnext : ∀ s', ∃ j < i + (n + 1), Matches t d p j ∧
          generatorLoop t d p o (i + 1) n s' = (j : Int) := by
        intro s'
        obtain ⟨j', hj', hmatch', hloop⟩ := ih o s' hlater
        exact ⟨j', by omega, hmatch', hloop⟩
      dsimp only
      split
      · exact hnext _
      rename_i hused
      rw [if_neg (fun hequal => hi ⟨hused, .inl hequal⟩),
        if_neg (fun hfull => hi ⟨hused, .inr hfull⟩)]
      split
      · exact hnext _
      split
      · exact hnext _
      split
      · split
        · exact hnext _
        split
        · exact hnext _
        · exact hnext _
      · exact hnext _

/-- With no match, an unused bucket that was seen or is still to come is returned. -/
theorem generatorLoop_unused (n : Nat) : ∀ {i : Nat} (o : BitVec 32) (s : Search),
    (∀ j, i ≤ j → j < i + n → ¬ Matches t d p j) →
    ((∃ j, i ≤ j ∧ j < i + n ∧ (t j).used = 0) ∨ ∃ j < i, (t j).used = 0 ∧ s.unused = (j : Int)) →
      ∃ j < i + n, (t j).used = 0 ∧ generatorLoop t d p o i n s = (j : Int) := by
  induction n with
  | zero =>
    rintro i o s - (⟨j, hij, hj, -⟩ | ⟨j, hj, hused, hs⟩)
    · omega
    · refine ⟨j, hj, hused, ?_⟩
      rw [generatorLoop, hs, if_pos (by omega)]
  | succ n ih =>
    intro i o s hmatch hfree
    have hnext : ∀ s', ((∃ j, i + 1 ≤ j ∧ j < i + 1 + n ∧ (t j).used = 0) ∨
        ∃ j < i + 1, (t j).used = 0 ∧ s'.unused = (j : Int)) →
        ∃ j < i + (n + 1), (t j).used = 0 ∧ generatorLoop t d p o (i + 1) n s' = (j : Int) := by
      intro s' hfree'
      obtain ⟨j, hj, hused, hloop⟩ :=
        ih o s' (fun j hj hjn => hmatch j (by omega) (by omega)) hfree'
      exact ⟨j, by omega, hused, hloop⟩
    rw [generatorLoop]
    dsimp only
    by_cases hused : (t i).used = 0
    · rw [if_pos hused]
      exact hnext _ (.inr ⟨i, Nat.lt_succ_self i, hused, rfl⟩)
    · have hi := hmatch i le_rfl (by omega)
      have hsame : ∀ s', s'.unused = s.unused →
          ∃ j < i + (n + 1), (t j).used = 0 ∧ generatorLoop t d p o (i + 1) n s' = (j : Int) := by
        intro s' hs'
        apply hnext
        rcases hfree with ⟨j, hij, hj, hjused⟩ | ⟨j, hj, hjused, hs⟩
        · have hne : j ≠ i := fun heq => hused (heq ▸ hjused)
          exact .inl ⟨j, by omega, by omega, hjused⟩
        · exact .inr ⟨j, by omega, hjused, hs'.trans hs⟩
      rw [if_neg hused, if_neg (fun hequal => hi ⟨hused, .inl hequal⟩),
        if_neg (fun hfull => hi ⟨hused, .inr hfull⟩)]
      split
      · exact hsame _ rfl
      split
      · exact hsame _ rfl
      split
      · split
        · exact hsame _ rfl
        split
        · exact hsame _ rfl
        · exact hsame _ rfl
      · exact hsame _ rfl

/-- With neither, the last bucket taken is. -/
theorem generatorLoop_recycles (n : Nat) : ∀ {i : Nat} (s : Search),
    (∀ j, i ≤ j → j < i + n → (t j).used ≠ 0 ∧ ¬ Matches t d p j) → Scanned t d p i s →
      generatorLoop t d p (airohaPwmGetDutyNsFromTicks p d) i n s =
        (lastRecord (Offers t d p) (Beats t) (i + n)).elim (-enoent) fun k => (k : Int) := by
  induction n with
  | zero =>
    intro i s _ h
    rw [generatorLoop, if_neg (Int.not_le.mpr h.unused)]
    exact h.best
  | succ n ih =>
    intro i s hall h
    obtain ⟨hused, hmatch⟩ := hall i le_rfl (by omega)
    obtain ⟨s', hs', hloop⟩ := generatorLoop_used (n := n) hused hmatch h
    rw [hloop, ih s' (fun j hj hjn => hall j (by omega) (by omega)) hs']
    congr 2
    omega

/-! ## The result -/

section GetGenerator

variable (pc : AirohaPwm)

theorem getGenerator_match (h : ∃ i < 8, Matches pc.buckets d p i) :
    ∃ i < 8, Matches pc.buckets d p i ∧ airohaPwmGetGenerator pc d p = (i : Int) := by
  obtain ⟨i, hi, hmatch⟩ := h
  exact generatorLoop_match 8 _ _ ⟨i, Nat.zero_le i, by omega, hmatch⟩

theorem getGenerator_unused (hmatch : ¬ ∃ i < 8, Matches pc.buckets d p i)
    (h : ∃ i < 8, (pc.buckets i).used = 0) :
    ∃ i < 8, (pc.buckets i).used = 0 ∧ airohaPwmGetGenerator pc d p = (i : Int) := by
  obtain ⟨i, hi, hused⟩ := h
  exact generatorLoop_unused 8 _ _ (fun j _ hj hm => hmatch ⟨j, by omega, hm⟩)
    (.inl ⟨i, Nat.zero_le i, by omega, hused⟩)

theorem getGenerator_recycles (h : Recycles pc.buckets d p) : airohaPwmGetGenerator pc d p =
    (lastRecord (Offers pc.buckets d p) (Beats pc.buckets) 8).elim (-enoent) fun k => (k : Int) :=
  generatorLoop_recycles 8 _
    (fun j _ hj => ⟨fun hused => h.noUnused ⟨j, by omega, hused⟩,
      fun hm => h.noMatch ⟨j, by omega, hm⟩⟩)
    ⟨by decide, rfl, rfl, rfl⟩

/-- Recycling comes to the documented choice exactly for a recyclable table. -/
theorem recycled_iff (h : Recycles pc.buckets d p) :
    ((∃ i < 8, Candidate pc.buckets d p i) →
        ∃ i < 8, Best pc.buckets d p i ∧ airohaPwmGetGenerator pc d p = (i : Int)) ∧
      ((¬ ∃ i < 8, Candidate pc.buckets d p i) → airohaPwmGetGenerator pc d p = -enoent) ↔
      Recyclable pc.buckets d p := by
  rw [getGenerator_recycles pc h]
  constructor
  · rintro ⟨hsome, hnone⟩
    by_cases hcand : ∃ i < 8, Candidate pc.buckets d p i
    · obtain ⟨i, hi, hbest, hret⟩ := hsome hcand
      left
      refine ⟨i, hi, hbest, ?_⟩
      cases hlast : lastRecord (Offers pc.buckets d p) (Beats pc.buckets) 8 with
      | none =>
        rw [hlast] at hret
        have henoent : -enoent = (i : Int) := hret
        unfold enoent at henoent
        omega
      | some k =>
        rw [hlast] at hret
        obtain rfl : k = i := Int.ofNat.inj hret
        obtain ⟨-, htaken, hafter⟩ := (lastRecord_eq_some_iff beats_trans).mp hlast
        exact ⟨htaken, hafter⟩
    · right
      refine ⟨hcand, ?_⟩
      have hret := hnone hcand
      cases hlast : lastRecord (Offers pc.buckets d p) (Beats pc.buckets) 8 with
      | none => exact lastRecord_eq_none_iff.mp hlast
      | some k =>
        rw [hlast] at hret
        have henoent : (k : Int) = -enoent := hret
        unfold enoent at henoent
        omega
  · rintro (⟨i, hi, hbest, htaken, hafter⟩ | ⟨hcand, hoffers⟩)
    · rw [(lastRecord_eq_some_iff beats_trans).mpr ⟨hi, htaken, hafter⟩]
      exact ⟨fun _ => ⟨i, hi, hbest, rfl⟩, fun hnot => absurd ⟨i, hi, hbest.candidate⟩ hnot⟩
    · rw [lastRecord_eq_none_iff.mpr hoffers]
      exact ⟨fun hc => absurd hc hcand, fun _ => rfl⟩

/-- The scans for a bucket that matches and for an unused one are right for every table. -/
theorem bestMatch_of_recyclable (h : Recycles pc.buckets d p → Recyclable pc.buckets d p) :
    BestMatch pc.buckets d p (airohaPwmGetGenerator pc d p) where
  matching := getGenerator_match pc
  unused := getGenerator_unused pc
  recycled hrec := ((recycled_iff pc hrec).mpr (h hrec)).1
  missing hrec := ((recycled_iff pc hrec).mpr (h hrec)).2

/-- The generator is the documented choice if one matches or is unused, and otherwise exactly for a
recyclable table. -/
theorem getGenerator_bestMatch_iff :
    BestMatch pc.buckets d p (airohaPwmGetGenerator pc d p) ↔
      (∃ i < 8, Matches pc.buckets d p i) ∨ (∃ i < 8, (pc.buckets i).used = 0) ∨
        Recyclable pc.buckets d p := by
  constructor
  · intro h
    by_cases hmatch : ∃ i < 8, Matches pc.buckets d p i
    · exact .inl hmatch
    by_cases hunused : ∃ i < 8, (pc.buckets i).used = 0
    · exact .inr (.inl hunused)
    have hrec : Recycles pc.buckets d p := ⟨hmatch, hunused⟩
    exact .inr (.inr ((recycled_iff pc hrec).mp ⟨h.recycled hrec, h.missing hrec⟩))
  · intro h
    have hrecycled : Recycles pc.buckets d p → Recyclable pc.buckets d p := fun hrec =>
      (h.resolve_left hrec.noMatch).resolve_left hrec.noUnused
    exact bestMatch_of_recyclable pc hrecycled

end GetGenerator

/-! ## A table where it is -/

/-- The on-times fit 32 bits, every bucket is on for some time, and one with a longer period is on
for longer. -/
structure Aligned (t : Nat → Bucket) (d p : BitVec 32) : Prop where
  asked : onTime p d * periodTickNs < 2 ^ 32
  fits : ∀ i < 8, onTime (t i).periodTicks (t i).dutyTicks * periodTickNs < 2 ^ 32
  on : ∀ i < 8, 0 < onTime (t i).periodTicks (t i).dutyTicks
  longer : ∀ i < 8, ∀ j < 8, (t i).periodTicks < (t j).periodTicks →
    onTime (t i).periodTicks (t i).dutyTicks < onTime (t j).periodTicks (t j).dutyTicks

/-- The nanoseconds of a duty: the product loses what is above 32 bits. -/
theorem toNat_dutyNsFromTicks (p d : BitVec 32) : (airohaPwmGetDutyNsFromTicks p d).toNat =
    (d.toNat * (p.toNat * periodTickNs) % 2 ^ 32 + 254) / 255 := by
  have hlt : d.toNat * (p.toNat * periodTickNs) % 2 ^ 32 < 2 ^ 32 := Nat.mod_lt _ (by decide)
  rw [airohaPwmGetDutyNsFromTicks, BitVec.toNat_ofNat, BitVec.toNat_mul, BitVec.toNat_ofNat,
    Nat.mul_mod_mod]
  generalize d.toNat * (p.toNat * periodTickNs) % 2 ^ 32 = w at hlt ⊢
  show (w + 255 - 1) / 255 % 2 ^ 32 = (w + 254) / 255
  omega

theorem toNat_dutyNsFromTicks_of_fits {p d : BitVec 32} (h : onTime p d * periodTickNs < 2 ^ 32) :
    (airohaPwmGetDutyNsFromTicks p d).toNat = (onTime p d * periodTickNs + 254) / 255 := by
  have hprod : d.toNat * (p.toNat * periodTickNs) = onTime p d * periodTickNs := by
    rw [onTime]
    ring
  rw [toNat_dutyNsFromTicks, hprod, Nat.mod_eq_of_lt h]

/-- Without a wrap the computed on-times compare like the true ones. -/
theorem dutyNsFromTicks_lt_iff {p d p' d' : BitVec 32} (h : onTime p d * periodTickNs < 2 ^ 32)
    (h' : onTime p' d' * periodTickNs < 2 ^ 32) :
    airohaPwmGetDutyNsFromTicks p d < airohaPwmGetDutyNsFromTicks p' d' ↔
      onTime p d < onTime p' d' := by
  rw [BitVec.lt_def, toNat_dutyNsFromTicks_of_fits h, toNat_dutyNsFromTicks_of_fits h',
    periodTickNs]
  omega

section Aligned

variable {t : Nat → Bucket} {d p : BitVec 32}

theorem Aligned.offers_iff (h : Aligned t d p) (hrec : Recycles t d p) {i : Nat} (hi : i < 8) :
    Offers t d p i ↔ Candidate t d p i := by
  have hpos : 0#32 < dutyNs t i := by
    have hon := h.on i hi
    rw [dutyNs, BitVec.lt_def, toNat_dutyNsFromTicks_of_fits (h.fits i hi), BitVec.toNat_zero,
      periodTickNs]
    omega
  have hle : dutyNs t i ≤ airohaPwmGetDutyNsFromTicks p d ↔
      onTime (t i).periodTicks (t i).dutyTicks ≤ onTime p d := by
    rw [← BitVec.not_lt, dutyNs, dutyNsFromTicks_lt_iff h.asked (h.fits i hi), Nat.not_lt]
  constructor
  · intro ⟨hperiod, _, hduty⟩
    exact ⟨fun hused => hrec.noUnused ⟨i, hi, hused⟩, hperiod, hle.mp hduty⟩
  · intro hcand
    exact ⟨hcand.period, hpos, hle.mpr hcand.onTime⟩

/-- The longest on-time comes with the longest period. -/
theorem Aligned.beats_iff (h : Aligned t d p) {i j : Nat} (hi : i < 8) (hj : j < 8) :
    Beats t i j ↔
      onTime (t i).periodTicks (t i).dutyTicks < onTime (t j).periodTicks (t j).dutyTicks := by
  rw [Beats, dutyNs, dutyNs, dutyNsFromTicks_lt_iff (h.fits i hi) (h.fits j hj)]
  constructor
  · intro ⟨_, hlt⟩
    exact hlt
  · intro hlt
    refine ⟨?_, hlt⟩
    rw [← BitVec.not_lt]
    intro hperiod
    exact absurd (h.longer j hj i hi hperiod) (Nat.lt_asymm hlt)

theorem Aligned.recyclable (h : Aligned t d p) (hrec : Recycles t d p) : Recyclable t d p := by
  have hirrefl : ∀ i, ¬ Beats t i i := fun i hi => BitVec.lt_irrefl _ hi.2
  cases hlast : lastRecord (Offers t d p) (Beats t) 8 with
  | none =>
    have hoffers := lastRecord_eq_none_iff.mp hlast
    refine .inr ⟨?_, hoffers⟩
    intro ⟨i, hi, hcand⟩
    exact hoffers i hi ((h.offers_iff hrec hi).mpr hcand)
  | some k =>
    obtain ⟨hk, htaken, hafter⟩ := (lastRecord_eq_some_iff beats_trans).mp hlast
    have hunbeaten := not_beats_lastRecord beats_trans hirrefl hlast
    refine .inl ⟨k, hk, ⟨(h.offers_iff hrec hk).mp htaken.1, ?_⟩, htaken, hafter⟩
    intro j hj hcand
    have hle : onTime (t j).periodTicks (t j).dutyTicks ≤
        onTime (t k).periodTicks (t k).dutyTicks := by
      have hnot := hunbeaten j hj ((h.offers_iff hrec hj).mpr hcand)
      rwa [h.beats_iff hk hj, Nat.not_lt] at hnot
    rcases BitVec.lt_trichotomy (t j).periodTicks (t k).periodTicks with hlt | heq | hgt
    · exact .inl hlt
    · exact .inr ⟨heq, hle⟩
    · exact absurd (h.longer k hk j hj hgt) (Nat.not_lt.mpr hle)

end Aligned

/-- The generator is the documented choice for every aligned table. -/
theorem Aligned.bestMatch {pc : AirohaPwm} {d p : BitVec 32} (h : Aligned pc.buckets d p) :
    BestMatch pc.buckets d p (airohaPwmGetGenerator pc d p) :=
  bestMatch_of_recyclable pc h.recyclable

/-- Bucket 1 has a period of two ticks and is on for 100 / 255 of a tick, the others have a period
of one tick and are on for 200 / 255 of it and more. -/
def longerLater : AirohaPwm where
  regmap _ := 0#32
  initialized _ := true
  buckets i :=
    if i = 1 then { used := 1, periodTicks := 2#32, dutyTicks := 50#32 }
    else
      { used := 1, periodTicks := 1#32,
        dutyTicks := if i = 0 then 200#32 else BitVec.ofNat 32 (199 + i) }
  channelBucket c := c

/-- For three ticks of which 300 / 255 on, bucket 1 has the longest period and bucket 7 is taken. -/
theorem not_bestMatch_longerLater : ¬ BestMatch longerLater.buckets 100#32 3#32
    (airohaPwmGetGenerator longerLater 100#32 3#32) := by
  intro h
  have hret : airohaPwmGetGenerator longerLater 100#32 3#32 = 7 := by decide
  have hmatch : ¬ ∃ i < 8, Matches longerLater.buckets 100#32 3#32 i := by
    rintro ⟨i, hi, -, hm⟩
    revert hm
    interval_cases i <;> decide
  have hunused : ¬ ∃ i < 8, (longerLater.buckets i).used = 0 := by decide
  have hone : Candidate longerLater.buckets 100#32 3#32 1 := ⟨by decide, by decide, by decide⟩
  obtain ⟨i, hi, hbest, hi7⟩ := h.recycled ⟨hmatch, hunused⟩ ⟨1, by decide, hone⟩
  obtain rfl : i = 7 := by omega
  exact absurd (hbest.maximal 1 (by decide) hone) (by decide)

end Airoha.Pwm
