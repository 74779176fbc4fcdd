/-
Airoha.Pcs.PrcalPath — the way of the calibration, from the detector's answers.

What the calibration measures next depends on the levels it has read, and on
nothing else. Here its way is computed from the detector alone, by recursion
over the bits that are left: no register, no local of the code and no run of
it occurs. A round of the fine tune is a pair of measurements, the reference
and the new one. The second half shows that the code goes this way: its
rounds, `FineRound` under `MinorCall`, are those of `calibrationRounds`.

A reference on the target makes the code divide by 0 when the new level is
another one. The path does not stop there; it goes on as if there were no
deadline. A condition on all its rounds that excludes such a round excludes
the rounds behind it, too.
-/
import Airoha.Pcs.PrcalRounds

namespace Airoha.Pcs.Prcal

open Airoha.Lib Airoha.Lib.Faulting

/-- A measurement: its number, and the setting it is of. -/
structure Measured where
  n : Nat
  idac : BitVec 32
deriving DecidableEq

/-- The level that the measurement reads. -/
def Measured.level (det : Detector) (x : Measured) : BitVec 32 :=
  (det x.n (x.idac.setWidth 11)).setWidth 32

/-- How far that is from the target. -/
def Measured.diff (det : Detector) (target : BitVec 32) (x : Measured) : BitVec 32 :=
  abs (x.level det - target)

/-- A round of the fine tune: the measurement it compares with, and its own. -/
structure Round where
  ref : Measured
  new : Measured

/-- The rounds of a minor search, the setting it ends with, and the number of the next
measurement. -/
structure Path where
  rounds : List Round
  idac : BitVec 32
  next : Nat

/-! ## §1 The path -/

section Path

variable (det : Detector) (target : BitVec 32)

/-- The major search: the closest of the settings whose upper bits are `ks`, and of `best`. -/
def closestMajor : List Nat → Nat → Measured → Measured
  | [], _, best => best
  | k :: ks, n, best =>
    let new : Measured := ⟨n, fieldPrep 8 3 (BitVec.ofNat 32 k)⟩
    closestMajor ks (n + 1) (if new.diff det target < best.diff det target then new else best)

/-- The deadline search: the bit that comes closest when it is added to `major`, if that is closer
than `best`. -/
def closestBit (major : BitVec 32) :
    List Nat → Nat → Option Nat × Measured → Option Nat × Measured
  | [], _, best => best
  | b :: bits, n, best =>
    let new : Measured := ⟨n, major ||| bit 32 b⟩
    closestBit major bits (n + 1)
      (if new.diff det target < best.2.diff det target then (some b, new) else best)

/-- The fine tune with the bits below `r` left, bit `b` the next to try, and `n` measurements
made. -/
def finePath (r b : Nat) (idac : BitVec 32) (ref : Measured) (n : Nat) : Path :=
  if r ≤ b then ⟨[], idac, n⟩
  else
    let new : Measured := ⟨n, idac ||| bit 32 b⟩
    let rest :=
      if farther (new.diff det target) (ref.diff det target) then
        -- a deadline: the bit before is kept, and the reference stays
        if b = 0 then ⟨[], idac, n + 1⟩
        else finePath (b - 1) 0 (idac ||| bit 32 (b - 1)) ref (n + 1)
      else if b + 1 = r then finePath b 0 (idac ||| bit 32 b) new (n + 1)
      else finePath r (b + 1) idac new (n + 1)
    { rest with rounds := ⟨ref, new⟩ :: rest.rounds }
termination_by (r, r - b)
decreasing_by
  · exact Prod.Lex.left _ _ (by omega)
  · exact Prod.Lex.left _ _ (by omega)
  · exact Prod.Lex.right _ (by omega)

/-- The minor search behind its deadline search: without a bit it ends. -/
def pathBehind (major : BitVec 32) (n : Nat) : Option Nat × Measured → Path
  | (none, _) => ⟨[], major, n⟩
  | (some b, best) => finePath det target b 0 (major ||| bit 32 b) best n

/-- The minor search of `major`, with `n` measurements made. -/
def minorPath (major : BitVec 32) (n : Nat) : Path :=
  pathBehind det target major (n + 9)
    (closestBit det target major [7, 6, 5, 4, 3, 2, 1, 0] (n + 1) (none, ⟨n, major⟩))

/-- The result of the major search, with `n` measurements made. -/
def majorOf (n : Nat) : BitVec 32 :=
  (closestMajor det target [1, 2, 3, 4, 5, 6, 7] (n + 1) ⟨n, fieldPrep 8 3 0#32⟩).idac

/-- The rounds of the calibration, with `n` measurements made: those of the first minor search, and
those of a second one where the first ends far from the target. -/
def calibrationRounds (n : Nat) : List Round :=
  let major := majorOf det target n
  let first := minorPath det target major (n + 8)
  let last : Measured := ⟨first.next, first.idac⟩
  let upper := fieldGet 8 3 major
  if 100#32 < last.diff det target ∧ 0#32 < upper then
    first.rounds ++ (minorPath det target (fieldPrep 8 3 (upper - 1#32)) (first.next + 1)).rounds
  else first.rounds

end Path

variable {det : Detector} {target : BitVec 32} {p q : Pma}

/-! ## §2 The code goes this way -/

theorem length_measured (v : BitVec 32) :
    (p.measured v).tried.length = p.tried.length + 1 := by
  rw [measured_tried, List.length_append, List.length_singleton]

/-- What the code compares is what the path compares. -/
theorem level_eq {n : Nat} (hn : p.tried.length = n) (v : BitVec 32) :
    level det p v = (Measured.mk n v).level det := by
  rw [← hn]
  rfl

/-- `UINT_MAX` is farther than any level. -/
theorem diff_lt_allOnes (x : Measured) : x.diff det target < BitVec.allOnes 32 := by
  unfold Measured.diff abs
  generalize x.level det - target = d
  have hd := d.isLt
  rw [BitVec.lt_def, BitVec.toNat_allOnes]
  split
  · rename_i hneg
    rw [BitVec.slt_zero_eq_msb, BitVec.msb_eq_true_iff_two_mul_ge] at hneg
    rw [BitVec.toNat_neg]
    omega
  · rename_i hpos
    rw [BitVec.slt_zero_eq_msb, Bool.not_eq_true, BitVec.msb_eq_false_iff_two_mul_lt] at hpos
    omega

/-- The major search keeps what its path keeps. -/
theorem majorRounds_path (ks : List Nat) : ∀ (best : Measured) (p : Pma) (n : Nat),
    p.tried.length = n →
    Returns (ks.foldlM (majorRound det target) ⟨best.idac, best.diff det target⟩) p fun s q =>
      s.cdrPrIdac = (closestMajor det target ks n best).idac ∧ q.tried.length = n + ks.length := by
  induction ks with
  | nil =>
    intro best p n hn
    exact ends_pure.mpr ⟨rfl, hn⟩
  | cons k ks ih =>
    intro best p n hn
    rw [List.foldlM_cons, returns_bind]
    unfold majorRound
    rw [Returns, ends_bind, ends_apply, ends_pure, level_eq hn]
    set new : Measured := ⟨n, fieldPrep 8 3 (BitVec.ofNat 32 k)⟩ with hnew
    have hbest : (if new.diff det target < best.diff det target then
          (⟨new.idac, new.diff det target⟩ : Major) else ⟨best.idac, best.diff det target⟩) =
        ⟨(if new.diff det target < best.diff det target then new else best).idac,
          (if new.diff det target < best.diff det target then new else best).diff det target⟩ := by
      split
      · rfl
      · rfl
    refine (hbest ▸ ih _ (p.measured new.idac) (n + 1) (by rw [length_measured, hn])).mono ?_
      fun _ he => he
    rintro s q ⟨hs, hq⟩
    refine ⟨hs, ?_⟩
    rw [hq, List.length_cons]
    omega

theorem major_path : Returns (an7581PcsRxPrcalIdacMajor det target) p fun m q =>
    m = majorOf det target p.tried.length ∧ q.tried.length = p.tried.length + 8 := by
  unfold an7581PcsRxPrcalIdacMajor
  rw [returns_bind, List.foldlM_cons, returns_bind]
  unfold majorRound
  rw [Returns, ends_bind, ends_apply, ends_pure, level_eq rfl]
  have hfirst := @diff_lt_allOnes det target ⟨p.tried.length, fieldPrep 8 3 (BitVec.ofNat 32 0)⟩
  unfold Measured.diff at hfirst
  rw [if_pos hfirst]
  refine (majorRounds_path [1, 2, 3, 4, 5, 6, 7] ⟨p.tried.length, fieldPrep 8 3 0#32⟩ _
    (p.tried.length + 1) (length_measured _)).mono ?_ fun _ he => he
  rintro s q ⟨hs, hq⟩
  exact ends_pure.mpr ⟨hs, hq⟩

/-- The locals of the deadline search for a best bit and its measurement. -/
def ofBest (det : Detector) (target : BitVec 32) (best : Option Nat × Measured) : Deadline :=
  ⟨best.1.elim (-1) Nat.cast, best.2.diff det target⟩

/-- The deadline search keeps what its path keeps. -/
theorem deadlineRounds_path (major : BitVec 32) (bits : List Nat) :
    ∀ (best : Option Nat × Measured) (p : Pma) (n : Nat), (∀ b ∈ bits, b < 8) →
      p.tried.length = n →
      Returns ((bits.map Nat.cast).foldlM (deadlineRound det target major)
          (ofBest det target best)) p fun s q =>
        s = ofBest det target (closestBit det target major bits n best) ∧
          q.tried.length = n + bits.length := by
  induction bits with
  | nil =>
    intro best p n _ hn
    exact ends_pure.mpr ⟨rfl, hn⟩
  | cons b bits ih =>
    intro best p n hbits hn
    have hb : b < 8 := hbits b List.mem_cons_self
    rw [List.map_cons, List.foldlM_cons, returns_bind]
    unfold deadlineRound
    rw [Returns, ends_bind, ends_bitAt ⟨by omega, by omega⟩, Int.toNat_natCast, ends_bind,
      ends_apply, ends_pure, level_eq hn]
    set new : Measured := ⟨n, major ||| bit 32 b⟩ with hnew
    have hbest : (if new.diff det target < best.2.diff det target then
          (⟨(b : Int), new.diff det target⟩ : Deadline) else ofBest det target best) =
        ofBest det target
          (if new.diff det target < best.2.diff det target then (some b, new) else best) := by
      split
      · rfl
      · rfl
    refine (hbest ▸ ih _ (p.measured new.idac) (n + 1)
      (fun c hc => hbits c (List.mem_cons_of_mem b hc)) (by rw [length_measured, hn])).mono ?_
      fun _ he => he
    rintro s q ⟨hs, hq⟩
    refine ⟨hs, ?_⟩
    rw [hq, List.length_cons]
    omega

/-! ### The fine tune -/

/-- Where a search is behind the first round, as the path has it. -/
def fineRest (det : Detector) (target : BitVec 32) (r b : Nat) (idac : BitVec 32) (ref : Measured)
    (n : Nat) : Path :=
  let new : Measured := ⟨n, idac ||| bit 32 b⟩
  if farther (new.diff det target) (ref.diff det target) then
    if b = 0 then ⟨[], idac, n + 1⟩
    else finePath det target (b - 1) 0 (idac ||| bit 32 (b - 1)) ref (n + 1)
  else if b + 1 = r then finePath det target b 0 (idac ||| bit 32 b) new (n + 1)
  else finePath det target r (b + 1) idac new (n + 1)

theorem finePath_of_lt {r b n : Nat} {idac : BitVec 32} {ref : Measured} (hb : b < r) :
    finePath det target r b idac ref n =
      { fineRest det target r b idac ref n with
        rounds :=
          ⟨ref, ⟨n, idac ||| bit 32 b⟩⟩ :: (fineRest det target r b idac ref n).rounds } := by
  rw [finePath, if_neg (Nat.not_le_of_lt hb)]
  rfl

theorem finePath_zero {n : Nat} {idac : BitVec 32} {ref : Measured} :
    finePath det target 0 0 idac ref n = ⟨[], idac, n⟩ := by
  rw [finePath, if_pos (Nat.le_refl 0)]

/-- Behind a round, or before the first: the rest of the fine tune is the path `π`. -/
def Follows (det : Detector) (target : BitVec 32) (s : FineTune) (q : Pma) (π : Path) : Prop :=
  if s.again then
    ∃ r b idac ref, s = tune r b idac (ref.diff det target) ∧ b < r ∧ r ≤ 7 ∧
      π = finePath det target r b idac ref q.tried.length
  else π = ⟨[], s.cdrPrIdac, q.tried.length⟩

theorem follows_tune {r b n : Nat} {idac : BitVec 32} {ref : Measured} (hb : b < r ∨ b = 0)
    (hr : r ≤ 7) (hn : q.tried.length = n) :
    Follows det target (tune r b idac (ref.diff det target)) q
      (finePath det target r b idac ref n) := by
  subst hn
  unfold Follows
  split
  · rename_i hagain
    have h0 := (again_tune hr).mp hagain
    exact ⟨r, b, idac, ref, rfl, by omega, hr, rfl⟩
  · rename_i hagain
    have h0 : r = 0 := by
      by_contra h0
      exact hagain ((again_tune hr).mpr h0)
    obtain ⟨rfl, rfl⟩ : r = 0 ∧ b = 0 := by omega
    exact finePath_zero

/-- A round that does not divide by 0 goes on as the path does, with less to do. -/
theorem round_follows {r b : Nat} {idac : BitVec 32} {ref : Measured} {E : Fault → Prop}
    (hb : b < r) (hr : r ≤ 7)
    (hzero : ¬ OnTarget det target (tune r b idac (ref.diff det target)) q → E .divideByZero) :
    Ends (fineTuneRound det target (tune r b idac (ref.diff det target))) q (fun s' q' =>
      Follows det target s' q' (fineRest det target r b idac ref q.tried.length) ∧
        (s'.again = true →
          s'.measure < (tune r b idac (ref.diff det target)).measure)) E := by
  have hless : ∀ {s' : FineTune},
      RoundDone idac (tune r b idac (ref.diff det target)) s' → s'.again = true →
        s'.measure < (tune r b idac (ref.diff det target)).measure := by
    intro s' hdone hagain
    unfold RoundDone at hdone
    rw [if_pos hagain] at hdone
    exact hdone.2
  have hlow := addsLowBits_self idac
  have hnew : abs (level det q (idac ||| bit 32 b) - target) =
      (Measured.mk q.tried.length (idac ||| bit 32 b)).diff det target := rfl
  rw [ends_fineTuneRound hb hr]
  dsimp only
  rw [hnew]
  split
  · rename_i h0
    exact hzero fun hon => onTarget_tune_iff.mp hon h0
  · unfold fineRest
    dsimp only
    split
    · refine ⟨?_, hless (roundDone_pastDeadline hb hr hlow)⟩
      cases b with
      | zero => exact congrArg (Path.mk [] idac) (length_measured _).symm
      | succ b => exact follows_tune (.inr rfl) (by omega) (length_measured _)
    · refine ⟨?_, hless (roundDone_onward hb hr hlow _)⟩
      unfold onward
      split
      · exact follows_tune (.inr rfl) (by omega) (length_measured _)
      · exact follows_tune (.inl (by omega)) hr (length_measured _)

/-- `P` holds of the reference and the new level, as differences, in every round. -/
def AllRounds (det : Detector) (target : BitVec 32) (P : BitVec 32 → BitVec 32 → Prop)
    (rounds : List Round) : Prop :=
  ∀ x ∈ rounds, P (x.ref.diff det target) (x.new.diff det target)

/-- `P` holds of what the round of `s` compares. -/
def AtRound (det : Detector) (target : BitVec 32) (P : BitVec 32 → BitVec 32 → Prop)
    (s : FineTune) (q : Pma) : Prop :=
  P s.flOutDiff (abs (level det q s.tmp - target))

/-- A round on the target that measures another level is excluded. -/
def KeepsTarget (P : BitVec 32 → BitVec 32 → Prop) : Prop := ∀ d e, P d e → d = 0#32 → e = 0#32

theorem AtRound.onTarget {P : BitVec 32 → BitVec 32 → Prop} (hP : KeepsTarget P) {s : FineTune}
    (h : AtRound det target P s q) : OnTarget det target s q := by
  intro h0
  have hnew := hP _ _ h h0
  rwa [abs_eq_zero_iff, sub_eq_zero_iff] at hnew

/-- The rounds that the loop comes to are those of its path, up to the first that divides by 0. -/
theorem reaches_path {P : BitVec 32 → BitVec 32 → Prop} (hP : KeepsTarget P) :
    ∀ (m : Nat) (s : FineTune) (q : Pma) (π : Path), s.measure = m → s.again = true →
      Follows det target s q π →
      ((∀ s' q', Reaches (fineTuneRound det target) FineTune.again s q s' q' →
          AtRound det target P s' q') ↔ AllRounds det target P π.rounds) := by
  intro m
  induction m using Nat.strong_induction_on with
  | _ m ih =>
    rintro s q π rfl hagain hs
    unfold Follows at hs
    rw [if_pos hagain] at hs
    obtain ⟨r, b, idac, ref, rfl, hb, hr, rfl⟩ := hs
    have hfirst : AtRound det target P (tune r b idac (ref.diff det target)) q ↔
        P (ref.diff det target)
          ((Measured.mk q.tried.length (idac ||| bit 32 b)).diff det target) := Iff.rfl
    rw [finePath_of_lt hb]
    unfold AllRounds
    rw [List.forall_mem_cons, ← hfirst]
    -- where the first round divides by 0 neither side holds
    by_cases hat : AtRound det target P (tune r b idac (ref.diff det target)) q
    swap
    · constructor
      · intro h
        exact absurd (h _ _ .start) hat
      · rintro ⟨h, -⟩
        exact absurd h hat
    obtain ⟨s₁, q₁, hg, hfollows, hless⟩ := Returns.gives
      (round_follows hb hr fun hno => hno (hat.onTarget hP))
    have hrest : (∀ s' q', s₁.again = true →
        Reaches (fineTuneRound det target) FineTune.again s₁ q₁ s' q' →
          AtRound det target P s' q') ↔
        AllRounds det target P (fineRest det target r b idac ref q.tried.length).rounds := by
      by_cases ha : s₁.again = true
      · rw [← ih _ (hless ha) s₁ q₁ _ rfl ha hfollows]
        exact ⟨fun h s' q' => h s' q' ha, fun h s' q' _ => h s' q'⟩
      · unfold Follows at hfollows
        rw [if_neg ha] at hfollows
        rw [hfollows]
        exact ⟨fun _ _ hx => absurd hx List.not_mem_nil, fun _ _ _ h => absurd h ha⟩
    refine ⟨fun h => ⟨hat, hrest.mp fun s' q' ha hr => h s' q' ?_⟩, ?_⟩
    · exact reaches_iff.mpr (.inr ⟨s₁, q₁, hg, ha, hr⟩)
    · rintro ⟨-, h⟩ s' q' hreach
      obtain ⟨rfl, rfl⟩ | ⟨s₂, q₂, hg₂, ha, hreach⟩ := reaches_iff.mp hreach
      · exact hat
      · obtain ⟨rfl, rfl⟩ := Returns.of_gives hg hg₂
        exact hrest.mpr h s' q' ha hreach

/-- The loop ends where its path does, unless it divides by 0. -/
theorem doWhile_path {s : FineTune} {π : Path} (hagain : s.again = true)
    (hs : Follows det target s q π) :
    Ends (doWhile (fineTuneRound det target) FineTune.again s) q
      (fun s' q' => s'.cdrPrIdac = π.idac ∧ q'.tried.length = π.next) fun _ => True := by
  refine ends_doWhile_of_rounds (fun s q => s.again = true ∧ ∃ π', Follows det target s q π' ∧
    π'.idac = π.idac ∧ π'.next = π.next) FineTune.measure ⟨hagain, π, hs, rfl, rfl⟩ ?_
  rintro s q - ⟨ha, π', hs, hidac, hnext⟩
  unfold Follows at hs
  rw [if_pos ha] at hs
  obtain ⟨r, b, idac, ref, rfl, hb, hr, rfl⟩ := hs
  rw [finePath_of_lt hb] at hidac hnext
  refine (round_follows hb hr fun _ => trivial).mono ?_ fun _ he => he
  rintro s' q' ⟨hfollows, hless⟩
  split
  · rename_i ha'
    exact ⟨⟨ha', _, hfollows, hidac, hnext⟩, hless ha'⟩
  · rename_i ha'
    unfold Follows at hfollows
    rw [if_neg ha'] at hfollows
    rw [hfollows] at hidac hnext
    exact ⟨hidac, hnext⟩

/-! ### The minor search -/

theorem setBest_follows {major : BitVec 32} {n : Nat} {best : Option Nat × Measured}
    (hbest : (ofBest det target best).InRange) (hq : q.tried.length = n) :
    Returns (setBest major (ofBest det target best)) q fun s q' =>
      Follows det target s q' (pathBehind det target major n best) := by
  obtain ⟨bit?, x⟩ := best
  unfold setBest
  cases bit? with
  | none => exact ends_pure.mpr (congrArg (Path.mk [] major) hq.symm)
  | some b =>
    have h0 : 0 ≤ (ofBest det target (some b, x)).bestPrcalSearchBit := Int.natCast_nonneg b
    have hb7 : b ≤ 7 := Int.ofNat_le.mp hbest.2
    rw [if_pos h0, returns_bind, Returns, ends_bitAt ⟨h0, by show (b : Int) < 64; omega⟩, Returns,
      ends_pure]
    exact follows_tune (.inr rfl) hb7 hq

/-- The deadline search, and what is set behind it. -/
theorem minor_start {major : BitVec 32} {best : Deadline} {s₀ : FineTune} {p₁ p₂ : Pma}
    (hg₁ : Gives (deadlineSearch det target major) p best p₁)
    (hg₂ : Gives (setBest major best) p₁ s₀ p₂) :
    Follows det target s₀ p₂ (minorPath det target major p.tried.length) := by
  have hrange := (deadlineSearch_returns major).of_gives hg₁
  unfold deadlineSearch at hg₁
  have hrounds := @deadlineRounds_path det target major [7, 6, 5, 4, 3, 2, 1, 0]
    (none, ⟨p.tried.length, major⟩) (p.measured major) (p.tried.length + 1) (by decide)
    (length_measured major)
  obtain ⟨rfl, hlen⟩ := hrounds.of_gives (ends_apply.mp (ends_bind.mp hg₁))
  exact (setBest_follows hrange hlen).of_gives hg₂

/-- The rounds of the fine tune are those of the path. -/
theorem fineRound_path {P : BitVec 32 → BitVec 32 → Prop} (hP : KeepsTarget P)
    (major : BitVec 32) :
    (∀ s q, FineRound det target major p s q → AtRound det target P s q) ↔
      AllRounds det target P (minorPath det target major p.tried.length).rounds := by
  obtain ⟨best, p₁, hg₁, hbest⟩ := (@deadlineSearch_returns det target p major).gives
  obtain ⟨s₀, p₂, hg₂, -⟩ := (setBest_returns (p := p₁) major hbest).gives
  have hfollows := minor_start hg₁ hg₂
  by_cases hagain : s₀.again = true
  · rw [← reaches_path hP _ s₀ p₂ _ rfl hagain hfollows]
    constructor
    · intro h s q hreach
      exact h s q ⟨best, p₁, s₀, p₂, hg₁, hg₂, hagain, hreach⟩
    · rintro h s q ⟨best', p₁', s₀', p₂', hg₁', hg₂', -, hreach⟩
      obtain ⟨rfl, rfl⟩ := Returns.of_gives hg₁ hg₁'
      obtain ⟨rfl, rfl⟩ := Returns.of_gives hg₂ hg₂'
      exact h s q hreach
  · unfold Follows at hfollows
    rw [if_neg hagain] at hfollows
    rw [hfollows]
    constructor
    · intro _ x hx
      exact absurd hx List.not_mem_nil
    · rintro - s q ⟨best', p₁', s₀', p₂', hg₁', hg₂', hagain', -⟩
      obtain ⟨rfl, rfl⟩ := Returns.of_gives hg₁ hg₁'
      obtain ⟨rfl, rfl⟩ := Returns.of_gives hg₂ hg₂'
      exact absurd hagain' hagain

/-- The minor search ends where its path does, unless it divides by 0. -/
theorem minor_path (major : BitVec 32) :
    Ends (an7581PcsRxPrcalIdacMinor det target major) p (fun v q =>
      v = (minorPath det target major p.tried.length).idac ∧
        q.tried.length = (minorPath det target major p.tried.length).next) fun _ => True := by
  unfold an7581PcsRxPrcalIdacMinor
  rw [ends_bind]
  refine (deadlineSearch_returns major).and_gives.mono ?_ fun _ _ => trivial
  rintro best p₁ ⟨hbest, hg₁⟩
  rw [ends_bind]
  refine (setBest_returns major hbest).and_gives.mono ?_ fun _ _ => trivial
  rintro s₀ p₂ ⟨-, hg₂⟩
  have hfollows := minor_start hg₁ hg₂
  split
  · rename_i hagain
    rw [ends_bind]
    exact (doWhile_path hagain hfollows).mono (fun _ _ h => ends_pure.mpr h) fun _ he => he
  · rename_i hagain
    unfold Follows at hfollows
    rw [if_neg hagain] at hfollows
    rw [hfollows]
    exact ends_pure.mpr ⟨rfl, rfl⟩

/-! ### The calibration -/

/-- The rounds that the calibration comes to are those of its path. -/
theorem minorCall_path {P : BitVec 32 → BitVec 32 → Prop} (hP : KeepsTarget P) :
    (∀ m q, MinorCall det target p m q → ∀ s q', FineRound det target m q s q' →
      AtRound det target P s q') ↔
        AllRounds det target P (calibrationRounds det target p.tried.length) := by
  obtain ⟨m, p₁, hm, hmajor, hlen⟩ := (@major_path det target p).gives
  have hfirst := @fineRound_path det target p₁ _ hP m
  have hends := @minor_path det target p₁ m
  rw [hlen] at hfirst hends
  -- where the first search returns, the second is the one of the path
  have hsecond : AllRounds det target P
      (minorPath det target m (p.tried.length + 8)).rounds → ∃ v p₂,
        Gives (an7581PcsRxPrcalIdacMinor det target m) p₁ v p₂ ∧
        v = (minorPath det target m (p.tried.length + 8)).idac ∧
        p₂.tried.length = (minorPath det target m (p.tried.length + 8)).next := by
    intro hall
    have hreturns := (minor_returns_iff (Q := fun _ => True) fun _ _ => trivial).mpr
      fun s q hround => (hfirst.mpr hall s q hround).onTarget hP
    obtain ⟨v, p₂, hv, -⟩ := hreturns.gives
    exact ⟨v, p₂, hv, hends.of_gives hv⟩
  unfold calibrationRounds
  rw [← hmajor]
  dsimp only
  split
  · rename_i hagain
    unfold AllRounds
    rw [List.forall_mem_append]
    constructor
    · intro h
      have hone := hfirst.mp (h m p₁ (.first hm))
      obtain ⟨v, p₂, hv, rfl, hnext⟩ := hsecond hone
      refine ⟨hone, ?_⟩
      have hcall := MinorCall.second hm hv (level_eq hnext _ ▸ hagain.1) hagain.2
      have htwo := (fineRound_path hP _).mp (h _ _ hcall)
      rwa [length_measured, hnext] at htwo
    · rintro ⟨hone, htwo⟩ m' q hcall
      obtain ⟨v, p₂, hv, rfl, hnext⟩ := hsecond hone
      cases hcall with
      | first hm' =>
        obtain ⟨rfl, rfl⟩ := Returns.of_gives hm hm'
        exact hfirst.mpr hone
      | second hm' hv' =>
        obtain ⟨rfl, rfl⟩ := Returns.of_gives hm hm'
        obtain ⟨rfl, rfl⟩ := Returns.of_gives hv hv'
        refine (fineRound_path hP _).mpr ?_
        rwa [length_measured, hnext]
  · rename_i hagain
    constructor
    · intro h
      exact hfirst.mp (h m p₁ (.first hm))
    · intro hone m' q hcall
      obtain ⟨v, p₂, hv, rfl, hnext⟩ := hsecond hone
      cases hcall with
      | first hm' =>
        obtain ⟨rfl, rfl⟩ := Returns.of_gives hm hm'
        exact hfirst.mpr hone
      | second hm' hv' hfar hpos =>
        obtain ⟨rfl, rfl⟩ := Returns.of_gives hm hm'
        obtain ⟨rfl, rfl⟩ := Returns.of_gives hv hv'
        rw [level_eq hnext] at hfar
        exact absurd ⟨hfar, hpos⟩ hagain

end Airoha.Pcs.Prcal
