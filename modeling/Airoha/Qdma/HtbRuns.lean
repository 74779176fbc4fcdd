/-
Airoha.Qdma.HtbRuns — runs of HTB commands.

`HtbGood` is what is asked of every state of a run: a class holds a channel of
its own whose meter carries its rate, the other meters are off, the bitmaps
and the number of queues fit the classes, and every class can be asked for.

Two things go wrong. A class whose minor number is 4 or more modulo 32 gets its
queue on one channel and its rate on another. A rate below a kilobyte a second
turns the meter off, one that is too high is cut when it is packed. `HtbFits`
says that a command does neither, `htbRun_iff` that a run is good exactly when
its commands all fit.
-/
import Airoha.Qdma.HtbSpec

namespace Airoha.Qdma

open Airoha.Lib

/-! ## What is asked -/

section Defs

variable {δ κ : Type} [DecidableEq δ] [DecidableEq κ] (hw : HtbHw δ κ)

/-- The classes, the meters, the bitmaps and the queues agree. -/
structure HtbGood (t : HtbSys δ κ) : Prop where
  channel : ∀ d c cl, t.live d c = some cl →
    ∃ ch < airohaMaxNumChannels, cl.qid = airohaNumTxRing + ch
  alone : ∀ d c cl d' c' cl', t.live d c = some cl → t.live d' c' = some cl' →
    hw.qdma d = hw.qdma d' → cl.qid = cl'.qid → d = d' ∧ c = c'
  carries : ∀ d c cl, t.live d c = some cl →
    (t.state.meters (hw.qdma d)).Carries (cl.qid - airohaNumTxRing) cl.rate
  off : ∀ q ch, (∀ d c cl, t.live d c = some cl → hw.qdma d = q → cl.qid ≠ airohaNumTxRing + ch) →
    (t.state.meters q).Off ch
  query : ∀ d c cl, t.live d c = some cl → airohaTcGetHtbGetLeafQueue d c t.state = .ok cl.qid
  union : ∀ q ch, t.state.mapBit q ch = true ↔ ∃ d, hw.qdma d = q ∧ t.state.sqBit d ch = true
  disjoint : ∀ d d' ch, hw.qdma d = hw.qdma d' → t.state.sqBit d ch = true →
    t.state.sqBit d' ch = true → d = d'
  queues : ∀ d c cl, t.live d c = some cl → cl.qid < (t.state.dev d).realNumTxQueues

/-- No class, no bit set and every meter off; the ticks are as the driver sets them. -/
structure HtbInit (t : HtbSys δ κ) : Prop where
  live : ∀ d c, t.live d c = none
  sq : ∀ d, (t.state.dev d).qosSqBmap = 0#64
  map : ∀ q, (t.state.qdma q).qosChannelMap = 0#64
  off : ∀ q ch, (t.state.meters q).Off ch
  tick : ∀ q, HasTick (t.state.meters q).cfg

/-- `sch_htb` names classes that it has allocated. -/
def HtbValid (t : HtbSys δ κ) : HtbCmd δ → Prop
  | .leafAllocQueue _ _ | .destroy _ => True
  | .nodeModify d opt => (t.live d opt.classid).isSome
  | .leafDel d c | .leafQueryQueue d c => (t.live d c).isSome

/-- The meter of a class can carry the rate it is given. -/
def HtbRateFits (t : HtbSys δ κ) (d : δ) (opt : TcHtbQopt) : Prop :=
  RateFits (t.state.meters (hw.qdma d)) (tcHMin opt.classid % airohaMaxNumChannels) opt.rate

/-- A command is refused, or a class that gets a queue has a minor number that both moduli take to
the same channel, and a class that gets a rate one its meter can carry. -/
def HtbFits (t : HtbSys δ κ) : HtbCmd δ → Prop
  | .leafAllocQueue d opt =>
      t.state.mapBit (hw.qdma d) (tcHMin opt.classid % airohaNumQosChannels) = true ∨
        opt.parentClassid ≠ tcHtbClassidRoot ∨
        (tcHMin opt.classid % airohaMaxNumChannels < airohaNumQosChannels ∧ HtbRateFits hw t d opt)
  | .nodeModify d opt => opt.parentClassid ≠ tcHtbClassidRoot ∨ HtbRateFits hw t d opt
  | .leafDel _ _ | .leafQueryQueue _ _ | .destroy _ => True

/-- Every command of the run is valid where it comes. -/
def HtbValidRun (t : HtbSys δ κ) : List (HtbCmd δ) → Prop
  | [] => True
  | cmd :: cmds => HtbValid t cmd ∧ HtbValidRun (htbStep hw t cmd) cmds

/-- Every command of the run fits. -/
def HtbFitRun (t : HtbSys δ κ) : List (HtbCmd δ) → Prop
  | [] => True
  | cmd :: cmds => HtbFits hw t cmd ∧ HtbFitRun (htbStep hw t cmd) cmds

/-- Every state of the run is good. -/
def HtbGoodRun (t : HtbSys δ κ) : List (HtbCmd δ) → Prop
  | [] => HtbGood hw t
  | cmd :: cmds => HtbGood hw t ∧ HtbGoodRun (htbStep hw t cmd) cmds

end Defs

/-! ## The invariant -/

section Inv

variable {δ κ : Type} {hw : HtbHw δ κ} {t : HtbSys δ κ}

/-- The channel of a class, where it is allocated and deleted. -/
def classChannel (classid : BitVec 32) : Nat := tcHMin classid % airohaNumQosChannels

/-- What a run of fitting commands keeps. -/
structure HtbInv (hw : HtbHw δ κ) (t : HtbSys δ κ) : Prop where
  tick : ∀ q, HasTick (t.state.meters q).cfg
  fits : ∀ d c cl, t.live d c = some cl →
    tcHMin c % airohaMaxNumChannels = classChannel c ∧ cl.qid = airohaNumTxRing + classChannel c
  alone : ∀ d c cl d' c' cl', t.live d c = some cl → t.live d' c' = some cl' →
    hw.qdma d = hw.qdma d' → classChannel c = classChannel c' → d = d' ∧ c = c'
  sq : ∀ d ch, t.state.sqBit d ch = true ↔ ∃ c cl, t.live d c = some cl ∧ classChannel c = ch
  map : ∀ q ch, t.state.mapBit q ch = true ↔ ∃ d, hw.qdma d = q ∧ t.state.sqBit d ch = true
  carries : ∀ d c cl, t.live d c = some cl →
    (t.state.meters (hw.qdma d)).Carries (classChannel c) cl.rate
  off : ∀ q ch, t.state.mapBit q ch = false → (t.state.meters q).Off ch
  queues : ∀ d c cl, t.live d c = some cl → cl.qid < (t.state.dev d).realNumTxQueues

theorem classChannel_lt (c : BitVec 32) : classChannel c < airohaNumQosChannels :=
  Nat.mod_lt _ (by decide)

theorem classChannel_lt_64 (c : BitVec 32) : classChannel c < 64 :=
  lt_trans (classChannel_lt c) (by decide)

/-- The two moduli agree below 4. -/
theorem channel_eq {n : Nat} (h : n % airohaMaxNumChannels < airohaNumQosChannels) :
    n % airohaMaxNumChannels = n % airohaNumQosChannels := by
  simp only [airohaMaxNumChannels, airohaNumQosChannels] at *
  omega

theorem HtbInv.good (h : HtbInv hw t) : HtbGood hw t := by
  constructor
  · intro d c cl hl
    exact ⟨classChannel c, lt_trans (classChannel_lt c) (by decide), (h.fits d c cl hl).2⟩
  · intro d c cl d' c' cl' hl hl' hq hqid
    rw [(h.fits d c cl hl).2, (h.fits d' c' cl' hl').2] at hqid
    exact h.alone d c cl d' c' cl' hl hl' hq (Nat.add_left_cancel hqid)
  · intro d c cl hl
    rw [(h.fits d c cl hl).2, Nat.add_sub_cancel_left]
    exact h.carries d c cl hl
  · intro q ch hnone
    apply h.off
    by_contra hbit
    obtain ⟨d, hq, hsq⟩ := (h.map q ch).mp (by simpa using hbit)
    obtain ⟨c, cl, hl, hch⟩ := (h.sq d ch).mp hsq
    apply hnone d c cl hl hq
    rw [(h.fits d c cl hl).2, hch]
  · intro d c cl hl
    have hsq : t.state.sqBit d (classChannel c) = true := (h.sq d _).mpr ⟨c, cl, hl, rfl⟩
    rw [HtbState.sqBit] at hsq
    simp [airohaTcGetHtbGetLeafQueue, (h.fits d c cl hl).1, (h.fits d c cl hl).2, hsq]
  · exact h.map
  · intro d d' ch hq hsq hsq'
    obtain ⟨c, cl, hl, hch⟩ := (h.sq d ch).mp hsq
    obtain ⟨c', cl', hl', hch'⟩ := (h.sq d' ch).mp hsq'
    exact (h.alone d c cl d' c' cl' hl hl' hq (hch.trans hch'.symm)).1
  · exact h.queues

theorem HtbInit.inv (h : HtbInit t) : HtbInv hw t := by
  have hsq : ∀ d ch, t.state.sqBit d ch = false := by
    intro d ch
    simp [HtbState.sqBit, h.sq]
  have hmap : ∀ q ch, t.state.mapBit q ch = false := by
    intro q ch
    simp [HtbState.mapBit, h.map]
  constructor <;> simp [h.live, hsq, hmap, h.tick, h.off]

/-- A channel whose bit is clear belongs to no class. -/
theorem HtbInv.free (h : HtbInv hw t) {q : κ} {ch : Nat}
    (hbit : t.state.mapBit q ch = false) {d : δ}
    {c : BitVec 32} {cl : HtbClass} (hl : t.live d c = some cl) (hq : hw.qdma d = q) :
    classChannel c ≠ ch := by
  intro hch
  have hsq := (h.sq d ch).mpr ⟨c, cl, hl, hch⟩
  have hmap := (h.map q ch).mpr ⟨d, hq, hsq⟩
  rw [hbit] at hmap
  cases hmap

theorem putClass_eq_some [DecidableEq δ] {live : δ → BitVec 32 → Option HtbClass} {d d' : δ}
    {c c' : BitVec 32} {v cl : HtbClass} :
    putClass live d c (some v) d' c' = some cl ↔
      ((d' = d ∧ c' = c) ∧ v = cl) ∨ (¬ (d' = d ∧ c' = c) ∧ live d' c' = some cl) := by
  by_cases hd : d' = d
  · subst hd
    by_cases hc : c' = c
    · subst hc
      simp [putClass]
    · simp [putClass, hc]
  · simp [putClass, hd]

/-- The classes without those of one channel of a device. -/
def dropChannel [DecidableEq δ] (live : δ → BitVec 32 → Option HtbClass) (d : δ) (ch : Nat) :
    δ → BitVec 32 → Option HtbClass :=
  fun d' c => if d' = d ∧ classChannel c = ch then none else live d' c

theorem dropChannel_eq_some [DecidableEq δ] {live : δ → BitVec 32 → Option HtbClass} {d d' : δ}
    {ch : Nat}
    {c : BitVec 32} {cl : HtbClass} :
    dropChannel live d ch d' c = some cl ↔
      live d' c = some cl ∧ ¬ (d' = d ∧ classChannel c = ch) := by
  unfold dropChannel
  split_ifs with h <;> simp [h]

/-- A class gets another rate. -/
theorem HtbInv.modify [DecidableEq δ] (h : HtbInv hw t) {d : δ} {c : BitVec 32} {cl : HtbClass}
    {kbps : BitVec 32} {rate : BitVec 64} {s' : HtbState δ κ} (hl : t.live d c = some cl)
    (hs : RateSet hw d (classChannel c) kbps t.state s')
    (hc : (s'.meters (hw.qdma d)).Carries (classChannel c) rate) :
    HtbInv hw { state := s', live := putClass t.live d c (some { cl with rate := rate }) } := by
  have hsq : ∀ d' ch, s'.sqBit d' ch = t.state.sqBit d' ch := by
    intro d' ch
    rw [HtbState.sqBit, HtbState.sqBit, hs.dev]
  have hmap : ∀ q ch, s'.mapBit q ch = t.state.mapBit q ch := by
    intro q ch
    rw [HtbState.mapBit, HtbState.mapBit, hs.map]
  have hlive : ∀ d' c' cl', putClass t.live d c (some { cl with rate := rate }) d' c' = some cl' →
      ∃ cl0, t.live d' c' = some cl0 ∧ cl'.qid = cl0.qid := by
    intro d' c' cl' hl'
    rcases putClass_eq_some.mp hl' with ⟨⟨rfl, rfl⟩, rfl⟩ | ⟨-, hl'⟩
    · exact ⟨cl, hl, rfl⟩
    · exact ⟨cl', hl', rfl⟩
  have hback : ∀ d' c' cl', t.live d' c' = some cl' →
      ∃ cl1, putClass t.live d c (some { cl with rate := rate }) d' c' = some cl1 := by
    intro d' c' cl' hl'
    by_cases hdc : d' = d ∧ c' = c
    · exact ⟨_, putClass_eq_some.mpr (Or.inl ⟨hdc, rfl⟩)⟩
    · exact ⟨cl', putClass_eq_some.mpr (Or.inr ⟨hdc, hl'⟩)⟩
  constructor
  case tick =>
    intro q
    rw [hs.cfg]
    exact h.tick q
  case fits =>
    intro d' c' cl' hl'
    obtain ⟨cl0, hl0, hqid⟩ := hlive d' c' cl' hl'
    rw [hqid]
    exact h.fits d' c' cl0 hl0
  case alone =>
    intro d1 c1 cl1 d2 c2 cl2 hl1 hl2 hq hch
    obtain ⟨cl1', hl1', -⟩ := hlive d1 c1 cl1 hl1
    obtain ⟨cl2', hl2', -⟩ := hlive d2 c2 cl2 hl2
    exact h.alone d1 c1 cl1' d2 c2 cl2' hl1' hl2' hq hch
  case sq =>
    intro d' ch
    rw [hsq, h.sq]
    constructor
    · rintro ⟨c', cl', hl', hch⟩
      obtain ⟨cl1, hl1⟩ := hback d' c' cl' hl'
      exact ⟨c', cl1, hl1, hch⟩
    · rintro ⟨c', cl', hl', hch⟩
      obtain ⟨cl0, hl0, -⟩ := hlive d' c' cl' hl'
      exact ⟨c', cl0, hl0, hch⟩
  case map =>
    intro q ch
    rw [hmap, h.map]
    simp only [hsq]
  case carries =>
    intro d' c' cl' hl'
    rcases putClass_eq_some.mp hl' with ⟨⟨rfl, rfl⟩, rfl⟩ | ⟨hdc, hl'⟩
    · exact hc
    · refine (h.carries d' c' cl' hl').congr (hs.cfg _) (hs.frame _ _ ?_)
      rintro ⟨hq, hch⟩
      exact hdc (h.alone d' c' cl' d c cl hl' hl hq hch)
  case off =>
    intro q ch hb
    rw [hmap] at hb
    refine (h.off q ch hb).congr (hs.frame q ch ?_)
    rintro ⟨rfl, hch⟩
    exact h.free hb hl rfl hch.symm
  case queues =>
    intro d' c' cl' hl'
    obtain ⟨cl0, hl0, hqid⟩ := hlive d' c' cl' hl'
    rw [hqid, hs.dev]
    exact h.queues d' c' cl0 hl0

/-- Deleting a class of a valid run empties its channel. -/
theorem HtbInv.putClass_none [DecidableEq δ]
    (h : HtbInv hw t) {d : δ} {c : BitVec 32} {cl : HtbClass}
    (hl : t.live d c = some cl) :
    putClass t.live d c none = dropChannel t.live d (classChannel c) := by
  funext d' c'
  by_cases hd : d' = d
  · subst hd
    by_cases hc : c' = c
    · subst hc
      simp [putClass, dropChannel]
    · have hne : classChannel c' = classChannel c → t.live d' c' = none := by
        intro hch
        by_contra hsome
        obtain ⟨cl', hl'⟩ := Option.ne_none_iff_exists'.mp hsome
        exact hc (h.alone d' c' cl' d' c cl hl' hl rfl hch).2
      by_cases hch : classChannel c' = classChannel c
      · simp [putClass, dropChannel, hc, hch, hne hch]
      · simp [putClass, dropChannel, hc, hch]
  · simp [putClass, dropChannel, hd]

end Inv

/-! ## What the commands keep -/

section Steps

variable {δ κ : Type} [DecidableEq δ] [DecidableEq κ] {hw : HtbHw δ κ} {t : HtbSys δ κ}

/-- A class is allocated on a free channel. -/
theorem HtbInv.alloc (h : HtbInv hw t) {d : δ} {c kbps : BitVec 32} {rate : BitVec 64}
    {s' : HtbState δ κ} (hbit : t.state.mapBit (hw.qdma d) (classChannel c) = false)
    (hmod : tcHMin c % airohaMaxNumChannels = classChannel c)
    (ha : Allocated hw d (classChannel c) (classChannel c) kbps t.state s')
    (hc : (s'.meters (hw.qdma d)).Carries (classChannel c) rate) :
    HtbInv hw
      { state := s'
        live := putClass t.live d c (some { qid := airohaNumTxRing + classChannel c, rate }) } := by
  have hold : ∀ d' c' cl', t.live d' c' = some cl' → hw.qdma d' = hw.qdma d →
      classChannel c' ≠ classChannel c := fun d' c' cl' hl hq => h.free hbit hl hq
  have hnew : t.live d c = none := by
    by_contra hne
    obtain ⟨cl, hl⟩ := Option.ne_none_iff_exists'.mp hne
    exact hold d c cl hl rfl rfl
  constructor
  case tick =>
    intro q
    rw [ha.cfg]
    exact h.tick q
  case fits =>
    intro d' c' cl' hl
    rcases putClass_eq_some.mp hl with ⟨⟨rfl, rfl⟩, rfl⟩ | ⟨-, hl⟩
    · exact ⟨hmod, rfl⟩
    · exact h.fits d' c' cl' hl
  case alone =>
    intro d1 c1 cl1 d2 c2 cl2 hl1 hl2 hq hch
    rcases putClass_eq_some.mp hl1 with ⟨⟨rfl, rfl⟩, -⟩ | ⟨-, hold1⟩
    · rcases putClass_eq_some.mp hl2 with ⟨⟨rfl, rfl⟩, -⟩ | ⟨-, hold2⟩
      · exact ⟨rfl, rfl⟩
      · exact absurd hch.symm (hold d2 c2 cl2 hold2 hq.symm)
    · rcases putClass_eq_some.mp hl2 with ⟨⟨rfl, rfl⟩, -⟩ | ⟨-, hold2⟩
      · exact absurd hch (hold d1 c1 cl1 hold1 hq)
      · exact h.alone d1 c1 cl1 d2 c2 cl2 hold1 hold2 hq hch
  case sq =>
    intro d' ch
    rw [ha.sq]
    constructor
    · intro hb
      split_ifs at hb with hdc
      · exact ⟨c, _, putClass_eq_some.mpr (Or.inl ⟨⟨hdc.1, rfl⟩, rfl⟩), hdc.2.symm⟩
      · obtain ⟨c', cl', hl, hch⟩ := (h.sq d' ch).mp hb
        refine ⟨c', cl', putClass_eq_some.mpr (Or.inr ⟨?_, hl⟩), hch⟩
        rintro ⟨rfl, rfl⟩
        rw [hnew] at hl
        cases hl
    · rintro ⟨c', cl', hl, hch⟩
      rcases putClass_eq_some.mp hl with ⟨⟨rfl, rfl⟩, -⟩ | ⟨-, hl⟩
      · rw [if_pos ⟨rfl, hch.symm⟩]
      · have hb := (h.sq d' ch).mpr ⟨c', cl', hl, hch⟩
        simp [hb]
  case map =>
    intro q ch
    rw [ha.map]
    constructor
    · intro hb
      split_ifs at hb with hqc
      · exact ⟨d, hqc.1.symm, by rw [ha.sq, if_pos ⟨rfl, hqc.2⟩]⟩
      · obtain ⟨d', hq, hsq⟩ := (h.map q ch).mp hb
        exact ⟨d', hq, by rw [ha.sq]; simp [hsq]⟩
    · rintro ⟨d', hq, hsq⟩
      rw [ha.sq] at hsq
      split_ifs at hsq with hdc
      · rw [if_pos ⟨by rw [← hq, hdc.1], hdc.2⟩]
      · have hb := (h.map q ch).mpr ⟨d', hq, hsq⟩
        simp [hb]
  case carries =>
    intro d' c' cl' hl
    rcases putClass_eq_some.mp hl with ⟨⟨rfl, rfl⟩, rfl⟩ | ⟨-, hl⟩
    · exact hc
    · refine (h.carries d' c' cl' hl).congr (ha.cfg _) (ha.frame _ _ ?_)
      rintro ⟨hq, hch⟩
      exact hold d' c' cl' hl hq hch
  case off =>
    intro q ch hb
    rw [ha.map] at hb
    split_ifs at hb with hqc
    exact (h.off q ch hb).congr (ha.frame q ch hqc)
  case queues =>
    intro d' c' cl' hl
    rcases putClass_eq_some.mp hl with ⟨⟨rfl, rfl⟩, rfl⟩ | ⟨-, hl⟩
    · exact ha.queues
    · exact lt_of_lt_of_le (h.queues d' c' cl' hl) (ha.others d')

/-- A channel that a device has is given back. -/
theorem HtbInv.remove (h : HtbInv hw t) {d : δ} {ch : Nat} {s' : HtbState δ κ}
    (hbit : t.state.sqBit d ch = true) (hr : Removed hw d ch t.state s') :
    HtbInv hw { state := s', live := dropChannel t.live d ch } := by
  obtain ⟨c0, cl0, hl0, hch0⟩ := (h.sq d ch).mp hbit
  constructor
  case tick =>
    intro q
    rw [hr.cfg]
    exact h.tick q
  case fits =>
    intro d' c' cl' hl
    exact h.fits d' c' cl' (dropChannel_eq_some.mp hl).1
  case alone =>
    intro d1 c1 cl1 d2 c2 cl2 hl1 hl2
    exact h.alone d1 c1 cl1 d2 c2 cl2 (dropChannel_eq_some.mp hl1).1 (dropChannel_eq_some.mp hl2).1
  case sq =>
    intro d' ch'
    rw [hr.sq]
    constructor
    · intro hb
      split_ifs at hb with hdc
      obtain ⟨c', cl', hl, hch⟩ := (h.sq d' ch').mp hb
      refine ⟨c', cl', dropChannel_eq_some.mpr ⟨hl, ?_⟩, hch⟩
      rw [hch]
      exact hdc
    · rintro ⟨c', cl', hl, hch⟩
      obtain ⟨hl', hne⟩ := dropChannel_eq_some.mp hl
      rw [hch] at hne
      rw [if_neg hne]
      exact (h.sq d' ch').mpr ⟨c', cl', hl', hch⟩
  case map =>
    intro q ch'
    rw [hr.map]
    constructor
    · intro hb
      split_ifs at hb with hqc
      obtain ⟨d', hq, hsq⟩ := (h.map q ch').mp hb
      refine ⟨d', hq, ?_⟩
      rw [hr.sq, if_neg]
      · exact hsq
      · rintro ⟨rfl, rfl⟩
        exact hqc ⟨hq.symm, rfl⟩
    · rintro ⟨d', hq, hsq⟩
      rw [hr.sq] at hsq
      split_ifs at hsq with hdc
      rw [if_neg]
      · exact (h.map q ch').mpr ⟨d', hq, hsq⟩
      · rintro ⟨hqd, rfl⟩
        obtain ⟨c', cl', hl', hch'⟩ := (h.sq d' _).mp hsq
        exact hdc ⟨(h.alone d' c' cl' d c0 cl0 hl' hl0 (hq.trans hqd) (hch'.trans hch0.symm)).1,
          rfl⟩
  case carries =>
    intro d' c' cl' hl
    obtain ⟨hl', hne⟩ := dropChannel_eq_some.mp hl
    refine (h.carries d' c' cl' hl').congr (hr.cfg _) (hr.frame _ _ ?_)
    rintro ⟨hq, hch⟩
    exact hne ⟨(h.alone d' c' cl' d c0 cl0 hl' hl0 hq (hch.trans hch0.symm)).1, hch⟩
  case off =>
    intro q ch' hb
    rw [hr.map] at hb
    split_ifs at hb with hqc
    · obtain ⟨rfl, rfl⟩ := hqc
      exact hr.off
    · exact (h.off q ch' hb).congr (hr.frame q ch' hqc)
  case queues =>
    intro d' c' cl' hl
    obtain ⟨hl', hne⟩ := dropChannel_eq_some.mp hl
    by_cases hd : d' = d
    · subst hd
      rw [(h.fits d' c' cl' hl').2]
      apply hr.queues _ (classChannel_lt c')
      rw [hr.sq, if_neg hne]
      exact (h.sq d' _).mpr ⟨c', cl', hl', rfl⟩
    · rw [hr.others d' hd]
      exact h.queues d' c' cl' hl'

theorem HtbInv.leafAllocQueue (h : HtbInv hw t) (d : δ) (opt : TcHtbQopt)
    (hf : HtbFits hw t (.leafAllocQueue d opt)) :
    HtbInv hw (htbStep hw t (.leafAllocQueue d opt)) := by
  rcases allocLeafQueue_cases (h.tick (hw.qdma d)) opt with
    ⟨-, heq⟩ | ⟨-, heq⟩ | ⟨hbit, hroot, s', heq, ha⟩
  · simpa only [htbStep, heq] using h
  · simpa only [htbStep, heq] using h
  · obtain ⟨hmin, hrate⟩ : tcHMin opt.classid % airohaMaxNumChannels < airohaNumQosChannels ∧
        HtbRateFits hw t d opt := by
      rcases hf with hf | hf | hf
      · rw [hbit] at hf
        cases hf
      · exact absurd hroot hf
      · exact hf
    have hmod : tcHMin opt.classid % airohaMaxNumChannels = classChannel opt.classid :=
      channel_eq hmin
    have hc := (ha.carries_iff (h.tick _)).mpr hrate
    rw [hmod] at ha hc
    simp only [htbStep, heq]
    exact h.alloc hbit hmod ha hc

/-- A class that can be modified gets the rate it is given on its channel. -/
theorem HtbInv.nodeModify_eq (h : HtbInv hw t) {d : δ} {opt : TcHtbQopt} {cl : HtbClass}
    (hl : t.live d opt.classid = some cl) (hroot : opt.parentClassid = tcHtbClassidRoot) :
    ∃ s', htbStep hw t (.nodeModify d opt) =
        { state := s', live := putClass t.live d opt.classid (some { cl with rate := opt.rate }) } ∧
      RateSet hw d (classChannel opt.classid) opt.kbps t.state s' := by
  obtain ⟨s', heq, hs⟩ := setDevRateLimit_set (h.tick (hw.qdma d)) (classChannel opt.classid)
    opt.kbps opt.quantum
  have hmodify : airohaTcHtbModifyQueue hw d opt t.state = (0, s') := by
    simp [airohaTcHtbModifyQueue, hroot, (h.fits d opt.classid cl hl).1, heq]
  exact ⟨s', by simp [htbStep, hmodify, hl], hs⟩

theorem HtbInv.nodeModify (h : HtbInv hw t) (d : δ) (opt : TcHtbQopt)
    (hv : HtbValid t (.nodeModify d opt)) (hf : HtbFits hw t (.nodeModify d opt)) :
    HtbInv hw (htbStep hw t (.nodeModify d opt)) := by
  obtain ⟨cl, hl⟩ := Option.isSome_iff_exists.mp hv
  by_cases hroot : opt.parentClassid = tcHtbClassidRoot
  · obtain ⟨s', hstep, hs⟩ := h.nodeModify_eq hl hroot
    have hrate : HtbRateFits hw t d opt := hf.resolve_left fun hne => hne hroot
    rw [HtbRateFits, (h.fits d opt.classid cl hl).1] at hrate
    rw [hstep]
    exact h.modify hl hs ((hs.carries_iff (h.tick _)).mpr hrate)
  · simpa [htbStep, airohaTcHtbModifyQueue, hroot] using h

theorem HtbInv.leafDel (h : HtbInv hw t) (d : δ) (c : BitVec 32) (hv : HtbValid t (.leafDel d c)) :
    HtbInv hw (htbStep hw t (.leafDel d c)) := by
  obtain ⟨cl, hl⟩ := Option.isSome_iff_exists.mp hv
  have hsq : t.state.sqBit d (classChannel c) = true := (h.sq d _).mpr ⟨c, cl, hl, rfl⟩
  have hdelete : airohaTcHtbDeleteLeafQueue hw d c t.state =
      (0, airohaTcRemoveHtbQueue hw d (classChannel c) t.state) := if_pos hsq
  have hr := removeHtbQueue_removed (h.tick (hw.qdma d)) (classChannel_lt_64 c)
  simpa only [htbStep, hdelete, h.putClass_none hl] using h.remove hsq hr

/-- The loop of `airoha_tc_htb_destroy`: a class is left when its channel is still to come. -/
theorem HtbInv.destroyLoop (d : δ) : ∀ (qs : List Nat) (t : HtbSys δ κ), HtbInv hw t →
    (∀ q ∈ qs, q < 64) →
    ∃ live, HtbInv hw
        { state := qs.foldl
            (fun s q =>
              if (s.dev d).qosSqBmap.getLsbD q then airohaTcRemoveHtbQueue hw d q s else s)
            t.state
          live } ∧
      ∀ d' c, live d' c = if d' = d ∧ classChannel c ∈ qs then none else t.live d' c
  | [], t, h, _ => ⟨t.live, h, by simp⟩
  | q :: qs, t, h, hqs => by
      have hq64 : q < 64 := hqs q (List.mem_cons_self)
      have hrest : ∀ q' ∈ qs, q' < 64 := fun q' hq' => hqs q' (List.mem_cons_of_mem q hq')
      cases hbit : t.state.sqBit d q with
      | true =>
        have hr : Removed hw d q t.state _ := removeHtbQueue_removed (h.tick (hw.qdma d)) hq64
        obtain ⟨live, hinv, hlive⟩ := HtbInv.destroyLoop d qs _ (h.remove hbit hr) hrest
        refine ⟨live, ?_, ?_⟩
        · rw [HtbState.sqBit] at hbit
          simpa only [List.foldl_cons, hbit, if_true] using hinv
        · intro d' c
          rw [hlive]
          by_cases hd : d' = d <;> by_cases hq : classChannel c = q <;> simp [dropChannel, hd, hq]
      | false =>
        obtain ⟨live, hinv, hlive⟩ := HtbInv.destroyLoop d qs t h hrest
        refine ⟨live, ?_, ?_⟩
        · rw [HtbState.sqBit] at hbit
          simpa only [List.foldl_cons, hbit, Bool.false_eq_true, if_false] using hinv
        · intro d' c
          have hnone : classChannel c = q → t.live d c = none := by
            intro hch
            by_contra hsome
            obtain ⟨cl, hl⟩ := Option.ne_none_iff_exists'.mp hsome
            have hsq := (h.sq d q).mpr ⟨c, cl, hl, hch⟩
            rw [hbit] at hsq
            cases hsq
          rw [hlive]
          by_cases hd : d' = d
          · subst hd
            by_cases hq : classChannel c = q
            · simp [hq, hnone hq]
            · simp [hq]
          · simp [hd]

theorem HtbInv.destroy (h : HtbInv hw t) (d : δ) : HtbInv hw (htbStep hw t (.destroy d)) := by
  have hlt : ∀ q ∈ List.range airohaMaxNumChannels, q < 64 := by
    intro q hq
    exact lt_trans (List.mem_range.mp hq) (by decide)
  obtain ⟨live, hinv, hlive⟩ := HtbInv.destroyLoop d (List.range airohaMaxNumChannels) t h hlt
  have heq : live = Function.update t.live d fun _ => none := by
    funext d' c
    have hmem : classChannel c ∈ List.range airohaMaxNumChannels :=
      List.mem_range.mpr (lt_trans (classChannel_lt c) (by decide))
    rw [hlive]
    by_cases hd : d' = d
    · subst hd
      simp [hmem]
    · simp [hd]
  rw [heq] at hinv
  exact hinv

/-- Every command of a valid run that fits keeps the invariant. -/
theorem HtbInv.step (h : HtbInv hw t) (cmd : HtbCmd δ) (hv : HtbValid t cmd)
    (hf : HtbFits hw t cmd) : HtbInv hw (htbStep hw t cmd) := by
  cases cmd with
  | leafAllocQueue d opt => exact h.leafAllocQueue d opt hf
  | nodeModify d opt => exact h.nodeModify d opt hv hf
  | leafDel d c => exact h.leafDel d c hv
  | leafQueryQueue d c => exact h
  | destroy d => exact h.destroy d

/-- A class that is allocated on one channel and given its rate on another cannot be asked for. -/
theorem not_good_of_apart (h : HtbInv hw t) {d : δ} {opt : TcHtbQopt} {s' : HtbState δ κ}
    (hge : airohaNumQosChannels ≤ tcHMin opt.classid % airohaMaxNumChannels)
    (ha : Allocated hw d (tcHMin opt.classid % airohaNumQosChannels)
      (tcHMin opt.classid % airohaMaxNumChannels) opt.kbps t.state s') {cl : HtbClass} :
    ¬ HtbGood hw { state := s', live := putClass t.live d opt.classid (some cl) } := by
  intro hg
  have hquery := hg.query d opt.classid cl (putClass_eq_some.mpr (Or.inl ⟨⟨rfl, rfl⟩, rfl⟩))
  have hclear : s'.sqBit d (tcHMin opt.classid % airohaMaxNumChannels) = false := by
    have hne : tcHMin opt.classid % airohaMaxNumChannels ≠
        tcHMin opt.classid % airohaNumQosChannels :=
      (lt_of_lt_of_le (classChannel_lt opt.classid) hge).ne'
    rw [ha.sq, if_neg fun hdc => hne hdc.2]
    by_contra hset
    obtain ⟨c, cl, -, hch⟩ := (h.sq d _).mp (by simpa using hset)
    exact absurd (classChannel_lt c) (by rw [hch]; exact Nat.not_lt.mpr hge)
  rw [HtbState.sqBit] at hclear
  simp [airohaTcGetHtbGetLeafQueue, hclear] at hquery

theorem not_good_of_not_fits (h : HtbInv hw t) (cmd : HtbCmd δ) (hv : HtbValid t cmd)
    (hf : ¬ HtbFits hw t cmd) : ¬ HtbGood hw (htbStep hw t cmd) := by
  cases cmd with
  | leafAllocQueue d opt =>
    simp only [HtbFits, not_or, not_and, not_not, Bool.not_eq_true] at hf
    obtain ⟨hbit, hroot, hbad⟩ := hf
    rcases allocLeafQueue_cases (h.tick (hw.qdma d)) opt with
      ⟨hset, -⟩ | ⟨hne, -⟩ | ⟨-, -, s', heq, ha⟩
    · rw [hbit] at hset
      cases hset
    · exact absurd hroot hne
    · have hstep : htbStep hw t (.leafAllocQueue d opt) =
          { state := s'
            live := putClass t.live d opt.classid (some
              { qid := airohaNumTxRing + tcHMin opt.classid % airohaNumQosChannels
                rate := opt.rate }) } := by
        simp only [htbStep, heq]
      rw [hstep]
      by_cases hmin : tcHMin opt.classid % airohaMaxNumChannels < airohaNumQosChannels
      · -- the right channel, and a rate its meter cannot carry
        intro hg
        have hcarries := hg.carries d opt.classid _
          (putClass_eq_some.mpr (Or.inl ⟨⟨rfl, rfl⟩, rfl⟩))
        have hq : airohaNumTxRing + tcHMin opt.classid % airohaNumQosChannels - airohaNumTxRing =
            tcHMin opt.classid % airohaMaxNumChannels := by
          rw [Nat.add_sub_cancel_left, channel_eq hmin]
        simp only [hq] at hcarries
        exact hbad hmin ((ha.carries_iff (h.tick _)).mp hcarries)
      · exact not_good_of_apart h (Nat.not_lt.mp hmin) ha
  | nodeModify d opt =>
    simp only [HtbFits, not_or, not_not] at hf
    obtain ⟨hroot, hbad⟩ := hf
    obtain ⟨cl, hl⟩ := Option.isSome_iff_exists.mp hv
    obtain ⟨s', hstep, hs⟩ := h.nodeModify_eq hl hroot
    obtain ⟨hchannel, hqid⟩ := h.fits d opt.classid cl hl
    rw [hstep]
    intro hg
    have hcarries := hg.carries d opt.classid _
      (putClass_eq_some.mpr (Or.inl ⟨⟨rfl, rfl⟩, rfl⟩))
    simp only [hqid, Nat.add_sub_cancel_left] at hcarries
    rw [HtbRateFits, hchannel] at hbad
    exact hbad ((hs.carries_iff (h.tick _)).mp hcarries)
  | leafDel d c => exact absurd trivial hf
  | leafQueryQueue d c => exact absurd trivial hf
  | destroy d => exact absurd trivial hf

/-- A run is good exactly when its commands fit. -/
theorem HtbInv.goodRun_iff (cmds : List (HtbCmd δ)) :
    ∀ {t : HtbSys δ κ}, HtbInv hw t → HtbValidRun hw t cmds →
      (HtbGoodRun hw t cmds ↔ HtbFitRun hw t cmds) := by
  induction cmds with
  | nil =>
    intro t h _
    simp [HtbGoodRun, HtbFitRun, h.good]
  | cons cmd cmds ih =>
    intro t h hv
    by_cases hf : HtbFits hw t cmd
    · have hrest := ih (h.step cmd hv.1 hf) hv.2
      simp [HtbGoodRun, HtbFitRun, h.good, hf, hrest]
    · have hbad := not_good_of_not_fits h cmd hv.1 hf
      have hnot : ¬ HtbGoodRun hw (htbStep hw t cmd) cmds := by
        intro hg
        cases cmds with
        | nil => exact hbad hg
        | cons cmd' cmds => exact hbad hg.1
      simp [HtbGoodRun, HtbFitRun, hf, hnot]

/-- From no class at all, a run of valid commands is good exactly when they fit. -/
theorem htbRun_iff (hi : HtbInit t) (cmds : List (HtbCmd δ)) (hv : HtbValidRun hw t cmds) :
    HtbGoodRun hw t cmds ↔ HtbFitRun hw t cmds :=
  HtbInv.goodRun_iff cmds hi.inv hv

end Steps

/-! ## Two devices on one engine -/

/-- The two devices share an engine. -/
def oneQdma : HtbHw Bool Unit := { qdma := fun _ => (), bucketShift := fun _ size => size }

/-- No class, and the ticks of `airoha_qdma_init_qos`. -/
def noClass : HtbSys Bool Unit :=
  { state :=
      { dev := fun _ => { qosSqBmap := 0#64, realNumTxQueues := 32 }
        qdma := fun _ =>
          { qosChannelMap := 0#64
            meters := { cfg := 0x80280019#32, para := fun _ _ _ => 0#32 } } }
    live := fun _ _ => none }

/-- A class with 125000 bytes a second. -/
def megabit (classid : BitVec 32) : TcHtbQopt :=
  { classid, parentClassid := tcHtbClassidRoot, rate := 125000#64, quantum := 1500#32 }

theorem htbInit_noClass : HtbInit noClass := by
  constructor
  · intro d c
    rfl
  · intro d
    rfl
  · intro q
    rfl
  · intro q ch mode
    simp [EgressMeters.on, HtbState.meters, noClass]
  · intro q
    cases q
    exact ⟨by decide, by decide⟩

theorem htbGoodRun_noClass : HtbGoodRun oneQdma noClass
    [.leafAllocQueue true (megabit 0x10001#32), .leafAllocQueue false (megabit 0x10002#32),
      .nodeModify true { megabit 0x10001#32 with rate := 250000#64 },
      .leafQueryQueue true 0x10001#32, .leafDel true 0x10001#32, .destroy false] := by
  refine (htbRun_iff htbInit_noClass _ ?_).mpr ?_
  · exact ⟨trivial, trivial, rfl, rfl, rfl, trivial, trivial⟩
  · have hfits : ∀ m : EgressMeters, m.cfg = 0x80280019#32 → ∀ channel (rate : BitVec 64),
        1000 ≤ rate.toNat → rate.toNat < 2 ^ 18 * 1000 → RateFits m channel rate := by
      intro m hcfg channel rate h1 h2
      refine rateFits_of_lt ?_ (Or.inr h1) h2
      rw [hcfg]
      exact ⟨by decide, by decide⟩
    refine ⟨Or.inr (Or.inr ⟨by decide, hfits _ rfl _ _ (by decide) (by decide)⟩),
      Or.inr (Or.inr ⟨by decide, hfits _ rfl _ _ (by decide) (by decide)⟩),
      Or.inr (hfits _ rfl _ _ (by decide) (by decide)), trivial, trivial, trivial, trivial⟩

/-- The class 1:10 has queue 32 and its rate on channel 16; the meter of a class of 999 bytes a
second is off; 100 Gbit/s are stored as 16. -/
theorem not_htbGoodRun_noClass :
    ¬ HtbGoodRun oneQdma noClass [.leafAllocQueue true (megabit 0x10010#32)] ∧
      ¬ HtbGoodRun oneQdma noClass
        [.leafAllocQueue true { megabit 0x10001#32 with rate := 999#64 }] ∧
      ¬ HtbGoodRun oneQdma noClass
        [.leafAllocQueue true { megabit 0x10001#32 with rate := 12500000000#64 }] := by
  have hinv : HtbInv oneQdma noClass := htbInit_noClass.inv
  refine ⟨fun h => ?_, fun h => ?_, fun h => ?_⟩
  · refine not_good_of_not_fits hinv (.leafAllocQueue true _) trivial ?_ h.2
    rintro (hbit | hroot | ⟨hmin, -⟩)
    · revert hbit
      decide
    · exact hroot rfl
    · revert hmin
      decide
  · refine not_good_of_not_fits hinv (.leafAllocQueue true _) trivial ?_ h.2
    rintro (hbit | hroot | ⟨-, hrate⟩)
    · revert hbit
      decide
    · exact hroot rfl
    · have hseen := hrate.seen
      revert hseen
      decide
  · refine not_good_of_not_fits hinv (.leafAllocQueue true _) trivial ?_ h.2
    rintro (hbit | hroot | ⟨-, hrate⟩)
    · revert hbit
      decide
    · exact hroot rfl
    · have hunits := hrate.units .commit
      revert hunits
      decide

end Airoha.Qdma
