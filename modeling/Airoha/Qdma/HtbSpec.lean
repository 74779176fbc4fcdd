/-
Airoha.Qdma.HtbSpec — what the HTB commands do.

One lemma for each of the functions of `Airoha.Qdma.Htb`, in terms of the bits
of the two bitmaps, the meters and the numbers of queues: what it changes, and
that it changes nothing else.

A class is given bytes a second, the driver takes whole kilobytes of them and
a meter counts sixty-fourths of its unit. `Carries` says that what a meter lets
through is the rate of a class up to these two steps, `carries_iff` for which
rates it is.
-/
import Airoha.Qdma.Htb
import Airoha.Qdma.Rates

namespace Airoha.Qdma

open Airoha.Lib

/-! ## The rate of a class -/

section Rate

/-- The unit of a mode of a meter, and the rate it lets through, in kbit/s. -/
def EgressMeters.unit (m : EgressMeters) (channel : Nat) (mode : TrtcmMode) : Nat :=
  rateUnit m.cfg (m.para .miscMode channel mode)
def EgressMeters.kbps (m : EgressMeters) (channel : Nat) (mode : TrtcmMode) : Nat :=
  decodedRate (m.unit channel mode) (m.para .tokenRateMode channel mode)

/-- The meter of a channel carries a rate in bytes a second, in both modes: it is on unless the rate
is 0, and lets through no more than the rate and no less than it by a sixty-fourth of a unit and a
kilobyte. -/
structure EgressMeters.Carries (m : EgressMeters) (channel : Nat) (rate : BitVec 64) : Prop where
  on : ∀ mode, m.on channel mode = decide (rate ≠ 0#64)
  le : ∀ mode, m.kbps channel mode ≤ 8 * rate.toNat / 1000
  near : ∀ mode, 8 * rate.toNat / 1000 ≤ m.kbps channel mode + m.unit channel mode / 64 + 8

/-- Only a channel's own parameters are looked at. -/
theorem EgressMeters.Carries.congr {m m' : EgressMeters} {channel : Nat} {rate : BitVec 64}
    (h : m.Carries channel rate) (hcfg : m'.cfg = m.cfg)
    (hpara : ∀ p i, m'.para p channel i = m.para p channel i) : m'.Carries channel rate := by
  have hunit : ∀ mode, m'.unit channel mode = m.unit channel mode := by
    intro mode
    rw [EgressMeters.unit, EgressMeters.unit, hcfg, hpara]
  have hkbps : ∀ mode, m'.kbps channel mode = m.kbps channel mode := by
    intro mode
    rw [EgressMeters.kbps, EgressMeters.kbps, hunit, hpara]
  constructor
  · intro mode
    rw [← h.on mode, EgressMeters.on, EgressMeters.on, hpara]
  · intro mode
    rw [hkbps]
    exact h.le mode
  · intro mode
    rw [hkbps, hunit]
    exact h.near mode

/-- A rate that a meter can carry: none or at least a kilobyte a second, 18 bits of units, and 32
bits of kbit/s. -/
structure RateFits (m : EgressMeters) (channel : Nat) (rate : BitVec 64) : Prop where
  seen : rate = 0#64 ∨ 1000 ≤ rate.toNat
  word : 8 * (rate.toNat / 1000) < 2 ^ 32
  units : ∀ mode, 8 * (rate.toNat / 1000) / m.unit channel mode < 2 ^ 18

theorem TcHtbQopt.toNat_kbps (opt : TcHtbQopt) :
    opt.kbps.toNat = 8 * (opt.rate.toNat / 1000) % 2 ^ 32 := by
  have hlt := opt.rate.isLt
  have hdiv : opt.rate.toNat / 1000 * 2 ^ 3 < 2 ^ 64 := by
    omega
  have hthousand : (1000#64).toNat = 1000 := rfl
  rw [TcHtbQopt.kbps, BitVec.toNat_setWidth, BitVec.toNat_shiftLeft, BitVec.toNat_udiv, hthousand,
    Nat.shiftLeft_eq, Nat.mod_eq_of_lt hdiv]
  omega

/-- The ticks of the driver keep every unit below the width of a field. -/
theorem unit_of_hasTick {m : EgressMeters} (ht : HasTick m.cfg) (channel : Nat) (mode : TrtcmMode) :
    8 ≤ m.unit channel mode ∧ m.unit channel mode ≤ 40000 := by
  have hfast : fastTick m.cfg = 25 := by
    rw [fastTick, ht.fast]
    rfl
  have hratio : slowTickRatio m.cfg = 40 := by
    rw [slowTickRatio, ht.ratio]
    rfl
  unfold EgressMeters.unit rateUnit curTick
  rw [hfast, hratio]
  split <;> split <;> decide

/-- What is packed never stands for more, and what is cut off is missing. -/
theorem decodedRate_egress_le {unit v : BitVec 32} (hu : 0 < unit.toNat) :
    decodedRate unit.toNat (egressTokenRate unit v) +
      v.toNat / unit.toNat / 2 ^ 18 * (2 ^ 18 * unit.toNat) ≤ v.toNat := by
  obtain ⟨hint, hfrac⟩ := egressTokenRate_fields unit v hu
  obtain ⟨n, hn⟩ : ∃ n, v.toNat / unit.toNat = n := ⟨_, rfl⟩
  obtain ⟨r, hr⟩ : ∃ r, v.toNat % unit.toNat = r := ⟨_, rfl⟩
  have hsplit := Nat.div_add_mod v.toNat unit.toNat
  rw [hn, hr] at hsplit
  have hpart : r % 2 ^ 18 * 64 / unit.toNat * unit.toNat / 64 ≤ r := by
    have hmul := Nat.div_mul_le_self (r % 2 ^ 18 * 64) unit.toNat
    have hmod := Nat.mod_le r (2 ^ 18)
    omega
  have hsum : n % 2 ^ 18 * unit.toNat + n / 2 ^ 18 * (2 ^ 18 * unit.toNat) = unit.toNat * n := by
    calc n % 2 ^ 18 * unit.toNat + n / 2 ^ 18 * (2 ^ 18 * unit.toNat)
        = unit.toNat * (2 ^ 18 * (n / 2 ^ 18) + n % 2 ^ 18) := by ring
      _ = unit.toNat * n := by rw [Nat.div_add_mod]
  rw [decodedRate, hint, hfrac, hn, hr]
  omega

/-- In one mode, what is stored for a rate is close to it when neither 32 bits nor 18 cut it. -/
theorem stored_close_iff {unit : BitVec 32} {opt : TcHtbQopt} (hu : 0 < unit.toNat)
    (hle : unit.toNat ≤ 40000) :
    (decodedRate unit.toNat (egressTokenRate unit opt.kbps) ≤ 8 * opt.rate.toNat / 1000 ∧
      8 * opt.rate.toNat / 1000 ≤
        decodedRate unit.toNat (egressTokenRate unit opt.kbps) + unit.toNat / 64 + 8) ↔
    8 * (opt.rate.toNat / 1000) < 2 ^ 32 ∧ 8 * (opt.rate.toNat / 1000) / unit.toNat < 2 ^ 18 := by
  have hv := opt.toNat_kbps
  obtain ⟨k, hk⟩ : ∃ k, 8 * (opt.rate.toNat / 1000) = k := ⟨_, rfl⟩
  rw [hk] at hv ⊢
  constructor
  · rintro ⟨-, hnear⟩
    have hcut := decodedRate_egress_le (v := opt.kbps) hu
    rw [hv] at hcut
    have hword : k < 2 ^ 32 := by
      by_contra hbig
      have hmod : k % 2 ^ 32 + 2 ^ 32 ≤ k := by
        omega
      omega
    refine ⟨hword, ?_⟩
    by_contra hbig
    rw [Nat.mod_eq_of_lt hword] at hcut
    have hone : 1 ≤ k / unit.toNat / 2 ^ 18 := by
      omega
    have hmul : 1 * (2 ^ 18 * unit.toNat) ≤ k / unit.toNat / 2 ^ 18 * (2 ^ 18 * unit.toNat) :=
      Nat.mul_le_mul_right _ hone
    omega
  · rintro ⟨hword, hfit⟩
    rw [Nat.mod_eq_of_lt hword] at hv
    have hrem : k % unit.toNat < 2 ^ 18 := by
      have := Nat.mod_lt k hu
      omega
    have hright : RateRight unit.toNat k (egressTokenRate unit opt.kbps) := by
      rw [← hv]
      refine (rateRight_egress_iff hu (by omega)).mpr ?_
      rw [hv]
      exact ⟨hfit, hrem⟩
    have h1 := hright.le
    have h2 := hright.near
    omega

/-- What the driver stores for a class carries its rate exactly when the rate fits. -/
theorem carries_iff {m : EgressMeters} {channel : Nat} {opt : TcHtbQopt} (ht : HasTick m.cfg)
    (h : m.Stores channel opt.kbps) : m.Carries channel opt.rate ↔ RateFits m channel opt.rate := by
  have hclose : ∀ mode, (m.kbps channel mode ≤ 8 * opt.rate.toNat / 1000 ∧
      8 * opt.rate.toNat / 1000 ≤ m.kbps channel mode + m.unit channel mode / 64 + 8) ↔
      8 * (opt.rate.toNat / 1000) < 2 ^ 32 ∧
        8 * (opt.rate.toNat / 1000) / m.unit channel mode < 2 ^ 18 := by
    intro mode
    obtain ⟨unit, hunit, htoken⟩ := h.token mode
    obtain ⟨hpos, hle⟩ := unit_of_hasTick ht channel mode
    have hnat : m.unit channel mode = unit.toNat := by
      rw [trtcmUnit_eq] at hunit
      split at hunit
      · cases hunit
      · cases hunit
        rw [BitVec.toNat_ofNat]
        have hlt : m.unit channel mode < 2 ^ 32 := by
          omega
        exact (Nat.mod_eq_of_lt hlt).symm
    rw [hnat] at hpos hle
    rw [EgressMeters.kbps, htoken, hnat]
    exact stored_close_iff (by omega) hle
  have hon : 8 * (opt.rate.toNat / 1000) < 2 ^ 32 →
      ((∀ mode, m.on channel mode = decide (opt.rate ≠ 0#64)) ↔
        (opt.rate = 0#64 ∨ 1000 ≤ opt.rate.toNat)) := by
    intro hword
    have hv := opt.toNat_kbps
    rw [Nat.mod_eq_of_lt hword] at hv
    have hzero : opt.kbps = 0#32 ↔ opt.rate.toNat < 1000 := by
      rw [← BitVec.toNat_inj, hv]
      show 8 * (opt.rate.toNat / 1000) = 0 ↔ _
      omega
    have hrate : opt.rate = 0#64 ↔ opt.rate.toNat = 0 := by
      rw [← BitVec.toNat_inj]
      rfl
    constructor
    · intro hall
      have hsame := (h.on .commit).symm.trans (hall .commit)
      rw [decide_eq_decide, Ne, Ne, not_iff_not, hzero, hrate] at hsame
      rw [hrate]
      omega
    · intro hseen mode
      rw [h.on mode, decide_eq_decide, Ne, Ne, not_iff_not, hzero, hrate]
      rw [hrate] at hseen
      omega
  constructor
  · intro hc
    have hboth := fun mode => (hclose mode).mp ⟨hc.le mode, hc.near mode⟩
    have hword := (hboth .commit).1
    exact ⟨(hon hword).mp hc.on, hword, fun mode => (hboth mode).2⟩
  · intro hf
    have hboth := fun mode => (hclose mode).mpr ⟨hf.word, hf.units mode⟩
    exact ⟨(hon hf.word).mpr hf.seen, fun mode => (hboth mode).1, fun mode => (hboth mode).2⟩

/-- Up to 2 Gbit/s no unit of the driver is too small. -/
theorem rateFits_of_lt {m : EgressMeters} {channel : Nat} {rate : BitVec 64} (ht : HasTick m.cfg)
    (hseen : rate = 0#64 ∨ 1000 ≤ rate.toNat) (hlt : rate.toNat < 2 ^ 18 * 1000) :
    RateFits m channel rate := by
  refine ⟨hseen, by omega, fun mode => ?_⟩
  obtain ⟨hpos, -⟩ := unit_of_hasTick ht channel mode
  rw [Nat.div_lt_iff_lt_mul (by omega)]
  have hmul : 2 ^ 18 * 8 ≤ 2 ^ 18 * m.unit channel mode := Nat.mul_le_mul_left _ hpos
  omega

/-- With the same units the same rates fit. -/
theorem RateFits.congr {m m' : EgressMeters} {channel : Nat} {rate : BitVec 64}
    (h : ∀ mode, m'.unit channel mode = m.unit channel mode) :
    RateFits m' channel rate ↔ RateFits m channel rate := by
  constructor
  · intro hf
    exact ⟨hf.seen, hf.word, fun mode => h mode ▸ hf.units mode⟩
  · intro hf
    exact ⟨hf.seen, hf.word, fun mode => (h mode).symm ▸ hf.units mode⟩

theorem unit_eq_of_trtcmUnit {m m' : EgressMeters} {channel : Nat} {mode : TrtcmMode}
    (ht : HasTick m.cfg) (hcfg : m'.cfg = m.cfg)
    (h : trtcmUnit m'.cfg (m'.para .miscMode channel mode) =
      trtcmUnit m.cfg (m.para .miscMode channel mode)) :
    m'.unit channel mode = m.unit channel mode := by
  obtain ⟨-, hle⟩ := unit_of_hasTick ht channel mode
  obtain ⟨-, hle'⟩ := unit_of_hasTick (hcfg ▸ ht : HasTick m'.cfg) channel mode
  obtain ⟨u, hu⟩ := trtcmUnit_of_hasTick ht (m.para .miscMode channel mode)
  rw [hu] at h
  rw [trtcmUnit_eq] at h hu
  split at hu
  · cases hu
  · split at h
    · cases h
    · have hsame := congrArg BitVec.toNat (Option.some.inj (h.trans hu.symm))
      rw [BitVec.toNat_ofNat, BitVec.toNat_ofNat] at hsame
      unfold EgressMeters.unit at hle hle' ⊢
      omega

end Rate

/-! ## Views of the state -/

section Views

variable {δ κ : Type}

/-- The bits of `qos_sq_bmap` and of `qos_channel_map`, and the meters of an engine. -/
def HtbState.sqBit (s : HtbState δ κ) (d : δ) (ch : Nat) : Bool := (s.dev d).qosSqBmap.getLsbD ch
def HtbState.mapBit (s : HtbState δ κ) (q : κ) (ch : Nat) : Bool :=
  (s.qdma q).qosChannelMap.getLsbD ch
def HtbState.meters (s : HtbState δ κ) (q : κ) : EgressMeters := (s.qdma q).meters

end Views

/-! ## What the primitives do -/

theorem putBit (x : BitVec 64) {k : Nat} (hk : k < 64) (on : Bool) (i : Nat) :
    (if on then x ||| bit 64 k else x &&& ~~~bit 64 k).getLsbD i =
      if i = k then on else x.getLsbD i := by
  cases on
  · rw [if_neg (by decide), getLsbD_and_not_bit]
    by_cases hi : i = k <;> simp [hi]
  · rw [if_pos rfl, getLsbD_or_bit hk]
    by_cases hi : i = k <;> simp [hi]

theorem sqBit_putSq {δ κ : Type} [DecidableEq δ] {s : HtbState δ κ} {d : δ} {ch : Nat}
    (hch : ch < 64)
    (on : Bool) (d' : δ) (c : Nat) :
    (putSq d ch on s).sqBit d' c = if d' = d ∧ c = ch then on else s.sqBit d' c := by
  by_cases hd : d' = d
  · subst hd
    simp [putSq, HtbState.putDev, HtbState.sqBit, putBit _ hch]
  · simp [putSq, HtbState.putDev, HtbState.sqBit, hd]

section Netif

variable {δ κ : Type} [DecidableEq δ] {s : HtbState δ κ} {d : δ} {ch : Nat}

theorem sqBit_netifSet (n : Nat) (d' : δ) (c : Nat) :
    (netifSetRealNumTxQueues d n s).sqBit d' c = s.sqBit d' c := by
  by_cases hd : d' = d
  · subst hd
    simp [netifSetRealNumTxQueues, HtbState.putDev, HtbState.sqBit]
  · simp [netifSetRealNumTxQueues, HtbState.putDev, HtbState.sqBit, hd]

theorem realNum_netifSet (n : Nat) (d' : δ) :
    ((netifSetRealNumTxQueues d n s).dev d').realNumTxQueues =
      if d' = d then n else (s.dev d').realNumTxQueues := by
  by_cases hd : d' = d
  · subst hd
    simp [netifSetRealNumTxQueues, HtbState.putDev]
  · simp [netifSetRealNumTxQueues, HtbState.putDev, hd]

theorem realNum_putSq (on : Bool) (d' : δ) :
    ((putSq d ch on s).dev d').realNumTxQueues = (s.dev d').realNumTxQueues := by
  by_cases hd : d' = d
  · subst hd
    simp [putSq, HtbState.putDev]
  · simp [putSq, HtbState.putDev, hd]

/-- As many queues as are needed. -/
theorem realNum_grow (n : Nat) (d' : δ) :
    ((if (s.dev d).realNumTxQueues < n then netifSetRealNumTxQueues d n s else s).dev
      d').realNumTxQueues =
      if d' = d then max (s.dev d).realNumTxQueues n else (s.dev d').realNumTxQueues := by
  split_ifs with hlt hd hd
  · rw [realNum_netifSet, if_pos hd, max_eq_right hlt.le]
  · rw [realNum_netifSet, if_neg hd]
  · rw [hd, max_eq_left (Nat.not_lt.mp hlt)]
  · rfl

theorem sqBit_grow (n : Nat) (d' : δ) (c : Nat) :
    (if (s.dev d).realNumTxQueues < n then netifSetRealNumTxQueues d n s else s).sqBit d' c =
      s.sqBit d' c := by
  split_ifs
  · exact sqBit_netifSet n d' c
  · rfl

theorem qdma_grow (n : Nat) :
    (if (s.dev d).realNumTxQueues < n then netifSetRealNumTxQueues d n s else s).qdma = s.qdma := by
  split_ifs <;> rfl

end Netif

section Prims

variable {δ κ : Type} [DecidableEq κ] {hw : HtbHw δ κ} {s s' : HtbState δ κ} {d : δ} {ch : Nat}
  {rate : BitVec 32}

/-- A rate was set on one channel of one engine. -/
structure RateSet (hw : HtbHw δ κ) (d : δ) (ch : Nat) (rate : BitVec 32) (s s' : HtbState δ κ) :
    Prop where
  dev : s'.dev = s.dev
  map : ∀ q, (s'.qdma q).qosChannelMap = (s.qdma q).qosChannelMap
  cfg : ∀ q, (s'.meters q).cfg = (s.meters q).cfg
  stores : (s'.meters (hw.qdma d)).Stores ch rate
  unit : ∀ mode, (s'.meters (hw.qdma d)).unit ch mode = (s.meters (hw.qdma d)).unit ch mode
  frame : ∀ q c, ¬ (q = hw.qdma d ∧ c = ch) → ∀ p i,
    (s'.meters q).para p c i = (s.meters q).para p c i

theorem setDevRateLimit_set (ht : HasTick (s.meters (hw.qdma d)).cfg) (ch : Nat)
    (rate bucketSize : BitVec 32) :
    ∃ s', setDevRateLimit hw d ch rate bucketSize s = (0, s') ∧ RateSet hw d ch rate s s' := by
  obtain ⟨m', heq, hcfg, hstores, hunits, hframe⟩ :=
    setTxRateLimit_done hw.bucketShift ht ch rate bucketSize
  have hdev : setDevRateLimit hw d ch rate bucketSize s =
      (0, s.putQdma (hw.qdma d) { s.qdma (hw.qdma d) with meters := m' }) := by
    unfold HtbState.meters at heq
    simp only [setDevRateLimit, heq]
  refine ⟨_, hdev, rfl, ?_, ?_, ?_, fun mode => ?_, ?_⟩
  · intro q
    by_cases hq : q = hw.qdma d
    · subst hq
      simp [HtbState.putQdma]
    · simp [HtbState.putQdma, hq]
  · intro q
    by_cases hq : q = hw.qdma d
    · subst hq
      simpa [HtbState.putQdma, HtbState.meters] using hcfg
    · simp [HtbState.putQdma, HtbState.meters, hq]
  · simpa [HtbState.putQdma, HtbState.meters] using hstores
  · have hunit := unit_eq_of_trtcmUnit ht hcfg (hunits mode)
    simpa [HtbState.putQdma, HtbState.meters] using hunit
  · intro q c hne p i
    by_cases hq : q = hw.qdma d
    · have hc : c ≠ ch := fun h => hne ⟨hq, h⟩
      subst hq
      simpa [HtbState.putQdma, HtbState.meters] using hframe p c i hc
    · simp [HtbState.putQdma, HtbState.meters, hq]

theorem mapBit_putChannel (hch : ch < 64) (on : Bool) (q : κ) (c : Nat) :
    (putChannel hw d ch on s).mapBit q c =
      if q = hw.qdma d ∧ c = ch then on else s.mapBit q c := by
  by_cases hq : q = hw.qdma d
  · subst hq
    simp [putChannel, HtbState.putQdma, HtbState.mapBit, putBit _ hch]
  · simp [putChannel, HtbState.putQdma, HtbState.mapBit, hq]

theorem meters_putChannel (on : Bool) (q : κ) :
    (putChannel hw d ch on s).meters q = s.meters q := by
  by_cases hq : q = hw.qdma d
  · subst hq
    simp [putChannel, HtbState.putQdma, HtbState.meters]
  · simp [putChannel, HtbState.putQdma, HtbState.meters, hq]

/-- A bit that was clear, set and cleared again. -/
theorem putChannel_undo (hch : ch < 64) (h : s.mapBit (hw.qdma d) ch = false) :
    putChannel hw d ch false (putChannel hw d ch true s) = s := by
  have hbits : ((s.qdma (hw.qdma d)).qosChannelMap ||| bit 64 ch) &&& ~~~bit 64 ch =
      (s.qdma (hw.qdma d)).qosChannelMap := by
    apply BitVec.eq_of_getLsbD_eq
    intro i _
    rw [getLsbD_and_not_bit, getLsbD_or_bit hch]
    by_cases hi : i = ch
    · subst hi
      simpa [HtbState.mapBit] using h.symm
    · simp [hi]
  simp [putChannel, HtbState.putQdma, hbits]

end Prims

/-! ## What the commands do -/

section Cmds

variable {δ κ : Type} [DecidableEq δ] [DecidableEq κ] {hw : HtbHw δ κ} {s : HtbState δ κ} {d : δ}
  {ch : Nat}

/-- `airoha_tc_remove_htb_queue` takes a channel away from a device. -/
structure Removed (hw : HtbHw δ κ) (d : δ) (ch : Nat) (s s' : HtbState δ κ) : Prop where
  sq : ∀ d' c, s'.sqBit d' c = if d' = d ∧ c = ch then false else s.sqBit d' c
  map : ∀ q c, s'.mapBit q c = if q = hw.qdma d ∧ c = ch then false else s.mapBit q c
  cfg : ∀ q, (s'.meters q).cfg = (s.meters q).cfg
  off : (s'.meters (hw.qdma d)).Off ch
  frame : ∀ q c, ¬ (q = hw.qdma d ∧ c = ch) → ∀ p i,
    (s'.meters q).para p c i = (s.meters q).para p c i
  others : ∀ d', d' ≠ d → (s'.dev d').realNumTxQueues = (s.dev d').realNumTxQueues
  queues : ∀ c < airohaNumQosChannels, s'.sqBit d c = true →
    airohaNumTxRing + c < (s'.dev d).realNumTxQueues

/-- `airoha_tc_htb_alloc_leaf_queue` gives a channel to a device, and a rate to the meter of
`rch`. -/
structure Allocated (hw : HtbHw δ κ) (d : δ) (ch rch : Nat) (rate : BitVec 32)
    (s s' : HtbState δ κ) : Prop where
  sq : ∀ d' c, s'.sqBit d' c = if d' = d ∧ c = ch then true else s.sqBit d' c
  map : ∀ q c, s'.mapBit q c = if q = hw.qdma d ∧ c = ch then true else s.mapBit q c
  cfg : ∀ q, (s'.meters q).cfg = (s.meters q).cfg
  stores : (s'.meters (hw.qdma d)).Stores rch rate
  unit : ∀ mode, (s'.meters (hw.qdma d)).unit rch mode = (s.meters (hw.qdma d)).unit rch mode
  frame : ∀ q c, ¬ (q = hw.qdma d ∧ c = rch) → ∀ p i,
    (s'.meters q).para p c i = (s.meters q).para p c i
  others : ∀ d', (s.dev d').realNumTxQueues ≤ (s'.dev d').realNumTxQueues
  queues : airohaNumTxRing + ch < (s'.dev d).realNumTxQueues

omit [DecidableEq δ] [DecidableEq κ] in
theorem RateSet.carries_iff {opt : TcHtbQopt} {s' : HtbState δ κ}
    (h : RateSet hw d ch opt.kbps s s')
    (ht : HasTick (s.meters (hw.qdma d)).cfg) :
    (s'.meters (hw.qdma d)).Carries ch opt.rate ↔
      RateFits (s.meters (hw.qdma d)) ch opt.rate := by
  have ht' : HasTick (s'.meters (hw.qdma d)).cfg := by
    rw [h.cfg]
    exact ht
  exact (Qdma.carries_iff ht' h.stores).trans (RateFits.congr h.unit)

theorem Allocated.carries_iff {rch : Nat} {opt : TcHtbQopt} {s' : HtbState δ κ}
    (h : Allocated hw d ch rch opt.kbps s s') (ht : HasTick (s.meters (hw.qdma d)).cfg) :
    (s'.meters (hw.qdma d)).Carries rch opt.rate ↔
      RateFits (s.meters (hw.qdma d)) rch opt.rate := by
  have ht' : HasTick (s'.meters (hw.qdma d)).cfg := by
    rw [h.cfg]
    exact ht
  exact (Qdma.carries_iff ht' h.stores).trans (RateFits.congr h.unit)

/-- The number of queues covers every channel in use. -/
theorem lt_numTxQueuesFor {x : BitVec 64} {c : Nat} (hc : c < airohaNumQosChannels)
    (hbit : x.getLsbD c = true) : airohaNumTxRing + c < numTxQueuesFor x := by
  unfold numTxQueuesFor
  cases hscan : scanDown (fun k => x.getLsbD k) (airohaNumQosChannels - 1) airohaNumQosChannels with
  | none =>
    have hfalse := (scanDown_eq_none_iff (by decide)).mp hscan c (Nat.le_add_left _ _)
      (Nat.le_sub_one_of_lt hc)
    rw [hbit] at hfalse
    cases hfalse
  | some last =>
    obtain ⟨-, -, -, habove⟩ := (scanDown_eq_some_iff (by decide)).mp hscan
    have hle : c ≤ last := by
      by_contra hgt
      have hfalse := habove c (by omega) (Nat.le_sub_one_of_lt hc)
      rw [hbit] at hfalse
      cases hfalse
    exact Nat.add_lt_add_left (Nat.lt_succ_of_le hle) airohaNumTxRing

theorem removeHtbQueue_removed (ht : HasTick (s.meters (hw.qdma d)).cfg) (hch : ch < 64) :
    Removed hw d ch s (airohaTcRemoveHtbQueue hw d ch s) := by
  obtain ⟨s1, heq, h1⟩ := setDevRateLimit_set ht ch 0#32 0#32
  let s2 := putSq d ch false (putChannel hw d ch false s1)
  have hrun : airohaTcRemoveHtbQueue hw d ch s =
      netifSetRealNumTxQueues d (numTxQueuesFor (s2.dev d).qosSqBmap) s2 := by
    simp only [airohaTcRemoveHtbQueue, heq, s2]
  have hmeters : ∀ q, (airohaTcRemoveHtbQueue hw d ch s).meters q = s1.meters q := by
    intro q
    rw [hrun]
    exact meters_putChannel false q
  constructor
  case sq =>
    intro d' c
    rw [hrun, sqBit_netifSet, sqBit_putSq hch]
    simp [putChannel, HtbState.putQdma, HtbState.sqBit, h1.dev]
  case map =>
    intro q c
    have hmap : s1.mapBit q c = s.mapBit q c := by
      rw [HtbState.mapBit, HtbState.mapBit, h1.map]
    rw [← hmap, hrun]
    exact mapBit_putChannel hch false q c
  case cfg =>
    intro q
    rw [hmeters, h1.cfg]
  case off =>
    rw [hmeters]
    exact h1.stores.off
  case frame =>
    intro q c hne p i
    rw [hmeters, h1.frame q c hne]
  case others =>
    intro d' hd
    rw [hrun, realNum_netifSet, if_neg hd, realNum_putSq]
    simp [putChannel, HtbState.putQdma, h1.dev]
  case queues =>
    intro c hc hbit
    rw [hrun, sqBit_netifSet] at hbit
    rw [hrun, realNum_netifSet, if_pos rfl]
    exact lt_numTxQueuesFor hc hbit

/-- What is left when nothing fails: the channel is taken, its rate is set, and the device has a
queue for it. -/
theorem allocated_of_rateSet {s2 : HtbState δ κ} {rch : Nat} {rate : BitVec 32} (hch : ch < 64)
    (h : RateSet hw d rch rate (putChannel hw d ch true s) s2) :
    Allocated hw d ch rch rate s
      (putSq d ch true
        (if (s2.dev d).realNumTxQueues < airohaNumTxRing + ch + 1 then
          netifSetRealNumTxQueues d (airohaNumTxRing + ch + 1) s2 else s2)) := by
  let s3 := if (s2.dev d).realNumTxQueues < airohaNumTxRing + ch + 1 then
    netifSetRealNumTxQueues d (airohaNumTxRing + ch + 1) s2 else s2
  have hdev : s2.dev = s.dev := h.dev
  have hqdma : (putSq d ch true s3).qdma = s2.qdma := qdma_grow _
  have hmeters : ∀ q, (putSq d ch true s3).meters q = s2.meters q := by
    intro q
    rw [HtbState.meters, HtbState.meters, hqdma]
  have hnum : ∀ d', ((putSq d ch true s3).dev d').realNumTxQueues =
      if d' = d then max (s.dev d).realNumTxQueues (airohaNumTxRing + ch + 1)
      else (s.dev d').realNumTxQueues := by
    intro d'
    rw [realNum_putSq, realNum_grow, hdev]
  constructor
  case sq =>
    intro d' c
    rw [sqBit_putSq hch, sqBit_grow, HtbState.sqBit, HtbState.sqBit, hdev]
  case map =>
    intro q c
    rw [HtbState.mapBit, hqdma, h.map]
    exact mapBit_putChannel hch true q c
  case cfg =>
    intro q
    rw [hmeters, h.cfg, meters_putChannel]
  case stores =>
    rw [hmeters]
    exact h.stores
  case unit =>
    intro mode
    rw [hmeters, h.unit, meters_putChannel]
  case frame =>
    intro q c hne p i
    rw [hmeters, h.frame q c hne, meters_putChannel]
  case others =>
    intro d'
    rw [hnum]
    split_ifs with hd
    · rw [hd]
      exact le_max_left _ _
    · exact le_refl _
  case queues =>
    rw [hnum, if_pos rfl]
    exact lt_max_of_lt_right (Nat.lt_succ_self _)

/-- The three ways `airoha_tc_htb_alloc_leaf_queue` ends. -/
theorem allocLeafQueue_cases (ht : HasTick (s.meters (hw.qdma d)).cfg) (opt : TcHtbQopt) :
    (s.mapBit (hw.qdma d) (tcHMin opt.classid % airohaNumQosChannels) = true ∧
      airohaTcHtbAllocLeafQueue hw d opt s = (.error (-16), s)) ∨
    (opt.parentClassid ≠ tcHtbClassidRoot ∧
      airohaTcHtbAllocLeafQueue hw d opt s = (.error (-22), s)) ∨
    (s.mapBit (hw.qdma d) (tcHMin opt.classid % airohaNumQosChannels) = false ∧
      opt.parentClassid = tcHtbClassidRoot ∧
      ∃ s', airohaTcHtbAllocLeafQueue hw d opt s =
          (.ok (airohaNumTxRing + tcHMin opt.classid % airohaNumQosChannels), s') ∧
        Allocated hw d (tcHMin opt.classid % airohaNumQosChannels)
          (tcHMin opt.classid % airohaMaxNumChannels) opt.kbps s s') := by
  let ch := tcHMin opt.classid % airohaNumQosChannels
  have hch : ch < 64 := lt_trans (Nat.mod_lt _ (by decide)) (by decide)
  cases hbit : s.mapBit (hw.qdma d) ch with
  | true =>
    left
    rw [HtbState.mapBit] at hbit
    simp [airohaTcHtbAllocLeafQueue, ch, hbit]
  | false =>
    right
    have hbit' := hbit
    rw [HtbState.mapBit] at hbit'
    let s1 := putChannel hw d ch true s
    by_cases hroot : opt.parentClassid = tcHtbClassidRoot
    · right
      have ht1 : HasTick (s1.meters (hw.qdma d)).cfg := by
        rw [meters_putChannel]
        exact ht
      obtain ⟨s2, heq, h2⟩ := setDevRateLimit_set ht1 (tcHMin opt.classid % airohaMaxNumChannels)
        opt.kbps opt.quantum
      have hmodify : airohaTcHtbModifyQueue hw d opt s1 = (0, s2) := by
        simp [airohaTcHtbModifyQueue, hroot, heq]
      refine ⟨rfl, hroot, _, ?_, allocated_of_rateSet hch h2⟩
      simp only [airohaTcHtbAllocLeafQueue, ch, hbit', s1] at hmodify ⊢
      rw [hmodify]
      rfl
    · left
      have hmodify : airohaTcHtbModifyQueue hw d opt s1 = (-22, s1) := by
        simp [airohaTcHtbModifyQueue, hroot]
      refine ⟨hroot, ?_⟩
      have hundo : putChannel hw d ch false s1 = s := putChannel_undo hch hbit
      simp [airohaTcHtbAllocLeafQueue, hbit', hmodify, hundo, ch, s1]

end Cmds

end Airoha.Qdma
