/-
Airoha.Qdma.Lan — the egress meters of the LAN engine, and the bucket of a meter.

Translates the `qdmalan_` functions of `arht_qdma.c`, which program the meters
of the first QDMA, and `arht_set_bucket_size`, which the second one uses for
its own. A bucket is a shift of a unit, 1024 bytes or 16 packets, found by
`biSearchGetBucketSizeShift`: `biSearch_least` says that it is the least that
holds the size. Which unit is asked with `TRTCM_PKT_MODE == ((cfg & TRTCM_PKT_MODE) >> 1)`,
where `TRTCM_PKT_MODE` is bit 1 and the right side 0 or 1: `bucketRight_iff`.
-/
import Airoha.Qdma.Meter
import Airoha.Qdma.Shaper

namespace Airoha.Qdma

open Airoha.Lib

/-! ## The functions -/

/-- `MIN_TOKEN_SIZE` -/
def minTokenSize : Nat := 4096
/-- `MAX_TOKEN_SIZE_OFFSET` -/
def maxTokenSizeOffset : Nat := 17

/-- `GENERAL_TrtcmModuleType_T`, the ones `qdma_init_trtcm` sets up. -/
inductive TrtcmModule where
  | ingress
  | sla
  | egress
  | glbRatectl
deriving DecidableEq, Repr

/-- `trtcmBucketByteUnit` -/
def trtcmBucketByteUnit : TrtcmModule → Nat
  | .ingress | .sla | .egress => 1024
  | .glbRatectl => 256

/-- `trtcmBucketPacketUnit` -/
def trtcmBucketPacketUnit : TrtcmModule → Nat
  | .ingress | .sla | .egress => 16
  | .glbRatectl => 256

/-- `airoha_generalGetTrtcmPktMode` and `generalGetRatelimitPktMode`, of the misc parameter. -/
def generalGetPktMode (misc : BitVec 32) : BitVec 32 := (misc &&& trtcmPktMode) >>> 1

/-- `bucketUnit` of `airoha_generalSetTrtcmBucketSize` and `generalSetRatelimitBucketSize`. -/
def generalBucketUnit (type : TrtcmModule) (misc : BitVec 32) : Nat :=
  -- `TRTCM_BYTE_MODE`
  if 0#32 = generalGetPktMode misc then trtcmBucketByteUnit type else trtcmBucketPacketUnit type

/-- `bucket_unit` of `arht_set_bucket_size` and `qdmalan_airoha_qdma_set_trtcm_token_bucket`. -/
def egressBucketUnit (rlModeCfg : BitVec 32) : Nat :=
  if egressPktMode = (rlModeCfg &&& egressPktMode) >>> 1 then trtcmBucketPacketUnit .egress
  else trtcmBucketByteUnit .egress

/-- The shift both of them find for a size: a `u32`, cut to `MAX_TOKEN_SIZE_OFFSET`. -/
def egressBucketShift (rlModeCfg bucketSize : BitVec 32) : Nat :=
  let val := max bucketSize.toNat minTokenSize
  let shift := biSearchGetBucketSizeShift val (egressBucketUnit rlModeCfg) 18 0 17
  min (BitVec.ofInt 32 shift).toNat maxTokenSizeOffset

/-- `arht_set_bucket_size`; the configuration word is none where it is not read in time. -/
def arhtSetBucketSize (rlModeCfg : Option (BitVec 32)) (bucketSize : BitVec 32) : Nat :=
  match rlModeCfg with
  | none => min (Nat.log2 (max bucketSize.toNat minTokenSize)) maxTokenSizeOffset
  | some rlModeCfg => egressBucketShift rlModeCfg bucketSize

/-- `qdmalan_airoha_qdma_set_trtcm_config` -/
def qdmalanAirohaQdmaSetTrtcmConfig (m : EgressMeters) (channel : Nat) (mode : TrtcmMode)
    (enable : Bool) (enableMask : BitVec 32) : EgressMeters :=
  let val := m.para .miscMode channel mode
  m.put .miscMode channel mode (if enable then val ||| enableMask else val &&& ~~~enableMask)

/-- `qdmalan_airoha_qdma_set_trtcm_token_bucket` -/
def qdmalanAirohaQdmaSetTrtcmTokenBucket (m : EgressMeters) (channel : Nat) (mode : TrtcmMode)
    (rateVal bucketSize : BitVec 32) : Int × EgressMeters :=
  let config := m.para .miscMode channel mode
  match trtcmUnit m.cfg config with
  | none => (-22, m)
  | some unit =>
      let m := m.put .tokenRateMode channel mode (egressTokenRate unit rateVal)
      let rlModeCfg := m.para .miscMode channel mode
      (0, m.put .bucketsizeShiftMode channel mode
        (BitVec.ofNat 32 (egressBucketShift rlModeCfg bucketSize)))

/-- `tick` of `qdma_set_qdmalan_tx_ratelimit` -/
def qdmalanTick (cfg : BitVec 32) : Nat :=
  let tick := (fieldGet 0 16 cfg).toNat
  let tick := if tick ≠ 0 then tick * (fieldGet 16 14 cfg).toNat else tick
  if tick = 0 then 1 else tick

/-- Its `unit`. -/
def qdmalanUnit (cfg : BitVec 32) : Nat :=
  let unit := 8000 / qdmalanTick cfg
  if unit = 0 then 1 else unit

/-- Its `bucket_size`. -/
def qdmalanBucketSize (cfg : BitVec 32) (rate : Nat) : Nat :=
  if 5000000 ≤ rate then 4096000
  else min (max (rate / qdmalanUnit cfg + 1) 4096) 4096000

/-- One round of `qdma_set_qdmalan_tx_ratelimit`. -/
def qdmalanRound (m : EgressMeters) (channel : Nat) (mode : TrtcmMode)
    (rate bucketSize : BitVec 32) :
    Int × EgressMeters :=
  let m := qdmalanAirohaQdmaSetTrtcmConfig m channel mode (rate ≠ 0#32) egressMeterMode
  qdmalanAirohaQdmaSetTrtcmTokenBucket m channel mode rate bucketSize

/-- `qdma_set_qdmalan_tx_ratelimit`, of a rate that is not negative. -/
def qdmaSetQdmalanTxRatelimit (m : EgressMeters) (channel : Nat) (rate : BitVec 32) :
    Int × EgressMeters :=
  let bucketSize := BitVec.ofNat 32 (qdmalanBucketSize m.cfg rate.toNat)
  let r := qdmalanRound m channel .commit rate bucketSize
  if r.1 ≠ 0 then r else qdmalanRound r.2 channel .peak rate bucketSize

/-! ## The search -/

/-- `s` is the least shift up to `hi` whose bucket holds `value`, and `hi` where there is none. -/
structure IsBucketShift (unit value hi s : Nat) : Prop where
  le : s ≤ hi
  below : ∀ j < s, unit <<< j < value
  holds : value ≤ unit <<< s ∨ s = hi

theorem shiftLeft_lt {unit j k : Nat} (hu : 0 < unit) (h : j < k) : unit <<< j < unit <<< k := by
  rw [Nat.shiftLeft_eq, Nat.shiftLeft_eq]
  exact Nat.mul_lt_mul_of_pos_left (Nat.pow_lt_pow_right (by decide) h) hu

/-- The search between two shifts, the lower of which is not above the value. -/
theorem biSearch_between {unit value : Nat} (hu : 0 < unit) (hv : unit ≤ value) :
    ∀ {fuel lo hi : Nat}, lo < hi → hi - lo ≤ fuel → unit <<< lo ≤ value →
      ∃ s : Nat, biSearchGetBucketSizeShift value unit fuel lo hi = s ∧
        IsBucketShift unit value hi s := by
  intro fuel
  induction fuel with
  | zero => intro lo hi hlt hfuel; omega
  | succ fuel ih =>
    intro lo hi hlt hfuel hlo
    have hord : ¬ hi < lo := by omega
    have hsmall : ¬ (0 < value ∧ value < unit) := by omega
    have below : ∀ {s : Nat}, unit <<< s ≤ value → ∀ j < s, unit <<< j < value := by
      intro s hs j hj
      exact lt_of_lt_of_le (shiftLeft_lt hu hj) hs
    rw [biSearchGetBucketSizeShift, if_neg hord, if_neg hsmall]
    simp only
    obtain ⟨mid, hmid⟩ : ∃ mid, (lo + hi) / 2 = mid := ⟨_, rfl⟩
    rw [hmid]
    by_cases hm : unit <<< mid = value
    · rw [if_pos hm]
      exact ⟨mid, rfl, by omega, below (Nat.le_of_eq hm), Or.inl (Nat.le_of_eq hm.symm)⟩
    · rw [if_neg hm]
      by_cases hl : unit <<< lo = value
      · rw [if_pos hl]
        exact ⟨lo, rfl, by omega, below (Nat.le_of_eq hl), Or.inl (Nat.le_of_eq hl.symm)⟩
      · rw [if_neg hl]
        by_cases hh : unit <<< hi = value
        · rw [if_pos hh]
          exact ⟨hi, rfl, Nat.le_refl hi, below (Nat.le_of_eq hh), Or.inr rfl⟩
        · rw [if_neg hh]
          by_cases hlt' : value < unit <<< mid
          · rw [if_pos hlt']
            have hne : mid ≠ lo := by
              rintro rfl
              omega
            by_cases hnear : mid - lo ≤ 1
            · rw [if_pos hnear]
              have hprev : ∀ j < mid, unit <<< j < value := by
                intro j hj
                have hjl : j = lo ∨ j < lo := by omega
                rcases hjl with rfl | hjl
                · omega
                · exact below hlo j hjl
              exact ⟨mid, rfl, by omega, hprev, Or.inl (Nat.le_of_lt hlt')⟩
            · rw [if_neg hnear]
              obtain ⟨s, hs, hshift⟩ := @ih lo mid (by omega) (by omega) hlo
              refine ⟨s, hs, by have := hshift.le; omega, hshift.below, ?_⟩
              rcases hshift.holds with h | rfl
              · exact Or.inl h
              · exact Or.inl (Nat.le_of_lt hlt')
          · rw [if_neg hlt']
            have hmv : unit <<< mid < value := by omega
            by_cases hnear : hi - mid ≤ 1
            · rw [if_pos hnear]
              have hprev : ∀ j < hi, unit <<< j < value := by
                intro j hj
                have hjm : j = mid ∨ j < mid := by omega
                rcases hjm with rfl | hjm
                · exact hmv
                · exact below (Nat.le_of_lt hmv) j hjm
              exact ⟨hi, rfl, Nat.le_refl hi, hprev, Or.inr rfl⟩
            · rw [if_neg hnear]
              exact ih (by omega) (by omega) (Nat.le_of_lt hmv)

/-- The search over all shifts finds the least that holds a value of at least one unit. -/
theorem biSearch_least {unit value : Nat} (hu : 0 < unit) (hv : unit ≤ value) :
    ∃ s : Nat, biSearchGetBucketSizeShift value unit 18 0 17 = s ∧ IsBucketShift unit value 17 s :=
  biSearch_between hu hv (by decide) (by decide) (by simpa using hv)

/-! ## The unit -/

/-- The shift that is asked of a meter for a size. -/
def RightShift (cfg bucketSize : BitVec 32) (shift : Nat) : Prop :=
  IsBucketShift
    (if cfg &&& egressPktMode = 0#32 then trtcmBucketByteUnit .egress
      else trtcmBucketPacketUnit .egress)
    (max bucketSize.toNat minTokenSize) maxTokenSizeOffset shift

/-- What is asked of the two functions for a meter with its configuration word. -/
structure BucketRight (m : EgressMeters) (channel : Nat) (mode : TrtcmMode)
    (rateVal bucketSize : BitVec 32) : Prop where
  arht : RightShift (m.para .miscMode channel mode) bucketSize
    (arhtSetBucketSize (some (m.para .miscMode channel mode)) bucketSize)
  lan : (qdmalanAirohaQdmaSetTrtcmTokenBucket m channel mode rateVal bucketSize).1 = 0 →
    RightShift (m.para .miscMode channel mode) bucketSize
      ((qdmalanAirohaQdmaSetTrtcmTokenBucket m channel mode rateVal bucketSize).2.para
        .bucketsizeShiftMode channel mode).toNat
  unit : egressBucketUnit (m.para .miscMode channel mode) =
    generalBucketUnit .egress (m.para .miscMode channel mode)

/-- A bit shifted down to the lowest place is not bit 1. -/
theorem egressBucketUnit_eq (cfg : BitVec 32) : egressBucketUnit cfg = 1024 := by
  have hne : egressPktMode ≠ (cfg &&& egressPktMode) >>> 1 := by
    intro h
    have hb := congrArg (fun x => x.getLsbD 1) h
    simp [egressPktMode, bit] at hb
  rw [egressBucketUnit, if_neg hne, trtcmBucketByteUnit]

theorem generalBucketUnit_eq (type : TrtcmModule) (misc : BitVec 32) :
    generalBucketUnit type misc =
      if misc &&& trtcmPktMode = 0#32 then trtcmBucketByteUnit type
      else trtcmBucketPacketUnit type := by
  have hshift : 0#32 = generalGetPktMode misc ↔ misc &&& trtcmPktMode = 0#32 := by
    rw [generalGetPktMode]
    constructor
    · intro h
      have hb := congrArg (fun x => x.getLsbD 0) h
      simp only [BitVec.getLsbD_ushiftRight, BitVec.getLsbD_and, BitVec.getLsbD_zero, trtcmPktMode,
        getLsbD_bit] at hb
      rw [trtcmPktMode, and_bit_eq_zero_iff]
      simpa using hb.symm
    · intro h
      rw [h]
      rfl
  rw [generalBucketUnit]
  simp only [hshift]

/-- The shift found is the least for the unit of bytes, whatever the mode. -/
theorem egressBucketShift_bytes (cfg bucketSize : BitVec 32) :
    IsBucketShift 1024 (max bucketSize.toNat minTokenSize) 17
      (egressBucketShift cfg bucketSize) := by
  have hv : 1024 ≤ max bucketSize.toNat minTokenSize :=
    le_trans (by decide : 1024 ≤ minTokenSize) (le_max_right _ _)
  obtain ⟨s, hs, hshift⟩ := biSearch_least (by decide : 0 < 1024) hv
  have hle := hshift.le
  have hcut : egressBucketShift cfg bucketSize = s := by
    rw [egressBucketShift, egressBucketUnit_eq, hs, BitVec.ofInt_natCast, BitVec.toNat_ofNat,
      maxTokenSizeOffset]
    omega
  rw [hcut]
  exact hshift

/-- What the token-bucket function stores, when it succeeds. -/
theorem lan_bucketShift {m : EgressMeters} {channel : Nat} {mode : TrtcmMode}
    {rateVal bucketSize : BitVec 32}
    (h : (qdmalanAirohaQdmaSetTrtcmTokenBucket m channel mode rateVal bucketSize).1 = 0) :
    ((qdmalanAirohaQdmaSetTrtcmTokenBucket m channel mode rateVal bucketSize).2.para
      .bucketsizeShiftMode channel mode).toNat =
      egressBucketShift (m.para .miscMode channel mode) bucketSize := by
  have hle := (egressBucketShift_bytes (m.para .miscMode channel mode) bucketSize).le
  unfold qdmalanAirohaQdmaSetTrtcmTokenBucket at h ⊢
  simp only at h ⊢
  cases hu : trtcmUnit m.cfg (m.para .miscMode channel mode) with
  | none =>
    simp [hu] at h
  | some unit =>
    simp [EgressMeters.put]
    omega

theorem shiftLeft_le {unit j k : Nat} (hu : 0 < unit) (h : j ≤ k) : unit <<< j ≤ unit <<< k := by
  rcases Nat.eq_or_lt_of_le h with rfl | hlt
  · exact Nat.le_refl _
  · exact Nat.le_of_lt (shiftLeft_lt hu hlt)

/-- The least shift for bytes is the one for packets only where it is the last. -/
theorem packetShift_iff {size s : Nat} (hs : IsBucketShift 1024 (max size minTokenSize) 17 s) :
    IsBucketShift 16 (max size minTokenSize) 17 s ↔ 1024 <<< 16 < size := by
  constructor
  · intro hp
    by_contra hsmall
    have hmax : max size minTokenSize ≤ 1024 <<< 16 := max_le (by omega) (by decide)
    have hne : s ≠ 17 := by
      rintro rfl
      have hb := hs.below 16 (by decide)
      omega
    have hlow := hp.holds.resolve_right hne
    have h8 : 8 ≤ s := by
      by_contra hlt
      have h7 : 16 <<< s ≤ 16 <<< 7 := shiftLeft_le (by decide) (by omega)
      have h4096 : minTokenSize ≤ 16 <<< s := le_trans (le_max_right _ _) hlow
      rw [minTokenSize] at h4096
      omega
    -- six shifts of sixteen make 1024
    have hsix : 16 <<< s = 1024 <<< (s - 6) := by
      have hsum : 6 + (s - 6) = s := by omega
      calc 16 <<< s = 16 <<< (6 + (s - 6)) := by rw [hsum]
        _ = (16 <<< 6) <<< (s - 6) := Nat.shiftLeft_add 16 6 (s - 6)
        _ = 1024 <<< (s - 6) := rfl
    have hb := hs.below (s - 6) (by omega)
    omega
  · intro hbig
    have hmax : 1024 <<< 16 < max size minTokenSize := lt_of_lt_of_le hbig (le_max_left _ _)
    have hlast : s = 17 := by
      by_contra hne
      have hlow := hs.holds.resolve_right hne
      have h16 : 1024 <<< s ≤ 1024 <<< 16 :=
        shiftLeft_le (by decide) (by have := hs.le; omega)
      omega
    have hbelow : ∀ j < s, 16 <<< j < max size minTokenSize := by
      intro j hj
      have h16 : 16 <<< j ≤ 16 <<< 16 := shiftLeft_le (by decide) (by omega)
      omega
    exact ⟨hs.le, hbelow, Or.inr hlast⟩

theorem rightShift_iff (cfg bucketSize : BitVec 32) :
    RightShift cfg bucketSize (egressBucketShift cfg bucketSize) ↔
      cfg &&& egressPktMode = 0#32 ∨ 1024 <<< 16 < bucketSize.toNat := by
  have hbytes := egressBucketShift_bytes cfg bucketSize
  unfold RightShift
  by_cases hb : cfg &&& egressPktMode = 0#32
  · rw [if_pos hb]
    exact iff_of_true hbytes (Or.inl hb)
  · rw [if_neg hb]
    exact (packetShift_iff hbytes).trans (by simp [hb])

/-- The units are the same exactly where the mode is bytes, and then the shifts are right; in packet
mode only the last shift is. -/
theorem bucketRight_iff (m : EgressMeters) (channel : Nat) (mode : TrtcmMode)
    (rateVal bucketSize : BitVec 32) :
    (BucketRight m channel mode rateVal bucketSize ↔
      m.para .miscMode channel mode &&& egressPktMode = 0#32) ∧
    (RightShift (m.para .miscMode channel mode) bucketSize
        (arhtSetBucketSize (some (m.para .miscMode channel mode)) bucketSize) ↔
      m.para .miscMode channel mode &&& egressPktMode = 0#32 ∨ 1024 <<< 16 < bucketSize.toNat) := by
  have hbit : trtcmPktMode = egressPktMode := rfl
  refine ⟨⟨?_, ?_⟩, rightShift_iff _ _⟩
  · intro h
    have hunit := h.unit
    rw [egressBucketUnit_eq, generalBucketUnit_eq, hbit] at hunit
    by_contra hne
    rw [if_neg hne] at hunit
    exact absurd hunit (by decide)
  · intro hb
    have hright := (rightShift_iff _ bucketSize).mpr (Or.inl hb)
    constructor
    · exact hright
    · intro h0
      rw [lan_bucketShift h0]
      exact hright
    · rw [egressBucketUnit_eq, generalBucketUnit_eq, hbit, if_pos hb]
      rfl

/-- Meters in packet mode at a tick of 25 us. -/
def packetMeters : EgressMeters where
  cfg := 25#32
  para := fun _ _ _ => egressPktMode

theorem not_bucketRight_packetMeters :
    ¬ BucketRight packetMeters 0 .commit 1000#32 4096#32 := by
  intro h
  have hholds := h.arht.holds
  revert hholds
  decide

end Airoha.Qdma
