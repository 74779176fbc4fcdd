/-
Airoha.Clk.SetRate — a rate that can be set is the rate read back.

What is written are two fields, either of which may be missing: `setRate_eq`.
Read back they are the selections of the search (`recalc_written`), and what
lies outside them stays, other clocks of the register included. So the whole of
`SetReadsBack` comes down to whether the search covers the selections, which
`setReadsBack_iff` puts as a condition on the descriptor. The clocks of AN7583
that share a register meet it.
-/
import Airoha.Clk.Search
import Airoha.Lib.Masked

namespace Airoha.Clk

open Airoha.Lib

variable {desc : EnClkDesc}

/-! ## The write -/

/-- `regmap_update_bits` of a field that has bits. -/
def writeField (f : Nat × Nat × Nat) (v : BitVec 32) (r : Regs) : Regs :=
  if f.2.2 ≠ 0 then updateBits f.1 (mask 32 f.2.1 f.2.2) (v <<< f.2.1) r else r

variable {f g : Nat × Nat × Nat} {r : Regs}

theorem field_writeField_self (hword : f.2.1 + f.2.2 ≤ 32) (hbits : f.2.2 ≠ 0) {k : Nat}
    (hk : k < 2 ^ f.2.2) :
    (Regs.field (writeField f (BitVec.ofNat 32 k) r) f.1 f.2.1 f.2.2).toNat = k := by
  have hle : 2 ^ f.2.2 ≤ 2 ^ 32 := Nat.pow_le_pow_right (by decide) (by omega)
  have hcut : fieldGet f.2.1 f.2.2 (BitVec.ofNat 32 k <<< f.2.1) = BitVec.ofNat 32 k := by
    rw [← fieldGet_and_mask]
    exact (fieldGet_fieldPrep_self hword _).trans (ofNat_and_mask hk)
  rw [writeField, if_pos hbits, field_updateBits_self, hcut, BitVec.toNat_ofNat,
    Nat.mod_eq_of_lt (by omega)]

theorem field_writeField_of_apart (v : BitVec 32) (h : f.2.2 ≠ 0 → Apart f g) :
    Regs.field (writeField f v r) g.1 g.2.1 g.2.2 = Regs.field r g.1 g.2.1 g.2.2 := by
  unfold writeField
  split
  · rename_i hbits
    refine field_updateBits_of_ne ?_
    rcases h hbits with hne | hle | hle
    · exact .inl hne.symm
    · exact .inr (.inr hle)
    · exact .inr (.inl hle)
  · rfl

theorem getLsbD_writeField_of_out (v : BitVec 32) {addr i : Nat}
    (h : f.2.2 ≠ 0 → f.1 = addr → ¬ (f.2.1 ≤ i ∧ i < f.2.1 + f.2.2)) :
    (writeField f v r addr).getLsbD i = (r addr).getLsbD i := by
  unfold writeField
  split
  · rename_i hbits
    refine (Masked.getLsbD_apply r ⟨f.1, mask 32 f.2.1 f.2.2, v <<< f.2.1⟩ addr i).trans ?_
    refine if_neg ?_
    rintro ⟨haddr, hmask⟩
    rw [getLsbD_mask] at hmask
    refine h hbits haddr ?_
    simp only [Bool.and_eq_true, decide_eq_true_eq] at hmask
    omega
  · rfl

/-- Where the base is selected, -/
def EnClkDesc.baseField (desc : EnClkDesc) : Nat × Nat × Nat :=
  (desc.baseReg, desc.baseShift, desc.baseBits)

/-- and where the divider. -/
def EnClkDesc.divField (desc : EnClkDesc) : Nat × Nat × Nat :=
  (desc.divRegister, desc.divShift, desc.divBits)

theorem baseField_mem (h : desc.baseBits ≠ 0) : desc.baseField ∈ desc.fields :=
  List.mem_append_left _ (by rw [if_pos h]; exact List.mem_cons_self)

theorem divField_mem (h : desc.divBits ≠ 0) : desc.divField ∈ desc.fields :=
  List.mem_append_right _ (by rw [if_pos h]; exact List.mem_cons_self)

theorem setDiv_noError (divVal : BitVec 32) (r : Regs) :
    setDiv noError desc divVal r = (writeField desc.divField divVal r, 0) := by
  by_cases hbits : desc.divBits ≠ 0
  · exact (if_pos hbits).trans (congrArg (·, (0 : Int)) (if_pos hbits).symm)
  · exact (if_neg hbits).trans (congrArg (·, (0 : Int)) (if_neg hbits).symm)

theorem setBase_noError (baseVal : BitVec 32) (r : Regs) :
    setBase noError desc baseVal r = (writeField desc.baseField baseVal r, 0) := by
  by_cases hbits : desc.baseBits ≠ 0
  · exact (if_pos hbits).trans (congrArg (·, (0 : Int)) (if_pos hbits).symm)
  · exact (if_neg hbits).trans (congrArg (·, (0 : Int)) (if_neg hbits).symm)

/-- What `en75xx_set_rate` does when no access fails. -/
theorem setRate_eq (rate : BitVec 64) (r : Regs) :
    en75xxSetRate noError desc rate r = match en75xxGetValsForRate desc rate with
      | none => (r, -einval)
      | some (baseVal, divVal) =>
        (writeField desc.baseField baseVal (writeField desc.divField divVal r), 0) := by
  unfold en75xxSetRate
  cases en75xxGetValsForRate desc rate with
  | none => rfl
  | some vals =>
    obtain ⟨baseVal, divVal⟩ := vals
    simp only [setDiv_noError, setBase_noError, ne_eq, not_true_eq_false, if_false]

/-- The fields of other clocks stay, whatever the rate. -/
theorem field_setRate_of_apart (rate : BitVec 64) (r : Regs) (h : ∀ f ∈ desc.fields, Apart f g) :
    Regs.field (en75xxSetRate noError desc rate r).1 g.1 g.2.1 g.2.2 =
      Regs.field r g.1 g.2.1 g.2.2 := by
  rw [setRate_eq]
  split
  · rfl
  · exact (field_writeField_of_apart _ fun hb => h _ (baseField_mem hb)).trans
      (field_writeField_of_apart _ fun hd => h _ (divField_mem hd))

theorem getLsbD_setRate_of_out (rate : BitVec 64) (r : Regs) {addr i : Nat}
    (h : ∀ f ∈ desc.fields, f.1 = addr → ¬ (f.2.1 ≤ i ∧ i < f.2.1 + f.2.2)) :
    ((en75xxSetRate noError desc rate r).1 addr).getLsbD i = (r addr).getLsbD i := by
  rw [setRate_eq]
  split
  · rfl
  · exact (getLsbD_writeField_of_out _ fun hb => h _ (baseField_mem hb)).trans
      (getLsbD_writeField_of_out _ fun hd => h _ (divField_mem hd))

/-! ## The rate read back -/

theorem Decoders.getBaseRate_eq (dec : Decoders desc) {b : Nat} {base val : BitVec 32}
    (hbase : Base desc b base)
    (hfield : desc.baseBits ≠ 0 → (fieldGet desc.baseShift desc.baseBits val).toNat = b) :
    dec.getBaseRate val = base := by
  unfold Base at hbase
  by_cases hbits : desc.baseBits = 0
  · rw [if_pos hbits] at hbase
    rw [dec.base_of_fixed hbits, hbase.2]
  · rw [if_neg hbits] at hbase
    obtain rfl := hfield hbits
    obtain ⟨hlt, hget⟩ := List.getElem?_eq_some_iff.mp hbase
    rw [dec.base_of_index hbits val hlt, hget]

theorem Decoders.getDiv_eq (dec : Decoders desc) {v : Nat} {div val : BitVec 32}
    (hdiv : Divider desc v div)
    (hfield : desc.divBits ≠ 0 → (fieldGet desc.divShift desc.divBits val).toNat = v) :
    dec.getDiv val = div := by
  unfold Divider at hdiv
  by_cases hbits : desc.divBits = 0
  · rw [if_pos hbits] at hdiv
    rw [dec.div_of_none hbits, hdiv.2]
  · rw [if_neg hbits] at hdiv
    rw [dec.div_of_field hbits, hfield hbits, hdiv.2]

theorem recalc_noError (dec : Decoders desc) (r : Regs) : en75xxRecalcRate noError dec r =
    (dec.getBaseRate (r desc.baseReg) / dec.getDiv (r desc.divRegister)).setWidth 64 := rfl

/-- The rate of a clock depends on its fields only. -/
theorem recalc_congr (dec : Decoders desc) {r r' : Regs}
    (h : ∀ g ∈ desc.fields, Regs.field r g.1 g.2.1 g.2.2 = Regs.field r' g.1 g.2.1 g.2.2) :
    en75xxRecalcRate noError dec r = en75xxRecalcRate noError dec r' := by
  have hbase : dec.getBaseRate (r desc.baseReg) = dec.getBaseRate (r' desc.baseReg) := by
    by_cases hbits : desc.baseBits = 0
    · rw [dec.base_of_fixed hbits, dec.base_of_fixed hbits]
    · exact dec.base_congr _ _ (h _ (baseField_mem hbits))
  have hdiv : dec.getDiv (r desc.divRegister) = dec.getDiv (r' desc.divRegister) := by
    by_cases hbits : desc.divBits = 0
    · rw [dec.div_of_none hbits, dec.div_of_none hbits]
    · have hfield : fieldGet desc.divShift desc.divBits (r desc.divRegister) =
          fieldGet desc.divShift desc.divBits (r' desc.divRegister) := h _ (divField_mem hbits)
      rw [dec.div_of_field hbits, dec.div_of_field hbits, hfield]
  rw [recalc_noError, recalc_noError, hbase, hdiv]

/-- The selections that are written are read back. -/
theorem recalc_written (h : Valid desc) (dec : Decoders desc) {rate : BitVec 64} {b v : Nat}
    (hgives : Gives desc rate b v) (r : Regs) :
    en75xxRecalcRate noError dec (writeField desc.baseField (BitVec.ofNat 32 b)
      (writeField desc.divField (BitVec.ofNat 32 v) r)) = rate := by
  obtain ⟨base, div, hbase, hdiv, hrate⟩ := hgives
  rw [recalc_noError, hrate]
  congr 2
  · refine dec.getBaseRate_eq hbase fun hbits => ?_
    have hlt : b < 2 ^ desc.baseBits := by
      rw [Base, if_neg hbits] at hbase
      obtain ⟨hlt, -⟩ := List.getElem?_eq_some_iff.mp hbase
      exact Nat.lt_of_lt_of_le hlt (h.fits hbits)
    exact field_writeField_self (h.inWord _ (baseField_mem hbits)) hbits hlt
  · refine dec.getDiv_eq hdiv fun hbits => ?_
    have hlt : v < 2 ^ desc.divBits := by
      rw [Divider, if_neg hbits] at hdiv
      exact hdiv.1
    refine Eq.trans ?_ (field_writeField_self (r := r) (h.inWord _ (divField_mem hbits)) hbits hlt)
    exact congrArg BitVec.toNat (field_writeField_of_apart (g := desc.divField) _ fun hb =>
      h.disjoint hb hbits)

/-! ## Accepted rates -/

theorem accepted_iff (rate : BitVec 64) :
    0 ≤ en75xxRoundRate desc rate ↔
      en75xxGetValsForRate desc rate ≠ none ∧ (0 : Int) ≤ rate.toInt := by
  unfold en75xxRoundRate
  cases en75xxGetValsForRate desc rate with
  | none => exact ⟨fun hle => absurd hle (not_le.mpr neg_einval), fun hne => absurd rfl hne.1⟩
  | some vals => exact ⟨fun hle => ⟨Option.some_ne_none vals, hle⟩, fun hle => hle.2⟩

/-- What a clock gives is a 32-bit rate. -/
theorem Gives.toInt_eq {rate : BitVec 64} {b v : Nat} (h : Gives desc rate b v) :
    rate.toInt = rate.toNat := by
  obtain ⟨base, div, -, -, hrate⟩ := h
  have hlt : rate.toNat < 2 ^ 32 := by
    rw [hrate, BitVec.toNat_setWidth, Nat.mod_eq_of_lt (by omega)]
    exact (base / div).isLt
  exact BitVec.toInt_eq_toNat_of_lt (by omega)

/-- The search covers the selections: the divider variable does not wrap, and neither does the
index of some base for each rate. -/
def Suits (desc : EnClkDesc) : Prop :=
  desc.divBits ≤ 30 ∧
    ∀ rate b v, Gives desc rate b v → ∃ b' v', b' < 2 ^ 31 ∧ Gives desc rate b' v'

/-- Up to 30 bits an accepted rate is one that some selection gives, and that selection is
written. -/
theorem getVals_of_accepted (hbits : desc.divBits ≤ 30) {rate : BitVec 64}
    (h : 0 ≤ en75xxRoundRate desc rate) : ∃ b v : Nat, en75xxGetValsForRate desc rate =
      some (BitVec.ofInt 32 b, BitVec.ofNat 32 v) ∧ (b < 2 ^ 31 ∧ Gives desc rate b v) ∧
        HasSelector desc := by
  rcases getVals_spec hbits rate with hsome | ⟨hnone, -⟩
  · exact hsome
  · exact absurd hnone ((accepted_iff rate).mp h).1

theorem accepted_iff_gives (h : Suits desc) (rate : BitVec 64) :
    0 ≤ en75xxRoundRate desc rate ↔ (∃ b v, Gives desc rate b v) ∧ HasSelector desc := by
  constructor
  · intro hacc
    obtain ⟨b, v, -, ⟨-, hgives⟩, hsel⟩ := getVals_of_accepted h.1 hacc
    exact ⟨⟨b, v, hgives⟩, hsel⟩
  · rintro ⟨⟨b, v, hgives⟩, hsel⟩
    rw [accepted_iff, hgives.toInt_eq]
    refine ⟨fun hnone => ?_, Int.natCast_nonneg _⟩
    obtain ⟨b', v', hb', hgives'⟩ := h.2 rate b v hgives
    rcases getVals_spec h.1 rate with ⟨_, _, hsome, -⟩ | ⟨-, hno⟩
    · rw [hnone] at hsome
      cases hsome
    · exact hno b' v' ⟨hb', hgives'⟩ hsel

/-- An accepted rate is set and read back. -/
theorem setRate_of_accepted (h : Valid desc) (hbits : desc.divBits ≤ 30) (dec : Decoders desc)
    {rate : BitVec 64} (hacc : 0 ≤ en75xxRoundRate desc rate) (r : Regs) :
    (en75xxSetRate noError desc rate r).2 = 0 ∧
      en75xxRecalcRate noError dec (en75xxSetRate noError desc rate r).1 = rate := by
  obtain ⟨b, v, hvals, ⟨-, hgives⟩, -⟩ := getVals_of_accepted hbits hacc
  rw [setRate_eq, hvals]
  refine ⟨rfl, ?_⟩
  have hcast : BitVec.ofInt 32 (b : Int) = BitVec.ofNat 32 b := BitVec.ofInt_natCast 32 b
  simp only [hcast]
  exact recalc_written h dec hgives r

/-- A rate that is refused is not written. -/
theorem setRate_of_refused {rate : BitVec 64} (hbits : desc.divBits ≤ 30)
    (hrej : ¬ 0 ≤ en75xxRoundRate desc rate) (r : Regs) :
    (en75xxSetRate noError desc rate r).2 < 0 ∧ (en75xxSetRate noError desc rate r).1 = r := by
  have hnone : en75xxGetValsForRate desc rate = none := by
    rcases getVals_spec hbits rate with ⟨b, v, hsome, ⟨-, hgives⟩, -⟩ | ⟨hnone, -⟩
    · refine absurd ((accepted_iff rate).mpr ⟨by rw [hsome]; exact Option.some_ne_none _, ?_⟩) hrej
      rw [hgives.toInt_eq]
      exact Int.natCast_nonneg _
    · exact hnone
  rw [setRate_eq, hnone]
  exact ⟨neg_einval, rfl⟩

/-- With 31 or 32 bits a rate above 32 bits is accepted. -/
theorem accepted_of_wide (h : Valid desc) (hwide : ¬ desc.divBits ≤ 30) :
    0 ≤ en75xxRoundRate desc (BitVec.ofNat 64 (2 ^ 32)) := by
  have hword := h.inWord _ (divField_mem (show desc.divBits ≠ 0 by omega))
  have hle : desc.divBits ≤ 32 := le_trans (Nat.le_add_left _ _) hword
  exact (accepted_iff _).mpr ⟨getVals_of_wide (by omega) hle _, by decide⟩

theorem not_gives_of_large (b v : Nat) : ¬ Gives desc (BitVec.ofNat 64 (2 ^ 32)) b v := by
  rintro ⟨base, div, -, -, hrate⟩
  have hlt := (base / div).isLt
  have hnat := congrArg BitVec.toNat hrate
  rw [BitVec.toNat_setWidth, Nat.mod_eq_of_lt (by omega)] at hnat
  have hval : (BitVec.ofNat 64 (2 ^ 32)).toNat = 2 ^ 32 := by decide
  omega

theorem setReadsBack_of_suits (h : Valid desc) (hsuits : Suits desc) (dec : Decoders desc) :
    SetReadsBack dec where
  accepts := accepted_iff_gives hsuits
  rounds := fun rate hacc => by
    obtain ⟨⟨b, v, hgives⟩, -⟩ := (accepted_iff_gives hsuits rate).mp hacc
    rw [← hgives.toInt_eq]
    unfold en75xxRoundRate at hacc ⊢
    split
    · rename_i hnone
      rw [hnone] at hacc
      exact absurd hacc (not_le.mpr neg_einval)
    · rfl
  sets := fun rate r hacc => (setRate_of_accepted h hsuits.1 dec hacc r).1
  readsBack := fun rate r hacc => (setRate_of_accepted h hsuits.1 dec hacc r).2
  refuses := fun rate r hrej => setRate_of_refused hsuits.1 hrej r
  outside := fun rate r addr i hout => getLsbD_setRate_of_out rate r hout
  others := fun rate r desc' dec' hapart => recalc_congr dec' fun g hg =>
    field_setRate_of_apart rate r fun f hf => hapart f hf g hg

theorem not_setReadsBack_of_wide (h : Valid desc) (hwide : ¬ desc.divBits ≤ 30)
    (dec : Decoders desc) : ¬ SetReadsBack dec := by
  intro hset
  obtain ⟨⟨b, v, hgives⟩, -⟩ := (hset.accepts _).mp (accepted_of_wide h hwide)
  exact not_gives_of_large b v hgives

/-- A table that the index does not run past suits. -/
theorem suits_of_short (hbits : desc.divBits ≤ 30)
    (hlen : desc.baseBits ≠ 0 → desc.baseValues.length ≤ 2 ^ 31) : Suits desc := by
  refine ⟨hbits, fun rate b v hgives => ⟨b, v, ?_, hgives⟩⟩
  obtain ⟨base, div, hbase, -⟩ := hgives
  by_cases hzero : desc.baseBits = 0
  · rw [Base, if_pos hzero] at hbase
    omega
  · rw [Base, if_neg hzero] at hbase
    obtain ⟨hlt, -⟩ := List.getElem?_eq_some_iff.mp hbase
    exact Nat.lt_of_lt_of_le hlt (hlen hzero)

/-! ## The clocks of one register -/

/-- `REG_CRYPTO_CLKSRC2` -/
def regCryptoClksrc2 : Nat := 0x20c

/-- A clock that selects one of two bases, with no divider. -/
def baseSelector (baseShift : Nat) (baseValues : List (BitVec 32)) : EnClkDesc where
  baseReg := regCryptoClksrc2
  baseBits := 1
  baseShift := baseShift
  baseValues := baseValues
  baseValue := 0#32
  divReg := 0
  divBits := 0
  divShift := 0
  divVal0 := 0#32
  divStep := 0#32
  divOffset := 0#32

/-- A clock with one base and a divider that shares its register. -/
def divSelector (divBits divShift : Nat) : EnClkDesc where
  baseReg := regCryptoClksrc2
  baseBits := 0
  baseShift := 0
  baseValues := []
  baseValue := 25000000#32
  divReg := 0
  divBits := divBits
  divShift := divShift
  divVal0 := 0#32
  divStep := 1#32
  divOffset := 1#32

/-- The entries of `an7583_base_clks` in that register: crypto, emmc, mdio0 and mdio1. -/
def an7583Clksrc2 : List EnClkDesc :=
  [baseSelector 0 [540672000#32, 400000000#32], baseSelector 13 [150000000#32, 200000000#32],
    divSelector 4 15, divSelector 4 19]

/-- `en7523_get_base_rate` and `en7523_get_div` as they decode any descriptor. An index with no
base is a rate of 0. -/
def fieldDecoders (desc : EnClkDesc) : Decoders desc where
  getBaseRate val := if desc.baseBits = 0 then desc.baseValue
    else desc.baseValues.getD (fieldGet desc.baseShift desc.baseBits val).toNat 0#32
  getDiv val := if desc.divBits = 0 then 1#32
    else desc.divOf (fieldGet desc.divShift desc.divBits val).toNat
  base_of_fixed h val := if_pos h
  base_of_index h val hlt := by rw [if_neg h, List.getD_eq_getElem _ _ hlt]
  base_congr val val' h := by rw [h]
  div_of_none h val := if_pos h
  div_of_field h val := if_neg h

theorem valid_baseSelector {s : Nat} (hs : s < 32) {values : List (BitVec 32)}
    (h : values.length ≤ 2) : Valid (baseSelector s values) where
  inWord f hf := by
    obtain rfl : f = (regCryptoClksrc2, s, 1) := List.mem_singleton.mp hf
    exact hs
  disjoint _ hdiv := absurd rfl hdiv
  fits _ := h
  nonzero hdiv := absurd rfl hdiv

theorem valid_divSelector {n s : Nat} (hn : n ≤ 31) (hs : s + n ≤ 32) :
    Valid (divSelector n s) where
  inWord f hf := by
    obtain ⟨-, rfl⟩ : n ≠ 0 ∧ f = (regCryptoClksrc2, s, n) := by
      simpa [EnClkDesc.fields, divSelector, EnClkDesc.divRegister] using hf
    exact hs
  disjoint hbase := absurd rfl hbase
  fits hbase := absurd rfl hbase
  nonzero _ v hv := by
    replace hv : v < 2 ^ n := hv
    have hle : 2 ^ n ≤ 2 ^ 31 := Nat.pow_le_pow_right (by decide) hn
    have hstep : (divSelector n s).divOf v = (BitVec.ofNat 32 v + 1#32) * 1#32 :=
      divOf_of_val0 (by decide : ¬ 0#32 ≠ 0#32) v
    rw [hstep, BitVec.mul_one]
    intro hzero
    have hnat := congrArg BitVec.toNat hzero
    rw [BitVec.toNat_add, BitVec.toNat_ofNat] at hnat
    have hone : (1#32).toNat = 1 := rfl
    have hnil : (0#32).toNat = 0 := rfl
    omega

/-! ## A clock is set as asked -/

/-- A clock is set as asked exactly when the search covers its selections. -/
theorem setReadsBack_iff (h : Valid desc) (dec : Decoders desc) :
    SetReadsBack dec ↔ Suits desc := by
  constructor
  · intro hset
    have hbits : desc.divBits ≤ 30 := by
      by_contra hwide
      exact not_setReadsBack_of_wide h hwide dec hset
    refine ⟨hbits, fun rate b v hgives => ?_⟩
    by_cases hb : b < 2 ^ 31
    · exact ⟨b, v, hb, hgives⟩
    -- a base that far up is one of several, so the clock has a selector and the rate is accepted
    · have hbase : desc.baseBits ≠ 0 := by
        intro hzero
        obtain ⟨base, div, hb', -⟩ := hgives
        rw [Base, if_pos hzero] at hb'
        omega
      have hacc := (hset.accepts rate).mpr ⟨⟨b, v, hgives⟩, .inl hbase⟩
      obtain ⟨b', v', -, ⟨hb', hgives'⟩, -⟩ := getVals_of_accepted hbits hacc
      exact ⟨b', v', hb', hgives'⟩
  · exact fun hsuits => setReadsBack_of_suits h hsuits dec

/-- `mdio0` of AN7583 -/
theorem setReadsBack_mdio0 : SetReadsBack (fieldDecoders (divSelector 4 15)) :=
  (setReadsBack_iff (valid_divSelector (by decide) (by decide)) _).mpr
    (suits_of_short (by decide : 4 ≤ 30) fun h => absurd rfl h)

/-- With a divider field of 31 bits a rate of 2^32 is accepted, which no selection gives. -/
theorem not_setReadsBack_wide :
    Valid (divSelector 31 0) ∧ ¬ SetReadsBack (fieldDecoders (divSelector 31 0)) :=
  have h := valid_divSelector (n := 31) (s := 0) (by decide) (by decide)
  ⟨h, not_setReadsBack_of_wide h (by decide : ¬ 31 ≤ 30) _⟩

/-! ## The clocks of AN7583 that share a register -/

theorem an7583Clksrc2_valid : ∀ desc ∈ an7583Clksrc2, Valid desc ∧ Suits desc := by
  intro desc hmem
  simp only [an7583Clksrc2, List.mem_cons, List.not_mem_nil, or_false] at hmem
  rcases hmem with rfl | rfl | rfl | rfl
  · exact ⟨valid_baseSelector (by decide) (by decide),
      suits_of_short (by decide : 0 ≤ 30) fun _ => (by decide : 2 ≤ 2 ^ 31)⟩
  · exact ⟨valid_baseSelector (by decide) (by decide),
      suits_of_short (by decide : 0 ≤ 30) fun _ => (by decide : 2 ≤ 2 ^ 31)⟩
  · exact ⟨valid_divSelector (by decide) (by decide),
      suits_of_short (by decide : 4 ≤ 30) fun h => absurd rfl h⟩
  · exact ⟨valid_divSelector (by decide) (by decide),
      suits_of_short (by decide : 4 ≤ 30) fun h => absurd rfl h⟩

theorem an7583Clksrc2_apart : an7583Clksrc2.Pairwise fun desc desc' =>
    ∀ f ∈ desc.fields, ∀ g ∈ desc'.fields, Apart f g := by
  unfold Apart
  decide

/-- Each of them is set as asked, and the rate of every other stays. -/
theorem an7583Clksrc2_keep {i j : Nat} {desc desc' : EnClkDesc} (hi : an7583Clksrc2[i]? = some desc)
    (hj : an7583Clksrc2[j]? = some desc') (hne : i ≠ j) (dec : Decoders desc)
    (dec' : Decoders desc') (rate : BitVec 64) (r : Regs) :
    SetReadsBack dec ∧ en75xxRecalcRate noError dec' (en75xxSetRate noError desc rate r).1 =
      en75xxRecalcRate noError dec' r := by
  have hvalid := an7583Clksrc2_valid desc (List.mem_of_getElem? hi)
  have hset := setReadsBack_of_suits hvalid.1 hvalid.2 dec
  refine ⟨hset, hset.others rate r dec' ?_⟩
  obtain ⟨hilt, rfl⟩ := List.getElem?_eq_some_iff.mp hi
  obtain ⟨hjlt, rfl⟩ := List.getElem?_eq_some_iff.mp hj
  have hpair := List.pairwise_iff_getElem.mp an7583Clksrc2_apart
  rcases Nat.lt_or_gt_of_ne hne with hlt | hgt
  · exact hpair i j hilt hjlt hlt
  · intro f hf g hg
    rcases hpair j i hjlt hilt hgt g hg f hf with hreg | hle | hle
    · exact .inl hreg.symm
    · exact .inr (.inr hle)
    · exact .inr (.inl hle)

end Airoha.Clk
