/-
Airoha.Clk.Driver — the base clocks of `clk-en7523.c`.

A clock is a base rate over a divider. Its descriptor says where the registers
select the base, where they select the divider, and what the selections stand
for; either of the two fields may be missing. `en75xx_set_rate` searches the
selections for one that gives the rate as it is asked for and writes it,
`en75xx_recalc_rate` reads the fields back.

The loop variables of the search are `int`, and the kernel is built so that
these wrap. A wrapped one is negative, and as an `unsigned long` or `size_t`
above every bound, which ends the loop. The functions that decode the fields
are not part of the patches: `Decoders` says what they do.
-/
import Airoha.Lib.Regmap

namespace Airoha.Clk

open Airoha.Lib

/-! ## Descriptors -/

/-- `struct en_clk_desc`. `n_base_values` is the length of `baseValues`. -/
structure EnClkDesc where
  baseReg : Nat
  baseBits : Nat
  baseShift : Nat
  baseValues : List (BitVec 32)
  baseValue : BitVec 32
  divReg : Nat
  divBits : Nat
  divShift : Nat
  divVal0 : BitVec 32
  divStep : BitVec 32
  divOffset : BitVec 32

/-- `desc->div_reg ? desc->div_reg : desc->base_reg` -/
def EnClkDesc.divRegister (desc : EnClkDesc) : Nat :=
  if desc.divReg ≠ 0 then desc.divReg else desc.baseReg

/-- `(tmp_div_val + desc->div_offset) * desc->div_step` -/
def EnClkDesc.step (desc : EnClkDesc) (tmpDivVal : Nat) : BitVec 32 :=
  (BitVec.ofNat 32 tmpDivVal + desc.divOffset) * desc.divStep

/-- `EINVAL` -/
def einval : Int := 22

/-! ## The search -/

/-- The loop of `en75xx_get_base_val_for_rate`, from `i` on. -/
def baseLoop (div : BitVec 32) (rate : BitVec 64) : Nat → List (BitVec 32) → Int
  | _, [] => -einval
  | i, value :: values =>
    if i = 2 ^ 31 then -einval
    else if rate = (value / div).setWidth 64 then i
    else baseLoop div rate (i + 1) values

/-- `en75xx_get_base_val_for_rate` -/
def en75xxGetBaseValForRate (desc : EnClkDesc) (div : BitVec 32) (rate : BitVec 64) : Int :=
  if desc.baseBits = 0 then
    if rate ≠ (desc.baseValue / div).setWidth 64 then -einval else 0
  else baseLoop div rate 0 desc.baseValues

/-- What the loop over the dividers leaves: whether by `goto exit`, and the two temporaries. -/
structure DivSearch where
  found : Bool
  tmpBaseVal : Int
  tmpDivVal : Nat

/-- The loop over the dividers, from `tmp_div_val` on and with `n` to go. -/
def divLoop (desc : EnClkDesc) (rate : BitVec 64) : Nat → Nat → Int → DivSearch
  | 0, tmpDivVal, tmpBaseVal => ⟨false, tmpBaseVal, tmpDivVal⟩
  | n + 1, tmpDivVal, tmpBaseVal =>
    if tmpDivVal = 2 ^ 31 then ⟨false, tmpBaseVal, tmpDivVal⟩
    else
      let tmpBaseVal := en75xxGetBaseValForRate desc (desc.step tmpDivVal) rate
      if 0 ≤ tmpBaseVal then ⟨true, tmpBaseVal, tmpDivVal⟩
      else divLoop desc rate n (tmpDivVal + 1) tmpBaseVal

/-- The end of `en75xx_get_vals_for_rate`, after the loop. The `int` is compared with `BIT` as an
`unsigned long`. -/
def DivSearch.vals (r : DivSearch) (divBits : Nat) : Option (BitVec 32 × BitVec 32) :=
  if r.found = false ∧ (BitVec.ofNat 32 r.tmpDivVal).signExtend 64 = BitVec.ofNat 64 (2 ^ divBits)
  then none
  else some (BitVec.ofInt 32 r.tmpBaseVal, BitVec.ofNat 32 r.tmpDivVal)

/-- `en75xx_get_vals_for_rate`: `base_val` and `div_val`, or none for `-EINVAL`. -/
def en75xxGetValsForRate (desc : EnClkDesc) (rate : BitVec 64) : Option (BitVec 32 × BitVec 32) :=
  if desc.baseBits = 0 ∧ desc.divBits = 0 then none
  else if desc.divBits = 0 then
    let tmpBaseVal := en75xxGetBaseValForRate desc 1#32 rate
    if tmpBaseVal < 0 then none else some (BitVec.ofInt 32 tmpBaseVal, 0#32)
  else if desc.divVal0 ≠ 0#32 then
    let tmpBaseVal := en75xxGetBaseValForRate desc desc.divVal0 rate
    if 0 ≤ tmpBaseVal then some (BitVec.ofInt 32 tmpBaseVal, 0#32)
    else (divLoop desc rate (2 ^ desc.divBits - 1) 1 tmpBaseVal).vals desc.divBits
  else (divLoop desc rate (2 ^ desc.divBits) 0 0).vals desc.divBits

/-! ## The operations -/

/-- The accesses of the operations. -/
inductive Access where
  | readBase
  | readDiv
  | updateDiv
  | updateBase
deriving DecidableEq, Repr

/-- The error of each access, 0 for none. -/
abbrev Io := Access → Nat

/-- `en75xx_round_rate`, as a `long` -/
def en75xxRoundRate (desc : EnClkDesc) (rate : BitVec 64) : Int :=
  match en75xxGetValsForRate desc rate with
  | none => -einval
  | some _ => rate.toInt

/-- The first half of `en75xx_set_rate`, which writes the divider. -/
def setDiv (io : Io) (desc : EnClkDesc) (divVal : BitVec 32) (r : Regs) : Regs × Int :=
  if desc.divBits ≠ 0 then
    if io .updateDiv ≠ 0 then (r, -einval)
    else (updateBits desc.divRegister (mask 32 desc.divShift desc.divBits)
      (divVal <<< desc.divShift) r, 0)
  else (r, 0)

/-- The second half, which writes the base. -/
def setBase (io : Io) (desc : EnClkDesc) (baseVal : BitVec 32) (r : Regs) : Regs × Int :=
  if desc.baseBits ≠ 0 then
    if io .updateBase ≠ 0 then (r, -einval)
    else (updateBits desc.baseReg (mask 32 desc.baseShift desc.baseBits)
      (baseVal <<< desc.baseShift) r, 0)
  else (r, 0)

/-- `en75xx_set_rate` -/
def en75xxSetRate (io : Io) (desc : EnClkDesc) (rate : BitVec 64) (r : Regs) : Regs × Int :=
  match en75xxGetValsForRate desc rate with
  | none => (r, -einval)
  | some (baseVal, divVal) =>
    let d := setDiv io desc divVal r
    if d.2 ≠ 0 then d else setBase io desc baseVal d.1

/-- What `en7523_get_div` makes of the divider field. -/
def EnClkDesc.divOf (desc : EnClkDesc) (field : Nat) : BitVec 32 :=
  if field = 0 ∧ desc.divVal0 ≠ 0#32 then desc.divVal0 else desc.step field

/-- `en7523_get_base_rate` and `en7523_get_div`: they decode the fields of a register. -/
structure Decoders (desc : EnClkDesc) where
  getBaseRate : BitVec 32 → BitVec 32
  getDiv : BitVec 32 → BitVec 32
  base_of_fixed : desc.baseBits = 0 → ∀ val, getBaseRate val = desc.baseValue
  base_of_index : desc.baseBits ≠ 0 → ∀ val (h : (fieldGet desc.baseShift desc.baseBits val).toNat <
    desc.baseValues.length),
    getBaseRate val = desc.baseValues[(fieldGet desc.baseShift desc.baseBits val).toNat]
  base_congr : ∀ val val', fieldGet desc.baseShift desc.baseBits val =
    fieldGet desc.baseShift desc.baseBits val' → getBaseRate val = getBaseRate val'
  div_of_none : desc.divBits = 0 → ∀ val, getDiv val = 1#32
  div_of_field : desc.divBits ≠ 0 → ∀ val,
    getDiv val = desc.divOf (fieldGet desc.divShift desc.divBits val).toNat

/-- `en75xx_recalc_rate` -/
def en75xxRecalcRate (io : Io) {desc : EnClkDesc} (dec : Decoders desc) (r : Regs) : BitVec 64 :=
  if io .readBase ≠ 0 then BitVec.ofInt 64 (-(io .readBase : Int))
  else
    let rate := dec.getBaseRate (r desc.baseReg)
    if io .readDiv ≠ 0 then BitVec.ofInt 64 (-(io .readDiv : Int))
    else (rate / dec.getDiv (r desc.divRegister)).setWidth 64

/-! ## What is asked -/

/-- The fields of a clock: register, position and width. -/
def EnClkDesc.fields (desc : EnClkDesc) : List (Nat × Nat × Nat) :=
  (if desc.baseBits ≠ 0 then [(desc.baseReg, desc.baseShift, desc.baseBits)] else []) ++
    if desc.divBits ≠ 0 then [(desc.divRegister, desc.divShift, desc.divBits)] else []

/-- Two fields have no bit in common. -/
def Apart (f g : Nat × Nat × Nat) : Prop :=
  f.1 ≠ g.1 ∨ f.2.1 + f.2.2 ≤ g.2.1 ∨ g.2.1 + g.2.2 ≤ f.2.1

/-- A descriptor with its fields in 32 bits and disjoint, its base values within the base field,
and no selectable divider 0. -/
structure Valid (desc : EnClkDesc) : Prop where
  inWord : ∀ f ∈ desc.fields, f.2.1 + f.2.2 ≤ 32
  disjoint : desc.baseBits ≠ 0 → desc.divBits ≠ 0 →
    Apart (desc.baseReg, desc.baseShift, desc.baseBits)
      (desc.divRegister, desc.divShift, desc.divBits)
  fits : desc.baseBits ≠ 0 → desc.baseValues.length ≤ 2 ^ desc.baseBits
  nonzero : desc.divBits ≠ 0 → ∀ v < 2 ^ desc.divBits, desc.divOf v ≠ 0#32

/-- The base rates that can be selected, with the value of the base field. -/
def Base (desc : EnClkDesc) (b : Nat) (base : BitVec 32) : Prop :=
  if desc.baseBits = 0 then b = 0 ∧ base = desc.baseValue else desc.baseValues[b]? = some base

/-- The dividers that can be selected, with the value of the divider field. -/
def Divider (desc : EnClkDesc) (v : Nat) (div : BitVec 32) : Prop :=
  if desc.divBits = 0 then v = 0 ∧ div = 1#32 else v < 2 ^ desc.divBits ∧ div = desc.divOf v

/-- The selections `b` and `v` give the rate by integer division. -/
def Gives (desc : EnClkDesc) (rate : BitVec 64) (b v : Nat) : Prop :=
  ∃ base div, Base desc b base ∧ Divider desc v div ∧ rate = (base / div).setWidth 64

/-- The clock has a selector. -/
def HasSelector (desc : EnClkDesc) : Prop := desc.baseBits ≠ 0 ∨ desc.divBits ≠ 0

/-- No access fails. -/
def noError : Io := fun _ => 0

/-- What is asked of a clock, with no access failing. -/
structure SetReadsBack {desc : EnClkDesc} (dec : Decoders desc) : Prop where
  accepts : ∀ rate, 0 ≤ en75xxRoundRate desc rate ↔ (∃ b v, Gives desc rate b v) ∧ HasSelector desc
  rounds : ∀ rate, 0 ≤ en75xxRoundRate desc rate → en75xxRoundRate desc rate = rate.toNat
  sets : ∀ rate r, 0 ≤ en75xxRoundRate desc rate → (en75xxSetRate noError desc rate r).2 = 0
  readsBack : ∀ rate r, 0 ≤ en75xxRoundRate desc rate →
    en75xxRecalcRate noError dec (en75xxSetRate noError desc rate r).1 = rate
  refuses : ∀ rate r, ¬ 0 ≤ en75xxRoundRate desc rate →
    (en75xxSetRate noError desc rate r).2 < 0 ∧ (en75xxSetRate noError desc rate r).1 = r
  outside : ∀ rate r addr i,
    (∀ f ∈ desc.fields, f.1 = addr → ¬ (f.2.1 ≤ i ∧ i < f.2.1 + f.2.2)) →
      ((en75xxSetRate noError desc rate r).1 addr).getLsbD i = (r addr).getLsbD i
  others : ∀ rate r {desc' : EnClkDesc} (dec' : Decoders desc'),
    (∀ f ∈ desc.fields, ∀ g ∈ desc'.fields, Apart f g) →
      en75xxRecalcRate noError dec' (en75xxSetRate noError desc rate r).1 =
        en75xxRecalcRate noError dec' r

end Airoha.Clk
