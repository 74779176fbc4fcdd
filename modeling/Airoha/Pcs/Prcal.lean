/-
Airoha.Pcs.Prcal — the receive calibration of the AN7581 PCS.

Translates `an7581_pcs_rx_prcal` and the two searches it makes. A setting of the
IDAC is written, the frequency detector runs, and its level is read back.
The detector is a parameter: `det n idac` is the level it gives for the
setting `idac` as its `n`th measurement, so it need not give the same level
twice. A division by zero and a shift by a number of bits that the word does
not have are faults.
-/
import Airoha.Lib.Faults
import Airoha.Lib.Regmap

namespace Airoha.Pcs

open Airoha.Lib

/-- The members of `phy_interface_t` the PCS knows, and any other. -/
inductive PhyInterface where
  | sgmii
  | base1000x
  | base2500x
  | usxgmii
  | base10gr
  | other
deriving DecidableEq, Repr

namespace Prcal

/-! ## Registers of the PMA -/

/-- `AIROHA_PCS_PMA_SS_RX_FREQ_DET_1` -/
def ssRxFreqDet1 : Nat := 0x14c
/-- `AIROHA_PCS_PMA_SS_RX_FREQ_DET_2` -/
def ssRxFreqDet2 : Nat := 0x150
/-- `AIROHA_PCS_PMA_SS_RX_FREQ_DET_3` -/
def ssRxFreqDet3 : Nat := 0x154
/-- `AIROHA_PCS_PMA_SS_RX_FREQ_DET_4` -/
def ssRxFreqDet4 : Nat := 0x158
/-- `AIROHA_PCS_PMA_RX_FLL_1` -/
def rxFll1 : Nat := 0x174
/-- `AIROHA_PCS_PMA_RX_FLL_B` -/
def rxFllB : Nat := 0x19c
/-- `AIROHA_PCS_PMA_SW_RST_SET` -/
def swRstSet : Nat := 0x460
/-- `AIROHA_PCS_PMA_PXP_CDR_PR_IDAC` -/
def pxpCdrPrIdac : Nat := 0x794
/-- `AIROHA_PCS_PMA_PXP_CDR_PR_LPF_C_EN` -/
def pxpCdrPrLpfCEn : Nat := 0x820
/-- `AIROHA_PCS_PMA_PXP_CDR_PR_PIEYE_PWDB` -/
def pxpCdrPrPieyePwdb : Nat := 0x824

/-- `regmap_set_bits` -/
def setBits (addr : Nat) (msk : BitVec 32) : Regs → Regs := updateBits addr msk msk

/-- `regmap_clear_bits` -/
def clearBits (addr : Nat) (msk : BitVec 32) : Regs → Regs := updateBits addr msk 0#32

/-! ## Programs -/

/-- The registers, and the settings measured so far. -/
structure Pma where
  regs : Regs
  tried : List (BitVec 11)

/-- What C leaves undefined. -/
inductive Fault where
  | divideByZero
  | badShift
deriving DecidableEq, Repr

/-- Code of the calibration. -/
abbrev Cal := Faulting Fault Pma

/-- The level that `RX_FREQDET` holds in its field `FL_OUT` after a measurement. -/
abbrev Detector := Nat → BitVec 11 → BitVec 16

/-- Register writes only. -/
def onRegs (f : Regs → Regs) : Cal Unit := Faulting.act fun p => ((), { p with regs := f p.regs })

/-- `abs` of an `unsigned int`, which takes it as an `int`. -/
def abs (x : BitVec 32) : BitVec 32 := if x.slt 0#32 then -x else x

/-- `BIT(n)`, as a `u32`. -/
def bitAt (n : Int) : Cal (BitVec 32) :=
  if 0 ≤ n ∧ n < 64 then pure (bit 32 n.toNat) else throw .badShift

section Search

variable (det : Detector) (targetFlOut : BitVec 32)

/-- `an7581_pcs_apply_cdr_pr_idac` -/
def an7581PcsApplyCdrPrIdac (cdrPrIdac : BitVec 32) : Cal (BitVec 32) := Faulting.act fun p =>
  let regs := updateBits pxpCdrPrIdac (mask 32 0 11) (fieldPrep 0 11 cdrPrIdac) p.regs
  -- `FREQLOCK_DET_EN` is forced to 0 and put back to normal
  let regs := updateBits ssRxFreqDet4 (mask 32 0 3) (fieldPrep 0 3 0#32) regs
  let regs := updateBits ssRxFreqDet4 (mask 32 0 3) (fieldPrep 0 3 3#32) regs
  let idac := (Regs.field regs pxpCdrPrIdac 0 11).setWidth 11
  ((det p.tried.length idac).setWidth 32, { regs := regs, tried := p.tried ++ [idac] })

/-! ## The major search -/

/-- The locals of `an7581_pcs_rx_prcal_idac_major`. -/
structure Major where
  cdrPrIdac : BitVec 32
  flOutDiff : BitVec 32

/-- One round of the loop of `an7581_pcs_rx_prcal_idac_major`. -/
def majorRound (s : Major) (prcalSearch : Nat) : Cal Major := do
  let cdrPrIdacTmp := fieldPrep 8 3 (BitVec.ofNat 32 prcalSearch)
  let flOut ← an7581PcsApplyCdrPrIdac det cdrPrIdacTmp
  let flOutDiffNew := abs (flOut - targetFlOut)
  return if flOutDiffNew < s.flOutDiff then ⟨cdrPrIdacTmp, flOutDiffNew⟩ else s

/-- `an7581_pcs_rx_prcal_idac_major` -/
def an7581PcsRxPrcalIdacMajor : Cal (BitVec 32) := do
  let s ← [0, 1, 2, 3, 4, 5, 6, 7].foldlM (majorRound det targetFlOut) ⟨0#32, BitVec.allOnes 32⟩
  return s.cdrPrIdac

/-! ## The minor search -/

/-- The locals of the deadline search. -/
structure Deadline where
  bestPrcalSearchBit : Int
  flOutDiff : BitVec 32

/-- One round of the deadline search of `an7581_pcs_rx_prcal_idac_minor`. -/
def deadlineRound (cdrPrIdac : BitVec 32) (s : Deadline) (prcalSearchBit : Int) : Cal Deadline := do
  let cdrPrIdacTmp := cdrPrIdac ||| (← bitAt prcalSearchBit)
  let flOut ← an7581PcsApplyCdrPrIdac det cdrPrIdacTmp
  let flOutDiffNew := abs (flOut - targetFlOut)
  return if flOutDiffNew < s.flOutDiff then ⟨prcalSearchBit, flOutDiffNew⟩ else s

/-- The first measurement and the deadline search, from the top bit down. -/
def deadlineSearch (cdrPrIdacMajor : BitVec 32) : Cal Deadline := do
  let flOut ← an7581PcsApplyCdrPrIdac det cdrPrIdacMajor
  [7, 6, 5, 4, 3, 2, 1, 0].foldlM (deadlineRound det targetFlOut cdrPrIdacMajor)
    ⟨-1, abs (flOut - targetFlOut)⟩

/-- The locals of the fine tune; `stopped` is set by its `break`. -/
structure FineTune where
  remainingPrcalSearchBits : BitVec 32
  cdrPrIdac : BitVec 32
  flOutDiff : BitVec 32
  prcalSearchBit : Int
  stopped : Bool

/-- Between the two searches. -/
def setBest (cdrPrIdacMajor : BitVec 32) (s : Deadline) : Cal FineTune := do
  if 0 ≤ s.bestPrcalSearchBit then
    let b ← bitAt s.bestPrcalSearchBit
    return ⟨BitVec.ofInt 32 s.bestPrcalSearchBit, cdrPrIdacMajor ||| b, s.flOutDiff, 0, false⟩
  else
    return ⟨0#32, cdrPrIdacMajor, s.flOutDiff, -1, false⟩

/-- The condition that a deadline is found. -/
def overDeadline (flOutDiffNew flOutDiff : BitVec 32) : Cal Bool :=
  if flOutDiff < flOutDiffNew then
    if flOutDiff = 0#32 then throw .divideByZero
    else pure (decide (10#32 < abs (flOutDiffNew - flOutDiff) * 100#32 / flOutDiff))
  else pure false

/-- What a round does when it finds a deadline. -/
def foundDeadline (s : FineTune) : Cal FineTune := do
  if s.prcalSearchBit = 0 then
    return { s with stopped := true }
  else
    let b ← bitAt (s.prcalSearchBit - 1)
    return { s with
      cdrPrIdac := s.cdrPrIdac ||| b
      remainingPrcalSearchBits := BitVec.ofInt 32 (s.prcalSearchBit - 1)
      prcalSearchBit := 0 }

/-- What a round does when it finds none. -/
def noDeadline (s : FineTune) (flOutDiffNew : BitVec 32) : Cal FineTune := do
  if BitVec.ofInt 32 s.prcalSearchBit = s.remainingPrcalSearchBits - 1#32 then
    let b ← bitAt s.prcalSearchBit
    return { s with
      flOutDiff := flOutDiffNew
      cdrPrIdac := s.cdrPrIdac ||| b
      remainingPrcalSearchBits := BitVec.ofInt 32 s.prcalSearchBit
      prcalSearchBit := 0 }
  else
    return { s with flOutDiff := flOutDiffNew, prcalSearchBit := s.prcalSearchBit + 1 }

/-- One round of the fine tune. -/
def fineTuneRound (s : FineTune) : Cal FineTune := do
  let cdrPrIdacTmp := s.cdrPrIdac ||| (← bitAt s.prcalSearchBit)
  let flOut ← an7581PcsApplyCdrPrIdac det cdrPrIdacTmp
  let flOutDiffNew := abs (flOut - targetFlOut)
  if ← overDeadline flOutDiffNew s.flOutDiff then
    foundDeadline s
  else
    noDeadline s flOutDiffNew

/-- Another round follows. -/
def FineTune.again (s : FineTune) : Bool := !s.stopped && s.remainingPrcalSearchBits != 0#32

/-- `an7581_pcs_rx_prcal_idac_minor` -/
def an7581PcsRxPrcalIdacMinor (cdrPrIdacMajor : BitVec 32) : Cal (BitVec 32) := do
  let best ← deadlineSearch det targetFlOut cdrPrIdacMajor
  let s ← setBest cdrPrIdacMajor best
  if s.again then
    let s ← Faulting.doWhile (fineTuneRound det targetFlOut) FineTune.again s
    return s.cdrPrIdac
  else
    return s.cdrPrIdac

/-! ## The calibration -/

/-- The second try, when the first ended `flOutDiff` from the target. -/
def calibrateAgain (cdrPrIdacMajor cdrPrIdac flOutDiff : BitVec 32) : Cal (BitVec 32) := do
  let prIdacMajor := fieldGet 8 3 cdrPrIdacMajor
  if 0#32 < prIdacMajor then
    let cdrPrIdacTmp ← an7581PcsRxPrcalIdacMinor det targetFlOut
      (fieldPrep 8 3 (prIdacMajor - 1#32))
    let flOutTmp ← an7581PcsApplyCdrPrIdac det cdrPrIdacTmp
    return if abs (flOutTmp - targetFlOut) < flOutDiff then cdrPrIdacTmp else cdrPrIdac
  else
    return cdrPrIdac

/-- The calibration logic of `an7581_pcs_rx_prcal`, up to the value it selects. -/
def calibrate : Cal (BitVec 32) := do
  let cdrPrIdacMajor ← an7581PcsRxPrcalIdacMajor det targetFlOut
  let cdrPrIdac ← an7581PcsRxPrcalIdacMinor det targetFlOut cdrPrIdacMajor
  let flOut ← an7581PcsApplyCdrPrIdac det cdrPrIdac
  let flOutDiff := abs (flOut - targetFlOut)
  if 100#32 < flOutDiff then
    calibrateAgain det targetFlOut cdrPrIdacMajor cdrPrIdac flOutDiff
  else
    return cdrPrIdac

end Search

/-- The writes of `an7581_pcs_rx_prcal` before the calibration. -/
def setupCal (targetFlOut cyclecnt : BitVec 32) (r : Regs) : Regs :=
  let r := setBits swRstSet (bit 32 5) r
  let r := updateBits ssRxFreqDet2 (mask 32 16 16 ||| mask 32 0 16)
    (fieldPrep 16 16 (targetFlOut + 100#32) ||| fieldPrep 0 16 (targetFlOut - 100#32)) r
  let r := updateBits ssRxFreqDet1 (mask 32 16 16 ||| mask 32 0 16)
    (fieldPrep 16 16 cyclecnt ||| fieldPrep 0 16 cyclecnt) r
  let r := updateBits ssRxFreqDet4 (mask 32 12 4 ||| mask 32 8 4)
    (fieldPrep 12 4 3#32 ||| fieldPrep 8 4 3#32) r
  let r := updateBits ssRxFreqDet3 (mask 32 16 16 ||| mask 32 0 16)
    (fieldPrep 16 16 (targetFlOut + 100#32) ||| fieldPrep 0 16 (targetFlOut - 100#32)) r
  let r := updateBits pxpCdrPrLpfCEn (bit 32 24 ||| bit 32 16 ||| bit 32 8 ||| bit 32 0)
    (bit 32 24 ||| bit 32 16 ||| bit 32 8) r
  let r := setBits pxpCdrPrIdac (bit 32 16) r
  let r := setBits pxpCdrPrPieyePwdb (bit 32 24) r
  let r := clearBits pxpCdrPrPieyePwdb (bit 32 16) r
  setBits pxpCdrPrPieyePwdb (bit 32 16) r

/-- The writes of `an7581_pcs_rx_prcal` after the calibration. -/
def loadBand (cdrPrIdac : BitVec 32) (r : Regs) : Regs :=
  let r := clearBits pxpCdrPrLpfCEn (bit 32 8) r
  let r := clearBits pxpCdrPrIdac (bit 32 16) r
  let r := setBits rxFllB (bit 32 0) r
  -- `LPATH_IDAC`
  let r := updateBits rxFll1 (mask 32 0 11) (fieldPrep 0 11 cdrPrIdac) r
  let r := clearBits pxpCdrPrPieyePwdb (bit 32 16) r
  let r := setBits pxpCdrPrPieyePwdb (bit 32 16) r
  let r := clearBits pxpCdrPrPieyePwdb (bit 32 24) r
  clearBits swRstSet (bit 32 5) r

/-- `target_fl_out` and `cyclecnt`, where the interface is supported. -/
def targetOf : PhyInterface → Option (BitVec 32 × BitVec 32)
  | .sgmii | .base1000x => some (0xa3d6#32, 32767#32)
  | .base2500x => some (0xa000#32, 20000#32)
  | .usxgmii | .base10gr => some (0x9edf#32, 32767#32)
  | .other => none

/-- The body of `an7581_pcs_rx_prcal` after its `switch`. -/
def prcalTo (det : Detector) (targetFlOut cyclecnt : BitVec 32) : Cal Unit := do
  onRegs (setupCal targetFlOut cyclecnt)
  let cdrPrIdac ← calibrate det targetFlOut
  onRegs (loadBand cdrPrIdac)

/-- `an7581_pcs_rx_prcal` -/
def an7581PcsRxPrcal (det : Detector) (interface : PhyInterface) : Cal Unit :=
  match targetOf interface with
  | none => pure ()
  | some (targetFlOut, cyclecnt) => prcalTo det targetFlOut cyclecnt

end Prcal

end Airoha.Pcs
