/-
Airoha.Lib.Regmap — registers behind a regmap.

A bank of 32-bit registers by address, with the read-modify-write of
`regmap_update_bits`. Code that packs several channels into a register forms
its masks by shifting one mask; `mask_shiftLeft` and `fieldPrep_shiftLeft`
turn them into fields of the register, and the two laws of `updateBits` say
that it sets one field and leaves every other.
-/
import Airoha.Lib.Bits

namespace Airoha.Lib

variable {w : Nat}

/-! ## Shifted masks -/

theorem mask_shiftLeft (s n k : Nat) : mask w s n <<< k = mask w (s + k) n := by
  rw [mask, mask, BitVec.shiftLeft_add]

theorem fieldPrep_shiftLeft (s n k : Nat) (v : BitVec w) :
    fieldPrep s n v <<< k = fieldPrep (s + k) n v := by
  apply BitVec.eq_of_getLsbD_eq
  intro i hi
  rw [BitVec.getLsbD_shiftLeft, getLsbD_fieldPrep, getLsbD_fieldPrep]
  rcases Nat.lt_or_ge i k with hk | hk
  · have h1 : ¬ s + k ≤ i := by omega
    simp [hk, h1]
  · have h1 : i - k - s = i - (s + k) := by omega
    have h2 : s ≤ i - k ↔ s + k ≤ i := by omega
    have h3 : i - k < s + n ↔ i < s + k + n := by omega
    have h4 : i - k < w := by omega
    simp [hi, Nat.not_lt.mpr hk, h1, h2, h3, h4]

/-- A field of the word moved down is the field further up. -/
theorem fieldGet_ushiftRight (s n k : Nat) (x : BitVec w) :
    fieldGet s n (x >>> k) = fieldGet (s + k) n x := by
  apply BitVec.eq_of_getLsbD_eq
  intro i _
  rw [getLsbD_fieldGet, getLsbD_fieldGet, BitVec.getLsbD_ushiftRight]
  congr 2
  omega

/-- A field of a mask, if the mask covers it, has all its bits. -/
theorem fieldGet_mask_self {s n : Nat} (h : s + n ≤ w) :
    fieldGet s n (mask w s n) = mask w 0 n := by
  apply BitVec.eq_of_getLsbD_eq
  intro i _
  rw [getLsbD_fieldGet, getLsbD_mask, getLsbD_mask]
  by_cases hi : i < n
  · have h1 : s + i < w := by omega
    have h2 : i < w := by omega
    simp [hi, h1, h2]
  · simp [hi]

/-- A field only sees what its mask lets through. -/
theorem fieldGet_and_mask (s n : Nat) (x : BitVec w) :
    fieldGet s n (x &&& mask w s n) = fieldGet s n x := by
  rw [fieldGet, fieldGet, BitVec.and_assoc, BitVec.and_self]

theorem fieldGet_and_mask_of_disjoint {s n s' n' : Nat} (h : s + n ≤ s' ∨ s' + n' ≤ s)
    (x : BitVec w) : fieldGet s n (x &&& mask w s' n') = 0#w := by
  apply BitVec.eq_of_getLsbD_eq
  intro i _
  rw [getLsbD_fieldGet, BitVec.getLsbD_and, getLsbD_mask, BitVec.getLsbD_zero]
  rcases Nat.lt_or_ge i n with hn | hn
  · rcases h with h | h
    · have h1 : ¬ s' ≤ s + i := by omega
      simp [h1]
    · have h1 : ¬ s + i < s' + n' := by omega
      simp [h1]
  · simp [Nat.not_lt.mpr hn]

/-! ## A bank of registers -/

/-- The registers, by address. -/
abbrev Regs := Nat → BitVec 32

/-- What `regmap_update_bits` writes. -/
def updateBits (addr : Nat) (msk val : BitVec 32) (r : Regs) : Regs :=
  Function.update r addr ((r addr &&& ~~~msk) ||| (val &&& msk))

/-- A field of a register. -/
def Regs.field (r : Regs) (addr s n : Nat) : BitVec 32 := fieldGet s n (r addr)

variable {r : Regs} {addr addr' s n s' n' : Nat} {val : BitVec 32}

theorem field_updateBits_self :
    Regs.field (updateBits addr (mask 32 s n) val r) addr s n = fieldGet s n val := by
  rw [Regs.field, updateBits, Function.update_self, fieldGet_or, fieldGet_clear_self,
    fieldGet_and_mask]
  simp

/-- Every other field stays: of another register, or beside it. -/
theorem field_updateBits_of_ne (h : addr' ≠ addr ∨ s' + n' ≤ s ∨ s + n ≤ s') :
    Regs.field (updateBits addr (mask 32 s n) val r) addr' s' n' = Regs.field r addr' s' n' := by
  unfold Regs.field updateBits
  rcases eq_or_ne addr' addr with rfl | hne
  · replace h := h.resolve_left fun hne => hne rfl
    rw [Function.update_self, fieldGet_or, fieldGet_clear_of_disjoint h,
      fieldGet_and_mask_of_disjoint h]
    simp
  · rw [Function.update_of_ne hne]

theorem field_update_of_ne {x : BitVec 32} (h : addr' ≠ addr) :
    Regs.field (Function.update r addr x) addr' s' n' = Regs.field r addr' s' n' := by
  rw [Regs.field, Regs.field, Function.update_of_ne h]

end Airoha.Lib
