/-
Airoha.Lib.Csum — the internet checksum.

The words of a header are added in a wide sum, the carries are folded back, and
the complement is taken. `csumFold_add_self`: a header that had zeros where the
checksum goes sums up to nothing once it is there, which is how a receiver
verifies it.
-/
import Mathlib.Algebra.BigOperators.Intervals
import Airoha.Lib.Window

namespace Airoha.Lib

/-- The carries of a sum of 32 bits are folded back, twice. -/
def foldCarry (sum : Nat) : Nat :=
  let sum := sum % 2 ^ 16 + sum / 2 ^ 16
  sum % 2 ^ 16 + sum / 2 ^ 16

/-- `csum_fold` -/
def csumFold (sum : Nat) : BitVec 16 := ~~~BitVec.ofNat 16 (foldCarry sum)

/-- The sum of `n` words from `i`. -/
def wordSum (m : Mem) (i n : Nat) : Nat := ∑ k ∈ Finset.range n, (get16 m (i + 2 * k)).toNat

/-- What is left fits, is the same modulo 65535, and is nothing only if there was nothing. -/
theorem foldCarry_spec (sum : Nat) (h : sum < 2 ^ 32) : foldCarry sum < 2 ^ 16 ∧
    foldCarry sum % 65535 = sum % 65535 ∧ (foldCarry sum = 0 ↔ sum = 0) := by
  simp only [foldCarry]
  omega

theorem toNat_csumFold (sum : Nat) (h : sum < 2 ^ 32) :
    (csumFold sum).toNat = 65535 - foldCarry sum := by
  rw [csumFold, BitVec.toNat_not, BitVec.toNat_ofNat, Nat.mod_eq_of_lt (foldCarry_spec sum h).1]

/-- With the checksum in it, the sum folds to ones only. -/
theorem csumFold_add_self {sum : Nat} (h : sum + 65535 < 2 ^ 32) :
    csumFold (sum + (csumFold sum).toNat) = 0#16 := by
  have hsum := foldCarry_spec sum (by omega)
  have hself := toNat_csumFold sum (by omega)
  have hall := foldCarry_spec (sum + (csumFold sum).toNat) (by omega)
  apply BitVec.eq_of_toNat_eq
  rw [toNat_csumFold _ (by omega)]
  have hzero : (0#16).toNat = 0 := rfl
  omega

theorem wordSum_le (m : Mem) (i n : Nat) : wordSum m i n ≤ n * 65535 := by
  have h : ∀ k ∈ Finset.range n, (get16 m (i + 2 * k)).toNat ≤ 65535 := by
    intro k _
    have hlt := (get16 m (i + 2 * k)).isLt
    omega
  calc wordSum m i n ≤ ∑ _k ∈ Finset.range n, 65535 := Finset.sum_le_sum h
    _ = n * 65535 := by simp

/-- A word that was zero is written: the sum grows by it. -/
theorem wordSum_put {m m' : Mem} {i n j : Nat} (hj : j < n) (hzero : get16 m (i + 2 * j) = 0#16)
    (hsame : ∀ k < n, k ≠ j → get16 m' (i + 2 * k) = get16 m (i + 2 * k)) :
    wordSum m' i n = wordSum m i n + (get16 m' (i + 2 * j)).toNat := by
  have hmem : j ∈ Finset.range n := Finset.mem_range.mpr hj
  have hrest : ∑ k ∈ (Finset.range n).erase j, (get16 m' (i + 2 * k)).toNat =
      ∑ k ∈ (Finset.range n).erase j, (get16 m (i + 2 * k)).toNat := by
    refine Finset.sum_congr rfl ?_
    intro k hk
    rw [Finset.mem_erase, Finset.mem_range] at hk
    rw [hsame k hk.2 hk.1]
  rw [wordSum, wordSum, ← Finset.add_sum_erase _ _ hmem, ← Finset.add_sum_erase _ _ hmem, hrest,
    hzero]
  simp [Nat.add_comm]

/-- A header without a checksum, and the same with it: the latter verifies. -/
theorem csumFold_wordSum_put {m m' : Mem} {i n j : Nat} (hn : n < 65535) (hj : j < n)
    (hzero : get16 m (i + 2 * j) = 0#16) (hself : get16 m' (i + 2 * j) = csumFold (wordSum m i n))
    (hsame : ∀ k < n, k ≠ j → get16 m' (i + 2 * k) = get16 m (i + 2 * k)) :
    csumFold (wordSum m' i n) = 0#16 := by
  have hle := wordSum_le m i n
  rw [wordSum_put hj hzero hsame, hself]
  refine csumFold_add_self ?_
  have hmul : n * 65535 ≤ 65534 * 65535 := Nat.mul_le_mul_right _ (by omega)
  omega

theorem wordSum_congr {m m' : Mem} {i n : Nat} (h : ∀ j, i ≤ j → j < i + 2 * n → m' j = m j) :
    wordSum m' i n = wordSum m i n := by
  refine Finset.sum_congr rfl ?_
  intro k hk
  rw [Finset.mem_range] at hk
  rw [get16_congr (h _ (by omega) (by omega)) (h _ (by omega) (by omega))]

end Airoha.Lib
