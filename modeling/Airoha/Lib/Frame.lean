/-
Airoha.Lib.Frame — reads from a buffer of bytes.

A read past the end fails, so a parser written with `rd8` and `rd16` in
`Option` returns something only when every byte it looks at is there. What a
parser does behind a prefix is what it does to the rest: `rd8_append` and
`rd16_append`.
-/
import Airoha.Lib.Bits

namespace Airoha.Lib

/-- The byte at `cp`. -/
def rd8 (f : List (BitVec 8)) (cp : Nat) : Option (BitVec 8) := f[cp]?

/-- The two bytes at `cp` in network order. -/
def rd16 (f : List (BitVec 8)) (cp : Nat) : Option (BitVec 16) := do
  let hi ← f[cp]?
  let lo ← f[cp + 1]?
  return hi ++ lo

/-- The two bytes of a number in network order. -/
def be16 (v : BitVec 16) : List (BitVec 8) := [v.extractLsb' 8 8, v.extractLsb' 0 8]

variable {pre p f : List (BitVec 8)}

theorem getElem?_behind (pre p : List (BitVec 8)) (k : Nat) :
    (pre ++ p)[pre.length + k]? = p[k]? := by
  rw [List.getElem?_append_right (Nat.le_add_right _ _), Nat.add_sub_cancel_left]

theorem rd8_append (pre p : List (BitVec 8)) (k : Nat) :
    rd8 (pre ++ p) (pre.length + k) = rd8 p k :=
  getElem?_behind pre p k

theorem rd16_append (pre p : List (BitVec 8)) (k : Nat) :
    rd16 (pre ++ p) (pre.length + k) = rd16 p k := by
  rw [rd16, rd16, Nat.add_assoc, getElem?_behind, getElem?_behind]

theorem rd8_of_lt {cp : Nat} (h : cp < f.length) : rd8 f cp = some (f.getD cp 0#8) := by
  simp [rd8, h]

theorem rd16_of_lt {cp : Nat} (h : cp + 1 < f.length) :
    rd16 f cp = some (f.getD cp 0#8 ++ f.getD (cp + 1) 0#8) := by
  have h' : cp < f.length := by omega
  simp [rd16, h, h']

/-- A number is read back behind whatever precedes it. -/
theorem rd16_be16 {cp : Nat} {v : BitVec 16} (pre rest : List (BitVec 8))
    (hf : f = pre ++ (be16 v ++ rest)) (hcp : pre.length = cp) : rd16 f cp = some v := by
  subst hf hcp
  have h := rd16_append pre (be16 v ++ rest) 0
  rw [Nat.add_zero] at h
  have hv := extract_append_extract v 0 8 8
  rw [extract_all] at hv
  rw [h, rd16]
  simp [be16, hv]

end Airoha.Lib
