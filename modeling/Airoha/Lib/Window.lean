/-
Airoha.Lib.Window — a buffer that is read and written below a limit.

An access at or beyond the limit fails, so a program of such accesses that ends
with a result made none. `put16` and `put32` write numbers in network order;
what they leave alone is said byte by byte.
-/
import Airoha.Lib.Bits

namespace Airoha.Lib

/-- The bytes of a buffer. -/
abbrev Mem := Nat → BitVec 8

variable {lim i j n : Nat} {m : Mem}

/-! ## What is read and written -/

/-- Two bytes in network order. -/
def get16 (m : Mem) (i : Nat) : BitVec 16 := m i ++ m (i + 1)

/-- Four bytes in network order. -/
def get32 (m : Mem) (i : Nat) : BitVec 32 := get16 m i ++ get16 m (i + 2)

/-- Two bytes written in network order. -/
def put16 (m : Mem) (i : Nat) (v : BitVec 16) : Mem :=
  Function.update (Function.update m i (v.extractLsb' 8 8)) (i + 1) (v.extractLsb' 0 8)

/-- Four bytes written in network order. -/
def put32 (m : Mem) (i : Nat) (v : BitVec 32) : Mem :=
  put16 (put16 m i (v.extractLsb' 16 16)) (i + 2) (v.extractLsb' 0 16)

theorem put16_of_ne {v : BitVec 16} (h : j ≠ i ∧ j ≠ i + 1) : put16 m i v j = m j := by
  rw [put16, Function.update_of_ne h.2, Function.update_of_ne h.1]

theorem put32_of_ne {v : BitVec 32} (h : j < i ∨ i + 4 ≤ j) : put32 m i v j = m j := by
  rw [put32, put16_of_ne (by omega), put16_of_ne (by omega)]

theorem get16_put16_self (m : Mem) (i : Nat) (v : BitVec 16) : get16 (put16 m i v) i = v := by
  have hi : put16 m i v i = v.extractLsb' 8 8 := by
    rw [put16, Function.update_of_ne (by omega), Function.update_self]
  have hi1 : put16 m i v (i + 1) = v.extractLsb' 0 8 := by
    rw [put16, Function.update_self]
  have hv := extract_append_extract v 0 8 8
  rw [extract_all] at hv
  rw [get16, hi, hi1]
  simpa using hv

theorem get16_congr {m' : Mem} (h : m' i = m i) (h1 : m' (i + 1) = m (i + 1)) :
    get16 m' i = get16 m i := by
  rw [get16, h, h1, get16]

/-! ## Accesses -/

/-- Access to `n` bytes from `i`. -/
def within (lim i n : Nat) : Option Unit := if i + n ≤ lim then some () else none

/-- A byte is read. -/
def ld8 (lim : Nat) (m : Mem) (i : Nat) : Option (BitVec 8) := do
  within lim i 1
  return m i

/-- Four bytes are read. -/
def ld32 (lim : Nat) (m : Mem) (i : Nat) : Option (BitVec 32) := do
  within lim i 4
  return get32 m i

/-- Two bytes are written. -/
def st16 (lim : Nat) (m : Mem) (i : Nat) (v : BitVec 16) : Option Mem := do
  within lim i 2
  return put16 m i v

/-- Four bytes are written. -/
def st32 (lim : Nat) (m : Mem) (i : Nat) (v : BitVec 32) : Option Mem := do
  within lim i 4
  return put32 m i v

/-- `n` bytes are copied. -/
def memcpy (lim : Nat) (m : Mem) (n : Nat) : Option Mem := do
  within lim 0 n
  return fun i => if i < n then m i else 0#8

theorem within_of_le (h : i + n ≤ lim) : within lim i n = some () := if_pos h

theorem ld8_of_lt (h : i < lim) : ld8 lim m i = some (m i) := by
  rw [ld8, within_of_le h]
  rfl

theorem ld32_of_le (h : i + 4 ≤ lim) : ld32 lim m i = some (get32 m i) := by
  rw [ld32, within_of_le h]
  rfl

theorem st16_of_le (h : i + 2 ≤ lim) (v : BitVec 16) : st16 lim m i v = some (put16 m i v) := by
  rw [st16, within_of_le h]
  rfl

theorem st32_of_le (h : i + 4 ≤ lim) (v : BitVec 32) : st32 lim m i v = some (put32 m i v) := by
  rw [st32, within_of_le h]
  rfl

theorem memcpy_of_le (h : n ≤ lim) :
    memcpy lim m n = some fun i => if i < n then m i else 0#8 := by
  rw [memcpy, within_of_le (by omega)]
  rfl

end Airoha.Lib
