/-
Airoha.Lib.Ring — a log kept in the slots of a ring.

The entries of a log are numbered from zero and never end; entry `k` is kept in
slot `k % n`. Two entries less than `n` apart have different slots, so a window
of the log that is no longer than the ring can be held all at once, and a store
outside the window is not seen in it. A cursor that wraps by comparison with the
last slot follows the numbers.
-/
import Mathlib.Logic.Function.Basic
import Mathlib.Data.Nat.ModEq

namespace Airoha.Lib

/-- The slots of a ring: how many there are, and where they lie. -/
structure RingSlots (β : Type) where
  size : Nat
  pos : 0 < size
  addr : Nat → β
  inj : ∀ i j, i < size → j < size → addr i = addr j → i = j

namespace RingSlots

variable {α β : Type} (R : RingSlots β) {i j k lo hi lo' hi' : Nat}

/-- Where entry `k` is kept. -/
def slot (k : Nat) : β := R.addr (k % R.size)

/-! ## Slots -/

theorem slot_inj (hij : i < j + R.size) (hji : j < i + R.size) (h : R.slot i = R.slot j) :
    i = j := by
  have hm : i % R.size = j % R.size :=
    R.inj _ _ (Nat.mod_lt _ R.pos) (Nat.mod_lt _ R.pos) h
  rcases Nat.le_total i j with hle | hle
  · have hd := (Nat.modEq_iff_dvd' hle).1 hm
    have h0 := Nat.eq_zero_of_dvd_of_lt hd (by omega)
    omega
  · have hd := (Nat.modEq_iff_dvd' hle).1 (Eq.symm hm)
    have h0 := Nat.eq_zero_of_dvd_of_lt hd (by omega)
    omega

theorem slot_ne (hij : i < j + R.size) (hji : j < i + R.size) (h : i ≠ j) :
    R.slot i ≠ R.slot j := fun hs => h (R.slot_inj hij hji hs)

theorem slot_zero : R.slot 0 = R.addr 0 := by rw [slot, Nat.zero_mod]

/-- The entry after the one in the last slot is in the first slot. -/
theorem slot_succ_of_last (h : k % R.size = R.size - 1) : R.slot (k + 1) = R.addr 0 := by
  have hp := R.pos
  have hk : (k + 1) % R.size = 0 := by
    rw [Nat.add_mod, h]
    rcases Nat.lt_or_ge 1 R.size with h1 | h1
    · rw [Nat.mod_eq_of_lt h1, Nat.sub_add_cancel hp, Nat.mod_self]
    · have h1 : R.size = 1 := by omega
      rw [h1]
  rw [slot, hk]

theorem slot_succ_of_not_last (h : k % R.size ≠ R.size - 1) :
    R.slot (k + 1) = R.addr (k % R.size + 1) := by
  have hlt := Nat.mod_lt k R.pos
  have hk : (k + 1) % R.size = k % R.size + 1 := by
    rw [Nat.add_mod, Nat.mod_eq_of_lt (show 1 < R.size by omega), Nat.mod_eq_of_lt (by omega)]
  rw [slot, hk]

/-! ## Windows -/

/-- The entries from `lo` on and below `hi` are in their slots, each as `P` says. -/
def Held (mem : β → α) (P : Nat → α → Prop) (lo hi : Nat) : Prop :=
  ∀ k, lo ≤ k → k < hi → P k (mem (R.slot k))

variable {R} {mem : β → α} {P Q : Nat → α → Prop}

theorem Held.empty (h : hi ≤ lo) : R.Held mem P lo hi := by
  intro k hlo hhi
  omega

theorem Held.mono (h : R.Held mem P lo hi) (hlo : lo ≤ lo') (hhi : hi' ≤ hi) :
    R.Held mem P lo' hi' :=
  fun k h1 h2 => h k (hlo.trans h1) (Nat.lt_of_lt_of_le h2 hhi)

theorem Held.imp (h : R.Held mem P lo hi) (hPQ : ∀ k a, lo ≤ k → k < hi → P k a → Q k a) :
    R.Held mem Q lo hi :=
  fun k h1 h2 => hPQ k _ h1 h2 (h k h1 h2)

variable [DecidableEq β]

/-- A store into the slot of an entry outside the window, less than a turn away, is not seen. -/
theorem Held.store (h : R.Held mem P lo hi) {a : α} (hout : i < lo ∨ hi ≤ i)
    (hlo : i < lo + R.size) (hhi : hi ≤ i + R.size) :
    R.Held (Function.update mem (R.slot i) a) P lo hi := by
  intro k h1 h2
  have hne : R.slot k ≠ R.slot i := R.slot_ne (by omega) (by omega) (by omega)
  rw [Function.update_of_ne hne]
  exact h k h1 h2

/-- A store at the end of a window makes it one longer. -/
theorem Held.push (h : R.Held mem P lo hi) {a : α} (ha : P hi a) (hle : hi < lo + R.size) :
    R.Held (Function.update mem (R.slot hi) a) P lo (hi + 1) := by
  intro k h1 h2
  rcases Nat.lt_or_ge k hi with hk | hk
  · exact h.store (Or.inr (Nat.le_refl hi)) hle (by omega) k h1 hk
  · have hk : k = hi := by omega
    subst hk
    rw [Function.update_self]
    exact ha

/-- A store at the start of a window leaves the rest of it. -/
theorem Held.pop (h : R.Held mem P lo hi) {a : α} (hle : hi ≤ lo + R.size) :
    R.Held (Function.update mem (R.slot lo) a) P (lo + 1) hi := by
  have hp := R.pos
  exact (h.mono (Nat.le_succ lo) (Nat.le_refl hi)).store (Or.inl (Nat.lt_succ_self lo))
    (by omega) hle

end RingSlots

end Airoha.Lib
