/-
Airoha.Lib.Poll — loops that poll a device.

A poll is an action that says whether the device is still busy. Two loops are
built from it: `pollWhile` counts the polls that were busy up to a bound, and
`pollRows` asks for a row of polls none of which is busy, a bounded number of
times. The device is a sequence of states `st k` with the answer `busy k` of
the `k`-th poll, and the laws say how far each loop gets along it.
-/
import Mathlib

namespace Airoha.Lib

variable {σ : Type}

/-! ## The loops -/

/-- `while (busy() && value++ < limit);` with `left = limit - value`, and the `value` it leaves. -/
def pollWhile (poll : StateM σ Bool) : Nat → Nat → StateM σ Nat
  | left, value => do
      if ← poll then
        match left with
        | 0 => return value + 1
        | left + 1 => pollWhile poll left (value + 1)
      else return value

/-- Whether none of the next polls is busy. -/
def pollRow (poll : StateM σ Bool) : Nat → StateM σ Bool
  | 0 => return true
  | n + 1 => do
      if ← poll then return false else pollRow poll n

/-- Whether one of the next rows of `n` polls passes. -/
def pollRows (poll : StateM σ Bool) (n : Nat) : Nat → StateM σ Bool
  | 0 => return false
  | rows + 1 => do
      if ← pollRow poll n then return true else pollRows poll n rows

/-! ## What they see -/

variable {poll : StateM σ Bool} {st : Nat → σ} {busy : Nat → Bool}

/-- The loop stops at the first poll that is not busy. -/
theorem pollWhile_of_idle (hpoll : ∀ k, poll (st k) = (busy k, st (k + 1))) :
    ∀ (k left value p : Nat), k ≤ left → (∀ j < k, busy (p + j)) → busy (p + k) = false →
      pollWhile poll left value (st p) = (value + k, st (p + k + 1)) := by
  intro k
  induction k with
  | zero =>
    intro left value p _ _ hidle
    rw [Nat.add_zero] at hidle
    cases left <;> simp [pollWhile, bind, StateT.bind, pure, StateT.pure, hpoll, hidle]
  | succ k ih =>
    intro left value p hk hbusy hidle
    obtain ⟨left, rfl⟩ : ∃ m, left = m + 1 := ⟨left - 1, by omega⟩
    have h0 : busy p := hbusy 0 (by omega)
    have hrest := ih left (value + 1) (p + 1) (by omega)
      (fun j hj => by rw [Nat.add_right_comm]; exact hbusy (j + 1) (by omega))
      (by rw [Nat.add_right_comm]; exact hidle)
    have e1 : value + 1 + k = value + (k + 1) := by omega
    have e2 : p + 1 + k + 1 = p + (k + 1) + 1 := by omega
    rw [e1, e2] at hrest
    simpa [pollWhile, bind, StateT.bind, hpoll, h0] using hrest

/-- It gives up after one poll more than its bound. -/
theorem pollWhile_of_busy (hpoll : ∀ k, poll (st k) = (busy k, st (k + 1))) :
    ∀ (left value p : Nat), (∀ j ≤ left, busy (p + j)) →
      pollWhile poll left value (st p) = (value + left + 1, st (p + left + 1)) := by
  intro left
  induction left with
  | zero =>
    intro value p hbusy
    have h0 : busy p := hbusy 0 (Nat.le_refl 0)
    simp [pollWhile, bind, StateT.bind, pure, StateT.pure, hpoll, h0]
  | succ left ih =>
    intro value p hbusy
    have h0 : busy p := hbusy 0 (Nat.zero_le _)
    have hrest := ih (value + 1) (p + 1)
      (fun j hj => by rw [Nat.add_right_comm]; exact hbusy (j + 1) (by omega))
    have e1 : value + 1 + left + 1 = value + (left + 1) + 1 := by omega
    have e2 : p + 1 + left + 1 = p + (left + 1) + 1 := by omega
    rw [e1, e2] at hrest
    simpa [pollWhile, bind, StateT.bind, hpoll, h0] using hrest

/-- A row passes when no poll of it is busy. -/
theorem pollRow_of_idle (hpoll : ∀ k, poll (st k) = (busy k, st (k + 1))) :
    ∀ {n p : Nat}, (∀ j < n, busy (p + j) = false) →
      pollRow poll n (st p) = (true, st (p + n)) := by
  intro n
  induction n with
  | zero => intro p _; rfl
  | succ n ih =>
    intro p hidle
    have h0 : busy p = false := hidle 0 (Nat.succ_pos n)
    have hrest := ih (p := p + 1)
      (fun j hj => by rw [Nat.add_right_comm]; exact hidle (j + 1) (by omega))
    rw [Nat.add_right_comm, Nat.add_assoc] at hrest
    simpa [pollRow, bind, StateT.bind, hpoll, h0] using hrest

/-- It ends at the first that is. -/
theorem pollRow_of_busy (hpoll : ∀ k, poll (st k) = (busy k, st (k + 1))) :
    ∀ {k n p : Nat}, k < n → (∀ j < k, busy (p + j) = false) → busy (p + k) →
      pollRow poll n (st p) = (false, st (p + k + 1)) := by
  intro k
  induction k with
  | zero =>
    intro n p hk _ hbusy
    obtain ⟨n, rfl⟩ : ∃ m, n = m + 1 := ⟨n - 1, by omega⟩
    rw [Nat.add_zero] at hbusy
    simp [pollRow, bind, StateT.bind, pure, StateT.pure, hpoll, hbusy]
  | succ k ih =>
    intro n p hk hidle hbusy
    obtain ⟨n, rfl⟩ : ∃ m, n = m + 1 := ⟨n - 1, by omega⟩
    have h0 : busy p = false := hidle 0 (Nat.succ_pos k)
    have hrest := ih (n := n) (p := p + 1) (by omega)
      (fun j hj => by rw [Nat.add_right_comm]; exact hidle (j + 1) (by omega))
      (by rw [Nat.add_right_comm]; exact hbusy)
    have e : p + 1 + k + 1 = p + (k + 1) + 1 := by omega
    rw [e] at hrest
    simpa [pollRow, bind, StateT.bind, hpoll, h0] using hrest

/-- Whether the poll `k` after the poll `p` is one of those that `rows` rows of `n` make: fewer than
`rows` polls before it were busy, and no `n` of them in a row were not. -/
def Polled (busy : Nat → Bool) (n rows p k : Nat) : Prop :=
  Nat.count (fun j => busy (p + j)) k < rows ∧ ∀ i, i + n ≤ k → ∃ j < n, busy (p + i + j)

theorem count_busy_eq_zero {p k : Nat} (h : ∀ j < k, busy (p + j) = false) :
    Nat.count (fun j => busy (p + j)) k = 0 := by
  rw [Nat.count_iff_forall_not]
  intro j hj hb
  rw [h j hj] at hb
  cases hb

/-- Exactly these polls are made. -/
theorem pollRows_polls (hpoll : ∀ k, poll (st k) = (busy k, st (k + 1))) (n : Nat) :
    ∀ (rows p : Nat), ∃ (r : Bool) (m : Nat), pollRows poll n rows (st p) = (r, st (p + m)) ∧
      ∀ k, k < m ↔ Polled busy n rows p k := by
  intro rows
  induction rows with
  | zero => exact fun p => ⟨false, 0, rfl, fun k => by simp [Polled]⟩
  | succ rows ih =>
    intro p
    by_cases hrow : ∃ f < n, busy (p + f)
    case neg =>
      -- the first row passes
      have hidle : ∀ j < n, busy (p + j) = false := fun j hj =>
        Bool.eq_false_iff.mpr fun h => hrow ⟨j, hj, h⟩
      refine ⟨true, n, ?_, fun k => ⟨fun hk => ⟨?_, fun i hi => by omega⟩, fun h => ?_⟩⟩
      · simp [pollRows, bind, StateT.bind, pure, StateT.pure, pollRow_of_idle hpoll hidle]
      · rw [count_busy_eq_zero fun j hj => hidle j (by omega)]
        exact Nat.succ_pos rows
      · by_contra hk
        obtain ⟨j, hj, hb⟩ := h.2 0 (by omega)
        rw [Nat.add_zero, hidle j hj] at hb
        cases hb
    case pos =>
      -- the first row ends at its first busy poll, and the rest is the induction hypothesis
      obtain ⟨f, ⟨hf, hbusy⟩, hmin⟩ : ∃ f, (f < n ∧ busy (p + f)) ∧
          ∀ j < f, ¬ (j < n ∧ busy (p + j) = true) :=
        ⟨Nat.find hrow, Nat.find_spec hrow, fun _ hj => Nat.find_min hrow hj⟩
      have hidle : ∀ j < f, busy (p + j) = false := fun j hj =>
        Bool.eq_false_iff.mpr fun h => hmin j hj ⟨by omega, h⟩
      obtain ⟨r, m, hrun, hm⟩ := ih (p + f + 1)
      refine ⟨r, f + 1 + m, ?_, fun k => ?_⟩
      · have e : p + (f + 1 + m) = p + f + 1 + m := by omega
        rw [e]
        simpa [pollRows, bind, StateT.bind, pollRow_of_busy hpoll hf hidle hbusy] using hrun
      · have hcount0 := count_busy_eq_zero hidle
        rcases Nat.lt_or_ge f k with hk | hk
        · obtain ⟨k, rfl⟩ : ∃ k', k = f + 1 + k' := ⟨k - (f + 1), by omega⟩
          have hcount : Nat.count (fun j => busy (p + j)) (f + 1 + k) =
              1 + Nat.count (fun j => busy (p + f + 1 + j)) k := by
            rw [Nat.count_add, Nat.count_succ, hcount0, if_pos hbusy]
            simp only [Nat.add_assoc, Nat.zero_add]
          have hk' := hm k
          rw [Polled] at hk' ⊢
          rw [hcount, Nat.add_lt_add_iff_left, hk', Nat.add_comm 1, Nat.add_lt_add_iff_right]
          refine and_congr_right fun _ => ⟨fun h i hi => ?_, fun h i hi => ?_⟩
          · rcases Nat.lt_or_ge f i with hfi | hfi
            · obtain ⟨j, hj, hb⟩ := h (i - (f + 1)) (by omega)
              have e : p + f + 1 + (i - (f + 1)) + j = p + i + j := by omega
              exact ⟨j, hj, by rw [← e]; exact hb⟩
            · have e : p + i + (f - i) = p + f := by omega
              exact ⟨f - i, by omega, by rw [e]; exact hbusy⟩
          · obtain ⟨j, hj, hb⟩ := h (f + 1 + i) (by omega)
            have e : p + (f + 1 + i) + j = p + f + 1 + i + j := by omega
            exact ⟨j, hj, by rw [← e]; exact hb⟩
        · refine ⟨fun _ => ⟨?_, fun i hi => by omega⟩, fun _ => by omega⟩
          have hle := Nat.count_monotone (fun j => busy (p + j) = true) hk
          omega

end Airoha.Lib
