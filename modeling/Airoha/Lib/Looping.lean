/-
Airoha.Lib.Looping — stateful code with loops that may not end.

A program is run with a bound on the rounds of its loops, `none` when the
bound is too small, and carries the proof that more rounds give the same
result; so programs compose with one bound for all their loops.
`m.Ends s Q` says that `m` ends from `s`, for some bound, with a result and a
state in `Q`. There is one law for each way of building a program and each
is an equivalence, so that a proof by these laws says exactly when a program
ends well.
-/
import Mathlib

namespace Airoha.Lib

/-- A program over the state `σ`; `run n` allows each loop `n` rounds. -/
structure Looping (σ α : Type) where
  run : Nat → σ → Option (α × σ)
  mono : ∀ {n n' : Nat} {s : σ} {x : α × σ}, n ≤ n' → run n s = some x → run n' s = some x

namespace Looping

variable {σ α β : Type}

/-- One step without loops. -/
def act (f : σ → α × σ) : Looping σ α where
  run _ s := some (f s)
  mono _ h := h

instance : Monad (Looping σ) where
  pure a := act fun s => (a, s)
  bind m f :=
    { run := fun n s => (m.run n s).bind fun x => (f x.1).run n x.2
      mono := by
        intro n n' s x hle h
        obtain ⟨y, hy, hx⟩ := Option.bind_eq_some_iff.mp h
        exact Option.bind_eq_some_iff.mpr ⟨y, m.mono hle hy, (f y.1).mono hle hx⟩ }

/-- The rounds of `do { tmp = body(tmp); } while (again(tmp));`. -/
def rounds (body : α → Looping σ α) (again : α → Bool) (n : Nat) : Nat → α → σ → Option (α × σ)
  | 0, _, _ => none
  | left + 1, tmp, s =>
      ((body tmp).run n s).bind fun x =>
        if again x.1 then rounds body again n left x.1 x.2 else some x

theorem rounds_mono {body : α → Looping σ α} {again : α → Bool} {n n' : Nat} (hn : n ≤ n')
    {x : α × σ} : ∀ {left left' : Nat} {tmp : α} {s : σ}, left ≤ left' →
      rounds body again n left tmp s = some x → rounds body again n' left' tmp s = some x := by
  intro left
  induction left with
  | zero =>
    intro left' tmp s _ h
    cases h
  | succ left ih =>
    intro left' tmp s hle h
    obtain ⟨left', rfl⟩ : ∃ m, left' = m + 1 := ⟨left' - 1, by omega⟩
    obtain ⟨y, hy, hx⟩ := Option.bind_eq_some_iff.mp h
    refine Option.bind_eq_some_iff.mpr ⟨y, (body tmp).mono hn hy, ?_⟩
    split at hx
    · rename_i hagain
      rw [if_pos hagain]
      exact ih (Nat.le_of_succ_le_succ hle) hx
    · rename_i hagain
      rw [if_neg hagain]
      exact hx

/-- `do { tmp = body(tmp); } while (again(tmp));` -/
def doWhile (body : α → Looping σ α) (again : α → Bool) (tmp : α) : Looping σ α where
  run n s := rounds body again n n tmp s
  mono hle h := rounds_mono hle hle h

/-! ## Ending -/

/-- `m` ends from `s` with a result and a state that satisfy `Q`. -/
def Ends (m : Looping σ α) (s : σ) (Q : α → σ → Prop) : Prop :=
  ∃ n r s', m.run n s = some (r, s') ∧ Q r s'

/-- A program has one result. -/
theorem run_det (m : Looping σ α) {n n' : Nat} {s : σ} {x x' : α × σ} (h : m.run n s = some x)
    (h' : m.run n' s = some x') : x = x' := by
  have h₁ := m.mono (Nat.le_max_left n n') h
  have h₂ := m.mono (Nat.le_max_right n n') h'
  rw [h₁] at h₂
  exact Option.some.inj h₂

theorem Ends.of_run {m : Looping σ α} {n : Nat} {s s' : σ} {r : α} {Q : α → σ → Prop}
    (hm : m.Ends s Q) (hrun : m.run n s = some (r, s')) : Q r s' := by
  obtain ⟨n₁, r₁, s₁, hrun₁, hq⟩ := hm
  cases m.run_det hrun hrun₁
  exact hq

theorem ends_act {f : σ → α × σ} {s : σ} {Q : α → σ → Prop} :
    (act f).Ends s Q ↔ Q (f s).1 (f s).2 := by
  constructor
  · intro h
    exact h.of_run (n := 0) rfl
  · intro h
    exact ⟨0, _, _, rfl, h⟩

theorem ends_pure {a : α} {s : σ} {Q : α → σ → Prop} :
    (pure a : Looping σ α).Ends s Q ↔ Q a s :=
  ends_act

/-- What the first part ends with is what the second part goes on with. -/
theorem ends_bind {m : Looping σ α} {f : α → Looping σ β} {s : σ} {Q : β → σ → Prop} :
    (m >>= f).Ends s Q ↔ m.Ends s fun r s' => (f r).Ends s' Q := by
  constructor
  · rintro ⟨n, r, s', hrun, hq⟩
    obtain ⟨⟨r₁, s₁⟩, hrun₁, hrun₂⟩ := Option.bind_eq_some_iff.mp hrun
    exact ⟨n, r₁, s₁, hrun₁, n, r, s', hrun₂, hq⟩
  · rintro ⟨n₁, r₁, s₁, hrun₁, n₂, r, s', hrun₂, hq⟩
    refine ⟨max n₁ n₂, r, s', Option.bind_eq_some_iff.mpr ⟨(r₁, s₁), ?_, ?_⟩, hq⟩
    · exact m.mono (Nat.le_max_left n₁ n₂) hrun₁
    · exact (f r₁).mono (Nat.le_max_right n₁ n₂) hrun₂

theorem ends_ite {c : Prop} [Decidable c] {m m' : Looping σ α} {s : σ} {Q : α → σ → Prop} :
    (if c then m else m').Ends s Q ↔ if c then m.Ends s Q else m'.Ends s Q := by
  by_cases hc : c
  · rw [if_pos hc, if_pos hc]
  · rw [if_neg hc, if_neg hc]

theorem ends_congr {m : Looping σ α} {s : σ} {Q Q' : α → σ → Prop} (h : ∀ r s', Q r s' ↔ Q' r s') :
    m.Ends s Q ↔ m.Ends s Q' := by
  constructor
  · rintro ⟨n, r, s', hrun, hq⟩
    exact ⟨n, r, s', hrun, (h r s').mp hq⟩
  · rintro ⟨n, r, s', hrun, hq⟩
    exact ⟨n, r, s', hrun, (h r s').mpr hq⟩

/-- A loop is its body once, and then the loop as long as it goes on. -/
theorem ends_doWhile {body : α → Looping σ α} {again : α → Bool} {tmp : α} {s : σ}
    {Q : α → σ → Prop} : (doWhile body again tmp).Ends s Q ↔ (body tmp).Ends s fun tmp' s' =>
      if again tmp' then (doWhile body again tmp').Ends s' Q else Q tmp' s' := by
  constructor
  · rintro ⟨n, r, s', hrun, hq⟩
    cases n with
    | zero => cases hrun
    | succ n =>
      obtain ⟨⟨tmp', s₁⟩, hrun₁, hrun₂⟩ := Option.bind_eq_some_iff.mp hrun
      refine ⟨n + 1, tmp', s₁, hrun₁, ?_⟩
      dsimp only at hrun₂
      split at hrun₂
      · rename_i hagain
        rw [if_pos hagain]
        exact ⟨n + 1, r, s', rounds_mono (Nat.le_refl _) (Nat.le_succ n) hrun₂, hq⟩
      · rename_i hagain
        cases hrun₂
        rw [if_neg hagain]
        exact hq
  · rintro ⟨n₁, tmp', s₁, hrun₁, h⟩
    split at h
    · rename_i hagain
      obtain ⟨n₂, r, s', hrun₂, hq⟩ := h
      refine ⟨max n₁ n₂ + 1, r, s', Option.bind_eq_some_iff.mpr ⟨(tmp', s₁), ?_, ?_⟩, hq⟩
      · exact (body tmp).mono (by omega) hrun₁
      · rw [if_pos hagain]
        exact rounds_mono (by omega) (by omega) hrun₂
    · rename_i hagain
      refine ⟨n₁ + 1, tmp', s₁, Option.bind_eq_some_iff.mpr ⟨(tmp', s₁), ?_, ?_⟩, h⟩
      · exact (body tmp).mono (by omega) hrun₁
      · exact if_neg hagain

/-- A loop whose rounds are known ends in the first round that does not go on. -/
theorem ends_doWhile_seq {body : α → Looping σ α} {again : α → Bool} {val : Nat → α} {st : Nat → σ}
    (hbody : ∀ k Q, (body (val k)).Ends (st k) Q ↔ Q (val (k + 1)) (st (k + 1)))
    {Q : α → σ → Prop} : (doWhile body again (val 0)).Ends (st 0) Q ↔
      ∃ k, again (val (k + 1)) = false ∧ (∀ j < k, again (val (j + 1)) = true) ∧
        Q (val (k + 1)) (st (k + 1)) := by
  constructor
  · rintro ⟨n, r, s', hrun, hq⟩
    have hfirst : ∀ left i, rounds body again n left (val i) (st i) = some (r, s') →
        ∃ k, again (val (i + k + 1)) = false ∧ (∀ j < k, again (val (i + j + 1)) = true) ∧
          r = val (i + k + 1) ∧ s' = st (i + k + 1) := by
      intro left
      induction left with
      | zero =>
        intro i h
        cases h
      | succ left ih =>
        intro i h
        obtain ⟨⟨tmp', s₁⟩, hrun₁, hrun₂⟩ := Option.bind_eq_some_iff.mp h
        obtain ⟨rfl, rfl⟩ := (hbody i fun tmp s => tmp = tmp' ∧ s = s₁).mp
          ⟨n, tmp', s₁, hrun₁, rfl, rfl⟩
        dsimp only at hrun₂
        split at hrun₂
        · rename_i hagain
          obtain ⟨k, hstop, hgo, hr, hs⟩ := ih (i + 1) hrun₂
          have harith : ∀ m, i + 1 + m + 1 = i + (m + 1) + 1 := fun m => by omega
          rw [harith] at hstop hr hs
          refine ⟨k + 1, hstop, fun j hj => ?_, hr, hs⟩
          cases j with
          | zero => exact hagain
          | succ j =>
            rw [← harith]
            exact hgo j (by omega)
        · rename_i hagain
          cases hrun₂
          exact ⟨0, Bool.eq_false_iff.mpr hagain, fun j hj =>
            absurd hj (Nat.not_lt_zero j), rfl, rfl⟩
    obtain ⟨k, hstop, hgo, rfl, rfl⟩ := hfirst n 0 hrun
    simp only [Nat.zero_add] at hstop hgo hq
    exact ⟨k, hstop, hgo, hq⟩
  · rintro ⟨k, hstop, hgo, hq⟩
    have hlast : ∀ m i, i + m = k → (doWhile body again (val i)).Ends (st i) Q := by
      intro m
      induction m with
      | zero =>
        rintro i rfl
        rw [ends_doWhile, hbody]
        rw [Nat.add_zero] at hstop hq
        rw [hstop, if_neg Bool.false_ne_true]
        exact hq
      | succ m ih =>
        intro i hi
        rw [ends_doWhile, hbody, hgo i (by omega), if_pos rfl]
        exact ih (i + 1) (by omega)
    exact hlast k 0 (Nat.zero_add k)

end Looping

end Airoha.Lib
