/-
Airoha.Lib.Masked — lists of masked writes to a bank of registers.

Code that only sets, clears and updates bits of registers is a list of writes,
each with a mask. Which bits it leaves as they were depends on the masks and
not on the values: `bitsAt` is the set of bits that a list of masks covers,
and `agreeOn_run_iff` says that two banks agree on some bits after the same
writes exactly when they agreed, before, on those of them that no mask covers.
-/
import Mathlib

namespace Airoha.Lib

/-- A write of the bits of `val` that are in `mask`. -/
structure Masked (ι : Type) (w : Nat) where
  reg : ι
  mask : BitVec w
  val : BitVec w

namespace Masked

variable {ι : Type} [DecidableEq ι] {w : Nat}

/-- One write. -/
def apply (b : ι → BitVec w) (x : Masked ι w) : ι → BitVec w :=
  Function.update b x.reg ((b x.reg &&& ~~~x.mask) ||| (x.val &&& x.mask))

/-- The writes in order. -/
def run (b : ι → BitVec w) (xs : List (Masked ι w)) : ι → BitVec w := xs.foldl apply b

/-- The bits a write may change. -/
def shape (x : Masked ι w) : ι × BitVec w := (x.reg, x.mask)

/-- The bits of register `a` in a list of masks. -/
def bitsAt (ms : List (ι × BitVec w)) (a : ι) : BitVec w :=
  ms.foldr (fun m bits => if m.1 = a then m.2 ||| bits else bits) 0#w

theorem run_append (b : ι → BitVec w) (xs ys : List (Masked ι w)) :
    run b (xs ++ ys) = run (run b xs) ys :=
  List.foldl_append

theorem getLsbD_bitsAt (ms : List (ι × BitVec w)) (a : ι) (i : Nat) :
    (bitsAt ms a).getLsbD i = true ↔ ∃ m ∈ ms, m.1 = a ∧ m.2.getLsbD i = true := by
  induction ms with
  | nil => simp [bitsAt]
  | cons m ms ih =>
    have hcons : bitsAt (m :: ms) a = if m.1 = a then m.2 ||| bitsAt ms a else bitsAt ms a := rfl
    rw [hcons, List.exists_mem_cons_iff, ← ih]
    by_cases h : m.1 = a
    · simp [h]
    · simp [h]

theorem bitsAt_eq_zero {ms : List (ι × BitVec w)} {a : ι} (h : ∀ m ∈ ms, m.1 ≠ a) :
    bitsAt ms a = 0#w := by
  apply BitVec.eq_of_getLsbD_eq
  intro i _
  rw [BitVec.getLsbD_zero, Bool.eq_false_iff, ne_eq, getLsbD_bitsAt]
  rintro ⟨m, hm, ha, -⟩
  exact h m hm ha

theorem getLsbD_apply (b : ι → BitVec w) (x : Masked ι w) (a : ι) (i : Nat) :
    (apply b x a).getLsbD i = if x.reg = a ∧ x.mask.getLsbD i = true then x.val.getLsbD i
      else (b a).getLsbD i := by
  unfold apply
  by_cases ha : x.reg = a
  · subst ha
    rw [Function.update_self, BitVec.getLsbD_or, BitVec.getLsbD_and, BitVec.getLsbD_and,
      BitVec.getLsbD_not]
    cases hm : x.mask.getLsbD i with
    | true => simp
    | false =>
      by_cases hi : i < w
      · simp [hi]
      · simp [hi, BitVec.getLsbD_of_ge (b x.reg) i (Nat.le_of_not_lt hi)]
  · rw [Function.update_of_ne (Ne.symm ha), if_neg fun h => ha h.1]

/-! ## Agreement -/

/-- Two banks have the same bits where `P` says. -/
def AgreeOn (P : ι → Nat → Prop) (b b' : ι → BitVec w) : Prop :=
  ∀ a i, P a i → (b a).getLsbD i = (b' a).getLsbD i

/-- A bit is the same after the writes exactly when it is covered or was the same before. -/
theorem getLsbD_run_eq_iff (xs : List (Masked ι w)) (a : ι) (i : Nat) : ∀ b b' : ι → BitVec w,
    (run b xs a).getLsbD i = (run b' xs a).getLsbD i ↔
      ((bitsAt (xs.map shape) a).getLsbD i = false → (b a).getLsbD i = (b' a).getLsbD i) := by
  induction xs with
  | nil => simp [run, bitsAt]
  | cons x xs ih =>
    intro b b'
    refine (ih (apply b x) (apply b' x)).trans ?_
    rw [getLsbD_apply, getLsbD_apply]
    have hcons : bitsAt ((x :: xs).map shape) a =
        if x.reg = a then x.mask ||| bitsAt (xs.map shape) a else bitsAt (xs.map shape) a := rfl
    rw [hcons]
    by_cases ha : x.reg = a
    · cases hm : x.mask.getLsbD i with
      | true => simp [ha, hm]
      | false => simp [ha, hm]
    · simp [ha]

/-- A bit that no write covers stays. -/
theorem getLsbD_run_of_free (xs : List (Masked ι w)) (a : ι) (i : Nat) : ∀ b : ι → BitVec w,
    (bitsAt (xs.map shape) a).getLsbD i = false → (run b xs a).getLsbD i = (b a).getLsbD i := by
  induction xs with
  | nil => exact fun _ _ => rfl
  | cons x xs ih =>
    intro b hfree
    rw [Bool.eq_false_iff, ne_eq, getLsbD_bitsAt, List.map_cons, List.exists_mem_cons_iff,
      not_or] at hfree
    have hxs : (bitsAt (xs.map shape) a).getLsbD i = false := by
      rw [Bool.eq_false_iff, ne_eq, getLsbD_bitsAt]
      exact hfree.2
    have hx : ¬ (x.reg = a ∧ x.mask.getLsbD i = true) := hfree.1
    have happly := getLsbD_apply b x a i
    rw [if_neg hx] at happly
    exact (ih (apply b x) hxs).trans happly

/-- A bit that a write covers, and none behind it, has the value written. -/
theorem getLsbD_run_cons_of_covered {x : Masked ι w} {xs : List (Masked ι w)} {b : ι → BitVec w}
    {i : Nat} (hx : x.mask.getLsbD i = true)
    (hfree : (bitsAt (xs.map shape) x.reg).getLsbD i = false) :
    (run b (x :: xs) x.reg).getLsbD i = x.val.getLsbD i := by
  refine (getLsbD_run_of_free xs x.reg i (apply b x) hfree).trans ?_
  rw [getLsbD_apply, if_pos ⟨rfl, hx⟩]

theorem agreeOn_run_iff {P : ι → Nat → Prop} {xs : List (Masked ι w)} {b b' : ι → BitVec w} :
    AgreeOn P (run b xs) (run b' xs) ↔
      AgreeOn (fun a i => P a i ∧ (bitsAt (xs.map shape) a).getLsbD i = false) b b' := by
  constructor
  · rintro h a i ⟨hp, hfree⟩
    exact (getLsbD_run_eq_iff xs a i b b').mp (h a i hp) hfree
  · intro h a i hp
    exact (getLsbD_run_eq_iff xs a i b b').mpr fun hfree => h a i ⟨hp, hfree⟩

/-- The bits of `ms` without those of `ns` are those of `rest`. -/
def Minus (ms ns rest : List (ι × BitVec w)) : Prop :=
  ∀ a, bitsAt ms a &&& ~~~bitsAt ns a = bitsAt rest a

/-- It can be decided at the registers that occur. -/
theorem minus_of_forall_mem {ms ns rest : List (ι × BitVec w)}
    (h : ∀ m ∈ ms ++ rest, bitsAt ms m.1 &&& ~~~bitsAt ns m.1 = bitsAt rest m.1) :
    Minus ms ns rest := by
  intro a
  by_cases ha : ∃ m ∈ ms ++ rest, m.1 = a
  · obtain ⟨m, hm, rfl⟩ := ha
    exact h m hm
  · have hnone : ∀ m ∈ ms ++ rest, m.1 ≠ a := fun m hm heq => ha ⟨m, hm, heq⟩
    rw [bitsAt_eq_zero fun m hm => hnone m (List.mem_append_left _ hm),
      bitsAt_eq_zero fun m hm => hnone m (List.mem_append_right _ hm), BitVec.zero_and]

theorem Minus.getLsbD_iff {ms ns rest : List (ι × BitVec w)} (h : Minus ms ns rest) (a : ι)
    (i : Nat) : (bitsAt ms a).getLsbD i = true ∧ (bitsAt ns a).getLsbD i = false ↔
      (bitsAt rest a).getLsbD i = true := by
  rw [← h a, BitVec.getLsbD_and, BitVec.getLsbD_not]
  by_cases hi : i < w
  · simp [hi]
  · simp [BitVec.getLsbD_of_ge (bitsAt ms a) i (Nat.le_of_not_lt hi)]

end Masked

end Airoha.Lib
