/-
Airoha.Bmt.Relocate — where `update_bmt_bbt` puts the tables when writes fail.

The two retry loops of `update_bmt_bbt` are one loop with parameters
(`retryLoop`): write, and if that fails mark the block bad and move on by one
block, at most `n` times. `moves` is how often it moves on for a given
pattern of failures, `retryLoop_run` what it tries on the way.

The loops move blindly. `ClearPath` collects what has to hold of the blocks they
pass for the tables to land on free pool blocks, and
`relocates_iff_clearPath` says that this is exactly when they do.
-/
import Mathlib
import Airoha.Bmt.Crash

namespace Airoha.Bmt

open Airoha.Lib

variable {g : Geometry}

/-! ## One retry loop -/

/-- How often a retry loop moves on if its first write is call number `w` of
`_write_oob` and it may move `n` times: a failed write and the mark
after it are two calls. -/
def moves (fails : Nat → Bool) : Nat → Nat → Nat
  | _, 0 => 0
  | w, n + 1 => if fails w then moves fails (w + 2) n + 1 else 0

theorem moves_le (fails : Nat → Bool) : ∀ w n, moves fails w n ≤ n
  | _, 0 => Nat.le_refl 0
  | w, n + 1 => by
      have ih := moves_le fails (w + 2) n
      unfold moves
      split <;> omega

/-- `retry_bmt` and `retry_bbt`: `op` is the write, `idx` the block it goes to and
`next` the move. -/
def retryLoop (g : Geometry) (op : Ram → FlashOp) (idx : Ram → Nat) (next : Ram → Ram) :
    Nat → Machine → Machine × Bool
  | n, m =>
      let (m, ok) := m.writeOob g (op m.ram)
      if ok then (m, true)
      else
        let m := m.markBad g (idx m.ram)
        match n with
        | 0 => (m, false)
        | n + 1 => retryLoop g op idx next n { m with ram := next m.ram }

def writeBmtOp (ram : Ram) : FlashOp := .writeBmt ram.bmtIndex ram.bmt

def writeBbtOp (ram : Ram) : FlashOp := .writeBbt ram.bbtIndex ram.bbt

def bmtDown (ram : Ram) : Ram := { ram with bmtIndex := ram.bmtIndex - 1 }

def bbtUp (ram : Ram) : Ram := { ram with bbtIndex := ram.bbtIndex + 1 }

/-- The machine after a `_write_oob` that failed. -/
def Machine.failed (m : Machine) (op : FlashOp) : Machine :=
  { m with writes := m.writes + 1, log := m.log ++ [(op, m.flash)] }

theorem writeOob_of_fails {m : Machine} (h : m.writeFails m.writes = true) (op : FlashOp) :
    m.writeOob g op = (m.failed op, false) := by
  unfold Machine.writeOob
  rw [if_pos h]
  rfl

theorem writeOob_of_succeeds {m : Machine} (h : m.writeFails m.writes = false) (op : FlashOp) :
    m.writeOob g op =
      ({ m with flash := op.apply g m.flash, writes := m.writes + 1,
                log := m.log ++ [(op, m.flash)] }, true) := by
  unfold Machine.writeOob
  rw [if_neg (by rw [h]; exact Bool.false_ne_true)]

theorem retryBmt_eq (g : Geometry) (n : Nat) (m : Machine) :
    retryBmt g n m = retryLoop g writeBmtOp Ram.bmtIndex bmtDown n m := by
  induction n generalizing m with
  | zero => rfl
  | succ n ih =>
    unfold retryBmt retryLoop
    simp only [ih]
    rfl

theorem retryBbt_eq (g : Geometry) (n : Nat) (m : Machine) :
    retryBbt g n m = (retryLoop g writeBbtOp Ram.bbtIndex bbtUp n m).1 := by
  induction n generalizing m with
  | zero =>
    unfold retryBbt retryLoop
    cases h : m.writeFails m.writes with
    | false => simp only [writeOob_of_succeeds h]; rfl
    | true => simp only [writeOob_of_fails h]; rfl
  | succ n ih =>
    unfold retryBbt retryLoop
    simp only [ih]
    cases h : m.writeFails m.writes with
    | false => simp only [writeOob_of_succeeds h]; rfl
    | true => simp only [writeOob_of_fails h]; rfl

/-! ### What the loop does -/

/-- What `mark_bad` leaves alone, whether its write succeeds or not. -/
theorem markBad_effect (m : Machine) (b : Nat) :
    (m.markBad g b).writes = m.writes + 1 ∧ (m.markBad g b).writeFails = m.writeFails ∧
      (m.markBad g b).log =
        m.log ++ [(.writeFdm b (badMark m.ram.systemBlks b), m.flash)] ∧
      ∀ x, x ≠ b → isBad (m.markBad g b).flash x = isBad m.flash x := by
  unfold Machine.markBad
  cases h : m.writeFails m.writes with
  | true =>
    rw [writeOob_of_fails h]
    exact ⟨rfl, rfl, rfl, fun x _ => rfl⟩
  | false =>
    rw [writeOob_of_succeeds h]
    refine ⟨rfl, rfl, rfl, fun x hx => ?_⟩
    show isBad (FlashOp.apply g _ m.flash) x = _
    unfold isBad
    have hne : x ≠ (FlashOp.writeFdm b (badMark m.ram.systemBlks b)).blk := hx
    rw [FlashOp.apply_of_ne hne]

section Loop

variable {op : Ram → FlashOp} {idx : Ram → Nat} {next : Ram → Ram}

/-- The loop that starts on `m` and may move `n` times ends in `r`. -/
structure RetryRun (op : Ram → FlashOp) (idx : Ram → Nat) (next : Ram → Ram) (n : Nat)
    (m : Machine) (r : Machine × Bool) : Prop where
  ram : r.1.ram = next^[moves m.writeFails m.writes n] m.ram
  done : r.2 = !m.writeFails (m.writes + 2 * moves m.writeFails m.writes n)
  writes : r.2 = true → r.1.writes = m.writes + 2 * moves m.writeFails m.writes n + 1
  fails : r.1.writeFails = m.writeFails
  bad : ∀ x, (∀ i, i ≤ moves m.writeFails m.writes n → x ≠ idx (next^[i] m.ram)) →
    isBad r.1.flash x = isBad m.flash x
  log : ∃ steps, r.1.log = m.log ++ steps ∧
    (∀ o f, (o, f) ∈ steps → (∃ b fdm, o = .writeFdm b fdm) ∨
      ∃ i, i ≤ moves m.writeFails m.writes n ∧ o = op (next^[i] m.ram) ∧
        isBad f (idx (next^[i] m.ram)) = isBad m.flash (idx (next^[i] m.ram))) ∧
    ∀ i, i ≤ moves m.writeFails m.writes n → ∃ f, (op (next^[i] m.ram), f) ∈ steps ∧
      isBad f (idx (next^[i] m.ram)) = isBad m.flash (idx (next^[i] m.ram))

/-- A write that succeeds ends the loop. -/
theorem retryRun_of_succeeds (hop : ∀ r f, (op r).SparesOob f) {n : Nat} {m : Machine}
    (h : m.writeFails m.writes = false) :
    RetryRun op idx next n m (retryLoop g op idx next n m) := by
  have hk : moves m.writeFails m.writes n = 0 := by
    cases n with
    | zero => rfl
    | succ n => unfold moves; rw [h]; rfl
  have hr : retryLoop g op idx next n m =
      ({ m with flash := (op m.ram).apply g m.flash, writes := m.writes + 1,
                log := m.log ++ [(op m.ram, m.flash)] }, true) := by
    unfold retryLoop
    rw [writeOob_of_succeeds h]
    rfl
  rw [hr]
  refine ⟨by rw [hk]; rfl, by rw [hk]; exact h ▸ rfl, fun _ => by rw [hk], rfl, fun x _ => ?_,
    [(op m.ram, m.flash)], rfl, fun o f ho => ?_, fun i hi => ?_⟩
  · exact (hop m.ram m.flash).sameOob.isBad x
  · obtain ⟨rfl, rfl⟩ := Prod.mk.inj (List.mem_singleton.mp ho)
    exact Or.inr ⟨0, Nat.zero_le _, rfl, rfl⟩
  · rw [hk] at hi
    obtain rfl : i = 0 := by omega
    exact ⟨m.flash, List.mem_singleton.mpr rfl, rfl⟩

theorem retryLoop_run (hop : ∀ r f, (op r).SparesOob f) {n : Nat} {m : Machine}
    (hinj : ∀ i j, i ≤ n → j ≤ n → idx (next^[i] m.ram) = idx (next^[j] m.ram) → i = j) :
    RetryRun op idx next n m (retryLoop g op idx next n m) := by
  induction n generalizing m with
  | zero =>
    cases h : m.writeFails m.writes with
    | false => exact retryRun_of_succeeds hop h
    | true =>
      have hr : retryLoop g op idx next 0 m =
          ((m.failed (op m.ram)).markBad g (idx m.ram), false) := by
        unfold retryLoop
        rw [writeOob_of_fails h]
        rfl
      have hlog : (m.failed (op m.ram)).log = m.log ++ [(op m.ram, m.flash)] := rfl
      obtain ⟨-, he2, he3, he4⟩ := markBad_effect (g := g) (m.failed (op m.ram)) (idx m.ram)
      rw [hr]
      refine ⟨ram_markBad g _ _, ?_, fun hc => absurd hc Bool.false_ne_true, he2, fun x hx => ?_,
        [(op m.ram, m.flash), (.writeFdm (idx m.ram) (badMark m.ram.systemBlks (idx m.ram)),
          m.flash)], ?_, fun o f ho => ?_, fun i hi => ?_⟩
      · show false = !m.writeFails (m.writes + 0)
        rw [Nat.add_zero, h]
        rfl
      · exact he4 x (hx 0 (Nat.le_refl 0))
      · show (Machine.markBad g (idx m.ram) (m.failed (op m.ram))).log = _
        rw [he3, hlog, List.append_assoc]
        rfl
      · rcases List.mem_cons.mp ho with ho | ho
        · obtain ⟨rfl, rfl⟩ := Prod.mk.inj ho
          exact Or.inr ⟨0, Nat.le_refl 0, rfl, rfl⟩
        · obtain ⟨rfl, rfl⟩ := Prod.mk.inj (List.mem_singleton.mp ho)
          exact Or.inl ⟨_, _, rfl⟩
      · obtain rfl : i = 0 := Nat.le_zero.mp hi
        exact ⟨m.flash, List.mem_cons_self, rfl⟩
  | succ n ih =>
    cases h : m.writeFails m.writes with
    | false => exact retryRun_of_succeeds hop h
    | true =>
      -- the machine the next round starts on
      obtain ⟨m₁, hm₁⟩ : ∃ m₁, m₁ = (m.failed (op m.ram)).markBad g (idx m.ram) := ⟨_, rfl⟩
      have hlog : (m.failed (op m.ram)).log = m.log ++ [(op m.ram, m.flash)] := rfl
      obtain ⟨he1, he2, he3, he4⟩ := markBad_effect (g := g) (m.failed (op m.ram)) (idx m.ram)
      rw [← hm₁] at he1 he2 he3 he4
      have hram : m₁.ram = m.ram := by rw [hm₁]; exact ram_markBad g _ _
      have hr : retryLoop g op idx next (n + 1) m =
          retryLoop g op idx next n { m₁ with ram := next m.ram } := by
        rw [← hram, hm₁]
        conv_lhs => unfold retryLoop
        rw [writeOob_of_fails h]
        rfl
      have hk : moves m.writeFails m.writes (n + 1) =
          moves m.writeFails (m.writes + 2) n + 1 := by
        conv_lhs => unfold moves
        rw [if_pos h]
      have hrun := ih (m := { m₁ with ram := next m.ram }) fun i j hi hj hij => by
        have := hinj (i + 1) (j + 1) (by omega) (by omega) hij
        omega
      have hmoves : moves ({ m₁ with ram := next m.ram } : Machine).writeFails
          ({ m₁ with ram := next m.ram } : Machine).writes n =
          moves m.writeFails (m.writes + 2) n := by
        show moves m₁.writeFails m₁.writes n = _
        rw [he1, he2]
        rfl
      have hle := moves_le m.writeFails (m.writes + 2) n
      rw [hr]
      generalize retryLoop g op idx next n { m₁ with ram := next m.ram } = r at hrun ⊢
      obtain ⟨hr1, hr2, hr3, hr4, hr5, steps, hr6, hr7, hr8⟩ := hrun
      rw [hmoves] at hr1 hr2 hr3 hr5 hr7 hr8
      have hw : ({ m₁ with ram := next m.ram } : Machine).writes = m.writes + 2 := he1
      have hfl : ({ m₁ with ram := next m.ram } : Machine).writeFails = m.writeFails := he2
      rw [hfl, hw] at hr2
      rw [hw] at hr3
      have harith : m.writes + 2 + 2 * moves m.writeFails (m.writes + 2) n =
          m.writes + 2 * (moves m.writeFails (m.writes + 2) n + 1) := by omega
      rw [harith] at hr2 hr3
      -- the first block is none of the later ones
      have hfresh : ∀ i, i ≤ n → idx (next^[i] (next m.ram)) ≠ idx m.ram := by
        intro i hi heq
        have := hinj (i + 1) 0 (by omega) (by omega) heq
        omega
      have hlater : ∀ i, i ≤ n → isBad m₁.flash (idx (next^[i] (next m.ram))) =
          isBad m.flash (idx (next^[i] (next m.ram))) := fun i hi => he4 _ (hfresh i hi)
      refine ⟨?_, ?_, ?_, hr4.trans hfl, fun x hx => ?_, (op m.ram, m.flash) ::
        (.writeFdm (idx m.ram) (badMark m.ram.systemBlks (idx m.ram)), m.flash) :: steps,
        ?_, fun o f ho => ?_, fun i hi => ?_⟩
      · rw [hk]
        exact hr1
      · rw [hk]
        exact hr2
      · rw [hk]
        exact hr3
      · rw [hk] at hx
        rw [hr5 x fun i hi => hx (i + 1) (by omega)]
        exact he4 x (hx 0 (Nat.zero_le _))
      · rw [hr6]
        show m₁.log ++ steps = _
        rw [he3, hlog, List.append_assoc, List.append_assoc]
        rfl
      · rw [hk]
        rcases List.mem_cons.mp ho with ho | ho
        · obtain ⟨rfl, rfl⟩ := Prod.mk.inj ho
          exact Or.inr ⟨0, Nat.zero_le _, rfl, rfl⟩
        · rcases List.mem_cons.mp ho with ho | ho
          · obtain ⟨rfl, rfl⟩ := Prod.mk.inj ho
            exact Or.inl ⟨_, _, rfl⟩
          · rcases hr7 o f ho with hc | ⟨i, hi, ho1, ho2⟩
            · exact Or.inl hc
            · exact Or.inr ⟨i + 1, by omega, ho1, ho2.trans (hlater i (by omega))⟩
      · rw [hk] at hi
        cases i with
        | zero => exact ⟨m.flash, List.mem_cons_self, rfl⟩
        | succ i =>
          obtain ⟨f, hf1, hf2⟩ := hr8 i (by omega)
          exact ⟨f, List.mem_cons_of_mem _ (List.mem_cons_of_mem _ hf1),
            hf2.trans (hlater i (by omega))⟩

end Loop

/-! ## `update_bmt_bbt` -/

/-- The driver about to run a function during which the `_write_oob` calls of
`fails` fail. -/
def State.failing (s : State) (fails : Nat → Bool) : Machine := ⟨s.flash, s.ram, fails, 0, []⟩

/-- The index blocks are two pool blocks that no row points to. -/
structure IndexInv (g : Geometry) (ram : Ram) : Prop where
  bmt_pool : ram.systemBlks ≤ ram.bmtIndex ∧ ram.bmtIndex < g.totalBlks
  bbt_pool : ram.systemBlks ≤ ram.bbtIndex ∧ ram.bbtIndex < g.totalBlks
  index_ne : ram.bmtIndex ≠ ram.bbtIndex
  notTarget : ∀ e ∈ ram.bmt.live, e.toBlk.toNat ≠ ram.bmtIndex ∧ e.toBlk.toNat ≠ ram.bbtIndex

/-- A block a table may be written to, on the flash before the write. -/
def Spare (g : Geometry) (ram : Ram) (f : Flash) (b : Nat) : Prop :=
  ram.systemBlks ≤ b ∧ b < g.totalBlks ∧ isBad f b = false ∧
    ∀ e ∈ ram.bmt.live, e.toBlk.toNat ≠ b

/-- The tables went, or were tried, nowhere but to spare blocks, never both to
one block, and the indexes are in order again. -/
structure Relocates (g : Geometry) (s : State) (m' : Machine) : Prop where
  bmt : ∀ b t f, (.writeBmt b t, f) ∈ m'.log → Spare g s.ram f b
  bbt : ∀ b t f, (.writeBbt b t, f) ∈ m'.log → Spare g s.ram f b
  apart : ∀ b t f b' t' f', (.writeBmt b t, f) ∈ m'.log → (.writeBbt b' t', f') ∈ m'.log → b ≠ b'
  index : IndexInv g m'.ram

/-- How far `bmt_index` moves down. -/
def bmtMoves (s : State) (fails : Nat → Bool) : Nat :=
  moves fails 0 (s.ram.bmtIndex - s.ram.systemBlks)

/-- The last write of the bmt fails, so the bbt is not written at all. -/
def bmtGivenUp (s : State) (fails : Nat → Bool) : Bool := fails (2 * bmtMoves s fails)

/-- How far `bbt_index` moves up. -/
def bbtMoves (g : Geometry) (s : State) (fails : Nat → Bool) : Nat :=
  moves fails (2 * bmtMoves s fails + 1) (g.totalBlks - s.ram.bbtIndex)

/-- The blocks the failing writes push the indexes over are spare, the two ranges
do not meet, and a bmt that is given up does not end on the bbt. -/
structure ClearPath (g : Geometry) (s : State) (fails : Nat → Bool) : Prop where
  bmt : ∀ i, 0 < i → i ≤ bmtMoves s fails →
    (isBad s.flash (s.ram.bmtIndex - i) = false ∨ s.ram.bmtIndex - i = s.ram.bbtIndex) ∧
      ∀ e ∈ s.ram.bmt.live, e.toBlk.toNat ≠ s.ram.bmtIndex - i
  bbt : bmtGivenUp s fails = false → ∀ i, 0 < i → i ≤ bbtMoves g s fails →
    Spare g s.ram s.flash (s.ram.bbtIndex + i)
  apart : bmtGivenUp s fails = false → ∀ i j, i ≤ bmtMoves s fails → j ≤ bbtMoves g s fails →
    s.ram.bmtIndex - i ≠ s.ram.bbtIndex + j
  floor : bmtGivenUp s fails = true → s.ram.bbtIndex ≠ s.ram.systemBlks

/-- A loop that gives up moved as often as it may. -/
theorem moves_of_fails {fails : Nat → Bool} : ∀ {w n : Nat},
    fails (w + 2 * moves fails w n) = true → moves fails w n = n
  | _, 0, _ => rfl
  | w, n + 1, h => by
      unfold moves at h ⊢
      cases hw : fails w with
      | false =>
        rw [hw] at h
        simp only [Bool.false_eq_true, if_false, Nat.mul_zero, Nat.add_zero, hw] at h
      | true =>
        rw [hw] at h
        simp only [if_true] at h ⊢
        have harith : w + 2 * (moves fails (w + 2) n + 1) =
            w + 2 + 2 * moves fails (w + 2) n := by omega
        rw [harith] at h
        rw [moves_of_fails h]

theorem iterate_bmtDown (ram : Ram) : ∀ i,
    bmtDown^[i] ram = { ram with bmtIndex := ram.bmtIndex - i }
  | 0 => rfl
  | i + 1 => by
      rw [Function.iterate_succ_apply', iterate_bmtDown ram i]
      rfl

theorem iterate_bbtUp (ram : Ram) : ∀ i,
    bbtUp^[i] ram = { ram with bbtIndex := ram.bbtIndex + i }
  | 0 => rfl
  | i + 1 => by
      rw [Function.iterate_succ_apply', iterate_bbtUp ram i]
      rfl

/-- What `update_bmt_bbt` tries, with the flash `f₂` after the two erases. -/
structure TableRun (g : Geometry) (s : State) (fails : Nat → Bool) (f₂ : Flash) (m' : Machine) :
    Prop where
  ram : ∃ bmt bbt, bmt.live = s.ram.bmt.live ∧
    m'.ram = { s.ram with
      bmt := bmt
      bbt := bbt
      bmtIndex := s.ram.bmtIndex - bmtMoves s fails
      bbtIndex := s.ram.bbtIndex +
        if bmtGivenUp s fails then 0 else bbtMoves g s fails }
  bmt : ∀ b t f, (.writeBmt b t, f) ∈ m'.log → ∃ i, i ≤ bmtMoves s fails ∧
    b = s.ram.bmtIndex - i ∧ isBad f b = isBad f₂ b
  bbt : ∀ b t f, (.writeBbt b t, f) ∈ m'.log → bmtGivenUp s fails = false ∧
    ∃ i, i ≤ bbtMoves g s fails ∧ b = s.ram.bbtIndex + i ∧
      ((∀ j, j ≤ bmtMoves s fails → b ≠ s.ram.bmtIndex - j) → isBad f b = isBad f₂ b)
  bmt_tried : ∀ i, i ≤ bmtMoves s fails → ∃ t f, (.writeBmt (s.ram.bmtIndex - i) t, f) ∈ m'.log ∧
    isBad f (s.ram.bmtIndex - i) = isBad f₂ (s.ram.bmtIndex - i)
  bbt_tried : bmtGivenUp s fails = false → ∀ i, i ≤ bbtMoves g s fails →
    ∃ t f, (.writeBbt (s.ram.bbtIndex + i) t, f) ∈ m'.log ∧
      ((∀ j, j ≤ bmtMoves s fails → s.ram.bbtIndex + i ≠ s.ram.bmtIndex - j) →
        isBad f (s.ram.bbtIndex + i) = isBad f₂ (s.ram.bbtIndex + i))

/-- `retry_bmt` on a machine whose next `_write_oob` call is number 0. -/
theorem bmtLoop_run {s : State} {fails : Nat → Bool} {m : Machine} (hram : m.ram = s.ram.sealed)
    (hfails : m.writeFails = fails) (hwrites : m.writes = 0)
    (hsys : s.ram.systemBlks ≤ s.ram.bmtIndex) :
    ∃ r, retryBmt g (s.ram.bmtIndex - s.ram.systemBlks) m = r ∧
      r.1.ram = { s.ram.sealed with bmtIndex := s.ram.bmtIndex - bmtMoves s fails } ∧
      r.2 = !bmtGivenUp s fails ∧ (r.2 = true → r.1.writes = 2 * bmtMoves s fails + 1) ∧
      r.1.writeFails = fails ∧
      (∀ x, (∀ i, i ≤ bmtMoves s fails → x ≠ s.ram.bmtIndex - i) →
        isBad r.1.flash x = isBad m.flash x) ∧
      ∃ steps, r.1.log = m.log ++ steps ∧
        (∀ o f, (o, f) ∈ steps → (∃ b fdm, o = .writeFdm b fdm) ∨
          ∃ i, i ≤ bmtMoves s fails ∧
            o = .writeBmt (s.ram.bmtIndex - i) s.ram.sealed.bmt ∧
            isBad f (s.ram.bmtIndex - i) = isBad m.flash (s.ram.bmtIndex - i)) ∧
        ∀ i, i ≤ bmtMoves s fails → ∃ f,
          (.writeBmt (s.ram.bmtIndex - i) s.ram.sealed.bmt, f) ∈ steps ∧
            isBad f (s.ram.bmtIndex - i) = isBad m.flash (s.ram.bmtIndex - i) := by
  have hinj : ∀ i j, i ≤ s.ram.bmtIndex - s.ram.systemBlks →
      j ≤ s.ram.bmtIndex - s.ram.systemBlks →
      (bmtDown^[i] m.ram).bmtIndex = (bmtDown^[j] m.ram).bmtIndex → i = j := by
    intro i j hi hj hij
    rw [iterate_bmtDown, iterate_bmtDown, hram] at hij
    have hij' : s.ram.bmtIndex - i = s.ram.bmtIndex - j := hij
    omega
  have hop : ∀ (r : Ram) (f : Flash), (writeBmtOp r).SparesOob f := fun _ _ => trivial
  obtain ⟨h1, h2, h3, h4, h5, steps, h6, h7, h8⟩ := retryLoop_run (g := g) hop hinj
  have hk : moves m.writeFails m.writes (s.ram.bmtIndex - s.ram.systemBlks) =
      bmtMoves s fails := by
    rw [hfails, hwrites]
    rfl
  rw [← retryBmt_eq, hk] at h1 h2 h3 h5
  rw [← retryBmt_eq] at h4 h6
  rw [hk] at h7 h8
  simp only [iterate_bmtDown, hram] at h1 h5 h7 h8
  rw [hfails, hwrites, Nat.zero_add] at h2
  rw [hwrites, Nat.zero_add] at h3
  exact ⟨_, rfl, h1, h2, h3, h4.trans hfails, h5, steps, h6, h7, h8⟩

/-- `retry_bbt` after the bmt was written. -/
theorem bbtLoop_run {s : State} {fails : Nat → Bool} {m : Machine}
    (hram : m.ram = { s.ram.sealed with bmtIndex := s.ram.bmtIndex - bmtMoves s fails })
    (hfails : m.writeFails = fails) (hwrites : m.writes = 2 * bmtMoves s fails + 1) :
    ∃ m', retryBbt g (g.totalBlks - s.ram.bbtIndex) m = m' ∧
      m'.ram = { m.ram with bbtIndex := s.ram.bbtIndex + bbtMoves g s fails } ∧
      ∃ steps, m'.log = m.log ++ steps ∧
        (∀ o f, (o, f) ∈ steps → (∃ b fdm, o = .writeFdm b fdm) ∨
          ∃ i, i ≤ bbtMoves g s fails ∧
            o = .writeBbt (s.ram.bbtIndex + i) s.ram.sealed.bbt ∧
            isBad f (s.ram.bbtIndex + i) = isBad m.flash (s.ram.bbtIndex + i)) ∧
        ∀ i, i ≤ bbtMoves g s fails → ∃ f,
          (.writeBbt (s.ram.bbtIndex + i) s.ram.sealed.bbt, f) ∈ steps ∧
            isBad f (s.ram.bbtIndex + i) = isBad m.flash (s.ram.bbtIndex + i) := by
  have hinj : ∀ i j, i ≤ g.totalBlks - s.ram.bbtIndex → j ≤ g.totalBlks - s.ram.bbtIndex →
      (bbtUp^[i] m.ram).bbtIndex = (bbtUp^[j] m.ram).bbtIndex → i = j := by
    intro i j _ _ hij
    rw [iterate_bbtUp, iterate_bbtUp] at hij
    exact Nat.add_left_cancel hij
  have hop : ∀ (r : Ram) (f : Flash), (writeBbtOp r).SparesOob f := fun _ _ => trivial
  obtain ⟨h1, -, -, -, -, steps, h6, h7, h8⟩ := retryLoop_run (g := g) hop hinj
  have hk : moves m.writeFails m.writes (g.totalBlks - s.ram.bbtIndex) = bbtMoves g s fails := by
    rw [hfails, hwrites]
    rfl
  rw [← retryBbt_eq, hk] at h1
  rw [← retryBbt_eq] at h6
  rw [hk] at h7 h8
  simp only [iterate_bbtUp] at h1 h7 h8
  have hbmt : m.ram.bbtIndex = s.ram.bbtIndex := by rw [hram]; rfl
  have hbbt : m.ram.bbt = s.ram.sealed.bbt := by rw [hram]
  unfold writeBbtOp at h7 h8
  simp only [hbmt] at h1
  simp only [hbmt, hbbt] at h7 h8
  exact ⟨_, rfl, h1, steps, h6, h7, h8⟩

theorem updateBmtBbt_run {s : State} (h : IndexInv g s.ram) (fails : Nat → Bool) :
    ∃ m', updateBmtBbt g (s.failing fails) = .ok m' ∧
      TableRun g s fails
        (applyAll g [.erase s.ram.bmtIndex, .erase s.ram.bbtIndex] s.flash) m' := by
  have hu16 := g.totalBlks_u16
  have hb1 := h.bbt_pool
  have hm1 := h.bmt_pool
  have hnb : s.ram.bbtIndex ≠ noIndex := by unfold noIndex; omega
  have hnm : s.ram.bmtIndex ≠ noIndex := by unfold noIndex; omega
  have hch : chooseIndexes g (s.failing fails).flash (s.failing fails).ram.sealed =
      .ok s.ram.sealed := chooseIndexes_of_chosen hnb hnm
  have hret : updateBmtBbt g (s.failing fails) =
      .ok (writeTables g { s.failing fails with ram := s.ram.sealed }) := by
    unfold updateBmtBbt
    rw [hch]
    rfl
  refine ⟨_, hret, ?_⟩
  -- the machine after the erases
  obtain ⟨m₂, hm₂⟩ : ∃ m₂ : Machine, m₂ =
      (({ s.failing fails with ram := s.ram.sealed } : Machine).step g
        (.erase s.ram.bmtIndex)).step g (.erase s.ram.bbtIndex) := ⟨_, rfl⟩
  have hflash : m₂.flash = applyAll g [.erase s.ram.bmtIndex, .erase s.ram.bbtIndex] s.flash := by
    rw [hm₂]
    rfl
  have hram : m₂.ram = s.ram.sealed := by rw [hm₂]; rfl
  have hfails : m₂.writeFails = fails := by rw [hm₂]; rfl
  have hwrites : m₂.writes = 0 := by rw [hm₂]; rfl
  have hlog : ∀ o f, (o, f) ∈ m₂.log → ∃ b, o = .erase b := by
    intro o f hof
    rw [hm₂] at hof
    have hof' : (o, f) ∈ [(FlashOp.erase s.ram.bmtIndex, s.flash), (.erase s.ram.bbtIndex,
        (FlashOp.erase s.ram.bmtIndex).apply g s.flash)] := hof
    simp only [List.mem_cons, List.not_mem_nil, or_false, Prod.mk.injEq] at hof'
    rcases hof' with ⟨rfl, -⟩ | ⟨rfl, -⟩
    · exact ⟨_, rfl⟩
    · exact ⟨_, rfl⟩
  have hwt : writeTables g { s.failing fails with ram := s.ram.sealed } =
      (let r := retryBmt g (s.ram.bmtIndex - s.ram.systemBlks) m₂
        if r.2 then retryBbt g (g.totalBlks - r.1.ram.bbtIndex) r.1 else r.1) := by
    rw [hm₂]
    rfl
  obtain ⟨r, hr, hr1, hr2, hr3, hr4, hr5, steps, hr6, hr7, hr8⟩ :=
    bmtLoop_run (g := g) hram hfails hwrites hm1.1
  -- the first loop tries the bmt only
  have hbmt : ∀ b t f, (.writeBmt b t, f) ∈ r.1.log → ∃ i, i ≤ bmtMoves s fails ∧
      b = s.ram.bmtIndex - i ∧ isBad f b = isBad m₂.flash b := by
    intro b t f hof
    rw [hr6] at hof
    rcases List.mem_append.mp hof with hof | hof
    · obtain ⟨_, hc⟩ := hlog _ _ hof
      cases hc
    · rcases hr7 _ _ hof with ⟨_, _, hc⟩ | ⟨i, hi, ho, hb⟩
      · cases hc
      · cases ho
        exact ⟨i, hi, rfl, hb⟩
  have hnobbt : ∀ b t f, (.writeBbt b t, f) ∉ r.1.log := by
    intro b t f hof
    rw [hr6] at hof
    rcases List.mem_append.mp hof with hof | hof
    · obtain ⟨_, hc⟩ := hlog _ _ hof
      cases hc
    · rcases hr7 _ _ hof with ⟨_, _, hc⟩ | ⟨i, hi, ho, hb⟩
      · cases hc
      · cases ho
  have htried : ∀ i, i ≤ bmtMoves s fails → ∃ t f,
      (.writeBmt (s.ram.bmtIndex - i) t, f) ∈ r.1.log ∧
        isBad f (s.ram.bmtIndex - i) = isBad m₂.flash (s.ram.bmtIndex - i) := by
    intro i hi
    obtain ⟨f, hf1, hf2⟩ := hr8 i hi
    exact ⟨_, f, by rw [hr6]; exact List.mem_append_right _ hf1, hf2⟩
  rw [hwt, hr, ← hflash]
  cases hgu : bmtGivenUp s fails with
  | true =>
    rw [hgu] at hr2
    have hres : (let r := r; if r.2 then retryBbt g (g.totalBlks - r.1.ram.bbtIndex) r.1 else r.1) =
        r.1 := by
      show (if r.2 = true then _ else _) = _
      rw [if_neg (by rw [hr2]; exact Bool.false_ne_true)]
    rw [hres]
    refine ⟨⟨s.ram.sealed.bmt, s.ram.sealed.bbt, rfl, ?_⟩, hbmt,
      fun b t f hof => absurd hof (hnobbt b t f), htried, fun hc => ?_⟩
    · rw [hr1, hgu]
      rfl
    · rw [hgu] at hc
      cases hc
  | false =>
    have hok : r.2 = true := by rw [hr2, hgu]; rfl
    have hbi : r.1.ram.bbtIndex = s.ram.bbtIndex := by rw [hr1]; rfl
    obtain ⟨m', hm', hb1, steps', hb6, hb7, hb8⟩ := bbtLoop_run (g := g) hr1 hr4 (hr3 hok)
    have hres : (let r := r; if r.2 then retryBbt g (g.totalBlks - r.1.ram.bbtIndex) r.1 else r.1) =
        m' := by
      show (if r.2 = true then _ else _) = _
      rw [if_pos hok, hbi, hm']
    rw [hres]
    refine ⟨⟨s.ram.sealed.bmt, s.ram.sealed.bbt, rfl, ?_⟩, fun b t f hof => ?_,
      fun b t f hof => ⟨hgu, ?_⟩, fun i hi => ?_, fun _ i hi => ?_⟩
    · rw [hb1, hr1, hgu]
      rfl
    · rw [hb6] at hof
      rcases List.mem_append.mp hof with hof | hof
      · exact hbmt b t f hof
      · rcases hb7 _ _ hof with ⟨_, _, hc⟩ | ⟨i, hi, ho, hb⟩
        · cases hc
        · cases ho
    · rw [hb6] at hof
      rcases List.mem_append.mp hof with hof | hof
      · exact absurd hof (hnobbt b t f)
      · rcases hb7 _ _ hof with ⟨_, _, hc⟩ | ⟨i, hi, ho, hb⟩
        · cases hc
        · cases ho
          exact ⟨i, hi, rfl, fun hx => hb.trans (hr5 _ hx)⟩
    · obtain ⟨t, f, hf1, hf2⟩ := htried i hi
      exact ⟨t, f, by rw [hb6]; exact List.mem_append_left _ hf1, hf2⟩
    · obtain ⟨f, hf1, hf2⟩ := hb8 i hi
      refine ⟨s.ram.sealed.bbt, f, ?_, fun hx => hf2.trans (hr5 _ hx)⟩
      rw [hb6]
      exact List.mem_append_right _ hf1

/-- The two erased blocks are no longer marked, the others are as before. -/
theorem isBad_erased {ram : Ram} {f : Flash} (h : IndexInv g ram) (x : Nat) :
    isBad (applyAll g [.erase ram.bmtIndex, .erase ram.bbtIndex] f) x =
      if x = ram.bmtIndex ∨ x = ram.bbtIndex then false else isBad f x := by
  simp only [applyAll_cons, applyAll_nil]
  unfold isBad
  by_cases h1 : x = ram.bbtIndex
  · rw [if_pos (Or.inr h1), h1, apply_erase h.bbt_pool.2]
    rfl
  · have hne : x ≠ (FlashOp.erase ram.bbtIndex).blk := h1
    rw [FlashOp.apply_of_ne hne]
    by_cases h2 : x = ram.bmtIndex
    · rw [if_pos (Or.inl h2), h2, apply_erase h.bmt_pool.2]
      rfl
    · have hne' : x ≠ (FlashOp.erase ram.bmtIndex).blk := h2
      rw [FlashOp.apply_of_ne hne', if_neg (by tauto)]

theorem bmtMoves_le (s : State) (fails : Nat → Bool) :
    bmtMoves s fails ≤ s.ram.bmtIndex - s.ram.systemBlks :=
  moves_le _ _ _

/-- A bmt that is given up ends on the first pool block. -/
theorem bmtIndex_of_givenUp {s : State} {fails : Nat → Bool}
    (hsys : s.ram.systemBlks ≤ s.ram.bmtIndex) (h : bmtGivenUp s fails = true) :
    s.ram.bmtIndex - bmtMoves s fails = s.ram.systemBlks := by
  have h' : fails (0 + 2 * moves fails 0 (s.ram.bmtIndex - s.ram.systemBlks)) = true := by
    rw [Nat.zero_add]
    exact h
  have hmax : bmtMoves s fails = s.ram.bmtIndex - s.ram.systemBlks := moves_of_fails h'
  omega

/-- If the tables only went where they may go, the path was clear. -/
theorem Relocates.clearPath {s : State} {fails : Nat → Bool} {m' : Machine}
    (h : IndexInv g s.ram)
    (hrun : TableRun g s fails
      (applyAll g [.erase s.ram.bmtIndex, .erase s.ram.bbtIndex] s.flash) m')
    (hrel : Relocates g s m') : ClearPath g s fails := by
  have hm1 := h.bmt_pool
  have hle := bmtMoves_le s fails
  have hapart : bmtGivenUp s fails = false → ∀ i j, i ≤ bmtMoves s fails →
      j ≤ bbtMoves g s fails → s.ram.bmtIndex - i ≠ s.ram.bbtIndex + j := by
    intro hgu i j hi hj
    obtain ⟨t, f, hf, -⟩ := hrun.bmt_tried i hi
    obtain ⟨u, f', hf', -⟩ := hrun.bbt_tried hgu j hj
    exact hrel.apart _ t f _ u f' hf hf'
  refine ⟨fun i hi hik => ?_, fun hgu i hi hij => ?_, hapart, fun hgu => ?_⟩
  · obtain ⟨t, f, hf, hbad⟩ := hrun.bmt_tried i hik
    obtain ⟨-, -, hgood, htarget⟩ := hrel.bmt _ t f hf
    rw [hbad, isBad_erased h] at hgood
    refine ⟨?_, htarget⟩
    by_cases hb : s.ram.bmtIndex - i = s.ram.bbtIndex
    · exact Or.inr hb
    · rw [if_neg (by omega)] at hgood
      exact Or.inl hgood
  · obtain ⟨t, f, hf, hbad⟩ := hrun.bbt_tried hgu i hij
    obtain ⟨hlo, hhi, hgood, htarget⟩ := hrel.bbt _ t f hf
    have hoff : ∀ j, j ≤ bmtMoves s fails → s.ram.bbtIndex + i ≠ s.ram.bmtIndex - j :=
      fun j hj heq => hapart hgu j i hj hij heq.symm
    have hne := hoff 0 (Nat.zero_le _)
    rw [hbad hoff, isBad_erased h, if_neg (by omega)] at hgood
    exact ⟨hlo, hhi, hgood, htarget⟩
  · obtain ⟨bmt, bbt, -, hram⟩ := hrun.ram
    have hne := hrel.index.index_ne
    rw [hram] at hne
    have hne' : s.ram.bmtIndex - bmtMoves s fails ≠
        s.ram.bbtIndex + if bmtGivenUp s fails then 0 else bbtMoves g s fails := hne
    rw [bmtIndex_of_givenUp hm1.1 hgu, if_pos hgu, Nat.add_zero] at hne'
    exact hne'.symm

/-- On a clear path the tables only go where they may go. -/
theorem ClearPath.relocates {s : State} {fails : Nat → Bool} {m' : Machine}
    (h : IndexInv g s.ram)
    (hrun : TableRun g s fails
      (applyAll g [.erase s.ram.bmtIndex, .erase s.ram.bbtIndex] s.flash) m')
    (hclear : ClearPath g s fails) : Relocates g s m' := by
  have hm1 := h.bmt_pool
  have hb1 := h.bbt_pool
  have hle := bmtMoves_le s fails
  have hbmtTarget : ∀ i, i ≤ bmtMoves s fails → ∀ e ∈ s.ram.bmt.live,
      e.toBlk.toNat ≠ s.ram.bmtIndex - i := by
    intro i hi e he
    by_cases hi0 : i = 0
    · rw [hi0]
      exact (h.notTarget e he).1
    · exact (hclear.bmt i (Nat.pos_of_ne_zero hi0) hi).2 e he
  have hbbtSpare : bmtGivenUp s fails = false → ∀ i, i ≤ bbtMoves g s fails →
      s.ram.bbtIndex + i < g.totalBlks ∧ ∀ e ∈ s.ram.bmt.live,
        e.toBlk.toNat ≠ s.ram.bbtIndex + i := by
    intro hgu i hi
    by_cases hi0 : i = 0
    · rw [hi0]
      exact ⟨hb1.2, fun e he => (h.notTarget e he).2⟩
    · obtain ⟨-, h2, -, h4⟩ := hclear.bbt hgu i (Nat.pos_of_ne_zero hi0) hi
      exact ⟨h2, h4⟩
  refine ⟨fun b t f hof => ?_, fun b t f hof => ?_, fun b t f b' t' f' hof hof' => ?_, ?_⟩
  · obtain ⟨i, hi, rfl, hbad⟩ := hrun.bmt b t f hof
    refine ⟨by omega, by omega, ?_, hbmtTarget i hi⟩
    rw [hbad, isBad_erased h]
    by_cases hidx : s.ram.bmtIndex - i = s.ram.bmtIndex ∨ s.ram.bmtIndex - i = s.ram.bbtIndex
    · rw [if_pos hidx]
    · rw [if_neg hidx]
      rw [not_or] at hidx
      exact (hclear.bmt i (by omega) hi).1.resolve_right hidx.2
  · obtain ⟨hgu, i, hi, rfl, hbad⟩ := hrun.bbt b t f hof
    obtain ⟨h2, h4⟩ := hbbtSpare hgu i hi
    refine ⟨by omega, h2, ?_, h4⟩
    rw [hbad fun j hj heq => hclear.apart hgu j i hj hi heq.symm, isBad_erased h]
    by_cases hi0 : i = 0
    · rw [if_pos (Or.inr (by omega))]
    · have hne := hclear.apart hgu 0 i (Nat.zero_le _) hi
      rw [if_neg (by omega)]
      exact (hclear.bbt hgu i (Nat.pos_of_ne_zero hi0) hi).2.2.1
  · obtain ⟨i, hi, rfl, -⟩ := hrun.bmt b t f hof
    obtain ⟨hgu, j, hj, rfl, -⟩ := hrun.bbt b' t' f' hof'
    exact hclear.apart hgu i j hi hj
  · obtain ⟨bmt, bbt, hlive, hram⟩ := hrun.ram
    have hpool : s.ram.systemBlks ≤ s.ram.bmtIndex - bmtMoves s fails ∧
        s.ram.bmtIndex - bmtMoves s fails < g.totalBlks := by omega
    rw [hram]
    cases hgu : bmtGivenUp s fails with
    | true =>
      have hfloor := hclear.floor hgu
      have hsys := bmtIndex_of_givenUp hm1.1 hgu
      refine ⟨hpool, ⟨hb1.1, hb1.2⟩, ?_, fun e he => ?_⟩
      · show s.ram.bmtIndex - bmtMoves s fails ≠ s.ram.bbtIndex + 0
        omega
      · have he' : e ∈ s.ram.bmt.live := hlive ▸ he
        exact ⟨hbmtTarget _ (Nat.le_refl _) e he', (h.notTarget e he').2⟩
    | false =>
      obtain ⟨h2, h4⟩ := hbbtSpare hgu _ (Nat.le_refl _)
      refine ⟨hpool, ⟨?_, h2⟩, ?_, fun e he => ?_⟩
      · show s.ram.systemBlks ≤ s.ram.bbtIndex + _
        omega
      · exact hclear.apart hgu _ _ (Nat.le_refl _) (Nat.le_refl _)
      · have he' : e ∈ s.ram.bmt.live := hlive ▸ he
        exact ⟨hbmtTarget _ (Nat.le_refl _) e he', h4 e he'⟩

/-- For every pattern of failing writes `update_bmt_bbt` returns, and it puts the
tables where they may go exactly when the path of the retries is clear. -/
theorem relocates_iff_clearPath {s : State} (h : IndexInv g s.ram) (fails : Nat → Bool) :
    ∃ m', updateBmtBbt g (s.failing fails) = .ok m' ∧
      (Relocates g s m' ↔ ClearPath g s fails) := by
  obtain ⟨m', hm', hrun⟩ := updateBmtBbt_run h fails
  exact ⟨m', hm', fun hrel => hrel.clearPath h hrun, fun hclear => hclear.relocates h hrun⟩

/-! ## Chips with one and with two remapped blocks -/

/-- Block 0 moved to 47. -/
def oneRowBmt : BmtTable where
  signature := bmtSignature
  version := 1
  badCount := 0
  size := 1
  checksum := 98
  reserved := fun _ => 0
  table := ⟨0, 47⟩ :: List.replicate 249 ⟨0, 0⟩
  table_length := by
    rw [List.length_cons, List.length_replicate]
    rfl

/-- The driver of `chip50` after the remap of block 0. -/
def oneRowState : State where
  flash := fun b =>
    { data := fun _ => 0xff
      oob := if b = 0 then ⟨0x00, 0xff, 0xff, 0xff⟩ else if b = 47 then mappingMark 0
        else Oob.blank }
  ram :=
    { bbt := sealedBbt, bmt := oneRowBmt, bmtIndex := 49, bbtIndex := 46, systemBlks := 46,
      bmtBlks := 4, mtdSize := 0, beyond := zeroMemory }

theorem indexInv_oneRow : IndexInv chip50 oneRowState.ram where
  bmt_pool := by decide
  bbt_pool := by decide
  index_ne := by decide
  notTarget := by decide

/-- One failing write of the bmt, and it goes to block 48, which nothing uses. -/
theorem clearPath_oneRow : ClearPath chip50 oneRowState fun n => n == 0 := by
  have hbmt : bmtMoves oneRowState (fun n => n == 0) = 1 := by decide
  have hbbt : bbtMoves chip50 oneRowState (fun n => n == 0) = 0 := by decide
  have hlive : oneRowState.ram.bmt.live = [⟨0, 47⟩] := by decide
  refine ⟨fun i h0 hi => ?_, fun _ i h0 hi => ?_, fun _ i j hi hj => ?_, by decide⟩
  · obtain rfl : i = 1 := by omega
    refine ⟨.inl (by decide), fun e he => ?_⟩
    rw [hlive, List.mem_singleton] at he
    subst he
    decide
  · omega
  · show 49 - i ≠ 46 + j
    omega

/-- The tables of that driver end in blocks 48 and 46. -/
theorem relocates_oneRow : ∃ m',
    updateBmtBbt chip50 (oneRowState.failing fun n => n == 0) = .ok m' ∧
      Relocates chip50 oneRowState m' := by
  obtain ⟨m', hm', hiff⟩ := relocates_iff_clearPath indexInv_oneRow fun n => n == 0
  exact ⟨m', hm', hiff.mpr clearPath_oneRow⟩

/-- Blocks 0 and 1 moved to 47 and 48. -/
def twoRowsBmt : BmtTable where
  signature := bmtSignature
  version := 1
  badCount := 0
  size := 2
  checksum := 99
  reserved := fun _ => 0
  table := ⟨0, 47⟩ :: ⟨1, 48⟩ :: List.replicate 248 ⟨0, 0⟩
  table_length := by
    rw [List.length_cons, List.length_cons, List.length_replicate]
    rfl

/-- The driver of `chip50` after both remaps. -/
def twoRowsState : State where
  flash := fun b =>
    { data := fun _ => 0xff
      oob := if b = 0 ∨ b = 1 then ⟨0x00, 0xff, 0xff, 0xff⟩
        else if b = 47 then mappingMark 0 else if b = 48 then mappingMark 1 else Oob.blank }
  ram :=
    { bbt := sealedBbt, bmt := twoRowsBmt, bmtIndex := 49, bbtIndex := 46, systemBlks := 46,
      bmtBlks := 4, mtdSize := 0, beyond := zeroMemory }

theorem indexInv_twoRows : IndexInv chip50 twoRowsState.ram where
  bmt_pool := by decide
  bbt_pool := by decide
  index_ne := by decide
  notTarget := by decide

theorem tableInv_twoRows : TableInv chip50 twoRowsState := by
  have hs : Based chip50 twoRowsState := by
    refine ⟨by decide, by decide, by decide, by decide, by decide, fun e he => ?_⟩
    have he' : e = ⟨0, 47⟩ ∨ e = ⟨1, 48⟩ := by
      have hlive : twoRowsState.ram.bmt.live = [⟨0, 47⟩, ⟨1, 48⟩] := by decide
      rw [hlive] at he
      simpa using he
    rcases he' with rfl | rfl
    · exact ⟨by decide, by decide, by decide, by decide, by decide⟩
    · exact ⟨by decide, by decide, by decide, by decide, by decide⟩
  exact TableInv.of_unique hs ⟨by decide, by decide, by decide⟩

/-- One failing write of the bmt, and it goes to block 48, where block 1 lives. -/
theorem not_relocates_twoRows : TableInv chip50 twoRowsState ∧ IndexInv chip50 twoRowsState.ram ∧
    ∃ m', updateBmtBbt chip50 (twoRowsState.failing fun n => n == 0) = .ok m' ∧
      getMappingBlock twoRowsState.ram 1 = 48 ∧ ¬ Relocates chip50 twoRowsState m' := by
  obtain ⟨m', hm', hrun⟩ := updateBmtBbt_run indexInv_twoRows fun n => n == 0
  refine ⟨tableInv_twoRows, indexInv_twoRows, m', hm', by decide, fun hrel => ?_⟩
  obtain ⟨t, f, hf, -⟩ := hrun.bmt_tried 1 (by decide)
  obtain ⟨-, -, -, htarget⟩ := hrel.bmt _ t f hf
  exact htarget ⟨1, 48⟩ (by decide) (by decide)

end Airoha.Bmt
