/-
Airoha.Eip93.Scatter — a request in one descriptor for each piece.

Translates `eip93_scatter_combine`. The source and the destination are lists of
segments, each with its own lengths; a descriptor is for a piece that lies in
one segment of both. A counter that overflows splits the request, and the second
part runs on another state. Segments of no length are passed over by `continue`,
which goes to the test of the loop. A list that ends too early is read behind its
end; the result is none then.

A descriptor is given by what differs from piece to piece; the id and the flags
of the request are left out, and so is the wait while the ring is full, after
which the same descriptor is put.
-/
import Mathlib.Algebra.Group.Nat.Defs
import Mathlib.Data.List.Basic

namespace Airoha.Eip93

/-! ## Segments -/

/-- A mapped segment of a scatterlist: `sg_dma_address` and `sg_dma_len`. -/
structure Seg where
  addr : Nat
  len : Nat
  deriving DecidableEq

/-- The addresses of its bytes. -/
def Seg.bytes (g : Seg) : List Nat := List.range' g.addr g.len

/-- Where the loop is in one of the two lists: `sg_next`, `saddr`, `remainin`, `offsetin` and
`nextin`, or the same for the destination. -/
structure Side where
  rest : List Seg
  addr : Nat
  remain : Nat
  offset : Nat
  next : Bool
  deriving DecidableEq

/-- `if (nextin) { … }`. It ends with `nextin` set where the loop is to be continued. -/
def Side.turn (s : Side) : Option Side :=
  if s.next then
    match s.rest with
    | [] => none
    | g :: rest =>
      if g.len = 0 then
        some { s with rest := rest, remain := 0 }
      else
        some { rest := rest, addr := g.addr, remain := g.len, offset := 0, next := false }
  else
    some s

/-- `len` bytes further. -/
def Side.eat (s : Side) (len : Nat) : Side :=
  { s with offset := s.offset + len, remain := s.remain - len }

/-- To the end of the segment. -/
def Side.finish (s : Side) : Side := { s with next := true }

/-- The length of the next piece, and where the two lists are behind it. -/
def cut (n : Nat) (inn out : Side) : Nat × Side × Side :=
  if inn.remain = out.remain then
    if n < inn.remain then (n, inn.eat n, out.eat n)
    else (inn.remain, inn.finish, out.finish)
  else if inn.remain < out.remain then
    if n < inn.remain then (n, inn.eat n, out.eat n)
    else (inn.remain, inn.finish, out.eat inn.remain)
  else
    if n < out.remain then (n, inn.eat n, out.eat n)
    else (out.remain, inn.eat out.remain, out.finish)

/-! ## Descriptors -/

/-- What a descriptor says of its piece: `EIP93_PE_LENGTH_LENGTH` has 20 bits. `last` is
`EIP93_DESC_LAST`. -/
structure Piece where
  srcAddr : Nat
  dstAddr : Nat
  stateAddr : Nat
  len : Nat
  last : Bool
  deriving DecidableEq

/-- The variables of the loop. -/
structure Scatter where
  inn : Side
  out : Side
  n : Nat
  split : Nat
  stateAddr : Nat

/-- `datalen - split`, as an `u32`. -/
def rest32 (datalen split : Nat) : Nat := (datalen + 2 ^ 32 - split) % 2 ^ 32

/-- From `src_addr = saddr + offsetin` to the descriptor. -/
def emit (base datalen : Nat) (s : Scatter) : Scatter × Piece :=
  let r := cut s.n s.inn s.out
  let n := s.n - r.1
  let s' : Scatter :=
    if n = 0 then ⟨r.2.1, r.2.2, rest32 datalen s.split, datalen, base⟩
    else ⟨r.2.1, r.2.2, n, s.split, s.stateAddr⟩
  (s',
    { srcAddr := (s.inn.addr + s.inn.offset) % 2 ^ 32
      dstAddr := (s.out.addr + s.out.offset) % 2 ^ 32
      stateAddr := s.stateAddr
      len := r.1 % 2 ^ 20
      last := decide (s'.n = 0) })

/-- The body of the loop. -/
def scatterBody (base datalen : Nat) (s : Scatter) : Option (Scatter × List Piece) :=
  s.inn.turn.bind fun inn =>
    if inn.next then
      some ({ s with inn := inn }, [])
    else
      s.out.turn.bind fun out =>
        if out.next then
          some ({ s with inn := inn, out := out }, [])
        else
          let r := emit base datalen { s with inn := inn, out := out }
          some (r.1, [r.2])

/-! ## The loop ends -/

/-- What a side has left, in turns. -/
def Side.weight (s : Side) : Nat := 2 * s.rest.length + if s.next then 0 else 1

/-- What the loop has left. -/
def Scatter.weight (datalen : Nat) (s : Scatter) : Nat :=
  s.inn.weight + s.out.weight + s.n + rest32 datalen s.split + if s.n = 0 then 1 else 0

theorem rest32_self (datalen : Nat) : rest32 datalen datalen = 0 := by
  rw [rest32, Nat.add_sub_cancel_left, Nat.mod_self]

variable {base datalen : Nat} {s s' : Scatter} {side side' inn out : Side} {ps : List Piece}

theorem turn_weight (h : side.turn = some side') :
    (side'.next = true ∧ side'.weight < side.weight) ∨
      (side'.next = false ∧ side'.weight ≤ side.weight) := by
  unfold Side.turn at h
  by_cases hn : side.next = true
  · rw [if_pos hn] at h
    cases hr : side.rest with
    | nil => simp [hr] at h
    | cons g rest =>
      simp only [hr] at h
      by_cases h0 : g.len = 0
      · rw [if_pos h0] at h
        cases h
        left
        simp [Side.weight, hn, hr]
      · rw [if_neg h0] at h
        cases h
        right
        simp only [Side.weight, hn, hr, List.length_cons, if_true, Bool.false_eq_true, if_false,
          true_and]
        omega
  · rw [if_neg hn] at h
    cases h
    exact Or.inr ⟨by simpa using hn, Nat.le_refl _⟩

/-- A piece is not longer than what is to be done; one of no length ends a segment. -/
theorem cut_weight (n : Nat) (hi : inn.next = false) (ho : out.next = false) :
    (cut n inn out).1 ≤ n ∧
      (cut n inn out).2.1.weight ≤ inn.weight ∧ (cut n inn out).2.2.weight ≤ out.weight ∧
      ((cut n inn out).1 = 0 → n ≠ 0 →
        (cut n inn out).2.1.weight + (cut n inn out).2.2.weight < inn.weight + out.weight) := by
  have hle : ∀ s : Side, s.finish.weight ≤ s.weight := by
    intro s
    simp only [Side.finish, Side.weight, if_true]
    omega
  have hlt : ∀ s : Side, s.next = false → s.finish.weight < s.weight := by
    intro s hs
    simp [Side.finish, Side.weight, hs]
  have heq : ∀ (s : Side) (k : Nat), (s.eat k).weight = s.weight := fun _ _ => rfl
  have h1 := hlt inn hi
  have h2 := hlt out ho
  rw [cut]
  split
  · split
    · exact ⟨Nat.le_refl _, Nat.le_of_eq (heq _ _), Nat.le_of_eq (heq _ _),
        fun h0 hn => absurd h0 hn⟩
    · exact ⟨by simp only; omega, hle _, hle _, fun _ _ => by simp only; omega⟩
  · split
    · split
      · exact ⟨Nat.le_refl _, Nat.le_of_eq (heq _ _), Nat.le_of_eq (heq _ _),
        fun h0 hn => absurd h0 hn⟩
      · exact ⟨by simp only; omega, hle _, Nat.le_of_eq (heq _ _),
          fun _ _ => by simp only [heq]; omega⟩
    · split
      · exact ⟨Nat.le_refl _, Nat.le_of_eq (heq _ _), Nat.le_of_eq (heq _ _),
        fun h0 hn => absurd h0 hn⟩
      · exact ⟨by simp only; omega, Nat.le_of_eq (heq _ _), hle _,
          fun _ _ => by simp only [heq]; omega⟩

theorem emit_weight (hi : s.inn.next = false) (ho : s.out.next = false)
    (hn : (emit base datalen s).1.n ≠ 0) :
    (emit base datalen s).1.weight datalen < s.weight datalen := by
  obtain ⟨hle, hwi, hwo, hz⟩ := cut_weight s.n hi ho
  unfold emit at hn ⊢
  simp only at hn ⊢
  by_cases h0 : s.n - (cut s.n s.inn s.out).1 = 0
  · rw [if_pos h0] at hn ⊢
    simp only [Scatter.weight, rest32_self] at hn ⊢
    rw [if_neg hn]
    split <;> omega
  · rw [if_neg h0] at hn ⊢
    simp only [Scatter.weight] at hn ⊢
    rw [if_neg h0, if_neg (by omega)]
    by_cases hl : (cut s.n s.inn s.out).1 = 0
    · have := hz hl (by omega)
      omega
    · omega

theorem scatterBody_weight (h : scatterBody base datalen s = some (s', ps)) (hn : s'.n ≠ 0) :
    s'.weight datalen < s.weight datalen := by
  unfold scatterBody at h
  obtain ⟨inn, hi, h⟩ := Option.bind_eq_some_iff.1 h
  rcases turn_weight hi with ⟨hnext, hwi⟩ | ⟨hnext, hwi⟩
  · rw [if_pos hnext] at h
    cases h
    simp only [Scatter.weight] at hn ⊢
    omega
  · rw [if_neg (by simp [hnext])] at h
    obtain ⟨out, ho, h⟩ := Option.bind_eq_some_iff.1 h
    rcases turn_weight ho with ⟨hnexto, hwo⟩ | ⟨hnexto, hwo⟩
    · rw [if_pos hnexto] at h
      cases h
      simp only [Scatter.weight] at hn ⊢
      omega
    · rw [if_neg (by simp [hnexto])] at h
      cases h
      have hlt := emit_weight (s := { s with inn := inn, out := out }) hnext hnexto hn
      refine Nat.lt_of_lt_of_le hlt ?_
      simp only [Scatter.weight]
      omega

/-- `do { … } while (n)` -/
def scatterLoop (base datalen : Nat) (s : Scatter) : Option (List Piece) :=
  match _h : scatterBody base datalen s with
  | none => none
  | some (s', ps) =>
    if _hn : s'.n = 0 then some ps else (scatterLoop base datalen s').map (ps ++ ·)
termination_by s.weight datalen
decreasing_by exact scatterBody_weight _h _hn

/-- The variables before the loop. -/
def scatterStart (base saStateCtrBase : Nat) (g h : Seg) (gs hs : List Seg)
    (datalen split offsetin : Nat) : Scatter :=
  { inn := ⟨gs, g.addr, g.len, offsetin, false⟩
    out := ⟨hs, h.addr, h.len, 0, false⟩
    n := if split < datalen then split else datalen
    split := split
    stateAddr := if split < datalen then saStateCtrBase else base }

/-- `eip93_scatter_combine`: the descriptors put, in their order. -/
def eip93ScatterCombine (isEcb : Bool) (saStateBase saStateCtrBase : Nat) (src dst : List Seg)
    (datalen split offsetin : Nat) : Option (List Piece) :=
  match src, dst with
  | g :: gs, h :: hs =>
    let base := if isEcb then 0 else saStateBase
    scatterLoop base datalen (scatterStart base saStateCtrBase g h gs hs datalen split offsetin)
  | _, _ => none

end Airoha.Eip93
