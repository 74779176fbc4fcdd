/-
Airoha.Eip93.ScatterBytes — the descriptors of a request cover its bytes.

The bytes of both lists are their addresses in order. What a turn passes over has
none, and what a piece takes is the front of both; the invariant of the loop is
that the pieces to come are the front of what is left, as long as what is to be
done.
-/
import Airoha.Eip93.Scatter

namespace Airoha.Eip93

/-! ## What is left of a list -/

/-- The addresses of the bytes that are left. -/
def Side.bytes (s : Side) : List Nat :=
  (if s.next then [] else List.range' (s.addr + s.offset) s.remain) ++ s.rest.flatMap Seg.bytes

/-- No segment is too long for the length field. -/
def Side.Short (s : Side) : Prop := s.remain < 2 ^ 20 ∧ ∀ g ∈ s.rest, g.len < 2 ^ 20

/-- Every byte has a 32-bit address. -/
def Side.Low (s : Side) : Prop := ∀ a ∈ s.bytes, a < 2 ^ 32

variable {base datalen : Nat} {s s' : Scatter} {side side' inn out : Side} {ps : List Piece}

theorem turn_bytes (h : side.turn = some side') : side'.bytes = side.bytes := by
  unfold Side.turn at h
  by_cases hn : side.next = true
  · rw [if_pos hn] at h
    cases hr : side.rest with
    | nil => simp [hr] at h
    | cons g rest =>
      simp only [hr] at h
      by_cases h0 : g.len = 0
      · rw [if_pos h0] at h
        cases h
        simp [Side.bytes, hn, hr, Seg.bytes, h0]
      · rw [if_neg h0] at h
        cases h
        simp [Side.bytes, hn, hr, Seg.bytes]
  · rw [if_neg hn] at h
    cases h
    rfl

theorem turn_short (h : side.turn = some side') (hs : side.Short) : side'.Short := by
  unfold Side.turn at h
  by_cases hn : side.next = true
  · rw [if_pos hn] at h
    cases hr : side.rest with
    | nil => simp [hr] at h
    | cons g rest =>
      have hrest : ∀ g' ∈ rest, g'.len < 2 ^ 20 := fun g' hg =>
        hs.2 g' (hr ▸ List.mem_cons_of_mem g hg)
      simp only [hr] at h
      by_cases h0 : g.len = 0
      · rw [if_pos h0] at h
        cases h
        exact ⟨Nat.two_pow_pos 20, hrest⟩
      · rw [if_neg h0] at h
        cases h
        exact ⟨hs.2 g (hr ▸ List.mem_cons_self), hrest⟩
  · rw [if_neg hn] at h
    cases h
    exact hs

/-- Only a list without bytes is read behind its end. -/
theorem turn_some (h : side.bytes ≠ []) : ∃ side', side.turn = some side' := by
  unfold Side.turn
  by_cases hn : side.next = true
  · rw [if_pos hn]
    cases hr : side.rest with
    | nil => simp [Side.bytes, hn, hr] at h
    | cons g rest =>
      simp only
      split <;> exact ⟨_, rfl⟩
  · rw [if_neg hn]
    exact ⟨_, rfl⟩

/-! ## Pieces -/

theorem eat_bytes {n : Nat} (hs : side.next = false) (hn : n ≤ side.remain) :
    List.range' (side.addr + side.offset) n ++ (side.eat n).bytes = side.bytes := by
  have hsplit : List.range' (side.addr + side.offset) side.remain =
      List.range' (side.addr + side.offset) n ++
        List.range' (side.addr + (side.offset + n)) (side.remain - n) := by
    rw [← Nat.add_assoc, List.range'_append_1]
    congr 1
    omega
  simp only [Side.bytes, Side.eat, hs, Bool.false_eq_true, if_false]
  rw [hsplit, List.append_assoc]

theorem finish_bytes (hs : side.next = false) :
    List.range' (side.addr + side.offset) side.remain ++ side.finish.bytes = side.bytes := by
  simp [Side.bytes, Side.finish, hs]

/-- A piece is the front of both lists. -/
theorem cut_bytes (n : Nat) (hi : inn.next = false) (ho : out.next = false) :
    (cut n inn out).1 ≤ n ∧ (cut n inn out).1 ≤ inn.remain ∧
      List.range' (inn.addr + inn.offset) (cut n inn out).1 ++ (cut n inn out).2.1.bytes =
        inn.bytes ∧
      List.range' (out.addr + out.offset) (cut n inn out).1 ++ (cut n inn out).2.2.bytes =
        out.bytes := by
  rw [cut]
  split
  case isTrue heq =>
    split
    · exact ⟨Nat.le_refl _, by simp only; omega, eat_bytes hi (by omega), eat_bytes ho (by omega)⟩
    · refine ⟨by simp only; omega, Nat.le_refl _, finish_bytes hi, ?_⟩
      rw [heq]
      exact finish_bytes ho
  case isFalse hne =>
    split
    · split
      · exact ⟨Nat.le_refl _, by simp only; omega, eat_bytes hi (by omega), eat_bytes ho (by omega)⟩
      · exact ⟨by simp only; omega, Nat.le_refl _, finish_bytes hi, eat_bytes ho (by omega)⟩
    · split
      · exact ⟨Nat.le_refl _, by simp only; omega, eat_bytes hi (by omega), eat_bytes ho (by omega)⟩
      · exact ⟨by simp only; omega, by simp only; omega, eat_bytes hi (by omega), finish_bytes ho⟩

variable (out) in
theorem cut_short (n : Nat) (hs : inn.Short) : (cut n inn out).2.1.Short := by
  have heat : ∀ k, (inn.eat k).Short := fun k =>
    ⟨Nat.lt_of_le_of_lt (Nat.sub_le _ _) hs.1, hs.2⟩
  rw [cut]
  split
  · split
    · exact heat n
    · exact hs
  · split
    · split
      · exact heat n
      · exact hs
    · split
      · exact heat n
      · exact heat _

/-- The bytes of a piece. -/
def Piece.src (p : Piece) : List Nat := List.range' p.srcAddr p.len

/-- The bytes it goes to. -/
def Piece.dst (p : Piece) : List Nat := List.range' p.dstAddr p.len

/-- The state that each of its bytes runs on. -/
def Piece.states (p : Piece) : List Nat := List.replicate p.len p.stateAddr

/-- Addresses that fit are not changed by the cast. -/
theorem range_mod {a len : Nat} (h : ∀ b ∈ List.range' a len, b < 2 ^ 32) :
    List.range' (a % 2 ^ 32) len = List.range' a len := by
  cases len with
  | zero => rfl
  | succ len =>
    have ha := h a (List.mem_range'_1.2 ⟨Nat.le_refl _, by omega⟩)
    rw [Nat.mod_eq_of_lt ha]

/-- What the loop has to do is there on both sides. -/
structure Ready (datalen : Nat) (s : Scatter) : Prop where
  inn : s.n + rest32 datalen s.split ≤ s.inn.bytes.length
  out : s.n + rest32 datalen s.split ≤ s.out.bytes.length
  short : s.inn.Short
  lowIn : s.inn.Low
  lowOut : s.out.Low

/-- The pieces cover what the loop has to do. -/
structure Covers (base datalen : Nat) (s : Scatter) (ps : List Piece) : Prop where
  src : ps.flatMap Piece.src = s.inn.bytes.take (s.n + rest32 datalen s.split)
  dst : ps.flatMap Piece.dst = s.out.bytes.take (s.n + rest32 datalen s.split)
  states : ps.flatMap Piece.states =
    List.replicate s.n s.stateAddr ++ List.replicate (rest32 datalen s.split) base
  last : ∃ body p, ps = body ++ [p] ∧ p.last = true ∧ ∀ q ∈ body, q.last = false

/-! ## One descriptor -/

/-- What a descriptor takes, and what it leaves to do. -/
structure Emits (base datalen : Nat) (s s' : Scatter) (p : Piece) : Prop where
  ready : Ready datalen s'
  todo : s.n + rest32 datalen s.split = p.len + (s'.n + rest32 datalen s'.split)
  src : p.src ++ s'.inn.bytes = s.inn.bytes
  dst : p.dst ++ s'.out.bytes = s.out.bytes
  states : p.states ++ (List.replicate s'.n s'.stateAddr ++
      List.replicate (rest32 datalen s'.split) base) =
    List.replicate s.n s.stateAddr ++ List.replicate (rest32 datalen s.split) base
  last : p.last = decide (s'.n = 0)
  done : s'.n = 0 → rest32 datalen s'.split = 0

variable (base) in
theorem emit_emits (h : Ready datalen s) (hi : s.inn.next = false) (ho : s.out.next = false) :
    Emits base datalen s (emit base datalen s).1 (emit base datalen s).2 := by
  obtain ⟨hln, hlr, hin, hout⟩ := cut_bytes s.n hi ho
  have hshort := cut_short s.out s.n h.short
  have hrem := h.short.1
  generalize hl : (cut s.n s.inn s.out).1 = l at hln hlr hin hout
  have hlen : l % 2 ^ 20 = l := Nat.mod_eq_of_lt (by omega)
  have hilen := congrArg List.length hin
  have holen := congrArg List.length hout
  rw [List.length_append, List.length_range'] at hilen holen
  have hlowi : ∀ a ∈ List.range' (s.inn.addr + s.inn.offset) l, a < 2 ^ 32 := fun a ha =>
    h.lowIn a (hin ▸ List.mem_append_left _ ha)
  have hlowo : ∀ a ∈ List.range' (s.out.addr + s.out.offset) l, a < 2 ^ 32 := fun a ha =>
    h.lowOut a (hout ▸ List.mem_append_left _ ha)
  have hri := h.inn
  have hro := h.out
  have hlow : (cut s.n s.inn s.out).2.1.Low ∧ (cut s.n s.inn s.out).2.2.Low :=
    ⟨fun a ha => h.lowIn a (hin ▸ List.mem_append_right _ ha),
      fun a ha => h.lowOut a (hout ▸ List.mem_append_right _ ha)⟩
  unfold emit
  simp only [hl, hlen]
  by_cases h0 : s.n - l = 0
  · have hnl : s.n = l := by omega
    simp only [h0, if_true]
    exact
      { ready := ⟨by simp only [rest32_self]; omega, by simp only [rest32_self]; omega, hshort,
          hlow.1, hlow.2⟩
        todo := by simp only [rest32_self]; omega
        src := by simp only [Piece.src, range_mod hlowi]; exact hin
        dst := by simp only [Piece.dst, range_mod hlowo]; exact hout
        states := by
          simp only [Piece.states, rest32_self, List.replicate_zero, List.append_nil, hnl]
        last := rfl
        done := fun _ => rest32_self datalen }
  · simp only [h0, if_false]
    exact
      { ready := ⟨by simp only; omega, by simp only; omega, hshort, hlow.1, hlow.2⟩
        todo := by simp only; omega
        src := by simp only [Piece.src, range_mod hlowi]; exact hin
        dst := by simp only [Piece.dst, range_mod hlowo]; exact hout
        states := by
          simp only [Piece.states]
          rw [← List.append_assoc, List.replicate_append_replicate]
          congr 2
          omega
        last := by simp [h0]
        done := fun hz => absurd hz h0 }

theorem Emits.take {p : Piece} (h : Emits base datalen s s' p) :
    s.inn.bytes.take (s.n + rest32 datalen s.split) =
        p.src ++ s'.inn.bytes.take (s'.n + rest32 datalen s'.split) ∧
      s.out.bytes.take (s.n + rest32 datalen s.split) =
        p.dst ++ s'.out.bytes.take (s'.n + rest32 datalen s'.split) := by
  have hsl : p.src.length = p.len := List.length_range'
  have hdl : p.dst.length = p.len := List.length_range'
  constructor
  · rw [← h.src, h.todo, ← hsl, List.take_length_add_append]
  · rw [← h.dst, h.todo, ← hdl, List.take_length_add_append]

theorem Emits.covers_last {p : Piece} (h : Emits base datalen s s' p) (h0 : s'.n = 0) :
    Covers base datalen s [p] := by
  have hd := h.done h0
  obtain ⟨hi, ho⟩ := h.take
  have hst := h.states
  simp only [h0, hd, Nat.add_zero, List.take_zero, List.append_nil, List.replicate_zero]
    at hi ho hst
  exact
    { src := by rw [hi]; simp
      dst := by rw [ho]; simp
      states := by rw [← hst]; simp
      last := ⟨[], p, rfl, by rw [h.last, h0]; rfl, by simp⟩ }

theorem Emits.covers_cons {p : Piece} (h : Emits base datalen s s' p) (h0 : s'.n ≠ 0)
    (hc : Covers base datalen s' ps) : Covers base datalen s (p :: ps) := by
  obtain ⟨hi, ho⟩ := h.take
  obtain ⟨body, q, hq, hlast, hbody⟩ := hc.last
  exact
    { src := by rw [List.flatMap_cons, hc.src, hi]
      dst := by rw [List.flatMap_cons, hc.dst, ho]
      states := by rw [List.flatMap_cons, hc.states, h.states]
      last := by
        refine ⟨p :: body, q, by rw [hq]; rfl, hlast, ?_⟩
        intro x hx
        rcases List.mem_cons.1 hx with rfl | hx
        · rw [h.last]
          exact decide_eq_false h0
        · exact hbody x hx }

/-! ## The loop -/

theorem scatterLoop_eq (h : scatterBody base datalen s = some (s', ps)) :
    scatterLoop base datalen s =
      if s'.n = 0 then some ps else (scatterLoop base datalen s').map (ps ++ ·) := by
  rw [scatterLoop]
  split
  · rename_i hnone
    rw [h] at hnone
    cases hnone
  · rename_i s1 ps1 hsome
    rw [h] at hsome
    cases hsome
    split <;> rfl

/-- Turns change nothing of what is left. -/
theorem Ready.turn (h : Ready datalen s) (hi : inn.bytes = s.inn.bytes) (hs : inn.Short)
    (ho : out.bytes = s.out.bytes) : Ready datalen { s with inn := inn, out := out } where
  inn := by simpa only [hi] using h.inn
  out := by simpa only [ho] using h.out
  short := hs
  lowIn := by simpa only [Side.Low, hi] using h.lowIn
  lowOut := by simpa only [Side.Low, ho] using h.lowOut

theorem Covers.of_turn (hi : inn.bytes = s.inn.bytes) (ho : out.bytes = s.out.bytes)
    (h : Covers base datalen { s with inn := inn, out := out } ps) : Covers base datalen s ps where
  src := by simpa only [hi] using h.src
  dst := by simpa only [ho] using h.dst
  states := h.states
  last := h.last

/-- A side that is to turn has a segment left, if there is something to do. -/
theorem turn_of_todo {todo : Nat} (hle : todo ≤ side.bytes.length)
    (hn : todo ≠ 0 ∨ side.next = false) : ∃ side', side.turn = some side' := by
  rcases hn with hn | hnext
  · refine turn_some ?_
    intro hnil
    rw [hnil, List.length_nil] at hle
    omega
  · exact ⟨side, by rw [Side.turn, if_neg (by simp [hnext])]⟩

variable (base) in
/-- The body of the loop: one side is at an empty segment, or a descriptor is put. -/
theorem scatterBody_cases (h : Ready datalen s)
    (hn : s.n ≠ 0 ∨ s.inn.next = false ∧ s.out.next = false) :
    ∃ inn out, s.inn.turn = some inn ∧ s.out.turn = some out ∧
      ((s.n ≠ 0 ∧ (scatterBody base datalen s = some ({ s with inn := inn }, []) ∨
          scatterBody base datalen s = some ({ s with inn := inn, out := out }, []))) ∨
        (inn.next = false ∧ out.next = false ∧ scatterBody base datalen s =
          some ((emit base datalen { s with inn := inn, out := out }).1,
            [(emit base datalen { s with inn := inn, out := out }).2]))) := by
  have hself : ∀ side : Side, side.next = false → side.turn = some side := fun side hs => by
    rw [Side.turn, if_neg (by simp [hs])]
  obtain ⟨inn, hi⟩ := turn_of_todo h.inn
    (hn.imp (fun h0 => by omega) And.left)
  obtain ⟨out, ho⟩ := turn_of_todo h.out
    (hn.imp (fun h0 => by omega) And.right)
  refine ⟨inn, out, hi, ho, ?_⟩
  have hn0 : (inn.next = true ∨ out.next = true) → s.n ≠ 0 := by
    intro hnext
    refine hn.resolve_right ?_
    rintro ⟨h1, h2⟩
    rw [hself _ h1] at hi
    rw [hself _ h2] at ho
    cases hi
    cases ho
    rcases hnext with hnext | hnext
    · rw [h1] at hnext
      cases hnext
    · rw [h2] at hnext
      cases hnext
  rw [scatterBody, hi, Option.bind_some]
  cases hin : inn.next with
  | true => exact Or.inl ⟨hn0 (Or.inl hin), Or.inl (if_pos rfl)⟩
  | false =>
    rw [if_neg Bool.false_ne_true, ho, Option.bind_some]
    cases hon : out.next with
    | true => exact Or.inl ⟨hn0 (Or.inr hon), Or.inr (if_pos rfl)⟩
    | false => exact Or.inr ⟨rfl, rfl, if_neg Bool.false_ne_true⟩

variable (base) in
theorem scatterLoop_covers (w : Nat) (hw : s.weight datalen = w) (h : Ready datalen s)
    (hn : s.n ≠ 0 ∨ s.inn.next = false ∧ s.out.next = false) :
    ∃ ps, scatterLoop base datalen s = some ps ∧ Covers base datalen s ps := by
  induction w using Nat.strongRecOn generalizing s with
  | _ w ih =>
    obtain ⟨inn, out, hi, ho, hcase⟩ := scatterBody_cases base h hn
    -- a turn that ends in an empty segment is followed by another one
    have hagain : ∀ inn' out', inn'.bytes = s.inn.bytes → inn'.Short → out'.bytes = s.out.bytes →
        s.n ≠ 0 → scatterBody base datalen s = some ({ s with inn := inn', out := out' }, []) →
        ∃ ps, scatterLoop base datalen s = some ps ∧ Covers base datalen s ps := by
      intro inn' out' hbi hs hbo h0 hb
      obtain ⟨ps, hps, hc⟩ := ih _ (hw ▸ scatterBody_weight hb h0) rfl (h.turn hbi hs hbo)
        (Or.inl h0)
      refine ⟨ps, ?_, hc.of_turn hbi hbo⟩
      rw [scatterLoop_eq hb, if_neg h0, hps]
      rfl
    rcases hcase with ⟨h0, hb | hb⟩ | ⟨hin, hon, hb⟩
    · exact hagain inn s.out (turn_bytes hi) (turn_short hi h.short) rfl h0 hb
    · exact hagain inn out (turn_bytes hi) (turn_short hi h.short) (turn_bytes ho) h0 hb
    · have hready := h.turn (turn_bytes hi) (turn_short hi h.short) (turn_bytes ho)
      have hemit := emit_emits base hready hin hon
      by_cases h0 : (emit base datalen { s with inn := inn, out := out }).1.n = 0
      · refine ⟨_, ?_, (hemit.covers_last h0).of_turn (turn_bytes hi) (turn_bytes ho)⟩
        rw [scatterLoop_eq hb, if_pos h0]
      · obtain ⟨ps, hps, hc⟩ := ih _ (hw ▸ scatterBody_weight hb h0) rfl hemit.ready (Or.inl h0)
        refine ⟨_, ?_, (hemit.covers_cons h0 hc).of_turn (turn_bytes hi) (turn_bytes ho)⟩
        rw [scatterLoop_eq hb, if_neg h0, hps]
        rfl

/-- The addresses of the bytes of a list. -/
def segBytes (gs : List Seg) : List Nat := gs.flatMap Seg.bytes

theorem ne_nil_of_bytes {gs : List Seg} {n : Nat} (h0 : 0 < n) (h : n ≤ (segBytes gs).length) :
    gs ≠ [] := by
  rintro rfl
  exact Nat.not_lt.2 h h0

/-- What `split` leaves is the rest of the data. -/
theorem rest32_split {datalen split : Nat} (hsplit : split ≤ datalen) (h32 : datalen < 2 ^ 32) :
    rest32 datalen split = datalen - split := by
  rw [rest32, show datalen + 2 ^ 32 - split = datalen - split + 2 ^ 32 by omega,
    Nat.add_mod_right, Nat.mod_eq_of_lt (by omega)]

section Start

variable {saStateCtrBase split : Nat} {g k : Seg} {gs ks : List Seg}

theorem start_inn_bytes : (scatterStart base saStateCtrBase g k gs ks datalen split 0).inn.bytes =
    segBytes (g :: gs) := by
  simp [scatterStart, Side.bytes, segBytes, Seg.bytes]

theorem start_out_bytes : (scatterStart base saStateCtrBase g k gs ks datalen split 0).out.bytes =
    segBytes (k :: ks) := by
  simp [scatterStart, Side.bytes, segBytes, Seg.bytes]

/-- Everything is to be done. -/
theorem start_todo (hsplit : split ≤ datalen) (h32 : datalen < 2 ^ 32) :
    (scatterStart base saStateCtrBase g k gs ks datalen split 0).n +
      rest32 datalen (scatterStart base saStateCtrBase g k gs ks datalen split 0).split =
        datalen := by
  simp only [scatterStart, rest32_split hsplit h32]
  split <;> omega

variable (base saStateCtrBase) in
theorem start_ready (hsrc : datalen ≤ (segBytes (g :: gs)).length)
    (hdst : datalen ≤ (segBytes (k :: ks)).length) (hsplit : split ≤ datalen)
    (h32 : datalen < 2 ^ 32) (hshort : ∀ s ∈ g :: gs, s.len < 2 ^ 20)
    (hlow : ∀ a ∈ segBytes (g :: gs) ++ segBytes (k :: ks), a < 2 ^ 32) :
    Ready datalen (scatterStart base saStateCtrBase g k gs ks datalen split 0) where
  inn := by rw [start_todo hsplit h32, start_inn_bytes]; exact hsrc
  out := by rw [start_todo hsplit h32, start_out_bytes]; exact hdst
  short := ⟨hshort g List.mem_cons_self, fun g' hg => hshort g' (List.mem_cons_of_mem g hg)⟩
  lowIn := fun a ha => hlow a (List.mem_append_left _ (start_inn_bytes ▸ ha))
  lowOut := fun a ha => hlow a (List.mem_append_right _ (start_out_bytes ▸ ha))

theorem start_covers (hsplit : split ≤ datalen) (h32 : datalen < 2 ^ 32)
    (hc : Covers base datalen (scatterStart base saStateCtrBase g k gs ks datalen split 0) ps) :
    ps.flatMap Piece.src = (segBytes (g :: gs)).take datalen ∧
      ps.flatMap Piece.dst = (segBytes (k :: ks)).take datalen ∧
      ps.flatMap Piece.states =
        (if split < datalen then
          List.replicate split saStateCtrBase ++ List.replicate (datalen - split) base
        else List.replicate datalen base) := by
  refine ⟨?_, ?_, ?_⟩
  · rw [hc.src, start_todo hsplit h32, start_inn_bytes]
  · rw [hc.dst, start_todo hsplit h32, start_out_bytes]
  · rw [hc.states]
    simp only [scatterStart, rest32_split hsplit h32]
    by_cases hlt : split < datalen
    · simp only [hlt, if_true]
    · have hzero : datalen - split = 0 := by omega
      simp only [hlt, if_false, hzero, List.replicate_zero, List.append_nil]

end Start

/-- For lists that hold the data, with segments that fit the length field and the 32 bits of an
address, and whatever empty segments among them: the descriptors exist, their pieces are the data
in its order on both sides, the bytes before `split` run on the state of the counter and the others
on the other one, and the last descriptor, and no other, is marked. -/
theorem combine_covers (isEcb : Bool) (saStateBase saStateCtrBase : Nat) {src dst : List Seg}
    {datalen split : Nat} (hsrc : datalen ≤ (segBytes src).length)
    (hdst : datalen ≤ (segBytes dst).length) (hs0 : src ≠ []) (hd0 : dst ≠ [])
    (hsplit : split ≤ datalen) (h32 : datalen < 2 ^ 32) (hshort : ∀ g ∈ src, g.len < 2 ^ 20)
    (hlow : ∀ a ∈ segBytes src ++ segBytes dst, a < 2 ^ 32) :
    ∃ ps, eip93ScatterCombine isEcb saStateBase saStateCtrBase src dst datalen split 0 = some ps ∧
      ps.flatMap Piece.src = (segBytes src).take datalen ∧
      ps.flatMap Piece.dst = (segBytes dst).take datalen ∧
      ps.flatMap Piece.states =
        (if split < datalen then
          List.replicate split saStateCtrBase ++
            List.replicate (datalen - split) (if isEcb then 0 else saStateBase)
        else List.replicate datalen (if isEcb then 0 else saStateBase)) ∧
      ∃ body p, ps = body ++ [p] ∧ p.last = true ∧ ∀ q ∈ body, q.last = false := by
  obtain ⟨g, gs, rfl⟩ := List.exists_cons_of_ne_nil hs0
  obtain ⟨k, ks, rfl⟩ := List.exists_cons_of_ne_nil hd0
  obtain ⟨ps, hps, hc⟩ := scatterLoop_covers (if isEcb then 0 else saStateBase) _ rfl
    (start_ready _ saStateCtrBase hsrc hdst hsplit h32 hshort hlow)
    (Or.inr ⟨rfl, rfl⟩)
  obtain ⟨hs, hd, hst⟩ := start_covers hsplit h32 hc
  exact ⟨ps, hps, hs, hd, hst, hc.last⟩

/-- A segment of no length among the others, and a split within a segment. -/
theorem combine_covers_split :
    ∃ ps, eip93ScatterCombine false 16 32 [⟨100, 5⟩, ⟨0, 0⟩, ⟨200, 7⟩] [⟨300, 20⟩] 12 6 0 =
        some ps ∧
      ps.flatMap Piece.src = (segBytes [⟨100, 5⟩, ⟨0, 0⟩, ⟨200, 7⟩]).take 12 ∧
      ps.flatMap Piece.dst = (segBytes [⟨300, 20⟩]).take 12 ∧
      ps.flatMap Piece.states =
        (if 6 < 12 then
          List.replicate 6 32 ++ List.replicate (12 - 6) (if false then 0 else 16)
        else List.replicate 12 (if false then 0 else 16)) ∧
      ∃ body p, ps = body ++ [p] ∧ p.last = true ∧ ∀ q ∈ body, q.last = false :=
  combine_covers false 16 32 (by decide) (by decide) (by decide) (by decide) (by decide) (by decide)
    (by decide) (by decide)

end Airoha.Eip93
