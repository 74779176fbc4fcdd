/-
Airoha.Eip93.Counter — the counter of a CTR request.

Translates `eip93_is_sg_aligned`, what `check_valid_request` does with its answer,
and the counter in `eip93_send_req`. The engine counts in the last word of the IV
only. A request whose counter overflows is split there: the first part runs on
the IV, the second one on the IV behind the overflow. The engine begins a new
block with every descriptor, and saves the counter it has come to; so the pieces
must be of whole blocks.
-/
import Airoha.Eip93.ScatterBytes
import Mathlib.Logic.Function.Basic

namespace Airoha.Eip93

/-! ## Whole blocks -/

/-- `eip93_is_sg_aligned`. The offsets of the buffers are told by `offset4`. -/
def eip93IsSgAligned (offset4 : Seg → Bool) (blksize : Nat) : List Seg → Nat → Bool
  | [], _ => false
  | g :: gs, len =>
    if !offset4 g then false
    else if len ≤ g.len then len % blksize == 0
    else if g.len % blksize != 0 then false
    else eip93IsSgAligned offset4 blksize gs (len - g.len)

/-- `check_valid_request`: a list that is not aligned is replaced by a copy in one segment. -/
def validSegs (offset4 : Seg → Bool) (blksize : Nat) (gs : List Seg) (len : Nat) (copy : Seg) :
    List Seg :=
  if eip93IsSgAligned offset4 blksize gs len then gs else [copy]

/-- `todo` bytes of the list are in whole blocks, but for what ends in its last segment. -/
def Whole (blksize : Nat) : List Seg → Nat → Prop
  | [], todo => todo = 0
  | g :: gs, todo => todo ≤ g.len ∨ g.len % blksize = 0 ∧ Whole blksize gs (todo - g.len)

theorem whole_zero (blksize : Nat) (gs : List Seg) : Whole blksize gs 0 := by
  cases gs with
  | nil => rfl
  | cons g gs => exact Or.inl (Nat.zero_le _)

theorem whole_of_aligned {offset4 : Seg → Bool} {blksize len : Nat} {gs : List Seg}
    (h : eip93IsSgAligned offset4 blksize gs len = true) : Whole blksize gs len := by
  induction gs generalizing len with
  | nil => cases h
  | cons g gs ih =>
    rw [eip93IsSgAligned] at h
    split at h
    · cases h
    · split at h
      · exact Or.inl ‹_›
      · split at h
        · cases h
        · exact Or.inr ⟨by simpa using ‹¬ (g.len % blksize != 0) = true›, ih h⟩

/-- What `check_valid_request` leaves is in whole blocks. -/
theorem whole_validSegs (offset4 : Seg → Bool) (blksize : Nat) (gs : List Seg) {len : Nat}
    {copy : Seg} (hcopy : len ≤ copy.len) :
    Whole blksize (validSegs offset4 blksize gs len copy) len := by
  rw [validSegs]
  split
  · exact whole_of_aligned ‹_›
  · exact Or.inl hcopy

/-- The same within the loop. -/
def Side.Whole (blksize : Nat) (s : Side) (todo : Nat) : Prop :=
  if s.next then Eip93.Whole blksize s.rest todo
  else todo ≤ s.remain ∨ s.remain % blksize = 0 ∧ Eip93.Whole blksize s.rest (todo - s.remain)

variable {base datalen blksize todo : Nat} {s s' : Scatter} {side side' inn out : Side}
  {ps : List Piece}

theorem turn_whole (h : side.turn = some side') (hw : side.Whole blksize todo) :
    side'.Whole blksize todo := by
  unfold Side.turn at h
  by_cases hn : side.next = true
  · rw [Side.Whole, if_pos hn] at hw
    rw [if_pos hn] at h
    cases hr : side.rest with
    | nil => simp [hr] at h
    | cons g rest =>
      rw [hr] at hw
      simp only [hr] at h
      by_cases h0 : g.len = 0
      · rw [if_pos h0] at h
        cases h
        rw [Side.Whole, if_pos hn]
        rcases hw with hle | ⟨-, hw⟩
        · have htodo : todo = 0 := by omega
          rw [htodo]
          exact whole_zero blksize rest
        · rwa [h0, Nat.sub_zero] at hw
      · rw [if_neg h0] at h
        cases h
        exact hw
  · rw [if_neg hn] at h
    cases h
    exact hw

theorem eat_whole {n : Nat} (hs : side.next = false) (hw : side.Whole blksize todo)
    (hn : n ≤ side.remain) (hle : n ≤ todo) (hmod : n % blksize = 0 ∨ todo = n) :
    (side.eat n).Whole blksize (todo - n) := by
  simp only [Side.Whole, Side.eat, hs, Bool.false_eq_true, if_false] at hw ⊢
  rcases hw with hw | ⟨hr, hw⟩
  · exact Or.inl (by omega)
  · rcases hmod with hmod | rfl
    · refine Or.inr ⟨?_, ?_⟩
      · obtain ⟨a, ha⟩ := Nat.dvd_of_mod_eq_zero hr
        obtain ⟨b, hb⟩ := Nat.dvd_of_mod_eq_zero hmod
        rw [ha, hb, ← Nat.mul_sub, Nat.mul_mod_right]
      · rwa [show todo - n - (side.remain - n) = todo - side.remain by omega]
    · exact Or.inl (by omega)

theorem finish_whole (hs : side.next = false) (hw : side.Whole blksize todo) :
    side.finish.Whole blksize (todo - side.remain) := by
  simp only [Side.Whole, Side.finish, hs, Bool.false_eq_true, if_false, if_true] at hw ⊢
  rcases hw with hw | ⟨-, hw⟩
  · rw [Nat.sub_eq_zero_of_le hw]
    exact whole_zero blksize _
  · exact hw

/-- Every piece is of whole blocks, or it is the last one. -/
theorem cut_whole {n rest : Nat} (hi : inn.next = false) (ho : out.next = false)
    (hwi : inn.Whole blksize (n + rest)) (hwo : out.Whole blksize (n + rest))
    (hn : rest ≠ 0 → n % blksize = 0) :
    ((cut n inn out).1 % blksize = 0 ∨ (cut n inn out).1 = n ∧ rest = 0) ∧
      (cut n inn out).2.1.Whole blksize (n + rest - (cut n inn out).1) ∧
      (cut n inn out).2.2.Whole blksize (n + rest - (cut n inn out).1) := by
  have hnmod : n % blksize = 0 ∨ n = n ∧ rest = 0 := by
    by_cases h0 : rest = 0
    · exact Or.inr ⟨rfl, h0⟩
    · exact Or.inl (hn h0)
  have hntodo : n % blksize = 0 ∨ n + rest = n := hnmod.imp id fun h => by omega
  have hremain : ∀ side : Side, side.next = false → side.Whole blksize (n + rest) →
      side.remain ≤ n → side.remain % blksize = 0 ∨ side.remain = n ∧ rest = 0 := by
    intro side hs hw hle
    simp only [Side.Whole, hs, Bool.false_eq_true, if_false] at hw
    rcases hw with hw | ⟨hr, -⟩
    · exact Or.inr ⟨by omega, by omega⟩
    · exact Or.inl hr
  have hpart : n ≤ inn.remain → n ≤ out.remain →
      (n % blksize = 0 ∨ n = n ∧ rest = 0) ∧ (inn.eat n).Whole blksize (n + rest - n) ∧
        (out.eat n).Whole blksize (n + rest - n) := fun h1 h2 =>
    ⟨hnmod, eat_whole hi hwi h1 (by omega) hntodo, eat_whole ho hwo h2 (by omega) hntodo⟩
  rw [cut]
  split
  case isTrue heq =>
    split
    · exact hpart (by omega) (by omega)
    · refine ⟨hremain inn hi hwi (by omega), finish_whole hi hwi, ?_⟩
      rw [heq]
      exact finish_whole ho hwo
  case isFalse hne =>
    split
    · split
      · exact hpart (by omega) (by omega)
      · have hr := hremain inn hi hwi (by omega)
        exact ⟨hr, finish_whole hi hwi, eat_whole ho hwo (by omega) (by omega)
          (hr.imp id fun h => by omega)⟩
    · split
      · exact hpart (by omega) (by omega)
      · have hr := hremain out ho hwo (by omega)
        exact ⟨hr, eat_whole hi hwi (by omega) (by omega) (hr.imp id fun h => by omega),
          finish_whole ho hwo⟩

/-! ## The loop -/

/-- What is to be done is in whole blocks on both sides. -/
structure WholeBlocks (blksize datalen : Nat) (s : Scatter) : Prop where
  inn : s.inn.Whole blksize (s.n + rest32 datalen s.split)
  out : s.out.Whole blksize (s.n + rest32 datalen s.split)
  first : rest32 datalen s.split ≠ 0 → s.n % blksize = 0

/-- The second part has nothing behind it. -/
theorem wholeBlocks_second {n : Nat} (hi : inn.Whole blksize n) (ho : out.Whole blksize n) :
    WholeBlocks blksize datalen ⟨inn, out, n, datalen, base⟩ where
  inn := by simpa only [rest32_self, Nat.add_zero] using hi
  out := by simpa only [rest32_self, Nat.add_zero] using ho
  first := fun hne => absurd (rest32_self datalen) hne

variable (base) in
theorem emit_whole (h : WholeBlocks blksize datalen s) (hs : s.inn.Short)
    (hi : s.inn.next = false) (ho : s.out.next = false) :
    WholeBlocks blksize datalen (emit base datalen s).1 ∧
      ((emit base datalen s).2.last = false → (emit base datalen s).2.len % blksize = 0) := by
  obtain ⟨hlen, hwi, hwo⟩ := cut_whole hi ho h.inn h.out h.first
  obtain ⟨hln, hlr, -, -⟩ := cut_bytes s.n hi ho
  have hrem := hs.1
  have hfirst := h.first
  unfold emit
  generalize cut s.n s.inn s.out = r at hlen hwi hwo hln hlr
  simp only [Nat.mod_eq_of_lt (show r.1 < 2 ^ 20 by omega)]
  by_cases h0 : s.n - r.1 = 0
  · have htodo : s.n + rest32 datalen s.split - r.1 = rest32 datalen s.split := by omega
    rw [htodo] at hwi hwo
    simp only [h0, if_true]
    refine ⟨wholeBlocks_second hwi hwo, ?_⟩
    intro hlast
    rcases hlen with hlen | ⟨-, hrest⟩
    · exact hlen
    · exact absurd hrest (of_decide_eq_false hlast)
  · have htodo : s.n + rest32 datalen s.split - r.1 = s.n - r.1 + rest32 datalen s.split := by
      omega
    have hmod : r.1 % blksize = 0 := by
      rcases hlen with hlen | ⟨hlen, -⟩
      · exact hlen
      · omega
    rw [htodo] at hwi hwo
    simp only [h0, if_false]
    refine ⟨⟨hwi, hwo, ?_⟩, fun _ => hmod⟩
    intro hne
    obtain ⟨a, ha⟩ := Nat.dvd_of_mod_eq_zero (hfirst hne)
    obtain ⟨b, hb⟩ := Nat.dvd_of_mod_eq_zero hmod
    simp only
    rw [ha, hb, ← Nat.mul_sub, Nat.mul_mod_right]

/-- Every descriptor but the last one is for whole blocks. -/
theorem scatterLoop_whole (w : Nat) (hw : s.weight datalen = w) (h : Ready datalen s)
    (hb : WholeBlocks blksize datalen s)
    (hn : s.n ≠ 0 ∨ s.inn.next = false ∧ s.out.next = false)
    (hps : scatterLoop base datalen s = some ps) :
    ∀ q ∈ ps, q.last = false → q.len % blksize = 0 := by
  induction w using Nat.strongRecOn generalizing s ps with
  | _ w ih =>
    obtain ⟨inn, out, hi, ho, hcase⟩ := scatterBody_cases base h hn
    have hagain : ∀ inn' out', inn'.bytes = s.inn.bytes → inn'.Short → out'.bytes = s.out.bytes →
        inn'.Whole blksize (s.n + rest32 datalen s.split) →
        out'.Whole blksize (s.n + rest32 datalen s.split) →
        s.n ≠ 0 → scatterBody base datalen s = some ({ s with inn := inn', out := out' }, []) →
        ∀ q ∈ ps, q.last = false → q.len % blksize = 0 := by
      intro inn' out' hbi hs hbo hwi hwo h0 hbody
      rw [scatterLoop_eq hbody, if_neg h0] at hps
      obtain ⟨ps', hps', rfl⟩ := Option.map_eq_some_iff.1 hps
      exact ih _ (hw ▸ scatterBody_weight hbody h0) rfl (h.turn hbi hs hbo) ⟨hwi, hwo, hb.first⟩
        (Or.inl h0) hps'
    rcases hcase with ⟨h0, hbody | hbody⟩ | ⟨hin, hon, hbody⟩
    · exact hagain inn s.out (turn_bytes hi) (turn_short hi h.short) rfl (turn_whole hi hb.inn)
        hb.out h0 hbody
    · exact hagain inn out (turn_bytes hi) (turn_short hi h.short) (turn_bytes ho)
        (turn_whole hi hb.inn) (turn_whole ho hb.out) h0 hbody
    · have hready := h.turn (turn_bytes hi) (turn_short hi h.short) (turn_bytes ho)
      have hwb : WholeBlocks blksize datalen { s with inn := inn, out := out } :=
        ⟨turn_whole hi hb.inn, turn_whole ho hb.out, hb.first⟩
      have hemit := emit_emits base hready hin hon
      obtain ⟨hwb', hlen⟩ := emit_whole base hwb hready.short hin hon
      rw [scatterLoop_eq hbody] at hps
      by_cases h0 : (emit base datalen { s with inn := inn, out := out }).1.n = 0
      · rw [if_pos h0] at hps
        cases hps
        intro q hq
        rw [List.mem_singleton.1 hq]
        exact hlen
      · rw [if_neg h0] at hps
        obtain ⟨ps', hps', rfl⟩ := Option.map_eq_some_iff.1 hps
        intro q hq
        rcases List.mem_cons.1 hq with rfl | hq
        · exact hlen
        · exact ih _ (hw ▸ scatterBody_weight hbody h0) rfl hemit.ready hwb' (Or.inl h0) hps' q hq

/-! ## The counter -/

/-- The 16 bytes of an IV in network order. -/
abbrev Iv := BitVec 128

/-- `be32_to_cpu(iv[3])` -/
def Iv.low (iv : Iv) : BitVec 32 := iv.extractLsb' 0 32

/-- The other three words. -/
def Iv.high (iv : Iv) : BitVec 96 := iv.extractLsb' 32 96

/-- What `eip93_send_req` makes of the IV of a CTR request: where it splits the data, and the IVs
of `sa_state_ctr` and of `sa_state`. -/
structure CtrSplit where
  split : BitVec 32
  ctr : Option Iv
  iv : Iv

/-- `DIV_ROUND_UP(rctx->textsize, AES_BLOCK_SIZE)` -/
def ctrBlocks (textsize : BitVec 32) : BitVec 32 := (textsize + 15#32) / 16#32

/-- The CTR branch of `eip93_send_req`. -/
def ctrSplit (iv : Iv) (textsize datalen : BitVec 32) : CtrSplit :=
  let start := iv.low
  let stop := start + ctrBlocks textsize - 1#32
  if stop < start then
    { split := 16#32 * -start
      ctr := some iv
      iv := (iv.high ++ 0xffffffff#32) + 1#128 }
  else
    { split := datalen, ctr := none, iv := iv }

/-- The counter that the engine uses for block `i` of what runs on `iv`: only the last word
counts. -/
def engineCounter (iv : Iv) (i : Nat) : Iv := iv.high ++ (iv.low + BitVec.ofNat 32 i)

/-- The counters for the bytes of the pieces, one after the other. `ivs` is what is at the
addresses of the states; a descriptor leaves there the counter it has come to. -/
def counters (ivs : Nat → Iv) : List Piece → List Iv
  | [] => []
  | p :: ps =>
    (List.range p.len).map (fun i => engineCounter (ivs p.stateAddr) (i / 16)) ++
      counters (Function.update ivs p.stateAddr
        (engineCounter (ivs p.stateAddr) ((p.len + 15) / 16))) ps

theorem append_toNat (h : BitVec 96) (l : BitVec 32) :
    (h ++ l : Iv).toNat = h.toNat * 2 ^ 32 + l.toNat := by
  rw [BitVec.toNat_append, ← Nat.shiftLeft_add_eq_or_of_lt l.isLt, Nat.shiftLeft_eq]

theorem Iv.toNat_eq (iv : Iv) : iv.toNat = iv.high.toNat * 2 ^ 32 + iv.low.toNat := by
  have h : iv.high ++ iv.low = iv := BitVec.extractLsb'_append_extractLsb'
  rw [← append_toNat, h]

theorem Iv.high_append (h : BitVec 96) (l : BitVec 32) : Iv.high (h ++ l) = h :=
  BitVec.extractLsb'_append_eq_left

theorem Iv.low_append (h : BitVec 96) (l : BitVec 32) : Iv.low (h ++ l) = l :=
  BitVec.extractLsb'_append_eq_right

theorem engineCounter_zero (iv : Iv) : engineCounter iv 0 = iv := by
  rw [engineCounter, BitVec.add_zero]
  exact BitVec.extractLsb'_append_extractLsb'

/-- A counter that has been saved goes on from there. -/
theorem engineCounter_add (iv : Iv) (i j : Nat) :
    engineCounter (engineCounter iv i) j = engineCounter iv (i + j) := by
  rw [engineCounter, engineCounter, Iv.high_append, Iv.low_append, engineCounter, BitVec.add_assoc,
    BitVec.ofNat_add]

/-- Without an overflow of the last word the engine counts as it should. -/
theorem engineCounter_eq {iv : Iv} {i : Nat} (h : iv.low.toNat + i < 2 ^ 32) :
    engineCounter iv i = iv + BitVec.ofNat 128 i := by
  have hlow : (iv.low + BitVec.ofNat 32 i).toNat = iv.low.toNat + i := by
    rw [BitVec.toNat_add, BitVec.toNat_ofNat, Nat.add_mod_mod, Nat.mod_eq_of_lt h]
  apply BitVec.eq_of_toNat_eq
  have hlt := (engineCounter iv i).isLt
  rw [engineCounter, append_toNat, hlow] at hlt ⊢
  have hi := iv.toNat_eq
  rw [BitVec.toNat_add, BitVec.toNat_ofNat, Nat.add_mod_mod, Nat.mod_eq_of_lt (by omega)]
  omega

/-- What runs on a counter that was saved after whole blocks. -/
theorem counters_block (v : Iv) {o : Nat} (ho : o % 16 = 0) (len : Nat) :
    (List.range len).map (fun i => engineCounter (engineCounter v (o / 16)) (i / 16)) =
      (List.range len).map fun i => engineCounter v ((o + i) / 16) := by
  refine List.map_congr_left fun i _ => ?_
  rw [engineCounter_add, show o / 16 + i / 16 = (o + i) / 16 by omega]

theorem map_range_add {α : Type} (f : Nat → α) {len n : Nat} (h : len ≤ n) :
    (List.range n).map f =
      (List.range len).map f ++ (List.range (n - len)).map fun j => f (len + j) := by
  conv_lhs => rw [show n = len + (n - len) by omega, List.range_add]
  rw [List.map_append, List.map_map]
  rfl

/-- The front of two runs of equal entries. -/
theorem replicate_front {α : Type} {a b x : α} {l : List α} (n : Nat) {m k : Nat} (hn : 0 < n)
    (h : List.replicate n x ++ l = List.replicate m a ++ List.replicate k b) (hab : a ≠ b) :
    (m = 0 ∧ x = b ∧ n ≤ k ∧ l = List.replicate (k - n) b) ∨
      (x = a ∧ n ≤ m ∧ l = List.replicate (m - n) a ++ List.replicate k b) := by
  induction n generalizing m k with
  | zero => omega
  | succ n ih =>
    rw [List.replicate_succ, List.cons_append] at h
    rcases Nat.eq_zero_or_pos m with rfl | hm
    · rw [List.replicate_zero, List.nil_append] at h
      obtain ⟨k, rfl⟩ : ∃ k', k = k' + 1 := by
        cases k with
        | zero => cases h
        | succ k => exact ⟨k, rfl⟩
      rw [List.replicate_succ] at h
      obtain ⟨rfl, h⟩ := List.cons.inj h
      left
      refine ⟨rfl, rfl, ?_⟩
      rcases Nat.eq_zero_or_pos n with rfl | hn
      · exact ⟨by omega, h⟩
      · rcases ih (m := 0) (k := k) hn h with ⟨-, -, hle, hl⟩ | ⟨-, hle, -⟩
        · exact ⟨by omega, by rw [hl, Nat.add_sub_add_right]⟩
        · omega
    · obtain ⟨m, rfl⟩ : ∃ m', m = m' + 1 := ⟨m - 1, by omega⟩
      rw [List.replicate_succ, List.cons_append] at h
      obtain ⟨rfl, h⟩ := List.cons.inj h
      right
      refine ⟨rfl, ?_⟩
      rcases Nat.eq_zero_or_pos n with rfl | hn
      · exact ⟨by omega, h⟩
      · rcases ih hn h with ⟨-, hb, -, -⟩ | ⟨-, hle, hl⟩
        · exact absurd hb hab
        · exact ⟨by omega, by rw [hl, Nat.add_sub_add_right]⟩

/-- Pieces on two states, one after the other, each but the last one of whole blocks: the bytes of
each state run through its counters without a gap. -/
theorem counters_eq {a b : Nat} (hab : a ≠ b) (va vb : Iv) :
    ∀ (ps : List Piece) (ivs : Nat → Iv) (m k oa ob : Nat), oa % 16 = 0 → ob % 16 = 0 →
      ivs a = engineCounter va (oa / 16) → ivs b = engineCounter vb (ob / 16) →
      ps.flatMap Piece.states = List.replicate m a ++ List.replicate k b →
      (∃ body p, ps = body ++ [p] ∧ ∀ q ∈ body, q.len % 16 = 0) ∨ ps = [] →
      counters ivs ps = (List.range m).map (fun j => engineCounter va ((oa + j) / 16)) ++
        (List.range k).map fun j => engineCounter vb ((ob + j) / 16) := by
  intro ps
  induction ps with
  | nil =>
    intro ivs m k oa ob _ _ _ _ hst _
    have hlen := congrArg List.length hst
    simp only [List.flatMap_nil, List.length_nil, List.length_append, List.length_replicate] at hlen
    have hm : m = 0 := by omega
    have hk : k = 0 := by omega
    rw [hm, hk]
    rfl
  | cons p ps ih =>
    intro ivs m k oa ob hoa hob hia hib hst hwhole
    have htail : (∃ body q, ps = body ++ [q] ∧ ∀ x ∈ body, x.len % 16 = 0) ∨ ps = [] := by
      rcases hwhole with ⟨body, q, hq, hbody⟩ | hnil
      · cases body with
        | nil => exact Or.inr (List.cons.inj hq).2
        | cons x body =>
          obtain ⟨rfl, hps⟩ := List.cons.inj hq
          exact Or.inl ⟨body, q, hps, fun y hy => hbody y (List.mem_cons_of_mem _ hy)⟩
      · cases hnil
    have hlen16 : p.len % 16 = 0 ∨ ps = [] := by
      rcases hwhole with ⟨body, q, hq, hbody⟩ | hnil
      · cases body with
        | nil => exact Or.inr (List.cons.inj hq).2
        | cons x body =>
          obtain ⟨rfl, hps⟩ := List.cons.inj hq
          exact Or.inl (hbody _ List.mem_cons_self)
      · cases hnil
    rw [List.flatMap_cons, Piece.states] at hst
    rw [counters]
    rcases Nat.eq_zero_or_pos p.len with h0 | hpos
    · -- a piece of no length leaves everything as it is
      rw [h0] at hst ⊢
      have hsame : Function.update ivs p.stateAddr
          (engineCounter (ivs p.stateAddr) ((0 + 15) / 16)) = ivs := by
        rw [engineCounter_zero, Function.update_eq_self]
      rw [hsame]
      exact ih ivs m k oa ob hoa hob hia hib hst htail
    · have hnext : ∀ o : Nat, o % 16 = 0 → p.len % 16 = 0 → (o + p.len) % 16 = 0 ∧
          o / 16 + (p.len + 15) / 16 = (o + p.len) / 16 := fun o ho hl => by omega
      rcases replicate_front p.len hpos hst hab with ⟨rfl, hb, hle, hrest⟩ | ⟨ha, hle, hrest⟩
      · rw [hb, hib, counters_block vb hob, List.range_zero, List.map_nil, List.nil_append,
          map_range_add _ hle]
        congr 1
        rcases hlen16 with hl | rfl
        · obtain ⟨ho1, ho2⟩ := hnext ob hob hl
          have hmain := ih (Function.update ivs b (engineCounter (engineCounter vb (ob / 16))
            ((p.len + 15) / 16))) 0 (k - p.len) oa (ob + p.len) hoa ho1
            (by rw [Function.update_of_ne hab, hia])
            (by rw [Function.update_self, engineCounter_add, ho2]) hrest htail
          rw [hmain, List.range_zero, List.map_nil, List.nil_append]
          exact List.map_congr_left fun j _ => by rw [Nat.add_assoc]
        · have hk : k - p.len = 0 := by simpa using (congrArg List.length hrest).symm
          rw [hk]
          rfl
      · rw [ha, hia, counters_block va hoa, map_range_add _ hle, List.append_assoc]
        congr 1
        rcases hlen16 with hl | rfl
        · obtain ⟨ho1, ho2⟩ := hnext oa hoa hl
          have hmain := ih (Function.update ivs a (engineCounter (engineCounter va (oa / 16))
            ((p.len + 15) / 16))) (m - p.len) k (oa + p.len) ob ho1 hob
            (by rw [Function.update_self, engineCounter_add, ho2])
            (by rw [Function.update_of_ne hab.symm, hib]) hrest htail
          rw [hmain]
          congr 1
          exact List.map_congr_left fun j _ => by rw [Nat.add_assoc]
        · have hlen := congrArg List.length hrest
          simp only [List.flatMap_nil, List.length_nil, List.length_append,
            List.length_replicate] at hlen
          have hm : m - p.len = 0 := by omega
          have hk : k = 0 := by omega
          rw [hm, hk]
          rfl

/-! ## The split -/

/-- The number of blocks, for a length that the rounding does not carry out of its word. -/
theorem ctrBlocks_toNat {textsize : BitVec 32} (h32 : textsize.toNat + 15 < 2 ^ 32) :
    (ctrBlocks textsize).toNat = (textsize.toNat + 15) / 16 := by
  rw [ctrBlocks, BitVec.toNat_udiv, BitVec.toNat_add]
  simp only [BitVec.toNat_ofNat]
  rw [Nat.mod_eq_of_lt (by omega)]

/-- The IV with the last word at its end, incremented: the first one behind the overflow. -/
theorem behind_overflow (iv : Iv) :
    (iv.high ++ 0xffffffff#32) + 1#128 = iv + BitVec.ofNat 128 (2 ^ 32 - iv.low.toNat) ∧
      Iv.low ((iv.high ++ 0xffffffff#32) + 1#128) = 0#32 := by
  have hlow := iv.low.isLt
  have hval : ((iv.high ++ 0xffffffff#32) + 1#128 : Iv).toNat =
      (iv.high.toNat * 2 ^ 32 + 2 ^ 32) % 2 ^ 128 := by
    simp only [BitVec.toNat_add, append_toNat, BitVec.toNat_ofNat]
    omega
  constructor
  · apply BitVec.eq_of_toNat_eq
    rw [hval, BitVec.toNat_add, BitVec.toNat_ofNat, Nat.add_mod_mod, iv.toNat_eq,
      Nat.add_assoc, Nat.add_sub_cancel' (Nat.le_of_lt hlow)]
  · apply BitVec.eq_of_toNat_eq
    rw [Iv.low, BitVec.extractLsb'_toNat, hval]
    simp only [Nat.shiftRight_zero, BitVec.toNat_ofNat]
    omega

/-- The last word is enough for all the blocks, or the first part is what it is enough for, and
the second one starts behind its overflow. -/
theorem ctrSplit_cases (iv : Iv) {textsize : BitVec 32} (h0 : 0 < textsize.toNat)
    (h32 : textsize.toNat + 15 < 2 ^ 32) :
    ((textsize.toNat + 15) / 16 + iv.low.toNat ≤ 2 ^ 32 ∧
        ctrSplit iv textsize textsize = ⟨textsize, none, iv⟩) ∨
      ∃ r : CtrSplit, ctrSplit iv textsize textsize = r ∧ r.ctr = some iv ∧
        r.split.toNat = 16 * (2 ^ 32 - iv.low.toNat) ∧ r.split.toNat < textsize.toNat ∧
        r.iv = iv + BitVec.ofNat 128 (2 ^ 32 - iv.low.toNat) ∧ r.iv.low = 0#32 := by
  have hlow := iv.low.isLt
  have hb := ctrBlocks_toNat h32
  have hstop : (iv.low + ctrBlocks textsize - 1#32).toNat =
      (iv.low.toNat + ((textsize.toNat + 15) / 16 - 1)) % 2 ^ 32 := by
    rw [BitVec.toNat_sub, BitVec.toNat_add, hb]
    simp only [BitVec.toNat_ofNat]
    omega
  unfold ctrSplit
  simp only [BitVec.lt_def, hstop]
  by_cases hover : (textsize.toNat + 15) / 16 + iv.low.toNat ≤ 2 ^ 32
  · left
    refine ⟨hover, if_neg ?_⟩
    omega
  · right
    have hsplit : (16#32 * -iv.low).toNat = 16 * (2 ^ 32 - iv.low.toNat) := by
      rw [BitVec.toNat_mul, BitVec.toNat_neg]
      simp only [BitVec.toNat_ofNat]
      omega
    obtain ⟨hiv, hzero⟩ := behind_overflow iv
    refine ⟨_, if_pos (by omega), rfl, hsplit, ?_, hiv, hzero⟩
    rw [hsplit]
    omega

/-! ## The counters of a request -/

/-- What is at the addresses of the states. -/
def ctrIvs (saStateCtrBase : Nat) (r : CtrSplit) (addr : Nat) : Iv :=
  if addr = saStateCtrBase then r.ctr.getD r.iv else r.iv

theorem start_whole {saStateCtrBase split : Nat} {g k : Seg} {gs ks : List Seg}
    (hsrc : Whole blksize (g :: gs) datalen) (hdst : Whole blksize (k :: ks) datalen)
    (hsplit : split ≤ datalen) (h32 : datalen < 2 ^ 32)
    (hmod : split < datalen → split % blksize = 0) :
    WholeBlocks blksize datalen (scatterStart base saStateCtrBase g k gs ks datalen split 0) where
  inn := by rw [start_todo hsplit h32]; exact hsrc
  out := by rw [start_todo hsplit h32]; exact hdst
  first := by
    simp only [scatterStart, rest32_split hsplit h32]
    intro hne
    rw [if_pos (by omega)]
    exact hmod (by omega)

variable (blksize) in
theorem validSegs_bytes (offset4 : Seg → Bool) (gs : List Seg) {copy : Seg} {len : Nat}
    (hlen : len ≤ (segBytes gs).length) (hcopy : copy.len = len) :
    len ≤ (segBytes (validSegs offset4 blksize gs len copy)).length := by
  rw [validSegs]
  split
  · exact hlen
  · simp [segBytes, Seg.bytes, hcopy]

/-- The counters of the first part, and those of the second one. -/
theorem counters_parts (iv : Iv) {textsize : BitVec 32} (h0 : 0 < textsize.toNat)
    (h32 : textsize.toNat + 15 < 2 ^ 32) {saStateBase saStateCtrBase : Nat}
    (hne : saStateCtrBase ≠ saStateBase)
    (hst : ps.flatMap Piece.states =
      if (ctrSplit iv textsize textsize).split.toNat < textsize.toNat then
        List.replicate (ctrSplit iv textsize textsize).split.toNat saStateCtrBase ++
          List.replicate (textsize.toNat - (ctrSplit iv textsize textsize).split.toNat) saStateBase
      else List.replicate textsize.toNat saStateBase)
    (hbody : ∃ body p, ps = body ++ [p] ∧ ∀ q ∈ body, q.len % 16 = 0) :
    counters (ctrIvs saStateCtrBase (ctrSplit iv textsize textsize)) ps =
      (List.range textsize.toNat).map fun j => iv + BitVec.ofNat 128 (j / 16) := by
  rcases ctrSplit_cases iv h0 h32 with ⟨henough, hr⟩ | ⟨r, hr, hctr, hsplit, hlt, hiv, hzero⟩
  · -- one part, on the state itself
    rw [hr] at hst ⊢
    rw [if_neg (Nat.lt_irrefl _)] at hst
    have hmain := counters_eq hne iv iv ps
      (ctrIvs saStateCtrBase ⟨textsize, none, iv⟩) 0 textsize.toNat 0 0 rfl rfl
      (by rw [ctrIvs, if_pos rfl]; exact (engineCounter_zero iv).symm)
      (by rw [ctrIvs, if_neg hne.symm]; exact (engineCounter_zero iv).symm)
      (by rw [hst]; rfl) (Or.inl hbody)
    rw [hmain, List.range_zero, List.map_nil, List.nil_append]
    refine List.map_congr_left fun j hj => ?_
    have hj := List.mem_range.1 hj
    rw [Nat.zero_add, engineCounter_eq (by omega)]
  · rw [hr] at hst ⊢
    rw [if_pos hlt] at hst
    have hmain := counters_eq hne iv r.iv ps (ctrIvs saStateCtrBase r) r.split.toNat
      (textsize.toNat - r.split.toNat) 0 0 rfl rfl
      (by rw [ctrIvs, if_pos rfl, hctr]; exact (engineCounter_zero iv).symm)
      (by rw [ctrIvs, if_neg hne.symm]; exact (engineCounter_zero r.iv).symm)
      hst (Or.inl hbody)
    rw [hmain, map_range_add _ (Nat.le_of_lt hlt)]
    have hlow := iv.low.isLt
    congr 1
    · refine List.map_congr_left fun j hj => ?_
      have hj := List.mem_range.1 hj
      rw [Nat.zero_add, engineCounter_eq (by omega)]
    · refine List.map_congr_left fun j hj => ?_
      have hj := List.mem_range.1 hj
      have hz : r.iv.low.toNat = 0 := by rw [hzero]; rfl
      rw [Nat.zero_add, engineCounter_eq (by omega), hiv, BitVec.add_assoc, ← BitVec.ofNat_add,
        hsplit]
      congr 2
      omega

/-- For every IV, every length and every cut of the buffers into segments that fit the length field
and the 32 bits of an address: the bytes of the text run, in their order, through the blocks of the
counter of all 128 bits, though the engine counts in 32 of them. -/
theorem ctr_counters (offset4 : Seg → Bool) (iv : Iv) {textsize : BitVec 32}
    (h0 : 0 < textsize.toNat) (h32 : textsize.toNat + 15 < 2 ^ 32)
    {saStateBase saStateCtrBase : Nat} (hne : saStateCtrBase ≠ saStateBase)
    {src dst : List Seg} {copySrc copyDst : Seg} (hsrc : textsize.toNat ≤ (segBytes src).length)
    (hdst : textsize.toNat ≤ (segBytes dst).length) (hcs : copySrc.len = textsize.toNat)
    (hcd : copyDst.len = textsize.toNat)
    (hshort : ∀ g ∈ validSegs offset4 16 src textsize.toNat copySrc, g.len < 2 ^ 20)
    (hlow : ∀ a ∈ segBytes (validSegs offset4 16 src textsize.toNat copySrc) ++
      segBytes (validSegs offset4 16 dst textsize.toNat copyDst), a < 2 ^ 32) :
    ∃ ps, eip93ScatterCombine false saStateBase saStateCtrBase
        (validSegs offset4 16 src textsize.toNat copySrc)
        (validSegs offset4 16 dst textsize.toNat copyDst) textsize.toNat
        (ctrSplit iv textsize textsize).split.toNat 0 = some ps ∧
      ps.flatMap Piece.src =
        (segBytes (validSegs offset4 16 src textsize.toNat copySrc)).take textsize.toNat ∧
      ps.flatMap Piece.dst =
        (segBytes (validSegs offset4 16 dst textsize.toNat copyDst)).take textsize.toNat ∧
      counters (ctrIvs saStateCtrBase (ctrSplit iv textsize textsize)) ps =
        (List.range textsize.toNat).map fun j => iv + BitVec.ofNat 128 (j / 16) := by
  have hsb := validSegs_bytes 16 offset4 src hsrc hcs
  have hdb := validSegs_bytes 16 offset4 dst hdst hcd
  have hsw := whole_validSegs offset4 16 src (Nat.le_of_eq hcs.symm)
  have hdw := whole_validSegs offset4 16 dst (Nat.le_of_eq hcd.symm)
  obtain ⟨g, gs, hg⟩ := List.exists_cons_of_ne_nil (ne_nil_of_bytes h0 hsb)
  obtain ⟨k, ks, hk⟩ := List.exists_cons_of_ne_nil (ne_nil_of_bytes h0 hdb)
  rw [hg] at hsb hsw hshort hlow ⊢
  rw [hk] at hdb hdw hlow ⊢
  have hle : (ctrSplit iv textsize textsize).split.toNat ≤ textsize.toNat ∧
      ((ctrSplit iv textsize textsize).split.toNat < textsize.toNat →
        (ctrSplit iv textsize textsize).split.toNat % 16 = 0) := by
    rcases ctrSplit_cases iv h0 h32 with ⟨-, hr⟩ | ⟨r, hr, -, hsplit, hlt, -⟩
    · rw [hr]
      exact ⟨Nat.le_refl _, fun hlt => absurd hlt (Nat.lt_irrefl _)⟩
    · rw [hr]
      exact ⟨Nat.le_of_lt hlt, fun _ => by omega⟩
  have hd32 := textsize.isLt
  have hready := start_ready saStateBase saStateCtrBase hsb hdb hle.1 hd32 hshort hlow
  obtain ⟨ps, hps, hc⟩ := scatterLoop_covers saStateBase _ rfl hready (Or.inr ⟨rfl, rfl⟩)
  obtain ⟨hs, hd, hst⟩ := start_covers hle.1 hd32 hc
  have hwhole := scatterLoop_whole _ rfl hready (start_whole hsw hdw hle.1 hd32 hle.2)
    (Or.inr ⟨rfl, rfl⟩) hps
  obtain ⟨body, p, hps', -, hbody⟩ := hc.last
  refine ⟨ps, hps, hs, hd, counters_parts iv h0 h32 hne hst ⟨body, p, hps', ?_⟩⟩
  intro q hq
  exact hwhole q (hps' ▸ List.mem_append_left _ hq) (hbody q hq)

/-- A last word that overflows within the second of three blocks. -/
theorem ctr_counters_overflow :
    ∃ ps, eip93ScatterCombine false 64 128 (validSegs (fun _ => true) 16 [⟨1024, 32⟩, ⟨2048, 16⟩]
        (48#32).toNat ⟨4096, 48⟩) (validSegs (fun _ => true) 16 [⟨3072, 20⟩, ⟨3584, 28⟩]
        (48#32).toNat ⟨8192, 48⟩) (48#32).toNat
        (ctrSplit 0xffffffff#128 48#32 48#32).split.toNat 0 = some ps ∧
      ps.flatMap Piece.src =
        (segBytes (validSegs (fun _ => true) 16 [⟨1024, 32⟩, ⟨2048, 16⟩] (48#32).toNat
          ⟨4096, 48⟩)).take (48#32).toNat ∧
      ps.flatMap Piece.dst =
        (segBytes (validSegs (fun _ => true) 16 [⟨3072, 20⟩, ⟨3584, 28⟩] (48#32).toNat
          ⟨8192, 48⟩)).take (48#32).toNat ∧
      counters (ctrIvs 128 (ctrSplit 0xffffffff#128 48#32 48#32)) ps =
        (List.range (48#32).toNat).map fun j => 0xffffffff#128 + BitVec.ofNat 128 (j / 16) :=
  ctr_counters (fun _ => true) 0xffffffff#128 (by decide) (by decide) (by decide) (by decide)
    (by decide) rfl rfl (by decide) (by decide)

end Airoha.Eip93
