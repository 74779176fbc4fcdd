/-
Airoha.Ppe.Updmem — the engine's copy of the shrink table.

`ppeSetShrinkField` writes a content word by word, each to a line of the slot
that no other word goes to, and in an order of its own for IPv6. Reading the
lines back in that order (`Updmem.content`) gives the content written, and
the lines of other slots are left alone.
-/
import Airoha.Ppe.Shrink

namespace Airoha.Ppe

open Airoha.Lib

/-! ## Reading it back -/

/-- What the engine holds in a line of a slot. -/
def Updmem.word (u : Updmem) (select : Select) (index offset : Nat) : BitVec 32 :=
  u.mem (BitVec.ofNat 32 select.code) (BitVec.ofNat 32 index) (BitVec.ofNat 32 offset)

/-- The content the engine has for a slot, each of its words read from a line of its own. -/
def Updmem.content (u : Updmem) (index : Nat) : (select : Select) → Content select
  | .smac =>
      let lo := u.word .smac index 0
      let hi := u.word .smac index 1
      #v[hi.extractLsb' 8 8, hi.extractLsb' 0 8, lo.extractLsb' 24 8, lo.extractLsb' 16 8,
        lo.extractLsb' 8 8, lo.extractLsb' 0 8]
  | .ipv6 => Vector.ofFn fun i => u.word .ipv6 index (if i.val ≤ 3 then 3 - i.val else 11 - i.val)
  | .ipv4 => Vector.ofFn fun i => u.word .ipv4 index i.val

theorem ofNat32_inj {a b n : Nat} (ha : a < 2 ^ n) (hb : b < 2 ^ n) (hn : n ≤ 32) :
    BitVec.ofNat 32 a = BitVec.ofNat 32 b ↔ a = b := by
  have h := Nat.pow_le_pow_right (n := 2) (by decide) hn
  constructor
  · intro heq
    have hval := congrArg BitVec.toNat heq
    rwa [BitVec.toNat_ofNat, BitVec.toNat_ofNat, Nat.mod_eq_of_lt (by omega),
      Nat.mod_eq_of_lt (by omega)] at hval
  · rintro rfl
    rfl

@[simp] theorem updmemCtrl_sel (select addr offset : BitVec 32) :
    fieldGet 2 2 (updmemCtrl select addr offset) = select &&& mask 32 0 2 := by
  have hb : fieldGet 2 2 (1#32 ||| 2#32) = 0#32 := by decide
  rw [updmemCtrl, fieldGet_or, fieldGet_or, fieldGet_or, hb, fieldGet_fieldPrep_self (by decide),
    fieldGet_fieldPrep_of_disjoint (by decide), fieldGet_fieldPrep_of_disjoint (by decide)]
  simp

@[simp] theorem updmemCtrl_addr (select addr offset : BitVec 32) :
    fieldGet 8 4 (updmemCtrl select addr offset) = addr &&& mask 32 0 4 := by
  have hb : fieldGet 8 4 (1#32 ||| 2#32) = 0#32 := by decide
  rw [updmemCtrl, fieldGet_or, fieldGet_or, fieldGet_or, hb, fieldGet_fieldPrep_self (by decide),
    fieldGet_fieldPrep_of_disjoint (by decide), fieldGet_fieldPrep_of_disjoint (by decide)]
  simp

@[simp] theorem updmemCtrl_ofst (select addr offset : BitVec 32) :
    fieldGet 4 4 (updmemCtrl select addr offset) = offset &&& mask 32 0 4 := by
  have hb : fieldGet 4 4 (1#32 ||| 2#32) = 0#32 := by decide
  rw [updmemCtrl, fieldGet_or, fieldGet_or, fieldGet_or, hb, fieldGet_fieldPrep_self (by decide),
    fieldGet_fieldPrep_of_disjoint (by decide), fieldGet_fieldPrep_of_disjoint (by decide)]
  simp

/-- One round of `ppeSetShrinkField` writes one line of one slot. -/
theorem setWord_word {select select' : Select} {index index' offset offset' : Nat} (w : BitVec 32)
    (u : Updmem) (hi : index < 16) (ho : offset < 16) (hi' : index' < 16) (ho' : offset' < 16) :
    (setWord select index offset w u).word select' index' offset' =
      if select' = select ∧ index' = index ∧ offset' = offset then w
      else u.word select' index' offset' := by
  have hsel : ∀ s : Select, s.code < 2 ^ 2 := by
    intro s
    cases s <;> decide
  have hcode : select'.code = select.code ↔ select' = select := by
    cases select' <;> cases select <;> decide
  unfold setWord ppeSetUpdateMemCtrl ppeSetUpdMemData Updmem.command Updmem.word
  simp only [updmemCtrl_sel, updmemCtrl_addr, updmemCtrl_ofst, ofNat_and_mask (hsel select),
    ofNat_and_mask (n := 4) hi, ofNat_and_mask (n := 4) ho,
      ofNat32_inj (hsel select') (hsel select) (by decide), hcode,
    ofNat32_inj (n := 4) hi' hi (by decide), ofNat32_inj (n := 4) ho' ho (by decide)]

section Words

variable {select : Select} {index : Nat}

/-- The loop leaves every line alone that no round is for. -/
theorem foldl_setWord_other {select' : Select} {index' offset' : Nat} (hi : index < 16)
    (hi' : index' < 16) (ho' : offset' < 16) : ∀ (ws : List (Nat × BitVec 32)) (u : Updmem),
    (∀ p ∈ ws, p.1 < 16) →
    ¬ (select' = select ∧ index' = index ∧ offset' ∈ ws.map Prod.fst) →
      (ws.foldl (fun u w => setWord select index w.1 w.2 u) u).word select' index' offset' =
        u.word select' index' offset' := by
  intro ws
  induction ws with
  | nil =>
    intro u _ _
    rfl
  | cons p ws ih =>
    intro u hlt hne
    rw [List.foldl_cons, ih _ (fun q hq => hlt q (List.mem_cons_of_mem _ hq)) fun h => hne
      ⟨h.1, h.2.1, List.mem_cons_of_mem _ h.2.2⟩,
      setWord_word _ _ hi (hlt p List.mem_cons_self) hi' ho', if_neg]
    rintro ⟨h1, h2, h3⟩
    exact hne ⟨h1, h2, by rw [h3]; exact List.mem_cons_self⟩

/-- With one round for each line, every line gets its word. -/
theorem foldl_setWord_mem (hi : index < 16) : ∀ (ws : List (Nat × BitVec 32)) (u : Updmem),
    (∀ p ∈ ws, p.1 < 16) → (ws.map Prod.fst).Nodup → ∀ p ∈ ws,
      (ws.foldl (fun u w => setWord select index w.1 w.2 u) u).word select index p.1 = p.2 := by
  intro ws
  induction ws with
  | nil =>
    intro u _ _ p hp
    cases hp
  | cons q ws ih =>
    intro u hlt hnodup p hp
    rw [List.map_cons, List.nodup_cons] at hnodup
    have hlt' : ∀ p ∈ ws, p.1 < 16 := fun r hr => hlt r (List.mem_cons_of_mem _ hr)
    rw [List.foldl_cons]
    cases hp with
    | head =>
      rw [foldl_setWord_other hi hi (hlt _ List.mem_cons_self) ws _ hlt' fun h => hnodup.1 h.2.2,
        setWord_word _ _ hi (hlt _ List.mem_cons_self) hi (hlt _ List.mem_cons_self),
        if_pos ⟨rfl, rfl, rfl⟩]
    | tail _ hp => exact ih _ hlt' hnodup.2 p hp

end Words

/-- The lines of a kind. -/
def lines : Select → List Nat
  | .smac => [0, 1]
  | .ipv4 => [0, 1]
  | .ipv6 => [3, 2, 1, 0, 7, 6, 5, 4]

theorem shrinkWords_lines (select : Select) (content : Content select) :
    (shrinkWords select content).map Prod.fst = lines select := by
  cases select with
  | smac => rfl
  | ipv6 => rfl
  | ipv4 => rfl

theorem lines_nodup (select : Select) : (lines select).Nodup := by
  cases select <;> decide

theorem lines_lt {select : Select} : ∀ offset ∈ lines select, offset < 16 := by
  cases select <;> decide

theorem shrinkWords_lt {select : Select} {content : Content select} :
    ∀ p ∈ shrinkWords select content, p.1 < 16 := by
  intro p hp
  have hmem : p.1 ∈ lines select := by
    rw [← shrinkWords_lines select content]
    exact List.mem_map_of_mem hp
  exact lines_lt p.1 hmem

/-- Only the lines of the kind make its content. -/
theorem content_congr {u u' : Updmem} {index : Nat} {select : Select}
    (h : ∀ offset ∈ lines select, u.word select index offset = u'.word select index offset) :
    u.content index select = u'.content index select := by
  cases select with
  | smac => simp only [Updmem.content, h 0 (by decide), h 1 (by decide)]
  | ipv4 =>
    simp only [Updmem.content]
    congr 1
    funext i
    exact h _ (by fin_cases i <;> decide)
  | ipv6 =>
    simp only [Updmem.content]
    congr 1
    funext i
    exact h _ (by fin_cases i <;> decide)

theorem setShrinkField_other {select select' : Select} {index index' : Nat} (field : ShrinkField)
    (u : Updmem) (hi : index < 16) (hi' : index' < 16)
    (h : ¬ (select' = select ∧ index' = index)) :
    (ppeSetShrinkField select index field u).content index' select' = u.content index' select' := by
  apply content_congr
  intro offset ho
  exact foldl_setWord_other hi hi' (lines_lt offset ho) _ u shrinkWords_lt fun hh =>
    h ⟨hh.1, hh.2.1⟩

/-- The bytes of a word that was put together from them. -/
theorem extractLsb'_pack (a b c d : BitVec 8) :
    let w : BitVec 32 := a.setWidth 32 <<< 24 ||| b.setWidth 32 <<< 16 ||| c.setWidth 32 <<< 8 |||
      d.setWidth 32
    w.extractLsb' 24 8 = a ∧ w.extractLsb' 16 8 = b ∧ w.extractLsb' 8 8 = c ∧
      w.extractLsb' 0 8 = d := by
  refine ⟨?_, ?_, ?_, ?_⟩
  all_goals
    apply BitVec.eq_of_getLsbD_eq
    intro i hi
    interval_cases i <;> simp

theorem extractLsb'_pack_two (a b : BitVec 8) :
    let w : BitVec 32 := a.setWidth 32 <<< 8 ||| b.setWidth 32
    w.extractLsb' 8 8 = a ∧ w.extractLsb' 0 8 = b := by
  refine ⟨?_, ?_⟩
  all_goals
    apply BitVec.eq_of_getLsbD_eq
    intro i hi
    interval_cases i <;> simp

/-- The two words of a MAC address give it back. -/
theorem unpack_smac (m : Vector (BitVec 8) 6) (lo hi : BitVec 32)
    (hlo : lo = (m.get 2).setWidth 32 <<< 24 ||| (m.get 3).setWidth 32 <<< 16 |||
      (m.get 4).setWidth 32 <<< 8 |||
      (m.get 5).setWidth 32)
    (hhi : hi = (m.get 0).setWidth 32 <<< 8 ||| (m.get 1).setWidth 32) :
    #v[hi.extractLsb' 8 8, hi.extractLsb' 0 8, lo.extractLsb' 24 8, lo.extractLsb' 16 8,
      lo.extractLsb' 8 8, lo.extractLsb' 0 8] = m := by
  obtain ⟨h2, h3, h4, h5⟩ := extractLsb'_pack (m.get 2) (m.get 3) (m.get 4) (m.get 5)
  obtain ⟨h0, h1⟩ := extractLsb'_pack_two (m.get 0) (m.get 1)
  rw [← hlo] at h2 h3 h4 h5
  rw [← hhi] at h0 h1
  rw [h0, h1, h2, h3, h4, h5]
  ext i hi
  interval_cases i <;> rfl

/-- `ppeSetShrinkField` leaves the content in the engine. -/
theorem setShrinkField_self {select : Select} {index : Nat} (field : ShrinkField) (u : Updmem)
    (hi : index < 16) :
    (ppeSetShrinkField select index field u).content index select = field.content select := by
  have hword : ∀ p ∈ shrinkWords select (field.content select),
      (ppeSetShrinkField select index field u).word select index p.1 = p.2 := by
    refine foldl_setWord_mem hi _ u shrinkWords_lt ?_
    rw [shrinkWords_lines]
    exact lines_nodup select
  cases select with
  | smac =>
    exact unpack_smac field.smac _ _ (hword _ List.mem_cons_self)
      (hword _ (List.mem_cons_of_mem _ List.mem_cons_self))
  | ipv4 =>
    apply Vector.ext
    intro i hi
    simp only [Updmem.content, Vector.getElem_ofFn]
    exact hword (i, field.egIpv4[i]) (List.mem_map.mpr ⟨⟨i, hi⟩, List.mem_finRange _, rfl⟩)
  | ipv6 =>
    apply Vector.ext
    intro i hi
    simp only [Updmem.content, Vector.getElem_ofFn]
    exact hword (if i ≤ 3 then 3 - i else 11 - i, field.egIpv6[i])
      (List.mem_map.mpr ⟨⟨i, hi⟩, List.mem_finRange _, rfl⟩)

end Airoha.Ppe
