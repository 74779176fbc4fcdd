/-
Airoha.Nvmem.AdtranRight — when the parser reads exactly the format.

`addCells_of_regular`: regular lines up to an end of the text are read as they
are meant, whatever `nvmem_add_one_cell` returns. `regular_of_addCells`: nothing
else is. Names are rewritten while the text behind them is still to be read;
`Alike` says that this changes nothing the parser looks for.
-/
import Airoha.Nvmem.Adtran

namespace Airoha.Nvmem

open Airoha.Lib

/-! ## Searching -/

variable {m m' : Mem} {s : Nat} {ch : BitVec 8}

/-- The three ways `strchr` ends. -/
inductive Search (m : Mem) (s : Nat) (ch : BitVec 8) : Option (Option Nat) → Prop where
  | found (j : Nat) (hs : s ≤ j) (hj : j < size) (hch : m j = ch)
      (hmin : ∀ i, s ≤ i → i < j → m i ≠ ch ∧ m i ≠ 0#8) : Search m s ch (some (some j))
  | null (n : Nat) (hs : s ≤ n) (hn : n < size) (hnul : m n = 0#8) (hne : m n ≠ ch)
      (hmin : ∀ i, s ≤ i → i < n → m i ≠ ch ∧ m i ≠ 0#8) : Search m s ch (some none)
  | out (hall : ∀ i, s ≤ i → i < size → m i ≠ ch ∧ m i ≠ 0#8) : Search m s ch none

theorem search (m : Mem) (s : Nat) (ch : BitVec 8) : Search m s ch (strchr m s ch) := by
  have hno : ∀ i, (m i == ch || m i == 0#8) = false → m i ≠ ch ∧ m i ≠ 0#8 := by
    intro i hi
    simpa using hi
  unfold strchr
  cases h : scanUp (fun i => m i == ch || m i == 0#8) s (size - s) with
  | none =>
    have hall := scanUp_eq_none_iff.mp h
    exact Search.out fun i hs hi => hno i (hall i hs (by omega))
  | some j =>
    obtain ⟨hs, hj, hhit, hmin⟩ := scanUp_eq_some_iff.mp h
    have hmin' : ∀ i, s ≤ i → i < j → m i ≠ ch ∧ m i ≠ 0#8 := fun i h1 h2 => hno i (hmin i h1 h2)
    by_cases hch : m j = ch
    · simp only [hch, if_true]
      exact Search.found j hs (by omega) hch hmin'
    · simp only [hch, if_false]
      have hnul : m j = 0#8 := by simpa [hch] using hhit
      exact Search.null j hs (by omega) hnul hch hmin'

/-- What is found is in front of any NUL. -/
theorem found_lt {j n : Nat} (hmin : ∀ i, s ≤ i → i < j → m i ≠ ch ∧ m i ≠ 0#8) (hsn : s ≤ n)
    (hnul : m n = 0#8) (hj : m j ≠ 0#8) : j < n := by
  by_contra hge
  rcases Nat.eq_or_lt_of_le (Nat.not_lt.mp hge) with heq | hlt
  · rw [← heq] at hj
    exact hj hnul
  · exact (hmin n hsn hlt).2 hnul

theorem newline_eq_some_iff {c j : Nat} : newline m c = some j ↔
    c ≤ j ∧ j < size ∧ m j = 0x0a#8 ∧ ∀ i, c ≤ i → i < j → m i ≠ 0x0a#8 := by
  rw [newline, scanUp_eq_some_iff]
  simp only [beq_iff_eq, beq_eq_false_iff_ne]
  constructor
  · rintro ⟨h1, h2, h3, h4⟩
    exact ⟨h1, by omega, h3, h4⟩
  · rintro ⟨h1, h2, h3, h4⟩
    exact ⟨h1, by omega, h3, h4⟩

/-! ## Characters -/

/-- The characters the parser looks for. -/
def Structural (ch : BitVec 8) : Prop :=
  ch = 0#8 ∨ ch = 0x0a#8 ∨ ch = 0x23#8 ∨ ch = 0x3d#8 ∨ ch = 0xff#8

theorem Structural.nul : Structural 0#8 := Or.inl rfl

theorem Structural.newline : Structural 0x0a#8 := Or.inr (Or.inl rfl)

theorem Structural.hash : Structural 0x23#8 := Or.inr (Or.inr (Or.inl rfl))

theorem Structural.equals : Structural 0x3d#8 := Or.inr (Or.inr (Or.inr (Or.inl rfl)))

theorem Structural.erased : Structural 0xff#8 := Or.inr (Or.inr (Or.inr (Or.inr rfl)))

/-- They are left alone, and nothing becomes one of them. -/
theorem nameChar_eq_iff (hch : Structural ch) (x : BitVec 8) : nameChar x = ch ↔ x = ch := by
  revert x
  rcases hch with rfl | rfl | rfl | rfl | rfl <;> decide

theorem nameChar_idem (x : BitVec 8) : nameChar (nameChar x) = nameChar x := by
  revert x
  decide

/-- The same text from `c` on, but for names. -/
def Alike (c : Nat) (m m' : Mem) : Prop := ∀ i, c ≤ i → nameChar (m' i) = nameChar (m i)

theorem Alike.refl (c : Nat) (m : Mem) : Alike c m m := fun _ _ => rfl

theorem Alike.mono {c d : Nat} (h : Alike c m m') (hd : c ≤ d) : Alike d m m' :=
  fun i hi => h i (hd.trans hi)

theorem Alike.eq_iff {c i : Nat} (h : Alike c m m') (hi : c ≤ i) (hch : Structural ch) :
    m' i = ch ↔ m i = ch := by
  rw [← nameChar_eq_iff hch, h i hi, nameChar_eq_iff hch]

theorem scanUp_congr_of {p q : Nat → Bool} {lo n : Nat} (h : ∀ i, lo ≤ i → p i = q i) :
    scanUp p lo n = scanUp q lo n := by
  induction n generalizing lo with
  | zero => rfl
  | succ n ih =>
    rw [scanUp, scanUp, h lo le_rfl, ih fun i hi => h i (by omega)]

theorem Alike.strchr {c : Nat} (h : Alike c m m') (hs : c ≤ s) (hch : Structural ch) :
    strchr m' s ch = strchr m s ch := by
  have hscan : scanUp (fun i => m' i == ch || m' i == 0#8) s (size - s) =
      scanUp (fun i => m i == ch || m i == 0#8) s (size - s) := by
    refine scanUp_congr_of ?_
    intro i hi
    rw [Bool.eq_iff_iff]
    simp [h.eq_iff (hs.trans hi) hch, h.eq_iff (hs.trans hi) Structural.nul]
  unfold Nvmem.strchr
  rw [hscan]
  cases hres : scanUp (fun i => m i == ch || m i == 0#8) s (size - s) with
  | none => rfl
  | some i =>
    have hi := (scanUp_eq_some_iff.mp hres).1
    simp [h.eq_iff (hs.trans hi) hch]

/-! ## Names -/

/-- The name from `p` to the NUL at `q` is rewritten. -/
theorem lowerName_of {p q : Nat} (hpq : p < q) (hq : q < size) (hnul : m q = 0#8)
    (hmin : ∀ i, p < i → i < q → m i ≠ 0#8) {k : Nat} (hk : size - p ≤ k) :
    lowerName k p m = some fun i => if p ≤ i ∧ i < q then nameChar (m i) else m i := by
  induction k generalizing p m with
  | zero => omega
  | succ k ih =>
    have hin : ¬ size ≤ p + 1 := by omega
    have hnext : Function.update m p (nameChar (m p)) (p + 1) = m (p + 1) :=
      Function.update_of_ne (by omega) _ _
    simp only [lowerName, hin, if_false, hnext]
    by_cases hend : p + 1 = q
    · rw [hend, if_pos hnul]
      congr 1
      funext i
      by_cases hi : i = p
      · subst hi
        simp [hpq]
      · rw [Function.update_of_ne hi, if_neg (by omega)]
    · rw [if_neg (hmin (p + 1) (by omega) (by omega))]
      rw [ih (m := Function.update m p (nameChar (m p))) (by omega) ?_ ?_ (by omega)]
      · congr 1
        funext i
        by_cases hi : i = p
        · subst hi
          simp [hpq]
        · rw [Function.update_of_ne hi]
          by_cases hin : p ≤ i ∧ i < q
          · rw [if_pos hin, if_pos ⟨by omega, hin.2⟩]
          · rw [if_neg hin, if_neg (by omega)]
      · rw [Function.update_of_ne (by omega)]
        exact hnul
      · intro i h1 h2
        rw [Function.update_of_ne (by omega)]
        exact hmin i (by omega) h2

/-- Without a NUL behind it the loop leaves the buffer. -/
theorem lowerName_of_none {p : Nat} (hall : ∀ i, p < i → i < size → m i ≠ 0#8) (k : Nat) :
    lowerName k p m = none := by
  induction k generalizing p m with
  | zero => rfl
  | succ k ih =>
    have hnext : Function.update m p (nameChar (m p)) (p + 1) = m (p + 1) :=
      Function.update_of_ne (by omega) _ _
    simp only [lowerName, hnext]
    by_cases hend : size ≤ p + 1
    · rw [if_pos hend]
    · rw [if_neg hend, if_neg (hall (p + 1) (by omega) (by omega))]
      refine ih ?_
      intro i h1 h2
      rw [Function.update_of_ne (by omega)]
      exact hall i (by omega) h2

/-- The string at `s` ends at its first NUL. -/
theorem cstr_of {e : Nat} (hse : s ≤ e) (he : e < size) (hnul : m e = 0#8)
    (hmin : ∀ i, s ≤ i → i < e → m i ≠ 0#8) :
    cstr m s = (List.range (e - s)).map fun k => m (s + k) := by
  have hsplit : size - s = (e - s) + (size - e - 1 + 1) := by omega
  unfold cstr
  rw [hsplit, List.range_add, List.map_append, List.takeWhile_append_of_pos]
  · rw [List.range_succ_eq_map, List.map_cons, List.map_cons]
    have hzero : m (s + (e - s)) = 0#8 := by rw [Nat.add_sub_cancel' hse, hnul]
    simp [hzero]
  · intro x hx
    obtain ⟨k, hk, rfl⟩ := List.mem_map.mp hx
    rw [List.mem_range] at hk
    simpa using hmin (s + k) (by omega) (by omega)

/-! ## A line with a name -/

variable {c e j : Nat}

/-- The first NUL behind `p`. -/
theorem first_nul {p n : Nat} (hp : p < n) (hn : n < size) (hnul : m n = 0#8) :
    ∃ q, p < q ∧ q < size ∧ m q = 0#8 ∧ ∀ i, p < i → i < q → m i ≠ 0#8 := by
  have hex : ∃ q, p < q ∧ q < size ∧ m q = 0#8 := ⟨n, hp, hn, hnul⟩
  refine ⟨Nat.find hex, (Nat.find_spec hex).1, (Nat.find_spec hex).2.1, (Nat.find_spec hex).2.2, ?_⟩
  intro i h1 h2 hzero
  exact Nat.find_min hex h2 ⟨h1, h2.trans (Nat.find_spec hex).2.1, hzero⟩

/-- The name is rewritten, and the text behind it stays as it was but for names. -/
theorem name_of (halike : Alike c m m') (hce : c ≤ e) (he : e < size)
    (hmin : ∀ i, c ≤ i → i < e → m i ≠ 0x3d#8 ∧ m i ≠ 0#8)
    (hnul : c < e ∨ ∃ n, e < n ∧ n < size ∧ m n = 0#8) :
    ∃ m2, lowerName (size - c) c (Function.update m' e 0#8) = some m2 ∧ Alike (e + 1) m m2 ∧
      cstr m2 c = nameOf m c e := by
  have hmin' : ∀ i, c ≤ i → i < e → m' i ≠ 0#8 := by
    intro i h1 h2
    rw [ne_eq, halike.eq_iff h1 Structural.nul]
    exact (hmin i h1 h2).2
  have hat : ∀ i, i ≠ e → Function.update m' e 0#8 i = m' i :=
    fun i hi => Function.update_of_ne hi _ _
  rcases Nat.eq_or_lt_of_le hce with rfl | hlt
  · -- an empty name: the loop goes on to the next NUL
    obtain ⟨n, hn, hns, hzero⟩ := hnul.resolve_left (lt_irrefl c)
    have hzero' : Function.update m' c 0#8 n = 0#8 := by
      rw [hat n (by omega), halike.eq_iff (by omega) Structural.nul, hzero]
    obtain ⟨q, hq, hqs, hqnul, hqmin⟩ := first_nul hn hns hzero'
    refine ⟨_, lowerName_of hq hqs hqnul hqmin le_rfl, ?_, ?_⟩
    · intro i hi
      rw [← halike i (by omega)]
      simp only [hat i (by omega)]
      split_ifs
      · exact nameChar_idem _
      · rfl
    · rw [cstr_of le_rfl he]
      · simp [nameOf]
      · rw [if_pos ⟨le_rfl, hq⟩, Function.update_self]
        decide
      · intro i h1 h2
        omega
  · have hzero : Function.update m' e 0#8 e = 0#8 := Function.update_self _ _ _
    have hbefore : ∀ i, c < i → i < e → Function.update m' e 0#8 i ≠ 0#8 := by
      intro i h1 h2
      rw [hat i (by omega)]
      exact hmin' i (by omega) h2
    have hname : ∀ i, c ≤ i → i < e →
        (if c ≤ i ∧ i < e then nameChar (Function.update m' e 0#8 i)
          else Function.update m' e 0#8 i) = nameChar (m i) := by
      intro i h1 h2
      rw [if_pos ⟨h1, h2⟩, hat i (by omega), halike i h1]
    refine ⟨_, lowerName_of hlt he hzero hbefore le_rfl, ?_, ?_⟩
    · intro i hi
      dsimp only
      rw [if_neg (by omega), hat i (by omega), halike i (by omega)]
    · rw [cstr_of hce he]
      · refine List.map_congr_left ?_
        intro k hk
        rw [List.mem_range] at hk
        exact hname (c + k) (by omega) (by omega)
      · rw [if_neg (by omega), hzero]
      · intro i h1 h2
        rw [hname i h1 h2, ne_eq, nameChar_eq_iff Structural.nul]
        exact (hmin i h1 h2).2

/-- An empty name with no NUL behind it. -/
theorem emptyName_out (halike : Alike c m m') (hall : ∀ n, c < n → n < size → m n ≠ 0#8) :
    lowerName (size - c) c (Function.update m' c 0#8) = none := by
  refine lowerName_of_none ?_ _
  intro i h1 h2
  rw [Function.update_of_ne (by omega), ne_eq, halike.eq_iff (by omega) Structural.nul]
  exact hall i h1 h2

/-! ## The cells of a line -/

theorem lineCell_of (hstart : m c ≠ 0x23#8) (hce : c ≤ e) (hej : e < j) (heq : m e = 0x3d#8)
    (hmin : ∀ i, c ≤ i → i < e → m i ≠ 0x3d#8 ∧ m i ≠ 0#8) :
    lineCell m c j = some { name := nameOf m c e, offset := e + 1, len := j - (e + 1) } := by
  have hscan : scanUp (fun i => m i == 0x3d#8) c (j - c) = some e := by
    refine scanUp_eq_some_iff.mpr ⟨hce, by omega, by simpa using heq, ?_⟩
    intro i h1 h2
    simpa using (hmin i h1 h2).1
  rw [lineCell, if_neg hstart, hscan]
  rfl

theorem lineCell_none (h : m c = 0x23#8 ∨ ∀ i, c ≤ i → i < j → m i ≠ 0x3d#8) :
    lineCell m c j = none := by
  unfold lineCell
  split_ifs with hstart
  · rfl
  · have hno := h.resolve_left hstart
    have hscan : scanUp (fun i => m i == 0x3d#8) c (j - c) = none := by
      refine scanUp_eq_none_iff.mpr ?_
      intro i h1 h2
      simpa using hno i h1 (by omega)
    rw [hscan]
    rfl

theorem expected_line (hc : c < size) (hstart : m c ≠ 0xff#8) (hj : newline m c = some j) :
    expected m c = (lineCell m c j).toList ++ expected m (j + 1) := by
  rw [expected, if_pos ⟨hc, hstart⟩]
  split
  · next hnone =>
    rw [hj] at hnone
    cases hnone
  · next j' hj' =>
    rw [hj, Option.some.injEq] at hj'
    rw [hj']

theorem expected_last (h : c < size → m c ≠ 0xff#8 → newline m c = none) : expected m c = [] := by
  rw [expected]
  split_ifs with hc
  · split
    · rfl
    · next j hj =>
      rw [h hc.1 hc.2] at hj
      cases hj
  · rfl

/-- No name has a newline in it. -/
theorem expected_name (m : Mem) (c : Nat) {x : Cell} (hx : x ∈ expected m c) : 0x0a#8 ∉ x.name := by
  induction c using expected.induct m with
  | case1 c hc hnone =>
    rw [expected_last fun _ _ => hnone] at hx
    cases hx
  | case2 c hc j hj ih =>
    rw [expected_line hc.1 hc.2 hj, List.mem_append] at hx
    rcases hx with hx | hx
    · rw [Option.mem_toList] at hx
      unfold lineCell at hx
      split_ifs at hx with hstart
      rw [Option.map_eq_some_iff] at hx
      obtain ⟨e, he, rfl⟩ := hx
      have hlt := scanUp_eq_some_iff.mp he
      intro hmem
      obtain ⟨k, hk, hch⟩ := List.mem_map.mp hmem
      rw [List.mem_range] at hk
      rw [nameChar_eq_iff Structural.newline] at hch
      exact (newline_eq_some_iff.mp hj).2.2.2 (c + k) (by omega) (by omega) hch
    · exact ih hx
  | case3 c hc =>
    rw [expected_last fun h1 h2 => absurd ⟨h1, h2⟩ hc] at hx
    cases hx

/-! ## One line of the loop -/

section Step

variable {add : Nat → Int} {fuel : Nat} {cells : List NvmemCellInfo} {ret : Int} {m2 : Mem}

theorem addCells_out (h : size ≤ c) : addCells add (fuel + 1) c m cells ret = .outOfBounds := by
  simp only [addCells, h, if_true]

theorem addCells_stop (hc : c < size) (h : m c = 0xff#8) :
    addCells add (fuel + 1) c m cells ret = .done cells ret := by
  simp only [addCells, Nat.not_le.mpr hc, h, if_true, if_false]

/-- A comment, or nothing but a NUL where a '=' is looked for. -/
theorem addCells_skip (hc : c < size) (hff : m c ≠ 0xff#8)
    (h : m c = 0x23#8 ∨ strchr m c 0x3d#8 = some none) :
    addCells add (fuel + 1) c m cells ret =
      match strchr m c 0x0a#8 with
      | none => .outOfBounds
      | some none => .done cells ret
      | some (some j) => addCells add fuel (j + 1) m cells ret := by
  simp only [addCells, Nat.not_le.mpr hc, hff, if_false]
  by_cases hhash : m c = 0x23#8
  · exact (if_pos hhash).trans rfl
  · rw [h.resolve_left hhash]
    exact (if_neg hhash).trans rfl

theorem addCells_search_out (hc : c < size) (hff : m c ≠ 0xff#8) (hhash : m c ≠ 0x23#8)
    (h : strchr m c 0x3d#8 = none) : addCells add (fuel + 1) c m cells ret = .outOfBounds := by
  simp only [addCells, Nat.not_le.mpr hc, hff, hhash, if_false, h]

theorem addCells_name_out (hc : c < size) (hff : m c ≠ 0xff#8) (hhash : m c ≠ 0x23#8)
    (h : strchr m c 0x3d#8 = some (some e))
    (hname : lowerName (size - c) c (Function.update m e 0#8) = none) :
    addCells add (fuel + 1) c m cells ret = .outOfBounds := by
  simp only [addCells, Nat.not_le.mpr hc, hff, hhash, if_false, h, hname]

theorem addCells_name (hc : c < size) (hff : m c ≠ 0xff#8) (hhash : m c ≠ 0x23#8)
    (h : strchr m c 0x3d#8 = some (some e))
    (hname : lowerName (size - c) c (Function.update m e 0#8) = some m2) :
    addCells add (fuel + 1) c m cells ret =
      match strchr m2 (e + 1) 0x0a#8 with
      | none => .outOfBounds
      | some none => .done cells ret
      | some (some j) =>
          if add cells.length ≠ 0
          then .done (cells ++ [cellInfo m2 c (e + 1) j]) (add cells.length)
          else addCells add fuel (j + 1) m2 (cells ++ [cellInfo m2 c (e + 1) j])
            (add cells.length) := by
  cases hvalue : strchr m2 (e + 1) 0x0a#8 with
  | none => simp only [addCells, Nat.not_le.mpr hc, hff, hhash, if_false, h, hname, hvalue]
  | some r =>
    cases r with
    | none => simp only [addCells, Nat.not_le.mpr hc, hff, hhash, if_false, h, hname, hvalue]
    | some j => simp only [addCells, Nat.not_le.mpr hc, hff, hhash, if_false, h, hname, hvalue]

end Step

/-! ## The end of the text -/

section Runs

variable {add : Nat → Int}

/-- In front of a NUL, with no newline between a '=' and it, the parser adds nothing. By induction
over the lines: each is left behind, or the last. -/
theorem addCells_before_nul {n : Nat} (hn : n < size) (hnul : m n = 0#8) {fuel : Nat}
    {cells : List NvmemCellInfo} {ret : Int} (hfuel : size - c < fuel) (hcn : c ≤ n)
    (halike : Alike c m m')
    (hpair : ∀ e j, c ≤ e → e < j → j < n → ¬ (m e = 0x3d#8 ∧ m j = 0x0a#8)) :
    addCells add fuel c m' cells ret = .done cells ret := by
  induction fuel generalizing c m' with
  | zero => omega
  | succ fuel ih =>
    have hc : c < size := by omega
    by_cases hff : m' c = 0xff#8
    · exact addCells_stop hc hff
    · have hskip : m' c = 0x23#8 ∨ strchr m' c 0x3d#8 = some none →
          addCells add (fuel + 1) c m' cells ret = .done cells ret := by
        intro hskip
        rw [addCells_skip hc hff hskip, halike.strchr le_rfl Structural.newline]
        have hsearch := search m c 0x0a#8
        generalize strchr m c 0x0a#8 = r at hsearch
        cases hsearch with
        | found j hs hj hch hmin =>
          have hjn : j < n := found_lt hmin hcn hnul (by rw [hch]; decide)
          refine ih (by omega) hjn (halike.mono (by omega)) ?_
          intro e j' h1 h2 h3
          exact hpair e j' (by omega) h2 h3
        | null => rfl
        | out hall => exact absurd hnul (hall n hcn hn).2
      by_cases hhash : m' c = 0x23#8
      · exact hskip (Or.inl hhash)
      · have hsearch := search m c 0x3d#8
        have heq : strchr m' c 0x3d#8 = strchr m c 0x3d#8 :=
          halike.strchr le_rfl Structural.equals
        rw [← heq] at hsearch
        generalize hres : strchr m' c 0x3d#8 = r at hsearch
        cases hsearch with
        | null => exact hskip (Or.inr hres)
        | out hall => exact absurd hnul (hall n hcn hn).2
        | found e hs he hch hmin =>
          have hen : e < n := found_lt hmin hcn hnul (by rw [hch]; decide)
          obtain ⟨m2, hname, halike2, -⟩ := name_of halike hs he hmin (Or.inr ⟨n, hen, hn, hnul⟩)
          rw [addCells_name hc hff hhash hres hname,
            halike2.strchr le_rfl Structural.newline]
          have hsearch := search m (e + 1) 0x0a#8
          generalize strchr m (e + 1) 0x0a#8 = r at hsearch
          cases hsearch with
          | null => rfl
          | out hall => exact absurd hnul (hall n hen hn).2
          | found j hs' hj hnl hmin' =>
            have hjn : j < n := found_lt hmin' hen hnul (by rw [hnl]; decide)
            exact absurd ⟨hch, hnl⟩ (hpair e j hs (by omega) hjn)

/-! ## Regular lines are read -/

theorem strchr_of {j : Nat} (hs : s ≤ j) (hj : j < size) (hch : m j = ch)
    (hmin : ∀ i, s ≤ i → i < j → m i ≠ ch ∧ m i ≠ 0#8) : strchr m s ch = some (some j) := by
  have hscan : scanUp (fun i => m i == ch || m i == 0#8) s (size - s) = some j := by
    refine scanUp_eq_some_iff.mpr ⟨hs, by omega, by simp [hch], ?_⟩
    intro i h1 h2
    simpa using hmin i h1 h2
  rw [strchr, hscan]
  simp [hch]

/-- What is passed on for a line is its cell, but for an empty value of MFG_MAC. -/
theorem cellInfo_cell {m2 : Mem} (hname : cstr m2 c = nameOf m c e) (j : Nat) :
    (cellInfo m2 c (e + 1) j).cell = { name := nameOf m c e, offset := e + 1, len := j - (e + 1) } ↔
      (nameOf m c e = mfgMac → 0 < j - (e + 1)) := by
  unfold cellInfo NvmemCellInfo.cell
  rw [hname]
  by_cases hmac : nameOf m c e = mfgMac
  · rcases Nat.eq_zero_or_pos (j - (e + 1)) with hzero | hpos
    · simp [hmac, hzero]
    · simp [hmac, hpos, Nat.ne_of_gt hpos]
  · simp [hmac]

theorem cellInfo_name {m2 : Mem} (t j : Nat) : (cellInfo m2 c t j).cell.name = cstr m2 c := by
  unfold cellInfo NvmemCellInfo.cell
  dsimp only
  split_ifs <;> rfl

/-- The first '=' of a line that has one. -/
theorem RegularLine.first_eq (h : RegularLine m c j) (hhash : m c ≠ 0x23#8) :
    ∃ e, c ≤ e ∧ e < j ∧ m e = 0x3d#8 ∧ ∀ i, c ≤ i → i < e → m i ≠ 0x3d#8 ∧ m i ≠ 0#8 := by
  have hex := h.whole.resolve_left hhash
  obtain ⟨h1, h2, h3⟩ := Nat.find_spec hex
  refine ⟨Nat.find hex, h1, h2, h3, ?_⟩
  intro i hi hlt
  refine ⟨?_, h.noNul i hi (hlt.trans h2)⟩
  intro heq
  exact Nat.find_min hex hlt ⟨hi, hlt.trans h2, heq⟩

/-- What is returned: of the last cell that is passed on, or as it was. -/
def lastRet (add : Nat → Int) : Nat → Int → List Cell → Int
  | _, ret, [] => ret
  | k, _, _ :: xs => if add k = 0 then lastRet add (k + 1) 0 xs else add k

/-- A cell that was passed on, and what comes behind it. -/
theorem attempted_cons {infos : List NvmemCellInfo} {info : NvmemCellInfo} {x : Cell} {k : Nat}
    {xs : List Cell} (hadd : add k = 0) (hinfo : info.cell = x)
    (hrest : infos.map NvmemCellInfo.cell = attempted add (k + 1) xs) :
    (info :: infos).map NvmemCellInfo.cell = attempted add k (x :: xs) := by
  rw [List.map_cons, hinfo, hrest, attempted, if_pos hadd]

/-- Regular lines up to an end of the text: the cells are those of the lines, up to the first that
is refused. By induction over the lines. -/
theorem addCells_of_regular (add : Nat → Int) {c' : Nat} (h : RegularTo m c c')
    (hend : EndsAt m c') {fuel : Nat} (cells : List NvmemCellInfo) (ret : Int)
    (hfuel : size - c < fuel) (halike : Alike c m m') :
    ∃ infos, addCells add fuel c m' cells ret =
        .done (cells ++ infos) (lastRet add cells.length ret (expected m c)) ∧
      infos.map NvmemCellInfo.cell = attempted add cells.length (expected m c) := by
  induction h generalizing fuel m' cells ret with
  | here c =>
    obtain ⟨hc, hff | ⟨n, hcn, hn, hnul, hnone, hpair⟩⟩ := hend
    · refine ⟨[], ?_⟩
      have hnone : expected m c = [] := expected_last fun _ hne => absurd hff hne
      obtain ⟨fuel, rfl⟩ : ∃ k, fuel = k + 1 := ⟨fuel - 1, by omega⟩
      have hff' := (halike.eq_iff le_rfl Structural.erased).mpr hff
      rw [addCells_stop hc hff', hnone, List.append_nil]
      exact ⟨rfl, rfl⟩
    · refine ⟨[], ?_⟩
      rw [addCells_before_nul hn hnul hfuel hcn halike hpair, hnone, List.append_nil]
      exact ⟨rfl, rfl⟩
  | @line c j c' hline hrest ih =>
    obtain ⟨hcj, hj, hnl, hmin⟩ := newline_eq_some_iff.mp hline.ended
    have hc : c < size := by omega
    obtain ⟨fuel, rfl⟩ : ∃ k, fuel = k + 1 := ⟨fuel - 1, by omega⟩
    have hff : m' c ≠ 0xff#8 := by
      rw [ne_eq, halike.eq_iff le_rfl Structural.erased]
      exact hline.start
    have hhash : m' c = 0x23#8 ↔ m c = 0x23#8 :=
      halike.eq_iff le_rfl Structural.hash
    rw [expected_line hc hline.start hline.ended]
    by_cases hcomment : m c = 0x23#8
    · have hfound : strchr m' c 0x0a#8 = some (some j) := by
        rw [halike.strchr le_rfl Structural.newline]
        exact strchr_of hcj hj hnl fun i h1 h2 => ⟨hmin i h1 h2, hline.noNul i h1 h2⟩
      rw [addCells_skip hc hff (Or.inl (hhash.mpr hcomment)), hfound,
        lineCell_none (Or.inl hcomment)]
      exact ih hend cells ret (by omega) (halike.mono (by omega))
    · obtain ⟨e, hce, hej, heq, hfirst⟩ := hline.first_eq hcomment
      have hfound : strchr m' c 0x3d#8 = some (some e) := by
        rw [halike.strchr le_rfl Structural.equals]
        exact strchr_of hce (by omega) heq hfirst
      have hnul : c < e ∨ ∃ n, e < n ∧ n < size ∧ m n = 0#8 := by
        rcases Nat.eq_or_lt_of_le hce with rfl | hlt
        · obtain ⟨n, hn, hns, hzero⟩ := hline.emptyName heq
          exact Or.inr ⟨n, by omega, hns, hzero⟩
        · exact Or.inl hlt
      obtain ⟨m2, hname, halike2, hcstr⟩ := name_of halike hce (by omega) hfirst hnul
      have hend2 : strchr m2 (e + 1) 0x0a#8 = some (some j) := by
        rw [halike2.strchr le_rfl Structural.newline]
        exact strchr_of (by omega) hj hnl fun i h1 h2 =>
          ⟨hmin i (by omega) h2, hline.noNul i (by omega) h2⟩
      have hcell := lineCell_of (j := j) hcomment hce hej heq hfirst
      have hinfo := (cellInfo_cell hcstr j).mpr fun hmac => hline.mfgMac _ hcell hmac
      rw [addCells_name hc hff (mt hhash.mp hcomment) hfound hname, hend2, hcell]
      simp only [Option.toList_some, List.singleton_append]
      by_cases hadd : add cells.length = 0
      · rw [if_neg (not_not_intro hadd)]
        have hless : size - (j + 1) < fuel := by omega
        obtain ⟨infos, hrun, hmap⟩ := ih hend (cells ++ [cellInfo m2 c (e + 1) j])
          (add cells.length) hless (halike2.mono (show e + 1 ≤ j + 1 by omega))
        rw [List.length_append, List.length_singleton] at hrun hmap
        refine ⟨cellInfo m2 c (e + 1) j :: infos, ?_, attempted_cons hadd hinfo hmap⟩
        rw [hrun, List.append_assoc, hadd, lastRet, if_pos hadd]
        rfl
      · rw [if_pos hadd]
        refine ⟨[cellInfo m2 c (e + 1) j], ?_, ?_⟩
        · rw [lastRet, if_neg hadd]
        · rw [attempted, if_neg hadd, List.map_singleton, hinfo]

/-! ## Nothing else is -/

/-- No cell is refused, and the cells are those of the lines from `c` on. -/
def RunsRight (m : Mem) (c fuel : Nat) (m' : Mem) (cells : List NvmemCellInfo) (ret : Int) : Prop :=
  ∃ infos r, addCells (fun _ => 0) fuel c m' cells ret = .done (cells ++ infos) r ∧
    infos.map NvmemCellInfo.cell = expected m c

variable {fuel : Nat} {cells : List NvmemCellInfo} {ret : Int}

/-- A run that adds nothing. -/
theorem RunsRight.expected_nil (h : RunsRight m c fuel m' cells ret)
    (hrun : addCells (fun _ => 0) fuel c m' cells ret = .done cells ret) : expected m c = [] := by
  obtain ⟨infos, r, hdone, hmap⟩ := h
  rw [hrun, Outcome.done.injEq] at hdone
  have hnil : infos = [] := by simpa using hdone.1
  rw [← hmap, hnil]
  rfl

theorem RunsRight.not_out (h : RunsRight m c fuel m' cells ret) :
    addCells (fun _ => 0) fuel c m' cells ret ≠ .outOfBounds := by
  obtain ⟨infos, r, hdone, -⟩ := h
  rw [hdone]
  exact fun hout => by cases hout

/-- Cells are only added. -/
theorem addCells_prefix {add : Nat → Int} {cells' : List NvmemCellInfo} {r : Int}
    (h : addCells add fuel c m cells ret = .done cells' r) : cells <+: cells' := by
  induction fuel generalizing c m cells ret with
  | zero => cases h
  | succ fuel ih =>
    have hnext : (match strchr m c 0x0a#8 with
        | none => Outcome.outOfBounds
        | some none => .done cells ret
        | some (some j) => addCells add fuel (j + 1) m cells ret) = .done cells' r →
        cells <+: cells' := by
      intro hrun
      split at hrun
      · cases hrun
      · rw [Outcome.done.injEq] at hrun
        exact hrun.1 ▸ List.prefix_refl cells
      · exact ih hrun
    by_cases hc : size ≤ c
    · rw [addCells_out hc] at h
      cases h
    · replace hc := Nat.not_le.mp hc
      by_cases hff : m c = 0xff#8
      · rw [addCells_stop hc hff, Outcome.done.injEq] at h
        exact h.1 ▸ List.prefix_refl cells
      · by_cases hhash : m c = 0x23#8
        · rw [addCells_skip hc hff (Or.inl hhash)] at h
          exact hnext h
        · cases hfound : strchr m c 0x3d#8 with
          | none =>
            rw [addCells_search_out hc hff hhash hfound] at h
            cases h
          | some o =>
            cases o with
            | none =>
              rw [addCells_skip hc hff (Or.inr hfound)] at h
              exact hnext h
            | some e =>
              cases hname : lowerName (size - c) c (Function.update m e 0#8) with
              | none =>
                rw [addCells_name_out hc hff hhash hfound hname] at h
                cases h
              | some m2 =>
                rw [addCells_name hc hff hhash hfound hname] at h
                split at h
                · cases h
                · rw [Outcome.done.injEq] at h
                  exact h.1 ▸ List.prefix_refl cells
                · split_ifs at h
                  · rw [Outcome.done.injEq] at h
                    exact h.1 ▸ List.prefix_append _ _
                  · exact (List.prefix_append _ _).trans (ih h)

/-- The run goes on behind a cell that was passed on. -/
theorem RunsRight.next (h : RunsRight m c fuel m' cells ret) (fuel' j : Nat) (m2 : Mem)
    (info : NvmemCellInfo) (hrun : addCells (fun _ => 0) fuel c m' cells ret =
      addCells (fun _ => 0) fuel' (j + 1) m2 (cells ++ [info]) 0) :
    ∃ infos r, addCells (fun _ => 0) fuel' (j + 1) m2 (cells ++ [info]) 0 =
        .done (cells ++ [info] ++ infos) r ∧
      info.cell :: infos.map NvmemCellInfo.cell = expected m c := by
  obtain ⟨infos, r, hdone, hmap⟩ := h
  rw [hrun] at hdone
  obtain ⟨more, hmore⟩ := addCells_prefix hdone
  rw [← hmore] at hdone
  refine ⟨more, r, hdone, ?_⟩
  rw [List.append_assoc, List.append_cancel_left_eq] at hmore
  rw [← hmap, ← hmore]
  rfl

/-- The run goes on behind a line without a cell. -/
theorem RunsRight.skip (h : RunsRight m c fuel m' cells ret) {fuel' : Nat}
    (hrun : addCells (fun _ => 0) fuel c m' cells ret =
      addCells (fun _ => 0) fuel' (j + 1) m' cells ret)
    (hcells : expected m c = expected m (j + 1)) : RunsRight m (j + 1) fuel' m' cells ret := by
  obtain ⟨infos, r, hdone, hmap⟩ := h
  rw [hrun] at hdone
  rw [hcells] at hmap
  exact ⟨infos, r, hdone, hmap⟩

/-- A line that is regular, and regular lines behind it. -/
theorem regular_line (h : RegularLine m c j) (hrest : ∃ c', RegularTo m (j + 1) c' ∧ EndsAt m c') :
    ∃ c', RegularTo m c c' ∧ EndsAt m c' := by
  obtain ⟨c', hto, hend⟩ := hrest
  exact ⟨c', RegularTo.line h hto, hend⟩

/-- A text from which the cells come as they are meant, when none is refused, has regular lines up
to an end. -/
theorem regular_of_addCells (hfuel : size - c < fuel) (halike : Alike c m m')
    (h : RunsRight m c fuel m' cells ret) : ∃ c', RegularTo m c c' ∧ EndsAt m c' := by
  induction fuel generalizing c m' cells ret with
  | zero => omega
  | succ fuel ih =>
    by_cases hc : size ≤ c
    · exact absurd (addCells_out hc) h.not_out
    replace hc := Nat.not_le.mp hc
    by_cases hff : m c = 0xff#8
    · exact ⟨c, RegularTo.here c, hc, Or.inl hff⟩
    have hff' : m' c ≠ 0xff#8 := by
      rwa [ne_eq, halike.eq_iff le_rfl Structural.erased]
    have hhash : m' c = 0x23#8 ↔ m c = 0x23#8 :=
      halike.eq_iff le_rfl Structural.hash
    -- an end of the text that is a NUL
    by_cases hnul : ∃ n, c ≤ n ∧ n < size ∧ m n = 0#8 ∧
        ∀ e j, c ≤ e → e < j → j < n → ¬ (m e = 0x3d#8 ∧ m j = 0x0a#8)
    · obtain ⟨n, hcn, hn, hzero, hpair⟩ := hnul
      have hnone := h.expected_nil (addCells_before_nul hn hzero hfuel hcn halike hpair)
      exact ⟨c, RegularTo.here c, hc, Or.inr ⟨n, hcn, hn, hzero, hnone, hpair⟩⟩
    by_cases hcomment : m c = 0x23#8
    · have hskip := Or.inl (b := strchr m' c 0x3d#8 = some none) (hhash.mpr hcomment)
      have hsearch := search m c 0x0a#8
      have heq : strchr m' c 0x0a#8 = strchr m c 0x0a#8 :=
        halike.strchr le_rfl Structural.newline
      rw [← heq] at hsearch
      generalize hres : strchr m' c 0x0a#8 = o at hsearch
      cases hsearch with
      | out => exact absurd (by rw [addCells_skip hc hff' hskip, hres]) h.not_out
      | null n hs hn hzero _ hmin =>
        refine absurd ⟨n, hs, hn, hzero, ?_⟩ hnul
        intro e j h1 h2 h3 hej
        exact (hmin j (by omega) h3).1 hej.2
      | found j hs hj hch hmin =>
        have hended := newline_eq_some_iff.mpr ⟨hs, hj, hch, fun i h1 h2 => (hmin i h1 h2).1⟩
        have hnone : lineCell m c j = none := lineCell_none (Or.inl hcomment)
        have hrest : RunsRight m (j + 1) fuel m' cells ret := by
          refine h.skip ?_ ?_
          · rw [addCells_skip hc hff' hskip, hres]
          · rw [expected_line hc hff hended, hnone]
            rfl
        refine regular_line ⟨hff, hended, fun i h1 h2 => (hmin i h1 h2).2, Or.inl hcomment, ?_, ?_⟩
          (ih (by omega) (halike.mono (by omega)) hrest)
        · intro heq
          rw [hcomment] at heq
          cases heq
        · intro x hx
          rw [hnone] at hx
          cases hx
    · have hhash' := mt hhash.mp hcomment
      have hsearch := search m c 0x3d#8
      have heq : strchr m' c 0x3d#8 = strchr m c 0x3d#8 :=
        halike.strchr le_rfl Structural.equals
      rw [← heq] at hsearch
      generalize hres : strchr m' c 0x3d#8 = o at hsearch
      cases hsearch with
      | out => exact absurd (addCells_search_out hc hff' hhash' hres) h.not_out
      | null n hs hn hzero _ hmin =>
        refine absurd ⟨n, hs, hn, hzero, ?_⟩ hnul
        intro e j h1 h2 h3 hej
        exact (hmin e h1 (by omega)).1 hej.1
      | found e hce he hch hmin =>
        by_cases hfits : c < e ∨ ∃ n, e < n ∧ n < size ∧ m n = 0#8
        · obtain ⟨m2, hname, halike2, hcstr⟩ := name_of halike hce he hmin hfits
          have hsearch := search m (e + 1) 0x0a#8
          have heq2 : strchr m2 (e + 1) 0x0a#8 = strchr m (e + 1) 0x0a#8 :=
            halike2.strchr le_rfl Structural.newline
          rw [← heq2] at hsearch
          generalize hend : strchr m2 (e + 1) 0x0a#8 = o at hsearch
          cases hsearch with
          | out => exact absurd (by rw [addCells_name hc hff' hhash' hres hname, hend]) h.not_out
          | null n hs hn hzero _ hmin' =>
            refine absurd ⟨n, by omega, hn, hzero, ?_⟩ hnul
            intro e' j h1 h2 h3 hej
            have hge : e ≤ e' := by
              by_contra hlt
              exact (hmin e' h1 (by omega)).1 hej.1
            exact (hmin' j (by omega) h3).1 hej.2
          | found j hs hj hnl hmin' =>
            have hrun : addCells (fun _ => 0) (fuel + 1) c m' cells ret =
                addCells (fun _ => 0) fuel (j + 1) m2 (cells ++ [cellInfo m2 c (e + 1) j]) 0 := by
              rw [addCells_name hc hff' hhash' hres hname, hend]
              rfl
            obtain ⟨infos, r, hdone, hcells⟩ := h.next fuel j m2 _ hrun
            have hline : ∀ i, c ≤ i → i < e → m i ≠ 0x0a#8 := by
              intro i h1 h2 hi
              have hmem : (cellInfo m2 c (e + 1) j).cell ∈ expected m c := by
                rw [← hcells]
                exact List.mem_cons_self
              refine expected_name m c hmem ?_
              rw [cellInfo_name, hcstr]
              refine List.mem_map.mpr ⟨i - c, List.mem_range.mpr (by omega), ?_⟩
              rw [Nat.add_sub_cancel' h1, hi]
              decide
            have hno : ∀ i, c ≤ i → i < j → m i ≠ 0x0a#8 ∧ m i ≠ 0#8 := by
              intro i h1 h2
              rcases Nat.lt_trichotomy i e with hlt | rfl | hgt
              · exact ⟨hline i h1 hlt, (hmin i h1 hlt).2⟩
              · rw [hch]
                decide
              · exact hmin' i (by omega) h2
            have hended := newline_eq_some_iff.mpr
              ⟨by omega, hj, hnl, fun i h1 h2 => (hno i h1 h2).1⟩
            have hcell := lineCell_of (j := j) hcomment hce (by omega) hch hmin
            rw [expected_line hc hff hended, hcell, Option.toList_some, List.singleton_append,
              List.cons.injEq] at hcells
            have hmac := (cellInfo_cell hcstr j).mp hcells.1
            refine regular_line ⟨hff, hended, fun i h1 h2 => (hno i h1 h2).2,
              Or.inr ⟨e, hce, by omega, hch⟩, ?_, ?_⟩
              (ih (by omega) (halike2.mono (by omega)) ⟨infos, r, hdone, hcells.2⟩)
            · intro heq
              have hec : e = c := by
                by_contra hne
                exact (hmin c le_rfl (by omega)).1 heq
              obtain ⟨n, hn, hns, hzero⟩ := hfits.resolve_left (by omega)
              refine ⟨n, ?_, hns, hzero⟩
              by_contra hle
              rcases Nat.eq_or_lt_of_le (Nat.not_lt.mp hle) with rfl | hlt
              · rw [hnl] at hzero
                cases hzero
              · exact (hno n (by omega) hlt).2 hzero
            · intro x hx hxmac
              rw [hcell, Option.some.injEq] at hx
              rw [← hx] at hxmac ⊢
              exact hmac hxmac
        · obtain ⟨hge, hall⟩ := not_or.mp hfits
          have hec : e = c := by omega
          rw [hec] at hres
          have hname := emptyName_out halike fun n h1 h2 h3 =>
            hall ⟨n, by omega, h2, h3⟩
          exact absurd (addCells_name_out hc hff' hhash' hres hname) h.not_out

/-! ## The parser -/

theorem attempted_of_none (k : Nat) (xs : List Cell) : attempted (fun _ => 0) k xs = xs := by
  induction xs generalizing k with
  | nil => rfl
  | cons x xs ih => rw [attempted, if_pos rfl, ih]

/-- With none refused, 0 is returned, if there is a cell. -/
theorem lastRet_eq_zero {add : Nat → Int} {k : Nat} {ret : Int} {xs : List Cell}
    (hadd : ∀ i < (attempted add k xs).length, add (k + i) = 0) (h : xs ≠ [] ∨ ret = 0) :
    lastRet add k ret xs = 0 := by
  induction xs generalizing k ret with
  | nil => exact h.resolve_left (not_not_intro rfl)
  | cons x xs ih =>
    have hfirst : add k = 0 := hadd 0 (by simp [attempted])
    rw [lastRet, if_pos hfirst]
    refine ih ?_ (Or.inr rfl)
    intro i hi
    have hnext := hadd (i + 1) (by rw [attempted, if_pos hfirst, List.length_cons]; omega)
    rwa [Nat.add_assoc, Nat.add_comm 1 i]

/-- The parser reads exactly the format, if and only if the text has a cell and regular lines up to
its end. -/
theorem parserRight_iff (m : Mem) : ParserRight m ↔ WellFormed m := by
  have hfuel : size - 0 < size + 1 := by omega
  constructor
  · intro h
    obtain ⟨cells, ret, hrun, hmap, hret⟩ := h fun _ => 0
    rw [attempted_of_none] at hmap
    obtain ⟨c, hto, hend⟩ := regular_of_addCells hfuel (Alike.refl 0 m) ⟨cells, ret, hrun, hmap⟩
    refine ⟨?_, c, hto, hend⟩
    intro hnil
    obtain ⟨infos, hrun', -⟩ := addCells_of_regular (fun _ => 0) hto hend [] size hfuel
      (Alike.refl 0 m)
    rw [← adtranAddCells, hrun, Outcome.done.injEq, hnil] at hrun'
    have hzero := hret fun _ _ => rfl
    rw [hrun'.2] at hzero
    revert hzero
    decide
  · rintro ⟨hcell, c, hto, hend⟩ add
    obtain ⟨infos, hrun, hmap⟩ := addCells_of_regular add hto hend [] size hfuel
      (Alike.refl 0 m)
    refine ⟨infos, _, hrun, hmap, ?_⟩
    intro hadd
    refine lastRet_eq_zero ?_ (Or.inl hcell)
    intro i hi
    rw [List.length_nil] at hmap hi ⊢
    rw [Nat.zero_add]
    refine hadd i ?_
    rw [← hmap, List.length_map] at hi
    exact hi

end Runs

/-! ## A blank line in front of the padding -/

/-- "A=1", an empty line, and 0xff up to the end. -/
def blankLine : Mem := fun i =>
  if i = 0 then 0x41#8 else if i = 1 then 0x3d#8 else if i = 2 then 0x31#8
  else if i = 3 ∨ i = 4 then 0x0a#8 else 0xff#8

/-- In the empty line a '=' is looked for beyond the end of the buffer. -/
theorem not_parserRight_blankLine : ¬ ParserRight blankLine := by
  intro h
  obtain ⟨cells, ret, hrun, -, -⟩ := h fun _ => 0
  have hout : (match adtranAddCells (fun _ => 0) blankLine with
      | .outOfBounds => true
      | _ => false) = true := by
    decide +kernel
  rw [hrun] at hout
  cases hout

end Airoha.Nvmem
