/-
Airoha.Lib.Faults — programs that may loop and may fault.

A program of `Airoha.Lib.Looping` that can also stop with a fault: a
division by zero, a shift out of range, any operation the language leaves
undefined. `m.Ends s Q E` says that `m` comes to an end from `s`, with a result
in `Q` or with a fault in `E`, and `m.Returns s Q` that it ends with a result
in `Q`. There is one law for each way of building a program, each an
equivalence. For a loop whose rounds are measured, `returns_doWhile_iff`
turns the question whether it returns into a question about single rounds:
the rounds it reaches, `Reaches`, and a condition on each.
-/
import Airoha.Lib.Looping

namespace Airoha.Lib

/-- A program over the state `σ` that returns an `α` or faults with an `ε`. -/
abbrev Faulting (ε σ α : Type) := ExceptT ε (Looping σ) α

namespace Faulting

variable {ε σ α β : Type}

/-- One step without loops or faults. -/
def act (f : σ → α × σ) : Faulting ε σ α := ExceptT.lift (Looping.act f)

/-- `do { a = body(a); } while (again(a));`, where a fault in the body ends the loop. -/
def doWhile (body : α → Faulting ε σ α) (again : α → Bool) (a : α) : Faulting ε σ α :=
  ExceptT.mk (Looping.doWhile
    (fun x => match x with
      | .ok a => (body a).run
      | .error e => pure (.error e))
    (fun x => match x with
      | .ok a => again a
      | .error _ => false)
    (.ok a))

/-! ## Ending -/

/-- `m` ends from `s`, with a result in `Q` or a fault in `E`. -/
def Ends (m : Faulting ε σ α) (s : σ) (Q : α → σ → Prop) (E : ε → Prop) : Prop :=
  Looping.Ends m.run s fun r s' => match r with
    | .ok a => Q a s'
    | .error e => E e

/-- `m` returns from `s`, with a result in `Q`. -/
def Returns (m : Faulting ε σ α) (s : σ) (Q : α → σ → Prop) : Prop :=
  Ends m s Q fun _ => False

/-- `m` returns `a` from `s`, and leaves `s'`. -/
def Gives (m : Faulting ε σ α) (s : σ) (a : α) (s' : σ) : Prop :=
  Returns m s fun b t => b = a ∧ t = s'

variable {s : σ} {Q : α → σ → Prop} {E : ε → Prop}

theorem ends_pure {a : α} : Ends (pure a : Faulting ε σ α) s Q E ↔ Q a s :=
  Looping.ends_pure

theorem ends_act {f : σ → α × σ} : Ends (act f : Faulting ε σ α) s Q E ↔ Q (f s).1 (f s).2 := by
  unfold Ends act
  exact Looping.ends_bind.trans (Looping.ends_act.trans Looping.ends_pure)

theorem ends_throw {e : ε} : Ends (throw e : Faulting ε σ α) s Q E ↔ E e :=
  Looping.ends_pure

/-- What the first part ends with is what the second part goes on with. -/
theorem ends_bind {m : Faulting ε σ α} {f : α → Faulting ε σ β} {Q : β → σ → Prop} :
    Ends (m >>= f) s Q E ↔ Ends m s (fun a s' => Ends (f a) s' Q E) E := by
  refine Looping.ends_bind.trans (Looping.ends_congr ?_)
  intro r s'
  cases r with
  | ok a => exact Iff.rfl
  | error e => exact Looping.ends_pure

theorem Ends.mono {m : Faulting ε σ α} {Q' : α → σ → Prop} {E' : ε → Prop} (h : Ends m s Q E)
    (hQ : ∀ a s', Q a s' → Q' a s') (hE : ∀ e, E e → E' e) : Ends m s Q' E' := by
  obtain ⟨n, r, s', hrun, hr⟩ := h
  refine ⟨n, r, s', hrun, ?_⟩
  cases r with
  | ok a => exact hQ a s' hr
  | error e => exact hE e hr

theorem ends_congr {m : Faulting ε σ α} {Q' : α → σ → Prop} (h : ∀ a s', Q a s' ↔ Q' a s') :
    Ends m s Q E ↔ Ends m s Q' E := by
  constructor
  · intro hm
    exact hm.mono (fun a s' => (h a s').mp) fun _ he => he
  · intro hm
    exact hm.mono (fun a s' => (h a s').mpr) fun _ he => he

/-- A program ends in one way: two descriptions of its end are about the same end. -/
theorem Ends.and {m : Faulting ε σ α} {Q' : α → σ → Prop} {E' : ε → Prop} (h : Ends m s Q E)
    (h' : Ends m s Q' E') : Ends m s (fun a s' => Q a s' ∧ Q' a s') fun e => E e ∧ E' e := by
  obtain ⟨n, r, s', hrun, hr⟩ := h
  refine ⟨n, r, s', hrun, ?_⟩
  have hr' := Looping.Ends.of_run h' hrun
  cases r with
  | ok a => exact ⟨hr, hr'⟩
  | error e => exact ⟨hr, hr'⟩

/-- What each round of a `for` keeps holds after it. -/
theorem Ends.foldlM {ι : Type} {f : α → ι → Faulting ε σ α} (Inv : α → σ → Prop) :
    ∀ {is : List ι} {a : α} {s : σ},
      (∀ i ∈ is, ∀ a s, Inv a s → Ends (f a i) s Inv E) → Inv a s →
        Ends (is.foldlM f a) s Inv E := by
  intro is
  induction is with
  | nil =>
    intro a s _ ha
    exact ends_pure.mpr ha
  | cons i is ih =>
    intro a s hstep ha
    rw [List.foldlM_cons, ends_bind]
    refine (hstep i List.mem_cons_self a s ha).mono ?_ fun _ he => he
    intro a' s' ha'
    exact ih (fun j hj => hstep j (List.mem_cons_of_mem i hj)) ha'

/-- A loop is its body once, and then the loop as long as it goes on. -/
theorem ends_doWhile {body : α → Faulting ε σ α} {again : α → Bool} {a : α} :
    Ends (doWhile body again a) s Q E ↔ Ends (body a) s (fun a' s' =>
      if again a' then Ends (doWhile body again a') s' Q E else Q a' s') E := by
  refine Looping.ends_doWhile.trans (Looping.ends_congr ?_)
  intro r s'
  cases r with
  | ok a' => exact Iff.rfl
  | error e => exact Iff.rfl

/-! ## Returning -/

theorem Ends.of_gives {m : Faulting ε σ α} {a : α} {s' : σ} (h : Ends m s Q E)
    (hg : Gives m s a s') : Q a s' := by
  obtain ⟨n, r, t, hrun, hr⟩ := h.and hg
  cases r with
  | ok b =>
    obtain ⟨hq, rfl, rfl⟩ := hr
    exact hq
  | error e => exact hr.2.elim

theorem Returns.of_gives {m : Faulting ε σ α} {a : α} {s' : σ} (h : Returns m s Q)
    (hg : Gives m s a s') : Q a s' :=
  Ends.of_gives h hg

theorem Ends.and_gives {m : Faulting ε σ α} (h : Ends m s Q E) :
    Ends m s (fun a s' => Q a s' ∧ Gives m s a s') E := by
  obtain ⟨n, r, s', hrun, hr⟩ := h
  refine ⟨n, r, s', hrun, ?_⟩
  cases r with
  | ok a => exact ⟨hr, n, .ok a, s', hrun, rfl, rfl⟩
  | error e => exact hr

theorem Returns.gives {m : Faulting ε σ α} (h : Returns m s Q) :
    ∃ a s', Gives m s a s' ∧ Q a s' := by
  obtain ⟨n, r, s', hrun, hr⟩ := h
  cases r with
  | ok a => exact ⟨a, s', ⟨n, .ok a, s', hrun, rfl, rfl⟩, hr⟩
  | error e => exact absurd hr id

theorem returns_bind {m : Faulting ε σ α} {f : α → Faulting ε σ β} {Q : β → σ → Prop} :
    Returns (m >>= f) s Q ↔ Returns m s fun a s' => Returns (f a) s' Q :=
  ends_bind

/-- What a program that returns goes on with is asked where it ended. -/
theorem Returns.iff_forall {m : Faulting ε σ α} {R : α → σ → Prop} (hm : Returns m s R) :
    Returns m s Q ↔ ∀ a s', Gives m s a s' → Q a s' := by
  constructor
  · intro h a s' hg
    exact h.of_gives hg
  · intro h
    obtain ⟨a, s', hg, -⟩ := hm.gives
    refine Ends.mono hg ?_ fun _ he => he
    rintro _ _ ⟨rfl, rfl⟩
    exact h _ _ hg

/-! ## The rounds of a loop -/

/-- The loop, begun with `a` in `s`, comes to a round that begins with `a'` in `s'`. -/
inductive Reaches (body : α → Faulting ε σ α) (again : α → Bool) (a : α) (s : σ) : α → σ → Prop
  | start : Reaches body again a s a s
  | next {a₁ a₂ : α} {s₁ s₂ : σ} : Reaches body again a s a₁ s₁ → Gives (body a₁) s₁ a₂ s₂ →
      again a₂ = true → Reaches body again a s a₂ s₂

variable {body : α → Faulting ε σ α} {again : α → Bool}

/-- What every round keeps holds at every round. -/
theorem Reaches.inv {a a' : α} {s' : σ} {Inv : α → σ → Prop} (h : Reaches body again a s a' s')
    (hstart : Inv a s) (hstep : ∀ a s a' s', Inv a s → Gives (body a) s a' s' → again a' = true →
      Inv a' s') : Inv a' s' := by
  induction h with
  | start => exact hstart
  | next _ hgives hagain ih => exact hstep _ _ _ _ ih hgives hagain

/-- A round that the loop comes to is its first one, or comes behind what that one gives. -/
theorem reaches_iff {a a' : α} {s' : σ} : Reaches body again a s a' s' ↔
    (a' = a ∧ s' = s) ∨ ∃ a₁ s₁, Gives (body a) s a₁ s₁ ∧ again a₁ = true ∧
      Reaches body again a₁ s₁ a' s' := by
  constructor
  · intro h
    induction h with
    | start => exact .inl ⟨rfl, rfl⟩
    | @next a₂ a₃ s₂ s₃ _ hgives hagain ih =>
      obtain ⟨rfl, rfl⟩ | ⟨a₁, s₁, hfirst, hagain₁, hrest⟩ := ih
      · exact .inr ⟨a₃, s₃, hgives, hagain, .start⟩
      · exact .inr ⟨a₁, s₁, hfirst, hagain₁, .next hrest hgives hagain⟩
  · intro h
    obtain ⟨rfl, rfl⟩ | ⟨a₁, s₁, hfirst, hagain₁, hrest⟩ := h
    · exact .start
    · induction hrest with
      | start => exact .next .start hfirst hagain₁
      | next _ hgives hagain ih => exact .next ih hgives hagain

/-- A loop whose rounds go down in `measure` ends, if every round it reaches ends, in a result that
the last round gives or in a fault of a round. -/
theorem ends_doWhile_of_rounds (Inv : α → σ → Prop) (measure : α → Nat) {a : α} (hs : Inv a s)
    (hstep : ∀ a' s', Reaches body again a s a' s' → Inv a' s' → Ends (body a') s' (fun a'' s'' =>
      if again a'' then Inv a'' s'' ∧ measure a'' < measure a' else Q a'' s'') E) :
    Ends (doWhile body again a) s Q E := by
  have hall : ∀ m a' s', measure a' = m → Reaches body again a s a' s' → Inv a' s' →
      Ends (doWhile body again a') s' Q E := by
    intro m
    induction m using Nat.strong_induction_on with
    | _ m ih =>
      intro a' s' hm hreach hs'
      rw [ends_doWhile]
      refine (hstep a' s' hreach hs').and_gives.mono ?_ fun _ he => he
      rintro a'' s'' ⟨h, hgives⟩
      split
      · rename_i hagain
        rw [if_pos hagain] at h
        exact ih _ (hm ▸ h.2) a'' s'' rfl (.next hreach hgives hagain) h.1
      · rename_i hagain
        rw [if_neg hagain] at h
        exact h
  exact hall _ a s rfl .start hs

/-- A loop ends as it does from a round that it reaches. -/
theorem Reaches.ends {a a' : α} {s' : σ} (h : Reaches body again a s a' s') :
    Ends (doWhile body again a') s' Q E ↔ Ends (doWhile body again a) s Q E := by
  induction h with
  | start => exact Iff.rfl
  | @next a₁ a₂ s₁ s₂ _ hgives hagain ih =>
    rw [← ih, ends_doWhile (a := a₁)]
    constructor
    · intro h₂
      refine Ends.mono hgives ?_ fun _ he => he.elim
      rintro _ _ ⟨rfl, rfl⟩
      rw [if_pos hagain]
      exact h₂
    · intro h₁
      obtain ⟨n, r, t, hrun, hr⟩ := Ends.and h₁ hgives
      cases r with
      | ok b =>
        obtain ⟨h₂, rfl, rfl⟩ := hr
        rw [if_pos hagain] at h₂
        exact h₂
      | error e => exact hr.2.elim

/-- If `ok` decides whether a round returns, the loop returns exactly when every round is `ok`. -/
theorem returns_doWhile_iff (Inv : α → σ → Prop) {ok : α → σ → Prop} (measure : α → Nat)
    (hok : ∀ a s, Inv a s → ok a s → Returns (body a) s fun a' s' =>
      if again a' then Inv a' s' ∧ measure a' < measure a else Q a' s')
    (hbad : ∀ a s, Inv a s → ¬ ok a s → ¬ Returns (body a) s fun _ _ => True) {a : α}
    (hs : Inv a s) : Returns (doWhile body again a) s Q ↔
      ∀ a' s', Reaches body again a s a' s' → ok a' s' := by
  constructor
  · intro hret
    have hinv : ∀ a' s', Reaches body again a s a' s' → Inv a' s' ∧ ok a' s' := by
      have hround : ∀ a' s', Reaches body again a s a' s' → Inv a' s' → ok a' s' := by
        intro a' s' hreach hs'
        by_contra hno
        refine hbad a' s' hs' hno ?_
        exact Ends.mono (ends_doWhile.mp (hreach.ends.mpr hret)) (fun _ _ _ => trivial)
          fun _ he => he
      intro a' s' hreach
      induction hreach with
      | start => exact ⟨hs, hround a s .start hs⟩
      | next hr hgives hagain ih =>
        have h₂ := (hok _ _ ih.1 ih.2).of_gives hgives
        rw [if_pos hagain] at h₂
        exact ⟨h₂.1, hround _ _ (.next hr hgives hagain) h₂.1⟩
    exact fun a' s' hr => (hinv a' s' hr).2
  · intro hall
    exact ends_doWhile_of_rounds Inv measure hs fun a' s' hr hi => hok a' s' hi (hall a' s' hr)

end Faulting

end Airoha.Lib
