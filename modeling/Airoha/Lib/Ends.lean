/-
Airoha.Lib.Ends — total correctness of stateful code that may loop.

Driver code that waits for a register to read back is a program in
`StateT σ Option`: `none` is a loop that has not come to an end. `Ends m s Q`
says that `m`, started in `s`, does end, and that its result and the state
it leaves satisfy `Q`. One rule for each way of building a program, and
`Ends.forM` and `Ends.forM_each` for a run over a list of calls.
-/
import Mathlib

namespace Airoha.Lib

variable {σ α β : Type}

/-- `m` ends from `s`, with a result and a state that satisfy `Q`. -/
def Ends (m : StateT σ Option α) (s : σ) (Q : α → σ → Prop) : Prop :=
  ∃ r s', m.run s = some (r, s') ∧ Q r s'

theorem Ends.pure {Q : α → σ → Prop} {s : σ} {r : α} (h : Q r s) :
    Ends (Pure.pure r : StateT σ Option α) s Q :=
  ⟨r, s, rfl, h⟩

/-- What a callee ends with is what its caller goes on with. -/
theorem Ends.bind {m : StateT σ Option α} {f : α → StateT σ Option β} {s : σ}
    {P : α → σ → Prop} {Q : β → σ → Prop} (hm : Ends m s P)
    (hf : ∀ r s', P r s' → Ends (f r) s' Q) : Ends (m >>= f) s Q := by
  obtain ⟨r, s₁, hrun, hp⟩ := hm
  obtain ⟨r', s₂, hrun', hq⟩ := hf r s₁ hp
  refine ⟨r', s₂, ?_, hq⟩
  rw [StateT.run_bind, hrun]
  exact hrun'

theorem Ends.mono {m : StateT σ Option α} {s : σ} {P Q : α → σ → Prop} (hm : Ends m s P)
    (h : ∀ r s', P r s' → Q r s') : Ends m s Q := by
  obtain ⟨r, s', hrun, hp⟩ := hm
  exact ⟨r, s', hrun, h r s' hp⟩

theorem Ends.get {s : σ} {Q : σ → σ → Prop} (h : Q s s) :
    Ends (MonadState.get : StateT σ Option σ) s Q :=
  ⟨s, s, rfl, h⟩

theorem Ends.modify {s : σ} {f : σ → σ} {Q : PUnit → σ → Prop} (h : Q ⟨⟩ (f s)) :
    Ends (modify f : StateT σ Option PUnit) s Q :=
  ⟨⟨⟩, f s, rfl, h⟩

theorem Ends.ite {c : Prop} [Decidable c] {m m' : StateT σ Option α} {s : σ} {Q : α → σ → Prop}
    (h : c → Ends m s Q) (h' : ¬ c → Ends m' s Q) : Ends (if c then m else m') s Q := by
  by_cases hc : c
  · rw [if_pos hc]
    exact h hc
  · rw [if_neg hc]
    exact h' hc

/-- The result of a run that is known satisfies what every run ends with. -/
theorem Ends.of_run {m : StateT σ Option α} {s s' : σ} {r : α} {Q : α → σ → Prop}
    (hm : Ends m s Q) (hrun : m.run s = some (r, s')) : Q r s' := by
  obtain ⟨r₁, s₁, hrun₁, hq⟩ := hm
  rw [hrun] at hrun₁
  cases hrun₁
  exact hq

/-- What is asked of every result is decided by what every result is. -/
theorem Ends.iff_of {m : StateT σ Option α} {s : σ} {P Q : α → σ → Prop} {C : Prop}
    (hm : Ends m s P) (h : ∀ r s', P r s' → (Q r s' ↔ C)) : Ends m s Q ↔ C := by
  obtain ⟨r, s', hrun, hp⟩ := hm
  constructor
  · intro hq
    exact (h r s' hp).mp (hq.of_run hrun)
  · intro hc
    exact ⟨r, s', hrun, (h r s' hp).mpr hc⟩

/-- An invariant that every call of a list keeps holds after the list. -/
theorem Ends.forM {ι : Type} {step : ι → StateT σ Option PUnit} {Inv : σ → Prop} :
    ∀ {is : List ι} {s : σ}, (∀ i ∈ is, ∀ s, Inv s → Ends (step i) s fun _ s' => Inv s') → Inv s →
      Ends (ForM.forM is step) s fun _ s' => Inv s' := by
  intro is
  induction is with
  | nil =>
    intro s _ hs
    exact Ends.pure hs
  | cons i is ih =>
    intro s hstep hs
    rw [List.forM_cons]
    refine Ends.bind (hstep i List.mem_cons_self s hs) fun _ s' hs' => ?_
    exact ih (fun j hj => hstep j (List.mem_cons_of_mem i hj)) hs'

/-- Calls that each achieve their own part and keep the other parts achieve all parts. -/
theorem Ends.forM_each {ι : Type} {step : ι → StateT σ Option PUnit} (Inv : σ → Prop)
    (Done : ι → σ → Prop) : ∀ {is : List ι} {s : σ}, is.Nodup →
      (∀ i ∈ is, ∀ s, Inv s → Ends (step i) s fun _ s' =>
        Inv s' ∧ Done i s' ∧ ∀ j, j ≠ i → Done j s → Done j s') → Inv s →
      Ends (ForM.forM is step) s fun _ s' =>
        Inv s' ∧ (∀ i ∈ is, Done i s') ∧ ∀ j, j ∉ is → Done j s → Done j s' := by
  intro is
  induction is with
  | nil =>
    intro s _ _ hs
    exact Ends.pure ⟨hs, fun _ h => absurd h List.not_mem_nil, fun _ _ h => h⟩
  | cons i is ih =>
    intro s hnodup hstep hs
    obtain ⟨hi, hnodup'⟩ := List.nodup_cons.mp hnodup
    rw [List.forM_cons]
    refine Ends.bind (hstep i List.mem_cons_self s hs) ?_
    rintro _ s₁ ⟨hs₁, hdone, hkeep⟩
    refine Ends.mono (ih hnodup' (fun j hj => hstep j (List.mem_cons_of_mem i hj)) hs₁) ?_
    rintro _ s₂ ⟨hs₂, hall, hrest⟩
    refine ⟨hs₂, fun j hj => ?_, fun j hj h => ?_⟩
    · rcases List.mem_cons.mp hj with rfl | hj
      · exact hrest j hi hdone
      · exact hall j hj
    · rw [List.mem_cons, not_or] at hj
      exact hrest j hj.2 (hkeep j hj.1 h)

end Airoha.Lib
