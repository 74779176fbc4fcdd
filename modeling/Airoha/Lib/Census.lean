/-
Airoha.Lib.Census — how many members hold a resource.

Drivers count the users of a shared resource by hand: one more where a member
takes it, one less where a member leaves it. `Counted` says that such a count is
the number of members that hold the resource; `Counted.update` is the rule for a
member that goes from one resource, or none, to another, or none.
-/
import Mathlib.Data.List.Count
import Mathlib.Tactic.Ring

namespace Airoha.Lib

variable {α ρ : Type} [DecidableEq α] [DecidableEq ρ]

/-- The members of the list that hold `r`. -/
def holders (l : List α) (holds : α → Option ρ) (r : ρ) : Nat :=
  l.countP fun a => decide (holds a = some r)

/-- The users of each resource are its holders. -/
def Counted (l : List α) (holds : α → Option ρ) (users : ρ → Int) : Prop :=
  ∀ r, users r = holders l holds r

/-- 1 for the resource that is held. -/
def share (h : Option ρ) (r : ρ) : Int := if h = some r then 1 else 0

@[simp] theorem share_none (r : ρ) : share none r = 0 := rfl

theorem holders_erase {l : List α} {a : α} (ha : a ∈ l) (holds : α → Option ρ) (r : ρ) :
    (holders l holds r : Int) = holders (l.erase a) holds r + share (holds a) r := by
  unfold holders share
  rw [(List.perm_cons_erase ha).countP_eq, List.countP_cons]
  by_cases h : holds a = some r <;> simp [h]

/-- One member changes what it holds. -/
theorem Counted.update {l : List α} {a : α} {holds : α → Option ρ} {users users' : ρ → Int}
    (hc : Counted l holds users) (hl : l.Nodup) (ha : a ∈ l) (x : Option ρ)
    (hu : ∀ r, users' r = users r - share (holds a) r + share x r) :
    Counted l (Function.update holds a x) users' := by
  intro r
  have hrest : holders (l.erase a) (Function.update holds a x) r = holders (l.erase a) holds r := by
    apply List.countP_congr
    intro b hb
    have hne : b ≠ a := (hl.mem_erase_iff.mp hb).1
    rw [Function.update_of_ne hne]
  rw [hu, hc, holders_erase ha holds, holders_erase ha (Function.update holds a x), hrest,
    Function.update_self]
  ring

end Airoha.Lib
