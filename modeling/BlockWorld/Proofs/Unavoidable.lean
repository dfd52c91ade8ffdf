import Mathlib.Algebra.BigOperators.Group.Finset.Basic

/-! # What has to happen

A system in which several parties move is free to make any step. Some of its steps are made by
parties that have to go on, others by parties that need not. What has to happen happens on every
run, and up to then there is a party that has to go on.
-/

namespace BlockWorld

variable {α : Type}

/-- Until a state has the property one of the steps `act` can be made, and whatever steps are made,
such a state is reached. -/
inductive Unavoidable (act step : α → α → Prop) (P : α → Prop) : α → Prop
  | now {a : α} : P a → Unavoidable act step P a
  | later {a : α} : (∃ b, act a b) → (∀ b, step a b → Unavoidable act step P b) →
      Unavoidable act step P a

/-- Every step takes away work, and some step can be made as long as the property does not hold. -/
theorem unavoidable_of_work {act step : α → α → Prop} {P I : α → Prop} (work : α → ℕ)
    (hI : ∀ a b, I a → step a b → I b) (hwork : ∀ a b, I a → step a b → work b < work a)
    (hact : ∀ a, I a → P a ∨ ∃ b, act a b) {a : α} (ha : I a) : Unavoidable act step P a := by
  induction hn : work a using Nat.strong_induction_on generalizing a with
  | _ n ih =>
    rcases hact a ha with hP | hb
    · exact .now hP
    · exact .later hb fun b hstep => ih _ (hn ▸ hwork a b ha hstep) (hI a b ha hstep) rfl

theorem sum_update_add {ι β : Type} [DecidableEq ι] {S : Finset ι} {k : ι} (hk : k ∈ S)
    (weight : β → ℕ) (f : ι → β) (x : β) :
    ∑ j ∈ S, weight (Function.update f k x j) + weight (f k) =
      ∑ j ∈ S, weight (f j) + weight x := by
  have hrest : ∀ j ∈ S.erase k, weight (Function.update f k x j) = weight (f j) := by
    intro j hj
    rw [Function.update_of_ne (Finset.ne_of_mem_erase hj)]
  rw [← Finset.add_sum_erase S _ hk, ← Finset.add_sum_erase S _ hk, Finset.sum_congr rfl hrest,
    Function.update_self]
  omega

end BlockWorld
