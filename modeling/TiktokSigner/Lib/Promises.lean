import Mathlib.Logic.Function.Basic

/-!
# Promises

A family of promises, each with its outcome once it has one. The first
completion wins and later ones change nothing, so a promise that is
completed stays completed with the outcome it has.
-/

namespace Promises

variable {ι α : Type*} [DecidableEq ι]

/-- Complete one promise. -/
def complete (outcome : ι → Option α) (i : ι) (value : α) : ι → Option α :=
  Function.update outcome i (some ((outcome i).getD value))

/-- Complete all promises of a set. -/
def completeAll (outcome : ι → Option α) (p : ι → Bool) (value : α) : ι → Option α :=
  fun i => if p i then some ((outcome i).getD value) else outcome i

variable {outcome : ι → Option α} {i j : ι} {p : ι → Bool} {value : α}

@[simp] theorem complete_self : complete outcome i value i = some ((outcome i).getD value) :=
  Function.update_self _ _ _

theorem complete_of_ne (h : j ≠ i) : complete outcome i value j = outcome j :=
  Function.update_of_ne h _ _

omit [DecidableEq ι] in
theorem completeAll_eq_none :
    completeAll outcome p value i = none ↔ p i = false ∧ outcome i = none := by
  rw [completeAll]
  cases h : p i <;> simp

end Promises
