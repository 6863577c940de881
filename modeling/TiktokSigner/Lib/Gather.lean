import Mathlib.Data.Finset.Dedup
import Mathlib.Data.Finset.Insert
import Mathlib.Data.Finset.Lattice.Basic

/-!
# What a loop gathers

A loop that only ever adds to its state ends with the facts it started
from and those its elements bring (`foldl_iff`). `modify` is the update of
one slot of a family whose slots all exist, empty at first.
-/

namespace Gather

universe u v w

/-- A fact that a turn of the loop can only add. -/
theorem foldl_iff {σ : Type u} {α : Type v} (P : σ → Prop) {step : σ → α → σ} {Q : α → Prop}
    (hstep : ∀ s a, P (step s a) ↔ P s ∨ Q a) (xs : List α) (s : σ) :
    P (xs.foldl step s) ↔ P s ∨ ∃ a ∈ xs, Q a := by
  induction xs generalizing s with
  | nil => simp
  | cons a xs ih =>
    rw [List.foldl_cons, ih, hstep, or_assoc]
    simp

/-- A loop that leaves something alone. -/
theorem foldl_eq {σ : Type u} {α : Type v} {β : Type w} (f : σ → β) (step : σ → α → σ)
    (hstep : ∀ s a, f (step s a) = f s) (xs : List α) (s : σ) : f (xs.foldl step s) = f s := by
  induction xs generalizing s with
  | nil => rfl
  | cons a xs ih => rw [List.foldl_cons, ih, hstep]

/-- A loop of insertions. -/
theorem foldl_insert {α : Type v} {β : Type w} [DecidableEq β] (f : α → β) (xs : List α)
    (s : Finset β) : xs.foldl (fun s a => insert (f a) s) s = s ∪ (xs.map f).toFinset := by
  ext b
  have hturn : ∀ (s : Finset β) a, b ∈ insert (f a) s ↔ b ∈ s ∨ f a = b := fun s a => by
    rw [Finset.mem_insert, or_comm, eq_comm]
  rw [foldl_iff (b ∈ ·) hturn, Finset.mem_union, List.mem_toFinset, List.mem_map]

section Family

variable {κ : Type u} {ν : Type v} [DecidableEq κ]

/-- One slot is updated. -/
def modify (m : κ → ν) (k : κ) (f : ν → ν) : κ → ν := Function.update m k (f (m k))

@[simp] theorem modify_self (m : κ → ν) (k : κ) (f : ν → ν) : modify m k f k = f (m k) :=
  Function.update_self ..

theorem modify_of_ne (m : κ → ν) {k k' : κ} (f : ν → ν) (h : k' ≠ k) : modify m k f k' = m k' :=
  Function.update_of_ne h ..

/-- Two updates can be swapped that can be swapped on every value. -/
theorem modify_comm (m : κ → ν) {k k' : κ} {f g : ν → ν} (h : ∀ v, g (f v) = f (g v)) :
    modify (modify m k f) k' g = modify (modify m k' g) k f := by
  funext slot
  by_cases hk : slot = k
  · subst hk
    by_cases hk' : slot = k'
    · subst hk'
      rw [modify_self, modify_self, modify_self, modify_self, h]
    · rw [modify_of_ne _ _ hk', modify_self, modify_self, modify_of_ne _ _ hk']
  · by_cases hk' : slot = k'
    · subst hk'
      rw [modify_self, modify_of_ne _ _ hk, modify_of_ne _ _ hk, modify_self]
    · rw [modify_of_ne _ _ hk', modify_of_ne _ _ hk, modify_of_ne _ _ hk, modify_of_ne _ _ hk']

/-- A fact about a slot that an update of it may add. -/
theorem modify_iff (P : ν → Prop) {Q : Prop} {f : ν → ν} (m : κ → ν) (k k' : κ)
    (hf : P (f (m k)) ↔ P (m k) ∨ Q) : P (modify m k f k') ↔ P (m k') ∨ k' = k ∧ Q := by
  by_cases hk : k' = k
  · subst hk
    rw [modify_self, hf]
    simp
  · rw [modify_of_ne m f hk]
    simp [hk]

theorem mem_modify_insert {α : Type w} [DecidableEq α] (m : κ → Finset α) {k k' : κ} {a b : α} :
    a ∈ modify m k (insert b) k' ↔ a ∈ m k' ∨ k' = k ∧ a = b :=
  modify_iff (fun s => a ∈ s) m k k' (by rw [Finset.mem_insert, or_comm])

theorem mem_modify_cons {α : Type w} (m : κ → Multiset α) {k k' : κ} {a b : α} :
    a ∈ modify m k (b ::ₘ ·) k' ↔ a ∈ m k' ∨ k' = k ∧ a = b :=
  modify_iff (fun s => a ∈ s) m k k' (by rw [Multiset.mem_cons, or_comm])

end Family

end Gather
