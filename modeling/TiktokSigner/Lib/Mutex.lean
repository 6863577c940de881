import Mathlib.Tactic.SplitIfs
import Mathlib.Logic.Basic

/-!
# Locks with one owner

`Owned lock inside`: the lock names exactly the one that is inside. A step
of one party `x` either leaves who is inside as it is, or `x` goes in and
the lock, which was free, names it, or `x` goes out.
-/

namespace Mutex

variable {α : Type*} {lock : Option α} {inside inside' : α → Prop} {x : α}

def Owned (lock : Option α) (inside : α → Prop) : Prop := ∀ a, inside a ↔ lock = some a

theorem Owned.unique (h : Owned lock inside) {a b : α} (ha : inside a) (hb : inside b) : a = b :=
  Option.some.inj (((h a).mp ha).symm.trans ((h b).mp hb))

theorem Owned.keep (h : Owned lock inside) (hall : ∀ a, inside' a ↔ inside a) :
    Owned lock inside' :=
  fun a => (hall a).trans (h a)

theorem Owned.acquire (h : Owned none inside) (hx : inside' x)
    (hothers : ∀ a, a ≠ x → (inside' a ↔ inside a)) : Owned (some x) inside' := by
  intro a
  by_cases ha : a = x
  · rw [ha]
    exact iff_of_true hx rfl
  · rw [hothers a ha, h a]
    exact iff_of_false (fun h => by cases h) fun h => ha (Option.some.inj h).symm

theorem Owned.release (h : Owned (some x) inside) (hx : ¬inside' x)
    (hothers : ∀ a, a ≠ x → (inside' a ↔ inside a)) : Owned none inside' := by
  intro a
  by_cases ha : a = x
  · rw [ha]
    exact iff_of_false hx fun h => by cases h
  · rw [hothers a ha, h a]
    exact iff_of_false (fun h => ha (Option.some.inj h).symm) fun h => by cases h

/-- Some of the parties are gone, wherever they were. -/
theorem Owned.evict {stays : α → Bool} (h : Owned lock inside)
    (hall : ∀ a, inside' a ↔ inside a ∧ stays a = true) : Owned (lock.filter stays) inside' := by
  intro a
  rw [hall a, h a, Option.filter_eq_some_iff]

end Mutex
