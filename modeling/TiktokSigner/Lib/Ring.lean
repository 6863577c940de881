import Mathlib.Data.List.Basic
import Mathlib.Data.Nat.ModEq
import Mathlib.Logic.Function.Basic

/-!
# Queues in a ring

`Holds slots capacity head q`: the slots from `head` on, modulo `capacity`,
hold the queue `q`. The other slots are free.
-/

namespace Ring

open Function (update update_self update_of_ne)

variable {α : Type*} {slots : Nat → Option α} {capacity head : Nat} {q : List α} {a : α}

structure Holds (slots : Nat → Option α) (capacity head : Nat) (q : List α) : Prop where
  room : q.length ≤ capacity
  slot : ∀ j < q.length, slots ((head + j) % capacity) = q[j]?

theorem Holds.nil : Holds slots capacity head [] :=
  ⟨Nat.zero_le capacity, nofun⟩

/-- Two places of one window are different slots. -/
theorem index_injective {i j : Nat} (hi : i < capacity) (hj : j < capacity)
    (h : (head + i) % capacity = (head + j) % capacity) : i = j := by
  have hmod : i ≡ j [MOD capacity] := Nat.ModEq.add_left_cancel' head h
  rwa [Nat.ModEq, Nat.mod_eq_of_lt hi, Nat.mod_eq_of_lt hj] at hmod

theorem Holds.push (h : Holds slots capacity head q) (hroom : q.length < capacity) :
    Holds (update slots ((head + q.length) % capacity) (some a)) capacity head (q ++ [a]) := by
  refine ⟨?_, ?_⟩
  · rw [List.length_append]
    exact hroom
  · intro j hj
    rw [List.length_append, List.length_singleton] at hj
    rcases Nat.lt_succ_iff_lt_or_eq.mp hj with hj | rfl
    · have hne : (head + j) % capacity ≠ (head + q.length) % capacity := fun heq =>
        Nat.ne_of_lt hj (index_injective (Nat.lt_trans hj hroom) hroom heq)
      rw [update_of_ne hne, List.getElem?_append_left hj]
      exact h.slot j hj
    · rw [update_self, List.getElem?_concat_length]

theorem Holds.first (h : Holds slots capacity head (a :: q)) (hhead : head < capacity) :
    slots head = some a := by
  have hslot := h.slot 0 (Nat.succ_pos q.length)
  rwa [Nat.add_zero, Nat.mod_eq_of_lt hhead] at hslot

theorem Holds.pop (h : Holds slots capacity head (a :: q)) (hhead : head < capacity) :
    Holds (update slots head none) capacity ((head + 1) % capacity) q := by
  refine ⟨Nat.le_of_succ_le h.room, ?_⟩
  intro j hj
  have hnext : ((head + 1) % capacity + j) % capacity = (head + (j + 1)) % capacity := by
    rw [Nat.mod_add_mod, Nat.add_assoc, Nat.add_comm 1 j]
  have hj' : j + 1 < (a :: q).length := Nat.succ_lt_succ hj
  have hne : (head + (j + 1)) % capacity ≠ head := by
    intro heq
    have hzero : (head + (j + 1)) % capacity = (head + 0) % capacity := by
      rw [heq, Nat.add_zero, Nat.mod_eq_of_lt hhead]
    exact absurd (index_injective (Nat.lt_of_lt_of_le hj' h.room) (Nat.zero_lt_of_lt hhead) hzero)
      (Nat.succ_ne_zero j)
  rw [hnext, update_of_ne hne, h.slot (j + 1) hj', List.getElem?_cons_succ]

end Ring
