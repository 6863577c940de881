import Mathlib.Data.List.Basic
import Mathlib.Data.List.TakeWhile

/-!
# The load of a queue

What the entries of a queue cost together. Putting an entry at the end adds
its cost, taking the first one subtracts it.

`accepted` is about a log of what was offered to a queue that turns away
everything after the first entry that it has turned away.
-/

namespace Backlog

variable {α : Type*} (cost : α → Nat)

def load : List α → Nat
  | [] => 0
  | a :: q => cost a + load q

@[simp] theorem load_nil : load cost [] = 0 := rfl

@[simp] theorem load_cons (a : α) (q : List α) : load cost (a :: q) = cost a + load cost q := rfl

@[simp] theorem load_append (q q' : List α) : load cost (q ++ q') = load cost q + load cost q' := by
  induction q with
  | nil => rw [List.nil_append, load_nil, Nat.zero_add]
  | cons a q ih => rw [List.cons_append, load_cons, load_cons, ih, Nat.add_assoc]

section Verdicts

variable {α : Type*}

/-- The entries before the first one that was turned away. -/
def accepted (log : List (α × Bool)) : List α :=
  (log.takeWhile Prod.snd).map Prod.fst

/-- Nothing is let in after the first one that was turned away. -/
def Shut (log : List (α × Bool)) : Prop :=
  ∀ x ∈ log.dropWhile Prod.snd, x.2 = false

@[simp] theorem accepted_nil : accepted ([] : List (α × Bool)) = [] := rfl

theorem shut_nil : Shut ([] : List (α × Bool)) := nofun

theorem accepted_eq_map {log : List (α × Bool)} (hall : log.all Prod.snd = true) :
    accepted log = log.map Prod.fst := by
  rw [accepted, List.takeWhile_eq_self_iff.mpr (List.all_eq_true.mp hall)]

theorem accepted_append_true {log : List (α × Bool)} (hall : log.all Prod.snd = true) (a : α) :
    accepted (log ++ [(a, true)]) = accepted log ++ [a] := by
  have hall' : (log ++ [(a, true)]).all Prod.snd = true := by simp_all
  rw [accepted_eq_map hall, accepted_eq_map hall', List.map_append, List.map_singleton]

theorem accepted_append_false (log : List (α × Bool)) (a : α) :
    accepted (log ++ [(a, false)]) = accepted log := by
  induction log with
  | nil => rfl
  | cons x log ih =>
    rcases x with ⟨b, verdict⟩
    cases verdict with
    | true => exact congrArg (b :: ·) ih
    | false => rfl

theorem Shut.of_all {log : List (α × Bool)} (hall : log.all Prod.snd = true) : Shut log := by
  intro x hx
  rw [List.dropWhile_eq_nil_iff.mpr (List.all_eq_true.mp hall)] at hx
  cases hx

theorem Shut.append_false {log : List (α × Bool)} (h : Shut log) (a : α) :
    Shut (log ++ [(a, false)]) := by
  induction log with
  | nil => exact fun x hx => by rw [List.mem_singleton.mp hx]
  | cons x log ih =>
    rcases x with ⟨b, verdict⟩
    cases verdict with
    | true => exact ih h
    | false =>
      intro x hx
      rcases List.mem_append.mp (show x ∈ ((b, false) :: log) ++ [(a, false)] from hx) with hx | hx
      · exact h x hx
      · rw [List.mem_singleton.mp hx]

/-- What came after the accepted entries was turned away. -/
theorem exists_rejected (log : List (α × Bool)) :
    ∃ rejected, log.map Prod.fst = accepted log ++ rejected ∧
      (log.all Prod.snd = false → rejected ≠ []) := by
  refine ⟨(log.dropWhile Prod.snd).map Prod.fst, ?_, ?_⟩
  · rw [accepted, ← List.map_append, List.takeWhile_append_dropWhile]
  · intro hall hnil
    rw [List.map_eq_nil_iff, List.dropWhile_eq_nil_iff, ← List.all_eq_true, hall] at hnil
    cases hnil

end Verdicts

end Backlog
