import Mathlib.Data.List.DropRight
import Mathlib.Data.List.Induction

/-!
# Streaks at the end of a history

`streak s history` counts how many of the last entries are `s` without a
break. `le_streak_iff` reads it back: at least `n` says that the last `n`
entries are `s`.
-/

namespace Streak

variable {α : Type*} [DecidableEq α]

def streak (s : α) (history : List α) : Nat := (history.rtakeWhile (· = s)).length

@[simp] theorem streak_nil (s : α) : streak s [] = 0 := by
  simp [streak]

@[simp] theorem streak_concat_self (s : α) (history : List α) :
    streak s (history ++ [s]) = streak s history + 1 := by
  rw [streak, List.rtakeWhile_concat_pos _ _ _ (by simp), List.length_append]
  rfl

theorem streak_concat_of_ne {s r : α} (h : r ≠ s) (history : List α) :
    streak s (history ++ [r]) = 0 := by
  rw [streak, List.rtakeWhile_concat_neg _ _ _ (by simpa using h)]
  rfl

/-- The last `n` entries are all `s`. -/
theorem le_streak_iff {s : α} {history : List α} {n : Nat} :
    n ≤ streak s history ↔ ∃ before, history = before ++ List.replicate n s := by
  induction history using List.reverseRecOn generalizing n with
  | nil =>
    rw [streak_nil, Nat.le_zero]
    constructor
    · rintro rfl
      exact ⟨[], rfl⟩
    · rintro ⟨before, hbefore⟩
      have hlen := congrArg List.length hbefore
      simp only [List.length_nil, List.length_append, List.length_replicate] at hlen
      omega
  | append_singleton history r ih =>
    cases n with
    | zero => exact ⟨fun _ => ⟨history ++ [r], by simp⟩, fun _ => Nat.zero_le _⟩
    | succ n =>
      rw [List.replicate_succ']
      by_cases hr : r = s
      · subst hr
        rw [streak_concat_self, Nat.succ_le_succ_iff, ih]
        refine exists_congr fun before => ?_
        rw [← List.append_assoc, List.append_left_inj]
      · rw [streak_concat_of_ne hr]
        constructor
        · intro hle
          exact absurd hle (Nat.not_succ_le_zero n)
        · rintro ⟨before, hbefore⟩
          rw [← List.append_assoc] at hbefore
          exact absurd (List.append_singleton_inj.mp hbefore).2 hr

end Streak
