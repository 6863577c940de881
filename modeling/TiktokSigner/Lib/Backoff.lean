import Mathlib.Algebra.Order.Ring.Nat
import Mathlib.Tactic.SplitIfs

/-!
# Doubling up to a ceiling

A delay that doubles with every retry until it reaches a ceiling. An
implementation caps the exponent; `capped_eq_exact_iff` and
`capped_eq_capped_iff` say when the cap shows.
-/

namespace Backoff

/-- The delay after `k` doublings. -/
def exact (initial ceiling k : Nat) : Nat := min (initial * 2 ^ k) ceiling

/-- The delay with no more than `cap` doublings. -/
def capped (cap initial ceiling k : Nat) : Nat := exact initial ceiling (min k cap)

variable {cap cap' initial ceiling k k' : Nat}

theorem exact_le : exact initial ceiling k ≤ ceiling := Nat.min_le_right _ _

theorem exact_mono (h : k ≤ k') : exact initial ceiling k ≤ exact initial ceiling k' := by
  have hpow : 2 ^ k ≤ 2 ^ k' := Nat.pow_le_pow_right (by decide) h
  have hmul : initial * 2 ^ k ≤ initial * 2 ^ k' := Nat.mul_le_mul_left initial hpow
  rw [exact, exact]
  omega

theorem capped_le : capped cap initial ceiling k ≤ ceiling := exact_le

theorem capped_mono (h : k ≤ k') : capped cap initial ceiling k ≤ capped cap initial ceiling k' :=
  exact_mono (by omega)

/-- Further doublings show unless the ceiling is reached. -/
theorem exact_eq_exact_iff (h : k < k') :
    exact initial ceiling k = exact initial ceiling k' ↔
      initial = 0 ∨ ceiling ≤ initial * 2 ^ k := by
  have hpow : 2 ^ k < 2 ^ k' := Nat.pow_lt_pow_right (by decide) h
  rw [exact, exact]
  constructor
  · intro heq
    by_contra hnot
    rw [not_or] at hnot
    have hmul : initial * 2 ^ k < initial * 2 ^ k' :=
      Nat.mul_lt_mul_of_pos_left hpow (Nat.pos_of_ne_zero hnot.1)
    omega
  · rintro (rfl | hceiling)
    · rw [Nat.zero_mul, Nat.zero_mul]
    · have hmul : initial * 2 ^ k ≤ initial * 2 ^ k' := Nat.mul_le_mul_left initial hpow.le
      omega

theorem capped_eq_exact_iff :
    capped cap initial ceiling k = exact initial ceiling k ↔
      k ≤ cap ∨ initial = 0 ∨ ceiling ≤ initial * 2 ^ cap := by
  rw [capped]
  rcases Nat.lt_or_ge cap k with hlt | hle
  · rw [Nat.min_eq_right hlt.le, exact_eq_exact_iff hlt]
    omega
  · rw [Nat.min_eq_left hle]
    exact iff_of_true rfl (Or.inl hle)

theorem capped_eq_capped_iff (h : cap < cap') :
    capped cap initial ceiling k = capped cap' initial ceiling k ↔
      k ≤ cap ∨ initial = 0 ∨ ceiling ≤ initial * 2 ^ cap := by
  rw [capped, capped]
  rcases Nat.lt_or_ge cap k with hlt | hle
  · rw [Nat.min_eq_right hlt.le, exact_eq_exact_iff (Nat.lt_min.mpr ⟨hlt, h⟩)]
    omega
  · rw [Nat.min_eq_left hle, Nat.min_eq_left (hle.trans h.le)]
    exact iff_of_true rfl (Or.inl hle)

/-- The unit does not matter. -/
theorem capped_mul (unit : Nat) :
    capped cap (initial * unit) (ceiling * unit) k = capped cap initial ceiling k * unit := by
  rw [capped, capped, exact, exact, Nat.mul_right_comm, Nat.mul_min_mul_right]

end Backoff
