import Mathlib.Data.Nat.Log
import Mathlib.Tactic.Ring

/-!
# Natural numbers in floating point

The natural numbers among the binary floating-point numbers of a precision,
with sums and products rounded to nearest, ties to even. Exponents have no
upper bound, so nothing overflows.

A number that is accumulated in floating point `Tracks` the exact one: it is
exact while that fits the precision and stays beyond the precision
afterwards. Comparing it with what fits is therefore comparing the exact
number (`Tracks.le_iff`).
-/

namespace FloatingPoint

variable {p : Nat}

/-- At most `p` significant bits. -/
def Representable (p n : Nat) : Prop := ∃ m e, m < 2 ^ p ∧ n = m * 2 ^ e

/-- The unit in the last place. -/
def ulp (p n : Nat) : Nat := 2 ^ (n.log2 + 1 - p)

/-- To nearest, ties to even. -/
def round (p n : Nat) : Nat :=
  let quotient := n / ulp p n
  let rest := n % ulp p n
  if 2 * rest < ulp p n ∨ 2 * rest = ulp p n ∧ quotient % 2 = 0 then quotient * ulp p n
  else (quotient + 1) * ulp p n

/-! ## Rounding -/

theorem ulp_pos (p n : Nat) : 0 < ulp p n := Nat.two_pow_pos _

theorem round_eq (p n : Nat) :
    round p n = n / ulp p n * ulp p n ∨ round p n = (n / ulp p n + 1) * ulp p n := by
  unfold round
  dsimp only
  split
  · exact Or.inl rfl
  · exact Or.inr rfl

theorem div_ulp_lt (p n : Nat) : n / ulp p n < 2 ^ p := by
  rw [Nat.div_lt_iff_lt_mul (ulp_pos p n), ulp, ← Nat.pow_add]
  exact Nat.lt_of_lt_of_le Nat.lt_log2_self (Nat.pow_le_pow_right (by decide) (by omega))

theorem representable_round (hp : 0 < p) (n : Nat) : Representable p (round p n) := by
  have hlt := div_ulp_lt p n
  rcases round_eq p n with heq | heq
  · exact ⟨_, _, hlt, heq⟩
  · rcases Nat.lt_or_ge (n / ulp p n + 1) (2 ^ p) with hnext | hnext
    · exact ⟨_, _, hnext, heq⟩
    · -- the carry gives a power of two
      refine ⟨1, p + (n.log2 + 1 - p), Nat.one_lt_two_pow (by omega), ?_⟩
      have hcarry : n / ulp p n + 1 = 2 ^ p := by omega
      rw [heq, hcarry, ulp, Nat.one_mul, Nat.pow_add]

/-- What is representable is not moved. -/
theorem round_of_representable {n : Nat} (h : Representable p n) : round p n = n := by
  obtain ⟨m, e, hm, rfl⟩ := h
  have hdvd : ulp p (m * 2 ^ e) ∣ m * 2 ^ e := by
    rcases Nat.eq_zero_or_pos m with rfl | hpos
    · simp
    · have hlt : m * 2 ^ e < 2 ^ (p + e) := by
        rw [Nat.pow_add]
        exact Nat.mul_lt_mul_of_pos_right hm (Nat.two_pow_pos e)
      have hne : m * 2 ^ e ≠ 0 := (Nat.mul_pos hpos (Nat.two_pow_pos e)).ne'
      have hlog : (m * 2 ^ e).log2 < p + e := (Nat.log2_lt hne).mpr hlt
      exact Nat.dvd_mul_left_of_dvd (Nat.pow_dvd_pow 2 (by omega)) m
  unfold round
  rw [Nat.mod_eq_zero_of_dvd hdvd, if_pos (Or.inl (ulp_pos p _)), Nat.div_mul_cancel hdvd]

theorem representable_of_lt {n : Nat} (h : n < 2 ^ p) : Representable p n :=
  ⟨n, 0, h, by rw [Nat.pow_zero, Nat.mul_one]⟩

/-- Rounding does not cross a power of two. -/
theorem two_pow_le_round (hp : 0 < p) {k n : Nat} (h : 2 ^ k ≤ n) : 2 ^ k ≤ round p n := by
  have hne : n ≠ 0 := by
    rintro rfl
    exact absurd h (Nat.not_le.mpr (Nat.two_pow_pos k))
  have hk : k ≤ n.log2 := (Nat.le_log2 hne).mpr h
  have hfloor : 2 ^ k ≤ n / ulp p n * ulp p n := by
    rcases Nat.le_total (n.log2 + 1 - p) k with hle | hle
    · obtain ⟨j, rfl⟩ := Nat.exists_eq_add_of_le hle
      rw [Nat.add_comm, Nat.pow_add] at h ⊢
      exact Nat.mul_le_mul_right _ ((Nat.le_div_iff_mul_le (ulp_pos p n)).mpr h)
    · have hunit : ulp p n ≤ n :=
        Nat.le_trans (Nat.pow_le_pow_right (by decide) (by omega)) (Nat.log2_self_le hne)
      calc 2 ^ k ≤ ulp p n := Nat.pow_le_pow_right (by decide) hle
        _ = 1 * ulp p n := (Nat.one_mul _).symm
        _ ≤ n / ulp p n * ulp p n :=
          Nat.mul_le_mul_right _ (Nat.div_pos hunit (ulp_pos p n))
  rcases round_eq p n with heq | heq
  · rwa [heq]
  · rw [heq, Nat.add_mul]
    exact Nat.le_trans hfloor (Nat.le_add_right _ _)

/-! ## Numbers -/

structure Number (p : Nat) where
  toNat : Nat
  representable : Representable p toNat

namespace Number

variable [NeZero p]

def ofNat (n : Nat) : Number p := ⟨round p n, representable_round (NeZero.pos p) n⟩

instance (n : Nat) : OfNat (Number p) n := ⟨ofNat n⟩

instance : Add (Number p) := ⟨fun x y => ofNat (x.toNat + y.toNat)⟩

instance : Mul (Number p) := ⟨fun x y => ofNat (x.toNat * y.toNat)⟩

theorem toNat_add (x y : Number p) : (x + y).toNat = round p (x.toNat + y.toNat) := rfl

theorem toNat_mul (x y : Number p) : (x * y).toNat = round p (x.toNat * y.toNat) := rfl

theorem toNat_ofNat {n : Nat} (h : Representable p n) : (ofNat n : Number p).toNat = n :=
  round_of_representable h

end Number

/-! ## Accumulated numbers -/

/-- The number stands for `n`, which may have been rounded on the way. -/
structure Tracks (x : Number p) (n : Nat) : Prop where
  exact : n < 2 ^ p → x.toNat = n
  large : 2 ^ p ≤ n → 2 ^ p ≤ x.toNat

namespace Tracks

variable {x y : Number p} {m n : Nat}

theorem of_eq (h : x.toNat = n) : Tracks x n := ⟨fun _ => h, fun hle => h ▸ hle⟩

theorem ofNat [NeZero p] (n : Nat) : Tracks (Number.ofNat n : Number p) n where
  exact h := Number.toNat_ofNat (representable_of_lt h)
  large h := two_pow_le_round (NeZero.pos p) h

theorem literal [NeZero p] (n : Nat) : Tracks (OfNat.ofNat n : Number p) n := ofNat n

theorem add [NeZero p] (hx : Tracks x m) (hy : Tracks y n) : Tracks (x + y) (m + n) where
  exact h := by
    rw [Number.toNat_add, hx.exact (by omega), hy.exact (by omega)]
    exact round_of_representable (representable_of_lt h)
  large h := by
    refine two_pow_le_round (NeZero.pos p) ?_
    rcases Nat.lt_or_ge m (2 ^ p) with hm | hm
    · rcases Nat.lt_or_ge n (2 ^ p) with hn | hn
      · rwa [hx.exact hm, hy.exact hn]
      · exact Nat.le_add_left_of_le (hy.large hn)
    · exact Nat.le_add_right_of_le (hx.large hm)

theorem le_iff (h : Tracks x n) {bound : Nat} (hbound : bound < 2 ^ p) :
    x.toNat ≤ bound ↔ n ≤ bound := by
  rcases Nat.lt_or_ge n (2 ^ p) with hn | hn
  · rw [h.exact hn]
  · have := h.large hn
    omega

theorem eq_of_le (h : Tracks x n) {bound : Nat} (hbound : bound < 2 ^ p) (hle : n ≤ bound) :
    x.toNat = n :=
  h.exact (Nat.lt_of_le_of_lt hle hbound)

end Tracks

end FloatingPoint
