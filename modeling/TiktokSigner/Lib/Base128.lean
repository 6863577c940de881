import Mathlib.Tactic.Ring
import Mathlib.Data.Nat.Bitwise

/-!
# Base-128 numerals

Little-endian base-128 numerals with a continuation bit: every byte but
the last has its high bit set, and the low seven bits of each byte are a
digit. `split` cuts the leading numeral off a byte string, `value` reads
it as an unbounded natural number, `encode` writes the shortest numeral.

Readers of fixed-width integers differ in how they accumulate digits and
in what they do with a numeral that is too long or too large; each of
them is specified against `split` and `value`, so that two readers can be
compared without comparing their loops. `or_digit` is the one arithmetic
fact such a loop needs: `or`-ing a shifted digit into an accumulator
that fits below the shift is an addition.
-/

namespace Base128

/-- The digits of a numeral, least significant first. -/
def value : List UInt8 → Nat
  | [] => 0
  | b :: bs => b.toNat % 128 + 128 * value bs

/-- Cut the leading numeral off a byte string: `none` when the string
ends before a byte without the continuation bit. -/
def split : List UInt8 → Option (List UInt8 × List UInt8)
  | [] => none
  | b :: bs =>
      if b.toNat < 128 then some ([b], bs)
      else (split bs).map fun p => (b :: p.1, p.2)

/-- The shortest numeral of `n`. -/
def encode (n : Nat) : List UInt8 :=
  if n < 128 then [UInt8.ofNat n]
  else UInt8.ofNat (n % 128 + 128) :: encode (n / 128)

/-! ## Cutting -/

theorem split_cons_last {b : UInt8} (bs : List UInt8) (h : b.toNat < 128) :
    split (b :: bs) = some ([b], bs) := by
  rw [split, if_pos h]

theorem split_cons_more {b : UInt8} (bs : List UInt8) (h : ¬b.toNat < 128) :
    split (b :: bs) = (split bs).map fun p => (b :: p.1, p.2) := by
  rw [split, if_neg h]

theorem split_append : ∀ {bs g r : List UInt8},
    split bs = some (g, r) → bs = g ++ r
  | [], _, _, h => by simp [split] at h
  | b :: bs, g, r, h => by
      by_cases hb : b.toNat < 128
      · rw [split_cons_last bs hb] at h
        obtain ⟨rfl, rfl⟩ := Prod.mk.injEq .. |>.mp (Option.some.inj h)
        rfl
      · rw [split_cons_more bs hb, Option.map_eq_some_iff] at h
        obtain ⟨⟨g', r'⟩, hsplit, heq⟩ := h
        obtain ⟨rfl, rfl⟩ := Prod.mk.injEq .. |>.mp heq
        rw [split_append hsplit, List.cons_append]

theorem split_ne_nil {bs g r : List UInt8} (h : split bs = some (g, r)) :
    g ≠ [] := by
  cases bs with
  | nil => simp [split] at h
  | cons b bs =>
      by_cases hb : b.toNat < 128
      · rw [split_cons_last bs hb] at h
        simp only [Option.some.injEq, Prod.mk.injEq] at h
        exact h.1 ▸ List.cons_ne_nil _ _
      · rw [split_cons_more bs hb, Option.map_eq_some_iff] at h
        obtain ⟨p, -, heq⟩ := h
        simp only [Prod.mk.injEq] at heq
        exact heq.1 ▸ List.cons_ne_nil _ _

/-- What follows a numeral does not matter. -/
theorem split_digits : ∀ {bytes digits rest : List UInt8},
    split bytes = some (digits, rest) →
      ∀ rest', split (digits ++ rest') = some (digits, rest')
  | [], _, _, h, _ => by cases h
  | b :: bytes, digits, rest, h, rest' => by
      by_cases hb : b.toNat < 128
      · rw [split_cons_last bytes hb] at h
        obtain ⟨rfl, -⟩ := Prod.mk.inj (Option.some.inj h)
        exact split_cons_last rest' hb
      · rw [split_cons_more bytes hb, Option.map_eq_some_iff] at h
        obtain ⟨⟨g, r⟩, hsplit, hpair⟩ := h
        obtain ⟨rfl, -⟩ := Prod.mk.inj hpair
        rw [List.cons_append, split_cons_more _ hb, split_digits hsplit rest']
        rfl

theorem value_lt : ∀ g : List UInt8, value g < 128 ^ g.length
  | [] => by simp [value]
  | b :: bs => by
      have ih := value_lt bs
      have hb : b.toNat % 128 < 128 := Nat.mod_lt _ (by decide)
      simp only [value, List.length_cons, Nat.pow_succ]
      omega

/-! ## Reading what was written -/

theorem encode_of_lt {n : Nat} (h : n < 128) : encode n = [UInt8.ofNat n] := by
  rw [encode, if_pos h]

theorem encode_of_ge {n : Nat} (h : ¬n < 128) :
    encode n = UInt8.ofNat (n % 128 + 128) :: encode (n / 128) := by
  rw [encode, if_neg h]

theorem encode_ne_nil (n : Nat) : encode n ≠ [] := by
  rw [encode]; split <;> exact List.cons_ne_nil _ _

theorem split_encode (n : Nat) (rest : List UInt8) :
    split (encode n ++ rest) = some (encode n, rest) := by
  induction n using Nat.strongRecOn with
  | ind n ih =>
      by_cases h : n < 128
      · rw [encode_of_lt h, List.singleton_append]
        exact split_cons_last rest (by rw [UInt8.toNat_ofNat']; omega)
      · rw [encode_of_ge h, List.cons_append,
          split_cons_more _ (by rw [UInt8.toNat_ofNat']; omega),
          ih (n / 128) (by omega)]
        rfl

theorem value_encode (n : Nat) : value (encode n) = n := by
  induction n using Nat.strongRecOn with
  | ind n ih =>
      by_cases h : n < 128
      · rw [encode_of_lt h, value, value, UInt8.toNat_ofNat']
        omega
      · rw [encode_of_ge h, value, ih (n / 128) (by omega), UInt8.toNat_ofNat']
        omega

theorem encode_length_le : ∀ (k : Nat) {n : Nat}, n < 128 ^ (k + 1) →
    (encode n).length ≤ k + 1
  | 0, n, h => by rw [encode_of_lt (by omega)]; simp
  | k + 1, n, h => by
      by_cases hn : n < 128
      · rw [encode_of_lt hn]; simp
      · have hdiv : n / 128 < 128 ^ (k + 1) := by
          rw [Nat.pow_succ] at h
          omega
        rw [encode_of_ge hn, List.length_cons]
        have := encode_length_le k hdiv
        omega

/-! ## Accumulating digits -/

/-- `or`-ing a value shifted past the accumulator adds it. -/
theorem or_digit {acc s : Nat} (hacc : acc < 2 ^ s) (d : Nat) :
    acc ||| d * 2 ^ s = acc + 2 ^ s * d := by
  rw [Nat.or_comm, Nat.mul_comm, ← Nat.two_pow_add_eq_or_of_lt hacc]
  omega

/-- The digits still to be read weigh `2 ^ s` more than the accumulator. -/
theorem value_cons_shift (acc s : Nat) (b : UInt8) (bs : List UInt8) :
    acc + 2 ^ s * value (b :: bs)
      = acc + 2 ^ s * (b.toNat % 128) + 2 ^ (s + 7) * value bs := by
  rw [value, Nat.pow_add]
  ring

end Base128
