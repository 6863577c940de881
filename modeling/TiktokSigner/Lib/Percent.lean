import Mathlib.Data.List.Basic
import Mathlib.Tactic.SplitIfs

/-!
# Percent-encoding of bytes

`unescape` replaces every `%` before two hexadecimal digits, with both, by
the byte that they denote. `escape keep` writes the bytes that are not kept
as such an escape. Where `%` is not kept, `unescape` takes `escape` back;
where `%` and the digits are kept, it reads the same from both sides
(`unescape_escape`, `unescape_escape_kept`).
-/

namespace Percent

/-- `%` -/
def sign : UInt8 := 37

/-- The value of a hexadecimal digit. -/
def hexValue (b : UInt8) : Option Nat :=
  let n := b.toNat
  if 48 ≤ n ∧ n ≤ 57 then some (n - 48)
  else if 65 ≤ n ∧ n ≤ 70 then some (n - 55)
  else if 97 ≤ n ∧ n ≤ 102 then some (n - 87)
  else none

/-- The byte that two digits denote. -/
def hexByte (h l : UInt8) : Option UInt8 :=
  (hexValue h).bind fun high => (hexValue l).map fun low => UInt8.ofNat (16 * high + low)

/-- The bytes with every escape replaced. -/
def unescape : List UInt8 → List UInt8
  | [] => []
  | [b] => [b]
  | [b, h] => [b, h]
  | b :: h :: l :: rest =>
      match if b = sign then hexByte h l else none with
      | some byte => byte :: unescape rest
      | none => b :: unescape (h :: l :: rest)

/-- An upper-case digit. -/
def upperHex (n : Nat) : UInt8 := UInt8.ofNat (if n < 10 then 48 + n else 55 + n)

def escapeByte (b : UInt8) : List UInt8 :=
  [sign, upperHex (b.toNat / 16), upperHex (b.toNat % 16)]

def escape (keep : UInt8 → Bool) (bytes : List UInt8) : List UInt8 :=
  bytes.flatMap fun b => if keep b then [b] else escapeByte b

/-! ## Digits -/

theorem hexValue_lt {b : UInt8} {n : Nat} (h : hexValue b = some n) : n < 16 := by
  simp only [hexValue] at h
  split_ifs at h
  all_goals
    rw [← Option.some.inj h]
    omega

theorem hexValue_ascii {b : UInt8} (h : (hexValue b).isSome) : b.toNat < 128 := by
  obtain ⟨n, hn⟩ := Option.isSome_iff_exists.mp h
  simp only [hexValue] at hn
  split_ifs at hn
  all_goals omega

theorem hexValue_upperHex {n : Nat} (h : n < 16) : hexValue (upperHex n) = some n := by
  have hall : ∀ n ∈ List.range 16, hexValue (upperHex n) = some n := by decide
  exact hall n (List.mem_range.mpr h)

theorem hexValue_sign : hexValue sign = none := by decide

theorem hexByte_upperHex (b : UInt8) :
    hexByte (upperHex (b.toNat / 16)) (upperHex (b.toNat % 16)) = some b := by
  have hlt := b.toNat_lt
  have hsum : 16 * (b.toNat / 16) + b.toNat % 16 = b.toNat := by omega
  rw [hexByte, hexValue_upperHex (by omega), hexValue_upperHex (by omega), Option.bind_some,
    Option.map_some, hsum, UInt8.ofNat_toNat]

theorem hexByte_isSome {h l : UInt8} :
    (hexByte h l).isSome ↔ (hexValue h).isSome ∧ (hexValue l).isSome := by
  rw [hexByte]
  cases hexValue h <;> cases hexValue l <;> simp

/-! ## Reading a byte at a time -/

/-- The bytes start with two digits. -/
def DigitsFirst : List UInt8 → Prop
  | h :: l :: _ => (hexByte h l).isSome
  | _ => False

theorem unescape_cons {b : UInt8} {bytes : List UInt8} (h : b = sign → ¬DigitsFirst bytes) :
    unescape (b :: bytes) = b :: unescape bytes := by
  match bytes with
  | [] => rfl
  | [_] => rfl
  | h' :: l :: rest =>
      rw [unescape]
      by_cases hb : b = sign
      · have hnone : hexByte h' l = none := Option.not_isSome_iff_eq_none.mp (h hb)
        rw [if_pos hb, hnone]
      · rw [if_neg hb]

theorem unescape_cons_of_ne {b : UInt8} (h : b ≠ sign) (bytes : List UInt8) :
    unescape (b :: bytes) = b :: unescape bytes :=
  unescape_cons fun hb => absurd hb h

theorem unescape_digits {h l byte : UInt8} (hbyte : hexByte h l = some byte)
    (rest : List UInt8) : unescape (sign :: h :: l :: rest) = byte :: unescape rest := by
  rw [unescape, if_pos rfl, hbyte]

theorem unescape_escapeByte (b : UInt8) (rest : List UInt8) :
    unescape (escapeByte b ++ rest) = b :: unescape rest :=
  unescape_digits (hexByte_upperHex b) rest

/-! ## Escaping -/

theorem escape_cons (keep : UInt8 → Bool) (b : UInt8) (bytes : List UInt8) :
    escape keep (b :: bytes) = (if keep b then [b] else escapeByte b) ++ escape keep bytes :=
  List.flatMap_cons

theorem unescape_escape {keep : UInt8 → Bool} (hsign : keep sign = false) (bytes : List UInt8) :
    unescape (escape keep bytes) = bytes := by
  induction bytes with
  | nil => rfl
  | cons b bytes ih =>
    rw [escape_cons]
    by_cases hkeep : keep b = true
    · have hb : b ≠ sign := by
        rintro rfl
        rw [hsign] at hkeep
        cases hkeep
      rw [if_pos hkeep, List.singleton_append, unescape_cons_of_ne hb, ih]
    · rw [if_neg hkeep, unescape_escapeByte, ih]

/-- An escape starts with no digit, so what starts with two digits did so
before. -/
theorem digitsFirst_escape {keep : UInt8 → Bool} :
    ∀ {bytes : List UInt8}, DigitsFirst (escape keep bytes) → DigitsFirst bytes
  | [], h => h
  | b :: bytes, h => by
      rw [escape_cons] at h
      by_cases hb : keep b = true
      · rw [if_pos hb, List.singleton_append] at h
        cases bytes with
        | nil => exact h
        | cons l bytes =>
          rw [escape_cons] at h
          by_cases hl : keep l = true
          · rwa [if_pos hl, List.singleton_append] at h
          · rw [if_neg hl] at h
            have hsign := (hexByte_isSome.mp h).2
            rw [hexValue_sign] at hsign
            cases hsign
      · rw [if_neg hb] at h
        have hsign := (hexByte_isSome.mp h).1
        rw [hexValue_sign] at hsign
        cases hsign

theorem unescape_escape_kept {keep : UInt8 → Bool} (hsign : keep sign = true)
    (hdigits : ∀ b, (hexValue b).isSome → keep b = true) :
    ∀ bytes : List UInt8, unescape (escape keep bytes) = unescape bytes
  | [] => rfl
  | b :: bytes => by
      by_cases hescape : b = sign ∧ DigitsFirst bytes
      · obtain ⟨rfl, hfirst⟩ := hescape
        match bytes, hfirst with
        | h :: l :: rest, hfirst =>
          obtain ⟨hh, hl⟩ := hexByte_isSome.mp hfirst
          obtain ⟨byte, hbyte⟩ := Option.isSome_iff_exists.mp hfirst
          rw [escape_cons, escape_cons, escape_cons, if_pos hsign, if_pos (hdigits h hh),
            if_pos (hdigits l hl)]
          simp only [List.singleton_append]
          rw [unescape_digits hbyte, unescape_digits hbyte,
            unescape_escape_kept hsign hdigits rest]
      · have hstray : b = sign → ¬DigitsFirst bytes := fun hb hfirst => hescape ⟨hb, hfirst⟩
        rw [unescape_cons hstray, escape_cons]
        by_cases hb : keep b = true
        · rw [if_pos hb, List.singleton_append,
            unescape_cons fun hs hfirst => hstray hs (digitsFirst_escape hfirst),
            unescape_escape_kept hsign hdigits bytes]
        · rw [if_neg hb, unescape_escapeByte, unescape_escape_kept hsign hdigits bytes]

end Percent
