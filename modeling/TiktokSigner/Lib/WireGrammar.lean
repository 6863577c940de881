import TiktokSigner.Lib.ProtoWire

/-!
# A grammar of protobuf fields

The byte strings that are one field, with the field's number and wire type:
a tag and a payload, groups left out. `read` takes a field off the front of
a byte string; the grammar is unambiguous, so it finds the only one there is
(`read_eq_some`).
-/

namespace ProtoWire

/-- A numeral of at most ten bytes for `n`, which fits `bits` bits. -/
def IsNumeral (bits : Nat) (bytes : List UInt8) (n : Nat) : Prop := numeral bits bytes = some (n, [])

/-- The payloads of a wire type. -/
inductive Payload : Nat → List UInt8 → Prop where
  | varint {bytes : List UInt8} {n : Nat} (h : IsNumeral 64 bytes n) : Payload 0 bytes
  | fixed64 {bytes : List UInt8} (h : bytes.length = 8) : Payload 1 bytes
  | delimited {size body : List UInt8} (h : IsNumeral 64 size body.length) :
      Payload 2 (size ++ body)
  | fixed32 {bytes : List UInt8} (h : bytes.length = 4) : Payload 5 bytes

/-- A field: number, wire type and bytes. -/
inductive Field : Nat → Nat → List UInt8 → Prop where
  | mk {tag payload : List UInt8} {k : Nat} (htag : IsNumeral 32 tag k) (hk : 8 ≤ k)
      (hpayload : Payload (k % 8) payload) : Field (k / 8) (k % 8) (tag ++ payload)

/-- The field at the front, and what follows it. -/
def read (bytes : List UInt8) : Option (Nat × Nat × List UInt8) :=
  (key bytes).bind fun (number, wire, rest) => (skip wire rest).map (number, wire, ·)

/-! ## Numerals -/

/-- A numeral at the front of a byte string. -/
theorem numeral_iff {bits n : Nat} {bytes rest : List UInt8} :
    numeral bits bytes = some (n, rest) ↔
      ∃ digits, bytes = digits ++ rest ∧ IsNumeral bits digits n := by
  constructor
  · intro h
    obtain ⟨digits, hsplit, hbounds⟩ := numeral_eq_some.mp h
    have hdigits := Base128.split_digits hsplit []
    rw [List.append_nil] at hdigits
    exact ⟨digits, Base128.split_append hsplit, numeral_eq_some.mpr ⟨digits, hdigits, hbounds⟩⟩
  · rintro ⟨digits, rfl, h⟩
    obtain ⟨digits', hsplit, hbounds⟩ := numeral_eq_some.mp h
    have hself := Base128.split_append hsplit
    rw [List.append_nil] at hself
    subst hself
    exact numeral_eq_some.mpr ⟨digits, Base128.split_digits hsplit rest, hbounds⟩

/-- A numeral of 32 bits is one of 64 bits whose value fits. -/
theorem numeral_32 (bytes : List UInt8) :
    numeral 32 bytes = (numeral 64 bytes).filter fun p => p.1 < 2 ^ 32 := by
  rw [numeral, numeral]
  cases Base128.split bytes with
  | none => rfl
  | some p =>
    obtain ⟨digits, rest⟩ := p
    dsimp only
    by_cases hsmall : digits.length ≤ 10 ∧ Base128.value digits < 2 ^ 32
    · rw [if_pos hsmall, if_pos ⟨hsmall.1, by omega⟩, Option.filter_some,
        if_pos (decide_eq_true hsmall.2)]
    · rw [if_neg hsmall]
      split_ifs with hlarge
      · have hvalue : ¬Base128.value digits < 2 ^ 32 := fun h => hsmall ⟨hlarge.1, h⟩
        rw [Option.filter_some, if_neg (by simpa using hvalue)]
      · rfl

/-! ## Fields -/

theorem skip_eq_some {wire : Nat} {bytes rest : List UInt8} :
    skip wire bytes = some rest ↔ ∃ payload, bytes = payload ++ rest ∧ Payload wire payload := by
  constructor
  · intro h
    unfold skip at h
    split at h
    case h_1 =>
      obtain ⟨⟨n, r⟩, hnumeral, rfl⟩ := Option.map_eq_some_iff.mp h
      obtain ⟨digits, hbytes, hdigits⟩ := numeral_iff.mp hnumeral
      exact ⟨digits, hbytes, .varint hdigits⟩
    case h_2 =>
      split_ifs at h with hlen
      obtain rfl := Option.some.inj h
      exact ⟨bytes.take 8, (List.take_append_drop 8 bytes).symm, .fixed64 (by simp [hlen])⟩
    case h_3 =>
      obtain ⟨⟨n, r⟩, hnumeral, hdrop⟩ := Option.bind_eq_some_iff.mp h
      split_ifs at hdrop with hlen
      obtain rfl := Option.some.inj hdrop
      obtain ⟨digits, rfl, hdigits⟩ := numeral_iff.mp hnumeral
      have hsize : IsNumeral 64 digits (r.take n).length := by
        rwa [List.length_take, Nat.min_eq_left hlen]
      exact ⟨digits ++ r.take n, by rw [List.append_assoc, List.take_append_drop], .delimited hsize⟩
    case h_4 =>
      split_ifs at h with hlen
      obtain rfl := Option.some.inj h
      exact ⟨bytes.take 4, (List.take_append_drop 4 bytes).symm, .fixed32 (by simp [hlen])⟩
    case h_5 => cases h
  · rintro ⟨payload, rfl, hpayload⟩
    cases hpayload with
    | varint h =>
      have hnumeral : numeral 64 (payload ++ rest) = some (_, rest) :=
        numeral_iff.mpr ⟨payload, rfl, h⟩
      simp only [skip, hnumeral, Option.map_some]
    | fixed64 h =>
      simp only [skip]
      rw [if_pos (by rw [List.length_append]; omega), List.drop_left' h]
    | @delimited size body h =>
      have hnumeral : numeral 64 (size ++ (body ++ rest)) = some (_, body ++ rest) :=
        numeral_iff.mpr ⟨size, rfl, h⟩
      simp only [skip, List.append_assoc, hnumeral, Option.bind_some]
      rw [if_pos (by rw [List.length_append]; omega), List.drop_left]
    | fixed32 h =>
      simp only [skip]
      rw [if_pos (by rw [List.length_append]; omega), List.drop_left' h]

theorem read_eq_some_iff {number wire : Nat} {bytes rest : List UInt8} :
    read bytes = some (number, wire, rest) ↔
      ∃ body, key bytes = some (number, wire, body) ∧ skip wire body = some rest := by
  simp only [read, Option.bind_eq_some_iff, Option.map_eq_some_iff, Prod.exists, Prod.mk.injEq]
  constructor
  · rintro ⟨_, _, body, hkey, _, hskip, rfl, rfl, rfl⟩
    exact ⟨body, hkey, hskip⟩
  · rintro ⟨body, hkey, hskip⟩
    exact ⟨number, wire, body, hkey, rest, hskip, rfl, rfl, rfl⟩

theorem read_eq_some {number wire : Nat} {bytes rest : List UInt8} :
    read bytes = some (number, wire, rest) ↔
      ∃ field, bytes = field ++ rest ∧ Field number wire field := by
  rw [read_eq_some_iff]
  constructor
  · rintro ⟨body, hkey, hskip⟩
    obtain ⟨k, hnumeral, hk, rfl, rfl⟩ := key_eq_some.mp hkey
    obtain ⟨tag, rfl, htag⟩ := numeral_iff.mp hnumeral
    obtain ⟨payload, rfl, hpayload⟩ := skip_eq_some.mp hskip
    exact ⟨tag ++ payload, (List.append_assoc _ _ _).symm, .mk htag hk hpayload⟩
  · rintro ⟨field, rfl, hfield⟩
    cases hfield with
    | @mk tag payload k htag hk hpayload =>
      rw [List.append_assoc]
      exact ⟨payload ++ rest, key_eq_some.mpr ⟨k, numeral_iff.mpr ⟨tag, rfl, htag⟩, hk, rfl, rfl⟩,
        skip_eq_some.mpr ⟨payload, rfl, hpayload⟩⟩

theorem read_length {number wire : Nat} {bytes rest : List UInt8}
    (h : read bytes = some (number, wire, rest)) : rest.length < bytes.length := by
  obtain ⟨body, hkey, hskip⟩ := read_eq_some_iff.mp h
  exact Nat.lt_of_le_of_lt (skip_length hskip) (key_length hkey)

end ProtoWire
