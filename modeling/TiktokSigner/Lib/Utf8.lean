import Mathlib.Data.List.Basic
import Mathlib.Tactic.SplitIfs

/-!
# Text as UTF-8 bytes

`encode` writes a text character by character. An ASCII character is its own
byte and no other character has a byte below 128, so an ASCII byte cuts a
text in two (`valid_append_cons`), and only the first byte of a character is
no continuation byte (`head_not_continuation`).
-/

namespace Utf8

/-- The bytes of a text. -/
def encode (text : List Char) : List UInt8 := text.flatMap String.utf8EncodeChar

/-- The bytes are those of a text. -/
def Valid (bytes : List UInt8) : Prop := ∃ text, encode text = bytes

/-- A byte after the first one of a character. -/
def isContinuation (b : UInt8) : Bool := 128 ≤ b.toNat && b.toNat < 192

@[simp] theorem encode_nil : encode [] = [] := rfl

@[simp] theorem encode_cons (c : Char) (text : List Char) :
    encode (c :: text) = String.utf8EncodeChar c ++ encode text := List.flatMap_cons

@[simp] theorem encode_append (text text' : List Char) :
    encode (text ++ text') = encode text ++ encode text' := List.flatMap_append

/-! ## The bytes of a character -/

theorem encodeChar_ascii {c : Char} (h : c.toNat < 128) :
    String.utf8EncodeChar c = [UInt8.ofNat c.toNat] := by
  have hle : c.val.toNat ≤ 127 := Nat.le_of_lt_succ h
  simp only [String.utf8EncodeChar, if_pos hle]
  rfl

/-- The first byte starts the character, the others continue it. -/
theorem encodeChar_eq {c : Char} (h : 128 ≤ c.toNat) :
    ∃ b rest, String.utf8EncodeChar c = b :: rest ∧ 192 ≤ b.toNat ∧
      rest ≠ [] ∧ ∀ b' ∈ rest, isContinuation b' = true := by
  have hle : ¬c.val.toNat ≤ 127 := by
    have hval : c.toNat = c.val.toNat := rfl
    omega
  simp only [String.utf8EncodeChar, if_neg hle]
  split_ifs with h2 h3
  all_goals
    refine ⟨_, _, rfl, ?_, by simp, ?_⟩
    · simp only [UInt8.toNat_ofNat']
      omega
    · intro b' hb'
      simp only [List.mem_cons, List.not_mem_nil, or_false] at hb'
      rcases hb' with rfl | rfl | rfl
      all_goals
        simp only [isContinuation, Bool.and_eq_true, decide_eq_true_eq, UInt8.toNat_ofNat']
        omega

theorem toNat_ofNat {n : Nat} (h : n < 128) : (Char.ofNat n).toNat = n := by
  rw [Char.ofNat, dif_pos (Or.inl (by omega))]
  rfl

theorem encodeChar_ofNat {a : UInt8} (ha : a.toNat < 128) :
    String.utf8EncodeChar (Char.ofNat a.toNat) = [a] := by
  have hchar := toNat_ofNat ha
  rw [encodeChar_ascii (by omega), hchar, UInt8.ofNat_toNat]

theorem ofNat_of_encodeChar {c : Char} {a : UInt8} (h : String.utf8EncodeChar c = [a]) :
    Char.ofNat a.toNat = c := by
  rcases Nat.lt_or_ge c.toNat 128 with hc | hc
  · rw [encodeChar_ascii hc, List.singleton_inj] at h
    rw [← h, UInt8.toNat_ofNat', Nat.mod_eq_of_lt (by omega), Char.ofNat_toNat]
  · obtain ⟨b, rest, hbytes, -, hrest, -⟩ := encodeChar_eq hc
    rw [hbytes] at h
    exact absurd (List.cons.inj h).2 hrest

/-- A character with an ASCII byte is that byte. -/
theorem encodeChar_of_mem {c : Char} {a : UInt8} (ha : a.toNat < 128)
    (hmem : a ∈ String.utf8EncodeChar c) : String.utf8EncodeChar c = [a] := by
  rcases Nat.lt_or_ge c.toNat 128 with hc | hc
  · rw [encodeChar_ascii hc] at hmem ⊢
    rw [List.mem_singleton.mp hmem]
  · obtain ⟨b, rest, hbytes, hb, -, hrest⟩ := encodeChar_eq hc
    rw [hbytes] at hmem
    rcases List.mem_cons.mp hmem with rfl | hmem
    · omega
    · have hcont := hrest a hmem
      simp only [isContinuation, Bool.and_eq_true, decide_eq_true_eq] at hcont
      omega

/-! ## Cutting at an ASCII byte -/

theorem encode_ascii {text : List Char} (h : ∀ c ∈ text, c.toNat < 128) :
    encode text = text.map fun c => UInt8.ofNat c.toNat := by
  induction text with
  | nil => rfl
  | cons c text ih =>
    obtain ⟨hc, htext⟩ := List.forall_mem_cons.mp h
    rw [encode_cons, encodeChar_ascii hc, ih htext, List.singleton_append, List.map_cons]

/-- The text around an ASCII byte. -/
theorem encode_eq_append_cons {a : UInt8} (ha : a.toNat < 128) {bytes bytes' : List UInt8} :
    ∀ {text : List Char}, encode text = bytes ++ a :: bytes' →
      ∃ before after, text = before ++ Char.ofNat a.toNat :: after ∧
        encode before = bytes ∧ encode after = bytes'
  | [], h => by
      cases bytes <;> cases h
  | c :: text, h => by
      rw [encode_cons] at h
      rcases List.append_eq_append_iff.mp h with ⟨mid, hbytes, htext⟩ | ⟨mid, hchar, hafter⟩
      · obtain ⟨before, after, rfl, hbefore, hafter⟩ := encode_eq_append_cons ha htext
        exact ⟨c :: before, after, rfl, by rw [encode_cons, hbefore, hbytes], hafter⟩
      · cases mid with
        | nil =>
          obtain ⟨before, after, rfl, hbefore, hafter⟩ :=
            encode_eq_append_cons ha (hafter.symm.trans (List.nil_append _).symm)
          rw [List.append_nil] at hchar
          exact ⟨c :: before, after, rfl, by rw [encode_cons, hbefore, hchar, List.append_nil],
            hafter⟩
        | cons b mid =>
          rw [List.cons_append] at hafter
          obtain ⟨rfl, rfl⟩ := List.cons.inj hafter
          have hsingle := encodeChar_of_mem ha (c := c) (by rw [hchar]; simp)
          rw [hsingle] at hchar
          obtain ⟨rfl, rfl⟩ : bytes = [] ∧ mid = [] := by
            cases bytes with
            | nil => exact ⟨rfl, (List.cons.inj hchar).2.symm⟩
            | cons b bytes => simp at hchar
          exact ⟨[], text, by rw [List.nil_append, ofNat_of_encodeChar hsingle], rfl, rfl⟩

/-- An ASCII byte between two parts says nothing about them. -/
theorem valid_append_cons {a : UInt8} (ha : a.toNat < 128) {bytes bytes' : List UInt8} :
    Valid (bytes ++ a :: bytes') ↔ Valid bytes ∧ Valid bytes' := by
  constructor
  · rintro ⟨text, htext⟩
    obtain ⟨before, after, -, hbefore, hafter⟩ := encode_eq_append_cons ha htext
    exact ⟨⟨before, hbefore⟩, ⟨after, hafter⟩⟩
  · rintro ⟨⟨before, rfl⟩, ⟨after, rfl⟩⟩
    exact ⟨before ++ Char.ofNat a.toNat :: after,
      by rw [encode_append, encode_cons, encodeChar_ofNat ha, List.singleton_append]⟩

theorem valid_cons {a : UInt8} (ha : a.toNat < 128) {bytes : List UInt8} :
    Valid (a :: bytes) ↔ Valid bytes := by
  have hnil : Valid [] := ⟨[], rfl⟩
  rw [← List.nil_append (a :: bytes), valid_append_cons ha, and_iff_right hnil]

/-! ## ASCII alphabets -/

theorem isAlphanum_lt {c : Char} (h : c.isAlphanum = true) : c.toNat < 128 := by
  have hranges : c.isAlphanum = ((decide (c.val ≥ 65 ∧ c.val ≤ 90) ||
      (c.val ≥ 97 && c.val ≤ 122)) || (c.val ≥ 48 && c.val ≤ 57)) := rfl
  rw [hranges] at h
  simp only [Bool.or_eq_true, Bool.and_eq_true, decide_eq_true_eq] at h
  have hval : c.toNat = c.val.toNat := rfl
  rcases h with (⟨-, h⟩ | ⟨-, h⟩) | ⟨-, h⟩
  all_goals
    have hle := UInt32.le_iff_toNat_le.mp h
    simp at hle
    omega

/-! ## Decoding what may be no text -/

/-- A character that is not read to its end: how many bytes are to come, the
range of the next one, and the bits that are there. -/
structure Pending where
  need : Nat
  low : Nat
  high : Nat
  bits : Nat

/-- What a byte begins: a character, or the first part of one, or nothing. -/
def begins (b : Nat) : Option (Char ⊕ Pending) :=
  if b < 0x80 then some (.inl (Char.ofNat b))
  else if 0xc2 ≤ b ∧ b ≤ 0xdf then some (.inr ⟨1, 0x80, 0xbf, b - 0xc0⟩)
  else if b = 0xe0 then some (.inr ⟨2, 0xa0, 0xbf, 0⟩)
  else if b = 0xed then some (.inr ⟨2, 0x80, 0x9f, 0xd⟩)
  else if 0xe1 ≤ b ∧ b ≤ 0xef then some (.inr ⟨2, 0x80, 0xbf, b - 0xe0⟩)
  else if b = 0xf0 then some (.inr ⟨3, 0x90, 0xbf, 0⟩)
  else if b = 0xf4 then some (.inr ⟨3, 0x80, 0x8f, 4⟩)
  else if 0xf1 ≤ b ∧ b ≤ 0xf3 then some (.inr ⟨3, 0x80, 0xbf, b - 0xf0⟩)
  else none

/-- What a character is with one more byte. -/
def Pending.continues (self : Pending) (b : Nat) : Option (Char ⊕ Pending) :=
  if self.low ≤ b ∧ b ≤ self.high then
    let bits := self.bits * 64 + (b - 0x80)
    if self.need ≤ 1 then some (.inl (Char.ofNat bits))
    else some (.inr ⟨self.need - 1, 0x80, 0xbf, bits⟩)
  else none

/-- The text of the bytes. The longest part that may begin a character and
does not go on as one is replaced. -/
def decodeLossy : Option Pending → List UInt8 → List Char
  | none, [] => []
  | some _, [] => ['\ufffd']
  | pending, b :: rest =>
      match pending.bind (·.continues b.toNat) with
      | some (.inl c) => c :: decodeLossy none rest
      | some (.inr more) => decodeLossy (some more) rest
      | none =>
          (if pending.isSome then ['\ufffd'] else []) ++
            match begins b.toNat with
            | some (.inl c) => c :: decodeLossy none rest
            | some (.inr more) => decodeLossy (some more) rest
            | none => '\ufffd' :: decodeLossy none rest

/-! ## Decoding a text -/

theorem decodeLossy_begins {b : UInt8} {rest : List UInt8} {c : Char}
    (h : begins b.toNat = some (.inl c)) : decodeLossy none (b :: rest) = c :: decodeLossy none rest := by
  rw [decodeLossy, Option.bind_none]
  dsimp only
  rw [h]
  rfl

theorem decodeLossy_lead {b : UInt8} {rest : List UInt8} {more : Pending}
    (h : begins b.toNat = some (.inr more)) :
    decodeLossy none (b :: rest) = decodeLossy (some more) rest := by
  rw [decodeLossy, Option.bind_none]
  dsimp only
  rw [h]
  rfl

theorem decodeLossy_more {pending more : Pending} {b : UInt8} {rest : List UInt8}
    (h : pending.continues b.toNat = some (.inr more)) :
    decodeLossy (some pending) (b :: rest) = decodeLossy (some more) rest := by
  rw [decodeLossy, Option.bind_some, h]

theorem decodeLossy_last {pending : Pending} {b : UInt8} {rest : List UInt8} {c : Char}
    (h : pending.continues b.toNat = some (.inl c)) :
    decodeLossy (some pending) (b :: rest) = c :: decodeLossy none rest := by
  rw [decodeLossy, Option.bind_some, h]

theorem toNat_ofNat_byte {n : Nat} (h : n < 256) : (UInt8.ofNat n).toNat = n := by
  rw [UInt8.toNat_ofNat', Nat.mod_eq_of_lt h]

theorem continues_last {low high bits b : Nat} (hb : low ≤ b ∧ b ≤ high) :
    Pending.continues ⟨1, low, high, bits⟩ b
      = some (.inl (Char.ofNat (bits * 64 + (b - 0x80)))) := by
  rw [Pending.continues, if_pos hb]
  rfl

theorem continues_more {need low high bits b : Nat} (hb : low ≤ b ∧ b ≤ high) :
    Pending.continues ⟨need + 2, low, high, bits⟩ b
      = some (.inr ⟨need + 1, 0x80, 0xbf, bits * 64 + (b - 0x80)⟩) := by
  rw [Pending.continues, if_pos hb]
  rfl

theorem begins_two {b : Nat} (h : 0xc2 ≤ b ∧ b ≤ 0xdf) :
    begins b = some (.inr ⟨1, 0x80, 0xbf, b - 0xc0⟩) := by
  rw [begins, if_neg (by omega), if_pos h]

/-- The first byte of three, and the range of the second. -/
theorem begins_three {b : Nat} (h : 0xe0 ≤ b ∧ b ≤ 0xef) :
    begins b = some (.inr ⟨2, if b = 0xe0 then 0xa0 else 0x80, if b = 0xed then 0x9f else 0xbf,
      b - 0xe0⟩) := by
  rw [begins, if_neg (by omega), if_neg (by omega)]
  by_cases h0 : b = 0xe0
  · subst h0
    rfl
  by_cases hd : b = 0xed
  · subst hd
    rfl
  rw [if_neg h0, if_neg hd, if_pos (by omega), if_neg h0, if_neg hd]

/-- The first byte of four, and the range of the second. -/
theorem begins_four {b : Nat} (h : 0xf0 ≤ b ∧ b ≤ 0xf4) :
    begins b = some (.inr ⟨3, if b = 0xf0 then 0x90 else 0x80, if b = 0xf4 then 0x8f else 0xbf,
      b - 0xf0⟩) := by
  rw [begins, if_neg (by omega), if_neg (by omega), if_neg (by omega), if_neg (by omega),
    if_neg (by omega)]
  by_cases h0 : b = 0xf0
  · subst h0
    rfl
  by_cases h4 : b = 0xf4
  · subst h4
    rfl
  rw [if_neg h0, if_neg h4, if_pos (by omega), if_neg h0, if_neg h4]

theorem decodeLossy_encodeChar (c : Char) (rest : List UInt8) :
    decodeLossy none (String.utf8EncodeChar c ++ rest) = c :: decodeLossy none rest := by
  have hchar : Char.ofNat c.val.toNat = c := Char.ofNat_toNat c
  have hvalid : c.val.toNat < 0xd800 ∨ 0xdfff < c.val.toNat ∧ c.val.toNat < 0x110000 := c.valid
  rw [String.utf8EncodeChar]
  generalize c.val.toNat = v at *
  split_ifs with h1 h2 h3
  · refine decodeLossy_begins ?_
    rw [toNat_ofNat_byte (by omega), begins, if_pos (by omega), hchar]
  · rw [List.cons_append, List.cons_append, List.nil_append, decodeLossy_lead
      (begins_two (by rw [toNat_ofNat_byte (by omega)]; omega)),
      decodeLossy_last (continues_last (by rw [toNat_ofNat_byte (by omega)]; omega)),
      toNat_ofNat_byte (by omega), toNat_ofNat_byte (by omega)]
    have hbits : (v / 64 % 0x20 + 0xc0 - 0xc0) * 64 + (v % 0x40 + 0x80 - 0x80) = v := by omega
    rw [hbits, hchar]
  · rw [List.cons_append, List.cons_append, List.cons_append, List.nil_append, decodeLossy_lead
      (begins_three (by rw [toNat_ofNat_byte (by omega)]; omega))]
    rw [toNat_ofNat_byte (by omega)]
    rw [decodeLossy_more (continues_more (by rw [toNat_ofNat_byte (by omega)]; split_ifs <;> omega)),
      decodeLossy_last (continues_last (by rw [toNat_ofNat_byte (by omega)]; omega)),
      toNat_ofNat_byte (by omega), toNat_ofNat_byte (by omega)]
    have hbits : ((v / 4096 % 0x10 + 0xe0 - 0xe0) * 64 + (v / 64 % 0x40 + 0x80 - 0x80)) * 64
        + (v % 0x40 + 0x80 - 0x80) = v := by omega
    rw [hbits, hchar]
  · rw [List.cons_append, List.cons_append, List.cons_append, List.cons_append, List.nil_append,
      decodeLossy_lead (begins_four (by rw [toNat_ofNat_byte (by omega)]; omega))]
    rw [toNat_ofNat_byte (by omega)]
    rw [decodeLossy_more (continues_more (by rw [toNat_ofNat_byte (by omega)]; split_ifs <;> omega)),
      decodeLossy_more (continues_more (by rw [toNat_ofNat_byte (by omega)]; omega)),
      decodeLossy_last (continues_last (by rw [toNat_ofNat_byte (by omega)]; omega)),
      toNat_ofNat_byte (by omega), toNat_ofNat_byte (by omega), toNat_ofNat_byte (by omega)]
    have hbits : (((v / 262144 % 0x08 + 0xf0 - 0xf0) * 64 + (v / 4096 % 0x40 + 0x80 - 0x80)) * 64
        + (v / 64 % 0x40 + 0x80 - 0x80)) * 64 + (v % 0x40 + 0x80 - 0x80) = v := by omega
    rw [hbits, hchar]

/-- A text is decoded as it was encoded. -/
theorem decodeLossy_encode (text : List Char) : decodeLossy none (encode text) = text := by
  induction text with
  | nil => rfl
  | cons c text ih => rw [encode_cons, decodeLossy_encodeChar, ih]

theorem zero_notMem_encode {text : List Char} (h : Char.ofNat 0 ∉ text) : 0 ∉ encode text := by
  rw [encode, List.mem_flatMap]
  rintro ⟨c, hc, hzero⟩
  have hsingle := encodeChar_of_mem (by decide) hzero
  exact h (ofNat_of_encodeChar hsingle ▸ hc)

end Utf8
