import TiktokSigner.Lib.Base128

/-!
# The protobuf wire format

A message on the wire is a sequence of entries, each a key (field number
and wire type, one base-128 numeral) and a value. Wire types 3 and 4 open
and close a group: everything between the two keys of one number, nested
groups included, belongs to that entry.

`parse` is the reference reading of the format: the top-level entries of a
byte string, or `none` where it is not a message. It carries the stack of
open groups and emits an entry only outside all of them.
-/

namespace ProtoWire

/-- A top-level entry; a group has wire type 3. -/
structure Entry where
  number : Nat
  wire : Nat
deriving DecidableEq, Repr

def Entry.isGroup (e : Entry) : Bool := e.wire == 3

/-- A numeral of at most ten bytes whose value fits `bits` bits. -/
def numeral (bits : Nat) (bytes : List UInt8) : Option (Nat × List UInt8) :=
  match Base128.split bytes with
  | some (digits, rest) =>
      if digits.length ≤ 10 ∧ Base128.value digits < 2 ^ bits then
        some (Base128.value digits, rest)
      else none
  | none => none

/-- Field number, at least 1, and wire type. -/
def key (bytes : List UInt8) : Option (Nat × Nat × List UInt8) :=
  match numeral 32 bytes with
  | some (key, rest) => if 8 ≤ key then some (key / 8, key % 8, rest) else none
  | none => none

/-- The bytes after a value that is not a group. -/
def skip (wire : Nat) (bytes : List UInt8) : Option (List UInt8) :=
  match wire with
  | 0 => (numeral 64 bytes).map (·.2)
  | 1 => if 8 ≤ bytes.length then some (bytes.drop 8) else none
  | 2 =>
      (numeral 64 bytes).bind fun p => if p.1 ≤ p.2.length then some (p.2.drop p.1) else none
  | 5 => if 4 ≤ bytes.length then some (bytes.drop 4) else none
  | _ => none

theorem numeral_eq_some {bits n : Nat} {bytes rest : List UInt8} :
    numeral bits bytes = some (n, rest) ↔
      ∃ digits, Base128.split bytes = some (digits, rest) ∧ digits.length ≤ 10 ∧
        Base128.value digits = n ∧ n < 2 ^ bits := by
  rw [numeral]
  cases hsplit : Base128.split bytes with
  | none => simp
  | some p =>
      obtain ⟨digits, r⟩ := p
      dsimp only
      constructor
      · intro h
        split_ifs at h with hbounds
        simp only [Option.some.injEq, Prod.mk.injEq] at h
        obtain ⟨rfl, rfl⟩ := h
        exact ⟨digits, rfl, hbounds.1, rfl, hbounds.2⟩
      · rintro ⟨digits', heq, hlen, rfl, hlt⟩
        simp only [Option.some.injEq, Prod.mk.injEq] at heq
        obtain ⟨rfl, rfl⟩ := heq
        rw [if_pos ⟨hlen, hlt⟩]

theorem numeral_length {bits n : Nat} {bytes rest : List UInt8}
    (h : numeral bits bytes = some (n, rest)) : rest.length < bytes.length := by
  obtain ⟨digits, hsplit, -⟩ := numeral_eq_some.mp h
  have := List.length_pos_iff.mpr (Base128.split_ne_nil hsplit)
  rw [Base128.split_append hsplit, List.length_append]
  omega

theorem key_eq_some {number wire : Nat} {bytes rest : List UInt8} :
    key bytes = some (number, wire, rest) ↔
      ∃ k, numeral 32 bytes = some (k, rest) ∧ 8 ≤ k ∧ number = k / 8 ∧ wire = k % 8 := by
  rw [key]
  cases hnumeral : numeral 32 bytes with
  | none => simp
  | some p =>
      obtain ⟨k, r⟩ := p
      dsimp only
      constructor
      · intro h
        split_ifs at h with hk
        simp only [Option.some.injEq, Prod.mk.injEq] at h
        obtain ⟨rfl, rfl, rfl⟩ := h
        exact ⟨k, rfl, hk, rfl, rfl⟩
      · rintro ⟨k', heq, hk, rfl, rfl⟩
        simp only [Option.some.injEq, Prod.mk.injEq] at heq
        obtain ⟨rfl, rfl⟩ := heq
        rw [if_pos hk]

theorem key_length {number wire : Nat} {bytes rest : List UInt8}
    (h : key bytes = some (number, wire, rest)) : rest.length < bytes.length := by
  obtain ⟨k, hnumeral, -⟩ := key_eq_some.mp h
  exact numeral_length hnumeral

theorem skip_length {wire : Nat} {bytes rest : List UInt8} (h : skip wire bytes = some rest) :
    rest.length ≤ bytes.length := by
  unfold skip at h
  split at h
  case h_1 =>
    obtain ⟨p, hnumeral, rfl⟩ := Option.map_eq_some_iff.mp h
    exact Nat.le_of_lt (numeral_length hnumeral)
  case h_2 | h_4 =>
    split_ifs at h
    obtain rfl := Option.some.inj h
    simp
  case h_3 =>
    obtain ⟨p, hnumeral, hdrop⟩ := Option.bind_eq_some_iff.mp h
    split_ifs at hdrop
    obtain rfl := Option.some.inj hdrop
    have := numeral_length hnumeral
    simp only [List.length_drop]
    omega
  case h_5 => cases h

/-- An entry counts where no group is open. -/
def emit (stack : List Nat) (e : Entry) (entries : List Entry) : List Entry :=
  if stack = [] then e :: entries else entries

def parse (stack : List Nat) (bytes : List UInt8) : Option (List Entry) :=
  if bytes = [] then
    if stack = [] then some [] else none
  else
    match _ : key bytes with
    | none => none
    | some (number, wire, rest) =>
        if wire = 3 then (parse (number :: stack) rest).map (emit stack ⟨number, wire⟩)
        else if wire = 4 then
          match stack with
          | [] => none
          | opened :: stack => if opened = number then parse stack rest else none
        else
          match _ : skip wire rest with
          | none => none
          | some rest => (parse stack rest).map (emit stack ⟨number, wire⟩)
termination_by bytes.length
decreasing_by
  · exact key_length (by assumption)
  · exact key_length (by assumption)
  · exact Nat.lt_of_le_of_lt (skip_length (by assumption)) (key_length (by assumption))

@[simp] theorem parse_nil : parse [] [] = some [] := by
  rw [parse, if_pos rfl, if_pos rfl]

/-- What a message starts with: a value that is skipped, or a group. -/
theorem parse_cons {bytes : List UInt8} {entries : List Entry} (hne : bytes ≠ [])
    (h : parse [] bytes = some entries) :
    ∃ number wire rest, key bytes = some (number, wire, rest) ∧
      ((wire = 3 ∧ ∃ more, entries = ⟨number, wire⟩ :: more) ∨
        (wire ≠ 3 ∧ ∃ rest' more, skip wire rest = some rest' ∧ parse [] rest' = some more ∧
          entries = ⟨number, wire⟩ :: more)) := by
  rw [parse, if_neg hne] at h
  split at h
  case h_1 => cases h
  case h_2 number wire rest hkey =>
    refine ⟨number, wire, rest, hkey, ?_⟩
    split_ifs at h with hopen hclose
    · obtain ⟨more, -, hmore⟩ := Option.map_eq_some_iff.mp h
      exact Or.inl ⟨hopen, more, hmore.symm⟩
    · split at h
      case h_1 => cases h
      case h_2 rest' hskip =>
        obtain ⟨more, hparse, hmore⟩ := Option.map_eq_some_iff.mp h
        exact Or.inr ⟨hopen, rest', more, hskip, hparse, hmore.symm⟩

/-- A message whose first key is known. -/
theorem parse_key {stack : List Nat} {bytes rest : List UInt8} {number wire : Nat}
    (hne : bytes ≠ []) (hkey : key bytes = some (number, wire, rest)) :
    parse stack bytes =
      if wire = 3 then (parse (number :: stack) rest).map (emit stack ⟨number, wire⟩)
      else if wire = 4 then
        match stack with
        | [] => none
        | opened :: stack => if opened = number then parse stack rest else none
      else (skip wire rest).bind fun rest => (parse stack rest).map (emit stack ⟨number, wire⟩) := by
  rw [parse, if_neg hne]
  split
  case h_1 heq => simp [hkey] at heq
  case h_2 number' wire' r heq =>
    rw [hkey] at heq
    simp only [Option.some.injEq, Prod.mk.injEq] at heq
    obtain ⟨rfl, rfl, rfl⟩ := heq
    split_ifs
    · rfl
    · rfl
    · split
      case h_1 heq => rw [heq, Option.bind_none]
      case h_2 heq => rw [heq, Option.bind_some]

theorem parse_field {bytes rest rest' : List UInt8} {number wire : Nat} (hne : bytes ≠ [])
    (hkey : key bytes = some (number, wire, rest)) (hwire : wire ≠ 3 ∧ wire ≠ 4)
    (hskip : skip wire rest = some rest') :
    parse [] bytes = (parse [] rest').map (⟨number, wire⟩ :: ·) := by
  rw [parse_key hne hkey, if_neg hwire.1, if_neg hwire.2, hskip]
  rfl

theorem parse_open {stack : List Nat} {bytes rest : List UInt8} {number : Nat}
    (hne : bytes ≠ []) (hkey : key bytes = some (number, 3, rest)) :
    parse stack bytes = (parse (number :: stack) rest).map (emit stack ⟨number, 3⟩) := by
  rw [parse_key hne hkey, if_pos rfl]

theorem parse_close {stack : List Nat} {bytes rest : List UInt8} {number : Nat}
    (hne : bytes ≠ []) (hkey : key bytes = some (number, 4, rest)) :
    parse (number :: stack) bytes = parse stack rest := by
  rw [parse_key hne hkey, if_neg (by decide), if_pos rfl]
  exact if_pos rfl

/-- A numeral of one byte. -/
theorem numeral_single {bits : Nat} {b : UInt8} (rest : List UInt8) (hb : b.toNat < 128)
    (hbits : 7 ≤ bits) : numeral bits (b :: rest) = some (b.toNat, rest) := by
  refine numeral_eq_some.mpr ⟨[b], Base128.split_cons_last rest hb, by simp, ?_, ?_⟩
  · simp only [Base128.value, Nat.mod_eq_of_lt hb, Nat.mul_zero, Nat.add_zero]
  · have hpow : 2 ^ 7 ≤ 2 ^ bits := Nat.pow_le_pow_right (by decide) hbits
    omega

theorem key_single {b : UInt8} (rest : List UInt8) (hb : 8 ≤ b.toNat ∧ b.toNat < 128) :
    key (b :: rest) = some (b.toNat / 8, b.toNat % 8, rest) :=
  key_eq_some.mpr ⟨b.toNat, numeral_single rest hb.2 (by decide), hb.1, rfl, rfl⟩

end ProtoWire
