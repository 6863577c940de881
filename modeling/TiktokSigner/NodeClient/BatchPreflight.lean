import TiktokSigner.Lib.FloatingPoint
import TiktokSigner.Lib.WireGrammar
import TiktokSigner.SignCore.Wire

/-!
# The batch preflight of the Node client

`preflightBatch` of `frames.ts` walks the fields of a batch before anything
is allocated for it. All of its numbers are natural numbers in doubles:
positions, counts and the values of varints, which may be beyond what a
double holds exactly.
-/

namespace TiktokSigner.NodeClient

open FloatingPoint ProtoWire

/-- A natural number in a double. -/
abbrev Double := FloatingPoint.Number 53

def maxSafeInteger : Nat := 2 ^ 53 - 1

/-- No typed array is longer than a safe integer. -/
structure Uint8Array where
  bytes : List UInt8
  safe : bytes.length ≤ maxSafeInteger

def maxBatchMessages : Nat := 8192

inductive Thrown where
  | error (message : String)
  | rangeError (message : String)
deriving DecidableEq

/-! ## The scan -/

section

variable (input : Uint8Array)

/-- The loop of `varint` with so many of its ten turns left: the value, and
the position after it. -/
def varintLoop : Nat → Double → Double → Double → Except Thrown (Double × Double)
  | 0, _, _, _ => .error (.error "overflowing batch varint")
  | turns + 1, value, factor, position =>
      match input.bytes[position.toNat]? with
      | none => .error (.error "truncated batch varint")
      | some byte =>
          let position := position + 1
          if turns = 0 ∧ 1 < byte.toNat then .error (.error "overflowing batch varint")
          else
            let value := value + Number.ofNat (byte &&& 127).toNat * factor
            if byte &&& 128 = 0 then .ok (value, position)
            else varintLoop turns value (factor * 128) position

def varint (position : Double) : Except Thrown (Double × Double) := varintLoop input 10 0 1 position

/-- The count after a tag; only field 1 is counted. -/
def countMessage (number wire : Nat) (count : Double) : Except Thrown Double :=
  if number = 1 then
    if wire ≠ 2 then .error (.error "invalid message wire type")
    else if maxBatchMessages < (count + 1).toNat then
      .error (.rangeError "batch exceeds 8192 messages")
    else .ok (count + 1)
  else .ok count

/-- The position after the value of a field, which may be past the end for
a value of fixed width. No varint ends past the end, so the difference that
a length is compared with is exact. -/
def skipValue (wire : Nat) (position : Double) : Except Thrown Double :=
  match wire with
  | 0 => do
      let (_, position) ← varint input position
      return position
  | 1 => .ok (position + 8)
  | 2 => do
      let (length, position) ← varint input position
      if maxSafeInteger < length.toNat ∨ input.bytes.length - position.toNat < length.toNat then
        throw (.error "truncated batch field")
      return position + length
  | 5 => .ok (position + 4)
  | _ => .error (.error "unsupported batch wire type")

/-- One turn of the loop over the fields: the position and the count after
it. -/
def preflightField (position count : Double) : Except Thrown (Double × Double) := do
  let (tag, position) ← varint input position
  if tag.toNat < 8 ∨ 0xffffffff < tag.toNat then
    throw (.error "invalid batch field tag")
  let wire := tag.toNat % 8
  let count ← countMessage (tag.toNat / 8) wire count
  let position ← skipValue input wire position
  if input.bytes.length < position.toNat then
    throw (.error "truncated batch field")
  return (position, count)

/-! ## Varints -/

variable {input} {position position' value factor count count' : Double}

/-- A position before the end, and the bytes from there. -/
theorem drop_of_getElem {byte : UInt8} (h : input.bytes[position.toNat]? = some byte) :
    (position + 1).toNat = position.toNat + 1 ∧ position.toNat + 1 ≤ input.bytes.length ∧
      input.bytes.drop position.toNat = byte :: input.bytes.drop (position + 1).toNat := by
  obtain ⟨hlt, hbyte⟩ := List.getElem?_eq_some_iff.mp h
  have hsafe := input.safe
  rw [maxSafeInteger] at hsafe
  have hnext : (position + 1).toNat = position.toNat + 1 :=
    ((Tracks.of_eq rfl).add (Tracks.literal 1)).exact (by omega)
  refine ⟨hnext, hlt, ?_⟩
  rw [hnext, List.drop_eq_getElem_cons hlt, hbyte]

/-- A digit that is added. -/
theorem tracks_digit {i acc : Nat} (hvalue : Tracks value acc) (hfactor : factor.toNat = 128 ^ i)
    (b : UInt8) :
    Tracks (value + Number.ofNat (b &&& 127).toNat * factor) (acc + 128 ^ i * (b.toNat % 128)) := by
  have hdigit : b.toNat % 128 < 128 := Nat.mod_lt _ (by decide)
  have hpow : 128 ^ i = 2 ^ (7 * i) := by rw [Nat.pow_mul]
  refine hvalue.add (Tracks.of_eq ?_)
  rw [Number.toNat_mul, Reader.toNat_and_7f, Number.toNat_ofNat (representable_of_lt (by omega)), hfactor,
    round_of_representable ⟨b.toNat % 128, 7 * i, by omega, by rw [hpow]⟩, Nat.mul_comm]

theorem factor_mul {i : Nat} (hfactor : factor.toNat = 128 ^ i) :
    (factor * 128).toNat = 128 ^ (i + 1) := by
  have hliteral : (128 : Double).toNat = 128 :=
    Number.toNat_ofNat (representable_of_lt (by decide))
  have hpow : 128 ^ (i + 1) = 1 * 2 ^ (7 * (i + 1)) := by rw [Nat.one_mul, Nat.pow_mul]
  rw [Number.toNat_mul, hliteral, hfactor, ← Nat.pow_succ]
  exact round_of_representable ⟨1, 7 * (i + 1), by decide, hpow⟩

/-- What is read is the numeral at the position, of so many digits at most
and below `2 ^ 64`. -/
theorem varintLoop_sound {turns i acc : Nat} (hturns : i + turns = 10) (hvalue : Tracks value acc)
    (hacc : acc < 128 ^ i) (hfactor : factor.toNat = 128 ^ i) {v : Double}
    (h : varintLoop input turns value factor position = .ok (v, position')) :
    ∃ digits, Base128.split (input.bytes.drop position.toNat)
        = some (digits, input.bytes.drop position'.toNat) ∧
      position'.toNat ≤ input.bytes.length ∧ digits.length ≤ turns ∧
      acc + 128 ^ i * Base128.value digits < 2 ^ 64 ∧
      Tracks v (acc + 128 ^ i * Base128.value digits) := by
  induction turns generalizing i acc value factor position with
  | zero => cases h
  | succ turns ih =>
    rw [varintLoop] at h
    split at h
    case h_1 => cases h
    case h_2 byte hbyte =>
      obtain ⟨hnext, hle, hdrop⟩ := drop_of_getElem hbyte
      have hdigit := tracks_digit hvalue hfactor byte
      have hlow : byte.toNat % 128 < 128 := Nat.mod_lt _ (by decide)
      have hstep : acc + 128 ^ i * (byte.toNat % 128) < 128 ^ (i + 1) := by
        rw [Nat.pow_succ]
        have := Nat.mul_le_mul_left (128 ^ i) (Nat.le_of_lt_succ hlow)
        omega
      dsimp only at h
      split_ifs at h with hover hlast
      · -- the last digit
        rw [Reader.and_80_eq_zero] at hlast
        obtain ⟨rfl, rfl⟩ := Prod.mk.inj (Except.ok.inj h)
        have hvalue : Base128.value [byte] = byte.toNat % 128 := by
          rw [Base128.value, Base128.value, Nat.mul_zero, Nat.add_zero]
        refine ⟨[byte], ?_, by omega, Nat.le_add_left _ _, ?_, by rwa [hvalue]⟩
        · rw [hdrop, Base128.split_cons_last _ hlast]
        · rw [hvalue]
          rcases Nat.eq_zero_or_pos turns with rfl | hpos
          · obtain rfl : i = 9 := by omega
            have hone : byte.toNat % 128 ≤ 1 := by omega
            have := Nat.mul_le_mul_left (128 ^ 9) hone
            omega
          · have := Nat.pow_le_pow_right (n := 128) (by decide) (show i + 1 ≤ 9 by omega)
            omega
      · rw [Reader.and_80_eq_zero] at hlast
        obtain ⟨digits, hsplit, hend, hlength, hlt, htracks⟩ :=
          ih (by omega) hdigit hstep (factor_mul hfactor) h
        have hvalue : acc + 128 ^ i * Base128.value (byte :: digits)
            = acc + 128 ^ i * (byte.toNat % 128) + 128 ^ (i + 1) * Base128.value digits := by
          rw [Base128.value]
          ring
        refine ⟨byte :: digits, ?_, hend, Nat.succ_le_succ hlength, by rwa [hvalue],
          by rwa [hvalue]⟩
        rw [hdrop, Base128.split_cons_more _ hlast, hsplit]
        rfl

/-- A numeral that is short and small enough is read. -/
theorem varintLoop_complete {turns : Nat} (i acc : Nat) (hturns : i + turns = 10)
    {digits rest : List UInt8}
    (hsplit : Base128.split (input.bytes.drop position.toNat) = some (digits, rest))
    (hlength : digits.length ≤ turns) (hlt : acc + 128 ^ i * Base128.value digits < 2 ^ 64) :
    ∃ v position', varintLoop input turns value factor position = .ok (v, position') := by
  induction turns generalizing i acc value factor position digits with
  | zero => exact absurd (List.length_eq_zero_iff.mp (by omega)) (Base128.split_ne_nil hsplit)
  | succ turns ih =>
    cases hbyte : input.bytes[position.toNat]? with
    | none =>
      rw [List.drop_eq_nil_of_le (List.getElem?_eq_none_iff.mp hbyte)] at hsplit
      cases hsplit
    | some byte =>
      obtain ⟨hnext, hle, hdrop⟩ := drop_of_getElem hbyte
      simp only [varintLoop, hbyte, Reader.and_80_eq_zero]
      rw [hdrop] at hsplit
      by_cases hlast : byte.toNat < 128
      · rw [Base128.split_cons_last _ hlast] at hsplit
        obtain ⟨rfl, rfl⟩ := Prod.mk.inj (Option.some.inj hsplit)
        have hfits : ¬(turns = 0 ∧ 1 < byte.toNat) := by
          rintro ⟨rfl, hone⟩
          obtain rfl : i = 9 := by omega
          simp only [Base128.value] at hlt
          omega
        rw [if_neg hfits, if_pos hlast]
        exact ⟨_, _, rfl⟩
      · rw [Base128.split_cons_more _ hlast, Option.map_eq_some_iff] at hsplit
        obtain ⟨⟨g, r⟩, hsplit, hpair⟩ := hsplit
        obtain ⟨rfl, rfl⟩ := Prod.mk.inj hpair
        dsimp only [List.length_cons] at hlength hlt
        have hpos : 0 < g.length := List.length_pos_iff.mpr (Base128.split_ne_nil hsplit)
        rw [if_neg (by omega), if_neg hlast]
        rw [Base128.value] at hlt
        have hrest : acc + 128 ^ i * (byte.toNat % 128) + 128 ^ (i + 1) * Base128.value g < 2 ^ 64 :=
          calc acc + 128 ^ i * (byte.toNat % 128) + 128 ^ (i + 1) * Base128.value g
              = acc + 128 ^ i * (byte.toNat % 128 + 128 * Base128.value g) := by ring
            _ < 2 ^ 64 := hlt
        exact ih (i + 1) _ (by omega) hsplit (by omega) hrest

theorem varint_sound {v : Double} (h : varint input position = .ok (v, position')) :
    ∃ n, numeral 64 (input.bytes.drop position.toNat)
        = some (n, input.bytes.drop position'.toNat) ∧
      position'.toNat ≤ input.bytes.length ∧ Tracks v n := by
  have hzero : Tracks (0 : Double) 0 := Tracks.literal 0
  have hone : (1 : Double).toNat = 128 ^ 0 := Number.toNat_ofNat (representable_of_lt (by decide))
  obtain ⟨digits, hsplit, hend, hlength, hlt, htracks⟩ :=
    varintLoop_sound (i := 0) rfl hzero (by decide) hone h
  rw [Nat.pow_zero, Nat.one_mul, Nat.zero_add] at hlt htracks
  exact ⟨_, numeral_eq_some.mpr ⟨digits, hsplit, hlength, rfl, hlt⟩, hend, htracks⟩

theorem varint_complete {n : Nat} {rest : List UInt8}
    (h : numeral 64 (input.bytes.drop position.toNat) = some (n, rest)) :
    ∃ v position', varint input position = .ok (v, position') ∧ Tracks v n ∧
      position'.toNat ≤ input.bytes.length ∧ input.bytes.drop position'.toNat = rest := by
  obtain ⟨digits, hsplit, hlength, hvalue, hlt⟩ := numeral_eq_some.mp h
  obtain ⟨v, position', hok⟩ : ∃ v position', varint input position = .ok (v, position') :=
    varintLoop_complete 0 0 rfl hsplit hlength (by omega)
  obtain ⟨m, hnumeral, hend, htracks⟩ := varint_sound hok
  rw [h] at hnumeral
  obtain ⟨rfl, hrest⟩ := Prod.mk.inj (Option.some.inj hnumeral)
  exact ⟨v, position', hok, htracks, hend, hrest.symm⟩

/-! ## Fields -/

theorem safe_lt (input : Uint8Array) : input.bytes.length < 2 ^ 53 :=
  Nat.lt_of_le_of_lt input.safe (by decide)

/-- A position moved on, as far as the end goes. -/
theorem add_le_iff (position : Double) {step : Double} {n : Nat} (hstep : Tracks step n) :
    (position + step).toNat ≤ input.bytes.length ↔ position.toNat + n ≤ input.bytes.length :=
  ((Tracks.of_eq rfl).add hstep).le_iff (safe_lt input)

theorem add_eq {step : Double} {n : Nat} (hstep : Tracks step n)
    (hend : position.toNat + n ≤ input.bytes.length) :
    (position + step).toNat = position.toNat + n :=
  ((Tracks.of_eq rfl).add hstep).eq_of_le (safe_lt input) hend

variable {number wire : Nat}

theorem skipValue_sound (h : skipValue input wire position = .ok position')
    (hend : position'.toNat ≤ input.bytes.length) :
    skip wire (input.bytes.drop position.toNat) = some (input.bytes.drop position'.toNat) := by
  have hfixed : ∀ {step : Double} {n : Nat}, Tracks step n → position + step = position' →
      n ≤ (input.bytes.drop position.toNat).length ∧
        (input.bytes.drop position.toNat).drop n = input.bytes.drop position'.toNat := by
    rintro step n hstep rfl
    have hroom := (add_le_iff position hstep).mp hend
    rw [List.length_drop, List.drop_drop, add_eq hstep hroom]
    exact ⟨by omega, rfl⟩
  unfold skipValue at h
  split at h
  case h_1 =>
    obtain ⟨⟨v, p⟩, hvarint, hp⟩ := bind_eq_ok.mp h
    obtain rfl := Except.ok.inj hp
    obtain ⟨n, hnumeral, -, -⟩ := varint_sound hvarint
    simp only [skip, hnumeral, Option.map_some]
  case h_2 =>
    obtain ⟨hroom, hdrop⟩ := hfixed (Tracks.literal 8) (Except.ok.inj h)
    simp only [skip]
    rw [if_pos hroom, hdrop]
  case h_3 =>
    obtain ⟨⟨length, p⟩, hvarint, hp⟩ := bind_eq_ok.mp h
    obtain ⟨n, hnumeral, hle, htracks⟩ := varint_sound hvarint
    dsimp only at hp
    split_ifs at hp with hlong
    · cases hp
    · obtain rfl := Except.ok.inj hp
      rw [not_or, Nat.not_lt, Nat.not_lt, htracks.le_iff (by decide)] at hlong
      have hlength : length.toNat = n := htracks.eq_of_le (by decide) hlong.1
      have hroom : p.toNat + n ≤ input.bytes.length := by omega
      simp only [skip, hnumeral, Option.bind_some]
      rw [if_pos (by rw [List.length_drop]; omega), List.drop_drop, add_eq htracks hroom]
  case h_4 =>
    obtain ⟨hroom, hdrop⟩ := hfixed (Tracks.literal 4) (Except.ok.inj h)
    simp only [skip]
    rw [if_pos hroom, hdrop]
  case h_5 => cases h

theorem skipValue_complete {rest : List UInt8}
    (h : skip wire (input.bytes.drop position.toNat) = some rest) :
    ∃ position', skipValue input wire position = .ok position' ∧
      position'.toNat ≤ input.bytes.length := by
  unfold skip at h
  split at h
  case h_1 =>
    obtain ⟨⟨n, r⟩, hnumeral, -⟩ := Option.map_eq_some_iff.mp h
    obtain ⟨v, p, hvarint, -, hend, -⟩ := varint_complete hnumeral
    exact ⟨p, bind_eq_ok.mpr ⟨(v, p), hvarint, rfl⟩, hend⟩
  case h_2 =>
    split_ifs at h with hroom
    rw [List.length_drop] at hroom
    exact ⟨_, rfl, (add_le_iff position (Tracks.literal 8)).mpr (by omega)⟩
  case h_3 =>
    obtain ⟨⟨n, r⟩, hnumeral, hdrop⟩ := Option.bind_eq_some_iff.mp h
    obtain ⟨length, p, hvarint, htracks, hend, rfl⟩ := varint_complete hnumeral
    dsimp only at hdrop
    split_ifs at hdrop with hroom
    rw [List.length_drop] at hroom
    have hsafe := safe_lt input
    have hlength : length.toNat = n := htracks.exact (by omega)
    refine ⟨p + length, bind_eq_ok.mpr ⟨(length, p), hvarint, ?_⟩,
      (add_le_iff p htracks).mpr (by omega)⟩
    have hshort : ¬(maxSafeInteger < length.toNat ∨
        input.bytes.length - p.toNat < length.toNat) := by
      rw [hlength, maxSafeInteger]
      omega
    dsimp only
    rw [if_neg hshort]
    rfl
  case h_4 =>
    split_ifs at h with hroom
    rw [List.length_drop] at hroom
    exact ⟨_, rfl, (add_le_iff position (Tracks.literal 4)).mpr (by omega)⟩
  case h_5 => cases h

/-- How many messages a field is. -/
def messages (number : Nat) : Nat := if number = 1 then 1 else 0

theorem toNat_succ (hcount : count.toNat ≤ maxBatchMessages) :
    (count + 1).toNat = count.toNat + 1 := by
  rw [maxBatchMessages] at hcount
  exact ((Tracks.of_eq rfl).add (Tracks.literal 1)).exact (by omega)

theorem countMessage_sound (hcount : count.toNat ≤ maxBatchMessages)
    (h : countMessage number wire count = .ok count') :
    (number = 1 → wire = 2) ∧ count'.toNat = count.toNat + messages number ∧
      count'.toNat ≤ maxBatchMessages := by
  unfold countMessage at h
  split_ifs at h with hnumber hwire hroom
  · obtain rfl := Except.ok.inj h
    rw [Nat.not_lt] at hroom
    refine ⟨fun _ => not_not.mp hwire, ?_, hroom⟩
    rw [toNat_succ hcount, messages, if_pos hnumber]
  · obtain rfl := Except.ok.inj h
    refine ⟨fun hone => absurd hone hnumber, ?_, hcount⟩
    rw [messages, if_neg hnumber, Nat.add_zero]

theorem countMessage_complete (hwire : number = 1 → wire = 2)
    (hroom : count.toNat + messages number ≤ maxBatchMessages) :
    ∃ count', countMessage number wire count = .ok count' := by
  unfold countMessage
  by_cases hnumber : number = 1
  · rw [messages, if_pos hnumber] at hroom
    have hnext : (count + 1).toNat = count.toNat + 1 := toNat_succ (by omega)
    rw [if_pos hnumber, if_neg (not_not.mpr (hwire hnumber)), if_neg (by omega)]
    exact ⟨_, rfl⟩
  · rw [if_neg hnumber]
    exact ⟨_, rfl⟩

/-- A turn of the loop takes one field off. -/
theorem preflightField_sound
    (h : preflightField input position count = .ok (position', count')) :
    ∃ number wire, read (input.bytes.drop position.toNat)
        = some (number, wire, input.bytes.drop position'.toNat) ∧
      position'.toNat ≤ input.bytes.length ∧ countMessage number wire count = .ok count' := by
  obtain ⟨⟨tag, p⟩, hvarint, h⟩ := bind_eq_ok.mp h
  obtain ⟨k, hnumeral, hle, htracks⟩ := varint_sound hvarint
  dsimp only at h
  split_ifs at h with htag
  · cases h
  · rw [not_or, Nat.not_lt, Nat.not_lt, htracks.le_iff (by decide)] at htag
    have hk : tag.toNat = k := htracks.eq_of_le (by decide) htag.2
    rw [hk] at h htag
    obtain ⟨c, hc, h⟩ := bind_eq_ok.mp h
    obtain ⟨p', hp', h⟩ := bind_eq_ok.mp h
    split_ifs at h with hend
    · cases h
    · obtain ⟨rfl, rfl⟩ := Prod.mk.inj (Except.ok.inj h)
      rw [Nat.not_lt] at hend
      refine ⟨k / 8, k % 8, read_eq_some_iff.mpr ⟨input.bytes.drop p.toNat, ?_,
        skipValue_sound hp' hend⟩, hend, hc⟩
      refine key_eq_some.mpr ⟨k, ?_, htag.1, rfl, rfl⟩
      rw [numeral_32, hnumeral, Option.filter_some, if_pos (decide_eq_true (by omega))]

theorem preflightField_complete {rest : List UInt8}
    (hread : read (input.bytes.drop position.toNat) = some (number, wire, rest))
    (hwire : number = 1 → wire = 2) (hroom : count.toNat + messages number ≤ maxBatchMessages) :
    ∃ position' count', preflightField input position count = .ok (position', count') := by
  obtain ⟨body, hkey, hskip⟩ := read_eq_some_iff.mp hread
  obtain ⟨k, hnumeral, hk, rfl, rfl⟩ := key_eq_some.mp hkey
  rw [numeral_32, Option.filter_eq_some_iff] at hnumeral
  obtain ⟨hnumeral, hsmall⟩ := hnumeral
  have hsmall := of_decide_eq_true hsmall
  obtain ⟨tag, p, hvarint, htracks, -, rfl⟩ := varint_complete hnumeral
  have htag : tag.toNat = k := htracks.exact (by dsimp only at hsmall; omega)
  obtain ⟨c, hc⟩ := countMessage_complete hwire hroom
  obtain ⟨p', hp', hend⟩ := skipValue_complete hskip
  refine ⟨p', c, bind_eq_ok.mpr ⟨(tag, p), hvarint, ?_⟩⟩
  dsimp only at hsmall ⊢
  rw [if_neg (by omega), htag]
  exact bind_eq_ok.mpr ⟨c, hc, bind_eq_ok.mpr ⟨p', hp', by rw [if_neg (by omega)]; rfl⟩⟩

theorem preflightField_progress
    (h : preflightField input position count = .ok (position', count')) :
    position.toNat < position'.toNat ∧ position'.toNat ≤ input.bytes.length := by
  obtain ⟨number, wire, hread, hend, -⟩ := preflightField_sound h
  have hlength := read_length hread
  rw [List.length_drop, List.length_drop] at hlength
  exact ⟨by omega, hend⟩

end

/-! ## The loop -/

/-- The loop over the fields, which moves on at every turn. -/
def preflightLoop (input : Uint8Array) (position count : Double) : Except Thrown Unit :=
  if position.toNat < input.bytes.length then
    match _h : preflightField input position count with
    | .error thrown => .error thrown
    | .ok (position, count) => preflightLoop input position count
  else .ok ()
termination_by input.bytes.length - position.toNat
decreasing_by
  obtain ⟨hlt, hle⟩ := preflightField_progress _h
  omega

def preflightBatch (input : Uint8Array) : Except Thrown Unit := preflightLoop input 0 0

theorem preflightLoop_end {input : Uint8Array} {position count : Double}
    (h : input.bytes.length ≤ position.toNat) : preflightLoop input position count = .ok () := by
  rw [preflightLoop, if_neg (by omega)]

theorem preflightLoop_next {input : Uint8Array} {position count position' count' : Double}
    (hlt : position.toNat < input.bytes.length)
    (h : preflightField input position count = .ok (position', count')) :
    preflightLoop input position count = preflightLoop input position' count' := by
  rw [preflightLoop, if_pos hlt]
  split
  case h_1 heq => rw [h] at heq; cases heq
  case h_2 heq =>
    rw [h] at heq
    obtain ⟨rfl, rfl⟩ := Prod.mk.inj (Except.ok.inj heq)
    rfl

/-! ## The grammar of a batch -/

/-- A field of a batch, with its bytes; field 1 is a message. -/
structure BatchField where
  number : Nat
  wire : Nat
  bytes : List UInt8
  wellFormed : Field number wire bytes
  delimited : number = 1 → wire = 2

/-- Fields one after the other, and not too many messages. -/
def WellFormedBatch (bytes : List UInt8) : Prop :=
  ∃ fields : List BatchField, bytes = fields.flatMap BatchField.bytes ∧
    fields.countP (·.number = 1) ≤ maxBatchMessages

theorem countP_cons_messages (field : BatchField) (fields : List BatchField) :
    (field :: fields).countP (·.number = 1)
      = messages field.number + fields.countP (·.number = 1) := by
  rw [List.countP_cons, messages, Nat.add_comm]
  simp only [decide_eq_true_eq]

section

variable {input : Uint8Array} {position count : Double}

/-- What the loop accepts from a position on. -/
theorem fields_of_preflightLoop (hcount : count.toNat ≤ maxBatchMessages)
    (h : preflightLoop input position count = .ok ()) :
    ∃ fields : List BatchField, input.bytes.drop position.toNat = fields.flatMap BatchField.bytes ∧
      count.toNat + fields.countP (·.number = 1) ≤ maxBatchMessages := by
  induction position, count using preflightLoop.induct input with
  | case1 position count hlt thrown hfield =>
    rw [preflightLoop, if_pos hlt] at h
    split at h
    case h_1 => cases h
    case h_2 heq => rw [hfield] at heq; cases heq
  | case2 position count hlt position' count' hfield ih =>
    rw [preflightLoop_next hlt hfield] at h
    obtain ⟨number, wire, hread, -, hmessage⟩ := preflightField_sound hfield
    obtain ⟨hwire, hnext, hroom⟩ := countMessage_sound hcount hmessage
    obtain ⟨bytes, hbytes, hwellFormed⟩ := read_eq_some.mp hread
    obtain ⟨fields, hfields, htotal⟩ := ih hroom h
    refine ⟨⟨number, wire, bytes, hwellFormed, hwire⟩ :: fields, ?_, ?_⟩
    · rw [hbytes, hfields, List.flatMap_cons]
    · rw [countP_cons_messages, ← Nat.add_assoc, ← hnext]
      exact htotal
  | case3 position count hend =>
    refine ⟨[], List.drop_eq_nil_of_le (by omega), ?_⟩
    rwa [List.countP_nil, Nat.add_zero]

theorem preflightLoop_of_fields {fields : List BatchField}
    (hfields : input.bytes.drop position.toNat = fields.flatMap BatchField.bytes)
    (hcount : count.toNat + fields.countP (·.number = 1) ≤ maxBatchMessages) :
    preflightLoop input position count = .ok () := by
  induction fields generalizing position count with
  | nil => exact preflightLoop_end (List.drop_eq_nil_iff.mp hfields)
  | cons field fields ih =>
    rw [List.flatMap_cons] at hfields
    rw [countP_cons_messages, ← Nat.add_assoc] at hcount
    have hread := read_eq_some.mpr ⟨field.bytes, hfields, field.wellFormed⟩
    obtain ⟨position', count', hfield⟩ :
        ∃ position' count', preflightField input position count = .ok (position', count') :=
      preflightField_complete hread field.delimited (by omega)
    obtain ⟨number, wire, hread', -, hmessage⟩ := preflightField_sound hfield
    rw [hread, Option.some.injEq, Prod.mk.injEq, Prod.mk.injEq] at hread'
    obtain ⟨rfl, rfl, hrest⟩ := hread'
    obtain ⟨-, hnext, -⟩ := countMessage_sound (by omega) hmessage
    have hlt : position.toNat < input.bytes.length := by
      have hprogress := preflightField_progress hfield
      omega
    rw [preflightLoop_next hlt hfield]
    exact ih hrest.symm (by omega)

end

/-- The scan comes to an end on every input, and accepts exactly the
batches. -/
theorem preflightBatch_accepts_iff (input : Uint8Array) :
    preflightBatch input = .ok () ↔ WellFormedBatch input.bytes := by
  have hzero : (0 : Double).toNat = 0 := Number.toNat_ofNat (representable_of_lt (by decide))
  constructor
  · intro h
    obtain ⟨fields, hfields, htotal⟩ := fields_of_preflightLoop (by rw [hzero]; decide) h
    rw [hzero, List.drop_zero] at hfields
    rw [hzero, Nat.zero_add] at htotal
    exact ⟨fields, hfields, htotal⟩
  · rintro ⟨fields, hfields, htotal⟩
    have hall : input.bytes.drop (0 : Double).toNat = fields.flatMap BatchField.bytes := by
      rwa [hzero, List.drop_zero]
    exact preflightLoop_of_fields hall (by rwa [hzero, Nat.zero_add])

end TiktokSigner.NodeClient
