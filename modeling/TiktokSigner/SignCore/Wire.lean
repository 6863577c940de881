import TiktokSigner.Lib.Base128

/-!
# The protobuf wire codec of `ttl-sign-core`

`Reader` and `Writer` of `proto.rs`. A reader is its unread bytes
(`buf[pos..]`): every read returns the value and what is left. `usize` is
64 bits wide.

`Reader.items` is what the callers' `while let Some(field) =
reader.next_field()` loops iterate over: the fields up to the end of the
buffer, or up to and including the first error. No caller reads past an
error, so the list stops there.

The reader is specified against base-128 numerals (`Reader.varint_eq_ok_iff`):
it accepts every numeral of at most ten bytes and keeps its value modulo
`2 ^ 64`.
-/

namespace TiktokSigner

abbrev Bytes := List UInt8

/-! ## Strings as bytes -/

/-- `str::as_bytes`. -/
def asBytes (s : String) : Bytes := s.toByteArray.data.toList

/-- `std::str::from_utf8(bytes).ok()`. -/
def fromUtf8 (bytes : Bytes) : Option String :=
  String.fromUTF8? ⟨bytes.toArray⟩

@[simp] theorem fromUtf8_asBytes (s : String) : fromUtf8 (asBytes s) = some s := by
  have h : (⟨s.toByteArray.data.toList.toArray⟩ : ByteArray) = s.toByteArray := by
    rw [Array.toArray_toList]
  rw [fromUtf8, asBytes, h]
  simp [String.fromUTF8?, s.isValidUTF8, String.fromUTF8]

theorem asBytes_of_fromUtf8 {b : Bytes} {s : String} (h : fromUtf8 b = some s) : asBytes s = b := by
  rw [fromUtf8, String.fromUTF8?] at h
  split at h
  case isTrue hvalid =>
    obtain rfl := Option.some.inj h
    simp [asBytes, String.fromUTF8]
  case isFalse => cases h

@[simp] theorem asBytes_empty : asBytes "" = [] := rfl

theorem asBytes_eq_nil {s : String} : asBytes s = [] ↔ s = "" := by
  constructor
  · intro h
    have hs := fromUtf8_asBytes s
    rw [h] at hs
    exact (Option.some.inj ((fromUtf8_asBytes "").symm.trans hs)).symm
  · rintro rfl
    rfl

/-! ## Errors and values -/

inductive ProtoError where
  /-- The buffer ended halfway through a field. -/
  | truncated
  /-- Varint longer than 10 bytes. -/
  | varintOverflow
  /-- Wire type unknown to this decoder (3 and 4 are obsolete groups). -/
  | unsupportedWireType (wire : UInt8)
deriving Repr, DecidableEq

def ProtoError.display : ProtoError → String
  | .truncated => "truncated buffer"
  | .varintOverflow => "varint is too long"
  | .unsupportedWireType w => s!"unsupported wire type: {w}"

/-- Field value as represented on the wire. -/
inductive WireValue where
  | varint (v : UInt64)
  | fixed64 (v : UInt64)
  | fixed32 (v : UInt32)
  | bytes (b : Bytes)
deriving Repr, DecidableEq

namespace WireValue

def asBytes : WireValue → Option Bytes
  | .bytes b => some b
  | _ => none

def asStr (wire : WireValue) : Option String :=
  wire.asBytes.bind fromUtf8

def asU64 : WireValue → Option UInt64
  | .varint v => some v
  | .fixed64 v => some v
  | .fixed32 v => some v.toUInt64
  | .bytes _ => none

/-- The wire type of the tag before such a value. -/
def wireType : WireValue → UInt8
  | .varint _ => 0
  | .fixed64 _ => 1
  | .bytes _ => 2
  | .fixed32 _ => 5

end WireValue

/-- A field number with its value. -/
abbrev WireField := UInt32 × WireValue

/-- A little-endian natural number. -/
def fromLe : Bytes → Nat
  | [] => 0
  | b :: bs => b.toNat + 256 * fromLe bs

/-! ## The reader -/

namespace Reader

def varintLoop : Bytes → UInt64 → Nat → Except ProtoError (UInt64 × Bytes)
  | [], _, _ => .error .truncated
  | byte :: buf, value, shift =>
      if shift ≥ 64 then .error .varintOverflow
      else
        let value := value ||| ((byte &&& 0x7f).toUInt64 <<< UInt64.ofNat shift)
        if byte &&& 0x80 = 0 then .ok (value, buf)
        else varintLoop buf value (shift + 7)

def varint (buf : Bytes) : Except ProtoError (UInt64 × Bytes) :=
  varintLoop buf 0 0

/-- `checked_add` and the slice bound fail alike: both are `Truncated`. -/
def take (n : Nat) (buf : Bytes) : Except ProtoError (Bytes × Bytes) :=
  if n ≤ buf.length then .ok (buf.take n, buf.drop n) else .error .truncated

/-- The `match wire_type` of `read_field`. -/
def value (wireType : UInt8) (buf : Bytes) : Except ProtoError (WireValue × Bytes) :=
  match wireType.toNat with
  | 0 => do
      let (v, buf) ← varint buf
      pure (.varint v, buf)
  | 1 => do
      let (b, buf) ← take 8 buf
      pure (.fixed64 (UInt64.ofNat (fromLe b)), buf)
  | 2 => do
      let (len, buf) ← varint buf
      let (b, buf) ← take len.toNat buf
      pure (.bytes b, buf)
  | 5 => do
      let (b, buf) ← take 4 buf
      pure (.fixed32 (UInt32.ofNat (fromLe b)), buf)
  | _ => .error (.unsupportedWireType wireType)

/-- The field number is the tag shifted and cut to 32 bits. -/
def readField (buf : Bytes) : Except ProtoError (WireField × Bytes) := do
  let (tag, buf) ← varint buf
  let field := (tag >>> 3).toUInt32
  let wireType := (tag &&& 0x7).toUInt8
  let (v, buf) ← value wireType buf
  pure ((field, v), buf)

/-- Next field, or `none` at the end of the message. -/
def nextField (buf : Bytes) : Option (Except ProtoError (WireField × Bytes)) :=
  if buf = [] then none else some (readField buf)

end Reader

theorem bind_eq_ok {ε α β : Type} {x : Except ε α} {f : α → Except ε β} {b : β} :
    (x >>= f) = .ok b ↔ ∃ a, x = .ok a ∧ f a = .ok b := by
  cases x <;> simp [bind, Except.bind]

namespace Reader

/-! ## Digits in machine words -/

theorem toNat_and_7f (b : UInt8) : (b &&& 0x7f).toNat = b.toNat % 128 := by
  rw [UInt8.toNat_and]
  exact Nat.and_two_pow_sub_one_eq_mod b.toNat 7

theorem and_80_eq_zero (b : UInt8) : b &&& 0x80 = 0 ↔ b.toNat < 128 := by
  have h : ∀ x : Fin 256, x.val &&& 128 = 0 ↔ x.val < 128 := by decide +kernel
  rw [← UInt8.toNat_inj, UInt8.toNat_and]
  exact h ⟨b.toNat, b.toNat_lt⟩

/-- A digit shifted into a 64-bit word. -/
theorem toNat_shifted_digit (b : UInt8) {k : Nat} (hk : k < 10) :
    ((b &&& 0x7f).toUInt64 <<< UInt64.ofNat (7 * k)).toNat
      = b.toNat % 128 * 2 ^ (7 * k) % 2 ^ 64 := by
  rw [UInt64.toNat_shiftLeft, UInt8.toNat_toUInt64, toNat_and_7f, UInt64.toNat_ofNat',
    Nat.mod_eq_of_lt (show 7 * k < 2 ^ 64 by omega), Nat.mod_eq_of_lt (show 7 * k < 64 by omega),
    Nat.shiftLeft_eq]

/-- The shifted digit is a multiple of its weight also after the word cut
it, so `or`-ing it in is an addition. -/
theorem toNat_or_digit (acc : UInt64) (b : UInt8) {k : Nat} (hk : k < 10)
    (hacc : acc.toNat < 2 ^ (7 * k)) :
    (acc ||| ((b &&& 0x7f).toUInt64 <<< UInt64.ofNat (7 * k))).toNat
      = acc.toNat + 2 ^ (7 * k) * (b.toNat % 128 % 2 ^ (64 - 7 * k)) := by
  have hcut : b.toNat % 128 * 2 ^ (7 * k) % 2 ^ 64
      = b.toNat % 128 % 2 ^ (64 - 7 * k) * 2 ^ (7 * k) := by
    rw [← Nat.mul_mod_mul_right (2 ^ (7 * k)) (b.toNat % 128), ← Nat.pow_add,
      show 64 - 7 * k + 7 * k = 64 by omega]
  rw [UInt64.toNat_or, toNat_shifted_digit b hk, hcut, Base128.or_digit hacc]

/-- Cutting a digit to the bits left in the word changes the sum by a
multiple of `2 ^ 64`. -/
theorem cut_digit_mod {k : Nat} (hk : k < 10) (acc d x : Nat) :
    (acc + 2 ^ (7 * k) * (d % 2 ^ (64 - 7 * k)) + x) % 2 ^ 64
      = (acc + 2 ^ (7 * k) * d + x) % 2 ^ 64 := by
  have hword : 2 ^ (7 * k) * 2 ^ (64 - 7 * k) = 2 ^ 64 := by
    rw [← Nat.pow_add, show 7 * k + (64 - 7 * k) = 64 by omega]
  have hd : 2 ^ (7 * k) * d
      = 2 ^ (7 * k) * (d % 2 ^ (64 - 7 * k)) + 2 ^ 64 * (d / 2 ^ (64 - 7 * k)) := by
    rw [← hword, Nat.mul_assoc, ← Nat.mul_add, Nat.mod_add_div]
  rw [hd, show ∀ a b c e : Nat, a + (b + c) + e = a + b + e + c by omega,
    Nat.add_mul_mod_self_left]

/-! ## What the reader accepts -/

/-- The loop after `k` digits: it accepts the numerals of at most `10 - k`
more bytes. The induction is on the unread bytes; the accumulator holds
the digits read so far and stays below the next digit's weight. -/
theorem varintLoop_eq_ok_iff : ∀ (buf : Bytes) {acc : UInt64} {k : Nat} {v : UInt64}
    {rest : Bytes}, k ≤ 10 → acc.toNat < 2 ^ (7 * k) →
    (varintLoop buf acc (7 * k) = .ok (v, rest) ↔
      ∃ g, Base128.split buf = some (g, rest) ∧ g.length + k ≤ 10 ∧
        v.toNat = (acc.toNat + 2 ^ (7 * k) * Base128.value g) % 2 ^ 64)
  | [], _, _, _, _, _, _ => by simp [varintLoop, Base128.split]
  | b :: buf, acc, k, v, rest, hk, hacc => by
      rcases Nat.lt_or_ge k 10 with hk' | hk'
      · have hor := toNat_or_digit acc b hk' hacc
        rw [varintLoop, if_neg (by omega)]
        by_cases hb : b.toNat < 128
        · rw [if_pos ((and_80_eq_zero b).mpr hb), Base128.split_cons_last buf hb]
          have hmod := cut_digit_mod hk' acc.toNat (b.toNat % 128) 0
          rw [Nat.add_zero, Nat.add_zero, ← hor, Nat.mod_eq_of_lt (UInt64.toNat_lt _)] at hmod
          constructor
          · intro h
            simp only [Except.ok.injEq, Prod.mk.injEq] at h
            obtain ⟨rfl, rfl⟩ := h
            exact ⟨[b], rfl, by simp; omega, by simpa [Base128.value] using hmod⟩
          · rintro ⟨g, hg, -, hv⟩
            simp only [Option.some.injEq, Prod.mk.injEq] at hg
            obtain ⟨rfl, rfl⟩ := hg
            have hval : Base128.value [b] = b.toNat % 128 := by simp [Base128.value]
            rw [hval, ← hmod] at hv
            rw [UInt64.toNat_inj.mp hv]
        · have hacc' : (acc ||| ((b &&& 0x7f).toUInt64 <<< UInt64.ofNat (7 * k))).toNat
              < 2 ^ (7 * (k + 1)) := by
            have hd : b.toNat % 128 % 2 ^ (64 - 7 * k) ≤ 127 := by
              have := Nat.mod_le (b.toNat % 128) (2 ^ (64 - 7 * k))
              omega
            have := Nat.mul_le_mul_left (2 ^ (7 * k)) hd
            rw [hor, show 7 * (k + 1) = 7 * k + 7 by omega, Nat.pow_add]
            omega
          rw [if_neg fun h => hb ((and_80_eq_zero b).mp h),
            show 7 * k + 7 = 7 * (k + 1) by omega,
            varintLoop_eq_ok_iff buf (by omega) hacc', Base128.split_cons_more buf hb, hor]
          have hshift : ∀ g, (acc.toNat + 2 ^ (7 * k) * (b.toNat % 128 % 2 ^ (64 - 7 * k))
              + 2 ^ (7 * (k + 1)) * Base128.value g) % 2 ^ 64
              = (acc.toNat + 2 ^ (7 * k) * Base128.value (b :: g)) % 2 ^ 64 := fun g => by
            rw [cut_digit_mod hk', Base128.value_cons_shift,
              show 7 * (k + 1) = 7 * k + 7 by omega]
          constructor
          · rintro ⟨g, hg, hlen, hv⟩
            exact ⟨b :: g, by simp [hg], by simp; omega, by rw [hv, hshift]⟩
          · rintro ⟨g, hg, hlen, hv⟩
            rw [Option.map_eq_some_iff] at hg
            obtain ⟨⟨g', r'⟩, hg', heq⟩ := hg
            obtain ⟨rfl, rfl⟩ := Prod.mk.injEq .. |>.mp heq
            exact ⟨g', hg', by simp at hlen; omega, by rw [hv, hshift]⟩
      · obtain rfl : k = 10 := by omega
        rw [varintLoop, if_pos (by decide)]
        constructor
        · intro h
          cases h
        · rintro ⟨g, hg, hlen, -⟩
          have := List.length_pos_iff.mpr (Base128.split_ne_nil hg)
          omega

/-- The reader accepts every numeral of at most ten bytes and drops the
bits that do not fit 64. -/
theorem varint_eq_ok_iff {buf rest : Bytes} {v : UInt64} :
    varint buf = .ok (v, rest) ↔
      ∃ g, Base128.split buf = some (g, rest) ∧ g.length ≤ 10 ∧
        v.toNat = Base128.value g % 2 ^ 64 := by
  have h : varintLoop buf 0 (7 * 0) = .ok (v, rest) ↔ _ :=
    varintLoop_eq_ok_iff buf (by decide) (by decide)
  simpa [varint] using h

theorem varint_length {buf rest : Bytes} {v : UInt64}
    (h : varint buf = .ok (v, rest)) : rest.length < buf.length := by
  obtain ⟨g, hg, -, -⟩ := varint_eq_ok_iff.mp h
  have := List.length_pos_iff.mpr (Base128.split_ne_nil hg)
  rw [Base128.split_append hg, List.length_append]
  omega

theorem take_eq_ok_iff {n : Nat} {buf b rest : Bytes} :
    take n buf = .ok (b, rest) ↔ buf = b ++ rest ∧ b.length = n := by
  rw [take]
  constructor
  · intro h
    split at h
    · rename_i hn
      simp only [Except.ok.injEq, Prod.mk.injEq] at h
      obtain ⟨rfl, rfl⟩ := h
      exact ⟨(List.take_append_drop n buf).symm, by simp [hn]⟩
    · cases h
  · rintro ⟨rfl, rfl⟩
    simp

theorem value_length {wireType : UInt8} {buf rest : Bytes} {v : WireValue}
    (h : value wireType buf = .ok (v, rest)) : rest.length ≤ buf.length := by
  rw [value] at h
  split at h
  · obtain ⟨⟨n, r⟩, hn, hv⟩ := bind_eq_ok.mp h
    obtain ⟨-, rfl⟩ := Prod.mk.injEq .. |>.mp (Except.ok.inj hv)
    exact Nat.le_of_lt (varint_length hn)
  · obtain ⟨⟨b, r⟩, hb, hv⟩ := bind_eq_ok.mp h
    obtain ⟨-, rfl⟩ := Prod.mk.injEq .. |>.mp (Except.ok.inj hv)
    simp [(take_eq_ok_iff.mp hb).1]
  · obtain ⟨⟨n, r⟩, hn, h'⟩ := bind_eq_ok.mp h
    obtain ⟨⟨b, r'⟩, hb, hv⟩ := bind_eq_ok.mp h'
    obtain ⟨-, rfl⟩ := Prod.mk.injEq .. |>.mp (Except.ok.inj hv)
    have hlen := varint_length hn
    rw [(take_eq_ok_iff.mp hb).1, List.length_append] at hlen
    omega
  · obtain ⟨⟨b, r⟩, hb, hv⟩ := bind_eq_ok.mp h
    obtain ⟨-, rfl⟩ := Prod.mk.injEq .. |>.mp (Except.ok.inj hv)
    simp [(take_eq_ok_iff.mp hb).1]
  · cases h

/-- Every field takes at least one byte, so the callers' loops end. -/
theorem readField_length {buf rest : Bytes} {f : WireField}
    (h : readField buf = .ok (f, rest)) : rest.length < buf.length := by
  obtain ⟨⟨tag, r⟩, htag, h'⟩ := bind_eq_ok.mp h
  obtain ⟨⟨v, r'⟩, hv, hf⟩ := bind_eq_ok.mp h'
  obtain ⟨-, rfl⟩ := Prod.mk.injEq .. |>.mp (Except.ok.inj hf)
  exact Nat.lt_of_le_of_lt (value_length hv) (varint_length htag)

/-! ## The field loop -/

theorem nextField_eq_some {buf : Bytes} {field : Except ProtoError (WireField × Bytes)} :
    nextField buf = some field ↔ buf ≠ [] ∧ readField buf = field := by
  rw [nextField]
  split <;> simp_all

theorem nextField_eq_none {buf : Bytes} : nextField buf = none ↔ buf = [] := by
  simp [nextField]

theorem nextField_eq_ok {buf rest : Bytes} {f : WireField}
    (h : nextField buf = some (.ok (f, rest))) : readField buf = .ok (f, rest) :=
  (nextField_eq_some.mp h).2

/-- What a `while let Some(field) = reader.next_field()` loop sees. -/
def items (buf : Bytes) : List (Except ProtoError WireField) :=
  match _h : nextField buf with
  | none => []
  | some (.error e) => [.error e]
  | some (.ok (f, rest)) => .ok f :: items rest
termination_by buf.length
decreasing_by exact readField_length (nextField_eq_ok ‹_›)

@[simp] theorem items_nil : items [] = [] := by
  rw [items]
  rfl

theorem items_ok {buf rest : Bytes} {f : WireField}
    (h : readField buf = .ok (f, rest)) : items buf = .ok f :: items rest := by
  have hne : buf ≠ [] := by
    rintro rfl
    cases h
  have hnext := nextField_eq_some.mpr ⟨hne, h⟩
  rw [items]
  split <;> simp_all

theorem items_error {buf : Bytes} {e : ProtoError} (hne : buf ≠ [])
    (h : readField buf = .error e) : items buf = [.error e] := by
  have hnext := nextField_eq_some.mpr ⟨hne, h⟩
  rw [items]
  split <;> simp_all

end Reader

/-! ## The writer -/

structure Writer where
  buf : Bytes := []

/-- Fields of a `map<string, string>` entry. -/
def mapEntryKey : UInt32 := 1
def mapEntryValue : UInt32 := 2

namespace Writer

def new : Writer := {}

def varint (w : Writer) (value : UInt64) : Writer :=
  let byte := (value &&& 0x7f).toUInt8
  if value >>> 7 = 0 then { buf := w.buf ++ [byte] }
  else varint { buf := w.buf ++ [byte ||| 0x80] } (value >>> 7)
termination_by value.toNat
decreasing_by
  rename_i h
  have hne : (value >>> 7).toNat ≠ 0 := fun h0 => h (UInt64.toNat_inj.mp h0)
  rw [UInt64.toNat_shiftRight, Nat.shiftRight_eq_div_pow] at hne ⊢
  simp only [UInt64.reduceToNat, Nat.reduceMod] at hne ⊢
  omega

def tag (w : Writer) (field : UInt32) (wireType : UInt8) : Writer :=
  w.varint ((field.toUInt64 <<< 3) ||| wireType.toUInt64)

/-- Varint field. Omitted when zero, as proto3 does. -/
def u64Field (w : Writer) (field : UInt32) (value : UInt64) : Writer :=
  if value ≠ 0 then (w.tag field 0).varint value else w

def boolField (w : Writer) (field : UInt32) (value : Bool) : Writer :=
  w.u64Field field value.toUInt64

/-- `bytes`/`string`/submessage field. Omitted when empty. -/
def bytesField (w : Writer) (field : UInt32) (value : Bytes) : Writer :=
  if value ≠ [] then
    { buf := ((w.tag field 2).varint (UInt64.ofNat value.length)).buf ++ value }
  else w

def strField (w : Writer) (field : UInt32) (value : String) : Writer :=
  w.bytesField field (asBytes value)

def finish (w : Writer) : Bytes := w.buf

/-- `map<string, string>` entry. -/
def mapEntry (w : Writer) (field : UInt32) (key value : String) : Writer :=
  let entry := (new.strField mapEntryKey key).strField mapEntryValue value
  w.bytesField field entry.finish

/-! ## What the writer writes -/

theorem toNat_low7 (v : UInt64) : ((v &&& 0x7f).toUInt8).toNat = v.toNat % 128 := by
  have h : v.toNat &&& (0x7f : UInt64).toNat = v.toNat % 128 :=
    Nat.and_two_pow_sub_one_eq_mod v.toNat 7
  rw [UInt64.toNat_toUInt8, UInt64.toNat_and, h]
  omega

theorem toNat_shr7 (v : UInt64) : (v >>> 7).toNat = v.toNat / 128 := by
  rw [UInt64.toNat_shiftRight, Nat.shiftRight_eq_div_pow]
  rfl

theorem toNat_or_80 {b : UInt8} (h : b.toNat < 128) : (b ||| 0x80).toNat = b.toNat + 128 := by
  have hor := Base128.or_digit (s := 7) h 1
  rw [UInt8.toNat_or]
  simpa using hor

theorem varint_buf (w : Writer) (v : UInt64) :
    (w.varint v).buf = w.buf ++ Base128.encode v.toNat := by
  induction hn : v.toNat using Nat.strongRecOn generalizing w v with
  | ind n ih =>
      subst hn
      rw [varint]
      by_cases hv : v.toNat < 128
      · have h0 : v >>> 7 = 0 := by
          rw [← UInt64.toNat_inj, toNat_shr7, Nat.div_eq_of_lt hv]
          rfl
        have hbyte : (v &&& 0x7f).toUInt8 = UInt8.ofNat v.toNat := by
          rw [← UInt8.toNat_inj, toNat_low7, UInt8.toNat_ofNat']
          omega
        rw [if_pos h0, Base128.encode_of_lt hv, hbyte]
      · have h0 : v >>> 7 ≠ 0 := fun h => by
          have := toNat_shr7 v
          rw [h, UInt64.toNat_zero] at this
          omega
        have hbyte : (v &&& 0x7f).toUInt8 ||| 0x80 = UInt8.ofNat (v.toNat % 128 + 128) := by
          rw [← UInt8.toNat_inj, toNat_or_80 (by rw [toNat_low7]; omega), toNat_low7,
            UInt8.toNat_ofNat']
          omega
        rw [if_neg h0, ih (v >>> 7).toNat (by rw [toNat_shr7]; omega) _ (v >>> 7) rfl,
          Base128.encode_of_ge hv, hbyte, toNat_shr7, List.append_assoc]
        rfl

theorem toNat_tag {field : UInt32} {wireType : UInt8} (hw : wireType.toNat < 8) :
    ((field.toUInt64 <<< 3) ||| wireType.toUInt64).toNat
      = wireType.toNat + 8 * field.toNat := by
  have hf := field.toNat_lt
  have hshift : (field.toUInt64 <<< 3).toNat = field.toNat * 2 ^ 3 := by
    rw [UInt64.toNat_shiftLeft, UInt32.toNat_toUInt64, Nat.shiftLeft_eq]
    simp only [UInt64.reduceToNat, Nat.reduceMod]
    omega
  rw [UInt64.toNat_or, hshift, UInt8.toNat_toUInt64, Nat.or_comm,
    Base128.or_digit (s := 3) (by simpa using hw)]
  rfl

end Writer

/-! ## The canonical bytes of a field list -/

/-- The bytes of a varint or length-delimited field; the writer has no
other kind. The length is written as a `u64`. -/
def fieldBytes : WireField → Bytes
  | (n, .varint v) => Base128.encode (8 * n.toNat) ++ Base128.encode v.toNat
  | (n, .bytes b) =>
      Base128.encode (2 + 8 * n.toNat) ++ (Base128.encode (b.length % 2 ^ 64) ++ b)
  | _ => []

def wireBytes (fs : List WireField) : Bytes := fs.flatMap fieldBytes

/-- A field the writer can have written. -/
def Written : WireField → Prop
  | (_, .varint _) => True
  | (_, .bytes b) => b.length < 2 ^ 64
  | _ => False

/-- The fields one writer call appends: none for a default value. -/
def u64Item (field : UInt32) (value : UInt64) : List WireField :=
  if value ≠ 0 then [(field, .varint value)] else []

def bytesItem (field : UInt32) (value : Bytes) : List WireField :=
  if value ≠ [] then [(field, .bytes value)] else []

def mapItem (field : UInt32) (entry : String × String) : List WireField :=
  bytesItem field
    (wireBytes (bytesItem mapEntryKey (asBytes entry.1)
      ++ bytesItem mapEntryValue (asBytes entry.2)))

@[simp] theorem wireBytes_nil : wireBytes [] = [] := rfl

@[simp] theorem wireBytes_append (fs gs : List WireField) :
    wireBytes (fs ++ gs) = wireBytes fs ++ wireBytes gs :=
  List.flatMap_append

namespace Writer

@[simp] theorem new_buf : new.buf = [] := rfl

@[simp] theorem u64Field_buf (w : Writer) (field : UInt32) (value : UInt64) :
    (w.u64Field field value).buf = w.buf ++ wireBytes (u64Item field value) := by
  rw [u64Field, u64Item]
  split
  · rw [varint_buf, tag, varint_buf, toNat_tag (by decide)]
    simp [wireBytes, fieldBytes]
  · simp

@[simp] theorem boolField_buf (w : Writer) (field : UInt32) (value : Bool) :
    (w.boolField field value).buf = w.buf ++ wireBytes (u64Item field value.toUInt64) :=
  u64Field_buf w field value.toUInt64

@[simp] theorem bytesField_buf (w : Writer) (field : UInt32) (value : Bytes) :
    (w.bytesField field value).buf = w.buf ++ wireBytes (bytesItem field value) := by
  rw [bytesField, bytesItem]
  split
  · rw [varint_buf, tag, varint_buf, toNat_tag (by decide), UInt64.toNat_ofNat']
    simp [wireBytes, fieldBytes]
  · simp

@[simp] theorem strField_buf (w : Writer) (field : UInt32) (value : String) :
    (w.strField field value).buf = w.buf ++ wireBytes (bytesItem field (asBytes value)) :=
  bytesField_buf w field (asBytes value)

@[simp] theorem mapEntry_buf (w : Writer) (field : UInt32) (key value : String) :
    (w.mapEntry field key value).buf = w.buf ++ wireBytes (mapItem field (key, value)) := by
  rw [mapEntry, bytesField_buf, mapItem, finish]
  simp

theorem foldl_mapEntry_buf (field : UInt32) : ∀ (entries : List (String × String)) (w : Writer),
    (entries.foldl (fun w e => w.mapEntry field e.1 e.2) w).buf
      = w.buf ++ wireBytes (entries.flatMap (mapItem field))
  | [], w => by simp
  | e :: es, w => by
      rw [List.foldl_cons, foldl_mapEntry_buf field es, mapEntry_buf, List.flatMap_cons,
        wireBytes_append, List.append_assoc]

end Writer

/-! ## Reading what was written -/

namespace Reader

theorem varint_encode {n : Nat} (hn : n < 2 ^ 64) (rest : Bytes) :
    varint (Base128.encode n ++ rest) = .ok (UInt64.ofNat n, rest) := by
  refine varint_eq_ok_iff.mpr ⟨Base128.encode n, Base128.split_encode n rest, ?_, ?_⟩
  · exact Base128.encode_length_le 9 (by omega)
  · rw [UInt64.toNat_ofNat', Base128.value_encode]

theorem take_append (b rest : Bytes) : take b.length (b ++ rest) = .ok (b, rest) :=
  take_eq_ok_iff.mpr ⟨rfl, rfl⟩

theorem tag_number {w : Nat} (hw : w < 8) (n : UInt32) :
    (UInt64.ofNat (w + 8 * n.toNat) >>> 3).toUInt32 = n := by
  have hn := n.toNat_lt
  rw [← UInt32.toNat_inj, UInt64.toNat_toUInt32, UInt64.toNat_shiftRight, UInt64.toNat_ofNat',
    Nat.shiftRight_eq_div_pow]
  simp only [UInt64.reduceToNat, Nat.reduceMod]
  omega

theorem tag_wire {w : Nat} (hw : w < 8) (n : UInt32) :
    ((UInt64.ofNat (w + 8 * n.toNat) &&& 0x7).toUInt8).toNat = w := by
  have hn := n.toNat_lt
  have h : (UInt64.ofNat (w + 8 * n.toNat)).toNat &&& (0x7 : UInt64).toNat
      = (UInt64.ofNat (w + 8 * n.toNat)).toNat % 8 := Nat.and_two_pow_sub_one_eq_mod _ 3
  rw [UInt64.toNat_toUInt8, UInt64.toNat_and, h, UInt64.toNat_ofNat']
  omega

theorem value_varint {w : UInt8} (hw : w.toNat = 0) (v : UInt64) (rest : Bytes) :
    value w (Base128.encode v.toNat ++ rest) = .ok (.varint v, rest) := by
  rw [value, hw]
  simp only [varint_encode v.toNat_lt, UInt64.ofNat_toNat]
  rfl

theorem value_bytes {w : UInt8} (hw : w.toNat = 2) {b : Bytes} (hb : b.length < 2 ^ 64)
    (rest : Bytes) :
    value w (Base128.encode (b.length % 2 ^ 64) ++ (b ++ rest)) = .ok (.bytes b, rest) := by
  rw [value, hw, Nat.mod_eq_of_lt hb]
  simp only [varint_encode hb, bind, Except.bind, UInt64.toNat_ofNat', Nat.mod_eq_of_lt hb,
    take_append]
  rfl

/-- The reader undoes the writer, field by field. -/
theorem readField_fieldBytes {f : WireField} (hf : Written f) (rest : Bytes) :
    readField (fieldBytes f ++ rest) = .ok (f, rest) := by
  obtain ⟨n, v⟩ := f
  have hn := n.toNat_lt
  cases v with
  | varint v =>
      have htag : 0 + 8 * n.toNat < 2 ^ 64 := by omega
      rw [readField, fieldBytes, List.append_assoc, ← Nat.zero_add (8 * n.toNat),
        varint_encode htag]
      simp only [bind, Except.bind, value_varint (tag_wire (by decide) n),
        tag_number (w := 0) (by decide) n]
      rfl
  | bytes b =>
      have htag : 2 + 8 * n.toNat < 2 ^ 64 := by omega
      rw [readField, fieldBytes, List.append_assoc, List.append_assoc, varint_encode htag]
      simp only [bind, Except.bind, value_bytes (tag_wire (by decide) n) hf,
        tag_number (w := 2) (by decide) n]
      rfl
  | fixed64 v => exact hf.elim
  | fixed32 v => exact hf.elim

theorem items_wireBytes : ∀ {fs : List WireField}, (∀ f ∈ fs, Written f) →
    items (wireBytes fs) = fs.map .ok
  | [], _ => by simp
  | f :: fs, h => by
      have hhead := readField_fieldBytes (h f List.mem_cons_self) (wireBytes fs)
      rw [show wireBytes (f :: fs) = fieldBytes f ++ wireBytes fs from rfl, items_ok hhead,
        items_wireBytes fun g hg => h g (List.mem_cons_of_mem f hg)]
      rfl

end Reader

/-- A length-delimited field is longer than what it delimits. -/
theorem length_lt_fieldBytes (n : UInt32) (b : Bytes) :
    b.length < (fieldBytes (n, .bytes b)).length := by
  have := List.length_pos_iff.mpr (Base128.encode_ne_nil (2 + 8 * n.toNat))
  rw [fieldBytes, List.length_append, List.length_append]
  omega

theorem fieldBytes_length_le {f : WireField} {fs : List WireField} (h : f ∈ fs) :
    (fieldBytes f).length ≤ (wireBytes fs).length := by
  obtain ⟨before, after, rfl⟩ := List.append_of_mem h
  rw [wireBytes_append, show wireBytes (f :: after) = fieldBytes f ++ wireBytes after from rfl]
  simp only [List.length_append]
  omega

/-- What fits in memory as a whole fits field by field. -/
theorem written_of_length {fs : List WireField} (hlen : (wireBytes fs).length < 2 ^ 64)
    (hkind : ∀ f ∈ fs, f.2.asBytes.isSome ∨ ∃ v, f.2 = .varint v) :
    ∀ f ∈ fs, Written f := by
  intro f hf
  obtain ⟨n, v⟩ := f
  cases v with
  | varint v => trivial
  | bytes b =>
      exact Nat.lt_trans (length_lt_fieldBytes n b)
        (Nat.lt_of_le_of_lt (fieldBytes_length_le hf) hlen)
  | fixed64 v => rcases hkind _ hf with h | ⟨_, h⟩ <;> cases h
  | fixed32 v => rcases hkind _ hf with h | ⟨_, h⟩ <;> cases h

end TiktokSigner
