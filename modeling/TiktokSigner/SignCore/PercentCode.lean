import TiktokSigner.Lib.Percent
import TiktokSigner.Lib.Utf8
import TiktokSigner.SignCore.Uri

/-!
# Percent-encoding of text

`percent_encode` and `percent_decode` of `params.rs`. The decoder slices the
two bytes after a `%` out of the string, which panics inside a character,
and hands them to an integer parser, which takes a plus sign for a digit.

`percentDecoded` is what it is for: the text of the unescaped bytes, or the text as
it stands where they are no UTF-8.
-/

namespace TiktokSigner

open Percent Utf8

/-! ## Text and bytes -/

theorem asBytes_eq_encode (s : String) : asBytes s = encode s.toList := by
  rw [asBytes, ← String.utf8Encode_toList, List.utf8Encode, List.data_toByteArray,
    List.toList_toArray, encode]

theorem asBytes_ofList (text : List Char) : asBytes (String.ofList text) = encode text := by
  rw [asBytes_eq_encode, String.toList_ofList]

theorem fromUtf8_isSome {bytes : Bytes} : (fromUtf8 bytes).isSome ↔ Valid bytes := by
  constructor
  · intro h
    obtain ⟨s, hs⟩ := Option.isSome_iff_exists.mp h
    exact ⟨s.toList, by rw [← asBytes_eq_encode, asBytes_of_fromUtf8 hs]⟩
  · rintro ⟨text, rfl⟩
    rw [← asBytes_ofList, fromUtf8_asBytes]
    rfl

/-! ## Encoding -/

/-- The characters that `percent_encode` keeps. -/
def isUnreserved (b : UInt8) : Bool :=
  let n := b.toNat
  (65 ≤ n && n ≤ 90) || (97 ≤ n && n ≤ 122) || (48 ≤ n && n ≤ 57)
    || n == 45 || n == 95 || n == 46 || n == 126

def percentEncodeByte (b : UInt8) : List Char :=
  if isUnreserved b then [Char.ofNat b.toNat] else percentByte b

/-- Preserve unreserved characters, encode everything else. -/
def percentEncode (s : String) : String := String.ofList ((asBytes s).flatMap percentEncodeByte)

theorem upperHexDigit_eq {n : Nat} (h : n < 16) :
    upperHexDigit n = Char.ofNat (upperHex n).toNat := by
  have hall : ∀ n ∈ List.range 16, upperHexDigit n = Char.ofNat (upperHex n).toNat := by decide
  exact hall n (List.mem_range.mpr h)

theorem upperHex_lt {n : Nat} (h : n < 16) : (upperHex n).toNat < 128 :=
  hexValue_ascii (Option.isSome_of_eq_some (hexValue_upperHex h))

/-- The escape of a byte is what its text encodes. -/
theorem encode_percentByte (b : UInt8) : encode (percentByte b) = escapeByte b := by
  have hb := b.toNat_lt
  have hhigh : b.toNat / 16 < 16 := by omega
  have hlow : b.toNat % 16 < 16 := by omega
  have hsign : String.utf8EncodeChar (Char.ofNat 37) = [sign] :=
    encodeChar_ofNat (a := sign) (by decide)
  rw [percentByte, upperHexDigit_eq hhigh, upperHexDigit_eq hlow, encode_cons, encode_cons,
    encode_cons, encode_nil, hsign, encodeChar_ofNat (upperHex_lt hhigh),
    encodeChar_ofNat (upperHex_lt hlow)]
  rfl

/-! ## Decoding -/

/-- `u8::from_str_radix(src, 16)`: an optional plus sign, then digits. -/
def fromStrRadix16 (src : Bytes) : Option UInt8 :=
  let digits := if src.head? = some 43 ∧ 1 < src.length then src.tail else src
  if digits = [] then none
  else
    (digits.foldlM
      (fun acc digit => (hexValue digit).bind fun value =>
        if 16 * acc + value < 256 then some (16 * acc + value) else none)
      0).map UInt8.ofNat

/-- `str::is_char_boundary`, by what follows the position. -/
def isCharBoundary : Bytes → Bool
  | [] => true
  | b :: _ => !isContinuation b

/-- The loop on the bytes from `index` on; `none` where the slice panics. -/
def percentDecodeLoop : Bytes → Option Bytes
  | [] => some []
  | [b] => some [b]
  | [b, h] => some [b, h]
  | b :: h :: l :: rest =>
      if b = 37 then
        if isCharBoundary (h :: l :: rest) && isCharBoundary rest then
          match fromStrRadix16 [h, l] with
          | some byte => (percentDecodeLoop rest).map (byte :: ·)
          -- not a valid escape
          | none => (percentDecodeLoop (h :: l :: rest)).map (b :: ·)
        else none
      else (percentDecodeLoop (h :: l :: rest)).map (b :: ·)

/-- Decode `%XX` escapes; `none` where it panics. -/
def percentDecode (value : String) : Option String :=
  (percentDecodeLoop (asBytes value)).map fun out => (fromUtf8 out).getD value

/-! ## What it is for -/

/-- The text of the unescaped bytes, or the text as it stands. -/
def percentDecoded (value : String) : String := (fromUtf8 (unescape (asBytes value))).getD value

/-- Every two bytes after a `%` can be sliced out. -/
def Sliced (bytes : Bytes) : Prop :=
  ∀ h l rest, sign :: h :: l :: rest <:+ bytes →
    isCharBoundary (h :: l :: rest) = true ∧ isCharBoundary rest = true

/-- The bytes start with a plus sign and a digit. -/
def PlusFirst : Bytes → Prop
  | h :: l :: _ => h = 43 ∧ (hexValue l).isSome
  | _ => False

/-- A `%` stands before a plus sign and a digit. -/
def HasPlus (bytes : Bytes) : Prop := ∃ rest, sign :: rest <:+ bytes ∧ PlusFirst rest

theorem plus_mem_of_hasPlus {bytes : Bytes} (h : HasPlus bytes) : 43 ∈ bytes := by
  obtain ⟨rest, hsuffix, hplus⟩ := h
  match rest, hplus with
  | h :: l :: rest, ⟨hh, _⟩ => exact hh ▸ hsuffix.subset (by simp)

theorem hexValue_plus : hexValue 43 = none := by decide

theorem fromStrRadix16_pair (h l : UInt8) :
    fromStrRadix16 [h, l] =
      if h = 43 then (hexValue l).map UInt8.ofNat else hexByte h l := by
  rw [fromStrRadix16]
  by_cases hplus : h = 43
  · subst hplus
    simp only [List.head?_cons, List.length_cons, List.length_nil, true_and, if_pos,
      List.tail_cons]
    cases hl : hexValue l with
    | none => simp [hl]
    | some low =>
      have hlow := hexValue_lt hl
      simp [hl, show low < 256 by omega]
  · simp only [List.head?_cons, Option.some.injEq, hplus, false_and, if_false, hexByte]
    cases hh : hexValue h with
    | none => simp [hh]
    | some high =>
      have hhigh := hexValue_lt hh
      cases hl : hexValue l with
      | none => simp [hh, hl, show high < 256 by omega]
      | some low =>
        have hlow := hexValue_lt hl
        simp [hh, hl, show high < 256 by omega, show 16 * high + low < 256 by omega]

/-- What the loop makes of the bytes, slices apart. -/
inductive Reads : Bytes → Bytes → Prop
  | nil : Reads [] []
  | plain {b : UInt8} {bytes out : Bytes} (hstray : b = sign → ¬DigitsFirst bytes)
      (hplus : b = sign → ¬PlusFirst bytes) (hrest : Reads bytes out) : Reads (b :: bytes) (b :: out)
  | escape {h l byte : UInt8} {rest out : Bytes} (hbyte : hexByte h l = some byte)
      (hrest : Reads rest out) : Reads (sign :: h :: l :: rest) (byte :: out)
  | plus {l : UInt8} {n : Nat} {rest out : Bytes} (hdigit : hexValue l = some n)
      (hrest : Reads rest out) : Reads (sign :: 43 :: l :: rest) (UInt8.ofNat n :: out)

/-- Where no number is read there are no digits, with or without a sign. -/
theorem not_first_of_none {h l : UInt8} {rest : Bytes} (hnone : fromStrRadix16 [h, l] = none) :
    ¬DigitsFirst (h :: l :: rest) ∧ ¬PlusFirst (h :: l :: rest) := by
  rw [fromStrRadix16_pair] at hnone
  split_ifs at hnone with hplus
  · have hl : ¬(hexValue l).isSome := by
      rw [Option.map_eq_none_iff.mp hnone]
      exact Bool.false_ne_true
    exact ⟨fun hfirst => hl (hexByte_isSome.mp hfirst).2, fun hfirst => hl hfirst.2⟩
  · refine ⟨fun hfirst => ?_, fun hfirst => hplus hfirst.1⟩
    rw [DigitsFirst, hnone] at hfirst
    cases hfirst

/-- A number is read from two digits, or from a plus sign and a digit. -/
theorem digits_of_some {h l byte : UInt8} (hsome : fromStrRadix16 [h, l] = some byte) :
    hexByte h l = some byte ∨ h = 43 ∧ ∃ n, hexValue l = some n ∧ UInt8.ofNat n = byte := by
  rw [fromStrRadix16_pair] at hsome
  split_ifs at hsome with hplus
  · exact Or.inr ⟨hplus, Option.map_eq_some_iff.mp hsome⟩
  · exact Or.inl hsome

theorem reads_of_loop : ∀ {bytes out : Bytes}, percentDecodeLoop bytes = some out →
    Reads bytes out
  | [], _, h => by
      obtain rfl := Option.some.inj h
      exact .nil
  | [b], _, h => by
      obtain rfl := Option.some.inj h
      exact .plain (fun _ => id) (fun _ => id) .nil
  | [b, h], _, hout => by
      obtain rfl := Option.some.inj hout
      exact .plain (fun _ => id) (fun _ => id) (.plain (fun _ => id) (fun _ => id) .nil)
  | b :: h :: l :: rest, out, hout => by
      rw [percentDecodeLoop] at hout
      by_cases hb : b = 37
      · subst hb
        rw [if_pos rfl] at hout
        split_ifs at hout with hslice
        cases hbyte : fromStrRadix16 [h, l] with
        | none =>
          rw [hbyte] at hout
          obtain ⟨out', hrest, rfl⟩ := Option.map_eq_some_iff.mp hout
          obtain ⟨hstray, hplus⟩ := not_first_of_none hbyte
          exact .plain (fun _ => hstray) (fun _ => hplus) (reads_of_loop hrest)
        | some byte =>
          rw [hbyte] at hout
          obtain ⟨out', hrest, rfl⟩ := Option.map_eq_some_iff.mp hout
          rcases digits_of_some hbyte with hdigits | ⟨rfl, n, hl, rfl⟩
          · exact .escape hdigits (reads_of_loop hrest)
          · exact .plus hl (reads_of_loop hrest)
      · rw [if_neg hb] at hout
        obtain ⟨out', hrest, rfl⟩ := Option.map_eq_some_iff.mp hout
        exact .plain (fun hs => absurd hs hb) (fun hs => absurd hs hb) (reads_of_loop hrest)

/-! ## Where it panics -/

theorem Sliced.of_suffix {bytes bytes' : Bytes} (h : Sliced bytes) (hsuffix : bytes' <:+ bytes) :
    Sliced bytes' :=
  fun h' l rest hrest => h h' l rest (hrest.trans hsuffix)

theorem sliced_cons {b : UInt8} {bytes : Bytes}
    (hhead : ∀ h l rest, sign :: h :: l :: rest = b :: bytes →
      isCharBoundary (h :: l :: rest) = true ∧ isCharBoundary rest = true)
    (h : Sliced bytes) : Sliced (b :: bytes) := by
  intro h' l rest hsuffix
  rcases List.suffix_cons_iff.mp hsuffix with heq | hsuffix
  · exact hhead h' l rest heq
  · exact h h' l rest hsuffix

theorem sliced_cons_of_ne {b : UInt8} {bytes : Bytes} (hb : b ≠ sign) (h : Sliced bytes) :
    Sliced (b :: bytes) :=
  sliced_cons (fun _ _ _ heq => absurd (List.cons.inj heq).1.symm hb) h

theorem sliced_short {bytes : Bytes} (h : bytes.length < 3) : Sliced bytes := by
  intro h' l rest hsuffix
  have hle := hsuffix.length_le
  simp only [List.length_cons] at hle
  omega

theorem ne_sign_of_hexValue {b : UInt8} (h : (hexValue b).isSome) : b ≠ sign := by
  rintro rfl
  rw [hexValue_sign] at h
  cases h

theorem ne_sign_of_fromStrRadix16 {h l byte : UInt8} (hbyte : fromStrRadix16 [h, l] = some byte) :
    h ≠ sign ∧ l ≠ sign := by
  rcases digits_of_some hbyte with hdigits | ⟨rfl, n, hl, -⟩
  · obtain ⟨hh, hl⟩ := hexByte_isSome.mp (Option.isSome_of_eq_some hdigits)
    exact ⟨ne_sign_of_hexValue hh, ne_sign_of_hexValue hl⟩
  · exact ⟨by decide, ne_sign_of_hexValue (Option.isSome_of_eq_some hl)⟩

theorem loop_isSome : ∀ {bytes : Bytes}, (percentDecodeLoop bytes).isSome ↔ Sliced bytes
  | [] => iff_of_true rfl (sliced_short (by decide))
  | [_] => iff_of_true rfl (sliced_short (by simp))
  | [_, _] => iff_of_true rfl (sliced_short (by simp))
  | b :: h :: l :: rest => by
      rw [percentDecodeLoop]
      by_cases hb : b = 37
      · rw [if_pos hb]
        by_cases hslice : (isCharBoundary (h :: l :: rest) && isCharBoundary rest) = true
        · rw [if_pos hslice]
          have hhead : ∀ h' l' rest', sign :: h' :: l' :: rest' = b :: h :: l :: rest →
              isCharBoundary (h' :: l' :: rest') = true ∧ isCharBoundary rest' = true := by
            intro h' l' rest' heq
            obtain ⟨-, rfl, rfl, rfl⟩ := by simpa using heq
            exact Bool.and_eq_true_iff.mp hslice
          cases hbyte : fromStrRadix16 [h, l] with
          | none =>
            simp only [Option.isSome_map]
            rw [loop_isSome]
            exact ⟨sliced_cons hhead, fun hsliced => hsliced.of_suffix (List.suffix_cons _ _)⟩
          | some byte =>
            simp only [Option.isSome_map]
            obtain ⟨hh, hl⟩ := ne_sign_of_fromStrRadix16 hbyte
            rw [loop_isSome]
            refine ⟨fun hsliced => sliced_cons hhead ?_, fun hsliced => hsliced.of_suffix
              ⟨[b, h, l], rfl⟩⟩
            exact sliced_cons_of_ne hh (sliced_cons_of_ne hl hsliced)
        · rw [if_neg hslice]
          refine iff_of_false (by simp) fun hsliced => hslice (Bool.and_eq_true_iff.mpr ?_)
          exact hsliced h l rest (by rw [hb]; exact List.suffix_refl _)
      · rw [if_neg hb, Option.isSome_map, loop_isSome]
        exact ⟨sliced_cons_of_ne hb, fun hsliced => hsliced.of_suffix (List.suffix_cons _ _)⟩

/-! ## What a plus sign does -/

theorem hasPlus_cons {b : UInt8} {bytes : Bytes} :
    HasPlus (b :: bytes) ↔ b = sign ∧ PlusFirst bytes ∨ HasPlus bytes := by
  constructor
  · rintro ⟨rest, hsuffix, hplus⟩
    rcases List.suffix_cons_iff.mp hsuffix with heq | hsuffix
    · obtain ⟨rfl, rfl⟩ := List.cons.inj heq
      exact Or.inl ⟨rfl, hplus⟩
    · exact Or.inr ⟨rest, hsuffix, hplus⟩
  · rintro (⟨rfl, hplus⟩ | ⟨rest, hsuffix, hplus⟩)
    · exact ⟨bytes, List.suffix_refl _, hplus⟩
    · exact ⟨rest, hsuffix.trans (List.suffix_cons _ _), hplus⟩

theorem not_hasPlus_nil : ¬HasPlus [] := by
  rintro ⟨rest, hsuffix, -⟩
  exact absurd (List.suffix_nil.mp hsuffix) (List.cons_ne_nil _ _)

theorem hasPlus_cons_of_ne {b : UInt8} {bytes : Bytes} (hb : b ≠ sign) :
    HasPlus (b :: bytes) ↔ HasPlus bytes := by
  rw [hasPlus_cons]
  exact ⟨fun h => h.resolve_left fun hsign => hb hsign.1, Or.inr⟩

theorem hasPlus_escape {h l : UInt8} {rest : Bytes} (hbyte : (hexByte h l).isSome) :
    HasPlus (sign :: h :: l :: rest) ↔ HasPlus rest := by
  obtain ⟨hh, hl⟩ := hexByte_isSome.mp hbyte
  rw [hasPlus_cons, hasPlus_cons_of_ne (ne_sign_of_hexValue hh),
    hasPlus_cons_of_ne (ne_sign_of_hexValue hl)]
  refine ⟨fun hplus => hplus.resolve_left fun hfirst => ?_, Or.inr⟩
  obtain ⟨rfl, -⟩ := hfirst.2
  rw [hexValue_plus] at hh
  cases hh

theorem unescape_plus {l : UInt8} (hl : (hexValue l).isSome) (rest : Bytes) :
    unescape (sign :: 43 :: l :: rest) = sign :: 43 :: l :: unescape rest := by
  have hstray : ¬DigitsFirst (43 :: l :: rest) := by
    intro hfirst
    have hplus := (hexByte_isSome.mp hfirst).1
    rw [hexValue_plus] at hplus
    cases hplus
  rw [unescape_cons fun _ => hstray, unescape_cons_of_ne (by decide),
    unescape_cons_of_ne (ne_sign_of_hexValue hl)]

namespace Reads

variable {bytes out : Bytes}

theorem exact (h : Reads bytes out) (hplus : ¬HasPlus bytes) : out = unescape bytes := by
  induction h with
  | nil => rfl
  | plain hstray _ _ ih =>
    rw [unescape_cons hstray, ih fun hrest => hplus (hasPlus_cons.mpr (Or.inr hrest))]
  | escape hbyte _ ih =>
    rw [unescape_digits hbyte,
      ih fun hrest => hplus ((hasPlus_escape (Option.isSome_of_eq_some hbyte)).mpr hrest)]
  | @plus l _ rest _ hdigit _ _ =>
    have hfirst : PlusFirst (43 :: l :: rest) := ⟨rfl, Option.isSome_of_eq_some hdigit⟩
    exact absurd (hasPlus_cons.mpr (Or.inl ⟨rfl, hfirst⟩)) hplus

theorem length_le (h : Reads bytes out) : out.length ≤ (unescape bytes).length := by
  induction h with
  | nil => exact Nat.le_refl _
  | plain hstray _ _ ih =>
    rw [unescape_cons hstray]
    exact Nat.succ_le_succ ih
  | escape hbyte _ ih =>
    rw [unescape_digits hbyte]
    exact Nat.succ_le_succ ih
  | plus hdigit _ ih =>
    rw [unescape_plus (Option.isSome_of_eq_some hdigit)]
    simp only [List.length_cons]
    omega

/-- A plus sign and a digit make one byte of three. -/
theorem length_lt (h : Reads bytes out) (hplus : HasPlus bytes) :
    out.length < (unescape bytes).length := by
  induction h with
  | nil => exact absurd hplus not_hasPlus_nil
  | plain hstray hnot _ ih =>
    rw [unescape_cons hstray]
    refine Nat.succ_lt_succ (ih ((hasPlus_cons.mp hplus).resolve_left ?_))
    exact fun hfirst => hnot hfirst.1 hfirst.2
  | escape hbyte _ ih =>
    rw [unescape_digits hbyte]
    exact Nat.succ_lt_succ (ih ((hasPlus_escape (Option.isSome_of_eq_some hbyte)).mp hplus))
  | plus hdigit hrest _ =>
    have hle := hrest.length_le
    rw [unescape_plus (Option.isSome_of_eq_some hdigit)]
    simp only [List.length_cons]
    omega

/-- All four bytes are ASCII, so the text around them is read alike. -/
theorem valid_iff (h : Reads bytes out) :
    ∀ before, Valid (before ++ out) ↔ Valid (before ++ unescape bytes) := by
  induction h with
  | nil => exact fun _ => Iff.rfl
  | @plain b bytes out hstray _ _ ih =>
    intro before
    have hshift := ih (before ++ [b])
    rwa [List.append_assoc, List.append_assoc, List.singleton_append, List.singleton_append,
      ← unescape_cons hstray] at hshift
  | @escape h l byte rest out hbyte _ ih =>
    intro before
    have hshift := ih (before ++ [byte])
    rwa [List.append_assoc, List.append_assoc, List.singleton_append, List.singleton_append,
      ← unescape_digits hbyte] at hshift
  | @plus l n rest out hdigit _ ih =>
    intro before
    have hn := hexValue_lt hdigit
    have hl := hexValue_ascii (Option.isSome_of_eq_some hdigit)
    have hrest := ih []
    rw [List.nil_append, List.nil_append] at hrest
    rw [unescape_plus (Option.isSome_of_eq_some hdigit), valid_append_cons (by
      rw [UInt8.toNat_ofNat']
      omega), valid_append_cons (by decide)]
    refine and_congr_right fun _ => ?_
    have hplus : Valid (43 :: l :: unescape rest) ↔ Valid (l :: unescape rest) :=
      valid_cons (by decide)
    rw [hplus, valid_cons hl, hrest]

end Reads

/-! ## When it is exact -/

/-- Valid bytes are those of the text that is read. -/
theorem asBytes_getD {bytes : Bytes} (h : Valid bytes) (value : String) :
    asBytes ((fromUtf8 bytes).getD value) = bytes := by
  obtain ⟨s, hs⟩ := Option.isSome_iff_exists.mp (fromUtf8_isSome.mpr h)
  rw [hs, Option.getD_some, asBytes_of_fromUtf8 hs]

theorem getD_of_not_valid {bytes : Bytes} (h : ¬Valid bytes) (value : String) :
    (fromUtf8 bytes).getD value = value := by
  rw [Option.not_isSome_iff_eq_none.mp fun hsome => h (fromUtf8_isSome.mp hsome), Option.getD_none]

/-- It panics where a slice ends inside a character. -/
theorem percentDecode_isSome {value : String} :
    (percentDecode value).isSome ↔ Sliced (asBytes value) := by
  rw [percentDecode, Option.isSome_map, loop_isSome]

/-- What it gives is exact but for the plus signs in front of digits. -/
theorem eq_percentDecoded_iff {value text : String} (h : percentDecode value = some text) :
    text = percentDecoded value ↔
      (HasPlus (asBytes value) → ¬Valid (unescape (asBytes value))) := by
  obtain ⟨out, hloop, rfl⟩ := Option.map_eq_some_iff.mp h
  have hreads := reads_of_loop hloop
  have hvalid := hreads.valid_iff []
  rw [List.nil_append, List.nil_append] at hvalid
  rw [percentDecoded]
  constructor
  · intro hout hplus hbytes
    have heq : out = unescape (asBytes value) := by
      rw [← asBytes_getD (hvalid.mpr hbytes) value, hout, asBytes_getD hbytes]
    exact absurd (congrArg List.length heq) (Nat.ne_of_lt (hreads.length_lt hplus))
  · intro hplus
    by_cases hhas : HasPlus (asBytes value)
    · have hnot := hplus hhas
      rw [getD_of_not_valid hnot, getD_of_not_valid fun hout => hnot (hvalid.mp hout)]
    · rw [hreads.exact hhas]

/-- The decoder is exact where every slice ends at a character and no plus
sign is taken for a digit, unless the bytes are no UTF-8 anyway. -/
theorem percentDecode_exact_iff (value : String) :
    percentDecode value = some (percentDecoded value) ↔
      Sliced (asBytes value) ∧ (HasPlus (asBytes value) → ¬Valid (unescape (asBytes value))) := by
  constructor
  · intro h
    exact ⟨percentDecode_isSome.mp (Option.isSome_of_eq_some h), (eq_percentDecoded_iff h).mp rfl⟩
  · rintro ⟨hsliced, hplus⟩
    obtain ⟨text, htext⟩ := Option.isSome_iff_exists.mp (percentDecode_isSome.mpr hsliced)
    rw [htext, (eq_percentDecoded_iff htext).mpr hplus]

/-- A slice inside a character, and a plus sign. -/
theorem percentDecode_not_exact :
    percentDecode "%aé" = none ∧ percentDecoded "%aé" = "%aé" ∧
      percentDecode "%+f" = some "\x0f" ∧ percentDecoded "%+f" = "%+f" := by
  decide

end TiktokSigner
