import TiktokSigner.SignCore.PercentCode

/-!
# Sanitised URIs, in Rust and Java

`sanitize_uri` goes by characters, `DirectSocketUrlBuilder.sanitize` by bytes.
Both escape the bytes of every character that is not safe; on the bytes of
the text this is `Percent.escape`, with the percent sign among what is
kept, so nothing that is escaped already is escaped again.
-/

namespace TiktokSigner.Parity

open Percent Utf8

/-! ## Java -/

namespace Java

def safeChars : List Char := "-._~:/?#[]@!$&'()*+,;=%".toList

/-- The bytes that are appended as they stand. -/
def isSafeByte (b : UInt8) : Bool :=
  let c := b.toNat
  (97 ≤ c && c ≤ 122) || (65 ≤ c && c ≤ 90) || (48 ≤ c && c ≤ 57) ||
    safeChars.contains (Char.ofNat c)

/-- `"0123456789ABCDEF".charAt(n)`. -/
def hexChar (n : Nat) : Char := "0123456789ABCDEF".toList.getD n '0'

def sanitize (raw : List Char) : List Char :=
  (raw.flatMap String.utf8EncodeChar).flatMap fun b =>
    if isSafeByte b then [Char.ofNat b.toNat]
    else ['%', hexChar (b.toNat / 16), hexChar (b.toNat % 16)]

end Java

open Java

/-! ## Safe bytes -/

theorem isUriSafe_lt {c : Char} (h : isUriSafe c = true) : c.toNat < 128 := by
  simp only [isUriSafe, Bool.or_eq_true] at h
  rcases h with h | h
  · exact isAlphanum_lt h
  · have hall : "-._~:/?#[]@!$&'()*+,;=%".toList.all (fun c => c.toNat < 128) = true := by decide
    exact of_decide_eq_true (List.all_eq_true.mp hall c (List.contains_iff_mem.mp h))

theorem isSafeByte_lt {b : UInt8} (h : isSafeByte b = true) : b.toNat < 128 := by
  have hall : ∀ n ∈ List.range 256, isSafeByte (UInt8.ofNat n) = true → n < 128 := by
    decide +kernel
  refine hall b.toNat (List.mem_range.mpr b.toNat_lt) ?_
  rwa [UInt8.ofNat_toNat]

/-- The two alphabets are one. -/
theorem isSafeByte_eq {b : UInt8} (hb : b.toNat < 128) :
    isSafeByte b = isUriSafe (Char.ofNat b.toNat) := by
  have hall : ∀ n ∈ List.range 128, isSafeByte (UInt8.ofNat n) = isUriSafe (Char.ofNat n) := by
    decide +kernel
  have hbyte := hall b.toNat (List.mem_range.mpr hb)
  rwa [UInt8.ofNat_toNat] at hbyte

theorem hexChar_eq {n : Nat} (h : n < 16) : hexChar n = upperHexDigit n := by
  have hall : ∀ n ∈ List.range 16, hexChar n = upperHexDigit n := by decide
  exact hall n (List.mem_range.mpr h)

theorem isSafeByte_sign : isSafeByte sign = true := by decide

theorem isSafeByte_digit {b : UInt8} (h : (hexValue b).isSome) : isSafeByte b = true := by
  have hall : ∀ n ∈ List.range 256, (hexValue (UInt8.ofNat n)).isSome →
      isSafeByte (UInt8.ofNat n) = true := by decide +kernel
  have hbyte := hall b.toNat (List.mem_range.mpr b.toNat_lt)
  rw [UInt8.ofNat_toNat] at hbyte
  exact hbyte h

/-! ## A character and its bytes -/

/-- A byte on its own, as both write it. -/
def sanitizeByte (b : UInt8) : List Char :=
  if isSafeByte b then [Char.ofNat b.toNat] else percentByte b

theorem sanitize_eq (raw : List Char) : sanitize raw = (encode raw).flatMap sanitizeByte := by
  rw [sanitize, encode]
  congr 1
  funext b
  have hb := b.toNat_lt
  rw [sanitizeByte, hexChar_eq (by omega), hexChar_eq (by omega)]
  rfl

/-- No byte of a character that is not safe is safe. -/
theorem sanitizeChar_eq (c : Char) :
    sanitizeChar c = (String.utf8EncodeChar c).flatMap sanitizeByte := by
  rw [sanitizeChar]
  split_ifs with hsafe
  · have hc := isUriSafe_lt hsafe
    have hbyte : (UInt8.ofNat c.toNat).toNat = c.toNat := by
      rw [UInt8.toNat_ofNat', Nat.mod_eq_of_lt (by omega)]
    have hkept : isSafeByte (UInt8.ofNat c.toNat) = true := by
      rw [isSafeByte_eq (by omega), hbyte, Char.ofNat_toNat, hsafe]
    rw [encodeChar_ascii hc, List.flatMap_singleton, sanitizeByte, if_pos hkept, hbyte,
      Char.ofNat_toNat]
  · refine List.flatMap_congr fun b hb => ?_
    have hnot : ¬isSafeByte b = true := by
      intro hbyte
      have hlt := isSafeByte_lt hbyte
      have hchar := ofNat_of_encodeChar (encodeChar_of_mem hlt hb)
      rw [isSafeByte_eq hlt, hchar] at hbyte
      exact hsafe hbyte
    rw [sanitizeByte, if_neg hnot]

/-- By characters or by bytes. -/
theorem sanitize_eq_sanitizeUri (raw : List Char) : sanitize raw = sanitizeUri raw := by
  rw [sanitize_eq, sanitizeUri_eq, encode, List.flatMap_assoc]
  exact List.flatMap_congr fun c _ => (sanitizeChar_eq c).symm

/-! ## What the output decodes to -/

theorem encode_sanitizeByte (b : UInt8) :
    encode (sanitizeByte b) = if isSafeByte b then [b] else escapeByte b := by
  rw [sanitizeByte]
  split_ifs with h
  · rw [encode_cons, encode_nil, encodeChar_ofNat (isSafeByte_lt h)]
    rfl
  · exact encode_percentByte b

theorem encode_sanitizeUri (uri : List Char) :
    encode (sanitizeUri uri) = escape isSafeByte (encode uri) := by
  rw [← sanitize_eq_sanitizeUri, sanitize_eq, escape]
  induction encode uri with
  | nil => rfl
  | cons b bytes ih =>
    rw [List.flatMap_cons, encode_append, encode_sanitizeByte, ih, List.flatMap_cons]

/-! ## What is kept -/

/-- A digit of an escape, in either case. -/
def isHexDigit (c : Char) : Bool := "0123456789abcdefABCDEF".toList.contains c

theorem isHexDigit_safe {c : Char} (h : isHexDigit c = true) : isUriSafe c = true := by
  have hall : "0123456789abcdefABCDEF".toList.all isUriSafe = true := by decide
  exact List.all_eq_true.mp hall c (List.contains_iff_mem.mp h)

/-- Safe text stays, whatever stands around it. -/
theorem sanitizeUri_kept {before kept after : List Char} (h : ∀ c ∈ kept, isUriSafe c = true) :
    sanitizeUri (before ++ kept ++ after) = sanitizeUri before ++ kept ++ sanitizeUri after := by
  rw [sanitizeUri_eq, List.flatMap_append, List.flatMap_append, flatMap_sanitizeChar h,
    ← sanitizeUri_eq, ← sanitizeUri_eq]

theorem sanitizeUri_idem (uri : List Char) : sanitizeUri (sanitizeUri uri) = sanitizeUri uri := by
  rw [sanitizeUri_eq (sanitizeUri uri), flatMap_sanitizeChar (sanitizeUri_safe uri)]

/-- A URI is made safe once, keeps its safe text and its escapes in their
places, decodes to the same bytes, and is the same in Java. -/
theorem sanitizeUri_exact (uri : List Char) :
    (∀ c ∈ sanitizeUri uri, isUriSafe c = true) ∧
    sanitizeUri (sanitizeUri uri) = sanitizeUri uri ∧
    (∀ before c after, uri = before ++ [c] ++ after → isUriSafe c = true →
      sanitizeUri uri = sanitizeUri before ++ [c] ++ sanitizeUri after) ∧
    (∀ before h l after, uri = before ++ ['%', h, l] ++ after →
      isHexDigit h = true → isHexDigit l = true →
      sanitizeUri uri = sanitizeUri before ++ ['%', h, l] ++ sanitizeUri after) ∧
    unescape (encode (sanitizeUri uri)) = unescape (encode uri) ∧
    Java.sanitize uri = sanitizeUri uri := by
  refine ⟨sanitizeUri_safe uri, sanitizeUri_idem uri, ?_, ?_, ?_, sanitize_eq_sanitizeUri uri⟩
  · rintro before c after rfl hc
    exact sanitizeUri_kept (by simpa using hc)
  · rintro before h l after rfl hh hl
    refine sanitizeUri_kept fun c hc => ?_
    simp only [List.mem_cons, List.not_mem_nil, or_false] at hc
    rcases hc with rfl | rfl | rfl
    · decide
    · exact isHexDigit_safe hh
    · exact isHexDigit_safe hl
  · rw [encode_sanitizeUri, unescape_escape_kept isSafeByte_sign fun _ => isSafeByte_digit]

end TiktokSigner.Parity
