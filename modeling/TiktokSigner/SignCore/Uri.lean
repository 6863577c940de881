import TiktokSigner.SignCore.Wire

/-!
# URIs for an HTTP client

`sanitize_uri` of `uri.rs`: percent-encode what an HTTP client cannot parse
and leave existing escapes as they are. A `&str` is the list of its
characters.
-/

namespace TiktokSigner

/-- Characters that `http::Uri` accepts. -/
def isUriSafe (c : Char) : Bool :=
  c.isAlphanum || "-._~:/?#[]@!$&'()*+,;=%".toList.contains c

/-- A digit of `:02X`. -/
def upperHexDigit (n : Nat) : Char :=
  if n < 10 then Char.ofNat (48 + n) else Char.ofNat (55 + n)

/-- `%{byte:02X}`. -/
def percentByte (byte : UInt8) : List Char :=
  [Char.ofNat 37, upperHexDigit (byte.toNat / 16), upperHexDigit (byte.toNat % 16)]

def sanitizeChar (c : Char) : List Char :=
  if isUriSafe c then [c] else (String.utf8EncodeChar c).flatMap percentByte

/-- Percent-encode only what an HTTP client cannot parse. -/
def sanitizeUri (uri : List Char) : List Char :=
  if uri.all isUriSafe then uri else uri.flatMap sanitizeChar

example : sanitizeUri "t=é 1".toList = "t=%C3%A9%201".toList := by decide

theorem sanitizeChar_safe {c : Char} (h : isUriSafe c) : sanitizeChar c = [c] := if_pos h

theorem flatMap_sanitizeChar : ∀ {uri : List Char}, (∀ c ∈ uri, isUriSafe c) →
    uri.flatMap sanitizeChar = uri
  | [], _ => rfl
  | c :: uri, h => by
      obtain ⟨hc, huri⟩ := List.forall_mem_cons.mp h
      rw [List.flatMap_cons, sanitizeChar_safe hc, flatMap_sanitizeChar huri, List.singleton_append]

/-- The early return only saves the copy. -/
theorem sanitizeUri_eq (uri : List Char) : sanitizeUri uri = uri.flatMap sanitizeChar := by
  rw [sanitizeUri]
  split_ifs with hsafe
  · exact (flatMap_sanitizeChar (List.all_eq_true.mp hsafe)).symm
  · rfl

theorem upperHexDigit_safe (n : Nat) (h : n < 16) : isUriSafe (upperHexDigit n) := by
  have hall : ∀ k ∈ List.range 16, isUriSafe (upperHexDigit k) = true := by decide
  exact hall n (List.mem_range.mpr h)

/-- What is handed to the client is safe throughout. -/
theorem sanitizeUri_safe (uri : List Char) : ∀ c ∈ sanitizeUri uri, isUriSafe c := by
  rw [sanitizeUri_eq]
  intro c hc
  obtain ⟨d, -, hc⟩ := List.mem_flatMap.mp hc
  rw [sanitizeChar] at hc
  split_ifs at hc with hsafe
  · rw [List.mem_singleton.mp hc]
    exact hsafe
  · obtain ⟨byte, -, hc⟩ := List.mem_flatMap.mp hc
    have hbyte := byte.toNat_lt
    rw [percentByte] at hc
    simp only [List.mem_cons, List.not_mem_nil, or_false] at hc
    rcases hc with rfl | rfl | rfl
    · decide
    · exact upperHexDigit_safe _ (by omega)
    · exact upperHexDigit_safe _ (by omega)

/-- An escaped character takes at least three. -/
theorem length_sanitizeChar {c : Char} (h : ¬isUriSafe c) : 3 ≤ (sanitizeChar c).length := by
  obtain ⟨byte, bytes, hbytes⟩ := List.exists_cons_of_ne_nil (String.utf8EncodeChar_ne_nil (c := c))
  rw [sanitizeChar, if_neg h, hbytes, List.flatMap_cons, List.length_append]
  exact Nat.le_add_right 3 _

end TiktokSigner
