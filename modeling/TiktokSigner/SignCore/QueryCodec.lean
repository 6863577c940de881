import TiktokSigner.Lib.Text
import TiktokSigner.SignCore.DirectSocket
import TiktokSigner.SignCore.PercentCode

/-!
# The query codec

`Query::encode` and `Query::parse_encoded` of `params.rs`. Keys and values are
any text: a separator in one of them is escaped, so the splits undo the
joining, and what is left of a component holds no plus sign and no byte
above ASCII, which are what `percent_decode` trips over.
-/

namespace TiktokSigner

open Percent Utf8

namespace Query

/-- One round of the loop of `encode`. -/
def encodeComponents (out : String) (pair : String × String) : String :=
  (if out.isEmpty then out else out ++ "&") ++ percentEncode pair.1 ++ "=" ++ percentEncode pair.2

/-- `k=v&k=v`, percent-encoded. -/
def encode (q : Query) : String := q.foldl encodeComponents ""

/-- A pair of the encoded query; `none` where `percent_decode` panics. -/
def parsePair (pair : List Char) : Option (String × String) :=
  let (key, value) := (Text.splitOnce '=' pair).getD (pair, [])
  (percentDecode (String.ofList key)).bind fun key =>
    (percentDecode (String.ofList value)).map fun value => (key, value)

/-- Parse an encoded query into its pairs. -/
def parseEncoded (raw : String) : Option Query :=
  ((raw.toList.dropWhile (· == '?')).splitOn '&').foldlM
    (fun query pair =>
      if pair = [] then some query
      else (parsePair pair).map fun (key, value) => query.pushRaw key value)
    Query.new

end Query

/-! ## What an encoding holds -/

/-- An unreserved character. -/
def isUnreservedChar (c : Char) : Bool := c.isAlphanum || "-_.~".toList.contains c

/-- A digit of an escape. -/
def isUpperHexDigit (c : Char) : Bool := c.isDigit || ('A' ≤ c && c ≤ 'F')

/-- Unreserved characters, escapes and separators. -/
inductive Encoded : List Char → Prop
  | nil : Encoded []
  | unreserved {c : Char} {text : List Char} (hc : isUnreservedChar c = true)
      (htext : Encoded text) : Encoded (c :: text)
  | escape {h l : Char} {text : List Char} (hh : isUpperHexDigit h = true)
      (hl : isUpperHexDigit l = true) (htext : Encoded text) : Encoded ('%' :: h :: l :: text)
  | separator {c : Char} {text : List Char} (hc : c = '&' ∨ c = '=') (htext : Encoded text) :
      Encoded (c :: text)

theorem Encoded.append {text text' : List Char} (h : Encoded text) (h' : Encoded text') :
    Encoded (text ++ text') := by
  induction h with
  | nil => exact h'
  | unreserved hc _ ih => exact .unreserved hc ih
  | escape hh hl _ ih => exact .escape hh hl ih
  | separator hc _ ih => exact .separator hc ih

/-! ## A byte -/

theorem upperHexDigit_isUpperHexDigit {n : Nat} (h : n < 16) :
    isUpperHexDigit (upperHexDigit n) = true := by
  have hall : ∀ n ∈ List.range 16, isUpperHexDigit (upperHexDigit n) = true := by decide
  exact hall n (List.mem_range.mpr h)

theorem isUnreserved_lt {b : UInt8} (h : isUnreserved b = true) : b.toNat < 127 := by
  simp only [isUnreserved, Bool.or_eq_true, Bool.and_eq_true, decide_eq_true_eq, beq_iff_eq] at h
  omega

theorem isUnreservedChar_ofNat {b : UInt8} (h : isUnreserved b = true) :
    isUnreservedChar (Char.ofNat b.toNat) = true := by
  have hall : ∀ n ∈ List.range 127, isUnreserved (UInt8.ofNat n) = true →
      isUnreservedChar (Char.ofNat n) = true := by decide +kernel
  refine hall b.toNat (List.mem_range.mpr (isUnreserved_lt h)) ?_
  rwa [UInt8.ofNat_toNat]

theorem encode_percentEncodeByte (b : UInt8) :
    encode (percentEncodeByte b) = if isUnreserved b then [b] else escapeByte b := by
  rw [percentEncodeByte]
  split_ifs with h
  · rw [encode_cons, encode_nil, encodeChar_ofNat (by have := isUnreserved_lt h; omega)]
    rfl
  · exact encode_percentByte b

theorem encoded_percentEncodeByte (b : UInt8) : Encoded (percentEncodeByte b) := by
  have hb := b.toNat_lt
  rw [percentEncodeByte]
  split_ifs with h
  · exact .unreserved (isUnreservedChar_ofNat h) .nil
  · exact .escape (upperHexDigit_isUpperHexDigit (by omega))
      (upperHexDigit_isUpperHexDigit (by omega)) .nil

/-! ## A component -/

theorem asBytes_percentEncode (s : String) :
    asBytes (percentEncode s) = escape isUnreserved (asBytes s) := by
  rw [percentEncode, asBytes_ofList, escape]
  induction asBytes s with
  | nil => rfl
  | cons b bytes ih =>
    rw [List.flatMap_cons, encode_append, encode_percentEncodeByte, ih, List.flatMap_cons]

theorem mem_escape {keep : UInt8 → Bool} {a : UInt8} {bytes : List UInt8}
    (h : a ∈ escape keep bytes) : keep a = true ∨ a = sign ∨ (hexValue a).isSome := by
  obtain ⟨b, -, ha⟩ := List.mem_flatMap.mp h
  have hb := b.toNat_lt
  split_ifs at ha with hkeep
  · rw [List.mem_singleton.mp ha]
    exact Or.inl hkeep
  · simp only [escapeByte, List.mem_cons, List.not_mem_nil, or_false] at ha
    rcases ha with rfl | rfl | rfl
    · exact Or.inr (Or.inl rfl)
    · exact Or.inr (Or.inr (Option.isSome_of_eq_some (hexValue_upperHex (by omega))))
    · exact Or.inr (Or.inr (Option.isSome_of_eq_some (hexValue_upperHex (by omega))))

theorem percentEncode_ascii {s : String} {a : UInt8} (h : a ∈ asBytes (percentEncode s)) :
    a.toNat < 128 ∧ a ≠ 43 := by
  rw [asBytes_percentEncode] at h
  rcases mem_escape h with hkeep | rfl | hdigit
  · refine ⟨by have := isUnreserved_lt hkeep; omega, ?_⟩
    rintro rfl
    exact absurd hkeep (by decide)
  · decide
  · refine ⟨hexValue_ascii hdigit, ?_⟩
    rintro rfl
    exact absurd hdigit (by decide)

theorem sliced_of_ascii {bytes : Bytes} (h : ∀ a ∈ bytes, a.toNat < 128) : Sliced bytes := by
  have hboundary : ∀ bytes' : Bytes, (∀ a ∈ bytes', a.toNat < 128) →
      isCharBoundary bytes' = true := by
    intro bytes' hascii
    cases bytes' with
    | nil => rfl
    | cons b bytes' =>
      have hb := hascii b List.mem_cons_self
      simp only [isCharBoundary, isContinuation, Bool.not_eq_true', Bool.and_eq_false_iff,
        decide_eq_false_iff_not]
      omega
  intro h' l rest hsuffix
  have hrest : ∀ a ∈ h' :: l :: rest, a.toNat < 128 :=
    fun a ha => h a (hsuffix.mem (List.mem_cons_of_mem _ ha))
  exact ⟨hboundary _ hrest, hboundary _ fun a ha =>
    hrest a (List.mem_cons_of_mem _ (List.mem_cons_of_mem _ ha))⟩

theorem not_hasPlus_of_notMem {bytes : Bytes} (h : 43 ∉ bytes) : ¬HasPlus bytes := by
  rintro ⟨rest, hsuffix, hfirst⟩
  match rest, hfirst with
  | a :: _ :: _, ⟨hplus, _⟩ =>
    exact h (hsuffix.mem (List.mem_cons_of_mem _ (hplus ▸ List.mem_cons_self)))

/-- Decoding undoes the encoding of a component. -/
theorem percentDecode_percentEncode (s : String) : percentDecode (percentEncode s) = some s := by
  have hsliced := sliced_of_ascii fun a (ha : a ∈ asBytes (percentEncode s)) =>
    (percentEncode_ascii ha).1
  have hplus := not_hasPlus_of_notMem fun hmem : 43 ∈ asBytes (percentEncode s) =>
    (percentEncode_ascii hmem).2 rfl
  have hdecoded : percentDecoded (percentEncode s) = s := by
    rw [percentDecoded, asBytes_percentEncode, unescape_escape (by decide), fromUtf8_asBytes,
      Option.getD_some]
  obtain ⟨text, htext⟩ := Option.isSome_iff_exists.mp (percentDecode_isSome.mpr hsliced)
  rw [htext, (eq_percentDecoded_iff htext).mpr fun h => absurd h hplus, hdecoded]

theorem encoded_percentEncode (s : String) : Encoded (percentEncode s).toList := by
  rw [percentEncode, String.toList_ofList]
  induction asBytes s with
  | nil => exact .nil
  | cons b bytes ih => exact (encoded_percentEncodeByte b).append ih

theorem notMem_percentEncode {c : Char} (hc : isUnreservedChar c = false)
    (hsign : c ≠ '%') (s : String) : c ∉ (percentEncode s).toList := by
  have hdigit : ∀ n < 16, c ≠ upperHexDigit n := by
    rintro n hn rfl
    have hall : ∀ n ∈ List.range 16, isUnreservedChar (upperHexDigit n) = true := by decide
    exact absurd (hall n (List.mem_range.mpr hn)) (by simp [hc])
  intro hmem
  rw [percentEncode, String.toList_ofList] at hmem
  obtain ⟨b, -, hmem⟩ := List.mem_flatMap.mp hmem
  have hb := b.toNat_lt
  rw [percentEncodeByte] at hmem
  split_ifs at hmem with hkeep
  · rw [List.mem_singleton.mp hmem, isUnreservedChar_ofNat hkeep] at hc
    cases hc
  · simp only [percentByte, List.mem_cons, List.not_mem_nil, or_false] at hmem
    rcases hmem with h | h | h
    · exact hsign h
    · exact hdigit _ (by omega) h
    · exact hdigit _ (by omega) h

/-! ## The pairs -/

namespace Query

/-- The pairs as they are written. -/
def encodedPairs (q : Query) : Query :=
  q.map fun pair => (percentEncode pair.1, percentEncode pair.2)

theorem encode_eq (q : Query) : encode q = encodeRaw (encodedPairs q) := by
  rw [encodeRaw, encodedPairs, List.foldl_map]
  rfl

/-- A pair as it is written. -/
def pairText (pair : String × String) : List Char :=
  (percentEncode pair.1).toList ++ '=' :: (percentEncode pair.2).toList

theorem toList_tail_cons (pair : String × String) (q : Query) :
    (tail (encodedPairs (pair :: q))).toList =
      '&' :: (pairText pair ++ (tail (encodedPairs q)).toList) := by
  have hpairs : encodedPairs (pair :: q) =
      (percentEncode pair.1, percentEncode pair.2) :: encodedPairs q := rfl
  simp [hpairs, tail, pairText]

theorem toList_encode_cons (pair : String × String) (q : Query) :
    (encode (pair :: q)).toList = pairText pair ++ (tail (encodedPairs q)).toList := by
  have hpairs : encodedPairs (pair :: q) =
      (percentEncode pair.1, percentEncode pair.2) :: encodedPairs q := rfl
  rw [encode_eq, hpairs, encodeRaw_cons]
  simp [pairText]

theorem notMem_pairText (pair : String × String) : '&' ∉ pairText pair := by
  intro h
  rcases List.mem_append.mp h with h | h
  · exact notMem_percentEncode (by decide) (by decide) _ h
  · have hvalue := (List.mem_cons.mp h).resolve_left (by decide)
    exact notMem_percentEncode (by decide) (by decide) _ hvalue

theorem pairText_ne_nil (pair : String × String) : pairText pair ≠ [] := by
  simp [pairText]

/-- Splitting at the ampersands undoes the joining. -/
theorem splitOn_tail (text : List Char) (h : '&' ∉ text) (q : Query) :
    (text ++ (tail (encodedPairs q)).toList).splitOn '&' = text :: q.map pairText := by
  induction q generalizing text with
  | nil =>
    have hnil : (tail (encodedPairs [])).toList = [] := rfl
    rw [hnil, List.append_nil, List.map_nil, List.splitOn_eq_singleton h]
  | cons pair q ih =>
    rw [toList_tail_cons, List.splitOn_append_cons_self_of_not_mem h, ih _ (notMem_pairText pair),
      List.map_cons]

theorem parsePair_pairText (pair : String × String) : parsePair (pairText pair) = some pair := by
  have hsplit : Text.splitOnce '=' (pairText pair) =
      some ((percentEncode pair.1).toList, (percentEncode pair.2).toList) :=
    Text.splitOnce_eq_some.mpr ⟨rfl, notMem_percentEncode (by decide) (by decide) _⟩
  simp only [parsePair, hsplit, Option.getD_some, String.ofList_toList,
    percentDecode_percentEncode, Option.bind_some, Option.map_some]

theorem foldlM_pairText (q start : Query) :
    (q.map pairText).foldlM
      (fun query pair =>
        if pair = [] then some query
        else (parsePair pair).map fun (key, value) => query.pushRaw key value)
      start = some (start ++ q) := by
  induction q generalizing start with
  | nil => simp
  | cons pair q ih =>
    rw [List.map_cons, List.foldlM_cons, if_neg (pairText_ne_nil pair), parsePair_pairText,
      Option.map_some]
    exact (ih (start ++ [pair])).trans (by rw [List.append_assoc, List.singleton_append])

/-- No encoding starts with a question mark. -/
theorem dropWhile_encode (q : Query) :
    (encode q).toList.dropWhile (· == '?') = (encode q).toList := by
  cases q with
  | nil => rfl
  | cons pair q =>
    rw [toList_encode_cons, pairText]
    cases hkey : (percentEncode pair.1).toList with
    | nil => rfl
    | cons c key =>
      have hc : c ≠ '?' := by
        rintro rfl
        have hmem : '?' ∈ (percentEncode pair.1).toList := hkey ▸ List.mem_cons_self
        exact notMem_percentEncode (by decide) (by decide) _ hmem
      rw [List.cons_append, List.cons_append, List.dropWhile_cons_of_neg (by simpa using hc)]

theorem parseEncoded_encode (q : Query) : parseEncoded (encode q) = some q := by
  rw [parseEncoded, dropWhile_encode]
  cases q with
  | nil => rfl
  | cons pair q =>
    rw [toList_encode_cons, splitOn_tail _ (notMem_pairText pair), ← List.map_cons, foldlM_pairText]
    rfl

theorem encoded_pairText (pair : String × String) : Encoded (pairText pair) :=
  (encoded_percentEncode _).append (.separator (Or.inr rfl) (encoded_percentEncode _))

theorem encoded_tail (q : Query) : Encoded (tail (encodedPairs q)).toList := by
  induction q with
  | nil => exact .nil
  | cons pair q ih =>
    rw [toList_tail_cons]
    exact .separator (Or.inl rfl) ((encoded_pairText pair).append ih)

theorem encoded_encode (q : Query) : Encoded (encode q).toList := by
  cases q with
  | nil => exact .nil
  | cons pair q =>
    rw [toList_encode_cons]
    exact (encoded_pairText pair).append (encoded_tail q)

/-- Any pairs come back from their encoding, in order. -/
theorem encode_round_trip (q : Query) :
    parseEncoded (encode q) = some q ∧ Encoded (encode q).toList :=
  ⟨parseEncoded_encode q, encoded_encode q⟩

end Query

end TiktokSigner
