import TiktokSigner.Lib.Text
import TiktokSigner.Parity.EventBridge

/-!
# Text of Kotlin

A `String` of Kotlin is a sequence of UTF-16 code units, where a surrogate may
stand alone. What the app does with a text unit by unit is stated on those.
-/

namespace TiktokSigner.Android

open Text

/-- The unit of a character of the basic plane. -/
def unit (c : Char) : UInt16 := UInt16.ofNat c.toNat

/-- `Char.isWhitespace`; no surrogate is one. -/
def isWhitespaceUnit (u : UInt16) : Bool :=
  let n := u.toNat
  (9 ≤ n && n ≤ 13) || (28 ≤ n && n ≤ 32) || n = 0xa0 || n = 0x1680 ||
    (0x2000 ≤ n && n ≤ 0x200a) || n = 0x2028 || n = 0x2029 || n = 0x202f || n = 0x205f ||
    n = 0x3000

/-- What `\s` of a regular expression stands for: the line feed, and nothing that
is no white space. The rest differs between the platforms. -/
structure RegexSpace where
  mem : UInt16 → Bool
  lineFeed : mem (unit '\n') = true
  isWhitespace : ∀ u, mem u = true → isWhitespaceUnit u = true

namespace RegexSpace

/-- The six characters of the JDK. -/
def jdk : RegexSpace where
  mem u := (9 ≤ u.toNat && u.toNat ≤ 13) || u.toNat = 32
  lineFeed := rfl
  isWhitespace u h := by
    simp only [isWhitespaceUnit, Bool.or_eq_true, Bool.and_eq_true, decide_eq_true_eq] at h ⊢
    omega

/-- Android goes by the properties of Unicode. -/
def android : RegexSpace where
  mem u :=
    let n := u.toNat
    n = 9 || n = 10 || n = 12 || n = 13 || n = 32 || n = 0xa0 || n = 0x1680 ||
      (0x2000 ≤ n && n ≤ 0x200a) || n = 0x2028 || n = 0x2029 || n = 0x202f || n = 0x205f ||
      n = 0x3000
  lineFeed := rfl
  isWhitespace u h := by
    simp only [isWhitespaceUnit, Bool.or_eq_true, Bool.and_eq_true, decide_eq_true_eq] at h ⊢
    omega

end RegexSpace

/-- `substringBefore`: all of the text where the delimiter is missing. -/
def substringBefore (delimiter : UInt16) (text : List UInt16) : List UInt16 :=
  (cut delimiter text).1

/-- `substringAfter`. -/
def substringAfter (delimiter : UInt16) (missing text : List UInt16) : List UInt16 :=
  (cut delimiter text).2.getD missing

theorem cut_append {delimiter : UInt16} {before : List UInt16} (h : delimiter ∉ before)
    (after : List UInt16) : cut delimiter (before ++ delimiter :: after) = (before, some after) := by
  rw [cut, splitOnce_eq_some.mpr ⟨rfl, h⟩]

/-- `toBooleanStrictOrNull`. -/
def toBooleanStrictOrNull (text : List UInt16) : Option Bool :=
  if text = Parity.utf16 "true" then some true
  else if text = Parity.utf16 "false" then some false
  else none

theorem toBooleanStrictOrNull_toString (b : Bool) :
    toBooleanStrictOrNull (Parity.utf16 (toString b)) = some b := by
  cases b <;> decide

/-! ## Code points -/

def isHighSurrogate (u : UInt16) : Bool := 0xd800 ≤ u.toNat && u.toNat < 0xdc00

def isLowSurrogate (u : UInt16) : Bool := 0xdc00 ≤ u.toNat && u.toNat < 0xe000

/-- A pair of surrogates is one code point, and so is any other unit. -/
def codePoints : List UInt16 → List (List UInt16)
  | [] => []
  | [u] => [[u]]
  | u :: v :: text =>
      if isHighSurrogate u && isLowSurrogate v then [u, v] :: codePoints text
      else [u] :: codePoints (v :: text)

/-- `codePointCount`, of all of a text. -/
def codePointLength (text : List UInt16) : ℕ := (codePoints text).length

@[simp] theorem codePointLength_nil : codePointLength [] = 0 := rfl

theorem flatten_codePoints (text : List UInt16) : (codePoints text).flatten = text := by
  induction text using codePoints.induct with
  | case1 => rfl
  | case2 u => rfl
  | case3 u v text hpair ih => rw [codePoints, if_pos hpair, List.flatten_cons, ih]; rfl
  | case4 u v text hpair ih => rw [codePoints, if_neg hpair, List.flatten_cons, ih]; rfl

section Length

variable {u v : UInt16}

theorem codePoints_pair (h : (isHighSurrogate u && isLowSurrogate v) = true)
    (text : List UInt16) : codePoints (u :: v :: text) = [u, v] :: codePoints text := by
  rw [codePoints, if_pos h]

theorem codePoints_single (h : ¬(isHighSurrogate u && isLowSurrogate v) = true)
    (text : List UInt16) : codePoints (u :: v :: text) = [u] :: codePoints (v :: text) := by
  rw [codePoints, if_neg h]

theorem codePointLength_pair (h : (isHighSurrogate u && isLowSurrogate v) = true)
    (text : List UInt16) : codePointLength (u :: v :: text) = codePointLength text + 1 := by
  rw [codePointLength, codePoints_pair h]
  rfl

theorem codePointLength_single (h : ¬(isHighSurrogate u && isLowSurrogate v) = true)
    (text : List UInt16) :
    codePointLength (u :: v :: text) = codePointLength (v :: text) + 1 := by
  rw [codePointLength, codePoints_single h]
  rfl

end Length

/-- With one unit more in front, a text has at most one code point more, and no
fewer. -/
theorem codePointLength_cons_le (u : UInt16) (text : List UInt16) :
    codePointLength (u :: text) ≤ codePointLength text + 1 ∧
      codePointLength text ≤ codePointLength (u :: text) := by
  induction text generalizing u with
  | nil => exact ⟨le_rfl, Nat.zero_le _⟩
  | cons v text ih =>
    by_cases hpair : (isHighSurrogate u && isLowSurrogate v) = true
    · have hv := ih v
      rw [codePointLength_pair hpair]
      omega
    · rw [codePointLength_single hpair]
      omega

theorem codePointLength_le_append_left (front text : List UInt16) :
    codePointLength text ≤ codePointLength (front ++ text) := by
  induction front with
  | nil => exact le_rfl
  | cons u front ih => exact ih.trans (codePointLength_cons_le u _).2

/-- A text and more behind it. -/
theorem codePointLength_append (text back : List UInt16) :
    codePointLength text ≤ codePointLength (text ++ back) ∧
      codePointLength (text ++ back) ≤ codePointLength text + codePointLength back := by
  induction text using codePoints.induct with
  | case1 => exact ⟨Nat.zero_le _, (Nat.zero_add _).ge⟩
  | case2 u =>
    have hone : codePointLength [u] = 1 := rfl
    have hnil : codePointLength [u] ≤ codePointLength ([u] ++ back) := by
      cases back with
      | nil => exact le_rfl
      | cons v back =>
        rw [List.singleton_append]
        by_cases hpair : (isHighSurrogate u && isLowSurrogate v) = true
        · rw [codePointLength_pair hpair]
          omega
        · rw [codePointLength_single hpair]
          omega
    have hcons := codePointLength_cons_le u back
    rw [List.singleton_append] at hnil ⊢
    omega
  | case3 u v text hpair ih =>
    rw [List.cons_append, List.cons_append, codePointLength_pair hpair, codePointLength_pair hpair]
    omega
  | case4 u v text hpair ih =>
    rw [List.cons_append] at ih
    rw [List.cons_append, List.cons_append, codePointLength_single hpair,
      codePointLength_single hpair]
    omega

theorem codePointLength_trim (p : UInt16 → Bool) (text : List UInt16) :
    codePointLength (trim p text) ≤ codePointLength text := by
  obtain ⟨front, back, htext, -, -⟩ := trim_split p text
  calc codePointLength (trim p text)
    _ ≤ codePointLength (front ++ trim p text) := codePointLength_le_append_left _ _
    _ ≤ codePointLength (front ++ trim p text ++ back) := (codePointLength_append _ _).1
    _ = codePointLength text := by rw [← htext]

/-- The first code point begins with the first unit. -/
theorem exists_take_codePoints (u : UInt16) (text : List UInt16) (n : ℕ) :
    ∃ tail, ((codePoints (u :: text)).take (n + 1)).flatten = u :: tail := by
  cases text with
  | nil => exact ⟨_, rfl⟩
  | cons v text =>
    by_cases hpair : (isHighSurrogate u && isLowSurrogate v) = true
    · rw [codePoints_pair hpair]
      exact ⟨_, rfl⟩
    · rw [codePoints_single hpair]
      exact ⟨_, rfl⟩

/-- The first code points of a text are code points of their own. -/
theorem codePoints_take (n : ℕ) (text : List UInt16) :
    codePoints ((codePoints text).take n).flatten = (codePoints text).take n := by
  induction text using codePoints.induct generalizing n with
  | case1 => rw [codePoints, List.take_nil]; rfl
  | case2 u => cases n <;> simp [codePoints]
  | case3 u v text hpair ih =>
    rw [codePoints_pair hpair]
    cases n with
    | zero => rfl
    | succ n =>
      rw [List.take_succ_cons, List.flatten_cons, List.cons_append, List.singleton_append,
        codePoints_pair hpair, ih]
  | case4 u v text hpair ih =>
    rw [codePoints_single hpair]
    cases n with
    | zero => rfl
    | succ n =>
      rw [List.take_succ_cons, List.flatten_cons, List.singleton_append]
      cases n with
      | zero => rfl
      | succ n =>
        obtain ⟨tail, hflat⟩ := exists_take_codePoints v text n
        have htake := ih (n + 1)
        rw [hflat] at htake ⊢
        rw [codePoints_single hpair, htake]

theorem codePointLength_take (n : ℕ) (text : List UInt16) :
    codePointLength ((codePoints text).take n).flatten ≤ n := by
  rw [codePointLength, codePoints_take]
  exact List.length_take_le _ _

end TiktokSigner.Android
