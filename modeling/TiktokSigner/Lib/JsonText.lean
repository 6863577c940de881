import Mathlib.Data.List.Basic

/-!
# JSON text

A parser of JSON texts, as `JSON.parse` reads them. The text of a string is
in UTF-16 units, since an escape can name half a character, and a number is
kept as it is written. `string_flatMap` is the law of a literal that is
written character by character: it is read back exactly where no character
is written that may not stand in a literal.
-/

namespace TiktokSigner.JsonText

/-- The UTF-16 units of a character. -/
def units (c : Char) : List Nat :=
  if c.toNat < 0x10000 then [c.toNat]
  else [0xd800 + (c.toNat - 0x10000) / 0x400, 0xdc00 + (c.toNat - 0x10000) % 0x400]

def utf16 (text : List Char) : List Nat := text.flatMap units

inductive Tree where
  | null
  | bool (b : Bool)
  | num (text : List Char)
  | str (text : List Nat)
  | arr (elements : List Tree)
  | obj (members : List (List Nat × Tree))

/-! ## Tokens -/

def isBlank (c : Char) : Bool := c == ' ' || c == '\t' || c == '\n' || c == '\r'

def skipBlank (text : List Char) : List Char := text.dropWhile isBlank

def hexDigit (c : Char) : Option Nat :=
  if '0' ≤ c ∧ c ≤ '9' then some (c.toNat - '0'.toNat)
  else if 'a' ≤ c ∧ c ≤ 'f' then some (c.toNat - 'a'.toNat + 10)
  else if 'A' ≤ c ∧ c ≤ 'F' then some (c.toNat - 'A'.toNat + 10)
  else none

/-- The unit that four digits name. -/
def hexUnit (a b c d : Char) : Option Nat := do
  let a ← hexDigit a
  let b ← hexDigit b
  let c ← hexDigit c
  let d ← hexDigit d
  some (((a * 16 + b) * 16 + c) * 16 + d)

/-- The escapes of one character. -/
def escapeUnit (c : Char) : Option Nat :=
  if c = '"' ∨ c = '\\' ∨ c = '/' then some c.toNat
  else if c = 'b' then some 8
  else if c = 'f' then some 12
  else if c = 'n' then some 10
  else if c = 'r' then some 13
  else if c = 't' then some 9
  else none

/-- A string literal after its opening quote, and what follows it. -/
def string : List Char → Option (List Nat × List Char)
  | [] => none
  | c :: rest =>
      if c = '"' then some ([], rest)
      else if c = '\\' then
        match rest with
        | [] => none
        | e :: rest =>
            if e = 'u' then
              match rest with
              | a :: b :: c :: d :: rest =>
                  (hexUnit a b c d).bind fun unit =>
                    (string rest).map fun read => (unit :: read.1, read.2)
              | _ => none
            else
              (escapeUnit e).bind fun unit =>
                (string rest).map fun read => (unit :: read.1, read.2)
      else if c.toNat < 0x20 then none
      else (string rest).map fun read => (units c ++ read.1, read.2)

def digits (text : List Char) : List Char × List Char :=
  (text.takeWhile Char.isDigit, text.dropWhile Char.isDigit)

/-- Digits behind a mark, if it is there. -/
def fraction (text : List Char) : Option (List Char × List Char) :=
  match text with
  | '.' :: rest => if (digits rest).1 = [] then none else some ('.' :: (digits rest).1, (digits rest).2)
  | _ => some ([], text)

def exponent (text : List Char) : Option (List Char × List Char) :=
  match text with
  | mark :: rest =>
      if mark = 'e' ∨ mark = 'E' then
        let (sign, rest) := match rest with
          | sign :: tail => if sign = '+' ∨ sign = '-' then ([sign], tail) else ([], rest)
          | [] => ([], rest)
        if (digits rest).1 = [] then none
        else some (mark :: sign ++ (digits rest).1, (digits rest).2)
      else some ([], text)
  | [] => some ([], text)

def number (text : List Char) : Option (List Char × List Char) :=
  let (sign, text) := match text with
    | '-' :: rest => (['-'], rest)
    | _ => ([], text)
  let (whole, text) := digits text
  if whole = [] ∨ (whole.head? = some '0' ∧ whole.length ≠ 1) then none
  else
    (fraction text).bind fun fraction =>
      (exponent fraction.2).map fun exponent =>
        (sign ++ whole ++ fraction.1 ++ exponent.1, exponent.2)

/-! ## Trees -/

/-- What follows a character, behind blanks. -/
def expect (c : Char) (text : List Char) : Option (List Char) :=
  match skipBlank text with
  | [] => none
  | d :: rest => if d = c then some rest else none

/-- What follows a word. -/
def word (word text : List Char) : Option (List Char) :=
  if word.isPrefixOf text then some (text.drop word.length) else none

mutual

/-- A value and what follows it. The fuel bounds the depth and the length. -/
def value : Nat → List Char → Option (Tree × List Char)
  | 0, _ => none
  | fuel + 1, text =>
      match skipBlank text with
      | [] => none
      | c :: rest =>
          if c = '"' then (string rest).map fun read => (.str read.1, read.2)
          else if c = '\x7b' then
            match expect '\x7d' rest with
            | some rest => some (.obj [], rest)
            | none => (members fuel rest).map fun read => (.obj read.1, read.2)
          else if c = '[' then
            match expect ']' rest with
            | some rest => some (.arr [], rest)
            | none => (elements fuel rest).map fun read => (.arr read.1, read.2)
          else if c = 't' then (word "rue".toList rest).map fun rest => (.bool true, rest)
          else if c = 'f' then (word "alse".toList rest).map fun rest => (.bool false, rest)
          else if c = 'n' then (word "ull".toList rest).map fun rest => (.null, rest)
          else (number (c :: rest)).map fun read => (.num read.1, read.2)

/-- The elements of an array, from one of them to the closing bracket. -/
def elements : Nat → List Char → Option (List Tree × List Char)
  | 0, _ => none
  | fuel + 1, text =>
      (value fuel text).bind fun read =>
        match expect ',' read.2 with
        | some rest => (elements fuel rest).map fun more => (read.1 :: more.1, more.2)
        | none => (expect ']' read.2).map fun rest => ([read.1], rest)

/-- The members of an object, from one of them to the closing brace. -/
def members : Nat → List Char → Option (List (List Nat × Tree) × List Char)
  | 0, _ => none
  | fuel + 1, text =>
      (expect '"' text).bind fun rest =>
        (string rest).bind fun key =>
          (expect ':' key.2).bind fun rest =>
            (value fuel rest).bind fun read =>
              match expect ',' read.2 with
              | some rest => (members fuel rest).map fun more => ((key.1, read.1) :: more.1, more.2)
              | none => (expect '\x7d' read.2).map fun rest => ([(key.1, read.1)], rest)

end

/-- A text that is one value. Every step takes a character, so the fuel
does not run out. -/
def parse (text : List Char) : Option Tree :=
  (value (text.length + 1) text).bind fun read =>
    if skipBlank read.2 = [] then some read.1 else none

/-! ## Laws -/

theorem string_quote (rest : List Char) : string ('"' :: rest) = some ([], rest) := by
  rw [string.eq_def]
  exact if_pos rfl

theorem string_escape {e : Char} {unit : Nat} (he : e ≠ 'u') (hunit : escapeUnit e = some unit)
    (rest : List Char) :
    string ('\\' :: e :: rest) = (string rest).map fun read => (unit :: read.1, read.2) := by
  rw [string.eq_def]
  dsimp only
  rw [if_neg (by decide), if_pos rfl, if_neg he, hunit]
  rfl

theorem string_plain {c : Char} (hquote : c ≠ '"') (hback : c ≠ '\\') (rest : List Char) :
    string (c :: rest) = if c.toNat < 0x20 then none
      else (string rest).map fun read => (units c ++ read.1, read.2) := by
  rw [string.eq_def]
  dsimp only
  rw [if_neg hquote, if_neg hback]

/-- A literal that is written character by character. -/
theorem string_flatMap {write : Char → List Char} {ok : Char → Bool}
    (hok : ∀ c, ok c = true → ∀ rest, string (write c ++ rest)
      = (string rest).map fun read => (units c ++ read.1, read.2))
    (hbad : ∀ c, ok c = false → ∀ rest, string (write c ++ rest) = none) (text rest : List Char) :
    string (text.flatMap write ++ '"' :: rest)
      = if text.all ok then some (utf16 text, rest) else none := by
  induction text with
  | nil =>
    rw [List.flatMap_nil, List.nil_append, string_quote, List.all_nil, if_pos rfl]
    rfl
  | cons c text ih =>
    rw [List.flatMap_cons, List.append_assoc, List.all_cons]
    cases hc : ok c with
    | true =>
      rw [hok c hc, ih, Bool.true_and]
      cases text.all ok <;> rfl
    | false =>
      rw [hbad c hc, Bool.false_and]
      rfl

theorem expect_self {c : Char} (hc : isBlank c = false) (rest : List Char) :
    expect c (c :: rest) = some rest := by
  have hhead : skipBlank (c :: rest) = c :: rest := List.dropWhile_cons_of_neg (by simp [hc])
  rw [expect, hhead]
  exact if_pos rfl

theorem expect_of_ne {c d : Char} (hd : isBlank d = false) (hne : d ≠ c) (rest : List Char) :
    expect c (d :: rest) = none := by
  have hhead : skipBlank (d :: rest) = d :: rest := List.dropWhile_cons_of_neg (by simp [hd])
  rw [expect, hhead]
  exact if_neg hne

/-- What follows a member of an object. -/
def more (fuel : Nat) (text : List Char) : Option (List (List Nat × Tree) × List Char) :=
  match expect ',' text with
  | some rest => members fuel rest
  | none => (expect '\x7d' text).map fun rest => ([], rest)

/-- A member that stands where it should. -/
theorem members_eq {fuel : Nat} {text next : List Char} {key : List Nat}
    (hkey : string text = some (key, ':' :: next)) :
    members (fuel + 1) ('"' :: text)
      = (value fuel next).bind fun read =>
          (more fuel read.2).map fun more => ((key, read.1) :: more.1, more.2) := by
  rw [members, expect_self rfl, Option.bind_some, hkey, Option.bind_some, expect_self rfl,
    Option.bind_some]
  refine Option.bind_congr fun read _ => ?_
  rw [more]
  cases expect ',' read.2 with
  | some rest => rfl
  | none => cases expect '\x7d' read.2 <;> rfl

theorem more_comma (fuel : Nat) (rest : List Char) : more fuel (',' :: rest) = members fuel rest := by
  rw [more, expect_self rfl]

theorem value_string (fuel : Nat) (text : List Char) :
    value (fuel + 1) ('"' :: text) = (string text).map fun read => (.str read.1, read.2) := by
  have hquote : skipBlank ('"' :: text) = '"' :: text := rfl
  rw [value, hquote]
  exact if_pos rfl

theorem value_object {fuel : Nat} (text : List Char) :
    value (fuel + 1) ('\x7b' :: '"' :: text)
      = (members fuel ('"' :: text)).map fun read => (.obj read.1, read.2) := by
  have hbrace : skipBlank ('\x7b' :: '"' :: text) = '\x7b' :: '"' :: text := rfl
  rw [value, hbrace]
  dsimp only
  rw [if_neg (by decide), if_pos rfl, expect_of_ne rfl (by decide)]

end TiktokSigner.JsonText
