import Mathlib.Algebra.Order.Group.Multiset
import TiktokSigner.FixtureHygiene.Scan
import TiktokSigner.Lib.JsonText
import TiktokSigner.Lib.LineMatches

/-!
# Documents and their layouts

A JSON document is a tree whose strings and scalars are kept as they are
written. A layout of its tokens puts blanks around them, as a serialiser
does that prints the document on one line or on many. What the gate reports
of a text is taken without the places: the rule, the field and the length.
-/

namespace TiktokSigner.FixtureHygiene

open Regex Regex.Pattern

/-! ## Documents -/

/-- What stands between the quotes of a string literal. -/
abbrev Content : Type :=
  { text : List Char // ∃ units, JsonText.string (text ++ ['"']) = some (units, []) }

/-- A number, a truth value or `null`. -/
abbrev Scalar : Type :=
  { text : List Char // text = "true".toList ∨ text = "false".toList ∨ text = "null".toList ∨
      JsonText.number text = some (text, []) }

inductive Document where
  | scalar (text : Scalar)
  | string (text : Content)
  | array (elements : List Document)
  | object (members : List (Content × Document))

inductive Mark where
  | openBrace
  | closeBrace
  | openBracket
  | closeBracket
  | comma
  | colon

def Mark.char : Mark → Char
  | openBrace => '\x7b'
  | closeBrace => '\x7d'
  | openBracket => '['
  | closeBracket => ']'
  | comma => ','
  | colon => ':'

inductive Token where
  | mark (mark : Mark)
  | scalar (text : Scalar)
  | string (text : Content)

def Token.text : Token → List Char
  | mark m => [m.char]
  | scalar s => s.val
  | string s => '"' :: (s.val ++ ['"'])

mutual

def Document.tokens : Document → List Token
  | .scalar s => [.scalar s]
  | .string s => [.string s]
  | .array elements => .mark .openBracket :: (elementTokens elements ++ [.mark .closeBracket])
  | .object members => .mark .openBrace :: (memberTokens members ++ [.mark .closeBrace])

def elementTokens : List Document → List Token
  | [] => []
  | [element] => element.tokens
  | element :: elements => element.tokens ++ .mark .comma :: elementTokens elements

def memberTokens : List (Content × Document) → List Token
  | [] => []
  | [(key, value)] => .string key :: .mark .colon :: value.tokens
  | (key, value) :: members =>
      .string key :: .mark .colon :: value.tokens ++ .mark .comma :: memberTokens members

end

/-! ## Layouts -/

/-- Blanks before the first token and after each of them. -/
structure Layout (tokens : List Token) where
  lead : List Char
  body : List (Token × List Char)
  tokens_eq : body.map Prod.fst = tokens
  lead_blank : ∀ c ∈ lead, JsonText.isBlank c = true
  body_blank : ∀ piece ∈ body, ∀ c ∈ piece.2, JsonText.isBlank c = true

def bodyText (body : List (Token × List Char)) : List Char :=
  body.flatMap fun piece => piece.1.text ++ piece.2

def Layout.text {tokens : List Token} (self : Layout tokens) : List Char :=
  self.lead ++ bodyText self.body

/-! ## What is reported -/

/-- A finding without its place. -/
def Finding.kind (self : Finding) : Rule × Option String × Nat :=
  (self.rule, self.field, self.valueLen)

/-- What is reported of a text in UTF-8. -/
def reported (isWord : Char → Bool) (path : String) (text : List Char) :
    Multiset (Rule × Option String × Nat) :=
  ((scanBytes isWord path (Utf8.encode text)).map Finding.kind : List _)

/-- The same is reported of every layout. -/
def LayoutFree (isWord : Char → Bool) (tokens : List Token) : Prop :=
  ∀ path path', ∀ layout layout' : Layout tokens,
    reported isWord path layout.text = reported isWord path' layout'.text

/-! ## Rule by rule -/

abbrev Kind : Type := Rule × Option String × Nat

/-- What a rule reports of a match. -/
def kindOf (rule : Read → Option Finding) (read : Read) : Multiset Kind :=
  ((rule read).map Finding.kind).toList

def cookieKind : Read → Multiset Kind := kindOf (cookieFinding "" none)

def signingFieldKind : Read → Multiset Kind := kindOf (signingFieldFinding "" none)

def queryParamKind : Read → Multiset Kind := kindOf (queryParamFinding "" none)

def urlKind (isWord : Char → Bool) : Read → Multiset Kind := kindOf (urlFinding isWord "" none)

def vmRawKeyKind : Read → Multiset Kind := kindOf fun read => some (vmRawKeyFinding "" none read)

def vmRawBytesKind : Read → Multiset Kind :=
  kindOf fun read => some (vmRawBytesFinding "" none read)

section Rules

variable (isWord : Char → Bool) (path : String) (line : Option Nat)

theorem sum_kindOf (rule : Read → Option Finding) (reads : List Read) :
    (((reads.filterMap rule).map Finding.kind : List Kind) : Multiset Kind)
      = (reads.map (kindOf rule)).sum := by
  induction reads with
  | nil => rfl
  | cons read reads ih =>
    rw [List.map_cons, List.sum_cons, ← ih, kindOf]
    cases h : rule read with
    | none => rw [List.filterMap_cons_none h]; exact (zero_add _).symm
    | some finding => rw [List.filterMap_cons_some h]; rfl

theorem kindOf_cookie : kindOf (cookieFinding path line) = cookieKind := by
  funext read
  rw [cookieKind, kindOf, kindOf, cookieFinding, cookieFinding]
  split_ifs <;> rfl

theorem kindOf_signingField : kindOf (signingFieldFinding path line) = signingFieldKind := by
  funext read
  rw [signingFieldKind, kindOf, kindOf, signingFieldFinding, signingFieldFinding]
  split_ifs <;> rfl

theorem kindOf_queryParam : kindOf (queryParamFinding path line) = queryParamKind := by
  funext read
  rw [queryParamKind, kindOf, kindOf, queryParamFinding, queryParamFinding]
  split_ifs <;> rfl

theorem kindOf_url : kindOf (urlFinding isWord path line) = urlKind isWord := by
  funext read
  rw [urlKind, kindOf, kindOf, urlFinding, urlFinding]
  cases Text.splitOnce '?' read.text with
  | none => rfl
  | some parts =>
    dsimp only
    split_ifs <;> rfl

theorem sum_kindOf_some (rule : Read → Finding) (reads : List Read) :
    (((reads.map rule).map Finding.kind : List Kind) : Multiset Kind)
      = (reads.map (kindOf fun read => some (rule read))).sum := by
  rw [← sum_kindOf, List.filterMap_eq_map']

/-- What the rules report of a line. -/
def lineKinds (text : List Char) : Multiset Kind :=
  cookieKv.tally isWord cookieKind none text +
    signingField.tally isWord signingFieldKind none text +
    queryParam.tally isWord queryParamKind none text +
    url.tally isWord (urlKind isWord) none text +
    vmRawKey.tally isWord vmRawKeyKind none text +
    vmRawBytes.tally isWord vmRawBytesKind none text

theorem kinds_scanLine (text : List Char) :
    (((scanLine isWord path line text).map Finding.kind : List Kind) : Multiset Kind)
      = lineKinds isWord text := by
  simp only [scanLine, List.map_append, ← Multiset.coe_add, sum_kindOf, kindOf_cookie,
    kindOf_signingField, kindOf_queryParam, kindOf_url, sum_kindOf_some]
  rfl

theorem kinds_scanLines (parts : List (Option Nat × List Char)) :
    (((parts.flatMap fun part => scanLine isWord path part.1 part.2).map Finding.kind : List Kind) :
        Multiset Kind)
      = (parts.map fun part => lineKinds isWord part.2).sum := by
  induction parts with
  | nil => rfl
  | cons part parts ih =>
    rw [List.flatMap_cons, List.map_append, ← Multiset.coe_add, ih, kinds_scanLine,
      List.map_cons, List.sum_cons]

/-- What is reported of a text without a NUL character, rule by rule. -/
theorem reported_eq {text : List Char} (hnul : Char.ofNat 0 ∉ text) :
    reported isWord path text
      = cookieKv.tallyLines isWord cookieKind text +
        signingField.tallyLines isWord signingFieldKind text +
        queryParam.tallyLines isWord queryParamKind text +
        url.tallyLines isWord (urlKind isWord) text +
        vmRawKey.tallyLines isWord vmRawKeyKind text +
        vmRawBytes.tallyLines isWord vmRawBytesKind text := by
  have hlines : scanned (Utf8.encode text)
      = (Text.lines text).zipIdx.map fun part => (some (part.2 + 1), part.1) := by
    have hbinary : (Utf8.encode text).contains 0 = false := by
      simpa using Utf8.zero_notMem_encode hnul
    rw [scanned, hbinary, Utf8.decodeLossy_encode]
    rfl
  have hsecond : ((Text.lines text).zipIdx.map fun part => lineKinds isWord part.1)
      = (Text.lines text).map (lineKinds isWord) := by
    have hcomp := List.map_map (f := Prod.fst) (g := lineKinds isWord)
      (l := (Text.lines text).zipIdx)
    rw [List.zipIdx_map_fst] at hcomp
    exact hcomp.symm
  calc reported isWord path text
      = ((scanned (Utf8.encode text)).map fun part => lineKinds isWord part.2).sum :=
        kinds_scanLines isWord path _
    _ = ((Text.lines text).map (lineKinds isWord)).sum := by
        rw [hlines, List.map_map]
        exact congrArg List.sum hsecond
    _ = _ := by
        unfold lineKinds
        simp only [List.sum_map_add]
        rfl

end Rules

end TiktokSigner.FixtureHygiene
