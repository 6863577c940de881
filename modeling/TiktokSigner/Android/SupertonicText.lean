import TiktokSigner.Android.KotlinText
import TiktokSigner.Lib.Cuts

/-!
# `SupertonicText`

Text cut into chunks for speech: at paragraph breaks, then at sentence
boundaries, and packed again up to a length; and the chunks that a cap on the
characters keeps. What `\s` stands for and what `\b` takes for the end of a word
differ between the platforms and are parameters; `\s` is never more than what
`trim` and `isWhitespace` take for white space.
-/

namespace TiktokSigner.Android.SupertonicText

open Parity (utf16)
open Text

/-- `trim`. -/
abbrev trimmed (text : List UInt16) : List UInt16 := trim isWhitespaceUnit text

/-! ## The two expressions -/

section

variable (space : RegexSpace)

/-- `\n\s*\n+`: up to the last line feed of the white space behind the first. -/
def paragraphBreak (_before text : List UInt16) : ℕ :=
  match text with
  | [] => 0
  | u :: rest =>
      if u = unit '\n' then
        match (rest.takeWhile space.mem).reverse.dropWhile fun v => v ≠ unit '\n' with
        | [] => 0
        | run => run.length + 1
      else 0

def abbreviations : List String :=
  ["Mr.", "Mrs.", "Ms.", "Dr.", "Prof.", "Sr.", "Jr.", "Ph.D.", "etc.", "e.g.", "i.e.", "vs.",
    "Inc.", "Ltd.", "Co.", "Corp.", "St.", "Ave.", "Blvd."]

variable (endsWord : List UInt16 → Bool)

/-- The three conditions on what stands before the white space. The text before
is read from its end. -/
def isBoundary (before : List UInt16) : Bool :=
  (match before with
    | u :: _ => u = unit '.' || u = unit '!' || u = unit '?'
    | [] => false) &&
  (match before with
    | dot :: c :: earlier =>
        !(dot = unit '.' && (unit 'A' ≤ c && c ≤ unit 'Z') && !endsWord earlier)
    | _ => true) &&
  abbreviations.all fun abbreviation => !(utf16 abbreviation).reverse.isPrefixOf before

def sentenceBoundary (before text : List UInt16) : ℕ :=
  if isBoundary endsWord before then (text.takeWhile space.mem).length else 0

end

/-! ## `chunk` -/

/-- The chunks so far and the one that is packed. -/
structure Packing where
  chunks : List (List UInt16)
  current : List UInt16

namespace Packing

def flush (s : Packing) : List (List UInt16) :=
  if s.current = [] then s.chunks else s.chunks ++ [trimmed s.current]

def pack (maxLen : ℤ) (s : Packing) (sentence : List UInt16) : Packing :=
  if codePointLength s.current + codePointLength sentence + 1 ≤ maxLen then
    { s with
      current := s.current ++ (if s.current = [] then [] else [unit ' ']) ++ sentence }
  else ⟨s.flush, sentence⟩

end Packing

section Chunk

variable (space : RegexSpace) (split : List UInt16 → List (List UInt16)) (maxLen : ℤ)

/-- What a paragraph adds to the chunks. -/
def chunkParagraph (chunks : List (List UInt16)) (paragraph : List UInt16) :
    List (List UInt16) :=
  let body := trimmed paragraph
  if body = [] then chunks
  else ((split body).foldl (Packing.pack maxLen) ⟨chunks, []⟩).flush

def paragraphs (text : List UInt16) : List (List UInt16) := Text.split (paragraphBreak space) text

/-- `chunk`, over a function that splits a paragraph into sentences. -/
def chunkWith (text : List UInt16) : Except String (List (List UInt16)) :=
  if maxLen ≤ 0 then .error s!"maxLen must be positive, was {maxLen}"
  else if trimmed text = [] then .ok []
  else .ok ((paragraphs space (trimmed text)).foldl (chunkParagraph split maxLen) [])

end Chunk

/-! ## `plan` -/

/-- `indexOfLast`. -/
def indexOfLast (p : UInt16 → Bool) (text : List UInt16) : Option ℕ :=
  (text.reverse.findIdx? p).map fun i => text.length - 1 - i

def truncateAtWordBoundary (text : List UInt16) (limit : ℤ) : List UInt16 :=
  if limit ≤ 0 then []
  else if (codePointLength text : ℤ) ≤ limit then text
  else
    let slice := ((codePoints text).take limit.toNat).flatten
    trimmed <|
      match indexOfLast isWhitespaceUnit slice with
      | some cut => if 0 < cut then slice.take cut else slice
      | none => slice

/-- The loop of `plan`: what is kept so far, and its length. -/
def keep (maxChars : ℤ) : List (List UInt16) → ℤ → List (List UInt16) → List (List UInt16)
  | kept, _, [] => kept
  | kept, total, c :: chunks =>
      let length := codePointLength c
      if kept = [] then
        let first := if maxChars < length then truncateAtWordBoundary c maxChars else c
        if first.all isWhitespaceUnit then kept
        else keep maxChars (kept ++ [first]) (total + codePointLength first) chunks
      else if total + length ≤ maxChars then keep maxChars (kept ++ [c]) (total + length) chunks
      else kept

section Plan

variable (space : RegexSpace) (endsWord : List UInt16 → Bool)

def chunk (text : List UInt16) (maxLen : ℤ) : Except String (List (List UInt16)) :=
  chunkWith space (Text.split (sentenceBoundary space endsWord)) maxLen text

def plan (text : List UInt16) (maxLen maxChars : ℤ) : Except String (List (List UInt16)) :=
  (chunk space endsWord text maxLen).map fun chunks =>
    if maxChars ≤ 0 ∨ chunks = [] then chunks else keep maxChars [] 0 chunks

end Plan

end TiktokSigner.Android.SupertonicText
