import TiktokSigner.FixtureHygiene.CookieReading
import TiktokSigner.FixtureHygiene.Rows

/-!
# The cookie pattern in a literal

What the pattern reads at a place in a literal is read there to its end
(`Reading.within`), or goes on behind the literal (`Exit`): a name at its
very end looks for a separator behind the closing quote, and a separator at
its very end takes the closing quote and looks for a value. `walk` goes
through a literal and tells what it weighs and how it is left.
-/

namespace TiktokSigner.FixtureHygiene

open Regex Regex.Pattern Text

/-- How the pattern goes on behind a literal. -/
inductive Exit where
  /-- The literal ends with a name. -/
  | ends (name : List Char)
  /-- The literal ends with a name and a separator. -/
  | opens (name : List Char)
  deriving DecidableEq

/-- What the pattern reads at a place in a literal. -/
inductive Reading where
  | within (name value rest : List Char)
  | leaves (exit : Exit)

/-- What is read behind the name. -/
def reading (read : Read) : Option Reading :=
  match read.rest with
  | [] => some (.leaves (.ends read.text))
  | _ :: _ =>
      match read.rest.dropWhile isWhitespace with
      | [] => none
      | c :: more =>
          if isSeparator c then
            match more.dropWhile isWhitespace with
            | [] => some (.leaves (.opens read.text))
            | d :: value =>
                some (.within read.text ((d :: value).takeWhile isValue)
                  ((d :: value).dropWhile isValue))
          else none

def readingAt (isWord : Char → Bool) (before : Option Char) : List Char → Option Reading
  | [] => none
  | c :: text =>
      (if isQuote c then cookieName isWord (some c) text
        else cookieName isWord before (c :: text)).bind reading

/-- What the pattern reads, where it is known what follows the literal. -/
def Reading.key (tail : List Char) : Reading → Option (List (List Char) × List Char)
  | within name value rest => some ([name, value], rest ++ '"' :: tail)
  | leaves (.ends name) => (bareRest tail).map fun rest =>
      ([name, rest.takeWhile isValue], rest.dropWhile isValue)
  | leaves (.opens name) => some ([name, tail.takeWhile isValue], tail.dropWhile isValue)

/-! ## Up to the closing quote -/

theorem dropWhile_quote {p : Char → Bool} (hp : p '"' = false) (text tail : List Char) :
    (text ++ '"' :: tail).dropWhile p = text.dropWhile p ++ '"' :: tail := by
  induction text with
  | nil => exact List.dropWhile_cons_of_neg (by rw [hp]; exact Bool.false_ne_true)
  | cons c text ih =>
    rw [List.cons_append, List.dropWhile_cons, List.dropWhile_cons]
    split_ifs
    · exact ih
    · rfl

theorem takeWhile_quote {p : Char → Bool} (hp : p '"' = false) (text tail : List Char) :
    (text ++ '"' :: tail).takeWhile p = text.takeWhile p := by
  induction text with
  | nil => exact List.takeWhile_cons_of_neg (by rw [hp]; exact Bool.false_ne_true)
  | cons c text ih =>
    rw [List.cons_append, List.takeWhile_cons, List.takeWhile_cons, ih]

/-- No quote stands behind a separator and blanks. -/
theorem ne_quote_of_separator {c d : Char} {front more value : List Char}
    (hsep : isSeparator c = true) (hguard : Guarded (front ++ c :: more)) (hvalue : more.dropWhile isWhitespace = d :: value) :
    d ≠ '"' := by
  rintro rfl
  have hsplit := List.takeWhile_append_dropWhile (p := isWhitespace) (l := more)
  rw [hvalue] at hsplit
  obtain ⟨run, x, hrun⟩ := (List.eq_nil_or_concat' (c :: more.takeWhile isWhitespace)).resolve_left
    (List.cons_ne_nil _ _)
  have htext : front ++ c :: more = (front ++ run) ++ x :: '"' :: value := by
    rw [← hsplit, ← List.cons_append, hrun]
    simp
  have hx : x ∈ c :: more.takeWhile isWhitespace := by
    rw [hrun]
    exact List.mem_append_right _ List.mem_cons_self
  rw [htext] at hguard
  rw [hguard.quote] at hx
  rcases List.mem_cons.mp hx with rfl | hx
  · cases hsep
  · exact absurd (List.mem_takeWhile_imp hx) (by decide)

/-- What is read behind the name of a cookie. -/
theorem key_reading {r : Read} {tail : List Char} (hguard : Guarded (r.text ++ r.rest))
    (hsettles : settles r = true) :
    ((bareRest (dropQuote (r.rest ++ '"' :: tail))).map fun rest =>
        ([r.text, rest.takeWhile isValue], rest.dropWhile isValue))
      = (reading r).bind (Reading.key tail) := by
  obtain ⟨name, groups, rest⟩ := r
  dsimp only at hguard ⊢
  cases rest with
  | nil => rfl
  | cons c rest =>
    have hquote : c ≠ '"' := by
      rintro rfl
      cases hsettles
    rw [List.cons_append, dropQuote_cons hquote, bareRest, reading, ← List.cons_append,
      dropWhile_quote rfl]
    cases hblanks : (c :: rest).dropWhile isWhitespace with
    | nil => rfl
    | cons d more =>
      rw [List.cons_append]
      dsimp only
      by_cases hsep : isSeparator d = true
      · rw [if_pos hsep, if_pos hsep, dropWhile_quote rfl]
        have hsplit := List.takeWhile_append_dropWhile (p := isWhitespace) (l := c :: rest)
        rw [hblanks] at hsplit
        rw [← hsplit, ← List.append_assoc] at hguard
        cases hvalue : more.dropWhile isWhitespace with
        | nil => rfl
        | cons e value =>
          rw [List.cons_append, dropQuote_cons (ne_quote_of_separator hsep hguard hvalue),
            ← List.cons_append, Option.map_some, takeWhile_quote rfl, dropWhile_quote rfl]
          rfl
      · rw [if_neg hsep, if_neg hsep]
        rfl

/-- What the pattern reads at a place in a literal. -/
theorem key_literal {isWord : Char → Bool} {before : Option Char} {c : Char} {text tail : List Char}
    (hguard : Guarded (c :: text)) :
    (cookieKv.first isWord before (c :: text ++ '"' :: tail)).map Read.key
      = (readingAt isWord before (c :: text)).bind (Reading.key tail) := by
  have hname : ∀ before text, Guarded text → nameAt isWord before (text ++ '"' :: tail)
      = ((cookieName isWord before text).bind reading).bind (Reading.key tail) := by
    intro before text hguard
    rw [nameAt_quote hguard, Option.bind_assoc]
    refine Option.bind_congr fun r hr => ?_
    obtain ⟨-, -, -, -, htext, hsettles⟩ := cookieName_eq_some hr
    exact key_reading (htext ▸ hguard) hsettles
  rw [List.cons_append, key_cookieKv, readingAt]
  by_cases hc : isQuote c = true
  · rw [if_pos hc, if_pos hc, hname _ _ hguard.tail]
  · rw [if_neg hc, if_neg hc, ← List.cons_append, hname _ _ hguard]

/-! ## Through a literal -/

/-- What a name and a value are reported as. -/
def tells (name value : List Char) : Multiset Kind := cookieKind ⟨[], [name, value], []⟩

/-- What a literal weighs from a place on, and how it is left. The next `skip`
characters belong to what was read before. -/
def walk (isWord : Char → Bool) : Nat → Option Char → List Char → Multiset Kind × Option Exit
  | _, _, [] => (0, none)
  | skip + 1, _, c :: text => walk isWord skip (some c) text
  | 0, before, c :: text =>
      match readingAt isWord before (c :: text) with
      | none => walk isWord 0 (some c) text
      | some (.leaves exit) => (0, some exit)
      | some (.within name value rest) =>
          let later := walk isWord (text.length - rest.length) (some c) text
          (tells name value + later.1, later.2)

theorem walk_append {isWord : Char → Bool} (front text : List Char) (before : Option Char) :
    walk isWord front.length before (front ++ text) = walk isWord 0 (lastOr before front) text := by
  induction front generalizing before with
  | nil => rfl
  | cons c front ih =>
    rw [List.length_cons, List.cons_append, walk, ih, lastOr_cons]

/-- What is read within a literal is a part of it. -/
theorem exists_front_of_within {isWord : Char → Bool} {before : Option Char} {c : Char}
    {text name value rest : List Char}
    (h : readingAt isWord before (c :: text) = some (.within name value rest)) :
    ∃ front, text = front ++ rest := by
  have hreading : ∀ {before' text'}, (cookieName isWord before' text').bind reading
      = some (.within name value rest) → ∃ front, front ≠ [] ∧ text' = front ++ rest := by
    intro before' text' h
    obtain ⟨r, hname, hread⟩ := Option.bind_eq_some_iff.mp h
    obtain ⟨sought, hsought, hfold, -, rfl, -⟩ := cookieName_eq_some hname
    have hne := ne_nil_of_sameFolded (mem_soughtNames hsought) hfold
    rw [reading] at hread
    split at hread
    case h_1 => cases hread
    case h_2 d more hrest =>
      split at hread
      case h_1 => cases hread
      case h_2 e more' hblanks =>
        split_ifs at hread
        split at hread
        case h_1 => cases hread
        case h_2 f more'' hvalue =>
          obtain ⟨-, -, rfl⟩ := Reading.within.inj (Option.some.inj hread)
          have hsuffix : (f :: more'').dropWhile isValue <:+ r.rest := by
            refine (List.dropWhile_suffix _).trans ?_
            rw [← hvalue]
            refine (List.dropWhile_suffix _).trans ?_
            refine (List.suffix_cons e more').trans ?_
            rw [← hblanks]
            exact List.dropWhile_suffix _
          obtain ⟨front, hfront⟩ := hsuffix
          refine ⟨r.text ++ front, fun h => hne (List.append_eq_nil_iff.mp h).1, ?_⟩
          rw [List.append_assoc, hfront]
  rw [readingAt] at h
  split_ifs at h
  · obtain ⟨front, -, hfront⟩ := hreading h
    exact ⟨front, hfront⟩
  · obtain ⟨front, hne, hfront⟩ := hreading h
    cases front with
    | nil => exact absurd rfl hne
    | cons d front => exact ⟨front, (List.cons.inj hfront).2⟩

/-! ## Where no match begins -/

theorem nameAt_eq_none {isWord : Char → Bool} {before : Option Char} {text : List Char}
    (h : ∀ name ∈ sensitiveCookies, stripFolded name.toList text = none) :
    nameAt isWord before text = none := by
  rw [nameAt, nameWith, List.findSome?_eq_none_iff.mpr, ite_self]
  intro name hname
  rw [h name hname]
  rfl

theorem silent_cookieKv (isWord : Char → Bool) : Silent isWord cookieKv where
  outside {before c o tail} ho htail := by
    have hc : isQuote c = false := Bool.eq_false_iff.mpr fun h =>
      ne_quote_of_isOutside (List.forall_mem_cons.mp ho).1 (isQuote_iff.mp h)
    rw [← Option.map_eq_none_iff (f := Read.key), key_cookieKv, hc,
      if_neg Bool.false_ne_true]
    exact nameAt_eq_none fun name hname => stripFolded_outside (mem_soughtNames hname) ho htail
  close {before o tail} ho htail := by
    have hquote : isQuote '"' = true := rfl
    rw [← Option.map_eq_none_iff (f := Read.key), key_cookieKv, if_pos hquote]
    exact nameAt_eq_none fun name hname => stripFolded_outside (mem_soughtNames hname) ho htail
  opening before text := by
    have hpattern : cookieKv = seq (maybe quote) (seq boundary named) := rfl
    have hquote : isQuote '"' = true := rfl
    rw [hpattern, quote_eq, first_seq_maybe refuses_named.boundary,
      first_seq_maybe refuses_named.boundary, if_pos hquote, if_pos hquote]

/-! ## What a literal weighs -/

section Walk

variable {isWord : Char → Bool} {o : List Char} {row : Row}

variable (isWord) in
theorem key_line {c : Char} {text : List Char} (hguard : Guarded (c :: text))
    (before : Option Char) (rest : List Char) :
    (cookieKv.first isWord before (firstLine (c :: text ++ '"' :: rest))).map Read.key
      = (readingAt isWord before (c :: text)).bind (Reading.key (firstLine rest)) := by
  rw [firstLine_printed hguard.2, key_literal hguard]

/-- A literal is gone through to its end, or to a place where it is left. -/
theorem onward_walk (ho : Outside o) {part : List Char} (hguard : Guarded part)
    (before : Option Char) :
    ((walk isWord 0 before part).2 = none ∧
      cookieKv.onward isWord cookieKind before (part ++ '"' :: (o ++ quoted row))
        = (walk isWord 0 before part).1 + cookieKv.onward isWord cookieKind none (quoted row)) ∨
    ∃ exit before' part', (walk isWord 0 before part).2 = some exit ∧ part' <:+ part ∧
      readingAt isWord before' part' = some (.leaves exit) ∧
      cookieKv.onward isWord cookieKind before (part ++ '"' :: (o ++ quoted row))
        = (walk isWord 0 before part).1 +
          cookieKv.onward isWord cookieKind before' (part' ++ '"' :: (o ++ quoted row)) := by
  induction hlength : part.length using Nat.strong_induction_on generalizing part before with
  | _ n ih =>
    cases part with
    | nil =>
      refine Or.inl ⟨rfl, ?_⟩
      rw [List.nil_append, (silent_cookieKv isWord).onward_close ho (edge_quoted row), walk,
        zero_add]
    | cons c text =>
      rw [List.length_cons] at hlength
      have hkey := key_line isWord hguard before (o ++ quoted row)
      rw [walk]
      cases hreading : readingAt isWord before (c :: text) with
      | none =>
        rw [hreading] at hkey
        have hnone : cookieKv.first isWord before
            (c :: firstLine (text ++ '"' :: (o ++ quoted row))) = none := by
          have hprinted : Printed (c :: text) := hguard.2
          rw [firstLine_printed hguard.2] at hkey
          rw [firstLine_printed hprinted.tail]
          exact Option.map_eq_none_iff.mp hkey
        have hprinted : Printed (c :: text) := hguard.2
        rw [List.cons_append, onward_cons hprinted.ne_newline hnone]
        rcases ih text.length (by omega) hguard.tail (some c) rfl with h | h
        · exact Or.inl h
        · obtain ⟨exit, before', part', hexit, hpart, h⟩ := h
          exact Or.inr ⟨exit, before', part', hexit, hpart.trans (List.suffix_cons c text), h⟩
      | some read =>
        rw [hreading] at hkey
        cases read with
        | leaves exit =>
          refine Or.inr ⟨exit, before, c :: text, rfl, List.suffix_refl _, hreading, ?_⟩
          exact (zero_add _).symm
        | within name value rest =>
          obtain ⟨front, rfl⟩ := exists_front_of_within hreading
          have hskip : (front ++ rest).length - rest.length = front.length := by
            rw [List.length_append, Nat.add_sub_cancel]
          have hrest : Guarded rest := hguard.suffix (List.suffix_append (c :: front) rest)
          have hprinted : Printed (c :: front) := fun d hd => hguard.2 d (by
            rw [← List.cons_append]
            exact List.mem_append_left _ hd)
          have hline : firstLine (c :: front ++ (rest ++ '"' :: (o ++ quoted row)))
              = c :: front ++ firstLine (rest ++ '"' :: (o ++ quoted row)) := by
            have hwhole := firstLine_printed hguard.2 (o ++ quoted row)
            rw [firstLine_printed hrest.2]
            simpa using hwhole
          have htext : c :: (front ++ rest) ++ '"' :: (o ++ quoted row)
              = c :: front ++ (rest ++ '"' :: (o ++ quoted row)) := by
            simp
          have hsum : cookieKv.onward isWord cookieKind before
                (c :: (front ++ rest) ++ '"' :: (o ++ quoted row))
              = tells name value + cookieKv.onward isWord cookieKind (lastOr (some c) front)
                (rest ++ '"' :: (o ++ quoted row)) := by
            rw [htext, onward_key hline (List.cons_ne_nil _ _),
              lastOr_cons]
            · rfl
            · rw [← htext, hkey, firstLine_printed hrest.2]
              rfl
          dsimp only
          rw [hsum, hskip, walk_append]
          rw [List.length_append] at hlength
          rcases ih rest.length (by omega) hrest (lastOr (some c) front) rfl with
            ⟨hnone, h⟩ | ⟨exit, before', part', hexit, hpart, hread, h⟩
          · exact Or.inl ⟨hnone, by rw [h, add_assoc]⟩
          · refine Or.inr ⟨exit, before', part', hexit, ?_, hread, by rw [h, add_assoc]⟩
            exact hpart.trans (List.suffix_append (c :: front) rest)

end Walk

end TiktokSigner.FixtureHygiene
