import Mathlib.Algebra.BigOperators.Group.List.Basic
import TiktokSigner.Lib.Regex
import TiktokSigner.Lib.Text

/-!
# Matches line by line

The matches of a pattern in a text that is scanned line by line, weighed in
a commutative monoid. `onward` is what is still to come from a place on: on
the rest of the line and on the lines after it. A place without a match is
passed (`onward_cons`), a match is weighed and left behind (`onward_match`),
and a line feed begins anew (`onward_newline`).
-/

namespace TiktokSigner.Text

variable {M : Type} [AddCommMonoid M]

/-- A sum over the lines, taken line by line. An empty line adds nothing. -/
theorem sum_lines {f : List Char → M} (hf : f [] = 0)
    (text : List Char) :
    ((lines text).map f).sum = f (firstLine text) + ((lines (laterText text)).map f).sum := by
  by_cases h : '\n' ∈ text
  · obtain ⟨line, rest, rfl, hline⟩ := List.eq_append_cons_of_mem h
    rw [lines_append_newline hline, firstLine_append_newline hline, laterText_append_newline hline,
      List.map_cons, List.sum_cons]
  · rw [lines_of_notMem h, firstLine_of_notMem h, laterText_of_notMem h]
    have hnil : lines [] = [] := rfl
    rw [hnil, List.map_nil, List.sum_nil, add_zero]
    split_ifs with hempty
    · rw [hempty, hf]
      rfl
    · simp

end TiktokSigner.Text

namespace Regex.Pattern

open TiktokSigner.Text

variable {M : Type} [AddCommMonoid M] (isWord : Char → Bool) (weigh : Read → M) (a : Pattern)

/-- What the matches from a place on weigh. -/
def tally (before : Option Char) (text : List Char) : M :=
  ((a.scan isWord 0 before text).map weigh).sum

/-- What the matches on all lines weigh. -/
def tallyLines (text : List Char) : M :=
  ((lines text).map fun line => a.tally isWord weigh none line).sum

/-- What the matches on the rest of a line and on the lines after it weigh. -/
def onward (before : Option Char) (text : List Char) : M :=
  a.tally isWord weigh before (firstLine text) + a.tallyLines isWord weigh (laterText text)

section Onward

variable {isWord : Char → Bool} {weigh : Read → M} {a : Pattern} {before : Option Char}
  {text : List Char} {r : Read}

theorem tally_nil : a.tally isWord weigh before [] = 0 := rfl

theorem tally_cons (c : Char) (hnone : a.first isWord before (c :: text) = none) :
    a.tally isWord weigh before (c :: text) = a.tally isWord weigh (some c) text := by
  rw [tally, scan_cons c hnone]
  rfl

theorem tally_match (hfirst : a.first isWord before text = some r) (hne : r.text ≠ []) :
    a.tally isWord weigh before text
      = weigh r + a.tally isWord weigh (lastOr before r.text) r.rest := by
  rw [tally, scan_of_first hfirst hne, List.map_cons, List.sum_cons]
  rfl

theorem tallyLines_eq (text : List Char) :
    a.tallyLines isWord weigh text = a.onward isWord weigh none text :=
  sum_lines tally_nil text

theorem onward_newline (text : List Char) :
    a.onward isWord weigh before ('\n' :: text) = a.onward isWord weigh none text := by
  rw [← tallyLines_eq, onward, firstLine, if_pos rfl, laterText, if_pos rfl, tally_nil, zero_add]

theorem onward_nil : a.onward isWord weigh before [] = 0 := by
  rw [onward, firstLine, tally_nil, zero_add]
  rfl

/-- A place where no match begins. -/
theorem onward_cons {c : Char} (hc : c ≠ '\n')
    (hnone : a.first isWord before (c :: firstLine text) = none) :
    a.onward isWord weigh before (c :: text) = a.onward isWord weigh (some c) text := by
  rw [onward, onward, firstLine, if_neg hc, laterText, if_neg hc]
  split_ifs with hreturn
  · obtain ⟨rest, rfl⟩ := List.head?_eq_some_iff.mp hreturn.2
    rfl
  · rw [tally_cons c hnone]

theorem laterText_append {front : List Char} (hfront : '\n' ∉ front) (text : List Char) :
    laterText (front ++ text) = laterText text := by
  induction front with
  | nil => rfl
  | cons c front ih =>
    obtain ⟨hc, hfront⟩ := List.ne_and_not_mem_of_not_mem_cons hfront
    rw [List.cons_append, laterText, if_neg (Ne.symm hc), ih hfront]

/-- A match on the rest of the line, and what follows it. -/
theorem onward_match (weigh : Read → M) (hfirst : a.first isWord before (firstLine text) = some r)
    (hne : r.text ≠ []) :
    ∃ rest, text = r.text ++ rest ∧ firstLine rest = r.rest ∧
      a.onward isWord weigh before text
        = weigh r + a.onward isWord weigh (lastOr before r.text) rest := by
  have hread := text_append_rest (List.mem_of_mem_head? hfirst)
  obtain ⟨rest, htext, hrest⟩ := exists_of_firstLine hread.symm
  refine ⟨rest, htext, hrest, ?_⟩
  have hline : '\n' ∉ r.text := by
    intro hmem
    have hmine := newline_notMem_firstLine text
    rw [← hread] at hmine
    exact hmine (List.mem_append_left _ hmem)
  rw [onward, onward, tally_match hfirst hne, hrest, add_assoc]
  rw [htext, laterText_append hline]

/-- The same where it is known what the groups take and what is left. -/
theorem onward_key {front rest : List Char} {groups : List (List Char)}
    (hline : firstLine (front ++ rest) = front ++ firstLine rest) (hne : front ≠ [])
    (hfirst : (a.first isWord before (firstLine (front ++ rest))).map Read.key
      = some (groups, firstLine rest)) :
    a.onward isWord weigh before (front ++ rest)
      = weigh ⟨front, groups, firstLine rest⟩ +
        a.onward isWord weigh (lastOr before front) rest := by
  obtain ⟨r, hr, hkey⟩ := Option.map_eq_some_iff.mp hfirst
  obtain ⟨hgroups, hrest⟩ := Prod.mk.inj hkey
  have htext := text_append_rest (List.mem_of_mem_head? hr)
  rw [hline, hrest] at htext
  have hfront : r.text = front := List.append_cancel_right htext
  obtain ⟨more, hmore, -, hsum⟩ := onward_match weigh hr (hfront ▸ hne)
  rw [hfront] at hmore hsum
  rw [hsum, ← List.append_cancel_left hmore, ← hgroups, ← hrest]
  rw [← hfront]

end Onward

end Regex.Pattern
