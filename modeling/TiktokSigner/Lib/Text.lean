import Mathlib.Algebra.Ring.Nat
import Mathlib.Data.List.Basic
import Mathlib.Data.List.DropRight

/-!
# Cutting text

Text as a list of characters (or bytes), cut at a prefix or at the first
separator, or trimmed at both ends, as the string functions of most
languages do.
-/

namespace TiktokSigner.Text

variable {α : Type} [DecidableEq α]

/-- What follows a prefix. -/
def stripPrefix (pre text : List α) : Option (List α) :=
  if pre.isPrefixOf text then some (text.drop pre.length) else none

theorem stripPrefix_eq_some {pre text rest : List α} :
    stripPrefix pre text = some rest ↔ text = pre ++ rest := by
  rw [stripPrefix]
  constructor
  · intro h
    split_ifs at h with hprefix
    obtain ⟨tail, rfl⟩ := List.isPrefixOf_iff_prefix.mp hprefix
    rw [List.drop_left, Option.some.injEq] at h
    rw [h]
  · rintro rfl
    rw [if_pos (List.isPrefixOf_iff_prefix.mpr (List.prefix_append _ _)), List.drop_left]

/-- What stands before and after the first separator. -/
def splitOnce (sep : α) : List α → Option (List α × List α)
  | [] => none
  | a :: text =>
      if a = sep then some ([], text)
      else (splitOnce sep text).map fun (before, after) => (a :: before, after)

theorem splitOnce_eq_some {sep : α} : ∀ {text before after : List α},
    splitOnce sep text = some (before, after) ↔ text = before ++ sep :: after ∧ sep ∉ before
  | [], before, after => by simp [splitOnce]
  | a :: text, before, after => by
      rw [splitOnce]
      by_cases h : a = sep
      · rw [if_pos h]
        constructor
        · intro hsplit
          obtain ⟨rfl, rfl⟩ := Prod.mk.inj (Option.some.inj hsplit)
          exact ⟨by rw [h, List.nil_append], List.not_mem_nil⟩
        · rintro ⟨htext, hbefore⟩
          cases before with
          | nil => rw [(List.cons.inj htext).2]
          | cons b before =>
            rw [List.cons_append] at htext
            exact absurd (by rw [← (List.cons.inj htext).1, h]; exact List.mem_cons_self) hbefore
      · rw [if_neg h, Option.map_eq_some_iff]
        constructor
        · rintro ⟨⟨before', after'⟩, hsplit, hpair⟩
          obtain ⟨rfl, hnot⟩ := splitOnce_eq_some.mp hsplit
          obtain ⟨rfl, rfl⟩ := Prod.mk.inj hpair
          refine ⟨rfl, fun hmem => ?_⟩
          rcases List.mem_cons.mp hmem with rfl | hmem
          · exact h rfl
          · exact hnot hmem
        · rintro ⟨htext, hbefore⟩
          cases before with
          | nil => exact absurd (List.cons.inj htext).1 h
          | cons b before =>
            rw [List.cons_append] at htext
            obtain ⟨rfl, rfl⟩ := List.cons.inj htext
            exact ⟨(before, after), splitOnce_eq_some.mpr
              ⟨rfl, fun hmem => hbefore (List.mem_cons_of_mem _ hmem)⟩, rfl⟩

/-- What stands before and after the first place where a text stands. -/
def splitOnceText (sep : List α) : List α → Option (List α × List α)
  | [] => if sep = [] then some ([], []) else none
  | a :: text =>
      match stripPrefix sep (a :: text) with
      | some after => some ([], after)
      | none => (splitOnceText sep text).map fun (before, after) => (a :: before, after)

theorem splitOnceText_eq_none {sep text : List α} (h : ¬sep <:+: text) :
    splitOnceText sep text = none := by
  induction text with
  | nil => exact if_neg fun hsep : sep = [] => h (hsep ▸ List.nil_infix)
  | cons a text ih =>
    have hstrip : stripPrefix sep (a :: text) = none :=
      if_neg fun hprefix => h (List.isPrefixOf_iff_prefix.mp hprefix).isInfix
    rw [splitOnceText, hstrip, ih fun hinfix => h (List.infix_cons hinfix)]
    rfl

/-- A part up to the first separator, and what follows it if there is one. -/
def cut (sep : α) (text : List α) : List α × Option (List α) :=
  match splitOnce sep text with
  | some (before, after) => (before, some after)
  | none => (text, none)

theorem cut_of_notMem {sep : α} {text : List α} (h : sep ∉ text) : cut sep text = (text, none) := by
  rw [cut]
  cases hsplit : splitOnce sep text with
  | none => rfl
  | some parts =>
    obtain ⟨htext, -⟩ := splitOnce_eq_some.mp hsplit
    rw [htext] at h
    exact absurd (List.mem_append_right _ List.mem_cons_self) h

theorem cut_fst_of_snd_eq_none {sep : α} {text : List α} (h : (cut sep text).2 = none) :
    (cut sep text).1 = text := by
  rw [cut] at *
  cases hsplit : splitOnce sep text with
  | none => rfl
  | some parts => rw [hsplit] at h; cases h

omit [DecidableEq α] in
theorem notMem_of_mem_splitOn [BEq α] [LawfulBEq α] {sep : α} {text part : List α}
    (h : part ∈ text.splitOn sep) : sep ∉ part := by
  induction text generalizing part with
  | nil =>
    rw [List.splitOn_nil] at h
    obtain rfl := List.mem_singleton.mp h
    exact List.not_mem_nil
  | cons c text ih =>
    rw [List.splitOn_cons_eq_if_modifyHead] at h
    split_ifs at h with hc
    · rcases List.mem_cons.mp h with rfl | h
      · exact List.not_mem_nil
      · exact ih h
    · cases hparts : text.splitOn sep with
      | nil =>
        rw [hparts] at h
        cases h
      | cons first parts =>
        rw [hparts, List.modifyHead_cons] at h
        rcases List.mem_cons.mp h with rfl | h
        · rw [List.mem_cons, not_or]
          exact ⟨fun heq => hc (by simp [heq]), ih (hparts ▸ List.mem_cons_self)⟩
        · exact ih (hparts ▸ List.mem_cons_of_mem _ h)

/-! ## Both ends -/

section

variable {β : Type} {p : β → Bool}

/-- The text without what stands around it. -/
def trim (p : β → Bool) (text : List β) : List β := (text.dropWhile p).rdropWhile p

theorem trim_split (p : β → Bool) (text : List β) :
    ∃ front back, text = front ++ trim p text ++ back ∧ (∀ b ∈ front, p b = true) ∧
      ∀ b ∈ back, p b = true := by
  refine ⟨text.takeWhile p, (text.dropWhile p).rtakeWhile p, ?_, ?_, ?_⟩
  · rw [trim, List.append_assoc, List.rdropWhile_append_rtakeWhile, List.takeWhile_append_dropWhile]
  · exact fun b hb => List.mem_takeWhile_imp hb
  · exact fun b hb => List.mem_rtakeWhile_imp hb

theorem dropWhile_eq_self {text : List β} (h : ∀ b ∈ text, p b = false) :
    text.dropWhile p = text := by
  cases text with
  | nil => rfl
  | cons b text => rw [List.dropWhile_cons_of_neg (by simp [h b List.mem_cons_self])]

/-- What is trimmed does not matter. -/
theorem trim_append {front mid back : List β} (hfront : ∀ b ∈ front, p b = true)
    (hback : ∀ b ∈ back, p b = true) (hmid : ∀ b ∈ mid, p b = false) :
    trim p (front ++ mid ++ back) = mid := by
  have hrdrop : ∀ text : List β, (text ++ back).rdropWhile p = text.rdropWhile p := by
    intro text
    rw [List.rdropWhile, List.rdropWhile, List.reverse_append, List.dropWhile_append_of_pos]
    simpa using hback
  have hself : mid.rdropWhile p = mid := by
    rw [List.rdropWhile, dropWhile_eq_self (by simpa using hmid), List.reverse_reverse]
  rw [trim, List.append_assoc, List.dropWhile_append_of_pos hfront]
  cases mid with
  | nil =>
    rw [List.nil_append, List.dropWhile_eq_nil_iff.mpr hback, List.rdropWhile_nil]
  | cons b mid =>
    rw [List.cons_append, List.dropWhile_cons_of_neg (by simp [hmid b List.mem_cons_self]),
      ← List.cons_append, hrdrop, hself]

/-- Nothing stands around it. -/
def Trimmed (p : β → Bool) (text : List β) : Prop :=
  (∀ b ∈ text.head?, p b = false) ∧ ∀ b ∈ text.getLast?, p b = false

theorem trim_of_trimmed {text : List β} (h : Trimmed p text) : trim p text = text := by
  have hfront : text.dropWhile p = text := by
    cases text with
    | nil => rfl
    | cons b text => exact List.dropWhile_cons_of_neg (by simp [h.1 b rfl])
  rw [trim, hfront, List.rdropWhile]
  cases hrev : text.reverse with
  | nil => rw [List.dropWhile_nil, ← hrev, List.reverse_reverse]
  | cons b back =>
    have hlast : p b = false := by
      refine h.2 b ?_
      rw [← List.head?_reverse, hrev]
      rfl
    rw [List.dropWhile_cons_of_neg (by simp [hlast]), ← hrev, List.reverse_reverse]

theorem trim_append_left {front : List β} (hfront : ∀ b ∈ front, p b = true) (text : List β) :
    trim p (front ++ text) = trim p text := by
  rw [trim, List.dropWhile_append_of_pos hfront]
  rfl

theorem trimmed_trim (p : β → Bool) (text : List β) : Trimmed p (trim p text) := by
  constructor
  · intro b hb
    obtain ⟨rest, hrest⟩ := List.rdropWhile_prefix p (text.dropWhile p)
    have hhead : (text.dropWhile p).head? = some b := by
      rw [← hrest, List.head?_append_of_ne_nil]
      · exact hb
      · rintro hnil
        rw [trim, hnil] at hb
        cases hb
    have hnot := List.head?_dropWhile_not p text
    rw [hhead] at hnot
    simpa using hnot
  · intro b hb
    have hne : trim p text ≠ [] := by
      rintro hnil
      rw [hnil] at hb
      cases hb
    have hlast := List.rdropWhile_last_not p (text.dropWhile p) hne
    rw [List.getLast?_eq_some_getLast hne] at hb
    obtain rfl := Option.some.inj hb
    exact Bool.eq_false_iff.mpr hlast

theorem mem_of_mem_trim {text : List β} {b : β} (h : b ∈ trim p text) : b ∈ text :=
  (List.dropWhile_sublist p).subset ((List.rdropWhile_prefix p _).subset h)

end

/-! ## Characters -/

/-- The property `White_Space` of Unicode. -/
def isWhitespace (c : Char) : Bool :=
  let n := c.toNat
  (9 ≤ n && n ≤ 13) || n == 0x20 || n == 0x85 || n == 0xa0 || n == 0x1680 ||
    (0x2000 ≤ n && n ≤ 0x200a) || n == 0x2028 || n == 0x2029 || n == 0x202f || n == 0x205f ||
    n == 0x3000

def toAsciiLowercase (text : List Char) : List Char := text.map Char.toLower

/-- The one text stands in the other. -/
def contains (part text : List Char) : Bool := text.tails.any part.isPrefixOf

/-- The length in bytes of UTF-8. -/
def byteLen (text : List Char) : Nat := (text.map Char.utf8Size).sum

theorem byteLen_cons (c : Char) (text : List Char) :
    byteLen (c :: text) = c.utf8Size + byteLen text := rfl

theorem byteLen_eq_zero {text : List Char} : byteLen text = 0 ↔ text = [] := by
  cases text with
  | nil => exact iff_of_true rfl rfl
  | cons c text =>
    have hc := c.utf8Size_pos
    refine iff_of_false ?_ (List.cons_ne_nil _ _)
    rw [byteLen_cons]
    omega

/-! ## Lines -/

/-- The lines of a text. A line feed ends a line, and a carriage return
before it belongs to the end. -/
def lines (text : List Char) : List (List Char) :=
  let parts := text.splitOn '\n'
  parts.dropLast.map (fun line => if line.getLast? = some '\r' then line.dropLast else line) ++
    parts.getLast?.toList.filter (· ≠ [])

/-- The line a text begins with. -/
def firstLine : List Char → List Char
  | [] => []
  | c :: text =>
      if c = '\n' then []
      else if c = '\r' ∧ text.head? = some '\n' then []
      else c :: firstLine text

/-- What follows the first line. -/
def laterText : List Char → List Char
  | [] => []
  | c :: text => if c = '\n' then text else laterText text

theorem lines_append_newline {line : List Char} (h : '\n' ∉ line) (rest : List Char) :
    lines (line ++ '\n' :: rest)
      = (if line.getLast? = some '\r' then line.dropLast else line) :: lines rest := by
  obtain ⟨part, parts, hparts⟩ := List.exists_cons_of_ne_nil (List.splitOn_ne_nil '\n' rest)
  rw [lines, lines, List.splitOn_append_cons_self_of_not_mem h, hparts]
  rfl

theorem lines_of_notMem {text : List Char} (h : '\n' ∉ text) :
    lines text = if text = [] then [] else [text] := by
  rw [lines, List.splitOn_eq_singleton h]
  split_ifs with hempty
  · subst hempty
    rfl
  · exact List.filter_eq_self.mpr fun part hpart => by
      rw [List.mem_singleton.mp hpart]
      exact decide_eq_true hempty

theorem firstLine_cons {c : Char} (hc : c ≠ '\n') (hreturn : c ≠ '\r') (text : List Char) :
    firstLine (c :: text) = c :: firstLine text := by
  rw [firstLine, if_neg hc, if_neg fun h => hreturn h.1]

theorem firstLine_of_notMem {text : List Char} (h : '\n' ∉ text) : firstLine text = text := by
  induction text with
  | nil => rfl
  | cons c text ih =>
    obtain ⟨hc, htext⟩ := List.ne_and_not_mem_of_not_mem_cons h
    have hhead : text.head? ≠ some '\n' := fun hhead => htext (List.mem_of_mem_head? hhead)
    rw [firstLine, if_neg (Ne.symm hc), if_neg fun h => hhead h.2, ih htext]

theorem firstLine_append {front text : List Char} (hfront : '\n' ∉ front)
    (htext : text.head? ≠ some '\n') : firstLine (front ++ text) = front ++ firstLine text := by
  induction front with
  | nil => rfl
  | cons c front ih =>
    obtain ⟨hc, hfront⟩ := List.ne_and_not_mem_of_not_mem_cons hfront
    have hnext : (front ++ text).head? ≠ some '\n' := by
      cases front with
      | nil => exact htext
      | cons d front => exact fun h => hfront (by rw [← Option.some.inj h]; exact List.mem_cons_self)
    rw [List.cons_append, firstLine, if_neg (Ne.symm hc), if_neg fun h => hnext h.2, ih hfront]
    rfl

theorem firstLine_append_newline {line : List Char} (h : '\n' ∉ line) (rest : List Char) :
    firstLine (line ++ '\n' :: rest)
      = if line.getLast? = some '\r' then line.dropLast else line := by
  induction line with
  | nil => rfl
  | cons c line ih =>
    obtain ⟨hc, hline⟩ := List.ne_and_not_mem_of_not_mem_cons h
    rw [List.cons_append, firstLine, if_neg (Ne.symm hc), ih hline]
    cases line with
    | nil =>
      by_cases hreturn : c = '\r'
      · simp [hreturn]
      · simp [hreturn]
    | cons d line =>
      have hd : '\n' ≠ d := (List.ne_and_not_mem_of_not_mem_cons hline).1
      rw [if_neg fun h => hd (Option.some.inj h.2).symm, List.getLast?_cons_cons,
        List.dropLast_cons_of_ne_nil (List.cons_ne_nil _ _)]
      split_ifs <;> rfl

theorem newline_notMem_firstLine (text : List Char) : '\n' ∉ firstLine text := by
  induction text with
  | nil => exact List.not_mem_nil
  | cons c text ih =>
    rw [firstLine]
    split_ifs with hc
    · exact List.not_mem_nil
    · exact List.not_mem_nil
    · exact fun h => (List.mem_cons.mp h).elim (fun h => hc h.symm) ih

/-- What stands at the beginning of the first line stands at the beginning. -/
theorem exists_of_firstLine {text front back : List Char} (h : firstLine text = front ++ back) :
    ∃ rest, text = front ++ rest ∧ firstLine rest = back := by
  induction front generalizing text with
  | nil => exact ⟨text, rfl, h⟩
  | cons c front ih =>
    cases text with
    | nil => exact absurd h (List.cons_ne_nil _ _).symm
    | cons d text =>
      rw [firstLine] at h
      split_ifs at h
      · exact absurd h (List.cons_ne_nil _ _).symm
      · exact absurd h (List.cons_ne_nil _ _).symm
      · obtain ⟨rfl, htail⟩ := List.cons.inj h
        obtain ⟨rest, rfl, hrest⟩ := ih htail
        exact ⟨rest, rfl, hrest⟩

theorem laterText_of_notMem {text : List Char} (h : '\n' ∉ text) : laterText text = [] := by
  induction text with
  | nil => rfl
  | cons c text ih =>
    obtain ⟨hc, htext⟩ := List.ne_and_not_mem_of_not_mem_cons h
    rw [laterText, if_neg (Ne.symm hc), ih htext]

theorem laterText_append_newline {line : List Char} (h : '\n' ∉ line) (rest : List Char) :
    laterText (line ++ '\n' :: rest) = rest := by
  induction line with
  | nil => rfl
  | cons c line ih =>
    obtain ⟨hc, hline⟩ := List.ne_and_not_mem_of_not_mem_cons h
    rw [List.cons_append, laterText, if_neg (Ne.symm hc), ih hline]

end TiktokSigner.Text
