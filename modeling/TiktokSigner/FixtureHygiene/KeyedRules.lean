import Mathlib.Data.List.DropRight
import TiktokSigner.FixtureHygiene.Rows
import TiktokSigner.FixtureHygiene.Secrecy

/-!
# Rules about a key and what follows it

Three patterns look for a name in quotes, a mark behind it and perhaps a
value in quotes behind that. The name stands at the end of a literal
(`first_keyed`), so a match needs the mark and the value on the same line,
and there is a layout without any (`onward_broken`). What is reported is
therefore the same in every layout only where nothing can be reported
(`onward_quiet`, `onward_loud`).
-/

namespace TiktokSigner.FixtureHygiene

open Regex Regex.Pattern Text

/-- A name in quotes, a mark and what follows it. -/
def keyed (name : Pattern) (mark : Char → Bool) (tail : Pattern) : Pattern :=
  seq quote (seq name (seq quote (seq blanks (seq (one mark) tail))))

/-- The pattern reads the texts of a kind, wherever they stand, and its
groups are known from the text. -/
def Takes (isWord : Char → Bool) (a : Pattern) (P : List Char → Prop)
    (groups : List Char → List (List Char)) : Prop :=
  ∀ before text r, r ∈ a.reads isWord before text ↔
    P r.text ∧ r.groups = groups r.text ∧ r.text ++ r.rest = text

/-- The text lies in a class and has a length at least. -/
def Fits (p : Char → Bool) (least : Nat) (v : List Char) : Prop :=
  (∀ c ∈ v, p c = true) ∧ least ≤ v.length

theorem takes_oneOf (isWord : Char → Bool) (sought : List String) :
    Takes isWord (group (oneOf sought)) (Named sought) fun text => [text] := by
  intro before text r
  rw [mem_reads_group, reads_oneOf]
  constructor
  · rintro ⟨read, hread, rfl⟩
    obtain ⟨w, hw, hstrip⟩ := List.mem_filterMap.mp hread
    obtain ⟨hfold, hgroups, htext⟩ := stripFolded_eq_some.mp hstrip
    exact ⟨⟨w, hw, hfold⟩, congrArg _ hgroups, htext⟩
  · rintro ⟨⟨w, hw, hfold⟩, hgroups, htext⟩
    refine ⟨⟨r.text, [], r.rest⟩, List.mem_filterMap.mpr ⟨w, hw, ?_⟩, ?_⟩
    · exact stripFolded_eq_some.mpr ⟨hfold, rfl, htext⟩
    · exact congrArg (Read.mk r.text · r.rest) hgroups.symm

theorem takes_word (isWord : Char → Bool) (w : String) :
    Takes isWord (word w.toList) (Named [w]) fun _ => [] := by
  intro before text r
  rw [reads_word, Option.mem_toList, stripFolded_eq_some]
  simp only [Named, List.mem_singleton, exists_eq_left]

theorem takes_run (isWord : Char → Bool) (p : Char → Bool) (least : Nat) :
    Takes isWord (group (run p least)) (Fits p least) fun text => [text] := by
  intro before text r
  rw [mem_reads_group]
  constructor
  · rintro ⟨read, hread, rfl⟩
    obtain ⟨hrun, hlen⟩ := List.mem_filter.mp hread
    obtain ⟨hp, hgroups, htext⟩ := mem_runs.mp hrun
    exact ⟨⟨hp, of_decide_eq_true hlen⟩, congrArg _ hgroups, htext⟩
  · rintro ⟨⟨hp, hlen⟩, hgroups, htext⟩
    refine ⟨⟨r.text, [], r.rest⟩, ?_, congrArg (Read.mk r.text · r.rest) hgroups.symm⟩
    exact List.mem_filter.mpr ⟨mem_runs.mpr ⟨hp, rfl, htext⟩, decide_eq_true hlen⟩

theorem Fits.quote_notMem {p : Char → Bool} {least : Nat} (hp : p '"' = false) {v : List Char}
    (h : Fits p least v) : '"' ∉ v := by
  intro hmem
  have hquote := h.1 _ hmem
  rw [hp] at hquote
  cases hquote

/-! ## One part after another -/

section Parts

variable {isWord : Char → Bool} {b : Pattern} {before : Option Char} {text : List Char}

theorem first_quote (text : List Char) :
    ((seq quote b).first isWord before ('"' :: text)).map Read.key
      = (b.first isWord (some '"') text).map Read.key := by
  have hquote : isOneOf "\"" '"' = true := rfl
  rw [quote, first_seq_one, if_pos hquote, map_key_append rfl]

theorem first_quote_none (h : ∀ c ∈ text.head?, isQuote c = false) :
    (seq quote b).first isWord before text = none := by
  cases text with
  | nil => exact first_seq_one_nil
  | cons c text =>
    rw [quote, first_seq_one, if_neg]
    exact Bool.eq_false_iff.mp (h c rfl)

theorem first_quote_nil : (seq quote b).first isWord before [] = none := first_seq_one_nil

/-- A pattern behind blanks. -/
theorem first_blanks (hb : b.Refuses isWord isWhitespace) (before : Option Char)
    (text : List Char) : ∃ before', ((seq blanks b).first isWord before text).map Read.key
      = (b.first isWord before' (text.dropWhile isWhitespace)).map Read.key :=
  ⟨_, by rw [blanks, first_seq_run hb, map_key_append rfl]⟩

theorem refuses_quote {p : Char → Bool} (hp : ∀ c, p c = true → isQuote c = false) :
    (seq quote b).Refuses isWord p :=
  (refuses_one hp).seq b

theorem isQuote_of_isWhitespace {c : Char} (h : isWhitespace c = true) : isQuote c = false := by
  rw [Bool.eq_false_iff]
  intro hquote
  rw [isQuote_iff.mp hquote] at h
  cases h

end Parts

/-- Where only the ways that read one text go on. -/
theorem findSome?_text {reads : List Read} {f : Read → Option Read} {w : List Char}
    {key : Option (List (List Char) × List Char)}
    (hsame : ∀ r ∈ reads, r.text = w → (f r).map Read.key = key)
    (hother : ∀ r ∈ reads, r.text ≠ w → f r = none) :
    (reads.findSome? f).map Read.key = key ∨ ∀ r ∈ reads, r.text ≠ w := by
  induction reads with
  | nil => exact Or.inr fun _ h => nomatch h
  | cons r reads ih =>
    obtain ⟨hr, hsame⟩ := List.forall_mem_cons.mp hsame
    obtain ⟨hr', hother⟩ := List.forall_mem_cons.mp hother
    rw [List.findSome?_cons]
    by_cases hw : r.text = w
    · refine Or.inl ?_
      cases hf : f r with
      | some s => rw [← hr hw, hf]
      | none =>
        have hnone : key = none := by
          rw [← hr hw, hf]
          rfl
        rcases ih hsame hother with h | h
        · exact h
        · rw [hnone, List.findSome?_eq_none_iff.mpr fun s hs => hother s hs (h s hs)]
          rfl
    · rw [hr' hw]
      exact (ih hsame hother).imp_right fun h => List.forall_mem_cons.mpr ⟨hw, h⟩

/-! ## Up to a quote -/

section Before

variable {isWord : Char → Bool} {a b : Pattern} {P : List Char → Prop}
  {groups : List Char → List (List Char)} {before : Option Char} {w rest : List Char}

theorem before_quote {r : Read} (hr : '"' ∉ r.text) (hw : '"' ∉ w)
    (htext : r.text ++ r.rest = w ++ '"' :: rest) :
    r.text = w ∧ r.rest = '"' :: rest ∨ r.text ≠ w ∧ ∀ c ∈ r.rest.head?, isQuote c = false := by
  have hedge : Edge ('"' :: rest) := fun c hc => (Option.some.inj hc).symm
  obtain ⟨more, rfl, hrest⟩ := append_of_notMem hr hedge htext
  cases more with
  | nil => exact Or.inl ⟨(List.append_nil _).symm, hrest⟩
  | cons d more =>
    refine Or.inr ⟨fun h => ?_, fun c hc => ?_⟩
    · exact absurd (List.self_eq_append_right.mp h) (List.cons_ne_nil _ _)
    · rw [hrest] at hc
      obtain rfl := Option.some.inj hc
      have hne : d ≠ '"' := by
        rintro rfl
        exact hw (List.mem_append_right _ List.mem_cons_self)
      exact Bool.eq_false_iff.mpr fun h => hne (isQuote_iff.mp h)

/-- What a pattern takes that a quote must follow. -/
theorem Takes.first (htakes : Takes isWord a P groups) (hquote : ∀ text, P text → '"' ∉ text)
    (hw : '"' ∉ w) (hP : P w) :
    ((seq a (seq quote b)).first isWord before (w ++ '"' :: rest)).map Read.key
      = (b.first isWord (some '"') rest).map fun r => (groups w ++ r.groups, r.rest) := by
  rw [first_seq]
  refine (findSome?_text (w := w) ?_ ?_).resolve_right fun h => ?_
  · intro r hr htext
    obtain ⟨hmine, hgroups, hread⟩ := (htakes _ _ r).mp hr
    rcases before_quote (hquote _ hmine) hw hread with ⟨-, hrest⟩ | ⟨hne, -⟩
    · have hopen : isOneOf "\"" '"' = true := rfl
      rw [hrest, quote, first_seq_one, if_pos hopen, Option.map_map, Option.map_map]
      refine Option.map_congr fun s _ => ?_
      rw [htext] at hgroups
      exact congrArg (· ++ s.groups, s.rest) hgroups
    · exact absurd htext hne
  · intro r hr htext
    obtain ⟨hmine, -, hread⟩ := (htakes _ _ r).mp hr
    rcases before_quote (hquote _ hmine) hw hread with ⟨h, -⟩ | ⟨-, hrest⟩
    · exact absurd h htext
    · rw [first_quote_none hrest]
      rfl
  · exact h ⟨w, groups w, '"' :: rest⟩ ((htakes _ _ _).mpr ⟨hP, rfl, rfl⟩) rfl

theorem Takes.first_none (htakes : Takes isWord a P groups) (hquote : ∀ text, P text → '"' ∉ text)
    (hw : '"' ∉ w) (hP : ¬P w) :
    (seq a (seq quote b)).first isWord before (w ++ '"' :: rest) = none := by
  rw [first_seq, List.findSome?_eq_none_iff]
  intro r hr
  obtain ⟨hmine, -, hread⟩ := (htakes _ _ r).mp hr
  rcases before_quote (hquote _ hmine) hw hread with ⟨htext, -⟩ | ⟨-, hrest⟩
  · exact absurd (htext ▸ hmine) hP
  · rw [first_quote_none hrest]
    rfl

end Before

/-! ## Behind the closing quote -/

section Behind

variable {isWord : Char → Bool} {mark : Char → Bool} {tail : Pattern} {before : Option Char}
  {o text : List Char}

theorem squeeze_mark_cons (hmark : ∀ c, mark c = true → c = ':' ∨ c = ',') {m : Char}
    (hm : mark m = true) (o : List Char) : squeeze (m :: o) = m :: squeeze o := by
  rcases hmark m hm with rfl | rfl <;> rfl

theorem not_mark_newline (hmark : ∀ c, mark c = true → c = ':' ∨ c = ',') :
    ¬mark '\n' = true := by
  intro h
  rcases hmark _ h with h | h
  · exact absurd h (by decide)
  · exact absurd h (by decide)

theorem refuses_mark (hmark : ∀ c, mark c = true → c = ':' ∨ c = ',') (b : Pattern) :
    (seq (one mark) b).Refuses isWord isWhitespace := by
  refine (refuses_one fun c hc => Bool.eq_false_iff.mpr fun h => ?_).seq b
  rcases hmark c h with rfl | rfl <;> cases hc

theorem firstLine_mark (hmark : ∀ c, mark c = true → c = ':' ∨ c = ',') {m : Char}
    (hm : mark m = true) (rest : List Char) : firstLine (m :: rest) = m :: firstLine rest := by
  rcases hmark m hm with rfl | rfl <;> exact firstLine_cons (by decide) (by decide) rest

theorem first_mark (hmark : ∀ c, mark c = true → c = ':' ∨ c = ',') {blank : List Char} {m : Char}
    (hblank : ∀ c ∈ blank, JsonText.isBlank c = true) (hline : '\n' ∉ blank) (hm : mark m = true)
    (rest : List Char) :
    ∃ before', ((seq blanks (seq (one mark) tail)).first isWord before
        (firstLine (blank ++ m :: rest))).map Read.key
      = (tail.first isWord before' (firstLine rest)).map Read.key := by
  have hspace : ∀ c ∈ (m :: rest).head?, isWhitespace c = false := by
    intro c hc
    obtain rfl := Option.some.inj hc
    rcases hmark m hm with rfl | rfl <;> rfl
  have hfirst := firstLine_mark hmark hm rest
  obtain ⟨before', h⟩ := first_blanks (refuses_mark hmark tail) before
    (firstLine (blank ++ m :: rest))
  refine ⟨some m, ?_⟩
  rw [h, dropWhile_blanks hblank hline hspace, hfirst, first_seq_one, if_pos hm, map_key_append rfl]

/-- There is a mark on the line, or no match. -/
theorem first_mark_cases (hmark : ∀ c, mark c = true → c = ':' ∨ c = ',') (ho : Outside o)
    (htext : Edge text) :
    (∃ blank m o', o = blank ++ m :: o' ∧ (∀ c ∈ blank, JsonText.isBlank c = true) ∧
        '\n' ∉ blank ∧ mark m = true ∧ Outside o') ∨
      (seq blanks (seq (one mark) tail)).first isWord before (firstLine (o ++ text)) = none := by
  obtain ⟨blank, rest, rfl, hblank, hspace, hrest⟩ := exists_blanks ho
  obtain ⟨before', h⟩ := first_blanks (refuses_mark hmark tail) before
    (firstLine (blank ++ rest ++ text))
  rw [List.append_assoc] at h ⊢
  have hnone : ∀ {text : List Char}, (∀ c ∈ text.head?, mark c = false) →
      (seq (one mark) tail).first isWord before' text = none := by
    intro text htext
    cases text with
    | nil => exact first_seq_one_nil
    | cons c text => rw [first_seq_one, if_neg (Bool.eq_false_iff.mp (htext c rfl))]
  have hquote : mark '"' = false := by
    rw [Bool.eq_false_iff]
    intro h
    rcases hmark _ h with h | h
    · exact absurd h (by decide)
    · exact absurd h (by decide)
  rw [← Option.map_eq_none_iff (f := Read.key), h]
  by_cases hline : '\n' ∈ blank
  · have hempty : ∀ c ∈ ([] : List Char).head?, mark c = false := fun _ h => nomatch h
    rw [dropWhile_blanks_newline hblank hline, hnone hempty]
    exact Or.inr rfl
  · cases rest with
    | nil =>
      refine Or.inr ?_
      rw [List.nil_append, dropWhile_blanks hblank hline, hnone]
      · rfl
      · intro c hc
        rw [edge_firstLine htext c hc, hquote]
      · intro c hc
        rw [htext c hc]
        rfl
    | cons m o' =>
      by_cases hm : mark m = true
      · exact Or.inl ⟨blank, m, o', rfl, hblank, hline, hm, (List.forall_mem_cons.mp hrest).2⟩
      · refine Or.inr ?_
        have hm' := hspace m rfl
        rw [List.cons_append, dropWhile_blanks hblank hline (by simpa using hm'), firstLine, hnone]
        · rfl
        · intro c hc
          split_ifs at hc
          · cases hc
          · cases hc
          · obtain rfl := Option.some.inj hc
            exact Bool.eq_false_iff.mpr hm

/-- A value in quotes, behind blanks. -/
def valued (p : Char → Bool) (least : Nat) : Pattern :=
  seq blanks (seq quote (seq (group (run p least)) (seq quote empty)))

/-- The text up to its first quote. -/
def value (text : List Char) : List Char := text.takeWhile fun c => !isQuote c

theorem quote_notMem_value (text : List Char) : '"' ∉ value text :=
  fun hmem => absurd (List.mem_takeWhile_imp hmem) (by decide)

theorem printed_value (s : Content) : Printed (value s.val) :=
  fun c hc => (guarded_content s).2 c
    (List.mem_cons_of_mem _ ((List.takeWhile_sublist _).subset hc))

/-- A literal ends with its value, or a quote follows inside. -/
theorem value_cases (text : List Char) :
    value text = text ∨ ∃ back, text = value text ++ '"' :: back := by
  have hsplit := List.takeWhile_append_dropWhile (p := fun c => !isQuote c) (l := text)
  have hnot := List.head?_dropWhile_not (fun c => !isQuote c) text
  cases hdrop : text.dropWhile fun c => !isQuote c with
  | nil =>
    rw [hdrop, List.append_nil] at hsplit
    exact Or.inl hsplit
  | cons c back =>
    rw [hdrop] at hsplit hnot
    have hc : isQuote c = true := by
      simpa using hnot
    rw [isQuote_iff.mp hc] at hsplit
    exact Or.inr ⟨back, hsplit.symm⟩

/-- A literal and what follows it, from its value on. -/
theorem exists_literal (literal rest : List Char) :
    ∃ y, literal ++ '"' :: rest = value literal ++ '"' :: y ∧
      (y = rest ∨ ∃ part, part <:+ literal ∧ y = part ++ '"' :: rest) := by
  rcases value_cases literal with h | ⟨back, h⟩
  · exact ⟨rest, by rw [h], Or.inl rfl⟩
  · refine ⟨back ++ '"' :: rest, ?_, Or.inr ⟨back, ⟨value literal ++ ['"'], ?_⟩, rfl⟩⟩
    · calc literal ++ '"' :: rest = (value literal ++ '"' :: back) ++ '"' :: rest := by rw [← h]
        _ = _ := by rw [List.append_assoc, List.cons_append]
    · rw [List.append_assoc]
      exact h.symm

section Value

variable {p : Char → Bool} {least : Nat}

theorem first_quote_value (hp : p '"' = false) {v rest : List Char} (hv : '"' ∉ v) :
    (Fits p least v → ((seq quote (seq (group (run p least)) (seq quote empty))).first isWord before
        ('"' :: (v ++ '"' :: rest))).map Read.key = some ([v], rest)) ∧
      (¬Fits p least v → (seq quote (seq (group (run p least)) (seq quote empty))).first isWord
        before ('"' :: (v ++ '"' :: rest)) = none) := by
  constructor
  · intro hfits
    rw [first_quote, (takes_run isWord p least).first (fun _ h => h.quote_notMem hp) hv hfits]
    rfl
  · intro hfits
    rw [← Option.map_eq_none_iff (f := Read.key), first_quote,
      (takes_run isWord p least).first_none (fun _ h => h.quote_notMem hp) hv hfits]
    rfl

theorem first_valued (hp : p '"' = false) {blank v rest : List Char}
    (hblank : ∀ c ∈ blank, JsonText.isBlank c = true) (hline : '\n' ∉ blank) (hv : '"' ∉ v)
    (hprinted : Printed v) (hfits : Fits p least v) :
    ((valued p least).first isWord before
        (firstLine (blank ++ '"' :: (v ++ '"' :: rest)))).map Read.key
      = some ([v], firstLine rest) := by
  obtain ⟨before', h⟩ := first_blanks
    (b := seq quote (seq (group (run p least)) (seq quote empty)))
    (refuses_quote fun _ => isQuote_of_isWhitespace) before
    (firstLine (blank ++ '"' :: (v ++ '"' :: rest)))
  have hspace : ∀ c ∈ ('"' :: (v ++ '"' :: rest)).head?, isWhitespace c = false := by
    intro c hc
    obtain rfl := Option.some.inj hc
    rfl
  rw [valued, h, dropWhile_blanks hblank hline hspace, firstLine_quote, firstLine_printed hprinted]
  exact (first_quote_value hp hv).1 hfits

/-- There is a value on the line, or no match. -/
theorem first_valued_cases (hp : p '"' = false) (ho : Outside o) (row : Row) :
    ((∀ c ∈ o, JsonText.isBlank c = true) ∧ '\n' ∉ o ∧
        ∃ s o' row', row = (s, o') :: row' ∧ Fits p least (value s.val)) ∨
      (valued p least).first isWord before (firstLine (o ++ quoted row)) = none := by
  obtain ⟨blank, rest, rfl, hblank, hspace, hrest⟩ := exists_blanks ho
  obtain ⟨before', h⟩ := first_blanks
    (b := seq quote (seq (group (run p least)) (seq quote empty)))
    (refuses_quote fun _ => isQuote_of_isWhitespace) before
    (firstLine (blank ++ rest ++ quoted row))
  rw [List.append_assoc] at h ⊢
  rw [← Option.map_eq_none_iff (f := Read.key), valued, h]
  by_cases hline : '\n' ∈ blank
  · rw [dropWhile_blanks_newline hblank hline, first_quote_nil]
    exact Or.inr rfl
  · cases rest with
    | cons c rest =>
      refine Or.inr ?_
      have hc := hspace c rfl
      have hquote : isQuote c = false := Bool.eq_false_iff.mpr fun h =>
        ne_quote_of_isOutside (List.forall_mem_cons.mp hrest).1 (isQuote_iff.mp h)
      rw [List.cons_append, dropWhile_blanks hblank hline (by simpa using hc), firstLine,
        first_quote_none]
      · rfl
      · intro d hd
        split_ifs at hd
        · cases hd
        · cases hd
        · obtain rfl := Option.some.inj hd
          exact hquote
    | nil =>
      rw [List.append_nil, List.nil_append]
      cases row with
      | nil =>
        refine Or.inr ?_
        have hspace : ∀ c ∈ (quoted []).head?, isWhitespace c = false :=
          fun c hc => absurd hc (Option.not_mem_none c)
        rw [dropWhile_blanks hblank hline hspace, quoted, firstLine, first_quote_nil]
        rfl
      | cons piece row' =>
        obtain ⟨s, o'⟩ := piece
        by_cases hfits : Fits p least (value s.val)
        · exact Or.inl ⟨hblank, hline, s, o', row', rfl, hfits⟩
        · refine Or.inr ?_
          have hspace : ∀ c ∈ (quoted ((s, o') :: row')).head?, isWhitespace c = false := by
            intro c hc
            obtain rfl := Option.some.inj hc
            rfl
          obtain ⟨y, hy, -⟩ := exists_literal s.val (o' ++ quoted row')
          rw [dropWhile_blanks hblank hline hspace, quoted, firstLine_quote, hy,
            firstLine_printed (printed_value s),
            (first_quote_value hp (quote_notMem_value s.val)).2 hfits]
          rfl

end Value

end Behind

/-! ## A name in quotes -/

section Keyed

variable {isWord : Char → Bool} {name tail : Pattern} {sought : List String}
  {groups : List Char → List (List Char)} {mark : Char → Bool} {before : Option Char}

variable (hnames : Takes isWord name (Named sought) groups)
  (hsought : ∀ w ∈ sought, w ∈ soughtNames)

include hsought in
theorem Named.isNameLike {w : List Char} (h : Named sought w) : ∀ c ∈ w, isNameLike c = true := by
  obtain ⟨v, hv, hfold⟩ := h
  exact isNameLike_of_sameFolded (hsought v hv) hfold

include hsought in
theorem Named.quote_notMem {w : List Char} (h : Named sought w) : '"' ∉ w :=
  fun hmem => absurd (h.isNameLike hsought _ hmem) (by decide)

include hsought in
theorem Named.not_outside {w : List Char} (h : Named sought w) : ¬Outside w := by
  obtain ⟨v, hv, hfold⟩ := h
  exact not_outside_of_sameFolded (hsought v hv) hfold

include hsought in
/-- No name ends before a quote inside of a literal. -/
theorem not_named_of_guarded {w back : List Char} (h : Guarded ('"' :: (w ++ '"' :: back))) :
    ¬Named sought w := by
  intro hnamed
  have hne : w ≠ [] := by
    rintro rfl
    exact hnamed.not_outside hsought outside_nil
  obtain ⟨front, c, rfl⟩ := (List.eq_nil_or_concat' w).resolve_left hne
  have hback : Guarded (('"' :: front) ++ c :: '"' :: back) := by
    simpa using h
  have hc := hnamed.isNameLike hsought c (List.mem_append_right _ List.mem_cons_self)
  rw [hback.quote] at hc
  cases hc

include hnames hsought

theorem first_keyed_none {w rest : List Char} (hw : '"' ∉ w) (hnamed : ¬Named sought w)
    (b : Pattern) :
    (seq quote (seq name (seq quote b))).first isWord before ('"' :: (w ++ '"' :: rest))
      = none := by
  rw [← Option.map_eq_none_iff (f := Read.key), first_quote,
    hnames.first_none (fun _ h => h.quote_notMem hsought) hw hnamed]
  rfl

/-- No name stands outside of the literals. -/
theorem first_keyed_outside {o text : List Char} (ho : Outside o) (htext : Edge text)
    (b : Pattern) : (seq quote (seq name b)).first isWord before ('"' :: (o ++ text)) = none := by
  have hquote : isOneOf "\"" '"' = true := rfl
  rw [quote, first_seq_one, if_pos hquote, first_seq, List.findSome?_eq_none_iff.mpr]
  · rfl
  · intro r hr
    obtain ⟨hnamed, -, hread⟩ := (hnames _ _ r).mp hr
    obtain ⟨more, rfl, -⟩ := append_of_notMem (hnamed.quote_notMem hsought) htext hread
    exact absurd (fun c hc => ho c (List.mem_append_left _ hc)) (hnamed.not_outside hsought)

theorem silent_keyed (b : Pattern) : Silent isWord (seq quote (seq name b)) where
  outside ho _ := refuses_quote (p := isOutside)
    (fun c hc => Bool.eq_false_iff.mpr fun h => ne_quote_of_isOutside hc (isQuote_iff.mp h))
    _ _ _ (List.forall_mem_cons.mp ho).1
  close ho htext := first_keyed_outside hnames hsought ho htext b
  opening before text := by rw [quote, first_seq_one, first_seq_one]

/-! ## From the opening quote to the closing one -/

variable {M : Type} [AddCommMonoid M] {weigh : Read → M} {b : Pattern}

omit hnames hsought

/-- A text without quotes. -/
theorem onward_plain {w : List Char} (hquote : '"' ∉ w) (hw : Printed w) (rest : List Char) :
    ∃ before', (seq quote b).onward isWord weigh before (w ++ '"' :: rest)
      = (seq quote b).onward isWord weigh before' ('"' :: rest) := by
  induction w generalizing before with
  | nil => exact ⟨before, rfl⟩
  | cons c w ih =>
    obtain ⟨hc, hquote⟩ := List.ne_and_not_mem_of_not_mem_cons hquote
    obtain ⟨before', h⟩ := ih hquote hw.tail
    refine ⟨before', ?_⟩
    rw [List.cons_append, onward_cons hw.ne_newline, h]
    refine first_quote_none fun d hd => ?_
    obtain rfl := Option.some.inj hd
    exact Bool.eq_false_iff.mpr fun h => hc (isQuote_iff.mp h).symm

include hnames hsought in
/-- Only the last quote of a literal may begin a match. -/
theorem onward_ending (weigh : Read → M) (before : Option Char) {front w : List Char}
    (hguard : Guarded (front ++ '"' :: w)) (rest : List Char) :
    (seq quote (seq name (seq quote b))).onward isWord weigh before
        (front ++ '"' :: (w ++ '"' :: rest))
      = (seq quote (seq name (seq quote b))).onward isWord weigh none
        ('"' :: (w ++ '"' :: rest)) := by
  induction front generalizing before with
  | nil => exact (silent_keyed hnames hsought _).onward_quote before _
  | cons c front ih =>
    have hprinted : Printed (c :: front ++ '"' :: w) := hguard.2
    rw [List.cons_append, onward_cons hprinted.ne_newline, ih (some c) hguard.tail]
    by_cases hc : c = '"'
    · subst hc
      obtain ⟨f, back, hsplit, hf⟩ := List.eq_append_cons_of_mem
        (List.mem_append_right front (List.mem_cons_self (a := '"') (l := w)))
      have htext : front ++ '"' :: (w ++ '"' :: rest) = f ++ '"' :: (back ++ '"' :: rest) := by
        have hmore := congrArg (· ++ '"' :: rest) hsplit
        simpa using hmore
      rw [List.cons_append, hsplit] at hguard hprinted
      have hline : Printed f := fun d hd => hprinted.tail d (List.mem_append_left _ hd)
      rw [htext, firstLine_printed hline]
      exact first_keyed_none hnames hsought hf (not_named_of_guarded hsought hguard) _
    · refine first_quote_none fun d hd => ?_
      obtain rfl := Option.some.inj hd
      exact Bool.eq_false_iff.mpr fun h => hc (isQuote_iff.mp h)

/-- A part of a literal without quotes. -/
theorem onward_part (hsilent : Silent isWord (seq quote b)) {part o text : List Char}
    (hprinted : Printed part) (hpart : '"' ∉ part) (ho : Outside o) (htext : Edge text) :
    (seq quote b).onward isWord weigh before (part ++ '"' :: (o ++ text))
      = (seq quote b).onward isWord weigh none text := by
  obtain ⟨before', h⟩ : ∃ before',
      (seq quote b).onward isWord weigh before (part ++ '"' :: (o ++ text))
        = (seq quote b).onward isWord weigh before' ('"' :: (o ++ text)) :=
    onward_plain hpart hprinted (o ++ text)
  rw [h, hsilent.onward_close ho htext]

include hnames hsought in
/-- The last part of a literal, where no match begins. -/
theorem onward_unmatched (weigh : Read → M) (before : Option Char) {w o text : List Char}
    (hprinted : Printed w) (hw : '"' ∉ w) (ho : Outside o) (htext : Edge text)
    (hnone : (seq quote (seq name (seq quote b))).first isWord before
      ('"' :: (w ++ '"' :: firstLine (o ++ text))) = none) :
    (seq quote (seq name (seq quote b))).onward isWord weigh before
        ('"' :: (w ++ '"' :: (o ++ text)))
      = (seq quote (seq name (seq quote b))).onward isWord weigh none text := by
  rw [onward_cons (by decide)]
  · exact onward_part (silent_keyed hnames hsought _) hprinted hw ho htext
  · rw [firstLine_printed hprinted]
    exact hnone

include hnames hsought in
theorem key_keyed {w : List Char} (hnamed : Named sought w) (rest : List Char) :
    ((seq quote (seq name (seq quote b))).first isWord before
        ('"' :: (w ++ '"' :: rest))).map Read.key
      = ((b.first isWord (some '"') rest).map Read.key).map fun key =>
        (groups w ++ key.1, key.2) := by
  rw [first_quote, hnames.first (fun _ h => h.quote_notMem hsought) (hnamed.quote_notMem hsought)
    hnamed, Option.map_map]
  rfl

/-! ## Keys with a value -/

section Valued

variable {p : Char → Bool} {least : Nat} (hmark : ∀ c, mark c = true → c = ':' ∨ c = ',')
  (hp : p '"' = false) {weight : List (List Char) → M}

include hnames hsought hmark hp

/-- A match takes the value of the next literal. -/
theorem onward_valued_match (hweigh : ∀ r, weigh r = weight r.groups) {w blank blank' : List Char}
    {m : Char} {s : Content} {rest : List Char} (hprinted : Printed w) (hnamed : Named sought w)
    (hblank : ∀ c ∈ blank, JsonText.isBlank c = true) (hline : '\n' ∉ blank) (hm : mark m = true)
    (hblank' : ∀ c ∈ blank', JsonText.isBlank c = true) (hline' : '\n' ∉ blank')
    (hfits : Fits p least (value s.val)) :
    ∃ before' y, (y = rest ∨ ∃ part, part <:+ s.val ∧ y = part ++ '"' :: rest) ∧
      (keyed name mark (valued p least)).onward isWord weigh before
          ('"' :: (w ++ '"' :: (blank ++ m :: (blank' ++ '"' :: (s.val ++ '"' :: rest)))))
        = weight (groups w ++ [value s.val]) +
          (keyed name mark (valued p least)).onward isWord weigh before' y := by
  obtain ⟨y, hy, hcase⟩ := exists_literal s.val rest
  have hvalue : Printed (value s.val) := printed_value s
  have htext : '"' :: (w ++ '"' :: (blank ++ m :: (blank' ++ '"' :: (s.val ++ '"' :: rest))))
      = ('"' :: (w ++ '"' :: (blank ++ m :: (blank' ++ '"' :: value s.val))) ++ ['"']) ++ y := by
    rw [hy]
    simp
  have hfront : '\n' ∉ '"' :: (w ++ '"' :: (blank ++ m :: (blank' ++ '"' :: value s.val))) := by
    have hm' : '\n' ≠ m := by
      rintro rfl
      exact not_mark_newline hmark hm
    simp [hprinted.newline_notMem, hvalue.newline_notMem, hline, hline', hm']
  refine ⟨lastOr before
    ('"' :: (w ++ '"' :: (blank ++ m :: (blank' ++ '"' :: value s.val))) ++ ['"']), y, hcase, ?_⟩
  rw [htext, onward_key]
  · rw [hweigh]
  · exact (congrArg firstLine (List.append_cons _ _ _).symm).trans
      ((firstLine_append_quote hfront y).trans (List.append_cons _ _ _))
  · exact List.cons_ne_nil _ _
  · rw [← htext, hy, firstLine_quote, firstLine_printed hprinted, keyed,
      key_keyed hnames hsought hnamed]
    obtain ⟨before', hfirst⟩ := first_mark hmark hblank hline hm
      (blank' ++ '"' :: (value s.val ++ '"' :: y))
    rw [hfirst, first_valued hp hblank' hline' (quote_notMem_value _) hvalue hfits]
    rfl

/-- What the last part of a literal weighs. -/
theorem onward_valued_cases (hweigh : ∀ r, weigh r = weight r.groups) {w o : List Char} {row : Row}
    (hprinted : Printed w) (hquote : '"' ∉ w) (ho : Outside o) :
    (keyed name mark (valued p least)).onward isWord weigh before
        ('"' :: (w ++ '"' :: (o ++ quoted row)))
      = (keyed name mark (valued p least)).onward isWord weigh none (quoted row) ∨
    ∃ m s o' row' before' y, Named sought w ∧ '\n' ∉ o ∧ squeeze o = [m] ∧ mark m = true ∧
      row = (s, o') :: row' ∧ Fits p least (value s.val) ∧
      (y = o' ++ quoted row' ∨ ∃ part, part <:+ s.val ∧ y = part ++ '"' :: (o' ++ quoted row')) ∧
      (keyed name mark (valued p least)).onward isWord weigh before
          ('"' :: (w ++ '"' :: (o ++ quoted row)))
        = weight (groups w ++ [value s.val]) +
          (keyed name mark (valued p least)).onward isWord weigh before' y := by
  have hunmatched := onward_unmatched hnames hsought weigh before
    (b := seq blanks (seq (one mark) (valued p least))) hprinted hquote ho (edge_quoted row)
  by_cases hnamed : Named sought w
  · rcases first_mark_cases hmark ho (edge_quoted row) with
      ⟨blank, m, o₁, rfl, hblank, hline, hm, ho₁⟩ | hnone
    · obtain ⟨before₁, hfirst⟩ := first_mark hmark hblank hline hm (o₁ ++ quoted row)
      rcases first_valued_cases hp ho₁ row with
        ⟨hblank₁, hline₁, s, o', row', rfl, hfits⟩ | hnone
      · refine Or.inr ?_
        obtain ⟨before', y, hy, hsum⟩ := onward_valued_match hnames hsought hmark hp hweigh
          hprinted hnamed hblank hline hm hblank₁ hline₁ hfits
        refine ⟨m, s, o', row', before', y, hnamed, ?_, ?_, hm, rfl, hfits, hy, ?_⟩
        · have hm' : '\n' ≠ m := by
            rintro rfl
            exact not_mark_newline hmark hm
          simp [hline, hline₁, hm']
        · rw [squeeze_append, squeeze_blanks hblank, List.nil_append, squeeze_mark_cons hmark hm,
            squeeze_blanks hblank₁]
        · rw [← hsum, List.append_assoc]
          rfl
      · refine Or.inl (hunmatched ?_)
        rw [← Option.map_eq_none_iff (f := Read.key), key_keyed hnames hsought hnamed,
          List.append_assoc, List.cons_append, hfirst, hnone]
        rfl
    · refine Or.inl (hunmatched ?_)
      rw [← Option.map_eq_none_iff (f := Read.key), key_keyed hnames hsought hnamed, hnone]
      rfl
  · exact Or.inl (hunmatched (first_keyed_none hnames hsought hquote hnamed _))

omit hnames hsought hmark hp [AddCommMonoid M] in
theorem exists_last_quote {part : List Char} (h : '"' ∈ part) :
    ∃ front w, part = front ++ '"' :: w ∧ '"' ∉ w := by
  obtain ⟨w, front, hsplit, hw⟩ := List.eq_append_cons_of_mem (List.mem_reverse.mpr h)
  refine ⟨front.reverse, w.reverse, ?_, by simpa using hw⟩
  rw [← List.reverse_reverse part, hsplit]
  simp

/-- What a literal weighs, from its opening quote or a later place on. -/
theorem onward_literal_cases (hweigh : ∀ r, weigh r = weight r.groups) {s : Content}
    {part o : List Char} {row : Row} (hpart : part <:+ '"' :: s.val) (ho : Outside o) :
    (keyed name mark (valued p least)).onward isWord weigh before (part ++ '"' :: (o ++ quoted row))
      = (keyed name mark (valued p least)).onward isWord weigh none (quoted row) ∨
    ∃ front w m s' o' row' before' y, '"' :: s.val = front ++ '"' :: w ∧ Named sought w ∧
      '\n' ∉ o ∧ squeeze o = [m] ∧ mark m = true ∧ row = (s', o') :: row' ∧
      Fits p least (value s'.val) ∧
      (y = o' ++ quoted row' ∨ ∃ part, part <:+ s'.val ∧ y = part ++ '"' :: (o' ++ quoted row')) ∧
      (keyed name mark (valued p least)).onward isWord weigh before
          (part ++ '"' :: (o ++ quoted row))
        = weight (groups w ++ [value s'.val]) +
          (keyed name mark (valued p least)).onward isWord weigh before' y := by
  have hguard : Guarded part := (guarded_content s).suffix hpart
  by_cases hquote : '"' ∈ part
  · obtain ⟨front, w, rfl, hw⟩ := exists_last_quote hquote
    have hprinted : Printed w := fun c hc => hguard.2 c (by simp [hc])
    obtain ⟨back, hback⟩ := hpart
    have hending := onward_ending hnames hsought weigh before
      (b := seq blanks (seq (one mark) (valued p least))) hguard (o ++ quoted row)
    rw [List.append_assoc, List.cons_append]
    rcases onward_valued_cases hnames hsought hmark hp hweigh hprinted
      hw ho with h | ⟨m, s', o', row', before', y, hnamed, hline, ho', hm, hrow,
        hfits, hy, h⟩
    · exact Or.inl (hending.trans h)
    · refine Or.inr ⟨back ++ front, w, m, s', o', row', before', y, ?_, hnamed, hline, ho',
        hm, hrow, hfits, hy, hending.trans h⟩
      rw [List.append_assoc]
      exact hback.symm
  · exact Or.inl (onward_part (silent_keyed hnames hsought _) hguard.2 hquote ho (edge_quoted row))

end Valued

/-- A key at the end of a literal, a mark and a value that is reported. -/
def Tells (sought : List String) (mark : Char → Bool) (p : Char → Bool) (least : Nat)
    (Reported : List Char → List Char → Prop) (piece next : Content × List Char) : Prop :=
  ∃ front w m, '"' :: piece.1.val = front ++ '"' :: w ∧ Named sought w ∧ piece.2 = [m] ∧
    mark m = true ∧ Fits p least (value next.1.val) ∧ Reported w (value next.1.val)

section Rows

variable {p : Char → Bool} {least : Nat} {kinds : Read → Multiset Kind}
  {weight : List (List Char) → Multiset Kind} {Reported : List Char → List Char → Prop}
  (hmark : ∀ c, mark c = true → c = ':' ∨ c = ',') (hp : p '"' = false)
  (hkinds : ∀ r, kinds r = weight r.groups)
  (hreported : ∀ w v, weight (groups w ++ [v]) ≠ 0 ↔ Reported w v)

include hnames hsought hmark hp hkinds hreported

/-- From a place in a literal on, where nothing is told. -/
theorem onward_part_quiet {row : Row} {s : Content} {o part : List Char}
    (hpart : part <:+ '"' :: s.val) (hout : ∀ piece ∈ (s, o) :: row, Outside piece.2)
    (hquiet : ((s, o) :: row).IsChain fun piece next => '\n' ∈ piece.2 ∨
      ¬Tells sought mark p least Reported (piece.1, squeeze piece.2) next) :
    (keyed name mark (valued p least)).onward isWord kinds before
      (part ++ '"' :: (o ++ quoted row)) = 0 := by
  induction row generalizing s o part before with
  | nil =>
    obtain ⟨ho, -⟩ := List.forall_mem_cons.mp hout
    rcases onward_literal_cases hnames hsought hmark hp hkinds hpart ho
      with h | ⟨_, _, _, _, _, _, _, _, -, -, -, -, -, hrow, -⟩
    · exact h.trans onward_nil
    · cases hrow
  | cons next row ih =>
    obtain ⟨s', o'⟩ := next
    obtain ⟨ho, hout'⟩ := List.forall_mem_cons.mp hout
    obtain ⟨hfirst, hquiet'⟩ := List.isChain_cons_cons.mp hquiet
    have hrow : (keyed name mark (valued p least)).onward isWord kinds none
        (quoted ((s', o') :: row)) = 0 := ih (List.suffix_refl _) hout' hquiet'
    rcases onward_literal_cases hnames hsought hmark hp hkinds hpart ho
      with h | ⟨front, w, m, _, _, _, _, y, hsplit, hnamed, hline, ho', hm, hrow', hfits, hy, h⟩
    · exact h.trans hrow
    · obtain ⟨hpiece, rfl⟩ := List.cons.inj hrow'
      obtain ⟨rfl, rfl⟩ := Prod.mk.inj hpiece
      have hzero : weight (groups w ++ [value s'.val]) = 0 := by
        by_contra hne
        exact hfirst.resolve_left hline
          ⟨front, w, m, hsplit, hnamed, ho', hm, hfits, (hreported w _).mp hne⟩
      rw [h, hzero, zero_add]
      rcases hy with rfl | ⟨part', hpart', rfl⟩
      · have hsilent : Silent isWord (keyed name mark (valued p least)) :=
          silent_keyed hnames hsought _
        have ho' := (List.forall_mem_cons.mp hout').1
        calc _ = (keyed name mark (valued p least)).onward isWord kinds none (quoted row) :=
              hsilent.onward_outside ho' (edge_quoted row)
          _ = (keyed name mark (valued p least)).onward isWord kinds none
                ('"' :: (o' ++ quoted row)) := (hsilent.onward_close ho' (edge_quoted row)).symm
          _ = 0 := ih List.nil_suffix hout' hquiet'
      · exact ih (hpart'.trans (List.suffix_cons _ _)) hout' hquiet'

/-- Where nothing is told, nothing is reported. -/
theorem onward_quiet {row : Row} (hout : ∀ piece ∈ row, Outside piece.2)
    (hquiet : row.IsChain fun piece next => '\n' ∈ piece.2 ∨
      ¬Tells sought mark p least Reported (piece.1, squeeze piece.2) next) :
    (keyed name mark (valued p least)).onward isWord kinds none (quoted row) = 0 := by
  cases row with
  | nil => exact onward_nil
  | cons piece row =>
    exact onward_part_quiet hnames hsought hmark hp hkinds hreported (List.suffix_refl _) hout
      hquiet

omit hreported hmark in
theorem onward_broken (hmark : ∀ c, mark c = true → c = ':' ∨ c = ',') {s : Content} {o : List Char}
    {row : Row} (ho : Outside o) :
    (keyed name mark (valued p least)).onward isWord kinds none (quoted ((s, '\n' :: o) :: row))
      = (keyed name mark (valued p least)).onward isWord kinds none (quoted row) := by
  rcases onward_literal_cases hnames hsought hmark hp hkinds (s := s)
    (o := '\n' :: o) (List.suffix_refl _) (Outside.cons rfl ho)
    with h | ⟨_, _, _, _, _, _, _, _, -, -, hline, -⟩
  · exact h
  · exact absurd List.mem_cons_self hline

/-- Where something is told, there is a layout in which it is reported. -/
theorem exists_loud {row : Row} (hout : ∀ piece ∈ row, Outside piece.2)
    (hloud : ¬row.IsChain fun piece next => ¬Tells sought mark p least Reported piece next) :
    ∃ joined, (keyed name mark (valued p least)).onward isWord kinds none
      (quoted (brokenRow joined row)) ≠ 0 := by
  induction row with
  | nil => exact absurd List.IsChain.nil hloud
  | cons piece row ih =>
    obtain ⟨s, o⟩ := piece
    obtain ⟨ho, hout⟩ := List.forall_mem_cons.mp hout
    cases row with
    | nil => exact absurd (List.IsChain.singleton _) hloud
    | cons next row =>
      rw [List.isChain_cons_cons, not_and_or, not_not] at hloud
      rcases hloud with ⟨front, w, m, hsplit, hnamed, rfl, hm, hfits, hbad⟩ | hloud
      · refine ⟨[true], ?_⟩
        obtain ⟨s', o'⟩ := next
        have hguard : Guarded (front ++ '"' :: w) := hsplit ▸ guarded_content s
        have hprinted : Printed w := fun c hc => hguard.2 c (by simp [hc])
        have hnil : ∀ c ∈ ([] : List Char), JsonText.isBlank c = true := fun _ h => nomatch h
        obtain ⟨before', y, -, hsum⟩ := onward_valued_match hnames hsought hmark hp hkinds
          hprinted hnamed hnil List.not_mem_nil hm hnil List.not_mem_nil hfits
        have htext : quoted (brokenRow [true] ((s, [m]) :: (s', o') :: row))
            = front ++ '"' :: (w ++ '"' :: ([] ++ m :: ([] ++ '"' :: (s'.val ++ '"' ::
              ('\n' :: o' ++ quoted (brokenRow [] row)))))) := by
          have hquoted : quoted (brokenRow [true] ((s, [m]) :: (s', o') :: row))
              = '"' :: s.val ++ '"' :: ([m] ++ '"' :: (s'.val ++ '"' ::
                ('\n' :: o' ++ quoted (brokenRow [] row)))) := rfl
          rw [hquoted, hsplit, List.append_assoc]
          rfl
        rw [htext]
        intro hzero
        have hending := onward_ending hnames hsought kinds none
          (b := seq blanks (seq (one mark) (valued p least))) hguard
          ([] ++ m :: ([] ++ '"' :: (s'.val ++ '"' :: ('\n' :: o' ++ quoted (brokenRow [] row)))))
        have hboth := hsum.symm.trans (hending.symm.trans hzero)
        exact (hreported w _).mpr hbad
          (Multiset.le_zero.mp ((Multiset.le_add_right _ _).trans_eq hboth))
      · obtain ⟨joined, hjoined⟩ := ih hout hloud
        refine ⟨false :: joined, ?_⟩
        exact fun h => hjoined ((onward_broken hnames hsought hp hkinds hmark ho).symm.trans h)

end Rows

/-! ## Keys alone -/

/-- A key at the end of a literal with its mark. -/
def Marks (sought : List String) (mark : Char → Bool) (piece : Content × List Char) : Prop :=
  ∃ front w m later, '"' :: piece.1.val = front ++ '"' :: w ∧ Named sought w ∧
    piece.2 = m :: later ∧ mark m = true

section Alone

variable {kinds : Read → Multiset Kind} {weight : List (List Char) → Multiset Kind}
  (hmark : ∀ c, mark c = true → c = ':' ∨ c = ',')

include hnames hsought hmark

/-- A key with its mark is a match, whatever follows. -/
theorem onward_mark (hkinds : ∀ r, kinds r = weight r.groups) {w : List Char} {m : Char}
    (hprinted : Printed w) (hnamed : Named sought w) (hm : mark m = true) (rest : List Char) :
    ∃ before', (keyed name mark empty).onward isWord kinds before ('"' :: (w ++ '"' :: m :: rest))
      = weight (groups w) + (keyed name mark empty).onward isWord kinds before' rest := by
  have htext : '"' :: (w ++ '"' :: m :: rest) = '"' :: (w ++ ['"', m]) ++ rest := by
    simp
  have hline : firstLine ('"' :: (w ++ '"' :: m :: rest))
      = '"' :: (w ++ ['"', m]) ++ firstLine rest := by
    rw [firstLine_quote, firstLine_printed hprinted, firstLine_mark hmark hm]
    simp
  refine ⟨lastOr before ('"' :: (w ++ ['"', m])), ?_⟩
  rw [htext, onward_key]
  · rw [hkinds]
  · rw [← htext, hline]
  · exact List.cons_ne_nil _ _
  · have hnil : ∀ c ∈ ([] : List Char), JsonText.isBlank c = true := fun _ h => nomatch h
    obtain ⟨before', hfirst⟩ := first_mark hmark hnil List.not_mem_nil hm rest
    rw [← htext, firstLine_quote, firstLine_printed hprinted, keyed,
      key_keyed hnames hsought hnamed]
    have hrest : (empty.first isWord before' (firstLine rest)).map Read.key
        = some ([], firstLine rest) := rfl
    rw [List.nil_append] at hfirst
    rw [hfirst, hrest, Option.map_some, List.append_nil]

/-- What a literal weighs, from its opening quote or a later place on, unless
a key and its mark are there. -/
theorem onward_part_alone {row : Row} {s : Content} {o part : List Char}
    (hpart : part <:+ '"' :: s.val) (ho : Outside o) :
    (keyed name mark empty).onward isWord kinds before (part ++ '"' :: (o ++ quoted row))
      = (keyed name mark empty).onward isWord kinds none (quoted row) ∨
    ∃ front w blank m o', '"' :: s.val = front ++ '"' :: w ∧ Named sought w ∧ o = blank ++ m :: o' ∧
      (∀ c ∈ blank, JsonText.isBlank c = true) ∧ '\n' ∉ blank ∧ mark m = true := by
  have hguard : Guarded part := (guarded_content s).suffix hpart
  by_cases hquote : '"' ∈ part
  · obtain ⟨front, w, rfl, hw⟩ := exists_last_quote hquote
    have hprinted : Printed w := fun c hc => hguard.2 c (by simp [hc])
    obtain ⟨back, hback⟩ := hpart
    have hending := onward_ending hnames hsought kinds before
      (b := seq blanks (seq (one mark) empty)) hguard (o ++ quoted row)
    have hunmatched := onward_unmatched hnames hsought kinds none
      (b := seq blanks (seq (one mark) empty)) hprinted hw ho (edge_quoted row)
    rw [List.append_assoc, List.cons_append]
    by_cases hnamed : Named sought w
    · rcases first_mark_cases hmark ho (edge_quoted row) with
        ⟨blank, m, o', rfl, hblank, hline, hm, -⟩ | hnone
      · refine Or.inr ⟨back ++ front, w, blank, m, o', ?_, hnamed, rfl, hblank, hline, hm⟩
        rw [List.append_assoc]
        exact hback.symm
      · refine Or.inl (hending.trans (hunmatched ?_))
        rw [← Option.map_eq_none_iff (f := Read.key), key_keyed hnames hsought hnamed, hnone]
        rfl
    · exact Or.inl (hending.trans (hunmatched (first_keyed_none hnames hsought hw hnamed _)))
  · exact Or.inl (onward_part (silent_keyed hnames hsought _) hguard.2 hquote ho (edge_quoted row))

/-- A literal at the end of its line. -/
theorem onward_alone_broken {s : Content} {o : List Char} {row : Row} (ho : Outside o) :
    (keyed name mark empty).onward isWord kinds none (quoted ((s, '\n' :: o) :: row))
      = (keyed name mark empty).onward isWord kinds none (quoted row) := by
  have ho' : Outside ('\n' :: o) := Outside.cons rfl ho
  rcases onward_part_alone hnames hsought hmark (s := s)
    (List.suffix_refl _) ho' with h | ⟨_, _, blank, m, o', -, -, hsplit, -, hline, hm⟩
  · exact h
  · cases blank with
    | nil =>
      rw [← (List.cons.inj hsplit).1] at hm
      exact absurd hm (not_mark_newline hmark)
    | cons c blank =>
      obtain rfl := (List.cons.inj hsplit).1
      exact absurd List.mem_cons_self hline

/-- Where no key has its mark, nothing is reported. -/
theorem onward_alone_quiet {row : Row} (hout : ∀ piece ∈ row, Outside piece.2)
    (hquiet : ∀ piece ∈ squeezed row, ¬Marks sought mark piece) :
    (keyed name mark empty).onward isWord kinds none (quoted row) = 0 := by
  induction row with
  | nil => exact onward_nil
  | cons piece row ih =>
    obtain ⟨s, o⟩ := piece
    obtain ⟨ho, hout⟩ := List.forall_mem_cons.mp hout
    obtain ⟨hfirst, hquiet⟩ := List.forall_mem_cons.mp hquiet
    rw [← ih hout hquiet]
    rcases onward_part_alone hnames hsought hmark (s := s)
      (List.suffix_refl _) ho with h | ⟨front, w, blank, m, o', hsplit, hnamed, rfl, hblank, -, hm⟩
    · exact h
    · refine absurd ⟨front, w, m, squeeze o', hsplit, hnamed, ?_, hm⟩ hfirst
      dsimp only
      rw [squeeze_append, squeeze_blanks hblank, List.nil_append, squeeze_mark_cons hmark hm]

/-- Where a key has its mark, there is a layout in which it is reported. -/
theorem exists_loud_alone (hkinds : ∀ r, kinds r = weight r.groups)
    (hweight : ∀ w, weight (groups w) ≠ 0) {row : Row} (hout : ∀ piece ∈ row, Outside piece.2)
    (hloud : ∃ piece ∈ row, Marks sought mark piece) :
    ∃ joined,
      (keyed name mark empty).onward isWord kinds none (quoted (brokenRow joined row)) ≠ 0 := by
  induction row with
  | nil =>
    obtain ⟨_, h, -⟩ := hloud
    cases h
  | cons piece row ih =>
    obtain ⟨s, o⟩ := piece
    obtain ⟨ho, hout⟩ := List.forall_mem_cons.mp hout
    obtain ⟨piece, hmem, hmarks⟩ := hloud
    rcases List.mem_cons.mp hmem with rfl | hmem
    · obtain ⟨front, w, m, later, hsplit, hnamed, rfl, hm⟩ := hmarks
      refine ⟨[true], ?_⟩
      have hguard : Guarded (front ++ '"' :: w) := hsplit ▸ guarded_content s
      have hprinted : Printed w := fun c hc => hguard.2 c (by simp [hc])
      have htext : quoted (brokenRow [true] ((s, m :: later) :: row))
          = front ++ '"' :: (w ++ '"' :: (m :: later ++ quoted (brokenRow [] row))) := by
        have hquoted : quoted (brokenRow [true] ((s, m :: later) :: row))
            = '"' :: s.val ++ '"' :: (m :: later ++ quoted (brokenRow [] row)) := rfl
        rw [hquoted, hsplit, List.append_assoc]
        rfl
      obtain ⟨before', hsum⟩ := onward_mark hnames hsought hmark hkinds hprinted
        hnamed hm (later ++ quoted (brokenRow [] row))
      have hending := onward_ending hnames hsought kinds none
        (b := seq blanks (seq (one mark) empty)) hguard (m :: later ++ quoted (brokenRow [] row))
      rw [htext]
      intro hzero
      have hboth := hsum.symm.trans (hending.symm.trans hzero)
      exact hweight w (Multiset.le_zero.mp ((Multiset.le_add_right _ _).trans_eq hboth))
    · obtain ⟨joined, hjoined⟩ := ih hout ⟨piece, hmem, hmarks⟩
      exact ⟨false :: joined, fun h =>
        hjoined ((onward_alone_broken hnames hsought hmark ho).symm.trans h)⟩

end Alone

end Keyed

end TiktokSigner.FixtureHygiene
