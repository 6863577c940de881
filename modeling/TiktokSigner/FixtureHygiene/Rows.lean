import TiktokSigner.FixtureHygiene.Literals

/-!
# Rows of string literals

A text of tokens is a row of string literals with text outside of literals
between them (`quoted`). A layout changes the blanks of that text alone
(`lay_strings`). Most patterns begin nowhere outside (`Silent`), so that
what is reported of a row comes from its literals.
-/

namespace TiktokSigner.FixtureHygiene

open Regex Regex.Pattern Text

/-- String literals, each with what stands between it and the next one. -/
abbrev Row : Type := List (Content × List Char)

def quoted : Row → List Char
  | [] => []
  | (s, o) :: row => '"' :: (s.val ++ '"' :: (o ++ quoted row))

/-! ## Layouts as rows -/

/-- The strings among the tokens, each with what stands behind it, and what
stands before the first one. -/
def strings : List Token → List Char × Row
  | [] => ([], [])
  | .string s :: tokens => ([], (s, (strings tokens).1) :: (strings tokens).2)
  | token :: tokens => (token.text ++ (strings tokens).1, (strings tokens).2)

/-- The same of tokens with blanks behind them. -/
def lay : List (Token × List Char) → List Char × Row
  | [] => ([], [])
  | (.string s, blanks) :: body => ([], (s, blanks ++ (lay body).1) :: (lay body).2)
  | (token, blanks) :: body => (token.text ++ blanks ++ (lay body).1, (lay body).2)

/-- The text without its blanks. -/
def squeeze (text : List Char) : List Char := text.filter fun c => !JsonText.isBlank c

def squeezed (row : Row) : Row := row.map fun (s, o) => (s, squeeze o)

theorem lay_cons {token : Token} (htoken : ∀ s, token ≠ .string s) (blanks : List Char)
    (body : List (Token × List Char)) : lay ((token, blanks) :: body)
      = (token.text ++ blanks ++ (lay body).1, (lay body).2) := by
  cases token with
  | string s => exact absurd rfl (htoken s)
  | mark _ => rfl
  | scalar _ => rfl

theorem strings_cons {token : Token} (htoken : ∀ s, token ≠ .string s) (tokens : List Token) :
    strings (token :: tokens) = (token.text ++ (strings tokens).1, (strings tokens).2) := by
  cases token with
  | string s => exact absurd rfl (htoken s)
  | mark _ => rfl
  | scalar _ => rfl

theorem bodyText_eq (body : List (Token × List Char)) :
    bodyText body = (lay body).1 ++ quoted (lay body).2 := by
  induction body with
  | nil => rfl
  | cons piece body ih =>
    obtain ⟨token, blanks⟩ := piece
    have htext : bodyText ((token, blanks) :: body) = token.text ++ blanks ++ bodyText body := rfl
    rw [htext, ih]
    cases token with
    | string s => simp [lay, quoted, Token.text]
    | mark _ => exact (List.append_assoc _ _ _).symm
    | scalar _ => exact (List.append_assoc _ _ _).symm

theorem squeeze_append (a b : List Char) : squeeze (a ++ b) = squeeze a ++ squeeze b :=
  List.filter_append a b

theorem squeeze_blanks {text : List Char} (h : ∀ c ∈ text, JsonText.isBlank c = true) :
    squeeze text = [] :=
  List.filter_eq_nil_iff.mpr fun c hc => by simp [h c hc]

theorem squeeze_bare {text : List Char} (h : Bare text) : squeeze text = text :=
  List.filter_eq_self.mpr fun c hc => (Bool.and_eq_true_iff.mp (h c hc)).2

theorem bare_token {token : Token} (htoken : ∀ s, token ≠ .string s) : Bare token.text := by
  cases token with
  | string s => exact absurd rfl (htoken s)
  | mark m => exact Bare.cons (isBare_mark m) bare_nil
  | scalar s => exact bare_scalar s

theorem Token.string_or (token : Token) : (∃ s, token = .string s) ∨ ∀ s, token ≠ .string s := by
  cases token with
  | string s => exact Or.inl ⟨s, rfl⟩
  | mark m => exact Or.inr fun _ h => nomatch h
  | scalar s => exact Or.inr fun _ h => nomatch h

/-- A layout changes the blanks alone. -/
theorem lay_strings (body : List (Token × List Char))
    (hblank : ∀ piece ∈ body, ∀ c ∈ piece.2, JsonText.isBlank c = true) :
    (squeeze (lay body).1, squeezed (lay body).2) = strings (body.map Prod.fst) := by
  induction body with
  | nil => rfl
  | cons piece body ih =>
    obtain ⟨token, blanks⟩ := piece
    obtain ⟨hpiece, hbody⟩ := List.forall_mem_cons.mp hblank
    have hblanks : squeeze blanks = [] := squeeze_blanks hpiece
    obtain ⟨hlead, hrow⟩ := Prod.mk.inj (ih hbody)
    rw [List.map_cons]
    obtain ⟨s, rfl⟩ | htoken := token.string_or
    · have hsqueeze : squeeze (blanks ++ (lay body).1) = squeeze (lay body).1 := by
        rw [squeeze_append, hblanks, List.nil_append]
      rw [strings, ← hlead, ← hrow, ← hsqueeze]
      rfl
    · rw [lay_cons htoken, strings_cons htoken, ← hlead, ← hrow, squeeze_append, squeeze_append,
        hblanks, squeeze_bare (bare_token htoken), List.append_nil]

theorem outside_lay (body : List (Token × List Char))
    (hblank : ∀ piece ∈ body, ∀ c ∈ piece.2, JsonText.isBlank c = true) :
    Outside (lay body).1 ∧ ∀ piece ∈ (lay body).2, Outside piece.2 := by
  induction body with
  | nil => exact ⟨outside_nil, fun _ h => absurd h List.not_mem_nil⟩
  | cons piece body ih =>
    obtain ⟨token, blanks⟩ := piece
    obtain ⟨hpiece, hbody⟩ := List.forall_mem_cons.mp hblank
    have hblanks : Outside blanks := fun c hc => isOutside_of_isBlank (hpiece c hc)
    obtain ⟨hlead, hrow⟩ := ih hbody
    obtain ⟨s, rfl⟩ | htoken := token.string_or
    · exact ⟨outside_nil, List.forall_mem_cons.mpr ⟨hblanks.append hlead, hrow⟩⟩
    · rw [lay_cons htoken]
      exact ⟨((bare_token htoken).outside.append hblanks).append hlead, hrow⟩

/-! ## Where a line ends -/

/-- No blanks behind the tokens, but for a line feed behind a string that is
not joined to what follows. -/
def broken : List Bool → List Token → List (Token × List Char)
  | _, [] => []
  | joined, .string s :: tokens =>
      (.string s, if joined.headD false then [] else ['\n']) :: broken joined.tail tokens
  | joined, token :: tokens => (token, []) :: broken joined tokens

def brokenRow : List Bool → Row → Row
  | _, [] => []
  | joined, (s, o) :: row =>
      (s, if joined.headD false then o else '\n' :: o) :: brokenRow joined.tail row

theorem broken_cons {token : Token} (htoken : ∀ s, token ≠ .string s) (joined : List Bool)
    (tokens : List Token) :
    broken joined (token :: tokens) = (token, []) :: broken joined tokens := by
  cases token with
  | string s => exact absurd rfl (htoken s)
  | mark _ => rfl
  | scalar _ => rfl

theorem lay_broken (joined : List Bool) (tokens : List Token) :
    lay (broken joined tokens) = ((strings tokens).1, brokenRow joined (strings tokens).2) := by
  induction tokens generalizing joined with
  | nil => rfl
  | cons token tokens ih =>
    obtain ⟨s, rfl⟩ | htoken := token.string_or
    · rw [broken, lay, ih, strings, brokenRow]
      split_ifs <;> rfl
    · rw [broken_cons htoken, lay_cons htoken, ih, strings_cons htoken, List.append_nil]

def brokenLayout (joined : List Bool) (tokens : List Token) : Layout tokens where
  lead := []
  body := broken joined tokens
  tokens_eq := by
    induction tokens generalizing joined with
    | nil => rfl
    | cons token tokens ih =>
      obtain ⟨s, rfl⟩ | htoken := token.string_or
      · rw [broken, List.map_cons, ih]
      · rw [broken_cons htoken, List.map_cons, ih]
  lead_blank := fun _ h => absurd h List.not_mem_nil
  body_blank := by
    induction tokens generalizing joined with
    | nil => exact fun _ h => absurd h List.not_mem_nil
    | cons token tokens ih =>
      obtain ⟨s, rfl⟩ | htoken := token.string_or
      · refine List.forall_mem_cons.mpr ⟨fun c hc => ?_, ih _⟩
        dsimp only at hc
        split_ifs at hc
        · exact absurd hc List.not_mem_nil
        · rw [List.mem_singleton.mp hc]
          rfl
      · rw [broken_cons htoken]
        exact List.forall_mem_cons.mpr ⟨fun _ h => absurd h List.not_mem_nil, ih _⟩

/-! ## Patterns that begin in a literal -/

theorem edge_quoted (row : Row) : Edge (quoted row) := by
  cases row with
  | nil => exact fun _ h => nomatch h
  | cons piece row => exact fun c hc => (Option.some.inj hc).symm

theorem firstLine_quote (text : List Char) : firstLine ('"' :: text) = '"' :: firstLine text :=
  firstLine_cons (by decide) (by decide) text

theorem edge_firstLine {text : List Char} (h : Edge text) : Edge (firstLine text) := by
  cases text with
  | nil => exact h
  | cons c text =>
    obtain rfl := h c rfl
    rw [firstLine_quote]
    exact fun d hd => (Option.some.inj hd).symm

/-- There are no control characters in the text. -/
def Printed (text : List Char) : Prop := ∀ c ∈ text, 32 ≤ c.toNat

theorem Printed.tail {c : Char} {text : List Char} (h : Printed (c :: text)) : Printed text :=
  (List.forall_mem_cons.mp h).2

theorem Printed.ne_newline {c : Char} {text : List Char} (h : Printed (c :: text)) : c ≠ '\n' := by
  rintro rfl
  exact absurd (h _ List.mem_cons_self) (by decide)

theorem firstLine_append_quote {front : List Char} (h : '\n' ∉ front) (rest : List Char) :
    firstLine (front ++ '"' :: rest) = front ++ '"' :: firstLine rest := by
  rw [firstLine_append h, firstLine_quote]
  exact fun h => absurd (Option.some.inj h) (by decide)

theorem Printed.newline_notMem {text : List Char} (h : Printed text) : '\n' ∉ text :=
  fun hmem => absurd (h _ hmem) (by decide)

theorem firstLine_printed {text : List Char} (h : Printed text) (rest : List Char) :
    firstLine (text ++ '"' :: rest) = text ++ '"' :: firstLine rest :=
  firstLine_append_quote h.newline_notMem rest

theorem head?_ne_newline {text : List Char} (h : Edge text) : text.head? ≠ some '\n' :=
  fun hhead => absurd (h '\n' hhead) (by decide)

/-- The rest of the line from outside of the literals on. -/
theorem firstLine_outside {o text : List Char} (ho : Outside o) (htext : Edge text) :
    ∃ o' tail, firstLine (o ++ text) = o' ++ tail ∧ Outside o' ∧ Edge tail := by
  by_cases h : '\n' ∈ o
  · obtain ⟨line, rest, rfl, hline⟩ := List.eq_append_cons_of_mem h
    have hout : Outside line := fun c hc => ho c (List.mem_append_left _ hc)
    rw [List.append_assoc, List.cons_append, firstLine_append_newline hline]
    split_ifs
    · exact ⟨line.dropLast, [], (List.append_nil _).symm,
        fun c hc => hout c (List.dropLast_subset line hc), fun _ h => nomatch h⟩
    · exact ⟨line, [], (List.append_nil _).symm, hout, fun _ h => nomatch h⟩
  · exact ⟨o, firstLine text, firstLine_append h (head?_ne_newline htext), ho, edge_firstLine htext⟩

/-- The blanks at the beginning. -/
theorem exists_blanks {o : List Char} (ho : Outside o) :
    ∃ blanks rest, o = blanks ++ rest ∧ (∀ c ∈ blanks, JsonText.isBlank c = true) ∧
      (∀ c ∈ rest.head?, isWhitespace c = false) ∧ Outside rest := by
  refine ⟨o.takeWhile isWhitespace, o.dropWhile isWhitespace,
    (List.takeWhile_append_dropWhile).symm, ?_, ?_, ?_⟩
  · intro c hc
    exact isBlank_of_isWhitespace (ho c ((List.takeWhile_sublist _).subset hc))
      (List.mem_takeWhile_imp hc)
  · intro c hc
    have hnot := List.head?_dropWhile_not isWhitespace o
    rw [hc] at hnot
    simpa using hnot
  · exact fun c hc => ho c ((List.dropWhile_sublist _).subset hc)

theorem dropWhile_blanks {blanks rest : List Char}
    (hblanks : ∀ c ∈ blanks, JsonText.isBlank c = true) (hline : '\n' ∉ blanks)
    (hrest : ∀ c ∈ rest.head?, isWhitespace c = false) :
    (firstLine (blanks ++ rest)).dropWhile isWhitespace = firstLine rest := by
  have hnewline : rest.head? ≠ some '\n' := fun h => absurd (hrest '\n' h) (by decide)
  rw [firstLine_append hline hnewline,
    List.dropWhile_append_of_pos fun c hc => isWhitespace_of_isBlank (hblanks c hc)]
  cases rest with
  | nil => rfl
  | cons c rest =>
    have hc := hrest c rfl
    have hne : c ≠ '\n' := by
      rintro rfl
      cases hc
    have hreturn : c ≠ '\r' := by
      rintro rfl
      cases hc
    rw [firstLine_cons hne hreturn]
    exact List.dropWhile_cons_of_neg (by rw [hc]; exact Bool.false_ne_true)

/-- The line ends in the blanks. -/
theorem dropWhile_blanks_newline {blanks : List Char}
    (hblanks : ∀ c ∈ blanks, JsonText.isBlank c = true) (hline : '\n' ∈ blanks) (rest : List Char) :
    (firstLine (blanks ++ rest)).dropWhile isWhitespace = [] := by
  obtain ⟨line, later, rfl, hnot⟩ := List.eq_append_cons_of_mem hline
  have hline : ∀ c ∈ line, isWhitespace c = true :=
    fun c hc => isWhitespace_of_isBlank (hblanks c (List.mem_append_left _ hc))
  rw [List.append_assoc, List.cons_append, firstLine_append_newline hnot, List.dropWhile_eq_nil_iff]
  split_ifs
  · exact fun c hc => hline c (List.dropLast_subset line hc)
  · exact hline

/-- No match begins outside of the literals or with a closing quote, and
before a quote it does not matter what came before. -/
structure Silent (isWord : Char → Bool) (a : Pattern) : Prop where
  outside : ∀ {before c o tail}, Outside (c :: o) → Edge tail →
    a.first isWord before (c :: (o ++ tail)) = none
  close : ∀ {before o tail}, Outside o → Edge tail →
    a.first isWord before ('"' :: (o ++ tail)) = none
  opening : ∀ before text, a.first isWord before ('"' :: text) = a.first isWord none ('"' :: text)

section Silent

variable {isWord : Char → Bool} {a : Pattern} {M : Type} [AddCommMonoid M] {weigh : Read → M}
  {before : Option Char} {o text : List Char}

theorem Silent.onward_quote (h : Silent isWord a) (before : Option Char) (text : List Char) :
    a.onward isWord weigh before ('"' :: text) = a.onward isWord weigh none ('"' :: text) := by
  have htally : ∀ text, a.tally isWord weigh before ('"' :: text)
      = a.tally isWord weigh none ('"' :: text) := by
    intro text
    rw [tally, tally, scan, scan, h.opening before]
  rw [onward, onward, firstLine_quote, htally]

theorem Silent.onward_edge (h : Silent isWord a) (htext : Edge text) :
    a.onward isWord weigh before text = a.onward isWord weigh none text := by
  cases text with
  | nil => rw [onward_nil, onward_nil]
  | cons c text =>
    obtain rfl := htext c rfl
    exact h.onward_quote before text

theorem Silent.onward_outside (h : Silent isWord a) (ho : Outside o) (htext : Edge text) :
    a.onward isWord weigh before (o ++ text) = a.onward isWord weigh none text := by
  induction o generalizing before with
  | nil => exact h.onward_edge htext
  | cons c o ih =>
    obtain ⟨hc, ho'⟩ := List.forall_mem_cons.mp ho
    rw [List.cons_append]
    by_cases hline : c = '\n'
    · rw [hline, onward_newline, ih ho']
    · obtain ⟨o', tail, hfirst, hout, htail⟩ := firstLine_outside ho' htext
      rw [onward_cons hline, ih ho']
      rw [hfirst]
      exact h.outside (Outside.cons hc hout) htail

theorem Silent.onward_close (h : Silent isWord a) (ho : Outside o) (htext : Edge text) :
    a.onward isWord weigh before ('"' :: (o ++ text)) = a.onward isWord weigh none text := by
  obtain ⟨o', tail, hfirst, hout, htail⟩ := firstLine_outside ho htext
  rw [onward_cons (by decide), h.onward_outside ho htext]
  rw [hfirst]
  exact h.close hout htail

/-- A pattern that begins neither outside of the literals nor with a quote. -/
theorem silent_of_refuses (h : a.Refuses isWord fun c => isOutside c || isQuote c) :
    Silent isWord a where
  outside ho _ := h _ _ _ (Bool.or_eq_true_iff.mpr (Or.inl (List.forall_mem_cons.mp ho).1))
  close _ _ := h _ _ _ rfl
  opening before text := by rw [h before '"' text rfl, h none '"' text rfl]

/-- A literal that no match leaves: what it weighs is its own. -/
theorem Silent.onward_literal (h : Silent isWord a) (ha : a.Avoids '"') (heats : a.Eats)
    (hweigh : ∀ r more, weigh (Read.extend more r) = weigh r) (ho : Outside o) (htext : Edge text)
    {u : List Char} (hu : Printed u) (before : Option Char) :
    a.onward isWord weigh before (u ++ '"' :: (o ++ text))
      = a.tally isWord weigh before (u ++ ['"']) + a.onward isWord weigh none text := by
  match u with
  | [] =>
    have hclose : a.first isWord before ['"'] = none :=
      h.close outside_nil fun _ h => nomatch h
    rw [List.nil_append, List.nil_append, h.onward_close ho htext, tally_cons '"' hclose, tally_nil,
      zero_add]
  | c :: u =>
    have hu' := hu.tail
    have hfirst : a.first isWord before (c :: u ++ '"' :: firstLine (o ++ text))
        = (a.first isWord before (c :: u ++ ['"'])).map (Read.extend (firstLine (o ++ text))) :=
      first_append ha _
    cases hmatch : a.first isWord before (c :: u ++ ['"']) with
    | none =>
      rw [hmatch] at hfirst
      have hnone : a.first isWord before (c :: firstLine (u ++ '"' :: (o ++ text))) = none := by
        rw [firstLine_printed hu']
        exact hfirst
      have htally : a.tally isWord weigh before (c :: (u ++ ['"']))
          = a.tally isWord weigh (some c) (u ++ ['"']) := tally_cons c hmatch
      rw [List.cons_append, List.cons_append, onward_cons hu.ne_newline hnone,
        htally, h.onward_literal ha heats hweigh ho htext hu']
    | some r =>
      rw [hmatch, ← firstLine_printed hu] at hfirst
      have hmem := List.mem_of_mem_head? hmatch
      obtain ⟨rest, hrest, htail⟩ := exists_rest ha hmem
      have hne := text_ne_nil heats hmem
      obtain ⟨more, hmore, -, hsum⟩ := onward_match weigh hfirst hne
      have hshort : rest.length < (c :: u).length := by
        have hpos := List.length_pos_of_ne_nil hne
        rw [hrest, List.length_append]
        omega
      have hprinted : Printed rest := by
        rw [hrest] at hu
        exact fun d hd => hu d (List.mem_append_right _ hd)
      have hmore' : more = rest ++ '"' :: (o ++ text) := by
        rw [hrest, List.append_assoc] at hmore
        exact (List.append_cancel_left hmore).symm
      rw [hsum, hmore', tally_match hmatch hne, htail, add_assoc, hweigh]
      exact congrArg _ (h.onward_literal ha heats hweigh ho htext hprinted _)
termination_by u.length
decreasing_by
  · exact Nat.lt_succ_self _
  · exact hshort

/-- What a row weighs is what its literals weigh. -/
theorem Silent.onward_quoted (h : Silent isWord a) (ha : a.Avoids '"') (heats : a.Eats)
    (hweigh : ∀ r more, weigh (Read.extend more r) = weigh r) {row : Row}
    (hrow : ∀ piece ∈ row, Outside piece.2) :
    a.onward isWord weigh none (quoted row)
      = (row.map fun piece => a.tally isWord weigh none ('"' :: (piece.1.val ++ ['"']))).sum := by
  induction row with
  | nil => exact onward_nil
  | cons piece row ih =>
    obtain ⟨s, o⟩ := piece
    obtain ⟨ho, hrow⟩ := List.forall_mem_cons.mp hrow
    rw [List.map_cons, List.sum_cons, ← ih hrow]
    exact h.onward_literal ha heats hweigh ho (edge_quoted row) (guarded_content s).2 none

end Silent

end TiktokSigner.FixtureHygiene
