import TiktokSigner.FixtureHygiene.CookieExits

/-!
# The cookie rule on every layout

Where the cookie pattern goes from one literal into the next, what it takes
there is reported and no longer looked at, and the next literal may be left
in another way than on its own. So the findings are the same on every layout
exactly where each literal that is entered weighs what it weighs alone, all
along every chain of literals (`Steady`), and nothing is reported of what
stands between literals.
-/

namespace TiktokSigner.FixtureHygiene

open Regex Regex.Pattern Text

variable {isWord : Char → Bool}

/-- What a literal weighs on a line of its own. -/
def alone (isWord : Char → Bool) (s : Content) : Multiset Kind :=
  (walk isWord 0 none ('"' :: s.val)).1

/-- What a literal weighs and how it is left: from its opening quote on, or
behind the value that a name takes of it. -/
def enter (isWord : Char → Bool) : Option (List Char) → Content → Multiset Kind × Option Exit
  | none, s => walk isWord 0 none ('"' :: s.val)
  | some name, s =>
      let value := s.val.takeWhile isValue
      let later := walk isWord 0 (lastOr (some '"') value) (s.val.dropWhile isValue)
      (tells name value + later.1, later.2)

/-- Every literal of the chain that begins here weighs what it weighs alone,
and nothing is reported behind it. -/
def Steady (isWord : Char → Bool) : Option (List Char) → Row → Prop
  | _, [] => True
  | entry, (s, o) :: row =>
      (enter isWord entry s).1 = alone isWord s ∧
        match (enter isWord entry s).2 with
        | none => True
        | some (.opens name) => tells name (o.takeWhile isValue) = 0
        | some (.ends name) =>
            match o with
            | [] => True
            | m :: later => isSeparator m = true →
                (later = [] → Steady isWord (some name) row) ∧
                  tells name (later.takeWhile isValue) = 0

/-- Every chain of literals is steady. -/
def CookieSteady (isWord : Char → Bool) (row : Row) : Prop :=
  ∀ part, part <:+ row → Steady isWord none part

/-- What the cookies weigh from a literal on. -/
def weighs (isWord : Char → Bool) : Option (List Char) → Content → List Char → Row → Multiset Kind
  | none, s, o, row => fresh isWord ((s, o) :: row)
  | some name, s, o, row => entered isWord name s o row

def weighAlone (isWord : Char → Bool) (row : Row) : Multiset Kind :=
  (row.map fun piece => alone isWord piece.1).sum

theorem weighAlone_cons (piece : Content × List Char) (row : Row) :
    weighAlone isWord (piece :: row) = alone isWord piece.1 + weighAlone isWord row :=
  List.sum_cons

theorem weighs_cases {entry : Option (List Char)} {s : Content} {o : List Char} {row : Row}
    (ho : Outside o) :
    ((enter isWord entry s).2 = none ∧
      weighs isWord entry s o row = (enter isWord entry s).1 + fresh isWord row) ∨
    ∃ exit before part, (enter isWord entry s).2 = some exit ∧ Guarded part ∧
      readingAt isWord before part = some (.leaves exit) ∧
      weighs isWord entry s o row = (enter isWord entry s).1 +
        cookieKv.onward isWord cookieKind before (part ++ '"' :: (o ++ quoted row)) := by
  cases entry with
  | none =>
    have hguard := guarded_content s
    rcases onward_walk ho hguard none with
      ⟨hexit, h⟩ | ⟨exit, before, part, hexit, hpart, hread, h⟩
    · exact Or.inl ⟨hexit, h⟩
    · exact Or.inr ⟨exit, before, part, hexit, hguard.suffix hpart, hread, h⟩
  | some name =>
    have hguard : Guarded (s.val.dropWhile isValue) :=
      (guarded_content s).tail.suffix (List.dropWhile_suffix _)
    rcases onward_walk ho hguard
        (lastOr (some '"') (s.val.takeWhile isValue)) with
      ⟨hexit, h⟩ | ⟨exit, before, part, hexit, hpart, hread, h⟩
    · refine Or.inl ⟨hexit, ?_⟩
      rw [weighs, entered, h]
      exact (add_assoc _ _ _).symm
    · refine Or.inr ⟨exit, before, part, hexit, hguard.suffix hpart, hread, ?_⟩
      rw [weighs, entered, h]
      exact (add_assoc _ _ _).symm

/-! ## On every layout -/

theorem outsideValue_takeWhile {text : List Char} (h : Outside text) :
    OutsideValue (text.takeWhile isValue) :=
  fun c hc => ⟨h c ((List.takeWhile_sublist _).subset hc), List.mem_takeWhile_imp hc⟩

theorem outside_squeeze {o : List Char} (h : Outside o) : Outside (squeeze o) :=
  fun c hc => h c (List.mem_filter.mp hc).1

/-- One literal of a chain, where it is known what the later ones weigh. -/
theorem weighs_step {row : Row} {entry : Option (List Char)} {s : Content} {o : List Char}
    (ho : Outside o) (hsteady : Steady isWord entry ((s, squeeze o) :: squeezed row))
    (hfresh : fresh isWord row = weighAlone isWord row)
    (hinto : ∀ name s' o' row', row = (s', o') :: row' → Steady isWord (some name) (squeezed row) →
      entered isWord name s' o' row' = weighAlone isWord row) :
    weighs isWord entry s o row = alone isWord s + weighAlone isWord row := by
  rw [Steady] at hsteady
  obtain ⟨hown, hexit⟩ := hsteady
  rw [← hown]
  rcases weighs_cases (s := s) ho with
    ⟨-, h⟩ | ⟨exit, before, part, hleft, hguard, hread, h⟩
  · rw [h, hfresh]
  · rw [hleft] at hexit
    rw [h]
    cases exit with
    | opens name =>
      obtain ⟨value, hsum, hstart, -, -⟩ := onward_opens ho hguard hread
      have hzero := tells_front (outsideValue_takeWhile (outside_squeeze ho)) hstart hexit
      rw [hsum, hzero, zero_add, hfresh]
    | ends name =>
      rcases onward_ends row ho hguard hread with
        ⟨m, s', o', row', -, hsqueeze, hm, hrow, hsum⟩ | ⟨value, hsum, -, hvalue, -⟩
      · rw [hsqueeze] at hexit
        rw [hsum, hinto name s' o' row' hrow ((hexit hm).1 rfl)]
      · have hzero : tells name value = 0 := by
          rcases hvalue with rfl | ⟨m, later, hsqueeze, hm, hstart⟩
          · exact tells_nil name
          · have hout := outside_squeeze ho
            rw [hsqueeze] at hexit hout
            exact tells_front (outsideValue_takeWhile (List.forall_mem_cons.mp hout).2) hstart
              (hexit hm).2
        rw [hsum, hzero, zero_add, hfresh]

theorem CookieSteady.tail {piece : Content × List Char} {row : Row}
    (h : CookieSteady isWord (piece :: row)) : CookieSteady isWord row :=
  fun part hpart => h part (hpart.trans (List.suffix_cons piece row))

theorem weighs_of_steady {row : Row} {entry : Option (List Char)} {s : Content} {o : List Char}
    (hout : ∀ piece ∈ (s, o) :: row, Outside piece.2)
    (hsteady : Steady isWord entry ((s, squeeze o) :: squeezed row))
    (hrow : CookieSteady isWord (squeezed row)) :
    weighs isWord entry s o row = alone isWord s + weighAlone isWord row := by
  induction row generalizing entry s o with
  | nil =>
    obtain ⟨ho, -⟩ := List.forall_mem_cons.mp hout
    exact weighs_step ho hsteady onward_nil fun _ _ _ _ h => nomatch h
  | cons piece row ih =>
    obtain ⟨ho, hout⟩ := List.forall_mem_cons.mp hout
    refine weighs_step ho hsteady ?_ fun name s' o' row' h hinto => ?_
    · exact ih hout (hrow _ (List.suffix_refl _)) hrow.tail
    · obtain ⟨rfl, rfl⟩ := List.cons.inj h
      exact ih hout hinto hrow.tail

/-- On every layout of steady chains the literals weigh what they weigh alone. -/
theorem fresh_of_steady {row : Row} (hout : ∀ piece ∈ row, Outside piece.2)
    (hrow : CookieSteady isWord (squeezed row)) : fresh isWord row = weighAlone isWord row := by
  cases row with
  | nil => exact onward_nil
  | cons piece row => exact weighs_of_steady hout (hrow _ (List.suffix_refl _)) hrow.tail

/-! ## A layout that tells -/

/-- A literal at the end of its line. -/
theorem weighs_newline (entry : Option (List Char)) {s : Content} {o : List Char} {row : Row}
    (ho : Outside o) :
    weighs isWord entry s ('\n' :: o) row = (enter isWord entry s).1 + fresh isWord row := by
  have ho' : Outside ('\n' :: o) := Outside.cons rfl ho
  rcases weighs_cases (s := s) ho' with
    ⟨-, h⟩ | ⟨exit, before, part, -, hguard, hread, h⟩
  · exact h
  · rw [h]
    cases exit with
    | opens name =>
      obtain ⟨value, hsum, -, hnil, -⟩ := onward_opens ho' hguard hread
      rw [hsum, hnil rfl, tells_nil, zero_add]
    | ends name =>
      rcases onward_ends row ho' hguard hread with
        ⟨m, s', o', row', hline, -⟩ | ⟨value, hsum, hnil, -⟩
      · exact absurd List.mem_cons_self hline
      · rw [hsum, hnil rfl, tells_nil, zero_add]

theorem fresh_broken {row : Row} (hout : ∀ piece ∈ row, Outside piece.2) :
    fresh isWord (brokenRow [] row) = weighAlone isWord row := by
  induction row with
  | nil => exact onward_nil
  | cons piece row ih =>
    obtain ⟨s, o⟩ := piece
    obtain ⟨ho, hout⟩ := List.forall_mem_cons.mp hout
    rw [weighAlone_cons, ← ih hout]
    exact weighs_newline none ho

/-- What is left at an exit, where it is known which one it is. -/
theorem weighs_exit {entry : Option (List Char)} {s : Content} {o : List Char} {row : Row}
    {exit : Exit} (ho : Outside o) (hexit : (enter isWord entry s).2 = some exit) :
    ∃ before part, Guarded part ∧ readingAt isWord before part = some (.leaves exit) ∧
      weighs isWord entry s o row = (enter isWord entry s).1 +
        cookieKv.onward isWord cookieKind before (part ++ '"' :: (o ++ quoted row)) := by
  rcases weighs_cases (s := s) ho with
    ⟨hnone, -⟩ | ⟨exit', before, part, hsome, hguard, hread, h⟩
  · rw [hnone] at hexit
    cases hexit
  · rw [hsome] at hexit
    obtain rfl := Option.some.inj hexit
    exact ⟨before, part, hguard, hread, h⟩

/-- One literal of a chain, where it is known how to lay out the later ones. -/
theorem unsteady_step {row : Row} {entry : Option (List Char)} {s : Content} {o : List Char}
    (hbare : ∀ piece ∈ (s, o) :: row, Bare piece.2) (h : ¬Steady isWord entry ((s, o) :: row))
    (hinto : ∀ name, ¬Steady isWord (some name) row → ∃ joined s' o' row',
      brokenRow joined row = (s', o') :: row' ∧
        entered isWord name s' o' row' ≠ weighAlone isWord row) :
    ∃ joined : List Bool,
      weighs isWord entry s (if joined.headD false then o else '\n' :: o)
          (brokenRow joined.tail row)
        ≠ alone isWord s + weighAlone isWord row := by
  obtain ⟨ho, hrow⟩ := List.forall_mem_cons.mp hbare
  have hfresh : fresh isWord (brokenRow [] row) = weighAlone isWord row :=
    fresh_broken fun piece hpiece => (hrow piece hpiece).outside
  by_cases hown : (enter isWord entry s).1 = alone isWord s
  · rw [Steady] at h
    have hleft := not_and.mp h hown
    -- what is reported behind the literal is too much
    have htold : ∀ {value name : List Char}, ¬tells name value = 0 →
        alone isWord s + (tells name value + weighAlone isWord row)
          ≠ alone isWord s + weighAlone isWord row := by
      intro value name hvalue hsame
      have hmore := add_left_cancel hsame
      exact hvalue (add_eq_right.mp hmore)
    cases hexit : (enter isWord entry s).2 with
    | none =>
      rw [hexit] at hleft
      exact absurd trivial hleft
    | some exit =>
      rw [hexit] at hleft
      cases exit with
      | opens name =>
        refine ⟨[true], ?_⟩
        obtain ⟨before, part, hguard, hread, hsum⟩ := weighs_exit ho.outside
          hexit
        obtain ⟨value, hsum', -, -, hvalue⟩ := onward_opens ho.outside
          hguard hread
        have hweighs : weighs isWord entry s o (brokenRow [] row)
            = alone isWord s + (tells name (o.takeWhile isValue) + weighAlone isWord row) := by
          rw [hsum, hsum', hvalue ho, hfresh, hown]
        exact fun hsame => htold hleft (hweighs.symm.trans hsame)
      | ends name =>
        cases o with
        | nil => exact absurd trivial hleft
        | cons m later =>
          obtain ⟨hm, hboth⟩ := Classical.not_imp.mp hleft
          have hlater : Bare later := (List.forall_mem_cons.mp ho).2
          by_cases hvalue : tells name (later.takeWhile isValue) = 0
          · have hinner : ¬(later = [] → Steady isWord (some name) row) :=
              fun h => hboth ⟨h, hvalue⟩
            obtain ⟨rfl, hunsteady⟩ := Classical.not_imp.mp hinner
            obtain ⟨joined, s', o', row', hbroken, hne⟩ := hinto name hunsteady
            refine ⟨true :: joined, ?_⟩
            obtain ⟨before, part, hguard, hread, hsum⟩ :=
              weighs_exit ho.outside hexit
            have hweighs : weighs isWord entry s [m] (brokenRow joined row)
                = alone isWord s + entered isWord name s' o' row' := by
              rw [hsum, hown]
              rcases onward_ends (brokenRow joined row) ho.outside hguard hread with
                ⟨m', s'', o'', row'', -, -, -, hrow', hsum'⟩ | ⟨value, -, -, -, hcompact⟩
              · rw [hbroken] at hrow'
                obtain ⟨hpiece, rfl⟩ := List.cons.inj hrow'
                obtain ⟨rfl, rfl⟩ := Prod.mk.inj hpiece
                rw [hsum']
              · have hnil := (hcompact m [] rfl bare_nil hm).1 rfl
                rw [hbroken] at hnil
                cases hnil
            exact fun hsame => hne (add_left_cancel (hweighs.symm.trans hsame))
          · refine ⟨[true], ?_⟩
            obtain ⟨before, part, hguard, hread, hsum⟩ :=
              weighs_exit ho.outside hexit
            have hweighs : weighs isWord entry s (m :: later) (brokenRow [] row)
                = alone isWord s +
                  (tells name (later.takeWhile isValue) + weighAlone isWord row) := by
              rw [hsum, hown]
              rcases onward_ends _ ho.outside hguard hread with
                ⟨m', -, -, -, -, hsqueeze, -⟩ | ⟨value, hsum', -, -, hcompact⟩
              · rw [squeeze_bare ho] at hsqueeze
                rw [(List.cons.inj hsqueeze).2] at hvalue
                exact absurd (tells_nil name) hvalue
              · rw [hsum', (hcompact m later rfl hlater hm).2, hfresh]
            exact fun hsame => htold hvalue (hweighs.symm.trans hsame)
  · refine ⟨[], fun hsame => hown ?_⟩
    have hweighs : weighs isWord entry s ('\n' :: o) (brokenRow [] row)
        = (enter isWord entry s).1 + weighAlone isWord row := by
      rw [weighs_newline entry ho.outside, hfresh]
    exact add_right_cancel (hweighs.symm.trans hsame)

/-- Where a chain is not steady there is a layout on which it weighs
something else. -/
theorem exists_unsteady {row : Row} {entry : Option (List Char)} {s : Content} {o : List Char}
    (hbare : ∀ piece ∈ (s, o) :: row, Bare piece.2) (h : ¬Steady isWord entry ((s, o) :: row)) :
    ∃ joined : List Bool,
      weighs isWord entry s (if joined.headD false then o else '\n' :: o)
          (brokenRow joined.tail row)
        ≠ alone isWord s + weighAlone isWord row := by
  induction row generalizing entry s o with
  | nil => exact unsteady_step hbare h fun name h => absurd trivial h
  | cons piece row ih =>
    obtain ⟨s', o'⟩ := piece
    refine unsteady_step hbare h fun name hunsteady => ?_
    obtain ⟨joined, hne⟩ := ih (List.forall_mem_cons.mp hbare).2 hunsteady
    exact ⟨joined, s', _, _, rfl, hne⟩

theorem exists_loudCookie {row : Row} (hbare : ∀ piece ∈ row, Bare piece.2)
    (h : ¬CookieSteady isWord row) :
    ∃ joined, fresh isWord (brokenRow joined row) ≠ weighAlone isWord row := by
  induction row with
  | nil =>
    refine absurd (fun part hpart => ?_) h
    rw [List.suffix_nil.mp hpart]
    trivial
  | cons piece row ih =>
    obtain ⟨s, o⟩ := piece
    obtain ⟨ho, hrow⟩ := List.forall_mem_cons.mp hbare
    by_cases hfirst : Steady isWord none ((s, o) :: row)
    · have hlater : ¬CookieSteady isWord row := by
        refine fun hlater => h fun part hpart => ?_
        rcases List.suffix_cons_iff.mp hpart with rfl | hpart
        · exact hfirst
        · exact hlater part hpart
      obtain ⟨joined, hne⟩ := ih hrow hlater
      refine ⟨false :: joined, fun hsame => hne ?_⟩
      have hweighs : weighs isWord none s ('\n' :: o) (brokenRow joined row)
          = alone isWord s + fresh isWord (brokenRow joined row) := weighs_newline none ho.outside
      exact add_left_cancel (hweighs.symm.trans hsame)
    · exact exists_unsteady hbare hfirst

end TiktokSigner.FixtureHygiene
