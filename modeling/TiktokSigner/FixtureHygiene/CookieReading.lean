import TiktokSigner.FixtureHygiene.Literals

/-!
# How the cookie pattern reads

The pattern leaves no choice: a quote is taken where there is one, blanks
are taken to their end, and a name that something else follows than a
separator is no match (`key_cookieKv`). In a literal the name settles what
is read behind it (`nameAt_literal`), but for a name or a separator at the
very end of the literal.
-/

namespace TiktokSigner.FixtureHygiene

open Regex Regex.Pattern Text

/-- The text without the quote it begins with. -/
def dropQuote : List Char → List Char
  | [] => []
  | c :: text => if isQuote c then text else c :: text

/-- What follows a separator behind blanks, from the value on. -/
def bareRest (text : List Char) : Option (List Char) :=
  match text.dropWhile isWhitespace with
  | [] => none
  | c :: text => if isSeparator c then some (dropQuote (text.dropWhile isWhitespace)) else none

def atBoundary (isWord : Char → Bool) (before : Option Char) (text : List Char) : Bool :=
  before.any isWord != text.head?.any isWord

/-- A name and what follows it, where it may be the name of a cookie. -/
def nameWith {α : Type} (isWord : Char → Bool) (f : Read → Option α) (before : Option Char)
    (text : List Char) : Option α :=
  if atBoundary isWord before text then
    sensitiveCookies.findSome? fun name => (stripFolded name.toList text).bind f
  else none

/-- A value and what follows it. -/
def valueKey (rest : List Char) : List (List Char) × List Char :=
  ([rest.takeWhile isValue], rest.dropWhile isValue)

/-- A name, a value and what follows. -/
def nameAt (isWord : Char → Bool) : Option Char → List Char →
    Option (List (List Char) × List Char) :=
  nameWith isWord fun read => (bareRest (dropQuote read.rest)).map fun rest =>
    ([read.text, rest.takeWhile isValue], rest.dropWhile isValue)

/-! ## The way that is taken -/

section First

variable {isWord : Char → Bool}

theorem quote_eq : quote = one isQuote := rfl

/-- A pattern behind one that reads without groups. -/
theorem map_key_first {a b : Pattern} {before : Option Char} {text : List Char} {r : Read}
    {key : List (List Char) × List Char} (hr : a.first isWord before text = some r)
    (hgroups : r.groups = [])
    (hb : (b.first isWord (lastOr before r.text) r.rest).map Read.key = some key) :
    ((seq a b).first isWord before text).map Read.key = some key := by
  obtain ⟨s, hs, hkey⟩ := Option.map_eq_some_iff.mp hb
  rw [first_seq_of_some hr hs, Option.map_some, key_append hgroups, hkey]

/-- The value of a cookie. -/
def cookieValue : Pattern := seq (group (run isValue 0)) empty

theorem key_value (before : Option Char) (text : List Char) :
    (cookieValue.first isWord before text).map Read.key = some (valueKey text) := by
  have hgroup : (group (run isValue 0)).first isWord before text
      = some ⟨text.takeWhile isValue, [text.takeWhile isValue], text.dropWhile isValue⟩ := by
    rw [first_group, first_run]
    rfl
  rw [cookieValue, first_seq_of_some hgroup rfl]
  rfl

theorem key_quoteValue (before : Option Char) (text : List Char) :
    ((seq (maybe quote) cookieValue).first isWord before text).map Read.key
      = some (valueKey (dropQuote text)) := by
  obtain ⟨r, hr, hgroups, hrest⟩ : ∃ r, (maybe quote).first isWord before text = some r ∧
      r.groups = [] ∧ r.rest = dropQuote text := by
    cases text with
    | nil => exact ⟨_, rfl, rfl, rfl⟩
    | cons c rest =>
      rw [quote, first_maybe, dropQuote, isQuote]
      split_ifs
      · exact ⟨_, rfl, rfl, rfl⟩
      · exact ⟨_, rfl, rfl, rfl⟩
  refine map_key_first hr hgroups ?_
  rw [hrest]
  exact key_value _ _

/-- A separator between blanks, and a value. -/
def separated : Pattern :=
  seq blanks (seq (one isSeparator) (seq blanks (seq (maybe quote) cookieValue)))

theorem key_separated (before : Option Char) (text : List Char) :
    (separated.first isWord before text).map Read.key = (bareRest text).map valueKey := by
  have hrefuses : Refuses isWord isWhitespace
      (seq (one isSeparator) (seq blanks (seq (maybe quote) cookieValue))) :=
    (refuses_one fun c => isSeparator_of_isWhitespace).seq _
  rw [separated]
  unfold blanks at hrefuses ⊢
  rw [first_seq_run hrefuses, map_key_append rfl, bareRest]
  cases text.dropWhile isWhitespace with
  | nil => rfl
  | cons c rest =>
    rw [first_seq_one]
    dsimp only
    split_ifs
    · rw [map_key_append rfl]
      exact map_key_first first_run rfl (key_quoteValue _ _)
    · rfl

theorem bareRest_quote (text : List Char) : bareRest ('"' :: text) = none := rfl

theorem refuses_separated : Refuses isWord isQuote separated := by
  intro before c rest hc
  rw [← Option.map_eq_none_iff (f := Read.key), key_separated, isQuote_iff.mp hc, bareRest_quote]
  rfl

variable (isWord) in
theorem key_behindName (before : Option Char) (text : List Char) :
    ((seq (maybe quote) separated).first isWord before text).map Read.key
      = (bareRest (dropQuote text)).map valueKey := by
  cases text with
  | nil => rw [quote_eq, first_seq_maybe_nil, key_separated, dropQuote]
  | cons c rest =>
    rw [quote_eq, first_seq_maybe refuses_separated, dropQuote]
    split_ifs
    · rw [map_key_append rfl, key_separated]
    · exact key_separated before (c :: rest)

/-- A name and what follows it. -/
def named : Pattern := seq (group (oneOf sensitiveCookies)) (seq (maybe quote) separated)

theorem stripFolded_quote {name : String} (hname : name ∈ soughtNames) (text : List Char) :
    stripFolded name.toList ('"' :: text) = none :=
  stripFolded_outside (o := []) hname outside_nil fun _ hc => (Option.some.inj hc).symm

theorem mem_soughtNames {name : String} (h : name ∈ sensitiveCookies) : name ∈ soughtNames :=
  List.mem_append_left _ (List.mem_append_left _ (List.mem_append_left _ h))

theorem refuses_named : Refuses isWord isQuote named := by
  intro before c rest hc
  rw [named, first_seq_oneOf, List.findSome?_eq_none_iff]
  intro name hname
  rw [isQuote_iff.mp hc, stripFolded_quote (mem_soughtNames hname)]
  rfl

theorem key_named (before : Option Char) (text : List Char) :
    ((seq boundary named).first isWord before text).map Read.key = nameAt isWord before text := by
  rw [first_seq_boundary, nameAt, nameWith, atBoundary]
  split_ifs
  · rw [named, first_seq_oneOf, List.map_findSome?]
    refine congrArg (List.findSome? · sensitiveCookies) (funext fun name => ?_)
    rw [Function.comp_apply]
    cases stripFolded name.toList text with
    | none => rfl
    | some read =>
      have hkey := key_behindName isWord (lastOr before read.text) read.rest
      have hname : ∀ o : Option Read, (o.map (Read.append ⟨read.text, [read.text], read.rest⟩)).map
          Read.key = (o.map Read.key).map fun key => (read.text :: key.1, key.2) := by
        intro o
        rw [Option.map_map, Option.map_map]
        rfl
      rw [Option.bind_some, Option.bind_some, hname, hkey, Option.map_map]
      rfl
  · rfl

/-- What the pattern reads. -/
theorem key_cookieKv (before : Option Char) (c : Char) (rest : List Char) :
    (cookieKv.first isWord before (c :: rest)).map Read.key
      = if isQuote c then nameAt isWord (some c) rest else nameAt isWord before (c :: rest) := by
  have hpattern : cookieKv = seq (maybe quote) (seq boundary named) := rfl
  rw [hpattern, quote_eq, first_seq_maybe refuses_named.boundary]
  split_ifs
  · rw [map_key_append rfl, key_named]
  · exact key_named before (c :: rest)

end First

/-! ## Names in a literal -/

/-- A name ends here: what follows is a blank, a separator or the end of the
literal. -/
def settles (read : Read) : Bool := read.rest.head?.all fun c => isWhitespace c || isSeparator c

/-- The name of a cookie in a literal. -/
def cookieName (isWord : Char → Bool) (before : Option Char) (text : List Char) : Option Read :=
  if atBoundary isWord before text then
    sensitiveCookies.findSome? fun name => (stripFolded name.toList text).filter settles
  else none

theorem findSome?_congr {α β : Type} {l : List β} {f g : β → Option α} (h : ∀ b ∈ l, f b = g b) :
    l.findSome? f = l.findSome? g := by
  induction l with
  | nil => rfl
  | cons b l ih =>
    obtain ⟨hb, hl⟩ := List.forall_mem_cons.mp h
    rw [List.findSome?_cons, List.findSome?_cons, hb, ih hl]

/-- Where at most one way goes on, it can be looked for first. -/
theorem findSome?_bind {α β : Type} {l : List β} {strip : β → Option Read} {p : Read → Bool}
    {f : Read → Option α} (hnone : ∀ b ∈ l, ∀ r, strip b = some r → p r = false → f r = none)
    (hone : ∀ b ∈ l, ∀ b' ∈ l, ∀ r r', strip b = some r → strip b' = some r' → p r = true →
      p r' = true → r = r') :
    (l.findSome? fun b => (strip b).bind f) = (l.findSome? fun b => (strip b).filter p).bind f := by
  induction l with
  | nil => rfl
  | cons b l ih =>
    have hlater := ih (fun b hb => hnone b (List.mem_cons_of_mem _ hb))
      fun b hb b' hb' => hone b (List.mem_cons_of_mem _ hb) b' (List.mem_cons_of_mem _ hb')
    rw [List.findSome?_cons, List.findSome?_cons]
    cases hstrip : strip b with
    | none => exact hlater
    | some r =>
      cases hp : p r with
      | false =>
        rw [Option.bind_some, hnone b List.mem_cons_self r hstrip hp, Option.filter_some,
          if_neg (by rw [hp]; exact Bool.false_ne_true)]
        exact hlater
      | true =>
        rw [Option.bind_some, Option.filter_some, if_pos hp]
        dsimp only
        rw [Option.bind_some]
        cases hf : f r with
        | some a => rfl
        | none =>
          dsimp only
          rw [List.findSome?_eq_none_iff]
          intro b' hb'
          cases hstrip' : strip b' with
          | none => rfl
          | some r' =>
            rw [Option.bind_some]
            cases hp' : p r' with
            | false => exact hnone b' (List.mem_cons_of_mem _ hb') r' hstrip' hp'
            | true =>
              rw [← hone b List.mem_cons_self b' (List.mem_cons_of_mem _ hb') r r' hstrip hstrip' hp
                hp', hf]

/-- What a name is read as is what it is written as, and what follows. -/
theorem cookieName_eq_some {isWord : Char → Bool} {before : Option Char} {text : List Char}
    {r : Read}
    (h : cookieName isWord before text = some r) :
    ∃ name ∈ sensitiveCookies, SameFolded r.text name.toList ∧ r.groups = [] ∧
      r.text ++ r.rest = text ∧ settles r = true := by
  rw [cookieName] at h
  split_ifs at h
  obtain ⟨name, hname, hread⟩ := List.exists_of_findSome?_eq_some h
  obtain ⟨hstrip, hsettles⟩ := Option.filter_eq_some_iff.mp hread
  obtain ⟨hfold, hgroups, htext⟩ := stripFolded_eq_some.mp hstrip
  exact ⟨name, hname, hfold, hgroups, htext, hsettles⟩

theorem ne_nil_of_sameFolded {name : String} (hname : name ∈ soughtNames) {r : List Char}
    (h : SameFolded r name.toList) : r ≠ [] := by
  rintro rfl
  exact not_outside_of_sameFolded hname h outside_nil

theorem not_settles_of_isNameLike {c : Char} (h : isNameLike c = true) :
    (isWhitespace c || isSeparator c) = false := by
  rw [isNameLike, isNoneOf, Bool.and_eq_true, Bool.not_eq_true', Bool.not_eq_true'] at h
  rw [h.2, Bool.false_or]
  by_contra hsep
  have hmark := isSeparator_iff.mp (by simpa using hsep)
  rcases hmark with rfl | rfl | rfl
  · cases h.1
  · cases h.1
  · cases h.1

/-- A name that ends does not go on. -/
theorem nil_of_settles {more rest : List Char} (hmore : ∀ c ∈ more, isNameLike c = true)
    {text : List Char} {groups : List (List Char)}
    (h : settles ⟨text, groups, more ++ rest⟩ = true) : more = [] := by
  cases more with
  | nil => rfl
  | cons c more =>
    have hc : (isWhitespace c || isSeparator c) = true := h
    rw [not_settles_of_isNameLike (hmore c List.mem_cons_self)] at hc
    cases hc

/-- At most one name ends at a place where a name is read. -/
theorem eq_of_settles {name name' : String} (hname : name ∈ soughtNames)
    (hname' : name' ∈ soughtNames) {text : List Char} {r r' : Read}
    (hr : stripFolded name.toList text = some r) (hr' : stripFolded name'.toList text = some r')
    (h : settles r = true) (h' : settles r' = true) : r = r' := by
  obtain ⟨read, groups, rest⟩ := r
  obtain ⟨read', groups', rest'⟩ := r'
  obtain ⟨hfold, hgroups, htext⟩ := stripFolded_eq_some.mp hr
  obtain ⟨hfold', hgroups', htext'⟩ := stripFolded_eq_some.mp hr'
  dsimp only at hgroups hgroups' htext htext' hfold hfold'
  rw [hgroups, hgroups']
  rcases List.append_eq_append_iff.mp (htext.trans htext'.symm) with
    ⟨more, hread, hrest⟩ | ⟨more, hread, hrest⟩
  · have hlike := isNameLike_of_sameFolded hname' hfold'
    rw [hread] at hlike
    rw [hrest] at h
    have hnil := nil_of_settles (fun c hc => hlike c (List.mem_append_right _ hc)) h
    rw [hread, hrest, hnil, List.append_nil, List.nil_append]
  · have hlike := isNameLike_of_sameFolded hname hfold
    rw [hread] at hlike
    rw [hrest] at h'
    have hnil := nil_of_settles (fun c hc => hlike c (List.mem_append_right _ hc)) h'
    rw [hread, hrest, hnil, List.append_nil, List.nil_append]

/-- No quote stands behind a name inside of a literal. -/
theorem ne_quote_of_sameFolded {name : String} (hname : name ∈ soughtNames) {r more : List Char}
    (h : SameFolded r name.toList) {d : Char} (hguard : Guarded (r ++ d :: more)) : d ≠ '"' := by
  rintro rfl
  obtain ⟨front, c, rfl⟩ := (List.eq_nil_or_concat' r).resolve_left (ne_nil_of_sameFolded hname h)
  have hback : Guarded (front ++ c :: '"' :: more) := by
    simpa using hguard
  have hc := isNameLike_of_sameFolded hname h c (List.mem_append_right _ List.mem_cons_self)
  rw [hback.quote] at hc
  cases hc

theorem bareRest_cons {c : Char} (hspace : isWhitespace c = false) (hsep : isSeparator c = false)
    (text : List Char) : bareRest (c :: text) = none := by
  rw [bareRest, List.dropWhile_cons_of_neg (by rw [hspace]; exact Bool.false_ne_true)]
  exact if_neg (by rw [hsep]; exact Bool.false_ne_true)

theorem dropQuote_cons {c : Char} (h : c ≠ '"') (text : List Char) :
    dropQuote (c :: text) = c :: text :=
  if_neg fun hc => h (isQuote_iff.mp hc)

/-- The name of a cookie before a quote is read in the literal. -/
theorem nameAt_quote {isWord : Char → Bool} {before : Option Char} {text tail : List Char}
    (hguard : Guarded text) :
    nameAt isWord before (text ++ '"' :: tail)
      = (cookieName isWord before text).bind fun r =>
        (bareRest (dropQuote (r.rest ++ '"' :: tail))).map fun rest =>
          ([r.text, rest.takeWhile isValue], rest.dropWhile isValue) := by
  have hedge : Edge ('"' :: tail) := fun c hc => (Option.some.inj hc).symm
  have hstrip : ∀ name ∈ sensitiveCookies, stripFolded name.toList (text ++ '"' :: tail)
      = (stripFolded name.toList text).map fun r => ⟨r.text, [], r.rest ++ '"' :: tail⟩ :=
    fun name hname => stripFolded_append (mem_soughtNames hname) hedge
  cases text with
  | nil =>
    have hnone : ∀ name ∈ sensitiveCookies, stripFolded name.toList ('"' :: tail) = none :=
      fun name hname => stripFolded_quote (mem_soughtNames hname) tail
    have hnone' : ∀ name ∈ sensitiveCookies, stripFolded name.toList [] = none := by
      intro name hname
      have h := hstrip name hname
      rw [List.nil_append, hnone name hname] at h
      exact Option.map_eq_none_iff.mp h.symm
    have hleft : nameAt isWord before ('"' :: tail) = none := by
      rw [nameAt, nameWith, List.findSome?_eq_none_iff.mpr, ite_self]
      intro name hname
      rw [hnone name hname]
      rfl
    have hright : cookieName isWord before [] = none := by
      rw [cookieName, List.findSome?_eq_none_iff.mpr, ite_self]
      intro name hname
      rw [hnone' name hname]
      rfl
    rw [List.nil_append, hleft, hright]
    rfl
  | cons c text =>
    have hsame : atBoundary isWord before (c :: text ++ '"' :: tail)
        = atBoundary isWord before (c :: text) := rfl
    rw [nameAt, nameWith, cookieName, hsame]
    by_cases hboundary : atBoundary isWord before (c :: text) = true
    · rw [if_pos hboundary, if_pos hboundary, ← findSome?_bind]
      · refine findSome?_congr fun name hname => ?_
        rw [hstrip name hname, Option.bind_map]
        rfl
      · intro name hname r hr hsettles
        obtain ⟨hfold, -, htext⟩ := stripFolded_eq_some.mp hr
        cases hrest : r.rest with
        | nil =>
          rw [settles, hrest] at hsettles
          cases hsettles
        | cons d more =>
          rw [settles, hrest] at hsettles
          obtain ⟨hspace, hsep⟩ := Bool.or_eq_false_iff.mp hsettles
          rw [hrest] at htext
          have hquote := ne_quote_of_sameFolded (mem_soughtNames hname) hfold (htext ▸ hguard)
          rw [List.cons_append, dropQuote_cons hquote, bareRest_cons hspace hsep]
          rfl
      · intro name hname name' hname' r r' hr hr' h h'
        exact eq_of_settles (mem_soughtNames hname) (mem_soughtNames hname') hr hr' h h'
    · rw [if_neg hboundary, if_neg hboundary]
      rfl

end TiktokSigner.FixtureHygiene
