import Mathlib.Data.List.Infix
import TiktokSigner.FixtureHygiene.CookieWalk

/-!
# Behind a literal

What follows where the cookie pattern leaves a literal. Behind a name and a
separator it takes a value: of the next literal, which it enters
(`entered`), or of what stands outside of the literals, and then the next
literal is read as if nothing had been before it.
-/

namespace TiktokSigner.FixtureHygiene

open Regex Regex.Pattern Text

/-! ## What a name and a value are reported as -/

theorem tells_of_synthetic {name value : List Char} (h : isSyntheticValue value = true) :
    tells name value = 0 := by
  have hfinding : cookieFinding "" none ⟨[], [name, value], []⟩ = none := by
    have hvalue : (⟨[], [name, value], []⟩ : Read).group 1 = value := rfl
    have hsynthetic : ¬(!true) = true := Bool.false_ne_true
    rw [cookieFinding, hvalue, h, if_neg hsynthetic, ite_self]
  rw [tells, cookieKind, kindOf, hfinding]
  rfl

theorem tells_nil (name : List Char) : tells name [] = 0 := tells_of_synthetic rfl

/-- Every marker has a letter that does not stand outside of the literals. -/
theorem exists_inside_syntheticMarkers :
    (syntheticMarkers.all fun m => m.toList.any fun c => !isOutside c) = true := by
  decide

theorem isOutside_toLower {c : Char} (hc : isOutside c = true) : isOutside c.toLower = true :=
  isOutside_all (p := fun c => isOutside c.toLower) (by decide) hc

theorem mem_of_contains {part text : List Char} (h : contains part text = true) {c : Char}
    (hc : c ∈ part) : c ∈ text := by
  obtain ⟨tail, htail, hpart⟩ := List.any_eq_true.mp h
  exact ((List.mem_tails _ _).mp htail).subset ((List.isPrefixOf_iff_prefix.mp hpart).subset hc)

/-- The value is of those that the pattern reads outside of the literals. -/
def OutsideValue (value : List Char) : Prop := ∀ c ∈ value, isOutside c = true ∧ isValue c = true

theorem OutsideValue.front {value short : List Char} (h : OutsideValue value)
    (hshort : short <+: value) : OutsideValue short :=
  fun c hc => h c (hshort.subset hc)

theorem isSyntheticValue_outside {value : List Char} (h : OutsideValue value) :
    isSyntheticValue value = true ↔ byteLen value < 12 := by
  have hspace : ∀ c ∈ value, isWhitespace c = false := by
    intro c hc
    by_contra hspace
    have hvalue := (h c hc).2
    rw [isValue_of_isWhitespace (by simpa using hspace)] at hvalue
    cases hvalue
  have htrim : trim isWhitespace value = value := by
    have hall : trim isWhitespace ([] ++ value ++ []) = value :=
      trim_append (fun _ h => nomatch h) (fun _ h => nomatch h) hspace
    rwa [List.nil_append, List.append_nil] at hall
  have hmarker :
      (syntheticMarkers.any fun m => contains m.toList (toAsciiLowercase value)) = false := by
    rw [List.any_eq_false]
    intro m hm hcontains
    obtain ⟨c, hc, hinside⟩ := List.any_eq_true.mp
      (List.all_eq_true.mp exists_inside_syntheticMarkers m hm)
    obtain ⟨d, hd, hlower⟩ := List.mem_map.mp (mem_of_contains hcontains hc)
    rw [← hlower, isOutside_toLower (h d hd).1] at hinside
    cases hinside
  rw [isSyntheticValue]
  dsimp only
  rw [htrim, hmarker]
  split_ifs with hlen
  · exact iff_of_true rfl hlen
  · exact iff_of_false not_false hlen

theorem byteLen_le_front {short text : List Char} (h : short <+: text) :
    byteLen short ≤ byteLen text := by
  obtain ⟨more, rfl⟩ := h
  rw [byteLen, byteLen, List.map_append, List.sum_append]
  exact Nat.le_add_right _ _

/-- What begins a value that is not reported is not reported. -/
theorem tells_front {name value short : List Char} (hvalue : OutsideValue value)
    (hshort : short <+: value) (h : tells name value = 0) : tells name short = 0 := by
  by_cases hsynthetic : isSyntheticValue short = true
  · exact tells_of_synthetic hsynthetic
  · have hlong : ¬isSyntheticValue value = true := by
      rw [isSyntheticValue_outside (hvalue.front hshort)] at hsynthetic
      rw [isSyntheticValue_outside hvalue]
      exact fun hlen => hsynthetic (Nat.lt_of_le_of_lt (byteLen_le_front hshort) hlen)
    have hsame : ∀ value : List Char, ¬isSyntheticValue value = true →
        (tells name value = 0 ↔
          sensitiveCookies.any (fun c => eqIgnoreAsciiCase c.toList name) = false) := by
      intro value hvalue
      have hgroup : (⟨[], [name, value], []⟩ : Read).group 1 = value := rfl
      have hname : (⟨[], [name, value], []⟩ : Read).group 0 = name := rfl
      rw [tells, cookieKind, kindOf, cookieFinding, hgroup, hname]
      split_ifs with hnone hreported
      · exact iff_of_true rfl (by simpa using hnone)
      · exact iff_of_false (Multiset.singleton_ne_zero _) (by simpa using hnone)
      · exact absurd hreported (by simpa using hvalue)
    rw [hsame short hsynthetic, ← hsame value hlong]
    exact h

/-! ## Where the literal is left -/

section Leaves

variable {isWord : Char → Bool} {o part name : List Char} {row : Row} {before : Option Char}

/-- What the cookies weigh from the next literal on. -/
def fresh (isWord : Char → Bool) (row : Row) : Multiset Kind :=
  cookieKv.onward isWord cookieKind none (quoted row)

/-- What the cookies weigh from a literal on of which a value is taken. -/
def entered (isWord : Char → Bool) (name : List Char) (s : Content) (o : List Char) (row : Row) :
    Multiset Kind :=
  tells name (s.val.takeWhile isValue) +
    cookieKv.onward isWord cookieKind (lastOr (some '"') (s.val.takeWhile isValue))
      (s.val.dropWhile isValue ++ '"' :: (o ++ quoted row))

theorem lastOr_append_cons (before : Option Char) (front : List Char) (c : Char)
    (back : List Char) : lastOr before (front ++ c :: back) = lastOr (some c) back := by
  induction front generalizing before with
  | nil => exact lastOr_cons before c back
  | cons d front ih => rw [List.cons_append, lastOr_cons, ih]

/-- What is taken of what follows the literal. -/
theorem onward_leaves (front : List Char) {exit : Exit} {text rest value : List Char}
    (hguard : Guarded part)
    (hread : readingAt isWord before part = some (.leaves exit))
    (hkey : Reading.key (firstLine text) (.leaves exit) = some ([name, value], firstLine rest))
    (htext : text = front ++ rest) (hline : firstLine text = front ++ firstLine rest) :
    cookieKv.onward isWord cookieKind before (part ++ '"' :: text)
      = tells name value + cookieKv.onward isWord cookieKind (lastOr (some '"') front) rest := by
  cases part with
  | nil => cases hread
  | cons c part =>
    have hwhole : c :: part ++ '"' :: text = (c :: part ++ '"' :: front) ++ rest := by
      rw [htext]
      simp
    have hfirst := firstLine_printed hguard.2 text
    rw [hwhole, onward_key, lastOr_append_cons]
    · rfl
    · rw [← hwhole, hfirst, hline]
      simp
    · exact List.cons_ne_nil _ _
    · rw [← hwhole, key_line isWord hguard, hread, Option.bind_some, hkey]

theorem cookieName_of_leaves {exit : Exit}
    (h : readingAt isWord before part = some (.leaves exit)) :
    ∃ before' text r, (part = text ∨ part = '"' :: text) ∧
      cookieName isWord before' text = some r ∧ reading r = some (.leaves exit) := by
  cases part with
  | nil => cases h
  | cons c text =>
    rw [readingAt] at h
    split_ifs at h with hc
    · obtain ⟨r, hname, hread⟩ := Option.bind_eq_some_iff.mp h
      exact ⟨_, text, r, Or.inr (by rw [isQuote_iff.mp hc]), hname, hread⟩
    · obtain ⟨r, hname, hread⟩ := Option.bind_eq_some_iff.mp h
      exact ⟨_, c :: text, r, Or.inl rfl, hname, hread⟩

/-- A literal that ends with a name is that name from its place on. -/
theorem isNameLike_of_ends (h : readingAt isWord before part = some (.leaves (.ends name))) :
    (part = name ∨ part = '"' :: name) ∧ ∀ c ∈ name, isNameLike c = true := by
  obtain ⟨before', text, r, hpart, hname, hread⟩ := cookieName_of_leaves h
  obtain ⟨sought, hsought, hfold, -, rfl, -⟩ := cookieName_eq_some hname
  rw [reading] at hread
  split at hread
  case h_1 hrest =>
    obtain rfl := Exit.ends.inj (Reading.leaves.inj (Option.some.inj hread))
    rw [hrest, List.append_nil] at hpart
    exact ⟨hpart, isNameLike_of_sameFolded (mem_soughtNames hsought) hfold⟩
  case h_2 =>
    split at hread
    case h_1 => cases hread
    case h_2 =>
      split_ifs at hread
      split at hread
      case h_1 => cases hread
      case h_2 => cases hread

/-- Without a separator on the line nothing begins in a name. -/
theorem onward_nameLike (ho : Outside o) (hnone : bareRest (firstLine (o ++ quoted row)) = none)
    {text : List Char} (hguard : Guarded text) (hlike : ∀ c ∈ text, isNameLike c = true)
    (before : Option Char) :
    cookieKv.onward isWord cookieKind before (text ++ '"' :: (o ++ quoted row))
      = fresh isWord row := by
  induction text generalizing before with
  | nil => exact (silent_cookieKv isWord).onward_close ho (edge_quoted row)
  | cons c text ih =>
    obtain ⟨hc, hlike'⟩ := List.forall_mem_cons.mp hlike
    have hprinted : Printed (c :: text) := hguard.2
    have hquote : isQuote c = false := by
      rw [Bool.eq_false_iff]
      intro h
      rw [isQuote_iff.mp h] at hc
      cases hc
    have hfirst : cookieKv.first isWord before (c :: firstLine (text ++ '"' :: (o ++ quoted row)))
        = none := by
      have hkey := key_line isWord hguard before (o ++ quoted row)
      rw [firstLine_printed hguard.2] at hkey
      rw [firstLine_printed hprinted.tail, ← Option.map_eq_none_iff (f := Read.key)]
      refine hkey.trans ?_
      rw [readingAt, hquote, if_neg Bool.false_ne_true]
      cases hname : cookieName isWord before (c :: text) with
      | none => rfl
      | some r =>
        obtain ⟨-, -, -, -, htext, hsettles⟩ := cookieName_eq_some hname
        obtain ⟨read, groups, rest⟩ := r
        dsimp only at htext
        rw [← htext] at hlike
        have hrest : rest = [] := by
          rw [← List.append_nil rest] at hsettles
          exact nil_of_settles (fun d hd => hlike d (List.mem_append_right _ hd)) hsettles
        rw [hrest]
        have hkey : Reading.key (firstLine (o ++ quoted row)) (.leaves (.ends read)) = none := by
          rw [Reading.key, hnone]
          rfl
        exact hkey
    rw [List.cons_append, onward_cons hprinted.ne_newline hfirst]
    exact ih hguard.tail hlike' (some c)

/-- A name at the end of a literal without a separator behind it. -/
theorem onward_ends_none (ho : Outside o) (hguard : Guarded part)
    (h : readingAt isWord before part = some (.leaves (.ends name)))
    (hnone : bareRest (firstLine (o ++ quoted row)) = none) :
    cookieKv.onward isWord cookieKind before (part ++ '"' :: (o ++ quoted row))
      = fresh isWord row := by
  obtain ⟨rfl | rfl, hlike⟩ := isNameLike_of_ends h
  · exact onward_nameLike ho hnone hguard hlike before
  · have hprinted : Printed ('"' :: name) := hguard.2
    have hfirst : cookieKv.first isWord before ('"' :: firstLine (name ++ '"' :: (o ++ quoted row)))
        = none := by
      have hkey := key_line isWord hguard before (o ++ quoted row)
      rw [firstLine_printed hguard.2, h] at hkey
      rw [firstLine_printed hprinted.tail, ← Option.map_eq_none_iff (f := Read.key)]
      refine hkey.trans ?_
      rw [Option.bind_some, Reading.key, hnone]
      rfl
    rw [List.cons_append, onward_cons (by decide) hfirst]
    exact onward_nameLike ho hnone hguard.tail hlike _

/-! ## Values outside of the literals -/

theorem squeeze_value {value : List Char} (h : ∀ c ∈ value, isValue c = true) :
    squeeze value = value := by
  refine List.filter_eq_self.mpr fun c hc => ?_
  rw [Bool.not_eq_true']
  by_contra hblank
  have hvalue := h c hc
  rw [isValue_of_isWhitespace (isWhitespace_of_isBlank (by simpa using hblank))] at hvalue
  cases hvalue

theorem prefix_takeWhile {value rest : List Char} (h : ∀ c ∈ value, isValue c = true) :
    value <+: (value ++ rest).takeWhile isValue := by
  rw [List.takeWhile_append_of_pos h]
  exact List.prefix_append _ _

theorem takeWhile_edge {text tail : List Char} (h : Edge tail) :
    (text ++ tail).takeWhile isValue = text.takeWhile isValue := by
  cases tail with
  | nil => rw [List.append_nil]
  | cons c tail =>
    obtain rfl := h c rfl
    exact takeWhile_quote rfl text tail

theorem Bare.newline_notMem (h : Bare o) : '\n' ∉ o := by
  intro hmem
  cases h _ hmem

theorem firstLine_bare (h : Bare o) (row : Row) :
    firstLine (o ++ quoted row) = o ++ firstLine (quoted row) :=
  firstLine_append h.newline_notMem (head?_ne_newline (edge_quoted row))

/-- The value that is read from a place outside of the literals on. -/
theorem exists_outsideValue (o : List Char) (row : Row) :
    ∃ value rest, o = value ++ rest ∧ (∀ c ∈ value, isValue c = true) ∧
      firstLine (o ++ quoted row) = value ++ firstLine (rest ++ quoted row) ∧
      (firstLine (o ++ quoted row)).takeWhile isValue = value ∧
      (firstLine (o ++ quoted row)).dropWhile isValue = firstLine (rest ++ quoted row) := by
  have hsplit := List.takeWhile_append_dropWhile (p := isValue) (l := firstLine (o ++ quoted row))
  obtain ⟨rest, htext, hrest⟩ := exists_of_firstLine hsplit.symm
  have hquote : '"' ∉ (firstLine (o ++ quoted row)).takeWhile isValue :=
    fun hmem => absurd (List.mem_takeWhile_imp hmem) (by decide)
  obtain ⟨more, ho, rfl⟩ := append_of_notMem hquote (edge_quoted row) htext.symm
  refine ⟨_, more, ho, fun c hc => List.mem_takeWhile_imp hc, ?_, rfl, hrest.symm⟩
  rw [hrest, hsplit]

theorem prefix_squeeze {value rest : List Char} (h : ∀ c ∈ value, isValue c = true) :
    value <+: (squeeze (value ++ rest)).takeWhile isValue := by
  rw [squeeze_append, squeeze_value h]
  exact prefix_takeWhile h

theorem takeWhile_bare (h : Bare o) (row : Row) :
    (firstLine (o ++ quoted row)).takeWhile isValue = o.takeWhile isValue := by
  rw [firstLine_bare h]
  exact takeWhile_edge (edge_firstLine (edge_quoted row))

/-- A separator at the end of a literal. -/
theorem onward_opens (ho : Outside o) (hguard : Guarded part)
    (h : readingAt isWord before part = some (.leaves (.opens name))) :
    ∃ value, cookieKv.onward isWord cookieKind before (part ++ '"' :: (o ++ quoted row))
        = tells name value + fresh isWord row ∧
      value <+: (squeeze o).takeWhile isValue ∧ (o.head? = some '\n' → value = []) ∧
      (Bare o → value = o.takeWhile isValue) := by
  obtain ⟨value, rest, rfl, hall, hline, hvalue, hrest⟩ := exists_outsideValue o row
  refine ⟨value, ?_, prefix_squeeze hall, ?_, ?_⟩
  · have hout : Outside rest := fun c hc => ho c (List.mem_append_right _ hc)
    rw [onward_leaves value hguard h,
      (silent_cookieKv isWord).onward_outside hout (edge_quoted row)]
    · rfl
    · rw [Reading.key, hvalue, hrest]
    · exact List.append_assoc _ _ _
    · exact hline
  · intro hhead
    rw [← hvalue]
    cases htext : value ++ rest with
    | nil => rw [htext] at hhead; cases hhead
    | cons c text =>
      rw [htext] at hhead
      obtain rfl := Option.some.inj hhead
      rfl
  · intro hbare
    rw [← takeWhile_bare hbare row, hvalue]

theorem nil_of_bare {blank rest : List Char} (hblank : ∀ c ∈ blank, JsonText.isBlank c = true)
    (h : Bare (blank ++ rest)) : blank = [] := by
  cases blank with
  | nil => rfl
  | cons c blank =>
    have hc := (Bool.and_eq_true_iff.mp (h c List.mem_cons_self)).2
    rw [hblank c List.mem_cons_self] at hc
    cases hc

theorem ne_of_not_isWhitespace {c : Char} (h : isWhitespace c = false) : c ≠ '\n' ∧ c ≠ '\r' := by
  refine ⟨?_, ?_⟩
  · rintro rfl
    cases h
  · rintro rfl
    cases h

/-- The value that is looked for behind blanks is that of the next literal,
or what stands before it. -/
theorem value_behind (ho : Outside o) (row : Row) :
    (∃ s o' row', row = (s, o') :: row' ∧ (∀ c ∈ o, JsonText.isBlank c = true) ∧ '\n' ∉ o) ∨
    ∃ front rest value, o = front ++ rest ∧
      firstLine (o ++ quoted row) = front ++ firstLine (rest ++ quoted row) ∧
      valueKey (dropQuote ((firstLine (o ++ quoted row)).dropWhile isWhitespace))
        = ([value], firstLine (rest ++ quoted row)) ∧
      value <+: (squeeze o).takeWhile isValue ∧
      (Bare o → (o = [] → row = []) ∧ value = o.takeWhile isValue) := by
  obtain ⟨blank, rest, rfl, hblank, hspace, hrest⟩ := exists_blanks ho
  by_cases hline : '\n' ∈ blank
  · have hdrop := dropWhile_blanks_newline hblank hline (rest ++ quoted row)
    rw [← List.append_assoc] at hdrop
    have hquote : '"' ∉ firstLine (blank ++ rest ++ quoted row) := by
      intro hmem
      exact absurd (List.dropWhile_eq_nil_iff.mp hdrop _ hmem) (by decide)
    obtain ⟨more, htext, hmore⟩ := exists_of_firstLine
      (List.append_nil (firstLine (blank ++ rest ++ quoted row))).symm
    obtain ⟨more', ho', rfl⟩ := append_of_notMem hquote (edge_quoted row) htext.symm
    refine Or.inr ⟨_, more', [], ho', ?_, ?_, List.nil_prefix, fun hbare => ?_⟩
    · rw [hmore, List.append_nil]
    · rw [hdrop, hmore]
      rfl
    · exact absurd (List.mem_append_left _ hline) hbare.newline_notMem
  · cases rest with
    | nil =>
      rw [List.append_nil]
      cases row with
      | nil =>
        have hfirst : firstLine (blank ++ quoted []) = blank := by
          rw [quoted, List.append_nil, firstLine_of_notMem hline]
        have hdrop : blank.dropWhile isWhitespace = [] :=
          List.dropWhile_eq_nil_iff.mpr fun c hc => isWhitespace_of_isBlank (hblank c hc)
        refine Or.inr ⟨blank, [], [], (List.append_nil _).symm, ?_, ?_, List.nil_prefix,
          fun hbare => ⟨fun _ => rfl, ?_⟩⟩
        · rw [hfirst]
          exact (List.append_nil _).symm
        · rw [hfirst, hdrop]
          rfl
        · rw [nil_of_bare hblank (by rwa [List.append_nil])]
          rfl
      | cons piece row => exact Or.inl ⟨piece.1, piece.2, row, rfl, hblank, hline⟩
    | cons c rest =>
      have hc := ne_of_not_isWhitespace (hspace c rfl)
      have hquote : c ≠ '"' := ne_quote_of_isOutside (List.forall_mem_cons.mp hrest).1
      have hdrop : (firstLine (blank ++ (c :: rest ++ quoted row))).dropWhile isWhitespace
          = firstLine (c :: rest ++ quoted row) := dropWhile_blanks hblank hline hspace
      have hhead : (c :: rest ++ quoted row).head? ≠ some '\n' :=
        fun h => hc.1 (Option.some.inj h)
      have hfirst : firstLine (c :: rest ++ quoted row) = c :: firstLine (rest ++ quoted row) :=
        firstLine_cons hc.1 hc.2 _
      obtain ⟨value, rest', htext, hall, hline', hvalue, hrest'⟩ :=
        exists_outsideValue (c :: rest) row
      refine Or.inr ⟨blank ++ value, rest', value, ?_, ?_, ?_, ?_, fun hbare => ⟨?_, ?_⟩⟩
      · rw [htext, List.append_assoc]
      · rw [List.append_assoc, firstLine_append hline hhead, hline', List.append_assoc]
      · rw [List.append_assoc, hdrop, hfirst, dropQuote_cons hquote, ← hfirst, valueKey, hvalue,
          hrest']
      · rw [squeeze_append, squeeze_blanks hblank, List.nil_append, htext]
        exact prefix_squeeze hall
      · exact fun h => absurd (List.append_eq_nil_iff.mp h).2 (List.cons_ne_nil _ _)
      · obtain rfl := nil_of_bare hblank hbare
        rw [List.nil_append] at hbare ⊢
        rw [← takeWhile_bare hbare row, hvalue]

/-! ## A name at the end of a literal -/

theorem isSeparator_of_isBlank {c : Char} (h : JsonText.isBlank c = true) : isSeparator c = false :=
  isSeparator_of_isWhitespace (isWhitespace_of_isBlank h)

/-- A separator that stands in front has no blanks before it. -/
theorem nil_of_isSeparator {blank rest : List Char}
    (hblank : ∀ c ∈ blank, JsonText.isBlank c = true)
    {m : Char} {later : List Char} (h : blank ++ rest = m :: later) (hm : isSeparator m = true) :
    blank = [] := by
  cases blank with
  | nil => rfl
  | cons c blank =>
    obtain rfl := (List.cons.inj h).1
    rw [isSeparator_of_isBlank (hblank c List.mem_cons_self)] at hm
    cases hm

theorem squeeze_separator {m : Char} (hm : isSeparator m = true) (text : List Char) :
    squeeze (m :: text) = m :: squeeze text := by
  refine List.filter_cons_of_pos ?_
  rw [Bool.not_eq_true']
  by_contra h
  rw [isSeparator_of_isBlank (by simpa using h)] at hm
  cases hm

/-- There is a separator on the line, or nothing is read behind the name. -/
theorem bareRest_line (ho : Outside o) (row : Row) :
    (∃ blank m later, o = blank ++ m :: later ∧ (∀ c ∈ blank, JsonText.isBlank c = true) ∧
      '\n' ∉ blank ∧ isSeparator m = true ∧ Outside later ∧
      firstLine (o ++ quoted row) = blank ++ m :: firstLine (later ++ quoted row) ∧
      bareRest (firstLine (o ++ quoted row))
        = some (dropQuote ((firstLine (later ++ quoted row)).dropWhile isWhitespace))) ∨
    bareRest (firstLine (o ++ quoted row)) = none ∧
      ∀ m later, o = m :: later → Bare later → isSeparator m = false := by
  obtain ⟨blank, rest, rfl, hblank, hspace, hrest⟩ := exists_blanks ho
  by_cases hline : '\n' ∈ blank
  · refine Or.inr ⟨?_, fun m later h _ => ?_⟩
    · rw [bareRest, List.append_assoc, dropWhile_blanks_newline hblank hline]
    · by_contra hm
      rw [nil_of_isSeparator hblank h (by simpa using hm)] at hline
      cases hline
  · cases rest with
    | nil =>
      refine Or.inr ⟨?_, fun m later h _ => ?_⟩
      · have hquoted : ∀ c ∈ (quoted row).head?, isWhitespace c = false := by
          intro c hc
          rw [edge_quoted row c hc]
          rfl
        rw [List.append_nil, bareRest, dropWhile_blanks hblank hline hquoted]
        cases row with
        | nil => rfl
        | cons piece row => rfl
      · by_contra hm
        rw [nil_of_isSeparator hblank h (by simpa using hm)] at h
        cases h
    | cons m later =>
      have hm := hspace m rfl
      have hne := ne_of_not_isWhitespace hm
      have hdrop : (firstLine (blank ++ (m :: later ++ quoted row))).dropWhile isWhitespace
          = firstLine (m :: later ++ quoted row) := dropWhile_blanks hblank hline hspace
      have hfirst : firstLine (m :: later ++ quoted row) = m :: firstLine (later ++ quoted row) :=
        firstLine_cons hne.1 hne.2 _
      have hhead : (m :: later ++ quoted row).head? ≠ some '\n' :=
        fun h => hne.1 (Option.some.inj h)
      by_cases hsep : isSeparator m = true
      · refine Or.inl ⟨blank, m, later, rfl, hblank, hline, hsep, (List.forall_mem_cons.mp hrest).2,
          ?_, ?_⟩
        · rw [List.append_assoc, firstLine_append hline hhead, hfirst]
        · rw [bareRest, List.append_assoc, hdrop, hfirst]
          exact if_pos hsep
      · refine Or.inr ⟨?_, fun m' later' h _ => ?_⟩
        · rw [bareRest, List.append_assoc, hdrop, hfirst]
          exact if_neg hsep
        · by_contra hm'
          rw [nil_of_isSeparator hblank h (by simpa using hm')] at h
          obtain rfl := (List.cons.inj h).1
          exact hm' (by simpa using hsep)

/-- The value of the next literal. -/
theorem onward_into {blank later o' : List Char} {m : Char} {s : Content} {row' : Row}
    (hguard : Guarded part) (h : readingAt isWord before part = some (.leaves (.ends name)))
    (hlater : ∀ c ∈ later, JsonText.isBlank c = true) (hline : '\n' ∉ later)
    (hfirst : firstLine (blank ++ m :: later ++ quoted ((s, o') :: row'))
      = blank ++ m :: firstLine (later ++ quoted ((s, o') :: row')))
    (hrest : bareRest (firstLine (blank ++ m :: later ++ quoted ((s, o') :: row')))
      = some (dropQuote ((firstLine (later ++ quoted ((s, o') :: row'))).dropWhile isWhitespace))) :
    cookieKv.onward isWord cookieKind before
        (part ++ '"' :: (blank ++ m :: later ++ quoted ((s, o') :: row')))
      = entered isWord name s o' row' := by
  have hprinted : Printed s.val := fun c hc => (guarded_content s).2 c (List.mem_cons_of_mem _ hc)
  have hsplit : ∀ tail, s.val ++ '"' :: tail
      = s.val.takeWhile isValue ++ (s.val.dropWhile isValue ++ '"' :: tail) := by
    intro tail
    rw [← List.append_assoc, List.takeWhile_append_dropWhile]
  have hdropped : Printed (s.val.dropWhile isValue) :=
    fun c hc => hprinted c ((List.dropWhile_sublist _).subset hc)
  have hquoted : firstLine (quoted ((s, o') :: row'))
      = '"' :: (s.val ++ '"' :: firstLine (o' ++ quoted row')) := by
    rw [quoted, firstLine_quote, firstLine_printed hprinted]
  have hspace : ∀ c ∈ (quoted ((s, o') :: row')).head?, isWhitespace c = false := by
    intro c hc
    rw [edge_quoted _ c hc]
    rfl
  rw [onward_leaves (blank ++ m :: (later ++ '"' :: s.val.takeWhile isValue)) hguard h]
  · rw [lastOr_append_cons, lastOr_append_cons, entered]
  · rw [Reading.key, hrest, dropWhile_blanks hlater hline hspace, hquoted,
      firstLine_printed hdropped]
    have hdrop : dropQuote ('"' :: (s.val ++ '"' :: firstLine (o' ++ quoted row')))
        = s.val ++ '"' :: firstLine (o' ++ quoted row') := rfl
    rw [hdrop, Option.map_some, takeWhile_quote rfl, dropWhile_quote rfl]
  · rw [quoted, hsplit]
    simp only [List.append_assoc, List.cons_append]
  · rw [hfirst, firstLine_append hline (head?_ne_newline (edge_quoted _)), hquoted,
      firstLine_printed hdropped, hsplit]
    simp only [List.append_assoc, List.cons_append]

variable (row) in
/-- A name at the end of a literal takes the value of the next literal, or
what stands before it, or nothing. -/
theorem onward_ends (ho : Outside o) (hguard : Guarded part)
    (h : readingAt isWord before part = some (.leaves (.ends name))) :
    (∃ m s o' row', '\n' ∉ o ∧ squeeze o = [m] ∧ isSeparator m = true ∧ row = (s, o') :: row' ∧
      cookieKv.onward isWord cookieKind before (part ++ '"' :: (o ++ quoted row))
        = entered isWord name s o' row') ∨
    ∃ value, cookieKv.onward isWord cookieKind before (part ++ '"' :: (o ++ quoted row))
        = tells name value + fresh isWord row ∧
      (o.head? = some '\n' → value = []) ∧
      (value = [] ∨ ∃ m later, squeeze o = m :: later ∧ isSeparator m = true ∧
        value <+: later.takeWhile isValue) ∧
      ∀ m later, o = m :: later → Bare later → isSeparator m = true →
        (later = [] → row = []) ∧ value = later.takeWhile isValue := by
  rcases bareRest_line ho row with
    ⟨blank, m, later, rfl, hblank, hline, hm, hlater, hfirst, hrest⟩ | ⟨hnone, hnot⟩
  · have hsqueeze : squeeze (blank ++ m :: later) = m :: squeeze later := by
      rw [squeeze_append, squeeze_blanks hblank, List.nil_append, squeeze_separator hm]
    have hnewline : '\n' ≠ m := by
      rintro rfl
      cases hm
    rcases value_behind hlater row with
      ⟨s, o', row', rfl, hlater', hline'⟩ |
        ⟨front, rest, value, hsplit, hlater', hkey, hstart, hbare⟩
    · refine Or.inl ⟨m, s, o', row', ?_, ?_, hm, rfl, ?_⟩
      · simp [hline, hline', hnewline]
      · rw [hsqueeze, squeeze_blanks hlater']
      · exact onward_into hguard h hlater' hline' hfirst hrest
    · refine Or.inr ⟨value, ?_, ?_, Or.inr ⟨m, squeeze later, hsqueeze, hm, hstart⟩, ?_⟩
      · have hout : Outside rest := by
          rw [hsplit] at hlater
          exact fun c hc => hlater c (List.mem_append_right _ hc)
        rw [onward_leaves (blank ++ m :: front) hguard h,
          (silent_cookieKv isWord).onward_outside hout (edge_quoted row)]
        · rfl
        · rw [Reading.key, hrest, Option.map_some]
          obtain ⟨hvalue, hmore⟩ := Prod.mk.inj hkey
          rw [(List.cons.inj hvalue).1, hmore]
        · rw [hsplit]
          simp
        · rw [hfirst, hlater']
          simp
      · intro hhead
        cases blank with
        | nil => exact absurd (Option.some.inj hhead).symm hnewline
        | cons c blank =>
          obtain rfl := Option.some.inj hhead
          exact absurd List.mem_cons_self hline
      · intro m' later' hfront hbare' hm'
        obtain rfl := nil_of_isSeparator hblank hfront hm'
        obtain ⟨-, rfl⟩ := List.cons.inj hfront
        exact hbare hbare'
  · refine Or.inr ⟨[], ?_, fun _ => rfl, Or.inl rfl, fun m later ho hbare hm => ?_⟩
    · rw [onward_ends_none ho hguard h hnone, tells_nil, zero_add]
    · rw [hnot m later ho hbare] at hm
      cases hm

end Leaves

end TiktokSigner.FixtureHygiene
