import Mathlib.Tactic.Abel
import TiktokSigner.FixtureHygiene.CookieChains
import TiktokSigner.FixtureHygiene.KeyedRules

/-!
# Which documents are read alike on every layout

Query parameters and URLs lie within a literal, so they are found on every
layout. The other rules look behind a literal: for a mark, for a value, for
the literal after it. Where all of them are quiet every layout of a document
is reported alike, and where one is not there are two layouts, compact but
for line feeds behind some strings, that are told apart
(`layoutFree_iff`).
-/

namespace TiktokSigner.FixtureHygiene

open Regex Regex.Pattern Text

/-! ## Rules within a literal -/

section Within

variable {isWord : Char → Bool}

theorem outside_or_quote {p : Char → Bool} (hquote : p '"' = false)
    (hout : ∀ c, isOutside c = true → p c = false) :
    ∀ c, (isOutside c || isQuote c) = true → p c = false := by
  intro c hc
  rcases Bool.or_eq_true_iff.mp hc with hc | hc
  · exact hout c hc
  · rwa [isQuote_iff.mp hc]

theorem silent_queryParam : Silent isWord queryParam := by
  refine silent_of_refuses ((refuses_one (outside_or_quote rfl fun c hc => ?_)).seq _)
  have h := isOutside_all (p := fun c => !isOneOf "?&" c) (by decide) hc
  simpa using h

theorem avoids_queryParam : queryParam.Avoids '"' :=
  ⟨rfl, avoids_oneOf (by decide), rfl, rfl, trivial⟩

theorem eats_queryParam : queryParam.Eats := Or.inl trivial

theorem silent_url : Silent isWord url := by
  refine silent_of_refuses (Refuses.boundary (Refuses.seq (Refuses.either ?_ ?_) _))
  · refine (refuses_word (c := 'h') "ttp".toList (outside_or_quote rfl fun c hc => ?_)).seq _
    have h := isOutside_all (p := fun c => !(fold c == fold 'h')) (by decide) hc
    simpa using h
  · refine (refuses_word (c := 'w') "s".toList (outside_or_quote rfl fun c hc => ?_)).seq _
    have h := isOutside_all (p := fun c => !(fold c == fold 'w')) (by decide) hc
    simpa using h

theorem avoids_url : url.Avoids '"' :=
  ⟨trivial, ⟨⟨avoids_word (by decide), avoids_word (by decide), trivial⟩,
    ⟨avoids_word (by decide), avoids_word (by decide), trivial⟩⟩,
    avoids_word (by decide), rfl, trivial⟩

theorem eats_url : url.Eats :=
  Or.inr (Or.inl ⟨Or.inl (Or.inl trivial), Or.inl (Or.inl trivial)⟩)

/-- What the query parameters and URLs of literals are reported as. -/
def withinKinds (isWord : Char → Bool) (s : Content) : Multiset Kind :=
  queryParam.tally isWord queryParamKind none ('"' :: (s.val ++ ['"'])) +
    url.tally isWord (urlKind isWord) none ('"' :: (s.val ++ ['"']))

theorem onward_within {row : Row} (hout : ∀ piece ∈ row, Outside piece.2) :
    queryParam.onward isWord queryParamKind none (quoted row) +
        url.onward isWord (urlKind isWord) none (quoted row)
      = ((row.map Prod.fst).map (withinKinds isWord)).sum := by
  rw [silent_queryParam.onward_quoted avoids_queryParam eats_queryParam (fun _ _ => rfl) hout,
    silent_url.onward_quoted avoids_url eats_url (fun _ _ => rfl) hout, ← List.sum_map_add,
    List.map_map]
  rfl

end Within

/-! ## Rules about a key -/

section Keys

variable {isWord : Char → Bool}

/-- A raw value of a signing field that is neither known nor synthetic. -/
def SigningReported (key value : List Char) : Prop :=
  ¬(isConfirmedXBogus key value || isSyntheticValue value) = true

theorem signingFieldKind_ne_zero (key value : List Char) :
    signingFieldKind ⟨[], [key] ++ [value], []⟩ ≠ 0 ↔ SigningReported key value := by
  have hkey : (⟨[], [key] ++ [value], []⟩ : Read).group 0 = key := rfl
  have hvalue : (⟨[], [key] ++ [value], []⟩ : Read).group 1 = value := rfl
  rw [signingFieldKind, kindOf, signingFieldFinding, hkey, hvalue, SigningReported]
  split_ifs with h
  · exact iff_of_false (not_not.mpr rfl) (not_not.mpr h)
  · exact iff_of_true (Multiset.singleton_ne_zero _) h

def isColon : Char → Bool := isOneOf ":"

def isColonOrComma : Char → Bool := isOneOf ":,"

def isNoQuote (c : Char) : Bool := !isOneOf "\"" c

theorem isColonOrComma_cases (c : Char) (h : isColonOrComma c = true) : c = ':' ∨ c = ',' := by
  have hmem : c ∈ ":,".toList := isOneOf_iff.mp h
  simpa using hmem

theorem isColon_cases (c : Char) (h : isColon c = true) : c = ':' ∨ c = ',' := by
  have hmem : c ∈ ":".toList := isOneOf_iff.mp h
  exact Or.inl (by simpa using hmem)

theorem mem_soughtNames_of_signing (w : String) (h : w ∈ signingFieldKeys) : w ∈ soughtNames :=
  List.mem_append_left _ (List.mem_append_left _ (List.mem_append_right _ h))

theorem mem_soughtNames_of_vmRaw (w : String) (h : w ∈ vmRawKeys) : w ∈ soughtNames :=
  List.mem_append_left _ (List.mem_append_right _ h)

theorem mem_soughtNames_of_bytes (w : String) (h : w ∈ ["bytes"]) : w ∈ soughtNames :=
  List.mem_append_right _ h

/-- A signing field is reported on some line. -/
abbrev SigningTold : Content × List Char → Content × List Char → Prop :=
  Tells signingFieldKeys isColonOrComma isNoQuote 0 SigningReported

/-- Raw bytes are reported on some line. -/
abbrev BytesTold : Content × List Char → Content × List Char → Prop :=
  Tells ["bytes"] isColon isHexDigit 8 fun _ _ => True

/-- A raw key is reported on some line. -/
abbrev KeyTold : Content × List Char → Prop := Marks vmRawKeys isColon

theorem isChain_squeezed {R : Content × List Char → Content × List Char → Prop} {row : Row}
    (h : (squeezed row).IsChain R) :
    row.IsChain fun piece next =>
      '\n' ∈ piece.2 ∨ R (piece.1, squeeze piece.2) (next.1, squeeze next.2) :=
  ((List.isChain_map _).mp h).imp fun _ _ h => Or.inr h

/-- What the groups of a signing field are reported as. -/
def signingWeight (groups : List (List Char)) : Multiset Kind := signingFieldKind ⟨[], groups, []⟩

def keyWeight (groups : List (List Char)) : Multiset Kind := vmRawKeyKind ⟨[], groups, []⟩

def bytesWeight (groups : List (List Char)) : Multiset Kind := vmRawBytesKind ⟨[], groups, []⟩

theorem signingFieldKind_eq (r : Read) : signingFieldKind r = signingWeight r.groups := rfl

theorem vmRawKeyKind_eq (r : Read) : vmRawKeyKind r = keyWeight r.groups := rfl

theorem vmRawBytesKind_eq (r : Read) : vmRawBytesKind r = bytesWeight r.groups := rfl

theorem bytesWeight_ne_zero (groups : List (List Char)) : bytesWeight groups ≠ 0 ↔ True :=
  iff_of_true (Multiset.singleton_ne_zero _) trivial

section Row

variable {row : Row} (hout : ∀ piece ∈ row, Outside piece.2)

include hout

theorem signing_quiet (h : (squeezed row).IsChain fun piece next => ¬SigningTold piece next) :
    signingField.onward isWord signingFieldKind none (quoted row) = 0 :=
  onward_quiet (takes_oneOf isWord signingFieldKeys) mem_soughtNames_of_signing isColonOrComma_cases
    rfl signingFieldKind_eq signingFieldKind_ne_zero hout (isChain_squeezed h)

theorem exists_loud_signing (h : ¬row.IsChain fun piece next => ¬SigningTold piece next) :
    ∃ joined,
      signingField.onward isWord signingFieldKind none (quoted (brokenRow joined row)) ≠ 0 :=
  exists_loud (takes_oneOf isWord signingFieldKeys) mem_soughtNames_of_signing isColonOrComma_cases
    rfl signingFieldKind_eq signingFieldKind_ne_zero hout h

theorem key_quiet (h : ∀ piece ∈ squeezed row, ¬KeyTold piece) :
    vmRawKey.onward isWord vmRawKeyKind none (quoted row) = 0 :=
  onward_alone_quiet (takes_oneOf isWord vmRawKeys) mem_soughtNames_of_vmRaw isColon_cases hout h

theorem exists_loud_key (h : ∃ piece ∈ row, KeyTold piece) :
    ∃ joined, vmRawKey.onward isWord vmRawKeyKind none (quoted (brokenRow joined row)) ≠ 0 :=
  exists_loud_alone (takes_oneOf isWord vmRawKeys) mem_soughtNames_of_vmRaw isColon_cases
    vmRawKeyKind_eq (fun _ => Multiset.singleton_ne_zero _) hout h

theorem bytes_quiet (h : (squeezed row).IsChain fun piece next => ¬BytesTold piece next) :
    vmRawBytes.onward isWord vmRawBytesKind none (quoted row) = 0 :=
  onward_quiet (takes_word isWord "bytes") mem_soughtNames_of_bytes isColon_cases rfl
    vmRawBytesKind_eq (fun _ _ => bytesWeight_ne_zero _) hout (isChain_squeezed h)

theorem exists_loud_bytes (h : ¬row.IsChain fun piece next => ¬BytesTold piece next) :
    ∃ joined, vmRawBytes.onward isWord vmRawBytesKind none (quoted (brokenRow joined row)) ≠ 0 :=
  exists_loud (takes_word isWord "bytes") mem_soughtNames_of_bytes isColon_cases rfl
    vmRawBytesKind_eq (fun _ _ => bytesWeight_ne_zero _) hout h

/-- Where every string stands at the end of its line no key is reported. -/
theorem broken_quiet :
    signingField.onward isWord signingFieldKind none (quoted (brokenRow [] row)) = 0 ∧
      vmRawKey.onward isWord vmRawKeyKind none (quoted (brokenRow [] row)) = 0 ∧
      vmRawBytes.onward isWord vmRawBytesKind none (quoted (brokenRow [] row)) = 0 := by
  induction row with
  | nil => exact ⟨onward_nil, onward_nil, onward_nil⟩
  | cons piece row ih =>
    obtain ⟨s, o⟩ := piece
    obtain ⟨ho, hout⟩ := List.forall_mem_cons.mp hout
    obtain ⟨hsigning, hkey, hbytes⟩ := ih hout
    refine ⟨Eq.trans ?_ hsigning, Eq.trans ?_ hkey, Eq.trans ?_ hbytes⟩
    · exact onward_broken (takes_oneOf isWord signingFieldKeys) mem_soughtNames_of_signing rfl
        signingFieldKind_eq isColonOrComma_cases ho
    · exact onward_alone_broken (takes_oneOf isWord vmRawKeys) mem_soughtNames_of_vmRaw
        isColon_cases ho
    · exact onward_broken (takes_word isWord "bytes") mem_soughtNames_of_bytes rfl
        vmRawBytesKind_eq isColon_cases ho

end Row

end Keys

/-! ## All rules -/

section Layouts

variable {isWord : Char → Bool}

/-- What the rules about a key report of a row. -/
def keyKinds (isWord : Char → Bool) (row : Row) : Multiset Kind :=
  signingField.onward isWord signingFieldKind none (quoted row) +
    (vmRawKey.onward isWord vmRawKeyKind none (quoted row) +
      vmRawBytes.onward isWord vmRawBytesKind none (quoted row))

/-- What is reported of the inside of the literals of a row. -/
def rowWithin (isWord : Char → Bool) (row : Row) : Multiset Kind :=
  ((row.map Prod.fst).map (withinKinds isWord)).sum

theorem Outside.nul_notMem {text : List Char} (h : Outside text) : Char.ofNat 0 ∉ text :=
  fun hmem => absurd (h _ hmem) (by decide)

theorem nul_notMem_quoted {row : Row} (hout : ∀ piece ∈ row, Outside piece.2) :
    Char.ofNat 0 ∉ quoted row := by
  induction row with
  | nil => exact List.not_mem_nil
  | cons piece row ih =>
    obtain ⟨s, o⟩ := piece
    obtain ⟨ho, hout⟩ := List.forall_mem_cons.mp hout
    have hliteral : Char.ofNat 0 ∉ '"' :: s.val :=
      fun hmem => absurd ((guarded_content s).2 _ hmem) (by decide)
    have hbehind : Char.ofNat 0 ∉ '"' :: (o ++ quoted row) := by
      refine List.not_mem_cons_of_ne_of_not_mem (by decide) fun hmem => ?_
      rcases List.mem_append.mp hmem with hmem | hmem
      · exact ho.nul_notMem hmem
      · exact ih hout hmem
    have htext : quoted ((s, o) :: row) = '"' :: s.val ++ '"' :: (o ++ quoted row) := rfl
    rw [htext]
    exact fun hmem => (List.mem_append.mp hmem).elim hliteral hbehind

/-- What is reported of a layout comes from its literals and what is between
them. -/
theorem reported_layout {tokens : List Token} (path : String) (layout : Layout tokens) :
    reported isWord path layout.text
      = fresh isWord (lay layout.body).2 + rowWithin isWord (lay layout.body).2 +
        keyKinds isWord (lay layout.body).2 := by
  obtain ⟨hlead, hrow⟩ := outside_lay layout.body layout.body_blank
  have hfront : Outside (layout.lead ++ (lay layout.body).1) :=
    Outside.append (fun c hc => isOutside_of_isBlank (layout.lead_blank c hc)) hlead
  have htext : layout.text = layout.lead ++ (lay layout.body).1 ++ quoted (lay layout.body).2 := by
    rw [Layout.text, bodyText_eq, List.append_assoc]
  have hnul : Char.ofNat 0 ∉ layout.text := by
    rw [htext, List.mem_append]
    exact not_or.mpr ⟨hfront.nul_notMem, nul_notMem_quoted hrow⟩
  have hedge := edge_quoted (lay layout.body).2
  have hsigning : Silent isWord signingField :=
    silent_keyed (takes_oneOf isWord signingFieldKeys) mem_soughtNames_of_signing _
  have hkey : Silent isWord vmRawKey :=
    silent_keyed (takes_oneOf isWord vmRawKeys) mem_soughtNames_of_vmRaw _
  have hbytes : Silent isWord vmRawBytes :=
    silent_keyed (takes_word isWord "bytes") mem_soughtNames_of_bytes _
  rw [reported_eq isWord path hnul, tallyLines_eq, tallyLines_eq, tallyLines_eq, tallyLines_eq,
    tallyLines_eq, tallyLines_eq, htext, (silent_cookieKv isWord).onward_outside hfront hedge,
    hsigning.onward_outside hfront hedge, silent_queryParam.onward_outside hfront hedge,
    silent_url.onward_outside hfront hedge, hkey.onward_outside hfront hedge,
    hbytes.onward_outside hfront hedge, rowWithin, ← onward_within hrow, fresh, keyKinds]
  abel

/-- What the condition is on a row: each chain of cookies is steady, and no key
is told by what follows it. -/
structure Quiet (isWord : Char → Bool) (row : Row) : Prop where
  cookies : CookieSteady isWord row
  signingFields : row.IsChain fun piece next => ¬SigningTold piece next
  vmRawKeys : ∀ piece ∈ row, ¬KeyTold piece
  vmRawBytes : row.IsChain fun piece next => ¬BytesTold piece next

theorem map_fst_squeezed (row : Row) : (squeezed row).map Prod.fst = row.map Prod.fst := by
  rw [squeezed, List.map_map]
  rfl

theorem weighAlone_eq (row : Row) :
    weighAlone isWord row = ((row.map Prod.fst).map (alone isWord)).sum := by
  rw [weighAlone, List.map_map]
  rfl

theorem reported_quiet {tokens : List Token} (h : Quiet isWord (strings tokens).2) (path : String)
    (layout : Layout tokens) :
    reported isWord path layout.text
      = weighAlone isWord (strings tokens).2 + rowWithin isWord (strings tokens).2 := by
  have hstrings := lay_strings layout.body layout.body_blank
  rw [layout.tokens_eq] at hstrings
  have hrow : squeezed (lay layout.body).2 = (strings tokens).2 := congrArg Prod.snd hstrings
  obtain ⟨-, hout⟩ := outside_lay layout.body layout.body_blank
  have hcontents : (strings tokens).2.map Prod.fst = (lay layout.body).2.map Prod.fst := by
    rw [← hrow, map_fst_squeezed]
  rw [← hrow] at h
  rw [reported_layout, fresh_of_steady hout h.cookies, weighAlone_eq, weighAlone_eq, rowWithin,
    rowWithin, hcontents, keyKinds, signing_quiet hout h.signingFields, key_quiet hout h.vmRawKeys,
    bytes_quiet hout h.vmRawBytes, add_zero, add_zero, add_zero]

/-! ## Telling the rules apart -/

/-- All findings are of the rule. -/
def OfRule (rule : Rule) (kinds : Multiset Kind) : Prop := ∀ kind ∈ kinds, kind.1 = rule

theorem OfRule.add {rule : Rule} {a b : Multiset Kind} (ha : OfRule rule a) (hb : OfRule rule b) :
    OfRule rule (a + b) :=
  fun kind hkind => (Multiset.mem_add.mp hkind).elim (ha kind) (hb kind)

theorem ofRule_zero (rule : Rule) : OfRule rule 0 :=
  fun kind h => absurd h (Multiset.notMem_zero kind)

theorem ofRule_onward {rule : Rule} {a : Pattern} {weigh : Read → Multiset Kind}
    (hweigh : ∀ read, OfRule rule (weigh read)) (before : Option Char) (text : List Char) :
    OfRule rule (a.onward isWord weigh before text) := by
  have htally : ∀ before line, OfRule rule (a.tally isWord weigh before line) := by
    intro before line
    refine List.sum_induction (OfRule rule) (fun _ _ => OfRule.add) (ofRule_zero rule)
      fun kinds hkinds => ?_
    obtain ⟨read, -, rfl⟩ := List.mem_map.mp hkinds
    exact hweigh read
  refine OfRule.add (htally _ _) ?_
  refine List.sum_induction (OfRule rule) (fun _ _ => OfRule.add) (ofRule_zero rule)
    fun kinds hkinds => ?_
  obtain ⟨line, -, rfl⟩ := List.mem_map.mp hkinds
  exact htally none line

theorem ofRule_kindOf {rule : Rule} {find : Read → Option Finding}
    (h : ∀ read finding, find read = some finding → finding.rule = rule) (read : Read) :
    OfRule rule (kindOf find read) := by
  intro kind hkind
  cases hfind : find read with
  | none =>
    rw [kindOf, hfind] at hkind
    exact absurd hkind (Multiset.notMem_zero kind)
  | some finding =>
    rw [kindOf, hfind] at hkind
    obtain rfl := Multiset.mem_singleton.mp hkind
    exact h read finding hfind

theorem ofRule_cookie (read : Read) : OfRule .sensitiveCookieValue (cookieKind read) := by
  refine ofRule_kindOf (fun read finding h => ?_) read
  rw [cookieFinding] at h
  split_ifs at h
  rw [← Option.some.inj h]

theorem ofRule_signingField (read : Read) :
    OfRule .signedFieldRawValue (signingFieldKind read) := by
  refine ofRule_kindOf (fun read finding h => ?_) read
  rw [signingFieldFinding] at h
  split_ifs at h
  rw [← Option.some.inj h]

theorem ofRule_vmRawKey (read : Read) : OfRule .vmOperandValue (vmRawKeyKind read) :=
  ofRule_kindOf (fun _ _ h => by rw [← Option.some.inj h]; rfl) read

theorem ofRule_vmRawBytes (read : Read) : OfRule .vmOperandValue (vmRawBytesKind read) :=
  ofRule_kindOf (fun _ _ h => by rw [← Option.some.inj h]; rfl) read

theorem keyKinds_eq_zero {row : Row} (h : keyKinds isWord row = 0) :
    signingField.onward isWord signingFieldKind none (quoted row) = 0 ∧
      vmRawKey.onward isWord vmRawKeyKind none (quoted row) = 0 ∧
      vmRawBytes.onward isWord vmRawBytesKind none (quoted row) = 0 := by
  have hparts : ∀ {a b : Multiset Kind}, a + b = 0 → a = 0 ∧ b = 0 := fun h =>
    ⟨Multiset.le_zero.mp ((Multiset.le_add_right _ _).trans_eq h),
      Multiset.le_zero.mp ((Multiset.le_add_left _ _).trans_eq h)⟩
  exact ⟨(hparts h).1, hparts (hparts h).2⟩

/-- No finding of a key is one of a cookie. -/
theorem ne_cookie_of_keyKinds {row : Row} {kind : Kind} (h : kind ∈ keyKinds isWord row) :
    kind.1 ≠ .sensitiveCookieValue := by
  rcases Multiset.mem_add.mp h with h | h
  · rw [ofRule_onward ofRule_signingField none _ kind h]
    exact fun h => nomatch h
  · rcases Multiset.mem_add.mp h with h | h
    · rw [ofRule_onward ofRule_vmRawKey none _ kind h]
      exact fun h => nomatch h
    · rw [ofRule_onward ofRule_vmRawBytes none _ kind h]
      exact fun h => nomatch h

theorem filter_fresh (row : Row) (kinds : Multiset Kind)
    (h : ∀ kind ∈ kinds, kind.1 ≠ .sensitiveCookieValue) :
    (fresh isWord row + kinds).filter (fun kind => kind.1 = .sensitiveCookieValue)
      = fresh isWord row := by
  rw [Multiset.filter_add, Multiset.filter_eq_self.mpr, Multiset.filter_eq_nil.mpr h, add_zero]
  exact fun kind hkind => ofRule_onward ofRule_cookie none _ kind hkind

/-! ## On every layout -/

theorem bare_strings (tokens : List Token) :
    Bare (strings tokens).1 ∧ ∀ piece ∈ (strings tokens).2, Bare piece.2 := by
  induction tokens with
  | nil => exact ⟨bare_nil, fun _ h => absurd h List.not_mem_nil⟩
  | cons token tokens ih =>
    obtain ⟨hlead, hrow⟩ := ih
    obtain ⟨s, rfl⟩ | htoken := token.string_or
    · exact ⟨bare_nil, List.forall_mem_cons.mpr ⟨hlead, hrow⟩⟩
    · rw [strings_cons htoken]
      exact ⟨(bare_token htoken).append hlead, hrow⟩

theorem map_fst_brokenRow (joined : List Bool) (row : Row) :
    (brokenRow joined row).map Prod.fst = row.map Prod.fst := by
  induction row generalizing joined with
  | nil => rfl
  | cons piece row ih => rw [brokenRow, List.map_cons, List.map_cons, ih]

theorem reported_broken (path : String) (joined : List Bool) (tokens : List Token) :
    reported isWord path (brokenLayout joined tokens).text
      = fresh isWord (brokenRow joined (strings tokens).2) + rowWithin isWord (strings tokens).2 +
        keyKinds isWord (brokenRow joined (strings tokens).2) := by
  have hrow : (lay (brokenLayout joined tokens).body).2 = brokenRow joined (strings tokens).2 :=
    congrArg Prod.snd (lay_broken joined tokens)
  have hwithin : rowWithin isWord (brokenRow joined (strings tokens).2)
      = rowWithin isWord (strings tokens).2 := by
    rw [rowWithin, rowWithin, map_fst_brokenRow]
  rw [reported_layout, hrow, hwithin]

/-- Where the layouts are read alike, so are the cookies, and no key is reported. -/
theorem fresh_keyKinds_of_layoutFree {tokens : List Token} (h : LayoutFree isWord tokens)
    (joined : List Bool) :
    fresh isWord (brokenRow joined (strings tokens).2) = weighAlone isWord (strings tokens).2 ∧
      keyKinds isWord (brokenRow joined (strings tokens).2) = 0 := by
  have hout : ∀ piece ∈ (strings tokens).2, Outside piece.2 :=
    fun piece hpiece => ((bare_strings tokens).2 piece hpiece).outside
  have hquiet : keyKinds isWord (brokenRow [] (strings tokens).2) = 0 := by
    obtain ⟨hsigning, hkey, hbytes⟩ := broken_quiet hout
    rw [keyKinds, hsigning, hkey, hbytes]
    rfl
  have hboth := h "" "" (brokenLayout joined tokens) (brokenLayout [] tokens)
  rw [reported_broken, reported_broken, hquiet, add_right_comm, add_right_comm _ _ 0] at hboth
  have hsame := add_right_cancel hboth
  have hcookie := congrArg (Multiset.filter fun kind => kind.1 = .sensitiveCookieValue) hsame
  rw [filter_fresh _ _ fun _ => ne_cookie_of_keyKinds,
    filter_fresh _ _ fun kind h => absurd h (Multiset.notMem_zero kind)] at hcookie
  rw [← fresh_broken hout]
  refine ⟨hcookie, ?_⟩
  rw [hcookie] at hsame
  exact add_left_cancel hsame

/-- Every layout of a document is reported alike exactly where its cookies are
steady and no key is told by what follows it. -/
theorem layoutFree_iff (document : Document) :
    LayoutFree isWord document.tokens ↔ Quiet isWord (strings document.tokens).2 := by
  constructor
  · intro h
    have hsame := fresh_keyKinds_of_layoutFree h
    have hbare := (bare_strings document.tokens).2
    have hout : ∀ piece ∈ (strings document.tokens).2, Outside piece.2 :=
      fun piece hpiece => (hbare piece hpiece).outside
    constructor
    · by_contra hcookies
      obtain ⟨joined, hne⟩ := exists_loudCookie hbare hcookies
      exact hne (hsame joined).1
    · by_contra hfields
      obtain ⟨joined, hne⟩ := exists_loud_signing hout hfields
      exact hne (keyKinds_eq_zero (hsame joined).2).1
    · intro piece hpiece htold
      obtain ⟨joined, hne⟩ := exists_loud_key hout ⟨piece, hpiece, htold⟩
      exact hne (keyKinds_eq_zero (hsame joined).2).2.1
    · by_contra hraw
      obtain ⟨joined, hne⟩ := exists_loud_bytes hout hraw
      exact hne (keyKinds_eq_zero (hsame joined).2).2.2
  · intro h path path' layout layout'
    rw [reported_quiet h, reported_quiet h]

/-- A cookie as a pair of strings. -/
def cookiePair : Document :=
  .array [.string ⟨"msToken".toList, "msToken".toList.map Char.toNat, by decide +kernel⟩,
    .string ⟨"Ab3xK9pQ7wLmN2vR8sT4uYc6ZdE1fG0h".toList,
      "Ab3xK9pQ7wLmN2vR8sT4uYc6ZdE1fG0h".toList.map Char.toNat, by decide +kernel⟩]

/-- What is written behind the tokens of the pair, each string on a line of its own. -/
def prettyBlanks : List (List Char) := ["\n  ".toList, [], "\n  ".toList, ['\n'], ['\n']]

theorem isBlank_prettyBlanks :
    ∀ piece ∈ cookiePair.tokens.zip prettyBlanks, ∀ c ∈ piece.2, JsonText.isBlank c = true := by
  intro piece hpiece
  have hblanks : (prettyBlanks.all fun blanks => blanks.all JsonText.isBlank) = true := by
    decide
  have hmem := (List.of_mem_zip (a := piece.1) (b := piece.2) hpiece).2
  exact List.all_eq_true.mp (List.all_eq_true.mp hblanks _ hmem)

theorem isBlank_nil : ∀ c ∈ ([] : List Char), JsonText.isBlank c = true :=
  fun _ h => absurd h List.not_mem_nil

def prettyPair : Layout cookiePair.tokens where
  lead := []
  body := cookiePair.tokens.zip prettyBlanks
  tokens_eq := rfl
  lead_blank := isBlank_nil
  body_blank := isBlank_prettyBlanks

/-- The pair is reported on one line and not on several. -/
theorem not_layoutFree_cookiePair :
    ¬LayoutFree (fun c => c.isAlphanum || c == '_') cookiePair.tokens := by
  intro h
  have hsame := h "" "" (brokenLayout [true, true] cookiePair.tokens) prettyPair
  have hcard := congrArg Multiset.card hsame
  exact absurd hcard (by decide +kernel)

end Layouts

end TiktokSigner.FixtureHygiene
