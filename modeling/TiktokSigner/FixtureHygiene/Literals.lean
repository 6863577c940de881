import Mathlib.Data.List.Chain
import TiktokSigner.FixtureHygiene.Layout

/-!
# Names, literals and what stands between them

A quote inside a string literal has a backslash before it (`Guarded`), and
between two literals there are only blanks, marks and scalars, which cannot
spell a name that a pattern looks for (`stripFolded_outside`). So a name
that a quote follows stands at the end of a literal.
-/

namespace TiktokSigner.FixtureHygiene

open Regex Regex.Pattern Text

/-! ## Classes of characters -/

def isQuote : Char → Bool := isOneOf "\""

def isSeparator : Char → Bool := isOneOf "=:,"

/-- A character of a cookie value. -/
def isValue : Char → Bool := isNoneOf ";\"',\x7d]"

theorem isOneOf_iff {chars : String} {c : Char} : isOneOf chars c = true ↔ c ∈ chars.toList :=
  List.contains_iff_mem

theorem isQuote_iff {c : Char} : isQuote c = true ↔ c = '"' := by
  rw [isQuote, isOneOf_iff]
  simp

theorem isSeparator_iff {c : Char} : isSeparator c = true ↔ c = '=' ∨ c = ':' ∨ c = ',' := by
  rw [isSeparator, isOneOf_iff]
  simp

theorem isSeparator_of_isWhitespace {c : Char} (h : isWhitespace c = true) :
    isSeparator c = false := by
  by_contra hsep
  rcases isSeparator_iff.mp (by simpa using hsep) with rfl | rfl | rfl
  · cases h
  · cases h
  · cases h

theorem isValue_of_isWhitespace {c : Char} (h : isWhitespace c = true) : isValue c = false := by
  rw [isValue, isNoneOf, h, Bool.not_true, Bool.and_false]

theorem isWhitespace_of_isBlank {c : Char} (h : JsonText.isBlank c = true) :
    isWhitespace c = true := by
  simp only [JsonText.isBlank, Bool.or_eq_true, beq_iff_eq] at h
  rcases h with ((rfl | rfl) | rfl) | rfl <;> rfl

/-! ## Names -/

/-- A character of a name. -/
def isNameChar (c : Char) : Bool := c.isAlphanum || c == '_' || c == '-'

theorem toNat_between {c low high : Char} (h : (c.val ≥ low.val && c.val ≤ high.val) = true) :
    low.toNat ≤ c.toNat ∧ c.toNat ≤ high.toNat := by
  obtain ⟨hlow, hhigh⟩ := Bool.and_eq_true_iff.mp h
  exact ⟨UInt32.le_iff_toNat_le.mp (of_decide_eq_true hlow),
    UInt32.le_iff_toNat_le.mp (of_decide_eq_true hhigh)⟩

theorem toNat_of_isNameChar {c : Char} (hc : isNameChar c = true) :
    48 ≤ c.toNat ∧ c.toNat ≤ 57 ∨ 65 ≤ c.toNat ∧ c.toNat ≤ 90 ∨ 97 ≤ c.toNat ∧ c.toNat ≤ 122 ∨
      c.toNat = 95 ∨ c.toNat = 45 := by
  rcases Bool.or_eq_true_iff.mp hc with hc | hc
  · rcases Bool.or_eq_true_iff.mp hc with hc | hc
    · rcases Bool.or_eq_true_iff.mp hc with hc | hc
      · rcases Bool.or_eq_true_iff.mp hc with hc | hc
        · obtain ⟨hlow, hhigh⟩ := of_decide_eq_true hc
          exact Or.inr (Or.inl ⟨UInt32.le_iff_toNat_le.mp hlow, UInt32.le_iff_toNat_le.mp hhigh⟩)
        · have hlower := toNat_between hc
          exact Or.inr (Or.inr (Or.inl hlower))
      · exact Or.inl (toNat_between hc)
    · rw [beq_iff_eq.mp hc]
      exact Or.inr (Or.inr (Or.inr (Or.inl rfl)))
  · rw [beq_iff_eq.mp hc]
    exact Or.inr (Or.inr (Or.inr (Or.inr rfl)))

theorem fold_cases (c : Char) :
    (65 ≤ c.toNat ∧ c.toNat ≤ 90 ∧ (fold c).toNat = c.toNat + 32) ∨
      c.toNat = 383 ∧ (fold c).toNat = 115 ∨ c.toNat = 8490 ∧ (fold c).toNat = 107 ∨
      (c.toNat < 65 ∨ 90 < c.toNat) ∧ fold c = c := by
  rw [fold]
  split_ifs with hupper hs hk
  · have h1 : 65 ≤ c.toNat := hupper.1
    have h2 : c.toNat ≤ 90 := hupper.2
    exact Or.inl ⟨h1, h2, Utf8.toNat_ofNat (by omega)⟩
  · subst hs
    exact Or.inr (Or.inl ⟨rfl, rfl⟩)
  · subst hk
    exact Or.inr (Or.inr (Or.inl ⟨rfl, rfl⟩))
  · have hcase : c.toNat < 65 ∨ 90 < c.toNat := by
      by_contra h
      exact hupper ⟨show 65 ≤ c.toNat by omega, show c.toNat ≤ 90 by omega⟩
    exact Or.inr (Or.inr (Or.inr ⟨hcase, rfl⟩))

/-- What a character of a name may be written as. -/
theorem toNat_of_fold {c d : Char} (hc : isNameChar c = true) (h : fold d = fold c) :
    48 ≤ d.toNat ∧ d.toNat ≤ 57 ∨ 65 ≤ d.toNat ∧ d.toNat ≤ 90 ∨ 97 ≤ d.toNat ∧ d.toNat ≤ 122 ∨
      d.toNat = 95 ∨ d.toNat = 45 ∨ d.toNat = 383 ∨ d.toNat = 8490 := by
  have hrange := toNat_of_isNameChar hc
  have htoNat : (fold d).toNat = (fold c).toNat := by rw [h]
  rcases fold_cases c with hcase | hcase | hcase | ⟨-, hcase⟩
  all_goals
    rcases fold_cases d with hcase' | hcase' | hcase' | ⟨-, hcase'⟩
    all_goals
      try rw [hcase] at htoNat
      try rw [hcase'] at htoNat
      omega

/-- What a name is written in. -/
def isNameLike : Char → Bool := isNoneOf "\"\\=:,"

theorem isNameLike_of_fold {c d : Char} (hc : isNameChar c = true) (h : fold d = fold c) :
    isNameLike d = true := by
  have hrange := toNat_of_fold hc h
  have hmark : isOneOf "\"\\=:," d = false := by
    by_contra hmark
    have hmem : d ∈ "\"\\=:,".toList := isOneOf_iff.mp (by simpa using hmark)
    simp only [String.reduceToList, List.mem_cons, List.not_mem_nil, or_false] at hmem
    rcases hmem with rfl | rfl | rfl | rfl | rfl <;> exact absurd hrange (by decide)
  have hblank : isWhitespace d = false := by
    simp only [isWhitespace, Bool.or_eq_false_iff, Bool.and_eq_false_iff, decide_eq_false_iff_not,
      beq_eq_false_iff_ne]
    omega
  rw [isNameLike, isNoneOf, hmark, hblank]
  rfl

/-- The words that the patterns look for. -/
def soughtNames : List String :=
  sensitiveCookies ++ signingFieldKeys ++ vmRawKeys ++ ["bytes"]

theorem isNameChar_soughtNames :
    (soughtNames.all fun name => name.toList.all isNameChar) = true := by
  decide

theorem isNameChar_of_mem {name : String} (hname : name ∈ soughtNames) :
    ∀ c ∈ name.toList, isNameChar c = true :=
  List.all_eq_true.mp (List.all_eq_true.mp isNameChar_soughtNames name hname)

/-! ## Outside of the literals -/

/-- A character that may stand outside of the string literals. -/
def isOutside : Char → Bool := isOneOf " \t\n\r\x7b\x7d[]:,+-.0123456789truefalsnE"

theorem isOutside_all {p : Char → Bool}
    (hp : (" \t\n\r\x7b\x7d[]:,+-.0123456789truefalsnE".toList.all p) = true) {c : Char}
    (hc : isOutside c = true) : p c = true :=
  List.all_eq_true.mp hp c (isOneOf_iff.mp hc)

theorem ne_quote_of_isOutside {c : Char} (hc : isOutside c = true) : c ≠ '"' := by
  have h := isOutside_all (p := fun c => c != '"') (by decide) hc
  exact bne_iff_ne.mp h

theorem isOutside_fold {c : Char} (hc : isOutside c = true) : isOutside (fold c) = true :=
  isOutside_all (p := fun c => isOutside (fold c)) (by decide) hc

theorem isOutside_of_isBlank {c : Char} (h : JsonText.isBlank c = true) : isOutside c = true := by
  simp only [JsonText.isBlank, Bool.or_eq_true, beq_iff_eq] at h
  rcases h with ((rfl | rfl) | rfl) | rfl <;> rfl

theorem isBlank_of_isWhitespace {c : Char} (hc : isOutside c = true)
    (hspace : isWhitespace c = true) : JsonText.isBlank c = true := by
  have h := isOutside_all (p := fun c => !isWhitespace c || JsonText.isBlank c) (by decide)
    hc
  rw [hspace] at h
  exact h

/-- Every name has a letter that no other text outside of the literals has. -/
theorem exists_inside_soughtNames :
    (soughtNames.all fun name => name.toList.any fun c => !isOutside (fold c)) = true := by
  decide

theorem exists_inside {name : String} (hname : name ∈ soughtNames) :
    ∃ c ∈ name.toList, isOutside (fold c) = false := by
  obtain ⟨c, hc, hout⟩ := List.any_eq_true.mp
    (List.all_eq_true.mp exists_inside_soughtNames name hname)
  exact ⟨c, hc, by simpa using hout⟩

/-- All characters may stand outside of the literals. -/
def Outside (text : List Char) : Prop := ∀ c ∈ text, isOutside c = true

theorem outside_nil : Outside [] := fun _ h => absurd h List.not_mem_nil

theorem Outside.append {a b : List Char} (ha : Outside a) (hb : Outside b) : Outside (a ++ b) :=
  List.forall_mem_append.mpr ⟨ha, hb⟩

theorem Outside.cons {c : Char} {text : List Char} (hc : isOutside c = true) (h : Outside text) :
    Outside (c :: text) :=
  List.forall_mem_cons.mpr ⟨hc, h⟩

/-! ## Names in a text -/

theorem exists_of_sameFolded {r : List Char} {w : List Char} (h : SameFolded r w) {d : Char}
    (hd : d ∈ r) : ∃ c ∈ w, fold c = fold d := by
  have hmem : fold d ∈ w.map fold := by
    rw [← h]
    exact List.mem_map_of_mem hd
  exact List.mem_map.mp hmem

/-- A name is written in characters of names. -/
theorem isNameLike_of_sameFolded {name : String} (hname : name ∈ soughtNames) {r : List Char}
    (h : SameFolded r name.toList) : ∀ d ∈ r, isNameLike d = true := by
  intro d hd
  obtain ⟨c, hc, hfold⟩ := exists_of_sameFolded h hd
  exact isNameLike_of_fold (isNameChar_of_mem hname c hc) hfold.symm

theorem quote_notMem_of_sameFolded {name : String} (hname : name ∈ soughtNames) {r : List Char}
    (h : SameFolded r name.toList) : '"' ∉ r :=
  fun hmem => absurd (isNameLike_of_sameFolded hname h _ hmem) (by decide)

/-- No name is written outside of the literals. -/
theorem not_outside_of_sameFolded {name : String} (hname : name ∈ soughtNames) {r : List Char}
    (h : SameFolded r name.toList) : ¬Outside r := by
  intro hout
  obtain ⟨c, hc, hin⟩ := exists_inside hname
  obtain ⟨d, hd, hfold⟩ := exists_of_sameFolded h.symm hc
  rw [← hfold, isOutside_fold (hout d hd)] at hin
  cases hin

/-- The text ends or a quote follows. -/
def Edge (text : List Char) : Prop := ∀ c ∈ text.head?, c = '"'

/-- What a name takes of a text lies before the next quote. -/
theorem append_of_notMem {r rest text tail : List Char} (hr : '"' ∉ r) (htail : Edge tail)
    (h : r ++ rest = text ++ tail) : ∃ more, text = r ++ more ∧ rest = more ++ tail := by
  obtain ⟨more, htext, hrest⟩ | ⟨more, hr', htail'⟩ := List.append_eq_append_iff.mp h
  · exact ⟨more, htext, hrest⟩
  · cases more with
    | nil => exact ⟨[], by rw [hr', List.append_nil, List.append_nil], htail'.symm⟩
    | cons c more =>
      have hc := htail c (by rw [htail']; rfl)
      rw [hr', hc] at hr
      exact absurd (List.mem_append_right _ List.mem_cons_self) hr

theorem stripFolded_outside {name : String} (hname : name ∈ soughtNames) {o tail : List Char}
    (ho : Outside o) (htail : Edge tail) : stripFolded name.toList (o ++ tail) = none := by
  rw [Option.eq_none_iff_forall_ne_some]
  intro r hr
  obtain ⟨hfold, -, htext⟩ := stripFolded_eq_some.mp hr
  obtain ⟨more, rfl, -⟩ := append_of_notMem (quote_notMem_of_sameFolded hname hfold) htail htext
  exact not_outside_of_sameFolded hname hfold fun c hc => ho c (List.mem_append_left _ hc)

theorem stripFolded_append {name : String} (hname : name ∈ soughtNames) {text tail : List Char}
    (htail : Edge tail) : stripFolded name.toList (text ++ tail)
      = (stripFolded name.toList text).map fun r => ⟨r.text, [], r.rest ++ tail⟩ := by
  ext r
  rw [Option.map_eq_some_iff, stripFolded_eq_some]
  constructor
  · rintro ⟨hfold, hgroups, htext⟩
    obtain ⟨more, rfl, hrest⟩ :=
      append_of_notMem (quote_notMem_of_sameFolded hname hfold) htail htext
    refine ⟨⟨r.text, [], more⟩, stripFolded_eq_some.mpr ⟨hfold, rfl, rfl⟩, ?_⟩
    rw [← hrest, ← hgroups]
  · rintro ⟨s, hs, rfl⟩
    obtain ⟨hfold, -, rfl⟩ := stripFolded_eq_some.mp hs
    exact ⟨hfold, rfl, (List.append_assoc _ _ _).symm⟩

/-! ## Inside of a literal -/

/-- A literal from its opening quote on, or a part of it: a quote that follows
a character follows a backslash, and there are no control characters. -/
def Guarded (text : List Char) : Prop :=
  text.IsChain (fun c d => d = '"' → c = '\\') ∧ ∀ c ∈ text, 32 ≤ c.toNat

theorem Guarded.suffix {text part : List Char} (h : Guarded text) (hpart : part <:+ text) :
    Guarded part :=
  ⟨h.1.suffix hpart, fun c hc => h.2 c (hpart.subset hc)⟩

theorem Guarded.tail {c : Char} {text : List Char} (h : Guarded (c :: text)) : Guarded text :=
  h.suffix (List.suffix_cons c text)

theorem Guarded.newline_notMem {text : List Char} (h : Guarded text) : '\n' ∉ text :=
  fun hmem => absurd (h.2 _ hmem) (by decide)

theorem Guarded.quote {front back : List Char} {c : Char}
    (h : Guarded (front ++ c :: '"' :: back)) : c = '\\' :=
  (List.isChain_cons_cons.mp (h.1.suffix (List.suffix_append front _))).1 rfl

theorem hexDigit_spec {c : Char} {n : Nat} (h : JsonText.hexDigit c = some n) :
    c ≠ '"' ∧ 32 ≤ c.toNat := by
  have hrange : 48 ≤ c.toNat := by
    rw [JsonText.hexDigit] at h
    split_ifs at h with h1 h2 h3
    · exact h1.1
    · exact le_trans (by decide) (show 97 ≤ c.toNat from h2.1)
    · exact le_trans (by decide) (show 65 ≤ c.toNat from h3.1)
  refine ⟨?_, by omega⟩
  rintro rfl
  exact absurd hrange (by decide)

theorem escapeUnit_spec {c : Char} {n : Nat} (h : JsonText.escapeUnit c = some n) :
    32 ≤ c.toNat := by
  rw [JsonText.escapeUnit] at h
  split_ifs at h with h1 h2 h3 h4 h5 h6
  · rcases h1 with rfl | rfl | rfl <;> decide
  all_goals
    subst_vars
    decide

theorem hexUnit_spec {a b c d : Char} {n : Nat} (h : JsonText.hexUnit a b c d = some n) :
    ∀ x ∈ [a, b, c, d], x ≠ '"' ∧ 32 ≤ x.toNat := by
  simp only [JsonText.hexUnit, Option.bind_eq_bind, Option.bind_eq_some_iff] at h
  obtain ⟨_, ha, _, hb, _, hc, _, hd, -⟩ := h
  simpa using ⟨hexDigit_spec ha, hexDigit_spec hb, hexDigit_spec hc, hexDigit_spec hd⟩

theorem guarded_cons {c d : Char} {text : List Char} (hcd : d = '"' → c = '\\')
    (hc : 32 ≤ c.toNat) (h : Guarded (d :: text)) : Guarded (c :: d :: text) :=
  ⟨List.isChain_cons_cons.mpr ⟨hcd, h.1⟩, List.forall_mem_cons.mpr ⟨hc, h.2⟩⟩

/-- What is read as the rest of a literal up to its closing quote. -/
theorem guarded_of_string : ∀ (text : List Char) {c : Char} (units : List Nat), 32 ≤ c.toNat →
    JsonText.string (text ++ ['"']) = some (units, []) → Guarded (c :: text)
  | [], c, _, hc, _ => ⟨List.IsChain.singleton c, fun d hd => by rwa [List.mem_singleton.mp hd]⟩
  | e :: text, c, units, hc, h => by
      rw [List.cons_append, JsonText.string.eq_def] at h
      dsimp only at h
      split_ifs at h with hquote hescape hcontrol
      · simp at h
      · subst hescape
        refine guarded_cons (fun h => absurd h (by decide)) hc ?_
        cases text with
        | nil => simp [JsonText.escapeUnit, JsonText.string] at h
        | cons e text =>
          rw [List.cons_append] at h
          dsimp only at h
          split_ifs at h with hunit
          · subst hunit
            rcases text with _ | ⟨a, _ | ⟨b, _ | ⟨d, _ | ⟨e, text⟩⟩⟩⟩
            · simp at h
            · simp at h
            · simp at h
            · obtain ⟨unit, hunit, -⟩ := Option.bind_eq_some_iff.mp h
              exact absurd rfl (hexUnit_spec hunit '"' (by simp)).1
            · obtain ⟨unit, hunit, h⟩ := Option.bind_eq_some_iff.mp h
              obtain ⟨read, hread, hpair⟩ := Option.map_eq_some_iff.mp h
              have hdigits := hexUnit_spec hunit
              simp only [List.mem_cons, List.not_mem_nil, or_false, forall_eq_or_imp,
                forall_eq] at hdigits
              obtain ⟨ha, hb, hd, he⟩ := hdigits
              refine guarded_cons (fun _ => rfl) (by decide) ?_
              refine guarded_cons (fun h => absurd h ha.1) (by decide) ?_
              refine guarded_cons (fun h => absurd h hb.1) ha.2 ?_
              refine guarded_cons (fun h => absurd h hd.1) hb.2 ?_
              refine guarded_cons (fun h => absurd h he.1) hd.2 ?_
              refine guarded_of_string text read.1 he.2 (hread.trans ?_)
              rw [← (Prod.mk.inj hpair).2]
          · obtain ⟨unit, hunit, h⟩ := Option.bind_eq_some_iff.mp h
            obtain ⟨read, hread, hpair⟩ := Option.map_eq_some_iff.mp h
            refine guarded_cons (fun _ => rfl) (by decide) ?_
            refine guarded_of_string text read.1 (escapeUnit_spec hunit) ?_
            rw [hread, ← (Prod.mk.inj hpair).2]
      · obtain ⟨read, hread, hpair⟩ := Option.map_eq_some_iff.mp h
        refine guarded_cons (fun h => absurd h hquote) hc ?_
        refine guarded_of_string text read.1 (by omega) ?_
        rw [hread, ← (Prod.mk.inj hpair).2]

theorem guarded_content (s : Content) : Guarded ('"' :: s.val) := by
  obtain ⟨units, hread⟩ := s.property
  exact guarded_of_string s.val units (by decide) hread

/-! ## Scalars -/

/-- A character that may stand outside of the literals and is no blank. -/
def isBare (c : Char) : Bool := isOutside c && !JsonText.isBlank c

def Bare (text : List Char) : Prop := ∀ c ∈ text, isBare c = true

theorem bare_nil : Bare [] := fun _ h => absurd h List.not_mem_nil

theorem Bare.append {a b : List Char} (ha : Bare a) (hb : Bare b) : Bare (a ++ b) :=
  List.forall_mem_append.mpr ⟨ha, hb⟩

theorem Bare.cons {c : Char} {text : List Char} (hc : isBare c = true) (h : Bare text) :
    Bare (c :: text) :=
  List.forall_mem_cons.mpr ⟨hc, h⟩

theorem isBare_of_isDigit {c : Char} (h : c.isDigit = true) : isBare c = true := by
  have hrange : 48 ≤ c.toNat ∧ c.toNat ≤ 57 := toNat_between h
  have hdigits : ((List.range 58).all fun n => n < 48 || isBare (Char.ofNat n)) = true := by
    decide
  have hc := List.all_eq_true.mp hdigits c.toNat (List.mem_range.mpr (by omega))
  rw [Char.ofNat_toNat, decide_eq_false (by omega), Bool.false_or] at hc
  exact hc

theorem Bare.outside {text : List Char} (h : Bare text) : Outside text :=
  fun c hc => (Bool.and_eq_true_iff.mp (h c hc)).1

theorem bare_digits (text : List Char) : Bare (JsonText.digits text).1 :=
  fun _ hc => isBare_of_isDigit (List.mem_takeWhile_imp hc)

theorem bare_fraction {text : List Char} {read : List Char × List Char}
    (h : JsonText.fraction text = some read) : Bare read.1 := by
  rw [JsonText.fraction.eq_def] at h
  split at h
  · split_ifs at h
    rw [← Option.some.inj h]
    exact Bare.cons rfl (bare_digits _)
  · rw [← Option.some.inj h]
    exact fun _ h => absurd h List.not_mem_nil

theorem bare_exponent {text : List Char} {read : List Char × List Char}
    (h : JsonText.exponent text = some read) : Bare read.1 := by
  rw [JsonText.exponent.eq_def] at h
  cases text with
  | nil =>
    rw [← Option.some.inj h]
    exact bare_nil
  | cons mark rest =>
    dsimp only at h
    split_ifs at h with hmark hdigits
    · have hmark : isBare mark = true := by
        rcases hmark with rfl | rfl <;> rfl
      rw [← Option.some.inj h]
      refine Bare.append (Bare.cons hmark ?_) (bare_digits _)
      split
      · split_ifs with hsign
        · refine Bare.cons ?_ bare_nil
          rcases hsign with rfl | rfl <;> rfl
        · exact bare_nil
      · exact bare_nil
    · rw [← Option.some.inj h]
      exact bare_nil

theorem bare_unsigned {sign text : List Char} {read : List Char × List Char}
    (hsign : Bare sign)
    (h : (if (JsonText.digits text).1 = [] ∨
        (JsonText.digits text).1.head? = some '0' ∧ (JsonText.digits text).1.length ≠ 1 then none
      else (JsonText.fraction (JsonText.digits text).2).bind fun fraction =>
        (JsonText.exponent fraction.2).map fun exponent =>
          (sign ++ (JsonText.digits text).1 ++ fraction.1 ++ exponent.1, exponent.2)) = some read) :
    Bare read.1 := by
  split_ifs at h
  obtain ⟨fraction, hfraction, h⟩ := Option.bind_eq_some_iff.mp h
  obtain ⟨exponent, hexponent, h⟩ := Option.map_eq_some_iff.mp h
  rw [← h]
  exact ((hsign.append (bare_digits text)).append (bare_fraction hfraction)).append
    (bare_exponent hexponent)

theorem bare_number {text : List Char} {read : List Char × List Char}
    (h : JsonText.number text = some read) : Bare read.1 := by
  rw [JsonText.number.eq_def] at h
  dsimp only at h
  split at h
  · exact bare_unsigned (Bare.cons (c := '-') rfl bare_nil) h
  · exact bare_unsigned bare_nil h

theorem bare_scalar (s : Scalar) : Bare s.val := by
  rcases s.property with h | h | h | h
  · exact List.all_eq_true.mp (by rw [h]; rfl)
  · exact List.all_eq_true.mp (by rw [h]; rfl)
  · exact List.all_eq_true.mp (by rw [h]; rfl)
  · exact bare_number h

theorem isBare_mark (mark : Mark) : isBare mark.char = true := by
  cases mark <;> rfl

end TiktokSigner.FixtureHygiene
