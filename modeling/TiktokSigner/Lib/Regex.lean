import Mathlib.Data.List.Basic
import Mathlib.Tactic.SplitIfs

/-!
# Patterns with priorities

Regular expressions as backtracking engines read them. A pattern has a row
of ways to read a text from a place on, the preferred one first
(`Pattern.reads`), and the matches of a pattern are taken from left to
right, each from the first place where there is a way at all (`scan`). What
counts as a letter of a word is a parameter, since the tables of Unicode are
no part of this.
-/

namespace Regex

inductive Pattern where
  | empty
  /-- A character of a class. -/
  | one (p : Char → Bool)
  /-- As many characters of a class as there are, and no fewer than `least`. -/
  | run (p : Char → Bool) (least : Nat)
  /-- The edge of a word. -/
  | boundary
  | seq (a b : Pattern)
  /-- The first one, or else the second. -/
  | either (a b : Pattern)
  | group (a : Pattern)

/-- One way to read a text: what is read, what the groups took of it, and
what is left. Every group of a pattern lies on all of its ways. -/
structure Read where
  text : List Char
  groups : List (List Char)
  rest : List Char

def Read.group (self : Read) (i : Nat) : List Char := self.groups.getD i []

/-- One way after another. -/
def Read.append (r s : Read) : Read := ⟨r.text ++ s.text, r.groups ++ s.groups, s.rest⟩

/-- The same with more behind it. -/
def Read.extend (more : List Char) (r : Read) : Read := ⟨r.text, r.groups, r.rest ++ more⟩

/-- What the groups took, and what is left. -/
def Read.key (self : Read) : List (List Char) × List Char := (self.groups, self.rest)

/-- The character that stands before what follows. -/
def lastOr (before : Option Char) (text : List Char) : Option Char := text.getLast? <|> before

theorem lastOr_cons (before : Option Char) (c : Char) (text : List Char) :
    lastOr before (c :: text) = lastOr (some c) text := by
  cases text with
  | nil => rfl
  | cons d text =>
    rw [lastOr, lastOr, List.getLast?_cons_cons, List.getLast?_cons]
    rfl

/-- The beginnings of a text that lie in a class, the longest first. -/
def runs (p : Char → Bool) : List Char → List Read
  | [] => [⟨[], [], []⟩]
  | c :: rest =>
      if p c then
        (runs p rest).map (fun read => ⟨c :: read.text, [], read.rest⟩) ++ [⟨[], [], c :: rest⟩]
      else [⟨[], [], c :: rest⟩]

namespace Pattern

/-- A pattern that need not be there. -/
def maybe (a : Pattern) : Pattern := either a empty

/-- The first of the patterns, or else the next. -/
def anyOf : List Pattern → Pattern
  | [] => one fun _ => false
  | [a] => a
  | a :: rest => either a (anyOf rest)

def all : List Pattern → Pattern := fun row => row.foldr seq empty

variable (isWord : Char → Bool)

/-- The ways to read a text, the preferred one first. -/
def reads : Pattern → Option Char → List Char → List Read
  | empty, _, text => [⟨[], [], text⟩]
  | one _, _, [] => []
  | one p, _, c :: rest => if p c then [⟨[c], [], rest⟩] else []
  | run p least, _, text => (runs p text).filter fun read => least ≤ read.text.length
  | boundary, before, text =>
      if before.any isWord != text.head?.any isWord then [⟨[], [], text⟩] else []
  | seq a b, before, text =>
      (reads a before text).flatMap fun first =>
        (reads b (lastOr before first.text) first.rest).map fun second =>
          ⟨first.text ++ second.text, first.groups ++ second.groups, second.rest⟩
  | either a b, before, text => reads a before text ++ reads b before text
  | group a, before, text =>
      (reads a before text).map fun read => ⟨read.text, read.text :: read.groups, read.rest⟩

/-- The way that is taken. -/
def first (a : Pattern) (before : Option Char) (text : List Char) : Option Read :=
  (a.reads isWord before text).head?

/-- The matches from left to right, none over another. The next `skip`
characters belong to the match before. The patterns are those that read a
character at least. -/
def scan (a : Pattern) : Nat → Option Char → List Char → List Read
  | _, _, [] => []
  | skip + 1, _, c :: rest => scan a skip (some c) rest
  | 0, before, c :: rest =>
      match a.first isWord before (c :: rest) with
      | some read => read :: scan a (read.text.length - 1) (some c) rest
      | none => scan a 0 (some c) rest

/-- All matches in a text. -/
def capturesIter (a : Pattern) (text : List Char) : List Read := a.scan isWord 0 none text

end Pattern

/-! ## Letters in either case -/

/-- Simple case folding, of the characters that are folded with an ASCII
letter. -/
def fold (c : Char) : Char :=
  if 'A' ≤ c ∧ c ≤ 'Z' then Char.ofNat (c.toNat + 32)
  else if c = '\u017f' then 's'
  else if c = '\u212a' then 'k'
  else c

/-- The same text but for the case of its letters. -/
def SameFolded (a b : List Char) : Prop := a.map fold = b.map fold

instance (a b : List Char) : Decidable (SameFolded a b) := inferInstanceAs (Decidable (_ = _))

namespace Pattern

/-- A word of ASCII characters, in any case. -/
def word (text : List Char) : Pattern := all (text.map fun c => one fun d => fold d == fold c)

/-- One of the words. -/
def oneOf (words : List String) : Pattern := anyOf (words.map fun w => word w.toList)

end Pattern

/-! ## What is read -/

namespace Pattern

section Reads

variable {isWord : Char → Bool} {a b : Pattern} {before : Option Char} {text : List Char} {r : Read}

theorem mem_reads_seq : r ∈ (seq a b).reads isWord before text
    ↔ ∃ first ∈ a.reads isWord before text,
      ∃ second ∈ b.reads isWord (lastOr before first.text) first.rest,
        ⟨first.text ++ second.text, first.groups ++ second.groups, second.rest⟩ = r := by
  simp only [reads, List.mem_flatMap, List.mem_map]

theorem mem_reads_either : r ∈ (either a b).reads isWord before text
    ↔ r ∈ a.reads isWord before text ∨ r ∈ b.reads isWord before text :=
  List.mem_append

theorem mem_reads_group : r ∈ (group a).reads isWord before text
    ↔ ∃ read ∈ a.reads isWord before text, ⟨read.text, read.text :: read.groups, read.rest⟩ = r :=
  List.mem_map

/-- A match is one of the ways to read the text from its place on. -/
theorem mem_scan {skip : Nat} (h : r ∈ a.scan isWord skip before text) :
    ∃ before' text', r ∈ a.reads isWord before' text' := by
  induction text generalizing skip before with
  | nil => cases skip <;> exact absurd h List.not_mem_nil
  | cons c rest ih =>
    cases skip with
    | succ skip => exact ih h
    | zero =>
      rw [scan] at h
      cases hfirst : a.first isWord before (c :: rest) with
      | none =>
        rw [hfirst] at h
        exact ih h
      | some read =>
        rw [hfirst] at h
        rcases List.mem_cons.mp h with rfl | h
        · exact ⟨before, c :: rest, List.mem_of_mem_head? hfirst⟩
        · exact ih h

end Reads

/-! ## Groups -/

/-- There is no group in the pattern. -/
def Flat : Pattern → Prop
  | seq a b => a.Flat ∧ b.Flat
  | either a b => a.Flat ∧ b.Flat
  | group _ => False
  | _ => True

theorem groups_runs {p : Char → Bool} {text : List Char} : ∀ read ∈ runs p text, read.groups = [] := by
  induction text with
  | nil => exact fun read h => by rw [List.mem_singleton.mp h]
  | cons c rest ih =>
    intro read h
    rw [runs] at h
    split_ifs at h
    · rcases List.mem_append.mp h with h | h
      · obtain ⟨tail, -, rfl⟩ := List.mem_map.mp h
        rfl
      · rw [List.mem_singleton.mp h]
    · rw [List.mem_singleton.mp h]

section Groups

variable {isWord : Char → Bool} {a b : Pattern} {before : Option Char} {text : List Char} {r : Read}

theorem groups_of_flat (ha : a.Flat) (hr : r ∈ a.reads isWord before text) : r.groups = [] := by
  induction a generalizing before text r with
  | empty => rw [List.mem_singleton.mp hr]
  | one p =>
    cases text with
    | nil => exact absurd hr List.not_mem_nil
    | cons c rest =>
      rw [reads] at hr
      split_ifs at hr
      · rw [List.mem_singleton.mp hr]
      · exact absurd hr List.not_mem_nil
  | run p least => exact groups_runs r (List.mem_of_mem_filter hr)
  | boundary =>
    rw [reads] at hr
    split_ifs at hr
    · rw [List.mem_singleton.mp hr]
    · exact absurd hr List.not_mem_nil
  | seq a b iha ihb =>
    obtain ⟨first, hfirst, second, hsecond, rfl⟩ := mem_reads_seq.mp hr
    exact List.append_eq_nil_iff.mpr ⟨iha ha.1 hfirst, ihb ha.2 hsecond⟩
  | either a b iha ihb =>
    rcases mem_reads_either.mp hr with hr | hr
    · exact iha ha.1 hr
    · exact ihb ha.2 hr
  | group a => exact ha.elim

/-- What the first group takes has a property, on every way. -/
def FirstGroup (isWord : Char → Bool) (P : List Char → Prop) (a : Pattern) : Prop :=
  ∀ before text, ∀ r ∈ a.reads isWord before text, P (r.group 0)

variable {P : List Char → Prop}

theorem FirstGroup.seq (ha : a.Flat) (hb : FirstGroup isWord P b) :
    FirstGroup isWord P (a.seq b) := by
  intro before text r hr
  obtain ⟨first, hfirst, second, hsecond, rfl⟩ := mem_reads_seq.mp hr
  have hgroups := groups_of_flat ha hfirst
  have hmine := hb _ _ second hsecond
  rw [Read.group] at hmine ⊢
  rwa [hgroups, List.nil_append]

theorem firstGroup_group (ha : ∀ before text, ∀ r ∈ a.reads isWord before text, P r.text) :
    FirstGroup isWord P (a.group.seq b) := by
  intro before text r hr
  obtain ⟨first, hfirst, second, -, rfl⟩ := mem_reads_seq.mp hr
  obtain ⟨read, hread, rfl⟩ := mem_reads_group.mp hfirst
  exact ha _ _ read hread

/-! ## Words -/

theorem flat_word (w : List Char) : (word w).Flat := by
  induction w with
  | nil => trivial
  | cons c w ih => exact ⟨trivial, ih⟩

theorem text_of_mem_word {w : List Char} (hr : r ∈ (word w).reads isWord before text) :
    SameFolded r.text w := by
  induction w generalizing before text r with
  | nil =>
    rw [List.mem_singleton.mp hr]
    rfl
  | cons c w ih =>
    obtain ⟨first, hfirst, second, hsecond, rfl⟩ := mem_reads_seq.mp hr
    cases text with
    | nil => exact absurd hfirst List.not_mem_nil
    | cons d rest =>
      rw [reads] at hfirst
      split_ifs at hfirst with hd
      · rw [List.mem_singleton.mp hfirst]
        exact congrArg₂ List.cons (beq_iff_eq.mp hd) (ih hsecond)
      · exact absurd hfirst List.not_mem_nil

theorem text_of_mem_oneOf {words : List String} (hr : r ∈ (oneOf words).reads isWord before text) :
    ∃ w ∈ words, SameFolded r.text w.toList := by
  induction words with
  | nil =>
    cases text with
    | nil => exact absurd hr List.not_mem_nil
    | cons c rest => exact absurd hr (by simp [oneOf, anyOf, reads])
  | cons w words ih =>
    cases words with
    | nil => exact ⟨w, List.mem_cons_self, text_of_mem_word hr⟩
    | cons w' words =>
      rcases mem_reads_either.mp hr with hr | hr
      · exact ⟨w, List.mem_cons_self, text_of_mem_word hr⟩
      · obtain ⟨v, hv, hsame⟩ := ih hr
        exact ⟨v, List.mem_cons_of_mem _ hv, hsame⟩

end Groups

end Pattern

/-! ## The way that is taken -/

/-- A word at the beginning of a text, in any case. -/
def stripFolded : List Char → List Char → Option Read
  | [], text => some ⟨[], [], text⟩
  | _ :: _, [] => none
  | c :: w, d :: text =>
      if fold d == fold c then (stripFolded w text).map fun r => ⟨d :: r.text, [], r.rest⟩
      else none

theorem stripFolded_eq_some {w text : List Char} {r : Read} :
    stripFolded w text = some r ↔ SameFolded r.text w ∧ r.groups = [] ∧ r.text ++ r.rest = text := by
  constructor
  · intro h
    induction w generalizing text r with
    | nil =>
      obtain rfl := Option.some.inj h
      exact ⟨rfl, rfl, rfl⟩
    | cons c w ih =>
      cases text with
      | nil => cases h
      | cons d text =>
        rw [stripFolded] at h
        split_ifs at h with hd
        obtain ⟨s, hs, rfl⟩ := Option.map_eq_some_iff.mp h
        obtain ⟨hfold, -, htext⟩ := ih hs
        exact ⟨congrArg₂ List.cons (beq_iff_eq.mp hd) hfold, rfl, congrArg (d :: ·) htext⟩
  · rintro ⟨hfold, hgroups, rfl⟩
    obtain ⟨taken, groups, rest⟩ := r
    subst hgroups
    induction taken generalizing w with
    | nil =>
      obtain rfl := List.map_eq_nil_iff.mp hfold.symm
      rfl
    | cons d taken ih =>
      cases w with
      | nil => exact absurd hfold (List.cons_ne_nil _ _)
      | cons c w =>
        obtain ⟨hd, hfold⟩ := List.cons_eq_cons.mp hfold
        rw [List.cons_append, stripFolded, if_pos (beq_iff_eq.mpr hd), ih hfold]
        rfl

theorem runs_eq (p : Char → Bool) (text : List Char) :
    ∃ more, runs p text = ⟨text.takeWhile p, [], text.dropWhile p⟩ :: more ∧
      ∀ r ∈ more, ∃ c rest, r.rest = c :: rest ∧ p c = true := by
  induction text with
  | nil => exact ⟨[], rfl, fun _ h => absurd h List.not_mem_nil⟩
  | cons c text ih =>
    rw [runs]
    by_cases hc : p c = true
    · obtain ⟨more, hruns, hmore⟩ := ih
      rw [if_pos hc, hruns, List.map_cons, List.takeWhile_cons_of_pos hc,
        List.dropWhile_cons_of_pos hc]
      refine ⟨_, rfl, fun r hr => ?_⟩
      rcases List.mem_append.mp hr with hr | hr
      · obtain ⟨tail, htail, rfl⟩ := List.mem_map.mp hr
        exact hmore tail htail
      · rw [List.mem_singleton.mp hr]
        exact ⟨c, text, rfl, hc⟩
    · rw [if_neg hc, List.takeWhile_cons_of_neg hc, List.dropWhile_cons_of_neg hc]
      exact ⟨[], rfl, fun _ h => absurd h List.not_mem_nil⟩

theorem text_append_rest_of_mem_runs {p : Char → Bool} {text : List Char} :
    ∀ r ∈ runs p text, r.text ++ r.rest = text := by
  induction text with
  | nil => exact fun r h => by rw [List.mem_singleton.mp h]; rfl
  | cons c text ih =>
    intro r h
    rw [runs] at h
    split_ifs at h
    · rcases List.mem_append.mp h with h | h
      · obtain ⟨tail, htail, rfl⟩ := List.mem_map.mp h
        exact congrArg (c :: ·) (ih tail htail)
      · rw [List.mem_singleton.mp h]
        rfl
    · rw [List.mem_singleton.mp h]
      rfl

/-- The beginnings of a text that lie in a class. -/
theorem mem_runs {p : Char → Bool} {text : List Char} {r : Read} : r ∈ runs p text
    ↔ (∀ c ∈ r.text, p c = true) ∧ r.groups = [] ∧ r.text ++ r.rest = text := by
  constructor
  · intro h
    refine ⟨?_, Pattern.groups_runs r h, text_append_rest_of_mem_runs r h⟩
    induction text generalizing r with
    | nil =>
      rw [List.mem_singleton.mp h]
      exact fun _ h => nomatch h
    | cons d text ih =>
      rw [runs] at h
      split_ifs at h with hd
      · rcases List.mem_append.mp h with h | h
        · obtain ⟨tail, htail, rfl⟩ := List.mem_map.mp h
          exact List.forall_mem_cons.mpr ⟨hd, ih htail⟩
        · rw [List.mem_singleton.mp h]
          exact fun _ h => nomatch h
      · rw [List.mem_singleton.mp h]
        exact fun _ h => nomatch h
  · rintro ⟨hp, hgroups, rfl⟩
    obtain ⟨taken, groups, rest⟩ := r
    subst hgroups
    induction taken with
    | nil =>
      cases rest with
      | nil => exact List.mem_singleton_self _
      | cons c rest =>
        rw [List.nil_append, runs]
        split_ifs
        · exact List.mem_append_right _ (List.mem_singleton_self _)
        · exact List.mem_singleton_self _
    | cons c taken ih =>
      obtain ⟨hc, hp⟩ := List.forall_mem_cons.mp hp
      rw [List.cons_append, runs, if_pos hc]
      exact List.mem_append_left _ (List.mem_map.mpr ⟨_, ih hp, rfl⟩)

namespace Pattern

section First

variable {isWord : Char → Bool} {a b : Pattern} {before : Option Char} {text : List Char} {r s : Read}

theorem text_append_rest (hr : r ∈ a.reads isWord before text) : r.text ++ r.rest = text := by
  induction a generalizing before text r with
  | empty =>
    rw [List.mem_singleton.mp hr]
    rfl
  | one p =>
    cases text with
    | nil => exact absurd hr List.not_mem_nil
    | cons c rest =>
      rw [reads] at hr
      split_ifs at hr
      · rw [List.mem_singleton.mp hr]
        rfl
      · exact absurd hr List.not_mem_nil
  | run p least => exact text_append_rest_of_mem_runs r (List.mem_of_mem_filter hr)
  | boundary =>
    rw [reads] at hr
    split_ifs at hr
    · rw [List.mem_singleton.mp hr]
      rfl
    · exact absurd hr List.not_mem_nil
  | seq a b iha ihb =>
    obtain ⟨first, hfirst, second, hsecond, rfl⟩ := mem_reads_seq.mp hr
    rw [List.append_assoc, ihb hsecond, iha hfirst]
  | either a b iha ihb =>
    rcases mem_reads_either.mp hr with hr | hr
    · exact iha hr
    · exact ihb hr
  | group a iha =>
    obtain ⟨read, hread, rfl⟩ := mem_reads_group.mp hr
    have htext := iha hread
    exact htext

theorem first_seq : (seq a b).first isWord before text
    = (a.reads isWord before text).findSome? fun r =>
      (b.first isWord (lastOr before r.text) r.rest).map r.append := by
  rw [first, reads, List.head?_flatMap]
  simp only [List.head?_map]
  rfl

theorem map_append_empty (text : List Char) (o : Option Read) :
    o.map (Read.append ⟨[], [], text⟩) = o := by
  cases o <;> rfl

theorem key_append (h : r.groups = []) : (r.append s).key = s.key := by
  rw [Read.key, Read.append, h, List.nil_append]
  rfl

theorem map_key_append (h : r.groups = []) (o : Option Read) :
    (o.map r.append).map Read.key = o.map Read.key := by
  rw [Option.map_map]
  exact Option.map_congr fun _ _ => key_append h

theorem first_seq_of_some (ha : a.first isWord before text = some r)
    (hb : b.first isWord (lastOr before r.text) r.rest = some s) :
    (seq a b).first isWord before text = some (r.append s) := by
  obtain ⟨more, hreads⟩ := List.head?_eq_some_iff.mp ha
  rw [first_seq, hreads, List.findSome?_cons, hb]
  rfl

theorem first_seq_one {p : Char → Bool} (c : Char) (rest : List Char) :
    (seq (one p) b).first isWord before (c :: rest)
      = if p c then (b.first isWord (some c) rest).map (Read.append ⟨[c], [], rest⟩) else none := by
  rw [first_seq, reads]
  split_ifs
  · exact List.findSome?_singleton
  · rfl

theorem first_seq_one_nil {p : Char → Bool} :
    (seq (one p) b).first isWord before [] = none := first_seq

theorem first_seq_boundary : (seq boundary b).first isWord before text
    = if before.any isWord != text.head?.any isWord then b.first isWord before text else none := by
  rw [first_seq, reads]
  split_ifs
  · rw [List.findSome?_singleton, map_append_empty]
    rfl
  · rfl

theorem first_run {p : Char → Bool} : (run p 0).first isWord before text
    = some ⟨text.takeWhile p, [], text.dropWhile p⟩ := by
  obtain ⟨more, hruns, -⟩ := runs_eq p text
  rw [first, reads, hruns]
  rfl

theorem first_group : (group a).first isWord before text
    = (a.first isWord before text).map fun r => ⟨r.text, r.text :: r.groups, r.rest⟩ := by
  rw [first, reads, List.head?_map]
  rfl

/-- The pattern does not read a text that begins with a character of the
class. -/
def Refuses (isWord : Char → Bool) (p : Char → Bool) (a : Pattern) : Prop :=
  ∀ before c rest, p c = true → a.first isWord before (c :: rest) = none

theorem reads_eq_nil (h : a.first isWord before text = none) : a.reads isWord before text = [] :=
  List.head?_eq_none_iff.mp h

theorem refuses_one {p q : Char → Bool} (hq : ∀ c, p c = true → q c = false) :
    (one q).Refuses isWord p := by
  intro before c rest hc
  rw [first, reads, if_neg (by rw [hq c hc]; exact Bool.false_ne_true)]
  rfl

theorem Refuses.seq {p : Char → Bool} (ha : a.Refuses isWord p) (b : Pattern) :
    (a.seq b).Refuses isWord p := by
  intro before c rest hc
  rw [first_seq, reads_eq_nil (ha before c rest hc)]
  rfl

/-- A word begins with its first letter, in either case. -/
theorem refuses_word {p : Char → Bool} {c : Char} (text : List Char)
    (hp : ∀ d, p d = true → (fold d == fold c) = false) : (word (c :: text)).Refuses isWord p :=
  (refuses_one hp).seq (word text)

theorem Refuses.boundary {p : Char → Bool} (hb : b.Refuses isWord p) :
    (Pattern.boundary.seq b).Refuses isWord p := by
  intro before c rest hc
  rw [first_seq_boundary, hb before c rest hc, ite_self]

theorem Refuses.either {p : Char → Bool} (ha : a.Refuses isWord p) (hb : b.Refuses isWord p) :
    (a.either b).Refuses isWord p := by
  intro before c rest hc
  rw [first, reads, reads_eq_nil (ha before c rest hc), reads_eq_nil (hb before c rest hc)]
  rfl

theorem first_seq_run {p : Char → Bool} (hb : b.Refuses isWord p) :
    (seq (run p 0) b).first isWord before text
      = (b.first isWord (lastOr before (text.takeWhile p)) (text.dropWhile p)).map
        (Read.append ⟨text.takeWhile p, [], text.dropWhile p⟩) := by
  obtain ⟨more, hruns, hmore⟩ := runs_eq p text
  have hnone : more.findSome? (fun r =>
      (b.first isWord (lastOr before r.text) r.rest).map r.append) = none := by
    rw [List.findSome?_eq_none_iff]
    intro r hr
    obtain ⟨c, rest, hrest, hc⟩ := hmore r hr
    rw [hrest, hb _ c rest hc]
    rfl
  rw [first_seq, reads, List.filter_eq_self.mpr fun _ _ => decide_eq_true (Nat.zero_le _), hruns,
    List.findSome?_cons, hnone]
  dsimp only
  cases b.first isWord (lastOr before (text.takeWhile p)) (text.dropWhile p) <;> rfl

theorem first_seq_maybe {p : Char → Bool} (hb : b.Refuses isWord p) (c : Char) (rest : List Char) :
    (seq (maybe (one p)) b).first isWord before (c :: rest)
      = if p c then (b.first isWord (some c) rest).map (Read.append ⟨[c], [], rest⟩)
        else b.first isWord before (c :: rest) := by
  have hempty : (reads isWord empty before (c :: rest)).findSome? (fun r =>
      (b.first isWord (lastOr before r.text) r.rest).map r.append)
      = b.first isWord before (c :: rest) := by
    rw [reads, List.findSome?_singleton, map_append_empty]
    rfl
  rw [first_seq, maybe, reads, List.findSome?_append, hempty, reads]
  split_ifs with hc
  · rw [List.findSome?_singleton, hb before c rest hc, Option.or_none]
    rfl
  · rfl

theorem first_seq_maybe_nil {p : Char → Bool} :
    (seq (maybe (one p)) b).first isWord before [] = b.first isWord before [] := by
  rw [first_seq, maybe, reads, reads, reads, List.nil_append, List.findSome?_singleton,
    map_append_empty]
  rfl

theorem first_maybe {p : Char → Bool} (c : Char) (rest : List Char) :
    (maybe (one p)).first isWord before (c :: rest)
      = if p c then some ⟨[c], [], rest⟩ else some ⟨[], [], c :: rest⟩ := by
  rw [first, maybe, reads, reads, reads]
  split_ifs <;> rfl

theorem reads_word (w : List Char) :
    (word w).reads isWord before text = (stripFolded w text).toList := by
  induction w generalizing before text with
  | nil => rfl
  | cons c w ih =>
    have hall : word (c :: w) = seq (one fun d => fold d == fold c) (word w) := rfl
    cases text with
    | nil => rfl
    | cons d text =>
      rw [hall, reads, reads, stripFolded]
      split_ifs
      · rw [List.flatMap_singleton, ih]
        cases hw : stripFolded w text with
        | none => rfl
        | some r => simp [(stripFolded_eq_some.mp hw).2.1]
      · rfl

theorem reads_oneOf (words : List String) : (oneOf words).reads isWord before text
    = words.filterMap fun w => stripFolded w.toList text := by
  induction words with
  | nil => cases text <;> rfl
  | cons w words ih =>
    have hword : (oneOf [w]).reads isWord before text = (stripFolded w.toList text).toList :=
      reads_word w.toList
    cases words with
    | nil =>
      rw [hword]
      cases hw : stripFolded w.toList text <;> simp [hw]
    | cons w' words =>
      have heither : oneOf (w :: w' :: words) = either (oneOf [w]) (oneOf (w' :: words)) := rfl
      rw [heither, reads, hword, ih]
      generalize w' :: words = rest
      rw [List.filterMap_cons]
      cases stripFolded w.toList text <;> rfl

/-- One of the names, and what follows it. -/
theorem first_seq_oneOf (words : List String) :
    (seq (group (oneOf words)) b).first isWord before text
      = words.findSome? fun w => (stripFolded w.toList text).bind fun r =>
        (b.first isWord (lastOr before r.text) r.rest).map
          (Read.append ⟨r.text, [r.text], r.rest⟩) := by
  rw [first_seq, reads, reads_oneOf, List.findSome?_map]
  induction words with
  | nil => rfl
  | cons w words ih =>
    rw [List.findSome?_cons, ← ih, List.filterMap_cons]
    cases hw : stripFolded w.toList text with
    | none => rfl
    | some r =>
      dsimp only
      rw [List.findSome?_cons, Function.comp_apply, (stripFolded_eq_some.mp hw).2.1]
      rfl

end First

/-! ## What is never read -/

/-- No way of the pattern reads the character. -/
def Avoids (q : Char) : Pattern → Prop
  | empty => True
  | one p => p q = false
  | run p _ => p q = false
  | boundary => True
  | seq a b => a.Avoids q ∧ b.Avoids q
  | either a b => a.Avoids q ∧ b.Avoids q
  | group a => a.Avoids q

/-- Every way of the pattern reads a character at least. -/
def Eats : Pattern → Prop
  | empty => False
  | one _ => True
  | run _ least => 0 < least
  | boundary => False
  | seq a b => a.Eats ∨ b.Eats
  | either a b => a.Eats ∧ b.Eats
  | group a => a.Eats

section Avoids

variable {isWord : Char → Bool} {a b : Pattern} {before : Option Char} {text : List Char} {r : Read}
  {q : Char}

theorem avoids_word {w : List Char} (h : (w.all fun c => fold q != fold c) = true) :
    (word w).Avoids q := by
  induction w with
  | nil => trivial
  | cons c w ih =>
    rw [List.all_cons, Bool.and_eq_true] at h
    refine ⟨?_, ih h.2⟩
    simpa [Avoids] using h.1

theorem avoids_oneOf {words : List String}
    (h : (words.all fun w => w.toList.all fun c => fold q != fold c) = true) :
    (oneOf words).Avoids q := by
  induction words with
  | nil => exact rfl
  | cons w words ih =>
    rw [List.all_cons, Bool.and_eq_true] at h
    cases words with
    | nil => exact avoids_word h.1
    | cons w' words => exact ⟨avoids_word h.1, ih h.2⟩

theorem text_ne_nil (ha : a.Eats) (hr : r ∈ a.reads isWord before text) : r.text ≠ [] := by
  induction a generalizing before text r with
  | empty => exact ha.elim
  | one p =>
    cases text with
    | nil => exact absurd hr List.not_mem_nil
    | cons c rest =>
      rw [reads] at hr
      split_ifs at hr
      · rw [List.mem_singleton.mp hr]
        exact List.cons_ne_nil _ _
      · exact absurd hr List.not_mem_nil
  | run p least =>
    have hlen := of_decide_eq_true (List.mem_filter.mp hr).2
    exact List.ne_nil_of_length_pos (Nat.lt_of_lt_of_le ha hlen)
  | boundary => exact ha.elim
  | seq a b iha ihb =>
    obtain ⟨first, hfirst, second, hsecond, rfl⟩ := mem_reads_seq.mp hr
    rcases ha with ha | hb
    · exact List.append_ne_nil_of_left_ne_nil (iha ha hfirst) _
    · exact List.append_ne_nil_of_right_ne_nil _ (ihb hb hsecond)
  | either a b iha ihb =>
    rcases mem_reads_either.mp hr with hr | hr
    · exact iha ha.1 hr
    · exact ihb ha.2 hr
  | group a iha =>
    obtain ⟨read, hread, rfl⟩ := mem_reads_group.mp hr
    have hmine := iha ha hread
    exact hmine

theorem notMem_text (ha : a.Avoids q) (hr : r ∈ a.reads isWord before text) : q ∉ r.text := by
  induction a generalizing before text r with
  | empty =>
    rw [List.mem_singleton.mp hr]
    exact List.not_mem_nil
  | one p =>
    cases text with
    | nil => exact absurd hr List.not_mem_nil
    | cons c rest =>
      rw [reads] at hr
      split_ifs at hr with hc
      · rw [List.mem_singleton.mp hr, List.mem_singleton]
        rintro rfl
        rw [ha] at hc
        cases hc
      · exact absurd hr List.not_mem_nil
  | run p least =>
    intro hq
    have hp := (mem_runs.mp (List.mem_of_mem_filter hr)).1 q hq
    rw [ha] at hp
    cases hp
  | boundary =>
    rw [reads] at hr
    split_ifs at hr
    · rw [List.mem_singleton.mp hr]
      exact List.not_mem_nil
    · exact absurd hr List.not_mem_nil
  | seq a b iha ihb =>
    obtain ⟨first, hfirst, second, hsecond, rfl⟩ := mem_reads_seq.mp hr
    rw [List.mem_append, not_or]
    exact ⟨iha ha.1 hfirst, ihb ha.2 hsecond⟩
  | either a b iha ihb =>
    rcases mem_reads_either.mp hr with hr | hr
    · exact iha ha.1 hr
    · exact ihb ha.2 hr
  | group a iha =>
    obtain ⟨read, hread, rfl⟩ := mem_reads_group.mp hr
    have hmine := iha ha hread
    exact hmine

/-- What is read lies before the character. -/
theorem exists_rest (ha : a.Avoids q) {more : List Char}
    (hr : r ∈ a.reads isWord before (text ++ q :: more)) :
    ∃ rest, text = r.text ++ rest ∧ r.rest = rest ++ q :: more := by
  have hnot := notMem_text ha hr
  rcases List.append_eq_append_iff.mp (text_append_rest hr) with
    ⟨rest, htext, hrest⟩ | ⟨extra, hextra, hmore⟩
  · exact ⟨rest, htext, hrest⟩
  · cases extra with
    | nil => exact ⟨[], by rw [hextra, List.append_nil, List.append_nil], hmore.symm⟩
    | cons c extra =>
      rw [hextra, (List.cons.inj hmore).1] at hnot
      exact absurd (List.mem_append_right _ List.mem_cons_self) hnot

theorem runs_append {p : Char → Bool} (hq : p q = false) (text more : List Char) :
    runs p (text ++ q :: more) = (runs p (text ++ [q])).map (Read.extend more) := by
  induction text with
  | nil =>
    rw [List.nil_append, List.nil_append, runs, runs, if_neg (by simp [hq]), if_neg (by simp [hq])]
    rfl
  | cons c text ih =>
    rw [List.cons_append, List.cons_append, runs, runs, ih]
    split_ifs
    · rw [List.map_append, List.map_map, List.map_map]
      refine congrArg₂ _ rfl ?_
      simp [Read.extend]
    · simp [Read.extend]

/-- What follows the character does not matter. -/
theorem reads_append (ha : a.Avoids q) (more : List Char) :
    a.reads isWord before (text ++ q :: more)
      = (a.reads isWord before (text ++ [q])).map (Read.extend more) := by
  induction a generalizing before text with
  | empty => simp [reads, Read.extend]
  | one p =>
    cases text with
    | nil =>
      have hq : p q = false := ha
      simp [reads, hq]
    | cons c text =>
      rw [List.cons_append, List.cons_append, reads, reads]
      split_ifs
      · simp [Read.extend]
      · rfl
  | run p least =>
    rw [reads, reads, runs_append ha, List.filter_map]
    rfl
  | boundary =>
    have hhead : (text ++ q :: more).head? = (text ++ [q]).head? := by
      cases text <;> rfl
    rw [reads, reads, hhead]
    split_ifs
    · simp [Read.extend]
    · rfl
  | seq a b iha ihb =>
    rw [reads, reads, iha ha.1, List.flatMap_map, List.map_flatMap]
    refine List.flatMap_congr fun r hr => ?_
    obtain ⟨rest, -, hrest⟩ := exists_rest ha.1 hr
    have hextend : (r.extend more).rest = rest ++ q :: more := by
      rw [Read.extend, hrest, List.append_assoc]
      rfl
    rw [hextend, hrest, ihb ha.2, List.map_map, List.map_map]
    rfl
  | either a b iha ihb => rw [reads, reads, iha ha.1, ihb ha.2, List.map_append]
  | group a iha =>
    rw [reads, reads, iha ha, List.map_map, List.map_map]
    rfl

theorem first_append (ha : a.Avoids q) (more : List Char) :
    a.first isWord before (text ++ q :: more)
      = (a.first isWord before (text ++ [q])).map (Read.extend more) := by
  rw [first, reads_append ha, List.head?_map]
  rfl

end Avoids

/-! ## Scanning on -/

section Scan

variable {isWord : Char → Bool} {a : Pattern} {before : Option Char} {text : List Char} {r : Read}

theorem scan_cons (c : Char) (hnone : a.first isWord before (c :: text) = none) :
    a.scan isWord 0 before (c :: text) = a.scan isWord 0 (some c) text := by
  rw [scan, hnone]

theorem scan_skip (x : List Char) :
    a.scan isWord x.length before (x ++ text) = a.scan isWord 0 (lastOr before x) text := by
  induction x generalizing before with
  | nil => rfl
  | cons c x ih =>
    rw [List.length_cons, List.cons_append, scan, ih, lastOr_cons]

/-- After a match the text is scanned from its end on. -/
theorem scan_of_first (hfirst : a.first isWord before text = some r) (hne : r.text ≠ []) :
    a.scan isWord 0 before text = r :: a.scan isWord 0 (lastOr before r.text) r.rest := by
  have htext := text_append_rest (List.mem_of_mem_head? hfirst)
  obtain ⟨c, x, hx⟩ := List.exists_cons_of_ne_nil hne
  rw [hx, List.cons_append] at htext
  subst htext
  rw [scan, hfirst]
  dsimp only
  rw [hx, List.length_cons, Nat.add_sub_cancel, scan_skip, lastOr_cons]

end Scan

end Pattern

end Regex
