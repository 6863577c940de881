import TiktokSigner.Android.EmojiSweep

/-!
# Emoji removal

No emoji base is left, and nothing else is lost. A keycap sequence is left
exactly where one is stranded: a keycap base, then nothing but emoji of which
the last is a keycap sequence, and then one more enclosing keycap. The emoji go,
the keycap stays, and with the base before it makes a new sequence, which a
second pass removes.
-/

namespace TiktokSigner.Android.SpeechSanitizer

open Parity (utf16Char)

/-! ## What the text is to keep -/

/-- What is neither an emoji base, an enclosing keycap, a joiner between emoji
nor the base of a keycap sequence; variation selectors are emoji bases. The flag
says that an emoji base stands before, enclosing keycaps aside. -/
def spared (afterEmoji : Bool) : List Char → List Char
  | [] => []
  | c :: rest =>
      if isEmojiBase c.toNat then spared true rest
      else if c = keycap then spared afterEmoji rest
      else if (afterEmoji && (afterJoiner (c :: rest)).isSome) || (afterKeycap (c :: rest)).isSome then
        spared false rest
      else c :: spared false rest

/-- A keycap sequence stands somewhere in the text. -/
def HasKeycap (text : List Char) : Prop :=
  ∃ front rest, text = front ++ rest ∧ (afterKeycap rest).isSome = true

/-! ## Runs of emoji -/

/-- A text of which nothing is left, from a mode to a mode. -/
inductive Swept : Mode → List Char → Mode → Prop
  | nil (m : Mode) : Swept m [] m
  | base {m m' : Mode} {c : Char} {rest : List Char} :
      isEmojiBase c.toNat = true → Swept .cluster rest m' → Swept m (c :: rest) m'
  | keycap {m m' : Mode} {b : Char} {rest : List Char} :
      isKeycapBase b.toNat = true → Swept .plain rest m' → Swept m (b :: keycap :: rest) m'
  | keycapSelector {m m' : Mode} {b : Char} {rest : List Char} :
      isKeycapBase b.toNat = true → Swept .plain rest m' →
        Swept m (b :: selector :: SpeechSanitizer.keycap :: rest) m'
  | enclosing {m' : Mode} {rest : List Char} :
      Swept .cluster rest m' → Swept .cluster (SpeechSanitizer.keycap :: rest) m'
  | joiner {m' : Mode} {c : Char} {rest : List Char} :
      isEmojiBase c.toNat = true → Swept .cluster rest m' →
        Swept .cluster (joiner :: c :: rest) m'

/-- A keycap base that begins no keycap sequence, a run of emoji, the last of
them a keycap sequence, and an enclosing keycap. -/
def Stranded (text : List Char) : Prop :=
  ∃ front b mid back, text = front ++ b :: (mid ++ keycap :: back) ∧
    isKeycapBase b.toNat = true ∧ afterKeycap (b :: (mid ++ keycap :: back)) = none ∧
    Swept .plain mid .plain

theorem afterKeycap_keycap {b : Char} (hb : isKeycapBase b.toNat = true) (rest : List Char) :
    afterKeycap (b :: keycap :: rest) = some rest := by
  have hne : ¬(keycap :: rest).head? = some selector := by
    rw [List.head?_cons, Option.some.injEq]
    decide
  rw [afterKeycap, if_pos hb, if_neg hne]
  exact if_pos rfl

theorem afterKeycap_selector {b : Char} (hb : isKeycapBase b.toNat = true) (rest : List Char) :
    afterKeycap (b :: selector :: keycap :: rest) = some rest := by
  rw [afterKeycap, if_pos hb, if_pos List.head?_cons]
  exact if_pos rfl

theorem sweep_append {m m' : Mode} {mid : List Char} (h : Swept m mid m') (tail : List Char) :
    sweep m (mid ++ tail) = sweep m' tail := by
  induction h with
  | nil => rfl
  | base hc _ ih => rw [List.cons_append, sweep_base hc, ih]
  | keycap hb _ ih =>
    rw [List.cons_append, List.cons_append, sweep_keycap (afterKeycap_keycap hb _), ih]
  | keycapSelector hb _ ih =>
    rw [List.cons_append, List.cons_append, List.cons_append,
      sweep_keycap (afterKeycap_selector hb _), ih]
  | enclosing _ ih => rw [List.cons_append, sweep_enclosing, ih]
  | joiner hc _ ih => rw [List.cons_append, List.cons_append, sweep_joiner hc, ih]

theorem Swept.append {m m' m'' : Mode} {mid more : List Char} (h : Swept m mid m')
    (hmore : Swept m' more m'') : Swept m (mid ++ more) m'' := by
  induction h with
  | nil => exact hmore
  | base hc _ ih => exact .base hc (ih hmore)
  | keycap hb _ ih => exact .keycap hb (ih hmore)
  | keycapSelector hb _ ih => exact .keycapSelector hb (ih hmore)
  | enclosing _ ih => exact .enclosing (ih hmore)
  | joiner hc _ ih => exact .joiner hc (ih hmore)

theorem swept_keycap {text behind : List Char} (h : afterKeycap text = some behind) (m : Mode) :
    ∃ mid, text = mid ++ behind ∧ mid ≠ [] ∧ Swept m mid .plain := by
  rcases afterKeycap_cases h with ⟨b, hb, rfl | rfl⟩
  · exact ⟨[b, keycap], rfl, List.cons_ne_nil _ _, .keycap hb (.nil _)⟩
  · exact ⟨[b, selector, keycap], rfl, List.cons_ne_nil _ _, .keycapSelector hb (.nil _)⟩

/-- The kept character of a step. -/
structure KeptAt (m : Mode) (c : Char) (rest : List Char) : Prop extends Kept c rest where
  plain : c = SpeechSanitizer.keycap → m = .plain
  sweep : sweep m (c :: rest) = c :: sweep .plain rest

/-- What a step of the sweep can do: take away a part, or keep a character. -/
theorem sweep_cases (m : Mode) (c : Char) (rest : List Char) :
    (∃ mid m' behind, c :: rest = mid ++ behind ∧ mid ≠ [] ∧ Swept m mid m') ∨
      KeptAt m c rest := by
  rcases front_cases c rest with ⟨behind, h⟩ | h | h
  · obtain ⟨mid, htext, hne, hmid⟩ := swept_keycap h m
    exact Or.inl ⟨mid, .plain, behind, htext, hne, hmid⟩
  · exact Or.inl ⟨[c], .cluster, rest, rfl, List.cons_ne_nil _ _, .base h (.nil _)⟩
  · cases m with
    | plain => exact Or.inr ⟨h, fun _ => rfl, sweep_plain h⟩
    | cluster =>
      by_cases hkeycap : c = keycap
      · subst hkeycap
        exact Or.inl ⟨[keycap], .cluster, rest, rfl, List.cons_ne_nil _ _, .enclosing (.nil _)⟩
      · cases hjoiner : afterJoiner (c :: rest) with
        | some behind =>
          obtain ⟨d, hd, htext⟩ := afterJoiner_cases hjoiner
          exact Or.inl ⟨[joiner, d], .cluster, behind, htext, List.cons_ne_nil _ _,
            .joiner hd (.nil _)⟩
        | none =>
          exact Or.inr ⟨h, fun hc => absurd hc hkeycap, sweep_cluster h hkeycap hjoiner⟩

/-- Induction along the sweep. -/
theorem sweep_rec {motive : Mode → List Char → Prop} (nil : ∀ m, motive m [])
    (swept : ∀ m mid m' behind, Swept m mid m' → motive m' behind → motive m (mid ++ behind))
    (kept : ∀ m c rest, KeptAt m c rest → motive .plain rest → motive m (c :: rest)) :
    ∀ m text, motive m text := by
  intro m text
  induction hlength : text.length using Nat.strong_induction_on generalizing m text with
  | _ n ih =>
    cases text with
    | nil => exact nil m
    | cons c rest =>
      rcases sweep_cases m c rest with ⟨mid, m', behind, htext, hne, hmid⟩ | hkept
      · have hlt := congrArg List.length htext
        have hpos := List.length_pos_iff.mpr hne
        rw [List.length_append] at hlt
        rw [htext]
        exact swept m mid m' behind hmid (ih behind.length (by omega) m' behind rfl)
      · rw [List.length_cons] at hlength
        exact kept m c rest hkept (ih rest.length (by omega) .plain rest rfl)

/-! ## What is left -/

theorem base_of_mem_sweep (m : Mode) (text : List Char) :
    ∀ c ∈ sweep m text, isEmojiBase c.toNat = false := by
  induction m, text using sweep_rec with
  | nil m => simp
  | swept m mid m' behind hmid ih =>
    rw [sweep_append hmid]
    exact ih
  | kept m c rest h ih =>
    rw [h.sweep]
    intro d hd
    rcases List.mem_cons.mp hd with rfl | hd
    · exact h.base
    · exact ih d hd

/-- Where an enclosing keycap comes first, a run of emoji stood before it. -/
theorem exists_of_sweep_eq (m : Mode) (text : List Char) :
    ∀ out, sweep m text = keycap :: out →
      ∃ mid back, text = mid ++ keycap :: back ∧ Swept m mid .plain := by
  induction m, text using sweep_rec with
  | nil m =>
    intro out h
    rw [sweep_nil] at h
    cases h
  | swept m mid m' behind hmid ih =>
    intro out h
    rw [sweep_append hmid] at h
    obtain ⟨more, back, rfl, hmore⟩ := ih out h
    exact ⟨mid ++ more, back, (List.append_assoc _ _ _).symm, hmid.append hmore⟩
  | kept m c rest hkept ih =>
    intro out h
    rw [hkept.sweep] at h
    obtain ⟨rfl, -⟩ := List.cons.inj h
    obtain rfl := hkept.plain rfl
    exact ⟨[], rest, rfl, .nil _⟩

theorem Stranded.append_left {text : List Char} (h : Stranded text) (front : List Char) :
    Stranded (front ++ text) := by
  obtain ⟨start, b, mid, back, rfl, hb, hnone, hmid⟩ := h
  exact ⟨front ++ start, b, mid, back, (List.append_assoc _ _ _).symm, hb, hnone, hmid⟩

theorem stranded_of_sweep (m : Mode) (text : List Char) :
    ∀ front b behind, isKeycapBase b.toNat = true →
      sweep m text = front ++ b :: keycap :: behind → Stranded text := by
  induction m, text using sweep_rec with
  | nil m =>
    intro front b behind hb h
    rw [sweep_nil] at h
    simp at h
  | swept m mid m' behind hmid ih =>
    intro front b out hb h
    rw [sweep_append hmid] at h
    exact (ih front b out hb h).append_left mid
  | kept m c rest hkept ih =>
    intro front b out hb h
    rw [hkept.sweep] at h
    cases front with
    | nil =>
      obtain ⟨rfl, hrest⟩ := List.cons.inj h
      obtain ⟨mid, back, rfl, hmid⟩ := exists_of_sweep_eq .plain rest out hrest
      exact ⟨[], c, mid, back, rfl, hb, hkept.keycap, hmid⟩
    | cons d front =>
      exact (ih front b out hb (List.cons.inj h).2).append_left [c]

/-! ## What is spared -/

section Spared

variable {a : Bool} {c : Char} {rest : List Char}

theorem spared_base (h : isEmojiBase c.toNat = true) : spared a (c :: rest) = spared true rest :=
  if_pos h

theorem spared_enclosing : spared a (keycap :: rest) = spared a rest := by
  rw [spared, if_neg (by decide), if_pos rfl]

theorem spared_keycapBase {b : Char} (hb : isKeycapBase b.toNat = true)
    (h : (afterKeycap (b :: rest)).isSome = true) : spared a (b :: rest) = spared false rest := by
  have hbase : isEmojiBase b.toNat = false := by
    rw [Bool.eq_false_iff]
    intro hbase
    rw [not_isKeycapBase hbase] at hb
    cases hb
  have hne : b ≠ keycap := by
    rintro rfl
    exact absurd hb (by decide)
  rw [spared, if_neg (by simp [hbase]), if_neg hne, if_pos (by simp [h])]

theorem spared_joiner {d : Char} (hd : isEmojiBase d.toNat = true) :
    spared true (joiner :: d :: rest) = spared true rest := by
  have hjoins : afterJoiner (joiner :: d :: rest) = some rest := if_pos ⟨rfl, hd⟩
  rw [spared, if_neg (by decide), if_neg (by decide), if_pos (by simp [hjoins]), spared_base hd]

/-- What is spared is not swept: behind a cluster joiners are not spared. -/
theorem spared_swept {m m' : Mode} {mid : List Char} (h : Swept m mid m') (behind : List Char)
    (a : Bool) (ha : m = .cluster → a = true) :
    ∃ a', (m' = .cluster → a' = true) ∧ spared a (mid ++ behind) = spared a' behind := by
  induction h generalizing a with
  | nil => exact ⟨a, ha, rfl⟩
  | base hc _ ih =>
    rw [List.cons_append, spared_base hc]
    exact ih true fun _ => rfl
  | @keycap m m' b rest hb _ ih =>
    have hsome : (afterKeycap (b :: keycap :: (rest ++ behind))).isSome = true := by
      rw [afterKeycap_keycap hb]
      rfl
    rw [List.cons_append, List.cons_append, spared_keycapBase hb hsome, spared_enclosing]
    exact ih false fun hm => by cases hm
  | @keycapSelector m m' b rest hb _ ih =>
    have hsome : (afterKeycap (b :: selector :: keycap :: (rest ++ behind))).isSome = true := by
      rw [afterKeycap_selector hb]
      rfl
    rw [List.cons_append, List.cons_append, List.cons_append, spared_keycapBase hb hsome,
      spared_base (by decide), spared_enclosing]
    exact ih true fun _ => rfl
  | enclosing _ ih =>
    rw [List.cons_append, spared_enclosing]
    exact ih a ha
  | joiner hc _ ih =>
    rw [ha rfl, List.cons_append, List.cons_append, spared_joiner hc]
    exact ih true fun _ => rfl

theorem spared_sublist (m : Mode) (text : List Char) :
    ∀ a, (m = .cluster → a = true) → (spared a text).Sublist (sweep m text) := by
  induction m, text using sweep_rec with
  | nil m => exact fun a _ => List.nil_sublist _
  | swept m mid m' behind hmid ih =>
    intro a ha
    obtain ⟨a', ha', hspared⟩ := spared_swept hmid behind a ha
    rw [sweep_append hmid, hspared]
    exact ih a' ha'
  | kept m c rest hkept ih =>
    intro a _
    rw [hkept.sweep, spared, if_neg (by simp [hkept.base])]
    have hplain : ∀ a, (spared a rest).Sublist (sweep .plain rest) := fun a =>
      ih a fun hm => by cases hm
    split_ifs
    · exact (hplain a).cons c
    · exact (hplain false).cons c
    · exact (hplain false).cons_cons c

end Spared

/-! ## What is stranded -/

/-- A keycap base is no mark of an emoji. -/
theorem keycapBase_ne {b : Char} (hb : isKeycapBase b.toNat = true) :
    isEmojiBase b.toNat = false ∧ b ≠ keycap ∧ b ≠ selector ∧ b ≠ joiner := by
  refine ⟨?_, ?_, ?_, ?_⟩
  · rw [Bool.eq_false_iff]
    intro hbase
    rw [not_isKeycapBase hbase] at hb
    cases hb
  all_goals
    rintro rfl
    exact absurd hb (by decide)

theorem sweep_keycapBase {b : Char} (hb : isKeycapBase b.toNat = true) {tail : List Char}
    (hnone : afterKeycap (b :: tail) = none) (m : Mode) :
    sweep m (b :: tail) = b :: sweep .plain tail := by
  obtain ⟨hbase, hkeycap, -, hjoiner⟩ := keycapBase_ne hb
  cases m with
  | plain => exact sweep_plain ⟨hnone, hbase⟩
  | cluster =>
    refine sweep_cluster ⟨hnone, hbase⟩ hkeycap ?_
    cases tail with
    | nil => rfl
    | cons d tail => exact if_neg fun h => hjoiner h.1

/-- What begins with another character begins before `b`. -/
theorem exists_front {a b : Char} {front tail behind : List Char} (hne : b ≠ a)
    (h : front ++ b :: tail = a :: behind) :
    ∃ front', front = a :: front' ∧ behind = front' ++ b :: tail := by
  rcases List.append_eq_cons_iff.mp h with ⟨-, hback⟩ | hfront
  · exact absurd (List.cons.inj hback).1 hne
  · exact hfront

theorem exists_front_of_afterKeycap {b c : Char} {front tail behind : List Char}
    (hb : isKeycapBase b.toNat = true)
    (h : afterKeycap (c :: (front ++ b :: tail)) = some behind) :
    ∃ front', behind = front' ++ b :: tail ∧ front'.length < front.length := by
  obtain ⟨-, hkeycap, hselector, -⟩ := keycapBase_ne hb
  rcases afterKeycap_cases h with ⟨b', -, htext | htext⟩
  · obtain ⟨-, htext⟩ := List.cons.inj htext
    obtain ⟨front', rfl, rfl⟩ := exists_front hkeycap htext
    exact ⟨front', rfl, Nat.lt_succ_self _⟩
  · obtain ⟨-, htext⟩ := List.cons.inj htext
    obtain ⟨front', rfl, hrest⟩ := exists_front hselector htext
    obtain ⟨front'', rfl, rfl⟩ := exists_front hkeycap hrest.symm
    exact ⟨front'', rfl, Nat.lt_succ_of_lt (Nat.lt_succ_self _)⟩

theorem exists_front_of_afterJoiner {b c : Char} {front tail behind : List Char}
    (hb : isKeycapBase b.toNat = true)
    (h : afterJoiner (c :: (front ++ b :: tail)) = some behind) :
    ∃ front', sweep .cluster (c :: (front ++ b :: tail)) = sweep .cluster (front' ++ b :: tail)
      ∧ front'.length < front.length := by
  obtain ⟨hbase, -, -, -⟩ := keycapBase_ne hb
  obtain ⟨d, hd, htext⟩ := afterJoiner_cases h
  obtain ⟨rfl, htail⟩ := List.cons.inj htext
  have hne : b ≠ d := by
    rintro rfl
    rw [hbase] at hd
    cases hd
  obtain ⟨front', rfl, -⟩ := exists_front hne htail
  exact ⟨front', sweep_joiner hd, Nat.lt_succ_self _⟩

/-- The sweep comes by every keycap base: nothing before it reaches beyond. -/
theorem sweep_sync {b : Char} (hb : isKeycapBase b.toNat = true) (tail front : List Char)
    (m : Mode) :
    ∃ out m', sweep m (front ++ b :: tail) = out ++ sweep m' (b :: tail) := by
  induction hlength : front.length using Nat.strong_induction_on generalizing front m with
  | _ n ih =>
    cases front with
    | nil => exact ⟨[], m, rfl⟩
    | cons c front =>
      rw [List.length_cons] at hlength
      rw [List.cons_append]
      have hkept : sweep m (c :: (front ++ b :: tail)) = c :: sweep .plain (front ++ b :: tail) →
          ∃ out m', sweep m (c :: (front ++ b :: tail)) = out ++ sweep m' (b :: tail) := by
        intro h
        obtain ⟨out, m', hout⟩ := ih front.length (by omega) front .plain rfl
        exact ⟨c :: out, m', by rw [h, hout]; rfl⟩
      rcases front_cases c (front ++ b :: tail) with ⟨behind, h⟩ | h | h
      · rw [sweep_keycap h]
        obtain ⟨front', rfl, hless⟩ := exists_front_of_afterKeycap hb h
        exact ih front'.length (by omega) front' .plain rfl
      · rw [sweep_base h]
        exact ih front.length (by omega) front .cluster rfl
      · cases m with
        | plain => exact hkept (sweep_plain h)
        | cluster =>
          by_cases hc : c = keycap
          · rw [hc, sweep_enclosing]
            exact ih front.length (by omega) front .cluster rfl
          · cases hjoins : afterJoiner (c :: (front ++ b :: tail)) with
            | none => exact hkept (sweep_cluster h hc hjoins)
            | some behind =>
              obtain ⟨front', hsweep, hless⟩ := exists_front_of_afterJoiner hb hjoins
              rw [hsweep]
              exact ih front'.length (by omega) front' .cluster rfl

theorem hasKeycap_of_stranded {text : List Char} (h : Stranded text) :
    HasKeycap (sweep .plain text) := by
  obtain ⟨front, b, mid, back, rfl, hb, hnone, hmid⟩ := h
  obtain ⟨out, m', hout⟩ := sweep_sync hb (mid ++ keycap :: back) front .plain
  have hkept : Kept keycap back := ⟨afterKeycap_eq_none (by decide), by decide⟩
  rw [hout, sweep_keycapBase hb hnone, sweep_append hmid, sweep_plain hkept]
  refine ⟨out, _, rfl, ?_⟩
  rw [afterKeycap_keycap hb]
  rfl

theorem hasKeycap_iff (text : List Char) : HasKeycap (sweep .plain text) ↔ Stranded text := by
  refine ⟨?_, hasKeycap_of_stranded⟩
  rintro ⟨front, rest, hout, hsome⟩
  obtain ⟨behind, hbehind⟩ := Option.isSome_iff_exists.mp hsome
  rcases afterKeycap_cases hbehind with ⟨b, hb, rfl | rfl⟩
  · exact stranded_of_sweep .plain text front b behind hb hout
  · have hselector : selector ∈ sweep .plain text := by
      rw [hout]
      simp
    have hnot := base_of_mem_sweep .plain text selector hselector
    exact absurd hnot (by decide)

/-- A text without emoji is swept as it is. -/
theorem sweep_eq_self {text : List Char} (hbase : ∀ c ∈ text, isEmojiBase c.toNat = false)
    (hkeycap : ¬HasKeycap text) : sweep .plain text = text := by
  induction text with
  | nil => exact sweep_nil
  | cons c rest ih =>
    have hnone : afterKeycap (c :: rest) = none := by
      rw [← Option.not_isSome_iff_eq_none]
      exact fun hsome => hkeycap ⟨[], c :: rest, rfl, hsome⟩
    have hrest : ¬HasKeycap rest := fun ⟨front, back, htext, hsome⟩ =>
      hkeycap ⟨c :: front, back, by rw [htext]; rfl, hsome⟩
    rw [sweep_plain ⟨hnone, hbase c List.mem_cons_self⟩,
      ih (fun d hd => hbase d (List.mem_cons_of_mem _ hd)) hrest]

/-! ## The sanitizer -/

section Sanitizer

variable (lowercase : List UInt16 → List UInt16) (confirmedShortcodes : List (List UInt16))

/-- Only `removeUnicodeEmoji` is enabled. -/
def onlyEmoji : SanitizerSettings := ⟨false, true, false⟩

/-- What a cleaned text has to be. -/
structure Clean (text out : List Char) : Prop where
  base : ∀ c ∈ out, isEmojiBase c.toNat = false
  keycap : ¬HasKeycap out
  spared : (spared false text).Sublist out
  stable : sanitize lowercase (units out) onlyEmoji confirmedShortcodes = units out

/-- The text is clean exactly where no keycap is stranded. -/
theorem sanitize_iff (text : List Char) :
    ∃ out, sanitize lowercase (units text) onlyEmoji confirmedShortcodes = units out ∧
      (Clean lowercase confirmedShortcodes text out ↔ ¬Stranded text) := by
  refine ⟨sweep .plain text, removeEmoji_units text, ?_⟩
  constructor
  · exact fun h hstranded => h.keycap ((hasKeycap_iff text).mpr hstranded)
  · intro h
    have hbase := base_of_mem_sweep .plain text
    have hkeycap : ¬HasKeycap (sweep .plain text) := fun hhas => h ((hasKeycap_iff text).mp hhas)
    refine ⟨hbase, hkeycap, spared_sublist .plain text false (fun hm => by cases hm), ?_⟩
    exact (removeEmoji_units _).trans (congrArg units (sweep_eq_self hbase hkeycap))

/-- Of `1`, a keycap sequence and an enclosing keycap, a keycap sequence is left. -/
theorem sanitize_stranded :
    sanitize id (units ['1', '1', keycap, keycap]) onlyEmoji [] = units ['1', keycap] ∧
      HasKeycap ['1', keycap] ∧
      sanitize id (units ['1', keycap]) onlyEmoji [] = [] ∧
      ¬Clean id [] ['1', '1', keycap, keycap] ['1', keycap] :=
  have hkeycap : HasKeycap ['1', keycap] := ⟨[], _, rfl, by decide⟩
  ⟨by decide +kernel, hkeycap, by decide +kernel, fun h => h.keycap hkeycap⟩

end Sanitizer

end TiktokSigner.Android.SpeechSanitizer
