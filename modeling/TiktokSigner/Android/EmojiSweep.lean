import TiktokSigner.Android.SpeechSanitizer

/-!
# What is swept out of a text

Emoji removal over characters: a sweep that knows whether it stands behind an
emoji cluster. `removeEmoji_units` is the simulation: on well formed text the
cursor of the source stands between characters all the time, and where a
cluster ends the sweep goes on as it does from a plain place.
-/

namespace TiktokSigner.Android.SpeechSanitizer

open Parity (utf16Char)

def selector : Char := Char.ofNat 0xfe0f

def keycap : Char := Char.ofNat 0x20e3

def joiner : Char := Char.ofNat 0x200d

/-- Well formed text in UTF-16. -/
def units (text : List Char) : List UInt16 := text.flatMap utf16Char

/-! ## The sweep -/

inductive Mode where
  | plain
  | cluster
deriving DecidableEq

/-- What stands behind a keycap sequence. -/
def afterKeycap : List Char → Option (List Char)
  | [] => none
  | b :: rest =>
      if isKeycapBase b.toNat then
        match if rest.head? = some selector then rest.tail else rest with
        | [] => none
        | mark :: behind => if mark = keycap then some behind else none
      else none

/-- What stands behind a joiner and the emoji that it joins. -/
def afterJoiner : List Char → Option (List Char)
  | c :: d :: rest => if c = joiner ∧ isEmojiBase d.toNat then some rest else none
  | _ => none

/-- The two forms of a keycap sequence. -/
theorem afterKeycap_cases {text behind : List Char} (h : afterKeycap text = some behind) :
    ∃ b, isKeycapBase b.toNat = true ∧
      (text = b :: keycap :: behind ∨ text = b :: selector :: keycap :: behind) := by
  cases text with
  | nil => cases h
  | cons b rest =>
    rw [afterKeycap] at h
    split_ifs at h with hbase hselector
    · obtain ⟨v, rest, rfl⟩ : ∃ v tail, rest = v :: tail := by
        cases rest with
        | nil => cases hselector
        | cons v tail => exact ⟨v, tail, rfl⟩
      obtain rfl := Option.some.inj hselector
      cases rest with
      | nil => cases h
      | cons mark rest =>
        simp only [List.tail_cons, Option.ite_none_right_eq_some, Option.some.injEq] at h
        obtain ⟨rfl, rfl⟩ := h
        exact ⟨b, hbase, Or.inr rfl⟩
    · cases rest with
      | nil => cases h
      | cons mark rest =>
        simp only [Option.ite_none_right_eq_some, Option.some.injEq] at h
        obtain ⟨rfl, rfl⟩ := h
        exact ⟨b, hbase, Or.inl rfl⟩

theorem afterJoiner_cases {text behind : List Char} (h : afterJoiner text = some behind) :
    ∃ d, isEmojiBase d.toNat = true ∧ text = joiner :: d :: behind := by
  match text, h with
  | c :: d :: rest, h =>
    simp only [afterJoiner, Option.ite_none_right_eq_some, Option.some.injEq] at h
    obtain ⟨⟨rfl, hd⟩, rfl⟩ := h
    exact ⟨d, hd, rfl⟩

theorem length_afterKeycap_lt {text behind : List Char} (h : afterKeycap text = some behind) :
    behind.length < text.length := by
  rcases afterKeycap_cases h with ⟨b, -, rfl | rfl⟩
  · simp only [List.length_cons]
    omega
  · simp only [List.length_cons]
    omega

theorem length_afterJoiner_lt {text behind : List Char} (h : afterJoiner text = some behind) :
    behind.length < text.length := by
  obtain ⟨d, -, rfl⟩ := afterJoiner_cases h
  simp only [List.length_cons]
  omega

/-- What is left of a text. -/
def sweep (m : Mode) : List Char → List Char
  | [] => []
  | c :: rest =>
      match _ : afterKeycap (c :: rest) with
      | some behind => sweep .plain behind
      | none =>
          if isEmojiBase c.toNat then sweep .cluster rest
          else if m = .cluster ∧ c = keycap then sweep .cluster rest
          else
            match _ : if m = .cluster then afterJoiner (c :: rest) else none with
            | some behind => sweep .cluster behind
            | none => c :: sweep .plain rest
termination_by text => text.length
decreasing_by
  · exact length_afterKeycap_lt ‹_›
  · exact Nat.lt_succ_self _
  · exact Nat.lt_succ_self _
  · rename_i hjoiner
    split_ifs at hjoiner
    exact length_afterJoiner_lt hjoiner
  · exact Nat.lt_succ_self _

/-! ## One step of the sweep -/

section Steps

variable {m : Mode} {c : Char} {rest behind : List Char}

theorem not_isKeycapBase (h : isEmojiBase c.toNat = true) : isKeycapBase c.toNat = false := by
  simp only [isEmojiBase, isKeycapBase, Bool.or_eq_true, Bool.and_eq_true, decide_eq_true_eq,
    Bool.or_eq_false_iff, Bool.and_eq_false_iff, decide_eq_false_iff_not, beq_eq_false_iff_ne] at *
  omega

theorem afterKeycap_eq_none (h : isKeycapBase c.toNat = false) :
    afterKeycap (c :: rest) = none := by
  rw [afterKeycap, if_neg (by simp [h])]

@[simp] theorem sweep_nil : sweep m [] = [] := by rw [sweep]

theorem sweep_keycap (h : afterKeycap (c :: rest) = some behind) :
    sweep m (c :: rest) = sweep .plain behind := by
  rw [sweep]
  split
  · simp_all
  · simp_all

theorem sweep_base (h : isEmojiBase c.toNat = true) :
    sweep m (c :: rest) = sweep .cluster rest := by
  have hnone : afterKeycap (c :: rest) = none := afterKeycap_eq_none (not_isKeycapBase h)
  rw [sweep]
  split
  · simp_all
  · rw [if_pos h]

theorem sweep_enclosing : sweep .cluster (keycap :: rest) = sweep .cluster rest := by
  have hnone : afterKeycap (keycap :: rest) = none := afterKeycap_eq_none (by decide)
  have hbase : isEmojiBase keycap.toNat = false := by decide
  rw [sweep]
  split
  · simp_all
  · rw [if_neg (by simp [hbase]), if_pos ⟨rfl, rfl⟩]

theorem sweep_joiner (h : isEmojiBase c.toNat = true) :
    sweep .cluster (joiner :: c :: rest) = sweep .cluster rest := by
  have hnone : afterKeycap (joiner :: c :: rest) = none := afterKeycap_eq_none (by decide)
  have hbase : isEmojiBase joiner.toNat = false := by decide
  have hne : joiner ≠ keycap := by decide
  have hjoins : afterJoiner (joiner :: c :: rest) = some rest := if_pos ⟨rfl, h⟩
  rw [sweep]
  split
  · simp_all
  · rw [if_neg (by simp [hbase]), if_neg (fun hc => hne hc.2)]
    split
    · simp_all
    · simp_all

/-- What is kept at a plain place. -/
structure Kept (c : Char) (rest : List Char) : Prop where
  keycap : afterKeycap (c :: rest) = none
  base : isEmojiBase c.toNat = false

theorem sweep_plain (h : Kept c rest) : sweep .plain (c :: rest) = c :: sweep .plain rest := by
  rw [sweep]
  split
  · simp_all [h.keycap]
  · rw [if_neg (by simp [h.base]), if_neg (by simp)]
    split
    · simp_all
    · rfl

theorem sweep_cluster (h : Kept c rest) (hkeycap : c ≠ SpeechSanitizer.keycap)
    (hjoiner : afterJoiner (c :: rest) = none) :
    sweep .cluster (c :: rest) = c :: sweep .plain rest := by
  rw [sweep]
  split
  · simp_all [h.keycap]
  · rw [if_neg (by simp [h.base]), if_neg (fun hc => hkeycap hc.2)]
    split
    · simp_all
    · rfl

/-- Either something is swept, or the character is kept. -/
theorem front_cases (c : Char) (rest : List Char) :
    (∃ behind, afterKeycap (c :: rest) = some behind) ∨ isEmojiBase c.toNat = true ∨
      Kept c rest := by
  cases hkeycap : afterKeycap (c :: rest) with
  | some behind => exact Or.inl ⟨behind, rfl⟩
  | none =>
    cases hbase : isEmojiBase c.toNat with
    | true => exact Or.inr (Or.inl rfl)
    | false => exact Or.inr (Or.inr ⟨hkeycap, hbase⟩)

end Steps

/-! ## The cursor on well formed text -/

section Cursor

variable (c : Char) (text : List UInt16)

theorem toNat_valid : c.toNat < 0xd800 ∨ 0xdfff < c.toNat ∧ c.toNat < 0x110000 := c.valid

theorem codePointAt_utf16Char : codePointAt (utf16Char c ++ text) = c.toNat := by
  have hvalid := toNat_valid c
  rw [utf16Char]
  split_ifs with hplane
  · have hunit : (UInt16.ofNat c.toNat).toNat = c.toNat := by
      rw [UInt16.toNat_ofNat']
      omega
    have hhigh : isHighSurrogate (UInt16.ofNat c.toNat) = false := by
      simp only [isHighSurrogate, hunit, Bool.and_eq_false_iff, decide_eq_false_iff_not]
      omega
    cases text with
    | nil => exact hunit
    | cons v text => simp [codePointAt, hhigh, hunit]
  · have hhigh : (UInt16.ofNat (0xd800 + (c.toNat - 0x10000) / 0x400)).toNat
        = 0xd800 + (c.toNat - 0x10000) / 0x400 := by
      rw [UInt16.toNat_ofNat']
      omega
    have hlow : (UInt16.ofNat (0xdc00 + (c.toNat - 0x10000) % 0x400)).toNat
        = 0xdc00 + (c.toNat - 0x10000) % 0x400 := by
      rw [UInt16.toNat_ofNat']
      omega
    have hpair : (isHighSurrogate (UInt16.ofNat (0xd800 + (c.toNat - 0x10000) / 0x400)) &&
        isLowSurrogate (UInt16.ofNat (0xdc00 + (c.toNat - 0x10000) % 0x400))) = true := by
      simp only [isHighSurrogate, isLowSurrogate, hhigh, hlow, Bool.and_eq_true, decide_eq_true_eq]
      omega
    rw [List.cons_append, List.cons_append, codePointAt, if_pos hpair, hhigh, hlow]
    omega

theorem length_utf16Char : (utf16Char c).length = charCount c.toNat := by
  rw [utf16Char, charCount]
  split_ifs <;> first | rfl | omega

theorem next_utf16Char : next (utf16Char c ++ text) = text := by
  rw [next, codePointAt_utf16Char, ← length_utf16Char, List.drop_left]

theorem utf16Char_ne_nil : utf16Char c ≠ [] := by
  have hlength := length_utf16Char c
  rw [charCount] at hlength
  intro h
  rw [h, List.length_nil] at hlength
  split_ifs at hlength

end Cursor

section Units

variable {c mark : Char} {rest : List Char}

theorem units_cons : units (c :: rest) = utf16Char c ++ units rest := rfl

theorem exists_units_cons (c : Char) (rest : List Char) :
    ∃ u tail, units (c :: rest) = u :: tail := by
  obtain ⟨u, tail, h⟩ := List.exists_cons_of_ne_nil (utf16Char_ne_nil c)
  exact ⟨u, tail ++ units rest, by rw [units_cons, h]; rfl⟩

theorem codePointAt_units : codePointAt (units (c :: rest)) = c.toNat := codePointAt_utf16Char _ _

theorem next_units : next (units (c :: rest)) = units rest := next_utf16Char _ _

theorem isAt_units (p : ℕ → Bool) (text : List Char) :
    isAt p (units text) = (text.head?.map fun c => p c.toNat).getD false := by
  cases text with
  | nil => rfl
  | cons c rest =>
    obtain ⟨u, tail, h⟩ := exists_units_cons c rest
    rw [isAt, codePointAt_units, h]
    rfl

theorem units_plane (h : c.toNat < 0x10000) : units (c :: rest) = UInt16.ofNat c.toNat :: units rest := by
  rw [units_cons, utf16Char, if_pos h]
  rfl

theorem skipMark_units {n : ℕ} (hn : mark.toNat = n) (h : n < 0x10000) (text : List Char) :
    skipMark n (units text) = units (if text.head? = some mark then text.tail else text) := by
  subst hn
  cases text with
  | nil => rfl
  | cons c rest =>
    rw [skipMark, isAt_units, List.head?_cons]
    by_cases hc : c = mark
    · subst hc
      rw [if_pos rfl, units_plane h]
      simp
    · have hne : c.toNat ≠ mark.toNat := fun heq => hc (Char.toNat_inj.mp heq)
      simp [hne, hc]

theorem skipMark_selector (text : List Char) :
    skipMark 0xfe0f (units text)
      = units (if text.head? = some selector then text.tail else text) :=
  skipMark_units (by decide) (by decide) text

/-- A keycap sequence on units is one on characters, and the same is consumed. -/
theorem isKeycapSequenceAt_units (c : Char) (rest : List Char) :
    isKeycapSequenceAt (units (c :: rest)) = (afterKeycap (c :: rest)).isSome := by
  rw [isKeycapSequenceAt, codePointAt_units, next_units, skipMark_selector, isAt_units, afterKeycap]
  cases hbase : isKeycapBase c.toNat with
  | false => rfl
  | true =>
    rw [if_pos rfl]
    cases if rest.head? = some selector then rest.tail else rest with
    | nil => rfl
    | cons mark behind =>
      by_cases hmark : mark = keycap
      · subst hmark
        simp [keycap]
      · have hne : ¬mark.toNat = 0x20e3 := fun h => hmark (Char.toNat_inj.mp h)
        simp [hmark, hne]

theorem consumeKeycap_units {behind : List Char} (h : afterKeycap (c :: rest) = some behind) :
    consumeKeycap (units (c :: rest)) = units behind := by
  rw [afterKeycap] at h
  by_cases hbase : isKeycapBase c.toNat = true
  · have hplane : c.toNat < 0x10000 := by
      simp only [isKeycapBase, Bool.or_eq_true, Bool.and_eq_true, decide_eq_true_eq,
        beq_iff_eq] at hbase
      omega
    rw [if_pos hbase] at h
    rw [consumeKeycap, units_plane hplane, List.drop_succ_cons, List.drop_zero, skipMark_selector]
    cases hcursor : if rest.head? = some selector then rest.tail else rest with
    | nil =>
      rw [hcursor] at h
      cases h
    | cons mark rest =>
      rw [hcursor] at h
      simp only [Option.ite_none_right_eq_some, Option.some.injEq] at h
      obtain ⟨rfl, rfl⟩ := h
      have hmark : keycap.toNat = 0x20e3 := by decide
      rw [skipMark_units hmark (by decide), List.head?_cons, if_pos rfl, List.tail_cons]
  · rw [if_neg hbase] at h
    cases h

/-- What is no enclosing keycap and joins nothing ends a cluster. -/
theorem sweep_stop (hkeycap : c ≠ keycap) (hjoiner : afterJoiner (c :: rest) = none) :
    sweep .cluster (c :: rest) = sweep .plain (c :: rest) := by
  rcases front_cases c rest with ⟨behind, h⟩ | h | h
  · rw [sweep_keycap h, sweep_keycap h]
  · rw [sweep_base h, sweep_base h]
  · rw [sweep_cluster h hkeycap hjoiner, sweep_plain h]

theorem clusterTail_units_cons (c : Char) (rest : List Char) :
    clusterTail (units (c :: rest))
      = if isSkinTone c.toNat || isVariationSelector c.toNat || c.toNat == 0x20e3 then
          clusterTail (units rest)
        else if c.toNat == 0x200d then
          if isAt isEmojiBase (units rest) then clusterTail (next (units rest))
          else units (c :: rest)
        else units (c :: rest) := by
  obtain ⟨u, tail, hu⟩ := exists_units_cons c rest
  have hjoiner : (c.toNat == 0x200d) = true → tail = units rest := by
    intro h
    rw [units_plane (by rw [beq_iff_eq.mp h]; decide)] at hu
    exact (List.cons.inj hu).2.symm
  rw [hu, clusterTail, ← hu, codePointAt_units, next_units]
  cases h : c.toNat == 0x200d with
  | true => rw [hjoiner h]
  | false => simp

theorem sweep_modifier {c : Char} (rest : List Char)
    (h : (isSkinTone c.toNat || isVariationSelector c.toNat || c.toNat == 0x20e3) = true) :
    sweep .cluster (c :: rest) = sweep .cluster rest := by
  by_cases hkeycap : c = keycap
  · subst hkeycap
    exact sweep_enclosing
  · have hne : c.toNat ≠ 0x20e3 := fun h => hkeycap (Char.toNat_inj.mp h)
    refine sweep_base ?_
    simp only [isSkinTone, isVariationSelector, isEmojiBase, Bool.or_eq_true,
      Bool.and_eq_true, decide_eq_true_eq, beq_iff_eq] at h ⊢
    omega

/-- Where a cluster ends the sweep goes on as from a plain place. -/
theorem clusterTail_units (text : List Char) :
    ∃ rest, clusterTail (units text) = units rest ∧ rest.length ≤ text.length ∧
      sweep .cluster text = sweep .plain rest := by
  induction hlength : text.length using Nat.strong_induction_on generalizing text with
  | _ n ih =>
    cases text with
    | nil => exact ⟨[], by rw [show units [] = [] from rfl, clusterTail], le_of_eq hlength, by simp⟩
    | cons c rest =>
      rw [List.length_cons] at hlength
      rw [clusterTail_units_cons]
      split_ifs with hmodifier hjoiner hnext
      · obtain ⟨left, htail, hle, hsweep⟩ := ih rest.length (by omega) rest rfl
        exact ⟨left, htail, by omega, (sweep_modifier rest hmodifier).trans hsweep⟩
      · obtain rfl : c = joiner := Char.toNat_inj.mp (beq_iff_eq.mp hjoiner)
        cases rest with
        | nil => cases hnext
        | cons d rest =>
          rw [List.length_cons] at hlength
          obtain ⟨left, htail, hle, hsweep⟩ := ih rest.length (by omega) rest rfl
          rw [isAt_units] at hnext
          rw [next_units]
          exact ⟨left, htail, by omega, (sweep_joiner hnext).trans hsweep⟩
      · obtain rfl : c = joiner := Char.toNat_inj.mp (beq_iff_eq.mp hjoiner)
        refine ⟨_, rfl, le_of_eq hlength, sweep_stop (by decide) ?_⟩
        cases rest with
        | nil => rfl
        | cons d rest =>
          rw [isAt_units] at hnext
          exact if_neg fun h => hnext h.2
      · have hne : c ≠ keycap := by
          rintro rfl
          exact hmodifier (by decide)
        have hne' : c ≠ joiner := by
          rintro rfl
          exact hjoiner (by decide)
        refine ⟨_, rfl, le_of_eq hlength, sweep_stop hne ?_⟩
        cases rest with
        | nil => rfl
        | cons d rest => exact if_neg fun h => hne' h.1

theorem consumeEmojiCluster_units (c : Char) (rest : List Char) :
    ∃ left, consumeEmojiCluster (units (c :: rest)) = units left ∧ left.length ≤ rest.length ∧
      sweep .cluster rest = sweep .plain left := by
  rw [consumeEmojiCluster, codePointAt_units, next_units]
  split_ifs with hflag
  · cases rest with
    | nil =>
      rw [Bool.and_eq_true] at hflag
      cases hflag.2
    | cons d rest =>
      rw [isAt_units, Bool.and_eq_true] at hflag
      have hd : isEmojiBase d.toNat = true := by
        have hregion : isRegionalIndicator d.toNat = true := hflag.2
        simp only [isRegionalIndicator, isEmojiBase, Bool.or_eq_true, Bool.and_eq_true,
          decide_eq_true_eq] at hregion ⊢
        omega
      obtain ⟨left, htail, hle, hsweep⟩ := clusterTail_units rest
      refine ⟨left, by rw [next_units, htail], by rw [List.length_cons]; omega, ?_⟩
      rw [sweep_base hd, hsweep]
  · exact clusterTail_units rest

/-- The cursor of the source leaves what the sweep leaves. -/
theorem removeEmoji_units (text : List Char) : removeEmoji (units text) = units (sweep .plain text) := by
  induction hlength : text.length using Nat.strong_induction_on generalizing text with
  | _ n ih =>
    cases text with
    | nil => rw [sweep_nil, show units [] = [] from rfl, removeEmoji]
    | cons c rest =>
      rw [List.length_cons] at hlength
      obtain ⟨u, tail, hu⟩ := exists_units_cons c rest
      rw [hu, removeEmoji, ← hu, isKeycapSequenceAt_units, codePointAt_units, next_units]
      rcases front_cases c rest with ⟨behind, h⟩ | h | h
      · have hbehind := length_afterKeycap_lt h
        rw [List.length_cons] at hbehind
        rw [h, Option.isSome_some, if_pos rfl, consumeKeycap_units h, ih _ (by omega) behind rfl, sweep_keycap h]
      · rw [afterKeycap_eq_none (not_isKeycapBase h), if_neg (by simp), if_pos h]
        obtain ⟨left, hleft, hle, hsweep⟩ := consumeEmojiCluster_units c rest
        rw [hleft, ih _ (by omega) left rfl, ← hsweep, sweep_base h]
      · rw [h.keycap, if_neg (by simp), if_neg (by simp [h.base]), ih _ (by omega) rest rfl,
          sweep_plain h, units_cons, units_cons, ← length_utf16Char, List.take_left]

end Units

end TiktokSigner.Android.SpeechSanitizer
