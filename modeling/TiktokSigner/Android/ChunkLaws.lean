import TiktokSigner.Android.SupertonicText

/-!
# Chunking loses nothing

A sentence split is any function that cuts a paragraph at runs of white space;
the expression of the source is one. The packing loop carries a buffer, so what
it keeps is said of the chunks together with the buffer: without white space
they are what was read, the buffer is empty or has something to say, and one
that is too long is a single sentence.
-/

namespace TiktokSigner.Android.SupertonicText

open Text

/-- A run of white space begins behind something that is none. -/
structure SentenceSplit where
  split : List UInt16 → List (List UInt16)
  cuts : ∀ body, Cuts isWhitespaceUnit (EndsSolid isWhitespaceUnit) body (split body)

/-- What is said of a text: all of it but the white space. -/
def said (text : List UInt16) : List UInt16 := bare isWhitespaceUnit text

theorem said_append (front back : List UInt16) :
    said (front ++ back) = said front ++ said back :=
  bare_append front back

theorem said_trimmed (text : List UInt16) : said (trimmed text) = said text := bare_trim text

theorem trimmed_eq_nil_iff {text : List UInt16} : trimmed text = [] ↔ said text = [] :=
  trim_eq_nil_iff

theorem said_of_cuts {Ends : List UInt16 → Prop} {text : List UInt16}
    {pieces : List (List UInt16)} (h : Cuts isWhitespaceUnit Ends text pieces) :
    said pieces.flatten = said text :=
  h.bare_flatten

/-! ## The two expressions cut at white space -/

variable (space : RegexSpace)

theorem matches_paragraphBreak :
    Matches isWhitespaceUnit (fun _ => True) (paragraphBreak space) where
  run before text a ha := by
    cases text with
    | nil =>
      rw [List.take_nil] at ha
      cases ha
    | cons u rest =>
      rw [paragraphBreak] at ha
      split_ifs at ha with hu
      · cases hrun : (rest.takeWhile space.mem).reverse.dropWhile fun v => v ≠ unit '\n' with
        | nil =>
          rw [hrun] at ha
          cases ha
        | cons v run =>
          have hlength : (v :: run).length ≤ (rest.takeWhile space.mem).reverse.length := by
            rw [← hrun]
            exact (List.dropWhile_sublist _).length_le
          rw [List.length_reverse] at hlength
          rw [hrun] at ha
          rcases List.mem_cons.mp ha with rfl | ha
          · subst hu
            decide
          · exact space.isWhitespace _ (of_mem_take hlength ha)
      · cases ha
  ends _ _ _ _ _ := trivial

theorem matches_sentenceBoundary (endsWord : List UInt16 → Bool) :
    Matches isWhitespaceUnit (EndsSolid isWhitespaceUnit) (sentenceBoundary space endsWord) where
  run before text a ha := by
    rw [sentenceBoundary] at ha
    split_ifs at ha
    · exact space.isWhitespace _ (of_mem_take le_rfl ha)
    · cases ha
  ends piece earlier text hearlier hmatch := by
    have hboundary : isBoundary endsWord (piece.reverse ++ earlier) = true := by
      by_contra h
      exact hmatch (if_neg h)
    -- what stands before the white space is one of three marks, and no white space
    obtain ⟨u, tail, hbefore, hu⟩ : ∃ u tail, piece.reverse ++ earlier = u :: tail ∧
        isWhitespaceUnit u = false := by
      cases hbefore : piece.reverse ++ earlier with
      | nil =>
        rw [hbefore] at hboundary
        cases hboundary
      | cons u tail =>
        rw [hbefore, isBoundary] at hboundary
        simp only [Bool.and_eq_true, Bool.or_eq_true, decide_eq_true_eq] at hboundary
        refine ⟨u, tail, rfl, ?_⟩
        rcases hboundary with ⟨⟨(rfl | rfl) | rfl, -⟩, -⟩ <;> decide
    cases hpiece : piece.reverse with
    | nil =>
      rw [hpiece, List.nil_append] at hbefore
      rw [hearlier u (by rw [hbefore]; rfl)] at hu
      cases hu
    | cons v rest =>
      rw [hpiece, List.cons_append] at hbefore
      obtain ⟨rfl, -⟩ := List.cons.inj hbefore
      exact ⟨v, by rw [← List.head?_reverse, hpiece]; rfl, hu⟩

/-- The expression of the source. -/
def sentenceSplit (endsWord : List UInt16 → Bool) : SentenceSplit :=
  ⟨Text.split (sentenceBoundary space endsWord),
    cuts_split (matches_sentenceBoundary space endsWord)⟩

/-! ## Packing -/

section Packing

variable {maxLen : ℤ} {sentences more : List (List UInt16)}

/-- What every chunk is, where its sentences are known. -/
structure Sound (maxLen : ℤ) (sentences : List (List UInt16)) (chunk : List UInt16) : Prop where
  ne_nil : chunk ≠ []
  tidy : Trimmed isWhitespaceUnit chunk
  single : maxLen < codePointLength chunk → ∃ sentence ∈ sentences, chunk = trimmed sentence

theorem Sound.mono {chunk : List UInt16} (h : Sound maxLen sentences chunk)
    (hsub : sentences ⊆ more) : Sound maxLen more chunk where
  ne_nil := h.ne_nil
  tidy := h.tidy
  single hlong := by
    obtain ⟨sentence, hmem, heq⟩ := h.single hlong
    exact ⟨sentence, hsub hmem, heq⟩

theorem sound_trimmed {text : List UInt16} (hsaid : said text ≠ [])
    (hsingle : maxLen < codePointLength text → text ∈ sentences) :
    Sound maxLen sentences (trimmed text) where
  ne_nil h := hsaid (trimmed_eq_nil_iff.mp h)
  tidy := trimmed_trim _ _
  single hlong :=
    ⟨text, hsingle (hlong.trans_le (Int.ofNat_le.mpr (codePointLength_trim _ _))), rfl⟩

/-- The state of the loop after some sentences. -/
structure Packed (maxLen : ℤ) (chunks sentences : List (List UInt16)) (s : Packing) : Prop where
  kept : said s.chunks.flatten ++ said s.current = said chunks.flatten ++ said sentences.flatten
  buffer : s.current = [] ∨ said s.current ≠ [] ∧
    (maxLen < codePointLength s.current → s.current ∈ sentences)
  sound : ∀ c ∈ s.chunks, c ∈ chunks ∨ Sound maxLen sentences c

namespace Packed

variable {chunks : List (List UInt16)} {s : Packing}

theorem said_flush (h : Packed maxLen chunks sentences s) :
    said s.flush.flatten = said chunks.flatten ++ said sentences.flatten := by
  rw [← h.kept, Packing.flush]
  split_ifs with hcurrent
  · rw [hcurrent]
    exact (List.append_nil _).symm
  · rw [List.flatten_append, List.flatten_singleton, said_append, said_trimmed]

theorem sound_flush (h : Packed maxLen chunks sentences s) :
    ∀ c ∈ s.flush, c ∈ chunks ∨ Sound maxLen sentences c := by
  intro c hc
  rw [Packing.flush] at hc
  split_ifs at hc with hcurrent
  · exact h.sound c hc
  · obtain ⟨hsaid, hsingle⟩ := h.buffer.resolve_left hcurrent
    rcases List.mem_append.mp hc with hc | hc
    · exact h.sound c hc
    · obtain rfl := List.mem_singleton.mp hc
      exact Or.inr (sound_trimmed hsaid hsingle)

theorem init (maxLen : ℤ) (chunks : List (List UInt16)) : Packed maxLen chunks [] ⟨chunks, []⟩ where
  kept := rfl
  buffer := Or.inl rfl
  sound _ hc := Or.inl hc

/-- The sentence goes behind the buffer where both fit; else the buffer is
flushed for it. -/
theorem pack (h : Packed maxLen chunks sentences s) {sentence : List UInt16}
    (hsaid : said sentence ≠ []) :
    Packed maxLen chunks (sentences ++ [sentence]) (s.pack maxLen sentence) := by
  have hsub : sentences ⊆ sentences ++ [sentence] := List.subset_append_left _ _
  have hlast : sentence ∈ sentences ++ [sentence] :=
    List.mem_append_right _ (List.mem_singleton_self _)
  have hsentences : said (sentences ++ [sentence]).flatten
      = said sentences.flatten ++ said sentence := by
    rw [List.flatten_append, List.flatten_singleton, said_append]
  rw [Packing.pack]
  by_cases hfits : (codePointLength s.current : ℤ) + codePointLength sentence + 1 ≤ maxLen
  · rw [if_pos hfits]
    have hnew : said (s.current ++ (if s.current = [] then [] else [unit ' ']) ++ sentence)
        = said s.current ++ said sentence := by
      rw [said_append, said_append]
      split_ifs <;> simp [said, bare, show isWhitespaceUnit (unit ' ') = true from by decide]
    refine ⟨?_, Or.inr ⟨?_, fun hlong => ?_⟩, fun c hc => (h.sound c hc).imp_right (·.mono hsub)⟩
    · rw [hnew, hsentences, ← List.append_assoc, h.kept, List.append_assoc]
    · rw [hnew]
      exact List.append_ne_nil_of_right_ne_nil _ hsaid
    · by_cases hcurrent : s.current = []
      · rw [if_pos hcurrent, hcurrent]
        exact hlast
      · rw [if_neg hcurrent] at hlong
        change maxLen < codePointLength (s.current ++ [unit ' '] ++ sentence) at hlong
        have hfront := (codePointLength_append s.current [unit ' ']).2
        have hback := (codePointLength_append (s.current ++ [unit ' ']) sentence).2
        have hspace : codePointLength [unit ' '] = 1 := rfl
        omega
  · rw [if_neg hfits]
    refine ⟨?_, Or.inr ⟨hsaid, fun _ => hlast⟩,
      fun c hc => (h.sound_flush c hc).imp_right (·.mono hsub)⟩
    rw [h.said_flush, hsentences, List.append_assoc]

/-- After all the sentences of a paragraph. -/
theorem foldl_pack (h : Packed maxLen chunks sentences s)
    (hmore : ∀ sentence ∈ more, said sentence ≠ []) :
    Packed maxLen chunks (sentences ++ more) (more.foldl (Packing.pack maxLen) s) := by
  induction more generalizing sentences s with
  | nil => rwa [List.append_nil]
  | cons sentence more ih =>
    have hnext := ih (h.pack (hmore sentence List.mem_cons_self))
      fun next hnext => hmore next (List.mem_cons_of_mem _ hnext)
    rwa [List.append_assoc] at hnext

end Packed

end Packing

/-! ## Paragraphs -/

section Paragraphs

variable (split : SentenceSplit) (maxLen : ℤ)

/-- The sentences of some paragraphs. -/
def sentencesOf (paragraphs : List (List UInt16)) : List (List UInt16) :=
  paragraphs.flatMap fun paragraph => split.split (trimmed paragraph)

theorem chunkParagraph_spec (chunks : List (List UInt16)) (paragraph : List UInt16) :
    said (chunkParagraph split.split maxLen chunks paragraph).flatten
        = said chunks.flatten ++ said paragraph ∧
      ∀ c ∈ chunkParagraph split.split maxLen chunks paragraph,
        c ∈ chunks ∨ Sound maxLen (split.split (trimmed paragraph)) c := by
  rw [chunkParagraph]
  by_cases hbody : trimmed paragraph = []
  · rw [if_pos hbody, trimmed_eq_nil_iff.mp hbody, List.append_nil]
    exact ⟨rfl, fun _ hc => Or.inl hc⟩
  · rw [if_neg hbody]
    have hcuts := split.cuts (trimmed paragraph)
    have hsolid := hcuts.endsSolid (endsSolid_trim hbody)
    have hpacked := (Packed.init maxLen chunks).foldl_pack
      fun sentence hsentence => (hsolid sentence hsentence).bare_ne_nil
    rw [List.nil_append] at hpacked
    exact ⟨by rw [hpacked.said_flush, said_of_cuts hcuts, said_trimmed], hpacked.sound_flush⟩

theorem foldl_chunkParagraph (paragraphs chunks : List (List UInt16)) :
    said (paragraphs.foldl (chunkParagraph split.split maxLen) chunks).flatten
        = said chunks.flatten ++ said paragraphs.flatten ∧
      ∀ c ∈ paragraphs.foldl (chunkParagraph split.split maxLen) chunks,
        c ∈ chunks ∨ Sound maxLen (sentencesOf split paragraphs) c := by
  induction paragraphs generalizing chunks with
  | nil => exact ⟨(List.append_nil _).symm, fun _ hc => Or.inl hc⟩
  | cons paragraph paragraphs ih =>
    obtain ⟨hsaid, hsound⟩ := chunkParagraph_spec split maxLen chunks paragraph
    obtain ⟨hsaid', hsound'⟩ := ih (chunkParagraph split.split maxLen chunks paragraph)
    rw [List.foldl_cons, hsaid', hsaid, List.flatten_cons, said_append, List.append_assoc]
    refine ⟨rfl, fun c hc => ?_⟩
    rcases hsound' c hc with hc | hc
    · exact (hsound c hc).imp_right (·.mono (List.subset_append_left _ _))
    · exact Or.inr (hc.mono (List.subset_append_right _ _))

/-- The sentences of a text. -/
def textSentences (text : List UInt16) : List (List UInt16) :=
  sentencesOf split (paragraphs space (trimmed text))

variable {maxLen} in
/-- Nothing is lost, nothing is empty, and only a sentence is too long. -/
theorem chunkWith_conserves (text : List UInt16) (hmaxLen : 0 < maxLen) :
    ∃ chunks, chunkWith space split.split maxLen text = .ok chunks ∧
      said chunks.flatten = said text ∧
      ∀ c ∈ chunks, Sound maxLen (textSentences space split text) c := by
  rw [chunkWith, if_neg (not_le.mpr hmaxLen)]
  by_cases htext : trimmed text = []
  · rw [if_pos htext, trimmed_eq_nil_iff.mp htext]
    exact ⟨[], rfl, rfl, fun _ hc => by cases hc⟩
  · rw [if_neg htext]
    obtain ⟨hsaid, hsound⟩ :=
      foldl_chunkParagraph split maxLen (paragraphs space (trimmed text)) []
    refine ⟨_, rfl, ?_, fun c hc => (hsound c hc).resolve_left List.not_mem_nil⟩
    rw [hsaid, paragraphs, said_of_cuts (cuts_split (matches_paragraphBreak space) _), said_trimmed]
    rfl

theorem chunkWith_conserves_greeting :
    (0 : ℤ) < 10 ∧ ∃ chunks,
      chunkWith .android (sentenceSplit .android fun _ => false).split 10
        (Parity.utf16 "Hi there. Welcome!") = .ok chunks ∧
      said chunks.flatten = said (Parity.utf16 "Hi there. Welcome!") ∧
      ∀ c ∈ chunks, Sound 10 (textSentences .android (sentenceSplit .android fun _ => false)
        (Parity.utf16 "Hi there. Welcome!")) c :=
  ⟨by decide, chunkWith_conserves _ _ _ (by decide)⟩

end Paragraphs

end TiktokSigner.Android.SupertonicText
