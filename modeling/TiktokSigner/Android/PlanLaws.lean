import TiktokSigner.Android.ChunkLaws

/-!
# The plan under a cap

What is kept of the chunks never exceeds the cap and begins with the first
chunk, or with as much of it as the cap allows. Behind a first chunk that was
cut the loop goes on: a later chunk that fits into what the cut leaves is kept,
and then the text between is skipped (`NothingBehindCut` excludes that). Only
where the text repeats itself may what is spoken still read like its beginning.
-/

namespace TiktokSigner.Android.SupertonicText

open Text

/-! ## The first chunk -/

section Truncate

variable {text : List UInt16} {limit : ℤ}

/-- A cut text is some of its first units, without the white space around. -/
theorem truncate_spec (h : 0 < limit) (hlong : limit < codePointLength text) :
    ∃ piece, piece <+: text ∧ piece ≠ [] ∧ (codePointLength piece : ℤ) ≤ limit ∧
      truncateAtWordBoundary text limit = trimmed piece := by
  rw [truncateAtWordBoundary, if_neg (not_le.mpr h), if_neg (not_le.mpr hlong)]
  have hstart : ((codePoints text).take limit.toNat).flatten <+: text := by
    obtain ⟨back, hback⟩ := List.take_prefix limit.toNat (codePoints text)
    refine ⟨back.flatten, ?_⟩
    rw [← List.flatten_append, hback, flatten_codePoints]
  have hlength := codePointLength_take limit.toNat text
  have hne : ((codePoints text).take limit.toNat).flatten ≠ [] := by
    cases text with
    | nil =>
      rw [codePointLength_nil] at hlong
      omega
    | cons u text =>
      obtain ⟨n, hn⟩ : ∃ n, limit.toNat = n + 1 := ⟨limit.toNat - 1, by omega⟩
      obtain ⟨tail, htail⟩ := exists_take_codePoints u text n
      rw [hn, htail]
      exact List.cons_ne_nil _ _
  generalize ((codePoints text).take limit.toNat).flatten = slice at hstart hlength hne
  dsimp only
  cases indexOfLast isWhitespaceUnit slice with
  | none => exact ⟨slice, hstart, hne, by omega, rfl⟩
  | some cut =>
    by_cases hcut : 0 < cut
    · refine ⟨slice.take cut, (List.take_prefix _ _).trans hstart, ?_, ?_,
        congrArg trimmed (if_pos hcut)⟩
      · rw [Ne, List.take_eq_nil_iff, not_or]
        exact ⟨hcut.ne', hne⟩
      · have hcons := (codePointLength_append (slice.take cut) (slice.drop cut)).1
        rw [List.take_append_drop] at hcons
        omega
    · exact ⟨slice, hstart, hne, by omega, congrArg trimmed (if_neg hcut)⟩

/-- A text that begins with something to say is cut to something to say. -/
theorem said_prefix_ne_nil {piece : List UInt16} (htidy : Trimmed isWhitespaceUnit text)
    (hstart : piece <+: text) (hne : piece ≠ []) : said piece ≠ [] := by
  obtain ⟨u, tail, rfl⟩ := List.exists_cons_of_ne_nil hne
  obtain ⟨back, rfl⟩ := hstart
  have hu : isWhitespaceUnit u = false := htidy.1 u rfl
  exact List.ne_nil_of_mem (List.mem_filter.mpr ⟨List.mem_cons_self, by simp [hu]⟩)

theorem said_prefix {piece : List UInt16} (h : piece <+: text) : said piece <+: said text :=
  h.filter _

/-- What the plan keeps of its first chunk. -/
def firstKept (maxChars : ℤ) (c : List UInt16) : List UInt16 :=
  if maxChars < codePointLength c then truncateAtWordBoundary c maxChars else c

variable {maxChars : ℤ} {c : List UInt16}

theorem firstKept_spec (hmaxChars : 0 < maxChars) (hne : c ≠ [])
    (htidy : Trimmed isWhitespaceUnit c) :
    (codePointLength (firstKept maxChars c) : ℤ) ≤ maxChars ∧ said (firstKept maxChars c) ≠ [] ∧
      said (firstKept maxChars c) <+: said c := by
  rw [firstKept]
  split_ifs with hlong
  · obtain ⟨piece, hstart, hpiece, hlength, htruncate⟩ := truncate_spec hmaxChars hlong
    have htrim : codePointLength (trimmed piece) ≤ codePointLength piece :=
      codePointLength_trim _ _
    rw [htruncate, said_trimmed]
    exact ⟨by omega, said_prefix_ne_nil htidy hstart hpiece, said_prefix hstart⟩
  · exact ⟨not_lt.mp hlong, said_prefix_ne_nil htidy List.prefix_rfl hne, List.prefix_rfl⟩

end Truncate

/-! ## The loop -/

section Keep

variable {maxChars : ℤ}

/-- The first chunks that fit together into some room. -/
def fitting : ℤ → List (List UInt16) → List (List UInt16)
  | _, [] => []
  | room, c :: chunks =>
      if (codePointLength c : ℤ) ≤ room then c :: fitting (room - codePointLength c) chunks else []

def totalLength (chunks : List (List UInt16)) : ℤ :=
  (chunks.map fun c => (codePointLength c : ℤ)).sum

theorem totalLength_fitting {room : ℤ} (h : 0 ≤ room) (chunks : List (List UInt16)) :
    totalLength (fitting room chunks) ≤ room := by
  induction chunks generalizing room with
  | nil => exact h
  | cons c chunks ih =>
    rw [fitting]
    split_ifs with hfits
    · have hrest := ih (by omega : 0 ≤ room - codePointLength c)
      rw [totalLength, List.map_cons, List.sum_cons]
      rw [totalLength] at hrest
      omega
    · exact h

theorem fitting_prefix (room : ℤ) (chunks : List (List UInt16)) :
    fitting room chunks <+: chunks := by
  induction chunks generalizing room with
  | nil => exact List.prefix_rfl
  | cons c chunks ih =>
    rw [fitting]
    split_ifs
    · exact List.cons_prefix_cons.mpr ⟨rfl, ih _⟩
    · exact List.nil_prefix

theorem keep_eq {kept : List (List UInt16)} (hkept : kept ≠ []) (total : ℤ)
    (chunks : List (List UInt16)) :
    keep maxChars kept total chunks = kept ++ fitting (maxChars - total) chunks := by
  induction chunks generalizing kept total with
  | nil => exact (List.append_nil _).symm
  | cons c chunks ih =>
    rw [keep, if_neg hkept, fitting]
    by_cases hfits : total + (codePointLength c : ℤ) ≤ maxChars
    · rw [if_pos hfits, if_pos (by omega), ih (by simp), List.append_assoc, Int.sub_sub]
      rfl
    · rw [if_neg hfits, if_neg (by omega), List.append_nil]

theorem keep_cons {c : List UInt16} {chunks : List (List UInt16)}
    (h : said (firstKept maxChars c) ≠ []) :
    keep maxChars [] 0 (c :: chunks) = firstKept maxChars c ::
      fitting (maxChars - codePointLength (firstKept maxChars c)) chunks := by
  have hblank : ¬(firstKept maxChars c).all isWhitespaceUnit = true := fun hall =>
    h (bare_eq_nil (List.all_eq_true.mp hall))
  rw [keep, if_pos rfl]
  change (if (firstKept maxChars c).all isWhitespaceUnit = true then [] else _) = _
  rw [if_neg hblank, keep_eq (by simp)]
  rw [zero_add]
  rfl

end Keep

/-! ## The plan -/

section Plan

/-- What the cap leaves of a first chunk that it cuts, and what it cuts off. -/
def roomBehind (maxChars : ℤ) (c : List UInt16) : ℤ :=
  maxChars - codePointLength (firstKept maxChars c)

def cutOff (maxChars : ℤ) (c : List UInt16) : List UInt16 :=
  (said c).drop (said (firstKept maxChars c)).length

/-- The first chunk is not cut, or no chunk is next, or the next one does not fit
behind the cut. -/
def NothingBehindCut (maxChars : ℤ) : List (List UInt16) → Prop
  | [] => True
  | c :: chunks =>
      (codePointLength c : ℤ) ≤ maxChars ∨
        ∀ next ∈ chunks.head?, roomBehind maxChars c < codePointLength next

/-- What a plan has to be: within the cap, not silent, and the beginning of what
is to be said. -/
structure Speaks (maxChars : ℤ) (text : List UInt16) (chunks kept : List (List UInt16)) :
    Prop where
  bounded : totalLength kept ≤ maxChars
  started : chunks ≠ [] → kept ≠ []
  beginning : said kept.flatten <+: said text

variable {maxChars : ℤ} {c : List UInt16} {chunks : List (List UInt16)}

theorem said_firstKept (h : said (firstKept maxChars c) <+: said c) :
    said c = said (firstKept maxChars c) ++ cutOff maxChars c := by
  obtain ⟨back, hback⟩ := h
  rw [cutOff, ← hback, List.drop_left]

/-- Behind the first chunk the plan has to go on as the text does. -/
theorem beginning_iff (hmaxChars : 0 < maxChars) (hne : c ≠ [])
    (htidy : Trimmed isWhitespaceUnit c) :
    said (keep maxChars [] 0 (c :: chunks)).flatten <+: said (c :: chunks).flatten
      ↔ said (fitting (roomBehind maxChars c) chunks).flatten
        <+: cutOff maxChars c ++ said chunks.flatten := by
  obtain ⟨-, hsaid, hstart⟩ := firstKept_spec hmaxChars hne htidy
  rw [keep_cons hsaid, List.flatten_cons, said_append, List.flatten_cons, said_append,
    said_firstKept hstart, List.append_assoc, List.prefix_append_right_inj]
  rfl

/-- It does where nothing is kept behind a cut. -/
theorem goesOn_of_nothingBehindCut (h : NothingBehindCut maxChars (c :: chunks)) :
    said (fitting (roomBehind maxChars c) chunks).flatten
      <+: cutOff maxChars c ++ said chunks.flatten := by
  rcases h with hfits | hnext
  · have hwhole : firstKept maxChars c = c := if_neg (not_lt.mpr hfits)
    obtain ⟨back, hback⟩ := fitting_prefix (roomBehind maxChars c) chunks
    rw [cutOff, hwhole, List.drop_length, List.nil_append]
    refine ⟨said back.flatten, ?_⟩
    rw [← said_append, ← List.flatten_append, hback]
  · have hnone : fitting (roomBehind maxChars c) chunks = [] := by
      cases chunks with
      | nil => rfl
      | cons next chunks => rw [fitting, if_neg (not_le.mpr (hnext next rfl))]
    rw [hnone]
    exact List.nil_prefix

/-- What is cut off is not only white space, since a chunk ends with none. -/
theorem cutOff_ne_nil (hmaxChars : 0 < maxChars) (htidy : Trimmed isWhitespaceUnit c)
    (hlong : maxChars < codePointLength c) : cutOff maxChars c ≠ [] := by
  obtain ⟨piece, ⟨back, rfl⟩, -, hlength, htruncate⟩ := truncate_spec hmaxChars hlong
  have hback : back ≠ [] := by
    rintro rfl
    rw [List.append_nil] at hlong
    omega
  have hlast : isWhitespaceUnit (back.getLast hback) = false := by
    refine htidy.2 _ ?_
    rw [List.getLast?_append_of_ne_nil _ hback, List.getLast?_eq_some_getLast hback]
    rfl
  rw [cutOff, firstKept, if_pos hlong, htruncate, said_trimmed, said_append, List.drop_left]
  exact List.ne_nil_of_mem (List.mem_filter.mpr ⟨List.getLast_mem hback, by simp [hlast]⟩)

/-- A chunk that is kept behind a cut has to begin with what was cut off. -/
theorem head?_of_goesOn {next : List UInt16} (hsaid : said next ≠ [])
    (hfits : (codePointLength next : ℤ) ≤ roomBehind maxChars c) (hcut : cutOff maxChars c ≠ [])
    (h : said (fitting (roomBehind maxChars c) (next :: chunks)).flatten
      <+: cutOff maxChars c ++ said (next :: chunks).flatten) :
    (said next).head? = (cutOff maxChars c).head? := by
  obtain ⟨u, letters, hnext⟩ := List.exists_cons_of_ne_nil hsaid
  obtain ⟨v, rest, hrest⟩ := List.exists_cons_of_ne_nil hcut
  rw [fitting, if_pos hfits, List.flatten_cons, said_append, hnext, hrest, List.cons_append,
    List.cons_append, List.cons_prefix_cons] at h
  rw [hnext, hrest, List.head?_cons, List.head?_cons, h.1]

theorem totalLength_keep (hmaxChars : 0 < maxChars) (hne : c ≠ [])
    (htidy : Trimmed isWhitespaceUnit c) :
    totalLength (keep maxChars [] 0 (c :: chunks)) ≤ maxChars := by
  obtain ⟨hlength, hsaid, -⟩ := firstKept_spec hmaxChars hne htidy
  have hrest := totalLength_fitting (sub_nonneg.mpr hlength) chunks
  rw [keep_cons hsaid, totalLength, List.map_cons, List.sum_cons]
  rw [totalLength] at hrest
  omega

theorem keep_ne_nil (hmaxChars : 0 < maxChars) (hne : c ≠ [])
    (htidy : Trimmed isWhitespaceUnit c) : keep maxChars [] 0 (c :: chunks) ≠ [] := by
  rw [keep_cons (firstKept_spec hmaxChars hne htidy).2.1]
  exact List.cons_ne_nil _ _

variable (space : RegexSpace) (endsWord : List UInt16 → Bool) (text : List UInt16) {maxLen : ℤ}

/-- The plan is within the cap and not silent. It is the beginning of the text
where nothing is kept behind a cut, and it is not where a chunk is kept there that
does not begin with the letter behind the cut. -/
theorem plan_speaks (hmaxLen : 0 < maxLen) (hmaxChars : 0 < maxChars) :
    ∃ chunks kept, chunk space endsWord text maxLen = .ok chunks ∧
      plan space endsWord text maxLen maxChars = .ok kept ∧
      (totalLength kept ≤ maxChars ∧ (chunks ≠ [] → kept ≠ [])) ∧
      (NothingBehindCut maxChars chunks → Speaks maxChars text chunks kept) ∧
      ∀ c next rest, chunks = c :: next :: rest → ¬NothingBehindCut maxChars chunks →
        (said next).head? ≠ (cutOff maxChars c).head? → ¬Speaks maxChars text chunks kept := by
  obtain ⟨chunks, hchunk, hsaid, hsound⟩ :=
    chunkWith_conserves space (sentenceSplit space endsWord) text hmaxLen
  have hplan : plan space endsWord text maxLen maxChars
      = .ok (if maxChars ≤ 0 ∨ chunks = [] then chunks else keep maxChars [] 0 chunks) :=
    congrArg (Except.map _) hchunk
  refine ⟨chunks, keep maxChars [] 0 chunks, hchunk, ?_, ?_⟩
  · rw [hplan]
    cases chunks with
    | nil => rw [if_pos (Or.inr rfl)]; rfl
    | cons c chunks => rw [if_neg (by simp [hmaxChars])]
  · cases chunks with
    | nil =>
      refine ⟨⟨hmaxChars.le, fun h => absurd rfl h⟩, fun _ => ?_, fun _ _ _ h => by cases h⟩
      exact ⟨hmaxChars.le, fun h => absurd rfl h, List.nil_prefix⟩
    | cons c chunks =>
      have hc := hsound c List.mem_cons_self
      have hbounded : totalLength (keep maxChars [] 0 (c :: chunks)) ≤ maxChars :=
        totalLength_keep hmaxChars hc.ne_nil hc.tidy
      have hstarted : keep maxChars [] 0 (c :: chunks) ≠ [] :=
        keep_ne_nil hmaxChars hc.ne_nil hc.tidy
      have hbeginning : said (keep maxChars [] 0 (c :: chunks)).flatten <+: _ ↔ _ :=
        beginning_iff hmaxChars hc.ne_nil hc.tidy
      rw [hsaid] at hbeginning
      refine ⟨⟨hbounded, fun _ => hstarted⟩, fun h => ?_, ?_⟩
      · exact ⟨hbounded, fun _ => hstarted, hbeginning.mpr (goesOn_of_nothingBehindCut h)⟩
      · rintro _ next rest ⟨⟩ hbehind hhead hspeaks
        obtain ⟨hlong, hfits⟩ := not_or.mp hbehind
        have hfits : (codePointLength next : ℤ) ≤ roomBehind maxChars c := by
          by_contra hroom
          refine hfits fun other hother => ?_
          obtain rfl := Option.some.inj hother
          exact not_le.mp hroom
        have hnext := hsound next (List.mem_cons_of_mem _ List.mem_cons_self)
        have hletters := said_prefix_ne_nil hnext.tidy List.prefix_rfl hnext.ne_nil
        have hcut := cutOff_ne_nil hmaxChars hc.tidy (not_le.mp hlong)
        exact hhead (head?_of_goesOn hletters hfits hcut (hbeginning.mp hspeaks.beginning))

/-- The second paragraph does not fit behind what is left of the first. -/
theorem plan_speaks_greeting :
    (0 : ℤ) < 300 ∧ (0 : ℤ) < 8 ∧ ∃ chunks kept,
      chunk .android (fun _ => false) (Parity.utf16 "alpha beta\n\nhi there") 300 = .ok chunks ∧
      plan .android (fun _ => false) (Parity.utf16 "alpha beta\n\nhi there") 300 8 = .ok kept ∧
      Speaks 8 (Parity.utf16 "alpha beta\n\nhi there") chunks kept := by
  obtain ⟨chunks, kept, hchunk, hplan, -, hspeaks, -⟩ := plan_speaks .android (fun _ => false)
    (Parity.utf16 "alpha beta\n\nhi there") (by decide : (0 : ℤ) < 300) (by decide : (0 : ℤ) < 8)
  refine ⟨by decide, by decide, chunks, kept, hchunk, hplan, hspeaks ?_⟩
  have hchunks : chunk .android (fun _ => false) (Parity.utf16 "alpha beta\n\nhi there") 300
      = .ok [Parity.utf16 "alpha beta", Parity.utf16 "hi there"] := by decide +kernel
  rw [hchunks] at hchunk
  obtain rfl := Except.ok.inj hchunk
  refine Or.inr fun next hnext => ?_
  obtain rfl := Option.some.inj hnext
  decide +kernel

/-- Of two paragraphs the end of the first is skipped. -/
theorem plan_skips :
    plan .android (fun _ => false) (Parity.utf16 "alpha beta\n\nhi") 300 8
        = .ok [Parity.utf16 "alpha", Parity.utf16 "hi"] ∧
      ∀ chunks, ¬Speaks 8 (Parity.utf16 "alpha beta\n\nhi") chunks
        [Parity.utf16 "alpha", Parity.utf16 "hi"] :=
  ⟨by decide +kernel, fun _ h => absurd h.beginning (by decide +kernel)⟩

/-- A text that repeats itself is spoken from its beginning although a chunk is
kept behind the cut. -/
example : plan .android (fun _ => false) (Parity.utf16 "ab ab\n\nab") 300 4
    = .ok [Parity.utf16 "ab", Parity.utf16 "ab"] := by decide +kernel

end Plan

end TiktokSigner.Android.SupertonicText
