import TiktokSigner.Lib.Text

/-!
# Cuts at white space

What a regular expression cuts a text into when all that it matches is white
space. `Cuts` is the relation between a text and its pieces; what ends a piece
is a parameter. `splitFrom` cuts at every match from the left, where a matcher
sees the text before and behind a place and says how long the match there is.
-/

namespace TiktokSigner.Text

variable {α : Type} (white : α → Bool)

/-- The text without its white space. -/
def bare (text : List α) : List α := text.filter fun a => !white a

/-- The text ends with something that is no white space. -/
def EndsSolid (text : List α) : Prop := ∃ a, text.getLast? = some a ∧ white a = false

/-- A white run goes at each cut, and `Ends` is what the piece before it does. -/
inductive Cuts (Ends : List α → Prop) : List α → List (List α) → Prop
  | last (piece : List α) : Cuts Ends piece [piece]
  | cut {piece run rest : List α} {pieces : List (List α)} :
      Ends piece → run ≠ [] → (∀ a ∈ run, white a = true) → Cuts Ends rest pieces →
      Cuts Ends (piece ++ (run ++ rest)) (piece :: pieces)

variable {white}

@[simp] theorem bare_append (front back : List α) :
    bare white (front ++ back) = bare white front ++ bare white back :=
  List.filter_append ..

theorem bare_eq_nil {text : List α} (h : ∀ a ∈ text, white a = true) : bare white text = [] :=
  List.filter_eq_nil_iff.mpr fun a ha => by simp [h a ha]

theorem bare_trim (text : List α) : bare white (trim white text) = bare white text := by
  obtain ⟨front, back, htext, hfront, hback⟩ := trim_split white text
  have hbare := congrArg (bare white) htext
  rw [bare_append, bare_append, bare_eq_nil hfront, bare_eq_nil hback, List.append_nil,
    List.nil_append] at hbare
  exact hbare.symm

theorem EndsSolid.bare_ne_nil {text : List α} (h : EndsSolid white text) :
    bare white text ≠ [] := by
  obtain ⟨a, hlast, ha⟩ := h
  exact List.ne_nil_of_mem (List.mem_filter.mpr ⟨List.mem_of_getLast? hlast, by simp [ha]⟩)

theorem endsSolid_trim {text : List α} (h : trim white text ≠ []) :
    EndsSolid white (trim white text) :=
  ⟨_, List.getLast?_eq_some_getLast h,
    (trimmed_trim white text).2 _ (List.getLast?_eq_some_getLast h)⟩

theorem trim_eq_nil_iff {text : List α} : trim white text = [] ↔ bare white text = [] := by
  constructor
  · intro h
    rw [← bare_trim, h]
    rfl
  · intro h
    by_contra hne
    exact (endsSolid_trim hne).bare_ne_nil ((bare_trim text).trans h)

namespace Cuts

variable {Ends : List α → Prop} {text : List α} {pieces : List (List α)}

theorem ne_nil (h : Cuts white Ends text pieces) : pieces ≠ [] := by
  cases h <;> exact List.cons_ne_nil _ _

/-- Only white space goes. -/
theorem bare_flatten (h : Cuts white Ends text pieces) :
    bare white pieces.flatten = bare white text := by
  induction h with
  | last piece => rw [List.flatten_singleton]
  | cut _ _ hwhite _ ih =>
    rw [List.flatten_cons, bare_append, bare_append, bare_append, bare_eq_nil hwhite, ih,
      List.nil_append]

/-- The last piece ends where the text does. -/
theorem endsSolid (h : Cuts white (EndsSolid white) text pieces) (htext : EndsSolid white text) :
    ∀ piece ∈ pieces, EndsSolid white piece := by
  induction h with
  | last piece =>
    intro p hp
    rwa [List.mem_singleton.mp hp]
  | @cut piece run rest pieces hpiece hrun hwhite _ ih =>
    have hrest : EndsSolid white rest := by
      obtain ⟨a, hlast, ha⟩ := htext
      cases hnil : rest with
      | nil =>
        rw [hnil, List.append_nil, List.getLast?_append_of_ne_nil _ hrun] at hlast
        rw [hwhite a (List.mem_of_getLast? hlast)] at ha
        cases ha
      | cons b tail =>
        have hne : rest ≠ [] := hnil ▸ List.cons_ne_nil b tail
        refine ⟨a, ?_, ha⟩
        rwa [← List.append_assoc, List.getLast?_append_of_ne_nil _ hne, hnil] at hlast
    intro p hp
    rcases List.mem_cons.mp hp with rfl | hp
    · exact hpiece
    · exact ih hrest p hp

end Cuts

/-! ## Cutting at matches -/

/-- The first argument counts what is left of a match, the second is the text
before, from its end. -/
def splitFrom (matcher : List α → List α → ℕ) : ℕ → List α → List α → List (List α)
  | _, _, [] => [[]]
  | skip + 1, before, a :: text => splitFrom matcher skip (a :: before) text
  | 0, before, a :: text =>
      match matcher before (a :: text) with
      | 0 => (splitFrom matcher 0 (a :: before) text).modifyHead (a :: ·)
      | length + 1 => [] :: splitFrom matcher length (a :: before) text

/-- `split`. -/
def split (matcher : List α → List α → ℕ) (text : List α) : List (List α) :=
  splitFrom matcher 0 [] text

theorem splitFrom_skip (matcher : List α → List α → ℕ) (skip : ℕ) (before text : List α) :
    splitFrom matcher skip before text
      = splitFrom matcher 0 ((text.take skip).reverse ++ before) (text.drop skip) := by
  induction text generalizing skip before with
  | nil =>
    rw [List.drop_nil]
    cases skip <;> rfl
  | cons a text ih =>
    cases skip with
    | zero => rfl
    | succ skip =>
      rw [splitFrom, ih, List.take_succ_cons, List.drop_succ_cons, List.reverse_cons,
        List.append_assoc]
      rfl

/-- A matcher that only matches white space, and only behind what `Ends`. -/
structure Matches (white : α → Bool) (Ends : List α → Prop)
    (matcher : List α → List α → ℕ) : Prop where
  run : ∀ before text : List α, ∀ a ∈ text.take (matcher before text), white a = true
  ends : ∀ piece earlier text : List α, (∀ a ∈ earlier.head?, white a = true) →
    matcher (piece.reverse ++ earlier) text ≠ 0 → Ends piece

theorem of_mem_take {p : α → Bool} {n : ℕ} {text : List α}
    (hn : n ≤ (text.takeWhile p).length) {a : α} (ha : a ∈ text.take n) : p a = true := by
  have hstart : text.take n <+: text.takeWhile p :=
    List.prefix_of_prefix_length_le (List.take_prefix _ _) (List.takeWhile_prefix _)
      ((List.length_take_le _ _).trans hn)
  exact List.mem_takeWhile_imp (hstart.subset ha)

theorem modifyHead_nil_append (pieces : List (List α)) :
    pieces.modifyHead ([] ++ ·) = pieces := by
  cases pieces <;> rfl

theorem modifyHead_snoc (piece : List α) (a : α) (pieces : List (List α)) :
    (pieces.modifyHead (a :: ·)).modifyHead (piece ++ ·)
      = pieces.modifyHead (piece ++ [a] ++ ·) := by
  rw [List.modifyHead_modifyHead]
  congr 1
  funext rest
  simp

/-- Behind a run the text is white. -/
theorem white_head_of_run {a : α} {run before : List α} (h : ∀ b ∈ a :: run, white b = true) :
    ∀ b ∈ (run.reverse ++ a :: before).head?, white b = true := by
  intro b hb
  refine h b ?_
  rw [List.head?_append, List.head?_cons, List.head?_reverse] at hb
  cases hlast : run.getLast? with
  | none =>
    rw [hlast] at hb
    obtain rfl := Option.some.inj hb
    exact List.mem_cons_self
  | some c =>
    rw [hlast] at hb
    obtain rfl := Option.some.inj hb
    exact List.mem_cons_of_mem _ (List.mem_of_getLast? hlast)

theorem cuts_splitFrom {Ends : List α → Prop} {matcher : List α → List α → ℕ}
    (h : Matches white Ends matcher) (text piece earlier : List α)
    (hearlier : ∀ a ∈ earlier.head?, white a = true) :
    Cuts white Ends (piece ++ text)
      ((splitFrom matcher 0 (piece.reverse ++ earlier) text).modifyHead (piece ++ ·)) := by
  induction hlength : text.length using Nat.strong_induction_on generalizing text piece earlier with
  | _ n ih =>
    cases text with
    | nil =>
      rw [splitFrom, List.modifyHead_cons, List.append_nil]
      exact .last piece
    | cons a text =>
      rw [List.length_cons] at hlength
      rw [splitFrom]
      cases hmatch : matcher (piece.reverse ++ earlier) (a :: text) with
      | zero =>
        have hnext := ih text.length (by omega) text (piece ++ [a]) earlier hearlier rfl
        rw [List.reverse_append, List.reverse_singleton, List.append_assoc,
          List.append_assoc] at hnext
        rw [modifyHead_snoc]
        exact hnext
      | succ length =>
        have hwhite := h.run (piece.reverse ++ earlier) (a :: text)
        rw [hmatch, List.take_succ_cons] at hwhite
        have hends := h.ends piece earlier (a :: text) hearlier
          (by rw [hmatch]; exact Nat.succ_ne_zero _)
        have hrest := ih (text.drop length).length (by rw [List.length_drop]; omega)
          (text.drop length) [] ((text.take length).reverse ++ a :: (piece.reverse ++ earlier))
          (white_head_of_run hwhite) rfl
        dsimp only
        rw [List.modifyHead_cons, List.append_nil, splitFrom_skip]
        have htext : piece ++ a :: text
            = piece ++ ((a :: text.take length) ++ text.drop length) := by
          rw [List.cons_append, List.take_append_drop]
        rw [htext]
        refine .cut hends (List.cons_ne_nil _ _) hwhite ?_
        rwa [modifyHead_nil_append] at hrest

theorem cuts_split {Ends : List α → Prop} {matcher : List α → List α → ℕ}
    (h : Matches white Ends matcher) (text : List α) :
    Cuts white Ends text (split matcher text) := by
  have hcuts := cuts_splitFrom h text [] [] (by simp)
  rwa [modifyHead_nil_append] at hcuts

end TiktokSigner.Text
