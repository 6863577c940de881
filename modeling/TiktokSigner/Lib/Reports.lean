import Mathlib.Data.List.Basic

/-!
# Reports of a stateful observer

An observer takes one input at a time and may report something. What it
reports over a run is a list. `reports_eq_filterMap` is the rule for an
observer whose state does not matter in the end: on inputs that stand in
order, it reports what each input says on its own. Where the state does
matter, a reference says what each input is told, given those before it,
and `answers_eq_told` is the rule.
-/

namespace Reports

variable {σ α β : Type*}

/-- Everything reported over a run, in order. -/
def reports (step : σ → α → σ × Option β) : σ → List α → List β
  | _, [] => []
  | s, a :: as => (step s a).2.toList ++ reports step (step s a).1 as

/-- Every input is in order after those before it. -/
def InOrder (Ok : List α → α → Prop) : List α → List α → Prop
  | _, [] => True
  | before, a :: as => Ok before a ∧ InOrder Ok (before ++ [a]) as

/-- An invariant of the inputs so far and the state, kept by every step on
an input in order that reports as `f` says. -/
theorem reports_eq_filterMap {step : σ → α → σ × Option β} {f : α → Option β}
    {Ok : List α → α → Prop} {Inv : List α → σ → Prop}
    (hstep : ∀ before s a, Inv before s → Ok before a →
      (step s a).2 = f a ∧ Inv (before ++ [a]) (step s a).1) :
    ∀ {inputs before : List α} {s : σ}, Inv before s → InOrder Ok before inputs →
      reports step s inputs = inputs.filterMap f := by
  intro inputs
  induction inputs with
  | nil =>
    intro before s _ _
    rfl
  | cons a as ih =>
    intro before s hinv ⟨hok, horder⟩
    obtain ⟨hreport, hinv'⟩ := hstep before s a hinv hok
    rw [reports, hreport, ih hinv' horder, List.filterMap_cons]
    cases f a <;> rfl

/-! ## Against a reference -/

/-- What every input of a run is answered, in order. -/
def answers (step : σ → α → σ × Option β) : σ → List α → List (Option β)
  | _, [] => []
  | s, a :: as => (step s a).2 :: answers step (step s a).1 as

/-- The state after a run. -/
def after (step : σ → α → σ × Option β) (s : σ) (as : List α) : σ :=
  as.foldl (fun s a => (step s a).1) s

/-- What every input is told that stands behind the ones before it. -/
def told (ref : List α → α → Option β) : List α → List α → List (Option β)
  | _, [] => []
  | before, a :: as => ref before a :: told ref (before ++ [a]) as

/-- An invariant of the inputs so far and the state, kept by every step on
an input in order that answers as the reference does. -/
theorem answers_eq_told {step : σ → α → σ × Option β} {ref : List α → α → Option β}
    {Ok : List α → α → Prop} {Inv : List α → σ → Prop}
    (hstep : ∀ before s a, Inv before s → Ok before a →
      (step s a).2 = ref before a ∧ Inv (before ++ [a]) (step s a).1) :
    ∀ {inputs before : List α} {s : σ}, Inv before s → InOrder Ok before inputs →
      answers step s inputs = told ref before inputs ∧
        Inv (before ++ inputs) (after step s inputs) := by
  intro inputs
  induction inputs with
  | nil =>
    intro before s hinv _
    exact ⟨rfl, by rwa [List.append_nil]⟩
  | cons a as ih =>
    intro before s hinv ⟨hok, horder⟩
    obtain ⟨hanswer, hinv'⟩ := hstep before s a hinv hok
    obtain ⟨hrest, hafter⟩ := ih hinv' horder
    refine ⟨by rw [answers, told, hanswer, hrest], ?_⟩
    rwa [List.append_assoc] at hafter

theorem inOrder_of_forall {Ok : List α → α → Prop} :
    ∀ {inputs before : List α},
      (∀ front a, before ++ front ++ [a] <+: before ++ inputs → Ok (before ++ front) a) →
      InOrder Ok before inputs := by
  intro inputs
  induction inputs with
  | nil => exact fun _ => trivial
  | cons a as ih =>
    intro before h
    refine ⟨?_, ih fun front b hprefix => ?_⟩
    · have hok := h [] a (by simp)
      rwa [List.append_nil] at hok
    · have hok := h (a :: front) b (by simpa using hprefix)
      rwa [List.append_cons] at hok

/-- A reference that only looks at some of the inputs tells these what it
would tell them alone. -/
theorem told_filter {ref : List α → α → Option β} {p : α → Bool}
    (href : ∀ before a, p a = true → ref before a = ref (before.filter p) a) :
    ∀ inputs before : List α,
      (inputs.zip (told ref before inputs)).filter (fun pair => p pair.1) =
        (inputs.filter p).zip (told ref (before.filter p) (inputs.filter p)) := by
  intro inputs
  induction inputs with
  | nil => exact fun _ => rfl
  | cons a as ih =>
    intro before
    have hrest := ih (before ++ [a])
    rw [told, List.zip_cons_cons]
    by_cases ha : p a = true
    · rw [List.filter_append, List.filter_cons_of_pos ha, List.filter_nil] at hrest
      rw [List.filter_cons_of_pos (by simpa using ha), List.filter_cons_of_pos ha, told,
        List.zip_cons_cons, hrest, href before a ha]
    · rw [List.filter_append, List.filter_cons_of_neg (by simpa using ha), List.filter_nil,
        List.append_nil] at hrest
      rw [List.filter_cons_of_neg (by simpa using ha), List.filter_cons_of_neg (by simpa using ha),
        hrest]

theorem length_told (ref : List α → α → Option β) :
    ∀ inputs before : List α, (told ref before inputs).length = inputs.length
  | [], _ => rfl
  | a :: as, before => by rw [told, List.length_cons, length_told ref as, List.length_cons]

/-- The answers stand beside the inputs. -/
theorem map_zip_told (ref : List α → α → Option β) (inputs before : List α) :
    (inputs.zip (told ref before inputs)).map (·.2) = told ref before inputs :=
  List.map_snd_zip (Nat.le_of_eq (length_told ref inputs before))

end Reports
