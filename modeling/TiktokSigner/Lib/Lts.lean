import Mathlib.Data.List.Basic
import Mathlib.Data.Option.Basic

/-!
# Runs of a partial transition function

A system is a function `step : σ → α → Option σ`: an action either is not
enabled in a state or leads to exactly one state. Nondeterminism (the
scheduler, the environment) is in the choice of actions, so a run is a
list of actions and `run` replays it.

`AllMeet P` restricts runs instead of states: every step of the run is
taken where `P` allows it. `run_invariant` is the induction rule both for
plain runs (`P` trivially true) and for restricted ones.
-/

namespace Lts

variable {σ α : Type*}

/-- Replay a list of actions; `none` when one of them is not enabled. -/
def run (step : σ → α → Option σ) : σ → List α → Option σ
  | s, [] => some s
  | s, a :: as => (step s a).bind fun s' => run step s' as

/-- Every step of the run is taken in a state where `P` allows its action. -/
def AllMeet (step : σ → α → Option σ) (P : σ → α → Prop) : σ → List α → Prop
  | _, [] => True
  | s, a :: as => P s a ∧ ∀ s', step s a = some s' → AllMeet step P s' as

variable {step : σ → α → Option σ}

@[simp] theorem run_nil (s : σ) : run step s [] = some s := rfl

theorem run_cons (s : σ) (a : α) (as : List α) :
    run step s (a :: as) = (step s a).bind fun s' => run step s' as := rfl

theorem run_cons_eq_some {s t : σ} {a : α} {as : List α} :
    run step s (a :: as) = some t ↔
      ∃ s', step s a = some s' ∧ run step s' as = some t := by
  rw [run_cons, Option.bind_eq_some_iff]

theorem run_append : ∀ (s : σ) (as bs : List α),
    run step s (as ++ bs) = (run step s as).bind fun s' => run step s' bs
  | _, [], _ => rfl
  | s, a :: as, bs => by
      rw [List.cons_append, run_cons, run_cons, Option.bind_assoc]
      exact Option.bind_congr fun s' _ => run_append s' as bs

theorem run_append_eq_some {s t : σ} {as bs : List α} :
    run step s (as ++ bs) = some t ↔ ∃ u, run step s as = some u ∧ run step u bs = some t := by
  rw [run_append, Option.bind_eq_some_iff]

theorem run_concat_eq_some {s t : σ} {as : List α} {a : α} :
    run step s (as ++ [a]) = some t ↔ ∃ u, run step s as = some u ∧ step u a = some t := by
  rw [run_append_eq_some]
  simp [run_cons]

instance decidableAllMeet (P : σ → α → Prop) [∀ s a, Decidable (P s a)] :
    ∀ (s : σ) (as : List α), Decidable (AllMeet step P s as)
  | _, [] => isTrue trivial
  | s, a :: as =>
      match h : step s a with
      | none => decidable_of_iff (P s a) (by simp [AllMeet, h])
      | some s' =>
          have := decidableAllMeet P s' as
          decidable_of_iff (P s a ∧ AllMeet step P s' as) (by simp [AllMeet, h])

/-- An invariant kept by every allowed step holds at the end of every run
made of allowed steps. -/
theorem run_invariant {P : σ → α → Prop} {I : σ → Prop}
    (hstep : ∀ s a s', I s → P s a → step s a = some s' → I s') :
    ∀ {as : List α} {s t : σ}, I s → AllMeet step P s as →
      run step s as = some t → I t
  | [], s, t, hs, _, hrun => by
      obtain rfl := Option.some.inj hrun
      exact hs
  | a :: as, s, t, hs, ⟨hP, hrest⟩, hrun => by
      obtain ⟨s', hs', hrun'⟩ := run_cons_eq_some.mp hrun
      exact run_invariant hstep (hstep s a s' hs hP hs') (hrest s' hs') hrun'

theorem allMeet_of_forall {P : σ → α → Prop} (h : ∀ s a, P s a) :
    ∀ (s : σ) (as : List α), AllMeet step P s as
  | _, [] => trivial
  | s, a :: as => ⟨h s a, fun s' _ => allMeet_of_forall h s' as⟩

theorem AllMeet.mono {P Q : σ → α → Prop} (hPQ : ∀ s a, P s a → Q s a) {s : σ} {as : List α}
    (h : AllMeet step P s as) : AllMeet step Q s as := by
  induction as generalizing s with
  | nil => trivial
  | cons a as ih => exact ⟨hPQ s a h.1, fun s' hs' => ih (h.2 s' hs')⟩

theorem allMeet_of_forall_mem {P : σ → α → Prop} {as : List α} (h : ∀ a ∈ as, ∀ s, P s a) (s : σ) :
    AllMeet step P s as := by
  induction as generalizing s with
  | nil => trivial
  | cons a as ih =>
    exact ⟨h a List.mem_cons_self s, fun s' _ => ih (fun b hb => h b (List.mem_cons_of_mem a hb)) s'⟩

/-- The induction rule for runs without a restriction on their steps. -/
theorem run_invariant_all {I : σ → Prop}
    (hstep : ∀ s a s', I s → step s a = some s' → I s')
    {as : List α} {s t : σ} (hs : I s) (hrun : run step s as = some t) :
    I t :=
  run_invariant (P := fun _ _ => True) (fun s a s' hi _ h => hstep s a s' hi h)
    hs (allMeet_of_forall (fun _ _ => trivial) s as) hrun

/-- The induction rule for a law that the first disallowed step breaks for
good: at the end of a run the broken states are exactly those of runs with
a disallowed step. -/
theorem allMeet_iff_of_run {P : σ → α → Prop} {I B : σ → Prop}
    (hkeep : ∀ s a s', I s → P s a → step s a = some s' → I s')
    (hbreak : ∀ s a s', I s → ¬P s a → step s a = some s' → B s')
    (hstay : ∀ s a s', B s → step s a = some s' → B s') (hapart : ∀ s, I s → ¬B s)
    {as : List α} {s t : σ} (hs : I s) (hrun : run step s as = some t) :
    AllMeet step P s as ↔ ¬B t := by
  induction as generalizing s with
  | nil =>
    obtain rfl := Option.some.inj hrun
    exact ⟨fun _ => hapart s hs, fun _ => trivial⟩
  | cons a as ih =>
    obtain ⟨s', hs', hrun'⟩ := run_cons_eq_some.mp hrun
    by_cases hP : P s a
    · rw [← ih (hkeep s a s' hs hP hs') hrun']
      refine ⟨fun h => h.2 s' hs', fun h => ⟨hP, fun u hu => ?_⟩⟩
      rwa [← Option.some.inj (hs'.symm.trans hu)]
    · have hB : B t := run_invariant_all hstay (hbreak s a s' hs hP hs') hrun'
      exact ⟨fun h => absurd h.1 hP, fun h => absurd hB h⟩

/-- `Q` holds in every state of the run. -/
def Always (step : σ → α → Option σ) (Q : σ → Prop) (s : σ) (as : List α) : Prop :=
  ∀ bs, bs <+: as → ∀ t, run step s bs = some t → Q t

theorem always_cons {Q : σ → Prop} {s s' : σ} {a : α} {as : List α} (hs : step s a = some s') :
    Always step Q s (a :: as) ↔ Q s ∧ Always step Q s' as := by
  constructor
  · intro h
    refine ⟨h [] List.nil_prefix s rfl, fun bs hbs t hrun => ?_⟩
    exact h (a :: bs) ((List.prefix_cons_inj a).mpr hbs) t (run_cons_eq_some.mpr ⟨s', hs, hrun⟩)
  · rintro ⟨hQ, h⟩ bs hbs t hrun
    cases bs with
    | nil =>
      obtain rfl := Option.some.inj hrun
      exact hQ
    | cons b bs =>
      obtain ⟨rfl, htail⟩ := List.cons_prefix_cons.mp hbs
      obtain ⟨u, hu, hrun⟩ := run_cons_eq_some.mp hrun
      rw [hs] at hu
      obtain rfl := Option.some.inj hu
      exact h bs htail t hrun

/-- The induction rule for a property that a step keeps exactly when it is
allowed, under an invariant of all runs. -/
theorem always_iff_allMeet {P : σ → α → Prop} {I Q : σ → Prop}
    (hinv : ∀ s a s', I s → step s a = some s' → I s')
    (hiff : ∀ s a s', I s → Q s → step s a = some s' → (Q s' ↔ P s a))
    {as : List α} {s t : σ} (hI : I s) (hQ : Q s) (hrun : run step s as = some t) :
    Always step Q s as ↔ AllMeet step P s as := by
  induction as generalizing s with
  | nil =>
    refine ⟨fun _ => trivial, fun _ bs hbs u hu => ?_⟩
    obtain rfl := List.prefix_nil.mp hbs
    obtain rfl := Option.some.inj hu
    exact hQ
  | cons a as ih =>
    obtain ⟨s', hs', hrun'⟩ := run_cons_eq_some.mp hrun
    have hstep := hiff s a s' hI hQ hs'
    rw [always_cons hs', and_iff_right hQ]
    constructor
    · intro h
      have hQ' := h [] List.nil_prefix s' rfl
      refine ⟨hstep.mp hQ', fun u hu => ?_⟩
      rw [hs'] at hu
      obtain rfl := Option.some.inj hu
      exact (ih (hinv s a s' hI hs') hQ' hrun').mp h
    · intro h
      exact (ih (hinv s a s' hI hs') (hstep.mpr h.1) hrun').mpr (h.2 s' hs')

/-- Refinement along a run: an abstract state that follows every action with
`spec` stays related to the system's. -/
theorem run_refines {β : Type*} {spec : β → α → β} {R : β → σ → Prop}
    (hstep : ∀ m s a s', R m s → step s a = some s' → R (spec m a) s')
    {as : List α} {m : β} {s t : σ} (hs : R m s) (hrun : run step s as = some t) :
    R (as.foldl spec m) t := by
  induction as generalizing m s with
  | nil =>
    obtain rfl := Option.some.inj hrun
    exact hs
  | cons a as ih =>
    obtain ⟨s', hs', hrun'⟩ := run_cons_eq_some.mp hrun
    exact ih (hstep m s a s' hs hs') hrun'

/-- The final state of a concrete run, by evaluating a check on it and
drawing the conclusion from the check. -/
theorem exists_run {s : σ} {as : List α} {P Q : σ → Prop} [DecidablePred P]
    (h : ((run step s as).any fun t => decide (P t)) = true)
    (hPQ : ∀ t, run step s as = some t → P t → Q t) :
    ∃ t, run step s as = some t ∧ Q t := by
  obtain ⟨t, ht, hP⟩ := (Option.any_eq_true _ _).mp h
  exact ⟨t, ht, hPQ t ht (of_decide_eq_true hP)⟩

end Lts
