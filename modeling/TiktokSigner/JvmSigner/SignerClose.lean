import TiktokSigner.JvmSigner.GraalJsSigner

/-!
# What a closed signer leaves behind

A future that is not complete is in `pending` from `put` on, so the one
step of `retire` that completes `pending` completes every future `sign` has
returned (`Waiting`). What comes after that step is not seen by it:
`InTime` rules out the one thing that then goes wrong, a task that the
worker still takes, and `signer_leaves_none_waiting` is what holds of every
other run.

Contexts need no such condition. One that is open is in the field, or its
task is about to put it there and looks at `closed` afterwards (`Contexts`).
-/

namespace TiktokSigner.JvmSigner

open Function (update)

/-- From `put` on, unless the call is rejected. -/
def Signing.isPut : Signing → Bool
  | .schedule | .whenComplete | .execute | .returned => true
  | .absent | .putPending | .rejected => false

/-- The worker is about to call `retire`. -/
def Worker.retires : Worker → Bool
  | .running _ .setClosed | .running _ .completeFailed => true
  | _ => false

namespace State

/-! ## The property -/

/-- No step of `sign`, `close` or the worker's task is in progress. -/
structure Quiescent (s : State) : Prop where
  signing : ∀ i, s.signing i = .absent ∨ s.signing i = .returned
  worker : ∀ i task, s.worker ≠ .running i task
  expired : s.expired = false
  retires : s.retires = []

def LeavesNoneWaiting (s : State) : Prop :=
  s.closed = true → s.Quiescent →
    (∀ i, s.signing i = .returned → s.outcome i ≠ none) ∧ ∀ c, s.isOpen c = false

/-! ## The condition -/

/-- `pending` is still to be gone over by a `retire`. -/
def sweepAhead (s : State) : Bool :=
  s.retires.any (·.2 = .completePending) || s.worker.retires

/-- The worker takes no task whose future the last `retire` has missed. -/
def InTime (capacity : Nat) (s : State) : Action → Prop
  | .execute i =>
      s.accepts capacity = true → s.closed = true → s.sweepAhead = false →
        (s.outcome i).isSome = true
  | _ => True

instance (capacity : Nat) (s : State) : ∀ a, Decidable (s.InTime capacity a)
  | .execute _ => inferInstanceAs (Decidable (_ → _))
  | .sign _ | .putPending _ | .schedule _ | .whenComplete _ | .reject _ | .take | .work _
  | .expire _ | .expireClose | .cancel _ | .close | .retire _ => isTrue trivial

/-! ## Effects of completing and closing -/

variable {s t : State} {owner : Owner} {i : Nat} {capacity : Nat}

theorem closeBy_cases (s : State) (owner : Owner) :
    s.closeBy owner = s ∧ s.closed = true ∨
      s.closeBy owner =
        { s with closed := true, retires := s.retires ++ [(owner, .completePending)] } := by
  rw [closeBy]
  split_ifs with h
  · exact Or.inl ⟨rfl, h⟩
  · exact Or.inr rfl

/-- Completing a future touches its own entries only, and may close. -/
theorem complete_cases (s : State) (owner : Owner) (i : Nat) (x : Outcome) :
    s.complete owner i x = s ∧ (s.outcome i).isSome = true ∨
      ∃ deadline pending, (∀ j, j ≠ i → pending j = s.pending j) ∧
        let t : State := { s with
          outcome := Promises.complete s.outcome i x, deadline := deadline, pending := pending }
        s.complete owner i x = t ∨ s.complete owner i x = t.closeBy owner := by
  by_cases hdone : (s.outcome i).isSome = true
  · left
    rw [complete, if_pos hdone]
    exact ⟨rfl, hdone⟩
  · right
    rw [complete, if_neg hdone]
    by_cases hcallback : s.callback i = true
    · refine ⟨update s.deadline i false, update s.pending i false, ?_, ?_⟩
      · intro j hj
        exact Function.update_of_ne hj _ _
      · simp only [hcallback, if_true, onComplete]
        split_ifs
        · exact Or.inr rfl
        · exact Or.inl rfl
    · refine ⟨s.deadline, s.pending, fun _ _ => rfl, Or.inl ?_⟩
      simp only [hcallback, Bool.false_eq_true, if_false]

@[simp] theorem complete_worker (s : State) (owner : Owner) (i : Nat) (x : Outcome) :
    (s.complete owner i x).worker = s.worker := by
  rcases complete_cases s owner i x with ⟨heq, -⟩ | ⟨_, _, -, heq | heq⟩
  · rw [heq]
  · rw [heq]
  · rw [heq]
    rcases closeBy_cases _ owner with ⟨heq, -⟩ | heq <;> rw [heq]

/-- Most steps of a task do not touch what the callers wait for. -/
theorem workStep_quiet {task : Task} {ok : Bool} (hworker : s.worker = .running i task)
    (hquiet : s.worker.retires = false) (hcall : task ≠ .call) (hs : s.workStep ok = some t) :
    t.outcome = s.outcome ∧ t.signing = s.signing ∧ t.pending = s.pending ∧
      t.closed = s.closed ∧ t.retires = s.retires := by
  rw [hworker] at hquiet
  cases task
  case call => exact absurd rfl hcall
  case setClosed | completeFailed => cases hquiet
  all_goals
    simp only [workStep, hworker] at hs
    try split_ifs at hs
    all_goals
      cases hs
      exact ⟨rfl, rfl, rfl, rfl, rfl⟩

section Lists

variable {α : Type} {l : List α} {k : Nat} {x y : α} {p : α → Bool}

theorem any_set (hk : l[k]? = some y) (hxy : p x = p y) : (l.set k x).any p = l.any p := by
  induction l generalizing k with
  | nil => rfl
  | cons a l ih =>
    cases k with
    | zero =>
      cases hk
      rw [List.set_cons_zero, List.any_cons, List.any_cons, hxy]
    | succ k => rw [List.set_cons_succ, List.any_cons, List.any_cons, ih hk]

theorem any_eraseIdx (hk : l[k]? = some y) (hy : p y = false) : (l.eraseIdx k).any p = l.any p := by
  induction l generalizing k with
  | nil => rfl
  | cons a l ih =>
    cases k with
    | zero =>
      cases hk
      rw [List.eraseIdx_cons_zero, List.any_cons, hy, Bool.false_or]
    | succ k => rw [List.eraseIdx_cons_succ, List.any_cons, List.any_cons, ih hk]

end Lists

/-! ## Futures -/

/-- What `pending` has, and what the steps of `retire` leave of it. -/
structure Waiting (s : State) : Prop where
  pending : ∀ i, s.outcome i = none → (s.signing i).isPut = true → s.pending i = true
  swept : s.closed = true → s.sweepAhead = false →
    ∀ i, s.signing i = .returned → s.outcome i ≠ none

namespace Waiting

theorem closeBy (h : s.Waiting) (owner : Owner) : (s.closeBy owner).Waiting := by
  rcases closeBy_cases s owner with ⟨heq, -⟩ | heq
  · rw [heq]
    exact h
  · rw [heq]
    constructor
    · exact h.pending
    · intro _ hsweep
      simp [sweepAhead] at hsweep

/-- A step that completes one future, whatever else it does to its call. -/
theorem of_others (h : s.Waiting) (houtcome : ∀ j, j ≠ i → t.outcome j = s.outcome j)
    (hsigning : ∀ j, j ≠ i → t.signing j = s.signing j)
    (hpending : ∀ j, j ≠ i → t.pending j = s.pending j) (hdone : t.outcome i ≠ none)
    (hsweep : t.closed = true → t.sweepAhead = false → s.closed = true ∧ s.sweepAhead = false) :
    t.Waiting := by
  constructor
  · intro j hnone hput
    by_cases hj : j = i
    · rw [hj] at hnone
      exact absurd hnone hdone
    · rw [houtcome j hj] at hnone
      rw [hsigning j hj] at hput
      rw [hpending j hj]
      exact h.pending j hnone hput
  · intro hclosed hahead j hreturned
    by_cases hj : j = i
    · rw [hj]
      exact hdone
    · rw [houtcome j hj]
      rw [hsigning j hj] at hreturned
      obtain ⟨hclosed, hahead⟩ := hsweep hclosed hahead
      exact h.swept hclosed hahead j hreturned

theorem completes {deadline pending : Nat → Bool} {x : Outcome} (h : s.Waiting)
    (hpending : ∀ j, j ≠ i → pending j = s.pending j) :
    State.Waiting { s with
      outcome := Promises.complete s.outcome i x, deadline := deadline, pending := pending } :=
  h.of_others (fun _ hj => Promises.complete_of_ne hj) (fun _ _ => rfl) hpending
    (by simp) fun hc ha => ⟨hc, ha⟩

theorem complete (h : s.Waiting) (owner : Owner) (i : Nat) (x : Outcome) :
    (s.complete owner i x).Waiting := by
  rcases complete_cases s owner i x with ⟨heq, -⟩ | ⟨_, _, hpending, heq | heq⟩
  · rw [heq]
    exact h
  · rw [heq]
    exact h.completes hpending
  · rw [heq]
    exact (h.completes hpending).closeBy owner

/-- The callback of a future that is complete. -/
theorem onComplete (h : s.Waiting) (hdone : s.outcome i ≠ none) :
    (s.onComplete owner i).Waiting := by
  have ht : State.Waiting { s with
      deadline := update s.deadline i false, pending := update s.pending i false } :=
    h.of_others (fun _ _ => rfl) (fun _ _ => rfl) (fun _ hj => Function.update_of_ne hj _ _) hdone
      fun hc ha => ⟨hc, ha⟩
  rw [State.onComplete]
  split_ifs
  · exact ht.closeBy owner
  · exact ht

/-- A call of `sign` goes on, neither from before `put` nor to its end. -/
theorem signing {x : Signing} (h : s.Waiting) (hput : x.isPut = true → (s.signing i).isPut = true)
    (hreturned : x ≠ .returned) :
    State.Waiting { s with signing := update s.signing i x } := by
  constructor
  · intro j hnone hj
    by_cases hji : j = i
    · subst hji
      simp only [Function.update_self] at hj
      exact h.pending j hnone (hput hj)
    · simp only [Function.update_of_ne hji] at hj
      exact h.pending j hnone hj
  · intro hclosed hsweep j hj
    by_cases hji : j = i
    · subst hji
      exact absurd (by simpa using hj) hreturned
    · simp only [Function.update_of_ne hji] at hj
      exact h.swept hclosed hsweep j hj

/-- A call of `sign` returns a complete future, or one that a `retire` is
still going to see. -/
theorem returns (h : s.Waiting) (hput : s.outcome i = none → s.pending i = true)
    (hdone : s.closed = true → s.sweepAhead = false → s.outcome i ≠ none) :
    State.Waiting { s with signing := update s.signing i .returned } := by
  constructor
  · intro j hnone hj
    by_cases hji : j = i
    · subst hji
      exact hput hnone
    · simp only [Function.update_of_ne hji] at hj
      exact h.pending j hnone hj
  · intro hclosed hsweep j hj
    by_cases hji : j = i
    · subst hji
      exact hdone hclosed hsweep
    · simp only [Function.update_of_ne hji] at hj
      exact h.swept hclosed hsweep j hj

/-- Steps that touch neither the calls nor `pending`, and no sweep ahead. -/
theorem of_eq (h : s.Waiting) (houtcome : t.outcome = s.outcome) (hsigning : t.signing = s.signing)
    (hpending : t.pending = s.pending)
    (hsweep : t.closed = true → t.sweepAhead = false → s.closed = true ∧ s.sweepAhead = false) :
    t.Waiting := by
  constructor
  · rw [houtcome, hsigning, hpending]
    exact h.pending
  · intro hclosed hahead
    rw [houtcome, hsigning]
    exact h.swept (hsweep hclosed hahead).1 (hsweep hclosed hahead).2

/-- A step of a task that is not about to call `retire`. -/
theorem of_task (h : s.Waiting) (houtcome : t.outcome = s.outcome) (hsigning : t.signing = s.signing)
    (hpending : t.pending = s.pending) (hclosed : t.closed = s.closed)
    (hretires : t.retires = s.retires) (hworker : s.worker.retires = false) : t.Waiting := by
  refine h.of_eq houtcome hsigning hpending ?_
  intro htclosed hahead
  rw [sweepAhead, hretires, Bool.or_eq_false_iff] at hahead
  exact ⟨hclosed ▸ htclosed, by rw [sweepAhead, hahead.1, hworker]; rfl⟩

/-- A step of a `retire` past `pending`. -/
theorem of_retires (h : s.Waiting) (houtcome : t.outcome = s.outcome)
    (hsigning : t.signing = s.signing) (hpending : t.pending = s.pending)
    (hclosed : t.closed = s.closed) (hworker : t.worker = s.worker)
    (hretires : t.retires.any (fun r => decide (r.2 = .completePending)) =
      s.retires.any fun r => decide (r.2 = .completePending)) : t.Waiting := by
  refine h.of_eq houtcome hsigning hpending ?_
  intro htclosed hahead
  rw [sweepAhead, hretires, hworker] at hahead
  exact ⟨hclosed ▸ htclosed, hahead⟩

theorem workStep {ok : Bool} (h : s.Waiting) (hs : s.workStep ok = some t) : t.Waiting := by
  rcases hworker : s.worker with _ | _ | ⟨i, task⟩
  · simp [State.workStep, hworker] at hs
  · simp [State.workStep, hworker] at hs
  cases task with
  | call =>
    have hquiet : s.worker.retires = false := by rw [hworker]; rfl
    simp only [State.workStep, hworker] at hs
    split_ifs at hs <;> cases hs
    · refine (h.complete .worker i .signed).of_task rfl rfl rfl rfl rfl ?_
      rw [complete_worker, hquiet]
    · exact h.of_task rfl rfl rfl rfl rfl hquiet
  | setClosed =>
    simp only [State.workStep, hworker, Option.some.injEq] at hs
    subst hs
    refine h.of_eq rfl rfl rfl ?_
    intro _ hahead
    simp [sweepAhead, Worker.retires] at hahead
  | completeFailed =>
    simp only [State.workStep, hworker, Option.some.injEq] at hs
    subst hs
    refine (h.complete .worker i .failed).of_eq rfl rfl rfl ?_
    intro _ hahead
    simp [sweepAhead] at hahead
  | _ =>
    have hquiet : s.worker.retires = false := by rw [hworker]; rfl
    obtain ⟨houtcome, hsigning, hpending, hclosed, hretires⟩ :=
      workStep_quiet hworker hquiet nofun hs
    exact h.of_task houtcome hsigning hpending hclosed hretires hquiet

/-- Going over `pending` completes what `sign` has returned. -/
theorem completePending (h : s.Waiting) (k : Nat) (owner : Owner) :
    State.Waiting { s.completePending with
      retires := s.retires.set k (owner, .shutdownWorker) } := by
  constructor
  · intro i hnone hput
    obtain ⟨hnot, hnone⟩ := Promises.completeAll_eq_none.mp hnone
    rw [h.pending i hnone hput] at hnot
    cases hnot
  · intro _ _ i hreturned hnone
    obtain ⟨hnot, hnone⟩ := Promises.completeAll_eq_none.mp hnone
    have hput : (s.signing i).isPut = true := by
      rw [show s.signing i = .returned from hreturned]
      rfl
    rw [h.pending i hnone hput] at hnot
    cases hnot

theorem retireStep {k : Nat} (h : s.Waiting) (hs : s.retireStep k = some t) : t.Waiting := by
  unfold State.retireStep at hs
  split at hs
  case h_1 => cases hs
  case h_2 owner hk =>
    cases hs
    exact h.completePending k owner
  case h_3 owner hk =>
    cases hs
    exact h.of_retires rfl rfl rfl rfl rfl (any_set hk rfl)
  case h_4 owner hk =>
    cases hs
    exact h.of_retires rfl rfl rfl rfl rfl (any_set hk rfl)
  case h_5 owner hk =>
    cases hs
    exact h.of_retires rfl rfl rfl rfl rfl (any_eraseIdx hk rfl)

theorem putPending (h : s.Waiting) :
    State.Waiting { s with
      signing := update s.signing i .schedule, pending := update s.pending i true } := by
  constructor
  · intro j hnone hput
    by_cases hj : j = i
    · rw [hj]
      exact Function.update_self _ _ _
    · simp only [Function.update_of_ne hj] at hput ⊢
      exact h.pending j hnone hput
  · intro hclosed hahead j hreturned
    by_cases hj : j = i
    · rw [hj] at hreturned
      simp at hreturned
    · simp only [Function.update_of_ne hj] at hreturned
      exact h.swept hclosed hahead j hreturned

theorem executeStep (h : s.Waiting) (hs : s.executeStep capacity i = some t)
    (hin : s.InTime capacity (.execute i)) : t.Waiting := by
  unfold State.executeStep at hs
  split_ifs at hs with hphase haccepts
  · have hreturned : State.Waiting { s with signing := update s.signing i .returned } := by
      refine h.returns ?_ ?_
      · intro hnone
        exact h.pending i hnone (by rw [hphase]; rfl)
      · intro hclosed hahead hnone
        have hdone := hin haccepts hclosed hahead
        rw [hnone] at hdone
        cases hdone
    simp only [Option.some.injEq] at hs
    split_ifs at hs with habsent
    · subst hs
      exact hreturned.of_task rfl rfl rfl rfl rfl
        (by rw [show s.worker = .absent from habsent]; rfl)
    · subst hs
      exact hreturned.of_eq rfl rfl rfl fun hc ha => ⟨hc, ha⟩
  · cases hs
    exact h.signing (fun hput => by cases hput) (by decide)

/-- A rejected call leaves `pending` and completes its future. -/
theorem rejected (h : s.Waiting) :
    (State.complete { s with
      signing := update s.signing i .returned, pending := update s.pending i false }
      .caller i .failed).Waiting := by
  have hothers : ∀ {deadline pending : Nat → Bool} {outcome : Nat → Option Outcome},
      (∀ j, j ≠ i → outcome j = s.outcome j) → (∀ j, j ≠ i → pending j = s.pending j) →
      outcome i ≠ none → State.Waiting { s with
        signing := update s.signing i .returned
        outcome := outcome, deadline := deadline, pending := pending } := by
    intro deadline pending outcome houtcome hpending hdone
    exact h.of_others houtcome (fun _ hj => Function.update_of_ne hj _ _) hpending hdone
      fun hc ha => ⟨hc, ha⟩
  have hcleared : ∀ j, j ≠ i → update s.pending i false j = s.pending j :=
    fun _ hj => Function.update_of_ne hj _ _
  have hcompleted : ∀ j, j ≠ i → Promises.complete s.outcome i .failed j = s.outcome j :=
    fun _ hj => Promises.complete_of_ne hj
  rcases complete_cases { s with
      signing := update s.signing i .returned, pending := update s.pending i false }
    .caller i .failed with ⟨heq, hdone⟩ | ⟨_, _, hpending, heq | heq⟩
  · rw [heq]
    exact hothers (fun _ _ => rfl) hcleared (Option.isSome_iff_ne_none.mp hdone)
  · rw [heq]
    exact hothers hcompleted (fun j hj => (hpending j hj).trans (hcleared j hj)) (by simp)
  · rw [heq]
    exact (hothers hcompleted (fun j hj => (hpending j hj).trans (hcleared j hj))
      (by simp)).closeBy .caller

theorem step {a : Action} (h : s.Waiting) (hin : s.InTime capacity a)
    (hs : s.step capacity a = some t) : t.Waiting := by
  cases a with
  | sign i =>
    simp only [State.step, signStep] at hs
    split_ifs at hs with habsent hclosed
    · cases hs
      exact h.of_others (fun _ hj => Promises.complete_of_ne hj)
        (fun _ hj => Function.update_of_ne hj _ _) (fun _ _ => rfl) (by simp)
        fun hc ha => ⟨hc, ha⟩
    · cases hs
      exact h.signing (fun hput => by cases hput) (by decide)
  | putPending i =>
    simp only [State.step, putPendingStep] at hs
    split_ifs at hs with hphase
    cases hs
    exact h.putPending
  | schedule i =>
    simp only [State.step, scheduleStep] at hs
    split_ifs at hs with hphase hdown
    · cases hs
      exact h.signing (fun hput => by cases hput) (by decide)
    · cases hs
      have hput : (s.signing i).isPut = true := by rw [hphase]; rfl
      exact (h.signing (fun _ => hput) (by decide)).of_eq rfl rfl rfl fun hc ha => ⟨hc, ha⟩
  | whenComplete i =>
    simp only [State.step, whenCompleteStep] at hs
    split_ifs at hs with hphase hdone
    all_goals
      cases hs
      have hput : (s.signing i).isPut = true := by rw [hphase]; rfl
      have ht : State.Waiting { s with
          signing := update s.signing i .execute, callback := update s.callback i true } :=
        (h.signing (fun _ => hput) (by decide)).of_eq rfl rfl rfl fun hc ha => ⟨hc, ha⟩
    · exact ht.onComplete (Option.isSome_iff_ne_none.mp hdone)
    · exact ht
  | execute i => exact h.executeStep hs hin
  | reject i =>
    simp only [State.step, rejectStep] at hs
    split_ifs at hs with hphase
    cases hs
    exact h.rejected
  | take =>
    simp only [State.step, takeStep] at hs
    split at hs
    case h_1 i queue hworker hqueue =>
      cases hs
      exact h.of_task rfl rfl rfl rfl rfl (by rw [hworker]; rfl)
    case h_2 => cases hs
  | work ok => exact h.workStep hs
  | expire i =>
    simp only [State.step, expireStep] at hs
    split_ifs at hs with hready
    cases hs
    have ht : State.Waiting { s with deadline := update s.deadline i false } :=
      h.of_eq rfl rfl rfl fun hc ha => ⟨hc, ha⟩
    exact (ht.complete .timer i .failed).of_eq rfl rfl rfl fun hc ha => ⟨hc, ha⟩
  | expireClose =>
    simp only [State.step, expireCloseStep] at hs
    split_ifs at hs with hexpired
    cases hs
    have ht : State.Waiting { s with expired := false } :=
      h.of_eq rfl rfl rfl fun hc ha => ⟨hc, ha⟩
    exact ht.closeBy .timer
  | cancel i =>
    simp only [State.step, cancelStep] at hs
    split_ifs at hs with hreturned
    cases hs
    exact h.complete .caller i .cancelled
  | close =>
    cases hs
    exact h.closeBy .caller
  | retire k => exact h.retireStep hs

end Waiting

/-! ## Contexts -/

end State

/-- The worker is about to close its context, or to retire. -/
def Worker.closes : Worker → Bool
  | .running _ (.checkClosed _) | .running _ .setClosed | .running _ .completeFailed => true
  | _ => false

namespace State

variable {s t : State} {owner : Owner} {i : Nat} {capacity : Nat}

/-- Where the open contexts are, and who is going to close them. -/
structure Contexts (s : State) : Prop where
  created : ∀ c, s.isOpen c = true → c < s.created
  held : ∀ c, s.isOpen c = true → s.context = some c ∨ ∃ i, s.worker = .running i (.assign c)
  assigning : ∀ i c, s.worker = .running i (.assign c) → s.context = none
  checking : ∀ i c, s.worker = .running i (.checkClosed c) → s.context = some c
  closing : s.closed = true → ∀ c, s.isOpen c = true → s.context = some c →
    s.retires ≠ [] ∨ s.worker.closes = true

namespace Contexts

/-- Steps that leave the contexts and the worker as they are. -/
theorem of_eq (h : s.Contexts) (hopen : t.isOpen = s.isOpen) (hcreated : t.created = s.created)
    (hcontext : t.context = s.context) (hworker : t.worker = s.worker)
    (hclosing : t.closed = true → t.retires ≠ [] ∨ s.closed = true ∧ t.retires = s.retires) :
    t.Contexts := by
  constructor
  · rw [hopen, hcreated]
    exact h.created
  · rw [hopen, hcontext, hworker]
    exact h.held
  · rw [hworker, hcontext]
    exact h.assigning
  · rw [hworker, hcontext]
    exact h.checking
  · intro hclosed c hc hfield
    rw [hopen] at hc
    rw [hcontext] at hfield
    rcases hclosing hclosed with hretires | ⟨hclosed, hretires⟩
    · exact Or.inl hretires
    · rw [hretires, hworker]
      exact h.closing hclosed c hc hfield

theorem closeBy (h : s.Contexts) (owner : Owner) : (s.closeBy owner).Contexts := by
  rcases closeBy_cases s owner with ⟨heq, -⟩ | heq
  · rw [heq]
    exact h
  · rw [heq]
    exact h.of_eq rfl rfl rfl rfl fun _ => Or.inl (by simp)

theorem complete (h : s.Contexts) (owner : Owner) (i : Nat) (x : Outcome) :
    (s.complete owner i x).Contexts := by
  rcases complete_cases s owner i x with ⟨heq, -⟩ | ⟨deadline, pending, -, heq⟩
  · rw [heq]
    exact h
  have ht : State.Contexts { s with
      outcome := Promises.complete s.outcome i x, deadline := deadline, pending := pending } :=
    h.of_eq rfl rfl rfl rfl fun hclosed => Or.inr ⟨hclosed, rfl⟩
  rcases heq with heq | heq
  · rw [heq]
    exact ht
  · rw [heq]
    exact ht.closeBy owner

theorem onComplete (h : s.Contexts) : (s.onComplete owner i).Contexts := by
  have ht : State.Contexts { s with
      deadline := update s.deadline i false, pending := update s.pending i false } :=
    h.of_eq rfl rfl rfl rfl fun hclosed => Or.inr ⟨hclosed, rfl⟩
  rw [State.onComplete]
  split_ifs
  · exact ht.closeBy owner
  · exact ht

/-- A step of the worker that has no context in its hands before or after. -/
theorem of_task {w : Worker} (h : s.Contexts) (hopen : t.isOpen = s.isOpen)
    (hcreated : t.created = s.created) (hcontext : t.context = s.context)
    (hclosed : t.closed = s.closed) (hretires : t.retires = s.retires) (hworker : t.worker = w)
    (hold : ∀ i c, s.worker ≠ .running i (.assign c))
    (hassign : ∀ i c, w ≠ .running i (.assign c))
    (hcheck : ∀ i c, w ≠ .running i (.checkClosed c))
    (hcloses : s.closed = true → s.worker.closes = true → w.closes = true) : t.Contexts := by
  constructor
  · rw [hopen, hcreated]
    exact h.created
  · intro c hc
    rw [hopen] at hc
    rw [hcontext]
    rcases h.held c hc with hfield | ⟨i, hi⟩
    · exact Or.inl hfield
    · exact absurd hi (hold i c)
  · intro i c hi
    exact absurd (hworker ▸ hi) (hassign i c)
  · intro i c hi
    exact absurd (hworker ▸ hi) (hcheck i c)
  · intro ht c hc hfield
    rw [hclosed] at ht
    rw [hopen] at hc
    rw [hcontext] at hfield
    rw [hretires, hworker]
    rcases h.closing ht c hc hfield with hsome | hsome
    · exact Or.inl hsome
    · exact Or.inr (hcloses ht hsome)

/-- `createContext`: the new context is in the task's hands. -/
theorem creates (h : s.Contexts) (hworker : s.worker = .running i .createContext)
    (hfield : s.context = none) :
    State.Contexts { s with
      worker := .running i (.assign s.created)
      created := s.created + 1
      isOpen := update s.isOpen s.created true } := by
  -- with an empty field nothing else is open
  have hnone : ∀ c, s.isOpen c = false := by
    intro c
    apply Bool.eq_false_iff.mpr
    intro hc
    rcases h.held c hc with hsome | ⟨j, hj⟩
    · rw [hfield] at hsome
      cases hsome
    · rw [hworker] at hj
      cases hj
  have hopen : ∀ c, update s.isOpen s.created true c = true → c = s.created := by
    intro c hc
    by_contra hne
    rw [Function.update_of_ne hne, hnone c] at hc
    cases hc
  constructor
  · intro c hc
    rw [hopen c hc]
    exact Nat.lt_succ_self _
  · intro c hc
    rw [hopen c hc]
    exact Or.inr ⟨i, rfl⟩
  · intro _ _ _
    exact hfield
  · intro j c hj
    cases hj
  · intro _ c _ hsome
    rw [show s.context = some c from hsome] at hfield
    cases hfield

theorem assigns {c : Nat} (h : s.Contexts) (hworker : s.worker = .running i (.assign c)) :
    State.Contexts { s with worker := .running i (.checkClosed c), context := some c } := by
  constructor
  · exact h.created
  · intro c' hc'
    rcases h.held c' hc' with hsome | ⟨j, hj⟩
    · rw [h.assigning i c hworker] at hsome
      cases hsome
    · rw [hworker] at hj
      cases hj
      exact Or.inl rfl
  · intro j c' hj
    cases hj
  · intro j c' hj
    cases hj
    rfl
  · intro _ _ _ _
    exact Or.inr rfl

/-- The task finds the signer closed and closes the context it has made. -/
theorem closesOwn {c : Nat} (h : s.Contexts) (hworker : s.worker = .running i (.checkClosed c)) :
    State.Contexts { s with
      worker := .running i .setClosed, isOpen := update s.isOpen c false } := by
  have hopen : ∀ c', update s.isOpen c false c' = true → s.isOpen c' = true := by
    intro c' hc'
    by_cases hne : c' = c
    · rw [hne, Function.update_self] at hc'
      cases hc'
    · rwa [Function.update_of_ne hne] at hc'
  constructor
  · intro c' hc'
    exact h.created c' (hopen c' hc')
  · intro c' hc'
    rcases h.held c' (hopen c' hc') with hsome | ⟨j, hj⟩
    · exact Or.inl hsome
    · rw [hworker] at hj
      cases hj
  · intro j c' hj
    cases hj
  · intro j c' hj
    cases hj
  · intro _ _ _ _
    exact Or.inr rfl

theorem setsClosed (h : s.Contexts) (hcloses : s.worker.closes = true) :
    State.Contexts { s with closed := true } := by
  constructor
  · exact h.created
  · exact h.held
  · exact h.assigning
  · exact h.checking
  · intro _ _ _ _
    exact Or.inr hcloses

/-- The worker starts a `retire`. -/
theorem retires {r : Owner × Retiring} (h : s.Contexts)
    (hold : ∀ i c, s.worker ≠ .running i (.assign c)) :
    State.Contexts { s with worker := .running i .retire, retires := s.retires ++ [r] } := by
  constructor
  · exact h.created
  · intro c hc
    rcases h.held c hc with hsome | ⟨j, hj⟩
    · exact Or.inl hsome
    · exact absurd hj (hold j c)
  · intro j c hj
    cases hj
  · intro j c hj
    cases hj
  · intro _ _ _ _
    exact Or.inl (by simp)

theorem workStep {ok : Bool} (h : s.Contexts) (hs : s.workStep ok = some t) : t.Contexts := by
  rcases hworker : s.worker with _ | _ | ⟨i, task⟩
  · simp [State.workStep, hworker] at hs
  · simp [State.workStep, hworker] at hs
  cases task with
  | createContext =>
    simp only [State.workStep, hworker] at hs
    split_ifs at hs with hfield hok
    · cases hs
      refine h.of_task rfl rfl rfl rfl rfl rfl ?_ ?_ ?_ ?_ <;> simp [hworker, Worker.closes]
    · cases hs
      exact h.creates hworker (by simpa using hfield)
    · cases hs
      refine h.of_task rfl rfl rfl rfl rfl rfl ?_ ?_ ?_ ?_ <;> simp [hworker, Worker.closes]
  | assign c =>
    simp only [State.workStep, hworker, Option.some.injEq] at hs
    subst hs
    exact h.assigns hworker
  | checkClosed c =>
    simp only [State.workStep, hworker] at hs
    split_ifs at hs with hclosed
    · cases hs
      exact h.closesOwn hworker
    · cases hs
      refine h.of_task rfl rfl rfl rfl rfl rfl ?_ ?_ ?_ ?_ <;> simp [hworker, hclosed]
  | setClosed =>
    simp only [State.workStep, hworker, Option.some.injEq] at hs
    subst hs
    have ht : State.Contexts { s with worker := .running i .completeFailed } := by
      refine h.of_task rfl rfl rfl rfl rfl rfl ?_ ?_ ?_ ?_ <;> simp [hworker, Worker.closes]
    exact ht.setsClosed rfl
  | completeFailed =>
    simp only [State.workStep, hworker, Option.some.injEq] at hs
    subst hs
    exact (h.complete .worker i .failed).retires (by simp [hworker])
  | call =>
    simp only [State.workStep, hworker] at hs
    split_ifs at hs with hok
    · cases hs
      refine (h.complete .worker i .signed).of_task rfl rfl rfl rfl rfl rfl ?_ ?_ ?_ ?_ <;>
        simp [hworker, Worker.closes]
    · cases hs
      refine h.of_task rfl rfl rfl rfl rfl rfl ?_ ?_ ?_ ?_ <;> simp [hworker, Worker.closes]
  | _ =>
    simp only [State.workStep, hworker] at hs
    try split_ifs at hs
    all_goals
      cases hs
      refine h.of_task rfl rfl rfl rfl rfl rfl ?_ ?_ ?_ ?_ <;> simp [hworker, Worker.closes]

theorem retireStep {k : Nat} (h : s.Contexts) (hs : s.retireStep k = some t) : t.Contexts := by
  have hset : ∀ {x y : Owner × Retiring}, s.retires[k]? = some y → s.retires.set k x ≠ [] := by
    intro x y hk hnil
    rw [show s.retires = [] by simpa using hnil] at hk
    cases hk
  unfold State.retireStep at hs
  split at hs
  case h_1 => cases hs
  case h_2 owner hk | h_3 owner hk | h_4 owner hk =>
    cases hs
    exact h.of_eq rfl rfl rfl rfl fun _ => Or.inl (hset hk)
  case h_5 owner hk =>
    cases hs
    have hopen : ∀ c, (s.isOpen c && decide (s.context ≠ some c)) = true →
        s.isOpen c = true ∧ s.context ≠ some c := by
      intro c hc
      simpa using hc
    constructor
    · intro c hc
      exact h.created c (hopen c hc).1
    · intro c hc
      exact h.held c (hopen c hc).1
    · exact h.assigning
    · exact h.checking
    · intro _ c hc hsome
      exact absurd hsome (hopen c hc).2

theorem step {a : Action} (h : s.Contexts) (hs : s.step capacity a = some t) : t.Contexts := by
  cases a with
  | sign i =>
    simp only [State.step, signStep] at hs
    split_ifs at hs <;> cases hs <;>
      exact h.of_eq rfl rfl rfl rfl fun hclosed => Or.inr ⟨hclosed, rfl⟩
  | putPending i =>
    simp only [State.step, putPendingStep] at hs
    split_ifs at hs
    cases hs
    exact h.of_eq rfl rfl rfl rfl fun hclosed => Or.inr ⟨hclosed, rfl⟩
  | schedule i =>
    simp only [State.step, scheduleStep] at hs
    split_ifs at hs <;> cases hs <;>
      exact h.of_eq rfl rfl rfl rfl fun hclosed => Or.inr ⟨hclosed, rfl⟩
  | whenComplete i =>
    simp only [State.step, whenCompleteStep] at hs
    have ht : State.Contexts { s with
        signing := update s.signing i .execute, callback := update s.callback i true } :=
      h.of_eq rfl rfl rfl rfl fun hclosed => Or.inr ⟨hclosed, rfl⟩
    split_ifs at hs <;> cases hs
    · exact ht.onComplete
    · exact ht
  | execute i =>
    simp only [State.step, State.executeStep] at hs
    split_ifs at hs with _ _ habsent
    · cases hs
      refine h.of_task rfl rfl rfl rfl rfl rfl ?_ ?_ ?_ ?_ <;> simp [habsent, Worker.closes]
    · cases hs
      exact h.of_eq rfl rfl rfl rfl fun hclosed => Or.inr ⟨hclosed, rfl⟩
    · cases hs
      exact h.of_eq rfl rfl rfl rfl fun hclosed => Or.inr ⟨hclosed, rfl⟩
  | reject i =>
    simp only [State.step, rejectStep] at hs
    split_ifs at hs
    cases hs
    have ht : State.Contexts { s with
        signing := update s.signing i .returned, pending := update s.pending i false } :=
      h.of_eq rfl rfl rfl rfl fun hclosed => Or.inr ⟨hclosed, rfl⟩
    exact ht.complete .caller i .failed
  | take =>
    simp only [State.step, takeStep] at hs
    split at hs
    case h_1 i queue hworker hqueue =>
      cases hs
      refine h.of_task rfl rfl rfl rfl rfl rfl ?_ ?_ ?_ ?_ <;> simp [hworker, Worker.closes]
    case h_2 => cases hs
  | work ok => exact h.workStep hs
  | expire i =>
    simp only [State.step, expireStep] at hs
    split_ifs at hs
    cases hs
    have ht : State.Contexts { s with deadline := update s.deadline i false } :=
      h.of_eq rfl rfl rfl rfl fun hclosed => Or.inr ⟨hclosed, rfl⟩
    exact (ht.complete .timer i .failed).of_eq rfl rfl rfl rfl
      fun hclosed => Or.inr ⟨hclosed, rfl⟩
  | expireClose =>
    simp only [State.step, expireCloseStep] at hs
    split_ifs at hs
    cases hs
    have ht : State.Contexts { s with expired := false } :=
      h.of_eq rfl rfl rfl rfl fun hclosed => Or.inr ⟨hclosed, rfl⟩
    exact ht.closeBy .timer
  | cancel i =>
    simp only [State.step, cancelStep] at hs
    split_ifs at hs
    cases hs
    exact h.complete .caller i .cancelled
  | close =>
    cases hs
    exact h.closeBy .caller
  | retire k => exact h.retireStep hs

/-- In every run the contexts of a closed signer are closed, once the worker
and every `retire` are through. -/
theorem of_run {as : List Action} (hrun : Lts.run (State.step capacity) {} as = some t) :
    t.Contexts := by
  have hinit : State.Contexts {} := by constructor <;> simp
  exact Lts.run_invariant_all (fun _ _ _ h hs => h.step hs) hinit hrun

end Contexts

/-! ## The runs in time -/

theorem Waiting.of_run {as : List Action}
    (hin : Lts.AllMeet (State.step capacity) (InTime capacity) {} as)
    (hrun : Lts.run (State.step capacity) {} as = some t) : t.Waiting := by
  have hinit : State.Waiting {} := by constructor <;> simp [Signing.isPut]
  exact Lts.run_invariant (fun _ _ _ h hin hs => h.step hin hs) hinit hin hrun

/-- A closed signer with nothing under way leaves no future incomplete and
no context open, in every run in which the worker takes no task that the
last `retire` has missed. -/
theorem signer_leaves_none_waiting {as : List Action}
    (hin : Lts.AllMeet (State.step capacity) (InTime capacity) {} as)
    (hrun : Lts.run (State.step capacity) {} as = some t) : t.LeavesNoneWaiting := by
  intro hclosed hquiet
  have hworker : t.worker.retires = false ∧ t.worker.closes = false ∧
      ∀ i task, t.worker ≠ .running i task := by
    rcases hw : t.worker with _ | _ | ⟨i, task⟩
    · exact ⟨rfl, rfl, nofun⟩
    · exact ⟨rfl, rfl, nofun⟩
    · exact absurd hw (hquiet.worker i task)
  refine ⟨?_, ?_⟩
  · have hahead : t.sweepAhead = false := by
      rw [sweepAhead, hquiet.retires, hworker.1]
      rfl
    exact (Waiting.of_run hin hrun).swept hclosed hahead
  · intro c
    have hcontexts := Contexts.of_run hrun
    apply Bool.eq_false_iff.mpr
    intro hc
    rcases hcontexts.held c hc with hfield | ⟨i, hi⟩
    · rcases hcontexts.closing hclosed c hc hfield with hretires | hcloses
      · exact hretires hquiet.retires
      · rw [hworker.2.1] at hcloses
        cases hcloses
    · exact hworker.2.2 i _ hi

/-- A call whose task is running when the signer closes, and a call after
that. -/
def signAndClose : List Action :=
  [.sign 0, .putPending 0, .schedule 0, .whenComplete 0, .execute 0, .work true, .close, .retire 0,
    .retire 0, .retire 0, .retire 0, .work true, .work true, .sign 1]

theorem signer_leaves_none_waiting_after_close :
    ∃ t, Lts.run (State.step 16) {} signAndClose = some t ∧
      t.closed = true ∧ t.outcome 0 = some .cancelled ∧ t.LeavesNoneWaiting := by
  apply Lts.exists_run (P := fun t => t.closed = true ∧ t.outcome 0 = some .cancelled) (by decide)
  intro t hrun hend
  exact ⟨hend.1, hend.2, signer_leaves_none_waiting (by decide) hrun⟩

/-- A call that has passed the `closed` check goes on after `retire` has
completed `pending`, and its task is taken before the worker is shut down:
the worker finds the signer closed, the deadline is dropped. -/
def signBetween : List Action :=
  [.sign 0, .close, .retire 0, .putPending 0, .schedule 0, .whenComplete 0, .execute 0, .retire 0,
    .retire 0, .retire 0, .work true]

theorem sign_between_close_waits_forever :
    ¬∀ (capacity : Nat) (as : List Action) (t : State),
      Lts.run (State.step capacity) {} as = some t → t.LeavesNoneWaiting := by
  intro h
  have hrun : ∃ t, Lts.run (State.step 16) {} signBetween = some t ∧ t.closed = true ∧
      t.Quiescent ∧ t.signing 0 = .returned ∧ t.outcome 0 = none := by
    refine ⟨_, rfl, rfl, ⟨?_, ?_, rfl, rfl⟩, rfl, rfl⟩
    · intro i
      by_cases hi : i = 0
      · rw [hi]
        exact Or.inr rfl
      · left
        change update (update (update (update (update (fun _ => Signing.absent) 0 .putPending)
          0 .schedule) 0 .whenComplete) 0 .execute) 0 .returned i = .absent
        simp [hi]
    · exact nofun
  obtain ⟨t, hrun, hclosed, hquiet, hreturned, hnone⟩ := hrun
  exact (h 16 _ t hrun hclosed hquiet).1 0 hreturned hnone

end State

end TiktokSigner.JvmSigner
