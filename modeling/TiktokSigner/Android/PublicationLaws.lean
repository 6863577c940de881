import TiktokSigner.Android.EventsRepository
import Mathlib.Data.List.Induction

/-!
# What the repository publishes

`Seen` is what there is to publish: the totals of the session and the
events kept since the last clear, as a fold over the actions (`Matches`
says that the repository has them). Snapshots follow later: `Published`
says that without a pending job nothing is left to publish, and every
snapshot is that of a moment since the session began (`Snapshots`).
-/

namespace TiktokSigner.Android

open Lts

variable {ρ π : Type*}

namespace EventsRepository

variable {s s' : EventsRepository ρ π}

/-- Publishing and scheduling leave what there is to publish alone. -/
structure SameContent (s s' : EventsRepository ρ π) : Prop where
  totals : s'.totals = s.totals
  deque : s'.deque = s.deque
  lastAward : s'.lastAward = s.lastAward
  paused : s'.paused = s.paused

theorem sameContent_schedule (s : EventsRepository ρ π) : SameContent s s.schedulePublication := by
  rw [schedulePublication]
  split_ifs
  · exact ⟨rfl, rfl, rfl, rfl⟩
  · exact ⟨rfl, rfl, rfl, rfl⟩
  · exact ⟨rfl, rfl, rfl, rfl⟩

theorem sameContent_publish (s : EventsRepository ρ π) (generation : Nat) :
    SameContent s (s.publish generation) := by
  rw [publish]
  split_ifs
  · exact ⟨rfl, rfl, rfl, rfl⟩
  · exact ⟨rfl, rfl, rfl, rfl⟩

/-! ## When nothing is pending -/

structure Published (s : EventsRepository ρ π) : Prop where
  /-- The publication job is active, and its block will publish. -/
  job : ∀ j, s.publication = some j → ∃ job, s.jobs[j]? = some job ∧ job.isActive = true
    ∧ job.generation = s.publicationGeneration
  history : s.historyDirty = false → s.history = s.deque
  settled : s.publication = none → s.stats = s.totals ∧ s.historyDirty = false

theorem Published.pending (h : Published s) (hpending : s.pending = false) :
    s.publication = none := by
  rw [EventsRepository.pending] at hpending
  cases hpublication : s.publication with
  | none => rfl
  | some j =>
    obtain ⟨job, hjob, hactive, -⟩ := h.job j hpublication
    simp [hpublication, hjob, hactive] at hpending

/-- A change is published at once, by the job there is, or by a new one. -/
theorem Published.schedule (hjob : ∀ j, s.publication = some j → ∃ job, s.jobs[j]? = some job
      ∧ job.isActive = true ∧ job.generation = s.publicationGeneration)
    (hhistory : s.historyDirty = false → s.history = s.deque) :
    Published s.schedulePublication := by
  rw [schedulePublication]
  split
  case isTrue =>
    refine ⟨hjob, fun _ => ?_, fun _ => ⟨rfl, rfl⟩⟩
    dsimp only [publishLocked]
    split
    case isTrue => rfl
    case isFalse hclean => exact hhistory (Bool.eq_false_iff.mpr hclean)
  case isFalse =>
    split
    case isTrue hpending =>
      refine ⟨hjob, hhistory, fun hnone => ?_⟩
      rw [EventsRepository.pending, hnone] at hpending
      cases hpending
    case isFalse =>
      refine ⟨fun j hj => ?_, hhistory, fun hnone => absurd hnone (by simp)⟩
      obtain rfl := Option.some.inj hj
      exact ⟨_, List.getElem?_concat_length, rfl, rfl⟩

/-- The block of a job that is not the publication's finds another
generation. -/
theorem Published.fire (h : Published s) {j : Nat} {generation : Nat} {cancelled : Bool}
    (hjob : s.jobs[j]? = some ⟨generation, .resumed, cancelled⟩) :
    Published ((s.publish generation).setPhase j .finished) := by
  rw [publish]
  split
  case isTrue hstale =>
    refine ⟨fun i hi => ?_, h.history, h.settled⟩
    obtain ⟨job, hget, hactive, hgeneration⟩ := h.job i hi
    refine ⟨job, ?_, hactive, hgeneration⟩
    have hne : j ≠ i := by
      rintro rfl
      rw [hjob] at hget
      obtain rfl := Option.some.inj hget
      exact hstale hgeneration
    dsimp only [setPhase]
    rw [List.getElem?_modify, hget]
    simp [hne]
  case isFalse =>
    refine ⟨fun _ hi => absurd hi (by simp [setPhase]), fun _ => ?_, fun _ => ⟨rfl, rfl⟩⟩
    dsimp only [setPhase, publishLocked]
    split
    case isTrue => rfl
    case isFalse hclean => exact h.history (Bool.eq_false_iff.mpr hclean)

theorem Published.elapse (h : Published s) {j : Nat} {generation : Nat}
    (hjob : s.jobs[j]? = some ⟨generation, .waiting, false⟩) :
    Published (s.setPhase j .resumed) := by
  refine ⟨fun i hi => ?_, h.history, h.settled⟩
  obtain ⟨job, hget, hactive, hgeneration⟩ := h.job i hi
  dsimp only [setPhase]
  rw [List.getElem?_modify, hget]
  by_cases heq : j = i
  · subst heq
    rw [hjob] at hget
    obtain rfl := Option.some.inj hget
    exact ⟨_, rfl, by simp [PublicationJob.isActive], by simpa using hgeneration⟩
  · exact ⟨job, by simp [heq], hactive, hgeneration⟩

end EventsRepository

variable [Zero π] [Add π]

/-! ## What there is to publish -/

structure Seen (ρ π : Type*) where
  totals : LiveStats π
  /-- All events kept since the last clear, newest first. -/
  kept : List (LiveEvent ρ)
  lastAward : Option (Award π)
  paused : Bool

namespace Seen

/-- At the start of a session. -/
def start (paused : Bool) : Seen ρ π := ⟨.zero, [], none, paused⟩

def after (seen : Seen ρ π) : EventsAction ρ π → Seen ρ π
  | .append event =>
      { seen with
        totals := seen.totals.count event
        kept := if seen.paused then seen.kept else event :: seen.kept }
  | .awarded award =>
      { seen with
        totals := { seen.totals with points := seen.totals.points + award.delta }
        lastAward := some award }
  | .setPaused value => { seen with paused := value }
  | .clearHistory => { seen with kept := [] }
  | .beginSession => start seen.paused
  | .elapse _ | .fire _ => seen

def afterAll (seen : Seen ρ π) (actions : List (EventsAction ρ π)) : Seen ρ π :=
  actions.foldl after seen

theorem afterAll_concat (seen : Seen ρ π) (actions : List (EventsAction ρ π))
    (a : EventsAction ρ π) : seen.afterAll (actions ++ [a]) = (seen.afterAll actions).after a := by
  rw [afterAll, List.foldl_append]
  rfl

end Seen

namespace EventsRepository

variable {s s' : EventsRepository ρ π} {a : EventsAction ρ π} {actions : List (EventsAction ρ π)}

theorem trim_eq_take {α : Type*} (l : List α) : trim l = l.take 300 := by
  induction l using trim.induct with
  | case1 l hlong ih =>
    rw [trim, if_pos hlong, ih, List.dropLast_eq_take, List.take_take, Nat.min_eq_left (by omega)]
  | case2 l hshort => rw [trim, if_neg hshort, List.take_of_length_le (Nat.le_of_not_lt hshort)]

structure Matches (seen : Seen ρ π) (s : EventsRepository ρ π) : Prop where
  totals : s.totals = seen.totals
  deque : s.deque = seen.kept.take 300
  lastAward : s.lastAward = seen.lastAward
  paused : s.paused = seen.paused

omit [Zero π] [Add π] in
theorem Matches.of_same {seen : Seen ρ π} (h : Matches seen s) (hsame : SameContent s s') :
    Matches seen s' :=
  ⟨hsame.totals.trans h.totals, hsame.deque.trans h.deque, hsame.lastAward.trans h.lastAward,
    hsame.paused.trans h.paused⟩

omit [Zero π] [Add π] in
theorem Matches.schedule {seen : Seen ρ π} (h : Matches seen s) :
    Matches seen s.schedulePublication := h.of_same (sameContent_schedule s)

theorem Matches.append {seen : Seen ρ π} (h : Matches seen s) (event : LiveEvent ρ) :
    Matches (seen.after (.append event)) (s.append event) := by
  rw [EventsRepository.append]
  dsimp only
  split
  case isTrue hpaused =>
    refine Matches.schedule ⟨?_, ?_, h.lastAward, h.paused⟩
    · exact congrArg (LiveStats.count · event) h.totals
    · rw [Seen.after, ← h.paused, if_pos hpaused]
      exact h.deque
  case isFalse hpaused =>
    refine Matches.schedule ⟨?_, ?_, h.lastAward, h.paused⟩
    · exact congrArg (LiveStats.count · event) h.totals
    · rw [Seen.after, ← h.paused, if_neg hpaused]
      dsimp only
      rw [trim_eq_take, h.deque, List.take_succ_cons, List.take_succ_cons, List.take_take]
      rfl

theorem Matches.step {seen : Seen ρ π} (h : Matches seen s) (hstep : s.step a = some s') :
    Matches (seen.after a) s' := by
  cases a <;> simp only [EventsRepository.step, Option.some.injEq] at hstep
  case append event =>
    subst hstep
    exact h.append event
  case awarded award =>
    subst hstep
    refine Matches.schedule ⟨?_, h.deque, rfl, h.paused⟩
    dsimp only
    rw [Seen.after, h.totals]
  case setPaused value =>
    subst hstep
    exact ⟨h.totals, h.deque, h.lastAward, rfl⟩
  case clearHistory =>
    subst hstep
    exact ⟨h.totals, rfl, h.lastAward, h.paused⟩
  case beginSession =>
    subst hstep
    refine ⟨rfl, ?_, rfl, ?_⟩
    · rw [beginSession, cancelPublication]
      split <;> rfl
    · rw [beginSession, cancelPublication]
      split <;> exact h.paused
  case elapse j =>
    split at hstep <;> cases hstep
    exact h.of_same ⟨rfl, rfl, rfl, rfl⟩
  case fire j =>
    split at hstep <;> cases hstep
    exact (h.of_same (sameContent_publish s _)).of_same ⟨rfl, rfl, rfl, rfl⟩

theorem matches_run {hasScope : Bool} (hrun : Lts.run step (new hasScope) actions = some s) :
    Matches ((Seen.start false).afterAll actions) s :=
  run_refines (R := Matches) (fun _ _ a _ h hstep => h.step (a := a) hstep) ⟨rfl, rfl, rfl, rfl⟩ hrun

/-! ## One step -/

omit [Zero π] [Add π] in
theorem Published.append (h : Published s) (event : LiveEvent ρ) : Published (s.append event) := by
  rw [EventsRepository.append]
  dsimp only
  split
  case isTrue => exact Published.schedule h.job h.history
  case isFalse => exact Published.schedule h.job (fun hclean => absurd hclean (by simp))

omit [Add π] in
theorem Published.beginSession : Published s.beginSession := by
  rw [EventsRepository.beginSession, cancelPublication]
  split
  · exact ⟨fun _ hj => absurd hj (by simp), fun _ => rfl, fun _ => ⟨rfl, rfl⟩⟩
  · exact ⟨fun _ hj => absurd hj (by simp), fun _ => rfl, fun _ => ⟨rfl, rfl⟩⟩

theorem Published.step (h : Published s) (hstep : s.step a = some s') : Published s' := by
  cases a <;> simp only [EventsRepository.step, Option.some.injEq] at hstep
  case append event => exact hstep ▸ h.append event
  case awarded award => exact hstep ▸ Published.schedule h.job h.history
  case setPaused value => exact hstep ▸ ⟨h.job, h.history, h.settled⟩
  case clearHistory =>
    exact hstep ▸ ⟨h.job, fun _ => rfl, fun hnone => ⟨(h.settled hnone).1, rfl⟩⟩
  case beginSession => exact hstep ▸ Published.beginSession
  case elapse j =>
    split at hstep <;> cases hstep
    rename_i hjob
    exact h.elapse hjob
  case fire j =>
    split at hstep <;> cases hstep
    rename_i hjob
    exact h.fire hjob

theorem published_run {hasScope : Bool} (hrun : Lts.run step (new hasScope) actions = some s) :
    Published s :=
  run_invariant_all (I := Published) (fun _ a _ h hstep => h.step (a := a) hstep)
    ⟨fun _ hj => absurd hj (by simp [new]), fun _ => rfl, fun _ => ⟨rfl, rfl⟩⟩ hrun

/-! ## Snapshots -/

/-- What `s'` shows is what there is in it, or what `s` showed. -/
structure Publishes (s s' : EventsRepository ρ π) : Prop where
  stats : s'.stats = s.stats ∨ s'.stats = s'.totals
  history : s'.history = s.history ∨ s'.history = s'.deque

omit [Zero π] [Add π] in
theorem publishes_locked (s : EventsRepository ρ π) : Publishes s s.publishLocked := by
  refine ⟨Or.inr rfl, ?_⟩
  dsimp only [publishLocked]
  split
  case isTrue => exact Or.inr rfl
  case isFalse => exact Or.inl rfl

omit [Zero π] [Add π] in
theorem publishes_schedule (s : EventsRepository ρ π) : Publishes s s.schedulePublication := by
  rw [schedulePublication]
  split_ifs
  · exact ⟨Or.inl rfl, Or.inl rfl⟩
  · exact ⟨Or.inl rfl, Or.inl rfl⟩
  · exact publishes_locked s

theorem publishes_of_step (hstep : s.step a = some s') : Publishes s s' := by
  cases a <;> simp only [EventsRepository.step, Option.some.injEq] at hstep
  case append event =>
    subst hstep
    rw [EventsRepository.append]
    dsimp only
    split
    case isTrue => exact { publishes_schedule _ with }
    case isFalse => exact { publishes_schedule _ with }
  case awarded award =>
    subst hstep
    exact { publishes_schedule _ with }
  case setPaused value => exact hstep ▸ ⟨Or.inl rfl, Or.inl rfl⟩
  case clearHistory => exact hstep ▸ ⟨Or.inl rfl, Or.inr rfl⟩
  case beginSession =>
    subst hstep
    rw [beginSession, cancelPublication]
    split
    · exact ⟨Or.inr rfl, Or.inr rfl⟩
    · exact ⟨Or.inr rfl, Or.inr rfl⟩
  case elapse j =>
    split at hstep <;> cases hstep
    exact ⟨Or.inl rfl, Or.inl rfl⟩
  case fire j =>
    split at hstep <;> cases hstep
    rw [publish]
    split
    case isTrue => exact ⟨Or.inl rfl, Or.inl rfl⟩
    case isFalse => exact { publishes_locked s with }

/-- Both snapshots are those of moments among `actions`. -/
structure Snapshots (seen : Seen ρ π) (actions : List (EventsAction ρ π))
    (s : EventsRepository ρ π) : Prop where
  stats : ∃ p, p <+: actions ∧ s.stats = (seen.afterAll p).totals
  history : ∃ p, p <+: actions ∧ s.history = (seen.afterAll p).kept.take 300

theorem Snapshots.step {seen : Seen ρ π} (h : Snapshots seen actions s)
    (hmatches : Matches (seen.afterAll (actions ++ [a])) s') (hstep : s.step a = some s') :
    Snapshots seen (actions ++ [a]) s' := by
  obtain ⟨hstats, hhistory⟩ := publishes_of_step hstep
  constructor
  · rcases hstats with hold | hnew
    · obtain ⟨p, hp, hstats⟩ := h.stats
      exact ⟨p, hp.trans (List.prefix_append _ _), hold.trans hstats⟩
    · exact ⟨_, List.prefix_rfl, hnew.trans hmatches.totals⟩
  · rcases hhistory with hold | hnew
    · obtain ⟨p, hp, hhistory⟩ := h.history
      exact ⟨p, hp.trans (List.prefix_append _ _), hold.trans hhistory⟩
    · exact ⟨_, List.prefix_rfl, hnew.trans hmatches.deque⟩

theorem snapshots_run {seen : Seen ρ π} (hmatches : Matches seen s)
    (hsnapshots : Snapshots seen [] s)
    (hrun : Lts.run step s actions = some s') :
    Matches (seen.afterAll actions) s' ∧ Snapshots seen actions s' := by
  induction actions using List.reverseRecOn generalizing s' with
  | nil =>
    obtain rfl := Option.some.inj hrun
    exact ⟨hmatches, hsnapshots⟩
  | append_singleton actions a ih =>
    obtain ⟨u, hu, hstep⟩ := run_concat_eq_some.mp hrun
    obtain ⟨hmatches, hsnapshots⟩ := ih hu
    have hmatches' : Matches (seen.afterAll (actions ++ [a])) s' :=
      seen.afterAll_concat actions a ▸ hmatches.step hstep
    exact ⟨hmatches', hsnapshots.step hmatches' hstep⟩

/-- In every run: the history is the newest 300 of the events kept since
the last clear; without a pending publication the snapshots are up to date;
and after `beginSession` every snapshot is one of the new session. -/
theorem publication_of_run (hasScope : Bool) (actions : List (EventsAction ρ π))
    (s : EventsRepository ρ π) (hrun : Lts.run step (new hasScope) actions = some s) :
    s.deque = ((Seen.start false).afterAll actions).kept.take 300
      ∧ (s.pending = false → s.stats = s.totals ∧ s.history = s.deque)
      ∧ ∀ before after, actions = before ++ .beginSession :: after →
        (∃ p, p <+: after ∧ s.stats =
            ((Seen.start ((Seen.start false).afterAll before).paused).afterAll p).totals)
          ∧ (∃ p, p <+: after ∧ s.history =
            ((Seen.start ((Seen.start false).afterAll before).paused).afterAll p).kept.take 300)
          ∧ s.lastAward =
            ((Seen.start ((Seen.start false).afterAll before).paused).afterAll after).lastAward := by
  refine ⟨(matches_run hrun).deque, fun hpending => ?_, ?_⟩
  · have hpublished := published_run hrun
    obtain ⟨hstats, hclean⟩ := hpublished.settled (hpublished.pending hpending)
    exact ⟨hstats, hpublished.history hclean⟩
  · rintro before after rfl
    obtain ⟨u, hu, hrest⟩ := run_append_eq_some.mp hrun
    obtain ⟨v, hv, hafter⟩ := run_cons_eq_some.mp hrest
    have hmatches := (matches_run hu).step hv
    have hsnapshots : Snapshots (Seen.start ((Seen.start false).afterAll before).paused) [] v := by
      obtain rfl := Option.some.inj hv
      refine ⟨⟨[], List.prefix_rfl, ?_⟩, ⟨[], List.prefix_rfl, ?_⟩⟩
      · rfl
      · rw [beginSession, cancelPublication]
        split <;> rfl
    obtain ⟨hmatches, hsnapshots⟩ := snapshots_run hmatches hsnapshots hafter
    exact ⟨hsnapshots.stats, hsnapshots.history, hmatches.lastAward⟩

/-- The job of the first session is cancelled, that of the second
publishes its only event. -/
theorem publication_of_two_sessions :
    ∃ s, Lts.run step (new true : EventsRepository String Nat)
        [.append ⟨.like, 2, "old"⟩, .beginSession, .append ⟨.gift, 1, "new"⟩, .elapse 1,
          .fire 1] = some s
      ∧ s.history = s.deque ∧ s.deque = [⟨.gift, 1, "new"⟩] := by
  obtain ⟨s, hrun, hpending⟩ : ∃ s, Lts.run step (new true : EventsRepository String Nat)
      [.append ⟨.like, 2, "old"⟩, .beginSession, .append ⟨.gift, 1, "new"⟩, .elapse 1,
        .fire 1] = some s
        ∧ s.pending = false := ⟨_, rfl, rfl⟩
  obtain ⟨hdeque, hpublished, -⟩ := publication_of_run true _ s hrun
  exact ⟨s, hrun, (hpublished hpending).2, hdeque⟩

end EventsRepository

end TiktokSigner.Android
