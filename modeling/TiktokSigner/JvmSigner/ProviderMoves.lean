import TiktokSigner.JvmSigner.ConnectionProvider
import Mathlib.Logic.Relation

/-!
# The moves of the provider

A step of the provider is a few moves: a future is completed, a callback
goes on, `prepare` gets from one statement to the next, `close` does. Every
invariant is about single moves.
-/

namespace TiktokSigner.JvmSigner.ConnectionProvider

open Function (update)
open Relation (ReflTransGen)

/-- Before a check of `closed || result.isDone()`. -/
def Worker.checks : Worker → Option Nat
  | starting i | answered i _ | creating i => some i
  | _ => none

/-- Where `prepare` can end other than at its last statement. -/
def Worker.leaves : Worker → Bool
  | starting _ | calling _ _ | executing _ _ _ | answered _ _ | loading _ | downloading _ _
  | creating _ | signing _ => true
  | idle | checking _ _ _ | withdrawing _ _ _ | cancelling _ _ _ | hooking _ | listening _ => false

/-- The call that `prepare` has made and not finished. -/
def Worker.call : Worker → Option Nat
  | checking _ _ call | withdrawing _ _ call | cancelling _ _ call | executing _ _ call
  | downloading _ call => some call
  | _ => none

/-- A call that is not executed yet. -/
def Worker.unstarted : Worker → Option Nat
  | checking _ _ call | withdrawing _ _ call | cancelling _ _ call => some call
  | _ => none

/-- Past `pending.remove`. -/
def Callback.past : Callback → Bool
  | taking | dropping _ | done => true
  | absent | registered | removing => false

namespace State

variable {s t : State} {a : Action} {i : Nat}

/-! ## What a step does -/

/-- A running download may end: its request is not cancelled, or `close` has
interrupted the worker's thread. -/
def downloadInTime (s : State) : Bool :=
  match s.worker with
  | .downloading i _ => !s.isCancelled i || s.down
  | _ => true

theorem downloadInTime_iff : s.downloadInTime = true ↔
    ∀ i call, s.worker = .downloading i call → s.isCancelled i = false ∨ s.down = true := by
  unfold downloadInTime
  cases hworker : s.worker <;> simp

inductive Move (s : State) : State → Prop where
  | admitted (hopen : s.closed = false) :
      Move s { s with
        launched := s.launched + 1
        connecting := update s.connecting s.launched .admitted
        pending := update s.pending s.launched true }
  | refused (hclosed : s.closed = true) :
      Move s { s with
        launched := s.launched + 1
        connecting := update s.connecting s.launched .refused
        outcome := update s.outcome s.launched (some .failed) }
  | register (i : Nat) (hconnecting : s.connecting i = .admitted) :
      Move s { s with
        connecting := update s.connecting i .registered
        callback := update s.callback i (if s.isDone i then .removing else .registered) }
  | complete (i : Nat) (outcome : Outcome) (hconnecting : s.connecting i ≠ .absent)
      (hnone : s.outcome i = none) :
      Move s { s with
        outcome := update s.outcome i (some outcome)
        callback := update s.callback i (s.callback i).fire
        cancelHook := update s.cancelHook i (s.cancelHook i).fire
        abandoned := if outcome = .cancelled then s.abandon i else s.abandoned }
  | rejected (i : Nat) (hconnecting : s.connecting i = .registered) (hdone : s.isDone i = true) :
      Move s { s with connecting := update s.connecting i .returned }
  | queued (i : Nat) (hconnecting : s.connecting i = .registered) :
      Move s { s with connecting := update s.connecting i .returned, queue := s.queue ++ [i] }
  | remove (i : Nat) (hcallback : s.callback i = .removing) :
      Move s { s with
        pending := update s.pending i false
        callback := update s.callback i .taking }
  | take (i : Nat) (hcallback : s.callback i = .taking) : Move s (s.take i)
  | drop (i call : Nat) (hcallback : s.callback i = .dropping call) :
      Move s { s with
        cancelled := update s.cancelled call true
        callback := update s.callback i .done }
  | cancelHooks (hooks : Nat → Hook) : Move s { s with cancelHook := hooks }
  | signed (i : Nat) (ok : Bool) (hsigning : s.signing i = .outstanding) :
      Move s { s with
        signing := update s.signing i (.completed ok)
        signedHook := update s.signedHook i (s.signedHook i).fire }
  | signedDone (i : Nat) (hhook : s.signedHook i = .running) (hstops : s.stops i = true) :
      Move s { s with signedHook := update s.signedHook i .done }
  | poll (i : Nat) (queue : List Nat) (hworker : s.worker = .idle) (hqueue : s.queue = i :: queue) :
      Move s { s with worker := .starting i, queue := queue }
  | leave (i : Nat) (hworker : s.worker.request = some i) (hstops : s.stops i = true)
      (hplace : s.worker.leaves = true) (htime : s.downloadInTime = true) :
      Move s { s with worker := .idle }
  | calling (i : Nat) (stage : Stage) (hworker : s.worker = .starting i ∨
      s.worker = .answered i .discovery) (hgoes : s.stops i = false) :
      Move s { s with worker := .calling i stage }
  | newCall (i : Nat) (stage : Stage) (hworker : s.worker = .calling i stage) :
      Move s (s.newCall i stage)
  | executing (i : Nat) (stage : Stage) (call : Nat) (hworker : s.worker = .checking i stage call)
      (hgoes : s.stops i = false) : Move s { s with worker := .executing i stage call }
  | withdrawing (i : Nat) (stage : Stage) (call : Nat)
      (hworker : s.worker = .checking i stage call) :
      Move s { s with worker := .withdrawing i stage call }
  | cancelling (i : Nat) (stage : Stage) (call : Nat)
      (hworker : s.worker = .withdrawing i stage call) :
      Move s { s with
        worker := .cancelling i stage call
        calls := if s.calls i = some call then update s.calls i none else s.calls }
  | cancelCall (i : Nat) (stage : Stage) (call : Nat)
      (hworker : s.worker = .cancelling i stage call) :
      Move s { s with
        worker := .executing i stage call
        cancelled := update s.cancelled call true }
  | answered (i : Nat) (stage stage' : Stage) (session : Bool)
      (hworker : (∃ call, s.worker = .executing i stage call) ∨ s.worker = .answered i stage) :
      Move s { s with worker := .answered i stage', session := session }
  | loading (i : Nat) (hworker : s.worker = .answered i .bootstrap)
      (hunusable : s.unusable = true) : Move s { s with worker := .loading i }
  | warm (i : Nat) (hworker : s.worker = .answered i .bootstrap) :
      Move s { s with worker := .signing i }
  | creating (i : Nat) (hworker : s.worker = .loading i ∨ ∃ call, s.worker = .downloading i call)
      (htime : s.downloadInTime = true) : Move s { s with worker := .creating i }
  | downloading (i : Nat) (hworker : s.worker = .loading i) (hup : s.down = false) :
      Move s { s with
        worker := .downloading i s.made
        request := update s.request s.made i
        made := s.made + 1 }
  | create (i : Nat) (hworker : s.worker = .creating i) (hopen : s.closed = false) :
      Move s { s with
        worker := .signing i
        signer := some s.signers
        signers := s.signers + 1 }
  | sign (i : Nat) (hooks : Nat → Hook) (hworker : s.worker = .signing i) :
      Move s { s with
        worker := .hooking i
        signing := update s.signing i .outstanding
        cancelHook := hooks
        signedHook := update s.signedHook i .absent }
  | hooking (i : Nat) (hooks : Nat → Hook) (hworker : s.worker = .hooking i) :
      Move s { s with worker := .listening i, cancelHook := hooks }
  | listening (i : Nat) (hworker : s.worker = .listening i) :
      Move s { s with
        worker := .idle
        signedHook := update s.signedHook i
          (if s.signing i = .outstanding then .registered else .running) }
  | retire (k : Nat) : Move s { s with retired := update s.retired k true }
  | close (hopen : s.closing = .open) :
      Move s { s with closing := .cancelling ((List.range s.launched).filter s.pending) }
  | closeFuture (i : Nat) (futures : List Nat) (hclosing : s.closing = .cancelling (i :: futures))
      (hdone : s.isDone i = true) : Move s { s with closing := .cancelling futures }
  | closeCalls (hclosing : s.closing = .cancelling []) :
      Move s { s with closing := .cancellingCalls ((List.range s.launched).filterMap s.calls) }
  | closeCall (call : Nat) (calls : List Nat)
      (hclosing : s.closing = .cancellingCalls (call :: calls)) :
      Move s { s with
        closing := .cancellingCalls calls
        cancelled := update s.cancelled call true }
  | closeClear (hclosing : s.closing = .cancellingCalls []) : Move s { s with closing := .clearing }
  | clear (hclosing : s.closing = .clearing) :
      Move s { s with closing := .shutting, calls := fun _ => none }
  | shutdownNow (hclosing : s.closing = .shutting) : Move s s.shutdownNow
  | closeSigner (hclosing : s.closing = .retiring) : Move s s.closeSigner

/-! ## Completing a future -/

section Complete

variable (s) (i) (outcome : Outcome)

theorem complete_of_done (h : s.isDone i = true) : s.complete i outcome = s := by
  rw [complete, if_pos h]

theorem complete_of_not_done (h : s.isDone i = false) : s.complete i outcome =
    { s with
      outcome := update s.outcome i (some outcome)
      callback := update s.callback i (s.callback i).fire
      cancelHook := update s.cancelHook i (s.cancelHook i).fire
      abandoned := if outcome = .cancelled then s.abandon i else s.abandoned } := by
  rw [complete, if_neg (by rw [h]; decide)]

@[simp] theorem complete_worker : (s.complete i outcome).worker = s.worker := by
  unfold complete
  split <;> rfl

@[simp] theorem complete_connecting : (s.complete i outcome).connecting = s.connecting := by
  unfold complete
  split <;> rfl

@[simp] theorem complete_closing : (s.complete i outcome).closing = s.closing := by
  unfold complete
  split <;> rfl

@[simp] theorem complete_down : (s.complete i outcome).down = s.down := by
  unfold complete
  split <;> rfl

@[simp] theorem complete_signedHook : (s.complete i outcome).signedHook = s.signedHook := by
  unfold complete
  split <;> rfl

theorem isDone_complete : (s.complete i outcome).isDone i = true := by
  cases h : s.isDone i with
  | true =>
    rw [complete_of_done s i outcome h]
    exact h
  | false =>
    rw [complete_of_not_done s i outcome h, isDone]
    simp

theorem stops_complete : (s.complete i outcome).stops i = true := by
  rw [stops, isDone_complete, Bool.or_true]

theorem isCancelled_complete (h : outcome ≠ .cancelled) :
    (s.complete i outcome).isCancelled i = s.isCancelled i := by
  cases hdone : s.isDone i with
  | true => rw [complete_of_done s i outcome hdone]
  | false =>
    have hnone : s.outcome i = none := by simpa [isDone] using hdone
    rw [complete_of_not_done s i outcome hdone, isCancelled, isCancelled, hnone]
    simp [h]

end Complete

/-! ## A step is a few moves -/

/-- Who has a request has one that `connect` has returned. -/
structure Begun (s : State) : Prop where
  worker : ∀ i, s.worker.request = some i → s.connecting i = .returned
  queue : ∀ i ∈ s.queue, s.connecting i = .returned
  signing : ∀ i, s.signing i ≠ .absent ∨ s.signedHook i ≠ .absent → s.connecting i = .returned
  closing : ∀ futures, s.closing = .cancelling futures → ∀ i ∈ futures, s.connecting i ≠ .absent

theorem Move.single (h : Move s t) : ReflTransGen Move s t := ReflTransGen.single h

theorem moves_complete (outcome : Outcome) (hconnecting : s.connecting i ≠ .absent) :
    ReflTransGen Move s (s.complete i outcome) := by
  cases hdone : s.isDone i with
  | true =>
    rw [complete_of_done s i outcome hdone]
  | false =>
    rw [complete_of_not_done s i outcome hdone]
    exact (Move.complete i outcome hconnecting (by simpa [isDone] using hdone)).single

theorem moves_completeSigning (s : State) (i : Nat) (ok : Bool) :
    ReflTransGen Move s (s.completeSigning i ok) := by
  unfold completeSigning
  split_ifs with hsigning
  · exact (Move.signed i ok hsigning).single
  · exact ReflTransGen.refl

/-- `prepare` ends for a request whose future it has completed. -/
theorem moves_leave_complete (hb : s.Begun) (outcome : Outcome) (hvalue : outcome ≠ .cancelled)
    (hworker : s.worker.request = some i)
    (hplace : s.worker.leaves = true) (htime : s.downloadInTime = true) :
    ReflTransGen Move s { s.complete i outcome with worker := .idle } := by
  have hconnecting : s.connecting i ≠ .absent := by
    rw [hb.worker i hworker]
    decide
  refine ReflTransGen.tail (moves_complete outcome hconnecting) ?_
  refine Move.leave i (by rw [complete_worker, hworker]) (stops_complete s i outcome) ?_ ?_
  · rw [complete_worker]
    exact hplace
  · refine downloadInTime_iff.mpr ?_
    intro j call hj
    rw [complete_worker] at hj
    have hji : j = i := by
      rw [hj] at hworker
      exact Option.some.inj hworker
    subst hji
    rw [isCancelled_complete s j outcome hvalue, complete_down]
    exact downloadInTime_iff.mp htime j call hj

theorem Move.leave_check (hchecks : s.worker.checks = some i) (hstops : s.stops i = true) :
    Move s { s with worker := .idle } := by
  have hworker : s.worker.request = some i ∧ s.worker.leaves = true ∧
      ∀ j call, s.worker ≠ .downloading j call := by
    cases hw : s.worker <;> rw [hw] at hchecks <;> cases hchecks <;>
      exact ⟨rfl, rfl, fun _ _ => nofun⟩
  refine Move.leave i hworker.1 hstops hworker.2.1 (downloadInTime_iff.mpr ?_)
  intro j call hj
  exact absurd hj (hworker.2.2 j call)

theorem moves_of_work (hs : s.work = some t) : ReflTransGen Move s t := by
  unfold work at hs
  split at hs
  case h_1 i hworker =>
    cases hs
    split_ifs with hstops
    · exact (Move.leave_check (by rw [hworker]; rfl) hstops).single
    · exact (Move.calling i .discovery (Or.inl hworker) (Bool.eq_false_iff.mpr hstops)).single
  case h_2 i stage hworker =>
    cases hs
    exact (Move.newCall i stage hworker).single
  case h_3 i stage call hworker =>
    cases hs
    split_ifs with hstops
    · exact (Move.withdrawing i stage call hworker).single
    · exact (Move.executing i stage call hworker (Bool.eq_false_iff.mpr hstops)).single
  case h_4 i stage call hworker =>
    cases hs
    exact (Move.cancelling i stage call hworker).single
  case h_5 i stage call hworker =>
    cases hs
    exact (Move.cancelCall i stage call hworker).single
  case h_6 i hworker =>
    cases hs
    split_ifs with hstops hsession
    · exact (Move.leave_check (by rw [hworker]; rfl) hstops).single
    · exact (Move.answered i .discovery .bootstrap s.session (Or.inr hworker)).single
    · exact (Move.calling i .bootstrap (Or.inr hworker) (Bool.eq_false_iff.mpr hstops)).single
  case h_7 i hworker =>
    cases hs
    split_ifs with hstops hunusable
    · exact (Move.leave_check (by rw [hworker]; rfl) hstops).single
    · exact (Move.loading i hworker hunusable).single
    · exact (Move.warm i hworker).single
  case h_8 i hworker =>
    cases hs
    split_ifs with hstops
    · exact (Move.leave_check (by rw [hworker]; rfl) hstops).single
    · have hopen : s.closed = false := (Bool.or_eq_false_iff.mp (Bool.eq_false_iff.mpr hstops)).1
      exact (Move.create i hworker hopen).single
  case h_9 i hworker =>
    obtain ⟨-, hs⟩ := Option.ite_none_right_eq_some.mp hs
    cases hs
    exact (Move.sign i _ hworker).single
  case h_10 i hworker =>
    cases hs
    exact (Move.hooking i _ hworker).single
  case h_11 i hworker =>
    cases hs
    exact (Move.listening i hworker).single
  case h_12 => cases hs

theorem moves_of_closeNext (hb : s.Begun) (hs : s.closeNext = some t) : ReflTransGen Move s t := by
  unfold closeNext at hs
  split at hs
  case h_1 i futures hclosing =>
    cases hs
    have hconnecting := hb.closing _ hclosing i (List.mem_cons_self ..)
    refine ReflTransGen.tail (moves_complete .cancelled hconnecting) ?_
    exact Move.closeFuture i futures (by rw [complete_closing, hclosing])
      (isDone_complete s i .cancelled)
  case h_2 hclosing => cases hs; exact (Move.closeCalls hclosing).single
  case h_3 call calls hclosing => cases hs; exact (Move.closeCall call calls hclosing).single
  case h_4 hclosing => cases hs; exact (Move.closeClear hclosing).single
  case h_5 hclosing => cases hs; exact (Move.clear hclosing).single
  case h_6 hclosing => cases hs; exact (Move.shutdownNow hclosing).single
  case h_7 hclosing => cases hs; exact (Move.closeSigner hclosing).single
  case h_8 => cases hs
  case h_9 => cases hs

theorem moves_of_answer (htime : s.downloadInTime = true) (hs : s.answer = some t) :
    ReflTransGen Move s t := by
  unfold answer at hs
  split at hs
  case h_1 i call hworker =>
    cases hs
    exact (Move.answered i .discovery .discovery s.session (Or.inl ⟨call, hworker⟩)).single
  case h_2 i call hworker =>
    cases hs
    exact (Move.answered i .bootstrap .bootstrap true (Or.inl ⟨call, hworker⟩)).single
  case h_3 i hworker =>
    cases hs
    exact (Move.creating i (Or.inl hworker) htime).single
  case h_4 i call hworker =>
    cases hs
    exact (Move.creating i (Or.inr ⟨call, hworker⟩) htime).single
  case h_5 => cases hs

/-- A call of `connect` whose task is rejected. -/
theorem moves_of_execute (hconnecting : s.connecting i = .registered) :
    ReflTransGen Move s (s.execute i) := by
  unfold execute
  split_ifs
  · have hpresent : s.connecting i ≠ .absent := by
      rw [hconnecting]
      decide
    refine ReflTransGen.tail (moves_complete .failed hpresent) ?_
    have hmove := Move.rejected (s := s.complete i .failed) i
      (by rw [complete_connecting, hconnecting]) (isDone_complete s i .failed)
    rwa [complete_connecting] at hmove
  · exact (Move.queued i hconnecting).single

theorem moves_of_signedRuns (hb : s.Begun) (ok : Bool) (hhook : s.signedHook i = .running) :
    ReflTransGen Move s (s.signedRuns i ok) := by
  have hconnecting : s.connecting i ≠ .absent := by
    rw [hb.signing i (Or.inr (by rw [hhook]; decide))]
    decide
  -- completing the future and leaving the hook commute
  have hrun : ∀ outcome : Outcome,
      ReflTransGen Move s ({ s with signedHook := update s.signedHook i .done }.complete i
        outcome) := by
    intro outcome
    have hswap : { s with signedHook := update s.signedHook i .done }.complete i outcome =
        { s.complete i outcome with
          signedHook := update (s.complete i outcome).signedHook i .done } := by
      have hsame : isDone { s with signedHook := update s.signedHook i .done } i = s.isDone i := rfl
      unfold complete
      rw [hsame]
      split <;> rfl
    rw [hswap]
    exact ReflTransGen.tail (moves_complete outcome hconnecting)
      (Move.signedDone i (by rw [complete_signedHook, hhook]) (stops_complete s i outcome))
  unfold signedRuns
  split_ifs with hstops
  · exact (Move.signedDone i hhook hstops).single
  · exact hrun .value
  · exact hrun .failed

theorem moves_of_stopSigning (s : State) (i : Nat) : ReflTransGen Move s (s.stopSigning i) := by
  unfold stopSigning
  split_ifs
  · exact ReflTransGen.tail (moves_completeSigning s i false) (Move.cancelHooks _)
  · exact (Move.cancelHooks _).single

/-- The answers and the exceptions that may end a download. -/
def inTime (s : State) : Action → Bool
  | .answer | .throw => s.downloadInTime
  | _ => true

theorem moves_of_step (hb : s.Begun) (htime : s.inTime a = true) (hs : s.step a = some t) :
    ReflTransGen Move s t := by
  cases a with
  | connect =>
    cases hs
    unfold connect
    split_ifs with hclosed
    · exact (Move.refused hclosed).single
    · exact (Move.admitted (Bool.eq_false_iff.mpr hclosed)).single
  | register i =>
    obtain ⟨hconnecting, hs⟩ := Option.ite_none_right_eq_some.mp hs
    cases hs
    exact (Move.register i hconnecting).single
  | execute i =>
    obtain ⟨hconnecting, hs⟩ := Option.ite_none_right_eq_some.mp hs
    cases hs
    exact moves_of_execute hconnecting
  | cancel i =>
    obtain ⟨hconnecting, hs⟩ := Option.ite_none_right_eq_some.mp hs
    cases hs
    exact moves_complete .cancelled (by rw [hconnecting]; decide)
  | remove i =>
    obtain ⟨hcallback, hs⟩ := Option.ite_none_right_eq_some.mp hs
    cases hs
    exact (Move.remove i hcallback).single
  | take i =>
    obtain ⟨hcallback, hs⟩ := Option.ite_none_right_eq_some.mp hs
    cases hs
    exact (Move.take i hcallback).single
  | drop i =>
    simp only [step] at hs
    split at hs
    case h_1 call hcallback => cases hs; exact (Move.drop i call hcallback).single
    case h_2 => cases hs
  | stopSigning i =>
    obtain ⟨-, hs⟩ := Option.ite_none_right_eq_some.mp hs
    cases hs
    exact moves_of_stopSigning s i
  | signed i ok =>
    obtain ⟨-, hs⟩ := Option.ite_none_right_eq_some.mp hs
    cases hs
    exact moves_completeSigning s i ok
  | signedRuns i ok =>
    obtain ⟨hhook, hs⟩ := Option.ite_none_right_eq_some.mp hs
    cases hs
    exact moves_of_signedRuns hb ok hhook
  | poll =>
    simp only [step] at hs
    split at hs
    case h_1 i queue hworker hqueue => cases hs; exact (Move.poll i queue hworker hqueue).single
    case h_2 => cases hs
  | work => exact moves_of_work hs
  | answer => exact moves_of_answer htime hs
  | offline =>
    simp only [step, offline] at hs
    split at hs
    case h_1 i call hworker =>
      cases hs
      refine moves_leave_complete hb .value nofun (by rw [hworker]; rfl) (by rw [hworker]; rfl) ?_
      refine downloadInTime_iff.mpr ?_
      intro j call hj
      rw [hworker] at hj
      cases hj
    case h_2 => cases hs
  | download =>
    simp only [step, startDownload] at hs
    split at hs
    case h_1 i hworker =>
      obtain ⟨hup, hs⟩ := Option.ite_none_left_eq_some.mp hs
      cases hs
      exact (Move.downloading i hworker (Bool.eq_false_iff.mpr hup)).single
    case h_2 => cases hs
  | throw =>
    obtain ⟨i, hthrows, rfl⟩ := Option.map_eq_some_iff.mp hs
    have hplace : s.worker.request = some i ∧ s.worker.leaves = true := by
      cases hw : s.worker <;> rw [hw] at hthrows <;> cases hthrows <;> exact ⟨rfl, rfl⟩
    exact moves_leave_complete hb .failed nofun hplace.1 hplace.2 htime
  | retire k =>
    obtain ⟨-, hs⟩ := Option.ite_none_right_eq_some.mp hs
    cases hs
    exact (Move.retire k).single
  | close =>
    cases hs
    unfold close
    split_ifs with hclosed
    · exact ReflTransGen.refl
    · exact (Move.close (by simpa [closed] using hclosed)).single
  | closeNext => exact moves_of_closeNext hb hs

end State

end TiktokSigner.JvmSigner.ConnectionProvider
