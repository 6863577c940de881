import TiktokSigner.Android.HandoffLaws
import TiktokSigner.Android.LiveClient

/-!
# The client releases its handle once and falls silent

The handle is in one place at a time: with the open, in the atomic field,
with the shutdown job, or released. It stays in the field only as long as a
party is left that will look there: the open before its check of `closed`,
or the shutdown job. A `disconnect` returns after the handoff is closed,
and a closed handoff calls nobody.
-/

namespace TiktokSigner.Android

open Function (update)

/-- The handle in the hands of the open. -/
def Opening.inHand : Opening → List Nat
  | storing handle => [handle]
  | releasing live => [live]
  | connecting | checking | swapping | finished | failed => []

/-- The native open has returned a handle. -/
def Opening.open : Opening → Bool
  | connecting | failed => false
  | storing _ | checking | swapping | releasing _ | finished => true

/-- The handle in the hands of the job. -/
def Shutdown.inHand : Shutdown → List Nat
  | taken live => [live]
  | absent | launched | done => []

/-- The listener's code is running. -/
def Main.inListener : Main → Bool
  | delivering _ _ | reporting _ => true
  | idle | pumping _ | failed _ _ | stopping _ | closing _ => false

namespace Handoff

variable {o : HandoffOptions} {s t : Handoff} {a : HandoffAction}

/-- A closed handoff stays closed and calls nobody. -/
theorem gone_of_move (hp : s.Pumps) (hm : Move o s a t) (hgone : s.consumers = false) :
    t.consumers = false ∧ t.calls = s.calls := by
  obtain ⟨hstopped, hempty⟩ := hp.closed hgone
  cases hm with
  | taken left notice queue _ hqueue =>
    rw [hempty] at hqueue
    cases hqueue
  | stopReturned left _ =>
    refine ⟨hgone, ?_⟩
    show s.calls ++ (if s.consumers then [failureError] else []) = s.calls
    rw [hgone, if_neg (by decide), List.append_nil]
  | closeFailed left _ => exact ⟨rfl, rfl⟩
  | close => exact ⟨rfl, rfl⟩
  | _ => exact ⟨hgone, rfl⟩

/-- The handoff is closed at the end of a failed delivery, and no consumer
is called afterwards. -/
theorem rests_of_move (hp : s.Pumps) (hm : Move o s a t) (hclose : a ≠ .close)
    (hrests : s.consumers = false → s.main.inListener = false ∧ s.main.calm = true)
    (hgone : t.consumers = false) : t.main.inListener = false ∧ t.main.calm = true := by
  cases hm with
  | run _ _ => exact ⟨rfl, rfl⟩
  | turnOver _ _ => exact ⟨rfl, rfl⟩
  | turnAgain _ _ => exact ⟨rfl, rfl⟩
  | skipped left _ _ => exact ⟨rfl, rfl⟩
  | returned left notice _ => exact ⟨rfl, rfl⟩
  | closeFailed left _ => exact ⟨rfl, rfl⟩
  | close => exact absurd rfl hclose
  | taken left notice queue _ hqueue =>
    rw [(hp.closed hgone).2] at hqueue
    cases hqueue
  | threw left notice hmain =>
    have hlistener := (hrests hgone).1
    rw [hmain] at hlistener
    cases hlistener
  | count left notice hmain =>
    have hcalm := (hrests hgone).2
    rw [hmain] at hcalm
    cases hcalm
  | stopReturned left hmain =>
    have hcalm := (hrests hgone).2
    rw [hmain] at hcalm
    cases hcalm
  | reported left hmain =>
    have hcalm := (hrests hgone).2
    rw [hmain] at hcalm
    cases hcalm
  | _ => exact hrests hgone

end Handoff

namespace LiveClient

variable {o : HandoffOptions} {s t : LiveClient} {a : LiveAction}

/-! ## What a step does -/

inductive Move (o : HandoffOptions) (s : LiveClient) : LiveClient → Prop where
  | opened (handle : Nat) (hopening : s.opening = .connecting) :
      Move o s { s with
        opening := if handle = 0 then .failed else .storing handle
        native := handle }
  | store (handle : Nat) (hopening : s.opening = .storing handle) :
      Move o s { s with opening := .checking, handle := handle }
  | check (hopening : s.opening = .checking) :
      Move o s { s with opening := if s.closed then .swapping else .finished }
  | swap (hopening : s.opening = .swapping) :
      Move o s { s with
        opening := if s.handle = 0 then .finished else .releasing s.handle
        handle := 0 }
  | release (live : Nat) (hopening : s.opening = .releasing live) :
      Move o s { s with opening := .finished, released := s.released ++ [live] }
  | dropped : Move o s s
  | callback (a : HandoffAction) (notice : Notice) (hoffer : a.offered = some notice) :
      Move o s { s with offers := s.offers ++ [a] }
  | offer (a : HandoffAction) (handoff : Handoff) (overloads : Nat) (hmem : a ∈ s.offers)
      (hstep : s.handoff.step o a = some handoff) :
      Move o s { s.setHandoff handoff with offers := s.offers.erase a, overloads := overloads }
  | overloaded : Move o s { s.requestShutdown with overloads := s.overloads - 1 }
  | stop (handoff : Handoff) (hstep : s.handoff.step o .stopReturned = some handoff) :
      Move o s (s.onOverflow.setHandoff handoff)
  | main (a : HandoffAction) (handoff : Handoff) (hclose : a ≠ .close)
      (hstep : s.handoff.step o a = some handoff) : Move o s (s.setHandoff handoff)
  | jobTake (hshutdown : s.shutdown = .launched) :
      Move o s { s with
        shutdown := if s.handle = 0 then .done else .taken s.handle
        handle := 0 }
  | jobRelease (live : Nat) (hshutdown : s.shutdown = .taken live) :
      Move o s { s with shutdown := .done, released := s.released ++ [live] }
  | disconnect (i : Nat) (hcall : s.disconnects i = .absent) :
      Move o s { s.requestShutdown with disconnects := update s.disconnects i .requested }
  | closeHandoff (i : Nat) (handoff : Handoff)
      (hstep : s.handoff.step o .close = some handoff) :
      Move o s { s with
        handoff := handoff
        disconnects := update s.disconnects i .closed
        reentered := s.reentered || s.handoff.main != .idle }
  | join (i : Nat) (hcall : s.disconnects i = .closed) :
      Move o s { s with disconnects := update s.disconnects i .returned }

theorem Move.of_mainStep {a : HandoffAction} (hs : s.mainStep o a = some t) : Move o s t := by
  unfold mainStep at hs
  split at hs
  case h_1 => cases hs
  case h_2 => cases hs
  case h_3 => cases hs
  case h_4 =>
    obtain ⟨handoff, hstep, rfl⟩ := Option.map_eq_some_iff.mp hs
    exact Move.stop handoff hstep
  case h_5 =>
    obtain ⟨handoff, hstep, rfl⟩ := Option.map_eq_some_iff.mp hs
    exact Move.main _ handoff (by assumption) hstep

theorem Move.of_step (hs : s.step o a = some t) : Move o s t := by
  cases a with
  | opened handle =>
    obtain ⟨hopening, hs⟩ := Option.ite_none_right_eq_some.mp hs
    cases hs
    exact Move.opened handle hopening
  | store =>
    simp only [step] at hs
    split at hs
    case h_1 handle hopening => cases hs; exact Move.store handle hopening
    case h_2 => cases hs
  | check =>
    obtain ⟨hopening, hs⟩ := Option.ite_none_right_eq_some.mp hs
    cases hs
    exact Move.check hopening
  | swap =>
    obtain ⟨hopening, hs⟩ := Option.ite_none_right_eq_some.mp hs
    cases hs
    exact Move.swap hopening
  | release =>
    simp only [step] at hs
    split at hs
    case h_1 live hopening => cases hs; exact Move.release live hopening
    case h_2 => cases hs
  | onEvent json =>
    cases hs
    split_ifs
    · exact Move.dropped
    · exact Move.callback _ _ rfl
  | onState kind detail =>
    cases hs
    split_ifs
    · exact Move.dropped
    · exact Move.callback _ _ rfl
  | offer a =>
    obtain ⟨hmem, hs⟩ := Option.ite_none_right_eq_some.mp hs
    obtain ⟨handoff, hstep, rfl⟩ := Option.map_eq_some_iff.mp hs
    exact Move.offer a handoff _ (List.contains_iff_mem.mp hmem) hstep
  | overloaded =>
    obtain ⟨-, hs⟩ := Option.ite_none_right_eq_some.mp hs
    cases hs
    exact Move.overloaded
  | main a => exact Move.of_mainStep hs
  | jobTake =>
    obtain ⟨hshutdown, hs⟩ := Option.ite_none_right_eq_some.mp hs
    cases hs
    exact Move.jobTake hshutdown
  | jobRelease =>
    simp only [step] at hs
    split at hs
    case h_1 live hshutdown => cases hs; exact Move.jobRelease live hshutdown
    case h_2 => cases hs
  | disconnect i =>
    obtain ⟨hcall, hs⟩ := Option.ite_none_right_eq_some.mp hs
    cases hs
    exact Move.disconnect i hcall
  | closeHandoff i =>
    obtain ⟨-, hs⟩ := Option.ite_none_right_eq_some.mp hs
    obtain ⟨handoff, hstep, rfl⟩ := Option.map_eq_some_iff.mp hs
    exact Move.closeHandoff i handoff hstep
  | join i =>
    obtain ⟨hcall, hs⟩ := Option.ite_none_right_eq_some.mp hs
    cases hs
    exact Move.join i hcall.1

/-! ## Where the handle is -/

/-- The handle in the atomic field. -/
def stored (s : LiveClient) : List Nat :=
  if s.handle = 0 then [] else [s.handle]

def places (s : LiveClient) : List Nat :=
  s.opening.inHand ++ s.stored ++ s.shutdown.inHand ++ s.released

/-- The open has not checked `closed` yet, or is about to swap the field. -/
def watched (s : LiveClient) : Prop :=
  s.opening = .checking ∨ s.opening = .swapping

structure Held (s : LiveClient) : Prop where
  one : s.places.Perm (if s.opening.open then [s.native] else [])
  nonzero : s.opening.open = true → s.native ≠ 0
  closed : s.closed = true ↔ s.shutdown ≠ .absent
  kept : s.handle ≠ 0 → s.watched ∨ s.shutdown = .absent ∨ s.shutdown = .launched

namespace Held

theorem of_eq (h : s.Held) (hopening : t.opening = s.opening) (hhandle : t.handle = s.handle)
    (hclosed : t.closed = s.closed) (hshutdown : t.shutdown = s.shutdown)
    (hnative : t.native = s.native) (hreleased : t.released = s.released) : t.Held := by
  constructor
  · rw [places, stored, hopening, hhandle, hshutdown, hnative, hreleased]
    exact h.one
  · rw [hopening, hnative]
    exact h.nonzero
  · rw [hclosed, hshutdown]
    exact h.closed
  · rw [hhandle, watched, hopening, hshutdown]
    exact h.kept

theorem requestShutdown (h : s.Held) : s.requestShutdown.Held := by
  by_cases habsent : s.shutdown = .absent
  · have hone := h.one
    rw [places, habsent] at hone
    constructor
    · simp only [places, stored, LiveClient.requestShutdown, habsent]
      exact hone
    · exact h.nonzero
    · simp [LiveClient.requestShutdown, habsent]
    · intro _
      right
      right
      simp [LiveClient.requestShutdown, habsent]
  · -- the job is there already
    refine h.of_eq rfl rfl (h.closed.mpr habsent).symm ?_ rfl rfl
    unfold LiveClient.requestShutdown
    split
    case h_1 heq => exact absurd heq habsent
    case h_2 => rfl

/-- While the open has the handle nobody else does. -/
theorem alone (h : s.Held) {handle : Nat} (hin : s.opening.inHand = [handle])
    (hopen : s.opening.open = true) :
    handle = s.native ∧ s.handle = 0 ∧ s.shutdown.inHand = [] ∧ s.released = [] := by
  have hone := h.one
  rw [places, hin, hopen, if_pos rfl, List.perm_singleton, List.append_assoc, List.append_assoc,
    List.singleton_append] at hone
  obtain ⟨hhandle, hrest⟩ := List.cons.inj hone
  obtain ⟨hstored, hrest⟩ := List.append_eq_nil_iff.mp hrest
  obtain ⟨hjob, hreleased⟩ := List.append_eq_nil_iff.mp hrest
  refine ⟨hhandle, ?_, hjob, hreleased⟩
  by_contra hne
  rw [stored, if_neg hne] at hstored
  cases hstored

theorem opened (h : s.Held) (handle : Nat) (hopening : s.opening = .connecting) :
    Held { s with
      opening := if handle = 0 then .failed else .storing handle
      native := handle } := by
  have hone := h.one
  rw [places, hopening, Opening.open, if_neg (by decide), List.perm_nil] at hone
  obtain ⟨hrest, hreleased⟩ := List.append_eq_nil_iff.mp hone
  obtain ⟨hrest, hjob⟩ := List.append_eq_nil_iff.mp hrest
  obtain ⟨-, hstored⟩ := List.append_eq_nil_iff.mp hrest
  have hzero : s.handle = 0 := by
    by_contra hne
    rw [stored, if_neg hne] at hstored
    cases hstored
  by_cases hhandle : handle = 0
  · rw [if_pos hhandle]
    constructor
    · simp [places, stored, Opening.inHand, Opening.open, hzero, hjob, hreleased]
    · exact nofun
    · exact h.closed
    · intro hne
      exact absurd hzero hne
  · rw [if_neg hhandle]
    constructor
    · simp [places, stored, Opening.inHand, Opening.open, hzero, hjob, hreleased]
    · intro _
      exact hhandle
    · exact h.closed
    · intro hne
      exact absurd hzero hne

theorem store (h : s.Held) {handle : Nat} (hopening : s.opening = .storing handle) :
    Held { s with opening := .checking, handle := handle } := by
  have hopen : s.opening.open = true := by rw [hopening]; rfl
  obtain ⟨hhandle, -, hjob, hreleased⟩ := h.alone (by rw [hopening]; rfl) hopen
  have hne : s.native ≠ 0 := h.nonzero hopen
  constructor
  · simp [places, stored, Opening.inHand, Opening.open, hne, hjob, hreleased, hhandle]
  · intro _
    exact h.nonzero hopen
  · exact h.closed
  · intro _
    exact Or.inl (Or.inl rfl)

theorem check (h : s.Held) (hopening : s.opening = .checking) :
    Held { s with opening := if s.closed then .swapping else .finished } := by
  have hone := h.one
  have hnonzero := h.nonzero
  rw [hopening] at hnonzero
  rw [places, hopening] at hone
  by_cases hclosed : s.closed = true
  · rw [if_pos hclosed]
    exact ⟨hone, hnonzero, h.closed, fun _ => Or.inl (Or.inr rfl)⟩
  · rw [if_neg hclosed]
    have habsent : s.shutdown = .absent := by
      by_contra hne
      exact hclosed (h.closed.mpr hne)
    exact ⟨hone, hnonzero, h.closed, fun _ => Or.inr (Or.inl habsent)⟩

theorem swap (h : s.Held) (hopening : s.opening = .swapping) :
    Held { s with
      opening := if s.handle = 0 then .finished else .releasing s.handle
      handle := 0 } := by
  have hone := h.one
  have hnonzero := h.nonzero
  rw [hopening] at hnonzero
  rw [places, stored, hopening] at hone
  by_cases hhandle : s.handle = 0
  · rw [if_pos hhandle] at hone ⊢
    exact ⟨hone, hnonzero, h.closed, fun hne => absurd rfl hne⟩
  · rw [if_neg hhandle] at hone ⊢
    exact ⟨hone, hnonzero, h.closed, fun hne => absurd rfl hne⟩

theorem release (h : s.Held) {live : Nat} (hopening : s.opening = .releasing live) :
    Held { s with opening := .finished, released := s.released ++ [live] } := by
  have hopen : s.opening.open = true := by rw [hopening]; rfl
  obtain ⟨hlive, hzero, hjob, hreleased⟩ := h.alone (by rw [hopening]; rfl) hopen
  constructor
  · simp [places, stored, Opening.inHand, Opening.open, hzero, hjob, hreleased, hlive]
  · intro _
    exact h.nonzero hopen
  · exact h.closed
  · intro hne
    exact absurd hzero hne

theorem jobTake (h : s.Held) (hshutdown : s.shutdown = .launched) :
    Held { s with
      shutdown := if s.handle = 0 then .done else .taken s.handle
      handle := 0 } := by
  have hone := h.one
  have hclosed : s.closed = true := h.closed.mpr (by rw [hshutdown]; decide)
  rw [places, stored, hshutdown] at hone
  by_cases hhandle : s.handle = 0
  · rw [if_pos hhandle] at hone ⊢
    exact ⟨hone, h.nonzero, ⟨fun _ => nofun, fun _ => hclosed⟩, fun hne => absurd rfl hne⟩
  · rw [if_neg hhandle] at hone ⊢
    refine ⟨?_, h.nonzero, ⟨fun _ => nofun, fun _ => hclosed⟩, fun hne => absurd rfl hne⟩
    simpa [places, stored, Shutdown.inHand] using hone

theorem jobRelease (h : s.Held) {live : Nat} (hshutdown : s.shutdown = .taken live) :
    Held { s with shutdown := .done, released := s.released ++ [live] } := by
  have hone := h.one
  have hkept := h.kept
  have hclosed : s.closed = true := h.closed.mpr (by rw [hshutdown]; exact nofun)
  rw [places, hshutdown] at hone
  rw [hshutdown] at hkept
  constructor
  · refine List.Perm.trans ?_ hone
    simp only [places, Shutdown.inHand, List.append_assoc]
    refine List.Perm.append_left _ (List.Perm.append_left _ ?_)
    exact List.perm_append_singleton live s.released
  · exact h.nonzero
  · exact ⟨fun _ => nofun, fun _ => hclosed⟩
  · intro hne
    rcases hkept hne with hwatched | hgone | hgone
    · exact Or.inl hwatched
    · cases hgone
    · cases hgone

theorem move (h : s.Held) (hm : Move o s t) : t.Held := by
  cases hm with
  | opened handle hopening => exact h.opened handle hopening
  | store handle hopening => exact h.store hopening
  | check hopening => exact h.check hopening
  | swap hopening => exact h.swap hopening
  | release live hopening => exact h.release hopening
  | jobTake hshutdown => exact h.jobTake hshutdown
  | jobRelease live hshutdown => exact h.jobRelease hshutdown
  | overloaded => exact h.requestShutdown.of_eq rfl rfl rfl rfl rfl rfl
  | disconnect i _ => exact h.requestShutdown.of_eq rfl rfl rfl rfl rfl rfl
  | stop handoff _ =>
    unfold onOverflow
    split_ifs
    · exact h.requestShutdown.of_eq rfl rfl rfl rfl rfl rfl
    · exact h.of_eq rfl rfl rfl rfl rfl rfl
  | dropped => exact h
  | callback _ _ _ => exact h.of_eq rfl rfl rfl rfl rfl rfl
  | offer _ _ _ _ _ => exact h.of_eq rfl rfl rfl rfl rfl rfl
  | main _ _ _ _ => exact h.of_eq rfl rfl rfl rfl rfl rfl
  | closeHandoff _ _ _ => exact h.of_eq rfl rfl rfl rfl rfl rfl
  | join _ _ => exact h.of_eq rfl rfl rfl rfl rfl rfl

theorem initial : ({} : LiveClient).Held :=
  ⟨List.Perm.refl _, nofun, ⟨nofun, fun h => absurd rfl h⟩, fun h => absurd rfl h⟩

end Held

/-! ## The listener calls -/

/-- A handoff whose calls have not grown has called nobody. -/
theorem setHandoff_heard (s : LiveClient) {handoff : Handoff}
    (hcalls : handoff.calls = s.handoff.calls) : (s.setHandoff handoff).heard = s.heard := by
  rw [setHandoff, hcalls, List.drop_length, List.filter_nil, List.append_nil]

theorem onOverflow_handoff (s : LiveClient) : s.onOverflow.handoff = s.handoff := by
  unfold onOverflow
  split <;> rfl

theorem onOverflow_heard (s : LiveClient) : s.onOverflow.heard = s.heard := by
  unfold onOverflow
  split <;> rfl

theorem onOverflow_disconnects (s : LiveClient) : s.onOverflow.disconnects = s.disconnects := by
  unfold onOverflow
  split <;> rfl

theorem onOverflow_reentered (s : LiveClient) : s.onOverflow.reentered = s.reentered := by
  unfold onOverflow
  split <;> rfl

theorem onOverflow_offers (s : LiveClient) : s.onOverflow.offers = s.offers := by
  unfold onOverflow
  split <;> rfl

/-- A `disconnect` past its close. -/
def handoffClosed (s : LiveClient) : Prop :=
  ∃ i, s.disconnects i = .closed ∨ s.disconnects i = .returned

/-- Between two notices, with nobody's code running. -/
def resting (s : LiveClient) : Prop :=
  s.handoff.main.inListener = false ∧ s.handoff.main.calm = true

structure Silent (s : LiveClient) : Prop where
  pumps : s.handoff.Pumps
  workers : ∀ a ∈ s.offers, a.offered ≠ none
  closed : s.handoffClosed → s.handoff.consumers = false
  rests : s.handoff.consumers = false → s.reentered = false → s.resting

namespace Silent

theorem of_eq (h : s.Silent) (hhandoff : t.handoff = s.handoff) (hoffers : t.offers = s.offers)
    (hclosed : t.handoffClosed → s.handoffClosed) (hreentered : t.reentered = s.reentered) :
    t.Silent := by
  constructor
  · rw [hhandoff]
    exact h.pumps
  · rw [hoffers]
    exact h.workers
  · intro hc
    rw [hhandoff]
    exact h.closed (hclosed hc)
  · rw [hhandoff, hreentered, resting, hhandoff]
    exact h.rests

/-- A step of the handoff that is not the owner's close. -/
theorem setHandoff (h : s.Silent) {a : HandoffAction} {handoff : Handoff} (hclose : a ≠ .close)
    (hstep : s.handoff.step o a = some handoff) : (s.setHandoff handoff).Silent := by
  have hm := Handoff.Move.of_step hstep
  constructor
  · exact h.pumps.move hm
  · exact h.workers
  · intro hc
    exact (Handoff.gone_of_move h.pumps hm (h.closed hc)).1
  · intro hgone hreentered
    exact Handoff.rests_of_move h.pumps hm hclose (fun hgone => h.rests hgone hreentered) hgone

/-- A call that has not closed the handoff yet. -/
theorem handoffClosed_of_update (i : Nat) (phase : Disconnecting)
    (hphase : phase ≠ .closed ∧ phase ≠ .returned)
    (hdisconnects : t.disconnects = update s.disconnects i phase) (hc : t.handoffClosed) :
    s.handoffClosed := by
  obtain ⟨j, hj⟩ := hc
  rw [hdisconnects] at hj
  by_cases hji : j = i
  · subst hji
    rw [Function.update_self] at hj
    rcases hj with hj | hj
    · exact absurd hj hphase.1
    · exact absurd hj hphase.2
  · rw [Function.update_of_ne hji] at hj
    exact ⟨j, hj⟩

theorem closeHandoff (h : s.Silent) (i : Nat) {handoff : Handoff}
    (hstep : s.handoff.step o .close = some handoff) :
    Silent { s with
      handoff := handoff
      disconnects := update s.disconnects i .closed
      reentered := s.reentered || s.handoff.main != .idle } := by
  have heq := Handoff.eq_of_close hstep
  constructor
  · exact h.pumps.move (Handoff.Move.of_step hstep)
  · exact h.workers
  · intro _
    rw [heq]
    rfl
  · intro _ hreentered
    obtain ⟨-, hidle⟩ := Bool.or_eq_false_iff.mp hreentered
    have hmain : handoff.main = .idle := by
      rw [heq]
      show s.handoff.main = .idle
      simpa using hidle
    show handoff.main.inListener = false ∧ handoff.main.calm = true
    rw [hmain]
    exact ⟨rfl, rfl⟩

theorem move (h : s.Silent) (hm : Move o s t) : t.Silent := by
  cases hm with
  | opened _ _ => exact h.of_eq rfl rfl id rfl
  | store _ _ => exact h.of_eq rfl rfl id rfl
  | check _ => exact h.of_eq rfl rfl id rfl
  | swap _ => exact h.of_eq rfl rfl id rfl
  | release _ _ => exact h.of_eq rfl rfl id rfl
  | dropped => exact h
  | callback a notice hoffer =>
    refine ⟨h.pumps, ?_, h.closed, h.rests⟩
    intro b hb
    rcases List.mem_append.mp hb with hb | hb
    · exact h.workers b hb
    · rw [List.mem_singleton.mp hb, hoffer]
      exact nofun
  | offer a handoff overloads hmem hstep =>
    have hclose : a ≠ .close := by
      rintro rfl
      exact h.workers _ hmem rfl
    have hset := h.setHandoff hclose hstep
    refine ⟨hset.pumps, ?_, hset.closed, hset.rests⟩
    intro b hb
    exact h.workers b (List.mem_of_mem_erase hb)
  | overloaded => exact h.of_eq rfl rfl id rfl
  | stop handoff hstep =>
    have hflow : s.onOverflow.Silent := by
      refine h.of_eq (onOverflow_handoff s) (onOverflow_offers s) ?_ (onOverflow_reentered s)
      rw [handoffClosed, onOverflow_disconnects]
      exact id
    refine hflow.setHandoff (o := o) (a := .stopReturned) nofun ?_
    rw [onOverflow_handoff]
    exact hstep
  | main a handoff hclose hstep => exact h.setHandoff hclose hstep
  | jobTake _ => exact h.of_eq rfl rfl id rfl
  | jobRelease _ _ => exact h.of_eq rfl rfl id rfl
  | disconnect i _ =>
    exact h.of_eq rfl rfl (handoffClosed_of_update i .requested ⟨nofun, nofun⟩ rfl) rfl
  | closeHandoff i handoff hstep => exact h.closeHandoff i hstep
  | join i hcall =>
    refine h.of_eq rfl rfl (fun _ => ⟨i, Or.inl hcall⟩) rfl

theorem initial : ({} : LiveClient).Silent := by
  refine ⟨Handoff.Pumps.initial, nofun, ?_, nofun⟩
  rintro ⟨i, hi | hi⟩ <;> cases hi

/-- Once the handoff is closed the listener is not called. -/
theorem heard_of_move (h : s.Silent) (hc : s.handoffClosed) (hm : Move o s t) :
    t.handoffClosed ∧ t.heard = s.heard := by
  have hgone := h.closed hc
  cases hm with
  | offer a handoff overloads hmem hstep =>
    have hcalls := (Handoff.gone_of_move h.pumps (Handoff.Move.of_step hstep) hgone).2
    exact ⟨hc, setHandoff_heard s hcalls⟩
  | main a handoff hclose hstep =>
    have hcalls := (Handoff.gone_of_move h.pumps (Handoff.Move.of_step hstep) hgone).2
    exact ⟨hc, setHandoff_heard s hcalls⟩
  | stop handoff hstep =>
    have hcalls := (Handoff.gone_of_move h.pumps (Handoff.Move.of_step hstep) hgone).2
    constructor
    · show s.onOverflow.handoffClosed
      rw [handoffClosed, onOverflow_disconnects]
      exact hc
    · rw [setHandoff_heard s.onOverflow (by rw [onOverflow_handoff, hcalls]), onOverflow_heard]
  | disconnect i hcall =>
    obtain ⟨j, hj⟩ := hc
    have hne : j ≠ i := by
      rintro rfl
      rw [hcall] at hj
      rcases hj with hj | hj <;> cases hj
    refine ⟨⟨j, ?_⟩, rfl⟩
    simp only [Function.update_of_ne hne]
    exact hj
  | closeHandoff i handoff _ =>
    refine ⟨⟨i, Or.inl ?_⟩, rfl⟩
    exact Function.update_self ..
  | join i _ =>
    refine ⟨⟨i, Or.inr ?_⟩, rfl⟩
    exact Function.update_self ..
  | _ => exact ⟨hc, rfl⟩

end Silent

/-! ## Runs -/

/-- Where the handle is, and who can call the listener. -/
structure Sound (s : LiveClient) : Prop where
  held : s.Held
  silent : s.Silent

theorem Sound.of_run (o : HandoffOptions) {as : List LiveAction} (h : s.Sound)
    (hrun : Lts.run (LiveClient.step o) s as = some t) : t.Sound := by
  refine Lts.run_invariant_all (I := Sound) ?_ h hrun
  intro s₁ a s₂ hsound hs
  have hm := Move.of_step hs
  exact ⟨hsound.held.move hm, hsound.silent.move hm⟩

theorem heard_of_run {as : List LiveAction} (h : s.Silent) (hc : s.handoffClosed)
    (hrun : Lts.run (LiveClient.step o) s as = some t) : t.heard = s.heard := by
  have hall : t.Silent ∧ t.handoffClosed ∧ t.heard = s.heard := by
    refine Lts.run_invariant_all
      (I := fun t => t.Silent ∧ t.handoffClosed ∧ t.heard = s.heard) ?_ ⟨h, hc, rfl⟩ hrun
    intro s₁ a s₂ ⟨hsilent, hclosed, hheard⟩ hs
    have hm := Move.of_step hs
    obtain ⟨hclosed', hheard'⟩ := hsilent.heard_of_move hclosed hm
    exact ⟨hsilent.move hm, hclosed', hheard'.trans hheard⟩
  exact hall.2.2

/-- The handle is released at most once, exactly once when the client is
closed and the two parties are done; after a `disconnect` has returned no
listener call starts, and none is running unless it closed the handoff
itself. -/
structure Laws (o : HandoffOptions) (s : LiveClient) : Prop where
  once : s.released.length ≤ 1
  own : ∀ handle ∈ s.released, handle = s.native
  released : s.closed = true → s.opening = .finished → s.shutdown = .done →
    s.released = [s.native]
  silent : ∀ i, s.disconnects i = .returned → ∀ as t,
    Lts.run (LiveClient.step o) s as = some t → t.heard = s.heard
  quiet : ∀ i, s.disconnects i = .returned → s.reentered = false →
    s.handoff.main.inListener = false

/-- Released handles are among the places. -/
theorem Held.released_perm (h : s.Held) :
    s.released.length ≤ 1 ∧ ∀ handle ∈ s.released, handle = s.native := by
  have hsub : ∀ handle ∈ s.released, handle ∈ s.places := by
    intro handle hmem
    exact List.mem_append_right _ hmem
  have hlen : s.released.length ≤ s.places.length := by
    rw [places, List.length_append]
    exact Nat.le_add_left _ _
  have hone := h.one
  rw [hone.length_eq] at hlen
  cases hopen : s.opening.open with
  | true =>
    rw [hopen, if_pos rfl] at hone hlen
    refine ⟨hlen, ?_⟩
    intro handle hmem
    exact List.mem_singleton.mp (hone.subset (hsub handle hmem))
  | false =>
    rw [hopen, if_neg (by decide)] at hone hlen
    refine ⟨Nat.le_succ_of_le hlen, ?_⟩
    intro handle hmem
    cases hone.subset (hsub handle hmem)

theorem Held.released_eq (h : s.Held) (hopening : s.opening = .finished)
    (hshutdown : s.shutdown = .done) : s.released = [s.native] := by
  have hzero : s.handle = 0 := by
    by_contra hne
    rcases h.kept hne with (hgone | hgone) | hgone | hgone
    · rw [hopening] at hgone
      cases hgone
    · rw [hopening] at hgone
      cases hgone
    · rw [hshutdown] at hgone
      cases hgone
    · rw [hshutdown] at hgone
      cases hgone
  have hone := h.one
  rw [places, stored, hopening, hshutdown, if_pos hzero] at hone
  exact List.perm_singleton.mp hone

theorem Laws.of_sound (o : HandoffOptions) (h : s.Sound) : Laws o s := by
  obtain ⟨honce, hown⟩ := h.held.released_perm
  constructor
  · exact honce
  · exact hown
  · intro _ hopening hshutdown
    exact h.held.released_eq hopening hshutdown
  · intro i hi as t hrun
    exact heard_of_run h.silent ⟨i, Or.inr hi⟩ hrun
  · intro i hi hreentered
    exact (h.silent.rests (h.silent.closed ⟨i, Or.inr hi⟩) hreentered).1

theorem live_client_released_once (o : HandoffOptions) {as : List LiveAction} {s : LiveClient}
    (hrun : Lts.run (LiveClient.step o) {} as = some s) : Laws o s :=
  Laws.of_sound o (Sound.of_run o ⟨Held.initial, Silent.initial⟩ hrun)

/-- An event that does not fit stops the client before its handle is known;
the open releases the handle itself. The first of two `disconnect` calls
returns, and whatever happens next the listener hears nothing more. -/
theorem live_client_released_once_after_early_overflow :
    ∃ s, Lts.run (LiveClient.step ⟨1, 100, 2, by decide, by decide, by decide⟩) {}
        [.onEvent "{}", .onState "open" "", .offer (.event "{}"), .offer (.state "open" ""),
          .overloaded, .jobTake, .opened 7, .store, .check, .swap, .release, .main .run,
          .main .next, .disconnect 0, .main .returned, .disconnect 1, .main .next, .main .next,
          .closeHandoff 0, .join 0] = some s ∧
      (s.closed = true ∧ s.opening = .finished ∧ s.shutdown = .done ∧ s.released = [7] ∧
        s.disconnects 0 = .returned ∧ s.disconnects 1 = .requested ∧
        s.heard = [overflowError]) ∧
      Laws ⟨1, 100, 2, by decide, by decide, by decide⟩ s ∧
      ∀ as t, Lts.run (LiveClient.step ⟨1, 100, 2, by decide, by decide, by decide⟩) s as = some t →
        t.heard = [overflowError] := by
  refine Lts.exists_run (P := fun s => s.closed = true ∧ s.opening = .finished ∧
    s.shutdown = .done ∧ s.released = [7] ∧ s.disconnects 0 = .returned ∧
    s.disconnects 1 = .requested ∧ s.heard = [overflowError]) (by decide) ?_
  intro s hrun hend
  have hlaws := live_client_released_once _ hrun
  refine ⟨hend, hlaws, ?_⟩
  intro as t hrun'
  obtain ⟨_, _, _, _, hreturned, _, hheard⟩ := hend
  rw [hlaws.silent 0 hreturned as t hrun', hheard]

end LiveClient

end TiktokSigner.Android
