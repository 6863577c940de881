import TiktokSigner.JvmSigner.ProviderMoves

/-!
# The provider's futures

What `connect` has told each of its futures, and who is going to complete
it: `connect` itself, the worker's queue, `prepare`, the signer's future
with its callback, or `close`.
-/

namespace TiktokSigner.JvmSigner.ConnectionProvider

open Function (update)

namespace State

variable {s t : State} {a : Action} {i : Nat}

/-! ## The futures -/

/-- What `connect`, its future, its callback and `pending` have to do with
each other. -/
def Fits : Connecting → Option Outcome → Callback → Bool → Prop
  | .absent, outcome, .absent, waiting => outcome = none ∧ waiting = false
  | .refused, outcome, .absent, waiting => outcome ≠ none ∧ waiting = false
  | .admitted, _, .absent, waiting => waiting = true
  | .registered, outcome, callback, waiting | .returned, outcome, callback, waiting =>
      match callback with
      | .absent => False
      | .registered => outcome = none ∧ waiting = true
      | .removing => outcome ≠ none ∧ waiting = true
      | .taking | .dropping _ | .done => outcome ≠ none ∧ waiting = false
  | _, _, _, _ => False

theorem Fits.of_past {connecting : Connecting} {outcome : Option Outcome}
    {callback callback' : Callback} {waiting : Bool} (h : Fits connecting outcome callback waiting)
    (hpast : callback.past = true) (hpast' : callback'.past = true) :
    Fits connecting outcome callback' waiting := by
  cases connecting <;> cases callback <;> cases hpast <;> cases callback' <;> cases hpast' <;>
    exact h

def fits (s : State) (i : Nat) : Prop :=
  Fits (s.connecting i) (s.outcome i) (s.callback i) (s.pending i)

structure Futures (s : State) : Prop where
  fresh : ∀ i, s.launched ≤ i → s.connecting i = .absent
  fits : ∀ i, s.fits i

namespace Futures

theorem of_eq (h : s.Futures) (hlaunched : t.launched = s.launched)
    (hconnecting : t.connecting = s.connecting) (houtcome : t.outcome = s.outcome)
    (hcallback : t.callback = s.callback) (hpending : t.pending = s.pending) : t.Futures := by
  constructor
  · rw [hlaunched, hconnecting]
    exact h.fresh
  · intro i
    rw [State.fits, hconnecting, houtcome, hcallback, hpending]
    exact h.fits i

/-- One request changes. -/
theorem of_one (h : s.Futures) (i : Nat) (hlaunched : t.launched = s.launched)
    (hpresent : s.connecting i ≠ .absent)
    (hothers : ∀ j, j ≠ i → t.connecting j = s.connecting j ∧ t.outcome j = s.outcome j ∧
      t.callback j = s.callback j ∧ t.pending j = s.pending j)
    (hfits : t.fits i) : t.Futures := by
  constructor
  · intro j hj
    rw [hlaunched] at hj
    by_cases hji : j = i
    · subst hji
      exact absurd (h.fresh j hj) hpresent
    · rw [(hothers j hji).1]
      exact h.fresh j hj
  · intro j
    by_cases hji : j = i
    · subst hji
      exact hfits
    · obtain ⟨hconnecting, houtcome, hcallback, hpending⟩ := hothers j hji
      rw [State.fits, hconnecting, houtcome, hcallback, hpending]
      exact h.fits j

/-- The next number is a new request's. -/
theorem of_new (h : s.Futures) (hlaunched : t.launched = s.launched + 1)
    (hothers : ∀ j, j ≠ s.launched → t.connecting j = s.connecting j ∧ t.outcome j = s.outcome j ∧
      t.callback j = s.callback j ∧ t.pending j = s.pending j)
    (hfits : t.fits s.launched) : t.Futures := by
  constructor
  · intro j hj
    have hne : j ≠ s.launched := by omega
    rw [(hothers j hne).1]
    exact h.fresh j (by omega)
  · intro j
    by_cases hj : j = s.launched
    · subst hj
      exact hfits
    · obtain ⟨hconnecting, houtcome, hcallback, hpending⟩ := hothers j hj
      rw [State.fits, hconnecting, houtcome, hcallback, hpending]
      exact h.fits j

/-- Nothing is there of a request that is not there. -/
theorem new (h : s.Futures) :
    s.outcome s.launched = none ∧ s.callback s.launched = .absent ∧
      s.pending s.launched = false := by
  have hfits := h.fits s.launched
  rw [State.fits, h.fresh s.launched (Nat.le_refl _)] at hfits
  cases hcallback : s.callback s.launched <;> rw [hcallback] at hfits <;> simp_all [Fits]

theorem complete (h : s.Futures) (i : Nat) (outcome : Outcome) (hpresent : s.connecting i ≠ .absent)
    (hnone : s.outcome i = none) (hlaunched : t.launched = s.launched)
    (hconnecting : t.connecting = s.connecting)
    (houtcome : t.outcome = update s.outcome i (some outcome))
    (hcallback : t.callback = update s.callback i (s.callback i).fire)
    (hpending : t.pending = s.pending) : t.Futures := by
  have hfits := h.fits i
  refine h.of_one i hlaunched hpresent ?_ ?_
  · intro j hj
    rw [hconnecting, houtcome, hcallback, hpending, Function.update_of_ne hj,
      Function.update_of_ne hj]
    exact ⟨rfl, rfl, rfl, rfl⟩
  · rw [State.fits, hnone] at hfits
    rw [State.fits, hconnecting, houtcome, hcallback, hpending, Function.update_self,
      Function.update_self]
    cases hc : s.connecting i <;> cases hcb : s.callback i <;> simp_all [Fits, Callback.fire]

/-- The callback of `connect` goes on. -/
theorem of_callback (h : s.Futures) (i : Nat) {callback : Callback} {waiting : Bool}
    (hcallback : s.callback i ≠ .absent) (hlaunched : t.launched = s.launched)
    (hconnecting : t.connecting = s.connecting) (houtcome : t.outcome = s.outcome)
    (hnext : t.callback = update s.callback i callback)
    (hpending : t.pending = update s.pending i waiting)
    (hfits : Fits (s.connecting i) (s.outcome i) callback waiting) : t.Futures := by
  have hpresent : s.connecting i ≠ .absent := by
    intro habsent
    have hold := h.fits i
    rw [State.fits, habsent] at hold
    cases hc : s.callback i <;> rw [hc] at hold hcallback <;>
      first | exact hcallback rfl | exact hold
  refine h.of_one i hlaunched hpresent ?_ ?_
  · intro j hj
    rw [hconnecting, houtcome, hnext, hpending]
    simp [Function.update_of_ne hj]
  · rw [State.fits, hconnecting, houtcome, hnext, hpending, Function.update_self,
      Function.update_self]
    exact hfits

theorem register (h : s.Futures) (i : Nat) (hconnecting : s.connecting i = .admitted) :
    Futures { s with
      connecting := update s.connecting i .registered
      callback := update s.callback i (if s.isDone i then .removing else .registered) } := by
  have hfits := h.fits i
  refine h.of_one i rfl (by rw [hconnecting]; decide) ?_ ?_
  · intro j hj
    simp [Function.update_of_ne hj]
  · rw [State.fits, hconnecting] at hfits
    simp only [State.fits, Function.update_self]
    cases houtcome : s.outcome i <;> cases hcallback : s.callback i <;>
      simp_all [Fits, isDone]

/-- `connect` returns. -/
theorem returned (h : s.Futures) (i : Nat) (hconnecting : s.connecting i = .registered)
    (hlaunched : t.launched = s.launched)
    (hnext : t.connecting = update s.connecting i .returned) (houtcome : t.outcome = s.outcome)
    (hcallback : t.callback = s.callback) (hpending : t.pending = s.pending) : t.Futures := by
  have hfits := h.fits i
  rw [State.fits, hconnecting] at hfits
  refine h.of_one i hlaunched (by rw [hconnecting]; decide) ?_ ?_
  · intro j hj
    rw [hnext, houtcome, hcallback, hpending, Function.update_of_ne hj]
    exact ⟨rfl, rfl, rfl, rfl⟩
  · rw [State.fits, hnext, houtcome, hcallback, hpending, Function.update_self]
    exact hfits

theorem take (h : s.Futures) (i : Nat) (hcallback : s.callback i = .taking) :
    (s.take i).Futures := by
  have hfits := h.fits i
  rw [State.fits, hcallback] at hfits
  refine h.of_callback i (by rw [hcallback]; decide) rfl rfl rfl rfl
    (Function.update_eq_self i s.pending).symm ?_
  refine hfits.of_past rfl ?_
  cases s.calls i with
  | none => rfl
  | some call =>
    show Callback.past (if s.isCancelled i then .dropping call else .done) = true
    split_ifs <;> rfl

theorem move (h : s.Futures) (hm : Move s t) : t.Futures := by
  cases hm with
  | admitted _ =>
    obtain ⟨-, hcallback, -⟩ := h.new
    refine h.of_new rfl ?_ ?_
    · intro j hj
      simp [Function.update_of_ne hj]
    · simp only [State.fits, Function.update_self, hcallback]
      rfl
  | refused _ =>
    obtain ⟨-, hcallback, hpending⟩ := h.new
    refine h.of_new rfl ?_ ?_
    · intro j hj
      simp [Function.update_of_ne hj]
    · simp only [State.fits, Function.update_self, hcallback, hpending]
      exact ⟨nofun, rfl⟩
  | register i hconnecting => exact h.register i hconnecting
  | complete i outcome hpresent hnone =>
    exact h.complete i outcome hpresent hnone rfl rfl rfl rfl rfl
  | rejected i hconnecting _ => exact h.returned i hconnecting rfl rfl rfl rfl rfl
  | queued i hconnecting => exact h.returned i hconnecting rfl rfl rfl rfl rfl
  | remove i hcallback =>
    have hfits := h.fits i
    rw [State.fits, hcallback] at hfits
    refine h.of_callback i (by rw [hcallback]; decide) rfl rfl rfl rfl rfl ?_
    cases hconnecting : s.connecting i <;> simp_all [Fits]
  | take i hcallback => exact h.take i hcallback
  | drop i call hcallback =>
    have hfits := h.fits i
    rw [State.fits, hcallback] at hfits
    exact h.of_callback i (by rw [hcallback]; exact nofun) rfl rfl rfl rfl
      (Function.update_eq_self i s.pending).symm (hfits.of_past rfl rfl)
  | _ => exact h.of_eq rfl rfl rfl rfl rfl

theorem initial : ({} : State).Futures :=
  ⟨fun _ _ => rfl, fun _ => ⟨rfl, rfl⟩⟩

theorem outcome_none (h : s.Futures) (hcallback : s.callback i = .registered) :
    s.outcome i = none := by
  have hfits := h.fits i
  rw [State.fits, hcallback] at hfits
  cases hconnecting : s.connecting i <;> rw [hconnecting] at hfits <;>
    first | exact hfits.1 | exact hfits.elim

end Futures

/-! ## Requests with a task, a signer's future or a place in `close` -/

theorem returned_of_move (h : s.Futures) (hm : Move s t) (hi : s.connecting i = .returned) :
    t.connecting i = .returned := by
  have hne : ∀ j, s.connecting j ≠ .returned → i ≠ j := by
    rintro j hj rfl
    exact hj hi
  have hnew : i ≠ s.launched := hne _ (by rw [h.fresh s.launched (Nat.le_refl _)]; decide)
  cases hm with
  | admitted _ => simpa [Function.update_of_ne hnew] using hi
  | refused _ => simpa [Function.update_of_ne hnew] using hi
  | register j hj => simpa [Function.update_of_ne (hne j (by rw [hj]; decide))] using hi
  | rejected j hj _ => simpa [Function.update_of_ne (hne j (by rw [hj]; decide))] using hi
  | queued j hj => simpa [Function.update_of_ne (hne j (by rw [hj]; decide))] using hi
  | _ => exact hi

theorem present_of_move (hm : Move s t) (hi : s.connecting i ≠ .absent) :
    t.connecting i ≠ .absent := by
  have hset : ∀ j (next : Connecting), next ≠ .absent →
      update s.connecting j next i ≠ .absent := by
    intro j next hnext
    by_cases hij : i = j
    · subst hij
      rwa [Function.update_self]
    · rwa [Function.update_of_ne hij]
  cases hm with
  | admitted _ => exact hset _ _ nofun
  | refused _ => exact hset _ _ nofun
  | register j _ => exact hset _ _ nofun
  | rejected j _ _ => exact hset _ _ nofun
  | queued j _ => exact hset _ _ nofun
  | _ => exact hi

theorem worker_of_move (hm : Move s t) (hi : t.worker.request = some i) :
    s.worker.request = some i ∨ i ∈ s.queue := by
  cases hm with
  | poll j queue _ hqueue =>
    right
    rw [hqueue, ← Option.some.inj hi]
    exact List.mem_cons_self ..
  | leave _ _ _ _ _ => cases hi
  | listening _ _ => cases hi
  | calling j stage hworker _ =>
    left
    rcases hworker with hworker | hworker <;> rw [hworker] <;> exact hi
  | answered j stage stage' session hworker =>
    left
    rcases hworker with ⟨call, hworker⟩ | hworker <;> rw [hworker] <;> exact hi
  | creating j hworker _ =>
    left
    rcases hworker with hworker | ⟨call, hworker⟩ <;> rw [hworker] <;> exact hi
  | newCall j stage hworker => left; rw [hworker]; exact hi
  | executing j stage call hworker _ => left; rw [hworker]; exact hi
  | withdrawing j stage call hworker => left; rw [hworker]; exact hi
  | cancelling j stage call hworker => left; rw [hworker]; exact hi
  | cancelCall j stage call hworker => left; rw [hworker]; exact hi
  | loading j hworker _ => left; rw [hworker]; exact hi
  | warm j hworker => left; rw [hworker]; exact hi
  | downloading j hworker _ => left; rw [hworker]; exact hi
  | create j hworker _ => left; rw [hworker]; exact hi
  | sign j hooks hworker => left; rw [hworker]; exact hi
  | hooking j hooks hworker => left; rw [hworker]; exact hi
  | _ => exact Or.inl hi

theorem queue_of_move (hm : Move s t) (hi : i ∈ t.queue) :
    i ∈ s.queue ∨ t.connecting i = .returned := by
  cases hm with
  | queued j _ =>
    rcases List.mem_append.mp hi with hi | hi
    · exact Or.inl hi
    · right
      rw [List.mem_singleton.mp hi]
      exact Function.update_self ..
  | poll j queue _ hqueue =>
    left
    rw [hqueue]
    exact List.mem_cons_of_mem _ hi
  | shutdownNow _ => cases hi
  | _ => exact Or.inl hi

/-- The signer's future of a request is known to somebody. -/
def signs (s : State) (i : Nat) : Prop :=
  s.signing i ≠ .absent ∨ s.signedHook i ≠ .absent

theorem signs_of_move (hm : Move s t) (hi : t.signs i) :
    s.signs i ∨ s.worker.request = some i := by
  cases hm with
  | signed j ok hsigning =>
    left
    by_cases hij : i = j
    · subst hij
      exact Or.inl (by rw [hsigning]; decide)
    · simpa [signs, Function.update_of_ne hij] using hi
  | signedDone j hhook _ =>
    left
    by_cases hij : i = j
    · subst hij
      exact Or.inr (by rw [hhook]; decide)
    · simpa [signs, Function.update_of_ne hij] using hi
  | sign j hooks hworker =>
    by_cases hij : i = j
    · subst hij
      right
      rw [hworker]
      rfl
    · left
      simpa [signs, Function.update_of_ne hij] using hi
  | listening j hworker =>
    by_cases hij : i = j
    · subst hij
      right
      rw [hworker]
      rfl
    · left
      simpa [signs, Function.update_of_ne hij] using hi
  | _ => exact Or.inl hi

theorem closing_of_move (h : s.Futures) (hm : Move s t) {futures : List Nat}
    (hclosing : t.closing = .cancelling futures) (hi : i ∈ futures) :
    (∃ all, s.closing = .cancelling all ∧ i ∈ all) ∨ s.connecting i ≠ .absent := by
  cases hm with
  | close _ =>
    right
    injection hclosing with hfutures
    rw [← hfutures, List.mem_filter] at hi
    have hfits := h.fits i
    intro habsent
    rw [State.fits, habsent, hi.2] at hfits
    cases hcallback : s.callback i <;> rw [hcallback] at hfits <;>
      first | cases hfits.2 | exact hfits
  | closeFuture j rest hold _ =>
    left
    injection hclosing with hfutures
    subst hfutures
    exact ⟨_, hold, List.mem_cons_of_mem _ hi⟩
  | closeCalls _ => cases hclosing
  | closeCall _ _ _ => cases hclosing
  | closeClear _ => cases hclosing
  | clear _ => cases hclosing
  | shutdownNow _ => cases hclosing
  | closeSigner _ => cases hclosing
  | _ => exact Or.inl ⟨futures, hclosing, hi⟩

namespace Begun

theorem move (h : s.Begun) (hf : s.Futures) (hm : Move s t) : t.Begun := by
  constructor
  · intro i hi
    rcases worker_of_move hm hi with hw | hq
    · exact returned_of_move hf hm (h.worker i hw)
    · exact returned_of_move hf hm (h.queue i hq)
  · intro i hi
    rcases queue_of_move hm hi with hq | hreturned
    · exact returned_of_move hf hm (h.queue i hq)
    · exact hreturned
  · intro i hi
    rcases signs_of_move hm hi with hsigns | hw
    · exact returned_of_move hf hm (h.signing i hsigns)
    · exact returned_of_move hf hm (h.worker i hw)
  · intro futures hclosing i hi
    rcases closing_of_move hf hm hclosing hi with ⟨all, hall, hmem⟩ | hpresent
    · exact present_of_move hm (h.closing all hall i hmem)
    · exact present_of_move hm hpresent

theorem initial : ({} : State).Begun :=
  ⟨nofun, nofun, fun _ h => by rcases h with h | h <;> exact absurd rfl h, nofun⟩

end Begun

/-! ## `close` and the futures -/

/-- `close` still has to cancel this future. -/
def toCancel (s : State) (i : Nat) : Prop :=
  ∃ futures, s.closing = .cancelling futures ∧ i ∈ futures

structure Closes (s : State) : Prop where
  todo : s.closed = true → ∀ i, s.connecting i ≠ .absent → s.outcome i = none → s.toCancel i
  down : s.down = true → s.closing = .retiring ∨ s.closing = .finished

/-- No future gets undone. -/
theorem outcome_of_move (hm : Move s t) (hnone : t.outcome i = none) : s.outcome i = none := by
  cases hm with
  | refused _ =>
    by_cases hi : i = s.launched
    · subst hi
      simp at hnone
    · simpa [Function.update_of_ne hi] using hnone
  | complete j outcome _ _ =>
    by_cases hi : i = j
    · subst hi
      simp at hnone
    · simpa [Function.update_of_ne hi] using hnone
  | _ => exact hnone

/-- A request that is new or was there. -/
theorem connecting_of_move (hm : Move s t) (hnone : t.outcome i = none)
    (hpresent : t.connecting i ≠ .absent) :
    s.connecting i ≠ .absent ∨
      i = s.launched ∧ s.closed = false ∧ t.connecting i = .admitted := by
  have hset : ∀ j (next : Connecting), s.connecting j ≠ .absent →
      update s.connecting j next i ≠ .absent → s.connecting i ≠ .absent := by
    intro j next hj hnext
    by_cases hij : i = j
    · subst hij
      exact hj
    · rwa [Function.update_of_ne hij] at hnext
  cases hm with
  | admitted hopen =>
    by_cases hi : i = s.launched
    · subst hi
      exact Or.inr ⟨rfl, hopen, Function.update_self ..⟩
    · left
      simpa [Function.update_of_ne hi] using hpresent
  | refused _ =>
    left
    by_cases hi : i = s.launched
    · subst hi
      simp at hnone
    · simpa [Function.update_of_ne hi] using hpresent
  | register j hj => exact Or.inl (hset j _ (by rw [hj]; decide) hpresent)
  | rejected j hj _ => exact Or.inl (hset j _ (by rw [hj]; decide) hpresent)
  | queued j hj => exact Or.inl (hset j _ (by rw [hj]; decide) hpresent)
  | _ => exact Or.inl hpresent

/-- A new request is open to `close`. -/
theorem pending_of_outcome (hf : s.Futures) (hpresent : s.connecting i ≠ .absent)
    (hnone : s.outcome i = none) : i < s.launched ∧ s.pending i = true := by
  constructor
  · by_contra hge
    exact hpresent (hf.fresh i (Nat.le_of_not_lt hge))
  · have hfits := hf.fits i
    rw [State.fits, hnone] at hfits
    cases hconnecting : s.connecting i <;> cases hcallback : s.callback i <;>
      simp_all [Fits]

/-- The provider is closed by `close` alone. -/
theorem closed_of_move (hm : Move s t) (hclosed : t.closed = true) :
    s.closed = true ∨ t.connecting = s.connecting := by
  cases hm with
  | admitted _ => exact Or.inl hclosed
  | refused _ => exact Or.inl hclosed
  | register _ _ => exact Or.inl hclosed
  | rejected _ _ _ => exact Or.inl hclosed
  | queued _ _ => exact Or.inl hclosed
  | _ => exact Or.inr rfl

/-- A closed provider stays closed. -/
theorem closed_mono (hm : Move s t) (hclosed : s.closed = true) : t.closed = true := by
  cases hm with
  | close hopen =>
    rw [closed, hopen] at hclosed
    cases hclosed
  | closeFuture _ _ _ _ => rfl
  | closeCalls _ => rfl
  | closeCall _ _ _ => rfl
  | closeClear _ => rfl
  | clear _ => rfl
  | shutdownNow _ => rfl
  | closeSigner _ => rfl
  | _ => exact hclosed

namespace Closes

/-- Past its first loop `close` leaves no future open. -/
theorem outcome_ne (h : s.Closes) (hpresent : s.connecting i ≠ .absent) {closing : Closing}
    (hclosing : s.closing = closing) (hopen : closing ≠ .open)
    (hpast : ∀ i futures, closing ≠ .cancelling (i :: futures)) : s.outcome i ≠ none := by
  intro hnone
  obtain ⟨all, hall, hmem⟩ := h.todo (by rw [closed, hclosing]; simpa using hopen) i hpresent hnone
  rw [hclosing] at hall
  cases all with
  | nil => cases hmem
  | cons j futures => exact hpast j futures hall

theorem not_down (h : s.Closes) {closing : Closing} (hclosing : s.closing = closing)
    (hretiring : closing ≠ .retiring) (hfinished : closing ≠ .finished) : s.down = false := by
  by_contra hdown
  rcases h.down (by simpa using hdown) with hc | hc
  · exact hretiring (hclosing.symm.trans hc)
  · exact hfinished (hclosing.symm.trans hc)

theorem todo_of_move (h : s.Closes) (hf : s.Futures) (hm : Move s t)
    (hpresent : s.connecting i ≠ .absent) (hnone : s.outcome i = none) (hclosed : t.closed = true) :
    t.toCancel i := by
  cases hm with
  | close _ =>
    obtain ⟨hlt, hpending⟩ := pending_of_outcome hf hpresent hnone
    exact ⟨_, rfl, List.mem_filter.mpr ⟨List.mem_range.mpr hlt, hpending⟩⟩
  | closeFuture j rest hclosing hdone =>
    obtain ⟨all, hall, hmem⟩ := h.todo (by rw [closed, hclosing]; rfl) i hpresent hnone
    rw [hclosing] at hall
    injection hall with hall
    subst hall
    rcases List.mem_cons.mp hmem with rfl | hmem
    · rw [isDone, hnone] at hdone
      cases hdone
    · exact ⟨rest, rfl, hmem⟩
  | closeCalls hclosing => exact absurd hnone (h.outcome_ne hpresent hclosing (by simp) (by simp))
  | closeCall _ _ hclosing => exact absurd hnone (h.outcome_ne hpresent hclosing (by simp) (by simp))
  | closeClear hclosing => exact absurd hnone (h.outcome_ne hpresent hclosing (by simp) (by simp))
  | clear hclosing => exact absurd hnone (h.outcome_ne hpresent hclosing (by simp) (by simp))
  | shutdownNow hclosing => exact absurd hnone (h.outcome_ne hpresent hclosing (by simp) (by simp))
  | closeSigner hclosing => exact absurd hnone (h.outcome_ne hpresent hclosing (by simp) (by simp))
  | _ => exact h.todo hclosed i hpresent hnone

theorem move (h : s.Closes) (hf : s.Futures) (hm : Move s t) : t.Closes := by
  constructor
  · intro hclosed i hpresent hnone
    rcases connecting_of_move hm hnone hpresent with hpresent' | ⟨hi, hopen, -⟩
    · exact h.todo_of_move hf hm hpresent' (outcome_of_move hm hnone) hclosed
    · rcases closed_of_move hm hclosed with hclosed' | hsame
      · rw [hopen] at hclosed'
        cases hclosed'
      · rw [hsame, hi, hf.fresh s.launched (Nat.le_refl _)] at hpresent
        exact absurd rfl hpresent
  · intro hdown
    cases hm with
    | close hopen =>
      rw [h.not_down hopen nofun nofun] at hdown
      cases hdown
    | closeFuture _ _ hclosing _ =>
      rw [h.not_down hclosing nofun nofun] at hdown
      cases hdown
    | closeCalls hclosing =>
      rw [h.not_down hclosing nofun nofun] at hdown
      cases hdown
    | closeCall _ _ hclosing =>
      rw [h.not_down hclosing nofun nofun] at hdown
      cases hdown
    | closeClear hclosing =>
      rw [h.not_down hclosing nofun nofun] at hdown
      cases hdown
    | clear hclosing =>
      rw [h.not_down hclosing nofun nofun] at hdown
      cases hdown
    | shutdownNow _ => exact Or.inl rfl
    | closeSigner _ => exact Or.inr rfl
    | _ => exact h.down hdown

theorem initial : ({} : State).Closes := ⟨nofun, nofun⟩

end Closes

/-! ## Every future is carried -/

/-- Somebody is going to complete the future. -/
def carried (s : State) (i : Nat) : Prop :=
  s.connecting i = .admitted ∨ s.connecting i = .registered ∨ i ∈ s.queue ∨
    s.worker.request = some i ∨ s.signing i = .outstanding ∨ s.signedHook i = .running

structure Carries (s : State) : Prop where
  carried : s.closed = false → ∀ i, s.connecting i ≠ .absent → s.outcome i = none → s.carried i
  heard : ∀ i, s.signing i = .outstanding →
    s.signedHook i = .registered ∨ s.worker = .hooking i ∨ s.worker = .listening i

theorem carried_of_connecting (hm : Move s t) (hnone : t.outcome i = none)
    (hc : s.connecting i = .admitted ∨ s.connecting i = .registered) (hf : s.Futures) :
    t.carried i := by
  have hnew : i ≠ s.launched := by
    rintro rfl
    rw [hf.fresh s.launched (Nat.le_refl _)] at hc
    rcases hc with hc | hc <;> cases hc
  have hkeep : t.connecting i = s.connecting i → t.carried i := by
    intro hsame
    rw [carried, hsame]
    rcases hc with hc | hc
    · exact Or.inl hc
    · exact Or.inr (Or.inl hc)
  cases hm with
  | admitted _ => exact hkeep (Function.update_of_ne hnew _ _)
  | refused _ => exact hkeep (Function.update_of_ne hnew _ _)
  | register j _ =>
    by_cases hij : i = j
    · subst hij
      exact Or.inr (Or.inl (Function.update_self ..))
    · exact hkeep (Function.update_of_ne hij _ _)
  | rejected j _ hdone =>
    by_cases hij : i = j
    · subst hij
      have hnone' : s.outcome i = none := hnone
      rw [isDone, hnone'] at hdone
      cases hdone
    · exact hkeep (Function.update_of_ne hij _ _)
  | queued j _ =>
    by_cases hij : i = j
    · subst hij
      exact Or.inr (Or.inr (Or.inl (List.mem_append_right _ (List.mem_singleton_self _))))
    · exact hkeep (Function.update_of_ne hij _ _)
  | _ => exact hkeep rfl

theorem carried_of_queue (hm : Move s t) (hopen : t.closed = false) (hq : i ∈ s.queue) :
    t.carried i := by
  cases hm with
  | queued j _ => exact Or.inr (Or.inr (Or.inl (List.mem_append_left _ hq)))
  | poll j queue _ hqueue =>
    rw [hqueue] at hq
    rcases List.mem_cons.mp hq with rfl | hq
    · exact Or.inr (Or.inr (Or.inr (Or.inl rfl)))
    · exact Or.inr (Or.inr (Or.inl hq))
  | shutdownNow _ => cases hopen
  | _ => exact Or.inr (Or.inr (Or.inl hq))

/-- A request that `prepare` runs for stays with it until it is done or has
a signer's future. -/
theorem carried_of_worker (hm : Move s t) (hopen : s.closed = false) (hnone : t.outcome i = none)
    (hw : s.worker.request = some i) : t.carried i := by
  have hkeep : t.worker.request = s.worker.request → t.carried i := by
    intro hsame
    exact Or.inr (Or.inr (Or.inr (Or.inl (hsame.trans hw))))
  cases hm with
  | poll j queue hworker _ =>
    rw [hworker] at hw
    cases hw
  | leave j hworker hstops _ _ =>
    have hij : j = i := Option.some.inj (hworker.symm.trans hw)
    have hnone' : s.outcome i = none := hnone
    rw [hij, stops, hopen, isDone, hnone'] at hstops
    cases hstops
  | listening j hworker =>
    rw [hworker] at hw
    obtain rfl : j = i := Option.some.inj hw
    by_cases hsigning : s.signing j = .outstanding
    · exact Or.inr (Or.inr (Or.inr (Or.inr (Or.inl hsigning))))
    · refine Or.inr (Or.inr (Or.inr (Or.inr (Or.inr ?_))))
      simp only [Function.update_self, if_neg hsigning]
  | calling j stage hworker _ =>
    refine hkeep ?_
    rcases hworker with hworker | hworker <;> rw [hworker] <;> rfl
  | answered j stage stage' session hworker =>
    refine hkeep ?_
    rcases hworker with ⟨call, hworker⟩ | hworker <;> rw [hworker] <;> rfl
  | creating j hworker _ =>
    refine hkeep ?_
    rcases hworker with hworker | ⟨call, hworker⟩ <;> rw [hworker] <;> rfl
  | newCall j stage hworker => exact hkeep (by rw [hworker]; rfl)
  | executing j stage call hworker _ => exact hkeep (by rw [hworker]; rfl)
  | withdrawing j stage call hworker => exact hkeep (by rw [hworker]; rfl)
  | cancelling j stage call hworker => exact hkeep (by rw [hworker]; rfl)
  | cancelCall j stage call hworker => exact hkeep (by rw [hworker]; rfl)
  | loading j hworker _ => exact hkeep (by rw [hworker]; rfl)
  | warm j hworker => exact hkeep (by rw [hworker]; rfl)
  | downloading j hworker _ => exact hkeep (by rw [hworker]; rfl)
  | create j hworker _ => exact hkeep (by rw [hworker]; rfl)
  | sign j hooks hworker => exact hkeep (by rw [hworker]; rfl)
  | hooking j hooks hworker => exact hkeep (by rw [hworker]; rfl)
  | _ => exact hkeep rfl

namespace Carries

theorem carried_of_signing (h : s.Carries) (hm : Move s t) (hopen : s.closed = false)
    (hnone : t.outcome i = none)
    (hs : s.signing i = .outstanding ∨ s.signedHook i = .running) : t.carried i := by
  have hkeep : t.signing i = s.signing i → t.signedHook i = s.signedHook i → t.carried i := by
    intro hsigning hhook
    rcases hs with hs | hs
    · exact Or.inr (Or.inr (Or.inr (Or.inr (Or.inl (hsigning.trans hs)))))
    · exact Or.inr (Or.inr (Or.inr (Or.inr (Or.inr (hhook.trans hs)))))
  have hworks : s.worker.request = some i → t.carried i := carried_of_worker hm hopen hnone
  cases hm with
  | signed j ok _ =>
    by_cases hij : i = j
    · subst hij
      have hrun : s.signedHook i = .registered ∨ s.signedHook i = .running →
          (update s.signedHook i (s.signedHook i).fire) i = .running := by
        intro hhook
        rcases hhook with hhook | hhook <;> simp [hhook, Hook.fire]
      rcases hs with hs | hs
      · rcases h.heard i hs with hhook | hw | hw
        · exact Or.inr (Or.inr (Or.inr (Or.inr (Or.inr (hrun (Or.inl hhook))))))
        · exact hworks (by rw [hw]; rfl)
        · exact hworks (by rw [hw]; rfl)
      · exact Or.inr (Or.inr (Or.inr (Or.inr (Or.inr (hrun (Or.inr hs))))))
    · exact hkeep (Function.update_of_ne hij _ _) (Function.update_of_ne hij _ _)
  | signedDone j _ hstops =>
    by_cases hij : i = j
    · subst hij
      have hnone' : s.outcome i = none := hnone
      rw [stops, hopen, isDone, hnone'] at hstops
      cases hstops
    · exact hkeep rfl (Function.update_of_ne hij _ _)
  | sign j hooks hworker =>
    by_cases hij : i = j
    · subst hij
      exact hworks (by rw [hworker]; rfl)
    · exact hkeep (Function.update_of_ne hij _ _) (Function.update_of_ne hij _ _)
  | listening j hworker =>
    by_cases hij : i = j
    · subst hij
      exact hworks (by rw [hworker]; rfl)
    · exact hkeep rfl (Function.update_of_ne hij _ _)
  | _ => exact hkeep rfl rfl

/-- Away from the hooks of `prepare` only the callback can be it. -/
theorem hook_of_worker (h : s.Carries) (hs : s.signing i = .outstanding) {worker : Worker}
    (hworker : s.worker = worker) (hhooking : worker ≠ .hooking i)
    (hlistening : worker ≠ .listening i) : s.signedHook i = .registered := by
  rcases h.heard i hs with hr | hw | hw
  · exact hr
  · exact absurd (hworker.symm.trans hw) hhooking
  · exact absurd (hworker.symm.trans hw) hlistening

theorem heard_of_move (h : s.Carries) (hm : Move s t) (hs : t.signing i = .outstanding) :
    t.signedHook i = .registered ∨ t.worker = .hooking i ∨ t.worker = .listening i := by
  cases hm with
  | signed j ok _ =>
    by_cases hij : i = j
    · subst hij
      simp at hs
    · simp only [Function.update_of_ne hij] at hs ⊢
      exact h.heard i hs
  | signedDone j hhook _ =>
    by_cases hij : i = j
    · subst hij
      rcases h.heard i hs with hr | hw
      · rw [hhook] at hr
        cases hr
      · exact Or.inr hw
    · simp only [Function.update_of_ne hij]
      exact h.heard i hs
  | sign j hooks hworker =>
    by_cases hij : i = j
    · subst hij
      exact Or.inr (Or.inl rfl)
    · simp only [Function.update_of_ne hij] at hs ⊢
      exact Or.inl (h.hook_of_worker hs hworker nofun nofun)
  | hooking j hooks hworker =>
    rcases h.heard i hs with hr | hw | hw
    · exact Or.inl hr
    · rw [hworker] at hw
      injection hw with hw
      subst hw
      exact Or.inr (Or.inr rfl)
    · rw [hworker] at hw
      cases hw
  | listening j hworker =>
    by_cases hij : i = j
    · subst hij
      left
      have hs' : s.signing i = .outstanding := hs
      simp only [Function.update_self, if_pos hs']
    · simp only [Function.update_of_ne hij]
      rcases h.heard i hs with hr | hw | hw
      · exact Or.inl hr
      · rw [hworker] at hw
        cases hw
      · rw [hworker] at hw
        injection hw with hw
        exact absurd hw.symm hij
  | poll j queue hworker _ => exact Or.inl (h.hook_of_worker hs hworker nofun nofun)
  | leave j _ _ hplace _ =>
    left
    refine h.hook_of_worker hs rfl ?_ ?_
    · intro hw
      rw [hw] at hplace
      cases hplace
    · intro hw
      rw [hw] at hplace
      cases hplace
  | calling j stage hworker _ =>
    left
    rcases hworker with hworker | hworker
    · exact h.hook_of_worker hs hworker nofun nofun
    · exact h.hook_of_worker hs hworker nofun nofun
  | answered j stage stage' session hworker =>
    left
    rcases hworker with ⟨call, hworker⟩ | hworker
    · exact h.hook_of_worker hs hworker nofun nofun
    · exact h.hook_of_worker hs hworker nofun nofun
  | creating j hworker _ =>
    left
    rcases hworker with hworker | ⟨call, hworker⟩
    · exact h.hook_of_worker hs hworker nofun nofun
    · exact h.hook_of_worker hs hworker nofun nofun
  | newCall j stage hworker => exact Or.inl (h.hook_of_worker hs hworker nofun nofun)
  | executing j stage call hworker _ => exact Or.inl (h.hook_of_worker hs hworker nofun nofun)
  | withdrawing j stage call hworker => exact Or.inl (h.hook_of_worker hs hworker nofun nofun)
  | cancelling j stage call hworker => exact Or.inl (h.hook_of_worker hs hworker nofun nofun)
  | cancelCall j stage call hworker => exact Or.inl (h.hook_of_worker hs hworker nofun nofun)
  | loading j hworker _ => exact Or.inl (h.hook_of_worker hs hworker nofun nofun)
  | warm j hworker => exact Or.inl (h.hook_of_worker hs hworker nofun nofun)
  | downloading j hworker _ => exact Or.inl (h.hook_of_worker hs hworker nofun nofun)
  | create j hworker _ => exact Or.inl (h.hook_of_worker hs hworker nofun nofun)
  | _ => exact h.heard i hs

theorem move (h : s.Carries) (hf : s.Futures) (hm : Move s t) : t.Carries := by
  constructor
  · intro hopen i hpresent hnone
    have hopen' : s.closed = false := by
      by_contra hclosed
      rw [closed_mono hm (by simpa using hclosed)] at hopen
      cases hopen
    have hnone' := outcome_of_move hm hnone
    rcases connecting_of_move hm hnone hpresent with hpresent' | ⟨-, -, hadmitted⟩
    · rcases h.carried hopen' i hpresent' hnone' with hc | hc | hq | hw | hs | hs
      · exact carried_of_connecting hm hnone (Or.inl hc) hf
      · exact carried_of_connecting hm hnone (Or.inr hc) hf
      · exact carried_of_queue hm hopen hq
      · exact carried_of_worker hm hopen' hnone hw
      · exact h.carried_of_signing hm hopen' hnone (Or.inl hs)
      · exact h.carried_of_signing hm hopen' hnone (Or.inr hs)
    · exact Or.inl hadmitted
  · intro i hs
    exact h.heard_of_move hm hs

end Carries

theorem Carries.initial : ({} : State).Carries := by
  constructor
  · intro _ i hpresent
    exact absurd rfl hpresent
  · exact nofun

end State

end TiktokSigner.JvmSigner.ConnectionProvider
