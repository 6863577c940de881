import TiktokSigner.JvmSigner.ProviderFutures

/-!
# The provider's HTTP calls and signers

Who takes a call out of the map, who cancels it when its request is
cancelled, and which signers are still open.
-/

namespace TiktokSigner.JvmSigner.ConnectionProvider

open Function (update)

namespace State

variable {s t : State} {a : Action} {i : Nat}

/-! ## The call map -/

/-- `track` is about to take its call back, or may be. -/
def Worker.tracks (worker : Worker) (i call : Nat) : Prop :=
  ∃ stage, worker = .checking i stage call ∨ worker = .withdrawing i stage call

/-- The callback of `connect` is still going to look into the map. -/
def watches (s : State) (i : Nat) : Prop :=
  s.callback i = .registered ∨ s.callback i = .removing ∨ s.callback i = .taking

/-- A call in the map has somebody who takes it out. -/
structure Mapped (s : State) : Prop where
  watched : ∀ i call, s.calls i = some call →
    s.watches i ∨ Worker.tracks s.worker i call
  checking : ∀ i stage call, s.worker = .checking i stage call → s.stops i = false →
    s.calls i = some call

theorem stops_eq_false : s.stops i = false ↔ s.closed = false ∧ s.outcome i = none := by
  rw [stops, isDone, Bool.or_eq_false_iff, Option.isSome_eq_false_iff, Option.isNone_iff_eq_none]

/-- What stops a request keeps it stopped. -/
theorem stops_of_move (hm : Move s t) (hgoes : t.stops i = false) : s.stops i = false := by
  obtain ⟨hopen, hnone⟩ := stops_eq_false.mp hgoes
  refine stops_eq_false.mpr ⟨?_, outcome_of_move hm hnone⟩
  by_contra hclosed
  rw [closed_mono hm (by simpa using hclosed)] at hopen
  cases hopen

theorem watches_of_move (hm : Move s t) (hw : s.watches i) : t.watches i ∨ t.calls i = none := by
  have hkeep : t.callback i = s.callback i → t.watches i ∨ t.calls i = none := by
    intro hsame
    left
    rw [watches, hsame]
    exact hw
  cases hm with
  | register j _ =>
    by_cases hij : i = j
    · subst hij
      left
      simp only [watches, Function.update_self]
      split_ifs
      · exact Or.inr (Or.inl rfl)
      · exact Or.inl rfl
    · exact hkeep (Function.update_of_ne hij _ _)
  | complete j outcome _ _ =>
    by_cases hij : i = j
    · subst hij
      left
      simp only [watches, Function.update_self]
      rcases hw with hw | hw | hw <;> rw [hw]
      · exact Or.inr (Or.inl rfl)
      · exact Or.inr (Or.inl rfl)
      · exact Or.inr (Or.inr rfl)
    · exact hkeep (Function.update_of_ne hij _ _)
  | remove j _ =>
    by_cases hij : i = j
    · subst hij
      left
      exact Or.inr (Or.inr (Function.update_self ..))
    · exact hkeep (Function.update_of_ne hij _ _)
  | take j _ =>
    by_cases hij : i = j
    · subst hij
      exact Or.inr (Function.update_self ..)
    · exact hkeep (Function.update_of_ne hij _ _)
  | drop j call hcallback =>
    by_cases hij : i = j
    · subst hij
      rcases hw with hw | hw | hw <;> rw [hcallback] at hw <;> cases hw
    · exact hkeep (Function.update_of_ne hij _ _)
  | _ => exact hkeep rfl

/-- A request under way that is not done is watched by its callback. -/
theorem watches_of_worker (hb : s.Begun) (hf : s.Futures) (hworker : s.worker.request = some i)
    (hnone : s.outcome i = none) : s.callback i = .registered := by
  have hfits := hf.fits i
  rw [State.fits, hb.worker i hworker, hnone] at hfits
  cases hcallback : s.callback i <;> simp_all [Fits]

theorem tracks_of_move (hb : s.Begun) (hf : s.Futures) (hm : Move s t) {call : Nat}
    (hcalls : t.calls i = some call) (htracks : Worker.tracks s.worker i call) :
    t.watches i ∨ Worker.tracks t.worker i call := by
  have hother : ∀ {worker : Worker}, s.worker = worker →
      (∀ stage, worker ≠ .checking i stage call ∧ worker ≠ .withdrawing i stage call) →
      t.watches i ∨ Worker.tracks t.worker i call := by
    intro worker hworker hne
    rcases htracks with ⟨stage, hw | hw⟩
    · exact absurd (hworker.symm.trans hw) (hne stage).1
    · exact absurd (hworker.symm.trans hw) (hne stage).2
  cases hm with
  | poll j queue hworker _ => exact hother hworker fun _ => ⟨nofun, nofun⟩
  | leave j _ _ hplace _ =>
    refine hother rfl ?_
    intro stage
    constructor
    · intro hw
      rw [hw] at hplace
      cases hplace
    · intro hw
      rw [hw] at hplace
      cases hplace
  | calling j stage hworker _ =>
    rcases hworker with hworker | hworker
    · exact hother hworker fun _ => ⟨nofun, nofun⟩
    · exact hother hworker fun _ => ⟨nofun, nofun⟩
  | newCall j stage hworker => exact hother hworker fun _ => ⟨nofun, nofun⟩
  | executing j stage call' hworker hgoes =>
    rcases htracks with ⟨stage', hw | hw⟩
    · rw [hworker] at hw
      injection hw with hji
      subst hji
      left
      have hreg := watches_of_worker hb hf (by rw [hworker]; rfl) (stops_eq_false.mp hgoes).2
      exact Or.inl hreg
    · rw [hworker] at hw
      cases hw
  | withdrawing j stage call' hworker =>
    rcases htracks with ⟨stage', hw | hw⟩
    · rw [hworker] at hw
      injection hw with hji _ hcall
      subst hji
      subst hcall
      exact Or.inr ⟨stage, Or.inr rfl⟩
    · rw [hworker] at hw
      cases hw
  | cancelling j stage call' hworker =>
    rcases htracks with ⟨stage', hw | hw⟩
    · rw [hworker] at hw
      cases hw
    · rw [hworker] at hw
      injection hw with hji _ hcall
      subst hji
      subst hcall
      by_cases hsome : s.calls j = some call'
      · simp [hsome] at hcalls
      · simp [hsome] at hcalls
  | cancelCall j stage call' hworker => exact hother hworker fun _ => ⟨nofun, nofun⟩
  | answered j stage stage' session hworker =>
    rcases hworker with ⟨call', hworker⟩ | hworker
    · exact hother hworker fun _ => ⟨nofun, nofun⟩
    · exact hother hworker fun _ => ⟨nofun, nofun⟩
  | creating j hworker _ =>
    rcases hworker with hworker | ⟨call', hworker⟩
    · exact hother hworker fun _ => ⟨nofun, nofun⟩
    · exact hother hworker fun _ => ⟨nofun, nofun⟩
  | loading j hworker _ => exact hother hworker fun _ => ⟨nofun, nofun⟩
  | warm j hworker => exact hother hworker fun _ => ⟨nofun, nofun⟩
  | downloading j hworker _ => exact hother hworker fun _ => ⟨nofun, nofun⟩
  | create j hworker _ => exact hother hworker fun _ => ⟨nofun, nofun⟩
  | sign j hooks hworker => exact hother hworker fun _ => ⟨nofun, nofun⟩
  | hooking j hooks hworker => exact hother hworker fun _ => ⟨nofun, nofun⟩
  | listening j hworker => exact hother hworker fun _ => ⟨nofun, nofun⟩
  | _ => exact Or.inr htracks

/-- A call comes into the map by `track` alone. -/
theorem calls_of_move (hm : Move s t) {call : Nat} (hcalls : t.calls i = some call) :
    s.calls i = some call ∨ Worker.tracks t.worker i call := by
  cases hm with
  | take j _ =>
    by_cases hij : i = j
    · subst hij
      simp only [State.take, Function.update_self] at hcalls
      cases hcalls
    · left
      simpa only [State.take, Function.update_of_ne hij] using hcalls
  | newCall j stage _ =>
    by_cases hij : i = j
    · subst hij
      simp only [State.newCall, Function.update_self] at hcalls
      cases hcalls
      exact Or.inr ⟨stage, Or.inl rfl⟩
    · left
      simpa only [State.newCall, Function.update_of_ne hij] using hcalls
  | cancelling j stage call' _ =>
    left
    by_cases hsome : s.calls j = some call'
    · by_cases hij : i = j
      · subst hij
        simp [hsome] at hcalls
      · simpa [hsome, Function.update_of_ne hij] using hcalls
    · simpa [hsome] using hcalls
  | clear _ => cases hcalls
  | _ => exact Or.inl hcalls

namespace Mapped

theorem checking_of_move (h : s.Mapped) (hf : s.Futures) (hm : Move s t) {stage : Stage} {call : Nat}
    (hworker : t.worker = .checking i stage call) (hgoes : t.stops i = false) :
    t.calls i = some call := by
  have hgoes' := stops_of_move hm hgoes
  cases hm with
  | newCall j stage' _ =>
    rw [State.newCall] at hworker
    injection hworker with hji _ hcall
    subst hji
    subst hcall
    exact Function.update_self ..
  | take j hcallback =>
    have hcalls := h.checking i stage call hworker hgoes'
    by_cases hij : i = j
    · subst hij
      have hfits := hf.fits i
      rw [State.fits, hcallback, (stops_eq_false.mp hgoes').2] at hfits
      cases hconnecting : s.connecting i <;> rw [hconnecting] at hfits <;>
        first | exact absurd rfl hfits.1 | exact hfits.elim
    · simpa only [State.take, Function.update_of_ne hij] using hcalls
  | clear _ => cases hgoes
  | poll _ _ _ _ => cases hworker
  | leave _ _ _ _ _ => cases hworker
  | calling _ _ _ _ => cases hworker
  | executing _ _ _ _ _ => cases hworker
  | withdrawing _ _ _ _ => cases hworker
  | cancelling _ _ _ _ => cases hworker
  | cancelCall _ _ _ _ => cases hworker
  | answered _ _ _ _ _ => cases hworker
  | loading _ _ _ => cases hworker
  | warm _ _ => cases hworker
  | creating _ _ _ => cases hworker
  | downloading _ _ _ => cases hworker
  | create _ _ _ => cases hworker
  | sign _ _ _ => cases hworker
  | hooking _ _ _ => cases hworker
  | listening _ _ => cases hworker
  | _ => exact h.checking i stage call hworker hgoes'

theorem move (h : s.Mapped) (hb : s.Begun) (hf : s.Futures) (hm : Move s t) : t.Mapped := by
  constructor
  · intro i call hcalls
    rcases calls_of_move hm hcalls with hold | htracks
    · rcases h.watched i call hold with hw | htracks
      · rcases watches_of_move hm hw with hw | hnone
        · exact Or.inl hw
        · rw [hnone] at hcalls
          cases hcalls
      · exact tracks_of_move hb hf hm hcalls htracks
    · exact Or.inr htracks
  · intro i stage call hworker hgoes
    exact h.checking_of_move hf hm hworker hgoes

theorem initial : ({} : State).Mapped := ⟨nofun, nofun⟩

end Mapped

/-! ## The HTTP calls -/

/-- The call is in the map for a callback that is going to take it, and
`close` has not looked at the map yet. -/
def Watched (s : State) (call : Nat) : Prop :=
  s.calls (s.request call) = some call ∧ s.watches (s.request call) ∧
    (s.closing = .open ∨ ∃ futures, s.closing = .cancelling futures)

/-- The call is cancelled, or will be if its request is. -/
def Guarded (s : State) (call : Nat) : Prop :=
  s.cancelled call = true ∨ s.Watched call ∨ s.callback (s.request call) = .dropping call ∨
    ∃ calls, s.closing = .cancellingCalls calls ∧ call ∈ calls

theorem cancelled_of_move (hm : Move s t) {call : Nat} (hcancelled : s.cancelled call = true) :
    t.cancelled call = true := by
  have hset : ∀ other, update s.cancelled other true call = true := by
    intro other
    by_cases heq : call = other
    · subst heq
      exact Function.update_self ..
    · rwa [Function.update_of_ne heq]
  cases hm with
  | drop _ _ _ => exact hset _
  | cancelCall _ _ _ _ => exact hset _
  | closeCall _ _ _ => exact hset _
  | shutdownNow _ =>
    dsimp only [shutdownNow]
    cases s.worker.download with
    | none => exact hcancelled
    | some other => exact hset other
  | _ => exact hcancelled

/-- A call keeps its request. -/
theorem request_of_move (hm : Move s t) {call : Nat} (hmade : call < s.made) :
    t.request call = s.request call ∧ call < t.made := by
  have hne : call ≠ s.made := Nat.ne_of_lt hmade
  cases hm with
  | newCall _ _ _ => exact ⟨Function.update_of_ne hne _ _, Nat.lt_succ_of_lt hmade⟩
  | downloading _ _ _ => exact ⟨Function.update_of_ne hne _ _, Nat.lt_succ_of_lt hmade⟩
  | _ => exact ⟨rfl, hmade⟩

theorem outcome_some_of_move (hf : s.Futures) (hm : Move s t) {outcome : Outcome}
    (hsome : s.outcome i = some outcome) : t.outcome i = some outcome := by
  cases hm with
  | refused _ =>
    have hne : i ≠ s.launched := by
      rintro rfl
      rw [hf.new.1] at hsome
      cases hsome
    simpa [Function.update_of_ne hne] using hsome
  | complete j _ _ hnone =>
    have hne : i ≠ j := by
      rintro rfl
      rw [hnone] at hsome
      cases hsome
    simpa [Function.update_of_ne hne] using hsome
  | _ => exact hsome

/-- A callback that has a call in hand. -/
theorem dropping_of_move (hf : s.Futures) (hm : Move s t) {call : Nat}
    (hcallback : s.callback i = .dropping call) :
    t.callback i = .dropping call ∨ t.cancelled call = true := by
  have hother : ∀ {j : Nat} (next : Callback), s.callback j ≠ .dropping call →
      update s.callback j next i = .dropping call := by
    intro j next hj
    have hne : i ≠ j := by
      rintro rfl
      exact hj hcallback
    rwa [Function.update_of_ne hne]
  cases hm with
  | register j hconnecting =>
    left
    refine hother _ ?_
    intro hj
    have hfits := hf.fits j
    rw [State.fits, hconnecting, hj] at hfits
    exact hfits
  | complete j _ _ _ =>
    left
    by_cases hij : i = j
    · subst hij
      show update s.callback i (s.callback i).fire i = .dropping call
      rw [Function.update_self, hcallback]
      rfl
    · simpa [Function.update_of_ne hij] using hcallback
  | remove j hj => exact Or.inl (hother _ (by rw [hj]; simp))
  | take j hj => exact Or.inl (hother _ (by rw [hj]; simp))
  | drop j call' hj =>
    by_cases hij : i = j
    · subst hij
      rw [hcallback] at hj
      injection hj with hj
      subst hj
      exact Or.inr (Function.update_self ..)
    · left
      simpa [Function.update_of_ne hij] using hcallback
  | _ => exact Or.inl hcallback

theorem launched_of_watches (hf : s.Futures) (hw : s.watches i) : i < s.launched := by
  by_contra hge
  have hfits := hf.fits i
  rw [State.fits, hf.fresh i (Nat.le_of_not_lt hge)] at hfits
  rcases hw with hw | hw | hw <;> rw [hw] at hfits <;> exact hfits

theorem watched_of_move (hf : s.Futures) (hm : Move s t) {call : Nat} (hmade : call < s.made)
    (hlive : s.outcome (s.request call) = none ∨ s.isCancelled (s.request call) = true)
    (hcalling : ∀ stage, s.worker ≠ .calling (s.request call) stage)
    (hwithdrawing : ∀ i stage, s.worker ≠ .withdrawing i stage call) (hw : s.Watched call) :
    t.Guarded call := by
  obtain ⟨hcalls, hwatches, hclosing⟩ := hw
  have hrequest := (request_of_move hm hmade).1
  have hkeep : t.calls (s.request call) = some call → t.watches (s.request call) →
      (t.closing = .open ∨ ∃ futures, t.closing = .cancelling futures) → t.Guarded call := by
    intro hcalls hwatches hclosing
    right
    left
    rw [Watched, hrequest]
    exact ⟨hcalls, hwatches, hclosing⟩
  have hwatching : t.calls (s.request call) = some call → t.watches (s.request call) := by
    intro hcalls'
    rcases watches_of_move hm hwatches with hw | hnone
    · exact hw
    · rw [hnone] at hcalls'
      cases hcalls'
  cases hm with
  | take j hcallback =>
    by_cases hij : s.request call = j
    · -- the callback takes the call in hand
      subst hij
      have hcancelled : s.isCancelled (s.request call) = true := by
        rcases hlive with hnone | hcancelled
        · have hfits := hf.fits (s.request call)
          rw [State.fits, hcallback, hnone] at hfits
          cases hconnecting : s.connecting (s.request call) <;> rw [hconnecting] at hfits <;>
            first | exact absurd rfl hfits.1 | exact hfits.elim
        · exact hcancelled
      right
      right
      left
      show update s.callback (s.request call) _ (s.request call) = .dropping call
      rw [Function.update_self, hcalls]
      simp only [if_pos hcancelled]
    · have hcalls' : (s.take j).calls (s.request call) = some call := by
        simpa only [State.take, Function.update_of_ne hij] using hcalls
      exact hkeep hcalls' (hwatching hcalls') hclosing
  | newCall j stage hworker =>
    have hij : s.request call ≠ j := by
      rintro rfl
      exact hcalling stage hworker
    have hcalls' : (s.newCall j stage).calls (s.request call) = some call := by
      simpa only [State.newCall, Function.update_of_ne hij] using hcalls
    exact hkeep hcalls' (hwatching hcalls') hclosing
  | cancelling j stage call' hworker =>
    have hne : call' ≠ call := by
      rintro rfl
      exact hwithdrawing j stage hworker
    refine hkeep ?_ hwatches hclosing
    show (if s.calls j = some call' then update s.calls j none else s.calls) (s.request call) = _
    split_ifs with hsome
    · have hij : s.request call ≠ j := by
        rintro rfl
        rw [hcalls] at hsome
        exact hne (Option.some.inj hsome).symm
      rwa [Function.update_of_ne hij]
    · exact hcalls
  | close hopen => exact hkeep hcalls hwatches (Or.inr ⟨_, rfl⟩)
  | closeFuture j futures _ _ => exact hkeep hcalls hwatches (Or.inr ⟨_, rfl⟩)
  | closeCalls _ =>
    right
    right
    right
    refine ⟨_, rfl, ?_⟩
    have hlt := launched_of_watches hf hwatches
    exact List.mem_filterMap.mpr ⟨s.request call, List.mem_range.mpr hlt, hcalls⟩
  | closeCall _ _ h =>
    rcases hclosing with hc | ⟨_, hc⟩ <;> rw [h] at hc <;> cases hc
  | closeClear h =>
    rcases hclosing with hc | ⟨_, hc⟩ <;> rw [h] at hc <;> cases hc
  | clear h =>
    rcases hclosing with hc | ⟨_, hc⟩ <;> rw [h] at hc <;> cases hc
  | shutdownNow h =>
    rcases hclosing with hc | ⟨_, hc⟩ <;> rw [h] at hc <;> cases hc
  | closeSigner h =>
    rcases hclosing with hc | ⟨_, hc⟩ <;> rw [h] at hc <;> cases hc
  | _ => exact hkeep hcalls (hwatching hcalls) hclosing

theorem guarded_of_move (hf : s.Futures) (hm : Move s t) {call : Nat} (hmade : call < s.made)
    (hlive : s.outcome (s.request call) = none ∨ s.isCancelled (s.request call) = true)
    (hcalling : ∀ stage, s.worker ≠ .calling (s.request call) stage)
    (hwithdrawing : ∀ i stage, s.worker ≠ .withdrawing i stage call) (hg : s.Guarded call) :
    t.Guarded call := by
  rcases hg with hcancelled | hw | hdropping | ⟨calls, hclosing, hmem⟩
  · exact Or.inl (cancelled_of_move hm hcancelled)
  · exact watched_of_move hf hm hmade hlive hcalling hwithdrawing hw
  · rcases dropping_of_move hf hm hdropping with hd | hc
    · right
      right
      left
      rw [(request_of_move hm hmade).1]
      exact hd
    · exact Or.inl hc
  · have hkeep : t.closing = s.closing → t.Guarded call := by
      intro hsame
      exact Or.inr (Or.inr (Or.inr ⟨calls, hsame.trans hclosing, hmem⟩))
    cases hm with
    | close h => rw [h] at hclosing; cases hclosing
    | closeFuture _ _ h _ => rw [h] at hclosing; cases hclosing
    | closeCalls h => rw [h] at hclosing; cases hclosing
    | closeCall call' rest h =>
      rw [h] at hclosing
      injection hclosing with hcalls
      subst hcalls
      rcases List.mem_cons.mp hmem with rfl | hmem
      · exact Or.inl (Function.update_self ..)
      · exact Or.inr (Or.inr (Or.inr ⟨rest, rfl, hmem⟩))
    | closeClear h =>
      rw [h] at hclosing
      injection hclosing with hcalls
      subst hcalls
      cases hmem
    | clear h => rw [h] at hclosing; cases hclosing
    | shutdownNow h => rw [h] at hclosing; cases hclosing
    | closeSigner h => rw [h] at hclosing; cases hclosing
    | _ => exact hkeep rfl

structure Http (s : State) : Prop where
  known : ∀ call, s.worker.call = some call →
    call < s.made ∧ s.worker.request = some (s.request call)
  cancelled : ∀ call, s.abandoned call = true →
    call < s.made ∧ s.outcome (s.request call) = some .cancelled
  guarded : ∀ call, s.abandoned call = true → s.Guarded call ∨ s.worker.download = some call
  running : ∀ i stage call, s.worker = .executing i stage call →
    s.outcome i = none ∨ s.isCancelled i = true → s.Guarded call
  calling : ∀ i stage, s.worker = .calling i stage →
    ∀ call, s.abandoned call = true → s.request call ≠ i
  unstarted : ∀ call, s.worker.unstarted = some call → s.abandoned call = false
  interrupted : ∀ call, s.worker.download = some call → s.down = true → s.cancelled call = true

namespace Http

/-- The worker's call after a move was its call before, or is new. -/
theorem known_of_move (h : s.Http) (hm : Move s t) {call : Nat} (hcall : t.worker.call = some call) :
    call < t.made ∧ t.worker.request = some (t.request call) := by
  have hkeep : s.worker.call = some call → t.worker.request = s.worker.request →
      call < t.made ∧ t.worker.request = some (t.request call) := by
    intro hold hsame
    obtain ⟨hmade, hrequest⟩ := h.known call hold
    obtain ⟨hreq, hmade'⟩ := request_of_move hm hmade
    exact ⟨hmade', by rw [hsame, hrequest, hreq]⟩
  cases hm with
  | newCall i stage hworker =>
    injection hcall with hcall
    subst hcall
    refine ⟨Nat.lt_succ_self _, ?_⟩
    show some i = some (update s.request s.made i s.made)
    rw [Function.update_self]
  | downloading i hworker _ =>
    injection hcall with hcall
    subst hcall
    refine ⟨Nat.lt_succ_self _, ?_⟩
    show some i = some (update s.request s.made i s.made)
    rw [Function.update_self]
  | executing i stage call' hworker _ =>
      exact hkeep (by rw [hworker]; exact hcall) (by rw [hworker]; rfl)
  | withdrawing i stage call' hworker =>
      exact hkeep (by rw [hworker]; exact hcall) (by rw [hworker]; rfl)
  | cancelling i stage call' hworker =>
      exact hkeep (by rw [hworker]; exact hcall) (by rw [hworker]; rfl)
  | cancelCall i stage call' hworker =>
      exact hkeep (by rw [hworker]; exact hcall) (by rw [hworker]; rfl)
  | poll _ _ _ _ => cases hcall
  | leave _ _ _ _ _ => cases hcall
  | calling _ _ _ _ => cases hcall
  | answered _ _ _ _ _ => cases hcall
  | loading _ _ _ => cases hcall
  | warm _ _ => cases hcall
  | creating _ _ _ => cases hcall
  | create _ _ _ => cases hcall
  | sign _ _ _ => cases hcall
  | hooking _ _ _ => cases hcall
  | listening _ _ => cases hcall
  | _ => exact hkeep hcall rfl

/-- A call is abandoned when its request is cancelled while it runs. -/
theorem abandoned_of_move (hm : Move s t) {call : Nat} (habandoned : t.abandoned call = true) :
    s.abandoned call = true ∨ ∃ i, s.worker.running = some call ∧ s.worker.request = some i ∧
      s.outcome i = none ∧ t.outcome i = some .cancelled ∧ t.worker = s.worker := by
  cases hm with
  | complete i outcome _ hnone =>
    by_cases hcancel : outcome = .cancelled
    · subst hcancel
      have hset : s.abandon i call = true := habandoned
      unfold abandon at hset
      cases hrunning : s.worker.running with
      | none =>
        rw [hrunning] at hset
        exact Or.inl hset
      | some running =>
        simp only [hrunning] at hset
        split_ifs at hset with hrequest
        · by_cases heq : call = running
          · subst heq
            exact Or.inr ⟨i, rfl, hrequest, hnone, Function.update_self .., rfl⟩
          · rw [Function.update_of_ne heq] at hset
            exact Or.inl hset
        · exact Or.inl hset
    · left
      simpa [hcancel] using habandoned
  | _ => exact Or.inl habandoned

theorem call_of_running {worker : Worker} {call : Nat} (h : worker.running = some call) :
    worker.call = some call := by
  cases worker <;> cases h <;> rfl

theorem executing_or_download {worker : Worker} {call : Nat} (hrunning : worker.running = some call)
    (hrequest : worker.request = some i) :
    (∃ stage, worker = .executing i stage call) ∨ worker.download = some call := by
  cases worker <;> cases hrunning <;> cases hrequest
  · exact Or.inl ⟨_, rfl⟩
  · exact Or.inr rfl

/-- The request of a running call. -/
theorem request_of_running (h : s.Http) {call i : Nat} (hrunning : s.worker.running = some call)
    (hrequest : s.worker.request = some i) : call < s.made ∧ s.request call = i := by
  obtain ⟨hmade, hknown⟩ := h.known call (call_of_running hrunning)
  rw [hrequest] at hknown
  exact ⟨hmade, (Option.some.inj hknown).symm⟩

theorem abandoned_cancelled (h : s.Http) (hf : s.Futures) (hm : Move s t) {call : Nat}
    (habandoned : t.abandoned call = true) :
    call < t.made ∧ t.outcome (t.request call) = some .cancelled := by
  rcases abandoned_of_move hm habandoned with hold | ⟨i, hrunning, hrequest, -, hcancelled, -⟩
  · obtain ⟨hmade, hcancelled⟩ := h.cancelled call hold
    obtain ⟨hreq, hmade'⟩ := request_of_move hm hmade
    exact ⟨hmade', by rw [hreq, outcome_some_of_move hf hm hcancelled]⟩
  · obtain ⟨hmade, hreq⟩ := h.request_of_running hrunning hrequest
    obtain ⟨hreq', hmade'⟩ := request_of_move hm hmade
    exact ⟨hmade', by rw [hreq', hreq, hcancelled]⟩

theorem isCancelled_of_outcome (hcancelled : s.outcome i = some .cancelled) :
    s.isCancelled i = true := by
  rw [isCancelled, hcancelled]
  rfl

/-- An abandoned call that is not a running download stays guarded. -/
theorem guarded_abandoned (h : s.Http) (hf : s.Futures) (hm : Move s t) {call : Nat}
    (habandoned : s.abandoned call = true) (hg : s.Guarded call) : t.Guarded call := by
  obtain ⟨hmade, hcancelled⟩ := h.cancelled call habandoned
  refine guarded_of_move hf hm hmade (Or.inr (isCancelled_of_outcome hcancelled)) ?_ ?_ hg
  · intro stage hworker
    exact h.calling _ stage hworker call habandoned rfl
  · intro i stage hworker
    have hfresh := h.unstarted call (by rw [hworker]; rfl)
    rw [habandoned] at hfresh
    cases hfresh

/-- A running call stays guarded. -/
theorem guarded_running (h : s.Http) (hf : s.Futures) (hm : Move s t) {stage : Stage} {call : Nat}
    (hworker : s.worker = .executing i stage call)
    (hlive : s.outcome i = none ∨ s.isCancelled i = true) : t.Guarded call := by
  have hrunning : s.worker.running = some call := by rw [hworker]; rfl
  obtain ⟨hmade, hreq⟩ := h.request_of_running hrunning (by rw [hworker]; rfl)
  refine guarded_of_move hf hm hmade (by rw [hreq]; exact hlive) ?_ ?_
    (h.running i stage call hworker hlive)
  · intro stage' hw
    rw [hworker] at hw
    cases hw
  · intro j stage' hw
    rw [hworker] at hw
    cases hw

/-- A download goes on or ends in time. -/
theorem guarded_download (h : s.Http) (hm : Move s t) {call : Nat}
    (habandoned : s.abandoned call = true) (hdownload : s.worker.download = some call) :
    t.Guarded call ∨ t.worker.download = some call := by
  obtain ⟨i, hworker⟩ : ∃ i, s.worker = .downloading i call := by
    cases hw : s.worker <;> rw [hw] at hdownload <;> cases hdownload
    exact ⟨_, rfl⟩
  have hknown := h.known call (by rw [hworker]; rfl)
  have hend : s.downloadInTime = true → t.Guarded call ∨ t.worker.download = some call := by
    intro htime
    left
    left
    have hreq : s.request call = i := by
      have hrequest := hknown.2
      rw [hworker] at hrequest
      exact (Option.some.inj hrequest).symm
    have hcancelled := (h.cancelled call habandoned).2
    rw [hreq] at hcancelled
    rcases downloadInTime_iff.mp htime i call hworker with hlive | hdown
    · rw [isCancelled_of_outcome hcancelled] at hlive
      cases hlive
    · exact cancelled_of_move hm (h.interrupted call hdownload hdown)
  cases hm with
  | leave _ _ _ _ htime => exact hend htime
  | creating _ _ htime => exact hend htime
  | poll _ _ hw _ => rw [hworker] at hw; cases hw
  | calling _ _ hw _ => rcases hw with hw | hw <;> rw [hworker] at hw <;> cases hw
  | newCall _ _ hw => rw [hworker] at hw; cases hw
  | executing _ _ _ hw _ => rw [hworker] at hw; cases hw
  | withdrawing _ _ _ hw => rw [hworker] at hw; cases hw
  | cancelling _ _ _ hw => rw [hworker] at hw; cases hw
  | cancelCall _ _ _ hw => rw [hworker] at hw; cases hw
  | answered _ _ _ _ hw =>
    rcases hw with ⟨call', hw⟩ | hw <;> rw [hworker] at hw <;> cases hw
  | loading _ hw _ => rw [hworker] at hw; cases hw
  | warm _ hw => rw [hworker] at hw; cases hw
  | downloading _ hw _ => rw [hworker] at hw; cases hw
  | create _ hw _ => rw [hworker] at hw; cases hw
  | sign _ _ hw => rw [hworker] at hw; cases hw
  | hooking _ _ hw => rw [hworker] at hw; cases hw
  | listening _ hw => rw [hworker] at hw; cases hw
  | _ => exact Or.inr hdownload

theorem abandoned_guarded (h : s.Http) (hf : s.Futures) (hm : Move s t) {call : Nat}
    (habandoned : t.abandoned call = true) : t.Guarded call ∨ t.worker.download = some call := by
  rcases abandoned_of_move hm habandoned with
    hold | ⟨i, hrunning, hrequest, hnone, hcancelled, hsame⟩
  · rcases h.guarded call hold with hg | hdownload
    · exact Or.inl (h.guarded_abandoned hf hm hold hg)
    · exact h.guarded_download hm hold hdownload
  · rcases executing_or_download hrunning hrequest with ⟨stage, hworker⟩ | hdownload
    · exact Or.inl (h.guarded_running hf hm hworker (Or.inl hnone))
    · right
      rw [hsame, hdownload]

/-- The worker executes a call that it did not execute before. -/
theorem running_of_move (h : s.Http) (hp : s.Mapped) (hb : s.Begun) (hf : s.Futures) (hm : Move s t)
    {stage : Stage} {call : Nat} (hworker : t.worker = .executing i stage call)
    (hlive : t.outcome i = none ∨ t.isCancelled i = true) : t.Guarded call := by
  have hkeep : t.worker = s.worker → t.Guarded call := by
    intro hsame
    refine h.guarded_running hf hm (hsame.symm.trans hworker) ?_
    cases houtcome : s.outcome i with
    | none => exact Or.inl rfl
    | some outcome =>
      right
      have hsome := outcome_some_of_move hf hm houtcome
      rcases hlive with hnone | hcancelled
      · rw [hnone] at hsome
        cases hsome
      · rwa [isCancelled, hsome, ← houtcome] at hcancelled
  cases hm with
  | executing j stage' call' hchecking hgoes =>
    injection hworker with hji _ hcall
    subst hji
    subst hcall
    obtain ⟨hopen, hnone⟩ := stops_eq_false.mp hgoes
    have hknown := h.known call' (by rw [hchecking]; rfl)
    have hreq : s.request call' = j := by
      have hrequest := hknown.2
      rw [hchecking] at hrequest
      exact (Option.some.inj hrequest).symm
    right
    left
    show s.calls (s.request call') = some call' ∧ s.watches (s.request call') ∧ _
    rw [hreq]
    refine ⟨hp.checking j stage' call' hchecking hgoes, ?_, ?_⟩
    · exact Or.inl (watches_of_worker hb hf (by rw [hchecking]; rfl) hnone)
    · left
      simpa [closed] using hopen
  | cancelCall j stage' call' _ =>
    injection hworker with _ _ hcall
    subst hcall
    exact Or.inl (Function.update_self ..)
  | poll _ _ _ _ => cases hworker
  | leave _ _ _ _ _ => cases hworker
  | calling _ _ _ _ => cases hworker
  | newCall _ _ _ => cases hworker
  | withdrawing _ _ _ _ => cases hworker
  | cancelling _ _ _ _ => cases hworker
  | answered _ _ _ _ _ => cases hworker
  | loading _ _ _ => cases hworker
  | warm _ _ => cases hworker
  | creating _ _ _ => cases hworker
  | downloading _ _ _ => cases hworker
  | create _ _ _ => cases hworker
  | sign _ _ _ => cases hworker
  | hooking _ _ _ => cases hworker
  | listening _ _ => cases hworker
  | _ => exact hkeep rfl

/-- No call of a request is abandoned when `prepare` makes it a call. -/
theorem calling_of_move (h : s.Http) (hm : Move s t) {stage : Stage}
    (hworker : t.worker = .calling i stage) {call : Nat} (habandoned : t.abandoned call = true) :
    t.request call ≠ i := by
  have hkeep : t.worker = s.worker → t.request call ≠ i := by
    intro hsame
    have hworker' : s.worker = .calling i stage := hsame.symm.trans hworker
    rcases abandoned_of_move hm habandoned with hold | ⟨j, hrunning, -⟩
    · rw [(request_of_move hm (h.cancelled call hold).1).1]
      exact h.calling i stage hworker' call hold
    · rw [hworker'] at hrunning
      cases hrunning
  cases hm with
  | calling j stage' _ hgoes =>
    injection hworker with hji
    subst hji
    intro hreq
    have hcancelled := (h.cancelled call habandoned).2
    rw [show s.request call = j from hreq, (stops_eq_false.mp hgoes).2] at hcancelled
    cases hcancelled
  | poll _ _ _ _ => cases hworker
  | leave _ _ _ _ _ => cases hworker
  | newCall _ _ _ => cases hworker
  | executing _ _ _ _ _ => cases hworker
  | withdrawing _ _ _ _ => cases hworker
  | cancelling _ _ _ _ => cases hworker
  | cancelCall _ _ _ _ => cases hworker
  | answered _ _ _ _ _ => cases hworker
  | loading _ _ _ => cases hworker
  | warm _ _ => cases hworker
  | creating _ _ _ => cases hworker
  | downloading _ _ _ => cases hworker
  | create _ _ _ => cases hworker
  | sign _ _ _ => cases hworker
  | hooking _ _ _ => cases hworker
  | listening _ _ => cases hworker
  | _ => exact hkeep rfl

theorem unstarted_of_move (h : s.Http) (hm : Move s t) {call : Nat}
    (hunstarted : t.worker.unstarted = some call) : t.abandoned call = false := by
  have hkeep : s.worker.unstarted = some call → t.abandoned call = false := by
    intro hold
    by_contra habandoned
    rcases abandoned_of_move hm (by simpa using habandoned) with hold' | ⟨j, hrunning, -⟩
    · rw [h.unstarted call hold] at hold'
      cases hold'
    · cases hw : s.worker <;> rw [hw] at hold hrunning <;> cases hold <;> cases hrunning
  cases hm with
  | newCall j stage _ =>
    injection hunstarted with hcall
    subst hcall
    by_contra habandoned
    have hmade := (h.cancelled s.made (by simpa [State.newCall] using habandoned)).1
    exact Nat.lt_irrefl _ hmade
  | withdrawing j stage call' hworker => exact hkeep (by rw [hworker]; exact hunstarted)
  | cancelling j stage call' hworker => exact hkeep (by rw [hworker]; exact hunstarted)
  | poll _ _ _ _ => cases hunstarted
  | leave _ _ _ _ _ => cases hunstarted
  | calling _ _ _ _ => cases hunstarted
  | executing _ _ _ _ _ => cases hunstarted
  | cancelCall _ _ _ _ => cases hunstarted
  | answered _ _ _ _ _ => cases hunstarted
  | loading _ _ _ => cases hunstarted
  | warm _ _ => cases hunstarted
  | creating _ _ _ => cases hunstarted
  | downloading _ _ _ => cases hunstarted
  | create _ _ _ => cases hunstarted
  | sign _ _ _ => cases hunstarted
  | hooking _ _ _ => cases hunstarted
  | listening _ _ => cases hunstarted
  | _ => exact hkeep hunstarted

/-- `shutdownNow` interrupts the worker's thread, and no download starts on
an interrupted one. -/
theorem interrupted_of_move (h : s.Http) (hm : Move s t) {call : Nat}
    (hdownload : t.worker.download = some call) (hdown : t.down = true) :
    t.cancelled call = true := by
  have hkeep : t.worker = s.worker → t.down = s.down → t.cancelled call = true := by
    intro hworker hsame
    rw [hworker] at hdownload
    rw [hsame] at hdown
    exact cancelled_of_move hm (h.interrupted call hdownload hdown)
  cases hm with
  | downloading j _ hup =>
    rw [show s.down = true from hdown] at hup
    cases hup
  | shutdownNow _ =>
    dsimp only [shutdownNow]
    rw [show s.worker.download = some call from hdownload]
    exact Function.update_self ..
  | poll _ _ _ _ => cases hdownload
  | leave _ _ _ _ _ => cases hdownload
  | calling _ _ _ _ => cases hdownload
  | newCall _ _ _ => cases hdownload
  | executing _ _ _ _ _ => cases hdownload
  | withdrawing _ _ _ _ => cases hdownload
  | cancelling _ _ _ _ => cases hdownload
  | cancelCall _ _ _ _ => cases hdownload
  | answered _ _ _ _ _ => cases hdownload
  | loading _ _ _ => cases hdownload
  | warm _ _ => cases hdownload
  | creating _ _ _ => cases hdownload
  | create _ _ _ => cases hdownload
  | sign _ _ _ => cases hdownload
  | hooking _ _ _ => cases hdownload
  | listening _ _ => cases hdownload
  | _ => exact hkeep rfl rfl

theorem move (h : s.Http) (hp : s.Mapped) (hb : s.Begun) (hf : s.Futures) (hm : Move s t) :
    t.Http := by
  constructor
  · intro call hcall
    exact h.known_of_move hm hcall
  · intro call habandoned
    exact h.abandoned_cancelled hf hm habandoned
  · intro call habandoned
    exact h.abandoned_guarded hf hm habandoned
  · intro i stage call hworker hlive
    exact h.running_of_move hp hb hf hm hworker hlive
  · intro i stage hworker call habandoned
    exact h.calling_of_move hm hworker habandoned
  · intro call hunstarted
    exact h.unstarted_of_move hm hunstarted
  · intro call hdownload hdown
    exact h.interrupted_of_move hm hdownload hdown

theorem initial : ({} : State).Http :=
  ⟨nofun, nofun, nofun, nofun, nofun, nofun, nofun⟩

end Http

/-! ## The signers -/

/-- `prepare` is about to replace the signer. -/
def Worker.replaces : Worker → Bool
  | .loading _ | .downloading _ _ | .creating _ => true
  | _ => false

structure Signers (s : State) : Prop where
  known : ∀ k, s.signer = some k → k < s.signers
  old : ∀ k, k < s.signers → s.signer = some k ∨ s.retired k = true
  replaced : Worker.replaces s.worker = true → s.unusable = true
  finished : s.closing = .finished → ∀ k, s.signer = some k → s.retired k = true

/-- Signers get closed and stay so. -/
theorem retired_of_move (hm : Move s t) {k : Nat} (hretired : s.retired k = true) :
    t.retired k = true := by
  have hset : ∀ other, update s.retired other true k = true := by
    intro other
    by_cases heq : k = other
    · subst heq
      exact Function.update_self ..
    · rwa [Function.update_of_ne heq]
  cases hm with
  | retire other => exact hset other
  | closeSigner _ =>
    dsimp only [closeSigner]
    cases s.signer with
    | none => exact hretired
    | some other => exact hset other
  | _ => exact hretired

theorem unusable_iff : s.unusable = true ↔ ∀ k, s.signer = some k → s.retired k = true := by
  unfold unusable
  cases hsigner : s.signer with
  | none => exact ⟨fun _ => nofun, fun _ => rfl⟩
  | some k =>
    constructor
    · intro hretired j hj
      rw [← Option.some.inj hj]
      exact hretired
    · intro hall
      exact hall k rfl

namespace Signers

/-- Signers are created by `prepare` alone. -/
theorem signer_of_move (hm : Move s t) :
    t.signer = s.signer ∧ t.signers = s.signers ∨
      ∃ i, s.worker = .creating i ∧ s.closed = false ∧ t.signer = some s.signers ∧
        t.signers = s.signers + 1 ∧ t.worker = .signing i ∧ t.closing = s.closing := by
  cases hm with
  | create i hworker hopen => exact Or.inr ⟨i, hworker, hopen, rfl, rfl, rfl, rfl⟩
  | _ => exact Or.inl ⟨rfl, rfl⟩

theorem replaced_of_move (h : s.Signers) (hm : Move s t)
    (hreplaces : Worker.replaces t.worker = true) : t.unusable = true := by
  have hkeep : s.unusable = true → t.signer = s.signer → t.unusable = true := by
    intro hunusable hsame
    refine unusable_iff.mpr ?_
    intro k hk
    exact retired_of_move hm (unusable_iff.mp hunusable k (hsame.symm.trans hk))
  cases hm with
  | loading _ _ hunusable => exact hkeep hunusable rfl
  | creating _ hworker _ =>
    rcases hworker with hworker | ⟨call, hworker⟩ <;>
      exact hkeep (h.replaced (by rw [hworker]; rfl)) rfl
  | downloading _ hworker _ => exact hkeep (h.replaced (by rw [hworker]; rfl)) rfl
  | poll _ _ _ _ => cases hreplaces
  | leave _ _ _ _ _ => cases hreplaces
  | calling _ _ _ _ => cases hreplaces
  | newCall _ _ _ => cases hreplaces
  | executing _ _ _ _ _ => cases hreplaces
  | withdrawing _ _ _ _ => cases hreplaces
  | cancelling _ _ _ _ => cases hreplaces
  | cancelCall _ _ _ _ => cases hreplaces
  | answered _ _ _ _ _ => cases hreplaces
  | warm _ _ => cases hreplaces
  | create _ _ _ => cases hreplaces
  | sign _ _ _ => cases hreplaces
  | hooking _ _ _ => cases hreplaces
  | listening _ _ => cases hreplaces
  | _ => exact hkeep (h.replaced hreplaces) rfl

theorem finished_of_move (h : s.Signers) (hm : Move s t)
    (hfinished : t.closing = .finished) {k : Nat}
    (hk : t.signer = some k) : t.retired k = true := by
  cases hm with
  | create i _ hopen =>
    rw [closed, show s.closing = .finished from hfinished] at hopen
    cases hopen
  | closeSigner _ =>
    dsimp only [closeSigner]
    rw [show s.signer = some k from hk]
    exact Function.update_self ..
  | retire other => exact retired_of_move (Move.retire other) (h.finished hfinished k hk)
  | close _ => cases hfinished
  | closeFuture _ _ _ _ => cases hfinished
  | closeCalls _ => cases hfinished
  | closeCall _ _ _ => cases hfinished
  | closeClear _ => cases hfinished
  | clear _ => cases hfinished
  | shutdownNow _ => cases hfinished
  | _ => exact h.finished hfinished k hk

theorem move (h : s.Signers) (hm : Move s t) : t.Signers := by
  constructor
  · intro k hk
    rcases signer_of_move hm with ⟨hsigner, hsigners⟩ | ⟨i, -, -, hsigner, hsigners, -⟩
    · rw [hsigners]
      exact h.known k (hsigner.symm.trans hk)
    · rw [hsigners, ← Option.some.inj (hsigner.symm.trans hk)]
      exact Nat.lt_succ_self _
  · intro k hk
    rcases signer_of_move hm with ⟨hsigner, hsigners⟩ | ⟨i, hworker, -, hsigner, hsigners, -⟩
    · rw [hsigners] at hk
      rcases h.old k hk with hcurrent | hretired
      · exact Or.inl (hsigner.trans hcurrent)
      · exact Or.inr (retired_of_move hm hretired)
    · rw [hsigners] at hk
      rcases Nat.lt_succ_iff_lt_or_eq.mp hk with hlt | heq
      · right
        refine retired_of_move hm ?_
        rcases h.old k hlt with hcurrent | hretired
        · exact unusable_iff.mp (h.replaced (by rw [hworker]; rfl)) k hcurrent
        · exact hretired
      · left
        rw [hsigner, heq]
  · intro hreplaces
    exact h.replaced_of_move hm hreplaces
  · intro hfinished k hk
    exact h.finished_of_move hm hfinished hk

theorem initial : ({} : State).Signers :=
  ⟨nofun, nofun, nofun, nofun⟩

end Signers

end State

end TiktokSigner.JvmSigner.ConnectionProvider
