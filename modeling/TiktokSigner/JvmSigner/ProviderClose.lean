import TiktokSigner.JvmSigner.ProviderCalls

/-!
# The provider leaves nothing behind

The bundle's download is the one HTTP call that nobody tracks. `inTime`
rules out that it ends by itself after its request was cancelled; under it
nothing is left behind (`Laws`).
-/

namespace TiktokSigner.JvmSigner.ConnectionProvider

open Relation (ReflTransGen)

namespace State

variable {s t : State} {i : Nat}

/-! ## Runs -/

structure Sound (s : State) : Prop where
  futures : s.Futures
  begun : s.Begun
  closes : s.Closes
  carries : s.Carries
  mapped : s.Mapped
  http : s.Http
  signers : s.Signers

namespace Sound

theorem move (h : s.Sound) (hm : Move s t) : t.Sound where
  futures := h.futures.move hm
  begun := h.begun.move h.futures hm
  closes := h.closes.move h.futures hm
  carries := h.carries.move h.futures hm
  mapped := h.mapped.move h.begun h.futures hm
  http := h.http.move h.mapped h.begun h.futures hm
  signers := h.signers.move hm

theorem moves (h : s.Sound) (hm : ReflTransGen Move s t) : t.Sound := by
  induction hm with
  | refl => exact h
  | tail _ hlast ih => exact ih.move hlast

theorem initial : ({} : State).Sound where
  futures := Futures.initial
  begun := Begun.initial
  closes := Closes.initial
  carries := Carries.initial
  mapped := Mapped.initial
  http := Http.initial
  signers := Signers.initial

theorem of_run {as : List Action} (htime : Lts.AllMeet step (fun s a => s.inTime a = true) {} as)
    (hrun : Lts.run step {} as = some s) : s.Sound := by
  refine Lts.run_invariant ?_ initial htime hrun
  intro s₁ a s₂ hsound hin hs
  exact hsound.moves (moves_of_step hsound.begun hin hs)

end Sound

/-- No step is in progress, the worker's queue is empty, and no signing is
outstanding. -/
structure Quiet (s : State) : Prop where
  worker : s.worker = .idle
  queue : s.queue = []
  closing : s.closing = .open ∨ s.closing = .finished
  connecting : ∀ i, s.connecting i ≠ .admitted ∧ s.connecting i ≠ .registered
  callback : ∀ i, s.callback i = .absent ∨ s.callback i = .registered ∨ s.callback i = .done
  signing : ∀ i, s.signing i ≠ .outstanding
  hooks : ∀ i, s.cancelHook i ≠ .running ∧ s.signedHook i ≠ .running

/-- The provider leaves nothing behind: no future, no entry, no HTTP call of
a cancelled request, no signer. -/
structure Laws (s : State) : Prop where
  futures : s.Quiet → ∀ i, s.connecting i ≠ .absent → s.isDone i = true
  pending : s.Quiet → ∀ i, s.pending i = false
  calls : s.Quiet → ∀ i, s.calls i = none
  http : s.Quiet → ∀ call, s.abandoned call = true → s.cancelled call = true
  signers : s.closing = .finished → ∀ k, k < s.signers → s.retired k = true

namespace Sound

theorem outcome_of_quiet (h : s.Sound) (hq : s.Quiet) (hpresent : s.connecting i ≠ .absent) :
    s.outcome i ≠ none := by
  intro hnone
  rcases hq.closing with hopen | hfinished
  · rcases h.carries.carried (by rw [closed, hopen]; rfl) i hpresent hnone with
      hc | hc | hqueue | hworker | hsigning | hhook
    · exact (hq.connecting i).1 hc
    · exact (hq.connecting i).2 hc
    · rw [hq.queue] at hqueue
      cases hqueue
    · rw [hq.worker] at hworker
      cases hworker
    · exact hq.signing i hsigning
    · exact (hq.hooks i).2 hhook
  · exact h.closes.outcome_ne hpresent hfinished (by simp) (by simp) hnone

/-- In a quiet state the callback of a request is absent or done. -/
theorem callback_of_quiet (h : s.Sound) (hq : s.Quiet) (i : Nat) :
    s.callback i = .absent ∨ s.callback i = .done := by
  rcases hq.callback i with hc | hc | hc
  · exact Or.inl hc
  · have hpresent : s.connecting i ≠ .absent := by
      intro habsent
      have hfits := h.futures.fits i
      rw [State.fits, habsent, hc] at hfits
      exact hfits
    exact absurd (h.futures.outcome_none hc) (h.outcome_of_quiet hq hpresent)
  · exact Or.inr hc

theorem pending_of_quiet (h : s.Sound) (hq : s.Quiet) (i : Nat) : s.pending i = false := by
  have hfits := h.futures.fits i
  have hconnecting := hq.connecting i
  rcases h.callback_of_quiet hq i with hc | hc
  · rw [State.fits, hc] at hfits
    cases hcon : s.connecting i <;> rw [hcon] at hfits hconnecting
    · exact hfits.2
    · exact absurd rfl hconnecting.1
    · exact absurd rfl hconnecting.2
    · exact hfits.elim
    · exact hfits.2
  · rw [State.fits, hc] at hfits
    cases hcon : s.connecting i <;> rw [hcon] at hfits <;> first | exact hfits.2 | exact hfits.elim

theorem calls_of_quiet (h : s.Sound) (hq : s.Quiet) (i : Nat) : s.calls i = none := by
  by_contra hne
  obtain ⟨call, hcall⟩ := Option.ne_none_iff_exists'.mp hne
  rcases h.mapped.watched i call hcall with hw | ⟨stage, hw | hw⟩
  · rcases h.callback_of_quiet hq i with hc | hc
    · rcases hw with hw | hw | hw <;> rw [hc] at hw <;> cases hw
    · rcases hw with hw | hw | hw <;> rw [hc] at hw <;> cases hw
  · rw [hq.worker] at hw
    cases hw
  · rw [hq.worker] at hw
    cases hw

theorem http_of_quiet (h : s.Sound) (hq : s.Quiet) {call : Nat}
    (habandoned : s.abandoned call = true) : s.cancelled call = true := by
  rcases h.http.guarded call habandoned with (hc | hw | hd | ⟨calls, hclosing, -⟩) | hdownload
  · exact hc
  · rw [Watched, h.calls_of_quiet hq] at hw
    cases hw.1
  · rcases h.callback_of_quiet hq (s.request call) with hc | hc <;> rw [hc] at hd <;> cases hd
  · rcases hq.closing with hc | hc <;> rw [hclosing] at hc <;> cases hc
  · rw [hq.worker] at hdownload
    cases hdownload

theorem laws (h : s.Sound) : s.Laws := by
  constructor
  · intro hq i hpresent
    rw [isDone, Option.isSome_iff_ne_none]
    exact h.outcome_of_quiet hq hpresent
  · intro hq i
    exact h.pending_of_quiet hq i
  · intro hq i
    exact h.calls_of_quiet hq i
  · intro hq call habandoned
    exact h.http_of_quiet hq habandoned
  · intro hfinished k hk
    rcases h.signers.old k hk with hcurrent | hretired
    · exact h.signers.finished hfinished k hcurrent
    · exact hretired

end Sound

theorem provider_leaves_nothing_behind {as : List Action} {s : State}
    (htime : Lts.AllMeet step (fun s a => s.inTime a = true) {} as)
    (hrun : Lts.run step {} as = some s) : s.Laws :=
  (Sound.of_run htime hrun).laws

/-- `connect`, up to the check behind the guest session. -/
def toSession : List Action :=
  [.connect, .register 0, .execute 0, .poll, .work, .work, .work, .answer, .work, .work, .work,
    .answer]

theorem provider_leaves_nothing_behind_after_close :
    ∃ s, Lts.run step {} (toSession ++ [.work, .download, .close, .closeNext, .remove 0, .take 0,
        .drop 0, .closeNext, .closeNext, .closeNext, .closeNext, .throw, .closeNext]) = some s ∧
      (s.closing = .finished ∧ s.abandoned 2 = true ∧ s.cancelled 2 = true) ∧ s.Laws := by
  refine Lts.exists_run (P := fun s => s.closing = .finished ∧ s.abandoned 2 = true ∧
    s.cancelled 2 = true) (by decide) ?_
  intro s hrun hend
  exact ⟨hend, provider_leaves_nothing_behind (by decide) hrun⟩

/-- A request is cancelled while its bundle is downloaded: everybody comes to
rest, and nobody has cancelled the download. -/
theorem download_not_cancelled :
    ¬∀ (as : List Action) (s : State), Lts.run step {} as = some s → s.Laws := by
  intro h
  have hlaws := h (toSession ++ [.work, .download, .cancel 0, .remove 0, .take 0, .drop 0, .answer,
    .work]) _ rfl
  have hcancelled := hlaws.http ?_ 2 rfl
  · cases hcancelled
  · constructor
    · rfl
    · rfl
    · exact Or.inl rfl
    · intro i
      match i with
      | 0 => exact ⟨nofun, nofun⟩
      | i + 1 => exact ⟨nofun, nofun⟩
    · intro i
      match i with
      | 0 => exact Or.inr (Or.inr rfl)
      | i + 1 => exact Or.inl rfl
    · intro i
      match i with
      | 0 => exact nofun
      | i + 1 => exact nofun
    · intro i
      match i with
      | 0 => exact ⟨nofun, nofun⟩
      | i + 1 => exact ⟨nofun, nofun⟩

end State

end TiktokSigner.JvmSigner.ConnectionProvider
