import TiktokSigner.LiveApi.Resolve
import TiktokSigner.Lib.LeaseTable

/-!
# No flight without a lease

`ConnectService::flights` seen as a lease table: the map, the strong
counts, and what each call holds. Every step of `resolve` either leaves
this view alone or is a step of `LeaseTable.Step` (`step_view`), provided
a lease's drop body does not run as the last of its flight while a
sibling is between its body and the drop of its `Arc`
(`LastBodyIsAlone`). `FlightLease::drop` does nothing to ensure that: the
body compares the strong count with two, and a sibling in that window
still counts.
-/

namespace TiktokSigner.Resolve

open LeaseTable

def Phase.hold : Phase → Hold
  | .leased f | .rereading f | .remissed f | .discovering f | .discovered f _
  | .settling f _ | .leaving f _ => .held f
  | .releasing f _ => .dropping f
  | .reading | .missed | .finished .. | .cancelled => .idle

@[simp] theorem Phase.hold_lease (phase : Phase) : phase.hold.lease = phase.lease := by
  cases phase <;> rfl

theorem Phase.hold_eq_held {phase : Phase} {f : Nat} :
    phase.hold = .held f ↔ phase.lease = some f ∧ phase.pastBody = false := by
  cases phase <;> simp [Phase.hold, Phase.lease, Phase.pastBody]

def Call.client (call : Call) : Client String := ⟨call.uniqueId, call.phase.hold⟩

def State.view (s : State) : Table String where
  entries := s.flights
  arcs := s.arcs.map fun flight => (flight.key, flight.strong)
  clients := s.calls.map Call.client

/-- The other calls with a lease on `f`. -/
def siblings (s : State) (c f : Nat) : List Call :=
  (s.calls.eraseIdx c).filter fun call => call.phase.lease = some f

/-- A drop body that runs while its flight has other leases is not the
last one of its flight. -/
def LastBodyIsAlone (s : State) : Action → Prop
  | .dropBody c =>
      ∀ call ∈ s.calls[c]?, ∀ f ∈ call.phase.lease,
        siblings s c f = [] ∨ ∃ sibling ∈ siblings s c f, sibling.phase.pastBody = false
  | _ => True

instance (s : State) (a : Action) : Decidable (LastBodyIsAlone s a) := by
  cases a <;> unfold LastBodyIsAlone <;> infer_instance

/-! ## The view of an update -/

section View

variable {s : State} {c t : Nat} {uniqueId : String} {phase : Phase}

theorem client_view (hcall : s.calls[c]? = some ⟨uniqueId, t, phase⟩) :
    s.view.clients[c]? = some ⟨uniqueId, phase.hold⟩ := by
  rw [State.view, List.getElem?_map, hcall]
  rfl

theorem calls_move (hcall : s.calls[c]? = some ⟨uniqueId, t, phase⟩) (new : Phase) :
    (s.move c new).calls = s.calls.set c ⟨uniqueId, t, new⟩ := by
  refine List.ext_getElem? fun d => ?_
  rw [State.move, List.getElem?_modify, List.getElem?_set]
  by_cases hd : c = d
  · subst hd
    rw [if_pos rfl, if_pos (List.getElem?_eq_some_iff.mp hcall).1, hcall]
    simp
  · simp [hd]

theorem view_move (hcall : s.calls[c]? = some ⟨uniqueId, t, phase⟩) (new : Phase) :
    (s.move c new).view = s.view.setHold c ⟨uniqueId, new.hold⟩ := by
  rw [State.view, calls_move hcall, List.map_set]
  rfl

end View

theorem view_countArc {s : State} {f : Nat} {g : Flight → Flight} {n : Nat → Nat}
    (hg : ∀ flight, (g flight).key = flight.key ∧ (g flight).strong = n flight.strong) :
    (s.modifyArc f g).view = s.view.modifyCount f n := by
  have harcs : (s.arcs.modify f g).map (fun flight => (flight.key, flight.strong))
      = (s.arcs.map fun flight => (flight.key, flight.strong)).modify f
          fun a => (a.1, n a.2) := by
    refine List.ext_getElem? fun d => ?_
    rw [List.getElem?_map, List.getElem?_modify, List.getElem?_modify, List.getElem?_map]
    cases s.arcs[d]? with
    | none => rfl
    | some flight => by_cases hd : f = d <;> simp [hd, hg flight]
  simp only [State.view, State.modifyArc, harcs, Table.modifyCount]

theorem view_clone (s : State) (f : Nat) :
    (s.modifyArc f Flight.clone).view = s.view.modifyCount f (· + 1) :=
  view_countArc fun _ => ⟨rfl, rfl⟩

theorem view_dropArc (s : State) (f : Nat) :
    (s.modifyArc f Flight.dropArc).view = s.view.modifyCount f (· - 1) :=
  view_countArc fun _ => ⟨rfl, rfl⟩

/-- What a flight's initialiser does to it leaves key and count alone. -/
theorem view_modifyArc {s : State} {f : Nat} {g : Flight → Flight}
    (hg : ∀ flight, (g flight).key = flight.key ∧ (g flight).strong = flight.strong) :
    (s.modifyArc f g).view = s.view := by
  rw [view_countArc (n := id) hg]
  exact congrArg (fun arcs => Table.mk s.view.entries arcs s.view.clients)
    (List.modify_id f s.view.arcs)

/-- A call that moves on without touching what it holds. -/
theorem view_move_eq {s : State} {c t : Nat} {uniqueId : String} {phase : Phase}
    (hcall : s.calls[c]? = some ⟨uniqueId, t, phase⟩) (new : Phase)
    (hhold : new.hold = phase.hold) :
    (s.move c new).view = s.view := by
  have hset : s.view.clients.set c ⟨uniqueId, phase.hold⟩ = s.view.clients := by
    obtain ⟨hc, hget⟩ := List.getElem?_eq_some_iff.mp (client_view hcall)
    rw [← hget, List.set_getElem_self]
  rw [view_move hcall, hhold, Table.setHold, hset]

/-! ## The simulation -/

theorem arcs_view {s : State} {f : Nat} {flight : Flight} (harc : s.arcs[f]? = some flight) :
    s.view.arcs[f]? = some (flight.key, flight.strong) := by
  rw [State.view, List.getElem?_map, harc]
  rfl

theorem disciplined_view {s : State} {c t f : Nat} {uniqueId : String}
    {answer : Option Sourced} (hcall : s.calls[c]? = some ⟨uniqueId, t, .leaving f answer⟩)
    (halone : LastBodyIsAlone s (.dropBody c)) : Disciplined s.view (.dropBody c f) := by
  rintro ⟨d, other, hd, hother, hlease⟩
  obtain ⟨call, hcall', rfl⟩ : ∃ call, s.calls[d]? = some call ∧ call.client = other := by
    rw [State.view, List.getElem?_map, Option.map_eq_some_iff] at hother
    exact hother
  have hsibling : call ∈ siblings s c f := by
    refine List.mem_filter.mpr ⟨List.mem_eraseIdx_iff_getElem?.mpr ⟨d, hd, hcall'⟩, ?_⟩
    simpa [Call.client] using hlease
  rcases halone _ hcall f rfl with hnone | ⟨sibling, hmem, hbody⟩
  · rw [hnone] at hsibling
    cases hsibling
  · obtain ⟨hmem, hf⟩ := List.mem_filter.mp hmem
    obtain ⟨i, hi, hsib⟩ := List.mem_eraseIdx_iff_getElem?.mp hmem
    exact ⟨i, sibling.client, hi, by rw [State.view, List.getElem?_map, hsib]; rfl,
      Phase.hold_eq_held.mpr ⟨by simpa using hf, hbody⟩⟩

theorem view_dropBody {s : State} {c t f : Nat} {uniqueId : String}
    {answer : Option Sourced} {flight : Flight} (hcounted : Counted s.view)
    (hcall : s.calls[c]? = some ⟨uniqueId, t, .leaving f answer⟩)
    (harc : s.arcs[f]? = some flight) :
    Step s.view (.dropBody c f)
      ((dropBody s uniqueId f flight).move c (.releasing f answer)).view := by
  have hclient : s.view.clients[c]? = some ⟨uniqueId, .held f⟩ := client_view hcall
  have hcount : s.view.arcs[f]? = some (uniqueId, flight.strong) := by
    obtain ⟨n, hn⟩ := hcounted.client _ (List.mem_of_getElem? hclient) f rfl
    rw [arcs_view harc] at hn
    rw [arcs_view harc, (Prod.mk.inj (Option.some.inj hn)).1]
  rw [dropBody]
  split
  · rename_i htake
    have hmove : ((({ s with flights := s.flights.erase uniqueId } : State).modifyArc f
        Flight.dropArc).move c (.releasing f answer)).view
        = (({ s.view with entries := s.view.entries.erase uniqueId } : Table String).modifyCount
          f (· - 1)).setHold c ⟨uniqueId, .dropping f⟩ := by
      rw [view_move (s := ({ s with flights := s.flights.erase uniqueId } : State).modifyArc f
        Flight.dropArc) hcall, view_dropArc]
      rfl
    rw [hmove]
    exact .takeOut hclient htake.1 (by rw [hcount, htake.2])
  · rename_i hkeep
    rw [view_move hcall]
    exact .leaveIn hclient hcount hkeep

/-- One step of `resolve` is a step of the lease table or does not touch it. -/
theorem step_view {config : AppConfig} {s s' : State} {a : Action} (hcounted : Counted s.view)
    (h : step config s a = some s') :
    s'.view = s.view
      ∨ ∃ l, Step s.view l s'.view ∧ (LastBodyIsAlone s a → Disciplined s.view l) := by
  cases step_effect h with
  | start uniqueId =>
      right
      have hview : State.view { s with calls := s.calls ++ [⟨uniqueId, s.log.length, .reading⟩] }
          = { s.view with clients := s.view.clients ++ [⟨uniqueId, .idle⟩] } := by
        simp [State.view, Call.client, Phase.hold]
      rw [hview]
      exact ⟨.other, .enter uniqueId, fun _ => trivial⟩
  | readHit hcall => exact .inl (view_move_eq hcall _ rfl)
  | readMiss hcall => exact .inl (view_move_eq hcall _ rfl)
  | @join c t f uniqueId hcall hentry =>
      right
      rw [view_move (s := s.modifyArc f Flight.clone) hcall,
        view_clone]
      exact ⟨.other, .join (client_view hcall) hentry, fun _ => trivial⟩
  | refuse hcall => exact .inl (view_move_eq hcall _ rfl)
  | @create c t uniqueId hcall hentry =>
      right
      have hlen : s.view.arcs.length = s.arcs.length := List.length_map _
      have hstep := Step.create (client_view hcall) hentry
      rw [hlen] at hstep
      rw [view_move (s := { s with
        flights := s.flights.insert uniqueId s.arcs.length
        arcs := s.arcs ++ [{ key := uniqueId, strong := 2 }] }) hcall]
      refine ⟨.other, ?_, fun _ => trivial⟩
      simpa [State.view, Phase.hold] using hstep
  | joinAnswer hcall harc => exact .inl (view_move_eq hcall _ rfl)
  | @initiate c t f uniqueId hcall =>
      left
      rw [view_move_eq (s := s.modifyArc f Flight.takePermit) hcall (.rereading f) rfl,
        view_modifyArc (g := Flight.takePermit) fun _ => ⟨rfl, rfl⟩]
  | rereadHit hcall => exact .inl (view_move_eq hcall _ rfl)
  | rereadMiss hcall => exact .inl (view_move_eq hcall _ rfl)
  | slotRefused hcall => exact .inl (view_move_eq hcall _ rfl)
  | slotTaken hcall => exact .inl (view_move_eq hcall _ rfl)
  | resolverDone answer hcall => exact .inl (view_move_eq hcall _ rfl)
  | discoveryDone next hcall => exact .inl (view_move_eq hcall _ rfl)
  | @cellSet c t f uniqueId answer hcall =>
      left
      rw [view_move_eq (s := s.modifyArc f (Flight.set answer)) hcall
          (.leaving f (some answer)) rfl,
        view_modifyArc (g := Flight.set answer) fun _ => ⟨rfl, rfl⟩]
  | bodyDropped hcall harc =>
      exact .inr ⟨_, view_dropBody hcounted hcall harc, disciplined_view hcall⟩
  | @returned c t f source uniqueId answer hcall =>
      right
      rw [view_move (s := s.modifyArc f Flight.dropArc) hcall,
        view_dropArc]
      exact ⟨.other, .release (client_view hcall), fun _ => trivial⟩
  | @dropped c t f uniqueId hcall =>
      right
      rw [view_move (s := s.modifyArc f Flight.dropArc) hcall,
        view_dropArc]
      exact ⟨.other, .release (client_view hcall), fun _ => trivial⟩
  | cancelReading hcall => exact .inl (view_move_eq hcall _ rfl)
  | cancelWaiting hcall => exact .inl (view_move_eq hcall _ rfl)
  | @cancelInitializer c t f slots uniqueId phase hcall hphase =>
      left
      have hhold : (Phase.leaving f none).hold = phase.hold := by
        rcases hphase with rfl | rfl | ⟨answer, rfl⟩ <;> rfl
      rw [view_move_eq (s := ({ s with discoverySlots := slots } : State).modifyArc f
        Flight.returnPermit) hcall _ hhold,
        view_modifyArc (g := Flight.returnPermit) fun _ => ⟨rfl, rfl⟩]
      rfl
  | advance elapsed => exact .inl rfl
  | invalidate uniqueId => exact .inl rfl

theorem view_new (config : AppConfig) : (State.new config).view = ⟨∅, [], []⟩ := rfl

theorem counted_step {config : AppConfig} {s s' : State} {a : Action}
    (hcounted : Counted s.view) (h : step config s a = some s') : Counted s'.view := by
  rcases step_view hcounted h with hview | ⟨l, hstep, -⟩
  · exact hview ▸ hcounted
  · exact hcounted.step hstep

theorem counted_run {config : AppConfig} {actions : List Action} {s : State}
    (hrun : Lts.run (step config) (.new config) actions = some s) : Counted s.view :=
  Lts.run_invariant_all (fun _ _ _ hcounted h => counted_step hcounted h)
    (view_new config ▸ Counted.empty) hrun

theorem watched_step {config : AppConfig} {s s' : State} {a : Action}
    (hinv : Counted s.view ∧ Watched s.view) (halone : LastBodyIsAlone s a)
    (h : step config s a = some s') : Counted s'.view ∧ Watched s'.view := by
  refine ⟨counted_step hinv.1 h, ?_⟩
  rcases step_view hinv.1 h with hview | ⟨l, hstep, hd⟩
  · exact hview ▸ hinv.2
  · exact hinv.2.step hinv.1 hstep (hd halone)

/-- In every run in which last bodies are alone, a key nobody has a lease
on has no flight. -/
theorem no_flight_without_lease {config : AppConfig} {actions : List Action} {s : State}
    (hrun : Lts.run (step config) (.new config) actions = some s)
    (halone : Lts.AllMeet (step config) LastBodyIsAlone (.new config) actions) {key : String}
    (hfree : ∀ call ∈ s.calls, call.uniqueId = key → call.phase.lease = none) :
    s.flights.lookup key = none := by
  obtain ⟨hcounted, hwatched⟩ :=
    Lts.run_invariant (fun _ _ _ hinv ha h => watched_step hinv ha h)
      ⟨view_new config ▸ Counted.empty, view_new config ▸ Watched.empty⟩ halone hrun
  refine lookup_eq_none hcounted hwatched fun client hmem hkey => ?_
  obtain ⟨call, hcall, rfl⟩ := List.mem_map.mp hmem
  exact (call.phase.hold_lease).trans (hfree call hcall hkey)

/-- Two calls share a flight and drop their leases one after the other. -/
theorem no_flight_after_two_leases :
    ∃ s, Lts.run (step {}) (.new {})
        [.start "creator", .start "creator", .readCache 0, .readCache 1, .acquire 0, .acquire 1,
          .enterCell 0, .rereadCache 0, .acquireSlot 0, .cancel 0, .dropBody 0, .release 0,
          .enterCell 1, .cancel 1, .dropBody 1, .release 1] = some s
      ∧ s.flights.lookup "creator" = none :=
  Lts.exists_run
    (P := fun s => ∀ call ∈ s.calls, call.uniqueId = "creator" → call.phase.lease = none)
    (by decide) fun _ hs hfree => no_flight_without_lease hs (by decide) hfree

/-- Both drop bodies run before either `Arc` is dropped: each sees a strong
count of three, and the flight stays, with its answer. -/
theorem leaked_flight :
    ∃ s, Lts.run (step {}) (.new {})
        [.start "creator", .start "creator", .readCache 0, .readCache 1, .acquire 0, .acquire 1,
          .enterCell 0, .rereadCache 0, .acquireSlot 0,
          .resolverCompletes 0 (.error (.refused "blocked")), .finishDiscovery 0 none,
          .setCell 0, .enterCell 1, .dropBody 0, .dropBody 1, .release 0, .release 1] = some s
      ∧ (∀ call ∈ s.calls, call.uniqueId = "creator" → call.phase.lease = none)
      ∧ s.flights.lookup "creator" ≠ none :=
  Lts.exists_run (by decide) fun _ _ h => h

end TiktokSigner.Resolve
