import TiktokSigner.LiveApi.Flights
import TiktokSigner.Lib.Crowd

/-!
# One discovery for a unique id

A discovery lasts from the slot it takes to the slot's drop: the resolver
runs, and then its value is put into the cache. It happens in the
initialiser of a flight's cell, which has one permit, and all initialisers
of a unique id are those of one flight: a lease whose drop body has not run
finds its flight in the map (`Listed`).

So two discoveries of one unique id would be two initialisers of one cell.
`Moves` is what a step does to the permits, the slots and the number of
flights.
-/

namespace TiktokSigner.Resolve

open Crowd LeaseTable Lts

/-- The flight whose initialiser the call runs. -/
def Phase.initializes : Phase → Option Nat
  | .rereading f | .remissed f | .discovering f | .discovered f _ | .settling f _ => some f
  | .reading | .missed | .leased _ | .leaving .. | .releasing .. | .finished .. | .cancelled => none

/-- The resolver's invocation of the call is in progress. -/
def Phase.runsResolver : Phase → Bool
  | .discovering _ => true
  | _ => false

/-- The call holds a discovery slot. -/
def Phase.discovers : Phase → Bool
  | .discovering _ | .discovered .. => true
  | _ => false

namespace State

/-- Resolver invocations in progress for `uniqueId`. -/
def invocations (s : State) (uniqueId : String) : Nat :=
  s.calls.countP fun call => call.uniqueId = uniqueId ∧ call.phase.runsResolver

/-- All resolver invocations in progress. -/
def running (s : State) : Nat := s.calls.countP fun call => call.phase.runsResolver

/-- Discoveries in progress for `uniqueId`: the resolver's invocation, and
what follows it under the same slot. -/
def discoveriesOf (s : State) (uniqueId : String) : Nat :=
  s.calls.countP fun call => call.uniqueId = uniqueId ∧ call.phase.discovers

/-- All discoveries in progress. -/
def discoveries (s : State) : Nat := s.calls.countP fun call => call.phase.discovers

/-- Calls that run an initialiser of flight `f`. -/
def initializers (s : State) (f : Nat) : Nat :=
  s.calls.countP fun call => call.phase.initializes = some f

/-- Initialiser permits of flight `f`; one for a flight that is to come. -/
def permits (s : State) (f : Nat) : Nat := ((s.arcs[f]?.map (·.permit)).getD true).toNat

end State

/-! ## What a step does -/

/-- What a step does to the calls, the permits, the slots and the number of
flights. -/
inductive Moves (config : AppConfig) (s s' : State) : Prop
  | stay (hcalls : s'.calls = s.calls) (harcs : s'.arcs = s.arcs)
      (hslots : s'.discoverySlots = s.discoverySlots) (hflights : s'.flights = s.flights)
  | enter (call : Call) (hphase : call.phase = .reading) (hcalls : s'.calls = s.calls ++ [call])
      (harcs : s'.arcs = s.arcs) (hslots : s'.discoverySlots = s.discoverySlots)
      (hflights : s'.flights = s.flights)
  | move (c t : Nat) (uniqueId : String) (phase phase' : Phase)
      (hcall : s.calls[c]? = some ⟨uniqueId, t, phase⟩)
      (hcalls : s'.calls = s.calls.set c ⟨uniqueId, t, phase'⟩)
      (hpermits : ∀ f, (decide (phase'.initializes = some f)).toNat + s'.permits f ≤
        (decide (phase.initializes = some f)).toNat + s.permits f)
      (hslots : s'.discoverySlots + phase'.discovers.toNat =
        s.discoverySlots + phase.discovers.toNat)
      (hflights : s'.flights.keys.length ≤
        max s.flights.keys.length config.maxConcurrentRequests)

variable {config : AppConfig} {s s' : State} {c f : Nat}

/-- A call moves on after an update `u` of the rest. -/
theorem moves_move {u : State} {t : Nat} {uniqueId : String} {phase phase' : Phase}
    (hcall : s.calls[c]? = some ⟨uniqueId, t, phase⟩) (hcalls : u.calls = s.calls)
    (hpermits : ∀ f, (decide (phase'.initializes = some f)).toNat + u.permits f ≤
      (decide (phase.initializes = some f)).toNat + s.permits f)
    (hslots : u.discoverySlots + phase'.discovers.toNat = s.discoverySlots + phase.discovers.toNat)
    (hflights : u.flights.keys.length ≤ max s.flights.keys.length config.maxConcurrentRequests) :
    Moves config s (u.move c phase') :=
  .move c t uniqueId phase phase' hcall (by rw [calls_move (hcalls ▸ hcall), hcalls]) hpermits hslots
    hflights

/-- A call moves on within or outside its initialiser, and nothing else
changes that counts. -/
theorem moves_on {u : State} {t : Nat} {uniqueId : String} {phase phase' : Phase}
    (hcall : s.calls[c]? = some ⟨uniqueId, t, phase⟩) (hcalls : u.calls = s.calls)
    (hpermits : ∀ f, u.permits f = s.permits f) (hflights : u.flights = s.flights)
    (hinitializes : phase'.initializes = phase.initializes)
    (hslots : u.discoverySlots + phase'.discovers.toNat =
      s.discoverySlots + phase.discovers.toNat) : Moves config s (u.move c phase') := by
  refine moves_move hcall hcalls (fun f => ?_) hslots ?_
  · rw [hinitializes, hpermits]
  · rw [hflights]
    exact Nat.le_max_left _ _

theorem permits_modifyArc (s : State) {g : Flight → Flight}
    (hg : ∀ flight, (g flight).permit = flight.permit) (f f' : Nat) :
    (s.modifyArc f g).permits f' = s.permits f' := by
  rw [State.permits, State.permits, State.modifyArc, List.getElem?_modify]
  cases s.arcs[f']? with
  | none => rfl
  | some flight =>
    by_cases heq : f = f'
    · simp [heq, hg]
    · simp [heq]

theorem permits_le_one (s : State) (f : Nat) : s.permits f ≤ 1 := Bool.toNat_le _

theorem permits_modifyArc_of_ne (s : State) (g : Flight → Flight) {f f' : Nat} (hne : f ≠ f') :
    (s.modifyArc f g).permits f' = s.permits f' := by
  rw [State.permits, State.permits, State.modifyArc, List.getElem?_modify]
  cases s.arcs[f']? with
  | none => rfl
  | some flight => simp [hne]

/-- The initialiser's permit is taken. -/
theorem permits_takePermit {flight : Flight} (harc : s.arcs[f]? = some flight)
    (hpermit : flight.permit = true) (f' : Nat) :
    (decide (some f = some f')).toNat + (s.modifyArc f Flight.takePermit).permits f' =
      s.permits f' := by
  by_cases heq : f = f'
  · subst heq
    rw [State.permits, State.permits, State.modifyArc, List.getElem?_modify_eq, harc]
    simp [Flight.takePermit, hpermit]
  · rw [permits_modifyArc_of_ne s _ heq, decide_eq_false (by simpa using heq)]
    exact Nat.zero_add _

/-- A cancelled initialiser returns it. -/
theorem permits_returnPermit (s : State) (f f' : Nat) :
    (s.modifyArc f Flight.returnPermit).permits f' ≤
      (decide (some f = some f')).toNat + s.permits f' := by
  by_cases heq : f = f'
  · subst heq
    rw [decide_eq_true rfl]
    exact Nat.le_trans (permits_le_one _ f) (Nat.le_add_right _ _)
  · rw [permits_modifyArc_of_ne s _ heq]
    exact Nat.le_add_left _ _

theorem length_keys_insert (s : State) (uniqueId : String) (f : Nat) :
    (s.flights.insert uniqueId f).keys.length ≤ s.flights.keys.length + 1 := by
  rw [AList.keys_insert, List.length_cons]
  exact Nat.succ_le_succ (List.length_erase_le)

theorem length_keys_erase (s : State) (uniqueId : String) :
    (s.flights.erase uniqueId).keys.length ≤ s.flights.keys.length := by
  rw [AList.keys_erase]
  exact List.length_erase_le

theorem moves_acquire {t : Nat} {uniqueId : String}
    (hcall : s.calls[c]? = some ⟨uniqueId, t, .missed⟩) :
    Moves config s (acquire config s c uniqueId) := by
  rw [acquire]
  split
  case h_1 f hentry =>
    refine moves_on hcall rfl (fun f' => ?_)
      rfl rfl rfl
    exact permits_modifyArc s (g := Flight.clone) (fun _ => rfl) f f'
  case h_2 hentry =>
    split
    case isTrue => exact moves_on hcall rfl (fun _ => rfl) rfl rfl rfl
    case isFalse hroom =>
      refine moves_move hcall rfl (fun f => ?_) rfl ?_
      · rw [State.permits, State.permits, getElem?_concat]
        split_ifs with heq
        · rw [heq, List.getElem?_eq_none (Nat.le_refl _)]
          exact Nat.le_refl _
        · exact Nat.le_refl _
      · have hinsert := length_keys_insert s uniqueId s.arcs.length
        refine Nat.le_trans hinsert (Nat.le_trans ?_ (Nat.le_max_right _ _))
        exact Nat.lt_of_not_le hroom

theorem moves_dropBody {t : Nat} {uniqueId : String} {answer : Option Sourced} (flight : Flight)
    (hcall : s.calls[c]? = some ⟨uniqueId, t, .leaving f answer⟩) :
    Moves config s ((dropBody s uniqueId f flight).move c (.releasing f answer)) := by
  rw [dropBody]
  split
  case isTrue =>
    refine moves_move hcall rfl (fun f' => ?_) rfl ?_
    · have hpermits := permits_modifyArc { s with flights := s.flights.erase uniqueId }
        (g := Flight.dropArc) (fun _ => rfl) f f'
      rw [hpermits]
      exact Nat.le_refl _
    · exact Nat.le_trans (length_keys_erase s uniqueId) (Nat.le_max_left _ _)
  case isFalse => exact moves_on hcall rfl (fun _ => rfl) rfl rfl rfl

/-- A cancelled initialiser returns its permit, and the slot if it holds
one. -/
theorem moves_cancelInitializer {t slots : Nat} {uniqueId : String} {phase : Phase}
    (hcall : s.calls[c]? = some ⟨uniqueId, t, phase⟩) (hphase : phase.initializes = some f)
    (hslots : slots = s.discoverySlots + phase.discovers.toNat) :
    Moves config s ((({ s with discoverySlots := slots } : State).modifyArc f
      Flight.returnPermit).move c (.leaving f none)) := by
  refine moves_move hcall rfl (fun f' => ?_) hslots (Nat.le_max_left _ _)
  rw [hphase]
  exact Nat.le_trans (Nat.le_of_eq (Nat.zero_add _)) (permits_returnPermit _ f f')

theorem moves_cancel {call : Call} (hcall : s.calls[c]? = some call)
    (h : cancel s c call.phase = some s') : Moves config s s' := by
  obtain ⟨uniqueId, t, phase⟩ := call
  cases phase <;> simp only [cancel, Option.some.injEq, reduceCtorEq] at h
  case reading =>
    subst h
    exact moves_on hcall rfl (fun _ => rfl) rfl rfl rfl
  case leased f =>
    subst h
    exact moves_on hcall rfl (fun _ => rfl) rfl rfl rfl
  case rereading f =>
    subst h
    exact moves_cancelInitializer hcall rfl rfl
  case discovering f =>
    subst h
    exact moves_cancelInitializer hcall rfl rfl
  case discovered f answer =>
    obtain ⟨answer, source⟩ := answer
    cases answer with
    | error error => cases h
    | ok value =>
      obtain rfl := Option.some.inj h
      exact moves_cancelInitializer hcall rfl rfl

theorem moves_of_step {a : Action} (h : step config s a = some s') : Moves config s s' := by
  cases a <;> simp only [step] at h
  case start uniqueId =>
    obtain rfl := Option.some.inj h
    exact .enter _ rfl rfl rfl rfl rfl
  case readCache c =>
    split at h <;> try cases h
    rename_i hcall
    split at h <;> obtain rfl := Option.some.inj h
    · exact moves_on hcall rfl (fun _ => rfl) rfl rfl rfl
    · exact moves_on hcall rfl (fun _ => rfl) rfl rfl rfl
  case acquire c =>
    split at h <;> try cases h
    rename_i hcall
    exact moves_acquire hcall
  case enterCell c =>
    split at h <;> try cases h
    rename_i uniqueId t f hcall
    split at h <;> try cases h
    · exact moves_on hcall rfl (fun _ => rfl) rfl rfl rfl
    · rename_i harc
      refine moves_move hcall rfl (fun f' => ?_) rfl (Nat.le_max_left _ _)
      exact Nat.le_of_eq ((permits_takePermit harc rfl f').trans (Nat.zero_add _).symm)
  case rereadCache c =>
    split at h <;> try cases h
    rename_i hcall
    split at h <;> obtain rfl := Option.some.inj h
    · exact moves_on hcall rfl (fun _ => rfl) rfl rfl rfl
    · exact moves_on hcall rfl (fun _ => rfl) rfl rfl rfl
  case acquireSlot c =>
    split at h <;> try cases h
    rename_i hcall
    split at h <;> obtain rfl := Option.some.inj h
    · exact moves_on hcall rfl (fun _ => rfl) rfl rfl rfl
    · rename_i hslots
      exact moves_on hcall rfl (fun _ => rfl) rfl rfl
        (Nat.sub_add_cancel (Nat.pos_of_ne_zero hslots))
  case resolverCompletes c answer =>
    split at h <;> try cases h
    rename_i hcall
    exact moves_on hcall rfl (fun _ => rfl) rfl rfl rfl
  case finishDiscovery c next =>
    split at h <;> try cases h
    · rename_i hcall
      split at h <;> try cases h
      exact moves_on hcall rfl (fun _ => rfl) rfl rfl rfl
    · rename_i hcall
      exact moves_on hcall rfl (fun _ => rfl) rfl rfl rfl
  case setCell c =>
    split at h <;> try cases h
    rename_i uniqueId t f answer hcall
    refine moves_move hcall rfl (fun f' => ?_) rfl (Nat.le_max_left _ _)
    rw [permits_modifyArc s (g := Flight.set answer) (fun _ => rfl)]
    exact Nat.add_le_add_right (Nat.zero_le _) _
  case dropBody c =>
    split at h <;> try cases h
    rename_i hcall
    split at h <;> try cases h
    exact moves_dropBody _ hcall
  case release c =>
    split at h <;> try cases h
    rename_i uniqueId t f answer hcall
    refine moves_on hcall rfl (fun f' => ?_) rfl ?_ ?_
    · exact permits_modifyArc s (g := Flight.dropArc) (fun _ => rfl) f f'
    · cases answer <;> rfl
    · cases answer <;> rfl
  case cancel c =>
    split at h <;> try cases h
    rename_i hcall
    exact moves_cancel hcall h
  case advance elapsed =>
    obtain rfl := Option.some.inj h
    exact .stay rfl rfl rfl rfl
  case invalidate uniqueId =>
    obtain rfl := Option.some.inj h
    exact .stay rfl rfl rfl rfl

/-! ## What holds in every run -/

/-- Slots and permits are free or in use, and the map keeps its bound. -/
structure Bounded (config : AppConfig) (s : State) : Prop where
  slots : s.discoverySlots + s.discoveries = config.maxConcurrentDiscovery
  permits : ∀ f, s.initializers f + s.permits f ≤ 1
  flights : s.flights.keys.length ≤ config.maxConcurrentRequests

theorem Bounded.new (config : AppConfig) : Bounded config (.new config) where
  slots := rfl
  permits := fun _ => Nat.le_refl _
  flights := Nat.zero_le _

theorem discoveries_concat {call : Call} (hphase : call.phase = .reading)
    (hcalls : s'.calls = s.calls ++ [call]) : s'.discoveries = s.discoveries := by
  rw [State.discoveries, hcalls, countP_concat, hphase]
  rfl

theorem initializers_concat {call : Call} (hphase : call.phase = .reading)
    (hcalls : s'.calls = s.calls ++ [call]) (f : Nat) : s'.initializers f = s.initializers f := by
  rw [State.initializers, hcalls, countP_concat, hphase]
  rfl

theorem Bounded.step (h : Bounded config s) (hmoves : Moves config s s') : Bounded config s' := by
  cases hmoves with
  | stay hcalls harcs hslots hflights =>
    refine ⟨?_, fun f => ?_, ?_⟩
    · rw [hslots, State.discoveries, hcalls]
      exact h.slots
    · rw [State.permits, harcs, State.initializers, hcalls]
      exact h.permits f
    · rw [hflights]
      exact h.flights
  | enter call hphase hcalls harcs hslots hflights =>
    refine ⟨?_, fun f => ?_, ?_⟩
    · rw [hslots, discoveries_concat hphase hcalls]
      exact h.slots
    · rw [State.permits, harcs, initializers_concat hphase hcalls]
      exact h.permits f
    · rw [hflights]
      exact h.flights
  | move c t uniqueId phase phase' hcall hcalls hpermits hslots hflights =>
    refine ⟨?_, fun f => ?_, ?_⟩
    · have hcount := countP_set_add hcall ⟨uniqueId, t, phase'⟩ fun call => call.phase.discovers
      rw [← hcalls] at hcount
      have hold := h.slots
      dsimp only [State.discoveries] at hold hcount ⊢
      omega
    · have hcount := countP_set_add hcall ⟨uniqueId, t, phase'⟩ fun call =>
        decide (call.phase.initializes = some f)
      rw [← hcalls] at hcount
      have hold := h.permits f
      have hnew := hpermits f
      dsimp only [State.initializers] at hold hcount ⊢
      omega
    · exact Nat.le_trans hflights (Nat.max_le.mpr ⟨h.flights, Nat.le_refl _⟩)

theorem bounded_run {actions : List Action}
    (hrun : Lts.run (step config) (.new config) actions = some s) : Bounded config s :=
  run_invariant_all (fun _ _ _ h hstep => h.step (moves_of_step hstep)) (.new config) hrun

theorem listed_step {a : Action} (hinv : Counted s.view ∧ Listed s.view)
    (h : step config s a = some s') : Counted s'.view ∧ Listed s'.view := by
  refine ⟨counted_step hinv.1 h, ?_⟩
  rcases step_view hinv.1 h with hview | ⟨l, hstep, -⟩
  · exact hview ▸ hinv.2
  · exact hinv.2.step hinv.1 hstep

/-- A call whose drop body has not run finds its flight in the map. -/
theorem lookup_of_held {actions : List Action}
    (hrun : Lts.run (step config) (.new config) actions = some s) {call : Call}
    (hcall : s.calls[c]? = some call) (hheld : call.phase.hold = .held f) :
    s.flights.lookup call.uniqueId = some f := by
  obtain ⟨-, hlisted⟩ := run_invariant_all (fun _ _ _ hinv hstep => listed_step hinv hstep)
    ⟨view_new config ▸ Counted.empty, view_new config ▸ Listed.empty⟩ hrun
  exact hlisted call.client (List.mem_map_of_mem (List.mem_of_getElem? hcall)) f hheld

theorem Phase.held_of_discovers {phase : Phase} (h : phase.discovers = true) :
    ∃ f, phase.hold = .held f ∧ phase.initializes = some f := by
  cases phase with
  | discovering f => exact ⟨f, rfl, rfl⟩
  | discovered f answer => exact ⟨f, rfl, rfl⟩
  | _ => cases h

/-- One cell has one initialiser. -/
theorem Bounded.initializer_unique (h : Bounded config s) {d : Nat} {call other : Call}
    (hcall : s.calls[c]? = some call) (hother : s.calls[d]? = some other)
    (hf : call.phase.initializes = some f) (hg : other.phase.initializes = some f) : c = d := by
  by_contra hne
  have htwo : 2 ≤ s.initializers f :=
    two_le_countP hne hcall hother (decide_eq_true hf) (decide_eq_true hg)
  have hone := h.permits f
  omega

theorem Phase.discovers_of_runsResolver {phase : Phase} (h : phase.runsResolver = true) :
    phase.discovers = true := by
  cases phase with
  | discovering f => rfl
  | _ => cases h

theorem State.invocations_le (s : State) (uniqueId : String) :
    s.invocations uniqueId ≤ s.discoveriesOf uniqueId := by
  refine List.countP_mono_left fun call _ h => ?_
  obtain ⟨hkey, hruns⟩ := of_decide_eq_true h
  exact decide_eq_true ⟨hkey, Phase.discovers_of_runsResolver hruns⟩

theorem State.running_le (s : State) : s.running ≤ s.discoveries :=
  List.countP_mono_left fun _ _ h => Phase.discovers_of_runsResolver h

/-- Two discoveries of one unique id run in one flight, so they are one
call's. -/
theorem discoveriesOf_le_one {actions : List Action}
    (hrun : Lts.run (step config) (.new config) actions = some s) (uniqueId : String) :
    s.discoveriesOf uniqueId ≤ 1 := by
  refine countP_le_one fun c d call other hcall hother h h' => ?_
  obtain ⟨hkey, hdiscovers⟩ := of_decide_eq_true h
  obtain ⟨hkey', hdiscovers'⟩ := of_decide_eq_true h'
  obtain ⟨f, hheld, hf⟩ := Phase.held_of_discovers hdiscovers
  obtain ⟨g, hheld', hg⟩ := Phase.held_of_discovers hdiscovers'
  have hlookup := lookup_of_held hrun hcall hheld
  rw [hkey, ← hkey', lookup_of_held hrun hother hheld'] at hlookup
  obtain rfl := Option.some.inj hlookup
  exact (bounded_run hrun).initializer_unique hcall hother hf hg

/-- Whatever calls start, interleave and are cancelled: a unique id has one
discovery at a time, the map keeps its bound, and a slot is either free or
a discovery's. -/
theorem single_flight (config : AppConfig) (actions : List Action) (s : State)
    (hrun : Lts.run (step config) (.new config) actions = some s) :
    (∀ uniqueId, s.invocations uniqueId ≤ s.discoveriesOf uniqueId
        ∧ s.discoveriesOf uniqueId ≤ 1)
      ∧ s.flights.keys.length ≤ config.maxConcurrentRequests
      ∧ s.running ≤ s.discoveries
      ∧ s.discoveries ≤ config.maxConcurrentDiscovery
      ∧ s.discoverySlots + s.discoveries = config.maxConcurrentDiscovery := by
  have hbounded := bounded_run hrun
  have hslots := hbounded.slots
  refine ⟨fun uniqueId => ⟨s.invocations_le uniqueId, discoveriesOf_le_one hrun uniqueId⟩,
    hbounded.flights, s.running_le, ?_, hslots⟩
  exact Nat.le_trans (Nat.le_add_left _ _) (Nat.le_of_eq hslots)

/-- Two calls share a flight; the initialiser's call is cancelled while its
resolver runs, and the other runs the resolver anew. -/
theorem single_flight_of_cancelled :
    ∃ s, Lts.run (step {}) (.new {})
        [.start "creator", .start "creator", .readCache 0, .readCache 1, .acquire 0, .acquire 1,
          .enterCell 0, .rereadCache 0, .acquireSlot 0, .cancel 0, .enterCell 1, .rereadCache 1,
          .acquireSlot 1, .dropBody 0, .release 0] = some s
      ∧ s.invocations "creator" = 1 ∧ s.discoveriesOf "creator" ≤ 1
      ∧ s.discoverySlots + s.discoveries = 64 :=
  Lts.exists_run (P := fun s => s.invocations "creator" = 1) (by decide) fun s hs hone =>
    have h := single_flight {} _ s hs
    ⟨hone, (h.1 "creator").2, h.2.2.2.2⟩

/-- The resolver has returned, and its value is put into the cache: the slot is
still held, and no resolver runs. -/
theorem slot_held_while_caching :
    ∃ s, Lts.run (step {}) (.new {})
        [.start "creator", .readCache 0, .acquire 0, .enterCell 0, .rereadCache 0, .acquireSlot 0,
          .resolverCompletes 0 (.ok .notFound)] = some s
      ∧ ¬((∀ uniqueId, s.invocations uniqueId ≤ 1) ∧ s.flights.keys.length ≤ 256
        ∧ s.running ≤ 64 ∧ s.discoverySlots + s.running = 64) :=
  Lts.exists_run (P := fun s => s.discoverySlots + s.running = 63) (by decide)
    fun s _ hcount h => by
      rw [hcount] at h
      exact absurd h.2.2.2 (by decide)

end TiktokSigner.Resolve
