import TiktokSigner.LiveApi.Flights

/-!
# How old an answer of `resolve` can be

Every answer a call returns carries the position in the log it came from.
An answer is fresh for a call when that position is not before the call's
start. Answers from the call's own cache reads and initialiser are fresh
by construction; the one other source is a flight the call joined.

`decided` lists the positions at which a flight's answer was fixed,
whether its cell is already set or its initialiser is still on the way.
When no call joins a flight decided before the call began
(`JoinsNoOldAnswer`), every answer is fresh.
-/

namespace TiktokSigner.Resolve

open LeaseTable

/-! ## Where answers come from -/

/-- The event brings `answer` for `key` into being; a cache read only from
an entry that has not expired. -/
def Event.Gives (key : String) (answer : Answer) : Event → Prop
  | .cacheRead k cache now value =>
      k = key ∧ answer = .ok value
        ∧ ∃ entry, cache.entries.lookup key = some entry ∧ now < entry.expiresAt
          ∧ entry.value = value
  | .resolverDone k a => k = key ∧ answer = a
  | .capacity k => k = key ∧ answer = .error .capacity

def Recorded (log : List Event) (key : String) (answer : Sourced) : Prop :=
  ∃ event, log[answer.2]? = some event ∧ event.Gives key answer.1

/-- The flight a phase is about to settle, and where its answer came from. -/
def Phase.fixing : Phase → Option (Nat × Nat)
  | .discovered f answer | .settling f answer => some (f, answer.2)
  | _ => none

/-- Where the answer of flight `f` was fixed, if it was. -/
def decided (s : State) (f : Nat) : List Nat :=
  ((s.arcs[f]?.bind Flight.cell).map Prod.snd).toList
    ++ s.calls.filterMap fun call =>
      call.phase.fixing.bind fun p => if p.1 = f then some p.2 else none

/-- The call does not join a flight decided before it began. -/
def JoinsNoOldAnswer (s : State) : Action → Prop
  | .acquire c =>
      ∀ call ∈ s.calls[c]?, ∀ f ∈ s.flights.lookup call.uniqueId,
        ∀ source ∈ decided s f, call.start ≤ source
  | _ => True

instance (s : State) (a : Action) : Decidable (JoinsNoOldAnswer s a) :=
  match a with
  | .acquire c =>
      inferInstanceAs (Decidable (∀ call ∈ s.calls[c]?, ∀ f ∈ s.flights.lookup call.uniqueId,
        ∀ source ∈ decided s f, call.start ≤ source))
  | .start _ | .readCache _ | .enterCell _ | .rereadCache _ | .acquireSlot _
  | .resolverCompletes _ _ | .finishDiscovery _ _ | .setCell _ | .dropBody _ | .release _
  | .cancel _ | .advance _ | .invalidate _ => .isTrue trivial

theorem mem_decided {s : State} {f i : Nat} :
    i ∈ decided s f ↔
      (∃ flight answer, s.arcs[f]? = some flight ∧ flight.cell = some answer ∧ answer.2 = i)
      ∨ ∃ call ∈ s.calls, call.phase.fixing = some (f, i) := by
  rw [decided, List.mem_append]
  refine or_congr ?_ ?_
  · simp [Option.bind_eq_some_iff]
  · rw [List.mem_filterMap]
    refine exists_congr fun call => and_congr_right fun _ => ?_
    rw [Option.bind_eq_some_iff]
    constructor
    · rintro ⟨⟨g, j⟩, hfix, hj⟩
      by_cases hg : g = f
      · rw [if_pos hg] at hj
        rw [hfix, hg, show j = i from Option.some.inj hj]
      · rw [if_neg hg] at hj
        cases hj
    · intro hfix
      exact ⟨_, hfix, if_pos rfl⟩

theorem Recorded.mono {log log' : List Event} {key : String} {answer : Sourced}
    (h : Recorded log key answer) (hlog : log <+: log') : Recorded log' key answer := by
  obtain ⟨event, hevent, hgives⟩ := h
  obtain ⟨rest, rfl⟩ := hlog
  have hlt := (List.getElem?_eq_some_iff.mp hevent).1
  exact ⟨event, by rw [List.getElem?_append_left hlt, hevent], hgives⟩

/-- An event gives its own answer at the end of the log. -/
theorem recorded_append {log : List Event} {event : Event} {key : String} {answer : Answer}
    (h : event.Gives key answer) : Recorded (log ++ [event]) key (answer, log.length) :=
  ⟨event, by simp, h⟩

theorem gives_cacheRead {s : State} {uniqueId : String} {value : RoomResolution}
    {cache : RoomCache} (hget : s.cache.get s.now uniqueId = (some value, cache)) :
    (Event.cacheRead uniqueId s.cache s.now value).Gives uniqueId (.ok value) :=
  ⟨rfl, rfl, RoomCache.get_eq_some (by rw [hget])⟩

/-! ## The invariant -/

/-- What a call has in hand is recorded for its key, and what it leaves
with is not older than the call. -/
def Call.Fresh (log : List Event) (call : Call) : Prop :=
  call.start ≤ log.length ∧
    match call.phase with
    | .discovered _ answer | .settling _ answer => Recorded log call.uniqueId answer
    | .leaving _ (some answer) | .releasing _ (some answer) =>
        Recorded log call.uniqueId answer ∧ call.start ≤ answer.2
    | .finished result source =>
        call.start ≤ source
          ∧ ∃ answer, Recorded log call.uniqueId (answer, source) ∧ result = answerToResult answer
    | _ => True

structure Fresh (s : State) : Prop where
  call : ∀ call ∈ s.calls, call.Fresh s.log
  cell : ∀ (f : Nat) (flight : Flight) (answer : Sourced), s.arcs[f]? = some flight →
    flight.cell = some answer → Recorded s.log flight.key answer
  /-- Nobody holds a flight decided before they began. -/
  joined : ∀ call ∈ s.calls, ∀ f, call.phase.lease = some f → ∀ i ∈ decided s f, call.start ≤ i

theorem Call.Fresh.mono {log log' : List Event} {call : Call} (h : call.Fresh log)
    (hlog : log <+: log') : call.Fresh log' := by
  obtain ⟨uniqueId, t, phase⟩ := call
  refine ⟨Nat.le_trans h.1 hlog.length_le, ?_⟩
  have h2 := h.2
  cases phase with
  | discovered f answer => exact h2.mono hlog
  | settling f answer => exact h2.mono hlog
  | leaving f answer =>
      cases answer with
      | none => trivial
      | some answer => exact ⟨h2.1.mono hlog, h2.2⟩
  | releasing f answer =>
      cases answer with
      | none => trivial
      | some answer => exact ⟨h2.1.mono hlog, h2.2⟩
  | finished result source =>
      obtain ⟨hstart, answer, hrec, hres⟩ := h2
      exact ⟨hstart, answer, hrec.mono hlog, hres⟩
  | _ => trivial

theorem mem_move {s : State} {c t : Nat} {uniqueId : String} {phase new : Phase} {call : Call}
    (hcall : s.calls[c]? = some ⟨uniqueId, t, phase⟩) (hmem : call ∈ (s.move c new).calls) :
    call ∈ s.calls ∨ call = ⟨uniqueId, t, new⟩ := by
  rw [calls_move hcall] at hmem
  exact List.mem_or_eq_of_mem_set hmem

/-- The rule for a step in which one call moves on. `s₁` is the state with
the step's other effects: it may have a longer log and changed flights,
but no flight gains an answer that was not decided before. -/
theorem Fresh.move {s s₁ : State} {c t : Nat} {uniqueId : String} {phase new : Phase}
    (h : Fresh s) (hcall : s₁.calls[c]? = some ⟨uniqueId, t, phase⟩)
    (hcalls : s₁.calls = s.calls) (hlog : s.log <+: s₁.log)
    (hcell : ∀ (f : Nat) (flight : Flight) (answer : Sourced), s₁.arcs[f]? = some flight →
      flight.cell = some answer → Recorded s₁.log flight.key answer ∧ answer.2 ∈ decided s f)
    (hnew : (Call.mk uniqueId t new).Fresh s₁.log)
    (hfix : ∀ f i, new.fixing = some (f, i) → i ∈ decided s f ∨ s.log.length ≤ i)
    (hlease : ∀ f, new.lease = some f → phase.lease = some f ∨ ∀ i ∈ decided s f, t ≤ i) :
    Fresh (s₁.move c new) where
  call := fun call hmem => by
    rcases mem_move hcall hmem with hmem | rfl
    · exact (h.call call (hcalls ▸ hmem)).mono hlog
    · exact hnew
  cell := fun f flight answer harc hset => (hcell f flight answer harc hset).1
  joined := fun call hmem f hheld i hi => by
    -- what is decided now was decided before, or is newer than every call
    have hdecided : i ∈ decided s f ∨ s.log.length ≤ i := by
      rcases mem_decided.mp hi with ⟨flight, answer, harc, hset, rfl⟩ | ⟨other, hother, hfixing⟩
      · exact .inl (hcell f flight answer harc hset).2
      · rcases mem_move hcall hother with hother | rfl
        · exact .inl (mem_decided.mpr (.inr ⟨other, hcalls ▸ hother, hfixing⟩))
        · exact hfix f i hfixing
    have hold : Call.mk uniqueId t phase ∈ s.calls :=
      hcalls ▸ List.mem_of_getElem? hcall
    have hstart : ∀ call ∈ s.calls, s.log.length ≤ i → call.start ≤ i := fun call hmem hle =>
      Nat.le_trans (h.call call hmem).1 hle
    rcases mem_move hcall hmem with hmem | rfl
    · rcases hdecided with hdec | hle
      · exact h.joined call (hcalls ▸ hmem) f hheld i hdec
      · exact hstart call (hcalls ▸ hmem) hle
    · rcases hdecided with hdec | hle
      · rcases hlease f hheld with hheld | hall
        · exact h.joined _ hold f hheld i hdec
        · exact hall i hdec
      · exact hstart ⟨uniqueId, t, phase⟩ hold hle

/-! ## Obligations of the rule -/

section Obligations

variable {s : State} {c t f : Nat} {uniqueId : String} {phase : Phase}

theorem Fresh.start_le (h : Fresh s) (hcall : s.calls[c]? = some ⟨uniqueId, t, phase⟩) :
    t ≤ s.log.length :=
  (h.call _ (List.mem_of_getElem? hcall)).1

/-- Steps that leave the flights alone. -/
theorem Fresh.cell_same (h : Fresh s) {log : List Event} (hlog : s.log <+: log) (f : Nat)
    (flight : Flight) (answer : Sourced) (harc : s.arcs[f]? = some flight)
    (hset : flight.cell = some answer) :
    Recorded log flight.key answer ∧ answer.2 ∈ decided s f :=
  ⟨(h.cell f flight answer harc hset).mono hlog,
    mem_decided.mpr (.inl ⟨flight, answer, harc, hset, rfl⟩)⟩

/-- Steps that change a flight but neither its key nor its cell. -/
theorem Fresh.cell_modify (h : Fresh s) (g : Flight → Flight)
    (hg : ∀ flight, (g flight).key = flight.key ∧ (g flight).cell = flight.cell) (f₀ f : Nat)
    (flight : Flight) (answer : Sourced) (harc : (s.arcs.modify f₀ g)[f]? = some flight)
    (hset : flight.cell = some answer) :
    Recorded s.log flight.key answer ∧ answer.2 ∈ decided s f := by
  rw [List.getElem?_modify] at harc
  cases hold : s.arcs[f]? with
  | none => simp [hold] at harc
  | some old =>
      have hsame : flight.key = old.key ∧ flight.cell = old.cell := by
        rw [hold] at harc
        obtain rfl := Option.some.inj harc
        by_cases hf : f₀ = f
        · simpa [hf] using hg old
        · simp [hf]
      rw [hsame.1]
      exact h.cell_same (List.prefix_refl _) f old answer hold (hsame.2 ▸ hset)

/-- A call's own flight has its key. -/
theorem key_of_lease (hcounted : Counted s.view)
    (hcall : s.calls[c]? = some ⟨uniqueId, t, phase⟩) (hlease : phase.lease = some f) :
    ∃ flight, s.arcs[f]? = some flight ∧ flight.key = uniqueId := by
  obtain ⟨n, hn⟩ := hcounted.client _ (List.mem_of_getElem? (client_view hcall)) f
    (by rw [Phase.hold_lease, hlease])
  rw [State.view, List.getElem?_map, Option.map_eq_some_iff] at hn
  obtain ⟨flight, harc, hkey⟩ := hn
  exact ⟨flight, harc, (Prod.mk.inj hkey).1⟩

theorem Fresh.in_hand (h : Fresh s) (hcall : s.calls[c]? = some ⟨uniqueId, t, phase⟩) :
    (Call.mk uniqueId t phase).Fresh s.log :=
  h.call _ (List.mem_of_getElem? hcall)

/-- A cell just set: its answer was decided by the call that set it. -/
theorem Fresh.cell_set (h : Fresh s) (hcounted : Counted s.view) {answer : Sourced}
    (hcall : s.calls[c]? = some ⟨uniqueId, t, .settling f answer⟩) (g : Nat)
    (flight : Flight) (a : Sourced)
    (harc : (s.arcs.modify f (Flight.set answer))[g]? = some flight)
    (hset : flight.cell = some a) : Recorded s.log flight.key a ∧ a.2 ∈ decided s g := by
  obtain ⟨old, hold, hkey⟩ := key_of_lease hcounted hcall rfl
  rw [List.getElem?_modify] at harc
  by_cases hg : f = g
  · subst hg
    rw [hold] at harc
    obtain rfl : Flight.set answer old = flight := by simpa using harc
    obtain rfl := Option.some.inj hset
    refine ⟨?_, mem_decided.mpr (.inr ⟨_, List.mem_of_getElem? hcall, rfl⟩)⟩
    rw [show (Flight.set answer old).key = uniqueId from hkey]
    exact (h.in_hand hcall).2
  · simp only [hg, if_false, Option.map_eq_map, Option.map_id'] at harc
    exact h.cell_same (List.prefix_refl _) g flight a harc hset

/-- A flight just opened has no answer. -/
theorem Fresh.cell_create (h : Fresh s) {flight₀ : Flight} (hnone : flight₀.cell = none)
    (f : Nat) (flight : Flight) (answer : Sourced)
    (harc : (s.arcs ++ [flight₀])[f]? = some flight) (hset : flight.cell = some answer) :
    Recorded s.log flight.key answer ∧ answer.2 ∈ decided s f := by
  rcases Nat.lt_or_ge f s.arcs.length with hlt | hge
  · rw [List.getElem?_append_left hlt] at harc
    exact h.cell_same (List.prefix_refl _) f flight answer harc hset
  · rw [List.getElem?_append_right hge] at harc
    obtain rfl := List.mem_singleton.mp (List.mem_of_getElem? harc)
    rw [hnone] at hset
    cases hset

theorem dropBody_calls {flight : Flight} : (dropBody s uniqueId f flight).calls = s.calls := by
  rw [dropBody]
  split <;> rfl

theorem dropBody_log {flight : Flight} : (dropBody s uniqueId f flight).log = s.log := by
  rw [dropBody]
  split <;> rfl

theorem Fresh.cell_dropBody (h : Fresh s) {flight₀ : Flight} (g : Nat) (flight : Flight)
    (answer : Sourced) (harc : (dropBody s uniqueId f flight₀).arcs[g]? = some flight)
    (hset : flight.cell = some answer) :
    Recorded (dropBody s uniqueId f flight₀).log flight.key answer
      ∧ answer.2 ∈ decided s g := by
  rw [dropBody_log]
  rw [dropBody] at harc
  split at harc
  · exact h.cell_modify Flight.dropArc (fun _ => ⟨rfl, rfl⟩) f g flight answer harc hset
  · exact h.cell_same (List.prefix_refl _) g flight answer harc hset

/-- Running the drop body keeps what the call leaves with. -/
theorem Call.Fresh.releasing {log : List Event} {answer : Option Sourced}
    (h : (Call.mk uniqueId t (.leaving f answer)).Fresh log) :
    (Call.mk uniqueId t (.releasing f answer)).Fresh log := by
  cases answer with
  | none => exact ⟨h.1, trivial⟩
  | some answer => exact h

/-- A call that has just started decides nothing. -/
theorem decided_start {i : Nat}
    (hi : i ∈ decided { s with calls := s.calls ++ [⟨uniqueId, t, .reading⟩] } f) :
    i ∈ decided s f := by
  rcases mem_decided.mp hi with hcell | ⟨call, hmem, hfix⟩
  · exact mem_decided.mpr (.inl hcell)
  · rcases List.mem_append.mp hmem with hmem | hmem
    · exact mem_decided.mpr (.inr ⟨call, hmem, hfix⟩)
    · obtain rfl := List.mem_singleton.mp hmem
      cases hfix

/-- Nothing is decided about a flight that does not exist yet. -/
theorem decided_fresh (hcounted : Counted s.view) {i : Nat}
    (hi : i ∈ decided s s.arcs.length) : False := by
  rcases mem_decided.mp hi with ⟨flight, answer, harc, -, -⟩ | ⟨call, hmem, hfix⟩
  · simp at harc
  · obtain ⟨c, hcall⟩ := List.getElem?_of_mem hmem
    obtain ⟨uniqueId, t, phase⟩ := call
    have hlease : phase.lease = some s.arcs.length := by
      cases phase <;> simp [Phase.fixing] at hfix
      case discovered f answer => rw [Phase.lease, hfix.1]
      case settling f answer => rw [Phase.lease, hfix.1]
    obtain ⟨flight, harc, -⟩ := key_of_lease hcounted hcall hlease
    simp at harc

end Obligations

/-! ## Every step -/

theorem Fresh.step {config : AppConfig} {s s' : State} {a : Action} (h : Fresh s)
    (hcounted : Counted s.view) (hjoin : JoinsNoOldAnswer s a)
    (hstep : step config s a = some s') : Fresh s' := by
  have hrefl : s.log <+: s.log := List.prefix_refl _
  have hmore : ∀ event, s.log <+: s.log ++ [event] := fun _ => List.prefix_append _ _
  have hlen : ∀ event, s.log.length ≤ (s.log ++ [event]).length := fun _ => by simp
  cases step_effect hstep with
  | start uniqueId =>
      exact {
        call := fun call hmem => by
          rcases List.mem_append.mp hmem with hmem | hmem
          · exact h.call call hmem
          · obtain rfl := List.mem_singleton.mp hmem
            exact ⟨Nat.le_refl _, trivial⟩
        cell := h.cell
        joined := fun call hmem f hlease i hi => by
          rcases List.mem_append.mp hmem with hmem | hmem
          · exact h.joined call hmem f hlease i (decided_start hi)
          · obtain rfl := List.mem_singleton.mp hmem
            cases hlease }
  | readHit hcall hget =>
      exact h.move hcall rfl (hmore _) (h.cell_same (hmore _))
        ⟨Nat.le_trans (h.start_le hcall) (hlen _), h.start_le hcall, _,
          recorded_append (gives_cacheRead hget), rfl⟩
        (fun _ _ hf => by cases hf) fun _ hf => by cases hf
  | readMiss hcall =>
      exact h.move hcall rfl hrefl (h.cell_same hrefl) ⟨h.start_le hcall, trivial⟩
        (fun _ _ hf => by cases hf) fun _ hf => by cases hf
  | join hcall hentry =>
      refine h.move hcall rfl hrefl (h.cell_modify Flight.clone (fun _ => ⟨rfl, rfl⟩) _)
        ⟨h.start_le hcall, trivial⟩ (fun _ _ hf => by cases hf) fun f hf => .inr fun i hi => ?_
      obtain rfl := Option.some.inj hf
      exact hjoin _ hcall _ hentry i hi
  | refuse hcall =>
      exact h.move hcall rfl (hmore _) (h.cell_same (hmore _))
        ⟨Nat.le_trans (h.start_le hcall) (hlen _), h.start_le hcall, _,
          recorded_append ⟨rfl, rfl⟩, rfl⟩
        (fun _ _ hf => by cases hf) fun _ hf => by cases hf
  | create hcall hentry =>
      refine h.move hcall rfl hrefl (h.cell_create rfl) ⟨h.start_le hcall, trivial⟩
        (fun _ _ hf => by cases hf) fun f hf => .inr fun i hi => ?_
      obtain rfl := Option.some.inj hf
      exact (decided_fresh hcounted hi).elim
  | joinAnswer hcall harc =>
      obtain ⟨flight, harc', hkey⟩ := key_of_lease hcounted hcall rfl
      rw [harc] at harc'
      obtain rfl := Option.some.inj harc'
      have hcell := h.cell _ _ _ harc rfl
      rw [hkey] at hcell
      have hstart := h.joined _ (List.mem_of_getElem? hcall) _ rfl _
        (mem_decided.mpr (.inl ⟨_, _, harc, rfl, rfl⟩))
      exact h.move hcall rfl hrefl (h.cell_same hrefl) ⟨h.start_le hcall, hcell, hstart⟩
        (fun _ _ hf => by cases hf) fun _ hf => .inl hf
  | initiate hcall =>
      exact h.move hcall rfl hrefl (h.cell_modify Flight.takePermit (fun _ => ⟨rfl, rfl⟩) _)
        ⟨h.start_le hcall, trivial⟩ (fun _ _ hf => by cases hf) fun _ hf => .inl hf
  | rereadHit hcall hget =>
      refine h.move hcall rfl (hmore _) (h.cell_same (hmore _))
        ⟨Nat.le_trans (h.start_le hcall) (hlen _), recorded_append (gives_cacheRead hget)⟩
        (fun _ _ hf => ?_) fun _ hf => .inl hf
      exact .inr (Nat.le_of_eq (Prod.mk.inj (Option.some.inj hf)).2)
  | rereadMiss hcall =>
      exact h.move hcall rfl hrefl (h.cell_same hrefl) ⟨h.start_le hcall, trivial⟩
        (fun _ _ hf => by cases hf) fun _ hf => .inl hf
  | slotRefused hcall =>
      refine h.move hcall rfl (hmore _) (h.cell_same (hmore _))
        ⟨Nat.le_trans (h.start_le hcall) (hlen _), recorded_append ⟨rfl, rfl⟩⟩
        (fun _ _ hf => ?_) fun _ hf => .inl hf
      exact .inr (Nat.le_of_eq (Prod.mk.inj (Option.some.inj hf)).2)
  | slotTaken hcall =>
      exact h.move hcall rfl hrefl (h.cell_same hrefl) ⟨h.start_le hcall, trivial⟩
        (fun _ _ hf => by cases hf) fun _ hf => .inl hf
  | resolverDone answer hcall =>
      refine h.move hcall rfl (hmore _) (h.cell_same (hmore _))
        ⟨Nat.le_trans (h.start_le hcall) (hlen _), recorded_append ⟨rfl, rfl⟩⟩
        (fun _ _ hf => ?_) fun _ hf => .inl hf
      exact .inr (Nat.le_of_eq (Prod.mk.inj (Option.some.inj hf)).2)
  | discoveryDone next hcall =>
      refine h.move hcall rfl hrefl (h.cell_same hrefl) ⟨h.start_le hcall, (h.in_hand hcall).2⟩
        (fun _ _ hf => .inl ?_) fun _ hf => .inl hf
      exact mem_decided.mpr (.inr ⟨_, List.mem_of_getElem? hcall, hf⟩)
  | cellSet hcall =>
      have hdec := mem_decided.mpr (.inr ⟨_, List.mem_of_getElem? hcall, rfl⟩)
      exact h.move hcall rfl hrefl (h.cell_set hcounted hcall)
        ⟨h.start_le hcall, (h.in_hand hcall).2,
          h.joined _ (List.mem_of_getElem? hcall) _ rfl _ hdec⟩
        (fun _ _ hf => by cases hf) fun _ hf => .inl hf
  | @bodyDropped c t f uniqueId answer flight hcall harc =>
      have hcall' : (dropBody s uniqueId f flight).calls[c]?
          = some ⟨uniqueId, t, .leaving f answer⟩ := by
        rw [dropBody_calls, hcall]
      refine h.move hcall' dropBody_calls ?_ h.cell_dropBody ?_
        (fun _ _ hf => by cases hf) fun _ hf => .inl hf
      · exact dropBody_log.symm ▸ hrefl
      · rw [dropBody_log]
        exact (h.in_hand hcall).releasing
  | returned hcall =>
      obtain ⟨hstart, hrec, hle⟩ := h.in_hand hcall
      exact h.move hcall rfl hrefl (h.cell_modify Flight.dropArc (fun _ => ⟨rfl, rfl⟩) _)
        ⟨hstart, hle, _, hrec, rfl⟩ (fun _ _ hf => by cases hf) fun _ hf => by cases hf
  | dropped hcall =>
      exact h.move hcall rfl hrefl (h.cell_modify Flight.dropArc (fun _ => ⟨rfl, rfl⟩) _)
        ⟨h.start_le hcall, trivial⟩ (fun _ _ hf => by cases hf) fun _ hf => by cases hf
  | cancelReading hcall =>
      exact h.move hcall rfl hrefl (h.cell_same hrefl) ⟨h.start_le hcall, trivial⟩
        (fun _ _ hf => by cases hf) fun _ hf => by cases hf
  | cancelWaiting hcall =>
      exact h.move hcall rfl hrefl (h.cell_same hrefl) ⟨h.start_le hcall, trivial⟩
        (fun _ _ hf => by cases hf) fun _ hf => .inl hf
  | cancelInitializer hcall hphase =>
      refine h.move hcall rfl hrefl (h.cell_modify Flight.returnPermit (fun _ => ⟨rfl, rfl⟩) _)
        ⟨h.start_le hcall, trivial⟩ (fun _ _ hf => by cases hf) fun _ hf => .inl ?_
      rcases hphase with rfl | rfl | ⟨answer, rfl⟩ <;> exact hf
  | advance elapsed => exact ⟨h.call, h.cell, h.joined⟩
  | invalidate uniqueId => exact ⟨h.call, h.cell, h.joined⟩

theorem fresh_new (config : AppConfig) : Fresh (.new config) where
  call := fun _ h => by cases h
  cell := fun _ _ _ h => by simp [State.new] at h
  joined := fun _ h => by cases h

/-- In every run in which no call joins a flight decided before the call
began, what a call returns came into being after it started: an unexpired
cache entry read, a resolver invocation that completed, or a capacity
refusal, all for its own key. -/
theorem resolve_fresh {config : AppConfig} {actions : List Action} {s : State}
    (hrun : Lts.run (step config) (.new config) actions = some s)
    (hjoin : Lts.AllMeet (step config) JoinsNoOldAnswer (.new config) actions) :
    ∀ call ∈ s.calls, ∀ result source, call.phase = .finished result source →
      ∃ event answer, s.log[source]? = some event ∧ event.Gives call.uniqueId answer
        ∧ result = answerToResult answer ∧ call.start ≤ source := by
  intro call hmem result source hphase
  obtain ⟨-, hfresh⟩ :=
    Lts.run_invariant (fun s a s' (hinv : Counted s.view ∧ Fresh s) hj h =>
      ⟨counted_step hinv.1 h, hinv.2.step hinv.1 hj h⟩)
      ⟨view_new config ▸ Counted.empty, fresh_new config⟩ hjoin hrun
  have hcall := (hfresh.call call hmem).2
  rw [hphase] at hcall
  obtain ⟨hstart, answer, ⟨event, hevent, hgives⟩, hresult⟩ := hcall
  exact ⟨event, answer, hevent, hgives, hresult, hstart⟩

/-- A call that joins a flight in time shares its answer. -/
theorem resolve_fresh_shared :
    ∃ s, Lts.run (step {}) (.new {})
        [.start "creator", .readCache 0, .acquire 0, .enterCell 0, .rereadCache 0,
          .acquireSlot 0, .start "creator", .readCache 1, .acquire 1,
          .resolverCompletes 0 (.error (.refused "blocked")), .finishDiscovery 0 none,
          .setCell 0, .enterCell 1, .dropBody 1, .release 1] = some s
      ∧ ∃ call ∈ s.calls, ∃ event answer,
          call.phase = .finished (.error (.tikTokRefused "blocked")) 0
          ∧ s.log[0]? = some event ∧ event.Gives call.uniqueId answer ∧ call.start ≤ 0 :=
  Lts.exists_run
    (P := fun s => ∃ call ∈ s.calls,
      call.phase = .finished (.error (.tikTokRefused "blocked")) 0)
    (by decide) fun _ hs ⟨call, hmem, hphase⟩ => by
      obtain ⟨event, answer, hevent, hgives, -, hstart⟩ :=
        resolve_fresh hs (by decide) call hmem _ _ hphase
      exact ⟨call, hmem, event, answer, hphase, hevent, hgives, hstart⟩

/-- Two calls share a live answer. The first has returned and its room was
refused, so the cache entry is invalidated; the second is still on its way
out and keeps the flight. A call that starts now misses the cache, joins
the flight and is handed the invalidated room. -/
theorem stale_live_room :
    ∃ s, Lts.run (step {}) (.new {})
        [.start "creator", .start "creator", .readCache 0, .readCache 1, .acquire 0, .acquire 1,
          .enterCell 0, .rereadCache 0, .acquireSlot 0,
          .resolverCompletes 0 (.ok (.live "7" 2 "Creator")), .finishDiscovery 0 none,
          .setCell 0, .dropBody 0, .release 0, .invalidate "creator",
          .start "creator", .readCache 2, .acquire 2, .enterCell 2, .dropBody 2,
          .release 2] = some s
      ∧ ∃ call ∈ s.calls, call.phase = .finished (.ok (.live "7" 2 "Creator")) 0
          ∧ 0 < call.start ∧ s.log.length = call.start :=
  Lts.exists_run (by decide) fun _ _ h => h

end TiktokSigner.Resolve
