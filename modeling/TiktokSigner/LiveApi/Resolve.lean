import TiktokSigner.LiveApi.RoomCache
import TiktokSigner.Lib.Lts

/-!
# `ConnectService::resolve` as a transition system

Any number of `resolve` calls share the room cache, the map of flights and
the discovery slots. Each call walks through the phases of `resolve`; an
action lets one call take its next atomic step, or lets the environment
act (a clock advance, an invalidation from `connect`, a cancellation of a
call at one of its await points).

Dropping a `FlightLease` takes two steps: the body of `Drop::drop` under
the mutex (`dropBody`), then the drop of the lease's own `Arc`
(`release`). Between them other calls run.

A flight is an `Arc<OnceCell<..>>`, named by its position in `arcs`, so a
later flight of the same key has another name (`Arc::ptr_eq`). The cell
admits one initialiser at a time; a cancelled one returns the permit.

`log` is a ghost: it records the moments at which an answer came into
being. A call remembers how long the log was when it started, and every
answer carries the position it came from. Metrics are left out.
-/

namespace TiktokSigner

/-- The settings `resolve` reads, with their defaults; times in seconds. -/
structure AppConfig where
  maxConcurrentDiscovery : Nat := 64
  maxConcurrentRequests : Nat := 256
  roomCacheTtl : Nat := 30
  offlineCacheTtl : Nat := 15
  notFoundCacheTtl : Nat := 45
  roomCacheCapacity : Nat := 10000

namespace Resolve

/-! ## States -/

/-- A moment at which an answer for `key` came into being. -/
inductive Event where
  /-- `cache.get(key)` returned `value`, reading `cache` at time `now`. -/
  | cacheRead (key : String) (cache : RoomCache) (now : Nat) (value : RoomResolution)
  /-- The resolver's invocation for `key` completed, or its timeout fired. -/
  | resolverDone (key : String) (answer : Answer)
  /-- `max_concurrent_requests` flights, or no discovery slot left. -/
  | capacity (key : String)
deriving DecidableEq

/-- An answer and the position in the log it came from. -/
abbrev Sourced := Answer × Nat

/-- `Arc<OnceCell<Result<RoomResolution, ResolveFailure>>>`. -/
structure Flight where
  key : String
  strong : Nat
  cell : Option Sourced := none
  /-- The cell's initialiser permit is free. -/
  permit : Bool := true
deriving DecidableEq

/-- Where one call of `resolve` stands. -/
inductive Phase where
  /-- In the first `cache.get`. -/
  | reading
  | missed
  /-- Holds a lease; at or waiting in `get_or_init`. -/
  | leased (f : Nat)
  /-- The call's own initialiser runs, in its `cache.get`. -/
  | rereading (f : Nat)
  | remissed (f : Nat)
  /-- The resolver runs under its timeout; a discovery slot is held. -/
  | discovering (f : Nat)
  /-- Before `cache.put` of a value; the slot is still held. -/
  | discovered (f : Nat) (answer : Sourced)
  /-- The initialiser has returned, the cell is not yet set. -/
  | settling (f : Nat) (answer : Sourced)
  /-- About to drop the lease; without an answer when cancelled. -/
  | leaving (f : Nat) (answer : Option Sourced)
  /-- The body of `Drop::drop` has run, the lease's `Arc` is not yet dropped. -/
  | releasing (f : Nat) (answer : Option Sourced)
  | finished (result : Except ApiError RoomResolution) (source : Nat)
  | cancelled
deriving DecidableEq

/-- The flight whose lease a call holds. -/
def Phase.lease : Phase → Option Nat
  | .leased f | .rereading f | .remissed f | .discovering f | .discovered f _
  | .settling f _ | .leaving f _ | .releasing f _ => some f
  | .reading | .missed | .finished .. | .cancelled => none

/-- The body of `Drop::drop` has run. -/
def Phase.pastBody : Phase → Bool
  | .releasing .. => true
  | _ => false

structure Call where
  uniqueId : String
  /-- The length of the log when the call started. -/
  start : Nat
  phase : Phase
deriving DecidableEq

structure State where
  now : Nat
  cache : RoomCache
  flights : AList fun _ : String => Nat
  arcs : List Flight
  discoverySlots : Nat
  calls : List Call
  log : List Event

def State.new (config : AppConfig) : State where
  now := 0
  cache := .new config.roomCacheTtl config.offlineCacheTtl config.notFoundCacheTtl
    config.roomCacheCapacity
  flights := ∅
  arcs := []
  discoverySlots := config.maxConcurrentDiscovery
  calls := []
  log := []

/-- Call `c` moves on. -/
def State.move (s : State) (c : Nat) (phase : Phase) : State :=
  { s with calls := s.calls.modify c fun call => { call with phase } }

def State.modifyArc (s : State) (f : Nat) (g : Flight → Flight) : State :=
  { s with arcs := s.arcs.modify f g }

def State.record (s : State) (event : Event) : State :=
  { s with log := s.log ++ [event] }

/-! ## Steps -/

inductive Action where
  | start (uniqueId : String)
  | readCache (c : Nat)
  | acquire (c : Nat)
  | enterCell (c : Nat)
  | rereadCache (c : Nat)
  | acquireSlot (c : Nat)
  | resolverCompletes (c : Nat) (answer : Answer)
  | finishDiscovery (c : Nat) (next : Option String)
  | setCell (c : Nat)
  | dropBody (c : Nat)
  | release (c : Nat)
  | cancel (c : Nat)
  | advance (elapsed : Nat)
  | invalidate (uniqueId : String)

namespace Flight

def clone (flight : Flight) : Flight := { flight with strong := flight.strong + 1 }

/-- Dropping one `Arc`. -/
def dropArc (flight : Flight) : Flight := { flight with strong := flight.strong - 1 }

def takePermit (flight : Flight) : Flight := { flight with permit := false }

def returnPermit (flight : Flight) : Flight := { flight with permit := true }

def set (answer : Sourced) (flight : Flight) : Flight := { flight with cell := some answer }

end Flight

/-- Under the `flights` mutex: join the key's flight or open one, unless
the map is full. -/
def acquire (config : AppConfig) (s : State) (c : Nat) (uniqueId : String) : State :=
  match s.flights.lookup uniqueId with
  | some f => (s.modifyArc f Flight.clone).move c (.leased f)
  | none =>
      if config.maxConcurrentRequests ≤ s.flights.keys.length then
        (s.record (.capacity uniqueId)).move c
          (.finished (.error (.fromResolveFailure .capacity)) s.log.length)
      else
        -- one `Arc` for the map, its clone for the lease
        ({ s with
          flights := s.flights.insert uniqueId s.arcs.length
          arcs := s.arcs ++ [{ key := uniqueId, strong := 2 }] } : State).move c
          (.leased s.arcs.length)

/-- The body of `FlightLease::drop`. -/
def dropBody (s : State) (key : String) (f : Nat) (flight : Flight) : State :=
  if s.flights.lookup key = some f ∧ flight.strong = 2 then
    ({ s with flights := s.flights.erase key } : State).modifyArc f Flight.dropArc
  else s

/-- A cancelled call drops its initialiser (with the slot and the permit
that one holds) and then its lease. Only await points can be cancelled. -/
def cancel (s : State) (c : Nat) : Phase → Option State
  | .reading => some (s.move c .cancelled)
  | .leased f => some (s.move c (.leaving f none))
  | .rereading f => some ((s.modifyArc f Flight.returnPermit).move c (.leaving f none))
  | .discovering f | .discovered f (.ok _, _) =>
      some ((({ s with discoverySlots := s.discoverySlots + 1 } : State).modifyArc f
        Flight.returnPermit).move c (.leaving f none))
  | _ => none

def step (config : AppConfig) (s : State) : Action → Option State
  | .start uniqueId =>
      some { s with calls := s.calls ++ [⟨uniqueId, s.log.length, .reading⟩] }
  | .readCache c =>
      match s.calls[c]? with
      | some ⟨uniqueId, _, .reading⟩ =>
          match s.cache.get s.now uniqueId with
          | (some value, cache) =>
              some ((({ s with cache } : State).record (.cacheRead uniqueId s.cache s.now value)).move c
                (.finished (valueToResult value) s.log.length))
          | (none, cache) => some (({ s with cache } : State).move c .missed)
      | _ => none
  | .acquire c =>
      match s.calls[c]? with
      | some ⟨uniqueId, _, .missed⟩ => some (acquire config s c uniqueId)
      | _ => none
  | .enterCell c =>
      match s.calls[c]? with
      | some ⟨_, _, .leased f⟩ =>
          match s.arcs[f]? with
          | some ⟨_, _, some answer, _⟩ => some (s.move c (.leaving f (some answer)))
          | some ⟨_, _, none, true⟩ =>
              some ((s.modifyArc f Flight.takePermit).move c (.rereading f))
          | _ => none
      | _ => none
  | .rereadCache c =>
      match s.calls[c]? with
      | some ⟨uniqueId, _, .rereading f⟩ =>
          -- another flight may have filled the cache after the initial miss
          match s.cache.get s.now uniqueId with
          | (some value, cache) =>
              some ((({ s with cache } : State).record (.cacheRead uniqueId s.cache s.now value)).move c
                (.settling f (.ok value, s.log.length)))
          | (none, cache) => some (({ s with cache } : State).move c (.remissed f))
      | _ => none
  | .acquireSlot c =>
      match s.calls[c]? with
      | some ⟨uniqueId, _, .remissed f⟩ =>
          if s.discoverySlots = 0 then
            some ((s.record (.capacity uniqueId)).move c
              (.settling f (.error .capacity, s.log.length)))
          else
            some (({ s with discoverySlots := s.discoverySlots - 1 } : State).move c (.discovering f))
      | _ => none
  | .resolverCompletes c answer =>
      match s.calls[c]? with
      | some ⟨uniqueId, _, .discovering f⟩ =>
          some ((s.record (.resolverDone uniqueId answer)).move c
            (.discovered f (answer, s.log.length)))
      | _ => none
  | .finishDiscovery c next =>
      match s.calls[c]? with
      | some ⟨uniqueId, _, .discovered f (.ok value, source)⟩ =>
          if RoomCache.IsNextKey (RoomCache.pruneExpired s.now s.cache.entries) next then
            some (({ s with
              cache := s.cache.put s.now uniqueId value next
              discoverySlots := s.discoverySlots + 1 } : State).move c
              (.settling f (.ok value, source)))
          else none
      | some ⟨_, _, .discovered f (.error error, source)⟩ =>
          some (({ s with discoverySlots := s.discoverySlots + 1 } : State).move c
            (.settling f (.error error, source)))
      | _ => none
  | .setCell c =>
      match s.calls[c]? with
      | some ⟨_, _, .settling f answer⟩ =>
          some ((s.modifyArc f (Flight.set answer)).move c (.leaving f (some answer)))
      | _ => none
  | .dropBody c =>
      match s.calls[c]? with
      | some ⟨uniqueId, _, .leaving f answer⟩ =>
          match s.arcs[f]? with
          | some flight => some ((dropBody s uniqueId f flight).move c (.releasing f answer))
          | none => none
      | _ => none
  | .release c =>
      match s.calls[c]? with
      | some ⟨_, _, .releasing f answer⟩ =>
          some ((s.modifyArc f Flight.dropArc).move c
            (match answer with
            | some (answer, source) => .finished (answerToResult answer) source
            | none => .cancelled))
      | _ => none
  | .cancel c =>
      match s.calls[c]? with
      | some call => cancel s c call.phase
      | none => none
  | .advance elapsed => some { s with now := s.now + elapsed }
  | .invalidate uniqueId => some { s with cache := s.cache.invalidate uniqueId }

/-! ## What one step does

`Effect` lists, for each action, the state it needs and the state it
leaves; every property of runs is proved from it. -/

inductive Effect (config : AppConfig) (s : State) : Action → State → Prop
  | start (uniqueId : String) :
      Effect config s (.start uniqueId)
        { s with calls := s.calls ++ [⟨uniqueId, s.log.length, .reading⟩] }
  | readHit {c t : Nat} {uniqueId : String} {value : RoomResolution} {cache : RoomCache}
      (hcall : s.calls[c]? = some ⟨uniqueId, t, .reading⟩)
      (hget : s.cache.get s.now uniqueId = (some value, cache)) :
      Effect config s (.readCache c)
        ((({ s with cache } : State).record (.cacheRead uniqueId s.cache s.now value)).move c
          (.finished (answerToResult (.ok value)) s.log.length))
  | readMiss {c t : Nat} {uniqueId : String} {cache : RoomCache}
      (hcall : s.calls[c]? = some ⟨uniqueId, t, .reading⟩) :
      Effect config s (.readCache c) (({ s with cache } : State).move c .missed)
  | join {c t f : Nat} {uniqueId : String}
      (hcall : s.calls[c]? = some ⟨uniqueId, t, .missed⟩)
      (hentry : s.flights.lookup uniqueId = some f) :
      Effect config s (.acquire c) ((s.modifyArc f Flight.clone).move c (.leased f))
  | refuse {c t : Nat} {uniqueId : String}
      (hcall : s.calls[c]? = some ⟨uniqueId, t, .missed⟩) :
      Effect config s (.acquire c) ((s.record (.capacity uniqueId)).move c
        (.finished (answerToResult (.error .capacity)) s.log.length))
  | create {c t : Nat} {uniqueId : String}
      (hcall : s.calls[c]? = some ⟨uniqueId, t, .missed⟩)
      (hentry : s.flights.lookup uniqueId = none) :
      Effect config s (.acquire c) (({ s with
        flights := s.flights.insert uniqueId s.arcs.length
        arcs := s.arcs ++ [{ key := uniqueId, strong := 2 }] } : State).move c
        (.leased s.arcs.length))
  | joinAnswer {c t f : Nat} {uniqueId key : String} {strong : Nat} {permit : Bool}
      {answer : Sourced} (hcall : s.calls[c]? = some ⟨uniqueId, t, .leased f⟩)
      (harc : s.arcs[f]? = some ⟨key, strong, some answer, permit⟩) :
      Effect config s (.enterCell c) (s.move c (.leaving f (some answer)))
  | initiate {c t f : Nat} {uniqueId : String}
      (hcall : s.calls[c]? = some ⟨uniqueId, t, .leased f⟩) :
      Effect config s (.enterCell c) ((s.modifyArc f Flight.takePermit).move c (.rereading f))
  | rereadHit {c t f : Nat} {uniqueId : String} {value : RoomResolution} {cache : RoomCache}
      (hcall : s.calls[c]? = some ⟨uniqueId, t, .rereading f⟩)
      (hget : s.cache.get s.now uniqueId = (some value, cache)) :
      Effect config s (.rereadCache c)
        ((({ s with cache } : State).record (.cacheRead uniqueId s.cache s.now value)).move c
          (.settling f (.ok value, s.log.length)))
  | rereadMiss {c t f : Nat} {uniqueId : String} {cache : RoomCache}
      (hcall : s.calls[c]? = some ⟨uniqueId, t, .rereading f⟩) :
      Effect config s (.rereadCache c) (({ s with cache } : State).move c (.remissed f))
  | slotRefused {c t f : Nat} {uniqueId : String}
      (hcall : s.calls[c]? = some ⟨uniqueId, t, .remissed f⟩) :
      Effect config s (.acquireSlot c) ((s.record (.capacity uniqueId)).move c
        (.settling f (.error .capacity, s.log.length)))
  | slotTaken {c t f : Nat} {uniqueId : String}
      (hcall : s.calls[c]? = some ⟨uniqueId, t, .remissed f⟩) (hslots : s.discoverySlots ≠ 0) :
      Effect config s (.acquireSlot c)
        (({ s with discoverySlots := s.discoverySlots - 1 } : State).move c (.discovering f))
  | resolverDone {c t f : Nat} {uniqueId : String} (answer : Answer)
      (hcall : s.calls[c]? = some ⟨uniqueId, t, .discovering f⟩) :
      Effect config s (.resolverCompletes c answer)
        ((s.record (.resolverDone uniqueId answer)).move c
          (.discovered f (answer, s.log.length)))
  | discoveryDone {c t f : Nat} {uniqueId : String} {answer : Sourced} {cache : RoomCache}
      (next : Option String)
      (hcall : s.calls[c]? = some ⟨uniqueId, t, .discovered f answer⟩) :
      Effect config s (.finishDiscovery c next)
        (({ s with cache, discoverySlots := s.discoverySlots + 1 } : State).move c
          (.settling f answer))
  | cellSet {c t f : Nat} {uniqueId : String} {answer : Sourced}
      (hcall : s.calls[c]? = some ⟨uniqueId, t, .settling f answer⟩) :
      Effect config s (.setCell c)
        ((s.modifyArc f (Flight.set answer)).move c (.leaving f (some answer)))
  | bodyDropped {c t f : Nat} {uniqueId : String} {answer : Option Sourced} {flight : Flight}
      (hcall : s.calls[c]? = some ⟨uniqueId, t, .leaving f answer⟩)
      (harc : s.arcs[f]? = some flight) :
      Effect config s (.dropBody c) ((dropBody s uniqueId f flight).move c (.releasing f answer))
  | returned {c t f source : Nat} {uniqueId : String} {answer : Answer}
      (hcall : s.calls[c]? = some ⟨uniqueId, t, .releasing f (some (answer, source))⟩) :
      Effect config s (.release c) ((s.modifyArc f Flight.dropArc).move c
        (.finished (answerToResult answer) source))
  | dropped {c t f : Nat} {uniqueId : String}
      (hcall : s.calls[c]? = some ⟨uniqueId, t, .releasing f none⟩) :
      Effect config s (.release c) ((s.modifyArc f Flight.dropArc).move c .cancelled)
  | cancelReading {c t : Nat} {uniqueId : String}
      (hcall : s.calls[c]? = some ⟨uniqueId, t, .reading⟩) :
      Effect config s (.cancel c) (s.move c .cancelled)
  | cancelWaiting {c t f : Nat} {uniqueId : String}
      (hcall : s.calls[c]? = some ⟨uniqueId, t, .leased f⟩) :
      Effect config s (.cancel c) (s.move c (.leaving f none))
  | cancelInitializer {c t f slots : Nat} {uniqueId : String} {phase : Phase}
      (hcall : s.calls[c]? = some ⟨uniqueId, t, phase⟩)
      (hphase : phase = .rereading f ∨ phase = .discovering f
        ∨ ∃ answer, phase = .discovered f answer) :
      Effect config s (.cancel c)
        ((({ s with discoverySlots := slots } : State).modifyArc f Flight.returnPermit).move c
          (.leaving f none))
  | advance (elapsed : Nat) : Effect config s (.advance elapsed) { s with now := s.now + elapsed }
  | invalidate (uniqueId : String) :
      Effect config s (.invalidate uniqueId) { s with cache := s.cache.invalidate uniqueId }

theorem acquire_effect {config : AppConfig} {s : State} {c t : Nat} {uniqueId : String}
    (hcall : s.calls[c]? = some ⟨uniqueId, t, .missed⟩) :
    Effect config s (.acquire c) (acquire config s c uniqueId) := by
  rw [acquire]
  split
  · rename_i f hentry
    exact .join hcall hentry
  · rename_i hentry
    split
    · exact .refuse hcall
    · exact .create hcall hentry

theorem cancel_effect {config : AppConfig} {s s' : State} {c : Nat} {call : Call}
    (hcall : s.calls[c]? = some call) (h : cancel s c call.phase = some s') :
    Effect config s (.cancel c) s' := by
  obtain ⟨uniqueId, t, phase⟩ := call
  cases phase <;> simp only [cancel, Option.some.injEq, reduceCtorEq] at h
  case reading =>
    subst h
    exact .cancelReading hcall
  case leased f =>
    subst h
    exact .cancelWaiting hcall
  case rereading f =>
    subst h
    exact .cancelInitializer hcall (.inl rfl)
  case discovering f =>
    subst h
    exact .cancelInitializer hcall (.inr (.inl rfl))
  case discovered f answer =>
    obtain ⟨answer, source⟩ := answer
    cases answer with
    | error error => cases h
    | ok value =>
        obtain rfl := Option.some.inj h
        exact .cancelInitializer hcall (.inr (.inr ⟨_, rfl⟩))

theorem step_effect {config : AppConfig} {s s' : State} {a : Action}
    (h : step config s a = some s') : Effect config s a s' := by
  cases a <;> simp only [step] at h
  case start uniqueId =>
    obtain rfl := Option.some.inj h
    exact .start uniqueId
  case readCache c =>
    split at h <;> try cases h
    rename_i hcall
    split at h <;> obtain rfl := Option.some.inj h
    · rename_i hget
      exact .readHit hcall hget
    · exact .readMiss hcall
  case acquire c =>
    split at h <;> try cases h
    rename_i hcall
    exact acquire_effect hcall
  case enterCell c =>
    split at h <;> try cases h
    rename_i hcall
    split at h <;> try cases h
    · rename_i harc
      exact .joinAnswer hcall harc
    · exact .initiate hcall
  case rereadCache c =>
    split at h <;> try cases h
    rename_i hcall
    split at h <;> obtain rfl := Option.some.inj h
    · rename_i hget
      exact .rereadHit hcall hget
    · exact .rereadMiss hcall
  case acquireSlot c =>
    split at h <;> try cases h
    rename_i hcall
    split at h <;> obtain rfl := Option.some.inj h
    · exact .slotRefused hcall
    · rename_i hslots
      exact .slotTaken hcall hslots
  case resolverCompletes c answer =>
    split at h <;> try cases h
    rename_i hcall
    exact .resolverDone answer hcall
  case finishDiscovery c next =>
    split at h <;> try cases h
    · rename_i hcall
      split at h <;> try cases h
      exact .discoveryDone next hcall
    · rename_i hcall
      exact .discoveryDone next hcall
  case setCell c =>
    split at h <;> try cases h
    rename_i hcall
    exact .cellSet hcall
  case dropBody c =>
    split at h <;> try cases h
    rename_i hcall
    split at h <;> try cases h
    rename_i harc
    exact .bodyDropped hcall harc
  case release c =>
    split at h <;> try cases h
    rename_i answer hcall
    cases answer with
    | none => exact .dropped hcall
    | some answer => exact .returned hcall
  case cancel c =>
    split at h <;> try cases h
    rename_i hcall
    exact cancel_effect hcall h
  case advance elapsed =>
    obtain rfl := Option.some.inj h
    exact .advance elapsed
  case invalidate uniqueId =>
    obtain rfl := Option.some.inj h
    exact .invalidate uniqueId

end Resolve

end TiktokSigner
