import TiktokSigner.Lib.Lts

/-!
# `LivePresenceMonitor`

The registry of watches, one for each unique id. `watch` and the monitor's
`close` run under its lock, `Watch.close` does not: it marks the watch
under the watch's own lock and then takes it out of the registry, and the
rest of the program may run in between. So a step is a statement whose
effect another thread can see.

The scheduler takes what it is given until the monitor shuts it down, and
the timer, the probe's future and the threads that close watches move when
the run says so. Watches are numbered in the order of their creation.
-/

namespace TiktokSigner.LivePresence

/-! ## Unique ids -/

/-- The exceptions of `watch`. -/
inductive WatchError where
  | illegalArgument (message : String)
  | illegalState (message : String)
  | rejectedExecution (message : String)
deriving DecidableEq

/-- What `[A-Za-z0-9._]` matches. -/
def isNameChar (c : Char) : Bool := c.isAlphanum || c = '.' || c = '_'

/-- What `String.trim` takes off. -/
def isTrimmed (c : Char) : Bool := c.toNat ≤ 32

def trim (input : List Char) : List Char :=
  ((input.dropWhile isTrimmed).reverse.dropWhile isTrimmed).reverse

/-- `UniqueId.normalize`. -/
def normalize (input : List Char) : Except WatchError (List Char) :=
  let id := match trim input with
    | '@' :: rest => rest
    | id => id
  if 1 ≤ id.length ∧ id.length ≤ 24 ∧ id.all isNameChar then .ok id
  else .error (.illegalArgument "uniqueId must be a TikTok username")

/-! ## The monitor -/

/-- What a watch waits for. -/
inductive Probing where
  | idle
  /-- `timer` is to run `poll`. -/
  | timer
  /-- `request` is to complete. -/
  | request
deriving DecidableEq

structure Watch where
  id : List Char
  stopped : Bool := false
  probing : Probing := .idle
deriving DecidableEq

/-- Who has the monitor's lock, and where that call is. -/
inductive Lock where
  | free
  /-- `watch`, about to call `computeIfAbsent`. -/
  | watching (id : List Char)
  /-- `close`, about to copy the registry. -/
  | copying
  /-- `close`, with these watches of the copy left. -/
  | closing (todo : List Nat)
  /-- `close`, between the two steps of `Watch.close` on `w`. -/
  | removing (w : Nat) (todo : List Nat)
deriving DecidableEq

/-- The watches of the copy that are not closed yet. -/
def Lock.left : Lock → Option (List Nat)
  | .closing todo | .removing _ todo => some todo
  | .free | .watching _ | .copying => none

/-- `close` is between the two steps of `Watch.close` on `w`. -/
def Lock.removes (w : Nat) : Lock → Prop
  | .removing w' _ => w' = w
  | .free | .watching _ | .copying | .closing _ => False

structure Monitor where
  maxWatches : Nat
  closed : Bool := false
  watches : List (List Char × Nat) := []
  lock : Lock := .free
  made : List Watch := []
  /-- Watches between the two steps of a `Watch.close`. -/
  removing : List Nat := []
  /-- Watches that `watch` has returned, but for those closed since. -/
  handed : List Nat := []
deriving DecidableEq

namespace Monitor

def start (maxWatches : Nat) : Monitor := { maxWatches }

inductive Action where
  | watch (uniqueId : List Char)
  | computeIfAbsent
  /-- The `synchronized` block of `Watch.close`, also by way of `unwatch`. -/
  | stop (w : Nat)
  /-- Its `watches.remove(id, this)`. -/
  | remove (w : Nat)
  | close
  | copy
  | closeNext
  | closeRemove
  | clear
  | poll (w : Nat)
  /-- The future of the probe completes. -/
  | complete (w : Nat)
deriving DecidableEq

/-- `watch` as far as `computeIfAbsent`. -/
def reserve (s : Monitor) (uniqueId : List Char) : Except WatchError (List Char) := do
  if s.closed then throw (.illegalState "Monitor closed")
  let id ← normalize uniqueId
  if s.watches.lookup id = none ∧ s.maxWatches ≤ s.watches.length then
    throw (.rejectedExecution "Presence watch capacity exhausted")
  return id

def setWatch (s : Monitor) (w : Nat) (watch : Watch) : Monitor :=
  { s with made := s.made.set w watch }

/-- `schedule`. -/
def schedule (s : Monitor) (watch : Watch) : Watch :=
  if watch.stopped ∨ s.closed then { watch with probing := .idle }
  else { watch with probing := .timer }

/-- `poll`. -/
def lookup (s : Monitor) (watch : Watch) : Watch :=
  if watch.stopped ∨ s.closed then { watch with probing := .idle }
  else { watch with probing := .request }

/-- The `synchronized` block of `Watch.close`, and whether the call goes on
after it. -/
def stopWatch (s : Monitor) (w : Nat) : Option (Bool × Monitor) :=
  s.made[w]?.map fun watch =>
    let s := { s with handed := s.handed.filter (· ≠ w) }
    if watch.stopped then (false, s)
    else (true, s.setWatch w { watch with stopped := true, probing := .idle })

/-- `watches.remove(id, this)`. -/
def unregister (s : Monitor) (w : Nat) : Monitor :=
  { s with watches := s.watches.filter fun entry =>
      ¬(s.made[w]?.map Watch.id = some entry.1 ∧ entry.2 = w) }

def step (s : Monitor) : Action → Option Monitor
  | .watch uniqueId =>
      if s.lock = .free then
        match s.reserve uniqueId with
        | .ok id => some { s with lock := .watching id }
        | .error _ => some s
      else none
  | .computeIfAbsent =>
      match s.lock with
      | .watching id =>
          match s.watches.lookup id with
          | some w => some { s with lock := .free, handed := s.handed ++ [w] }
          | none =>
              let w := s.made.length
              some { s with
                lock := .free
                made := s.made ++ [s.schedule { id }]
                watches := s.watches ++ [(id, w)]
                handed := s.handed ++ [w] }
      | _ => none
  | .stop w =>
      match s.stopWatch w with
      | some (true, s) => some { s with removing := w :: s.removing }
      | some (false, s) => some s
      | none => none
  | .remove w =>
      if w ∈ s.removing then some { s.unregister w with removing := s.removing.erase w }
      else none
  | .close =>
      if s.lock = .free then some (if s.closed then s else { s with closed := true, lock := .copying })
      else none
  | .copy =>
      if s.lock = .copying then some { s with lock := .closing (s.watches.map Prod.snd) }
      else none
  | .closeNext =>
      match s.lock with
      | .closing (w :: todo) =>
          match s.stopWatch w with
          | some (true, s) => some { s with lock := .removing w todo }
          | some (false, s) => some { s with lock := .closing todo }
          | none => none
      | _ => none
  | .closeRemove =>
      match s.lock with
      | .removing w todo => some { s.unregister w with lock := .closing todo }
      | _ => none
  | .clear =>
      if s.lock = .closing [] then some { s with watches := [], lock := .free }
      else none
  | .poll w =>
      match s.made[w]? with
      | some watch => if watch.probing = .timer then some (s.setWatch w (s.lookup watch)) else none
      | none => none
  | .complete w =>
      match s.made[w]? with
      | some watch =>
          if watch.probing = .request then some (s.setWatch w (s.schedule watch)) else none
      | none => none

/-! ## Watches handed out -/

/-- Watches handed out and not closed since are not stopped. -/
def Unstopped (s : Monitor) : Prop :=
  ∀ w ∈ s.handed, ∃ watch, s.made[w]? = some watch ∧ watch.stopped = false

/-- Watches handed out and not closed since are not stopped, and their timer
runs or their probe is under way. -/
def Probed (s : Monitor) : Prop :=
  ∀ w ∈ s.handed, ∃ watch, s.made[w]? = some watch ∧ watch.stopped = false ∧ watch.probing ≠ .idle

/-- The watch that `computeIfAbsent` finds. -/
def found (s : Monitor) : Option Nat :=
  match s.lock with
  | .watching id => s.watches.lookup id
  | _ => none

/-- `computeIfAbsent` does not run while a call of `Watch.close` on the
watch registered under its id is between its two steps. -/
def NotMidClose (s : Monitor) : Action → Prop
  | .computeIfAbsent => ∀ w ∈ s.found, w ∉ s.removing
  | _ => True

/-- The timer or the probe of a watch does not come in after `close` has
set `closed` and before it has closed that watch. -/
def NotCutShort (s : Monitor) : Action → Prop
  | .poll w | .complete w =>
      s.closed = true → ∀ watch ∈ s.made[w]?, watch.stopped = true
  | _ => True

instance (s : Monitor) : ∀ a, Decidable (s.NotMidClose a)
  | .computeIfAbsent => inferInstanceAs (Decidable (∀ w ∈ s.found, _))
  | .watch _ | .stop _ | .remove _ | .close | .copy | .closeNext | .closeRemove | .clear
  | .poll _ | .complete _ => isTrue trivial

instance (s : Monitor) : ∀ a, Decidable (s.NotCutShort a)
  | .poll w | .complete w =>
      inferInstanceAs (Decidable (s.closed = true → ∀ watch ∈ s.made[w]?, watch.stopped = true))
  | .watch _ | .computeIfAbsent | .stop _ | .remove _ | .close | .copy | .closeNext
  | .closeRemove | .clear => isTrue trivial

end Monitor

end TiktokSigner.LivePresence
