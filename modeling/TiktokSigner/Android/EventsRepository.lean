import TiktokSigner.Lib.Lts
import TiktokSigner.Parity.EventBridge

/-!
# `EventsRepository`

The totals and the history of the events of a session, and what the UI sees
of them. With a scope the snapshots are batched: a change launches one
publication job, which waits, takes the lock and publishes what it finds.

The synchronized methods are one step each. A job has two: its delay is
over, and its block runs under the lock. `cancel` stops a job that waits;
one past its delay runs its block all the same.

The fields of an event that nothing here reads are its `rest`; `Double` is
a type with a zero and an addition.
-/

namespace TiktokSigner.Android

open Parity.Android (Category)

structure LiveEvent (ρ : Type*) where
  category : Category
  count : Int64
  rest : ρ
deriving DecidableEq

structure Award (π : Type*) where
  uniqueId : String
  delta : π
  total : π
  level : Int32
deriving DecidableEq

structure LiveStats (π : Type*) where
  events : Int64
  gifts : Int64
  likes : Int64
  followers : Int64
  viewers : Int64
  points : π
deriving DecidableEq

variable {ρ π : Type*} [Zero π] [Add π]

namespace LiveStats

/-- The defaults of the constructor. -/
def zero : LiveStats π := ⟨0, 0, 0, 0, 0, 0⟩

def count (old : LiveStats π) (event : LiveEvent ρ) : LiveStats π :=
  { old with
    events := old.events + 1
    gifts := old.gifts + if event.category = .gift then 1 else 0
    likes := old.likes + if event.category = .like then max event.count 0 else 0
    followers := old.followers + if event.category = .follow then 1 else 0
    viewers := if event.category = .room then max event.count 0 else old.viewers }

end LiveStats

/-! ## The repository -/

inductive PublicationPhase where
  /-- In `delay`. -/
  | waiting
  /-- Past the delay, before the lock. -/
  | resumed
  | finished
deriving DecidableEq

structure PublicationJob where
  /-- What the block has captured. -/
  generation : Nat
  phase : PublicationPhase := .waiting
  cancelled : Bool := false
deriving DecidableEq

def PublicationJob.isActive (job : PublicationJob) : Bool := !job.cancelled && job.phase != .finished

structure EventsRepository (ρ π : Type*) where
  /-- Whether there is a publication scope. -/
  hasScope : Bool
  /-- A place in `jobs`. -/
  publication : Option Nat
  publicationGeneration : Nat
  totals : LiveStats π
  historyDirty : Bool
  deque : List (LiveEvent ρ)
  history : List (LiveEvent ρ)
  stats : LiveStats π
  paused : Bool
  lastAward : Option (Award π)
  /-- The jobs launched so far. -/
  jobs : List PublicationJob

namespace EventsRepository

def new (hasScope : Bool) : EventsRepository ρ π where
  hasScope
  publication := none
  publicationGeneration := 0
  totals := .zero
  historyDirty := false
  deque := []
  history := []
  stats := .zero
  paused := false
  lastAward := none
  jobs := []

variable (s : EventsRepository ρ π)

def publishLocked : EventsRepository ρ π :=
  { s with
    stats := s.totals
    history := if s.historyDirty then s.deque else s.history
    historyDirty := false }

/-- `publication?.isActive == true`. -/
def pending : Bool :=
  match s.publication with
  | some j => s.jobs[j]?.any PublicationJob.isActive
  | none => false

def schedulePublication : EventsRepository ρ π :=
  if ¬s.hasScope then s.publishLocked
  else if s.pending then s
  else
    { s with
      publication := some s.jobs.length
      jobs := s.jobs ++ [{ generation := s.publicationGeneration }] }

/-- `while (deque.size > 300) deque.removeLast()`. -/
def trim {α : Type*} (deque : List α) : List α :=
  if 300 < deque.length then trim deque.dropLast else deque
termination_by deque.length
decreasing_by
  rw [List.length_dropLast]
  omega

def append (event : LiveEvent ρ) : EventsRepository ρ π :=
  let s := { s with totals := s.totals.count event }
  if s.paused then s.schedulePublication
  else
    let s := { s with deque := trim (event :: s.deque), historyDirty := true }
    s.schedulePublication

def awarded (award : Award π) : EventsRepository ρ π :=
  let s := { s with lastAward := some award }
  let s := { s with totals := { s.totals with points := s.totals.points + award.delta } }
  s.schedulePublication

def setPaused (value : Bool) : EventsRepository ρ π := { s with paused := value }

def clearHistory : EventsRepository ρ π :=
  { s with deque := [], historyDirty := false, history := [] }

/-- `publication?.cancel()`. -/
def cancelPublication : EventsRepository ρ π :=
  match s.publication with
  | some j => { s with jobs := s.jobs.modify j fun job => { job with cancelled := true } }
  | none => s

def beginSession : EventsRepository ρ π :=
  let s := s.clearHistory
  let s := { s with publicationGeneration := s.publicationGeneration + 1 }
  let s := s.cancelPublication
  { s with publication := none, totals := .zero, stats := .zero, lastAward := none }

/-- The block of job `j`, under the lock. -/
def publish (generation : Nat) : EventsRepository ρ π :=
  if generation ≠ s.publicationGeneration then s
  else { s.publishLocked with publication := none }

def setPhase (j : Nat) (phase : PublicationPhase) : EventsRepository ρ π :=
  { s with jobs := s.jobs.modify j fun job => { job with phase } }

end EventsRepository

/-! ## Steps -/

inductive EventsAction (ρ π : Type*) where
  | append (event : LiveEvent ρ)
  | awarded (award : Award π)
  | setPaused (value : Bool)
  | clearHistory
  | beginSession
  /-- The delay of job `j` is over. -/
  | elapse (j : Nat)
  /-- The block of job `j` runs. -/
  | fire (j : Nat)
deriving DecidableEq

namespace EventsRepository

def step (s : EventsRepository ρ π) : EventsAction ρ π → Option (EventsRepository ρ π)
  | .append event => some (s.append event)
  | .awarded award => some (s.awarded award)
  | .setPaused value => some (s.setPaused value)
  | .clearHistory => some s.clearHistory
  | .beginSession => some s.beginSession
  | .elapse j =>
      match s.jobs[j]? with
      | some ⟨_, .waiting, false⟩ => some (s.setPhase j .resumed)
      | _ => none
  | .fire j =>
      match s.jobs[j]? with
      | some ⟨generation, .resumed, _⟩ => some ((s.publish generation).setPhase j .finished)
      | _ => none

end EventsRepository

end TiktokSigner.Android
