import TiktokSigner.Lib.Lts
import TiktokSigner.Lib.Crowd
import TiktokSigner.Android.LiveSessionManager

/-!
# `SupertonicSpeaker`

The command queue of the on-device speech engine. The conflated channel is
one slot, whose content the latest send replaces. A call takes its request
id, publishes it and sends its command in steps of their own; calls of any
number of threads and the worker take their steps in any order.

An utterance has started when it passes the id check of `handleSpeak`. What
comes after it (loading, synthesis, playback, `stopRequested`) touches
neither the slot nor the ids and is one stay in `speaking`. `shutdown` is
left out.

The log is a ghost: what the calls and the worker have done, oldest first.
-/

namespace TiktokSigner.Android.SupertonicSpeaker

/-! ## Data -/

inductive Command where
  | speak (id : Nat) (text : String) (voiceOverride : Option String)
  | reload
deriving DecidableEq

/-- The calls of the public API. -/
inductive Call where
  | speak (text : String)
  | preview (text : String) (voice : Option String)
  | stop
  | reload
deriving DecidableEq

inductive CallPhase where
  | entered
  /-- The id is taken. -/
  | numbered (id : Nat)
  /-- The id is the latest request. -/
  | published (id : Nat)
  | done
deriving DecidableEq

structure Thread where
  call : Call
  phase : CallPhase := .entered
deriving DecidableEq

inductive Worker where
  /-- At the channel. -/
  | idle
  /-- Before the id check, or in `reloadEngine`. -/
  | received (command : Command)
  | speaking (id : Nat)
deriving DecidableEq

inductive Event where
  /-- A speak or preview call takes the id. -/
  | requested (id : Nat)
  /-- A stop call takes the id. -/
  | stopped (id : Nat)
  | reloadSent
  /-- The worker receives a `Reload`. -/
  | reloading
  | reloaded
  /-- The request passes the id check. -/
  | started (id : Nat)
deriving DecidableEq

structure State where
  requestSeq : Nat
  latestRequest : Nat
  commands : Option Command
  worker : Worker
  threads : List Thread
  log : List Event
deriving DecidableEq

/-- `isBlank`. -/
def isBlank (text : String) : Bool := text.toList.all isWhitespace

/-! ## The steps of a call and of the worker -/

namespace State

def new : State := ⟨0, 0, none, .idle, [], []⟩

variable (s : State)

def emit (e : Event) : State := { s with log := s.log ++ [e] }

def setPhase (i : Nat) (call : Call) (phase : CallPhase) : State :=
  { s with threads := s.threads.set i ⟨call, phase⟩ }

/-- On a conflated channel `trySend` always succeeds. -/
def trySend (command : Command) : State := { s with commands := some command }

/-- `requestSeq.incrementAndGet()`. -/
def incrementAndGet (i : Nat) (call : Call) (event : Nat → Event) : State :=
  let id := s.requestSeq + 1
  (({ s with requestSeq := id }).setPhase i call (.numbered id)).emit (event id)

/-- The next step of a speak or preview call. -/
def enqueue (i : Nat) (call : Call) (text : String) (voiceOverride : Option String) :
    CallPhase → Option State
  | .entered =>
      if isBlank text then some (s.setPhase i call .done)
      else some (s.incrementAndGet i call .requested)
  | .numbered id => some (({ s with latestRequest := id }).setPhase i call (.published id))
  | .published id => some ((s.trySend (.speak id text voiceOverride)).setPhase i call .done)
  | .done => none

def stop (i : Nat) : CallPhase → Option State
  | .entered => some (s.incrementAndGet i .stop .stopped)
  | .numbered id => some (({ s with latestRequest := id }).setPhase i .stop .done)
  | .published _ | .done => none

def reload (i : Nat) : CallPhase → Option State
  | .entered => some (((s.trySend .reload).setPhase i .reload .done).emit .reloadSent)
  | .numbered _ | .published _ | .done => none

/-- The next step of call `i`. -/
def advance (i : Nat) : Option State :=
  match s.threads[i]? with
  | some ⟨.speak text, phase⟩ => s.enqueue i (.speak text) text none phase
  | some ⟨.preview text voice, phase⟩ => s.enqueue i (.preview text voice) text voice phase
  | some ⟨.stop, phase⟩ => s.stop i phase
  | some ⟨.reload, phase⟩ => s.reload i phase
  | none => none

/-- The id check. -/
def handleSpeak (id : Nat) : State :=
  if id ≠ s.latestRequest then { s with worker := .idle }
  else ({ s with worker := .speaking id }).emit (.started id)

def receive (command : Command) : State :=
  let s := { s with commands := none, worker := .received command }
  match command with
  | .speak _ _ _ => s
  | .reload => s.emit .reloading

/-- The next step of the worker. -/
def work : Option State :=
  match s.worker with
  | .idle => s.commands.map s.receive
  | .received (.speak id _ _) => some (s.handleSpeak id)
  | .received .reload => some (({ s with worker := .idle }).emit .reloaded)
  | .speaking _ => some { s with worker := .idle }

end State

inductive Action where
  | enter (call : Call)
  | advance (i : Nat)
  | work
deriving DecidableEq

def step (s : State) : Action → Option State
  | .enter call => some { s with threads := s.threads ++ [{ call }] }
  | .advance i => s.advance i
  | .work => s.work

end TiktokSigner.Android.SupertonicSpeaker
