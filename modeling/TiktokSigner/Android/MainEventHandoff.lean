import TiktokSigner.Lib.Backlog
import TiktokSigner.Lib.Lts

/-!
# `MainEventHandoff`

The queue between the native worker's threads and the main thread. An offer
is one step (it holds the lock throughout). The main thread goes through a
pump turn from one consumer call to the next; the failure branch counts the
queue, calls the overflow consumer, reports the error and closes, in steps
of their own. `close` runs on the main thread: between turns, or from
inside a consumer. An overflow consumer that throws in the failure branch
ends the process and has no step.
-/

namespace TiktokSigner.Android

open Backlog

/-- `String.length`, in UTF-16 units. -/
def utf16Length (text : String) : Nat :=
  load (fun c => if 0x10000 ≤ c.toNat then 2 else 1) text.toList

inductive Notice where
  | event (json : String)
  | state (kind detail : String)
  | overflow
deriving DecidableEq, Repr

namespace Notice

def bytes : Notice → Nat
  | event json => utf16Length json * 2 + 64
  | state kind detail => (utf16Length kind + utf16Length detail) * 2 + 64
  | overflow => 0

/-- Counted by `count { it is Notice.Event }`. -/
def events : Notice → Nat
  | event _ => 1
  | state _ _ | overflow => 0

end Notice

/-- A call of a consumer. -/
inductive Call where
  | event (json : String)
  | state (kind detail : String)
  /-- The state consumer with `"error"`, from the handoff itself. -/
  | error (detail : String)
deriving DecidableEq, Repr

def overflowError : Call := .error "Event delivery queue overflow; LIVE connection stopped"

def failureError : Call := .error "Event listener failed; LIVE connection stopped"

def Notice.call : Notice → Call
  | event json => .event json
  | state kind detail => .state kind detail
  | overflow => overflowError

/-- The main thread; `left` are the iterations of `repeat` still to run. -/
inductive Main where
  | idle
  /-- At the head of the loop. -/
  | pumping (left : Nat)
  /-- In the consumer, for this notice. -/
  | delivering (left : Nat) (notice : Notice)
  /-- The consumer has thrown. -/
  | failed (left : Nat) (notice : Notice)
  /-- The queue is counted; in the overflow consumer. -/
  | stopping (left : Nat)
  /-- In the state consumer, with the error. -/
  | reporting (left : Nat)
  /-- Before the `close` of the failure branch. -/
  | closing (left : Nat)
deriving DecidableEq, Repr

/-- Between the counting step and the close step of the failure branch. -/
def Main.inGap : Main → Bool
  | stopping _ | reporting _ | closing _ => true
  | idle | pumping _ | delivering _ _ | failed _ _ => false

structure HandoffOptions where
  capacity : Nat
  maxBytes : Nat
  batchSize : Nat
  capacity_pos : 0 < capacity
  maxBytes_pos : 0 < maxBytes
  batchSize_pos : 0 < batchSize

/-- The defaults of the constructor. -/
def HandoffOptions.standard : HandoffOptions where
  capacity := 1024
  maxBytes := 8 * 1024 * 1024
  batchSize := 64
  capacity_pos := by decide
  maxBytes_pos := by decide
  batchSize_pos := by decide

structure Handoff where
  queue : List Notice := []
  queuedBytes : Nat := 0
  scheduled : Bool := false
  stopped : Bool := false
  /-- The consumers are there; `close` clears all three. -/
  consumers : Bool := true
  callbackFailures : Nat := 0
  overflows : Nat := 0
  discardedEvents : Nat := 0
  /-- The handler's pump tasks, delayed ones included. -/
  posted : Nat := 0
  main : Main := .idle
  /-- Not in the source, like all that follows: events offered before
  delivery stopped. -/
  offeredEvents : Nat := 0
  /-- Events whose consumer call has returned. -/
  handedEvents : Nat := 0
  /-- The notices taken into the queue. -/
  accepted : List Notice := []
  calls : List Call := []
  ownerClosed : Bool := false
  threw : Bool := false
  /-- Events that the failure branch has counted and not yet cleared. -/
  writtenOff : Nat := 0
deriving DecidableEq, Repr

inductive HandoffAction where
  | event (json : String)
  | state (kind detail : String)
  /-- The handler runs the pump. -/
  | run
  /-- The next iteration, or the end of the turn. -/
  | next
  | returned
  | threw
  | count
  /-- The overflow consumer has returned. -/
  | stopReturned
  /-- The state consumer has returned or thrown. -/
  | reported
  | closeFailed
  /-- The owner calls `close`. -/
  | close
deriving DecidableEq, Repr

/-- The notice that a worker offers. -/
def HandoffAction.offered : HandoffAction → Option Notice
  | event json => some (.event json)
  | state kind detail => some (.state kind detail)
  | _ => none

namespace Handoff

variable (o : HandoffOptions) (s : Handoff)

/-- `if (!scheduled) { scheduled = true; handler.post(pump) }`. -/
def schedule : Handoff :=
  if s.scheduled then s else { s with scheduled := true, posted := s.posted + 1 }

/-- The notice does not fit. -/
def overflowing (notice : Notice) : Bool :=
  o.capacity ≤ s.queue.length || o.maxBytes < s.queuedBytes + notice.bytes

def offer (notice : Notice) : Handoff :=
  if s.stopped then s
  else if s.overflowing o notice then
    { s with
      offeredEvents := s.offeredEvents + notice.events
      discardedEvents := s.discardedEvents + (load Notice.events s.queue + notice.events)
      queue := [.overflow]
      queuedBytes := 0
      stopped := true
      overflows := s.overflows + 1 }.schedule
  else
    { s with
      offeredEvents := s.offeredEvents + notice.events
      queue := s.queue ++ [notice]
      queuedBytes := s.queuedBytes + notice.bytes
      accepted := s.accepted ++ [notice] }.schedule

def close : Handoff :=
  { s with
    stopped := true
    queue := []
    queuedBytes := 0
    posted := 0
    scheduled := false
    consumers := false
    writtenOff := 0 }

/-- A consumer call, if the consumer is there. -/
def invoke (call : Call) : Handoff :=
  if s.consumers then { s with calls := s.calls ++ [call] } else s

/-- One iteration of the loop, or the end of the turn after the last. -/
def nextStep : Option Handoff :=
  match s.main with
  | .pumping 0 =>
      let s := { s with scheduled := false, main := .idle }
      some (if s.queue.isEmpty then s
        else { s with scheduled := true, posted := s.posted + 1 })
  | .pumping (left + 1) =>
      match s.queue with
      | [] => some { s with main := .pumping left }
      | notice :: queue =>
          some ({ s with
            queue := queue
            queuedBytes := s.queuedBytes - notice.bytes
            main := .delivering left notice }.invoke notice.call)
  | _ => none

def step (s : Handoff) : HandoffAction → Option Handoff
  | .event json => some (s.offer o (.event json))
  | .state kind detail => some (s.offer o (.state kind detail))
  | .run =>
      if s.main = .idle ∧ 0 < s.posted then
        some { s with posted := s.posted - 1, main := .pumping o.batchSize }
      else none
  | .next => s.nextStep
  | .returned =>
      match s.main with
      | .delivering left notice =>
          some { s with
            main := .pumping left
            handedEvents := s.handedEvents + notice.events }
      | _ => none
  | .threw =>
      match s.main with
      | .delivering left notice => some { s with main := .failed left notice, threw := true }
      | _ => none
  | .count =>
      match s.main with
      | .failed left notice =>
          some { s with
            main := .stopping left
            discardedEvents := s.discardedEvents + load Notice.events s.queue + notice.events
            callbackFailures := s.callbackFailures + 1
            writtenOff := load Notice.events s.queue }
      | _ => none
  | .stopReturned =>
      match s.main with
      | .stopping left => some ({ s with main := .reporting left }.invoke failureError)
      | _ => none
  | .reported =>
      match s.main with
      | .reporting left => some { s with main := .closing left }
      | _ => none
  | .closeFailed =>
      match s.main with
      | .closing left => some { s.close with main := .pumping left }
      | _ => none
  | .close =>
      match s.main with
      | .idle | .delivering _ _ | .stopping _ | .reporting _ =>
          some { s.close with ownerClosed := true }
      | .pumping _ | .failed _ _ | .closing _ => none

end Handoff

end TiktokSigner.Android
