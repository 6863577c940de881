import TiktokSigner.Android.MainEventHandoff
import Mathlib.Logic.Function.Basic

/-!
# `LiveClient`

The client around the native handle. The open (`connectWithDelivery` with
its `setHandle`), the shutdown job, the native callbacks, the pump of the
handoff and the `disconnect` calls run on threads of their own; each access
to `handle`, `closed` and the handoff is a step. `requestShutdown` holds its
lock throughout and is part of the step that calls it.
-/

namespace TiktokSigner.Android

open Function (update)

/-- `shutdownJob`. -/
inductive Shutdown where
  | absent
  | launched
  /-- `getAndSet` has returned this handle. -/
  | taken (live : Nat)
  | done
deriving DecidableEq, Repr

/-- `connectWithDelivery`, from the native open on. -/
inductive Opening where
  | connecting
  | storing (handle : Nat)
  | checking
  /-- `closed` was set: before `getAndSet`. -/
  | swapping
  | releasing (live : Nat)
  | finished
  /-- The native open has returned no handle. -/
  | failed
deriving DecidableEq, Repr

inductive Disconnecting where
  | absent
  | requested
  /-- The handoff is closed; joining the job. -/
  | closed
  | returned
deriving DecidableEq, Repr

/-- In a consumer that runs the listener's code, or between two turns: a
`disconnect` that continues on the main thread can close the handoff. -/
def Main.reenters : Main → Bool
  | idle | delivering _ _ | reporting _ => true
  | pumping _ | failed _ _ | stopping _ | closing _ => false

structure LiveClient where
  handoff : Handoff := {}
  /-- 0 for none. -/
  handle : Nat := 0
  closed : Bool := false
  shutdown : Shutdown := .absent
  opening : Opening := .connecting
  /-- Native callbacks that have found `closed` unset. -/
  offers : List HandoffAction := []
  /-- Native callbacks that are about to call the overflow consumer. -/
  overloads : Nat := 0
  disconnects : Nat → Disconnecting := fun _ => .absent
  /-- Not in the source, like all that follows: what the native open has
  returned. -/
  native : Nat := 0
  /-- The handles given to `nDisconnect`. -/
  released : List Nat := []
  /-- The calls of the listener. -/
  heard : List Call := []
  /-- The handoff was closed from inside a listener call. -/
  reentered : Bool := false

inductive LiveAction where
  | opened (handle : Nat)
  | store
  | check
  | swap
  | release
  | onEvent (json : String)
  | onState (kind detail : String)
  /-- A native callback goes on into the handoff. -/
  | offer (a : HandoffAction)
  | overloaded
  /-- A step of the handoff on the main thread. -/
  | main (a : HandoffAction)
  | jobTake
  | jobRelease
  | disconnect (i : Nat)
  | closeHandoff (i : Nat)
  | join (i : Nat)
deriving DecidableEq, Repr

namespace LiveClient

variable (o : HandoffOptions) (s : LiveClient)

def requestShutdown : LiveClient :=
  { s with
    closed := true
    shutdown := match s.shutdown with
      | .absent => .launched
      | running => running }

/-- The consumers of the handoff: events are dropped once `closed` is set. -/
def listens : Call → Bool
  | .event _ => !s.closed
  | .state _ _ | .error _ => true

/-- The handoff after a step, and the listener calls that the step has made. -/
def setHandoff (handoff : Handoff) : LiveClient :=
  { s with
    handoff := handoff
    heard := s.heard ++ (handoff.calls.drop s.handoff.calls.length).filter s.listens }

/-- The overflow consumer, if the handoff still has it. -/
def onOverflow : LiveClient :=
  if s.handoff.consumers then s.requestShutdown else s

def mainStep : HandoffAction → Option LiveClient
  | .event _ | .state _ _ | .close => none
  | .stopReturned => (s.handoff.step o .stopReturned).map s.onOverflow.setHandoff
  | a => (s.handoff.step o a).map s.setHandoff

/-- A callback that overflows the handoff has taken the overflow consumer. -/
def offerStep (a : HandoffAction) : Option LiveClient :=
  if s.offers.contains a then
    (s.handoff.step o a).map fun handoff =>
      { s.setHandoff handoff with
        offers := s.offers.erase a
        overloads := s.overloads + (handoff.overflows - s.handoff.overflows) }
  else none

def step (s : LiveClient) : LiveAction → Option LiveClient
  | .opened handle =>
      if s.opening = .connecting then
        some { s with
          opening := if handle = 0 then .failed else .storing handle
          native := handle }
      else none
  | .store =>
      match s.opening with
      | .storing handle => some { s with opening := .checking, handle := handle }
      | _ => none
  | .check =>
      if s.opening = .checking then
        some { s with opening := if s.closed then .swapping else .finished }
      else none
  | .swap =>
      if s.opening = .swapping then
        some { s with
          opening := if s.handle = 0 then .finished else .releasing s.handle
          handle := 0 }
      else none
  | .release =>
      match s.opening with
      | .releasing live => some { s with opening := .finished, released := s.released ++ [live] }
      | _ => none
  | .onEvent json =>
      some (if s.closed then s else { s with offers := s.offers ++ [.event json] })
  | .onState kind detail =>
      some (if s.closed then s else { s with offers := s.offers ++ [.state kind detail] })
  | .offer a => s.offerStep o a
  | .overloaded =>
      if 0 < s.overloads then some { s.requestShutdown with overloads := s.overloads - 1 }
      else none
  | .main a => s.mainStep o a
  | .jobTake =>
      if s.shutdown = .launched then
        some { s with
          shutdown := if s.handle = 0 then .done else .taken s.handle
          handle := 0 }
      else none
  | .jobRelease =>
      match s.shutdown with
      | .taken live => some { s with shutdown := .done, released := s.released ++ [live] }
      | _ => none
  | .disconnect i =>
      if s.disconnects i = .absent then
        some { s.requestShutdown with disconnects := update s.disconnects i .requested }
      else none
  | .closeHandoff i =>
      if s.disconnects i = .requested ∧ s.handoff.main.reenters = true then
        (s.handoff.step o .close).map fun handoff =>
          { s with
            handoff := handoff
            disconnects := update s.disconnects i .closed
            reentered := s.reentered || s.handoff.main != .idle }
      else none
  | .join i =>
      if s.disconnects i = .closed ∧ s.shutdown = .done then
        some { s with disconnects := update s.disconnects i .returned }
      else none

end LiveClient

end TiktokSigner.Android
