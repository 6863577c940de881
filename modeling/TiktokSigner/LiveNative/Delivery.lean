import Mathlib.Algebra.GroupWithZero.Nat
import TiktokSigner.Lib.Lts

/-!
# Asynchronous delivery of the native client

A `NativeClient` with a channel capacity above zero hands its deliveries
from the LIVE worker to a dispatcher thread. Three parties run at their
own pace: the worker (`on_batch`, `on_state`, `on_error`, each through
`Shared::enqueue`), the dispatcher, and the threads that call `connect`
and `disconnect`. A state holds what they share and where each of them
is; an action moves one of them by one step.

A step is what a thread does between two points where another thread can
see the difference: one critical section, one channel operation or one
atomic access. `Shared::enqueue` holds the `dispatch` lock over several
of these, so the other users of that lock wait (`dispatchLocked`) while
the dispatcher may already receive what was sent.

Not modelled: callback bodies and the wait for callbacks in flight (a
disconnect may then overtake a callback, which only adds runs), thread
identities, durations, the stop signal (the worker may stop at any time),
`destroy` (nothing follows it), and the capacity zero, where no
dispatcher exists.
-/

namespace TiktokSigner.LiveNative

def maxDeliveryBytes : Nat := 8 * 1024 * 1024

/-! ## Deliveries -/

/-- A delivery with the number of its events and `estimated_bytes`. -/
inductive Delivery where
  | batch (events bytes : Nat)
  | state (bytes : Nat)
  | error (bytes : Nat)
deriving DecidableEq, Repr

namespace Delivery

def eventCount : Delivery → Nat
  | .batch events _ => events
  | .state _ | .error _ => 0

def estimatedBytes : Delivery → Nat
  | .batch _ bytes | .state bytes | .error bytes => bytes

end Delivery

/-! ## Where each party is -/

/-- The LIVE worker; after `enqueuing` it holds the `dispatch` lock. -/
inductive Worker where
  | stopped
  | running
  /-- Counted as received, about to lock `dispatch`. -/
  | enqueuing (delivery : Delivery)
  /-- Sent, `queued_bytes` not yet raised. -/
  | charging (cost : Nat)
  /-- Rejected and counted, `overloaded` not yet stored. -/
  | overloading
  /-- `overloaded` stored, the sender not yet taken. -/
  | dropping
deriving DecidableEq, Repr

/-- The dispatcher thread, by the statement it runs next. -/
inductive Dispatcher where
  | stopped
  | receiving
  /-- About to load `overloaded`. -/
  | received (delivery : Delivery)
  /-- About to look at `enabled`. -/
  | checking (delivery : Delivery)
  /-- Releasing and discarding one delivery of the drain-and-break branch. -/
  | refusing (delivery : Delivery)
  /-- At `try_recv` of that branch. -/
  | draining
  | delivering (delivery : Delivery)
  /-- At event `index` of a batch, about to load `overloaded`. -/
  | events (delivery : Delivery) (index : Nat) (batchInvoked : Bool)
  /-- At the event callback for event `index`. -/
  | invoking (delivery : Delivery) (index : Nat) (batchInvoked : Bool)
  | releasing (cost : Nat)
  /-- Out of the loop, about to swap `overloaded`. -/
  | exiting
  /-- At the queue overflow error. -/
  | reporting
  | disabling
  /-- About to return, which drops the receiver. -/
  | leaving
deriving DecidableEq, Repr

/-- A `connect` call under the `control` lock, by what it does next. -/
inductive Connecting where
  | idle
  | installSender
  | spawnDispatcher
  /-- The dispatcher did not start. -/
  | takeSender
  | disable
  | spawnWorker
  /-- The worker did not start. -/
  | disableWorkerless
  | takeSenderWorkerless
  | joinDispatcher
deriving DecidableEq, Repr

/-! ## The state -/

structure Counters where
  received : Nat := 0
  dispatched : Nat := 0
  discarded : Nat := 0
  rejections : Nat := 0
deriving DecidableEq, Repr

structure State where
  /-- `Dispatch::capacity`, which this model has above zero. -/
  capacity : { n : Nat // 0 < n }
  queuedBytes : Nat := 0
  /-- `Dispatch::sender` is present. -/
  sender : Bool := false
  /-- The channel: its bound, its contents, and whether the receiver lives. -/
  channelCapacity : Nat := 0
  queue : List Delivery := []
  receiverOpen : Bool := false
  enabled : Bool := false
  eventCallback : Bool := false
  batchCallback : Bool := false
  overloaded : Bool := false
  counters : Counters := {}
  worker : Worker := .stopped
  dispatcher : Dispatcher := .stopped
  connecting : Connecting := .idle
  /-- `disconnect` calls that have disabled the callbacks and not yet taken
  the sender, and those that have and not yet locked `control`. -/
  takingSender : Nat := 0
  lockingControl : Nat := 0
  /-- `Control::stopping`: a `disconnect` joins the threads. -/
  stopping : Bool := false
  /-- Not in the source: `rejections` when the session's `connect` began. -/
  rejectionsAtConnect : Nat := 0
deriving DecidableEq, Repr

inductive Action where
  /-- The next step of `connect`; `spawned` is the outcome of a spawn. -/
  | connect (spawned : Bool)
  | onBatch (events bytes : Nat)
  | onState (bytes : Nat)
  | onError (bytes : Nat)
  /-- The next step of `Shared::enqueue`. -/
  | enqueue
  | workerExit
  /-- The next step of the dispatcher. -/
  | dispatcher
  /-- The four parts of `disconnect`. -/
  | disable
  | takeSender
  | lockControl (onWorker : Bool)
  | joined
  | setEventCallback (registered : Bool)
  | setBatchCallback (registered : Bool)
  | setAsyncDelivery (capacity : Nat)
deriving DecidableEq, Repr

namespace State

variable (s : State)

/-- The worker is inside `Shared::enqueue` with the `dispatch` lock held. -/
def dispatchLocked : Bool :=
  match s.worker with
  | .charging _ | .overloading | .dropping => true
  | _ => false

/-- No worker and no dispatcher is running. -/
def quiescent : Prop := s.worker = .stopped ∧ s.dispatcher = .stopped

instance : Decidable s.quiescent := inferInstanceAs (Decidable (_ ∧ _))

/-! ## The worker -/

/-- `try_send` on the installed sender would succeed. -/
def sendable : Bool := s.receiverOpen && decide (s.queue.length < s.channelCapacity)

/-- The installed sender takes the delivery: the byte budget and the
channel have room. -/
def accepts (delivery : Delivery) : Bool :=
  decide (delivery.estimatedBytes ≤ maxDeliveryBytes - s.queuedBytes) && s.sendable

/-- `Shared::enqueue`, from the `dispatch` lock to its release. -/
def enqueueStep : Option State :=
  match s.worker with
  | .enqueuing d =>
      if s.sender = false then
        some { s with
          worker := .running
          counters := { s.counters with discarded := s.counters.discarded + d.eventCount } }
      else if s.accepts d then
        some { s with worker := .charging d.estimatedBytes, queue := s.queue ++ [d] }
      else
        some { s with
          worker := .overloading
          counters :=
            { s.counters with
              discarded := s.counters.discarded + d.eventCount
              rejections := s.counters.rejections + 1 } }
  | .charging cost =>
      some { s with worker := .running, queuedBytes := s.queuedBytes + cost }
  | .overloading => some { s with worker := .dropping, overloaded := true }
  | .dropping => some { s with worker := .running, sender := false }
  | .stopped | .running => none

/-! ## The dispatcher -/

/-- One step of `dispatcher`, with `deliver_batch` spelled out. -/
def dispatcherStep : Option State :=
  match s.dispatcher with
  | .stopped => none
  | .receiving =>
      match s.queue with
      | d :: rest => some { s with dispatcher := .received d, queue := rest }
      | [] => if s.sender then none else some { s with dispatcher := .exiting }
  | .received d =>
      if s.overloaded then some { s with dispatcher := .refusing d }
      else some { s with dispatcher := .checking d }
  | .checking d =>
      if s.enabled then some { s with dispatcher := .delivering d }
      else some { s with dispatcher := .refusing d }
  | .refusing d =>
      if s.dispatchLocked then none
      else
        some { s with
          dispatcher := .draining
          queuedBytes := s.queuedBytes - d.estimatedBytes
          counters := { s.counters with discarded := s.counters.discarded + d.eventCount } }
  | .draining =>
      match s.queue with
      | d :: rest => some { s with dispatcher := .refusing d, queue := rest }
      | [] => some { s with dispatcher := .exiting }
  | .delivering d =>
      match d with
      | .batch _ _ =>
          some { s with dispatcher := .events d 0 (s.enabled && s.batchCallback) }
      -- the state or error callback runs; nothing is counted
      | .state bytes | .error bytes => some { s with dispatcher := .releasing bytes }
  | .events d index batchInvoked =>
      if index < d.eventCount then
        if s.overloaded then
          let remaining := d.eventCount - index
          some { s with
            dispatcher := .releasing d.estimatedBytes
            counters :=
              if batchInvoked then
                { s.counters with dispatched := s.counters.dispatched + remaining }
              else { s.counters with discarded := s.counters.discarded + remaining } }
        else some { s with dispatcher := .invoking d index batchInvoked }
      else some { s with dispatcher := .releasing d.estimatedBytes }
  | .invoking d index batchInvoked =>
      let invoked := s.enabled && s.eventCallback
      some { s with
        dispatcher := .events d (index + 1) batchInvoked
        counters :=
          if invoked || batchInvoked then
            { s.counters with dispatched := s.counters.dispatched + 1 }
          else { s.counters with discarded := s.counters.discarded + 1 } }
  | .releasing cost =>
      if s.dispatchLocked then none
      else some { s with dispatcher := .receiving, queuedBytes := s.queuedBytes - cost }
  | .exiting =>
      if s.overloaded then some { s with dispatcher := .reporting, overloaded := false }
      else some { s with dispatcher := .leaving }
  | .reporting => some { s with dispatcher := .disabling }
  | .disabling => some { s with dispatcher := .leaving, enabled := false }
  -- what the channel still holds is dropped with the receiver
  | .leaving => some { s with dispatcher := .stopped, queue := [], receiverOpen := false }

/-! ## `connect` -/

/-- One step of `ttl_live_client_connect`. A call that is refused changes
nothing and is not a step. -/
def connectStep (spawned : Bool) : Option State :=
  match s.connecting with
  | .idle =>
      if s.stopping = false ∧ s.quiescent then
        some { s with
          connecting := .installSender
          enabled := true
          rejectionsAtConnect := s.counters.rejections }
      else none
  | .installSender =>
      some { s with
        connecting := .spawnDispatcher
        sender := true
        channelCapacity := s.capacity
        queue := []
        receiverOpen := true }
  | .spawnDispatcher =>
      if spawned then some { s with connecting := .spawnWorker, dispatcher := .receiving }
      -- the closure that owns the receiver is dropped
      else some { s with connecting := .takeSender, queue := [], receiverOpen := false }
  | .takeSender => some { s with connecting := .disable, sender := false }
  | .disable => some { s with connecting := .idle, enabled := false }
  | .spawnWorker =>
      if spawned then some { s with connecting := .idle, worker := .running }
      else some { s with connecting := .disableWorkerless }
  | .disableWorkerless => some { s with connecting := .takeSenderWorkerless, enabled := false }
  | .takeSenderWorkerless => some { s with connecting := .joinDispatcher, sender := false }
  | .joinDispatcher =>
      if s.dispatcher = .stopped then some { s with connecting := .idle } else none

/-! ## One step -/

/-- A LIVE callback of the worker: the events count as received before the
delivery is enqueued. -/
def onDelivery (delivery : Delivery) : Option State :=
  if s.worker = .running then
    some { s with
      worker := .enqueuing delivery
      counters := { s.counters with received := s.counters.received + delivery.eventCount } }
  else none

def step (s : State) : Action → Option State
  | .connect spawned => s.connectStep spawned
  | .onBatch events bytes => s.onDelivery (.batch events bytes)
  | .onState bytes => s.onDelivery (.state bytes)
  | .onError bytes => s.onDelivery (.error bytes)
  | .enqueue => s.enqueueStep
  | .workerExit => if s.worker = .running then some { s with worker := .stopped } else none
  | .dispatcher => s.dispatcherStep
  | .disable => some { s with enabled := false, takingSender := s.takingSender + 1 }
  | .takeSender =>
      if 0 < s.takingSender ∧ s.dispatchLocked = false then
        some { s with
          sender := false
          takingSender := s.takingSender - 1
          lockingControl := s.lockingControl + 1 }
      else none
  | .lockControl onWorker =>
      if 0 < s.lockingControl ∧ s.connecting = .idle then
        some { s with
          lockingControl := s.lockingControl - 1
          stopping := s.stopping || !onWorker }
      else none
  | .joined =>
      if s.stopping ∧ s.quiescent then some { s with stopping := false } else none
  | .setEventCallback registered => some { s with eventCallback := registered }
  | .setBatchCallback registered => some { s with batchCallback := registered }
  | .setAsyncDelivery capacity =>
      if h : 0 < capacity then
        if capacity ≤ 256 ∧ s.connecting = .idle ∧ s.stopping = false ∧ s.quiescent then
          some { s with capacity := ⟨capacity, h⟩ }
        else none
      else none

end State

/-- A client just created, with a channel capacity of `capacity`. -/
def created (capacity : { n : Nat // 0 < n }) : State := { capacity }

end TiktokSigner.LiveNative
