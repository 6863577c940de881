import TiktokSigner.Lib.Lts
import Mathlib.Data.List.Range
import Mathlib.Logic.Function.Basic

/-!
# `EmbeddedJavaConnectionProvider`

`connect`, `track`, `prepare` and `close` of the provider, statement by
statement. A call of `connect` and the future it returns have the same
number. The three `whenComplete` callbacks (one of `connect`, two of
`prepare`) run on the thread that completes their future, or on the one
that registers them if it is complete already.

`prepare` makes up to three HTTP calls for a request: discovery and the
guest session, which it tracks, and the download in `bundles.load`, which
it does not. An exception ends it from any place that can throw.
-/

namespace TiktokSigner.JvmSigner.ConnectionProvider

open Function (update)

/-! ## The threads -/

/-- How a future was completed. -/
inductive Outcome where
  | value
  | failed
  | cancelled
deriving DecidableEq, Repr

/-- A call of `connect`, by what it does next. -/
inductive Connecting where
  | absent
  /-- In `pending`; before `whenComplete`. -/
  | admitted
  | registered
  | returned
  /-- The provider was closed; a failed future is returned. -/
  | refused
deriving DecidableEq, Repr

/-- The callback of `connect`, by what it does next. -/
inductive Callback where
  | absent
  | registered
  /-- Before `pending.remove`. -/
  | removing
  /-- Before `calls.remove`. -/
  | taking
  /-- Before the `cancel` of a call. -/
  | dropping (call : Nat)
  | done
deriving DecidableEq, Repr

/-- A callback of `prepare`. -/
inductive Hook where
  | absent
  | registered
  | running
  | done
deriving DecidableEq, Repr

/-- The signer's future. -/
inductive Signing where
  | absent
  | outstanding
  | completed (ok : Bool)
deriving DecidableEq, Repr

/-- The HTTP calls that `track` is for. -/
inductive Stage where
  | discovery
  | bootstrap
deriving DecidableEq, Repr

/-- The worker's thread, by what `prepare` does next for a request. -/
inductive Worker where
  | idle
  | starting (i : Nat)
  /-- Before `newCall` and `calls.put`. -/
  | calling (i : Nat) (stage : Stage)
  /-- Before the check of `track`. -/
  | checking (i : Nat) (stage : Stage) (call : Nat)
  /-- Before the `calls.remove` of `track`. -/
  | withdrawing (i : Nat) (stage : Stage) (call : Nat)
  /-- Before the `cancel` of `track`. -/
  | cancelling (i : Nat) (stage : Stage) (call : Nat)
  /-- In `execute`. -/
  | executing (i : Nat) (stage : Stage) (call : Nat)
  /-- Before the check behind a stage. -/
  | answered (i : Nat) (stage : Stage)
  /-- In `bundles.load`. -/
  | loading (i : Nat)
  /-- In its `client.send`. -/
  | downloading (i : Nat) (call : Nat)
  /-- Before the synchronized block. -/
  | creating (i : Nat)
  | signing (i : Nat)
  /-- Before the `result.whenComplete` of `prepare`. -/
  | hooking (i : Nat)
  /-- Before `signing.whenComplete`. -/
  | listening (i : Nat)
deriving DecidableEq, Repr

/-- `close`, by what it does next. -/
inductive Closing where
  | open
  | cancelling (futures : List Nat)
  | cancellingCalls (calls : List Nat)
  | clearing
  | shutting
  | retiring
  | finished
deriving DecidableEq, Repr

/-- The future of a callback is completed. -/
def Callback.fire : Callback → Callback
  | registered => removing
  | callback => callback

def Hook.fire : Hook → Hook
  | registered => running
  | hook => hook

namespace Worker

/-- The request that `prepare` runs for. -/
def request : Worker → Option Nat
  | idle => none
  | starting i | calling i _ | checking i _ _ | withdrawing i _ _ | cancelling i _ _
  | executing i _ _ | answered i _ | loading i | downloading i _ | creating i | signing i
  | hooking i | listening i => some i

/-- The HTTP call that is running. -/
def running : Worker → Option Nat
  | executing _ _ call | downloading _ call => some call
  | _ => none

/-- The call of `client.send`. -/
def download : Worker → Option Nat
  | downloading _ call => some call
  | _ => none

/-- The request that an exception ends. -/
def throws : Worker → Option Nat
  | calling i _ | executing i _ _ | loading i | downloading i _ | creating i | signing i => some i
  | _ => none

end Worker

/-! ## The state -/

structure State where
  closing : Closing := .open
  launched : Nat := 0
  connecting : Nat → Connecting := fun _ => .absent
  outcome : Nat → Option Outcome := fun _ => none
  callback : Nat → Callback := fun _ => .absent
  pending : Nat → Bool := fun _ => false
  calls : Nat → Option Nat := fun _ => none
  queue : List Nat := []
  /-- The worker is shut down and its thread interrupted. -/
  down : Bool := false
  worker : Worker := .idle
  session : Bool := false
  signer : Option Nat := none
  /-- The signers created. -/
  signers : Nat := 0
  /-- The signers that are closed. -/
  retired : Nat → Bool := fun _ => false
  signing : Nat → Signing := fun _ => .absent
  /-- `if (result.isCancelled()) signing.cancel(false)`. -/
  cancelHook : Nat → Hook := fun _ => .absent
  /-- The callback of the signer's future. -/
  signedHook : Nat → Hook := fun _ => .absent
  /-- The HTTP calls made. -/
  made : Nat := 0
  cancelled : Nat → Bool := fun _ => false
  /-- Not in the source: the request of a call. -/
  request : Nat → Nat := fun _ => 0
  /-- Not in the source: the calls whose request was cancelled while they
  were running. -/
  abandoned : Nat → Bool := fun _ => false

inductive Action where
  | connect
  | register (i : Nat)
  | execute (i : Nat)
  | cancel (i : Nat)
  | remove (i : Nat)
  | take (i : Nat)
  | drop (i : Nat)
  /-- The `cancelHook` runs. -/
  | stopSigning (i : Nat)
  /-- The signer completes its future. -/
  | signed (i : Nat) (ok : Bool)
  /-- The `signedHook` runs; `ok` is the outcome of `validated`. -/
  | signedRuns (i : Nat) (ok : Bool)
  | poll
  | work
  /-- The HTTP call is answered, or the bundle is there. -/
  | answer
  | offline
  | download
  | throw
  /-- A signer closes itself. -/
  | retire (k : Nat)
  | close
  | closeNext
deriving DecidableEq, Repr

namespace State

variable (s : State)

def closed : Bool := s.closing != .open

def isDone (i : Nat) : Bool := (s.outcome i).isSome

def isCancelled (i : Nat) : Bool := s.outcome i == some .cancelled

/-- `closed || result.isDone()`. -/
def stops (i : Nat) : Bool := s.closed || s.isDone i

/-- The call that runs for a request, when the request is cancelled. -/
def abandon (i : Nat) : Nat → Bool :=
  match s.worker.running with
  | some call => if s.worker.request = some i then update s.abandoned call true else s.abandoned
  | none => s.abandoned

def complete (i : Nat) (outcome : Outcome) : State :=
  if s.isDone i then s
  else
    { s with
      outcome := update s.outcome i (some outcome)
      callback := update s.callback i (s.callback i).fire
      cancelHook := update s.cancelHook i (s.cancelHook i).fire
      abandoned := if outcome = .cancelled then s.abandon i else s.abandoned }

def connect : State :=
  if s.closed then
    { s with
      launched := s.launched + 1
      connecting := update s.connecting s.launched .refused
      outcome := update s.outcome s.launched (some .failed) }
  else
    { s with
      launched := s.launched + 1
      connecting := update s.connecting s.launched .admitted
      pending := update s.pending s.launched true }

/-- `worker.execute`, with the handler of its rejection. -/
def execute (i : Nat) : State :=
  if s.down || 16 ≤ s.queue.length then
    { s.complete i .failed with connecting := update s.connecting i .returned }
  else
    { s with connecting := update s.connecting i .returned, queue := s.queue ++ [i] }

def take (i : Nat) : State :=
  { s with
    calls := update s.calls i none
    callback := update s.callback i <|
      match s.calls i with
      | some call => if s.isCancelled i then .dropping call else .done
      | none => .done }

def completeSigning (i : Nat) (ok : Bool) : State :=
  if s.signing i = .outstanding then
    { s with
      signing := update s.signing i (.completed ok)
      signedHook := update s.signedHook i (s.signedHook i).fire }
  else s

def stopSigning (i : Nat) : State :=
  let t := if s.isCancelled i then s.completeSigning i false else s
  { t with cancelHook := update s.cancelHook i .done }

def signedRuns (i : Nat) (ok : Bool) : State :=
  let t := { s with signedHook := update s.signedHook i .done }
  if s.stops i then t
  else t.complete i (if s.signing i = .completed true ∧ ok then .value else .failed)

/-- `http.newCall` and the `calls.put` of `track`. -/
def newCall (i : Nat) (stage : Stage) : State :=
  { s with
    worker := .checking i stage s.made
    calls := update s.calls i (some s.made)
    request := update s.request s.made i
    made := s.made + 1 }

/-- `signer == null || signer.isClosed()`. -/
def unusable : Bool :=
  match s.signer with
  | none => true
  | some k => s.retired k

/-- `prepare`, from one statement to the next. -/
def work : Option State :=
  match s.worker with
  | .starting i =>
      some { s with worker := if s.stops i then .idle else .calling i .discovery }
  | .calling i stage => some (s.newCall i stage)
  | .checking i stage call =>
      some { s with
        worker := if s.stops i then .withdrawing i stage call else .executing i stage call }
  | .withdrawing i stage call =>
      some { s with
        worker := .cancelling i stage call
        calls := if s.calls i = some call then update s.calls i none else s.calls }
  | .cancelling i stage call =>
      some { s with
        worker := .executing i stage call
        cancelled := update s.cancelled call true }
  | .answered i .discovery =>
      some { s with
        worker := if s.stops i then .idle
          else if s.session then .answered i .bootstrap
          else .calling i .bootstrap }
  | .answered i .bootstrap =>
      some { s with
        worker := if s.stops i then .idle
          else if s.unusable then .loading i
          else .signing i }
  | .creating i =>
      some (if s.stops i then { s with worker := .idle }
        else { s with
          worker := .signing i
          signer := some s.signers
          signers := s.signers + 1 })
  | .signing i =>
      if s.session ∧ s.signer.isSome then
        some { s with
          worker := .hooking i
          signing := update s.signing i .outstanding
          cancelHook := update s.cancelHook i .absent
          signedHook := update s.signedHook i .absent }
      else none
  | .hooking i =>
      some { s with
        worker := .listening i
        cancelHook := update s.cancelHook i (if s.isDone i then .running else .registered) }
  | .listening i =>
      some { s with
        worker := .idle
        signedHook := update s.signedHook i
          (if s.signing i = .outstanding then .registered else .running) }
  | _ => none

/-- `prepare`, when what it waits for is there. -/
def answer : Option State :=
  match s.worker with
  | .executing i .discovery _ => some { s with worker := .answered i .discovery }
  | .executing i .bootstrap _ =>
      some { s with worker := .answered i .bootstrap, session := true }
  | .loading i | .downloading i _ => some { s with worker := .creating i }
  | _ => none

def offline : Option State :=
  match s.worker with
  | .executing i .discovery _ => some { s.complete i .value with worker := .idle }
  | _ => none

/-- The cache has no bundle. An interrupted thread does not get this far. -/
def startDownload : Option State :=
  match s.worker with
  | .loading i =>
      if s.down then none
      else some { s with
        worker := .downloading i s.made
        request := update s.request s.made i
        made := s.made + 1 }
  | _ => none

/-- The catch clauses of `prepare`. -/
def throw : Option State :=
  s.worker.throws.map fun i => { s.complete i .failed with worker := .idle }

def close : State :=
  if s.closed then s
  else { s with closing := .cancelling ((List.range s.launched).filter s.pending) }

/-- `worker.shutdownNow`; the interrupt cancels a running `client.send`. -/
def shutdownNow : State :=
  { s with
    closing := .retiring
    down := true
    queue := []
    cancelled := match s.worker.download with
      | some call => update s.cancelled call true
      | none => s.cancelled }

def closeSigner : State :=
  { s with
    closing := .finished
    session := false
    retired := match s.signer with
      | some k => update s.retired k true
      | none => s.retired }

def closeNext : Option State :=
  match s.closing with
  | .cancelling (i :: futures) => some { s.complete i .cancelled with closing := .cancelling futures }
  | .cancelling [] =>
      some { s with closing := .cancellingCalls ((List.range s.launched).filterMap s.calls) }
  | .cancellingCalls (call :: calls) =>
      some { s with
        closing := .cancellingCalls calls
        cancelled := update s.cancelled call true }
  | .cancellingCalls [] => some { s with closing := .clearing }
  | .clearing => some { s with closing := .shutting, calls := fun _ => none }
  | .shutting => some s.shutdownNow
  | .retiring => some s.closeSigner
  | .open | .finished => none

def step (s : State) : Action → Option State
  | .connect => some s.connect
  | .register i =>
      if s.connecting i = .admitted then
        some { s with
          connecting := update s.connecting i .registered
          callback := update s.callback i (if s.isDone i then .removing else .registered) }
      else none
  | .execute i => if s.connecting i = .registered then some (s.execute i) else none
  | .cancel i => if s.connecting i = .returned then some (s.complete i .cancelled) else none
  | .remove i =>
      if s.callback i = .removing then
        some { s with
          pending := update s.pending i false
          callback := update s.callback i .taking }
      else none
  | .take i => if s.callback i = .taking then some (s.take i) else none
  | .drop i =>
      match s.callback i with
      | .dropping call =>
          some { s with
            cancelled := update s.cancelled call true
            callback := update s.callback i .done }
      | _ => none
  | .stopSigning i => if s.cancelHook i = .running then some (s.stopSigning i) else none
  | .signed i ok => if s.signing i = .outstanding then some (s.completeSigning i ok) else none
  | .signedRuns i ok => if s.signedHook i = .running then some (s.signedRuns i ok) else none
  | .poll =>
      match s.worker, s.queue with
      | .idle, i :: queue => some { s with worker := .starting i, queue := queue }
      | _, _ => none
  | .work => s.work
  | .answer => s.answer
  | .offline => s.offline
  | .download => s.startDownload
  | .throw => s.throw
  | .retire k => if k < s.signers then some { s with retired := update s.retired k true } else none
  | .close => some s.close
  | .closeNext => s.closeNext

end State

end TiktokSigner.JvmSigner.ConnectionProvider
