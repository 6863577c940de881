import TiktokSigner.Lib.Lts
import TiktokSigner.Lib.Promises

/-!
# `GraalJsSigner`

`sign`, the worker task, the deadline, cancellation by callers and `close`
of `GraalJsSigner.java`, statement by statement. A call of `sign` and the
future it returns have the same number; `Promises` are the futures.

`retire` goes over four shared things one after the other: it completes
`pending`, shuts the worker down, shuts the timer down and closes the
context. A call of `sign` in between may find the first already done and
the next two still to come.
-/

namespace TiktokSigner.JvmSigner

open Function (update)

/-! ## The threads -/

/-- How a future was completed. -/
inductive Outcome where
  | signed
  | failed
  | cancelled
deriving DecidableEq, Repr

/-- A call of `sign`, by what it does next. -/
inductive Signing where
  /-- Not called yet. -/
  | absent
  | putPending
  | schedule
  | whenComplete
  | execute
  /-- In the handler of `RejectedExecutionException`. -/
  | rejected
  | returned
deriving DecidableEq, Repr

/-- The worker's task, by what it does next. -/
inductive Task where
  | check
  | setExecuting
  | recheck
  /-- In `initialize`, at its first statement. -/
  | createContext
  /-- A context is built, the field not yet assigned. -/
  | assign (context : Nat)
  | checkClosed (context : Nat)
  | prepare (context : Nat)
  | call
  /-- In the handler of `Throwable`. -/
  | setClosed
  | completeFailed
  | retire
  /-- In `finally`. -/
  | clearExecuting
deriving DecidableEq, Repr

/-- The worker's thread. -/
inductive Worker where
  | absent
  | idle
  | running (i : Nat) (task : Task)
deriving DecidableEq, Repr

/-- Who runs a `retire`. -/
inductive Owner where
  | caller
  | timer
  | worker
deriving DecidableEq, Repr

/-- A `retire` under way, by what it does next. -/
inductive Retiring where
  | completePending
  | shutdownWorker
  | shutdownTimer
  | closeContext
deriving DecidableEq, Repr

/-! ## The state -/

structure State where
  closed : Bool := false
  signing : Nat → Signing := fun _ => .absent
  outcome : Nat → Option Outcome := fun _ => none
  /-- The `whenComplete` callback is registered. -/
  callback : Nat → Bool := fun _ => false
  pending : Nat → Bool := fun _ => false
  /-- The deadlines in the timer's queue. -/
  deadline : Nat → Bool := fun _ => false
  timerDown : Bool := false
  /-- The timer's thread has completed a future and is about to call `close`. -/
  expired : Bool := false
  workerDown : Bool := false
  worker : Worker := .absent
  queue : List Nat := []
  executing : Option Nat := none
  context : Option Nat := none
  created : Nat := 0
  /-- The contexts that are open. -/
  isOpen : Nat → Bool := fun _ => false
  retires : List (Owner × Retiring) := []

inductive Action where
  /-- `sign` is called and looks at `closed`. -/
  | sign (i : Nat)
  | putPending (i : Nat)
  | schedule (i : Nat)
  | whenComplete (i : Nat)
  | execute (i : Nat)
  | reject (i : Nat)
  /-- The worker takes the next task from its queue. -/
  | take
  /-- The next step of the worker's task; `ok` is the outcome of what the
  guest or the builder does in it. -/
  | work (ok : Bool)
  | expire (i : Nat)
  | expireClose
  | cancel (i : Nat)
  | close
  /-- The next step of the `k`th `retire`. -/
  | retire (k : Nat)
deriving DecidableEq, Repr

namespace State

variable (s : State)

/-- `close`. -/
def closeBy (owner : Owner) : State :=
  if s.closed then s
  else { s with closed := true, retires := s.retires ++ [(owner, .completePending)] }

/-- The `whenComplete` callback of `sign`, on the thread that completes the
future or, if it is complete, on the one that registers the callback. -/
def onComplete (owner : Owner) (i : Nat) : State :=
  let s := { s with deadline := update s.deadline i false, pending := update s.pending i false }
  if s.outcome i = some .cancelled ∧ s.executing = some i then s.closeBy owner else s

/-- `complete`, `completeExceptionally` and `cancel` of a future. -/
def complete (owner : Owner) (i : Nat) (outcome : Outcome) : State :=
  if (s.outcome i).isSome then s
  else
    let s := { s with outcome := Promises.complete s.outcome i outcome }
    if s.callback i then s.onComplete owner i else s

/-! ## `sign` -/

def signStep (i : Nat) : Option State :=
  if s.signing i = .absent then
    if s.closed then
      some { s with
        signing := update s.signing i .returned
        outcome := Promises.complete s.outcome i .failed }
    else some { s with signing := update s.signing i .putPending }
  else none

def putPendingStep (i : Nat) : Option State :=
  if s.signing i = .putPending then
    some { s with signing := update s.signing i .schedule, pending := update s.pending i true }
  else none

def scheduleStep (i : Nat) : Option State :=
  if s.signing i = .schedule then
    if s.timerDown then some { s with signing := update s.signing i .rejected }
    else
      some { s with
        signing := update s.signing i .whenComplete
        deadline := update s.deadline i true }
  else none

def whenCompleteStep (i : Nat) : Option State :=
  if s.signing i = .whenComplete then
    let s := { s with
      signing := update s.signing i .execute
      callback := update s.callback i true }
    some (if (s.outcome i).isSome then s.onComplete .caller i else s)
  else none

variable (capacity : Nat)

/-- The executor takes the task: on a new thread or into its queue. -/
def accepts : Bool := !s.workerDown && (s.worker = .absent || s.queue.length < capacity)

def executeStep (i : Nat) : Option State :=
  if s.signing i = .execute then
    if s.accepts capacity then
      let s := { s with signing := update s.signing i .returned }
      some (if s.worker = .absent then { s with worker := .running i .check }
        else { s with queue := s.queue ++ [i] })
    else some { s with signing := update s.signing i .rejected }
  else none

def rejectStep (i : Nat) : Option State :=
  if s.signing i = .rejected then
    let s := { s with
      signing := update s.signing i .returned
      pending := update s.pending i false }
    some (s.complete .caller i .failed)
  else none

/-! ## The worker -/

def takeStep : Option State :=
  match s.worker, s.queue with
  | .idle, i :: queue => some { s with worker := .running i .check, queue := queue }
  | _, _ => none

def workStep (ok : Bool) : Option State :=
  match s.worker with
  | .absent | .idle => none
  | .running i .check =>
      if (s.outcome i).isSome || s.closed then some { s with worker := .idle }
      else some { s with worker := .running i .setExecuting }
  | .running i .setExecuting =>
      some { s with worker := .running i .recheck, executing := some i }
  | .running i .recheck =>
      if (s.outcome i).isSome then some { s with worker := .idle, executing := none }
      else some { s with worker := .running i .createContext }
  | .running i .createContext =>
      if s.context.isSome then some { s with worker := .running i .call }
      else if ok then
        some { s with
          worker := .running i (.assign s.created)
          created := s.created + 1
          isOpen := update s.isOpen s.created true }
      else some { s with worker := .running i .setClosed }
  | .running i (.assign c) =>
      some { s with worker := .running i (.checkClosed c), context := some c }
  | .running i (.checkClosed c) =>
      if s.closed then
        some { s with worker := .running i .setClosed, isOpen := update s.isOpen c false }
      else some { s with worker := .running i (.prepare c) }
  -- a closed context fails every call into it
  | .running i (.prepare c) =>
      some { s with worker := .running i (if ok && s.isOpen c then .call else .setClosed) }
  | .running i .call =>
      if ok && s.context.any s.isOpen then
        some { s.complete .worker i .signed with worker := .running i .clearExecuting }
      else some { s with worker := .running i .setClosed }
  | .running i .setClosed => some { s with worker := .running i .completeFailed, closed := true }
  | .running i .completeFailed =>
      let s := s.complete .worker i .failed
      some { s with
        worker := .running i .retire
        retires := s.retires ++ [(.worker, .completePending)] }
  | .running i .retire =>
      if s.retires.any (·.1 = .worker) then none
      else some { s with worker := .running i .clearExecuting }
  | .running _ .clearExecuting => some { s with worker := .idle, executing := none }

/-! ## The timer -/

def expireStep (i : Nat) : Option State :=
  if s.deadline i ∧ s.expired = false ∧ s.retires.any (·.1 = .timer) = false then
    let t := { s with deadline := update s.deadline i false }
    some { t.complete .timer i .failed with expired := (s.outcome i).isNone }
  else none

def expireCloseStep : Option State :=
  if s.expired then some ({ s with expired := false }.closeBy .timer) else none

/-! ## Callers -/

def cancelStep (i : Nat) : Option State :=
  if s.signing i = .returned then some (s.complete .caller i .cancelled) else none

/-! ## `retire` -/

/-- The callbacks of the completed futures: `closed` is set, so none of them
closes anything. -/
def completePending : State :=
  let completed := fun i => s.pending i && s.callback i && (s.outcome i).isNone
  { s with
    outcome := Promises.completeAll s.outcome s.pending .cancelled
    deadline := fun i => s.deadline i && !completed i
    pending := fun i => s.pending i && !completed i }

def retireStep (k : Nat) : Option State :=
  match s.retires[k]? with
  | none => none
  | some (owner, .completePending) =>
      some { s.completePending with retires := s.retires.set k (owner, .shutdownWorker) }
  | some (owner, .shutdownWorker) =>
      some { s with
        workerDown := true
        queue := []
        retires := s.retires.set k (owner, .shutdownTimer) }
  | some (owner, .shutdownTimer) =>
      some { s with
        timerDown := true
        deadline := fun _ => false
        retires := s.retires.set k (owner, .closeContext) }
  | some (_, .closeContext) =>
      some { s with
        isOpen := fun c => s.isOpen c && s.context ≠ some c
        retires := s.retires.eraseIdx k }

def step (s : State) : Action → Option State
  | .sign i => s.signStep i
  | .putPending i => s.putPendingStep i
  | .schedule i => s.scheduleStep i
  | .whenComplete i => s.whenCompleteStep i
  | .execute i => s.executeStep capacity i
  | .reject i => s.rejectStep i
  | .take => s.takeStep
  | .work ok => s.workStep ok
  | .expire i => s.expireStep i
  | .expireClose => s.expireCloseStep
  | .cancel i => s.cancelStep i
  | .close => some (s.closeBy .caller)
  | .retire k => s.retireStep k

end State

end TiktokSigner.JvmSigner
