import TiktokSigner.LiveCore.Run

/-!
# Buffered dispatch

`run_buffered` of `ttl-live-core`: the loop of `run` sends its callbacks
through a `Proxy` to a worker thread with its own sink. The transport and
the worker interleave at every access to the shared byte counter, the
channel and the overload flag. What a call of `Proxy::send` finds and does
is a step of its own each time; the worker's steps are `recv`, the callback
and the release of its cost.

The sink does not panic, so the receiver outlives the senders. `retained`
stands for `EventBatch::estimated_retained_bytes`; details, durations and
the result of `run_buffered` are as in `Run` or left out.
-/

namespace TiktokSigner.LiveCore

open LiveWs

/-- A callback on its way to the sink. -/
inductive Notice (β : Type) where
  | state (state : LiveState) (detail : String)
  | error (error : LiveError) (retryable : Bool)
  | batch (batch : β)
  | decode
  | ack
deriving DecidableEq

def queueCapacity : Nat := 32

def queueEstimatedBytes : Nat := 8 * 1024 * 1024

section

variable {β ε : Type}

namespace Notice

/-- The cost that the methods of `Proxy` pass to `send`. -/
def cost (retained : β → Nat) : Notice β → Nat
  | state _ _ => 512
  | error _ _ => 128
  | batch b => retained b
  | decode | ack => 128

def isDisconnected : Notice β → Bool
  | state .disconnected _ => true
  | _ => false

end Notice

/-- The callback of the sink that an event of `run` is. -/
def Event.notice? : Event β → Option (Notice β)
  | onState state detail => some (.state state detail)
  | onError error retryable => some (.error error retryable)
  | onBatch batch => some (.batch batch)
  | onDecodeDuration => some .decode
  | onAckDuration => some .ack
  | sign _ _ | openUri _ | nextMessage | close | cancelled => none

def Input.isCancelled : Input → Bool
  | .cancelled => true
  | _ => false

/-- What the worker calls after the last notice of an overloaded queue. -/
def saturated : List (Notice β) :=
  [.error .backpressure false, .state .error "LIVE callback queue saturated",
    .state .disconnected "stream stopped"]

/-- A notice with its cost. -/
abbrev Entry (β : Type) := Notice β × Nat

/-- Where `Proxy::send` is. -/
inductive Sending (β : Type) where
  | idle
  /-- The overload flag was not set. -/
  | checked (entry : Entry β)
  | reserved (entry : Entry β)
  /-- The channel was full. -/
  | rollback (entry : Entry β)
  | refused (entry : Entry β)
  /-- The overload flag is set. -/
  | stopping

inductive Worker (β : Type) where
  | waiting
  | received (entry : Entry β)
  /-- The callback runs or has returned. -/
  | running (entry : Entry β)
  /-- No sender is left; these callbacks are to come. -/
  | reporting (left : List (Notice β))

structure Dispatch (β : Type) where
  run : RunState β := {}
  /-- The callbacks that the transport makes before it waits again. -/
  outbox : List (Notice β) := []
  sending : Sending β := .idle
  queue : List (Entry β) := []
  bytes : Nat := 0
  overloaded : Bool := false
  /-- The watch that `run` looks at. -/
  cancel : Bool := false
  /-- The caller's `stop`. -/
  stop : Bool := false
  /-- The proxy has been dropped. -/
  dropped : Bool := false
  worker : Worker β := .waiting
  /-- Not in the source: the notices that `Proxy::send` is done with, and
  whether they went into the queue. -/
  sent : List (Notice β × Bool) := []
  /-- Not in the source: the callbacks of the sink. -/
  calls : List (Notice β) := []

inductive DispatchAction where
  /-- The caller stops the stream. -/
  | stop
  /-- `run_buffered` hands the stop on. -/
  | forward
  | advance (input : Input)
  | transport
  | drop
  | worker

namespace Dispatch

variable (s : Dispatch β)

/-- `run` goes on from where it waits. -/
def advance (maxRetries : UInt32) (directUrl : Nat → String) (decodeBatch : Bytes → Except ε β)
    (input : Input) : Option (Dispatch β) :=
  (step maxRetries directUrl decodeBatch s.run input).map fun run =>
    { s with
      run := run
      outbox := (run.trace.drop s.run.trace.length).filterMap Event.notice? }

/-- One step of `Proxy::send`. -/
def transport (retained : β → Nat) : Option (Dispatch β) :=
  match s.sending with
  | .idle =>
      match s.outbox with
      | [] => none
      | notice :: outbox =>
          if s.overloaded then
            some { s with outbox := outbox, sent := s.sent ++ [(notice, false)] }
          else
            some { s with outbox := outbox, sending := .checked (notice, notice.cost retained) }
  | .checked entry =>
      if s.bytes + entry.2 ≤ queueEstimatedBytes then
        some { s with bytes := s.bytes + entry.2, sending := .reserved entry }
      else some { s with sending := .refused entry }
  | .reserved entry =>
      if s.queue.length < queueCapacity then
        some { s with
          queue := s.queue ++ [entry]
          sending := .idle
          sent := s.sent ++ [(entry.1, true)] }
      else some { s with sending := .rollback entry }
  | .rollback entry => some { s with bytes := s.bytes - entry.2, sending := .refused entry }
  | .refused entry =>
      some { s with overloaded := true, sending := .stopping, sent := s.sent ++ [(entry.1, false)] }
  | .stopping => some { s with cancel := true, sending := .idle }

/-- One step of the worker thread. -/
def work : Option (Dispatch β) :=
  match s.worker with
  | .waiting =>
      match s.queue with
      | entry :: queue => some { s with queue := queue, worker := .received entry }
      | [] =>
          if s.dropped then
            some { s with worker := .reporting (if s.overloaded then saturated else []) }
          else none
  | .received entry => some { s with worker := .running entry, calls := s.calls ++ [entry.1] }
  | .running entry => some { s with bytes := s.bytes - entry.2, worker := .waiting }
  | .reporting (notice :: left) =>
      some { s with worker := .reporting left, calls := s.calls ++ [notice] }
  | .reporting [] => none

/-- `run` is not in the middle of a callback. -/
def waits : Bool :=
  match s.sending with
  | .idle => s.outbox.isEmpty
  | _ => false

def step (maxRetries : UInt32) (directUrl : Nat → String) (decodeBatch : Bytes → Except ε β)
    (retained : β → Nat) (s : Dispatch β) : DispatchAction → Option (Dispatch β)
  | .stop => some { s with stop := true }
  | .forward => if s.stop ∧ s.dropped = false then some { s with cancel := true } else none
  | .advance input =>
      -- `cancelled` comes first in every `select!`
      if s.waits ∧ input.isCancelled = s.cancel then
        s.advance maxRetries directUrl decodeBatch input
      else none
  | .transport => s.transport retained
  | .drop => if s.waits ∧ s.run.pc = .done then some { s with dropped := true } else none
  | .worker => s.work

end Dispatch

end

end TiktokSigner.LiveCore
