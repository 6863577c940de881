import TiktokSigner.Lib.Lts
import TiktokSigner.Lib.Trace
import TiktokSigner.LiveWs.Connection

/-!
# The shared LIVE loop

`run` of `ttl-live-core`: sign a fresh URL, open the socket, deliver
batches until the socket ends, retry within the budget. The loop is a
state machine whose states are the points where it waits (and the check of
`stop` at the top of the loop); an input is what the awaited operation, or
the cancellation that each `select!` looks at first, turned out to be. The
trace lists the callbacks of the sink together with the calls to the
signer and the socket, in order.

`directUrl n` is the URL that the `n`-th `DirectSocketParams::new(room)`
builds (each draws a new device id), and `decodeBatch` stands for
`ttl_live_events::decode_batch`. Times and durations are left out: the
15-second timeouts are inputs, the backoff sleep is one too.
-/

namespace TiktokSigner.LiveCore

open LiveWs

inductive LiveState where
  | disconnected
  | connecting
  | connected
  | reconnecting
  | offline
  | error
deriving DecidableEq

inductive LiveError where
  | signer
  | socket
  | timeout
  | decode
  | backpressure
  | protocol
  | auth (status : UInt16)
  | socketStatus (status : UInt16)
deriving DecidableEq

/-- What the loop does, as seen by the sink, the signer and the socket. -/
inductive Event (β : Type) where
  | onState (state : LiveState) (detail : String)
  | onError (error : LiveError) (retryable : Bool)
  | onBatch (batch : β)
  | onDecodeDuration
  | onAckDuration
  /-- `signer.sign(&url)` for the `n`-th URL. -/
  | sign (n : Nat) (url : String)
  /-- `LiveConnection::open_uri(&signed, ..)`. -/
  | openUri (signed : String)
  | nextMessage
  | close
  /-- Cancellation became visible. -/
  | cancelled
deriving DecidableEq

/-- Where the loop waits. -/
inductive Pc where
  | top
  | signing
  | opening
  | connected
  | backoff
  | done
deriving DecidableEq

structure RunState (β : Type) where
  pc : Pc := .top
  failures : UInt32 := 0
  reconnecting : Bool := false
  /-- How many URLs have been built. -/
  urls : Nat := 0
  trace : List (Event β) := []
deriving DecidableEq

/-- What the awaited operation turned out to be. -/
inductive Input where
  | cancelled
  /-- At the top of the loop: not stopped. -/
  | proceed
  | signed (url : String)
  | signError
  | signTimeout
  | opened
  | openError (error : WsError)
  | openTimeout
  /-- A message, and whether its ACK was sent. -/
  | message (ackSent : Bool) (payload : Bytes)
  | messageError (error : WsError)
  | ended
  | elapsed

section

variable {β ε : Type}

namespace RunState

def emit (s : RunState β) (events : List (Event β)) : RunState β :=
  { s with trace := s.trace ++ events }

/-- Leave the outer loop. -/
def stop (s : RunState β) : RunState β :=
  { s.emit [.onState .disconnected "stream stopped"] with pc := .done }

/-- The end of the outer loop's body: give up or wait for the next attempt. -/
def retry (maxRetries : UInt32) (s : RunState β) : RunState β :=
  if maxRetries ≤ s.failures then (s.emit [.onState .error "reconnect budget exhausted"]).stop
  else
    { s.emit [.onState .reconnecting "waiting to retry"] with
      failures := s.failures + 1, reconnecting := true, pc := .backoff }

end RunState

/-- The `match opened` of a refused or failed opening. -/
def openFailed (maxRetries : UInt32) (s : RunState β) (error : WsError) : RunState β :=
  match error with
  | .blocked200 _ =>
      (s.emit [.onError (.auth 200) false, .onState .error "handshake refused"]).stop
  | .emptyCookies =>
      (s.emit [.onError (.auth 0) false, .onState .error "session cookies missing"]).stop
  | .httpStatus status =>
      if status = 401 ∨ status = 403 then
        (s.emit [.onError (.auth status) false, .onState .error "handshake refused"]).stop
      else
        (s.emit [.onError (.socketStatus status) (s.failures < maxRetries)]).retry maxRetries
  | _ => (s.emit [.onError .socket (s.failures < maxRetries)]).retry maxRetries

/-- A message of the open socket. -/
def deliver (decodeBatch : Bytes → Except ε β) (s : RunState β) (ackSent : Bool)
    (payload : Bytes) : RunState β :=
  let s := s.emit (if ackSent then [.nextMessage, .onAckDuration] else [.nextMessage])
  match decodeBatch payload with
  | .ok batch => s.emit [.onDecodeDuration, .onBatch batch]
  | .error _ => s.emit [.onDecodeDuration, .onError .decode false]

def step (maxRetries : UInt32) (directUrl : Nat → String) (decodeBatch : Bytes → Except ε β)
    (s : RunState β) (input : Input) : Option (RunState β) :=
  match s.pc, input with
  | .top, .cancelled => some (s.emit [.cancelled]).stop
  | .top, .proceed =>
      let state := if s.reconnecting then .reconnecting else .connecting
      some { s.emit [.onState state "opening LIVE stream", .sign s.urls (directUrl s.urls)] with
        pc := .signing, urls := s.urls + 1 }
  | .signing, .cancelled => some (s.emit [.cancelled]).stop
  | .signing, .signed url => some { s.emit [.openUri url] with pc := .opening }
  | .signing, .signError | .signing, .signTimeout =>
      some (s.emit [.onError .signer false, .onState .error "signing failed"]).stop
  | .opening, .cancelled => some (s.emit [.cancelled]).stop
  | .opening, .opened =>
      some { s.emit [.onState .connected "LIVE stream open"] with
        pc := .connected, failures := 0 }
  | .opening, .openError error => some (openFailed maxRetries s error)
  | .opening, .openTimeout =>
      some ((s.emit [.onError .timeout (s.failures < maxRetries)]).retry maxRetries)
  | .connected, .cancelled =>
      some { s.emit [.cancelled, .close, .onState .disconnected "disconnect requested"] with
        pc := .done }
  | .connected, .message ackSent payload => some (deliver decodeBatch s ackSent payload)
  | .connected, .messageError _ =>
      some ((s.emit [.nextMessage, .onError .socket (0 < maxRetries)]).retry maxRetries)
  | .connected, .ended => some ((s.emit [.nextMessage]).retry maxRetries)
  | .backoff, .cancelled => some (s.emit [.cancelled]).stop
  | .backoff, .elapsed => some { s with pc := .top }
  | _, _ => none

end

end TiktokSigner.LiveCore
