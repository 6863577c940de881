import TiktokSigner.LiveWs.Connection
import TiktokSigner.Lib.Lts

/-!
# A message stream that outlives its sockets

`ReconnectingConnection` of `ttl-live-ws`. A state of the model is a point
where the stream waits: between two calls of `next_message`, for the socket
of the current connection, in the backoff sleep, for the signature, for the
new socket. An action is what the wait turned out to be, or that the caller
dropped the future there. The log lists what the stream did, and `sockets`
the connections it read from with the socket events of each.

The socket is a `LiveConnection`, one turn of its loop at a time. How long
the stream sleeps (`backoff`, jitter) is left out.
-/

namespace TiktokSigner.LiveWs

/-- The message a turn of the socket's loop returned. -/
def Handled.message (handled : Handled) : Option LiveMessage :=
  match handled.returned with
  | some (some (.ok message)) => some message
  | _ => none

/-! ## What the signer and the stream report -/

structure WebcastRefusal where
  statusCode : Int64
  message : String
deriving DecidableEq

inductive RejectReason where
  | emptyBody
  | emptyPushServer
  | httpStatus (code : UInt16)
deriving DecidableEq

inductive SignError where
  | sdkNotReady
  | noInstanceAvailable
  | backendUnavailable (message : String)
  | bridge (message : String)
  | engineGone (message : String)
  | loginTimeout (seconds : UInt64)
  | timeout (milliseconds : UInt64)
  | transport (message : String)
  | decode (message : String)
  | refused (refusal : WebcastRefusal)
deriving DecidableEq

structure SignedFetch where
  protobuf : Bytes
  cookies : List (String × String)
  userAgent : String
  signedUrl : String
deriving DecidableEq

inductive SignOutcome where
  | ok (signed : SignedFetch)
  | rejected (reason : RejectReason)
  | transport (error : SignError)
deriving DecidableEq

/-- Why a stream stopped for good. -/
inductive StreamError where
  | refused (reason : RejectReason)
  | signer (error : SignError)
  | exhausted (attempts : Nat) (last : WsError)
  | connect (error : WsError)
deriving DecidableEq

/-- The `match` on the backend's answer in `connect_once`. -/
def SignOutcome.signed : SignOutcome → Except StreamError SignedFetch
  | .ok signed => .ok signed
  | .rejected reason => .error (.refused reason)
  | .transport error => .error (.signer error)

/-- `LiveConnection::open_uri(..).map_err(StreamError::Connect)`. -/
def mapConnect : Except WsError LiveConnection → Except StreamError LiveConnection :=
  Except.mapError .connect

/-! ## The stream -/

/-- What the stream does, in order. -/
inductive Entry where
  /-- `reconnect(cause)`. -/
  | lost (cause : WsError)
  /-- `backend.transport(TransportRequest::new(room_id))`. -/
  | asked (roomId : String)
  | signed (outcome : SignOutcome)
  /-- `LiveConnection::open_uri` with this signature. -/
  | opened (signed : SignedFetch) (result : Except WsError LiveConnection)
  /-- `next_message` returned `Some(Ok(..))`. -/
  | delivered (message : LiveMessage)
  /-- `next_message` returned `Some(Err(..))`. -/
  | ended (error : StreamError)
  /-- `next_message` returned `None`. -/
  | finished
  /-- The future of a call was dropped. -/
  | dropped
deriving DecidableEq

/-- Where the stream waits. `attempt` counts from one. -/
inductive Phase where
  | idle
  | reading
  | sleeping (attempt : Nat) (last : WsError)
  | signing (attempt : Nat) (last : WsError)
  | opening (attempt : Nat) (last : WsError) (signed : SignedFetch)
deriving DecidableEq

structure ReconnectingConnection where
  roomId : String
  maxAttempts : Nat
  connection : Option LiveConnection
  reconnects : Nat := 0

structure Stream extends ReconnectingConnection where
  phase : Phase := .idle
  log : List Entry := []
  /-- Each socket as it was opened, with what it yielded; the newest first. -/
  sockets : List (LiveConnection × List Event)

inductive Action where
  | call
  /-- What the `select!` of the socket's `next_message` sees. -/
  | socket (event : Event)
  | wake
  | sign (outcome : SignOutcome)
  | open (result : Except WsError LiveConnection)
  /-- The future is dropped; a cancelled read leaves the socket as `left`. -/
  | drop (left : LiveConnection)

namespace Stream

/-- `ReconnectingConnection::open`, once the first connection is there. -/
def start (roomId : String) (maxAttempts : Nat) (connection : LiveConnection) : Stream :=
  { roomId, maxAttempts, connection := some connection, sockets := [(connection, [])] }

def record (s : Stream) (entry : Entry) : Stream := { s with log := s.log ++ [entry] }

/-- `self.connection = None; return Some(Err(error))`. -/
def fail (s : Stream) (error : StreamError) : Stream :=
  { s with connection := none, phase := .idle, log := s.log ++ [.ended error] }

/-- `reconnect`, up to its first wait. -/
def reconnect (s : Stream) (cause : WsError) : Stream :=
  let s : Stream := { s with connection := none, log := s.log ++ [.lost cause] }
  if s.maxAttempts = 0 then s.fail (.exhausted 0 cause)
  else { s with phase := .sleeping 1 cause }

/-- The `match` on the result of `connect_once`. -/
def attempted (s : Stream) (attempt : Nat) : Except StreamError LiveConnection → Stream
  | .ok connection =>
      { s with
        connection := some connection, reconnects := s.reconnects + 1, phase := .reading,
        sockets := (connection, []) :: s.sockets }
  | .error (.refused reason) => s.fail (.refused reason)
  | .error (.signer error) => s.fail (.signer error)
  | .error (.connect last) =>
      if attempt < s.maxAttempts then { s with phase := .sleeping (attempt + 1) last }
      else s.fail (.exhausted s.maxAttempts last)
  | .error other => s.fail other

/-- One more event on the current socket. -/
def seen (event : Event) : List (LiveConnection × List Event) → List (LiveConnection × List Event)
  | [] => []
  | (connection, events) :: sockets => (connection, events ++ [event]) :: sockets

/-- The `match` on what the socket's `next_message` returned. -/
def read (s : Stream) : Option Returned → Stream
  | none => s
  | some (some (.ok message)) => { s with phase := .idle, log := s.log ++ [.delivered message] }
  | some none => s.reconnect (.closed "closed by peer")
  | some (some (.error error)) => s.reconnect error

variable (codec : Codec)

def step (s : Stream) : Action → Option Stream
  | .call =>
      if s.phase = .idle then
        match s.connection with
        | none => some (s.record .finished)
        | some _ => some { s with phase := .reading }
      else none
  | .socket event =>
      match s.phase, s.connection with
      | .reading, some connection =>
          let (connection, _, returned) := connection.onEvent codec event
          some ({ s with connection := some connection, sockets := seen event s.sockets }.read
            returned)
      | _, _ => none
  | .wake =>
      match s.phase with
      | .sleeping attempt last =>
          some { s with phase := .signing attempt last, log := s.log ++ [.asked s.roomId] }
      | _ => none
  | .sign outcome =>
      match s.phase with
      | .signing attempt last =>
          let s := s.record (.signed outcome)
          match outcome.signed with
          | .ok signed => some { s with phase := .opening attempt last signed }
          | .error error => some (s.attempted attempt (.error error))
      | _ => none
  | .open result =>
      match s.phase with
      | .opening attempt _ signed =>
          some ((s.record (.opened signed result)).attempted attempt (mapConnect result))
      | _ => none
  | .drop left =>
      match s.phase with
      | .idle => none
      | .reading => some { s with phase := .idle, connection := some left, log := s.log ++ [.dropped] }
      | .sleeping .. | .signing .. | .opening .. =>
          some { s with phase := .idle, log := s.log ++ [.dropped] }

end Stream

end TiktokSigner.LiveWs
