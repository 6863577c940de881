import TiktokSigner.SignCore.Frames

/-!
# The ACK protocol of `LiveConnection`

`next_message` multiplexes the heartbeat timer and the socket: a heartbeat
tick writes, an incoming binary frame goes through `handle_frame` and may
write an ACK, anything else is discarded or ends the call. Here the timer
and the socket are a list of events, each with the outcome of the write it
may lead to; the bytes handed to the socket are recorded per event.

`session` calls `next_message` until the events are used up, so the
results hold across calls: the scratch fields of the connection survive
from one frame to the next. `AckDue` is the specification of the replies,
written without the decoders: the last `need_ack` and the last `internal_ext`
of a batch decide.

Not modelled: the duration of an ACK write, the handshake.
-/

namespace TiktokSigner

inductive WsError where
  | initialCursorMissing
  | websocketUrlMissing
  | roomIdMissing
  | emptyCookies
  /-- A 200 handshake means detection. -/
  | blocked200 (message : Option String)
  | httpStatus (status : UInt16)
  | decode (message : String)
  | transport (message : String)
  | closed (reason : String)
deriving DecidableEq

namespace LiveWs

/-- A `msg` frame ready to parse. -/
structure LiveMessage where
  logId : UInt64
  payload : Bytes
deriving DecidableEq

/-- Library code the connection rests on: reading at most so many bytes
from a gzip stream, and the text of a UTF-8 error. -/
structure Codec where
  inflate : (limit : Nat) → Bytes → Except String Bytes
  utf8Error : Bytes → String

def maxBatchBytes : Nat := 16 * 1024 * 1024

section

variable (codec : Codec)

def gunzip (data : Bytes) : Except WsError Bytes := do
  let out ← (codec.inflate (maxBatchBytes + 1) data).mapError fun e => .decode s!"gzip: {e}"
  if maxBatchBytes < out.length then
    throw (.decode "decompressed batch exceeds 16 MiB")
  else pure out

/-! ## The metadata scan -/

def internalExtNumber : UInt32 := 5
def needAckNumber : UInt32 := 9

/-- One field of the scan; `acc` is the extension and `need_ack` so far. -/
def metadataField (acc : String × Bool) (field : WireField) : Except WsError (String × Bool) := do
  let needAck ←
    if field.1 = needAckNumber then
      match field.2 with
      | .varint value => pure (value != 0)
      | _ => throw (WsError.decode "invalid need_ack wire type")
    else pure acc.2
  if field.1 = internalExtNumber then
    match field.2 with
    | .bytes bytes =>
        match fromUtf8 bytes with
        | some extension => pure (extension, needAck)
        | none => throw (.decode (codec.utf8Error bytes))
    | _ => throw (.decode "invalid internal_ext wire type")
  else pure (acc.1, needAck)

def metadataItem (acc : String × Bool) (item : Except ProtoError WireField) :
    Except WsError (String × Bool) := do
  let field ← item.mapError fun e => WsError.decode e.display
  metadataField codec acc field

/-- Last field wins, matching protobuf scalar semantics. -/
def batchAckMetadata (payload : Bytes) : Except WsError (String × Bool) :=
  (Reader.items payload).foldlM (metadataItem codec) ("", false)

/-! ## The connection -/

structure LiveConnection where
  internalExt : String
  roomId : UInt64
  heartbeatSequence : UInt64 := 1
  lastAckWasSent : Bool := false
deriving DecidableEq

/-- What `stream.next()` yields. -/
inductive Incoming where
  | ended
  | error (message : String)
  | close (reason : Option (UInt16 × String))
  | binary (bytes : Bytes)
  /-- Text, ping, pong or a raw frame. -/
  | other

/-- What the `select!` of `next_message` sees, with the outcome of the
write it may lead to. -/
inductive Event where
  | tick (write : Except String Unit)
  | incoming (frame : Incoming) (write : Except String Unit)

/-- What `next_message` returns. -/
abbrev Returned := Option (Except WsError LiveMessage)

/-- One event as it was handled: the bytes handed to the socket, what
`next_message` returned if it returned, and `last_ack_was_sent` then. -/
structure Handled where
  event : Event
  written : List Bytes
  returned : Option Returned
  ackSent : Bool

def saturatingAddOne (n : UInt64) : UInt64 := if n.toNat + 1 < 2 ^ 64 then n + 1 else n

namespace LiveConnection

def sendHeartbeat (self : LiveConnection) (write : Except String Unit) :
    LiveConnection × List Bytes × Except WsError Unit :=
  let frame := PushFrame.heartbeat self.roomId self.heartbeatSequence
  let self := { self with heartbeatSequence := saturatingAddOne self.heartbeatSequence }
  (self, [frame.encode], write.mapError fun e => .closed s!"heartbeat failed: {e}")

/-- The payload of a `msg` frame, decompressed. -/
def framePayload (frame : PushFrame) : Except WsError Bytes :=
  match frame.compressType with
  | none | some "" | some "none" => .ok frame.payload
  | some "gzip" => gunzip codec frame.payload
  -- an unknown compression: try the raw payload
  | some _ => .ok frame.payload

/-- Process a frame: `none` for a transport frame. -/
def handleFrame (self : LiveConnection) (bytes : Bytes) (write : Except String Unit) :
    LiveConnection × List Bytes × Except WsError (Option LiveMessage) :=
  match PushFrame.decode bytes with
  | .error e => (self, [], .error (.decode e.display))
  | .ok frame =>
      if frame.isMessage then
        match framePayload codec frame with
        | .error e => (self, [], .error e)
        | .ok payload =>
            match batchAckMetadata codec payload with
            | .error e => (self, [], .error e)
            | .ok (extension, needAck) =>
                let self := { self with internalExt := extension, lastAckWasSent := false }
                if needAck then
                  let ack := frame.ackForBatch self.internalExt
                  match write with
                  | .error e => (self, [ack.encode], .error (.closed s!"ack failed: {e}"))
                  | .ok () =>
                      ({ self with lastAckWasSent := true }, [ack.encode],
                        .ok (some ⟨frame.logId, payload⟩))
                else (self, [], .ok (some ⟨frame.logId, payload⟩))
      else (self, [], .ok none)

/-- One turn of the loop in `next_message`; without a result the loop
continues. -/
def onEvent (self : LiveConnection) : Event → LiveConnection × List Bytes × Option Returned
  | .tick write =>
      let (self, written, result) := self.sendHeartbeat write
      match result with
      | .error e => (self, written, some (some (.error e)))
      | .ok () => (self, written, none)
  | .incoming .ended _ => (self, [], some none)
  | .incoming (.error e) _ => (self, [], some (some (.error (.closed e))))
  | .incoming (.close frame) _ =>
      let reason := match frame with
        | some (code, reason) => s!"{code} {reason}"
        | none => "no reason provided"
      (self, [], some (some (.error (.closed reason))))
  | .incoming (.binary bytes) write =>
      let (self, written, result) := self.handleFrame codec bytes write
      match result with
      | .ok (some message) => (self, written, some (some (.ok message)))
      | .ok none => (self, written, none)
      | .error e => (self, written, some (some (.error e)))
  | .incoming .other _ => (self, [], none)

def handle (self : LiveConnection) (event : Event) : LiveConnection × Handled :=
  let (self, written, returned) := self.onEvent codec event
  (self, { event, written, returned, ackSent := self.lastAckWasSent })

/-- The loop: events up to the one it returns on, and the events left. -/
def nextMessage (self : LiveConnection) : List Event → LiveConnection × List Handled × List Event
  | [] => (self, [], [])
  | event :: events =>
      let (self, handled) := self.handle codec event
      match handled.returned with
      | some _ => (self, [handled], events)
      | none =>
          let (self, more, left) := nextMessage self events
          (self, handled :: more, left)

/-- One event after the other, whoever calls `next_message`. -/
def handleAll (self : LiveConnection) : List Event → List Handled
  | [] => []
  | event :: events =>
      let (self, handled) := self.handle codec event
      handled :: handleAll self events

theorem nextMessage_eq : ∀ (self : LiveConnection) (events : List Event),
    self.handleAll codec events
        = (self.nextMessage codec events).2.1
          ++ (self.nextMessage codec events).1.handleAll codec (self.nextMessage codec events).2.2
      ∧ (events ≠ [] → (self.nextMessage codec events).2.2.length < events.length)
  | self, [] => by simp [nextMessage, handleAll]
  | self, event :: events => by
      rw [handleAll, nextMessage]
      obtain ⟨next, handled⟩ := self.handle codec event
      cases hreturned : handled.returned with
      | some returned => simp [hreturned]
      | none =>
          obtain ⟨heq, hlt⟩ := nextMessage_eq next events
          simp only [hreturned, List.cons_append, List.length_cons]
          refine ⟨by rw [heq], fun _ => ?_⟩
          cases events with
          | nil => simp [nextMessage]
          | cons e es => exact Nat.lt_succ_of_lt (hlt (List.cons_ne_nil e es))

/-- `next_message` called again and again until the events are used up. -/
def session (self : LiveConnection) (events : List Event) : List Handled :=
  if _h : events = [] then []
  else
    (self.nextMessage codec events).2.1
      ++ session (self.nextMessage codec events).1 (self.nextMessage codec events).2.2
termination_by events.length
decreasing_by exact (nextMessage_eq codec self events).2 ‹_›

/-- Where the calls of `next_message` begin and end does not matter. -/
theorem session_eq (self : LiveConnection) (events : List Event) :
    self.session codec events = self.handleAll codec events := by
  induction hn : events.length using Nat.strongRecOn generalizing self events with
  | ind n ih =>
      rw [session]
      split
      · rename_i h
        rw [h, handleAll]
      · rename_i h
        obtain ⟨heq, hlt⟩ := nextMessage_eq codec self events
        rw [heq, ih _ (hn ▸ hlt h) _ _ rfl]

end LiveConnection

end

end LiveWs

end TiktokSigner
