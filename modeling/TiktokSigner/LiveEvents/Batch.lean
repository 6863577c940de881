import TiktokSigner.LiveEvents.Preflight

/-!
# Decoding a batch

`decode_batch` and `decode_batch_with_mode`: a cap on the messages, the
generated decoder for the envelope, and then each message in order, with a
schema budget and a wire budget that the messages of one batch share.

The generated decoder and the normalisers built on generated types are
parameters (`Generated`); `Event` stands for the typed variants of
`LiveEvent`, `Error` for the generated decoder's error.
-/

namespace TiktokSigner.LiveEvents

open LiveProto

/-! ## Generated code -/

structure BaseProtoMessage where
  method : String
  payload : Bytes
  msgId : Int64
  isHistory : Bool
deriving DecidableEq

/-- The batch fields beside the messages, the same in every result. -/
structure BatchMetadata where
  cursor : String := ""
  internalExt : String := ""
  needAck : Bool := false
  heartbeatDuration : Int64 := 0
  pushServer : String := ""
deriving DecidableEq

structure ProtoMessageFetchResult extends BatchMetadata where
  messages : List BaseProtoMessage
deriving DecidableEq

/-- A normalised event, or one kept as it arrived. -/
inductive LiveEvent (Event : Type) where
  | event (event : Event)
  | unknown (method : String) (payload : Bytes)

structure Generated (Event Error : Type) where
  decodeEventBatch : Bytes → Except Error ProtoMessageFetchResult
  chat : Bytes → Except Error (LiveEvent Event)
  emoteChat : Bytes → Except Error (LiveEvent Event)
  gift : Bytes → Except Error (LiveEvent Event)
  like : Bytes → Except Error (LiveEvent Event)
  member : Bytes → Except Error (LiveEvent Event)
  social : Bytes → Except Error (LiveEvent Event)
  roomUser : Bytes → Except Error (LiveEvent Event)

inductive EventError (Error : Type) where
  /-- Batch exceeds 16 MiB or the 8192-message limit. -/
  | tooLarge
  | batch (e : Error)

/-! ## The message cap -/

def maxBatchBytes : Nat := 16 * 1024 * 1024
def maxBatchMessages : Nat := 8192

section

variable {Event Error : Type}

/-- The loop of `check_batch` over the fields; the envelope's own decoder
reports a field that cannot be read. -/
def countMessages (count : Nat) : List (Except ProtoError WireField) → Except (EventError Error) Unit
  | [] | .error _ :: _ => .ok ()
  | .ok (number, _) :: fields =>
      if number = 1 then
        if maxBatchMessages < count + 1 then .error .tooLarge else countMessages (count + 1) fields
      else countMessages count fields

def checkBatch (payload : Bytes) : Except (EventError Error) Unit :=
  if maxBatchBytes < payload.length then .error .tooLarge
  else countMessages 0 (Reader.items payload)

/-! ## One message -/

variable (registry : Registry) (generated : Generated Event Error)

def normalizePayload (method : String) (payload : Bytes) :
    Except Error (Option (LiveEvent Event)) :=
  match method with
  | "WebcastChatMessage" => (generated.chat payload).map some
  | "WebcastEmoteChatMessage" => (generated.emoteChat payload).map some
  | "WebcastGiftMessage" => (generated.gift payload).map some
  | "WebcastLikeMessage" => (generated.like payload).map some
  | "WebcastMemberMessage" => (generated.member payload).map some
  | "WebcastSocialMessage" => (generated.social payload).map some
  | "WebcastRoomUserSeqMessage" => (generated.roomUser payload).map some
  | _ => .ok none

def normalizeChecked (method : String) (payload : Bytes) (issue : Option NormalizationStatus) :
    Option (LiveEvent Event) × NormalizationStatus :=
  match issue with
  | some issue => (none, issue)
  | none =>
      match normalizePayload generated method payload with
      | .ok (some event) => (some event, .normalized)
      | .ok none => (none, .unsupportedMethod)
      | .error _ => (none, .decodeError)

structure RawEvent where
  method : String
  msgId : UInt64
  payload : Bytes
  isHistory : Bool

/-- One event: its raw envelope, its normalised form and its schema view. -/
structure DecodedEvent (Event : Type) where
  raw : RawEvent
  event : LiveEvent Event
  schema : SchemaMessage
  normalizationStatus : NormalizationStatus
  timestamp : Option UInt64

/-- The budgets that the messages of a batch share. -/
structure Budgets where
  schema : Nat := 65536
  wire : Nat := 65536

def decodeEnvelopeBudget (method : String) (msgId : UInt64) (isHistory : Bool) (payload : Bytes)
    (budgets : Budgets) : DecodedEvent Event × Budgets :=
  let oversized := decide (maxEventBytes < payload.length)
  let payload := payload.take maxEventBytes
  let (schema, schemaBudget) := decodeWebcastMessageBudget registry method payload budgets.schema
  let schema := { schema with truncated := schema.truncated || oversized }
  let (wireIssue, timestamp, wireBudget) := preflightEvent registry method payload budgets.wire
  let issue := if oversized then some .payloadLimit else wireIssue
  let (event, normalizationStatus) := normalizeChecked generated method payload issue
  ({ raw := { method, msgId, payload, isHistory }
     event := event.getD (.unknown method payload)
     schema, normalizationStatus, timestamp },
    { schema := schemaBudget, wire := wireBudget })

def decodeMessage (message : BaseProtoMessage) (budgets : Budgets) :
    DecodedEvent Event × Budgets :=
  decodeEnvelopeBudget registry generated message.method message.msgId.toUInt64 message.isHistory
    message.payload budgets

/-! ## The two entry points -/

structure EventBatch (Event : Type) extends BatchMetadata where
  events : List (DecodedEvent Event)

/-- Each message with the budgets that the earlier ones leave. -/
def decodeMessages : List BaseProtoMessage → Budgets → List (DecodedEvent Event)
  | [], _ => []
  | message :: messages, budgets =>
      let (event, budgets) := decodeMessage registry generated message budgets
      event :: decodeMessages messages budgets

theorem decodeMessages_cons (message : BaseProtoMessage) (messages : List BaseProtoMessage)
    (budgets : Budgets) :
    decodeMessages registry generated (message :: messages) budgets =
      (decodeMessage registry generated message budgets).1 ::
        decodeMessages registry generated messages
          (decodeMessage registry generated message budgets).2 := rfl

def decodeBatch (payload : Bytes) : Except (EventError Error) (EventBatch Event) := do
  checkBatch payload
  let result ← (generated.decodeEventBatch payload).mapError EventError.batch
  pure { result.toBatchMetadata with events := decodeMessages registry generated result.messages {} }

/-- Representations requested by an optimized consumer. -/
inductive DecodeMode where
  | normalized
  | schema
  | full
  | raw
deriving DecidableEq

structure SelectedEvent (Event : Type) where
  timestamp : Option UInt64
  method : String
  msgId : UInt64
  isHistory : Bool
  payload : Option Bytes
  event : Option (LiveEvent Event)
  schema : Option SchemaMessage
  /-- Any requested representation is incomplete. -/
  truncated : Bool
  normalizationStatus : NormalizationStatus

structure SelectedBatch (Event : Type) extends BatchMetadata where
  events : List (SelectedEvent Event)

/-- The closure of `decode_batch_with_mode`. -/
def selectMessage (mode : DecodeMode) (message : BaseProtoMessage) (budgets : Budgets) :
    SelectedEvent Event × Budgets :=
  let oversized := decide (maxEventBytes < message.payload.length)
  let payload := message.payload.take maxEventBytes
  let (schema, schemaBudget) :=
    if mode = .full ∨ mode = .schema then
      let (schema, budget) :=
        decodeWebcastMessageBudget registry message.method payload budgets.schema
      (some { schema with truncated := schema.truncated || oversized }, budget)
    else (none, budgets.schema)
  let (wireIssue, timestamp, wireBudget) :=
    preflightEvent registry message.method payload budgets.wire
  let issue := if oversized then some .payloadLimit else wireIssue
  let truncated := issue.isSome || schema.any (·.truncated)
  let (event, normalizationStatus) :=
    if mode = .full ∨ mode = .normalized then
      normalizeChecked generated message.method payload issue
    else (none, issue.getD .notRequested)
  let retained := if mode = .full ∨ mode = .raw then some payload else none
  let event :=
    if (mode = .normalized ∨ mode = .full) ∧ event.isNone then
      some (.unknown message.method payload)
    else event
  ({ timestamp, method := message.method, msgId := message.msgId.toUInt64
     isHistory := message.isHistory, payload := retained, event, schema, truncated
     normalizationStatus },
    { schema := schemaBudget, wire := wireBudget })

def selectMessages (mode : DecodeMode) :
    List BaseProtoMessage → Budgets → List (SelectedEvent Event)
  | [], _ => []
  | message :: messages, budgets =>
      let (event, budgets) := selectMessage registry generated mode message budgets
      event :: selectMessages mode messages budgets

theorem selectMessages_cons (mode : DecodeMode) (message : BaseProtoMessage)
    (messages : List BaseProtoMessage) (budgets : Budgets) :
    selectMessages registry generated mode (message :: messages) budgets =
      (selectMessage registry generated mode message budgets).1 ::
        selectMessages registry generated mode messages
          (selectMessage registry generated mode message budgets).2 := rfl

def decodeBatchWithMode (payload : Bytes) (mode : DecodeMode) :
    Except (EventError Error) (SelectedBatch Event) := do
  checkBatch payload
  let result ← (generated.decodeEventBatch payload).mapError EventError.batch
  pure { result.toBatchMetadata with
    events := selectMessages registry generated mode result.messages {} }

/-! ### When they succeed -/

variable {registry} {generated} {payload : Bytes}

theorem decodeBatch_eq_ok {batch : EventBatch Event} :
    decodeBatch registry generated payload = .ok batch ↔
      checkBatch payload = (.ok () : Except (EventError Error) Unit) ∧
        ∃ result, generated.decodeEventBatch payload = .ok result ∧
          { result.toBatchMetadata with
            events := decodeMessages registry generated result.messages {} } = batch := by
  rw [decodeBatch]
  cases (checkBatch payload : Except (EventError Error) Unit) with
  | error e => simp [bind, Except.bind]
  | ok _ =>
    cases generated.decodeEventBatch payload <;>
      simp [bind, Except.bind, pure, Except.pure, Except.mapError]

theorem decodeBatchWithMode_eq_ok {mode : DecodeMode} {batch : SelectedBatch Event} :
    decodeBatchWithMode registry generated payload mode = .ok batch ↔
      checkBatch payload = (.ok () : Except (EventError Error) Unit) ∧
        ∃ result, generated.decodeEventBatch payload = .ok result ∧
          { result.toBatchMetadata with
            events := selectMessages registry generated mode result.messages {} } = batch := by
  rw [decodeBatchWithMode]
  cases (checkBatch payload : Except (EventError Error) Unit) with
  | error e => simp [bind, Except.bind]
  | ok _ =>
    cases generated.decodeEventBatch payload <;>
      simp [bind, Except.bind, pure, Except.pure, Except.mapError]

theorem decodeBatch_refused {e : EventError Error} (h : checkBatch payload = .error e) :
    decodeBatch registry generated payload = .error e ∧
      ∀ mode, decodeBatchWithMode registry generated payload mode = .error e := by
  simp [decodeBatch, decodeBatchWithMode, h, bind, Except.bind]

end

/-- Generated code that knows one batch. -/
def knowsBatch (payload : Bytes) (result : ProtoMessageFetchResult) : Generated Unit Unit where
  decodeEventBatch p := if p = payload then .ok result else .error ()
  chat _ := .error ()
  emoteChat _ := .error ()
  gift _ := .error ()
  like _ := .error ()
  member _ := .error ()
  social _ := .error ()
  roomUser _ := .error ()

theorem knowsBatch_decodes (payload : Bytes) (result : ProtoMessageFetchResult) :
    (knowsBatch payload result).decodeEventBatch payload = .ok result :=
  if_pos rfl

end TiktokSigner.LiveEvents
