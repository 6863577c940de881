import TiktokSigner.SignCore.Wire

/-!
# `WebcastEventBatch`

The event batch of a `msg` frame and the messages in it, with the
hand-written decoders of `proto.rs`. A field of an unexpected wire type, or
a string that is not UTF-8, reads as the default; only a message that does
not parse fails the batch.
-/

namespace TiktokSigner

/-! ## `WebcastMessage` -/

/-- One embedded event from a `msg` WebSocket frame. -/
structure WebcastMessage where
  method : String := ""
  payload : Bytes := []
  messageId : UInt64 := 0
  messageType : UInt64 := 0
  offset : UInt64 := 0
  isHistory : Bool := false
deriving Repr, DecidableEq

namespace WebcastMessage

def methodField : UInt32 := 1
def payloadField : UInt32 := 2
def messageIdField : UInt32 := 3
def messageTypeField : UInt32 := 4
def offsetField : UInt32 := 5
def isHistoryField : UInt32 := 6

/-- The `match number` of `decode`. -/
def field (message : WebcastMessage) (f : WireField) : WebcastMessage :=
  if f.1 = methodField then { message with method := f.2.asStr.getD "" }
  else if f.1 = payloadField then { message with payload := f.2.asBytes.getD [] }
  else if f.1 = messageIdField then { message with messageId := f.2.asU64.getD 0 }
  else if f.1 = messageTypeField then { message with messageType := f.2.asU64.getD 0 }
  else if f.1 = offsetField then { message with offset := f.2.asU64.getD 0 }
  else if f.1 = isHistoryField then { message with isHistory := f.2.asU64.getD 0 != 0 }
  else message

def decode (buf : Bytes) : Except ProtoError WebcastMessage :=
  (Reader.items buf).foldlM (fun message f => do
    let f ← f
    pure (message.field f)) {}

end WebcastMessage

/-! ## `WebcastEventBatch` -/

/-- Event batch carried by a `PushFrame` whose `payload_type` is `msg`. -/
structure WebcastEventBatch where
  messages : List WebcastMessage := []
  cursor : String := ""
  internalExt : String := ""
  needAck : Bool := false
deriving Repr, DecidableEq

namespace WebcastEventBatch

def messagesField : UInt32 := 1
def cursorField : UInt32 := 2
def internalExtField : UInt32 := 5
def needAckField : UInt32 := 9

/-- The `match number` of `decode`. -/
def field (batch : WebcastEventBatch) (f : WireField) : Except ProtoError WebcastEventBatch :=
  if f.1 = messagesField then
    match f.2.asBytes with
    | some bytes => do
        let message ← WebcastMessage.decode bytes
        pure { batch with messages := batch.messages ++ [message] }
    | none => pure batch
  else if f.1 = cursorField then pure { batch with cursor := f.2.asStr.getD "" }
  else if f.1 = internalExtField then pure { batch with internalExt := f.2.asStr.getD "" }
  else if f.1 = needAckField then pure { batch with needAck := f.2.asU64.getD 0 != 0 }
  else pure batch

def item (batch : WebcastEventBatch) (f : Except ProtoError WireField) :
    Except ProtoError WebcastEventBatch := do
  let f ← f
  batch.field f

def decode (buf : Bytes) : Except ProtoError WebcastEventBatch :=
  (Reader.items buf).foldlM item {}

end WebcastEventBatch

end TiktokSigner
