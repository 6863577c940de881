import TiktokSigner.LiveWs.Connection
import TiktokSigner.SignCore.FrameGrammar

/-!
# Which frames are acknowledged

The specification of the replies and the proof that a session meets it. What a
frame and its batch say is read off their fields, as the grammar gives them
(`AckDue`): the last value of a field counts, the first header that names a
compression, and of the batch the last `need_ack` and the last `internal_ext`,
if every occurrence of the two has its wire type. The decoder of the frame, the
compression switch and the one-pass scan of the batch are only in the proofs.
-/

namespace TiktokSigner.LiveWs

open FrameGrammar

/-! ## The effective metadata of a batch -/

def needAckOf (field : WireField) : Option UInt64 :=
  match field with
  | (number, .varint value) => if number = needAckNumber then some value else none
  | _ => none

def internalExtOf (field : WireField) : Option String :=
  match field with
  | (number, .bytes bytes) => if number = internalExtNumber then fromUtf8 bytes else none
  | _ => none

/-- An occurrence of `need_ack` or `internal_ext` has a value. -/
def MetadataReadable (field : WireField) : Prop :=
  (field.1 = needAckNumber → (needAckOf field).isSome)
    ∧ (field.1 = internalExtNumber → (internalExtOf field).isSome)

instance (field : WireField) : Decidable (MetadataReadable field) :=
  inferInstanceAs (Decidable (_ ∧ _))

/-- The extension and `need_ack` after a field list; `acc` is what holds
before it. -/
def metadataAfter (acc : String × Bool) (fields : List WireField) : Option (String × Bool) :=
  if ∀ field ∈ fields, MetadataReadable field then
    some ((lastSome internalExtOf fields).getD acc.1,
      ((lastSome needAckOf fields).map (· != 0)).getD acc.2)
  else none

/-- The metadata of a batch, if it parses. -/
def effectiveMetadata (payload : Bytes) : Option (String × Bool) :=
  ((Reader.items payload).mapM Except.toOption).bind (metadataAfter ("", false))

theorem toOption_bind {ε α β : Type} (x : Except ε α) (f : α → Except ε β) :
    (x >>= f).toOption = x.toOption.bind fun a => (f a).toOption := by
  cases x <;> rfl

section

variable (codec : Codec)

theorem metadataField_toOption (acc : String × Bool) (field : WireField) :
    (metadataField codec acc field).toOption = metadataAfter acc [field] := by
  obtain ⟨number, value⟩ := field
  by_cases hack : number = needAckNumber
  · have hext : number ≠ internalExtNumber := by
      rw [hack]
      decide
    cases value <;> simp [metadataField, metadataAfter, MetadataReadable, lastSome, needAckOf,
      internalExtOf, hack, needAckNumber, internalExtNumber] <;> rfl
  · by_cases hext : number = internalExtNumber
    · cases value with
      | bytes bytes =>
          cases hutf : fromUtf8 bytes <;> simp [metadataField, metadataAfter, MetadataReadable,
            lastSome, needAckOf, internalExtOf, hext, needAckNumber, internalExtNumber, hutf] <;>
            rfl
      | _ =>
          simp [metadataField, metadataAfter, MetadataReadable, needAckOf, internalExtOf, hext,
            needAckNumber, internalExtNumber]
          rfl
    · cases value <;> simp [metadataField, metadataAfter, MetadataReadable, lastSome, needAckOf,
        internalExtOf, hack, hext] <;> rfl

theorem metadataAfter_cons (acc : String × Bool) (field : WireField) (fields : List WireField) :
    metadataAfter acc (field :: fields)
      = (metadataAfter acc [field]).bind fun acc => metadataAfter acc fields := by
  by_cases hfield : MetadataReadable field
  · by_cases hrest : ∀ f ∈ fields, MetadataReadable f
    · have hall : ∀ f ∈ field :: fields, MetadataReadable f :=
        List.forall_mem_cons.mpr ⟨hfield, hrest⟩
      simp only [metadataAfter, if_pos hall, if_pos hrest, List.forall_mem_singleton,
        if_pos hfield, lastSome_cons, Option.bind_some]
      cases lastSome internalExtOf fields <;> cases lastSome needAckOf fields <;> simp [lastSome]
    · have hall : ¬∀ f ∈ field :: fields, MetadataReadable f := fun h =>
        hrest (List.forall_mem_cons.mp h).2
      simp [metadataAfter, if_neg hall, if_neg hrest]
  · have hall : ¬∀ f ∈ field :: fields, MetadataReadable f := fun h =>
      hfield (List.forall_mem_cons.mp h).1
    simp [metadataAfter, hfield]

theorem mapM_toOption_cons {ε α : Type} (x : α) (items : List (Except ε α)) :
    (Except.ok x :: items).mapM Except.toOption = (items.mapM Except.toOption).map (x :: ·) := by
  rw [List.mapM_cons]
  cases items.mapM Except.toOption <;> rfl

theorem foldlM_metadataItem : ∀ (items : List (Except ProtoError WireField)) (acc : String × Bool),
    (items.foldlM (metadataItem codec) acc).toOption
      = (items.mapM Except.toOption).bind (metadataAfter acc)
  | [], acc => by simp [metadataAfter, lastSome]; rfl
  | .error e :: items, acc => by simp [metadataItem, Except.toOption]; rfl
  | .ok field :: items, acc => by
      have hitem : metadataItem codec acc (.ok field) = metadataField codec acc field := rfl
      rw [List.foldlM_cons, toOption_bind, hitem, metadataField_toOption, mapM_toOption_cons,
        Option.bind_map]
      have hcons : (metadataAfter acc ∘ (field :: ·))
          = fun fields => (metadataAfter acc [field]).bind fun acc => metadataAfter acc fields :=
        funext fun fields => metadataAfter_cons acc field fields
      rw [hcons]
      cases metadataAfter acc [field] with
      | none => simp
      | some acc' => exact foldlM_metadataItem items acc'

/-- The one-pass scan finds the effective metadata. -/
theorem batchAckMetadata_toOption (payload : Bytes) :
    (batchAckMetadata codec payload).toOption = effectiveMetadata payload :=
  foldlM_metadataItem codec (Reader.items payload) ("", false)

theorem effectiveMetadata_of_ok {payload : Bytes} {acc : String × Bool}
    (h : batchAckMetadata codec payload = .ok acc) : effectiveMetadata payload = some acc := by
  rw [← batchAckMetadata_toOption codec, h]
  rfl

theorem effectiveMetadata_of_error {payload : Bytes} {e : WsError}
    (h : batchAckMetadata codec payload = .error e) : effectiveMetadata payload = none := by
  rw [← batchAckMetadata_toOption codec, h]
  rfl

theorem mapM_toOption_eq_some {ε α : Type} {items : List (Except ε α)} {xs : List α} :
    items.mapM Except.toOption = some xs ↔ items = xs.map .ok := by
  induction items generalizing xs with
  | nil => cases xs <;> simp
  | cons item items ih =>
    cases item with
    | error e => cases xs <;> simp [List.mapM_cons, Except.toOption]
    | ok x =>
      simp only [mapM_toOption_cons, Option.map_eq_some_iff, ih]
      cases xs <;> simp [and_comm]

theorem effectiveMetadata_eq_some_iff {payload : Bytes} {acc : String × Bool} :
    effectiveMetadata payload = some acc ↔
      ∃ fields, Message fields payload ∧ metadataAfter ("", false) fields = some acc := by
  simp only [effectiveMetadata, Option.bind_eq_some_iff, mapM_toOption_eq_some, items_eq_iff]

/-! ## The specification -/

/-- What a payload is once it is unpacked. -/
inductive Unpacked : Option String → Bytes → Bytes → Prop
  | gzip {packed payload : Bytes}
      (h : codec.inflate (maxBatchBytes + 1) packed = .ok payload)
      (hlength : payload.length ≤ maxBatchBytes) : Unpacked (some "gzip") packed payload
  | plain {compressType : Option String} {packed : Bytes} (h : compressType ≠ some "gzip") :
      Unpacked compressType packed packed

/-- An ACK, as it is written. -/
def ackBytes (logId : UInt64) (extension : String) : Bytes :=
  wireBytes (u64Item PushFrame.logIdField logId
    ++ bytesItem PushFrame.payloadEncodingField (asBytes "pb")
    ++ bytesItem PushFrame.payloadTypeField (asBytes "ack")
    ++ bytesItem PushFrame.payloadField (asBytes extension))

/-- A binary frame calls for an ACK: it is a `msg` frame whose batch asks for
one, with its own `log_id` and its own batch's extension. -/
inductive AckDue (bytes : Bytes) : Bytes → Prop
  | mk {fields batch : List WireField} {compressType : Option String} {payload : Bytes}
      {extension : String} (hfields : Message fields bytes) (htype : payloadTypeOf fields = "msg")
      (hcompress : CompressType fields compressType)
      (hpayload : Unpacked codec compressType (packedOf fields) payload)
      (hbatch : Message batch payload)
      (hmetadata : metadataAfter ("", false) batch = some (extension, true)) :
      AckDue bytes (ackBytes (logIdOf fields) extension)

/-- The ACKs that a list of events calls for, in order; only binary frames can
call for one. -/
inductive Acks : List Event → List Bytes → Prop
  | nil : Acks [] []
  | due {bytes ack : Bytes} {write : Except String Unit} {events : List Event}
      {acks : List Bytes} (h : AckDue codec bytes ack) (hrest : Acks events acks) :
      Acks (.incoming (.binary bytes) write :: events) (ack :: acks)
  | silent {event : Event} {events : List Event} {acks : List Bytes}
      (h : ∀ bytes write ack, event = .incoming (.binary bytes) write → ¬AckDue codec bytes ack)
      (hrest : Acks events acks) : Acks (event :: events) acks

/-! ## What `handle_frame` makes of a frame -/

theorem mapError_eq_ok {ε ε' α : Type} {x : Except ε α} {f : ε → ε'} {a : α} :
    x.mapError f = .ok a ↔ x = .ok a := by
  cases x <;> simp [Except.mapError]

theorem gunzip_eq_ok_iff {data payload : Bytes} :
    gunzip codec data = .ok payload ↔
      codec.inflate (maxBatchBytes + 1) data = .ok payload ∧ payload.length ≤ maxBatchBytes := by
  simp only [gunzip, bind_eq_ok, mapError_eq_ok]
  constructor
  · rintro ⟨out, hout, h⟩
    split_ifs at h with hlength
    obtain rfl := Except.ok.inj h
    exact ⟨hout, Nat.le_of_not_lt hlength⟩
  · rintro ⟨hout, hlength⟩
    exact ⟨payload, hout, if_neg (Nat.not_lt.mpr hlength)⟩

theorem framePayload_eq_ok_iff {frame : PushFrame} {payload : Bytes} :
    LiveConnection.framePayload codec frame = .ok payload ↔
      Unpacked codec frame.compressType frame.payload payload := by
  by_cases hgzip : frame.compressType = some "gzip"
  · have hunzip : LiveConnection.framePayload codec frame = gunzip codec frame.payload := by
      rw [LiveConnection.framePayload, hgzip]
      rfl
    rw [hunzip, gunzip_eq_ok_iff, hgzip]
    constructor
    · rintro ⟨h, hlength⟩
      exact .gzip h hlength
    · intro h
      cases h with
      | gzip h hlength => exact ⟨h, hlength⟩
      | plain h => exact absurd rfl h
  · have hraw : LiveConnection.framePayload codec frame = .ok frame.payload := by
      rw [LiveConnection.framePayload]
      split
      case h_4 h => exact absurd h hgzip
      all_goals rfl
    rw [hraw]
    constructor
    · intro h
      obtain rfl := Except.ok.inj h
      exact .plain hgzip
    · intro h
      generalize frame.compressType = compressType at h hgzip
      cases h with
      | gzip => exact absurd rfl hgzip
      | plain => rfl

theorem encode_ackForBatch (frame : PushFrame) (extension : String) :
    (frame.ackForBatch extension).encode = ackBytes frame.logId extension := by
  have hzero : ∀ number, u64Item number 0 = [] := fun _ => rfl
  rw [PushFrame.encode_eq, ackBytes]
  simp only [PushFrame.fields, PushFrame.ackForBatch, hzero, List.flatMap_nil, List.nil_append,
    List.append_assoc]

/-- The ACK that `handle_frame` hands to the socket. -/
def ackOf (bytes : Bytes) : Option Bytes :=
  match PushFrame.decode bytes with
  | .error _ => none
  | .ok frame =>
      if frame.payloadType = "msg" then
        match LiveConnection.framePayload codec frame with
        | .error _ => none
        | .ok payload =>
            match effectiveMetadata payload with
            | some (extension, true) =>
                some (frame.ackForBatch extension).encode
            | _ => none
      else none

theorem ackOf_eq_some_iff {bytes ack : Bytes} :
    ackOf codec bytes = some ack ↔ AckDue codec bytes ack := by
  constructor
  · intro h
    rw [ackOf] at h
    split at h
    · cases h
    · rename_i frame hframe
      split_ifs at h with htype
      split at h
      · cases h
      · rename_i payload hpayload
        split at h
        · rename_i extension hmetadata
          obtain rfl := Option.some.inj h
          obtain ⟨fields, hfields, rfl⟩ := decode_eq_ok_iff.mp hframe
          obtain ⟨batch, hbatch, hmetadata⟩ := effectiveMetadata_eq_some_iff.mp hmetadata
          rw [framePayload_eq_ok_iff, payload_foldl] at hpayload
          rw [payloadType_foldl] at htype
          rw [encode_ackForBatch, logId_foldl]
          exact .mk hfields htype (compressType_iff.mp rfl) hpayload hbatch hmetadata
        · cases h
  · rintro ⟨hfields, htype, hcompress, hpayload, hbatch, hmetadata⟩
    rename_i fields batch compressType payload extension
    have hframe := decode_eq_ok_iff.mpr ⟨fields, hfields, rfl⟩
    have hpayload : LiveConnection.framePayload codec (fields.foldl PushFrame.field {})
        = .ok payload := by
      rw [framePayload_eq_ok_iff, payload_foldl, compressType_iff.mpr hcompress]
      exact hpayload
    have hmeta := effectiveMetadata_eq_some_iff.mpr ⟨batch, hbatch, hmetadata⟩
    rw [ackOf, hframe]
    simp only [payloadType_foldl, htype, if_true, hpayload, hmeta, encode_ackForBatch,
      logId_foldl]

def ackFor : Event → Option Bytes
  | .incoming (.binary bytes) _ => ackOf codec bytes
  | _ => none

/-! ## Replies -/

/-- What was written while an incoming frame was handled. -/
def Handled.reply (handled : Handled) : List Bytes :=
  match handled.event with
  | .incoming .. => handled.written
  | .tick _ => []

/-- The outcome of the write an event may lead to. -/
def Event.write : Event → Except String Unit
  | .tick write | .incoming _ write => write

namespace LiveConnection

/-- One frame: the reply is the ACK it calls for, and the flag is set on a
message only when that ACK was written. -/
theorem handleFrame_spec (self : LiveConnection) (bytes : Bytes) (write : Except String Unit) :
    (self.handleFrame codec bytes write).2.1 = (ackOf codec bytes).toList
      ∧ ∀ message, (self.handleFrame codec bytes write).2.2 = .ok (some message) →
        ((self.handleFrame codec bytes write).1.lastAckWasSent = true ↔
          write = .ok () ∧ (ackOf codec bytes).isSome) := by
  rw [handleFrame, ackOf]
  cases hframe : PushFrame.decode bytes with
  | error e => simp
  | ok frame =>
      by_cases hmsg : frame.payloadType = "msg"
      · have hmsg' : frame.isMessage = true := by rw [PushFrame.isMessage, hmsg]; rfl
        simp only [hmsg, hmsg', if_true]
        cases hpayload : framePayload codec frame with
        | error e => simp
        | ok payload =>
            dsimp only
            cases hmeta : batchAckMetadata codec payload with
            | error e => simp [effectiveMetadata_of_error codec hmeta]
            | ok acc =>
                obtain ⟨extension, needAck⟩ := acc
                simp only [effectiveMetadata_of_ok codec hmeta]
                cases needAck with
                | false => simp
                | true => cases write <;> simp [PushFrame.ackForBatch]
      · have hmsg' : frame.isMessage = false := by
          simpa [PushFrame.isMessage] using hmsg
        simp [hmsg, hmsg']

/-- One event: an incoming frame is answered by the ACK it calls for. -/
theorem handle_spec (self : LiveConnection) (event : Event) :
    (self.handle codec event).2.reply = (ackFor codec event).toList
      ∧ ∀ message, (self.handle codec event).2.returned = some (some (.ok message)) →
        ((self.handle codec event).2.ackSent = true ↔
          (self.handle codec event).2.event.write = .ok ()
            ∧ (self.handle codec event).2.reply ≠ []) := by
  cases event with
  | tick write =>
      cases write <;>
        simp [handle, onEvent, sendHeartbeat, Handled.reply, ackFor, Except.mapError]
  | incoming frame write =>
      cases frame with
      | binary bytes =>
          obtain ⟨hreply, hflag⟩ := self.handleFrame_spec codec bytes write
          have hdue : ackFor codec (.incoming (.binary bytes) write) = ackOf codec bytes := rfl
          rw [hdue]
          rcases hres : self.handleFrame codec bytes write with ⟨next, written, result⟩
          simp only [hres] at hreply hflag
          subst hreply
          cases result with
          | error e => simp [handle, onEvent, hres, Handled.reply]
          | ok delivered =>
              cases delivered with
              | none => simp [handle, onEvent, hres, Handled.reply]
              | some message =>
                  have hiff := hflag message rfl
                  rw [Option.isSome_iff_ne_none] at hiff
                  simp [handle, onEvent, hres, Handled.reply, Event.write, hiff]
      | _ => simp [handle, onEvent, Handled.reply, ackFor]

theorem handleAll_spec : ∀ (self : LiveConnection) (events : List Event),
    (self.handleAll codec events).flatMap Handled.reply = events.filterMap (ackFor codec)
      ∧ ∀ handled ∈ self.handleAll codec events, ∀ message,
        handled.returned = some (some (.ok message)) →
        (handled.ackSent = true ↔ handled.event.write = .ok () ∧ handled.reply ≠ [])
  | self, [] => by simp [handleAll]
  | self, event :: events => by
      obtain ⟨hreply, hflag⟩ := self.handle_spec codec event
      obtain ⟨hrest, hflags⟩ := handleAll_spec (self.handle codec event).1 events
      have hall : self.handleAll codec (event :: events)
          = (self.handle codec event).2 :: (self.handle codec event).1.handleAll codec events := rfl
      rw [hall, List.flatMap_cons, hreply, hrest, List.filterMap_cons]
      refine ⟨by cases ackFor codec event <;> rfl, fun handled hmem => ?_⟩
      rcases List.mem_cons.mp hmem with rfl | hmem
      · exact hflag
      · exact hflags handled hmem

end LiveConnection

theorem ackFor_eq_some_iff {event : Event} {ack : Bytes} :
    ackFor codec event = some ack ↔
      ∃ bytes write, event = .incoming (.binary bytes) write ∧ AckDue codec bytes ack := by
  unfold ackFor
  split
  · rename_i bytes write
    rw [ackOf_eq_some_iff]
    constructor
    · exact fun h => ⟨bytes, write, rfl, h⟩
    · rintro ⟨_, _, ⟨⟩, h⟩
      exact h
  · rename_i hother
    refine iff_of_false (fun h => by cases h) ?_
    rintro ⟨bytes, write, rfl, -⟩
    exact hother bytes write rfl

theorem acks_iff {events : List Event} {acks : List Bytes} :
    Acks codec events acks ↔ events.filterMap (ackFor codec) = acks := by
  constructor
  · intro h
    induction h with
    | nil => rfl
    | due h hrest ih =>
      rw [List.filterMap_cons, ih, (ackFor_eq_some_iff codec).mpr ⟨_, _, rfl, h⟩]
    | silent h hrest ih =>
      rename_i event events acks
      have hnone : ackFor codec event = none := by
        cases hack : ackFor codec event with
        | none => rfl
        | some ack =>
          obtain ⟨bytes, write, hevent, hdue⟩ := (ackFor_eq_some_iff codec).mp hack
          exact absurd hdue (h bytes write ack hevent)
      rw [List.filterMap_cons, hnone, ih]
  · rintro rfl
    induction events with
    | nil => exact .nil
    | cons event events ih =>
      rw [List.filterMap_cons]
      cases hack : ackFor codec event with
      | none =>
        refine .silent (fun bytes write ack hevent hdue => ?_) ih
        rw [(ackFor_eq_some_iff codec).mpr ⟨bytes, write, hevent, hdue⟩] at hack
        cases hack
      | some ack =>
        obtain ⟨bytes, write, rfl, hdue⟩ := (ackFor_eq_some_iff codec).mp hack
        exact .due hdue ih

/-- For every sequence of frames and write outcomes: the replies are
exactly the ACKs called for, in order, and a message is reported as
acknowledged just when its ACK was written and the write succeeded. -/
theorem replies_are_acks (conn : LiveConnection) (events : List Event) :
    (∀ acks, Acks codec events acks ↔
        (conn.session codec events).flatMap Handled.reply = acks)
      ∧ ∀ handled ∈ conn.session codec events, ∀ message,
        handled.returned = some (some (.ok message)) →
        (handled.ackSent = true ↔ handled.event.write = .ok () ∧ handled.reply ≠ []) := by
  rw [LiveConnection.session_eq]
  obtain ⟨hreplies, hflags⟩ := conn.handleAll_spec codec events
  refine ⟨fun acks => ?_, hflags⟩
  rw [acks_iff, hreplies]

end

/-! ## A compressed batch -/

/-- A batch that asks for an ACK and carries an extension. -/
def sampleBatch : List WireField := [(5, .bytes (asBytes "ext-1")), (9, .varint 1)]

/-- The gzip stream of its bytes. -/
def sampleStream : Bytes :=
  [31, 139, 8, 0, 0, 0, 0, 0, 4, 3, 1, 9, 0, 246, 255, 42, 5, 101, 120, 116, 45, 49, 72, 1, 201,
    181, 205, 179, 9, 0, 0, 0]

/-- Inflation, as far as the sample needs it. -/
def sampleCodec : Codec where
  inflate limit data :=
    if data = sampleStream then .ok ((wireBytes sampleBatch).take limit)
    else .error "invalid gzip header"
  utf8Error _ := "invalid utf-8 sequence"

def sampleFrame : PushFrame :=
  { logId := 7, headers := [("compress_type", "gzip")], payloadType := "msg",
    payload := sampleStream }

/-- A frame whose batch asks for an ACK and carries no extension. -/
def plainFrame : PushFrame :=
  { logId := 8, payloadType := "msg", payload := wireBytes [(9, .varint 1)] }

/-- A heartbeat, a compressed batch, a text frame, a frame that is cut short, and
a batch whose ACK cannot be written. -/
def sampleEvents : List Event :=
  [.tick (.ok ()), .incoming (.binary sampleFrame.encode) (.ok ()), .incoming .other (.ok ()),
    .incoming (.binary sampleFrame.encode.dropLast) (.ok ()),
    .incoming (.binary plainFrame.encode) (.error "broken pipe")]

def sampleConnection : LiveConnection := { internalExt := "ext-0", roomId := 1 }

/-- Two batches are acknowledged, each with its own extension; only the first is
reported so. -/
theorem replies_are_acks_gzip :
    (sampleConnection.session sampleCodec sampleEvents).flatMap Handled.reply
        = [ackBytes 7 "ext-1", ackBytes 8 ""]
      ∧ Acks sampleCodec sampleEvents [ackBytes 7 "ext-1", ackBytes 8 ""]
      ∧ ∀ handled ∈ sampleConnection.session sampleCodec sampleEvents, ∀ message,
        handled.returned = some (some (.ok message)) → handled.ackSent = true →
        handled.event.write = .ok () := by
  obtain ⟨hacks, hflags⟩ := replies_are_acks sampleCodec sampleConnection sampleEvents
  have hreplies : (sampleConnection.session sampleCodec sampleEvents).flatMap Handled.reply
      = [ackBytes 7 "ext-1", ackBytes 8 ""] := by
    rw [LiveConnection.session_eq]
    decide +kernel
  refine ⟨hreplies, (hacks _).mpr hreplies, fun handled hmem message hreturned hsent => ?_⟩
  exact ((hflags handled hmem message hreturned).mp hsent).1

end TiktokSigner.LiveWs
