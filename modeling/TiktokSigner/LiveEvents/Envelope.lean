import TiktokSigner.LiveEvents.Modes
import TiktokSigner.LiveEvents.Normalize
import TiktokSigner.LiveEvents.ScanDemand

/-!
# Envelopes and their serialised form

`decode_event_envelope` and the serde form of an event. Serialising keeps
the raw envelope and the event; reading it back decodes the raw payload
again, on a fresh budget, and puts the old event in unless the schema view
is cut short. The status is the fresh decoder's.

So the round trip keeps the status exactly where the fresh decoder agrees
with the one that made the event: the payload was within the event limit,
and the wire budget of its batch lasted.
-/

namespace TiktokSigner.LiveEvents

open LiveProto Metering

/-! ## Decoding one envelope -/

section

variable {Event Error : Type} (registry : Registry) (generated : Generated Event Error)

def decodeEventEnvelope (method : String) (msgId : UInt64) (isHistory : Bool) (payload : Bytes) :
    DecodedEvent Event :=
  (decodeEnvelopeBudget registry generated method msgId isHistory payload
    { schema := 4096, wire := 4096 }).1

/-- The issue of a payload: its size first, then what the scan reports. -/
def envelopeIssue (method : String) (payload : Bytes) (wire : Nat) : Option NormalizationStatus :=
  if maxEventBytes < payload.length then some .payloadLimit
  else (preflightEvent registry method (payload.take maxEventBytes) wire).1

variable {registry} {generated} {method : String} {msgId : UInt64} {isHistory : Bool}
variable {payload : Bytes} {budgets : Budgets}

variable (registry generated method msgId isHistory payload budgets) in
/-- The event and its status come from the payload's issue. -/
theorem decodeEnvelopeBudget_verdict :
    let decoded := decodeEnvelopeBudget registry generated method msgId isHistory payload budgets
    let checked := normalizeChecked generated method (payload.take maxEventBytes)
      (envelopeIssue registry method payload budgets.wire)
    decoded.1.event = checked.1.getD (.unknown method (payload.take maxEventBytes)) ∧
      decoded.1.normalizationStatus = checked.2 := by
  simp only [decodeEnvelopeBudget, envelopeIssue, decide_eq_true_eq, and_self]

theorem decodeEnvelopeBudget_raw :
    (decodeEnvelopeBudget registry generated method msgId isHistory payload budgets).1.raw =
      { method, msgId, payload := payload.take maxEventBytes, isHistory } := rfl

theorem decodeEnvelopeBudget_wire :
    (decodeEnvelopeBudget registry generated method msgId isHistory payload budgets).2.wire =
      budgets.wire - min (min budgets.wire maxSchemaFields)
        (wireDemand registry method (payload.take maxEventBytes)).cost :=
  preflightEvent_left

/-- An event within the limits: its payload is whole and the wire budget
lasts, or ends with the event's own. -/
def Covered (registry : Registry) (method : String) (payload : Bytes) (wire : Nat) : Prop :=
  payload.length ≤ maxEventBytes ∧
    min maxSchemaFields (wireDemand registry method (payload.take maxEventBytes)).needed ≤ wire

/-- A fresh budget lasts. -/
theorem covered_fresh : Covered registry method payload 4096 ↔ payload.length ≤ maxEventBytes :=
  and_iff_left (Nat.min_le_left _ _)

/-- Within the limits the verdict does not depend on the budget. -/
theorem envelopeIssue_of_covered {wire : Nat} (h : Covered registry method payload wire) :
    envelopeIssue registry method payload wire = envelopeIssue registry method payload 4096 := by
  have hfresh : ¬4096 < min maxSchemaFields
      (wireDemand registry method (payload.take maxEventBytes)).needed :=
    Nat.not_lt.mpr (Nat.min_le_left _ _)
  rw [envelopeIssue, envelopeIssue, preflightEvent_verdict, preflightEvent_verdict,
    if_neg (Nat.not_lt.mpr h.2), if_neg hfresh]

/-- Beyond them it is one that no fresh decoder gives. -/
theorem envelopeIssue_of_not_covered {wire : Nat} (h : ¬Covered registry method payload wire) :
    envelopeIssue registry method payload wire = some .payloadLimit ∨
      envelopeIssue registry method payload wire = some .batchFieldLimit := by
  unfold envelopeIssue
  split_ifs with hlong
  · exact Or.inl rfl
  · have hshort : wire < min maxSchemaFields
        (wireDemand registry method (payload.take maxEventBytes)).needed :=
      Nat.lt_of_not_le fun hle => h ⟨Nat.le_of_not_lt hlong, hle⟩
    rw [preflightEvent_verdict, if_pos hshort]
    exact Or.inr rfl

/-- What a fresh decoder finds in a payload within the event limit. -/
theorem envelopeIssue_fresh (hlength : payload.length ≤ maxEventBytes)
    {issue : NormalizationStatus}
    (h : envelopeIssue registry method payload 4096 = some issue) :
    issue = .fieldLimit ∨ ∃ scanIssue : ScanIssue, scanIssue.report = issue := by
  have hfresh : ¬4096 < min maxSchemaFields
      (wireDemand registry method (payload.take maxEventBytes)).needed :=
    Nat.not_lt.mpr (Nat.min_le_left _ _)
  rw [envelopeIssue, if_neg (Nat.not_lt.mpr hlength), preflightEvent_verdict, if_neg hfresh] at h
  split_ifs at h
  · exact Or.inl (Option.some.inj h).symm
  · obtain ⟨scanIssue, -, hreport⟩ := Option.map_eq_some_iff.mp h
    exact Or.inr ⟨scanIssue, hreport⟩

theorem envelopeIssue_ne_normalized (wire : Nat) :
    envelopeIssue registry method payload wire ≠ some .normalized := by
  intro h
  by_cases hcovered : Covered registry method payload wire
  · rw [envelopeIssue_of_covered hcovered] at h
    rcases envelopeIssue_fresh hcovered.1 h with h | ⟨scanIssue, h⟩
    · cases h
    · cases scanIssue <;> cases h
  · rcases envelopeIssue_of_not_covered hcovered with h' | h' <;> rw [h'] at h <;> cases h

end

/-! ## The serialised form -/

/-- A serde format: documents that give back what was written. -/
structure Serde (Event : Type) where
  Document : Type
  write : RawEvent → LiveEvent Event → Document
  read : Document → Option (RawEvent × LiveEvent Event)
  read_write : ∀ raw event, read (write raw event) = some (raw, event)

section

variable {Event Error : Type} (registry : Registry) (generated : Generated Event Error)
variable (serde : Serde Event)

/-- `Serialize for DecodedEvent`: schema, status and timestamp are skipped. -/
def serialize (decoded : DecodedEvent Event) : serde.Document :=
  serde.write decoded.raw decoded.event

/-- `Deserialize for DecodedEvent`. -/
def deserialize (document : serde.Document) : Option (DecodedEvent Event) :=
  (serde.read document).map fun (raw, event) =>
    let decoded :=
      decodeEventEnvelope registry generated raw.method raw.msgId raw.isHistory raw.payload
    if decoded.schema.truncated then decoded else { decoded with event }

/-- The raw payload decoded again. -/
def fresh (decoded : DecodedEvent Event) : DecodedEvent Event :=
  decodeEventEnvelope registry generated decoded.raw.method decoded.raw.msgId
    decoded.raw.isHistory decoded.raw.payload

/-- What the serialised form of an event is read back as. -/
def reread (decoded : DecodedEvent Event) : DecodedEvent Event :=
  if (fresh registry generated decoded).schema.truncated then fresh registry generated decoded
  else { fresh registry generated decoded with event := decoded.event }

theorem deserialize_serialize (decoded : DecodedEvent Event) :
    deserialize registry generated serde (serialize serde decoded) =
      some (reread registry generated decoded) := by
  rw [deserialize, serialize, serde.read_write]
  rfl

/-- An event, or what it becomes over any number of round trips. -/
inductive Copy : DecodedEvent Event → DecodedEvent Event → Prop where
  | self (decoded : DecodedEvent Event) : Copy decoded decoded
  | again {decoded copy next : DecodedEvent Event} (hcopy : Copy decoded copy)
      (hnext : deserialize registry generated serde (serialize serde copy) = some next) :
      Copy decoded next

/-- The status says whether the event is typed. -/
def Truthful (event : LiveEvent Event) (status : NormalizationStatus) : Prop :=
  status = .normalized ↔ event.isUnknown = false

/-- Every copy is truthful and can be read back as it is. -/
structure StatusLasts (decoded : DecodedEvent Event) : Prop where
  truthful : ∀ copy, Copy registry generated serde decoded copy →
    Truthful copy.event copy.normalizationStatus
  roundTrip : ∀ copy, Copy registry generated serde decoded copy →
    ∃ next, deserialize registry generated serde (serialize serde copy) = some next ∧
      next.raw = copy.raw ∧ next.event = copy.event ∧
      next.normalizationStatus = copy.normalizationStatus

end

/-! ## When the status lasts -/

section

variable {Error : Type} {registry : Registry} {prost : Prost Error} {serde : Serde StableEvent}
variable {method : String} {msgId : UInt64} {isHistory : Bool} {payload : Bytes}
variable {budgets : Budgets}

variable (registry prost method msgId isHistory payload budgets) in
theorem decoded_truthful :
    let decoded := decodeEnvelopeBudget registry prost.generated method msgId isHistory payload
      budgets
    Truthful decoded.1.event decoded.1.normalizationStatus := by
  obtain ⟨hevent, hstatus⟩ :=
    decodeEnvelopeBudget_verdict registry prost.generated method msgId isHistory payload budgets
  rw [Truthful, hevent, hstatus]
  exact normalizeChecked_truthful (envelopeIssue_ne_normalized _)

/-- A fresh decoder agrees with the event and its status. -/
structure Settled (registry : Registry) (prost : Prost Error) (decoded : DecodedEvent StableEvent) :
    Prop where
  event : (fresh registry prost.generated decoded).event = decoded.event
  status : (fresh registry prost.generated decoded).normalizationStatus =
    decoded.normalizationStatus
  length : decoded.raw.payload.length ≤ maxEventBytes

theorem reread_status (decoded : DecodedEvent StableEvent) :
    (reread registry prost.generated decoded).normalizationStatus =
      (fresh registry prost.generated decoded).normalizationStatus := by
  unfold reread
  split_ifs <;> rfl

/-- Reading back a settled event changes none of the three. -/
theorem Settled.reread_eq {decoded : DecodedEvent StableEvent}
    (h : Settled registry prost decoded) :
    (reread registry prost.generated decoded).raw = decoded.raw ∧
      (reread registry prost.generated decoded).event = decoded.event ∧
      (reread registry prost.generated decoded).normalizationStatus =
        decoded.normalizationStatus := by
  have hraw : (fresh registry prost.generated decoded).raw = decoded.raw := by
    rw [fresh, decodeEventEnvelope, decodeEnvelopeBudget_raw, List.take_of_length_le h.length]
  refine ⟨?_, ?_, (reread_status decoded).trans h.status⟩
  · unfold reread
    split_ifs <;> exact hraw
  · unfold reread
    split_ifs
    · exact h.event
    · rfl

theorem Settled.congr {decoded copy : DecodedEvent StableEvent}
    (h : Settled registry prost decoded) (hraw : copy.raw = decoded.raw)
    (hevent : copy.event = decoded.event)
    (hstatus : copy.normalizationStatus = decoded.normalizationStatus) :
    Settled registry prost copy := by
  have hfresh : fresh registry prost.generated copy = fresh registry prost.generated decoded := by
    rw [fresh, fresh, hraw]
  exact ⟨by rw [hfresh, hevent]; exact h.event, by rw [hfresh, hstatus]; exact h.status,
    by rw [hraw]; exact h.length⟩

/-- All copies of a settled event are alike. -/
theorem Settled.copy {decoded copy : DecodedEvent StableEvent}
    (h : Settled registry prost decoded) (hcopy : Copy registry prost.generated serde decoded copy) :
    copy.raw = decoded.raw ∧ copy.event = decoded.event ∧
      copy.normalizationStatus = decoded.normalizationStatus := by
  induction hcopy with
  | self => exact ⟨rfl, rfl, rfl⟩
  | again hcopy hnext ih =>
    obtain ⟨hraw, hevent, hstatus⟩ := ih
    have hsettled := h.congr hraw hevent hstatus
    rw [deserialize_serialize, Option.some.injEq] at hnext
    subst hnext
    obtain ⟨hraw', hevent', hstatus'⟩ := hsettled.reread_eq
    exact ⟨hraw'.trans hraw, hevent'.trans hevent, hstatus'.trans hstatus⟩

theorem settled_of_covered (h : Covered registry method payload budgets.wire) :
    Settled registry prost
      (decodeEnvelopeBudget registry prost.generated method msgId isHistory payload budgets).1 := by
  have htake : (payload.take maxEventBytes).take maxEventBytes = payload.take maxEventBytes := by
    rw [List.take_take, Nat.min_self]
  have hissue : envelopeIssue registry method (payload.take maxEventBytes) 4096 =
      envelopeIssue registry method payload budgets.wire := by
    rw [List.take_of_length_le h.1, envelopeIssue_of_covered h]
  obtain ⟨hevent, hstatus⟩ :=
    decodeEnvelopeBudget_verdict registry prost.generated method msgId isHistory payload budgets
  obtain ⟨hevent', hstatus'⟩ :=
    decodeEnvelopeBudget_verdict registry prost.generated method msgId isHistory
      (payload.take maxEventBytes) { schema := 4096, wire := 4096 }
  rw [htake, hissue] at hevent' hstatus'
  exact ⟨hevent'.trans hevent.symm, hstatus'.trans hstatus.symm, List.length_take_le _ _⟩

/-- The status of an event beyond the limits is one that a fresh decoder of
its payload does not give. -/
theorem reread_status_ne (h : ¬Covered registry method payload budgets.wire) :
    let decoded := (decodeEnvelopeBudget registry prost.generated method msgId isHistory payload
      budgets).1
    (reread registry prost.generated decoded).normalizationStatus ≠
      decoded.normalizationStatus := by
  intro decoded hsame
  have hlength : (payload.take maxEventBytes).length ≤ maxEventBytes := List.length_take_le _ _
  have hstatus : decoded.normalizationStatus = _ := 
    (decodeEnvelopeBudget_verdict registry prost.generated method msgId isHistory payload budgets).2
  have hfresh := (decodeEnvelopeBudget_verdict registry prost.generated method msgId isHistory
    (payload.take maxEventBytes) { schema := 4096, wire := 4096 }).2
  rw [reread_status] at hsame
  have hchecked : (normalizeChecked prost.generated method
      ((payload.take maxEventBytes).take maxEventBytes)
      (envelopeIssue registry method (payload.take maxEventBytes) 4096)).2 =
        decoded.normalizationStatus := hfresh.symm.trans hsame
  cases hissue : envelopeIssue registry method (payload.take maxEventBytes) 4096 with
  | none =>
    have hwire : (normalizeChecked prost.generated method
        ((payload.take maxEventBytes).take maxEventBytes) none).2.isWireIssue = false :=
      normalizeChecked_status _ _
    rw [hissue] at hchecked
    rw [hchecked, hstatus] at hwire
    rcases envelopeIssue_of_not_covered h with h' | h' <;> rw [h'] at hwire <;> cases hwire
  | some issue =>
    rw [hissue, normalizeChecked_issue, hstatus] at hchecked
    rcases envelopeIssue_fresh hlength hissue with hlimit | ⟨scanIssue, hreport⟩
    · subst hlimit
      rcases envelopeIssue_of_not_covered h with h' | h' <;> rw [h'] at hchecked <;> cases hchecked
    · subst hreport
      rcases envelopeIssue_of_not_covered h with h' | h' <;> rw [h'] at hchecked <;>
        cases scanIssue <;> cases hchecked

/-- The status of an event lasts exactly within the limits. -/
theorem statusLasts_iff :
    StatusLasts registry prost.generated serde
        (decodeEnvelopeBudget registry prost.generated method msgId isHistory payload budgets).1 ↔
      Covered registry method payload budgets.wire := by
  constructor
  · intro hlasts
    by_contra hcovered
    obtain ⟨next, hnext, -, -, hstatus⟩ := hlasts.roundTrip _ (.self _)
    rw [deserialize_serialize, Option.some.injEq] at hnext
    subst hnext
    exact reread_status_ne hcovered hstatus
  · intro hcovered
    have hsettled : Settled registry prost (decodeEnvelopeBudget registry prost.generated method
      msgId isHistory payload budgets).1 := settled_of_covered hcovered
    constructor
    · intro copy hcopy
      obtain ⟨-, hevent, hstatus⟩ := hsettled.copy hcopy
      rw [hevent, hstatus]
      exact decoded_truthful registry prost method msgId isHistory payload budgets
    · intro copy hcopy
      obtain ⟨hraw, hevent, hstatus⟩ := hsettled.copy hcopy
      obtain ⟨hraw', hevent', hstatus'⟩ := hsettled.copy
        (hcopy.again (deserialize_serialize registry prost.generated serde copy))
      exact ⟨_, deserialize_serialize _ _ _ _, hraw'.trans hraw.symm, hevent'.trans hevent.symm,
        hstatus'.trans hstatus.symm⟩

theorem envelope_statusLasts_iff :
    StatusLasts registry prost.generated serde
        (decodeEventEnvelope registry prost.generated method msgId isHistory payload) ↔
      payload.length ≤ maxEventBytes :=
  statusLasts_iff.trans covered_fresh

end

/-! ## Over a batch -/

/-- Every message is within the limits, with the wire budget that the
earlier ones leave. -/
def AllCovered (registry : Registry) : List BaseProtoMessage → Nat → Prop
  | [], _ => True
  | message :: messages, wire =>
      Covered registry message.method message.payload wire ∧
        AllCovered registry messages
          (wire - min (min wire maxSchemaFields)
            (wireDemand registry message.method (message.payload.take maxEventBytes)).cost)

section

variable {Error : Type} {registry : Registry} {prost : Prost Error} {serde : Serde StableEvent}

theorem allStatusesLast_iff : ∀ (messages : List BaseProtoMessage) (budgets : Budgets),
    (∀ decoded ∈ decodeMessages registry prost.generated messages budgets,
        StatusLasts registry prost.generated serde decoded) ↔
      AllCovered registry messages budgets.wire
  | [], _ => by simp [decodeMessages, AllCovered]
  | message :: messages, budgets => by
      rw [decodeMessages_cons, List.forall_mem_cons, allStatusesLast_iff messages, AllCovered,
        decodeMessage, statusLasts_iff, decodeEnvelopeBudget_wire]

theorem selected_truthful {mode : DecodeMode} (hmode : mode = .full ∨ mode = .normalized)
    (message : BaseProtoMessage) (budgets : Budgets) :
    let selected := (selectMessage registry prost.generated mode message budgets).1
    ∃ event, selected.event = some event ∧ Truthful event selected.normalizationStatus := by
  intro selected
  have htruthful := decoded_truthful registry prost message.method message.msgId.toUInt64
    message.isHistory message.payload budgets
  have hfull : IsFull (decodeMessage registry prost.generated message budgets).1
      (selectMessage registry prost.generated .full message budgets).1 :=
    (select_full message budgets).1
  rcases hmode with rfl | rfl
  · exact ⟨_, hfull.event, hfull.status ▸ htruthful⟩
  · have hprojects : Projects .normalized
        (selectMessage registry prost.generated .full message budgets).1
        (selectMessage registry prost.generated .normalized message budgets).1 :=
      select_projects .normalized message rfl fun h => nomatch h
    obtain ⟨hevent, hstatus⟩ := hprojects.event rfl
    exact ⟨_, hevent.trans hfull.event, (hstatus.trans hfull.status) ▸ htruthful⟩

theorem selectMessages_truthful {mode : DecodeMode} (hmode : mode = .full ∨ mode = .normalized) :
    ∀ (messages : List BaseProtoMessage) (budgets : Budgets),
      ∀ selected ∈ selectMessages registry prost.generated mode messages budgets,
        ∃ event, selected.event = some event ∧ Truthful event selected.normalizationStatus
  | [], _ => by simp [selectMessages]
  | message :: messages, budgets => by
      rw [selectMessages_cons, List.forall_mem_cons]
      exact ⟨selected_truthful hmode message budgets, selectMessages_truthful hmode messages _⟩

end

/-- Selected events are truthful. A decoded event keeps its status over
round trips exactly within the limits. -/
theorem normalization_status_truthful_iff {Error : Type} (registry : Registry)
    (prost : Prost Error) (serde : Serde StableEvent) (payload : Bytes) (method : String)
    (msgId : UInt64) (isHistory : Bool) :
    ((∀ batch, decodeBatch registry prost.generated payload = .ok batch →
          ∀ decoded ∈ batch.events, StatusLasts registry prost.generated serde decoded) ↔
        ∀ result, checkBatch payload = (.ok () : Except (EventError Error) Unit) →
          prost.decodeEventBatch payload = .ok result →
          AllCovered registry result.messages 65536) ∧
      (StatusLasts registry prost.generated serde
          (decodeEventEnvelope registry prost.generated method msgId isHistory payload) ↔
        payload.length ≤ maxEventBytes) ∧
      ∀ mode, mode = .full ∨ mode = .normalized →
        ∀ batch, decodeBatchWithMode registry prost.generated payload mode = .ok batch →
          ∀ selected ∈ batch.events, ∃ event, selected.event = some event ∧
            Truthful event selected.normalizationStatus := by
  refine ⟨⟨?_, ?_⟩, envelope_statusLasts_iff, ?_⟩
  · intro hlasts result hcheck hdecode
    exact (allStatusesLast_iff result.messages {}).mp
      (hlasts _ (decodeBatch_eq_ok.mpr ⟨hcheck, result, hdecode, rfl⟩))
  · intro hcovered batch hbatch
    obtain ⟨hcheck, result, hdecode, rfl⟩ := decodeBatch_eq_ok.mp hbatch
    exact (allStatusesLast_iff result.messages {}).mpr (hcovered result hcheck hdecode)
  · intro mode hmode batch hbatch
    obtain ⟨-, result, -, rfl⟩ := decodeBatchWithMode_eq_ok.mp hbatch
    exact selectMessages_truthful hmode result.messages {}

/-! ## An event too long -/

/-- Decoders that find nothing in any payload. -/
def emptyProst : Prost Unit where
  decodeEventBatch _ := .ok { messages := [] }
  chat _ := .ok {}
  emoteChat _ := .ok {}
  gift _ := .ok {}
  like _ := .ok {}
  member _ := .ok {}
  social _ := .ok {}
  roomUser _ := .ok {}
  parseUrl _ := none

/-- A format that keeps what it is given. -/
def plainSerde : Serde StableEvent where
  Document := RawEvent × LiveEvent StableEvent
  write raw event := (raw, event)
  read document := some document
  read_write _ _ := rfl

/-- One byte beyond the event limit. -/
def longPayload : Bytes := List.replicate (maxEventBytes + 1) 0

theorem longPayload_length : longPayload.length = maxEventBytes + 1 := List.length_replicate

theorem long_event_forgets_limit :
    ¬StatusLasts ⟨[], []⟩ emptyProst.generated plainSerde
      (decodeEventEnvelope ⟨[], []⟩ emptyProst.generated "WebcastLikeMessage" 1 false
        longPayload) := by
  rw [envelope_statusLasts_iff, longPayload_length]
  exact Nat.not_succ_le_self _

end TiktokSigner.LiveEvents
