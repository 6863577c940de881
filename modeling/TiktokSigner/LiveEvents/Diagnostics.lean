import TiktokSigner.Lib.CappedTally
import TiktokSigner.LiveEvents.Social

/-!
# Diagnostics and the audit report

`diagnostics.rs`: what an event's schema tree does not know, and the
bounded report that counts it over the batches of a session. The maps of a
method have caps, with a counter for what is beyond; `entry(k).or_default()
+= 1` is `Tally.add`. Counters are natural numbers.

`event.diagnostics()` and `wire_emote_entries` are recomputed for every
event; nothing of an event is kept but the counts.
-/

namespace TiktokSigner.LiveEvents

open LiveProto

/-! ## Diagnostics of an event -/

structure UnknownField where
  path : List UInt32
  wireType : UInt8
deriving DecidableEq

structure UnknownEnum where
  path : List UInt32
  enumType : String
  number : Int32
deriving DecidableEq

structure EventDiagnostics where
  normalization : NormalizationStatus
  schemaKnown : Bool
  schemaTruncated : Bool
  schemaWarning : Bool
  unknownFields : List UnknownField
  unknownEnums : List UnknownEnum
  absentFields : List String
  presenceComplete : Bool

mutual

/-- The fields and enum values without a name, in wire order. -/
def visit (path : List UInt32) : List SchemaField → List UnknownField × List UnknownEnum
  | [] => ([], [])
  | ⟨number, _, value, descriptor, wireType, _⟩ :: fields =>
      let path' := path ++ [number]
      let unknown : List UnknownField := if descriptor.isNone then [⟨path', wireType⟩] else []
      let nested := value.visit path'
      let rest := visit path fields
      (unknown ++ nested.1 ++ rest.1, nested.2 ++ rest.2)

def SchemaValue.visit (path : List UInt32) : SchemaValue → List UnknownField × List UnknownEnum
  | .message ⟨_, fields, _, _⟩ => LiveEvents.visit path fields
  | .enum number none enumType => ([], [⟨path, enumType, number⟩])
  | _ => ([], [])

end

/-- `eq_ignore_ascii_case`. -/
def eqIgnoreAsciiCase (a b : String) : Bool := a.toList.map Char.toLower == b.toList.map Char.toLower

def findField (fields : List SchemaField) (name : String) : Option SchemaField :=
  fields.find? fun field => field.name.any (eqIgnoreAsciiCase · name)

/-- The top-level fields whose presence is observed. -/
def observedFields (method : String) : List String :=
  match method with
  | "WebcastChatMessage" => ["user", "content"]
  | "WebcastEmoteChatMessage" => ["user", "emote_list"]
  | "WebcastGiftMessage" => ["user", "gift_id", "gift", "repeat_count"]
  | "WebcastLikeMessage" => ["user", "count", "total"]
  | "WebcastMemberMessage" => ["user"]
  | "WebcastSocialMessage" => ["user", "action"]
  | _ => []

namespace DecodedEvent

variable {Event : Type} (self : DecodedEvent Event)

def method : String := self.raw.method

/-- The loop of `wire_emote_entries`: at most `left` fields are read. -/
def countEntries (target : UInt32) (complete : Bool) :
    Nat → Nat → List (Except ProtoError WireField) → Nat × Bool
  | 0, entries, fields => (entries, complete && fields.isEmpty)
  | _ + 1, entries, [] => (entries, complete)
  | _ + 1, entries, .error _ :: _ => (entries, false)
  | left + 1, entries, .ok (number, .bytes _) :: fields =>
      countEntries target complete left (if number = target then entries + 1 else entries) fields
  | left + 1, entries, .ok _ :: fields => countEntries target complete left entries fields

/-- The name of the pinned emote field. -/
def emoteField : Option String :=
  match self.method with
  | "WebcastChatMessage" => some "emotes"
  | "WebcastEmoteChatMessage" => some "emote_list"
  | _ => none

def wireEmoteEntries : Option (Nat × Bool) := do
  let name ← self.emoteField
  let schema ← self.schema.schema
  let field ← schema.fields.find? fun field => field.name == name
  let payloadComplete := self.normalizationStatus != .payloadLimit
  pure (countEntries field.number payloadComplete 4096 0 (Reader.items self.raw.payload))

/-- A truncated schema cannot prove absence. -/
def diagnostics : EventDiagnostics :=
  let (unknownFields, unknownEnums) := visit [] self.schema.fields
  let presenceComplete := !self.schema.truncated && !self.schema.warning
  { normalization := self.normalizationStatus
    schemaKnown := self.schema.schema.isSome
    schemaTruncated := self.schema.truncated
    schemaWarning := self.schema.warning
    unknownFields
    unknownEnums
    absentFields :=
      if presenceComplete then
        (observedFields self.method).filter fun name =>
          (findField self.schema.fields name).isNone
      else []
    presenceComplete }

end DecodedEvent

/-! ## The report -/

abbrev Counts (κ : Type) := AList fun _ : κ => Nat

structure MethodAudit where
  events : Nat := 0
  emotes : Nat := 0
  eventsWithEmotes : Nat := 0
  wireEmoteEntries : Nat := 0
  incompleteWireEmotePresence : Nat := 0
  normalization : Counts NormalizationStatus := ∅
  unknownSchema : Nat := 0
  truncatedSchema : Nat := 0
  warnings : Nat := 0
  incompletePresence : Nat := 0
  absentFields : Counts String := ∅
  unknownFields : Counts String := ∅
  untrackedFields : Nat := 0
  unknownEnums : Counts String := ∅
  untrackedEnums : Nat := 0
  unclassifiedSocialActions : Counts Int64 := ∅
  untrackedSocialActions : Nat := 0

structure AuditReport where
  batches : Nat := 0
  events : Nat := 0
  untrackedMethods : Nat := 0
  methods : AList fun _ : String => MethodAudit := ∅

/-- `path.iter().map(u32::to_string).collect().join(".")`. -/
def joinPath (path : List UInt32) : String := ".".intercalate (path.map fun n => toString n.toNat)

def UnknownField.key (field : UnknownField) : String :=
  joinPath field.path ++ ":wire" ++ toString field.wireType.toNat

def UnknownEnum.key (field : UnknownEnum) : String :=
  joinPath field.path ++ ":" ++ field.enumType ++ "=" ++ toString field.number.toInt

/-- Collected into a `BTreeSet`: each key once, in ascending order. -/
def collect (keys : List String) : List String := keys.dedup.mergeSort fun a b => decide (a ≤ b)

def maxMethods : Nat := 256
def maxMethodBytes : Nat := 256
def maxUnknownKeys : Nat := 1024
def maxSocialActions : Nat := 128

/-- The emotes of a chat. -/
def LiveEvent.emotes : LiveEvent StableEvent → Nat
  | .event (.chat chat) => chat.emotes.length
  | .event (.emoteChat chat) => chat.emotes.length
  | _ => 0

/-- The action of a social event that `classify` does not know. -/
def LiveEvent.unclassifiedAction : LiveEvent StableEvent → Option Int64
  | .event (.social social) =>
      match social.classify.kind with
      | .other | .unknown => some social.action
      | .follow | .share => none
  | _ => none

namespace MethodAudit

/-- What an event adds to the audit of its method. -/
def observe (self : MethodAudit) (event : DecodedEvent StableEvent) : MethodAudit :=
  let diagnostics := event.diagnostics
  let emotes := event.event.emotes
  let (wireEntries, wireComplete) := event.wireEmoteEntries.getD (0, true)
  let social := event.event.unclassifiedAction.toList.foldl (CappedTally.add maxSocialActions)
    (self.unclassifiedSocialActions, self.untrackedSocialActions)
  let enums := (collect (diagnostics.unknownEnums.map (·.key))).foldl
    (CappedTally.add maxUnknownKeys) (self.unknownEnums, self.untrackedEnums)
  let fields := (collect (diagnostics.unknownFields.map (·.key))).foldl
    (CappedTally.add maxUnknownKeys) (self.unknownFields, self.untrackedFields)
  { events := self.events + 1
    emotes := self.emotes + emotes
    eventsWithEmotes := self.eventsWithEmotes + (decide (0 < emotes)).toNat
    wireEmoteEntries := self.wireEmoteEntries + wireEntries
    incompleteWireEmotePresence := self.incompleteWireEmotePresence + (!wireComplete).toNat
    normalization := Tally.add self.normalization diagnostics.normalization
    unknownSchema := self.unknownSchema + (!diagnostics.schemaKnown).toNat
    truncatedSchema := self.truncatedSchema + diagnostics.schemaTruncated.toNat
    warnings := self.warnings + diagnostics.schemaWarning.toNat
    incompletePresence := self.incompletePresence + (!diagnostics.presenceComplete).toNat
    absentFields := diagnostics.absentFields.foldl Tally.add self.absentFields
    unknownFields := fields.1
    untrackedFields := fields.2
    unknownEnums := enums.1
    untrackedEnums := enums.2
    unclassifiedSocialActions := social.1
    untrackedSocialActions := social.2 }

end MethodAudit

namespace AuditReport

/-- Too long a method, or a new one beyond the cap. -/
def Untracked (self : AuditReport) (method : String) : Prop :=
  maxMethodBytes < method.utf8ByteSize
    ∨ method ∉ self.methods ∧ maxMethods ≤ self.methods.keys.length

instance (self : AuditReport) (method : String) : Decidable (self.Untracked method) :=
  inferInstanceAs (Decidable (_ ∨ _))

/-- One turn of the loop over the events. -/
def observeEvent (self : AuditReport) (event : DecodedEvent StableEvent) : AuditReport :=
  if self.Untracked event.method then { self with untrackedMethods := self.untrackedMethods + 1 }
  else
    let method := (self.methods.lookup event.method).getD {}
    { self with methods := self.methods.insert event.method (method.observe event) }

def observe (self : AuditReport) (batch : EventBatch StableEvent) : AuditReport :=
  batch.events.foldl observeEvent
    { self with batches := self.batches + 1, events := self.events + batch.events.length }

end AuditReport

end TiktokSigner.LiveEvents
