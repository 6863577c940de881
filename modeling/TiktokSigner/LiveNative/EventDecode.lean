import TiktokSigner.LiveEvents.Envelope

/-!
# Decoding an event over the C ABI

`ttl_event_decode` cuts the payload to the event limit before it calls the
library, which then decides on the prefix; what was cut off is made up for
afterwards, in the event and in its schema view.

A pointer and its length are the bytes they denote.
-/

namespace TiktokSigner.LiveNative

open LiveEvents LiveProto

/-- The codes that `ttl_event_decode` fails with. -/
inductive ResultCode where
  | invalidArgument
  | invalidUtf8
deriving DecidableEq

/-- The first `n` bytes at `p`. -/
def bytes (p : Bytes) (n max : Nat) : Except ResultCode Bytes :=
  if max < n then .error .invalidArgument else .ok (p.take n)

def text (p : Bytes) (n max : Nat) : Except ResultCode String := do
  match fromUtf8 (← bytes p n max) with
  | some s => pure s
  | none => throw .invalidUtf8

section

variable {Event Error : Type} (registry : Registry) (generated : Generated Event Error)

def ttlEventDecode (method : Bytes) (messageId : UInt64) (history : Bool) (payload : Bytes) :
    Except ResultCode (DecodedEvent Event) := do
  let m ← text method method.length 4096
  if Char.ofNat 0 ∈ m.toList ∨ m = "" then throw .invalidArgument
  let p ← bytes payload (min payload.length maxEventBytes) maxEventBytes
  let e := decodeEventEnvelope registry generated m messageId history p
  if p.length < payload.length then
    pure { e with event := .unknown m p, schema := { e.schema with truncated := true } }
  else pure e

/-- The event that is returned for a method the ABI takes. -/
def nativeEvent (method : String) (messageId : UInt64) (history : Bool) (payload : Bytes) :
    DecodedEvent Event :=
  let p := payload.take maxEventBytes
  let e := decodeEventEnvelope registry generated method messageId history p
  if p.length < payload.length then
    { e with event := .unknown method p, schema := { e.schema with truncated := true } }
  else e

/-- A method that the ABI takes. -/
def MethodTaken (method : String) : Prop :=
  (asBytes method).length ≤ 4096 ∧ Char.ofNat 0 ∉ method.toList ∧ method ≠ ""

variable {registry} {generated} {method : String} {messageId : UInt64} {history : Bool}
variable {payload : Bytes} {e : DecodedEvent Event}

theorem text_asBytes : text (asBytes method) (asBytes method).length 4096 =
    if 4096 < (asBytes method).length then .error .invalidArgument else .ok method := by
  unfold text bytes
  split_ifs with hlong
  · rfl
  · simp only [bind, Except.bind, List.take_length, fromUtf8_asBytes]
    rfl

/-- The bound of the second check is never exceeded. -/
theorem bytes_payload : bytes payload (min payload.length maxEventBytes) maxEventBytes =
    .ok (payload.take maxEventBytes) := by
  rw [bytes, if_neg (Nat.not_lt.mpr (Nat.min_le_right _ _)), Nat.min_comm,
    ← List.take_eq_take_min]

/-- What the ABI returns, and for which methods. -/
theorem ttlEventDecode_eq_ok :
    ttlEventDecode registry generated (asBytes method) messageId history payload = .ok e ↔
      MethodTaken method ∧
        e = nativeEvent registry generated method messageId history payload := by
  unfold ttlEventDecode MethodTaken
  rw [text_asBytes]
  by_cases hlong : 4096 < (asBytes method).length
  · have hnot : ¬(asBytes method).length ≤ 4096 := Nat.not_le.mpr hlong
    simp [hlong, hnot, bind, Except.bind]
  · have hle : (asBytes method).length ≤ 4096 := Nat.le_of_not_lt hlong
    rw [if_neg hlong]
    by_cases hrefused : Char.ofNat 0 ∈ method.toList ∨ method = ""
    · have hnot : ¬(Char.ofNat 0 ∉ method.toList ∧ method ≠ "") := by tauto
      simp [hrefused, hnot, bind, Except.bind, throw, throwThe, MonadExceptOf.throw]
    · have htaken : Char.ofNat 0 ∉ method.toList ∧ method ≠ "" := by tauto
      simp only [bind, Except.bind, bytes_payload]
      rw [if_neg hrefused, and_iff_right ⟨hle, htaken⟩, nativeEvent]
      split_ifs <;> simp [pure, Except.pure, eq_comm]

end

/-! ## Against the library -/

/-- The parts of an event that the ABI owes. -/
structure SameVerdict {Event : Type} (native library : DecodedEvent Event) : Prop where
  event : native.event = library.event
  truncated : native.schema.truncated = library.schema.truncated
  status : native.normalizationStatus = library.normalizationStatus

section

variable {Error : Type} {registry : Registry} {prost : Prost Error}
variable {method : String} {messageId : UInt64} {history : Bool} {payload : Bytes}
variable {e : DecodedEvent StableEvent}

/-- Event and truncation are made up for, whatever the length. -/
theorem ttlEventDecode_event
    (h : ttlEventDecode registry prost.generated (asBytes method) messageId history payload =
      .ok e) :
    let library := decodeEventEnvelope registry prost.generated method messageId history payload
    e.event = library.event ∧ e.schema.truncated = library.schema.truncated := by
  obtain ⟨-, rfl⟩ := ttlEventDecode_eq_ok.mp h
  unfold nativeEvent
  by_cases hlong : maxEventBytes < payload.length
  · have hcut : (payload.take maxEventBytes).length < payload.length := by
      rw [List.length_take]
      exact Nat.lt_of_le_of_lt (Nat.min_le_left _ _) hlong
    simp only [if_pos hcut]
    simp [decodeEventEnvelope, decodeEnvelopeBudget, hlong, normalizeChecked]
  · rw [List.take_of_length_le (Nat.le_of_not_lt hlong), if_neg (Nat.lt_irrefl _)]
    exact ⟨rfl, rfl⟩

/-- The status of a cut payload is not the library's. -/
theorem nativeEvent_of_long (hlong : maxEventBytes < payload.length) :
    ¬SameVerdict (nativeEvent registry prost.generated method messageId history payload)
      (decodeEventEnvelope registry prost.generated method messageId history payload) := by
  intro hsame
  have hcovered : ¬Covered registry method payload 4096 :=
    fun hcovered => Nat.not_le.mpr hlong hcovered.1
  have hstatus : (nativeEvent registry prost.generated method messageId history
      payload).normalizationStatus = (decodeEventEnvelope registry prost.generated method messageId
        history (payload.take maxEventBytes)).normalizationStatus := by
    unfold nativeEvent
    dsimp only
    split_ifs <;> rfl
  -- the library's own event, read back, has the same status
  have hreread : (reread registry prost.generated (decodeEventEnvelope registry prost.generated
      method messageId history payload)).normalizationStatus ≠
        (decodeEventEnvelope registry prost.generated method messageId history
          payload).normalizationStatus := reread_status_ne hcovered
  refine hreread ?_
  rw [reread_status]
  exact hstatus.symm.trans hsame.status

/-- The ABI decodes what the library decodes, up to the event limit. Beyond
it the status is that of the prefix, never `PayloadLimit`. -/
theorem native_verdict_iff {Error : Type} (registry : Registry) (prost : Prost Error)
    (method : String) (messageId : UInt64) (history : Bool) (payload : Bytes) :
    (∀ e, ttlEventDecode registry prost.generated (asBytes method) messageId history payload =
          .ok e →
        SameVerdict e
          (decodeEventEnvelope registry prost.generated method messageId history payload)) ↔
      (MethodTaken method → payload.length ≤ maxEventBytes) := by
  constructor
  · intro hsame htaken
    refine Nat.le_of_not_lt fun hlong => nativeEvent_of_long hlong (hsame _ ?_)
    exact ttlEventDecode_eq_ok.mpr ⟨htaken, rfl⟩
  · intro hshort e he
    obtain ⟨hevent, htruncated⟩ := ttlEventDecode_event he
    obtain ⟨htaken, rfl⟩ := ttlEventDecode_eq_ok.mp he
    have hwhole := List.take_of_length_le (hshort htaken)
    refine ⟨hevent, htruncated, ?_⟩
    rw [nativeEvent, hwhole, if_neg (Nat.lt_irrefl _)]

theorem native_forgets_limit :
    ¬∀ e, ttlEventDecode ⟨[], []⟩ emptyProst.generated (asBytes "WebcastLikeMessage") 1 false
        longPayload = .ok e →
      SameVerdict e (decodeEventEnvelope ⟨[], []⟩ emptyProst.generated "WebcastLikeMessage" 1 false
        longPayload) := by
  intro hsame
  have htaken : MethodTaken "WebcastLikeMessage" := by
    unfold MethodTaken
    decide
  have hlong : maxEventBytes < longPayload.length := by
    rw [longPayload_length]
    exact Nat.lt_succ_self _
  exact nativeEvent_of_long hlong (hsame _ (ttlEventDecode_eq_ok.mpr ⟨htaken, rfl⟩))

end

end TiktokSigner.LiveNative
