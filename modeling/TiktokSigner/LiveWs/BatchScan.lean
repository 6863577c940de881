import TiktokSigner.SignCore.EventBatch
import TiktokSigner.LiveWs.Connection

/-!
# The metadata scan against the batch decoder

`batch_ack_metadata` and `WebcastEventBatch::decode` read the same fields in
the same order. The scan stops where the decoder would fall back to a
default, so while both go on they hold the same `need_ack` and
`internal_ext` (`Agrees`), whatever else the decoder collects.
-/

namespace TiktokSigner.LiveWs

/-- Two loops over the same list: what each pair of steps keeps, the loops
keep. -/
theorem foldlM_simulates {ε δ α σ τ : Type} {R : σ → τ → Prop} {f : σ → α → Except ε σ}
    {g : τ → α → Except δ τ}
    (hstep : ∀ s t x s' t', R s t → f s x = .ok s' → g t x = .ok t' → R s' t') {xs : List α}
    {s s' : σ} {t t' : τ} (hR : R s t) (hf : xs.foldlM f s = .ok s')
    (hg : xs.foldlM g t = .ok t') : R s' t' := by
  induction xs generalizing s t with
  | nil =>
    obtain rfl := Except.ok.inj hf
    obtain rfl := Except.ok.inj hg
    exact hR
  | cons x xs ih =>
    obtain ⟨s₁, hs, hf⟩ := bind_eq_ok.mp hf
    obtain ⟨t₁, ht, hg⟩ := bind_eq_ok.mp hg
    exact ih (hstep s t x s₁ t₁ hR hs ht) hf hg

/-- The scan and the decoder hold the same metadata. -/
def Agrees (acc : String × Bool) (batch : WebcastEventBatch) : Prop :=
  batch.internalExt = acc.1 ∧ batch.needAck = acc.2

variable {codec : Codec} {acc acc' : String × Bool} {batch batch' : WebcastEventBatch}
  {number : UInt32} {value : WireValue}

/-! ## The scan, by field number -/

theorem metadataField_internalExt
    (h : metadataField codec acc (WebcastEventBatch.internalExtField, value) = .ok acc') :
    ∃ extension, value.asStr = some extension ∧ acc' = (extension, acc.2) := by
  cases value with
  | bytes bytes =>
    cases hutf : fromUtf8 bytes with
    | none =>
      have hread : metadataField codec acc (WebcastEventBatch.internalExtField, .bytes bytes)
          = .error (.decode (codec.utf8Error bytes)) := by
        simp only [metadataField, hutf, WebcastEventBatch.internalExtField, internalExtNumber,
          needAckNumber]
        rfl
      rw [hread] at h
      cases h
    | some extension =>
      have hread : metadataField codec acc (WebcastEventBatch.internalExtField, .bytes bytes)
          = .ok (extension, acc.2) := by
        simp only [metadataField, hutf, WebcastEventBatch.internalExtField, internalExtNumber,
          needAckNumber]
        rfl
      rw [hread] at h
      exact ⟨extension, hutf, (Except.ok.inj h).symm⟩
  | varint v => cases h
  | fixed64 v => cases h
  | fixed32 v => cases h

theorem metadataField_needAck
    (h : metadataField codec acc (WebcastEventBatch.needAckField, value) = .ok acc') :
    ∃ v, value.asU64 = some v ∧ acc' = (acc.1, v != 0) := by
  cases value with
  | varint v => exact ⟨v, rfl, (Except.ok.inj h).symm⟩
  | bytes bytes => cases h
  | fixed64 v => cases h
  | fixed32 v => cases h

theorem metadataField_other (hext : number ≠ WebcastEventBatch.internalExtField)
    (hack : number ≠ WebcastEventBatch.needAckField)
    (h : metadataField codec acc (number, value) = .ok acc') : acc' = acc := by
  have hext' : number ≠ internalExtNumber := hext
  have hack' : number ≠ needAckNumber := hack
  have hother : metadataField codec acc (number, value) = .ok acc := by
    simp only [metadataField, if_neg hext', if_neg hack']
    rfl
  exact (Except.ok.inj (hother.symm.trans h)).symm

/-! ## The decoder, by field number -/

theorem field_internalExt
    (h : batch.field (WebcastEventBatch.internalExtField, value) = .ok batch') :
    batch' = { batch with internalExt := value.asStr.getD "" } :=
  (Except.ok.inj h).symm

theorem field_needAck
    (h : batch.field (WebcastEventBatch.needAckField, value) = .ok batch') :
    batch' = { batch with needAck := value.asU64.getD 0 != 0 } :=
  (Except.ok.inj h).symm

/-- The messages, the cursor and unknown fields. -/
theorem field_other (hext : number ≠ WebcastEventBatch.internalExtField)
    (hack : number ≠ WebcastEventBatch.needAckField)
    (h : batch.field (number, value) = .ok batch') :
    batch'.internalExt = batch.internalExt ∧ batch'.needAck = batch.needAck := by
  rw [WebcastEventBatch.field, if_neg hext, if_neg hack] at h
  split at h
  case isTrue =>
    split at h
    case h_1 bytes _ =>
      obtain ⟨message, -, hmessage⟩ := bind_eq_ok.mp h
      obtain rfl := Except.ok.inj hmessage
      exact ⟨rfl, rfl⟩
    case h_2 =>
      obtain rfl := Except.ok.inj h
      exact ⟨rfl, rfl⟩
  case isFalse =>
    split at h
    case isTrue =>
      obtain rfl := Except.ok.inj h
      exact ⟨rfl, rfl⟩
    case isFalse =>
      obtain rfl := Except.ok.inj h
      exact ⟨rfl, rfl⟩

/-! ## In lockstep -/

theorem Agrees.field {f : WireField} (h : Agrees acc batch)
    (hscan : metadataField codec acc f = .ok acc') (hdecode : batch.field f = .ok batch') :
    Agrees acc' batch' := by
  obtain ⟨number, value⟩ := f
  by_cases hext : number = WebcastEventBatch.internalExtField
  · subst hext
    obtain ⟨extension, hvalue, rfl⟩ := metadataField_internalExt hscan
    obtain rfl := field_internalExt hdecode
    exact ⟨by rw [hvalue]; rfl, h.2⟩
  · by_cases hack : number = WebcastEventBatch.needAckField
    · subst hack
      obtain ⟨v, hvalue, rfl⟩ := metadataField_needAck hscan
      obtain rfl := field_needAck hdecode
      exact ⟨h.1, by rw [hvalue]; rfl⟩
    · obtain rfl := metadataField_other hext hack hscan
      obtain ⟨hkept, hkept'⟩ := field_other hext hack hdecode
      exact ⟨hkept.trans h.1, hkept'.trans h.2⟩

theorem Agrees.item {f : Except ProtoError WireField} (h : Agrees acc batch)
    (hscan : metadataItem codec acc f = .ok acc')
    (hdecode : WebcastEventBatch.item batch f = .ok batch') : Agrees acc' batch' := by
  cases f with
  | error e => cases hdecode
  | ok field => exact h.field (f := field) hscan hdecode

/-- What the scan acknowledges is what the batch says. -/
theorem batchAckMetadata_agrees (codec : Codec) (payload : Bytes) (extension : String)
    (needAck : Bool) (batch : WebcastEventBatch)
    (hscan : batchAckMetadata codec payload = .ok (extension, needAck))
    (hdecode : WebcastEventBatch.decode payload = .ok batch) :
    batch.internalExt = extension ∧ batch.needAck = needAck := by
  have hstart : Agrees ("", false) {} := ⟨rfl, rfl⟩
  exact foldlM_simulates (f := metadataItem codec) (fun _ _ _ _ _ h hs ht => h.item hs ht) hstart
    hscan hdecode

/-- Repeated fields, with a message between them. -/
def repeatedFields : List WireField :=
  [(9, .varint 0), (5, .bytes (asBytes "first")), (1, .bytes []), (5, .bytes (asBytes "last")),
    (9, .varint 1)]

theorem items_repeatedFields :
    Reader.items (wireBytes repeatedFields) = repeatedFields.map .ok := by
  refine Reader.items_wireBytes (written_of_length ?_ ?_)
  · decide +kernel
  · simp [repeatedFields, WireValue.asBytes]

theorem item_emptyMessage (batch : WebcastEventBatch) :
    WebcastEventBatch.item batch (.ok (1, .bytes []))
      = .ok { batch with messages := batch.messages ++ [{}] } := by
  have hmessage : WebcastMessage.decode [] = .ok {} := by
    rw [WebcastMessage.decode, Reader.items_nil]
    rfl
  have hitem : WebcastEventBatch.item batch (.ok (1, .bytes [])) = (do
      let message ← WebcastMessage.decode []
      pure { batch with messages := batch.messages ++ [message] }) := rfl
  rw [hitem, hmessage]
  rfl

theorem batchAckMetadata_agrees_repeated :
    ∃ batch, WebcastEventBatch.decode (wireBytes repeatedFields) = .ok batch
      ∧ batch.internalExt = "last" ∧ batch.needAck = true := by
  let codec : Codec := ⟨fun _ bytes => .ok bytes, fun _ => "invalid utf-8"⟩
  have hscan : batchAckMetadata codec (wireBytes repeatedFields) = .ok ("last", true) := by
    rw [batchAckMetadata, items_repeatedFields]
    rfl
  have hdecode : WebcastEventBatch.decode (wireBytes repeatedFields)
      = .ok ⟨[{}], "", "last", true⟩ := by
    rw [WebcastEventBatch.decode, items_repeatedFields]
    simp only [repeatedFields, List.map_cons, List.map_nil, List.foldlM_cons, List.foldlM_nil,
      item_emptyMessage]
    rfl
  exact ⟨_, hdecode, batchAckMetadata_agrees codec _ _ _ _ hscan hdecode⟩

end TiktokSigner.LiveWs
