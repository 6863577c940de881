import TiktokSigner.Lib.ProtoWire
import TiktokSigner.LiveEvents.Batch

/-!
# The message cap of a batch

`check_batch` counts message fields with `Reader` before the generated
decoder builds them. `Reader` has no groups: at the first one it stops with
an error, the count ends there, and the generated decoder skips the group
and goes on. `countMessages_eq` says what is counted: the message fields
before the first group.
-/

namespace TiktokSigner.LiveEvents

open LiveProto ProtoWire

/-! ## Reading well-formed entries -/

theorem reader_varint {n : Nat} {bits : Nat} (hbits : bits ≤ 64) {bytes rest : Bytes}
    (h : numeral bits bytes = some (n, rest)) :
    n < 2 ^ 64 ∧ Reader.varint bytes = .ok (UInt64.ofNat n, rest) := by
  obtain ⟨digits, hsplit, hlen, rfl, hlt⟩ := numeral_eq_some.mp h
  have hword : Base128.value digits < 2 ^ 64 :=
    Nat.lt_of_lt_of_le hlt (Nat.pow_le_pow_right (by decide) hbits)
  exact ⟨hword, Reader.varint_eq_ok_iff.mpr
    ⟨digits, hsplit, hlen, UInt64.toNat_ofNat'⟩⟩

/-- The tag that `Reader` reads at a key. -/
theorem reader_tag {number wire : Nat} {bytes rest : Bytes}
    (h : key bytes = some (number, wire, rest)) :
    number < 2 ^ 29 ∧ ∃ tag, Reader.varint bytes = .ok (tag, rest) ∧
      (tag >>> 3).toUInt32 = UInt32.ofNat number ∧ (tag &&& 7).toUInt8.toNat = wire := by
  obtain ⟨k, hnumeral, hk, rfl, rfl⟩ := key_eq_some.mp h
  obtain ⟨digits, -, -, -, hlt⟩ := numeral_eq_some.mp hnumeral
  obtain ⟨-, hread⟩ := reader_varint (by decide) hnumeral
  have hsum : k = k % 8 + 8 * (UInt32.ofNat (k / 8)).toNat := by
    rw [UInt32.toNat_ofNat']
    omega
  refine ⟨by omega, UInt64.ofNat k, hread, ?_, ?_⟩
  · conv_lhs => rw [hsum]
    exact Reader.tag_number (Nat.mod_lt _ (by decide)) _
  · conv_lhs => rw [hsum]
    exact Reader.tag_wire (Nat.mod_lt _ (by decide)) _

theorem reader_value {wire : UInt8} {bytes rest : Bytes}
    (h : skip wire.toNat bytes = some rest) : ∃ v, Reader.value wire bytes = .ok (v, rest) := by
  unfold skip at h
  split at h
  case h_1 hwire =>
    obtain ⟨⟨n, r⟩, hnumeral, rfl⟩ := Option.map_eq_some_iff.mp h
    refine ⟨.varint (UInt64.ofNat n), ?_⟩
    rw [Reader.value, hwire, (reader_varint (by decide) hnumeral).2]
    rfl
  case h_2 hwire =>
    split_ifs at h with hlen
    obtain rfl := Option.some.inj h
    refine ⟨.fixed64 (UInt64.ofNat (fromLe (bytes.take 8))), ?_⟩
    rw [Reader.value, hwire]
    simp only [Reader.take, if_pos hlen]
    rfl
  case h_3 hwire =>
    obtain ⟨⟨n, r⟩, hnumeral, hdrop⟩ := Option.bind_eq_some_iff.mp h
    dsimp only at hdrop
    split_ifs at hdrop with hlen
    obtain rfl := Option.some.inj hdrop
    obtain ⟨hword, hread⟩ := reader_varint (by decide) hnumeral
    have hn : (UInt64.ofNat n).toNat = n := by
      rw [UInt64.toNat_ofNat', Nat.mod_eq_of_lt hword]
    refine ⟨.bytes (r.take n), ?_⟩
    rw [Reader.value, hwire]
    simp only [hread, Reader.take, hn, if_pos hlen, bind, Except.bind]
    rfl
  case h_4 hwire =>
    split_ifs at h with hlen
    obtain rfl := Option.some.inj h
    refine ⟨.fixed32 (UInt32.ofNat (fromLe (bytes.take 4))), ?_⟩
    rw [Reader.value, hwire]
    simp only [Reader.take, if_pos hlen]
    rfl
  case h_5 => cases h

/-- `Reader` reads an entry that is not a group and stops at one that is. -/
theorem readField_entry {bytes rest rest' : Bytes} {number wire : Nat}
    (hkey : key bytes = some (number, wire, rest)) (hskip : skip wire rest = some rest') :
    ∃ v, Reader.readField bytes = .ok ((UInt32.ofNat number, v), rest') := by
  obtain ⟨-, tag, htag, hnumber, rfl⟩ := reader_tag hkey
  obtain ⟨v, hv⟩ := reader_value hskip
  refine ⟨v, bind_eq_ok.mpr ⟨(tag, rest), htag, bind_eq_ok.mpr ⟨(v, rest'), hv, ?_⟩⟩⟩
  rw [← hnumber]
  rfl

theorem readField_group {bytes rest : Bytes} {number : Nat}
    (hkey : key bytes = some (number, 3, rest)) : ∃ e, Reader.readField bytes = .error e := by
  obtain ⟨-, tag, htag, -, hwire⟩ := reader_tag hkey
  refine ⟨.unsupportedWireType (tag &&& 7).toUInt8, ?_⟩
  have hvalue : Reader.value (tag &&& 7).toUInt8 rest =
      .error (.unsupportedWireType (tag &&& 7).toUInt8) := by
    simp only [Reader.value, hwire]
  simp only [Reader.readField, htag, bind, Except.bind, hvalue]

/-! ## What is counted -/

/-- The message fields of a batch: field 1, not as a group. -/
def messageFields (entries : List Entry) : Nat :=
  entries.countP fun e => e.number == 1 && !e.isGroup

/-- The message fields before the first group. -/
def messageFieldsBeforeGroup (entries : List Entry) : Nat :=
  messageFields (entries.takeWhile fun e => !e.isGroup)

theorem messageFieldsBeforeGroup_group (number : Nat) (more : List Entry) :
    messageFieldsBeforeGroup (⟨number, 3⟩ :: more) = 0 := rfl

theorem messageFieldsBeforeGroup_cons {number wire : Nat} (hwire : wire ≠ 3) (more : List Entry) :
    messageFieldsBeforeGroup (⟨number, wire⟩ :: more) =
      messageFieldsBeforeGroup more + if number = 1 then 1 else 0 := by
  have hgroup : Entry.isGroup ⟨number, wire⟩ = false := by simp [Entry.isGroup, hwire]
  rw [messageFieldsBeforeGroup, List.takeWhile_cons_of_pos (by simp [hgroup]), messageFields,
    List.countP_cons]
  simp [hgroup, messageFieldsBeforeGroup, messageFields]

variable {Event Error : Type}

theorem countMessages_eq (bytes : Bytes) (count : Nat) {entries : List Entry}
    (hcount : count ≤ maxBatchMessages) (hparse : parse [] bytes = some entries) :
    (countMessages count (Reader.items bytes) : Except (EventError Error) Unit) =
      if maxBatchMessages < count + messageFieldsBeforeGroup entries then .error .tooLarge
      else .ok () := by
  by_cases hne : bytes = []
  · subst hne
    obtain rfl := Option.some.inj (parse_nil.symm.trans hparse)
    rw [Reader.items_nil, if_neg (by simpa [messageFieldsBeforeGroup, messageFields] using hcount)]
    rfl
  · obtain ⟨number, wire, rest, hkey, hcase⟩ := parse_cons hne hparse
    rcases hcase with ⟨rfl, more, rfl⟩ | ⟨hwire, rest', more, hskip, hrest, rfl⟩
    · obtain ⟨e, he⟩ := readField_group hkey
      rw [Reader.items_error hne he, messageFieldsBeforeGroup_group, if_neg (by omega)]
      rfl
    · obtain ⟨v, hv⟩ := readField_entry hkey hskip
      have hone : UInt32.ofNat number = 1 ↔ number = 1 := by
        rw [← UInt32.toNat_inj, UInt32.toNat_ofNat', Nat.mod_eq_of_lt
          (Nat.lt_trans (reader_tag hkey).1 (by decide))]
        rfl
      have hlen : rest'.length < bytes.length :=
        Nat.lt_of_le_of_lt (skip_length hskip) (key_length hkey)
      rw [Reader.items_ok hv, messageFieldsBeforeGroup_cons hwire, countMessages]
      simp only [hone]
      by_cases hnumber : number = 1
      · rw [if_pos hnumber, if_pos hnumber]
        by_cases hover : maxBatchMessages < count + 1
        · rw [if_pos hover, if_pos (by omega)]
        · rw [if_neg hover, countMessages_eq rest' (count + 1) (by omega) hrest,
            show count + 1 + messageFieldsBeforeGroup more =
              count + (messageFieldsBeforeGroup more + 1) by omega]
      · rw [if_neg hnumber, if_neg hnumber, countMessages_eq rest' count hcount hrest, Nat.add_zero]
termination_by bytes.length

/-- What the batch decoder promises: it parses the wire format, groups
included, and keeps the message fields. -/
def FollowsWireFormat (decode : Bytes → Except Error ProtoMessageFetchResult) : Prop :=
  ∀ payload result, decode payload = .ok result →
    ∃ entries, parse [] payload = some entries ∧ result.messages.length = messageFields entries

theorem decodeMessages_length (registry : Registry) (generated : Generated Event Error) :
    ∀ (messages : List BaseProtoMessage) (budgets : Budgets),
      (decodeMessages registry generated messages budgets).length = messages.length
  | [], _ => rfl
  | message :: messages, budgets => by
      rw [decodeMessages_cons, List.length_cons, List.length_cons,
        decodeMessages_length registry generated messages]

theorem selectMessages_length (registry : Registry) (generated : Generated Event Error)
    (mode : DecodeMode) : ∀ (messages : List BaseProtoMessage) (budgets : Budgets),
      (selectMessages registry generated mode messages budgets).length = messages.length
  | [], _ => rfl
  | message :: messages, budgets => by
      rw [selectMessages_cons, List.length_cons, List.length_cons,
        selectMessages_length registry generated mode messages]

/-- The cap on one payload: no result above it, and a valid batch above it
is refused as too large. -/
structure CapHolds (registry : Registry) (generated : Generated Event Error) (payload : Bytes) :
    Prop where
  batch : ∀ batch, decodeBatch registry generated payload = .ok batch →
    batch.events.length ≤ maxBatchMessages
  selected : ∀ mode batch, decodeBatchWithMode registry generated payload mode = .ok batch →
    batch.events.length ≤ maxBatchMessages
  refused : ∀ result, generated.decodeEventBatch payload = .ok result →
    maxBatchMessages < result.messages.length →
      decodeBatch registry generated payload = .error .tooLarge ∧
        ∀ mode, decodeBatchWithMode registry generated payload mode = .error .tooLarge

/-- In a valid batch of at most 16 MiB with too many message fields, too
many of them come before the first group. -/
def CountedInTime (generated : Generated Event Error) (payload : Bytes) : Prop :=
  ∀ result entries, generated.decodeEventBatch payload = .ok result →
    parse [] payload = some entries → payload.length ≤ maxBatchBytes →
      maxBatchMessages < messageFields entries →
        maxBatchMessages < messageFieldsBeforeGroup entries

theorem checkBatch_eq {payload : Bytes} {entries : List Entry}
    (hparse : parse [] payload = some entries) :
    (checkBatch payload : Except (EventError Error) Unit) =
      if maxBatchBytes < payload.length ∨ maxBatchMessages < messageFieldsBeforeGroup entries then
        .error .tooLarge
      else .ok () := by
  rw [checkBatch]
  by_cases hlen : maxBatchBytes < payload.length
  · rw [if_pos hlen, if_pos (Or.inl hlen)]
  · rw [if_neg hlen, countMessages_eq payload 0 (Nat.zero_le _) hparse, Nat.zero_add]
    simp only [hlen, false_or]

/-- The cap holds of a payload if and only if the groups in it come late
enough. -/
theorem message_cap_iff (registry : Registry) (generated : Generated Event Error)
    (hprost : FollowsWireFormat generated.decodeEventBatch) (payload : Bytes) :
    CapHolds registry generated payload ↔ CountedInTime generated payload := by
  constructor
  · intro hcap result entries hdecode hparse hlen hmany
    obtain ⟨entries', hparse', hmessages⟩ := hprost payload result hdecode
    obtain rfl := Option.some.inj (hparse.symm.trans hparse')
    by_contra hfew
    have hcheck : checkBatch payload = (.ok () : Except (EventError Error) Unit) := by
      rw [checkBatch_eq hparse, if_neg (by omega)]
    have hrefused := (hcap.refused result hdecode (by omega)).1
    rw [decodeBatch_eq_ok.mpr ⟨hcheck, result, hdecode, rfl⟩] at hrefused
    cases hrefused
  · intro hcounted
    -- a batch that passes the check has few enough messages
    have hfew : ∀ result, checkBatch payload = (.ok () : Except (EventError Error) Unit) →
        generated.decodeEventBatch payload = .ok result →
        result.messages.length ≤ maxBatchMessages := by
      intro result hcheck hdecode
      obtain ⟨entries, hparse, hmessages⟩ := hprost payload result hdecode
      rw [checkBatch_eq hparse] at hcheck
      split_ifs at hcheck with hlarge
      rw [not_or, not_lt, not_lt] at hlarge
      have := hcounted result entries hdecode hparse hlarge.1
      omega
    refine ⟨fun batch hbatch => ?_, fun mode batch hbatch => ?_, fun result hdecode hmany => ?_⟩
    · obtain ⟨hcheck, result, hdecode, rfl⟩ := decodeBatch_eq_ok.mp hbatch
      exact (decodeMessages_length registry generated _ _).trans_le (hfew result hcheck hdecode)
    · obtain ⟨hcheck, result, hdecode, rfl⟩ := decodeBatchWithMode_eq_ok.mp hbatch
      exact (selectMessages_length registry generated mode _ _).trans_le
        (hfew result hcheck hdecode)
    · obtain ⟨entries, hparse, hmessages⟩ := hprost payload result hdecode
      refine decodeBatch_refused ?_
      rw [checkBatch_eq hparse, if_pos]
      by_cases hlen : payload.length ≤ maxBatchBytes
      · exact Or.inr (hcounted result entries hdecode hparse hlen (by omega))
      · exact Or.inl (by omega)

/-! ## A group before the messages -/

theorem knowsBatch_follows {payload : Bytes} {result : ProtoMessageFetchResult}
    {entries : List Entry} (hparse : parse [] payload = some entries)
    (hlen : result.messages.length = messageFields entries) :
    FollowsWireFormat (knowsBatch payload result).decodeEventBatch := by
  intro p r hr
  simp only [knowsBatch] at hr
  split_ifs at hr with hp
  obtain rfl := Except.ok.inj hr
  exact ⟨entries, hp ▸ hparse, hlen⟩

/-- Two messages around an unknown field, a skipped group, and one more message
behind it. -/
def mixedPayload : Bytes := [10, 0, 120, 1, 10, 0, 123, 124, 10, 0]

theorem message_cap_mixed :
    CapHolds ⟨[], []⟩
      (knowsBatch mixedPayload { messages := List.replicate 3 ⟨"", [], 0, false⟩ })
      mixedPayload := by
  have hparse : parse [] mixedPayload = some [⟨1, 2⟩, ⟨15, 0⟩, ⟨1, 2⟩, ⟨15, 3⟩, ⟨1, 2⟩] := by
    decide +kernel
  refine (message_cap_iff _ _ (knowsBatch_follows hparse rfl) _).mpr ?_
  intro result entries _ hentries _ hmany
  obtain rfl := Option.some.inj (hparse.symm.trans hentries)
  exact absurd hmany (by decide)

/-- So many empty messages. -/
def emptyMessages : Nat → Bytes
  | 0 => []
  | n + 1 => 10 :: 0 :: emptyMessages n

theorem emptyMessages_length : ∀ n, (emptyMessages n).length = 2 * n
  | 0 => rfl
  | n + 1 => by
      simp only [emptyMessages, List.length_cons, emptyMessages_length n]
      omega

theorem parse_emptyMessages : ∀ n, parse [] (emptyMessages n) = some (List.replicate n ⟨1, 2⟩)
  | 0 => parse_nil
  | n + 1 => by
      have hkey : key (10 :: 0 :: emptyMessages n) = some (1, 2, 0 :: emptyMessages n) :=
        key_single _ (by decide)
      have hskip : skip 2 (0 :: emptyMessages n) = some (emptyMessages n) := by
        have hzero : numeral 64 (0 :: emptyMessages n) = some (0, emptyMessages n) :=
          numeral_single _ (by decide) (by decide)
        simp [skip, hzero]
      rw [emptyMessages, parse_field (List.cons_ne_nil _ _) hkey (by decide) hskip,
        parse_emptyMessages n]
      rfl

/-- An empty group of field 15, then `n` messages. -/
def groupFirst (n : Nat) : Bytes := 123 :: 124 :: emptyMessages n

theorem parse_groupFirst (n : Nat) :
    parse [] (groupFirst n) = some (⟨15, 3⟩ :: List.replicate n ⟨1, 2⟩) := by
  rw [groupFirst, parse_open (List.cons_ne_nil _ _) (key_single _ (by decide)),
    parse_close (List.cons_ne_nil _ _) (key_single _ (by decide)), parse_emptyMessages]
  rfl

theorem messageFields_replicate (n : Nat) : messageFields (List.replicate n ⟨1, 2⟩) = n := by
  simp [messageFields, List.countP_replicate, Entry.isGroup]

/-- A group of two bytes hides every message behind it from the count. -/
theorem group_hides_messages :
    ∃ (generated : Generated Unit Unit) (payload : Bytes) (batch : EventBatch Unit),
      FollowsWireFormat generated.decodeEventBatch ∧
        decodeBatch ⟨[], []⟩ generated payload = .ok batch ∧
        maxBatchMessages < batch.events.length := by
  let messages : List BaseProtoMessage := List.replicate 8193 ⟨"", [], 0, false⟩
  have hparse := parse_groupFirst 8193
  have hlen : messages.length = messageFields (⟨15, 3⟩ :: List.replicate 8193 ⟨1, 2⟩) := by
    rw [List.length_replicate, messageFields, List.countP_cons_of_neg (by decide),
      ← messageFields, messageFields_replicate]
  have hcheck : checkBatch (groupFirst 8193) = (.ok () : Except (EventError Unit) Unit) := by
    rw [checkBatch_eq hparse, messageFieldsBeforeGroup_group, if_neg]
    simp [groupFirst, emptyMessages_length, maxBatchBytes]
  refine ⟨knowsBatch (groupFirst 8193) { messages }, groupFirst 8193, _,
    knowsBatch_follows hparse hlen,
    decodeBatch_eq_ok.mpr ⟨hcheck, { messages }, knowsBatch_decodes _ _, rfl⟩, ?_⟩
  rw [decodeMessages_length, List.length_replicate]
  decide

end TiktokSigner.LiveEvents
