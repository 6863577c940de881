import TiktokSigner.LiveEvents.Batch

/-!
# Agreement of the projection modes

Every mode runs the preflight scan with the same wire budget, so the modes
agree on what is wrong with a message; only the modes that want a schema
spend the schema budget, and they spend it alike. `select_projects` says
for one message how the result of a mode follows from the Full result, and
`modes_agree` for a batch.
-/

namespace TiktokSigner.LiveEvents

open LiveProto

/-! ## Wire issues -/

/-- The statuses that name something wrong with the payload itself. -/
def NormalizationStatus.isWireIssue : NormalizationStatus → Bool
  | .payloadLimit | .fieldLimit | .batchFieldLimit | .depthLimit | .malformedWire => true
  | .normalized | .unsupportedMethod | .decodeError | .notRequested => false

/-- The scan only reports wire issues. -/
def Scanned.OnlyWireIssue (s : Scanned) : Prop :=
  ∀ issue, s.issue = some issue → issue.isWireIssue = true

namespace Scanned.OnlyWireIssue

theorem none {left : Nat} {timestamp : Option UInt64} {met : List Met} :
    OnlyWireIssue { left, timestamp, met } := fun _ h => by cases h

theorem some {issue : NormalizationStatus} {left : Nat} {timestamp : Option UInt64}
    {met : List Met} (h : issue.isWireIssue = true) :
    OnlyWireIssue { issue := .some issue, left, timestamp, met } := fun _ hissue => by
  cases hissue
  exact h

theorem andThen {here : Scanned} {next : Nat → Option UInt64 → Scanned}
    (hhere : here.OnlyWireIssue) (hnext : ∀ left timestamp, (next left timestamp).OnlyWireIssue) :
    (here.andThen next).OnlyWireIssue := by
  rw [Scanned.andThen]
  split
  case h_1 => exact hhere
  case h_2 => exact fun issue h => hnext _ _ issue h

end Scanned.OnlyWireIssue

theorem scanPacked_issue (elementWire : UInt8) (bytes : Bytes) (left : Nat)
    (timestamp : Option UInt64) :
    (scanPacked elementWire bytes left timestamp).OnlyWireIssue := by
  induction bytes, left, timestamp using scanPacked.induct elementWire with
  | case1 left timestamp =>
    rw [scanPacked_nil]
    exact .none
  | case2 bytes timestamp hbytes =>
    rw [scanPacked, if_neg hbytes, if_pos rfl]
    exact .some rfl
  | case3 bytes left timestamp hbytes hleft e rest hread =>
    rw [scanPacked_unreadable hbytes hleft hread]
    exact .some rfl
  | case4 bytes left timestamp hbytes hleft v rest hread ih =>
    rw [scanPacked_element hbytes hleft hread]
    exact .andThen .none ih

section

variable {registry : Registry}

theorem scanField_issue {nested : Option NestedScan} {isCommon : Bool} {d : Option FieldSchema}
    {value : WireValue} {left : Nat} {timestamp : Option UInt64}
    (hnested : ∀ scan ∈ nested, ∀ schema bytes common left timestamp,
      (scan schema bytes common left timestamp).OnlyWireIssue) :
    (scanField registry nested isCommon d value left timestamp).OnlyWireIssue := by
  unfold scanField
  split
  case h_1 => exact scanPacked_issue _ _ _ _
  case h_2 =>
    dsimp only
    split
    case h_1 =>
      split
      case h_1 => exact .some rfl
      case h_2 scan => exact hnested scan rfl _ _ _ _ _
    case h_2 => exact .none

theorem scanLoop_issue {nested : Option NestedScan} {schema : Option MessageSchema}
    {top common : Bool}
    (hnested : ∀ scan ∈ nested, ∀ schema bytes common left timestamp,
      (scan schema bytes common left timestamp).OnlyWireIssue)
    (seenCommon seenTimestamp : Bool) (payload : Bytes) (left : Nat) (timestamp : Option UInt64) :
    (scanLoop registry nested schema top common seenCommon seenTimestamp payload left
      timestamp).OnlyWireIssue := by
  induction seenCommon, seenTimestamp, payload, left, timestamp using
    scanLoop.induct registry nested schema top common with
  | case1 seenCommon seenTimestamp payload left timestamp hnext =>
    obtain rfl := Reader.nextField_eq_none.mp hnext
    rw [scanLoop_nil]
    exact .none
  | case2 seenCommon seenTimestamp payload timestamp field hnext =>
    rw [scanLoop_out (Reader.nextField_eq_some.mp hnext).1]
    exact .some rfl
  | case3 seenCommon seenTimestamp payload left timestamp hleft e hnext =>
    obtain ⟨hpayload, hread⟩ := Reader.nextField_eq_some.mp hnext
    rw [scanLoop_error hpayload hleft hread]
    exact .some rfl
  | case4 seenCommon seenTimestamp payload left timestamp hleft number value rest hnext hnumber =>
    obtain ⟨hpayload, hread⟩ := Reader.nextField_eq_some.mp hnext
    rw [scanLoop_number hpayload hleft hread (by omega)]
    exact .some rfl
  | case5 seenCommon seenTimestamp payload left timestamp hleft number value rest hnext hnumber
      d isTime isCommon _ ih =>
    obtain ⟨hpayload, hread⟩ := Reader.nextField_eq_some.mp hnext
    rw [scanLoop_field hpayload hleft hread (by omega)]
    refine .andThen ?_ ih
    exact fun issue h => scanField_issue hnested issue h

theorem scan_issue (depth : Nat) (schema : Option MessageSchema) (payload : Bytes) (common : Bool)
    (left : Nat) (timestamp : Option UInt64) :
    (scan registry depth schema payload common left timestamp).OnlyWireIssue := by
  rw [scan]
  refine scanLoop_issue (fun scan' hscan => ?_) _ _ _ _ _
  split_ifs at hscan with hdescend
  · obtain rfl := Option.some.inj hscan
    exact scan_issue (depth + 1)
  · cases hscan
termination_by maxNormalizationDepth - depth

theorem preflightEvent_issue {method : String} {payload : Bytes} {budget : Nat}
    {issue : NormalizationStatus}
    (h : (preflightEvent registry method payload budget).1 = some issue) :
    issue.isWireIssue = true := by
  simp only [preflightEvent] at h
  split_ifs at h
  · obtain rfl := Option.some.inj h
    rfl
  · exact scan_issue _ _ _ _ _ _ issue h

end

/-! ## One message -/

section

variable {Event Error : Type} {registry : Registry} {generated : Generated Event Error}

theorem normalizeChecked_issue (method : String) (payload : Bytes)
    (issue : NormalizationStatus) :
    normalizeChecked generated method payload (some issue) = (none, issue) := rfl

/-- Without an issue the status is not a wire issue. -/
theorem normalizeChecked_status (method : String) (payload : Bytes) :
    (normalizeChecked generated method payload none).2.isWireIssue = false := by
  rw [normalizeChecked]
  split <;> rfl

/-- The Full result against the event of `decode_batch`. -/
structure IsFull (decoded : DecodedEvent Event) (full : SelectedEvent Event) : Prop where
  method : full.method = decoded.raw.method
  msgId : full.msgId = decoded.raw.msgId
  isHistory : full.isHistory = decoded.raw.isHistory
  timestamp : full.timestamp = decoded.timestamp
  payload : full.payload = some decoded.raw.payload
  bounded : decoded.raw.payload.length ≤ maxEventBytes
  event : full.event = some decoded.event
  schema : full.schema = some decoded.schema
  status : full.normalizationStatus = decoded.normalizationStatus

/-- The result of a mode against the Full result. -/
structure Projects (mode : DecodeMode) (full selected : SelectedEvent Event) : Prop where
  method : selected.method = full.method
  msgId : selected.msgId = full.msgId
  isHistory : selected.isHistory = full.isHistory
  timestamp : selected.timestamp = full.timestamp
  event : mode = .normalized →
    selected.event = full.event ∧ selected.normalizationStatus = full.normalizationStatus
  schema : mode = .schema → selected.schema = full.schema
  payload : mode = .raw → selected.payload = full.payload
  status : mode = .schema ∨ mode = .raw → selected.normalizationStatus =
    if full.normalizationStatus.isWireIssue then full.normalizationStatus else .notRequested
  truncated : selected.truncated = true ↔
    full.normalizationStatus.isWireIssue = true ∨
      ∃ schema, selected.schema = some schema ∧ schema.truncated = true

/-- The issue of a message: its size first, then what the scan reports. -/
def messageIssue (registry : Registry) (message : BaseProtoMessage) (wireBudget : Nat) :
    Option NormalizationStatus :=
  if maxEventBytes < message.payload.length then some .payloadLimit
  else
    (preflightEvent registry message.method (message.payload.take maxEventBytes) wireBudget).1

theorem messageIssue_isWireIssue {message : BaseProtoMessage} {wireBudget : Nat}
    {issue : NormalizationStatus} (h : messageIssue registry message wireBudget = some issue) :
    issue.isWireIssue = true := by
  rw [messageIssue] at h
  split_ifs at h
  · obtain rfl := Option.some.inj h
    rfl
  · exact preflightEvent_issue h

/-- The status of a normalised message is its issue if it has one. -/
theorem normalized_isWireIssue (message : BaseProtoMessage) (wireBudget : Nat) (payload : Bytes) :
    (normalizeChecked generated message.method payload
        (messageIssue registry message wireBudget)).2.isWireIssue =
      (messageIssue registry message wireBudget).isSome := by
  cases hissue : messageIssue registry message wireBudget with
  | none => exact normalizeChecked_status _ _
  | some issue => exact messageIssue_isWireIssue hissue

theorem select_full (message : BaseProtoMessage) (budgets : Budgets) :
    IsFull (decodeMessage registry generated message budgets).1
      (selectMessage registry generated .full message budgets).1 ∧
    (selectMessage registry generated .full message budgets).2 =
      (decodeMessage registry generated message budgets).2 := by
  refine ⟨⟨rfl, rfl, rfl, rfl, rfl, ?_, ?_, rfl, rfl⟩, rfl⟩
  · exact List.length_take_le _ _
  · simp only [selectMessage, decodeMessage, decodeEnvelopeBudget, true_or, or_true, if_true,
      true_and]
    cases (normalizeChecked generated message.method (message.payload.take maxEventBytes) _).1 <;>
      rfl

theorem select_projects (mode : DecodeMode) (message : BaseProtoMessage)
    {budgets budgets' : Budgets} (hwire : budgets'.wire = budgets.wire)
    (hschema : mode = .schema → budgets'.schema = budgets.schema) :
    Projects mode (selectMessage registry generated .full message budgets).1
      (selectMessage registry generated mode message budgets').1 := by
  have hfull : (selectMessage registry generated .full message budgets).1.normalizationStatus =
      (normalizeChecked generated message.method (message.payload.take maxEventBytes)
        (messageIssue registry message budgets.wire)).2 := by
    simp [selectMessage, messageIssue]
  refine ⟨rfl, rfl, rfl, ?_, ?_, ?_, ?_, ?_, ?_⟩
  · simp only [selectMessage, hwire]
  · rintro rfl
    simp [selectMessage, hwire]
  · rintro rfl
    simp only [selectMessage, hschema rfl]
    rfl
  · rintro rfl
    rfl
  · intro hmode
    have hstatus : (selectMessage registry generated mode message budgets').1.normalizationStatus =
        (messageIssue registry message budgets.wire).getD .notRequested := by
      rcases hmode with rfl | rfl <;> simp [selectMessage, messageIssue, hwire]
    rw [hstatus, hfull, normalized_isWireIssue]
    cases messageIssue registry message budgets.wire <;> rfl
  · have htruncated : (selectMessage registry generated mode message budgets').1.truncated =
        ((messageIssue registry message budgets.wire).isSome ||
          (selectMessage registry generated mode message budgets').1.schema.any (·.truncated)) := by
      simp [selectMessage, messageIssue, hwire]
    rw [htruncated, hfull, normalized_isWireIssue, Bool.or_eq_true, Option.any_eq_true]

/-! ## A batch -/

theorem selectMessages_full : ∀ (messages : List BaseProtoMessage) (budgets : Budgets),
    List.Forall₂ IsFull (decodeMessages registry generated messages budgets)
      (selectMessages registry generated .full messages budgets)
  | [], _ => .nil
  | message :: messages, budgets => by
      obtain ⟨hfull, hbudgets⟩ := @select_full _ _ registry generated message budgets
      rw [decodeMessages_cons, selectMessages_cons, hbudgets]
      exact .cons hfull (selectMessages_full messages _)

/-- The budgets of a mode keep step with the Full ones: the wire budget
always, the schema budget in Schema mode. -/
theorem selectMessages_projects (mode : DecodeMode) :
    ∀ (messages : List BaseProtoMessage) {budgets budgets' : Budgets},
      budgets'.wire = budgets.wire → (mode = .schema → budgets'.schema = budgets.schema) →
      List.Forall₂ (Projects mode) (selectMessages registry generated .full messages budgets)
        (selectMessages registry generated mode messages budgets')
  | [], _, _, _, _ => .nil
  | message :: messages, budgets, budgets', hwire, hschema => by
      refine .cons (select_projects mode message hwire hschema)
        (selectMessages_projects mode messages ?_ ?_)
      · simp only [hwire]
      · rintro rfl
        simp only [hschema rfl]
        rfl

/-- All modes succeed or fail with `decode_batch`, with the same metadata;
event by event, Full mode gives what `decode_batch` gives and every mode
gives its part of the Full result. -/
theorem modes_agree (registry : Registry) (generated : Generated Event Error) (payload : Bytes) :
    match decodeBatch registry generated payload with
    | .error e => ∀ mode, decodeBatchWithMode registry generated payload mode = .error e
    | .ok batch =>
        ∃ full, decodeBatchWithMode registry generated payload .full = .ok full ∧
          List.Forall₂ IsFull batch.events full.events ∧
          ∀ mode, ∃ selected,
            decodeBatchWithMode registry generated payload mode = .ok selected ∧
              selected.toBatchMetadata = batch.toBatchMetadata ∧
              List.Forall₂ (Projects mode) full.events selected.events := by
  unfold decodeBatch decodeBatchWithMode
  cases checkBatch payload with
  | error e => exact fun _ => rfl
  | ok _ =>
    cases generated.decodeEventBatch payload with
    | error e => exact fun _ => rfl
    | ok result =>
      exact ⟨_, rfl, selectMessages_full result.messages {}, fun mode =>
        ⟨_, rfl, rfl, selectMessages_projects mode result.messages rfl fun _ => rfl⟩⟩

end

end TiktokSigner.LiveEvents
