import TiktokSigner.Lib.Metering
import TiktokSigner.LiveEvents.Preflight

/-!
# What the preflight scan asks for

The scan is given a budget, and its verdict depends on it. `scanDemand`
reads off the payload what the scan asks for and finds when the budget
lasts; `scan_meets` says that from every budget the scan does just that, and
`preflightEvent_verdict` is that of `preflight_event` in these terms.
-/

namespace TiktokSigner.LiveEvents

open LiveProto Metering

/-- The issues of a payload itself. -/
inductive ScanIssue where
  | malformedWire
  | depthLimit
deriving DecidableEq

def ScanIssue.report : ScanIssue → NormalizationStatus
  | .malformedWire => .malformedWire
  | .depthLimit => .depthLimit

abbrev NestedDemand := Option MessageSchema → Bytes → Demand ScanIssue

/-- The elements of a packed field. -/
def packedDemand (elementWire : UInt8) (bytes : Bytes) : Demand ScanIssue :=
  if bytes = [] then .nothing
  else
    match _ : Cursor.value elementWire bytes with
    | (.error _, _) => .paid (some .malformedWire)
    | (.ok _, rest) => (Demand.paid none).andThen (packedDemand elementWire rest)
termination_by bytes.length
decreasing_by exact (Cursor.value_length (by assumption)).1

section

variable (registry : Registry)

def fieldDemand (nested : Option NestedDemand) (d : Option FieldSchema) (value : WireValue) :
    Demand ScanIssue :=
  match packedField d value with
  | some (_, elementWire, bytes) => packedDemand elementWire bytes
  | none =>
      match value, d.map FieldSchema.kind with
      | .bytes bytes, some (.message name) =>
          match nested with
          | none => .paid (some .depthLimit)
          | some demand => (Demand.paid none).andThen (demand (registry.schemaByName name) bytes)
      | _, _ => .paid none

def loopDemand (nested : Option NestedDemand) (schema : Option MessageSchema) (payload : Bytes) :
    Demand ScanIssue :=
  match _ : Reader.nextField payload with
  | none => .nothing
  | some field =>
      match _ : field with
      | .error _ => .glimpse .malformedWire
      | .ok ((number, value), rest) =>
          if number.toNat = 0 ∨ maxFieldNumber < number.toNat then .glimpse .malformedWire
          else
            (fieldDemand registry nested (schema.bind (·.field number)) value).looked.andThen
              (loopDemand nested schema rest)
termination_by payload.length
decreasing_by exact Reader.readField_length (Reader.nextField_eq_ok (by assumption))

def scanDemand (depth : Nat) : NestedDemand := fun schema payload =>
  let nested : Option NestedDemand :=
    if depth < maxNormalizationDepth then some (scanDemand (depth + 1)) else none
  loopDemand registry nested schema payload
termination_by maxNormalizationDepth - depth

/-- What `preflight_event` asks for. -/
def wireDemand (method : String) (payload : Bytes) : Demand ScanIssue :=
  scanDemand registry 0 (registry.schemaForMethod method) payload

section

variable {registry} {elementWire : UInt8} {nested : Option NestedDemand}
variable {schema : Option MessageSchema} {payload rest : Bytes} {number : UInt32}
variable {value : WireValue}

@[simp] theorem packedDemand_nil : packedDemand elementWire [] = .nothing := by
  rw [packedDemand, if_pos rfl]

theorem packedDemand_element (hbytes : payload ≠ [])
    (h : Cursor.value elementWire payload = (.ok value, rest)) :
    packedDemand elementWire payload =
      (Demand.paid none).andThen (packedDemand elementWire rest) := by
  rw [packedDemand, if_neg hbytes]
  split <;> simp_all

theorem packedDemand_unreadable {e : ProtoError} (hbytes : payload ≠ [])
    (h : Cursor.value elementWire payload = (.error e, rest)) :
    packedDemand elementWire payload = .paid (some .malformedWire) := by
  rw [packedDemand, if_neg hbytes]
  split <;> simp_all

@[simp] theorem loopDemand_nil : loopDemand registry nested schema [] = .nothing := by
  rw [loopDemand]
  rfl

theorem loopDemand_error {e : ProtoError} (hpayload : payload ≠ [])
    (h : Reader.readField payload = .error e) :
    loopDemand registry nested schema payload = .glimpse .malformedWire := by
  have hnext := Reader.nextField_eq_some.mpr ⟨hpayload, h⟩
  rw [loopDemand]
  split
  case h_1 heq => simp [hnext] at heq
  case h_2 field heq =>
    rw [hnext, Option.some.injEq] at heq
    subst heq
    rfl

theorem loopDemand_number (hpayload : payload ≠ [])
    (h : Reader.readField payload = .ok ((number, value), rest))
    (hnumber : ¬(0 < number.toNat ∧ number.toNat ≤ maxFieldNumber)) :
    loopDemand registry nested schema payload = .glimpse .malformedWire := by
  have hnext := Reader.nextField_eq_some.mpr ⟨hpayload, h⟩
  have hout : number.toNat = 0 ∨ maxFieldNumber < number.toNat := by omega
  rw [loopDemand]
  split
  case h_1 heq => simp [hnext] at heq
  case h_2 field heq =>
    rw [hnext, Option.some.injEq] at heq
    subst heq
    simp only [if_pos hout]

theorem loopDemand_field (hpayload : payload ≠ [])
    (h : Reader.readField payload = .ok ((number, value), rest))
    (hnumber : 0 < number.toNat ∧ number.toNat ≤ maxFieldNumber) :
    loopDemand registry nested schema payload =
      (fieldDemand registry nested (schema.bind (·.field number)) value).looked.andThen
        (loopDemand registry nested schema rest) := by
  have hnext := Reader.nextField_eq_some.mpr ⟨hpayload, h⟩
  have hin : ¬(number.toNat = 0 ∨ maxFieldNumber < number.toNat) := by omega
  rw [loopDemand]
  split
  case h_1 heq => simp [hnext] at heq
  case h_2 field heq =>
    rw [hnext, Option.some.injEq] at heq
    subst heq
    simp only [if_neg hin]

end

/-! ## The scan meets its demand -/

/-- A scan from `left` does what is asked. -/
abbrev ScanMeets (d : Demand ScanIssue) (left : Nat) (s : Scanned) : Prop :=
  Demand.Meets ScanIssue.report .fieldLimit d left s.issue s.left

theorem ScanMeets.andThen {here next : Demand ScanIssue} {left : Nat} {s : Scanned}
    {rest : Nat → Option UInt64 → Scanned} (h : ScanMeets here left s)
    (hnext : s.issue = none → ScanMeets next s.left (rest s.left s.timestamp)) :
    ScanMeets (here.andThen next) left (s.andThen rest) := by
  unfold Scanned.andThen
  cases hissue : s.issue with
  | some issue =>
    simp only
    unfold ScanMeets at h ⊢
    rw [hissue] at h ⊢
    exact h.andThen_stop
  | none =>
    unfold ScanMeets at h
    rw [hissue] at h
    exact h.andThen_next (hnext hissue)

theorem packedDemand_needed {elementWire : UInt8} {bytes : Bytes} (hbytes : bytes ≠ []) :
    (packedDemand elementWire bytes).needed ≠ 0 := by
  rw [packedDemand, if_neg hbytes]
  split
  · exact Nat.one_ne_zero
  · have hle : 1 ≤ ((Demand.paid none).andThen (packedDemand elementWire ‹_›)).needed :=
      Nat.le_max_left _ _
    omega

theorem scanPacked_meets (elementWire : UInt8) (bytes : Bytes) (left : Nat)
    (timestamp : Option UInt64) :
    ScanMeets (packedDemand elementWire bytes) left
      (scanPacked elementWire bytes left timestamp) := by
  induction bytes, left, timestamp using scanPacked.induct elementWire with
  | case1 left timestamp =>
    rw [scanPacked_nil, packedDemand_nil]
    exact .nothing
  | case2 bytes timestamp hbytes =>
    have hout : scanPacked elementWire bytes 0 timestamp =
        { issue := some .fieldLimit, left := 0, timestamp, met := [.limit] } := by
      rw [scanPacked, if_neg hbytes, if_pos rfl]
    rw [hout]
    exact .out (packedDemand_needed hbytes)
  | case3 bytes left timestamp hbytes hleft e rest hread =>
    rw [scanPacked_unreadable hbytes hleft hread, packedDemand_unreadable hbytes hread]
    exact Demand.Meets.paid hleft
  | case4 bytes left timestamp hbytes hleft v rest hread ih =>
    rw [scanPacked_element hbytes hleft hread, packedDemand_element hbytes hread]
    exact ScanMeets.andThen (Demand.Meets.paid hleft) fun _ => ih _ _

variable {registry} {nested : Option NestedScan} {demands : Option NestedDemand}

/-- A nested scan meets its demand from every budget. -/
abbrev NestedMeets : Option NestedScan → Option NestedDemand → Prop :=
  Option.Rel fun scan demand => ∀ schema payload common left timestamp,
    ScanMeets (demand schema payload) left (scan schema payload common left timestamp)

theorem scanField_meets (hnested : NestedMeets nested demands) (isCommon : Bool)
    (d : Option FieldSchema) (value : WireValue) {left : Nat} (hleft : left ≠ 0)
    (timestamp : Option UInt64) :
    ScanMeets (fieldDemand registry demands d value) left
      (scanField registry nested isCommon d value left timestamp) := by
  unfold fieldDemand scanField
  cases packedField d value with
  | some packed => exact scanPacked_meets _ _ _ _
  | none =>
    cases value with
    | bytes bytes =>
      cases d.map FieldSchema.kind with
      | none => exact Demand.Meets.paid hleft
      | some kind =>
        cases kind with
        | message name =>
          cases hnested with
          | none => exact Demand.Meets.paid hleft
          | some hscan =>
            have hpaid : ScanMeets (.paid none) left { left := left - 1, timestamp } :=
              Demand.Meets.paid hleft
            exact hpaid.andThen_next (hscan _ _ _ _ _)
        | varint | fixed64 | fixed32 | string | bytes => exact Demand.Meets.paid hleft
    | varint v | fixed64 v | fixed32 v => exact Demand.Meets.paid hleft

theorem loopDemand_needed {schema : Option MessageSchema} {payload : Bytes}
    (hpayload : payload ≠ []) : (loopDemand registry demands schema payload).needed ≠ 0 := by
  cases hread : Reader.readField payload with
  | error e =>
    rw [loopDemand_error hpayload hread]
    exact Nat.one_ne_zero
  | ok field =>
    obtain ⟨⟨number, value⟩, rest⟩ := field
    by_cases hnumber : 0 < number.toNat ∧ number.toNat ≤ maxFieldNumber
    · rw [loopDemand_field hpayload hread hnumber]
      have hlooked := Demand.looked_needed
        (fieldDemand registry demands (schema.bind (·.field number)) value)
      have hle := Demand.le_andThen_needed
        (fieldDemand registry demands (schema.bind (·.field number)) value).looked
        (loopDemand registry demands schema rest)
      omega
    · rw [loopDemand_number hpayload hread hnumber]
      exact Nat.one_ne_zero

theorem scanLoop_meets (hnested : NestedMeets nested demands) (schema : Option MessageSchema)
    (top common seenCommon seenTimestamp : Bool) (payload : Bytes) (left : Nat)
    (timestamp : Option UInt64) :
    ScanMeets (loopDemand registry demands schema payload) left
      (scanLoop registry nested schema top common seenCommon seenTimestamp payload left
        timestamp) := by
  by_cases hpayload : payload = []
  · subst hpayload
    rw [scanLoop_nil, loopDemand_nil]
    exact .nothing
  by_cases hleft : left = 0
  · subst hleft
    rw [scanLoop_out hpayload]
    exact .out (loopDemand_needed hpayload)
  cases hread : Reader.readField payload with
  | error e =>
    rw [scanLoop_error hpayload hleft hread, loopDemand_error hpayload hread]
    exact .glimpse hleft
  | ok field =>
    obtain ⟨⟨number, value⟩, rest⟩ := field
    by_cases hnumber : 0 < number.toNat ∧ number.toNat ≤ maxFieldNumber
    · have hlength : rest.length < payload.length := Reader.readField_length hread
      rw [scanLoop_field hpayload hleft hread hnumber, loopDemand_field hpayload hread hnumber]
      refine ScanMeets.andThen ?_ fun _ => scanLoop_meets hnested schema _ _ _ _ rest _ _
      exact (scanField_meets hnested _ _ value hleft _).looked hleft
    · rw [scanLoop_number hpayload hleft hread hnumber, loopDemand_number hpayload hread hnumber]
      exact .glimpse hleft
termination_by payload.length

theorem scan_meets (depth : Nat) (schema : Option MessageSchema) (payload : Bytes)
    (common : Bool) (left : Nat) (timestamp : Option UInt64) :
    ScanMeets (scanDemand registry depth schema payload) left
      (scan registry depth schema payload common left timestamp) := by
  rw [scan, scanDemand]
  refine scanLoop_meets ?_ _ _ _ _ _ _ _ _
  split_ifs with hdescend
  · exact .some (scan_meets (depth + 1))
  · exact .none
termination_by maxNormalizationDepth - depth

/-! ## The verdict of the preflight -/

theorem ScanIssue.report_ne_fieldLimit (issue : ScanIssue) : issue.report ≠ .fieldLimit := by
  cases issue <;> simp [ScanIssue.report]

variable {method : String} {payload : Bytes} {budget : Nat}

theorem wire_meets :
    ScanMeets (wireDemand registry method payload) (min budget maxSchemaFields)
      (scan registry 0 (registry.schemaForMethod method) payload false
        (min budget maxSchemaFields) none) :=
  scan_meets 0 _ _ _ _ _

/-- The batch's budget ends before the scan does; or the event's own limit
is met; or the payload has its own issue. -/
theorem preflightEvent_verdict :
    (preflightEvent registry method payload budget).1 =
      if budget < min maxSchemaFields (wireDemand registry method payload).needed then
        some .batchFieldLimit
      else if maxSchemaFields < (wireDemand registry method payload).needed then some .fieldLimit
      else (wireDemand registry method payload).issue.map ScanIssue.report := by
  simp only [preflightEvent, wire_meets.result_eq]
  by_cases hneeded : min budget maxSchemaFields < (wireDemand registry method payload).needed
  · rw [if_pos hneeded]
    simp only [true_and]
    split_ifs <;> first | rfl | omega
  · have hissue : (wireDemand registry method payload).issue.map ScanIssue.report ≠
        some .fieldLimit := by
      rw [ne_eq, Option.map_eq_some_iff]
      rintro ⟨issue, -, hreport⟩
      exact issue.report_ne_fieldLimit hreport
    rw [if_neg hneeded, if_neg fun h => hissue h.1]
    split_ifs <;> first | rfl | omega

theorem preflightEvent_left :
    (preflightEvent registry method payload budget).2.2 =
      budget - min (min budget maxSchemaFields) (wireDemand registry method payload).cost := by
  simp only [preflightEvent, wire_meets.left_eq]
  omega

end

end TiktokSigner.LiveEvents
