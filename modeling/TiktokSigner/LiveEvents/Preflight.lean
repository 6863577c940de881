import TiktokSigner.LiveEvents.Dynamic

/-!
# The preflight scan

`preflight_event` walks the same payload with `Reader`, without building a
schema tree: it enforces the field and depth budgets of normalisation,
finds the common creation time, and reports the first issue. It returns at
once on an issue, so a turn of its loop is followed by the next only
without one.
-/

namespace TiktokSigner.LiveEvents

open LiveProto

inductive NormalizationStatus where
  | normalized
  | unsupportedMethod
  | malformedWire
  | decodeError
  | payloadLimit
  | fieldLimit
  | batchFieldLimit
  | depthLimit
  | notRequested
deriving DecidableEq

/-- What a part of the scan leaves: the issue it returns with, if any, the
budget and the timestamp. -/
structure Scanned where
  issue : Option NormalizationStatus := none
  left : Nat
  timestamp : Option UInt64
  met : List Met := []

namespace Scanned

/-- The rest of the scan, unless an issue ended it. -/
def andThen (here : Scanned) (next : Nat → Option UInt64 → Scanned) : Scanned :=
  match here.issue with
  | some _ => here
  | none =>
      let next := next here.left here.timestamp
      { next with met := here.met ++ next.met }

end Scanned

/-- The loop over a packed field; an element is charged before it is read. -/
def scanPacked (elementWire : UInt8) (bytes : Bytes) (left : Nat) (timestamp : Option UInt64) :
    Scanned :=
  if bytes = [] then { left, timestamp }
  else if left = 0 then { issue := some .fieldLimit, left, timestamp, met := [.limit] }
  else
    match _ : Cursor.value elementWire bytes with
    | (.error _, _) =>
        { issue := some .malformedWire, left := left - 1, timestamp, met := [.unreadable] }
    | (.ok v, rest) =>
        Scanned.andThen { left := left - 1, timestamp, met := [.element v] }
          (scanPacked elementWire rest)
termination_by bytes.length
decreasing_by exact (Cursor.value_length (by assumption)).1

/-- A nested scan: descriptor, bytes, whether it is the common block,
budget and timestamp. -/
abbrev NestedScan := Option MessageSchema → Bytes → Bool → Nat → Option UInt64 → Scanned

section

variable (registry : Registry)

/-- A field that was read, with a budget above zero. `nested` is absent at
the depth limit; `isCommon` says that a message here is the common block. -/
def scanField (nested : Option NestedScan) (isCommon : Bool) (d : Option FieldSchema)
    (value : WireValue) (left : Nat) (timestamp : Option UInt64) : Scanned :=
  match packedField d value with
  | some (_, elementWire, bytes) => scanPacked elementWire bytes left timestamp
  | none =>
      let left := left - 1
      match value, d.map FieldSchema.kind with
      | .bytes bytes, some (.message name) =>
          match nested with
          | none => { issue := some .depthLimit, left, timestamp, met := [.limit] }
          | some scan => scan (registry.schemaByName name) bytes isCommon left timestamp
      | _, _ => { left, timestamp }

/-- The field is a nested message. -/
def isNested (d : Option FieldSchema) (value : WireValue) : Bool :=
  match value, d.map FieldSchema.kind with
  | .bytes _, some (.message _) => true
  | _, _ => false

/-- The value of a `create_time` field. -/
def createTime : WireValue → Option UInt64
  | .varint v | .fixed64 v => some v
  | .fixed32 v => some v.toUInt64
  | .bytes _ => none

/-- The loop of `scan`. `top` is `depth == 0`, `common` says that this is
the common block; `seenCommon` and `seenTimestamp` are the loop's flags. -/
def scanLoop (nested : Option NestedScan) (schema : Option MessageSchema) (top common : Bool)
    (seenCommon seenTimestamp : Bool) (payload : Bytes) (left : Nat) (timestamp : Option UInt64) :
    Scanned :=
  match _ : Reader.nextField payload with
  | none => { left, timestamp }
  | some field =>
      if left = 0 then { issue := some .fieldLimit, left, timestamp, met := [.limit] }
      else
        match _ : field with
        | .error _ => { issue := some .malformedWire, left, timestamp, met := [.unreadable] }
        | .ok ((number, value), rest) =>
            if number.toNat = 0 ∨ maxFieldNumber < number.toNat then
              { issue := some .malformedWire, left, timestamp, met := [.unreadable] }
            else
              let d := schema.bind (·.field number)
              let isTime := common && !seenTimestamp && d.any (·.name == "create_time")
              let timestamp := if isTime then createTime value else timestamp
              let isCommon := top && !seenCommon && d.any (·.name == "common")
              let here := scanField registry nested isCommon d value left timestamp
              Scanned.andThen
                { here with met := .field payload number value.wireType value :: here.met }
                (scanLoop nested schema top common (seenCommon || isNested d value && isCommon)
                  (seenTimestamp || isTime) rest)
termination_by payload.length
decreasing_by exact Reader.readField_length (Reader.nextField_eq_ok (by assumption))

/-! ### One turn of the loops -/

section

variable {registry} {elementWire : UInt8} {payload rest : Bytes} {left : Nat}
variable {timestamp : Option UInt64} {nested : Option NestedScan}
variable {schema : Option MessageSchema} {top common seenCommon seenTimestamp : Bool}
variable {number : UInt32} {value : WireValue}

@[simp] theorem scanPacked_nil :
    scanPacked elementWire [] left timestamp = { left, timestamp } := by
  rw [scanPacked, if_pos rfl]

theorem scanPacked_element (hbytes : payload ≠ []) (hleft : left ≠ 0)
    (h : Cursor.value elementWire payload = (.ok value, rest)) :
    scanPacked elementWire payload left timestamp =
      Scanned.andThen { left := left - 1, timestamp, met := [.element value] }
        (scanPacked elementWire rest) := by
  rw [scanPacked, if_neg hbytes, if_neg hleft]
  split
  case h_1 heq => simp [h] at heq
  case h_2 v r heq =>
    rw [h, Prod.mk.injEq, Except.ok.injEq] at heq
    obtain ⟨rfl, rfl⟩ := heq
    rfl

theorem scanPacked_unreadable {e : ProtoError} (hbytes : payload ≠ []) (hleft : left ≠ 0)
    (h : Cursor.value elementWire payload = (.error e, rest)) :
    scanPacked elementWire payload left timestamp =
      { issue := some .malformedWire, left := left - 1, timestamp, met := [.unreadable] } := by
  rw [scanPacked, if_neg hbytes, if_neg hleft]
  split
  case h_1 => rfl
  case h_2 heq => simp [h] at heq

@[simp] theorem scanLoop_nil :
    scanLoop registry nested schema top common seenCommon seenTimestamp [] left timestamp =
      { left, timestamp } := by
  rw [scanLoop]
  rfl

theorem scanLoop_out (hpayload : payload ≠ []) :
    scanLoop registry nested schema top common seenCommon seenTimestamp payload 0 timestamp =
      { issue := some .fieldLimit, left := 0, timestamp, met := [.limit] } := by
  have hnext := Reader.nextField_eq_some.mpr ⟨hpayload, rfl⟩
  rw [scanLoop]
  split
  case h_1 heq => simp [hnext] at heq
  case h_2 => rw [if_pos rfl]

theorem scanLoop_error {e : ProtoError} (hpayload : payload ≠ []) (hleft : left ≠ 0)
    (h : Reader.readField payload = .error e) :
    scanLoop registry nested schema top common seenCommon seenTimestamp payload left timestamp =
      { issue := some .malformedWire, left, timestamp, met := [.unreadable] } := by
  have hnext := Reader.nextField_eq_some.mpr ⟨hpayload, h⟩
  rw [scanLoop]
  split
  case h_1 heq => simp [hnext] at heq
  case h_2 field heq =>
    rw [hnext, Option.some.injEq] at heq
    subst heq
    rw [if_neg hleft]

theorem scanLoop_number (hpayload : payload ≠ []) (hleft : left ≠ 0)
    (h : Reader.readField payload = .ok ((number, value), rest))
    (hnumber : ¬(0 < number.toNat ∧ number.toNat ≤ maxFieldNumber)) :
    scanLoop registry nested schema top common seenCommon seenTimestamp payload left timestamp =
      { issue := some .malformedWire, left, timestamp, met := [.unreadable] } := by
  have hnext := Reader.nextField_eq_some.mpr ⟨hpayload, h⟩
  have hout : number.toNat = 0 ∨ maxFieldNumber < number.toNat := by omega
  rw [scanLoop]
  split
  case h_1 heq => simp [hnext] at heq
  case h_2 field heq =>
    rw [hnext, Option.some.injEq] at heq
    subst heq
    rw [if_neg hleft]
    simp only [if_pos hout]

theorem scanLoop_field (hpayload : payload ≠ []) (hleft : left ≠ 0)
    (h : Reader.readField payload = .ok ((number, value), rest))
    (hnumber : 0 < number.toNat ∧ number.toNat ≤ maxFieldNumber) :
    scanLoop registry nested schema top common seenCommon seenTimestamp payload left timestamp =
      let d := schema.bind (·.field number)
      let isTime := common && !seenTimestamp && d.any (·.name == "create_time")
      let isCommon := top && !seenCommon && d.any (·.name == "common")
      let here := scanField registry nested isCommon d value left
        (if isTime then createTime value else timestamp)
      Scanned.andThen { here with met := .field payload number value.wireType value :: here.met }
        (scanLoop registry nested schema top common (seenCommon || isNested d value && isCommon)
          (seenTimestamp || isTime) rest) := by
  have hnext := Reader.nextField_eq_some.mpr ⟨hpayload, h⟩
  have hin : ¬(number.toNat = 0 ∨ maxFieldNumber < number.toNat) := by omega
  rw [scanLoop]
  split
  case h_1 heq => simp [hnext] at heq
  case h_2 field heq =>
    rw [hnext, Option.some.injEq] at heq
    subst heq
    rw [if_neg hleft]
    simp only [if_neg hin]

end

/-- `scan`, nested in `preflight_event`. -/
def scan (depth : Nat) : NestedScan := fun schema payload common left timestamp =>
  let nested : Option NestedScan :=
    if depth < maxNormalizationDepth then some (scan (depth + 1)) else none
  scanLoop registry nested schema (depth == 0) common false false payload left timestamp
termination_by maxNormalizationDepth - depth

/-- `preflight_event`: issue, timestamp and the budget left. -/
def preflightEvent (method : String) (payload : Bytes) (budget : Nat) :
    Option NormalizationStatus × Option UInt64 × Nat :=
  let allowance := min budget maxSchemaFields
  let scanned := scan registry 0 (registry.schemaForMethod method) payload false allowance none
  let issue :=
    if scanned.issue = some .fieldLimit ∧ allowance < maxSchemaFields then
      some .batchFieldLimit
    else scanned.issue
  (issue, scanned.timestamp, budget - (allowance - scanned.left))

end

end TiktokSigner.LiveEvents
