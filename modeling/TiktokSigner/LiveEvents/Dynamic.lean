import TiktokSigner.SignCore.Wire
import TiktokSigner.LiveProto.Registry

/-!
# The bounded dynamic decoder

`decode_object` of `dynamic.rs` decodes an event through the registry's
descriptors, with its own cursor. A cursor is its unread bytes; unlike
`Reader` it is looked at after an error too, so every read returns what
is left in both cases.

The loops are written over the unread bytes: one turn decodes one field
(`decodeField`) or one packed element, and `followedBy` puts the turns
together. Besides what the source returns, a turn says what it met on the
wire (`Met`), so that two walks over one payload can be compared.

Floats are kept as their bits.
-/

namespace TiktokSigner.LiveEvents

open LiveProto

def maxSchemaDepth : Nat := 8
def maxNormalizationDepth : Nat := 100
def maxSchemaFields : Nat := 4096
def maxEventBytes : Nat := 4 * 1024 * 1024
def maxFieldNumber : Nat := 0x1fffffff

/-- `RawProtoValue` is the owned form of `WireValue`. -/
abbrev RawProtoValue := WireValue

/-! ## The cursor -/

namespace Cursor

/-- The digits from `i` on. Digit 9 is at most 1 and so ends the loop. -/
def varintLoop (v : UInt64) (i : Nat) : Bytes → Except ProtoError UInt64 × Bytes
  | [] => (.error .truncated, [])
  | b :: bytes =>
      if i = 9 ∧ b > 1 then (.error .varintOverflow, bytes)
      else
        let v := v ||| ((b &&& 127).toUInt64 <<< UInt64.ofNat (i * 7))
        if b < 128 then (.ok v, bytes) else varintLoop v (i + 1) bytes

def varint (bytes : Bytes) : Except ProtoError UInt64 × Bytes :=
  varintLoop 0 0 bytes

def take (n : Nat) (bytes : Bytes) : Except ProtoError Bytes × Bytes :=
  if n ≤ bytes.length then (.ok (bytes.take n), bytes.drop n) else (.error .truncated, bytes)

/-- Pass the result of a read on; an error stays where it happened. -/
def andThen {α β : Type} (read : Except ProtoError α × Bytes)
    (next : α → Bytes → Except ProtoError β × Bytes) : Except ProtoError β × Bytes :=
  match read with
  | (.ok a, rest) => next a rest
  | (.error e, rest) => (.error e, rest)

def value (wire : UInt8) (bytes : Bytes) : Except ProtoError RawProtoValue × Bytes :=
  match wire.toNat with
  | 0 => andThen (varint bytes) fun v rest => (.ok (.varint v), rest)
  | 1 => andThen (take 8 bytes) fun b rest => (.ok (.fixed64 (UInt64.ofNat (fromLe b))), rest)
  | 5 => andThen (take 4 bytes) fun b rest => (.ok (.fixed32 (UInt32.ofNat (fromLe b))), rest)
  | 2 =>
      andThen (varint bytes) fun n rest =>
        andThen (take n.toNat rest) fun b rest => (.ok (.bytes b), rest)
  | _ => (.error (.unsupportedWireType wire), bytes)

/-- What is at the head of the unread bytes of a message. -/
inductive Head where
  | unreadableTag
  | unreadableValue (number : UInt32) (wire : UInt8)
  | field (number : UInt32) (wire : UInt8) (raw : RawProtoValue) (rest : Bytes)

/-- The tag and the value that a turn of `decode_object` reads. -/
def head (bytes : Bytes) : Head :=
  match varint bytes with
  | (.error _, _) => .unreadableTag
  | (.ok tag, rest) =>
      if 0 < (tag >>> 3).toNat ∧ (tag >>> 3).toNat ≤ maxFieldNumber then
        let number := (tag >>> 3).toUInt32
        let wire := (tag &&& 7).toUInt8
        match value wire rest with
        | (.error _, _) => .unreadableValue number wire
        | (.ok raw, rest) => .field number wire raw rest
      else .unreadableTag

theorem varintLoop_length : ∀ {bytes rest : Bytes} {v : UInt64} {i : Nat} {acc : UInt64},
    varintLoop acc i bytes = (.ok v, rest) → rest.length < bytes.length
  | [], _, _, _, _, h => by simp [varintLoop] at h
  | b :: bytes, rest, v, i, acc, h => by
      rw [varintLoop] at h
      split_ifs at h with hover hlast
      · simp at h
      · simp only [Prod.mk.injEq] at h
        simp [h.2]
      · exact Nat.lt_succ_of_lt (varintLoop_length h)

theorem varint_length {bytes rest : Bytes} {v : UInt64} (h : varint bytes = (.ok v, rest)) :
    rest.length < bytes.length :=
  varintLoop_length h

theorem take_eq_ok {n : Nat} {bytes b rest : Bytes} (h : take n bytes = (.ok b, rest)) :
    bytes = b ++ rest ∧ b.length = n := by
  rw [take] at h
  split_ifs at h with hn
  · simp only [Prod.mk.injEq, Except.ok.injEq] at h
    obtain ⟨rfl, rfl⟩ := h
    exact ⟨(List.take_append_drop n bytes).symm, by simp [hn]⟩
  · simp at h

theorem andThen_eq_ok {α β : Type} {read : Except ProtoError α × Bytes}
    {next : α → Bytes → Except ProtoError β × Bytes} {b : β} {rest : Bytes} :
    andThen read next = (.ok b, rest) ↔ ∃ a r, read = (.ok a, r) ∧ next a r = (.ok b, rest) := by
  obtain ⟨result, r⟩ := read
  cases result <;> simp [andThen]

/-- Every value takes at least one byte; the loops end. -/
theorem value_length {wire : UInt8} {bytes rest : Bytes} {v : RawProtoValue}
    (h : value wire bytes = (.ok v, rest)) :
    rest.length < bytes.length ∧ ∀ b, v = .bytes b → b.length < bytes.length := by
  rw [value] at h
  split at h
  case h_1 =>
    obtain ⟨n, r, hread, hv⟩ := andThen_eq_ok.mp h
    simp only [Prod.mk.injEq, Except.ok.injEq] at hv
    obtain ⟨rfl, rfl⟩ := hv
    exact ⟨varint_length hread, by simp⟩
  case h_2 | h_3 =>
    obtain ⟨b, r, hread, hv⟩ := andThen_eq_ok.mp h
    simp only [Prod.mk.injEq, Except.ok.injEq] at hv
    obtain ⟨rfl, rfl⟩ := hv
    obtain ⟨rfl, hlen⟩ := take_eq_ok hread
    exact ⟨by simp; omega, by simp⟩
  case h_4 =>
    obtain ⟨n, r, hread, h'⟩ := andThen_eq_ok.mp h
    obtain ⟨b, r', htake, hv⟩ := andThen_eq_ok.mp h'
    simp only [Prod.mk.injEq, Except.ok.injEq] at hv
    obtain ⟨rfl, rfl⟩ := hv
    have hlen := varint_length hread
    rw [(take_eq_ok htake).1, List.length_append] at hlen
    exact ⟨by omega, by rintro b' ⟨rfl⟩; omega⟩
  case h_5 => simp at h

theorem head_length {bytes rest : Bytes} {number : UInt32} {wire : UInt8} {raw : RawProtoValue}
    (h : head bytes = .field number wire raw rest) : rest.length < bytes.length := by
  rw [head] at h
  split at h
  case h_1 => cases h
  case h_2 tag r hvarint =>
    split_ifs at h
    dsimp only at h
    split at h
    case h_1 => cases h
    case h_2 raw' rest' hvalue =>
      simp only [Head.field.injEq] at h
      obtain ⟨-, -, -, rfl⟩ := h
      exact Nat.lt_trans (value_length hvalue).1 (varint_length hvarint)

end Cursor

/-! ## Decoded values -/

mutual

/-- Lossless-or-bounded value. -/
inductive SchemaValue where
  /-- Unknown wire-level integer. -/
  | varint (v : UInt64)
  | int64 (v : Int64)
  | uint64 (v : UInt64)
  | sint64 (v : Int64)
  | int32 (v : Int32)
  | uint32 (v : UInt32)
  | sint32 (v : Int32)
  | sfixed64 (v : Int64)
  | sfixed32 (v : Int32)
  | double (bits : UInt64)
  | float (bits : UInt32)
  | bool (v : Bool)
  | enum (number : Int32) (name : Option String) (enumType : String)
  | fixed64 (v : UInt64)
  | fixed32 (v : UInt32)
  | text (s : String)
  | bytes (b : Bytes)
  | message (object : SchemaObject)
  /-- A limit was reached before these bytes could be interpreted. -/
  | truncated (b : Bytes)

structure SchemaField where
  number : UInt32
  name : Option String
  value : SchemaValue
  descriptor : Option FieldSchema
  wireType : UInt8
  warning : Bool

/-- A nested object: fields in wire order. -/
structure SchemaObject where
  schema : Option MessageSchema
  fields : List SchemaField
  /-- A limit stopped decoding before this object ended. -/
  truncated : Bool
  warning : Bool

end

mutual

/-- Nodes of a list of fields, nested messages included. -/
def fieldsCount : List SchemaField → Nat
  | [] => 0
  | ⟨_, _, value, _, _, _⟩ :: fields => 1 + value.fieldsCount + fieldsCount fields

def SchemaValue.fieldsCount : SchemaValue → Nat
  | .message ⟨_, fields, _, _⟩ => LiveEvents.fieldsCount fields
  | _ => 0

end

/-- The `field` constructor function. -/
def mkField (number : UInt32) (wireType : UInt8) (descriptor : Option FieldSchema)
    (value : SchemaValue) (warning : Bool) : SchemaField :=
  { number, name := descriptor.map (·.name), value, descriptor, wireType, warning }

/-- A page event decoded against its descriptor, when one exists. -/
structure SchemaMessage where
  method : String
  schema : Option MessageSchema
  fields : List SchemaField
  truncated : Bool
  warning : Bool

section

variable (registry : Registry)

/-- A value by its declared kind, and whether the kinds disagree. -/
def scalar (raw : RawProtoValue) (d : Option FieldSchema) : SchemaValue × Bool :=
  match raw, d.map FieldSchema.valueKind with
  | .varint v, some .int64 => (.int64 v.toInt64, false)
  | .varint v, some .uint64 => (.uint64 v, false)
  | .varint v, some .sint64 => (.sint64 ((v >>> 1) ^^^ (0 - (v &&& 1))).toInt64, false)
  | .varint v, some .int32 => (.int32 v.toUInt32.toInt32, false)
  | .varint v, some .uint32 => (.uint32 v.toUInt32, false)
  | .varint v, some .sint32 =>
      let v := v.toUInt32
      (.sint32 ((v >>> 1) ^^^ (0 - (v &&& 1))).toInt32, false)
  | .varint v, some .bool => (.bool (v != 0), false)
  | .varint v, some (.enum enumType) =>
      let number := v.toUInt32.toInt32
      let name := (registry.enumByName enumType).bind fun e =>
        (e.values.find? fun value => value.number == number).map (·.name)
      (.enum number name enumType, false)
  | .fixed32 v, some .float => (.float v, false)
  | .fixed32 v, some .sfixed32 => (.sfixed32 v.toInt32, false)
  | .fixed64 v, some .double => (.double v, false)
  | .fixed64 v, some .sfixed64 => (.sfixed64 v.toInt64, false)
  | .varint v, _ => (.varint v, d.isSome)
  | .fixed32 v, kind => (.fixed32 v, kind.any (· != .fixed32))
  | .fixed64 v, kind => (.fixed64 v, kind.any (· != .fixed64))
  | .bytes b, _ => (.bytes b, d.isSome)

/-! ## The walk -/

/-- What a walk over a payload meets, in order. Not in the source. -/
inductive Met where
  /-- A field read from the unread bytes `start`. -/
  | field (start : Bytes) (number : UInt32) (wire : UInt8) (value : RawProtoValue)
  /-- An element of a packed field. -/
  | element (value : RawProtoValue)
  /-- A tag, value or packed element that cannot be read. -/
  | unreadable
  /-- The end of a field budget or of the nesting depth. -/
  | limit
deriving DecidableEq

/-- What a part of a loop leaves: fields decoded, flags raised, budget, and
what was met on the wire. -/
structure Decoded where
  fields : List SchemaField := []
  truncated : Bool := false
  warning : Bool := false
  remaining : Nat
  met : List Met := []

namespace Decoded

/-- The rest of the loop after a part of it. -/
def followedBy (here next : Decoded) : Decoded where
  fields := here.fields ++ next.fields
  truncated := here.truncated || next.truncated
  warning := here.warning || next.warning
  remaining := next.remaining
  met := here.met ++ next.met

def toObject (d : Decoded) (schema : Option MessageSchema) : SchemaObject :=
  { schema, fields := d.fields, truncated := d.truncated, warning := d.warning }

/-- One field pushed, with its warning. -/
def push (field : SchemaField) (remaining : Nat) : Decoded :=
  { fields := [field], warning := field.warning, remaining }

/-- A field or element that cannot be read: its bytes are kept. -/
def unreadable (field : SchemaField) (remaining : Nat) : Decoded :=
  { fields := [field], truncated := true, warning := true, remaining, met := [.unreadable] }

end Decoded

/-- The wire type of a packed field's elements. -/
def packedWire (d : FieldSchema) : Option UInt8 :=
  if d.cardinality = .repeated then
    match d.kind with
    | .varint => some 0
    | .fixed32 => some 5
    | .fixed64 => some 1
    | .string | .bytes | .message _ => none
  else none

/-- The packed field that a value with this descriptor is, if it is one:
descriptor, element wire type, bytes. -/
def packedField (d : Option FieldSchema) (raw : RawProtoValue) :
    Option (FieldSchema × UInt8 × Bytes) :=
  match raw, d with
  | .bytes b, some d => (packedWire d).map fun wire => (d, wire, b)
  | _, _ => none

/-- The loop over the elements of a packed field. An element is charged
before it is read. -/
def decodePacked (d : FieldSchema) (number : UInt32) (wire elementWire : UInt8) (b : Bytes)
    (remaining : Nat) : Decoded :=
  if b = [] then { remaining }
  else if remaining = 0 then { truncated := true, remaining, met := [.limit] }
  else
    match _ : Cursor.value elementWire b with
    | (.ok v, rest) =>
        let (value, warning) := scalar registry v (some d)
        let here := Decoded.push (mkField number wire (some d) value warning) (remaining - 1)
        Decoded.followedBy { here with met := [.element v] }
          (decodePacked d number wire elementWire rest (remaining - 1))
    | (.error _, rest) =>
        let field := mkField number wire (some d) (.truncated b) true
        { Decoded.unreadable field (remaining - 1) with truncated := rest ≠ [] }
termination_by b.length
decreasing_by exact (Cursor.value_length (by assumption)).1

/-- A nested decode, from the nested type's descriptor, its bytes and the
budget. -/
abbrev Nested := Option MessageSchema → Bytes → Nat → Decoded

/-- A nested message. `nested` is absent at the depth limit. -/
def decodeNested (nested : Option Nested) (d : Option FieldSchema) (number : UInt32)
    (wire : UInt8) (name : String) (b : Bytes) (remaining : Nat) : Decoded :=
  let push := fun value warning => Decoded.push (mkField number wire d value warning) remaining
  match nested with
  | some decode =>
      if remaining = 0 then
        { push (.truncated b) false with truncated := true, met := [.limit] }
      else
        let schema := registry.schemaByName name
        let nested := decode schema b remaining
        if nested.warning then
          { push (.bytes b) true with
            remaining := nested.remaining
            met := nested.met }
        else
          { push (.message (nested.toObject schema)) false with
            truncated := nested.truncated
            remaining := nested.remaining
            met := nested.met }
  | none => { push (.truncated b) false with truncated := true, met := [.limit] }

/-- A field that was read, with a budget above zero. -/
def decodeField (nested : Option Nested) (d : Option FieldSchema) (number : UInt32) (wire : UInt8)
    (raw : RawProtoValue) (remaining : Nat) : Decoded :=
  match packedField d raw with
  | some (d, elementWire, b) => decodePacked registry d number wire elementWire b remaining
  | none =>
      let remaining := remaining - 1
      let push := fun value warning => Decoded.push (mkField number wire d value warning) remaining
      match raw with
      | .bytes b =>
          match d.map FieldSchema.kind with
          | some .string =>
              match fromUtf8 b with
              | some s => push (.text s) false
              | none => push (.bytes b) true
          | some (.message name) => decodeNested registry nested d number wire name b remaining
          | some .bytes | none => push (.bytes b) false
          | some .varint | some .fixed32 | some .fixed64 => push (.bytes b) true
      | raw =>
          let (value, warning) := scalar registry raw d
          push value warning

/-- The field loop of `decode_object`. -/
def decodeLoop (nested : Option Nested) (schema : Option MessageSchema) (payload : Bytes)
    (remaining : Nat) : Decoded :=
  if payload = [] then { remaining }
  else if remaining = 0 then { truncated := true, remaining, met := [.limit] }
  else
    match _ : Cursor.head payload with
    | .unreadableTag => { truncated := true, warning := true, remaining, met := [.unreadable] }
    | .unreadableValue number wire =>
        -- pushed without a charge
        let d := schema.bind (·.field number)
        Decoded.unreadable (mkField number wire d (.truncated payload) true) remaining
    | .field number wire raw rest =>
        let d := schema.bind (·.field number)
        let here := decodeField registry nested d number wire raw remaining
        Decoded.followedBy { here with met := .field payload number wire raw :: here.met }
          (decodeLoop nested schema rest here.remaining)
termination_by payload.length
decreasing_by exact Cursor.head_length (by assumption)

/-! ### One turn of the loops -/

section

variable {registry} {d : FieldSchema} {number : UInt32} {wire elementWire : UInt8}
variable {nested : Option Nested} {schema : Option MessageSchema} {payload rest : Bytes}
variable {raw : RawProtoValue} {remaining : Nat}

@[simp] theorem decodePacked_nil :
    decodePacked registry d number wire elementWire [] remaining = { remaining } := by
  rw [decodePacked, if_pos rfl]

theorem decodePacked_out (hb : payload ≠ []) :
    decodePacked registry d number wire elementWire payload 0 =
      { truncated := true, remaining := 0, met := [.limit] } := by
  rw [decodePacked, if_neg hb, if_pos rfl]

theorem decodePacked_element (hb : payload ≠ []) (hremaining : remaining ≠ 0)
    (h : Cursor.value elementWire payload = (.ok raw, rest)) :
    decodePacked registry d number wire elementWire payload remaining =
      Decoded.followedBy
        { Decoded.push (mkField number wire (some d) (scalar registry raw (some d)).1
            (scalar registry raw (some d)).2) (remaining - 1) with met := [.element raw] }
        (decodePacked registry d number wire elementWire rest (remaining - 1)) := by
  rw [decodePacked, if_neg hb, if_neg hremaining]
  split
  case h_1 v r heq =>
    rw [h, Prod.mk.injEq, Except.ok.injEq] at heq
    obtain ⟨rfl, rfl⟩ := heq
    rfl
  case h_2 heq => simp [h] at heq

theorem decodePacked_unreadable {e : ProtoError} (hb : payload ≠ []) (hremaining : remaining ≠ 0)
    (h : Cursor.value elementWire payload = (.error e, rest)) :
    decodePacked registry d number wire elementWire payload remaining =
      { Decoded.unreadable (mkField number wire (some d) (.truncated payload) true)
          (remaining - 1) with truncated := rest ≠ [] } := by
  rw [decodePacked, if_neg hb, if_neg hremaining]
  split
  case h_1 heq => simp [h] at heq
  case h_2 r heq =>
    rw [h, Prod.mk.injEq] at heq
    obtain ⟨-, rfl⟩ := heq
    rfl

@[simp] theorem decodeLoop_nil :
    decodeLoop registry nested schema [] remaining = { remaining } := by
  rw [decodeLoop, if_pos rfl]

theorem decodeLoop_out (hpayload : payload ≠ []) :
    decodeLoop registry nested schema payload 0 =
      { truncated := true, remaining := 0, met := [.limit] } := by
  rw [decodeLoop, if_neg hpayload, if_pos rfl]

theorem decodeLoop_tag (hpayload : payload ≠ []) (hremaining : remaining ≠ 0)
    (h : Cursor.head payload = .unreadableTag) :
    decodeLoop registry nested schema payload remaining =
      { truncated := true, warning := true, remaining, met := [.unreadable] } := by
  rw [decodeLoop, if_neg hpayload, if_neg hremaining]
  split <;> simp_all

theorem decodeLoop_value (hpayload : payload ≠ []) (hremaining : remaining ≠ 0)
    (h : Cursor.head payload = .unreadableValue number wire) :
    decodeLoop registry nested schema payload remaining =
      Decoded.unreadable
        (mkField number wire (schema.bind (·.field number)) (.truncated payload) true)
          remaining := by
  rw [decodeLoop, if_neg hpayload, if_neg hremaining]
  split <;> simp_all

theorem decodeLoop_field (hpayload : payload ≠ []) (hremaining : remaining ≠ 0)
    (h : Cursor.head payload = .field number wire raw rest) :
    decodeLoop registry nested schema payload remaining =
      let here :=
        decodeField registry nested (schema.bind (·.field number)) number wire raw remaining
      Decoded.followedBy { here with met := .field payload number wire raw :: here.met }
        (decodeLoop registry nested schema rest here.remaining) := by
  rw [decodeLoop, if_neg hpayload, if_neg hremaining]
  split
  case h_3 number' wire' raw' rest' heq =>
    rw [h, Cursor.Head.field.injEq] at heq
    obtain ⟨rfl, rfl, rfl, rfl⟩ := heq
    rfl
  all_goals simp_all

end

/-- `decode_object`, which never fails. -/
def decodeObject (depth : Nat) : Nested := fun schema payload remaining =>
  let nested : Option Nested :=
    if depth < maxSchemaDepth then some (decodeObject (depth + 1)) else none
  decodeLoop registry nested schema payload remaining
termination_by maxSchemaDepth - depth

/-- `decode_webcast_message_budget`: the message, and the budget left. -/
def decodeWebcastMessageBudget (method : String) (payload : Bytes) (budget : Nat) :
    SchemaMessage × Nat :=
  let schema := registry.schemaForMethod method
  let oversized := decide (maxEventBytes < payload.length)
  let payload := payload.take maxEventBytes
  let allowance := min budget maxSchemaFields
  let object := decodeObject registry 0 schema payload allowance
  ({ method, schema, fields := object.fields, truncated := object.truncated || oversized,
     warning := object.warning },
    budget - (allowance - object.remaining))

end

end TiktokSigner.LiveEvents
