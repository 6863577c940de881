import TiktokSigner.SignCore.Wire

/-!
# Transport messages: `FetchResult` and `PushFrame`

The two hand-written messages of `proto.rs` with their decoders and
encoders. Both carry a `map<string, string>` (route parameters, headers)
written entry by entry and read back by `decodeMapEntry`.

The round trip is stated as what comes back (`PushFrame.decode_encode`,
`FetchResult.decode_encode`): everything, in order, except the map entries
whose key is empty. Proto3 leaves an empty key out of the entry, and
`decodeMapEntry` gives the value a default but not the key.
-/

namespace TiktokSigner

/-- A `Vec<u8>` holds at most `isize::MAX` bytes. -/
def isizeMax : Nat := 2 ^ 63 - 1

/-- One field of a `map<string, string>` entry: a key or a value that is
not readable as a string is skipped. -/
def mapEntryField (entry : Option String × String) (field : WireField) :
    Option String × String :=
  if field.1 = mapEntryKey then
    match field.2.asStr with
    | some decoded => (some decoded, entry.2)
    | none => entry
  else if field.1 = mapEntryValue then
    match field.2.asStr with
    | some decoded => (entry.1, decoded)
    | none => entry
  else entry

/-- Decode a `map<string, string>` entry. A truncated entry still yields
whatever was decoded before the damage. -/
def decodeMapEntry (buf : Bytes) : Option (String × String) :=
  let (key, value) := (Reader.items buf).foldl (fun entry field =>
    match field with
    | .ok field => mapEntryField entry field
    | .error _ => entry) (none, "")
  key.map fun k => (k, value)

/-! ## `ProtoMessageFetchResult` -/

/-- The subset of `ProtoMessageFetchResult` required to open the WebSocket. -/
structure FetchResult where
  /-- WebSocket URI base. Empty in a 200 response means silent rejection. -/
  pushServer : String := ""
  routeParams : List (String × String) := []
  cursor : String := ""
  internalExt : String := ""
  heartbeatDuration : UInt64 := 0
  needAck : Bool := false
deriving Repr, DecidableEq

namespace FetchResult

def cursorField : UInt32 := 2
def internalExtField : UInt32 := 5
def routeParamsField : UInt32 := 7
def heartbeatDurationField : UInt32 := 8
def needAckField : UInt32 := 9
def pushServerField : UInt32 := 10

/-- The `match number` of `decode`. -/
def field (out : FetchResult) (f : WireField) : FetchResult :=
  if f.1 = cursorField then { out with cursor := f.2.asStr.getD "" }
  else if f.1 = internalExtField then { out with internalExt := f.2.asStr.getD "" }
  else if f.1 = pushServerField then { out with pushServer := f.2.asStr.getD "" }
  else if f.1 = heartbeatDurationField then
    { out with heartbeatDuration := f.2.asU64.getD 0 }
  else if f.1 = needAckField then { out with needAck := f.2.asU64.getD 0 != 0 }
  else if f.1 = routeParamsField then
    match f.2.asBytes.bind decodeMapEntry with
    | some entry => { out with routeParams := out.routeParams ++ [entry] }
    | none => out
  else out

/-- Decode known fields and ignore the rest. -/
def decode (buf : Bytes) : Except ProtoError FetchResult :=
  (Reader.items buf).foldlM (fun out f => do
    let f ← f
    pure (out.field f)) {}

/-- Serialize back to the wire format. -/
def encode (self : FetchResult) : Bytes :=
  let writer := (Writer.new.strField cursorField self.cursor).strField
    internalExtField self.internalExt
  let writer := self.routeParams.foldl
    (fun writer e => writer.mapEntry routeParamsField e.1 e.2) writer
  (((writer.u64Field heartbeatDurationField self.heartbeatDuration).boolField
    needAckField self.needAck).strField pushServerField self.pushServer).finish

end FetchResult

/-! ## `WebcastPushFrame` -/

/-- WebSocket transport envelope. -/
structure PushFrame where
  seqId : UInt64 := 0
  logId : UInt64 := 0
  service : UInt64 := 0
  method : UInt64 := 0
  headers : List (String × String) := []
  payloadEncoding : String := ""
  /-- `msg` carries events; `hb`, `ack` and `im_enter_room_resp` are transport frames. -/
  payloadType : String := ""
  payload : Bytes := []
deriving Repr, DecidableEq

namespace PushFrame

def seqIdField : UInt32 := 1
def logIdField : UInt32 := 2
def serviceField : UInt32 := 3
def methodField : UInt32 := 4
def headersField : UInt32 := 5
def payloadEncodingField : UInt32 := 6
def payloadTypeField : UInt32 := 7
def payloadField : UInt32 := 8

/-- The `match number` of `decode`. -/
def field (out : PushFrame) (f : WireField) : PushFrame :=
  if f.1 = seqIdField then { out with seqId := f.2.asU64.getD 0 }
  else if f.1 = logIdField then { out with logId := f.2.asU64.getD 0 }
  else if f.1 = serviceField then { out with service := f.2.asU64.getD 0 }
  else if f.1 = methodField then { out with method := f.2.asU64.getD 0 }
  else if f.1 = headersField then
    match f.2.asBytes.bind decodeMapEntry with
    | some entry => { out with headers := out.headers ++ [entry] }
    | none => out
  else if f.1 = payloadEncodingField then { out with payloadEncoding := f.2.asStr.getD "" }
  else if f.1 = payloadTypeField then { out with payloadType := f.2.asStr.getD "" }
  else if f.1 = payloadField then { out with payload := f.2.asBytes.getD [] }
  else out

def decode (buf : Bytes) : Except ProtoError PushFrame :=
  (Reader.items buf).foldlM (fun out f => do
    let f ← f
    pure (out.field f)) {}

def encode (self : PushFrame) : Bytes :=
  let w := (((Writer.new.u64Field seqIdField self.seqId).u64Field logIdField
    self.logId).u64Field serviceField self.service).u64Field methodField self.method
  let w := self.headers.foldl (fun w e => w.mapEntry headersField e.1 e.2) w
  (((w.strField payloadEncodingField self.payloadEncoding).strField
    payloadTypeField self.payloadType).bytesField payloadField self.payload).finish

/-- Does it contain events? Only `msg`; all others are transport and discarded. -/
def isMessage (self : PushFrame) : Bool := self.payloadType == "msg"

/-- Value of `compress_type` in frame headers. -/
def compressType (self : PushFrame) : Option String :=
  (self.headers.find? fun e => e.1 == "compress_type").map (·.2)

/-- Player-compatible per-batch ACK. Empty extension leaves payload empty. -/
def ackForBatch (self : PushFrame) (internalExt : String) : PushFrame :=
  { logId := self.logId, payloadType := "ack", payloadEncoding := "pb",
    payload := asBytes internalExt }

/-- Application heartbeat: `room_id=1` and `send_packet_seq_id=2`. -/
def heartbeat (roomId sequenceId : UInt64) : PushFrame :=
  { payloadEncoding := "pb", payloadType := "hb",
    payload := ((Writer.new.u64Field 1 roomId).u64Field 2 sequenceId).finish }

end PushFrame

/-! ## Folding over written fields -/

/-- A decoder's loop over fields that were all readable. -/
theorem foldlM_readable {σ : Type} (g : σ → WireField → σ) :
    ∀ (fs : List WireField) (s : σ),
      (fs.map Except.ok).foldlM (m := Except ProtoError) (fun out f => do
        let f ← f
        pure (g out f)) s = .ok (fs.foldl g s)
  | [], _ => rfl
  | f :: fs, s => by
      rw [List.map_cons, List.foldlM_cons, List.foldl_cons]
      exact foldlM_readable g fs (g s f)

/-- A default the writer left out is one the decoder starts from. -/
theorem foldl_u64Item {σ : Type} {g : σ → WireField → σ} {n : UInt32} {v : UInt64} {s : σ}
    (hdefault : g s (n, .varint 0) = s) :
    (u64Item n v).foldl g s = g s (n, .varint v) := by
  rw [u64Item]
  split
  · rfl
  · rename_i h
    rw [Classical.byContradiction h, hdefault, List.foldl_nil]

theorem foldl_bytesItem {σ : Type} {g : σ → WireField → σ} {n : UInt32} {b : Bytes} {s : σ}
    (hdefault : g s (n, .bytes []) = s) :
    (bytesItem n b).foldl g s = g s (n, .bytes b) := by
  rw [bytesItem]
  split
  · rfl
  · rename_i h
    rw [Classical.byContradiction h, hdefault, List.foldl_nil]

@[simp] theorem asStr_bytes_asBytes (s : String) : (WireValue.bytes (asBytes s)).asStr = some s :=
  fromUtf8_asBytes s

@[simp] theorem asStr_bytes_nil : (WireValue.bytes []).asStr = some "" :=
  fromUtf8_asBytes ""

theorem written_u64Item {n : UInt32} {v : UInt64} : ∀ f ∈ u64Item n v, Written f := by
  intro f hf
  rw [u64Item] at hf
  split at hf
  · obtain rfl := List.mem_singleton.mp hf
    trivial
  · cases hf

theorem written_bytesItem {n : UInt32} {b : Bytes} (h : b.length < 2 ^ 64) :
    ∀ f ∈ bytesItem n b, Written f := by
  intro f hf
  rw [bytesItem] at hf
  split at hf
  · obtain rfl := List.mem_singleton.mp hf
    exact h
  · cases hf

/-! ## Map entries -/

/-- A written entry comes back unless its key is empty: an empty value has
a default, an empty key has none. -/
theorem decodeMapEntry_wireBytes (k v : String) (hk : (asBytes k).length < 2 ^ 64)
    (hv : (asBytes v).length < 2 ^ 64) :
    decodeMapEntry (wireBytes (bytesItem mapEntryKey (asBytes k)
        ++ bytesItem mapEntryValue (asBytes v)))
      = if k = "" then none else some (k, v) := by
  have hwritten : ∀ f ∈ bytesItem mapEntryKey (asBytes k)
      ++ bytesItem mapEntryValue (asBytes v), Written f := by
    intro f hf
    rcases List.mem_append.mp hf with hf | hf
    · exact written_bytesItem hk f hf
    · exact written_bytesItem hv f hf
  have hkey : (bytesItem mapEntryKey (asBytes k)).foldl mapEntryField (none, "")
      = (if k = "" then none else some k, "") := by
    by_cases h : k = ""
    · rw [if_pos h, h]
      rfl
    · rw [if_neg h, bytesItem, if_pos fun hk => h (asBytes_eq_nil.mp hk)]
      simp [mapEntryField]
  have hval : ∀ key : Option String,
      (bytesItem mapEntryValue (asBytes v)).foldl mapEntryField (key, "") = (key, v) := by
    intro key
    rw [foldl_bytesItem] <;> simp [mapEntryField, mapEntryKey, mapEntryValue]
  rw [decodeMapEntry, Reader.items_wireBytes hwritten, List.foldl_map]
  simp only [List.foldl_append, hkey, hval]
  by_cases h : k = "" <;> simp [h]

/-- The bytes of a map entry, as the writer delimits them. -/
def entryBytes (e : String × String) : Bytes :=
  wireBytes (bytesItem mapEntryKey (asBytes e.1) ++ bytesItem mapEntryValue (asBytes e.2))

theorem mapItem_eq (field : UInt32) (e : String × String) :
    mapItem field e = bytesItem field (entryBytes e) := rfl

theorem length_le_bytesItem (n : UInt32) (b : Bytes) :
    b.length ≤ (wireBytes (bytesItem n b)).length := by
  rw [bytesItem]
  split
  · simpa [wireBytes] using Nat.le_of_lt (length_lt_fieldBytes n b)
  · rename_i h
    simp [Classical.byContradiction h]

theorem entryBytes_bounds (e : String × String) :
    (asBytes e.1).length ≤ (entryBytes e).length
      ∧ (asBytes e.2).length ≤ (entryBytes e).length := by
  have h1 := length_le_bytesItem mapEntryKey (asBytes e.1)
  have h2 := length_le_bytesItem mapEntryValue (asBytes e.2)
  rw [entryBytes, wireBytes_append, List.length_append]
  omega

/-- Reading a map field back, one entry: `push` is what the decoder does
with a decoded entry. -/
theorem foldl_mapItem {σ : Type} {g : σ → WireField → σ} {push : σ → String × String → σ}
    {n : UInt32} (hg : ∀ s b, g s (n, .bytes b)
      = match decodeMapEntry b with
        | some entry => push s entry
        | none => s)
    {e : String × String} (he : (entryBytes e).length < 2 ^ 64) (s : σ) :
    (mapItem n e).foldl g s = if e.1 = "" then s else push s e := by
  have hb := entryBytes_bounds e
  have hdec := decodeMapEntry_wireBytes e.1 e.2 (by omega) (by omega)
  have hempty : decodeMapEntry [] = none := by
    rw [decodeMapEntry, Reader.items_nil]
    rfl
  rw [mapItem_eq, foldl_bytesItem (by rw [hg, hempty]), hg, entryBytes, hdec]
  by_cases hkey : e.1 = "" <;> simp [hkey]

/-- A whole map field: the entries with a key, in order. The induction is
on the entry list. -/
theorem foldl_mapItems {σ : Type} {g : σ → WireField → σ} {push : σ → String × String → σ}
    {n : UInt32} (hg : ∀ s b, g s (n, .bytes b)
      = match decodeMapEntry b with
        | some entry => push s entry
        | none => s) :
    ∀ {es : List (String × String)}, (∀ e ∈ es, (entryBytes e).length < 2 ^ 64) → ∀ s : σ,
      (es.flatMap (mapItem n)).foldl g s
        = (es.filter fun e => e.1 ≠ "").foldl push s
  | [], _, _ => rfl
  | e :: es, h, s => by
      rw [List.flatMap_cons, List.foldl_append, foldl_mapItem hg (h e List.mem_cons_self),
        foldl_mapItems hg fun e' he' => h e' (List.mem_cons_of_mem e he')]
      by_cases hkey : e.1 = "" <;> simp [hkey]

theorem written_mapItems {n : UInt32} {es : List (String × String)}
    (h : ∀ e ∈ es, (entryBytes e).length < 2 ^ 64) :
    ∀ f ∈ es.flatMap (mapItem n), Written f := by
  intro f hf
  obtain ⟨e, he, hfe⟩ := List.mem_flatMap.mp hf
  exact written_bytesItem (h e he) f hfe

theorem entryBytes_length_le {n : UInt32} {es : List (String × String)} {e : String × String}
    (he : e ∈ es) : (entryBytes e).length ≤ (wireBytes (es.flatMap (mapItem n))).length := by
  obtain ⟨before, after, rfl⟩ := List.append_of_mem he
  rw [List.flatMap_append, List.flatMap_cons, wireBytes_append, wireBytes_append, mapItem_eq]
  have hle := length_le_bytesItem n (entryBytes e)
  simp only [List.length_append]
  omega

/-- The entries that survive a round trip. -/
def keyed (entries : List (String × String)) : List (String × String) :=
  entries.filter fun e => e.1 ≠ ""

theorem keyed_eq_self_iff {entries : List (String × String)} :
    keyed entries = entries ↔ ∀ e ∈ entries, e.1 ≠ "" := by
  rw [keyed, List.filter_eq_self]
  simp

/-! ## The round trips -/

namespace PushFrame

/-- The fields `encode` writes, in order. -/
def fields (x : PushFrame) : List WireField :=
  u64Item seqIdField x.seqId ++ (u64Item logIdField x.logId
    ++ (u64Item serviceField x.service ++ (u64Item methodField x.method
    ++ (x.headers.flatMap (mapItem headersField)
    ++ (bytesItem payloadEncodingField (asBytes x.payloadEncoding)
    ++ (bytesItem payloadTypeField (asBytes x.payloadType)
    ++ bytesItem payloadField x.payload))))))

theorem encode_eq (x : PushFrame) : x.encode = wireBytes x.fields := by
  simp only [encode, fields, Writer.finish, Writer.bytesField_buf, Writer.strField_buf,
    Writer.foldl_mapEntry_buf, Writer.u64Field_buf, Writer.new_buf, List.nil_append,
    wireBytes_append, List.append_assoc]

theorem foldl_push : ∀ (es : List (String × String)) (s : PushFrame),
    es.foldl (fun out e => { out with headers := out.headers ++ [e] }) s
      = { s with headers := s.headers ++ es }
  | [], s => by simp
  | e :: es, s => by rw [List.foldl_cons, foldl_push es]; simp

theorem field_header (s : PushFrame) (b : Bytes) :
    s.field (headersField, .bytes b)
      = match decodeMapEntry b with
        | some entry => { s with headers := s.headers ++ [entry] }
        | none => s := rfl

/-- What the decoder's loop makes of the written fields: each of them sets
its own field. -/
theorem foldl_fields (x : PushFrame)
    (h : ∀ e ∈ x.headers, (entryBytes e).length < 2 ^ 64) :
    x.fields.foldl field {} = { x with headers := keyed x.headers } := by
  rw [fields, List.foldl_append, foldl_u64Item, List.foldl_append, foldl_u64Item,
    List.foldl_append, foldl_u64Item, List.foldl_append, foldl_u64Item,
    List.foldl_append, foldl_mapItems field_header h, foldl_push,
    List.foldl_append, foldl_bytesItem, List.foldl_append,
    foldl_bytesItem (n := payloadTypeField), foldl_bytesItem]
  · simp [field, keyed, seqIdField, logIdField, serviceField, methodField, headersField,
      payloadEncodingField, payloadTypeField, payloadField, WireValue.asU64, WireValue.asBytes]
  all_goals simp [field, seqIdField, logIdField, serviceField, methodField, headersField,
    payloadEncodingField, payloadTypeField, payloadField, WireValue.asU64, WireValue.asBytes]

theorem written_fields {x : PushFrame} (hlen : x.encode.length ≤ isizeMax) :
    (∀ f ∈ x.fields, Written f) ∧ ∀ e ∈ x.headers, (entryBytes e).length < 2 ^ 64 := by
  have h1 := length_le_bytesItem payloadEncodingField (asBytes x.payloadEncoding)
  have h2 := length_le_bytesItem payloadTypeField (asBytes x.payloadType)
  have h3 := length_le_bytesItem payloadField x.payload
  rw [encode_eq] at hlen
  simp only [fields, wireBytes_append, List.length_append, isizeMax] at hlen
  have hentries : ∀ e ∈ x.headers, (entryBytes e).length < 2 ^ 64 := fun e he => by
    have := entryBytes_length_le (n := headersField) he
    omega
  refine ⟨fun f hf => ?_, hentries⟩
  simp only [fields, List.mem_append] at hf
  rcases hf with hf | hf | hf | hf | hf | hf | hf | hf
  · exact written_u64Item f hf
  · exact written_u64Item f hf
  · exact written_u64Item f hf
  · exact written_u64Item f hf
  · exact written_mapItems hentries f hf
  · exact written_bytesItem (by omega) f hf
  · exact written_bytesItem (by omega) f hf
  · exact written_bytesItem (by omega) f hf

/-- What comes back: everything but the headers without a key. -/
theorem decode_encode (x : PushFrame) (hlen : x.encode.length ≤ isizeMax) :
    decode x.encode = .ok { x with headers := keyed x.headers } := by
  obtain ⟨hwritten, hentries⟩ := written_fields hlen
  rw [decode, encode_eq, Reader.items_wireBytes hwritten, foldlM_readable,
    foldl_fields x hentries]

end PushFrame

namespace FetchResult

/-- The fields `encode` writes, in order. -/
def fields (x : FetchResult) : List WireField :=
  bytesItem cursorField (asBytes x.cursor) ++ (bytesItem internalExtField (asBytes x.internalExt)
    ++ (x.routeParams.flatMap (mapItem routeParamsField)
    ++ (u64Item heartbeatDurationField x.heartbeatDuration
    ++ (u64Item needAckField x.needAck.toUInt64
    ++ bytesItem pushServerField (asBytes x.pushServer)))))

theorem encode_eq (x : FetchResult) : x.encode = wireBytes x.fields := by
  simp only [encode, fields, Writer.finish, Writer.strField_buf, Writer.boolField_buf,
    Writer.foldl_mapEntry_buf, Writer.u64Field_buf, Writer.new_buf, List.nil_append,
    wireBytes_append, List.append_assoc]

theorem foldl_push : ∀ (es : List (String × String)) (s : FetchResult),
    es.foldl (fun out e => { out with routeParams := out.routeParams ++ [e] }) s
      = { s with routeParams := s.routeParams ++ es }
  | [], s => by simp
  | e :: es, s => by rw [List.foldl_cons, foldl_push es]; simp

theorem field_routeParam (s : FetchResult) (b : Bytes) :
    s.field (routeParamsField, .bytes b)
      = match decodeMapEntry b with
        | some entry => { s with routeParams := s.routeParams ++ [entry] }
        | none => s := rfl

theorem foldl_fields (x : FetchResult)
    (h : ∀ e ∈ x.routeParams, (entryBytes e).length < 2 ^ 64) :
    x.fields.foldl field {} = { x with routeParams := keyed x.routeParams } := by
  rw [fields, List.foldl_append, foldl_bytesItem, List.foldl_append, foldl_bytesItem,
    List.foldl_append, foldl_mapItems field_routeParam h, foldl_push,
    List.foldl_append, foldl_u64Item, List.foldl_append, foldl_u64Item, foldl_bytesItem]
  · cases hack : x.needAck <;>
      simp [field, keyed, cursorField, internalExtField, heartbeatDurationField, needAckField,
        pushServerField, WireValue.asU64, Bool.toUInt64]
  all_goals simp [field, cursorField, internalExtField, heartbeatDurationField, needAckField,
    pushServerField, WireValue.asU64]

theorem written_fields {x : FetchResult} (hlen : x.encode.length ≤ isizeMax) :
    (∀ f ∈ x.fields, Written f) ∧ ∀ e ∈ x.routeParams, (entryBytes e).length < 2 ^ 64 := by
  have h1 := length_le_bytesItem cursorField (asBytes x.cursor)
  have h2 := length_le_bytesItem internalExtField (asBytes x.internalExt)
  have h3 := length_le_bytesItem pushServerField (asBytes x.pushServer)
  rw [encode_eq] at hlen
  simp only [fields, wireBytes_append, List.length_append, isizeMax] at hlen
  have hentries : ∀ e ∈ x.routeParams, (entryBytes e).length < 2 ^ 64 := fun e he => by
    have := entryBytes_length_le (n := routeParamsField) he
    omega
  refine ⟨fun f hf => ?_, hentries⟩
  simp only [fields, List.mem_append] at hf
  rcases hf with hf | hf | hf | hf | hf | hf
  · exact written_bytesItem (by omega) f hf
  · exact written_bytesItem (by omega) f hf
  · exact written_mapItems hentries f hf
  · exact written_u64Item f hf
  · exact written_u64Item f hf
  · exact written_bytesItem (by omega) f hf

/-- What comes back: everything but the route parameters without a key. -/
theorem decode_encode (x : FetchResult) (hlen : x.encode.length ≤ isizeMax) :
    decode x.encode = .ok { x with routeParams := keyed x.routeParams } := by
  obtain ⟨hwritten, hentries⟩ := written_fields hlen
  rw [decode, encode_eq, Reader.items_wireBytes hwritten, foldlM_readable,
    foldl_fields x hentries]

end FetchResult

/-- A value survives its round trip exactly when every map entry in it has
a key. -/
theorem codec_round_trip_iff (frame : PushFrame) (result : FetchResult)
    (hframe : frame.encode.length ≤ isizeMax) (hresult : result.encode.length ≤ isizeMax) :
    (PushFrame.decode frame.encode = .ok frame ↔ ∀ e ∈ frame.headers, e.1 ≠ "") ∧
      (FetchResult.decode result.encode = .ok result ↔ ∀ e ∈ result.routeParams, e.1 ≠ "") := by
  constructor
  · rw [PushFrame.decode_encode frame hframe, ← keyed_eq_self_iff]
    constructor
    · intro h
      exact congrArg PushFrame.headers (Except.ok.inj h)
    · intro h
      rw [h]
  · rw [FetchResult.decode_encode result hresult, ← keyed_eq_self_iff]
    constructor
    · intro h
      exact congrArg FetchResult.routeParams (Except.ok.inj h)
    · intro h
      rw [h]

/-- One header without a key: its frame comes back without headers. -/
theorem keyless_header_is_lost :
    (PushFrame.encode { headers := [("", "gzip")] }).length ≤ isizeMax
    ∧ PushFrame.decode (PushFrame.encode { headers := [("", "gzip")] })
      ≠ .ok { headers := [("", "gzip")] } := by
  decide +kernel

theorem codec_round_trip_keyed :
    PushFrame.decode (PushFrame.encode { logId := 42, headers := [("compress_type", "gzip")] })
      = .ok { logId := 42, headers := [("compress_type", "gzip")] }
    ∧ FetchResult.decode (FetchResult.encode { routeParams := [("wrss", "1"), ("imprp", "")] })
      = .ok { routeParams := [("wrss", "1"), ("imprp", "")] } := by
  obtain ⟨hframe, hresult⟩ := codec_round_trip_iff
    { logId := 42, headers := [("compress_type", "gzip")] }
    { routeParams := [("wrss", "1"), ("imprp", "")] } (by decide +kernel) (by decide +kernel)
  exact ⟨hframe.mpr (by decide), hresult.mpr (by decide)⟩

end TiktokSigner
