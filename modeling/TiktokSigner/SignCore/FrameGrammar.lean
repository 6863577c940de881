import TiktokSigner.SignCore.Frames

/-!
# What the bytes of a frame say

The grammar behind `Reader`: numerals of at most ten bytes, the values of the
four wire types, a field as its tag and its value, and a message as fields one
after the other. Then what the fields of a `PushFrame` say: the last value of a
field counts, and the first header that names a compression.

Nothing of this runs the decoders. `items_eq_iff` says that the reader finds the
fields that the grammar gives, `decode_eq_ok_iff` and what follows it that the
decoder makes of them what they say.
-/

namespace TiktokSigner.FrameGrammar

/-- A numeral of at most ten bytes, and what it says in 64 bits. -/
structure Numeral (bytes : Bytes) (v : UInt64) : Prop where
  whole : Base128.split bytes = some (bytes, [])
  short : bytes.length ≤ 10
  value : v.toNat = Base128.value bytes % 2 ^ 64

/-- The bytes of a value. -/
inductive Carries : WireValue → Bytes → Prop
  | varint {v : UInt64} {bytes : Bytes} (h : Numeral bytes v) : Carries (.varint v) bytes
  | fixed64 {bytes : Bytes} (h : bytes.length = 8) :
      Carries (.fixed64 (UInt64.ofNat (fromLe bytes))) bytes
  | bytes {size body : Bytes} {n : UInt64} (hsize : Numeral size n)
      (hbody : body.length = n.toNat) : Carries (.bytes body) (size ++ body)
  | fixed32 {bytes : Bytes} (h : bytes.length = 4) :
      Carries (.fixed32 (UInt32.ofNat (fromLe bytes))) bytes

/-- The bytes of a field. The tag holds its number, of 32 bits, and its wire type. -/
inductive Field : WireField → Bytes → Prop
  | mk {number : UInt32} {value : WireValue} {tag body : Bytes} {k : UInt64}
      (htag : Numeral tag k) (hnumber : number.toNat = k.toNat / 8 % 2 ^ 32)
      (hwire : value.wireType.toNat = k.toNat % 8) (hbody : Carries value body) :
      Field (number, value) (tag ++ body)

/-- The bytes of a message with these fields. -/
inductive Message : List WireField → Bytes → Prop
  | nil : Message [] []
  | cons {f : WireField} {fields : List WireField} {field rest : Bytes} (hfield : Field f field)
      (hrest : Message fields rest) : Message (f :: fields) (field ++ rest)

/-- A message with these fields, and then nothing or what is no field. -/
def Begins (fields : List WireField) (bytes : Bytes) : Prop :=
  ∃ front rest, bytes = front ++ rest ∧ Message fields front ∧
    ∀ f field more, Field f field → rest ≠ field ++ more

/-! ## The reader finds what the grammar gives -/

section

variable {buf rest : Bytes} {v : UInt64} {value : WireValue} {f : WireField}

theorem varint_eq_ok_iff :
    Reader.varint buf = .ok (v, rest) ↔ ∃ bytes, buf = bytes ++ rest ∧ Numeral bytes v := by
  rw [Reader.varint_eq_ok_iff]
  constructor
  · rintro ⟨digits, hsplit, hshort, hvalue⟩
    have hwhole := Base128.split_digits hsplit []
    rw [List.append_nil] at hwhole
    exact ⟨digits, Base128.split_append hsplit, hwhole, hshort, hvalue⟩
  · rintro ⟨bytes, rfl, hnumeral⟩
    exact ⟨bytes, Base128.split_digits hnumeral.whole rest, hnumeral.short, hnumeral.value⟩

theorem value_eq_ok_iff {wireType : UInt8} :
    Reader.value wireType buf = .ok (value, rest) ↔
      ∃ body, buf = body ++ rest ∧ value.wireType.toNat = wireType.toNat ∧ Carries value body := by
  constructor
  · intro h
    rw [Reader.value] at h
    split at h
    case h_1 hwire =>
      obtain ⟨⟨v, r⟩, hv, hpair⟩ := bind_eq_ok.mp h
      obtain ⟨rfl, rfl⟩ := Prod.mk.inj (Except.ok.inj hpair)
      obtain ⟨bytes, hbuf, hnumeral⟩ := varint_eq_ok_iff.mp hv
      exact ⟨bytes, hbuf, hwire.symm, .varint hnumeral⟩
    case h_2 hwire =>
      obtain ⟨⟨bytes, r⟩, hbytes, hpair⟩ := bind_eq_ok.mp h
      obtain ⟨rfl, rfl⟩ := Prod.mk.inj (Except.ok.inj hpair)
      obtain ⟨hbuf, hlen⟩ := Reader.take_eq_ok_iff.mp hbytes
      exact ⟨bytes, hbuf, hwire.symm, .fixed64 hlen⟩
    case h_3 hwire =>
      obtain ⟨⟨n, r⟩, hn, h⟩ := bind_eq_ok.mp h
      obtain ⟨⟨body, r'⟩, hbody, hpair⟩ := bind_eq_ok.mp h
      obtain ⟨rfl, rfl⟩ := Prod.mk.inj (Except.ok.inj hpair)
      obtain ⟨size, rfl, hsize⟩ := varint_eq_ok_iff.mp hn
      obtain ⟨rfl, hlen⟩ := Reader.take_eq_ok_iff.mp hbody
      exact ⟨size ++ body, (List.append_assoc _ _ _).symm, hwire.symm, .bytes hsize hlen⟩
    case h_4 hwire =>
      obtain ⟨⟨bytes, r⟩, hbytes, hpair⟩ := bind_eq_ok.mp h
      obtain ⟨rfl, rfl⟩ := Prod.mk.inj (Except.ok.inj hpair)
      obtain ⟨hbuf, hlen⟩ := Reader.take_eq_ok_iff.mp hbytes
      exact ⟨bytes, hbuf, hwire.symm, .fixed32 hlen⟩
    case h_5 => cases h
  · rintro ⟨body, rfl, hwire, hbody⟩
    rw [Reader.value, ← hwire]
    cases hbody with
    | varint h => exact bind_eq_ok.mpr ⟨_, varint_eq_ok_iff.mpr ⟨body, rfl, h⟩, rfl⟩
    | fixed64 h => exact bind_eq_ok.mpr ⟨_, Reader.take_eq_ok_iff.mpr ⟨rfl, h⟩, rfl⟩
    | @bytes size body n hsize hlen =>
      have hn : Reader.varint (size ++ body ++ rest) = .ok (n, body ++ rest) :=
        varint_eq_ok_iff.mpr ⟨size, List.append_assoc _ _ _, hsize⟩
      have htake : Reader.take n.toNat (body ++ rest) = .ok (body, rest) :=
        Reader.take_eq_ok_iff.mpr ⟨rfl, hlen⟩
      exact bind_eq_ok.mpr ⟨_, hn, bind_eq_ok.mpr ⟨_, htake, rfl⟩⟩
    | fixed32 h => exact bind_eq_ok.mpr ⟨_, Reader.take_eq_ok_iff.mpr ⟨rfl, h⟩, rfl⟩

theorem toNat_tag_number (k : UInt64) : (k >>> 3).toUInt32.toNat = k.toNat / 8 % 2 ^ 32 := by
  rw [UInt64.toNat_toUInt32, UInt64.toNat_shiftRight, Nat.shiftRight_eq_div_pow]
  rfl

theorem toNat_tag_wire (k : UInt64) : ((k &&& 0x7).toUInt8).toNat = k.toNat % 8 := by
  have h : k.toNat &&& (0x7 : UInt64).toNat = k.toNat % 8 := Nat.and_two_pow_sub_one_eq_mod _ 3
  rw [UInt64.toNat_toUInt8, UInt64.toNat_and, h]
  omega

theorem readField_eq_ok_iff :
    Reader.readField buf = .ok (f, rest) ↔ ∃ field, buf = field ++ rest ∧ Field f field := by
  constructor
  · intro h
    obtain ⟨⟨k, r⟩, hk, h⟩ := bind_eq_ok.mp h
    obtain ⟨⟨value, r'⟩, hvalue, hpair⟩ := bind_eq_ok.mp h
    obtain ⟨rfl, rfl⟩ := Prod.mk.inj (Except.ok.inj hpair)
    obtain ⟨tag, rfl, htag⟩ := varint_eq_ok_iff.mp hk
    obtain ⟨body, rfl, hwire, hbody⟩ := value_eq_ok_iff.mp hvalue
    rw [toNat_tag_wire] at hwire
    exact ⟨tag ++ body, (List.append_assoc _ _ _).symm, .mk htag (toNat_tag_number k) hwire hbody⟩
  · rintro ⟨field, rfl, hfield⟩
    cases hfield with
    | @mk number value tag body k htag hnumber hwire hbody =>
      have hk : Reader.varint (tag ++ body ++ rest) = .ok (k, body ++ rest) :=
        varint_eq_ok_iff.mpr ⟨tag, List.append_assoc _ _ _, htag⟩
      rw [← toNat_tag_wire] at hwire
      have hvalue : Reader.value (k &&& 0x7).toUInt8 (body ++ rest) = .ok (value, rest) :=
        value_eq_ok_iff.mpr ⟨body, rfl, hwire, hbody⟩
      rw [← toNat_tag_number, UInt32.toNat_inj] at hnumber
      rw [hnumber]
      exact bind_eq_ok.mpr ⟨_, hk, bind_eq_ok.mpr ⟨_, hvalue, rfl⟩⟩

end

theorem Field.ne_nil {f : WireField} {field : Bytes} (h : Field f field) : field ≠ [] := by
  cases h with
  | mk htag => exact List.append_ne_nil_of_left_ne_nil (Base128.split_ne_nil htag.whole) _

/-! ## Messages -/

theorem items_of_field {f : WireField} {field : Bytes} (h : Field f field) (rest : Bytes) :
    Reader.items (field ++ rest) = .ok f :: Reader.items rest :=
  Reader.items_ok (readField_eq_ok_iff.mpr ⟨field, rfl, h⟩)

/-- Every item is readable just when the bytes are a message. -/
theorem items_eq_iff {fields : List WireField} {buf : Bytes} :
    Reader.items buf = fields.map .ok ↔ Message fields buf := by
  constructor
  · intro h
    induction fields generalizing buf with
    | nil =>
      by_cases hnil : buf = []
      · rw [hnil]
        exact .nil
      · cases hread : Reader.readField buf with
        | error e =>
          rw [Reader.items_error hnil hread] at h
          cases h
        | ok p =>
          rw [Reader.items_ok hread] at h
          cases h
    | cons f fields ih =>
      have hnil : buf ≠ [] := by
        rintro rfl
        rw [Reader.items_nil] at h
        cases h
      cases hread : Reader.readField buf with
      | error e =>
        rw [Reader.items_error hnil hread] at h
        cases h
      | ok p =>
        obtain ⟨g, rest⟩ := p
        rw [Reader.items_ok hread, List.map_cons] at h
        obtain ⟨hhead, htail⟩ := List.cons.inj h
        obtain rfl := Except.ok.inj hhead
        obtain ⟨field, rfl, hfield⟩ := readField_eq_ok_iff.mp hread
        exact .cons hfield (ih htail)
  · intro h
    induction h with
    | nil => exact Reader.items_nil
    | cons hfield hrest ih => rw [items_of_field hfield, ih, List.map_cons]

/-- What the writer writes is a message. -/
theorem message_wireBytes {fields : List WireField} (h : ∀ f ∈ fields, Written f) :
    Message fields (wireBytes fields) :=
  items_eq_iff.mp (Reader.items_wireBytes h)

/-- The fields that the reader yields before it ends or fails. -/
def readable (buf : Bytes) : List WireField := (Reader.items buf).filterMap Except.toOption

theorem readable_of_error {buf : Bytes} {e : ProtoError} (h : Reader.readField buf = .error e) :
    readable buf = [] := by
  by_cases hnil : buf = []
  · rw [hnil, readable, Reader.items_nil]
    rfl
  · rw [readable, Reader.items_error hnil h]
    rfl

theorem readable_of_field {f : WireField} {field : Bytes} (h : Field f field) (rest : Bytes) :
    readable (field ++ rest) = f :: readable rest := by
  rw [readable, items_of_field h]
  rfl

/-- They are the fields that the bytes begin with. -/
theorem begins_iff {fields : List WireField} {buf : Bytes} :
    Begins fields buf ↔ readable buf = fields := by
  constructor
  · rintro ⟨front, rest, rfl, hfront, hrest⟩
    induction hfront with
    | nil =>
      cases hread : Reader.readField rest with
      | error e => exact readable_of_error hread
      | ok p =>
        obtain ⟨field, hsplit, hfield⟩ := readField_eq_ok_iff.mp hread
        exact absurd hsplit (hrest _ field p.2 hfield)
    | cons hfield hfront ih =>
      rw [List.append_assoc, readable_of_field hfield, ih]
  · rintro rfl
    induction hlen : buf.length using Nat.strongRecOn generalizing buf with
    | ind n ih =>
      cases hread : Reader.readField buf with
      | error e =>
        refine ⟨[], buf, rfl, readable_of_error hread ▸ .nil, fun f field more hfield hsplit => ?_⟩
        rw [readField_eq_ok_iff.mpr ⟨field, hsplit, hfield⟩] at hread
        cases hread
      | ok p =>
        obtain ⟨f, more⟩ := p
        have hshorter := Reader.readField_length hread
        obtain ⟨field, rfl, hfield⟩ := readField_eq_ok_iff.mp hread
        obtain ⟨front, rest, hmore, hfront, hrest⟩ := ih more.length (hlen ▸ hshorter) rfl
        refine ⟨field ++ front, rest, by rw [List.append_assoc, ← hmore], ?_, hrest⟩
        rw [readable_of_field hfield]
        exact .cons hfield hfront

/-! ## What a frame says -/

/-- The last value that `g` finds in a list. -/
def lastSome {α β : Type} (g : α → Option β) (xs : List α) : Option β := (xs.filterMap g).getLast?

theorem lastSome_cons {α β : Type} (g : α → Option β) (x : α) (xs : List α) :
    lastSome g (x :: xs) = (lastSome g xs).or (g x) := by
  cases hx : g x with
  | none => simp [lastSome, hx]
  | some b =>
      rw [lastSome, List.filterMap_cons_some hx, List.getLast?_cons, ← lastSome]
      cases lastSome g xs <;> rfl

/-- The last value of a field. -/
def lastOf (number : UInt32) (fields : List WireField) : Option WireValue :=
  lastSome (fun f => if f.1 = number then some f.2 else none) fields

def payloadTypeOf (fields : List WireField) : String :=
  ((lastOf PushFrame.payloadTypeField fields).bind WireValue.asStr).getD ""

def logIdOf (fields : List WireField) : UInt64 :=
  ((lastOf PushFrame.logIdField fields).bind WireValue.asU64).getD 0

def packedOf (fields : List WireField) : Bytes :=
  ((lastOf PushFrame.payloadField fields).bind WireValue.asBytes).getD []

/-- The text of a field of a map entry. -/
def textOf (number : UInt32) (f : WireField) : Option String :=
  if f.1 = number then f.2.asStr else none

/-- A map entry says its last readable key and value, as far as it is not damaged. -/
def Entry (body : Bytes) (key value : String) : Prop :=
  ∃ fields, Begins fields body ∧ lastSome (textOf mapEntryKey) fields = some key ∧
    (lastSome (textOf mapEntryValue) fields).getD "" = value

/-- A header that names a compression. -/
def Compression (f : WireField) (value : String) : Prop :=
  ∃ body, f = (PushFrame.headersField, .bytes body) ∧ Entry body "compress_type" value

/-- The first header that names a compression. -/
inductive CompressType : List WireField → Option String → Prop
  | missing {fields : List WireField} (h : ∀ f ∈ fields, ∀ value, ¬Compression f value) :
      CompressType fields none
  | first {before after : List WireField} {f : WireField} {value : String}
      (hbefore : ∀ g ∈ before, ∀ value, ¬Compression g value) (h : Compression f value) :
      CompressType (before ++ f :: after) (some value)

/-! ## The decoder reads it -/

/-- A component that only the fields of one number set. -/
theorem foldl_lastOf {σ β : Type} {g : σ → WireField → σ} {p : σ → β} {number : UInt32}
    {read : WireValue → β}
    (hg : ∀ s f, p (g s f) = if f.1 = number then read f.2 else p s)
    (fields : List WireField) (s : σ) :
    p (fields.foldl g s) = ((lastOf number fields).map read).getD (p s) := by
  induction fields generalizing s with
  | nil => rfl
  | cons f fields ih =>
    have hlast : lastOf number (f :: fields)
        = (lastOf number fields).or (if f.1 = number then some f.2 else none) :=
      lastSome_cons _ f fields
    rw [List.foldl_cons, ih, hg, hlast]
    cases lastOf number fields with
    | some value => rfl
    | none => by_cases hf : f.1 = number <;> simp [hf]

/-- What a field adds to the headers. -/
def headerOf (f : WireField) : Option (String × String) :=
  if f.1 = PushFrame.headersField then f.2.asBytes.bind decodeMapEntry else none

theorem headers_field (out : PushFrame) (f : WireField) :
    (out.field f).headers = out.headers ++ (headerOf f).toList := by
  obtain ⟨number, value⟩ := f
  by_cases hnumber : number = PushFrame.headersField
  · subst hnumber
    rw [headerOf, if_pos rfl]
    cases hentry : value.asBytes.bind decodeMapEntry with
    | none => simp [PushFrame.field, PushFrame.headersField, PushFrame.seqIdField,
        PushFrame.logIdField, PushFrame.serviceField, PushFrame.methodField, hentry]
    | some entry => simp [PushFrame.field, PushFrame.headersField, PushFrame.seqIdField,
        PushFrame.logIdField, PushFrame.serviceField, PushFrame.methodField, hentry]
  · rw [headerOf, if_neg hnumber, Option.toList_none, List.append_nil, PushFrame.field]
    simp only [if_neg hnumber]
    split_ifs <;> rfl

theorem headers_foldl (fields : List WireField) (out : PushFrame) :
    (fields.foldl PushFrame.field out).headers = out.headers ++ fields.filterMap headerOf := by
  induction fields generalizing out with
  | nil => exact (List.append_nil _).symm
  | cons f fields ih =>
    rw [List.foldl_cons, ih, headers_field, List.append_assoc, List.filterMap_cons]
    cases headerOf f <;> rfl

/-- The other three, each set by its own field. -/
theorem components_field (out : PushFrame) (f : WireField) :
    (out.field f).logId = (if f.1 = PushFrame.logIdField then f.2.asU64.getD 0 else out.logId) ∧
      (out.field f).payloadType
        = (if f.1 = PushFrame.payloadTypeField then f.2.asStr.getD "" else out.payloadType) ∧
      (out.field f).payload
        = if f.1 = PushFrame.payloadField then f.2.asBytes.getD [] else out.payload := by
  obtain ⟨number, value⟩ := f
  by_cases hlogId : number = PushFrame.logIdField
  · subst hlogId
    exact ⟨rfl, rfl, rfl⟩
  · by_cases htype : number = PushFrame.payloadTypeField
    · subst htype
      exact ⟨rfl, rfl, rfl⟩
    · by_cases hpayload : number = PushFrame.payloadField
      · subst hpayload
        exact ⟨rfl, rfl, rfl⟩
      · simp only [PushFrame.field, if_neg hlogId, if_neg htype, if_neg hpayload]
        split_ifs
        all_goals first | exact ⟨rfl, rfl, rfl⟩ | (split <;> exact ⟨rfl, rfl, rfl⟩)

theorem getD_bind_eq {α β : Type} (x : Option α) (f : α → Option β) (b : β) :
    (x.bind f).getD b = (x.map fun a => (f a).getD b).getD b := by
  cases x <;> rfl

theorem logId_foldl (fields : List WireField) :
    (fields.foldl PushFrame.field {}).logId = logIdOf fields :=
  (foldl_lastOf (p := PushFrame.logId) (fun out f => (components_field out f).1) fields {}).trans
    (getD_bind_eq _ _ _).symm

theorem payloadType_foldl (fields : List WireField) :
    (fields.foldl PushFrame.field {}).payloadType = payloadTypeOf fields :=
  (foldl_lastOf (p := PushFrame.payloadType) (fun out f => (components_field out f).2.1) fields
    {}).trans (getD_bind_eq _ _ _).symm

theorem payload_foldl (fields : List WireField) :
    (fields.foldl PushFrame.field {}).payload = packedOf fields :=
  (foldl_lastOf (p := PushFrame.payload) (fun out f => (components_field out f).2.2) fields
    {}).trans (getD_bind_eq _ _ _).symm

theorem foldlM_field_eq_ok_iff {items : List (Except ProtoError WireField)}
    {out frame : PushFrame} :
    items.foldlM (m := Except ProtoError) (fun out f => do
        let f ← f
        pure (out.field f)) out = .ok frame ↔
      ∃ fields : List WireField, items = fields.map .ok ∧
        fields.foldl PushFrame.field out = frame := by
  constructor
  · intro h
    induction items generalizing out with
    | nil => exact ⟨[], rfl, Except.ok.inj h⟩
    | cons item items ih =>
      rw [List.foldlM_cons] at h
      obtain ⟨next, hnext, hrest⟩ := bind_eq_ok.mp h
      obtain ⟨f, rfl, hf⟩ := bind_eq_ok.mp hnext
      obtain rfl := Except.ok.inj hf
      obtain ⟨fields, rfl, hfields⟩ := ih hrest
      exact ⟨f :: fields, rfl, hfields⟩
  · rintro ⟨fields, rfl, rfl⟩
    exact foldlM_readable PushFrame.field fields out

theorem decode_eq_ok_iff {bytes : Bytes} {frame : PushFrame} :
    PushFrame.decode bytes = .ok frame ↔
      ∃ fields, Message fields bytes ∧ fields.foldl PushFrame.field {} = frame := by
  simp only [PushFrame.decode, foldlM_field_eq_ok_iff, items_eq_iff]

theorem mapEntryField_eq (entry : Option String × String) (f : WireField) :
    mapEntryField entry f
      = ((textOf mapEntryKey f).or entry.1, (textOf mapEntryValue f).getD entry.2) := by
  obtain ⟨number, value⟩ := f
  rw [mapEntryField, textOf, textOf]
  by_cases hkey : number = mapEntryKey
  · have hvalue : number ≠ mapEntryValue := by
      rw [hkey]
      decide
    rw [if_pos hkey, if_pos hkey, if_neg hvalue]
    cases value.asStr <;> rfl
  · rw [if_neg hkey, if_neg hkey]
    by_cases hvalue : number = mapEntryValue
    · rw [if_pos hvalue, if_pos hvalue]
      cases value.asStr <;> rfl
    · rw [if_neg hvalue, if_neg hvalue]
      rfl

/-- The key and the value that fields leave behind. -/
theorem foldl_mapEntryField (fields : List WireField) (entry : Option String × String) :
    fields.foldl mapEntryField entry = ((lastSome (textOf mapEntryKey) fields).or entry.1,
      (lastSome (textOf mapEntryValue) fields).getD entry.2) := by
  induction fields generalizing entry with
  | nil => rfl
  | cons f fields ih =>
    rw [List.foldl_cons, ih, mapEntryField_eq, lastSome_cons, lastSome_cons, Option.or_assoc]
    cases lastSome (textOf mapEntryValue) fields <;> rfl

/-- A loop that goes over what it cannot read. -/
theorem foldl_readable {σ : Type} {g : σ → WireField → σ}
    {h : σ → Except ProtoError WireField → σ} (hok : ∀ s f, h s (.ok f) = g s f)
    (herror : ∀ s e, h s (.error e) = s) (items : List (Except ProtoError WireField)) (s : σ) :
    items.foldl h s = (items.filterMap Except.toOption).foldl g s := by
  induction items generalizing s with
  | nil => rfl
  | cons item items ih =>
    cases item with
    | error e => rw [List.foldl_cons, herror, ih]; rfl
    | ok f => rw [List.foldl_cons, hok, ih]; rfl

theorem decodeMapEntry_eq_some_iff {body : Bytes} {key value : String} :
    decodeMapEntry body = some (key, value) ↔ Entry body key value := by
  rw [decodeMapEntry, foldl_readable (g := mapEntryField) (fun _ _ => rfl) (fun _ _ => rfl),
    ← readable, foldl_mapEntryField, Option.or_none]
  simp [Entry, begins_iff]

/-- The compression that a header names. -/
def compressionOf (f : WireField) : Option String :=
  (headerOf f).bind fun e => if e.1 = "compress_type" then some e.2 else none

theorem compressionOf_eq_some_iff {f : WireField} {value : String} :
    compressionOf f = some value ↔ Compression f value := by
  rw [compressionOf, headerOf, Option.bind_eq_some_iff]
  constructor
  · rintro ⟨⟨key, v⟩, hentry, hvalue⟩
    split_ifs at hentry with hnumber
    obtain ⟨body, hbody, hentry⟩ := Option.bind_eq_some_iff.mp hentry
    dsimp only at hvalue
    split_ifs at hvalue with hkey
    obtain rfl := Option.some.inj hvalue
    subst hkey
    obtain ⟨number, carried⟩ := f
    cases carried with
    | bytes b =>
      obtain rfl := Option.some.inj hbody
      exact ⟨b, Prod.ext hnumber rfl, decodeMapEntry_eq_some_iff.mp hentry⟩
    | _ => cases hbody
  · rintro ⟨body, rfl, hentry⟩
    refine ⟨("compress_type", value), ?_, if_pos rfl⟩
    rw [if_pos rfl]
    exact decodeMapEntry_eq_some_iff.mpr hentry

theorem compressType_foldl (fields : List WireField) :
    (fields.foldl PushFrame.field {}).compressType = fields.findSome? compressionOf := by
  rw [PushFrame.compressType, headers_foldl, List.nil_append]
  induction fields with
  | nil => rfl
  | cons f fields ih =>
    rw [List.filterMap_cons, List.findSome?_cons, ← ih, compressionOf]
    cases headerOf f with
    | none => rfl
    | some e => by_cases hkey : e.1 = "compress_type" <;> simp [hkey]

theorem compressType_iff {fields : List WireField} {compressType : Option String} :
    (fields.foldl PushFrame.field {}).compressType = compressType ↔
      CompressType fields compressType := by
  have hnone : ∀ f, compressionOf f = none ↔ ∀ value, ¬Compression f value := by
    simp only [← compressionOf_eq_some_iff, Option.eq_none_iff_forall_ne_some, implies_true]
  rw [compressType_foldl]
  constructor
  · rintro rfl
    cases hfirst : fields.findSome? compressionOf with
    | none => exact .missing fun f hf => (hnone f).mp (List.findSome?_eq_none_iff.mp hfirst f hf)
    | some value =>
      obtain ⟨before, f, after, rfl, hf, hbefore⟩ := List.findSome?_eq_some_iff.mp hfirst
      exact .first (fun g hg => (hnone g).mp (hbefore g hg)) (compressionOf_eq_some_iff.mp hf)
  · intro h
    cases h with
    | missing h => exact List.findSome?_eq_none_iff.mpr fun f hf => (hnone f).mpr (h f hf)
    | first hbefore h =>
      exact List.findSome?_eq_some_iff.mpr ⟨_, _, _, rfl, compressionOf_eq_some_iff.mpr h,
        fun g hg => (hnone g).mpr (hbefore g hg)⟩

end TiktokSigner.FrameGrammar
