import Mathlib.Data.List.TakeWhile
import TiktokSigner.Lib.Json
import TiktokSigner.LiveEvents.Dynamic

/-!
# Named JSON export

`object_json` of `event.rs` folds the fields of an object, in wire order,
into one JSON object. The first occurrence under a key is stored as it is
(or as an array, when the field is repeated), later ones make it an array;
an entry of a map field goes into an object under the field's key.

What happens under one key depends on the occurrences under that key only:
`lookup_objectMembers` reduces the fold to `storeAll` over these. Entries
are taken in while what is stored is an object. The first other occurrence
makes it an array, and every entry after that is dropped.

Base64 and the text of a JSON value are parameters.
-/

namespace TiktokSigner.LiveEvents

open LiveProto

/-- A number of the export. A float is kept as the bits of its `f64`. -/
inductive ExportNumber where
  | int (n : Int)
  | float (bits : UInt64)
deriving DecidableEq

abbrev ExportJson := Json ExportNumber

/-- The `base64` crate, and `to_string` of a JSON value. -/
structure ExportText where
  base64 : Bytes → String
  print : ExportJson → String

/-! ## Floats by their bits -/

/-- `v as f64` of an `f32`. -/
def widen (bits : UInt32) : UInt64 :=
  let sign := bits.toNat / 2 ^ 31
  let exponent := bits.toNat / 2 ^ 23 % 2 ^ 8
  let mantissa := bits.toNat % 2 ^ 23
  let magnitude :=
    if exponent = 255 then 2047 * 2 ^ 52 + mantissa * 2 ^ 29
    else if exponent ≠ 0 then (exponent + 896) * 2 ^ 52 + mantissa * 2 ^ 29
    else if mantissa = 0 then 0
    -- a subnormal `f32` is a normal `f64`
    else (mantissa.log2 + 874) * 2 ^ 52 + (mantissa - 2 ^ mantissa.log2) * 2 ^ (52 - mantissa.log2)
  UInt64.ofNat (sign * 2 ^ 63 + magnitude)

/-- One and a half, and the least positive `f32`. -/
example : widen 0x3fc00000 = 0x3ff8000000000000 ∧ widen 1 = 0x36a0000000000000 := by decide

def floatJson (bits : UInt64) : ExportJson :=
  let exponent := bits.toNat / 2 ^ 52 % 2 ^ 11
  if exponent ≠ 2047 then .num (.float bits)
  else if bits.toNat % 2 ^ 52 ≠ 0 then .str "NaN"
  else if bits.toNat / 2 ^ 63 = 0 then .str "Infinity"
  else .str "-Infinity"

/-! ## Values -/

section

variable (text : ExportText)

def bytesJson (bytes : Bytes) : ExportJson := .obj [("$bytes", .str (text.base64 bytes))]

/-- What stands for an absent key or value of a map entry. -/
def defaultJson (d : Option FieldSchema) : ExportJson :=
  match d.map FieldSchema.valueKind with
  | some .string => .str ""
  | some .bool => .bool false
  | some .int64 | some .uint64 | some .sint64 | some .fixed64 | some .sfixed64 => .str "0"
  | some .bytes => bytesJson text []
  | some (.message _) | none => .null
  | _ => .num (.int 0)

/-- A field as `object_json` looks at it: where it goes, the JSON of its
value and, of a nested message, the key and value of the map entry it would
be. -/
structure Occurrence where
  number : UInt32
  descriptor : Option FieldSchema
  value : ExportJson
  entry : Option (ExportJson × ExportJson)

namespace Occurrence

def key (self : Occurrence) : String :=
  (self.descriptor.map (·.jsonName)).getD s!"#{self.number.toNat}"

def repeated (self : Occurrence) : Bool :=
  self.descriptor.any (·.cardinality = .repeated)

/-- A well-formed map entry: its key as text, and its value. -/
def mapEntry (self : Occurrence) : Option (String × ExportJson) :=
  if self.descriptor.any (·.isMap) then
    self.entry.map fun (k, v) => (k.asStr.getD (text.print k), v)
  else none

end Occurrence

/-- The last field with this number, or the default. -/
def entryPart (schema : Option MessageSchema) (fields : List Occurrence) (number : UInt32) :
    ExportJson :=
  ((fields.reverse.find? (·.number == number)).map (·.value)).getD
    (defaultJson text (schema.bind (·.field number)))

/-- What is stored under a key after a map entry: an object takes it in,
anything else stays as it is. -/
def storeEntry (k : String) (v : ExportJson) : Option ExportJson → ExportJson
  | none => .obj [(k, v)]
  | some (.obj map) => .obj (OrderedMap.insert k v map)
  | some other => other

/-- What is stored under a key after any other occurrence. -/
def storeValue (repeated : Bool) (value : ExportJson) : Option ExportJson → ExportJson
  | none => if repeated then .arr [value] else value
  | some (.arr elements) => .arr (elements ++ [value])
  | some old => .arr [old, value]

def store (stored : Option ExportJson) (occurrence : Occurrence) : ExportJson :=
  match occurrence.mapEntry text with
  | some (k, v) => storeEntry k v stored
  | none => storeValue occurrence.repeated occurrence.value stored

/-- One turn of the loop of `object_json`. -/
def pushOccurrence (members : List (String × ExportJson)) (occurrence : Occurrence) :
    List (String × ExportJson) :=
  OrderedMap.insert occurrence.key (store text (members.lookup occurrence.key) occurrence) members

def objectMembers (fields : List Occurrence) : List (String × ExportJson) :=
  fields.foldl (pushOccurrence text) []

mutual

def valueJson : SchemaValue → ExportJson
  | .varint v | .uint64 v | .fixed64 v => .str (toString v.toNat)
  | .int64 v | .sint64 v | .sfixed64 v => .str (toString v.toInt)
  | .uint32 v | .fixed32 v => .num (.int v.toNat)
  | .int32 v | .sint32 v | .sfixed32 v => .num (.int v.toInt)
  | .bool v => .bool v
  | .text s => .str s
  | .double bits => floatJson bits
  | .float bits => floatJson (widen bits)
  | .enum number _ _ => .num (.int number.toInt)
  | .bytes b | .truncated b => bytesJson text b
  | .message ⟨_, fields, _, _⟩ => .obj (objectMembers text (occurrences fields))

def occurrences : List SchemaField → List Occurrence
  | [] => []
  | ⟨number, _, value, descriptor, _, _⟩ :: fields =>
      { number, descriptor, value := valueJson value, entry := entryJson value } ::
        occurrences fields

/-- Key and value of the map entry that a nested message is read as. -/
def entryJson : SchemaValue → Option (ExportJson × ExportJson)
  | .message ⟨schema, fields, _, _⟩ =>
      some (entryPart text schema (occurrences fields) 1,
        entryPart text schema (occurrences fields) 2)
  | _ => none

end

/-- Named protobuf JSON. -/
def objectJson (fields : List SchemaField) : ExportJson :=
  .obj (objectMembers text (occurrences text fields))

/-! ## One key at a time -/

/-- The occurrences under one key, stored one after the other. -/
def storeAll (stored : Option ExportJson) (occurrences : List Occurrence) : Option ExportJson :=
  occurrences.foldl (fun stored occurrence => some (store text stored occurrence)) stored

theorem lookup_foldl_pushOccurrence (key : String) :
    ∀ (fields : List Occurrence) (members : List (String × ExportJson)),
      (fields.foldl (pushOccurrence text) members).lookup key =
        storeAll text (members.lookup key) (fields.filter (·.key == key))
  | [], members => rfl
  | field :: fields, members => by
      rw [List.foldl_cons, lookup_foldl_pushOccurrence key fields, pushOccurrence,
        OrderedMap.lookup_insert]
      by_cases hkey : field.key = key
      · simp only [List.filter_cons, hkey, beq_self_eq_true, if_true]
        rfl
      · simp only [List.filter_cons, beq_eq_false_iff_ne.mpr hkey, if_neg (Ne.symm hkey),
          Bool.false_eq_true, if_false]

theorem lookup_objectMembers (key : String) (fields : List Occurrence) :
    (objectMembers text fields).lookup key =
      storeAll text none (fields.filter (·.key == key)) :=
  lookup_foldl_pushOccurrence text key fields []

/-- The map entries among some occurrences. -/
def entries (fields : List Occurrence) : List (String × ExportJson) :=
  fields.filterMap (·.mapEntry text)

/-- The values of the other occurrences. -/
def others (fields : List Occurrence) : List ExportJson :=
  (fields.filter fun field => (field.mapEntry text).isNone).map (·.value)

/-- The entries in front of all other occurrences. -/
def leading (fields : List Occurrence) : List Occurrence :=
  fields.takeWhile fun field => (field.mapEntry text).isSome

/-- The values that something stored under a key holds: the elements of an
array, or the value itself. -/
def elements : ExportJson → List ExportJson
  | .arr elements => elements
  | value => [value]

section

variable {text} {field : Occurrence} {fields : List Occurrence} {stored : ExportJson}
variable {map : List (String × ExportJson)} {values : List ExportJson}

theorem storeAll_cons (s : Option ExportJson) :
    storeAll text s (field :: fields) = storeAll text (some (store text s field)) fields := rfl

theorem store_entry {s : Option ExportJson} {entry : String × ExportJson}
    (h : field.mapEntry text = some entry) : store text s field = storeEntry entry.1 entry.2 s := by
  rw [store, h]

theorem store_value {s : Option ExportJson} (h : field.mapEntry text = none) :
    store text s field = storeValue field.repeated field.value s := by
  rw [store, h]

theorem entries_cons {entry : String × ExportJson} (h : field.mapEntry text = some entry) :
    entries text (field :: fields) = entry :: entries text fields := by
  simp [entries, h]

theorem others_cons_entry {entry : String × ExportJson} (h : field.mapEntry text = some entry) :
    others text (field :: fields) = others text fields := by
  simp [others, h]

theorem others_cons (h : field.mapEntry text = none) :
    others text (field :: fields) = field.value :: others text fields := by
  simp [others, h]

/-- Entries on top of an object. -/
theorem storeAll_entries : ∀ (fields : List Occurrence) (map : List (String × ExportJson)),
    (∀ field ∈ fields, (field.mapEntry text).isSome) →
      storeAll text (some (.obj map)) fields =
        some (.obj ((entries text fields).foldl (fun m e => OrderedMap.insert e.1 e.2 m) map))
  | [], _, _ => rfl
  | field :: fields, map, h => by
      obtain ⟨hfield, hfields⟩ := List.forall_mem_cons.mp h
      obtain ⟨entry, hentry⟩ := Option.isSome_iff_exists.mp hfield
      rw [storeAll_cons, store_entry hentry, storeEntry, storeAll_entries fields _ hfields,
        entries_cons hentry, List.foldl_cons]

theorem elements_storeValue (repeated : Bool) (value : ExportJson) :
    elements (storeValue repeated value (some stored)) = elements stored ++ [value] := by
  cases stored <;> rfl

theorem elements_storeEntry (k : String) (v : ExportJson) :
    (elements (storeEntry k v (some stored))).length = (elements stored).length := by
  cases stored <;> rfl

/-- Whatever is stored, an occurrence adds an element and an entry adds none. -/
theorem storeAll_length : ∀ (fields : List Occurrence) (stored : ExportJson),
    ∃ value, storeAll text (some stored) fields = some value ∧
      (elements value).length = (elements stored).length + (others text fields).length
  | [], stored => ⟨stored, rfl, rfl⟩
  | field :: fields, stored => by
      obtain ⟨value, hvalue, hlength⟩ := storeAll_length fields (store text (some stored) field)
      refine ⟨value, hvalue, ?_⟩
      cases hentry : field.mapEntry text with
      | some entry =>
        rw [hlength, store_entry hentry, elements_storeEntry, others_cons_entry hentry]
      | none =>
        rw [hlength, store_value hentry, elements_storeValue, others_cons hentry]
        simp only [List.length_append, List.length_cons, List.length_nil]
        omega

/-- Without entries the occurrences are stored in order. -/
theorem storeAll_others : ∀ (fields : List Occurrence) (stored : ExportJson),
    (∀ field ∈ fields, field.mapEntry text = none) →
      ∃ value, storeAll text (some stored) fields = some value ∧
        elements value = elements stored ++ others text fields
  | [], stored, _ => ⟨stored, rfl, by simp [others]⟩
  | field :: fields, stored, h => by
      obtain ⟨hfield, hfields⟩ := List.forall_mem_cons.mp h
      obtain ⟨value, hvalue, helements⟩ :=
        storeAll_others fields (store text (some stored) field) hfields
      refine ⟨value, hvalue, ?_⟩
      rw [helements, store_value hfield, elements_storeValue, others_cons hfield,
        List.append_assoc, List.singleton_append]

/-- An array takes the other occurrences and drops the entries. -/
theorem storeAll_array : ∀ (fields : List Occurrence) (values : List ExportJson),
    storeAll text (some (.arr values)) fields = some (.arr (values ++ others text fields))
  | [], values => by simp [storeAll, others]
  | field :: fields, values => by
      rw [storeAll_cons]
      cases hentry : field.mapEntry text with
      | some entry =>
        rw [store_entry hentry, others_cons_entry hentry]
        exact storeAll_array fields values
      | none =>
        rw [store_value hentry, storeValue, storeAll_array fields, others_cons hentry,
          List.append_assoc, List.singleton_append]

/-- The object that the leading entries build. -/
def leadingMap (text : ExportText) (fields : List Occurrence) : List (String × ExportJson) :=
  (entries text (leading text fields)).foldl (fun m e => OrderedMap.insert e.1 e.2 m) []

theorem lookup_leadingMap (k : String) :
    (leadingMap text fields).lookup k =
      OrderedMap.lastValue k (entries text (leading text fields)) := by
  rw [leadingMap, OrderedMap.lookup_foldl_insert, List.lookup_nil, Option.or_none]

/-- Something stored under a key holds every occurrence there: the others in
wire order and, where there are entries, one object with the last value of
every key among them. -/
def Holds (text : ExportText) (fields : List Occurrence) (stored : ExportJson) : Prop :=
  (entries text fields = [] → elements stored = others text fields) ∧
    (entries text fields ≠ [] →
      ∃ before map after, elements stored = before ++ .obj map :: after ∧
        before ++ after = others text fields ∧
        ∀ k v, OrderedMap.lastValue k (entries text fields) = some v → map.lookup k = some v)

/-- The entries in front of all other occurrences say of every key what all
entries say. -/
def EntriesLead (text : ExportText) (fields : List Occurrence) : Prop :=
  ∀ k v, OrderedMap.lastValue k (entries text fields) = some v →
    OrderedMap.lastValue k (entries text (leading text fields)) = some v

/-- The leading entries, and the first other occurrence if there is one. -/
theorem leading_append (text : ExportText) (fields : List Occurrence) :
    ∃ rest, fields = leading text fields ++ rest ∧
      (rest = [] ∨ ∃ other more, rest = other :: more ∧ other.mapEntry text = none) := by
  refine ⟨fields.dropWhile fun field => (field.mapEntry text).isSome,
    List.takeWhile_append_dropWhile.symm, ?_⟩
  cases hrest : fields.dropWhile fun field => (field.mapEntry text).isSome with
  | nil => exact Or.inl rfl
  | cons other more =>
    have hhead := List.head?_dropWhile_not (fun field => (field.mapEntry text).isSome) fields
    rw [hrest] at hhead
    exact Or.inr ⟨other, more, rfl, by simpa using hhead⟩

theorem leading_entries (text : ExportText) (fields : List Occurrence) :
    ∀ field ∈ leading text fields, (field.mapEntry text).isSome :=
  fun _ h => List.mem_takeWhile_imp (p := fun f : Occurrence => (f.mapEntry text).isSome) h

theorem others_append_leading (more : List Occurrence) :
    others text (leading text fields ++ more) = others text more := by
  have hleading : (leading text fields).filter (fun f => (f.mapEntry text).isNone) = [] := by
    apply List.filter_eq_nil_iff.mpr
    intro field hfield
    simp [Option.isSome_iff_ne_none.mp (leading_entries text fields field hfield)]
  rw [others, List.filter_append, hleading, List.nil_append, others]

theorem storeAll_append (s : Option ExportJson) (fields more : List Occurrence) :
    storeAll text s (fields ++ more) = storeAll text (storeAll text s fields) more :=
  List.foldl_append

/-- The leading entries make an object. -/
theorem storeAll_leading (h : leading text fields ≠ []) :
    storeAll text none (leading text fields) = some (.obj (leadingMap text fields)) := by
  have hentries := leading_entries text fields
  unfold leadingMap
  cases hleading : leading text fields with
  | nil => exact absurd hleading h
  | cons field more =>
    rw [hleading] at hentries
    obtain ⟨hfield, hmore⟩ := List.forall_mem_cons.mp hentries
    obtain ⟨entry, hentry⟩ := Option.isSome_iff_exists.mp hfield
    rw [storeAll_cons, store_entry hentry, storeEntry, storeAll_entries more _ hmore,
      entries_cons hentry]
    rfl

/-- An occurrence in front: the entries are dropped, all of them. -/
theorem holds_other_first {other : Occurrence} {more : List Occurrence}
    (hother : other.mapEntry text = none) (hvalue : other.value.asArray = none) :
    (∃ stored, storeAll text none (other :: more) = some stored ∧
        Holds text (other :: more) stored) ↔ entries text (other :: more) = [] := by
  have hfirst : elements (store text none other) = [other.value] := by
    rw [store_value hother, storeValue]
    split_ifs
    · rfl
    · cases hcase : other.value <;> simp_all [Json.asArray, elements]
  have hothers : others text (other :: more) = other.value :: others text more :=
    others_cons hother
  constructor
  · rintro ⟨stored, hstored, hholds⟩
    by_contra hentries
    obtain ⟨before, map, after, helements, hothers', -⟩ := hholds.2 hentries
    obtain ⟨value, hvalue, hlength⟩ := @storeAll_length text more (store text none other)
    rw [storeAll_cons, hvalue, Option.some.injEq] at hstored
    subst hstored
    -- one element for each occurrence leaves no room for the object
    rw [helements, hfirst] at hlength
    have hcount := congrArg List.length (hothers'.trans hothers)
    simp only [List.length_append, List.length_cons, List.length_nil] at hlength hcount
    omega
  · intro hentries
    have hmore : ∀ field ∈ more, field.mapEntry text = none := fun field hfield =>
      List.filterMap_eq_nil_iff.mp hentries field (List.mem_cons_of_mem _ hfield)
    obtain ⟨value, hvalue, helements⟩ := storeAll_others more (store text none other) hmore
    refine ⟨value, hvalue, fun _ => ?_, fun h => absurd hentries h⟩
    rw [helements, hfirst, hothers, List.singleton_append]

/-- Entries in front: their object is kept in front of the others. -/
theorem storeAll_entries_first (h : leading text fields ≠ []) :
    ∃ stored, storeAll text none fields = some stored ∧
      elements stored = .obj (leadingMap text fields) :: others text fields := by
  obtain ⟨rest, hfields, hrest⟩ := leading_append text fields
  have hall : storeAll text none fields =
      storeAll text (some (.obj (leadingMap text fields))) rest := by
    rw [← storeAll_leading h, ← storeAll_append, ← hfields]
  have hothers : others text fields = others text rest := by
    rw [hfields, others_append_leading]
  rcases hrest with rfl | ⟨other, more, rfl, hother⟩
  · exact ⟨_, hall, by rw [hothers]; rfl⟩
  · rw [storeAll_cons, store_value hother, storeValue, storeAll_array] at hall
    · refine ⟨_, hall, ?_⟩
      rw [hothers, others_cons hother]
      rfl
    · exact fun _ h => nomatch h

theorem eq_of_insertion {α : Type} {x y : α} {after : List α} : ∀ {before : List α},
    before ++ x :: after = y :: (before ++ after) → x = y
  | [], h => (List.cons.inj h).1
  | b :: before, h => by
      obtain ⟨rfl, hrest⟩ := List.cons.inj h
      exact eq_of_insertion hrest

/-- Entries in front: they are kept, and no later one is. -/
theorem holds_entries_first (h : leading text fields ≠ []) :
    (∃ stored, storeAll text none fields = some stored ∧ Holds text fields stored) ↔
      EntriesLead text fields := by
  obtain ⟨stored, hstored, helements⟩ := storeAll_entries_first h
  have hentries : entries text fields ≠ [] := by
    obtain ⟨field, more, hleading⟩ := List.exists_cons_of_ne_nil h
    obtain ⟨entry, hentry⟩ := Option.isSome_iff_exists.mp
      (leading_entries text fields field (by simp [hleading]))
    obtain ⟨rest, hfields, -⟩ := leading_append text fields
    rw [hfields, hleading, List.cons_append, entries_cons hentry]
    exact List.cons_ne_nil _ _
  constructor
  · rintro ⟨stored', hstored', hholds⟩ k v hlast
    obtain rfl := Option.some.inj (hstored.symm.trans hstored')
    obtain ⟨before, map, after, hsplit, hothers, hmap⟩ := hholds.2 hentries
    rw [hsplit, ← hothers] at helements
    obtain rfl := Json.obj.inj (eq_of_insertion helements)
    rw [← lookup_leadingMap]
    exact hmap k v hlast
  · intro hlead
    refine ⟨stored, hstored, fun hnone => absurd hnone hentries, fun _ => ?_⟩
    refine ⟨[], leadingMap text fields, others text fields, helements, rfl, fun k v hlast => ?_⟩
    rw [lookup_leadingMap]
    exact hlead k v hlast

theorem holds_iff (hne : fields ≠ []) (hvalues : ∀ field ∈ fields, field.value.asArray = none) :
    (∃ stored, storeAll text none fields = some stored ∧ Holds text fields stored) ↔
      EntriesLead text fields := by
  by_cases hleading : leading text fields = []
  · obtain ⟨rest, hfields, hrest⟩ := leading_append text fields
    rw [hleading, List.nil_append] at hfields
    rcases hrest with rfl | ⟨other, more, rfl, hother⟩
    · exact absurd hfields hne
    · subst hfields
      rw [holds_other_first hother (hvalues _ List.mem_cons_self), EntriesLead, hleading]
      constructor
      · intro hentries k v hlast
        rw [hentries] at hlast
        exact hlast
      · intro hlead
        by_contra hentries
        obtain ⟨⟨k, v⟩, more', hcons⟩ := List.exists_cons_of_ne_nil hentries
        have hmem : (k, v) ∈ entries text (other :: more) := by
          rw [hcons]
          exact List.mem_cons_self
        obtain ⟨v', hlast⟩ := OrderedMap.exists_lastValue hmem
        exact nomatch hlead k v' hlast
  · exact holds_entries_first hleading

end

/-! ## The export as a whole -/

/-- A value is never exported as an array. -/
theorem valueJson_asArray (value : SchemaValue) : (valueJson text value).asArray = none := by
  cases value with
  | double bits | float bits =>
    simp only [valueJson, floatJson]
    split_ifs <;> rfl
  | message object =>
    obtain ⟨_, fields, _, _⟩ := object
    rfl
  | _ => rfl

theorem occurrences_asArray : ∀ fields : List SchemaField,
    ∀ field ∈ occurrences text fields, field.value.asArray = none
  | [] => by simp [occurrences]
  | ⟨_, _, value, _, _, _⟩ :: fields => by
      rw [occurrences, List.forall_mem_cons]
      exact ⟨valueJson_asArray text value, occurrences_asArray fields⟩

/-- The occurrences under a key. -/
def under (key : String) (fields : List SchemaField) : List Occurrence :=
  (occurrences text fields).filter (·.key == key)

/-- Nothing under this key is lost. -/
def NothingLost (fields : List SchemaField) (key : String) : Prop :=
  under text key fields ≠ [] →
    ∃ stored, (objectJson text fields).get key = some stored ∧
      Holds text (under text key fields) stored

theorem nothingLost_iff (fields : List SchemaField) (key : String) :
    NothingLost text fields key ↔ EntriesLead text (under text key fields) := by
  rw [NothingLost, objectJson, Json.get_obj, lookup_objectMembers, ← under]
  by_cases hne : under text key fields = []
  · constructor
    · intro _ k v hlast
      rw [hne] at hlast
      exact nomatch hlast
    · intro _ h
      exact absurd hne h
  · have hvalues : ∀ field ∈ under text key fields, field.value.asArray = none :=
      fun field hfield => occurrences_asArray text fields field (List.mem_filter.mp hfield).1
    rw [← holds_iff hne hvalues]
    exact forall_prop_of_true hne

/-- The export loses nothing exactly when, under each key, the leading
entries say what all entries say. -/
theorem named_export_keeps_all_iff (text : ExportText) (fields : List SchemaField) :
    (∀ key, NothingLost text fields key) ↔ ∀ key, EntriesLead text (under text key fields) :=
  forall_congr' (nothingLost_iff text fields)

/-- A map field. -/
def mapDescriptor : FieldSchema where
  number := 5
  name := "labels"
  jsonName := "labels"
  kind := .message "Entry"
  valueKind := .message "Entry"
  cardinality := .repeated
  isMap := true

/-- A malformed entry, then a well-formed one. -/
def malformedFirst : List SchemaField :=
  [mkField 5 2 (some mapDescriptor) (.bytes [8]) true,
    mkField 5 2 (some mapDescriptor)
      (.message ⟨none, [mkField 1 2 none (.text "k") false, mkField 2 2 none (.text "v") false],
        false, false⟩) false]

theorem malformed_entry_hides_next :
    ¬∀ key, NothingLost ⟨fun _ => "", fun _ => ""⟩ malformedFirst key := by
  intro hkept
  have hlead := (nothingLost_iff _ _ _).mp (hkept "labels")
  exact nomatch hlead "k" (.str "v") rfl

end

end TiktokSigner.LiveEvents
