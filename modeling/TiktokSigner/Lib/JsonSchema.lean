import TiktokSigner.Lib.Json

/-!
# JSON schemas

The part of JSON Schema that describes a response: types, properties that
may be absent, items, a pattern, bounds. Other properties are allowed.
Which numbers are integers is a parameter.
-/

namespace TiktokSigner

inductive JsonSchema where
  | string (pattern : List Char → Bool)
  | integer (minimum maximum : Option Int)
  | array (items : JsonSchema)
  | object (properties : List (String × JsonSchema))

namespace JsonSchema

variable {Number : Type} (integerOf : Number → Option Int)

mutual

def valid : JsonSchema → Json Number → Bool
  | .string pattern, .str s => pattern s.toList
  | .integer minimum maximum, .num n =>
      (integerOf n).any fun n => minimum.all (· ≤ n) && maximum.all (n ≤ ·)
  | .array items, .arr elements => elements.all fun element => valid items element
  | .object properties, .obj members => validProperties properties members
  | _, _ => false

def validProperties : List (String × JsonSchema) → List (String × Json Number) → Bool
  | [], _ => true
  | (key, schema) :: properties, members =>
      (match members.lookup key with
        | none => true
        | some value => valid schema value) &&
        validProperties properties members

end

variable {integerOf}

theorem validProperties_iff {members : List (String × Json Number)}
    {properties : List (String × JsonSchema)} :
    validProperties integerOf properties members = true ↔
      ∀ property ∈ properties, ∀ value, members.lookup property.1 = some value →
        valid integerOf property.2 value = true := by
  induction properties with
  | nil => exact iff_of_true rfl fun _ h => absurd h List.not_mem_nil
  | cons property properties ih =>
    obtain ⟨key, schema⟩ := property
    rw [validProperties, Bool.and_eq_true, ih, List.forall_mem_cons]
    refine and_congr_left fun _ => ?_
    cases members.lookup key with
    | none => exact iff_of_true rfl fun _ h => by cases h
    | some value => exact ⟨fun h _ hvalue => Option.some.inj hvalue ▸ h, fun h => h value rfl⟩

/-- An object, and each property that it has is valid. -/
theorem valid_object_iff {properties : List (String × JsonSchema)} {value : Json Number} :
    valid integerOf (.object properties) value = true ↔
      value.isObject = true ∧ ∀ property ∈ properties, ∀ field,
        value.get property.1 = some field → valid integerOf property.2 field = true := by
  cases value with
  | obj members =>
    rw [valid, validProperties_iff]
    exact ⟨fun h => ⟨rfl, h⟩, fun h => h.2⟩
  | _ => exact iff_of_false (fun h => by cases h) (fun h => by cases h.1)

theorem valid_get {properties : List (String × JsonSchema)} {key : String} {schema : JsonSchema}
    {value field : Json Number} (hmem : (key, schema) ∈ properties)
    (hvalid : valid integerOf (.object properties) value = true)
    (hfield : value.get key = some field) : valid integerOf schema field = true :=
  (valid_object_iff.mp hvalid).2 (key, schema) hmem field hfield

/-- A valid text, if the property is there. -/
theorem valid_text {properties : List (String × JsonSchema)} {key : String}
    {pattern : List Char → Bool} {value field : Json Number}
    (hmem : (key, .string pattern) ∈ properties)
    (hvalid : valid integerOf (.object properties) value = true)
    (hfield : value.get key = some field) : ∃ s, field = .str s ∧ pattern s.toList = true := by
  have htext := valid_get hmem hvalid hfield
  cases field with
  | str s => exact ⟨s, rfl, by rwa [valid] at htext⟩
  | _ => cases htext

end JsonSchema

end TiktokSigner
