import Mathlib.Data.List.Basic
import TiktokSigner.Lib.Text
import TiktokSigner.Lib.Validity

/-!
# The runtime validator for JSON

`json-validation.ts`: `validateJson` and the walk behind it. A schema is the
JSON value that is embedded for it; `readSchema` is the type that the walk
takes it for. Regular expressions, the URL parser and `JSON.stringify` are
parameters.

The walk recurses through references, so it is given fuel. It stops at the
first failure and throws where a reference leads nowhere or a format is
unknown.
-/

namespace TiktokSigner.NodeClient.JsonValidation

open Text Validity

/-! ## Values -/

/-- The finite numbers; `Object.is` tells the zeros apart. The infinities are
left out: `JSON.parse` gives them for literals too large for a double, such as
`1e999`, and they are no values of JSON. -/
inductive JsNumber where
  | negZero
  | rat (q : ℚ)
  deriving DecidableEq

def JsNumber.toRat : JsNumber → ℚ
  | .negZero => 0
  | .rat q => q

abbrev Value := Json JsNumber

abbrev Schema := Json JsNumber

/-- `Object.is`: no value of a response is an object of the schema. -/
def objectIs : Value → Value → Bool
  | .null, .null => true
  | .bool a, .bool b => a == b
  | .num m, .num n => m = n
  | .str s, .str t => s == t
  | _, _ => false

structure JsLib where
  /-- `new RegExp(pattern).test(value)`. -/
  test : String → String → Bool
  /-- `new URL(value)` does not throw. -/
  isUri : String → Bool
  stringify : Value → String

/-! ## Schemas -/

structure JsonSchemaObject extends Keywords JsNumber Schema where
  xExpected : Option String

inductive JsonSchema where
  | bool (b : Bool)
  | object (schema : JsonSchemaObject)

def asStrings (json : Schema) : Option (List String) := json.asArray.bind (·.mapM Json.asStr)

/-- The names of `type`, a string or an array of strings. -/
def asTypes : Schema → Option (List String)
  | .str name => some [name]
  | json => asStrings json

def asSchema : Schema → Option Schema
  | .bool b => some (.bool b)
  | .obj members => some (.obj members)
  | _ => none

def asSchemas (json : Schema) : Option (List Schema) := json.asArray.bind (·.mapM asSchema)

def asProperties (json : Schema) : Option (List (String × Schema)) :=
  json.asObject.bind (·.mapM fun (key, value) => (asSchema value).map fun schema => (key, schema))

/-- A property that may be absent; `none` where it is of another type. -/
def optional {α : Type} (members : List (String × Schema)) (key : String)
    (read : Schema → Option α) : Option (Option α) :=
  match members.lookup key with
  | none => some none
  | some json => (read json).map some

def readObject (members : List (String × Schema)) : Option JsonSchemaObject := do
  let ref ← optional members "$ref" Json.asStr
  let enum ← optional members "enum" Json.asArray
  let format ← optional members "format" Json.asStr
  let allOf ← optional members "allOf" asSchemas
  let anyOf ← optional members "anyOf" asSchemas
  let oneOf ← optional members "oneOf" asSchemas
  let type ← optional members "type" asTypes
  let pattern ← optional members "pattern" Json.asStr
  let minimum ← optional members "minimum" Json.asNum
  let maximum ← optional members "maximum" Json.asNum
  let items ← optional members "items" asSchema
  let required ← optional members "required" asStrings
  let properties ← optional members "properties" asProperties
  let additionalProperties ← optional members "additionalProperties" asSchema
  let xExpected := (members.lookup "x-expected").bind Json.asStr
  some { const := members.lookup "const", ref, enum, format, allOf, anyOf, oneOf, type, pattern,
         minimum, maximum, items, required, properties, additionalProperties, xExpected }

/-- The type that the walk takes a schema for; nothing else is given to it. -/
def readSchema : Schema → Option JsonSchema
  | .bool b => some (.bool b)
  | .obj members => (readObject members).map .object
  | _ => none

/-! ## Failures -/

structure Failure where
  path : String
  expected : String
  received : String
  deriving DecidableEq

structure JsonValidationError where
  endpoint : String
  path : String
  expected : String
  received : String
  deriving DecidableEq

def JsonValidationError.message (error : JsonValidationError) : String :=
  let path := if error.path = "" then "$" else error.path
  s!"Invalid {error.endpoint}: {path} expected {error.expected}, received {error.received}"

/-- What ends a walk but a verdict. -/
inductive Thrown where
  | validation (error : JsonValidationError)
  | typeError (message : String)
  /-- The schema is not of its type. -/
  | untyped
  | outOfFuel
  deriving DecidableEq

def expected : JsonSchema → String
  | .bool false => "a value allowed by the schema"
  | .bool true => "any value"
  | .object schema =>
      match schema.xExpected with
      | some label => label
      | none =>
          if schema.pattern = some "^[0-9]+$" then "numeric string"
          else if schema.format = some "uri" then "a valid URI"
          else
            match schema.type with
            | some names => " or ".intercalate names
            | none => if schema.anyOf.isSome then "one of the allowed shapes" else "a valid value"

/-- The type of a value; `none` is `undefined`. -/
def received : Option Value → String
  | none => "undefined"
  | some .null => "null"
  | some (.arr _) => "array"
  | some (.bool _) => "boolean"
  | some (.num _) => "number"
  | some (.str _) => "string"
  | some (.obj _) => "object"

def failure (path expectedValue : String) (value : Option Value) (schema : JsonSchema) : Failure :=
  let label := match schema with
    | .object schema => schema.xExpected.filter (· ≠ "")
    | .bool _ => none
  { path, expected := label.getD expectedValue, received := received value }

/-! ## References -/

/-- `value.replaceAll(two characters, one)`. -/
def replaceAll (first second replacement : Char) : List Char → List Char
  | c :: d :: rest =>
      if c = first ∧ d = second then replacement :: replaceAll first second replacement rest
      else c :: replaceAll first second replacement (d :: rest)
  | text => text

/-- The key of a segment of the pointer. -/
def segmentKey (segment : List Char) : String :=
  String.ofList (replaceAll '~' '0' '~' (replaceAll '~' '1' '/' segment))

/-- `value[key]` where `key in value`, what is inherited apart. -/
def property (key : String) : Schema → Option Schema
  | .obj members => members.lookup key
  | .arr elements =>
      if key = "length" then some (.num (.rat elements.length))
      else (elements.zipIdx.find? fun (_, index) => toString index == key).map (·.1)
  | _ => none

/-- Resolve the local `$ref` form emitted by JSON Schema generators. -/
def resolveLocalReference (root : Schema) (reference : String) : Except Thrown Schema :=
  if reference = "#" then .ok root
  else
    match stripPrefix "#/".toList reference.toList with
    | none => .error (.typeError s!"Unsupported JSON Schema reference: {reference}")
    | some pointer =>
        let value := (pointer.splitOn '/').foldlM
          (fun value segment => property (segmentKey segment) value) root
        match value with
        | none => .error (.typeError s!"JSON Schema reference does not exist: {reference}")
        | some value =>
            match asSchema value with
            | none => .error (.typeError s!"JSON Schema reference is not a schema: {reference}")
            | some schema => .ok schema

/-! ## The walk -/

abbrev Verdict := Except Thrown (Option Failure)

/-- `if (result) return result;` -/
def Verdict.andThen (result next : Verdict) : Verdict :=
  result.bind fun failed =>
    match failed with
    | some f => .ok (some f)
    | none => next

def accept : Verdict := .ok none

def failIf (bad : Bool) (f : Failure) : Verdict := .ok (if bad then some f else none)

def each {α : Type} (visit : α → Verdict) : List α → Verdict
  | [] => accept
  | a :: rest => (visit a).andThen (each visit rest)

/-- `branches.filter((branch) => check(value, branch, path, root) === null).length` -/
def countMatches {α : Type} (visit : α → Verdict) : List α → Except Thrown Nat
  | [] => .ok 0
  | a :: rest =>
      (visit a).bind fun failed =>
        (countMatches visit rest).map fun matched => if failed.isNone then matched + 1 else matched

def matchesType (value : Value) : String → Bool
  | "null" => value.isNull
  | "boolean" => match value with | .bool _ => true | _ => false
  | "integer" => match value with | .num n => n.toRat.isInt | _ => false
  | "number" => value.asNum.isSome
  | "string" => value.asStr.isSome
  | "array" => value.asArray.isSome
  | "object" => value.isObject
  | _ => true

section Node

variable (js : JsLib) (visit : Value → Schema → String → Verdict) (value : Value)
  (schema : JsonSchemaObject) (path : String)

def checkConst : Verdict :=
  match schema.const with
  | some const =>
      failIf (!objectIs value const)
        (failure path s!"the constant {js.stringify const}" value (.object schema))
  | none => accept

def checkEnum : Verdict :=
  match schema.enum with
  | some items =>
      failIf (!items.any fun item => objectIs item value)
        (failure path "an allowed value" value (.object schema))
  | none => accept

def checkFormat : Verdict :=
  match schema.format with
  | some format =>
      if format = "uri" then accept
      else .error (.typeError s!"Unsupported JSON Schema format: {format}")
  | none => accept

def checkAllOf : Verdict := each (fun branch => visit value branch path) (schema.allOf.getD [])

/-- `schema.anyOf ?? schema.oneOf` -/
def JsonSchemaObject.alternatives (schema : JsonSchemaObject) : Option (List Schema) :=
  schema.anyOf.or schema.oneOf

def checkAlternatives : Verdict :=
  match schema.alternatives with
  | some branches =>
      (countMatches (fun branch => visit value branch path) branches).bind fun matched =>
        let valid := if schema.anyOf.isSome then 0 < matched else matched = 1
        failIf (!valid) (failure path (expected (.object schema)) value (.object schema))
  | none => accept

def checkType : Verdict :=
  let types := schema.type.getD []
  failIf (!types.isEmpty && !types.any (matchesType value))
    (failure path (expected (.object schema)) value (.object schema))

def checkString : Verdict :=
  match value with
  | .str s =>
      let failed := failure path (expected (.object schema)) value (.object schema)
      (failIf (schema.pattern.any fun pattern => pattern ≠ "" && !js.test pattern s) failed).andThen
        (failIf (schema.format = some "uri" && !js.isUri s) failed)
  | _ => accept

def checkNumber : Verdict :=
  match value with
  | .num n =>
      let failed := failure path (expected (.object schema)) value (.object schema)
      (failIf (schema.minimum.any fun minimum => n.toRat < minimum.toRat) failed).andThen
        (failIf (schema.maximum.any fun maximum => n.toRat > maximum.toRat) failed)
  | _ => accept

/-- The checks of the value as a whole. -/
def checkWhole : Verdict :=
  (checkConst js value schema path).andThen <|
  (checkEnum value schema path).andThen <|
  (checkFormat schema).andThen <|
  (checkAllOf visit value schema path).andThen <|
  (checkAlternatives visit value schema path).andThen <|
  (checkType value schema path).andThen <|
  (checkString js value schema path).andThen <|
  checkNumber value schema path

/-- `schema.items` where it is truthy. -/
def JsonSchemaObject.truthyItems (schema : JsonSchemaObject) : Option Schema :=
  match schema.items with
  | some (.bool false) => none
  | items => items

def checkItems (elements : List Value) : Verdict :=
  match schema.truthyItems with
  | some items =>
      each (fun (element, index) => visit element items s!"{path}[{index}]") elements.zipIdx
  | none => accept

def checkRequired (members : List (String × Value)) : Verdict :=
  each (fun key => failIf (members.lookup key).isNone
      (failure s!"{path}.{key}" "a required property" none (.object schema)))
    (schema.required.getD [])

def checkProperties (members : List (String × Value)) : Verdict :=
  each (fun (key, propertySchema) =>
      match members.lookup key with
      | some child => visit child propertySchema s!"{path}.{key}"
      | none => accept)
    (schema.properties.getD [])

def checkAdditional (members : List (String × Value)) : Verdict :=
  match schema.additionalProperties with
  | none | some (.bool true) => accept
  | some (.bool false) =>
      each (fun (key, child) => failIf (!schema.known.contains key)
          (failure s!"{path}.{key}" "no additional property" (some child) (.object schema)))
        members
  | some additional =>
      each (fun (key, child) =>
          if schema.known.contains key then accept else visit child additional s!"{path}.{key}")
        members

/-- The checks of its elements and members. -/
def checkParts : Verdict :=
  match value with
  | .arr elements => checkItems visit schema path elements
  | .obj members =>
      (checkRequired schema path members).andThen <|
      (checkProperties visit schema path members).andThen <|
      checkAdditional visit schema path members
  | _ => accept

end Node

def check (js : JsLib) (root : Schema) : Nat → Value → Schema → String → Verdict
  | 0, _, _, _ => .error .outOfFuel
  | fuel + 1, value, schema, path =>
      match readSchema schema with
      | none => .error .untyped
      | some (.bool true) => accept
      | some (.bool false) =>
          .ok (some (failure path "a value allowed by the schema" value (.bool false)))
      | some (.object object) =>
          match object.ref with
          | some reference => do
              let target ← resolveLocalReference root reference
              check js root fuel value target path
          | none =>
              (checkWhole js (check js root fuel) value object path).andThen
                (checkParts (check js root fuel) value object path)

/-- The value itself, where it is what the schema says. -/
def validateJson (js : JsLib) (fuel : Nat) (value : Value) (schema : Schema) (endpoint : String) :
    Except Thrown Value :=
  (check js schema fuel value schema "$").bind fun failed =>
    match failed with
    | some f =>
        let path := if f.path = "$" then "$" else (f.path.drop 2).toString
        .error (.validation { endpoint, path, expected := f.expected, received := f.received })
    | none => .ok value

end TiktokSigner.NodeClient.JsonValidation
