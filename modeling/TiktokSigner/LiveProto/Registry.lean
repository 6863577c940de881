/-!
# The descriptor registry of the pinned schema

The descriptors themselves are generated from the pinned schema at build
time; here a registry is any list of them, and the lookups are those that
the build script writes around the generated tables. The parts of a
descriptor that nothing here reads (oneofs, the map-entry flag of a message,
deprecation) are left out.
-/

namespace TiktokSigner.LiveProto

/-- Wire representation expected for a schema field. -/
inductive FieldKind where
  | varint
  | fixed64
  | fixed32
  | string
  | bytes
  /-- Fully qualified name of the nested message type. -/
  | message (name : String)
deriving DecidableEq

/-- Logical type of a schema field, as declared. -/
inductive FieldValueKind where
  | double
  | float
  | int64
  | uint64
  | int32
  | fixed64
  | fixed32
  | bool
  | string
  | message (name : String)
  | bytes
  | uint32
  /-- Fully qualified name of the enum type. -/
  | enum (name : String)
  | sfixed32
  | sfixed64
  | sint32
  | sint64
deriving DecidableEq

inductive FieldCardinality where
  | optional
  | required
  | repeated
deriving DecidableEq

structure FieldSchema where
  number : UInt32
  name : String
  /-- JSON name from the descriptor (`display_id` is `displayId`). -/
  jsonName : String
  kind : FieldKind
  valueKind : FieldValueKind
  cardinality : FieldCardinality
  isMap : Bool
deriving DecidableEq

structure MessageSchema where
  name : String
  fields : List FieldSchema
deriving DecidableEq

/-- Descriptor for a field number, if the schema declares one. -/
def MessageSchema.field (self : MessageSchema) (number : UInt32) : Option FieldSchema :=
  self.fields.find? fun field => field.number == number

structure EnumValueSchema where
  number : Int32
  name : String
deriving DecidableEq

structure EnumSchema where
  name : String
  values : List EnumValueSchema
deriving DecidableEq

/-- The generated tables, in declaration order. -/
structure Registry where
  schemas : List MessageSchema
  enums : List EnumSchema

def methodPackage : String := "webcast.model.message"

namespace Registry

variable (registry : Registry)

def schemaByName (name : String) : Option MessageSchema :=
  registry.schemas.find? fun schema => schema.name == name

/-- A method name is the message name in `methodPackage`; a last segment of
any other qualified name is the fallback. -/
def schemaForMethod (method : String) : Option MessageSchema :=
  if method.startsWith "Webcast" then
    match registry.schemaByName s!"{methodPackage}.{method}" with
    | some schema => some schema
    | none =>
        registry.schemas.find? fun schema => (schema.name.splitOn ".").getLast? == some method
  else none

def enumByName (name : String) : Option EnumSchema :=
  registry.enums.find? fun e => e.name == name

end Registry
end TiktokSigner.LiveProto
