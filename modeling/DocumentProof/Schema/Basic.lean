import DocumentProof.Json.Decode
import DocumentProof.Schema.FieldType

/-!
# Schemas

A schema binds names of structs to their fields in order. Types of fields are kept as texts and
read where they are used, since a schema may hold texts that are no type.
-/

namespace DocumentProof

/-- A member of a struct: its name and the text of its type. -/
structure Field where
  name : String
  typeName : String
deriving DecidableEq

/-- Fields by the name of their struct. -/
abbrev TypeSchema := KeyMap (List Field)

/-- Why a document has no schema, or a text is no type. -/
inductive SchemaError where
  | notAnObject (kind : String)
  | unsupportedValue (path kind : String)
  | unsupportedArray (path reason : String)
  | collision (typeName : String) (existing incoming : List Field)
  | invalidTypeName (path name : String)
  | invalidFieldName (path name : String)
  | invalidFieldType (text : String)
deriving DecidableEq

namespace Field

def fieldType (f : Field) : Except SchemaError FieldType :=
  match FieldType.ofText? f.typeName with
  | some t => .ok t
  | none => .error (.invalidFieldType f.typeName)

/-- A field as messages show it. -/
def describe (f : Field) : String :=
  "TypedDataField \x7b name: " ++ Text.quoted f.name ++ ", type_name: " ++ Text.quoted f.typeName
    ++ " \x7d"

def describeAll (fs : List Field) : String :=
  "[" ++ String.intercalate ", " (fs.map describe) ++ "]"

/-! ### JSON form -/

def toJson (f : Field) : Json :=
  Json.ofMembers [("name", .string f.name), ("type", .string f.typeName)]

def ofJson : Json.Decoder Field
  | .object ms => do
    Json.checkMembers (fun key x =>
      if key = "name" ∨ key = "type" then Json.attempt Json.decodeString x else .ok ()) ms
    return ⟨← Json.required Json.decodeString "name" ms,
      ← Json.required Json.decodeString "type" ms⟩
  | .array xs => do
    let shape := Json.recordShape "TypedDataField" 2
    let name ← Json.requiredAt Json.decodeString shape 0 xs
    let typeName ← Json.requiredAt Json.decodeString shape 1 xs
    Json.atMost 2 xs
    return ⟨name, typeName⟩
  | x => Json.unexpected "struct TypedDataField" x

def listOfJson : Json.Decoder (List Field) := Json.decodeList ofJson

def listToJson (fs : List Field) : Json := .array (fs.map toJson)

end Field

namespace SchemaError

def message : SchemaError → String
  | notAnObject kind => "document must be a JSON object, got " ++ kind
  | unsupportedValue path kind =>
    "unsupported type at " ++ path ++ ": " ++ kind ++ " values cannot be typed"
  | unsupportedArray path reason => "unsupported array at " ++ path ++ ": " ++ reason
  | collision typeName existing incoming =>
    "schema collision on type " ++ Text.quoted typeName ++ ": " ++ Field.describeAll existing
      ++ " vs " ++ Field.describeAll incoming
  | invalidTypeName path name =>
    "invalid type name derived from key at " ++ path ++ ": " ++ Text.quoted name
  | invalidFieldName path name => "invalid field name at " ++ path ++ ": " ++ Text.quoted name
  | invalidFieldType text => "invalid field type " ++ Text.quoted text

end SchemaError

namespace TypeSchema

def toJson (types : TypeSchema) : Json :=
  .object (types.entries.map fun e => (e.1, Field.listToJson e.2))

def ofJson : Json.Decoder TypeSchema := Json.decodeMap Field.listOfJson

end TypeSchema

end DocumentProof
