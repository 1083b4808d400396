import DocumentProof.Schema.Registry
import DocumentProof.Text.Upper

/-!
# Schemas derived from documents

A document without a schema gets one from its own content. Every object becomes a struct: the
document itself is `Document`, and an object under a key has the key's name with its first
character in upper case. Fields stand by increasing key. Single values are `bool`, `uint256` or
`string`, and arrays hold values of one of these kinds; an empty array counts as one of strings.

Objects that share a name have to agree on their fields.
-/

namespace DocumentProof

namespace Derive

/-- The name of the struct of a whole document. -/
def rootType : String := "Document"

/-- The key with its first character in upper case. -/
def capitalize? (key : String) : Option String :=
  match key.toList with
  | [] => none
  | c :: cs => some (String.ofList (Text.upper c ++ cs))

/-! ### Names -/

/-- A character that no key has. -/
def isForbidden (c : Char) : Bool := c == '(' || c == ')' || c == ',' || Text.isBlank c

def joinPath (parent key : String) : String := if parent = "" then key else parent ++ "." ++ key

/-- The name of the struct of an object under a key. It has to read back as this very struct. -/
def structName (key path : String) : Except SchemaError String :=
  match capitalize? key with
  | none => .error (.invalidTypeName path key)
  | some name =>
    if FieldType.ofText? name = some (.struct name) then .ok name
    else .error (.invalidTypeName path name)

/-! ### Kinds -/

def kindName : Json → String
  | .null => "null"
  | .bool _ => "boolean"
  | .number _ => "number"
  | .string _ => "string"
  | .array _ => "array"
  | .object _ => "object"

def primitive? : Json → Option Primitive
  | .bool _ => some .bool
  | .number _ => some .uint256
  | .string _ => some .string
  | _ => none

/-- What the items of an array are, as messages name them. -/
def pluralName : Json → String
  | .null => "nulls"
  | .array _ => "arrays"
  | .object _ => "objects"
  | _ => "primitives"

/-- The one kind of the items, after those before them had the kind `known`. -/
def itemKind (path : String) : Option Primitive → List Json → Except SchemaError (Option Primitive)
  | known, [] => .ok known
  | known, x :: xs =>
    match primitive? x with
    | none => .error (.unsupportedArray path ("arrays of " ++ pluralName x ++ " are not supported"))
    | some p =>
      if known = none ∨ known = some p then itemKind path (some p) xs
      else .error (.unsupportedArray path "Array of mixed types are not supported")

/-! ### The walk -/

/-- A walk into a value that stands at a path: from the types registered so far to the type of the
value, with the types of the objects inside it registered. -/
abbrev Walk := String → Registry → Except SchemaError (FieldType × Registry)

/-- The fields of an object, from the walks into its members one after the other. -/
def fieldsAlong (path : String) (r : Registry) :
    List (String × Walk) → Except SchemaError (List Field × Registry)
  | [] => .ok ([], r)
  | (key, walk) :: walks => do
    let here := joinPath path key
    if key.toList.any isForbidden then
      .error (.invalidFieldName here key)
    else
      let (type, r) ← walk here r
      let (fields, r) ← fieldsAlong path r walks
      return (⟨key, type.toText⟩ :: fields, r)

mutual

/-- The type of the value under a key, with the types of the objects inside it registered. The
members of an object are taken by increasing key. -/
def member (key path : String) (r : Registry) : Json → Except SchemaError (FieldType × Registry)
  | .bool _ => .ok (.bool, r)
  | .number _ => .ok (.ofPrimitive .uint256, r)
  | .string _ => .ok (.string, r)
  | .array xs => do
    let kind ← itemKind path none xs
    return (.arrayOf (kind.getD .string), r)
  | .object ms => do
    let name ← structName key path
    let (fields, r) ← fieldsAlong path r (Keyed.ofList (memberWalks ms))
    let r ← r.register name fields
    return (.struct name, r)
  | .null => .error (.unsupportedValue path "null")

/-- The walks into the members of an object. -/
def memberWalks : List (String × Json) → List (String × Walk)
  | [] => []
  | (key, x) :: ms => (key, fun path r => member key path r x) :: memberWalks ms

end

/-- The fields of an object, by increasing key. -/
def members (path : String) (r : Registry) (ms : List (String × Json)) :
    Except SchemaError (List Field × Registry) :=
  fieldsAlong path r (Keyed.ofList (memberWalks ms))

end Derive

/-- The schema of a document. -/
def deriveTypes : Json → Except SchemaError TypeSchema
  | .object ms => do
    let (fields, r) ← Derive.members "" Registry.empty ms
    let r ← r.register Derive.rootType fields
    return r.toSchema
  | x => .error (.notAnObject (Derive.kindName x))

end DocumentProof
