import DocumentProof.Hash.Keccak
import DocumentProof.TypedData.Error

/-!
# The text of a type

A struct is written as its name and its fields, followed by the structs it refers to, directly or
through others, in the order of their names. The hash of this text stands for the type.
-/

namespace DocumentProof

/-- A set of names. -/
abbrev NameSet := KeyMap Unit

namespace TypeSchema

/-- A struct with its fields: `Name(type1 name1,type2 name2)`. -/
def renderType (name : String) (fields : List Field) : String :=
  name ++ "(" ++ String.intercalate "," (fields.map fun f => f.typeName ++ " " ++ f.name) ++ ")"

/-- The fields of a struct that has to be there. -/
def fieldsOf (types : TypeSchema) (name : String) : Except CryptoError (List Field) :=
  match types.get? name with
  | some fields => .ok fields
  | none => .error (.unknownType name)

/-- The type of a field. -/
def typeOf (f : Field) : Except CryptoError FieldType :=
  match f.fieldType with
  | .ok t => .ok t
  | .error e => .error (.invalidTypeReference e)

/-- Adds the names that a struct refers to, directly or through structs that are new to the set, on
chains of at most `n` structs. -/
def collect (types : TypeSchema) : Nat → String → NameSet → Except CryptoError NameSet
  | 0, _, found => .ok found
  | n + 1, name, found => do
    let fields ← types.fieldsOf name
    fields.foldlM (fun found f => do
      match (← typeOf f).structName? with
      | none => return found
      | some used =>
        if found.contains used then return found
        else collect types n used (found.put used ())) found

/-- The names that a struct refers to, directly or through others. A chain of new names visits each
struct of the schema at most once after its start, and ends with a name the schema lacks. -/
def references (types : TypeSchema) (name : String) : Except CryptoError NameSet :=
  types.collect (types.size + 2) name KeyMap.empty

/-- The text of a struct with all structs it refers to. -/
def encodeType (types : TypeSchema) (name : String) : Except CryptoError String := do
  let fields ← types.fieldsOf name
  let used := (← types.references name).remove name
  let rendered ← used.keys.mapM fun other => do return renderType other (← types.fieldsOf other)
  return renderType name fields ++ String.join rendered

def typeHash (types : TypeSchema) (name : String) : Except CryptoError Word := do
  return keccak256 (Bytes.ofString (← types.encodeType name))

end TypeSchema

end DocumentProof
