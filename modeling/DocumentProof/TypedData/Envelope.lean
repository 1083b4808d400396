import DocumentProof.Json.Canonical
import DocumentProof.TypedData.Domain

/-!
# Typed data

What is signed: a domain, a schema, the name of a struct and a message of that struct. The hash
that a signer signs covers the domain and the struct's type and value. A struct of the reserved
name of domains never counts as part of the schema.
-/

namespace DocumentProof

/-- A message with its domain and its type. -/
structure TypedData where
  domain : Domain
  types : TypeSchema
  primaryType : String
  message : Json
deriving DecidableEq

/-- The hash that is signed, from the hashes of domain and message. -/
def signingHashOf (separator message : Word) : Word :=
  keccak256 (0x19 :: 0x01 :: Encode.concat [separator, message])

namespace TypedData

/-- Typed data with a schema that lacks the reserved name. -/
def make (domain : Domain) (types : TypeSchema) (primaryType : String) (message : Json) :
    TypedData :=
  ⟨domain, types.remove Domain.typeName, primaryType, message⟩

/-- The schema that the message is hashed with. -/
def messageTypes (t : TypedData) : TypeSchema := t.types.remove Domain.typeName

def structHash (t : TypedData) : Except CryptoError Word :=
  t.messageTypes.hashStruct t.primaryType t.message

def signingHash (t : TypedData) : Except CryptoError Word := do
  return signingHashOf t.domain.separator (← t.structHash)

/-! ### JSON form -/

def toJson (t : TypedData) : Json :=
  Json.ofMembers [("domain", t.domain.toJson), ("types", t.types.toJson),
    ("primaryType", .string t.primaryType), ("message", t.message)]

def canonical (t : TypedData) : Except CanonicalError String := t.toJson.canonical

def checkMember (key : String) (x : Json) : Except DecodeError Unit :=
  match key with
  | "domain" => Json.attempt Domain.ofJson x
  | "types" => Json.attempt TypeSchema.ofJson x
  | "primaryType" => Json.attempt Json.decodeString x
  | _ => .ok ()

def ofJson : Json.Decoder TypedData
  | .object ms => do
    Json.checkMembers checkMember ms
    return {
      domain := ← Json.optional Domain.ofJson Domain.empty "domain" ms
      types := ← Json.required TypeSchema.ofJson "types" ms
      primaryType := ← Json.required Json.decodeString "primaryType" ms
      message := ← Json.required .ok "message" ms }
  | .array xs => do
    let shape := Json.recordShape "TypedData" 4
    let domain ← Json.optionalAt Domain.ofJson Domain.empty 0 xs
    let types ← Json.requiredAt TypeSchema.ofJson shape 1 xs
    let primaryType ← Json.requiredAt Json.decodeString shape 2 xs
    let message ← Json.requiredAt .ok shape 3 xs
    Json.atMost 4 xs
    return ⟨domain, types, primaryType, message⟩
  | x => Json.unexpected "struct TypedData" x

end TypedData

end DocumentProof
