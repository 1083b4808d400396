import DocumentProof.TypedData.Envelope

/-!
# Proofs

A proof stands beside the document that it is about. It names the signer and the purpose, carries
the signature, and may embed what is needed to check it: domain, schema and name of the struct. The
schema may be given by reference. Members that are not known are kept.
-/

namespace DocumentProof

/-- A schema, or the URI that it is found under. -/
inductive SchemaSource where
  | inline (types : TypeSchema)
  | remote (uri : String)
deriving DecidableEq

/-- The identifier of a verification method, or an object that carries it. -/
inductive VerificationMethod where
  | named (id : String)
  | described (id : Option String) (other : KeyMap Json)
deriving DecidableEq

/-- What a signature was made with. -/
structure EmbeddedDomain where
  domain : Domain
  schema : SchemaSource
  primaryType : String
deriving DecidableEq

/-- A proof of a document. -/
structure Proof where
  type : String
  created : Option String
  method : Option VerificationMethod
  purpose : Option String
  value : Option String
  embedded : Option EmbeddedDomain
  extra : KeyMap Json
deriving DecidableEq

/-! ### Sources of schemas -/

namespace SchemaSource

def toJson : SchemaSource → Json
  | inline types => types.toJson
  | remote uri => .string uri

def ofJson : Json.Decoder SchemaSource := fun x =>
  match TypeSchema.ofJson x, x with
  | .ok types, _ => .ok (inline types)
  | .error _, .string uri => .ok (remote uri)
  | .error _, _ => .error (.noVariant "SchemaSource")

end SchemaSource

/-! ### Verification methods -/

namespace VerificationMethod

def id? : VerificationMethod → Option String
  | named id => some id
  | described id _ => id

def toJson : VerificationMethod → Json
  | named id => .string id
  | described id other =>
    Json.ofMembers ((id.map fun s => ("id", Json.string s)).toList ++ other.entries)

def ofJson : Json.Decoder VerificationMethod
  | .string s => .ok (named s)
  | .object ms =>
    match Json.optional (Json.decodeOption Json.decodeString) none "id" ms with
    | .ok id => .ok (described id (KeyMap.ofList (Keyed.remove "id" ms)))
    | .error _ => .error (.noVariant "VerificationMethod")
  | _ => .error (.noVariant "VerificationMethod")

end VerificationMethod

/-! ### Embedded domains -/

namespace EmbeddedDomain

def toJson (e : EmbeddedDomain) : Json :=
  Json.ofMembers [("domain", e.domain.toJson), ("messageSchema", e.schema.toJson),
    ("primaryType", .string e.primaryType)]

def checkMember (key : String) (x : Json) : Except DecodeError Unit :=
  match key with
  | "domain" => Json.attempt Domain.ofJson x
  | "messageSchema" => Json.attempt SchemaSource.ofJson x
  | "primaryType" => Json.attempt Json.decodeString x
  | _ => .ok ()

def ofJson : Json.Decoder EmbeddedDomain
  | .object ms => do
    Json.checkMembers checkMember ms
    return {
      domain := ← Json.required Domain.ofJson "domain" ms
      schema := ← Json.required SchemaSource.ofJson "messageSchema" ms
      primaryType := ← Json.required Json.decodeString "primaryType" ms }
  | .array xs => do
    let shape := Json.recordShape "EmbeddedDomain" 3
    let domain ← Json.requiredAt Domain.ofJson shape 0 xs
    let schema ← Json.requiredAt SchemaSource.ofJson shape 1 xs
    let primaryType ← Json.requiredAt Json.decodeString shape 2 xs
    Json.atMost 3 xs
    return ⟨domain, schema, primaryType⟩
  | x => Json.unexpected "struct EmbeddedDomain" x

end EmbeddedDomain

/-! ### Proofs -/

namespace Proof

/-- The one type of proof that is made and accepted. -/
def suiteType : String := "EthereumEip712Signature2021"

/-- The member that holds the signature. -/
def valueKey : String := "proofValue"

def ofType (type : String) : Proof := ⟨type, none, none, none, none, none, KeyMap.empty⟩

/-- The identifier of the verification method, in either form. -/
def methodId? (p : Proof) : Option String := p.method.bind VerificationMethod.id?

def withoutValue (p : Proof) : Proof := { p with value := none }

def withoutContext (p : Proof) : Proof := { p with embedded := none }

/-- The members with a meaning of their own. -/
def knownKeys : List String :=
  ["type", "created", "verificationMethod", "proofPurpose", "proofValue", "eip712Domain"]

/-- The known members that are present. -/
def knownMembers (p : Proof) : List (String × Json) :=
  [some ("type", .string p.type), p.created.map fun s => ("created", .string s),
    p.method.map fun m => ("verificationMethod", m.toJson),
    p.purpose.map fun s => ("proofPurpose", .string s),
    p.value.map fun s => (valueKey, .string s),
    p.embedded.map fun e => ("eip712Domain", e.toJson)].filterMap id

def toJson (p : Proof) : Json := Json.ofMembers (p.knownMembers ++ p.extra.entries)

def checkMember (key : String) (x : Json) : Except DecodeError Unit :=
  match key with
  | "type" => Json.attempt Json.decodeString x
  | "created" | "proofPurpose" | "proofValue" =>
    Json.attempt (Json.decodeOption Json.decodeString) x
  | "verificationMethod" => Json.attempt (Json.decodeOption VerificationMethod.ofJson) x
  | "eip712Domain" => Json.attempt (Json.decodeOption EmbeddedDomain.ofJson) x
  | _ => .ok ()

def ofJson : Json.Decoder Proof
  | .object ms => do
    Json.checkMembers checkMember ms
    return {
      type := ← Json.required Json.decodeString "type" ms
      created := ← Json.optional (Json.decodeOption Json.decodeString) none "created" ms
      method :=
        ← Json.optional (Json.decodeOption VerificationMethod.ofJson) none "verificationMethod" ms
      purpose := ← Json.optional (Json.decodeOption Json.decodeString) none "proofPurpose" ms
      value := ← Json.optional (Json.decodeOption Json.decodeString) none valueKey ms
      embedded := ← Json.optional (Json.decodeOption EmbeddedDomain.ofJson) none "eip712Domain" ms
      extra := KeyMap.ofList (ms.filter fun m => !knownKeys.contains m.1) }
  | x => Json.unexpected "struct Proof" x

end Proof

end DocumentProof
