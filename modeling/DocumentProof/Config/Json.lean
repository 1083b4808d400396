import DocumentProof.Config.Basic

/-!
# Configurations in JSON

A purpose is an object with its name as the member `type`, or an array that begins with the name.
-/

namespace DocumentProof

namespace PurposeChoice

def toJson : PurposeChoice → Json
  | assertion => Json.ofMembers [("type", .string StandardPurpose.assertion.term)]
  | authentication challenge domain =>
    let orNull (s : Option String) : Json := (s.map Json.string).getD .null
    Json.ofMembers [("type", .string "authentication"), ("challenge", orNull challenge),
      ("domain", orNull domain)]

/-- The purposes by name. -/
def names : List String := ["assertionMethod", "authentication"]

/-- A choice by its name, from the choices for each. -/
def ofName (name : String) (assertion authentication : Except DecodeError PurposeChoice) :
    Except DecodeError PurposeChoice :=
  if name = "assertionMethod" then assertion
  else if name = "authentication" then authentication
  else .error (.unknownVariant name names)

def nameOfJson : Json.Decoder String
  | .string s => if names.contains s then .ok s else .error (.unknownVariant s names)
  | x => Json.unexpected "variant identifier" x

def textOfJson : Json.Decoder (Option String) := Json.decodeOption Json.decodeString

def checkMember (key : String) (x : Json) : Except DecodeError Unit :=
  match key with
  | "challenge" | "domain" => Json.attempt textOfJson x
  | _ => .ok ()

/-- The choice by name and further members. -/
def ofMembers (name : String) (ms : List (String × Json)) : Except DecodeError PurposeChoice :=
  ofName name (.ok assertion) do
    Json.checkMembers checkMember ms
    return authentication (← Json.optional textOfJson none "challenge" ms)
      (← Json.optional textOfJson none "domain" ms)

/-- No item is left after those of a choice. -/
def atMost (n : Nat) (xs : List Json) : Except DecodeError Unit :=
  if xs.length ≤ n then .ok ()
  else .error (.invalidLength xs.length
    (toString n ++ (if n = 1 then " element" else " elements") ++ " in sequence"))

/-- The choice by name and further items. -/
def ofItems (name : String) (xs : List Json) : Except DecodeError PurposeChoice :=
  ofName name
    (do
      atMost 0 xs
      return assertion)
    (do
      let challenge ← Json.optionalAt textOfJson none 0 xs
      let domain ← Json.optionalAt textOfJson none 1 xs
      atMost 2 xs
      return authentication challenge domain)

def ofJson : Json.Decoder PurposeChoice
  | .object ms => do
    let name ← Json.required nameOfJson "type" ms
    ofMembers name ms
  | .array (x :: xs) => do
    let name ← nameOfJson x
    ofItems name xs
  | .array [] => .error (.missingField "type")
  | x => Json.unexpected "internally tagged enum PurposeConfig" x

end PurposeChoice

namespace Config

def fieldNames : List String := ["domain", "embed", "purpose", "documents"]

def pathOfJson : Json.Decoder String
  | .string s => .ok s
  | x => Json.unexpected "path string" x

def documentsOfJson : Json.Decoder (KeyMap String) := Json.decodeMap pathOfJson

def toJson (c : Config) : Json :=
  Json.ofMembers [("domain", c.domain.toJson), ("embed", .bool c.embed),
    ("purpose", c.purpose.toJson),
    ("documents", Json.ofMembers (c.documents.entries.map fun e => (e.1, .string e.2)))]

def checkMember (key : String) (x : Json) : Except DecodeError Unit :=
  match key with
  | "domain" => Json.attempt Domain.ofJson x
  | "embed" => Json.attempt Json.decodeBool x
  | "purpose" => Json.attempt PurposeChoice.ofJson x
  | "documents" => Json.attempt documentsOfJson x
  | key => .error (.unknownField key fieldNames)

def ofJson : Json.Decoder Config
  | .object ms => do
    Json.checkMembers checkMember ms
    return {
      domain := ← Json.optional Domain.ofJson default.domain "domain" ms
      embed := ← Json.optional Json.decodeBool default.embed "embed" ms
      purpose := ← Json.optional PurposeChoice.ofJson default.purpose "purpose" ms
      documents := ← Json.optional documentsOfJson default.documents "documents" ms }
  | .array xs => do
    let domain ← Json.optionalAt Domain.ofJson default.domain 0 xs
    let embed ← Json.optionalAt Json.decodeBool default.embed 1 xs
    let purpose ← Json.optionalAt PurposeChoice.ofJson default.purpose 2 xs
    let documents ← Json.optionalAt documentsOfJson default.documents 3 xs
    Json.atMost 4 xs
    return ⟨domain, embed, purpose, documents⟩
  | x => Json.unexpected "struct SuiteConfig" x

end Config

end DocumentProof
