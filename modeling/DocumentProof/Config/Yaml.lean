import DocumentProof.Config.Json
import DocumentProof.Yaml.Value

/-!
# Configurations in YAML

The same fields as in JSON. A sequence is no record here, fields may be written once only, and plain
scalars count as texts, but not inside of a purpose.
-/

namespace DocumentProof

open Yaml (Node)

namespace Domain

def ofYaml? (x : Node) : Option Domain := do
  let es ← x.fields? memberNames
  return {
    name := ← Node.field? (Node.option? Node.text?) none "name" es
    version := ← Node.field? (Node.option? Node.text?) none "version" es
    chainId := ← Node.field? (Node.option? (Node.decode? chainIdOfJson)) none "chainId" es
    verifyingContract :=
      ← Node.field? (Node.option? (Node.decode? addressOfJson)) none "verifyingContract" es
    salt := ← Node.field? (Node.option? (Node.decode? wordOfJson)) none "salt" es }

end Domain

namespace PurposeChoice

/-- A member of a purpose, by its key. -/
inductive Key where
  | type
  | challenge
  | domain
  | other
deriving DecidableEq

/-- The member that a key names, by text or by number. -/
def keyOf? (x : Node) : Option Key := do
  match ← x.toJson? with
  | .string s =>
    return if s = "type" then .type else if s = "challenge" then .challenge
      else if s = "domain" then .domain else .other
  | .number n =>
    match n.toNat? with
    | some 0 => return .challenge
    | some 1 => return .domain
    | some _ => return .other
    | none => none
  | _ => none

def isType (x : Node) : Bool := x.toJson? == some (.string "type")

/-- A text that stands as one. -/
def plainText? (x : Node) : Option String := x.toJson?.bind Json.string?

/-- The value of a key that is given once at most. -/
def member? (key : Key) (es : List (Key × Node)) : Option (Option String) :=
  match es.filter (·.1 = key) with
  | [] => some none
  | [(_, x)] => x.option? plainText?
  | _ => none

def ofYaml? : Node → Option PurposeChoice
  | .mapping tag entries => do
    if Node.isLocal tag then none
    let (types, rest) := entries.partition fun e => isType e.1
    if Node.entriesHaveValue rest = false then none
    match types.map (·.2) with
    | [x] =>
      match ← x.text? with
      | "assertionMethod" => return assertion
      | "authentication" =>
        let es ← rest.mapM fun e => (keyOf? e.1).map (·, e.2)
        return authentication (← member? .challenge es) (← member? .domain es)
      | _ => none
    | _ => none
  | .sequence tag (x :: xs) => do
    if Node.isLocal tag ∨ Node.itemsHaveValue xs = false then none
    match ← x.text?, xs.map fun x => x.option? plainText? with
    | "assertionMethod", [] => return assertion
    | "authentication", [] => return authentication none none
    | "authentication", [some challenge] => return authentication challenge none
    | "authentication", [some challenge, some domain] => return authentication challenge domain
    | _, _ => none
  | _ => none

end PurposeChoice

namespace Config

def documentsOfYaml? (x : Node) : Option (KeyMap String) := do
  let es ← x.entries?
  return KeyMap.ofList (← es.mapM fun (uri, x) => x.text?.map (uri, ·))

def ofNode? (x : Node) : Option Config := do
  let es ← x.fields? fieldNames
  return {
    domain := ← Node.field? Domain.ofYaml? default.domain "domain" es
    embed := ← Node.field? Node.bool? default.embed "embed" es
    purpose := ← Node.field? PurposeChoice.ofYaml? default.purpose "purpose" es
    documents := ← Node.field? documentsOfYaml? default.documents "documents" es }

/-- The configuration of a text. -/
def ofYaml? (s : String) : Option Config := do ofNode? (← Node.read? s)

end Config

end DocumentProof
