import DocumentProof.Json.Writer
import DocumentProof.Text.Quoted

/-!
# Decoding typed values

A decoder takes a JSON value to a typed one or to the reason why it is none. A record is given by
the members of an object, or by an array of its fields in their order. The members of an object are
tried by increasing key, so the first fault in that order is the one that is reported; fields that
are absent are reported after all faults of those present.
-/

namespace DocumentProof

/-- Why a JSON value is no value of some type. -/
inductive DecodeError where
  | invalidType (found expected : String)
  | invalidValue (found expected : String)
  | invalidLength (n : Nat) (expected : String)
  | missingField (name : String)
  | unknownField (name : String) (known : List String)
  | unknownVariant (name : String) (known : List String)
  | noVariant (name : String)
  | rejected (message : String)
deriving DecidableEq

namespace DecodeError

def marked (name : String) : String := "`" ++ name ++ "`"

/-- The names that would have been accepted. -/
def oneOf : List String → String
  | [] => "there are no fields"
  | [a] => marked a
  | [a, b] => marked a ++ " or " ++ marked b
  | names => "one of " ++ String.intercalate ", " (names.map marked)

def message : DecodeError → String
  | invalidType found expected => "invalid type: " ++ found ++ ", expected " ++ expected
  | invalidValue found expected => "invalid value: " ++ found ++ ", expected " ++ expected
  | invalidLength n expected => "invalid length " ++ toString n ++ ", expected " ++ expected
  | missingField name => "missing field " ++ marked name
  | unknownField name known => "unknown field " ++ marked name ++ ", expected " ++ oneOf known
  | unknownVariant name known => "unknown variant " ++ marked name ++ ", expected " ++ oneOf known
  | noVariant name => "data did not match any variant of untagged enum " ++ name
  | rejected message => message

end DecodeError

namespace Json

abbrev Decoder (α : Type) := Json → Except DecodeError α

/-- What a value is, as messages name it. -/
def describe : Json → String
  | null => "null"
  | bool true => "boolean `true`"
  | bool false => "boolean `false`"
  | number (.whole n _ _) => "integer `" ++ toString n ++ "`"
  | number (.double x) => "floating point `" ++ String.ofList x.jsonText ++ "`"
  | string s => "string " ++ Text.quoted s
  | array _ => "sequence"
  | object _ => "map"

def unexpected {α : Type} (expected : String) (x : Json) : Except DecodeError α :=
  .error (.invalidType x.describe expected)

/-! ### Plain values -/

def decodeString : Decoder String
  | string s => .ok s
  | x => unexpected "a string" x

def decodeBool : Decoder Bool
  | bool b => .ok b
  | x => unexpected "a boolean" x

/-- Null for an absent value. -/
def decodeOption {α : Type} (item : Decoder α) : Decoder (Option α)
  | null => .ok none
  | x => (item x).map some

def decodeList {α : Type} (item : Decoder α) : Decoder (List α)
  | array xs => xs.mapM item
  | x => unexpected "a sequence" x

/-- An object as a map. -/
def decodeMap {α : Type} (item : Decoder α) : Decoder (KeyMap α)
  | object ms => do return KeyMap.ofList (← ms.mapM fun (k, x) => do return (k, ← item x))
  | x => unexpected "a map" x

/-! ### Records -/

/-- Tries every member where it stands. -/
def checkMembers (check : String → Json → Except DecodeError Unit) :
    List (String × Json) → Except DecodeError Unit
  | [] => .ok ()
  | (k, x) :: ms => do
    check k x
    checkMembers check ms

/-- A decoder used for its faults only. -/
def attempt {α : Type} (item : Decoder α) (x : Json) : Except DecodeError Unit :=
  (item x).map fun _ => ()

/-- The value of a field that has to be there. -/
def required {α : Type} (item : Decoder α) (name : String) (ms : List (String × Json)) :
    Except DecodeError α :=
  match Keyed.get? ms name with
  | some x => item x
  | none => .error (.missingField name)

/-- The value of a field that may be absent. -/
def optional {α : Type} (item : Decoder α) (default : α) (name : String)
    (ms : List (String × Json)) : Except DecodeError α :=
  match Keyed.get? ms name with
  | some x => item x
  | none => .ok default

/-- The number of fields of a record, as messages tell it. -/
def recordShape (name : String) : Nat → String
  | 1 => "struct " ++ name ++ " with 1 element"
  | n => "struct " ++ name ++ " with " ++ toString n ++ " elements"

/-- The value of the field at a position that has to be there. -/
def requiredAt {α : Type} (item : Decoder α) (shape : String) (i : Nat) (xs : List Json) :
    Except DecodeError α :=
  match xs[i]? with
  | some x => item x
  | none => .error (.invalidLength i shape)

def optionalAt {α : Type} (item : Decoder α) (default : α) (i : Nat) (xs : List Json) :
    Except DecodeError α :=
  match xs[i]? with
  | some x => item x
  | none => .ok default

/-- No item is left after the fields. -/
def atMost (n : Nat) (xs : List Json) : Except DecodeError Unit :=
  if xs.length ≤ n then .ok () else .error (.invalidLength xs.length "fewer elements in array")

end Json

end DocumentProof
