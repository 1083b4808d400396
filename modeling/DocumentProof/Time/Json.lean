import DocumentProof.Json.Decode
import DocumentProof.Time.Timestamp

/-!
# Times in JSON

A timestamp is its text. A date given by a caller is a number of milliseconds or a text.
-/

namespace DocumentProof

namespace Timestamp

def toJson (t : Timestamp) : Json := .string t.toText

def ofJson : Json.Decoder Timestamp := fun x => do
  match ofText (← Json.decodeString x) with
  | .ok t => return t
  | .error e => .error (.rejected e.message)

end Timestamp

namespace DateInput

def toJson : DateInput → Json
  | milliseconds n _ _ => Json.ofInt n
  | text s => .string s

/-- The milliseconds that a number gives. -/
def ofNumber? : Number → Option DateInput
  | .whole n lower _ => if h : n < 0x8000000000000000 then some (milliseconds n lower h) else none
  | .double _ => none

def ofJson : Json.Decoder DateInput
  | .number n =>
    match ofNumber? n with
    | some d => .ok d
    | none => .error (.noVariant "DateInput")
  | .string s => .ok (text s)
  | _ => .error (.noVariant "DateInput")

end DateInput

end DocumentProof
