import DocumentProof.Json.Decode
import DocumentProof.Text.Blank

/-!
# Identifiers of signers

A verification method is named by a text without blanks: a DID URL, an account with a fragment, or
an account alone. Two identifiers name the same signer when their last segments, without fragment
and query, agree up to the case of ASCII letters.
-/

namespace DocumentProof

/-- The identifier of a verification method. -/
structure MethodId where
  text : String
  valid : text ≠ "" ∧ ∀ c ∈ text.toList, Text.isBlank c = false
deriving DecidableEq

/-- A text that is no identifier. -/
structure InvalidMethodId where
  text : String
deriving DecidableEq

def InvalidMethodId.message (e : InvalidMethodId) : String :=
  "invalid verification method: " ++ Text.quoted e.text

namespace MethodId

/-- A text that is not empty and has no blanks. -/
def isValid (s : String) : Bool := s != "" && s.toList.all fun c => !Text.isBlank c

theorem isValid_iff (s : String) :
    isValid s = true ↔ s ≠ "" ∧ ∀ c ∈ s.toList, Text.isBlank c = false := by
  simp [isValid]

def ofText (s : String) : Except InvalidMethodId MethodId :=
  if h : isValid s = true then .ok ⟨s, (isValid_iff s).1 h⟩ else .error ⟨s⟩

def ofJson : Json.Decoder MethodId := fun x => do
  match ofText (← Json.decodeString x) with
  | .ok id => return id
  | .error e => .error (.rejected e.message)

/-- The characters before the first `mark`; all of them if there is none. -/
def before (mark : Char) (cs : List Char) : List Char := cs.takeWhile (· ≠ mark)

/-- The characters after the last `mark`; all of them if there is none. -/
def afterLast (mark : Char) (cs : List Char) : List Char :=
  (cs.reverse.takeWhile (· ≠ mark)).reverse

def withoutFragmentChars (id : MethodId) : List Char := before '#' id.text.toList

def withoutFragment (id : MethodId) : String := String.ofList id.withoutFragmentChars

/-- The last segment of a DID, or the whole of another identifier, without fragment and query. -/
def bareChars (cs : List Char) : List Char :=
  let base := before '?' (before '#' cs)
  if "did:".toList.isPrefixOf base then afterLast ':' base else base

/-- The part of an identifier that names the account. -/
def bareAddress (id : MethodId) : String := String.ofList (bareChars id.text.toList)

end MethodId

/-- Two accounts agree up to the case of ASCII letters. No account agrees with the empty text. -/
def accountsMatch (a b : String) : Bool :=
  a.toList ≠ [] && a.toList.map Char.toLower == b.toList.map Char.toLower

end DocumentProof
