import DocumentProof.Bytes.Basic
import DocumentProof.Json.Writer

/-!
# The canonical text of a value

Two values have the same canonical text when they have the same content, whatever order their
members came in. The text has no blanks, and the members of an object stand by increasing written
key, that is, by the key with its quotes and escapes. So `a!` stands before `a`, because the mark
sorts before the closing quote. Numbers that are not integers have no canonical text.
-/

namespace DocumentProof

/-- Why a value has no canonical text. -/
inductive CanonicalError where
  | float (x : Binary64)
deriving DecidableEq

def CanonicalError.message : CanonicalError → String
  | .float x => "float values are not permitted in canonical representations; use string or integer: "
      ++ x.plainText

namespace Json

/-! ### Numbers that are not integers -/

mutual

/-- The first binary64 number on a walk through items and members in their order. -/
def firstDouble? : Json → Option Binary64
  | number (.double x) => some x
  | array xs => firstDoubleItems? xs
  | object ms => firstDoubleMembers? ms
  | _ => none

def firstDoubleItems? : List Json → Option Binary64
  | [] => none
  | x :: xs => x.firstDouble?.or (firstDoubleItems? xs)

def firstDoubleMembers? : List (String × Json) → Option Binary64
  | [] => none
  | (_, x) :: ms => x.firstDouble?.or (firstDoubleMembers? ms)

end

/-! ### Members by written key -/

/-- Puts a member before the first one with a larger written key. -/
def insertByWrittenKey (m : String × Json) : List (String × Json) → List (String × Json)
  | [] => [m]
  | n :: ns => if quoted m.1 < quoted n.1 then m :: n :: ns else n :: insertByWrittenKey m ns

mutual

/-- The value with the members of every object by increasing written key. -/
def byWrittenKey : Json → Json
  | array xs => array (byWrittenKeyItems xs)
  | object ms => object (byWrittenKeyMembers ms)
  | x => x

def byWrittenKeyItems : List Json → List Json
  | [] => []
  | x :: xs => x.byWrittenKey :: byWrittenKeyItems xs

def byWrittenKeyMembers : List (String × Json) → List (String × Json)
  | [] => []
  | (k, x) :: ms => insertByWrittenKey (k, x.byWrittenKey) (byWrittenKeyMembers ms)

end

/-! ### The text -/

def canonical (x : Json) : Except CanonicalError String :=
  match x.firstDouble? with
  | some d => .error (.float d)
  | none => .ok x.byWrittenKey.compact

/-- The canonical text of a value without one of its members. A value that is no object keeps its
content. -/
def canonicalWithout (key : String) : Json → Except CanonicalError String
  | object ms => canonical (object (Keyed.remove key ms))
  | x => canonical x

end Json

end DocumentProof
