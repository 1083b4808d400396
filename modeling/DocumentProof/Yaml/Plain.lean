import DocumentProof.Json.Basic
import DocumentProof.Json.Reader

/-!
# Plain scalars

What a plain scalar stands for: nothing, a truth value, an integer, a binary64 number, or its own
text. Digits after a leading zero are text.
-/

namespace DocumentProof

namespace Yaml

/-- The value of a plain scalar. An integer may be too large for a number of JSON, and a number may
be infinite or none at all. -/
inductive Plain where
  | null
  | bool (b : Bool)
  | integer (n : Int)
  | number (x : Binary64)
  | notFinite
  | text
deriving DecidableEq

namespace Plain

def isNull (s : String) : Bool := s == "null" || s == "Null" || s == "NULL" || s == "~"

def bool? (s : String) : Option Bool :=
  if s = "true" ∨ s = "True" ∨ s = "TRUE" then some true
  else if s = "false" ∨ s = "False" ∨ s = "FALSE" then some false
  else none

/-! ### Integers -/

/-- The value of digits, at least one. -/
def digits? (radix : Nat) (ds : List Char) : Option Nat :=
  if ds = [] then none
  else ds.foldlM (fun n d => (Json.hexValue? d).bind fun v =>
    if v < radix then some (radix * n + v) else none) 0

/-- The radix that a number begins with, and its digits. -/
def radixDigits : List Char → Nat × List Char
  | '0' :: 'x' :: ds => (16, ds)
  | '0' :: 'o' :: ds => (8, ds)
  | '0' :: 'b' :: ds => (2, ds)
  | ds => (10, ds)

/-- More than one digit, the first a zero. -/
def isPadded (ds : List Char) : Bool :=
  match ds with
  | '0' :: d :: ds => (d :: ds).all Char.isDigit
  | _ => false

/-- The characters without a sign in front. -/
def unsigned : List Char → List Char
  | '-' :: cs | '+' :: cs => cs
  | cs => cs

/-- An integer of at most 128 bits. -/
def integer? (cs : List Char) : Option Int := do
  let (radix, ds) := radixDigits (unsigned cs)
  let n ← digits? radix ds
  if isPadded (unsigned cs) then none
  else if cs.head? = some '-' then if n ≤ Nat.pow 2 127 then return -n else none
  else if n < Nat.pow 2 128 then return n else none

/-! ### Other numbers -/

def digitRun (cs : List Char) : List Char × List Char :=
  (cs.takeWhile Char.isDigit, cs.dropWhile Char.isDigit)

/-- The power of ten at the end of a number. -/
def exponent? : List Char → Option Int
  | [] => some 0
  | c :: cs =>
    if c = 'e' ∨ c = 'E' then
      let ds := unsigned cs
      if ds ≠ [] ∧ ds.all Char.isDigit then
        some (if cs.head? = some '-' then -(Json.digitsValue ds : Int) else Json.digitsValue ds)
      else none
    else none

/-- Digits with a point among them or at one end, and a power of ten. -/
def decimal? (cs : List Char) : Option Decimal := do
  let (whole, rest) := digitRun cs
  let (places, rest) := match rest with
    | '.' :: rest => digitRun rest
    | rest => ([], rest)
  if whole = [] ∧ places = [] then none
  else return ⟨Json.digitsValue (whole ++ places), (← exponent? rest) - places.length⟩

def isInfinite (cs : List Char) : Bool :=
  let s := String.ofList (unsigned cs)
  s == ".inf" || s == ".Inf" || s == ".INF"

def isNoNumber (s : String) : Bool := s == ".nan" || s == ".NaN" || s == ".NAN"

/-! ### All of them -/

def ofText (s : String) : Plain :=
  let cs := s.toList
  if s = "" ∨ isNull s then null
  else
    match bool? s, integer? cs with
    | some b, _ => bool b
    | none, some n => integer n
    | none, none =>
      if isPadded (unsigned cs) then text
      else if isInfinite cs ∨ isNoNumber s then notFinite
      else
        match (decimal? (unsigned cs)).bind (Binary64.ofDecimal? (cs.head? = some '-')) with
        | some x => number x
        | none => text

/-- The value in JSON. A number that is not finite is null. -/
def toJson? (s : String) : Plain → Option Json
  | null | notFinite => some .null
  | bool b => some (.bool b)
  | integer n => (Number.ofInt? n).map .number
  | number x => some (.number (.double x))
  | text => some (.string s)

end Plain

end Yaml

end DocumentProof
