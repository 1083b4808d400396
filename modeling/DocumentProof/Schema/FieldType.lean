import DocumentProof.Text.Blank
import DocumentProof.Text.Quoted

/-!
# Types of fields

The grammar of member types: the atomic types, names of structs, and arrays written with brackets
after the type of the items. `toText` writes a type and `ofText` reads one. The reader also takes
widths and lengths with leading zeros, and lengths with a plus sign. Digits after `uint`, `int` or
`bytes` whose value does not fit 32 bits make the whole text the name of a struct.
-/

namespace DocumentProof

/-- The type of a field. A width is given by its number of bytes less one. -/
inductive FieldType where
  | bool
  | string
  | bytes
  | address
  | uint (w : Fin 32)
  | int (w : Fin 32)
  | fixedBytes (w : Fin 32)
  | array (item : FieldType) (length : Option UInt64)
  | struct (name : String)
deriving DecidableEq

/-- The kinds of single values that a document can hold. -/
inductive Primitive where
  | string
  | uint256
  | bool
deriving DecidableEq

namespace FieldType

def ofPrimitive : Primitive → FieldType
  | .string => string
  | .uint256 => uint 31
  | .bool => bool

/-- An array of any length. -/
def arrayOf (p : Primitive) : FieldType := array (ofPrimitive p) none

/-- The number of bytes of a width. -/
def byteCount (w : Fin 32) : Nat := w.val + 1

/-- The number of bits of a width. -/
def bitCount (w : Fin 32) : Nat := 8 * byteCount w

/-- The struct that a type refers to, itself or as the items of an array. -/
def structName? : FieldType → Option String
  | struct name => some name
  | array item _ => item.structName?
  | _ => none

/-! ### Writing -/

def toChars : FieldType → List Char
  | bool => "bool".toList
  | string => "string".toList
  | bytes => "bytes".toList
  | address => "address".toList
  | uint w => "uint".toList ++ Nat.toDigits 10 (bitCount w)
  | int w => "int".toList ++ Nat.toDigits 10 (bitCount w)
  | fixedBytes w => "bytes".toList ++ Nat.toDigits 10 (byteCount w)
  | array item none => item.toChars ++ ['[', ']']
  | array item (some n) => item.toChars ++ '[' :: (Nat.toDigits 10 n.toNat ++ [']'])
  | struct name => name.toList

def toText (t : FieldType) : String := String.ofList t.toChars

/-! ### Reading -/

def digitsValue (ds : List Char) : Nat := ds.foldl (fun n d => 10 * n + (d.toNat - 48)) 0

/-- The value of decimal digits, at least one, if it is below `limit`. -/
def decimal? (limit : Nat) (ds : List Char) : Option Nat :=
  if ds ≠ [] ∧ ds.all Char.isDigit ∧ digitsValue ds < limit then some (digitsValue ds) else none

/-- The text between the brackets of an array type. -/
def length? : List Char → Option (Option UInt64)
  | [] => some none
  | '+' :: ds => (decimal? 0x10000000000000000 ds).map fun n => some (UInt64.ofNat n)
  | ds => (decimal? 0x10000000000000000 ds).map fun n => some (UInt64.ofNat n)

/-- Takes bracketed lengths off a text that is given backwards, the outermost first. Inside a pair
of brackets its characters so far are at hand. -/
def peel : Option (List Char) → List Char → Option (List (Option UInt64) × List Char)
  | none, ']' :: cs => peel (some []) cs
  | none, cs => some ([], cs)
  | some inside, '[' :: cs => do
    let n ← length? inside
    let (ns, base) ← peel none cs
    return (n :: ns, base)
  | some inside, c :: cs => peel (some (c :: inside)) cs
  | some _, [] => none

/-- The number after a word: digits only, with a value of at most 32 bits. -/
def numberAfter? (word : String) (cs : List Char) : Option Nat :=
  if word.toList.isPrefixOf cs then decimal? 0x100000000 (cs.drop word.length) else none

/-- The width of so many units of `step`. -/
def width? (step n : Nat) : Option (Fin 32) :=
  if h : n % step = 0 ∧ 0 < n / step ∧ n / step ≤ 32 then some ⟨n / step - 1, by omega⟩ else none

/-- A character that no name of a struct has. -/
def isDelimiter (c : Char) : Bool :=
  c == '[' || c == ']' || c == '(' || c == ')' || c == ','

/-- A type without brackets. -/
def ofBase? (cs : List Char) : Option FieldType :=
  if cs = "bool".toList then some bool
  else if cs = "string".toList then some string
  else if cs = "bytes".toList then some bytes
  else if cs = "address".toList then some address
  else
    match numberAfter? "uint" cs with
    | some n => (width? 8 n).map uint
    | none =>
      match numberAfter? "int" cs with
      | some n => (width? 8 n).map int
      | none =>
        match numberAfter? "bytes" cs with
        | some n => (width? 1 n).map fixedBytes
        | none =>
          if cs = [] ∨ cs.any fun c => isDelimiter c || Text.isBlank c then none
          else some (struct (String.ofList cs))

def ofChars? (cs : List Char) : Option FieldType := do
  let (lengths, base) ← peel none cs.reverse
  let item ← ofBase? base.reverse
  return lengths.foldr (fun n t => array t n) item

def ofText? (s : String) : Option FieldType := ofChars? s.toList

end FieldType

end DocumentProof
