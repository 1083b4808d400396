import DocumentProof.Json.Basic

/-!
# JSON text

`compact` writes a value without blanks, `pretty` with one member or item a line. Members are
written in the order of the value. A string escapes the quote, the backslash and the characters
below the blank, and nothing else.
-/

namespace DocumentProof

namespace Json

/-! ### Strings -/

def hexDigit (n : Nat) : Char := "0123456789abcdef".toList.getD n '0'

/-- One character of a string as it is written between quotes. -/
def escape (c : Char) : List Char :=
  match c with
  | '"' => ['\\', '"']
  | '\\' => ['\\', '\\']
  | '\n' => ['\\', 'n']
  | '\r' => ['\\', 'r']
  | '\t' => ['\\', 't']
  | _ =>
    if c.toNat = 8 then ['\\', 'b']
    else if c.toNat = 12 then ['\\', 'f']
    else if c.toNat < 32 then
      ['\\', 'u', '0', '0', hexDigit (c.toNat / 16), hexDigit (c.toNat % 16)]
    else [c]

def quoted (s : String) : List Char := '"' :: (s.toList.flatMap escape ++ ['"'])

end Json

/-! ### Numbers -/

/-- The text of a binary64 number: positional from `1e-5` up to `1e16`, otherwise with an exponent
that carries its sign. A whole number shows one zero after the point. -/
def Binary64.jsonText (x : Binary64) : List Char :=
  let d := x.shortest
  x.signed (if -5 ≤ d.leading ∧ d.leading < 16 then d.positional ['.', '0'] else d.scientific)

/-- The decimal digits of an integer, after a minus sign if it is negative. -/
def intText (n : Int) : List Char :=
  if n < 0 then '-' :: Nat.toDigits 10 n.natAbs else Nat.toDigits 10 n.natAbs

def Number.text : Number → List Char
  | .whole n _ _ => intText n
  | .double x => x.jsonText

namespace Json

/-! ### Values without blanks -/

mutual

def compactChars : Json → List Char
  | null => "null".toList
  | bool true => "true".toList
  | bool false => "false".toList
  | number n => n.text
  | string s => quoted s
  | array xs => '[' :: (compactItems true xs ++ [']'])
  | object ms => '{' :: (compactMembers true ms ++ ['}'])

/-- Items, each but the first after a comma. -/
def compactItems (first : Bool) : List Json → List Char
  | [] => []
  | x :: xs => (if first then [] else [',']) ++ (x.compactChars ++ compactItems false xs)

def compactMembers (first : Bool) : List (String × Json) → List Char
  | [] => []
  | (k, x) :: ms =>
    (if first then [] else [',']) ++ (quoted k ++ ':' :: (x.compactChars ++ compactMembers false ms))

end

def compact (x : Json) : String := String.ofList x.compactChars

/-! ### Values on several lines -/

/-- The end of a line and the blanks that open the next one, two a level. -/
def newline (level : Nat) : List Char := '\n' :: List.replicate (2 * level) ' '

mutual

def prettyChars (level : Nat) : Json → List Char
  | array [] => ['[', ']']
  | array (x :: xs) =>
    '[' :: (newline (level + 1) ++ x.prettyChars (level + 1) ++ prettyItems (level + 1) xs
      ++ newline level ++ [']'])
  | object [] => ['{', '}']
  | object ((k, x) :: ms) =>
    '{' :: (newline (level + 1) ++ quoted k ++ [':', ' '] ++ x.prettyChars (level + 1)
      ++ prettyMembers (level + 1) ms ++ newline level ++ ['}'])
  | null => "null".toList
  | bool true => "true".toList
  | bool false => "false".toList
  | number n => n.text
  | string s => quoted s

def prettyItems (level : Nat) : List Json → List Char
  | [] => []
  | x :: xs => ',' :: (newline level ++ x.prettyChars level ++ prettyItems level xs)

def prettyMembers (level : Nat) : List (String × Json) → List Char
  | [] => []
  | (k, x) :: ms =>
    ',' :: (newline level ++ quoted k ++ [':', ' '] ++ x.prettyChars level
      ++ prettyMembers level ms)

end

def pretty (x : Json) : String := String.ofList (x.prettyChars 0)

end Json

end DocumentProof
