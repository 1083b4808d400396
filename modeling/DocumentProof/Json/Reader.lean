import DocumentProof.Json.Basic

/-!
# Reading JSON text

`Json.read?` accepts the strict grammar: no comments, no trailing commas, no leading zeros, blanks
only between tokens, and at most 127 arrays and objects inside each other. A number without
fraction and exponent is an integer if one word holds it; every other number is the nearest
binary64 number, and one too large for that is refused. Surrogate escapes come in pairs. Of two
members with one key the later one stands.

A reader takes characters from the front and answers what it read together with the rest.
-/

namespace DocumentProof

namespace Json

/-- The result of a reader: a value and the characters after it. -/
abbrev Reading (α : Type) := Option (α × List Char)

/-! ### Blanks -/

def isBlank (c : Char) : Bool := c == ' ' || c == '\t' || c == '\n' || c == '\r'

def skipBlanks (cs : List Char) : List Char := cs.dropWhile isBlank

/-! ### Numbers -/

/-- The value of a run of decimal digits. -/
def digitsValue (ds : List Char) : Nat := ds.foldl (fun n d => 10 * n + (d.toNat - 48)) 0

/-- The digits at the front, at least one. -/
def readDigits (cs : List Char) : Reading (List Char) :=
  match cs.takeWhile Char.isDigit with
  | [] => none
  | d :: ds => some (d :: ds, cs.dropWhile Char.isDigit)

/-- The whole part of a number: a zero stands alone. -/
def readWhole (cs : List Char) : Reading (List Char) :=
  match readDigits cs with
  | some ('0' :: _ :: _, _) => none
  | r => r

/-- The digits after a point, if there is one. -/
def readFraction : List Char → Reading (Option (List Char))
  | '.' :: cs => (readDigits cs).map fun (ds, rest) => (some ds, rest)
  | cs => some (none, cs)

/-- The power of ten after an `e`, if there is one. -/
def readExponent : List Char → Reading (Option Int)
  | c :: cs =>
    if c == 'e' || c == 'E' then
      match cs with
      | '-' :: cs => (readDigits cs).map fun (ds, rest) => (some (-(digitsValue ds : Int)), rest)
      | '+' :: cs => (readDigits cs).map fun (ds, rest) => (some (digitsValue ds : Int), rest)
      | cs => (readDigits cs).map fun (ds, rest) => (some (digitsValue ds : Int), rest)
    else some (none, c :: cs)
  | [] => some (none, [])

/-- The number with these parts. Minus zero is a binary64 number. -/
def makeNumber (negative : Bool) (whole : List Char) (fraction : Option (List Char))
    (exponent : Option Int) : Option Number :=
  let double : Option Number :=
    let places := fraction.getD []
    (Binary64.ofDecimal? negative
      ⟨digitsValue (whole ++ places), exponent.getD 0 - places.length⟩).map .double
  if fraction.isSome || exponent.isSome then double
  else
    let n := digitsValue whole
    if negative then
      if n = 0 ∨ 0x8000000000000000 < n then double else Number.ofInt? (-n)
    else if n < 0x10000000000000000 then Number.ofInt? n
    else double

def readNumber (cs : List Char) : Reading Number :=
  let (negative, cs) := match cs with
    | '-' :: cs => (true, cs)
    | cs => (false, cs)
  match readWhole cs with
  | none => none
  | some (whole, cs) =>
    match readFraction cs with
    | none => none
    | some (fraction, cs) =>
      match readExponent cs with
      | none => none
      | some (exponent, cs) => (makeNumber negative whole fraction exponent).map (·, cs)

/-! ### Strings -/

def hexValue? (c : Char) : Option Nat :=
  if '0' ≤ c ∧ c ≤ '9' then some (c.toNat - 48)
  else if 'a' ≤ c ∧ c ≤ 'f' then some (c.toNat - 87)
  else if 'A' ≤ c ∧ c ≤ 'F' then some (c.toNat - 55)
  else none

/-- The value of four hexadecimal digits. -/
def hexUnit? (a b c d : Char) : Option Nat := do
  return (((← hexValue? a) * 16 + (← hexValue? b)) * 16 + (← hexValue? c)) * 16 + (← hexValue? d)

def isHighSurrogate (n : Nat) : Bool := 0xD800 ≤ n && n < 0xDC00

def isLowSurrogate (n : Nat) : Bool := 0xDC00 ≤ n && n < 0xE000

/-- The character of an escape of one letter. -/
def simpleEscape? : Char → Option Char
  | '"' => some '"'
  | '\\' => some '\\'
  | '/' => some '/'
  | 'b' => some '\x08'
  | 'f' => some '\x0c'
  | 'n' => some '\n'
  | 'r' => some '\r'
  | 't' => some '\t'
  | _ => none

/-- The characters up to the closing quote. A high surrogate waits in `high` for the low one, which
has to follow at once. -/
def readStringTail : Option Nat → List Char → Reading (List Char)
  | none, '"' :: cs => some ([], cs)
  | high, '\\' :: 'u' :: a :: b :: c :: d :: cs =>
    match hexUnit? a b c d, high with
    | none, _ => none
    | some unit, none =>
      if isHighSurrogate unit then readStringTail (some unit) cs
      else if isLowSurrogate unit then none
      else (readStringTail none cs).map fun (r, rest) => (Char.ofNat unit :: r, rest)
    | some unit, some high =>
      if isLowSurrogate unit then
        (readStringTail none cs).map fun (r, rest) =>
          (Char.ofNat (0x10000 + (high - 0xD800) * 0x400 + (unit - 0xDC00)) :: r, rest)
      else none
  | none, '\\' :: c :: cs =>
    match simpleEscape? c with
    | none => none
    | some x => (readStringTail none cs).map fun (r, rest) => (x :: r, rest)
  | none, c :: cs =>
    if c.toNat < 32 || c == '\\' then none
    else (readStringTail none cs).map fun (r, rest) => (c :: r, rest)
  | _, _ => none

/-- A string with its quotes. -/
def readString : List Char → Reading String
  | '"' :: cs => (readStringTail none cs).map fun (r, rest) => (String.ofList r, rest)
  | _ => none

/-! ### Values -/

/-- The items of an array up to the bracket that closes it, at most `n`. -/
def readItems (item : List Char → Reading Json) : Nat → List Char → Reading (List Json)
  | 0, _ => none
  | n + 1, cs =>
    match item (skipBlanks cs) with
    | none => none
    | some (x, cs) =>
      match skipBlanks cs with
      | ',' :: cs => (readItems item n cs).map fun (xs, rest) => (x :: xs, rest)
      | ']' :: cs => some ([x], cs)
      | _ => none

/-- The members of an object up to the brace that closes it, at most `n`, as they are written. -/
def readMembers (item : List Char → Reading Json) :
    Nat → List Char → Reading (List (String × Json))
  | 0, _ => none
  | n + 1, cs =>
    match readString (skipBlanks cs) with
    | none => none
    | some (key, cs) =>
      match skipBlanks cs with
      | ':' :: cs =>
        match item (skipBlanks cs) with
        | none => none
        | some (x, cs) =>
          match skipBlanks cs with
          | ',' :: cs => (readMembers item n cs).map fun (ms, rest) => ((key, x) :: ms, rest)
          | '}' :: cs => some ([(key, x)], cs)
          | _ => none
      | _ => none

/-- The rest of the characters after those of a word. -/
def dropWord? : List Char → List Char → Option (List Char)
  | [], cs => some cs
  | w :: ws, c :: cs => if w = c then dropWord? ws cs else none
  | _ :: _, [] => none

/-- A value at the front with at most `level` arrays and objects inside each other. -/
def readValue (level : Nat) (cs : List Char) : Reading Json :=
  match cs with
  | 'n' :: cs => (dropWord? "ull".toList cs).map fun rest => (null, rest)
  | 't' :: cs => (dropWord? "rue".toList cs).map fun rest => (bool true, rest)
  | 'f' :: cs => (dropWord? "alse".toList cs).map fun rest => (bool false, rest)
  | '"' :: cs => (readStringTail none cs).map fun (r, rest) => (string (String.ofList r), rest)
  | '[' :: cs =>
    match level with
    | 0 => none
    | level + 1 =>
      match skipBlanks cs with
      | ']' :: cs => some (array [], cs)
      | cs => (readItems (readValue level) (cs.length + 1) cs).map fun (xs, rest) =>
        (array xs, rest)
  | '{' :: cs =>
    match level with
    | 0 => none
    | level + 1 =>
      match skipBlanks cs with
      | '}' :: cs => some (object [], cs)
      | cs => (readMembers (readValue level) (cs.length + 1) cs).map fun (ms, rest) =>
        (ofMembers ms, rest)
  | cs => (readNumber cs).map fun (n, rest) => (number n, rest)

/-- The most arrays and objects that may lie inside each other. -/
def maxDepth : Nat := 127

/-- The value of a text that holds nothing else. -/
def readChars? (cs : List Char) : Option Json :=
  match readValue maxDepth (skipBlanks cs) with
  | some (x, rest) => if skipBlanks rest = [] then some x else none
  | none => none

def read? (s : String) : Option Json := readChars? s.toList

end Json

end DocumentProof
