/-!
# Characters with their places

YAML text is read with an eye on columns, so every character carries its line and column. A zero
character stands at the end, and no text may hold one. Line breaks of every kind but the two of
Unicode's own count as a line feed.
-/

namespace DocumentProof

namespace Yaml

/-- A character at its place. -/
structure Mark where
  char : Char
  line : Nat
  column : Nat
deriving DecidableEq, Inhabited

/-! ### Classes -/

def isBreak (c : Char) : Bool := c == '\n' || c == '\u2028' || c == '\u2029'

def isSpace (c : Char) : Bool := c == ' ' || c == '\t'

/-- A break, or the end. -/
def isLineEnd (c : Char) : Bool := isBreak c || c == '\x00'

def isGap (c : Char) : Bool := isSpace c || isLineEnd c

/-- A character of names. -/
def isWord (c : Char) : Bool := c.isAlphanum || c == '_' || c == '-'

/-- A character that a text may hold. -/
def isAllowed (c : Char) : Bool :=
  let n := c.toNat
  c == '\t' || c == '\n' || c == '\x0d' || (0x20 ≤ n && n ≤ 0x7E) || n == 0x85
    || (0xA0 ≤ n && n ≤ 0xFFFD) || 0x10000 ≤ n

/-! ### Places -/

/-- The characters with each line break as one. -/
def plainBreaks : List Char → List Char
  | '\x0d' :: '\n' :: cs => '\n' :: plainBreaks cs
  | '\x0d' :: cs => '\n' :: plainBreaks cs
  | '\x85' :: cs => '\n' :: plainBreaks cs
  | c :: cs => c :: plainBreaks cs
  | [] => []

/-- The characters from a place on, and the end after them. -/
def placeFrom : Nat → Nat → List Char → List Mark
  | line, column, [] => [⟨'\x00', line, column⟩]
  | line, column, c :: cs =>
    ⟨c, line, column⟩ ::
      if isBreak c then placeFrom (line + 1) 0 cs else placeFrom line (column + 1) cs

/-- The placed characters of a text, if it may hold them all. -/
def marks? (s : String) : Option (List Mark) :=
  if s.toList.all isAllowed then some (placeFrom 0 0 (plainBreaks s.toList)) else none

/-! ### Looking ahead -/

/-- The character some places ahead. -/
def peek (ms : List Mark) (i : Nat) : Char := (ms[i]?.map (·.char)).getD '\x00'

/-- The place of the next character. -/
def place (ms : List Mark) : Mark := ms.headD ⟨'\x00', 0, 0⟩

def column (ms : List Mark) : Nat := (place ms).column

def chars (ms : List Mark) : List Char := ms.map (·.char)

def takeChars (p : Char → Bool) (ms : List Mark) : List Char := chars (ms.takeWhile fun m => p m.char)

def dropChars (p : Char → Bool) (ms : List Mark) : List Mark := ms.dropWhile fun m => p m.char

/-- Three dashes or three points at the start of a line, with a gap after them. -/
def isDivider (c : Char) (ms : List Mark) : Bool :=
  column ms == 0 && peek ms 0 == c && peek ms 1 == c && peek ms 2 == c && isGap (peek ms 3)

def isAnyDivider (ms : List Mark) : Bool := isDivider '-' ms || isDivider '.' ms

end Yaml

end DocumentProof
