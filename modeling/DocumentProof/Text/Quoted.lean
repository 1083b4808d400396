import DocumentProof.Text.Printable

/-!
# Quoted texts in messages

A text in a message stands between quotes. The quote, the backslash and the usual controls have
short escapes; other characters that would not be seen, and marks that would join the character
before them, are written by their number in braces. A single character stands between apostrophes.
-/

namespace DocumentProof

namespace Text

/-- The number of a character, in braces. -/
def numberEscape (c : Char) : List Char :=
  '\\' :: 'u' :: '\x7b' :: (Nat.toDigits 16 c.toNat ++ ['\x7d'])

/-- One character inside `mark … mark`. -/
def escapeInside (mark : Char) (c : Char) : List Char :=
  if c = '\x00' then ['\\', '0']
  else if c = '\t' then ['\\', 't']
  else if c = '\n' then ['\\', 'n']
  else if c = '\r' then ['\\', 'r']
  else if c = '\\' then ['\\', '\\']
  else if c = mark then ['\\', mark]
  else if isExtending c || isHidden c then numberEscape c
  else [c]

/-- A text between quotes. -/
def quoted (s : String) : String :=
  String.ofList ('"' :: (s.toList.flatMap (escapeInside '"') ++ ['"']))

/-- A character between apostrophes. -/
def quotedChar (c : Char) : String :=
  String.ofList ('\x27' :: (escapeInside '\x27' c ++ ['\x27']))

end Text

end DocumentProof
