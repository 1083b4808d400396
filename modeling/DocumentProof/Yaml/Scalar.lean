import DocumentProof.Json.Reader
import DocumentProof.Yaml.Mark

/-!
# Scalars

The texts of YAML: plain, in quotes, or as a block. Lines are joined as they are read: one break
between two lines becomes a space, and of several breaks the first is dropped. A literal block keeps
its breaks.

A reader answers the text and the characters after it.
-/

namespace DocumentProof

namespace Yaml

/-- What stands between two words: blanks of one line, or breaks. The first break is kept apart
from the later ones. -/
structure Between where
  blanks : List Char
  first : List Char
  later : List Char

namespace Between

def none : Between := ⟨[], [], []⟩

def hasBreak (b : Between) : Bool := !b.first.isEmpty

/-- The blanks and breaks at the front. Blanks count only before the first break. -/
def read : Between → List Mark → Between × List Mark
  | b, m :: ms =>
    if isSpace m.char then
      read (if b.hasBreak then b else { b with blanks := b.blanks ++ [m.char] }) ms
    else if isBreak m.char then
      read (if b.hasBreak then { b with later := b.later ++ [m.char] }
        else { b with first := [m.char] }) ms
    else (b, m :: ms)
  | b, [] => (b, [])

/-- What joins the words: the blanks, or the breaks with one line feed folded. -/
def joined (b : Between) : List Char :=
  match b.first with
  | [] => b.blanks
  | '\n' :: _ => if b.later.isEmpty then [' '] else b.later
  | first => first ++ b.later

end Between

/-! ### Quoted scalars -/

/-- Characters in single quotes, the quote itself being doubled, up to `n` steps. -/
def readSingle : Nat → List Mark → Option (List Char × List Mark)
  | 0, _ => none
  | n + 1, ms =>
    if isAnyDivider ms ∨ peek ms 0 = '\x00' then none
    else if peek ms 0 = '\x27' then
      if peek ms 1 = '\x27' then (readSingle n (ms.drop 2)).map fun (cs, r) => ('\x27' :: cs, r)
      else some ([], ms.drop 1)
    else if isGap (peek ms 0) then
      let (between, rest) := Between.none.read ms
      (readSingle n rest).map fun (cs, r) => (between.joined ++ cs, r)
    else (readSingle n (ms.drop 1)).map fun (cs, r) => (peek ms 0 :: cs, r)

/-- The character of an escape of one letter. -/
def letterEscape? : Char → Option Char
  | '0' => some '\x00'
  | 'a' => some '\x07'
  | 'b' => some '\x08'
  | 't' | '\t' => some '\t'
  | 'n' => some '\n'
  | 'v' => some '\x0b'
  | 'f' => some '\x0c'
  | 'r' => some '\x0d'
  | 'e' => some '\x1b'
  | ' ' => some ' '
  | '"' => some '"'
  | '/' => some '/'
  | '\\' => some '\\'
  | 'N' => some '\u0085'
  | '_' => some '\u00a0'
  | 'L' => some '\u2028'
  | 'P' => some '\u2029'
  | _ => none

/-- The number of hexadecimal digits after a letter. -/
def escapeDigits? : Char → Option Nat
  | 'x' => some 2
  | 'u' => some 4
  | 'U' => some 8
  | _ => none

/-- The character of hexadecimal digits. Surrogates are none. -/
def hexChar? (ds : List Char) : Option Char := do
  let n ← ds.foldlM (fun n d => (Json.hexValue? d).map (16 * n + ·)) 0
  if n.isValidChar then some (Char.ofNat n) else none

/-- The character of an escape, and what follows it. -/
def readEscape (ms : List Mark) : Option (Char × List Mark) :=
  match escapeDigits? (peek ms 1) with
  | some n =>
    let ds := chars ((ms.drop 2).take n)
    if ds.length = n then (hexChar? ds).map (·, ms.drop (2 + n)) else none
  | none => (letterEscape? (peek ms 1)).map (·, ms.drop 2)

/-- Characters in double quotes, up to `n` steps. A backslash at the end of a line takes the break
away, and so the breaks after it are kept as they are. -/
def readDouble : Nat → List Mark → Option (List Char × List Mark)
  | 0, _ => none
  | n + 1, ms =>
    if isAnyDivider ms ∨ peek ms 0 = '\x00' then none
    else if peek ms 0 = '"' then some ([], ms.drop 1)
    else if peek ms 0 = '\\' then
      if isBreak (peek ms 1) then
        let (between, rest) := (⟨[], ['\n'], []⟩ : Between).read (ms.drop 2)
        (readDouble n rest).map fun (cs, r) => (between.later ++ cs, r)
      else
        match readEscape ms with
        | some (c, rest) => (readDouble n rest).map fun (cs, r) => (c :: cs, r)
        | none => none
    else if isGap (peek ms 0) then
      let (between, rest) := Between.none.read ms
      (readDouble n rest).map fun (cs, r) => (between.joined ++ cs, r)
    else (readDouble n (ms.drop 1)).map fun (cs, r) => (peek ms 0 :: cs, r)

/-- A scalar with its quotes. -/
def readQuoted (ms : List Mark) : Option (String × List Mark) :=
  let tail := if peek ms 0 = '\x27' then readSingle ms.length (ms.drop 1)
    else readDouble ms.length (ms.drop 1)
  tail.map fun (cs, rest) => (String.ofList cs, rest)

/-! ### Plain scalars -/

/-- Ends a plain scalar: a colon before a gap, or in a flow collection a mark of that. -/
def endsPlain (inFlow : Bool) (ms : List Mark) : Bool :=
  (peek ms 0 == ':' && isGap (peek ms 1)) || (inFlow && ",[]\x7b\x7d".toList.contains (peek ms 0))

/-- A colon that a flow collection does not take. -/
def isStrayColon (inFlow : Bool) (ms : List Mark) : Bool :=
  inFlow && peek ms 0 == ':' && ",?[]\x7b\x7d".toList.contains (peek ms 1)

/-- The characters up to a gap or to the end of the scalar. -/
def readWord (inFlow : Bool) : List Mark → Option (List Char × List Mark)
  | [] => some ([], [])
  | m :: ms =>
    if isGap m.char then some ([], m :: ms)
    else if isStrayColon inFlow (m :: ms) then none
    else if endsPlain inFlow (m :: ms) then some ([], m :: ms)
    else (readWord inFlow ms).map fun (cs, rest) => (m.char :: cs, rest)

/-- No tab stands left of the column on a line after the first. -/
def noTabBefore (indent : Nat) (ms : List Mark) : Bool :=
  ((ms.takeWhile fun m => isSpace m.char || isBreak m.char).dropWhile fun m => !isBreak m.char).all
    fun m => m.char != '\t' || indent ≤ m.column

/-- The rest of a plain scalar after some words, up to `n` words more. The last component tells
whether it ends with a line. -/
def readWords (inFlow : Bool) (indent : Nat) :
    Nat → List Mark → Option (List Char × List Mark × Bool)
  | 0, _ => none
  | n + 1, ms =>
    match readWord inFlow ms with
    | none => none
    | some (word, rest) =>
      let (between, after) := Between.none.read rest
      if isGap (peek rest 0) = false ∨ peek rest 0 = '\x00' then some (word, rest, false)
      else if noTabBefore indent rest = false then none
      else if (inFlow = false ∧ column after < indent) ∨ isAnyDivider after ∨ peek after 0 = '#'
          ∨ peek after 0 = '\x00' ∨ endsPlain inFlow after then
        some (word, after, between.hasBreak)
      else (readWords inFlow indent n after).map fun (cs, r) => (word ++ between.joined ++ cs, r)

/-- A plain scalar whose later lines start at a column or right of it. -/
def readPlain (inFlow : Bool) (indent : Nat) (ms : List Mark) :
    Option (String × List Mark × Bool) :=
  (readWords inFlow indent ms.length ms).map fun (cs, r) => (String.ofList cs, r)

/-! ### Block scalars -/

/-- What becomes of the breaks at the end of a block. -/
inductive Chomp where
  | strip
  | clip
  | keep
deriving DecidableEq

/-- How a block starts. -/
structure BlockHead where
  chomp : Chomp
  indent : Option Nat

def chompOf? : Char → Option Chomp
  | '+' => some .keep
  | '-' => some .strip
  | _ => none

def indentOf? (c : Char) : Option Nat := if c.isDigit then some (c.toNat - 48) else none

/-- The signs after the mark of a block, in either order. -/
def readBlockHead (ms : List Mark) : BlockHead × List Mark :=
  match chompOf? (peek ms 0), indentOf? (peek ms 0) with
  | some chomp, _ =>
    match indentOf? (peek ms 1) with
    | some n => (⟨chomp, some n⟩, ms.drop 2)
    | none => (⟨chomp, none⟩, ms.drop 1)
  | none, some n =>
    match chompOf? (peek ms 1) with
    | some chomp => (⟨chomp, some n⟩, ms.drop 2)
    | none => (⟨.clip, some n⟩, ms.drop 1)
  | none, none => (⟨.clip, none⟩, ms)

/-- The lines after blanks and a comment. -/
def dropLine (ms : List Mark) : Option (List Mark) :=
  let rest := dropChars isSpace ms
  let rest := if peek rest 0 = '#' then dropChars (fun c => !isLineEnd c) rest else rest
  if isBreak (peek rest 0) then some (rest.drop 1)
  else if peek rest 0 = '\x00' then some rest
  else none

/-- Empty lines, with their breaks. Of a line no more spaces are taken than the indent has. -/
def readBreaks (indent : Option Nat) : Nat → List Mark → List Char × Nat × List Mark
  | 0, ms => ([], 0, ms)
  | n + 1, ms =>
    let spaces := (ms.takeWhile fun m => m.char == ' ' && indent.all (m.column < ·)).length
    let rest := ms.drop spaces
    if isBreak (peek rest 0) then
      let (cs, widest, r) := readBreaks indent n (rest.drop 1)
      (peek rest 0 :: cs, max (column rest) widest, r)
    else ([], column rest, rest)

/-- The lines of a block, up to `n`, after a break and empty lines. `folds` joins lines that do not
start with a blank, and `afterBlank` tells that the line before did. -/
def readLines (folds : Bool) (indent : Nat) :
    Nat → (afterBlank : Bool) → (first later : List Char) → List Mark →
      Option (List Char × List Char × List Char × List Mark)
  | 0, _, _, _, _ => none
  | n + 1, afterBlank, first, later, ms =>
    if column ms = indent ∧ peek ms 0 ≠ '\x00' then
      let startsBlank := isSpace (peek ms 0)
      let joint :=
        if folds ∧ first = ['\n'] ∧ afterBlank = false ∧ startsBlank = false then
          if later.isEmpty then [' '] else []
        else first
      let line := takeChars (fun c => !isLineEnd c) ms
      let rest := dropChars (fun c => !isLineEnd c) ms
      let ended := takeChars isBreak (rest.take 1)
      let (breaks, _, after) := readBreaks (some indent) ms.length (rest.drop ended.length)
      if column after < indent ∧ peek after 0 = '\t' then none
      else
        (readLines folds indent n startsBlank ended breaks after).map fun (cs, r) =>
          (joint ++ later ++ line ++ cs, r)
    else some ([], first, later, ms)

/-- A block scalar inside of a block that starts at the column `outer`. -/
def readBlock (outer : Option Nat) (ms : List Mark) : Option (String × List Mark) := do
  let folds := peek ms 0 == '>'
  let (head, rest) := readBlockHead (ms.drop 1)
  if head.indent = some 0 then none
  let rest ← dropLine rest
  let given := head.indent.map (outer.getD 0 + ·)
  let (breaks, widest, rest) := readBreaks given ms.length rest
  if peek rest 0 = '\t' ∧ given.all (column rest < ·) then none
  let indent := given.getD (max widest (max (outer.elim 0 (· + 1)) 1))
  let (cs, first, later, rest) ← readLines folds indent ms.length false [] breaks rest
  let ending := match head.chomp with
    | .strip => []
    | .clip => first
    | .keep => first ++ later
  return (String.ofList (cs ++ ending), rest)

end Yaml

end DocumentProof
