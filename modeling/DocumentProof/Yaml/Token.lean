import DocumentProof.Yaml.Scalar

/-!
# Tokens

The tokens of YAML text. Blocks are shown by columns in the text and by tokens here: a column right
of the one at hand opens a block, and one left of it closes blocks. That a word is a key is known
only when its colon comes, so its place is kept and the token of the key is put there later.
-/

namespace DocumentProof

namespace Yaml

inductive Token where
  | version (major minor : Nat)
  | handle (name stem : String)
  | documentStart
  | documentEnd
  | sequenceStart
  | mappingStart
  | blockEnd
  | flowSequenceStart
  | flowSequenceEnd
  | flowMappingStart
  | flowMappingEnd
  | entry
  | comma
  | key
  | value
  | alias (name : String)
  | anchor (name : String)
  | tag (handle suffix : String)
  | scalar (plain : Bool) (text : String)
deriving DecidableEq, Inhabited

/-- A place where a key may have begun. One at the column of its block has to be a key. -/
structure PossibleKey where
  index : Nat
  required : Bool
  start : Mark

/-- The tokens so far, the columns of the open blocks, the innermost first, whether a key may begin
here, and for each open flow collection, the innermost first, and for the block around them, the
place where a key may have begun. -/
structure Lexer where
  tokens : Array Token
  indents : List Nat
  keyAllowed : Bool
  keys : List (Option PossibleKey)

namespace Lexer

def start : Lexer := ⟨#[], [], true, [none]⟩

def inFlow (s : Lexer) : Bool := 1 < s.keys.length

/-- The column of the innermost block. -/
def indent? (s : Lexer) : Option Nat := s.indents.head?

/-- The first column right of the innermost block. -/
def inner (s : Lexer) : Nat := s.indent?.elim 0 (· + 1)

def push (s : Lexer) (t : Token) : Lexer := { s with tokens := s.tokens.push t }

def insert (s : Lexer) (i : Nat) (t : Token) : Lexer :=
  { s with tokens := (s.tokens.extract 0 i).push t ++ s.tokens.extract i s.tokens.size }

def allowKey (s : Lexer) (allowed : Bool) : Lexer := { s with keyAllowed := allowed }

/-! ### Blocks -/

/-- Opens a block at a column right of the innermost one. -/
def openBlock (s : Lexer) (column index : Nat) (t : Token) : Lexer :=
  if s.inFlow ∨ column < s.inner then s
  else { s.insert index t with indents := column :: s.indents }

/-- Closes the blocks right of a column. -/
def closeBlocks (s : Lexer) (isRight : Nat → Bool) : Lexer :=
  if s.inFlow then s
  else
    let closed := (s.indents.takeWhile isRight).map fun _ => Token.blockEnd
    { s with tokens := s.tokens ++ closed.toArray, indents := s.indents.dropWhile isRight }

/-! ### Possible keys -/

def key? (s : Lexer) : Option PossibleKey := (s.keys.head?).join

def setKey (s : Lexer) (key : Option PossibleKey) : Lexer :=
  { s with keys := key :: s.keys.drop 1 }

/-- Gives up the possible key at hand, unless it is required. -/
def dropKey (s : Lexer) : Option Lexer :=
  match s.key? with
  | some k => if k.required then none else some (s.setKey none)
  | none => some s

/-- Notes that a key may begin here. -/
def saveKey (s : Lexer) (m : Mark) : Option Lexer :=
  if s.keyAllowed then do
    let s ← s.dropKey
    return s.setKey (some ⟨s.tokens.size, !s.inFlow && s.indent? == some m.column, m⟩)
  else some s

/-- Gives up the keys that began on an earlier line, or too far back. -/
def dropStale (s : Lexer) (m : Mark) : Option Lexer := do
  let isStale (k : PossibleKey) : Bool :=
    k.start.line < m.line || k.start.column + 1024 < m.column
  if s.keys.any fun k => k.any fun k => isStale k && k.required then none
  else return { s with keys := s.keys.map (·.filter fun k => !isStale k) }

/-! ### Between tokens -/

/-- Skips blanks, breaks and comments. After a break a key may begin. A tab may stand only where no
key may begin. -/
def skip (s : Lexer) (inComment : Bool) : List Mark → Lexer × List Mark
  | [] => (s, [])
  | m :: ms =>
    if isBreak m.char then skip (if s.inFlow then s else s.allowKey true) false ms
    else if (inComment ∧ m.char ≠ '\x00') ∨ m.char = '#' then skip s true ms
    else if m.char = ' ' ∨ (m.char = '\t' ∧ (s.inFlow ∨ s.keyAllowed = false)) then skip s false ms
    else if m.char = '\uFEFF' ∧ m.column = 0 then skip s false ms
    else (s, m :: ms)

/-! ### Directives -/

def number? (ds : List Char) : Option Nat :=
  if ds ≠ [] ∧ ds.length < 10 then some (Json.digitsValue ds) else none

def readVersion (ms : List Mark) : Option (Token × List Mark) := do
  let rest := dropChars isSpace ms
  let major ← number? (takeChars Char.isDigit rest)
  let rest := dropChars Char.isDigit rest
  if peek rest 0 ≠ '.' then none
  let minor ← number? (takeChars Char.isDigit (rest.drop 1))
  return (.version major minor, dropChars Char.isDigit (rest.drop 1))

/-- A character of the name of a tag. -/
def isTagChar (c : Char) : Bool := isWord c || ";/?:@&=+$.!~*'()%".toList.contains c

/-- The same, outside of flow collections. -/
def isWideTagChar (c : Char) : Bool := isTagChar c || c == ',' || c == '[' || c == ']'

/-- Two hexadecimal digits follow each percent sign. -/
def escapesHold : List Char → Bool
  | '%' :: a :: b :: cs => (Json.hexValue? a).isSome && (Json.hexValue? b).isSome && escapesHold cs
  | '%' :: _ => false
  | _ :: cs => escapesHold cs
  | [] => true

/-- The handle of a tag: letters between exclamation marks, or one mark alone. -/
def readHandle (ms : List Mark) : List Char × List Mark :=
  let name := '!' :: takeChars isWord (ms.drop 1)
  let rest := dropChars isWord (ms.drop 1)
  if peek rest 0 = '!' then (name ++ ['!'], rest.drop 1) else (name, rest)

def readHandleDirective (ms : List Mark) : Option (Token × List Mark) := do
  let rest := dropChars isSpace ms
  if peek rest 0 ≠ '!' then none
  let (name, rest) := readHandle rest
  if name ≠ ['!'] ∧ name.getLast? ≠ some '!' then none
  if isSpace (peek rest 0) = false then none
  let rest := dropChars isSpace rest
  let stem := takeChars isWideTagChar rest
  let rest := dropChars isWideTagChar rest
  if stem = [] ∨ escapesHold stem = false ∨ isGap (peek rest 0) = false then none
  return (.handle (String.ofList name) (String.ofList stem), rest)

/-- A line that starts with a percent sign. -/
def readDirective (ms : List Mark) : Option (Token × List Mark) := do
  let name := String.ofList (takeChars isWord (ms.drop 1))
  let rest := dropChars isWord (ms.drop 1)
  if isGap (peek rest 0) = false then none
  let (t, rest) ←
    if name = "YAML" then readVersion rest
    else if name = "TAG" then readHandleDirective rest
    else none
  return (t, ← dropLine rest)

/-! ### Names and tags -/

/-- The name of an anchor or an alias. -/
def readName (ms : List Mark) : Option (String × List Mark) :=
  let name := takeChars isWord (ms.drop 1)
  let rest := dropChars isWord (ms.drop 1)
  if name ≠ [] ∧ (isGap (peek rest 0) ∨ "?:,]\x7d%@".toList.contains (peek rest 0)
      ∨ peek rest 0 = '\x60') then
    some (String.ofList name, rest)
  else none

/-- A tag: in full between angle brackets, or after a handle. -/
def readTag (inFlow : Bool) (ms : List Mark) : Option (Token × List Mark) := do
  let (t, rest) ←
    if peek ms 1 = '<' then
      let name := takeChars isWideTagChar (ms.drop 2)
      let rest := dropChars isWideTagChar (ms.drop 2)
      if name = [] ∨ escapesHold name = false ∨ peek rest 0 ≠ '>' then none
      else some (Token.tag "" (String.ofList name), rest.drop 1)
    else
      let (handle, rest) := readHandle ms
      let suffix := takeChars isTagChar rest
      let rest := dropChars isTagChar rest
      if escapesHold suffix = false then none
      else if 1 < handle.length ∧ handle.getLast? = some '!' then
        if suffix = [] then none
        else some (Token.tag (String.ofList handle) (String.ofList suffix), rest)
      else if handle.drop 1 ++ suffix = [] then some (Token.tag "" "!", rest)
      else some (Token.tag "!" (String.ofList (handle.drop 1 ++ suffix)), rest)
  if isGap (peek rest 0) ∨ (inFlow ∧ peek rest 0 = ',') then return (t, rest) else none

/-! ### One token -/

/-- A mark that opens or closes a flow collection. -/
def flowMark? : Char → Option Token
  | '[' => some .flowSequenceStart
  | '\x7b' => some .flowMappingStart
  | ']' => some .flowSequenceEnd
  | '\x7d' => some .flowMappingEnd
  | _ => none

def openFlow (s : Lexer) (m : Mark) (t : Token) : Option Lexer := do
  let s ← s.saveKey m
  return { s with keys := none :: s.keys, keyAllowed := true }.push t

def closeFlow (s : Lexer) (t : Token) : Option Lexer := do
  let s ← s.dropKey
  let s := if s.inFlow then { s with keys := s.keys.drop 1 } else s
  return (s.allowKey false).push t

/-- The dash of an entry. -/
def pushEntry (s : Lexer) (m : Mark) : Option Lexer :=
  if s.inFlow = false ∧ s.keyAllowed = false then none
  else do
    let s ← (s.openBlock m.column s.tokens.size .sequenceStart).dropKey
    return (s.allowKey true).push .entry

/-- The question mark of a key. -/
def pushKey (s : Lexer) (m : Mark) : Option Lexer :=
  if s.inFlow = false ∧ s.keyAllowed = false then none
  else do
    let s ← (s.openBlock m.column s.tokens.size .mappingStart).dropKey
    return (s.allowKey !s.inFlow).push .key

/-- The colon of a value. What stood where a key may begin was the key. -/
def pushValue (s : Lexer) (m : Mark) : Option Lexer :=
  match s.key? with
  | some k =>
    let s := (s.insert k.index .key).openBlock k.start.column k.index .mappingStart
    some (((s.setKey none).allowKey false).push .value)
  | none =>
    if s.inFlow then some ((s.allowKey false).push .value)
    else if s.keyAllowed = false then none
    else some (((s.openBlock m.column s.tokens.size .mappingStart).allowKey true).push .value)

/-- A plain scalar may begin here. -/
def startsPlain (inFlow : Bool) (ms : List Mark) : Bool :=
  let c := peek ms 0
  !(isGap c || "-?:,[]\x7b\x7d#&*!|>\x27\"%@".toList.contains c || c == '\x60')
    || (c == '-' && !isSpace (peek ms 1))
    || (!inFlow && (c == '?' || c == ':') && !isGap (peek ms 1))

/-- Reads one token, which begins at the front. -/
def readToken (s : Lexer) (ms : List Mark) : Option (Lexer × List Mark) :=
  let m := place ms
  let named (make : String → Token) : Option (Lexer × List Mark) := do
    let s ← s.saveKey m
    let (name, rest) ← readName ms
    return ((s.allowKey false).push (make name), rest)
  let divided (t : Token) : Option (Lexer × List Mark) := do
    let s ← (s.closeBlocks fun _ => true).dropKey
    return ((s.allowKey false).push t, ms.drop 3)
  if m.column = 0 ∧ m.char = '%' then do
    let s ← (s.closeBlocks fun _ => true).dropKey
    let (t, rest) ← readDirective ms
    return ((s.allowKey false).push t, rest)
  else if isDivider '-' ms then divided .documentStart
  else if isDivider '.' ms then divided .documentEnd
  else
    match m.char, flowMark? m.char with
    | '[', some t | '\x7b', some t => (s.openFlow m t).map (·, ms.drop 1)
    | _, some t => (s.closeFlow t).map (·, ms.drop 1)
    | ',', none => do
      let s ← s.dropKey
      return ((s.allowKey true).push .comma, ms.drop 1)
    | '*', none => named .alias
    | '&', none => named .anchor
    | '!', none => do
      let s ← s.saveKey m
      let (t, rest) ← readTag s.inFlow ms
      return ((s.allowKey false).push t, rest)
    | c, none =>
      if c = '-' ∧ isGap (peek ms 1) then (s.pushEntry m).map (·, ms.drop 1)
      else if c = '?' ∧ (s.inFlow ∨ isGap (peek ms 1)) then (s.pushKey m).map (·, ms.drop 1)
      else if c = ':' ∧ (s.inFlow ∨ isGap (peek ms 1)) then (s.pushValue m).map (·, ms.drop 1)
      else if (c = '|' ∨ c = '>') ∧ s.inFlow = false then do
        let s ← s.dropKey
        let (text, rest) ← readBlock s.indent? ms
        return ((s.allowKey true).push (.scalar false text), rest)
      else if c = '\x27' ∨ c = '"' then do
        let s ← s.saveKey m
        let (text, rest) ← readQuoted ms
        return ((s.allowKey false).push (.scalar false text), rest)
      else if startsPlain s.inFlow ms then do
        let s ← s.saveKey m
        let (text, rest, endsLine) ← readPlain s.inFlow s.inner ms
        return ((s.allowKey endsLine).push (.scalar true text), rest)
      else none

/-- Reads all tokens, at most `n`. -/
def readAll : Nat → Lexer → List Mark → Option (Array Token)
  | 0, _, _ => none
  | n + 1, s, ms => do
    let (s, ms) := s.skip false ms
    let s ← s.dropStale (place ms)
    if peek ms 0 = '\x00' then
      let s ← (s.closeBlocks fun _ => true).dropKey
      return s.tokens
    else
      let s := s.closeBlocks (column ms < ·)
      let (s, ms) ← s.readToken ms
      readAll n s ms

end Lexer

/-- The tokens of a text. -/
def tokens? (s : String) : Option (List Token) := do
  let ms ← marks? s
  return (← Lexer.readAll (ms.length + 1) Lexer.start ms).toList

end Yaml

end DocumentProof
