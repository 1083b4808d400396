import DocumentProof.Bytes.Hex
import DocumentProof.Text.Printable

/-!
# Hosts of URLs

A host is a domain, an address of four or of eight numbers, or the opaque text of a scheme with no
rules of its own. A domain that ends in a number has to be an address of four.
-/

namespace DocumentProof

/-- Why a text is no URL. -/
inductive UrlFault where
  | noBase
  | emptyHost
  | domainName
  | domainCharacter
  | portNumber
  | fourNumbers
  | eightNumbers
deriving DecidableEq

def UrlFault.message : UrlFault → String
  | .noBase => "relative URL without a base"
  | .emptyHost => "empty host"
  | .domainName => "invalid international domain name"
  | .domainCharacter => "invalid domain character"
  | .portNumber => "invalid port number"
  | .fourNumbers => "invalid IPv4 address"
  | .eightNumbers => "invalid IPv6 address"

/-- The host of a URL. -/
inductive Host where
  | domain (name : List Char)
  | fourNumbers (value : Nat)
  | eightNumbers (pieces : List Nat)
deriving DecidableEq

namespace Host

/-! ### Percent escapes -/

/-- The bytes with escapes `%XX` replaced by what they stand for. -/
def percentDecode : Bytes → Bytes
  | 0x25 :: a :: b :: rest =>
    match Hex.value? a, Hex.value? b with
    | some x, some y => UInt8.ofNat (16 * x + y) :: percentDecode rest
    | _, _ => 0x25 :: percentDecode (a :: b :: rest)
  | b :: rest => b :: percentDecode rest
  | [] => []

/-- The texts between the marks. -/
def splitAt (mark : Char) (cs : List Char) : List (List Char) :=
  cs.foldr (fun c acc =>
    if c = mark then [] :: acc
    else
      match acc with
      | [] => [[c]]
      | part :: rest => (c :: part) :: rest) [[]]

/-! ### Four numbers -/

def radixValue (radix : Nat) (ds : List Char) : Nat :=
  ds.foldl (fun n c => radix * n + ((Hex.value? (UInt8.ofNat c.toNat)).getD 0)) 0

def isHexDigit (c : Char) : Bool := c.toNat < 128 && (Hex.value? (UInt8.ofNat c.toNat)).isSome

/-- A number in hexadecimal after `0x`, in octal after `0`, else in decimal. -/
def number? : List Char → Option Nat
  | [] => none
  | '0' :: x :: ds =>
    if x = 'x' ∨ x = 'X' then if ds.all isHexDigit then some (radixValue 16 ds) else none
    else if (x :: ds).all fun c => '0' ≤ c ∧ c ≤ '7' then some (radixValue 8 (x :: ds)) else none
  | ds => if ds.all Char.isDigit then some (radixValue 10 ds) else none

/-- The parts between points; one point at the end does not count. -/
def labels (cs : List Char) : List (List Char) :=
  let parts := splitAt '.' cs
  if 1 < parts.length ∧ parts.getLastD [] = [] then parts.dropLast else parts

/-- The last part is a number. -/
def endsInNumber (cs : List Char) : Bool :=
  let last := (labels cs).getLastD []
  (last ≠ [] && last.all Char.isDigit) || (number? last).isSome

/-- The value of up to four numbers, the last of which fills what the others leave. -/
def fourNumbers? (cs : List Char) : Option Nat := do
  let ns ← (labels cs).mapM number?
  let last ← ns.getLast?
  let front := ns.dropLast
  if ns.length ≤ 4 ∧ front.all (· ≤ 255) ∧ last < Nat.pow 256 (5 - ns.length) then
    return front.foldl (fun n x => 256 * n + x) 0 * Nat.pow 256 (5 - ns.length) + last
  else none

/-! ### Eight numbers -/

/-- One of the four numbers at the end: decimal, at most 255, no leading zero. -/
def tailNumber? (ds : List Char) : Option Nat :=
  if ds ≠ [] ∧ ds.all Char.isDigit ∧ (ds.length = 1 ∨ ds.head? ≠ some '0') ∧ radixValue 10 ds ≤ 255
  then some (radixValue 10 ds) else none

/-- A run of pieces between colons; the last may be four decimal numbers for two pieces. -/
def pieces? : List (List Char) → Option (List Nat)
  | [] => some []
  | [last] =>
    if last.contains '.' then
      match (splitAt '.' last).mapM tailNumber? with
      | some [a, b, c, d] => some [256 * a + b, 256 * c + d]
      | _ => none
    else if last ≠ [] ∧ last.length ≤ 4 ∧ last.all isHexDigit then some [radixValue 16 last]
    else none
  | piece :: rest =>
    if piece ≠ [] ∧ piece.length ≤ 4 ∧ piece.all isHexDigit then
      (pieces? rest).map (radixValue 16 piece :: ·)
    else none

/-- The pieces before and after the first two colons side by side. -/
def splitGap : List Char → Option (List Char × List Char)
  | ':' :: ':' :: cs => some ([], cs)
  | c :: cs => (splitGap cs).map fun (a, b) => (c :: a, b)
  | [] => none

def piecesOf? (cs : List Char) : Option (List Nat) :=
  if cs = [] then some [] else pieces? (splitAt ':' cs)

/-- Eight pieces, with one gap for zeros at most. -/
def eightNumbers? (cs : List Char) : Option (List Nat) := do
  match splitGap cs with
  | none =>
    let ps ← piecesOf? cs
    if ps.length = 8 then return ps else none
  | some (front, back) =>
    let ps ← piecesOf? front
    let qs ← piecesOf? back
    if front.contains '.' then none
    else if ps.length + qs.length < 8 then
      return ps ++ List.replicate (8 - ps.length - qs.length) 0 ++ qs
    else none

/-- The address between square brackets. -/
def bracketed (cs : List Char) : Except UrlFault Host :=
  if cs.getLast? = some ']' then
    match eightNumbers? cs.dropLast with
    | some ps => .ok (eightNumbers ps)
    | none => .error .eightNumbers
  else .error .eightNumbers

/-! ### Domains -/

/-- A character that no host has. -/
def isForbidden (c : Char) : Bool :=
  "\x00\t\n\x0d #/:<>?@[\\]^|".toList.contains c

/-- A character that no domain has. -/
def isForbiddenInDomain (c : Char) : Bool :=
  isForbidden c || c.toNat < 32 || c == '%' || c.toNat == 127

/-- Characters that are left out of a domain. -/
def isIgnorable (c : Char) : Bool :=
  c.toNat == 0xAD || c.toNat == 0x200B || c.toNat == 0x2060 || c.toNat == 0xFEFF

/-- A domain in lower case. Characters beyond ASCII are taken as they are. -/
def domainOf (cs : List Char) : Except UrlFault (List Char) :=
  let cs := (cs.filter fun c => !isIgnorable c).map Char.toLower
  if cs.any fun c => isForbiddenInDomain c || (127 < c.toNat && Text.isHidden c) then
    .error .domainName
  else .ok cs

/-- The host of a scheme with rules of its own. -/
def ofChars (cs : List Char) : Except UrlFault Host :=
  match cs with
  | '[' :: rest => bracketed rest
  | cs =>
    match Bytes.toString? (percentDecode (Bytes.ofString (String.ofList cs))) with
    | none => .error .domainName
    | some s => do
      let name ← domainOf s.toList
      if name = [] then .error .emptyHost
      else if endsInNumber name then
        match fourNumbers? name with
        | some n => return fourNumbers n
        | none => .error .fourNumbers
      else return domain name

/-- The host of any other scheme. -/
def opaqueOf (cs : List Char) : Except UrlFault Host :=
  match cs with
  | '[' :: rest => bracketed rest
  | cs => if cs.any isForbidden then .error .domainCharacter else .ok (domain cs)

/-! ### Writing -/

/-- The start and length of the longest run of at least two zeros, the first of those. -/
def longestGap (ps : List Nat) : Option (Nat × Nat) :=
  let runs := (List.range ps.length).map fun i => (i, ((ps.drop i).takeWhile (· == 0)).length)
  runs.foldl (fun best run =>
    if 2 ≤ run.2 ∧ best.all fun b => b.2 < run.2 then some run else best) none

def piecesText (ps : List Nat) : List Char :=
  List.intercalate [':'] (ps.map (Nat.toDigits 16))

def toChars : Host → List Char
  | domain name => name
  | fourNumbers n =>
    List.intercalate ['.'] ([24, 16, 8, 0].map fun s => Nat.toDigits 10 (n / Nat.pow 2 s % 256))
  | eightNumbers ps =>
    match longestGap ps with
    | none => '[' :: (piecesText ps ++ [']'])
    | some (i, n) =>
      '[' :: (piecesText (ps.take i) ++ ':' :: ':' :: (piecesText (ps.drop (i + n)) ++ [']']))

end Host

end DocumentProof
