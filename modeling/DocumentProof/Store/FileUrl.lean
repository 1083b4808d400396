import DocumentProof.Store.Host

/-!
# URLs of files

A URL is read as the URL standard lays down. Of a URL with another scheme than `file` only its being
one matters. A file URL has a host, which is nearly always empty, and a path, in which `.` and `..`
are resolved, backslashes count as slashes, and characters are escaped.
-/

namespace DocumentProof

/-- A URL as far as it matters for finding files. -/
inductive Url where
  | file (host : Option Host) (path : List String) (query fragment : Option String)
  | other
deriving DecidableEq

namespace Url

/-! ### Characters -/

/-- No control or blank at the ends, and no tab or line break anywhere. -/
def clean (cs : List Char) : List Char :=
  let low (c : Char) : Bool := c.toNat ≤ 32
  let inner := ((cs.dropWhile low).reverse.dropWhile low).reverse
  inner.filter fun c => c ≠ '\t' ∧ c ≠ '\n' ∧ c ≠ '\r'

def upperHex (n : Nat) : Char := "0123456789ABCDEF".toList.getD n '0'

/-- The escapes of the bytes of a character. -/
def escape (c : Char) : List Char :=
  (Bytes.ofString (String.singleton c)).flatMap fun b =>
    ['%', upperHex (b.toNat / 16), upperHex (b.toNat % 16)]

/-- The characters with those of a set, controls and everything beyond ASCII escaped. -/
def escapeAll (set : List Char) (cs : List Char) : List Char :=
  cs.flatMap fun c =>
    if c.toNat < 32 ∨ 127 ≤ c.toNat ∨ set.contains c then escape c else [c]

def fragmentSet : List Char := [' ', '"', '<', '>', '\x60']

def pathSet : List Char := fragmentSet ++ ['#', '?', '\x7b', '\x7d', '^']

def querySet : List Char := [' ', '"', '#', '<', '>', '\x27']

/-! ### Schemes -/

/-- The scheme in lower case, and the characters after its colon. -/
def scheme? (cs : List Char) : Option (List Char × List Char) :=
  let isPart (c : Char) : Bool := c.isAlphanum || c == '+' || c == '-' || c == '.'
  match cs with
  | first :: _ =>
    if first.isAlpha then
      match cs.dropWhile isPart with
      | ':' :: rest => some ((cs.takeWhile isPart).map Char.toLower, rest)
      | _ => none
    else none
  | [] => none

/-- Schemes that always have a host. -/
def isHosted (scheme : List Char) : Bool :=
  ["http", "https", "ws", "wss", "ftp"].any fun s => s.toList == scheme

/-! ### Authorities -/

/-- The characters up to the end of an authority, and the rest. -/
def authority (hosted : Bool) (cs : List Char) : List Char × List Char :=
  let ends (c : Char) : Bool := c == '/' || c == '?' || c == '#' || (hosted && c == '\\')
  (cs.takeWhile fun c => !ends c, cs.dropWhile fun c => !ends c)

/-- The part after the last `@`, and whether a name or password stands before it. -/
def withoutUser (cs : List Char) : Except UrlFault (Bool × List Char) :=
  let host := (cs.reverse.takeWhile (· ≠ '@')).reverse
  if host.length = cs.length then .ok (false, cs)
  else
    let user := cs.take (cs.length - host.length - 1)
    if user = [] then if host = [] then .error .emptyHost else .ok (false, host)
    else .ok (user ≠ [':'], host)

/-- The host and what follows its colon. A colon between square brackets belongs to the host. -/
def splitPort : Bool → List Char → List Char × Option (List Char)
  | _, [] => ([], none)
  | inside, c :: cs =>
    if c = ':' ∧ inside = false then ([], some cs)
    else
      let inside := if c = '[' then true else if c = ']' then false else inside
      let (host, portText) := splitPort inside cs
      (c :: host, portText)

def checkPort (ds : List Char) : Except UrlFault Unit :=
  if ds.all Char.isDigit ∧ Host.radixValue 10 ds ≤ 65535 then .ok () else .error .portNumber

/-- The authority after two slashes is one. -/
def checkAuthority (hosted : Bool) (cs : List Char) : Except UrlFault Unit := do
  let (hasUser, rest) ← withoutUser (authority hosted cs).1
  let (hostChars, portText) := splitPort false rest
  if hosted ∧ hostChars = [] then .error .emptyHost
  let host ← if hosted then Host.ofChars hostChars else Host.opaqueOf hostChars
  if host = .domain [] ∧ portText.isSome then .error .emptyHost
  match portText with
  | some ds => checkPort ds
  | none => .ok ()
  if host = .domain [] ∧ hasUser then .error .emptyHost

/-! ### Paths of files -/

/-- Letter and colon, or letter and bar. -/
def isDrive : List Char → Bool
  | [c, d] => c.isAlpha && (d == ':' || d == '|')
  | _ => false

def isPlainDrive : List Char → Bool
  | [c, ':'] => c.isAlpha
  | _ => false

def lowered (cs : List Char) : List Char := cs.map Char.toLower

/-- A part that stands for the same directory. -/
def isPoint (part : List Char) : Bool :=
  part == ['.'] || lowered part == "%2e".toList

/-- A part that stands for the directory above. -/
def isTwoPoints (part : List Char) : Bool :=
  let p := lowered part
  p == "..".toList || p == ".%2e".toList || p == "%2e.".toList || p == "%2e%2e".toList

/-- The parts so far, the last one first, without the last. A drive stays. -/
def shorten : List (List Char) → List (List Char)
  | [] => []
  | p :: ps => if isPlainDrive p then p :: ps else ps

/-- A part as it is kept. A bar after the letter of a drive becomes a colon. -/
def keptPart (p : List Char) : List Char := if isDrive p then p.take 1 ++ [':'] else p

/-- Adds the parts of a path to those so far, the last one first. The path ends in an empty part
where the last part given names a directory. -/
def addParts : List (List Char) → List (List Char) → List (List Char)
  | done, [] => done
  | done, [p] =>
    if isTwoPoints p then [] :: shorten done
    else if isPoint p then [] :: done
    else keptPart p :: done
  | done, p :: ps =>
    if isTwoPoints p then addParts (shorten done) ps
    else if isPoint p then addParts done ps
    else addParts (keptPart p :: done) ps

/-- The parts of a path, without empty ones in front. -/
def pathParts (cs : List Char) : List String :=
  let slashed := cs.map fun c => if c = '\\' then '/' else c
  let escaped := (Host.splitAt '/' slashed).map (escapeAll pathSet)
  let parts := (addParts [] escaped).reverse
  let trimmed := parts.dropWhile (· = [])
  (if trimmed = [] then [[]] else trimmed).map String.ofList

/-- The path, the query and the fragment. -/
def splitTail (cs : List Char) : List Char × Option (List Char) × Option (List Char) :=
  let beforeHash := cs.takeWhile (· ≠ '#')
  let fragment := match cs.dropWhile (· ≠ '#') with
    | _ :: f => some f
    | [] => none
  let path := beforeHash.takeWhile (· ≠ '?')
  let query := match beforeHash.dropWhile (· ≠ '?') with
    | _ :: q => some q
    | [] => none
  (path, query, fragment)

/-- A file URL from its host and everything after it. A path with a drive has no host. -/
def fileUrl (host : Option Host) (cs : List Char) : Url :=
  let (path, query, fragment) := splitTail cs
  let parts := pathParts path
  let host := if parts.any fun p => isPlainDrive p.toList then none else host
  file host parts (query.map fun q => String.ofList (escapeAll querySet q))
    (fragment.map fun f => String.ofList (escapeAll fragmentSet f))

def isSlash (c : Char) : Bool := c == '/' || c == '\\'

/-- The URL after the scheme `file` and its colon. -/
def ofFileChars (cs : List Char) : Except UrlFault Url :=
  match cs with
  | a :: b :: rest =>
    if isSlash a && isSlash b then
      let ends (c : Char) : Bool := isSlash c || c == '?' || c == '#'
      let hostChars := rest.takeWhile fun c => !ends c
      let after := rest.dropWhile fun c => !ends c
      if isDrive hostChars then .ok (fileUrl none rest)
      else if hostChars = [] then .ok (fileUrl none after)
      else do
        let host ← Host.ofChars hostChars
        return fileUrl (if host = .domain "localhost".toList then none else some host) after
    else .ok (fileUrl none cs)
  | cs => .ok (fileUrl none cs)

/-! ### URLs -/

def ofText (s : String) : Except UrlFault Url :=
  match scheme? (clean s.toList) with
  | none => .error .noBase
  | some (scheme, rest) =>
    if scheme = "file".toList then ofFileChars rest
    else if isHosted scheme then do
      checkAuthority true (rest.dropWhile isSlash)
      return other
    else
      match rest with
      | '/' :: '/' :: rest => do
        checkAuthority false rest
        return other
      | _ => .ok other

/-- The text of a file URL. -/
def toText : Url → String
  | other => ""
  | file host path query fragment =>
    "file://" ++ (host.map fun h => String.ofList h.toChars).getD ""
      ++ String.join (path.map ("/" ++ ·)) ++ (query.map ("?" ++ ·)).getD ""
      ++ (fragment.map ("#" ++ ·)).getD ""

/-- The bytes of the path that a file URL names. A drive at the end is a directory. -/
def pathBytes (path : List String) : Bytes :=
  let bs := path.flatMap fun p => 0x2F :: Host.percentDecode (Bytes.ofString p)
  let letter (b : UInt8) : Bool := (65 ≤ b && b ≤ 90) || (97 ≤ b && b ≤ 122)
  match bs.reverse with
  | d :: c :: _ :: _ => if letter c && (d == 0x3A || d == 0x7C) then bs ++ [0x2F] else bs
  | _ => bs

end Url

end DocumentProof
