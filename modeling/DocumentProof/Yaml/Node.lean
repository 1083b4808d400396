import DocumentProof.Yaml.Token

/-!
# Nodes

A document of YAML is a tree of scalars, sequences and mappings. An alias stands for the node that
its anchor names, which has to be complete before. `Node.read?` reads the one document of a text.

Trees are at most 128 collections deep, and hold at most 100 copies of nodes for each part of the
text.
-/

namespace DocumentProof

namespace Yaml

inductive Node where
  | scalar (tag : Option String) (plain : Bool) (text : String)
  | sequence (tag : Option String) (items : List Node)
  | mapping (tag : Option String) (entries : List (Node × Node))
deriving Inhabited

namespace Node

/-- What stands where nothing is written. -/
def empty : Node := .scalar none true ""

/-- A node with the number of collections inside each other and the number of copies in it. -/
structure Part where
  node : Node
  depth : Nat
  copies : Nat

namespace Part

def ofNode (x : Node) : Part := ⟨x, 0, 0⟩

/-- The node of some parts. -/
def collect (ps : List Part) (make : List Node → Node) : Part :=
  ⟨make (ps.map (·.node)), (ps.map (·.depth)).foldl max 0 + 1, (ps.map (·.copies)).foldl (· + ·) 0⟩

def sequence (tag : Option String) (ps : List Part) : Part := collect ps (Node.sequence tag)

def mapping (tag : Option String) (ps : List (Part × Part)) : Part :=
  { collect (ps.flatMap fun p => [p.1, p.2]) (Node.sequence tag) with
    node := Node.mapping tag (ps.map fun p => (p.1.node, p.2.node)) }

end Part

/-- The tokens to come, the anchors so far, the newest first, of which one without a part is not
complete, the stems of the handles, and the number of parts of the text. -/
structure Reading where
  tokens : List Token
  anchors : List (String × Option Part)
  handles : List (String × String)
  size : Nat

abbrev Reader := StateT Reading Option

/-! ### Steps -/

def peekToken : Reader (Option Token) := do return (← get).tokens.head?

def skipToken : Reader Unit := modify fun r => { r with tokens := r.tokens.drop 1 }

def count (n : Nat) : Reader Unit := modify fun r => { r with size := r.size + n }

def readEmpty : Reader Part := do
  count 1
  return Part.ofNode empty

def setAnchor (name : Option String) (part : Option Part) : Reader Unit :=
  match name with
  | some name => modify fun r => { r with anchors := (name, part) :: r.anchors }
  | none => pure ()

def readAlias (name : String) : Reader Part := do
  count 1
  match ((← get).anchors.lookup name).join with
  | some part => return { part with copies := part.copies + 1 }
  | none => failure

/-- A tag in full. -/
def fullTag (handle suffix : String) : Reader String := do
  if handle = "" then return suffix
  else
    match (← get).handles.lookup handle with
    | some stem => return stem ++ suffix
    | none => failure

/-- The anchor and the tag before a node, in either order. -/
def readProperties : Reader (Option String × Option String) := do
  match ← peekToken with
  | some (.anchor name) =>
    skipToken
    match ← peekToken with
    | some (.tag handle suffix) =>
      skipToken
      return (some name, some (← fullTag handle suffix))
    | _ => return (some name, none)
  | some (.tag handle suffix) =>
    skipToken
    match ← peekToken with
    | some (.anchor name) =>
      skipToken
      return (some name, some (← fullTag handle suffix))
    | _ => return (none, some (← fullTag handle suffix))
  | _ => return (none, none)

/-! ### Nodes -/

/-- A node, or the empty one before one of these tokens. -/
def orEmpty (stops : List Token) (read : Reader Part) : Reader Part := do
  match ← peekToken with
  | none => readEmpty
  | some t => if stops.contains t then readEmpty else read

/-- A value after its mark, or the empty node. -/
def afterValue (stops : List Token) (read : Reader Part) : Reader Part := do
  match ← peekToken with
  | some .value =>
    skipToken
    orEmpty stops read
  | _ => readEmpty

/-- The key of one pair in a flow sequence. An empty key takes the next token away. -/
def readPairKey (read : Reader Part) : Reader Part := do
  match ← peekToken with
  | some .value | some .comma | some .flowSequenceEnd =>
    skipToken
    readEmpty
  | _ => read

/-- The key and the value of one pair in a flow sequence. -/
def readPair (read : Reader Part) : Reader Part := do
  count 2
  let key ← readPairKey read
  let value ← afterValue [.comma, .flowSequenceEnd] read
  return Part.mapping none [(key, value)]

/-- The comma before a further part of a flow collection. -/
def readComma (first : Bool) : Reader Unit := do
  if first then return
  match ← peekToken with
  | some .comma => skipToken
  | _ => failure

mutual

/-- A node. Block collections begin only inside of blocks, and entries without a column of their
own only where a mapping has its values. -/
def read (block bare : Bool) : Nat → Reader Part
  | 0 => failure
  | n + 1 => do
    match ← peekToken with
    | some (.alias name) =>
      skipToken
      readAlias name
    | _ =>
      let (anchor, tag) ← readProperties
      setAnchor anchor none
      let part ← readContent block bare (anchor.isSome || tag.isSome) tag n
      setAnchor anchor (some part)
      return part

def readContent (block bare hasProperties : Bool) (tag : Option String) : Nat → Reader Part
  | 0 => failure
  | n + 1 => do
    match ← peekToken, block, bare with
    | some .entry, _, true =>
      count 2
      return Part.sequence tag (← readBareItems n)
    | some (.scalar plain text), _, _ =>
      count 1
      skipToken
      return Part.ofNode (.scalar (tag.filter (· ≠ "!")) plain text)
    | some .flowSequenceStart, _, _ =>
      count 2
      skipToken
      return Part.sequence tag (← readFlowItems true n)
    | some .flowMappingStart, _, _ =>
      count 2
      skipToken
      return Part.mapping tag (← readFlowEntries true n)
    | some .sequenceStart, true, _ =>
      count 2
      skipToken
      return Part.sequence tag (← readItems n)
    | some .mappingStart, true, _ =>
      count 2
      skipToken
      return Part.mapping tag (← readEntries n)
    | _, _, _ =>
      if hasProperties then
        count 1
        return Part.ofNode (.scalar tag true "")
      else failure

def readItems : Nat → Reader (List Part)
  | 0 => failure
  | n + 1 => do
    match ← peekToken with
    | some .entry =>
      skipToken
      let item ← orEmpty [.entry, .blockEnd] (read true false n)
      return item :: (← readItems n)
    | some .blockEnd =>
      skipToken
      return []
    | _ => failure

/-- Entries that stand at the column of the mapping around them. -/
def readBareItems : Nat → Reader (List Part)
  | 0 => failure
  | n + 1 => do
    match ← peekToken with
    | some .entry =>
      skipToken
      let item ← orEmpty [.entry, .key, .value, .blockEnd] (read true false n)
      return item :: (← readBareItems n)
    | _ => return []

def readEntries : Nat → Reader (List (Part × Part))
  | 0 => failure
  | n + 1 => do
    match ← peekToken with
    | some .key =>
      skipToken
      let key ← orEmpty [.key, .value, .blockEnd] (read true true n)
      let value ← afterValue [.key, .value, .blockEnd] (read true true n)
      return (key, value) :: (← readEntries n)
    | some .blockEnd =>
      skipToken
      return []
    | _ => failure

def readFlowItems (first : Bool) : Nat → Reader (List Part)
  | 0 => failure
  | n + 1 => do
    if (← peekToken) = some .flowSequenceEnd then
      skipToken
      return []
    readComma first
    match ← peekToken with
    | some .flowSequenceEnd =>
      skipToken
      return []
    | some .key =>
      skipToken
      let item ← readPair (read false false n)
      return item :: (← readFlowItems false n)
    | _ =>
      let item ← read false false n
      return item :: (← readFlowItems false n)

def readFlowEntries (first : Bool) : Nat → Reader (List (Part × Part))
  | 0 => failure
  | n + 1 => do
    if (← peekToken) = some .flowMappingEnd then
      skipToken
      return []
    readComma first
    match ← peekToken with
    | some .flowMappingEnd =>
      skipToken
      return []
    | some .key =>
      skipToken
      let key ← orEmpty [.value, .comma, .flowMappingEnd] (read false false n)
      let value ← afterValue [.comma, .flowMappingEnd] (read false false n)
      return (key, value) :: (← readFlowEntries false n)
    | _ =>
      let key ← read false false n
      let value ← readEmpty
      return (key, value) :: (← readFlowEntries false n)

end

/-! ### Documents -/

/-- Versions that are known. -/
def isKnown (major minor : Nat) : Bool := major == 1 && (minor == 1 || minor == 2)

/-- The directives before a document, each version and handle at most once. -/
def readDirectives : List Token → (hasVersion : Bool) → List (String × String) →
    Option (List (String × String) × List Token)
  | .version major minor :: ts, hasVersion, handles =>
    if hasVersion ∨ isKnown major minor = false then none else readDirectives ts true handles
  | .handle name stem :: ts, hasVersion, handles =>
    if (handles.lookup name).isSome then none
    else readDirectives ts hasVersion (handles ++ [(name, stem)])
  | ts, _, handles => some (handles, ts)

def isDirective : Token → Bool
  | .version _ _ | .handle _ _ => true
  | _ => false

/-- The handles that are known without directives. -/
def commonHandles : List (String × String) := [("!", "!"), ("!!", "tag:yaml.org,2002:")]

/-- The node of a document, after its start. -/
def readRoot (explicit : Bool) (n : Nat) : Reader Part := do
  match explicit, ← peekToken with
  | true, none => readEmpty
  | true, some t =>
    if isDirective t ∨ t = .documentStart ∨ t = .documentEnd then readEmpty else read true false n
  | false, _ => read true false n

/-- The one document that tokens give. -/
def ofTokens? (ts : List Token) : Option Node := do
  let (directives, rest) ← readDirectives ts false []
  let (explicit, rest) ← match rest with
    | .documentStart :: rest => some (true, rest)
    | rest => if ts.head?.any isDirective then none else some (false, rest)
  if explicit = false ∧ rest = [] then return empty
  let start : Reading := ⟨rest, [], directives ++ commonHandles, 0⟩
  let (part, final) ← (readRoot explicit (3 * rest.length + 4)).run start
  if (final.tokens.dropWhile (· = .documentEnd)).isEmpty ∧ part.depth ≤ 128
      ∧ part.copies ≤ 100 * final.size then
    return part.node
  else none

/-- The one document of a text. -/
def read? (s : String) : Option Node := do ofTokens? (← tokens? s)

end Node

end Yaml

end DocumentProof
