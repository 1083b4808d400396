import DocumentProof.Json.Decode
import DocumentProof.Yaml.Node
import DocumentProof.Yaml.Plain

/-!
# Values of nodes

Nodes as JSON values, and as values of types that are expected. Where a text is expected every
scalar gives its own. Tags that are not of YAML itself have no value.
-/

namespace DocumentProof

namespace Yaml

namespace Node

/-! ### Values in JSON -/

/-- A tag of one's own. -/
def isLocal (tag : Option String) : Bool := tag.any fun t => t.toList.head? == some '!'

/-- A scalar whose tag tells the type. -/
def tagged? (tag text : String) : Option Json :=
  let cs := text.toList
  if tag = "tag:yaml.org,2002:bool" then (Plain.bool? text).map .bool
  else if tag = "tag:yaml.org,2002:int" then
    (Plain.integer? cs).bind fun n => (Number.ofInt? n).map .number
  else if tag = "tag:yaml.org,2002:float" then
    if Plain.isInfinite cs ∨ Plain.isNoNumber text then some .null
    else ((Plain.decimal? (Plain.unsigned cs)).bind
      (Binary64.ofDecimal? (cs.head? = some '-'))).map fun x => .number (.double x)
  else if tag = "tag:yaml.org,2002:null" then if Plain.isNull text then some .null else none
  else some (.string text)

def scalarJson? (tag : Option String) (plain : Bool) (text : String) : Option Json :=
  match tag with
  | some t => if isLocal tag then none else tagged? t text
  | none => if plain then (Plain.ofText text).toJson? text else some (.string text)

/-- The text of a scalar. -/
def text? : Node → Option String
  | scalar _ _ text => some text
  | _ => none

mutual

/-- The value in JSON. All keys are texts, and of two members with one key the later one stands. -/
def toJson? : Node → Option Json
  | scalar tag plain text => scalarJson? tag plain text
  | sequence tag items => if isLocal tag then none else (itemsJson? items).map .array
  | mapping tag entries => if isLocal tag then none else (membersJson? entries).map Json.ofMembers

def itemsJson? : List Node → Option (List Json)
  | [] => some []
  | x :: xs => do return (← x.toJson?) :: (← itemsJson? xs)

def membersJson? : List (Node × Node) → Option (List (String × Json))
  | [] => some []
  | (k, x) :: es => do return (← k.text?, ← x.toJson?) :: (← membersJson? es)

end

mutual

/-- Every scalar in the node has a value. Keys may be of any kind. -/
def hasValue : Node → Bool
  | scalar tag plain text => (scalarJson? tag plain text).isSome
  | sequence tag items => !isLocal tag && itemsHaveValue items
  | mapping tag entries => !isLocal tag && entriesHaveValue entries

def itemsHaveValue : List Node → Bool
  | [] => true
  | x :: xs => x.hasValue && itemsHaveValue xs

def entriesHaveValue : List (Node × Node) → Bool
  | [] => true
  | (k, x) :: es => k.hasValue && x.hasValue && entriesHaveValue es

end

/-! ### Expected types -/

/-- A truth value, which is never quoted. -/
def bool? : Node → Option Bool
  | scalar _ true text => Plain.bool? text
  | _ => none

/-- A value that may be absent. -/
def option? {α : Type} (item : Node → Option α) : Node → Option (Option α)
  | scalar none true text =>
    if text = "" ∨ Plain.isNull text then some none else (item (scalar none true text)).map some
  | scalar (some tag) true text =>
    if tag = "tag:yaml.org,2002:null" then if Plain.isNull text then some none else none
    else (item (scalar (some tag) true text)).map some
  | x => (item x).map some

/-- The entries of a mapping by their texts. Nothing written counts as no entries. -/
def entries? : Node → Option (List (String × Node))
  | mapping _ entries => entries.mapM fun (k, x) => k.text?.map (·, x)
  | scalar _ true "" => some []
  | _ => none

/-- The fields of a record: known ones, each at most once. -/
def fields? (known : List String) (x : Node) : Option (List (String × Node)) := do
  let es ← x.entries?
  if es.all (known.contains ·.1) ∧ (es.map (·.1)).Nodup then return es else none

/-- The value of a field that may be missing. -/
def field? {α : Type} (item : Node → Option α) (default : α) (name : String)
    (es : List (String × Node)) : Option α :=
  match es.lookup name with
  | some x => item x
  | none => some default

/-- The value that a decoder gives for the value in JSON. -/
def decode? {α : Type} (item : Json.Decoder α) (x : Node) : Option α := do
  (item (← x.toJson?)).toOption

end Node

end Yaml

end DocumentProof
