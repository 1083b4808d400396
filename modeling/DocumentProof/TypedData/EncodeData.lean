import DocumentProof.TypedData.EncodeType

/-!
# The words of a value

A value of a type is encoded as one word: text and byte strings are hashed, numbers, booleans and
accounts stand at the right end, byte strings of fixed length at the left end. An array is the hash
of the words of its items, and a struct the hash of its type's hash and the words of its fields.

A struct takes an object that has exactly its fields.
-/

namespace DocumentProof

namespace Encode

/-! ### Integers as text -/

/-- The value of a digit or letter. -/
def digitValue? (c : Char) : Option Nat :=
  if '0' ≤ c ∧ c ≤ '9' then some (c.toNat - 48)
  else if 'a' ≤ c ∧ c ≤ 'z' then some (c.toNat - 87)
  else if 'A' ≤ c ∧ c ≤ 'Z' then some (c.toNat - 55)
  else none

/-- The number that digits give. Underscores between, before or after them are skipped. -/
def radixValue? (radix : Nat) (cs : List Char) : Option Nat :=
  cs.foldlM (fun n c =>
    if c = '_' then some n
    else
      match digitValue? c with
      | some d => if d < radix then some (n * radix + d) else none
      | none => none) 0

/-- A natural number of one word as text: decimal, or hexadecimal after `0x`. -/
def naturalText? (cs : List Char) : Option Nat :=
  let (radix, digits) := match cs with
    | '0' :: 'x' :: ds => (16, ds)
    | ds => (10, ds)
  if digits = [] then none
  else
    match radixValue? radix digits with
    | some n => if n < Nat.pow 2 256 then some n else none
    | none => none

/-- The same after at most one minus sign. -/
def integerText? : List Char → Option Int
  | '-' :: cs => (naturalText? cs).map fun n => -(n : Int)
  | cs => (naturalText? cs).map fun n => (n : Int)

/-- The natural number that a number or a text gives. -/
def natural? : Json → Option Nat
  | .number n => n.toNat?
  | .string s => naturalText? s.toList
  | _ => none

/-- The integer that a number or a text gives. -/
def integer? : Json → Option Int
  | .number (.whole n _ _) => some n
  | .string s => integerText? s.toList
  | _ => none

/-! ### Atomic values -/

abbrev Result := Except CryptoError Word

def invalid {α : Type} (t : FieldType) (v : Json) (reason : String) : Except CryptoError α :=
  .error (.invalidValue t.toText v reason)

/-- The bytes that a text gives in hexadecimal digits after `0x`. -/
def hexBytes (t : FieldType) (v : Json) : Except CryptoError Bytes :=
  match v with
  | .string s =>
    match s.toList with
    | '0' :: 'x' :: digits =>
      match Hex.decode (String.ofList digits) with
      | .ok bs => .ok bs
      | .error fault => invalid t v fault.message
    | _ => invalid t v "missing 0x prefix"
  | _ => invalid t v "expected a hex string"

/-- The digits after a mark `0x` or `0X`, if there is one. -/
def afterMark : List Char → List Char
  | '0' :: 'x' :: cs => cs
  | '0' :: 'X' :: cs => cs
  | cs => cs

/-- The account that forty hexadecimal digits give, marked or not. -/
def account? (s : String) : Option Word :=
  match Hex.decode (String.ofList (afterMark s.toList)) with
  | .ok bs => if bs.length = 20 then some (Word.ofBytes bs) else none
  | .error _ => none

/-- The word of a value of a type that is no array and no struct. -/
def atom (t : FieldType) (v : Json) : Result :=
  match t with
  | .bool =>
    match v with
    | .bool b => .ok (if b then 1 else 0)
    | _ => invalid t v "expected a boolean"
  | .string =>
    match v with
    | .string s => .ok (keccak256 (Bytes.ofString s))
    | _ => invalid t v "expected a string"
  | .bytes => do return keccak256 (← hexBytes t v)
  | .address =>
    match v with
    | .string s =>
      match account? s with
      | some w => .ok w
      | none => invalid t v "expected 20 hex bytes"
    | _ => invalid t v "expected a hex string"
  | .uint w =>
    match natural? v with
    | none => invalid t v "expected an unsigned integer"
    | some n =>
      if n < Nat.pow 2 (FieldType.bitCount w) then .ok (BitVec.ofNat 256 n)
      else invalid t v "out of range"
  | .int w =>
    match integer? v with
    | none => invalid t v "expected an integer"
    | some n =>
      let bound := Nat.pow 2 (FieldType.bitCount w - 1)
      if -(bound : Int) ≤ n ∧ n < bound then .ok (BitVec.ofInt 256 n)
      else invalid t v "out of range"
  | .fixedBytes w => do
    let bs ← hexBytes t v
    if bs.length ≤ FieldType.byteCount w then return Word.ofBytes (Bytes.padRight 32 bs)
    else invalid t v "too many bytes"
  | _ => invalid t v "expected an atomic value"

/-- The words one after the other. -/
def concat (ws : List Word) : Bytes := ws.flatMap Word.toBytes

/-! ### Structs and arrays -/

/-- What encodes the value under a key, once its type is known. -/
abbrev Encoder := FieldType → Result

/-- The words of the fields of a struct. -/
def fieldWords (typeName : String) (encoders : List (String × Encoder)) :
    List Field → Except CryptoError (List Word)
  | [] => .ok []
  | f :: fs =>
    match encoders.lookup f.name with
    | none => .error (.missingField typeName f.name)
    | some encode => do
      let word ← encode (← TypeSchema.typeOf f)
      let words ← fieldWords typeName encoders fs
      return word :: words

/-- The first key that the fields of a struct do not declare. -/
def undeclared? (fields : List Field) (ms : List (String × Json)) : Option String :=
  (ms.map (·.1)).find? fun key => !fields.any fun f => f.name == key

/-- The hash of a struct's type and the words of its fields, for the value `v`. -/
def structWords (types : TypeSchema) (typeName : String) (v : Json)
    (encoders : List (String × Encoder)) : Except CryptoError (List Word) := do
  let fields ← types.fieldsOf typeName
  match v with
  | .object ms =>
    match undeclared? fields ms with
    | some key => .error (.unexpectedField typeName key)
    | none =>
      let hash ← types.typeHash typeName
      let words ← fieldWords typeName encoders fields
      return hash :: words
  | _ => .error (.invalidValue typeName v "expected an object")

/-- The reason to refuse so many items for an array of a given length. -/
def lengthFault? : Option UInt64 → Nat → Option String
  | some n, got =>
    if got = n.toNat then none
    else some ("expected " ++ toString n.toNat ++ " elements, got " ++ toString got)
  | none, _ => none

mutual

/-- The word of a value. -/
def value (types : TypeSchema) (v : Json) (t : FieldType) : Result :=
  match t with
  | .array item length =>
    match v with
    | .array xs =>
      match lengthFault? length xs.length with
      | some reason => invalid t v reason
      | none => do return keccak256 (concat (← items types xs item))
    | _ => invalid t v "expected an array"
  | .struct name => do
    let encoders := match v with
      | .object ms => memberEncoders types ms
      | _ => []
    return keccak256 (concat (← structWords types name v encoders))
  | t => atom t v

/-- The words of the items of an array. -/
def items (types : TypeSchema) (xs : List Json) (t : FieldType) : Except CryptoError (List Word) :=
  match xs with
  | [] => .ok []
  | x :: xs => do
    let word ← value types x t
    let words ← items types xs t
    return word :: words

/-- What encodes each member of an object. -/
def memberEncoders (types : TypeSchema) (ms : List (String × Json)) : List (String × Encoder) :=
  match ms with
  | [] => []
  | (key, x) :: ms => (key, fun t => value types x t) :: memberEncoders types ms

end

end Encode

namespace TypeSchema

/-- The hash of a struct's type and the words of the fields of a value, as bytes. -/
def encodeData (types : TypeSchema) (typeName : String) (v : Json) : Except CryptoError Bytes := do
  let encoders := match v with
    | .object ms => Encode.memberEncoders types ms
    | _ => []
  return Encode.concat (← Encode.structWords types typeName v encoders)

def hashStruct (types : TypeSchema) (typeName : String) (v : Json) : Except CryptoError Word := do
  return keccak256 (← types.encodeData typeName v)

end TypeSchema

end DocumentProof
