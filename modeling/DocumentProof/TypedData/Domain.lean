import DocumentProof.Curve.Ecdsa
import DocumentProof.TypedData.EncodeData
import DocumentProof.TypedData.FixedHex

/-!
# The domain of a signature

The application that a signature belongs to. All members are optional, and the struct type of a
domain has the fields of the members that are present, in a fixed order.
-/

namespace DocumentProof

/-- The application that a signature belongs to. -/
structure Domain where
  name : Option String
  version : Option String
  chainId : Option UInt64
  verifyingContract : Option Address
  salt : Option Word
deriving DecidableEq, Inhabited

namespace Domain

def empty : Domain := ⟨none, none, none, none, none⟩

/-- The reserved name of the struct type of a domain. -/
def typeName : String := "EIP712Domain"

/-! ### Type and hash -/

/-- The fields of the members that are present. -/
def fields (d : Domain) : List Field :=
  [d.name.map fun _ => ⟨"name", "string"⟩, d.version.map fun _ => ⟨"version", "string"⟩,
    d.chainId.map fun _ => ⟨"chainId", "uint256"⟩,
    d.verifyingContract.map fun _ => ⟨"verifyingContract", "address"⟩,
    d.salt.map fun _ => ⟨"salt", "bytes32"⟩].filterMap id

def isEmpty (d : Domain) : Bool := d.fields.isEmpty

/-- The words of the members that are present. -/
def words (d : Domain) : List Word :=
  [d.name.map fun s => keccak256 (Bytes.ofString s),
    d.version.map fun s => keccak256 (Bytes.ofString s),
    d.chainId.map fun n => BitVec.ofNat 256 n.toNat,
    d.verifyingContract.map fun a => a.setWidth 256, d.salt].filterMap id

/-- The hash that separates the signatures of one domain from those of others. -/
def separator (d : Domain) : Word :=
  keccak256 (Encode.concat
    (keccak256 (Bytes.ofString (TypeSchema.renderType typeName d.fields)) :: d.words))

/-! ### JSON form -/

def addressText (a : Address) : String := Hex.encodeMarked (Bytes.ofNat 20 a.toNat)

def wordText (w : Word) : String := Hex.encodeMarked w.toBytes

def toJson (d : Domain) : Json :=
  Json.ofMembers ([d.name.map fun s => ("name", .string s),
    d.version.map fun s => ("version", .string s),
    d.chainId.map fun n => ("chainId", Json.ofNat n.toNat),
    d.verifyingContract.map fun a => ("verifyingContract", .string (addressText a)),
    d.salt.map fun w => ("salt", .string (wordText w))].filterMap id)

/-- Why digits give no unsigned integer of 64 bits. -/
inductive WordFault where
  | empty
  | invalidDigit
  | tooLarge
deriving DecidableEq

def WordFault.message : WordFault → String
  | .empty => "cannot parse integer from empty string"
  | .invalidDigit => "invalid digit found in string"
  | .tooLarge => "number too large to fit in target type"

/-- The number that digits give, or the first fault from the left. -/
def digitsWord (radix : Nat) (ds : List Char) : Except WordFault UInt64 := do
  let n ← ds.foldlM (fun (n : Nat) c =>
    match Encode.digitValue? c with
    | some d =>
      if radix ≤ d then .error .invalidDigit
      else if n * radix + d < 0x10000000000000000 then .ok (n * radix + d)
      else .error .tooLarge
    | none => .error .invalidDigit) 0
  return UInt64.ofNat n

/-- Digits after at most one plus sign. -/
def signedDigitsWord (radix : Nat) : List Char → Except WordFault UInt64
  | [] => .error .empty
  | '+' :: [] => .error .invalidDigit
  | '+' :: ds => digitsWord radix ds
  | ds => digitsWord radix ds

/-- A chain identifier as text: decimal, or hexadecimal after `0x`. -/
def chainIdOfText (s : String) : Except WordFault UInt64 :=
  match s.toList with
  | '0' :: 'x' :: ds => signedDigitsWord 16 ds
  | ds => signedDigitsWord 10 ds

/-- An unsigned number or a text. -/
def chainIdOfJson : Json.Decoder UInt64
  | .number n =>
    match n.toNat? with
    | some n => .ok (UInt64.ofNat n)
    | none => .error (.noVariant "Repr")
  | .string s =>
    match chainIdOfText s with
    | .ok n => .ok n
    | .error fault =>
      .error (.rejected ("invalid chainId " ++ Text.quoted s ++ ": " ++ fault.message))
  | _ => .error (.noVariant "Repr")

def addressOfJson : Json.Decoder Address := fun x => do
  return BitVec.ofNat 160 (← FixedHex.ofJson 20 x).toNat

def wordOfJson : Json.Decoder Word := fun x => do return Word.ofBytes (← FixedHex.ofJson 32 x)

def memberNames : List String := ["name", "version", "chainId", "verifyingContract", "salt"]

/-- Tries the member under a key. No other keys than those of a domain are taken. -/
def checkMember (key : String) (x : Json) : Except DecodeError Unit :=
  match key with
  | "name" | "version" => Json.attempt (Json.decodeOption Json.decodeString) x
  | "chainId" => Json.attempt (Json.decodeOption chainIdOfJson) x
  | "verifyingContract" => Json.attempt (Json.decodeOption addressOfJson) x
  | "salt" => Json.attempt (Json.decodeOption wordOfJson) x
  | key => .error (.unknownField key memberNames)

def ofJson : Json.Decoder Domain
  | .object ms => do
    Json.checkMembers checkMember ms
    return {
      name := ← Json.optional (Json.decodeOption Json.decodeString) none "name" ms
      version := ← Json.optional (Json.decodeOption Json.decodeString) none "version" ms
      chainId := ← Json.optional (Json.decodeOption chainIdOfJson) none "chainId" ms
      verifyingContract :=
        ← Json.optional (Json.decodeOption addressOfJson) none "verifyingContract" ms
      salt := ← Json.optional (Json.decodeOption wordOfJson) none "salt" ms }
  | .array xs => do
    let name ← Json.optionalAt (Json.decodeOption Json.decodeString) none 0 xs
    let version ← Json.optionalAt (Json.decodeOption Json.decodeString) none 1 xs
    let chainId ← Json.optionalAt (Json.decodeOption chainIdOfJson) none 2 xs
    let contract ← Json.optionalAt (Json.decodeOption addressOfJson) none 3 xs
    let salt ← Json.optionalAt (Json.decodeOption wordOfJson) none 4 xs
    Json.atMost 5 xs
    return ⟨name, version, chainId, contract, salt⟩
  | x => Json.unexpected "struct Eip712Domain" x

end Domain

end DocumentProof
