import DocumentProof.Bytes.Hex
import DocumentProof.Json.Decode

/-!
# Byte strings of fixed length in JSON

Written as hexadecimal digits after `0x`. Read from digits of any case, with or without a mark, or
from an array of numbers.
-/

namespace DocumentProof

namespace FixedHex

/-- What a byte string of `n` bytes may look like, as messages tell it. -/
def shape (n : Nat) : String :=
  toString n ++ " bytes, represented as a hex string of length " ++ toString (2 * n)
    ++ ", an array of u8, or raw bytes"

/-- The bytes of a text after its mark. -/
def afterMark : Bytes → Bytes
  | 0x30 :: 0x78 :: bs => bs
  | 0x30 :: 0x58 :: bs => bs
  | bs => bs

/-- The bytes that a text gives. A text of odd length, mark included, and one of another length are
refused before its digits are looked at. -/
def ofText (n : Nat) (s : String) : Except DecodeError Bytes :=
  let bs := Bytes.ofString s
  let digits := afterMark bs
  if bs.length % 2 = 1 then .error (.rejected "odd number of digits")
  else if digits.length ≠ 2 * n then .error (.rejected "invalid string length")
  else
    match Hex.decodePairs 0 digits with
    | .ok out => .ok out
    | .error .oddLength => .error (.rejected "odd number of digits")
    | .error (.invalidDigit c position) =>
      .error (.rejected ("invalid character " ++ Text.quotedChar c ++ " at position "
        ++ toString position))

/-- A number below 256. -/
def byteOfJson : Json.Decoder UInt8
  | .number (.whole n lower upper) =>
    if 0 ≤ n ∧ n < 256 then .ok (UInt8.ofNat n.toNat)
    else .error (.invalidValue (Json.number (.whole n lower upper)).describe "u8")
  | x => Json.unexpected "u8" x

/-- The bytes that an array gives: `n` numbers. What follows them is refused, except a single item
that is no byte. -/
def ofItems (n : Nat) (xs : List Json) : Except DecodeError Bytes := do
  let bs ← (xs.take n).mapM byteOfJson
  if xs.length < n then
    .error (.invalidLength xs.length ("exactly " ++ toString n ++ " bytes"))
  else
    match xs.drop n with
    | [] => return bs
    | x :: rest =>
      match byteOfJson x, rest with
      | .ok _, _ => .error (.invalidLength (n + 1) ("exactly " ++ toString n ++ " bytes"))
      | .error _, [] => return bs
      | .error _, _ :: _ => .error (.invalidLength xs.length "fewer elements in array")

def ofJson (n : Nat) : Json.Decoder Bytes
  | .string s => ofText n s
  | .array xs => ofItems n xs
  | x => Json.unexpected (shape n) x

end FixedHex

end DocumentProof
