import DocumentProof.Bytes.Hex
import DocumentProof.Curve.Ecdsa

/-!
# Account text

An account is written as forty hexadecimal digits after `0x`. The case of a letter is a check: it is
upper case where the digit at the same place in the hash of the lower-case digits is 8 or more.
-/

namespace DocumentProof

namespace Address

def lowerDigits (a : Address) : List Char := Hex.encodeChars (Bytes.ofNat 20 a.toNat)

/-- Upper case for a letter whose check digit is 8 or more. -/
def checkedDigit (digit check : Char) : Char := if '8' ≤ check then digit.toUpper else digit

def toText (a : Address) : String :=
  let digits := lowerDigits a
  let checks := Hex.encodeChars (keccak256 (Bytes.ofString (String.ofList digits))).toBytes
  String.ofList ('0' :: 'x' :: List.zipWith checkedDigit digits checks)

end Address

end DocumentProof
