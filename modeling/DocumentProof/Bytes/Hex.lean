import DocumentProof.Bytes.Basic
import DocumentProof.Text.Quoted

/-!
# Hexadecimal text

Two digits a byte, lower case when written and of any case when read. A text that is no such form
is refused for its odd length first, and else for its first byte that is no digit.
-/

namespace DocumentProof

namespace Hex

/-! ### Writing -/

def digit (n : Nat) : Char := "0123456789abcdef".toList.getD n '0'

def byteChars (b : UInt8) : List Char := [digit (b.toNat / 16), digit (b.toNat % 16)]

def encodeChars (bs : Bytes) : List Char := bs.flatMap byteChars

def encode (bs : Bytes) : String := String.ofList (encodeChars bs)

/-- The digits after the mark `0x`. -/
def encodeMarked (bs : Bytes) : String := String.ofList ('0' :: 'x' :: encodeChars bs)

/-! ### Reading -/

/-- Why a text is no hexadecimal form. A byte that is no digit is reported as the character of that
number. -/
inductive Fault where
  | oddLength
  | invalidDigit (c : Char) (position : Nat)
deriving DecidableEq

def Fault.message : Fault → String
  | .oddLength => "Odd number of digits"
  | .invalidDigit c position =>
    "Invalid character " ++ Text.quotedChar c ++ " at position " ++ toString position

def value? (b : UInt8) : Option Nat :=
  let n := b.toNat
  if 48 ≤ n ∧ n ≤ 57 then some (n - 48)
  else if 97 ≤ n ∧ n ≤ 102 then some (n - 87)
  else if 65 ≤ n ∧ n ≤ 70 then some (n - 55)
  else none

/-- Reads pairs of digits, the first of them at `position`. -/
def decodePairs (position : Nat) : Bytes → Except Fault Bytes
  | a :: b :: rest =>
    match value? a, value? b with
    | some x, some y =>
      match decodePairs (position + 2) rest with
      | .ok bs => .ok (UInt8.ofNat (16 * x + y) :: bs)
      | .error e => .error e
    | none, _ => .error (.invalidDigit (Char.ofNat a.toNat) position)
    | _, none => .error (.invalidDigit (Char.ofNat b.toNat) (position + 1))
  | [_] => .error .oddLength
  | [] => .ok []

/-- The bytes that the UTF-8 form of a text writes. -/
def decodeBytes (bs : Bytes) : Except Fault Bytes :=
  if bs.length % 2 = 1 then .error .oddLength else decodePairs 0 bs

def decode (s : String) : Except Fault Bytes := decodeBytes (Bytes.ofString s)

end Hex

end DocumentProof
