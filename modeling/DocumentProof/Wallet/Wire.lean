import DocumentProof.TypedData.Error
import DocumentProof.Curve.Ecdsa

/-!
# Signatures as text

A signature is written as `0x` and the hexadecimal digits of 65 bytes: both scalars, and 27 plus the
parity of the nonce's point. Without the 27 it is read as well.
-/

namespace DocumentProof

/-- What the curve says of numbers that are no keys or signatures. -/
def curveFault : String := "signature error"

namespace Signature

/-- The bits of the nonce's point as a number below 4. -/
def recoveryId (s : Signature) : Nat := (if s.reduced then 2 else 0) + (if s.odd then 1 else 0)

def toBytes (s : Signature) : Bytes :=
  s.r.toBytes ++ s.s.toBytes ++ [UInt8.ofNat (27 + s.recoveryId)]

def toText (s : Signature) : String := Hex.encodeMarked s.toBytes

/-- The parity that the last byte gives. -/
def oddOfByte? (b : UInt8) : Option Bool :=
  if b = 27 ∨ b = 0 then some false
  else if b = 28 ∨ b = 1 then some true
  else none

/-- The signature of 65 bytes. -/
def ofBytes (bs : Bytes) : Except CryptoError Signature :=
  if bs.length ≠ 65 then
    .error (.invalidSignature ("expected 65 bytes, got " ++ toString bs.length))
  else
    let last := bs.getD 64 0
    match oddOfByte? last with
    | none => .error (.invalidSignature ("invalid recovery byte " ++ toString last.toNat))
    | some odd =>
      match Scalar.ofNat? (Bytes.toNat (bs.take 32)),
          Scalar.ofNat? (Bytes.toNat ((bs.drop 32).take 32)) with
      | some r, some s => .ok ⟨r, s, odd, false⟩
      | _, _ => .error (.invalidSignature curveFault)

def ofText (s : String) : Except CryptoError Signature :=
  match s.toList with
  | '0' :: 'x' :: digits =>
    match Hex.decode (String.ofList digits) with
    | .ok bs => ofBytes bs
    | .error fault => .error (.hex fault)
  | _ => .error (.invalidSignature "missing 0x prefix")

end Signature

end DocumentProof
