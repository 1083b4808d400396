import DocumentProof.Curve.Secp256k1
import DocumentProof.Hash.Keccak
import DocumentProof.Hash.Sha256

/-!
# Signatures from which the signer is recovered

ECDSA over secp256k1. The nonce is derived from the key and the digest as RFC 6979 lays down, with
SHA-256. Of the two values `s` that fit a nonce the smaller one is used, and recovery refuses the
other. A signature carries the two bits that tell which point the nonce gave.
-/

namespace DocumentProof

open Secp256k1

/-- A number from 1 to the order of the group, that excluded. -/
structure Scalar where
  value : Nat
  pos : 0 < value
  lt : value < groupOrder
deriving DecidableEq

namespace Scalar

def ofNat? (n : Nat) : Option Scalar :=
  if h : 0 < n ∧ n < groupOrder then some ⟨n, h.1, h.2⟩ else none

def toBytes (s : Scalar) : Bytes := Bytes.ofNat 32 s.value

/-- At most half the order of the group. -/
def isLow (s : Scalar) : Bool := decide (s.value ≤ groupOrder / 2)

/-- The other value with the same first coordinate. -/
def neg (s : Scalar) : Scalar :=
  ⟨groupOrder - s.value, Nat.sub_pos_of_lt s.lt, Nat.sub_lt (Nat.lt_trans s.pos s.lt) s.pos⟩

end Scalar

/-- A private key. -/
abbrev PrivateKey := Scalar

/-- A signature with the bits of the nonce's point: the parity of its second coordinate, and
whether the first was reduced. -/
structure Signature where
  r : Scalar
  s : Scalar
  odd : Bool
  reduced : Bool
deriving DecidableEq

/-! ### Nonces -/

/-- The state of the generator of nonces. -/
structure NonceState where
  key : Bytes
  value : Bytes

namespace NonceState

/-- Mixes a mark and data into the state. -/
def mix (st : NonceState) (mark : UInt8) (data : Bytes) : NonceState :=
  let key := hmacSha256 st.key (st.value ++ mark :: data)
  ⟨key, hmacSha256 key st.value⟩

def start (key : PrivateKey) (digest : Bytes) : NonceState :=
  let seed := key.toBytes ++ digest
  ((NonceState.mk (List.replicate 32 0) (List.replicate 32 1)).mix 0 seed).mix 1 seed

/-- The first candidate that is a scalar, of at most `n`. -/
def first? : Nat → NonceState → Option Scalar
  | 0, _ => none
  | n + 1, st =>
    let value := hmacSha256 st.key st.value
    match Scalar.ofNat? value.toNat with
    | some k => some k
    | none => first? n (NonceState.mix ⟨st.key, value⟩ 0 [])

end NonceState

/-! ### Signing and recovering -/

/-- The digest as a number modulo the order. -/
def digestScalar (digest : Word) : Nat := digest.toNat % groupOrder

/-- The signature of a digest, or `none` if no nonce gives one. -/
def PrivateKey.sign? (key : PrivateKey) (digest : Word) : Option Signature := do
  let nonce ← NonceState.first? 64 (NonceState.start key digest.toBytes)
  let (x, y) ← (Point.generator.smul nonce.value).affine?
  let r ← Scalar.ofNat? (x % groupOrder)
  let s ← Scalar.ofNat? (invMod groupOrder nonce.value
    * ((digestScalar digest + r.value * key.value) % groupOrder) % groupOrder)
  let odd := decide (y % 2 = 1)
  let reduced := decide (groupOrder ≤ x)
  return if s.isLow then ⟨r, s, odd, reduced⟩ else ⟨r, s.neg, !odd, reduced⟩

/-- The public key under which the signature of a digest holds. -/
def Signature.recover? (signature : Signature) (digest : Word) : Option Point := do
  if !signature.s.isLow then none
  let x := signature.r.value + if signature.reduced then groupOrder else 0
  let point ← Point.lift? x signature.odd
  let inverse := invMod groupOrder signature.r.value
  let u := groupOrder - inverse * digestScalar digest % groupOrder
  let v := inverse * signature.s.value % groupOrder
  let key := (Point.generator.smul u).add (point.smul v)
  if key.isInfinity then none else some key

/-- What signs digests and recovers keys. Wallets and checks use nothing else of the curve, so they
are stated for any such scheme; the scheme at hand is the one above. -/
class Ecdsa where
  sign? : PrivateKey → Word → Option Signature
  recover? : Signature → Word → Option Point

instance Ecdsa.secp256k1 : Ecdsa := ⟨PrivateKey.sign?, Signature.recover?⟩

/-! ### Addresses -/

/-- An account address: 160 bits. -/
abbrev Address := BitVec 160

/-- The last 20 bytes of the hash of a public key, if the key is a point. -/
def Secp256k1.Point.address? (p : Point) : Option Address := do
  let (x, y) ← p.affine?
  return (keccak256 (Bytes.ofNat 32 x ++ Bytes.ofNat 32 y)).setWidth 160

/-- The public key of a private key. -/
def PrivateKey.publicKey (key : PrivateKey) : Point := Point.generator.smul key.value

/-- The address of a private key. No multiple of the generator by a scalar is the point at
infinity, so the zero address never arises. -/
def PrivateKey.address (key : PrivateKey) : Address := (key.publicKey.address?).getD 0

end DocumentProof
