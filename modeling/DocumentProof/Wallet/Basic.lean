import DocumentProof.Text.Blank
import DocumentProof.TypedData.Envelope
import DocumentProof.Wallet.Checksum
import DocumentProof.Wallet.Wire

/-!
# Keys, signers and recovery

A wallet holds one private key. What the proofs need of it is a `Signer`: an account, and signatures
of typed data. Checking needs no key: a `Recoverer` gives the account that made a signature.
-/

namespace DocumentProof

/-- An account that signs typed data. -/
structure Signer where
  address : String
  sign : TypedData → Except CryptoError String

/-- The account that made a signature of typed data. -/
abbrev Recoverer := TypedData → String → Except CryptoError String

/-- A private key in memory. -/
structure Wallet where
  key : PrivateKey
deriving DecidableEq

namespace Wallet

/-! ### Keys -/

/-- The key of 24 to 32 bytes, zeros standing in front of fewer than 32. -/
def ofBytes (bs : Bytes) : Except CryptoError Wallet :=
  if 24 ≤ bs.length ∧ bs.length ≤ 32 then
    match Scalar.ofNat? bs.toNat with
    | some key => .ok ⟨key⟩
    | none => .error (.invalidKey curveFault)
  else .error (.invalidKey curveFault)

/-- The key of 64 hexadecimal digits, marked or not, between any blanks. -/
def ofHex (s : String) : Except CryptoError Wallet :=
  let digits := match Text.trim s.toList with
    | '0' :: 'x' :: ds => ds
    | ds => ds
  match Hex.decode (String.ofList digits) with
  | .error fault => .error (.hex fault)
  | .ok bs =>
    if bs.length = 32 then ofBytes bs
    else .error (.invalidKey ("expected 32 bytes (64 hex chars), got " ++ toString bs.length
      ++ " bytes"))

def keyText (w : Wallet) : String := Hex.encodeMarked w.key.toBytes

/-- The account of the wallet. -/
def address (w : Wallet) : String := Address.toText w.key.address

/-- The wallet as diagnostics show it, without its key. -/
def describe (w : Wallet) : String :=
  "LocalWallet \x7b address: " ++ Text.quoted w.address ++ ", .. \x7d"

/-! ### Signing -/

def signHash [Ecdsa] (w : Wallet) (digest : Word) : Except CryptoError String :=
  match Ecdsa.sign? w.key digest with
  | some s => .ok s.toText
  | none => .error (.invalidSignature curveFault)

def sign [Ecdsa] (w : Wallet) (t : TypedData) : Except CryptoError String := do
  w.signHash (← t.signingHash)

def signer [Ecdsa] (w : Wallet) : Signer := ⟨w.address, w.sign⟩

end Wallet

/-! ### Recovery -/

/-- The account that made a signature of a digest. -/
def recoverHash [Ecdsa] (digest : Word) (signature : String) : Except CryptoError String := do
  let s ← Signature.ofText signature
  match (Ecdsa.recover? s digest).bind (·.address?) with
  | some a => return Address.toText a
  | none => .error (.recovery curveFault)

def recoverSigner [Ecdsa] : Recoverer := fun t signature => do
  recoverHash (← t.signingHash) signature

end DocumentProof
