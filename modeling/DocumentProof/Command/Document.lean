import DocumentProof.Command.Error
import DocumentProof.Config.Basic
import DocumentProof.Proof.Suite

/-!
# Documents with their proof

A signed document carries its proof as the member `proof`, which is no part of what is signed. The
member is put there by `signDocument` and checked by `verifyDocument`, both under a configuration.
-/

namespace DocumentProof

/-- The member of a document that holds its proof. -/
def proofKey : String := "proof"

/-- A document without its proof, and the proof. -/
def detachProof : Json → Json × Option Json
  | .object ms => (.object (Keyed.remove proofKey ms), Keyed.get? ms proofKey)
  | x => (x, none)

/-- An object with a proof. Other values have no place for one. -/
def attachProof (proof : Json) : Json → Json
  | .object ms => .object (Keyed.put proofKey proof ms)
  | x => x

/-- The method that names an account on a chain. -/
def defaultMethod (chain : UInt64) (address : String) : String :=
  "did:pkh:eip155:" ++ toString chain.toNat ++ ":" ++ address ++ "#blockchainAccountId"

/-! ### Signing -/

/-- A signed document, its proof, and the data that was signed. -/
structure SignedDocument where
  document : Json
  proof : Proof
  data : VerifyData

/-- Signs a document. A proof that it carries is replaced. -/
def signDocument [Ecdsa] (now : Timestamp) (signer : Signer) (method : Option String) (embed : Bool)
    (config : Config) (document : Json) : Except CommandError SignedDocument := do
  let bare := (detachProof document).1
  let method := method.getD (defaultMethod (config.domain.chainId.getD 1) signer.address)
  let purpose ← Except.mapError .config config.purpose.toStandard
  let suite ← Except.mapError .suite (Suite.make (some signer) (some method) none)
  let options : CreateOptions := {
    purpose := purpose.toPurpose
    method := none
    date := none
    domain := some config.domain
    types := none
    primaryType := none
    embed := embed && config.embed }
  let (proof, data) ← Except.mapError .notCreated (suite.createWithData now bare options)
  return ⟨attachProof proof.toJson bare, proof, data⟩

/-! ### Checking -/

/-- The proof that was taken off a document. -/
def decodeProof : Option Json → Except SuiteError Proof
  | none => .error (.invalidArgument .noProof)
  | some x => Except.mapError .json (Proof.ofJson x)

/-- A configured domain stands above the embedded one. -/
def verifyOptions (config : Config) (purpose : StandardPurpose) (documents : KeyMap Json) :
    VerifyOptions where
  purpose := purpose.toPurpose
  domain := if config.domain.isEmpty then none else some config.domain
  types := none
  primaryType := none
  loader := some (Loader.ofMap documents)

/-- A suite that only checks. -/
def Suite.checker [Ecdsa] : Suite := ⟨none, recoverSigner, none, none⟩

/-- Checks the proof that a document carries. A document without one does not hold. -/
def verifyDocument [Ecdsa] (config : Config) (documents : KeyMap Json) (document : Json) :
    Except CommandError Verification := do
  let purpose ← Except.mapError .config config.purpose.toStandard
  let (bare, proof) := detachProof document
  match decodeProof proof with
  | .error e => return ⟨false, none, none, some e⟩
  | .ok proof => return Suite.checker.verify proof bare (verifyOptions config purpose documents)

end DocumentProof
