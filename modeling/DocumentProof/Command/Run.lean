import DocumentProof.Bytes.Hex
import DocumentProof.Command.Document
import DocumentProof.Command.Files
import DocumentProof.Command.Output
import DocumentProof.Json.Writer

/-!
# Running commands

The four commands: to show the schema of a document, to make a key, to sign a document and to check
one. A command prints, and ends with an exit code or with an error; what it printed before an error
stands.
-/

namespace DocumentProof

/-- What to sign, and how. -/
structure SignRequest where
  key : Option String
  method : Option String
  embed : Bool
  file : String
deriving DecidableEq

inductive Command where
  | types (file : String)
  | keygen (directory stem : String)
  | sign (request : SignRequest)
  | verify (file : String)
deriving DecidableEq

/-- What a command needs from outside. -/
structure Surroundings (m : Type → Type) where
  files : Files m
  lookup : String → Option String
  now : m Timestamp
  newWallet : m Wallet

/-- A step that may print and may fail. -/
abbrev Action (m : Type → Type) := ExceptT CommandError (StateT (List Output) m)

namespace Command

variable {m : Type → Type} [Monad m]

/-! ### Steps -/

def emit (out : Output) : Action m Unit := modify (· ++ [out])

def outside {α : Type} (step : m α) : Action m α := ExceptT.lift (StateT.lift step)

/-- A step that prints nothing. -/
def quiet {α : Type} (step : ExceptT CommandError m α) : Action m α := do
  match ← outside step.run with
  | .ok a => return a
  | .error e => throw e

def orThrow {α : Type} : Except CommandError α → Action m α
  | .ok a => pure a
  | .error e => throw e

/-! ### Log lines -/

/-- A method in a log line. One that is missing is empty. -/
def methodField (method : Option String) : String × String :=
  ("verification_method", Text.quoted (method.getD ""))

def createdLog (signed : SignedDocument) : Output :=
  .log .info "created proof" [methodField signed.proof.methodId?,
    ("embedded", if signed.proof.embedded.isSome then "true" else "false"),
    ("proof_digest", Hex.encode signed.data.proofDigest.toBytes),
    ("envelope_digest", Hex.encode signed.data.envelopeDigest.toBytes)]

/-- What is logged of a check. -/
def checkLog (document : Json) (v : Verification) : Output :=
  match decodeProof (detachProof document).2, v.error with
  | .error e, _ => .log .warn "proof rejected before verification" [("error", e.message)]
  | .ok _, some e =>
    .log .warn "proof verification failed" [methodField v.method, ("error", e.message)]
  | .ok _, none =>
    .log .info "proof verified" [methodField v.method, ("recovered", v.recovered.getD "")]

/-! ### Commands -/

def runTypes (world : Surroundings m) (file : String) : Action m UInt8 := do
  let document ← quiet (world.files.readDocument file)
  let types ← orThrow (Except.mapError (.underivable file) (deriveTypes (detachProof document).1))
  emit (.line types.toJson.pretty)
  return 0

/-- Makes a key and writes it and its account to two files. -/
def runKeygen (world : Surroundings m) (directory stem : String) : Action m UInt8 := do
  quiet (Files.orFail (.noDirectory directory) (world.files.ensureDirectory directory))
  let wallet ← outside world.newWallet
  let keyPath := Path.join directory (stem ++ ".key")
  let addressPath := Path.join directory (stem ++ ".addr")
  quiet (Files.orFail (.keyUnwritten keyPath) (world.files.write keyPath wallet.keyText))
  quiet (Files.orFail (.addressUnwritten addressPath)
    (world.files.write addressPath wallet.address))
  emit (.log .info "generated key" [("address", wallet.address)])
  emit (.line "OK: generated secp256k1 key")
  emit (.line ("  Private key: " ++ keyPath))
  emit (.line ("  Address:     " ++ addressPath))
  emit (.line ("  Address (EIP-55): " ++ wallet.address))
  return 0

def runSign (world : Surroundings m) (config : Config) (request : SignRequest) :
    Action m UInt8 := do
  let wallet ← quiet (world.files.loadWallet request.key world.lookup)
  let document ← quiet (world.files.readDocument request.file)
  if (detachProof document).2.isSome then emit (.log .warn "replacing existing proof" [])
  let now ← outside world.now
  let signed ← orThrow
    (signDocument now wallet.signer request.method request.embed config document)
  emit (createdLog signed)
  emit (.line signed.document.pretty)
  return 0

def runVerify (world : Surroundings m) (config : Config) (base file : String) :
    Action m UInt8 := do
  let document ← quiet (world.files.readDocument file)
  discard <| orThrow (Except.mapError .config config.purpose.toStandard)
  let documents ← quiet (world.files.readRemotes config base)
  let v ← orThrow (verifyDocument config documents document)
  emit (checkLog document v)
  if v.verified then
    emit (.line ("OK: proof verified (signer " ++ v.recovered.getD "" ++ ")"))
    return 0
  else
    emit (.line ("FAIL: " ++ (v.error.map (·.message)).getD "unknown error"))
    return 1

/-- Runs a command. Paths in the configuration start from `base`. -/
def run (world : Surroundings m) (config : Config) (base : String) : Command → Action m UInt8
  | types file => runTypes world file
  | keygen directory stem => runKeygen world directory stem
  | sign request => runSign world config request
  | verify file => runVerify world config base file

end Command

end DocumentProof
