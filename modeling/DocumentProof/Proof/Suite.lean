import DocumentProof.Proof.Purpose
import DocumentProof.Schema.Derive
import DocumentProof.Wallet.Basic

/-!
# Making and checking proofs

A suite holds what proofs are made and checked with. To make one, the document is signed as typed
data under a domain and a schema, which is derived from the document if none is given. To check one,
the same typed data is built again, from what the checker gives or what the proof embeds; the
account that signed it has to be the one that the proof names, and the purpose has to accept the
proof.
-/

namespace DocumentProof

/-- What proofs are made and checked with. -/
structure Suite where
  signer : Option Signer
  recoverer : Recoverer
  method : Option MethodId
  date : Option Timestamp

/-- What is signed, and the canonical texts of it and of the proof without its signature and
context. -/
structure VerifyData where
  typedData : TypedData
  canonicalProof : String
  canonicalEnvelope : String
deriving DecidableEq

/-- The choices of someone who makes a proof. -/
structure CreateOptions where
  purpose : Purpose
  method : Option String
  date : Option DateInput
  domain : Option Domain
  types : Option TypeSchema
  primaryType : Option String
  embed : Bool

/-- The choices of someone who checks a proof. -/
structure VerifyOptions where
  purpose : Purpose
  domain : Option Domain
  types : Option SchemaSource
  primaryType : Option String
  loader : Option Loader

/-- The outcome of a check. -/
structure Verification where
  verified : Bool
  method : Option String
  recovered : Option String
  error : Option SuiteError
deriving DecidableEq

namespace VerifyData

def proofDigest (d : VerifyData) : Word := keccak256 (Bytes.ofString d.canonicalProof)

def envelopeDigest (d : VerifyData) : Word := keccak256 (Bytes.ofString d.canonicalEnvelope)

/-- The typed data of a document, with its canonical text and that of the proof. -/
def make (document : Json) (proof : Proof) (domain : Domain) (types : TypeSchema)
    (primaryType : String) : Except SuiteError VerifyData := do
  let canonicalProof ←
    Except.mapError .canonical (proof.withoutContext.toJson.canonicalWithout Proof.valueKey)
  let typedData := TypedData.make domain types primaryType document
  let canonicalEnvelope ← Except.mapError .canonical typedData.canonical
  return ⟨typedData, canonicalProof, canonicalEnvelope⟩

end VerifyData

namespace Verification

/-- Nothing, or the recorded cause. -/
def toExcept (v : Verification) : Except SuiteError Unit :=
  if v.verified then .ok ()
  else .error (v.error.getD (.invalidArgument .noCause))

/-- The outcome for a proof that names `method`, from the recovered account or the cause. A
mismatch still shows the account that was recovered. -/
def ofResult (method : Option String) : Except SuiteError String → Verification
  | .ok recovered => ⟨true, method, some recovered, none⟩
  | .error (.signatureMismatch expected recovered) =>
    ⟨false, method, some recovered, some (.signatureMismatch expected recovered)⟩
  | .error e => ⟨false, method, none, some e⟩

end Verification

/-- The schema that a source gives. -/
def SchemaSource.resolve (loader : Option Loader) : SchemaSource → Except SuiteError TypeSchema
  | .inline types => .ok types
  | .remote uri =>
    match loader with
    | none => .error (.missingLoader uri)
    | some load => do
      let remote ← Except.mapError .loader (load uri)
      Except.mapError .json (TypeSchema.ofJson remote.document)

namespace Suite

/-- A suite from a verification method and a date that have yet to be read. -/
def make [Ecdsa] (signer : Option Signer) (method : Option String) (date : Option DateInput) :
    Except SuiteError Suite := do
  let method ← match method with
    | none => pure none
    | some s =>
      match MethodId.ofText s with
      | .ok id => pure (some id)
      | .error _ => .error (.invalidArgument .methodOfSuite)
  let date ← match date with
    | none => pure none
    | some d => do
      let t ← Except.mapError (fun e => .invalidArgument (.date e)) d.timestamp
      pure (some t)
  return ⟨signer, recoverSigner, method, date⟩

/-- The suite as diagnostics show it. -/
def describe (s : Suite) : String :=
  let option (f : String → String) : Option String → String
    | some x => "Some(" ++ f x ++ ")"
    | none => "None"
  "Eip712Signature2021 \x7b signer: " ++ option Text.quoted (s.signer.map (·.address))
    ++ ", verification_method: "
    ++ option (fun x => "VerificationMethodId(" ++ Text.quoted x ++ ")") (s.method.map (·.text))
    ++ ", date: " ++ option (fun x => "Timestamp(" ++ x ++ ")") (s.date.map (·.toText))
    ++ ", .. \x7d"

/-! ### Making a proof -/

/-- The time that a proof bears: as asked for, else that of the suite, else now. -/
def created (s : Suite) (now : Timestamp) (date : Option DateInput) : Except SuiteError String :=
  match date, s.date with
  | none, some t => .ok t.toText
  | date, _ => Except.mapError (fun e => .invalidArgument (.date e)) (dateText now date)

/-- The verification method that a proof names. -/
def methodFor (s : Suite) (method : Option String) : Except SuiteError (Option MethodId) :=
  match method with
  | some text => (Except.mapError (fun e => .invalidArgument (.method e)) (MethodId.ofText text)).map some
  | none => .ok s.method

/-- The proof with the signature of the data. -/
def sign (s : Suite) (data : VerifyData) (proof : Proof) : Except SuiteError Proof :=
  match s.signer with
  | none => .error .missingSigner
  | some signer => do
    let value ← Except.mapError .crypto (signer.sign data.typedData)
    return { proof with value := some value }

/-- A proof before it is signed. -/
def unsigned (s : Suite) (now : Timestamp) (document : Json) (options : CreateOptions) :
    Except SuiteError Proof := do
  let created ← s.created now options.date
  let method ← s.methodFor options.method
  let proof := { Proof.ofType Proof.suiteType with
    created := some created
    method := method.map fun id => .named id.text }
  return options.purpose.update proof document

/-- The schema to sign with: the one given, else the derived one. -/
def typesFor (document : Json) : Option TypeSchema → Except SuiteError TypeSchema
  | some types => .ok types
  | none => Except.mapError .schema (deriveTypes document)

/-- A proof of a document, and the data that was signed. -/
def createWithData (s : Suite) (now : Timestamp) (document : Json) (options : CreateOptions) :
    Except SuiteError (Proof × VerifyData) := do
  let proof ← s.unsigned now document options
  let types ← typesFor document options.types
  let primaryType := options.primaryType.getD Derive.rootType
  let domain := options.domain.getD Domain.empty
  let data ← VerifyData.make document proof domain types primaryType
  let proof ← s.sign data proof
  return (if options.embed then
      { proof with embedded := some ⟨domain, .inline types, primaryType⟩ }
    else proof, data)

def create (s : Suite) (now : Timestamp) (document : Json) (options : CreateOptions) :
    Except SuiteError Proof := do
  return (← s.createWithData now document options).1

/-! ### Checking a proof -/

/-- The account that signed the data, which has to be the one that the method names. -/
def verifySignature (s : Suite) (t : TypedData) (signature method : String) :
    Except SuiteError String := do
  let expected ← Except.mapError (fun e => .invalidArgument (.method e)) (MethodId.ofText method)
  let recovered ← Except.mapError .crypto (s.recoverer t signature)
  if accountsMatch recovered expected.bareAddress then return recovered
  else .error (.signatureMismatch expected.bareAddress recovered)

/-- The schema to check with: the one given, else the embedded one, else the derived one. -/
def resolveTypes (document : Json) (embedded : Option EmbeddedDomain) (options : VerifyOptions) :
    Except SuiteError TypeSchema :=
  match options.types.or (embedded.map (·.schema)) with
  | some source => source.resolve options.loader
  | none => Except.mapError .schema (deriveTypes document)

/-- The data that a proof is checked against, from what the checker gives, else what the proof
embeds. -/
def rebuild (proof : Proof) (document : Json) (options : VerifyOptions) :
    Except SuiteError VerifyData := do
  let domain := (options.domain.or (proof.embedded.map (·.domain))).getD Domain.empty
  let primaryType :=
    (options.primaryType.or (proof.embedded.map (·.primaryType))).getD Derive.rootType
  let types ← resolveTypes document proof.embedded options
  VerifyData.make document proof.withoutValue domain types primaryType

/-- The account that signed a proof that holds. -/
def check (s : Suite) (proof : Proof) (document : Json) (options : VerifyOptions) :
    Except SuiteError String :=
  if proof.type ≠ Proof.suiteType then .error (.unsupportedType proof.type)
  else
    match proof.value, proof.methodId? with
    | none, _ => .error .missingValue
    | some _, none => .error .missingMethod
    | some signature, some method => do
      let data ← rebuild proof document options
      let recovered ← s.verifySignature data.typedData signature method
      options.purpose.accepts proof.withoutValue document
      return recovered

/-- The outcome of checking a proof. -/
def verify (s : Suite) (proof : Proof) (document : Json) (options : VerifyOptions) : Verification :=
  Verification.ofResult proof.methodId? (s.check proof document options)

end Suite

end DocumentProof
