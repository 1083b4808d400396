import DocumentProof.Identity
import DocumentProof.Json.Canonical
import DocumentProof.Proof.Loader
import DocumentProof.Time.Timestamp
import DocumentProof.TypedData.Error

/-!
# Failures of making and checking proofs
-/

namespace DocumentProof

/-- What is wrong with an argument. -/
inductive ArgumentFault where
  | method (error : InvalidMethodId)
  | date (error : TimestampError)
  | methodOfSuite
  | noProof
  | noCause
deriving DecidableEq

def ArgumentFault.message : ArgumentFault → String
  | .method error => error.message
  | .date error => error.message
  | .methodOfSuite => "\"verificationMethod\" must be a URI string"
  | .noProof => "document has no proof"
  | .noCause => "verification failed without a recorded cause"

/-- Why a proof cannot be made, or does not hold. -/
inductive SuiteError where
  | invalidArgument (fault : ArgumentFault)
  | schema (error : SchemaError)
  | missingSigner
  | missingMethod
  | missingValue
  | unsupportedType (type : String)
  | signatureMismatch (expected recovered : String)
  | purposeMismatch (reason : String)
  | loader (error : LoaderError)
  | missingLoader (uri : String)
  | canonical (error : CanonicalError)
  | crypto (error : CryptoError)
  | json (error : DecodeError)
deriving DecidableEq

namespace SuiteError

def message : SuiteError → String
  | invalidArgument fault => "invalid argument: " ++ fault.message
  | schema error => "schema derivation failed: " ++ error.message
  | missingSigner => "A Web3 Signer API has not been specified"
  | missingMethod => "proof has no verificationMethod"
  | missingValue => "proof has no proofValue"
  | unsupportedType type => "unsupported proof type: " ++ type
  | signatureMismatch expected recovered =>
    "signature mismatch: expected signer " ++ expected ++ ", recovered " ++ recovered
  | purposeMismatch reason => "proof purpose mismatch: " ++ reason
  | loader error => "document loader error: " ++ error.message
  | missingLoader uri => "no document loader available to resolve " ++ uri
  | canonical error => "canonicalization failed: " ++ error.message
  | crypto error => "crypto error: " ++ error.message
  | json error => "JSON error: " ++ error.message

end SuiteError

end DocumentProof
