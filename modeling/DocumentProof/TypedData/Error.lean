import DocumentProof.Bytes.Hex
import DocumentProof.Schema.Basic

/-!
# Failures of hashing, signing and recovering
-/

namespace DocumentProof

/-- Why typed data cannot be hashed or signed, or a signer not be recovered. -/
inductive CryptoError where
  | unknownType (name : String)
  | invalidTypeReference (error : SchemaError)
  | missingField (typeName field : String)
  | unexpectedField (typeName field : String)
  | invalidValue (typeName : String) (value : Json) (reason : String)
  | invalidSignature (reason : String)
  | invalidKey (reason : String)
  | recovery (reason : String)
  | hex (fault : Hex.Fault)
deriving DecidableEq

namespace CryptoError

def message : CryptoError → String
  | unknownType name => "type " ++ Text.quoted name ++ " is not defined in the schema"
  | invalidTypeReference error => "invalid type reference: " ++ error.message
  | missingField typeName field =>
    "missing field " ++ Text.quoted field ++ " of type " ++ Text.quoted typeName
  | unexpectedField typeName field =>
    "field " ++ Text.quoted field ++ " is not declared by type " ++ Text.quoted typeName
  | invalidValue typeName value reason =>
    "cannot encode " ++ value.compact ++ " as " ++ typeName ++ ": " ++ reason
  | invalidSignature reason => "invalid signature: " ++ reason
  | invalidKey reason => "invalid private key: " ++ reason
  | recovery reason => "signer recovery failed: " ++ reason
  | hex fault => "hex decode error: " ++ fault.message

end CryptoError

end DocumentProof
