import DocumentProof.Config.Basic
import DocumentProof.Store.FileStore

/-!
# Failures of commands

Each failure names the step that failed, and then its cause. A cause that quotes its own cause is
followed by that once more, since every link of the chain is shown.
-/

namespace DocumentProof

/-- Why a command gives no result. -/
inductive CommandError where
  | documentMissing (path : String)
  | documentUnreadable (path : String) (fault : FileFault)
  | documentNotJson (path : String)
  | documentNotObject (path : String)
  | keyMissing (path : String)
  | keyUnreadable (path : String) (fault : FileFault)
  | noKey
  | invalidKey (error : CryptoError)
  | configUnreadable (path : String) (fault : FileFault)
  | configNotYaml (path : String)
  | config (fault : ConfigFault)
  | remoteUnreadable (uri path : String) (fault : FileFault)
  | remoteNotYaml (path : String)
  | underivable (path : String) (error : SchemaError)
  | suite (error : SuiteError)
  | notCreated (error : SuiteError)
  | noDirectory (path : String) (fault : FileFault)
  | keyUnwritten (path : String) (fault : FileFault)
  | addressUnwritten (path : String) (fault : FileFault)
deriving DecidableEq

/-- The causes that the message of an error quotes. -/
def CryptoError.causes : CryptoError → List String
  | .invalidTypeReference error => [error.message]
  | _ => []

def LoaderError.causes : LoaderError → List String
  | .unreadable _ reason => [reason]
  | .notJson _ => ["<json error>"]
  | _ => []

def SuiteError.causes : SuiteError → List String
  | .schema error => [error.message]
  | .loader error => error.message :: error.causes
  | .canonical error => [error.message]
  | .crypto error => error.message :: error.causes
  | .json error => [error.message]
  | _ => []

namespace CommandError

/-- The step that failed, and the causes. -/
def chain : CommandError → List String
  | documentMissing path => ["document file not found: " ++ path]
  | documentUnreadable path fault => ["failed to read document: " ++ path, fault.message]
  | documentNotJson path => ["failed to parse JSON: " ++ path, "<json error>"]
  | documentNotObject path => ["document must be a JSON object: " ++ path]
  | keyMissing path => ["private key file not found: " ++ path]
  | keyUnreadable path fault => ["failed to read private key: " ++ path, fault.message]
  | noKey => ["no signing key: pass --key or set ETHSIG_PRIVATE_KEY"]
  | invalidKey error => "invalid private key" :: error.message :: error.causes
  | configUnreadable path fault => ["failed to read config: " ++ path, fault.message]
  | configNotYaml path => ["failed to parse config: " ++ path, "<yaml error>"]
  | config fault => [fault.message]
  | remoteUnreadable uri path fault =>
    ["failed to read document for " ++ uri ++ ": " ++ path, fault.message]
  | remoteNotYaml path => ["failed to parse document: " ++ path, "<yaml error>"]
  | underivable path error => ["cannot derive types for " ++ path, error.message]
  | suite error => error.message :: error.causes
  | notCreated error => "failed to create proof" :: error.message :: error.causes
  | noDirectory path fault => ["failed to create output directory: " ++ path, fault.message]
  | keyUnwritten path fault => ["failed to write private key: " ++ path, fault.message]
  | addressUnwritten path fault => ["failed to write address: " ++ path, fault.message]

def message (e : CommandError) : String := String.intercalate ": " e.chain

end CommandError

end DocumentProof
